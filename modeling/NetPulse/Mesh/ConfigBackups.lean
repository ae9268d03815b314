import NetPulse.Lib.Machine
import NetPulse.Lib.Prog
import Mathlib.Data.List.Sort

/-
# NetPulse.Mesh.ConfigBackups — the backups of `config.yaml` (`services/config/service.py`)

Before a text is put in the place of `config.yaml` what stands there is copied to a directory of
backups, unless the latest backup has it already, and all but the ten latest backups are taken away.
Every operation on a file can fail; one that writes can leave a part of what it was to write.

`backups_kept` says what every call of `save` and `restore` leaves in every run. The rotation takes
away the younger ones of the files that are too many first, so that it loses a younger backup and
keeps an older one if it fails in between; `Orderly` is the condition that it does not.
-/

namespace NetPulse.Mesh.ConfigBackups

open NetPulse.Lib NetPulse.Lib.Prog

/-! ## §1 Files -/

abbrev Bytes := List UInt8

structure Backup where
  name : String
  content : Bytes
  mtime : Nat
  deriving DecidableEq

/-- What is on the disk. -/
structure Store where
  /-- `config.yaml` -/
  file : Bytes
  /-- `config.yaml.tmp` -/
  tmp : Option Bytes
  /-- `config.yaml.backups/config_*.yaml` -/
  backups : List Backup
  /-- The time that the next file gets. -/
  clock : Nat

def Store.names (s : Store) : List String := s.backups.map Backup.name

/-- An operation fails: before the file is there, or when so many bytes are written. -/
structure Fault where
  written : Option Nat

structure World where
  store : Store
  /-- What `config.yaml` held before each of the operations so far. -/
  seen : List Bytes
  /-- For each operation to come whether it fails. -/
  faults : List (Option Fault)
  /-- The same for each `unlink` to come. -/
  unlinks : List Bool

/-- `OSError` -/
inductive Trouble where
  | failure

abbrev Work (α : Type) := Prog Trouble World α

def World.look (w : World) : World := { w with seen := w.seen ++ [w.store.file] }

/-- Whether the next operation fails. -/
def draw : Work (Option Fault) := fun w =>
  match w.faults with
  | [] => .ok none w.look
  | fault :: rest => .ok fault { w.look with faults := rest }

/-- An operation that reads, or whose effect does not matter here. -/
def attempt : Work Unit := do
  match ← draw with
  | none => pure ()
  | some _ => throw .failure

def onStore (f : Store → Store) : Work Unit := fun w => .ok () { w with store := f w.store }

def getStore : Work Store := fun w => .ok w.store w

/-! ## §2 `_backup_and_write` -/

def MAX_BACKUPS : Nat := 10

/-- `config_{stamp}.yaml`, and `config_{stamp}_{n}.yaml` from 1 on. -/
def backupName (stamp : String) (n : Nat) : String :=
  if n = 0 then "config_" ++ stamp ++ ".yaml" else "config_" ++ stamp ++ "_" ++ n.repr ++ ".yaml"

/-- `target.exists()` -/
def pathExists (name : String) : Work Bool := do
  attempt
  pure (decide (name ∈ (← getStore).names))

/-- `while target.exists()`; there are fewer files than rounds (`freeName_spec`). -/
def freeName (stamp : String) : Nat → Nat → Work String
  | 0, n => pure (backupName stamp n)
  | rounds + 1, n => do
      if ← pathExists (backupName stamp n) then freeName stamp rounds (n + 1)
      else pure (backupName stamp n)

/-- `sorted(…, key=lambda x: x.stat().st_mtime, reverse=True)` -/
def latestFirst (backups : List Backup) : List Backup :=
  backups.insertionSort fun a b => b.mtime ≤ a.mtime

/-- The same for the files of the directory, each of which is asked for its time. -/
def sortedBackups : Work (List Backup) := do
  attempt
  pure (latestFirst (← getStore).backups)

/-- `latest.read_bytes() == content`, and `False` if it cannot be read. -/
def sameAs (latest : Backup) (content : Bytes) : Work Bool := do
  match ← draw with
  | none => pure (decide (latest.content = content))
  | some _ => pure false

def Store.addBackup (name : String) (content : Bytes) (s : Store) : Store :=
  { s with
    backups := s.backups ++ [⟨name, content, s.clock⟩]
    clock := s.clock + 1 }

/-- `target.write_bytes(content)` of a new file -/
def writeBackup (name : String) (content : Bytes) : Work Unit := do
  match ← draw with
  | none => onStore (Store.addBackup name content)
  | some ⟨none⟩ => throw .failure
  | some ⟨some n⟩ => do
      onStore (Store.addBackup name (content.take n))
      throw .failure

def Store.removeBackup (name : String) (s : Store) : Store :=
  { s with backups := s.backups.filter fun b => b.name ≠ name }

/-- `old.unlink(missing_ok=True)` -/
def unlink (name : String) : Work Unit := fun w =>
  match w.unlinks with
  | true :: rest => .error .failure { w.look with unlinks := rest }
  | false :: rest =>
      .ok () { w.look with unlinks := rest, store := w.store.removeBackup name }
  | [] => .ok () { w.look with store := w.store.removeBackup name }

def unlinkAll : List Backup → Work Unit
  | [] => pure ()
  | old :: rest => do
      unlink old.name
      unlinkAll rest

/-- `tmp.write_text(text, encoding='utf-8')` -/
def writeTmp (text : Bytes) : Work Unit := do
  match ← draw with
  | none => onStore fun s => { s with tmp := some text, clock := s.clock + 1 }
  | some ⟨none⟩ => throw .failure
  | some ⟨some n⟩ => do
      onStore fun s => { s with tmp := some (text.take n), clock := s.clock + 1 }
      throw .failure

/-- `os.replace(tmp, path)` -/
def replaceConfig : Work Unit := do
  attempt
  onStore fun s => { s with file := s.tmp.getD s.file, tmp := none }

/-- `same`: whether the latest of the backups, if there is one, has the content already. -/
def latestSame (latest : Option Backup) (content : Bytes) : Work Bool :=
  match latest with
  | some latest => sameAs latest content
  | none => pure false

/-- `if not same: target.write_bytes(content)` -/
def copyUnless (same : Bool) (target : String) (content : Bytes) : Work Unit :=
  if same then pure () else writeBackup target content

def backup_and_write (stamp : String) (text : Bytes) : Work Unit := do
  -- `bdir.mkdir`
  attempt
  -- `path.is_file()`, which it is, and `path.read_bytes()`
  attempt
  attempt
  let content := (← getStore).file
  let target ← freeName stamp ((← getStore).backups.length + 1) 0
  let same ← latestSame (← sortedBackups).head? content
  copyUnless same target content
  let all ← sortedBackups
  unlinkAll (all.drop MAX_BACKUPS)
  writeTmp text
  replaceConfig

/-! ## §3 Calls -/

inductive Request where
  | save (text : Bytes)
  | restore (name : String)

structure Call where
  request : Request
  /-- `_commit` up to the write: the text that is to be written, or `none` if it is refused. -/
  checks : Bytes → Option Bytes
  stamp : String
  faults : List (Option Fault)
  unlinks : List Bool

/-- `_backup_path`: names of another form than `BACKUP_NAME_RE` are none of the backups. -/
def backup_path (form : String → Bool) (s : Store) (name : String) : Option Backup :=
  if form name then s.backups.find? fun b => b.name = name else none

/-- The text that is to be written, if there is one. -/
def Call.text (form : String → Bool) (c : Call) (s : Store) : Option Bytes :=
  match c.request with
  | .save text => c.checks text
  | .restore name => (backup_path form s name).bind fun b => c.checks b.content

def Call.start (c : Call) (s : Store) : World := ⟨s, [], c.faults, c.unlinks⟩

def Call.result (c : Call) (s : Store) (text : Bytes) : EStateM.Result Trouble World Unit :=
  backup_and_write c.stamp text (c.start s)

/-- The disk after a call. -/
def Call.after (form : String → Bool) (c : Call) (s : Store) : Store :=
  match c.text form s with
  | some text => (final (c.result s text)).store
  | none => s

/-- Calls, one at a time. -/
def machine (form : String → Bool) : Machine Store Call := ⟨fun s c => some (c.after form s)⟩

/-! ## §4 What a call leaves -/

/-- Names and times are different, and the times are over. -/
structure Store.Wf (s : Store) : Prop where
  names : s.names.Nodup
  times : (s.backups.map Backup.mtime).Nodup
  past : ∀ b ∈ s.backups, b.mtime < s.clock

/-- The rotation has taken away older backups only. -/
def OldestGone (s s' : Store) : Prop :=
  ∀ b ∈ s.backups, b ∉ s'.backups → ∀ b' ∈ s'.backups, b.mtime < b'.mtime

instance (s s' : Store) : Decidable (OldestGone s s') :=
  inferInstanceAs (Decidable (∀ b ∈ s.backups, b ∉ s'.backups → ∀ b' ∈ s'.backups, b.mtime < b'.mtime))

/-- A name that is there before and after has the same file. -/
def NotOverwritten (s s' : Store) : Prop :=
  ∀ b ∈ s.backups, ∀ b' ∈ s'.backups, b.name = b'.name → b = b'

/-- What a call does whatever fails. -/
structure Safe (s : Store) (text : Bytes) (r : EStateM.Result Trouble World Unit) : Prop where
  /-- `config.yaml` has the old or the new text before each operation, and in the end. -/
  whole : ∀ content ∈ (final r).store.file :: (final r).seen, content = s.file ∨ content = text
  overwritten : NotOverwritten s (final r).store
  names : (final r).store.names.Nodup
  /-- After a write, the text that was there is in a backup, and there are not too many of them. -/
  written : (∃ w, r = .ok () w) → (final r).store.file = text ∧
    (∃ b ∈ (final r).store.backups, b.content = s.file) ∧
    (final r).store.backups.length ≤ MAX_BACKUPS

/-- Of so many files either the first one cannot be taken away, or all can. -/
def InOrder (count : Nat) (unlinks : List Bool) : Prop :=
  unlinks.head? = some true ∨ ∀ fails ∈ unlinks.take count, fails = false

/-- The rotation of the call cannot fail after it has taken a file away. -/
def Orderly (s : Store) (c : Call) : Prop := InOrder (s.backups.length + 1 - MAX_BACKUPS) c.unlinks

/-- What is so of every call that is not refused. -/
def Kept (form : String → Bool) (s : Store) (c : Call) (s' : Store) : Prop :=
  NotOverwritten s s' ∧ OldestGone s s' ∧
    ∀ text, c.text form s = some text → Safe s text (c.result s text)

/-! ## §5 Names and times -/

theorem repr_injective {n m : Nat} (h : n.repr = m.repr) : n = m := by
  have hdigits := congrArg String.toList h
  rw [Nat.toList_repr, Nat.toList_repr] at hdigits
  rw [← Nat.ofDigitChars_ten_toDigits (n := n), hdigits, Nat.ofDigitChars_ten_toDigits]

/-- The names that the loop tries are different. -/
theorem backupName_injective {stamp : String} {n m : Nat}
    (h : backupName stamp n = backupName stamp m) : n = m := by
  unfold backupName at h
  by_cases hn : n = 0 <;> by_cases hm : m = 0
  · rw [hn, hm]
  · rw [if_pos hn, if_neg hm] at h
    have hlength := congrArg String.length h
    simp only [String.length_append] at hlength
    have : "_".length = 1 := rfl
    omega
  · rw [if_neg hn, if_pos hm] at h
    have hlength := congrArg String.length h
    simp only [String.length_append] at hlength
    have : "_".length = 1 := rfl
    omega
  · rw [if_neg hn, if_neg hm] at h
    have hlist := congrArg String.toList h
    simp only [String.toList_append] at hlist
    have hrepr := List.append_cancel_left (List.append_cancel_right hlist)
    exact repr_injective (String.toList_inj.mp hrepr)

/-- One of the names that the loop tries is free. -/
theorem exists_free {stamp : String} {s : Store} {n : Nat}
    (h : ∀ i < n, backupName stamp i ∈ s.names) : n ≤ s.backups.length := by
  have hnodup : ((List.range n).map (backupName stamp)).Nodup :=
    List.nodup_range.map fun _ _ => backupName_injective
  have hsub : (List.range n).map (backupName stamp) ⊆ s.names := by
    intro name hname
    obtain ⟨i, hi, rfl⟩ := List.mem_map.mp hname
    exact h i (List.mem_range.mp hi)
  have hlength := (List.subperm_of_subset hnodup hsub).length_le
  rwa [List.length_map, List.length_range, Store.names, List.length_map] at hlength

theorem mem_latestFirst {backups : List Backup} {b : Backup} :
    b ∈ latestFirst backups ↔ b ∈ backups := List.mem_insertionSort _

/-- Younger files come before older ones. -/
theorem pairwise_latestFirst (backups : List Backup) :
    (latestFirst backups).Pairwise fun a b => b.mtime ≤ a.mtime := by
  have : Std.Total fun a b : Backup => b.mtime ≤ a.mtime := ⟨fun a b => le_total b.mtime a.mtime⟩
  have : IsTrans Backup fun a b => b.mtime ≤ a.mtime := ⟨fun _ _ _ h h' => le_trans h' h⟩
  exact List.pairwise_insertionSort _ _

theorem Store.Wf.eq_of_name {s : Store} (h : s.Wf) {b b' : Backup} (hb : b ∈ s.backups)
    (hb' : b' ∈ s.backups) (heq : b.name = b'.name) : b = b' :=
  List.inj_on_of_nodup_map h.names hb hb' heq

theorem Store.Wf.nodup {s : Store} (h : s.Wf) : s.backups.Nodup := List.Nodup.of_map _ h.names

/-- A new file is younger than the others, and under another name. -/
theorem Store.Wf.addBackup {s : Store} (h : s.Wf) {name : String} (hname : name ∉ s.names)
    (content : Bytes) : (s.addBackup name content).Wf where
  names := by
    show ((s.backups ++ [_]).map Backup.name).Nodup
    rw [List.map_append, List.nodup_append]
    refine ⟨h.names, List.nodup_singleton _, fun a ha b hb => ?_⟩
    rintro rfl
    rw [List.map_singleton, List.mem_singleton] at hb
    rw [hb] at ha
    exact hname ha
  times := by
    show ((s.backups ++ [_]).map Backup.mtime).Nodup
    rw [List.map_append, List.nodup_append]
    refine ⟨h.times, List.nodup_singleton _, fun a ha b hb => ?_⟩
    rintro rfl
    rw [List.map_singleton, List.mem_singleton] at hb
    obtain ⟨x, hx, hxa⟩ := List.mem_map.mp ha
    have hlt := h.past x hx
    dsimp only at hb
    omega
  past b hb := by
    show b.mtime < s.clock + 1
    rcases List.mem_append.mp hb with hb | hb
    · exact lt_trans (h.past b hb) (Nat.lt_succ_self _)
    · rw [List.mem_singleton] at hb
      rw [hb]
      exact Nat.lt_succ_self _

def Store.removeAll (l : List Backup) (s : Store) : Store :=
  l.foldl (fun s b => s.removeBackup b.name) s

theorem mem_removeAll {l : List Backup} {s : Store} {b : Backup} :
    b ∈ (s.removeAll l).backups ↔ b ∈ s.backups ∧ ∀ x ∈ l, b.name ≠ x.name := by
  induction l generalizing s with
  | nil => exact ⟨fun h => ⟨h, fun x hx => absurd hx List.not_mem_nil⟩, fun h => h.1⟩
  | cons x rest ih =>
      show b ∈ ((s.removeBackup x.name).removeAll rest).backups ↔ _
      rw [ih, List.forall_mem_cons, ← and_assoc]
      refine and_congr_left' ?_
      show b ∈ s.backups.filter _ ↔ _
      rw [List.mem_filter, decide_eq_true_iff]

theorem removeAll_clock (l : List Backup) (s : Store) : (s.removeAll l).clock = s.clock := by
  induction l generalizing s with
  | nil => rfl
  | cons x rest ih => exact ih (s.removeBackup x.name)

theorem removeAll_sublist (l : List Backup) (s : Store) :
    (s.removeAll l).backups.Sublist s.backups := by
  induction l generalizing s with
  | nil => exact List.Sublist.refl _
  | cons x rest ih => exact (ih _).trans List.filter_sublist

/-- Of files of the directory, exactly these are taken away. -/
theorem Store.Wf.mem_removeAll {s : Store} (h : s.Wf) {l : List Backup} (hl : l ⊆ s.backups)
    {b : Backup} : b ∈ (s.removeAll l).backups ↔ b ∈ s.backups ∧ b ∉ l := by
  rw [ConfigBackups.mem_removeAll]
  refine and_congr_right fun hb => ⟨fun hall hmem => hall b hmem rfl, fun hmem x hx heq => ?_⟩
  rw [h.eq_of_name hb (hl hx) heq] at hmem
  exact hmem hx

/-! ## §6 The rotation -/

/-- The files that are too many. -/
def surplus (s : Store) : List Backup := (latestFirst s.backups).drop MAX_BACKUPS

theorem surplus_subset (s : Store) : surplus s ⊆ s.backups := fun _ h =>
  mem_latestFirst.mp (List.mem_of_mem_drop h)

theorem length_surplus (s : Store) : (surplus s).length = s.backups.length - MAX_BACKUPS := by
  rw [surplus, List.length_drop, latestFirst, List.length_insertionSort]

variable {s s₀ : Store}

theorem mem_take_of_not_surplus {b : Backup} (hb : b ∈ s.backups) (hnot : b ∉ surplus s) :
    b ∈ (latestFirst s.backups).take MAX_BACKUPS := by
  have hmem := mem_latestFirst.mpr hb
  rw [← List.take_append_drop MAX_BACKUPS (latestFirst s.backups), List.mem_append] at hmem
  exact hmem.resolve_right hnot

/-- **A whole rotation** takes away older files only. -/
theorem Store.Wf.oldestGone (h : s.Wf) : OldestGone s (s.removeAll (surplus s)) := by
  intro b hb hgone b' hb'
  rw [h.mem_removeAll (surplus_subset s)] at hgone hb'
  have hold : b ∈ surplus s := by
    by_contra hnot
    exact hgone ⟨hb, hnot⟩
  have hpair := pairwise_latestFirst s.backups
  rw [← List.take_append_drop MAX_BACKUPS (latestFirst s.backups), List.pairwise_append] at hpair
  have hle := hpair.2.2 b' (mem_take_of_not_surplus hb'.1 hb'.2) b hold
  refine lt_of_le_of_ne hle fun heq => ?_
  rw [List.inj_on_of_nodup_map h.times hb hb'.1 heq] at hold
  exact hb'.2 hold

theorem Store.Wf.length_rotated (h : s.Wf) :
    (s.removeAll (surplus s)).backups.length ≤ MAX_BACKUPS := by
  have hnodup := h.nodup.sublist (removeAll_sublist (surplus s) s)
  have hsub : (s.removeAll (surplus s)).backups ⊆ (latestFirst s.backups).take MAX_BACKUPS := by
    intro b hb
    rw [h.mem_removeAll (surplus_subset s)] at hb
    exact mem_take_of_not_surplus hb.1 hb.2
  exact (List.subperm_of_subset hnodup hsub).length_le.trans (List.length_take_le _ _)

/-- The latest file stays. -/
theorem Store.Wf.latest_stays (h : s.Wf) {b : Backup} (hb : (latestFirst s.backups).head? = some b) :
    b ∈ (s.removeAll (surplus s)).backups := by
  have hmem : b ∈ s.backups := mem_latestFirst.mp (List.mem_of_mem_head? hb)
  refine (h.mem_removeAll (surplus_subset s)).mpr ⟨hmem, fun hdrop => ?_⟩
  have hnodup : (latestFirst s.backups).Nodup := (List.perm_insertionSort _ _).nodup_iff.mpr h.nodup
  obtain ⟨rest, hrest⟩ : ∃ rest, latestFirst s.backups = b :: rest := by
    cases hlist : latestFirst s.backups with
    | nil =>
        rw [hlist] at hb
        cases hb
    | cons c rest =>
        rw [hlist] at hb
        exact ⟨rest, by rw [Option.some.inj hb]⟩
  rw [hrest, List.nodup_cons] at hnodup
  rw [surplus, hrest] at hdrop
  exact hnodup.1 (List.mem_of_mem_drop hdrop)

/-- A file that has just been written is the latest one. -/
theorem Store.Wf.latest_addBackup (h : s.Wf) (name : String) (content : Bytes) :
    (latestFirst (s.addBackup name content).backups).head? = some ⟨name, content, s.clock⟩ := by
  have hnew : (⟨name, content, s.clock⟩ : Backup) ∈ latestFirst (s.addBackup name content).backups :=
    mem_latestFirst.mpr (List.mem_append_right _ (List.mem_singleton_self _))
  have hpair := pairwise_latestFirst (s.addBackup name content).backups
  cases hlist : latestFirst (s.addBackup name content).backups with
  | nil =>
      rw [hlist] at hnew
      exact absurd hnew List.not_mem_nil
  | cons c rest =>
      have hc : c ∈ (s.addBackup name content).backups := by
        refine mem_latestFirst.mp ?_
        rw [hlist]
        exact List.mem_cons_self
      rw [hlist] at hnew hpair
      rcases List.mem_cons.mp hnew with heq | hrest
      · rw [heq]
        rfl
      · have hle : s.clock ≤ c.mtime := (List.pairwise_cons.mp hpair).1 _ hrest
        rcases List.mem_append.mp hc with hold | hself
        · have hlt := h.past c hold
          omega
        · rw [List.mem_singleton.mp hself]
          rfl

/-! ## §7 What each operation does -/

section Operations

variable (s₀ : Store) (text : Bytes) (unlinks₀ : List Bool)

/-- `config.yaml` has had no other text than the old and the new one. -/
def Whole (w : World) : Prop := ∀ content ∈ w.store.file :: w.seen, content = s₀.file ∨ content = text

/-- The disk is `s`, and so the next `unlink` operations will fail. -/
def On (unlinks : List Bool) (s : Store) (w : World) : Prop :=
  w.store = s ∧ w.unlinks = unlinks ∧ Whole s₀ text w

/-- What is so of the backups at any time. -/
structure Left (s : Store) : Prop where
  wf : s.Wf
  overwritten : NotOverwritten s₀ s
  oldest : InOrder (s₀.backups.length + 1 - MAX_BACKUPS) unlinks₀ → OldestGone s₀ s

def Err (_ : Trouble) (w : World) : Prop := Left s₀ unlinks₀ w.store ∧ Whole s₀ text w

end Operations

variable {text : Bytes} {unlinks₀ unlinks : List Bool}

theorem Whole.look {w : World} (h : Whole s₀ text w) : Whole s₀ text w.look := by
  intro content hcontent
  show content = s₀.file ∨ content = text
  rcases List.mem_cons.mp hcontent with hfile | hseen
  · exact h content (hfile ▸ List.mem_cons_self)
  · rcases List.mem_append.mp hseen with hseen | hnow
    · exact h content (List.mem_cons_of_mem _ hseen)
    · rw [List.mem_singleton.mp hnow]
      exact h _ List.mem_cons_self

theorem On.err {w : World} (hw : On s₀ text unlinks s w) (h : Left s₀ unlinks₀ s) (e : Trouble) :
    Err s₀ text unlinks₀ e w := ⟨hw.1 ▸ h, hw.2.2⟩

theorem draw_spec : Triple (On s₀ text unlinks s) draw (fun _ => On s₀ text unlinks s)
    (Err s₀ text unlinks₀) := by
  intro w hw
  obtain ⟨hstore, hunlinks, hwhole⟩ := hw
  unfold draw
  cases w.faults with
  | nil => exact ⟨hstore, hunlinks, hwhole.look⟩
  | cons fault rest => exact ⟨hstore, hunlinks, hwhole.look⟩

theorem attempt_spec (h : Left s₀ unlinks₀ s) : Triple (On s₀ text unlinks s) attempt
    (fun _ => On s₀ text unlinks s) (Err s₀ text unlinks₀) := by
  refine Triple.bind draw_spec fun fault => ?_
  cases fault with
  | none => exact Triple.pure fun _ hw => hw
  | some fault => exact Triple.throw fun _ hw => hw.err h _

theorem getStore_spec : Triple (On s₀ text unlinks s) getStore
    (fun s' w => s' = s ∧ On s₀ text unlinks s w) (Err s₀ text unlinks₀) :=
  fun _ hw => ⟨hw.1, hw⟩

/-- Another disk, with the same `config.yaml`. -/
theorem onStore_spec {f : Store → Store} (h : (f s).file = s.file) :
    Triple (On s₀ text unlinks s) (onStore f) (fun _ => On s₀ text unlinks (f s))
      (Err s₀ text unlinks₀) := by
  intro w hw
  obtain ⟨rfl, hunlinks, hwhole⟩ := hw
  refine ⟨rfl, hunlinks, fun content hcontent => hwhole content ?_⟩
  rwa [show (f w.store).file = w.store.file from h] at hcontent

theorem pathExists_spec (h : Left s₀ unlinks₀ s) (name : String) :
    Triple (On s₀ text unlinks s) (pathExists name)
      (fun found w => found = decide (name ∈ s.names) ∧ On s₀ text unlinks s w)
      (Err s₀ text unlinks₀) := by
  refine Triple.bind (attempt_spec h) fun _ => Triple.bind getStore_spec fun s' =>
    Triple.of_fact fun hs' => ?_
  subst hs'
  exact Triple.pure fun w hw => ⟨rfl, hw⟩

/-- **The loop finds a free name**: it tries more names than there are files. -/
theorem freeName_spec (h : Left s₀ unlinks₀ s) (stamp : String) {rounds n : Nat}
    (hrounds : rounds + n = s.backups.length + 1) (htried : ∀ i < n, backupName stamp i ∈ s.names) :
    Triple (On s₀ text unlinks s) (freeName stamp rounds n)
      (fun name w => name ∉ s.names ∧ On s₀ text unlinks s w) (Err s₀ text unlinks₀) := by
  induction rounds generalizing n with
  | zero =>
      have hle := exists_free htried
      omega
  | succ rounds ih =>
      refine Triple.bind (pathExists_spec h _) fun found => Triple.of_fact fun hfound => ?_
      subst hfound
      refine Triple.ite (fun hmem => ih (by omega) fun i hi => ?_)
        fun hfree => Triple.pure fun w hw => ⟨?_, hw⟩
      · rcases Nat.lt_succ_iff_lt_or_eq.mp hi with hi | rfl
        · exact htried i hi
        · exact of_decide_eq_true hmem
      · exact fun hmem => hfree (decide_eq_true hmem)

theorem sortedBackups_spec (h : Left s₀ unlinks₀ s) : Triple (On s₀ text unlinks s) sortedBackups
    (fun l w => l = latestFirst s.backups ∧ On s₀ text unlinks s w) (Err s₀ text unlinks₀) := by
  refine Triple.bind (attempt_spec h) fun _ => Triple.bind getStore_spec fun s' =>
    Triple.of_fact fun hs' => ?_
  subst hs'
  exact Triple.pure fun w hw => ⟨rfl, hw⟩

theorem sameAs_spec (latest : Backup) (content : Bytes) :
    Triple (On s₀ text unlinks s) (sameAs latest content)
      (fun same w => (same = true → latest.content = content) ∧ On s₀ text unlinks s w)
      (Err s₀ text unlinks₀) := by
  refine Triple.bind draw_spec fun fault => ?_
  cases fault with
  | none => exact Triple.pure fun w hw => ⟨of_decide_eq_true, hw⟩
  | some fault => exact Triple.pure fun w hw => ⟨fun h => absurd h Bool.false_ne_true, hw⟩

theorem writeBackup_spec (h : Left s₀ unlinks₀ s) {name : String} {content : Bytes}
    (hadd : ∀ part, Left s₀ unlinks₀ (s.addBackup name part)) :
    Triple (On s₀ text unlinks s) (writeBackup name content)
      (fun _ => On s₀ text unlinks (s.addBackup name content)) (Err s₀ text unlinks₀) := by
  refine Triple.bind draw_spec fun fault => ?_
  rcases fault with _ | ⟨_ | n⟩
  · exact onStore_spec rfl
  · exact Triple.throw fun w hw => hw.err h _
  · exact Triple.bind (onStore_spec rfl) fun _ => Triple.throw fun w hw => hw.err (hadd _) _

/-- What an `unlink` that fails leaves, and one that does not. -/
theorem unlink_spec (name : String)
    {E : Trouble → World → Prop}
    (hE : ∀ w rest, unlinks = true :: rest → On s₀ text rest s w → E .failure w) :
    Triple (On s₀ text unlinks s) (unlink name)
      (fun _ w => unlinks.head? ≠ some true ∧ On s₀ text unlinks.tail (s.removeBackup name) w) E := by
  intro w hw
  obtain ⟨rfl, hunlinks, hwhole⟩ := hw
  unfold unlink
  rw [hunlinks]
  rcases unlinks with _ | ⟨_ | _, rest⟩
  · exact ⟨(fun h => by cases h), rfl, hunlinks, hwhole.look⟩
  · exact ⟨(fun h => by cases h), rfl, rfl, hwhole.look⟩
  · exact hE _ rest rfl ⟨rfl, rfl, hwhole.look⟩

/-- The files are taken away one after the other, up to the first that cannot be. -/
theorem unlinkAll_spec {E : Trouble → World → Prop} (l : List Backup)
    (hE : ∀ j w rest, j < l.length → unlinks[j]? = some true → (∀ i < j, unlinks[i]? ≠ some true) →
      On s₀ text rest (s.removeAll (l.take j)) w → E .failure w) :
    Triple (On s₀ text unlinks s) (unlinkAll l)
      (fun _ w => ∃ rest, On s₀ text rest (s.removeAll l) w) E := by
  induction l generalizing s unlinks with
  | nil => exact Triple.pure fun w hw => ⟨unlinks, hw⟩
  | cons old l ih =>
      refine Triple.bind (unlink_spec old.name fun w rest hfails hw => ?_) fun _ =>
        Triple.of_fact fun hno => ih fun j w rest hj hfails hbefore hw => ?_
      · refine hE 0 w rest (Nat.succ_pos _) ?_ (fun i hi => absurd hi (Nat.not_lt_zero i)) hw
        rw [hfails]
        rfl
      · refine hE (j + 1) w rest (Nat.succ_lt_succ hj) ?_ (fun i hi => ?_) hw
        · rw [← hfails, List.getElem?_tail]
        · cases i with
          | zero => rwa [← List.head?_eq_getElem?]
          | succ i =>
              have hno := hbefore i (Nat.lt_of_succ_lt_succ hi)
              rwa [List.getElem?_tail] at hno

theorem writeTmp_spec (h : Left s₀ unlinks₀ s) (hleft : ∀ s', s'.backups = s.backups →
    s.clock ≤ s'.clock → Left s₀ unlinks₀ s') (content : Bytes) :
    Triple (On s₀ text unlinks s) (writeTmp content)
      (fun _ => On s₀ text unlinks { s with tmp := some content, clock := s.clock + 1 })
      (Err s₀ text unlinks₀) := by
  refine Triple.bind draw_spec fun fault => ?_
  rcases fault with _ | ⟨_ | n⟩
  · exact onStore_spec rfl
  · exact Triple.throw fun w hw => hw.err h _
  · exact Triple.bind (onStore_spec rfl) fun _ => Triple.throw fun w hw => hw.err (hleft _ rfl (Nat.le_succ _)) _

/-- The new text is in the place of the old one at once. -/
theorem replaceConfig_spec (h : Left s₀ unlinks₀ s) (htmp : s.tmp = some text) :
    Triple (On s₀ text unlinks s) replaceConfig
      (fun _ w => w.store.backups = s.backups ∧ w.store.clock = s.clock ∧ w.store.file = text ∧
        Whole s₀ text w)
      (Err s₀ text unlinks₀) := by
  refine Triple.bind (attempt_spec h) fun _ => ?_
  intro w hw
  obtain ⟨rfl, -, hwhole⟩ := hw
  have hfile : w.store.tmp.getD w.store.file = text := by
    rw [htmp]
    rfl
  refine ⟨rfl, rfl, hfile, fun content hcontent => ?_⟩
  rcases List.mem_cons.mp hcontent with hnew | hseen
  · exact .inr (hnew.trans hfile)
  · exact hwhole content (List.mem_cons_of_mem _ hseen)

/-! ## §8 The whole call -/

theorem Store.Wf.left (h : s₀.Wf) : Left s₀ unlinks₀ s₀ where
  wf := h
  overwritten _ hb _ hb' heq := h.eq_of_name hb hb' heq
  oldest _ _ hb hgone := absurd hb hgone

/-- What the directory is before the rotation: as it was, or with one more file. -/
def Grown (s₀ s : Store) : Prop := s = s₀ ∨ ∃ name part, name ∉ s₀.names ∧ s = s₀.addBackup name part

theorem Grown.wf (h : s₀.Wf) (hs : Grown s₀ s) : s.Wf := by
  rcases hs with rfl | ⟨name, part, hname, rfl⟩
  · exact h
  · exact h.addBackup hname part

theorem Grown.subset (hs : Grown s₀ s) : s₀.backups ⊆ s.backups := by
  rcases hs with rfl | ⟨name, part, -, rfl⟩
  · exact List.Subset.refl _
  · exact List.subset_append_left _ _

theorem Grown.length_le (hs : Grown s₀ s) : s.backups.length ≤ s₀.backups.length + 1 := by
  rcases hs with rfl | ⟨name, part, -, rfl⟩
  · exact Nat.le_succ _
  · show (s₀.backups ++ [_]).length ≤ _
    rw [List.length_append, List.length_singleton]

/-- After some of the files that are too many have been taken away. -/
theorem Grown.left (h : s₀.Wf) (hs : Grown s₀ s) {s' : Store} {gone : List Backup}
    (hgone : gone <+: surplus s) (hback : s'.backups = (s.removeAll gone).backups)
    (hclock : s.clock ≤ s'.clock)
    (hall : InOrder (s₀.backups.length + 1 - MAX_BACKUPS) unlinks₀ → gone = [] ∨ gone = surplus s) :
    Left s₀ unlinks₀ s' where
  wf := by
    have hsub : s'.backups.Sublist s.backups := by
      rw [hback]
      exact removeAll_sublist _ _
    exact ⟨(hs.wf h).names.sublist (hsub.map _), (hs.wf h).times.sublist (hsub.map _),
      fun b hb => ((hs.wf h).past b (hsub.subset hb)).trans_le hclock⟩
  overwritten b hb b' hb' heq := by
    rw [hback] at hb'
    exact (hs.wf h).eq_of_name (hs.subset hb) ((removeAll_sublist _ _).subset hb') heq
  oldest horder b hb hnot b' hb' := by
    rw [hback] at hnot hb'
    rcases hall horder with rfl | rfl
    · exact absurd (hs.subset hb) hnot
    · exact (hs.wf h).oldestGone b (hs.subset hb) hnot b' hb'

/-- **The rotation** takes all files away that are too many, or fails. -/
theorem rotation_spec (h : s₀.Wf) (hs : Grown s₀ s) :
    Triple (On s₀ text unlinks₀ s) (unlinkAll (surplus s))
      (fun _ w => ∃ rest, On s₀ text rest (s.removeAll (surplus s)) w) (Err s₀ text unlinks₀) := by
  refine unlinkAll_spec _ fun j w rest hj hfails hbefore hw => ?_
  refine hw.err (hs.left h (List.take_prefix _ _) rfl (removeAll_clock _ _).ge fun horder => ?_) _
  rcases horder with hhead | hnone
  · -- what fails is the first of them, and nothing has been taken away
    cases j with
    | zero => exact .inl rfl
    | succ j =>
        rw [List.head?_eq_getElem?] at hhead
        exact absurd hhead (hbefore 0 (Nat.succ_pos j))
  · -- none of the calls that the rotation makes fails
    have hlt : j < s₀.backups.length + 1 - MAX_BACKUPS := by
      rw [length_surplus] at hj
      have := hs.length_le
      omega
    have hmem : true ∈ unlinks₀.take (s₀.backups.length + 1 - MAX_BACKUPS) := by
      rw [List.mem_iff_getElem?]
      exact ⟨j, by rw [List.getElem?_take_of_lt hlt, hfails]⟩
    cases hnone true hmem

/-- The directory after the copy has been made, or was there. -/
def Copied (s₀ s : Store) : Prop :=
  Grown s₀ s ∧ ∃ b, (latestFirst s.backups).head? = some b ∧ b.content = s₀.file

/-- The part of the call that makes the copy. -/
theorem copy_spec (h : s₀.Wf) {target : String} (htarget : target ∉ s₀.names) {same : Bool}
    (hsame : same = true → ∃ b, (latestFirst s₀.backups).head? = some b ∧ b.content = s₀.file) :
    Triple (On s₀ text unlinks₀ s₀) (copyUnless same target s₀.file)
      (fun _ w => ∃ s, Copied s₀ s ∧ On s₀ text unlinks₀ s w) (Err s₀ text unlinks₀) := by
  have hadd : ∀ part, Left s₀ unlinks₀ (s₀.addBackup target part) := fun part =>
    Grown.left h (.inr ⟨target, part, htarget, rfl⟩) List.nil_prefix rfl le_rfl fun _ => .inl rfl
  refine Triple.ite (fun hyes => Triple.pure fun w hw => ⟨s₀, ⟨.inl rfl, hsame hyes⟩, hw⟩) fun _ => ?_
  refine (writeBackup_spec h.left hadd).after fun _ w hw => ⟨_, ⟨.inr ⟨_, _, htarget, rfl⟩, ?_⟩, hw⟩
  exact ⟨_, h.latest_addBackup _ _, rfl⟩

/-- The latest backup has the text, or there will be a new one. -/
theorem latestSame_spec : Triple (On s₀ text unlinks s) (latestSame (latestFirst s.backups).head? s₀.file)
    (fun same w => (same = true →
      ∃ b, (latestFirst s.backups).head? = some b ∧ b.content = s₀.file) ∧ On s₀ text unlinks s w)
    (Err s₀ text unlinks₀) := by
  unfold latestSame
  cases hlatest : (latestFirst s.backups).head? with
  | none => exact Triple.pure fun w hw => ⟨fun h => absurd h Bool.false_ne_true, hw⟩
  | some latest =>
      exact (sameAs_spec latest s₀.file).after fun same w hw =>
        ⟨fun hyes => ⟨latest, rfl, hw.1 hyes⟩, hw.2⟩

/-- **A call that writes**, whatever fails. -/
theorem backup_and_write_spec (h : s₀.Wf) (stamp : String) (text : Bytes) :
    Triple (On s₀ text unlinks₀ s₀) (backup_and_write stamp text)
      (fun _ w => Left s₀ unlinks₀ w.store ∧ Whole s₀ text w ∧ w.store.file = text ∧
        (∃ b ∈ w.store.backups, b.content = s₀.file) ∧ w.store.backups.length ≤ MAX_BACKUPS)
      (Err s₀ text unlinks₀) := by
  have hleft : Left s₀ unlinks₀ s₀ := h.left
  refine Triple.bind (attempt_spec hleft) fun _ => Triple.bind (attempt_spec hleft) fun _ =>
    Triple.bind (attempt_spec hleft) fun _ => Triple.bind getStore_spec fun s => Triple.of_fact fun hs => ?_
  obtain rfl : s₀ = s := hs.symm
  refine Triple.bind getStore_spec fun s => Triple.of_fact fun hs => ?_
  obtain rfl : s₀ = s := hs.symm
  -- the name for a copy, and the copy
  refine Triple.bind (freeName_spec hleft stamp rfl fun i hi => absurd hi (Nat.not_lt_zero i))
    fun target => Triple.of_fact fun htarget => ?_
  refine Triple.bind (sortedBackups_spec hleft) fun l => Triple.of_fact ?_
  rintro rfl
  refine Triple.bind latestSame_spec fun same => Triple.of_fact fun hyes => ?_
  refine Triple.bind (copy_spec h htarget hyes) fun _ => Triple.of_exists fun g =>
    Triple.of_fact fun hcopied => ?_
  obtain ⟨hgrown, latest, hlatest, hcontent⟩ := hcopied
  have hwf := hgrown.wf h
  -- what is too many is taken away
  have hgrownLeft : Left s₀ unlinks₀ g :=
    hgrown.left h List.nil_prefix rfl le_rfl fun _ => .inl rfl
  refine Triple.bind (sortedBackups_spec hgrownLeft) fun l => Triple.of_fact ?_
  rintro rfl
  refine Triple.bind (rotation_spec h hgrown) fun _ => Triple.of_exists fun rest => ?_
  have hback : ∀ s', s'.backups = (g.removeAll (surplus g)).backups →
      (g.removeAll (surplus g)).clock ≤ s'.clock → Left s₀ unlinks₀ s' :=
    fun s' heq hclock => hgrown.left h List.prefix_rfl heq
      ((removeAll_clock _ _).ge.trans hclock) fun _ => .inr rfl
  -- the new text
  refine Triple.bind (writeTmp_spec (hback _ rfl le_rfl) hback text) fun _ => ?_
  have htmp : Left s₀ unlinks₀ { g.removeAll (surplus g) with
      tmp := some text
      clock := (g.removeAll (surplus g)).clock + 1 } := hback _ rfl (Nat.le_succ _)
  refine (replaceConfig_spec htmp rfl).after fun _ w hw => ?_
  obtain ⟨hbackups, hclock, hfile, hwhole⟩ := hw
  refine ⟨hback _ hbackups (hclock.symm ▸ Nat.le_succ _), hwhole, hfile, ⟨latest, ?_, hcontent⟩, ?_⟩
  · rw [hbackups]
    exact hwf.latest_stays hlatest
  · rw [hbackups]
    exact hwf.length_rotated

/-! ## §9 Runs -/

/-- **What a call does** that is not refused. -/
theorem Call.result_safe {s : Store} (h : s.Wf) (c : Call) (text : Bytes) :
    Safe s text (c.result s text) ∧ Left s c.unlinks (final (c.result s text)).store := by
  have hstart : On s text c.unlinks s (c.start s) :=
    ⟨rfl, rfl, fun content hcontent => .inl (List.mem_singleton.mp hcontent)⟩
  have hspec : Triple (On s text c.unlinks s) (backup_and_write c.stamp text) _
    (Err s text c.unlinks) := backup_and_write_spec h c.stamp text
  cases hresult : c.result s text with
  | ok a w =>
      obtain ⟨hleft, hwhole, hfile, hcopy, hlength⟩ := hspec.returned hstart hresult
      exact ⟨⟨hwhole, hleft.overwritten, hleft.wf.names, fun _ => ⟨hfile, hcopy, hlength⟩⟩, hleft⟩
  | error e w =>
      obtain ⟨hleft, hwhole⟩ := hspec.raised hstart hresult
      refine ⟨⟨hwhole, hleft.overwritten, hleft.wf.names, ?_⟩, hleft⟩
      rintro ⟨w', heq⟩
      cases heq

variable {form : String → Bool}

theorem Call.after_wf {s : Store} (h : s.Wf) (c : Call) : (c.after form s).Wf := by
  unfold Call.after
  cases c.text form s with
  | none => exact h
  | some text => exact (c.result_safe h text).2.wf

theorem Call.after_kept {s : Store} (h : s.Wf) {c : Call} (horder : Orderly s c) :
    Kept form s c (c.after form s) := by
  refine ⟨?_, ?_, fun text _ => (c.result_safe h text).1⟩
  · unfold Call.after
    cases c.text form s with
    | none => exact fun b hb b' hb' heq => h.eq_of_name hb hb' heq
    | some text => exact (c.result_safe h text).2.overwritten
  · unfold Call.after
    cases c.text form s with
    | none => exact fun b hb hgone => absurd hb hgone
    | some text => exact (c.result_safe h text).2.oldest horder

/-- **Backups in every run.** Whatever fails in whatever call: `config.yaml` holds the old or the new
text at any time, a write leaves the text that was there in a backup and at most ten of them, no name
is given twice, and if no rotation fails after it has taken a file away, no younger backup goes
before an older one. -/
theorem backups_kept {form : String → Bool} {s : Store} (h : s.Wf) {calls : List Call}
    (horder : (machine form).Guarded Orderly s calls) : (machine form).Each (Kept form) s calls := by
  refine Machine.each_of_guarded (fun s c s' (hs : Store.Wf s) hc heq => ?_)
    (fun s c s' hs _ heq => ?_) h horder
  · obtain rfl := Option.some.inj heq
    exact Call.after_kept hs hc
  · obtain rfl := Option.some.inj heq
    exact Call.after_wf hs c

/-! ## §10 Concrete runs -/

/-- A node with no backups yet. -/
def fresh : Store := ⟨[65], none, [], 0⟩

theorem fresh_wf : fresh.Wf :=
  ⟨List.nodup_nil, List.nodup_nil, fun _ hb => absurd hb List.not_mem_nil⟩

/-- A save that nothing stands in the way of. -/
def plain (stamp : String) (text : Bytes) : Call := ⟨.save text, some, stamp, [], []⟩

/-- Two saves in one second, and the first of them taken back. -/
theorem backups_kept_fresh :
    (machine fun _ => true).Each (Kept fun _ => true) fresh
      [plain "20260101-000000" [66], plain "20260101-000000" [67],
        { plain "20260101-000001" [] with request := .restore "config_20260101-000000.yaml" }] := by
  refine backups_kept fresh_wf (Machine.guarded_of_mem (fun c hc s => ?_) _)
  have hnone : c.unlinks = [] := by
    simp only [List.mem_cons, List.not_mem_nil, or_false] at hc
    rcases hc with rfl | rfl | rfl <;> rfl
  refine .inr fun fails hfails => ?_
  rw [hnone, List.take_nil] at hfails
  exact absurd hfails List.not_mem_nil

/-- A save whose backup cannot be written: the disk is full. -/
def spoiled (stamp : String) (faults : List (Option Fault)) : Call :=
  ⟨.save [66], some, stamp, faults ++ [some ⟨some 0⟩], []⟩

/-- The first of them finds no backup to look at. -/
def spoiledCalls : List Call :=
  spoiled "0" (List.replicate 5 none) ::
    ["1", "2", "3", "4", "5", "6", "7", "8", "9", "10"].map fun stamp =>
      spoiled stamp (List.replicate 6 none)

/-- A save that finds twelve files in the end, two too many, and cannot take away the oldest one. -/
def blocked : Call := { plain "11" [66] with unlinks := [false, true] }

/-- The second oldest backup is gone, and the oldest one is there. -/
theorem rotation_takes_younger :
    ¬ ∀ (form : String → Bool) (s : Store) (calls : List Call), s.Wf →
      (machine form).Each (Kept form) s calls := by
  intro h
  have hrun : ((machine fun _ => true).run fresh spoiledCalls).isSome = true := by decide +kernel
  obtain ⟨t, ht⟩ := Option.isSome_iff_exists.mp hrun
  have hlast := (Machine.guarded_append _ (h (fun _ => true) fresh (spoiledCalls ++ [blocked])
    fresh_wf) ht).2.1 _ rfl
  have hgone : OldestGone t (blocked.after (fun _ => true) t) := hlast.2.1
  have hbad : (((machine fun _ => true).run fresh spoiledCalls).all fun t =>
      decide (OldestGone t (blocked.after (fun _ => true) t))) = false := by
    decide +kernel
  rw [ht] at hbad
  exact of_decide_eq_false hbad hgone

end NetPulse.Mesh.ConfigBackups
