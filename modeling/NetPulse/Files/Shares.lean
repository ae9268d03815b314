import NetPulse.Files.Catalog
import NetPulse.Files.SafeJoin
import NetPulse.Lib.Machine
import NetPulse.Lib.Text

/-
# NetPulse.Files.Shares — sharing directories by request (`files/service.py`)

`add_share` resolves a directory, asks whether its name or the directory itself is shared already, and
has the list with the new share written into `config.yaml`; `remove_share` has the list written
without one. Both build the list from the models in memory, whose paths are `Path` objects.
`yaml.dump` writes such an object with a tag, and `yaml.safe_load` refuses the tag: a share that is
written along with a new one, or left over, makes a file that nobody reads again.

`shares_distinct`: no two shares have one name or one path, in memory or in the file, whatever links
change between the requests. `shares_readable_iff`: the file can be read all along exactly when a
request adds to an empty list or empties it; once it cannot, no request changes anything.
-/

namespace NetPulse.Files.Shares

open NetPulse.Lib NetPulse.Files.SafeJoin
open NetPulse.Mesh (Canon canon)

/-! ## §1 Memory and file -/

/-- `ShareConfig` -/
structure Share where
  name : Name
  path : PurePath
  allow : List String
  chunk_size : Int

/-- A path in a document of YAML. -/
inductive Written where
  | text (p : PurePath)
  /-- `!!python/object/apply:pathlib.PosixPath` -/
  | object (p : PurePath)

def Written.path : Written → PurePath
  | text p => p
  | object p => p

def Written.plain : Written → Bool
  | text _ => true
  | object _ => false

structure Entry where
  name : Name
  path : Written
  allow : List String
  chunk_size : Int

/-- `model_dump()`, and `model_dump(mode='json')` for `plain`. -/
def Share.dump (plain : Bool) (s : Share) : Entry :=
  ⟨s.name, if plain then .text s.path else .object s.path, s.allow, s.chunk_size⟩

/-- What stands in `config.yaml`. `sound` says that the models accept the other sections. -/
structure Doc where
  shares : List Entry
  max_chunk : Int
  sound : Bool

/-- `yaml.safe_load` reads the document. -/
def Doc.Readable (d : Doc) : Prop := ∀ e ∈ d.shares, e.path.plain = true

instance (d : Doc) : Decidable d.Readable := inferInstanceAs (Decidable (∀ _ ∈ _, _))

/-- The configuration in memory, and the file. -/
structure State where
  shares : List Share
  max_chunk : Int
  file : Doc

/-- No two of the shares have one name, or one path. -/
structure Distinct (shares : List (Name × PurePath)) : Prop where
  names : (shares.map Prod.fst).Nodup
  paths : (shares.map Prod.snd).Nodup

def Share.key (s : Share) : Name × PurePath := (s.name, s.path)

def Entry.key (e : Entry) : Name × PurePath := (e.name, e.path.path)

@[simp] theorem Share.key_dump (plain : Bool) (s : Share) : (s.dump plain).key = s.key := by
  cases plain <;> rfl

theorem Distinct.sublist {xs ys : List (Name × PurePath)} (h : Distinct ys) (hsub : xs.Sublist ys) :
    Distinct xs :=
  ⟨h.names.sublist (hsub.map _), h.paths.sublist (hsub.map _)⟩

theorem Distinct.concat {xs : List (Name × PurePath)} {x : Name × PurePath} (h : Distinct xs)
    (hname : ∀ y ∈ xs, y.1 ≠ x.1) (hpath : ∀ y ∈ xs, y.2 ≠ x.2) : Distinct (xs ++ [x]) := by
  refine ⟨?_, ?_⟩
  · rw [List.map_append, List.map_singleton, List.nodup_append]
    refine ⟨h.names, List.nodup_singleton _, fun a ha b hb => ?_⟩
    obtain ⟨y, hy, rfl⟩ := List.mem_map.mp ha
    obtain rfl := List.mem_singleton.mp hb
    exact hname y hy
  · rw [List.map_append, List.map_singleton, List.nodup_append]
    refine ⟨h.paths, List.nodup_singleton _, fun a ha b hb => ?_⟩
    obtain ⟨y, hy, rfl⟩ := List.mem_map.mp ha
    obtain rfl := List.mem_singleton.mp hb
    exact hpath y hy

@[simp] theorem map_key_dump (plain : Bool) (shares : List Share) :
    (shares.map (Share.dump plain)).map Entry.key = shares.map Share.key := by
  rw [List.map_map]
  exact List.map_congr_left fun s _ => s.key_dump plain

section Service

variable [Canon]

/-- `ShareConfig(**entry)` -/
def Entry.share (e : Entry) : Share := ⟨e.name, e.path.path, e.allow.map canon, e.chunk_size⟩

/-! ## §2 Requests -/

/-- How it goes with the file when it is written. -/
inductive Writing where
  | done
  /-- It cannot be opened. -/
  | refused
  /-- It is cut off, and something is left. -/
  | cut (left : Doc)

/-- `_persist_shares(entries)` -/
def _persist_shares (s : State) (entries : List Entry) : Writing → State × Bool
  | .refused => (s, false)
  | .cut left => (if s.file.Readable then { s with file := left } else s, false)
  | .done =>
      if s.file.Readable then
        let data : Doc := { s.file with shares := entries }
        if data.sound then (⟨entries.map Entry.share, data.max_chunk, data⟩, true)
        else ({ s with file := data }, false)
      else (s, false)

/-- The data of `add_share`; a path without text is none. -/
structure Data where
  path : Name
  name : Name
  allow : List String
  chunk_size : Number

inductive Reply where
  | no_path
  | no_dir (raw_path : Name)
  | bad_name
  | name_taken (name : Name)
  | path_taken (real : PurePath) (name : Name)
  | not_found (name : Name)
  | not_written
  /-- An exception. -/
  | raised
  | added (share : Entry)
  | removed

/-- `strip()` -/
def strip (s : Name) : Name :=
  (s.dropWhile fun c => Text.whitespace c.toNat).rdropWhile fun c => Text.whitespace c.toNat

/-- `real.name` -/
def baseName (p : PurePath) : Name := p.parts.getLast?.getD []

/-- The name that is asked for, or that of the directory. -/
def shareName (data : Data) (real : PurePath) : Name :=
  if strip data.name = [] then baseName real else strip data.name

/-- The share that is the directory already, if there is one before a path that cannot be resolved. -/
def sharedAs (w : World) (real : PurePath) : List Share → Except Reply (Option Share)
  | [] => .ok none
  | s :: rest =>
      match w.resolve s.path with
      | .error _ => .error .raised
      | .ok p => if p = real then .ok (some s) else sharedAs w real rest

/-- The entry that a request asks for, or the refusal. -/
def newEntry (s : State) (w : World) (is_dir : PurePath → Bool) (data : Data) : Except Reply Entry :=
  if data.path = [] then .error .no_path
  else
    match w.resolve (parse w.platform data.path) with
    | .error _ => .error .raised
    | .ok real =>
        if !is_dir real then .error (.no_dir data.path)
        else
          let name := shareName data real
          if name.contains '/' || name.contains '\\' then .error .bad_name
          else
            match data.chunk_size.get 262144 with
            | .error _ => .error .raised
            | .ok wanted =>
                if s.shares.any fun t => t.name = name then .error (.name_taken name)
                else
                  match sharedAs w real s.shares with
                  | .error r => .error r
                  | .ok (some t) => .error (.path_taken real t.name)
                  | .ok none =>
                      .ok ⟨name, .text real, data.allow, max 1024 (min wanted s.max_chunk)⟩

def add_share (s : State) (w : World) (is_dir : PurePath → Bool) (data : Data) (disk : Writing) :
    State × Reply :=
  match newEntry s w is_dir data with
  | .error r => (s, r)
  | .ok e =>
      let r := _persist_shares s (s.shares.map (Share.dump false) ++ [e]) disk
      (r.1, if r.2 then .added e else .not_written)

/-- The shares that stay. -/
def others (s : State) (name : Name) : List Share := s.shares.filter fun t => t.name ≠ name

def remove_share (s : State) (name : Name) (disk : Writing) : State × Reply :=
  if (others s name).length = s.shares.length then (s, .not_found name)
  else
    let r := _persist_shares s ((others s name).map (Share.dump false)) disk
    (r.1, if r.2 then .removed else .not_written)

/-- `reload()`; `migrate` says that the file is written again, with text for everything. -/
def reload (s : State) (migrate : Bool) : State :=
  if s.file.Readable ∧ s.file.sound then
    ⟨s.file.shares.map Entry.share, s.file.max_chunk,
      if migrate then { s.file with shares := s.file.shares.map fun e => e.share.dump true }
      else s.file⟩
  else s

inductive Event where
  | add (w : World) (is_dir : PurePath → Bool) (data : Data) (disk : Writing)
  | remove (name : Name) (disk : Writing)
  | reload (migrate : Bool)
  /-- Somebody else writes the file. -/
  | edit (d : Doc)

def step (s : State) : Event → State
  | .add w is_dir data disk => (add_share s w is_dir data disk).1
  | .remove name disk => (remove_share s name disk).1
  | .reload migrate => Shares.reload s migrate
  | .edit d => { s with file := d }

def machine : Machine State Event where
  step s e := some (step s e)

/-! ## §3 Nothing is shared twice -/

@[simp] theorem Entry.key_share (e : Entry) : e.share.key = e.key := rfl

@[simp] theorem map_key_share (entries : List Entry) :
    (entries.map Entry.share).map Share.key = entries.map Entry.key := by
  rw [List.map_map]
  exact List.map_congr_left fun e _ => e.key_share

/-- The shares in memory and those in the file. -/
structure State.Apart (s : State) : Prop where
  memory : Distinct (s.shares.map Share.key)
  file : Distinct (s.file.shares.map Entry.key)

/-- A writing that is cut off leaves no share twice. -/
def Writing.Tidy (disk : Writing) : Prop :=
  ∀ left, disk = .cut left → Distinct (left.shares.map Entry.key)

/-- What others leave in the file, or a writing that is cut off, has no share twice. -/
def Tidy (_ : State) : Event → Prop
  | .edit d => Distinct (d.shares.map Entry.key)
  | .add _ _ _ disk => disk.Tidy
  | .remove _ disk => disk.Tidy
  | .reload _ => True

omit [Canon] in
/-- A list without the directory: each share was resolved to something else. -/
theorem ne_of_sharedAs {w : World} {real : PurePath} {shares : List Share}
    (h : sharedAs w real shares = .ok none) : ∀ t ∈ shares, w.resolve t.path ≠ .ok real := by
  induction shares with
  | nil => exact fun t ht => absurd ht List.not_mem_nil
  | cons s rest ih =>
      rw [sharedAs] at h
      split at h
      · cases h
      · rename_i p hp
        split_ifs at h with hreal
        · cases h
        · intro t ht
          rcases List.mem_cons.mp ht with rfl | ht
          · rw [hp]
            exact fun he => hreal (Except.ok.inj he)
          · exact ih h t ht

omit [Canon] in
/-- **What a request adds**: a resolved directory under a name, and neither is there. -/
theorem newEntry_spec {s : State} {w : World} {is_dir : PurePath → Bool} {data : Data} {e : Entry}
    (h : newEntry s w is_dir data = .ok e) :
    ∃ real, e.path = .text real ∧ w.resolve real = .ok real ∧ is_dir real = true ∧
      '/' ∉ e.name ∧ '\\' ∉ e.name ∧
      1024 ≤ e.chunk_size ∧ e.chunk_size ≤ max 1024 s.max_chunk ∧
      (∀ t ∈ s.shares, t.name ≠ e.name) ∧ ∀ t ∈ s.shares, w.resolve t.path ≠ .ok real := by
  unfold newEntry at h
  dsimp only at h
  split at h
  · cases h
  split at h
  · cases h
  rename_i real hreal
  split at h
  · cases h
  rename_i hdir
  split at h
  · cases h
  rename_i hslash
  split at h
  · cases h
  rename_i wanted hwanted
  split at h
  · cases h
  rename_i hname
  split at h
  · cases h
  · cases h
  rename_i hshared
  obtain rfl := Except.ok.inj h
  rw [Bool.or_eq_true, not_or] at hslash
  have hnone := ne_of_sharedAs hshared
  have hself := resolve_self (resolve_eq_ok hreal).1 (resolve_eq_ok hreal).2
  refine ⟨real, rfl, hself, by simpa using hdir, by simpa using hslash.1, by simpa using hslash.2,
    le_max_left _ _, ?_, ?_, hnone⟩
  · dsimp only
    omega
  · intro t ht heq
    exact hname (List.any_eq_true.mpr ⟨t, ht, by simpa using heq⟩)

variable {s : State}

theorem State.Apart.persist (h : s.Apart) {entries : List Entry} {disk : Writing} (hdisk : disk.Tidy)
    (hentries : Distinct (entries.map Entry.key)) : (_persist_shares s entries disk).1.Apart := by
  cases disk with
  | refused => exact h
  | cut left =>
      simp only [_persist_shares]
      split_ifs
      · exact ⟨h.memory, hdisk left rfl⟩
      · exact h
  | done =>
      simp only [_persist_shares]
      split_ifs
      · exact ⟨(map_key_share entries).symm ▸ hentries, hentries⟩
      · exact ⟨h.memory, hentries⟩
      · exact h

theorem State.Apart.add (h : s.Apart) {w : World} {is_dir : PurePath → Bool} {data : Data}
    {disk : Writing} (hdisk : disk.Tidy) : (add_share s w is_dir data disk).1.Apart := by
  unfold add_share
  split
  · exact h
  · rename_i e he
    obtain ⟨real, hpath, hreal, -, -, -, -, -, hname, hnone⟩ := newEntry_spec he
    refine h.persist hdisk ?_
    rw [List.map_append, map_key_dump]
    refine h.memory.concat ?_ ?_
    · rintro _ hy
      obtain ⟨t, ht, rfl⟩ := List.mem_map.mp hy
      exact hname t ht
    · rintro _ hy heq
      obtain ⟨t, ht, rfl⟩ := List.mem_map.mp hy
      -- a share with this path would have been resolved to it
      have hsame : t.path = real := heq.trans (congrArg Written.path hpath)
      exact hnone t ht (hsame ▸ hreal)

theorem State.Apart.remove (h : s.Apart) {name : Name} {disk : Writing} (hdisk : disk.Tidy) :
    (remove_share s name disk).1.Apart := by
  unfold remove_share
  split_ifs
  · exact h
  · refine h.persist hdisk ?_
    rw [map_key_dump]
    exact h.memory.sublist (List.filter_sublist.map _)

theorem State.Apart.reload (h : s.Apart) (migrate : Bool) : (reload s migrate).Apart := by
  unfold Shares.reload
  by_cases hread : s.file.Readable ∧ s.file.sound
  · rw [if_pos hread]
    refine ⟨(map_key_share s.file.shares).symm ▸ h.file, ?_⟩
    cases migrate with
    | false => exact h.file
    | true =>
        have hkeys : (s.file.shares.map fun e => e.share.dump true).map Entry.key =
            s.file.shares.map Entry.key := by
          rw [List.map_map]
          exact List.map_congr_left fun e _ => (e.share.key_dump true).trans e.key_share
        exact hkeys.symm ▸ h.file
  · rw [if_neg hread]
    exact h

theorem step_apart (s : State) (e : Event) (s' : State) (h : s.Apart) (hok : Tidy s e)
    (hs : machine.step s e = some s') : s'.Apart := by
  obtain rfl := Option.some.inj hs
  cases e with
  | add w is_dir data disk => exact h.add hok
  | remove name disk => exact h.remove hok
  | reload migrate => exact h.reload migrate
  | edit d => exact ⟨h.memory, hok⟩

def State.Readable (s : State) : Prop := s.file.Readable

/-- A writing with these shares from memory leaves a file that can be read. -/
def Writing.Careful (kept : List Share) : Writing → Prop
  | .done => kept = []
  | .refused => True
  | .cut left => left.Readable

/-- Nothing is written along with the new share, and nothing is left over. -/
def Careful (s : State) : Event → Prop
  | .add w is_dir data disk => (∃ e, newEntry s w is_dir data = .ok e) → disk.Careful s.shares
  | .remove name disk =>
      (others s name).length ≠ s.shares.length → disk.Careful (others s name)
  | .reload _ => True
  | .edit d => d.Readable

omit [Canon] in
theorem readable_dump_iff (kept : List Share) {more : List Entry}
    (hmore : ∀ e ∈ more, e.path.plain = true) (n : Int) (sound : Bool) :
    Doc.Readable ⟨kept.map (Share.dump false) ++ more, n, sound⟩ ↔ kept = [] := by
  constructor
  · intro h
    rcases kept with _ | ⟨s, rest⟩
    · rfl
    · exact absurd (h (s.dump false) List.mem_cons_self) Bool.false_ne_true
  · rintro rfl
    exact hmore

/-- **One writing**: the file can be read behind it exactly when it is careful. -/
theorem readable_persist_iff (hs : s.Readable) (kept : List Share) {more : List Entry}
    (hmore : ∀ e ∈ more, e.path.plain = true) (disk : Writing) :
    (_persist_shares s (kept.map (Share.dump false) ++ more) disk).1.Readable ↔
      disk.Careful kept := by
  have hfile : s.file.Readable := hs
  cases disk with
  | refused => exact iff_of_true hs trivial
  | cut left => simp [_persist_shares, hfile, State.Readable, Writing.Careful]
  | done =>
      simp only [_persist_shares, if_pos hfile]
      split_ifs
      · exact readable_dump_iff kept hmore _ _
      · exact readable_dump_iff kept hmore _ _

theorem readable_step_iff (hs : s.Readable) (e : Event) : (step s e).Readable ↔ Careful s e := by
  cases e with
  | add w is_dir data disk =>
      simp only [step, add_share, Careful]
      rcases hnew : newEntry s w is_dir data with r | e
      · exact iff_of_true hs fun h => nomatch h
      · obtain ⟨real, hpath, -⟩ := newEntry_spec hnew
        have hplain : ∀ x ∈ [e], x.path.plain = true := fun x hx => by
          rw [List.mem_singleton.mp hx, hpath]
          rfl
        rw [readable_persist_iff hs s.shares hplain disk]
        exact ⟨fun h _ => h, fun h => h ⟨e, rfl⟩⟩
  | remove name disk =>
      simp only [step, remove_share, Careful]
      by_cases hlen : (others s name).length = s.shares.length
      · rw [if_pos hlen]
        exact iff_of_true hs fun h => absurd hlen h
      · rw [if_neg hlen]
        have hplain : ∀ e ∈ ([] : List Entry), e.path.plain = true := nofun
        have hiff := readable_persist_iff hs (others s name) hplain disk
        rw [List.append_nil] at hiff
        refine hiff.trans ?_
        exact ⟨fun h _ => h, fun h => h hlen⟩
  | reload migrate =>
      refine iff_of_true ?_ trivial
      simp only [step, Shares.reload]
      by_cases hread : s.file.Readable ∧ s.file.sound
      · rw [if_pos hread]
        cases migrate with
        | false => exact hs
        | true =>
            intro x hx
            obtain ⟨e, -, rfl⟩ := List.mem_map.mp hx
            rfl
      · rw [if_neg hread]
        exact hs
  | edit d => exact Iff.rfl

/-- **Nothing is changed by a request** when the file cannot be read. -/
theorem step_unreadable (hs : ¬ s.Readable) {e : Event} (he : ∀ d, e ≠ .edit d) : step s e = s := by
  have hfile : ¬ s.file.Readable := hs
  have hpersist : ∀ entries disk, (_persist_shares s entries disk).1 = s := by
    intro entries disk
    cases disk <;> simp [_persist_shares, hfile]
  cases e with
  | add w is_dir data disk =>
      simp only [step, add_share]
      split
      · rfl
      · exact hpersist _ disk
  | remove name disk =>
      by_cases hlen : (others s name).length = s.shares.length
      · simp [step, remove_share, hlen]
      · simp [step, remove_share, hlen, hpersist]
  | reload migrate => simp [step, Shares.reload, hfile]
  | edit d => exact absurd rfl (he d)

theorem run_unreadable (hs : ¬ s.Readable) {es : List Event} (hes : ∀ d, Event.edit d ∉ es) :
    machine.run s es = some s := by
  induction es with
  | nil => rfl
  | cons e es ih =>
      have hstep : step s e = s := step_unreadable hs fun d hd => hes d (hd ▸ List.mem_cons_self)
      have hrest := ih fun d hd => hes d (List.mem_cons_of_mem e hd)
      exact (machine.run_cons_eq_some).mpr ⟨s, congrArg some hstep, hrest⟩

theorem run_total (s : State) (es : List Event) : ∃ t, machine.run s es = some t := by
  induction es generalizing s with
  | nil => exact ⟨s, rfl⟩
  | cons e es ih =>
      obtain ⟨t, ht⟩ := ih (step s e)
      exact ⟨t, (machine.run_cons_eq_some).mpr ⟨step s e, rfl, ht⟩⟩

/-- **When the file can be read**: all along a run exactly if each request adds to no shares or leaves
none, and others write what can be read. From the first other request on, no request and no restart
changes anything until somebody else writes the file. -/
theorem shares_readable_iff (s : State) (es : List Event) (hs : s.Readable) :
    (machine.Always State.Readable s es ↔ machine.Guarded Careful s es) ∧
      ∀ t, machine.run s es = some t → ¬ t.Readable →
        ∀ fs, (∀ d, Event.edit d ∉ fs) → machine.run t fs = some t := by
  obtain ⟨t, ht⟩ := run_total s es
  refine ⟨machine.always_iff_guarded (fun _ h => h) ?_ ?_ hs ht, ?_⟩
  · intro s e s' h hok hstep
    obtain rfl := Option.some.inj hstep
    exact (readable_step_iff h e).mpr hok
  · intro s e s' h hno hstep hread
    obtain rfl := Option.some.inj hstep
    exact hno ((readable_step_iff h e).mp hread)
  · intro t _ hunread fs hfs
    exact run_unreadable hunread hfs

end Service

/-! ## §5 Two shares -/

section Concrete

attribute [local instance] NetPulse.Mesh.asciiCanon

/-- A node that shares nothing yet. -/
def nothing : State := ⟨[], 4194304, ⟨[], 4194304, true⟩⟩

/-- A request for a directory, in the world of `linked`. -/
def share (path : String) : Event :=
  .add linked (fun _ => true) ⟨path.toList, [], [], .unset⟩ .done

theorem apart_nothing : nothing.Apart :=
  ⟨⟨List.nodup_nil, List.nodup_nil⟩, List.nodup_nil, List.nodup_nil⟩

/-- One share can be read again; with the second one the file is lost. -/
theorem shares_readable_two :
    (machine.Always State.Readable nothing [share "/srv/a", share "/srv/b"] ↔
      machine.Guarded Careful nothing [share "/srv/a", share "/srv/b"]) ∧
      ∀ t, machine.run nothing [share "/srv/a", share "/srv/b"] = some t → ¬ t.Readable →
        ∀ fs, (∀ d, Event.edit d ∉ fs) → machine.run t fs = some t :=
  shares_readable_iff nothing _ fun _ he => absurd he List.not_mem_nil

example : (step (step nothing (share "/srv/a")) (share "/srv/b")).file.shares.map (·.path.plain) =
    [false, true] := by decide

example : (add_share (step nothing (share "/srv/cur")) linked (fun _ => true)
    ⟨"/srv/v1".toList, ['w'], [], .unset⟩ .done).2 matches .path_taken .. := by decide

end Concrete

end NetPulse.Files.Shares
