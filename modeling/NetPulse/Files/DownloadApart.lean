import NetPulse.Files.DownloadSteps

/-
# NetPulse.Files.DownloadApart — downloads that have no file in common

Names and partial files come from the last component of a path alone, so that two downloads can be
at work on the same file. `Apart` is the condition under which those that are going on at one time
are not, and `Separate` is what it keeps: they share no name and no inode, wherever the names of the
files have led in the meantime.
-/

namespace NetPulse.Files

open NetPulse.Lib

variable {node : String} {s s' : Receiver} {label : String}

/-! ## §1 The condition -/

section Condition

variable [Sha256] [PathText]

/-- A name of the download that starts. -/
def TakesName (saveAs : Option String) (man : Offer) (n : String) : Prop :=
  n = finalName saveAs man ∨ n = partOf (finalName saveAs man)

/-- **The condition**: a download that starts has no name in common with one that goes on; no stream
comes for one that has ended; and no `.part` is deleted that one that goes on has for a name. -/
def Apart (s : Receiver) : Event → Prop
  | .start _ _ saveAs _ man => present s.disk saveAs man = false →
      ∀ l t, s.downloads l = some t → t.live = true → ∀ n, TakesName saveAs man n → ¬ t.Names n
  | .move label .stream => ∀ t, s.downloads label = some t → t.registered = true →
      t.status = .running
  | .move label (.cancelReturn true) => ∀ t, s.downloads label = some t →
      ∀ l t', l ≠ label → s.downloads l = some t' → t'.live = true → ¬ t'.Names t.part
  | _ => True

end Condition

/-! ## §2 The steps of the receiver -/

@[simp] theorem set_self (s : Receiver) (label : String) (r : Folder × Transfer) :
    (s.set label r).downloads label = some r.2 := Function.update_self ..

theorem set_other (s : Receiver) {label l : String} (r : Folder × Transfer) (h : l ≠ label) :
    (s.set label r).downloads l = s.downloads l := Function.update_of_ne h ..

theorem set_cases {r : Folder × Transfer} {l : String} {t : Transfer}
    (h : (s.set label r).downloads l = some t) :
    (l = label ∧ t = r.2) ∨ (l ≠ label ∧ s.downloads l = some t) := by
  by_cases hl : l = label
  · rw [hl, set_self] at h
    exact Or.inl ⟨hl, (Option.some.inj h).symm⟩
  · rw [set_other s r hl] at h
    exact Or.inr ⟨hl, h⟩

theorem restarted_downloads (s : Receiver) (l : String) :
    s.restarted.downloads l = (s.downloads l).map Transfer.kill := rfl

theorem restarted_cases {l : String} {t : Transfer} (h : s.restarted.downloads l = some t) :
    ∃ t₀, s.downloads l = some t₀ ∧ t = t₀.kill := by
  obtain ⟨t₀, ht₀, rfl⟩ := Option.map_eq_some_iff.mp h
  exact ⟨t₀, ht₀, rfl⟩

section Steps

variable [PathText]

section Machine

variable [Sha256]

theorem step_move {m : Move} (h : (receiving node).step s (.move label m) = some s') :
    ∃ t d' t', s.downloads label = some t ∧ advance s.disk label t m = some (d', t') ∧
      (m.threaded = true ∨ s.loop = none ∨ s.loop = some label) ∧ s' = s.set label (d', t') := by
  simp only [receiving, Option.bind_eq_some_iff] at h
  obtain ⟨t, ht, h⟩ := h
  split at h
  · rename_i hloop
    obtain ⟨r, hr, rfl⟩ := Option.map_eq_some_iff.mp h
    simp only [Bool.or_eq_true, decide_eq_true_eq, or_assoc] at hloop
    exact ⟨t, r.1, r.2, ht, hr, hloop, rfl⟩
  · cases h

theorem step_start {dst : String} {saveAs : Option String} {resume : Bool} {man : Offer}
    (h : (receiving node).step s (.start label dst saveAs resume man) = some s') :
    s.downloads label = none ∧ s.loop = none ∧
      ((present s.disk saveAs man = true ∧ s' = s) ∨ (present s.disk saveAs man = false ∧
        s' = s.set label (s.disk, enter node s.disk dst saveAs resume man))) := by
  simp only [receiving] at h
  split at h
  · cases h
  · rename_i hfree
    simp only [Bool.or_eq_true, not_or, Bool.not_eq_true, Option.isSome_eq_false_iff,
      Option.isNone_iff_eq_none] at hfree
    refine ⟨hfree.1, hfree.2, ?_⟩
    split at h
    · rename_i hpresent
      exact Or.inl ⟨hpresent, (Option.some.inj h).symm⟩
    · rename_i hpresent
      exact Or.inr ⟨Bool.eq_false_iff.mpr hpresent, (Option.some.inj h).symm⟩

end Machine

theorem enter_live (d : Folder) (dst : String) (saveAs : Option String) (resume : Bool)
    (man : Offer) : (enter node d dst saveAs resume man).live = true := by
  unfold Transfer.live enter
  by_cases hlocal : dst = node <;> simp [hlocal, Stage.active]

theorem enter_unopened (d : Folder) (dst : String) (saveAs : Option String) (resume : Bool)
    (man : Offer) : (enter node d dst saveAs resume man).stage.unopened = true := by
  unfold enter
  by_cases hlocal : dst = node <;> simp [hlocal, Stage.unopened]

end Steps

theorem handle_of_unopened {stage : Stage} (h : stage.unopened = true) : stage.handle = none := by
  cases stage <;> first | rfl | cases h

theorem active_of_handle {stage : Stage} {h : Handle Ino UInt8} (hstage : stage.handle = some h) :
    stage.active = true := by
  cases stage <;> first | rfl | cases hstage

/-! ## §3 What is kept -/

/-- Downloads that go on have no file in common. -/
structure Separate (s : Receiver) : Prop where
  inj : ∀ {n n' i}, s.disk.dir n = some i → s.disk.dir n' = some i → n = n'
  made : ∀ {l t n}, s.downloads l = some t → t.live = true → s.disk.dir n = some (.made l) →
    t.Names n
  handle : ∀ {l t h n}, s.downloads l = some t → t.stage.handle = some h →
    s.disk.dir n = some h.ino → n = t.part
  names : ∀ {l l' t t' n}, s.downloads l = some t → s.downloads l' = some t' → l ≠ l' →
    t.live = true → t'.live = true → t.Names n → ¬ t'.Names n
  owns : ∀ {l l' t t' i}, s.downloads l = some t → s.downloads l' = some t' → l ≠ l' →
    t.live = true → t'.live = true → t.Own l s.disk i → ¬ t'.Own l' s.disk i
  fresh : ∀ {l}, (∀ t, s.downloads l = some t → t.stage.unopened = true) →
    (∀ n, s.disk.dir n ≠ some (.made l)) ∧
      ∀ l' t h, s.downloads l' = some t → t.stage.handle = some h → h.ino ≠ .made l

theorem separate_boot (files : String → Option Bytes) : Separate (.boot files) where
  inj := by
    intro n n' i hn hn'
    obtain ⟨x, -, rfl⟩ := Option.map_eq_some_iff.mp hn
    obtain ⟨y, -, hy⟩ := Option.map_eq_some_iff.mp hn'
    exact (Ino.first.inj hy).symm
  made h := by cases h
  handle h := by cases h
  names h := by cases h
  owns h := by cases h
  fresh := by
    intro l _
    refine ⟨fun n hn => ?_, fun l' t h ht => by cases ht⟩
    obtain ⟨x, -, hx⟩ := Option.map_eq_some_iff.mp hn
    cases hx

/-- Where a name of a download leads after a move, it or its `.part` has led before, unless the
inode is new. -/
theorem DirStep.values {d d' : Folder} {t t' : Transfer} {n : String} {i : Ino}
    (h : DirStep label d t d' t') (hi : d'.dir n = some i) :
    (i = .made label ∧ t.stage.unopened = true ∧ t'.stage.unopened = false) ∨
      ∃ n', (n' = n ∨ t.Names n') ∧ d.dir n' = some i := by
  cases h with
  | same h => exact Or.inr ⟨n, Or.inl rfl, h ▸ hi⟩
  | create h hbefore hafter =>
      rw [h] at hi
      by_cases hn : n = t.part
      · rw [hn, Function.update_self] at hi
        exact Or.inl ⟨(Option.some.inj hi).symm, hbefore, hafter⟩
      · rw [Function.update_of_ne hn] at hi
        exact Or.inr ⟨n, Or.inl rfl, hi⟩
  | remove h =>
      rw [h] at hi
      by_cases hn : n = t.part
      · rw [hn, Function.update_self] at hi
        cases hi
      · rw [Function.update_of_ne hn] at hi
        exact Or.inr ⟨n, Or.inl rfl, hi⟩
  | rename h =>
      rw [h] at hi
      by_cases hn : n = t.part
      · rw [hn, Disk.replace_source] at hi
        cases hi
      · by_cases hname : n = t.name
        · rw [hname, Disk.replace_target t.part_ne_name.symm] at hi
          exact Or.inr ⟨t.part, Or.inr (Or.inr rfl), hi⟩
        · rw [Disk.replace] at hi
          dsimp only at hi
          rw [Function.update_of_ne hn, Function.update_of_ne hname] at hi
          exact Or.inr ⟨n, Or.inl rfl, hi⟩

theorem live_of_handle {t : Transfer} {h : Handle Ino UInt8} (hh : t.stage.handle = some h) :
    t.live = true := live_of_active (active_of_handle hh)

theorem own_of_handle {t : Transfer} {d : Folder} {h : Handle Ino UInt8}
    (hh : t.stage.handle = some h) : t.Own label d h.ino := Or.inr (Or.inr ⟨h, hh, rfl⟩)

/-- The record of a label stays as it is, or is that of a download that has ended. -/
def Ended (s s' : Receiver) (l : String) : Prop :=
  s'.downloads l = s.downloads l ∨ ∃ t t', s.downloads l = some t ∧ s'.downloads l = some t' ∧
    t'.live = false ∧ (t'.stage.unopened = true → t.stage.unopened = true)

/-- Fewer names, and fewer downloads that go on. -/
theorem Separate.weaken (hs : Separate s)
    (hdir : ∀ n i, s'.disk.dir n = some i → s.disk.dir n = some i)
    (hended : ∀ l, Ended s s' l) : Separate s' := by
  have hrecord : ∀ {l t}, s'.downloads l = some t → t.live = true → s.downloads l = some t := by
    intro l t ht hlive
    rcases hended l with hsame | ⟨_, t', -, ht', hno, -⟩
    · rw [← hsame]
      exact ht
    · rw [Option.some.inj (ht.symm.trans ht'), hno] at hlive
      cases hlive
  have hown : ∀ {l : String} {t : Transfer} {i : Ino}, t.Own l s'.disk i → t.Own l s.disk i := by
    rintro l t i (hmade | hpart | hhandle)
    · exact Or.inl hmade
    · exact Or.inr (Or.inl (hdir _ _ hpart))
    · exact Or.inr (Or.inr hhandle)
  refine
    { inj := fun hn hn' => hs.inj (hdir _ _ hn) (hdir _ _ hn')
      made := fun ht hlive hn => hs.made (hrecord ht hlive) hlive (hdir _ _ hn)
      handle := fun ht hh hn => hs.handle (hrecord ht (live_of_handle hh)) hh (hdir _ _ hn)
      names := fun ht ht' hne hl hl' => hs.names (hrecord ht hl) (hrecord ht' hl') hne hl hl'
      owns := fun ht ht' hne hl hl' hi hi' =>
        hs.owns (hrecord ht hl) (hrecord ht' hl') hne hl hl' (hown hi) (hown hi')
      fresh := ?_ }
  intro l hunopened
  obtain ⟨hnames, hhandles⟩ := hs.fresh (l := l) fun t ht => by
    rcases hended l with hsame | ⟨t₀, t', ht₀, ht', -, hback⟩
    · exact hunopened t (hsame.trans ht)
    · rw [Option.some.inj (ht.symm.trans ht₀)]
      exact hback (hunopened t' ht')
  exact ⟨fun n hn => hnames n (hdir _ _ hn), fun l' t h ht hh =>
    hhandles l' t h (hrecord ht (live_of_handle hh)) hh⟩

/-- A download starts, with names that are in nobody's way. -/
theorem Separate.start {t₀ : Transfer} (hs : Separate s) (hnew : s.downloads label = none)
    (hlive₀ : t₀.live = true) (hunopened : t₀.stage.unopened = true)
    (happart : ∀ l t, s.downloads l = some t → t.live = true → ∀ n, t₀.Names n → ¬ t.Names n) :
    Separate (s.set label (s.disk, t₀)) := by
  obtain ⟨hnames, hhandles⟩ := hs.fresh (l := label) fun t ht => by
    rw [hnew] at ht
    cases ht
  have hnone : t₀.stage.handle = none := handle_of_unopened hunopened
  have hold : ∀ {l t i}, s.downloads l = some t → t.live = true → l ≠ label →
      t₀.Own label s.disk i → ¬ t.Own l s.disk i := by
    rintro l t i ht hlive hne (rfl | hpart | ⟨h, hh, -⟩) hi
    · rcases hi with hmade | hdir | ⟨h, hh, hino⟩
      · exact hne (Ino.made.inj hmade).symm
      · exact hnames _ hdir
      · exact hhandles l t h ht hh hino
    · rcases hi with rfl | hdir | ⟨h, hh, rfl⟩
      · exact happart l t ht hlive _ (Or.inr rfl) (hs.made ht hlive hpart)
      · exact happart l t ht hlive _ (Or.inr rfl) (Or.inr (hs.inj hpart hdir))
      · exact happart l t ht hlive _ (Or.inr rfl) (Or.inr (hs.handle ht hh hpart))
    · rw [hnone] at hh
      cases hh
  refine ⟨fun hn hn' => hs.inj hn hn', ?_, ?_, ?_, ?_, ?_⟩
  · intro l t n ht hlive hn
    rcases set_cases ht with ⟨rfl, rfl⟩ | ⟨-, ht⟩
    · exact absurd hn (hnames n)
    · exact hs.made ht hlive hn
  · intro l t h n ht hh hn
    rcases set_cases ht with ⟨rfl, rfl⟩ | ⟨-, ht⟩
    · rw [hnone] at hh
      cases hh
    · exact hs.handle ht hh hn
  · intro l l' t t' n ht ht' hne hl hl' hn hn'
    rcases set_cases ht with ⟨rfl, rfl⟩ | ⟨-, ht₀⟩ <;>
      rcases set_cases ht' with ⟨rfl, rfl⟩ | ⟨-, ht₀'⟩
    · exact hne rfl
    · exact happart l' t' ht₀' hl' n hn hn'
    · exact happart l t ht₀ hl n hn' hn
    · exact hs.names ht₀ ht₀' hne hl hl' hn hn'
  · intro l l' t t' i ht ht' hne hl hl' hi hi'
    rcases set_cases ht with ⟨rfl, rfl⟩ | ⟨hl₀, ht₀⟩ <;>
      rcases set_cases ht' with ⟨rfl, rfl⟩ | ⟨hl₀', ht₀'⟩
    · exact hne rfl
    · exact hold ht₀' hl' hl₀' hi hi'
    · exact hold ht₀ hl hl₀ hi' hi
    · exact hs.owns ht₀ ht₀' hne hl hl' hi hi'
  · intro l hall
    have hback : ∀ t, s.downloads l = some t → t.stage.unopened = true := by
      intro t ht
      have hl : l ≠ label := by
        rintro rfl
        rw [hnew] at ht
        cases ht
      exact hall t (by rw [set_other s _ hl]; exact ht)
    refine ⟨(hs.fresh hback).1, fun l' t h ht hh => ?_⟩
    rcases set_cases ht with ⟨rfl, rfl⟩ | ⟨-, ht⟩
    · rw [hnone] at hh
      cases hh
    · exact (hs.fresh hback).2 l' t h ht hh

/-- Two names lead to different inodes after a move, too. -/
theorem DirStep.inj {d d' : Folder} {t t' : Transfer} (h : DirStep label d t d' t')
    (hinj : ∀ {n n' i}, d.dir n = some i → d.dir n' = some i → n = n')
    (hfresh : t.stage.unopened = true → ∀ n, d.dir n ≠ some (.made label)) {n n' : String} {i : Ino}
    (hn : d'.dir n = some i) (hn' : d'.dir n' = some i) : n = n' := by
  cases h with
  | same h =>
      rw [h] at hn hn'
      exact hinj hn hn'
  | create h hbefore =>
      rw [h] at hn hn'
      by_cases hp : n = t.part
      · by_cases hp' : n' = t.part
        · rw [hp, hp']
        · rw [hp, Function.update_self, Option.some.injEq] at hn
          rw [Function.update_of_ne hp', ← hn] at hn'
          exact absurd hn' (hfresh hbefore n')
      · rw [Function.update_of_ne hp] at hn
        by_cases hp' : n' = t.part
        · rw [hp', Function.update_self, Option.some.injEq] at hn'
          rw [← hn'] at hn
          exact absurd hn (hfresh hbefore n)
        · rw [Function.update_of_ne hp'] at hn'
          exact hinj hn hn'
  | remove h =>
      rw [h] at hn hn'
      have hback : ∀ m, Function.update d.dir t.part none m = some i → d.dir m = some i := by
        intro m hm
        by_cases hp : m = t.part
        · rw [hp, Function.update_self] at hm
          cases hm
        · rw [Function.update_of_ne hp] at hm
          exact hm
      exact hinj (hback n hn) (hback n' hn')
  | rename h =>
      rw [h] at hn hn'
      -- the entry of the file is that of the `.part`, which is gone
      have hback : ∀ m, (d.replace t.part t.name).dir m = some i → m ≠ t.part ∧
          (m = t.name → d.dir t.part = some i) ∧ (m ≠ t.name → d.dir m = some i) := by
        intro m hm
        have hp : m ≠ t.part := by
          rintro rfl
          rw [Disk.replace_source] at hm
          cases hm
        refine ⟨hp, ?_, fun hname => ?_⟩
        · rintro rfl
          rw [Disk.replace_target t.part_ne_name.symm] at hm
          exact hm
        · rw [Disk.replace] at hm
          dsimp only at hm
          rw [Function.update_of_ne hp, Function.update_of_ne hname] at hm
          exact hm
      obtain ⟨hp, hname, hrest⟩ := hback n hn
      obtain ⟨hp', hname', hrest'⟩ := hback n' hn'
      by_cases heq : n = t.name <;> by_cases heq' : n' = t.name
      · rw [heq, heq']
      · exact absurd (hinj (hname heq) (hrest' heq')).symm hp'
      · exact absurd (hinj (hrest heq) (hname' heq')) hp
      · exact hinj (hrest heq) (hrest' heq')

/-- A download that goes on makes a move. -/
theorem Separate.advance {t t' : Transfer} {d' : Folder} (hs : Separate s)
    (ht : s.downloads label = some t) (hlive : t.live = true)
    (hlocal : Local label s.disk t d' t') (hprogress : t'.stage.unopened = true →
      t.stage.unopened = true) : Separate (s.set label (d', t')) := by
  have hfresh : t.stage.unopened = true → (∀ n, s.disk.dir n ≠ some (.made label)) ∧
      ∀ l' t h, s.downloads l' = some t → t.stage.handle = some h → h.ino ≠ .made label := by
    intro hunopened
    refine hs.fresh fun t₁ ht₁ => ?_
    rw [Option.some.inj (ht₁.symm.trans ht)]
    exact hunopened
  -- a name of this download leads to where one of its names has led, or to the new inode
  have hvalues : ∀ {n i}, d'.dir n = some i → ¬ t.Names n → s.disk.dir n = some i := by
    intro n i hn hout
    rw [← hlocal.frame.dir n hout]
    exact hn
  have hnames : ∀ {n i}, d'.dir n = some i → t.Names n →
      (i = .made label ∧ t.stage.unopened = true ∧ t'.stage.unopened = false) ∨
        ∃ n', t.Names n' ∧ s.disk.dir n' = some i := by
    intro n i hn hin
    rcases hlocal.dir.values hn with hnew | ⟨n', rfl | hn', hdir⟩
    · exact Or.inl hnew
    · exact Or.inr ⟨n', hin, hdir⟩
    · exact Or.inr ⟨n', hn', hdir⟩
  have hother : ∀ {l t₁}, l ≠ label → s.downloads l = some t₁ → t₁.live = true →
      ∀ {i}, t₁.Own l d' i → t₁.Own l s.disk i := by
    rintro l t₁ hl ht₁ hlive₁ i (hmade | hpart | hhandle)
    · exact Or.inl hmade
    · refine Or.inr (Or.inl (hvalues hpart ?_))
      exact fun hin => hs.names ht ht₁ hl.symm hlive hlive₁ hin (Or.inr rfl)
    · exact Or.inr (Or.inr hhandle)
  have hinj : ∀ {n n' i}, d'.dir n = some i → d'.dir n' = some i → n = n' := fun hn hn' =>
    hlocal.dir.inj hs.inj (fun hunopened => (hfresh hunopened).1) hn hn'
  refine ⟨hinj, ?_, ?_, ?_, ?_, ?_⟩
  · intro l t₁ n ht₁ hlive₁ hn
    rcases set_cases ht₁ with ⟨rfl, rfl⟩ | ⟨hl, hold⟩
    · rw [hlocal.kept.names]
      by_contra hout
      exact hout (hs.made ht hlive (hvalues hn hout))
    · by_cases hin : t.Names n
      · rcases hnames hn hin with ⟨hmade, -⟩ | ⟨n', hn', hdir⟩
        · exact absurd (Ino.made.inj hmade) hl
        · exact absurd (hs.made hold hlive₁ hdir) (hs.names ht hold hl.symm hlive hlive₁ hn')
      · exact hs.made hold hlive₁ (hvalues hn hin)
  · intro l t₁ h n ht₁ hh hn
    rcases set_cases ht₁ with ⟨rfl, rfl⟩ | ⟨hl, hold⟩
    · rw [hlocal.kept.part]
      rcases hlocal.file with hfile | ⟨-, h', hh', hpart⟩
      · obtain ⟨h₀, hh₀, hino⟩ := hfile h hh
        change d'.dir n = some h.ino at hn
        rw [← hino] at hn
        cases hlocal.dir with
        | same heq =>
            rw [heq] at hn
            exact hs.handle ht hh₀ hn
        | create _ hbefore =>
            rw [handle_of_unopened hbefore] at hh₀
            cases hh₀
        | remove heq =>
            rw [heq] at hn
            by_cases hp : n = t.part
            · exact hp
            · rw [Function.update_of_ne hp] at hn
              exact hs.handle ht hh₀ hn
        | rename _ _ hafter =>
            rw [hafter] at hh
            cases hh
      · rw [hh, Option.some.injEq] at hh'
        rw [← hh'] at hpart
        exact hinj hn hpart
    · have hlive₁ : t₁.live = true := live_of_handle hh
      by_cases hin : t.Names n
      · rcases hnames hn hin with ⟨hmade, -⟩ | ⟨n', hn', hdir⟩
        · exact absurd (own_of_handle hh)
            (hs.owns ht hold hl.symm hlive hlive₁ (Or.inl hmade))
        · have hpart : n' = t₁.part := hs.handle hold hh hdir
          exact absurd (Or.inr hpart) (hs.names ht hold hl.symm hlive hlive₁ hn')
      · exact hs.handle hold hh (hvalues hn hin)
  · intro l l' t₁ t₂ n ht₁ ht₂ hne hlive₁ hlive₂ hn₁ hn₂
    rcases set_cases ht₁ with ⟨rfl, rfl⟩ | ⟨-, hold₁⟩ <;>
      rcases set_cases ht₂ with ⟨rfl, rfl⟩ | ⟨-, hold₂⟩
    · exact hne rfl
    · exact hs.names ht hold₂ hne hlive hlive₂ (hlocal.kept.names.mp hn₁) hn₂
    · exact hs.names hold₁ ht hne hlive₁ hlive hn₁ (hlocal.kept.names.mp hn₂)
    · exact hs.names hold₁ hold₂ hne hlive₁ hlive₂ hn₁ hn₂
  · intro l l' t₁ t₂ i ht₁ ht₂ hne hlive₁ hlive₂ hi₁ hi₂
    rcases set_cases ht₁ with ⟨rfl, rfl⟩ | ⟨hl₁, hold₁⟩ <;>
      rcases set_cases ht₂ with ⟨rfl, rfl⟩ | ⟨hl₂, hold₂⟩
    · exact hne rfl
    · exact hs.owns ht hold₂ hne hlive hlive₂ (hlocal.own i hi₁) (hother hl₂ hold₂ hlive₂ hi₂)
    · exact hs.owns hold₁ ht hne hlive₁ hlive (hother hl₁ hold₁ hlive₁ hi₁) (hlocal.own i hi₂)
    · exact hs.owns hold₁ hold₂ hne hlive₁ hlive₂ (hother hl₁ hold₁ hlive₁ hi₁)
        (hother hl₂ hold₂ hlive₂ hi₂)
  · intro l hall
    have hback : ∀ t₁, s.downloads l = some t₁ → t₁.stage.unopened = true := by
      intro t₁ ht₁
      by_cases hl : l = label
      · rw [hl, ht, Option.some.injEq] at ht₁
        rw [← ht₁]
        exact hprogress (hall t' (by rw [hl]; exact set_self s label _))
      · exact hall t₁ (by rw [set_other s _ hl]; exact ht₁)
    have hold : ∀ {n}, d'.dir n ≠ some (.made l) := by
      intro n hn
      rcases hlocal.dir.values hn with ⟨hmade, -, hopened⟩ | ⟨n', -, hdir⟩
      · rw [Ino.made.inj hmade] at hall
        rw [hall t' (set_self s label _)] at hopened
        cases hopened
      · exact (hs.fresh hback).1 n' hdir
    refine ⟨fun n => hold, fun l' t₁ h ht₁ hh hino => ?_⟩
    rcases set_cases ht₁ with ⟨rfl, rfl⟩ | ⟨-, hold₁⟩
    · rcases hlocal.file with hfile | ⟨-, h', hh', hpart⟩
      · obtain ⟨h₀, hh₀, hino₀⟩ := hfile h hh
        exact (hs.fresh hback).2 l' t h₀ ht hh₀ (hino₀.trans hino)
      · rw [hh, Option.some.injEq] at hh'
        rw [← hh', hino] at hpart
        exact hold hpart
    · exact (hs.fresh hback).2 l' t₁ h hold₁ hh hino

/-! ## §4 What the others are to a download -/

section Steps

variable [Sha256] [PathText]

/-- The moves of a download that has ended keep it ended. -/
theorem advance_not_live {m : Move} {d d' : Folder} {t t' : Transfer} (hok : Apart s (.move label m))
    (ht : s.downloads label = some t) (hended : t.live = false)
    (h : advance d label t m = some (d', t')) : t'.live = false := by
  by_contra hlive
  rw [Bool.not_eq_false] at hlive
  rcases (advance_progress h).live hlive with hyes | ⟨rfl, hasked, hregistered⟩
  · rw [hended] at hyes
    cases hyes
  · have hrunning : t.status = .running := hok t ht hregistered
    rw [Transfer.live, hasked, hregistered, hrunning] at hended
    cases hended

/-- **Separate downloads stay separate.** -/
theorem separate_step {e : Event} (hs : Separate s) (hok : Apart s e)
    (h : (receiving node).step s e = some s') : Separate s' := by
  cases e with
  | start label dst saveAs resume man =>
      obtain ⟨hnew, -, ⟨-, rfl⟩ | ⟨hpresent, rfl⟩⟩ := step_start h
      · exact hs
      · exact hs.start hnew (enter_live ..) (enter_unopened ..) (hok hpresent)
  | move label m =>
      obtain ⟨t, d', t', ht, hadvance, -, rfl⟩ := step_move h
      have hunopened := (advance_progress hadvance).unopened
      cases hlive : t.live with
      | true => exact hs.advance ht hlive (advance_local hadvance) hunopened
      | false =>
          apply hs.weaken
          · intro n i hn
            rcases (advance_ended hlive hadvance).1 with hd | ⟨-, hd⟩
            · rw [← hd]
              exact hn
            · by_contra hne
              have hdir : d'.dir n = some i := hn
              rw [hd, Disk.unlink] at hdir
              dsimp only at hdir
              by_cases hp : n = t.part
              · rw [hp, Function.update_self] at hdir
                cases hdir
              · rw [Function.update_of_ne hp] at hdir
                exact hne hdir
          · intro l
            by_cases hl : l = label
            · rw [hl]
              exact Or.inr ⟨t, t', ht, set_self s label _,
                advance_not_live hok ht hlive hadvance, hunopened⟩
            · exact Or.inl (set_other s _ hl)
  | restart =>
      obtain rfl := Option.some.inj h
      refine hs.weaken (fun n i hn => hn) fun l => ?_
      cases ht : s.downloads l with
      | none => exact Or.inl (by rw [restarted_downloads, ht]; rfl)
      | some t =>
          exact Or.inr ⟨t, t.kill, ht, by rw [restarted_downloads, ht]; rfl, rfl,
            fun h => by cases h⟩

/-- The inodes that a download may come to. -/
def Held (l : String) (d : Folder) (t : Transfer) (i : Ino) : Prop :=
  t.Own l d i ∨ d.dir t.name = some i

/-- **What another download does** is nothing to one that goes on. -/
theorem others_agree {m : Move} {t₁ : Transfer} {l : String} (hs : Separate s)
    (hok : Apart s (.move label m)) (h : (receiving node).step s (.move label m) = some s')
    (hl : l ≠ label) (ht₁ : s.downloads l = some t₁) (hlive₁ : t₁.live = true) :
    s'.downloads l = some t₁ ∧ Disk.Agree t₁.Names (Held l s.disk t₁) s.disk s'.disk := by
  obtain ⟨t, d', t', ht, hadvance, -, rfl⟩ := step_move h
  refine ⟨(set_other s _ hl).trans ht₁, ?_⟩
  have hlocal := advance_local hadvance
  cases hlive : t.live with
  | true =>
      have hnames : ∀ n, t₁.Names n → ¬ t.Names n := fun n hn =>
        hs.names ht₁ ht hl hlive₁ hlive hn
      refine ⟨fun n hn => hlocal.frame.dir n (hnames n hn), fun i hi => hlocal.frame.data i ?_⟩
      intro hwrites
      rcases hi with hown | hname
      · exact hs.owns ht₁ ht hl hlive₁ hlive hown hwrites.own
      · apply hnames _ (Or.inl rfl)
        rcases hwrites with ⟨rfl, -⟩ | hpart | ⟨h, hh, rfl⟩
        · exact hs.made ht hlive hname
        · exact Or.inr (hs.inj hname hpart)
        · exact Or.inr (hs.handle ht hh hname)
  | false =>
      rcases (advance_ended hlive hadvance).1 with hd | ⟨rfl, hd⟩
      · show Disk.Agree _ _ s.disk d'
        rw [hd]
        exact ⟨fun _ _ => rfl, fun _ _ => rfl⟩
      · show Disk.Agree _ _ s.disk d'
        rw [hd]
        refine ⟨fun n hn => Function.update_of_ne ?_ .., fun _ _ => rfl⟩
        rintro rfl
        exact hok t ht l t₁ hl ht₁ hlive₁ hn

omit [PathText] in
/-- The last step of `_finalize` touches no file. -/
theorem advance_marking {m : Move} {d d' : Folder} {t t' : Transfer} (hst : t.stage = .marking)
    (h : advance d label t m = some (d', t')) :
    (t'.stage = .marking ∨ (t'.stage = .finished ∧ t'.status = .done)) ∧
      (d' = d ∨ d' = d.unlink t.part) ∧ t'.arrived = t.arrived := by
  cases m with
  | served | refused why | cancelPop =>
      rw [advance] at h
      split at h <;> cases h
      first
        | exact ⟨Or.inl hst, Or.inl rfl, rfl⟩
        | exact ⟨Or.inl ((t.fail_stage _).trans hst), Or.inl rfl, fail_arrived _⟩
  | cancelReturn unlinked =>
      rw [advance] at h
      split at h <;> cases h
      refine ⟨Or.inl hst, ?_, rfl⟩
      cases unlinked with
      | true => exact Or.inr rfl
      | false => exact Or.inl rfl
  | advance =>
      rw [advance, finalizeStep, hst] at h
      cases h
      exact ⟨Or.inr ⟨rfl, rfl⟩, Or.inl rfl, rfl⟩
  | _ =>
      rw [advance, hst] at h
      cases h

omit [Sha256] [PathText] in
theorem unlink_content {d : Folder} {t : Transfer} {n : String} (h : t.part ≠ n) :
    (d.unlink t.part).content n = d.content n := by
  show Option.map d.data (Function.update d.dir t.part none n) = _
  rw [Function.update_of_ne h.symm]
  rfl

omit [Sha256] [PathText] in
/-- A download that goes on leaves the content of a name that is not its own as it is. -/
theorem content_of_local {d' : Folder} {t t' : Transfer} {n : String} (hs : Separate s)
    (ht : s.downloads label = some t) (hlocal : Local label s.disk t d' t') (hpart : t.part ≠ n)
    (hname : t.name = n → ¬ (t.stage = .replacing ∧ t'.replaced = true)) :
    d'.content n = s.disk.content n := by
  have hdir : d'.dir n = s.disk.dir n := by
    cases hlocal.dir with
    | same h => rw [h]
    | create h => rw [h, Function.update_of_ne hpart.symm]
    | remove h => rw [h, Function.update_of_ne hpart.symm]
    | rename h hbefore _ hreplaced =>
        rw [h]
        show Function.update (Function.update s.disk.dir t.name _) t.part none n = _
        rw [Function.update_of_ne hpart.symm, Function.update_of_ne]
        exact fun heq => hname heq.symm ⟨hbefore, hreplaced⟩
  unfold Disk.content
  rw [hdir]
  cases hi : s.disk.dir n with
  | none => rfl
  | some i =>
      refine congrArg some (hlocal.frame.data i ?_)
      rintro (⟨rfl, hunopened⟩ | hdirpart | ⟨h, hh, rfl⟩)
      · refine (hs.fresh fun t₁ ht₁ => ?_).1 n hi
        rw [Option.some.inj (ht₁.symm.trans ht)]
        exact hunopened
      · exact hpart (hs.inj hdirpart hi)
      · exact hpart (hs.handle ht hh hi).symm

end Steps

end NetPulse.Files
