import NetPulse.Files.Download

/-
# NetPulse.Files.DownloadSteps — what a move of one download reads and writes

A download knows two names, its file and its `.part`, and three inodes at most: the one that the
`.part` leads to, the one that it has open, and the one that it has created. A move changes nothing
else (`advance_local`), and reads nothing else (`advance_agree`). `Advances` has all moves that can be
made, with what they do; whatever a move keeps is shown for each of them.
-/

namespace NetPulse.Files

open NetPulse.Lib

/-! ## §1 Names and inodes of a download -/

/-- The `.part` has not been opened yet. -/
def Stage.unopened : Stage → Bool
  | asked | prepared | acked | copying => true
  | _ => false

namespace Transfer

/-- The names of a download. -/
def Names (t : Transfer) (n : String) : Prop := n = t.name ∨ n = t.part

/-- The inodes of a download. -/
def Own (t : Transfer) (label : String) (d : Folder) (i : Ino) : Prop :=
  i = .made label ∨ d.dir t.part = some i ∨ ∃ h, t.stage.handle = some h ∧ h.ino = i

/-- The inodes that its next move may write to. -/
def Writes (t : Transfer) (label : String) (d : Folder) (i : Ino) : Prop :=
  (i = .made label ∧ t.stage.unopened = true) ∨ d.dir t.part = some i ∨
    ∃ h, t.stage.handle = some h ∧ h.ino = i

theorem Writes.own {t : Transfer} {label : String} {d : Folder} {i : Ino}
    (h : t.Writes label d i) : t.Own label d i := h.imp_left And.left

/-- What a record never changes. -/
structure Kept (t t' : Transfer) : Prop where
  src : t'.src = t.src
  share : t'.share = t.share
  path : t'.path = t.path
  name : t'.name = t.name
  id : t'.id = t.id
  size : t'.size = t.size
  resumedFrom : t'.resumedFrom = t.resumedFrom
  base : t'.base = t.base

theorem Kept.refl (t : Transfer) : Kept t t := ⟨rfl, rfl, rfl, rfl, rfl, rfl, rfl, rfl⟩

theorem Kept.part {t t' : Transfer} (h : Kept t t') : t'.part = t.part := congrArg partOf h.name

theorem Kept.names {t t' : Transfer} (h : Kept t t') {n : String} : t'.Names n ↔ t.Names n := by
  unfold Names
  rw [h.name, h.part]

theorem kept_fail (t : Transfer) (why : Failure) : Kept t (t.fail why) := by
  unfold fail
  split <;> exact ⟨rfl, rfl, rfl, rfl, rfl, rfl, rfl, rfl⟩

theorem Kept.stage {t t' : Transfer} (h : Kept t t') (stage : Stage) :
    Kept t { t' with stage := stage } :=
  ⟨h.src, h.share, h.path, h.name, h.id, h.size, h.resumedFrom, h.base⟩

theorem kept_finalize (t : Transfer) : Kept t t.finalize := by
  unfold finalize
  split <;> exact (Kept.refl t).stage _

theorem kept_settle (t : Transfer) : Kept t t.settle := by
  unfold settle
  split
  · exact (Kept.refl t).stage _
  · split
    · exact (kept_fail t _).stage _
    · exact kept_finalize t

@[simp] theorem fail_stage (t : Transfer) (why : Failure) : (t.fail why).stage = t.stage := by
  unfold fail
  split <;> rfl

theorem settle_handle (t : Transfer) : t.settle.stage.handle = none := by
  unfold settle finalize
  split
  · rfl
  · split
    · rfl
    · split <;> rfl

end Transfer

theorem partOf_ne_name (name : String) : partOf name ≠ name := by
  intro h
  have hlength := congrArg String.length h
  rw [partOf, String.length_append] at hlength
  exact absurd hlength (by show name.length + 5 ≠ name.length; omega)

theorem Transfer.part_ne_name (t : Transfer) : t.part ≠ t.name := partOf_ne_name t.name

/-! ## §2 Move by move -/

section Moves

variable [Sha256] {label : String} {d d' : Folder} {t t' : Transfer} {m : Move}

/-- What an operation of `_finalize` does, and when. -/
inductive Finalizes (d : Folder) (t : Transfer) : Folder → Transfer → Prop
  | vanished (hstage : t.stage = .sizing ∨ t.stage = .hashing ∨ t.stage = .replacing)
      (hgone : d.dir t.part = none) : Finalizes d t d { t.fail .vanished with stage := .finished }
  | wrongSize {data : Bytes} (hstage : t.stage = .sizing) (hdata : d.content t.part = some data)
      (hsize : (data.length : Int) ≠ t.size) :
      Finalizes d t (d.unlink t.part) { t.fail (.size data.length t.size) with stage := .finished }
  | wrongHash {data : Bytes} (hstage : t.stage = .hashing) (hdata : d.content t.part = some data)
      (hhash : Sha256.sha256 data ≠ t.id) :
      Finalizes d t (d.unlink t.part) { t.fail .hash with stage := .finished }
  | sized {data : Bytes} (hstage : t.stage = .sizing) (hdata : d.content t.part = some data)
      (hsize : (data.length : Int) = t.size) : Finalizes d t d { t with stage := .hashing }
  | hashed {data : Bytes} (hstage : t.stage = .hashing) (hdata : d.content t.part = some data)
      (hhash : Sha256.sha256 data = t.id) : Finalizes d t d { t with stage := .replacing }
  | replaced {i : Ino} (hstage : t.stage = .replacing) (hdir : d.dir t.part = some i) :
      Finalizes d t (d.replace t.part t.name) { t with stage := .marking, replaced := true }
  | marked (hstage : t.stage = .marking) :
      Finalizes d t d { t with status := .done, received := t.size, stage := .finished }

omit [Sha256] in
theorem dir_of_content_none {name : String} (h : d.content name = none) : d.dir name = none :=
  Option.map_eq_none_iff.mp h

theorem finalizeStep_eq_some_iff : finalizeStep d t = some (d', t') ↔ Finalizes d t d' t' := by
  constructor
  · intro h
    unfold finalizeStep at h
    split at h
    · rename_i hstage
      split at h
      · rename_i hdata
        cases h
        exact .vanished (.inl hstage) (dir_of_content_none hdata)
      · rename_i data hdata
        split at h
        · rename_i hsize
          cases h
          exact .wrongSize hstage hdata hsize
        · rename_i hsize
          cases h
          exact .sized hstage hdata (not_not.mp hsize)
    · rename_i hstage
      split at h
      · rename_i hdata
        cases h
        exact .vanished (.inr (.inl hstage)) (dir_of_content_none hdata)
      · rename_i data hdata
        split at h
        · rename_i hhash
          cases h
          exact .wrongHash hstage hdata hhash
        · rename_i hhash
          cases h
          exact .hashed hstage hdata (not_not.mp hhash)
    · rename_i hstage
      split at h
      · rename_i hdir
        cases h
        exact .vanished (.inr (.inr hstage)) hdir
      · rename_i hdir
        cases h
        exact .replaced hstage hdir
    · rename_i hstage
      cases h
      exact .marked hstage
    · cases h
  · intro h
    unfold finalizeStep
    cases h with
    | vanished hstage hgone =>
        have hdata : d.content t.part = none := Option.map_eq_none_iff.mpr hgone
        rcases hstage with hstage | hstage | hstage
        · simp only [hstage, hdata]
        · simp only [hstage, hdata]
        · simp only [hstage, hgone]
    | wrongSize hstage hdata hsize => simp only [hstage, hdata, if_pos hsize]
    | wrongHash hstage hdata hhash => simp only [hstage, hdata, if_pos hhash]
    | sized hstage hdata hsize => simp only [hstage, hdata, if_neg (not_not.mpr hsize)]
    | hashed hstage hdata hhash => simp only [hstage, hdata, if_neg (not_not.mpr hhash)]
    | replaced hstage hdir => simp only [hstage, hdir]
    | marked hstage => simp only [hstage]

/-- What a move does, and when it can be made. -/
inductive Advances (d : Folder) (label : String) (t : Transfer) :
    Move → Folder → Transfer → Prop
  | served (hfree : (t.answered || t.stage.busy) = false) :
      Advances d label t .served d { t with answered := true }
  | refused {why : Failure} (hfree : (t.answered || t.stage.busy) = false) :
      Advances d label t (.refused why) d { t.fail why with answered := true }
  | stream (hstage : t.stage = .asked) :
      Advances d label t .stream d
        { t with stage := if t.registered then .prepared else .drained }
  | ackFirst (hstage : t.stage = .prepared) :
      Advances d label t .ack d { t with acks := t.acks + 1, stage := .acked }
  | ackNext {h : Handle Ino UInt8} (hstage : t.stage = .acking h) :
      Advances d label t .ack d { t with acks := t.acks + 1, stage := .reading h }
  | openPart (hstage : t.stage = .acked) :
      Advances d label t .openPart (openPart d label t).1
        { t with stage := .reading (openPart d label t).2 }
  | chunk {h : Handle Ino UInt8} {bytes : Bytes} {room : Bool} {flushed : Nat}
      (hstage : t.stage = .reading h) :
      Advances d label t (.chunk bytes room flushed) (chunkStep d t h bytes room flushed).1
        (chunkStep d t h bytes room flushed).2
  | eof {h : Handle Ino UInt8} (hstage : t.stage = .reading h) :
      Advances d label t .eof (d.close h) t.settle
  | broken {flushed : Nat}
      (hstage : t.stage = .prepared ∨ t.stage = .acked ∨ t.stage = .drained) :
      Advances d label t (.broken flushed) d { t with stage := .raised }
  | brokenOpen {h : Handle Ino UInt8} {flushed : Nat}
      (hstage : t.stage = .reading h ∨ t.stage = .acking h) :
      Advances d label t (.broken flushed) (d.flush h flushed).1 { t with stage := .raised }
  | copyOpen (hstage : t.stage = .copying) :
      Advances d label t .copyOpen (d.openTruncate (.made label) t.part).1
        { t with stage := .filling (d.openTruncate (.made label) t.part).2 }
  | copied {h : Handle Ino UInt8} {bytes : Bytes} (hstage : t.stage = .filling h) :
      Advances d label t (.copied bytes) (d.close { h with pending := h.pending ++ bytes })
        { t with arrived := bytes, stage := if t.registered then .sizing else .finished }
  | copyFails {bytes : Bytes} {why : Failure} (hstage : t.stage = .copying) :
      Advances d label t (.copyFails bytes why) d { t.fail why with stage := .finished }
  | copyFailsOpen {h : Handle Ino UInt8} {bytes : Bytes} {why : Failure}
      (hstage : t.stage = .filling h) :
      Advances d label t (.copyFails bytes why)
        (d.close { h with pending := h.pending ++ bytes }) { t.fail why with stage := .finished }
  | finalize {d' : Folder} {t' : Transfer} (hstep : Finalizes d t d' t') :
      Advances d label t .advance d' t'
  | trouble {why : String}
      (hstage : t.stage = .sizing ∨ t.stage = .hashing ∨ t.stage = .replacing) :
      Advances d label t (.trouble why) d { t.fail (.other why) with stage := .finished }
  | cancelPop (hregistered : t.registered = true) :
      Advances d label t .cancelPop d { t with registered := false, cancel := .popped }
  | cancelReturn {unlinked : Bool} (hpopped : t.cancel = .popped) :
      Advances d label t (.cancelReturn unlinked) (if unlinked then d.unlink t.part else d)
        { t with cancel := .returned }

/-- Where `_finalize` is at work. -/
theorem Finalizes.stage (h : Finalizes d t d' t') :
    t.stage = .sizing ∨ t.stage = .hashing ∨ t.stage = .replacing ∨ t.stage = .marking := by
  cases h with
  | vanished hstage => exact hstage.imp_right (Or.imp_right .inl)
  | wrongSize hstage | sized hstage => exact .inl hstage
  | wrongHash hstage | hashed hstage => exact .inr (.inl hstage)
  | replaced hstage => exact .inr (.inr (.inl hstage))
  | marked hstage => exact .inr (.inr (.inr hstage))

theorem Advances.advance_eq (h : Advances d label t m d' t') :
    advance d label t m = some (d', t') := by
  cases h with
  | served hfree | refused hfree =>
      exact if_neg (by rw [hfree]; exact Bool.false_ne_true)
  | stream hstage | ackFirst hstage | ackNext hstage | openPart hstage | chunk hstage | eof hstage
  | copyOpen hstage | copied hstage | copyFails hstage | copyFailsOpen hstage =>
      rw [advance, hstage]
  | broken hstage =>
      rcases hstage with hstage | hstage | hstage
      all_goals rw [advance, hstage]
  | brokenOpen hstage =>
      rcases hstage with hstage | hstage
      all_goals rw [advance, hstage]
  | finalize hstep => exact finalizeStep_eq_some_iff.mpr hstep
  | trouble hstage =>
      rcases hstage with hstage | hstage | hstage
      all_goals rw [advance, hstage]
  | cancelPop hregistered => exact if_pos hregistered
  | cancelReturn hpopped => exact if_pos hpopped

theorem advances_of_eq (h : advance d label t m = some (d', t')) :
    Advances d label t m d' t' := by
  cases m with
  | served | refused why =>
      rw [advance] at h
      split at h
      · cases h
      · rename_i hbusy
        cases h
        constructor
        exact Bool.not_eq_true _ ▸ hbusy
  | stream | openPart | eof | copyOpen | copied bytes =>
      rw [advance] at h
      split at h
      · rename_i hstage
        cases h
        constructor
        exact hstage
      · cases h
  | chunk bytes room flushed =>
      rw [advance] at h
      split at h
      · rename_i handle hstage
        obtain ⟨rfl, rfl⟩ : (chunkStep d t handle bytes room flushed).1 = d' ∧
            (chunkStep d t handle bytes room flushed).2 = t' := Prod.mk.inj (Option.some.inj h)
        exact .chunk hstage
      · cases h
  | ack =>
      rw [advance] at h
      split at h
      · rename_i hstage
        cases h
        exact .ackFirst hstage
      · rename_i hstage
        cases h
        exact .ackNext hstage
      · cases h
  | broken flushed =>
      rw [advance] at h
      split at h
      · rename_i hstage
        cases h
        exact .broken (.inl hstage)
      · rename_i hstage
        cases h
        exact .broken (.inr (.inl hstage))
      · rename_i hstage
        cases h
        exact .broken (.inr (.inr hstage))
      · rename_i hstage
        cases h
        exact .brokenOpen (.inl hstage)
      · rename_i hstage
        cases h
        exact .brokenOpen (.inr hstage)
      · cases h
  | copyFails bytes why =>
      rw [advance] at h
      split at h
      · rename_i hstage
        cases h
        exact .copyFails hstage
      · rename_i hstage
        cases h
        exact .copyFailsOpen hstage
      · cases h
  | advance => exact .finalize (finalizeStep_eq_some_iff.mp h)
  | trouble why =>
      rw [advance] at h
      split at h
      · rename_i hstage
        cases h
        exact .trouble (.inl hstage)
      · rename_i hstage
        cases h
        exact .trouble (.inr (.inl hstage))
      · rename_i hstage
        cases h
        exact .trouble (.inr (.inr hstage))
      · cases h
  | cancelPop =>
      rw [advance] at h
      split at h
      · rename_i hregistered
        cases h
        exact .cancelPop hregistered
      · cases h
  | cancelReturn unlinked =>
      rw [advance] at h
      split at h
      · rename_i hpopped
        cases h
        exact .cancelReturn hpopped
      · cases h

end Moves

/-! ## §3 What a move changes -/

/-- What a move does to the names. -/
inductive DirStep (label : String) (d : Folder) (t : Transfer) (d' : Folder) (t' : Transfer) : Prop
  | same (h : d'.dir = d.dir)
  | create (h : d'.dir = Function.update d.dir t.part (some (.made label)))
      (hbefore : t.stage.unopened = true) (hafter : t'.stage.unopened = false)
  | remove (h : d'.dir = Function.update d.dir t.part none)
  | rename (h : d'.dir = (d.replace t.part t.name).dir) (hbefore : t.stage = .replacing)
      (hafter : t'.stage = .marking) (hreplaced : t'.replaced = true)

/-- An open file of the new state was open before. -/
def SameFile (t t' : Transfer) : Prop :=
  ∀ h, t'.stage.handle = some h → ∃ h₀, t.stage.handle = some h₀ ∧ h₀.ino = h.ino

/-- The move of a download from one state to another, seen from outside. -/
structure Local (label : String) (d : Folder) (t : Transfer) (d' : Folder) (t' : Transfer) :
    Prop where
  kept : t.Kept t'
  frame : Disk.Frame t.Names (t.Writes label d) d d'
  dir : DirStep label d t d' t'
  file : SameFile t t' ∨ (t.stage.unopened = true ∧
    ∃ h, t'.stage.handle = some h ∧ d'.dir t.part = some h.ino)

section Local

variable {label : String} {d d' : Folder} {t t' : Transfer}

theorem SameFile.of_none (h : t'.stage.handle = none) : SameFile t t' := by
  intro h' hh'
  rw [h] at hh'
  cases hh'

theorem DirStep.part (h : DirStep label d t d' t') {i : Ino} (hi : d'.dir t.part = some i) :
    d.dir t.part = some i ∨ i = .made label := by
  cases h with
  | same h => exact Or.inl (h ▸ hi)
  | create h =>
      rw [h, Function.update_self] at hi
      exact Or.inr (Option.some.inj hi).symm
  | remove h =>
      rw [h, Function.update_self] at hi
      cases hi
  | rename h =>
      rw [h, Disk.replace_source] at hi
      cases hi

/-- A download comes to no other inodes. -/
theorem Local.own (h : Local label d t d' t') (i : Ino) (hi : t'.Own label d' i) :
    t.Own label d i := by
  have hpart : ∀ j, d'.dir t.part = some j → t.Own label d j := by
    intro j hj
    rcases h.dir.part hj with hold | hmade
    · exact Or.inr (Or.inl hold)
    · exact Or.inl hmade
  rcases hi with hmade | hdir | ⟨handle, hhandle, rfl⟩
  · exact Or.inl hmade
  · rw [h.kept.part] at hdir
    exact hpart i hdir
  · rcases h.file with hfile | ⟨-, handle', hhandle', hdir⟩
    · obtain ⟨h₀, hh₀, hino⟩ := hfile handle hhandle
      exact Or.inr (Or.inr ⟨h₀, hh₀, hino⟩)
    · rw [hhandle, Option.some.injEq] at hhandle'
      rw [← hhandle'] at hdir
      exact hpart _ hdir

theorem local_stay (hkept : t.Kept t') (hfile : SameFile t t') : Local label d t d t' :=
  ⟨hkept, Disk.Frame.refl d, .same rfl, Or.inl hfile⟩

theorem local_flush {h : Handle Ino UInt8} {pending : Bytes} {count : Nat}
    (hstage : t.stage.handle = some h) (hkept : t.Kept t') (hfile : SameFile t t') :
    Local label d t (d.flush { h with pending := pending } count).1 t' :=
  ⟨hkept, Disk.frame_flush (Or.inr (Or.inr ⟨h, hstage, rfl⟩)), .same Disk.flush_dir, Or.inl hfile⟩

theorem local_unlink (hkept : t.Kept t') (hfile : SameFile t t') :
    Local label d t (d.unlink t.part) t' :=
  ⟨hkept, Disk.frame_unlink (Or.inr rfl), .remove rfl, Or.inl hfile⟩

theorem opened_of_handle {stage : Stage} {h : Handle Ino UInt8} (hstage : stage.handle = some h) :
    stage.unopened = false := by
  cases stage <;> first | rfl | cases hstage

theorem local_openTruncate (hunopened : t.stage.unopened = true) (hkept : t.Kept t')
    (hstage : t'.stage.handle = some (d.openTruncate (.made label) t.part).2) :
    Local label d t (d.openTruncate (.made label) t.part).1 t' := by
  refine ⟨hkept, ?_, ?_, Or.inr ⟨hunopened, _, hstage, Function.update_self ..⟩⟩
  · exact Disk.frame_openTruncate (Or.inr rfl) (Or.inl ⟨rfl, hunopened⟩) fun i hi =>
      Or.inr (Or.inl hi)
  · cases hpart : d.dir t.part with
    | none =>
        refine .create ?_ hunopened (opened_of_handle hstage)
        show Function.update d.dir t.part (some ((d.dir t.part).getD _)) = _
        rw [hpart]
        rfl
    | some i =>
        refine .same ?_
        show Function.update d.dir t.part (some ((d.dir t.part).getD _)) = _
        rw [hpart, Option.getD_some, ← hpart, Function.update_eq_self]

theorem local_openAppend (hunopened : t.stage.unopened = true) (hkept : t.Kept t')
    (hstage : t'.stage.handle = some (d.openAppend (.made label) t.part).2) :
    Local label d t (d.openAppend (.made label) t.part).1 t' := by
  refine ⟨hkept, Disk.frame_openAppend (Or.inr rfl) (Or.inl ⟨rfl, hunopened⟩), ?_, ?_⟩
  · unfold Disk.openAppend
    cases hpart : d.dir t.part with
    | none => exact .create rfl hunopened (opened_of_handle hstage)
    | some i => exact .same rfl
  · refine Or.inr ⟨hunopened, _, hstage, ?_⟩
    unfold Disk.openAppend
    cases hpart : d.dir t.part with
    | none => exact Function.update_self ..
    | some i => exact hpart

section Advance

variable [Sha256] {m : Move}

theorem Finalizes.local (h : Finalizes d t d' t') : Local label d t d' t' := by
  cases h with
  | vanished => exact local_stay ((t.kept_fail _).stage _) (SameFile.of_none rfl)
  | wrongSize | wrongHash => exact local_unlink ((t.kept_fail _).stage _) (SameFile.of_none rfl)
  | sized | hashed => exact local_stay ((Transfer.Kept.refl t).stage _) (SameFile.of_none rfl)
  | replaced hstage =>
      exact ⟨⟨rfl, rfl, rfl, rfl, rfl, rfl, rfl, rfl⟩,
        Disk.frame_replace (Or.inr rfl) (Or.inl rfl), .rename rfl hstage rfl rfl,
        Or.inl (SameFile.of_none rfl)⟩
  | marked =>
      exact local_stay ⟨rfl, rfl, rfl, rfl, rfl, rfl, rfl, rfl⟩ (SameFile.of_none rfl)

omit [Sha256] in
theorem writeTo_ino {h : Handle Ino UInt8} {bytes : Bytes} {flushed : Nat} :
    (writeTo d h bytes flushed).2.ino = h.ino := by
  unfold writeTo
  exact Disk.flush_ino

omit [Sha256] in
theorem chunkStep_local {h : Handle Ino UInt8} {bytes : Bytes} {room : Bool} {flushed : Nat}
    (hstage : t.stage.handle = some h) :
    Local label d t (chunkStep d t h bytes room flushed).1 (chunkStep d t h bytes room flushed).2 := by
  unfold chunkStep
  split
  · exact local_flush hstage t.kept_settle (SameFile.of_none t.settle_handle)
  · refine local_flush hstage ⟨rfl, rfl, rfl, rfl, rfl, rfl, rfl, rfl⟩ ?_
    intro h' hh'
    refine ⟨h, hstage, ?_⟩
    have hh : (writeTo d h bytes flushed).2 = h' := by
      cases room with
      | true => exact Option.some.inj hh'
      | false => exact Option.some.inj hh'
    rw [← hh, writeTo_ino]

/-- **A move changes what belongs to its download, and nothing else.** -/
theorem advance_local (h : advance d label t m = some (d', t')) : Local label d t d' t' := by
  have hsame : ∀ t₁ : Transfer, t₁.stage = t.stage → SameFile t t₁ := fun t₁ hst h' hh' =>
    ⟨h', by rw [← hst]; exact hh', rfl⟩
  have hsettled : ∀ stage, stage.handle = none →
      Stage.handle (if t.registered then stage else .drained) = none ∧
        Stage.handle (if t.registered then stage else .finished) = none := by
    intro stage hstage
    split
    · exact ⟨hstage, hstage⟩
    · exact ⟨rfl, rfl⟩
  cases advances_of_eq h with
  | served => exact local_stay ⟨rfl, rfl, rfl, rfl, rfl, rfl, rfl, rfl⟩ (hsame _ rfl)
  | @refused why =>
      obtain ⟨h₁, h₂, h₃, h₄, h₅, h₆, h₇, h₈⟩ := t.kept_fail why
      exact local_stay ⟨h₁, h₂, h₃, h₄, h₅, h₆, h₇, h₈⟩ (hsame _ (t.fail_stage why))
  | stream =>
      exact local_stay ((Transfer.Kept.refl t).stage _)
        (SameFile.of_none (hsettled .prepared rfl).1)
  | ackFirst => exact local_stay ⟨rfl, rfl, rfl, rfl, rfl, rfl, rfl, rfl⟩ (SameFile.of_none rfl)
  | ackNext hstage =>
      refine local_stay ⟨rfl, rfl, rfl, rfl, rfl, rfl, rfl, rfl⟩ fun h' hh' => ?_
      exact ⟨h', by rw [hstage]; exact hh', rfl⟩
  | openPart hstage =>
      have hunopened : t.stage.unopened = true := by rw [hstage]; rfl
      unfold openPart
      split
      · exact local_openAppend hunopened ((Transfer.Kept.refl t).stage _) rfl
      · exact local_openTruncate hunopened ((Transfer.Kept.refl t).stage _) rfl
  | chunk hstage => exact chunkStep_local (by rw [hstage]; rfl)
  | eof hstage =>
      exact local_flush (by rw [hstage]; rfl) t.kept_settle (SameFile.of_none t.settle_handle)
  | broken => exact local_stay ((Transfer.Kept.refl t).stage _) (SameFile.of_none rfl)
  | brokenOpen hstage =>
      refine local_flush ?_ ((Transfer.Kept.refl t).stage _) (SameFile.of_none rfl)
      rcases hstage with hstage | hstage
      · rw [hstage]
        rfl
      · rw [hstage]
        rfl
  | copyOpen hstage =>
      exact local_openTruncate (by rw [hstage]; rfl) ((Transfer.Kept.refl t).stage _) rfl
  | copied hstage =>
      exact local_flush (by rw [hstage]; rfl) ⟨rfl, rfl, rfl, rfl, rfl, rfl, rfl, rfl⟩
        (SameFile.of_none (hsettled .sizing rfl).2)
  | copyFails => exact local_stay ((t.kept_fail _).stage _) (SameFile.of_none rfl)
  | copyFailsOpen hstage =>
      exact local_flush (by rw [hstage]; rfl) ((t.kept_fail _).stage _) (SameFile.of_none rfl)
  | finalize hstep => exact hstep.local
  | trouble => exact local_stay ((t.kept_fail _).stage _) (SameFile.of_none rfl)
  | cancelPop => exact local_stay ⟨rfl, rfl, rfl, rfl, rfl, rfl, rfl, rfl⟩ (hsame _ rfl)
  | @cancelReturn unlinked =>
      cases unlinked with
      | true => exact local_unlink ⟨rfl, rfl, rfl, rfl, rfl, rfl, rfl, rfl⟩ (hsame _ rfl)
      | false => exact local_stay ⟨rfl, rfl, rfl, rfl, rfl, rfl, rfl, rfl⟩ (hsame _ rfl)

/-! ## §4 How a record goes on -/

/-- What a move can make of the stage and the status of a record. -/
structure Progress (m : Move) (t t' : Transfer) : Prop where
  unopened : t'.stage.unopened = true → t.stage.unopened = true
  live : t'.live = true →
    t.live = true ∨ (m = .stream ∧ t.stage = .asked ∧ t.registered = true)
  done : t'.status = .done → t.status = .done ∨ (t.stage = .marking ∧ t'.stage = .finished)
  replaced : t'.replaced = t.replaced ∨ (t.stage = .replacing ∧ t'.stage = .marking)
  registered : t'.registered = true → t.registered = true
  cancel : t'.cancel = t.cancel ∨ (t'.cancel = .popped ∧ t'.registered = false) ∨
    (t.cancel = .popped ∧ ∃ unlinked, m = .cancelReturn unlinked)

omit [Sha256] in
/-- What has been cancelled stays out of the table. -/
theorem Progress.popped (h : Progress m t t') (hbefore : t.cancel ≠ .never → t.registered = false)
    (hcancel : t'.cancel ≠ .never) : t'.registered = false := by
  by_contra hregistered
  rw [Bool.not_eq_false] at hregistered
  have hthen : t.registered = true := h.registered hregistered
  have hno : t.cancel ≠ .never → False := fun hne => by
    rw [hbefore hne] at hthen
    cases hthen
  rcases h.cancel with hsame | ⟨-, hfalse⟩ | ⟨hpopped, -⟩
  · exact hno (hsame ▸ hcancel)
  · rw [hfalse] at hregistered
    cases hregistered
  · exact hno (by rw [hpopped]; exact fun heq => by cases heq)

omit [Sha256] in
theorem live_of_active (h : t.stage.active = true) : t.live = true := by
  rw [Transfer.live, h, Bool.true_or]

omit [Sha256] in
theorem not_live_of_stage (hactive : t.stage.active = false) (hasked : t.stage ≠ .asked) :
    t.live = false := by
  rw [Transfer.live, hactive, decide_eq_false hasked]
  rfl

omit [Sha256] in
theorem fail_status_ne_done (why : Failure) (h : (t.fail why).status = .done) : t.status = .done := by
  unfold Transfer.fail at h
  split at h
  · cases h
  · exact h

omit [Sha256] in
theorem fail_registered (why : Failure) : (t.fail why).registered = t.registered := by
  unfold Transfer.fail
  split <;> rfl

omit [Sha256] in
theorem fail_arrived (why : Failure) : (t.fail why).arrived = t.arrived := by
  unfold Transfer.fail
  split <;> rfl

omit [Sha256] in
theorem fail_cancel (why : Failure) : (t.fail why).cancel = t.cancel := by
  unfold Transfer.fail
  split <;> rfl

omit [Sha256] in
theorem fail_replaced (why : Failure) : (t.fail why).replaced = t.replaced := by
  unfold Transfer.fail
  split <;> rfl

omit [Sha256] in
theorem progress_stage {stage : Stage}
    (hunopened : stage.unopened = true → t.stage.unopened = true)
    (hlive : stage.active = true → t.stage.active = true) (hasked : stage ≠ .asked) :
    Progress m t { t with stage := stage } where
  unopened := hunopened
  live h := by
    cases hactive : stage.active with
    | true => exact Or.inl (live_of_active (hlive hactive))
    | false =>
        have hno : ({ t with stage := stage } : Transfer).live = false :=
          not_live_of_stage hactive hasked
        rw [hno] at h
        cases h
  done h := Or.inl h
  replaced := Or.inl rfl
  registered := id
  cancel := Or.inl rfl

omit [Sha256] in
theorem progress_fail (why : Failure) : Progress m t { t.fail why with stage := .finished } where
  unopened h := by cases h
  live h := by cases h
  done h := Or.inl (fail_status_ne_done why h)
  replaced := Or.inl (fail_replaced why)
  registered h := by
    rw [← fail_registered (t := t) why]
    exact h
  cancel := Or.inl (fail_cancel why)

omit [Sha256] in
theorem progress_settle (hactive : t.stage.active = true) : Progress m t t.settle := by
  unfold Transfer.settle Transfer.finalize
  split
  · exact progress_stage (fun h => by cases h) (fun h => by cases h) (fun h => by cases h)
  · split
    · exact progress_fail _
    · split
      · exact progress_stage (fun h => by cases h) (fun _ => hactive) (fun h => by cases h)
      · exact progress_stage (fun h => by cases h) (fun h => by cases h) (fun h => by cases h)

theorem Finalizes.progress (h : Finalizes d t d' t') : Progress m t t' := by
  cases h with
  | vanished | wrongSize | wrongHash => exact progress_fail _
  | sized hstage | hashed hstage =>
      exact progress_stage (fun h => by cases h) (fun _ => by rw [hstage]; rfl)
        (fun h => by cases h)
  | replaced hstage =>
      have hactive : t.stage.active = true := by rw [hstage]; rfl
      exact ⟨(fun h => by cases h), fun _ => Or.inl (live_of_active hactive), Or.inl,
        Or.inr ⟨hstage, rfl⟩, id, Or.inl rfl⟩
  | marked hstage =>
      exact ⟨(fun h => by cases h), (fun h => by cases h), fun _ => Or.inr ⟨hstage, rfl⟩, Or.inl rfl,
        id, Or.inl rfl⟩

theorem advance_progress (h : advance d label t m = some (d', t')) : Progress m t t' := by
  cases advances_of_eq h with
  | served => exact ⟨id, Or.inl, Or.inl, Or.inl rfl, id, Or.inl rfl⟩
  | @refused why =>
      refine ⟨?_, ?_, fun h => Or.inl (fail_status_ne_done why h), Or.inl (fail_replaced why), ?_,
        Or.inl (fail_cancel why)⟩
      · rw [show ({ t.fail why with answered := true } : Transfer).stage = t.stage from
          t.fail_stage why]
        exact id
      · intro hlive
        refine Or.inl ?_
        by_contra hno
        simp only [Transfer.live, Transfer.fail_stage, fail_registered, Bool.or_eq_true,
          Bool.and_eq_true, decide_eq_true_eq] at hlive hno
        rcases hlive with hactive | ⟨⟨hasked, hregistered⟩, hstatus⟩
        · exact hno (Or.inl hactive)
        · rw [Transfer.fail, if_pos hregistered] at hstatus
          cases hstatus
      · rw [← fail_registered (t := t) why]
        exact id
  | stream hstage =>
      refine ⟨(fun _ => by rw [hstage]; rfl), fun hlive => ?_, Or.inl, Or.inl rfl, id, Or.inl rfl⟩
      cases hregistered : t.registered with
      | true => exact Or.inr ⟨rfl, hstage, rfl⟩
      | false =>
          rw [hregistered] at hlive
          cases hlive
  | ackFirst hstage =>
      have hactive : t.stage.active = true := by rw [hstage]; rfl
      exact ⟨(fun _ => by rw [hstage]; rfl), fun _ => Or.inl (live_of_active hactive), Or.inl,
        Or.inl rfl, id, Or.inl rfl⟩
  | ackNext hstage =>
      have hactive : t.stage.active = true := by rw [hstage]; rfl
      exact ⟨(fun h => by cases h), fun _ => Or.inl (live_of_active hactive), Or.inl,
        Or.inl rfl, id, Or.inl rfl⟩
  | openPart hstage | copyOpen hstage =>
      exact progress_stage (fun h => by cases h) (fun _ => by rw [hstage]; rfl)
        (fun h => by cases h)
  | @chunk handle bytes room flushed hstage =>
      have hactive : t.stage.active = true := by rw [hstage]; rfl
      unfold chunkStep
      split
      · exact progress_settle hactive
      · refine ⟨fun h => ?_, fun _ => Or.inl (live_of_active hactive), Or.inl, Or.inl rfl, id,
          Or.inl rfl⟩
        cases room <;> cases h
  | eof hstage => exact progress_settle (by rw [hstage]; rfl)
  | broken | brokenOpen =>
      exact progress_stage (fun h => by cases h) (fun h => by cases h) (fun h => by cases h)
  | copied hstage =>
      have hactive : t.stage.active = true := by rw [hstage]; rfl
      refine ⟨fun h => ?_, fun _ => Or.inl (live_of_active hactive), Or.inl, Or.inl rfl, id,
        Or.inl rfl⟩
      revert h
      show Stage.unopened (if t.registered then _ else _) = true → _
      split <;> exact fun h => by cases h
  | copyFails | copyFailsOpen | trouble => exact progress_fail _
  | finalize hstep => exact hstep.progress
  | cancelPop =>
      refine ⟨id, fun hlive => Or.inl ?_, Or.inl, Or.inl rfl, (fun h => by cases h),
        Or.inr (Or.inl ⟨rfl, rfl⟩)⟩
      simp only [Transfer.live, Bool.and_false, Bool.false_and, Bool.or_false] at hlive
      exact live_of_active hlive
  | @cancelReturn unlinked hpopped =>
      exact ⟨id, Or.inl, Or.inl, Or.inl rfl, id, Or.inr (Or.inr ⟨hpopped, unlinked, rfl⟩)⟩

/-! ## §5 What a move depends on -/

theorem Finalizes.agree {d₂ : Folder} (hd : Disk.Agree t.Names (t.Own label d) d d₂)
    (h : Finalizes d t d' t') :
    ∃ d₂', Finalizes d₂ t d₂' t' ∧ Disk.Agree t.Names (t.Own label d) d' d₂' := by
  have hcontent : d₂.content t.part = d.content t.part :=
    hd.content (Or.inr rfl) fun i hi => Or.inr (Or.inl hi)
  have hdir : d₂.dir t.part = d.dir t.part := hd.dir t.part (Or.inr rfl)
  cases h with
  | vanished hstage hgone => exact ⟨d₂, .vanished hstage (hdir.trans hgone), hd⟩
  | wrongSize hstage hdata hsize =>
      exact ⟨_, .wrongSize hstage (hcontent.trans hdata) hsize, Disk.agree_unlink hd⟩
  | wrongHash hstage hdata hhash =>
      exact ⟨_, .wrongHash hstage (hcontent.trans hdata) hhash, Disk.agree_unlink hd⟩
  | sized hstage hdata hsize => exact ⟨d₂, .sized hstage (hcontent.trans hdata) hsize, hd⟩
  | hashed hstage hdata hhash => exact ⟨d₂, .hashed hstage (hcontent.trans hdata) hhash, hd⟩
  | replaced hstage hentry =>
      exact ⟨_, .replaced hstage (hdir.trans hentry), Disk.agree_replace hd (Or.inr rfl)⟩
  | marked hstage => exact ⟨d₂, .marked hstage, hd⟩

omit [Sha256] in
theorem chunkStep_agree {d₂ : Folder} {h : Handle Ino UInt8} {bytes : Bytes} {room : Bool}
    {flushed : Nat} (hd : Disk.Agree t.Names (t.Own label d) d d₂)
    (hstage : t.stage.handle = some h) :
    (chunkStep d₂ t h bytes room flushed).2 = (chunkStep d t h bytes room flushed).2 ∧
      Disk.Agree t.Names (t.Own label d) (chunkStep d t h bytes room flushed).1
        (chunkStep d₂ t h bytes room flushed).1 := by
  have hino : t.Own label d h.ino := Or.inr (Or.inr ⟨h, hstage, rfl⟩)
  unfold chunkStep
  split
  · exact ⟨rfl, (Disk.agree_flush hd hino).1⟩
  · have hwrite : Disk.Agree t.Names (t.Own label d) (writeTo d h bytes flushed).1
          (writeTo d₂ h bytes flushed).1 ∧
        (writeTo d₂ h bytes flushed).2 = (writeTo d h bytes flushed).2 := by
      unfold writeTo
      exact Disk.agree_flush hd hino
    refine ⟨?_, hwrite.1⟩
    rw [hwrite.2]

theorem advances_agree {d₂ : Folder} (hd : Disk.Agree t.Names (t.Own label d) d d₂)
    (h : Advances d label t m d' t') :
    ∃ d₂', Advances d₂ label t m d₂' t' ∧ Disk.Agree t.Names (t.Own label d) d' d₂' := by
  have hflush : ∀ {h₀ : Handle Ino UInt8} {pending : Bytes} {count : Nat},
      t.stage.handle = some h₀ → Disk.Agree t.Names (t.Own label d)
        (d.flush { h₀ with pending := pending } count).1
        (d₂.flush { h₀ with pending := pending } count).1 := by
    intro h₀ pending count hst
    have hino : t.Own label d ({ h₀ with pending := pending } : Handle Ino UInt8).ino :=
      Or.inr (Or.inr ⟨h₀, hst, rfl⟩)
    exact (Disk.agree_flush hd hino).1
  cases h with
  | served hfree => exact ⟨d₂, .served hfree, hd⟩
  | refused hfree => exact ⟨d₂, .refused hfree, hd⟩
  | stream hstage => exact ⟨d₂, .stream hstage, hd⟩
  | ackFirst hstage => exact ⟨d₂, .ackFirst hstage, hd⟩
  | ackNext hstage => exact ⟨d₂, .ackNext hstage, hd⟩
  | openPart hstage =>
      have hopen : Disk.Agree t.Names (t.Own label d) (openPart d label t).1
            (openPart d₂ label t).1 ∧ (openPart d₂ label t).2 = (openPart d label t).2 := by
        unfold openPart
        split
        · exact Disk.agree_openAppend hd (Or.inr rfl)
        · exact Disk.agree_openTruncate hd (Or.inr rfl)
      rw [← hopen.2]
      exact ⟨_, .openPart hstage, hopen.1⟩
  | @chunk handle bytes room flushed hstage =>
      have hchunk : (chunkStep d₂ t handle bytes room flushed).2 =
            (chunkStep d t handle bytes room flushed).2 ∧ Disk.Agree t.Names (t.Own label d)
              (chunkStep d t handle bytes room flushed).1
              (chunkStep d₂ t handle bytes room flushed).1 :=
        chunkStep_agree hd (by rw [hstage]; rfl)
      rw [← hchunk.1]
      exact ⟨_, .chunk hstage, hchunk.2⟩
  | eof hstage => exact ⟨_, .eof hstage, hflush (by rw [hstage]; rfl)⟩
  | broken hstage => exact ⟨d₂, .broken hstage, hd⟩
  | brokenOpen hstage =>
      refine ⟨_, .brokenOpen hstage, hflush ?_⟩
      rcases hstage with hstage | hstage
      · rw [hstage]
        rfl
      · rw [hstage]
        rfl
  | copyOpen hstage =>
      have hopen : Disk.Agree t.Names (t.Own label d) (d.openTruncate (.made label) t.part).1
            (d₂.openTruncate (.made label) t.part).1 ∧
          (d₂.openTruncate (.made label) t.part).2 = (d.openTruncate (.made label) t.part).2 :=
        Disk.agree_openTruncate hd (Or.inr rfl)
      rw [← hopen.2]
      exact ⟨_, .copyOpen hstage, hopen.1⟩
  | copied hstage => exact ⟨_, .copied hstage, hflush (by rw [hstage]; rfl)⟩
  | copyFails hstage => exact ⟨d₂, .copyFails hstage, hd⟩
  | copyFailsOpen hstage => exact ⟨_, .copyFailsOpen hstage, hflush (by rw [hstage]; rfl)⟩
  | finalize hstep =>
      obtain ⟨d₂', hstep₂, hagree⟩ := hstep.agree hd
      exact ⟨d₂', .finalize hstep₂, hagree⟩
  | trouble hstage => exact ⟨d₂, .trouble hstage, hd⟩
  | cancelPop hregistered => exact ⟨d₂, .cancelPop hregistered, hd⟩
  | @cancelReturn unlinked hpopped =>
      refine ⟨_, .cancelReturn hpopped, ?_⟩
      cases unlinked with
      | true => exact Disk.agree_unlink hd
      | false => exact hd

/-- **A move depends on what belongs to its download, and on nothing else.** -/
theorem advance_agree {d₂ : Folder} (hd : Disk.Agree t.Names (t.Own label d) d d₂)
    (h : advance d label t m = some (d', t')) :
    ∃ d₂', advance d₂ label t m = some (d₂', t') ∧ Disk.Agree t.Names (t.Own label d) d' d₂' := by
  obtain ⟨d₂', hmove, hagree⟩ := advances_agree hd (advances_of_eq h)
  exact ⟨d₂', hmove.advance_eq, hagree⟩

/-- **A download that has ended** does nothing to the files, but for the `.part` that is deleted
when it is cancelled; what becomes of its record does not depend on the files; and its status stays
as it is, unless the call of `serve` fails. -/
theorem advance_ended (hended : t.live = false) (h : advance d label t m = some (d', t')) :
    (d' = d ∨ (m = .cancelReturn true ∧ d' = d.unlink t.part)) ∧
      (∀ d₂, ∃ d₂', advance d₂ label t m = some (d₂', t')) ∧
      (t'.status = t.status ∨ (t.registered = true ∧ ∃ why, m = .refused why)) := by
  have hno : t.stage.active = true → False := fun hactive => by
    rw [live_of_active hactive] at hended
    cases hended
  cases advances_of_eq h with
  | served hfree =>
      exact ⟨Or.inl rfl, fun d₂ => ⟨d₂, (Advances.served hfree).advance_eq⟩, Or.inl rfl⟩
  | @refused why hfree =>
      refine ⟨Or.inl rfl, fun d₂ => ⟨d₂, (Advances.refused hfree).advance_eq⟩, ?_⟩
      show (t.fail why).status = t.status ∨ _
      unfold Transfer.fail
      split
      · rename_i hregistered
        exact Or.inr ⟨hregistered, why, rfl⟩
      · exact Or.inl rfl
  | stream hstage =>
      exact ⟨Or.inl rfl, fun d₂ => ⟨d₂, (Advances.stream hstage).advance_eq⟩, Or.inl rfl⟩
  | broken hstage =>
      exact ⟨Or.inl rfl, fun d₂ => ⟨d₂, (Advances.broken hstage).advance_eq⟩, Or.inl rfl⟩
  | cancelPop hregistered =>
      exact ⟨Or.inl rfl, fun d₂ => ⟨d₂, (Advances.cancelPop hregistered).advance_eq⟩, Or.inl rfl⟩
  | @cancelReturn unlinked hpopped =>
      refine ⟨?_, fun d₂ => ⟨_, (Advances.cancelReturn hpopped).advance_eq⟩, Or.inl rfl⟩
      cases unlinked with
      | true => exact Or.inr ⟨rfl, rfl⟩
      | false => exact Or.inl rfl
  | brokenOpen hstage =>
      rcases hstage with hstage | hstage
      all_goals exact (hno (by rw [hstage]; rfl)).elim
  | finalize hstep =>
      rcases hstep.stage with hstage | hstage | hstage | hstage
      all_goals exact (hno (by rw [hstage]; rfl)).elim
  | trouble hstage =>
      rcases hstage with hstage | hstage | hstage
      all_goals exact (hno (by rw [hstage]; rfl)).elim
  | ackFirst hstage | ackNext hstage | openPart hstage | chunk hstage | eof hstage | copyOpen hstage
  | copied hstage | copyFails hstage | copyFailsOpen hstage =>
      exact (hno (by rw [hstage]; rfl)).elim

end Advance

end Local

end NetPulse.Files
