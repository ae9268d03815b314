import Mathlib.Logic.Function.Basic
import Mathlib.Data.List.Basic

/-
# NetPulse.Lib.Disk — names, inodes and open files

A directory gives an inode to a name and an inode holds bytes, so that a file that is open can lose
its name or get another one. An open file has a place for the next bytes, or none if it appends, and
the bytes that are still in its buffer.

`Frame` says what an operation leaves alone, and `Agree` that two disks are the same for somebody who
knows some names and inodes; each operation comes with its lemma about either.
-/

namespace NetPulse.Lib

/-! ## §1 Disks and handles -/

structure Disk (N I β : Type) where
  dir : N → Option I
  data : I → List β

structure Handle (I β : Type) where
  ino : I
  /-- Where the next bytes go; the end of the file, if nowhere in particular. -/
  pos : Option Nat
  /-- The buffer. -/
  pending : List β
  deriving DecidableEq

/-- Bytes over others from a position on; what is between the end and the position is filled. -/
def splice {β : Type} [Inhabited β] (old : List β) (pos : Nat) (new : List β) : List β :=
  if new.isEmpty then old
  else
    (old ++ List.replicate (pos - old.length) default).take pos ++ new ++
      old.drop (pos + new.length)

theorem splice_nil {β : Type} [Inhabited β] (old : List β) (pos : Nat) : splice old pos [] = old := rfl

theorem splice_end {β : Type} [Inhabited β] (old new : List β) :
    splice old old.length new = old ++ new := by
  unfold splice
  split
  · rename_i hempty
    rw [List.isEmpty_iff.mp hempty, List.append_nil]
  · rw [Nat.sub_self, List.replicate_zero, List.append_nil, List.take_length,
      List.drop_eq_nil_of_le (Nat.le_add_right _ _), List.append_nil]

namespace Disk

variable {N I β : Type}

section Definitions

variable [DecidableEq N] [DecidableEq I]

/-- What a name has in it. -/
def content (d : Disk N I β) (n : N) : Option (List β) := (d.dir n).map d.data

/-- `open(n, 'wb')`; a file that there is not gets the inode `fresh`. -/
def openTruncate (d : Disk N I β) (fresh : I) (n : N) : Disk N I β × Handle I β :=
  (⟨Function.update d.dir n (some ((d.dir n).getD fresh)),
    Function.update d.data ((d.dir n).getD fresh) []⟩, ⟨(d.dir n).getD fresh, some 0, []⟩)

/-- `open(n, 'ab')` -/
def openAppend (d : Disk N I β) (fresh : I) (n : N) : Disk N I β × Handle I β :=
  match d.dir n with
  | some i => (d, ⟨i, none, []⟩)
  | none => (⟨Function.update d.dir n (some fresh), Function.update d.data fresh []⟩,
      ⟨fresh, none, []⟩)

/-- The first bytes of the buffer go to the file. -/
def flush [Inhabited β] (d : Disk N I β) (h : Handle I β) (count : Nat) :
    Disk N I β × Handle I β :=
  match h.pos with
  | none => (⟨d.dir, Function.update d.data h.ino (d.data h.ino ++ h.pending.take count)⟩,
      ⟨h.ino, none, h.pending.drop count⟩)
  | some p => (⟨d.dir, Function.update d.data h.ino (splice (d.data h.ino) p (h.pending.take count))⟩,
      ⟨h.ino, some (p + (h.pending.take count).length), h.pending.drop count⟩)

/-- The whole buffer goes to the file. -/
def close [Inhabited β] (d : Disk N I β) (h : Handle I β) : Disk N I β :=
  (d.flush h h.pending.length).1

def unlink (d : Disk N I β) (n : N) : Disk N I β := ⟨Function.update d.dir n none, d.data⟩

/-- `os.replace` -/
def replace (d : Disk N I β) (source target : N) : Disk N I β :=
  ⟨Function.update (Function.update d.dir target (d.dir source)) source none, d.data⟩

end Definitions

/-! ## §2 What is left alone, and what is the same -/

/-- Other names and other inodes are as they were. -/
structure Frame (names : N → Prop) (inos : I → Prop) (d d' : Disk N I β) : Prop where
  dir : ∀ n, ¬ names n → d'.dir n = d.dir n
  data : ∀ i, ¬ inos i → d'.data i = d.data i

/-- The disks are the same on these names and inodes. -/
structure Agree (names : N → Prop) (inos : I → Prop) (d d' : Disk N I β) : Prop where
  dir : ∀ n, names n → d'.dir n = d.dir n
  data : ∀ i, inos i → d'.data i = d.data i

variable {names : N → Prop} {inos : I → Prop} {d d' : Disk N I β} {n : N} {fresh : I}
  {h : Handle I β} {count : Nat}

theorem Frame.refl (d : Disk N I β) : Frame names inos d d := ⟨fun _ _ => rfl, fun _ _ => rfl⟩

theorem Agree.content (hd : Agree names inos d d') (hn : names n)
    (hino : ∀ i, d.dir n = some i → inos i) : d'.content n = d.content n := by
  unfold Disk.content
  rw [hd.dir n hn]
  cases hdir : d.dir n with
  | none => rfl
  | some i => exact congrArg some (hd.data i (hino i hdir))

theorem Frame.trans {d'' : Disk N I β} (h₁ : Frame names inos d d') (h₂ : Frame names inos d' d'') :
    Frame names inos d d'' :=
  ⟨fun m hm => (h₂.dir m hm).trans (h₁.dir m hm), fun i hi => (h₂.data i hi).trans (h₁.data i hi)⟩

section Names

variable [DecidableEq N]

theorem frame_update_dir {v : Option I} (hn : names n) :
    Frame names inos d ⟨Function.update d.dir n v, d.data⟩ := by
  refine ⟨fun m hm => ?_, fun _ _ => rfl⟩
  show Function.update d.dir n v m = d.dir m
  rw [Function.update_of_ne]
  rintro rfl
  exact hm hn

theorem frame_unlink (hn : names n) : Frame names inos d (d.unlink n) := frame_update_dir hn

theorem frame_replace {target : N} (hn : names n) (htarget : names target) :
    Frame names inos d (d.replace n target) :=
  (frame_update_dir htarget).trans (frame_update_dir hn)

@[simp] theorem unlink_self : (d.unlink n).dir n = none := Function.update_self ..

@[simp] theorem replace_source {target : N} : (d.replace n target).dir n = none :=
  Function.update_self ..

theorem replace_target {target : N} (h : target ≠ n) : (d.replace n target).dir target = d.dir n :=
  (Function.update_of_ne h ..).trans (Function.update_self ..)

theorem agree_update_dir {v : Option I} (hd : Agree names inos d d') :
    Agree names inos ⟨Function.update d.dir n v, d.data⟩ ⟨Function.update d'.dir n v, d'.data⟩ := by
  refine ⟨fun m hm => ?_, hd.data⟩
  show Function.update d'.dir n v m = Function.update d.dir n v m
  by_cases heq : m = n
  · rw [heq, Function.update_self, Function.update_self]
  · rw [Function.update_of_ne heq, Function.update_of_ne heq, hd.dir m hm]

theorem agree_unlink (hd : Agree names inos d d') :
    Agree names inos (d.unlink n) (d'.unlink n) := agree_update_dir hd

theorem agree_replace {target : N} (hd : Agree names inos d d') (hn : names n) :
    Agree names inos (d.replace n target) (d'.replace n target) := by
  unfold replace
  rw [hd.dir n hn]
  exact agree_update_dir (agree_update_dir hd)

end Names

section Inodes

variable [DecidableEq I]

theorem frame_update_data {i : I} {v : List β} (hi : inos i) :
    Frame names inos d ⟨d.dir, Function.update d.data i v⟩ := by
  refine ⟨fun _ _ => rfl, fun j hj => ?_⟩
  show Function.update d.data i v j = d.data j
  rw [Function.update_of_ne]
  rintro rfl
  exact hj hi

theorem frame_flush [Inhabited β] (hino : inos h.ino) : Frame names inos d (d.flush h count).1 := by
  unfold flush
  cases h.pos with
  | none => exact frame_update_data hino
  | some p => exact frame_update_data hino

@[simp] theorem flush_ino [Inhabited β] : (d.flush h count).2.ino = h.ino := by
  unfold flush
  cases h.pos <;> rfl

@[simp] theorem flush_dir [Inhabited β] : (d.flush h count).1.dir = d.dir := by
  unfold flush
  cases h.pos <;> rfl

/-- An empty buffer has nothing to write. -/
theorem flush_empty [Inhabited β] (h₀ : h.pending = []) :
    (d.flush h count).1 = d ∧ (d.flush h count).2.pending = [] := by
  unfold flush
  rw [h₀, List.take_nil, List.drop_nil]
  cases h.pos with
  | none =>
      dsimp only
      rw [List.append_nil, Function.update_eq_self]
      exact ⟨rfl, rfl⟩
  | some p =>
      dsimp only
      rw [splice_nil, Function.update_eq_self]
      exact ⟨rfl, rfl⟩

/-- Nobody else has written to the file. -/
def InStep (d : Disk N I β) (h : Handle I β) : Prop :=
  h.pos = none ∨ h.pos = some (d.data h.ino).length

/-- A flush puts bytes at the end. -/
theorem flush_inStep [Inhabited β] (hstep : InStep d h) (count : Nat) :
    (d.flush h count).1.data h.ino = d.data h.ino ++ h.pending.take count ∧
      (d.flush h count).2.pending = h.pending.drop count ∧
      InStep (d.flush h count).1 (d.flush h count).2 := by
  unfold flush
  rcases hstep with hnone | hsome
  · rw [hnone]
    exact ⟨Function.update_self .., rfl, Or.inl rfl⟩
  · rw [hsome]
    have hdata : Function.update d.data h.ino (splice (d.data h.ino) (d.data h.ino).length
        (h.pending.take count)) h.ino = d.data h.ino ++ h.pending.take count := by
      rw [Function.update_self, splice_end]
    refine ⟨hdata, rfl, Or.inr ?_⟩
    show some _ = some (Function.update d.data h.ino _ h.ino).length
    rw [hdata, List.length_append]

theorem agree_update_data {i : I} {v : List β} (hd : Agree names inos d d') :
    Agree names inos ⟨d.dir, Function.update d.data i v⟩ ⟨d'.dir, Function.update d'.data i v⟩ := by
  refine ⟨hd.dir, fun j hj => ?_⟩
  show Function.update d'.data i v j = Function.update d.data i v j
  by_cases heq : j = i
  · rw [heq, Function.update_self, Function.update_self]
  · rw [Function.update_of_ne heq, Function.update_of_ne heq, hd.data j hj]

theorem agree_flush [Inhabited β] (hd : Agree names inos d d') (hino : inos h.ino) :
    Agree names inos (d.flush h count).1 (d'.flush h count).1 ∧
      (d'.flush h count).2 = (d.flush h count).2 := by
  unfold flush
  rw [hd.data h.ino hino]
  cases h.pos with
  | none => exact ⟨agree_update_data hd, rfl⟩
  | some p => exact ⟨agree_update_data hd, rfl⟩

end Inodes

section Opening

variable [DecidableEq N] [DecidableEq I]

@[simp] theorem openTruncate_data :
    (d.openTruncate fresh n).1.data (d.openTruncate fresh n).2.ino = [] := Function.update_self ..

theorem frame_openTruncate (hn : names n) (hfresh : inos fresh)
    (hino : ∀ i, d.dir n = some i → inos i) : Frame names inos d (d.openTruncate fresh n).1 := by
  have hi : inos ((d.dir n).getD fresh) := by
    cases hdir : d.dir n with
    | none => exact hfresh
    | some i => exact hino i hdir
  exact (frame_update_dir hn).trans (frame_update_data hi)

theorem frame_openAppend (hn : names n) (hfresh : inos fresh) :
    Frame names inos d (d.openAppend fresh n).1 := by
  unfold openAppend
  cases d.dir n with
  | some i => exact Frame.refl d
  | none => exact (frame_update_dir hn).trans (frame_update_data hfresh)

theorem agree_openTruncate (hd : Agree names inos d d') (hn : names n) :
    Agree names inos (d.openTruncate fresh n).1 (d'.openTruncate fresh n).1 ∧
      (d'.openTruncate fresh n).2 = (d.openTruncate fresh n).2 := by
  unfold openTruncate
  rw [hd.dir n hn]
  exact ⟨agree_update_data (agree_update_dir hd), rfl⟩

theorem agree_openAppend (hd : Agree names inos d d') (hn : names n) :
    Agree names inos (d.openAppend fresh n).1 (d'.openAppend fresh n).1 ∧
      (d'.openAppend fresh n).2 = (d.openAppend fresh n).2 := by
  unfold openAppend
  rw [hd.dir n hn]
  cases d.dir n with
  | some i => exact ⟨hd, rfl⟩
  | none => exact ⟨agree_update_data (agree_update_dir hd), rfl⟩

end Opening

end Disk

end NetPulse.Lib
