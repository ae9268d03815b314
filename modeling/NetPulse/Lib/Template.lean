import Mathlib.Data.List.Basic
import Mathlib.Data.List.TakeWhile

/-
# NetPulse.Lib.Template — texts with named holes, filled in one pass

A hole of a template is a name between an opening and a closing mark. `pieces` reads a text from the
left: where a hole begins it is one piece and the reading goes on behind it, anything else is a
character by itself. `fill` puts a text into every hole; what it puts there is not read again, so a
text that looks like a hole stays what it is.

Characters are of any type. A name is not empty, and the marks may be any two characters.
-/

namespace NetPulse.Lib.Template

variable {α β : Type*}

/-- A part of a template: one character of it, or a hole. -/
inductive Piece (α : Type*) where
  | char (c : α)
  | hole (name : List α)

/-- The marks of a hole and the characters of its name. -/
structure Marks (α : Type*) where
  left : α
  right : α
  nameChar : α → Bool

variable [DecidableEq α] (m : Marks α)

/-! ## §1 Reading -/

/-- The name of the hole that a text begins with. -/
def holeAt : List α → Option (List α)
  | [] => none
  | c :: rest =>
      let name := rest.takeWhile m.nameChar
      if c = m.left ∧ name ≠ [] ∧ (rest.dropWhile m.nameChar).head? = some m.right then some name
      else none

/-- The pieces behind the next `skip` characters, which belong to the hole before them. -/
def piecesFrom : Nat → List α → List (Piece α)
  | _, [] => []
  | skip + 1, _ :: rest => piecesFrom skip rest
  | 0, c :: rest =>
      match holeAt m (c :: rest) with
      | some name => .hole name :: piecesFrom (name.length + 1) rest
      | none => .char c :: piecesFrom 0 rest

def pieces (s : List α) : List (Piece α) := piecesFrom m 0 s

/-- A hole as it is written. -/
def written (name : List α) : List α := m.left :: (name ++ [m.right])

def Piece.name? : Piece α → Option (List α)
  | .char _ => none
  | .hole name => some name

/-- The names of the holes, in order. -/
def holes (ps : List (Piece α)) : List (List α) := ps.filterMap Piece.name?

def Piece.put (value : List α → List α) : Piece α → List α
  | .char c => [c]
  | .hole name => value name

/-- Every hole with its text in it. -/
def fill (value : List α → List α) (ps : List (Piece α)) : List α := ps.flatMap (Piece.put value)

/-! ## §2 What the pieces are -/

/-- A hole stands at the beginning, as it is written. -/
theorem holeAt_eq_some {s name : List α} (h : holeAt m s = some name) :
    name ≠ [] ∧ (∀ c ∈ name, m.nameChar c = true) ∧ ∃ rest, s = written m name ++ rest := by
  rcases s with _ | ⟨c, rest⟩
  · simp [holeAt] at h
  · simp only [holeAt, Option.ite_none_right_eq_some, Option.some.injEq] at h
    obtain ⟨⟨rfl, hname, hright⟩, rfl⟩ := h
    refine ⟨hname, fun c hc => List.mem_takeWhile_imp hc, ?_⟩
    obtain ⟨tail, htail⟩ := List.head?_eq_some_iff.mp hright
    refine ⟨tail, ?_⟩
    show m.left :: rest = m.left :: (rest.takeWhile m.nameChar ++ [m.right]) ++ tail
    rw [List.cons_append, List.append_assoc, List.singleton_append, ← htail,
      List.takeWhile_append_dropWhile]

theorem piecesFrom_eq_drop (skip : Nat) (s : List α) :
    piecesFrom m skip s = pieces m (s.drop skip) := by
  induction s generalizing skip with
  | nil => rcases skip with _ | skip <;> simp [pieces, piecesFrom]
  | cons c rest ih =>
      rcases skip with _ | skip
      · rfl
      · rw [piecesFrom, ih, List.drop_succ_cons]

/-- **Nothing is lost.** With its own marks in every hole a template is the text it was. -/
theorem fill_written (s : List α) : fill (written m) (pieces m s) = s := by
  -- the length of the text, because a hole is read at one go
  induction hn : s.length using Nat.strong_induction_on generalizing s with
  | h n ih =>
    rcases s with _ | ⟨c, rest⟩
    · rfl
    · subst hn
      show fill (written m) (piecesFrom m 0 (c :: rest)) = _
      rw [piecesFrom]
      rcases hat : holeAt m (c :: rest) with _ | name
      · show c :: fill (written m) (piecesFrom m 0 rest) = _
        rw [piecesFrom_eq_drop, List.drop_zero, ih _ (by simp) rest rfl]
      · obtain ⟨-, -, tail, htail⟩ := holeAt_eq_some m hat
        obtain ⟨rfl, rfl⟩ : c = m.left ∧ rest = name ++ m.right :: tail := by
          simpa [written] using htail
        show written m name ++ fill (written m) (piecesFrom m (name.length + 1) _) = _
        have hdrop : (name ++ m.right :: tail).drop (name.length + 1) = tail := by simp
        rw [piecesFrom_eq_drop, hdrop, ih _ (by simp; omega) tail rfl, htail]

omit [DecidableEq α] in
/-- Only what is put into the holes of the template counts. -/
theorem fill_congr {ps : List (Piece α)} {f g : List α → List α}
    (h : ∀ name ∈ holes ps, f name = g name) : fill f ps = fill g ps := by
  refine List.flatMap_congr fun p hp => ?_
  rcases p with c | name
  · rfl
  · exact h name (List.mem_filterMap.mpr ⟨_, hp, rfl⟩)

end NetPulse.Lib.Template
