import Mathlib.Logic.Relation

/-
# NetPulse.Lib.WaitFor — circles in a wait-for relation

A party that waits, through any number of others, for itself waits for good. The rules below say which
changes of the relation can close such a circle: a new wait for a party that waits for nothing closes
none, and a new wait of `u` for `v` closes one exactly when `v` already waits for `u`.
-/

namespace NetPulse.Lib

open Relation

variable {α : Type*} {R R' : α → α → Prop}

/-- `x` waits for itself. -/
def Circular (R : α → α → Prop) (x : α) : Prop := TransGen R x x

/-- A party that waits for nothing. -/
def Idle (R : α → α → Prop) (x : α) : Prop := ∀ y, ¬ R x y

theorem Circular.mono {x : α} (h : Circular R' x) (hsub : ∀ a b, R' a b → R a b) : Circular R x :=
  TransGen.mono hsub _ _ h

theorem Circular.not_idle {x : α} (h : Circular R x) : ¬ Idle R x := by
  intro hidle
  obtain ⟨y, hy, _⟩ := TransGen.head'_iff.mp h
  exact hidle y hy

/-- A way to a party that waits on uses no wait for an idle one. -/
theorem transGen_of_idle (hsub : ∀ a b, R' a b → R a b ∨ Idle R' b) {x y : α}
    (h : TransGen R' x y) (hy : ¬ Idle R' y) : TransGen R x y := by
  induction h with
  | single hxy =>
      rcases hsub _ _ hxy with hR | hidle
      · exact TransGen.single hR
      · exact absurd hidle hy
  | @tail b c _ hbc ih =>
      have hb : ¬ Idle R' b := fun hidle => hidle c hbc
      rcases hsub _ _ hbc with hR | hidle
      · exact (ih hb).tail hR
      · exact absurd hidle hy

/-- New waits for idle parties close no circle. -/
theorem Circular.of_idle (hsub : ∀ a b, R' a b → R a b ∨ Idle R' b) {x : α}
    (h : Circular R' x) : Circular R x :=
  transGen_of_idle hsub h h.not_idle

/-- A way in the relation with one wait more is a way without it, or leads to it and on from it. -/
theorem transGen_of_edge {u v : α} (hsub : ∀ a b, R' a b → R a b ∨ a = u ∧ b = v) {x y : α}
    (h : TransGen R' x y) : TransGen R x y ∨ ReflTransGen R x u ∧ ReflTransGen R v y := by
  induction h with
  | single hxy =>
      rcases hsub _ _ hxy with hR | ⟨rfl, rfl⟩
      · exact Or.inl (TransGen.single hR)
      · exact Or.inr ⟨ReflTransGen.refl, ReflTransGen.refl⟩
  | tail _ hbc ih =>
      rcases hsub _ _ hbc with hR | ⟨rfl, rfl⟩
      · rcases ih with hold | ⟨hto, hfrom⟩
        · exact Or.inl (hold.tail hR)
        · exact Or.inr ⟨hto, hfrom.tail hR⟩
      · rcases ih with hold | ⟨hto, _⟩
        · exact Or.inr ⟨hold.to_reflTransGen, ReflTransGen.refl⟩
        · exact Or.inr ⟨hto, ReflTransGen.refl⟩

/-- **One more wait.** A wait of `u` for `v` closes a circle only if `v` waits for `u`. -/
theorem Circular.of_edge {u v : α} (hsub : ∀ a b, R' a b → R a b ∨ a = u ∧ b = v) {x : α}
    (h : Circular R' x) : Circular R x ∨ ReflTransGen R v u := by
  rcases transGen_of_edge hsub h with hold | ⟨hto, hfrom⟩
  · exact Or.inl hold
  · exact Or.inr (hfrom.trans hto)

/-- A way to `u` needs none of the waits of `u` itself. -/
theorem reflTransGen_to {u v : α} (hsub : ∀ a b, a ≠ u → R a b → R' a b)
    (h : ReflTransGen R v u) : ReflTransGen R' v u := by
  induction h using ReflTransGen.head_induction_on with
  | refl => exact ReflTransGen.refl
  | @head a b hab _ ih =>
      by_cases ha : a = u
      · subst ha
        exact ReflTransGen.refl
      · exact ih.head (hsub a b ha hab)

/-- And then it does. -/
theorem circular_of_edge {u v : α} (huv : R u v) (hvu : ReflTransGen R v u) : Circular R v :=
  TransGen.tail' hvu huv

end NetPulse.Lib
