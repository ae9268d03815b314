import Mathlib.Data.List.Infix

/-
# NetPulse.Lib.FirstMatch — the first place of a list where something matches

A place is a suffix: what is left of the list from there on. `firstMatch f` tries `f` at one place
after the other, as the search for a pattern does, and gives the place with what was found there.
-/

namespace NetPulse.Lib

variable {α β : Type*}

/-- The first place where `f` finds something. -/
def firstMatch (f : List α → Option β) : List α → Option (List α × β)
  | [] => (f []).map fun b => ([], b)
  | a :: rest =>
      match f (a :: rest) with
      | some b => some (a :: rest, b)
      | none => firstMatch f rest

namespace FirstMatch

variable {f : List α → Option β} {text place : List α} {b : β}

/-- There is no match exactly if there is none at any place. -/
theorem eq_none_iff : firstMatch f text = none ↔ ∀ place, place <:+ text → f place = none := by
  induction text with
  | nil =>
      rw [firstMatch, Option.map_eq_none_iff]
      constructor
      · intro h place hplace
        rw [List.suffix_nil.mp hplace]
        exact h
      · intro h
        exact h [] (List.suffix_refl [])
  | cons a rest ih =>
      rw [firstMatch]
      rcases hf : f (a :: rest) with _ | b
      · rw [ih]
        constructor
        · intro h place hplace
          rcases List.suffix_cons_iff.mp hplace with rfl | hplace
          · exact hf
          · exact h place hplace
        · intro h place hplace
          exact h place (hplace.trans (List.suffix_cons a rest))
      · refine iff_of_false (Option.some_ne_none _) fun h => ?_
        rw [h _ (List.suffix_refl _)] at hf
        cases hf

/-- What is found is found at a place, and at no place before. -/
theorem of_eq_some (h : firstMatch f text = some (place, b)) :
    place <:+ text ∧ f place = some b ∧
      ∀ other, other <:+ text → f other ≠ none → other.length ≤ place.length := by
  induction text with
  | nil =>
      obtain ⟨b', hb', heq⟩ := Option.map_eq_some_iff.mp h
      obtain ⟨rfl, rfl⟩ : [] = place ∧ b' = b := by simpa using heq
      refine ⟨List.suffix_refl [], hb', fun other hother _ => ?_⟩
      exact hother.length_le
  | cons a rest ih =>
      rw [firstMatch] at h
      rcases hf : f (a :: rest) with _ | b'
      · rw [hf] at h
        obtain ⟨hplace, hfound, hfirst⟩ := ih h
        refine ⟨hplace.trans (List.suffix_cons a rest), hfound, fun other hother hmatch => ?_⟩
        rcases List.suffix_cons_iff.mp hother with rfl | hother
        · exact absurd hf hmatch
        · exact hfirst other hother hmatch
      · rw [hf] at h
        obtain ⟨rfl, rfl⟩ : a :: rest = place ∧ b' = b := by simpa using h
        exact ⟨List.suffix_refl _, hf, fun other hother _ => hother.length_le⟩

end FirstMatch

end NetPulse.Lib
