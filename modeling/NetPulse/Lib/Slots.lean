import Mathlib.Data.Finset.Card
import Mathlib.Logic.Function.Basic

/-
# NetPulse.Lib.Slots — a counting semaphore and those who hold it

`Balanced slots free holds`: the free slots and the holders together are all the slots. Who takes a
slot while one is free, and who gives one back that he holds, keeps the balance; who gives a slot back
that he does not hold makes one too many.
-/

namespace NetPulse.Lib

variable {ι : Type*} [DecidableEq ι]

/-- Finitely many hold a slot each, and the others are free. -/
def Balanced (slots free : Nat) (holds : ι → Bool) : Prop :=
  ∃ holders : Finset ι, (∀ i, i ∈ holders ↔ holds i = true) ∧ free + holders.card = slots

namespace Balanced

variable {slots free : Nat} {holds holds' : ι → Bool} {i : ι}

omit [DecidableEq ι] in
theorem all_free : Balanced slots slots fun _ : ι => false :=
  ⟨∅, fun i => iff_of_false (Finset.notMem_empty i) Bool.false_ne_true, rfl⟩

omit [DecidableEq ι] in
theorem congr (h : Balanced slots free holds) (hsame : ∀ i, holds' i = holds i) :
    Balanced slots free holds' := by
  rw [funext hsame]
  exact h

/-- Somebody takes a slot. -/
theorem take (h : Balanced slots free holds) (hfree : free ≠ 0) (hi : holds i = false)
    (hi' : holds' i = true) (hothers : ∀ j, j ≠ i → holds' j = holds j) :
    Balanced slots (free - 1) holds' := by
  obtain ⟨holders, hholders, hsum⟩ := h
  have hnew : i ∉ holders := fun hmem => by
    rw [(hholders i).mp hmem] at hi
    cases hi
  refine ⟨insert i holders, fun j => ?_, ?_⟩
  · rw [Finset.mem_insert]
    by_cases hj : j = i
    · rw [hj]
      exact iff_of_true (Or.inl rfl) hi'
    · rw [hothers j hj, ← hholders j]
      exact or_iff_right hj
  · rw [Finset.card_insert_of_notMem hnew]
    omega

/-- Somebody gives his slot back. -/
theorem give (h : Balanced slots free holds) (hi : holds i = true) (hi' : holds' i = false)
    (hothers : ∀ j, j ≠ i → holds' j = holds j) : Balanced slots (free + 1) holds' := by
  obtain ⟨holders, hholders, hsum⟩ := h
  have hmem : i ∈ holders := (hholders i).mpr hi
  refine ⟨holders.erase i, fun j => ?_, ?_⟩
  · rw [Finset.mem_erase]
    by_cases hj : j = i
    · rw [hj, hi']
      exact iff_of_false (fun h => h.1 rfl) Bool.false_ne_true
    · rw [hothers j hj, ← hholders j]
      exact and_iff_right hj
  · have hcard := Finset.card_erase_add_one hmem
    omega

omit [DecidableEq ι] in
/-- As long as somebody holds a slot, not all are free. -/
theorem free_lt (h : Balanced slots free holds) (hi : holds i = true) : free < slots := by
  obtain ⟨holders, hholders, hsum⟩ := h
  have hpos : 0 < holders.card := Finset.card_pos.mpr ⟨i, (hholders i).mpr hi⟩
  omega

/-- No more hold a slot than there are. -/
theorem length_le (h : Balanced slots free holds) {l : List ι} (hl : l.Nodup)
    (hholds : ∀ i ∈ l, holds i = true) : l.length ≤ slots := by
  obtain ⟨holders, hholders, hsum⟩ := h
  have hsub : l.toFinset ⊆ holders := fun i hi =>
    (hholders i).mpr (hholds i (List.mem_toFinset.mp hi))
  have hcard := Finset.card_le_card hsub
  rw [List.toFinset_card_of_nodup hl] at hcard
  omega

end Balanced

end NetPulse.Lib
