import Mathlib.Data.List.MinMax

/-
# NetPulse.Lib.Loops — what a loop over a list does, from what one round does
-/

namespace NetPulse.Lib

variable {σ α γ : Type*} {f : σ → α → σ}

/-- A loop whose rounds each add what `Q` says of the item adds it for all items. -/
theorem foldl_adds {P : σ → Prop} {Q : α → Prop} (h : ∀ s a, P (f s a) ↔ P s ∨ Q a) (l : List α)
    (s : σ) : P (l.foldl f s) ↔ P s ∨ ∃ a ∈ l, Q a := by
  induction l generalizing s with
  | nil =>
      rw [or_iff_left]
      · exact Iff.rfl
      · rintro ⟨a, ha, -⟩
        exact List.not_mem_nil ha
  | cons a l ih => rw [List.foldl_cons, ih, h, List.exists_mem_cons_iff, or_assoc]

/-- A loop whose rounds leave a reading as it is leaves it as it is. -/
theorem foldl_reads {g : σ → γ} (h : ∀ s a, g (f s a) = g s) (l : List α) (s : σ) :
    g (l.foldl f s) = g s := by
  induction l generalizing s with
  | nil => rfl
  | cons a l ih => rw [List.foldl_cons, ih, h]

section Choice

variable {p : α → Prop} [DecidablePred p] {size : α → ℕ} {l : List α} {a : α}

/-- What a loop finds that looks for the smallest of those that qualify is one of them. -/
theorem mem_of_argmin_filter (h : (l.filter p).argmin size = some a) : a ∈ l ∧ p a := by
  have hmem := List.argmin_mem h
  rw [List.mem_filter] at hmem
  exact ⟨hmem.1, of_decide_eq_true hmem.2⟩

/-- Where one qualifies, the loop finds one. -/
theorem argmin_filter_ne_none (ha : a ∈ l) (hp : p a) : (l.filter p).argmin size ≠ none := by
  intro hnone
  have hempty := List.argmin_eq_none.mp hnone
  have hmem : a ∈ l.filter p := List.mem_filter.mpr ⟨ha, decide_eq_true hp⟩
  rw [hempty] at hmem
  exact List.not_mem_nil hmem

end Choice

end NetPulse.Lib
