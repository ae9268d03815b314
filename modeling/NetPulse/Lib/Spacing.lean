import Mathlib.Algebra.Order.Field.Basic
import Mathlib.Algebra.Order.Ring.Rat
import Mathlib.Tactic.Linarith
import Mathlib.Tactic.Ring

/-
# NetPulse.Lib.Spacing — times that keep a distance

Of times that are at least `d` apart, an interval of length `n * d` that is open at its end has at
most `n`. The times are listed with the latest first, as a log has them.
-/

namespace NetPulse.Lib

/-- Each of the times is at least `d` behind all that are listed after it. -/
def Spaced (d : ℚ) (times : List ℚ) : Prop :=
  times.Pairwise fun later earlier => earlier + d ≤ later

namespace Spaced

variable {d start t : ℚ} {times : List ℚ}

theorem nil (d : ℚ) : Spaced d [] := List.Pairwise.nil

/-- A new time has to keep the distance to the latest only. -/
theorem cons (hd : 0 ≤ d) (h : Spaced d times) (hhead : ∀ last ∈ times.head?, last + d ≤ t) :
    Spaced d (t :: times) := by
  refine List.pairwise_cons.mpr ⟨fun e he => ?_, h⟩
  rcases times with _ | ⟨last, rest⟩
  · simp at he
  · have hlast : last + d ≤ t := hhead last rfl
    rcases List.mem_cons.mp he with rfl | he
    · exact hlast
    · have hrest := (List.pairwise_cons.mp h).1 e he
      linarith

/-- The latest of several times is far from the start. -/
theorem add_mul_le (h : Spaced d (t :: times)) (hstart : ∀ e ∈ t :: times, start ≤ e) :
    start + d * times.length ≤ t := by
  induction times generalizing t with
  | nil => simpa using hstart t List.mem_cons_self
  | cons e rest ih =>
      have hgap := (List.pairwise_cons.mp h).1 e List.mem_cons_self
      have hrest := ih (List.pairwise_cons.mp h).2 fun x hx =>
        hstart x (List.mem_cons_of_mem t hx)
      have hmul : d * ((e :: rest).length : ℚ) = d * rest.length + d := by
        push_cast [List.length_cons]
        ring
      rw [hmul]
      linarith

/-- **At most `n` of them** are in an interval of length `n * d`. -/
theorem countP_le (hd : 0 < d) (h : Spaced d times) (start : ℚ) (n : ℕ) :
    times.countP (fun t => decide (start ≤ t ∧ t < start + n * d)) ≤ n := by
  rw [List.countP_eq_length_filter]
  have hsub : Spaced d (times.filter fun t => decide (start ≤ t ∧ t < start + n * d)) :=
    h.sublist List.filter_sublist
  have hin : ∀ t ∈ times.filter (fun t => decide (start ≤ t ∧ t < start + n * d)),
      start ≤ t ∧ t < start + n * d := by
    intro t ht
    simpa using (List.mem_filter.mp ht).2
  rcases hlist : times.filter (fun t => decide (start ≤ t ∧ t < start + n * d)) with _ | ⟨t, rest⟩
  · exact Nat.zero_le n
  · rw [hlist] at hsub hin
    have hfar := hsub.add_mul_le fun e he => (hin e he).1
    have hnear := (hin t List.mem_cons_self).2
    have hlt : d * (rest.length : ℚ) < d * n := by linarith
    have hcount : (rest.length : ℚ) < n := lt_of_mul_lt_mul_left hlt hd.le
    rw [List.length_cons]
    exact Nat.succ_le_of_lt (by exact_mod_cast hcount)

end Spaced

end NetPulse.Lib
