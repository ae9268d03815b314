import Mathlib.Data.List.Lex
import Mathlib.Order.Lattice

/-
# NetPulse.Lib.PrefixOrder — prefixes in the order of lists

In the lexicographic order what begins with a list is one interval behind it: a prefix comes first
(`lt_of_prefix`), and what lies between a list and something that begins with it begins with it too
(`prefix_of_between`). `filter_lt` is how a sorted list is gone through by asking for what comes next.
-/

namespace NetPulse.Lib.PrefixOrder

section Prefixes

variable {α : Type*} [LinearOrder α]

/-- A prefix comes before what goes on. -/
theorem lt_of_prefix {p x : List α} (h : p <+: x) (hne : p ≠ x) : p < x := by
  obtain ⟨rest, rfl⟩ := h
  cases rest with
  | nil => exact absurd (List.append_nil p).symm hne
  | cons c rest =>
      induction p with
      | nil => exact List.nil_lt_cons c rest
      | cons a p ih =>
          rw [List.cons_append, List.cons_lt_cons_iff]
          refine .inr ⟨rfl, ih fun heq => ?_⟩
          exact absurd (congrArg List.length heq) (by simp)

/-- **What begins with a list is an interval.** -/
theorem prefix_of_between {p y z : List α} (hpy : ¬ y < p) (hyz : ¬ z < y) (h : p <+: z) :
    p <+: y := by
  induction p generalizing y z with
  | nil => exact List.nil_prefix
  | cons a p ih =>
      obtain ⟨rest, rfl⟩ := h
      cases y with
      | nil => exact absurd (List.nil_lt_cons a p) hpy
      | cons b y =>
          rw [List.cons_lt_cons_iff, not_or, not_and] at hpy
          rw [List.cons_append, List.cons_lt_cons_iff, not_or, not_and] at hyz
          -- neither head is before the other
          obtain rfl : a = b := le_antisymm (not_lt.mp hpy.1) (not_lt.mp hyz.1)
          exact (List.prefix_cons_inj a).mpr (ih (hpy.2 rfl) (hyz.2 rfl) (List.prefix_append p rest))

end Prefixes

/-- What comes behind the first element that is greater. -/
theorem filter_lt {α β : Type*} [Preorder α] [DecidableLT α] {key : β → α} {x : α} {n : β} {l rest : List β}
    (hl : l.Pairwise fun a b => key a < key b) (h : (l.filter fun a => x < key a) = n :: rest) :
    (l.filter fun a => key n < key a) = rest := by
  have hmem : n ∈ l.filter fun a => x < key a := h ▸ List.mem_cons_self
  have hx : x < key n := of_decide_eq_true (List.mem_filter.mp hmem).2
  have htwice : (l.filter fun a => key n < key a) =
      (l.filter fun a => x < key a).filter fun a => key n < key a := by
    rw [List.filter_filter]
    apply List.filter_congr
    intro a _
    by_cases ha : key n < key a
    · rw [decide_eq_true ha, decide_eq_true (lt_trans hx ha), Bool.and_self]
    · rw [decide_eq_false ha, Bool.false_and]
  have hsorted := List.pairwise_cons.mp (h ▸ hl.filter fun a => x < key a)
  rw [htwice, h, List.filter_cons_of_neg (by rw [decide_eq_true_iff]; exact lt_irrefl _),
    List.filter_eq_self]
  exact fun a ha => decide_eq_true (hsorted.1 a ha)

end NetPulse.Lib.PrefixOrder
