import Mathlib.Combinatorics.SimpleGraph.Metric

/-
# NetPulse.Lib.PathSearch — a search down every branch, with the visited nodes of the branch

A search goes from a node into all its neighbours that it has not visited on the way to it, down to a
depth. Nothing is shared between branches, so a node may be met on many of them, and the search
follows exactly the paths of the graph. Two nodes at a distance have a path as long as the distance;
so the search meets what is within its depth (`met_empty_iff`), whatever cycles there are.
-/

namespace NetPulse.Lib

variable {α : Type*} (G : SimpleGraph α)

/-- The search from `a` meets `x`, at a depth of `k` links at most, without the nodes it has visited
above `a`. -/
def Met : ℕ → α → Set α → α → Prop
  | 0, a, _, x => x = a
  | k + 1, a, visited, x =>
      x = a ∨ ∃ b, G.Adj a b ∧ b ∉ insert a visited ∧ Met k b (insert a visited) x

variable {G} {k : ℕ} {a x : α} {visited : Set α}

theorem met_self (k : ℕ) (a : α) (visited : Set α) : Met G k a visited a := by
  cases k with
  | zero => exact rfl
  | succ k => exact Or.inl rfl

/-- A node that is met is not further away than the search is deep. -/
theorem walk_of_met (h : Met G k a visited x) : ∃ p : G.Walk a x, p.length ≤ k := by
  induction k generalizing a visited with
  | zero =>
      subst h
      exact ⟨.nil, le_refl 0⟩
  | succ k ih =>
      rcases h with rfl | ⟨b, hadj, -, hb⟩
      · exact ⟨.nil, Nat.zero_le _⟩
      · obtain ⟨p, hp⟩ := ih hb
        exact ⟨.cons hadj p, Nat.succ_le_succ hp⟩

/-- A path is followed to its end, when nothing on it behind the start was visited before. -/
theorem met_of_path {p : G.Walk a x} (hpath : p.IsPath) (hlen : p.length ≤ k)
    (hfree : ∀ y ∈ p.support.tail, y ∉ visited) : Met G k a visited x := by
  induction p generalizing k visited with
  | nil => exact met_self k _ visited
  | cons hadj q ih =>
      rename_i a b x
      cases k with
      | zero => exact absurd hlen (Nat.not_succ_le_zero _)
      | succ k =>
          rw [SimpleGraph.Walk.cons_isPath_iff] at hpath
          have htail : ∀ y ∈ q.support, y ∉ insert a visited := by
            intro y hy hin
            rcases hin with rfl | hin
            · exact hpath.2 hy
            · exact hfree y hy hin
          refine Or.inr ⟨b, hadj, htail b q.start_mem_support, ?_⟩
          apply ih hpath.1 (Nat.le_of_succ_le_succ hlen)
          intro y hy
          exact htail y (List.mem_of_mem_tail hy)

/-- **The search meets exactly what is within its depth.** -/
theorem met_empty_iff : Met G k a ∅ x ↔ G.edist a x ≤ k := by
  constructor
  · intro h
    obtain ⟨p, hp⟩ := walk_of_met h
    exact p.edist_le.trans (Nat.cast_le.mpr hp)
  · intro h
    classical
    have hfinite : G.edist a x ≠ ⊤ := ne_top_of_le_ne_top (ENat.natCast_ne_top k) h
    obtain ⟨p, hp⟩ := SimpleGraph.exists_walk_of_edist_ne_top hfinite
    have hlen : p.length ≤ k := Nat.cast_le.mp (hp ▸ h)
    have hshort : p.bypass.length ≤ k := p.length_bypass_le_length.trans hlen
    exact met_of_path p.bypass_isPath hshort fun y _ hin => hin.elim

end NetPulse.Lib
