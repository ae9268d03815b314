import Mathlib.Data.List.Nodup

/-
# NetPulse.Lib.OnePass — marks that spread along pointers, in one pass over a list

Each element may point at another one. A mark spreads against the pointers, through elements that
are alive: `Reached` is where it gets to. `pass` gives every element of a list one turn, in which it
takes the mark of what it points at. One pass need not be enough: an element whose turn is before
that of what it points at does not see the mark. `pass_complete_iff` says that this is all.
-/

namespace NetPulse.Lib.OnePass

variable {K : Type*} (next : K → Option K) (live : K → Prop)

/-- Marked at the start, or alive and pointing at something that is reached. -/
inductive Reached (S : K → Prop) : K → Prop where
  | start {k : K} : S k → Reached S k
  | step {k v : K} : live k → next k = some v → Reached S v → Reached S k

/-- The turn of one element. -/
def turn (S : K → Prop) (k : K) : K → Prop := fun x =>
  S x ∨ x = k ∧ live k ∧ ∃ v, next k = some v ∧ S v

def pass (ks : List K) (S : K → Prop) : K → Prop := ks.foldl (turn next live) S

variable {next live} {S : K → Prop} {ks : List K} {k v x : K}

theorem pass_of_start (h : S x) : pass next live ks S x := by
  induction ks generalizing S with
  | nil => exact h
  | cons k rest ih => exact ih (Or.inl h)

/-- Who has no turn after this gets no mark any more. -/
theorem start_of_pass (hx : x ∉ ks) (h : pass next live ks S x) : S x := by
  induction ks generalizing S with
  | nil => exact h
  | cons k rest ih =>
      rw [List.mem_cons, not_or] at hx
      rcases ih hx.2 h with hs | ⟨heq, -⟩
      · exact hs
      · exact absurd heq hx.1

theorem pass_append (ks ks' : List K) (S : K → Prop) :
    pass next live (ks ++ ks') S = pass next live ks' (pass next live ks S) :=
  List.foldl_append

/-- An element with one turn gets the mark in that turn. -/
theorem pass_at_turn {before after : List K} (hbefore : k ∉ before) (hafter : k ∉ after) :
    pass next live (before ++ k :: after) S k ↔
      S k ∨ live k ∧ ∃ v, next k = some v ∧ pass next live before S v := by
  rw [pass_append]
  constructor
  · intro h
    rcases start_of_pass hafter h with hs | ⟨-, hlive, hv⟩
    · exact Or.inl (start_of_pass hbefore hs)
    · exact Or.inr ⟨hlive, hv⟩
  · rintro (hs | ⟨hlive, hv⟩)
    · have hmark : pass next live before S k := pass_of_start hs
      exact pass_of_start hmark
    · have hturn : turn next live (pass next live before S) k k := Or.inr ⟨rfl, hlive, hv⟩
      have hrest : pass next live after (turn next live (pass next live before S) k) k :=
        pass_of_start hturn
      exact hrest

/-- A mark has come from somewhere. -/
theorem pass_cases (h : pass next live ks S x) :
    S x ∨ live x ∧ ∃ v, next x = some v ∧ pass next live ks S v := by
  induction ks generalizing S with
  | nil => exact Or.inl h
  | cons k rest ih =>
      rcases ih h with (hs | ⟨rfl, hlive, v, hv, hs⟩) | hlater
      · exact Or.inl hs
      · exact Or.inr ⟨hlive, v, hv, pass_of_start hs⟩
      · exact Or.inr hlater

theorem reached_of_pass_of {T : K → Prop} (hT : ∀ y, T y → Reached next live S y)
    (h : pass next live ks T x) : Reached next live S x := by
  induction ks generalizing T with
  | nil => exact hT x h
  | cons k rest ih =>
      refine ih ?_ h
      rintro y (hy | ⟨rfl, hlive, v, hv, hs⟩)
      · exact hT y hy
      · exact .step hlive hv (hT v hs)

theorem reached_of_pass (h : pass next live ks S x) : Reached next live S x :=
  reached_of_pass_of (fun _ => .start) h

theorem mem_of_sublist_pair {before after : List K} (hafter : k ∉ after)
    (h : [v, k].Sublist (before ++ k :: after)) : v ∈ before := by
  obtain ⟨l, r, hsplit, hl, hr⟩ := List.sublist_append_iff.mp h
  rcases l with _ | ⟨w, l⟩
  · -- both behind: then `k` would stand behind itself
    rw [List.nil_append] at hsplit
    rw [← hsplit] at hr
    cases hr with
    | cons _ h => exact absurd (h.subset (List.mem_cons_of_mem v List.mem_cons_self)) hafter
    | cons_cons _ h => exact absurd (h.subset List.mem_cons_self) hafter
  · rw [List.cons_append, List.cons.injEq] at hsplit
    rw [hsplit.1]
    exact hl.subset List.mem_cons_self

/-- **When one pass is enough.** Everything that the mark reaches is marked exactly when, between
elements that are reached and not marked at the start, what is pointed at has its turn first. -/
theorem pass_complete_iff (next : K → Option K) (S : K → Prop) (hnodup : ks.Nodup)
    (hmem : ∀ k, live k → k ∈ ks) (hlive : ∀ k, live k → ¬ S k) :
    (∀ k, Reached next live S k → pass next live ks S k) ↔
      ∀ k v, live k → next k = some v → live v → Reached next live S v → [v, k].Sublist ks := by
  have hsplit : ∀ {k}, live k →
      ∃ before after, ks = before ++ k :: after ∧ k ∉ before ∧ k ∉ after := by
    intro k hk
    obtain ⟨before, after, heq⟩ := List.append_of_mem (hmem k hk)
    rw [heq, List.nodup_middle, List.nodup_cons, List.mem_append, not_or] at hnodup
    exact ⟨before, after, heq, hnodup.1⟩
  constructor
  · intro h k v hk hv hvlive hreached
    obtain ⟨before, after, rfl, hbefore, hafter⟩ := hsplit hk
    rcases (pass_at_turn hbefore hafter).mp (h k (.step hk hv hreached)) with hs | ⟨-, w, hw, hpass⟩
    · exact absurd hs (hlive k hk)
    · obtain rfl : v = w := Option.some.inj (hv.symm.trans hw)
      have hmark : v ∈ before := by
        by_contra hno
        exact hlive v hvlive (start_of_pass hno hpass)
      exact (List.singleton_sublist.mpr hmark).append
        (List.singleton_sublist.mpr List.mem_cons_self)
  · intro h k hreached
    induction hreached with
    | start hs => exact pass_of_start hs
    | step hk hv hreached ih =>
        rename_i k v
        obtain ⟨before, after, rfl, hbefore, hafter⟩ := hsplit hk
        refine (pass_at_turn hbefore hafter).mpr (Or.inr ⟨hk, v, hv, ?_⟩)
        rcases pass_cases ih with hs | ⟨hvlive, -⟩
        · exact pass_of_start hs
        · -- the turn of `v` is over, and it got its mark before
          have hv' := mem_of_sublist_pair hafter (h k v hk hv hvlive hreached)
          have hrest : v ∉ k :: after := fun hin =>
            (List.nodup_append.mp hnodup).2.2 v hv' v hin rfl
          rw [pass_append] at ih
          exact start_of_pass hrest ih

end NetPulse.Lib.OnePass
