import Mathlib.Logic.Function.Basic
import Mathlib.Data.List.Nodup

/-
# NetPulse.Lib.Custody — things that are in a pool, in somebody's hands, or gone

A pool is a list, and each holder has one thing or none. `Custody place pool held gone known` says
that `place` gives every thing that is known the one place where it is. `Custody.move` is the rule for
a thing that changes its place; taking the head of the pool, giving back, making and disposing are
instances of it.
-/

namespace NetPulse.Lib

/-- Where a thing is. -/
inductive Place (β : Type) where
  | pooled
  | hands (b : β)
  | gone

variable {α β : Type}

/-- Every known thing is in the pool once, or in one pair of hands, or gone. -/
structure Custody (place : α → Option (Place β)) (pool : List α) (held : β → Option α)
    (gone known : α → Prop) : Prop where
  nodup : pool.Nodup
  pooled : ∀ a, a ∈ pool ↔ place a = some .pooled
  inHands : ∀ b a, held b = some a ↔ place a = some (.hands b)
  past : ∀ a, gone a ↔ place a = some .gone
  somewhere : ∀ a, known a ↔ place a ≠ none

namespace Custody

variable {place : α → Option (Place β)} {pool rest pool' : List α} {held held' : β → Option α}
  {gone known gone' known' : α → Prop} {a : α} {b : β}

theorem congr (h : Custody place pool held gone known) (hgone : ∀ a, gone' a ↔ gone a)
    (hknown : ∀ a, known' a ↔ known a) : Custody place pool held gone' known' := by
  obtain rfl : gone' = gone := funext fun a => propext (hgone a)
  obtain rfl : known' = known := funext fun a => propext (hknown a)
  exact h

theorem empty : Custody (fun _ => none) ([] : List α) (fun _ : β => none) (fun _ => False)
    (fun _ => False) where
  nodup := List.nodup_nil
  pooled _ := iff_of_false List.not_mem_nil (fun h => by cases h)
  inHands _ _ := iff_of_false (fun h => by cases h) (fun h => by cases h)
  past _ := iff_of_false id (fun h => by cases h)
  somewhere _ := iff_of_false id (fun h => h rfl)

/-- What is known has one place. -/
theorem cases (h : Custody place pool held gone known) (ha : known a) :
    a ∈ pool ∨ (∃ b, held b = some a) ∨ gone a := by
  cases hplace : place a with
  | none => exact absurd hplace ((h.somewhere a).mp ha)
  | some p =>
      cases p with
      | pooled => exact Or.inl ((h.pooled a).mpr hplace)
      | hands b => exact Or.inr (Or.inl ⟨b, (h.inHands b a).mpr hplace⟩)
      | gone => exact Or.inr (Or.inr ((h.past a).mpr hplace))

theorem not_held_of_pooled (h : Custody place pool held gone known) (ha : a ∈ pool) (b : β) :
    held b ≠ some a := by
  intro hb
  have hplace := ((h.pooled a).mp ha).symm.trans ((h.inHands b a).mp hb)
  cases hplace

theorem not_gone_of_pooled (h : Custody place pool held gone known) (ha : a ∈ pool) : ¬ gone a := by
  intro hgone
  have hplace := ((h.pooled a).mp ha).symm.trans ((h.past a).mp hgone)
  cases hplace

theorem not_gone_of_held (h : Custody place pool held gone known) (hb : held b = some a) :
    ¬ gone a := by
  intro hgone
  have hplace := ((h.inHands b a).mp hb).symm.trans ((h.past a).mp hgone)
  cases hplace

theorem alone (h : Custody place pool held gone known) {b' : β} (hb : held b = some a)
    (hb' : held b' = some a) : b = b' := by
  have hplace := ((h.inHands b a).mp hb).symm.trans ((h.inHands b' a).mp hb')
  cases hplace
  rfl

theorem mem_concat_of_ne {x : α} (hx : x ≠ a) : x ∈ pool ++ [a] ↔ x ∈ pool := by
  rw [List.mem_append, List.mem_singleton]
  exact ⟨fun h => h.resolve_right hx, Or.inl⟩

theorem nodup_concat (hnodup : pool.Nodup) (ha : a ∉ pool) : (pool ++ [a]).Nodup := by
  rw [List.nodup_append]
  refine ⟨hnodup, List.nodup_singleton a, ?_⟩
  rintro x hx y hy rfl
  exact ha (List.mem_singleton.mp hy ▸ hx)

section Updates

variable [DecidableEq β]

theorem update_eq_some {v : Option α} {b' : β} {x : α} (hb : ∀ x, held b = some x → x = a)
    (hv : ∀ x, v = some x → x = a) (hx : x ≠ a) :
    Function.update held b v b' = some x ↔ held b' = some x := by
  by_cases heq : b' = b
  · subst heq
    rw [Function.update_self]
    exact iff_of_false (fun h => hx (hv x h)) (fun h => hx (hb x h))
  · rw [Function.update_of_ne heq]

/-- A holder with free hands gets something: the head of the pool, or something new. -/
theorem update_self_iff (hothers : ∀ b', b' ≠ b → held b' ≠ some a) (b' : β) :
    Function.update held b (some a) b' = some a ↔ Place.hands b = .hands b' := by
  rw [Place.hands.injEq]
  by_cases heq : b' = b
  · subst heq
    exact iff_of_true (Function.update_self _ _ _) rfl
  · rw [Function.update_of_ne heq]
    exact iff_of_false (hothers b' heq) (fun h => heq h.symm)

theorem put_down (h : Custody place pool held gone known) (hb : held b = some a) {p : Place β}
    (hp : ∀ b, p ≠ .hands b) (b' : β) : Function.update held b none b' = some a ↔ p = .hands b' := by
  refine iff_of_false (fun hb' => ?_) (hp b')
  by_cases heq : b' = b
  · rw [heq, Function.update_self] at hb'
    cases hb'
  · rw [Function.update_of_ne heq] at hb'
    exact heq (h.alone hb' hb)

end Updates

section Move

variable [DecidableEq α]

/-- **One thing changes its place**, and all others are where they were. -/
theorem move (h : Custody place pool held gone known) (p : Place β) (hnodup : pool'.Nodup)
    (hothers : ∀ x, x ≠ a → ((x ∈ pool' ↔ x ∈ pool) ∧ (∀ b, held' b = some x ↔ held b = some x) ∧
      (gone' x ↔ gone x) ∧ (known' x ↔ known x)))
    (hpool : a ∈ pool' ↔ p = .pooled) (hheld : ∀ b, held' b = some a ↔ p = .hands b)
    (hgone : gone' a ↔ p = .gone) (hknown : known' a) :
    Custody (Function.update place a (some p)) pool' held' gone' known' := by
  refine ⟨hnodup, fun x => ?_, fun b x => ?_, fun x => ?_, fun x => ?_⟩
  · by_cases hx : x = a
    · rw [hx, Function.update_self, hpool, Option.some.injEq]
    · rw [Function.update_of_ne hx, (hothers x hx).1, h.pooled]
  · by_cases hx : x = a
    · rw [hx, Function.update_self, hheld, Option.some.injEq]
    · rw [Function.update_of_ne hx, (hothers x hx).2.1, h.inHands]
  · by_cases hx : x = a
    · rw [hx, Function.update_self, hgone, Option.some.injEq]
    · rw [Function.update_of_ne hx, (hothers x hx).2.2.1, h.past]
  · by_cases hx : x = a
    · rw [hx, Function.update_self]
      exact iff_of_true hknown (Option.some_ne_none p)
    · rw [Function.update_of_ne hx, (hothers x hx).2.2.2, h.somewhere]

/-- Something new is gone at once. -/
theorem stillborn (h : Custody place pool held gone known) (hnew : ¬ known a) :
    Custody (Function.update place a (some .gone)) pool held (fun x => gone x ∨ x = a)
      (fun x => known x ∨ x = a) := by
  have hplace : place a = none := by
    by_contra hne
    exact hnew ((h.somewhere a).mpr hne)
  refine h.move .gone h.nodup (fun x hx => ⟨Iff.rfl, fun _ => Iff.rfl, ?_, ?_⟩) ?_ (fun b => ?_)
    (iff_of_true (Or.inr rfl) rfl) (Or.inr rfl)
  · exact ⟨fun h => h.resolve_right hx, Or.inl⟩
  · exact ⟨fun h => h.resolve_right hx, Or.inl⟩
  · rw [h.pooled, hplace]
    exact iff_of_false (fun h => by cases h) (fun h => by cases h)
  · rw [h.inHands, hplace]
    exact iff_of_false (fun h => by cases h) (fun h => by cases h)

/-- Something new is put into the pool. -/
theorem stock (h : Custody place pool held gone known) (hnew : ¬ known a) :
    Custody (Function.update place a (some .pooled)) (pool ++ [a]) held gone
      (fun x => known x ∨ x = a) := by
  have hplace : place a = none := by
    by_contra hne
    exact hnew ((h.somewhere a).mpr hne)
  have ha : a ∉ pool := by
    rw [h.pooled, hplace]
    exact fun h => by cases h
  refine h.move .pooled (nodup_concat h.nodup ha) (fun x hx => ⟨mem_concat_of_ne hx,
    fun _ => Iff.rfl, Iff.rfl, ?_⟩) (iff_of_true ?_ rfl) (fun b => ?_) ?_ (Or.inr rfl)
  · exact ⟨fun h => h.resolve_right hx, Or.inl⟩
  · exact List.mem_append_right pool (List.mem_singleton_self a)
  · rw [h.inHands, hplace]
    exact iff_of_false (fun h => by cases h) (fun h => by cases h)
  · rw [h.past, hplace]
    exact iff_of_false (fun h => by cases h) (fun h => by cases h)

/-- The pool is emptied, and all that was in it is gone. -/
theorem drain (h : Custody place pool held gone known) :
    ∃ place', Custody place' [] held (fun x => gone x ∨ x ∈ pool) known := by
  refine ⟨fun x => if x ∈ pool then some .gone else place x, List.nodup_nil, fun x => ?_,
    fun b x => ?_, fun x => ?_, fun x => ?_⟩
  · by_cases hx : x ∈ pool
    · rw [if_pos hx]
      exact iff_of_false List.not_mem_nil (fun h => by cases h)
    · rw [if_neg hx]
      exact iff_of_false List.not_mem_nil (fun hplace => hx ((h.pooled x).mpr hplace))
  · by_cases hx : x ∈ pool
    · rw [if_pos hx]
      exact iff_of_false (h.not_held_of_pooled hx b) (fun h => by cases h)
    · rw [if_neg hx]
      exact h.inHands b x
  · by_cases hx : x ∈ pool
    · rw [if_pos hx]
      exact iff_of_true (Or.inr hx) rfl
    · rw [if_neg hx, ← h.past x]
      exact ⟨fun hor => hor.resolve_right hx, Or.inl⟩
  · by_cases hx : x ∈ pool
    · rw [if_pos hx, h.somewhere, (h.pooled x).mp hx]
      exact iff_of_true (Option.some_ne_none _) (Option.some_ne_none _)
    · rw [if_neg hx]
      exact h.somewhere x

end Move

section Hands

variable [DecidableEq α] [DecidableEq β]

/-- A holder takes the head of the pool. -/
theorem take (h : Custody place (a :: rest) held gone known) (hfree : held b = none) :
    Custody (Function.update place a (some (.hands b))) rest (Function.update held b (some a)) gone
      known := by
  have hin : a ∈ a :: rest := List.mem_cons_self
  obtain ⟨hnot, hnodup⟩ := List.nodup_cons.mp h.nodup
  refine h.move (.hands b) hnodup (fun x hx => ⟨?_, fun b' => ?_, Iff.rfl, Iff.rfl⟩)
    (iff_of_false hnot (fun h => by cases h))
    (update_self_iff fun b' _ => h.not_held_of_pooled hin b')
    (iff_of_false (h.not_gone_of_pooled hin) (fun h => by cases h)) ?_
  · exact ⟨List.mem_cons_of_mem a, fun hmem => (List.mem_cons.mp hmem).resolve_left hx⟩
  · exact update_eq_some (fun y hy => by rw [hfree] at hy; cases hy)
      (fun y hy => (Option.some.inj hy).symm) hx
  · exact (h.somewhere a).mpr (by rw [(h.pooled a).mp hin]; exact Option.some_ne_none _)

/-- A holder gets something new. -/
theorem create (h : Custody place pool held gone known) (hnew : ¬ known a) (hfree : held b = none) :
    Custody (Function.update place a (some (.hands b))) pool (Function.update held b (some a)) gone
      (fun x => known x ∨ x = a) := by
  have hplace : place a = none := by
    by_contra hne
    exact hnew ((h.somewhere a).mpr hne)
  refine h.move (.hands b) h.nodup (fun x hx => ⟨Iff.rfl, fun b' => ?_, Iff.rfl, ?_⟩) ?_
    (update_self_iff fun b' _ hb' => ?_) ?_ (Or.inr rfl)
  · exact update_eq_some (fun y hy => by rw [hfree] at hy; cases hy)
      (fun y hy => (Option.some.inj hy).symm) hx
  · exact ⟨fun h => h.resolve_right hx, Or.inl⟩
  · rw [h.pooled, hplace]
    exact iff_of_false (fun h => by cases h) (fun h => by cases h)
  · rw [h.inHands, hplace] at hb'
    cases hb'
  · rw [h.past, hplace]
    exact iff_of_false (fun h => by cases h) (fun h => by cases h)

/-- What a holder has goes back to the pool. -/
theorem giveBack (h : Custody place pool held gone known) (hb : held b = some a) :
    Custody (Function.update place a (some .pooled)) (pool ++ [a]) (Function.update held b none) gone
      known := by
  have ha : a ∉ pool := fun ha => h.not_held_of_pooled ha b hb
  refine h.move .pooled (nodup_concat h.nodup ha) (fun x hx => ⟨mem_concat_of_ne hx, fun b' => ?_,
    Iff.rfl, Iff.rfl⟩) (iff_of_true ?_ rfl) (h.put_down hb fun b h => by cases h)
    (iff_of_false (h.not_gone_of_held hb) (fun h => by cases h)) ?_
  · exact update_eq_some (fun y hy => Option.some.inj (hy.symm.trans hb)) (fun y hy => by cases hy) hx
  · exact List.mem_append_right pool (List.mem_singleton_self a)
  · exact (h.somewhere a).mpr (by rw [(h.inHands b a).mp hb]; exact Option.some_ne_none _)

/-- What a holder has is disposed of. -/
theorem dispose (h : Custody place pool held gone known) (hb : held b = some a) :
    Custody (Function.update place a (some .gone)) pool (Function.update held b none)
      (fun x => gone x ∨ x = a) known := by
  have ha : a ∉ pool := fun ha => h.not_held_of_pooled ha b hb
  refine h.move .gone h.nodup (fun x hx => ⟨Iff.rfl, fun b' => ?_, ?_, Iff.rfl⟩)
    (iff_of_false ha (fun h => by cases h)) (h.put_down hb fun b h => by cases h)
    (iff_of_true (Or.inr rfl) rfl) ?_
  · exact update_eq_some (fun y hy => Option.some.inj (hy.symm.trans hb)) (fun y hy => by cases hy) hx
  · exact ⟨fun h => h.resolve_right hx, Or.inl⟩
  · exact (h.somewhere a).mpr (by rw [(h.inHands b a).mp hb]; exact Option.some_ne_none _)

end Hands

end Custody

end NetPulse.Lib
