import NetPulse.Lib.Json

/-
# NetPulse.Lib.JsonPlaces — one place in a tree, below keys and list positions

A place is a way down through objects and lists. `put` changes what stands there and nothing else:
at another place where a scalar stands, it still stands (`at_put_ne`). Changing all of several places
to one value leaves the tree exactly if the value stands at each of them (`putAll_eq_self_iff`).
-/

namespace NetPulse.Lib.Json

variable {Num : Type}

inductive Step where
  | key (k : String)
  | item (i : Nat)
  deriving DecidableEq

abbrev Place := List Step

/-! ## §1 One step -/

def child : Step → Json Num → Option (Json Num)
  | .key k, obj entries => Dict.lookup k entries
  | .item i, list items => items[i]?
  | _, _ => none

def setChild : Step → Json Num → Json Num → Json Num
  | .key k, v, obj entries => obj (Dict.assign k v entries)
  | .item i, v, list items => list (items.set i v)
  | _, _, t => t

theorem child_setChild {s : Step} {t u v : Json Num} (h : child s t = some u) :
    child s (setChild s v t) = some v := by
  cases s with
  | key k =>
      cases t with
      | obj entries => rw [setChild, child, Dict.lookup_assign, if_pos rfl]
      | null | bool | num | str | list => cases h
  | item i =>
      cases t with
      | list items =>
          rw [child] at h
          obtain ⟨hi, -⟩ := List.getElem?_eq_some_iff.mp h
          rw [setChild, child, List.getElem?_set_self hi]
      | null | bool | num | str | obj => cases h

theorem child_setChild_ne {s s' : Step} (hne : s' ≠ s) (t v : Json Num) :
    child s' (setChild s v t) = child s' t := by
  cases s with
  | key k =>
      cases t with
      | obj entries =>
          cases s' with
          | key k' =>
              have hk : k' ≠ k := fun heq => hne (congrArg Step.key heq)
              rw [setChild, child, child, Dict.lookup_assign, if_neg hk]
          | item i => rfl
      | null | bool | num | str | list => rfl
  | item i =>
      cases t with
      | list items =>
          cases s' with
          | key k => rfl
          | item i' =>
              have hi : i ≠ i' := fun heq => hne (congrArg Step.item heq.symm)
              rw [setChild, child, child, List.getElem?_set_ne hi]
      | null | bool | num | str | obj => rfl

theorem setChild_self {s : Step} {t v : Json Num} (h : child s t = some v) : setChild s v t = t := by
  cases s with
  | key k =>
      cases t with
      | obj entries =>
          rw [child] at h
          rw [setChild, Dict.assign_of_lookup h]
      | null | bool | num | str | list => rfl
  | item i =>
      cases t with
      | list items =>
          rw [child] at h
          obtain ⟨hi, hv⟩ := List.getElem?_eq_some_iff.mp h
          rw [setChild, ← hv, List.set_getElem_self]
      | null | bool | num | str | obj => rfl

/-- Nothing is below a scalar. -/
def IsScalar (t : Json Num) : Prop := ∀ s, child s t = none

theorem isScalar_str (s : String) : IsScalar (str s : Json Num) := by
  intro step
  cases step <;> rfl

/-! ## §2 Places -/

/-- What stands at a place. -/
def at_ : Place → Json Num → Option (Json Num)
  | [], t => some t
  | s :: p, t => (child s t).bind (at_ p)

/-- Another value at a place that is there. -/
def put : Place → Json Num → Json Num → Json Num
  | [], v, _ => v
  | s :: p, v, t =>
      match child s t with
      | some u => setChild s (put p v u) t
      | none => t

theorem at_put {p : Place} {t u : Json Num} (h : at_ p t = some u) (v : Json Num) :
    at_ p (put p v t) = some v := by
  induction p generalizing t with
  | nil => rfl
  | cons s p ih =>
      rw [at_] at h
      obtain ⟨w, hw, h⟩ := Option.bind_eq_some_iff.mp h
      rw [put, hw, at_]
      dsimp only
      rw [child_setChild hw, Option.bind_some, ih h]

theorem put_self {p : Place} {t v : Json Num} (h : at_ p t = some v) : put p v t = t := by
  induction p generalizing t with
  | nil => exact (Option.some.inj h).symm
  | cons s p ih =>
      rw [at_] at h
      obtain ⟨w, hw, h⟩ := Option.bind_eq_some_iff.mp h
      rw [put, hw]
      dsimp only
      rw [ih h, setChild_self hw]

/-- **Another place** is left as it was. -/
theorem at_put_ne {p q : Place} (hne : p ≠ q) {t u w : Json Num} (hp : at_ p t = some u)
    (hu : IsScalar u) (hq : at_ q t = some w) (hw : IsScalar w) (v : Json Num) :
    at_ p (put q v t) = some u := by
  induction p generalizing q t with
  | nil =>
      obtain rfl : t = u := Option.some.inj hp
      cases q with
      | nil => exact absurd rfl hne
      | cons s q =>
          rw [put, hu s]
          rfl
  | cons s p ih =>
      cases q with
      | nil =>
          obtain rfl : t = w := Option.some.inj hq
          rw [at_, hw s] at hp
          cases hp
      | cons s' q =>
          rw [at_] at hp hq
          obtain ⟨x, hx, hp⟩ := Option.bind_eq_some_iff.mp hp
          obtain ⟨y, hy, hq⟩ := Option.bind_eq_some_iff.mp hq
          rw [put, hy, at_]
          dsimp only
          by_cases hs : s = s'
          · subst hs
            obtain rfl : x = y := Option.some.inj (hx.symm.trans hy)
            have hpq : p ≠ q := fun heq => hne (congrArg _ heq)
            rw [child_setChild hy, Option.bind_some]
            exact ih hpq hp hq
          · rw [child_setChild_ne hs, hx, Option.bind_some, hp]

/-! ## §3 Several places -/

/-- One value at each of the places. -/
def putAll (places : List Place) (v t : Json Num) : Json Num :=
  places.foldl (fun t p => put p v t) t

/-- A scalar stands at each of the places. -/
def Scalars (places : List Place) (t : Json Num) : Prop :=
  ∀ p ∈ places, ∃ u, at_ p t = some u ∧ IsScalar u

theorem Scalars.put {places : List Place} {t v : Json Num} (h : Scalars places t)
    (hv : IsScalar v) {q : Place} (hq : q ∈ places) : Scalars places (Json.put q v t) := by
  intro p hp
  obtain ⟨u, hu, hscalar⟩ := h p hp
  obtain ⟨w, hw, hscalar'⟩ := h q hq
  by_cases hpq : p = q
  · rw [hpq]
    exact ⟨v, at_put hw v, hv⟩
  · exact ⟨u, at_put_ne hpq hu hscalar hw hscalar' v, hscalar⟩

/-- What stands at a place after the value has been put at some of the places. -/
theorem at_putAll {places some_ : List Place} (hsub : some_ ⊆ places) {t v : Json Num}
    (h : Scalars places t) (hv : IsScalar v) {p : Place} (hp : p ∈ places) :
    at_ p (putAll some_ v t) = if p ∈ some_ then some v else at_ p t := by
  induction some_ generalizing t with
  | nil => rfl
  | cons q rest ih =>
      rw [List.cons_subset] at hsub
      have hstep := ih hsub.2 (h.put hv hsub.1)
      show at_ p (putAll rest v (Json.put q v t)) = _
      rw [hstep]
      obtain ⟨u, hu, hscalar⟩ := h p hp
      obtain ⟨w, hw, hscalar'⟩ := h q hsub.1
      by_cases hpq : p = q
      · rw [hpq, at_put hw, if_pos List.mem_cons_self, ite_self]
      · rw [at_put_ne hpq hu hscalar hw hscalar', hu]
        refine if_congr ?_ rfl rfl
        rw [List.mem_cons, or_iff_right hpq]

/-- **Putting a value everywhere** leaves the tree exactly if it stands there. -/
theorem putAll_eq_self_iff {places : List Place} {t v : Json Num} (h : Scalars places t)
    (hv : IsScalar v) : putAll places v t = t ↔ ∀ p ∈ places, at_ p t = some v := by
  constructor
  · intro heq p hp
    have hat := at_putAll (List.Subset.refl places) h hv hp
    rwa [if_pos hp, heq] at hat
  · intro hall
    clear h
    induction places with
    | nil => rfl
    | cons q rest ih =>
        rw [List.forall_mem_cons] at hall
        show putAll rest v (Json.put q v t) = t
        rw [put_self hall.1]
        exact ih hall.2

end NetPulse.Lib.Json
