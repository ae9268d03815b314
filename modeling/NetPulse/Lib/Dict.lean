import Mathlib.Data.List.Basic
import Mathlib.Data.List.Nodup

/-
# NetPulse.Lib.Dict — insertion-ordered maps with unique keys

A `Dict K V` is a list of key/value pairs in which no key occurs twice. Assigning to a key that is
present keeps the position of the entry and replaces its value, assigning to a fresh key appends,
and `pop` removes the entry. Iteration (`items`, `values`) runs in insertion order.

The uniqueness of the keys is a field of the structure, so no lemma below asks for it and no client
has to re-establish it. Clients read a `Dict` through `get`; the `@[simp]` lemmas of §2 say what
`get` answers after each update and are all that most proofs need. §3 relates `get` to iteration, and
§4 is about writing many pairs into one map.
-/

namespace NetPulse.Lib

/-- An insertion-ordered map: the pairs in order, with no key twice. -/
structure Dict (K V : Type*) where
  items : List (K × V)
  nodup : (items.map Prod.fst).Nodup

namespace Dict

variable {K V W : Type*}

theorem eq_of_items {d d' : Dict K V} (h : d.items = d'.items) : d = d' := by
  obtain ⟨items, nodup⟩ := d
  obtain ⟨items', nodup'⟩ := d'
  cases h
  rfl

/-! ## §1 Operations -/

/-- The map without entries. -/
def empty : Dict K V := ⟨[], List.nodup_nil⟩

/-- The keys in insertion order. -/
def keys (d : Dict K V) : List K := d.items.map Prod.fst

/-- The values in insertion order. -/
def values (d : Dict K V) : List V := d.items.map Prod.snd

/-- Replace every value by a function of its key and itself; keys and order stay. -/
def mapValues (f : K → V → W) (d : Dict K V) : Dict K W where
  items := d.items.map fun p => (p.1, f p.1 p.2)
  nodup := by
    simpa only [List.map_map, Function.comp_def] using d.nodup

/-- Keep the entries that satisfy `p`. -/
def filter (p : K → V → Bool) (d : Dict K V) : Dict K V where
  items := d.items.filter fun q => p q.1 q.2
  nodup := d.nodup.sublist ((List.filter_sublist (l := d.items)).map Prod.fst)

variable [DecidableEq K]

/-- The value stored under a key of an association list. -/
def lookup (k : K) : List (K × V) → Option V
  | [] => none
  | (k', v) :: rest => if k' = k then some v else lookup k rest

/-- The value stored under `k`, if any. -/
def get (d : Dict K V) (k : K) : Option V := lookup k d.items

/-- Assign in an association list: in place when the key is there, at the end otherwise. -/
def assign (k : K) (v : V) : List (K × V) → List (K × V)
  | [] => [(k, v)]
  | (k', v') :: rest => if k' = k then (k, v) :: rest else (k', v') :: assign k v rest

theorem mem_keys_assign {k k' : K} {v : V} {l : List (K × V)} :
    k' ∈ (assign k v l).map Prod.fst ↔ k' = k ∨ k' ∈ l.map Prod.fst := by
  induction l with
  | nil => simp [assign]
  | cons p rest ih =>
      obtain ⟨q, w⟩ := p
      by_cases h : q = k
      · subst h
        simp [assign]
      · simp only [assign, h, if_false, List.map_cons, List.mem_cons, ih]
        tauto

theorem nodup_assign {k : K} {v : V} {l : List (K × V)} (hl : (l.map Prod.fst).Nodup) :
    ((assign k v l).map Prod.fst).Nodup := by
  induction l with
  | nil => simp [assign]
  | cons p rest ih =>
      obtain ⟨q, w⟩ := p
      simp only [List.map_cons, List.nodup_cons] at hl
      by_cases h : q = k
      · subst h
        simpa [assign] using hl
      · simp only [assign, h, if_false, List.map_cons, List.nodup_cons]
        refine ⟨?_, ih hl.2⟩
        intro hq
        rcases mem_keys_assign.mp hq with rfl | hq
        · exact h rfl
        · exact hl.1 hq

/-- `d[k] = v`. -/
def set (d : Dict K V) (k : K) (v : V) : Dict K V :=
  ⟨assign k v d.items, nodup_assign d.nodup⟩

/-- `d.pop(k, None)`. -/
def pop (d : Dict K V) (k : K) : Dict K V := d.filter fun k' _ => decide (k' ≠ k)

/-- `k in d`. -/
def contains (d : Dict K V) (k : K) : Bool := (d.get k).isSome

/-! ## §2 What `get` answers after an update -/

@[simp] theorem get_empty (k : K) : (empty : Dict K V).get k = none := rfl

theorem lookup_assign {k k' : K} {v : V} {l : List (K × V)} :
    lookup k' (assign k v l) = if k' = k then some v else lookup k' l := by
  induction l with
  | nil => simp [assign, lookup, eq_comm]
  | cons p rest ih =>
      obtain ⟨q, w⟩ := p
      by_cases h : q = k
      · subst h
        by_cases hk : k' = q
        · simp [assign, lookup, hk]
        · simp [assign, lookup, hk, Ne.symm hk]
      · by_cases hq : q = k'
        · subst hq
          simp [assign, lookup, h]
        · simp [assign, lookup, h, hq, ih]

theorem get_set (d : Dict K V) (k k' : K) (v : V) :
    (d.set k v).get k' = if k' = k then some v else d.get k' :=
  lookup_assign

@[simp] theorem get_set_self (d : Dict K V) (k : K) (v : V) : (d.set k v).get k = some v := by
  simp [get_set]

theorem get_set_of_ne (d : Dict K V) {k k' : K} (v : V) (h : k' ≠ k) :
    (d.set k v).get k' = d.get k' := by
  simp [get_set, h]

theorem lookup_eq_none {k : K} {l : List (K × V)} (h : k ∉ l.map Prod.fst) :
    lookup k l = none := by
  induction l with
  | nil => rfl
  | cons p rest ih =>
      simp only [List.map_cons, List.mem_cons, not_or] at h
      simp [lookup, Ne.symm h.1, ih h.2]

theorem lookup_filter_key {k : K} {p : K → V → Bool} {l : List (K × V)}
    (hl : (l.map Prod.fst).Nodup) :
    lookup k (l.filter fun q => p q.1 q.2) = (lookup k l).filter (p k) := by
  induction l with
  | nil => rfl
  | cons q rest ih =>
      obtain ⟨k', w⟩ := q
      simp only [List.map_cons, List.nodup_cons] at hl
      by_cases hk : k' = k
      · subst hk
        cases hp : p k' w with
        | true => simp [lookup, hp, Option.filter]
        | false => simp [lookup, hp, Option.filter, ih hl.2, lookup_eq_none hl.1]
      · cases hp : p k' w with
        | true => simp [lookup, hp, hk, ih hl.2]
        | false => simp [lookup, hp, hk, ih hl.2]

theorem get_filter (d : Dict K V) (p : K → V → Bool) (k : K) :
    (d.filter p).get k = (d.get k).filter (p k) :=
  lookup_filter_key d.nodup

theorem get_pop (d : Dict K V) (k k' : K) :
    (d.pop k).get k' = if k' = k then none else d.get k' := by
  rw [pop, get_filter]
  by_cases h : k' = k
  · cases hd : d.get k' <;> simp [h, Option.filter]
  · cases hd : d.get k' <;> simp [h, Option.filter]

@[simp] theorem get_pop_self (d : Dict K V) (k : K) : (d.pop k).get k = none := by
  simp [get_pop]

theorem get_pop_of_ne (d : Dict K V) {k k' : K} (h : k' ≠ k) : (d.pop k).get k' = d.get k' := by
  simp [get_pop, h]

theorem lookup_map {f : K → V → W} {k : K} {l : List (K × V)} :
    lookup k (l.map fun p => (p.1, f p.1 p.2)) = (lookup k l).map (f k) := by
  induction l with
  | nil => rfl
  | cons p rest ih =>
      by_cases h : p.1 = k
      · simp [lookup, h]
      · simp [lookup, h, ih]

@[simp] theorem get_mapValues (f : K → V → W) (d : Dict K V) (k : K) :
    (d.mapValues f).get k = (d.get k).map (f k) :=
  lookup_map

theorem assign_map {f : V → W} {k : K} {v : V} {l : List (K × V)} :
    assign k (f v) (l.map fun p => (p.1, f p.2)) = (assign k v l).map fun p => (p.1, f p.2) := by
  induction l with
  | nil => rfl
  | cons p rest ih =>
      by_cases h : p.1 = k
      · simp [assign, h]
      · simp [assign, h, ih]

/-- A change of representation of the values commutes with an assignment. -/
theorem mapValues_set (f : V → W) (d : Dict K V) (k : K) (v : V) :
    (d.set k v).mapValues (fun _ => f) = (d.mapValues fun _ => f).set k (f v) := by
  have hitems : (assign k v d.items).map (fun p => (p.1, f p.2)) =
      assign k (f v) (d.items.map fun p => (p.1, f p.2)) := assign_map.symm
  simp only [set, mapValues, hitems]

/-- What holds of all values and of the new one holds of all values afterwards. -/
theorem forall_get_set {P : K → V → Prop} {d : Dict K V} (h : ∀ k v, d.get k = some v → P k v)
    {k : K} {v : V} (hv : P k v) : ∀ k' v', (d.set k v).get k' = some v' → P k' v' := by
  intro k' v' hget
  rw [get_set] at hget
  by_cases hk : k' = k
  · rw [if_pos hk] at hget
    cases hget
    rw [hk]
    exact hv
  · rw [if_neg hk] at hget
    exact h k' v' hget

theorem forall_get_filter {P : K → V → Prop} {d : Dict K V} (h : ∀ k v, d.get k = some v → P k v)
    (keep : K → V → Bool) : ∀ k v, (d.filter keep).get k = some v → P k v := by
  intro k v hget
  rw [get_filter] at hget
  exact h k v (Option.filter_eq_some_iff.mp hget).1

/-! ## §3 `get` and iteration -/

theorem mem_of_lookup {k : K} {v : V} {l : List (K × V)} (h : lookup k l = some v) :
    (k, v) ∈ l := by
  induction l with
  | nil => simp [lookup] at h
  | cons p rest ih =>
      obtain ⟨k', w⟩ := p
      by_cases hk : k' = k
      · subst hk
        simp only [lookup, if_true, Option.some.injEq] at h
        simp [h]
      · simp only [lookup, hk, if_false] at h
        exact List.mem_cons_of_mem _ (ih h)

theorem lookup_of_mem {k : K} {v : V} {l : List (K × V)} (hl : (l.map Prod.fst).Nodup)
    (h : (k, v) ∈ l) : lookup k l = some v := by
  induction l with
  | nil => simp at h
  | cons p rest ih =>
      obtain ⟨k', w⟩ := p
      simp only [List.map_cons, List.nodup_cons] at hl
      rcases List.mem_cons.mp h with heq | hrest
      · cases heq
        simp [lookup]
      · have hne : k' ≠ k := by
          rintro rfl
          exact hl.1 (List.mem_map.mpr ⟨(k', v), hrest, rfl⟩)
        simp [lookup, hne, ih hl.2 hrest]

/-- Iteration meets exactly the entries that `get` finds. -/
theorem mem_items_iff (d : Dict K V) {k : K} {v : V} : (k, v) ∈ d.items ↔ d.get k = some v :=
  ⟨lookup_of_mem d.nodup, mem_of_lookup⟩

theorem mem_keys_iff (d : Dict K V) {k : K} : k ∈ d.keys ↔ ∃ v, d.get k = some v := by
  constructor
  · intro h
    obtain ⟨⟨k, v⟩, hmem, rfl⟩ := List.mem_map.mp h
    exact ⟨v, (d.mem_items_iff).mp hmem⟩
  · rintro ⟨v, h⟩
    exact List.mem_map.mpr ⟨(k, v), (d.mem_items_iff).mpr h, rfl⟩

theorem mem_values_iff (d : Dict K V) {v : V} : v ∈ d.values ↔ ∃ k, d.get k = some v := by
  constructor
  · intro h
    obtain ⟨⟨k, w⟩, hmem, rfl⟩ := List.mem_map.mp h
    exact ⟨k, (d.mem_items_iff).mp hmem⟩
  · rintro ⟨k, h⟩
    exact List.mem_map.mpr ⟨(k, v), (d.mem_items_iff).mpr h, rfl⟩

/-- A new key goes to the end. -/
theorem assign_of_not_mem {k : K} {v : V} {l : List (K × V)} (h : k ∉ l.map Prod.fst) :
    assign k v l = l ++ [(k, v)] := by
  induction l with
  | nil => rfl
  | cons e rest ih =>
      rw [List.map_cons, List.mem_cons, not_or] at h
      rw [assign, if_neg (Ne.symm h.1), ih h.2]
      rfl

/-- Pairs with keys of their own, set one after the other, are the items, in this order. -/
theorem items_foldl_set {l : List (K × V)} {d : Dict K V} (hl : (l.map Prod.fst).Nodup)
    (hnew : ∀ e ∈ l, e.1 ∉ d.items.map Prod.fst) :
    (l.foldl (fun d e => d.set e.1 e.2) d).items = d.items ++ l := by
  induction l generalizing d with
  | nil => exact (List.append_nil _).symm
  | cons e rest ih =>
      rw [List.map_cons, List.nodup_cons] at hl
      have hitems : (d.set e.1 e.2).items = d.items ++ [e] :=
        assign_of_not_mem (hnew e List.mem_cons_self)
      rw [List.foldl_cons, ih hl.2, hitems, List.append_assoc]
      · rfl
      · intro e' he' hmem
        rw [hitems, List.map_append, List.mem_append] at hmem
        rcases hmem with hold | hself
        · exact hnew e' (List.mem_cons_of_mem e he') hold
        · have heq : e'.1 = e.1 := by simpa using hself
          exact hl.1 (heq ▸ List.mem_map_of_mem he')

/-! ## §4 Writing one list of pairs over another -/

/-- Each pair in turn is assigned, as `g` says from what its key has at that moment. -/
def writeOver (g : Option V → V → V) (base : List (K × V)) : List (K × V) → List (K × V)
  | [] => base
  | (k, v) :: rest => writeOver g (assign k (g (lookup k base) v) base) rest

variable {g : Option V → V → V} {base extra : List (K × V)}

theorem nodup_writeOver (h : (base.map Prod.fst).Nodup) :
    ((writeOver g base extra).map Prod.fst).Nodup := by
  induction extra generalizing base with
  | nil => exact h
  | cons e rest ih =>
      obtain ⟨k, v⟩ := e
      exact ih (nodup_assign h)

/-- **What each key has afterwards.** -/
theorem lookup_writeOver (hextra : (extra.map Prod.fst).Nodup) (k : K) :
    lookup k (writeOver g base extra) =
      ((lookup k extra).map (g (lookup k base))).or (lookup k base) := by
  induction extra generalizing base with
  | nil => rfl
  | cons e rest ih =>
      obtain ⟨k', v⟩ := e
      rw [List.map_cons, List.nodup_cons] at hextra
      rw [writeOver, ih hextra.2, lookup_assign]
      by_cases hk : k = k'
      · subst hk
        rw [lookup_eq_none hextra.1, if_pos rfl, lookup, if_pos rfl]
        rfl
      · rw [if_neg hk, lookup, if_neg (Ne.symm hk)]

theorem assign_of_lookup {k : K} {v : V} (h : lookup k base = some v) : assign k v base = base := by
  induction base with
  | nil => cases h
  | cons e rest ih =>
      obtain ⟨k', v'⟩ := e
      by_cases hk : k' = k
      · subst hk
        rw [lookup, if_pos rfl] at h
        cases h
        rw [assign, if_pos rfl]
      · rw [lookup, if_neg hk] at h
        rw [assign, if_neg hk, ih h]

/-- Assigning to a key that is there leaves the keys as they are. -/
theorem keys_assign {k : K} (v : V) {l : List (K × V)} (h : k ∈ l.map Prod.fst) :
    (assign k v l).map Prod.fst = l.map Prod.fst := by
  induction l with
  | nil => cases h
  | cons e rest ih =>
      obtain ⟨k', v'⟩ := e
      by_cases hk : k' = k
      · subst hk
        rw [assign, if_pos rfl]
        rfl
      · have hrest := (List.mem_cons.mp h).resolve_left (Ne.symm hk)
        rw [assign, if_neg hk, List.map_cons, List.map_cons, ih hrest]

/-- **Lists of pairs with the same keys** are the same when every key has the same value. -/
theorem ext_lookup {l l' : List (K × V)} (hkeys : l.map Prod.fst = l'.map Prod.fst)
    (hl : (l.map Prod.fst).Nodup) (h : ∀ k, lookup k l = lookup k l') : l = l' := by
  induction l generalizing l' with
  | nil => exact (List.map_eq_nil_iff.mp hkeys.symm).symm
  | cons e rest ih =>
      obtain ⟨k, v⟩ := e
      cases l' with
      | nil => cases hkeys
      | cons e' rest' =>
          obtain ⟨k', v'⟩ := e'
          rw [List.map_cons, List.map_cons, List.cons.injEq] at hkeys
          obtain ⟨rfl, hkeys⟩ := hkeys
          rw [List.map_cons, List.nodup_cons] at hl
          have hv : v = v' := by
            have hk := h k
            rw [lookup, lookup, if_pos rfl, if_pos rfl] at hk
            exact Option.some.inj hk
          subst hv
          refine congrArg (List.cons (k, v)) (ih hkeys hl.2 fun q => ?_)
          by_cases hq : k = q
          · -- the first key is in neither rest
            subst hq
            rw [lookup_eq_none hl.1, lookup_eq_none (hkeys ▸ hl.1)]
          · have hrest := h q
            rw [lookup, lookup, if_neg hq, if_neg hq] at hrest
            exact hrest

theorem keys_prefix_assign (k : K) (v : V) (l : List (K × V)) :
    l.map Prod.fst <+: (assign k v l).map Prod.fst := by
  induction l with
  | nil => exact List.nil_prefix
  | cons e rest ih =>
      obtain ⟨k', v'⟩ := e
      by_cases hk : k' = k
      · rw [assign, if_pos hk, hk]
        exact List.prefix_refl _
      · rw [assign, if_neg hk]
        exact (List.prefix_cons_inj k').mpr ih

/-- The keys that were there stay in front. -/
theorem keys_prefix_writeOver (g : Option V → V → V) (base extra : List (K × V)) :
    base.map Prod.fst <+: (writeOver g base extra).map Prod.fst := by
  induction extra generalizing base with
  | nil => exact List.prefix_refl _
  | cons e rest ih => exact (keys_prefix_assign _ _ _).trans (ih _)

theorem writeOver_cons_of_not_mem {e : K × V} (h : e.1 ∉ extra.map Prod.fst) :
    writeOver (fun _ v => v) (e :: base) extra = e :: writeOver (fun _ v => v) base extra := by
  induction extra generalizing base with
  | nil => rfl
  | cons e' rest ih =>
      rw [List.map_cons, List.mem_cons, not_or] at h
      rw [writeOver, assign, if_neg h.1]
      exact ih h.2

/-- Writing a whole map over one whose keys it begins with gives that map. -/
theorem writeOver_of_prefix (hextra : (extra.map Prod.fst).Nodup)
    (h : base.map Prod.fst <+: extra.map Prod.fst) :
    writeOver (fun _ v => v) base extra = extra := by
  induction extra generalizing base with
  | nil =>
      rw [List.map_nil, List.prefix_nil, List.map_eq_nil_iff] at h
      rw [h]
      rfl
  | cons e rest ih =>
      obtain ⟨k, v⟩ := e
      rw [List.map_cons, List.nodup_cons] at hextra
      have hassign : ∃ base', assign k v base = (k, v) :: base' ∧
          base'.map Prod.fst <+: rest.map Prod.fst := by
        rcases base with _ | ⟨⟨k', v'⟩, base'⟩
        · exact ⟨[], rfl, List.nil_prefix⟩
        · rw [List.map_cons, List.map_cons, List.cons_prefix_cons] at h
          exact ⟨base', by rw [assign, if_pos h.1], h.2⟩
      obtain ⟨base', hbase', hprefix⟩ := hassign
      rw [writeOver, hbase', writeOver_cons_of_not_mem hextra.1, ih hextra.2 hprefix]

/-- **Nothing has changed** exactly when each key that was written had this value before. -/
theorem writeOver_eq_self_iff (hextra : (extra.map Prod.fst).Nodup) :
    writeOver g base extra = base ↔ ∀ k v, lookup k extra = some v →
      lookup k base = some (g (lookup k base) v) := by
  constructor
  · intro heq k v hv
    have hlook : lookup k (writeOver g base extra) = _ := lookup_writeOver hextra k
    rw [heq, hv, Option.map_some, Option.some_or] at hlook
    exact hlook
  · intro hall
    induction extra with
    | nil => rfl
    | cons e rest ih =>
        obtain ⟨k, v⟩ := e
        rw [List.map_cons, List.nodup_cons] at hextra
        have hfirst := hall k v (by rw [lookup, if_pos rfl])
        rw [writeOver, assign_of_lookup hfirst]
        apply ih hextra.2
        intro k' v' hv'
        refine hall k' v' ?_
        -- a later key is another one
        have hne : k ≠ k' := by
          rintro rfl
          rw [lookup_eq_none hextra.1] at hv'
          cases hv'
        rw [lookup, if_neg hne, hv']

end Dict

end NetPulse.Lib
