import NetPulse.Lib.Json
import Mathlib.Data.List.Infix

/-
# NetPulse.Lib.JsonPaths — paths of keys through objects

`get` goes down a tree by keys. Two paths are `Apart` when neither goes on from the other, and two
trees `Agree` beside a path when they have the same at each path that is apart from it: what a change
at one path must not touch.

A merge goes along paths too (`mergeValue_obj_inner`), so that a tree of changes can be followed down
one of them key by key.
-/

namespace NetPulse.Lib.Json

variable {Num : Type}

/-! ## §1 Paths -/

/-- The value behind the keys. -/
def get : List String → Json Num → Option (Json Num)
  | [], v => some v
  | k :: p, obj entries => (Dict.lookup k entries).bind (get p)
  | _ :: _, null | _ :: _, bool _ | _ :: _, num _ | _ :: _, str _ | _ :: _, list _ => none

theorem get_cons (k : String) (p : List String) (entries : Entries Num) :
    get (k :: p) (obj entries) = (Dict.lookup k entries).bind (get p) := by
  rw [get]

theorem get_key (k : String) (entries : Entries Num) :
    get [k] (obj entries) = Dict.lookup k entries := by
  rw [get_cons]
  cases Dict.lookup k entries <;> rfl

def isObj : Json Num → Bool
  | obj _ => true
  | _ => false

/-- Neither goes on from the other. -/
def Apart (p q : List String) : Prop := ¬ p <+: q ∧ ¬ q <+: p

theorem apart_cons {k : String} {p q : List String} : Apart (k :: p) (k :: q) ↔ Apart p q := by
  rw [Apart, Apart, List.prefix_cons_inj, List.prefix_cons_inj]

theorem apart_of_ne {k k' : String} (h : k ≠ k') (p q : List String) :
    Apart (k :: p) (k' :: q) := by
  rw [Apart, List.cons_prefix_cons, List.cons_prefix_cons]
  exact ⟨fun hpre => h hpre.1, fun hpre => h hpre.1.symm⟩

theorem Apart.ne_nil {p q : List String} (h : Apart p q) : q ≠ [] := by
  rintro rfl
  exact h.2 List.nil_prefix

/-- What is apart leaves the path at the first key, or behind it. -/
theorem Apart.cases {k : String} {p q : List String} (h : Apart (k :: p) q) :
    ∃ k' q', q = k' :: q' ∧ (k' ≠ k ∨ k' = k ∧ Apart p q') := by
  obtain ⟨k', q', rfl⟩ := List.exists_cons_of_ne_nil h.ne_nil
  refine ⟨k', q', rfl, ?_⟩
  by_cases hk : k' = k
  · subst hk
    exact .inr ⟨rfl, apart_cons.mp h⟩
  · exact .inl hk

/-! ## §2 Trees that agree beside a path -/

/-- The trees have the same wherever the path does not go. -/
def Agree (p : List String) (v w : Json Num) : Prop := ∀ q, Apart p q → get q v = get q w

theorem Agree.refl (p : List String) (v : Json Num) : Agree p v v := fun _ _ => rfl

theorem Agree.symm {p : List String} {v w : Json Num} (h : Agree p v w) : Agree p w v :=
  fun q hq => (h q hq).symm

theorem Agree.trans {p : List String} {u v w : Json Num} (h : Agree p u v) (h' : Agree p v w) :
    Agree p u w := fun q hq => (h q hq).trans (h' q hq)

theorem Agree.lookup {k : String} {p : List String} {a b : Entries Num}
    (h : Agree (k :: p) (obj a) (obj b)) {k' : String} (hk : k' ≠ k) :
    Dict.lookup k' a = Dict.lookup k' b := by
  have hkey := h [k'] (apart_of_ne hk.symm p [])
  rwa [get_key, get_key] at hkey

theorem agree_obj {k : String} {p : List String} {a b : Entries Num}
    (hother : ∀ k', k' ≠ k → Dict.lookup k' a = Dict.lookup k' b)
    (hbelow : ∀ q, Apart p q →
      (Dict.lookup k a).bind (get q) = (Dict.lookup k b).bind (get q)) :
    Agree (k :: p) (obj a) (obj b) := by
  intro q hq
  obtain ⟨k', q', rfl, hk | ⟨rfl, hq'⟩⟩ := hq.cases
  · rw [get_cons, get_cons, hother k' hk]
  · rw [get_cons, get_cons]
    exact hbelow q' hq'

/-! ## §3 Merging -/

/-- The entries of the object that is there, if one is. -/
def inner : Option (Json Num) → Entries Num
  | some (obj entries) => entries
  | _ => []

theorem bind_get_inner (old : Option (Json Num)) {q : List String} (hq : q ≠ []) :
    old.bind (get q) = get q (obj (inner old)) := by
  obtain ⟨k, q, rfl⟩ := List.exists_cons_of_ne_nil hq
  cases old with
  | none => rfl
  | some v => cases v <;> rfl

theorem mergeValue_none (v : Json Num) : mergeValue none v = v := by
  cases v <;> simp only [mergeValue]

theorem deepMerge_nil_base {extra : Entries Num} (h : (extra.map Prod.fst).Nodup) :
    deepMerge [] extra = extra := by
  suffices hall : ∀ base : Entries Num, (∀ e ∈ extra, e.1 ∉ base.map Prod.fst) →
      deepMerge base extra = base ++ extra by
    exact hall [] fun e _ => List.not_mem_nil
  induction extra with
  | nil =>
      intro base _
      rw [deepMerge_nil, List.append_nil]
  | cons e rest ih =>
      obtain ⟨k, v⟩ := e
      rw [List.map_cons, List.nodup_cons] at h
      intro base hbase
      have hk : k ∉ base.map Prod.fst := hbase (k, v) List.mem_cons_self
      rw [deepMerge_cons, Dict.lookup_eq_none hk, mergeValue_none, Dict.assign_of_not_mem hk,
        ih h.2, List.append_assoc]
      · rfl
      · intro e he hmem
        rw [List.map_append, List.mem_append] at hmem
        rcases hmem with hmem | hmem
        · exact hbase e (List.mem_cons_of_mem _ he) hmem
        · have heq : e.1 = k := by simpa using hmem
          have hold : e.1 ∈ rest.map Prod.fst := List.mem_map_of_mem he
          exact h.1 (heq ▸ hold)

/-- **An object goes into what there is of an object.** -/
theorem mergeValue_obj_inner (old : Option (Json Num)) {entries : Entries Num}
    (h : (entries.map Prod.fst).Nodup) :
    mergeValue old (obj entries) = obj (deepMerge (inner old) entries) := by
  cases old with
  | none => simp only [inner, deepMerge_nil_base h, mergeValue]
  | some v => cases v <;> simp only [inner, deepMerge_nil_base h, mergeValue]

theorem mergeValue_of_not_obj (old : Option (Json Num)) {v : Json Num} (h : isObj v = false) :
    mergeValue old v = v := by
  cases v with
  | obj entries => cases h
  | _ => rw [mergeValue]

end NetPulse.Lib.Json
