import NetPulse.Lib.JsonPaths

/-
# NetPulse.Lib.JsonMerge — the law of the deep merge

`get_mergeValue` says what stands at each path after a merge: what the overriding tree has there,
nothing where it has put a value across the path, and what the base has elsewhere. Merging the same
tree again changes nothing (`deepMerge_again`), and a merge of trees without repeated keys is one.

Trees are taken apart by `objInduction`, for which all but objects are leaves.
-/

namespace NetPulse.Lib.Json

variable {Num : Type}

/-! ## §1 Induction -/

mutual

/-- Induction over the objects of a tree. -/
@[elab_as_elim]
theorem objInduction {P : Json Num → Prop} (leaf : ∀ v, isObj v = false → P v)
    (node : ∀ entries : Entries Num, (∀ e ∈ entries, P e.2) → P (obj entries)) :
    ∀ v : Json Num, P v
  | obj entries => node entries (objInduction_entries leaf node entries)
  | null => leaf null rfl
  | bool b => leaf (bool b) rfl
  | num n => leaf (num n) rfl
  | str s => leaf (str s) rfl
  | list items => leaf (list items) rfl

theorem objInduction_entries {P : Json Num → Prop} (leaf : ∀ v, isObj v = false → P v)
    (node : ∀ entries : Entries Num, (∀ e ∈ entries, P e.2) → P (obj entries)) :
    ∀ entries : Entries Num, ∀ e ∈ entries, P e.2
  | [], _, h => absurd h List.not_mem_nil
  | (_, v) :: rest, e, h => by
      rcases List.mem_cons.mp h with rfl | h
      · exact objInduction leaf node v
      · exact objInduction_entries leaf node rest e h

end

/-! ## §2 Keys -/

theorem uniqueEntries_iff {entries : Entries Num} :
    UniqueEntries entries ↔ ∀ e ∈ entries, Unique e.2 := by
  induction entries with
  | nil => exact iff_of_true trivial fun e he => absurd he List.not_mem_nil
  | cons e rest ih => rw [uniqueEntries_cons, ih, List.forall_mem_cons]

theorem Unique.lookup {entries : Entries Num} (h : Unique (obj entries)) {k : String}
    {v : Json Num} (hv : Dict.lookup k entries = some v) : Unique v :=
  (unique_obj.mp h).2.of_mem (Dict.mem_of_lookup hv)

theorem unique_list {items : List (Json Num)} (h : ∀ v ∈ items, Unique v) :
    Unique (.list items) := by
  rw [unique_list_iff]
  induction items with
  | nil => trivial
  | cons w rest ih =>
      rw [List.forall_mem_cons] at h
      exact uniqueItems_cons.mpr ⟨h.1, ih h.2⟩

theorem unique_of_mem_list {items : List (Json Num)} (h : Unique (.list items)) :
    ∀ v ∈ items, Unique v := by
  rw [unique_list_iff] at h
  induction items with
  | nil => exact fun v hv => absurd hv List.not_mem_nil
  | cons w rest ih =>
      rw [uniqueItems_cons] at h
      exact List.forall_mem_cons.mpr ⟨h.1, ih h.2⟩

theorem mem_assign {k : String} {v : Json Num} {l : Entries Num} {e : String × Json Num}
    (h : e ∈ Dict.assign k v l) : e = (k, v) ∨ e ∈ l := by
  induction l with
  | nil => exact .inl (List.mem_singleton.mp h)
  | cons e' rest ih =>
      obtain ⟨k', w⟩ := e'
      rw [Dict.assign] at h
      split at h
      · rcases List.mem_cons.mp h with h | h
        · exact .inl h
        · exact .inr (List.mem_cons_of_mem _ h)
      · rcases List.mem_cons.mp h with h | h
        · exact .inr (h ▸ List.mem_cons_self)
        · exact (ih h).imp_right (List.mem_cons_of_mem _)

theorem Unique.assign {entries : Entries Num} (h : Unique (obj entries)) (k : String)
    {v : Json Num} (hv : Unique v) : Unique (obj (Dict.assign k v entries)) := by
  obtain ⟨hkeys, hvalues⟩ := unique_obj.mp h
  refine unique_obj.mpr ⟨Dict.nodup_assign hkeys, uniqueEntries_iff.mpr fun e he => ?_⟩
  rcases mem_assign he with rfl | he
  · exact hv
  · exact uniqueEntries_iff.mp hvalues e he

theorem unique_inner {old : Option (Json Num)} (h : ∀ v ∈ old, Unique v) :
    Unique (obj (inner old)) := by
  have hnil : Unique (obj ([] : Entries Num)) := by
    exact unique_obj.mpr ⟨List.nodup_nil, trivial⟩
  cases old with
  | none => exact hnil
  | some v =>
      cases v with
      | obj entries => exact h _ rfl
      | null | bool | num | str | list => exact hnil

/-- Entries whose merge keeps keys unique do so one after the other. -/
theorem unique_deepMerge_of {base extra : Entries Num} (hbase : Unique (obj base))
    (hmerge : ∀ e ∈ extra, ∀ old : Option (Json Num), (∀ v ∈ old, Unique v) →
      Unique (mergeValue old e.2)) : Unique (obj (deepMerge base extra)) := by
  induction extra generalizing base with
  | nil =>
      rw [deepMerge_nil]
      exact hbase
  | cons e rest ih =>
      obtain ⟨k, v⟩ := e
      rw [deepMerge_cons]
      refine ih (hbase.assign k ?_) fun e he => hmerge e (List.mem_cons_of_mem _ he)
      exact hmerge (k, v) List.mem_cons_self _ fun w hw => hbase.lookup hw

/-- **A merge keeps keys unique.** -/
theorem unique_mergeValue {v : Json Num} (hv : Unique v) :
    ∀ old : Option (Json Num), (∀ w ∈ old, Unique w) → Unique (mergeValue old v) := by
  induction v using objInduction with
  | leaf v hleaf =>
      intro old _
      rw [mergeValue_of_not_obj old hleaf]
      exact hv
  | node entries ih =>
      intro old hold
      obtain ⟨hkeys, hvalues⟩ := unique_obj.mp hv
      rw [mergeValue_obj_inner old hkeys]
      exact unique_deepMerge_of (unique_inner hold) fun e he =>
        ih e he (uniqueEntries_iff.mp hvalues e he)

theorem unique_deepMerge {base extra : Entries Num} (hbase : Unique (obj base))
    (hextra : Unique (obj extra)) : Unique (obj (deepMerge base extra)) :=
  unique_deepMerge_of hbase fun e he =>
    unique_mergeValue (uniqueEntries_iff.mp (unique_obj.mp hextra).2 e he)

/-! ## §3 Merging again -/

/-- Entries that change nothing when they are merged again do so together. -/
theorem deepMerge_again_of {base extra : Entries Num} (hkeys : (extra.map Prod.fst).Nodup)
    (hmerge : ∀ e ∈ extra, ∀ old, mergeValue (some (mergeValue old e.2)) e.2 = mergeValue old e.2) :
    deepMerge (deepMerge base extra) extra = deepMerge base extra := by
  refine (deepMerge_eq_self_iff hkeys).mpr fun k v hv => ?_
  rw [lookup_deepMerge hkeys, hv, Option.map_some, Option.some_or]
  exact congrArg some (hmerge (k, v) (Dict.mem_of_lookup hv) _).symm

theorem mergeValue_again {v : Json Num} (hv : Unique v) :
    ∀ old : Option (Json Num), mergeValue (some (mergeValue old v)) v = mergeValue old v := by
  induction v using objInduction with
  | leaf v hleaf =>
      intro old
      rw [mergeValue_of_not_obj _ hleaf, mergeValue_of_not_obj _ hleaf]
  | node entries ih =>
      intro old
      obtain ⟨hkeys, hvalues⟩ := unique_obj.mp hv
      rw [mergeValue_obj_inner old hkeys, mergeValue_obj, deepMerge_again_of hkeys fun e he =>
        ih e he (uniqueEntries_iff.mp hvalues e he)]

/-- **Merging the same entries again** changes nothing. -/
theorem deepMerge_again {base extra : Entries Num} (hextra : Unique (obj extra)) :
    deepMerge (deepMerge base extra) extra = deepMerge base extra :=
  deepMerge_again_of (unique_obj.mp hextra).1 fun e he =>
    mergeValue_again (uniqueEntries_iff.mp (unique_obj.mp hextra).2 e he)

/-! ## §4 What stands at a path -/

/-- The tree has something that is no object on the way to the end of the path. -/
def Cuts (v : Json Num) (p : List String) : Prop :=
  ∃ q r w, p = q ++ r ∧ r ≠ [] ∧ get q v = some w ∧ isObj w = false

theorem get_of_cuts {v : Json Num} {p : List String} (h : Cuts v p) : get p v = none := by
  obtain ⟨q, r, w, rfl, hr, hq, hw⟩ := h
  induction q generalizing v with
  | nil =>
      obtain rfl : v = w := Option.some.inj hq
      obtain ⟨k, r, rfl⟩ := List.exists_cons_of_ne_nil hr
      cases v with
      | obj entries => cases hw
      | null | bool | num | str | list => rfl
  | cons k q ih =>
      cases v with
      | obj entries =>
          rw [get_cons] at hq
          obtain ⟨u, hu, hq⟩ := Option.bind_eq_some_iff.mp hq
          rw [List.cons_append, get_cons, hu]
          exact ih hq
      | null | bool | num | str | list => cases hq

theorem cuts_cons {k : String} {p : List String} {entries : Entries Num} :
    Cuts (obj entries) (k :: p) ↔ ∃ v, Dict.lookup k entries = some v ∧ Cuts v p := by
  constructor
  · rintro ⟨q, r, w, hp, hr, hq, hw⟩
    cases q with
    | nil =>
        cases hq
        cases hw
    | cons k' q =>
        rw [List.cons_append, List.cons.injEq] at hp
        obtain ⟨rfl, rfl⟩ := hp
        rw [get_cons] at hq
        obtain ⟨v, hv, hq⟩ := Option.bind_eq_some_iff.mp hq
        exact ⟨v, hv, q, r, w, rfl, hr, hq, hw⟩
  · rintro ⟨v, hv, q, r, w, rfl, hr, hq, hw⟩
    refine ⟨k :: q, r, w, rfl, hr, ?_, hw⟩
    rw [get_cons, hv]
    exact hq

theorem cuts_of_not_obj {v : Json Num} (h : isObj v = false) (k : String) (p : List String) :
    Cuts v (k :: p) :=
  ⟨[], k :: p, v, rfl, List.cons_ne_nil _ _, rfl, h⟩

/-- Where the overriding tree has a value, it goes into what the base has there. -/
theorem get_mergeValue_some {p : List String} {v w : Json Num} (hv : Unique v)
    (h : get p v = some w) (old : Option (Json Num)) :
    get p (mergeValue old v) = some (mergeValue (old.bind (get p)) w) := by
  induction p generalizing v old with
  | nil =>
      cases h
      cases old <;> rfl
  | cons k p ih =>
      cases v with
      | obj entries =>
          rw [get_cons] at h
          obtain ⟨u, hu, h⟩ := Option.bind_eq_some_iff.mp h
          obtain ⟨hkeys, -⟩ := unique_obj.mp hv
          rw [mergeValue_obj_inner old hkeys, get_cons, lookup_deepMerge hkeys, hu, Option.map_some,
            Option.some_or, Option.bind_some, ih (hv.lookup hu) h,
            bind_get_inner old (List.cons_ne_nil k p), get_cons]
      | null | bool | num | str | list => cases h

/-- Where it has none, the base shows, unless something is across the path. -/
theorem get_mergeValue_none {p : List String} {v : Json Num} (hv : Unique v) (h : get p v = none)
    (hcuts : ¬ Cuts v p) (old : Option (Json Num)) :
    get p (mergeValue old v) = old.bind (get p) := by
  induction p generalizing v old with
  | nil => cases h
  | cons k p ih =>
      cases v with
      | obj entries =>
          rw [get_cons] at h
          obtain ⟨hkeys, -⟩ := unique_obj.mp hv
          rw [mergeValue_obj_inner old hkeys, get_cons, lookup_deepMerge hkeys,
            bind_get_inner old (List.cons_ne_nil k p), get_cons]
          cases hu : Dict.lookup k entries with
          | none => rfl
          | some u =>
              rw [hu, Option.bind_some] at h
              rw [Option.map_some, Option.some_or, Option.bind_some]
              exact ih (hv.lookup hu) h (fun hcut => hcuts (cuts_cons.mpr ⟨u, hu, hcut⟩)) _
      | null | bool | num | str | list => exact absurd (cuts_of_not_obj rfl k p) hcuts

theorem get_mergeValue_cuts {p : List String} {v : Json Num} (hv : Unique v) (hcuts : Cuts v p)
    (old : Option (Json Num)) : get p (mergeValue old v) = none := by
  obtain ⟨q, r, w, hp, hr, hq, hw⟩ := hcuts
  refine get_of_cuts ⟨q, r, w, hp, hr, ?_, hw⟩
  rw [get_mergeValue_some hv hq, mergeValue_of_not_obj _ hw]

end NetPulse.Lib.Json
