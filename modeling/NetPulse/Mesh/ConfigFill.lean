import NetPulse.Lib.JsonMerge

/-
# NetPulse.Mesh.ConfigFill — `_deep_fill` (`internal_modules/config.py`)

`_deep_fill` puts the defaults into a configuration that was read, key by key: what is missing is
added, a section of the defaults takes the place of whatever is no section, and sections are filled in
the same way. It returns the paths at which it has put something, written with dots.

The values are `fillWith` of the defaults and of what was there (`lookup_deep_fill`), the paths are
`additions` (`deep_fill_paths`), and both are then described path by path: `get_fill_default`,
`get_fill_user` and `mem_additions`.
-/

namespace NetPulse.Mesh.NodeConfig

open NetPulse.Lib NetPulse.Lib.Json

variable {Num : Type}

/-! ## §1 The function -/

/-- `f'{prefix}.{key}' if prefix else key` -/
def pathOf (above key : String) : String := if above ≠ "" then above ++ "." ++ key else key

mutual

/-- What becomes of one key, and the paths that are added below it. -/
def fillValue (dval : Json Num) (cur : Option (Json Num)) (path : String) : Json Num × List String :=
  match dval with
  | .obj defaults =>
      match cur with
      | some (.obj target) =>
          let r := deep_fill target defaults path
          (.obj r.1, r.2)
      | _ => (.obj defaults, [path])
  | .null => (cur.getD .null, if cur.isNone then [path] else [])
  | .bool b => (cur.getD (.bool b), if cur.isNone then [path] else [])
  | .num n => (cur.getD (.num n), if cur.isNone then [path] else [])
  | .str s => (cur.getD (.str s), if cur.isNone then [path] else [])
  | .list items => (cur.getD (.list items), if cur.isNone then [path] else [])

/-- `_deep_fill(target, defaults, prefix)`: the target afterwards, and what is returned. -/
def deep_fill (target : Entries Num) (defaults : Entries Num) (above : String) :
    Entries Num × List String :=
  match defaults with
  | [] => (target, [])
  | (key, dval) :: rest =>
      let r := fillValue dval (Dict.lookup key target) (pathOf above key)
      let s := deep_fill (Dict.assign key r.1 target) rest above
      (s.1, r.2 ++ s.2)

end

theorem fillValue_leaf {dval : Json Num} (h : isObj dval = false) (cur : Option (Json Num))
    (path : String) :
    fillValue dval cur path = (cur.getD dval, if cur.isNone then [path] else []) := by
  cases dval with
  | obj defaults => cases h
  | null | bool | num | str | list => rw [fillValue]

theorem fillValue_section (target defaults : Entries Num) (path : String) :
    fillValue (.obj defaults) (some (.obj target)) path =
      (.obj (deep_fill target defaults path).1, (deep_fill target defaults path).2) := by
  rw [fillValue]

/-- A section of the defaults, where no section is. -/
theorem fillValue_replaced {cur : Option (Json Num)} (h : cur.any isObj = false)
    (defaults : Entries Num) (path : String) :
    fillValue (.obj defaults) cur path = (.obj defaults, [path]) := by
  rw [fillValue]
  intro target heq
  rw [heq] at h
  cases h

/-! ## §2 The values -/

/-- What a key has afterwards. -/
def fillWith (cur : Option (Json Num)) (dval : Json Num) : Json Num := (fillValue dval cur "").1

theorem deep_fill_value (target defaults : Entries Num) (above : String)
    (h : ∀ e ∈ defaults, ∀ cur path, (fillValue e.2 cur path).1 = fillWith cur e.2) :
    (deep_fill target defaults above).1 = Dict.writeOver fillWith target defaults := by
  induction defaults generalizing target with
  | nil => rw [deep_fill, Dict.writeOver]
  | cons e rest ih =>
      obtain ⟨key, dval⟩ := e
      rw [deep_fill, Dict.writeOver]
      dsimp only
      rw [h (key, dval) List.mem_cons_self]
      exact ih _ fun e he => h e (List.mem_cons_of_mem _ he)

/-- The value does not depend on how the path is written. -/
theorem fillValue_value (dval : Json Num) :
    ∀ (cur : Option (Json Num)) (path : String), (fillValue dval cur path).1 = fillWith cur dval := by
  induction dval using objInduction with
  | leaf v hleaf =>
      intro cur path
      rw [fillWith, fillValue_leaf hleaf, fillValue_leaf hleaf]
  | node defaults ih =>
      intro cur path
      unfold fillWith
      by_cases hcur : cur.any isObj = true
      · obtain ⟨v, rfl, hv⟩ := (Option.any_eq_true _ _).mp hcur
        cases v with
        | obj target =>
            rw [fillValue_section, fillValue_section]
            show Json.obj _ = Json.obj _
            rw [deep_fill_value target defaults path ih, deep_fill_value target defaults "" ih]
        | null | bool | num | str | list => cases hv
      · rw [Bool.not_eq_true] at hcur
        rw [fillValue_replaced hcur, fillValue_replaced hcur]

theorem deep_fill_fst (target defaults : Entries Num) (above : String) :
    (deep_fill target defaults above).1 = Dict.writeOver fillWith target defaults :=
  deep_fill_value target defaults above fun e _ => fillValue_value e.2

/-- The target after the filling. -/
def filled (target defaults : Entries Num) : Entries Num := (deep_fill target defaults "").1

theorem deep_fill_filled (target defaults : Entries Num) (above : String) :
    (deep_fill target defaults above).1 = filled target defaults := by
  rw [filled, deep_fill_fst, deep_fill_fst]

theorem fillWith_leaf {dval : Json Num} (h : isObj dval = false) (cur : Option (Json Num)) :
    fillWith cur dval = cur.getD dval := by
  rw [fillWith, fillValue_leaf h]

theorem fillWith_section (target defaults : Entries Num) :
    fillWith (some (.obj target)) (.obj defaults) = .obj (filled target defaults) := by
  rw [fillWith, fillValue_section, filled]

theorem fillWith_replaced {cur : Option (Json Num)} (h : cur.any isObj = false)
    (defaults : Entries Num) : fillWith cur (.obj defaults) = .obj defaults := by
  rw [fillWith, fillValue_replaced h]

/-- A default is what filling makes of nothing. -/
theorem fillWith_none (dval : Json Num) : fillWith none dval = dval := by
  cases dval with
  | obj entries => exact fillWith_replaced rfl entries
  | null | bool | num | str | list => exact fillWith_leaf rfl none

/-- **What each key has after the filling.** -/
theorem lookup_filled {target defaults : Entries Num} (h : (defaults.map Prod.fst).Nodup)
    (k : String) : Dict.lookup k (filled target defaults) =
      ((Dict.lookup k defaults).map (fillWith (Dict.lookup k target))).or
        (Dict.lookup k target) := by
  rw [filled, deep_fill_fst]
  exact Dict.lookup_writeOver h k

theorem lookup_filled_some {target defaults : Entries Num} (h : (defaults.map Prod.fst).Nodup)
    {k : String} {dval : Json Num} (hk : Dict.lookup k defaults = some dval) :
    Dict.lookup k (filled target defaults) = some (fillWith (Dict.lookup k target) dval) := by
  rw [lookup_filled h, hk, Option.map_some, Option.some_or]

theorem lookup_filled_none {target defaults : Entries Num} (h : (defaults.map Prod.fst).Nodup)
    {k : String} (hk : Dict.lookup k defaults = none) :
    Dict.lookup k (filled target defaults) = Dict.lookup k target := by
  rw [lookup_filled h, hk, Option.map_none, Option.none_or]

/-! ## §3 The paths -/

mutual

/-- Where something is put, as keys from here on. -/
def additions (dval : Json Num) (cur : Option (Json Num)) : List (List String) :=
  match dval with
  | .obj defaults =>
      match cur with
      | some (.obj target) => additionsIn target defaults
      | _ => [[]]
  | .null | .bool _ | .num _ | .str _ | .list _ => if cur.isNone then [[]] else []

def additionsIn (target : Entries Num) (defaults : Entries Num) : List (List String) :=
  match defaults with
  | [] => []
  | (key, dval) :: rest =>
      (additions dval (Dict.lookup key target)).map (key :: ·) ++ additionsIn target rest

end

theorem additions_leaf {dval : Json Num} (h : isObj dval = false) (cur : Option (Json Num)) :
    additions dval cur = if cur.isNone then [[]] else [] := by
  cases dval with
  | obj defaults => cases h
  | null | bool | num | str | list => rw [additions]

theorem additions_section (target defaults : Entries Num) :
    additions (.obj defaults) (some (.obj target)) = additionsIn target defaults := by
  rw [additions]

theorem additions_replaced {cur : Option (Json Num)} (h : cur.any isObj = false)
    (defaults : Entries Num) : additions (.obj defaults) cur = [[]] := by
  rw [additions]
  intro target heq
  rw [heq] at h
  cases h

/-- A path behind another one, with dots. -/
def dotted (above : String) (p : List String) : String := p.foldl pathOf above

/-- A step of the loop does not change what later keys find. -/
theorem additionsIn_assign {target : Entries Num} {key : String} (v : Json Num)
    {defaults : Entries Num} (h : key ∉ defaults.map Prod.fst) :
    additionsIn (Dict.assign key v target) defaults = additionsIn target defaults := by
  induction defaults with
  | nil => rw [additionsIn, additionsIn]
  | cons e rest ih =>
      obtain ⟨k, dval⟩ := e
      rw [List.map_cons, List.mem_cons, not_or] at h
      rw [additionsIn, additionsIn, ih h.2, Dict.lookup_assign, if_neg (Ne.symm h.1)]

theorem deep_fill_paths_of {defaults : Entries Num} (hkeys : (defaults.map Prod.fst).Nodup)
    (h : ∀ e ∈ defaults, ∀ cur path,
      (fillValue e.2 cur path).2 = (additions e.2 cur).map (dotted path))
    (target : Entries Num) (above : String) :
    (deep_fill target defaults above).2 = (additionsIn target defaults).map (dotted above) := by
  induction defaults generalizing target with
  | nil =>
      rw [deep_fill, additionsIn]
      rfl
  | cons e rest ih =>
      obtain ⟨key, dval⟩ := e
      rw [List.map_cons, List.nodup_cons] at hkeys
      rw [deep_fill, additionsIn]
      dsimp only
      rw [h (key, dval) List.mem_cons_self, ih hkeys.2 fun e he => h e (List.mem_cons_of_mem _ he),
        additionsIn_assign _ hkeys.1, List.map_append, List.map_map]
      rfl

theorem fillValue_paths {dval : Json Num} (hd : Json.Unique dval) :
    ∀ (cur : Option (Json Num)) (path : String),
      (fillValue dval cur path).2 = (additions dval cur).map (dotted path) := by
  induction dval using objInduction with
  | leaf v hleaf =>
      intro cur path
      rw [fillValue_leaf hleaf, additions_leaf hleaf]
      cases cur <;> rfl
  | node defaults ih =>
      intro cur path
      obtain ⟨hkeys, hvalues⟩ := unique_obj.mp hd
      by_cases hcur : cur.any isObj = true
      · obtain ⟨v, rfl, hv⟩ := (Option.any_eq_true _ _).mp hcur
        cases v with
        | obj target =>
            rw [fillValue_section, additions_section]
            exact deep_fill_paths_of hkeys
              (fun e he => ih e he (uniqueEntries_iff.mp hvalues e he)) target path
        | null | bool | num | str | list => cases hv
      · rw [Bool.not_eq_true] at hcur
        rw [fillValue_replaced hcur, additions_replaced hcur]
        rfl

/-- **What is returned** are the additions, written with dots. -/
theorem deep_fill_paths {defaults : Entries Num} (hd : Json.Unique (.obj defaults))
    (target : Entries Num) (above : String) :
    (deep_fill target defaults above).2 = (additionsIn target defaults).map (dotted above) := by
  obtain ⟨hkeys, hvalues⟩ := unique_obj.mp hd
  exact deep_fill_paths_of hkeys (fun e he => fillValue_paths (uniqueEntries_iff.mp hvalues e he))
    target above

/-! ## §4 Path by path -/

/-- Something is put at the path and not above it: it is missing, or a section goes where there is
none. -/
def Added (dval : Json Num) (cur : Option (Json Num)) (p : List String) : Prop :=
  ∃ d, get p dval = some d ∧ (p = [] ∨ (cur.bind (get p.dropLast)).any isObj = true) ∧
    (cur.bind (get p) = none ∨ isObj d = true ∧ (cur.bind (get p)).any isObj = false)

theorem added_nil {dval : Json Num} {cur : Option (Json Num)} :
    Added dval cur [] ↔ cur = none ∨ isObj dval = true ∧ cur.any isObj = false := by
  have hget : cur.bind (get []) = cur := by cases cur <;> rfl
  unfold Added
  rw [hget]
  constructor
  · rintro ⟨d, hd, -, h⟩
    rwa [← Option.some.inj hd] at h
  · exact fun h => ⟨dval, rfl, .inl rfl, h⟩

theorem added_cons {defaults target : Entries Num} {k : String} {q : List String} :
    Added (.obj defaults) (some (.obj target)) (k :: q) ↔
      ∃ d, Dict.lookup k defaults = some d ∧ Added d (Dict.lookup k target) q := by
  have hparent : (k :: q = [] ∨
      ((some (.obj target) : Option (Json Num)).bind (get (k :: q).dropLast)).any isObj = true) ↔
      (q = [] ∨ ((Dict.lookup k target).bind (get q.dropLast)).any isObj = true) := by
    cases q with
    | nil => exact iff_of_true (.inr rfl) (.inl rfl)
    | cons k' q =>
        rw [List.dropLast_cons_of_ne_nil (List.cons_ne_nil _ _), Option.bind_some, get_cons]
        exact or_congr (iff_of_false (List.cons_ne_nil _ _) (List.cons_ne_nil _ _)) Iff.rfl
  unfold Added
  rw [hparent, get_cons, Option.bind_some, get_cons]
  constructor
  · rintro ⟨d, hd, hrest⟩
    obtain ⟨u, hu, hd⟩ := Option.bind_eq_some_iff.mp hd
    exact ⟨u, hu, d, hd, hrest⟩
  · rintro ⟨u, hu, d, hd, hrest⟩
    exact ⟨d, Option.bind_eq_some_iff.mpr ⟨u, hu, hd⟩, hrest⟩

/-- Below something that is no section nothing is added. -/
theorem not_added_cons {dval : Json Num} {cur : Option (Json Num)} (h : cur.any isObj = false)
    (k : String) (q : List String) : ¬ Added dval cur (k :: q) := by
  rintro ⟨d, -, hparent | hparent, -⟩
  · cases hparent
  · cases cur with
    | none => cases hparent
    | some v =>
        cases q with
        | nil =>
            rw [show (k :: ([] : List String)).dropLast = [] from rfl] at hparent
            exact absurd (hparent.symm.trans h) Bool.true_eq_false.mp
        | cons k' q =>
            rw [List.dropLast_cons_of_ne_nil (List.cons_ne_nil _ _)] at hparent
            cases v with
            | obj entries => cases h
            | null | bool | num | str | list => cases hparent

theorem mem_additionsIn {target defaults : Entries Num} (hkeys : (defaults.map Prod.fst).Nodup)
    {p : List String} : p ∈ additionsIn target defaults ↔
      ∃ k q d, p = k :: q ∧ Dict.lookup k defaults = some d ∧
        q ∈ additions d (Dict.lookup k target) := by
  have hmem : p ∈ additionsIn target defaults ↔
      ∃ e ∈ defaults, ∃ q ∈ additions e.2 (Dict.lookup e.1 target), e.1 :: q = p := by
    clear hkeys
    induction defaults with
    | nil =>
        rw [additionsIn]
        exact iff_of_false List.not_mem_nil fun h => by
          obtain ⟨e, he, -⟩ := h
          exact List.not_mem_nil he
    | cons e rest ih =>
        obtain ⟨key, dval⟩ := e
        rw [additionsIn, List.mem_append, List.mem_map, ih]
        simp only [List.mem_cons, exists_eq_or_imp]
  rw [hmem]
  constructor
  · rintro ⟨⟨k, d⟩, he, q, hq, rfl⟩
    exact ⟨k, q, d, rfl, Dict.lookup_of_mem hkeys he, hq⟩
  · rintro ⟨k, q, d, rfl, hd, hq⟩
    exact ⟨(k, d), Dict.mem_of_lookup hd, q, hq, rfl⟩

/-- **The additions** are the paths at which something is put and not above them. -/
theorem mem_additions {dval : Json Num} (hd : Json.Unique dval) :
    ∀ (cur : Option (Json Num)) (p : List String), p ∈ additions dval cur ↔ Added dval cur p := by
  induction dval using objInduction with
  | leaf v hleaf =>
      intro cur p
      rw [additions_leaf hleaf]
      cases p with
      | nil =>
          rw [added_nil, hleaf]
          cases cur <;> simp
      | cons k q =>
          refine iff_of_false (fun h => ?_) fun h => ?_
          · split at h
            · exact absurd (List.mem_singleton.mp h) (List.cons_ne_nil _ _)
            · exact List.not_mem_nil h
          · obtain ⟨d, hd, -⟩ := h
            cases v with
            | obj entries => cases hleaf
            | null | bool | num | str | list => cases hd
  | node defaults ih =>
      intro cur p
      obtain ⟨hkeys, hvalues⟩ := unique_obj.mp hd
      by_cases hcur : cur.any isObj = true
      · obtain ⟨v, rfl, hv⟩ := (Option.any_eq_true _ _).mp hcur
        cases v with
        | obj target =>
            rw [additions_section, mem_additionsIn hkeys]
            cases p with
            | nil =>
                rw [added_nil]
                simp [isObj]
            | cons k q =>
                rw [added_cons]
                constructor
                · rintro ⟨k', q', d, heq, hlookup, hq⟩
                  cases heq
                  have hmem := Dict.mem_of_lookup hlookup
                  exact ⟨d, hlookup,
                    (ih (k, d) hmem (uniqueEntries_iff.mp hvalues _ hmem) _ _).mp hq⟩
                · rintro ⟨d, hlookup, hq⟩
                  have hmem := Dict.mem_of_lookup hlookup
                  exact ⟨k, q, d, rfl, hlookup,
                    (ih (k, d) hmem (uniqueEntries_iff.mp hvalues _ hmem) _ _).mpr hq⟩
        | null | bool | num | str | list => cases hv
      · rw [Bool.not_eq_true] at hcur
        rw [additions_replaced hcur, List.mem_singleton]
        cases p with
        | nil =>
            rw [added_nil]
            exact iff_of_true rfl (.inr ⟨rfl, hcur⟩)
        | cons k q => exact iff_of_false (List.cons_ne_nil _ _) (not_added_cons hcur k q)

theorem nodup_additionsIn_of {defaults : Entries Num} (hkeys : (defaults.map Prod.fst).Nodup)
    (h : ∀ e ∈ defaults, ∀ cur, (additions e.2 cur).Nodup) (target : Entries Num) :
    (additionsIn target defaults).Nodup := by
  induction defaults with
  | nil =>
      rw [additionsIn]
      exact List.nodup_nil
  | cons e rest ih =>
      obtain ⟨key, dval⟩ := e
      rw [List.map_cons, List.nodup_cons] at hkeys
      rw [additionsIn]
      refine List.Nodup.append ?_ (ih hkeys.2 fun e he => h e (List.mem_cons_of_mem _ he)) ?_
      · exact (h (key, dval) List.mem_cons_self _).map fun p q hpq => (List.cons.inj hpq).2
      · -- the paths of other keys begin differently
        intro p hp hrest
        obtain ⟨q, -, rfl⟩ := List.mem_map.mp hp
        obtain ⟨k, q', d, heq, hd, -⟩ := (mem_additionsIn hkeys.2).mp hrest
        obtain ⟨rfl, -⟩ := List.cons.inj heq
        have hmem : key ∈ rest.map Prod.fst :=
          List.mem_map.mpr ⟨(key, d), Dict.mem_of_lookup hd, rfl⟩
        exact hkeys.1 hmem

theorem nodup_additions {dval : Json Num} (hd : Json.Unique dval) :
    ∀ cur : Option (Json Num), (additions dval cur).Nodup := by
  induction dval using objInduction with
  | leaf v hleaf =>
      intro cur
      rw [additions_leaf hleaf]
      split
      · exact List.nodup_singleton _
      · exact List.nodup_nil
  | node defaults ih =>
      intro cur
      obtain ⟨hkeys, hvalues⟩ := unique_obj.mp hd
      by_cases hcur : cur.any isObj = true
      · obtain ⟨v, rfl, hv⟩ := (Option.any_eq_true _ _).mp hcur
        cases v with
        | obj target =>
            rw [additions_section]
            exact nodup_additionsIn_of hkeys
              (fun e he => ih e he (uniqueEntries_iff.mp hvalues e he)) target
        | null | bool | num | str | list => cases hv
      · rw [Bool.not_eq_true] at hcur
        rw [additions_replaced hcur]
        exact List.nodup_singleton _

/-- **Every path of the defaults** is there afterwards. -/
theorem get_fill_default {p : List String} {dval d : Json Num} (hd : Json.Unique dval)
    (h : get p dval = some d) (cur : Option (Json Num)) :
    (get p (fillWith cur dval)).isSome = true := by
  induction p generalizing dval cur with
  | nil => rfl
  | cons k q ih =>
      cases dval with
      | obj defaults =>
          by_cases hcur : cur.any isObj = true
          · obtain ⟨v, rfl, hv⟩ := (Option.any_eq_true _ _).mp hcur
            cases v with
            | obj target =>
                rw [get_cons] at h
                obtain ⟨u, hu, h⟩ := Option.bind_eq_some_iff.mp h
                rw [fillWith_section, get_cons, lookup_filled_some (unique_obj.mp hd).1 hu]
                exact ih (hd.lookup hu) h _
            | null | bool | num | str | list => cases hv
          · rw [Bool.not_eq_true] at hcur
            rw [fillWith_replaced hcur, h]
            rfl
      | null | bool | num | str | list => cases h

/-- **What the user has** stays, but for what stands where a section goes. -/
theorem get_fill_user {p : List String} {dval v : Json Num} (hd : Json.Unique dval)
    {cur : Option (Json Num)} (hv : cur.bind (get p) = some v)
    (h : (get p dval).any isObj = false) : get p (fillWith cur dval) = some v := by
  induction p generalizing dval cur with
  | nil =>
      have hcur : cur = some v := by
        rw [← hv]
        cases cur <;> rfl
      rw [fillWith_leaf h, hcur]
      rfl
  | cons k q ih =>
      obtain ⟨c, rfl, hc⟩ := Option.bind_eq_some_iff.mp hv
      cases c with
      | obj target =>
          cases dval with
          | obj defaults =>
              rw [get_cons] at h hc
              rw [fillWith_section, get_cons]
              cases hu : Dict.lookup k defaults with
              | none => rw [lookup_filled_none (unique_obj.mp hd).1 hu, hc]
              | some u =>
                  rw [hu] at h
                  rw [lookup_filled_some (unique_obj.mp hd).1 hu]
                  exact ih (hd.lookup hu) hc h
          | null | bool | num | str | list =>
              rw [fillWith_leaf rfl]
              exact hc
      | null | bool | num | str | list => cases hc

/-! ## §5 Filling again -/

theorem additionsIn_eq_nil {target defaults : Entries Num} :
    additionsIn target defaults = [] ↔
      ∀ e ∈ defaults, additions e.2 (Dict.lookup e.1 target) = [] := by
  induction defaults with
  | nil =>
      rw [additionsIn]
      exact iff_of_true rfl fun e he => absurd he List.not_mem_nil
  | cons e rest ih =>
      obtain ⟨key, dval⟩ := e
      rw [additionsIn, List.append_eq_nil_iff, List.map_eq_nil_iff, ih, List.forall_mem_cons]

/-- There is nothing to add to what has been filled. -/
theorem additions_filled {dval : Json Num} (hd : Json.Unique dval) :
    ∀ cur : Option (Json Num), additions dval (some (fillWith cur dval)) = [] := by
  induction dval using objInduction with
  | leaf v hleaf =>
      intro cur
      rw [additions_leaf hleaf]
      rfl
  | node defaults ih =>
      intro cur
      obtain ⟨hkeys, hvalues⟩ := unique_obj.mp hd
      have hself : ∀ e ∈ defaults, ∀ cur, additions e.2 (some (fillWith cur e.2)) = [] :=
        fun e he => ih e he (uniqueEntries_iff.mp hvalues e he)
      by_cases hcur : cur.any isObj = true
      · obtain ⟨v, rfl, hv⟩ := (Option.any_eq_true _ _).mp hcur
        cases v with
        | obj target =>
            rw [fillWith_section, additions_section, additionsIn_eq_nil]
            intro e he
            rw [lookup_filled_some hkeys (Dict.lookup_of_mem hkeys he)]
            exact hself e he _
        | null | bool | num | str | list => cases hv
      · rw [Bool.not_eq_true] at hcur
        rw [fillWith_replaced hcur, additions_section, additionsIn_eq_nil]
        intro e he
        rw [Dict.lookup_of_mem hkeys he]
        have hnil := hself e he none
        rwa [fillWith_none] at hnil

/-- Where nothing is added, nothing changes. -/
theorem fillWith_of_additions {dval : Json Num} (hd : Json.Unique dval) :
    ∀ v : Json Num, additions dval (some v) = [] → fillWith (some v) dval = v := by
  induction dval using objInduction with
  | leaf w hleaf =>
      intro v _
      rw [fillWith_leaf hleaf]
      rfl
  | node defaults ih =>
      intro v h
      obtain ⟨hkeys, hvalues⟩ := unique_obj.mp hd
      cases v with
      | obj target =>
          rw [additions_section, additionsIn_eq_nil] at h
          rw [fillWith_section, filled, deep_fill_fst, (Dict.writeOver_eq_self_iff hkeys).mpr]
          intro k d hk
          have hmem := Dict.mem_of_lookup hk
          have hnil := h (k, d) hmem
          dsimp only at hnil
          cases hlookup : Dict.lookup k target with
          | none =>
              -- a missing key is an addition
              rw [hlookup] at hnil
              cases hobj : isObj d with
              | false =>
                  rw [additions_leaf hobj] at hnil
                  cases hnil
              | true =>
                  cases d with
                  | obj entries =>
                      rw [additions_replaced rfl] at hnil
                      cases hnil
                  | null | bool | num | str | list => cases hobj
          | some u =>
              rw [hlookup] at hnil
              rw [ih (k, d) hmem (uniqueEntries_iff.mp hvalues _ hmem) u hnil]
      | null | bool | num | str | list =>
          rw [additions_replaced rfl] at h
          cases h

/-- **Filling again** changes nothing and returns nothing. -/
theorem deep_fill_again {defaults : Entries Num} (hd : Json.Unique (.obj defaults))
    (target : Entries Num) (above above' : String) :
    deep_fill (deep_fill target defaults above).1 defaults above' =
      ((deep_fill target defaults above).1, []) := by
  have hnil : additions (.obj defaults) (some (.obj (filled target defaults))) = [] := by
    rw [← fillWith_section]
    exact additions_filled hd _
  have hsame : Json.obj (filled (filled target defaults) defaults) =
      .obj (filled target defaults) := by
    rw [← fillWith_section]
    exact fillWith_of_additions hd _ hnil
  rw [additions_section] at hnil
  rw [deep_fill_filled]
  refine Prod.ext ?_ ?_
  · rw [deep_fill_filled]
    exact Json.obj.inj hsame
  · rw [deep_fill_paths hd, hnil]
    rfl

end NetPulse.Mesh.NodeConfig
