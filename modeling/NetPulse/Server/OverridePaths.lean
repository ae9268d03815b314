import NetPulse.Server.Overrides

/-
# NetPulse.Server.OverridePaths — what a variable does at its path

The loop over the variables comes to the path of a name in one of three states (`spot`): something
that is no object is in its way, an object is at its end, or it is free. Only in the last it writes
(`put_free`), and what it writes is `Written`, step by step down the path.

Through the merge and the checks that follow, a value that was written stays at its path
(`Written.merge_value`, `finish_value`), and beside the path nothing changes (`Written.merge_agree`,
`finish_agree`).
-/

namespace NetPulse.Server.Config

open NetPulse.Lib NetPulse.Lib.Json

variable {Num : Type}

/-! ## §1 Where a value goes -/

/-- What the loop finds at a path. -/
inductive Spot where
  /-- Something that is no object, in the way. -/
  | blocked
  /-- An object, at the end. -/
  | taken
  | free
  deriving DecidableEq

/-- `node.setdefault(key, {})`, if it is an object. -/
def setdefault : Option (Json Num) → Option (Entries Num)
  | none => some []
  | some (.obj node) => some node
  | some _ => none

def spot : List String → Entries Num → Spot
  | [], _ => .taken
  | [key], out => if (Dict.lookup key out).any isObj then .taken else .free
  | key :: rest, out =>
      match setdefault (Dict.lookup key out) with
      | none => .blocked
      | some node => spot rest node

theorem put_one (v : Json Num) (key : String) (out : Entries Num) :
    put v [key] out =
      if (Dict.lookup key out).any isObj then some out else some (Dict.assign key v out) := by
  rw [put]
  cases Dict.lookup key out with
  | none => rfl
  | some old => cases old <;> rfl

theorem put_cons (v : Json Num) (key : String) {rest : List String} (hrest : rest ≠ [])
    (out : Entries Num) :
    put v (key :: rest) out = (setdefault (Dict.lookup key out)).bind fun node =>
      (put v rest node).map fun node => Dict.assign key (.obj node) out := by
  obtain ⟨key', rest, rfl⟩ := List.exists_cons_of_ne_nil hrest
  rw [put]
  · cases Dict.lookup key out with
    | none => rfl
    | some old => cases old <;> rfl
  · exact fun h => hrest h

theorem spot_cons (key : String) {rest : List String} (hrest : rest ≠ []) (out : Entries Num) :
    spot (key :: rest) out = (setdefault (Dict.lookup key out)).elim .blocked (spot rest) := by
  obtain ⟨key', rest, rfl⟩ := List.exists_cons_of_ne_nil hrest
  rw [spot]
  · cases setdefault (Dict.lookup key out) <;> rfl
  · exact fun h => hrest h

/-- What stands there when the value has been written. -/
inductive Written (v : Json Num) : List String → Entries Num → Entries Num → Prop
  | last {key out} (h : (Dict.lookup key out).any isObj = false) :
      Written v [key] out (Dict.assign key v out)
  | step {key rest out node node'} (h : setdefault (Dict.lookup key out) = some node)
      (below : Written v rest node node') :
      Written v (key :: rest) out (Dict.assign key (.obj node') out)

theorem Written.ne_nil {v : Json Num} {p : List String} {out out' : Entries Num}
    (h : Written v p out out') : p ≠ [] := by
  cases h <;> exact List.cons_ne_nil _ _

theorem put_blocked (v : Json Num) {p : List String} {out : Entries Num}
    (h : spot p out = .blocked) : put v p out = none := by
  induction p generalizing out with
  | nil => cases h
  | cons key rest ih =>
      by_cases hrest : rest = []
      · subst hrest
        rw [spot] at h
        split at h <;> cases h
      · rw [spot_cons key hrest] at h
        rw [put_cons v key hrest]
        cases hnode : setdefault (Dict.lookup key out) with
        | none => rfl
        | some node =>
            rw [hnode] at h
            rw [Option.bind_some, ih h]
            rfl

/-- A path that nothing stands on is free. -/
theorem spot_nil {p : List String} (hp : p ≠ []) : spot p ([] : Entries Num) = .free := by
  induction p with
  | nil => exact absurd rfl hp
  | cons key rest ih =>
      by_cases hrest : rest = []
      · subst hrest
        rfl
      · rw [spot_cons key hrest]
        exact ih hrest

theorem put_taken (v : Json Num) {p : List String} {out : Entries Num}
    (h : spot p out = .taken) : put v p out = some out := by
  induction p generalizing out with
  | nil => rfl
  | cons key rest ih =>
      by_cases hrest : rest = []
      · subst hrest
        rw [spot] at h
        rw [put_one]
        split at h
        · rename_i hobj
          rw [if_pos hobj]
        · cases h
      · rw [spot_cons key hrest] at h
        rw [put_cons v key hrest]
        cases hold : Dict.lookup key out with
        | none =>
            rw [hold] at h
            have hfree : spot rest ([] : Entries Num) = .taken := h
            rw [spot_nil hrest] at hfree
            cases hfree
        | some old =>
            rw [hold] at h
            cases old with
            | obj node =>
                show (put v rest node).map _ = _
                rw [ih h, Option.map_some, Dict.assign_of_lookup hold]
            | _ => cases h

/-- **On a free path** the value is written. -/
theorem put_free (v : Json Num) {p : List String} {out : Entries Num} (h : spot p out = .free) :
    ∃ out', put v p out = some out' ∧ Written v p out out' := by
  induction p generalizing out with
  | nil => cases h
  | cons key rest ih =>
      by_cases hrest : rest = []
      · subst hrest
        rw [spot] at h
        split at h
        · cases h
        · rename_i hobj
          rw [put_one, if_neg hobj]
          exact ⟨_, rfl, .last (Bool.not_eq_true _ ▸ hobj)⟩
      · rw [spot_cons key hrest] at h
        rw [put_cons v key hrest]
        cases hnode : setdefault (Dict.lookup key out) with
        | none =>
            rw [hnode] at h
            cases h
        | some node =>
            rw [hnode] at h
            obtain ⟨node', hput, hwritten⟩ := ih h
            rw [Option.bind_some, hput]
            exact ⟨_, rfl, .step hnode hwritten⟩

/-! ## §2 Keys stay unique -/

theorem uniqueEntries_assign {k : String} {v : Json Num} {l : Entries Num} (hl : UniqueEntries l)
    (hv : Json.Unique v) : UniqueEntries (Dict.assign k v l) := by
  induction l with
  | nil =>
      rw [Dict.assign, UniqueEntries]
      exact ⟨hv, hl⟩
  | cons e rest ih =>
      obtain ⟨k', w⟩ := e
      rw [UniqueEntries] at hl
      rw [Dict.assign]
      split
      · rw [UniqueEntries]
        exact ⟨hv, hl.2⟩
      · rw [UniqueEntries]
        exact ⟨hl.1, ih hl.2⟩

theorem unique_assign {k : String} {v : Json Num} {l : Entries Num} (hl : Json.Unique (.obj l))
    (hv : Json.Unique v) : Json.Unique (.obj (Dict.assign k v l)) := by
  rw [Json.Unique] at hl ⊢
  exact ⟨Dict.nodup_assign hl.1, uniqueEntries_assign hl.2 hv⟩

theorem unique_nil : Json.Unique (.obj ([] : Entries Num)) := by
  rw [Json.Unique, UniqueEntries]
  exact ⟨List.nodup_nil, trivial⟩

theorem unique_setdefault {key : String} {out node : Entries Num} (hout : Json.Unique (.obj out))
    (h : setdefault (Dict.lookup key out) = some node) : Json.Unique (.obj node) := by
  cases hold : Dict.lookup key out with
  | none =>
      rw [hold] at h
      cases h
      exact unique_nil
  | some old =>
      rw [hold] at h
      cases old with
      | obj entries =>
          cases h
          rw [Json.Unique] at hout
          exact hout.2.of_mem (Dict.mem_of_lookup hold)
      | _ => cases h

namespace Written

variable {v : Json Num} {p : List String} {out out' : Entries Num}

theorem unique (h : Written v p out out') (hout : Json.Unique (.obj out)) (hv : Json.Unique v) :
    Json.Unique (.obj out') := by
  induction h with
  | last => exact unique_assign hout hv
  | step hnode _ ih => exact unique_assign hout (ih (unique_setdefault hout hnode))

/-! ## §3 The merge -/

/-- The object below a key, in the merged configuration. -/
theorem get_merged {key : String} {out node : Entries Num} (hout : (out.map Prod.fst).Nodup)
    (hnode : (node.map Prod.fst).Nodup) (h : setdefault (Dict.lookup key out) = some node)
    (cfg : Entries Num) {q : List String} (hq : q ≠ []) :
    (Dict.lookup key (deepMerge cfg out)).bind (get q) =
      get q (.obj (deepMerge (inner (Dict.lookup key cfg)) node)) := by
  rw [lookup_deepMerge hout]
  cases hold : Dict.lookup key out with
  | none =>
      rw [hold] at h
      cases h
      rw [Option.map_none, Option.none_or, deepMerge]
      exact bind_get_inner _ hq
  | some old =>
      rw [hold] at h
      cases old with
      | obj entries =>
          cases h
          rw [Option.map_some, Option.some_or, Option.bind_some, mergeValue_obj_inner _ hnode]
      | _ => cases h

/-- **Beside the path** the merged configurations are the same. -/
theorem merge_agree (h : Written v p out out') (hout : Json.Unique (.obj out))
    (hv : Json.Unique v) (cfg : Entries Num) :
    Agree p (.obj (deepMerge cfg out)) (.obj (deepMerge cfg out')) := by
  induction h generalizing cfg with
  | @last key out hfree =>
      have hkeys := hout
      rw [Json.Unique] at hkeys
      refine agree_obj (fun k' hk => ?_) fun q hq => absurd List.nil_prefix hq.1
      rw [lookup_deepMerge hkeys.1, lookup_deepMerge (Dict.nodup_assign hkeys.1), Dict.lookup_assign,
        if_neg hk]
  | @step key rest out node node' hnode below ih =>
      have hkeys := hout
      rw [Json.Unique] at hkeys
      have huniq := unique_setdefault hout hnode
      have huniq' := below.unique huniq hv
      have hkeys' := huniq'
      rw [Json.Unique] at hkeys'
      refine agree_obj (fun k' hk => ?_) fun q hq => ?_
      · rw [lookup_deepMerge hkeys.1, lookup_deepMerge (Dict.nodup_assign hkeys.1),
          Dict.lookup_assign, if_neg hk]
      · rw [Json.Unique] at huniq
        have hset : setdefault (Dict.lookup key (Dict.assign key (.obj node') out)) = some node' := by
          rw [Dict.lookup_assign, if_pos rfl, setdefault]
        rw [get_merged hkeys.1 huniq.1 hnode cfg hq.ne_nil,
          get_merged (Dict.nodup_assign hkeys.1) hkeys'.1 hset cfg hq.ne_nil]
        exact ih (unique_setdefault hout hnode) _ q hq

/-- **At the path** it is the value, merged into what the configuration had there. -/
theorem merge_value (h : Written v p out out') (hout : Json.Unique (.obj out))
    (hv : Json.Unique v) (cfg : Entries Num) :
    get p (.obj (deepMerge cfg out')) = some (mergeValue (get p (.obj cfg)) v) := by
  induction h generalizing cfg with
  | @last key out hfree =>
      rw [Json.Unique] at hout
      rw [get_key, get_key, lookup_deepMerge (Dict.nodup_assign hout.1), Dict.lookup_assign,
        if_pos rfl]
      rfl
  | @step key rest out node node' hnode below ih =>
      have huniq := unique_setdefault hout hnode
      have huniq' := below.unique huniq hv
      rw [Json.Unique] at hout huniq'
      have hset : setdefault (Dict.lookup key (Dict.assign key (.obj node') out)) = some node' := by
        rw [Dict.lookup_assign, if_pos rfl, setdefault]
      rw [get_cons, get_cons, get_merged (Dict.nodup_assign hout.1) huniq'.1 hset cfg below.ne_nil,
        ih huniq, bind_get_inner _ below.ne_nil]

/-- The first key of a longer path has an object in the merged configuration. -/
theorem merge_head {key : String} {rest : List String} (h : Written v (key :: rest) out out')
    (hrest : rest ≠ []) (hout : Json.Unique (.obj out)) (hv : Json.Unique v) (cfg : Entries Num) :
    (Dict.lookup key (deepMerge cfg out')).any isObj = true := by
  have hkeys := h.unique hout hv
  cases h with
  | last => exact absurd rfl hrest
  | step hnode below =>
      have huniq := below.unique (unique_setdefault hout hnode) hv
      rw [Json.Unique] at hkeys huniq
      rw [lookup_deepMerge hkeys.1, Dict.lookup_assign, if_pos rfl, Option.map_some, Option.some_or,
        mergeValue_obj_inner _ huniq.1]
      rfl

end Written

/-! ## §4 Checks -/

/-- The check looks at one key, and changes no other. -/
structure Local (key : String) (f : Entries Num → Entries Num) : Prop where
  other : ∀ cfg k, k ≠ key → Dict.lookup k (f cfg) = Dict.lookup k cfg
  same : ∀ a b, Dict.lookup key a = Dict.lookup key b → Dict.lookup key (f a) = Dict.lookup key (f b)

abbrev Checks (Num : Type) := List (String × (Entries Num → Entries Num))

def runChecks (checks : Checks Num) (cfg : Entries Num) : Entries Num :=
  checks.foldl (fun cfg check => check.2 cfg) cfg

section Run

variable {checks : Checks Num} (hlocal : ∀ c ∈ checks, Local c.1 c.2)
  (hkeys : (checks.map Prod.fst).Nodup)

include hlocal hkeys

/-- **Each key meets its own check** only. -/
theorem lookup_runChecks (k : String) (cfg : Entries Num) :
    Dict.lookup k (runChecks checks cfg) =
      (Dict.lookup k checks).elim (Dict.lookup k cfg) fun f => Dict.lookup k (f cfg) := by
  induction checks generalizing cfg with
  | nil => rfl
  | cons c rest ih =>
      obtain ⟨key, f⟩ := c
      rw [List.map_cons, List.nodup_cons] at hkeys
      have hf : Local key f := hlocal (key, f) List.mem_cons_self
      have hrest := ih (fun c hc => hlocal c (List.mem_cons_of_mem _ hc)) hkeys.2 (f cfg)
      rw [Dict.lookup]
      refine Eq.trans hrest ?_
      by_cases hk : key = k
      · subst hk
        rw [if_pos rfl, Dict.lookup_eq_none hkeys.1]
        rfl
      · rw [if_neg hk]
        have hcfg : Dict.lookup k (f cfg) = Dict.lookup k cfg := hf.other cfg k (Ne.symm hk)
        cases hg : Dict.lookup k rest with
        | none => exact hcfg
        | some g =>
            have hlocal' := hlocal (k, g) (List.mem_cons_of_mem _ (Dict.mem_of_lookup hg))
            exact hlocal'.same _ _ hcfg

theorem lookup_runChecks_congr {k : String} {a b : Entries Num}
    (h : Dict.lookup k a = Dict.lookup k b) :
    Dict.lookup k (runChecks checks a) = Dict.lookup k (runChecks checks b) := by
  rw [lookup_runChecks hlocal hkeys, lookup_runChecks hlocal hkeys]
  cases hf : Dict.lookup k checks with
  | none => exact h
  | some f => exact (hlocal (k, f) (Dict.mem_of_lookup hf)).same _ _ h

theorem lookup_runChecks_of_not_mem {k : String} (hk : k ∉ checks.map Prod.fst)
    (cfg : Entries Num) : Dict.lookup k (runChecks checks cfg) = Dict.lookup k cfg := by
  rw [lookup_runChecks hlocal hkeys, Dict.lookup_eq_none hk]
  rfl

/-- Checks of other keys keep an agreement. -/
theorem agree_runChecks {k : String} {p : List String} (hk : k ∉ checks.map Prod.fst)
    {a b : Entries Num} (h : Agree (k :: p) (.obj a) (.obj b)) :
    Agree (k :: p) (.obj (runChecks checks a)) (.obj (runChecks checks b)) := by
  refine agree_obj (fun k' hk' => lookup_runChecks_congr hlocal hkeys (h.lookup hk')) fun q hq => ?_
  rw [lookup_runChecks_of_not_mem hlocal hkeys hk, lookup_runChecks_of_not_mem hlocal hkeys hk]
  have hq' := h (k :: q) (apart_cons.mpr hq)
  rwa [get_cons, get_cons] at hq'

end Run

theorem lookup_reset (src : Entries Num) (key k : String) (node : Entries Num) :
    Dict.lookup k (reset src key node) =
      if k = key then (Dict.lookup key src).or (Dict.lookup key node) else Dict.lookup k node := by
  unfold reset
  cases Dict.lookup key src with
  | none =>
      rw [Option.none_or]
      by_cases hk : k = key
      · rw [if_pos hk, hk]
      · rw [if_neg hk]
  | some v => rw [Dict.lookup_assign, Option.some_or]

/-- A check that resets a key when its value does not pass. -/
theorem local_reset (ok : Option (Json Num) → Bool) (src : Entries Num) (key : String) :
    Local key fun cfg => if ok (Dict.lookup key cfg) then cfg else reset src key cfg where
  other cfg k hk := by
    split
    · rfl
    · rw [lookup_reset, if_neg hk]
  same a b h := by
    rw [h]
    split
    · exact h
    · rw [lookup_reset, lookup_reset, if_pos rfl, if_pos rfl, h]

section Sections

variable [Numeric Num]

/-- The checks of the fields of a section. -/
def fieldChecks (name : String) (keys : List String) : Checks Num :=
  keys.map fun k =>
    (k, fun sec => if num_ok (Dict.lookup k sec) then sec else reset (defaultsOf name) k sec)

theorem checkFields_eq (name : String) (keys : List String) (sec : Entries Num) :
    checkFields name keys sec = runChecks (fieldChecks name keys) sec := by
  rw [runChecks, fieldChecks, List.foldl_map]
  rfl

theorem local_fieldChecks (name : String) (keys : List String) :
    ∀ c ∈ (fieldChecks name keys : Checks Num), Local c.1 c.2 := by
  intro c hc
  obtain ⟨k, -, rfl⟩ := List.mem_map.mp hc
  exact local_reset num_ok (defaultsOf name) k

theorem keys_fieldChecks (name : String) (keys : List String) :
    (fieldChecks name keys : Checks Num).map Prod.fst = keys := by
  rw [fieldChecks, List.map_map]
  exact List.map_id keys

theorem lookup_checkSection (cfg : Entries Num) (s : String × List String) :
    Dict.lookup s.1 (checkSection cfg s) = some (.obj
      (if (Dict.lookup s.1 cfg).any isObj then checkFields s.1 s.2 (inner (Dict.lookup s.1 cfg))
        else defaultsOf s.1)) := by
  unfold checkSection
  cases Dict.lookup s.1 cfg with
  | none => exact Dict.lookup_assign.trans (if_pos rfl)
  | some v => cases v <;> exact Dict.lookup_assign.trans (if_pos rfl)

theorem local_checkSection (s : String × List String) :
    Local s.1 fun cfg : Entries Num => checkSection cfg s where
  other cfg k hk := by
    unfold checkSection
    split <;> rw [Dict.lookup_assign, if_neg hk]
  same a b h := by
    rw [lookup_checkSection, lookup_checkSection, h]

/-- All checks of `_validate`. -/
def checks : Checks Num :=
  [("web_port", checkField portOk "web_port"), ("web_host", checkField isStr "web_host")] ++
    SECTIONS.map (fun s => (s.1, fun cfg => checkSection cfg s)) ++
    FIELDS.map fun key => (key, checkField num_ok key)

theorem validate_eq (cfg : Entries Num) : validate cfg = runChecks checks cfg := by
  rw [runChecks, checks, List.foldl_append, List.foldl_append, List.foldl_map, List.foldl_map]
  rfl

theorem local_checks : ∀ c ∈ (checks : Checks Num), Local c.1 c.2 := by
  intro c hc
  rw [checks, List.mem_append, List.mem_append] at hc
  rcases hc with (hc | hc) | hc
  · rcases List.mem_cons.mp hc with rfl | hc
    · exact local_reset portOk DEFAULTS "web_port"
    · rw [List.mem_singleton.mp hc]
      exact local_reset isStr DEFAULTS "web_host"
  · obtain ⟨s, -, rfl⟩ := List.mem_map.mp hc
    exact local_checkSection s
  · obtain ⟨k, -, rfl⟩ := List.mem_map.mp hc
    exact local_reset num_ok DEFAULTS k

theorem keys_checks : (checks : Checks Num).map Prod.fst =
    ["web_port", "web_host", "watchdog", "mtr", "quota", "lan", "escalate", "ping_interval_sec",
      "db_cleanup_days"] := rfl

theorem nodup_checks : ((checks : Checks Num).map Prod.fst).Nodup := by
  rw [keys_checks]
  decide

/-! ## §5 What the checks leave -/

/-- A name with an underscore cannot be written as a variable. -/
def Flat (k : String) : Prop := '_' ∉ k.toList

instance (k : String) : Decidable (Flat k) := inferInstanceAs (Decidable (¬ _))

abbrev sections : List String := SECTIONS.map Prod.fst

/-- The check of a key that a variable can name is that of a section. -/
theorem check_of_flat {k : String} (hk : Flat k) {f : Entries Num → Entries Num}
    (hf : Dict.lookup k checks = some f) :
    ∃ s ∈ SECTIONS, s.1 = k ∧ f = fun cfg => checkSection cfg s := by
  have hmem := Dict.mem_of_lookup hf
  rw [checks, List.mem_append, List.mem_append] at hmem
  rcases hmem with (hmem | hmem) | hmem
  · rcases List.mem_cons.mp hmem with heq | hmem
    · cases heq
      exact absurd hk (by decide)
    · cases List.mem_singleton.mp hmem
      exact absurd hk (by decide)
  · obtain ⟨s, hs, heq⟩ := List.mem_map.mp hmem
    cases heq
    exact ⟨s, hs, rfl, rfl⟩
  · obtain ⟨key, hkey, heq⟩ := List.mem_map.mp hmem
    cases heq
    have hall : ∀ key ∈ FIELDS, ¬ Flat key := by decide
    exact absurd hk (hall k hkey)

theorem flat_not_field {s : String × List String} (hs : s ∈ SECTIONS) {k : String} (hk : Flat k) :
    k ∉ s.2 := by
  have hall : ∀ s ∈ SECTIONS, ∀ k ∈ s.2, ¬ Flat k := by decide
  exact fun hmem => hall s hs k hmem hk

theorem keys_nodup {s : String × List String} (hs : s ∈ SECTIONS) : s.2.Nodup := by
  have hall : ∀ s ∈ SECTIONS, s.2.Nodup := by decide
  exact hall s hs

variable {k : String} {p : List String} {a b : Entries Num}

/-- The fields of a section agree beside a path that does not end at the section. -/
theorem checkFields_agree {s : String × List String} (hs : s ∈ SECTIONS) (hp : p ≠ [])
    (hflat : ∀ key ∈ p, Flat key) (h : Agree p (.obj a) (.obj b)) :
    Agree p (.obj (checkFields s.1 s.2 a)) (.obj (checkFields s.1 s.2 b)) := by
  obtain ⟨key, rest, rfl⟩ := List.exists_cons_of_ne_nil hp
  have hkeys : ((fieldChecks s.1 s.2 : Checks Num).map Prod.fst).Nodup := by
    rw [keys_fieldChecks]
    exact keys_nodup hs
  have hkey : key ∉ (fieldChecks s.1 s.2 : Checks Num).map Prod.fst := by
    rw [keys_fieldChecks]
    exact flat_not_field hs (hflat key List.mem_cons_self)
  rw [checkFields_eq, checkFields_eq]
  exact agree_runChecks (local_fieldChecks s.1 s.2) hkeys hkey h

/-- A field that is missing gets its default, if it is one that is checked. -/
theorem lookup_checkFields_missing {s : String × List String} (hs : s ∈ SECTIONS)
    {sec : Entries Num} {key : String} (h : Dict.lookup key sec = none) :
    Dict.lookup key (checkFields s.1 s.2 sec) =
      if key ∈ s.2 then Dict.lookup key (defaultsOf s.1) else none := by
  have hkeys : ((fieldChecks s.1 s.2 : Checks Num).map Prod.fst).Nodup := by
    rw [keys_fieldChecks]
    exact keys_nodup hs
  rw [checkFields_eq]
  by_cases hkey : key ∈ s.2
  · have hcheck : (key, fun sec => if num_ok (Dict.lookup key sec) then sec
        else reset (defaultsOf s.1) key sec) ∈ (fieldChecks s.1 s.2 : Checks Num) :=
      List.mem_map_of_mem hkey
    rw [lookup_runChecks (local_fieldChecks s.1 s.2) hkeys, Dict.lookup_of_mem hkeys hcheck,
      if_pos hkey, Option.elim_some]
    have hbad : ¬ num_ok (Dict.lookup key sec) = true := by
      rw [h]
      exact Bool.false_ne_true
    refine (congrArg (Dict.lookup key) (if_neg hbad)).trans ?_
    rw [lookup_reset, if_pos rfl, h, Option.or_none]
  · rw [if_neg hkey]
    refine (lookup_runChecks_of_not_mem (local_fieldChecks s.1 s.2) hkeys ?_ sec).trans h
    rwa [keys_fieldChecks]

/-- **`_validate` keeps an agreement** beside a path, unless the path ends at a section, or leads into
one that is an object on one side only. -/
theorem validate_agree (hk : Flat k) (hflat : ∀ key ∈ p, Flat key)
    (hsection : k ∈ sections →
      p ≠ [] ∧ (Dict.lookup k a).any isObj = (Dict.lookup k b).any isObj)
    (h : Agree (k :: p) (.obj a) (.obj b)) :
    Agree (k :: p) (.obj (validate a)) (.obj (validate b)) := by
  rw [validate_eq, validate_eq]
  refine agree_obj (fun k' hk' =>
    lookup_runChecks_congr local_checks nodup_checks (h.lookup hk')) fun q hq => ?_
  have hq' := h (k :: q) (apart_cons.mpr hq)
  rw [get_cons, get_cons] at hq'
  rw [lookup_runChecks local_checks nodup_checks, lookup_runChecks local_checks nodup_checks]
  cases hf : Dict.lookup k (checks : Checks Num) with
  | none => exact hq'
  | some f =>
      obtain ⟨s, hs, rfl, rfl⟩ := check_of_flat hk hf
      obtain ⟨hp, hobj⟩ := hsection (List.mem_map_of_mem hs)
      rw [Option.elim_some, Option.elim_some, lookup_checkSection, lookup_checkSection, hobj,
        Option.bind_some, Option.bind_some]
      by_cases hb : (Dict.lookup s.1 b).any isObj
      · rw [if_pos hb, if_pos hb]
        refine checkFields_agree hs hp hflat (fun q hq => ?_) q hq
        have hbelow := h (s.1 :: q) (apart_cons.mpr hq)
        rwa [get_cons, get_cons, bind_get_inner _ hq.ne_nil, bind_get_inner _ hq.ne_nil] at hbelow
      · rw [if_neg hb, if_neg hb]

/-- **And the value at the path**, if the path leads into a section that is an object, or into none. -/
theorem validate_value (hk : Flat k) (hflat : ∀ key ∈ p, Flat key)
    (hsection : k ∈ sections → p ≠ [] ∧ (Dict.lookup k a).any isObj) :
    get (k :: p) (.obj (validate a)) = get (k :: p) (.obj a) := by
  rw [validate_eq, get_cons, get_cons, lookup_runChecks local_checks nodup_checks]
  cases hf : Dict.lookup k (checks : Checks Num) with
  | none => rfl
  | some f =>
      obtain ⟨s, hs, rfl, rfl⟩ := check_of_flat hk hf
      obtain ⟨hp, hobj⟩ := hsection (List.mem_map_of_mem hs)
      obtain ⟨key, rest, rfl⟩ := List.exists_cons_of_ne_nil hp
      have hkeys : ((fieldChecks s.1 s.2 : Checks Num).map Prod.fst).Nodup := by
        rw [keys_fieldChecks]
        exact keys_nodup hs
      have hkey : key ∉ (fieldChecks s.1 s.2 : Checks Num).map Prod.fst := by
        rw [keys_fieldChecks]
        exact flat_not_field hs (hflat key List.mem_cons_self)
      rw [Option.elim_some, lookup_checkSection, if_pos hobj, Option.bind_some, get_cons,
        checkFields_eq, lookup_runChecks_of_not_mem (local_fieldChecks s.1 s.2) hkeys hkey,
        bind_get_inner _ hp, get_cons]

end Sections

/-! ## §6 Decryption, and the token -/

section Finish

variable [Unprotect]

theorem lookup_decryptEntries (k : String) (entries : Entries Num) :
    Dict.lookup k (decryptEntries entries) = (Dict.lookup k entries).map decrypt_config := by
  induction entries with
  | nil =>
      rw [decryptEntries]
      rfl
  | cons e rest ih =>
      obtain ⟨k', v⟩ := e
      rw [decryptEntries, Dict.lookup, Dict.lookup, ih]
      split <;> rfl

theorem get_decrypt (q : List String) (v : Json Num) :
    get q (decrypt_config v) = (get q v).map decrypt_config := by
  induction q generalizing v with
  | nil => rfl
  | cons k q ih =>
      cases v with
      | obj entries =>
          rw [decrypt_config, get_cons, get_cons, lookup_decryptEntries]
          cases Dict.lookup k entries with
          | none => rfl
          | some w => exact ih w
      | str s =>
          rw [decrypt_config]
          split <;> rfl
      | _ =>
          rw [decrypt_config]
          rfl

theorem isObj_decrypt (v : Json Num) : isObj (decrypt_config v) = isObj v := by
  cases v with
  | str s =>
      rw [decrypt_config]
      split <;> rfl
  | obj entries =>
      rw [decrypt_config]
      rfl
  | list items =>
      rw [decrypt_config]
      rfl
  | _ => rw [decrypt_config]

theorem any_isObj_decryptEntries (k : String) (entries : Entries Num) :
    (Dict.lookup k (decryptEntries entries)).any isObj = (Dict.lookup k entries).any isObj := by
  rw [lookup_decryptEntries]
  cases Dict.lookup k entries with
  | none => rfl
  | some v => exact isObj_decrypt v

theorem decrypt_agree {p : List String} {a b : Entries Num} (h : Agree p (.obj a) (.obj b)) :
    Agree p (.obj (decryptEntries a)) (.obj (decryptEntries b)) := by
  intro q hq
  have ha := get_decrypt q (.obj a)
  have hb := get_decrypt q (.obj b)
  rw [decrypt_config] at ha hb
  rw [ha, hb, h q hq]

variable [Numeric Num]

/-- The token that is made up, when it is needed. -/
def withToken (fresh : Token) (cfg : Entries Num) : Entries Num :=
  if isSet "web_auth_enabled" cfg && !isSet "web_token" cfg then
    Dict.assign "web_token" (.str fresh.hex) cfg
  else cfg

omit [Unprotect] in
theorem lookup_withToken (fresh : Token) {k : String} (hk : k ≠ "web_token") (cfg : Entries Num) :
    Dict.lookup k (withToken fresh cfg) = Dict.lookup k cfg := by
  unfold withToken
  split
  · rw [Dict.lookup_assign, if_neg hk]
  · rfl

omit [Unprotect] in
theorem withToken_agree (fresh : Token) {k : String} {p : List String} {a b : Entries Num}
    (hk : Flat k) (h : Agree (k :: p) (.obj a) (.obj b)) :
    Agree (k :: p) (.obj (withToken fresh a)) (.obj (withToken fresh b)) := by
  have htoken : "web_token" ≠ k := fun heq => absurd (heq ▸ hk) (by decide)
  have henabled : "web_auth_enabled" ≠ k := fun heq => absurd (heq ▸ hk) (by decide)
  refine agree_obj (fun k' hk' => ?_) fun q hq => ?_
  · unfold withToken isSet
    rw [h.lookup htoken, h.lookup henabled]
    split
    · rw [Dict.lookup_assign, Dict.lookup_assign, h.lookup hk']
    · exact h.lookup hk'
  · have hq' := h (k :: q) (apart_cons.mpr hq)
    rw [get_cons, get_cons] at hq'
    rwa [lookup_withToken fresh htoken.symm, lookup_withToken fresh htoken.symm]

theorem finish_eq (fresh : Token) (cfg : Entries Num) :
    finish fresh cfg = withToken fresh (validate (decryptEntries cfg)) := rfl

variable {k : String} {p : List String} {a b : Entries Num}

/-- **What agrees beside the path of a variable** agrees in the end. -/
theorem finish_agree (fresh : Token) (hk : Flat k) (hflat : ∀ key ∈ p, Flat key)
    (hsection : k ∈ sections →
      p ≠ [] ∧ (Dict.lookup k a).any isObj = (Dict.lookup k b).any isObj)
    (h : Agree (k :: p) (.obj a) (.obj b)) :
    Agree (k :: p) (.obj (finish fresh a)) (.obj (finish fresh b)) := by
  rw [finish_eq, finish_eq]
  apply withToken_agree fresh hk
  apply validate_agree hk hflat _ (decrypt_agree h)
  rw [any_isObj_decryptEntries, any_isObj_decryptEntries]
  exact hsection

/-- Other keys than the first of the path agree in any case. -/
theorem finish_other (fresh : Token) (hk : Flat k) (h : Agree (k :: p) (.obj a) (.obj b))
    {k' : String} (hk' : k' ≠ k) :
    Dict.lookup k' (finish fresh a) = Dict.lookup k' (finish fresh b) := by
  have hdecrypt := decrypt_agree h
  have hchecked : Agree [k] (.obj (validate (decryptEntries a)))
      (.obj (validate (decryptEntries b))) := by
    rw [validate_eq, validate_eq]
    refine agree_obj (fun key hkey => ?_) fun q hq => absurd List.nil_prefix hq.1
    exact lookup_runChecks_congr local_checks nodup_checks (hdecrypt.lookup hkey)
  exact (withToken_agree fresh hk hchecked).lookup hk'

/-- **And the value at the path** is decrypted, and stays otherwise. -/
theorem finish_value (fresh : Token) (hk : Flat k) (hflat : ∀ key ∈ p, Flat key)
    (hsection : k ∈ sections → p ≠ [] ∧ (Dict.lookup k a).any isObj) :
    get (k :: p) (.obj (finish fresh a)) = (get (k :: p) (.obj a)).map decrypt_config := by
  have htoken : k ≠ "web_token" := fun heq => absurd (heq ▸ hk) (by decide)
  have hdecrypt := get_decrypt (k :: p) (.obj a)
  rw [decrypt_config] at hdecrypt
  rw [finish_eq, get_cons, lookup_withToken fresh htoken, ← get_cons, ← hdecrypt]
  apply validate_value hk hflat
  rw [any_isObj_decryptEntries]
  exact hsection

/-- **A section in the end**: its object, decrypted and checked, or its defaults. -/
theorem finish_section (fresh : Token) {s : String × List String} (hs : s ∈ SECTIONS)
    (cfg : Entries Num) :
    Dict.lookup s.1 (finish fresh cfg) = some (.obj
      (if (Dict.lookup s.1 cfg).any isObj then
        checkFields s.1 s.2 (decryptEntries (inner (Dict.lookup s.1 cfg))) else defaultsOf s.1)) := by
  have hflat : ∀ s ∈ SECTIONS, s.1 ≠ "web_token" := by decide
  have hcheck : Dict.lookup s.1 checks = some fun cfg : Entries Num => checkSection cfg s := by
    apply Dict.lookup_of_mem nodup_checks
    exact List.mem_append_left _ (List.mem_append_right _ (List.mem_map_of_mem hs))
  rw [finish_eq, lookup_withToken fresh (hflat s hs), validate_eq,
    lookup_runChecks local_checks nodup_checks, hcheck, Option.elim_some, lookup_checkSection,
    any_isObj_decryptEntries, lookup_decryptEntries]
  cases Dict.lookup s.1 cfg with
  | none => rfl
  | some v =>
      cases v with
      | obj entries =>
          rw [Option.map_some, decrypt_config]
          rfl
      | _ => rfl

end Finish

end NetPulse.Server.Config
