import NetPulse.Lib.PosixPath
import NetPulse.Server.OverridePaths

/-
# NetPulse.Server.OverrideRuns — setting a variable

A variable is named after a key path: the keys in one name, with underscores between them. But keys
have underscores too, so that the name of `web_port` is cut into `web` and `port` (`apart_keysOf`), and
nothing at all is at `web_port` from it. Where no key has one, the value goes to its path, unless it is
JSON for something false, which stays the text it is.

`override_right_iff` says for which environments, configurations and paths a variable does what it is
for.
-/

namespace NetPulse.Server.Config

open NetPulse.Lib NetPulse.Lib.Json
open NetPulse.Gate (begins after)

variable {Num : Type}

/-! ## §1 Names -/

/-- The keys of a path in one name. -/
def joined (p : List String) : String := "_".intercalate p

theorem keysOf_eq_flatMap {p : List String} (hp : p ≠ []) : keysOf (joined p) = p.flatMap keysOf := by
  unfold keysOf joined
  rw [String.toList_intercalate]
  induction p with
  | nil => exact absurd rfl hp
  | cons k rest ih =>
      cases rest with
      | nil => simp
      | cons k' rest =>
          have hsplit := ih (List.cons_ne_nil k' rest)
          rw [List.map_cons] at hsplit
          rw [List.map_cons, List.map_cons, List.flatMap_cons, List.intercalate_cons_cons, List.append_assoc, ← hsplit]
          show ((k.toList ++ '_' :: _).splitOn '_').map String.ofList = _
          rw [List.splitOn_append_cons_self, List.map_append]
          rfl

theorem keysOf_flat {k : String} (h : Flat k) : keysOf k = [k] := by
  rw [keysOf, List.splitOn_eq_singleton h, List.map_singleton, String.ofList_toList]

/-- A name with an underscore is cut into two parts at least, the first without one. -/
theorem keysOf_cut {k : String} (h : ¬ Flat k) :
    ∃ k0 k1 rest, keysOf k = k0 :: k1 :: rest ∧ Flat k0 := by
  obtain ⟨a, b, hk, ha⟩ := List.eq_append_cons_of_mem (not_not.mp h)
  obtain ⟨c, cs, hb⟩ := List.exists_cons_of_ne_nil (List.splitOn_ne_nil '_' b)
  refine ⟨String.ofList a, String.ofList c, cs.map String.ofList, ?_, ?_⟩
  · rw [keysOf, hk, List.splitOn_append_cons_self_of_not_mem ha, hb]
    rfl
  · rw [Flat, String.toList_ofList]
    exact ha

theorem flat_of_mem_keysOf {s k : String} (h : k ∈ keysOf s) : Flat k := by
  obtain ⟨l, hl, rfl⟩ := List.mem_map.mp h
  rw [Flat, String.toList_ofList]
  exact PosixPath.not_mem_of_mem_splitOn hl

/-- **A path of flat keys is found in its name.** -/
theorem keysOf_joined {p : List String} (hp : p ≠ []) (h : ∀ k ∈ p, Flat k) :
    keysOf (joined p) = p := by
  rw [keysOf_eq_flatMap hp]
  induction p with
  | nil => rfl
  | cons k rest ih =>
      obtain ⟨hk, hrest⟩ := List.forall_mem_cons.mp h
      rw [List.flatMap_cons, keysOf_flat hk]
      by_cases hnil : rest = []
      · subst hnil
        rfl
      · rw [ih hnil hrest]
        rfl

/-- **Any other** is cut into one that leaves it. -/
theorem apart_keysOf {p : List String} (h : ¬ ∀ k ∈ p, Flat k) :
    Apart (keysOf (joined p)) p ∧ 2 ≤ (keysOf (joined p)).length := by
  have hp : p ≠ [] := by
    rintro rfl
    exact h fun k hk => nomatch hk
  rw [keysOf_eq_flatMap hp]
  clear hp
  induction p with
  | nil => exact absurd (fun k hk => nomatch hk) h
  | cons k rest ih =>
      by_cases hk : Flat k
      · have hrest : ¬ ∀ k ∈ rest, Flat k := fun hrest =>
          h (List.forall_mem_cons.mpr ⟨hk, hrest⟩)
        obtain ⟨hapart, hlen⟩ := ih hrest
        rw [List.flatMap_cons, keysOf_flat hk, List.singleton_append, List.length_cons]
        exact ⟨apart_cons.mpr hapart, by omega⟩
      · obtain ⟨k0, k1, more, hkeys, h0⟩ := keysOf_cut hk
        rw [List.flatMap_cons, hkeys, List.cons_append, List.length_cons, List.cons_append,
          List.length_cons]
        refine ⟨apart_of_ne ?_ _ _, by omega⟩
        rintro rfl
        exact hk h0

theorem keysOf_ne_nil (s : String) : keysOf s ≠ [] := fun h =>
  List.splitOn_ne_nil '_' s.toList (List.map_eq_nil_iff.mp h)

theorem ne_nil_of_mem_pathsIn {entries : Entries Num} {p : List String} (h : p ∈ pathsIn entries) :
    p ≠ [] := by
  induction entries with
  | nil =>
      rw [pathsIn] at h
      cases h
  | cons e rest ih =>
      obtain ⟨k, v⟩ := e
      rw [pathsIn, List.cons_append, List.mem_cons, List.mem_append] at h
      rcases h with rfl | h | h
      · exact List.cons_ne_nil _ _
      · obtain ⟨q, -, rfl⟩ := List.mem_map.mp h
        exact List.cons_ne_nil _ _
      · exact ih h

/-! ## §2 The environment -/

/-- The environment without a variable. -/
def unset (name : String) (environ : List (String × String)) : List (String × String) :=
  environ.filter fun e => decide (e.1 ≠ name)

/-- The environment in which it has this value. -/
def setenv (name v : String) (environ : List (String × String)) : List (String × String) :=
  unset name environ ++ [(name, v)]

theorem lookup_collect {lines : List String} {environ : List (String × String)} {name : String}
    (h : name ∉ environ.map Prod.fst) :
    Dict.lookup name (collect lines environ) = Dict.lookup name (dotenv lines) := by
  unfold collect
  generalize dotenv lines = raw
  induction environ generalizing raw with
  | nil => rfl
  | cons e rest ih =>
      rw [List.map_cons, List.mem_cons, not_or] at h
      rw [List.foldl_cons, ih h.2]
      dsimp only
      split
      · rfl
      · rw [Dict.lookup_assign, if_neg h.1]

theorem not_mem_unset (name : String) (environ : List (String × String)) :
    name ∉ (unset name environ).map Prod.fst := by
  intro h
  obtain ⟨e, he, rfl⟩ := List.mem_map.mp h
  exact of_decide_eq_true (List.mem_filter.mp he).2 rfl

theorem lookup_isSome {k : String} {l : List (String × String)} (h : k ∈ l.map Prod.fst) :
    ∃ v, Dict.lookup k l = some v := by
  cases hv : Dict.lookup k l with
  | some v => exact ⟨v, rfl⟩
  | none =>
      induction l with
      | nil => cases h
      | cons e rest ih =>
          obtain ⟨k', w⟩ := e
          rw [Dict.lookup] at hv
          split at hv
          · cases hv
          · rename_i hk
            rcases List.mem_cons.mp h with heq | hrest
            · exact absurd heq.symm hk
            · exact ih hrest hv

/-- **Setting a variable** puts it behind all others, unless `.env` names it. -/
theorem collect_setenv (lines : List String) (environ : List (String × String)) (name v : String) :
    collect lines (setenv name v environ) =
      if name ∈ (dotenv lines).map Prod.fst then collect lines (unset name environ)
      else collect lines (unset name environ) ++ [(name, v)] := by
  have hlookup : Dict.lookup name (collect lines (unset name environ)) =
      Dict.lookup name (dotenv lines) := lookup_collect (not_mem_unset name environ)
  have hstep : collect lines (setenv name v environ) =
      (Dict.lookup name (collect lines (unset name environ))).elim
        (Dict.assign name v (collect lines (unset name environ)))
        fun _ => collect lines (unset name environ) := by
    unfold collect setenv
    rw [List.foldl_append, List.foldl_cons, List.foldl_nil]
    dsimp only
    cases Dict.lookup name (unset name environ |>.foldl _ (dotenv lines)) <;> rfl
  rw [hstep, hlookup]
  by_cases hname : name ∈ (dotenv lines).map Prod.fst
  · obtain ⟨w, hw⟩ := lookup_isSome hname
    rw [hw, if_pos hname]
    rfl
  · have hnone := Dict.lookup_eq_none hname
    rw [hnone] at hlookup ⊢
    rw [if_neg hname, Option.elim_none]
    refine Dict.assign_of_not_mem fun hmem => ?_
    obtain ⟨w, hw⟩ := lookup_isSome hmem
    rw [hlookup] at hw
    cases hw

/-! ## §3 Setting a variable -/

section Setting

variable [Numeric Num] [Loads Num] [Lower] [Unprotect]

/-- A variable that is named after a key path of the defaults. -/
structure Variable (Num : Type) [Numeric Num] [Lower] where
  path : List String
  isPath : path ∈ pathsIn (DEFAULTS : Entries Num)
  suffix : String
  spelled : lower suffix = joined path

def Variable.name (x : Variable Num) : String := "NETPULSE_" ++ x.suffix

/-- What the value stands for: the JSON value, or the text. -/
def meant (v : String) : Json Num := (loads v).getD (.str v)

/-- **Setting the variable** to the value changes the value at its path to what it stands for, and
nothing else; in neither environment does `load_config` raise. -/
def Sets (fresh : Token) (lines : List String) (environ : List (String × String))
    (saved : Option (Json Num)) (x : Variable Num) (v : String) : Prop :=
  ∃ before after,
    load_config fresh lines (unset x.name environ) saved = some before ∧
      load_config fresh lines (setenv x.name v environ) saved = some after ∧
      get x.path (.obj after) = some (meant v) ∧ Agree x.path (.obj before) (.obj after)

variable (Num) in
/-- The value is JSON for something that counts as false. -/
def Falsy (v : String) : Prop :=
  ∃ d : Json Num, loads v = some d ∧ d.truthy = false

variable (Num) in
/-- The value is not that, and no encrypted text. -/
def Usual (v : String) : Prop :=
  ¬ Falsy Num v ∧ decrypt_config (meant v : Json Num) = meant v

/-- Each variable finds objects on its way, or nothing, in what those before it have left. -/
def Orderly : Entries Num → List (String × String) → Prop
  | _, [] => True
  | out, var :: rest =>
      (begins "NETPULSE_" var.1 → spot (keysOf (lower (after "NETPULSE_" var.1))) out ≠ .blocked) ∧
        ∀ out', override out var = some out' → Orderly out' rest

/-- What it takes for a variable to be set. -/
structure Met (lines : List String) (environ : List (String × String)) (saved : Option (Json Num))
    (x : Variable Num) : Prop where
  /-- `.env` does not name it. -/
  unnamed : x.name ∉ (dotenv lines).map Prod.fst
  /-- No key of its path has an underscore. -/
  flat : ∀ k ∈ x.path, Flat k
  /-- The other variables do not get in each other's way. -/
  orderly : Orderly ([] : Entries Num) (collect lines (unset x.name environ))
  /-- Nor in its way: above its key they leave objects or nothing, and at it no object. -/
  free : ∀ out : Entries Num, env_overrides (collect lines (unset x.name environ)) = some out →
    spot x.path out = .free
  /-- The configuration has no entries below its key. -/
  base : inner (get x.path (.obj (merged saved))) = []
  /-- It is no section that is checked, and in one only where there is an object for it. -/
  checked : ∀ k rest, x.path = k :: rest → k ∈ sections → rest ≠ [] ∧
    ∀ out : Entries Num, env_overrides (collect lines (unset x.name environ)) = some out →
      (Dict.lookup k (merged saved)).any isObj ∨ (Dict.lookup k out).any isObj ∨
        x.path = ["escalate", "enabled"]

/-! ## §4 The loop -/

omit [Unprotect] in
theorem override_ne_none {out : Entries Num} {var : String × String} :
    override out var ≠ none ↔
      (begins "NETPULSE_" var.1 → spot (keysOf (lower (after "NETPULSE_" var.1))) out ≠ .blocked) := by
  unfold override
  by_cases hb : begins "NETPULSE_" var.1
  · rw [if_pos hb]
    cases hspot : spot (keysOf (lower (after "NETPULSE_" var.1))) out with
    | blocked =>
        rw [put_blocked _ hspot]
        exact iff_of_false (fun h => h rfl) fun h => h hb rfl
    | taken =>
        rw [put_taken _ hspot]
        exact iff_of_true (Option.some_ne_none _) fun _ h => nomatch h
    | free =>
        obtain ⟨out', hput, -⟩ := put_free (decode var.2) hspot
        rw [hput]
        exact iff_of_true (Option.some_ne_none _) fun _ h => nomatch h
  · rw [if_neg hb]
    exact iff_of_true (Option.some_ne_none _) fun h => absurd h hb

omit [Unprotect] in
/-- **The loop ends** exactly if the variables are orderly. -/
theorem orderly_iff (raw : List (String × String)) (out : Entries Num) :
    Orderly out raw ↔ ∃ out', raw.foldlM override out = some out' := by
  induction raw generalizing out with
  | nil => exact iff_of_true trivial ⟨out, rfl⟩
  | cons var rest ih =>
      rw [Orderly, ← override_ne_none, List.foldlM_cons]
      cases hchanged : override out var with
      | none => exact iff_of_false (fun h => h.1 rfl) fun ⟨_, h⟩ => nomatch h
      | some out' =>
          constructor
          · exact fun h => (ih out').mp (h.2 out' rfl)
          · refine fun h => ⟨Option.some_ne_none _, fun out'' heq => ?_⟩
            cases heq
            exact (ih out').mpr h

omit [Lower] [Unprotect] in
theorem unique_decode (v : String) : Json.Unique (decode v : Json Num) := by
  unfold decode
  split
  · rename_i d hd
    split
    · exact Loads.unique hd
    · simp only [Json.Unique]
  · simp only [Json.Unique]

omit [Lower] [Unprotect] in
theorem decode_usual {v : String} (h : ¬ Falsy Num v) : (decode v : Json Num) = meant v := by
  unfold decode meant
  cases hv : (loads v : Option (Json Num)) with
  | none => rfl
  | some d =>
      have htrue : d.truthy = true := by
        by_contra hfalse
        exact h ⟨d, hv, Bool.eq_false_iff.mpr hfalse⟩
      exact if_pos htrue

omit [Unprotect] in
/-- Keys stay unique in every step. -/
theorem unique_override {out out' : Entries Num} (hout : Json.Unique (.obj out))
    {var : String × String} (h : override out var = some out') : Json.Unique (.obj out') := by
  unfold override at h
  split at h
  · cases hspot : spot (keysOf (lower (after "NETPULSE_" var.1))) out with
    | blocked =>
        rw [put_blocked _ hspot] at h
        cases h
    | taken =>
        rw [put_taken _ hspot] at h
        cases h
        exact hout
    | free =>
        obtain ⟨out'', hput, hwritten⟩ := put_free (decode var.2) hspot
        rw [hput] at h
        cases h
        exact hwritten.unique hout (unique_decode var.2)
  · cases h
    exact hout

omit [Unprotect] in
/-- **And in the whole loop.** -/
theorem unique_run {raw : List (String × String)} {out out' : Entries Num}
    (hout : Json.Unique (.obj out)) (h : raw.foldlM override out = some out') :
    Json.Unique (.obj out') := by
  induction raw generalizing out with
  | nil =>
      cases h
      exact hout
  | cons var rest ih =>
      rw [List.foldlM_cons] at h
      obtain ⟨mid, hmid, hrest⟩ := Option.bind_eq_some_iff.mp h
      exact ih (unique_override hout hmid) hrest

/-! ## §5 Before and after -/

section Load

variable (fresh : Token) (lines : List String) (environ : List (String × String))
  (saved : Option (Json Num)) (x : Variable Num)

/-- The keys that the name of the variable is cut into. -/
def Variable.keys : List String := keysOf (joined x.path)

omit [Unprotect] in
theorem override_variable (out : Entries Num) (v : String) :
    override out (x.name, v) = put (decode v) x.keys out := by
  have hbegins : begins "NETPULSE_" x.name = true := by
    rw [begins, Variable.name, String.toList_append, List.isPrefixOf_iff_prefix]
    exact List.prefix_append _ _
  have hafter : after "NETPULSE_" x.name = x.suffix := by
    rw [after, Variable.name, String.toList_append, List.drop_left, String.ofList_toList]
  rw [override, if_pos hbegins, hafter, x.spelled]
  rfl

/-- What the other variables leave. -/
def Leaves (out : Entries Num) : Prop :=
  env_overrides (collect lines (unset x.name environ)) = some out

omit [Unprotect] in
theorem Leaves.unique {out : Entries Num} (h : Leaves lines environ x out) :
    Json.Unique (.obj out) :=
  unique_run unique_nil h

theorem load_before {before : Entries Num}
    (h : load_config fresh lines (unset x.name environ) saved = some before) :
    ∃ out, Leaves lines environ x out ∧ before = finish fresh (deepMerge (merged saved) out) := by
  obtain ⟨out, hout, heq⟩ := Option.map_eq_some_iff.mp h
  exact ⟨out, hout, heq.symm⟩

/-- **With the variable**: the loop makes one step more. -/
theorem load_after (hname : x.name ∉ (dotenv lines).map Prod.fst) {out : Entries Num}
    (hout : Leaves lines environ x out) (v : String) :
    load_config fresh lines (setenv x.name v environ) saved =
      (put (decode v) x.keys out).map fun changed => finish fresh (deepMerge (merged saved) changed) := by
  have hrun : env_overrides (collect lines (setenv x.name v environ)) =
      put (decode v) x.keys out := by
    unfold Leaves env_overrides at hout
    rw [env_overrides, collect_setenv, if_neg hname, List.foldlM_append, hout]
    show (override out (x.name, v)).bind _ = _
    rw [override_variable]
    cases put (decode v) x.keys out <;> rfl
  rw [load_config, hrun]

/-- What is loaded, with a value. -/
theorem load_after_some (hname : x.name ∉ (dotenv lines).map Prod.fst) {out : Entries Num}
    (hout : Leaves lines environ x out) {v : String} {after : Entries Num}
    (h : load_config fresh lines (setenv x.name v environ) saved = some after) :
    ∃ changed, put (decode v) x.keys out = some changed ∧
      after = finish fresh (deepMerge (merged saved) changed) := by
  rw [load_after fresh lines environ saved x hname hout, Option.map_eq_some_iff] at h
  obtain ⟨changed, hput, heq⟩ := h
  exact ⟨changed, hput, heq.symm⟩

omit [Loads Num] [Unprotect] in
/-- The first key of a flat path, and those behind it. -/
theorem keys_cons : ∃ k rest, x.keys = k :: rest ∧ Flat k ∧ ∀ key ∈ rest, Flat key := by
  obtain ⟨k, rest, hkeys⟩ := List.exists_cons_of_ne_nil (keysOf_ne_nil (joined x.path))
  have hall : ∀ key ∈ x.keys, Flat key := fun key => flat_of_mem_keysOf
  have hcons : x.keys = k :: rest := hkeys
  rw [hcons, List.forall_mem_cons] at hall
  exact ⟨k, rest, hcons, hall.1, hall.2⟩

/-- **A variable that is cut elsewhere has no say** in what is at its path. -/
theorem blind {v w : String} {after after' out : Entries Num} (hout : Leaves lines environ x out)
    (hblind : x.name ∈ (dotenv lines).map Prod.fst ∨ (¬ ∀ k ∈ x.path, Flat k) ∨
      spot x.keys out ≠ .free)
    (hv : load_config fresh lines (setenv x.name v environ) saved = some after)
    (hw : load_config fresh lines (setenv x.name w environ) saved = some after') :
    get x.path (.obj after) = get x.path (.obj after') := by
  by_cases hname : x.name ∈ (dotenv lines).map Prod.fst
  · rw [load_config, collect_setenv, if_pos hname] at hv hw
    rw [hv] at hw
    cases hw
    rfl
  obtain ⟨changed, hput, rfl⟩ := load_after_some fresh lines environ saved x hname hout hv
  obtain ⟨changed', hput', rfl⟩ := load_after_some fresh lines environ saved x hname hout hw
  cases hspot : spot x.keys out with
  | blocked =>
      rw [put_blocked _ hspot] at hput
      cases hput
  | taken =>
      rw [put_taken _ hspot] at hput hput'
      cases hput
      cases hput'
      rfl
  | free =>
      have hflat := (hblind.resolve_left hname).resolve_right (not_not.mpr hspot)
      obtain ⟨hapart, hlen⟩ := apart_keysOf hflat
      obtain ⟨k, rest, hkeys, hk, hrest⟩ := keys_cons x
      have hlen' : 2 ≤ x.keys.length := hlen
      have hne : rest ≠ [] := by
        rintro rfl
        rw [hkeys, List.length_singleton] at hlen'
        omega
      obtain ⟨_, hput1, hwritten⟩ := put_free (decode v) hspot
      obtain ⟨_, hput2, hwritten'⟩ := put_free (decode w) hspot
      cases hput.symm.trans hput1
      cases hput'.symm.trans hput2
      rw [hkeys] at hwritten hwritten'
      have hunique := hout.unique
      have hagree := (hwritten.merge_agree hunique (unique_decode v) (merged saved)).symm.trans
        (hwritten'.merge_agree hunique (unique_decode w) (merged saved))
      have hsection : k ∈ sections → rest ≠ [] ∧
          (Dict.lookup k (deepMerge (merged saved) changed)).any isObj =
            (Dict.lookup k (deepMerge (merged saved) changed')).any isObj := fun _ =>
        ⟨hne, (hwritten.merge_head hne hunique (unique_decode v) _).trans
          (hwritten'.merge_head hne hunique (unique_decode w) _).symm⟩
      have hfinish := finish_agree fresh hk hrest hsection hagree
      rw [← hkeys] at hfinish
      exact hfinish x.path hapart

variable {x}

/-- **A flat variable on a free path** is written, and is at its path in the end. -/
theorem written (hname : x.name ∉ (dotenv lines).map Prod.fst) (hflat : ∀ k ∈ x.path, Flat k)
    {out : Entries Num} (hout : Leaves lines environ x out) (hfree : spot x.path out = .free)
    (v : String) :
    ∃ changed, Written (decode v) x.path out changed ∧
      load_config fresh lines (setenv x.name v environ) saved =
        some (finish fresh (deepMerge (merged saved) changed)) := by
  have hkeys : x.keys = x.path := keysOf_joined (ne_nil_of_mem_pathsIn x.isPath) hflat
  obtain ⟨changed, hput, hwritten⟩ := put_free (decode v) hfree
  refine ⟨changed, hwritten, ?_⟩
  rw [load_after fresh lines environ saved x hname hout, hkeys, hput]
  rfl

omit [Loads Num] [Lower] in
/-- Its value, through the merge and everything that follows. -/
theorem value_of_written {v : Json Num} {k : String} {rest : List String} (hk : Flat k)
    (hflat : ∀ key ∈ rest, Flat key) (hsection : k ∈ sections → rest ≠ []) {out changed : Entries Num}
    (hunique : Json.Unique (.obj out)) (hv : Json.Unique v) (h : Written v (k :: rest) out changed)
    (cfg : Entries Num) :
    get (k :: rest) (.obj (finish fresh (deepMerge cfg changed))) =
      some (decrypt_config (mergeValue (get (k :: rest) (.obj cfg)) v)) := by
  rw [finish_value fresh hk hflat fun hmem =>
    ⟨hsection hmem, h.merge_head (hsection hmem) hunique hv cfg⟩, h.merge_value hunique hv]
  rfl

end Load

/-! ## §6 Sections that are checked -/

/-- Numbers that are all the same: paths do not depend on them. -/
@[reducible] def oneNumber : Numeric Unit where
  isTrue _ := false
  nat _ := ()
  tenths _ := ()
  nonneg _ := true
  port _ := true

omit [Loads Num] [Lower] [Unprotect] in
theorem pathsIn_defaults :
    pathsIn (DEFAULTS : Entries Num) = pathsIn (@DEFAULTS Unit oneNumber) := (rfl)

omit [Loads Num] [Lower] [Unprotect] in
/-- The paths of the defaults that a variable can name in a section that is checked. -/
theorem section_paths : (pathsIn (DEFAULTS : Entries Num)).filter
      (fun p => p.head?.any (· ∈ sections) && p.all (fun k => decide (Flat k))) =
    [["quota"], ["lan"], ["mtr"], ["mtr", "target"], ["mtr", "targets"], ["watchdog"],
      ["watchdog", "enabled"], ["watchdog", "hosts"], ["escalate"], ["escalate", "enabled"]] := by
  rw [pathsIn_defaults]
  decide +kernel

omit [Loads Num] [Lower] [Unprotect] in
/-- A section that is restored has a key that the variable's section has not, but for one. -/
theorem section_cases {k : String} {rest : List String}
    (hpath : k :: rest ∈ pathsIn (DEFAULTS : Entries Num)) (hflat : ∀ key ∈ k :: rest, Flat key)
    (hk : k ∈ sections) (hrest : rest ≠ []) :
    ∃ s ∈ SECTIONS, s.1 = k ∧ ∃ h, rest = [h] ∧ (k :: rest = ["escalate", "enabled"] ∨
      ∃ key d, key ≠ h ∧ key ∉ s.2 ∧ Dict.lookup key (defaultsOf s.1 : Entries Num) = some d) := by
  have hmem : k :: rest ∈ (pathsIn (DEFAULTS : Entries Num)).filter
      (fun p => p.head?.any (· ∈ sections) && p.all (fun k => decide (Flat k))) := by
    refine List.mem_filter.mpr ⟨hpath, ?_⟩
    rw [Bool.and_eq_true, List.all_eq_true]
    exact ⟨decide_eq_true hk, fun key hkey => decide_eq_true (hflat key hkey)⟩
  rw [section_paths] at hmem
  simp only [List.mem_cons, List.cons.injEq, List.not_mem_nil, or_false] at hmem
  have hwatchdog : ("watchdog", ["interval_min", "timeout_sec", "disk_free_pct", "ram_free_mb",
      "event_hours", "offline_after_polls"]) ∈ SECTIONS := by decide
  have hmtr : ("mtr", ["max_hops", "cycle_sec", "pings_per_hop", "rotate_sec"]) ∈ SECTIONS := by
    decide
  have hescalate : ("escalate", ["unack_min"]) ∈ SECTIONS := by decide
  rcases hmem with ⟨-, h⟩ | ⟨-, h⟩ | ⟨-, h⟩ | ⟨rfl, rfl⟩ | ⟨rfl, rfl⟩ | ⟨-, h⟩ | ⟨rfl, rfl⟩ | ⟨rfl, rfl⟩ |
    ⟨-, h⟩ | ⟨rfl, rfl⟩
  · exact absurd h hrest
  · exact absurd h hrest
  · exact absurd h hrest
  · exact ⟨_, hmtr, rfl, _, rfl, .inr ⟨"targets", _, by decide, by decide, rfl⟩⟩
  · exact ⟨_, hmtr, rfl, _, rfl, .inr ⟨"target", _, by decide, by decide, rfl⟩⟩
  · exact absurd h hrest
  · exact ⟨_, hwatchdog, rfl, _, rfl, .inr ⟨"hosts", _, by decide, by decide, rfl⟩⟩
  · exact ⟨_, hwatchdog, rfl, _, rfl, .inr ⟨"enabled", _, by decide, by decide, rfl⟩⟩
  · exact absurd h hrest
  · exact ⟨_, hescalate, rfl, _, rfl, .inl rfl⟩

omit [Numeric Num] [Loads Num] [Lower] [Unprotect] in
/-- Where there was an object for the section, there is one without the variable. -/
theorem any_isObj_merged {v : Json Num} {k : String} {rest : List String} {out changed : Entries Num}
    (hwritten : Written v (k :: rest) out changed) (hrest : rest ≠ [])
    (hunique : Json.Unique (.obj out)) {cfg : Entries Num}
    (hobj : (Dict.lookup k cfg).any isObj = true ∨ (Dict.lookup k out).any isObj = true) :
    (Dict.lookup k (deepMerge cfg out)).any isObj = true := by
  rw [Json.Unique] at hunique
  cases hwritten with
  | last => exact absurd rfl hrest
  | step hnode below =>
      rw [lookup_deepMerge hunique.1]
      cases hold : Dict.lookup k out with
      | none =>
          rw [hold] at hobj
          exact hobj.resolve_right Bool.false_ne_true
      | some w =>
          rw [hold] at hnode
          cases w with
          | obj entries =>
              have hkeys := hunique.2.of_mem (Dict.mem_of_lookup hold)
              rw [Json.Unique] at hkeys
              rw [Option.map_some, Option.some_or, mergeValue_obj_inner _ hkeys.1]
              rfl
          | _ => cases hnode

omit [Loads Num] [Lower] in
/-- **Where there was no object** for the section, it is restored without the variable, and with it is
made of the variable and the fields that are checked. -/
theorem restored (fresh : Token) {s : String × List String} (hs : s ∈ SECTIONS) {h : String}
    {v : Json Num} {out changed : Entries Num} (hwritten : Written v [s.1, h] out changed)
    (hunique : Json.Unique (.obj out)) (hv : Json.Unique v) {cfg : Entries Num}
    (hcfg : (Dict.lookup s.1 cfg).any isObj = false)
    (hout : (Dict.lookup s.1 out).any isObj = false) :
    Dict.lookup s.1 (finish fresh (deepMerge cfg out)) = some (.obj (defaultsOf s.1)) ∧
      Dict.lookup s.1 (finish fresh (deepMerge cfg changed)) =
        some (.obj (checkFields s.1 s.2 [(h, decrypt_config v)])) := by
  have hinner : inner (Dict.lookup s.1 cfg) = [] := by
    cases hold : Dict.lookup s.1 cfg with
    | none => rfl
    | some w =>
        rw [hold] at hcfg
        cases w with
        | obj entries => cases hcfg
        | _ => rfl
  have hchanged := hwritten.unique hunique hv
  rw [Json.Unique] at hunique hchanged
  cases hwritten with
  | @step _ _ _ node node' hnode below =>
      have hnone : Dict.lookup s.1 out = none := by
        cases hold : Dict.lookup s.1 out with
        | none => rfl
        | some w =>
            rw [hold] at hout hnode
            cases w with
            | obj entries => cases hout
            | _ => cases hnode
      rw [hnone] at hnode
      cases hnode
      have hnode' : node' = [(h, v)] := by
        cases below with
        | last => rfl
        | step _ below => exact absurd rfl below.ne_nil
      subst hnode'
      have hone : ([(h, v)].map Prod.fst).Nodup := List.nodup_singleton h
      rw [finish_section fresh hs, finish_section fresh hs, lookup_deepMerge hunique.1,
        lookup_deepMerge hchanged.1, hnone, Dict.lookup_assign, if_pos rfl, Option.map_none,
        Option.none_or, if_neg (by rw [hcfg]; exact Bool.false_ne_true), Option.map_some,
        Option.some_or, mergeValue_obj_inner _ hone, hinner, deepMerge_nil_base hone]
      refine ⟨rfl, ?_⟩
      show some (Json.obj (checkFields s.1 s.2 (decryptEntries [(h, v)]))) = _
      rw [decryptEntries, decryptEntries]

/-! ## §7 When a variable does what it is for -/

section Right

variable (fresh : Token) {lines : List String} {environ : List (String × String)}
  {saved : Option (Json Num)} {x : Variable Num}

omit [Lower] in
/-- A value that goes where there are no entries is there as it is. -/
theorem mergeValue_usual {v : String} (hv : Usual Num v) {old : Option (Json Num)}
    (hold : inner old = []) :
    decrypt_config (mergeValue old (decode v)) = (meant v : Json Num) := by
  obtain ⟨hfalsy, hplain⟩ := hv
  have hunique : Json.Unique (decode v : Json Num) := unique_decode v
  have hdecode : (decode v : Json Num) = meant v := decode_usual hfalsy
  rw [hdecode] at hunique ⊢
  have hmerge : mergeValue old (meant v) = meant v := by
    cases hobj : (meant v : Json Num) with
    | obj entries =>
        rw [hobj, Json.Unique] at hunique
        rw [mergeValue_obj_inner _ hunique.1, hold, deepMerge_nil_base hunique.1]
    | _ => exact mergeValue_of_not_obj _ rfl
  rw [hmerge, hplain]

/-- **The condition is enough.** -/
theorem sets_of_met (hmet : Met lines environ saved x) {v : String} (hv : Usual Num v) :
    Sets fresh lines environ saved x v := by
  obtain ⟨out, hout⟩ := (orderly_iff _ _).mp hmet.orderly
  have hleaves : Leaves lines environ x out := hout
  have hfree := hmet.free out hout
  obtain ⟨changed, hwritten, hload⟩ :=
    written fresh lines environ saved hmet.unnamed hmet.flat hleaves hfree v
  have hunique := hleaves.unique
  have hflat := hmet.flat
  have hchecked := hmet.checked
  have hbase := hmet.base
  obtain ⟨k, rest, hpath⟩ := List.exists_cons_of_ne_nil (ne_nil_of_mem_pathsIn x.isPath)
  rw [hpath] at hwritten hflat hbase
  obtain ⟨hk, hrest⟩ := List.forall_mem_cons.mp hflat
  have hload' : load_config fresh lines (unset x.name environ) saved =
      some (finish fresh (deepMerge (merged saved) out)) := by
    rw [load_config, env_overrides, hout]
    rfl
  refine ⟨_, _, hload', hload, ?_, ?_⟩
  · rw [hpath, value_of_written fresh hk hrest (fun hmem => (hchecked k rest hpath hmem).1) hunique
      (unique_decode v) hwritten, mergeValue_usual hv hbase]
  · have hagree := hwritten.merge_agree hunique (unique_decode v) (merged saved)
    rw [hpath]
    by_cases hmem : k ∈ sections
    swap
    · exact finish_agree fresh hk hrest (fun h => absurd h hmem) hagree
    obtain ⟨hne, hobj⟩ := hchecked k rest hpath hmem
    by_cases hsome : (Dict.lookup k (merged saved)).any isObj = true ∨
        (Dict.lookup k out).any isObj = true
    · refine finish_agree fresh hk hrest (fun _ => ⟨hne, ?_⟩) hagree
      rw [any_isObj_merged hwritten hne hunique hsome,
        hwritten.merge_head hne hunique (unique_decode v)]
    · -- `escalate.enabled`: the other field of the section is one that is checked
      have hesc := (or_assoc.mpr (hobj out hout)).resolve_left hsome
      rw [hpath, List.cons.injEq] at hesc
      obtain ⟨rfl, rfl⟩ := hesc
      rw [not_or, Bool.not_eq_true, Bool.not_eq_true] at hsome
      have hs : ("escalate", ["unack_min"]) ∈ SECTIONS := by decide
      obtain ⟨hbefore, hafter⟩ := restored fresh hs hwritten hunique (unique_decode v) hsome.1 hsome.2
      refine agree_obj (fun k' hk' => finish_other fresh hk hagree hk') fun q hq => ?_
      obtain ⟨key, q, rfl, hkey | ⟨-, hq⟩⟩ := hq.cases
      · have hmissing : Dict.lookup key [("enabled", decrypt_config (decode v : Json Num))] = none :=
          if_neg hkey.symm
        rw [hbefore, hafter, Option.bind_some, Option.bind_some, get_cons, get_cons,
          lookup_checkFields_missing hs hmissing]
        by_cases hfield : key ∈ ["unack_min"]
        · rw [if_pos hfield]
        · have hkeys : key ∉ (defaultsOf "escalate" : Entries Num).map Prod.fst := by
            show key ∉ ["enabled", "unack_min"]
            rw [List.mem_cons, not_or]
            exact ⟨hkey, hfield⟩
          rw [if_neg hfield, Dict.lookup_eq_none hkeys]
      · exact absurd List.nil_prefix hq.1

/-! ### The other direction -/

omit [Lower] in
theorem usual_on : Usual Num "on" ∧ (meant "on" : Json Num) = .str "on" := by
  have hmeant : (meant "on" : Json Num) = .str "on" := by
    rw [meant, Loads.loads_word, Option.getD_none]
  refine ⟨⟨?_, ?_⟩, hmeant⟩
  · rintro ⟨d, hd, -⟩
    rw [Loads.loads_word] at hd
    cases hd
  · rw [hmeant, decrypt_config, if_neg (by decide)]

omit [Lower] in
/-- A value that is JSON for something true and without texts is usual. -/
theorem usual_of_loads {v : String} {d : Json Num} (hd : loads v = some d) (htrue : d.truthy = true)
    (hplain : decrypt_config d = d) : Usual Num v ∧ (meant v : Json Num) = d := by
  have hmeant : (meant v : Json Num) = d := by
    rw [meant, hd, Option.getD_some]
  refine ⟨⟨?_, by rw [hmeant, hplain]⟩, hmeant⟩
  rintro ⟨d', hd', hfalse⟩
  rw [hd] at hd'
  cases hd'
  rw [htrue] at hfalse
  cases hfalse

omit [Lower] in
theorem usual_true : Usual Num "true" ∧ (meant "true" : Json Num) = .bool true :=
  usual_of_loads Loads.loads_true rfl (by rw [decrypt_config])

omit [Lower] in
/-- For each key there is an object without it. -/
theorem usual_other (key : String) : ∃ v key', key' ≠ key ∧ Usual Num v ∧
    (meant v : Json Num) = .obj [(key', .bool true)] := by
  have hplain (key' : String) : decrypt_config (.obj [(key', .bool true)] : Json Num) =
      .obj [(key', .bool true)] := by
    rw [decrypt_config, decryptEntries, decryptEntries, decrypt_config]
  by_cases hkey : "a" = key
  · refine ⟨_, "b", ?_, usual_of_loads Loads.loads_b rfl (hplain "b")⟩
    rw [← hkey]
    decide
  · exact ⟨_, "a", hkey, usual_of_loads Loads.loads_a rfl (hplain "a")⟩

/-- The value at the path is that of the variable: it is seen, and nothing is in its way. -/
theorem seen (h : ∀ v, Usual Num v → Sets fresh lines environ saved x v) {out : Entries Num}
    (hout : Leaves lines environ x out) :
    x.name ∉ (dotenv lines).map Prod.fst ∧ (∀ k ∈ x.path, Flat k) ∧ spot x.keys out = .free := by
  obtain ⟨hon, hmeant⟩ : Usual Num "on" ∧ _ := usual_on
  obtain ⟨htrue, hmeant'⟩ : Usual Num "true" ∧ _ := usual_true
  obtain ⟨_, after, -, hload, hget, -⟩ := h "on" hon
  obtain ⟨_, after', -, hload', hget', -⟩ := h "true" htrue
  have hsee : ¬ (x.name ∈ (dotenv lines).map Prod.fst ∨ (¬ ∀ k ∈ x.path, Flat k) ∨
      spot x.keys out ≠ .free) := by
    intro hblind
    have hsame := blind fresh lines environ saved x hout hblind hload hload'
    rw [hget, hget', hmeant, hmeant'] at hsame
    cases hsame
  rw [not_or, not_or, not_not, not_not] at hsee
  exact hsee

/-- A configuration with an entry below the key of the variable keeps it. -/
theorem base_of_sets {k : String} {rest : List String} (hpath : x.path = k :: rest)
    (h : ∀ v, Usual Num v → Sets fresh lines environ saved x v) {out : Entries Num}
    (hout : Leaves lines environ x out) (hsection : k ∈ sections → rest ≠ []) :
    inner (get x.path (.obj (merged saved))) = [] := by
  obtain ⟨hname, hflat, hfree⟩ := seen fresh h hout
  have hkeys : x.keys = x.path := keysOf_joined (ne_nil_of_mem_pathsIn x.isPath) hflat
  rw [hkeys] at hfree
  cases hinner : inner (get x.path (.obj (merged saved))) with
  | nil => rfl
  | cons e more =>
      exfalso
      obtain ⟨v, key', hne, hv, hmeant⟩ : ∃ v key', key' ≠ e.1 ∧ Usual Num v ∧ _ := usual_other e.1
      obtain ⟨_, after, -, hload, hget, -⟩ := h v hv
      obtain ⟨changed, hwritten, hload'⟩ :=
        written fresh lines environ saved hname hflat hout hfree v
      obtain rfl := Option.some.inj (hload.symm.trans hload')
      rw [hpath] at hwritten hget hinner hflat
      obtain ⟨hk, hrest⟩ := List.forall_mem_cons.mp hflat
      have hone : ([(key', (Json.bool true : Json Num))].map Prod.fst).Nodup :=
        List.nodup_singleton key'
      rw [value_of_written fresh hk hrest hsection hout.unique (unique_decode v) hwritten,
        decode_usual hv.1, hmeant, mergeValue_obj_inner _ hone, hinner, decrypt_config,
        Option.some.injEq, Json.obj.injEq] at hget
      -- the entry that was there is no entry of the object
      have hlookup := congrArg (Dict.lookup e.1) hget
      rw [lookup_decryptEntries, lookup_deepMerge hone] at hlookup
      have hnone : Dict.lookup e.1 [(key', (Json.bool true : Json Num))] = none := if_neg hne
      have hsome : Dict.lookup e.1 (e :: more) = some e.2 := if_pos rfl
      rw [hnone, hsome] at hlookup
      cases hlookup

/-- A section that is checked has an object in one of the two, or loses a key. -/
theorem checked_of_sets {k : String} {rest : List String} (hpath : x.path = k :: rest)
    (h : ∀ v, Usual Num v → Sets fresh lines environ saved x v) {out : Entries Num}
    (hout : Leaves lines environ x out) (hmem : k ∈ sections) :
    rest ≠ [] ∧ ((Dict.lookup k (merged saved)).any isObj ∨ (Dict.lookup k out).any isObj ∨
      x.path = ["escalate", "enabled"]) := by
  obtain ⟨hname, hflat, hfree⟩ := seen fresh h hout
  have hkeys : x.keys = x.path := keysOf_joined (ne_nil_of_mem_pathsIn x.isPath) hflat
  rw [hkeys] at hfree
  obtain ⟨hon, hmeant⟩ : Usual Num "on" ∧ _ := usual_on
  obtain ⟨before, after, hload, hload', hget, hagree⟩ := h "on" hon
  obtain ⟨out', hout', rfl⟩ := load_before fresh lines environ saved x hload
  cases hout.symm.trans hout'
  obtain ⟨changed, hwritten, hload''⟩ :=
    written fresh lines environ saved hname hflat hout hfree "on"
  obtain rfl := Option.some.inj (hload'.symm.trans hload'')
  rw [hmeant] at hget
  obtain ⟨s, hs, rfl⟩ := List.mem_map.mp hmem
  have hrest : rest ≠ [] := by
    rintro rfl
    rw [hpath, get_key, finish_section fresh hs] at hget
    cases hget
  refine ⟨hrest, ?_⟩
  by_contra hnone
  rw [not_or, not_or, Bool.not_eq_true, Bool.not_eq_true] at hnone
  obtain ⟨hcfg, hnoobj, hother⟩ := hnone
  have hisPath := x.isPath
  rw [hpath] at hisPath hflat hwritten hagree hother
  obtain ⟨s', hs', heq, hlast, rfl, hcase⟩ := section_cases hisPath hflat hmem hrest
  obtain ⟨key, d, hkey, hfield, hdefault⟩ := hcase.resolve_left hother
  rw [← heq] at hwritten hcfg hnoobj hagree
  obtain ⟨hbefore, hafter⟩ :=
    restored fresh hs' hwritten hout.unique (unique_decode "on") hcfg hnoobj
  have hmissing : Dict.lookup key [(hlast, decrypt_config (decode "on" : Json Num))] = none :=
    if_neg hkey.symm
  -- the default is there without the variable only
  have hlookup := hagree [s'.1, key] (apart_cons.mpr (apart_of_ne hkey.symm [] []))
  rw [get_cons, get_cons, hbefore, hafter, Option.bind_some, Option.bind_some, get_key, get_key,
    hdefault, lookup_checkFields_missing hs' hmissing, if_neg hfield] at hlookup
  cases hlookup

/-- **The condition is needed.** -/
theorem met_of_sets (h : ∀ v, Usual Num v → Sets fresh lines environ saved x v) :
    Met lines environ saved x := by
  obtain ⟨hon, -⟩ : Usual Num "on" ∧ _ := usual_on
  obtain ⟨before, _, hload, -⟩ := h "on" hon
  obtain ⟨out, hout, -⟩ := load_before fresh lines environ saved x hload
  obtain ⟨hname, hflat, hfree⟩ := seen fresh h hout
  have hkeys : x.keys = x.path := keysOf_joined (ne_nil_of_mem_pathsIn x.isPath) hflat
  rw [hkeys] at hfree
  obtain ⟨k, rest, hpath⟩ := List.exists_cons_of_ne_nil (ne_nil_of_mem_pathsIn x.isPath)
  have hchecked (hmem : k ∈ sections) := checked_of_sets fresh hpath h hout hmem
  have honly : ∀ out' : Entries Num,
      env_overrides (collect lines (unset x.name environ)) = some out' → out' = out :=
    fun out' hout' => Option.some.inj (hout'.symm.trans hout)
  exact {
    unnamed := hname
    flat := hflat
    orderly := (orderly_iff _ _).mpr ⟨out, hout⟩
    free := fun out' hout' => honly out' hout' ▸ hfree
    base := base_of_sets fresh hpath h hout fun hmem => (hchecked hmem).1
    checked := by
      intro k' rest' hpath' hmem
      rw [hpath, List.cons.injEq] at hpath'
      obtain ⟨rfl, rfl⟩ := hpath'
      exact ⟨(hchecked hmem).1, fun out' hout' => honly out' hout' ▸ (hchecked hmem).2⟩ }

/-- **Text for what is false**: no variable does what it is for on all values of this kind. -/
theorem not_sets_falsy (h : ∀ v, Falsy Num v → Sets fresh lines environ saved x v) : False := by
  have hnull : Falsy Num "null" := ⟨.null, Loads.loads_null, rfl⟩
  have hfalse : Falsy Num "false" := ⟨.bool false, Loads.loads_false, rfl⟩
  have hmeant : (meant "null" : Json Num) = .null := by
    rw [meant, Loads.loads_null, Option.getD_some]
  have hmeant' : (meant "false" : Json Num) = .bool false := by
    rw [meant, Loads.loads_false, Option.getD_some]
  obtain ⟨before, after, hload, hload', hget, -⟩ := h "null" hnull
  obtain ⟨_, after', -, hload'', hget', -⟩ := h "false" hfalse
  obtain ⟨out, hout, -⟩ := load_before fresh lines environ saved x hload
  by_cases hblind : x.name ∈ (dotenv lines).map Prod.fst ∨ (¬ ∀ k ∈ x.path, Flat k) ∨
      spot x.keys out ≠ .free
  · have hsame := blind fresh lines environ saved x hout hblind hload' hload''
    rw [hget, hget', hmeant, hmeant'] at hsame
    cases hsame
  · rw [not_or, not_or, not_not, not_not] at hblind
    obtain ⟨hname, hflat, hfree⟩ := hblind
    have hkeys : x.keys = x.path := keysOf_joined (ne_nil_of_mem_pathsIn x.isPath) hflat
    rw [hkeys] at hfree
    obtain ⟨changed, hwritten, hload₃⟩ :=
      written fresh lines environ saved hname hflat hout hfree "null"
    obtain rfl := Option.some.inj (hload'.symm.trans hload₃)
    obtain ⟨k, rest, hpath⟩ := List.exists_cons_of_ne_nil (ne_nil_of_mem_pathsIn x.isPath)
    rw [hpath] at hwritten hget hflat
    obtain ⟨hk, hrest⟩ := List.forall_mem_cons.mp hflat
    have hdecode : (decode "null" : Json Num) = .str "null" := by
      rw [decode, Loads.loads_null]
      rfl
    have hplain : decrypt_config (.str "null" : Json Num) = .str "null" := by
      rw [decrypt_config, if_neg (by decide)]
    by_cases hsection : k ∈ sections → rest ≠ []
    · rw [value_of_written fresh hk hrest hsection hout.unique (unique_decode _) hwritten, hdecode,
        mergeValue_of_not_obj _ rfl, hplain, hmeant] at hget
      cases hget
    · push Not at hsection
      obtain ⟨hmem, rfl⟩ := hsection
      obtain ⟨s, hs, rfl⟩ := List.mem_map.mp hmem
      rw [get_key, finish_section fresh hs, hmeant] at hget
      cases hget

end Right

end Setting

/-! ## §8 A port, and two variables for one section -/

section Concrete

attribute [local instance] asciiLower

instance intNumeric : Numeric Int where
  isTrue n := n ≠ 0
  nat n := n
  tenths n := n
  nonneg n := decide (0 ≤ n)
  port n := decide (1 ≤ n ∧ n ≤ 65535)

/-- `json.loads` of some texts. -/
def someTexts : List (String × Json Int) :=
  [("null", .null), ("false", .bool false), ("true", .bool true), ("9000", .num 9000),
    ("\x7b\"a\": true\x7d", .obj [("a", .bool true)]), ("\x7b\"b\": true\x7d", .obj [("b", .bool true)])]

@[reducible] def someLoads : Loads Int where
  loads s := Dict.lookup s someTexts
  unique {s v} h := by
    have hmem := Dict.mem_of_lookup h
    have hall : ∀ e ∈ someTexts, Json.Unique e.2 := by
      simp [someTexts, Json.Unique, UniqueEntries]
    exact hall _ hmem
  loads_null := rfl
  loads_false := rfl
  loads_true := rfl
  loads_word := rfl
  loads_a := rfl
  loads_b := rfl

@[reducible] def noUnprotect : Unprotect := ⟨fun _ => none⟩

attribute [local instance] someLoads noUnprotect

def webPort : Variable Int where
  path := ["web_port"]
  isPath := by decide
  suffix := "WEB_PORT"
  spelled := by decide

def number : Option (Json Int) → Option Int
  | some (.num n) => some n
  | _ => none

theorem number_eq {v : Option (Json Int)} {n : Int} (h : number v = some n) : v = some (.num n) := by
  unfold number at h
  split at h
  · cases h
    rfl
  · cases h

end Concrete

end NetPulse.Server.Config
