import Mathlib.Data.String.Basic
import NetPulse.Updater.Release
import NetPulse.Lib.KeyOrder

/-
# NetPulse.Updater.Catalogue — the versions that are on offer (`updater.py`, `check`)

`check` makes two lists of what the sources offer. The one that is shown is sorted by the text of the
versions, with the first source of each; `_known`, from which `download` takes the node, has the last
source of each. So 1.10.0 is shown behind 1.9.0, and a version of two sources is shown with the one
and fetched from the other.

`check_right_iff`: the list is in the order of the versions and names the nodes of `_known` exactly
when the texts of all versions on offer are in the order of the versions, and the first and the last
source of each version are one node.

A source is a position of the configuration with what it answers; its manifests arrive in any order.
Of an error only the destination is kept.
-/

namespace NetPulse.Updater.Catalogue

open NetPulse.Lib NetPulse.Lib.Json NetPulse.Lib.KeyOrder

variable {Num : Type}

/-! ## §1 Data -/

/-- `UpdateSource` -/
structure Source where
  node : String
  share : String

/-- What a source answers. -/
inductive Outcome (Num : Type) where
  /-- `files.find` is not answered, or not with `ok`. -/
  | failed
  /-- The paths of the manifests with what is read there, and the order in which that arrives. -/
  | found (entries arrived : List (String × Reading Num)) (all : arrived.Perm entries)

/-- A manifest with a version, and where it was. -/
structure Offer (Num : Type) where
  version : String
  manifest : Entries Num
  path : String

/-- An entry of `available`. -/
structure Row (Num : Type) where
  version : String
  node : String
  size : Json Num
  notes : Json Num
  min_compatible : Json Num
  newer : Bool

/-- An entry of `_known`; `exe_rel` is the directory of `path` with the name in the manifest. -/
structure Info (Num : Type) where
  manifest : Entries Num
  node : String
  share : String
  path : String

/-- The answer of `check`. -/
structure Checked (Num : Type) where
  current : String
  available : List (Row Num)
  errors : Dict String Unit

section Check

variable [VersionText] [Truth Num]

/-! ## §2 `check` -/

/-- `_read_one` raises. -/
def raises (e : String × Reading Num) : Bool :=
  match readOne e.2 with
  | .error _ => true
  | .ok _ => false

/-- What `_read_one` finds. -/
def offer? (e : String × Reading Num) : Option (Offer Num) :=
  match readOne e.2 with
  | .ok (some (version, manifest)) => some ⟨version, manifest, e.1⟩
  | _ => none

/-- `_probe`: the offers in the order of the entries, and in that of arrival. -/
def probe : Outcome Num → Option (List (Offer Num) × List (Offer Num))
  | .failed => none
  | .found entries arrived _ =>
      if entries.any raises then none else some (entries.filterMap offer?, arrived.filterMap offer?)

def Offer.row (current : String) (s : Source) (o : Offer Num) : Row Num where
  version := o.version
  node := s.node
  size := (Dict.lookup "size" o.manifest).getD .null
  notes := (Dict.lookup "notes" o.manifest).getD (.str "")
  min_compatible := (Dict.lookup "min_compatible" o.manifest).getD (.str "")
  newer := isNewer o.version current

def Offer.info (s : Source) (o : Offer Num) : Info Num := ⟨o.manifest, s.node, s.share, o.path⟩

/-- `_known.update(local_known)` -/
def update (s : Source) (known : Dict String (Info Num)) (offers : List (Offer Num)) :
    Dict String (Info Num) :=
  offers.foldl (fun known o => known.set o.version (o.info s)) known

/-- What the loop over the probes has gathered. -/
structure Gathered (Num : Type) where
  known : Dict String (Info Num)
  available : List (Row Num)
  errors : Dict String Unit

/-- One turn of the loop; `resolve` is `_resolve_dst`. -/
def gatherOne (resolve : String → String) (current : String) (g : Gathered Num)
    (a : Source × Outcome Num) : Gathered Num :=
  match probe a.2 with
  | none => { g with errors := g.errors.set (resolve a.1.node) () }
  | some (local_avail, local_known) =>
      { g with
        known := update a.1 g.known local_known
        available := g.available ++ local_avail.map (Offer.row current a.1) }

/-- The sources that are asked: all, or those of one node. -/
def asked (wanted : Option String) (sources : List (Source × Outcome Num)) :
    List (Source × Outcome Num) :=
  match wanted.filter (· ≠ "") with
  | none => sources
  | some node => sources.filter fun a => a.1.node = node

def gathered (resolve : String → String) (current : String) (known : Dict String (Info Num))
    (sources : List (Source × Outcome Num)) : Gathered Num :=
  sources.foldl (gatherOne resolve current) ⟨known, [], Dict.empty⟩

/-- `check`, with `_known` before and after. -/
def check (resolve : String → String) (current : String) (sources : List (Source × Outcome Num))
    (wanted : Option String) (known : Dict String (Info Num)) :
    Dict String (Info Num) × Except String (Checked Num) :=
  if (asked wanted sources).isEmpty then (known, .error "в update.sources нет источников")
  else
    let g := gathered resolve current known (asked wanted sources)
    (g.known, .ok ⟨current, catalogue Row.version g.available, g.errors⟩)

/-! ## §3 What is promised -/

/-- Whether a source answers with this version. -/
def offers (v : String) (a : Source × Outcome Num) : Bool :=
  (probe a.2).any fun p => p.1.any fun o => o.version = v

/-- One entry for each version on offer, the newest first, with the nodes of `_known`. -/
structure Right (asked : List (Source × Outcome Num)) (known : Dict String (Info Num))
    (available : List (Row Num)) : Prop where
  once : (available.map Row.version).Nodup
  all : ∀ v, v ∈ available.map Row.version ↔ ∃ a ∈ asked, offers v a = true
  ordered : available.Pairwise fun x y => compareVersions x.version y.version ≠ .lt
  nodes : ∀ row ∈ available, ∃ info, known.get row.version = some info ∧ info.node = row.node

/-- Of two versions on offer, the greater text is not the older version; and the first source of a
version is the same node as the last one. -/
structure Agree (asked : List (Source × Outcome Num)) : Prop where
  texts : ∀ x y, (∃ a ∈ asked, offers x a = true) → (∃ a ∈ asked, offers y a = true) → y < x →
    compareVersions x y ≠ .lt
  ends : ∀ v, (asked.filter (offers v)).head?.map (·.1.node) =
    (asked.filter (offers v)).getLast?.map (·.1.node)

/-! ## §4 What is gathered -/

variable {resolve : String → String} {current v : String}

/-- The rows of a source. -/
def rows (current : String) (a : Source × Outcome Num) : List (Row Num) :=
  (probe a.2).elim [] fun p => p.1.map (Offer.row current a.1)

theorem gatherOne_available (g : Gathered Num) (a : Source × Outcome Num) :
    (gatherOne resolve current g a).available = g.available ++ rows current a := by
  unfold gatherOne rows
  cases probe a.2 with
  | none => exact (List.append_nil _).symm
  | some p => rfl

theorem available_foldl (g : Gathered Num) (sources : List (Source × Outcome Num)) :
    (sources.foldl (gatherOne resolve current) g).available =
      g.available ++ sources.flatMap (rows current) := by
  induction sources generalizing g with
  | nil => exact (List.append_nil _).symm
  | cons a rest ih =>
      rw [List.foldl_cons, ih, gatherOne_available, List.flatMap_cons, List.append_assoc]

theorem available_gathered (known : Dict String (Info Num)) (sources : List (Source × Outcome Num)) :
    (gathered resolve current known sources).available = sources.flatMap (rows current) := by
  rw [gathered, available_foldl, List.nil_append]

theorem node_of_mem_rows {a : Source × Outcome Num} {row : Row Num} (h : row ∈ rows current a) :
    row.node = a.1.node := by
  unfold rows at h
  cases hprobe : probe a.2 with
  | none =>
      rw [hprobe] at h
      cases h
  | some p =>
      rw [hprobe] at h
      obtain ⟨o, -, rfl⟩ := List.mem_map.mp h
      rfl

theorem offers_iff (current : String) {a : Source × Outcome Num} :
    offers v a = true ↔ ∃ row ∈ rows current a, row.version = v := by
  unfold offers rows
  cases probe a.2 with
  | none => exact iff_of_false Bool.false_ne_true (fun ⟨_, h, _⟩ => by cases h)
  | some p =>
      rw [Option.any_some, List.any_eq_true]
      constructor
      · rintro ⟨o, ho, hv⟩
        exact ⟨_, List.mem_map_of_mem ho, of_decide_eq_true hv⟩
      · rintro ⟨row, hrow, hv⟩
        obtain ⟨o, ho, rfl⟩ := List.mem_map.mp hrow
        exact ⟨o, ho, decide_eq_true hv⟩

/-- The first row of a version in one source. -/
theorem find?_rows (a : Source × Outcome Num) :
    ((rows current a).find? (ofKey Row.version v)).map Row.node =
      if offers v a then some a.1.node else none := by
  cases hfind : (rows current a).find? (ofKey Row.version v) with
  | none =>
      have hnone : ¬ offers v a = true := by
        rw [offers_iff current]
        rintro ⟨row, hrow, hv⟩
        exact List.find?_eq_none.mp hfind row hrow (decide_eq_true hv)
      rw [if_neg hnone]
      rfl
  | some row =>
      have hmem := List.mem_of_find?_eq_some hfind
      have hsome : offers v a = true := (offers_iff current).mpr
        ⟨row, hmem, key_of_find? hfind⟩
      rw [if_pos hsome, Option.map_some, node_of_mem_rows hmem]

/-- **The node that is shown** is that of the first source of the version. -/
theorem find?_available (current : String) (sources : List (Source × Outcome Num)) :
    ((sources.flatMap (rows current)).find? (ofKey Row.version v)).map Row.node =
      (sources.filter (offers v)).head?.map (·.1.node) := by
  induction sources with
  | nil => rfl
  | cons a rest ih =>
      rw [List.flatMap_cons, List.find?_append, Option.map_or, find?_rows, List.filter_cons, ih]
      cases offers v a <;> rfl

omit [VersionText] [Truth Num] in
/-- `update` of one source gives a version its node, or leaves it. -/
theorem get_update (s : Source) (known : Dict String (Info Num)) (os : List (Offer Num)) :
    ((update s known os).get v).map Info.node =
      if os.any (fun o => o.version = v) then some s.node else (known.get v).map Info.node := by
  induction os generalizing known with
  | nil => rfl
  | cons o rest ih =>
      rw [update, List.foldl_cons, ← update, ih, List.any_cons, Dict.get_set]
      by_cases hv : o.version = v
      · rw [decide_eq_true hv, Bool.true_or, if_pos rfl, if_pos hv.symm]
        split_ifs <;> rfl
      · rw [decide_eq_false hv, Bool.false_or, if_neg (Ne.symm hv)]

/-- The order of arrival does not matter. -/
theorem any_arrived {entries arrived : List (String × Reading Num)} (h : arrived.Perm entries) :
    (arrived.filterMap offer?).any (fun o => o.version = v) =
      (entries.filterMap offer?).any fun o => o.version = v :=
  List.Perm.any_eq (h.filterMap offer?)

theorem known_gatherOne (g : Gathered Num) (a : Source × Outcome Num) :
    ((gatherOne resolve current g a).known.get v).map Info.node =
      if offers v a then some a.1.node else (g.known.get v).map Info.node := by
  obtain ⟨s, outcome⟩ := a
  unfold gatherOne offers
  dsimp only
  cases outcome with
  | failed => rfl
  | found entries arrived all =>
      cases hraises : entries.any raises with
      | true =>
          have hprobe : probe (.found entries arrived all) = none := if_pos hraises
          rw [hprobe]
          rfl
      | false =>
          have hprobe : probe (.found entries arrived all) =
              some (entries.filterMap offer?, arrived.filterMap offer?) := by
            rw [probe, if_neg (Bool.eq_false_iff.mp hraises)]
          rw [hprobe, Option.any_some]
          dsimp only
          rw [get_update, any_arrived all]

/-- **The node that is remembered** is that of the last source of the version. -/
theorem known_foldl (g : Gathered Num) (sources : List (Source × Outcome Num)) :
    ((sources.foldl (gatherOne resolve current) g).known.get v).map Info.node =
      ((sources.filter (offers v)).getLast?.map (·.1.node)).or ((g.known.get v).map Info.node) := by
  induction sources generalizing g with
  | nil => rfl
  | cons a rest ih =>
      rw [List.foldl_cons, ih, known_gatherOne, List.filter_cons]
      cases offers v a with
      | false => rfl
      | true =>
          rw [if_pos rfl, if_pos rfl, List.getLast?_cons]
          cases (rest.filter (offers v)).getLast? <;> rfl

/-! ## §5 The catalogue -/

section Catalogue

variable {sources : List (Source × Outcome Num)} {known : Dict String (Info Num)}

theorem mem_versions (current : String) :
    v ∈ (catalogue Row.version (sources.flatMap (rows current))).map Row.version ↔
      ∃ a ∈ sources, offers v a = true := by
  rw [List.mem_map]
  constructor
  · rintro ⟨row, hrow, rfl⟩
    obtain ⟨a, ha, hrow⟩ := List.mem_flatMap.mp (mem_of_mem_catalogue hrow)
    exact ⟨a, ha, (offers_iff current).mpr ⟨row, hrow, rfl⟩⟩
  · rintro ⟨a, ha, hoffers⟩
    obtain ⟨row, hrow, rfl⟩ := (offers_iff current).mp hoffers
    exact exists_mem_catalogue (List.mem_flatMap.mpr ⟨a, ha, hrow⟩)

theorem nodup_versions :
    ((catalogue Row.version (sources.flatMap (rows current))).map Row.version).Nodup :=
  List.pairwise_map.mpr (pairwise_firsts [] _)

/-- **The order of the texts** is the order of the versions exactly if it is for any two on offer. -/
theorem ordered_iff :
    ((catalogue Row.version (sources.flatMap (rows current))).Pairwise fun x y =>
        compareVersions x.version y.version ≠ .lt) ↔
      ∀ x y, (∃ a ∈ sources, offers x a = true) → (∃ a ∈ sources, offers y a = true) → y < x →
        compareVersions x y ≠ .lt := by
  rw [pairwise_catalogue_iff]
  constructor
  · intro hordered x y hx hy hlt
    obtain ⟨a, ha, rfl⟩ := List.mem_map.mp ((mem_versions current).mpr hx)
    obtain ⟨b, hb, rfl⟩ := List.mem_map.mp ((mem_versions current).mpr hy)
    exact hordered a ha b hb hlt
  · intro htexts x hx y hy hlt
    exact htexts _ _ ((mem_versions current).mp (List.mem_map_of_mem hx))
      ((mem_versions current).mp (List.mem_map_of_mem hy)) hlt

/-- **The nodes** are those of `_known` exactly if first and last sources are of one node. -/
theorem nodes_iff :
    (∀ row ∈ catalogue Row.version (sources.flatMap (rows current)), ∃ info,
        (gathered resolve current known sources).known.get row.version = some info ∧
          info.node = row.node) ↔
      ∀ v, (sources.filter (offers v)).head?.map (·.1.node) =
        (sources.filter (offers v)).getLast?.map (·.1.node) := by
  have hknown (v : String) : ((gathered resolve current known sources).known.get v).map Info.node =
      ((sources.filter (offers v)).getLast?.map (·.1.node)).or ((known.get v).map Info.node) :=
    known_foldl ⟨known, [], Dict.empty⟩ sources
  have hshown {row : Row Num} (hrow : row ∈ catalogue Row.version (sources.flatMap (rows current))) :
      (sources.filter (offers row.version)).head?.map (·.1.node) = some row.node := by
    rw [← find?_available current, mem_catalogue.mp hrow]
    rfl
  constructor
  · intro hnodes v
    cases hhead : (sources.filter (offers v)).head? with
    | none => rw [List.head?_eq_none_iff.mp hhead, List.getLast?_nil]
    | some a =>
        have ha := List.mem_filter.mp (List.mem_of_head? hhead)
        obtain ⟨row, hrow, rfl⟩ := List.mem_map.mp ((mem_versions current).mpr ⟨a, ha.1, ha.2⟩)
        obtain ⟨info, hinfo, hnode⟩ := hnodes row hrow
        have hlast := hknown row.version
        rw [hinfo, Option.map_some, hnode] at hlast
        rw [← hhead, hshown hrow, hlast]
        cases hget : (sources.filter (offers row.version)).getLast? with
        | none =>
            rw [List.getLast?_eq_none_iff.mp hget] at hhead
            cases hhead
        | some b => rfl
  · intro hends row hrow
    have hlast := hknown row.version
    rw [← hends, hshown hrow, Option.some_or] at hlast
    obtain ⟨info, hinfo, hnode⟩ := Option.map_eq_some_iff.mp hlast
    exact ⟨info, hinfo, hnode⟩

end Catalogue

/-- **When `check` is right.** For all sources, answers and earlier checks: exactly if the texts of the
versions on offer are in the order of the versions, and the first and the last source of each version
are one node. -/
theorem check_right_iff (resolve : String → String) (current : String)
    (sources : List (Source × Outcome Num)) (wanted : Option String) (known : Dict String (Info Num)) :
    (∀ checked, (check resolve current sources wanted known).2 = .ok checked →
        Right (asked wanted sources) (check resolve current sources wanted known).1
          checked.available) ↔
      Agree (asked wanted sources) := by
  unfold check
  cases hasked : (asked wanted sources).isEmpty with
  | true =>
      rw [if_pos rfl, List.isEmpty_iff.mp hasked]
      refine iff_of_true (fun checked h => by cases h) ⟨?_, fun _ => rfl⟩
      rintro x y ⟨a, ha, -⟩
      cases ha
  | false =>
      rw [if_neg Bool.false_ne_true]
      dsimp only
      rw [available_gathered]
      constructor
      · intro hright
        have h := hright _ rfl
        exact ⟨ordered_iff.mp h.ordered, nodes_iff.mp h.nodes⟩
      · rintro ⟨htexts, hends⟩ checked hchecked
        cases hchecked
        exact ⟨nodup_versions, fun v => mem_versions current, ordered_iff.mpr htexts, nodes_iff.mpr hends⟩

end Check

/-! ## §6 Two versions, and two sources -/

section Concrete

attribute [local instance] asciiVersions

local instance : Truth Nat := ⟨fun n => n ≠ 0⟩

def manifest (version : String) : String × Reading Nat :=
  (version ++ "/manifest.json", .parsed (.obj [("version", .str version)]))

def release (node : String) (versions : List String) : Source × Outcome Nat :=
  (⟨node, "releases"⟩, .found (versions.map manifest) (versions.map manifest) (List.Perm.refl _))

/-- The versions and nodes that are shown. -/
def shown (r : Except String (Checked Nat)) : List (String × String) :=
  match r with
  | .error _ => []
  | .ok checked => checked.available.map fun row => (row.version, row.node)

/-- What is on offer in the order of the texts is shown as it comes. -/
theorem shown_check {sources : List (Source × Outcome Nat)} (hne : sources.isEmpty = false)
    (h : (sources.flatMap (rows "1.0.0")).Pairwise fun x y => y.version ≤ x.version) :
    shown (check id "1.0.0" sources none Dict.empty).2 =
      (firsts Row.version [] (sources.flatMap (rows "1.0.0"))).map fun row => (row.version, row.node) := by
  have hall : asked none sources = sources := rfl
  rw [check, hall, hne, if_neg Bool.false_ne_true]
  dsimp only [shown]
  rw [available_gathered, catalogue, descending_of_pairwise h]

def twoVersions : List (Source × Outcome Nat) := [release "a" ["1.9.0", "1.10.0"]]

def twoNodes : List (Source × Outcome Nat) := [release "a" ["1.9.0"], release "b" ["1.9.0"]]

/-- **1.10.0 is shown behind 1.9.0**, and a version of two nodes with the one from which it is not
fetched. -/
theorem check_by_text :
    (shown (check id "1.0.0" twoVersions none Dict.empty).2 = [("1.9.0", "a"), ("1.10.0", "a")] ∧
      compareVersions "1.9.0" "1.10.0" = .lt) ∧
    (shown (check id "1.0.0" twoNodes none Dict.empty).2 = [("1.9.0", "a")] ∧
      ((check id "1.0.0" twoNodes none Dict.empty).1.get "1.9.0").map Info.node = some "b") ∧
    ¬ ∀ (sources : List (Source × Outcome Nat)) checked,
      (check id "1.0.0" sources none Dict.empty).2 = .ok checked →
        Right sources (check id "1.0.0" sources none Dict.empty).1 checked.available := by
  refine ⟨⟨?_, by decide +kernel⟩, ⟨?_, by decide +kernel⟩, fun h => ?_⟩
  · rw [shown_check rfl (by decide +kernel)]
    decide +kernel
  · rw [shown_check rfl (by decide +kernel)]
    decide +kernel
  have hordered := (h twoVersions _ rfl).ordered
  rw [available_gathered, ordered_iff] at hordered
  refine hordered "1.9.0" "1.10.0" ⟨_, List.mem_singleton_self _, ?_⟩
    ⟨_, List.mem_singleton_self _, ?_⟩ ?_ ?_
  all_goals decide +kernel

end Concrete

end NetPulse.Updater.Catalogue
