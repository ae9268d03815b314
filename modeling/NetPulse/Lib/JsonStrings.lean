import NetPulse.Lib.Json

/-
# NetPulse.Lib.JsonStrings — the strings of a tree, each under its last key

A walk goes down a tree with the name of the last key, through lists as well, and has a string changed
by a function of both. Two walks are one (`mapStrings_mapStrings`), and a walk leaves a tree as it is
exactly if it leaves each of its strings (`mapStrings_eq_self_iff`).
-/

namespace NetPulse.Lib.Json

variable {Num : Type}

/-! ## §1 Walks -/

mutual

def mapStrings (f : Option String → String → String) (key : Option String) : Json Num → Json Num
  | obj entries => obj (mapStringsEntries f entries)
  | list items => list (mapStringsItems f key items)
  | str s => str (f key s)
  | null => null
  | bool b => bool b
  | num n => num n

def mapStringsEntries (f : Option String → String → String) : Entries Num → Entries Num
  | [] => []
  | (k, v) :: rest => (k, mapStrings f (some k) v) :: mapStringsEntries f rest

def mapStringsItems (f : Option String → String → String) (key : Option String) :
    List (Json Num) → List (Json Num)
  | [] => []
  | v :: rest => mapStrings f key v :: mapStringsItems f key rest

end

mutual

/-- Every string of the tree has the property, under its last key. -/
def AllStrings (P : Option String → String → Prop) (key : Option String) : Json Num → Prop
  | obj entries => AllStringsEntries P entries
  | list items => AllStringsItems P key items
  | str s => P key s
  | null => True
  | bool _ => True
  | num _ => True

def AllStringsEntries (P : Option String → String → Prop) : Entries Num → Prop
  | [] => True
  | (k, v) :: rest => AllStrings P (some k) v ∧ AllStringsEntries P rest

def AllStringsItems (P : Option String → String → Prop) (key : Option String) :
    List (Json Num) → Prop
  | [] => True
  | v :: rest => AllStrings P key v ∧ AllStringsItems P key rest

end

/-! ## §2 Down a tree with the last key -/

/-- **Induction on a tree**, with the key that a walk has there. -/
theorem keyed_induction {motive : Option String → Json Num → Prop}
    (hobj : ∀ key entries, (∀ e ∈ entries, motive (some e.1) e.2) → motive key (obj entries))
    (hlist : ∀ key items, (∀ v ∈ items, motive key v) → motive key (list items))
    (hstr : ∀ key s, motive key (str s)) (hnull : ∀ key, motive key null)
    (hbool : ∀ key b, motive key (bool b)) (hnum : ∀ key n, motive key (num n))
    (key : Option String) (v : Json Num) : motive key v :=
  match v with
  | obj entries => hobj key entries fun e _ =>
      keyed_induction hobj hlist hstr hnull hbool hnum (some e.1) e.2
  | list items => hlist key items fun w _ =>
      keyed_induction hobj hlist hstr hnull hbool hnum key w
  | str s => hstr key s
  | null => hnull key
  | bool b => hbool key b
  | num n => hnum key n
termination_by sizeOf v
decreasing_by
  · have hmem := List.sizeOf_lt_of_mem ‹e ∈ entries›
    obtain ⟨k, w⟩ := e
    simp only [Prod.mk.sizeOf_spec, obj.sizeOf_spec] at hmem ⊢
    omega
  · have hmem := List.sizeOf_lt_of_mem ‹w ∈ items›
    simp only [list.sizeOf_spec]
    omega

theorem map_eq_self_iff {α : Type*} {f : α → α} {l : List α} : l.map f = l ↔ ∀ a ∈ l, f a = a := by
  have h := List.map_inj_left (f := f) (g := id) (l := l)
  rwa [List.map_id] at h

variable {f g : Option String → String → String} {P Q : Option String → String → Prop}

theorem mapStringsEntries_eq_map (f : Option String → String → String) (entries : Entries Num) :
    mapStringsEntries f entries = entries.map fun e => (e.1, mapStrings f (some e.1) e.2) := by
  induction entries with
  | nil => rw [mapStringsEntries, List.map_nil]
  | cons e rest ih => rw [mapStringsEntries, ih, List.map_cons]

theorem mapStringsItems_eq_map (f : Option String → String → String) (key : Option String)
    (items : List (Json Num)) : mapStringsItems f key items = items.map (mapStrings f key) := by
  induction items with
  | nil => rw [mapStringsItems, List.map_nil]
  | cons v rest ih => rw [mapStringsItems, ih, List.map_cons]

theorem allStrings_obj {key : Option String} {entries : Entries Num} :
    AllStrings P key (obj entries) ↔ ∀ e ∈ entries, AllStrings P (some e.1) e.2 := by
  rw [AllStrings]
  induction entries with
  | nil => simp [AllStringsEntries]
  | cons e rest ih => rw [AllStringsEntries, ih, List.forall_mem_cons]

theorem allStrings_list {key : Option String} {items : List (Json Num)} :
    AllStrings P key (list items) ↔ ∀ v ∈ items, AllStrings P key v := by
  rw [AllStrings]
  induction items with
  | nil => simp [AllStringsItems]
  | cons v rest ih => rw [AllStringsItems, ih, List.forall_mem_cons]

theorem AllStrings.imp (h : ∀ k s, P k s → Q k s) (key : Option String) (v : Json Num) :
    AllStrings P key v → AllStrings Q key v := by
  induction key, v using keyed_induction with
  | hobj key entries ih =>
      rw [allStrings_obj, allStrings_obj]
      exact fun hall e he => ih e he (hall e he)
  | hlist key items ih =>
      rw [allStrings_list, allStrings_list]
      exact fun hall v hv => ih v hv (hall v hv)
  | hstr key s =>
      rw [AllStrings, AllStrings]
      exact h key s
  | hnull key | hbool key b | hnum key n => simp [AllStrings]

/-! ## §3 Laws -/

/-- **One walk after another.** -/
theorem mapStrings_mapStrings (key : Option String) (v : Json Num) :
    mapStrings f key (mapStrings g key v) = mapStrings (fun k s => f k (g k s)) key v := by
  induction key, v using keyed_induction with
  | hobj key entries ih =>
      simp only [mapStrings, mapStringsEntries_eq_map, List.map_map, obj.injEq]
      exact List.map_congr_left fun e he => congrArg (Prod.mk e.1) (ih e he)
  | hlist key items ih =>
      simp only [mapStrings, mapStringsItems_eq_map, List.map_map, list.injEq]
      exact List.map_congr_left ih
  | hstr key s => simp only [mapStrings]
  | hnull key | hbool key b | hnum key n => simp only [mapStrings]

/-- **A walk that changes nothing** changes none of the strings. -/
theorem mapStrings_eq_self_iff (key : Option String) (v : Json Num) :
    mapStrings f key v = v ↔ AllStrings (fun k s => f k s = s) key v := by
  induction key, v using keyed_induction with
  | hobj key entries ih =>
      rw [mapStrings, mapStringsEntries_eq_map, obj.injEq, allStrings_obj]
      have hentry : ∀ e ∈ entries, (e.1, mapStrings f (some e.1) e.2) = e ↔
          AllStrings (fun k s => f k s = s) (some e.1) e.2 := by
        intro e he
        rw [← ih e he, Prod.ext_iff]
        exact and_iff_right rfl
      rw [map_eq_self_iff]
      exact forall₂_congr hentry
  | hlist key items ih =>
      rw [mapStrings, mapStringsItems_eq_map, list.injEq, allStrings_list, map_eq_self_iff]
      exact forall₂_congr ih
  | hstr key s => rw [mapStrings, str.injEq, AllStrings]
  | hnull key | hbool key b | hnum key n => simp [mapStrings, AllStrings]

end NetPulse.Lib.Json
