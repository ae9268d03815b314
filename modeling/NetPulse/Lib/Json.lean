import NetPulse.Lib.Dict

/-
# NetPulse.Lib.Json — JSON trees

Objects are lists of pairs in insertion order; `Unique` says that no object of the tree has a key
twice, as no tree that was read from a text does. Numbers are a parameter.

`deepMerge` writes one object over another: objects into objects, key by key, and any other value
in the place of what was there. `lookup_deepMerge` says what each key then has, and
`deepMerge_eq_self_iff` when nothing has changed.
-/

namespace NetPulse.Lib

inductive Json (Num : Type) where
  | null
  | bool (b : Bool)
  | num (n : Num)
  | str (s : String)
  | list (items : List (Json Num))
  | obj (entries : List (String × Json Num))

namespace Json

variable {Num : Type}

abbrev Entries (Num : Type) := List (String × Json Num)

/-- Which numbers count as true. -/
class Truth (Num : Type) where
  isTrue : Num → Bool

/-- The truth value in a condition. -/
def truthy [Truth Num] : Json Num → Bool
  | null => false
  | bool b => b
  | num n => Truth.isTrue n
  | str s => s ≠ ""
  | list items => !items.isEmpty
  | obj entries => !entries.isEmpty

/-! ## §1 Unique keys -/

mutual

/-- No object of the tree has a key twice. -/
def Unique : Json Num → Prop
  | list items => UniqueItems items
  | obj entries => (entries.map Prod.fst).Nodup ∧ UniqueEntries entries
  | _ => True

def UniqueItems : List (Json Num) → Prop
  | [] => True
  | v :: rest => Unique v ∧ UniqueItems rest

def UniqueEntries : Entries Num → Prop
  | [] => True
  | (_, v) :: rest => Unique v ∧ UniqueEntries rest

end

theorem unique_obj {entries : Entries Num} :
    Unique (obj entries) ↔ (entries.map Prod.fst).Nodup ∧ UniqueEntries entries := by
  rw [Unique]

theorem unique_list_iff {items : List (Json Num)} : Unique (list items) ↔ UniqueItems items := by
  rw [Unique]

theorem uniqueItems_cons {v : Json Num} {rest : List (Json Num)} :
    UniqueItems (v :: rest) ↔ Unique v ∧ UniqueItems rest := by
  rw [UniqueItems]

theorem uniqueEntries_cons {e : String × Json Num} {rest : Entries Num} :
    UniqueEntries (e :: rest) ↔ Unique e.2 ∧ UniqueEntries rest := by
  rw [UniqueEntries]

theorem UniqueEntries.of_mem {entries : Entries Num} (h : UniqueEntries entries) {k : String}
    {v : Json Num} (hmem : (k, v) ∈ entries) : Unique v := by
  induction entries with
  | nil => cases hmem
  | cons e rest ih =>
      obtain ⟨k', v'⟩ := e
      obtain ⟨hv, hrest⟩ := uniqueEntries_cons.mp h
      rcases List.mem_cons.mp hmem with heq | hmem
      · cases heq
        exact hv
      · exact ih hrest hmem

/-! ## §2 Writing one object over another -/

mutual

def deepMerge (base : Entries Num) : Entries Num → Entries Num
  | [] => base
  | (k, v) :: rest =>
      deepMerge (Dict.assign k (mergeValue (Dict.lookup k base) v) base) rest

/-- What the key has afterwards: an object goes into an object, anything else replaces. -/
def mergeValue (old : Option (Json Num)) : Json Num → Json Num
  | obj entries =>
      match old with
      | some (obj base) => obj (deepMerge base entries)
      | _ => obj entries
  | null => null
  | bool b => bool b
  | num n => num n
  | str s => str s
  | list items => list items

end

theorem deepMerge_nil (base : Entries Num) : deepMerge base [] = base := by
  rw [deepMerge]

theorem deepMerge_cons (base : Entries Num) (k : String) (v : Json Num) (rest : Entries Num) :
    deepMerge base ((k, v) :: rest) =
      deepMerge (Dict.assign k (mergeValue (Dict.lookup k base) v) base) rest := by
  rw [deepMerge]

theorem deepMerge_eq_writeOver (base extra : Entries Num) :
    deepMerge base extra = Dict.writeOver mergeValue base extra := by
  induction extra generalizing base with
  | nil => rw [deepMerge_nil, Dict.writeOver]
  | cons e rest ih =>
      obtain ⟨k, v⟩ := e
      rw [deepMerge_cons, Dict.writeOver, ih]

theorem mergeValue_obj (base entries : Entries Num) :
    mergeValue (some (obj base)) (obj entries) = obj (deepMerge base entries) := by
  rw [mergeValue]

/-- **What each key has after the merge.** -/
theorem lookup_deepMerge {base extra : Entries Num} (hextra : (extra.map Prod.fst).Nodup)
    (k : String) : Dict.lookup k (deepMerge base extra) =
      ((Dict.lookup k extra).map (mergeValue (Dict.lookup k base))).or (Dict.lookup k base) := by
  rw [deepMerge_eq_writeOver]
  exact Dict.lookup_writeOver hextra k

/-- **Nothing has changed** exactly when each key that was written had this value before. -/
theorem deepMerge_eq_self_iff {base extra : Entries Num} (hextra : (extra.map Prod.fst).Nodup) :
    deepMerge base extra = base ↔ ∀ k v, Dict.lookup k extra = some v →
      Dict.lookup k base = some (mergeValue (Dict.lookup k base) v) := by
  rw [deepMerge_eq_writeOver]
  exact Dict.writeOver_eq_self_iff hextra

end Json

end NetPulse.Lib
