import Mathlib.Data.List.Basic
import Mathlib.Data.List.Nodup
import Mathlib.Data.List.Perm.Subperm

/-
# NetPulse.Lib.UniqueRows — rows with a unique key, and inserts that a conflict skips

A table is a list of rows in the order of their insertion. The key of a row may be missing (`NULL`),
and a missing key is in no conflict.
-/

namespace NetPulse.Lib

variable {α κ : Type*} [DecidableEq κ]

/-- `INSERT OR IGNORE` -/
def insertOrIgnore (key : α → Option κ) (rows : List α) (row : α) : List α :=
  if (key row).isSome ∧ key row ∈ rows.map key then rows else rows ++ [row]

namespace UniqueRows

variable {key : α → Option κ} {rows new : List α} {row : α} {p : α → Bool}

theorem filterMap_insertOrIgnore (rows : List α) (row : α) :
    (insertOrIgnore key rows row).filterMap key =
      if (key row).isSome ∧ key row ∈ rows.map key then rows.filterMap key
      else rows.filterMap key ++ (key row).toList := by
  rw [insertOrIgnore]
  split_ifs
  · rfl
  · rcases hkey : key row with _ | k
    · simp [hkey]
    · simp [hkey]

/-- An insert of a key makes it one of the keys, whether it was ignored or not. -/
theorem mem_keys_insertOrIgnore {k : κ} :
    k ∈ (insertOrIgnore key rows row).filterMap key ↔
      k ∈ rows.filterMap key ∨ key row = some k := by
  rw [filterMap_insertOrIgnore]
  split_ifs with h
  · refine ⟨.inl, ?_⟩
    rintro (hk | hk)
    · exact hk
    · obtain ⟨r, hr, hkey⟩ := List.mem_map.mp h.2
      exact List.mem_filterMap.mpr ⟨r, hr, hkey.trans hk⟩
  · rw [List.mem_append, Option.mem_toList]

theorem mem_keys_foldl {k : κ} :
    k ∈ (new.foldl (insertOrIgnore key) rows).filterMap key ↔
      k ∈ rows.filterMap key ∨ k ∈ new.filterMap key := by
  induction new generalizing rows with
  | nil => simp
  | cons row new ih =>
      rw [List.foldl_cons, ih, mem_keys_insertOrIgnore, or_assoc]
      refine or_congr_right ?_
      simp

theorem mem_of_mem_foldl {r : α} (h : r ∈ new.foldl (insertOrIgnore key) rows) :
    r ∈ rows ∨ r ∈ new := by
  induction new generalizing rows with
  | nil => exact .inl h
  | cons row new ih =>
      rcases ih h with h | h
      · rw [insertOrIgnore] at h
        split_ifs at h
        · exact .inl h
        · rcases List.mem_append.mp h with h | h
          · exact .inl h
          · rw [List.mem_singleton.mp h]
            exact .inr List.mem_cons_self
      · exact .inr (List.mem_cons_of_mem row h)

/-- No key is there twice. -/
theorem nodup_foldl (h : (rows.filterMap key).Nodup) :
    ((new.foldl (insertOrIgnore key) rows).filterMap key).Nodup := by
  induction new generalizing rows with
  | nil => exact h
  | cons row new ih =>
      refine ih ?_
      rw [filterMap_insertOrIgnore]
      split_ifs with hold
      · exact h
      · rcases hkey : key row with _ | k
        · simpa using h
        · refine h.append (List.nodup_singleton k) fun k' hk' hk => ?_
          obtain rfl : k' = k := List.mem_singleton.mp hk
          obtain ⟨r, hr, hkey'⟩ := List.mem_filterMap.mp hk'
          exact hold ⟨by simp [hkey], List.mem_map.mpr ⟨r, hr, hkey'.trans hkey.symm⟩⟩

omit [DecidableEq κ] in
/-- Rows with different keys are not more than the keys that they can have. -/
theorem length_le_of_keys {ks : List κ} (h : (rows.filterMap key).Nodup)
    (hkeys : ∀ row ∈ rows, ∃ k ∈ ks, key row = some k) : rows.length ≤ ks.length := by
  have hsub : rows.filterMap key ⊆ ks := by
    intro k hk
    obtain ⟨row, hrow, hk⟩ := List.mem_filterMap.mp hk
    obtain ⟨k', hk', hkey⟩ := hkeys row hrow
    obtain rfl : k' = k := Option.some.inj (hkey.symm.trans hk)
    exact hk'
  have hlength : (rows.filterMap key).length = rows.length := by
    rw [List.length_filterMap_eq_countP]
    refine List.countP_eq_length.mpr fun row hrow => ?_
    obtain ⟨k, -, hkey⟩ := hkeys row hrow
    rw [hkey]
    rfl
  rw [← hlength]
  exact (h.subperm hsub).length_le

/-- What the inserted rows do not meet is as it was. -/
theorem filter_foldl_of_none (h : ∀ row ∈ new, p row = false) :
    (new.foldl (insertOrIgnore key) rows).filter p = rows.filter p := by
  induction new generalizing rows with
  | nil => rfl
  | cons row new ih =>
      rw [List.foldl_cons, ih fun r hr => h r (List.mem_cons_of_mem row hr), insertOrIgnore]
      split_ifs
      · rfl
      · simp [h row List.mem_cons_self]

/-- Where the condition depends on the key, it can be asked before the inserts. -/
theorem filter_foldl (hnew : ∀ row ∈ new, p row = true)
    (hkey : ∀ r s, (key s).isSome → key r = key s → p r = p s) :
    (new.foldl (insertOrIgnore key) rows).filter p =
      new.foldl (insertOrIgnore key) (rows.filter p) := by
  induction new generalizing rows with
  | nil => rfl
  | cons row new ih =>
      rw [List.foldl_cons, ih fun r hr => hnew r (List.mem_cons_of_mem row hr), List.foldl_cons]
      congr 1
      have hrow := hnew row List.mem_cons_self
      have hconflict : ((key row).isSome ∧ key row ∈ rows.map key) ↔
          ((key row).isSome ∧ key row ∈ (rows.filter p).map key) := by
        refine and_congr_right fun hsome => ⟨fun h => ?_, fun h => ?_⟩
        · obtain ⟨r, hr, heq⟩ := List.mem_map.mp h
          have hpr : p r = true := (hkey r row hsome heq).trans hrow
          exact List.mem_map.mpr ⟨r, List.mem_filter.mpr ⟨hr, hpr⟩, heq⟩
        · obtain ⟨r, hr, heq⟩ := List.mem_map.mp h
          exact List.mem_map.mpr ⟨r, List.mem_of_mem_filter hr, heq⟩
      rw [insertOrIgnore, insertOrIgnore]
      by_cases h : (key row).isSome ∧ key row ∈ rows.map key
      · rw [if_pos h, if_pos (hconflict.mp h)]
      · rw [if_neg h, if_neg fun h' => h (hconflict.mpr h'), List.filter_append]
        simp [hrow]

end UniqueRows

end NetPulse.Lib
