import NetPulse.Lib.Text
import Mathlib.Data.List.DropRight
import Mathlib.Data.List.TakeWhile

/-
# NetPulse.Mesh.Canon — canonical spelling of node ids

`neighbor_table.py`, `router.py` and `network.py` each carry the same helper
`_canon(s) = s.strip().lower()` and compare node ids only through it. Python's `strip` and `lower`
run on the Unicode tables, which are not part of the repository, so the mesh model takes the
function as a class whose laws are that a canonical spelling is its own canonical spelling, and that
the empty text is canonical.
`asciiCanon` is the function on ASCII text; concrete networks are built over it.
-/

namespace NetPulse.Mesh

/-- `_canon`: the spelling under which two node ids are compared. -/
class Canon where
  canon : String → String
  canon_canon : ∀ s, canon (canon s) = canon s
  canon_empty : canon "" = ""

export Canon (canon canon_canon canon_empty)

attribute [simp] Canon.canon_canon

section OptionalIds

variable [Canon]

/-- `_canon` on an optional id: `None` is returned as it is. -/
def canon? (s : Option String) : Option String := s.map canon

@[simp] theorem canon?_none : canon? none = none := rfl

@[simp] theorem canon?_some (s : String) : canon? (some s) = some (canon s) := rfl

end OptionalIds

/-! ## ASCII text -/

/-- The ASCII characters that `str.strip` removes: `\t`..`\r`, the four separators, the blank. -/
def isBlank (c : Char) : Bool :=
  decide (9 ≤ c.toNat ∧ c.toNat ≤ 13) || decide (28 ≤ c.toNat ∧ c.toNat ≤ 32)

/-- `str.strip` on the characters of a string. -/
def strip (l : List Char) : List Char := (l.dropWhile isBlank).rdropWhile isBlank

theorem toNat_toLower (c : Char) :
    c.toLower.toNat = if 65 ≤ c.toNat ∧ c.toNat ≤ 90 then c.toNat + 32 else c.toNat := by
  have hA : ('A'.val ≤ c.val ∧ c.val ≤ 'Z'.val) ↔ 65 ≤ c.toNat ∧ c.toNat ≤ 90 := by
    rw [UInt32.le_iff_toNat_le, UInt32.le_iff_toNat_le]
    exact Iff.rfl
  delta Char.toLower
  by_cases h : 65 ≤ c.toNat ∧ c.toNat ≤ 90
  · rw [if_pos h, dif_pos (hA.mpr h)]
    show (c.val + 32).toNat = c.val.toNat + 32
    rw [UInt32.toNat_add]
    have hlt : c.val.toNat + 32 < 2 ^ 32 := by
      have : c.val.toNat ≤ 90 := h.2
      omega
    exact Nat.mod_eq_of_lt hlt
  · rw [if_neg h, dif_neg (fun hc => h (hA.mp hc))]

theorem isBlank_toLower (c : Char) : isBlank c.toLower = isBlank c := by
  unfold isBlank
  rw [toNat_toLower]
  split
  · congr 1
    · rw [decide_eq_decide]
      omega
    · rw [decide_eq_decide]
      omega
  · rfl

theorem toLower_toLower (c : Char) : c.toLower.toLower = c.toLower := by
  apply Char.toNat_inj.mp
  rw [toNat_toLower c.toLower, if_neg]
  rw [toNat_toLower]
  split <;> omega

theorem strip_map_toLower (l : List Char) :
    strip (l.map Char.toLower) = (strip l).map Char.toLower := by
  have hcomp : isBlank ∘ Char.toLower = isBlank := funext isBlank_toLower
  simp only [strip, List.rdropWhile, List.dropWhile_map, ← List.map_reverse, hcomp]

theorem strip_strip (l : List Char) : strip (strip l) = strip l := Lib.trim_trim isBlank l

/-- `_canon` on ASCII text. -/
@[reducible] def asciiCanon : Canon where
  canon s := String.ofList ((strip s.toList).map Char.toLower)
  canon_canon s := by
    have hlower : ∀ m : List Char, (m.map Char.toLower).map Char.toLower = m.map Char.toLower := by
      intro m
      rw [List.map_map]
      exact List.map_congr_left fun c _ => toLower_toLower c
    rw [String.toList_ofList, strip_map_toLower, strip_strip, hlower]
  canon_empty := by decide

end NetPulse.Mesh
