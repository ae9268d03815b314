import Mathlib.Data.Nat.Log
import Mathlib.Data.List.DropRight
import Mathlib.Algebra.Order.Floor.Semiring
import Mathlib.Data.Rat.Floor

/-
# NetPulse.Lib.GeneralFormat — a number in a given number of decimal digits (`%.17g`)

The number is rounded to so many significant digits, half to even, and then written with an exponent
if that is less than -4 or too great for the digits, and without trailing zeros in any case. Of the
text it is only said which characters are in it (`mem_general`).
-/

namespace NetPulse.Lib.GeneralFormat

/-- The power of ten that a number above 0 has: `10 ^ e ≤ x < 10 ^ (e + 1)`. -/
def exponent (x : Rat) : Int :=
  if 1 ≤ x then Nat.log 10 ⌊x⌋₊ else -(Nat.clog 10 ⌈x⁻¹⌉₊ : Nat)

/-- To the nearest integer, half to even. -/
def roundHalfEven (x : Rat) : Nat :=
  let n := ⌊x⌋₊
  let rest := x - n
  if rest < 1 / 2 then n else if 1 / 2 < rest then n + 1 else n + n % 2

/-- So many significant digits, and the exponent of the first one. -/
def rounded (digits : Nat) (x : Rat) : Nat × Int :=
  let e := exponent x
  let n := roundHalfEven (x * (10 : Rat) ^ ((digits : Int) - 1 - e))
  if n = 10 ^ digits then (n / 10, e + 1) else (n, e)

/-- Without the zeros at the end. -/
def stripZeros (s : List Char) : List Char := s.rdropWhile fun c => c = '0'

/-- A fraction with its point, if there is one. -/
def fraction (s : List Char) : List Char := if stripZeros s = [] then [] else '.' :: stripZeros s

/-- `e+17`, `e-05` -/
def scientific (e : Int) : List Char :=
  let ds := Nat.toDigits 10 e.natAbs
  'e' :: (if e < 0 then '-' else '+') :: (if ds.length = 1 then '0' :: ds else ds)

/-- `f'{x:.17g}'`, with the number of digits, of a number that is not negative. -/
def general (digits : Nat) (x : Rat) : List Char :=
  if x = 0 then ['0']
  else
    let (n, e) := rounded digits x
    let ds := Nat.toDigits 10 n
    if e < -4 ∨ (digits : Int) ≤ e then ds.take 1 ++ fraction (ds.drop 1) ++ scientific e
    else if 0 ≤ e then ds.take (e.toNat + 1) ++ fraction (ds.drop (e.toNat + 1))
    else '0' :: fraction (List.replicate (-e).toNat.pred '0' ++ ds)

/-! ## §2 What is in it -/

/-- A digit, the point, or a character of the exponent. -/
def inNumeral (c : Char) : Bool := c.isDigit || c = '.' || c = 'e' || c = '+' || c = '-'

/-- Only such characters. -/
def Numeral (s : List Char) : Prop := ∀ c ∈ s, inNumeral c = true

section
variable {s t : List Char}

theorem Numeral.append (hs : Numeral s) (ht : Numeral t) : Numeral (s ++ t) := fun c hc =>
  (List.mem_append.mp hc).elim (hs c) (ht c)

theorem Numeral.cons {c : Char} (hc : inNumeral c = true) (hs : Numeral s) : Numeral (c :: s) :=
  fun d hd => (List.mem_cons.mp hd).elim (fun heq => heq ▸ hc) (hs d)

theorem Numeral.of_subset (hs : Numeral s) (h : t ⊆ s) : Numeral t := fun c hc => hs c (h hc)

theorem numeral_toDigits (n : Nat) : Numeral (Nat.toDigits 10 n) := by
  intro c hc
  rw [inNumeral, Nat.isDigit_of_mem_toDigits (by decide) (by decide) hc]
  rfl

theorem numeral_replicate (n : Nat) : Numeral (List.replicate n '0') := by
  intro c hc
  rw [List.eq_of_mem_replicate hc]
  rfl

theorem Numeral.fraction (hs : Numeral s) : Numeral (fraction s) := by
  have hstrip : Numeral (stripZeros s) := hs.of_subset (List.rdropWhile_prefix _ _).subset
  unfold GeneralFormat.fraction
  split
  · exact fun c hc => absurd hc List.not_mem_nil
  · exact hstrip.cons rfl

theorem numeral_scientific (e : Int) : Numeral (scientific e) := by
  have hds := numeral_toDigits e.natAbs
  unfold scientific
  refine Numeral.cons rfl (Numeral.cons ?_ ?_)
  · split
    · rfl
    · rfl
  · split
    · exact hds.cons rfl
    · exact hds

end

/-- **Only digits, a point and an exponent.** -/
theorem numeral_general (digits : Nat) (x : Rat) : Numeral (general digits x) := by
  unfold general
  split
  · exact Numeral.cons rfl fun c hc => absurd hc List.not_mem_nil
  · have hds := numeral_toDigits (rounded digits x).1
    dsimp only
    split
    · exact ((hds.of_subset (List.take_subset _ _)).append
        (hds.of_subset (List.drop_subset _ _)).fraction).append (numeral_scientific _)
    · split
      · exact (hds.of_subset (List.take_subset _ _)).append
          (hds.of_subset (List.drop_subset _ _)).fraction
      · exact ((numeral_replicate _).append hds).fraction.cons rfl

theorem general_ne_nil (digits : Nat) (x : Rat) : general digits x ≠ [] := by
  unfold general
  split
  · exact List.cons_ne_nil _ _
  · have hpos : 0 < (Nat.toDigits 10 (rounded digits x).1).length := Nat.length_toDigits_pos
    have htake : ∀ k, (Nat.toDigits 10 (rounded digits x).1).take (k + 1) ≠ [] := by
      intro k
      rw [← List.length_pos_iff, List.length_take]
      omega
    dsimp only
    split
    · simp [htake 0]
    · split
      · simp [htake]
      · exact List.cons_ne_nil _ _

-- a tenth, as the nearest fraction of a power of two
example : general 17 (3602879701896397 / 36028797018963968) = "0.10000000000000001".toList := by
  decide +kernel

end NetPulse.Lib.GeneralFormat
