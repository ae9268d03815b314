import Mathlib.Data.Nat.Basic
import Mathlib.Tactic.Ring
import Mathlib.Tactic.Linarith

/-
# NetPulse.Lib.Calendar — dates, and times as text that is compared byte by byte

Days are counted from the first of January of year 1, and a time is a number of microseconds since
then on a local clock. A date is found by counting years within a cycle of 400, then months.

`key_dateOf_lt_iff`: dates are in the order of days. `textLe_date_iff`: texts that begin with a date
are in the order of the dates, and those of one date in the order of what follows. Hence a time that
is written with one separator and a time that is written with another compare by their separators
whenever they are of one day.
-/

namespace NetPulse.Lib.Calendar

/-! ## §1 Places of a sum -/

/-- Which of the parts `len i`, `len (i + 1)`, … a number falls into, and what is left of it there. -/
def locate (len : Nat → Nat) : Nat → Nat → Nat → Nat × Nat
  | 0, i, n => (i, n)
  | parts + 1, i, n => if n < len i then (i, n) else locate len parts (i + 1) (n - len i)

/-- All parts together. -/
def total (len : Nat → Nat) : Nat → Nat → Nat
  | 0, _ => 0
  | parts + 1, i => len i + total len parts (i + 1)

theorem le_locate (len : Nat → Nat) (parts i n : Nat) : i ≤ (locate len parts i n).1 := by
  induction parts generalizing i n with
  | zero => exact Nat.le_refl i
  | succ parts ih =>
      rw [locate]
      split
      · exact Nat.le_refl i
      · exact Nat.le_of_succ_le (ih (i + 1) _)

/-- A number below the sum falls into one of the parts. -/
theorem locate_inside {len : Nat → Nat} {parts i n : Nat} (h : n < total len parts i) :
    (locate len parts i n).1 < i + parts ∧
      (locate len parts i n).2 < len (locate len parts i n).1 := by
  induction parts generalizing i n with
  | zero => cases h
  | succ parts ih =>
      rw [total] at h
      rw [locate]
      split
      · rename_i hhere
        exact ⟨by omega, hhere⟩
      · obtain ⟨hindex, hrest⟩ := ih (i := i + 1) (n := n - len i) (by omega)
        exact ⟨by omega, hrest⟩

/-- Greater numbers fall into later places. -/
theorem locate_lt (len : Nat → Nat) (parts i : Nat) {n m : Nat} (h : n < m) :
    (locate len parts i n).1 < (locate len parts i m).1 ∨
      (locate len parts i n).1 = (locate len parts i m).1 ∧
        (locate len parts i n).2 < (locate len parts i m).2 := by
  induction parts generalizing i n m with
  | zero => exact Or.inr ⟨rfl, h⟩
  | succ parts ih =>
      rw [locate, locate]
      by_cases hn : n < len i
      · rw [if_pos hn]
        by_cases hm : m < len i
        · rw [if_pos hm]
          exact Or.inr ⟨rfl, h⟩
        · rw [if_neg hm]
          exact Or.inl (le_locate len parts (i + 1) _)
      · rw [if_neg hn, if_neg (by omega)]
        exact ih (i + 1) (by omega)

/-! ## §2 Dates -/

structure Date where
  year : Nat
  month : Nat
  day : Nat
  deriving DecidableEq

def leap (year : Nat) : Bool := year % 4 = 0 && (year % 100 ≠ 0 || year % 400 = 0)

/-- The days of a year, counted from 0 for the year after a cycle. -/
def yearLength (i : Nat) : Nat := if leap (i + 1) then 366 else 365

/-- The days of a month, counted from 0. -/
def monthLength (leapYear : Bool) : Nat → Nat
  | 1 => if leapYear then 29 else 28
  | 3 | 5 | 8 | 10 => 30
  | _ => 31

/-- Four centuries. -/
def CYCLE : Nat := 146097

/-- The year within a cycle, and the day of the year. -/
def yearOf (n : Nat) : Nat × Nat := locate yearLength 400 0 (n % CYCLE)

/-- The date of a day. -/
def dateOf (n : Nat) : Date :=
  let y := yearOf n
  let m := locate (monthLength (leap (y.1 + 1))) 12 0 y.2
  ⟨400 * (n / CYCLE) + y.1 + 1, m.1 + 1, m.2 + 1⟩

/-- Dates in one number. -/
def Date.key (d : Date) : Nat := (d.year * 13 + d.month) * 32 + d.day

theorem total_yearLength : total yearLength 400 0 = CYCLE := by decide +kernel

theorem total_monthLength (i : Nat) : total (monthLength (leap (i + 1))) 12 0 = yearLength i := by
  rw [yearLength]
  cases leap (i + 1) <;> rfl

theorem monthLength_le (leapYear : Bool) (j : Nat) : monthLength leapYear j ≤ 31 := by
  unfold monthLength
  split
  · split <;> decide
  all_goals decide

theorem yearOf_inside (n : Nat) : (yearOf n).1 < 400 ∧ (yearOf n).2 < yearLength (yearOf n).1 := by
  have hbelow : n % CYCLE < total yearLength 400 0 := by
    rw [total_yearLength]
    exact Nat.mod_lt _ (by decide)
  have h := locate_inside hbelow
  rw [Nat.zero_add] at h
  exact h

/-- What a date can be. -/
structure Date.Inside (d : Date) : Prop where
  month_pos : 1 ≤ d.month
  month_le : d.month ≤ 12
  day_pos : 1 ≤ d.day
  day_le : d.day ≤ 31

theorem dateOf_inside (n : Nat) : (dateOf n).Inside := by
  have hbelow : (yearOf n).2 < total (monthLength (leap ((yearOf n).1 + 1))) 12 0 := by
    rw [total_monthLength]
    exact (yearOf_inside n).2
  have h := locate_inside hbelow
  have hle := monthLength_le (leap ((yearOf n).1 + 1))
    (locate (monthLength (leap ((yearOf n).1 + 1))) 12 0 (yearOf n).2).1
  refine ⟨Nat.le_add_left 1 _, ?_, Nat.le_add_left 1 _, ?_⟩
  · show _ + 1 ≤ 12
    omega
  · show _ + 1 ≤ 31
    omega

/-- The key of an earlier year is less, and so is that of an earlier month of one year. -/
theorem Date.key_lt {d e : Date} (hd : d.Inside) (he : e.Inside)
    (h : d.year < e.year ∨ d.year = e.year ∧ (d.month < e.month ∨ d.month = e.month ∧ d.day < e.day)) :
    d.key < e.key := by
  obtain ⟨-, hmonth, -, hday⟩ := hd
  obtain ⟨hmonth', -, hday', -⟩ := he
  rw [Date.key, Date.key]
  omega

theorem key_dateOf_lt {n m : Nat} (h : n < m) : (dateOf n).key < (dateOf m).key := by
  refine Date.key_lt (dateOf_inside n) (dateOf_inside m) ?_
  have hn := (yearOf_inside n).1
  have hm := (yearOf_inside m).1
  show 400 * (n / CYCLE) + (yearOf n).1 + 1 < 400 * (m / CYCLE) + (yearOf m).1 + 1 ∨
    400 * (n / CYCLE) + (yearOf n).1 + 1 = 400 * (m / CYCLE) + (yearOf m).1 + 1 ∧ _
  have hcycle : n / CYCLE ≤ m / CYCLE := Nat.div_le_div_right (Nat.le_of_lt h)
  by_cases hsame : n / CYCLE = m / CYCLE
  · have hrest : n % CYCLE < m % CYCLE := by
      have hn' := Nat.div_add_mod n CYCLE
      have hm' := Nat.div_add_mod m CYCLE
      rw [hsame] at hn'
      omega
    rcases locate_lt yearLength 400 0 hrest with hyear | ⟨hyear, hday⟩
    · exact Or.inl (by rw [hsame]; exact Nat.succ_lt_succ (Nat.add_lt_add_left hyear _))
    · have hyear' : (yearOf n).1 = (yearOf m).1 := hyear
      refine Or.inr ⟨by rw [hsame, hyear'], ?_⟩
      show (locate (monthLength (leap ((yearOf n).1 + 1))) 12 0 (yearOf n).2).1 + 1 < _ ∨ _
      rcases locate_lt (monthLength (leap ((yearOf n).1 + 1))) 12 0 hday with hmonth | ⟨hmonth, hday'⟩
      · refine Or.inl ?_
        show _ < (locate (monthLength (leap ((yearOf m).1 + 1))) 12 0 (yearOf m).2).1 + 1
        rw [← hyear']
        exact Nat.succ_lt_succ hmonth
      · refine Or.inr ?_
        show _ = (locate (monthLength (leap ((yearOf m).1 + 1))) 12 0 (yearOf m).2).1 + 1 ∧
          (locate (monthLength (leap ((yearOf n).1 + 1))) 12 0 (yearOf n).2).2 + 1
            < (locate (monthLength (leap ((yearOf m).1 + 1))) 12 0 (yearOf m).2).2 + 1
        rw [← hyear']
        exact ⟨congrArg Nat.succ hmonth, Nat.succ_lt_succ hday'⟩
  · exact Or.inl (by omega)

/-- **Dates are in the order of days.** -/
theorem key_dateOf_lt_iff {n m : Nat} : (dateOf n).key < (dateOf m).key ↔ n < m := by
  refine ⟨fun h => ?_, key_dateOf_lt⟩
  by_contra hge
  rcases Nat.lt_or_eq_of_le (Nat.not_lt.mp hge) with hlt | heq
  · exact Nat.lt_asymm h (key_dateOf_lt hlt)
  · rw [heq] at h
    exact Nat.lt_irrefl _ h

theorem dateOf_inj {n m : Nat} : dateOf n = dateOf m ↔ n = m := by
  refine ⟨fun h => ?_, congrArg dateOf⟩
  have hkey : (dateOf n).key = (dateOf m).key := by rw [h]
  have hle : ¬ m < n := fun hlt => Nat.ne_of_gt (key_dateOf_lt hlt) hkey
  have hge : ¬ n < m := fun hlt => Nat.ne_of_lt (key_dateOf_lt hlt) hkey
  omega

/-- A year does not come before that of an earlier day. -/
theorem year_mono {n m : Nat} (h : n ≤ m) : (dateOf n).year ≤ (dateOf m).year := by
  have hkey : (dateOf n).key ≤ (dateOf m).key := by
    rcases Nat.lt_or_eq_of_le h with hlt | heq
    · exact Nat.le_of_lt (key_dateOf_lt hlt)
    · rw [heq]
  obtain ⟨-, hmonth, -, hday⟩ := dateOf_inside m
  rw [Date.key, Date.key] at hkey
  omega

/-! ## §3 Texts -/

/-- `<=` of texts, byte by byte. -/
def textLe : List Nat → List Nat → Bool
  | [], _ => true
  | _ :: _, [] => false
  | a :: s, b :: t => a < b || (a = b && textLe s t)

theorem textLe_cons (a b : Nat) (s t : List Nat) :
    textLe (a :: s) (b :: t) = true ↔ a < b ∨ a = b ∧ textLe s t = true := by
  rw [textLe, Bool.or_eq_true, Bool.and_eq_true, decide_eq_true_iff, decide_eq_true_iff]

/-- A number in a fixed number of decimal digits. -/
def digits : Nat → Nat → List Nat
  | 0, _ => []
  | w + 1, n => (48 + n / 10 ^ w) :: digits w (n % 10 ^ w)

theorem lt_iff_div_mod {n m p : Nat} (hp : 0 < p) :
    n < m ↔ n / p < m / p ∨ n / p = m / p ∧ n % p < m % p := by
  have hn := Nat.div_add_mod n p
  have hm := Nat.div_add_mod m p
  have hn' := Nat.mod_lt n hp
  constructor
  · intro h
    rcases Nat.lt_or_eq_of_le (Nat.div_le_div_right (c := p) (Nat.le_of_lt h)) with hlt | heq
    · exact Or.inl hlt
    · rw [heq] at hn
      exact Or.inr ⟨heq, by omega⟩
  · rintro (hlt | ⟨heq, hmod⟩)
    · have hle : p * (n / p) + p ≤ p * (m / p) := by
        calc p * (n / p) + p = p * (n / p + 1) := by ring
          _ ≤ p * (m / p) := Nat.mul_le_mul_left p hlt
      omega
    · rw [heq] at hn
      omega

/-- Numbers of one width are compared as numbers, and then what follows them. -/
theorem textLe_digits (w : Nat) {n m : Nat} (hn : n < 10 ^ w) (hm : m < 10 ^ w) (s t : List Nat) :
    textLe (digits w n ++ s) (digits w m ++ t) = true ↔ n < m ∨ n = m ∧ textLe s t = true := by
  induction w generalizing n m with
  | zero =>
      rw [Nat.lt_one_iff.mp hn, Nat.lt_one_iff.mp hm]
      simp [digits]
  | succ w ih =>
      have hp : 0 < 10 ^ w := Nat.pow_pos (by decide)
      rw [digits, digits, List.cons_append, List.cons_append, textLe_cons,
        ih (Nat.mod_lt n hp) (Nat.mod_lt m hp), lt_iff_div_mod (n := n) (m := m) hp]
      have heq : n = m ↔ n / 10 ^ w = m / 10 ^ w ∧ n % 10 ^ w = m % 10 ^ w := by
        refine ⟨fun h => by rw [h]; exact ⟨rfl, rfl⟩, fun h => ?_⟩
        rw [← Nat.div_add_mod n (10 ^ w), ← Nat.div_add_mod m (10 ^ w), h.1, h.2]
      rw [heq, Nat.add_lt_add_iff_left, Nat.add_left_cancel_iff]
      rw [and_or_left, or_assoc, and_assoc]

/-- `YYYY-MM-DD` -/
def Date.text (d : Date) : List Nat := digits 4 d.year ++ 45 :: (digits 2 d.month ++ 45 :: digits 2 d.day)

theorem textLe_self (a : Nat) (s t : List Nat) : textLe (a :: s) (a :: t) = textLe s t := by
  rw [textLe, decide_eq_false (Nat.lt_irrefl a), decide_eq_true rfl, Bool.false_or, Bool.true_and]

/-- **Texts that begin with dates**: by the dates, and then by what follows. -/
theorem textLe_date_iff {d e : Date} (hd : d.Inside) (he : e.Inside) (hyear : d.year ≤ 9999)
    (hyear' : e.year ≤ 9999) (s t : List Nat) :
    textLe (d.text ++ s) (e.text ++ t) = true ↔ d.key < e.key ∨ d = e ∧ textLe s t = true := by
  obtain ⟨hm, hm', hday, hday'⟩ := hd
  obtain ⟨hn, hn', hf, hf'⟩ := he
  have heq : d = e ↔ d.year = e.year ∧ d.month = e.month ∧ d.day = e.day := by
    cases d
    cases e
    exact Date.mk.injEq _ _ _ _ _ _ |>.to_iff
  have hkey : d.key < e.key ↔ d.year < e.year ∨ d.year = e.year ∧
      (d.month < e.month ∨ d.month = e.month ∧ d.day < e.day) := by
    rw [Date.key, Date.key]
    omega
  rw [Date.text, Date.text, List.append_assoc, List.append_assoc, List.cons_append, List.cons_append,
    List.append_assoc, List.append_assoc, List.cons_append, List.cons_append,
    textLe_digits 4 (by omega) (by omega), textLe_self, textLe_digits 2 (by omega) (by omega),
    textLe_self, textLe_digits 2 (by omega) (by omega), hkey, heq]
  simp only [and_or_left, or_assoc, and_assoc]

/-! ## §4 Times -/

/-- The microseconds of a day. -/
def DAY : Nat := 86400000000

/-- A minute, in microseconds. -/
def MINUTE : Nat := 60000000

/-- A date, a separator and `HH:MM:SS`. -/
def stamp (separator : Nat) (micros : Nat) : List Nat :=
  let s := micros % DAY / 1000000
  (dateOf (micros / DAY)).text ++
    separator :: (digits 2 (s / 3600) ++ 58 :: (digits 2 (s / 60 % 60) ++ 58 :: digits 2 (s % 60)))

/-- `datetime.isoformat()`: a `T`, and the microseconds if there are any. -/
def isoformat (micros : Nat) : List Nat :=
  stamp 84 micros ++ (if micros % 1000000 = 0 then [] else 46 :: digits 6 (micros % 1000000))

/-- `datetime(...)` of SQLite: a space, and no fractions. -/
def sqlite (micros : Nat) : List Nat := stamp 32 micros

/-- A reading of a clock whose years have four digits. -/
structure Instant where
  micros : Nat
  inRange : (dateOf (micros / DAY)).year ≤ 9999

def Instant.day (t : Instant) : Nat := t.micros / DAY

/-- **A `T` is greater than a space**: an ISO time is before a time of SQLite only if its day is. -/
theorem textLe_isoformat_sqlite {a c : Nat} (ha : (dateOf (a / DAY)).year ≤ 9999)
    (hc : (dateOf (c / DAY)).year ≤ 9999) :
    textLe (isoformat a) (sqlite c) = true ↔ a / DAY < c / DAY := by
  rw [isoformat, sqlite, stamp, stamp, List.append_assoc,
    textLe_date_iff (dateOf_inside _) (dateOf_inside _) ha hc, key_dateOf_lt_iff, List.cons_append,
    textLe_cons]
  omega

/-- **A time of SQLite is before an ISO time** of its own day, whatever the hour. -/
theorem textLe_sqlite_isoformat {a c : Nat} (ha : (dateOf (a / DAY)).year ≤ 9999)
    (hc : (dateOf (c / DAY)).year ≤ 9999) :
    textLe (sqlite c) (isoformat a) = true ↔ c / DAY ≤ a / DAY := by
  rw [isoformat, sqlite, stamp, stamp, List.append_assoc,
    textLe_date_iff (dateOf_inside _) (dateOf_inside _) hc ha, key_dateOf_lt_iff, List.cons_append,
    textLe_cons, dateOf_inj]
  omega

end NetPulse.Lib.Calendar
