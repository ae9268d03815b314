import NetPulse.Infra.Values

/-
# NetPulse.RouterOs.Uptime — how long a router is up (`mikrotik.py`)

RouterOS prints an uptime in one of two notations, `1w2d3h4m5s` and `1w2d03:04:05`, and
`uptime_seconds` reads both. It asks for less than that: units may come in any order and more than
once, and there may be any number of hours before the first colon. `uptime_exact` says what is read,
and as which number; anything else is no uptime.

Which characters are digits is in the Unicode tables and a class here. `int` takes no more than 4300
of them.
-/

namespace NetPulse.RouterOs.Uptime

open NetPulse.Infra (maxStrDigits)

/-- `\d` with the value of the digit: in ASCII, the ten digits. -/
class Decimals where
  digit : Char → Option Nat
  ascii : ∀ c, c.toNat < 128 → digit c = if c.isDigit then some (c.toNat - 48) else none

export Decimals (digit)

inductive ValueError where
  /-- `Exceeds the limit (4300 digits) for integer string conversion` -/
  | limit
  deriving DecidableEq

section Reading

variable [Decimals]

/-! ## §1 The two notations -/

def isDigit (c : Char) : Bool := (digit c).isSome

def valueOf (ds : List Char) : Nat := ds.foldl (fun n c => 10 * n + (digit c).getD 0) 0

/-- `int` -/
def int (ds : List Char) : Except ValueError Nat :=
  if ds.length ≤ maxStrDigits then .ok (valueOf ds) else .error .limit

/-- `{'w':604800,'d':86400,'h':3600,'m':60,'s':1}` -/
def UNITS : List (Char × Nat) := [('w', 604800), ('d', 86400), ('h', 3600), ('m', 60), ('s', 1)]

def isUnit (c : Char) : Bool := (UNITS.lookup c).isSome

def weight (unit : Char) : Nat := (UNITS.lookup unit).getD 0

/-- The groups of `(?:\d+[wdhms])*`, when it matches all of the text, behind the digits of a number
that has begun. -/
def groups : List Char → List Char → Option (List (List Char × Char))
  | ds, [] => if ds = [] then some [] else none
  | ds, c :: rest =>
      if isDigit c then groups (ds ++ [c]) rest
      else if ds ≠ [] ∧ isUnit c then (groups [] rest).map ((ds, c) :: ·)
      else none

/-- `sum(int(n) * {…}[unit] for n, unit in …)` -/
def unitSum : List (List Char × Char) → Except ValueError Nat
  | [] => .ok 0
  | (ds, unit) :: rest => do
      let n ← int ds
      let sum ← unitSum rest
      .ok (n * weight unit + sum)

/-- `(\d+)` and a character behind it. -/
def numberThen (stop : Char) (s : List Char) : Option (List Char × List Char) :=
  let ds := s.takeWhile isDigit
  match s.drop ds.length with
  | [] => none
  | c :: rest => if ds ≠ [] ∧ c = stop then some (ds, rest) else none

/-- `(?:(\d+)w)?`: what is a number with another character behind it is left for what follows. -/
def optional (stop : Char) (s : List Char) : Option (List Char) × List Char :=
  match numberThen stop s with
  | some (ds, rest) => (some ds, rest)
  | none => (none, s)

/-- The groups of the colon notation. -/
structure Clock where
  weeks : Option (List Char)
  days : Option (List Char)
  hours : List Char
  minutes : List Char
  seconds : List Char

/-- `(?:(\d+)w)?(?:(\d+)d)?(\d+):(\d{2}):(\d{2})` -/
def clock (s : List Char) : Option Clock :=
  let (weeks, s) := optional 'w' s
  let (days, s) := optional 'd' s
  match numberThen ':' s with
  | some (hours, [m₁, m₂, ':', s₁, s₂]) =>
      if [m₁, m₂, s₁, s₂].all isDigit then some ⟨weeks, days, hours, [m₁, m₂], [s₁, s₂]⟩ else none
  | _ => none

/-- `int(x or 0)` -/
def intOr0 : Option (List Char) → Except ValueError Nat
  | none => .ok 0
  | some ds => int ds

def uptime_seconds (value : String) : Except ValueError (Option Nat) :=
  match groups [] value.toList with
  | some (g :: gs) => (unitSum (g :: gs)).map some
  | _ =>
      match clock value.toList with
      | none => .ok none
      | some c => do
          let w ← intOr0 c.weeks
          let d ← intOr0 c.days
          let h ← int c.hours
          let m ← int c.minutes
          let s ← int c.seconds
          .ok (if m < 60 ∧ s < 60 then some (w * 604800 + d * 86400 + h * 3600 + m * 60 + s)
            else none)

/-! ## §2 What is written -/

/-- One digit at least, and nothing else. -/
def Numeral (ds : List Char) : Prop := ds ≠ [] ∧ ∀ c ∈ ds, isDigit c = true

/-- A text in one of the notations. -/
inductive Form where
  | units (groups : List (List Char × Char))
  | clock (c : Clock)

/-- A number with its unit, if it is there. -/
def suffixed (unit : Char) : Option (List Char) → List Char
  | none => []
  | some ds => ds ++ [unit]

def Clock.text (c : Clock) : List Char :=
  suffixed 'w' c.weeks ++ (suffixed 'd' c.days ++
    (c.hours ++ ':' :: (c.minutes ++ ':' :: c.seconds)))

def unitText (gs : List (List Char × Char)) : List Char := gs.flatMap fun g => g.1 ++ [g.2]

def Form.text : Form → List Char
  | .units gs => unitText gs
  | .clock c => c.text

structure Clock.Valid (c : Clock) : Prop where
  weeks : ∀ ds ∈ c.weeks, Numeral ds
  days : ∀ ds ∈ c.days, Numeral ds
  hours : Numeral c.hours
  minutes : Numeral c.minutes ∧ c.minutes.length = 2
  seconds : Numeral c.seconds ∧ c.seconds.length = 2

def ValidUnits (gs : List (List Char × Char)) : Prop :=
  ∀ g ∈ gs, Numeral g.1 ∧ isUnit g.2 = true

def Form.Valid : Form → Prop
  | .units gs => gs ≠ [] ∧ ValidUnits gs
  | .clock c => c.Valid

/-- The numbers of a text. -/
def Form.numbers : Form → List (List Char)
  | .units gs => gs.map Prod.fst
  | .clock c => c.weeks.toList ++ (c.days.toList ++ [c.hours, c.minutes, c.seconds])

/-- `int` takes each of them. -/
def Form.Short (f : Form) : Prop := ∀ ds ∈ f.numbers, ds.length ≤ maxStrDigits

instance (f : Form) : Decidable f.Short :=
  inferInstanceAs (Decidable (∀ ds ∈ f.numbers, ds.length ≤ maxStrDigits))

/-- Units are added up, whatever their order. A time has less than 60 minutes and seconds. -/
def Form.seconds : Form → Option Nat
  | .units gs => some ((gs.map fun g => valueOf g.1 * weight g.2).sum)
  | .clock c =>
      if valueOf c.minutes < 60 ∧ valueOf c.seconds < 60 then
        some ((c.weeks.map valueOf).getD 0 * 604800 + (c.days.map valueOf).getD 0 * 86400 +
          valueOf c.hours * 3600 + valueOf c.minutes * 60 + valueOf c.seconds)
      else none

/-! ## §3 Digits and what is behind them -/

theorem isDigit_of_ascii {c : Char} (h : c.isDigit = true) : isDigit c = true := by
  have hlt : c.toNat < 128 := by
    simp only [Char.isDigit, Bool.and_eq_true, decide_eq_true_eq] at h
    have h57 : c.toNat ≤ 57 := h.2
    omega
  rw [isDigit, Decimals.ascii c hlt, if_pos h]
  rfl

theorem not_isDigit {c : Char} (hlt : c.toNat < 128) (h : c.isDigit = false) :
    isDigit c = false := by
  rw [isDigit, Decimals.ascii c hlt, h]
  rfl

theorem not_isDigit_unit {c : Char} (h : isUnit c = true) : isDigit c = false := by
  have hmem : c = 'w' ∨ c = 'd' ∨ c = 'h' ∨ c = 'm' ∨ c = 's' := by
    by_contra hno
    simp only [not_or] at hno
    simp [isUnit, UNITS, List.lookup_cons, hno, beq_eq_false_iff_ne.mpr] at h
  rcases hmem with rfl | rfl | rfl | rfl | rfl <;>
    exact not_isDigit (by decide) (by decide)

/-- Digits end where something else begins. -/
theorem split_unique {ds ds' : List Char} {c c' : Char} {r r' : List Char}
    (hds : ∀ x ∈ ds, isDigit x = true) (hds' : ∀ x ∈ ds', isDigit x = true)
    (hc : isDigit c = false) (hc' : isDigit c' = false) (h : ds ++ c :: r = ds' ++ c' :: r') :
    ds = ds' ∧ c = c' ∧ r = r' := by
  induction ds generalizing ds' with
  | nil =>
      rcases ds' with _ | ⟨x, ds'⟩
      · exact ⟨rfl, by simpa using h⟩
      · have hx := hds' x List.mem_cons_self
        obtain ⟨rfl, -⟩ := List.cons.inj h
        rw [hc] at hx
        exact absurd hx Bool.false_ne_true
  | cons x ds ih =>
      rcases ds' with _ | ⟨y, ds'⟩
      · have hx := hds x List.mem_cons_self
        obtain ⟨rfl, -⟩ := List.cons.inj h
        rw [hc'] at hx
        exact absurd hx Bool.false_ne_true
      · obtain ⟨rfl, hrest⟩ := List.cons.inj h
        obtain ⟨rfl, hbehind⟩ := ih (fun z hz => hds z (List.mem_cons_of_mem _ hz))
          (fun z hz => hds' z (List.mem_cons_of_mem _ hz)) hrest
        exact ⟨rfl, hbehind⟩

theorem takeWhile_numeral {ds : List Char} (hds : ∀ x ∈ ds, isDigit x = true) {c : Char}
    (hc : isDigit c = false) (r : List Char) : (ds ++ c :: r).takeWhile isDigit = ds := by
  rw [List.takeWhile_append_of_pos hds, List.takeWhile_cons, hc]
  simp

/-- A numeral is read off with what is behind it. -/
theorem numberThen_numeral {ds : List Char} (hds : Numeral ds) {c : Char}
    (hc : isDigit c = false) (stop : Char) (r : List Char) :
    numberThen stop (ds ++ c :: r) = if c = stop then some (ds, r) else none := by
  simp [numberThen, takeWhile_numeral hds.2 hc, hds.1]

theorem numberThen_eq_some {stop : Char} {s ds r : List Char} (h : numberThen stop s = some (ds, r)) :
    Numeral ds ∧ s = ds ++ stop :: r := by
  have hsplit : s.takeWhile isDigit ++ s.drop (s.takeWhile isDigit).length = s := by
    rw [← List.prefix_iff_eq_append]
    exact List.takeWhile_prefix _
  unfold numberThen at h
  dsimp only at h
  split at h
  · exact absurd h nofun
  · next c rest hrest =>
    split at h
    · next hcond =>
      obtain ⟨rfl, rfl⟩ := Prod.mk.inj (Option.some.inj h)
      obtain ⟨hne, rfl⟩ := hcond
      refine ⟨⟨hne, fun x hx => List.mem_takeWhile_imp hx⟩, ?_⟩
      rw [← hrest, hsplit]
    · exact absurd h nofun

/-! ## §4 Units -/

/-- The groups that are found are those that are written. -/
theorem groups_eq_some {s ds : List Char} (hds : ∀ x ∈ ds, isDigit x = true)
    {gs : List (List Char × Char)} :
    groups ds s = some gs ↔ ds ++ s = unitText gs ∧ ValidUnits gs := by
  induction s generalizing ds gs with
  | nil =>
      rw [groups, List.append_nil]
      rcases gs with _ | ⟨⟨d, u⟩, gs⟩
      · simp [unitText, ValidUnits]
      · refine iff_of_false (by split <;> simp) ?_
        rintro ⟨htext, hvalid⟩
        -- the letter of the first group would be a digit
        have hu : u ∈ ds := by rw [htext]; simp [unitText]
        have hdigit := hds u hu
        rw [not_isDigit_unit (hvalid _ List.mem_cons_self).2] at hdigit
        exact Bool.false_ne_true hdigit
  | cons c rest ih =>
      rw [groups]
      by_cases hc : isDigit c = true
      · have hall : ∀ x ∈ ds ++ [c], isDigit x = true := by
          intro x hx
          rcases List.mem_append.mp hx with hx | hx
          · exact hds x hx
          · rw [List.mem_singleton.mp hx]
            exact hc
        rw [if_pos hc, ih hall, List.append_assoc]
        rfl
      · have hc := Bool.not_eq_true _ ▸ hc
        rw [if_neg (by rw [hc]; exact Bool.false_ne_true)]
        -- a first group of the text is `ds` with the letter `c`
        have hfirst : ∀ {d u gs}, ds ++ c :: rest = unitText ((d, u) :: gs) →
            ValidUnits ((d, u) :: gs) → ds = d ∧ c = u ∧ rest = unitText gs := by
          intro d u gs htext hvalid
          have hg := hvalid _ List.mem_cons_self
          refine split_unique hds hg.1.2 hc (not_isDigit_unit hg.2) ?_
          rw [htext]
          simp [unitText]
        split
        · next hgroup =>
          rw [Option.map_eq_some_iff]
          constructor
          · rintro ⟨gs', hgs', rfl⟩
            obtain ⟨htext, hvalid⟩ := (ih (fun x hx => absurd hx List.not_mem_nil)).mp hgs'
            refine ⟨?_, List.forall_mem_cons.mpr ⟨⟨⟨hgroup.1, hds⟩, hgroup.2⟩, hvalid⟩⟩
            rw [List.nil_append] at htext
            simp [unitText, htext]
          · rintro ⟨htext, hvalid⟩
            rcases gs with _ | ⟨⟨d, u⟩, gs⟩
            · simp [unitText] at htext
            · obtain ⟨rfl, rfl, hrest⟩ := hfirst htext hvalid
              refine ⟨gs, (ih fun x hx => absurd hx List.not_mem_nil).mpr ⟨hrest, ?_⟩, rfl⟩
              exact fun g hg => hvalid g (List.mem_cons_of_mem _ hg)
        · next hgroup =>
          refine iff_of_false nofun ?_
          rintro ⟨htext, hvalid⟩
          rcases gs with _ | ⟨⟨d, u⟩, gs⟩
          · simp [unitText] at htext
          · obtain ⟨rfl, rfl, -⟩ := hfirst htext hvalid
            have hg := hvalid _ List.mem_cons_self
            exact hgroup ⟨hg.1.1, hg.2⟩

theorem int_eq {ds : List Char} (h : ds.length ≤ maxStrDigits) : int ds = .ok (valueOf ds) :=
  if_pos h

theorem int_error {ds : List Char} (h : ¬ ds.length ≤ maxStrDigits) : int ds = .error .limit :=
  if_neg h

theorem unitSum_eq (gs : List (List Char × Char)) :
    unitSum gs = if ∀ g ∈ gs, g.1.length ≤ maxStrDigits then
      .ok (gs.map fun g => valueOf g.1 * weight g.2).sum else .error .limit := by
  induction gs with
  | nil => simp [unitSum]
  | cons g gs ih =>
      obtain ⟨ds, u⟩ := g
      have hcons : (∀ g ∈ (ds, u) :: gs, g.1.length ≤ maxStrDigits) ↔
          ds.length ≤ maxStrDigits ∧ ∀ g ∈ gs, g.1.length ≤ maxStrDigits :=
        List.forall_mem_cons (p := fun g : List Char × Char => g.1.length ≤ maxStrDigits)
      rw [unitSum, ih]
      by_cases hds : ds.length ≤ maxStrDigits
      · rw [int_eq hds]
        by_cases hgs : ∀ g ∈ gs, g.1.length ≤ maxStrDigits
        · rw [if_pos hgs, if_pos (hcons.mpr ⟨hds, hgs⟩)]
          rfl
        · rw [if_neg hgs, if_neg fun h => hgs (hcons.mp h).2]
          rfl
      · rw [int_error hds, if_neg fun h => hds (hcons.mp h).1]
        rfl

/-! ## §5 The colon notation -/

/-- What is read of `(?:(\d+)w)?` is what is written, when no other such number follows. -/
theorem optional_suffixed {stop : Char} {o : Option (List Char)} (ho : ∀ ds ∈ o, Numeral ds)
    (hstop : isDigit stop = false) {s : List Char} (hs : numberThen stop s = none) :
    optional stop (suffixed stop o ++ s) = (o, s) := by
  rcases o with _ | ds
  · simp [optional, suffixed, hs]
  · have h := numberThen_numeral (ho ds rfl) hstop stop s
    rw [if_pos rfl] at h
    simp [optional, suffixed, h]

theorem optional_cases {stop : Char} {s rest : List Char} {o : Option (List Char)}
    (h : optional stop s = (o, rest)) :
    (∀ ds ∈ o, Numeral ds) ∧ s = suffixed stop o ++ rest := by
  unfold optional at h
  split at h
  · next ds r hnumber =>
    obtain ⟨rfl, rfl⟩ := Prod.mk.inj h
    obtain ⟨hds, htext⟩ := numberThen_eq_some hnumber
    exact ⟨fun d hd => Option.some.inj hd ▸ hds, by simp [suffixed, htext]⟩
  · obtain ⟨rfl, rfl⟩ := Prod.mk.inj h
    exact ⟨fun d hd => by simp at hd, rfl⟩

theorem not_isDigit_colon : isDigit ':' = false := not_isDigit (by decide) (by decide)

theorem not_isDigit_w : isDigit 'w' = false := not_isDigit_unit (by decide)

theorem not_isDigit_d : isDigit 'd' = false := not_isDigit_unit (by decide)

/-- The groups of a valid clock are found again. -/
theorem clock_text {c : Clock} (h : c.Valid) : clock c.text = some c := by
  obtain ⟨weeks, days, hours, minutes, seconds⟩ := c
  obtain ⟨hweeks, hdays, hhours, ⟨hminutes, hm⟩, ⟨hseconds, hs⟩⟩ := h
  obtain ⟨m₁, m₂, rfl⟩ := List.length_eq_two.mp hm
  obtain ⟨s₁, s₂, rfl⟩ := List.length_eq_two.mp hs
  have hall : [m₁, m₂, s₁, s₂].all isDigit = true := by
    simp [hminutes.2 m₁ (by simp), hminutes.2 m₂ (by simp), hseconds.2 s₁ (by simp),
      hseconds.2 s₂ (by simp)]
  have htime : ∀ stop, numberThen stop (hours ++ ':' :: ([m₁, m₂] ++ ':' :: [s₁, s₂])) =
      if ':' = stop then some (hours, [m₁, m₂, ':', s₁, s₂]) else none := fun stop =>
    numberThen_numeral hhours not_isDigit_colon stop _
  have hday : numberThen 'w' (suffixed 'd' days ++
      (hours ++ ':' :: ([m₁, m₂] ++ ':' :: [s₁, s₂]))) = none := by
    rcases days with _ | ds
    · rw [suffixed, List.nil_append, htime, if_neg (by decide)]
    · rw [suffixed, List.append_assoc]
      exact (numberThen_numeral (hdays ds rfl) not_isDigit_d 'w' _).trans (if_neg (by decide))
  rw [clock, Clock.text, optional_suffixed hweeks not_isDigit_w hday]
  dsimp only
  rw [optional_suffixed hdays not_isDigit_d ((htime 'd').trans (if_neg (by decide)))]
  dsimp only
  rw [htime, if_pos rfl]
  simp only [hall, if_true]

theorem clock_eq_some {s : List Char} {c : Clock} (h : clock s = some c) :
    c.Valid ∧ s = c.text := by
  unfold clock at h
  rcases hw : optional 'w' s with ⟨weeks, s₁⟩
  rcases hd : optional 'd' s₁ with ⟨days, s₂⟩
  obtain ⟨hweeks, rfl⟩ := optional_cases hw
  obtain ⟨hdays, rfl⟩ := optional_cases hd
  rw [hw] at h
  dsimp only at h
  rw [hd] at h
  dsimp only at h
  split at h
  · next hours m₁ m₂ t₁ t₂ hnumber =>
    obtain ⟨hhours, rfl⟩ := numberThen_eq_some hnumber
    split at h
    · next hall =>
      simp only [List.all_cons, List.all_nil, Bool.and_true, Bool.and_eq_true] at hall
      obtain ⟨h₁, h₂, h₃, h₄⟩ := hall
      obtain rfl := Option.some.inj h
      refine ⟨⟨hweeks, hdays, hhours, ⟨⟨by simp, ?_⟩, rfl⟩, ⟨⟨by simp, ?_⟩, rfl⟩⟩, rfl⟩
      · simp [h₁, h₂]
      · simp [h₃, h₄]
    · exact absurd h nofun
  · exact absurd h nofun

/-! ## §6 What is read -/

/-- The two notations have no text in common: one of them has a colon. -/
theorem groups_clock {c : Clock} {gs : List (List Char × Char)}
    (hgs : groups [] c.text = some gs) : False := by
  obtain ⟨htext, hvalid⟩ := (groups_eq_some fun x hx => absurd hx List.not_mem_nil).mp hgs
  rw [List.nil_append] at htext
  have hcolon : ':' ∈ c.text := by simp [Clock.text]
  rw [htext, unitText] at hcolon
  obtain ⟨g, hg, hmem⟩ := List.mem_flatMap.mp hcolon
  obtain ⟨hnumber, hunit⟩ := hvalid g hg
  rcases List.mem_append.mp hmem with hdigit | hletter
  · have hcontra := hnumber.2 ':' hdigit
    rw [not_isDigit_colon] at hcontra
    exact Bool.false_ne_true hcontra
  · rw [← List.mem_singleton.mp hletter] at hunit
    exact absurd hunit (by decide)

theorem intOr0_eq {o : Option (List Char)} (h : ∀ ds ∈ o, ds.length ≤ maxStrDigits) :
    intOr0 o = .ok ((o.map valueOf).getD 0) := by
  rcases o with _ | ds
  · rfl
  · exact int_eq (h ds rfl)

theorem intOr0_error {o : Option (List Char)} (h : ¬ ∀ ds ∈ o, ds.length ≤ maxStrDigits) :
    intOr0 o = .error .limit := by
  rcases o with _ | ds
  · exact absurd (fun d hd => by simp at hd) h
  · exact int_error fun hds => h fun d hd => Option.some.inj hd ▸ hds

/-- Two digits are never too many. -/
theorem short_clock {c : Clock} (h : c.Valid) :
    (Form.clock c).Short ↔ (∀ ds ∈ c.weeks, ds.length ≤ maxStrDigits) ∧
      (∀ ds ∈ c.days, ds.length ≤ maxStrDigits) ∧ c.hours.length ≤ maxStrDigits := by
  have htwo : 2 ≤ maxStrDigits := by decide
  simp [Form.Short, Form.numbers, or_imp, forall_and, h.minutes.2, h.seconds.2, htwo]

theorem uptime_seconds_clock {value : String} {c : Clock} (h : c.Valid)
    (hvalue : value.toList = c.text) :
    uptime_seconds value =
      if (Form.clock c).Short then .ok (Form.clock c).seconds else .error .limit := by
  have hgroups : groups [] value.toList = none := by
    rw [hvalue]
    exact Option.eq_none_iff_forall_ne_some.mpr fun gs => groups_clock
  rw [uptime_seconds, hgroups]
  dsimp only
  rw [hvalue, clock_text h]
  dsimp only
  have htwo : 2 ≤ maxStrDigits := by decide
  by_cases hw : ∀ ds ∈ c.weeks, ds.length ≤ maxStrDigits
  · by_cases hd : ∀ ds ∈ c.days, ds.length ≤ maxStrDigits
    · by_cases hh : c.hours.length ≤ maxStrDigits
      · rw [if_pos ((short_clock h).mpr ⟨hw, hd, hh⟩), intOr0_eq hw, intOr0_eq hd, int_eq hh,
          int_eq (h.minutes.2.trans_le htwo), int_eq (h.seconds.2.trans_le htwo)]
        rfl
      · rw [if_neg fun hs => hh ((short_clock h).mp hs).2.2, intOr0_eq hw, intOr0_eq hd,
          int_error hh]
        rfl
    · rw [if_neg fun hs => hd ((short_clock h).mp hs).2.1, intOr0_eq hw, intOr0_error hd]
      rfl
  · rw [if_neg fun hs => hw ((short_clock h).mp hs).1, intOr0_error hw]
    rfl

theorem uptime_seconds_units {value : String} {gs : List (List Char × Char)} (hne : gs ≠ [])
    (h : ValidUnits gs) (hvalue : value.toList = unitText gs) :
    uptime_seconds value =
      if (Form.units gs).Short then .ok (Form.units gs).seconds else .error .limit := by
  have hgroups : groups [] value.toList = some gs :=
    (groups_eq_some fun x hx => absurd hx List.not_mem_nil).mpr ⟨hvalue, h⟩
  obtain ⟨g, gs, rfl⟩ := List.exists_cons_of_ne_nil hne
  rw [uptime_seconds, hgroups]
  dsimp only
  rw [unitSum_eq]
  have hshort : (∀ g' ∈ g :: gs, g'.1.length ≤ maxStrDigits) ↔ (Form.units (g :: gs)).Short := by
    simp [Form.Short, Form.numbers]
  simp only [hshort]
  split
  · rfl
  · rfl

/-- **What is read**: the number of each text in one of the notations, and nothing of any other. -/
theorem uptime_seconds_form {value : String} {f : Form} (h : f.Valid)
    (hvalue : f.text = value.toList) :
    uptime_seconds value = if f.Short then .ok f.seconds else .error .limit := by
  rcases f with gs | c
  · exact uptime_seconds_units h.1 h.2 hvalue.symm
  · exact uptime_seconds_clock h hvalue.symm

theorem uptime_seconds_other {value : String}
    (h : ∀ f : Form, f.Valid → f.text ≠ value.toList) : uptime_seconds value = .ok none := by
  unfold uptime_seconds
  split
  · next g gs hgroups =>
    obtain ⟨htext, hvalid⟩ :=
      (groups_eq_some fun x hx => absurd hx List.not_mem_nil).mp hgroups
    exact absurd htext.symm (h (.units (g :: gs)) ⟨by simp, hvalid⟩)
  · split
    · rfl
    · next c hclock =>
      obtain ⟨hvalid, htext⟩ := clock_eq_some hclock
      exact absurd htext.symm (h (.clock c) hvalid)

/-! ## §7 What RouterOS prints -/

def decimal (n : Nat) : List Char := Nat.toDigits 10 n

/-- With a zero before a single digit. -/
def twoDigits (n : Nat) : List Char := [Nat.digitChar (n / 10), Nat.digitChar (n % 10)]

/-- The duration in weeks, days, hours, minutes and seconds. -/
def parts (n : Nat) : List (Nat × Char) :=
  [(n / 604800, 'w'), (n / 86400 % 7, 'd'), (n / 3600 % 24, 'h'), (n / 60 % 60, 'm'), (n % 60, 's')]

def printed (p : Nat × Char) : List Char × Char := (decimal p.1, p.2)

/-- Before the time, weeks and days are there or not. -/
def decimalIf (shown : Bool) (n : Nat) : Option (List Char) :=
  if shown then some (decimal n) else none

/-- A unit that is zero may be left out, as long as one is left. -/
inductive Printed (n : Nat) : List Char → Prop
  | units (shown : Char → Bool) (hshown : ∀ p ∈ parts n, p.1 ≠ 0 → shown p.2 = true)
      (hne : (parts n).filter (fun p => shown p.2) ≠ []) :
      Printed n (unitText (((parts n).filter fun p => shown p.2).map printed))
  | clock (weeks days : Bool) (hweeks : n / 604800 ≠ 0 → weeks = true)
      (hdays : n / 86400 % 7 ≠ 0 → days = true) :
      Printed n (Clock.text
        { weeks := decimalIf weeks (n / 604800)
          days := decimalIf days (n / 86400 % 7)
          hours := twoDigits (n / 3600 % 24)
          minutes := twoDigits (n / 60 % 60)
          seconds := twoDigits (n % 60) })

theorem digit_of_isDigit {c : Char} (h : c.isDigit = true) : digit c = some (c.toNat - 48) := by
  have hlt : c.toNat < 128 := by
    simp only [Char.isDigit, Bool.and_eq_true, decide_eq_true_eq] at h
    have h57 : c.toNat ≤ 57 := h.2
    omega
  rw [Decimals.ascii c hlt, if_pos h]

omit [Decimals] in
theorem isDigit_decimal {n : Nat} {c : Char} (h : c ∈ decimal n) : c.isDigit = true :=
  Nat.isDigit_of_mem_toDigits (by decide) (by decide) h

theorem numeral_decimal (n : Nat) : Numeral (decimal n) :=
  ⟨Nat.toDigits_ne_nil, fun _ hc => isDigit_of_ascii (isDigit_decimal hc)⟩

/-- ASCII digits are read as Lean reads them. -/
theorem valueOf_ascii {ds : List Char} (h : ∀ c ∈ ds, c.isDigit = true) :
    valueOf ds = Nat.ofDigitChars 10 ds 0 := by
  have hfold : ∀ (ds : List Char) (n : Nat), (∀ c ∈ ds, c.isDigit = true) →
      ds.foldl (fun n c => 10 * n + (digit c).getD 0) n = Nat.ofDigitChars 10 ds n := by
    intro ds
    induction ds with
    | nil => simp [Nat.ofDigitChars]
    | cons c ds ih =>
        intro n hall
        obtain ⟨hc, hall⟩ := List.forall_mem_cons.mp hall
        rw [List.foldl_cons, ih _ hall, digit_of_isDigit hc]
        rfl
  exact hfold ds 0 h

theorem valueOf_decimal (n : Nat) : valueOf (decimal n) = n := by
  rw [valueOf_ascii fun _ => isDigit_decimal, decimal, Nat.ofDigitChars_ten_toDigits]

omit [Decimals] in
theorem length_decimal_le {n : Nat} (h : n < 10 ^ maxStrDigits) :
    (decimal n).length ≤ maxStrDigits :=
  (Nat.length_toDigits_le_iff (by decide) (by decide)).mpr h

omit [Decimals] in
theorem digitChar_spec : ∀ k < 10, (Nat.digitChar k).isDigit = true ∧
    (Nat.digitChar k).toNat - 48 = k := by decide

theorem numeral_twoDigits {n : Nat} (h : n < 100) : Numeral (twoDigits n) := by
  refine ⟨by simp [twoDigits], fun c hc => ?_⟩
  simp only [twoDigits, List.mem_cons, List.not_mem_nil, or_false] at hc
  rcases hc with rfl | rfl
  · exact isDigit_of_ascii (digitChar_spec _ (by omega)).1
  · exact isDigit_of_ascii (digitChar_spec _ (by omega)).1

theorem valueOf_twoDigits {n : Nat} (h : n < 100) : valueOf (twoDigits n) = n := by
  have htens := digitChar_spec (n / 10) (by omega)
  have hones := digitChar_spec (n % 10) (by omega)
  simp only [valueOf, twoDigits, List.foldl_cons, List.foldl_nil, digit_of_isDigit htens.1,
    digit_of_isDigit hones.1, Option.getD_some, htens.2, hones.2]
  omega

omit [Decimals] in
theorem isUnit_of_mem_parts {n : Nat} {p : Nat × Char} (h : p ∈ parts n) : isUnit p.2 = true := by
  simp only [parts, List.mem_cons, List.not_mem_nil, or_false] at h
  rcases h with rfl | rfl | rfl | rfl | rfl <;> rfl

omit [Decimals] in
/-- What is left out adds nothing. -/
theorem sum_filter {α : Type*} (f : α → Nat) {keep : α → Bool} {l : List α}
    (h : ∀ p ∈ l, keep p = false → f p = 0) : ((l.filter keep).map f).sum = (l.map f).sum := by
  induction l with
  | nil => rfl
  | cons p l ih =>
      obtain ⟨hp, hl⟩ := List.forall_mem_cons.mp h
      rw [List.filter_cons, List.map_cons, List.sum_cons, ← ih hl]
      cases hkeep : keep p with
      | true => rw [if_pos rfl, List.map_cons, List.sum_cons]
      | false => rw [hp hkeep, if_neg Bool.false_ne_true, Nat.zero_add]

omit [Decimals] in
theorem parts_sum (n : Nat) : ((parts n).map fun p => p.1 * weight p.2).sum = n := by
  have hw : weight 'w' = 604800 ∧ weight 'd' = 86400 ∧ weight 'h' = 3600 ∧ weight 'm' = 60 ∧
      weight 's' = 1 := by decide
  obtain ⟨h₁, h₂, h₃, h₄, h₅⟩ := hw
  simp only [parts, List.map_cons, List.map_nil, List.sum_cons, List.sum_nil, h₁, h₂, h₃, h₄, h₅]
  omega

omit [Decimals] in
/-- No number of a duration has too many digits, if the weeks have not. -/
theorem parts_lt {n : Nat} (h : n < 604800 * 10 ^ maxStrDigits) {p : Nat × Char}
    (hp : p ∈ parts n) : p.1 < 10 ^ maxStrDigits := by
  have hsmall : 60 < 10 ^ maxStrDigits :=
    calc 60 < 10 ^ 2 := by decide
      _ ≤ 10 ^ maxStrDigits := Nat.pow_le_pow_right (by decide) (by decide)
  simp only [parts, List.mem_cons, List.not_mem_nil, or_false] at hp
  rcases hp with rfl | rfl | rfl | rfl | rfl
  · exact Nat.div_lt_of_lt_mul h
  · exact (Nat.mod_lt _ (by decide)).trans (Nat.lt_trans (by decide) hsmall)
  · exact (Nat.mod_lt _ (by decide)).trans (Nat.lt_trans (by decide) hsmall)
  · exact (Nat.mod_lt _ (by decide)).trans hsmall
  · exact (Nat.mod_lt _ (by decide)).trans hsmall

omit [Decimals] in
theorem decimalIf_cases {shown : Bool} {n : Nat} {ds : List Char} (h : ds ∈ decimalIf shown n) :
    ds = decimal n := by
  unfold decimalIf at h
  split at h
  · exact (Option.some.inj h).symm
  · simp at h

theorem value_decimalIf {shown : Bool} {n : Nat} (h : n ≠ 0 → shown = true) :
    ((decimalIf shown n).map valueOf).getD 0 = n := by
  unfold decimalIf
  split
  · exact valueOf_decimal n
  · next hshown =>
    by_contra hne
    exact hshown (h (Ne.symm hne))

section Printing

variable {n : Nat} (hn : n < 604800 * 10 ^ maxStrDigits)

include hn

theorem read_printed_units {shown : Char → Bool} (hshown : ∀ p ∈ parts n, p.1 ≠ 0 → shown p.2 = true)
    (hne : (parts n).filter (fun p => shown p.2) ≠ []) {value : String}
    (hvalue : unitText (((parts n).filter fun p => shown p.2).map printed) = value.toList) :
    uptime_seconds value = .ok (some n) := by
  have hvalid : (Form.units (((parts n).filter fun p => shown p.2).map printed)).Valid := by
    refine ⟨by simpa using hne, ?_⟩
    intro g hg
    obtain ⟨p, hp, rfl⟩ := List.mem_map.mp hg
    exact ⟨numeral_decimal p.1, isUnit_of_mem_parts (List.mem_filter.mp hp).1⟩
  have hshort : (Form.units (((parts n).filter fun p => shown p.2).map printed)).Short := by
    intro ds hds
    obtain ⟨g, hg, rfl⟩ := List.mem_map.mp hds
    obtain ⟨p, hp, rfl⟩ := List.mem_map.mp hg
    exact length_decimal_le (parts_lt hn (List.mem_filter.mp hp).1)
  have hvalues : (fun p => valueOf (printed p).1 * weight (printed p).2) =
      fun p => p.1 * weight p.2 := by
    funext p
    rw [printed, valueOf_decimal]
  have hsum : ((((parts n).filter fun p => shown p.2).map printed).map
      fun g => valueOf g.1 * weight g.2).sum = n := by
    rw [List.map_map, Function.comp_def, hvalues, sum_filter, parts_sum]
    intro p hp hhidden
    have hzero : p.1 = 0 := by
      by_contra hpos
      rw [hshown p hp hpos] at hhidden
      exact absurd hhidden (by decide)
    rw [hzero, Nat.zero_mul]
  rw [uptime_seconds_form hvalid hvalue, if_pos hshort, Form.seconds, hsum]

theorem read_printed_clock {weeks days : Bool} (hweeks : n / 604800 ≠ 0 → weeks = true)
    (hdays : n / 86400 % 7 ≠ 0 → days = true) {value : String}
    (hvalue : Clock.text
        { weeks := decimalIf weeks (n / 604800)
          days := decimalIf days (n / 86400 % 7)
          hours := twoDigits (n / 3600 % 24)
          minutes := twoDigits (n / 60 % 60)
          seconds := twoDigits (n % 60) } = value.toList) :
    uptime_seconds value = .ok (some n) := by
  have hw : n / 604800 < 10 ^ maxStrDigits := parts_lt hn (p := (_, 'w')) (by simp [parts])
  have hd : n / 86400 % 7 < 10 ^ maxStrDigits := parts_lt hn (p := (_, 'd')) (by simp [parts])
  generalize hc : Clock.mk (decimalIf weeks (n / 604800)) (decimalIf days (n / 86400 % 7))
    (twoDigits (n / 3600 % 24)) (twoDigits (n / 60 % 60)) (twoDigits (n % 60)) = c at hvalue
  have hvalid : c.Valid := by
    subst hc
    refine ⟨fun ds hds => ?_, fun ds hds => ?_, numeral_twoDigits (by omega),
      ⟨numeral_twoDigits (by omega), rfl⟩, ⟨numeral_twoDigits (by omega), rfl⟩⟩
    · rw [decimalIf_cases hds]
      exact numeral_decimal _
    · rw [decimalIf_cases hds]
      exact numeral_decimal _
  have hshort : (Form.clock c).Short := by
    rw [short_clock hvalid]
    subst hc
    refine ⟨fun ds hds => ?_, fun ds hds => ?_, (by decide : 2 ≤ maxStrDigits)⟩
    · rw [decimalIf_cases hds]
      exact length_decimal_le hw
    · rw [decimalIf_cases hds]
      exact length_decimal_le hd
  have hread : (Form.clock c).seconds = some n := by
    subst hc
    rw [Form.seconds, valueOf_twoDigits (by omega), valueOf_twoDigits (by omega),
      valueOf_twoDigits (by omega), value_decimalIf hweeks, value_decimalIf hdays,
      if_pos ⟨Nat.mod_lt _ (by decide), Nat.mod_lt _ (by decide)⟩]
    congr 1
    omega
  rw [uptime_seconds_form (f := .clock c) hvalid hvalue, if_pos hshort, hread]

end Printing

/-! ## §8 Uptimes -/

/-- **Uptimes are read exactly**: a duration from each form in which it is printed; of any text in
one of the two notations the number that it stands for; and any other text is no uptime. -/
theorem uptime_exact :
    (∀ (n : Nat) (value : String), n < 604800 * 10 ^ maxStrDigits → Printed n value.toList →
      uptime_seconds value = .ok (some n)) ∧
    (∀ (f : Form) (value : String), f.Valid → f.text = value.toList →
      uptime_seconds value = if f.Short then .ok f.seconds else .error .limit) ∧
    ∀ value : String, (∀ f : Form, f.Valid → f.text ≠ value.toList) →
      uptime_seconds value = .ok none := by
  refine ⟨fun n value hn h => ?_, fun f value => uptime_seconds_form,
    fun value => uptime_seconds_other⟩
  generalize htext : value.toList = text at h
  rcases h with ⟨shown, hshown, hne⟩ | ⟨weeks, days, hweeks, hdays⟩
  · exact read_printed_units hn hshown hne htext.symm
  · exact read_printed_clock hn hweeks hdays htext.symm

end Reading

/-! ## §9 A unit twice -/

/-- The digits of ASCII. -/
@[reducible] def asciiDecimals : Decimals where
  digit c := if c.isDigit then some (c.toNat - 48) else none
  ascii _ _ := rfl

section Concrete

attribute [local instance] asciiDecimals

/-- A printed form has each unit once at most. -/
theorem not_printed_twice (n : Nat) : ¬ Printed n "1s1s".toList := by
  intro h
  generalize htext : "1s1s".toList = text at h
  rcases h with ⟨shown, -, -⟩ | ⟨weeks, days, -, -⟩
  · have hvalid : ValidUnits (((parts n).filter fun p => shown p.2).map printed) := by
      intro g hg
      obtain ⟨p, hp, rfl⟩ := List.mem_map.mp hg
      exact ⟨numeral_decimal p.1, isUnit_of_mem_parts (List.mem_filter.mp hp).1⟩
    have hgroups := (groups_eq_some fun x hx => absurd hx List.not_mem_nil).mpr
      ⟨htext, hvalid⟩
    have htwice : groups [] "1s1s".toList = some [(['1'], 's'), (['1'], 's')] := by decide +kernel
    have hletters : ((parts n).filter fun p => shown p.2).map Prod.snd = ['s', 's'] := by
      have heq := congrArg (List.map Prod.snd) (Option.some.inj (hgroups.symm.trans htwice))
      rwa [List.map_map] at heq
    have hnodup : (((parts n).filter fun p => shown p.2).map Prod.snd).Nodup :=
      List.Nodup.sublist (List.filter_sublist.map _) (by decide : ['w', 'd', 'h', 'm', 's'].Nodup)
    rw [hletters] at hnodup
    exact absurd hnodup (by decide)
  · have hcolon : ':' ∈ "1s1s".toList := by
      rw [htext]
      simp [Clock.text]
    exact absurd hcolon (by decide +kernel)

/-- A week, two days and a time. -/
theorem uptime_exact_week : Printed 788645 "1w2d03:04:05".toList ∧
    uptime_seconds "1w2d03:04:05" = .ok (some 788645) := by
  have hprinted : Printed 788645 "1w2d03:04:05".toList := by
    have h := Printed.clock (n := 788645) true true (fun _ => rfl) (fun _ => rfl)
    have htext : "1w2d03:04:05".toList = ['1', 'w', '2', 'd', '0', '3', ':', '0', '4', ':', '0', '5'] :=
      by decide +kernel
    rw [htext]
    exact h
  refine ⟨hprinted, uptime_exact.1 788645 _ ?_ hprinted⟩
  exact (by decide : 788645 < 604800 * 10).trans_le (Nat.mul_le_mul_left _ (Nat.le_self_pow (by decide) 10))

/-- `1s1s` is no printed form of any duration, and read as two seconds. -/
theorem unit_twice :
    ¬ ∀ value : String, (∀ n, ¬ Printed n value.toList) → uptime_seconds value = .ok none := by
  intro h
  have hnone := h "1s1s" not_printed_twice
  exact absurd hnone (by decide +kernel)

end Concrete

end NetPulse.RouterOs.Uptime
