import Mathlib.Algebra.Order.Ring.Rat
import Mathlib.Data.List.Count
import Mathlib.Tactic.Linarith

/-
# NetPulse.Lib.Throttle — failures counted in fixed windows, with a block behind the last one

A failure opens a window of length `len`, later failures of the window are counted, and the failure
that makes it `max` blocks for `len`; a reset forgets everything. While it is blocked nothing fails,
up to a `slack` before the end of the block.

Two windows can follow one another closely, so the failures of a moving interval can be more than
those of a window. `Inv.bound`: in an interval of length `len - slack` without a reset they are at
most `2 * (max - 1)`. The rules of §3 say which steps keep `Inv`.
-/

namespace NetPulse.Lib.Throttle

/-! ## §1 The counter -/

structure State where
  /-- Failures of the window, and its start. -/
  window : Option (Nat × ℚ)
  /-- The end of the block. -/
  ends : Option ℚ

/-- Count and start of the window, which a failure after its end opens anew. -/
def State.current (s : State) (len now : ℚ) : Nat × ℚ :=
  let found := s.window.getD (0, now)
  if now - found.2 > len then (0, now) else found

def State.fail (s : State) (max : Nat) (len now : ℚ) : State :=
  let (cnt, start) := s.current len now
  if cnt + 1 ≥ max then ⟨none, some (now + len)⟩ else { s with window := some (cnt + 1, start) }

theorem State.fail_eq (s : State) (max : Nat) (len now : ℚ) : s.fail max len now =
    if (s.current len now).1 + 1 ≥ max then ⟨none, some (now + len)⟩
    else { s with window := some ((s.current len now).1 + 1, (s.current len now).2) } := rfl

/-! ## §2 What has happened -/

/-- The times of the failures and of the resets. -/
structure History where
  fails : List ℚ
  resets : List ℚ

variable (h : History) (start len : ℚ)

/-- Failures from a time on. -/
def History.since : Nat := h.fails.countP fun t => decide (start ≤ t)

/-- Failures of a half-open interval. -/
def History.within : Nat := h.fails.countP fun t => decide (start ≤ t ∧ t < start + len)

/-- No reset from a time on. -/
def History.Calm : Prop := ∀ t ∈ h.resets, t < start

/-- No reset in a half-open interval. -/
def History.CalmWithin : Prop := ∀ t ∈ h.resets, ¬ (start ≤ t ∧ t < start + len)

/-- With failures counted up to `cnt` since `first`. -/
structure Opened (max : Nat) (len slack clock : ℚ) (h : History) (cnt : Nat) (first : ℚ) :
    Prop where
  pos : 1 ≤ cnt
  few : cnt < max
  opens : first ≤ clock
  last : ∀ t ∈ h.fails, t ≤ first + len
  after : ∀ start, h.Calm start → first < start → h.since start + 1 ≤ cnt
  around : ∀ start, h.Calm start → first - (len - slack) < start → h.since start + 2 ≤ max + cnt

structure Inv (max : Nat) (len slack : ℚ) (s : State) (clock : ℚ) (h : History) : Prop where
  fails : ∀ t ∈ h.fails, t ≤ clock
  resets : ∀ t ∈ h.resets, t ≤ clock
  opened : ∀ cnt first, s.window = some (cnt, first) → Opened max len slack clock h cnt first
  blocked : s.window = none → ∀ ends, s.ends = some ends →
    ∀ start, h.Calm start → ends - len < start → h.since start = 0
  idle : s.window = none → s.ends = none →
    ∀ start, h.Calm start → clock - (len - slack) < start → h.since start = 0
  bound : ∀ start, h.CalmWithin start (len - slack) → h.within start (len - slack) ≤ 2 * (max - 1)

/-! ## §3 What keeps the invariant -/

variable {h start len} {max : Nat} {slack clock now : ℚ} {s : State}

theorem Inv.initial (max : Nat) (len slack clock : ℚ) :
    Inv max len slack ⟨none, none⟩ clock ⟨[], []⟩ where
  fails t ht := absurd ht List.not_mem_nil
  resets t ht := absurd ht List.not_mem_nil
  opened cnt first hw := by cases hw
  blocked _ ends he := by cases he
  idle _ _ start _ _ := rfl
  bound start _ := Nat.zero_le _

/-- Time passes. -/
theorem Inv.wait (hinv : Inv max len slack s clock h) (hnow : clock ≤ now) :
    Inv max len slack s now h where
  fails t ht := le_trans (hinv.fails t ht) hnow
  resets t ht := le_trans (hinv.resets t ht) hnow
  opened cnt first hw := by
    have ho := hinv.opened cnt first hw
    exact { ho with opens := le_trans ho.opens hnow }
  blocked := hinv.blocked
  idle hw he start hcalm hstart := hinv.idle hw he start hcalm (by linarith)
  bound := hinv.bound

/-- A block that is over is forgotten. -/
theorem Inv.expire {ends : ℚ} (hinv : Inv max len slack s clock h) (hs : s.ends = some ends)
    (hends : ends ≤ clock) (hslack : 0 ≤ slack) :
    Inv max len slack { s with ends := none } clock h where
  fails := hinv.fails
  resets := hinv.resets
  opened := hinv.opened
  blocked _ ends he := by cases he
  idle hw _ start hcalm hstart := hinv.blocked hw ends hs start hcalm (by linarith)
  bound := hinv.bound

/-- From a time after the last failure on there is none. -/
theorem since_eq_zero (hlast : ∀ t ∈ h.fails, t < start) : h.since start = 0 := by
  unfold History.since
  rw [List.countP_eq_zero]
  intro t ht
  rw [decide_eq_true_eq, not_le]
  exact hlast t ht

/-- A reset forgets the window and the block. -/
theorem Inv.reset (hinv : Inv max len slack s clock h) (hnow : clock ≤ now) :
    Inv max len slack ⟨none, none⟩ now { h with resets := now :: h.resets } where
  fails t ht := le_trans (hinv.fails t ht) hnow
  resets t ht := by
    rcases List.mem_cons.mp ht with rfl | ht
    · exact le_refl _
    · exact le_trans (hinv.resets t ht) hnow
  opened cnt first hw := by cases hw
  blocked _ ends he := by cases he
  idle _ _ start hcalm _ := by
    have hlate : now < start := hcalm now List.mem_cons_self
    exact since_eq_zero fun t ht => lt_of_le_of_lt (le_trans (hinv.fails t ht) hnow) hlate
  bound start hcalm := hinv.bound start fun t ht => hcalm t (List.mem_cons_of_mem _ ht)

/-- **Room for one more failure**: from a time less than an interval back there are not many. -/
theorem Inv.room (hinv : Inv max len slack s clock h) (hmax : 2 ≤ max)
    (hnow : clock ≤ now) (hopen : ∀ ends, s.ends = some ends → ends - slack < now)
    (hcalm : h.Calm start) (hstart : now - (len - slack) < start) :
    h.since start + 1 ≤ 2 * (max - 1) := by
  cases hw : s.window with
  | none =>
      have hzero : h.since start = 0 := by
        cases he : s.ends with
        | none => exact hinv.idle hw he start hcalm (by linarith)
        | some ends =>
            have hends := hopen ends he
            exact hinv.blocked hw ends he start hcalm (by linarith)
      omega
  | some w =>
      obtain ⟨cnt, first⟩ := w
      have ho := hinv.opened cnt first hw
      have hfirst := ho.opens
      have haround := ho.around start hcalm (by linarith)
      have hfew := ho.few
      omega

theorem since_cons (h : History) (start now : ℚ) :
    History.since ⟨now :: h.fails, h.resets⟩ start =
      h.since start + if start ≤ now then 1 else 0 := by
  simp only [History.since, List.countP_cons, decide_eq_true_eq]

/-- The counter right after a failure. -/
theorem Inv.bound_cons (hinv : Inv max len slack s clock h) (hmax : 2 ≤ max)
    (hnow : clock ≤ now) (hopen : ∀ ends, s.ends = some ends → ends - slack < now) (start : ℚ)
    (hcalm : h.CalmWithin start (len - slack)) :
    History.within ⟨now :: h.fails, h.resets⟩ start (len - slack) ≤ 2 * (max - 1) := by
  have hcons : History.within ⟨now :: h.fails, h.resets⟩ start (len - slack) =
      h.within start (len - slack) +
        if start ≤ now ∧ now < start + (len - slack) then 1 else 0 := by
    simp only [History.within, List.countP_cons, decide_eq_true_eq]
  rw [hcons]
  split_ifs with hin
  · -- nothing lies behind the new failure, so the interval has no upper end that matters
    have hfrom : h.Calm start := by
      intro t ht
      by_contra hno
      have hle := hinv.resets t ht
      exact hcalm t ht ⟨not_lt.mp hno, by linarith [hin.2]⟩
    have heq : h.within start (len - slack) ≤ h.since start := by
      refine List.countP_mono_left fun t _ ht => ?_
      rw [decide_eq_true_eq] at ht ⊢
      exact ht.1
    have hroom := hinv.room hmax hnow hopen hfrom (by linarith [hin.2])
    omega
  · exact hinv.bound start hcalm

/-- In a window that is over, only its first failure lies far enough back. -/
theorem Inv.fresh (hinv : Inv max len slack s clock h) (hmax : 2 ≤ max) (hslack : 0 ≤ slack)
    (hnow : clock ≤ now) (hopen : ∀ ends, s.ends = some ends → ends - slack < now)
    (hover : ∀ cnt first, s.window = some (cnt, first) → now - first > len)
    (hcalm : h.Calm start) (hstart : now - (len - slack) < start) : h.since start + 2 ≤ max := by
  cases hw : s.window with
  | none =>
      have hzero : h.since start = 0 := by
        cases he : s.ends with
        | none => exact hinv.idle hw he start hcalm (by linarith)
        | some ends =>
            have hends := hopen ends he
            exact hinv.blocked hw ends he start hcalm (by linarith)
      omega
  | some w =>
      obtain ⟨cnt, first⟩ := w
      have ho := hinv.opened cnt first hw
      have hfar := hover cnt first hw
      have hafter := ho.after start hcalm (by linarith)
      have hfew := ho.few
      omega

/-- With an open window, what is said of idle and of blocked counters is void. -/
theorem Inv.of_opened {cnt : Nat} {first : ℚ} (hw : s.window = some (cnt, first))
    (ho : Opened max len slack clock h cnt first) (hfails : ∀ t ∈ h.fails, t ≤ clock)
    (hresets : ∀ t ∈ h.resets, t ≤ clock)
    (hbound : ∀ start, h.CalmWithin start (len - slack) →
      h.within start (len - slack) ≤ 2 * (max - 1)) : Inv max len slack s clock h where
  fails := hfails
  resets := hresets
  opened cnt' first' hw' := by
    rw [hw, Option.some.injEq, Prod.mk.injEq] at hw'
    obtain ⟨rfl, rfl⟩ := hw'
    exact ho
  blocked hno := by
    rw [hw] at hno
    cases hno
  idle hno := by
    rw [hw] at hno
    cases hno
  bound := hbound

/-- The first failure of a window. -/
theorem Opened.first_failure (hinv : Inv max len slack s clock h) (hmax : 2 ≤ max) (hlen : 0 ≤ len)
    (hslack : 0 ≤ slack) (hnow : clock ≤ now)
    (hopen : ∀ ends, s.ends = some ends → ends - slack < now)
    (hover : ∀ cnt first, s.window = some (cnt, first) → now - first > len)
    (hfails : ∀ t ∈ now :: h.fails, t ≤ now) :
    Opened max len slack now ⟨now :: h.fails, h.resets⟩ 1 now where
  pos := le_refl _
  few := hmax
  opens := le_refl _
  last t ht := by linarith [hfails t ht]
  after start _ hstart := by
    rw [since_eq_zero fun t ht => lt_of_le_of_lt (hfails t ht) hstart]
  around start hcalm hstart := by
    have hfresh := hinv.fresh hmax hslack hnow hopen hover hcalm hstart
    rw [since_cons]
    split_ifs <;> omega

/-- One more failure of a window. -/
theorem Opened.next_failure {cnt : Nat} {first : ℚ} (ho : Opened max len slack clock h cnt first)
    (hnow : clock ≤ now) (hin : now - first ≤ len) (hfull : cnt + 1 < max) :
    Opened max len slack now ⟨now :: h.fails, h.resets⟩ (cnt + 1) first where
  pos := Nat.le_add_left 1 cnt
  few := hfull
  opens := le_trans ho.opens hnow
  last t ht := by
    rcases List.mem_cons.mp ht with rfl | ht
    · linarith
    · exact ho.last t ht
  after start hcalm hstart := by
    have hafter := ho.after start hcalm hstart
    rw [since_cons]
    split_ifs <;> omega
  around start hcalm hstart := by
    have haround := ho.around start hcalm hstart
    rw [since_cons]
    split_ifs <;> omega

/-- **A failure**, at a moment that is not blocked. -/
theorem Inv.fail (hinv : Inv max len slack s clock h) (hmax : 2 ≤ max) (hlen : 0 ≤ len)
    (hslack : 0 ≤ slack) (hnow : clock ≤ now)
    (hopen : ∀ ends, s.ends = some ends → ends - slack < now) :
    Inv max len slack (s.fail max len now) now ⟨now :: h.fails, h.resets⟩ := by
  have hfails : ∀ t ∈ now :: h.fails, t ≤ now := by
    intro t ht
    rcases List.mem_cons.mp ht with rfl | ht
    · exact le_refl _
    · exact le_trans (hinv.fails t ht) hnow
  have hresets : ∀ t ∈ h.resets, t ≤ now := fun t ht => le_trans (hinv.resets t ht) hnow
  have hbound := hinv.bound_cons hmax hnow hopen
  by_cases hin : ∃ cnt first, s.window = some (cnt, first) ∧ now - first ≤ len
  · obtain ⟨cnt, first, hw, hin⟩ := hin
    have ho := hinv.opened cnt first hw
    have hcurrent : s.current len now = (cnt, first) := by
      rw [State.current, hw, Option.getD_some]
      exact if_neg (not_lt.mpr hin)
    rw [State.fail_eq, hcurrent]
    by_cases hfull : cnt + 1 ≥ max
    · rw [if_pos hfull]
      -- the block ends `len` from now, and there is no failure behind this one
      refine ⟨hfails, hresets, fun _ _ hw => ?_, fun _ ends he start _ hstart => ?_,
        fun _ he => ?_, hbound⟩
      · cases hw
      · cases he
        exact since_eq_zero fun t ht => lt_of_le_of_lt (hfails t ht) (by linarith)
      · cases he
    · rw [if_neg hfull]
      exact Inv.of_opened rfl (ho.next_failure hnow hin (not_le.mp hfull)) hfails hresets hbound
  · have hover : ∀ cnt first, s.window = some (cnt, first) → now - first > len :=
      fun cnt first hw => not_le.mp fun hle => hin ⟨cnt, first, hw, hle⟩
    have hcurrent : s.current len now = (0, now) := by
      unfold State.current
      cases hw : s.window with
      | none => simp
      | some w => rw [Option.getD_some, if_pos (hover w.1 w.2 hw)]
    have hfail : s.fail max len now = { s with window := some (1, now) } := by
      rw [State.fail_eq, hcurrent]
      exact if_neg (not_le.mpr hmax)
    rw [hfail]
    exact Inv.of_opened rfl (Opened.first_failure hinv hmax hlen hslack hnow hopen hover hfails)
      hfails hresets hbound

end NetPulse.Lib.Throttle
