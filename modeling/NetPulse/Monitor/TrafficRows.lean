import Mathlib
import NetPulse.Lib.Machine
import NetPulse.Server.Settings

/-
# NetPulse.Monitor.TrafficRows — counted traffic and the rows of `traffic` (`services.py`)

The traffic loop takes the counters of the interfaces, adds up what each has grown and shows the sum
as a rate. The persisting cycle writes a row with five times the last rate, whatever was counted since
the row before. `QuotaManager` adds up the rows.

`traffic_conserved_iff`: rows and pending bytes together are the counted bytes exactly in the runs in
which each row finds five times the last reading, to the multiple of 512, to be pending.
-/

namespace NetPulse.Monitor

open NetPulse.Lib
open NetPulse.Server (Lower lower)

/-! ## §1 Readings -/

/-- `bytes_sent` and `bytes_recv`, by the name of the interface. -/
abbrev Counters := List (String × Nat × Nat)

section Reading

variable [Lower]

/-- `name.lower().startswith(("loopback", "lo"))` -/
def loopback (name : String) : Bool :=
  ["loopback", "lo"].any fun start => start.toList.isPrefixOf (lower name).toList

/-- `cur`, without loopbacks and without interfaces that have moved nothing. -/
def taken (counters : Counters) : Counters :=
  counters.filter fun (name, sent, recv) => !loopback name && !(sent = 0 && recv = 0)

end Reading

/-- `max(0, s - last[name][0])` and `max(0, r - last[name][1])`, for an interface known before. -/
def grown (last : Counters) (name : String) (sent recv : Nat) : Nat × Nat :=
  match Dict.lookup name last with
  | some (s, r) => (sent - s, recv - r)
  | none => (0, 0)

/-- `total_up` and `total_down` of one reading. -/
def totals (last cur : Counters) : Nat × Nat :=
  ((cur.map fun (name, sent, recv) => (grown last name sent recv).1).sum,
    (cur.map fun (name, sent, recv) => (grown last name sent recv).2).sum)

/-- `round`, of a fraction, to the even neighbour when both are as near. -/
def roundHalfEven (n d : Nat) : Nat :=
  if 2 * (n % d) < d then n / d
  else if 2 * (n % d) > d then n / d + 1
  else if n / d % 2 = 0 then n / d else n / d + 1

/-- `round(bytes / 1024, 1)`, in tenths. -/
def kbps (bytes : Nat) : Nat := roundHalfEven (10 * bytes) 1024

/-! ## §2 The two loops -/

/-- A row of the table `traffic`; `speed` in tenths. -/
structure Row where
  speed : Nat
  bytes_in : Nat
  bytes_out : Nat
  bytes_in_delta : Nat
  bytes_out_delta : Nat

structure Traffic where
  /-- `_psutil_last` -/
  last : Counters
  /-- The rates of `snapshot`, in tenths. -/
  down_kbps : Nat
  up_kbps : Nat
  /-- `total_down_mb` and `total_up_mb`, in bytes: what the loop has counted. -/
  total_down : Nat
  total_up : Nat
  rows : List Row
  /-- Counted since the last row. -/
  pending_down : Nat
  pending_up : Nat

namespace Traffic

inductive Event where
  /-- A turn of `_traffic_loop`, with the answer of `net_io_counters`. -/
  | reading (counters : Counters)
  /-- `_flush_traffic`, and whether the row gets into the table. -/
  | persist (stored : Bool)

/-- The row that `_flush_traffic` makes: `int(down * 1024 * 5)` of a rate in tenths. -/
def row (s : Traffic) : Row where
  speed := s.down_kbps + s.up_kbps
  bytes_in := s.total_down
  bytes_out := s.total_up
  bytes_in_delta := s.down_kbps * 1024 * 5 / 10
  bytes_out_delta := s.up_kbps * 1024 * 5 / 10

def step [Lower] (s : Traffic) : Event → Traffic
  | .reading counters =>
      let cur := taken counters
      let (total_up, total_down) := totals s.last cur
      { s with
        last := cur
        down_kbps := kbps total_down
        up_kbps := kbps total_up
        total_down := s.total_down + total_down
        total_up := s.total_up + total_up
        pending_down := s.pending_down + total_down
        pending_up := s.pending_up + total_up }
  | .persist stored =>
      if (s.down_kbps ≠ 0 ∨ s.up_kbps ≠ 0) ∧ stored then
        { s with
          rows := s.rows ++ [s.row]
          pending_down := 0
          pending_up := 0 }
      else s

def machine [Lower] : Machine Traffic Event := ⟨fun s e => some (s.step e)⟩

def start : Traffic := ⟨[], 0, 0, 0, 0, [], 0, 0⟩

/-! ## §3 Conservation -/

def sumDown (rows : List Row) : Nat := (rows.map Row.bytes_in_delta).sum

def sumUp (rows : List Row) : Nat := (rows.map Row.bytes_out_delta).sum

/-- Rows and pending bytes are what was counted, in both directions. -/
structure Conserved (s : Traffic) : Prop where
  down : sumDown s.rows + s.pending_down = s.total_down
  up : sumUp s.rows + s.pending_up = s.total_up

/-- A row that is written finds 512 bytes pending for each tenth of the last rate. -/
def Even (s : Traffic) : Event → Prop
  | .reading _ => True
  | .persist stored => (s.down_kbps ≠ 0 ∨ s.up_kbps ≠ 0) ∧ stored = true →
      s.pending_down = 512 * s.down_kbps ∧ s.pending_up = 512 * s.up_kbps

section Steps

variable {s : Traffic}

theorem sumDown_row (s : Traffic) : sumDown (s.rows ++ [s.row]) = sumDown s.rows + 512 * s.down_kbps := by
  rw [sumDown, List.map_append, List.sum_append, List.map_singleton, List.sum_singleton]
  show _ + s.down_kbps * 1024 * 5 / 10 = _
  rw [show s.down_kbps * 1024 * 5 / 10 = 512 * s.down_kbps by omega]
  rfl

theorem sumUp_row (s : Traffic) : sumUp (s.rows ++ [s.row]) = sumUp s.rows + 512 * s.up_kbps := by
  rw [sumUp, List.map_append, List.sum_append, List.map_singleton, List.sum_singleton]
  show _ + s.up_kbps * 1024 * 5 / 10 = _
  rw [show s.up_kbps * 1024 * 5 / 10 = 512 * s.up_kbps by omega]
  rfl

/-- A row keeps the sums right exactly when it has what is pending. -/
theorem conserved_row_iff (h : Conserved s) :
    Conserved { s with
      rows := s.rows ++ [s.row]
      pending_down := 0
      pending_up := 0 } ↔
      s.pending_down = 512 * s.down_kbps ∧ s.pending_up = 512 * s.up_kbps := by
  have hdown := h.down
  have hup := h.up
  constructor
  · intro h'
    have hdown' : sumDown (s.rows ++ [s.row]) + 0 = s.total_down := h'.down
    have hup' : sumUp (s.rows ++ [s.row]) + 0 = s.total_up := h'.up
    rw [sumDown_row] at hdown'
    rw [sumUp_row] at hup'
    omega
  · rintro ⟨hd, hu⟩
    refine ⟨?_, ?_⟩
    · show sumDown (s.rows ++ [s.row]) + 0 = s.total_down
      rw [sumDown_row]
      omega
    · show sumUp (s.rows ++ [s.row]) + 0 = s.total_up
      rw [sumUp_row]
      omega

variable [Lower]

/-- **Step.** A reading keeps the sums; a row does so exactly when it is even. -/
theorem conserved_step_iff (h : Conserved s) (e : Event) : Conserved (s.step e) ↔ Even s e := by
  cases e with
  | reading counters =>
      refine iff_of_true ⟨?_, ?_⟩ trivial
      · show sumDown s.rows + (s.pending_down + _) = s.total_down + _
        rw [← Nat.add_assoc, h.down]
      · show sumUp s.rows + (s.pending_up + _) = s.total_up + _
        rw [← Nat.add_assoc, h.up]
  | persist stored =>
      rw [step, Even]
      split
      · rename_i hwritten
        rw [conserved_row_iff h]
        exact ⟨fun heven _ => heven, fun heven => heven hwritten⟩
      · rename_i hskipped
        exact iff_of_true h fun hwritten => absurd hwritten hskipped

end Steps

/-! ## §4 Runs -/

section Runs

variable [Lower]

theorem run_isSome (s : Traffic) (es : List Event) : ∃ t, machine.run s es = some t := by
  induction es generalizing s with
  | nil => exact ⟨s, rfl⟩
  | cons e es ih => exact ih (s.step e)

/-- **Exactly** the runs all of whose rows are even conserve the traffic. -/
theorem traffic_conserved_iff (es : List Event) :
    machine.Always Conserved start es ↔ machine.Guarded Even start es := by
  obtain ⟨t, hrun⟩ := run_isSome start es
  have hstart : Conserved start := ⟨rfl, rfl⟩
  refine Machine.always_iff_guarded (fun _ h => h) (fun s e s' h hok hs => ?_)
    (fun s e s' h hno hs => ?_) hstart hrun
  · rw [← Option.some.inj hs]
    exact (conserved_step_iff h e).mpr hok
  · rw [← Option.some.inj hs]
    exact fun h' => hno ((conserved_step_iff h e).mp h')

end Runs

attribute [local instance] NetPulse.Server.asciiLower

/-- Two readings of 1024 bytes between two rows, of which the row has five. -/
theorem burst_not_conserved :
    ¬ ∀ es : List Event, machine.Always Conserved start es := by
  intro h
  have hend := Machine.Always.last
    (h [.reading [("eth0", 1, 1)], .reading [("eth0", 1, 1025)], .reading [("eth0", 1, 2049)],
      .persist true]) rfl
  exact absurd hend.down (by decide +kernel)

end Traffic

end NetPulse.Monitor
