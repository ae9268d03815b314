import Mathlib.Algebra.Order.Field.Rat
import Mathlib.Data.List.Basic
import NetPulse.Lib.Machine

/-
# NetPulse.Core.Sniffer — the traffic that the sniffer counts and hands over (`sniffer.py`)

Packets are counted in either direction. Now and then what was counted since the last time is handed
to a callback: under the lock by `_record_traffic`, and without it by `stop` and at the end of the
program. A counter that is beyond its limit starts again from zero.

`deltas_conserved`: whatever is recorded is handed over, on its way to the callback, lost in a
callback that raised, or not asked for yet; each byte in one of the four.

Left out are the packets by address and their number, which no delta is made of.
-/

namespace NetPulse.Core.Sniffer

open NetPulse.Lib

/-! ## §1 The counters -/

inductive Direction where
  | inward
  | outward
  deriving DecidableEq

/-- `bytes_in` with `_last_saved_bytes_in`, or those of the other direction. -/
structure Counter where
  bytes : Int
  last_saved : Int

def LIMIT : Int := 10 ^ 12

/-- `deque(maxlen=300)` -/
def MAX_HISTORY : Nat := 300

namespace Counter

def add (c : Counter) (size : Nat) : Counter := { c with bytes := c.bytes + size }

/-- `max(0, bytes - last_saved)` -/
def delta (c : Counter) : Int := max 0 (c.bytes - c.last_saved)

/-- The counter after its delta was taken. -/
def saved (c : Counter) : Counter := if c.bytes > LIMIT then ⟨0, 0⟩ else ⟨c.bytes, c.bytes⟩

end Counter

/-- What the callback gets. -/
structure Args where
  speed : Rat
  total : Direction → Int
  delta : Direction → Int

/-- A call of `_save_traffic_to_db` that has not returned. -/
inductive Save where
  /-- Behind `get_speed`, before the lock is taken again. -/
  | measured (speed : Rat)
  /-- At the callback. With a time, `_record_traffic` called at that time and has the lock. -/
  | computed (args : Args) (within : Option Rat)

def Save.delta (d : Direction) : Save → Int
  | .measured _ => 0
  | .computed args _ => args.delta d

def Save.holds : Save → Bool
  | .measured _ => false
  | .computed _ within => within.isSome

structure State where
  counter : Direction → Counter
  total_mb : Rat
  speed_history : List (Rat × Nat)
  max_speed : Rat
  last_db_save : Rat
  /-- `_db_callback` is set. -/
  callback : Bool
  saves : List Save
  /-- What callbacks got and returned from. -/
  handed : List Args
  /-- What callbacks got that raised. -/
  lost : List Args

/-- `__init__` -/
def State.initial : State :=
  ⟨fun _ => ⟨0, 0⟩, 0, [], 0, 0, false, [], [], []⟩

/-! ## §2 Steps -/

namespace State

/-- Another thread that wants the lock has to wait. -/
def locked (s : State) : Bool := s.saves.any Save.holds

/-- The counters and the history in `_record_traffic`. -/
def add (s : State) (size : Direction → Nat) (now : Rat) : State :=
  let both := size .inward + size .outward
  let history := s.speed_history ++ [(now, both)]
  { s with
    counter := fun d => (s.counter d).add (size d)
    total_mb := s.total_mb + (both : Rat) / 1024 / 1024
    speed_history :=
      (history.drop (history.length - MAX_HISTORY)).dropWhile fun e => e.1 ≤ now - 1 }

/-- `get_speed` -/
def speed (s : State) (now : Rat) : Rat :=
  let recent := (s.speed_history.filter fun e => e.1 > now - 1).map Prod.snd
  if recent = [] then 0 else recent.sum / 1024

def measure (s : State) (now : Rat) : State := { s with max_speed := max s.max_speed (s.speed now) }

/-- The deltas, the saved values and the limit, under the lock. -/
def compute (s : State) (speed : Rat) : Args × State :=
  (⟨speed, fun d => (s.counter d).saved.bytes, fun d => (s.counter d).delta⟩,
    { s with counter := fun d => (s.counter d).saved })

end State

inductive Event where
  | setCallback (callback : Bool)
  /-- `_record_traffic`, with the time it is called with and the time that `get_speed` reads. -/
  | record (size : Direction → Nat) (now measured : Rat)
  /-- `get_speed` on behalf of the window. -/
  | look (now : Rat)
  /-- `_save_traffic_to_db` from outside, up to its own lock. -/
  | startSave (now : Rat)
  /-- The same call, at the end of its lock. -/
  | compute (i : Nat)
  /-- A callback ends. -/
  | handOver (i : Nat) (raises : Bool)

def step (s : State) : Event → Option State
  | .setCallback callback => some { s with callback }
  | .record size now measured =>
      if s.locked then none
      else
        let s := s.add size now
        if now - s.last_db_save > 5 then
          if s.callback then
            let save := (s.measure measured).compute (s.speed measured)
            some { save.2 with saves := s.saves ++ [.computed save.1 (some now)] }
          else some { s with last_db_save := now }
        else some s
  | .look now => if s.locked then none else some (s.measure now)
  | .startSave now =>
      if s.locked then none
      else if s.callback then
        some { s.measure now with saves := s.saves ++ [.measured (s.speed now)] }
      else some s
  | .compute i =>
      if s.locked then none
      else
        match s.saves[i]? with
        | some (.measured speed) =>
            let save := s.compute speed
            some { save.2 with saves := s.saves.set i (.computed save.1 none) }
        | _ => none
  | .handOver i raises =>
      match s.saves[i]? with
      | some (.computed args within) =>
          some { s with
            saves := s.saves.eraseIdx i
            last_db_save := within.getD s.last_db_save
            handed := if raises then s.handed else s.handed ++ [args]
            lost := if raises then s.lost ++ [args] else s.lost }
      | _ => none

def sniffer : Machine State Event := ⟨step⟩

/-! ## §3 What is in the books -/

/-- What an event adds to the traffic. -/
def Event.size (d : Direction) : Event → Int
  | .record size _ _ => size d
  | _ => 0

/-- A callback that raises. -/
def Event.Raises : Event → Prop
  | .handOver _ raises => raises = true
  | _ => False

/-- The traffic of a run. -/
def recorded (d : Direction) (es : List Event) : Int := (es.map (Event.size d)).sum

def deltas (d : Direction) (calls : List Args) : Int := (calls.map fun a => a.delta d).sum

/-- On its way to a callback. -/
def State.inFlight (s : State) (d : Direction) : Int := (s.saves.map (Save.delta d)).sum

/-- Not asked for yet. -/
def State.open (s : State) (d : Direction) : Int := (s.counter d).bytes - (s.counter d).last_saved

/-- All there is in one direction. -/
def State.total (s : State) (d : Direction) : Int :=
  deltas d s.handed + deltas d s.lost + s.inFlight d + s.open d

/-- What was saved was counted. -/
def Counter.Sound (c : Counter) : Prop := 0 ≤ c.last_saved ∧ c.last_saved ≤ c.bytes

def State.Sound (s : State) : Prop := ∀ d, (s.counter d).Sound

theorem Counter.Sound.add {c : Counter} (h : c.Sound) (size : Nat) : (c.add size).Sound := by
  obtain ⟨h₀, h₁⟩ := h
  exact ⟨h₀, by show c.last_saved ≤ c.bytes + size; omega⟩

theorem Counter.Sound.saved {c : Counter} (h : c.Sound) : c.saved.Sound := by
  obtain ⟨h₀, h₁⟩ := h
  unfold Counter.saved
  split
  · exact ⟨le_rfl, le_rfl⟩
  · exact ⟨h₀.trans h₁, le_rfl⟩

theorem Counter.Sound.delta {c : Counter} (h : c.Sound) : c.delta = c.bytes - c.last_saved := by
  obtain ⟨-, h₁⟩ := h
  unfold Counter.delta
  omega

/-- With or without the limit, nothing is open behind a delta. -/
theorem Counter.saved_open (c : Counter) : c.saved.bytes - c.saved.last_saved = 0 := by
  unfold Counter.saved
  split
  · rfl
  · exact sub_self _

theorem deltas_append (d : Direction) (calls : List Args) (a : Args) :
    deltas d (calls ++ [a]) = deltas d calls + a.delta d := by
  simp [deltas]

/-- A list around one of its members. -/
theorem split_at {α : Type*} {l : List α} {i : Nat} {x : α} (h : l[i]? = some x) :
    ∃ front back, l = front ++ x :: back ∧ (∀ y, l.set i y = front ++ y :: back) ∧
      l.eraseIdx i = front ++ back := by
  obtain ⟨hi, hx⟩ := List.getElem?_eq_some_iff.mp h
  refine ⟨l.take i, l.drop (i + 1), ?_, fun y => ?_, List.eraseIdx_eq_take_drop_succ l i⟩
  · rw [← hx, List.getElem_cons_drop, List.take_append_drop]
  · rw [List.set_eq_take_append_cons_drop, if_pos hi]

/-! ## §4 One step -/

variable {s t : State} {d : Direction}

/-- What a delta takes from a counter is what was open. -/
theorem Counter.Sound.moved {c : Counter} (h : c.Sound) :
    c.delta + (c.saved.bytes - c.saved.last_saved) = c.bytes - c.last_saved := by
  rw [h.delta, Counter.saved_open, add_zero]

theorem State.Sound.add (hs : s.Sound) (size : Direction → Nat) (now : Rat) : (s.add size now).Sound :=
  fun d => (hs d).add (size d)

theorem State.Sound.compute (hs : s.Sound) (speed : Rat) : (s.compute speed).2.Sound :=
  fun d => (hs d).saved

/-- What leaves the counters is under way, with what is recorded. -/
theorem total_of_moves {n : Int} (hhanded : t.handed = s.handed) (hlost : t.lost = s.lost)
    (h : t.inFlight d + t.open d = s.inFlight d + s.open d + n) : t.total d = s.total d + n := by
  rw [State.total, State.total, hhanded, hlost]
  omega

/-- A step keeps the books: what is saved was counted, and the total changes by what is recorded. -/
def Kept (s : State) (e : Event) (t : State) : Prop :=
  t.Sound ∧ ∀ d, t.total d = s.total d + e.size d

theorem kept_record (hs : s.Sound) {size : Direction → Nat} {now measured : Rat}
    (h : step s (.record size now measured) = some t) : Kept s (.record size now measured) t := by
  have hadd := hs.add size now
  unfold step at h
  dsimp only at h
  split at h
  · exact absurd h nofun
  split at h
  · split at h
    · obtain rfl := Option.some.inj h
      refine ⟨fun d => (hadd d).saved, fun d => total_of_moves rfl rfl ?_⟩
      have hmoved := (hadd d).moved
      simp only [State.add, Counter.add] at hmoved
      simp only [State.inFlight, State.open, State.compute, State.measure, State.add, Counter.add,
        List.map_append, List.map_cons, List.map_nil, List.sum_append, List.sum_cons,
        List.sum_nil, Save.delta, Event.size]
      omega
    · obtain rfl := Option.some.inj h
      refine ⟨fun d => hadd d, fun d => total_of_moves rfl rfl ?_⟩
      simp only [State.inFlight, State.open, State.add, Counter.add, Event.size]
      omega
  · obtain rfl := Option.some.inj h
    refine ⟨hadd, fun d => total_of_moves rfl rfl ?_⟩
    simp only [State.inFlight, State.open, State.add, Counter.add, Event.size]
    omega

theorem kept_startSave (hs : s.Sound) {now : Rat} (h : step s (.startSave now) = some t) :
    Kept s (.startSave now) t := by
  unfold step at h
  dsimp only at h
  split at h
  · exact absurd h nofun
  split at h
  · obtain rfl := Option.some.inj h
    refine ⟨fun d => hs d, fun d => total_of_moves rfl rfl ?_⟩
    show ((s.saves ++ [_]).map (Save.delta d)).sum + s.open d = s.inFlight d + s.open d + 0
    simp [State.inFlight, Save.delta]
  · obtain rfl := Option.some.inj h
    exact ⟨hs, fun d => (add_zero _).symm⟩

theorem kept_compute (hs : s.Sound) {i : Nat} (h : step s (.compute i) = some t) :
    Kept s (.compute i) t := by
  unfold step at h
  dsimp only at h
  split at h
  · exact absurd h nofun
  split at h
  · next speed hsave =>
    obtain rfl := Option.some.inj h
    obtain ⟨front, back, hsaves, hset, -⟩ := split_at hsave
    refine ⟨fun d => (hs d).saved, fun d => total_of_moves rfl rfl ?_⟩
    have hmoved := (hs d).moved
    simp only [State.inFlight, State.open, State.compute, hset, Event.size]
    rw [hsaves]
    simp only [List.map_append, List.map_cons, List.sum_append, List.sum_cons, Save.delta]
    omega
  · exact absurd h nofun

theorem kept_handOver (hs : s.Sound) {i : Nat} {raises : Bool}
    (h : step s (.handOver i raises) = some t) : Kept s (.handOver i raises) t := by
  unfold step at h
  dsimp only at h
  split at h
  · next args within hsave =>
    obtain rfl := Option.some.inj h
    obtain ⟨front, back, hsaves, -, herase⟩ := split_at hsave
    refine ⟨hs, fun d => ?_⟩
    have hflight : s.inFlight d = ((front ++ back).map (Save.delta d)).sum + args.delta d := by
      rw [State.inFlight, hsaves]
      simp only [List.map_append, List.map_cons, List.sum_append, List.sum_cons, Save.delta]
      omega
    show deltas d _ + deltas d _ + ((s.saves.eraseIdx i).map (Save.delta d)).sum + s.open d
      = s.total d + 0
    rw [herase, State.total, hflight]
    cases raises with
    | true =>
        simp only [if_true, deltas_append]
        omega
    | false =>
        simp only [Bool.false_eq_true, if_false, deltas_append]
        omega
  · exact absurd h nofun

/-- Every step keeps the books. -/
theorem kept_step (hs : s.Sound) {e : Event} (h : sniffer.step s e = some t) : Kept s e t := by
  cases e with
  | setCallback callback =>
      obtain rfl := Option.some.inj h
      exact ⟨hs, fun d => (add_zero _).symm⟩
  | record size now measured => exact kept_record hs h
  | look now =>
      change step s (.look now) = some t at h
      unfold step at h
      dsimp only at h
      split at h
      · exact absurd h nofun
      · obtain rfl := Option.some.inj h
        exact ⟨hs, fun d => (add_zero _).symm⟩
  | startSave now => exact kept_startSave hs h
  | compute i => exact kept_compute hs h
  | handOver i raises => exact kept_handOver hs h

/-! ## §5 Whole runs -/

theorem total_run {es : List Event} (hs : s.Sound) (h : sniffer.run s es = some t) (d : Direction) :
    t.total d = s.total d + recorded d es := by
  induction es generalizing s with
  | nil =>
      obtain rfl := Option.some.inj h
      exact (add_zero _).symm
  | cons e es ih =>
      obtain ⟨u, hu, hrun⟩ := (Machine.run_cons_eq_some _).mp h
      obtain ⟨hsound, htotal⟩ := kept_step hs hu
      rw [ih hsound hrun, htotal d, recorded, recorded, List.map_cons, List.sum_cons, add_assoc]

/-- No delta that was taken is negative. -/
def State.NoneNegative (s : State) : Prop :=
  ∀ d, (∀ a ∈ s.handed, 0 ≤ a.delta d) ∧ (∀ a ∈ s.lost, 0 ≤ a.delta d) ∧
    ∀ save ∈ s.saves, 0 ≤ save.delta d

theorem delta_nonneg (c : Counter) : 0 ≤ c.delta := le_max_left _ _

theorem compute_delta_nonneg (s : State) (speed : Rat) (d : Direction) :
    0 ≤ (s.compute speed).1.delta d := delta_nonneg _

theorem State.NoneNegative.append (hs : s.NoneNegative) {save : Save} {d : Direction}
    (hsave : 0 ≤ save.delta d) : ∀ x ∈ s.saves ++ [save], 0 ≤ x.delta d := by
  intro x hx
  rcases List.mem_append.mp hx with hx | hx
  · exact (hs d).2.2 x hx
  · rw [List.mem_singleton.mp hx]
    exact hsave

theorem State.NoneNegative.set (hs : s.NoneNegative) {save : Save} {d : Direction}
    (hsave : 0 ≤ save.delta d) (i : Nat) : ∀ x ∈ s.saves.set i save, 0 ≤ x.delta d := by
  intro x hx
  rcases List.mem_or_eq_of_mem_set hx with hx | rfl
  · exact (hs d).2.2 x hx
  · exact hsave

theorem noneNegative_step (hs : s.NoneNegative) {e : Event} (h : sniffer.step s e = some t) :
    t.NoneNegative := by
  change step s e = some t at h
  cases e with
  | setCallback callback =>
      obtain rfl := Option.some.inj h
      exact hs
  | record size now measured =>
      unfold step at h
      dsimp only at h
      split at h
      · exact absurd h nofun
      split at h
      · split at h
        · obtain rfl := Option.some.inj h
          exact fun d => ⟨(hs d).1, (hs d).2.1, hs.append (compute_delta_nonneg _ _ d)⟩
        · obtain rfl := Option.some.inj h
          exact hs
      · obtain rfl := Option.some.inj h
        exact hs
  | look now =>
      unfold step at h
      dsimp only at h
      split at h
      · exact absurd h nofun
      · obtain rfl := Option.some.inj h
        exact hs
  | startSave now =>
      unfold step at h
      dsimp only at h
      split at h
      · exact absurd h nofun
      split at h
      · obtain rfl := Option.some.inj h
        exact fun d => ⟨(hs d).1, (hs d).2.1, hs.append le_rfl⟩
      · obtain rfl := Option.some.inj h
        exact hs
  | compute i =>
      unfold step at h
      dsimp only at h
      split at h
      · exact absurd h nofun
      split at h
      · obtain rfl := Option.some.inj h
        exact fun d => ⟨(hs d).1, (hs d).2.1, hs.set
          (show 0 ≤ Save.delta d (.computed _ none) from compute_delta_nonneg s _ d) i⟩
      · exact absurd h nofun
  | handOver i raises =>
      unfold step at h
      dsimp only at h
      split at h
      · next args within hsave =>
        obtain rfl := Option.some.inj h
        intro d
        obtain ⟨hhanded, hlost, hsaves⟩ := hs d
        have hargs : 0 ≤ args.delta d := hsaves _ (List.mem_of_getElem? hsave)
        have hone : ∀ calls : List Args, (∀ a ∈ calls, 0 ≤ a.delta d) →
            ∀ a ∈ calls ++ [args], 0 ≤ a.delta d := by
          intro calls hcalls a ha
          rcases List.mem_append.mp ha with ha | ha
          · exact hcalls a ha
          · rw [List.mem_singleton.mp ha]
            exact hargs
        have hrest : ∀ save ∈ s.saves.eraseIdx i, 0 ≤ save.delta d := fun save hmem =>
          hsaves save (List.mem_of_mem_eraseIdx hmem)
        cases raises with
        | true => exact ⟨hhanded, hone _ hlost, hrest⟩
        | false => exact ⟨hone _ hhanded, hlost, hrest⟩
      · exact absurd h nofun

/-- Only a callback that raises loses anything. -/
theorem lost_step {e : Event} (he : ¬ e.Raises) (h : sniffer.step s e = some t) :
    t.lost = s.lost := by
  change step s e = some t at h
  cases e with
  | handOver i raises =>
      have hraises : raises = false := by simpa [Event.Raises] using he
      unfold step at h
      dsimp only at h
      split at h
      · obtain rfl := Option.some.inj h
        rw [hraises]
        rfl
      · exact absurd h nofun
  | setCallback callback =>
      obtain rfl := Option.some.inj h
      rfl
  | record size now measured =>
      unfold step at h
      dsimp only at h
      split_ifs at h <;> · obtain rfl := Option.some.inj h
                           rfl
  | look now =>
      unfold step at h
      dsimp only at h
      split_ifs at h
      obtain rfl := Option.some.inj h
      rfl
  | startSave now =>
      unfold step at h
      dsimp only at h
      split_ifs at h <;> · obtain rfl := Option.some.inj h
                           rfl
  | compute i =>
      unfold step at h
      dsimp only at h
      split at h
      · exact absurd h nofun
      split at h
      · obtain rfl := Option.some.inj h
        rfl
      · exact absurd h nofun

theorem lost_run {es : List Event} (he : ∀ e ∈ es, ¬ e.Raises) (h : sniffer.run s es = some t) :
    t.lost = s.lost := by
  induction es generalizing s with
  | nil =>
      obtain rfl := Option.some.inj h
      rfl
  | cons e es ih =>
      obtain ⟨u, hu, hrun⟩ := (Machine.run_cons_eq_some _).mp h
      rw [ih (fun f hf => he f (List.mem_cons_of_mem _ hf)) hrun,
        lost_step (he e List.mem_cons_self) hu]

/-- **Every byte is accounted for.** Whatever the threads do, what was handed over, what a callback
that raised got, what is on its way and what is open make up what was recorded, and no delta is
negative. If no callback raises, nothing is lost. -/
theorem deltas_conserved {es : List Event} (h : sniffer.run .initial es = some s) :
    (∀ d, deltas d s.handed + deltas d s.lost + (s.inFlight d + s.open d) = recorded d es) ∧
    ((∀ e ∈ es, ¬ e.Raises) →
      ∀ d, deltas d s.handed + (s.inFlight d + s.open d) = recorded d es) ∧
    s.NoneNegative := by
  have hinitial : State.initial.Sound := fun d => ⟨le_rfl, le_rfl⟩
  have htotal : ∀ d, deltas d s.handed + deltas d s.lost + (s.inFlight d + s.open d) =
      recorded d es := by
    intro d
    have hrun := total_run hinitial h d
    have hzero : State.initial.total d = 0 := rfl
    rw [hzero, zero_add, State.total] at hrun
    omega
  refine ⟨htotal, fun hraise d => ?_, ?_⟩
  · have hlost : s.lost = [] := lost_run hraise h
    have hall := htotal d
    rw [hlost] at hall
    have hnone : deltas d [] = 0 := rfl
    omega
  · refine Machine.invariant (fun u e v hu hv => noneNegative_step hu hv) ?_ h
    intro d
    simp [State.initial]

/-! ## §6 A counter beyond its limit -/

/-- A terabyte and more comes in and is handed over; then five bytes, while a save is under way. -/
def beyondLimit : List Event :=
  [.setCallback true, .record (fun _ => 10 ^ 12 + 1) 6 6, .handOver 0 false, .startSave 7,
    .record (fun _ => 5) 8 8, .compute 0]

theorem deltas_conserved_beyondLimit :
    ∃ s, sniffer.run .initial beyondLimit = some s ∧
      deltas .inward s.handed = 10 ^ 12 + 1 ∧ s.inFlight .inward = 5 ∧
      deltas .inward s.handed + (s.inFlight .inward + s.open .inward) = 10 ^ 12 + 6 := by
  have hrun : (sniffer.run .initial beyondLimit).any (fun s => decide
      (deltas .inward s.handed = 10 ^ 12 + 1 ∧ s.inFlight .inward = 5)) = true := by decide +kernel
  obtain ⟨s, hs, hbooks⟩ := (Option.any_eq_true _ _).mp hrun
  obtain ⟨hhanded, hflight⟩ := of_decide_eq_true hbooks
  refine ⟨s, hs, hhanded, hflight, (deltas_conserved hs).2.1 ?_ .inward⟩
  simp [beyondLimit, Event.Raises]

end NetPulse.Core.Sniffer
