import NetPulse.Lib.Timeline
import NetPulse.Monitor.Sla

/-
# NetPulse.Monitor.Availability — what `availability` adds up (`sysadmin.py`)

The reference is a step function: at any time the state is that of the last event at or before it,
and unknown before the first. `measured` says that the durations that `availability` rounds are the
measures of the three states over the window, and that the order of the events does not matter. The
one difference is a window of less than a second, which counts as a second: what it lacks is unknown
time (`short_window`).
-/

namespace NetPulse.Monitor

open MeasureTheory NetPulse.Lib.Timeline

/-! ## §1 Before rounding -/

/-- The seconds of `availability` before they are rounded. -/
structure Durations where
  up : Rat
  down : Rat
  unknown : Rat

/-- `window` -/
def window (start stop : Time) : Rat := max (stop - start) 1

/-- The result of `availability` for these seconds. -/
def Durations.estimate (d : Durations) (start stop : Time) : Estimate :=
  let observed := if d.up + d.down = 0 then none
    else some (roundAt 3 (100 * d.up / (d.up + d.down)))
  let coverage := min 100 (roundAt 2 (100 * (d.up + d.down) / window start stop))
  { sla_pct := if 95 ≤ coverage then observed else none
    observed_pct := observed
    coverage_pct := coverage
    up_seconds := round d.up
    down_seconds := round d.down
    unknown_seconds := round d.unknown }

section

-- `datetime.fromisoformat(...).timestamp()`; `none` when it raises.
variable (parse : String → Option Time)

def durations (events : List EventRow) (start stop : Time) : Durations :=
  let l := account start stop (transitionsOf parse stop events)
  ⟨l.up, l.down, max 0 (window start stop - (l.up + l.down))⟩

theorem availability_eq (events : List EventRow) (start stop : Time) :
    availability parse events start stop =
      (durations parse events start stop).estimate start stop := rfl

/-- The events of the four kinds whose time can be read: when, and whether the host is up then. -/
def transition (event : EventRow) : Option (Time × Bool) :=
  match parse event.timestamp with
  | some time =>
      if event.kind ∈ ONLINE_KINDS ++ OFFLINE_KINDS then
        some (time, decide (event.kind ∈ ONLINE_KINDS))
      else none
  | none => none

/-- A transition on the real line. -/
def onLine : Time × Bool → ℝ × Bool := Prod.map (fun time : Time => (time : ℝ)) id

/-- The changes of the reference, in the order of the events. -/
noncomputable def changes (events : List EventRow) : List (ℝ × Bool) :=
  (events.filterMap (transition parse)).map onLine

/-! ## §2 The reference -/

/-- The durations are the measures of the states, and a window of less than a second is filled up to
one with unknown time. -/
structure Measured (changes : List (ℝ × Bool)) (start stop : Time) (d : Durations) : Prop where
  up : volume (timesIn changes true start stop) = ENNReal.ofReal d.up
  down : volume (timesIn changes false start stop) = ENNReal.ofReal d.down
  unknown : volume (timesBefore changes start stop) +
    ENNReal.ofReal (window start stop - (stop - start) : Rat) = ENNReal.ofReal d.unknown
  up_nonneg : 0 ≤ d.up
  down_nonneg : 0 ≤ d.down
  unknown_nonneg : 0 ≤ d.unknown
  sum : d.up + d.down + d.unknown = window start stop

variable {parse} {start stop : Time} {events events' : List EventRow}
  {transitions : List (Time × Bool)}

/-- The list of `availability`: up to the end, and by time. -/
theorem transitionsOf_eq (stop : Time) (events : List EventRow) :
    transitionsOf parse stop events =
      ((events.filterMap (transition parse)).filter fun t => decide (t.1 ≤ stop)).mergeSort
        fun s t => decide (s.1 ≤ t.1) := by
  rw [transitionsOf, List.filter_filterMap]
  congr 2
  funext event
  rw [transition]
  rcases parse event.timestamp with _ | time
  · rfl
  · show (if event.kind ∈ _ ∧ time ≤ stop then _ else _) =
      Option.filter _ (if event.kind ∈ _ then _ else _)
    by_cases hkind : event.kind ∈ ONLINE_KINDS ++ OFFLINE_KINDS
    · rw [if_pos hkind, Option.filter_some]
      by_cases htime : time ≤ stop
      · rw [if_pos ⟨hkind, htime⟩, if_pos (decide_eq_true htime)]
      · rw [if_neg fun h => htime h.2, if_neg fun h => htime (of_decide_eq_true h)]
    · rw [if_neg fun h => hkind h.1, if_neg hkind]
      rfl

theorem mem_transitionsOf {t : Time × Bool} :
    t ∈ transitionsOf parse stop events ↔
      t ∈ events.filterMap (transition parse) ∧ t.1 ≤ stop := by
  rw [transitionsOf_eq, List.mem_mergeSort, List.mem_filter, decide_eq_true_iff]

theorem pairwise_transitionsOf :
    (transitionsOf parse stop events).Pairwise fun s t => s.1 ≤ t.1 := by
  rw [transitionsOf_eq]
  refine (List.pairwise_mergeSort ?_ ?_ _).imp fun h => of_decide_eq_true h
  · intro a b c hab hbc
    exact decide_eq_true ((of_decide_eq_true hab).trans (of_decide_eq_true hbc))
  · intro a b
    simpa using le_total a.1 b.1

theorem nodup_transitionsOf (stop : Time)
    (hdistinct : ((events.filterMap (transition parse)).map Prod.fst).Nodup) :
    ((transitionsOf parse stop events).map Prod.fst).Nodup := by
  rw [transitionsOf_eq, ((List.mergeSort_perm _ _).map Prod.fst).nodup_iff]
  exact hdistinct.sublist (List.filter_sublist.map Prod.fst)

/-- With distinct times, the order of the events does not matter. -/
theorem transitionsOf_perm (hperm : events'.Perm events)
    (hdistinct : ((events.filterMap (transition parse)).map Prod.fst).Nodup) :
    transitionsOf parse stop events' = transitionsOf parse stop events := by
  have hsame : (transitionsOf parse stop events').Perm (transitionsOf parse stop events) := by
    rw [transitionsOf_eq, transitionsOf_eq]
    exact (List.mergeSort_perm _ _).trans
      (((hperm.filterMap _).filter _).trans (List.mergeSort_perm _ _).symm)
  refine hsame.eq_of_pairwise (fun s t hs ht hst hts => ?_) pairwise_transitionsOf
    pairwise_transitionsOf
  exact List.inj_on_of_nodup_map (nodup_transitionsOf stop hdistinct) (hsame.subset hs) ht
    (le_antisymm hst hts)

theorem sorted_transitionsOf
    (hdistinct : ((events.filterMap (transition parse)).map Prod.fst).Nodup) :
    Sorted ((transitionsOf parse stop events).map onLine) (stop : ℝ) := by
  have hne := List.pairwise_map.mp (nodup_transitionsOf stop hdistinct)
  refine ⟨List.pairwise_map.mpr ?_, ?_⟩
  · refine (pairwise_transitionsOf.and hne).imp fun h => ?_
    exact Rat.cast_lt.mpr (lt_of_le_of_ne h.1 h.2)
  · intro c hc
    obtain ⟨t, ht, rfl⟩ := List.mem_map.mp hc
    exact Rat.cast_le.mpr (mem_transitionsOf.mp ht).2

/-! ## §3 The loop -/

/-- Up and down exchanged. -/
def Loop.flip (l : Loop) : Loop := ⟨l.cursor, l.state.map not, l.down, l.up⟩

theorem visit_flip (l : Loop) (t : Time × Option Bool) :
    visit start l.flip (Prod.map id (Option.map not) t) = (visit start l t).flip := by
  obtain ⟨at_, state⟩ := t
  obtain ⟨cursor, before, up, down⟩ := l
  by_cases hearly : at_ < start
  · simp [visit, Loop.flip, hearly]
  · rcases before with _ | _ | _
    · simp [visit, Loop.flip, hearly]
    · simp [visit, Loop.flip, hearly]
    · simp [visit, Loop.flip, hearly]

/-- The loop makes no difference between the two states. -/
theorem account_flip :
    account start stop (transitions.map (Prod.map id not)) =
      (account start stop transitions).flip := by
  have hlist : (transitions.map (Prod.map id not)).map known ++ [(stop, none)] =
      (transitions.map known ++ [(stop, none)]).map (Prod.map id (Option.map not)) := by
    simp [known, Function.comp_def]
  rw [account, hlist, List.foldl_map]
  show List.foldl (fun l t => visit start l (Prod.map id (Option.map not) t))
    (Loop.flip ⟨start, none, 0, 0⟩) _ = Loop.flip (List.foldl (visit start) _ _)
  exact List.foldl_hom Loop.flip visit_flip

/-- The sum of the clipped intervals, on the real line. -/
theorem cast_downtime (start stop : Time) (transitions : List (Time × Bool)) :
    (downtime start stop transitions : ℝ) =
      timeIn (start : ℝ) stop false (transitions.map onLine) := by
  induction transitions with
  | nil => exact Rat.cast_zero
  | cons first rest ih =>
      obtain ⟨since, online⟩ := first
      have htil : ∀ til : Time, (clipped start stop since til : ℝ) =
          overlap (start : ℝ) stop since til := by
        intro til
        simp [clipped, overlap]
      rw [List.map_cons, timeIn, ← ih]
      rcases rest with _ | ⟨next, rest⟩
      · rcases online with _ | _
        · simp [downtime, onLine, firstTime, htil]
        · simp [downtime, onLine]
      · rcases online with _ | _
        · simp [downtime, onLine, firstTime, htil]
        · simp [downtime, onLine]

/-- What the loop adds up as down is the time in that state. -/
theorem account_down (hwindow : start ≤ stop) :
    ((account start stop (transitionsOf parse stop events)).down : ℝ) =
      timeIn (start : ℝ) stop false ((transitionsOf parse stop events).map onLine) := by
  rw [availability_down hwindow pairwise_transitionsOf fun t ht => (mem_transitionsOf.mp ht).2,
    cast_downtime]

/-- By symmetry, so it is with up. -/
theorem account_up (hwindow : start ≤ stop) :
    ((account start stop (transitionsOf parse stop events)).up : ℝ) =
      timeIn (start : ℝ) stop true ((transitionsOf parse stop events).map onLine) := by
  have hflip : (account start stop (transitionsOf parse stop events)).up =
      (account start stop ((transitionsOf parse stop events).map (Prod.map id not))).down := by
    rw [account_flip]
    rfl
  have hsorted : ((transitionsOf parse stop events).map (Prod.map id not)).Pairwise
      fun s t => s.1 ≤ t.1 := List.pairwise_map.mpr pairwise_transitionsOf
  have hstop : ∀ t ∈ (transitionsOf parse stop events).map (Prod.map id not), t.1 ≤ stop := by
    intro flipped hflipped
    obtain ⟨t, ht, rfl⟩ := List.mem_map.mp hflipped
    exact (mem_transitionsOf.mp ht).2
  have hmap : ((transitionsOf parse stop events).map (Prod.map id not)).map onLine =
      ((transitionsOf parse stop events).map onLine).map (Prod.map id not) := by
    simp [onLine, Function.comp_def]
  rw [hflip, availability_down hwindow hsorted hstop, cast_downtime, hmap]
  exact timeIn_map (s := true) Bool.involutive_not.injective _

/-! ## §4 The two agree -/

/-- What happens after the end of the window is not looked at, and does not matter. -/
theorem mem_changes {c : ℝ × Bool} (hc : c.1 < (stop : ℝ)) :
    c ∈ changes parse events ↔ c ∈ (transitionsOf parse stop events).map onLine := by
  rw [changes, List.mem_map, List.mem_map]
  constructor
  · rintro ⟨t, ht, rfl⟩
    exact ⟨t, mem_transitionsOf.mpr ⟨ht, (Rat.cast_lt.mp hc).le⟩, rfl⟩
  · rintro ⟨t, ht, rfl⟩
    exact ⟨t, (mem_transitionsOf.mp ht).1, rfl⟩

/-- What is known of the window begins with the first transition. -/
theorem account_known (hwindow : start ≤ stop)
    (hdistinct : ((events.filterMap (transition parse)).map Prod.fst).Nodup) :
    ((account start stop (transitionsOf parse stop events)).up : ℝ) +
        (account start stop (transitionsOf parse stop events)).down =
      stop - max (start : ℝ)
        (firstTime (stop : ℝ) ((transitionsOf parse stop events).map onLine)) := by
  rw [account_up hwindow, account_down hwindow,
    ← sum_timeIn (Rat.cast_le.mpr hwindow) (sorted_transitionsOf hdistinct), Fintype.sum_bool]

/-- **The durations are the measures of the states of the step function**, but for a window of less
than a second, and the order of the events does not matter. -/
theorem measured (parse : String → Option Time) (events : List EventRow) (start stop : Time)
    (hwindow : start < stop)
    (hdistinct : ((events.filterMap (transition parse)).map Prod.fst).Nodup) :
    Measured (changes parse events) start stop (durations parse events start stop) ∧
      ∀ events', events'.Perm events →
        availability parse events' start stop = availability parse events start stop := by
  have hsorted : Sorted ((transitionsOf parse stop events).map onLine) (stop : ℝ) :=
    sorted_transitionsOf hdistinct
  have hknown := account_known hwindow.le hdistinct
  obtain ⟨l, hl⟩ : ∃ l, l = account start stop (transitionsOf parse stop events) := ⟨_, rfl⟩
  have hup : (l.up : ℝ) = _ := hl ▸ account_up hwindow.le
  have hdown : (l.down : ℝ) = _ := hl ▸ account_down hwindow.le
  rw [← hl] at hknown
  have hfirst := le_max_left (start : ℝ)
    (firstTime (stop : ℝ) ((transitionsOf parse stop events).map onLine))
  have hrest : l.up + l.down ≤ stop - start := by
    have hreal : ((l.up + l.down : Rat) : ℝ) ≤ ((stop - start : Rat) : ℝ) := by
      push_cast
      linarith
    exact Rat.cast_le.mp hreal
  -- what is known is not longer than the window, so nothing is cut off at zero
  have hseconds : stop - start ≤ window start stop := le_max_left _ _
  have hunknown : durations parse events start stop =
      ⟨l.up, l.down, window start stop - (l.up + l.down)⟩ := by
    rw [durations, ← hl]
    congr
    exact max_eq_right (by linarith)
  rw [hunknown]
  refine ⟨⟨?_, ?_, ?_, ?_, ?_, ?_, ?_⟩, fun events' hperm => ?_⟩
  · rw [timesIn_congr fun c => mem_changes, volume_timesIn hsorted, hup]
  · rw [timesIn_congr fun c => mem_changes, volume_timesIn hsorted, hdown]
  · rw [timesBefore_congr fun c => mem_changes, volume_timesBefore hsorted]
    have hlacks : (0 : ℝ) ≤ (window start stop - (stop - start) : Rat) :=
      Rat.cast_nonneg.mpr (sub_nonneg.mpr hseconds)
    rcases le_total (firstTime (stop : ℝ) ((transitionsOf parse stop events).map onLine)) start
      with h | h
    · -- the state is known from the start on
      rw [max_eq_left h] at hknown
      rw [ENNReal.ofReal_of_nonpos (sub_nonpos.mpr h), zero_add]
      congr 1
      push_cast
      linarith
    · -- it becomes known with the first transition
      rw [max_eq_right h] at hknown
      rw [← ENNReal.ofReal_add (sub_nonneg.mpr h) hlacks]
      congr 1
      push_cast
      linarith
  · have hreal : (0 : ℝ) ≤ l.up := hup ▸ timeIn_nonneg _ _ _ _
    exact_mod_cast hreal
  · have hreal : (0 : ℝ) ≤ l.down := hdown ▸ timeIn_nonneg _ _ _ _
    exact_mod_cast hreal
  · show 0 ≤ window start stop - (l.up + l.down)
    linarith
  · show l.up + l.down + (window start stop - (l.up + l.down)) = window start stop
    ring
  · -- the transitions are sorted, and with distinct times in one way only
    rw [availability, availability, transitionsOf_perm hperm hdistinct]

end

/-! ## §5 A short window -/

/-- **A window of half a second counts as a second**, all of it unknown. -/
theorem short_window :
    (durations (fun _ => none) [] 0 (1 / 2)).unknown = 1 ∧
      volume (timesBefore (changes (fun _ => none) []) (0 : Time) ((1 / 2 : Time) : ℝ)) =
        ENNReal.ofReal (1 / 2) ∧
      (durations (fun _ => none) [] 0 (1 / 2)).up + (durations (fun _ => none) [] 0 (1 / 2)).down +
        (durations (fun _ => none) [] 0 (1 / 2)).unknown ≠ 1 / 2 - 0 := by
  refine ⟨by decide +kernel, ?_, by decide +kernel⟩
  have hset : timesBefore (changes (fun _ => none) []) (0 : Time) ((1 / 2 : Time) : ℝ) =
      Set.Ico ((0 : Time) : ℝ) ((1 / 2 : Time) : ℝ) := by
    ext t
    simp [timesBefore, changes, Unchanged]
  rw [hset, Real.volume_Ico]
  norm_num

/-- Offline at 40 and online at 10, with the later first. -/
def outage : List EventRow :=
  [⟨"40", 1, "OFFLINE", "HIGH", "watchdog", "", ""⟩, ⟨"10", 1, "ONLINE", "LOW", "watchdog", "", ""⟩]

def seconds (s : String) : Option Time :=
  if s = "10" then some 10 else if s = "40" then some 40 else none

theorem measured_outage :
    Measured (changes seconds outage) 0 100 (durations seconds outage 0 100) ∧
      ∀ events', events'.Perm outage →
        availability seconds events' 0 100 = availability seconds outage 0 100 :=
  measured seconds outage 0 100 (by decide +kernel) (by decide +kernel)

end NetPulse.Monitor
