import Mathlib.Algebra.Order.BigOperators.Group.List
import NetPulse.Monitor.EventDedup
import NetPulse.Monitor.Sla

/-
# NetPulse.Inventory.Health — the health of a machine (`inventory.py`)

`recompute_health` takes from 100 what the events of the last 90 days weigh, less the older they
are. Scores are exact here. The window is asked for in SQLite, by comparing texts; it is a day too
long at most, and what is older than 90 days has no weight left.

`health_monotone`: a score is within 0..100, more events never raise it, and a later clock never
lowers it.

The queries are answered and the rows are written.
-/

namespace NetPulse.Inventory.Health

open NetPulse.Lib NetPulse.Lib.Calendar NetPulse.Lib.Text NetPulse.Monitor.EventDedup

/-! ## §1 The tables -/

/-- A row of `hosts`. -/
structure Host where
  id : Int
  health_score : Int
  updated_at : Instant

/-- A row of `karma_history`. -/
structure Snapshot where
  timestamp : Instant
  host_id : Int
  score : Int

structure Tables where
  hosts : List Host
  events : List Event
  karma_history : List Snapshot

/-- What the clocks say in the turn of a machine. -/
structure Turn where
  /-- `'now','localtime'` in the query. -/
  asked : Instant
  /-- `_now_iso()` of the row. -/
  updated : Instant
  /-- `datetime.now()`, against the last snapshot. -/
  compared : Instant
  /-- `_now_iso()` of the snapshot. -/
  noted : Instant

/-! ## §2 The penalty -/

def SEVERITY_WEIGHT : List (Text × Nat) :=
  [(lit "CRITICAL", 8), (lit "HIGH", 4), (lit "MEDIUM", 2), (lit "LOW", 1)]

def WINDOW_DAYS : Rat := 90

/-- `julianday`, from the first day of year 1 and to the millisecond. -/
def julianday (millis : Nat) : Rat := millis / 86400000

/-- `julianday('now','localtime') - julianday(timestamp)` -/
def age (asked : Instant) (e : Event) : Rat :=
  julianday (asked.micros / 1000) - julianday ((e.noted.micros + 500) / 1000)

def weight (severity : Text) : Nat := (SEVERITY_WEIGHT.lookup severity).getD 1

def decay (age : Rat) : Rat := max 0 (1 - max 0 age / WINDOW_DAYS)

/-- `w * decay` -/
def share (asked : Instant) (e : Event) : Rat := weight e.severity * decay (age asked e)

/-- `timestamp > datetime('now','localtime','-90 days')` -/
def recent (asked : Instant) (e : Event) : Bool :=
  newer e.timestamp (windowStart (90 * 24) asked)

def eventsOf (events : List Event) (id : Int) (asked : Instant) : List Event :=
  events.filter fun e => e.host_id = some id && recent asked e

def penalty (events : List Event) (asked : Instant) : Rat :=
  events.foldl (fun penalty e => penalty + share asked e) 0

def scoreOf (events : List Event) (id : Int) (asked : Instant) : Int :=
  max 0 (min 100 (Monitor.round (100 - penalty (eventsOf events id asked) asked)))

/-! ## §3 `recompute_health` -/

def SIX_HOURS : Nat := 6 * HOUR

def needSnapshot (history : List Snapshot) (id : Int) (now : Instant) : Bool :=
  match (history.filter fun s => s.host_id = id).getLast? with
  | none => true
  | some s => decide (s.timestamp.micros + SIX_HOURS ≤ now.micros)

/-- The turn of one machine. -/
def recomputeHost (t : Tables) (id : Int) (turn : Turn) : Tables :=
  let score := scoreOf t.events id turn.asked
  { t with
    hosts := t.hosts.map fun h =>
      if h.id = id then { h with health_score := score, updated_at := turn.updated } else h
    karma_history :=
      if needSnapshot t.karma_history id turn.compared then
        t.karma_history ++ [⟨turn.noted, id, score⟩]
      else t.karma_history }

/-- What is left in the tables, and `changed`. -/
def recompute_health (t : Tables) (turn : Int → Turn) : Tables × Nat :=
  let rows := t.hosts.map Host.id
  (rows.foldl (fun t id => recomputeHost t id (turn id)) t, rows.length)

/-! ## §4 What an event costs -/

theorem julianday_mono {n m : Nat} (h : n ≤ m) : julianday n ≤ julianday m := by
  unfold julianday
  gcongr

theorem age_mono {asked later : Instant} (h : asked.micros ≤ later.micros) (e : Event) :
    age asked e ≤ age later e :=
  sub_le_sub_right (julianday_mono (Nat.div_le_div_right h)) _

theorem decay_nonneg (age : Rat) : 0 ≤ decay age := le_max_left _ _

theorem decay_anti {a b : Rat} (h : a ≤ b) : decay b ≤ decay a := by
  have hage : max 0 a / WINDOW_DAYS ≤ max 0 b / WINDOW_DAYS := by
    unfold WINDOW_DAYS
    gcongr
  exact max_le_max_left 0 (sub_le_sub_left hage 1)

theorem share_nonneg (asked : Instant) (e : Event) : 0 ≤ share asked e :=
  mul_nonneg (Nat.cast_nonneg _) (decay_nonneg _)

theorem share_anti {asked later : Instant} (h : asked.micros ≤ later.micros) (e : Event) :
    share later e ≤ share asked e :=
  mul_le_mul_of_nonneg_left (decay_anti (age_mono h e)) (Nat.cast_nonneg _)

/-- Of the first day of the window or later. -/
theorem recent_iff {asked : Instant} {e : Event} :
    recent asked e = true ↔
      (90 * 24 * HOUR ≤ asked.micros → (asked.micros - 90 * 24 * HOUR) / DAY ≤ e.noted.day) := by
  unfold recent
  by_cases hsince : 90 * 24 * HOUR ≤ asked.micros
  · rw [windowStart_since hsince, newer_since, imp_iff_right hsince]
  · have hcalendar : 90 * 24 * HOUR ≤ asked.micros + BEFORE_YEAR_ONE := by
      unfold HOUR BEFORE_YEAR_ONE
      omega
    rw [windowStart_early hsince hcalendar]
    exact iff_of_true rfl fun h => absurd h hsince

/-- What has left the window does not come back. -/
theorem recent_anti {asked later : Instant} (h : asked.micros ≤ later.micros) {e : Event}
    (hrecent : recent later e = true) : recent asked e = true := by
  rw [recent_iff] at hrecent ⊢
  intro hsince
  have hday := hrecent (Nat.le_trans hsince h)
  exact Nat.le_trans (Nat.div_le_div_right (Nat.sub_le_sub_right h _)) hday

/-- What an event takes from the score of a machine. -/
def cost (id : Int) (asked : Instant) (e : Event) : Rat :=
  if e.host_id = some id && recent asked e then share asked e else 0

theorem cost_nonneg (id : Int) (asked : Instant) (e : Event) : 0 ≤ cost id asked e := by
  unfold cost
  split
  · exact share_nonneg asked e
  · exact le_rfl

theorem cost_anti (id : Int) {asked later : Instant} (h : asked.micros ≤ later.micros)
    (e : Event) : cost id later e ≤ cost id asked e := by
  by_cases hlater : (e.host_id = some id && recent later e) = true
  · have hasked : (e.host_id = some id && recent asked e) = true := by
      rw [Bool.and_eq_true] at hlater ⊢
      exact ⟨hlater.1, recent_anti h hlater.2⟩
    rw [cost, if_pos hlater, cost, if_pos hasked]
    exact share_anti h e
  · rw [cost, if_neg hlater]
    exact cost_nonneg id asked e

/-- The loop over the events is a sum over all of the table. -/
theorem penalty_eq (events : List Event) (id : Int) (asked : Instant) :
    penalty (eventsOf events id asked) asked = (events.map (cost id asked)).sum := by
  have hfrom : ∀ p : Rat, (eventsOf events id asked).foldl (fun p e => p + share asked e) p
      = p + (events.map (cost id asked)).sum := by
    induction events with
    | nil => simp [eventsOf]
    | cons e events ih =>
        intro p
        rw [List.map_cons, List.sum_cons, eventsOf, List.filter_cons, cost]
        split
        · rw [List.foldl_cons, ← eventsOf, ih, add_assoc]
        · rw [← eventsOf, ih, zero_add]
  rw [penalty, hfrom, zero_add]

/-! ## §5 Scores -/

theorem floor_le_round (q : Rat) : ⌊q⌋ ≤ Monitor.round q := by
  unfold Monitor.round
  split_ifs <;> omega

theorem round_le_floor_add_one (q : Rat) : Monitor.round q ≤ ⌊q⌋ + 1 := by
  unfold Monitor.round
  split_ifs <;> omega

/-- Rounding to even keeps the order. -/
theorem round_mono {q r : Rat} (h : q ≤ r) : Monitor.round q ≤ Monitor.round r := by
  rcases lt_or_eq_of_le (Int.floor_le_floor h) with hlt | heq
  · -- A whole number lies between the two.
    calc Monitor.round q ≤ ⌊q⌋ + 1 := round_le_floor_add_one q
      _ ≤ ⌊r⌋ := hlt
      _ ≤ Monitor.round r := floor_le_round r
  · have hrest : q - ⌊q⌋ ≤ r - ⌊q⌋ := sub_le_sub_right h _
    unfold Monitor.round
    rw [← heq]
    split_ifs <;> first | omega | (exfalso; linarith)

/-- A clamped score is the lower the higher the penalty. -/
theorem clamp_anti {p p' : Rat} (h : p ≤ p') :
    max 0 (min 100 (Monitor.round (100 - p'))) ≤ max 0 (min 100 (Monitor.round (100 - p))) :=
  max_le_max_left 0 (min_le_min_left 100 (round_mono (sub_le_sub_left h 100)))

theorem scoreOf_range (events : List Event) (id : Int) (asked : Instant) :
    0 ≤ scoreOf events id asked ∧ scoreOf events id asked ≤ 100 := by
  unfold scoreOf
  omega

theorem scoreOf_more {events more : List Event} (h : events.Subperm more) (id : Int)
    (asked : Instant) : scoreOf more id asked ≤ scoreOf events id asked := by
  obtain ⟨kept, hperm, hsub⟩ := h
  refine clamp_anti ?_
  rw [penalty_eq, penalty_eq]
  calc (events.map (cost id asked)).sum = (kept.map (cost id asked)).sum :=
        ((hperm.map _).sum_eq).symm
    _ ≤ (more.map (cost id asked)).sum := by
        refine (hsub.map _).sum_le_sum fun c hc => ?_
        obtain ⟨e, -, rfl⟩ := List.mem_map.mp hc
        exact cost_nonneg id asked e

theorem scoreOf_later (events : List Event) (id : Int) {asked later : Instant}
    (h : asked.micros ≤ later.micros) : scoreOf events id asked ≤ scoreOf events id later := by
  refine clamp_anti ?_
  rw [penalty_eq, penalty_eq]
  exact List.sum_le_sum fun e _ => cost_anti id h e

/-! ## §6 The loop over the machines -/

theorem events_recomputeHost (t : Tables) (id : Int) (turn : Turn) :
    (recomputeHost t id turn).events = t.events := rfl

/-- The row of a machine after its turn. -/
def Host.refreshed (events : List Event) (turn : Int → Turn) (h : Host) : Host :=
  { h with
    health_score := scoreOf events h.id (turn h.id).asked
    updated_at := (turn h.id).updated }

/-- The turn of a machine changes its own row only. -/
theorem hosts_recomputeHost (t : Tables) (id : Int) (turn : Int → Turn) :
    (recomputeHost t id (turn id)).hosts
      = t.hosts.map fun h => if h.id = id then h.refreshed t.events turn else h := by
  refine List.map_congr_left fun h _ => ?_
  by_cases hid : h.id = id
  · rw [if_pos hid, if_pos hid, Host.refreshed, hid]
  · rw [if_neg hid, if_neg hid]

theorem hosts_foldl (turn : Int → Turn) (ids : List Int) (t : Tables) :
    (ids.foldl (fun t id => recomputeHost t id (turn id)) t).hosts
      = t.hosts.map fun h => if h.id ∈ ids then h.refreshed t.events turn else h := by
  induction ids generalizing t with
  | nil => simp
  | cons id ids ih =>
      rw [List.foldl_cons, ih, events_recomputeHost, hosts_recomputeHost, List.map_map]
      refine List.map_congr_left fun h _ => ?_
      by_cases hid : h.id = id
      · -- A second turn of the same machine finds the same score.
        simp [hid, Host.refreshed]
      · simp [hid]

theorem hosts_recompute (t : Tables) (turn : Int → Turn) :
    (recompute_health t turn).1.hosts = t.hosts.map (Host.refreshed t.events turn) := by
  rw [recompute_health, hosts_foldl]
  refine List.map_congr_left fun h hmem => ?_
  rw [if_pos (List.mem_map_of_mem hmem)]

theorem events_recompute (t : Tables) (turn : Int → Turn) :
    (recompute_health t turn).1.events = t.events := by
  have hfold : ∀ (ids : List Int) (t : Tables),
      (ids.foldl (fun t id => recomputeHost t id (turn id)) t).events = t.events := by
    intro ids
    induction ids with
    | nil => exact fun t => rfl
    | cons id ids ih => exact fun t => ih (recomputeHost t id (turn id))
  exact hfold _ t

/-- What a turn adds to the history is its score. -/
theorem karma_recomputeHost {t : Tables} {id : Int} {turn : Turn} {s : Snapshot}
    (h : s ∈ (recomputeHost t id turn).karma_history) :
    s ∈ t.karma_history ∨ s.score = scoreOf t.events id turn.asked := by
  unfold recomputeHost at h
  dsimp only at h
  split at h
  · rcases List.mem_append.mp h with hold | hnew
    · exact .inl hold
    · rw [List.mem_singleton.mp hnew]
      exact .inr rfl
  · exact .inl h

theorem karma_recompute {t : Tables} {turn : Int → Turn} {s : Snapshot}
    (h : s ∈ (recompute_health t turn).1.karma_history) :
    s ∈ t.karma_history ∨ 0 ≤ s.score ∧ s.score ≤ 100 := by
  have hfold : ∀ (ids : List Int) (t : Tables),
      s ∈ (ids.foldl (fun t id => recomputeHost t id (turn id)) t).karma_history →
        s ∈ t.karma_history ∨ 0 ≤ s.score ∧ s.score ≤ 100 := by
    intro ids
    induction ids with
    | nil => exact fun t => .inl
    | cons id ids ih =>
        intro t hs
        rcases ih (recomputeHost t id (turn id)) hs with hs | hs
        · refine (karma_recomputeHost hs).imp_right fun heq => ?_
          rw [heq]
          exact scoreOf_range _ _ _
        · exact .inr hs
  exact hfold _ t h

/-! ## §7 Health only falls with events and only rises with time -/

/-- The same machines, and none of them better off. -/
def NoneBetter (lower upper : List Host) : Prop :=
  List.Forall₂ (fun l u => l.id = u.id ∧ l.health_score ≤ u.health_score) lower upper

theorem noneBetter_map {hosts : List Host} {f g : Host → Host}
    (h : ∀ host, (f host).id = (g host).id ∧ (f host).health_score ≤ (g host).health_score) :
    NoneBetter (hosts.map f) (hosts.map g) := by
  unfold NoneBetter
  rw [List.forall₂_map_left_iff, List.forall₂_map_right_iff]
  exact List.forall₂_same.mpr fun host _ => h host

/-- **Health**: a score is from 0 to 100, in the rows and in what is added to the history; with
more events no machine is better off; at a later time, without new events, none is worse off. -/
theorem health_monotone :
    (∀ (t : Tables) (turn : Int → Turn),
      (∀ h ∈ (recompute_health t turn).1.hosts, 0 ≤ h.health_score ∧ h.health_score ≤ 100) ∧
      ∀ s ∈ (recompute_health t turn).1.karma_history,
        s ∈ t.karma_history ∨ 0 ≤ s.score ∧ s.score ≤ 100) ∧
    (∀ (t : Tables) (turn : Int → Turn) (more : List Event), t.events.Subperm more →
      NoneBetter (recompute_health { t with events := more } turn).1.hosts
        (recompute_health t turn).1.hosts) ∧
    ∀ (t : Tables) (turn later : Int → Turn),
      (∀ id, (turn id).asked.micros ≤ (later id).asked.micros) →
      NoneBetter (recompute_health t turn).1.hosts (recompute_health t later).1.hosts ∧
      NoneBetter (recompute_health t turn).1.hosts
        (recompute_health (recompute_health t turn).1 later).1.hosts := by
  refine ⟨fun t turn => ⟨fun h hmem => ?_, fun s => karma_recompute⟩,
    fun t turn more hmore => ?_, fun t turn later hlater => ⟨?_, ?_⟩⟩
  · rw [hosts_recompute] at hmem
    obtain ⟨host, -, rfl⟩ := List.mem_map.mp hmem
    exact scoreOf_range _ _ _
  · rw [hosts_recompute, hosts_recompute]
    exact noneBetter_map fun host => ⟨rfl, scoreOf_more hmore _ _⟩
  · rw [hosts_recompute, hosts_recompute]
    exact noneBetter_map fun host => ⟨rfl, scoreOf_later _ _ (hlater host.id)⟩
  · rw [hosts_recompute (recompute_health t turn).1, events_recompute, hosts_recompute,
      List.map_map]
    exact noneBetter_map fun host => ⟨rfl, scoreOf_later _ _ (hlater host.id)⟩

/-! ## §8 One machine -/

/-- The start of a day, in year 1. -/
def midnight (day : Nat) (h : (dateOf day).year ≤ 9999) : Instant where
  micros := day * DAY
  inRange := by rwa [Nat.mul_div_cancel day (by decide : 0 < DAY)]

/-- It was offline on day 100. -/
def offline : Event where
  noted := midnight 100 (by decide)
  host_id := some 1
  kind := lit "OFFLINE"
  severity := lit "CRITICAL"
  source := lit "watchdog"
  text := []
  dedup_key := none

def oneHost (events : List Event) : Tables := ⟨[⟨1, 100, midnight 0 (by decide)⟩], events, []⟩

/-- All clocks say the same. -/
def turnAt (t : Instant) : Int → Turn := fun _ => ⟨t, t, t, t⟩

/-- Half of the window later, half of the penalty is left. -/
theorem health_of_offline :
    scoreOf [offline] 1 (midnight 145 (by decide)) = 96 ∧
    NoneBetter
      (recompute_health (oneHost [offline]) (turnAt (midnight 145 (by decide)))).1.hosts
      (recompute_health (oneHost []) (turnAt (midnight 145 (by decide)))).1.hosts ∧
    NoneBetter
      (recompute_health (oneHost [offline]) (turnAt (midnight 100 (by decide)))).1.hosts
      (recompute_health (oneHost [offline]) (turnAt (midnight 145 (by decide)))).1.hosts :=
  ⟨by decide +kernel,
    health_monotone.2.1 (oneHost []) (turnAt (midnight 145 (by decide))) [offline]
      (List.nil_subperm),
    (health_monotone.2.2 (oneHost [offline]) (turnAt (midnight 100 (by decide)))
      (turnAt (midnight 145 (by decide))) fun _ => Nat.mul_le_mul_right DAY (by decide)).1⟩

end NetPulse.Inventory.Health
