import NetPulse.Lib.Calendar
import NetPulse.Lib.Text

/-
# NetPulse.Monitor.EventDedup — an event that was noted before (`inventory.py`)

`note_event` leaves an event out if the table has one of the same key in the window of `dedup_hours`.
The table has times as `isoformat` writes them, with a `T`; the start of the window is a time of
SQLite, with a space. On the day of the start every `T` is greater, so that the window is as long as
that day wants it.

`suppressed_iff_window_iff`: in every history, a call is judged by its window exactly when nothing of
its key was stored between the start of that day and the start of the window, or something is in the
window anyway.

Left out is what `note_event` does behind the row: the alert and the healing, whose exceptions are
swallowed.
-/

namespace NetPulse.Monitor.EventDedup

open NetPulse.Lib NetPulse.Lib.Calendar NetPulse.Lib.Text

/-! ## §1 The table -/

/-- A row of the table `events`. -/
structure Event where
  noted : Instant
  host_id : Option Int
  kind : Text
  severity : Text
  source : Text
  text : Text
  dedup_key : Option Text

/-- `timestamp` -/
def Event.timestamp (e : Event) : List Nat := isoformat e.noted.micros

/-- A call, with what the clocks and the database do in it. -/
structure Call where
  host_id : Option Int
  kind : Text
  severity : Text
  source : Text
  text : Option Text
  dedup_key : Option Text
  /-- `int(dedup_hours)` -/
  dedup_hours : Int
  /-- The clock of `datetime('now','localtime', …)`. -/
  asked : Instant
  /-- The query is answered. -/
  answered : Bool
  /-- The clock of `_now_iso()`. -/
  noted : Instant
  /-- The row is inserted. -/
  written : Bool

/-- An hour, in microseconds. -/
def HOUR : Nat := 3600000000

/-- What SQLite can count back from the first day of year 1: its calendar begins there. -/
def BEFORE_YEAR_ONE : Nat := 148731163200000000

/-- `datetime('now','localtime', '-N hours')` -/
inductive WindowStart where
  /-- Before the calendar: `NULL`. -/
  | null
  /-- Before year 1: the text begins with `0000` or with a minus. -/
  | early
  | since (micros : Nat)

def windowStart (win : Nat) (now : Instant) : WindowStart :=
  if win * HOUR ≤ now.micros then .since (now.micros - win * HOUR)
  else if win * HOUR ≤ now.micros + BEFORE_YEAR_ONE then .early
  else .null

/-- `timestamp > datetime(…)`; nothing is greater than `NULL`. -/
def newer (timestamp : List Nat) : WindowStart → Bool
  | .null => false
  | .early => true
  | .since micros => !textLe timestamp (sqlite micros)

/-- `max(1, int(dedup_hours))` -/
def Call.win (c : Call) : Nat := (max 1 c.dedup_hours).toNat

/-- The key, if there is one: `""` is none. -/
def Call.key (c : Call) : Option Text := c.dedup_key.filter (· ≠ [])

/-- The rows that the query gets. A key that cannot be encoded is an error, and so is no answer. -/
def Call.dup (table : List Event) (c : Call) (key : Text) : List Event :=
  if c.answered && key.encodable then
    table.filter fun e => e.dedup_key = some key && newer e.timestamp (windowStart c.win c.asked)
  else []

def SEVERITIES : List Text := [lit "CRITICAL", lit "HIGH", lit "MEDIUM", lit "LOW"]

/-- The row of a call. -/
def Call.event (c : Call) : Event where
  noted := c.noted
  host_id := c.host_id
  kind := c.kind.take 32
  severity := if c.severity ∈ SEVERITIES then c.severity else lit "MEDIUM"
  source := c.source.take 16
  text := (c.text.getD []).take 1000
  dedup_key := c.dedup_key

/-- SQLite takes no text that cannot be encoded. -/
def Event.storable (e : Event) : Bool :=
  e.kind.encodable && e.source.encodable && e.text.encodable && e.dedup_key.all Text.encodable

/-- `{"ok": True, "dedup": True}` or `{"ok": True}` -/
structure Reply where
  dedup : Bool

def note_event (table : List Event) (c : Call) : List Event × Reply :=
  if c.key.any fun key => c.dup table key ≠ [] then (table, ⟨true⟩)
  else if c.written && c.event.storable then (table ++ [c.event], ⟨false⟩)
  else (table, ⟨false⟩)

/-- The table after a history of calls. -/
def stored (history : List Call) : List Event :=
  history.foldl (fun table c => (note_event table c).1) []

/-! ## §2 What is promised -/

/-- Stored within the last `dedup_hours` hours. -/
def InWindow (c : Call) (e : Event) : Prop :=
  e.noted.micros ≤ c.asked.micros ∧ (c.asked.micros : Int) ≤ e.noted.micros + c.dedup_hours * HOUR

/-- A call with a key is suppressed exactly if there is an event of its key in its window. -/
def JudgedByWindow (table : List Event) (c : Call) : Prop :=
  ∀ key, c.key = some key →
    ((note_event table c).2.dedup = true ↔ ∃ e ∈ table, e.dedup_key = some key ∧ InWindow c e)

/-- Of the day on which the window starts, or of a later one. -/
def Event.OfStartDay (e : Event) : WindowStart → Prop
  | .null => False
  | .early => True
  | .since micros => micros / DAY ≤ e.noted.day

def FromStartDay (c : Call) (e : Event) : Prop := e.OfStartDay (windowStart c.win c.asked)

/-- With an event in the window, the query has to be answered, and the window must not reach back
behind the calendar of SQLite. With none, no event may be of the day of its start or later. -/
def StartDayClear (table : List Event) (c : Call) : Prop :=
  ∀ key, c.key = some key →
    (∃ e ∈ table, e.dedup_key = some key ∧ InWindow c e) ∧
        c.answered = true ∧ c.win * HOUR ≤ c.asked.micros + BEFORE_YEAR_ONE ∨
      (∀ e ∈ table, e.dedup_key = some key → ¬ InWindow c e) ∧
        (c.answered = true → ∀ e ∈ table, e.dedup_key = some key → ¬ FromStartDay c e)

/-! ## §3 The start of the window -/

section
variable {win : Nat} {now : Instant}

theorem windowStart_since (h : win * HOUR ≤ now.micros) :
    windowStart win now = .since (now.micros - win * HOUR) := if_pos h

theorem windowStart_early (h : ¬ win * HOUR ≤ now.micros)
    (hcalendar : win * HOUR ≤ now.micros + BEFORE_YEAR_ONE) : windowStart win now = .early := by
  rw [windowStart, if_neg h, if_pos hcalendar]

theorem windowStart_null (h : ¬ win * HOUR ≤ now.micros + BEFORE_YEAR_ONE) :
    windowStart win now = .null := by
  rw [windowStart, if_neg h, if_neg (fun hsince => h (Nat.le_trans hsince (Nat.le_add_right _ _)))]

end

theorem newer_since {e : Event} {win : Nat} {now : Instant} :
    newer e.timestamp (.since (now.micros - win * HOUR)) = true ↔
      (now.micros - win * HOUR) / DAY ≤ e.noted.day := by
  have hyear : (dateOf ((now.micros - win * HOUR) / DAY)).year ≤ 9999 :=
    Nat.le_trans (year_mono (Nat.div_le_div_right (Nat.sub_le _ _))) now.inRange
  rw [newer, Bool.not_eq_true', ← Bool.not_eq_true, Event.timestamp,
    textLe_isoformat_sqlite e.noted.inRange hyear, Nat.not_lt, Instant.day]

/-- **The comparison of texts is one of days.** -/
theorem newer_iff {e : Event} {c : Call} :
    newer e.timestamp (windowStart c.win c.asked) = true ↔ FromStartDay c e := by
  unfold FromStartDay
  by_cases hcalendar : c.win * HOUR ≤ c.asked.micros + BEFORE_YEAR_ONE
  · by_cases hsince : c.win * HOUR ≤ c.asked.micros
    · rw [windowStart_since hsince]
      exact newer_since
    · rw [windowStart_early hsince hcalendar]
      exact iff_of_true rfl trivial
  · rw [windowStart_null hcalendar]
    exact iff_of_false Bool.false_ne_true id

/-- The window is of one hour at least. -/
theorem hours_le_win (c : Call) : c.dedup_hours ≤ c.win := by
  unfold Call.win
  omega

/-- What is in the window is not of a day before its start. -/
theorem fromStartDay_of_inWindow {e : Event} {c : Call} (h : InWindow c e)
    (hcalendar : c.win * HOUR ≤ c.asked.micros + BEFORE_YEAR_ONE) : FromStartDay c e := by
  unfold FromStartDay
  by_cases hsince : c.win * HOUR ≤ c.asked.micros
  · rw [windowStart_since hsince]
    have hlong : c.dedup_hours * HOUR ≤ c.win * HOUR :=
      Int.mul_le_mul_of_nonneg_right (hours_le_win c) (Int.natCast_nonneg _)
    have hstart : c.asked.micros - c.win * HOUR ≤ e.noted.micros := by
      have hlast := h.2
      omega
    exact Nat.div_le_div_right hstart
  · rw [windowStart_early hsince hcalendar]
    trivial

theorem not_fromStartDay_of_null {e : Event} {c : Call}
    (h : ¬ c.win * HOUR ≤ c.asked.micros + BEFORE_YEAR_ONE) : ¬ FromStartDay c e := by
  unfold FromStartDay
  rw [windowStart_null h]
  exact id

/-! ## §4 One call -/

variable {table : List Event} {c : Call} {key : Text}

theorem dedup_eq_true (hkey : c.key = some key) :
    (note_event table c).2.dedup = true ↔ c.dup table key ≠ [] := by
  unfold note_event
  simp only [hkey, Option.any_some, decide_eq_true_iff]
  split_ifs with hdup
  · exact iff_of_true rfl hdup
  · exact iff_of_false id hdup
  · exact iff_of_false id hdup

theorem dup_ne_nil :
    c.dup table key ≠ [] ↔ (c.answered = true ∧ key.encodable = true) ∧
      ∃ e ∈ table, e.dedup_key = some key ∧ FromStartDay c e := by
  unfold Call.dup
  rw [← Bool.and_eq_true]
  split_ifs with hquery
  · rw [and_iff_right hquery, ne_eq, List.filter_eq_nil_iff]
    push Not
    simp only [Bool.and_eq_true, decide_eq_true_iff, newer_iff]
  · exact iff_of_false (fun h => h rfl) (fun h => hquery h.1)

/-- What is suppressed leaves the table as it is, and what is not adds its row if that can be. -/
theorem note_event_table (table : List Event) (c : Call) :
    (note_event table c).1 = table ∨
      (note_event table c).1 = table ++ [c.event] ∧ c.event.storable = true := by
  unfold note_event
  split_ifs with hdup hwritten
  · exact .inl rfl
  · exact .inr ⟨rfl, (Bool.and_eq_true_iff.mp hwritten).2⟩
  · exact .inl rfl

/-- **Every stored key can be encoded.** -/
theorem storable_of_mem_stored {history : List Call} {e : Event} (h : e ∈ stored history) :
    e.storable = true := by
  induction history using List.reverseRecOn with
  | nil => exact absurd h List.not_mem_nil
  | append_singleton history c ih =>
      rw [stored, List.foldl_append, List.foldl_cons, List.foldl_nil] at h
      rcases note_event_table (stored history) c with heq | ⟨heq, hstorable⟩
      · exact ih (heq ▸ h)
      · have hmem : e ∈ stored history ++ [c.event] := heq ▸ h
        rcases List.mem_append.mp hmem with hmem | hmem
        · exact ih hmem
        · rw [List.mem_singleton.mp hmem]
          exact hstorable

theorem encodable_of_storable {e : Event} (h : e.storable = true) (hkey : e.dedup_key = some key) :
    key.encodable = true := by
  unfold Event.storable at h
  rw [Bool.and_eq_true, hkey, Option.all_some] at h
  exact h.2

/-- A call is suppressed by what is of the day of the start, or later. -/
theorem suppressed_iff {history : List Call} (hkey : c.key = some key) :
    (note_event (stored history) c).2.dedup = true ↔
      c.answered = true ∧ ∃ e ∈ stored history, e.dedup_key = some key ∧ FromStartDay c e := by
  rw [dedup_eq_true hkey, dup_ne_nil, and_assoc]
  refine and_congr_right fun _ => ⟨fun h => h.2, fun h => ⟨?_, h⟩⟩
  obtain ⟨e, he, hsame, -⟩ := h
  exact encodable_of_storable (storable_of_mem_stored he) hsame

/-! ## §5 Every history -/

/-- **When a call is judged by its window.** In every history: exactly if an event of the key is in the
window, and SQLite finds it there; or none is, and none is of the day of its start or later. -/
theorem suppressed_iff_window_iff (history : List Call) (c : Call) :
    JudgedByWindow (stored history) c ↔ StartDayClear (stored history) c := by
  unfold JudgedByWindow StartDayClear
  refine forall_congr' fun key => imp_congr_right fun hkey => ?_
  rw [suppressed_iff hkey]
  by_cases hwindow : ∃ e ∈ stored history, e.dedup_key = some key ∧ InWindow c e
  · rw [iff_true_right hwindow]
    constructor
    · rintro ⟨hanswered, e, -, -, hday⟩
      refine .inl ⟨hwindow, hanswered, ?_⟩
      by_contra hnull
      exact not_fromStartDay_of_null hnull hday
    · rintro (⟨⟨e, he, hsame, hin⟩, hanswered, hcalendar⟩ | ⟨hnone, -⟩)
      · exact ⟨hanswered, e, he, hsame, fromStartDay_of_inWindow hin hcalendar⟩
      · obtain ⟨e, he, hsame, hin⟩ := hwindow
        exact absurd hin (hnone e he hsame)
  · rw [iff_false_right hwindow]
    have hnone : ∀ e ∈ stored history, e.dedup_key = some key → ¬ InWindow c e :=
      fun e he hsame hin => hwindow ⟨e, he, hsame, hin⟩
    constructor
    · intro hpassed
      exact .inr ⟨hnone, fun hanswered e he hsame hday => hpassed ⟨hanswered, e, he, hsame, hday⟩⟩
    · rintro (⟨hin, -⟩ | ⟨-, hclear⟩)
      · exact absurd hin hwindow
      · rintro ⟨hanswered, e, he, hsame, hday⟩
        exact hclear hanswered e he hsame hday

/-- A reading on the day 738000, so many hours behind midnight. -/
def reading (hour : Nat) (h : (dateOf ((738000 * DAY + hour * HOUR) / DAY)).year ≤ 9999) : Instant :=
  ⟨738000 * DAY + hour * HOUR, h⟩

/-- An offline alert with a window of six hours. -/
def offline (now : Instant) : Call :=
  ⟨some 1, lit "offline", lit "HIGH", lit "watchdog", none, some (lit "pc7:offline"), 6,
    now, true, now, true⟩

def oneOClock : Instant := reading 1 (by decide +kernel)

def elevenAtNight : Instant := reading 23 (by decide +kernel)

/-- **An event of one o'clock at night** suppresses one of eleven in the evening, with a window of six
hours. -/
theorem suppressed_after_window :
    (note_event (stored [offline oneOClock]) (offline elevenAtNight)).2.dedup = true ∧
      ¬ ∀ history c, JudgedByWindow (stored history) c := by
  have hkey : (offline elevenAtNight).key = some (lit "pc7:offline") := by decide +kernel
  have hdedup : (note_event (stored [offline oneOClock]) (offline elevenAtNight)).2.dedup = true := by
    decide +kernel
  refine ⟨hdedup, fun h => ?_⟩
  obtain ⟨e, he, -, hin⟩ := (h [offline oneOClock] (offline elevenAtNight) _ hkey).mp hdedup
  have htable : stored [offline oneOClock] = [(offline oneOClock).event] := rfl
  rw [htable, List.mem_singleton] at he
  subst he
  obtain ⟨-, hlast⟩ := hin
  revert hlast
  decide +kernel

end NetPulse.Monitor.EventDedup
