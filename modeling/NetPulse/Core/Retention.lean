import NetPulse.Lib.Transaction
import NetPulse.Monitor.EventDedup
import Mathlib.Data.Rat.Defs
import Mathlib.Algebra.Order.Group.Unbundled.Int
import Mathlib.Data.Int.Order.Basic

/-
# NetPulse.Core.Retention — old rows are deleted (`database.py`)

`cleanup_old_records` goes through the tables in one transaction and deletes what has a `timestamp`
below `datetime('now', 'localtime', '-N days')`. The rows have times as `isoformat` writes them, with
a `T`, and the cut is a time of SQLite, with a space: on the day of the cut every row is greater, and
so a row goes only when its whole day is before that day. An age is the difference of two readings of
the local clock, by which both are written.

`retention_bounds`: no row of less than N days goes, and when `True` is returned every row of more
than N + 1 days has gone. N is what `int` makes of the argument, and 30 for what is not a number or
is less than 1.
-/

namespace NetPulse.Core.Retention

open NetPulse.Lib NetPulse.Lib.Calendar NetPulse.Lib.Prog NetPulse.Lib.Transaction
open NetPulse.Monitor.EventDedup (WindowStart BEFORE_YEAR_ONE)

/-! ## §1 The number of days -/

/-- What `days` can be. -/
inductive Days where
  | none
  | int (n : Int)
  /-- A finite `float`. -/
  | float (x : Rat)
  | nan
  | inf
  /-- A text, with what `int` reads in it. -/
  | text (read : Option Int)
  | other
  deriving DecidableEq

inductive CastError where
  | ValueError
  | TypeError
  | OverflowError
  deriving DecidableEq

/-- `int(days)`; the fraction of a `float` is cut off. -/
def castInt : Days → Except CastError Int
  | .int n => .ok n
  | .float x => .ok (x.num.tdiv x.den)
  | .text (some n) => .ok n
  | .text none | .nan => .error .ValueError
  | .none | .other => .error .TypeError
  | .inf => .error .OverflowError

/-- The days that the cleanup goes by. Only `ValueError` and `TypeError` are caught. -/
def effective (days : Days) : Except CastError Nat :=
  match castInt (if days = .none then .int 30 else days) with
  | .ok n => .ok (if n < 1 then 30 else n.toNat)
  | .error .OverflowError => .error .OverflowError
  | .error _ => .ok 30

/-! ## §2 The tables -/

inductive Table where
  | traffic
  | pings
  | traces
  | alerts
  | security_log
  | ai_predictions
  deriving DecidableEq

/-- A set: the order in which its members come is not said. -/
def ALLOWED_TABLES : List Table := [.traffic, .pings, .traces, .alerts, .security_log, .ai_predictions]

/-- A row: the time when it was written, and its other columns. -/
structure Row (α : Type) where
  noted : Instant
  columns : α

def Row.timestamp {α : Type} (r : Row α) : List Nat := isoformat r.noted.micros

abbrev Db (α : Type) := Table → List (Row α)

/-- `datetime('now', 'localtime', '-N days')` -/
def cutoff (days : Nat) (now : Instant) : WindowStart :=
  if days * DAY ≤ now.micros then .since (now.micros - days * DAY)
  else if days * DAY ≤ now.micros + BEFORE_YEAR_ONE then .early
  else .null

/-- `timestamp < datetime(…)`; nothing is less than `NULL`, and no year is before year 1. -/
def expired {α : Type} (cut : WindowStart) (r : Row α) : Bool :=
  match cut with
  | .null => false
  | .early => false
  | .since micros => !textLe (sqlite micros) r.timestamp

/-- `DELETE FROM table WHERE timestamp < …`, with `cursor.rowcount`. -/
def deleteOld {α : Type} (cut : WindowStart) (table : Table) (db : Db α) : Nat × Db α :=
  ((db table).countP (expired cut),
    Function.update db table ((db table).filter fun r => !expired cut r))

/-! ## §3 The cleanup -/

section Cleanup
variable {α : Type}

/-- The loop over the tables; `asked` has the clock of each statement. -/
def deletes (days : Nat) (asked : Table → Instant) :
    List Table → Nat → Prog Unit (Lib.Conn (Db α)) Nat
  | [], deleted_total => pure deleted_total
  | table :: rest, deleted_total =>
      statement (fun db => some (deleteOld (cutoff days (asked table)) table db)) >>= fun rowcount =>
        deletes days asked rest (deleted_total + rowcount)

/-- `VACUUM` and its commit. Of an error it is only asked whether it is an `OperationalError` that
says `cannot VACUUM`. -/
def vacuum (cannotVacuum : Bool) : Prog Unit (Lib.Conn (Db α)) Unit :=
  attempt (statement (fun db => some ((), db)) >>= fun _ => commit) >>= fun o =>
    if o.isSome || cannotVacuum then pure () else throw ()

/-- What is done in the `with`. -/
def cleanup (order : List Table) (asked : Table → Instant) (cannotVacuum : Bool) (days : Nat) :
    Prog Unit (Lib.Conn (Db α)) Unit :=
  deletes days asked order 0 >>= fun deleted_total =>
    if deleted_total > 0 then
      commit >>= fun _ => if deleted_total > 1000 then vacuum cannotVacuum else pure ()
    else pure ()

/-- `cleanup_old_records`; an `OverflowError` of `int` is not caught. -/
def cleanup_old_records (closed : Bool) (order : List Table) (asked : Table → Instant)
    (cannotVacuum : Bool) (days : Days) : Prog Unit (Lib.Conn (Db α)) Bool :=
  if closed then pure false
  else
    match effective days with
    | .error _ => throw ()
    | .ok days =>
        attempt (withConnection (cleanup order asked cannotVacuum days)) >>= fun o => pure o.isSome

end Cleanup

/-! ## §4 A cut between texts is one between days -/

section
variable {α : Type} {r : Row α} {days : Nat} {now : Instant}

/-- **What is deleted**: the rows of the days before the day of the cut. -/
theorem expired_iff : expired (cutoff days now) r = true ↔ r.noted.day + days < now.day := by
  have hpos : 0 < DAY := by decide
  unfold cutoff Instant.day
  by_cases hsince : days * DAY ≤ now.micros
  · have hyear : (dateOf ((now.micros - days * DAY) / DAY)).year ≤ 9999 :=
      Nat.le_trans (year_mono (Nat.div_le_div_right (Nat.sub_le _ _))) now.inRange
    have hdays : days ≤ now.micros / DAY := (Nat.le_div_iff_mul_le hpos).mpr hsince
    have hcut : (now.micros - days * DAY) / DAY = now.micros / DAY - days := by
      rw [Nat.mul_comm, Nat.sub_mul_div]
    rw [if_pos hsince, expired, Bool.not_eq_true', ← Bool.not_eq_true, Row.timestamp,
      textLe_sqlite_isoformat r.noted.inRange hyear, hcut]
    omega
  · have hdays : now.micros / DAY < days := (Nat.div_lt_iff_lt_mul hpos).mpr (by omega)
    have hkept : ¬ r.noted.micros / DAY + days < now.micros / DAY :=
      Nat.not_lt.mpr (Nat.le_trans (Nat.le_of_lt hdays) (Nat.le_add_left _ _))
    rw [if_neg hsince]
    split_ifs
    · exact iff_of_false Bool.false_ne_true hkept
    · exact iff_of_false Bool.false_ne_true hkept

/-- It is less than so many days old. -/
def Row.Younger (r : Row α) (days : Nat) (now : Instant) : Prop :=
  now.micros < r.noted.micros + days * DAY

/-- It is more than so many days old. -/
def Row.Older (r : Row α) (days : Nat) (now : Instant) : Prop :=
  r.noted.micros + days * DAY < now.micros

instance : Decidable (r.Younger days now) := by
  unfold Row.Younger
  infer_instance

theorem expired_of_older (h : r.Older (days + 1) now) : expired (cutoff days now) r = true := by
  rw [expired_iff, Instant.day, Instant.day, Nat.lt_iff_add_one_le, Nat.add_assoc,
    ← Nat.add_mul_div_right _ _ (by decide)]
  exact Nat.div_le_div_right (Nat.le_of_lt h)

theorem not_expired_of_younger (h : r.Younger days now) : expired (cutoff days now) r = false := by
  rw [← Bool.not_eq_true, expired_iff, Nat.not_lt, Instant.day, Instant.day,
    ← Nat.add_mul_div_right _ _ (by decide)]
  exact Nat.div_le_div_right (Nat.le_of_lt h)

end

/-! ## §5 What one cleanup leaves -/

section Cleanup
variable {α : Type} {s w : Db α} {p : Prop} {days : Nat} {asked : Table → Instant}

/-- The tables without what is deleted from those of a list. -/
def sweep (days : Nat) (asked : Table → Instant) : List Table → Db α → Db α
  | [], db => db
  | table :: rest, db =>
      sweep days asked rest (deleteOld (cutoff days (asked table)) table db).2

theorem sweep_apply (tables : List Table) (db : Db α) (t : Table) :
    sweep days asked tables db t =
      if t ∈ tables then (db t).filter fun r => !expired (cutoff days (asked t)) r else db t := by
  induction tables generalizing db with
  | nil => rfl
  | cons table rest ih =>
      rw [sweep, ih, deleteOld]
      by_cases htable : t = table
      · subst htable
        simp [List.filter_filter]
      · simp [htable]

/-- Where no row was counted, none was deleted. -/
theorem deleteOld_eq_self {cut : WindowStart} {table : Table}
    (h : (deleteOld cut table w).1 = 0) : (deleteOld cut table w).2 = w := by
  have hnone : (w table).filter (fun r => !expired cut r) = w table := by
    refine List.filter_eq_self.mpr fun r hr => ?_
    simpa using List.countP_eq_zero.mp h r hr
  rw [deleteOld, hnone, Function.update_eq_self]

/-- The loop: it sweeps the tables, and if it has counted nothing it has changed nothing. -/
theorem deletes_spec {tables : List Table} {total : Nat} :
    Triple (Is s w p) (deletes days asked tables total)
      (fun n c => (n = 0 → sweep days asked tables w = w) ∧ total ≤ n ∧
        Is s (sweep days asked tables w) p c) fun _ => Broken s := by
  induction tables generalizing w total with
  | nil => exact Triple.pure fun c hc => ⟨fun _ => rfl, Nat.le_refl _, hc⟩
  | cons table rest ih =>
      refine Triple.bind statement_spec fun rowcount => ?_
      refine Triple.of_exists fun w' => Triple.of_fact fun hw' => ?_
      obtain ⟨hcount, rfl⟩ := Prod.ext_iff.mp (Option.some.inj hw')
      refine ih.after ?_
      rintro n c ⟨hsame, hle, hc⟩
      refine ⟨fun hzero => ?_, by omega, hc⟩
      have hrow : (deleteOld (cutoff days (asked table)) table w).1 = 0 := by
        rw [show (deleteOld (cutoff days (asked table)) table w).1 = rowcount from hcount]
        omega
      have hself := deleteOld_eq_self hrow
      have hrest := hsame hzero
      simp only [hself] at hrest
      rw [sweep, hself, hrest]

/-- `VACUUM` changes no row, whatever becomes of it. -/
theorem vacuum_spec {cannotVacuum : Bool} :
    Triple (Is s s False) (vacuum cannotVacuum) (fun _ c => c.stored = s)
      fun _ c => c.stored = s := by
  have hboth : Triple (Is s s False) (statement (fun db => some ((), db)) >>= fun _ => commit)
      (fun _ => Is s s False) fun _ => Broken s := by
    refine Triple.bind statement_spec fun _ => ?_
    refine Triple.of_exists fun w => Triple.of_fact fun hw => ?_
    obtain rfl : s = w := congrArg Prod.snd (Option.some.inj hw)
    exact commit_spec
  have hstored : Triple (Is s s False)
      (attempt (statement (fun db => some ((), db)) >>= fun _ => commit))
      (fun _ c => c.stored = s) fun _ c => c.stored = s := by
    refine (attempt_spec hboth).after ?_
    rintro (_ | _) c hc
    · obtain ⟨w, hc⟩ := hc
      exact hc.stored
    · exact Is.stored hc
  exact Triple.bind hstored fun o =>
    Triple.ite (fun _ => Triple.pure fun _ => id) fun _ => Triple.throw fun _ => id

/-- **One cleanup**: the tables are swept; or a step has failed, and they are swept or as before. -/
theorem cleanup_spec {order : List Table} {cannotVacuum : Bool} :
    Triple (Is s s False) (cleanup order asked cannotVacuum days)
      (fun _ c => c.stored = sweep days asked order s)
      fun _ c => c.stored = s ∨ c.stored = sweep days asked order s := by
  have hbroken : ∀ c : Lib.Conn (Db α), Broken s c →
      c.stored = s ∨ c.stored = sweep days asked order s := by
    rintro c ⟨w, hc⟩
    exact Or.inl hc.stored
  refine Triple.bind (deletes_spec.onError fun _ => hbroken) fun n => ?_
  refine Triple.of_fact fun hsame => Triple.of_fact fun _ => Triple.ite (fun _ => ?_) fun hzero => ?_
  · refine Triple.bind (commit_spec.onError fun _ => hbroken) fun _ =>
      Triple.ite (fun _ => ?_) fun _ => Triple.pure fun c hc => hc.stored
    exact vacuum_spec.onError fun _ c hc => Or.inr hc
  · refine Triple.pure fun c hc => ?_
    rw [hsame (by omega)]
    exact hc.stored

theorem deletes_unfailing {tables : List Table} {total : Nat} :
    Triple Unfailing (deletes (α := α) days asked tables total) (fun _ => Unfailing)
      fun _ _ => False := by
  induction tables generalizing total with
  | nil => exact Triple.pure fun _ => id
  | cons table rest ih => exact Triple.bind (statement_unfailing fun _ => rfl) fun _ => ih

theorem cleanup_unfailing {order : List Table} {cannotVacuum : Bool} :
    Triple Unfailing (cleanup (α := α) order asked cannotVacuum days) (fun _ => Unfailing)
      fun _ _ => False := by
  refine Triple.bind deletes_unfailing fun _ => Triple.ite (fun _ => ?_) fun _ => Triple.pure fun _ => id
  refine Triple.bind commit_unfailing fun _ => Triple.ite (fun _ => ?_) fun _ => Triple.pure fun _ => id
  refine Triple.bind (attempt_unfailing (Triple.bind (statement_unfailing fun _ => rfl) fun _ =>
    commit_unfailing)) fun o => Triple.of_fact fun ho => ?_
  rw [if_pos (by rw [ho, Bool.true_or])]
  exact Triple.pure fun _ => id

/-- What a cleanup by so many days has left when it has returned. -/
structure Bounds (days : Nat) (asked : Table → Instant) (before after : Db α) (returned : Bool) :
    Prop where
  /-- Nothing is put in. -/
  none_new : ∀ t, (after t).Sublist (before t)
  /-- No row of less than so many days is deleted. -/
  kept : ∀ t, (after t).filter (fun r => r.Younger days (asked t)) =
    (before t).filter (fun r => r.Younger days (asked t))
  /-- Every row of more than a day more is. -/
  gone : returned = true → ∀ t, ∀ r ∈ after t, ¬ r.Older (days + 1) (asked t)

theorem Bounds.refl : Bounds days asked s s false :=
  ⟨fun _ => List.Sublist.refl _, fun _ => rfl, fun h => absurd h Bool.false_ne_true⟩

theorem sublist_sweep (order : List Table) (t : Table) :
    (sweep days asked order s t).Sublist (s t) := by
  rw [sweep_apply]
  split_ifs
  · exact List.filter_sublist
  · exact List.Sublist.refl _

theorem younger_sweep (order : List Table) (t : Table) :
    (sweep days asked order s t).filter (fun r => r.Younger days (asked t)) =
      (s t).filter (fun r => r.Younger days (asked t)) := by
  rw [sweep_apply]
  split_ifs
  · rw [List.filter_filter]
    refine List.filter_congr fun r _ => ?_
    by_cases hyoung : r.Younger days (asked t)
    · simp [hyoung, not_expired_of_younger hyoung]
    · simp [hyoung]
  · rfl

theorem not_older_of_mem_sweep {order : List Table} {t : Table} {r : Row α} (ht : t ∈ order)
    (h : r ∈ sweep days asked order s t) : ¬ r.Older (days + 1) (asked t) := by
  rw [sweep_apply, if_pos ht, List.mem_filter] at h
  intro holder
  simp [expired_of_older holder] at h

theorem mem_of_perm {order : List Table} (h : order.Perm ALLOWED_TABLES) (t : Table) : t ∈ order := by
  rw [h.mem_iff]
  cases t <;> decide

/-- A manager that is open, and a number of days: what is returned, and what is left. -/
theorem cleanup_old_records_spec (asked : Table → Instant) (cannotVacuum : Bool)
    {order : List Table} (horder : order.Perm ALLOWED_TABLES)
    {arg : Days} (hdays : effective arg = .ok days)
    {E : Unit → Lib.Conn (Db α) → Prop} :
    Triple (Is s s False) (cleanup_old_records false order asked cannotVacuum arg)
      (fun returned c => Bounds days asked s c.stored returned) E := by
  have hswept : ∀ returned, Bounds days asked s (sweep days asked order s) returned := fun _ =>
    ⟨sublist_sweep order, younger_sweep order,
      fun _ t _ hr => not_older_of_mem_sweep (mem_of_perm horder t) hr⟩
  rw [cleanup_old_records, if_neg Bool.false_ne_true, hdays]
  have hwith : Triple (Is s s False) (withConnection (cleanup order asked cannotVacuum days))
      (fun _ c => c.stored = sweep days asked order s)
      fun _ c => c.stored = s ∨ c.stored = sweep days asked order s := by
    refine withConnection_of_rollback ?_ (fun _ _ => id) (fun _ => id) cleanup_spec
    exact fun c hc => Or.inl hc.stored
  refine Triple.bind (attempt_spec hwith) fun o => Triple.pure fun c hc => ?_
  rcases o with _ | _
  · obtain hstored | hstored := hc
    · exact hstored ▸ Bounds.refl
    · exact hstored ▸ hswept false
  · have hstored : c.stored = sweep days asked order s := hc
    exact hstored ▸ hswept true

/-- Where nothing fails, an open manager returns `True`. -/
theorem cleanup_old_records_unfailing (order : List Table) (asked : Table → Instant)
    (cannotVacuum : Bool) {arg : Days} (hdays : effective arg = .ok days) :
    Triple Unfailing (cleanup_old_records (α := α) false order asked cannotVacuum arg)
      (fun returned _ => returned = true) fun _ _ => False := by
  rw [cleanup_old_records, if_neg Bool.false_ne_true, hdays]
  refine Triple.bind (attempt_unfailing (withConnection_unfailing cleanup_unfailing)) fun o => ?_
  exact Triple.pure fun c hc => hc.1

/-- A number of days from 1 on is taken as it is. -/
theorem effective_int {n : Nat} (h : 1 ≤ n) : effective (.int n) = .ok n := by
  have hnot : ¬ (n : Int) < 1 := by omega
  show Except.ok (if (n : Int) < 1 then 30 else (n : Int).toNat) = Except.ok n
  rw [if_neg hnot, Int.toNat_natCast]

end Cleanup

/-! ## §6 A row of five days -/

section Concrete

/-- Noon of a day. -/
def noonOf (day : Nat) (h : (dateOf ((day * DAY + 43200000000) / DAY)).year ≤ 9999) : Instant :=
  ⟨day * DAY + 43200000000, h⟩

/-- A row of the fifteenth. -/
def fiveDaysOld : Row Unit := ⟨noonOf 739934 (by decide +kernel), ()⟩

def today : Instant := noonOf 739939 (by decide +kernel)

def oneRow : Db Unit := fun t => if t = .traffic then [fiveDaysOld] else []

example : fiveDaysOld.timestamp = "2026-11-15T12:00:00".toList.map Char.toNat := by decide +kernel

end Concrete

end NetPulse.Core.Retention
