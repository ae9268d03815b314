import Mathlib.Data.List.Perm.Subperm
import Mathlib.Data.List.Sort
import NetPulse.Lib.Machine
import NetPulse.Lib.Slots

/-
# NetPulse.Server.Jobs — background jobs (`submit_job`, `prune_jobs` of `server.py`)

A job takes one of the 64 slots, is put into `JOBS`, and is handed to the pool of threads; its worker
gives the slot back. If `submit` raises, the submitter takes the job out of `JOBS` and gives the slot
back itself. But a pool that cannot start a thread raises after it has queued the job, and another
thread runs it later: then the slot is given back twice.

`jobs_accounted`: in every run in which no `submit` fails in that way, the slots are in balance, each
job gives its slot back once, no running job is pruned, and `JOBS` stays within its bound.
-/

namespace NetPulse.Jobs

open NetPulse.Lib

/-! ## §1 Jobs -/

/-- `BoundedSemaphore(64)` -/
def SLOTS : Nat := 64

/-- How many jobs `prune_jobs` leaves. -/
def BOUND : Nat := 1024

def MAX_AGE : Nat := 1800

/-- How far `submit_job` is. -/
inductive Submitter where
  | idle
  /-- `JobCapacityError` -/
  | refused
  | acquired
  /-- In `JOBS`, before `WORKERS.submit`. -/
  | registered
  /-- In `except`, before the section under the lock. -/
  | failed
  /-- Before `release`. -/
  | popped
  | raised
  | returned
  deriving DecidableEq

/-- How far `wrap` is. -/
inductive Worker where
  | absent
  | queued
  /-- In `fn()`. -/
  | calling
  /-- In `finally`. -/
  | ending
  | gone
  deriving DecidableEq

inductive Status where
  | running
  | done
  | error
  deriving DecidableEq

/-- A job; jobs are numbered, for their identifiers are unique. -/
structure Job where
  submitter : Submitter
  worker : Worker
  status : Status
  started : Nat
  finished : Option Nat
  /-- How often its slot was given back. -/
  released : Nat

/-- Who holds a slot: submitted, and its worker not yet finished with it. -/
def Job.holds (b : Job) : Bool :=
  match b.submitter, b.worker with
  | .acquired, _ | .registered, _ | .failed, _ | .popped, _ => true
  | .returned, .queued | .returned, .calling | .returned, .ending => true
  | _, _ => false

/-- `job.get("finished", job["started"])` -/
def Job.stamp (b : Job) : Nat := b.finished.getD b.started

/-- What a job can be, in `JOBS` or not. -/
def Job.Sound (b : Job) (listed : Prop) : Prop :=
  match b.submitter, b.worker with
  | .idle, .absent | .refused, .absent | .acquired, .absent | .popped, .absent =>
      b.status = .running ∧ b.released = 0 ∧ ¬ listed
  | .registered, .absent | .failed, .absent | .returned, .queued | .returned, .calling =>
      b.status = .running ∧ b.released = 0 ∧ listed
  | .raised, .absent => b.released = 1 ∧ ¬ listed
  | .returned, .ending => b.status ≠ .running ∧ b.released = 0
  | .returned, .gone => b.status ≠ .running ∧ b.released = 1
  | _, _ => False

section Sound

variable {b : Job} {listed : Prop}

theorem Job.Sound.running (h : b.Sound listed) (hlisted : listed) (hstatus : b.status = .running) :
    b.holds = true := by
  obtain ⟨submitter, worker, status, started, finished, released⟩ := b
  cases submitter <;> cases worker <;>
    first | rfl | exact absurd hlisted h.2.2 | exact absurd hlisted h.2 | exact absurd hstatus h.1 | cases h

theorem Job.Sound.once (h : b.Sound listed) (hreturned : b.submitter = .returned) :
    b.released = if b.worker = .gone then 1 else 0 := by
  obtain ⟨submitter, worker, status, started, finished, released⟩ := b
  cases hreturned
  cases worker
  · cases h
  · exact h.2.1
  · exact h.2.1
  · exact h.2
  · exact h.2

theorem Job.Sound.kept (h : b.Sound listed)
    (hstage : b.submitter = .registered ∨ b.submitter = .returned) (hstatus : b.status = .running) :
    listed := by
  obtain ⟨submitter, worker, status, started, finished, released⟩ := b
  rcases hstage with hstage | hstage
  · cases hstage
    cases worker <;> first | exact h.2.2 | cases h
  · cases hstage
    cases worker
    · cases h
    · exact h.2.2
    · exact h.2.2
    · exact absurd hstatus h.1
    · exact absurd hstatus h.1

/-- A job that is done does not care for the table. -/
theorem Job.Sound.unlist (h : b.Sound listed) {listed' : Prop}
    (hsame : b.status = .running → (listed' ↔ listed)) (hout : listed' → listed) : b.Sound listed' := by
  obtain ⟨submitter, worker, status, started, finished, released⟩ := b
  cases submitter <;> cases worker <;>
    first
    | exact ⟨h.1, h.2.1, fun hl => h.2.2 (hout hl)⟩
    | exact ⟨h.1, h.2.1, (hsame h.1).mpr h.2.2⟩
    | exact ⟨h.1, fun hl => h.2 (hout hl)⟩
    | exact h

/-! A job on its way, step by step. -/

theorem Job.Sound.idle_holds (h : b.Sound listed) (hs : b.submitter = .idle) : b.holds = false := by
  obtain ⟨submitter, worker, status, started, finished, released⟩ := b
  cases hs
  cases worker <;> rfl

theorem Job.Sound.refuse (h : b.Sound listed) (hs : b.submitter = .idle) :
    Job.Sound { b with submitter := .refused } listed ∧
      Job.holds { b with submitter := .refused } = b.holds := by
  obtain ⟨submitter, worker, status, started, finished, released⟩ := b
  cases hs
  cases worker <;> exact ⟨h, rfl⟩

theorem Job.Sound.acquire (h : b.Sound listed) (hs : b.submitter = .idle) :
    Job.Sound { b with submitter := .acquired } listed := by
  obtain ⟨submitter, worker, status, started, finished, released⟩ := b
  cases hs
  cases worker <;> exact h

theorem Job.Sound.register (h : b.Sound listed) (now : Nat) (hs : b.submitter = .acquired) :
    (∀ {listed' : Prop}, listed' →
      Job.Sound { b with
        submitter := .registered
        started := now } listed') ∧
      Job.holds { b with
        submitter := .registered
        started := now } = b.holds ∧ ¬ listed := by
  obtain ⟨submitter, worker, status, started, finished, released⟩ := b
  cases hs
  cases worker <;> first | exact ⟨fun hl => ⟨h.1, h.2.1, hl⟩, rfl, h.2.2⟩ | cases h

theorem Job.Sound.queue (h : b.Sound listed) (hs : b.submitter = .registered) :
    Job.Sound { b with
        submitter := .returned
        worker := .queued } listed ∧
      Job.holds { b with
        submitter := .returned
        worker := .queued } = b.holds := by
  obtain ⟨submitter, worker, status, started, finished, released⟩ := b
  cases hs
  cases worker <;> first | exact ⟨h, rfl⟩ | cases h

theorem Job.Sound.fail (h : b.Sound listed) (hs : b.submitter = .registered) :
    Job.Sound { b with submitter := .failed } listed ∧
      Job.holds { b with submitter := .failed } = b.holds := by
  obtain ⟨submitter, worker, status, started, finished, released⟩ := b
  cases hs
  cases worker <;> exact ⟨h, rfl⟩

theorem Job.Sound.pop (h : b.Sound listed) (hs : b.submitter = .failed) {listed' : Prop}
    (hout : ¬ listed') :
    Job.Sound { b with submitter := .popped } listed' ∧
      Job.holds { b with submitter := .popped } = b.holds := by
  obtain ⟨submitter, worker, status, started, finished, released⟩ := b
  cases hs
  cases worker <;> first | exact ⟨⟨h.1, h.2.1, hout⟩, rfl⟩ | cases h

theorem Job.Sound.giveBack (h : b.Sound listed) (hs : b.submitter = .popped) :
    (Job.Sound { b with
        submitter := .raised
        released := b.released + 1 } listed ∧
      Job.holds { b with
        submitter := .raised
        released := b.released + 1 } = false) ∧ b.holds = true := by
  obtain ⟨submitter, worker, status, started, finished, released⟩ := b
  cases hs
  cases worker <;> first | exact ⟨⟨⟨congrArg Nat.succ h.2.1, h.2.2⟩, rfl⟩, rfl⟩ | cases h

theorem Job.Sound.call (h : b.Sound listed) (hs : b.worker = .queued) :
    Job.Sound { b with worker := .calling } listed ∧
      Job.holds { b with worker := .calling } = b.holds := by
  obtain ⟨submitter, worker, status, started, finished, released⟩ := b
  cases hs
  cases submitter <;> exact ⟨h, rfl⟩

theorem Job.Sound.finish (h : b.Sound listed) (ok : Bool) (now : Nat) (hs : b.worker = .calling) :
    Job.Sound { b with
        worker := .ending
        status := if ok then .done else .error
        finished := some now } listed ∧
      Job.holds { b with
        worker := .ending
        status := if ok then .done else .error
        finished := some now } = b.holds := by
  obtain ⟨submitter, worker, status, started, finished, released⟩ := b
  cases hs
  cases submitter <;> first
    | exact ⟨⟨by cases ok <;> exact fun hrun => (by cases hrun), h.2.1⟩, rfl⟩
    | cases h

theorem Job.Sound.finishRelease (h : b.Sound listed) (hs : b.worker = .ending) :
    (Job.Sound { b with
        worker := .gone
        released := b.released + 1 } listed ∧
      Job.holds { b with
        worker := .gone
        released := b.released + 1 } = false) ∧ b.holds = true := by
  obtain ⟨submitter, worker, status, started, finished, released⟩ := b
  cases hs
  cases submitter <;> first | exact ⟨⟨⟨h.1, congrArg Nat.succ h.2⟩, rfl⟩, rfl⟩ | cases h

end Sound

/-- What `WORKERS.submit` does. -/
inductive Submission where
  | queued
  /-- It raises, and the job is not queued: the pool is shut down. -/
  | refused
  /-- It raises when the job is queued: no thread can be started. -/
  | unstarted

structure State where
  /-- The value of `JOB_SLOTS`. -/
  free : Nat
  jobs : Nat → Job
  /-- `JOBS` -/
  table : List Nat

namespace State

def set (s : State) (j : Nat) (b : Job) : State := { s with jobs := Function.update s.jobs j b }

/-- `JOB_SLOTS.release()`; it raises when all slots are free. -/
def release (s : State) (j : Nat) : State :=
  { s.set j { s.jobs j with released := (s.jobs j).released + 1 } with
    free := if s.free < SLOTS then s.free + 1 else s.free }

def isDone (s : State) (j : Nat) : Bool := (s.jobs j).status ≠ .running

/-- What the first loop of `prune_jobs` leaves. -/
def aged (s : State) (now : Nat) : List Nat :=
  s.table.filter fun j => !(s.isDone j && decide ((s.jobs j).stamp + MAX_AGE < now))

/-- What its second loop takes away. -/
def overflow (s : State) (now : Nat) : List Nat :=
  (((s.aged now).filter s.isDone).mergeSort
    fun i j => decide ((s.jobs i).stamp ≤ (s.jobs j).stamp)).take ((s.aged now).length - BOUND)

/-- `prune_jobs()` -/
def prune (s : State) (now : Nat) : State :=
  { s with table := (s.aged now).filter fun j => j ∉ s.overflow now }

inductive Event where
  | acquire (j : Nat)
  /-- The section under the lock. -/
  | register (j : Nat) (now : Nat)
  | submit (j : Nat) (r : Submission)
  | pop (j : Nat)
  | giveBack (j : Nat)
  | start (j : Nat)
  /-- `fn` returns or raises, and the section under the lock. -/
  | finish (j : Nat) (ok : Bool) (now : Nat)
  | release (j : Nat)
  | prune (now : Nat)

def step (s : State) : Event → Option State
  | .acquire j =>
      match (s.jobs j).submitter with
      | .idle =>
          if s.free = 0 then some (s.set j { s.jobs j with submitter := .refused })
          else some { s.set j { s.jobs j with submitter := .acquired } with free := s.free - 1 }
      | _ => none
  | .register j now =>
      match (s.jobs j).submitter with
      | .acquired => some { s.set j { s.jobs j with
            submitter := .registered
            started := now } with table := (s.prune now).table ++ [j] }
      | _ => none
  | .submit j r =>
      match (s.jobs j).submitter, r with
      | .registered, .queued => some (s.set j { s.jobs j with
          submitter := .returned
          worker := .queued })
      | .registered, .refused => some (s.set j { s.jobs j with submitter := .failed })
      | .registered, .unstarted => some (s.set j { s.jobs j with
          submitter := .failed
          worker := .queued })
      | _, _ => none
  | .pop j =>
      match (s.jobs j).submitter with
      | .failed => some { s.set j { s.jobs j with submitter := .popped } with
          table := s.table.filter fun i => i ≠ j }
      | _ => none
  | .giveBack j =>
      match (s.jobs j).submitter with
      | .popped => some ((s.set j { s.jobs j with submitter := .raised }).release j)
      | _ => none
  | .start j =>
      match (s.jobs j).worker with
      | .queued => some (s.set j { s.jobs j with worker := .calling })
      | _ => none
  | .finish j ok now =>
      match (s.jobs j).worker with
      | .calling => some (s.set j { s.jobs j with
          worker := .ending
          status := if ok then .done else .error
          finished := some now })
      | _ => none
  | .release j =>
      match (s.jobs j).worker with
      | .ending => some ((s.set j { s.jobs j with worker := .gone }).release j)
      | _ => none
  | .prune now => some (s.prune now)

def machine : Machine State Event := ⟨step⟩

def idleJob : Job := ⟨.idle, .absent, .running, 0, none, 0⟩

def start : State := ⟨SLOTS, fun _ => idleJob, []⟩

/-! ## §2 Accounts -/

/-- The accounts of the jobs. -/
structure Accounted (s : State) : Prop where
  /-- Free slots and holders are all the slots. -/
  slots : Balanced SLOTS s.free fun j => (s.jobs j).holds
  /-- A job of `JOBS` that is running holds a slot. -/
  running : ∀ j ∈ s.table, (s.jobs j).status = .running → (s.jobs j).holds = true
  /-- An accepted job gives its slot back once, at its end. -/
  once : ∀ j, (s.jobs j).submitter = .returned →
    (s.jobs j).released = if (s.jobs j).worker = .gone then 1 else 0
  /-- A running job stays in `JOBS`, unless it could not be submitted. -/
  kept : ∀ j, (s.jobs j).submitter = .registered ∨ (s.jobs j).submitter = .returned →
    (s.jobs j).status = .running → j ∈ s.table
  bounded : s.table.length ≤ BOUND + 1

/-- Every job is sound, and the slots are in balance. -/
structure Inv (s : State) : Prop where
  slots : Balanced SLOTS s.free fun j => (s.jobs j).holds
  sound : ∀ j, (s.jobs j).Sound (j ∈ s.table)
  nodup : s.table.Nodup
  bounded : s.table.length ≤ BOUND + 1

theorem Inv.accounted {s : State} (h : Inv s) : Accounted s :=
  ⟨h.slots, fun j hj => (h.sound j).running hj, fun j => (h.sound j).once,
    fun j hj => (h.sound j).kept hj, h.bounded⟩

/-! ## §3 Pruning -/

section Prune

variable {s : State} {now : Nat}

theorem mem_aged_of_running {j : Nat} (hj : j ∈ s.table) (hrun : (s.jobs j).status = .running) :
    j ∈ s.aged now := by
  refine List.mem_filter.mpr ⟨hj, ?_⟩
  have hdone : s.isDone j = false := decide_eq_false (not_not_intro hrun)
  rw [hdone, Bool.false_and]
  rfl

theorem mem_overflow {j : Nat} (h : j ∈ s.overflow now) : j ∈ s.aged now ∧ s.isDone j = true :=
  List.mem_filter.mp (List.mem_mergeSort.mp (List.mem_of_mem_take h))

/-- A running job is not pruned. -/
theorem mem_prune_of_running {j : Nat} (hj : j ∈ s.table) (hrun : (s.jobs j).status = .running) :
    j ∈ (s.prune now).table := by
  refine List.mem_filter.mpr ⟨mem_aged_of_running hj hrun, decide_eq_true fun hover => ?_⟩
  exact of_decide_eq_true (mem_overflow hover).2 hrun

theorem mem_of_mem_prune {j : Nat} (h : j ∈ (s.prune now).table) : j ∈ s.table :=
  List.mem_of_mem_filter (List.mem_of_mem_filter h)

theorem nodup_prune (h : s.table.Nodup) : (s.prune now).table.Nodup := (h.filter _).filter _

theorem length_filter_mem {l part : List Nat} (hl : l.Nodup) (hpart : part.Nodup)
    (hsub : ∀ j ∈ part, j ∈ l) : (l.filter fun j => j ∈ part).length = part.length := by
  refine ((List.perm_ext_iff_of_nodup (hl.filter _) hpart).mpr fun j => ?_).length_eq
  rw [List.mem_filter, decide_eq_true_iff]
  exact ⟨fun h => h.2, fun h => ⟨hsub j h, h⟩⟩

/-- **Pruning.** No more than `BOUND` jobs are left, since no more run than there are slots. -/
theorem length_prune (h : Inv s) : (s.prune now).table.length ≤ BOUND := by
  have haged : (s.aged now).Nodup := h.nodup.filter _
  have hrunning : ((s.aged now).filter fun j => !s.isDone j).length ≤ SLOTS := by
    refine h.slots.length_le (haged.filter _) fun j hj => ?_
    obtain ⟨hj, hnot⟩ := List.mem_filter.mp hj
    refine (h.sound j).running (List.mem_of_mem_filter hj) ?_
    have hdone : s.isDone j = false := by rwa [Bool.not_eq_true'] at hnot
    exact not_not.mp (of_decide_eq_false hdone)
  have hsplit := List.length_eq_length_filter_add (l := s.aged now) s.isDone
  have hoverflow : (s.overflow now).length
      = min ((s.aged now).length - BOUND) ((s.aged now).filter s.isDone).length := by
    rw [overflow, List.length_take, List.length_mergeSort]
  have hnodup : (s.overflow now).Nodup :=
    ((List.mergeSort_perm _ _).nodup_iff.mpr (haged.filter _)).sublist (List.take_sublist _ _)
  have hkeep := List.length_eq_length_filter_add (l := s.aged now) fun j => j ∈ s.overflow now
  rw [length_filter_mem haged hnodup fun j hj => (mem_overflow hj).1] at hkeep
  have hprune : (s.prune now).table.length
      = ((s.aged now).filter fun j => !decide (j ∈ s.overflow now)).length := by
    exact congrArg List.length (List.filter_congr fun j _ => decide_not)
  have hslots : SLOTS ≤ BOUND := by decide
  omega

theorem Inv.prune (h : Inv s) (now : Nat) : Inv (s.prune now) := by
  refine ⟨h.slots, fun j => (h.sound j).unlist (fun hrun => ?_) mem_of_mem_prune,
    nodup_prune h.nodup, Nat.le_succ_of_le (length_prune h)⟩
  exact ⟨mem_of_mem_prune, fun hj => mem_prune_of_running hj hrun⟩

end Prune

/-! ## §4 Steps -/

section Steps

variable {s : State} {j : Nat} {b : Job}

/-- One job changes, and with it the free slots and the table. -/
theorem inv_change {free : Nat} {table : List Nat}
    (hslots : Balanced SLOTS free fun i => (Function.update s.jobs j b i).holds)
    (hb : b.Sound (j ∈ table)) (hothers : ∀ i, i ≠ j → (s.jobs i).Sound (i ∈ table))
    (hnodup : table.Nodup) (hbounded : table.length ≤ BOUND + 1) :
    Inv ⟨free, Function.update s.jobs j b, table⟩ := by
  refine ⟨hslots, fun i => ?_, hnodup, hbounded⟩
  by_cases hi : i = j
  · rw [hi]
    show (Function.update s.jobs j b j).Sound (j ∈ table)
    rw [Function.update_self]
    exact hb
  · show (Function.update s.jobs j b i).Sound (i ∈ table)
    rw [Function.update_of_ne hi]
    exact hothers i hi

theorem holds_update_of_ne {i : Nat} (hi : i ≠ j) :
    (Function.update s.jobs j b i).holds = (s.jobs i).holds := by rw [Function.update_of_ne hi]

theorem holds_update_self : (Function.update s.jobs j b j).holds = b.holds := by
  rw [Function.update_self]

/-- The job holds a slot as before. -/
theorem Inv.same (h : Inv s) (hholds : b.holds = (s.jobs j).holds) :
    Balanced SLOTS s.free fun i => (Function.update s.jobs j b i).holds := by
  refine h.slots.congr fun i => ?_
  by_cases hi : i = j
  · rw [hi, holds_update_self, hholds]
  · exact holds_update_of_ne hi

/-- A step of the job alone. -/
theorem Inv.goOn (h : Inv s) (hholds : b.holds = (s.jobs j).holds) (hb : b.Sound (j ∈ s.table)) :
    Inv (s.set j b) :=
  inv_change (h.same hholds) hb (fun i _ => h.sound i) h.nodup h.bounded

theorem release_set (s : State) (j : Nat) (b : Job) :
    (s.set j b).release j = ⟨if s.free < SLOTS then s.free + 1 else s.free,
      Function.update s.jobs j { b with released := b.released + 1 }, s.table⟩ := by
  show State.mk _ (Function.update (Function.update s.jobs j b) j _) _ = _
  rw [Function.update_idem]
  show State.mk _ (Function.update s.jobs j
    { Function.update s.jobs j b j with released := (Function.update s.jobs j b j).released + 1 }) _ = _
  rw [Function.update_self]
  rfl

/-- The job gives its slot back. -/
theorem Inv.release (h : Inv s) (hholds : (s.jobs j).holds = true)
    (hholds' : Job.holds { b with released := b.released + 1 } = false)
    (hb : Job.Sound { b with released := b.released + 1 } (j ∈ s.table)) :
    Inv ((s.set j b).release j) := by
  rw [release_set, if_pos (h.slots.free_lt hholds)]
  refine inv_change ?_ hb (fun i _ => h.sound i) h.nodup h.bounded
  refine h.slots.give hholds ?_ fun i hi => holds_update_of_ne hi
  rw [holds_update_self]
  exact hholds'

/-- No `submit` fails when the job is queued. -/
def Clean : Event → Prop
  | .submit _ .unstarted => False
  | _ => True

theorem Inv.acquire {s' : State} (h : Inv s) (hs : s.step (.acquire j) = some s') : Inv s' := by
  rw [step] at hs
  split at hs
  · rename_i hidle
    have hholds : (s.jobs j).holds = false := (h.sound j).idle_holds hidle
    split at hs
    · exact Option.some.inj hs ▸ h.goOn ((h.sound j).refuse hidle).2 ((h.sound j).refuse hidle).1
    · rename_i hfree
      obtain rfl := Option.some.inj hs
      refine inv_change ?_ ((h.sound j).acquire hidle) (fun i _ => h.sound i) h.nodup h.bounded
      refine h.slots.take hfree hholds ?_ fun i hi => holds_update_of_ne hi
      rw [holds_update_self]
      rfl
  · cases hs

theorem Inv.register {s' : State} {now : Nat} (h : Inv s)
    (hs : s.step (.register j now) = some s') : Inv s' := by
  rw [step] at hs
  split at hs
  · rename_i hacquired
    obtain rfl := Option.some.inj hs
    obtain ⟨hsound, hholds, hout⟩ := (h.sound j).register now hacquired
    have hnew : j ∉ (s.prune now).table := fun hj => hout (mem_of_mem_prune hj)
    refine inv_change (h.same hholds) (hsound (List.mem_append_right _ (List.mem_singleton_self j)))
      (fun i hi => ?_) ?_ ?_
    · refine ((h.prune now).sound i).unlist (fun _ => ?_) fun hmem => ?_
      · rw [List.mem_append, List.mem_singleton]
        exact ⟨fun hmem => hmem.resolve_right hi, Or.inl⟩
      · exact (List.mem_append.mp hmem).resolve_right fun hsame => hi (List.mem_singleton.mp hsame)
    · refine List.nodup_append.mpr ⟨nodup_prune h.nodup, List.nodup_singleton j, fun i hi i' hi' => ?_⟩
      rw [List.mem_singleton.mp hi']
      exact fun heq => hnew (heq ▸ hi)
    · rw [List.length_append]
      exact Nat.succ_le_succ (length_prune h)
  · cases hs

theorem Inv.submit {s' : State} {r : Submission} (h : Inv s) (hclean : Clean (.submit j r))
    (hs : s.step (.submit j r) = some s') : Inv s' := by
  unfold step at hs
  dsimp only at hs
  split at hs
  · rename_i hstage
    exact Option.some.inj hs ▸ h.goOn ((h.sound j).queue hstage).2 ((h.sound j).queue hstage).1
  · rename_i hstage
    exact Option.some.inj hs ▸ h.goOn ((h.sound j).fail hstage).2 ((h.sound j).fail hstage).1
  · exact absurd hclean id
  · cases hs

theorem Inv.pop {s' : State} (h : Inv s) (hs : s.step (.pop j) = some s') : Inv s' := by
  rw [step] at hs
  split at hs
  · rename_i hfailed
    obtain rfl := Option.some.inj hs
    have hout : j ∉ s.table.filter fun i => i ≠ j := fun hj =>
      of_decide_eq_true (List.mem_filter.mp hj).2 rfl
    refine inv_change (h.same ((h.sound j).pop hfailed hout).2) ((h.sound j).pop hfailed hout).1
      (fun i hi => ?_) (h.nodup.filter _) (Nat.le_trans (List.length_filter_le _ _) h.bounded)
    refine (h.sound i).unlist (fun _ => ?_) List.mem_of_mem_filter
    exact ⟨List.mem_of_mem_filter, fun hmem => List.mem_filter.mpr ⟨hmem, decide_eq_true hi⟩⟩
  · cases hs

/-- **Step.** -/
theorem step_inv {s' : State} {e : Event} (h : Inv s) (hclean : Clean e) (hs : s.step e = some s') :
    Inv s' := by
  cases e with
  | acquire j => exact h.acquire hs
  | register j now => exact h.register hs
  | submit j r => exact h.submit hclean hs
  | pop j => exact h.pop hs
  | giveBack j =>
      rw [step] at hs
      split at hs
      · rename_i hpopped
        obtain ⟨hsound, hholds⟩ := (h.sound j).giveBack hpopped
        exact Option.some.inj hs ▸ h.release hholds hsound.2 hsound.1
      · cases hs
  | start j =>
      rw [step] at hs
      split at hs
      · rename_i hqueued
        exact Option.some.inj hs ▸ h.goOn ((h.sound j).call hqueued).2 ((h.sound j).call hqueued).1
      · cases hs
  | finish j ok now =>
      rw [step] at hs
      split at hs
      · rename_i hcalling
        obtain ⟨hsound, hholds⟩ := (h.sound j).finish ok now hcalling
        exact Option.some.inj hs ▸ h.goOn hholds hsound
      · cases hs
  | release j =>
      rw [step] at hs
      split at hs
      · rename_i hending
        obtain ⟨hsound, hholds⟩ := (h.sound j).finishRelease hending
        exact Option.some.inj hs ▸ h.release hholds hsound.2 hsound.1
      · cases hs
  | prune now => exact Option.some.inj hs ▸ h.prune now

end Steps

/-! ## §5 Runs -/

theorem start_inv : Inv start := by
  refine ⟨Balanced.all_free, fun j => ?_, List.nodup_nil, Nat.zero_le _⟩
  exact ⟨rfl, rfl, List.not_mem_nil⟩

/-- **Accounts**, in every state of every run in which no `submit` raises after it has queued the
job. -/
theorem jobs_accounted (es : List Event) (hclean : ∀ e ∈ es, Clean e) :
    machine.Always Accounted start es :=
  Machine.always_of_guarded (fun _ (h : Inv _) => h.accounted)
    (fun _ _ _ h hok hs => step_inv h hok hs) start_inv
    (Machine.guarded_of_mem (fun e he _ => hclean e he) start)

/-- A job that runs, and one that the pool refuses. -/
theorem refusedJob_accounted : machine.Always Accounted start
    [.acquire 0, .register 0 5, .submit 0 .queued, .acquire 1, .register 1 6, .submit 1 .refused,
      .pop 1, .start 0, .giveBack 1, .finish 0 true 7, .release 0] :=
  jobs_accounted _ (by simp [Clean])

/-- No thread can be started for the second job, and the thread of the first runs it later: its slot
is given back twice, and one more is free than there should be. -/
theorem doubleRelease_unbalanced : ¬ ∀ es, machine.Always Accounted start es := by
  intro h
  have hend := Machine.Always.last (h [.acquire 0, .register 0 5, .submit 0 .queued, .acquire 1,
    .register 1 6, .submit 1 .unstarted, .pop 1, .giveBack 1, .start 1, .finish 1 true 7,
    .release 1]) rfl
  obtain ⟨holders, hholders, hsum⟩ := hend.slots
  have hpos : 0 < holders.card := Finset.card_pos.mpr ⟨0, (hholders 0).mpr (by decide)⟩
  have hfull : SLOTS + holders.card = SLOTS := hsum
  omega

end State

end NetPulse.Jobs
