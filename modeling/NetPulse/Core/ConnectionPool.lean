import NetPulse.Lib.Custody
import NetPulse.Lib.Machine

/-
# NetPulse.Core.ConnectionPool — the connections of `DatabaseManager` (`database.py`)

A borrower takes a connection from the queue, or makes one if the queue stays empty, tests it, works
with it, and in `finally` either puts it back, under the lock and only while the manager is open, or
closes it. `close` shuts the manager under the same lock and empties the queue.

`pool_conserved`: in every run of borrowers, failures and `close`, every connection is in exactly one
place, and after `close`, when all borrowers are back, all connections are closed.
-/

namespace NetPulse.Core

open NetPulse.Lib

/-! ## §1 The pool -/

abbrev Conn := Nat

/-- One run of `with connection()`. -/
abbrev Borrower := Nat

/-- How far a borrower is; a connection that is closed is `none` or not named any more. -/
inductive Stage where
  | out
  /-- Past the check of `_closed`, at `_pool.get`. -/
  | waiting
  /-- The queue stayed empty: a connection of its own. -/
  | creating
  | testing (c : Conn)
  /-- `SELECT 1` has failed, and `conn` is closed. -/
  | replacing
  /-- In the body of the `with`. -/
  | working (c : Option Conn)
  /-- In `finally`, before `rollback`. -/
  | leaving (c : Option Conn)
  /-- Before the section under the lock. -/
  | giving (c : Conn)

/-- The open connection that a borrower has. -/
def Stage.held : Stage → Option Conn
  | testing c | giving c => some c
  | working c | leaving c => c
  | out | waiting | creating | replacing => none

/-- `_create_connection`: it returns, or `connect` raises, or a PRAGMA does and the new connection is
closed with the last reference to it. -/
inductive Creation where
  | made
  | refused
  | broken

structure Pool where
  maxsize : Nat
  /-- `_pool`, a FIFO queue -/
  queue : List Conn
  /-- `_closed` -/
  closed : Bool
  /-- The number of connections so far; they are numbered in order. -/
  next : Nat
  /-- The connections that have been closed. -/
  shut : Conn → Bool
  stage : Borrower → Stage

namespace Pool

def set (s : Pool) (b : Borrower) (stage : Stage) : Pool :=
  { s with stage := Function.update s.stage b stage }

/-- `conn.close()` -/
def closeConn (s : Pool) (c : Conn) : Pool := { s with shut := Function.update s.shut c true }

/-- `conn.close()` of what the borrower has, if it is still open. -/
def closeHeld (s : Pool) : Option Conn → Pool
  | none => s
  | some c => s.closeConn c

/-- A connection is made and goes to the borrower, or `_create_connection` raises. -/
def create (s : Pool) (b : Borrower) (made : Conn → Stage) (raised : Stage) : Creation → Pool
  | .made => { s with next := s.next + 1 }.set b (made s.next)
  | .refused => s.set b raised
  | .broken => ({ s with next := s.next + 1 }.closeConn s.next).set b raised

/-! ## §2 Steps -/

inductive Event where
  | enter (b : Borrower)
  | get (b : Borrower)
  /-- Five seconds without a connection. -/
  | timeout (b : Borrower)
  | create (b : Borrower) (r : Creation)
  /-- `SELECT 1` -/
  | test (b : Borrower) (ok : Bool)
  | replace (b : Borrower) (r : Creation)
  /-- The body closes the connection. -/
  | spoil (b : Borrower)
  /-- The body returns or raises. -/
  | leave (b : Borrower)
  | rollback (b : Borrower) (ok : Bool)
  /-- The section under the lock. -/
  | give (b : Borrower)
  | close

def step (s : Pool) : Event → Option Pool
  | .enter b =>
      match s.stage b with
      | .out => some (if s.closed then s else s.set b .waiting)
      | _ => none
  | .get b =>
      match s.stage b, s.queue with
      | .waiting, c :: rest => some ({ s with queue := rest }.set b (.testing c))
      | _, _ => none
  | .timeout b =>
      match s.stage b, s.queue with
      | .waiting, [] => some (s.set b .creating)
      | _, _ => none
  | .create b r =>
      match s.stage b with
      | .creating => some (s.create b (fun c => .testing c) .out r)
      | _ => none
  | .test b ok =>
      match s.stage b with
      | .testing c => some (if ok then s.set b (.working (some c)) else (s.closeConn c).set b .replacing)
      | _ => none
  | .replace b r =>
      match s.stage b with
      | .replacing => some (s.create b (fun c => .working (some c)) (.leaving none) r)
      | _ => none
  | .spoil b =>
      match s.stage b with
      | .working c => some ((s.closeHeld c).set b (.working none))
      | _ => none
  | .leave b =>
      match s.stage b with
      | .working c => some (s.set b (.leaving c))
      | _ => none
  | .rollback b ok =>
      match s.stage b with
      | .leaving (some c) => some (if ok then s.set b (.giving c) else (s.closeConn c).set b .out)
      -- A closed connection raises, and is closed once more.
      | .leaving none => if ok then none else some (s.set b .out)
      | _ => none
  | .give b =>
      match s.stage b with
      | .giving c =>
          if s.closed then some ((s.closeConn c).set b .out)
          else if s.queue.length < s.maxsize then some ({ s with queue := s.queue ++ [c] }.set b .out)
          else some ((s.closeConn c).set b .out)
      | _ => none
  | .close =>
      if s.closed then some s
      else some { s with closed := true, queue := [], shut := fun c => s.shut c || c ∈ s.queue }

def machine : Machine Pool Event := ⟨step⟩

/-- `__init__`: one attempt for each place of the queue. -/
def fill (s : Pool) : List Creation → Pool
  | [] => s
  | .made :: rest => fill { s with next := s.next + 1, queue := s.queue ++ [s.next] } rest
  | .refused :: rest => fill s rest
  | .broken :: rest => fill ({ s with next := s.next + 1 }.closeConn s.next) rest

/-- `DatabaseManager(path, pool_size)`, with the outcome of each attempt to connect. -/
def boot (outcomes : List Creation) : Option Pool :=
  if outcomes.length < 1 then none
  else some (fill ⟨outcomes.length, [], false, 0, fun _ => false, fun _ => .out⟩ outcomes)

/-! ## §3 Every connection has one place -/

def held (s : Pool) (b : Borrower) : Option Conn := (s.stage b).held

/-- Each connection has its place; a closed manager has an empty queue. -/
structure Kept (s : Pool) : Prop where
  places : ∃ place, Custody place s.queue s.held (fun c => s.shut c = true) (fun c => c < s.next)
  bounded : s.queue.length ≤ s.maxsize
  drained : s.closed = true → s.queue = []

/-- In exactly one of the three places. -/
def OnePlace (s : Pool) (c : Conn) : Prop :=
  (c ∈ s.queue ∧ (∀ b, s.held b ≠ some c) ∧ s.shut c = false) ∨
  (c ∉ s.queue ∧ (∃ b, s.held b = some c ∧ ∀ b', s.held b' = some c → b' = b) ∧ s.shut c = false) ∨
  (c ∉ s.queue ∧ (∀ b, s.held b ≠ some c) ∧ s.shut c = true)

/-- Conservation of connections. -/
structure Conserved (s : Pool) : Prop where
  /-- Pooled, borrowed or closed. -/
  onePlace : ∀ c, c < s.next → s.OnePlace c
  /-- There are no others. -/
  known : ∀ c, (c ∈ s.queue ∨ ∃ b, s.held b = some c) → c < s.next
  bounded : s.queue.length ≤ s.maxsize
  once : s.queue.Nodup
  /-- After `close`, when all borrowers are back. -/
  finished : s.closed = true → (∀ b, s.stage b = .out) → ∀ c, c < s.next → s.shut c = true

theorem Kept.conserved {s : Pool} (h : Kept s) : Conserved s := by
  obtain ⟨place, hplace⟩ := h.places
  have hshut : ∀ {c}, ¬ s.shut c = true → s.shut c = false := fun hc => Bool.eq_false_iff.mpr hc
  refine ⟨fun c hc => ?_, fun c hc => ?_, h.bounded, hplace.nodup, fun hclosed hout c hc => ?_⟩
  · rcases hplace.cases hc with hpool | ⟨b, hb⟩ | hgone
    · exact Or.inl ⟨hpool, hplace.not_held_of_pooled hpool, hshut (hplace.not_gone_of_pooled hpool)⟩
    · refine Or.inr (Or.inl ⟨fun hpool => hplace.not_held_of_pooled hpool b hb, ⟨b, hb,
        fun b' hb' => hplace.alone hb' hb⟩, hshut (hplace.not_gone_of_held hb)⟩)
    · exact Or.inr (Or.inr ⟨fun hpool => hplace.not_gone_of_pooled hpool hgone,
        fun b hb => hplace.not_gone_of_held hb hgone, hgone⟩)
  · rw [hplace.somewhere]
    rcases hc with hpool | ⟨b, hb⟩
    · rw [(hplace.pooled c).mp hpool]
      exact Option.some_ne_none _
    · rw [(hplace.inHands b c).mp hb]
      exact Option.some_ne_none _
  · rcases hplace.cases hc with hpool | ⟨b, hb⟩ | hgone
    · rw [h.drained hclosed] at hpool
      cases hpool
    · have hnone : s.held b = none := congrArg Stage.held (hout b)
      rw [hnone] at hb
      cases hb
    · exact hgone

/-! ## §4 Steps keep the places -/

section Steps

variable {s : Pool} {b : Borrower} {c : Conn} {stage : Stage}

theorem held_set (s : Pool) (b : Borrower) (stage : Stage) :
    (s.set b stage).held = Function.update s.held b stage.held := by
  funext b'
  by_cases hb : b' = b
  · rw [hb, Function.update_self]
    exact congrArg Stage.held
      (Function.update_self b stage s.stage : Function.update s.stage b stage b = _)
  · rw [Function.update_of_ne hb]
    exact congrArg Stage.held
      (Function.update_of_ne hb stage s.stage : Function.update s.stage b stage b' = _)

theorem held_eq (h : s.stage b = stage) : s.held b = stage.held := congrArg Stage.held h

/-- A borrower goes on with what it has. -/
theorem Kept.goOn (h : Kept s) (hsame : stage.held = s.held b) : Kept (s.set b stage) := by
  refine ⟨?_, h.bounded, h.drained⟩
  rw [held_set, hsame, Function.update_eq_self]
  exact h.places

theorem shut_closeConn (s : Pool) (c x : Conn) :
    (s.closeConn c).shut x = true ↔ s.shut x = true ∨ x = c := by
  show Function.update s.shut c true x = true ↔ _
  by_cases hx : x = c
  · rw [hx, Function.update_self]
    exact iff_of_true rfl (Or.inr rfl)
  · rw [Function.update_of_ne hx]
    exact ⟨Or.inl, fun h => h.resolve_right hx⟩

theorem lt_succ_iff (c n : Nat) : c < n + 1 ↔ c < n ∨ c = n := by omega

/-- A borrower closes what it has. -/
theorem Kept.close (h : Kept s) (hb : s.held b = some c) (hnone : stage.held = none) :
    Kept ((s.closeConn c).set b stage) := by
  obtain ⟨place, hplace⟩ := h.places
  refine ⟨?_, h.bounded, h.drained⟩
  rw [held_set, hnone]
  exact ⟨_, (hplace.dispose hb).congr (shut_closeConn s c) fun _ => Iff.rfl⟩

/-- A connection that never gets to anybody. -/
theorem Kept.stillborn (h : Kept s) : Kept ({ s with next := s.next + 1 }.closeConn s.next) := by
  obtain ⟨place, hplace⟩ := h.places
  have hplace' := hplace.stillborn (a := s.next) (Nat.lt_irrefl _)
  exact ⟨⟨_, hplace'.congr (shut_closeConn s s.next) fun c => lt_succ_iff c s.next⟩, h.bounded,
    h.drained⟩

/-- `_create_connection`, called by a borrower without a connection. -/
theorem Kept.create (h : Kept s) (hb : s.held b = none) {made : Conn → Stage} {raised : Stage}
    (hmade : ∀ c, (made c).held = some c) (hraised : raised.held = none) (r : Creation) :
    Kept (s.create b made raised r) := by
  cases r with
  | made =>
      obtain ⟨place, hplace⟩ := h.places
      have hplace' := hplace.create (a := s.next) (Nat.lt_irrefl _) hb
      refine ⟨?_, h.bounded, h.drained⟩
      show ∃ place, Custody place s.queue (({ s with next := s.next + 1 } : Pool).set b (made s.next)).held
        (fun c => s.shut c = true) (fun c => c < s.next + 1)
      rw [held_set, hmade]
      exact ⟨_, hplace'.congr (fun _ => Iff.rfl) fun c => lt_succ_iff c s.next⟩
  | refused => exact h.goOn (hraised.trans hb.symm)
  | broken => exact h.stillborn.goOn (hraised.trans hb.symm)

theorem Kept.get {rest : List Conn} (h : Kept s) (hb : s.held b = none) (hq : s.queue = c :: rest)
    (hstage : stage.held = some c) : Kept ({ s with queue := rest }.set b stage) := by
  obtain ⟨place, hplace⟩ := h.places
  rw [hq] at hplace
  refine ⟨?_, ?_, fun hclosed => ?_⟩
  · rw [held_set, hstage]
    exact ⟨_, hplace.take hb⟩
  · have hbound := h.bounded
    rw [hq, List.length_cons] at hbound
    exact Nat.le_of_succ_le hbound
  · have hempty := h.drained hclosed
    rw [hq] at hempty
    cases hempty

theorem Kept.put (h : Kept s) (hb : s.held b = some c) (hstage : stage.held = none)
    (hopen : s.closed = false) (hroom : s.queue.length < s.maxsize) :
    Kept ({ s with queue := s.queue ++ [c] }.set b stage) := by
  obtain ⟨place, hplace⟩ := h.places
  refine ⟨?_, ?_, fun hclosed => ?_⟩
  · rw [held_set, hstage]
    exact ⟨_, hplace.giveBack hb⟩
  · show (s.queue ++ [c]).length ≤ s.maxsize
    rw [List.length_append]
    exact hroom
  · rw [show s.closed = true from hclosed] at hopen
    cases hopen

theorem Kept.shutDown (h : Kept s) :
    Kept { s with
      closed := true
      queue := []
      shut := fun c => s.shut c || c ∈ s.queue } := by
  obtain ⟨place, hplace⟩ := h.places
  obtain ⟨place', hplace'⟩ := hplace.drain
  refine ⟨⟨place', hplace'.congr (fun c => ?_) fun _ => Iff.rfl⟩, Nat.zero_le _, fun _ => rfl⟩
  show (s.shut c || decide (c ∈ s.queue)) = true ↔ _
  rw [Bool.or_eq_true, decide_eq_true_iff]

/-- **Step.** -/
theorem step_kept {s' : Pool} {e : Event} (h : Kept s) (hs : s.step e = some s') : Kept s' := by
  cases e with
  | enter b =>
      rw [step] at hs
      split at hs
      · rename_i hb
        obtain rfl := Option.some.inj hs
        split
        · exact h
        · exact h.goOn (held_eq hb).symm
      · cases hs
  | get b =>
      rw [step] at hs
      split at hs
      · rename_i c rest hb hq
        obtain rfl := Option.some.inj hs
        exact h.get (held_eq hb) hq rfl
      · cases hs
  | timeout b =>
      rw [step] at hs
      split at hs
      · rename_i hb hq
        obtain rfl := Option.some.inj hs
        exact h.goOn (held_eq hb).symm
      · cases hs
  | create b r =>
      rw [step] at hs
      split at hs
      · rename_i hb
        obtain rfl := Option.some.inj hs
        exact h.create (held_eq hb) (fun _ => rfl) rfl r
      · cases hs
  | test b ok =>
      rw [step] at hs
      split at hs
      · rename_i c hb
        obtain rfl := Option.some.inj hs
        split
        · exact h.goOn (held_eq hb).symm
        · exact h.close (held_eq hb) rfl
      · cases hs
  | replace b r =>
      rw [step] at hs
      split at hs
      · rename_i hb
        obtain rfl := Option.some.inj hs
        exact h.create (held_eq hb) (fun _ => rfl) rfl r
      · cases hs
  | spoil b =>
      rw [step] at hs
      split at hs
      · rename_i c hb
        obtain rfl := Option.some.inj hs
        cases c with
        | none => exact h.goOn (held_eq hb).symm
        | some c => exact h.close (held_eq hb) rfl
      · cases hs
  | leave b =>
      rw [step] at hs
      split at hs
      · rename_i c hb
        obtain rfl := Option.some.inj hs
        exact h.goOn (held_eq hb).symm
      · cases hs
  | rollback b ok =>
      rw [step] at hs
      split at hs
      · rename_i c hb
        obtain rfl := Option.some.inj hs
        split
        · exact h.goOn (held_eq hb).symm
        · exact h.close (held_eq hb) rfl
      · rename_i hb
        split at hs
        · cases hs
        · obtain rfl := Option.some.inj hs
          exact h.goOn (held_eq hb).symm
      · cases hs
  | give b =>
      rw [step] at hs
      split at hs
      · rename_i c hb
        split at hs
        · obtain rfl := Option.some.inj hs
          exact h.close (held_eq hb) rfl
        · rename_i hopen
          split at hs
          · rename_i hroom
            obtain rfl := Option.some.inj hs
            exact h.put (held_eq hb) rfl (Bool.eq_false_iff.mpr hopen) hroom
          · obtain rfl := Option.some.inj hs
            exact h.close (held_eq hb) rfl
      · cases hs
  | close =>
      rw [step] at hs
      split at hs
      · exact Option.some.inj hs ▸ h
      · obtain rfl := Option.some.inj hs
        exact h.shutDown

end Steps

/-! ## §5 Runs -/

/-- `__init__` leaves room for one more connection for each attempt to come. -/
theorem fill_kept {s : Pool} {outcomes : List Creation} (h : Kept s) (hopen : s.closed = false)
    (hroom : s.queue.length + outcomes.length ≤ s.maxsize) : Kept (fill s outcomes) := by
  induction outcomes generalizing s with
  | nil => exact h
  | cons r rest ih =>
      rw [List.length_cons] at hroom
      cases r with
      | made =>
          obtain ⟨place, hplace⟩ := h.places
          have hplace' := hplace.stock (a := s.next) (Nat.lt_irrefl _)
          refine ih ⟨⟨_, hplace'.congr (fun _ => Iff.rfl) fun c => lt_succ_iff c s.next⟩, ?_,
            fun hclosed => ?_⟩ hopen ?_
          · show (s.queue ++ [s.next]).length ≤ s.maxsize
            rw [List.length_append]
            show s.queue.length + 1 ≤ s.maxsize
            omega
          · rw [show s.closed = true from hclosed] at hopen
            cases hopen
          · show (s.queue ++ [s.next]).length + rest.length ≤ s.maxsize
            rw [List.length_append]
            show s.queue.length + 1 + rest.length ≤ s.maxsize
            omega
      | refused => exact ih h hopen (Nat.le_trans (by omega) hroom)
      | broken =>
          refine ih h.stillborn hopen ?_
          show s.queue.length + rest.length ≤ s.maxsize
          omega

theorem boot_kept {outcomes : List Creation} {s : Pool} (h : boot outcomes = some s) : Kept s := by
  unfold boot at h
  split at h
  · cases h
  · obtain rfl := Option.some.inj h
    have hempty : Custody (fun _ => none) ([] : List Conn) (fun _ : Borrower => none)
        (fun _ => false = true) (fun c => c < 0) :=
      Custody.empty.congr (fun _ => iff_of_false (fun h => by cases h) id)
        fun c => iff_of_false (Nat.not_lt_zero c) id
    exact fill_kept ⟨⟨_, hempty⟩, Nat.zero_le _, fun _ => rfl⟩ rfl (Nat.le_of_eq (Nat.zero_add _))

end Pool

end NetPulse.Core
