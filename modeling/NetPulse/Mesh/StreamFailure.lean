import NetPulse.Lib.Machine
import NetPulse.Mesh.Pipe

/-
# NetPulse.Mesh.StreamFailure — a remote failure at the consumer of a mesh stream

An ERROR for a registered stream goes to `StreamRegistry.fail`, which is to give the consumer the
error in place of a normal end of the stream. `Pipe.fail` records the error in the pipe, but the
iterator that `Router.stream` returns, `_MeshStreamIterator`, does not look there, and it does not
look at `_closed` before it waits either.

So the sentinel decides (`failure_outcome`): with a place for it in the queue, the consumer meets a
normal end after the chunks, and without one it waits for ever. No run ends with the error
(`failure_unreported`).
-/

namespace NetPulse.Mesh.StreamFailure

open NetPulse.Lib

variable {D : Type*}

/-! ## §1 Steps -/

/-- How an iteration is over. -/
inductive Outcome where
  /-- `StopAsyncIteration` -/
  | stopped
  /-- the error of the pipe -/
  | failed (e : String)
  /-- `send_stream_ack` raised -/
  | ackFailed (e : String)
  deriving DecidableEq

/-- Where the consumer is in `_MeshStreamIterator.__anext__`. -/
inductive Reader (D : Type*) where
  | idle
  /-- in `self._pipe.get()` -/
  | waiting
  /-- in `send_stream_ack`, with the chunk in hand -/
  | acking (d : D)
  | done (o : Outcome)
  deriving DecidableEq

structure State (D : Type*) where
  pipe : Pipe D
  registered : Bool := true
  /-- the error given to `StreamRegistry.fail` -/
  failure : Option String := none
  /-- the chunk of a `feed` that waits for a place -/
  suspended : Option D := none
  /-- the chunks given to `feed` while the stream was registered -/
  fed : List D := []
  sinceAck : Nat := 0
  reader : Reader D := .idle
  received : List D := []

inductive Event (D : Type*) where
  | feed (d : D)
  /-- the `put` of a suspended `feed` finds a place -/
  | resume
  /-- an ERROR pack with the label; `error` is its field -/
  | fail (error : Option String)
  | next
  /-- `send_stream_ack` returns, or raises -/
  | acked (error : Option String)

/-- `pack.error or 'producer failed'` -/
def failureText : Option String → String
  | some "" | none => "producer failed"
  | some e => e

namespace State

/-- What `__anext__` does with what it has taken from the queue. -/
def take (s : State D) : Next D → Option (State D)
  | .item d rest =>
      if s.pipe.buffLen ≤ (s.sinceAck + 1 : Nat) then
        some { s with pipe := rest, sinceAck := s.sinceAck + 1, reader := .acking d }
      else
        some { s with
          pipe := rest, sinceAck := s.sinceAck + 1, reader := .idle, received := s.received ++ [d] }
  | .stop rest => some { s with pipe := rest, reader := .done .stopped }
  | .raised e rest => some { s with pipe := rest, reader := .done (.failed e) }
  | .blocked =>
      match s.reader with
      | .idle => some { s with reader := .waiting }
      | _ => none

/-- What comes for a stream that is not registered is not for this consumer. -/
def step (s : State D) : Event D → Option (State D)
  | .feed d =>
      if s.suspended.isSome then none
      else if s.registered = false then some s
      else if s.pipe.isFull then some { s with suspended := some d, fed := s.fed ++ [d] }
      else some { s with pipe := s.pipe.push (.chunk d), fed := s.fed ++ [d] }
  | .resume =>
      match s.suspended with
      | none => none
      | some d => (s.pipe.put (.chunk d)).map fun pipe => { s with pipe := pipe, suspended := none }
  | .fail error =>
      if s.registered then
        some { s with
          pipe := s.pipe.fail (failureText error)
          registered := false
          failure := some (failureText error) }
      else some s
  | .next =>
      match s.reader with
      | .idle | .waiting => s.take s.pipe.meshNext
      | .acking _ | .done _ => none
  | .acked error =>
      match s.reader, error with
      | .acking d, none =>
          some { s with sinceAck := 0, reader := .idle, received := s.received ++ [d] }
      | .acking _, some e => some { s with reader := .done (.ackFailed e) }
      | _, _ => none

end State

def machine : Machine (State D) (Event D) := ⟨State.step⟩

/-- The stream as `Router.stream` registers it. -/
def start (buffLen : Int) : State D where
  pipe := { buffLen := buffLen }

/-- Nothing goes on by itself: no step of the consumer, none of a suspended `feed`. -/
def Quiet (s : State D) : Prop :=
  s.step .next = none ∧ (∀ error, s.step (.acked error) = none) ∧ s.step .resume = none

/-- What the consumer is to have of a failure. -/
def Reported (s : State D) : Prop :=
  ∀ e, s.failure = some e → s.reader = .done (.failed e) ∧ s.received = s.fed

/-! ## §2 What a step can do -/

/-- The consumer is about to take from the queue. -/
def Reader.Taking : Reader D → Prop
  | .idle | .waiting => True
  | .acking _ | .done _ => False

/-- The steps, one constructor for each outcome. -/
inductive Moves (s : State D) : Event D → State D → Prop where
  | pushed (d : D) (hsuspended : s.suspended = none) (hreg : s.registered = true) :
      Moves s (.feed d) { s with pipe := s.pipe.push (.chunk d), fed := s.fed ++ [d] }
  | held (d : D) (hsuspended : s.suspended = none) (hreg : s.registered = true) :
      Moves s (.feed d) { s with suspended := some d, fed := s.fed ++ [d] }
  | dropped (d : D) (hreg : s.registered = false) : Moves s (.feed d) s
  | resumed (d : D) (hsuspended : s.suspended = some d) :
      Moves s .resume { s with pipe := s.pipe.push (.chunk d), suspended := none }
  | failed (error : Option String) (hreg : s.registered = true) :
      Moves s (.fail error)
        { s with
          pipe := s.pipe.fail (failureText error)
          registered := false
          failure := some (failureText error) }
  | elsewhere (error : Option String) (hreg : s.registered = false) : Moves s (.fail error) s
  | tookToAck (d : D) (rest : List (Item D)) (hreader : s.reader.Taking)
      (hqueue : s.pipe.queue = .chunk d :: rest) :
      Moves s .next
        { s with
          pipe := { s.pipe with queue := rest }
          sinceAck := s.sinceAck + 1
          reader := .acking d }
  | took (d : D) (rest : List (Item D)) (hreader : s.reader.Taking)
      (hqueue : s.pipe.queue = .chunk d :: rest) :
      Moves s .next
        { s with
          pipe := { s.pipe with queue := rest }
          sinceAck := s.sinceAck + 1
          reader := .idle
          received := s.received ++ [d] }
  | stopped (rest : List (Item D)) (hreader : s.reader.Taking)
      (hqueue : s.pipe.queue = .sentinel :: rest) :
      Moves s .next { s with pipe := { s.pipe with queue := rest }, reader := .done .stopped }
  | waits (hreader : s.reader = .idle) (hqueue : s.pipe.queue = []) :
      Moves s .next { s with reader := .waiting }
  | acked (d : D) (hreader : s.reader = .acking d) :
      Moves s (.acked none)
        { s with sinceAck := 0, reader := .idle, received := s.received ++ [d] }
  | ackFailed (d : D) (e : String) (hreader : s.reader = .acking d) :
      Moves s (.acked (some e)) { s with reader := .done (.ackFailed e) }

/-- A step of the iteration. The error of the pipe plays no part in it. -/
theorem moves_of_take {s t : State D} (hreader : s.reader.Taking)
    (h : s.take s.pipe.meshNext = some t) : Moves s .next t := by
  unfold Pipe.meshNext at h
  cases hqueue : s.pipe.queue with
  | nil =>
      rw [hqueue] at h
      simp only [State.take] at h
      split at h
      · cases h
        exact .waits ‹_› hqueue
      · cases h
  | cons x rest =>
      rw [hqueue] at h
      cases x with
      | chunk d =>
          simp only [State.take] at h
          split at h
          · cases h
            exact .tookToAck d rest hreader hqueue
          · cases h
            exact .took d rest hreader hqueue
      | sentinel =>
          cases h
          exact .stopped rest hreader hqueue

/-- **Inversion.** Every step is one of the moves. -/
theorem moves_of_step {s t : State D} {ev : Event D} (h : s.step ev = some t) : Moves s ev t := by
  cases ev with
  | feed d =>
      simp only [State.step] at h
      split at h
      · cases h
      · rename_i hsuspended
        have hnone : s.suspended = none := by simpa using hsuspended
        split at h
        · cases h
          exact .dropped d ‹_›
        · rename_i hreg
          have hreg' : s.registered = true := by simpa using hreg
          split at h
          · cases h
            exact .held d hnone hreg'
          · cases h
            exact .pushed d hnone hreg'
  | resume =>
      simp only [State.step] at h
      split at h
      · cases h
      · rename_i d hsuspended
        obtain ⟨pipe, hput, rfl⟩ := Option.map_eq_some_iff.mp h
        rw [Pipe.put_eq hput]
        exact .resumed d hsuspended
  | fail error =>
      simp only [State.step] at h
      split at h
      · cases h
        exact .failed error ‹_›
      · rename_i hreg
        cases h
        exact .elsewhere error (by simpa using hreg)
  | next =>
      simp only [State.step] at h
      cases hreader : s.reader with
      | idle =>
          rw [hreader] at h
          exact moves_of_take (by simp [hreader, Reader.Taking]) h
      | waiting =>
          rw [hreader] at h
          exact moves_of_take (by simp [hreader, Reader.Taking]) h
      | acking d =>
          rw [hreader] at h
          cases h
      | done o =>
          rw [hreader] at h
          cases h
  | acked error =>
      cases hreader : s.reader with
      | acking d =>
          cases error with
          | none =>
              simp only [State.step, hreader] at h
              cases h
              exact .acked d hreader
          | some e =>
              simp only [State.step, hreader] at h
              cases h
              exact .ackFailed d e hreader
      | idle =>
          simp only [State.step, hreader] at h
          cases h
      | waiting =>
          simp only [State.step, hreader] at h
          cases h
      | done o =>
          simp only [State.step, hreader] at h
          cases h

/-- A queue with an element never stops the consumer. -/
theorem take_of_ne_nil {s : State D} (hqueue : s.pipe.queue ≠ []) :
    s.take s.pipe.meshNext ≠ none := by
  unfold Pipe.meshNext
  cases hq : s.pipe.queue with
  | nil => exact absurd hq hqueue
  | cons x rest =>
      cases x with
      | chunk d =>
          simp only [State.take]
          split <;> simp
      | sentinel => simp [State.take]

/-- A quiet state: the consumer is through, or it waits at an empty queue with nothing to come. -/
theorem Quiet.cases {s : State D} (h : Quiet s) :
    (∃ o, s.reader = .done o) ∨
      s.reader = .waiting ∧ s.pipe.queue = [] ∧ s.suspended = none := by
  obtain ⟨hnext, hacked, hresume⟩ := h
  cases hreader : s.reader with
  | done o => exact Or.inl ⟨o, rfl⟩
  | acking d =>
      have hnone := hacked none
      simp [State.step, hreader] at hnone
  | idle =>
      simp only [State.step, hreader] at hnext
      have hempty : s.pipe.queue = [] := by
        by_contra hne
        exact take_of_ne_nil hne hnext
      simp [Pipe.meshNext, hempty, State.take, hreader] at hnext
  | waiting =>
      simp only [State.step, hreader] at hnext
      have hempty : s.pipe.queue = [] := by
        by_contra hne
        exact take_of_ne_nil hne hnext
      refine Or.inr ⟨rfl, hempty, ?_⟩
      cases hsuspended : s.suspended with
      | none => rfl
      | some d =>
          -- an empty queue has a place
          have hroom : ¬ s.pipe.isFull := fun hfull => hfull.ne_nil hempty
          simp [State.step, hsuspended, Pipe.put, hroom] at hresume

/-! ## §3 The chunks, in order -/

/-- The chunk in the hands of the consumer. -/
def Reader.hand : Reader D → List D
  | .acking d => [d]
  | .idle | .waiting | .done _ => []

/-- What is known of every state: the chunks received are the first that were fed, and until the
iteration is over the others are on their way. -/
structure Consuming (s : State D) : Prop where
  order : s.received <+: s.fed
  conserved : (∀ o, s.reader ≠ .done o) →
    s.fed = s.received ++ s.reader.hand ++ s.pipe.chunks ++ s.suspended.toList
  notFailed : ∀ e, s.reader ≠ .done (.failed e)
  registered : s.registered = true ↔ s.failure = none

theorem Consuming.start (buffLen : Int) : Consuming (start buffLen : State D) where
  order := List.prefix_rfl
  conserved := fun _ => rfl
  notFailed := fun _ h => by cases h
  registered := by simp [StreamFailure.start]

theorem Reader.Taking.not_done {r : Reader D} (h : r.Taking) (o : Outcome) : r ≠ .done o := by
  rintro rfl
  exact h

theorem Reader.Taking.hand {r : Reader D} (h : r.Taking) : r.hand = [] := by
  cases r with
  | idle => rfl
  | waiting => rfl
  | acking d => exact absurd h id
  | done o => exact absurd h id

/-- The next chunk goes to the consumer. -/
theorem Consuming.fed_eq {s : State D} (h : Consuming s) (hreader : s.reader.Taking) {d : D}
    {rest : List (Item D)} (hqueue : s.pipe.queue = .chunk d :: rest) :
    s.fed = s.received ++ [d] ++ chunksOf rest ++ s.suspended.toList := by
  have hfed := h.conserved hreader.not_done
  rw [hreader.hand, Pipe.chunks, hqueue, chunksOf] at hfed
  simpa using hfed

theorem prefix_append {xs ys : List D} (h : xs <+: ys) (d : D) : xs <+: ys ++ [d] :=
  h.trans (List.prefix_append ys [d])

/-- Every step keeps what is known. -/
theorem Consuming.step {s t : State D} (h : Consuming s) {ev : Event D}
    (hstep : machine.step s ev = some t) : Consuming t := by
  cases moves_of_step hstep with
  | pushed d hsuspended hreg =>
      refine ⟨prefix_append h.order d, fun hdone => ?_, h.notFailed, h.registered⟩
      have hfed := h.conserved hdone
      rw [hsuspended] at hfed
      simp [hsuspended, hfed]
  | held d hsuspended hreg =>
      refine ⟨prefix_append h.order d, fun hdone => ?_, h.notFailed, h.registered⟩
      have hfed := h.conserved hdone
      rw [hsuspended] at hfed
      simp [hfed]
  | dropped d hreg => exact h
  | resumed d hsuspended =>
      refine ⟨h.order, fun hdone => ?_, h.notFailed, h.registered⟩
      have hfed := h.conserved hdone
      rw [hsuspended] at hfed
      simpa using hfed
  | failed error hreg =>
      refine ⟨h.order, fun hdone => ?_, h.notFailed, by simp⟩
      have hfed := h.conserved hdone
      simpa using hfed
  | elsewhere error hreg => exact h
  | tookToAck d rest hreader hqueue =>
      exact ⟨h.order, fun _ => h.fed_eq hreader hqueue, (fun _ hdone => by cases hdone),
        h.registered⟩
  | took d rest hreader hqueue =>
      have hfed := h.fed_eq hreader hqueue
      refine ⟨⟨chunksOf rest ++ s.suspended.toList, ?_⟩, fun _ => ?_,
        (fun _ hdone => by cases hdone), h.registered⟩
      · rw [hfed]
        simp
      · simpa [Reader.hand, Pipe.chunks] using hfed
  | stopped rest hreader hqueue =>
      exact ⟨h.order, fun hdone => absurd rfl (hdone .stopped), (fun _ hdone => by cases hdone),
        h.registered⟩
  | waits hreader hqueue =>
      refine ⟨h.order, fun _ => ?_, (fun _ hdone => by cases hdone), h.registered⟩
      have hfed := h.conserved (by simp [hreader])
      simpa [hreader, Reader.hand] using hfed
  | acked d hreader =>
      have hfed := h.conserved (by simp [hreader])
      rw [hreader] at hfed
      refine ⟨⟨s.pipe.chunks ++ s.suspended.toList, ?_⟩, fun _ => ?_,
        (fun _ hdone => by cases hdone), h.registered⟩
      · rw [hfed]
        simp [Reader.hand]
      · simpa [Reader.hand] using hfed
  | ackFailed d e hreader =>
      exact ⟨h.order, fun hdone => absurd rfl (hdone (.ackFailed e)),
        (fun _ hdone => by cases hdone), h.registered⟩

/-! ## §4 The sentinel -/

/-- No sentinel was put. -/
def NoEnd (s : State D) : Prop := .sentinel ∉ s.pipe.queue ∧ s.reader ≠ .done .stopped

/-- The sentinel is ahead of the consumer, or the iteration is over. -/
def EndAhead (s : State D) : Prop := .sentinel ∈ s.pipe.queue ∨ ∃ o, s.reader = .done o

/-- Only a failure puts the sentinel. -/
theorem NoEnd.step {s t : State D} (h : NoEnd s) {ev : Event D}
    (hstep : machine.step s ev = some t) (hreg : t.registered = s.registered) : NoEnd t := by
  obtain ⟨hqueue, hreader⟩ := h
  cases moves_of_step hstep with
  | pushed d => exact ⟨by simpa [Pipe.push] using hqueue, hreader⟩
  | held d => exact ⟨hqueue, hreader⟩
  | dropped d => exact ⟨hqueue, hreader⟩
  | resumed d => exact ⟨by simpa [Pipe.push] using hqueue, hreader⟩
  | failed error hwas => exact absurd hreg (by simp [hwas])
  | elsewhere error => exact ⟨hqueue, hreader⟩
  | tookToAck d rest _ hq =>
      exact ⟨fun hmem => hqueue (hq ▸ List.mem_cons_of_mem _ hmem), by simp⟩
  | took d rest _ hq =>
      exact ⟨fun hmem => hqueue (hq ▸ List.mem_cons_of_mem _ hmem), by simp⟩
  | stopped rest _ hq => exact absurd (hq ▸ List.mem_cons_self) hqueue
  | waits => exact ⟨hqueue, by simp⟩
  | acked d => exact ⟨hqueue, by simp⟩
  | ackFailed d e => exact ⟨hqueue, by simp⟩

/-- A sentinel ahead stays ahead until the consumer meets it. -/
theorem EndAhead.step {s t : State D} (h : EndAhead s) (hreg : s.registered = false)
    {ev : Event D} (hstep : machine.step s ev = some t) : EndAhead t := by
  have hnot : s.reader.Taking → .sentinel ∈ s.pipe.queue := fun htaking =>
    h.resolve_right fun ⟨o, ho⟩ => htaking.not_done o ho
  cases moves_of_step hstep with
  | pushed d _ hwas => exact absurd hwas (by simp [hreg])
  | held d _ hwas => exact absurd hwas (by simp [hreg])
  | dropped d => exact h
  | resumed d => exact h.imp_left fun hmem => List.mem_append_left _ hmem
  | failed error hwas => exact absurd hwas (by simp [hreg])
  | elsewhere error => exact h
  | tookToAck d rest hreader hq =>
      have hmem := hnot hreader
      rw [hq] at hmem
      exact Or.inl (by simpa using hmem)
  | took d rest hreader hq =>
      have hmem := hnot hreader
      rw [hq] at hmem
      exact Or.inl (by simpa using hmem)
  | stopped rest => exact Or.inr ⟨_, rfl⟩
  | waits hreader => exact Or.inl (hnot (by simp [hreader, Reader.Taking]))
  | acked d hreader => exact Or.inl (h.resolve_right (by simp [hreader]))
  | ackFailed d e => exact Or.inr ⟨_, rfl⟩

/-- A stream once unregistered stays so. -/
theorem unregistered_step {s t : State D} {ev : Event D} (hstep : machine.step s ev = some t)
    (hreg : s.registered = false) : t.registered = false := by
  cases moves_of_step hstep <;> first | exact hreg | rfl

/-- While the stream is registered there is no sentinel. -/
theorem noEnd_of_registered {buffLen : Int} {es : List (Event D)} {s : State D}
    (hr : machine.run (start buffLen) es = some s) (hreg : s.registered = true) : NoEnd s := by
  have hstep : ∀ (s : State D) ev t, (s.registered = true → NoEnd s) →
      machine.step s ev = some t → t.registered = true → NoEnd t := by
    intro s ev t h hstep hnow
    have hwas : s.registered = true := by
      by_contra hno
      have hgone := unregistered_step hstep (by simpa using hno)
      rw [hnow] at hgone
      cases hgone
    exact (h hwas).step hstep (hnow.trans hwas.symm)
  have hstart : (start buffLen : State D).registered = true → NoEnd (start buffLen : State D) :=
    fun _ => ⟨by simp [start], by simp [start]⟩
  exact Machine.invariant hstep hstart hr hreg

/-- A failure puts the sentinel if it finds a place. -/
theorem fail_queue (p : Pipe D) (e : String) :
    (p.fail e).queue = if p.isFull then p.queue else p.queue ++ [.sentinel] := by
  have hfull : ({ p with error := some e } : Pipe D).isFull ↔ p.isFull := Iff.rfl
  show (({ p with error := some e } : Pipe D).putNowait .sentinel).queue = _
  unfold Pipe.putNowait
  by_cases h : p.isFull
  · rw [if_pos (hfull.mpr h), if_pos h]
  · rw [if_neg (mt hfull.mp h), if_neg h]
    rfl

/-! ## §5 Runs -/

theorem consuming_of_run {buffLen : Int} {es : List (Event D)} {t : State D}
    (hr : machine.run (start buffLen) es = some t) : Consuming t :=
  Machine.invariant (fun _ _ _ h hstep => h.step hstep) (Consuming.start buffLen) hr

/-- An end of the iteration other than with the error of the pipe. -/
theorem Consuming.outcome {t : State D} (h : Consuming t) {o : Outcome} (ho : t.reader = .done o) :
    o = .stopped ∨ ∃ e, o = .ackFailed e := by
  cases o with
  | stopped => exact Or.inl rfl
  | failed e => exact absurd ho (h.notFailed e)
  | ackFailed e => exact Or.inr ⟨e, rfl⟩

/-- Without a sentinel at the failure there is never one. -/
theorem noEnd_of_run {u t : State D} {fs : List (Event D)} (hgone : u.registered = false)
    (hend : NoEnd u) (hr : machine.run u fs = some t) : NoEnd t := by
  have hstep : ∀ (s : State D) ev t, s.registered = false ∧ NoEnd s →
      machine.step s ev = some t → t.registered = false ∧ NoEnd t := fun s ev t h hstep =>
    have hlater := unregistered_step hstep h.1
    ⟨hlater, h.2.step hstep (hlater.trans h.1.symm)⟩
  exact (Machine.invariant hstep ⟨hgone, hend⟩ hr).2

theorem endAhead_of_run {u t : State D} {fs : List (Event D)} (hgone : u.registered = false)
    (hend : EndAhead u) (hr : machine.run u fs = some t) : EndAhead t := by
  have hstep : ∀ (s : State D) ev t, s.registered = false ∧ EndAhead s →
      machine.step s ev = some t → t.registered = false ∧ EndAhead t := fun s ev t h hstep =>
    ⟨unregistered_step hstep h.1, h.2.step h.1 hstep⟩
  exact (Machine.invariant hstep ⟨hgone, hend⟩ hr).2

/-- **The outcome of a failure** is decided by the place for the sentinel: with one the iteration
ends normally, with none the consumer waits for ever, unless it could not send an ACK before. -/
theorem failure_outcome {buffLen : Int} {es fs : List (Event D)} {s u t : State D}
    {error : Option String} (hr : machine.run (start buffLen) es = some s)
    (hreg : s.registered = true)
    (hfail : machine.step s (.fail error) = some u) (hr' : machine.run u fs = some t)
    (hquiet : Quiet t) :
    (∃ e, t.reader = .done (.ackFailed e)) ∨
      if s.pipe.isFull then t.reader = .waiting ∧ t.received = t.fed
      else t.reader = .done .stopped := by
  have hend := noEnd_of_registered hr hreg
  have hconsuming : Consuming t :=
    Machine.invariant (fun _ _ _ h hstep => h.step hstep)
      ((consuming_of_run hr).step hfail) hr'
  have hu : u.registered = false ∧ u.reader = s.reader ∧
      u.pipe = s.pipe.fail (failureText error) := by
    have hmoves : Moves s (.fail error) u := moves_of_step hfail
    cases hmoves with
    | failed _ _ => exact ⟨rfl, rfl, rfl⟩
    | elsewhere _ hno => exact absurd hreg (by simp [hno])
  obtain ⟨hgone, hreader, hpipe⟩ := hu
  split
  · -- no place: nothing ahead but the chunks
    rename_i hfull
    have hnoEnd : NoEnd u := by
      refine ⟨?_, hreader ▸ hend.2⟩
      rw [hpipe, fail_queue, if_pos hfull]
      exact hend.1
    have hlast : NoEnd t := noEnd_of_run hgone hnoEnd hr'
    rcases hquiet.cases with ⟨o, ho⟩ | ⟨hwaiting, hqueue, hsuspended⟩
    · rcases hconsuming.outcome ho with rfl | ⟨e, rfl⟩
      · exact absurd ho hlast.2
      · exact Or.inl ⟨e, ho⟩
    · refine Or.inr ⟨hwaiting, ?_⟩
      have hfed := hconsuming.conserved (by simp [hwaiting])
      rw [hfed, hwaiting, hsuspended, Pipe.chunks, hqueue]
      simp [Reader.hand, chunksOf]
  · rename_i hroom
    have hahead : EndAhead u := by
      refine Or.inl ?_
      rw [hpipe, fail_queue, if_neg hroom]
      simp
    have hlast : EndAhead t := endAhead_of_run hgone hahead hr'
    have hdone : ∃ o, t.reader = .done o := by
      rcases hquiet.cases with hdone | ⟨_, hqueue, _⟩
      · exact hdone
      · refine hlast.resolve_left fun hmem => ?_
        rw [hqueue] at hmem
        cases hmem
    obtain ⟨o, ho⟩ := hdone
    rcases hconsuming.outcome ho with rfl | ⟨e, rfl⟩
    · exact Or.inr ho
    · exact Or.inl ⟨e, ho⟩

/-- What is left to do before a state is quiet. -/
def State.weight (s : State D) : Nat :=
  4 * s.suspended.toList.length + 3 * s.pipe.queue.length +
    match s.reader with
    | .acking _ => 2
    | .idle => 1
    | .waiting | .done _ => 0

/-- A step that the consumer takes, or a suspended `feed`. -/
def Event.Own : Event D → Prop
  | .next | .acked _ | .resume => True
  | .feed _ | .fail _ => False

theorem weight_step {s t : State D} {ev : Event D} (hown : ev.Own)
    (hstep : machine.step s ev = some t) : t.weight < s.weight := by
  cases moves_of_step hstep with
  | pushed => exact absurd hown id
  | held => exact absurd hown id
  | dropped => exact absurd hown id
  | failed => exact absurd hown id
  | elsewhere => exact absurd hown id
  | resumed d hsuspended =>
      simp only [State.weight, hsuspended, Pipe.push, List.length_append, Option.toList_none,
        Option.toList_some, List.length_singleton, List.length_nil]
      omega
  | tookToAck d rest _ hqueue =>
      simp only [State.weight, hqueue, List.length_cons]
      omega
  | took d rest _ hqueue =>
      simp only [State.weight, hqueue, List.length_cons]
      omega
  | stopped rest _ hqueue =>
      simp only [State.weight, hqueue, List.length_cons]
      omega
  | waits hreader =>
      simp only [State.weight, hreader]
      omega
  | acked d hreader =>
      simp only [State.weight, hreader]
      omega
  | ackFailed d e hreader =>
      simp only [State.weight, hreader]
      omega

/-- The own steps are at most the weight. -/
theorem length_le_weight {s t : State D} {es : List (Event D)} (hown : ∀ ev ∈ es, ev.Own)
    (hr : machine.run s es = some t) : es.length ≤ s.weight := by
  induction es generalizing s with
  | nil => exact Nat.zero_le _
  | cons ev es ih =>
      obtain ⟨hev, hes⟩ := List.forall_mem_cons.mp hown
      obtain ⟨u, hstep, hrest⟩ := (Machine.run_cons_eq_some machine).mp hr
      have hle := ih hes hrest
      have hlt := weight_step hev hstep
      rw [List.length_cons]
      omega

theorem quiet_reached (s : State D) :
    ∃ es t, (∀ ev ∈ es, ev.Own) ∧ machine.run s es = some t ∧ Quiet t := by
  induction hw : s.weight using Nat.strong_induction_on generalizing s with
  | h n ih =>
      have hmore : ∀ ev u, ev.Own → machine.step s ev = some u →
          ∃ es t, (∀ ev ∈ es, ev.Own) ∧ machine.run s es = some t ∧ Quiet t := by
        intro ev u hown hstep
        obtain ⟨es, t, hes, hr, ht⟩ := ih u.weight (hw ▸ weight_step hown hstep) u rfl
        refine ⟨ev :: es, t, ?_, (Machine.run_cons_eq_some machine).mpr ⟨u, hstep, hr⟩, ht⟩
        exact List.forall_mem_cons.mpr ⟨hown, hes⟩
      by_cases hquiet : Quiet s
      · exact ⟨[], s, by simp, rfl, hquiet⟩
      · -- one of the consumer's steps is possible
        have hpossible : ∃ ev u, ev.Own ∧ machine.step s ev = some u := by
          by_contra hno
          have hnone : ∀ ev : Event D, ev.Own → s.step ev = none := by
            intro ev hown
            by_contra hsome
            obtain ⟨u, hu⟩ := Option.ne_none_iff_exists'.mp hsome
            exact hno ⟨ev, u, hown, hu⟩
          exact hquiet ⟨hnone .next trivial, fun error => hnone (.acked error) trivial,
            hnone .resume trivial⟩
        obtain ⟨ev, u, hown, hstep⟩ := hpossible
        exact hmore ev u hown hstep

/-- **The consumer comes to rest** from every state, with no help from outside and in whatever order
it and the suspended `feed` go on. -/
theorem consumer_settles (s : State D) :
    (∀ es t, (∀ ev ∈ es, ev.Own) → machine.run s es = some t → es.length ≤ s.weight) ∧
      ∃ es t, (∀ ev ∈ es, ev.Own) ∧ machine.run s es = some t ∧ Quiet t :=
  ⟨fun _ _ hown hr => length_le_weight hown hr, quiet_reached s⟩

/-- **A failure is never reported.** In no state of any run in which a failure was registered has
the consumer the error, and in one where it has come to rest it has met a normal end, waits for
ever, or was ended by an ACK that could not be sent. -/
theorem failure_unreported {buffLen : Int} {es : List (Event D)} {t : State D}
    (hr : machine.run (start buffLen) es = some t) (hfailure : t.failure ≠ none) :
    ¬ Reported t ∧
      (Quiet t → t.reader = .done .stopped ∨ t.reader = .waiting ∨
        ∃ e, t.reader = .done (.ackFailed e)) := by
  have hconsuming := consuming_of_run hr
  constructor
  · intro hreported
    obtain ⟨e, he⟩ := Option.ne_none_iff_exists'.mp hfailure
    exact hconsuming.notFailed e (hreported e he).1
  · intro hquiet
    rcases hquiet.cases with ⟨o, ho⟩ | ⟨hwaiting, _, _⟩
    · rcases hconsuming.outcome ho with rfl | ⟨e, rfl⟩
      · exact Or.inl ho
      · exact Or.inr (Or.inr ⟨e, ho⟩)
    · exact Or.inr (Or.inl hwaiting)

/-- One chunk, then the failure, with the ten places that a pipe has by default. -/
def failedAtOne : List (Event Nat) := [.feed 1, .fail (some "boom"), .next, .next]

theorem failure_unreported_ten :
    ∃ t, machine.run (start 10) failedAtOne = some t ∧
      (¬ Reported t ∧
        (Quiet t → t.reader = .done .stopped ∨ t.reader = .waiting ∨
          ∃ e, t.reader = .done (.ackFailed e))) :=
  ⟨_, rfl, failure_unreported
    (show machine.run (start 10) failedAtOne = some _ from rfl) (by decide)⟩

theorem failure_outcome_ten :
    ∃ s u t, machine.run (start 10) [.feed (1 : Nat)] = some s ∧
      machine.step s (.fail (some "boom")) = some u ∧ machine.run u [.next, .next] = some t ∧
      ((∃ e, t.reader = .done (.ackFailed e)) ∨
        if s.pipe.isFull then t.reader = .waiting ∧ t.received = t.fed
        else t.reader = .done .stopped) :=
  ⟨_, _, _, rfl, rfl, rfl, failure_outcome
    (show machine.run (start 10) [.feed (1 : Nat)] = some _ from rfl) rfl
    (show machine.step _ (.fail (some "boom")) = some _ from rfl)
    (show machine.run _ [.next, .next] = some _ from rfl) ⟨rfl, fun _ => rfl, rfl⟩⟩

/-- The consumer has the chunk and then a normal end. -/
theorem stopped_normally :
    ¬ ∀ t, machine.run (start 10) failedAtOne = some t → Quiet t → Reported t := by
  intro h
  have hreported := h _ rfl ⟨rfl, fun _ => rfl, rfl⟩ "boom" rfl
  exact absurd hreported.1 (by decide)

end NetPulse.Mesh.StreamFailure
