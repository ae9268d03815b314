import NetPulse.Lib.Machine
import NetPulse.Mesh.Pipe

/-
# NetPulse.Mesh.PipeRuns — one producer and one consumer (`internal_modules/memory.py`)

A producer puts its items and then ends the pipe, in one of three ways: `StreamRegistry.close` waits
for a place for the sentinel, `Pipe.fail` and the end of the dispatcher do without the sentinel when
there is none. The consumer looks at the flag `_closed` before it waits and not while it waits, so a
consumer that waits must be woken by an element of the queue (`Reader.waiting`).

Every step keeps `Running`: what is received, followed by what is in the queue, is what was put. A
pipe without its sentinel was full when it was closed, so the consumer that reads the last item
meets the flag instead, and `pipe_fifo` holds for the three ends alike. Only the bound depends on
the length of the buffer: to `asyncio` a length of zero or less is no bound.
-/

namespace NetPulse.Mesh.PipeRuns

open NetPulse.Lib

variable {D : Type*}

/-! ## §1 Steps -/

/-- How the producer ends the pipe. -/
inductive Ending where
  /-- `StreamRegistry.close` -/
  | close
  /-- `Pipe.fail` -/
  | fail (e : String)
  /-- the normal end of `Dispatcher.run` -/
  | dispatcher

/-- What the iteration is to end with: the error, or nothing. -/
def Ending.error : Ending → Option String
  | .fail e => some e
  | .close | .dispatcher => none

/-- Where the consumer is. -/
inductive Reader where
  /-- between two steps of its iteration -/
  | idle
  /-- in `self.get()` -/
  | waiting
  /-- the iteration is over, with an exception or without -/
  | done (error : Option String)
  deriving DecidableEq

structure State (D : Type*) where
  /-- what the producer is still to put, and what it has put -/
  todo : List D
  put : List D := []
  pipe : Pipe D
  ended : Bool := false
  reader : Reader := .idle
  received : List D := []

inductive Event where
  | put
  | finish
  | next

/-- `self.get()` on a queue that is not empty, and what `__anext__` makes of it. -/
def getNext (p : Pipe D) : Next D :=
  match p.queue with
  | [] => .blocked
  | .chunk d :: rest => .item d { p with queue := rest }
  | .sentinel :: rest => ({ p with queue := rest } : Pipe D).finish

/-- The end of the pipe; `close` waits for a place. -/
def endPipe (p : Pipe D) : Ending → Option (Pipe D)
  | .close => (p.put .sentinel).map Pipe.close
  | .fail e => some (p.fail e)
  | .dispatcher => some (p.putNowait .sentinel).close

namespace State

/-- What the consumer has of a step of its iteration. -/
def read (s : State D) : Next D → Option (State D)
  | .item d rest =>
      some { s with pipe := rest, reader := .idle, received := s.received ++ [d] }
  | .stop rest => some { s with pipe := rest, reader := .done none }
  | .raised e rest => some { s with pipe := rest, reader := .done (some e) }
  | .blocked => if s.reader = .waiting then none else some { s with reader := .waiting }

/-- A `put` that finds no place is a step that is not possible yet. -/
def step (ending : Ending) (s : State D) : Event → Option (State D)
  | .put =>
      match s.todo with
      | [] => none
      | d :: rest =>
          (s.pipe.put (.chunk d)).map fun pipe =>
            { s with todo := rest, put := s.put ++ [d], pipe := pipe }
  | .finish =>
      if s.todo = [] ∧ s.ended = false then
        (endPipe s.pipe ending).map fun pipe => { s with pipe := pipe, ended := true }
      else none
  | .next =>
      match s.reader with
      | .idle => s.read s.pipe.anext
      | .waiting => s.read (getNext s.pipe)
      | .done _ => none

end State

def machine (ending : Ending) : Machine (State D) Event := ⟨State.step ending⟩

/-- Before the first `put`. -/
def start (items : List D) (buffLen : Int) : State D where
  todo := items
  pipe := { buffLen := buffLen }

/-- A bounded queue, in order, read to its end. -/
structure Fifo (items : List D) (buffLen : Int) (ending : Ending) (s : State D) : Prop where
  received : s.received <+: s.put
  put : s.put <+: items
  held : 1 ≤ buffLen → (s.pipe.chunks.length : Int) ≤ buffLen
  done : ∀ error, s.reader = .done error → s.received = items ∧ error = ending.error

/-! ## §2 The invariant -/

structure Running (items : List D) (buffLen : Int) (ending : Ending) (s : State D) : Prop where
  sound : s.pipe.Sound
  length : s.pipe.buffLen = buffLen
  conserved : s.put = s.received ++ s.pipe.chunks
  todo : s.put ++ s.todo = items
  bounded : 1 ≤ buffLen → (s.pipe.queue.length : Int) ≤ buffLen
  closed : s.pipe.closed = s.ended
  ended : s.ended = true → s.todo = []
  error : s.pipe.error = if s.ended then ending.error else none
  done : ∀ error, s.reader = .done error →
    s.ended = true ∧ s.pipe.chunks = [] ∧ error = ending.error
  /-- A consumer that waits for an element will have one. -/
  awake : s.reader = .waiting → s.ended = true → s.pipe.queue ≠ []

section

variable {items : List D} {buffLen : Int} {ending : Ending} {s t : State D}

theorem Running.start (items : List D) (buffLen : Int) (ending : Ending) :
    Running items buffLen ending (start items buffLen) where
  sound := ⟨Or.inl rfl⟩
  length := rfl
  conserved := rfl
  todo := rfl
  bounded := fun h => by
    show (0 : Int) ≤ buffLen
    omega
  closed := rfl
  ended := fun h => by cases h
  error := rfl
  done := fun _ h => by cases h
  awake := fun h => by cases h

theorem chunks_length_le (p : Pipe D) : p.chunks.length ≤ p.queue.length := by
  unfold Pipe.chunks
  induction p.queue with
  | nil => exact le_rfl
  | cons x rest ih =>
      cases x with
      | chunk d => simpa [chunksOf] using ih
      | sentinel =>
          show (chunksOf rest).length ≤ rest.length + 1
          omega

theorem Running.fifo (h : Running items buffLen ending s) : Fifo items buffLen ending s where
  received := ⟨s.pipe.chunks, h.conserved.symm⟩
  put := ⟨s.todo, h.todo⟩
  held := fun hlen => by
    have hchunks := chunks_length_le s.pipe
    have hqueue := h.bounded hlen
    omega
  done := fun error hdone => by
    obtain ⟨hended, hchunks, herror⟩ := h.done error hdone
    have hput := h.todo
    rw [h.ended hended, h.conserved, hchunks] at hput
    exact ⟨by simpa using hput, herror⟩

/-! ## §3 The producer's steps -/

/-- A place is found below the bound only. -/
theorem push_bounded {p q : Pipe D} {x : Item D} (hput : p.put x = some q) (hlen : 1 ≤ p.buffLen) :
    q = p.push x ∧ (q.queue.length : Int) ≤ p.buffLen := by
  unfold Pipe.put at hput
  split at hput
  · cases hput
  · rename_i hfull
    cases hput
    refine ⟨rfl, ?_⟩
    have hroom : (p.queue.length : Int) < p.buffLen := by
      by_contra hno
      exact hfull ⟨by omega, by omega⟩
    show ((p.queue ++ [x]).length : Int) ≤ p.buffLen
    rw [List.length_append, List.length_singleton]
    omega

theorem Running.put (h : Running items buffLen ending s) {d : D} {rest : List D} {pipe : Pipe D}
    (htodo : s.todo = d :: rest) (hput : s.pipe.put (.chunk d) = some pipe) :
    Running items buffLen ending { s with todo := rest, put := s.put ++ [d], pipe := pipe } := by
  have hopen : s.ended = false := by
    cases hended : s.ended with
    | false => rfl
    | true =>
        have hnil := h.ended hended
        rw [htodo] at hnil
        cases hnil
  have hpush := Pipe.put_eq hput
  subst hpush
  refine
    { sound := h.sound.push_chunk (h.closed.trans hopen) d
      length := h.length
      conserved := ?_
      todo := ?_
      bounded := fun hlen => ?_
      closed := h.closed
      ended := fun hended => ?_
      error := h.error
      done := fun error hdone => ?_
      awake := fun _ _ => by simp [Pipe.push] }
  · show s.put ++ [d] = s.received ++ (s.pipe.push (.chunk d)).chunks
    rw [Pipe.chunks_push_chunk, h.conserved, List.append_assoc]
  · show s.put ++ [d] ++ rest = items
    rw [← h.todo, htodo, List.append_assoc]
    rfl
  · rw [← h.length] at hlen ⊢
    exact (push_bounded hput hlen).2
  · exact absurd hended (by simp [hopen])
  · exact absurd (h.done error hdone).1 (by simp [hopen])

/-- What the three ends have in common: the chunks stay as they are, the flag is set and the error
recorded, and a full pipe may go without the sentinel. -/
structure EndSpec (p : Pipe D) (ending : Ending) (q : Pipe D) : Prop where
  sound : q.Sound
  buffLen : q.buffLen = p.buffLen
  chunks : q.chunks = p.chunks
  bounded : 1 ≤ p.buffLen → (p.queue.length : Int) ≤ p.buffLen → (q.queue.length : Int) ≤ p.buffLen
  closed : q.closed = true
  error : q.error = ending.error
  nonempty : q.queue ≠ []

theorem putNowait_bounded (p : Pipe D) (x : Item D) (hlen : 1 ≤ p.buffLen)
    (hbound : (p.queue.length : Int) ≤ p.buffLen) :
    ((p.putNowait x).queue.length : Int) ≤ p.buffLen := by
  by_cases hfull : p.isFull
  · rw [Pipe.putNowait, if_pos hfull]
    exact hbound
  · rw [Pipe.putNowait, if_neg hfull]
    exact (push_bounded (p := p) (x := x) (by rw [Pipe.put, if_neg hfull]) hlen).2

/-- A full pipe has an element already. -/
theorem putNowait_nonempty (p : Pipe D) (x : Item D) : (p.putNowait x).queue ≠ [] := by
  unfold Pipe.putNowait
  split
  · rename_i hfull
    exact hfull.ne_nil
  · simp [Pipe.push]

theorem EndSpec.of_putNowait {p : Pipe D} (hsound : p.Sound) (hopen : p.closed = false)
    (herror : p.error = ending.error) : EndSpec p ending (p.putNowait .sentinel).close where
  sound := hsound.close hopen
  buffLen := p.putNowait_buffLen .sentinel
  chunks := p.chunks_putNowait_sentinel
  bounded := putNowait_bounded p .sentinel
  closed := rfl
  error := (p.putNowait_error .sentinel).trans herror
  nonempty := putNowait_nonempty p .sentinel

/-- `Pipe.fail`, `StreamRegistry.close` and the end of the dispatcher. -/
theorem endPipe_spec {p q : Pipe D} (hsound : p.Sound) (hopen : p.closed = false)
    (herror : p.error = none) (hend : endPipe p ending = some q) : EndSpec p ending q := by
  cases ending with
  | close =>
      obtain ⟨r, hput, rfl⟩ := Option.map_eq_some_iff.mp hend
      -- the sentinel found a place, as it does without waiting
      have hroom : r = p.putNowait .sentinel := by
        unfold Pipe.put at hput
        split at hput
        · cases hput
        · rename_i hfull
          rw [Pipe.putNowait, if_neg hfull]
          exact (Option.some.inj hput).symm
      rw [hroom]
      exact EndSpec.of_putNowait hsound hopen herror
  | fail e =>
      cases hend
      have hspec : EndSpec { p with error := some e } (.fail e) (p.fail e) :=
        EndSpec.of_putNowait (p := { p with error := some e }) ⟨hsound.shape⟩ hopen rfl
      exact ⟨hspec.sound, hspec.buffLen, hspec.chunks, hspec.bounded, hspec.closed, hspec.error,
        hspec.nonempty⟩
  | dispatcher =>
      cases hend
      exact EndSpec.of_putNowait hsound hopen herror

theorem Running.finish (h : Running items buffLen ending s) (htodo : s.todo = [])
    (hopen : s.ended = false) {pipe : Pipe D} (hend : endPipe s.pipe ending = some pipe) :
    Running items buffLen ending { s with pipe := pipe, ended := true } := by
  have herror : s.pipe.error = none := by
    rw [h.error, hopen]
    rfl
  have hspec := endPipe_spec h.sound (h.closed.trans hopen) herror hend
  refine
    { sound := hspec.sound
      length := hspec.buffLen.trans h.length
      conserved := ?_
      todo := h.todo
      bounded := fun hlen => ?_
      closed := hspec.closed
      ended := fun _ => htodo
      error := hspec.error
      done := fun error hdone => ?_
      awake := fun _ _ => hspec.nonempty }
  · show s.put = s.received ++ pipe.chunks
    rw [hspec.chunks]
    exact h.conserved
  · rw [← h.length] at hlen ⊢
    refine hspec.bounded hlen ?_
    rw [h.length] at hlen ⊢
    exact h.bounded hlen
  · exact absurd (h.done error hdone).1 (by simp [hopen])

/-! ## §4 The consumer's steps -/

/-- A consumer that comes to a queue with an element does the same, whether it had to wait for it or
not. -/
theorem getNext_eq_anext {p : Pipe D} (hqueue : p.queue ≠ []) : getNext p = p.anext := by
  cases hq : p.queue with
  | nil => exact absurd hq hqueue
  | cons x rest => cases x <;> simp [getNext, Pipe.anext, hq]

theorem getNext_spec {p : Pipe D} (hsound : p.Sound) : Pipe.NextSpec p (getNext p) := by
  by_cases hqueue : p.queue = []
  · have hblocked : getNext p = .blocked := by
      unfold getNext
      rw [hqueue]
    rw [hblocked]
    exact .blocked hqueue
  · rw [getNext_eq_anext hqueue]
    exact hsound.anext

/-- The end of the iteration, behind the last chunk of a closed pipe. -/
theorem Running.toDone (h : Running items buffLen ending s) {rest : Pipe D}
    (hchunks : s.pipe.chunks = []) (hrest : rest.queue = []) (hbuff : rest.buffLen = s.pipe.buffLen)
    (hclosed : s.pipe.closed = true) (hrestc : rest.closed = true)
    (herror : rest.error = s.pipe.error) :
    Running items buffLen ending { s with pipe := rest, reader := .done s.pipe.error } := by
  have hended : s.ended = true := h.closed ▸ hclosed
  have hwhole : rest.chunks = [] := by
    unfold Pipe.chunks
    rw [hrest]
    rfl
  refine
    { sound := ⟨Or.inl (by rw [hwhole, hrest]; rfl)⟩
      length := hbuff.trans h.length
      conserved := ?_
      todo := h.todo
      bounded := fun hbound => ?_
      closed := hrestc.trans hended.symm
      ended := h.ended
      error := herror.trans h.error
      done := fun error hnow => ?_
      awake := fun hwaiting => by cases hwaiting }
  · show s.put = s.received ++ rest.chunks
    rw [hwhole, h.conserved, hchunks]
  · show (rest.queue.length : Int) ≤ buffLen
    rw [hrest]
    show (0 : Int) ≤ buffLen
    omega
  · cases hnow
    refine ⟨hended, hwhole, ?_⟩
    rw [h.error, hended]
    rfl

/-- A step of the iteration that meets what `NextSpec` says; one that has to wait does so on an open
pipe. -/
theorem Running.read (h : Running items buffLen ending s) {n : Next D}
    (hspec : Pipe.NextSpec s.pipe n) (hstop : ∀ rest, n = .stop rest → s.pipe.error = none)
    (hopen : n = .blocked → s.reader ≠ .waiting → s.ended = false) (hread : s.read n = some t) :
    Running items buffLen ending t := by
  cases hspec with
  | item d rest hchunks hlen hbuff hclosed herror hsound =>
      cases hread
      refine
        { sound := hsound
          length := hbuff.trans h.length
          conserved := ?_
          todo := h.todo
          bounded := fun hbound => ?_
          closed := hclosed.trans h.closed
          ended := h.ended
          error := herror.trans h.error
          done := fun _ hidle => by cases hidle
          awake := fun hidle => by cases hidle }
      · show s.put = s.received ++ [d] ++ rest.chunks
        rw [h.conserved, hchunks, List.append_assoc]
        rfl
      · have hqueue := h.bounded hbound
        show (rest.queue.length : Int) ≤ buffLen
        omega
  | stop rest hchunks hrest hbuff hclosed hrestc herror =>
      cases hread
      have hdone := h.toDone hchunks hrest hbuff hclosed hrestc herror
      rw [hstop rest rfl] at hdone
      exact hdone
  | raised e rest hchunks hrest hbuff hclosed hrestc herror hfailed =>
      cases hread
      have hdone := h.toDone hchunks hrest hbuff hclosed hrestc herror
      rw [hfailed] at hdone
      exact hdone
  | blocked hempty =>
      simp only [State.read] at hread
      split at hread
      · cases hread
      · rename_i hnot
        cases hread
        exact
          { h with
            done := fun _ hwaiting => by cases hwaiting
            awake := fun _ hended => absurd hended (by simp [hopen rfl hnot]) }

/-- A closed pipe never makes its consumer wait. -/
theorem anext_blocked {p : Pipe D} (h : p.anext = .blocked) : p.closed = false := by
  cases hclosed : p.closed with
  | false => rfl
  | true =>
      unfold Pipe.anext Pipe.finish at h
      split at h
      · split at h <;> cases h
      · rename_i hend
        split at h
        · rename_i hempty
          exact absurd ⟨by simpa using hclosed, hempty⟩ hend
        · cases h
        · split at h <;> cases h

theorem Running.next (h : Running items buffLen ending s) (hstep : s.step ending .next = some t) :
    Running items buffLen ending t := by
  cases hreader : s.reader with
  | idle =>
      simp only [State.step, hreader] at hstep
      refine h.read h.sound.anext (fun rest hn => Pipe.anext_stop hn) (fun hn _ => ?_) hstep
      rw [← h.closed]
      exact anext_blocked hn
  | waiting =>
      simp only [State.step, hreader] at hstep
      refine h.read (getNext_spec h.sound) (fun rest hn => ?_) (fun _ hno => absurd hreader hno)
        hstep
      -- an end that was waited for has an element before it
      have hqueue : s.pipe.queue ≠ [] := by
        intro hempty
        rw [getNext, hempty] at hn
        cases hn
      exact Pipe.anext_stop ((getNext_eq_anext hqueue).symm.trans hn)
  | done error =>
      simp only [State.step, hreader] at hstep
      cases hstep

/-- The consumer's step is none of the producer's. -/
theorem next_frame (hstep : s.step ending .next = some t) : t.put = s.put ∧ t.ended = s.ended := by
  have hread : ∀ n : Next D, s.read n = some t → t.put = s.put ∧ t.ended = s.ended := by
    intro n hn
    cases n with
    | item d rest =>
        cases hn
        exact ⟨rfl, rfl⟩
    | stop rest =>
        cases hn
        exact ⟨rfl, rfl⟩
    | raised e rest =>
        cases hn
        exact ⟨rfl, rfl⟩
    | blocked =>
        simp only [State.read] at hn
        split at hn
        · cases hn
        · cases hn
          exact ⟨rfl, rfl⟩
  simp only [State.step] at hstep
  split at hstep
  · exact hread _ hstep
  · exact hread _ hstep
  · cases hstep

/-! ## §5 Runs -/

/-- Every step keeps the invariant. -/
theorem Running.step (h : Running items buffLen ending s) {ev : Event}
    (hstep : (machine ending).step s ev = some t) : Running items buffLen ending t := by
  cases ev with
  | put =>
      simp only [machine, State.step] at hstep
      cases htodo : s.todo with
      | nil =>
          rw [htodo] at hstep
          cases hstep
      | cons d rest =>
          rw [htodo] at hstep
          obtain ⟨pipe, hput, rfl⟩ := Option.map_eq_some_iff.mp hstep
          exact h.put htodo hput
  | finish =>
      simp only [machine, State.step] at hstep
      split at hstep
      · rename_i hnow
        obtain ⟨pipe, hend, rfl⟩ := Option.map_eq_some_iff.mp hstep
        exact h.finish hnow.1 hnow.2 hend
      · cases hstep
  | next => exact h.next hstep

theorem read_of_ne_blocked {n : Next D} (hn : n ≠ .blocked) :
    ∃ t, s.read n = some t ∧ t.reader ≠ .waiting := by
  cases n with
  | item d rest => exact ⟨_, rfl, by simp⟩
  | stop rest => exact ⟨_, rfl, by simp⟩
  | raised e rest => exact ⟨_, rfl, by simp⟩
  | blocked => exact absurd rfl hn

theorem anext_of_ne_nil {p : Pipe D} (hqueue : p.queue ≠ []) : p.anext ≠ .blocked := by
  intro hblocked
  unfold Pipe.anext Pipe.finish at hblocked
  split at hblocked
  · split at hblocked <;> cases hblocked
  · split at hblocked
    · exact hqueue ‹_›
    · cases hblocked
    · split at hblocked <;> cases hblocked

/-- A consumer with an element before it can go on. -/
theorem next_of_ne_nil (ending : Ending) (hqueue : s.pipe.queue ≠ [])
    (hnot : ∀ error, s.reader ≠ .done error) :
    ∃ t, (machine ending).step s .next = some t ∧ t.reader ≠ .waiting := by
  have hread := read_of_ne_blocked (s := s) (anext_of_ne_nil hqueue)
  cases hreader : s.reader with
  | idle => simpa only [machine, State.step, hreader] using hread
  | waiting => simpa only [machine, State.step, hreader, getNext_eq_anext hqueue] using hread
  | done error => exact absurd hreader (hnot error)

/-- A consumer of an ended pipe is not left waiting: its next step is possible, and is an item or
the end. -/
theorem next_of_ended (h : Running items buffLen ending s) (hended : s.ended = true)
    (hnot : ∀ error, s.reader ≠ .done error) :
    ∃ t, (machine ending).step s .next = some t ∧ t.reader ≠ .waiting := by
  by_cases hqueue : s.pipe.queue = []
  · cases hreader : s.reader with
    | idle =>
        have hanext : s.pipe.anext ≠ .blocked := fun hblocked => by
          have hopen := anext_blocked hblocked
          rw [h.closed, hended] at hopen
          cases hopen
        simpa only [machine, State.step, hreader] using read_of_ne_blocked (s := s) hanext
    | waiting => exact absurd hqueue (h.awake hreader hended)
    | done error => exact absurd hreader (hnot error)
  · exact next_of_ne_nil ending hqueue hnot

end

/-- **A pipe is a FIFO queue**, whatever its length and however it ends: at every moment of every
run the items received are a prefix of the items put, a pipe of a length of at least one holds no
more items than that, and an iteration that is over has received every item and ended as the pipe
was ended. -/
theorem pipe_fifo (items : List D) (buffLen : Int) (ending : Ending) (es : List Event) :
    (machine ending).Always (Fifo items buffLen ending) (start items buffLen) es :=
  Machine.always_of_guarded (fun _ (h : Running items buffLen ending _) => h.fifo)
    (fun _ _ _ h (_ : True) hstep => h.step hstep) (Running.start items buffLen ending)
    (Machine.guarded_of_forall (fun _ _ => trivial) _ _)

/-- A pipe of length zero holds an item: to its queue zero is no bound. -/
theorem pipe_length_zero :
    ¬ (machine .close).Always (fun s => (s.pipe.chunks.length : Int) ≤ s.pipe.buffLen)
      (start [()] 0) [.put] := by
  intro h
  have hheld : (1 : Int) ≤ 0 := h.2 _ rfl
  omega

end NetPulse.Mesh.PipeRuns
