import NetPulse.Lib.Loops
import NetPulse.Lib.Machine
import NetPulse.Lib.Spread
import NetPulse.Mesh.Pipe

/-
# NetPulse.Mesh.Spawning — the items of a spawned generator (`spawner.py`, `memory.py`)

`spawn` gives every worker a pipe and a transport, starts a dispatcher over the pipes, and answers.
The dispatcher puts each item of the generator into the pipe with the fewest items; a transport
opens a stream, and then sends what is in its pipe, with a wait for an ACK after each batch. A
transport that is refused, or waits for its ACK in vain, returns, and leaves its pipe to the
dispatcher.

`items_received` says when every item arrives: if no transport ends while its pipe has items or is
given more. `spawn` has answered long before, so that a loss is reported to nobody.
-/

namespace NetPulse.Mesh.Spawning

open NetPulse.Lib

/-! ## §1 Steps -/

/-- How far `_handshake_and_pump` is. -/
inductive Transport where
  | opening
  /-- In the loop of `_pump`, with `sent_in_batch`. -/
  | pumping (sent : Nat)
  /-- At `await asyncio.wait_for(ack_future)`. -/
  | acking
  | over

/-- What becomes of a chunk that is sent. -/
inductive Delivery where
  | received
  /-- `_send_pack` finds no transport. -/
  | dropped
  /-- The send raises, and the task ends. -/
  | raised

/-- Items and workers are numbered. -/
structure State where
  workers : Nat
  buff : Int
  next : Nat
  /-- The generator has ended, with an exception or without. -/
  ended : Option (Option String)
  outQ : List (Item Nat)
  /-- The item that the dispatcher has. -/
  hand : Option Nat
  /-- `run` has returned. -/
  finished : Bool
  pipe : Nat → Pipe Nat
  transport : Nat → Transport
  /-- What the consumer of a worker has received. -/
  received : Nat → List Nat

namespace State

/-- The size of `out_q`. -/
def places (s : State) : Int := max 1 (s.workers * s.buff)

/-- `_least_loaded` -/
def leastLoaded (s : State) : Option Nat :=
  ((List.range s.workers).filter fun w => ¬ (s.pipe w).isFull).argmin fun w =>
    (s.pipe w).queue.length

/-- The end of a pipe: `fail`, or the sentinel and `close`. -/
def endPipe (p : Pipe Nat) : Option String → Pipe Nat
  | some e => p.fail e
  | none => (p.putNowait .sentinel).close

def setTransport (s : State) (w : Nat) (transport : Transport) : State :=
  { s with transport := Function.update s.transport w transport }

def setPipe (s : State) (w : Nat) (p : Pipe Nat) : State :=
  { s with pipe := Function.update s.pipe w p }

/-- `sent_in_batch += 1` -/
def sentOne (s : State) (sent : Nat) : Transport :=
  if s.buff ≤ sent + 1 then .acking else .pumping (sent + 1)

/-- A chunk is sent. -/
def deliver (s : State) (w sent i : Nat) : Delivery → State
  | .received =>
      { s.setTransport w (s.sentOne sent) with
        received := Function.update s.received w (s.received w ++ [i]) }
  | .dropped => s.setTransport w (s.sentOne sent)
  | .raised => s.setTransport w .over

inductive Event where
  | produce
  /-- The generator ends. -/
  | produceEnd (error : Option String)
  /-- The dispatcher reads `out_q`. -/
  | take
  | assign
  /-- The handshake is accepted; or it is rejected, has no route or times out. -/
  | handshake (w : Nat) (ok : Bool)
  /-- One round of `_pump`. -/
  | pump (w : Nat) (d : Delivery)
  | ack (w : Nat) (ok : Bool)

def step (s : State) : Event → Option State
  | .produce =>
      if s.ended = none ∧ s.outQ.length < s.places then
        some
          { s with
            outQ := s.outQ ++ [.chunk s.next]
            next := s.next + 1 }
      else none
  | .produceEnd error =>
      if s.ended = none ∧ s.outQ.length < s.places then
        some
          { s with
            outQ := s.outQ ++ [.sentinel]
            ended := some error }
      else none
  | .take =>
      match s.finished, s.hand, s.outQ with
      | false, none, .chunk i :: rest =>
          some
            { s with
              outQ := rest
              hand := some i }
      | false, none, .sentinel :: rest =>
          some
            { s with
              outQ := rest
              finished := true
              pipe := fun w => endPipe (s.pipe w) s.ended.join }
      | _, _, _ => none
  | .assign =>
      match s.hand, s.leastLoaded with
      | some i, some w =>
          ((s.pipe w).put (.chunk i)).map fun p => { s.setPipe w p with hand := none }
      | _, _ => none
  | .handshake w ok =>
      match s.transport w with
      | .opening =>
          if w < s.workers then some (s.setTransport w (if ok then .pumping 0 else .over)) else none
      | _ => none
  | .pump w d =>
      match s.transport w with
      | .pumping sent =>
          match (s.pipe w).anext with
          | .item i rest => some ((s.setPipe w rest).deliver w sent i d)
          -- STREAM_EOF, or an ERROR for the consumer
          | .stop rest => some ((s.setPipe w rest).setTransport w .over)
          | .raised _ rest => some ((s.setPipe w rest).setTransport w .over)
          | .blocked => none
      | _ => none
  | .ack w ok =>
      match s.transport w with
      | .acking => some (s.setTransport w (if ok then .pumping 0 else .over))
      | _ => none

def machine : Machine State Event := ⟨step⟩

/-- After `spawn`. -/
def start (workers : Nat) (buff : Int) : State :=
  ⟨workers, buff, 0, none, [], none, false, fun _ => { buffLen := buff }, fun _ => .opening,
    fun _ => []⟩

/-! ## §2 Nothing is lost -/

/-- By the consumer of exactly one worker, once. -/
def ReceivedOnce (s : State) (i : Nat) : Prop :=
  ∃ w, w < s.workers ∧ (s.received w).count i = 1 ∧ ∀ w', i ∈ s.received w' → w' = w

structure NothingLost (s : State) : Prop where
  /-- No item is left with a transport that has ended. -/
  drained : ∀ w, s.transport w = .over → (s.pipe w).chunks = []
  /-- No consumer receives what another one has received, or twice. -/
  apart : ∀ i w w', i ∈ s.received w → i ∈ s.received w' → w = w'
  once : ∀ w, (s.received w).Nodup
  /-- When nothing more happens, the dispatcher has finished, and everything has been received. -/
  settled : (∀ e, s.step e = none) → s.finished = true ∧ ∀ i, i < s.next → s.ReceivedOnce i

/-- There is a worker for an item; a transport ends only if its pipe is empty, and then it is not
given more; every chunk that is sent arrives. -/
def Served (s : State) : Event → Prop
  | .take => s.outQ.head? ≠ some .sentinel → 0 < s.workers
  | .assign => ∀ w, s.leastLoaded = some w → s.transport w ≠ .over
  | .handshake w ok | .ack w ok => ok = true ∨ (s.pipe w).chunks = []
  | .pump _ d => d = .received
  | .produce | .produceEnd _ => True

/-- Where an item is. -/
inductive Spot where
  | queued
  | hand
  | piped (w : Nat)
  | got (w : Nat)

def contents (s : State) : Spot → List Nat
  | .queued => chunksOf s.outQ
  | .hand => s.hand.toList
  | .piped w => (s.pipe w).chunks
  | .got w => s.received w

/-- Chunks, then the sentinel once the generator has ended, and nothing when the dispatcher has
finished. -/
def QueueShape (s : State) : Prop :=
  (s.finished = true ∧ s.ended ≠ none ∧ s.outQ = []) ∨
  (s.finished = false ∧ s.ended = none ∧ s.outQ = (chunksOf s.outQ).map .chunk) ∨
  (s.finished = false ∧ s.ended ≠ none ∧ s.outQ = (chunksOf s.outQ).map .chunk ++ [.sentinel])

structure Kept (s : State) : Prop where
  spread : Spread s.contents fun i => i < s.next
  queue : s.QueueShape
  sound : ∀ w, (s.pipe w).Sound
  closed : ∀ w, (s.pipe w).closed = s.finished
  handed : s.hand ≠ none → s.finished = false ∧ 0 < s.workers
  drained : ∀ w, s.transport w = .over → (s.pipe w).chunks = []
  outside : ∀ w, s.workers ≤ w →
    s.transport w = .opening ∧ (s.pipe w).chunks = [] ∧ s.received w = []

/-! ## §3 The dispatcher -/

variable {s s' : State} {w : Nat}

theorem leastLoaded_some (h : s.leastLoaded = some w) :
    w < s.workers ∧ ¬ (s.pipe w).isFull := by
  obtain ⟨hmem, hroom⟩ := mem_of_argmin_filter h
  exact ⟨List.mem_range.mp hmem, hroom⟩

theorem leastLoaded_ne_none {w : Nat} (hw : w < s.workers) (hfull : ¬ (s.pipe w).isFull) :
    s.leastLoaded ≠ none :=
  argmin_filter_ne_none (List.mem_range.mpr hw) hfull

theorem endPipe_chunks (p : Pipe Nat) (e : Option String) : (endPipe p e).chunks = p.chunks := by
  rcases e with _ | e
  · exact p.chunks_putNowait_sentinel
  · exact p.chunks_fail e

theorem endPipe_sound {p : Pipe Nat} (h : p.Sound) (hopen : p.closed = false)
    (e : Option String) : (endPipe p e).Sound := by
  rcases e with _ | e
  · exact h.close hopen
  · exact h.fail hopen e

theorem endPipe_closed (p : Pipe Nat) (e : Option String) : (endPipe p e).closed = true := by
  rcases e with _ | e <;> rfl

theorem chunk_ne_sentinel (i : Nat) : (Item.chunk i : Item Nat) ≠ .sentinel := by
  intro h
  cases h

/-- The generator is at work. -/
theorem QueueShape.producing (h : s.QueueShape) (hended : s.ended = none) :
    s.finished = false ∧ s.outQ = (chunksOf s.outQ).map .chunk := by
  rcases h with ⟨-, hend, -⟩ | ⟨hfinished, -, hq⟩ | ⟨-, hend, -⟩
  · exact absurd hended hend
  · exact ⟨hfinished, hq⟩
  · exact absurd hended hend

theorem Kept.produce (h : Kept s) (hs : s.step .produce = some s') : Kept s' := by
  obtain ⟨⟨hended, -⟩, hs⟩ := Option.ite_none_right_eq_some.mp hs
  cases hs
  obtain ⟨hfinished, hq⟩ := h.queue.producing hended
  have hchunks : chunksOf (s.outQ ++ [.chunk s.next]) = chunksOf s.outQ ++ [s.next] :=
    Pipe.chunksOf_append _ _
  refine ⟨?_, Or.inr (Or.inl ⟨hfinished, hended, ?_⟩), h.sound, h.closed, h.handed, h.drained,
    h.outside⟩
  · refine h.spread.add .queued s.next (Nat.lt_irrefl _) ?_ (fun l hl => ?_) (fun i => ?_)
    · show (chunksOf (s.outQ ++ [.chunk s.next])).Perm (s.next :: chunksOf s.outQ)
      rw [hchunks]
      exact List.perm_append_singleton _ _
    · cases l with
      | queued => exact absurd rfl hl
      | hand | piped | got => rfl
    · show i < s.next + 1 ↔ i = s.next ∨ i < s.next
      omega
  · show s.outQ ++ [.chunk s.next] = (chunksOf (s.outQ ++ [.chunk s.next])).map .chunk
    rw [hchunks, List.map_append, ← hq]
    rfl

theorem Kept.produceEnd {error : Option String} (h : Kept s)
    (hs : s.step (.produceEnd error) = some s') : Kept s' := by
  obtain ⟨⟨hended, -⟩, hs⟩ := Option.ite_none_right_eq_some.mp hs
  cases hs
  obtain ⟨hfinished, hq⟩ := h.queue.producing hended
  have hchunks : chunksOf (s.outQ ++ [.sentinel]) = chunksOf s.outQ := by
    rw [Pipe.chunksOf_append]
    exact List.append_nil _
  refine ⟨h.spread.congr fun l => ?_, Or.inr (Or.inr ⟨hfinished, Option.some_ne_none _, ?_⟩),
    h.sound, h.closed, h.handed, h.drained, h.outside⟩
  · cases l with
    | queued => exact hchunks
    | hand | piped | got => rfl
  · show s.outQ ++ [.sentinel] = (chunksOf (s.outQ ++ [.sentinel])).map .chunk ++ [.sentinel]
    rw [hchunks, ← hq]

theorem QueueShape.tail {x : Item Nat} {rest : List (Item Nat)} (h : s.QueueShape)
    (hq : s.outQ = x :: rest) :
    (∃ i, x = .chunk i ∧ s.finished = false ∧ { s with outQ := rest }.QueueShape) ∨
      (x = .sentinel ∧ rest = [] ∧ s.ended ≠ none) := by
  rcases h with ⟨-, -, hnil⟩ | ⟨hfinished, hended, hshape⟩ | ⟨hfinished, hended, hshape⟩
  · rw [hq] at hnil
    exact absurd hnil (List.cons_ne_nil _ _)
  · rw [hq] at hshape
    rcases x with i | _
    · have htail := (List.cons.inj hshape).2
      exact Or.inl ⟨i, rfl, hfinished, Or.inr (Or.inl ⟨hfinished, hended, htail⟩)⟩
    · -- The generator is at work: the sentinel is not in the queue yet.
      exfalso
      rcases hc : chunksOf rest with _ | ⟨i, is⟩
      · have hshape' : Item.sentinel :: rest = (chunksOf rest).map .chunk := hshape
        rw [hc] at hshape'
        exact absurd hshape' (List.cons_ne_nil _ _)
      · have hshape' : Item.sentinel :: rest = (chunksOf rest).map .chunk := hshape
        rw [hc] at hshape'
        exact absurd (List.cons.inj hshape').1.symm (chunk_ne_sentinel i)
  · rw [hq] at hshape
    rcases x with i | _
    · have htail := (List.cons.inj hshape).2
      exact Or.inl ⟨i, rfl, hfinished, Or.inr (Or.inr ⟨hfinished, hended, htail⟩)⟩
    · -- No chunk comes after the sentinel, so that it is the last.
      refine Or.inr ⟨rfl, ?_, hended⟩
      have hshape' : Item.sentinel :: rest = (chunksOf rest).map .chunk ++ [.sentinel] := hshape
      rcases hc : chunksOf rest with _ | ⟨i, is⟩
      · rw [hc] at hshape'
        exact (List.cons.inj hshape').2
      · rw [hc] at hshape'
        exact absurd (List.cons.inj hshape').1.symm (chunk_ne_sentinel i)

theorem Kept.take (h : Kept s) (hok : s.Served .take) (hs : s.step .take = some s') : Kept s' := by
  unfold step at hs
  dsimp only at hs
  split at hs
  · -- A chunk, which the dispatcher holds until there is room for it.
    rename_i i rest hfinished hhand hq
    cases hs
    have hqueue : { s with outQ := rest }.QueueShape := by
      rcases h.queue.tail hq with ⟨_, -, -, hqueue⟩ | ⟨hx, -⟩
      · exact hqueue
      · exact absurd hx (chunk_ne_sentinel i)
    refine ⟨?_, hqueue, h.sound, h.closed, fun _ => ⟨hfinished, hok ?_⟩, h.drained, h.outside⟩
    · refine h.spread.move .queued .hand i Spot.noConfusion ?_ ?_
        (fun l hl hl' => ?_)
      · show (chunksOf s.outQ).Perm (i :: chunksOf rest)
        rw [hq]
        exact List.Perm.refl _
      · show (some i).toList.Perm (i :: s.hand.toList)
        rw [hhand]
        exact List.Perm.refl _
      · cases l with
        | queued => exact absurd rfl hl
        | hand => exact absurd rfl hl'
        | piped | got => rfl
    · rw [hq]
      intro hhead
      exact absurd (Option.some.inj hhead) (chunk_ne_sentinel i)
  · -- The sentinel: all pipes are closed or failed, and nothing in them is touched.
    rename_i rest hfinished hhand hq
    cases hs
    obtain ⟨hrest, hended⟩ : rest = [] ∧ s.ended ≠ none := by
      rcases h.queue.tail hq with ⟨i, hx, -⟩ | ⟨-, hrest, hended⟩
      · exact absurd hx.symm (chunk_ne_sentinel i)
      · exact ⟨hrest, hended⟩
    have hopen : ∀ w, (s.pipe w).closed = false := fun w => (h.closed w).trans hfinished
    refine ⟨h.spread.congr fun l => ?_, Or.inl ⟨rfl, hended, hrest⟩,
      fun w => endPipe_sound (h.sound w) (hopen w) _, fun w => endPipe_closed _ _,
      fun hsome => absurd hhand hsome, fun w hover => ?_, fun w hw => ?_⟩
    · cases l with
      | queued =>
          show chunksOf rest = chunksOf s.outQ
          rw [hq]
          rfl
      | piped w => exact endPipe_chunks _ _
      | hand | got => rfl
    · exact (endPipe_chunks _ _).trans (h.drained w hover)
    · obtain ⟨htransport, hchunks, hreceived⟩ := h.outside w hw
      exact ⟨htransport, (endPipe_chunks _ _).trans hchunks, hreceived⟩
  · exact absurd hs.symm (Option.some_ne_none _)

/-- One pipe changes. -/
theorem forall_setPipe {P : Nat → Pipe Nat → Prop} {p : Pipe Nat} (h : ∀ w', P w' (s.pipe w'))
    (hp : P w p) (w' : Nat) : P w' ((s.setPipe w p).pipe w') := by
  show P w' (Function.update s.pipe w p w')
  by_cases hw : w' = w
  · rw [hw, Function.update_self]
    exact hp
  · rw [Function.update_of_ne hw]
    exact h w'

theorem Kept.assign (h : Kept s) (hok : s.Served .assign) (hs : s.step .assign = some s') :
    Kept s' := by
  unfold step at hs
  dsimp only at hs
  split at hs
  · rename_i i w hhand hleast
    obtain ⟨hw, hfull⟩ := leastLoaded_some hleast
    have hput : (s.pipe w).put (.chunk i) = some ((s.pipe w).push (.chunk i)) := if_neg hfull
    rw [hput] at hs
    cases hs
    obtain ⟨hfinished, -⟩ := h.handed (hhand ▸ Option.some_ne_none i)
    have hopen : (s.pipe w).closed = false := (h.closed w).trans hfinished
    refine ⟨?_, h.queue, forall_setPipe (P := fun _ p => p.Sound) h.sound ?_,
      forall_setPipe (P := fun _ p => p.closed = s.finished) h.closed (h.closed w),
      fun hsome => absurd rfl hsome, fun w' hover => ?_, fun w' hw' => ?_⟩
    · refine h.spread.move .hand (.piped w) i Spot.noConfusion ?_ ?_ (fun l hl hl' => ?_)
      · show s.hand.toList.Perm _
        rw [hhand]
        exact List.Perm.refl _
      · show (Function.update s.pipe w _ w).chunks.Perm _
        rw [Function.update_self, Pipe.chunks_push_chunk]
        exact List.perm_append_singleton _ _
      · cases l with
        | hand => exact absurd rfl hl
        | piped w' =>
            have hw' : w' ≠ w := fun heq => hl' (congrArg Spot.piped heq)
            exact congrArg Pipe.chunks (Function.update_of_ne hw' _ _)
        | queued | got => rfl
    · exact (h.sound w).push_chunk hopen i
    · -- The pipe of a transport that has ended is not chosen.
      have hw' : w' ≠ w := by
        rintro rfl
        exact hok w' hleast hover
      show (Function.update s.pipe w _ w').chunks = []
      rw [Function.update_of_ne hw']
      exact h.drained w' hover
    · obtain ⟨htransport, hchunks, hreceived⟩ := h.outside w' hw'
      refine ⟨htransport, ?_, hreceived⟩
      show (Function.update s.pipe w _ w').chunks = []
      rw [Function.update_of_ne (Nat.lt_of_lt_of_le hw hw').ne']
      exact hchunks
  · exact absurd hs.symm (Option.some_ne_none _)

/-! ## §4 The transports -/

/-- A transport goes on, or ends with an empty pipe. -/
theorem Kept.setTransport (h : Kept s) {transport : Transport} (hw : w < s.workers)
    (hover : transport = .over → (s.pipe w).chunks = []) : Kept (s.setTransport w transport) := by
  refine ⟨h.spread.congr fun l => ?_, h.queue, h.sound, h.closed, h.handed, fun w' hw' => ?_,
    fun w' hw' => ?_⟩
  · cases l <;> rfl
  · have hw'' : Function.update s.transport w transport w' = .over := hw'
    by_cases heq : w' = w
    · rw [heq, Function.update_self] at hw''
      exact heq ▸ hover hw''
    · rw [Function.update_of_ne heq] at hw''
      exact h.drained w' hw''
  · obtain ⟨htransport, hchunks, hreceived⟩ := h.outside w' hw'
    refine ⟨?_, hchunks, hreceived⟩
    show Function.update s.transport w transport w' = .opening
    have hne : w' ≠ w := (Nat.lt_of_lt_of_le hw hw').ne'
    rw [Function.update_of_ne hne]
    exact htransport

/-- A transport that has begun is that of a worker. -/
theorem Kept.inside (h : Kept s) (htransport : s.transport w ≠ .opening) : w < s.workers := by
  by_contra hw
  exact htransport (h.outside w (Nat.not_lt.mp hw)).1

/-- What an answer of the consumer's node does: `true` lets the transport go on. -/
theorem Kept.answer (h : Kept s) {ok : Bool} (hw : w < s.workers)
    (hok : ok = true ∨ (s.pipe w).chunks = []) :
    Kept (s.setTransport w (if ok then .pumping 0 else .over)) := by
  refine h.setTransport hw fun hover => ?_
  rcases hok with hok | hok
  · rw [if_pos hok] at hover
    exact absurd hover Transport.noConfusion
  · exact hok

/-- A chunk goes to the consumer. -/
theorem Kept.deliver (h : Kept s) {sent i : Nat} {rest : Pipe Nat}
    (htransport : s.transport w = .pumping sent) (hchunks : (s.pipe w).chunks = i :: rest.chunks)
    (hclosed : rest.closed = (s.pipe w).closed) (hsound : rest.Sound) :
    Kept ((s.setPipe w rest).deliver w sent i .received) := by
  have hw : w < s.workers := h.inside (htransport ▸ Transport.noConfusion)
  have hgoes : (s.setPipe w rest).sentOne sent ≠ .over := by
    unfold sentOne
    split <;> exact Transport.noConfusion
  refine ⟨?_, h.queue, forall_setPipe (P := fun _ p => p.Sound) h.sound hsound,
    forall_setPipe (P := fun _ p => p.closed = s.finished) h.closed (hclosed.trans (h.closed w)),
    h.handed, fun w' hover => ?_, fun w' hw' => ?_⟩
  · refine h.spread.move (.piped w) (.got w) i Spot.noConfusion ?_ ?_ (fun l hl hl' => ?_)
    · show (s.pipe w).chunks.Perm (i :: (Function.update s.pipe w rest w).chunks)
      rw [Function.update_self, hchunks]
    · show (Function.update s.received w (s.received w ++ [i]) w).Perm _
      rw [Function.update_self]
      exact List.perm_append_singleton _ _
    · cases l with
      | piped w' =>
          have hne : w' ≠ w := fun heq => hl (congrArg Spot.piped heq)
          exact congrArg Pipe.chunks (Function.update_of_ne hne _ _)
      | got w' =>
          have hne : w' ≠ w := fun heq => hl' (congrArg Spot.got heq)
          exact Function.update_of_ne hne _ _
      | queued | hand => rfl
  · have hover' : Function.update s.transport w _ w' = .over := hover
    by_cases hne : w' = w
    · rw [hne, Function.update_self] at hover'
      exact absurd hover' hgoes
    · rw [Function.update_of_ne hne] at hover'
      show (Function.update s.pipe w rest w').chunks = []
      rw [Function.update_of_ne hne]
      exact h.drained w' hover'
  · obtain ⟨htransport', hchunks', hreceived⟩ := h.outside w' hw'
    have hne : w' ≠ w := (Nat.lt_of_lt_of_le hw hw').ne'
    refine ⟨?_, ?_, ?_⟩
    · exact (Function.update_of_ne hne _ _).trans htransport'
    · exact (congrArg Pipe.chunks (Function.update_of_ne hne _ _)).trans hchunks'
    · exact (Function.update_of_ne hne _ _).trans hreceived

theorem chunks_of_nil {p : Pipe Nat} (h : p.queue = []) : p.chunks = [] := by
  unfold Pipe.chunks
  rw [h]
  rfl

/-- The loop of `_pump` ends: the pipe is closed and empty. -/
theorem Kept.pumped (h : Kept s) {rest : Pipe Nat} (hw : w < s.workers)
    (hchunks : (s.pipe w).chunks = []) (hrest : rest.queue = [])
    (hclosed : (s.pipe w).closed = true) (hrestc : rest.closed = true) :
    Kept ((s.setPipe w rest).setTransport w .over) := by
  have hnil := chunks_of_nil hrest
  have hsound : rest.Sound := ⟨Or.inl (by rw [hrest, hnil]; rfl)⟩
  have hfinished : rest.closed = s.finished := hrestc.trans (hclosed.symm.trans (h.closed w))
  have hset : Kept (s.setPipe w rest) := by
    refine ⟨h.spread.congr fun l => ?_, h.queue,
      forall_setPipe (P := fun _ p => p.Sound) h.sound hsound,
      forall_setPipe (P := fun _ p => p.closed = s.finished) h.closed hfinished, h.handed,
      forall_setPipe (P := fun w p => s.transport w = .over → p.chunks = []) h.drained
        (fun _ => hnil), fun w' hw' => ?_⟩
    · cases l with
      | piped w' =>
          refine forall_setPipe (P := fun w p => p.chunks = (s.pipe w).chunks) (fun _ => rfl) ?_ w'
          rw [hnil, hchunks]
      | queued | hand | got => rfl
    · obtain ⟨htransport, hchunks', hreceived⟩ := h.outside w' hw'
      refine ⟨htransport, ?_, hreceived⟩
      have hne : w' ≠ w := (Nat.lt_of_lt_of_le hw hw').ne'
      exact (congrArg Pipe.chunks (Function.update_of_ne hne _ _)).trans hchunks'
  refine hset.setTransport hw fun _ => ?_
  show (Function.update s.pipe w rest w).chunks = []
  rw [Function.update_self]
  exact hnil

theorem Kept.pump {d : Delivery} (h : Kept s) (hok : s.Served (.pump w d))
    (hs : s.step (.pump w d) = some s') : Kept s' := by
  obtain rfl : d = .received := hok
  unfold step at hs
  dsimp only at hs
  split at hs
  · rename_i sent htransport
    have hw : w < s.workers := h.inside (htransport ▸ Transport.noConfusion)
    have hspec := (h.sound w).anext
    split at hs
    · rename_i i rest hnext
      cases hs
      rw [hnext] at hspec
      cases hspec with
      | item _ _ hchunks _ _ hclosed _ hsound => exact h.deliver htransport hchunks hclosed hsound
    · rename_i rest hnext
      cases hs
      rw [hnext] at hspec
      cases hspec with
      | stop _ hchunks hrest _ hclosed hrestc _ => exact h.pumped hw hchunks hrest hclosed hrestc
    · rename_i e rest hnext
      cases hs
      rw [hnext] at hspec
      cases hspec with
      | raised _ _ hchunks hrest _ hclosed hrestc _ _ =>
          exact h.pumped hw hchunks hrest hclosed hrestc
    · exact absurd hs.symm (Option.some_ne_none _)
  · exact absurd hs.symm (Option.some_ne_none _)

theorem step_kept (s : State) (e : Event) (s' : State) (h : Kept s) (hok : s.Served e)
    (hs : machine.step s e = some s') : Kept s' := by
  cases e with
  | produce => exact h.produce hs
  | produceEnd error => exact h.produceEnd hs
  | take => exact h.take hok hs
  | assign => exact h.assign hok hs
  | handshake w ok =>
      have hs' : step s (.handshake w ok) = some s' := hs
      unfold step at hs'
      dsimp only at hs'
      split at hs'
      · obtain ⟨hw, hs'⟩ := Option.ite_none_right_eq_some.mp hs'
        cases hs'
        exact h.answer hw hok
      · exact absurd hs'.symm (Option.some_ne_none _)
  | pump w d => exact h.pump hok hs
  | ack w ok =>
      have hs' : step s (.ack w ok) = some s' := hs
      unfold step at hs'
      dsimp only at hs'
      split at hs'
      · rename_i htransport
        cases hs'
        exact h.answer (h.inside (htransport ▸ Transport.noConfusion)) hok
      · exact absurd hs'.symm (Option.some_ne_none _)

/-! ## §5 When nothing more happens -/

/-- The transports of a state in which nothing more happens have nothing to send. -/
theorem Kept.emptied (h : Kept s) (hstuck : ∀ e, s.step e = none) (w : Nat) :
    (s.pipe w).chunks = [] := by
  by_cases hw : w < s.workers
  · rcases htransport : s.transport w with _ | sent | _ | _
    · have hstep := hstuck (.handshake w true)
      unfold step at hstep
      dsimp only at hstep
      rw [htransport] at hstep
      exact absurd (hstep.symm.trans (if_pos hw)) (Option.some_ne_none _).symm
    · have hstep := hstuck (.pump w .received)
      unfold step at hstep
      dsimp only at hstep
      rw [htransport] at hstep
      dsimp only at hstep
      have hspec := (h.sound w).anext
      split at hstep
      · exact absurd hstep (Option.some_ne_none _)
      · exact absurd hstep (Option.some_ne_none _)
      · exact absurd hstep (Option.some_ne_none _)
      · rename_i hnext
        rw [hnext] at hspec
        cases hspec with
        | blocked hempty => exact chunks_of_nil hempty
    · have hstep := hstuck (.ack w true)
      unfold step at hstep
      dsimp only at hstep
      rw [htransport] at hstep
      exact absurd hstep (Option.some_ne_none _)
    · exact h.drained w htransport
  · exact (h.outside w (Nat.not_lt.mp hw)).2.1

/-- An empty pipe that is not closed takes an item. -/
theorem Kept.not_full (h : Kept s) (hfinished : s.finished = false)
    (hchunks : (s.pipe w).chunks = []) : ¬ (s.pipe w).isFull := by
  have hqueue : (s.pipe w).queue = [] := by
    rcases (h.sound w).shape with hq | ⟨hclosed, -⟩
    · rw [hq, hchunks]
      rfl
    · rw [h.closed w, hfinished] at hclosed
      exact absurd hclosed Bool.false_ne_true
  exact fun hfull => hfull.ne_nil hqueue

/-- **The dispatcher finishes**: as long as it has not, something can happen. -/
theorem Kept.dispatched (h : Kept s) (hstuck : ∀ e, s.step e = none) : s.finished = true := by
  by_contra hno
  have hfinished : s.finished = false := Bool.eq_false_iff.mpr hno
  rcases hhand : s.hand with _ | i
  · rcases hq : s.outQ with _ | ⟨x, rest⟩
    · have hended : s.ended = none := by
        rcases h.queue with ⟨hdone, -⟩ | ⟨-, hended, -⟩ | ⟨-, -, hshape⟩
        · exact absurd hdone hno
        · exact hended
        · rw [hq] at hshape
          exact absurd hshape.symm (List.append_ne_nil_of_right_ne_nil _ (List.cons_ne_nil _ _))
      have hstep := hstuck (.produceEnd none)
      unfold step at hstep
      dsimp only at hstep
      refine Option.some_ne_none _ ((if_pos ⟨hended, ?_⟩).symm.trans hstep)
      rw [hq]
      exact lt_of_lt_of_le Int.zero_lt_one (le_max_left _ _)
    · have hstep := hstuck .take
      unfold step at hstep
      dsimp only at hstep
      rw [hfinished, hhand, hq] at hstep
      rcases x with i | _
      · exact absurd hstep (Option.some_ne_none _)
      · exact absurd hstep (Option.some_ne_none _)
  · obtain ⟨-, hworkers⟩ := h.handed (hhand ▸ Option.some_ne_none i)
    have hroom := h.not_full (w := 0) hfinished (h.emptied hstuck 0)
    obtain ⟨w, hleast⟩ := Option.ne_none_iff_exists'.mp (leastLoaded_ne_none hworkers hroom)
    have hput : (s.pipe w).put (.chunk i) = some ((s.pipe w).push (.chunk i)) :=
      if_neg (leastLoaded_some hleast).2
    have hstep := hstuck .assign
    unfold step at hstep
    dsimp only at hstep
    rw [hhand, hleast] at hstep
    dsimp only at hstep
    rw [hput] at hstep
    exact absurd hstep (Option.some_ne_none _)

/-- Every item is where nothing can be left but the consumers. -/
theorem Kept.received (h : Kept s) (hstuck : ∀ e, s.step e = none) {i : Nat} (hi : i < s.next) :
    s.ReceivedOnce i := by
  have hfinished := h.dispatched hstuck
  obtain ⟨l, hl⟩ := (h.spread.somewhere i).mp hi
  cases l with
  | queued =>
      have hnil : s.outQ = [] := by
        rcases h.queue with ⟨-, -, hnil⟩ | ⟨hno, -⟩ | ⟨hno, -⟩
        · exact hnil
        · exact absurd (hno.symm.trans hfinished) Bool.false_ne_true
        · exact absurd (hno.symm.trans hfinished) Bool.false_ne_true
      have hl' : i ∈ chunksOf s.outQ := hl
      rw [hnil] at hl'
      exact absurd hl' List.not_mem_nil
  | hand =>
      have hhand : s.hand = some i := Option.mem_toList.mp hl
      have hno := (h.handed (hhand ▸ Option.some_ne_none i)).1
      exact absurd (hno.symm.trans hfinished) Bool.false_ne_true
  | piped w =>
      have hl' : i ∈ (s.pipe w).chunks := hl
      rw [h.emptied hstuck w] at hl'
      exact absurd hl' List.not_mem_nil
  | got w =>
      have hreceived : i ∈ s.received w := hl
      refine ⟨w, ?_, List.count_eq_one_of_mem (h.spread.nodup (.got w)) hreceived,
        fun w' hw' => Spot.got.inj (h.spread.apart (.got w') (.got w) i hw' hl)⟩
      by_contra hw
      rw [(h.outside w (Nat.not_lt.mp hw)).2.2] at hreceived
      exact absurd hreceived List.not_mem_nil

theorem Kept.nothingLost (h : Kept s) : s.NothingLost :=
  ⟨h.drained, fun i w w' hw hw' => Spot.got.inj (h.spread.apart (.got w) (.got w') i hw hw'),
    fun w => h.spread.nodup (.got w),
    fun hstuck => ⟨h.dispatched hstuck, fun _ hi => h.received hstuck hi⟩⟩

theorem start_kept (workers : Nat) (buff : Int) : Kept (start workers buff) := by
  refine ⟨.of_nil (fun l => ?_) Nat.not_lt_zero, Or.inr (Or.inl ⟨rfl, rfl, rfl⟩),
    fun _ => ⟨Or.inl rfl⟩, fun _ => rfl, fun hsome => absurd rfl hsome,
    fun _ _ => rfl, fun _ _ => ⟨rfl, rfl, rfl⟩⟩
  cases l <;> rfl

/-! ## §6 Runs -/

/-- **Every item is received once** when nothing more happens, in every run in which each transport
ends with an empty pipe and is not given more. -/
theorem items_received (workers : Nat) (buff : Int) (es : List Event)
    (h : machine.Guarded Served (start workers buff) es) :
    machine.Always NothingLost (start workers buff) es :=
  Machine.always_of_guarded (fun _ => Kept.nothingLost) step_kept (start_kept workers buff) h

/-- One item for one worker. -/
def oneItem : List Event :=
  [.handshake 0 true, .produce, .take, .assign, .pump 0 .received, .ack 0 true, .produceEnd none,
    .take, .pump 0 .received]

theorem items_received_oneItem : machine.Always NothingLost (start 1 1) oneItem := by
  refine items_received 1 1 oneItem ?_
  refine Machine.guarded_cons rfl (Or.inl rfl) (Machine.guarded_cons rfl trivial ?_)
  refine Machine.guarded_cons rfl (fun _ => Nat.one_pos) ?_
  refine Machine.guarded_cons rfl (fun w _ hover => ?_) (Machine.guarded_cons rfl rfl ?_)
  · have hover' : Function.update (fun _ => Transport.opening) 0 (.pumping 0) w = .over := hover
    by_cases hw : w = 0
    · rw [hw, Function.update_self] at hover'
      exact absurd hover' Transport.noConfusion
    · rw [Function.update_of_ne hw] at hover'
      exact absurd hover' Transport.noConfusion
  refine Machine.guarded_cons rfl (Or.inl rfl) (Machine.guarded_cons rfl trivial ?_)
  refine Machine.guarded_cons rfl (fun _ => Nat.one_pos) ?_
  exact Machine.guarded_cons rfl rfl trivial

/-- The handshake is rejected; the item goes into the pipe all the same. -/
def rejected : List Event :=
  [.handshake 0 false, .produce, .take, .assign, .produceEnd none, .take]

/-- The item is left in the pipe. -/
theorem rejected_loses_item : ¬ machine.Always NothingLost (start 1 1) rejected := by
  intro h
  obtain ⟨s, hrun⟩ : ∃ s, machine.run (start 1 1) rejected = some s := ⟨_, rfl⟩
  have hlast := h.last hrun
  cases hrun
  exact absurd (hlast.drained 0 rfl) (List.cons_ne_nil 0 [])

end State

end NetPulse.Mesh.Spawning
