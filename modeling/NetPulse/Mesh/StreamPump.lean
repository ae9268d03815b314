import NetPulse.Lib.Machine
import NetPulse.Mesh.Pipe
import NetPulse.Mesh.Protocol
import NetPulse.Mesh.Sessions

/-
# NetPulse.Mesh.StreamPump — one stream, from the producer's pipe to the consumer

The parts of a running stream, after STREAM_READY: the producer that fills `out`; the pump
(`PipeTransport._pump`) that sends it in batches of `buff_size` and waits for an ACK after each; the
channel `down` with the packs in flight; the receive loop of the other node, which puts what arrives
into the pipe `inbound` and is suspended while that pipe is full; the consumer that iterates over
`inbound` and answers with ACKs; and the ACKs in flight.

An event is what happens between two suspension points of `asyncio`. The pump addresses its packs
without a path, so `Router._send_pack` looks for a transport to the destination: with none
(`direct = false`) it drops the pack and says nothing.
-/

namespace NetPulse.Mesh

open NetPulse.Lib SessionTable

variable {D : Type*}

/-! ## §1 State -/

/-- How the consumer iterates: `Pipe.__anext__` or `_MeshStreamIterator.__anext__`. -/
inductive ConsumerKind where
  | pipe
  | mesh
  deriving DecidableEq

def ConsumerKind.next : ConsumerKind → Pipe D → Next D
  | .pipe => Pipe.anext
  | .mesh => Pipe.meshNext

structure StreamConfig where
  label : String
  /-- `get_transport_to(dst)` finds a transport at the producer -/
  direct : Bool
  kind : ConsumerKind

/-- `ack_label` -/
def StreamConfig.ackLabel (c : StreamConfig) : String := "ack_" ++ c.label

/-- A pack on its way to the consumer: STREAM_CHUNK and STREAM_EOF both end in a `put` on the pipe,
the third is an ERROR. -/
inductive Down (D : Type*) where
  | put (x : Item D)
  | error (e : String)
  deriving DecidableEq

/-- Where `_pump` stands; `sentInBatch` and `future` are its local variables. -/
inductive Pump where
  | start
  | next (sentInBatch future : Nat)
  | waitAck (sentInBatch future : Nat)
  | done
  deriving DecidableEq

inductive Consumer where
  | created
  | running
  /-- the iteration stopped with `StopAsyncIteration` -/
  | ended
  /-- the iteration raised -/
  | raised (e : String)
  /-- the task left early: the wrapper or the consumer raised, or it broke out of the loop -/
  | quit
  deriving DecidableEq

/-- The task of the consumer is over. -/
def Consumer.gone : Consumer → Bool
  | .created => false
  | .running => false
  | _ => true

structure StreamState (D : Type*) where
  /-- what the producer is still to yield, and what it has yielded -/
  todo : List D
  yielded : List D := []
  out : Pipe D
  sessions : SessionTable (Reply D)
  pump : Pump := .start
  down : List (Down D) := []
  /-- the ACKs in flight -/
  up : Nat := 0
  inbound : Pipe D
  /-- the stream is in the registry of the consumer's node -/
  registered : Bool := true
  /-- the consumer's node has the route for ACKs -/
  routeCached : Bool := true
  /-- the `put` in which the receive loop is suspended -/
  loop : Option (Item D) := none
  consumer : Consumer := .created
  received : List D := []

/-- A stream right after STREAM_READY. -/
def StreamState.init (todo : List D) (buffOut buffIn : Int) (sessions : SessionTable (Reply D)) :
    StreamState D where
  todo := todo
  out := { buffLen := buffOut }
  sessions := sessions
  inbound := { buffLen := buffIn }

inductive StreamEvent where
  | produce
  | producerEnd
  | producerFail (e : String)
  | pumpStart
  | pumpNext
  | pumpResume
  | pumpTimeout
  /-- the receive loop takes the next pack -/
  | deliver
  /-- the `put` of the receive loop finds a place -/
  | unblock
  | ackDeliver
  /-- the consumer starts, or takes one step of its iteration; the flag: it sends an ACK -/
  | start (ack : Bool)
  | consume (ack : Bool)
  | quit
  deriving DecidableEq

/-! ## §2 Steps -/

namespace StreamState

variable (c : StreamConfig) (s : StreamState D)

/-- `router._send_pack` on a pack without a path. -/
def send (x : Down D) : StreamState D := if c.direct then { s with down := s.down ++ [x] } else s

/-- `_pump` after its loop: drop the ACK session, then ERROR or EOF. -/
def finish : StreamState D :=
  ({ s with sessions := s.sessions.cancel c.ackLabel, pump := .done } : StreamState D).send c
    (match s.out.error with
      | some e => .error ("producer failed: " ++ e)
      | none => .put .sentinel)

/-- Register the next ACK future and begin a batch. -/
def beginBatch : StreamState D :=
  let (sessions, future) := s.sessions.registerSingle c.ackLabel "" ""
  { s with sessions, pump := .next 0 future }

/-- `_pump` with one more chunk in hand. -/
def sendChunk (sentInBatch future : Nat) (d : D) (rest : Pipe D) : StreamState D :=
  { ({ s with out := rest } : StreamState D).send c (.put (.chunk d)) with
    pump :=
      if s.out.buffLen ≤ sentInBatch + 1 then .waitAck (sentInBatch + 1) future
      else .next (sentInBatch + 1) future }

/-- A `put` of the receive loop that went through; after the sentinel, `close` goes on to close and
unregister the stream, and the handler of EOF drops the route. -/
def settle (x : Item D) : StreamState D :=
  match x with
  | .chunk d => { s with inbound := s.inbound.push (.chunk d), loop := none }
  | .sentinel =>
      { s with
        inbound := (s.inbound.push .sentinel).close
        registered := false
        routeCached := false
        loop := none }

/-- `feed` or `close` on the registry. -/
def arrive (x : Item D) : StreamState D :=
  if s.registered then
    if s.inbound.isFull then { s with loop := some x } else s.settle x
  else
    match x with
    | .chunk _ => s
    | .sentinel => { s with routeCached := false }

/-- `send_stream_ack`: without a cached route the ACK is dropped. -/
def sendAck (ack : Bool) : StreamState D :=
  if ack ∧ s.routeCached then { s with up := s.up + 1 } else s

def step : StreamEvent → Option (StreamState D)
  | .produce =>
      match s.todo with
      | [] => none
      | d :: rest =>
          if s.out.closed then none
          else
            (s.out.put (.chunk d)).map fun out =>
              { s with todo := rest, yielded := s.yielded ++ [d], out }
  | .producerEnd =>
      if s.todo = [] ∧ s.out.closed = false then
        some { s with out := (s.out.putNowait .sentinel).close }
      else none
  | .producerFail e =>
      if s.out.closed then none else some { s with todo := [], out := s.out.fail e }
  | .pumpStart => if s.pump = .start then some (s.beginBatch c) else none
  | .pumpNext =>
      match s.pump with
      | .next b f =>
          match s.out.anext with
          | .item d rest => some (s.sendChunk c b f d rest)
          | .stop rest => some (({ s with out := rest } : StreamState D).finish c)
          | .raised _ rest => some (({ s with out := rest } : StreamState D).finish c)
          | .blocked => none
      | _ => none
  | .pumpResume =>
      match s.pump with
      | .waitAck _ f =>
          match s.sessions.future f with
          | some (.result _) => some (s.beginBatch c)
          | _ => none
      | _ => none
  | .pumpTimeout =>
      match s.pump with
      | .waitAck _ _ => some (s.finish c)
      | _ => none
  | .deliver =>
      match s.loop, s.down with
      | none, .put x :: rest => some (({ s with down := rest } : StreamState D).arrive x)
      | none, .error e :: rest =>
          if s.registered then
            some { s with down := rest, inbound := s.inbound.fail e, registered := false }
          else some { s with down := rest }
      | _, _ => none
  | .unblock =>
      match s.loop with
      | some x => if s.inbound.isFull then none else some (s.settle x)
      | none => none
  | .ackDeliver =>
      match s.up with
      | 0 => none
      | n + 1 => some { s with up := n, sessions := s.sessions.resolve c.ackLabel .ack }
  | .start ack =>
      if s.consumer = .created then
        some (({ s with consumer := .running } : StreamState D).sendAck ack)
      else none
  | .consume ack =>
      if s.consumer = .running then
        match c.kind.next s.inbound with
        | .item d rest =>
            some (({ s with inbound := rest, received := s.received ++ [d] } :
              StreamState D).sendAck ack)
        | .stop rest => some { s with inbound := rest, consumer := .ended }
        | .raised e rest => some { s with inbound := rest, consumer := .raised e }
        | .blocked => none
      else none
  | .quit => if s.consumer.gone then none else some { s with consumer := .quit }

end StreamState

/-- One stream. -/
def streamMachine (c : StreamConfig) : Machine (StreamState D) StreamEvent where
  step := StreamState.step c

/-! ## §3 What a step can do -/

namespace StreamState

/-- The steps, one constructor for each outcome. -/
inductive Moves (c : StreamConfig) (s : StreamState D) : StreamEvent → StreamState D → Prop where
  | produce (d : D) (rest : List D) (htodo : s.todo = d :: rest) (hopen : s.out.closed = false)
      (hroom : ¬ s.out.isFull) :
      Moves c s .produce
        { s with todo := rest, yielded := s.yielded ++ [d], out := s.out.push (.chunk d) }
  | producerEnd (htodo : s.todo = []) (hopen : s.out.closed = false) :
      Moves c s .producerEnd { s with out := (s.out.putNowait .sentinel).close }
  | producerFail (e : String) (hopen : s.out.closed = false) :
      Moves c s (.producerFail e) { s with todo := [], out := s.out.fail e }
  | pumpStart (hpump : s.pump = .start) : Moves c s .pumpStart (s.beginBatch c)
  | pumpSend (b f : Nat) (d : D) (rest : Pipe D) (hpump : s.pump = .next b f)
      (hnext : s.out.anext = .item d rest) : Moves c s .pumpNext (s.sendChunk c b f d rest)
  | pumpEnd (b f : Nat) (rest : Pipe D) (hpump : s.pump = .next b f)
      (hnext : s.out.anext = .stop rest ∨ ∃ e, s.out.anext = .raised e rest) :
      Moves c s .pumpNext (({ s with out := rest } : StreamState D).finish c)
  | pumpResume (b f : Nat) (r : Reply D) (hpump : s.pump = .waitAck b f)
      (hresult : s.sessions.future f = some (.result r)) : Moves c s .pumpResume (s.beginBatch c)
  | pumpTimeout (b f : Nat) (hpump : s.pump = .waitAck b f) :
      Moves c s .pumpTimeout (s.finish c)
  | deliver (x : Item D) (rest : List (Down D)) (hloop : s.loop = none)
      (hdown : s.down = .put x :: rest) :
      Moves c s .deliver (({ s with down := rest } : StreamState D).arrive x)
  | deliverError (e : String) (rest : List (Down D)) (hloop : s.loop = none)
      (hdown : s.down = .error e :: rest) (hreg : s.registered = true) :
      Moves c s .deliver
        { s with down := rest, inbound := s.inbound.fail e, registered := false }
  | dropError (e : String) (rest : List (Down D)) (hloop : s.loop = none)
      (hdown : s.down = .error e :: rest) (hreg : s.registered = false) :
      Moves c s .deliver { s with down := rest }
  | unblock (x : Item D) (hloop : s.loop = some x) (hroom : ¬ s.inbound.isFull) :
      Moves c s .unblock (s.settle x)
  | ackDeliver (n : Nat) (hup : s.up = n + 1) :
      Moves c s .ackDeliver { s with up := n, sessions := s.sessions.resolve c.ackLabel .ack }
  | start (ack : Bool) (hconsumer : s.consumer = .created) :
      Moves c s (.start ack) (({ s with consumer := .running } : StreamState D).sendAck ack)
  | consume (ack : Bool) (d : D) (rest : Pipe D) (hconsumer : s.consumer = .running)
      (hnext : c.kind.next s.inbound = .item d rest) :
      Moves c s (.consume ack)
        (({ s with inbound := rest, received := s.received ++ [d] } : StreamState D).sendAck ack)
  | consumeStop (ack : Bool) (rest : Pipe D) (hconsumer : s.consumer = .running)
      (hnext : c.kind.next s.inbound = .stop rest) :
      Moves c s (.consume ack) { s with inbound := rest, consumer := .ended }
  | consumeRaise (ack : Bool) (e : String) (rest : Pipe D) (hconsumer : s.consumer = .running)
      (hnext : c.kind.next s.inbound = .raised e rest) :
      Moves c s (.consume ack) { s with inbound := rest, consumer := .raised e }
  | quit (hconsumer : s.consumer.gone = false) : Moves c s .quit { s with consumer := .quit }

/-- **Inversion.** Every step is one of the moves. -/
theorem moves_of_step {c : StreamConfig} {s s' : StreamState D} {e : StreamEvent}
    (h : s.step c e = some s') : Moves c s e s' := by
  cases e with
  | produce =>
      simp only [step] at h
      split at h
      · cases h
      · rename_i d rest htodo
        split at h
        · cases h
        · rename_i hopen
          obtain ⟨out, hout, rfl⟩ := Option.map_eq_some_iff.mp h
          simp only [Pipe.put, Option.ite_none_left_eq_some, Option.some.injEq] at hout
          obtain ⟨hroom, rfl⟩ := hout
          exact .produce d rest htodo (by simpa using hopen) hroom
  | producerEnd =>
      simp only [step, Option.ite_none_right_eq_some, Option.some.injEq] at h
      obtain ⟨hend, rfl⟩ := h
      exact .producerEnd hend.1 hend.2
  | producerFail e =>
      simp only [step, Option.ite_none_left_eq_some, Option.some.injEq] at h
      obtain ⟨hopen, rfl⟩ := h
      exact .producerFail e (by simpa using hopen)
  | pumpStart =>
      simp only [step, Option.ite_none_right_eq_some, Option.some.injEq] at h
      obtain ⟨hpump, rfl⟩ := h
      exact .pumpStart hpump
  | pumpNext =>
      simp only [step] at h
      split at h
      · rename_i b f hpump
        split at h
        · rename_i d rest hnext
          cases h
          exact .pumpSend b f d rest hpump hnext
        · rename_i rest hnext
          cases h
          exact .pumpEnd b f rest hpump (Or.inl hnext)
        · rename_i e rest hnext
          cases h
          exact .pumpEnd b f rest hpump (Or.inr ⟨e, hnext⟩)
        · cases h
      · cases h
  | pumpResume =>
      simp only [step] at h
      split at h
      · rename_i b f hpump
        split at h
        · rename_i r hresult
          cases h
          exact .pumpResume b f r hpump hresult
        · cases h
      · cases h
  | pumpTimeout =>
      simp only [step] at h
      split at h
      · rename_i b f hpump
        cases h
        exact .pumpTimeout b f hpump
      · cases h
  | deliver =>
      simp only [step] at h
      split at h
      · rename_i x rest hloop hdown
        cases h
        exact .deliver x rest hloop hdown
      · rename_i e rest hloop hdown
        split at h
        · rename_i hreg
          cases h
          exact .deliverError e rest hloop hdown hreg
        · rename_i hreg
          cases h
          exact .dropError e rest hloop hdown (by simpa using hreg)
      · cases h
  | unblock =>
      simp only [step] at h
      split at h
      · rename_i x hloop
        simp only [Option.ite_none_left_eq_some, Option.some.injEq] at h
        obtain ⟨hroom, rfl⟩ := h
        exact .unblock x hloop hroom
      · cases h
  | ackDeliver =>
      simp only [step] at h
      split at h
      · cases h
      · rename_i n hup
        cases h
        exact .ackDeliver n hup
  | start ack =>
      simp only [step, Option.ite_none_right_eq_some, Option.some.injEq] at h
      obtain ⟨hconsumer, rfl⟩ := h
      exact .start ack hconsumer
  | consume ack =>
      simp only [step, Option.ite_none_right_eq_some] at h
      obtain ⟨hconsumer, h⟩ := h
      split at h
      · rename_i d rest hnext
        cases h
        exact .consume ack d rest hconsumer hnext
      · rename_i rest hnext
        cases h
        exact .consumeStop ack rest hconsumer hnext
      · rename_i e rest hnext
        cases h
        exact .consumeRaise ack e rest hconsumer hnext
      · cases h
  | quit =>
      simp only [step, Option.ite_none_left_eq_some, Option.some.injEq] at h
      obtain ⟨hconsumer, rfl⟩ := h
      exact .quit (by simpa using hconsumer)

end StreamState

end NetPulse.Mesh
