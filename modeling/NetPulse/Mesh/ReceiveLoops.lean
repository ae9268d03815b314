import NetPulse.Lib.Machine
import NetPulse.Lib.WaitFor
import NetPulse.Mesh.Chain

/-
# NetPulse.Mesh.ReceiveLoops — who waits for whom in a mesh

Each end of a channel has a receive loop. The loop of the server side (`websocket_endpoint`) leaves
REQUEST, FORWARDED and STREAM_OPEN to a background task; the loop of the client side
(`NodeConnector._connect_loop`) awaits `handle` for every pack, and so the service method that a
REQUEST runs. Either loop awaits a place in the pipe when a chunk comes for a pipe that is full.

A mesh has any number of nodes, channels and tasks, and its methods issue calls of their own. A party
waits for another when it cannot go on before the other does (`WaitsFor`): a loop for the method it
runs or for the consumer of a full pipe, a task for the method that serves its call, and a task for
the loop that will receive the answer. A loop that waits for itself in that relation needs an answer
that only it can receive.

`self_wait_free_iff`: no loop ever waits for itself exactly when each call, at the time it is issued,
will be answered over a channel whose loop does not wait for the caller. A loop of the server side
waits for itself at a full pipe at most (`servers_read`).

Channels neither open nor close here, and the pipes are not modelled: the run says when one is full.
-/

namespace NetPulse.Mesh

open NetPulse.Lib Router Relation

section Loops

variable [Canon] {N Data : Type*}

/-! ## §1 Loops and tasks -/

/-- An end of a channel: a node and its socket. -/
abbrev ChannelEnd (N : Type*) := N × Sock

/-- What a receive loop does. -/
inductive Loop (Data : Type*) where
  | reading
  /-- it awaits `handle`, which runs a service method as task `i` -/
  | handling (i : Nat)
  /-- it awaits a place in a pipe that task `i` reads -/
  | feeding (i : Nat) (p : MsgPack Data)

/-- A future that a task awaits, with the pack that asked for the answer and the socket it left on. -/
structure Await (Data : Type*) where
  label : String
  pack : MsgPack Data
  ws : Sock
  future : Nat

inductive Task (N Data : Type*) where
  /-- a `_bg` that has not begun -/
  | scheduled (n : N) (p : MsgPack Data) (ws : Sock)
  /-- a service method that serves a request, or a task of the node's own -/
  | running (n : N) (request : Option (MsgPack Data)) (awaits : List (Await Data))

/-- The label of the request that a task works on. -/
def Task.serves : Task N Data → Option String
  | .scheduled _ p _ => some p.label
  | .running _ request _ => request.map MsgPack.label

def Task.awaits : Task N Data → List (Await Data)
  | .scheduled _ _ _ => []
  | .running _ _ awaits => awaits

def Task.node : Task N Data → N
  | .scheduled n _ _ => n
  | .running n _ _ => n

structure LoopNet (N Data : Type*) where
  routers : N → Router Data
  flight : List (Transit N Data)
  loops : ChannelEnd N → Loop Data
  /-- the tasks in the order in which they were created, `none` when ended -/
  tasks : List (Option (Task N Data))
  /-- the task that reads the pipe of a stream -/
  consumers : N → Dict String Nat

def LoopNet.task (s : LoopNet N Data) (i : Nat) : Option (Task N Data) := s.tasks[i]?.join

/-- The mesh before any traffic. -/
def LoopNet.start (routers : N → Router Data) : LoopNet N Data where
  routers := routers
  flight := []
  loops := fun _ => .reading
  tasks := []
  consumers := fun _ => Dict.empty

/-- The task that a loop awaits. -/
def LoopNet.suspended (s : LoopNet N Data) (e : ChannelEnd N) : Option Nat :=
  match s.loops e with
  | .reading => none
  | .handling i => if (s.task i).isSome then some i else none
  | .feeding i _ => some i

/-- No task works on a request of that label: what `uuid4` guarantees. -/
def LoopNet.unused (s : LoopNet N Data) (label : String) : Bool :=
  s.tasks.all fun t => t.bind Task.serves ≠ some label

/-- The packs that the server side leaves to a background task. -/
def PackType.inBackground : PackType → Bool
  | .request => true
  | .forwarded => true
  | .streamOpen => true
  | _ => false

/-! ## §2 The steps -/

inductive LoopEvent (N Data : Type*) where
  /-- the node starts a task of its own -/
  | spawn (n : N)
  /-- the loop that has pack `j` in flight before it reads it -/
  | receive (j : Nat) (now : Time)
  /-- the same, when the pack is for a pipe that is full -/
  | stall (j : Nat) (now : Time)
  /-- the pipe has a place again -/
  | room (e : ChannelEnd N) (now : Time)
  /-- a background task begins -/
  | begin (i : Nat) (now : Time)
  /-- task `i` issues `call` -/
  | call (i : Nat) (a : CallArgs Data)
  /-- task `i` issues `stream` -/
  | stream (i : Nat) (a : CallArgs Data)
  /-- task `i` sends a pack that nothing waits for: a chunk of a generator, an ACK, gossip -/
  | emit (i : Nat) (p : MsgPack Data)
  /-- the future of a label is done, and task `i` goes on -/
  | resume (i : Nat) (label : String)
  /-- the `wait_for` of a label times out -/
  | timeout (i : Nat) (label : String)
  /-- task `i` ends, and a request that it served is answered -/
  | finish (i : Nat) (outcome : Outcome Data)

/-- What the `wait_for` of `call` or `stream` does to the router on a timeout. -/
def Await.expire (r : Router Data) (w : Await Data) : Router Data :=
  if w.pack.type = .streamOpen then
    { r with
      sessions := r.sessions.cancel w.label
      streams := r.streams.erase w.label
      streamRoutes := r.streamRoutes.pop w.label }
  else { r with sessions := r.sessions.cancel w.label }

variable [DecidableEq N]

namespace LoopNet

/-- The state after node `n` has the router `r` and did the sends. -/
def sent (s : LoopNet N Data) (peer : N → Sock → N × Sock) (n : N) (r : Router Data)
    (sends : List (Sock × MsgPack Data)) : LoopNet N Data :=
  { s with
    routers := Function.update s.routers n r
    flight := s.flight ++ arrivals peer n sends }

def setLoop (s : LoopNet N Data) (e : ChannelEnd N) (l : Loop Data) : LoopNet N Data :=
  { s with loops := Function.update s.loops e l }

def setTask (s : LoopNet N Data) (i : Nat) (t : Option (Task N Data)) : LoopNet N Data :=
  { s with tasks := s.tasks.set i t }

def addTask (s : LoopNet N Data) (t : Task N Data) : LoopNet N Data :=
  { s with tasks := s.tasks ++ [some t] }

/-- Task `i` reads the pipe of the stream. -/
def setConsumer (s : LoopNet N Data) (n : N) (label : String) (i : Nat) : LoopNet N Data :=
  { s with consumers := Function.update s.consumers n ((s.consumers n).set label i) }

/-- `_run_consumer` in a task of its own. -/
def consume (s : LoopNet N Data) (n : N) (p : MsgPack Data) : LoopNet N Data :=
  (s.setConsumer n p.label s.tasks.length).addTask (.running n none [])

/-- A loop hands a pack to `handle`, in a background task or in its own time. -/
def handled (s : LoopNet N Data) (peer : N → Sock → N × Sock) (client : ChannelEnd N → Bool)
    (now : Time) (f : Transit N Data) : LoopNet N Data :=
  if !client (f.node, f.ws) && f.pack.type.inBackground then
    s.addTask (.scheduled f.node f.pack f.ws)
  else
    let h := (s.routers f.node).handle now f.pack f.ws
    let s' := s.sent peer f.node h.router h.sends
    match h.act with
    | some (.execute req) =>
        (s'.setLoop (f.node, f.ws) (.handling s.tasks.length)).addTask
          (.running f.node (some req) [])
    | some (.consume req) => s'.consume f.node req
    | _ => s'

/-- The pack in flight, when its loop can read it. -/
def readable (s : LoopNet N Data) (j : Nat) : Option (Transit N Data) :=
  (s.flight[j]?).filter fun f => (s.suspended (f.node, f.ws)).isNone

/-- The task that reads the pipe for which the pack is, if it is data of a stream for this node. -/
def reader (s : LoopNet N Data) (f : Transit N Data) : Option Nat :=
  let r := s.routers f.node
  if f.pack.isData && !r.isRemote f.pack && f.pack.label ∈ r.streams then
    (s.consumers f.node).get f.pack.label
  else none

/-- A background task begins: it hands its pack to `handle`. -/
def begun (s : LoopNet N Data) (peer : N → Sock → N × Sock) (i : Nat) (now : Time) (n : N)
    (p : MsgPack Data) (ws : Sock) : LoopNet N Data :=
  let h := (s.routers n).handle now p ws
  let s' := s.sent peer n h.router h.sends
  match h.act with
  | some (.execute req) => s'.setTask i (some (.running n (some req) []))
  | some (.consume req) => (s'.setTask i none).consume n req
  | _ => s'.setTask i none

/-- The state after task `i` of node `n` issued a call: it goes on at once, or awaits the future. -/
def issued (s : LoopNet N Data) (peer : N → Sock → N × Sock) (i : Nat) (n : N)
    (request : Option (MsgPack Data)) (awaits : List (Await Data)) (label : String) :
    Called Data → LoopNet N Data
  | .executed _ => s
  | .sent r ws p future =>
      (s.sent peer n r [(ws, p)]).setTask i
        (some (.running n request (⟨label, p, ws, future⟩ :: awaits)))
  | .noRoute r => s.sent peer n r []

/-- The future is done. -/
def done (s : LoopNet N Data) (n : N) (w : Await Data) : Bool :=
  match (s.routers n).sessions.future w.future with
  | some .pending => false
  | _ => true

/-- What a step does with a running task. -/
def withTask (s : LoopNet N Data) (i : Nat)
    (f : N → Option (MsgPack Data) → List (Await Data) → Option (LoopNet N Data)) :
    Option (LoopNet N Data) :=
  match s.task i with
  | some (.running n request awaits) => f n request awaits
  | _ => none

end LoopNet

/-- The awaits without those of a label. -/
def withoutLabel (awaits : List (Await Data)) (label : String) : List (Await Data) :=
  awaits.filter fun w => w.label ≠ label

/-- The mesh. `peer` says where the sockets of a node lead, `client` which ends were dialled. -/
def mesh (peer : N → Sock → N × Sock) (client : ChannelEnd N → Bool) :
    Machine (LoopNet N Data) (LoopEvent N Data) where
  step s
    | .spawn n => some (s.addTask (.running n none []))
    | .receive j now =>
        (s.readable j).map fun f =>
          { s with flight := s.flight.eraseIdx j }.handled peer client now f
    | .stall j now =>
        (s.readable j).bind fun f =>
          (s.reader f).map fun i =>
            ({ s with flight := s.flight.eraseIdx j }.sent peer f.node
              ((s.routers f.node).touchSource now f.pack) []).setLoop (f.node, f.ws)
              (.feeding i f.pack)
    | .room e now =>
        match s.loops e with
        | .feeding _ p =>
            some ((s.sent peer e.1 ((s.routers e.1).dispatch now p e.2).router []).setLoop e .reading)
        | _ => none
    | .begin i now =>
        match s.task i with
        | some (.scheduled n p ws) => some (s.begun peer i now n p ws)
        | _ => none
    | .call i a =>
        s.withTask i fun n request awaits =>
          if s.unused a.label then
            some (s.issued peer i n request awaits a.label
              ((s.routers n).call a.label a.dst a.service a.method a.data))
          else none
    | .stream i a =>
        s.withTask i fun n request awaits =>
          if s.unused a.label then
            some ((s.issued peer i n request awaits a.label
              ((s.routers n).stream a.label a.dst a.service a.method a.data)).setConsumer n
                a.label i)
          else none
    | .emit i p =>
        s.withTask i fun n _ _ =>
          let sent := (s.routers n).sendPack p
          some (s.sent peer n sent.1 sent.2.toList)
    | .resume i label =>
        s.withTask i fun n request awaits =>
          if awaits.all fun w => w.label ≠ label || s.done n w then
            some (s.setTask i (some (.running n request (withoutLabel awaits label))))
          else none
    | .timeout i label =>
        s.withTask i fun n request awaits =>
          let r := (awaits.filter fun w => w.label = label).foldl Await.expire (s.routers n)
          some ((s.sent peer n r []).setTask i
            (some (.running n request (withoutLabel awaits label))))
    | .finish i outcome =>
        s.withTask i fun n request awaits =>
          if awaits.isEmpty then
            match request with
            | none => some (s.setTask i none)
            | some req =>
                let sent := (s.routers n).answer req outcome
                some ((s.sent peer n sent.1 sent.2).setTask i none)
          else none

/-! ## §3 Who waits for whom -/

/-- The end at which the answer to a pack of node `n` will arrive. The neighbour that got the pack
sends the answer: to the socket the pack came on, when it took the sender for a client
(`_ws_pending`), and else along the path, over its transport to `n`. -/
def LoopNet.answerEnd (s : LoopNet N Data) (peer : N → Sock → N × Sock) (n : N) (w : Await Data) :
    Option (ChannelEnd N) :=
  let (m, back) := peer n w.ws
  if w.pack.type = .request ∧ (s.routers m).isRemote w.pack then some (peer m back)
  else ((s.routers m).reach (s.routers n).NODE).map (peer m)

inductive Party (N : Type*) where
  | loop (e : ChannelEnd N)
  | task (i : Nat)
  deriving DecidableEq

/-- A party cannot go on before another does. -/
inductive WaitsFor (peer : N → Sock → N × Sock) (s : LoopNet N Data) : Party N → Party N → Prop where
  /-- a loop is suspended in a method that it runs, or at the pipe of a consumer -/
  | suspended {e : ChannelEnd N} {i : Nat} (h : s.suspended e = some i) :
      WaitsFor peer s (.loop e) (.task i)
  /-- a task awaits the answer to a request that another serves -/
  | served {i j : Nat} {t u : Task N Data} {w : Await Data} (ht : s.task i = some t)
      (hw : w ∈ t.awaits) (hu : s.task j = some u) (hlabel : u.serves = some w.label) :
      WaitsFor peer s (.task i) (.task j)
  /-- a task awaits an answer that a loop will receive -/
  | answered {i : Nat} {t : Task N Data} {w : Await Data} {e : ChannelEnd N}
      (ht : s.task i = some t) (hw : w ∈ t.awaits) (he : s.answerEnd peer t.node w = some e) :
      WaitsFor peer s (.task i) (.loop e)

/-- **The loop waits for itself**: what it does with a pack cannot end before an answer arrives that
it alone receives. -/
def SelfWait (peer : N → Sock → N × Sock) (s : LoopNet N Data) (e : ChannelEnd N) : Prop :=
  Circular (WaitsFor peer s) (.loop e)

/-- The loop that will receive the answer to a call of task `i` does not wait for the task. -/
def Answerable (peer : N → Sock → N × Sock) (s : LoopNet N Data) (i : Nat) (label : String)
    (issue : Router Data → Called Data) : Prop :=
  ∀ n request awaits r ws p future e, s.task i = some (.running n request awaits) →
    issue (s.routers n) = .sent r ws p future →
    s.answerEnd peer n ⟨label, p, ws, future⟩ = some e →
    ¬ ReflTransGen (WaitsFor peer s) (.loop e) (.task i)

/-- **The condition**: the loop that will receive the answer to a call does not wait for the caller,
and the consumer of a full pipe does not wait for the loop that comes to wait for it. -/
def NoCircle (peer : N → Sock → N × Sock) (s : LoopNet N Data) : LoopEvent N Data → Prop
  | .call i a =>
      Answerable peer s i a.label fun r => r.call a.label a.dst a.service a.method a.data
  | .stream i a =>
      Answerable peer s i a.label fun r => r.stream a.label a.dst a.service a.method a.data
  | .stall j _ =>
      ∀ f i, s.readable j = some f → s.reader f = some i →
        ¬ ReflTransGen (WaitsFor peer s) (.task i) (.loop (f.node, f.ws))
  | _ => True

end Loops

/-! ## §4 Routers keep their transports -/

section Routers

variable [Canon] {Data : Type*} {r r' : Router Data}

theorem steady_touchSource (r : Router Data) (now : Time) (p : MsgPack Data) :
    Steady r (r.touchSource now p) := by
  obtain ⟨table, htouch⟩ := r.exists_touchSource now p
  rw [htouch]
  exact steady_of_same rfl rfl rfl rfl

theorem steady_onForwarded (r : Router Data) (p : MsgPack Data) :
    Steady r (r.onForwarded p).router := by
  unfold Router.onForwarded
  split
  · exact .refl r
  · split
    · exact .refl r
    · dsimp only
      split
      · exact .refl r
      · exact steady_relay r _

theorem steady_onRemoteRequest (r : Router Data) (now : Time) (p : MsgPack Data) (ws : Sock) :
    Steady r (r.onRemoteRequest now p ws).router := by
  have hpending : Steady r { r with wsPending := r.wsPending.set p.label (ws, now) } :=
    steady_of_same rfl rfl rfl rfl
  unfold Router.onRemoteRequest
  dsimp only
  split
  · rename_i hf
    exact hpending.trans (steady_forward hf)
  · exact steady_of_same rfl rfl rfl rfl

theorem steady_forwardStreamOpen (r : Router Data) (now : Time) (p : MsgPack Data) :
    Steady r (r.forwardStreamOpen now p).router := by
  unfold Router.forwardStreamOpen
  dsimp only
  split
  · exact steady_relay r _
  · split
    · exact steady_relay r _
    · refine Steady.trans ?_ (steady_relay _ _)
      exact steady_of_same rfl rfl rfl rfl

theorem steady_getStreamRoute (r : Router Data) (now : Time) (label : String) :
    Steady r (r.getStreamRoute now label).1 := by
  unfold Router.getStreamRoute
  split
  · exact .refl r
  · dsimp only
    split
    · exact steady_of_same rfl rfl rfl rfl
    · exact steady_of_same rfl rfl rfl rfl

theorem steady_forwardStreamData (r : Router Data) (now : Time) (p : MsgPack Data) :
    Steady r (r.forwardStreamData now p).router := by
  have hroute := steady_getStreamRoute r now p.label
  unfold Router.forwardStreamData
  dsimp only
  split
  · rename_i hsend
    obtain ⟨next, _, hget⟩ := Option.bind_eq_some_iff.mp hsend
    exact hroute.trans (steady_getTransportTo hget)
  · exact hroute.trans (steady_relay _ p)

theorem steady_onStreamOpen (r : Router Data) (p : MsgPack Data) :
    Steady r (r.onStreamOpen p).1 := by
  unfold Router.onStreamOpen
  dsimp only
  split
  · exact .refl r
  · split
    · exact .refl r
    · split
      · exact steady_of_same rfl rfl rfl rfl
      · exact steady_of_same rfl rfl rfl rfl

theorem steady_cacheStreamRouteOnOpen (r : Router Data) (now : Time) (p : MsgPack Data) :
    Steady r (r.cacheStreamRouteOnOpen now p) := by
  unfold Router.cacheStreamRouteOnOpen
  split
  · exact .refl r
  · split
    · exact .refl r
    · exact steady_of_same rfl rfl rfl rfl

theorem steady_cacheStreamRouteOnReady (r : Router Data) (now : Time) (p : MsgPack Data) :
    Steady r (r.cacheStreamRouteOnReady now p) := by
  unfold Router.cacheStreamRouteOnReady
  split
  · exact .refl r
  · split
    · exact .refl r
    · exact steady_of_same rfl rfl rfl rfl

theorem steady_toWsClient {h : Handled Data} {p : MsgPack Data} (hc : r.toWsClient p = some h) :
    Steady r h.router := by
  unfold Router.toWsClient at hc
  obtain ⟨entry, _, rfl⟩ := Option.map_eq_some_iff.mp hc
  exact steady_of_same rfl rfl rfl rfl

/-- What RESPONSE and ERROR do when no stream of the node has the label. -/
theorem steady_reply (r : Router Data) (p : MsgPack Data) (reply : Reply Data) :
    Steady r
      (match r.toWsClient p with
        | some h => h
        | none => if p.path ≠ [] then r.relayBack p else { router := r.resolve p.label reply }).router := by
  split
  · rename_i hc
    exact steady_toWsClient hc
  · split
    · exact steady_routeBack r p
    · exact steady_resolve r _ _

theorem steady_dispatch (r : Router Data) (now : Time) (p : MsgPack Data) (ws : Sock) :
    Steady r (r.dispatch now p ws).router := by
  unfold Router.dispatch
  cases p.type with
  | forwarded => exact steady_onForwarded r p
  | request =>
      dsimp only
      split
      · exact steady_onRemoteRequest r now p ws
      · exact .refl r
  | response => exact steady_reply r p _
  | streamOpen =>
      dsimp only
      split
      · exact steady_forwardStreamOpen r now p
      · exact ((steady_onStreamOpen r p).trans (steady_cacheStreamRouteOnOpen _ now p)).trans
          (steady_sendBack _ _ p)
  | streamReady =>
      have hready := steady_cacheStreamRouteOnReady r now p
      dsimp only
      split
      · exact hready.trans (steady_routeBack _ p)
      · exact hready.trans (steady_resolve _ _ _)
  | streamChunk =>
      dsimp only
      split
      · exact steady_forwardStreamData r now p
      · exact .refl r
  | streamAck =>
      dsimp only
      split
      · exact steady_routeBack r p
      · exact steady_resolve r _ _
  | streamEof =>
      dsimp only
      split
      · exact steady_forwardStreamData r now p
      · exact steady_of_same rfl rfl rfl rfl
  | error =>
      dsimp only
      split
      · exact steady_of_same rfl rfl rfl rfl
      · exact steady_reply r p _
  | gossip =>
      dsimp only
      split
      · exact steady_of_same rfl rfl rfl rfl
      · exact .refl r
  | announce =>
      dsimp only
      split
      · exact steady_of_same rfl rfl rfl rfl
      · exact steady_of_same rfl rfl rfl rfl
  | ping => exact steady_sendBack r _ p
  | pong => exact steady_resolve r _ _
  | certSync => exact .refl r
  | hello => exact .refl r
  | helloAck => exact .refl r
  | helloReject => exact .refl r

theorem steady_handle (r : Router Data) (now : Time) (p : MsgPack Data) (ws : Sock) :
    Steady r (r.handle now p ws).router :=
  (steady_touchSource r now p).trans (steady_dispatch _ now p ws)

theorem steady_expire (r : Router Data) (ws : List (Await Data)) :
    Steady r (ws.foldl Await.expire r) := by
  induction ws generalizing r with
  | nil => exact .refl r
  | cons w rest ih =>
      have hw : Steady r (Await.expire r w) := by
        unfold Await.expire
        split
        · exact steady_of_same rfl rfl rfl rfl
        · exact steady_of_same rfl rfl rfl rfl
      exact hw.trans (ih _)

/-- The router that a call leaves, if it changes it. -/
def Router.Called.router? : Called Data → Option (Router Data)
  | .executed _ => none
  | .sent r _ _ _ => some r
  | .noRoute r => some r

theorem steady_call {label dst service method : String} {data : Payload Data}
    (h : (r.call label dst service method data).router? = some r') : Steady r r' := by
  unfold Router.call at h
  dsimp only at h
  split at h
  · cases h
  · split at h
    · cases h
    · split at h
      · rename_i hf
        cases h
        refine Steady.trans ?_ (steady_forward hf)
        exact steady_of_same rfl rfl rfl rfl
      · cases h
        exact steady_of_same rfl rfl rfl rfl

theorem steady_stream {label dst service method : String} {data : Payload Data}
    (h : (r.stream label dst service method data).router? = some r') : Steady r r' := by
  unfold Router.stream at h
  dsimp only at h
  split at h
  · rename_i hf
    cases h
    refine Steady.trans ?_ (steady_forward hf)
    exact steady_of_same rfl rfl rfl rfl
  · cases h
    exact steady_of_same rfl rfl rfl rfl

end Routers

/-! ## §5 Steps that close no circle -/

section Calm

variable [Canon] {N Data : Type*} {peer : N → Sock → N × Sock} {client : ChannelEnd N → Bool}
  {s s' s'' : LoopNet N Data}

/-- The task, if it goes on, waits for nothing. -/
def LoopNet.Quiet (s : LoopNet N Data) (i : Nat) : Prop := ∀ t, s.task i = some t → t.awaits = []

/-- `t'` is `t`, which may await less. -/
structure Follows (t t' : Task N Data) : Prop where
  node : t'.node = t.node
  serves : t'.serves = t.serves
  awaits : ∀ w ∈ t'.awaits, w ∈ t.awaits

omit [Canon] in
theorem Follows.refl (t : Task N Data) : Follows t t := ⟨rfl, rfl, fun _ h => h⟩

omit [Canon] in
theorem Follows.trans {t t' t'' : Task N Data} (h : Follows t t') (h' : Follows t' t'') :
    Follows t t'' :=
  ⟨h'.node.trans h.node, h'.serves.trans h.serves, fun w hw => h.awaits w (h'.awaits w hw)⟩

/-- In `s'` the parties wait for what they waited for in `s`, or for a task that waits for nothing. -/
structure Calmer (s s' : LoopNet N Data) : Prop where
  suspended : ∀ e i, s'.suspended e = some i → s.suspended e = some i ∨ s'.Quiet i
  task : ∀ i t', s'.task i = some t' → t'.awaits = [] ∨ ∃ t, s.task i = some t ∧ Follows t t'
  routers : ∀ n, Steady (s.routers n) (s'.routers n)

theorem Calmer.quiet (h : Calmer s s') {i : Nat} (hi : s.Quiet i) : s'.Quiet i := by
  intro t' ht'
  rcases h.task i t' ht' with hnil | ⟨t, ht, hfollows⟩
  · exact hnil
  · rw [List.eq_nil_iff_forall_not_mem]
    intro w hw
    have hmem := hfollows.awaits w hw
    rw [hi t ht] at hmem
    cases hmem

theorem Calmer.trans (h : Calmer s s') (h' : Calmer s' s'') : Calmer s s'' where
  suspended e i hi := by
    rcases h'.suspended e i hi with hold | hquiet
    · rcases h.suspended e i hold with hfirst | hquiet
      · exact Or.inl hfirst
      · exact Or.inr (h'.quiet hquiet)
    · exact Or.inr hquiet
  task i t'' ht'' := by
    rcases h'.task i t'' ht'' with hnil | ⟨t', ht', hfollows'⟩
    · exact Or.inl hnil
    · rcases h.task i t' ht' with hnil | ⟨t, ht, hfollows⟩
      · refine Or.inl (List.eq_nil_iff_forall_not_mem.mpr fun w hw => ?_)
        have hmem := hfollows'.awaits w hw
        rw [hnil] at hmem
        cases hmem
      · exact Or.inr ⟨t, ht, hfollows.trans hfollows'⟩
  routers n := (h.routers n).trans (h'.routers n)

/-- Answers arrive at the same ends. -/
theorem answerEnd_of_steady (h : ∀ n, Steady (s.routers n) (s'.routers n)) (n : N)
    (w : Await Data) : s'.answerEnd peer n w = s.answerEnd peer n w := by
  have hremote : ∀ m, (s'.routers m).isRemote w.pack = (s.routers m).isRemote w.pack := by
    intro m
    unfold Router.isRemote Router.isNode
    rw [(h m).node]
  unfold LoopNet.answerEnd
  dsimp only
  rw [hremote, (h (peer n w.ws).1).reach, (h n).node]

theorem idle_of_quiet {i : Nat} (h : s.Quiet i) : Idle (WaitsFor peer s) (.task i) := by
  intro b hb
  cases hb with
  | served ht hw =>
      rw [h _ ht] at hw
      cases hw
  | answered ht hw =>
      rw [h _ ht] at hw
      cases hw

/-- **No new circle.** -/
theorem Calmer.selfWait (h : Calmer s s') {e : ChannelEnd N} (he : SelfWait peer s' e) :
    SelfWait peer s e := by
  refine Circular.of_idle (fun a b hab => ?_) he
  cases hab with
  | suspended hsusp =>
      rcases h.suspended _ _ hsusp with hold | hquiet
      · exact Or.inl (.suspended hold)
      · exact Or.inr (idle_of_quiet hquiet)
  | @served i j t' u' w ht' hw hu' hlabel =>
      rcases h.task _ _ ht' with hnil | ⟨t, ht, hfollows⟩
      · rw [hnil] at hw
        cases hw
      · rcases h.task _ _ hu' with hnil | ⟨u, hu, hfollows'⟩
        · refine Or.inr (idle_of_quiet fun u'' hu'' => ?_)
          cases hu'.symm.trans hu''
          exact hnil
        · exact Or.inl (.served ht (hfollows.awaits w hw) hu (hfollows'.serves ▸ hlabel))
  | @answered i t' w e ht' hw he =>
      rcases h.task _ _ ht' with hnil | ⟨t, ht, hfollows⟩
      · rw [hnil] at hw
        cases hw
      · refine Or.inl (.answered ht (hfollows.awaits w hw) ?_)
        rw [← answerEnd_of_steady h.routers, ← hfollows.node]
        exact he

/-! ## §6 The parts of a step -/

theorem task_lt {i : Nat} {t : Task N Data} (h : s.task i = some t) : i < s.tasks.length := by
  unfold LoopNet.task at h
  by_contra hge
  rw [List.getElem?_eq_none (by omega)] at h
  cases h

theorem task_setTask_self {i : Nat} (h : i < s.tasks.length) (t : Option (Task N Data)) :
    (s.setTask i t).task i = t := by
  simp [LoopNet.task, LoopNet.setTask, h]

theorem task_setTask_of_ne {i j : Nat} (h : j ≠ i) (t : Option (Task N Data)) :
    (s.setTask i t).task j = s.task j := by
  unfold LoopNet.task LoopNet.setTask
  rw [List.getElem?_set_ne h.symm]

theorem task_addTask_self (t : Task N Data) : (s.addTask t).task s.tasks.length = some t := by
  simp [LoopNet.task, LoopNet.addTask]

theorem task_addTask_of_ne {j : Nat} (h : j ≠ s.tasks.length) (t : Task N Data) :
    (s.addTask t).task j = s.task j := by
  unfold LoopNet.task LoopNet.addTask
  rcases Nat.lt_or_gt_of_ne h with hlt | hgt
  · rw [List.getElem?_append_left hlt]
  · rw [List.getElem?_eq_none (by simp; omega), List.getElem?_eq_none (by omega)]

/-- A loop is suspended in what it was, as long as its task lives. -/
theorem suspended_of_loops {e : ChannelEnd N} {i : Nat} (hi : s'.suspended e = some i)
    (hloops : s'.loops e = s.loops e) (hlives : (s'.task i).isSome → (s.task i).isSome) :
    s.suspended e = some i := by
  unfold LoopNet.suspended at hi ⊢
  rw [hloops] at hi
  cases hl : s.loops e with
  | reading =>
      rw [hl] at hi
      cases hi
  | handling k =>
      rw [hl] at hi
      dsimp only at hi ⊢
      split at hi
      · rename_i hk
        cases hi
        rw [if_pos (hlives hk)]
      · cases hi
  | feeding k p =>
      rw [hl] at hi
      exact hi

theorem calmer_addTask {t : Task N Data} (h : t.awaits = []) : Calmer s (s.addTask t) where
  suspended e i hi := by
    by_cases heq : i = s.tasks.length
    · refine Or.inr fun t' ht' => ?_
      rw [heq, task_addTask_self] at ht'
      cases ht'
      exact h
    · refine Or.inl (suspended_of_loops hi rfl ?_)
      rw [task_addTask_of_ne heq]
      exact id
  task i t' ht' := by
    by_cases heq : i = s.tasks.length
    · rw [heq, task_addTask_self] at ht'
      cases ht'
      exact Or.inl h
    · rw [task_addTask_of_ne heq] at ht'
      exact Or.inr ⟨t', ht', .refl t'⟩
  routers _ := .refl _

/-- A task that goes on awaiting less, or ends. -/
theorem calmer_setTask {i : Nat} {t : Task N Data} (ht : s.task i = some t)
    {t' : Option (Task N Data)} (h : ∀ u, t' = some u → u.awaits = [] ∨ Follows t u) :
    Calmer s (s.setTask i t') where
  suspended e k hk := by
    refine Or.inl (suspended_of_loops hk rfl ?_)
    by_cases heq : k = i
    · rw [heq, ht]
      exact fun _ => rfl
    · rw [task_setTask_of_ne heq]
      exact id
  task k u hu := by
    by_cases heq : k = i
    · rw [heq, task_setTask_self (task_lt ht)] at hu
      rcases h u hu with hnil | hfollows
      · exact Or.inl hnil
      · exact Or.inr ⟨t, heq ▸ ht, hfollows⟩
    · rw [task_setTask_of_ne heq] at hu
      exact Or.inr ⟨u, hu, .refl u⟩
  routers _ := .refl _

variable [DecidableEq N]

theorem steady_update {n : N} {r : Router Data} (h : Steady (s.routers n) r) (m : N) :
    Steady (s.routers m) (Function.update s.routers n r m) := by
  by_cases heq : m = n
  · subst heq
    rw [Function.update_self]
    exact h
  · rw [Function.update_of_ne heq]
    exact .refl _

theorem calmer_sent {n : N} {r : Router Data} (h : Steady (s.routers n) r)
    (sends : List (Sock × MsgPack Data)) : Calmer s (s.sent peer n r sends) where
  suspended _ _ hi := Or.inl hi
  task _ t ht := Or.inr ⟨t, ht, .refl t⟩
  routers := steady_update h

theorem calmer_setConsumer (n : N) (label : String) (i : Nat) :
    Calmer s (s.setConsumer n label i) where
  suspended _ _ hi := Or.inl hi
  task _ t ht := Or.inr ⟨t, ht, .refl t⟩
  routers _ := .refl _

/-- A loop that is set to what does not suspend it. -/
theorem calmer_setLoop {e : ChannelEnd N} {l : Loop Data} (h : (s.setLoop e l).suspended e = none) :
    Calmer s (s.setLoop e l) where
  suspended e' i hi := by
    by_cases heq : e' = e
    · rw [heq, h] at hi
      cases hi
    · refine Or.inl (suspended_of_loops hi ?_ id)
      exact Function.update_of_ne heq l s.loops
  task _ t ht := Or.inr ⟨t, ht, .refl t⟩
  routers _ := .refl _

theorem calmer_consume (n : N) (p : MsgPack Data) : Calmer s (s.consume n p) :=
  (calmer_setConsumer n p.label s.tasks.length).trans (calmer_addTask rfl)

theorem calmer_handled (now : Time) (f : Transit N Data) :
    Calmer s (s.handled peer client now f) := by
  have hsent : Calmer s (s.sent peer f.node ((s.routers f.node).handle now f.pack f.ws).router
      ((s.routers f.node).handle now f.pack f.ws).sends) :=
    calmer_sent (steady_handle (s.routers f.node) now f.pack f.ws) _
  unfold LoopNet.handled
  split
  · exact calmer_addTask rfl
  · dsimp only
    split
    · refine hsent.trans (Calmer.trans (calmer_setLoop ?_) (calmer_addTask rfl))
      -- the task that the loop awaits is not there yet
      simp [LoopNet.suspended, LoopNet.setLoop, LoopNet.sent, LoopNet.task]
    · exact hsent.trans (calmer_consume _ _)
    · exact hsent

/-- A node sends, and one of its tasks goes on awaiting less, or ends. -/
theorem calmer_sent_setTask {i : Nat} {t : Task N Data} (ht : s.task i = some t) {n : N}
    {r : Router Data} (hr : Steady (s.routers n) r) (sends : List (Sock × MsgPack Data))
    {t' : Option (Task N Data)} (h : ∀ u, t' = some u → u.awaits = [] ∨ Follows t u) :
    Calmer s ((s.sent peer n r sends).setTask i t') := by
  have ht' : (s.sent peer n r sends).task i = some t := ht
  exact (calmer_sent hr sends).trans (calmer_setTask ht' h)

theorem calmer_begun {i : Nat} {n : N} {p : MsgPack Data} {ws : Sock}
    (ht : s.task i = some (.scheduled n p ws)) (now : Time) :
    Calmer s (s.begun peer i now n p ws) := by
  have hr := steady_handle (s.routers n) now p ws
  unfold LoopNet.begun
  dsimp only
  split
  · refine calmer_sent_setTask ht hr _ fun u hu => ?_
    cases hu
    exact Or.inl rfl
  · refine Calmer.trans (calmer_sent_setTask ht hr _ fun u hu => ?_) (calmer_consume _ _)
    cases hu
  · refine calmer_sent_setTask ht hr _ fun u hu => ?_
    cases hu

omit [Canon] [DecidableEq N] in
/-- The awaits without a label are awaits of the task. -/
theorem follows_withoutLabel (n : N) (request : Option (MsgPack Data)) (awaits : List (Await Data))
    (label : String) :
    Follows (.running n request awaits) (.running n request (withoutLabel awaits label)) where
  node := rfl
  serves := rfl
  awaits _ hw := List.mem_of_mem_filter hw

omit [DecidableEq N] in
theorem withTask_eq_some {i : Nat}
    {f : N → Option (MsgPack Data) → List (Await Data) → Option (LoopNet N Data)} :
    s.withTask i f = some s' ↔
      ∃ n request awaits, s.task i = some (.running n request awaits) ∧
        f n request awaits = some s' := by
  unfold LoopNet.withTask
  cases s.task i with
  | none => simp
  | some t =>
      cases t with
      | scheduled n p ws => simp
      | running n request awaits => simp

/-- Neither a call nor a wait at a full pipe. -/
def LoopEvent.Plain : LoopEvent N Data → Prop
  | .call _ _ => False
  | .stream _ _ => False
  | .stall _ _ => False
  | _ => True

/-- **Plain steps are calm.** -/
theorem calmer_step {ev : LoopEvent N Data} (hplain : ev.Plain)
    (hstep : (mesh peer client).step s ev = some s') : Calmer s s' := by
  cases ev with
  | call => exact hplain.elim
  | stream => exact hplain.elim
  | stall => exact hplain.elim
  | spawn n =>
      cases hstep
      exact calmer_addTask rfl
  | receive j now =>
      obtain ⟨f, _, rfl⟩ := Option.map_eq_some_iff.mp hstep
      -- taking the pack off the channel is no part of who waits for whom
      have htake : Calmer s { s with flight := s.flight.eraseIdx j } :=
        ⟨fun _ _ h => Or.inl h, fun _ t h => Or.inr ⟨t, h, .refl t⟩, fun _ => .refl _⟩
      exact htake.trans (calmer_handled now f)
  | room e now =>
      simp only [mesh] at hstep
      split at hstep
      · cases hstep
        refine (calmer_sent (steady_dispatch _ now _ _) []).trans (calmer_setLoop ?_)
        simp [LoopNet.suspended, LoopNet.setLoop]
      · cases hstep
  | begin i now =>
      simp only [mesh] at hstep
      split at hstep
      · rename_i ht
        cases hstep
        exact calmer_begun ht now
      · cases hstep
  | emit i p =>
      obtain ⟨n, _, _, _, heq⟩ := withTask_eq_some.mp hstep
      cases heq
      exact calmer_sent (steady_sendPack _ p) _
  | resume i label =>
      obtain ⟨n, request, awaits, ht, heq⟩ := withTask_eq_some.mp hstep
      split at heq
      · cases heq
        refine calmer_setTask ht fun u hu => ?_
        cases hu
        exact Or.inr (follows_withoutLabel n request awaits label)
      · cases heq
  | timeout i label =>
      obtain ⟨n, request, awaits, ht, heq⟩ := withTask_eq_some.mp hstep
      cases heq
      refine calmer_sent_setTask ht (steady_expire _ _) [] fun u hu => ?_
      cases hu
      exact Or.inr (follows_withoutLabel n request awaits label)
  | finish i outcome =>
      obtain ⟨n, request, awaits, ht, heq⟩ := withTask_eq_some.mp hstep
      split at heq
      · split at heq
        · cases heq
          refine calmer_setTask ht fun u hu => ?_
          cases hu
        · cases heq
          refine calmer_sent_setTask ht (steady_sendAll _ _) _ fun u hu => ?_
          cases hu
      · cases heq

/-! ## §7 Calls and full pipes -/

omit [DecidableEq N] in
/-- Parties wait in `s'` for all they waited for in `s`. -/
theorem WaitsFor.sub (hsusp : ∀ e i, s.suspended e = some i → s'.suspended e = some i)
    (htask : ∀ i t, s.task i = some t → ∃ t', s'.task i = some t' ∧ Follows t' t)
    (hrouters : ∀ n, Steady (s.routers n) (s'.routers n)) {a b : Party N}
    (h : WaitsFor peer s a b) : WaitsFor peer s' a b := by
  cases h with
  | suspended hi => exact .suspended (hsusp _ _ hi)
  | served ht hw hu hlabel =>
      obtain ⟨t', ht', hfollows⟩ := htask _ _ ht
      obtain ⟨u', hu', hfollows'⟩ := htask _ _ hu
      exact .served ht' (hfollows.awaits _ hw) hu' (hfollows'.serves ▸ hlabel)
  | answered ht hw he =>
      obtain ⟨t', ht', hfollows⟩ := htask _ _ ht
      refine .answered ht' (hfollows.awaits _ hw) ?_
      rw [answerEnd_of_steady hrouters, ← hfollows.node]
      exact he

omit [DecidableEq N] in
theorem serves_of_unused {label : String} (h : s.unused label = true) {i : Nat} {t : Task N Data}
    (ht : s.task i = some t) : t.serves ≠ some label := by
  unfold LoopNet.unused at h
  rw [List.all_eq_true] at h
  obtain ⟨o, ho, hjoin⟩ : ∃ o, s.tasks[i]? = some o ∧ o = some t := by
    unfold LoopNet.task at ht
    cases hget : s.tasks[i]? with
    | none =>
        rw [hget] at ht
        cases ht
    | some o =>
        rw [hget] at ht
        exact ⟨o, rfl, ht⟩
  have hno := h o (List.mem_of_getElem? ho)
  rw [hjoin] at hno
  simpa using hno

/-- The parts that a call has: the caller, the future it will await, and the router it leaves. -/
structure Issue (s : LoopNet N Data) (i : Nat) (n : N) (request : Option (MsgPack Data))
    (awaits : List (Await Data)) (r : Router Data) (label : String) : Prop where
  task : s.task i = some (.running n request awaits)
  unused : s.unused label = true
  steady : Steady (s.routers n) r

section Issued

variable {i : Nat} {n : N} {request : Option (MsgPack Data)} {awaits : List (Await Data)}
  {r : Router Data} {label : String} {p : MsgPack Data} {ws : Sock} {future : Nat}

theorem task_issued_self (h : Issue s i n request awaits r label) :
    (s.issued peer i n request awaits label (.sent r ws p future)).task i =
      some (.running n request (⟨label, p, ws, future⟩ :: awaits)) :=
  task_setTask_self (s := s.sent peer n r [(ws, p)]) (task_lt h.task) _

theorem task_issued_of_ne {j : Nat} (hj : j ≠ i) :
    (s.issued peer i n request awaits label (.sent r ws p future)).task j = s.task j :=
  task_setTask_of_ne (s := s.sent peer n r [(ws, p)]) hj _

theorem steady_issued (h : Issue s i n request awaits r label) (m : N) :
    Steady (s.routers m)
      ((s.issued peer i n request awaits label (.sent r ws p future)).routers m) :=
  steady_update h.steady m

/-- Every task of before is there, and the caller awaits one answer more. -/
theorem task_issued (h : Issue s i n request awaits r label) {j : Nat} {t : Task N Data}
    (ht : s.task j = some t) :
    ∃ t', (s.issued peer i n request awaits label (.sent r ws p future)).task j = some t' ∧
      Follows t' t := by
  by_cases hj : j = i
  · subst hj
    cases h.task.symm.trans ht
    exact ⟨_, task_issued_self h, rfl, rfl, fun w hw => List.mem_cons_of_mem _ hw⟩
  · exact ⟨t, (task_issued_of_ne hj).trans ht, .refl t⟩

theorem issued_task (h : Issue s i n request awaits r label) {j : Nat} {t' : Task N Data}
    (ht' : (s.issued peer i n request awaits label (.sent r ws p future)).task j = some t') :
    ∃ t, s.task j = some t ∧ t'.node = t.node ∧ t'.serves = t.serves ∧
      ∀ w ∈ t'.awaits, w ∈ t.awaits ∨ j = i ∧ w = ⟨label, p, ws, future⟩ := by
  by_cases hj : j = i
  · subst hj
    rw [task_issued_self h] at ht'
    cases ht'
    refine ⟨_, h.task, rfl, rfl, fun w hw => ?_⟩
    rcases List.mem_cons.mp hw with rfl | hmem
    · exact Or.inr ⟨rfl, rfl⟩
    · exact Or.inl hmem
  · rw [task_issued_of_ne hj] at ht'
    exact ⟨t', ht', rfl, rfl, fun w hw => Or.inl hw⟩

theorem suspended_issued (h : Issue s i n request awaits r label) (e : ChannelEnd N) (k : Nat) :
    (s.issued peer i n request awaits label (.sent r ws p future)).suspended e = some k ↔
      s.suspended e = some k := by
  constructor
  · intro hk
    refine suspended_of_loops hk rfl fun hlives => ?_
    obtain ⟨t', ht'⟩ := Option.isSome_iff_exists.mp hlives
    obtain ⟨t, ht, _⟩ := issued_task h ht'
    simp [ht]
  · intro hk
    refine suspended_of_loops hk rfl fun hlives => ?_
    obtain ⟨t, ht⟩ := Option.isSome_iff_exists.mp hlives
    obtain ⟨t', ht', _⟩ := task_issued h ht
    rw [ht']
    rfl

/-- What a call adds to the waits: the caller waits for the loop that will receive the answer. -/
theorem waitsFor_issued (h : Issue s i n request awaits r label) {a b : Party N}
    (hab : WaitsFor peer (s.issued peer i n request awaits label (.sent r ws p future)) a b) :
    WaitsFor peer s a b ∨
      a = .task i ∧ ∃ e, s.answerEnd peer n ⟨label, p, ws, future⟩ = some e ∧ b = .loop e := by
  cases hab with
  | suspended hi => exact Or.inl (.suspended ((suspended_issued h _ _).mp hi))
  | @served k j t' u' w ht' hw hu' hlabel =>
      obtain ⟨t, ht, _, _, hawaits⟩ := issued_task h ht'
      obtain ⟨u, hu, _, hserves, _⟩ := issued_task h hu'
      rcases hawaits w hw with hmem | ⟨_, rfl⟩
      · exact Or.inl (.served ht hmem hu (hserves ▸ hlabel))
      · -- nobody serves the new label yet
        exact absurd (hserves ▸ hlabel) (serves_of_unused h.unused hu)
  | @answered k t' w e ht' hw he =>
      obtain ⟨t, ht, hnode, _, hawaits⟩ := issued_task h ht'
      have hend : s.answerEnd peer t'.node w = some e := by
        rw [← answerEnd_of_steady (steady_issued h)]
        exact he
      rw [hnode] at hend
      rcases hawaits w hw with hmem | ⟨rfl, rfl⟩
      · exact Or.inl (.answered ht hmem hend)
      · cases h.task.symm.trans ht
        exact Or.inr ⟨rfl, e, hend, rfl⟩

/-- **A call closes a circle exactly when the loop that will receive the answer waits for the
caller.** -/
theorem selfWait_issued (h : Issue s i n request awaits r label) (hfree : ∀ e, ¬ SelfWait peer s e) :
    (∀ e, ¬ SelfWait peer (s.issued peer i n request awaits label (.sent r ws p future)) e) ↔
      ∀ e, s.answerEnd peer n ⟨label, p, ws, future⟩ = some e →
        ¬ ReflTransGen (WaitsFor peer s) (.loop e) (.task i) := by
  constructor
  · intro hnone e he hwait
    refine hnone e (circular_of_edge (u := .task i) ?_ ?_)
    · refine .answered (task_issued_self h) List.mem_cons_self ?_
      rw [answerEnd_of_steady (steady_issued h)]
      exact he
    · refine ReflTransGen.mono (fun a b hab => ?_) _ _ hwait
      exact WaitsFor.sub (fun e k hk => (suspended_issued h e k).mpr hk)
        (fun _ _ ht => task_issued h ht) (steady_issued h) hab
  · intro hopen e hself
    cases hend : s.answerEnd peer n ⟨label, p, ws, future⟩ with
    | none =>
        refine hfree e (Circular.mono hself fun a b hab => ?_)
        rcases waitsFor_issued h hab with hold | ⟨_, e', he', _⟩
        · exact hold
        · rw [hend] at he'
          cases he'
    | some e' =>
        have hclosed := Circular.of_edge (u := .task i) (v := .loop e') (fun a b hab => by
          rcases waitsFor_issued h hab with hold | ⟨ha, e'', he'', hb⟩
          · exact Or.inl hold
          · rw [hend] at he''
            cases he''
            exact Or.inr ⟨ha, hb⟩) hself
        rcases hclosed with hold | hwait
        · exact hfree e hold
        · exact hopen e' hend hwait

end Issued

/-- The state after the loop `e`, which can read, came to wait at the pipe of task `k`. -/
structure Stalled (s s' : LoopNet N Data) (e : ChannelEnd N) (k : Nat) : Prop where
  free : s.suspended e = none
  tasks : s'.tasks = s.tasks
  routers : ∀ n, Steady (s.routers n) (s'.routers n)
  waits : s'.suspended e = some k
  others : ∀ e' ≠ e, s'.loops e' = s.loops e'

omit [DecidableEq N] in
theorem Stalled.task {e : ChannelEnd N} {k : Nat} (h : Stalled s s' e k) (i : Nat) :
    s'.task i = s.task i := by
  unfold LoopNet.task
  rw [h.tasks]

omit [DecidableEq N] in
theorem Stalled.suspended {e e' : ChannelEnd N} {k i : Nat} (h : Stalled s s' e k) (hne : e' ≠ e) :
    s'.suspended e' = some i ↔ s.suspended e' = some i := by
  constructor
  · intro hi
    exact suspended_of_loops hi (h.others e' hne) (by rw [h.task]; exact id)
  · intro hi
    exact suspended_of_loops hi (h.others e' hne).symm (by rw [h.task]; exact id)

/-- **A wait at a full pipe closes a circle exactly when its consumer waits for the loop.** -/
theorem Stalled.selfWait {e : ChannelEnd N} {k : Nat} (h : Stalled s s' e k)
    (hfree : ∀ e, ¬ SelfWait peer s e) :
    (∀ e, ¬ SelfWait peer s' e) ↔ ¬ ReflTransGen (WaitsFor peer s) (.task k) (.loop e) := by
  have htask : ∀ i t, s.task i = some t → ∃ t', s'.task i = some t' ∧ Follows t' t :=
    fun i t ht => ⟨t, (h.task i).trans ht, .refl t⟩
  have hold : ∀ a b, WaitsFor peer s a b → WaitsFor peer s' a b := by
    intro a b hab
    refine WaitsFor.sub (fun e' i hi => ?_) htask h.routers hab
    by_cases heq : e' = e
    · -- the loop waited for nobody
      rw [heq, h.free] at hi
      cases hi
    · exact (h.suspended heq).mpr hi
  constructor
  · intro hnone hwait
    exact hnone e (TransGen.head' (.suspended h.waits) (ReflTransGen.mono hold _ _ hwait))
  · intro hopen e' hself
    have hnew : ∀ a b, WaitsFor peer s' a b →
        WaitsFor peer s a b ∨ a = .loop e ∧ b = .task k := by
      intro a b hab
      cases hab with
      | @suspended e' i hi =>
          by_cases heq : e' = e
          · subst heq
            cases h.waits.symm.trans hi
            exact Or.inr ⟨rfl, rfl⟩
          · exact Or.inl (.suspended ((h.suspended heq).mp hi))
      | served ht hw hu hlabel =>
          rw [h.task] at ht hu
          exact Or.inl (.served ht hw hu hlabel)
      | answered ht hw he =>
          rw [h.task] at ht
          rw [answerEnd_of_steady h.routers] at he
          exact Or.inl (.answered ht hw he)
    rcases Circular.of_edge hnew hself with hcircle | hwait
    · exact hfree e' hcircle
    · exact hopen hwait

/-! ## §8 Whole runs -/

/-- A call in a state without self-waits. -/
theorem selfWait_call (issue : Router Data → Called Data) {i : Nat} {label : String}
    (hsteady : ∀ r r', (issue r).router? = some r' → Steady r r')
    (hfree : ∀ e, ¬ SelfWait peer s e) {n : N} {request : Option (MsgPack Data)}
    {awaits : List (Await Data)} (ht : s.task i = some (.running n request awaits))
    (hunused : s.unused label = true) :
    (∀ e, ¬ SelfWait peer (s.issued peer i n request awaits label (issue (s.routers n))) e) ↔
      Answerable peer s i label issue := by
  cases hissue : issue (s.routers n) with
  | executed p =>
      refine ⟨fun _ n' request' awaits' r ws p' future e ht' hsent => ?_, fun _ => hfree⟩
      cases ht.symm.trans ht'
      cases hissue.symm.trans hsent
  | noRoute r =>
      have hr : Steady (s.routers n) r := hsteady _ _ (by rw [hissue]; rfl)
      refine ⟨fun _ n' request' awaits' r ws p' future e ht' hsent => ?_,
        fun _ e hself => hfree e ((calmer_sent hr []).selfWait hself)⟩
      cases ht.symm.trans ht'
      cases hissue.symm.trans hsent
  | sent r ws p future =>
      have hr : Steady (s.routers n) r := hsteady _ _ (by rw [hissue]; rfl)
      rw [selfWait_issued ⟨ht, hunused, hr⟩ hfree]
      constructor
      · intro h n' request' awaits' r' ws' p' future' e ht' hsent
        cases ht.symm.trans ht'
        cases hissue.symm.trans hsent
        exact h e
      · intro h e he
        exact h n request awaits r ws p future e ht hissue he

omit [DecidableEq N] in
/-- Who reads a pipe is no part of who waits for whom. -/
theorem Calmer.of_parts (hloops : s'.loops = s.loops) (htasks : s'.tasks = s.tasks)
    (hrouters : s'.routers = s.routers) : Calmer s s' where
  suspended e i hi := by
    refine Or.inl (suspended_of_loops hi (congrFun hloops e) ?_)
    unfold LoopNet.task
    rw [htasks]
    exact id
  task i t ht := by
    unfold LoopNet.task at ht
    rw [htasks] at ht
    exact Or.inr ⟨t, ht, .refl t⟩
  routers n := by
    rw [hrouters]
    exact .refl _

theorem selfWait_setConsumer (n : N) (label : String) (i : Nat) (e : ChannelEnd N) :
    SelfWait peer (s.setConsumer n label i) e ↔ SelfWait peer s e :=
  have hto : Calmer s (s.setConsumer n label i) := .of_parts rfl rfl rfl
  have hfrom : Calmer (s.setConsumer n label i) s := .of_parts rfl rfl rfl
  ⟨hto.selfWait, hfrom.selfWait⟩

theorem stalled_stall {j : Nat} {f : Transit N Data} (hf : s.readable j = some f) (now : Time)
    (k : Nat) :
    Stalled s
      (({ s with flight := s.flight.eraseIdx j }.sent peer f.node
        ((s.routers f.node).touchSource now f.pack) []).setLoop (f.node, f.ws) (.feeding k f.pack))
      (f.node, f.ws) k where
  free := by simpa using (Option.filter_eq_some_iff.mp hf).2
  tasks := rfl
  routers := steady_update (s := s) (steady_touchSource _ now f.pack)
  waits := by simp [LoopNet.suspended, LoopNet.setLoop]
  others e' hne := Function.update_of_ne hne _ s.loops

/-- **One step.** From a state without self-waits, a step leads to another exactly when it closes no
circle. -/
theorem selfWait_step {ev : LoopEvent N Data} (hfree : ∀ e, ¬ SelfWait peer s e)
    (hstep : (mesh peer client).step s ev = some s') :
    (∀ e, ¬ SelfWait peer s' e) ↔ NoCircle peer s ev := by
  have hplain : ev.Plain → ∀ e, ¬ SelfWait peer s' e := fun h e hself =>
    hfree e ((calmer_step h hstep).selfWait hself)
  cases ev with
  | call i a =>
      obtain ⟨n, request, awaits, ht, heq⟩ := withTask_eq_some.mp hstep
      split at heq
      · rename_i hunused
        cases heq
        exact selfWait_call (fun r => r.call a.label a.dst a.service a.method a.data)
          (fun r r' h => steady_call h) hfree ht hunused
      · cases heq
  | stream i a =>
      obtain ⟨n, request, awaits, ht, heq⟩ := withTask_eq_some.mp hstep
      split at heq
      · rename_i hunused
        cases heq
        simp only [selfWait_setConsumer]
        exact selfWait_call (fun r => r.stream a.label a.dst a.service a.method a.data)
          (fun r r' h => steady_stream h) hfree ht hunused
      · cases heq
  | stall j now =>
      obtain ⟨f, hf, hmap⟩ := Option.bind_eq_some_iff.mp hstep
      obtain ⟨k, hk, rfl⟩ := Option.map_eq_some_iff.mp hmap
      rw [(stalled_stall hf now k).selfWait hfree]
      constructor
      · intro h f' k' hf' hk'
        cases hf.symm.trans hf'
        cases hk.symm.trans hk'
        exact h
      · intro h
        exact h f k hf hk
  | spawn => exact ⟨fun _ => trivial, fun _ => hplain trivial⟩
  | receive => exact ⟨fun _ => trivial, fun _ => hplain trivial⟩
  | room => exact ⟨fun _ => trivial, fun _ => hplain trivial⟩
  | begin => exact ⟨fun _ => trivial, fun _ => hplain trivial⟩
  | emit => exact ⟨fun _ => trivial, fun _ => hplain trivial⟩
  | resume => exact ⟨fun _ => trivial, fun _ => hplain trivial⟩
  | timeout => exact ⟨fun _ => trivial, fun _ => hplain trivial⟩
  | finish => exact ⟨fun _ => trivial, fun _ => hplain trivial⟩

omit [DecidableEq N] in
theorem start_free (routers : N → Router Data) (e : ChannelEnd N) :
    ¬ SelfWait peer (LoopNet.start routers) e := by
  intro h
  refine h.not_idle fun b hb => ?_
  cases hb with
  | suspended hi => cases hi

/-- **When receive loops never wait on themselves.** In a run of any mesh from its start, no state
has a receive loop that waits for itself, exactly when each call of the run is issued while the loop
that will receive its answer does not wait for the caller, and no loop comes to wait at a pipe whose
consumer waits for the loop. -/
theorem self_wait_free_iff (peer : N → Sock → N × Sock) (client : ChannelEnd N → Bool)
    (routers : N → Router Data) {s : LoopNet N Data} {es : List (LoopEvent N Data)}
    (hr : (mesh peer client).run (LoopNet.start routers) es = some s) :
    (mesh peer client).Always (fun s => ∀ e, ¬ SelfWait peer s e) (LoopNet.start routers) es ↔
      (mesh peer client).Guarded (NoCircle peer) (LoopNet.start routers) es := by
  refine Machine.always_iff_guarded (fun _ h => h) ?_ ?_ (start_free routers) hr
  · intro s ev s' hfree hok hstep
    exact (selfWait_step hfree hstep).mpr hok
  · intro s ev s' hfree hno hstep hfree'
    exact hno ((selfWait_step hfree hstep).mp hfree')

/-! ## §9 The server side -/

omit [DecidableEq N] in
/-- Only a REQUEST or a FORWARDED runs a service method. -/
theorem dispatch_execute {r : Router Data} {now : Time} {p req : MsgPack Data} {ws : Sock}
    (h : (r.dispatch now p ws).act = some (.execute req)) : p.type.inBackground = true := by
  have hreply : ∀ reply : Reply Data,
      (match r.toWsClient p with
        | some h => h
        | none =>
            if p.path ≠ [] then r.relayBack p
            else { router := r.resolve p.label reply }).act = none := by
    intro reply
    split
    · rename_i hc
      unfold Router.toWsClient at hc
      obtain ⟨entry, _, rfl⟩ := Option.map_eq_some_iff.mp hc
      rfl
    · split <;> rfl
  unfold Router.dispatch at h
  cases htype : p.type with
  | request => rfl
  | forwarded => rfl
  | streamOpen => rfl
  | response =>
      simp only [htype] at h
      cases (hreply _).symm.trans h
  | streamReady =>
      simp only [htype] at h
      split at h <;> cases h
  | streamChunk =>
      simp only [htype] at h
      split at h
      · rw [(forwardStreamData_data now (by simp [MsgPack.isData, htype])).2.2] at h
        cases h
      · cases h
  | streamAck =>
      simp only [htype] at h
      split at h <;> cases h
  | streamEof =>
      simp only [htype] at h
      split at h
      · rw [(forwardStreamData_data now (by simp [MsgPack.isData, htype])).2.2] at h
        cases h
      · cases h
  | error =>
      simp only [htype] at h
      split at h
      · cases h
      · cases (hreply _).symm.trans h
  | gossip =>
      simp only [htype] at h
      split at h <;> cases h
  | announce =>
      simp only [htype] at h
      split at h <;> cases h
  | ping =>
      simp only [htype] at h
      cases h
  | pong =>
      simp only [htype] at h
      cases h
  | certSync =>
      simp only [htype] at h
      cases h
  | hello =>
      simp only [htype] at h
      cases h
  | helloAck =>
      simp only [htype] at h
      cases h
  | helloReject =>
      simp only [htype] at h
      cases h

/-- No loop of the server side awaits a service method. -/
def ServersRead (client : ChannelEnd N → Bool) (s : LoopNet N Data) : Prop :=
  ∀ e i, client e = false → s.loops e ≠ .handling i

theorem ServersRead.setLoop (h : ServersRead client s) {e : ChannelEnd N} {l : Loop Data}
    (hl : ∀ i, client e = false → l ≠ .handling i) : ServersRead client (s.setLoop e l) := by
  intro e' i he'
  by_cases heq : e' = e
  · subst heq
    show Function.update s.loops e' l e' ≠ _
    rw [Function.update_self]
    exact hl i he'
  · show Function.update s.loops e l e' ≠ _
    rw [Function.update_of_ne heq]
    exact h e' i he'

theorem ServersRead.handled (h : ServersRead client s) (now : Time) (f : Transit N Data) :
    ServersRead client (s.handled peer client now f) := by
  unfold LoopNet.handled
  split
  · exact h
  · rename_i hinline
    dsimp only
    split
    · rename_i req hact
      refine ServersRead.setLoop (s := s.sent peer f.node _ _) h fun i he => ?_
      -- the server side leaves such a pack to a background task
      have htype := dispatch_execute hact
      rw [he, htype] at hinline
      exact absurd rfl hinline
    · exact h
    · exact h

theorem serversRead_of_run (routers : N → Router Data) {es : List (LoopEvent N Data)}
    (hr : (mesh peer client).run (LoopNet.start routers) es = some s) : ServersRead client s := by
  refine Machine.invariant ?_ (fun e i _ => by simp [LoopNet.start]) hr
  intro s ev s' h hstep
  cases ev with
  | spawn n =>
      cases hstep
      exact h
  | receive j now =>
      obtain ⟨f, _, rfl⟩ := Option.map_eq_some_iff.mp hstep
      exact ServersRead.handled (s := { s with flight := s.flight.eraseIdx j }) h now f
  | stall j now =>
      obtain ⟨f, _, hmap⟩ := Option.bind_eq_some_iff.mp hstep
      obtain ⟨k, _, rfl⟩ := Option.map_eq_some_iff.mp hmap
      refine ServersRead.setLoop (s := { s with flight := s.flight.eraseIdx j }.sent peer f.node
        ((s.routers f.node).touchSource now f.pack) []) h fun i _ heq => ?_
      cases heq
  | room e now =>
      simp only [mesh] at hstep
      split at hstep
      · cases hstep
        refine ServersRead.setLoop (s := s.sent peer e.1 _ []) h fun i _ heq => ?_
        cases heq
      · cases hstep
  | begin i now =>
      simp only [mesh] at hstep
      split at hstep
      · cases hstep
        unfold LoopNet.begun
        dsimp only
        split <;> exact h
      · cases hstep
  | call i a =>
      obtain ⟨n, request, awaits, _, heq⟩ := withTask_eq_some.mp hstep
      split at heq
      · cases heq
        unfold LoopNet.issued
        split <;> exact h
      · cases heq
  | stream i a =>
      obtain ⟨n, request, awaits, _, heq⟩ := withTask_eq_some.mp hstep
      split at heq
      · cases heq
        unfold LoopNet.issued
        split <;> exact h
      · cases heq
  | emit i p =>
      obtain ⟨n, _, _, _, heq⟩ := withTask_eq_some.mp hstep
      cases heq
      exact h
  | resume i label =>
      obtain ⟨n, _, _, _, heq⟩ := withTask_eq_some.mp hstep
      split at heq
      · cases heq
        exact h
      · cases heq
  | timeout i label =>
      obtain ⟨n, _, _, _, heq⟩ := withTask_eq_some.mp hstep
      cases heq
      exact h
  | finish i outcome =>
      obtain ⟨n, request, _, _, heq⟩ := withTask_eq_some.mp hstep
      split at heq
      · split at heq
        · cases heq
          exact h
        · cases heq
          exact h
      · cases heq

/-- **The server side never runs a method in its loop**, in any run. If such a loop waits for itself,
then with a chunk in hand for which there is no place in a pipe. -/
theorem servers_read (routers : N → Router Data) {es : List (LoopEvent N Data)}
    (hr : (mesh peer client).run (LoopNet.start routers) es = some s) :
    ServersRead client s ∧
      ∀ e, client e = false → SelfWait peer s e → ∃ i p, s.loops e = .feeding i p := by
  have hread := serversRead_of_run routers hr
  refine ⟨hread, fun e he hwait => ?_⟩
  obtain ⟨b, hfirst, -⟩ := TransGen.head'_iff.mp hwait
  cases hfirst with
  | suspended hi =>
      cases hloop : s.loops e with
      | reading => simp [LoopNet.suspended, hloop] at hi
      | handling i => exact absurd hloop (hread e i he)
      | feeding i p => exact ⟨i, p, rfl⟩

/-! ## §10 Conditions that can be computed -/

/-- The loop that will receive the answer to a call is not suspended. -/
def awake (peer : N → Sock → N × Sock) (s : LoopNet N Data) (i : Nat) (label : String)
    (issue : Router Data → Called Data) : Bool :=
  match s.task i with
  | some (.running n _ _) =>
      match issue (s.routers n) with
      | .sent _ ws p future =>
          (s.answerEnd peer n ⟨label, p, ws, future⟩).all fun e => (s.suspended e).isNone
      | _ => true
  | _ => true

/-- Each call is answered over a channel whose loop reads, and no pipe is full. -/
def Awake (peer : N → Sock → N × Sock) (s : LoopNet N Data) : LoopEvent N Data → Bool
  | .call i a => awake peer s i a.label fun r => r.call a.label a.dst a.service a.method a.data
  | .stream i a => awake peer s i a.label fun r => r.stream a.label a.dst a.service a.method a.data
  | .stall _ _ => false
  | _ => true

omit [DecidableEq N] in
theorem answerable_of_awake (issue : Router Data → Called Data) {i : Nat} {label : String}
    (h : awake peer s i label issue = true) : Answerable peer s i label issue := by
  intro n request awaits r ws p future e ht hsent hend hwait
  have hnone : s.suspended e = none := by
    simpa [awake, ht, hsent, hend] using h
  -- a loop that reads waits for nobody
  rcases ReflTransGen.cases_head hwait with heq | ⟨b, hb, _⟩
  · cases heq
  · cases hb with
    | suspended hi =>
        rw [hnone] at hi
        cases hi

omit [DecidableEq N] in
theorem noCircle_of_awake (ev : LoopEvent N Data) (h : Awake peer s ev = true) :
    NoCircle peer s ev := by
  cases ev with
  | call i a =>
      exact answerable_of_awake (fun r => r.call a.label a.dst a.service a.method a.data) h
  | stream i a =>
      exact answerable_of_awake (fun r => r.stream a.label a.dst a.service a.method a.data) h
  | stall => cases h
  | _ => trivial

/-- The method that a loop runs awaits an answer that the loop receives. -/
def LoopNet.stuck (peer : N → Sock → N × Sock) (s : LoopNet N Data) (e : ChannelEnd N) : Bool :=
  match (s.suspended e).bind s.task with
  | some t => t.awaits.any fun w => s.answerEnd peer t.node w = some e
  | none => false

theorem selfWait_of_stuck {e : ChannelEnd N} (h : s.stuck peer e = true) : SelfWait peer s e := by
  unfold LoopNet.stuck at h
  split at h
  · rename_i t ht
    obtain ⟨i, hi, htask⟩ := Option.bind_eq_some_iff.mp ht
    obtain ⟨w, hw, hend⟩ := List.any_eq_true.mp h
    exact TransGen.tail (TransGen.single (.suspended hi)) (.answered htask hw (by simpa using hend))
  · cases h

end Calm

/-! ## §11 Two nodes -/

section Concrete

attribute [local instance] asciiCanon

/-- `a` has dialled `b`. -/
def pairClient : ChannelEnd Nat → Bool := fun e => e.1 = 0

/-- A task of `a` calls `b`, whose method calls `a` back. -/
def nestedEvents : List (LoopEvent Nat Nat) :=
  [.spawn 0, .call 0 ⟨"l1", "b", "files", "download", .null⟩, .receive 0 0, .begin 1 0,
    .call 1 ⟨"l2", "a", "files", "stat", .null⟩, .receive 0 0, .finish 2 (.value (.value 7)),
    .receive 0 0, .resume 1 "l2", .finish 1 (.value (.value 7)), .receive 0 0, .resume 0 "l1"]

/-- A task of `b` calls `a`, whose method calls `b` back. -/
def nestedBackEvents : List (LoopEvent Nat Nat) :=
  [.spawn 1, .call 0 ⟨"l1", "a", "files", "download", .null⟩, .receive 0 0,
    .call 1 ⟨"l2", "b", "files", "stat", .null⟩, .receive 0 0, .begin 2 0,
    .finish 2 (.value (.value 7))]

/-- Nested calls that start on the client side are answered. -/
theorem nested_self_wait_free :
    ∃ s, (mesh rowPeer pairClient).run (LoopNet.start rowRouter) nestedEvents = some s ∧
      (mesh rowPeer pairClient).Always (fun s => ∀ e, ¬ SelfWait rowPeer s e)
        (LoopNet.start rowRouter) nestedEvents := by
  obtain ⟨s, hs⟩ : ∃ s,
      (mesh rowPeer pairClient).run (LoopNet.start rowRouter) nestedEvents = some s :=
    Option.isSome_iff_exists.mp (by decide)
  refine ⟨s, hs, (self_wait_free_iff rowPeer pairClient rowRouter hs).mpr ?_⟩
  refine Machine.Guarded.mono (fun s ev h => noCircle_of_awake ev h) ?_
  exact (by decide : (mesh rowPeer pairClient).Guarded
    (fun s ev => Awake rowPeer s ev = true) (LoopNet.start rowRouter) nestedEvents)

theorem servers_read_nested :
    ∃ s, (mesh rowPeer pairClient).run (LoopNet.start rowRouter) nestedEvents = some s ∧
      (ServersRead pairClient s ∧ ∀ e, pairClient e = false → SelfWait rowPeer s e →
        ∃ i p, s.loops e = .feeding i p) := by
  obtain ⟨s, hs⟩ : ∃ s,
      (mesh rowPeer pairClient).run (LoopNet.start rowRouter) nestedEvents = some s :=
    Option.isSome_iff_exists.mp (by decide)
  exact ⟨s, hs, servers_read rowRouter hs⟩

/-- **The client side waits for itself**: the method runs in the loop that alone can receive the
answer to its call. The answer lies on the channel, and is not read. -/
theorem nested_back_self_wait :
    ∃ s, (mesh rowPeer pairClient).run (LoopNet.start rowRouter) nestedBackEvents = some s ∧
      SelfWait rowPeer s (0, 0) ∧
      s.flight.map (fun f => (f.node, f.ws, f.pack.type, f.pack.label)) =
        [(0, 0, .response, "l2")] ∧
      (s.readable 0).isNone := by
  obtain ⟨s, hs⟩ : ∃ s,
      (mesh rowPeer pairClient).run (LoopNet.start rowRouter) nestedBackEvents = some s :=
    Option.isSome_iff_exists.mp (by decide)
  have hfacts : ((mesh rowPeer pairClient).run (LoopNet.start rowRouter) nestedBackEvents).all
      (fun s => s.stuck rowPeer (0, 0) && (s.readable 0).isNone &&
        s.flight.map (fun f => (f.node, f.ws, f.pack.type, f.pack.label)) =
          [(0, 0, .response, "l2")]) = true := by decide
  rw [hs] at hfacts
  simp only [Option.all_some, Bool.and_eq_true, decide_eq_true_eq] at hfacts
  exact ⟨s, hs, selfWait_of_stuck hfacts.1.1, hfacts.2, hfacts.1.2⟩

end Concrete

end NetPulse.Mesh
