import Mathlib.Data.Finset.Basic
import NetPulse.Mesh.NeighborTable
import NetPulse.Mesh.Protocol
import NetPulse.Mesh.Sessions

/-
# NetPulse.Mesh.Router — routing on one node (`networking/router.py`)

A `Router` is the state of one node's router, with what it reads of its context: the ids of the node,
the sockets of the server side (`NodesManager.nodes`) and of the client side, and the neighbour
table. A socket is a number. Each function is the method of the same name, up to the point where the
method hands a pack to a transport, and answers the new state of the router with the pack sent.

`handle` does not run services. What the method would await, a service method, a stream consumer or a
pipe, is the field `act` of its answer, and the functions of §6 say how the router goes on from the
result. Log lines are left out.
-/

namespace NetPulse.Mesh

open NetPulse.Lib

/-- A websocket of either side. -/
abbrev Sock := Nat

/-- `_STREAM_ROUTE_TTL`, in seconds. -/
def STREAM_ROUTE_TTL : Time := 300

structure StreamRoute where
  source : String
  dst : String
  forwardPath : List String
  backwardPath : List String := []
  establishedAt : Time
  deriving DecidableEq

def StreamRoute.expired (now : Time) (route : StreamRoute) : Bool :=
  now - route.establishedAt > STREAM_ROUTE_TTL

/-- What the router asks the services of its node. -/
structure Services where
  /-- `get_service` finds the service -/
  known : Option String → Bool
  /-- the service has a stream handler of that name with a consumer -/
  consumer : Option String → Option String → Bool
  /-- the complaint about a pack without source -/
  invalidSource : String

/-- An optional name in an f-string. -/
def shown : Option String → String
  | some s => s
  | none => "None"

/-- The text of `MethodNotFound`. -/
def methodNotFound (service : Option String) (method : String) : String :=
  "Method not found: " ++ shown service ++ "." ++ method

section Routing

variable [Canon] (Data : Type*)

structure Router where
  NODE : String
  /-- `config.local.alias` -/
  localAlias : String
  nodes : Dict String Sock
  clientWs : Dict String Sock
  transportCache : Dict String Sock
  wsPending : Dict String (Sock × Time)
  streamRoutes : Dict String StreamRoute
  sessions : SessionTable (Reply Data)
  /-- the labels in the stream registry -/
  streams : Finset String
  table : NeighborTable
  services : Services

end Routing

namespace Router

variable [Canon] {Data : Type*}

/-- The router of a node that has met nobody. -/
def init (NODE localAlias : String) (services : Services) : Router Data where
  NODE := NODE
  localAlias := localAlias
  nodes := Dict.empty
  clientWs := Dict.empty
  transportCache := Dict.empty
  wsPending := Dict.empty
  streamRoutes := Dict.empty
  sessions := SessionTable.init
  streams := ∅
  table := NeighborTable.init NODE
  services := services

/-! ## §1 Transports -/

/-- A name is one of the node's own: `_canon(name) == _canon(NODE)`. -/
def isNode (r : Router Data) (name : String) : Bool := canon name = canon r.NODE

def registerClientWs (r : Router Data) (nodeId : String) (ws : Sock) : Router Data :=
  { r with
    clientWs := r.clientWs.set (canon nodeId) ws
    transportCache := r.transportCache.pop (canon nodeId) }

def unregisterClientWs (r : Router Data) (nodeId : String) : Router Data :=
  { r with
    clientWs := r.clientWs.pop (canon nodeId)
    transportCache := r.transportCache.pop (canon nodeId) }

def invalidateTransport (r : Router Data) (nodeId : String) : Router Data :=
  { r with transportCache := r.transportCache.pop (canon nodeId) }

/-- `nodes_manager.register` -/
def registerNode (r : Router Data) (nodeId : String) (ws : Sock) : Router Data :=
  { r with nodes := r.nodes.set (canon nodeId) ws }

/-- `nodes_manager.remove` -/
def removeNode (r : Router Data) (nodeId : String) : Router Data :=
  { r with nodes := r.nodes.pop (canon nodeId) }

/-- `get_transport_to`: the cached transport, else the server side, else the client side; a transport
that was looked up is cached. -/
def getTransportTo (r : Router Data) (nodeId : String) : Option (Router Data × Sock) :=
  match r.transportCache.get (canon nodeId) with
  | some ws => some (r, ws)
  | none =>
      match r.nodes.get (canon nodeId) with
      | some ws =>
          some ({ r with transportCache := r.transportCache.set (canon nodeId) ws }, ws)
      | none =>
          match r.clientWs.get (canon nodeId) with
          | some ws =>
              some ({ r with transportCache := r.transportCache.set (canon nodeId) ws }, ws)
          | none => none

/-! ## §2 Forwarding -/

/-- The pack is for another node: `pack.dst and _canon(pack.dst) != _canon(NODE)`. -/
def isRemote (r : Router Data) (p : MsgPack Data) : Bool :=
  match p.dst with
  | some dst => dst ≠ "" && !r.isNode dst
  | none => false

/-- What every branch of `_forward` does before it sends: append the own id to a path that does not
end in it, and count the hop. -/
def hop (r : Router Data) (p : MsgPack Data) : MsgPack Data :=
  let path :=
    match p.path.getLast? with
    | none => p.path ++ [r.NODE]
    | some last =>
        if canon last ≠ canon r.NODE ∧ canon last ≠ canon r.localAlias then p.path ++ [r.NODE]
        else p.path
  { p with path, ttl := p.ttl - 1 }

/-- The branches through a third node turn a REQUEST into FORWARDED. -/
def asForwarded (p : MsgPack Data) : MsgPack Data :=
  if p.type = .request then { p with type := .forwarded } else p

/-- `_resolve_by_host` -/
def resolveByHost (r : Router Data) (host : String) : Option String :=
  (r.table.all.find? fun info => info.host = host).map NeighborInfo.nodeId

/-- The branches 2b of `_forward`: the destination is the host of a neighbour. -/
def forwardByHost (r : Router Data) (dst : String) (p : MsgPack Data) :
    Option (Router Data × Sock × MsgPack Data) :=
  match (r.resolveByHost dst).filter (· ≠ "") with
  | none => none
  | some resolvedId =>
      match r.table.find resolvedId with
      | none => none
      | some neighbor =>
          match neighbor.nextHop with
          | some via =>
              match r.getTransportTo via with
              | some (r', ws) => some (r', ws, asForwarded (r.hop p))
              | none => none
          | none =>
              match r.nodes.get (canon resolvedId) with
              | some ws => some (r, ws, r.hop p)
              | none =>
                  match r.clientWs.get (canon resolvedId) with
                  | some ws => some (r, ws, r.hop p)
                  | none => none

/-- `_forward`; `none` is `NoRouteToHost`, which leaves the router as it was. -/
def forward (r : Router Data) (p : MsgPack Data) : Option (Router Data × Sock × MsgPack Data) :=
  match p.dst with
  | none => none
  | some dst =>
      match r.nodes.get (canon dst) with
      | some ws => some (r, ws, r.hop p)
      | none =>
          match r.clientWs.get (canon dst) with
          | some ws => some (r, ws, r.hop p)
          | none =>
              match ((r.table.find dst).bind NeighborInfo.nextHop).bind r.getTransportTo with
              | some (r', ws) => some (r', ws, asForwarded (r.hop p))
              | none => r.forwardByHost dst p

/-- Without a channel to the destination itself, the pack goes to the via of its entry. -/
theorem forward_of_via {r r' : Router Data} {p : MsgPack Data} {dst via : String} {ws : Sock}
    (hdst : p.dst = some dst) (hnode : r.nodes.get (canon dst) = none)
    (hclient : r.clientWs.get (canon dst) = none)
    (hvia : (r.table.find dst).bind NeighborInfo.nextHop = some via)
    (hsend : r.getTransportTo via = some (r', ws)) :
    r.forward p = some (r', ws, asForwarded (r.hop p)) := by
  simp only [forward, hdst, hnode, hclient, hvia, Option.bind_some, hsend]

/-! ## §3 The way back -/

/-- `_resolve_payload` -/
def resolvePayload (p : MsgPack Data) : Reply Data :=
  if p.type = .error then
    .exception (some ((p.error.filter (· ≠ "")).getD "unknown error"))
  else .data p.data

/-- `sessions.resolve` -/
def resolve (r : Router Data) (label : String) (reply : Reply Data) : Router Data :=
  { r with sessions := r.sessions.resolve label reply }

/-- The path without its last id, when that is the own one. -/
def stripSelf (r : Router Data) (path : List String) : List String :=
  match path.getLast? with
  | some last => if r.isNode last then path.dropLast else path
  | none => path

/-- `_route_back`: take the own id off the end of the path and send to the new end; an empty path
ends at this node. A broken path drops the pack. -/
def routeBack (r : Router Data) (p : MsgPack Data) :
    Router Data × Option (Sock × MsgPack Data) :=
  match (r.stripSelf p.path).getLast? with
  | none => (r.resolve p.label (resolvePayload p), none)
  | some nextHop =>
      match r.getTransportTo nextHop with
      | some (r', ws) => (r', some (ws, { p with path := r.stripSelf p.path }))
      | none => (r, none)

/-- Send to the destination itself, or drop the pack. -/
def sendDirect (r : Router Data) (p : MsgPack Data) : Router Data × Option (Sock × MsgPack Data) :=
  match p.dst.bind r.getTransportTo with
  | some (r', ws) => (r', some (ws, p))
  | none => (r, none)

/-- `_send_back` -/
def sendBack (r : Router Data) (response original : MsgPack Data) :
    Router Data × Option (Sock × MsgPack Data) :=
  if original.path ≠ [] then r.routeBack { response with path := original.path }
  else r.sendDirect response

/-- `_send_pack` -/
def sendPack (r : Router Data) (p : MsgPack Data) : Router Data × Option (Sock × MsgPack Data) :=
  if p.path ≠ [] then r.routeBack p else r.sendDirect p

/-! ## §4 Stream routes -/

/-- `get_stream_route`: an expired route is dropped, and any other is as good as new. -/
def getStreamRoute (r : Router Data) (now : Time) (label : String) :
    Router Data × Option StreamRoute :=
  match r.streamRoutes.get label with
  | none => (r, none)
  | some route =>
      if route.expired now then ({ r with streamRoutes := r.streamRoutes.pop label }, none)
      else
        let route := { route with establishedAt := now }
        ({ r with streamRoutes := r.streamRoutes.set label route }, some route)

/-- `_cache_stream_route_on_open` -/
def cacheStreamRouteOnOpen (r : Router Data) (now : Time) (p : MsgPack Data) : Router Data :=
  match p.dst with
  | none => r
  | some dst =>
      if p.path = [] ∨ p.source = "" ∨ dst = "" then r
      else
        { r with
          streamRoutes := r.streamRoutes.set p.label
            { source := canon p.source
              dst := canon dst
              forwardPath := p.path.reverse.map canon
              backwardPath := p.path.map canon
              establishedAt := now } }

/-- `_cache_stream_route_on_ready` -/
def cacheStreamRouteOnReady (r : Router Data) (now : Time) (p : MsgPack Data) : Router Data :=
  match p.dst with
  | none => r
  | some dst =>
      if p.path = [] ∨ p.source = "" ∨ dst = "" then r
      else
        { r with
          streamRoutes := r.streamRoutes.set p.label
            { source := canon dst
              dst := canon p.source
              forwardPath := p.path.reverse.map canon
              backwardPath := p.path.map canon
              establishedAt := now } }

/-- The id behind the own one on the forward path of a route. -/
def nextOnRoute (r : Router Data) (route : StreamRoute) : Option String :=
  if r.NODE ∈ route.forwardPath then route.forwardPath[route.forwardPath.idxOf r.NODE + 1]?
  else none

/-- The socket to the next node of a cached route. -/
def cachedHop (r : Router Data) (route : Option StreamRoute) : Option (Router Data × Sock) :=
  (route.bind r.nextOnRoute).bind r.getTransportTo

/-- `send_stream_ack`: along the backward path of the cached route. -/
def sendStreamAck (r : Router Data) (now : Time) (label : String) (buff : Int) :
    Router Data × Option (Sock × MsgPack Data) :=
  match r.getStreamRoute now label with
  | (r', none) => (r', none)
  | (r', some route) =>
      let ack : MsgPack Data :=
        { type := .streamAck, source := r.NODE, dst := some route.source, label := label
          data := .buff buff, path := route.backwardPath }
      if route.backwardPath ≠ [] then r'.routeBack ack
      else if route.source ≠ "" then r'.sendDirect ack
      else (r', none)

/-! ## §5 The dispatcher -/

/-- What the handler of a pack awaits besides transports. -/
inductive Act (Data : Type*) where
  /-- `executor.execute` -/
  | execute (p : MsgPack Data)
  /-- a consumer task was started -/
  | consume (p : MsgPack Data)
  /-- `stream_registry.feed`, `close` -/
  | feed (label : String) (data : Payload Data)
  | close (label : String)
  /-- `stream_registry.fail` -/
  | fail (label : String) (error : String)

/-- What `handle` did with a pack. -/
structure Handled (Data : Type*) where
  router : Router Data
  /-- the pack itself, sent on -/
  relayed : Option (Sock × MsgPack Data) := none
  /-- a pack made in answer to it -/
  answered : Option (Sock × MsgPack Data) := none
  act : Option (Act Data) := none
  /-- `NoRouteToHost` left the handler -/
  raised : Bool := false

/-- `_forward` as the end of a handler. -/
def relay (r : Router Data) (p : MsgPack Data) : Handled Data :=
  match r.forward p with
  | some (r', ws, p') => { router := r', relayed := some (ws, p') }
  | none => { router := r, raised := true }

/-- `_route_back` as the end of a handler. -/
def relayBack (r : Router Data) (p : MsgPack Data) : Handled Data :=
  { router := (r.routeBack p).1, relayed := (r.routeBack p).2 }

def onForwarded (r : Router Data) (p : MsgPack Data) : Handled Data :=
  if p.ttl ≤ 0 then { router := r }
  else if canon r.NODE ∈ p.path.map canon then { router := r }
  else
    let p := { p with path := p.path ++ [r.NODE] }
    if canon? p.dst = some (canon r.NODE) then
      { router := r, act := some (.execute { p with type := .request }) }
    else r.relay p

def onRemoteRequest (r : Router Data) (now : Time) (p : MsgPack Data) (ws : Sock) : Handled Data :=
  let r' := { r with wsPending := r.wsPending.set p.label (ws, now) }
  match r'.forward { p with path := p.path ++ [r.NODE], ttl := p.ttl - 1 } with
  | some (r'', ws', p') => { router := r'', relayed := some (ws', p') }
  | none =>
      { router := { r' with wsPending := r'.wsPending.pop p.label }
        answered := some (ws,
          { type := .error, source := r.NODE, dst := some p.source, label := p.label
            error := some ("No route to host: " ++ shown p.dst) }) }

def forwardStreamOpen (r : Router Data) (now : Time) (p : MsgPack Data) : Handled Data :=
  let p := { p with path := p.path ++ [r.NODE], ttl := p.ttl - 1 }
  match p.dst with
  | none => r.relay p
  | some dst =>
      if p.source = "" ∨ dst = "" ∨ (r.streamRoutes.get p.label).isSome then r.relay p
      else
        relay
          { r with
            streamRoutes := r.streamRoutes.set p.label
              { source := canon p.source
                dst := canon dst
                forwardPath := p.path.map canon
                establishedAt := now } }
          p

def forwardStreamData (r : Router Data) (now : Time) (p : MsgPack Data) : Handled Data :=
  let (r', route) := r.getStreamRoute now p.label
  match r'.cachedHop route with
  | some (r'', ws) => { router := r'', relayed := some (ws, p) }
  | none => r'.relay p

/-- `_on_stream_open` with `executor.open_stream`: READY, or an ERROR. -/
def onStreamOpen (r : Router Data) (p : MsgPack Data) :
    Router Data × MsgPack Data × Option (Act Data) :=
  let err (text : String) : MsgPack Data :=
    { type := .error, source := r.NODE, dst := some p.source, label := p.label, error := some text }
  if !r.services.known p.service then
    (r, err (methodNotFound p.service (shown p.method)), none)
  else if !r.services.consumer p.service p.method then
    (r, err (methodNotFound p.service ("stream:" ++ shown p.method)), none)
  else
    let r' := { r with streams := insert p.label r.streams }
    match p.dst with
    | none => (r', err r.services.invalidSource, some (.consume p))
    | some dst =>
        (r',
          { type := .streamReady, source := dst, dst := some p.source, label := p.label
            data := .ready },
          some (.consume p))

/-- `neighbor_table.touch(pack.source)` -/
def touchSource (r : Router Data) (now : Time) (p : MsgPack Data) : Router Data :=
  if p.source ≠ "" then { r with table := r.table.touch now p.source } else r

/-- Touching is about the table, and nothing else. -/
theorem exists_touchSource (r : Router Data) (now : Time) (p : MsgPack Data) :
    ∃ table, r.touchSource now p = { r with table } := by
  unfold touchSource
  split
  · exact ⟨_, rfl⟩
  · exact ⟨r.table, rfl⟩

theorem isRemote_touchSource (r : Router Data) (now : Time) (p q : MsgPack Data) :
    (r.touchSource now p).isRemote q = r.isRemote q := by
  obtain ⟨table, htouch⟩ := r.exists_touchSource now p
  rw [htouch]
  rfl

/-- A source that is not in the table is not touched. -/
theorem touchSource_of_unknown {r : Router Data} (now : Time) {p : MsgPack Data}
    (h : r.table.find p.source = none) : r.touchSource now p = r := by
  have htouch : r.table.touch now p.source = r.table := by
    unfold NeighborTable.find at h
    simp only [NeighborTable.touch, NeighborTable.modify, h]
  unfold touchSource
  rw [htouch]
  split <;> rfl

/-- A reply for a WS client goes to its socket; `none` when no client waits under the label. -/
def toWsClient (r : Router Data) (p : MsgPack Data) : Option (Handled Data) :=
  (r.wsPending.get p.label).map fun entry =>
    { router := { r with wsPending := r.wsPending.pop p.label }
      relayed := some (entry.1, p) }

/-- `handle`, after the `touch`. -/
def dispatch (r : Router Data) (now : Time) (p : MsgPack Data) (ws : Sock) : Handled Data :=
  match p.type with
  | .forwarded => r.onForwarded p
  | .request =>
      if r.isRemote p then r.onRemoteRequest now p ws
      else { router := r, act := some (.execute p) }
  | .response =>
      match r.toWsClient p with
      | some h => h
      | none =>
          if p.path ≠ [] then r.relayBack p
          else { router := r.resolve p.label (.data p.data) }
  | .streamOpen =>
      if r.isRemote p then r.forwardStreamOpen now p
      else
        let (r', response, act) := r.onStreamOpen p
        let sent := (r'.cacheStreamRouteOnOpen now p).sendBack response p
        { router := sent.1, answered := sent.2, act }
  | .streamReady =>
      let r' := r.cacheStreamRouteOnReady now p
      if p.path ≠ [] then r'.relayBack p
      else { router := r'.resolve p.label (.data p.data) }
  | .streamChunk =>
      if r.isRemote p then r.forwardStreamData now p
      else { router := r, act := some (.feed p.label p.data) }
  | .streamAck =>
      if r.isRemote p then r.relayBack p
      else { router := r.resolve ("ack_" ++ p.label) .ack }
  | .streamEof =>
      if r.isRemote p then r.forwardStreamData now p
      else
        { router :=
            { r with
              streams := r.streams.erase p.label
              streamRoutes := r.streamRoutes.pop p.label }
          act := some (.close p.label) }
  | .error =>
      if p.label ∈ r.streams then
        { router := { r with streams := r.streams.erase p.label }
          act := some (.fail p.label ((p.error.filter (· ≠ "")).getD "producer failed")) }
      else
        match r.toWsClient p with
        | some h => h
        | none =>
            if p.path ≠ [] then r.relayBack p
            else { router := r.resolve p.label (.exception p.error) }
  | .gossip =>
      match p.data with
      | .gossip neighbors fromNode =>
          { router := { r with table := r.table.mergeGossip now neighbors (fromNode.getD p.source) } }
      | _ => { router := r }
  | .announce =>
      match p.data with
      | .announce services fromNode =>
          { router := { r with table := r.table.updateServices (fromNode.getD p.source) services } }
      | _ => { router := { r with table := r.table.updateServices p.source [] } }
  | .ping =>
      let pong : MsgPack Data :=
        { type := .pong, source := r.NODE, dst := some p.source, label := p.label, path := p.path }
      let sent := r.sendBack pong p
      { router := sent.1, answered := sent.2 }
  | .pong => { router := r.resolve p.label .pong }
  | .certSync => { router := r }
  | .hello => { router := r }
  | .helloAck => { router := r }
  | .helloReject => { router := r }

theorem dispatch_streamOpen_remote {r : Router Data} (now : Time) {p : MsgPack Data} (ws : Sock)
    (htype : p.type = .streamOpen) (hremote : r.isRemote p = true) :
    r.dispatch now p ws = r.forwardStreamOpen now p := by
  simp only [dispatch, htype, hremote, if_true]

def handle (r : Router Data) (now : Time) (p : MsgPack Data) (ws : Sock) : Handled Data :=
  (r.touchSource now p).dispatch now p ws

/-! ## §6 Requests: `_on_request` and `call` -/

/-- How a service method ends. -/
inductive Outcome (Data : Type*) where
  | value (d : Payload Data)
  /-- an async generator: its chunks, and the exception it ends with, if any -/
  | generator (chunks : List (Payload Data)) (failure : Option String)
  | methodNotFound
  /-- an exception, as `type: text` -/
  | raised (text : String)

/-- The packs that `_on_request` sends for a request `p`, all with the path of the request. -/
def responses (r : Router Data) (p : MsgPack Data) (outcome : Outcome Data) :
    List (MsgPack Data) :=
  let err (text : String) : MsgPack Data :=
    { type := .error, source := r.NODE, dst := some p.source, label := p.label, error := some text
      path := p.path }
  match outcome with
  | .methodNotFound => [err (methodNotFound p.service (shown p.method))]
  | .raised text => [err text]
  | .value d =>
      match p.dst with
      | none => [err r.services.invalidSource]
      | some dst =>
          [{ type := .response, source := dst, dst := some p.source, service := p.service
             method := p.method, label := p.label, data := d, path := p.path }]
  | .generator chunks failure =>
      let pack (type : PackType) (data : Payload Data) : MsgPack Data :=
        { type, source := r.NODE, dst := some p.source, label := p.label, data, path := p.path }
      chunks.map (pack .streamChunk) ++
        match failure with
        | some text => [err text]
        | none => [pack .streamEof .null]

/-- Send packs one after the other. -/
def sendAll (r : Router Data) : List (MsgPack Data) → Router Data × List (Sock × MsgPack Data)
  | [] => (r, [])
  | p :: rest =>
      let sent := r.sendPack p
      let more := sent.1.sendAll rest
      (more.1, sent.2.toList ++ more.2)

/-- `_on_request`, once the service method has ended. -/
def answer (r : Router Data) (p : MsgPack Data) (outcome : Outcome Data) :
    Router Data × List (Sock × MsgPack Data) :=
  r.sendAll (r.responses p outcome)

/-- What `call` does before it waits. -/
inductive Called (Data : Type*) where
  /-- the request is for this node -/
  | executed (p : MsgPack Data)
  | sent (r : Router Data) (ws : Sock) (p : MsgPack Data) (future : Nat)
  /-- `NoRouteToHost` -/
  | noRoute (r : Router Data)

/-- The pack of `call`. -/
def callPack (r : Router Data) (label dst service method : String) (data : Payload Data) :
    MsgPack Data :=
  { type := .request, source := r.NODE, dst := some dst, service := some service
    method := some method, data, label, path := [r.NODE] }

/-- `call`, up to its `wait_for`. -/
def call (r : Router Data) (label dst service method : String) (data : Payload Data) :
    Called Data :=
  let p := r.callPack label dst service method data
  if r.isNode dst ∨ canon dst = canon r.localAlias then .executed p
  else if r.resolveByHost dst = some r.NODE then .executed p
  else
    let registered := r.sessions.registerSingle label service method
    let r' := { r with sessions := registered.1 }
    match r'.forward p with
    | some (r'', ws, p') => .sent r'' ws p' registered.2
    | none => .noRoute { r' with sessions := r'.sessions.cancel label }

/-- The pack of `stream`. -/
def openPack (r : Router Data) (label dst service method : String) (data : Payload Data) :
    MsgPack Data :=
  { type := .streamOpen, source := r.NODE, dst := some dst, service := some service
    method := some method, data, label, path := [r.NODE] }

/-- `stream`, up to its `wait_for`: the pipe is registered before the pack is sent. -/
def stream (r : Router Data) (label dst service method : String) (data : Payload Data) :
    Called Data :=
  let registered := r.sessions.registerSingle label service method
  let r' := { r with sessions := registered.1, streams := insert label r.streams }
  match r'.forward (r.openPack label dst service method data) with
  | some (r'', ws, p') => .sent r'' ws p' registered.2
  | none =>
      .noRoute
        { r' with sessions := r'.sessions.cancel label, streams := r'.streams.erase label }

end Router

end NetPulse.Mesh
