import NetPulse.Mesh.HeldSockets
import NetPulse.Mesh.Liveness

/-
# NetPulse.Mesh.HelloAck — the first pack on an accepted socket

`websocket_endpoint` makes an accepted socket known to the router and then sends HELLO_ACK on it. On a
first connection nothing comes between. On a reconnect the handler awaits in between that the old
socket is closed, and in the meantime every task that looks for a transport may find the new one: the
rounds of gossip and announcements, the pings, and the router with requests, answers and streams. The
connecting side takes whatever comes first for the answer to its HELLO.

`ack_first_iff`: the first pack is HELLO_ACK on all accepted sockets exactly when nothing is sent on a
socket whose handler waits like that.
-/

namespace NetPulse.Mesh

open NetPulse.Lib Router

section HelloAck

variable [Canon] {Data : Type*}

/-! ## §1 The tasks that send -/

/-- `cleanup_ws_pending` -/
def Router.cleanupWsPending (r : Router Data) (ws : Sock) : Router Data :=
  { r with wsPending := r.wsPending.filter fun _ entry => entry.1 ≠ ws }

/-- `sweep_ws_pending` -/
def Router.sweepWsPending (r : Router Data) (now : Time) : Router Data :=
  { r with wsPending := r.wsPending.filter fun _ entry => ¬ (now - entry.2 > 180) }

/-- One pack for several nodes: the transports are looked up, and `gather` sends later. -/
def Router.pickAll (r : Router Data) (p : MsgPack Data) :
    List String → Router Data × List (Sock × MsgPack Data)
  | [] => (r, [])
  | name :: rest =>
      match r.getTransportTo name with
      | some (r', ws) => ((r'.pickAll p rest).1, (ws, p) :: (r'.pickAll p rest).2)
      | none => r.pickAll p rest

def Router.connectedIds (r : Router Data) : List String := r.table.connected.map NeighborInfo.nodeId

/-- One round of `_gossip_loop`; `mono` is the monotonic clock. -/
def Router.gossipRound (r : Router Data) (now mono : Time) (label : String) :
    Router Data × List (Sock × MsgPack Data) :=
  let r := r.sweepWsPending mono
  let r := { r with table := r.table.sweep now 90 300 }
  if r.table.toGossip = [] then (r, [])
  else
    r.pickAll
      { type := .gossip, source := r.NODE, label, data := .gossip r.table.toGossip (some r.NODE) }
      r.connectedIds

/-- One round of `_announce_loop`. -/
def Router.announceRound (r : Router Data) (services : List String) (label : String) :
    Router Data × List (Sock × MsgPack Data) :=
  r.pickAll { type := .announce, source := r.NODE, label, data := .announce services (some r.NODE) }
    r.connectedIds

/-- A send to a neighbour: the PING of a connector, the CERT_SYNC after a HELLO. -/
def Router.sendTo (r : Router Data) (name : String) (p : MsgPack Data) :
    Router Data × List (Sock × MsgPack Data) :=
  match r.getTransportTo name with
  | some (r', ws) => (r', [(ws, p)])
  | none => (r, [])

/-- What `call` and `stream` send. -/
def Router.Called.result (r : Router Data) : Called Data → Router Data × List (Sock × MsgPack Data)
  | .executed _ => (r, [])
  | .sent r' ws p _ => (r', [(ws, p)])
  | .noRoute r' => (r', [])

inductive ServerTask (Data : Type*) where
  /-- a pack that came on a socket -/
  | receive (now : Time) (ws : Sock) (p : MsgPack Data)
  /-- a pack of `_on_request` -/
  | respond (p : MsgPack Data)
  | call (label dst service method : String) (data : Payload Data)
  | stream (label dst service method : String) (data : Payload Data)
  | streamAck (now : Time) (label : String) (buff : Int)
  | sendTo (name : String) (p : MsgPack Data)

/-- What the task does up to its next suspension. -/
def ServerTask.run (r : Router Data) : ServerTask Data → Router Data × List (Sock × MsgPack Data)
  | .receive now ws p => ((r.handle now p ws).router, (r.handle now p ws).sends)
  | .respond p => ((r.sendPack p).1, (r.sendPack p).2.toList)
  | .call label dst service method data => (r.call label dst service method data).result r
  | .stream label dst service method data => (r.stream label dst service method data).result r
  | .streamAck now label buff =>
      ((r.sendStreamAck now label buff).1, (r.sendStreamAck now label buff).2.toList)
  | .sendTo name p => r.sendTo name p

/-! ## §2 The server -/

/-- A pack that the server has sent on a socket. -/
inductive Sent (Data : Type*) where
  /-- the handshake's own -/
  | helloAck
  | traffic (p : MsgPack Data)

def Sent.type : Sent Data → PackType
  | .helloAck => .helloAck
  | .traffic p => p.type

/-- The answer of `_handshake`, by the first pack that comes: HELLO_REJECT and any other pack end in
`return False`. -/
def handshake : PackType → Bool
  | .helloAck => true
  | .helloReject => false
  | _ => false

structure ServerState (Data : Type*) where
  live : LiveState Data
  /-- all sockets so far; each connection is a new one -/
  used : List Sock
  /-- the sockets whose HELLO was accepted -/
  accepted : List Sock
  /-- the sends that `gather` has scheduled -/
  scheduled : List (Sock × MsgPack Data)
  log : List (Sock × Sent Data)

inductive ServerEvent (Data : Type*) where
  /-- a connection comes, goes on with its handshake, or goes -/
  | channel (e : LiveEvent)
  | task (t : ServerTask Data)
  | gossipRound (now mono : Time) (label : String)
  | announceRound (services : List String) (label : String)
  /-- a scheduled send begins -/
  | begin (k : Nat)

/-- The socket that the event brings in. -/
def LiveEvent.newSock : LiveEvent → Option Sock
  | .hello ws _ _ _ => some ws
  | .dial _ _ ws => some ws
  | _ => none

def LiveEvent.accepts : LiveEvent → Option Sock
  | .hello ws _ _ _ => some ws
  | _ => none

namespace ServerState

variable (s : ServerState Data)

def init (router : Router Data) : ServerState Data where
  live := .init router
  used := []
  accepted := []
  scheduled := []
  log := []

/-- The handler of the socket waits for the old one to close. -/
def Waiting (ws : Sock) : Prop := (s.live.inbound.get ws).map Inbound.stage = some .replacing

instance (ws : Sock) : Decidable (s.Waiting ws) := inferInstanceAs (Decidable (_ = _))

/-- The socket on which the event sends HELLO_ACK. -/
def acks : LiveEvent → Option Sock
  | .hello ws peer _ _ => if (s.live.router.nodes.get (canon peer)).isSome then none else some ws
  | .resume ws _ _ => some ws
  | _ => none

/-- The end of a handler also forgets the clients on its socket. -/
def cleaned (live : LiveState Data) : LiveEvent → LiveState Data
  | .serverClosed ws => { live with router := live.router.cleanupWsPending ws }
  | _ => live

def withRouter (router : Router Data) : ServerState Data :=
  { s with live := { s.live with router } }

/-- The packs go out. -/
def transmit (sent : List (Sock × MsgPack Data)) : ServerState Data :=
  { s with log := s.log ++ sent.map fun q => (q.1, .traffic q.2) }

def schedule (sent : List (Sock × MsgPack Data)) : ServerState Data :=
  { s with scheduled := s.scheduled ++ sent }

/-- A pack can come on the socket: its handshake is over. -/
def canReceive : ServerTask Data → Bool
  | .receive _ ws _ => ws ∈ s.used ∧ ¬ s.Waiting ws
  | _ => true

def step : ServerEvent Data → Option (ServerState Data)
  | .channel e =>
      if e.newSock.any (· ∈ s.used) then none
      else
        (s.live.step e).map fun live =>
          { s with
            live := cleaned live e
            used := e.newSock.toList ++ s.used
            accepted := e.accepts.toList ++ s.accepted
            log := s.log ++ (s.acks e).toList.map fun ws => (ws, .helloAck) }
  | .task t =>
      if s.canReceive t then
        some ((s.withRouter (t.run s.live.router).1).transmit (t.run s.live.router).2)
      else none
  | .gossipRound now mono label =>
      some ((s.withRouter (s.live.router.gossipRound now mono label).1).schedule
        (s.live.router.gossipRound now mono label).2)
  | .announceRound services label =>
      some ((s.withRouter (s.live.router.announceRound services label).1).schedule
        (s.live.router.announceRound services label).2)
  | .begin k =>
      s.scheduled[k]?.map fun q => { s with scheduled := s.scheduled.eraseIdx k }.transmit [q]

/-- The first pack on the socket. -/
def firstOn (ws : Sock) : Option (Sent Data) := (s.log.find? (·.1 = ws)).map Prod.snd

end ServerState

def server : Machine (ServerState Data) (ServerEvent Data) where
  step := ServerState.step

/-- **HELLO_ACK comes first**, and the connecting side finds itself accepted. -/
def AckFirst (s : ServerState Data) : Prop :=
  ∀ ws ∈ s.accepted, ∀ m, s.firstOn ws = some m → m = .helloAck ∧ handshake m.type = true

/-- The packs that the event sends. -/
def transmits (s : ServerState Data) : ServerEvent Data → List (Sock × MsgPack Data)
  | .task t => (t.run s.live.router).2
  | .begin k => s.scheduled[k]?.toList
  | _ => []

/-- **The condition**: no pack goes out on a socket whose handler waits for the old socket of its node
to close. -/
def SparesWaiting (s : ServerState Data) (e : ServerEvent Data) : Prop :=
  ∀ q ∈ transmits s e, ¬ s.Waiting q.1

instance (s : ServerState Data) (e : ServerEvent Data) : Decidable (SparesWaiting s e) :=
  inferInstanceAs (Decidable (∀ q ∈ _, _))

/-! ## §3 What the tasks and the handlers hold -/

section Holding

variable {K : Sock → Prop}

theorem within_pickAll {r : Router Data} (h : Within K r) (p : MsgPack Data) (names : List String) :
    Keeps K (r.pickAll p names).1 (r.pickAll p names).2 := by
  induction names generalizing r with
  | nil => exact keeps_nil h
  | cons name rest ih =>
      unfold Router.pickAll
      split
      · rename_i hget
        obtain ⟨hr', hws⟩ := within_getTransportTo h hget
        obtain ⟨hrest, hsent⟩ := ih hr'
        refine ⟨hrest, fun q hq => ?_⟩
        rcases List.mem_cons.mp hq with rfl | hq
        · exact hws
        · exact hsent q hq
      · exact ih h

theorem within_gossipRound {r : Router Data} (h : Within K r) (now mono : Time) (label : String) :
    Keeps K (r.gossipRound now mono label).1 (r.gossipRound now mono label).2 := by
  have hswept : Within K { r.sweepWsPending mono with table := r.table.sweep now 90 300 } :=
    ⟨h.nodes, h.clientWs, h.cache, Dict.forall_get_filter h.wsPending _⟩
  unfold Router.gossipRound
  dsimp only
  split
  · exact keeps_nil hswept
  · exact within_pickAll hswept _ _

theorem within_sendTo {r : Router Data} (h : Within K r) (name : String) (p : MsgPack Data) :
    Keeps K (r.sendTo name p).1 (r.sendTo name p).2 := by
  unfold Router.sendTo
  split
  · rename_i hget
    obtain ⟨hr', hws⟩ := within_getTransportTo h hget
    exact keeps_singleton hr' hws p
  · exact keeps_nil h

theorem within_call {r : Router Data} (h : Within K r) (label dst service method : String)
    (data : Payload Data) :
    Keeps K ((r.call label dst service method data).result r).1
      ((r.call label dst service method data).result r).2 := by
  unfold Router.call
  dsimp only
  split
  · exact keeps_nil h
  · split
    · exact keeps_nil h
    · split
      · rename_i hf
        have hsessions : Within K { r with
            sessions := (r.sessions.registerSingle label service method).1 } :=
          h.of_same rfl rfl rfl rfl
        obtain ⟨hr', hws⟩ := within_forward hsessions hf
        exact keeps_singleton hr' hws _
      · exact keeps_nil (h.of_same rfl rfl rfl rfl)

theorem within_stream {r : Router Data} (h : Within K r) (label dst service method : String)
    (data : Payload Data) :
    Keeps K ((r.stream label dst service method data).result r).1
      ((r.stream label dst service method data).result r).2 := by
  unfold Router.stream
  dsimp only
  split
  · rename_i hf
    have hsessions : Within K { r with
        sessions := (r.sessions.registerSingle label service method).1
        streams := insert label r.streams } :=
      h.of_same rfl rfl rfl rfl
    obtain ⟨hr', hws⟩ := within_forward hsessions hf
    exact keeps_singleton hr' hws _
  · exact keeps_nil (h.of_same rfl rfl rfl rfl)

theorem within_task {r : Router Data} (h : Within K r) {t : ServerTask Data}
    (ht : ∀ now ws p, t = .receive now ws p → K ws) : Keeps K (t.run r).1 (t.run r).2 := by
  cases t with
  | receive now ws p => exact within_handle h now p (ht now ws p rfl)
  | respond p => exact within_sendPack h p
  | call label dst service method data => exact within_call h label dst service method data
  | stream label dst service method data => exact within_stream h label dst service method data
  | streamAck now label buff => exact within_sendStreamAck h now label buff
  | sendTo name p => exact within_sendTo h name p

/-- A channel that opens brings its own socket, and nothing else brings any. -/
theorem within_liveStep {live live' : LiveState Data} {e : LiveEvent} (h : Within K live.router)
    (hnew : ∀ ws, e.newSock = some ws → K ws) (hs : live.step e = some live') :
    Within K live'.router := by
  cases e with
  | hello ws peer now g =>
      have hnode := h.registerNode peer (hnew ws rfl)
      simp only [LiveState.step] at hs
      split_ifs at hs
      split at hs
      · cases hs
        exact (hnode.invalidateTransport peer).of_same rfl rfl rfl rfl
      · cases hs
        exact hnode
  | resume ws now g =>
      simp only [LiveState.step] at hs
      split at hs
      · cases hs
        exact (h.invalidateTransport _).of_same rfl rfl rfl rfl
      · cases hs
  | serverClosed ws =>
      simp only [LiveState.step] at hs
      split at hs
      · cases hs
        dsimp only
        unfold LiveState.closeServer
        split_ifs
        · apply Within.invalidateTransport
          exact (h.removeNode _).of_same rfl rfl rfl rfl
        · exact h
      · cases hs
  | dial connector peer ws =>
      simp only [LiveState.step] at hs
      split_ifs at hs
      cases hs
      exact h.registerClientWs peer (hnew ws rfl)
  | helloAck connector now g neighbors =>
      simp only [LiveState.step] at hs
      split at hs
      · cases hs
        exact h.of_same rfl rfl rfl rfl
      · cases hs
  | dialClosed connector =>
      simp only [LiveState.step] at hs
      split at hs
      · cases hs
        have hgone := h.unregisterClientWs
        dsimp only
        unfold LiveState.closeDial
        dsimp only
        split
        · rename_i hget
          exact (within_getTransportTo (hgone _) hget).1
        · exact (hgone _).of_same rfl rfl rfl rfl
      · cases hs

end Holding

/-! ## §4 The invariant -/

/-- Who has sent what: a socket whose handler waits is silent, and on any other accepted socket
HELLO_ACK was first. -/
structure Ordered (s : ServerState Data) : Prop where
  held : Within (· ∈ s.used) s.live.router
  scheduled : ∀ q ∈ s.scheduled, q.1 ∈ s.used
  logged : ∀ q ∈ s.log, q.1 ∈ s.used
  accepted_used : ∀ ws ∈ s.accepted, ws ∈ s.used
  handled : ∀ ws i, s.live.inbound.get ws = some i → ws ∈ s.accepted
  waiting : ∀ ws, s.Waiting ws → s.firstOn ws = none
  first : ∀ ws ∈ s.accepted, ¬ s.Waiting ws → s.firstOn ws = some .helloAck

theorem Ordered.ackFirst {s : ServerState Data} (h : Ordered s) : AckFirst s := by
  intro ws hws m hm
  have hack : m = .helloAck := by
    by_cases hwait : s.Waiting ws
    · rw [h.waiting ws hwait] at hm
      cases hm
    · rw [h.first ws hws hwait] at hm
      cases hm
      rfl
  subst hack
  exact ⟨rfl, rfl⟩

omit [Canon] in
theorem find_append_sent (log : List (Sock × Sent Data)) (more : List (Sock × Sent Data)) (ws : Sock) :
    ((log ++ more).find? (·.1 = ws)).map Prod.snd =
      ((log.find? (·.1 = ws)).map Prod.snd).or ((more.find? (·.1 = ws)).map Prod.snd) := by
  rw [List.find?_append]
  cases log.find? (·.1 = ws) <;> rfl

/-- Nothing has gone out on a socket that was never used. -/
theorem Ordered.firstOn_fresh {s : ServerState Data} (h : Ordered s) {ws : Sock} (hws : ws ∉ s.used) :
    s.firstOn ws = none := by
  unfold ServerState.firstOn
  rw [Option.map_eq_none_iff, List.find?_eq_none]
  intro q hq heq
  rw [decide_eq_true_eq] at heq
  exact hws (heq ▸ h.logged q hq)

/-- Packs on sockets that do not wait keep the order. -/
theorem Ordered.transmit {s : ServerState Data} (h : Ordered s) {sent : List (Sock × MsgPack Data)}
    (hused : ∀ q ∈ sent, q.1 ∈ s.used) (hspares : ∀ q ∈ sent, ¬ s.Waiting q.1) :
    Ordered (s.transmit sent) where
  held := h.held
  scheduled := h.scheduled
  logged q hq := by
    rcases List.mem_append.mp hq with hold | hnew
    · exact h.logged q hold
    · obtain ⟨q', hq', rfl⟩ := List.mem_map.mp hnew
      exact hused q' hq'
  accepted_used := h.accepted_used
  handled := h.handled
  waiting ws hwait := by
    have hsilent : s.firstOn ws = none := h.waiting ws hwait
    show ((s.log ++ _).find? _).map _ = none
    rw [find_append_sent, ← ServerState.firstOn, hsilent, Option.none_or, Option.map_eq_none_iff,
      List.find?_eq_none]
    intro q hq heq
    obtain ⟨q', hq', rfl⟩ := List.mem_map.mp hq
    rw [decide_eq_true_eq] at heq
    exact hspares q' hq' (heq ▸ hwait)
  first ws hws hwait := by
    show ((s.log ++ _).find? _).map _ = some Sent.helloAck
    rw [find_append_sent, ← ServerState.firstOn, h.first ws hws hwait]
    rfl

/-- A pack on a socket that waits is the first one there. -/
theorem not_ackFirst_transmit {s : ServerState Data} (h : Ordered s)
    {sent : List (Sock × MsgPack Data)} {q : Sock × MsgPack Data} (hq : q ∈ sent)
    (hwait : s.Waiting q.1) : ¬ AckFirst (s.transmit sent) := by
  intro hfirst
  obtain ⟨i, hi, _⟩ := Option.map_eq_some_iff.mp hwait
  have hsilent : s.firstOn q.1 = none := h.waiting q.1 hwait
  have hsome : ((sent.map fun q => (q.1, Sent.traffic q.2)).find? (·.1 = q.1)).isSome := by
    rw [List.find?_isSome]
    exact ⟨(q.1, .traffic q.2), List.mem_map.mpr ⟨q, hq, rfl⟩, by simp⟩
  obtain ⟨m, hm⟩ := Option.isSome_iff_exists.mp hsome
  have hon : (s.transmit sent).firstOn q.1 = some m.2 := by
    show ((s.log ++ _).find? _).map _ = some m.2
    rw [find_append_sent, ← ServerState.firstOn, hsilent, Option.none_or, hm]
    rfl
  obtain ⟨q', _, hmem⟩ := List.mem_map.mp (List.mem_of_find?_eq_some hm)
  have hack := (hfirst q.1 (h.handled q.1 i hi) m.2 hon).1
  rw [← hmem] at hack
  cases hack

theorem Ordered.withRouter {s : ServerState Data} (h : Ordered s) {router : Router Data}
    (hr : Within (· ∈ s.used) router) : Ordered (s.withRouter router) :=
  ⟨hr, h.scheduled, h.logged, h.accepted_used, h.handled, h.waiting, h.first⟩

theorem Ordered.schedule {s : ServerState Data} (h : Ordered s) {sent : List (Sock × MsgPack Data)}
    (hsent : ∀ q ∈ sent, q.1 ∈ s.used) : Ordered (s.schedule sent) := by
  refine ⟨h.held, fun q hq => ?_, h.logged, h.accepted_used, h.handled, h.waiting, h.first⟩
  rcases List.mem_append.mp hq with hold | hnew
  · exact h.scheduled q hold
  · exact hsent q hnew

/-- What a channel event does to the handlers, and on which socket it sends HELLO_ACK. -/
theorem liveStep_inbound {s : ServerState Data} {live : LiveState Data} {e : LiveEvent}
    (hs : s.live.step e = some live) :
    (∃ ws peer now g, e = .hello ws peer now g ∧
      ((live.inbound = s.live.inbound.set ws ⟨peer, .serving⟩ ∧ s.acks e = some ws) ∨
        (live.inbound = s.live.inbound.set ws ⟨peer, .replacing⟩ ∧ s.acks e = none))) ∨
    (∃ ws peer now g, e = .resume ws now g ∧ s.Waiting ws ∧ s.acks e = some ws ∧
      live.inbound = s.live.inbound.set ws ⟨peer, .serving⟩) ∨
    (∃ ws, e = .serverClosed ws ∧ ¬ s.Waiting ws ∧ s.acks e = none ∧
      live.inbound = s.live.inbound.pop ws) ∨
    (e.accepts = none ∧ s.acks e = none ∧ live.inbound = s.live.inbound) := by
  cases e with
  | hello ws peer now g =>
      simp only [LiveState.step] at hs
      split_ifs at hs
      refine Or.inl ⟨ws, peer, now, g, rfl, ?_⟩
      split at hs
      · rename_i hnone
        cases hs
        exact Or.inl ⟨rfl, by simp [ServerState.acks, hnone]⟩
      · rename_i hsome
        cases hs
        exact Or.inr ⟨rfl, by simp [ServerState.acks, hsome]⟩
  | resume ws now g =>
      simp only [LiveState.step] at hs
      split at hs
      · rename_i peer hget
        cases hs
        refine Or.inr (Or.inl ⟨ws, peer, now, g, rfl, ?_, rfl, rfl⟩)
        unfold ServerState.Waiting
        rw [hget]
        rfl
      · cases hs
  | serverClosed ws =>
      simp only [LiveState.step] at hs
      split at hs
      · rename_i peer hget
        cases hs
        refine Or.inr (Or.inr (Or.inl ⟨ws, rfl, ?_, rfl, rfl⟩))
        unfold ServerState.Waiting
        rw [hget]
        intro h
        cases h
      · cases hs
  | dial connector peer ws =>
      simp only [LiveState.step] at hs
      split_ifs at hs
      cases hs
      exact Or.inr (Or.inr (Or.inr ⟨rfl, rfl, rfl⟩))
  | helloAck connector now g neighbors =>
      simp only [LiveState.step] at hs
      split at hs
      · cases hs
        exact Or.inr (Or.inr (Or.inr ⟨rfl, rfl, rfl⟩))
      · cases hs
  | dialClosed connector =>
      simp only [LiveState.step] at hs
      split at hs
      · cases hs
        exact Or.inr (Or.inr (Or.inr ⟨rfl, rfl, rfl⟩))
      · cases hs

/-! ## §5 Steps -/

/-- The state after a channel event. -/
def ServerState.afterChannel (s : ServerState Data) (live : LiveState Data) (e : LiveEvent) :
    ServerState Data :=
  { s with
    live := ServerState.cleaned live e
    used := e.newSock.toList ++ s.used
    accepted := e.accepts.toList ++ s.accepted
    log := s.log ++ (s.acks e).toList.map fun ws => (ws, .helloAck) }

section Channel

variable {s : ServerState Data} {live : LiveState Data} {e : LiveEvent}

theorem firstOn_afterChannel (ws : Sock) : (s.afterChannel live e).firstOn ws =
    (s.firstOn ws).or (if s.acks e = some ws then some .helloAck else none) := by
  show ((s.log ++ _).find? _).map _ = _
  rw [find_append_sent, ← ServerState.firstOn]
  congr 1
  cases s.acks e with
  | none => rfl
  | some ws' =>
      by_cases hws : ws' = ws
      · simp [hws]
      · simp [hws]

theorem inbound_cleaned : (ServerState.cleaned live e).inbound = live.inbound := by
  cases e <;> rfl

theorem waiting_afterChannel {ws : Sock} :
    (s.afterChannel live e).Waiting ws ↔ (live.inbound.get ws).map Inbound.stage = some .replacing := by
  show ((ServerState.cleaned live e).inbound.get ws).map _ = _ ↔ _
  rw [inbound_cleaned]

/-- The stage of the one handler that an event moves, and of the others. -/
theorem waiting_set {ws ws' : Sock} {peer : String} {stage : InboundStage}
    (hin : live.inbound = s.live.inbound.set ws ⟨peer, stage⟩) :
    (s.afterChannel live e).Waiting ws' ↔
      if ws' = ws then stage = .replacing else s.Waiting ws' := by
  rw [waiting_afterChannel, hin, Dict.get_set]
  split_ifs
  · simp
  · rfl

theorem within_cleaned {K : Sock → Prop} (h : Within K live.router) :
    Within K (ServerState.cleaned live e).router := by
  cases e with
  | serverClosed ws => exact ⟨h.nodes, h.clientWs, h.cache, Dict.forall_get_filter h.wsPending _⟩
  | _ => exact h

/-- Who waits after the event has waited before, or is new; and no HELLO_ACK has gone to it. -/
theorem waiting_of_afterChannel (hs : s.live.step e = some live) {ws : Sock}
    (hwait : (s.afterChannel live e).Waiting ws) :
    (s.Waiting ws ∨ e.accepts = some ws) ∧ s.acks e ≠ some ws := by
  rcases liveStep_inbound hs with ⟨ws', peer, now, g, rfl, ⟨hin, hack⟩ | ⟨hin, hack⟩⟩ |
    ⟨ws', peer, now, g, rfl, _, hack, hin⟩ | ⟨ws', rfl, _, hack, hin⟩ | ⟨_, hack, hin⟩
  · -- accepted at once
    rw [waiting_set hin] at hwait
    split_ifs at hwait with hws
    refine ⟨Or.inl hwait, fun heq => hws ?_⟩
    rw [hack] at heq
    exact (Option.some.inj heq).symm
  · -- accepted, and waits for the old socket
    rw [waiting_set hin] at hwait
    rw [hack]
    split_ifs at hwait with hws
    · rw [hws]
      exact ⟨Or.inr rfl, (fun heq => by cases heq)⟩
    · exact ⟨Or.inl hwait, (fun heq => by cases heq)⟩
  · -- the old socket is closed, and the handshake goes on
    rw [waiting_set hin] at hwait
    split_ifs at hwait with hws
    refine ⟨Or.inl hwait, fun heq => hws ?_⟩
    rw [hack] at heq
    exact (Option.some.inj heq).symm
  · rw [waiting_afterChannel, hin, Dict.get_pop] at hwait
    rw [hack]
    split_ifs at hwait
    · cases hwait
    · exact ⟨Or.inl hwait, (fun heq => by cases heq)⟩
  · rw [waiting_afterChannel, hin] at hwait
    rw [hack]
    exact ⟨Or.inl hwait, (fun heq => by cases heq)⟩

/-- An accepted socket that does not wait has just got HELLO_ACK as its first pack, or has not
waited before. -/
theorem Ordered.served_afterChannel (h : Ordered s)
    (hnew : ∀ ws, e.newSock = some ws → ws ∉ s.used) (hs : s.live.step e = some live) {ws : Sock}
    (hws : ws ∈ (s.afterChannel live e).accepted) (hwait : ¬ (s.afterChannel live e).Waiting ws) :
    (s.acks e = some ws ∧ s.firstOn ws = none) ∨ (ws ∈ s.accepted ∧ ¬ s.Waiting ws) := by
  replace hws : ws ∈ e.accepts.toList ++ s.accepted := hws
  rcases liveStep_inbound hs with ⟨ws', peer, now, g, rfl, ⟨hin, hack⟩ | ⟨hin, hack⟩⟩ |
    ⟨ws', peer, now, g, rfl, hbefore, hack, hin⟩ | ⟨ws', rfl, hbefore, hack, hin⟩ |
    ⟨hnone, hack, hin⟩
  · -- the socket is new, so nothing was on it before HELLO_ACK
    by_cases heq : ws = ws'
    · rw [heq]
      exact Or.inl ⟨hack, h.firstOn_fresh (hnew ws' rfl)⟩
    · rw [waiting_set hin, if_neg heq] at hwait
      exact Or.inr ⟨(List.mem_cons.mp hws).resolve_left heq, hwait⟩
  · by_cases heq : ws = ws'
    · rw [waiting_set hin, if_pos heq] at hwait
      exact absurd rfl hwait
    · rw [waiting_set hin, if_neg heq] at hwait
      exact Or.inr ⟨(List.mem_cons.mp hws).resolve_left heq, hwait⟩
  · -- the socket has waited, and waiting sockets are silent
    by_cases heq : ws = ws'
    · rw [heq]
      exact Or.inl ⟨hack, h.waiting ws' hbefore⟩
    · rw [waiting_set hin, if_neg heq] at hwait
      exact Or.inr ⟨hws, hwait⟩
  · refine Or.inr ⟨hws, fun hold => ?_⟩
    rw [waiting_afterChannel, hin, Dict.get_pop] at hwait
    split_ifs at hwait with heq
    · rw [heq] at hold
      exact hbefore hold
    · exact hwait hold
  · rw [hnone] at hws
    rw [waiting_afterChannel, hin] at hwait
    exact Or.inr ⟨hws, hwait⟩

theorem Ordered.handled_afterChannel (h : Ordered s) (hs : s.live.step e = some live) {ws : Sock}
    {i : Inbound} (hi : (ServerState.cleaned live e).inbound.get ws = some i) :
    ws ∈ (s.afterChannel live e).accepted := by
  show ws ∈ e.accepts.toList ++ s.accepted
  rw [inbound_cleaned] at hi
  -- with or without a wait: the handler is that of the accepted socket, or an old one
  have hnewHandler : ∀ ws' peer stage, live.inbound = s.live.inbound.set ws' ⟨peer, stage⟩ →
      e.accepts = some ws' → ws ∈ e.accepts.toList ++ s.accepted := by
    intro ws' peer stage hin hacc
    rw [hacc]
    rw [hin, Dict.get_set] at hi
    split_ifs at hi with heq
    · rw [heq]
      exact List.mem_cons_self
    · exact List.mem_cons_of_mem _ (h.handled ws i hi)
  rcases liveStep_inbound hs with ⟨ws', peer, now, g, rfl, ⟨hin, _⟩ | ⟨hin, _⟩⟩ |
    ⟨ws', peer, now, g, rfl, hbefore, _, hin⟩ | ⟨ws', rfl, _, _, hin⟩ | ⟨_, _, hin⟩
  · exact hnewHandler ws' peer _ hin rfl
  · exact hnewHandler ws' peer _ hin rfl
  · rw [hin, Dict.get_set] at hi
    split_ifs at hi with heq
    · obtain ⟨j, hj, _⟩ := Option.map_eq_some_iff.mp hbefore
      rw [heq]
      exact h.handled ws' j hj
    · exact h.handled ws i hi
  · rw [hin, Dict.get_pop] at hi
    split_ifs at hi
    exact h.handled ws i hi
  · rw [hin] at hi
    exact List.mem_append_right _ (h.handled ws i hi)

/-- HELLO_ACK goes to a socket that the event brings, or that waits. -/
theorem Ordered.acks_used (h : Ordered s) (hs : s.live.step e = some live) {ws : Sock}
    (hws : s.acks e = some ws) : ws ∈ (s.afterChannel live e).used := by
  show ws ∈ e.newSock.toList ++ s.used
  rcases liveStep_inbound hs with ⟨ws', peer, now, g, rfl, ⟨_, hack⟩ | ⟨_, hack⟩⟩ |
    ⟨ws', peer, now, g, rfl, hwait, hack, _⟩ | ⟨ws', rfl, _, hack, _⟩ | ⟨_, hack, _⟩
  · rw [hack] at hws
    cases hws
    exact List.mem_cons_self
  · rw [hack] at hws
    cases hws
  · rw [hack] at hws
    cases hws
    obtain ⟨i, hi, _⟩ := Option.map_eq_some_iff.mp hwait
    exact h.accepted_used _ (h.handled _ i hi)
  · rw [hack] at hws
    cases hws
  · rw [hack] at hws
    cases hws

theorem Ordered.afterChannel (h : Ordered s) (hnew : ∀ ws, e.newSock = some ws → ws ∉ s.used)
    (hs : s.live.step e = some live) : Ordered (s.afterChannel live e) := by
  have hused : ∀ ws, ws ∈ s.used → ws ∈ (s.afterChannel live e).used := fun ws hws =>
    List.mem_append_right _ hws
  have haccepted : ∀ ws, e.accepts = some ws → ws ∈ (s.afterChannel live e).used ∧ ws ∉ s.used := by
    intro ws hws
    cases e with
    | hello ws' peer now g =>
        cases hws
        exact ⟨List.mem_cons_self, hnew ws rfl⟩
    | _ => cases hws
  constructor
  · apply within_cleaned
    refine within_liveStep (h.held.mono hused) (fun ws hws => ?_) hs
    apply List.mem_append_left
    rw [hws]
    exact List.mem_singleton_self ws
  · exact fun q hq => hused q.1 (h.scheduled q hq)
  · intro q hq
    rcases List.mem_append.mp hq with hold | hack
    · exact hused q.1 (h.logged q hold)
    · obtain ⟨ws, hws, rfl⟩ := List.mem_map.mp hack
      exact h.acks_used hs (Option.mem_toList.mp hws)
  · intro ws hws
    rcases List.mem_append.mp hws with hnow | hold
    · exact (haccepted ws (Option.mem_toList.mp hnow)).1
    · exact hused ws (h.accepted_used ws hold)
  · exact fun ws i hi => h.handled_afterChannel hs hi
  · -- who waits is silent
    intro ws hwait
    obtain ⟨hbefore, hack⟩ := waiting_of_afterChannel hs hwait
    rw [firstOn_afterChannel, if_neg hack, Option.or_none]
    rcases hbefore with hold | hnow
    · exact h.waiting ws hold
    · exact h.firstOn_fresh (haccepted ws hnow).2
  · -- who does not wait has had HELLO_ACK first
    intro ws hws hwait
    rw [firstOn_afterChannel]
    rcases h.served_afterChannel hnew hs hws hwait with ⟨hack, hsilent⟩ | ⟨hold, hbefore⟩
    · rw [hsilent, if_pos hack]
      rfl
    · rw [h.first ws hold hbefore]
      rfl

end Channel

theorem Ordered.unschedule {s : ServerState Data} (h : Ordered s) (k : Nat) :
    Ordered { s with scheduled := s.scheduled.eraseIdx k } :=
  ⟨h.held, fun q hq => h.scheduled q (List.mem_of_mem_eraseIdx hq), h.logged, h.accepted_used,
    h.handled, h.waiting, h.first⟩

/-- A task holds and uses sockets that have been used before. -/
theorem Ordered.task {s : ServerState Data} (h : Ordered s) {t : ServerTask Data}
    (hcan : s.canReceive t = true) :
    Keeps (· ∈ s.used) (t.run s.live.router).1 (t.run s.live.router).2 := by
  apply within_task h.held
  rintro now ws p rfl
  exact (of_decide_eq_true hcan).1

theorem Ordered.step {s s' : ServerState Data} {e : ServerEvent Data} (h : Ordered s)
    (hok : SparesWaiting s e) (hs : server.step s e = some s') : Ordered s' := by
  cases e with
  | channel e =>
      simp only [server, ServerState.step] at hs
      split_ifs at hs with hnew
      obtain ⟨live, hlive, rfl⟩ := Option.map_eq_some_iff.mp hs
      refine h.afterChannel (fun ws hws hmem => hnew ?_) hlive
      rw [hws]
      exact decide_eq_true hmem
  | task t =>
      simp only [server, ServerState.step] at hs
      split_ifs at hs with hcan
      cases hs
      obtain ⟨hrouter, hsent⟩ := h.task hcan
      exact (h.withRouter hrouter).transmit hsent hok
  | gossipRound now mono label =>
      cases hs
      obtain ⟨hrouter, hsent⟩ := within_gossipRound h.held now mono label
      exact (h.withRouter hrouter).schedule hsent
  | announceRound services label =>
      cases hs
      obtain ⟨hrouter, hsent⟩ := within_pickAll h.held
        { type := .announce, source := s.live.router.NODE, label
          data := .announce services (some s.live.router.NODE) } s.live.router.connectedIds
      exact (h.withRouter hrouter).schedule hsent
  | begin k =>
      -- `gather` has chosen the socket a while ago, and it may have begun to wait since
      obtain ⟨q, hq, rfl⟩ := Option.map_eq_some_iff.mp hs
      apply (h.unschedule k).transmit
      · intro q' hq'
        rw [List.mem_singleton.mp hq']
        exact h.scheduled q (List.mem_of_getElem? hq)
      · intro q' hq'
        rw [List.mem_singleton.mp hq']
        exact hok q (by simp [transmits, hq])

theorem not_ackFirst_of_step {s s' : ServerState Data} {e : ServerEvent Data} (h : Ordered s)
    (hok : ¬ SparesWaiting s e) (hs : server.step s e = some s') : ¬ AckFirst s' := by
  unfold SparesWaiting at hok
  push Not at hok
  obtain ⟨q, hq, hwait⟩ := hok
  cases e with
  | task t =>
      simp only [server, ServerState.step] at hs
      split_ifs at hs with hcan
      cases hs
      exact not_ackFirst_transmit (h.withRouter (h.task hcan).1) hq hwait
  | begin k =>
      obtain ⟨q', hq', rfl⟩ := Option.map_eq_some_iff.mp hs
      have heq : q' = q := by
        simpa [transmits, hq', eq_comm] using hq
      rw [heq]
      exact not_ackFirst_transmit (h.unschedule k) (List.mem_singleton_self q) hwait
  | channel e => cases hq
  | gossipRound now mono label => cases hq
  | announceRound services label => cases hq

/-- **HELLO_ACK comes first** on every accepted socket, all along a run, exactly when no step of the
run sends on a socket whose handler waits for the old one to close. -/
theorem ack_first_iff {own localAlias : String} {services : Services}
    {es : List (ServerEvent Data)} {s : ServerState Data}
    (hr : server.run (.init (.init own localAlias services)) es = some s) :
    server.Always AckFirst (.init (.init own localAlias services)) es ↔
      server.Guarded SparesWaiting (.init (.init own localAlias services)) es := by
  have hgood : ∀ (s : ServerState Data) e s', Ordered s → SparesWaiting s e →
      server.step s e = some s' → Ordered s' := fun s e s' h hok hs => h.step hok hs
  have hbad : ∀ (s : ServerState Data) e s', Ordered s → ¬ SparesWaiting s e →
      server.step s e = some s' → ¬ AckFirst s' := fun s e s' h hok hs => not_ackFirst_of_step h hok hs
  refine Machine.always_iff_guarded (fun s h => h.ackFirst) hgood hbad ?_ hr
  constructor
  · exact within_init own localAlias services
  · intro q hq
    cases hq
  · intro q hq
    cases hq
  · intro ws hws
    cases hws
  · intro ws i hi
    cases hi
  · intro ws _
    rfl
  · intro ws hws
    cases hws

end HelloAck

section Concrete

attribute [local instance] asciiCanon

def quietServer : ServerState Nat :=
  .init (.init "a" "a" ⟨fun _ => true, fun _ _ => true, "source"⟩)

/-- Node `b` connects, and connects again before its old socket is gone. -/
def reconnect : List (ServerEvent Nat) :=
  [.channel (.hello 1 "b" 0 greeting), .channel (.hello 2 "b" 31 greeting)]

/-- A round of gossip before, and a call after the handshake. -/
theorem ack_first_run :
    server.Always AckFirst quietServer
      ([.channel (.hello 1 "b" 0 greeting), .gossipRound 30 30 "g", .begin 0,
        .channel (.hello 2 "b" 31 greeting), .channel (.resume 2 32 greeting),
        .gossipRound 60 60 "g", .begin 0, .task (.call "l" "b" "files" "list" .null)]) :=
  (ack_first_iff (Option.some_get (by decide +kernel : (server.run quietServer _).isSome)).symm).mpr
    (by decide +kernel)

/-- **A request comes first**: `a` calls a method of `b` while the old socket of `b` closes, and `b`
takes the request for a rejection. -/
theorem request_before_ack :
    ∃ s, server.run quietServer (reconnect ++ [.task (.call "l" "b" "files" "list" .null)]) = some s ∧
      2 ∈ s.accepted ∧ (s.firstOn 2).map (fun m => handshake m.type) = some false ∧ ¬ AckFirst s := by
  refine ⟨_, rfl, by decide, by decide, fun h => ?_⟩
  have hack := (h 2 (by decide) _ rfl).1
  cases hack

end Concrete

end NetPulse.Mesh
