import NetPulse.Lib.Machine
import NetPulse.Mesh.Router

/-
# NetPulse.Mesh.Liveness — the status of a neighbour and the channels to it

Two pieces of code open and close channels to a neighbour: the server handler
(`network.py`, `websocket_endpoint`) for a node that dials in, and `NodeConnector` for a node that is
dialled. Both write the status of the neighbour, and each handler is suspended between its steps, so
the events of several handlers interleave.

The status should be `connected` exactly when some channel is open (`Live`). When a handler ends it
decides whether the neighbour is still reachable. The connector asks for another transport, but after
it has dropped the one client socket that the router remembers for the node. The server handler asks
only whether its own socket is the current one. `live_iff` lists the three steps that go wrong.
-/

namespace NetPulse.Mesh

open NetPulse.Lib

section Liveness

variable [Canon] {Data : Type*}

/-! ## §1 The status in the table -/

/-- The status of the node in the table is `connected`. -/
def NeighborTable.IsConnected (t : NeighborTable) (nodeId : String) : Prop :=
  (t.find nodeId).map NeighborInfo.status = some .connected

instance (t : NeighborTable) (nodeId : String) : Decidable (t.IsConnected nodeId) :=
  inferInstanceAs (Decidable (_ = _))

namespace NeighborTable

theorem isConnected_put {t : NeighborTable} {key nodeId : String} {i : NeighborInfo} :
    (t.put key i).IsConnected nodeId ↔
      if canon nodeId = key then i.status = .connected else t.IsConnected nodeId := by
  unfold IsConnected find
  rw [get_put]
  split
  · simp
  · rfl

theorem isConnected_registerConnected {t : NeighborTable} {now : Time} {nodeId host : String}
    {port : Int} {sessionId version : String} {services : List String} {role q : String} :
    (t.registerConnected now nodeId host port sessionId version services role).IsConnected q ↔
      canon q = canon nodeId ∨ t.IsConnected q := by
  unfold registerConnected
  rw [isConnected_put]
  split
  · rename_i heq
    simp [heq]
  · rename_i hne
    simp [hne]

theorem isConnected_markUnreachable {t : NeighborTable} {nodeId q : String} :
    (t.markUnreachable nodeId).IsConnected q ↔ canon q ≠ canon nodeId ∧ t.IsConnected q := by
  unfold markUnreachable IsConnected
  rw [find_modify]
  split
  · rename_i heq
    cases t.find q <;> simp [heq]
  · rename_i hne
    simp [hne]

/-- An update from gossip connects nobody. -/
theorem updated_status {now : Time} {fromNode : String} {e : GossipEntry} {i : NeighborInfo}
    (h : i.status ≠ .connected) : (updated now fromNode e i).status ≠ .connected := by
  unfold updated
  split
  · dsimp only
    split
    · simp
    · exact h
  · split
    · split
      · simp
      · exact h
    · dsimp only
      split
      · simp
      · exact h

/-- Writing an entry that is not `connected` over one that is not changes no answer. -/
theorem isConnected_put_of_not {t : NeighborTable} {key q : String} {i : NeighborInfo}
    (hi : i.status ≠ .connected) (hget : ∀ j, t.table.get key = some j → j.status ≠ .connected) :
    (t.put key i).IsConnected q ↔ t.IsConnected q := by
  rw [isConnected_put]
  split
  · rename_i heq
    refine ⟨fun h => absurd h hi, fun h => ?_⟩
    unfold IsConnected find at h
    rw [heq] at h
    obtain ⟨j, hj, hstatus⟩ := Option.map_eq_some_iff.mp h
    exact absurd hstatus (hget j hj)
  · rfl

theorem isConnected_mergeEntry {now : Time} {fromNode : String} {t : NeighborTable}
    {e : GossipEntry} {q : String} :
    (mergeEntry now fromNode t e).IsConnected q ↔ t.IsConnected q := by
  rcases mergeEntry_cases now fromNode t e with heq | ⟨nodeId, _, hget, heq⟩ |
    ⟨nodeId, i, _, hget, hc, heq⟩
  · rw [heq]
  · rw [heq]
    exact isConnected_put_of_not (by simp [learned]) (by simp [hget])
  · rw [heq]
    exact isConnected_put_of_not (updated_status hc) (by simpa [hget] using hc)

theorem isConnected_mergeGossip {t : NeighborTable} {now : Time} {neighbors : List GossipEntry}
    {fromNode q : String} :
    (t.mergeGossip now neighbors fromNode).IsConnected q ↔ t.IsConnected q := by
  unfold mergeGossip
  induction neighbors generalizing t with
  | nil => rfl
  | cons e rest ih =>
      rw [List.foldl_cons, ih]
      exact isConnected_mergeEntry

end NeighborTable

/-! ## §2 Channels and their handlers -/

inductive InboundStage where
  /-- registered, awaiting the close of the socket it replaces -/
  | replacing
  | serving
  deriving DecidableEq

/-- A server handler behind its HELLO. -/
structure Inbound where
  peer : String
  stage : InboundStage
  deriving DecidableEq

/-- A `NodeConnector` with a socket. -/
structure Outbound where
  peer : String
  /-- HELLO_ACK has come -/
  accepted : Bool
  deriving DecidableEq

structure LiveState (Data : Type*) where
  router : Router Data
  inbound : Dict Sock Inbound
  outbound : Dict Nat Outbound

def LiveState.init (router : Router Data) : LiveState Data := ⟨router, Dict.empty, Dict.empty⟩

/-- What a HELLO or HELLO_ACK says of its sender. -/
structure Greeting where
  host : String
  port : Int
  sessionId : String
  version : String
  services : List String
  role : String

inductive LiveEvent where
  /-- an accepted HELLO on a new socket; a reconnect when the node has a socket already -/
  | hello (ws : Sock) (peer : String) (now : Time) (g : Greeting)
  /-- the old socket of a reconnect is closed -/
  | resume (ws : Sock) (now : Time) (g : Greeting)
  | serverClosed (ws : Sock)
  /-- the connector has a socket and sends HELLO -/
  | dial (connector : Nat) (peer : String) (ws : Sock)
  | helloAck (connector : Nat) (now : Time) (g : Greeting) (neighbors : List GossipEntry)
  /-- the connection is refused or closed -/
  | dialClosed (connector : Nat)

namespace LiveState

variable (s : LiveState Data)

/-- `neighbor_table.register_connected` -/
def connect (r : Router Data) (peer : String) (now : Time) (g : Greeting) : Router Data :=
  { r with
    table :=
      r.table.registerConnected now peer g.host g.port g.sessionId g.version g.services g.role }

def markUnreachable (r : Router Data) (peer : String) : Router Data :=
  { r with table := r.table.markUnreachable peer }

/-- The socket is the current one of its node. -/
def active (ws : Sock) (peer : String) : Bool := s.router.nodes.get (canon peer) = some ws

/-- `finally` of the server handler. -/
def closeServer (ws : Sock) (peer : String) : Router Data :=
  if s.active ws peer then
    (markUnreachable (s.router.removeNode peer) peer).invalidateTransport peer
  else s.router

/-- `finally` of the connector. -/
def closeDial (peer : String) : Router Data :=
  let r := s.router.unregisterClientWs peer
  match r.getTransportTo peer with
  | some (r', _) => r'
  | none => markUnreachable r peer

def step : LiveEvent → Option (LiveState Data)
  | .hello ws peer now g =>
      if (s.inbound.get ws).isSome then none
      else
        match s.router.nodes.get (canon peer) with
        | none =>
            some { s with
              router := connect ((s.router.registerNode peer ws).invalidateTransport peer) peer now g
              inbound := s.inbound.set ws ⟨peer, .serving⟩ }
        | some _ =>
            some { s with
              router := s.router.registerNode peer ws
              inbound := s.inbound.set ws ⟨peer, .replacing⟩ }
  | .resume ws now g =>
      match s.inbound.get ws with
      | some ⟨peer, .replacing⟩ =>
          some { s with
            router := connect (s.router.invalidateTransport peer) peer now g
            inbound := s.inbound.set ws ⟨peer, .serving⟩ }
      | _ => none
  | .serverClosed ws =>
      match s.inbound.get ws with
      | some ⟨peer, .serving⟩ =>
          some { s with router := s.closeServer ws peer, inbound := s.inbound.pop ws }
      | _ => none
  | .dial connector peer ws =>
      if (s.outbound.get connector).isSome then none
      else
        some { s with
          router := s.router.registerClientWs peer ws
          outbound := s.outbound.set connector ⟨peer, false⟩ }
  | .helloAck connector now g neighbors =>
      match s.outbound.get connector with
      | some ⟨peer, false⟩ =>
          let r := connect s.router peer now g
          some { s with
            router := { r with table := r.table.mergeGossip now neighbors peer }
            outbound := s.outbound.set connector ⟨peer, true⟩ }
      | _ => none
  | .dialClosed connector =>
      match s.outbound.get connector with
      | some ⟨peer, _⟩ =>
          some { s with router := s.closeDial peer, outbound := s.outbound.pop connector }
      | none => none

end LiveState

/-- The channels of one node. -/
def channels : Machine (LiveState Data) LiveEvent where
  step := LiveState.step

/-! ## §3 Open channels -/

/-- Some connector has an accepted connection to the node. -/
def OpenOut (outbound : Dict Nat Outbound) (peer : String) : Prop :=
  ∃ o ∈ outbound.values, canon o.peer = canon peer ∧ o.accepted = true

instance (outbound : Dict Nat Outbound) (peer : String) : Decidable (OpenOut outbound peer) :=
  inferInstanceAs (Decidable (∃ o ∈ _, _))

/-- Some channel to the node is open. -/
def Open (s : LiveState Data) (peer : String) : Prop :=
  (s.router.nodes.get (canon peer)).isSome ∨ OpenOut s.outbound peer

instance (s : LiveState Data) (peer : String) : Decidable (Open s peer) :=
  inferInstanceAs (Decidable (_ ∨ _))

/-- **Liveness**: a node is `connected` in the table exactly when some channel to it is open. -/
def Live (s : LiveState Data) : Prop := ∀ peer, s.router.table.IsConnected peer ↔ Open s peer

/-- The condition on a step. -/
def KeepsLive (s : LiveState Data) : LiveEvent → Prop
  | .serverClosed ws =>
      match s.inbound.get ws with
      | some i => s.active ws i.peer = true → ¬ OpenOut s.outbound i.peer
      | none => True
  | .resume ws _ _ =>
      match s.inbound.get ws with
      | some i => Open s i.peer
      | none => True
  | .dialClosed connector =>
      match s.outbound.get connector with
      | some o =>
          (s.router.nodes.get (canon o.peer)).isSome ∨ ¬ OpenOut (s.outbound.pop connector) o.peer
      | none => True
  | _ => True

theorem openOut_iff {outbound : Dict Nat Outbound} {peer : String} :
    OpenOut outbound peer ↔
      ∃ k o, outbound.get k = some o ∧ canon o.peer = canon peer ∧ o.accepted = true := by
  constructor
  · rintro ⟨o, ho, h⟩
    obtain ⟨k, hk⟩ := outbound.mem_values_iff.mp ho
    exact ⟨k, o, hk, h⟩
  · rintro ⟨k, o, hk, h⟩
    exact ⟨o, outbound.mem_values_iff.mpr ⟨k, hk⟩, h⟩

/-- Only the canonical spelling of an id counts. -/
theorem openOut_congr {outbound : Dict Nat Outbound} {p q : String} (h : canon q = canon p) :
    OpenOut outbound q ↔ OpenOut outbound p := by
  unfold OpenOut
  rw [h]

theorem open_congr {s : LiveState Data} {p q : String} (h : canon q = canon p) :
    Open s q ↔ Open s p := by
  unfold Open
  rw [h, openOut_congr h]

/-- A connector that is not accepted opens nothing. -/
theorem openOut_dial {outbound : Dict Nat Outbound} {k : Nat} {p q : String}
    (h : outbound.get k = none) : OpenOut (outbound.set k ⟨p, false⟩) q ↔ OpenOut outbound q := by
  rw [openOut_iff, openOut_iff]
  constructor
  · rintro ⟨j, o, hj, ho, hacc⟩
    rw [Dict.get_set] at hj
    split at hj
    · cases hj
      cases hacc
    · exact ⟨j, o, hj, ho, hacc⟩
  · rintro ⟨j, o, hj, ho⟩
    have hne : j ≠ k := by
      rintro rfl
      rw [h] at hj
      cases hj
    exact ⟨j, o, by rw [Dict.get_set_of_ne _ _ hne]; exact hj, ho⟩

theorem openOut_accept {outbound : Dict Nat Outbound} {k : Nat} {p q : String}
    (h : outbound.get k = some ⟨p, false⟩) :
    OpenOut (outbound.set k ⟨p, true⟩) q ↔ canon q = canon p ∨ OpenOut outbound q := by
  rw [openOut_iff, openOut_iff]
  constructor
  · rintro ⟨j, o, hj, ho, hacc⟩
    rw [Dict.get_set] at hj
    split at hj
    · cases hj
      exact Or.inl ho.symm
    · exact Or.inr ⟨j, o, hj, ho, hacc⟩
  · rintro (hq | ⟨j, o, hj, ho, hacc⟩)
    · exact ⟨k, _, Dict.get_set_self _ _ _, hq.symm, rfl⟩
    · have hne : j ≠ k := by
        rintro rfl
        rw [h] at hj
        cases hj
        cases hacc
      exact ⟨j, o, by rw [Dict.get_set_of_ne _ _ hne]; exact hj, ho, hacc⟩

/-- Dropping a connector of one node leaves the others as they are. -/
theorem openOut_pop {outbound : Dict Nat Outbound} {k : Nat} {o : Outbound} {q : String}
    (h : outbound.get k = some o) (hq : canon q ≠ canon o.peer) :
    OpenOut (outbound.pop k) q ↔ OpenOut outbound q := by
  rw [openOut_iff, openOut_iff]
  constructor
  · rintro ⟨j, o', hj, ho'⟩
    rw [Dict.get_pop] at hj
    split at hj
    · cases hj
    · exact ⟨j, o', hj, ho'⟩
  · rintro ⟨j, o', hj, ho'⟩
    have hne : j ≠ k := by
      rintro rfl
      rw [h] at hj
      cases hj
      exact hq ho'.1.symm
    exact ⟨j, o', by rw [Dict.get_pop_of_ne _ hne]; exact hj, ho'⟩

/-! ## §4 The closing handlers -/

theorem nodes_registerNode {r : Router Data} {peer q : String} {ws : Sock} :
    (r.registerNode peer ws).nodes.get q = if q = canon peer then some ws else r.nodes.get q :=
  r.nodes.get_set _ _ _

/-- After the connector has dropped its client socket, only a server socket is a transport. -/
theorem closeDial_spec (s : LiveState Data) (peer : String) :
    (s.closeDial peer).nodes = s.router.nodes ∧
      (s.closeDial peer).table =
        if (s.router.nodes.get (canon peer)).isSome then s.router.table
        else s.router.table.markUnreachable peer := by
  unfold LiveState.closeDial Router.getTransportTo
  cases hnode : s.router.nodes.get (canon peer) with
  | some ws => simp [Router.unregisterClientWs, hnode]
  | none => simp [Router.unregisterClientWs, hnode, LiveState.markUnreachable]

/-- **Step lemma.** A step that meets the condition keeps liveness. -/
theorem Live.step {s s' : LiveState Data} {e : LiveEvent} (h : Live s) (hok : KeepsLive s e)
    (hstep : s.step e = some s') : Live s' := by
  intro q
  have hq := h q
  cases e with
  | hello ws peer now g =>
      simp only [LiveState.step, Option.ite_none_left_eq_some] at hstep
      obtain ⟨_, hstep⟩ := hstep
      unfold Open at hq ⊢
      cases hnode : s.router.nodes.get (canon peer) with
      | none =>
          rw [hnode] at hstep
          cases hstep
          rw [show (LiveState.connect ((s.router.registerNode peer ws).invalidateTransport peer) peer
              now g).table = s.router.table.registerConnected now peer g.host g.port g.sessionId
                g.version g.services g.role from rfl,
            NeighborTable.isConnected_registerConnected, hq]
          change _ ↔ ((s.router.registerNode peer ws).nodes.get (canon q)).isSome ∨ _
          rw [nodes_registerNode]
          by_cases heq : canon q = canon peer
          · simp [heq]
          · simp [heq]
      | some old =>
          rw [hnode] at hstep
          cases hstep
          change s.router.table.IsConnected q ↔
            ((s.router.registerNode peer ws).nodes.get (canon q)).isSome ∨ _
          rw [nodes_registerNode, hq]
          by_cases heq : canon q = canon peer
          · simp [heq, hnode]
          · simp [heq]
  | resume ws now g =>
      simp only [LiveState.step] at hstep
      split at hstep
      · rename_i peer hin
        cases hstep
        have hopen : Open s peer := by simpa only [KeepsLive, hin] using hok
        rw [show (LiveState.connect (s.router.invalidateTransport peer) peer now g).table =
            s.router.table.registerConnected now peer g.host g.port g.sessionId g.version g.services
              g.role from rfl,
          NeighborTable.isConnected_registerConnected, hq]
        constructor
        · rintro (heq | hopen')
          · exact (open_congr heq).mpr hopen
          · exact hopen'
        · exact Or.inr
      · cases hstep
  | serverClosed ws =>
      simp only [LiveState.step] at hstep
      split at hstep
      · rename_i peer hin
        cases hstep
        unfold Open at hq ⊢
        unfold LiveState.closeServer
        by_cases hactive : s.active ws peer = true
        · simp only [hactive, if_true]
          have hno : ¬ OpenOut s.outbound peer := by
            simp only [KeepsLive, hin] at hok
            exact hok hactive
          change (s.router.table.markUnreachable peer).IsConnected q ↔
            ((s.router.nodes.pop (canon peer)).get (canon q)).isSome ∨ OpenOut s.outbound q
          rw [NeighborTable.isConnected_markUnreachable, Dict.get_pop, hq]
          by_cases heq : canon q = canon peer
          · have hno' : ¬ OpenOut s.outbound q := mt (openOut_congr heq).mp hno
            simp [heq, hno']
          · simp [heq]
        · simp only [hactive]
          exact hq
      · cases hstep
  | dial connector peer ws =>
      simp only [LiveState.step, Option.ite_none_left_eq_some, Option.some.injEq] at hstep
      obtain ⟨hfree, rfl⟩ := hstep
      unfold Open at hq ⊢
      dsimp only
      rw [openOut_dial (by simpa using hfree)]
      exact hq
  | helloAck connector now g neighbors =>
      simp only [LiveState.step] at hstep
      split at hstep
      · rename_i peer hout
        cases hstep
        unfold Open at hq ⊢
        dsimp only
        rw [NeighborTable.isConnected_mergeGossip, openOut_accept hout,
          show (LiveState.connect s.router peer now g).table = s.router.table.registerConnected now
            peer g.host g.port g.sessionId g.version g.services g.role from rfl,
          NeighborTable.isConnected_registerConnected, hq]
        change _ ↔ (s.router.nodes.get (canon q)).isSome ∨ _
        tauto
      · cases hstep
  | dialClosed connector =>
      simp only [LiveState.step] at hstep
      split at hstep
      · rename_i peer accepted hout
        cases hstep
        obtain ⟨hnodes, htable⟩ := closeDial_spec s peer
        have hkeep : (s.router.nodes.get (canon peer)).isSome ∨
            ¬ OpenOut (s.outbound.pop connector) peer := by
          simpa only [KeepsLive, hout] using hok
        unfold Open at hq ⊢
        rw [hnodes, htable]
        by_cases heq : canon q = canon peer
        · cases hnode : s.router.nodes.get (canon peer) with
          | some ws =>
              rw [heq, hnode] at hq ⊢
              simpa using hq
          | none =>
              have hno : ¬ OpenOut (s.outbound.pop connector) q :=
                mt (openOut_congr heq).mp (hkeep.resolve_left (by simp [hnode]))
              simp [NeighborTable.isConnected_markUnreachable, heq, hnode, hno]
        · rw [openOut_pop hout heq]
          split
          · exact hq
          · rw [NeighborTable.isConnected_markUnreachable, hq]
            simp [heq]
      · cases hstep

/-- A step that does not meet the condition leaves a wrong status. -/
theorem not_live_of_step {s s' : LiveState Data} {e : LiveEvent} (hok : ¬ KeepsLive s e)
    (hstep : s.step e = some s') : ¬ Live s' := by
  intro hlive
  cases e with
  | hello => exact hok trivial
  | dial => exact hok trivial
  | helloAck => exact hok trivial
  | resume ws now g =>
      simp only [LiveState.step] at hstep
      split at hstep
      · rename_i peer hin
        cases hstep
        have hno : ¬ Open s peer := by simpa only [KeepsLive, hin] using hok
        exact hno ((hlive peer).mp (NeighborTable.isConnected_registerConnected.mpr (Or.inl rfl)))
      · cases hstep
  | serverClosed ws =>
      simp only [LiveState.step] at hstep
      split at hstep
      · rename_i peer hin
        cases hstep
        have hbad : s.active ws peer = true ∧ OpenOut s.outbound peer := by
          simpa only [KeepsLive, hin, Classical.not_imp, not_not] using hok
        have hconn := (hlive peer).mpr (Or.inr hbad.2)
        simp only [LiveState.closeServer, hbad.1, if_true] at hconn
        exact (NeighborTable.isConnected_markUnreachable.mp hconn).1 rfl
      · cases hstep
  | dialClosed connector =>
      simp only [LiveState.step] at hstep
      split at hstep
      · rename_i peer accepted hout
        cases hstep
        have hbad : ¬ (s.router.nodes.get (canon peer)).isSome ∧
            OpenOut (s.outbound.pop connector) peer := by
          simpa only [KeepsLive, hout, not_or, not_not] using hok
        have hconn := (hlive peer).mpr (Or.inr hbad.2)
        rw [(closeDial_spec s peer).2, if_neg hbad.1] at hconn
        exact (NeighborTable.isConnected_markUnreachable.mp hconn).1 rfl
      · cases hstep

/-- **The status agrees with the channels throughout a run exactly when every step meets the
condition.** The run starts at a node that has met nobody. -/
theorem live_iff {own localAlias : String} {services : Services} {es : List LiveEvent}
    {s : LiveState Data}
    (hrun : channels.run (LiveState.init (Router.init own localAlias services)) es = some s) :
    channels.Always Live (LiveState.init (Router.init own localAlias services : Router Data)) es ↔
      channels.Guarded KeepsLive
        (LiveState.init (Router.init own localAlias services : Router Data)) es := by
  refine Machine.always_iff_guarded (fun _ h => h) ?_ ?_ ?_ hrun
  · exact fun s e s' h hok hstep => h.step hok hstep
  · exact fun s e s' _ hok hstep => not_live_of_step hok hstep
  · intro peer
    simp [NeighborTable.IsConnected, NeighborTable.find, NeighborTable.init, LiveState.init,
      Router.init, Open, OpenOut, Dict.values, Dict.empty, Dict.get, Dict.lookup]

instance (s : LiveState Data) : DecidablePred (KeepsLive s)
  | .serverClosed ws =>
      match h : s.inbound.get ws with
      | some i =>
          decidable_of_iff (s.active ws i.peer = true → ¬ OpenOut s.outbound i.peer)
            (by simp only [KeepsLive, h])
      | none => isTrue (by simp only [KeepsLive, h])
  | .resume ws _ _ =>
      match h : s.inbound.get ws with
      | some i => decidable_of_iff (Open s i.peer) (by simp only [KeepsLive, h])
      | none => isTrue (by simp only [KeepsLive, h])
  | .dialClosed connector =>
      match h : s.outbound.get connector with
      | some o =>
          decidable_of_iff
            ((s.router.nodes.get (canon o.peer)).isSome ∨
              ¬ OpenOut (s.outbound.pop connector) o.peer)
            (by simp only [KeepsLive, h])
      | none => isTrue (by simp only [KeepsLive, h])
  | .hello .. => isTrue trivial
  | .dial .. => isTrue trivial
  | .helloAck .. => isTrue trivial

end Liveness

/-! ## §5 Two nodes that dial each other -/

section Concrete

attribute [local instance] asciiCanon

def lonelyNode : LiveState Nat :=
  .init (.init "a" "a" ⟨fun _ => true, fun _ _ => true, "source"⟩)

def greeting : Greeting := ⟨"10.0.0.2", 9000, "s", PROTOCOL_VERSION, [], ROLE_NODE⟩

/-- Node `b` dials in, and is dialled at the same time. -/
def crossDial : List LiveEvent :=
  [.dial 0 "b" 1, .hello 2 "B" 0 greeting, .helloAck 0 0 greeting []]

/-- The outbound channel closes first, then a reconnect replaces the inbound one and closes. -/
theorem outbound_first_live :
    channels.Always Live lonelyNode
      (crossDial ++ [.dialClosed 0, .hello 3 "b" 1 greeting, .resume 3 2 greeting, .serverClosed 2,
        .serverClosed 3]) :=
  (live_iff (Option.some_get (by decide : (channels.run lonelyNode _).isSome)).symm).mpr (by decide)

/-- **The inbound channel closes first**: the node is unreachable with its outbound channel open. -/
theorem inbound_first_not_live :
    ∃ s, channels.run lonelyNode (crossDial ++ [.serverClosed 2]) = some s ∧
      OpenOut s.outbound "b" ∧ ¬ s.router.table.IsConnected "b" ∧ ¬ Live s := by
  refine ⟨_, rfl, by decide, by decide, fun h => ?_⟩
  have hconn := (h "b").mpr (Or.inr (by decide))
  exact absurd hconn (by decide)

end Concrete

end NetPulse.Mesh
