import NetPulse.Mesh.Sending

/-
# NetPulse.Mesh.HeldSockets — the sockets that a router sends on

A router finds sockets in four places: the server side, the client side, the cache of transports, and
the clients that wait for a reply. `within_handle` and its relatives say that no method sends on a
socket from anywhere else, or keeps one, but for the socket on which the pack at hand has come. What
holds of all sockets in these places holds of every socket that a pack leaves on.
-/

namespace NetPulse.Mesh

open NetPulse.Lib Router

section HeldSockets

variable [Canon] {Data : Type*} {K : Sock → Prop}

/-! ## §1 The places -/

/-- Every socket that the router holds is one of `K`. -/
structure Within (K : Sock → Prop) (r : Router Data) : Prop where
  nodes : ∀ id ws, r.nodes.get id = some ws → K ws
  clientWs : ∀ id ws, r.clientWs.get id = some ws → K ws
  cache : ∀ id ws, r.transportCache.get id = some ws → K ws
  wsPending : ∀ label entry, r.wsPending.get label = some entry → K entry.1

theorem within_init (own localAlias : String) (services : Services) :
    Within K (Router.init own localAlias services : Router Data) := by
  refine ⟨?_, ?_, ?_, ?_⟩
  · intro id ws h
    cases h
  · intro id ws h
    cases h
  · intro id ws h
    cases h
  · intro label entry h
    cases h

theorem Within.mono {K' : Sock → Prop} {r : Router Data} (h : Within K r) (hsub : ∀ ws, K ws → K' ws) :
    Within K' r where
  nodes id ws hget := hsub ws (h.nodes id ws hget)
  clientWs id ws hget := hsub ws (h.clientWs id ws hget)
  cache id ws hget := hsub ws (h.cache id ws hget)
  wsPending label entry hget := hsub entry.1 (h.wsPending label entry hget)

/-- The table, the sessions, the streams and their routes are no places. -/
theorem Within.of_same {r r' : Router Data} (h : Within K r) (hnodes : r'.nodes = r.nodes)
    (hclient : r'.clientWs = r.clientWs) (hcache : r'.transportCache = r.transportCache)
    (hpending : r'.wsPending = r.wsPending) : Within K r' where
  nodes := by rw [hnodes]; exact h.nodes
  clientWs := by rw [hclient]; exact h.clientWs
  cache := by rw [hcache]; exact h.cache
  wsPending := by rw [hpending]; exact h.wsPending

theorem Within.of_cached {r r' : Router Data} (h : Within K r) (hc : Cached r r') : Within K r' := by
  have hcache : ∀ id ws, r'.transportCache.get id = some ws → K ws := by
    intro id ws hget
    rcases hc.cache id ws hget with hold | hnode | hclient
    · exact h.cache id ws hold
    · exact h.nodes id ws hnode
    · exact h.clientWs id ws hclient
  rw [hc.same]
  exact ⟨h.nodes, h.clientWs, hcache, h.wsPending⟩

theorem Within.registerNode {r : Router Data} (h : Within K r) (nodeId : String) {ws : Sock}
    (hws : K ws) : Within K (r.registerNode nodeId ws) :=
  ⟨Dict.forall_get_set h.nodes hws, h.clientWs, h.cache, h.wsPending⟩

theorem Within.removeNode {r : Router Data} (h : Within K r) (nodeId : String) :
    Within K (r.removeNode nodeId) :=
  ⟨Dict.forall_get_filter h.nodes _, h.clientWs, h.cache, h.wsPending⟩

theorem Within.registerClientWs {r : Router Data} (h : Within K r) (nodeId : String) {ws : Sock}
    (hws : K ws) : Within K (r.registerClientWs nodeId ws) :=
  ⟨h.nodes, Dict.forall_get_set h.clientWs hws, Dict.forall_get_filter h.cache _, h.wsPending⟩

theorem Within.unregisterClientWs {r : Router Data} (h : Within K r) (nodeId : String) :
    Within K (r.unregisterClientWs nodeId) :=
  ⟨h.nodes, Dict.forall_get_filter h.clientWs _, Dict.forall_get_filter h.cache _, h.wsPending⟩

theorem Within.invalidateTransport {r : Router Data} (h : Within K r) (nodeId : String) :
    Within K (r.invalidateTransport nodeId) :=
  ⟨h.nodes, h.clientWs, Dict.forall_get_filter h.cache _, h.wsPending⟩

/-! ## §2 The methods that send -/

/-- The router still holds sockets of `K` only, and has sent on no other. -/
def Keeps (K : Sock → Prop) (r' : Router Data) (sent : List (Sock × MsgPack Data)) : Prop :=
  Within K r' ∧ ∀ q ∈ sent, K q.1

theorem keeps_nil {r : Router Data} (h : Within K r) : Keeps K r [] :=
  ⟨h, fun q hq => by cases hq⟩

theorem keeps_singleton {r : Router Data} (h : Within K r) {ws : Sock} (hws : K ws)
    (p : MsgPack Data) : Keeps K r [(ws, p)] := by
  refine ⟨h, fun q hq => ?_⟩
  rw [List.mem_singleton.mp hq]
  exact hws

theorem within_getTransportTo {r r' : Router Data} (h : Within K r) {name : String} {ws : Sock}
    (hget : r.getTransportTo name = some (r', ws)) : Within K r' ∧ K ws := by
  refine ⟨h.of_cached (cached_getTransportTo hget), ?_⟩
  unfold Router.getTransportTo at hget
  split at hget
  · rename_i hcache
    cases hget
    exact h.cache _ _ hcache
  · -- not in the cache: a socket that came in, else one that was dialled
    split at hget
    · rename_i hnode
      cases hget
      exact h.nodes _ _ hnode
    · split at hget
      · rename_i hclient
        cases hget
        exact h.clientWs _ _ hclient
      · cases hget

theorem within_forwardByHost {r r' : Router Data} (h : Within K r) {dst : String}
    {p p' : MsgPack Data} {ws : Sock} (hf : r.forwardByHost dst p = some (r', ws, p')) : K ws := by
  unfold Router.forwardByHost at hf
  split at hf
  · cases hf
  · split at hf
    · cases hf
    · split at hf
      · -- through the neighbour that told of the host
        split at hf
        · rename_i hsend
          cases hf
          exact (within_getTransportTo h hsend).2
        · cases hf
      · -- the node with this host is linked to this one
        split at hf
        · rename_i hnode
          cases hf
          exact h.nodes _ _ hnode
        · split at hf
          · rename_i hclient
            cases hf
            exact h.clientWs _ _ hclient
          · cases hf

theorem within_forward {r r' : Router Data} (h : Within K r) {p p' : MsgPack Data} {ws : Sock}
    (hf : r.forward p = some (r', ws, p')) : Within K r' ∧ K ws := by
  refine ⟨h.of_cached (cached_forward hf), ?_⟩
  unfold Router.forward at hf
  split at hf
  · cases hf
  · split at hf
    · rename_i hnode
      cases hf
      exact h.nodes _ _ hnode
    · split at hf
      · rename_i hclient
        cases hf
        exact h.clientWs _ _ hclient
      · split at hf
        · rename_i hvia
          obtain ⟨via, _, hsend⟩ := Option.bind_eq_some_iff.mp hvia
          cases hf
          exact (within_getTransportTo h hsend).2
        · exact within_forwardByHost h hf

theorem within_relay {r : Router Data} (h : Within K r) (p : MsgPack Data) :
    Keeps K (r.relay p).router (r.relay p).sends := by
  unfold Router.relay
  split
  · rename_i hf
    obtain ⟨hr', hws⟩ := within_forward h hf
    exact keeps_singleton hr' hws _
  · exact keeps_nil h

theorem within_routeBack {r : Router Data} (h : Within K r) (p : MsgPack Data) :
    Keeps K (r.routeBack p).1 (r.routeBack p).2.toList := by
  unfold Router.routeBack
  split
  · exact keeps_nil (h.of_same rfl rfl rfl rfl)
  · split
    · rename_i hsend
      obtain ⟨hr', hws⟩ := within_getTransportTo h hsend
      exact keeps_singleton hr' hws _
    · exact keeps_nil h

theorem within_sendDirect {r : Router Data} (h : Within K r) (p : MsgPack Data) :
    Keeps K (r.sendDirect p).1 (r.sendDirect p).2.toList := by
  unfold Router.sendDirect
  split
  · rename_i hsend
    obtain ⟨dst, _, hget⟩ := Option.bind_eq_some_iff.mp hsend
    obtain ⟨hr', hws⟩ := within_getTransportTo h hget
    exact keeps_singleton hr' hws _
  · exact keeps_nil h

theorem within_sendBack {r : Router Data} (h : Within K r) (response original : MsgPack Data) :
    Keeps K (r.sendBack response original).1 (r.sendBack response original).2.toList := by
  unfold Router.sendBack
  split
  · exact within_routeBack h _
  · exact within_sendDirect h _

theorem within_sendPack {r : Router Data} (h : Within K r) (p : MsgPack Data) :
    Keeps K (r.sendPack p).1 (r.sendPack p).2.toList := by
  unfold Router.sendPack
  split
  · exact within_routeBack h p
  · exact within_sendDirect h p

theorem within_getStreamRoute {r : Router Data} (h : Within K r) (now : Time) (label : String) :
    Within K (r.getStreamRoute now label).1 := by
  unfold Router.getStreamRoute
  split
  · exact h
  · dsimp only
    split
    · exact h.of_same rfl rfl rfl rfl
    · exact h.of_same rfl rfl rfl rfl

theorem within_sendStreamAck {r : Router Data} (h : Within K r) (now : Time) (label : String)
    (buff : Int) :
    Keeps K (r.sendStreamAck now label buff).1 (r.sendStreamAck now label buff).2.toList := by
  have hroute := within_getStreamRoute h now label
  unfold Router.sendStreamAck
  split
  · rename_i heq
    rw [heq] at hroute
    exact keeps_nil hroute
  · rename_i heq
    rw [heq] at hroute
    dsimp only
    split_ifs
    · exact within_routeBack hroute _
    · exact within_sendDirect hroute _
    · exact keeps_nil hroute

/-! ## §3 The handlers -/

theorem within_onForwarded {r : Router Data} (h : Within K r) (p : MsgPack Data) :
    Keeps K (r.onForwarded p).router (r.onForwarded p).sends := by
  unfold Router.onForwarded
  split
  · exact keeps_nil h
  · split
    · exact keeps_nil h
    · dsimp only
      split
      · exact keeps_nil h
      · exact within_relay h _

/-- The one place where a socket comes in: the client waits for its reply. -/
theorem within_onRemoteRequest {r : Router Data} (h : Within K r) (now : Time) (p : MsgPack Data)
    {ws : Sock} (hws : K ws) :
    Keeps K (r.onRemoteRequest now p ws).router (r.onRemoteRequest now p ws).sends := by
  have hwaiting : Within K { r with wsPending := r.wsPending.set p.label (ws, now) } :=
    ⟨h.nodes, h.clientWs, h.cache,
      Dict.forall_get_set (P := fun _ (entry : Sock × Time) => K entry.1) h.wsPending hws⟩
  unfold Router.onRemoteRequest
  dsimp only
  split
  · rename_i hf
    obtain ⟨hr', hws'⟩ := within_forward hwaiting hf
    exact keeps_singleton hr' hws' _
  · refine keeps_singleton ?_ hws _
    exact ⟨h.nodes, h.clientWs, h.cache, Dict.forall_get_filter hwaiting.wsPending _⟩

theorem within_forwardStreamOpen {r : Router Data} (h : Within K r) (now : Time)
    (p : MsgPack Data) :
    Keeps K (r.forwardStreamOpen now p).router (r.forwardStreamOpen now p).sends := by
  unfold Router.forwardStreamOpen
  dsimp only
  split
  · exact within_relay h _
  · split
    · exact within_relay h _
    · refine within_relay ?_ _
      exact h.of_same rfl rfl rfl rfl

theorem within_forwardStreamData {r : Router Data} (h : Within K r) (now : Time)
    (p : MsgPack Data) :
    Keeps K (r.forwardStreamData now p).router (r.forwardStreamData now p).sends := by
  have hroute := within_getStreamRoute h now p.label
  unfold Router.forwardStreamData
  dsimp only
  split
  · rename_i hsend
    obtain ⟨next, _, hget⟩ := Option.bind_eq_some_iff.mp hsend
    obtain ⟨hr', hws⟩ := within_getTransportTo hroute hget
    exact keeps_singleton hr' hws _
  · exact within_relay hroute p

theorem within_relayBack {r : Router Data} (h : Within K r) (p : MsgPack Data) :
    Keeps K (r.relayBack p).router (r.relayBack p).sends := by
  have hback := within_routeBack h p
  unfold Router.relayBack Handled.sends
  rw [Option.toList_none, List.append_nil]
  exact hback

theorem within_toWsClient {r : Router Data} (h : Within K r) {p : MsgPack Data} {done : Handled Data}
    (hw : r.toWsClient p = some done) : Keeps K done.router done.sends := by
  obtain ⟨entry, hentry, rfl⟩ := Option.map_eq_some_iff.mp hw
  refine keeps_singleton ?_ (h.wsPending _ _ hentry) p
  exact ⟨h.nodes, h.clientWs, h.cache, Dict.forall_get_filter h.wsPending _⟩

theorem within_cacheStreamRouteOnOpen {r : Router Data} (h : Within K r) (now : Time)
    (p : MsgPack Data) : Within K (r.cacheStreamRouteOnOpen now p) := by
  unfold Router.cacheStreamRouteOnOpen
  split
  · exact h
  · split
    · exact h
    · exact h.of_same rfl rfl rfl rfl

theorem within_cacheStreamRouteOnReady {r : Router Data} (h : Within K r) (now : Time)
    (p : MsgPack Data) : Within K (r.cacheStreamRouteOnReady now p) := by
  unfold Router.cacheStreamRouteOnReady
  split
  · exact h
  · split
    · exact h
    · exact h.of_same rfl rfl rfl rfl

theorem within_onStreamOpen {r : Router Data} (h : Within K r) (p : MsgPack Data) :
    Within K (r.onStreamOpen p).1 := by
  unfold Router.onStreamOpen
  dsimp only
  split
  · exact h
  · split
    · exact h
    · split
      · exact h.of_same rfl rfl rfl rfl
      · exact h.of_same rfl rfl rfl rfl

theorem within_touchSource {r : Router Data} (h : Within K r) (now : Time) (p : MsgPack Data) :
    Within K (r.touchSource now p) := by
  obtain ⟨table, htouch⟩ := r.exists_touchSource now p
  rw [htouch]
  exact h.of_same rfl rfl rfl rfl

/-- **What `handle` sends on**: sockets that the router holds, and the one the pack came on. -/
theorem within_handle {r : Router Data} (hr : Within K r) (now : Time) (p : MsgPack Data) {ws : Sock}
    (hws : K ws) : Keeps K (r.handle now p ws).router (r.handle now p ws).sends := by
  have h := within_touchSource hr now p
  unfold Router.handle
  generalize r.touchSource now p = r at h
  unfold Router.dispatch
  cases htype : p.type with
  | forwarded => exact within_onForwarded h p
  | request =>
      dsimp only
      split
      · exact within_onRemoteRequest h now p hws
      · exact keeps_nil h
  | response =>
      dsimp only
      split
      · rename_i hw
        exact within_toWsClient h hw
      · split
        · exact within_relayBack h p
        · exact keeps_nil (h.of_same rfl rfl rfl rfl)
  | streamOpen =>
      dsimp only
      split
      · exact within_forwardStreamOpen h now p
      · have hopened := within_cacheStreamRouteOnOpen (within_onStreamOpen h p) now p
        exact within_sendBack hopened (r.onStreamOpen p).2.1 p
  | streamReady =>
      have hready := within_cacheStreamRouteOnReady h now p
      dsimp only
      split
      · exact within_relayBack hready p
      · exact keeps_nil (hready.of_same rfl rfl rfl rfl)
  | streamChunk =>
      dsimp only
      split
      · exact within_forwardStreamData h now p
      · exact keeps_nil h
  | streamAck =>
      dsimp only
      split
      · exact within_relayBack h p
      · exact keeps_nil (h.of_same rfl rfl rfl rfl)
  | streamEof =>
      dsimp only
      split
      · exact within_forwardStreamData h now p
      · exact keeps_nil (h.of_same rfl rfl rfl rfl)
  | error =>
      dsimp only
      split
      · exact keeps_nil (h.of_same rfl rfl rfl rfl)
      · split
        · rename_i hw
          exact within_toWsClient h hw
        · split
          · exact within_relayBack h p
          · exact keeps_nil (h.of_same rfl rfl rfl rfl)
  | gossip =>
      dsimp only
      split
      · exact keeps_nil (h.of_same rfl rfl rfl rfl)
      · exact keeps_nil h
  | announce =>
      dsimp only
      split
      · exact keeps_nil (h.of_same rfl rfl rfl rfl)
      · exact keeps_nil (h.of_same rfl rfl rfl rfl)
  | ping => exact within_sendBack h _ p
  | pong => exact keeps_nil (h.of_same rfl rfl rfl rfl)
  | certSync => exact keeps_nil h
  | hello => exact keeps_nil h
  | helloAck => exact keeps_nil h
  | helloReject => exact keeps_nil h

end HeldSockets

end NetPulse.Mesh
