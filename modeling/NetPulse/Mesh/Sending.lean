import NetPulse.Mesh.Router

/-
# NetPulse.Mesh.Sending — what the sending methods do to a pack and to the router

§1 says how the pack that leaves a router differs from the one that came in. §2 to §4 say what the
router keeps of it: cached transports, which change nothing about the socket over which a node is
reached, and for the data of a stream what `Settled` lists. None of it opens a channel, moves a route,
or touches a session.
-/

namespace NetPulse.Mesh

open NetPulse.Lib Router

section Sending

variable [Canon] {Data : Type*}

/-! ## §1 The pack -/

theorem hop_spec (r : Router Data) (p : MsgPack Data) :
    (r.hop p).ttl = p.ttl - 1 ∧ (r.hop p).type = p.type := ⟨rfl, rfl⟩

omit [Canon] in
theorem asForwarded_spec (p : MsgPack Data) :
    (asForwarded p).ttl = p.ttl ∧
      ((asForwarded p).type = p.type ∨ p.type = .request ∧ (asForwarded p).type = .forwarded) := by
  unfold asForwarded
  split
  · rename_i h
    exact ⟨rfl, Or.inr ⟨h, rfl⟩⟩
  · exact ⟨rfl, Or.inl rfl⟩

/-- `p'` is `p` after `_forward`: one hop less, and a REQUEST may have become FORWARDED. -/
def ForwardOf (p p' : MsgPack Data) : Prop :=
  p'.ttl = p.ttl - 1 ∧ (p'.type = p.type ∨ p.type = .request ∧ p'.type = .forwarded)

theorem forwardOf_hop (r : Router Data) (p : MsgPack Data) : ForwardOf p (r.hop p) :=
  ⟨(hop_spec r p).1, Or.inl (hop_spec r p).2⟩

theorem forwardOf_asForwarded (r : Router Data) (p : MsgPack Data) :
    ForwardOf p (asForwarded (r.hop p)) := by
  have h := asForwarded_spec (r.hop p)
  rw [(hop_spec r p).1, (hop_spec r p).2] at h
  exact h

theorem forwardByHost_spec {r r' : Router Data} {dst : String} {p p' : MsgPack Data} {ws : Sock}
    (h : r.forwardByHost dst p = some (r', ws, p')) : ForwardOf p p' := by
  unfold Router.forwardByHost at h
  split at h
  · cases h
  · split at h
    · cases h
    · split at h
      · split at h
        · cases h
          exact forwardOf_asForwarded r p
        · cases h
      · split at h
        · cases h
          exact forwardOf_hop _ p
        · split at h
          · cases h
            exact forwardOf_hop _ p
          · cases h

/-- Every branch of `_forward` counts the hop. -/
theorem forward_spec {r r' : Router Data} {p p' : MsgPack Data} {ws : Sock}
    (h : r.forward p = some (r', ws, p')) : ForwardOf p p' := by
  unfold Router.forward at h
  split at h
  · cases h
  · split at h
    · cases h
      exact forwardOf_hop _ p
    · split at h
      · cases h
        exact forwardOf_hop _ p
      · split at h
        · cases h
          exact forwardOf_asForwarded r p
        · exact forwardByHost_spec h

theorem relay_spec {r : Router Data} {p p' : MsgPack Data} {ws : Sock}
    (h : (r.relay p).relayed = some (ws, p')) : ForwardOf p p' := by
  unfold Router.relay at h
  split at h
  · rename_i hf
    cases h
    exact forward_spec hf
  · cases h

/-- `_route_back` leaves all but the path as it is, and sends along a path that is not empty. -/
theorem routeBack_spec {r : Router Data} {p p' : MsgPack Data} {ws : Sock}
    (h : (r.routeBack p).2 = some (ws, p')) :
    p' = { p with path := r.stripSelf p.path } ∧ p'.path ≠ [] := by
  unfold Router.routeBack at h
  split at h
  · cases h
  · rename_i nextHop hlast
    split at h
    · cases h
      refine ⟨rfl, fun hnil => ?_⟩
      have hnil' : r.stripSelf p.path = [] := hnil
      rw [hnil'] at hlast
      cases hlast
    · cases h

theorem sendDirect_spec {r : Router Data} {p p' : MsgPack Data} {ws : Sock}
    (h : (r.sendDirect p).2 = some (ws, p')) : p' = p := by
  unfold Router.sendDirect at h
  split at h
  · cases h
    rfl
  · cases h

/-- An own id at the end of the path is taken off. -/
theorem stripSelf_length {r : Router Data} {path : List String} {last : String}
    (h : path.getLast? = some last) (hself : r.isNode last = true) :
    (r.stripSelf path).length + 1 = path.length := by
  have hne : path ≠ [] := by
    rintro rfl
    cases h
  unfold Router.stripSelf
  rw [h]
  simp only [hself, if_true, List.length_dropLast]
  have := List.length_pos_of_ne_nil hne
  omega

/-- A router whose id ends the path adds nothing to it. -/
theorem hop_of_last {r : Router Data} {p : MsgPack Data} (h : p.path.getLast? = some r.NODE) :
    r.hop p = { p with ttl := p.ttl - 1 } := by
  simp [Router.hop, h]

/-! ## §2 The cache of transports -/

/-- `r'` is `r` with more cached transports, each of which is registered. -/
structure Cached (r r' : Router Data) : Prop where
  same : r' = { r with transportCache := r'.transportCache }
  cache : ∀ id ws, r'.transportCache.get id = some ws →
    r.transportCache.get id = some ws ∨ r.nodes.get id = some ws ∨ r.clientWs.get id = some ws

theorem Cached.refl (r : Router Data) : Cached r r := ⟨rfl, fun _ _ h => Or.inl h⟩

theorem cached_set {r : Router Data} {id : String} {ws : Sock}
    (h : r.nodes.get id = some ws ∨ r.clientWs.get id = some ws) :
    Cached r { r with transportCache := r.transportCache.set id ws } where
  same := rfl
  cache := by
    intro id' ws' hget
    dsimp only at hget
    rw [Dict.get_set] at hget
    split at hget
    · rename_i heq
      cases hget
      subst heq
      exact Or.inr h
    · exact Or.inl hget

theorem cached_getTransportTo {r r' : Router Data} {name : String} {ws : Sock}
    (h : r.getTransportTo name = some (r', ws)) : Cached r r' := by
  unfold Router.getTransportTo at h
  split at h
  · cases h
    exact .refl r
  · split at h
    · rename_i hnode
      cases h
      exact cached_set (Or.inl hnode)
    · split at h
      · rename_i hclient
        cases h
        exact cached_set (Or.inr hclient)
      · cases h

theorem cached_forwardByHost {r r' : Router Data} {dst : String} {p p' : MsgPack Data} {ws : Sock}
    (h : r.forwardByHost dst p = some (r', ws, p')) : Cached r r' := by
  unfold Router.forwardByHost at h
  split at h
  · cases h
  · split at h
    · cases h
    · split at h
      · split at h
        · rename_i hsend
          cases h
          exact cached_getTransportTo hsend
        · cases h
      · split at h
        · cases h
          exact .refl r
        · split at h
          · cases h
            exact .refl r
          · cases h

theorem cached_forward {r r' : Router Data} {p p' : MsgPack Data} {ws : Sock}
    (h : r.forward p = some (r', ws, p')) : Cached r r' := by
  unfold Router.forward at h
  split at h
  · cases h
  · split at h
    · cases h
      exact .refl r
    · split at h
      · cases h
        exact .refl r
      · split at h
        · rename_i hvia
          obtain ⟨via, _, hsend⟩ := Option.bind_eq_some_iff.mp hvia
          cases h
          exact cached_getTransportTo hsend
        · exact cached_forwardByHost h

theorem cached_relay (r : Router Data) (p : MsgPack Data) : Cached r (r.relay p).router := by
  unfold Router.relay
  split
  · rename_i hf
    exact cached_forward hf
  · exact .refl r

/-! ## §3 The transport to a node -/

/-- The socket that `get_transport_to` finds. -/
def Router.reach (r : Router Data) (name : String) : Option Sock :=
  (r.getTransportTo name).map Prod.snd

/-- `r'` is the same node as `r`, and reaches each node over the same socket. -/
structure Steady (r r' : Router Data) : Prop where
  node : r'.NODE = r.NODE
  reach : ∀ name, r'.reach name = r.reach name

theorem Steady.refl (r : Router Data) : Steady r r := ⟨rfl, fun _ => rfl⟩

theorem Steady.trans {r r' r'' : Router Data} (h : Steady r r') (h' : Steady r' r'') :
    Steady r r'' where
  node := h'.node.trans h.node
  reach name := (h'.reach name).trans (h.reach name)

/-- The first of the three places that has a socket. -/
theorem reach_eq (r : Router Data) (name : String) :
    r.reach name = (r.transportCache.get (canon name)).orElse fun _ =>
      (r.nodes.get (canon name)).orElse fun _ => r.clientWs.get (canon name) := by
  unfold Router.reach Router.getTransportTo
  cases r.transportCache.get (canon name) with
  | some ws => rfl
  | none =>
      cases r.nodes.get (canon name) with
      | some ws => rfl
      | none =>
          cases r.clientWs.get (canon name) with
          | some ws => rfl
          | none => rfl

/-- Nothing but the sockets and the cache matters. -/
theorem steady_of_same {r r' : Router Data} (hnode : r'.NODE = r.NODE)
    (hcache : r'.transportCache = r.transportCache) (hnodes : r'.nodes = r.nodes)
    (hclient : r'.clientWs = r.clientWs) : Steady r r' where
  node := hnode
  reach name := by rw [reach_eq, reach_eq, hcache, hnodes, hclient]

/-- A socket that is cached is the one that was found. -/
theorem steady_getTransportTo {r r' : Router Data} {name : String} {ws : Sock}
    (h : r.getTransportTo name = some (r', ws)) : Steady r r' := by
  have hfound : r.reach name = some ws := by
    unfold Router.reach
    rw [h]
    rfl
  have hr' : r' = r ∨
      r' = { r with transportCache := r.transportCache.set (canon name) ws } := by
    unfold Router.getTransportTo at h
    split at h
    · cases h
      exact Or.inl rfl
    · split at h
      · cases h
        exact Or.inr rfl
      · split at h
        · cases h
          exact Or.inr rfl
        · cases h
  rcases hr' with rfl | rfl
  · exact .refl r'
  · refine ⟨rfl, fun q => ?_⟩
    rw [reach_eq]
    dsimp only
    rw [Dict.get_set]
    split
    · rename_i heq
      have hq : r.reach q = some ws := by
        rw [reach_eq, heq, ← reach_eq]
        exact hfound
      rw [hq]
      rfl
    · rw [reach_eq]

theorem steady_forwardByHost {r r' : Router Data} {dst : String} {p p' : MsgPack Data} {ws : Sock}
    (h : r.forwardByHost dst p = some (r', ws, p')) : Steady r r' := by
  unfold Router.forwardByHost at h
  split at h
  · cases h
  · split at h
    · cases h
    · split at h
      · split at h
        · rename_i hsend
          cases h
          exact steady_getTransportTo hsend
        · cases h
      · split at h
        · cases h
          exact .refl r
        · split at h
          · cases h
            exact .refl r
          · cases h

theorem steady_forward {r r' : Router Data} {p p' : MsgPack Data} {ws : Sock}
    (h : r.forward p = some (r', ws, p')) : Steady r r' := by
  unfold Router.forward at h
  split at h
  · cases h
  · split at h
    · cases h
      exact .refl r
    · split at h
      · cases h
        exact .refl r
      · split at h
        · rename_i hvia
          obtain ⟨via, _, hsend⟩ := Option.bind_eq_some_iff.mp hvia
          cases h
          exact steady_getTransportTo hsend
        · exact steady_forwardByHost h

theorem steady_relay (r : Router Data) (p : MsgPack Data) : Steady r (r.relay p).router := by
  unfold Router.relay
  split
  · rename_i hf
    exact steady_forward hf
  · exact .refl r

theorem steady_resolve (r : Router Data) (label : String) (reply : Reply Data) :
    Steady r (r.resolve label reply) :=
  steady_of_same rfl rfl rfl rfl

theorem steady_routeBack (r : Router Data) (p : MsgPack Data) : Steady r (r.routeBack p).1 := by
  unfold Router.routeBack
  split
  · exact steady_resolve r _ _
  · split
    · rename_i hsend
      exact steady_getTransportTo hsend
    · exact .refl r

theorem steady_sendDirect (r : Router Data) (p : MsgPack Data) : Steady r (r.sendDirect p).1 := by
  unfold Router.sendDirect
  split
  · rename_i hsend
    obtain ⟨dst, _, hget⟩ := Option.bind_eq_some_iff.mp hsend
    exact steady_getTransportTo hget
  · exact .refl r

theorem steady_sendBack (r : Router Data) (response original : MsgPack Data) :
    Steady r (r.sendBack response original).1 := by
  unfold Router.sendBack
  split
  · exact steady_routeBack r _
  · exact steady_sendDirect r _

theorem steady_sendPack (r : Router Data) (p : MsgPack Data) : Steady r (r.sendPack p).1 := by
  unfold Router.sendPack
  split
  · exact steady_routeBack r p
  · exact steady_sendDirect r p

theorem steady_sendAll (r : Router Data) (packs : List (MsgPack Data)) :
    Steady r (r.sendAll packs).1 := by
  induction packs generalizing r with
  | nil => exact .refl r
  | cons p rest ih => exact (steady_sendPack r p).trans (ih _)

/-! ## §4 The data of a stream -/

/-- `r'` reaches the same nodes as `r`, over the same channels and routes. -/
structure SameWays (r r' : Router Data) : Prop where
  node : r'.NODE = r.NODE
  nodes : r'.nodes = r.nodes
  clientWs : r'.clientWs = r.clientWs
  nextHop : ∀ q, (r'.table.find q).bind NeighborInfo.nextHop =
    (r.table.find q).bind NeighborInfo.nextHop
  cache : ∀ id ws, r'.transportCache.get id = some ws →
    r.transportCache.get id = some ws ∨ r.nodes.get id = some ws ∨ r.clientWs.get id = some ws

theorem SameWays.trans {r r' r'' : Router Data} (h : SameWays r r') (h' : SameWays r' r'') :
    SameWays r r'' where
  node := h'.node.trans h.node
  nodes := h'.nodes.trans h.nodes
  clientWs := h'.clientWs.trans h.clientWs
  nextHop q := (h'.nextHop q).trans (h.nextHop q)
  cache id ws hws := by
    rcases h'.cache id ws hws with hcache | hnode | hclient
    · exact h.cache id ws hcache
    · exact Or.inr (Or.inl (h.nodes ▸ hnode))
    · exact Or.inr (Or.inr (h.clientWs ▸ hclient))

/-- The sessions have no part in the ways. -/
theorem sameWays_sessions (r : Router Data) (sessions : SessionTable (Reply Data)) :
    SameWays r { r with sessions } :=
  ⟨rfl, rfl, rfl, fun _ => rfl, fun _ _ h => Or.inl h⟩

/-- `r'` is `r` after traffic that is none of its business: the ways, the clients that wait, the
sessions and the services are the same, and no stream has come. -/
structure Settled (r r' : Router Data) : Prop extends SameWays r r' where
  wsPending : r'.wsPending = r.wsPending
  sessions : r'.sessions = r.sessions
  services : r'.services = r.services
  streams : ∀ label, label ∈ r'.streams → label ∈ r.streams

theorem Settled.trans {r r' r'' : Router Data} (h : Settled r r') (h' : Settled r' r'') :
    Settled r r'' where
  toSameWays := h.toSameWays.trans h'.toSameWays
  wsPending := h'.wsPending.trans h.wsPending
  sessions := h'.sessions.trans h.sessions
  services := h'.services.trans h.services
  streams label hl := h.streams label (h'.streams label hl)

theorem Cached.settled {r r' : Router Data} (h : Cached r r') : Settled r r' := by
  have hcache := h.cache
  rw [h.same]
  exact ⟨⟨rfl, rfl, rfl, fun _ => rfl, hcache⟩, rfl, rfl, rfl, fun _ hl => hl⟩

theorem Settled.refl (r : Router Data) : Settled r r := (Cached.refl r).settled

theorem settled_touchSource (r : Router Data) (now : Time) (p : MsgPack Data) :
    Settled r (r.touchSource now p) := by
  unfold Router.touchSource
  split
  · exact ⟨⟨rfl, rfl, rfl, r.table.nextHop_touch now p.source, fun _ _ h => Or.inl h⟩, rfl, rfl,
      rfl, fun _ hl => hl⟩
  · exact .refl r

/-- Stream routes, and streams that end, settle. -/
theorem settled_streams (r : Router Data) (routes : Dict String StreamRoute) {streams : Finset String}
    (h : ∀ label, label ∈ streams → label ∈ r.streams) :
    Settled r { r with streams, streamRoutes := routes } :=
  ⟨⟨rfl, rfl, rfl, fun _ => rfl, fun _ _ h => Or.inl h⟩, rfl, rfl, rfl, h⟩

theorem settled_getStreamRoute (r : Router Data) (now : Time) (label : String) :
    Settled r (r.getStreamRoute now label).1 := by
  unfold Router.getStreamRoute
  split
  · exact .refl r
  · dsimp only
    split
    · exact settled_streams r _ fun _ hl => hl
    · exact settled_streams r _ fun _ hl => hl

theorem settled_cacheStreamRouteOnReady (r : Router Data) (now : Time) (p : MsgPack Data) :
    Settled r (r.cacheStreamRouteOnReady now p) := by
  unfold Router.cacheStreamRouteOnReady
  split
  · exact .refl r
  · split
    · exact .refl r
    · exact settled_streams r _ fun _ hl => hl

/-- The packs that carry the data of a stream, or its end. -/
def MsgPack.isData (p : MsgPack Data) : Bool := p.type = .streamChunk || p.type = .streamEof

omit [Canon] in
theorem ForwardOf.isData {p p' : MsgPack Data} (h : ForwardOf p p') (hp : p.isData = true) :
    p'.isData = true := by
  rcases h.2 with heq | ⟨hreq, _⟩
  · simpa [MsgPack.isData, heq] using hp
  · simp [MsgPack.isData, hreq] at hp

/-- The packs that a handler sends. -/
def Router.Handled.sends (h : Handled Data) : List (Sock × MsgPack Data) :=
  h.relayed.toList ++ h.answered.toList

theorem relay_data {r : Router Data} {p : MsgPack Data} (hp : p.isData = true) :
    Settled r (r.relay p).router ∧ (∀ q ∈ (r.relay p).sends, q.2.isData = true) ∧
      (r.relay p).act = none := by
  refine ⟨(cached_relay r p).settled, ?_, ?_⟩
  · intro q hq
    have hanswered : (r.relay p).answered = none := by
      unfold Router.relay
      split <;> rfl
    have hmem : (r.relay p).relayed = some (q.1, q.2) := by
      simpa [Handled.sends, hanswered, eq_comm] using hq
    exact (relay_spec hmem).isData hp
  · unfold Router.relay
    split <;> rfl

theorem forwardStreamData_data {r : Router Data} (now : Time) {p : MsgPack Data}
    (hp : p.isData = true) :
    Settled r (r.forwardStreamData now p).router ∧
      (∀ q ∈ (r.forwardStreamData now p).sends, q.2.isData = true) ∧
      (r.forwardStreamData now p).act = none := by
  have hroute := settled_getStreamRoute r now p.label
  unfold Router.forwardStreamData
  dsimp only
  split
  · rename_i r' ws hsend
    obtain ⟨next, _, hget⟩ := Option.bind_eq_some_iff.mp hsend
    refine ⟨hroute.trans (cached_getTransportTo hget).settled, ?_, rfl⟩
    intro q hq
    have heq : q = (ws, p) := by simpa [Handled.sends] using hq
    rw [heq]
    exact hp
  · obtain ⟨hsettled, hsends, hact⟩ := relay_data (r := (r.getStreamRoute now p.label).1) hp
    exact ⟨hroute.trans hsettled, hsends, hact⟩

/-- **Stream data passes.** Handling the data of a stream settles: what is sent on is data again, and
no service runs. -/
theorem handle_data {r : Router Data} (now : Time) {p : MsgPack Data} (ws : Sock)
    (hp : p.isData = true) :
    Settled r (r.handle now p ws).router ∧
      (∀ q ∈ (r.handle now p ws).sends, q.2.isData = true) ∧
      ∀ req, (r.handle now p ws).act ≠ some (.execute req) := by
  have htouch := settled_touchSource r now p
  unfold Router.handle Router.dispatch
  have htype : p.type = .streamChunk ∨ p.type = .streamEof := by
    simpa [MsgPack.isData] using hp
  rcases htype with ht | ht
  · simp only [ht]
    split
    · obtain ⟨hsettled, hsends, hact⟩ :=
        forwardStreamData_data (r := r.touchSource now p) now hp
      exact ⟨htouch.trans hsettled, hsends, fun req h => by rw [hact] at h; cases h⟩
    · exact ⟨htouch, by simp [Handled.sends], fun req h => by cases h⟩
  · simp only [ht]
    split
    · obtain ⟨hsettled, hsends, hact⟩ :=
        forwardStreamData_data (r := r.touchSource now p) now hp
      exact ⟨htouch.trans hsettled, hsends, fun req h => by rw [hact] at h; cases h⟩
    · refine ⟨htouch.trans (settled_streams _ _ fun label hl => ?_), by simp [Handled.sends],
        fun req h => by cases h⟩
      exact Finset.mem_of_mem_erase hl

end Sending

end NetPulse.Mesh
