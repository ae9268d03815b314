import NetPulse.Lib.Machine
import NetPulse.Mesh.Chain

/-
# NetPulse.Mesh.StreamRouting — which way the packs of a stream go

The packs of a stream are routed by four rules: STREAM_OPEN through `_forward`, collecting its path;
STREAM_READY and STREAM_ACK back along a path, which the ACK takes from the route that the receiver
cached; CHUNK, EOF and the ERROR of the producer by `_send_pack`, with an empty path, so straight to
the destination or nowhere. The producer never looks up the route that it cached itself.

`stream_lossless_iff` says when nothing is lost on a chain: when the chain has one hop, and the
receiver never waits longer than `_STREAM_ROUTE_TTL` for its next ACK. Over a longer chain every pack
of the pump is dropped by its sender (`pumped_over_two_hops_lost`).
-/

namespace NetPulse.Mesh

open NetPulse.Lib Router

section StreamRouting

variable [Canon] {N Data : Type*}

/-! ## §1 The packs of a stream -/

/-- The STREAM_OPEN on the channel from node `i` to the next; each relay counts its hop twice. -/
def CallArgs.opening (a : CallArgs Data) (c : Chain N) (i : Nat) : MsgPack Data :=
  a.pack c .streamOpen (c.visited i) (DEFAULT_TTL - 1 - 2 * i)

/-- The STREAM_READY on the channel to node `i`. -/
def CallArgs.ready (a : CallArgs Data) (c : Chain N) (i : Nat) : MsgPack Data :=
  { type := .streamReady, source := a.dst, dst := some (c.id 0), label := a.label, data := .ready
    path := c.visited i }

/-- A STREAM_ACK on the channel to node `i`. -/
def CallArgs.ack (a : CallArgs Data) (c : Chain N) (buff : Int) (i : Nat) : MsgPack Data :=
  { type := .streamAck, source := c.id c.length, dst := some (c.id 0), label := a.label
    data := .buff buff, path := c.visited i }

/-- What `_pump` sends: chunks, and at the end an EOF or an ERROR. -/
inductive Pumped (Data : Type*) where
  | chunk (d : Payload Data)
  | eof
  | failed (error : String)

def Pumped.isLast : Pumped Data → Bool
  | .chunk _ => false
  | _ => true

/-- A pack of `_pump`; it has no path. -/
def CallArgs.pumped (a : CallArgs Data) (source : String) : Pumped Data → MsgPack Data
  | .chunk d => { type := .streamChunk, source, dst := some a.dst, label := a.label, data := d }
  | .eof => { type := .streamEof, source, dst := some a.dst, label := a.label }
  | .failed error =>
      { type := .error, source, dst := some a.dst, label := a.label
        error := some ("producer failed: " ++ error) }

/-- What a pack of `_pump` does to the stream registry at its destination. -/
def registryAct (p : MsgPack Data) : Option (Act Data) :=
  match p.type with
  | .streamChunk => some (.feed p.label p.data)
  | .streamEof => some (.close p.label)
  | .error => some (.fail p.label ((p.error.filter (· ≠ "")).getD "producer failed"))
  | _ => none

/-- What a handler did to the stream registry. -/
def Router.Handled.registered (h : Handled Data) : Option (Act Data) :=
  match h.act with
  | some (.feed label data) => some (.feed label data)
  | some (.close label) => some (.close label)
  | some (.fail label error) => some (.fail label error)
  | _ => none

/-- The services of the node take the stream. -/
def Accepts (a : CallArgs Data) (r : Router Data) : Prop :=
  r.services.known (some a.service) = true ∧
    r.services.consumer (some a.service) (some a.method) = true

/-- The route that the receiver has cached for the stream leads back along the chain. -/
def HasRoute (c : Chain N) (a : CallArgs Data) (r : Router Data) : Prop :=
  ∃ route j, r.streamRoutes.get a.label = some route ∧ j + 1 = c.length ∧
    route.backwardPath = c.visited j ∧ route.source = c.id 0

/-! ## §2 What a node of the chain does with them -/

section Stops

variable {c : Chain N} {peer : N → Sock → N × Sock} {a : CallArgs Data} {r : Router Data}

/-- The producer sends the STREAM_OPEN to the first node after it. -/
theorem forward_open (h : c.Stop peer 0 r) (hname : c.Names a.dst) :
    ∃ r' ws, r.forward (a.pack c .streamOpen (c.visited 0) DEFAULT_TTL) =
        some (r', ws, a.opening c 0) ∧
      (peer (c.node 0) ws).1 = c.node 1 ∧ Cached r r' := by
  obtain ⟨r', ws, hforward, hpeer, hcached⟩ :=
    h.forward c.pos (p := a.pack c .streamOpen (c.visited 0) DEFAULT_TTL) rfl hname rfl
  have hsent : c.sentOn 0 (a.pack c .streamOpen (c.visited 0) DEFAULT_TTL) = a.opening c 0 := by
    unfold Chain.sentOn
    split <;> rfl
  exact ⟨r', ws, hsent ▸ hforward, hpeer, hcached⟩

/-- A node on the way adds itself to the path and sends the STREAM_OPEN through `_forward`. -/
theorem forwardStreamOpen_along (now : Time) {j : Nat} (h : c.Stop peer (j + 1) r) :
    ∃ u, Settled r u ∧ r.forwardStreamOpen now (a.opening c j) =
      u.relay (a.pack c .streamOpen (c.visited (j + 1)) (DEFAULT_TTL - 1 - 2 * j - 1)) := by
  have hpath : (a.opening c j).path ++ [r.NODE] = c.visited (j + 1) := by
    rw [h.node, c.visited_succ]
    rfl
  unfold Router.forwardStreamOpen
  rw [hpath]
  by_cases hskip : c.id 0 = "" ∨ a.dst = "" ∨ (r.streamRoutes.get a.label).isSome = true
  · exact ⟨r, .refl r, if_pos hskip⟩
  · exact ⟨_, settled_streams r _ fun _ hl => hl, if_neg hskip⟩

/-- A node on the way sends the STREAM_OPEN on. -/
theorem handle_open_between (now : Time) (ws : Sock) {j : Nat} (h : c.Stop peer (j + 1) r)
    (hj : j + 1 < c.length) (hname : c.Names a.dst) :
    ∃ r' ws', r.handle now (a.opening c j) ws =
        { router := r', relayed := some (ws', a.opening c (j + 1)) } ∧
      (peer (c.node (j + 1)) ws').1 = c.node (j + 1 + 1) ∧ Settled r r' := by
  have htouch := settled_touchSource r now (a.opening c j)
  have hstop := h.of_sameWays htouch.toSameWays
  have hremote : (r.touchSource now (a.opening c j)).isRemote (a.opening c j) = true := by
    rw [hstop.isRemote hj.le (Nat.le_refl _) (p := a.opening c j) rfl hname]
    exact decide_eq_true (by omega)
  obtain ⟨u, hu, hopen⟩ := forwardStreamOpen_along (a := a) now hstop
  obtain ⟨r', ws', hforward, hpeer, hcached⟩ := (hstop.of_sameWays hu.toSameWays).forward hj
    (p := a.pack c .streamOpen (c.visited (j + 1)) (DEFAULT_TTL - 1 - 2 * j - 1)) rfl hname
    (c.getLast?_visited _)
  have hsent : c.sentOn (j + 1)
      (a.pack c .streamOpen (c.visited (j + 1)) (DEFAULT_TTL - 1 - 2 * j - 1)) =
      a.opening c (j + 1) := by
    have hdue : DEFAULT_TTL - 1 - 2 * (j : Int) - 1 - 1 = DEFAULT_TTL - 1 - 2 * (j + 1 : Nat) := by
      push_cast
      omega
    unfold Chain.sentOn CallArgs.opening
    rw [← hdue]
    split <;> rfl
  refine ⟨r', ws', ?_, hpeer, htouch.trans (hu.trans hcached.settled)⟩
  unfold Router.handle
  rw [dispatch_streamOpen_remote (p := a.opening c j) now ws rfl hremote, hopen, Router.relay,
    hforward, hsent]

/-- The receiver caches the way back to the producer. -/
theorem cacheStreamRouteOnOpen_along (r : Router Data) (now : Time) {j : Nat} (hj : j + 1 = c.length)
    (hname : c.Names a.dst) :
    ∃ routes route, r.cacheStreamRouteOnOpen now (a.opening c j) = { r with streamRoutes := routes } ∧
      routes.get a.label = some route ∧ route.backwardPath = c.visited j ∧ route.source = c.id 0 := by
  have hnone : ¬ ((a.opening c j).path = [] ∨ (a.opening c j).source = "" ∨ a.dst = "") := by
    rintro (h | h | h)
    · exact c.visited_ne_nil j h
    · exact c.named 0 (Nat.zero_le _) h
    · exact c.named c.length (Nat.le_refl _) (hname.symm.trans (by rw [h]; exact canon_empty))
  exact ⟨_, _, if_neg hnone, Dict.get_set_self _ _ _, Chain.canon_visited (by omega),
    c.canonical 0 (Nat.zero_le _)⟩

/-- The last node starts the consumer, caches the way back, and says READY. -/
theorem handle_open_last (now : Time) (ws : Sock) {j : Nat} (h : c.Stop peer (j + 1) r)
    (hj : j + 1 = c.length) (hname : c.Names a.dst) (haccepts : Accepts a r) :
    ∃ r' ws', r.handle now (a.opening c j) ws =
        { router := r', answered := some (ws', a.ready c j)
          act := some (.consume (a.opening c j)) } ∧
      (peer (c.node (j + 1)) ws').1 = c.node j ∧ SameWays r r' ∧ Accepts a r' ∧
      a.label ∈ r'.streams ∧ HasRoute c a r' := by
  have htouch := settled_touchSource r now (a.opening c j)
  have hstop := h.of_sameWays htouch.toSameWays
  have hlocal : (r.touchSource now (a.opening c j)).isRemote (a.opening c j) = false := by
    rw [hstop.isRemote hj.le (Nat.le_refl _) (p := a.opening c j) rfl hname]
    exact decide_eq_false (by omega)
  have haccepts' : Accepts a (r.touchSource now (a.opening c j)) := by
    unfold Accepts
    rw [htouch.services]
    exact haccepts
  unfold Router.handle
  generalize r.touchSource now (a.opening c j) = r₁ at htouch hstop hlocal haccepts'
  have hopen : r₁.onStreamOpen (a.opening c j) =
      ({ r₁ with streams := insert a.label r₁.streams },
        { type := .streamReady, source := a.dst, dst := some (c.id 0), label := a.label
          data := .ready },
        some (.consume (a.opening c j))) := by
    have hservice : (a.opening c j).service = some a.service := rfl
    have hmethod : (a.opening c j).method = some a.method := rfl
    have hdst : (a.opening c j).dst = some a.dst := rfl
    simp only [Router.onStreamOpen, hservice, hmethod, hdst, haccepts'.1, haccepts'.2, Bool.not_true,
      Bool.false_eq_true, if_false]
    rfl
  obtain ⟨routes, route, hcache, hget, hbackward, hsource⟩ := cacheStreamRouteOnOpen_along (a := a)
    { r₁ with streams := insert a.label r₁.streams } now hj hname
  have hways : SameWays r₁
      { r₁ with streams := insert a.label r₁.streams, streamRoutes := routes } :=
    ⟨rfl, rfl, rfl, fun _ => rfl, fun _ _ h => Or.inl h⟩
  obtain ⟨r', ws', hback, hpeer, hcached⟩ := (hstop.of_sameWays hways).back hj.le
    (p := a.ready c j) (Or.inr rfl)
  have htype : (a.opening c j).type = .streamOpen := rfl
  have hne : (a.opening c j).path ≠ [] := c.visited_ne_nil j
  have hready : { ({ type := .streamReady, source := a.dst, dst := some (c.id 0), label := a.label
                     data := .ready } : MsgPack Data) with path := (a.opening c j).path } =
      a.ready c j := rfl
  refine ⟨r', ws', ?_, hpeer, htouch.toSameWays.trans (hways.trans hcached.settled.toSameWays), ?_,
    ?_, ?_⟩
  · simp only [Router.dispatch, htype, hlocal, Bool.false_eq_true, if_false, hopen, hcache,
      Router.sendBack, hne, ne_eq, not_false_eq_true, if_true, hready, hback]
    rfl
  · unfold Accepts
    rw [hcached.settled.services]
    exact haccepts'
  · rw [hcached.same]
    exact Finset.mem_insert_self _ _
  · refine ⟨route, j, ?_, hj, hbackward, hsource⟩
    rw [hcached.same]
    exact hget

/-- A relay of the READY caches the route, and sends the pack back. -/
theorem handle_ready_between (now : Time) (ws : Sock) {i : Nat} (h : c.Stop peer (i + 1) r)
    (hi : i + 1 ≤ c.length) :
    ∃ r' ws', r.handle now (a.ready c (i + 1)) ws =
        { router := r', relayed := some (ws', a.ready c i) } ∧
      (peer (c.node (i + 1)) ws').1 = c.node i ∧ Settled r r' := by
  have hcache := (settled_touchSource r now (a.ready c (i + 1))).trans
    (settled_cacheStreamRouteOnReady _ now (a.ready c (i + 1)))
  obtain ⟨r', ws', hback, hpeer, hcached⟩ :=
    (h.of_sameWays hcache.toSameWays).back hi (p := a.ready c (i + 1)) (Or.inl rfl)
  have htype : (a.ready c (i + 1)).type = .streamReady := rfl
  have hne : (a.ready c (i + 1)).path ≠ [] := c.visited_ne_nil _
  refine ⟨r', ws', ?_, hpeer, hcache.trans hcached.settled⟩
  simp only [Router.handle, Router.dispatch, htype, hne, ne_eq, not_false_eq_true, if_true,
    Router.relayBack, hback]
  rfl

/-- At the producer the READY completes the handshake. -/
theorem handle_ready_home (now : Time) (ws : Sock) (h : c.Stop peer 0 r) :
    ∃ r₁, r.handle now (a.ready c 0) ws = { router := r₁.resolve a.label (.data .ready) } ∧
      Settled r r₁ := by
  have hcache := (settled_touchSource r now (a.ready c 0)).trans
    (settled_cacheStreamRouteOnReady _ now (a.ready c 0))
  have htype : (a.ready c 0).type = .streamReady := rfl
  have hne : (a.ready c 0).path ≠ [] := c.visited_ne_nil 0
  refine ⟨_, ?_, hcache⟩
  simp only [Router.handle, Router.dispatch, htype, hne, ne_eq, not_false_eq_true, if_true,
    Router.relayBack, (h.of_sameWays hcache.toSameWays).home (p := a.ready c 0) rfl]
  rfl

/-- A relay sends the ACK back. -/
theorem handle_ack_between (now : Time) (ws : Sock) (buff : Int) {i : Nat}
    (h : c.Stop peer (i + 1) r) (hi : i + 1 ≤ c.length) :
    ∃ r' ws', r.handle now (a.ack c buff (i + 1)) ws =
        { router := r', relayed := some (ws', a.ack c buff i) } ∧
      (peer (c.node (i + 1)) ws').1 = c.node i ∧ Settled r r' := by
  have htouch := settled_touchSource r now (a.ack c buff (i + 1))
  have hstop := h.of_sameWays htouch.toSameWays
  have htype : (a.ack c buff (i + 1)).type = .streamAck := rfl
  have hremote : (r.touchSource now (a.ack c buff (i + 1))).isRemote (a.ack c buff (i + 1)) = true := by
    rw [hstop.isRemote hi (Nat.zero_le _) (p := a.ack c buff (i + 1)) rfl
      (c.canonical 0 (Nat.zero_le _))]
    exact decide_eq_true (by omega)
  obtain ⟨r', ws', hback, hpeer, hcached⟩ := hstop.back hi (p := a.ack c buff (i + 1)) (Or.inl rfl)
  refine ⟨r', ws', ?_, hpeer, htouch.trans hcached.settled⟩
  simp only [Router.handle, Router.dispatch, htype, hremote, if_true, Router.relayBack, hback]
  rfl

/-- The ACK is for the producer itself. -/
theorem ack_local (buff : Int) {i : Nat} (h : c.Stop peer 0 r) :
    r.isRemote (a.ack c buff i) = false := by
  rw [h.isRemote (Nat.zero_le _) (Nat.zero_le _) (p := a.ack c buff i) rfl
    (c.canonical 0 (Nat.zero_le _))]
  rfl

/-- At the producer the ACK resolves the ack session. -/
theorem handle_ack_home (now : Time) (ws : Sock) (buff : Int) (h : c.Stop peer 0 r) :
    ∃ r₁, r.handle now (a.ack c buff 0) ws = { router := r₁.resolve ("ack_" ++ a.label) .ack } ∧
      Settled r r₁ := by
  have htouch := settled_touchSource r now (a.ack c buff 0)
  have hlocal := ack_local (a := a) (i := 0) buff (h.of_sameWays htouch.toSameWays)
  have htype : (a.ack c buff 0).type = .streamAck := rfl
  refine ⟨_, ?_, htouch⟩
  simp only [Router.handle, Router.dispatch, htype, hlocal, Bool.false_eq_true, if_false]
  rfl

/-- **The receiver acknowledges** while its route lives, and not afterwards. -/
theorem sendStreamAck_spec (now : Time) (buff : Int) {j : Nat} (h : c.Stop peer (j + 1) r)
    (hj : j + 1 = c.length) (hroute : HasRoute c a r) :
    ((r.streamRoutes.get a.label).any (fun route => !route.expired now) = true →
      ∃ r' ws, r.sendStreamAck now a.label buff = (r', some (ws, a.ack c buff j)) ∧
        (peer (c.node (j + 1)) ws).1 = c.node j ∧ SameWays r r' ∧ r'.services = r.services ∧
        r'.streams = r.streams ∧ HasRoute c a r') ∧
    ((r.streamRoutes.get a.label).any (fun route => !route.expired now) = false →
      (r.sendStreamAck now a.label buff).2 = none) := by
  obtain ⟨route, j', hget, hj', hback, hsource⟩ := hroute
  obtain rfl : j = j' := by omega
  rw [hget, Option.any_some]
  constructor
  · intro hlive
    have hexpired : route.expired now = false := by simpa using hlive
    obtain ⟨routes, hroutes⟩ : ∃ routes, routes =
        r.streamRoutes.set a.label { route with establishedAt := now } := ⟨_, rfl⟩
    have hfound : r.getStreamRoute now a.label =
        ({ r with streamRoutes := routes }, some { route with establishedAt := now }) := by
      simp only [Router.getStreamRoute, hget, hexpired, Bool.false_eq_true, if_false, hroutes]
    have hways : SameWays r { r with streamRoutes := routes } :=
      (settled_streams r routes fun _ hl => hl).toSameWays
    obtain ⟨r', ws, hsent, hpeer, hcached⟩ := (h.of_sameWays hways).back hj.le
      (p := a.ack c buff j) (Or.inr rfl)
    have hne : route.backwardPath ≠ [] := by
      rw [hback]
      exact c.visited_ne_nil j
    have hack : ({ type := .streamAck, source := r.NODE, dst := some route.source, label := a.label
                   data := .buff buff, path := route.backwardPath } : MsgPack Data) =
        a.ack c buff j := by
      rw [h.node, hj, hback, hsource]
      rfl
    refine ⟨r', ws, ?_, hpeer, hways.trans hcached.settled.toSameWays, hcached.settled.services, ?_,
      ?_⟩
    · simp only [Router.sendStreamAck, hfound, hne, ne_eq, not_false_eq_true, if_true]
      rw [hack, hsent]
      rfl
    · rw [hcached.same]
    · refine ⟨{ route with establishedAt := now }, j, ?_, hj, hback, hsource⟩
      rw [hcached.same, hroutes]
      exact Dict.get_set_self _ _ _
  · intro hdead
    have hexpired : route.expired now = true := by simpa using hdead
    simp only [Router.sendStreamAck, Router.getStreamRoute, hget, hexpired, if_true]

/-- The pump reaches the destination when it is the next node. -/
theorem sendPack_pumped_near (h : c.Stop peer 0 r) (hone : c.length = 1) (hname : c.Names a.dst)
    (source : String) (x : Pumped Data) :
    ∃ r' ws, r.sendPack (a.pumped source x) = (r', some (ws, a.pumped source x)) ∧
      (peer (c.node 0) ws).1 = c.node c.length ∧ Cached r r' := by
  have hnext : canon a.dst = c.id (0 + 1) := by
    rw [hname, Nat.zero_add, ← hone]
    rfl
  obtain ⟨r', ws, hsend, hpeer, hcached⟩ := (h.ahead c.pos).send hnext
  have hpath : (a.pumped source x).path = [] := by cases x <;> rfl
  have hdst : (a.pumped source x).dst = some a.dst := by cases x <;> rfl
  refine ⟨r', ws, ?_, by rw [hpeer, hone], hcached⟩
  simp only [Router.sendPack, hpath, ne_eq, not_true_eq_false, if_false, Router.sendDirect, hdst,
    Option.bind_some, hsend]

/-- Over a longer chain the pump reaches nobody. -/
theorem sendPack_pumped_far (h : c.Stop peer 0 r) (hfar : c.length ≠ 1) (hname : c.Names a.dst)
    (source : String) (x : Pumped Data) : (r.sendPack (a.pumped source x)).2 = none := by
  obtain ⟨hnode, hclient, hcache⟩ := h.far (by have := c.pos; omega)
  rw [← hname] at hnode hclient hcache
  have hsend : r.getTransportTo a.dst = none := by
    simp only [Router.getTransportTo, hnode, hclient, hcache]
  have hpath : (a.pumped source x).path = [] := by cases x <;> rfl
  have hdst : (a.pumped source x).dst = some a.dst := by cases x <;> rfl
  simp only [Router.sendPack, hpath, ne_eq, not_true_eq_false, if_false, Router.sendDirect, hdst,
    Option.bind_some, hsend]

/-- At the destination a pack of the pump reaches the registry. -/
theorem handle_pumped (now : Time) (ws : Sock) (h : c.Stop peer c.length r) (hname : c.Names a.dst)
    (source : String) (x : Pumped Data) (hopen : ∀ error, x = .failed error → a.label ∈ r.streams) :
    let handled := r.handle now (a.pumped source x) ws
    handled.registered = registryAct (a.pumped source x) ∧ handled.sends = [] ∧
      SameWays r handled.router ∧ handled.router.services = r.services ∧
      (x.isLast = false → handled.router.streams = r.streams ∧
        handled.router.streamRoutes = r.streamRoutes) ∧
      (x.isLast = true → a.label ∉ handled.router.streams) := by
  have hways := (settled_touchSource r now (a.pumped source x)).toSameWays
  have hstop := h.of_sameWays hways
  obtain ⟨table, htouch⟩ := r.exists_touchSource now (a.pumped source x)
  have hlocal : (r.touchSource now (a.pumped source x)).isRemote (a.pumped source x) = false := by
    have hdst : (a.pumped source x).dst = some a.dst := by cases x <;> rfl
    rw [hstop.isRemote (Nat.le_refl _) (Nat.le_refl _) hdst hname]
    exact decide_eq_false (by omega)
  unfold Router.handle
  rw [htouch] at hways hlocal ⊢
  have hways' : ∀ (streams : Finset String) routes,
      SameWays r { r with table, streams, streamRoutes := routes } := fun _ _ =>
    ⟨hways.node, hways.nodes, hways.clientWs, hways.nextHop, hways.cache⟩
  cases x with
  | chunk d =>
      have htype : (a.pumped source (.chunk d)).type = .streamChunk := rfl
      have hdispatch : Router.dispatch { r with table } now (a.pumped source (.chunk d)) ws =
          { router := { r with table }, act := some (.feed a.label d) } := by
        simp only [Router.dispatch, htype, hlocal, Bool.false_eq_true, if_false]
        rfl
      rw [hdispatch]
      exact ⟨rfl, rfl, hways, rfl, fun _ => ⟨rfl, rfl⟩, fun h => by cases h⟩
  | eof =>
      have htype : (a.pumped source .eof).type = .streamEof := rfl
      have hdispatch : Router.dispatch { r with table } now (a.pumped source .eof) ws =
          { router := { r with
              table
              streams := r.streams.erase a.label
              streamRoutes := r.streamRoutes.pop a.label }
            act := some (.close a.label) } := by
        simp only [Router.dispatch, htype, hlocal, Bool.false_eq_true, if_false]
        rfl
      rw [hdispatch]
      exact ⟨rfl, rfl, hways' _ _, rfl, fun h => (by cases h),
        fun _ => Finset.notMem_erase _ _⟩
  | failed error =>
      have htype : (a.pumped source (.failed error)).type = .error := rfl
      have hlabel : (a.pumped source (.failed error)).label ∈ r.streams := hopen error rfl
      have hdispatch : ∃ text, registryAct (a.pumped source (.failed error)) =
            some (.fail a.label text) ∧
          Router.dispatch { r with table } now (a.pumped source (.failed error)) ws =
            { router := { r with table, streams := r.streams.erase a.label }
              act := some (.fail a.label text) } := by
        refine ⟨_, rfl, ?_⟩
        simp only [Router.dispatch, htype, hlabel, if_true]
        rfl
      obtain ⟨text, hact, hdispatch⟩ := hdispatch
      rw [hdispatch, hact]
      exact ⟨rfl, rfl, hways' _ _, rfl, fun h => (by cases h),
        fun _ => Finset.notMem_erase _ _⟩

end Stops

/-! ## §3 The network around one stream -/

structure StreamNet (N Data : Type*) where
  routers : N → Router Data
  flight : List (Transit N Data)
  /-- the handshake of the producer is over -/
  ready : Bool
  /-- the producer has sent its EOF or its ERROR -/
  finished : Bool
  /-- the packs that the pump has sent -/
  pumped : List (MsgPack Data)
  /-- what has reached the stream registry of the consumer's node -/
  reached : List (Act Data)
  /-- the ACKs that the consumer has sent before the end of the stream -/
  acks : Nat
  /-- those that have reached the ack session -/
  acked : Nat

inductive StreamNetEvent (N Data : Type*) where
  /-- a pack in flight arrives and is handled -/
  | deliver (i : Nat) (now : Time)
  | pump (x : Pumped Data)
  /-- the consumer acknowledges -/
  | ack (now : Time) (buff : Int)
  /-- anything else that changes the routers -/
  | env (routers : N → Router Data)

variable [DecidableEq N]

/-- A stream from the node `producer` to the node `consumer`. -/
def streamNet (peer : N → Sock → N × Sock) (producer consumer : N) (a : CallArgs Data) :
    Machine (StreamNet N Data) (StreamNetEvent N Data) where
  step s
    | .deliver i now =>
        (s.flight[i]?).map fun f =>
          let r := s.routers f.node
          let h := r.handle now f.pack f.ws
          let home := f.node = producer ∧ h.relayed.isNone = true
          { s with
            routers := Function.update s.routers f.node h.router
            flight := s.flight.eraseIdx i ++ arrivals peer f.node h.sends
            ready := s.ready || decide (home ∧ f.pack.type = .streamReady)
            reached := s.reached ++ (if f.node = consumer then h.registered.toList else [])
            acked := s.acked + (if home ∧ f.pack.type = .streamAck then 1 else 0) }
    | .pump x =>
        if s.ready = true ∧ s.finished = false then
          let p := a.pumped (s.routers producer).NODE x
          let sent := (s.routers producer).sendPack p
          some
            { s with
              routers := Function.update s.routers producer sent.1
              flight := s.flight ++ arrivals peer producer sent.2.toList
              finished := x.isLast
              pumped := s.pumped ++ [p] }
        else none
    | .ack now buff =>
        if a.label ∈ (s.routers consumer).streams then
          let sent := (s.routers consumer).sendStreamAck now a.label buff
          some
            { s with
              routers := Function.update s.routers consumer sent.1
              flight := s.flight ++ arrivals peer consumer sent.2.toList
              acks := s.acks + 1 }
        else none
    | .env routers => some { s with routers }

/-- `_handshake_and_pump`, up to its `wait_for`. -/
def StreamNet.openStream (peer : N → Sock → N × Sock) (producer : N) (routers : N → Router Data)
    (a : CallArgs Data) : Option (StreamNet N Data) :=
  let r := routers producer
  let r' := { r with sessions := (r.sessions.registerSingle a.label a.service a.method).1 }
  let p : MsgPack Data :=
    { type := .streamOpen, source := r.NODE, dst := some a.dst, service := some a.service
      method := some a.method, label := a.label, data := a.data, path := [r.NODE], ttl := 16 }
  (r'.forward p).map fun sent =>
    { routers := Function.update routers producer sent.1
      flight := arrivals peer producer [sent.2]
      ready := false
      finished := false
      pumped := []
      reached := []
      acks := 0
      acked := 0 }

/-- **Nothing is lost**: what the pump has sent has reached the registry or is on its way, and so are
the ACKs to the ack session. -/
def StreamNet.Lossless (s : StreamNet N Data) : Prop :=
  (s.reached ++ s.flight.filterMap fun f => registryAct f.pack).Perm
      (s.pumped.filterMap registryAct) ∧
    s.acked + s.flight.countP (fun f => f.pack.type = .streamAck) = s.acks

/-! ## §4 The invariant -/

/-- The packs that end a stream. -/
def MsgPack.isEnd (p : MsgPack Data) : Bool := p.type = .streamEof || p.type = .error

/-- A pack of the stream, where it belongs. -/
inductive Placed (c : Chain N) (a : CallArgs Data) : Transit N Data → Prop where
  | opening (i : Nat) (ws : Sock) (hi : i < c.length) :
      Placed c a ⟨c.node (i + 1), ws, a.opening c i⟩
  | ready (i : Nat) (ws : Sock) (hi : i < c.length) : Placed c a ⟨c.node i, ws, a.ready c i⟩
  | ack (i : Nat) (ws : Sock) (buff : Int) (hi : i < c.length) :
      Placed c a ⟨c.node i, ws, a.ack c buff i⟩
  | pumped (ws : Sock) (x : Pumped Data) : Placed c a ⟨c.node c.length, ws, a.pumped (c.id 0) x⟩

/-- **The invariant of the stream.** -/
structure StreamNet.Ok (s : StreamNet N Data) (c : Chain N) (peer : N → Sock → N × Sock)
    (a : CallArgs Data) : Prop where
  chain : c.On peer s.routers
  accepts : Accepts a (s.routers (c.node c.length))
  route : a.label ∈ (s.routers (c.node c.length)).streams →
    HasRoute c a (s.routers (c.node c.length))
  placed : ∀ f ∈ s.flight, Placed c a f
  /-- the stream is open from the first READY to the end -/
  opened : (s.ready = true ∨ ∃ f ∈ s.flight, f.pack.type = .streamReady) → s.finished = false →
    a.label ∈ (s.routers (c.node c.length)).streams
  /-- the end of the stream is sent once -/
  ending : s.flight.countP (fun f => f.pack.isEnd) ≤ if s.finished = true then 1 else 0
  unended : ∀ f ∈ s.flight, f.pack.isEnd = true →
    a.label ∈ (s.routers (c.node c.length)).streams
  lossless : s.Lossless

/-- Other traffic leaves the chain and the stream alone. -/
def QuietStream (c : Chain N) (peer : N → Sock → N × Sock) (a : CallArgs Data)
    (s : StreamNet N Data) : StreamNetEvent N Data → Prop
  | .env routers =>
      let r := s.routers (c.node c.length)
      let r' := routers (c.node c.length)
      c.On peer routers ∧ Accepts a r' ∧ (a.label ∈ r'.streams ↔ a.label ∈ r.streams) ∧
        r'.streamRoutes.get a.label = r.streamRoutes.get a.label
  | _ => True

/-- **The condition**: the pump sends over one hop, and the consumer acknowledges while the route that
its node has cached is alive. -/
def Routed (c : Chain N) (a : CallArgs Data) (s : StreamNet N Data) : StreamNetEvent N Data → Prop
  | .pump _ => c.length = 1
  | .ack now _ =>
      ((s.routers (c.node c.length)).streamRoutes.get a.label).any
        (fun route => !route.expired now) = true
  | _ => True

instance (c : Chain N) (a : CallArgs Data) (s : StreamNet N Data) : DecidablePred (Routed c a s)
  | .deliver _ _ => isTrue trivial
  | .pump _ => inferInstanceAs (Decidable (c.length = 1))
  | .ack _ _ => inferInstanceAs (Decidable (_ = true))
  | .env _ => isTrue trivial

section Steps

variable {c : Chain N} {peer : N → Sock → N × Sock} {a : CallArgs Data} {s s' : StreamNet N Data}

omit [Canon] [DecidableEq N] in
theorem isEnd_pumped (source : String) (x : Pumped Data) :
    (a.pumped source x).isEnd = x.isLast := by
  cases x <;> rfl

omit [Canon] [DecidableEq N] in
/-- The pack that is delivered, before all others. -/
theorem flight_perm {flight : List (Transit N Data)} {i : Nat} {f : Transit N Data}
    (hf : flight[i]? = some f) : flight.Perm (f :: flight.eraseIdx i) := by
  conv_lhs => rw [flight_split hf]
  rw [List.eraseIdx_eq_take_drop_succ]
  exact List.perm_middle

omit [DecidableEq N] in
/-- A delivery loses nothing if the pack reaches the registry or the ack session, or is sent on. -/
theorem StreamNet.Lossless.deliver (h : s.Lossless) {i : Nat} {f : Transit N Data}
    (hf : s.flight[i]? = some f) {routers : N → Router Data} {new : List (Transit N Data)}
    {ready : Bool} {acts : List (Act Data)} {n : Nat}
    (hacts : acts ++ new.filterMap (fun f => registryAct f.pack) = (registryAct f.pack).toList)
    (hack : n + new.countP (fun f => f.pack.type = .streamAck) =
      if f.pack.type = .streamAck then 1 else 0) :
    StreamNet.Lossless { s with
      routers
      flight := s.flight.eraseIdx i ++ new
      ready
      reached := s.reached ++ acts
      acked := s.acked + n } := by
  have hperm := flight_perm hf
  obtain ⟨hreached, hacked⟩ := h
  refine ⟨?_, ?_⟩
  · refine List.Perm.trans ?_ hreached
    have hflight : (s.flight.filterMap fun f => registryAct f.pack).Perm
        ((registryAct f.pack).toList ++ (s.flight.eraseIdx i).filterMap fun f =>
          registryAct f.pack) := by
      refine (hperm.filterMap _).trans (List.Perm.of_eq ?_)
      cases hact : registryAct f.pack <;> simp [hact]
    refine List.Perm.trans ?_ (hflight.symm.append_left s.reached)
    rw [← hacts, List.filterMap_append, List.append_assoc, List.append_assoc]
    refine List.Perm.append_left _ (List.Perm.append_left _ ?_)
    exact List.perm_append_comm
  · have hcount := hperm.countP_eq (fun f => decide (f.pack.type = .streamAck))
    rw [List.countP_cons] at hcount
    dsimp only
    rw [List.countP_append]
    simp only [decide_eq_true_eq] at hcount
    omega

/-- **A delivery keeps the invariant**, whatever the handler did, as long as it loses nothing and the
receiver stays ready. -/
theorem StreamNet.Ok.deliver (h : s.Ok c peer a) {i : Nat} {f : Transit N Data}
    (hf : s.flight[i]? = some f) {r' : Router Data} {new : List (Transit N Data)} {ready : Bool}
    {acts : List (Act Data)} {n : Nat} (hways : SameWays (s.routers f.node) r')
    (hreceiver : f.node = c.node c.length →
      Accepts a r' ∧ (a.label ∈ r'.streams → HasRoute c a r') ∧
      (a.label ∈ (s.routers f.node).streams → f.pack.isEnd = false → a.label ∈ r'.streams))
    (hplaced : ∀ g ∈ new, Placed c a g ∧ g.pack.isEnd = false)
    (hopened : (ready = true ∨ ∃ g ∈ new, g.pack.type = .streamReady) →
      s.ready = true ∨ f.pack.type = .streamReady ∨
        f.node = c.node c.length ∧ a.label ∈ r'.streams)
    (hacts : acts ++ new.filterMap (fun f => registryAct f.pack) = (registryAct f.pack).toList)
    (hack : n + new.countP (fun f => f.pack.type = .streamAck) =
      if f.pack.type = .streamAck then 1 else 0) :
    StreamNet.Ok { s with
      routers := Function.update s.routers f.node r'
      flight := s.flight.eraseIdx i ++ new
      ready
      reached := s.reached ++ acts
      acked := s.acked + n } c peer a := by
  have hmem : f ∈ s.flight := List.mem_of_getElem? hf
  have hold : ∀ g ∈ s.flight.eraseIdx i, g ∈ s.flight := fun g hg => List.mem_of_mem_eraseIdx hg
  have hcount : s.flight.countP (fun f => f.pack.isEnd) =
      (s.flight.eraseIdx i).countP (fun f => f.pack.isEnd) +
        if f.pack.isEnd = true then 1 else 0 := by
    rw [(flight_perm hf).countP_eq, List.countP_cons]
  have hending := h.ending
  -- the label stays in the registry of the receiver, unless the end of the stream is delivered
  have hkeeps : a.label ∈ (s.routers (c.node c.length)).streams → f.pack.isEnd = false →
      a.label ∈ (Function.update s.routers f.node r' (c.node c.length)).streams := by
    intro hlabel hend
    by_cases heq : c.node c.length = f.node
    · rw [heq] at hlabel ⊢
      rw [Function.update_self]
      exact (hreceiver heq.symm).2.2 hlabel hend
    · rw [Function.update_of_ne heq]
      exact hlabel
  refine
    { chain := h.chain.update hways
      accepts := ?_
      route := ?_
      placed := ?_
      opened := ?_
      ending := ?_
      unended := ?_
      lossless := h.lossless.deliver hf hacts hack }
  · dsimp only
    by_cases heq : c.node c.length = f.node
    · rw [heq, Function.update_self]
      exact (hreceiver heq.symm).1
    · rw [Function.update_of_ne heq]
      exact h.accepts
  · dsimp only
    by_cases heq : c.node c.length = f.node
    · rw [heq, Function.update_self]
      exact (hreceiver heq.symm).2.1
    · rw [Function.update_of_ne heq]
      exact h.route
  · intro g hg
    rcases List.mem_append.mp hg with hg | hg
    · exact h.placed g (hold g hg)
    · exact (hplaced g hg).1
  · intro hready hfinished
    dsimp only at hready hfinished ⊢
    have hnoend : f.pack.isEnd = false := by
      rw [if_neg (by simp [hfinished]), hcount] at hending
      by_contra hend
      rw [if_pos (by simpa using hend)] at hending
      omega
    have hbefore : s.ready = true ∨ (∃ g ∈ s.flight, g.pack.type = .streamReady) ∨
        f.node = c.node c.length ∧ a.label ∈ r'.streams := by
      have hnew : (ready = true ∨ ∃ g ∈ new, g.pack.type = .streamReady) ∨
          ∃ g ∈ s.flight, g.pack.type = .streamReady := by
        rcases hready with hready | ⟨g, hg, htype⟩
        · exact Or.inl (Or.inl hready)
        · rcases List.mem_append.mp hg with hg | hg
          · exact Or.inr ⟨g, hold g hg, htype⟩
          · exact Or.inl (Or.inr ⟨g, hg, htype⟩)
      rcases hnew with hnew | hnew
      · rcases hopened hnew with hr | ht | hd
        · exact Or.inl hr
        · exact Or.inr (Or.inl ⟨f, hmem, ht⟩)
        · exact Or.inr (Or.inr hd)
      · exact Or.inr (Or.inl hnew)
    rcases hbefore with hr | hflight | ⟨heq, hlabel⟩
    · exact hkeeps (h.opened (Or.inl hr) hfinished) hnoend
    · exact hkeeps (h.opened (Or.inr hflight) hfinished) hnoend
    · rw [← heq, Function.update_self]
      exact hlabel
  · have hnone : new.countP (fun f => f.pack.isEnd) = 0 := by
      rw [List.countP_eq_zero]
      intro g hg
      simp [(hplaced g hg).2]
    dsimp only
    rw [List.countP_append, hnone]
    omega
  · intro g hg hend
    rcases List.mem_append.mp hg with hg | hg
    · refine hkeeps (h.unended g (hold g hg) hend) ?_
      have hpos : 0 < (s.flight.eraseIdx i).countP (fun f => f.pack.isEnd) :=
        List.countP_pos_iff.mpr ⟨g, hg, hend⟩
      have hone : s.flight.countP (fun f => f.pack.isEnd) ≤ 1 := by
        refine hending.trans ?_
        split <;> omega
      by_contra hboth
      rw [hcount, if_pos (by simpa using hboth)] at hone
      omega
    · rw [(hplaced g hg).2] at hend
      cases hend

/-- A relay between the ends: one pack of the stream comes, and one of the same kind goes. -/
theorem StreamNet.Ok.relay (h : s.Ok c peer a) {i j : Nat} {now : Time} {f : Transit N Data}
    (hf : s.flight[i]? = some f) (hnode : f.node = c.node j) (hj : j < c.length)
    {r' : Router Data} {ws : Sock} {p : MsgPack Data}
    (hhandle : (s.routers f.node).handle now f.pack f.ws = { router := r', relayed := some (ws, p) })
    (hsettled : Settled (s.routers f.node) r')
    (hplaced : Placed c a ⟨(peer f.node ws).1, (peer f.node ws).2, p⟩) (htype : p.type = f.pack.type)
    (hkind : p.isEnd = false ∧ p.type ≠ .streamChunk)
    (hstep : (streamNet peer (c.node 0) (c.node c.length) a).step s (.deliver i now) = some s') :
    s'.Ok c peer a := by
  have hne : ¬ f.node = c.node c.length := by
    rw [hnode]
    intro heq
    have := h.chain.inj hj.le (Nat.le_refl _) heq
    omega
  have hnone : registryAct p = none ∧ registryAct f.pack = none := by
    unfold registryAct
    rw [← htype]
    have hend := hkind.1
    have hchunk := hkind.2
    unfold MsgPack.isEnd at hend
    split <;> simp_all
  simp only [streamNet, hf, Option.map_some, Option.some.injEq, hhandle] at hstep
  subst hstep
  refine h.deliver hf hsettled.toSameWays (fun heq => absurd heq hne) ?_ ?_ ?_ ?_
  · intro g hg
    obtain rfl := List.mem_singleton.mp hg
    exact ⟨hplaced, hkind.1⟩
  · rintro (hready | ⟨g, hg, hg'⟩)
    · exact Or.inl (by simpa using hready)
    · obtain rfl := List.mem_singleton.mp hg
      exact Or.inr (Or.inl (htype.symm.trans hg'))
  · simp [arrivals, Router.Handled.sends, hne, hnone]
  · simp [arrivals, Router.Handled.sends, htype]

/-- **Step lemma for a delivery.** -/
theorem StreamNet.Ok.deliver_step (h : s.Ok c peer a) (hname : c.Names a.dst) {i : Nat} {now : Time}
    (hstep : (streamNet peer (c.node 0) (c.node c.length) a).step s (.deliver i now) = some s') :
    s'.Ok c peer a := by
  obtain ⟨f, hf, heq⟩ := Option.map_eq_some_iff.mp hstep
  have hzero : ¬ c.node 0 = c.node c.length := by
    intro heq
    have := h.chain.inj (Nat.zero_le _) (Nat.le_refl _) heq
    have := c.pos
    omega
  cases h.placed f (List.mem_of_getElem? hf) with
  | opening j ws hj =>
      have hstop := h.chain (j + 1) hj
      by_cases hlast : j + 1 = c.length
      · have haccepts : Accepts a (s.routers (c.node (j + 1))) := hlast ▸ h.accepts
        obtain ⟨r', ws', hhandle, hpeer, hways, haccepts', hlabel, hroute⟩ :=
          handle_open_last now ws hstop hlast hname haccepts
        have hnew : arrivals peer (c.node (j + 1)) (Router.Handled.sends
            { router := r', answered := some (ws', a.ready c j)
              act := some (.consume (a.opening c j)) }) =
            [⟨c.node j, (peer (c.node (j + 1)) ws').2, a.ready c j⟩] := by
          simp [arrivals, Router.Handled.sends, hpeer]
        dsimp only at heq
        rw [hhandle, hnew] at heq
        subst heq
        refine h.deliver hf hways (fun _ => ⟨haccepts', fun _ => hroute, fun _ _ => hlabel⟩) ?_ ?_ ?_ ?_
        · intro g hg
          obtain rfl := List.mem_singleton.mp hg
          exact ⟨.ready j _ hj, rfl⟩
        · exact fun _ => Or.inr (Or.inr ⟨by rw [hlast], hlabel⟩)
        · simp [Router.Handled.registered, registryAct, CallArgs.ready, CallArgs.opening,
            CallArgs.pack]
        · simp [CallArgs.ready, CallArgs.opening, CallArgs.pack]
      · have hj' : j + 1 < c.length := by omega
        obtain ⟨r', ws', hhandle, hpeer, hsettled⟩ := handle_open_between now ws hstop hj' hname
        refine h.relay hf rfl hj' hhandle hsettled ?_ rfl ⟨rfl, fun h => by cases h⟩ hstep
        dsimp only
        rw [hpeer]
        exact .opening (j + 1) _ hj'
  | ready j ws hj =>
      cases j with
      | zero =>
          obtain ⟨r₁, hhandle, hsettled⟩ :=
            handle_ready_home (a := a) now ws (h.chain 0 (Nat.zero_le _))
          dsimp only at heq
          rw [hhandle] at heq
          subst heq
          refine h.deliver hf (hsettled.toSameWays.trans (sameWays_sessions r₁ _))
            (fun heq => absurd heq hzero) (by simp [arrivals, Router.Handled.sends])
            (fun _ => Or.inr (Or.inl rfl)) ?_ ?_
          · simp [arrivals, Router.Handled.sends, Router.Handled.registered, registryAct,
              CallArgs.ready]
          · simp [arrivals, Router.Handled.sends, CallArgs.ready]
      | succ j =>
          obtain ⟨r', ws', hhandle, hpeer, hsettled⟩ :=
            handle_ready_between (a := a) now ws (h.chain (j + 1) hj.le) hj.le
          refine h.relay hf rfl hj hhandle hsettled ?_ rfl ⟨rfl, fun h => by cases h⟩ hstep
          dsimp only
          rw [hpeer]
          exact .ready j _ (by omega)
  | ack j ws buff hj =>
      cases j with
      | zero =>
          obtain ⟨r₁, hhandle, hsettled⟩ :=
            handle_ack_home (a := a) now ws buff (h.chain 0 (Nat.zero_le _))
          dsimp only at heq
          rw [hhandle] at heq
          subst heq
          refine h.deliver hf (hsettled.toSameWays.trans (sameWays_sessions r₁ _))
            (fun heq => absurd heq hzero) (by simp [arrivals, Router.Handled.sends]) ?_ ?_ ?_
          · rintro (hready | ⟨g, hg, _⟩)
            · exact Or.inl (by simpa [CallArgs.ack] using hready)
            · simp [arrivals, Router.Handled.sends] at hg
          · simp [arrivals, Router.Handled.sends, Router.Handled.registered, registryAct,
              CallArgs.ack]
          · simp [arrivals, Router.Handled.sends, CallArgs.ack]
      | succ j =>
          obtain ⟨r', ws', hhandle, hpeer, hsettled⟩ :=
            handle_ack_between (a := a) now ws buff (h.chain (j + 1) hj.le) hj.le
          refine h.relay hf rfl hj hhandle hsettled ?_ rfl ⟨rfl, fun h => by cases h⟩ hstep
          dsimp only
          rw [hpeer]
          exact .ack j _ buff (by omega)
  | pumped ws x =>
      have hopen : ∀ error, x = .failed error →
          a.label ∈ (s.routers (c.node c.length)).streams := by
        rintro error rfl
        exact h.unended _ (List.mem_of_getElem? hf) rfl
      obtain ⟨hregistered, hsends, hways, hservices, hchunk, hlast⟩ := handle_pumped now ws
        (h.chain c.length (Nat.le_refl _)) hname (c.id 0) x hopen
      subst heq
      have hnoack : (a.pumped (c.id 0) x).type ≠ .streamAck ∧
          (a.pumped (c.id 0) x).type ≠ .streamReady := by
        cases x <;> exact ⟨fun h => (by cases h), fun h => (by cases h)⟩
      simp only [hregistered, hsends, hnoack, arrivals, List.map_nil]
      refine h.deliver hf hways (fun _ => ⟨?_, ?_, ?_⟩) (by simp) ?_ ?_ ?_
      · unfold Accepts
        rw [hservices]
        exact h.accepts
      · intro hlabel
        cases hx : x.isLast with
        | true => exact absurd hlabel (hlast hx)
        | false =>
            obtain ⟨hstreams, hroutes⟩ := hchunk hx
            unfold HasRoute
            rw [hroutes]
            exact h.route (hstreams ▸ hlabel)
      · intro hlabel hend
        rw [isEnd_pumped] at hend
        rw [(hchunk hend).1]
        exact hlabel
      · rintro (hready | ⟨g, hg, _⟩)
        · exact Or.inl (by simpa using hready)
        · cases hg
      · simp
      · simp [hnoack]

omit [DecidableEq N] in
/-- The endpoints are different nodes. -/
theorem StreamNet.Ok.apart (h : s.Ok c peer a) : c.node c.length ≠ c.node 0 := by
  intro heq
  have := h.chain.inj (Nat.le_refl _) (Nat.zero_le _) heq
  have := c.pos
  omega

/-- **The pump sends**: over one hop the pack is on its way, over more it is gone. -/
theorem StreamNet.Ok.pump_step (h : s.Ok c peer a) (hname : c.Names a.dst) {x : Pumped Data}
    (hstep : (streamNet peer (c.node 0) (c.node c.length) a).step s (.pump x) = some s') :
    (c.length = 1 → s'.Ok c peer a) ∧ (c.length ≠ 1 → ¬ s'.Lossless) := by
  have hstop := h.chain 0 (Nat.zero_le _)
  have hact : (registryAct (a.pumped (c.id 0) x)).isSome := by cases x <;> rfl
  obtain ⟨act, hact⟩ := Option.isSome_iff_exists.mp hact
  simp only [streamNet, hstop.node] at hstep
  split at hstep
  · rename_i hgo
    obtain ⟨hready, hfinished⟩ := hgo
    cases hstep
    constructor
    · intro hone
      obtain ⟨r', ws, hsend, hpeer, hcached⟩ := sendPack_pumped_near hstop hone hname (c.id 0) x
      have hlabel := h.opened (Or.inl hready) hfinished
      have hending := h.ending
      rw [if_neg (by simp [hfinished])] at hending
      rw [hsend]
      simp only [Option.toList_some, arrivals, List.map_singleton, hpeer]
      refine
        { chain := h.chain.update hcached.settled.toSameWays
          accepts := ?_
          route := ?_
          placed := ?_
          opened := ?_
          ending := ?_
          unended := ?_
          lossless := ?_ }
      · simpa only [Function.update_of_ne h.apart] using h.accepts
      · simpa only [Function.update_of_ne h.apart] using h.route
      · intro f hf
        rcases List.mem_append.mp hf with hf | hf
        · exact h.placed f hf
        · obtain rfl := List.mem_singleton.mp hf
          exact .pumped _ x
      · intro _ _
        simpa only [Function.update_of_ne h.apart] using hlabel
      · dsimp only
        rw [List.countP_append, List.countP_singleton, isEnd_pumped]
        omega
      · intro f _ _
        simpa only [Function.update_of_ne h.apart] using hlabel
      · obtain ⟨hreached, hacked⟩ := h.lossless
        refine ⟨?_, ?_⟩
        · simp only [List.filterMap_append, List.filterMap_cons, hact, List.filterMap_nil]
          rw [← List.append_assoc]
          exact hreached.append_right _
        · dsimp only
          have hnoack : (a.pumped (c.id 0) x).type ≠ .streamAck := by
            cases x <;> exact fun h => (by cases h)
          rw [List.countP_append, List.countP_singleton]
          simp only [hnoack, decide_false, Bool.false_eq_true, if_false]
          exact hacked
    · rintro hfar ⟨hreached, _⟩
      have hlost := sendPack_pumped_far hstop hfar hname (c.id 0) x
      have hbefore := h.lossless.1.length_eq
      have hafter := hreached.length_eq
      rw [hlost] at hafter
      simp only [Option.toList_none, arrivals, List.map_nil, List.append_nil,
        List.filterMap_append, List.filterMap_cons, hact, List.filterMap_nil,
        List.length_append, List.length_singleton] at hbefore hafter
      omega
  · cases hstep

/-- **The consumer acknowledges**: while the route lives the ACK is on its way. -/
theorem StreamNet.Ok.ack_step (h : s.Ok c peer a) {now : Time} {buff : Int}
    (hstep : (streamNet peer (c.node 0) (c.node c.length) a).step s (.ack now buff) = some s') :
    (Routed c a s (.ack now buff) → s'.Ok c peer a) ∧
      (¬ Routed c a s (.ack now buff) → ¬ s'.Lossless) := by
  obtain ⟨j, hj⟩ : ∃ j, j + 1 = c.length := ⟨c.length - 1, by have := c.pos; omega⟩
  have hstop : c.Stop peer (j + 1) (s.routers (c.node c.length)) := by
    rw [hj]
    exact h.chain c.length (Nat.le_refl _)
  simp only [streamNet] at hstep
  split at hstep
  · rename_i hlabel
    cases hstep
    have hroute := h.route hlabel
    obtain ⟨hlive, hdead⟩ := sendStreamAck_spec now buff hstop hj hroute
    constructor
    · intro hrouted
      obtain ⟨r', ws, hsend, hpeer, hways, hservices, hstreams, hroute'⟩ := hlive hrouted
      rw [hj] at hpeer
      rw [hsend]
      simp only [Option.toList_some, arrivals, List.map_singleton, hpeer]
      refine
        { chain := h.chain.update hways
          accepts := ?_
          route := ?_
          placed := ?_
          opened := ?_
          ending := ?_
          unended := ?_
          lossless := ?_ }
      · simp only [Function.update_self]
        unfold Accepts
        rw [hservices]
        exact h.accepts
      · simp only [Function.update_self]
        exact fun _ => hroute'
      · intro f hf
        rcases List.mem_append.mp hf with hf | hf
        · exact h.placed f hf
        · obtain rfl := List.mem_singleton.mp hf
          exact .ack j _ buff (by omega)
      · intro _ _
        simp only [Function.update_self, hstreams]
        exact hlabel
      · dsimp only
        rw [List.countP_append]
        exact h.ending
      · intro f _ _
        simp only [Function.update_self, hstreams]
        exact hlabel
      · obtain ⟨hreached, hacked⟩ := h.lossless
        refine ⟨?_, ?_⟩
        · simp only [List.filterMap_append]
          simpa [registryAct, CallArgs.ack] using hreached
        · dsimp only
          rw [List.countP_append, List.countP_singleton]
          simp only [CallArgs.ack, decide_true, if_true]
          omega
    · rintro hexpired ⟨_, hacked⟩
      have hlost := hdead (by simpa [Routed] using hexpired)
      have hbefore := h.lossless.2
      rw [hlost] at hacked
      simp only [Option.toList_none, arrivals, List.map_nil, List.append_nil] at hacked
      omega
  · cases hstep

omit [DecidableEq N] in
theorem StreamNet.Ok.env (h : s.Ok c peer a) {routers : N → Router Data}
    (hquiet : QuietStream c peer a s (.env routers)) :
    StreamNet.Ok { s with routers } c peer a := by
  obtain ⟨hchain, haccepts, hstreams, hroutes⟩ := hquiet
  refine
    { chain := hchain
      accepts := haccepts
      route := ?_
      placed := h.placed
      opened := fun hready hfinished => hstreams.mpr (h.opened hready hfinished)
      ending := h.ending
      unended := fun f hf hend => hstreams.mpr (h.unended f hf hend)
      lossless := h.lossless }
  intro hlabel
  unfold HasRoute
  rw [hroutes]
  exact h.route (hstreams.mp hlabel)

end Steps

/-! ## §5 When nothing is lost -/

/-- The producer opens the stream. -/
theorem openStream_ok {c : Chain N} {peer : N → Sock → N × Sock} {routers : N → Router Data}
    {a : CallArgs Data} (hchain : c.On peer routers) (hname : c.Names a.dst)
    (haccepts : Accepts a (routers (c.node c.length)))
    (hfresh : a.label ∉ (routers (c.node c.length)).streams) :
    ∃ s, StreamNet.openStream peer (c.node 0) routers a = some s ∧ s.Ok c peer a := by
  have hstop := hchain 0 (Nat.zero_le _)
  have hways := sameWays_sessions (routers (c.node 0))
    ((routers (c.node 0)).sessions.registerSingle a.label a.service a.method).1
  obtain ⟨r', ws, hforward, hpeer, hcached⟩ := forward_open (hstop.of_sameWays hways) hname
  have hpack : ({ type := .streamOpen, source := (routers (c.node 0)).NODE, dst := some a.dst
                  service := some a.service, method := some a.method, label := a.label
                  data := a.data, path := [(routers (c.node 0)).NODE], ttl := 16 } : MsgPack Data) =
      a.pack c .streamOpen (c.visited 0) DEFAULT_TTL := by
    rw [hstop.node]
    rfl
  have hapart : c.node c.length ≠ c.node 0 := by
    intro heq
    have := hchain.inj (Nat.le_refl _) (Nat.zero_le _) heq
    have := c.pos
    omega
  have hupdate : Function.update routers (c.node 0) r' (c.node c.length) =
      routers (c.node c.length) := Function.update_of_ne hapart _ _
  unfold StreamNet.openStream
  dsimp only
  rw [hpack, hforward]
  refine ⟨_, rfl, ?_⟩
  exact
    { chain := hchain.update (hways.trans hcached.settled.toSameWays)
      accepts := by
        dsimp only
        rw [hupdate]
        exact haccepts
      route := by
        dsimp only
        rw [hupdate]
        exact fun hlabel => absurd hlabel hfresh
      placed := by
        intro f hf
        obtain rfl := List.mem_singleton.mp hf
        dsimp only
        rw [hpeer]
        exact .opening 0 _ c.pos
      opened := by
        rintro (hready | ⟨f, hf, htype⟩)
        · cases hready
        · obtain rfl := List.mem_singleton.mp hf
          cases htype
      ending := Nat.zero_le _
      unended := by
        intro f hf hend
        obtain rfl := List.mem_singleton.mp hf
        cases hend
      lossless := ⟨List.Perm.refl _, rfl⟩ }

/-- **When the packs of a stream arrive.** On a chain, along every run of a stream and with whatever
other traffic, no pack of the pump and no ACK is lost exactly when the pump sends over one hop only,
and each ACK is sent while the route of its sender is alive. -/
theorem stream_lossless_iff (c : Chain N) (peer : N → Sock → N × Sock) {routers : N → Router Data}
    {a : CallArgs Data} (hchain : c.On peer routers) (hname : c.Names a.dst)
    (haccepts : Accepts a (routers (c.node c.length)))
    (hfresh : a.label ∉ (routers (c.node c.length)).streams) :
    ∃ s, StreamNet.openStream peer (c.node 0) routers a = some s ∧
      ∀ es t, (streamNet peer (c.node 0) (c.node c.length) a).Guarded (QuietStream c peer a) s es →
        (streamNet peer (c.node 0) (c.node c.length) a).run s es = some t →
        ((streamNet peer (c.node 0) (c.node c.length) a).Always StreamNet.Lossless s es ↔
          (streamNet peer (c.node 0) (c.node c.length) a).Guarded (Routed c a) s es) := by
  obtain ⟨s, hopen, hok⟩ := openStream_ok hchain hname haccepts hfresh
  refine ⟨s, hopen, fun es t hquiet hrun => ?_⟩
  have hlossless : ∀ s : StreamNet N Data, s.Ok c peer a → s.Lossless := fun _ h => h.lossless
  refine Machine.always_iff_guarded_of_env hlossless ?_ ?_ hok hquiet hrun
  · intro s e s' h hq hrouted hstep
    cases e with
    | deliver i now => exact h.deliver_step hname hstep
    | pump x => exact (h.pump_step hname hstep).1 hrouted
    | ack now buff => exact (h.ack_step hstep).1 hrouted
    | env routers =>
        cases hstep
        exact h.env hq
  · intro s e s' h hq hrouted hstep
    cases e with
    | deliver i now => exact absurd trivial hrouted
    | pump x => exact (h.pump_step hname hstep).2 hrouted
    | ack now buff => exact (h.ack_step hstep).2 hrouted
    | env routers => exact absurd trivial hrouted

end StreamRouting

/-! ## §6 One hop and two -/

section Concrete

attribute [local instance] asciiCanon

/-- A stream from `a` to its neighbour. -/
def pairCall : CallArgs Nat := ⟨"l", "b", "files", "file_in", .null⟩

def pairStart : StreamNet Nat Nat :=
  (StreamNet.openStream rowPeer 0 rowRouter pairCall).get (by decide)

/-- The handshake, an ACK for the first window, a chunk, and the end. -/
def pairEvents : List (StreamNetEvent Nat Nat) :=
  [.deliver 0 0, .deliver 0 0, .ack 5 1, .pump (.chunk (.value 7)), .deliver 0 5, .deliver 0 5,
    .pump .eof, .deliver 0 6]

/-- Over one hop everything arrives. -/
theorem pair_lossless :
    (streamNet rowPeer 0 1 pairCall).Always StreamNet.Lossless pairStart pairEvents := by
  obtain ⟨s, hopen, hiff⟩ := stream_lossless_iff pair rowPeer (a := pairCall) pair_on (by decide)
    ⟨rfl, rfl⟩ (by decide)
  obtain rfl : pairStart = s := Option.get_of_mem _ hopen
  obtain ⟨t, hrun⟩ := Option.isSome_iff_exists.mp
    (show ((streamNet rowPeer 0 1 pairCall).run pairStart pairEvents).isSome by
      decide +kernel)
  refine (hiff pairEvents t ?_ hrun).mpr (by decide +kernel)
  refine Machine.guarded_of_mem ?_ _
  intro e he u
  rcases e with _ | _ | _ | routers
  · trivial
  · trivial
  · trivial
  · simp [pairEvents] at he

/-- A stream from `a` to `d`, over `b`. -/
def rowStream : CallArgs Nat := ⟨"l", "d", "files", "file_in", .null⟩

def rowStart : StreamNet Nat Nat :=
  (StreamNet.openStream rowPeer 0 rowRouter rowStream).get (by decide)

/-- The handshake, and one chunk. -/
def rowStreamEvents : List (StreamNetEvent Nat Nat) :=
  [.deliver 0 0, .deliver 0 0, .deliver 0 0, .deliver 0 0, .pump (.chunk (.value 7))]

/-- **Over two hops the first chunk is lost**, by its sender. -/
theorem pumped_over_two_hops_lost :
    row.On rowPeer rowRouter ∧ row.Names rowStream.dst ∧
    ∃ s t, StreamNet.openStream rowPeer 0 rowRouter rowStream = some s ∧
      (streamNet rowPeer 0 2 rowStream).run s rowStreamEvents = some t ∧
      t.ready = true ∧ t.flight.length = 0 ∧ t.reached.length = 0 ∧ ¬ t.Lossless := by
  refine ⟨row_on, by decide, rowStart, ?_⟩
  obtain ⟨t, hrun⟩ := Option.isSome_iff_exists.mp
    (show ((streamNet rowPeer 0 2 rowStream).run rowStart rowStreamEvents).isSome by decide)
  have hend : ((streamNet rowPeer 0 2 rowStream).run rowStart rowStreamEvents).map
      (fun t => (t.ready, t.flight.length, t.reached.length,
        (t.pumped.filterMap registryAct).length)) = some (true, 0, 0, 1) := by decide
  rw [hrun, Option.map_some, Option.some.injEq] at hend
  simp only [Prod.mk.injEq] at hend
  obtain ⟨hready, hflight, hreached, hpumped⟩ := hend
  refine ⟨t, (Option.some_get _).symm, hrun, hready, hflight, hreached, ?_⟩
  rintro ⟨hperm, _⟩
  have hlength := hperm.length_eq
  rw [List.length_eq_zero_iff.mp hflight, List.length_eq_zero_iff.mp hreached, hpumped] at hlength
  cases hlength

end Concrete

end NetPulse.Mesh
