import NetPulse.Lib.Machine
import NetPulse.Mesh.Router

/-
# NetPulse.Mesh.TransportCache — transports over connects, reconnects and disconnects

A transport is cached at the first send to a node, and the cache is emptied for a node whenever its
socket changes. `websocket_endpoint` does so for a reconnect only after it has closed the old
socket, and that is an await: until then the cache has the old socket, and sends go to it.

`cache_coherent` says when the cache is right: if nothing is cached for a node that connects again
while its old socket is registered. That nothing new is removed needs two things more: that nothing
is looked up before the late invalidation, and that a connector ends with its own socket.
-/

namespace NetPulse.Mesh

open NetPulse.Lib Router

namespace Transports

section Transports

variable [Canon] (Data : Type*)

/-! ## §1 Steps -/

/-- The router, and the connections that wait for the old socket of their node to be closed. -/
structure State where
  router : Router Data
  closing : Sock → Option String

variable {Data}

inductive Event where
  /-- A HELLO on a websocket is accepted. -/
  | connect (nodeId : String) (ws : Sock)
  /-- `await old_node.ws.close()` is over. -/
  | closed (ws : Sock)
  /-- The `finally` of `websocket_endpoint`. -/
  | disconnect (nodeId : String) (ws : Sock)
  /-- A connector registers its socket. -/
  | dial (nodeId : String) (ws : Sock)
  /-- The `finally` of a connector, with the socket that it had. -/
  | hangup (nodeId : String) (ws : Option Sock)
  /-- Any use of `get_transport_to`. -/
  | send (nodeId : String)

/-- `get_transport_to`, when only the cache is looked at afterwards. -/
def lookUp (r : Router Data) (nodeId : String) : Router Data :=
  (r.getTransportTo nodeId).elim r Prod.fst

def step (s : State Data) : Event → Option (State Data)
  | .connect nodeId ws =>
      match s.closing ws, s.router.nodes.get (canon nodeId) with
      | none, some _ =>
          some
            { router := s.router.registerNode nodeId ws
              closing := Function.update s.closing ws (some nodeId) }
      | none, none =>
          some { s with router := (s.router.registerNode nodeId ws).invalidateTransport nodeId }
      | some _, _ => none
  | .closed ws =>
      match s.closing ws with
      | some nodeId =>
          some
            { router := s.router.invalidateTransport nodeId
              closing := Function.update s.closing ws none }
      | none => none
  | .disconnect nodeId ws =>
      match s.closing ws with
      | some _ => none
      | none =>
          -- Only if this is the active socket of the node.
          some (if s.router.nodes.get (canon nodeId) = some ws then
              { s with router := (s.router.removeNode nodeId).invalidateTransport nodeId }
            else s)
  | .dial nodeId ws => some { s with router := s.router.registerClientWs nodeId ws }
  | .hangup nodeId _ => some { s with router := lookUp (s.router.unregisterClientWs nodeId) nodeId }
  | .send nodeId => some { s with router := lookUp s.router nodeId }

def machine : Machine (State Data) Event := ⟨step⟩

/-- A node that has met nobody. -/
def start (NODE localAlias : String) (services : Services) : State Data :=
  ⟨Router.init NODE localAlias services, fun _ => none⟩

/-! ## §2 Coherence -/

/-- The socket, or the client connection, that is registered for a node. -/
def Registered (r : Router Data) (name : String) (ws : Sock) : Prop :=
  r.nodes.get name = some ws ∨ r.clientWs.get name = some ws

structure Coherent (s : State Data) : Prop where
  cached : ∀ name ws, s.router.transportCache.get name = some ws → Registered s.router name ws
  /-- A send goes to a socket that is registered. -/
  sends : ∀ nodeId r ws, s.router.getTransportTo nodeId = some (r, ws) →
    Registered s.router (canon nodeId) ws

/-- What was registered or cached, but for the socket that has ended, still is. -/
def KeepsOthers (ended : Option Sock) (r r' : Router Data) : Prop :=
  ∀ name ws, some ws ≠ ended →
    (r.nodes.get name = some ws → r'.nodes.get name = some ws) ∧
    (r.clientWs.get name = some ws → r'.clientWs.get name = some ws) ∧
    (r.transportCache.get name = some ws → r'.transportCache.get name = some ws)

/-- An invalidation does not remove the new socket. -/
def NewKept (s : State Data) (e : Event) (s' : State Data) : Prop :=
  match e with
  | .closed _ => KeepsOthers none s.router s'.router
  | .disconnect _ ws => KeepsOthers (some ws) s.router s'.router
  | .hangup _ ws => KeepsOthers ws s.router s'.router
  | .connect _ _ | .dial _ _ | .send _ => True

/-- Nothing is cached for a node whose socket is replaced, up to the invalidation; a connector ends
with its own socket, if with any. -/
def Fresh (s : State Data) : Event → Prop
  | .connect nodeId _ => s.router.nodes.get (canon nodeId) ≠ none →
      s.router.transportCache.get (canon nodeId) = none
  | .closed ws => ∀ nodeId, s.closing ws = some nodeId →
      s.router.transportCache.get (canon nodeId) = none
  | .hangup nodeId ws => ∀ ws', s.router.clientWs.get (canon nodeId) = some ws' → ws = some ws'
  | .disconnect _ _ | .dial _ _ | .send _ => True

/-- What is cached is what would be looked up: the server side first. -/
def Strict (r : Router Data) : Prop :=
  ∀ name ws, r.transportCache.get name = some ws → r.nodes.get name = some ws ∨
    r.nodes.get name = none ∧ r.clientWs.get name = some ws

theorem Strict.registered {r : Router Data} (h : Strict r) {name : String} {ws : Sock}
    (hcache : r.transportCache.get name = some ws) : Registered r name ws :=
  (h name ws hcache).imp id And.right

theorem Strict.coherent {s : State Data} (h : Strict s.router) : Coherent s := by
  refine ⟨fun name ws hcache => h.registered hcache, fun nodeId r ws hget => ?_⟩
  unfold Router.getTransportTo at hget
  split at hget
  · rename_i hcache
    cases hget
    exact h.registered hcache
  · split at hget
    · rename_i hnode
      cases hget
      exact Or.inl hnode
    · split at hget
      · rename_i hclient
        cases hget
        exact Or.inr hclient
      · exact absurd hget.symm (Option.some_ne_none _)

/-! ## §3 What each operation keeps -/

section Operations

variable {r : Router Data}

theorem lookUp_nodes (r : Router Data) (nodeId : String) : (lookUp r nodeId).nodes = r.nodes := by
  unfold lookUp Router.getTransportTo
  split
  · rfl
  · split
    · rfl
    · split <;> rfl

theorem lookUp_clientWs (r : Router Data) (nodeId : String) :
    (lookUp r nodeId).clientWs = r.clientWs := by
  unfold lookUp Router.getTransportTo
  split
  · rfl
  · split
    · rfl
    · split <;> rfl

/-- What is cached after a look-up. -/
theorem lookUp_cache (r : Router Data) (nodeId name : String) :
    (lookUp r nodeId).transportCache.get name =
      if name = canon nodeId then
        ((r.transportCache.get name).or (r.nodes.get name)).or (r.clientWs.get name)
      else r.transportCache.get name := by
  by_cases hname : name = canon nodeId
  · subst hname
    rw [if_pos rfl]
    unfold lookUp Router.getTransportTo
    split
    · rename_i ws hcache
      show r.transportCache.get (canon nodeId) = _
      rw [hcache]
      rfl
    · rename_i hcache
      split
      · rename_i ws hnode
        show (r.transportCache.set (canon nodeId) ws).get (canon nodeId) = _
        rw [Dict.get_set_self, hcache, hnode]
        rfl
      · rename_i hnode
        split
        · rename_i ws hclient
          show (r.transportCache.set (canon nodeId) ws).get (canon nodeId) = _
          rw [Dict.get_set_self, hcache, hnode, hclient]
          rfl
        · rename_i hclient
          show r.transportCache.get (canon nodeId) = _
          rw [hcache, hnode, hclient]
          rfl
  · rw [if_neg hname]
    unfold lookUp Router.getTransportTo
    split
    · rfl
    · split
      · exact Dict.get_set_of_ne _ _ hname
      · split
        · exact Dict.get_set_of_ne _ _ hname
        · rfl

theorem Strict.lookUp (h : Strict r) (nodeId : String) : Strict (lookUp r nodeId) := by
  intro name ws hcache
  rw [lookUp_nodes, lookUp_clientWs]
  rw [lookUp_cache] at hcache
  split at hcache
  · rcases Option.or_eq_some_iff.mp hcache with hcache | ⟨hnone, hclient⟩
    · rcases Option.or_eq_some_iff.mp hcache with hcache | ⟨-, hnode⟩
      · exact h name ws hcache
      · exact Or.inl hnode
    · exact Or.inr ⟨(Option.or_eq_none_iff.mp hnone).2, hclient⟩
  · exact h name ws hcache

/-- What is cached stays cached. -/
theorem lookUp_keeps (nodeId : String) {name : String} {ws : Sock}
    (h : r.transportCache.get name = some ws) :
    (lookUp r nodeId).transportCache.get name = some ws := by
  rw [lookUp_cache, h]
  split <;> rfl

/-- A registration of the server side: nothing is cached for the node. -/
theorem Strict.registerNode (h : Strict r) {nodeId : String} (ws : Sock)
    (hnone : r.transportCache.get (canon nodeId) = none) : Strict (r.registerNode nodeId ws) := by
  intro name ws' hcache
  have hcache' : r.transportCache.get name = some ws' := hcache
  have hne : name ≠ canon nodeId := by
    rintro rfl
    exact Option.some_ne_none _ (hcache'.symm.trans hnone)
  show (r.nodes.set (canon nodeId) ws).get name = some ws' ∨ _
  rw [Dict.get_set_of_ne _ _ hne]
  show _ ∨ (r.nodes.set (canon nodeId) ws).get name = none ∧ _
  rw [Dict.get_set_of_ne _ _ hne]
  exact h name ws' hcache'

/-- After a change of what is registered for one node, and its invalidation. -/
theorem Strict.invalidated (h : Strict r) {r' : Router Data} {nodeId : String}
    (hcache : r'.transportCache = r.transportCache.pop (canon nodeId))
    (hother : ∀ name, name ≠ canon nodeId →
      r'.nodes.get name = r.nodes.get name ∧ r'.clientWs.get name = r.clientWs.get name) :
    Strict r' := by
  intro name ws hget
  rw [hcache, Dict.get_pop] at hget
  split at hget
  · exact absurd hget.symm (Option.some_ne_none _)
  · rename_i hne
    rw [(hother name hne).1, (hother name hne).2]
    exact h name ws hget

end Operations

/-! ## §4 Steps -/

variable {s s' : State Data}

theorem strict_step (s : State Data) (e : Event) (s' : State Data) (h : Strict s.router)
    (hok : Fresh s e) (hs : machine.step s e = some s') : Strict s'.router := by
  cases e with
  | connect nodeId ws =>
      have hs' : step s (.connect nodeId ws) = some s' := hs
      unfold step at hs'
      dsimp only at hs'
      split at hs'
      · -- A reconnect; the invalidation comes after the close of the old socket.
        rename_i hold
        cases hs'
        refine h.registerNode ws (hok ?_)
        rw [hold]
        exact Option.some_ne_none _
      · cases hs'
        exact h.invalidated rfl fun name hne => ⟨Dict.get_set_of_ne _ _ hne, rfl⟩
      · exact absurd hs'.symm (Option.some_ne_none _)
  | closed ws =>
      have hs' : step s (.closed ws) = some s' := hs
      unfold step at hs'
      dsimp only at hs'
      split at hs'
      · cases hs'
        exact h.invalidated rfl fun _ _ => ⟨rfl, rfl⟩
      · exact absurd hs'.symm (Option.some_ne_none _)
  | disconnect nodeId ws =>
      have hs' : step s (.disconnect nodeId ws) = some s' := hs
      unfold step at hs'
      dsimp only at hs'
      split at hs'
      · exact absurd hs'.symm (Option.some_ne_none _)
      · cases hs'
        split
        · exact h.invalidated rfl fun name hne => ⟨Dict.get_pop_of_ne _ hne, rfl⟩
        · exact h
  | dial nodeId ws =>
      cases hs
      exact h.invalidated rfl fun name hne => ⟨rfl, Dict.get_set_of_ne _ _ hne⟩
  | hangup nodeId ws =>
      cases hs
      -- `get_transport_to` after the invalidation caches what is left
      refine Strict.lookUp ?_ nodeId
      exact h.invalidated rfl fun name hne => ⟨rfl, Dict.get_pop_of_ne _ hne⟩
  | send nodeId =>
      cases hs
      exact h.lookUp nodeId

theorem closed_keeps {ws : Sock} (hok : Fresh s (.closed ws))
    (hs : step s (.closed ws) = some s') : KeepsOthers none s.router s'.router := by
  unfold step at hs
  dsimp only at hs
  split at hs
  · rename_i nodeId hclosing
    cases hs
    refine fun name w _ => ⟨id, id, fun hcache => ?_⟩
    show (s.router.transportCache.pop (canon nodeId)).get name = some w
    rw [Dict.get_pop_of_ne]
    · exact hcache
    · rintro rfl
      exact Option.some_ne_none _ (hcache.symm.trans (hok nodeId hclosing))
  · exact absurd hs.symm (Option.some_ne_none _)

/-- What is cached for a node is its active socket, so that nothing else goes with it. -/
theorem disconnect_keeps {nodeId : String} {ws : Sock} (h : Strict s.router)
    (hs : step s (.disconnect nodeId ws) = some s') :
    KeepsOthers (some ws) s.router s'.router := by
  unfold step at hs
  dsimp only at hs
  split at hs
  · exact absurd hs.symm (Option.some_ne_none _)
  · cases hs
    split
    · rename_i hactive
      have hne : ∀ {name : String} {w : Sock}, some w ≠ some ws →
          s.router.nodes.get name = some w → name ≠ canon nodeId := by
        rintro name w hw hnode rfl
        exact hw (hnode.symm.trans hactive)
      refine fun name w hw => ⟨fun hnode => ?_, id, fun hcache => ?_⟩
      · exact (Dict.get_pop_of_ne _ (hne hw hnode)).trans hnode
      · have hname : name ≠ canon nodeId := by
          rcases h name w hcache with hnode | ⟨hnone, -⟩
          · exact hne hw hnode
          · rintro rfl
            exact Option.some_ne_none _ (hactive.symm.trans hnone)
        exact (Dict.get_pop_of_ne _ hname).trans hcache
    · exact fun _ _ _ => ⟨id, id, id⟩

/-- The server side of the node is looked up again at once. -/
theorem hangup_keeps {nodeId : String} {ws : Option Sock} (h : Strict s.router)
    (hok : Fresh s (.hangup nodeId ws)) (hs : step s (.hangup nodeId ws) = some s') :
    KeepsOthers ws s.router s'.router := by
  cases hs
  refine fun name w hw => ⟨fun hnode => ?_, fun hclient => ?_, fun hcache => ?_⟩
  · rw [lookUp_nodes]
    exact hnode
  · rw [lookUp_clientWs]
    refine (Dict.get_pop_of_ne _ ?_).trans hclient
    rintro rfl
    exact hw (hok w hclient).symm
  · by_cases hname : name = canon nodeId
    · subst hname
      rw [lookUp_cache, if_pos rfl]
      have hnode : s.router.nodes.get (canon nodeId) = some w := by
        rcases h _ w hcache with hnode | ⟨-, hclient⟩
        · exact hnode
        · exact absurd (hok w hclient).symm hw
      show (((s.router.transportCache.pop (canon nodeId)).get (canon nodeId)).or
        (s.router.nodes.get (canon nodeId))).or _ = some w
      rw [Dict.get_pop_self, hnode]
      rfl
    · exact lookUp_keeps nodeId ((Dict.get_pop_of_ne _ hname).trans hcache)

theorem newKept_step (s : State Data) (e : Event) (s' : State Data) (h : Strict s.router)
    (hok : Fresh s e) (hs : machine.step s e = some s') : NewKept s e s' := by
  cases e with
  | closed ws => exact closed_keeps hok hs
  | disconnect nodeId ws => exact disconnect_keeps h hs
  | hangup nodeId ws => exact hangup_keeps h hok hs
  | connect | dial | send => trivial

/-! ## §5 Runs -/

/-- **The cache is coherent** in every state of a run in which nothing is cached for a node whose
socket is replaced, up to the invalidation, and no invalidation removes the new socket. -/
theorem cache_coherent (NODE localAlias : String) (services : Services) (es : List Event)
    (h : machine.Guarded Fresh (start NODE localAlias services : State Data) es) :
    machine.Always Coherent (start NODE localAlias services : State Data) es ∧
      machine.Each NewKept (start NODE localAlias services : State Data) es := by
  have hstart : Strict (start NODE localAlias services : State Data).router := by
    intro name ws hcache
    exact absurd hcache.symm (Option.some_ne_none _)
  refine ⟨?_, ?_⟩
  · exact Machine.always_of_guarded (fun _ hstrict => Strict.coherent hstrict) strict_step hstart h
  · exact Machine.each_of_guarded newKept_step strict_step hstart h

end Transports

section Examples

attribute [local instance] asciiCanon

def noServices : Services := ⟨fun _ => false, fun _ _ => false, ""⟩

/-- The first socket has gone before the node connects again. -/
def reconnects : List Event :=
  [.connect "b" 1, .send "b", .disconnect "b" 1, .connect "b" 2, .send "b"]

theorem cache_coherent_reconnects :
    machine.Always Coherent (start "a" "" noServices : State Unit) reconnects ∧
      machine.Each NewKept (start "a" "" noServices : State Unit) reconnects := by
  refine cache_coherent "a" "" noServices reconnects ?_
  refine Machine.guarded_cons rfl (fun hold => absurd rfl hold) ?_
  refine Machine.guarded_cons rfl trivial (Machine.guarded_cons rfl trivial ?_)
  refine Machine.guarded_cons rfl (fun hold => absurd rfl hold) ?_
  exact Machine.guarded_cons rfl trivial trivial

/-- The node connects again while its first socket is registered and cached. -/
def replaced : List Event := [.connect "b" 1, .send "b", .connect "b" 2]

/-- The old socket is still cached. -/
theorem replaced_incoherent :
    ¬ machine.Always Coherent (start "a" "" noServices : State Unit) replaced := by
  intro h
  obtain ⟨s, hrun⟩ : ∃ s, machine.run (start "a" "" noServices : State Unit) replaced = some s :=
    ⟨_, rfl⟩
  have hlast := h.last hrun
  cases hrun
  rcases hlast.cached "b" 1 rfl with hnode | hclient
  · have hother : (some 2 : Option Sock) = some 1 := hnode
    exact absurd hother (by decide)
  · have hnone : (none : Option Sock) = some 1 := hclient
    exact absurd hnone (by decide)

end Examples

end Transports

end NetPulse.Mesh
