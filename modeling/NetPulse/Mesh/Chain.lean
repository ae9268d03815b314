import Mathlib.Data.List.Range
import Mathlib.Logic.Function.Basic
import NetPulse.Mesh.Sending

/-
# NetPulse.Mesh.Chain — a simple chain of nodes

A chain is what a pack travels along when the tables are in order: each node has a channel to the
next and to the one before, knows the last node through the next, and has no shorter way. The two
spec lemmas of §3 are all that results about chains use of `_forward` and `_route_back`: the first
sends to the next node, the second to the one before, and both leave the chain as it is.
-/

namespace NetPulse.Mesh

open NetPulse.Lib Router

section Chains

variable [Canon] {N Data : Type*}

/-! ## §1 Chains and the paths along them -/

/-- The nodes `0`, …, `length`, with canonical ids that are not empty, no two of them alike. -/
structure Chain (N : Type*) where
  length : Nat
  node : Nat → N
  id : Nat → String
  pos : 0 < length
  named : ∀ i ≤ length, id i ≠ ""
  canonical : ∀ i ≤ length, canon (id i) = id i
  simple : ∀ i ≤ length, ∀ j ≤ length, id i = id j → i = j

namespace Chain

variable (c : Chain N)

/-- The id of the last node. -/
def last : String := c.id c.length

/-- The ids of the nodes `0`, …, `i`, in the order in which a pack visits them. -/
def visited (i : Nat) : List String := (List.range (i + 1)).map c.id

@[simp] theorem visited_zero : c.visited 0 = [c.id 0] := rfl

theorem visited_succ (i : Nat) : c.visited (i + 1) = c.visited i ++ [c.id (i + 1)] := by
  simp [visited, List.range_succ]

theorem visited_ne_nil (i : Nat) : c.visited i ≠ [] := by
  simp [visited]

@[simp] theorem getLast?_visited (i : Nat) : (c.visited i).getLast? = some (c.id i) := by
  simp [visited, List.range_succ]

theorem mem_visited {i : Nat} {name : String} :
    name ∈ c.visited i ↔ ∃ j ≤ i, c.id j = name := by
  simp only [visited, List.mem_map, List.mem_range, Nat.lt_succ_iff]

theorem canon_last : canon c.last = c.last := c.canonical c.length (Nat.le_refl _)

variable {c}

theorem canonical_visited {i : Nat} (hi : i ≤ c.length) :
    ∀ name ∈ c.visited i, canon name = name := by
  intro name hname
  obtain ⟨j, hj, rfl⟩ := c.mem_visited.mp hname
  exact c.canonical j (hj.trans hi)

theorem nodup_visited {i : Nat} (hi : i ≤ c.length) : (c.visited i).Nodup := by
  refine List.Nodup.map_on ?_ List.nodup_range
  intro j hj j' hj' heq
  rw [List.mem_range] at hj hj'
  exact c.simple j (by omega) j' (by omega) heq

theorem canon_visited {i : Nat} (hi : i ≤ c.length) :
    (c.visited i).map canon = c.visited i :=
  (List.map_congr_left (canonical_visited hi)).trans (List.map_id _)

theorem not_mem_visited {i j : Nat} (hij : i < j) (hj : j ≤ c.length) : c.id j ∉ c.visited i := by
  intro h
  obtain ⟨m, hm, heq⟩ := c.mem_visited.mp h
  have := c.simple m (by omega) j hj heq
  omega

end Chain

/-! ## §2 The routers of a chain -/

/-- The router has a channel to the node `m` under its id, and no socket of it leads elsewhere. -/
structure Linked (peer : Sock → N × Sock) (r : Router Data) (id : String) (m : N) : Prop where
  channel : (r.nodes.get id).isSome ∨ (r.clientWs.get id).isSome
  nodes : ∀ ws, r.nodes.get id = some ws → (peer ws).1 = m
  clientWs : ∀ ws, r.clientWs.get id = some ws → (peer ws).1 = m
  cache : ∀ ws, r.transportCache.get id = some ws → (peer ws).1 = m

/-- One channel, of the server side. -/
theorem linked_of_nodes {peer : Sock → N × Sock} {r : Router Data} {id : String} {m : N} (ws : Sock)
    (hnode : r.nodes.get id = some ws) (hclient : r.clientWs.get id = none)
    (hcache : r.transportCache.get id = none) (hpeer : (peer ws).1 = m) : Linked peer r id m where
  channel := Or.inl (by simp [hnode])
  nodes ws' h := by
    cases hnode.symm.trans h
    exact hpeer
  clientWs ws' h := by simp [hclient] at h
  cache ws' h := by simp [hcache] at h

/-- One channel, of the client side. -/
theorem linked_of_client {peer : Sock → N × Sock} {r : Router Data} {id : String} {m : N}
    (ws : Sock) (hnode : r.nodes.get id = none) (hclient : r.clientWs.get id = some ws)
    (hcache : r.transportCache.get id = none) (hpeer : (peer ws).1 = m) : Linked peer r id m where
  channel := Or.inr (by simp [hclient])
  nodes ws' h := by simp [hnode] at h
  clientWs ws' h := by
    cases hclient.symm.trans h
    exact hpeer
  cache ws' h := by simp [hcache] at h

/-- The router is that of node `i` of the chain: linked to its neighbours, and without a channel to
the last node, which it knows through the next, unless that is the last. -/
structure Chain.Stop (c : Chain N) (peer : N → Sock → N × Sock) (i : Nat) (r : Router Data) :
    Prop where
  node : r.NODE = c.id i
  ahead : i < c.length → Linked (peer (c.node i)) r (c.id (i + 1)) (c.node (i + 1))
  behind : ∀ j, i = j + 1 → Linked (peer (c.node i)) r (c.id j) (c.node j)
  far : i + 1 < c.length →
    r.nodes.get c.last = none ∧ r.clientWs.get c.last = none ∧ r.transportCache.get c.last = none
  via : i + 1 < c.length →
    ∃ via, (r.table.find c.last).bind NeighborInfo.nextHop = some via ∧ canon via = c.id (i + 1)

/-- The chain stands. -/
def Chain.On (c : Chain N) (peer : N → Sock → N × Sock) (routers : N → Router Data) : Prop :=
  ∀ i ≤ c.length, c.Stop peer i (routers (c.node i))

theorem Linked.of_sameWays {peer : Sock → N × Sock} {r r' : Router Data} {id : String} {m : N}
    (h : Linked peer r id m) (hr : SameWays r r') : Linked peer r' id m where
  channel := by
    rw [hr.nodes, hr.clientWs]
    exact h.channel
  nodes := by
    rw [hr.nodes]
    exact h.nodes
  clientWs := by
    rw [hr.clientWs]
    exact h.clientWs
  cache ws hws := by
    rcases hr.cache id ws hws with hcache | hnode | hclient
    · exact h.cache ws hcache
    · exact h.nodes ws hnode
    · exact h.clientWs ws hclient

theorem Chain.Stop.of_sameWays {c : Chain N} {peer : N → Sock → N × Sock} {i : Nat}
    {r r' : Router Data} (h : c.Stop peer i r) (hr : SameWays r r') : c.Stop peer i r' where
  node := hr.node.trans h.node
  ahead hi := (h.ahead hi).of_sameWays hr
  behind j hj := (h.behind j hj).of_sameWays hr
  far hi := by
    obtain ⟨hnode, hclient, hcache⟩ := h.far hi
    refine ⟨hr.nodes ▸ hnode, hr.clientWs ▸ hclient, ?_⟩
    cases hget : r'.transportCache.get c.last with
    | none => rfl
    | some ws =>
        rcases hr.cache c.last ws hget with h' | h' | h'
        · exact absurd h' (by simp [hcache])
        · exact absurd h' (by simp [hnode])
        · exact absurd h' (by simp [hclient])
  via hi := by
    rw [hr.nextHop]
    exact h.via hi

/-- The nodes of a chain are as distinct as their ids. -/
theorem Chain.On.inj {c : Chain N} {peer : N → Sock → N × Sock} {routers : N → Router Data}
    (h : c.On peer routers) {i j : Nat} (hi : i ≤ c.length) (hj : j ≤ c.length)
    (heq : c.node i = c.node j) : i = j := by
  refine c.simple i hi j hj ?_
  rw [← (h i hi).node, ← (h j hj).node, heq]

theorem Chain.On.update [DecidableEq N] {c : Chain N} {peer : N → Sock → N × Sock}
    {routers : N → Router Data} (h : c.On peer routers) {n : N} {r' : Router Data}
    (hr : SameWays (routers n) r') : c.On peer (Function.update routers n r') := by
  intro i hi
  by_cases heq : c.node i = n
  · subst heq
    rw [Function.update_self]
    exact (h i hi).of_sameWays hr
  · rw [Function.update_of_ne heq]
    exact h i hi

/-! ## §3 Forward and back -/

/-- A linked node can be sent to. -/
theorem Linked.send {peer : Sock → N × Sock} {r : Router Data} {id : String} {m : N}
    (h : Linked peer r id m) {name : String} (hname : canon name = id) :
    ∃ r' ws, r.getTransportTo name = some (r', ws) ∧ (peer ws).1 = m ∧ Cached r r' := by
  have hsome : ∃ r' ws, r.getTransportTo name = some (r', ws) ∧ (peer ws).1 = m := by
    unfold Router.getTransportTo
    rw [hname]
    cases hcache : r.transportCache.get id with
    | some ws => exact ⟨_, _, rfl, h.cache ws hcache⟩
    | none =>
        cases hnode : r.nodes.get id with
        | some ws => exact ⟨_, _, rfl, h.nodes ws hnode⟩
        | none =>
            cases hclient : r.clientWs.get id with
            | some ws => exact ⟨_, _, rfl, h.clientWs ws hclient⟩
            | none =>
                rcases h.channel with hc | hc
                · simp [hnode] at hc
                · simp [hclient] at hc
  obtain ⟨r', ws, hsend, hpeer⟩ := hsome
  exact ⟨r', ws, hsend, hpeer, cached_getTransportTo hsend⟩

/-- A name of the last node. -/
def Chain.Names (c : Chain N) (dst : String) : Prop := canon dst = c.last

instance (c : Chain N) (dst : String) : Decidable (c.Names dst) :=
  inferInstanceAs (Decidable (_ = _))

theorem Chain.Names.find {c : Chain N} {dst : String} (h : c.Names dst) (t : NeighborTable) :
    t.find dst = t.find c.last := by
  unfold NeighborTable.find
  rw [h, c.canon_last]

/-- The pack as `_forward` sends it from node `i`. -/
def Chain.sentOn (c : Chain N) (i : Nat) (p : MsgPack Data) : MsgPack Data :=
  if i + 1 < c.length then asForwarded { p with ttl := p.ttl - 1 } else { p with ttl := p.ttl - 1 }

/-- **`_forward` along the chain**: a pack for the last node, whose path ends in the own id, goes to
the next node. -/
theorem Chain.Stop.forward {c : Chain N} {peer : N → Sock → N × Sock} {i : Nat} {r : Router Data}
    (h : c.Stop peer i r) (hi : i < c.length) {p : MsgPack Data} {dst : String}
    (hdst : p.dst = some dst) (hname : c.Names dst) (hpath : p.path.getLast? = some (c.id i)) :
    ∃ r' ws, r.forward p = some (r', ws, c.sentOn i p) ∧
      (peer (c.node i) ws).1 = c.node (i + 1) ∧ Cached r r' := by
  have hhop : r.hop p = { p with ttl := p.ttl - 1 } := hop_of_last (by rw [h.node, hpath])
  unfold Chain.sentOn
  by_cases hlast : i + 1 < c.length
  · obtain ⟨hnode, hclient, _⟩ := h.far hlast
    obtain ⟨via, hvia, hcanon⟩ := h.via hlast
    obtain ⟨r', ws, hsend, hpeer, hcached⟩ := (h.ahead hi).send hcanon
    refine ⟨r', ws, ?_, hpeer, hcached⟩
    rw [if_pos hlast, ← hhop]
    exact forward_of_via hdst (hname.symm ▸ hnode) (hname.symm ▸ hclient)
      (by rw [hname.find]; exact hvia) hsend
  · have heq : c.id (i + 1) = canon dst := by
      have : i + 1 = c.length := by omega
      rw [this, hname]
      rfl
    have hahead := h.ahead hi
    rw [heq] at hahead
    rw [if_neg hlast, ← hhop]
    cases hnode : r.nodes.get (canon dst) with
    | some ws =>
        refine ⟨r, ws, ?_, hahead.nodes ws hnode, .refl r⟩
        simp only [Router.forward, hdst, hnode]
    | none =>
        cases hclient : r.clientWs.get (canon dst) with
        | some ws =>
            refine ⟨r, ws, ?_, hahead.clientWs ws hclient, .refl r⟩
            simp only [Router.forward, hdst, hnode, hclient]
        | none =>
            rcases hahead.channel with hc | hc
            · simp [hnode] at hc
            · simp [hclient] at hc

theorem Chain.Stop.isNode {c : Chain N} {peer : N → Sock → N × Sock} {i j : Nat} {r : Router Data}
    (h : c.Stop peer i r) (hi : i ≤ c.length) (hj : j ≤ c.length) :
    r.isNode (c.id j) = decide (j = i) := by
  unfold Router.isNode
  rw [h.node, c.canonical i hi, c.canonical j hj, decide_eq_decide]
  exact ⟨c.simple j hj i hi, fun heq => by rw [heq]⟩

/-- A pack for node `j` is for another node everywhere else. -/
theorem Chain.Stop.isRemote {c : Chain N} {peer : N → Sock → N × Sock} {i j : Nat} {r : Router Data}
    (h : c.Stop peer i r) (hi : i ≤ c.length) (hj : j ≤ c.length) {p : MsgPack Data} {dst : String}
    (hdst : p.dst = some dst) (hcanon : canon dst = c.id j) : r.isRemote p = decide (j ≠ i) := by
  have hne : dst ≠ "" := by
    rintro rfl
    exact c.named j hj (hcanon.symm.trans canon_empty)
  have hnode : r.isNode dst = r.isNode (c.id j) := by
    unfold Router.isNode
    rw [hcanon, c.canonical j hj]
  simp [Router.isRemote, hdst, hne, hnode, h.isNode hi hj]

/-- **`_route_back` along the chain**: a pack whose path leads to node `i`, with or without the own
id at the end, goes to node `i`. -/
theorem Chain.Stop.back {c : Chain N} {peer : N → Sock → N × Sock} {i : Nat} {r : Router Data}
    (h : c.Stop peer (i + 1) r) (hi : i + 1 ≤ c.length) {p : MsgPack Data}
    (hpath : p.path = c.visited (i + 1) ∨ p.path = c.visited i) :
    ∃ r' ws, r.routeBack p = (r', some (ws, { p with path := c.visited i })) ∧
      (peer (c.node (i + 1)) ws).1 = c.node i ∧ Cached r r' := by
  have hstrip : r.stripSelf p.path = c.visited i := by
    unfold Router.stripSelf
    rcases hpath with heq | heq <;> rw [heq]
    · simp only [c.getLast?_visited, h.isNode hi hi, decide_true, if_true]
      rw [c.visited_succ, List.dropLast_concat]
    · have hne : ¬ i = i + 1 := by omega
      simp only [c.getLast?_visited, h.isNode hi (Nat.le_of_succ_le hi), hne, decide_false,
        Bool.false_eq_true, if_false]
  obtain ⟨r', ws, hsend, hpeer, hcached⟩ :=
    (h.behind i rfl).send (c.canonical i (Nat.le_of_succ_le hi))
  refine ⟨r', ws, ?_, hpeer, hcached⟩
  simp only [Router.routeBack, hstrip, c.getLast?_visited, hsend]

/-- The way back ends at the first node. -/
theorem Chain.Stop.home {c : Chain N} {peer : N → Sock → N × Sock} {r : Router Data}
    (h : c.Stop peer 0 r) {p : MsgPack Data} (hpath : p.path = c.visited 0) :
    r.routeBack p = (r.resolve p.label (resolvePayload p), none) := by
  have hstrip : r.stripSelf p.path = [] := by
    simp [Router.stripSelf, hpath, h.isNode (Nat.zero_le _) (Nat.zero_le _)]
  simp only [Router.routeBack, hstrip, List.getLast?_nil]

/-- A list of packs on the way back goes to node `i`, one by one. -/
theorem Chain.Stop.sendAll {c : Chain N} {peer : N → Sock → N × Sock} {i : Nat} {r : Router Data}
    (h : c.Stop peer (i + 1) r) (hi : i + 1 ≤ c.length) (packs : List (MsgPack Data))
    (hpath : ∀ p ∈ packs, p.path = c.visited (i + 1) ∨ p.path = c.visited i) :
    (r.sendAll packs).2.map Prod.snd = packs.map (fun p => { p with path := c.visited i }) ∧
      (∀ q ∈ (r.sendAll packs).2, (peer (c.node (i + 1)) q.1).1 = c.node i) ∧
      Settled r (r.sendAll packs).1 := by
  induction packs generalizing r with
  | nil => exact ⟨rfl, by simp [Router.sendAll], .refl r⟩
  | cons p rest ih =>
      have hp := hpath p (List.mem_cons_self)
      obtain ⟨r', ws, hback, hpeer, hcached⟩ := h.back hi hp
      have hsend : r.sendPack p = (r', some (ws, { p with path := c.visited i })) := by
        have hne : p.path ≠ [] := by
          rcases hp with heq | heq <;> rw [heq] <;> exact c.visited_ne_nil _
        unfold Router.sendPack
        rw [if_pos hne, hback]
      obtain ⟨hpacks, hpeers, hsettled⟩ :=
        ih (h.of_sameWays hcached.settled.toSameWays) (fun q hq => hpath q (List.mem_cons_of_mem _ hq))
      simp only [Router.sendAll, hsend, Option.toList_some, List.singleton_append, List.map_cons]
      refine ⟨by rw [hpacks], ?_, hcached.settled.trans hsettled⟩
      intro q hq
      rcases List.mem_cons.mp hq with rfl | hq
      · exact hpeer
      · exact hpeers q hq

/-! ## §4 Packs on channels -/

/-- The arguments of a call or of a stream, and the label that its packs draw. -/
structure CallArgs (Data : Type*) where
  label : String
  dst : String
  service : String
  method : String
  data : Payload Data

/-- The pack that node `0` makes of them. -/
def CallArgs.pack (a : CallArgs Data) (c : Chain N) (type : PackType) (path : List String)
    (ttl : Int) : MsgPack Data :=
  { type, source := c.id 0, dst := some a.dst, service := some a.service, method := some a.method
    data := a.data, label := a.label, path, ttl }

/-- A pack on a channel, with the node and the socket on which it arrives. -/
structure Transit (N Data : Type*) where
  node : N
  ws : Sock
  pack : MsgPack Data

/-- Packs that node `n` sends. -/
def arrivals (peer : N → Sock → N × Sock) (n : N) (sends : List (Sock × MsgPack Data)) :
    List (Transit N Data) :=
  sends.map fun q => ⟨(peer n q.1).1, (peer n q.1).2, q.2⟩

omit [Canon] in
theorem flight_split {flight : List (Transit N Data)} {i : Nat} {f : Transit N Data}
    (hf : flight[i]? = some f) : flight = flight.take i ++ f :: flight.drop (i + 1) := by
  obtain ⟨hlt, heq⟩ := List.getElem?_eq_some_iff.mp hf
  rw [← heq, ← List.drop_eq_getElem_cons, List.take_append_drop]

end Chains

/-! ## §5 Three nodes in a row -/

section Concrete

attribute [local instance] asciiCanon

/-- The ids of the nodes `0`, `1`, `2`. -/
def rowId : Nat → String
  | 0 => "a"
  | 1 => "b"
  | _ => "d"

def row : Chain Nat where
  length := 2
  node := id
  id := rowId
  pos := by decide
  named := by decide
  canonical := by decide
  simple := by decide

/-- The first two of them. -/
def pair : Chain Nat where
  length := 1
  node := id
  id := rowId
  pos := by decide
  named := by decide
  canonical := by decide
  simple := by decide

/-- `a` has dialled `b`, and `b` has dialled `d`. -/
def rowRouter : Nat → Router Nat
  | 0 =>
      { Router.init "a" "a" ⟨fun _ => true, fun _ _ => true, "source"⟩ with
        clientWs := Dict.empty.set "b" 0
        table := (NeighborTable.init "a").registerKnown 0 "d" "10.0.0.4" 9000 "b" PROTOCOL_VERSION []
          ROLE_NODE }
  | 1 =>
      { Router.init "b" "b" ⟨fun _ => true, fun _ _ => true, "source"⟩ with
        nodes := Dict.empty.set "a" 0
        clientWs := Dict.empty.set "d" 1 }
  | _ =>
      { Router.init "d" "d" ⟨fun _ => true, fun _ _ => true, "source"⟩ with
        nodes := Dict.empty.set "b" 0 }

/-- Socket `0` of `b` leads to `a`, and socket `1` to `d`. -/
def rowPeer : Nat → Sock → Nat × Sock
  | 0, _ => (1, 0)
  | 1, 0 => (0, 0)
  | 1, _ => (2, 0)
  | _, _ => (1, 1)

theorem linked_ab : Linked (rowPeer 0) (rowRouter 0) "b" 1 :=
  linked_of_client 0 (by decide) (by decide) (by decide) rfl

theorem linked_ba : Linked (rowPeer 1) (rowRouter 1) "a" 0 :=
  linked_of_nodes 0 (by decide) (by decide) (by decide) rfl

theorem row_on : row.On rowPeer rowRouter := by
  intro i hi
  match i, hi with
  | 0, _ =>
      exact ⟨rfl, fun _ => linked_ab, fun j hj => by omega, fun _ => by decide,
        fun _ => ⟨"b", by decide, by decide⟩⟩
  | 1, _ =>
      refine ⟨rfl, fun _ => ?_, fun j hj => ?_, fun h => absurd h (by decide),
        fun h => absurd h (by decide)⟩
      · exact linked_of_client 1 (by decide) (by decide) (by decide) rfl
      · obtain rfl : j = 0 := by omega
        exact linked_ba
  | 2, _ =>
      refine ⟨rfl, fun h => absurd h (by decide), fun j hj => ?_, fun h => absurd h (by decide),
        fun h => absurd h (by decide)⟩
      obtain rfl : j = 1 := by omega
      exact linked_of_nodes 0 (by decide) (by decide) (by decide) rfl

theorem pair_on : pair.On rowPeer rowRouter := by
  intro i hi
  match i, hi with
  | 0, _ =>
      exact ⟨rfl, fun _ => linked_ab, fun j hj => by omega, fun h => absurd h (by decide),
        fun h => absurd h (by decide)⟩
  | 1, _ =>
      refine ⟨rfl, fun h => absurd h (by decide), fun j hj => ?_, fun h => absurd h (by decide),
        fun h => absurd h (by decide)⟩
      obtain rfl : j = 0 := by omega
      exact linked_ba

end Concrete

end NetPulse.Mesh
