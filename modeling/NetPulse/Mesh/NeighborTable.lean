import NetPulse.Lib.Dict
import NetPulse.Mesh.Canon
import Mathlib.Data.Rat.Defs
import Mathlib.Order.Basic
import Mathlib.Algebra.Order.Ring.Rat

/-
# NetPulse.Mesh.NeighborTable — the table of neighbours (`networking/neighbor_table.py`)

One node keeps one `NeighborTable`: for every node id it has heard of, whether it has a direct
channel (`connected`), knows it through another node (`known`, reached through `via`) or lost it
(`unreachable`). The table is written by the connection handlers, by gossip from the neighbours and
by the periodic sweep.

Every function is the method of the same name. Clock readings are arguments; a call of `merge_gossip`
uses one reading for all of its entries. Log lines are left out.
-/

namespace NetPulse.Mesh

open NetPulse.Lib

/-- A clock reading in seconds. -/
abbrev Time := ℚ

/-- `PROTOCOL_VERSION`. -/
def PROTOCOL_VERSION : String := "2.0"

/-- `ROLE_NODE`: a full member of the mesh. -/
def ROLE_NODE : String := "node"

inductive NeighborStatus where
  | connected
  | known
  | unreachable
  deriving DecidableEq, Repr

structure NeighborInfo where
  nodeId : String
  host : String
  port : Int
  status : NeighborStatus
  via : Option String
  hops : Int
  lastTs : Time
  sessionId : Option String
  version : String
  services : List String
  role : String
  deriving DecidableEq

/-- What Python's truth test `neighbor.via` sees: a via that is set and not the empty string. -/
def NeighborInfo.nextHop (i : NeighborInfo) : Option String := i.via.filter (· ≠ "")

theorem nextHop_of_via {i : NeighborInfo} {v : String} (h : i.via = some v) (hv : v ≠ "") :
    i.nextHop = some v := by
  simp [NeighborInfo.nextHop, h, Option.filter, hv]

/-- One dictionary of a gossip list; `none` stands for a key that is absent (or `None`). -/
structure GossipEntry where
  nodeId : Option String
  host : Option String
  port : Option Int
  via : Option String
  hops : Option Int
  version : Option String
  services : Option (List String)
  role : Option String
  deriving DecidableEq

/-- `int(entry.get('hops') or 1) + 1`: both a missing count and a zero read as one. -/
def GossipEntry.incomingHops (e : GossipEntry) : Int :=
  (match e.hops with
    | some h => if h = 0 then 1 else h
    | none => 1) + 1

/-- `n.model_dump()`, as far as a receiver of gossip reads it. -/
def NeighborInfo.modelDump (i : NeighborInfo) : GossipEntry where
  nodeId := some i.nodeId
  host := some i.host
  port := some i.port
  via := i.via
  hops := some i.hops
  version := some i.version
  services := some i.services
  role := some i.role

variable [Canon]

/-- The table of one node. The constructor canonicalises the id of its owner. -/
structure NeighborTable where
  ownNodeId : String
  own_canonical : canon ownNodeId = ownNodeId
  table : Dict String NeighborInfo

namespace NeighborTable

/-- `NeighborTable(own_node_id)`. -/
def init (ownNodeId : String) : NeighborTable :=
  ⟨canon ownNodeId, canon_canon _, Dict.empty⟩

/-- Store `i` under `key`. -/
def put (t : NeighborTable) (key : String) (i : NeighborInfo) : NeighborTable :=
  { t with table := t.table.set key i }

@[simp] theorem put_ownNodeId (t : NeighborTable) (key : String) (i : NeighborInfo) :
    (t.put key i).ownNodeId = t.ownNodeId := rfl

theorem get_put (t : NeighborTable) (key key' : String) (i : NeighborInfo) :
    (t.put key i).table.get key' = if key' = key then some i else t.table.get key' :=
  t.table.get_set key key' i

/-! ## Registration -/

def registerConnected (t : NeighborTable) (now : Time) (nodeId host : String) (port : Int)
    (sessionId version : String) (services : List String) (role : String) : NeighborTable :=
  t.put (canon nodeId)
    { nodeId := canon nodeId, host, port, status := .connected, via := none, hops := 1,
      lastTs := now, sessionId := some sessionId, version, services, role }

def registerKnown (t : NeighborTable) (now : Time) (nodeId host : String) (port : Int)
    (via version : String) (services : List String) (role : String) : NeighborTable :=
  let info : NeighborInfo :=
    { nodeId := canon nodeId, host, port, status := .known, via := some (canon via), hops := 2,
      lastTs := now, sessionId := none, version, services, role }
  match t.table.get (canon nodeId) with
  | some existing =>
      -- a direct connection is never replaced by the weaker `known`
      if existing.status = .connected then t else t.put (canon nodeId) info
  | none => t.put (canon nodeId) info

/-! ## Updates and queries -/

/-- Change the entry of `nodeId` in place, when there is one. -/
def modify (t : NeighborTable) (nodeId : String) (f : NeighborInfo → NeighborInfo) :
    NeighborTable :=
  match t.table.get (canon nodeId) with
  | some info => t.put (canon nodeId) (f info)
  | none => t

def touch (t : NeighborTable) (now : Time) (nodeId : String) : NeighborTable :=
  t.modify nodeId fun info => { info with lastTs := now }

def markUnreachable (t : NeighborTable) (nodeId : String) : NeighborTable :=
  t.modify nodeId fun info => { info with status := .unreachable }

def updateServices (t : NeighborTable) (nodeId : String) (services : List String) :
    NeighborTable :=
  t.modify nodeId fun info => { info with services }

/-- `get`. -/
def find (t : NeighborTable) (nodeId : String) : Option NeighborInfo := t.table.get (canon nodeId)

theorem find_modify (t : NeighborTable) (nodeId q : String) (f : NeighborInfo → NeighborInfo) :
    (t.modify nodeId f).find q =
      if canon q = canon nodeId then (t.find q).map f else t.find q := by
  unfold modify find
  cases hget : t.table.get (canon nodeId) with
  | none =>
      dsimp only
      split
      · rename_i heq
        simp [heq, hget]
      · rfl
  | some info =>
      dsimp only
      rw [get_put]
      split
      · rename_i heq
        simp [heq, hget]
      · rfl

/-- A touch changes no route. -/
theorem nextHop_touch (t : NeighborTable) (now : Time) (nodeId q : String) :
    ((t.touch now nodeId).find q).bind NeighborInfo.nextHop =
      (t.find q).bind NeighborInfo.nextHop := by
  unfold touch
  rw [find_modify]
  split
  · cases t.find q <;> rfl
  · rfl

def connected (t : NeighborTable) : List NeighborInfo :=
  t.table.values.filter fun n => n.status = .connected

/-- `all`: the entries in insertion order. -/
def all (t : NeighborTable) : List NeighborInfo := t.table.values

/-! ## Gossip -/

/-- `to_gossip`: the table without unreachable entries and without the owner. -/
def toGossip (t : NeighborTable) : List GossipEntry :=
  (t.table.values.filter fun n => n.status ≠ .unreachable ∧ n.nodeId ≠ t.ownNodeId).map
    NeighborInfo.modelDump

/-- The two-hop guard: the entry's via is a node that we reach through ourselves. -/
def viaPointsBack (t : NeighborTable) (e : GossipEntry) : Bool :=
  match t.table.get (canon (e.via.getD "")) with
  | some viaInfo => canon? viaInfo.via = some (canon t.ownNodeId)
  | none => false

/-- The id under which a gossip entry is merged, or `none` when one of the guards skips it. -/
def acceptedId (t : NeighborTable) (e : GossipEntry) : Option String :=
  match canon? e.nodeId with
  | none => none
  | some nodeId =>
      if nodeId = "" ∨ nodeId = canon t.ownNodeId then none
      else if canon? e.via = some (canon t.ownNodeId) then none
      else if t.viaPointsBack e then none
      else some nodeId

/-- The metadata that every update branch of `merge_gossip` assigns. -/
def refreshed (now : Time) (e : GossipEntry) (i : NeighborInfo) : NeighborInfo :=
  { i with
    host := e.host.getD i.host
    port := e.port.getD i.port
    version := e.version.getD i.version
    services := e.services.getD i.services
    role := e.role.getD i.role
    lastTs := now }

/-- The update of an entry that is not `connected`. -/
def updated (now : Time) (fromNode : String) (e : GossipEntry) (existing : NeighborInfo) :
    NeighborInfo :=
  if e.incomingHops < existing.hops then
    -- a shorter path replaces the route, and revives the entry
    { refreshed now e existing with
      via := some fromNode
      hops := e.incomingHops
      status := if existing.status = .unreachable then .known else existing.status }
  else if e.incomingHops = existing.hops ∧ canon? e.via ≠ canon? existing.via then
    if existing.status = .unreachable then
      -- failover: the current via is dead
      { refreshed now e existing with
        via := some fromNode, hops := e.incomingHops, status := .known }
    else refreshed now e existing
  else
    -- a longer path, or the same via: the route stays
    { refreshed now e existing with
      status :=
        if existing.status = .unreachable ∧ e.incomingHops ≤ existing.hops + 2 then .known
        else existing.status }

/-- The entry that gossip adds for a node not yet in the table. -/
def learned (now : Time) (fromNode nodeId : String) (e : GossipEntry) : NeighborInfo where
  nodeId := nodeId
  host := e.host.getD ""
  port := e.port.getD 9000
  status := .known
  via := some fromNode
  hops := e.incomingHops
  lastTs := now
  sessionId := none
  version := e.version.getD PROTOCOL_VERSION
  services := e.services.getD []
  role := e.role.getD ROLE_NODE

/-- One round of the loop of `merge_gossip`. -/
def mergeEntry (now : Time) (fromNode : String) (t : NeighborTable) (e : GossipEntry) :
    NeighborTable :=
  match t.acceptedId e with
  | none => t
  | some nodeId =>
      match t.table.get nodeId with
      | none => t.put nodeId (learned now fromNode nodeId e)
      | some existing =>
          if existing.status = .connected then t
          else t.put nodeId (updated now fromNode e existing)

/-- One round, by what it does to the table. -/
theorem mergeEntry_cases (now : Time) (fromNode : String) (t : NeighborTable) (e : GossipEntry) :
    mergeEntry now fromNode t e = t ∨
    (∃ nodeId, t.acceptedId e = some nodeId ∧ t.table.get nodeId = none ∧
      mergeEntry now fromNode t e = t.put nodeId (learned now fromNode nodeId e)) ∨
    (∃ nodeId i, t.acceptedId e = some nodeId ∧ t.table.get nodeId = some i ∧
      i.status ≠ .connected ∧
      mergeEntry now fromNode t e = t.put nodeId (updated now fromNode e i)) := by
  unfold mergeEntry
  cases hid : t.acceptedId e with
  | none => exact Or.inl rfl
  | some nodeId =>
      cases hget : t.table.get nodeId with
      | none => exact Or.inr (Or.inl ⟨nodeId, rfl, hget, by simp [hget]⟩)
      | some i =>
          by_cases hc : i.status = .connected
          · exact Or.inl (by simp [hget, hc])
          · exact Or.inr (Or.inr ⟨nodeId, i, rfl, hget, hc, by simp [hget, hc]⟩)

def mergeGossip (t : NeighborTable) (now : Time) (neighbors : List GossipEntry)
    (fromNode : String) : NeighborTable :=
  neighbors.foldl (mergeEntry now (canon fromNode)) t

/-! ## Sweep -/

/-- The ageing pass of `sweep` on an entry that stays. -/
def aged (now ttlKnown : Time) (i : NeighborInfo) : NeighborInfo :=
  if i.status = .known ∧ now - i.lastTs > ttlKnown then { i with status := .unreachable } else i

/-- One round of the cascade: a `known` entry whose via is unreachable becomes unreachable. -/
def cascadeOne (d : Dict String NeighborInfo) (nid : String) : Dict String NeighborInfo :=
  match d.get nid with
  | none => d
  | some info =>
      match info.nextHop with
      | none => d
      | some via =>
          match d.get via with
          | none => d
          | some viaInfo =>
              if info.status = .known ∧ viaInfo.status = .unreachable then
                d.set nid { info with status := .unreachable }
              else d

def sweep (t : NeighborTable) (now : Time) (ttlKnown ttlUnreach : Time) : NeighborTable :=
  let kept := t.table.filter fun _ i =>
    ¬ (i.status = .unreachable ∧ now - i.lastTs > ttlUnreach)
  let marked := kept.mapValues fun _ i => aged now ttlKnown i
  { t with table := marked.keys.foldl cascadeOne marked }

end NeighborTable

end NetPulse.Mesh
