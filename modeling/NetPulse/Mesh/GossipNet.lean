import NetPulse.Mesh.Liveness
import NetPulse.Mesh.NeighborInvariant

/-
# NetPulse.Mesh.GossipNet — many nodes that gossip

The tables of all nodes of a mesh, and the gossip between them. A link is a channel that one side has
registered; each side learns by itself that it is up or down. A node sends its table to a neighbour
when it accepts a connection and in the rounds of `_gossip_loop`, and the pack arrives any time
later, in any order, or never. The clock is part of the state.

Three records are there for the statements only: which channels are up, when a node has last swept
its table, and when it has last lost a channel.
-/

namespace NetPulse.Mesh

open NetPulse.Lib NeighborTable

section Gossip

variable [Canon]

/-! ## §1 The network -/

/-- A GOSSIP pack, or the neighbours in a HELLO_ACK. -/
structure GossipPack where
  source : String
  dst : String
  neighbors : List GossipEntry

structure GossipNet where
  now : Time
  /-- the table of each node, by its canonical id -/
  tables : String → NeighborTable
  flying : List GossipPack
  links : List (String × String)
  swept : String → Time
  lostAt : String → Time

inductive GossipEvent where
  | tick (d : Time)
  /-- `a` has a channel to `b` -/
  | linkUp (a b : String) (g : Greeting)
  /-- `a` takes its channel to `b` for dead -/
  | linkDown (a b : String)
  /-- `a` handles a pack of another kind from `source` -/
  | traffic (a source : String)
  | sweep (a : String)
  /-- `a` sends its table to `b` -/
  | send (a b : String)
  /-- the pack at this place arrives -/
  | deliver (k : Nat)
  | drop (k : Nat)

/-- The `ttl_known` and `ttl_unreach` of `sweep`, and the period of `_gossip_loop`. -/
def TTL_KNOWN : Time := 90
def TTL_UNREACH : Time := 300
def GOSSIP_PERIOD : Time := 30

namespace GossipNet

def init : GossipNet where
  now := 0
  tables := NeighborTable.init
  flying := []
  links := []
  swept _ := 0
  lostAt _ := 0

def setTable (s : GossipNet) (a : String) (t : NeighborTable) : GossipNet :=
  { s with tables := Function.update s.tables a t }

/-- A channel to or from the node is up. -/
def Linked (s : GossipNet) (nodeId : String) : Prop :=
  ∃ link ∈ s.links, link.1 = nodeId ∨ link.2 = nodeId

instance (s : GossipNet) (nodeId : String) : Decidable (s.Linked nodeId) :=
  inferInstanceAs (Decidable (∃ link ∈ s.links, _))

/-- The table that a received pack meets: `handle` has touched the source. -/
def greeted (s : GossipNet) (p : GossipPack) : NeighborTable :=
  (s.tables (canon p.dst)).touch s.now p.source

/-- The handling of a received pack. -/
def received (s : GossipNet) (p : GossipPack) : GossipNet :=
  s.setTable (canon p.dst) ((s.greeted p).mergeGossip s.now p.neighbors p.source)

/-- The channel from `a` to `b` is gone. -/
def unlink (s : GossipNet) (a b : String) : GossipNet :=
  if (a, b) ∈ s.links then
    { s with
      links := s.links.filter fun link => link ≠ (a, b)
      lostAt := fun n => if n = a ∨ n = b then s.now else s.lostAt n }
  else s

@[simp] theorem unlink_now (s : GossipNet) (a b : String) : (s.unlink a b).now = s.now := by
  unfold unlink
  split_ifs <;> rfl

@[simp] theorem unlink_tables (s : GossipNet) (a b : String) :
    (s.unlink a b).tables = s.tables := by
  unfold unlink
  split_ifs <;> rfl

@[simp] theorem unlink_swept (s : GossipNet) (a b : String) : (s.unlink a b).swept = s.swept := by
  unfold unlink
  split_ifs <;> rfl

def step (s : GossipNet) : GossipEvent → Option GossipNet
  | .tick d => if 0 ≤ d then some { s with now := s.now + d } else none
  | .linkUp a b g =>
      let t := (s.tables (canon a)).registerConnected s.now b g.host g.port g.sessionId g.version
        g.services g.role
      some { s.setTable (canon a) t with links := (canon a, canon b) :: s.links }
  | .linkDown a b =>
      some ((s.unlink (canon a) (canon b)).setTable (canon a)
        ((s.tables (canon a)).markUnreachable b))
  | .traffic a source =>
      some (s.setTable (canon a) ((s.tables (canon a)).touch s.now source))
  | .sweep a =>
      some { s.setTable (canon a) ((s.tables (canon a)).sweep s.now TTL_KNOWN TTL_UNREACH) with
        swept := fun n => if n = canon a then s.now else s.swept n }
  | .send a b =>
      if (s.tables (canon a)).IsConnected b then
        some { s with flying := s.flying ++ [⟨a, b, (s.tables (canon a)).toGossip⟩] }
      else none
  | .deliver k =>
      s.flying[k]?.map fun p => { s with flying := s.flying.eraseIdx k }.received p
  | .drop k =>
      s.flying[k]?.map fun _ => { s with flying := s.flying.eraseIdx k }

end GossipNet

def gossipMachine : Machine GossipNet GossipEvent where
  step := GossipNet.step

end Gossip

/-! ## §2 Pieces of runs -/

/-- Both sides register the channel. -/
def linkBoth (a b : String) : List GossipEvent := [.linkUp a b greeting, .linkUp b a greeting]

/-- `a` sends its table to `b` while no other pack is on its way, and it arrives. -/
def tell (a b : String) : List GossipEvent := [.send a b, .deliver 0]

end NetPulse.Mesh
