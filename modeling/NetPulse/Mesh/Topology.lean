import NetPulse.Lib.Loops
import NetPulse.Lib.PathSearch
import NetPulse.Mesh.NeighborTable
import Mathlib.Data.Finset.Sort
import Mathlib.Data.String.Basic

/-
# NetPulse.Mesh.Topology — the map of the mesh (`services/netinfo/service.py`)

`topology` reports the channels of its own node and asks its neighbours for theirs, one level less
deep and with the list of nodes that lie above them. Each branch carries its own list, so a node that
is already in the map is asked again on another branch, and the calls follow the paths of the graph.
`Lib.PathSearch` says what such a search meets.

A channel is reported by both its ends, and an edge is verified when both reports are there. The
invariant of the recursion is `Mapped`: who has reported what. Its third part, that both ends of an
edge are nodes of the map, is what keeps the rule for bridges out: an end that the map does not have
would count as a node without `netinfo`, whose report is not needed.

The answer to a full request is kept for four seconds. In a mesh that does not change it is the same
answer, whatever was asked in between (`topology_exact`).
-/

namespace NetPulse.Mesh.Topology

open NetPulse.Lib

/-! ## §1 Rows and snapshots -/

/-- `direction` in a row of `local_sessions`. -/
inductive Direction where
  | both
  | outbound
  | inbound
  | absent
  deriving DecidableEq

/-- `'outbound' in d` -/
def Direction.hasOutbound : Direction → Bool
  | .both | .outbound => true
  | .inbound | .absent => false

/-- `'inbound' in d` -/
def Direction.hasInbound : Direction → Bool
  | .both | .inbound => true
  | .outbound | .absent => false

/-- A row of `local_sessions`. -/
structure SessionRow where
  info : NeighborInfo
  direction : Direction

/-- A node of the map. -/
structure TopoNode where
  nodeId : String
  host : String
  port : Int
  status : NeighborStatus
  via : Option String
  version : String
  services : List String
  role : String

/-- An edge of the map: `src` keeps an outbound socket to `dst`. -/
structure EdgeRow where
  src : String
  dst : String
  verified : Bool
  reportedBy : List String

structure Snapshot where
  root : String
  nodes : List TopoNode
  clients : List TopoNode
  edges : List EdgeRow
  errors : Dict String String
  /-- Without the rounding. -/
  cacheAgeSec : Option Time

/-- The dicts `nodes`, `edges` and `errors` of the function. -/
structure TopoMap where
  nodes : Dict String TopoNode
  edges : Dict (String × String) (Finset String)
  errors : Dict String String

/-- The reports of one edge, added to those that are there. -/
def addReports (edges : Dict (String × String) (Finset String)) (src dst : String)
    (reporters : Finset String) : Dict (String × String) (Finset String) :=
  edges.set (src, dst) ((edges.get (src, dst)).getD ∅ ∪ reporters)

def rowNode (row : SessionRow) : TopoNode where
  nodeId := row.info.nodeId
  host := row.info.host
  port := row.info.port
  status := row.info.status
  via := row.info.via
  version := row.info.version
  services := row.info.services
  role := row.info.role

/-- The edges of one row. -/
def addRow (own : String) (edges : Dict (String × String) (Finset String)) (row : SessionRow) :
    Dict (String × String) (Finset String) :=
  let edges :=
    if row.direction.hasOutbound then addReports edges own row.info.nodeId {own} else edges
  if row.direction.hasInbound then addReports edges row.info.nodeId own {own} else edges

/-- `nodes[nid] = nd`, where there is an id and nothing under it. -/
def mergeNode (nodes : Dict String TopoNode) (nd : TopoNode) : Dict String TopoNode :=
  if nd.nodeId ≠ "" ∧ nodes.contains nd.nodeId = false then nodes.set nd.nodeId nd else nodes

/-- The reports of one edge of a reply. -/
def mergeEdge (edges : Dict (String × String) (Finset String)) (ed : EdgeRow) :
    Dict (String × String) (Finset String) :=
  if ed.src = "" ∨ ed.dst = "" then edges
  else addReports edges ed.src ed.dst ed.reportedBy.toFinset

/-- What one neighbour has answered: a snapshot, or the text of an error. -/
def mergeReply (m : TopoMap) (reply : String × Except String Snapshot) : TopoMap :=
  match reply.2 with
  | .error text => { m with errors := m.errors.set reply.1 text }
  | .ok res =>
      { nodes := (res.nodes ++ res.clients).foldl mergeNode m.nodes
        edges := res.edges.foldl mergeEdge m.edges
        errors := res.errors.items.foldl (fun errors e => errors.set e.1 e.2) m.errors }

/-- A node that the map does not have, or has without `netinfo`. -/
def isBridge (nodes : Dict String TopoNode) (nid : String) : Bool :=
  decide ("netinfo" ∉ ((nodes.get nid).map TopoNode.services).getD [])

def edgeRow (nodes : Dict String TopoNode) (e : (String × String) × Finset String) : EdgeRow :=
  let src := e.1.1
  let dst := e.1.2
  let rep := e.2
  let bothReport := decide (src ∈ rep ∧ dst ∈ rep)
  { src := src
    dst := dst
    verified := bothReport || (decide (src ∈ rep) && isBridge nodes dst) ||
      (decide (dst ∈ rep) && isBridge nodes src)
    reportedBy := rep.sort (· ≤ ·) }

/-- The end of the function. -/
def serialize (own : String) (m : TopoMap) : Snapshot :=
  let edgeRows := (m.edges.items.map (edgeRow m.nodes)).mergeSort fun x y =>
    x.src < y.src ∨ x.src = y.src ∧ x.dst ≤ y.dst
  let allNodes := m.nodes.values.mergeSort fun x y => x.nodeId ≤ y.nodeId
  { root := own
    nodes := allNodes.filter fun n => n.role = ROLE_NODE
    clients := allNodes.filter fun n => n.role ≠ ROLE_NODE
    edges := edgeRows
    errors := m.errors
    cacheAgeSec := none }

/-! ## §2 What a node knows -/

section Nodes

variable [Canon]

/-- The network module of one node, as far as `topology` asks it. -/
structure Net where
  neighborTable : NeighborTable
  /-- The keys of the router's `_client_ws` and of the manager's `nodes`. -/
  clientWs : List String
  managed : List String
  localIp : String
  port : Int
  services : List String

namespace Net

/-- `router.has_client_ws` -/
def hasClientWs (net : Net) (nodeId : String) : Bool := decide (canon nodeId ∈ net.clientWs)

/-- `nodes_manager.get(node_id) is not None` -/
def hasNode (net : Net) (nodeId : String) : Bool := decide (canon nodeId ∈ net.managed)

def direction (net : Net) (nodeId : String) : Direction :=
  let outbound := net.hasClientWs nodeId
  let inbound := net.hasNode nodeId
  if outbound && inbound then .both
  else if outbound then .outbound
  else if inbound then .inbound
  else .absent

def localSessions (net : Net) : List SessionRow :=
  net.neighborTable.all.map fun n => ⟨n, net.direction n.nodeId⟩

def ownNode (net : Net) (own : String) : TopoNode where
  nodeId := own
  host := net.localIp
  port := net.port
  status := .connected
  via := none
  version := PROTOCOL_VERSION
  services := net.services
  role := ROLE_NODE

/-- The own table, and the node itself. -/
def localNodes (net : Net) (own : String) : Dict String TopoNode :=
  (net.localSessions.foldl (fun nodes row => nodes.set row.info.nodeId (rowNode row))
    Dict.empty).set own (net.ownNode own)

def localEdges (net : Net) (own : String) : Dict (String × String) (Finset String) :=
  net.localSessions.foldl (addRow own) Dict.empty

/-- `svc_sets` -/
def svcSets (net : Net) : Dict String (List String) :=
  net.localSessions.foldl (fun d row => d.set row.info.nodeId row.info.services) Dict.empty

/-- The neighbours that are asked. -/
def targets (net : Net) (visited : Finset String) : List NeighborInfo :=
  net.neighborTable.connected.filter fun n =>
    n.role = ROLE_NODE ∧ n.nodeId ∉ visited ∧ "netinfo" ∈ (net.svcSets.get n.nodeId).getD []

end Net

/-! ## §3 The recursion -/

/-- A mesh: the network module of each node, and the calls that fail. -/
structure Network where
  net : String → Net
  callError : String → String → Option String

/-- The map that a node makes with `ttl = k + 1`. -/
def collect (M : Network) : ℕ → String → Finset String → TopoMap
  | 0, own, _ =>
      ⟨(M.net own).localNodes own, (M.net own).localEdges own, Dict.empty⟩
  | k + 1, own, visited =>
      let visited := insert own visited
      let results := ((M.net own).targets visited).map fun n =>
        (n.nodeId,
          match M.callError own n.nodeId with
          | some text => .error text
          | none => .ok (serialize n.nodeId (collect M k n.nodeId visited)))
      results.foldl mergeReply
        ⟨(M.net own).localNodes own, (M.net own).localEdges own, Dict.empty⟩

/-- `_TOPO_CACHE_TTL` -/
def TOPO_CACHE_TTL : Time := 4

/-- `_TOPO_MAX_TTL` -/
def TOPO_MAX_TTL : Int := 6

/-- `data`: a depth, or none, and the visited nodes. -/
structure TopoRequest where
  ttl : Option Int
  visited : Finset String

/-- `topology` of a node, with the clock at its beginning and at its end. -/
def topology (M : Network) (own : String) (cache : Option (Time × Snapshot)) (data : TopoRequest)
    (now done : Time) : Snapshot × Option (Time × Snapshot) :=
  let ttl := max 1 (min (data.ttl.getD 4) TOPO_MAX_TTL)
  let topLevel := data.visited = ∅ ∧ data.ttl.getD 4 = 4
  let cached := cache.filter fun c => topLevel ∧ now - c.1 < TOPO_CACHE_TTL
  match cached with
  | some (ts, snap) => ({ snap with cacheAgeSec := some (now - ts) }, cache)
  | none =>
      let result := serialize own (collect M (ttl.toNat - 1) own data.visited)
      (result, if topLevel then some (done, result) else cache)

end Nodes

/-! ## §4 Reports -/

/-- `x` is in `reported_by` of the edge. -/
def Reported (edges : Dict (String × String) (Finset String)) (s d x : String) : Prop :=
  ∃ rep, edges.get (s, d) = some rep ∧ x ∈ rep

section Reports

variable {edges : Dict (String × String) (Finset String)} {s d x : String}

theorem not_reported_empty : ¬ Reported Dict.empty s d x := by
  rintro ⟨rep, hrep, -⟩
  cases hrep

theorem reported_addReports {src dst : String} {reporters : Finset String} :
    Reported (addReports edges src dst reporters) s d x ↔
      Reported edges s d x ∨ (s = src ∧ d = dst) ∧ x ∈ reporters := by
  unfold Reported addReports
  simp only [Dict.get_set, Prod.mk.injEq]
  by_cases hkey : s = src ∧ d = dst
  · obtain ⟨rfl, rfl⟩ := hkey
    simp only [and_self, if_true, Option.some.injEq, exists_eq_left', true_and, Finset.mem_union]
    cases edges.get (s, d) with
    | none => simp only [Option.getD_none, Finset.notMem_empty, reduceCtorEq, false_and, exists_false]
    | some rep => simp only [Option.getD_some, Option.some.injEq, exists_eq_left']
  · rw [if_neg hkey, or_iff_left]
    exact fun h => hkey h.1

/-- Every edge has a reporter. -/
def Full (edges : Dict (String × String) (Finset String)) : Prop :=
  ∀ key rep, edges.get key = some rep → rep.Nonempty

theorem full_addReports (h : Full edges) {src dst : String} {reporters : Finset String}
    (hne : reporters.Nonempty) : Full (addReports edges src dst reporters) :=
  Dict.forall_get_set h (hne.mono Finset.subset_union_right)

/-- One row of the table: the channel to the peer, and the channel from it. -/
theorem reported_addRow (own : String) (row : SessionRow) :
    Reported (addRow own edges row) s d x ↔
      Reported edges s d x ∨ x = own ∧
        (row.direction.hasOutbound = true ∧ s = own ∧ d = row.info.nodeId ∨
          row.direction.hasInbound = true ∧ s = row.info.nodeId ∧ d = own) := by
  unfold addRow
  cases row.direction with
  | both =>
      simp only [Direction.hasOutbound, Direction.hasInbound, if_true, reported_addReports,
        Finset.mem_singleton, true_and]
      tauto
  | outbound =>
      simp only [Direction.hasOutbound, Direction.hasInbound, if_true, reported_addReports,
        Finset.mem_singleton, true_and, Bool.false_eq_true, if_false, false_and, or_false]
      tauto
  | inbound =>
      simp only [Direction.hasOutbound, Direction.hasInbound, if_true, reported_addReports,
        Finset.mem_singleton, true_and, Bool.false_eq_true, if_false, false_and, false_or]
      tauto
  | absent =>
      simp only [Direction.hasOutbound, Direction.hasInbound, Bool.false_eq_true, if_false,
        false_and, or_self, and_false, or_false]

theorem full_addRow {own : String} {row : SessionRow} (h : Full edges) :
    Full (addRow own edges row) := by
  have hone : ({own} : Finset String).Nonempty := Finset.singleton_nonempty own
  unfold addRow
  split
  · split
    · exact full_addReports (full_addReports h hone) hone
    · exact full_addReports h hone
  · split
    · exact full_addReports h hone
    · exact h

theorem reported_mergeEdge (ed : EdgeRow) :
    Reported (mergeEdge edges ed) s d x ↔
      Reported edges s d x ∨
        (s ≠ "" ∧ d ≠ "") ∧ s = ed.src ∧ d = ed.dst ∧ x ∈ ed.reportedBy := by
  unfold mergeEdge
  split
  · rename_i hempty
    rw [or_iff_left]
    rintro ⟨hne, rfl, rfl, -⟩
    exact hempty.elim hne.1 hne.2
  · rename_i hne
    rw [reported_addReports, List.mem_toFinset, and_assoc]
    apply or_congr_right
    constructor
    · rintro ⟨rfl, rfl, hx⟩
      exact ⟨not_or.mp hne, rfl, rfl, hx⟩
    · exact And.right

theorem full_mergeEdge (h : Full edges) {ed : EdgeRow} (hne : ed.reportedBy ≠ []) :
    Full (mergeEdge edges ed) := by
  unfold mergeEdge
  split
  · exact h
  · apply full_addReports h
    obtain ⟨x, hx⟩ := List.exists_mem_of_ne_nil _ hne
    exact ⟨x, List.mem_toFinset.mpr hx⟩

end Reports

section Maps

variable {nodes : Dict String TopoNode} {m : TopoMap} {id : String}

theorem contains_iff {K V : Type} [DecidableEq K] {d : Dict K V} {k : K} :
    d.contains k = true ↔ ∃ v, d.get k = some v := Option.isSome_iff_exists

theorem contains_set {K V : Type} [DecidableEq K] {d : Dict K V} {k k' : K} {v : V} :
    (d.set k' v).contains k = true ↔ d.contains k = true ∨ k = k' := by
  unfold Dict.contains
  rw [Dict.get_set]
  by_cases hk : k = k'
  · rw [if_pos hk]
    exact iff_of_true rfl (Or.inr hk)
  · rw [if_neg hk, or_iff_left hk]

/-- A node of a reply is in the map afterwards. -/
theorem contains_mergeNode (nd : TopoNode) :
    (mergeNode nodes nd).contains id = true ↔
      nodes.contains id = true ∨ nd.nodeId ≠ "" ∧ id = nd.nodeId := by
  unfold mergeNode
  split
  · rename_i hnew
    rw [contains_set, and_iff_right hnew.1]
  · rename_i hold
    constructor
    · exact Or.inl
    · rintro (h | ⟨hne, rfl⟩)
      · exact h
      · exact Bool.eq_true_of_not_eq_false fun hnot => hold ⟨hne, hnot⟩

/-- A node that runs `netinfo`, under its own id. -/
def Described (nodes : Dict String TopoNode) : Prop :=
  ∀ id nd, nodes.get id = some nd →
    nd.nodeId = id ∧ nd.role = ROLE_NODE ∧ "netinfo" ∈ nd.services

theorem described_mergeNode (h : Described nodes) {nd : TopoNode} (hrole : nd.role = ROLE_NODE)
    (hnet : "netinfo" ∈ nd.services) : Described (mergeNode nodes nd) := by
  unfold mergeNode
  split
  · exact Dict.forall_get_set h ⟨rfl, hrole, hnet⟩
  · exact h

/-- What a map has to be for its edges to be shown as they are reported. -/
structure Sane (m : TopoMap) : Prop where
  full : Full m.edges
  described : Described m.nodes
  ends : ∀ s d rep, m.edges.get (s, d) = some rep →
    m.nodes.contains s = true ∧ m.nodes.contains d = true

theorem mem_edges_serialize {own : String} {row : EdgeRow} :
    row ∈ (serialize own m).edges ↔
      ∃ s d rep, m.edges.get (s, d) = some rep ∧ row = edgeRow m.nodes ((s, d), rep) := by
  show row ∈ ((m.edges.items.map (edgeRow m.nodes)).mergeSort _) ↔ _
  rw [List.mem_mergeSort, List.mem_map]
  constructor
  · rintro ⟨⟨⟨s, d⟩, rep⟩, hmem, rfl⟩
    exact ⟨s, d, rep, m.edges.mem_items_iff.mp hmem, rfl⟩
  · rintro ⟨s, d, rep, hget, rfl⟩
    exact ⟨((s, d), rep), m.edges.mem_items_iff.mpr hget, rfl⟩

/-- In a sane map nobody is a client, and every node is shown. -/
theorem mem_nodes_serialize (h : Sane m) {own : String} {nd : TopoNode} :
    nd ∈ (serialize own m).nodes ++ (serialize own m).clients ↔
      m.nodes.get nd.nodeId = some nd := by
  have hall : nd ∈ (serialize own m).nodes ++ (serialize own m).clients ↔ nd ∈ m.nodes.values := by
    show nd ∈ List.filter _ (m.nodes.values.mergeSort _) ++ List.filter _ (m.nodes.values.mergeSort _)
      ↔ _
    rw [List.mem_append, List.mem_filter, List.mem_filter, List.mem_mergeSort, ← and_or_left,
      decide_eq_true_eq, decide_eq_true_eq]
    exact and_iff_left (em _)
  rw [hall, Dict.mem_values_iff]
  constructor
  · rintro ⟨id, hget⟩
    rw [(h.described id nd hget).1]
    exact hget
  · intro hget
    exact ⟨nd.nodeId, hget⟩

theorem mem_reportedBy_edgeRow {s d x : String} {rep : Finset String} :
    x ∈ (edgeRow nodes ((s, d), rep)).reportedBy ↔ x ∈ rep := Finset.mem_sort _

/-- Both ends are nodes with `netinfo`: both have to report. -/
theorem verified_edgeRow (h : Sane m) {s d : String} {rep : Finset String}
    (hget : m.edges.get (s, d) = some rep) :
    (edgeRow m.nodes ((s, d), rep)).verified = true ↔ s ∈ rep ∧ d ∈ rep := by
  have hbridge : ∀ id, m.nodes.contains id = true → isBridge m.nodes id = false := by
    intro id hid
    obtain ⟨nd, hnd⟩ := contains_iff.mp hid
    unfold isBridge
    rw [hnd, decide_eq_false_iff_not, not_not]
    exact (h.described id nd hnd).2.2
  obtain ⟨hs, hd⟩ := h.ends s d rep hget
  show (decide (s ∈ rep ∧ d ∈ rep) || (decide (s ∈ rep) && isBridge m.nodes d) ||
    (decide (d ∈ rep) && isBridge m.nodes s)) = true ↔ _
  rw [hbridge s hs, hbridge d hd, Bool.and_false, Bool.and_false, Bool.or_false, Bool.or_false,
    decide_eq_true_eq]

/-- The edges have ends with names. -/
def Named (edges : Dict (String × String) (Finset String)) : Prop :=
  ∀ s d rep, edges.get (s, d) = some rep → s ≠ "" ∧ d ≠ ""

variable {sub : TopoMap} {n : String}

/-- **A reply adds its reports**, and no others. -/
theorem reported_mergeReply (hnamed : Named sub.edges) {s d x : String} :
    Reported (mergeReply m (n, .ok (serialize n sub))).edges s d x ↔
      Reported m.edges s d x ∨ Reported sub.edges s d x := by
  show Reported ((serialize n sub).edges.foldl mergeEdge m.edges) s d x ↔ _
  rw [foldl_adds (P := fun edges => Reported edges s d x) (fun _ ed => reported_mergeEdge ed)]
  apply or_congr_right
  constructor
  · rintro ⟨ed, hed, -, rfl, rfl, hx⟩
    obtain ⟨s, d, rep, hget, rfl⟩ := mem_edges_serialize.mp hed
    exact ⟨rep, hget, mem_reportedBy_edgeRow.mp hx⟩
  · rintro ⟨rep, hget, hx⟩
    refine ⟨edgeRow sub.nodes ((s, d), rep), mem_edges_serialize.mpr ⟨s, d, rep, hget, rfl⟩,
      hnamed s d rep hget, rfl, rfl, mem_reportedBy_edgeRow.mpr hx⟩

theorem contains_mergeReply (hsub : Sane sub) :
    (mergeReply m (n, .ok (serialize n sub))).nodes.contains id = true ↔
      m.nodes.contains id = true ∨ id ≠ "" ∧ sub.nodes.contains id = true := by
  show (((serialize n sub).nodes ++ (serialize n sub).clients).foldl mergeNode m.nodes).contains id =
    true ↔ _
  rw [foldl_adds (P := fun nodes : Dict String TopoNode => nodes.contains id = true)
    (fun _ nd => contains_mergeNode nd)]
  apply or_congr_right
  constructor
  · rintro ⟨nd, hnd, hne, rfl⟩
    exact ⟨hne, contains_iff.mpr ⟨nd, (mem_nodes_serialize hsub).mp hnd⟩⟩
  · rintro ⟨hne, hin⟩
    obtain ⟨nd, hnd⟩ := contains_iff.mp hin
    have hid := (hsub.described id nd hnd).1
    exact ⟨nd, (mem_nodes_serialize hsub).mpr (hid ▸ hnd), hid ▸ hne, hid.symm⟩

/-- **A reply keeps a map sane**, when it was made from a sane map. -/
theorem sane_mergeReply (hm : Sane m) (hsub : Sane sub) (hnamed : Named sub.edges) :
    Sane (mergeReply m (n, .ok (serialize n sub))) := by
  have hfull : Full (mergeReply m (n, .ok (serialize n sub))).edges := by
    refine List.foldlRecOn (motive := Full) _ mergeEdge hm.full fun edges h ed hed => ?_
    obtain ⟨s, d, rep, hget, rfl⟩ := mem_edges_serialize.mp hed
    obtain ⟨x, hx⟩ := hsub.full (s, d) rep hget
    exact full_mergeEdge h (List.ne_nil_of_mem (mem_reportedBy_edgeRow.mpr hx))
  refine ⟨hfull, ?_, ?_⟩
  · refine List.foldlRecOn (motive := Described) _ mergeNode hm.described fun nodes h nd hnd => ?_
    obtain ⟨-, hrole, hnet⟩ := hsub.described _ nd ((mem_nodes_serialize hsub).mp hnd)
    exact described_mergeNode h hrole hnet
  · intro s d rep hget
    -- some end has reported the edge, here or in the reply, and there both ends are nodes
    obtain ⟨x, hx⟩ := hfull (s, d) rep hget
    rw [contains_mergeReply hsub, contains_mergeReply hsub]
    rcases (reported_mergeReply hnamed).mp ⟨rep, hget, hx⟩ with ⟨rep', hget', -⟩ | ⟨rep', hget', -⟩
    · obtain ⟨hs, hd⟩ := hm.ends s d rep' hget'
      exact ⟨Or.inl hs, Or.inl hd⟩
    · obtain ⟨hs, hd⟩ := hsub.ends s d rep' hget'
      obtain ⟨hsne, hdne⟩ := hnamed s d rep' hget'
      exact ⟨Or.inr ⟨hsne, hs⟩, Or.inr ⟨hdne, hd⟩⟩

end Maps

/-! ## §5 A mesh that does not change -/

section Mesh

variable [Canon]


/-- The nodes at the two ends of a channel, whatever its direction. -/
def links (channel : String → String → Prop) : SimpleGraph String := SimpleGraph.fromRel channel

/-- Every node knows its channels, and every row says what its node is: a node of role `node` that
runs `netinfo`. Ids are canonical and, as the configuration has it, not empty; no call fails. -/
structure Static (M : Network) (channel : String → String → Prop) : Prop where
  outbound : ∀ a b, b ∈ (M.net a).clientWs ↔ channel a b
  inbound : ∀ a b, b ∈ (M.net a).managed ↔ channel b a
  connected : ∀ a b,
    (∃ i, (M.net a).neighborTable.table.get b = some i ∧ i.status = .connected) ↔
      channel a b ∨ channel b a
  keyed : ∀ a key i, (M.net a).neighborTable.table.get key = some i →
    i.nodeId = key ∧ canon key = key
  rows : ∀ a key i, (M.net a).neighborTable.table.get key = some i →
    i.role = ROLE_NODE ∧ "netinfo" ∈ i.services
  own : ∀ a, "netinfo" ∈ (M.net a).services
  named : ∀ a b, channel a b → a ≠ "" ∧ b ≠ ""
  calls : ∀ a b, M.callError a b = none

variable {M : Network} {channel : String → String → Prop}

namespace Static

/-- The rows of a node, by id. -/
theorem mem_rows (h : Static M channel) {a : String} {row : SessionRow} :
    row ∈ (M.net a).localSessions ↔
      (M.net a).neighborTable.table.get row.info.nodeId = some row.info ∧
        row.direction = (M.net a).direction row.info.nodeId := by
  unfold Net.localSessions NeighborTable.all
  rw [List.mem_map]
  constructor
  · rintro ⟨i, hi, rfl⟩
    obtain ⟨key, hget⟩ := (Dict.mem_values_iff _).mp hi
    exact ⟨(h.keyed a key i hget).1 ▸ hget, rfl⟩
  · rintro ⟨hget, hdir⟩
    exact ⟨row.info, (Dict.mem_values_iff _).mpr ⟨_, hget⟩, by rw [← hdir]⟩

/-- What the direction of a row says. -/
theorem direction_iff (h : Static M channel) {a b : String} (hb : canon b = b) :
    (((M.net a).direction b).hasOutbound = true ↔ channel a b) ∧
      (((M.net a).direction b).hasInbound = true ↔ channel b a) := by
  have hout : (M.net a).hasClientWs b = true ↔ channel a b := by
    unfold Net.hasClientWs
    rw [hb, decide_eq_true_eq, h.outbound]
  have hin : (M.net a).hasNode b = true ↔ channel b a := by
    unfold Net.hasNode
    rw [hb, decide_eq_true_eq, h.inbound]
  rw [← hout, ← hin]
  unfold Net.direction
  cases (M.net a).hasClientWs b with
  | true =>
      cases (M.net a).hasNode b with
      | true => decide
      | false => decide
  | false =>
      cases (M.net a).hasNode b with
      | true => decide
      | false => decide

/-- There is a row for each end of a channel. -/
theorem exists_row (h : Static M channel) {a b : String} (hlink : channel a b ∨ channel b a) :
    ∃ row ∈ (M.net a).localSessions, row.info.nodeId = b ∧ canon b = b ∧
      row.direction = (M.net a).direction b := by
  obtain ⟨i, hget, -⟩ := (h.connected a b).mpr hlink
  obtain ⟨hid, hcanon⟩ := h.keyed a b i hget
  exact ⟨⟨i, (M.net a).direction b⟩, h.mem_rows.mpr ⟨hid ▸ hget, hid ▸ rfl⟩, hid, hcanon, rfl⟩

/-- **A node reports its own channels**, and no others. -/
theorem reported_localEdges (h : Static M channel) {own s d x : String} :
    Reported ((M.net own).localEdges own) s d x ↔
      x = own ∧ channel s d ∧ (s = own ∨ d = own) := by
  unfold Net.localEdges
  rw [foldl_adds (P := fun edges => Reported edges s d x) (fun _ row => reported_addRow own row),
    or_iff_right not_reported_empty]
  constructor
  · rintro ⟨row, hrow, hx, hcase⟩
    obtain ⟨hget, hdir⟩ := h.mem_rows.mp hrow
    obtain ⟨hout, hin⟩ := h.direction_iff (a := own) (h.keyed own _ _ hget).2
    rw [← hdir] at hout hin
    rcases hcase with ⟨hd, rfl, rfl⟩ | ⟨hd, rfl, rfl⟩
    · exact ⟨hx, hout.mp hd, Or.inl rfl⟩
    · exact ⟨hx, hin.mp hd, Or.inr rfl⟩
  · rintro ⟨hx, hchan, rfl | rfl⟩
    · obtain ⟨row, hrow, hid, hcanon, hdir⟩ := h.exists_row (Or.inl hchan)
      refine ⟨row, hrow, hx, Or.inl ⟨?_, rfl, hid.symm⟩⟩
      rw [hdir]
      exact (h.direction_iff hcanon).1.mpr hchan
    · obtain ⟨row, hrow, hid, hcanon, hdir⟩ := h.exists_row (Or.inr hchan)
      refine ⟨row, hrow, hx, Or.inr ⟨?_, hid.symm, rfl⟩⟩
      rw [hdir]
      exact (h.direction_iff hcanon).2.mpr hchan

theorem full_localEdges (net : Net) (own : String) : Full (net.localEdges own) := by
  refine List.foldlRecOn (motive := Full) _ (addRow own) ?_ fun edges hfull row _ =>
    full_addRow hfull
  intro key rep hrep
  cases hrep

theorem contains_localNodes {own id : String} :
    ((M.net own).localNodes own).contains id = true ↔
      id = own ∨ ∃ row ∈ (M.net own).localSessions, id = row.info.nodeId := by
  unfold Net.localNodes
  rw [contains_set, foldl_adds (P := fun nodes : Dict String TopoNode => nodes.contains id = true)
    (fun nodes row =>
      (contains_set : (nodes.set row.info.nodeId (rowNode row)).contains id = true ↔ _)), or_comm]
  apply or_congr_right
  rw [or_iff_right]
  exact Bool.false_ne_true

/-- What a node knows by itself is a sane map. -/
theorem sane_local (h : Static M channel) (own : String) :
    Sane ⟨(M.net own).localNodes own, (M.net own).localEdges own, Dict.empty⟩ where
  full := full_localEdges (M.net own) own
  described := by
    have hrows : Described ((M.net own).localSessions.foldl
        (fun nodes row => nodes.set row.info.nodeId (rowNode row)) Dict.empty) := by
      refine List.foldlRecOn (motive := Described) _ _ ?_ fun nodes hd row hrow => ?_
      · intro id nd hnd
        cases hnd
      · have hget := (h.mem_rows.mp hrow).1
        exact Dict.forall_get_set hd ⟨rfl, h.rows own _ _ hget⟩
    exact Dict.forall_get_set hrows ⟨rfl, rfl, h.own own⟩
  ends := by
    intro s d rep hget
    obtain ⟨x, hx⟩ := full_localEdges (M.net own) own (s, d) rep hget
    obtain ⟨-, hchan, hend⟩ := h.reported_localEdges.mp ⟨rep, hget, hx⟩
    have hpeer {b : String} (hlink : channel own b ∨ channel b own) :
        ((M.net own).localNodes own).contains b = true := by
      obtain ⟨row, hrow, hid, -⟩ := h.exists_row hlink
      exact contains_localNodes.mpr (Or.inr ⟨row, hrow, hid.symm⟩)
    have hown : ((M.net own).localNodes own).contains own = true :=
      contains_localNodes.mpr (Or.inl rfl)
    rcases hend with rfl | rfl
    · exact ⟨hown, hpeer (Or.inl hchan)⟩
    · exact ⟨hpeer (Or.inr hchan), hown⟩

/-- Every row of the table names the service. -/
theorem netinfo_mem_svcSets (h : Static M channel) {own : String} {row : SessionRow}
    (hrow : row ∈ (M.net own).localSessions) :
    "netinfo" ∈ ((M.net own).svcSets.get row.info.nodeId).getD [] := by
  have hall : ∀ id services, (M.net own).svcSets.get id = some services →
      "netinfo" ∈ services := by
    refine List.foldlRecOn (motive := fun d : Dict String (List String) =>
      ∀ id services, d.get id = some services → "netinfo" ∈ services) _ _ ?_ fun d hd row hrow => ?_
    · intro id services hget
      cases hget
    · exact Dict.forall_get_set hd (h.rows own _ _ (h.mem_rows.mp hrow).1).2
  have hin : (M.net own).svcSets.contains row.info.nodeId = true := by
    unfold Net.svcSets
    rw [foldl_adds
      (P := fun d : Dict String (List String) => d.contains row.info.nodeId = true)
      (fun d r => (contains_set :
        (d.set r.info.nodeId r.info.services).contains row.info.nodeId = true ↔ _))]
    exact Or.inr ⟨row, hrow, rfl⟩
  obtain ⟨services, hget⟩ := contains_iff.mp hin
  rw [hget]
  exact hall _ _ hget

/-- **The neighbours that are asked** are those at the other ends of the own channels that do not lie
above. -/
theorem exists_target (h : Static M channel) {own : String} {visited : Finset String}
    {P : String → Prop} :
    (∃ n ∈ (M.net own).targets (insert own visited), P n.nodeId) ↔
      ∃ b, (links channel).Adj own b ∧ b ∉ insert own (visited : Set String) ∧ P b := by
  have hlinks (b : String) : (links channel).Adj own b ↔
      own ≠ b ∧ (channel own b ∨ channel b own) := SimpleGraph.fromRel_adj channel own b
  have hvisited (b : String) : b ∉ insert own visited ↔ b ∉ insert own (visited : Set String) := by
    rw [← Finset.coe_insert, Finset.mem_coe]
  constructor
  · rintro ⟨n, hn, hP⟩
    obtain ⟨hconn, hkeep⟩ := List.mem_filter.mp hn
    obtain ⟨-, hnew, -⟩ := of_decide_eq_true hkeep
    obtain ⟨hvalue, hstatus⟩ := List.mem_filter.mp hconn
    obtain ⟨key, hget⟩ := (Dict.mem_values_iff _).mp hvalue
    obtain ⟨hid, -⟩ := h.keyed own key n hget
    have hchan := (h.connected own key).mp ⟨n, hget, of_decide_eq_true hstatus⟩
    refine ⟨n.nodeId, (hlinks _).mpr ⟨?_, hid ▸ hchan⟩, (hvisited _).mp hnew, hP⟩
    rintro heq
    exact hnew (heq ▸ Finset.mem_insert_self own visited)
  · rintro ⟨b, hadj, hnew, hP⟩
    obtain ⟨i, hget, hstatus⟩ := (h.connected own b).mpr ((hlinks b).mp hadj).2
    obtain ⟨hid, -⟩ := h.keyed own b i hget
    have hrow : (⟨i, (M.net own).direction i.nodeId⟩ : SessionRow) ∈ (M.net own).localSessions :=
      h.mem_rows.mpr ⟨hid ▸ hget, rfl⟩
    refine ⟨i, List.mem_filter.mpr ⟨List.mem_filter.mpr ⟨(Dict.mem_values_iff _).mpr ⟨b, hget⟩,
      decide_eq_true hstatus⟩, decide_eq_true ⟨(h.rows own b i hget).1, ?_, ?_⟩⟩, hid ▸ hP⟩
    · rw [hid]
      exact (hvisited b).mpr hnew
    · exact h.netinfo_mem_svcSets hrow

/-! ## §6 The recursion -/

/-- The map of a node: sane, and each channel is reported by those of its ends that the search
meets. -/
structure Mapped (channel : String → String → Prop) (k : ℕ) (own : String)
    (visited : Finset String) (m : TopoMap) : Prop where
  sane : Sane m
  reported : ∀ s d x, Reported m.edges s d x ↔
    channel s d ∧ (x = s ∨ x = d) ∧ Met (links channel) k own visited x

theorem Mapped.named (h : Static M channel) {k : ℕ} {own : String} {visited : Finset String}
    {m : TopoMap} (hm : Mapped channel k own visited m) : Named m.edges := by
  intro s d rep hget
  obtain ⟨x, hx⟩ := hm.sane.full (s, d) rep hget
  exact h.named s d ((hm.reported s d x).mp ⟨rep, hget, hx⟩).1

theorem mapped_zero (h : Static M channel) (own : String) (visited : Finset String) :
    Mapped channel 0 own visited (collect M 0 own visited) where
  sane := h.sane_local own
  reported s d x := by
    show Reported ((M.net own).localEdges own) s d x ↔ channel s d ∧ (x = s ∨ x = d) ∧ x = own
    rw [h.reported_localEdges]
    constructor
    · rintro ⟨rfl, hchan, hend⟩
      exact ⟨hchan, hend.imp Eq.symm Eq.symm, rfl⟩
    · rintro ⟨hchan, hend, rfl⟩
      exact ⟨rfl, hchan, hend.imp Eq.symm Eq.symm⟩

theorem collect_succ (h : Static M channel) (k : ℕ) (own : String) (visited : Finset String) :
    collect M (k + 1) own visited =
      ((M.net own).targets (insert own visited)).foldl
        (fun m n => mergeReply m
          (n.nodeId, .ok (serialize n.nodeId (collect M k n.nodeId (insert own visited)))))
        ⟨(M.net own).localNodes own, (M.net own).localEdges own, Dict.empty⟩ := by
  rw [collect, List.foldl_map]
  simp only [h.calls]

/-- **The map of every node**, at every depth. -/
theorem mapped_collect (h : Static M channel) (k : ℕ) (own : String) (visited : Finset String) :
    Mapped channel k own visited (collect M k own visited) := by
  induction k generalizing own visited with
  | zero => exact h.mapped_zero own visited
  | succ k ih =>
      have hnamed (n : NeighborInfo) :
          Named (collect M k n.nodeId (insert own visited)).edges := (ih _ _).named h
      rw [h.collect_succ]
      constructor
      · exact List.foldlRecOn (motive := Sane) _ _ (h.sane_local own) fun m hm n _ =>
          sane_mergeReply hm (ih _ _).sane (hnamed n)
      · intro s d x
        rw [foldl_adds (P := fun m : TopoMap => Reported m.edges s d x)
          (fun _ n => reported_mergeReply (hnamed n))]
        rw [h.reported_localEdges, h.exists_target
          (P := fun b => Reported (collect M k b (insert own visited)).edges s d x)]
        simp only [(ih _ _).reported, Finset.coe_insert]
        constructor
        · rintro (⟨rfl, hchan, hend⟩ | ⟨b, hadj, hnew, hchan, hend, hmet⟩)
          · exact ⟨hchan, hend.imp Eq.symm Eq.symm, met_self _ _ _⟩
          · exact ⟨hchan, hend, Or.inr ⟨b, hadj, hnew, hmet⟩⟩
        · rintro ⟨hchan, hend, rfl | ⟨b, hadj, hnew, hmet⟩⟩
          · exact Or.inl ⟨rfl, hchan, hend.imp Eq.symm Eq.symm⟩
          · exact Or.inr ⟨b, hadj, hnew, hchan, hend, hmet⟩

end Static

/-! ## §7 The answer -/

/-- A snapshot for a depth: an edge for each channel with an end near enough to the root, verified
when both ends are. -/
structure ExactMap (channel : String → String → Prop) (root : String) (t : ℕ) (snap : Snapshot) :
    Prop where
  edge : ∀ s d, (∃ row ∈ snap.edges, row.src = s ∧ row.dst = d) ↔
    channel s d ∧ ((links channel).edist root s ≤ (t - 1 : ℕ) ∨
      (links channel).edist root d ≤ (t - 1 : ℕ))
  verified : ∀ row ∈ snap.edges, row.verified = true ↔
    (links channel).edist root row.src ≤ (t - 1 : ℕ) ∧
      (links channel).edist root row.dst ≤ (t - 1 : ℕ)

/-- The map of a root that nothing lies above is exact. -/
theorem exactMap_serialize (h : Static M channel) (root : String) (t : ℕ) :
    ExactMap channel root t (serialize root (collect M (t - 1) root ∅)) := by
  have hmapped := h.mapped_collect (t - 1) root ∅
  have hreported : ∀ s d x, Reported (collect M (t - 1) root ∅).edges s d x ↔
      channel s d ∧ (x = s ∨ x = d) ∧ (links channel).edist root x ≤ (t - 1 : ℕ) := by
    intro s d x
    rw [hmapped.reported, Finset.coe_empty, met_empty_iff]
  constructor
  · intro s d
    constructor
    · rintro ⟨row, hrow, rfl, rfl⟩
      obtain ⟨s, d, rep, hget, rfl⟩ := mem_edges_serialize.mp hrow
      obtain ⟨x, hx⟩ := hmapped.sane.full (s, d) rep hget
      obtain ⟨hchan, hend, hnear⟩ := (hreported s d x).mp ⟨rep, hget, hx⟩
      refine ⟨hchan, ?_⟩
      rcases hend with rfl | rfl
      · exact Or.inl hnear
      · exact Or.inr hnear
    · rintro ⟨hchan, hnear⟩
      have hedge : ∃ x, Reported (collect M (t - 1) root ∅).edges s d x := by
        rcases hnear with hnear | hnear
        · exact ⟨s, (hreported s d s).mpr ⟨hchan, Or.inl rfl, hnear⟩⟩
        · exact ⟨d, (hreported s d d).mpr ⟨hchan, Or.inr rfl, hnear⟩⟩
      obtain ⟨x, rep, hget, -⟩ := hedge
      exact ⟨_, mem_edges_serialize.mpr ⟨s, d, rep, hget, rfl⟩, rfl, rfl⟩
  · intro row hrow
    obtain ⟨s, d, rep, hget, rfl⟩ := mem_edges_serialize.mp hrow
    have hreporter (x : String) : x ∈ rep ↔
        channel s d ∧ (x = s ∨ x = d) ∧ (links channel).edist root x ≤ (t - 1 : ℕ) := by
      rw [← hreported]
      unfold Reported
      simp only [hget, Option.some.injEq, exists_eq_left']
    obtain ⟨x, hx⟩ := hmapped.sane.full (s, d) rep hget
    have hchan : channel s d := ((hreporter x).mp hx).1
    rw [verified_edgeRow hmapped.sane hget, hreporter, hreporter]
    show _ ↔ (links channel).edist root s ≤ (t - 1 : ℕ) ∧ (links channel).edist root d ≤ (t - 1 : ℕ)
    simp only [hchan, true_and, true_or, or_true]

/-- What is kept is an exact answer to a full request. -/
def CacheExact (channel : String → String → Prop) (root : String)
    (cache : Option (Time × Snapshot)) : Prop :=
  ∀ kept, cache = some kept → ExactMap channel root 4 kept.2

/-- One request: the answer to a request without visited nodes is exact, and what is kept stays so. -/
theorem topology_step (h : Static M channel) {root : String} {cache : Option (Time × Snapshot)}
    (hcache : CacheExact channel root cache) (data : TopoRequest) (now done : Time) :
    (∀ t : ℕ, 1 ≤ t → t ≤ 6 → data = ⟨some t, ∅⟩ →
      ExactMap channel root t (topology M root cache data now done).1) ∧
      CacheExact channel root (topology M root cache data now done).2 := by
  unfold topology
  dsimp only
  cases hkept : cache.filter fun c =>
      (data.visited = ∅ ∧ data.ttl.getD 4 = 4) ∧ now - c.1 < TOPO_CACHE_TTL with
  | some kept =>
      obtain ⟨hsome, hfresh⟩ := Option.filter_eq_some_iff.mp hkept
      refine ⟨?_, hcache⟩
      rintro t - - rfl
      have hfull : (t : Int) = 4 := (of_decide_eq_true hfresh).1.2
      obtain ⟨hedge, hverified⟩ := hcache kept hsome
      obtain rfl : t = 4 := by omega
      exact ⟨hedge, hverified⟩
  | none =>
      constructor
      · rintro t hlow hhigh rfl
        have hdepth : (max 1 (min (t : Int) TOPO_MAX_TTL)).toNat - 1 = t - 1 := by
          unfold TOPO_MAX_TTL
          omega
        show ExactMap channel root t
          (serialize root (collect M ((max 1 (min (t : Int) TOPO_MAX_TTL)).toNat - 1) root ∅))
        rw [hdepth]
        exact exactMap_serialize h root t
      · intro kept hkeep
        dsimp only at hkeep
        split at hkeep
        · rename_i hfull
          cases hkeep
          rw [hfull.1, hfull.2]
          exact exactMap_serialize h root 4
        · exact hcache kept hkeep

/-- The cache after a history of requests. -/
def cacheAfter (M : Network) (own : String) (history : List (TopoRequest × Time × Time)) :
    Option (Time × Snapshot) :=
  history.foldl (fun cache r => (topology M own cache r.1 r.2.1 r.2.2).2) none

theorem cacheExact_after (h : Static M channel) (root : String)
    (history : List (TopoRequest × Time × Time)) :
    CacheExact channel root (cacheAfter M root history) := by
  refine List.foldlRecOn (motive := CacheExact channel root) _ _ ?_ fun cache hcache r _ =>
    (topology_step h hcache r.1 r.2.1 r.2.2).2
  intro kept hkept
  cases hkept

/-- **The map is exact.** In a mesh that does not change, and after any requests, a request for a
depth from 1 to 6 and without visited nodes is answered with an edge for each channel that has an end
at a distance of at most `t - 1`, verified exactly when both ends are that near. -/
theorem topology_exact (h : Static M channel) (root : String)
    (history : List (TopoRequest × Time × Time)) {t : ℕ} (hlow : 1 ≤ t) (hhigh : t ≤ 6)
    (now done : Time) :
    ExactMap channel root t
      (topology M root (cacheAfter M root history) ⟨some t, ∅⟩ now done).1 :=
  (topology_step h (cacheExact_after h root history) _ now done).1 t hlow hhigh rfl

/-! ## §8 Meshes for a list of channels -/

/-- The row of a neighbour. -/
def peerRow (nodeId : String) : NeighborInfo where
  nodeId := nodeId
  host := ""
  port := 9000
  status := .connected
  via := none
  hops := 1
  lastTs := 0
  sessionId := none
  version := PROTOCOL_VERSION
  services := ["netinfo"]
  role := ROLE_NODE

/-- The mesh that has just these channels, and at every node a row for each neighbour. -/
def meshOf (channels : List (String × String)) : Network where
  net own :=
    let outbound := (channels.filter fun c => c.1 = own).map Prod.snd
    let inbound := (channels.filter fun c => c.2 = own).map Prod.fst
    { neighborTable :=
        { NeighborTable.init own with
          table := (outbound ++ inbound).foldl (fun d b => d.set b (peerRow b)) Dict.empty }
      clientWs := outbound
      managed := inbound
      localIp := ""
      port := 9000
      services := ["netinfo"] }
  callError _ _ := none

/-- Every list of channels between canonical ids has such a mesh. -/
theorem static_meshOf {channels : List (String × String)}
    (hids : ∀ c ∈ channels, (canon c.1 = c.1 ∧ c.1 ≠ "") ∧ canon c.2 = c.2 ∧ c.2 ≠ "") :
    Static (meshOf channels) fun a b => (a, b) ∈ channels := by
  have hout (a b : String) :
      b ∈ (channels.filter fun c => c.1 = a).map Prod.snd ↔ (a, b) ∈ channels := by
    simp only [List.mem_map, List.mem_filter, decide_eq_true_eq]
    constructor
    · rintro ⟨⟨_, _⟩, ⟨hmem, rfl⟩, rfl⟩
      exact hmem
    · intro hmem
      exact ⟨(a, b), ⟨hmem, rfl⟩, rfl⟩
  have hin (a b : String) :
      b ∈ (channels.filter fun c => c.2 = a).map Prod.fst ↔ (b, a) ∈ channels := by
    simp only [List.mem_map, List.mem_filter, decide_eq_true_eq]
    constructor
    · rintro ⟨⟨_, _⟩, ⟨hmem, rfl⟩, rfl⟩
      exact hmem
    · intro hmem
      exact ⟨(b, a), ⟨hmem, rfl⟩, rfl⟩
  have hrow (a b : String) : ((meshOf channels).net a).neighborTable.table.contains b = true ↔
      (a, b) ∈ channels ∨ (b, a) ∈ channels := by
    show (List.foldl (fun (d : Dict String NeighborInfo) b => d.set b (peerRow b)) Dict.empty
      _).contains b = true ↔ _
    rw [foldl_adds (P := fun d : Dict String NeighborInfo => d.contains b = true)
      (fun d b' => (contains_set : (d.set b' (peerRow b')).contains b = true ↔ _)), or_iff_right]
    · simp only [exists_eq_right', List.mem_append, hout, hin]
    · exact Bool.false_ne_true
  have hentry (a : String) : ∀ key i,
      ((meshOf channels).net a).neighborTable.table.get key = some i → i = peerRow key := by
    refine List.foldlRecOn (motive := fun d : Dict String NeighborInfo =>
      ∀ key i, d.get key = some i → i = peerRow key) _ _ ?_ fun d hd b _ => ?_
    · intro key i hget
      cases hget
    · exact Dict.forall_get_set hd rfl
  have hpeer (a key : String) (i : NeighborInfo)
      (hget : ((meshOf channels).net a).neighborTable.table.get key = some i) :
      i = peerRow key ∧ canon key = key := by
    refine ⟨hentry a key i hget, ?_⟩
    rcases (hrow a key).mp (contains_iff.mpr ⟨i, hget⟩) with hmem | hmem
    · exact (hids _ hmem).2.1
    · exact (hids _ hmem).1.1
  refine ⟨hout, hin, ?_, ?_, ?_, ?_, ?_, fun _ _ => rfl⟩
  · intro a b
    rw [← hrow]
    constructor
    · rintro ⟨i, hget, -⟩
      exact contains_iff.mpr ⟨i, hget⟩
    · intro hknown
      obtain ⟨i, hget⟩ := contains_iff.mp hknown
      refine ⟨i, hget, ?_⟩
      rw [(hpeer a b i hget).1]
      rfl
  · intro a key i hget
    obtain ⟨rfl, hcanon⟩ := hpeer a key i hget
    exact ⟨rfl, hcanon⟩
  · intro a key i hget
    obtain ⟨rfl, -⟩ := hpeer a key i hget
    exact ⟨rfl, List.mem_singleton.mpr rfl⟩
  · intro a
    exact List.mem_singleton.mpr rfl
  · intro a b hmem
    exact ⟨(hids _ hmem).1.2, (hids _ hmem).2.2⟩

end Mesh

attribute [local instance] asciiCanon

/-- Three nodes in a row, asked from the first one for a depth of 2: the second channel is half-way
confirmed. -/
theorem topology_exact_chain :
    Static (meshOf [("a", "b"), ("b", "c")]) (fun a b => (a, b) ∈ [("a", "b"), ("b", "c")]) ∧
      ExactMap (fun a b => (a, b) ∈ [("a", "b"), ("b", "c")]) "a" 2
        (topology (meshOf [("a", "b"), ("b", "c")]) "a" none ⟨some 2, ∅⟩ 0 0).1 := by
  have hstatic : Static (meshOf [("a", "b"), ("b", "c")])
      (fun a b => (a, b) ∈ [("a", "b"), ("b", "c")]) := static_meshOf (by decide)
  exact ⟨hstatic, topology_exact (t := 2) hstatic "a" [] (by decide) (by decide) 0 0⟩

end NetPulse.Mesh.Topology
