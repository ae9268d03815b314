import NetPulse.Lib.Machine
import NetPulse.Mesh.NeighborTable

/-
# NetPulse.Mesh.NeighborInvariant — what every reachable neighbour table satisfies

The table promises its readers two things (`Representable`): a `known` entry names the next hop to
its node, and a `connected` entry is one hop away. The router relies on the first when it forwards a
pack to a node it has no channel to.

`EntryOk` is the inductive strengthening, entry by entry. Its clause `direct` says what an entry
without a via is: the trace of a direct channel, at distance one, and not `known`. All operations
keep it but one. The last branch of `merge_gossip` revives an unreachable entry and leaves its route
alone, so a former direct neighbour becomes `known` with no via (`revivesDirect`). The main result
`representable_iff` says that this is the only way out: along a run the table is `Representable`
throughout exactly when no merged entry takes that branch.
-/

namespace NetPulse.Mesh

open NetPulse.Lib NeighborTable

section Tables

variable [Canon]

/-! ## §1 The invariant of one entry -/

/-- What holds of the entry stored under `key` in the table of node `own`. -/
structure EntryOk (own key : String) (i : NeighborInfo) : Prop where
  keyed : i.nodeId = key
  canonical : canon key = key
  hops_pos : 1 ≤ i.hops
  one_hop : i.status = .connected → i.hops = 1
  route : ∀ v, i.via = some v → v ≠ "" ∧ v ≠ own ∧ v ≠ key
  direct : i.via = none → i.hops = 1 ∧ i.status ≠ .known

/-- Every entry is as `EntryOk` says. -/
def DictOk (own : String) (d : Dict String NeighborInfo) : Prop :=
  ∀ key i, d.get key = some i → EntryOk own key i

/-- The invariant of a table. -/
def TableOk (t : NeighborTable) : Prop := DictOk t.ownNodeId t.table

/-- **What readers of the table rely on.** -/
structure Representable (t : NeighborTable) : Prop where
  known_via : ∀ key i, t.table.get key = some i → i.status = .known →
    ∃ v, i.via = some v ∧ v ≠ t.ownNodeId ∧ v ≠ i.nodeId
  known_next : ∀ key i, t.table.get key = some i → i.status = .known → i.nextHop.isSome
  connected_hops : ∀ key i, t.table.get key = some i → i.status = .connected → i.hops = 1

theorem TableOk.representable {t : NeighborTable} (h : TableOk t) : Representable t := by
  have hvia : ∀ key i, t.table.get key = some i → i.status = .known →
      ∃ v, i.via = some v ∧ v ≠ "" ∧ v ≠ t.ownNodeId ∧ v ≠ key := by
    intro key i hi hk
    have hok := h key i hi
    cases hv : i.via with
    | none => exact absurd hk (hok.direct hv).2
    | some v => exact ⟨v, rfl, hok.route v hv⟩
  refine ⟨?_, ?_, fun key i hi hc => (h key i hi).one_hop hc⟩
  · intro key i hi hk
    obtain ⟨v, hv, _, hown, hkey⟩ := hvia key i hi hk
    exact ⟨v, hv, hown, by rw [(h key i hi).keyed]; exact hkey⟩
  · intro key i hi hk
    obtain ⟨v, hv, hne, _⟩ := hvia key i hi hk
    rw [nextHop_of_via hv hne]
    rfl

theorem EntryOk.unreachable {own key : String} {i : NeighborInfo} (h : EntryOk own key i) :
    EntryOk own key { i with status := .unreachable } where
  keyed := h.keyed
  canonical := h.canonical
  hops_pos := h.hops_pos
  one_hop := by simp
  route := h.route
  direct hv := ⟨(h.direct hv).1, by simp⟩

/-- A change that keeps the route, the id and the status keeps the invariant. -/
theorem EntryOk.of_same_route {own key : String} {i j : NeighborInfo} (h : EntryOk own key i)
    (hid : j.nodeId = i.nodeId) (hvia : j.via = i.via) (hhops : j.hops = i.hops)
    (hstatus : j.status = i.status) : EntryOk own key j where
  keyed := hid.trans h.keyed
  canonical := h.canonical
  hops_pos := by rw [hhops]; exact h.hops_pos
  one_hop := by rw [hhops, hstatus]; exact h.one_hop
  route := by rw [hvia]; exact h.route
  direct := by rw [hvia, hhops, hstatus]; exact h.direct

/-! ## §2 Every operation but one keeps the invariant -/

theorem DictOk.set {own key : String} {i : NeighborInfo} {d : Dict String NeighborInfo}
    (h : DictOk own d) (hi : EntryOk own key i) : DictOk own (d.set key i) :=
  Dict.forall_get_set h hi

theorem TableOk.put {t : NeighborTable} {key : String} {i : NeighborInfo} (h : TableOk t)
    (hi : EntryOk t.ownNodeId key i) : TableOk (t.put key i) :=
  DictOk.set h hi

theorem TableOk.modify {t : NeighborTable} {nodeId : String} {f : NeighborInfo → NeighborInfo}
    (h : TableOk t)
    (hf : ∀ i, EntryOk t.ownNodeId (canon nodeId) i → EntryOk t.ownNodeId (canon nodeId) (f i)) :
    TableOk (t.modify nodeId f) := by
  unfold NeighborTable.modify
  split
  · rename_i i hi
    exact h.put (hf i (h _ i hi))
  · exact h

theorem tableOk_init (own : String) : TableOk (NeighborTable.init own) := by
  intro key i hi
  simp [NeighborTable.init] at hi

theorem TableOk.registerConnected {t : NeighborTable} (h : TableOk t) (now : Time)
    (nodeId host : String) (port : Int) (sessionId version : String) (services : List String)
    (role : String) :
    TableOk (t.registerConnected now nodeId host port sessionId version services role) := by
  apply h.put
  exact
    { keyed := rfl
      canonical := canon_canon _
      hops_pos := by simp
      one_hop := fun _ => rfl
      route := by simp
      direct := by simp }

theorem TableOk.registerKnown {t : NeighborTable} (h : TableOk t) (now : Time)
    (nodeId host : String) (port : Int) {via : String} (version : String)
    (services : List String) (role : String)
    (hvia : canon via ≠ "" ∧ canon via ≠ t.ownNodeId ∧ canon via ≠ canon nodeId) :
    TableOk (t.registerKnown now nodeId host port via version services role) := by
  have hinfo : EntryOk t.ownNodeId (canon nodeId)
      { nodeId := canon nodeId, host, port, status := .known, via := some (canon via), hops := 2,
        lastTs := now, sessionId := none, version, services, role } :=
    { keyed := rfl
      canonical := canon_canon _
      hops_pos := by simp
      one_hop := by simp
      route := by
        intro v hv
        cases hv
        exact hvia
      direct := by simp }
  unfold NeighborTable.registerKnown
  dsimp only
  split
  · split
    · exact h
    · exact h.put hinfo
  · exact h.put hinfo

omit [Canon] in
/-- A cascade round leaves the table alone or makes one `known` entry unreachable. -/
theorem cascadeOne_cases (d : Dict String NeighborInfo) (nid : String) :
    cascadeOne d nid = d ∨ ∃ info, d.get nid = some info ∧ info.status = .known ∧
      cascadeOne d nid = d.set nid { info with status := .unreachable } := by
  unfold cascadeOne
  cases hinfo : d.get nid with
  | none => exact Or.inl rfl
  | some info =>
      cases hnext : info.nextHop with
      | none => exact Or.inl (by simp [hnext])
      | some via =>
          cases hvia : d.get via with
          | none => exact Or.inl (by simp [hnext, hvia])
          | some viaInfo =>
              by_cases hc : info.status = .known ∧ viaInfo.status = .unreachable
              · exact Or.inr ⟨info, rfl, hc.1, by simp [hnext, hvia, hc]⟩
              · exact Or.inl (by simp only [hnext, hvia, if_neg hc])

/-- What a sweep may have done to the entry `j`, known until now only if it is fresh. -/
def SweptFrom (now ttlKnown : Time) (j i : NeighborInfo) : Prop :=
  (i = j ∨ i = { j with status := .unreachable }) ∧
    (i.status = .known → now - i.lastTs ≤ ttlKnown)

omit [Canon] in
theorem aged_sweptFrom (now ttlKnown : Time) (j : NeighborInfo) :
    SweptFrom now ttlKnown j (aged now ttlKnown j) := by
  unfold aged
  split_ifs with hold
  · exact ⟨Or.inr rfl, fun hknown => by cases hknown⟩
  · refine ⟨Or.inl rfl, fun hknown => ?_⟩
    rw [not_and_or, not_lt] at hold
    exact hold.resolve_left fun hne => hne hknown

omit [Canon] in
theorem SweptFrom.unreachable {now ttlKnown : Time} {j i : NeighborInfo}
    (h : SweptFrom now ttlKnown j i) :
    SweptFrom now ttlKnown j { i with status := .unreachable } := by
  refine ⟨?_, fun hknown => by cases hknown⟩
  rcases h.1 with rfl | rfl
  · exact Or.inr rfl
  · exact Or.inr rfl

/-- **Every entry after a sweep** was there before it, and has at most become unreachable. -/
theorem sweep_cases {t : NeighborTable} {now ttlKnown ttlUnreach : Time} {key : String}
    {i : NeighborInfo} (h : (t.sweep now ttlKnown ttlUnreach).table.get key = some i) :
    ∃ j, t.table.get key = some j ∧ SweptFrom now ttlKnown j i := by
  -- the cascade starts from the entries that stay, aged, and only makes some unreachable
  have hfold : ∀ (keys : List String) (d : Dict String NeighborInfo),
      (∀ k i, d.get k = some i → ∃ j, t.table.get k = some j ∧ SweptFrom now ttlKnown j i) →
      ∀ k i, (keys.foldl cascadeOne d).get k = some i →
        ∃ j, t.table.get k = some j ∧ SweptFrom now ttlKnown j i := by
    intro keys
    induction keys with
    | nil => intro d hd; exact hd
    | cons nid rest ih =>
        intro d hd
        apply ih
        rcases cascadeOne_cases d nid with heq | ⟨info, hinfo, _, heq⟩
        · rw [heq]
          exact hd
        · rw [heq]
          obtain ⟨j, hj, hfrom⟩ := hd nid info hinfo
          exact Dict.forall_get_set hd ⟨j, hj, hfrom.unreachable⟩
  refine hfold _ _ ?_ key i h
  intro k i hi
  rw [Dict.get_mapValues, Dict.get_filter] at hi
  obtain ⟨j, hj, rfl⟩ := Option.map_eq_some_iff.mp hi
  exact ⟨j, (Option.filter_eq_some_iff.mp hj).1, aged_sweptFrom now ttlKnown j⟩

theorem TableOk.sweep {t : NeighborTable} (h : TableOk t) (now ttlKnown ttlUnreach : Time) :
    TableOk (t.sweep now ttlKnown ttlUnreach) := by
  intro key i hi
  obtain ⟨j, hj, hfrom⟩ := sweep_cases hi
  rcases hfrom.1 with rfl | rfl
  · exact h key i hj
  · exact (h key j hj).unreachable

/-! ## §3 Gossip, and the one branch that breaks the invariant -/

/-- A gossip entry as the table of node `fromNode` emits it: not about `fromNode` itself, and with a
distance of at least one. -/
def EmittedBy (fromNode : String) (e : GossipEntry) : Prop :=
  canon? e.nodeId ≠ some fromNode ∧ 1 ≤ e.hops.getD 1

instance (fromNode : String) (e : GossipEntry) : Decidable (EmittedBy fromNode e) :=
  inferInstanceAs (Decidable (_ ∧ _))

theorem EmittedBy.two_le {fromNode : String} {e : GossipEntry} (h : EmittedBy fromNode e) :
    2 ≤ e.incomingHops := by
  have hpos := h.2
  unfold GossipEntry.incomingHops
  cases hh : e.hops with
  | none => simp
  | some n =>
      rw [hh] at hpos
      simp only [Option.getD_some] at hpos
      by_cases hz : n = 0
      · omega
      · simp only [if_neg hz]
        omega

/-- **The branch.** The entry revives an unreachable entry that has no via: the metadata update sets
`known` again and leaves the missing route as it is. -/
def revivesDirect (t : NeighborTable) (e : GossipEntry) : Bool :=
  match (t.acceptedId e).bind t.table.get with
  | some i => decide (i.status = .unreachable ∧ i.via = none ∧ e.incomingHops ≤ i.hops + 2)
  | none => false

theorem acceptedId_some {t : NeighborTable} {e : GossipEntry} {nodeId : String}
    (h : t.acceptedId e = some nodeId) :
    canon? e.nodeId = some nodeId ∧ nodeId ≠ "" ∧ nodeId ≠ t.ownNodeId := by
  unfold acceptedId at h
  cases hid : canon? e.nodeId with
  | none => simp [hid] at h
  | some k =>
      simp only [hid] at h
      split at h
      · exact absurd h (by simp)
      · rename_i hne
        split at h
        · exact absurd h (by simp)
        · split at h
          · exact absurd h (by simp)
          · cases h
            rw [not_or, t.own_canonical] at hne
            exact ⟨rfl, hne⟩

theorem updated_nodeId (now : Time) (fromNode : String) (e : GossipEntry) (i : NeighborInfo) :
    (updated now fromNode e i).nodeId = i.nodeId := by
  unfold updated
  split
  · rfl
  · split
    · split <;> rfl
    · rfl

/-- An update that does not revive a via-less entry keeps the invariant of the entry. -/
theorem updated_ok {own key fromNode : String} {e : GossipEntry} {i : NeighborInfo} (now : Time)
    (h : EntryOk own key i) (hc : i.status ≠ .connected) (he : EmittedBy fromNode e)
    (hfrom : fromNode ≠ "" ∧ fromNode ≠ own ∧ fromNode ≠ key)
    (hrev : ¬ (i.status = .unreachable ∧ i.via = none ∧ e.incomingHops ≤ i.hops + 2)) :
    EntryOk own key (updated now fromNode e i) := by
  have htwo := he.two_le
  -- the branches that take the new route need nothing of the old entry but its id
  have hnew : ∀ s : NeighborStatus, s ≠ .connected →
      EntryOk own key { refreshed now e i with
        via := some fromNode, hops := e.incomingHops, status := s } := by
    intro s hs
    exact
      { keyed := h.keyed
        canonical := h.canonical
        hops_pos := by show 1 ≤ e.incomingHops; omega
        one_hop := fun hcon => absurd hcon hs
        route := by
          intro v hv
          cases hv
          exact hfrom
        direct := by simp }
  unfold updated
  split
  · refine hnew _ ?_
    split
    · simp
    · exact hc
  · split
    · split
      · exact hnew _ (by simp)
      · exact h.of_same_route rfl rfl rfl rfl
    · -- the route stays, so only the status can matter
      refine
        { keyed := h.keyed
          canonical := h.canonical
          hops_pos := h.hops_pos
          one_hop := ?_
          route := h.route
          direct := fun hv => ⟨(h.direct hv).1, ?_⟩ }
      · dsimp only
        split
        · simp
        · exact fun hcon => absurd hcon hc
      · dsimp only
        rw [if_neg (fun hb => hrev ⟨hb.1, hv, hb.2⟩)]
        exact (h.direct hv).2

theorem TableOk.mergeEntry {t : NeighborTable} {fromNode : String} {e : GossipEntry} (now : Time)
    (h : TableOk t) (hfrom : canon fromNode = fromNode ∧ fromNode ≠ "" ∧ fromNode ≠ t.ownNodeId)
    (he : EmittedBy fromNode e) (hrev : revivesDirect t e = false) :
    TableOk (mergeEntry now fromNode t e) := by
  have hkey : ∀ nodeId, t.acceptedId e = some nodeId → fromNode ≠ nodeId := by
    intro nodeId hid heq
    exact he.1 (heq ▸ (acceptedId_some hid).1)
  rcases mergeEntry_cases now fromNode t e with heq | ⟨nodeId, hid, _, heq⟩ |
    ⟨nodeId, i, hid, hget, hc, heq⟩
  · rw [heq]
    exact h
  · rw [heq]
    have hcanon : canon nodeId = nodeId := by
      obtain ⟨raw, _, hraw⟩ := Option.map_eq_some_iff.mp (acceptedId_some hid).1
      rw [← hraw, canon_canon]
    have htwo := he.two_le
    apply h.put
    exact
      { keyed := rfl
        canonical := hcanon
        hops_pos := by show 1 ≤ e.incomingHops; omega
        one_hop := by simp [learned]
        route := by
          intro v hv
          cases hv
          exact ⟨hfrom.2.1, hfrom.2.2, hkey nodeId hid⟩
        direct := by simp [learned] }
  · rw [heq]
    have hno : ¬ (i.status = .unreachable ∧ i.via = none ∧ e.incomingHops ≤ i.hops + 2) := by
      simpa [revivesDirect, hid, hget] using hrev
    exact h.put (updated_ok now (h nodeId i hget) hc he ⟨hfrom.2.1, hfrom.2.2, hkey nodeId hid⟩ hno)

/-- A `known` entry without a via, at distance one: what the branch leaves behind. -/
def DirectKnown (t : NeighborTable) : Prop :=
  ∃ key i, t.table.get key = some i ∧ i.status = .known ∧ i.via = none ∧ i.hops = 1

theorem DirectKnown.not_representable {t : NeighborTable} (h : DirectKnown t) :
    ¬ Representable t := by
  obtain ⟨key, i, hi, hk, hv, _⟩ := h
  intro hr
  obtain ⟨v, hv', _⟩ := hr.known_via key i hi hk
  rw [hv] at hv'
  cases hv'

/-- With a route of length one, an emitted entry always reaches the last branch. -/
theorem updated_of_one_hop {fromNode : String} {e : GossipEntry} {i : NeighborInfo} (now : Time)
    (he : EmittedBy fromNode e) (hhops : i.hops = 1) :
    updated now fromNode e i =
      { refreshed now e i with
        status :=
          if i.status = .unreachable ∧ e.incomingHops ≤ i.hops + 2 then .known else i.status } := by
  have htwo := he.two_le
  unfold updated
  rw [if_neg (by omega), if_neg (fun hb => by have := hb.1; omega)]

theorem mergeEntry_revives {t : NeighborTable} {fromNode : String} {e : GossipEntry} (now : Time)
    (h : TableOk t) (he : EmittedBy fromNode e) (hrev : revivesDirect t e = true) :
    DirectKnown (mergeEntry now fromNode t e) := by
  unfold revivesDirect at hrev
  cases hb : (t.acceptedId e).bind t.table.get with
  | none => simp [hb] at hrev
  | some i =>
      rw [hb] at hrev
      have hi : i.status = .unreachable ∧ i.via = none ∧ e.incomingHops ≤ i.hops + 2 := by
        simpa using hrev
      obtain ⟨nodeId, hid, hget⟩ := Option.bind_eq_some_iff.mp hb
      have hone : i.hops = 1 := ((h nodeId i hget).direct hi.2.1).1
      refine ⟨nodeId, updated now fromNode e i, ?_, ?_⟩
      · simp [NeighborTable.mergeEntry, hid, hget, hi.1, get_put]
      · rw [updated_of_one_hop now he hone]
        exact ⟨by simp [hi.1, hi.2.2], hi.2.1, hone⟩

theorem DirectKnown.mergeEntry {t : NeighborTable} {fromNode : String} {e : GossipEntry}
    (now : Time) (h : DirectKnown t) (he : EmittedBy fromNode e) :
    DirectKnown (mergeEntry now fromNode t e) := by
  obtain ⟨key, i, hi, hk, hv, hone⟩ := h
  rcases mergeEntry_cases now fromNode t e with heq | ⟨nodeId, _, hnone, heq⟩ |
    ⟨nodeId, j, _, hget, _, heq⟩
  · rw [heq]
    exact ⟨key, i, hi, hk, hv, hone⟩
  · rw [heq]
    have hne : key ≠ nodeId := by
      rintro rfl
      rw [hnone] at hi
      cases hi
    exact ⟨key, i, by rw [get_put, if_neg hne]; exact hi, hk, hv, hone⟩
  · rw [heq]
    by_cases hkey : key = nodeId
    · subst hkey
      rw [hget] at hi
      cases hi
      refine ⟨key, updated now fromNode e i, by rw [get_put, if_pos rfl], ?_⟩
      rw [updated_of_one_hop now he hone]
      exact ⟨by simp [hk], hv, hone⟩
    · exact ⟨key, i, by rw [get_put, if_neg hkey]; exact hi, hk, hv, hone⟩

/-! ## §4 Runs of one table -/

/-- The calls that write a table. -/
inductive TableOp where
  | registerConnected (now : Time) (nodeId host : String) (port : Int) (sessionId version : String)
      (services : List String) (role : String)
  | registerKnown (now : Time) (nodeId host : String) (port : Int) (via version : String)
      (services : List String) (role : String)
  | touch (now : Time) (nodeId : String)
  | markUnreachable (nodeId : String)
  | updateServices (nodeId : String) (services : List String)
  | mergeGossip (now : Time) (neighbors : List GossipEntry) (fromNode : String)
  | sweep (now ttlKnown ttlUnreach : Time)

def TableOp.apply (t : NeighborTable) : TableOp → NeighborTable
  | .registerConnected now nodeId host port sessionId version services role =>
      t.registerConnected now nodeId host port sessionId version services role
  | .registerKnown now nodeId host port via version services role =>
      t.registerKnown now nodeId host port via version services role
  | .touch now nodeId => t.touch now nodeId
  | .markUnreachable nodeId => t.markUnreachable nodeId
  | .updateServices nodeId services => t.updateServices nodeId services
  | .mergeGossip now neighbors fromNode => t.mergeGossip now neighbors fromNode
  | .sweep now ttlKnown ttlUnreach => t.sweep now ttlKnown ttlUnreach

/-- How the callers call: a via is the id of a third node, and a gossip list is what another node's
`to_gossip` emits. Node ids are never empty (`node_not_empty` in the configuration). -/
def TableOp.Admissible (own : String) : TableOp → Prop
  | .registerKnown _ nodeId _ _ via _ _ _ =>
      canon via ≠ "" ∧ canon via ≠ own ∧ canon via ≠ canon nodeId
  | .mergeGossip _ neighbors fromNode =>
      (canon fromNode ≠ "" ∧ canon fromNode ≠ own) ∧ ∀ e ∈ neighbors, EmittedBy (canon fromNode) e
  | _ => True

instance (own : String) : DecidablePred (TableOp.Admissible own)
  | .registerKnown .. => inferInstanceAs (Decidable (_ ∧ _ ∧ _))
  | .mergeGossip .. => inferInstanceAs (Decidable ((_ ∧ _) ∧ ∀ e ∈ _, EmittedBy _ e))
  | .registerConnected .. => isTrue trivial
  | .touch .. => isTrue trivial
  | .markUnreachable .. => isTrue trivial
  | .updateServices .. => isTrue trivial
  | .sweep .. => isTrue trivial

/-- One table under admissible calls in any order, at any clock readings. -/
def tableMachine : Machine NeighborTable TableOp where
  step t op := if op.Admissible t.ownNodeId then some (op.apply t) else none

/-- The loop of `merge_gossip` as a machine of its own, one entry a step. -/
def mergeMachine (now : Time) (fromNode : String) : Machine NeighborTable GossipEntry where
  step t e := some (mergeEntry now fromNode t e)

/-- No entry that the call merges takes the reviving branch on an entry without a via. -/
def TableOp.KeepsRoutes (t : NeighborTable) : TableOp → Prop
  | .mergeGossip now neighbors fromNode =>
      (mergeMachine now (canon fromNode)).Guarded (fun t e => revivesDirect t e = false) t neighbors
  | _ => True

theorem mergeEntry_ownNodeId (now : Time) (fromNode : String) (t : NeighborTable)
    (e : GossipEntry) : (mergeEntry now fromNode t e).ownNodeId = t.ownNodeId := by
  rcases mergeEntry_cases now fromNode t e with heq | ⟨_, _, _, heq⟩ | ⟨_, _, _, _, _, heq⟩ <;>
    rw [heq] <;> rfl

theorem TableOk.mergeGossip {fromNode : String} (now : Time)
    (hcanon : canon fromNode = fromNode) {neighbors : List GossipEntry} :
    ∀ {t : NeighborTable}, TableOk t → fromNode ≠ "" ∧ fromNode ≠ t.ownNodeId →
      (∀ e ∈ neighbors, EmittedBy fromNode e) →
      (mergeMachine now fromNode).Guarded (fun t e => revivesDirect t e = false) t neighbors →
      TableOk (neighbors.foldl (NeighborTable.mergeEntry now fromNode) t) := by
  induction neighbors with
  | nil => intro t h _ _ _; exact h
  | cons e rest ih =>
      intro t h hfrom hall hg
      have hstep : TableOk (NeighborTable.mergeEntry now fromNode t e) :=
        h.mergeEntry now ⟨hcanon, hfrom⟩ (hall e (by simp)) hg.1
      apply ih hstep
      · rw [mergeEntry_ownNodeId]
        exact hfrom
      · exact fun e' he' => hall e' (List.mem_cons_of_mem _ he')
      · exact hg.2 _ rfl

theorem DirectKnown.foldl {fromNode : String} (now : Time) {neighbors : List GossipEntry} :
    ∀ {t : NeighborTable}, DirectKnown t → (∀ e ∈ neighbors, EmittedBy fromNode e) →
      DirectKnown (neighbors.foldl (NeighborTable.mergeEntry now fromNode) t) := by
  induction neighbors with
  | nil => intro t h _; exact h
  | cons e rest ih =>
      intro t h hall
      exact ih (h.mergeEntry now (hall e (by simp))) fun e' he' =>
        hall e' (List.mem_cons_of_mem _ he')

/-- An unguarded merge leaves a via-less `known` entry behind, whatever the rest of the list is. -/
theorem directKnown_of_unguarded {fromNode : String} (now : Time)
    (hcanon : canon fromNode = fromNode) {neighbors : List GossipEntry} :
    ∀ {t : NeighborTable}, TableOk t → fromNode ≠ "" ∧ fromNode ≠ t.ownNodeId →
      (∀ e ∈ neighbors, EmittedBy fromNode e) →
      ¬ (mergeMachine now fromNode).Guarded (fun t e => revivesDirect t e = false) t neighbors →
      DirectKnown (neighbors.foldl (NeighborTable.mergeEntry now fromNode) t) := by
  induction neighbors with
  | nil => intro t _ _ _ hg; exact absurd trivial hg
  | cons e rest ih =>
      intro t h hfrom hall hg
      have he := hall e (by simp)
      have hrest : ∀ e' ∈ rest, EmittedBy fromNode e' := fun e' he' =>
        hall e' (List.mem_cons_of_mem _ he')
      cases hrev : revivesDirect t e with
      | true => exact (mergeEntry_revives now h he hrev).foldl now hrest
      | false =>
          apply ih (h.mergeEntry now ⟨hcanon, hfrom⟩ he hrev) _ hrest
          · intro hg'
            exact hg ⟨hrev, fun s' hs' => by cases hs'; exact hg'⟩
          · rw [mergeEntry_ownNodeId]
            exact hfrom

/-- **Step lemma.** An admissible call that keeps the routes keeps the invariant. -/
theorem TableOk.apply {t : NeighborTable} {op : TableOp} (h : TableOk t)
    (hadm : op.Admissible t.ownNodeId) (hkeep : op.KeepsRoutes t) : TableOk (op.apply t) := by
  cases op with
  | registerConnected => exact h.registerConnected _ _ _ _ _ _ _ _
  | registerKnown => exact h.registerKnown _ _ _ _ _ _ _ hadm
  | touch => exact h.modify fun i hi => hi.of_same_route rfl rfl rfl rfl
  | markUnreachable => exact h.modify fun i hi => hi.unreachable
  | updateServices => exact h.modify fun i hi => hi.of_same_route rfl rfl rfl rfl
  | mergeGossip now neighbors fromNode =>
      exact TableOk.mergeGossip now (canon_canon _) h hadm.1 hadm.2 hkeep
  | sweep => exact h.sweep _ _ _

/-- **The table is representable throughout a run exactly when no merge revives an entry that has no
via.** The run starts from the empty table of any node. -/
theorem representable_iff {own : String} {ops : List TableOp} {t : NeighborTable}
    (hrun : tableMachine.run (NeighborTable.init own) ops = some t) :
    tableMachine.Always Representable (NeighborTable.init own) ops ↔
      tableMachine.Guarded (fun t op => op.KeepsRoutes t) (NeighborTable.init own) ops := by
  refine Machine.always_iff_guarded (fun _ => TableOk.representable) ?_ ?_ (tableOk_init own) hrun
  · intro t op t' hok hkeep hstep
    simp only [tableMachine, Option.ite_none_right_eq_some, Option.some.injEq] at hstep
    obtain ⟨hadm, rfl⟩ := hstep
    exact hok.apply hadm hkeep
  · intro t op t' hok hbreak hstep
    simp only [tableMachine, Option.ite_none_right_eq_some, Option.some.injEq] at hstep
    obtain ⟨hadm, rfl⟩ := hstep
    cases op with
    | mergeGossip now neighbors fromNode =>
        exact (directKnown_of_unguarded now (canon_canon _) hok hadm.1 hadm.2
          hbreak).not_representable
    | registerConnected => exact absurd trivial hbreak
    | registerKnown => exact absurd trivial hbreak
    | touch => exact absurd trivial hbreak
    | markUnreachable => exact absurd trivial hbreak
    | updateServices => exact absurd trivial hbreak
    | sweep => exact absurd trivial hbreak

instance (t : NeighborTable) : DecidablePred (TableOp.KeepsRoutes t)
  | .mergeGossip now neighbors fromNode =>
      inferInstanceAs (Decidable ((mergeMachine now (canon fromNode)).Guarded _ t neighbors))
  | .registerConnected .. => isTrue trivial
  | .registerKnown .. => isTrue trivial
  | .touch .. => isTrue trivial
  | .markUnreachable .. => isTrue trivial
  | .updateServices .. => isTrue trivial
  | .sweep .. => isTrue trivial

end Tables

/-! ## §5 Two runs on concrete tables -/

section Concrete

attribute [local instance] asciiCanon

/-- The table of node `c`, which has a direct channel to `b`. -/
def tableOfC : NeighborTable :=
  (NeighborTable.init "c").registerConnected 0 "B" "10.0.0.2" 9000 "s1" PROTOCOL_VERSION [] ROLE_NODE

/-- Node `a` hears of `b` from `c`, loses it and hears of it again. -/
def gossipOps : List TableOp :=
  [.mergeGossip 1 tableOfC.toGossip "c", .markUnreachable "b", .mergeGossip 2 tableOfC.toGossip "c"]

/-- Node `a` has its own channel to `b`, loses it, and hears of `b` from `c`. -/
def revivalOps : List TableOp :=
  [.registerConnected 0 "b" "10.0.0.2" 9000 "s2" PROTOCOL_VERSION [] ROLE_NODE,
    .markUnreachable "b", .mergeGossip 1 tableOfC.toGossip "c"]

/-- A node that was never a direct neighbour is revived with its route. -/
theorem gossip_run_representable :
    tableMachine.Always Representable (NeighborTable.init "a") gossipOps :=
  (representable_iff (Option.some_get (by decide : (tableMachine.run _ gossipOps).isSome)).symm).mpr
    (by decide)

/-- **A former direct neighbour is revived as `known` with no via.** -/
theorem revived_neighbour_not_representable :
    ∃ t, tableMachine.run (NeighborTable.init "a") revivalOps = some t ∧ ¬ Representable t := by
  refine ⟨_, rfl, ?_⟩
  exact DirectKnown.not_representable ⟨"b", _, rfl, rfl, rfl, rfl⟩

end Concrete

end NetPulse.Mesh
