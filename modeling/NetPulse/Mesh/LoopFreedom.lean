import NetPulse.Lib.WaitFor
import NetPulse.Mesh.GossipNet

/-
# NetPulse.Mesh.LoopFreedom — do next hops lead in circles

For a destination, each node with a `known` entry points at the via of the entry. `merge_gossip`
guards against a via that is the node itself, and against a via whose own via is the node, as far as
the table of the node knows. It asks no further, so a longer way round closes a circle: a node that
has lost a destination and forgotten it learns it anew from a neighbour of a neighbour that has had
it from this node.

Only a merge points anywhere. `loopFree_iff` says which merge closes a circle: the one after which
the node points at a next hop from where the vias of the others lead back to the node.
-/

namespace NetPulse.Mesh

open NetPulse.Lib NeighborTable Relation

section Tables

variable [Canon]

/-! ## §1 What one table points at -/

namespace NeighborTable

/-- The via of a `known` entry. -/
def knownVia (t : NeighborTable) (dst : String) : Option String :=
  (t.table.get dst).bind fun i => if i.status = .known then i.via else none

/-- Nothing new is pointed at. -/
def Narrows (t t' : NeighborTable) : Prop :=
  ∀ dst v, t'.knownVia dst = some v → t.knownVia dst = some v

theorem knownVia_put (t : NeighborTable) (key dst : String) (i : NeighborInfo) :
    (t.put key i).knownVia dst =
      if dst = key then (if i.status = .known then i.via else none) else t.knownVia dst := by
  unfold knownVia
  rw [get_put]
  split_ifs <;> simp_all

/-- The entry written points nowhere, or where the old one did. -/
theorem narrows_put {t : NeighborTable} {key : String} {i : NeighborInfo}
    (h : i.status = .known → ∃ j, t.table.get key = some j ∧ j.status = .known ∧ j.via = i.via) :
    Narrows t (t.put key i) := by
  intro dst v hv
  rw [knownVia_put] at hv
  split_ifs at hv with hdst hknown
  · obtain ⟨j, hj, hstatus, hvia⟩ := h hknown
    subst hdst
    simp only [knownVia, hj, Option.bind_some, if_pos hstatus, hvia, hv]
  · exact hv

theorem narrows_registerConnected (t : NeighborTable) (now : Time) (nodeId host : String)
    (port : Int) (sessionId version : String) (services : List String) (role : String) :
    Narrows t (t.registerConnected now nodeId host port sessionId version services role) := by
  apply narrows_put
  intro hknown
  cases hknown

theorem narrows_modify {t : NeighborTable} {nodeId : String} {f : NeighborInfo → NeighborInfo}
    (h : ∀ i, (f i).status = .known → i.status = .known ∧ i.via = (f i).via) :
    Narrows t (t.modify nodeId f) := by
  unfold modify
  cases hget : t.table.get (canon nodeId) with
  | none => exact fun dst v hv => hv
  | some i =>
      apply narrows_put
      intro hknown
      exact ⟨i, hget, (h i hknown).1, (h i hknown).2⟩

theorem narrows_touch (t : NeighborTable) (now : Time) (nodeId : String) :
    Narrows t (t.touch now nodeId) :=
  narrows_modify fun _ hknown => ⟨hknown, rfl⟩

theorem narrows_markUnreachable (t : NeighborTable) (nodeId : String) :
    Narrows t (t.markUnreachable nodeId) := by
  apply narrows_modify
  intro i hknown
  cases hknown

theorem narrows_sweep (t : NeighborTable) (now ttlKnown ttlUnreach : Time) :
    Narrows t (t.sweep now ttlKnown ttlUnreach) := by
  intro dst v hv
  obtain ⟨i, hi, hvia⟩ := Option.bind_eq_some_iff.mp hv
  obtain ⟨j, hj, hfrom, _⟩ := sweep_cases hi
  split_ifs at hvia with hknown
  rcases hfrom with rfl | rfl
  · simp only [knownVia, hj, Option.bind_some, if_pos hknown, hvia]
  · cases hknown

/-! ## §2 What a merge points at -/

/-- The entry replaces the route: it is shorter, or as long as one that is dead. -/
def takesOver (e : GossipEntry) (i : NeighborInfo) : Bool :=
  e.incomingHops < i.hops ∨
    e.incomingHops = i.hops ∧ canon? e.via ≠ canon? i.via ∧ i.status = .unreachable

/-- The destination and the next hop that merging the entry makes the table point at: the sender,
for a node that is new or a route that is replaced, and the old via of an entry that is revived. -/
def newRoute (t : NeighborTable) (fromNode : String) (e : GossipEntry) :
    Option (String × String) :=
  match t.acceptedId e with
  | none => none
  | some nodeId =>
      match t.table.get nodeId with
      | none => some (nodeId, fromNode)
      | some i =>
          if i.status = .connected then none
          else if takesOver e i then some (nodeId, fromNode)
          else if i.status = .unreachable ∧ e.incomingHops ≤ i.hops + 2 then
            i.via.map fun v => (nodeId, v)
          else none

theorem updated_route {now : Time} {fromNode : String} {e : GossipEntry} {i : NeighborInfo}
    (hconn : i.status ≠ .connected) :
    (if (updated now fromNode e i).status = .known then (updated now fromNode e i).via else none) =
      if takesOver e i then some fromNode
      else if i.status = .known ∨ e.incomingHops ≤ i.hops + 2 then i.via
      else none := by
  unfold updated
  by_cases hshort : e.incomingHops < i.hops
  · -- a shorter path takes over, and no entry that takes over stays unreachable
    have htakes : takesOver e i = true := by simp [takesOver, hshort]
    rw [if_pos hshort, if_pos htakes]
    cases hstatus : i.status with
    | connected => exact absurd hstatus hconn
    | known => simp
    | unreachable => simp
  · rw [if_neg hshort]
    cases hstatus : i.status with
    | connected => exact absurd hstatus hconn
    | known =>
        have htakes : ¬ takesOver e i = true := by simp [takesOver, hshort, hstatus]
        rw [if_neg htakes, if_pos (Or.inl rfl)]
        split_ifs <;> simp_all [refreshed]
    | unreachable =>
        by_cases hequal : e.incomingHops = i.hops ∧ canon? e.via ≠ canon? i.via
        · have htakes : takesOver e i = true := by simp [takesOver, hequal, hstatus]
          rw [if_pos hequal, if_pos rfl, if_pos htakes]
          simp
        · have htakes : ¬ takesOver e i = true := by
            simp only [takesOver, hshort, hstatus, decide_eq_true_eq, false_or, and_true]
            exact hequal
          rw [if_neg hequal, if_neg htakes]
          by_cases hnear : e.incomingHops ≤ i.hops + 2
          · simp [hnear, refreshed]
          · simp [hnear]

/-- **What a merge points at.** -/
theorem knownVia_mergeEntry (now : Time) (fromNode : String) (t : NeighborTable) (e : GossipEntry)
    (dst : String) :
    (∃ v, t.newRoute fromNode e = some (dst, v) ∧
      (mergeEntry now fromNode t e).knownVia dst = some v) ∨
    (∀ v, t.newRoute fromNode e ≠ some (dst, v)) ∧
      ((mergeEntry now fromNode t e).knownVia dst = t.knownVia dst) := by
  unfold newRoute mergeEntry
  cases hid : t.acceptedId e with
  | none => exact Or.inr ⟨(fun v hv => by cases hv), rfl⟩
  | some nodeId =>
      dsimp only
      cases hget : t.table.get nodeId with
      | none =>
          dsimp only
          rw [knownVia_put]
          by_cases hdst : dst = nodeId
          · subst hdst
            rw [if_pos rfl]
            exact Or.inl ⟨fromNode, rfl, rfl⟩
          · rw [if_neg hdst]
            refine Or.inr ⟨fun v hv => ?_, rfl⟩
            cases hv
            exact hdst rfl
      | some i =>
          dsimp only
          by_cases hconn : i.status = .connected
          · rw [if_pos hconn, if_pos hconn]
            exact Or.inr ⟨(fun v hv => by cases hv), rfl⟩
          · rw [if_neg hconn, if_neg hconn, knownVia_put, updated_route hconn]
            by_cases hdst : dst = nodeId
            · subst hdst
              have hold : t.knownVia dst = if i.status = .known then i.via else none := by
                simp only [knownVia, hget, Option.bind_some]
              rw [if_pos rfl, hold]
              by_cases htakes : takesOver e i = true
              · rw [if_pos htakes, if_pos htakes]
                exact Or.inl ⟨fromNode, rfl, rfl⟩
              · rw [if_neg htakes, if_neg htakes]
                cases hstatus : i.status with
                | connected => exact absurd hstatus hconn
                | known => exact Or.inr ⟨(fun v hv => by cases hv), rfl⟩
                | unreachable =>
                    by_cases hnear : e.incomingHops ≤ i.hops + 2
                    · -- a revived entry points where it pointed before it died
                      rw [if_pos (And.intro rfl hnear), if_pos (Or.inr hnear)]
                      cases hvia : i.via with
                      | none => exact Or.inr ⟨(fun v hv => by cases hv), rfl⟩
                      | some v => exact Or.inl ⟨v, rfl, rfl⟩
                    · rw [if_neg fun h => hnear h.2, if_neg fun h => h.elim (by simp) hnear]
                      exact Or.inr ⟨(fun v hv => by cases hv), rfl⟩
            · rw [if_neg hdst]
              refine Or.inr ⟨fun v hv => ?_, rfl⟩
              split_ifs at hv
              · cases hv
                exact hdst rfl
              · obtain ⟨w, _, hw⟩ := Option.map_eq_some_iff.mp hv
                cases hw
                exact hdst rfl

end NeighborTable

/-! ## §3 All tables -/

/-- Node `a` points at `v` for the destination. -/
def Points (tables : String → NeighborTable) (dst a v : String) : Prop :=
  (tables a).knownVia dst = some v

def Acyclic (tables : String → NeighborTable) : Prop :=
  ∀ dst a, ¬ Circular (Points tables dst) a

theorem points_update {tables : String → NeighborTable} {r dst a v : String} {t : NeighborTable} :
    Points (Function.update tables r t) dst a v ↔
      if a = r then t.knownVia dst = some v else Points tables dst a v := by
  unfold Points
  rw [Function.update_apply]
  split_ifs <;> rfl

theorem Acyclic.narrows {tables : String → NeighborTable} {r : String} {t : NeighborTable}
    (h : Acyclic tables) (ht : Narrows (tables r) t) : Acyclic (Function.update tables r t) := by
  intro dst x hx
  refine h dst x (hx.mono fun a b hab => ?_)
  rw [points_update] at hab
  split_ifs at hab with ha
  · subst ha
    exact ht dst b hab
  · exact hab

/-- **Merging the entry closes a circle**: what node `r` would point at leads back to `r`. -/
def Closes (tables : String → NeighborTable) (r fromNode : String) (e : GossipEntry) : Prop :=
  ∃ dst v, (tables r).newRoute fromNode e = some (dst, v) ∧
    ReflTransGen (Points tables dst) v r

section Merge

variable {tables : String → NeighborTable} {r fromNode : String} {t : NeighborTable}
  {e : GossipEntry} {now : Time}

theorem Acyclic.mergeEntry (h : Acyclic (Function.update tables r t))
    (hcloses : ¬ Closes (Function.update tables r t) r fromNode e) :
    Acyclic (Function.update tables r (mergeEntry now fromNode t e)) := by
  intro dst x hx
  rcases knownVia_mergeEntry now fromNode t e dst with ⟨v, hroute, hvia⟩ | ⟨_, hsame⟩
  · -- one edge is new: a circle without it was there before, and one with it leads back to `r`
    have hnew := hx.of_edge (R := Points (Function.update tables r t) dst) (u := r) (v := v) (by
      intro a b hab
      rw [points_update] at hab ⊢
      split_ifs at hab with ha
      · rw [hvia] at hab
        cases hab
        exact Or.inr ⟨ha, rfl⟩
      · exact Or.inl (by rwa [if_neg ha]))
    rcases hnew with hold | hback
    · exact h dst x hold
    · exact hcloses ⟨dst, v, by rwa [Function.update_self], hback⟩
  · refine h dst x (hx.mono fun a b hab => ?_)
    rw [points_update] at hab ⊢
    rwa [hsame] at hab

theorem newRoute_dst {dst v : String} (h : t.newRoute fromNode e = some (dst, v)) :
    canon? e.nodeId = some dst := by
  unfold newRoute at h
  cases hid : t.acceptedId e with
  | none =>
      rw [hid] at h
      cases h
  | some nodeId =>
      have hnode : nodeId = dst := by
        rw [hid] at h
        dsimp only at h
        split at h
        · cases h
          rfl
        · split_ifs at h
          · cases h
            rfl
          · obtain ⟨w, _, hw⟩ := Option.map_eq_some_iff.mp h
            cases hw
            rfl
      rw [← hnode]
      exact (acceptedId_some hid).1

/-- And then it does close one, for the destination of the entry. -/
theorem circular_mergeEntry (now : Time) (hcloses : Closes (Function.update tables r t) r fromNode e) :
    ∃ dst x, canon? e.nodeId = some dst ∧
      Circular (Points (Function.update tables r (mergeEntry now fromNode t e)) dst) x := by
  obtain ⟨dst, v, hroute, hback⟩ := hcloses
  rw [Function.update_self] at hroute
  refine ⟨dst, v, newRoute_dst hroute, ?_⟩
  rcases knownVia_mergeEntry now fromNode t e dst with ⟨w, hw, hvia⟩ | ⟨hnone, _⟩
  · rw [hroute] at hw
    cases hw
    refine circular_of_edge (u := r) ?_ (reflTransGen_to ?_ hback)
    · rw [points_update, if_pos rfl]
      exact hvia
    · intro a b ha hab
      rw [points_update, if_neg ha] at hab ⊢
      exact hab
  · exact absurd hroute (hnone v)

/-- Gossip about other nodes leaves what is pointed at for `dst`. -/
theorem knownVia_mergeAll {es : List GossipEntry} {dst : String}
    (h : ∀ e ∈ es, canon? e.nodeId ≠ some dst) :
    (es.foldl (mergeEntry now fromNode) t).knownVia dst = t.knownVia dst := by
  induction es generalizing t with
  | nil => rfl
  | cons e rest ih =>
      rw [List.foldl_cons, ih fun f hf => h f (List.mem_cons_of_mem e hf)]
      rcases knownVia_mergeEntry now fromNode t e dst with ⟨v, hroute, _⟩ | ⟨_, hsame⟩
      · exact absurd (newRoute_dst hroute) (h e List.mem_cons_self)
      · exact hsame

/-- No entry of the list, when its turn comes, closes a circle. -/
def Sound (tables : String → NeighborTable) (r fromNode : String) (now : Time) :
    NeighborTable → List GossipEntry → Prop
  | _, [] => True
  | t, e :: rest =>
      ¬ Closes (Function.update tables r t) r fromNode e ∧
        Sound tables r fromNode now (mergeEntry now fromNode t e) rest

theorem Acyclic.mergeAll {es : List GossipEntry} (h : Acyclic (Function.update tables r t))
    (hsound : Sound tables r fromNode now t es) :
    Acyclic (Function.update tables r (es.foldl (NeighborTable.mergeEntry now fromNode) t)) := by
  induction es generalizing t with
  | nil => exact h
  | cons e rest ih => exact ih (h.mergeEntry hsound.1) hsound.2

/-- In a list that names each node once, nothing opens the circle again. -/
theorem not_acyclic_mergeAll {es : List GossipEntry}
    (hids : (es.map fun e => canon? e.nodeId).Nodup)
    (hsound : ¬ Sound tables r fromNode now t es) :
    ¬ Acyclic (Function.update tables r (es.foldl (mergeEntry now fromNode) t)) := by
  induction es generalizing t with
  | nil => exact absurd trivial hsound
  | cons e rest ih =>
      rw [List.map_cons, List.nodup_cons] at hids
      by_cases hcloses : Closes (Function.update tables r t) r fromNode e
      · -- the rest of the list is about other nodes, so the circle stays
        intro hacyclic
        obtain ⟨dst, x, hid, hx⟩ := circular_mergeEntry now hcloses
        refine hacyclic dst x (hx.mono fun a b hab => ?_)
        rw [points_update] at hab ⊢
        rw [List.foldl_cons, knownVia_mergeAll]
        · exact hab
        · intro f hf heq
          apply hids.1
          rw [hid, ← heq]
          exact List.mem_map.mpr ⟨f, hf, rfl⟩
      · exact ih hids.2 fun hrest => hsound ⟨hcloses, hrest⟩

end Merge

/-! ## §4 What a table emits names each node once -/

/-- The entries carry the ids they are stored under. -/
def Keyed (t : NeighborTable) : Prop :=
  ∀ key i, t.table.get key = some i → i.nodeId = key ∧ canon key = key

theorem keyed_init (own : String) : Keyed (NeighborTable.init own) := by
  intro key i hi
  cases hi

theorem Keyed.put {t : NeighborTable} (h : Keyed t) {key : String} {i : NeighborInfo}
    (hid : i.nodeId = key) (hkey : canon key = key) : Keyed (t.put key i) :=
  Dict.forall_get_set (P := fun key (i : NeighborInfo) => i.nodeId = key ∧ canon key = key) h
    ⟨hid, hkey⟩

theorem Keyed.modify {t : NeighborTable} (h : Keyed t) (nodeId : String)
    {f : NeighborInfo → NeighborInfo} (hf : ∀ i, (f i).nodeId = i.nodeId) :
    Keyed (t.modify nodeId f) := by
  unfold NeighborTable.modify
  cases hget : t.table.get (canon nodeId) with
  | none => exact h
  | some i => exact h.put ((hf i).trans (h _ i hget).1) (canon_canon nodeId)

theorem Keyed.sweep {t : NeighborTable} (h : Keyed t) (now ttlKnown ttlUnreach : Time) :
    Keyed (t.sweep now ttlKnown ttlUnreach) := by
  intro key i hi
  obtain ⟨j, hj, hfrom, _⟩ := sweep_cases hi
  rcases hfrom with rfl | rfl
  · exact h key i hj
  · exact h key j hj

theorem Keyed.mergeEntry {t : NeighborTable} (h : Keyed t) (now : Time) (fromNode : String)
    (e : GossipEntry) : Keyed (mergeEntry now fromNode t e) := by
  rcases mergeEntry_cases now fromNode t e with heq | ⟨nodeId, hid, _, heq⟩ |
    ⟨nodeId, i, _, hget, _, heq⟩
  · rw [heq]
    exact h
  · rw [heq]
    obtain ⟨raw, _, hraw⟩ := Option.map_eq_some_iff.mp (acceptedId_some hid).1
    exact h.put rfl (by rw [← hraw, canon_canon])
  · rw [heq]
    obtain ⟨hnode, hkey⟩ := h _ i hget
    exact h.put ((updated_nodeId now fromNode e i).trans hnode) hkey

theorem Keyed.mergeGossip {t : NeighborTable} (h : Keyed t) (now : Time) (es : List GossipEntry)
    (fromNode : String) : Keyed (t.mergeGossip now es fromNode) := by
  unfold NeighborTable.mergeGossip
  induction es generalizing t with
  | nil => exact h
  | cons e rest ih => exact ih (h.mergeEntry now _ e)

theorem Keyed.nodup_toGossip {t : NeighborTable} (h : Keyed t) :
    (t.toGossip.map fun e => canon? e.nodeId).Nodup := by
  -- the emitted ids are the keys of the entries that stay, in the order of the table
  have hids : (t.toGossip.map fun e => canon? e.nodeId) =
      ((t.table.items.filter fun p =>
        p.2.status ≠ .unreachable ∧ p.2.nodeId ≠ t.ownNodeId).map Prod.fst).map some := by
    unfold toGossip Dict.values
    rw [List.filter_map, List.map_map, List.map_map, List.map_map]
    apply List.map_congr_left
    intro p hp
    have hget := (Dict.mem_items_iff t.table).mp (List.mem_filter.mp hp).1
    obtain ⟨hnode, hkey⟩ := h p.1 p.2 hget
    show canon? (some p.2.nodeId) = some p.1
    rw [hnode, canon?_some, hkey]
  rw [hids]
  apply List.Nodup.map (Option.some_injective _)
  exact t.table.nodup.sublist (List.filter_sublist.map Prod.fst)

/-! ## §5 Runs -/

/-- The next hops of no destination lead in a circle. -/
def LoopFree (s : GossipNet) : Prop := Acyclic s.tables

/-- **The condition**: no entry of a pack that arrives makes its receiver point at a next hop from
where the vias of the other nodes lead back to it. -/
def ClosesNoCircle (s : GossipNet) : GossipEvent → Prop
  | .deliver k => ∀ p, s.flying[k]? = some p →
      Sound s.tables (canon p.dst) (canon p.source) s.now (s.greeted p) p.neighbors
  | _ => True

/-- What makes one condition per entry exact. -/
structure TidyNet (s : GossipNet) : Prop where
  keyed : ∀ a, Keyed (s.tables a)
  named_once : ∀ p ∈ s.flying, (p.neighbors.map fun e => canon? e.nodeId).Nodup

theorem keyed_update {tables : String → NeighborTable} (h : ∀ a, Keyed (tables a)) {r : String}
    {t : NeighborTable} (ht : Keyed t) (a : String) : Keyed (Function.update tables r t a) := by
  rw [Function.update_apply]
  split_ifs
  · exact ht
  · exact h a

theorem TidyNet.step {s s' : GossipNet} {e : GossipEvent} (h : TidyNet s)
    (hs : gossipMachine.step s e = some s') : TidyNet s' := by
  cases e with
  | tick d =>
      simp only [gossipMachine, GossipNet.step] at hs
      split_ifs at hs
      cases hs
      exact ⟨h.keyed, h.named_once⟩
  | linkUp a b g =>
      cases hs
      exact ⟨keyed_update h.keyed ((h.keyed _).put rfl (canon_canon b)), h.named_once⟩
  | linkDown a b =>
      cases hs
      have hmarked := (h.keyed (canon a)).modify b
        (f := fun info => { info with status := .unreachable }) fun _ => rfl
      unfold GossipNet.unlink
      split_ifs
      · exact ⟨keyed_update h.keyed hmarked, h.named_once⟩
      · exact ⟨keyed_update h.keyed hmarked, h.named_once⟩
  | traffic a source =>
      cases hs
      exact ⟨keyed_update h.keyed ((h.keyed _).modify _ fun _ => rfl), h.named_once⟩
  | sweep a =>
      cases hs
      exact ⟨keyed_update h.keyed ((h.keyed _).sweep _ _ _), h.named_once⟩
  | send a b =>
      simp only [gossipMachine, GossipNet.step] at hs
      split_ifs at hs
      cases hs
      refine ⟨h.keyed, fun p hp => ?_⟩
      rcases List.mem_append.mp hp with hold | hnew
      · exact h.named_once p hold
      · rw [List.mem_singleton.mp hnew]
        exact (h.keyed _).nodup_toGossip
  | deliver k =>
      obtain ⟨p, _, rfl⟩ := Option.map_eq_some_iff.mp hs
      have htouched : Keyed (s.greeted p) := (h.keyed _).modify _ fun _ => rfl
      exact ⟨keyed_update h.keyed (htouched.mergeGossip _ _ _),
        fun q hq => h.named_once q (List.mem_of_mem_eraseIdx hq)⟩
  | drop k =>
      obtain ⟨p, _, rfl⟩ := Option.map_eq_some_iff.mp hs
      exact ⟨h.keyed, fun q hq => h.named_once q (List.mem_of_mem_eraseIdx hq)⟩

/-- A merge starts from a table that points where it pointed before. -/
theorem acyclic_greeted {s : GossipNet} (h : LoopFree s) (p : GossipPack) :
    Acyclic (Function.update s.tables (canon p.dst) (s.greeted p)) :=
  Acyclic.narrows h (narrows_touch _ _ _)

theorem LoopFree.step {s s' : GossipNet} {e : GossipEvent} (h : LoopFree s)
    (hok : ClosesNoCircle s e) (hs : gossipMachine.step s e = some s') : LoopFree s' := by
  cases e with
  | tick d =>
      simp only [gossipMachine, GossipNet.step] at hs
      split_ifs at hs
      cases hs
      exact h
  | linkUp a b g =>
      cases hs
      exact Acyclic.narrows h (narrows_registerConnected _ _ _ _ _ _ _ _ _)
  | linkDown a b =>
      cases hs
      have hmarked := Acyclic.narrows h (narrows_markUnreachable (s.tables (canon a)) b)
      unfold GossipNet.unlink
      split_ifs
      · exact hmarked
      · exact hmarked
  | traffic a source =>
      cases hs
      exact Acyclic.narrows h (narrows_touch _ _ _)
  | sweep a =>
      cases hs
      exact Acyclic.narrows h (narrows_sweep _ _ _ _)
  | send a b =>
      simp only [gossipMachine, GossipNet.step] at hs
      split_ifs at hs
      cases hs
      exact h
  | deliver k =>
      obtain ⟨p, hp, rfl⟩ := Option.map_eq_some_iff.mp hs
      exact (acyclic_greeted h p).mergeAll (hok p hp)
  | drop k =>
      obtain ⟨p, _, rfl⟩ := Option.map_eq_some_iff.mp hs
      exact h

theorem not_loopFree_of_step {s s' : GossipNet} {e : GossipEvent} (htidy : TidyNet s)
    (hok : ¬ ClosesNoCircle s e) (hs : gossipMachine.step s e = some s') : ¬ LoopFree s' := by
  cases e with
  | deliver k =>
      obtain ⟨p, hp, rfl⟩ := Option.map_eq_some_iff.mp hs
      have hsound : ¬ Sound s.tables (canon p.dst) (canon p.source) s.now (s.greeted p)
          p.neighbors := by
        intro hsound
        refine hok fun q hq => ?_
        rw [hp] at hq
        cases hq
        exact hsound
      exact not_acyclic_mergeAll (htidy.named_once p (List.mem_of_getElem? hp)) hsound
  | _ => exact absurd trivial hok

end Tables

section Concrete

attribute [local instance] asciiCanon

/-- A link, and one node that tells another about its neighbour. -/
def firstTale : List GossipEvent := linkBoth "a" "x" ++ linkBoth "a" "b" ++ tell "a" "b"

/-- One period of a triangle: all sweep, and `b` and `c` gossip. -/
def period : List GossipEvent :=
  [.tick GOSSIP_PERIOD, .sweep "a", .sweep "b", .sweep "c"] ++ tell "b" "c" ++ tell "c" "b"

/-- `a` loses its neighbour `x`, and forgets it while `b` and `c` remind each other of it. Then comes
`d`, learns of `x` from `b`, and tells `a`. -/
def roundTheSquare : List GossipEvent :=
  linkBoth "a" "x" ++ linkBoth "a" "b" ++ linkBoth "a" "c" ++ linkBoth "b" "c" ++
    tell "a" "b" ++ tell "a" "c" ++ [.linkDown "a" "x", .linkDown "x" "a"] ++
    (List.replicate 11 period).flatten ++
    linkBoth "d" "b" ++ linkBoth "d" "a" ++ tell "b" "d" ++ tell "d" "a"

end Concrete

end NetPulse.Mesh
