import NetPulse.Lib.OnePass
import NetPulse.Mesh.NeighborInvariant

/-
# NetPulse.Mesh.SweepClosure — what one sweep leaves behind (`networking/neighbor_table.py`)

`sweep` ages the entries, takes old unreachable ones away and then walks once through the rest, in
the order of the table: a `known` entry whose via is unreachable becomes unreachable. An entry whose
via comes later in the table does not see what becomes of it, and a via that has been taken away is
not looked at.

`sweep_closed_iff` says for which tables no `known` entry is left with a via that is absent or
unreachable. The walk is `OnePass.pass` along the vias.
-/

namespace NetPulse.Mesh

open NetPulse.Lib

section Sweep

variable [Canon]

namespace NeighborTable

/-- No `known` entry goes through a node that is absent or unreachable. -/
def Closed (t : NeighborTable) : Prop :=
  ∀ key i v, t.table.get key = some i → i.status = .known → i.nextHop = some v →
    ∃ j, t.table.get v = some j ∧ j.status ≠ .unreachable

/-! ## §1 The entries under the clock -/

section Clock

variable (t : NeighborTable) (now ttlKnown ttlUnreach : Time)

/-- Known, and heard of lately. -/
def Fresh (key : String) : Prop :=
  ∃ i, t.table.get key = some i ∧ i.status = .known ∧ ¬ now - i.lastTs > ttlKnown

/-- In the table, and not old enough to be taken away. -/
def Stays (key : String) : Prop :=
  ∃ i, t.table.get key = some i ∧ ¬ (i.status = .unreachable ∧ now - i.lastTs > ttlUnreach)

/-- Unreachable for a while that is not too long, or not heard of lately. -/
def Lost (key : String) : Prop :=
  ∃ i, t.table.get key = some i ∧
    (i.status = .unreachable ∧ ¬ now - i.lastTs > ttlUnreach ∨
      i.status = .known ∧ now - i.lastTs > ttlKnown)

/-- The via of an entry. -/
def hop (key : String) : Option String := (t.table.get key).bind NeighborInfo.nextHop

/-- Lost, or fresh and with a via that is cut off. -/
def CutOff : String → Prop :=
  OnePass.Reached t.hop (t.Fresh now ttlKnown) (t.Lost now ttlKnown ttlUnreach)

/-- The vias of fresh entries are there, and a fresh via that is cut off stands in the table before
the entries that go through it. -/
structure Ordered : Prop where
  present : ∀ key v, t.Fresh now ttlKnown key → t.hop key = some v → t.Stays now ttlUnreach v
  order : ∀ key v, t.Fresh now ttlKnown key → t.hop key = some v → t.Fresh now ttlKnown v →
    t.CutOff now ttlKnown ttlUnreach v → [v, key].Sublist t.table.keys

end Clock

variable {t : NeighborTable} {now ttlKnown ttlUnreach : Time} {key : String}

theorem hop_of_get {i : NeighborInfo} (hi : t.table.get key = some i) : t.hop key = i.nextHop := by
  rw [hop, hi]
  rfl

theorem Fresh.stays (h : t.Fresh now ttlKnown key) : t.Stays now ttlUnreach key := by
  obtain ⟨i, hi, hknown, -⟩ := h
  refine ⟨i, hi, fun hgone => ?_⟩
  rw [hknown] at hgone
  cases hgone.1

theorem Fresh.not_lost (h : t.Fresh now ttlKnown key) : ¬ t.Lost now ttlKnown ttlUnreach key := by
  obtain ⟨i, hi, hknown, hlately⟩ := h
  rintro ⟨j, hj, hlost⟩
  obtain rfl := Option.some.inj (hi.symm.trans hj)
  rcases hlost with ⟨hstatus, -⟩ | ⟨-, hold⟩
  · rw [hknown] at hstatus
    cases hstatus
  · exact hlately hold

theorem Lost.stays (h : t.Lost now ttlKnown ttlUnreach key) : t.Stays now ttlUnreach key := by
  obtain ⟨i, hi, hlost⟩ := h
  refine ⟨i, hi, fun hgone => ?_⟩
  rcases hlost with ⟨-, hyoung⟩ | ⟨hknown, -⟩
  · exact hyoung hgone.2
  · rw [hknown] at hgone
    cases hgone.1

/-! ## §2 The walk is a pass along the vias -/

omit [Canon] in
/-- A round of the cascade, by whether it finds a via that is unreachable. -/
theorem cascadeOne_iff (d : Dict String NeighborInfo) (nid : String) :
    (∃ i v j, d.get nid = some i ∧ i.status = .known ∧ i.nextHop = some v ∧ d.get v = some j ∧
        j.status = .unreachable ∧ cascadeOne d nid = d.set nid { i with status := .unreachable }) ∨
      cascadeOne d nid = d ∧ ∀ i v j, d.get nid = some i → i.status = .known →
        i.nextHop = some v → d.get v = some j → j.status ≠ .unreachable := by
  unfold cascadeOne
  rcases hi : d.get nid with _ | i
  · exact Or.inr ⟨rfl, fun _ _ _ h => by cases h⟩
  rcases hv : i.nextHop with _ | v
  · refine Or.inr ⟨by simp only [hv], fun i' v' _ hi' _ hv' => ?_⟩
    rw [← Option.some.inj hi', hv] at hv'
    cases hv'
  rcases hj : d.get v with _ | j
  · refine Or.inr ⟨by simp only [hv, hj], fun i' v' j' hi' _ hv' hj' => ?_⟩
    rw [← Option.some.inj hi', hv] at hv'
    rw [← Option.some.inj hv', hj] at hj'
    cases hj'
  by_cases hc : i.status = .known ∧ j.status = .unreachable
  · exact Or.inl ⟨i, v, j, rfl, hc.1, hv, hj, hc.2, by simp only [hv, hj, if_pos hc]⟩
  · refine Or.inr ⟨by simp only [hv, hj, if_neg hc], fun i' v' j' hi' hknown hv' hj' hlost => ?_⟩
    obtain rfl := Option.some.inj hi'
    obtain rfl := Option.some.inj (hv.symm.trans hv')
    obtain rfl := Option.some.inj (hj.symm.trans hj')
    exact hc ⟨hknown, hlost⟩

/-- In the table `d` of the walk, the unreachable entries are those with the mark. -/
structure Marks (t : NeighborTable) (now ttlKnown ttlUnreach : Time) (S : String → Prop)
    (d : Dict String NeighborInfo) : Prop where
  present : ∀ key, (∃ i, d.get key = some i) ↔ t.Stays now ttlUnreach key
  marked : ∀ key, S key → t.Stays now ttlUnreach key
  unreachable : ∀ key i, d.get key = some i → (i.status = .unreachable ↔ S key)
  known : ∀ key i, d.get key = some i → (i.status = .known ↔ t.Fresh now ttlKnown key ∧ ¬ S key)
  via : ∀ key i, d.get key = some i → i.nextHop = t.hop key

/-- A round of the cascade is the turn of one entry. -/
theorem Marks.cascadeOne {S : String → Prop} {d : Dict String NeighborInfo}
    (h : Marks t now ttlKnown ttlUnreach S d) (nid : String) :
    Marks t now ttlKnown ttlUnreach (OnePass.turn t.hop (t.Fresh now ttlKnown) S nid)
      (cascadeOne d nid) := by
  rcases cascadeOne_iff d nid with ⟨i, v, j, hi, hknown, hv, hj, hlost, heq⟩ | ⟨heq, hnone⟩
  · have hfresh := ((h.known nid i hi).mp hknown).1
    have hturn : ∀ x, OnePass.turn t.hop (t.Fresh now ttlKnown) S nid x ↔ S x ∨ x = nid := by
      refine fun x => or_congr_right ⟨And.left, fun hx => ⟨hx, hfresh, v, ?_, ?_⟩⟩
      · rw [← h.via nid i hi, hv]
      · exact (h.unreachable v j hj).mp hlost
    have hget : ∀ key i', (NeighborTable.cascadeOne d nid).get key = some i' →
        key = nid ∧ i' = { i with status := .unreachable } ∨ key ≠ nid ∧ d.get key = some i' := by
      intro key i' hi'
      rw [heq, Dict.get_set] at hi'
      split at hi'
      · exact Or.inl ⟨‹_›, (Option.some.inj hi').symm⟩
      · exact Or.inr ⟨‹_›, hi'⟩
    refine ⟨fun key => ?_, fun key hkey => ?_, fun key i' hi' => ?_, fun key i' hi' => ?_,
      fun key i' hi' => ?_⟩
    · rw [← h.present key, heq, Dict.get_set]
      split
      · rename_i hkey
        exact iff_of_true ⟨_, rfl⟩ ⟨i, hkey ▸ hi⟩
      · exact Iff.rfl
    · rcases (hturn key).mp hkey with hS | rfl
      · exact h.marked key hS
      · exact hfresh.stays
    · rw [hturn]
      rcases hget key i' hi' with ⟨hkey, rfl⟩ | ⟨hkey, hold⟩
      · exact iff_of_true rfl (Or.inr hkey)
      · rw [h.unreachable key i' hold]
        exact ⟨Or.inl, fun hS => hS.resolve_right hkey⟩
    · rw [hturn]
      rcases hget key i' hi' with ⟨hkey, rfl⟩ | ⟨hkey, hold⟩
      · exact iff_of_false NeighborStatus.noConfusion fun hS => hS.2 (Or.inr hkey)
      · rw [h.known key i' hold]
        exact and_congr_right fun _ => not_congr ⟨Or.inl, fun hS => hS.resolve_right hkey⟩
    · rcases hget key i' hi' with ⟨rfl, rfl⟩ | ⟨-, hold⟩
      · exact h.via key i hi
      · exact h.via key i' hold
  · have hturn : OnePass.turn t.hop (t.Fresh now ttlKnown) S nid = S := by
      funext x
      refine propext ⟨?_, Or.inl⟩
      rintro (hS | ⟨rfl, hfresh, v, hv, hS⟩)
      · exact hS
      · by_contra hno
        obtain ⟨i, hi⟩ := (h.present x).mpr hfresh.stays
        obtain ⟨j, hj⟩ := (h.present v).mpr (h.marked v hS)
        refine hnone i v j hi ((h.known x i hi).mpr ⟨hfresh, hno⟩) ?_ hj
          ((h.unreachable v j hj).mpr hS)
        rw [h.via x i hi, hv]
    rw [heq, hturn]
    exact h

theorem Marks.cascade {S : String → Prop} {d : Dict String NeighborInfo}
    (h : Marks t now ttlKnown ttlUnreach S d) (keys : List String) :
    Marks t now ttlKnown ttlUnreach (OnePass.pass t.hop (t.Fresh now ttlKnown) keys S)
      (keys.foldl NeighborTable.cascadeOne d) := by
  induction keys generalizing S d with
  | nil => exact h
  | cons nid rest ih => exact ih (h.cascadeOne nid)

/-- The entries when the walk begins. -/
def marked (t : NeighborTable) (now ttlKnown ttlUnreach : Time) : Dict String NeighborInfo :=
  (t.table.filter fun _ i => ¬ (i.status = .unreachable ∧ now - i.lastTs > ttlUnreach)).mapValues
    fun _ i => aged now ttlKnown i

theorem get_marked {i : NeighborInfo} :
    (t.marked now ttlKnown ttlUnreach).get key = some i ↔
      ∃ j, t.table.get key = some j ∧
        ¬ (j.status = .unreachable ∧ now - j.lastTs > ttlUnreach) ∧ aged now ttlKnown j = i := by
  rw [marked, Dict.get_mapValues, Dict.get_filter, Option.map_eq_some_iff]
  refine exists_congr fun j => ?_
  rw [Option.filter_eq_some_iff, and_assoc, decide_eq_true_iff]

theorem marks_start : Marks t now ttlKnown ttlUnreach (t.Lost now ttlKnown ttlUnreach)
    (t.marked now ttlKnown ttlUnreach) := by
  have honly : ∀ {key j j'}, t.table.get key = some j → t.table.get key = some j' → j' = j :=
    fun h h' => Option.some.inj (h'.symm.trans h)
  refine ⟨fun key => ?_, fun key hlost => hlost.stays, fun key i hi => ?_, fun key i hi => ?_,
    fun key i hi => ?_⟩
  · constructor
    · rintro ⟨i, hi⟩
      obtain ⟨j, hj, hstays, -⟩ := get_marked.mp hi
      exact ⟨j, hj, hstays⟩
    · rintro ⟨j, hj, hstays⟩
      exact ⟨_, get_marked.mpr ⟨j, hj, hstays, rfl⟩⟩
  · obtain ⟨j, hj, hstays, rfl⟩ := get_marked.mp hi
    unfold aged
    constructor
    · intro hstatus
      split at hstatus
      · rename_i hold
        exact ⟨j, hj, Or.inr hold⟩
      · exact ⟨j, hj, Or.inl ⟨hstatus, fun hlong => hstays ⟨hstatus, hlong⟩⟩⟩
    · rintro ⟨j', hj', hlost⟩
      obtain rfl := honly hj hj'
      split
      · rfl
      · rename_i hyoung
        exact (hlost.resolve_right hyoung).1
  · obtain ⟨j, hj, hstays, rfl⟩ := get_marked.mp hi
    unfold aged
    constructor
    · intro hstatus
      split at hstatus
      · cases hstatus
      · rename_i hyoung
        have hfresh : t.Fresh now ttlKnown key := ⟨j, hj, hstatus, fun hold => hyoung ⟨hstatus, hold⟩⟩
        exact ⟨hfresh, hfresh.not_lost⟩
    · rintro ⟨⟨j', hj', hknown, hlately⟩, -⟩
      obtain rfl := honly hj hj'
      rw [if_neg fun hold => hlately hold.2]
      exact hknown
  · obtain ⟨j, hj, -, rfl⟩ := get_marked.mp hi
    rw [hop_of_get hj]
    unfold aged
    split <;> rfl

/-! ## §3 When a sweep is enough -/

/-- The marks after the walk of a sweep. -/
def swept (t : NeighborTable) (now ttlKnown ttlUnreach : Time) : String → Prop :=
  OnePass.pass t.hop (t.Fresh now ttlKnown) (t.marked now ttlKnown ttlUnreach).keys
    (t.Lost now ttlKnown ttlUnreach)

theorem marks_sweep : Marks t now ttlKnown ttlUnreach (t.swept now ttlKnown ttlUnreach)
    (t.sweep now ttlKnown ttlUnreach).table :=
  marks_start.cascade _

/-- A sweep closes the table when nothing is left that the walk has missed, and no via is absent. -/
theorem closed_sweep_iff : (t.sweep now ttlKnown ttlUnreach).Closed ↔
    (∀ key v, t.Fresh now ttlKnown key → t.hop key = some v → t.Stays now ttlUnreach v) ∧
      ∀ key, t.CutOff now ttlKnown ttlUnreach key → t.swept now ttlKnown ttlUnreach key := by
  have hmarks : Marks t now ttlKnown ttlUnreach (t.swept now ttlKnown ttlUnreach)
      (t.sweep now ttlKnown ttlUnreach).table := marks_sweep
  -- a fresh entry without the mark is a `known` one of the swept table
  have hleft : ∀ {key v}, (t.sweep now ttlKnown ttlUnreach).Closed → t.Fresh now ttlKnown key →
      t.hop key = some v → ¬ t.swept now ttlKnown ttlUnreach key →
      ∃ j, (t.sweep now ttlKnown ttlUnreach).table.get v = some j ∧ j.status ≠ .unreachable := by
    intro key v hclosed hfresh hv hno
    obtain ⟨i, hi⟩ := (hmarks.present key).mpr hfresh.stays
    exact hclosed key i v hi ((hmarks.known key i hi).mpr ⟨hfresh, hno⟩) ((hmarks.via key i hi).trans hv)
  constructor
  · intro hclosed
    refine ⟨fun key v hfresh hv => ?_, fun key hcut => ?_⟩
    · by_cases hmark : t.swept now ttlKnown ttlUnreach key
      · rcases OnePass.pass_cases hmark with hlost | ⟨-, w, hw, hmark'⟩
        · exact absurd hlost hfresh.not_lost
        · obtain rfl := Option.some.inj (hv.symm.trans hw)
          exact hmarks.marked v hmark'
      · obtain ⟨j, hj, -⟩ := hleft hclosed hfresh hv hmark
        exact (hmarks.present v).mp ⟨j, hj⟩
    · induction hcut with
      | start hlost => exact OnePass.pass_of_start hlost
      | step hfresh hv _ ih =>
          by_contra hno
          obtain ⟨j, hj, hstatus⟩ := hleft hclosed hfresh hv hno
          exact hstatus ((hmarks.unreachable _ j hj).mpr ih)
  · rintro ⟨hpresent, hall⟩ key i v hi hknown hv
    obtain ⟨hfresh, hno⟩ := (hmarks.known key i hi).mp hknown
    have hhop : t.hop key = some v := (hmarks.via key i hi).symm.trans hv
    obtain ⟨j, hj⟩ := (hmarks.present v).mpr (hpresent key v hfresh hhop)
    refine ⟨j, hj, fun hlost => hno (hall key ?_)⟩
    exact .step hfresh hhop (OnePass.reached_of_pass ((hmarks.unreachable v j hj).mp hlost))

omit [Canon] in
/-- Two keys stand in a filtered table as they stood before. -/
theorem pair_keys_filter {d : Dict String NeighborInfo} {p : String → NeighborInfo → Bool}
    {v key : String} (hv : ∀ i, d.get v = some i → p v i = true)
    (hkey : ∀ i, d.get key = some i → p key i = true) :
    [v, key].Sublist (d.filter p).keys ↔ [v, key].Sublist d.keys := by
  constructor
  · exact fun h => h.trans ((List.filter_sublist (l := d.items)).map Prod.fst)
  · intro h
    obtain ⟨l, hl, hmap⟩ := List.sublist_map_iff.mp h
    have hall : ∀ q ∈ l, p q.1 q.2 = true := by
      intro q hq
      have hget : d.get q.1 = some q.2 := (d.mem_items_iff).mp (hl.subset hq)
      have hname : q.1 ∈ [v, key] := hmap ▸ List.mem_map_of_mem hq
      rcases List.mem_cons.mp hname with heq | hname
      · rw [heq] at hget ⊢
        exact hv _ hget
      · rw [List.mem_singleton.mp hname] at hget ⊢
        exact hkey _ hget
    rw [hmap]
    refine List.Sublist.map Prod.fst ?_
    rw [← List.filter_eq_self.mpr hall]
    exact hl.filter _

theorem pair_keys_marked {v : String} (hv : t.Fresh now ttlKnown v)
    (hkey : t.Fresh now ttlKnown key) :
    [v, key].Sublist (t.marked now ttlKnown ttlUnreach).keys ↔ [v, key].Sublist t.table.keys := by
  have hstays : ∀ {k}, t.Fresh now ttlKnown k → ∀ i, t.table.get k = some i →
      decide (¬ (i.status = .unreachable ∧ now - i.lastTs > ttlUnreach)) = true := by
    intro k hfresh i hi
    have hstays : t.Stays now ttlUnreach k := hfresh.stays
    obtain ⟨j, hj, hstay⟩ := hstays
    obtain rfl := Option.some.inj (hi.symm.trans hj)
    exact decide_eq_true hstay
  have hkeys : (t.marked now ttlKnown ttlUnreach).keys = (t.table.filter fun _ i =>
      ¬ (i.status = .unreachable ∧ now - i.lastTs > ttlUnreach)).keys := by
    unfold marked Dict.mapValues Dict.keys
    rw [List.map_map]
    rfl
  rw [hkeys]
  exact pair_keys_filter (hstays hv) (hstays hkey)

/-- **When one sweep is enough**: exactly for tables in which the vias of fresh entries stay, and a
fresh via that is cut off stands before the entries that go through it. -/
theorem sweep_closed_iff (t : NeighborTable) (now ttlKnown ttlUnreach : Time) :
    (t.sweep now ttlKnown ttlUnreach).Closed ↔ t.Ordered now ttlKnown ttlUnreach := by
  have hmem : ∀ key, t.Fresh now ttlKnown key → key ∈ (t.marked now ttlKnown ttlUnreach).keys := by
    intro key hfresh
    obtain ⟨i, hi⟩ := (marks_start.present key).mpr hfresh.stays
    exact List.mem_map_of_mem (f := Prod.fst) ((Dict.mem_items_iff _).mpr hi)
  rw [closed_sweep_iff]
  have hpass := OnePass.pass_complete_iff t.hop (t.Lost now ttlKnown ttlUnreach)
    (t.marked now ttlKnown ttlUnreach).nodup hmem fun key hfresh => hfresh.not_lost
  constructor
  · rintro ⟨hpresent, hall⟩
    refine ⟨hpresent, fun key v hfresh hv hfresh' hcut => ?_⟩
    exact (pair_keys_marked hfresh' hfresh).mp (hpass.mp hall key v hfresh hv hfresh' hcut)
  · rintro ⟨hpresent, horder⟩
    refine ⟨hpresent, hpass.mpr fun key v hfresh hv hfresh' hcut => ?_⟩
    exact (pair_keys_marked hfresh' hfresh).mpr (horder key v hfresh hv hfresh' hcut)

end NeighborTable

end Sweep

/-! ## §4 A table in the wrong order -/

section Ascii

attribute [local instance] asciiCanon

/-- `a` goes through `b`, and `b` through `c`, which is unreachable. -/
def chained : NeighborTable where
  ownNodeId := "me"
  own_canonical := by decide +kernel
  table := ⟨[("a", ⟨"a", "h", 9000, .known, some "b", 4, 0, none, "2.0", [], "node"⟩),
    ("b", ⟨"b", "h", 9000, .known, some "c", 3, 0, none, "2.0", [], "node"⟩),
    ("c", ⟨"c", "h", 9000, .unreachable, some "d", 2, 0, none, "2.0", [], "node"⟩)], by decide⟩

/-- The walk comes to `a` before it comes to `b`. -/
theorem chained_not_closed : ¬ (chained.sweep 10 90 300).Closed := by
  intro hclosed
  have hget : (chained.sweep 10 90 300).table.get "a" =
      some ⟨"a", "h", 9000, .known, some "b", 4, 0, none, "2.0", [], "node"⟩ := by decide +kernel
  have hvia : ((chained.sweep 10 90 300).table.get "b").map NeighborInfo.status =
      some .unreachable := by decide +kernel
  obtain ⟨j, hj, hstatus⟩ := hclosed "a" _ "b" hget rfl rfl
  rw [hj] at hvia
  exact hstatus (Option.some.inj hvia)

end Ascii

end NetPulse.Mesh
