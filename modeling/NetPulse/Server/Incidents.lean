import NetPulse.Server.Operations
import NetPulse.Lib.Except
import Mathlib.Data.List.Pairwise
import Mathlib.Logic.Relation

/-
# NetPulse.Server.Incidents — the life of an incident

Under the four calls there are six moves on the two tables: an incident is created, counted again,
acknowledged, resolved, assigned or commented on. Each successful transaction is one of them (§2), so
each call is a chain of moves, and what every move keeps holds in every run.

`Sound` couples the tables: the row of an incident, its two timestamps and its rows of the timeline
tell one story. `Lawful` is what one call may do. Both hold in all runs but for one clause: a batch of
alerts that raises has changed the incident that it raised for when an earlier alert of the batch was
about the same incident (`incident_runs`).
-/

namespace NetPulse.Server

open NetPulse.Lib NetPulse.Lib.Text

/-! ## §1 Reading a computation that succeeded -/

theorem require_eq_ok {c : Prop} [Decidable c] {e : Error} {u : Unit} :
    require c e = .ok u ↔ c := by
  unfold require
  split_ifs with h
  · exact iff_of_true rfl h
  · exact iff_of_false (fun heq => by cases heq) h

/-! ## §2 Moves -/

/-- `UPDATE incidents SET updated=?, occurrences=occurrences+1` -/
def Incident.countAgain (now : ℚ) (i : Incident) : Incident :=
  { i with updated := now, occurrences := i.occurrences + 1 }

def Incident.acknowledge (now : ℚ) (i : Incident) : Incident :=
  { i with status := .acknowledged, acknowledged := some now, updated := now }

def Incident.resolve (now : ℚ) (i : Incident) : Incident :=
  { i with status := .resolved, resolved := some now, updated := now }

def Incident.assign (owner : Text) (now : ℚ) (i : Incident) : Incident :=
  { i with owner := owner, updated := now }

/-- The row of an incident that has just been opened. -/
structure Incident.New (i : Incident) : Prop where
  status : i.status = .opened
  acknowledged : i.acknowledged = none
  resolved : i.resolved = none
  occurrences : i.occurrences = 1

/-- The incident is written with a function, and the rows go to the end of the timeline. -/
def Register.revise (g : Register) (id : Uuid) (set : Incident → Incident)
    (rows : List TimelineRow) : Register :=
  ⟨(g.update id set).incidents, g.timeline ++ rows⟩

/-- Moves that create an incident, count it or change its status. -/
inductive Shift : Register → Register → Prop
  | create {g : Register} {i : Incident} {r : TimelineRow} (hfresh : ∀ j ∈ g.incidents, j.id ≠ i.id)
      (hnone : g.activeWith i.event_key = none) (hnew : i.New) (hid : r.incident_id = i.id)
      (haction : r.action = .opened) : Shift g ⟨g.incidents ++ [i], g.timeline ++ [r]⟩
  | count {g : Register} {i : Incident} (now : ℚ) (hmem : i ∈ g.incidents) :
      Shift g (g.revise i.id (Incident.countAgain now) [])
  | acknowledge {g : Register} {i : Incident} {r : TimelineRow} (now : ℚ) (hmem : i ∈ g.incidents)
      (hopen : i.status = .opened) (hid : r.incident_id = i.id)
      (haction : r.action = .change .acknowledge) :
      Shift g (g.revise i.id (Incident.acknowledge now) [r])
  | resolve {g : Register} {i : Incident} {r : TimelineRow} (now : ℚ) (hmem : i ∈ g.incidents)
      (hactive : i.status ≠ .resolved) (hid : r.incident_id = i.id)
      (haction : r.action = .change .resolve) :
      Shift g (g.revise i.id (Incident.resolve now) [r])

/-- Moves that leave the status as it is. -/
inductive Remark : Register → Register → Prop
  | assign {g : Register} {i : Incident} {r : TimelineRow} (owner : Text) (now : ℚ)
      (hmem : i ∈ g.incidents) (hid : r.incident_id = i.id) (haction : r.action = .change .assign) :
      Remark g (g.revise i.id (Incident.assign owner now) [r])
  | comment {g : Register} {i : Incident} {r : TimelineRow} (hmem : i ∈ g.incidents)
      (hid : r.incident_id = i.id) (haction : r.action = .change .comment) :
      Remark g (g.revise i.id (fun j => j) [r])

theorem activeWith_some {g : Register} {key : Text} {i : Incident} (h : g.activeWith key = some i) :
    i ∈ g.incidents ∧ i.event_key = key ∧ i.status ≠ .resolved := by
  have hp := List.find?_some h
  rw [Bool.and_eq_true, decide_eq_true_eq] at hp
  exact ⟨List.mem_of_find?_eq_some h, hp.1, of_decide_eq_true hp.2⟩

theorem find_some {g : Register} {ident : Text} {i : Incident} (h : g.find ident = some i) :
    i ∈ g.incidents ∧ i.id.text = ident := by
  have hp := List.find?_some h
  rw [decide_eq_true_eq] at hp
  exact ⟨List.mem_of_find?_eq_some h, hp⟩

theorem log_ok {g g' : Register} {r : TimelineRow} (h : g.log r = .ok g') :
    g' = ⟨g.incidents, g.timeline ++ [r]⟩ := by
  simp only [Register.log, bind_eq_ok, pure_eq_ok] at h
  obtain ⟨-, -, -, -, rfl⟩ := h
  rfl

theorem insert_ok {g g' : Register} {i : Incident} (h : g.insert i = .ok g') :
    (∀ j ∈ g.incidents, j.id ≠ i.id) ∧ g' = ⟨g.incidents ++ [i], g.timeline⟩ := by
  simp only [Register.insert, bind_eq_ok, pure_eq_ok, require_eq_ok] at h
  obtain ⟨-, -, -, -, -, -, -, hfresh, rfl⟩ := h
  exact ⟨hfresh, rfl⟩

/-- **What `open_incident` does**: it counts the active incident with the key, or creates one. -/
theorem openTransaction_ok {device_id title key actor : Text} {severity : Severity} {now : ℚ}
    {ident : Uuid} {g g' : Register} {id : Uuid} {created : Bool}
    (h : openTransaction device_id title severity key actor now ident g = .ok (g', id, created)) :
    (∃ old, g.activeWith key = some old ∧ created = false ∧ id = old.id ∧
      g' = g.revise old.id (Incident.countAgain now) []) ∨
    (g.activeWith key = none ∧ created = true ∧ id = ident ∧
      ∃ i r, (∀ j ∈ g.incidents, j.id ≠ i.id) ∧ i.id = ident ∧ i.event_key = key ∧ i.New ∧
        r.incident_id = i.id ∧ r.action = .opened ∧
        g' = ⟨g.incidents ++ [i], g.timeline ++ [r]⟩) := by
  simp only [openTransaction, bind_eq_ok] at h
  obtain ⟨-, -, h⟩ := h
  cases hactive : g.activeWith key with
  | some old =>
      rw [hactive] at h
      simp only [pure_eq_ok, Prod.mk.injEq] at h
      obtain ⟨rfl, rfl, rfl⟩ := h
      refine Or.inl ⟨old, rfl, rfl, rfl, ?_⟩
      rw [Register.revise, List.append_nil]
      rfl
  | none =>
      rw [hactive] at h
      simp only [bind_eq_ok, pure_eq_ok, Prod.mk.injEq] at h
      obtain ⟨g₁, hins, g₂, hlog, rfl, rfl, rfl⟩ := h
      obtain ⟨hfresh, rfl⟩ := insert_ok hins
      exact Or.inr ⟨rfl, rfl, rfl, _, _, hfresh, rfl, rfl, ⟨rfl, rfl, rfl, rfl⟩, rfl, rfl, log_ok hlog⟩

theorem openIncident_ok {device_id title severity : Value} {event_key : Option Text} {actor : Text}
    {now : ℚ} {draw : Draw} {g : Register} {p : Register × Uuid × Bool}
    (h : openIncident device_id title severity event_key actor now draw g = .ok p) :
    ∃ device heading level,
      openTransaction device heading level (eventKey event_key draw) actor now draw.ident g = .ok p := by
  simp only [openIncident, bind_eq_ok] at h
  obtain ⟨device, -, heading, -, -, -, level, -, h⟩ := h
  exact ⟨device.chars, heading.chars, level, h⟩

/-- The change that a body asks for. -/
def asked (body : Body) : Option Change := changeOf (getD body "action" .null)

/-- **What `change_incident` does**, change by change. -/
theorem change_ok {body : Body} {actor : Text} {now : ℚ} {g g' : Register} {id : Uuid}
    (h : change body actor now g = .ok (g', id)) :
    ∃ i r c, i ∈ g.incidents ∧ i.id = id ∧ r.incident_id = i.id ∧ asked body = some c ∧
      r.action = .change c ∧
      ((c = .acknowledge ∧ i.status = .opened ∧
          g' = g.revise i.id (Incident.acknowledge now) [r]) ∨
        (c = .resolve ∧ i.status ≠ .resolved ∧ g' = g.revise i.id (Incident.resolve now) [r]) ∨
        (c = .assign ∧ ∃ owner, g' = g.revise i.id (Incident.assign owner now) [r]) ∨
        (c = .comment ∧ g' = g.revise i.id (fun j => j) [r])) := by
  simp only [change, bind_eq_ok, elim_eq_ok] at h
  obtain ⟨ident, -, c, hc, message, -, -, -, i, hfind, h⟩ := h
  obtain ⟨hmem, -⟩ := find_some hfind
  cases c with
  | acknowledge =>
      simp only [bind_eq_ok, pure_eq_ok, require_eq_ok, Prod.mk.injEq] at h
      obtain ⟨-, hopen, g₁, hlog, rfl, rfl⟩ := h
      exact ⟨i, _, _, hmem, rfl, rfl, hc, rfl, Or.inl ⟨rfl, hopen, log_ok hlog⟩⟩
  | resolve =>
      simp only [bind_eq_ok, pure_eq_ok, require_eq_ok, Prod.mk.injEq] at h
      obtain ⟨-, hactive, g₁, hlog, rfl, rfl⟩ := h
      exact ⟨i, _, _, hmem, rfl, rfl, hc, rfl, Or.inr (Or.inl ⟨rfl, hactive, log_ok hlog⟩)⟩
  | assign =>
      simp only [bind_eq_ok, pure_eq_ok, Prod.mk.injEq] at h
      obtain ⟨owner, -, -, -, g₁, hlog, rfl, rfl⟩ := h
      exact ⟨i, _, _, hmem, rfl, rfl, hc, rfl,
        Or.inr (Or.inr (Or.inl ⟨rfl, owner.chars, log_ok hlog⟩))⟩
  | comment =>
      simp only [bind_eq_ok, pure_eq_ok, Prod.mk.injEq] at h
      obtain ⟨-, -, g₁, hlog, rfl, rfl⟩ := h
      refine ⟨i, Register.row i.id actor (.change .comment) message.chars now, _, hmem, rfl, rfl, hc,
        rfl, Or.inr (Or.inr (Or.inr ⟨rfl, ?_⟩))⟩
      rw [log_ok hlog, Register.revise, Register.update]
      simp only [ite_self, List.map_id']

/-! ## §3 The two tables tell one story -/

/-- Rows of the timeline that stand for a creation or a change of status. -/
def Action.shifts : Action → Bool
  | .opened => true
  | .change .acknowledge => true
  | .change .resolve => true
  | .change .assign => false
  | .change .comment => false

/-- The creation and the changes of status of an incident, as rows of the timeline have them. -/
def history (rows : List TimelineRow) (id : Uuid) : List Action :=
  ((rows.filter fun r => decide (r.incident_id = id)).map (·.action)).filter Action.shifts

/-- The same as its row has them. -/
def Incident.lifecycle (i : Incident) : List Action :=
  .opened :: ((if i.acknowledged.isSome then [.change .acknowledge] else []) ++
    if i.resolved.isSome then [.change .resolve] else [])

/-- The timestamps that the status requires are set, and no later one is. -/
def Incident.Timed (i : Incident) : Prop :=
  match i.status with
  | .opened => i.acknowledged = none ∧ i.resolved = none
  | .acknowledged => i.acknowledged.isSome ∧ i.resolved = none
  | .resolved => i.resolved.isSome

/-- The constraints of the schema. -/
structure Schema (g : Register) : Prop where
  /-- `id TEXT PRIMARY KEY` -/
  unique : (g.incidents.map (·.id)).Nodup
  /-- The unique index `active_incident_key`: of two incidents with one key at most one is active. -/
  single : g.incidents.Pairwise fun i j =>
    i.event_key = j.event_key → i.status = .resolved ∨ j.status = .resolved

structure Sound (g : Register) : Prop extends Schema g where
  timed : ∀ i ∈ g.incidents, i.Timed
  /-- One row for the creation and one for each change of status, in order. -/
  story : ∀ i ∈ g.incidents, history g.timeline i.id = i.lifecycle
  /-- Each row of the timeline is about an incident. -/
  owned : ∀ r ∈ g.timeline, ∃ i ∈ g.incidents, i.id = r.incident_id

theorem sound_empty : Sound ⟨[], []⟩ where
  unique := List.nodup_nil
  single := List.Pairwise.nil
  timed := by
    intro i hi
    cases hi
  story := by
    intro i hi
    cases hi
  owned := by
    intro r hr
    cases hr

theorem eq_of_id_eq {incidents : List Incident} (h : (incidents.map (·.id)).Nodup) {i j : Incident}
    (hi : i ∈ incidents) (hj : j ∈ incidents) (hid : i.id = j.id) : i = j :=
  List.inj_on_of_nodup_map h hi hj hid

theorem history_append (rows rows' : List TimelineRow) (id : Uuid) :
    history (rows ++ rows') id = history rows id ++ history rows' id := by
  simp only [history, List.filter_append, List.map_append]

theorem history_of_other {rows : List TimelineRow} {id : Uuid}
    (h : ∀ r ∈ rows, r.incident_id ≠ id) : history rows id = [] := by
  have hnone : (rows.filter fun r => decide (r.incident_id = id)) = [] := by
    rw [List.filter_eq_nil_iff]
    intro r hr
    rw [decide_eq_true_eq]
    exact h r hr
  rw [history, hnone]
  rfl

theorem history_of_own {rows : List TimelineRow} {id : Uuid} (h : ∀ r ∈ rows, r.incident_id = id) :
    history rows id = (rows.map (·.action)).filter Action.shifts := by
  have hall : (rows.filter fun r => decide (r.incident_id = id)) = rows := by
    rw [List.filter_eq_self]
    intro r hr
    exact decide_eq_true (h r hr)
  rw [history, hall]

/-- Incidents of the table after an `UPDATE` by id. -/
theorem mem_update {g : Register} (hu : (g.incidents.map (·.id)).Nodup) {i : Incident}
    (hi : i ∈ g.incidents) {set : Incident → Incident} {j : Incident} :
    j ∈ (g.update i.id set).incidents ↔ j = set i ∨ (j ∈ g.incidents ∧ j.id ≠ i.id) := by
  unfold Register.update
  rw [List.mem_map]
  constructor
  · rintro ⟨k, hk, rfl⟩
    by_cases hid : k.id = i.id
    · rw [if_pos hid, eq_of_id_eq hu hk hi hid]
      exact Or.inl rfl
    · rw [if_neg hid]
      exact Or.inr ⟨hk, hid⟩
  · rintro (rfl | ⟨hj, hid⟩)
    · exact ⟨i, hi, if_pos rfl⟩
    · exact ⟨j, hj, if_neg hid⟩

theorem map_id_update {g : Register} {i : Incident} {set : Incident → Incident}
    (hid : ∀ j, (set j).id = j.id) :
    ((g.update i.id set).incidents.map (·.id)) = g.incidents.map (·.id) := by
  unfold Register.update
  rw [List.map_map]
  apply List.map_congr_left
  intro j _
  show (if j.id = i.id then set j else j).id = j.id
  split_ifs
  · exact hid j
  · rfl

theorem Schema.revise {g : Register} (h : Schema g) {i : Incident} (hi : i ∈ g.incidents)
    {set : Incident → Incident} {rows : List TimelineRow} (hid : ∀ j, (set j).id = j.id)
    (hkey : ∀ j, (set j).event_key = j.event_key)
    (hclosed : i.status = .resolved → (set i).status = .resolved) :
    Schema (g.revise i.id set rows) where
  unique := by
    show ((g.update i.id set).incidents.map (·.id)).Nodup
    rw [map_id_update hid]
    exact h.unique
  single := by
    show ((g.incidents.map fun j => if j.id = i.id then set j else j).Pairwise _)
    rw [List.pairwise_map]
    refine h.single.imp_of_mem fun {a b} ha hb hab => ?_
    -- each of the two is itself or its update, which has the same key
    have hk : ∀ j : Incident, (if j.id = i.id then set j else j).event_key = j.event_key := by
      intro j
      split_ifs
      · exact hkey j
      · rfl
    have hc : ∀ j ∈ g.incidents, j.status = .resolved →
        (if j.id = i.id then set j else j).status = .resolved := by
      intro j hmem hj
      split_ifs with hji
      · rw [eq_of_id_eq h.unique hmem hi hji] at hj ⊢
        exact hclosed hj
      · exact hj
    rw [hk a, hk b]
    intro heq
    exact (hab heq).imp (hc a ha) (hc b hb)

/-- **An `UPDATE` with its rows keeps the tables sound** when it keeps the key, closes for good, and
when the rows say what has happened to the incident. -/
theorem Sound.revise {g : Register} (h : Sound g) {i : Incident} (hi : i ∈ g.incidents)
    {set : Incident → Incident} {rows : List TimelineRow} (hid : ∀ j, (set j).id = j.id)
    (hkey : ∀ j, (set j).event_key = j.event_key)
    (hclosed : i.status = .resolved → (set i).status = .resolved) (htimed : (set i).Timed)
    (hrows : ∀ r ∈ rows, r.incident_id = i.id)
    (hlife : (set i).lifecycle = i.lifecycle ++ (rows.map (·.action)).filter Action.shifts) :
    Sound (g.revise i.id set rows) where
  toSchema := h.toSchema.revise hi hid hkey hclosed
  timed := by
    intro j hj
    rcases (mem_update h.unique hi).mp hj with rfl | ⟨hj, -⟩
    · exact htimed
    · exact h.timed j hj
  story := by
    intro j hj
    show history (g.timeline ++ rows) j.id = j.lifecycle
    rw [history_append]
    rcases (mem_update h.unique hi).mp hj with rfl | ⟨hj, hne⟩
    · -- the incident that is written: all rows are about it
      rw [hid i, h.story i hi, hlife, history_of_own hrows]
    · rw [h.story j hj, history_of_other, List.append_nil]
      intro r hr
      rw [hrows r hr]
      exact Ne.symm hne
  owned := by
    intro r hr
    have hback : ∀ j ∈ g.incidents, ∃ k ∈ (g.update i.id set).incidents, k.id = j.id := by
      intro j hj
      by_cases hji : j.id = i.id
      · exact ⟨set i, (mem_update h.unique hi).mpr (Or.inl rfl), (hid i).trans hji.symm⟩
      · exact ⟨j, (mem_update h.unique hi).mpr (Or.inr ⟨hj, hji⟩), rfl⟩
    rcases List.mem_append.mp hr with hr | hr
    · obtain ⟨j, hj, hjr⟩ := h.owned r hr
      obtain ⟨k, hk, hkj⟩ := hback j hj
      exact ⟨k, hk, hkj.trans hjr⟩
    · obtain ⟨k, hk, hki⟩ := hback i hi
      exact ⟨k, hk, hki.trans (hrows r hr).symm⟩

theorem activeWith_eq_none {g : Register} {key : Text} :
    g.activeWith key = none ↔ ∀ i ∈ g.incidents, i.event_key = key → i.status = .resolved := by
  unfold Register.activeWith
  rw [List.find?_eq_none]
  refine forall₂_congr fun i _ => ?_
  rw [Bool.and_eq_true, decide_eq_true_eq, not_and, Incident.active, decide_eq_true_eq, not_not]

theorem Schema.create {g : Register} (h : Schema g) {i : Incident} {rows : List TimelineRow}
    (hfresh : ∀ j ∈ g.incidents, j.id ≠ i.id) (hnone : g.activeWith i.event_key = none) :
    Schema ⟨g.incidents ++ [i], rows⟩ where
  unique := by
    rw [List.map_append, List.map_singleton]
    refine h.unique.append (List.nodup_singleton _) ?_
    intro u hu hui
    obtain ⟨j, hj, rfl⟩ := List.mem_map.mp hu
    exact hfresh j hj (List.mem_singleton.mp hui)
  single := by
    rw [List.pairwise_append]
    refine ⟨h.single, List.pairwise_singleton _ _, ?_⟩
    intro j hj k hk heq
    rw [List.mem_singleton.mp hk] at heq
    exact Or.inl (activeWith_eq_none.mp hnone j hj heq)

/-- **A new incident with its row keeps the tables sound.** -/
theorem Sound.create {g : Register} (h : Sound g) {i : Incident} {r : TimelineRow}
    (hfresh : ∀ j ∈ g.incidents, j.id ≠ i.id) (hnone : g.activeWith i.event_key = none)
    (hnew : i.New) (hid : r.incident_id = i.id) (haction : r.action = .opened) :
    Sound ⟨g.incidents ++ [i], g.timeline ++ [r]⟩ where
  toSchema := h.toSchema.create hfresh hnone
  timed := by
    intro j hj
    rcases List.mem_append.mp hj with hj | hj
    · exact h.timed j hj
    · rw [List.mem_singleton.mp hj, Incident.Timed, hnew.status]
      exact ⟨hnew.acknowledged, hnew.resolved⟩
  story := by
    intro j hj
    show history (g.timeline ++ [r]) j.id = j.lifecycle
    rw [history_append]
    rcases List.mem_append.mp hj with hj | hj
    · rw [h.story j hj, history_of_other, List.append_nil]
      intro r' hr'
      rw [List.mem_singleton.mp hr', hid]
      exact Ne.symm (hfresh j hj)
    · -- the new incident has no other row, since every row is about an incident of the table
      have hold : history g.timeline i.id = [] := by
        apply history_of_other
        intro r' hr' heq
        obtain ⟨k, hk, hkr⟩ := h.owned r' hr'
        exact hfresh k hk (hkr.trans heq)
      have hrow : history [r] i.id = [.opened] := by
        rw [history_of_own]
        · simp [haction, Action.shifts]
        · intro r' hr'
          rw [List.mem_singleton.mp hr']
          exact hid
      rw [List.mem_singleton.mp hj, hold, hrow, List.nil_append, Incident.lifecycle,
        hnew.acknowledged, hnew.resolved]
      rfl
  owned := by
    intro r' hr'
    rcases List.mem_append.mp hr' with hr' | hr'
    · obtain ⟨j, hj, hjr⟩ := h.owned r' hr'
      exact ⟨j, List.mem_append_left _ hj, hjr⟩
    · rw [List.mem_singleton.mp hr']
      exact ⟨i, List.mem_append_right _ (List.mem_singleton_self i), hid.symm⟩

/-! ## §4 What every move keeps -/

/-- The changes of status. -/
inductive Status.Moves : Status → Status → Prop
  | acknowledge : Moves .opened .acknowledged
  | resolve : Moves .opened .resolved
  | close : Moves .acknowledged .resolved

/-- No incident goes away, and its status moves forward only. -/
def Forward (g g' : Register) : Prop :=
  ∀ i ∈ g.incidents, ∃ j ∈ g'.incidents, j.id = i.id ∧ j.event_key = i.event_key ∧
    Relation.ReflTransGen Status.Moves i.status j.status

/-- Rows that stand for neither a creation nor a change of status. -/
def Register.remarks (g : Register) : List TimelineRow :=
  g.timeline.filter fun r => !r.action.shifts

theorem Forward.refl (g : Register) : Forward g g := by
  intro i hi
  exact ⟨i, hi, rfl, rfl, Relation.ReflTransGen.refl⟩

theorem Forward.trans {g g' g'' : Register} (h : Forward g g') (h' : Forward g' g'') :
    Forward g g'' := by
  intro i hi
  obtain ⟨j, hj, hid, hkey, hmoves⟩ := h i hi
  obtain ⟨k, hk, hid', hkey', hmoves'⟩ := h' j hj
  exact ⟨k, hk, hid'.trans hid, hkey'.trans hkey, hmoves.trans hmoves'⟩

theorem forward_revise {g : Register} {id : Uuid} {set : Incident → Incident}
    {rows : List TimelineRow} (hid : ∀ j, (set j).id = j.id)
    (hkey : ∀ j, (set j).event_key = j.event_key)
    (hmove : ∀ j ∈ g.incidents, j.id = id →
      Relation.ReflTransGen Status.Moves j.status (set j).status) :
    Forward g (g.revise id set rows) := by
  intro j hj
  refine ⟨if j.id = id then set j else j, List.mem_map_of_mem hj, ?_⟩
  by_cases hji : j.id = id
  · rw [if_pos hji]
    exact ⟨hid j, hkey j, hmove j hj hji⟩
  · rw [if_neg hji]
    exact ⟨rfl, rfl, Relation.ReflTransGen.refl⟩

theorem remarks_append {incidents : List Incident} {g : Register} {r : TimelineRow} :
    Register.remarks ⟨incidents, g.timeline ++ [r]⟩ =
      g.remarks ++ if r.action.shifts then [] else [r] := by
  unfold Register.remarks
  rw [List.filter_append, List.filter_singleton]
  cases r.action.shifts <;> rfl

theorem moves_of_active {status : Status} (h : status ≠ .resolved) :
    Relation.ReflTransGen Status.Moves status .resolved := by
  cases status with
  | opened => exact Relation.ReflTransGen.single .resolve
  | acknowledged => exact Relation.ReflTransGen.single .close
  | resolved => exact absurd rfl h

/-- **A shift keeps the tables sound.** -/
theorem Shift.sound {g g' : Register} (hshift : Shift g g') (h : Sound g) : Sound g' := by
  cases hshift with
  | create hfresh hnone hnew hid haction => exact h.create hfresh hnone hnew hid haction
  | @count i now hmem =>
      refine h.revise hmem (fun _ => rfl) (fun _ => rfl) (fun hj => hj) (h.timed i hmem) ?_
        (List.append_nil _).symm
      intro r hr
      cases hr
  | @acknowledge i r now hmem hopen hid haction =>
      have ht := h.timed i hmem
      rw [Incident.Timed, hopen] at ht
      refine h.revise hmem (fun _ => rfl) (fun _ => rfl) ?_ ⟨rfl, ht.2⟩ ?_ ?_
      · intro hj
        rw [hopen] at hj
        cases hj
      · intro r' hr'
        rw [List.mem_singleton.mp hr']
        exact hid
      · rw [Incident.lifecycle, Incident.lifecycle, ht.1, List.map_singleton, haction]
        simp only [Incident.acknowledge, ht.2]
        rfl
  | @resolve i r now hmem hactive hid haction =>
      have hopen : i.resolved = none := by
        have ht := h.timed i hmem
        unfold Incident.Timed at ht
        cases hs : i.status with
        | opened =>
            rw [hs] at ht
            exact ht.2
        | acknowledged =>
            rw [hs] at ht
            exact ht.2
        | resolved => exact absurd hs hactive
      refine h.revise hmem (fun _ => rfl) (fun _ => rfl) (fun _ => rfl) rfl ?_ ?_
      · intro r' hr'
        rw [List.mem_singleton.mp hr']
        exact hid
      · rw [Incident.lifecycle, Incident.lifecycle, hopen, List.map_singleton, haction]
        simp [Incident.resolve]
        rfl

theorem Shift.forward {g g' : Register} (hshift : Shift g g') (h : Sound g) : Forward g g' := by
  cases hshift with
  | create =>
      intro j hj
      exact ⟨j, List.mem_append_left _ hj, rfl, rfl, Relation.ReflTransGen.refl⟩
  | count =>
      apply forward_revise
      · exact fun _ => rfl
      · exact fun _ => rfl
      · exact fun _ _ _ => Relation.ReflTransGen.refl
  | @acknowledge i r now hmem hopen hid haction =>
      refine forward_revise (fun _ => rfl) (fun _ => rfl) ?_
      intro j hj hji
      rw [eq_of_id_eq h.unique hj hmem hji, hopen]
      exact Relation.ReflTransGen.single .acknowledge
  | @resolve i r now hmem hactive hid haction =>
      refine forward_revise (fun _ => rfl) (fun _ => rfl) ?_
      intro j hj hji
      rw [eq_of_id_eq h.unique hj hmem hji]
      exact moves_of_active hactive

/-- A shift puts a creation or a change of status at the end of the timeline, or nothing. -/
theorem Shift.timeline {g g' : Register} (hshift : Shift g g') :
    g.timeline <+: g'.timeline ∧ g'.remarks = g.remarks := by
  cases hshift with
  | create hfresh hnone hnew hid haction =>
      refine ⟨List.prefix_append _ _, ?_⟩
      rw [remarks_append, haction]
      exact List.append_nil _
  | count now hmem =>
      rw [Register.revise, List.append_nil]
      exact ⟨List.prefix_rfl, rfl⟩
  | acknowledge now hmem hopen hid haction =>
      refine ⟨List.prefix_append _ _, ?_⟩
      rw [Register.revise, remarks_append, haction]
      exact List.append_nil _
  | resolve now hmem hactive hid haction =>
      refine ⟨List.prefix_append _ _, ?_⟩
      rw [Register.revise, remarks_append, haction]
      exact List.append_nil _

theorem Remark.sound {g g' : Register} (hremark : Remark g g') (h : Sound g) : Sound g' := by
  cases hremark with
  | @assign i r owner now hmem hid haction =>
      refine h.revise hmem (fun _ => rfl) (fun _ => rfl) (fun hj => hj) (h.timed i hmem) ?_ ?_
      · intro r' hr'
        rw [List.mem_singleton.mp hr']
        exact hid
      · rw [List.map_singleton, haction]
        exact (List.append_nil _).symm
  | @comment i r hmem hid haction =>
      refine h.revise hmem (fun _ => rfl) (fun _ => rfl) (fun hj => hj) (h.timed i hmem) ?_ ?_
      · intro r' hr'
        rw [List.mem_singleton.mp hr']
        exact hid
      · rw [List.map_singleton, haction]
        exact (List.append_nil _).symm

theorem Remark.forward {g g' : Register} (hremark : Remark g g') : Forward g g' := by
  cases hremark with
  | assign owner now hmem hid haction =>
      exact forward_revise (fun _ => rfl) (fun _ => rfl) fun _ _ _ => Relation.ReflTransGen.refl
  | comment hmem hid haction =>
      exact forward_revise (fun _ => rfl) (fun _ => rfl) fun _ _ _ => Relation.ReflTransGen.refl

theorem Remark.timeline {g g' : Register} (hremark : Remark g g') :
    g.timeline <+: g'.timeline ∧ ∃ r, g'.remarks = g.remarks ++ [r] := by
  cases hremark with
  | @assign i r owner now hmem hid haction =>
      refine ⟨List.prefix_append _ _, r, ?_⟩
      rw [Register.revise, remarks_append, haction]
      rfl
  | @comment i r hmem hid haction =>
      refine ⟨List.prefix_append _ _, r, ?_⟩
      rw [Register.revise, remarks_append, haction]
      rfl

/-- What a chain of shifts keeps. -/
theorem shifts_keep {g g' : Register} (hshifts : Relation.ReflTransGen Shift g g') (h : Sound g) :
    Sound g' ∧ Forward g g' ∧ g.timeline <+: g'.timeline ∧ g'.remarks = g.remarks := by
  induction hshifts with
  | refl => exact ⟨h, Forward.refl g, List.prefix_rfl, rfl⟩
  | tail _ hshift ih =>
      obtain ⟨hs, hf, hp, hr⟩ := ih
      obtain ⟨hp', hr'⟩ := hshift.timeline
      exact ⟨hshift.sound hs, hf.trans (hshift.forward hs), hp.trans hp', hr'.trans hr⟩

/-! ## §5 Calls are chains of moves -/

theorem openIncident_shift {device_id title severity : Value} {event_key : Option Text}
    {actor : Text} {now : ℚ} {draw : Draw} {g g' : Register} {id : Uuid} {created : Bool}
    (h : openIncident device_id title severity event_key actor now draw g = .ok (g', id, created)) :
    Shift g g' := by
  obtain ⟨device, heading, level, h⟩ := openIncident_ok h
  rcases openTransaction_ok h with ⟨old, hold, -, -, rfl⟩ | ⟨hnone, -, -, i, r, hfresh, -, hkey, hnew,
    hid, haction, rfl⟩
  · exact Shift.count now (activeWith_some hold).1
  · exact Shift.create hfresh (hkey ▸ hnone) hnew hid haction

/-- Changes that leave the status as it is. -/
def Change.remark : Change → Bool
  | .acknowledge => false
  | .resolve => false
  | .assign => true
  | .comment => true

theorem change_moves {body : Body} {actor : Text} {now : ℚ} {g g' : Register} {id : Uuid}
    (h : change body actor now g = .ok (g', id)) :
    if (asked body).any Change.remark then Remark g g' else Shift g g' := by
  obtain ⟨i, r, c, hmem, -, hid, hc, haction, hcase⟩ := change_ok h
  rw [hc]
  rcases hcase with ⟨rfl, hopen, rfl⟩ | ⟨rfl, hactive, rfl⟩ | ⟨rfl, owner, rfl⟩ | ⟨rfl, rfl⟩
  · exact Shift.acknowledge now hmem hopen hid haction
  · exact Shift.resolve now hmem hactive hid haction
  · exact Remark.assign owner now hmem hid haction
  · exact Remark.comment hmem hid haction

/-- No move takes an id out of the table. -/
theorem Shift.has_id {g g' : Register} (hshift : Shift g g') {u : Uuid}
    (h : ∃ i ∈ g.incidents, i.id = u) : ∃ i ∈ g'.incidents, i.id = u := by
  obtain ⟨i, hi, rfl⟩ := h
  -- an update writes neither the id nor the key
  have hrevise : ∀ (id : Uuid) (set : Incident → Incident) (rows : List TimelineRow),
      (∀ j, (set j).id = j.id) → ∃ k ∈ (g.revise id set rows).incidents, k.id = i.id := by
    intro id set rows hset
    refine ⟨if i.id = id then set i else i, List.mem_map_of_mem hi, ?_⟩
    split_ifs
    · exact hset i
    · rfl
  cases hshift with
  | create => exact ⟨i, List.mem_append_left _ hi, rfl⟩
  | count => exact hrevise _ _ _ fun _ => rfl
  | acknowledge => exact hrevise _ _ _ fun _ => rfl
  | resolve => exact hrevise _ _ _ fun _ => rfl

/-- After a change the incident is found again, so nothing is raised after the commit. -/
theorem incident_isOk {g : Register} {i : Incident} (hi : i ∈ g.incidents) :
    ∃ view, incident i.id g = .ok view := by
  unfold incident
  cases hf : g.find i.id.text with
  | some j => exact ⟨_, rfl⟩
  | none =>
      have hno := List.find?_eq_none.mp hf i hi
      simp at hno

theorem changeIncident_cases (body : Body) (actor : Text) (now : ℚ) (g : Register) :
    (∃ e, changeIncident body actor now g = (g, .error e)) ∨
    ∃ g' view, changeIncident body actor now g = (g', .ok view) ∧
      if (asked body).any Change.remark then Remark g g' else Shift g g' := by
  unfold changeIncident
  cases hch : change body actor now g with
  | error e => exact Or.inl ⟨e, rfl⟩
  | ok p =>
      obtain ⟨g', id⟩ := p
      refine Or.inr ⟨g', ?_⟩
      have hmoves := change_moves hch
      obtain ⟨i, r, c, hmem, rfl, -⟩ := change_ok hch
      have hback : ∃ j ∈ g'.incidents, j.id = i.id := by
        split_ifs at hmoves with hr
        · obtain ⟨j, hj, hid, -⟩ := hmoves.forward i hmem
          exact ⟨j, hj, hid⟩
        · exact hmoves.has_id ⟨i, hmem, rfl⟩
      obtain ⟨j, hj, hid⟩ := hback
      obtain ⟨view, hview⟩ := incident_isOk hj
      rw [hid] at hview
      refine ⟨view, ?_, hmoves⟩
      show (g', incident i.id g') = (g', .ok view)
      rw [hview]

/-- **What `observe_router` does**, after it has written the health of the router. -/
theorem observeRouter_cases (row : RouterRow) (now : ℚ) (draw : Draw) (s : Store) :
    (row.ok = true ∧ s.activeWith (routerKey row.id) = none ∧
      observeRouter row now draw s = (recordHealth row now s, .ok none)) ∨
    (row.ok = true ∧ ∃ i g r, s.activeWith (routerKey row.id) = some i ∧
      changeIncident (resolveBody i.id "Связь восстановлена") (lit "collector") now s.toRegister =
        (g, r) ∧
      observeRouter row now draw s = ({ recordHealth row now s with toRegister := g },
        r.map fun _ => some .resolved)) ∨
    (row.ok = false ∧ observeRouter row now draw s = (recordHealth row now s, .ok none)) ∨
    (row.ok = false ∧ inMaintenance s (deviceOf row.id) now = false ∧
      2 ≤ failuresOf (recordHealth row now s) (deviceOf row.id) ∧
      ((∃ e, observeRouter row now draw s = (recordHealth row now s, .error e)) ∨
        ∃ g id created, openIncident (.str (deviceOf row.id)) (.str (lit "Нет связи: " ++ row.name))
            (.str (lit "critical")) (some (routerKey row.id)) (lit "system") now draw s.toRegister =
              .ok (g, id, created) ∧
          observeRouter row now draw s = ({ recordHealth row now s with toRegister := g },
            .ok (if created then some .opened else none)))) := by
  have hreg : (recordHealth row now s).toRegister = s.toRegister := rfl
  cases hok : row.ok with
  | true =>
      cases hactive : s.activeWith (routerKey row.id) with
      | none =>
          refine Or.inl ⟨rfl, rfl, ?_⟩
          simp only [observeRouter, hok, if_true, hreg, hactive]
      | some i =>
          cases hchange : changeIncident (resolveBody i.id "Связь восстановлена") (lit "collector")
              now s.toRegister with
          | mk g r =>
              refine Or.inr (Or.inl ⟨rfl, i, g, r, rfl, hchange, ?_⟩)
              simp only [observeRouter, hok, if_true, hreg, hactive, hchange]
  | false =>
      cases hturn : (!inMaintenance s (deviceOf row.id) now &&
          decide (failuresOf (recordHealth row now s) (deviceOf row.id) ≥ 2)) with
      | false =>
          refine Or.inr (Or.inr (Or.inl ⟨rfl, ?_⟩))
          simp only [observeRouter, hok, Bool.false_eq_true, if_false, hturn]
      | true =>
          obtain ⟨hmaint, hfail⟩ := Bool.and_eq_true_iff.mp hturn
          refine Or.inr (Or.inr (Or.inr ⟨rfl, ?_, of_decide_eq_true hfail, ?_⟩))
          · rw [Bool.not_eq_true'] at hmaint
            exact hmaint
          cases hopen : openIncident (.str (deviceOf row.id)) (.str (lit "Нет связи: " ++ row.name))
              (.str (lit "critical")) (some (routerKey row.id)) (lit "system") now draw
              s.toRegister with
          | error e =>
              refine Or.inl ⟨e, ?_⟩
              simp only [observeRouter, hok, Bool.false_eq_true, if_false, hturn, if_true, hreg, hopen]
          | ok p =>
              obtain ⟨g, id, created⟩ := p
              refine Or.inr ⟨g, id, created, rfl, ?_⟩
              simp only [observeRouter, hok, Bool.false_eq_true, if_false, hturn, if_true, hreg, hopen]

theorem asked_resolveBody (id : Uuid) (message : String) :
    asked (resolveBody id message) = some .resolve := rfl

/-- **`observe_router`**: at most one shift, and none when it raises. -/
theorem observeRouter_shifts (row : RouterRow) (now : ℚ) (draw : Draw) (s : Store) :
    Relation.ReflTransGen Shift s.toRegister (observeRouter row now draw s).1.toRegister ∧
      ∀ e, (observeRouter row now draw s).2 = .error e →
        (observeRouter row now draw s).1.toRegister = s.toRegister := by
  rcases observeRouter_cases row now draw s with ⟨-, -, h⟩ | ⟨-, i, g, r, -, hchange, h⟩ | ⟨-, h⟩ |
    ⟨-, -, -, ⟨e, h⟩ | ⟨g, id, created, hopen, h⟩⟩
  · rw [h]
    exact ⟨.refl, fun _ _ => rfl⟩
  · rw [h]
    rcases changeIncident_cases (resolveBody i.id "Связь восстановлена") (lit "collector") now
        s.toRegister with ⟨e, he⟩ | ⟨g', view, hok, hmoves⟩
    · cases he.symm.trans hchange
      exact ⟨.refl, fun _ _ => rfl⟩
    · cases hok.symm.trans hchange
      rw [asked_resolveBody] at hmoves
      refine ⟨.single hmoves, ?_⟩
      intro e he
      cases he
  · rw [h]
    exact ⟨.refl, fun _ _ => rfl⟩
  · rw [h]
    exact ⟨.refl, fun _ _ => rfl⟩
  · rw [h]
    refine ⟨.single (openIncident_shift hopen), ?_⟩
    intro e he
    cases he

/-- **The turn of an alert**: at most one shift, and none when it raises. -/
theorem applyAlert_shifts [LabelsDigest] (routers : List RouterId) (contexts : Dict Text ℚ)
    (a : Stamped) (s : Store) :
    Relation.ReflTransGen Shift s.toRegister
      (applyAlert routers contexts a s).1.toRegister := by
  unfold applyAlert
  by_cases hfire : a.firing = true
  · rw [if_pos hfire]
    split_ifs
    · exact .refl
    · cases hopen : openIncident (.str (alertDevice routers a.labels)) (.str a.title.chars)
          (.str (lit "critical")) (some (alertKey routers a.labels)) (lit "alertmanager") a.now a.draw
          s.toRegister with
      | error e =>
          exact .refl
      | ok p =>
          obtain ⟨g, id, created⟩ := p
          exact .single (openIncident_shift hopen)
  · rw [if_neg hfire]
    cases hactive : s.activeWith (alertKey routers a.labels) with
    | none =>
        exact .refl
    | some i =>
        dsimp only
        split_ifs with hfailing
        · exact .refl
        · rcases changeIncident_cases (resolveBody i.id "Alertmanager: восстановление")
            (lit "alertmanager") a.now s.toRegister with ⟨e, he⟩ | ⟨g', view, hok, hmoves⟩
          · rw [he]
          · rw [asked_resolveBody] at hmoves
            rw [hok]
            exact .single hmoves

theorem applyAlerts_shifts [LabelsDigest] (routers : List RouterId) (contexts : Dict Text ℚ)
    (batch : List Stamped) (out : Outcome) (s : Store) :
    Relation.ReflTransGen Shift s.toRegister
      (applyAlerts routers contexts batch out s).1.toRegister := by
  induction batch generalizing out s with
  | nil => exact .refl
  | cons a rest ih =>
      have hfirst := applyAlert_shifts routers contexts a s
      rw [applyAlerts]
      cases happly : applyAlert routers contexts a s with
      | mk u r =>
          rw [happly] at hfirst
          cases r with
          | error e => exact hfirst
          | ok v => exact hfirst.trans (ih _ u)

/-! ## §6 Identifiers are words -/

theorem hexDigit_inj : ∀ d e, hexDigit d = hexDigit e → d = e := by decide +kernel

theorem word_hexDigit : ∀ d, isSpace (.scalar (hexDigit d)) = false := by decide

theorem Hex.word (h : Hex) : Word h.text := by
  intro c hc
  obtain ⟨d, -, rfl⟩ := List.mem_map.mp hc
  exact ⟨word_hexDigit d, rfl⟩

theorem Uuid.text_injective {u v : Uuid} (h : u.text = v.text) : u = v := by
  obtain ⟨⟨ds⟩, hds⟩ := u
  obtain ⟨⟨es⟩, hes⟩ := v
  have hinj : Function.Injective fun d => CodePoint.scalar (hexDigit d) := by
    intro d e hde
    exact hexDigit_inj d e (CodePoint.scalar.inj hde)
  have heq : ds = es := List.map_injective_iff.mpr hinj h
  subst heq
  rfl

theorem Uuid.length_text (u : Uuid) : u.text.length = 32 := by
  show (u.hex.digits.map _).length = 32
  rw [List.length_map, u.length]

theorem not_space_of_idChar {c : Char} (h : idChar c = true) : isSpace (.scalar c) = false := by
  -- white space below 128 is at most 32, and the characters of an id are above
  have hn : (48 ≤ c.toNat ∧ c.toNat ≤ 122) ∨ c.toNat = 45 := by
    rcases Bool.or_eq_true_iff.mp h with h | hdash
    · rcases Bool.or_eq_true_iff.mp h with h | hunder
      · rcases Bool.or_eq_true_iff.mp h with h | hdigit
        · rcases Bool.or_eq_true_iff.mp h with hupper | hlower
          · obtain ⟨hlo, hhi⟩ := of_decide_eq_true hupper
            have h65 : 65 ≤ c.toNat := hlo
            have h90 : c.toNat ≤ 90 := hhi
            omega
          · obtain ⟨hlo, hhi⟩ := Bool.and_eq_true_iff.mp hlower
            have h97 : 97 ≤ c.toNat := of_decide_eq_true hlo
            have h122 : c.toNat ≤ 122 := of_decide_eq_true hhi
            omega
        · obtain ⟨hlo, hhi⟩ := Bool.and_eq_true_iff.mp hdigit
          have h48 : 48 ≤ c.toNat := of_decide_eq_true hlo
          have h57 : c.toNat ≤ 57 := of_decide_eq_true hhi
          omega
      · rw [beq_iff_eq] at hunder
        rw [hunder]
        decide
    · rw [beq_iff_eq] at hdash
      rw [hdash]
      decide
  have hw : whitespace c.toNat = false := by
    unfold whitespace
    simp only [Bool.or_eq_false_iff, Bool.and_eq_false_iff, decide_eq_false_iff_not, beq_eq_false_iff_ne]
    omega
  exact hw

theorem RouterId.word (r : RouterId) : Word r.text := by
  intro c hc
  obtain ⟨d, hd, rfl⟩ := List.mem_map.mp hc
  exact ⟨not_space_of_idChar (List.all_eq_true.mp r.valid d hd), rfl⟩

theorem word_deviceOf (r : RouterId) : Word (deviceOf r) := by
  refine Word.append ?_ r.word
  unfold Word lit
  decide

theorem length_deviceOf (r : RouterId) : (deviceOf r).length ≤ 64 := by
  have h := r.short
  unfold deviceOf RouterId.text
  rw [List.length_append, List.length_map]
  have h7 : (lit "router:").length = 7 := by decide
  omega

theorem encodable_routerKey (r : RouterId) : (routerKey r).encodable = true :=
  encodable_append (encodable_lit _) r.word.encodable

/-! ## §7 The calls that the code makes itself -/

theorem text_ok {s : Text} {limit : Nat} (hlen : s.length ≤ limit) :
    text (.str s) limit = .ok ⟨s.strip, (length_strip_le s).trans hlen, strip_strip s⟩ := by
  unfold text
  exact dif_pos hlen

theorem require_true {c : Prop} [Decidable c] {e : Error} (h : c) : require c e = .ok () := if_pos h

theorem require_false {c : Prop} [Decidable c] {e : Error} (h : ¬ c) : require c e = .error e :=
  if_neg h

theorem log_eq {g : Register} {r : TimelineRow} (hactor : r.actor.encodable = true)
    (hmessage : r.message.encodable = true) :
    g.log r = .ok ⟨g.incidents, g.timeline ++ [r]⟩ := by
  simp only [Register.log, sql, require_true hactor, require_true hmessage]
  rfl

/-! Opening an incident, on texts that need no stripping. -/

section Open

variable {device title key actor : Text} {severity : Severity} {now : ℚ} {ident : Uuid} {g : Register}

theorem openIncident_eq {draw : Draw} (hdevice : device.length ≤ 64) (hd : device.strip = device)
    (htitle : title.length ≤ 300) (ht : title.strip = title) (hkey : key ≠ []) :
    openIncident (.str device) (.str title) (.str (lit "critical")) (some key) actor now draw g =
      if title = [] then .error (.value "Нужны заголовок и допустимая важность")
      else openTransaction device title .critical key actor now draw.ident g := by
  have hk : eventKey (some key) draw = key := by
    cases key with
    | nil => exact absurd rfl hkey
    | cons c rest => rfl
  simp only [openIncident, text_ok hdevice, text_ok htitle, hk, hd, ht]
  split_ifs with hblank
  · show (require (title ≠ []) _ >>= _) = _
    rw [require_false (not_not.mpr hblank)]
    rfl
  · show (require (title ≠ []) _ >>= _) = _
    rw [require_true hblank]
    rfl

theorem openTransaction_active (henc : key.encodable = true) {old : Incident}
    (hold : g.activeWith key = some old) :
    openTransaction device title severity key actor now ident g =
      .ok (g.revise old.id (Incident.countAgain now) [], old.id, false) := by
  simp only [openTransaction, sql, require_true henc, hold, Register.revise, List.append_nil]
  rfl

variable (hdevice : device.encodable = true) (henc : key.encodable = true)
  (hnone : g.activeWith key = none)

include hdevice henc hnone

theorem openTransaction_unicode (htitle : title.encodable = false) :
    openTransaction device title severity key actor now ident g = .error .unicode := by
  have hno : ¬ title.encodable = true := by
    rw [htitle]
    exact Bool.false_ne_true
  simp only [openTransaction, Register.insert, sql, require_true henc, require_true hdevice,
    require_false hno, hnone]
  rfl

theorem openTransaction_taken (htitle : title.encodable = true)
    (htaken : ∃ j ∈ g.incidents, j.id = ident) :
    openTransaction device title severity key actor now ident g = .error .integrity := by
  have hno : ¬ ∀ j ∈ g.incidents, j.id ≠ ident := by
    obtain ⟨j, hj, hid⟩ := htaken
    exact fun h => h j hj hid
  simp only [openTransaction, Register.insert, sql, require_true henc, require_true hdevice,
    require_true htitle, require_false hno, hnone]
  rfl

theorem openTransaction_new (htitle : title.encodable = true)
    (hactor : Text.encodable (actor.take 160) = true) (hfresh : ∀ j ∈ g.incidents, j.id ≠ ident) :
    openTransaction device title severity key actor now ident g =
      .ok (⟨g.incidents ++
          [⟨ident, key, device, title, severity, .opened, [], now, now, none, none, 1⟩],
        g.timeline ++ [Register.row ident actor .opened title now]⟩, ident, true) := by
  have hmessage : Text.encodable (title.take 2000) = true :=
    encodable_of_sublist (List.take_sublist 2000 title) htitle
  have hlog := log_eq (g := ⟨g.incidents ++
      [⟨ident, key, device, title, severity, .opened, [], now, now, none, none, 1⟩], g.timeline⟩)
    (r := Register.row ident actor .opened title now) hactor hmessage
  simp only [openTransaction, Register.insert, sql, require_true henc, require_true hdevice,
    require_true htitle, require_true hfresh, hnone]
  show (Register.log _ _ >>= _) = _
  rw [hlog]
  rfl

end Open

/-! Closing an incident that is active. -/

theorem find_eq {g : Register} (hu : (g.incidents.map (·.id)).Nodup) {i : Incident}
    (hi : i ∈ g.incidents) : g.find i.id.text = some i := by
  cases hf : g.find i.id.text with
  | none =>
      have hno := List.find?_eq_none.mp hf i hi
      simp at hno
  | some j =>
      obtain ⟨hj, hid⟩ := find_some hf
      rw [eq_of_id_eq hu hj hi (Uuid.text_injective hid)]

theorem getD_resolveBody (id : Uuid) (message : String) :
    getD (resolveBody id message) "id" .null = .str id.text ∧
      asked (resolveBody id message) = some .resolve ∧
      getD (resolveBody id message) "message" (.str []) = .str (lit message) :=
  ⟨rfl, rfl, rfl⟩

/-- **The code closes the incident that it has found active.** -/
theorem changeIncident_resolve {g : Register} (hu : (g.incidents.map (·.id)).Nodup) {i : Incident}
    (hi : i ∈ g.incidents) (hactive : i.status ≠ .resolved) {message : String}
    (hmessage : (lit message).length ≤ 2000) (actor : String) (now : ℚ) :
    ∃ r view, r.incident_id = i.id ∧ r.action = .change .resolve ∧
      changeIncident (resolveBody i.id message) (lit actor) now g =
        (g.revise i.id (Incident.resolve now) [r], .ok view) := by
  have hid : i.id.text.length ≤ 64 := by
    rw [i.id.length_text]
    omega
  have hword : Word i.id.text := i.id.hex.word
  have hrow : ∀ g' : Register, g'.log (Register.row i.id (lit actor) (.change .resolve)
      (lit message).strip now) = .ok ⟨g'.incidents, g'.timeline ++
        [Register.row i.id (lit actor) (.change .resolve) (lit message).strip now]⟩ := by
    intro g'
    apply log_eq
    · exact encodable_of_sublist (List.take_sublist 160 _) (encodable_lit actor)
    · exact encodable_of_sublist ((List.take_sublist 2000 _).trans (strip_sublist _))
        (encodable_lit message)
  obtain ⟨hgetId, hasked, hgetMessage⟩ := getD_resolveBody i.id message
  have hchange : change (resolveBody i.id message) (lit actor) now g =
      .ok (g.revise i.id (Incident.resolve now)
        [Register.row i.id (lit actor) (.change .resolve) (lit message).strip now], i.id) := by
    unfold asked at hasked
    simp only [change, hgetId, hasked, hgetMessage, text_ok hid, text_ok hmessage, sql, hword.strip,
      ok_bind, Option.elim_some, require_true hword.encodable, find_eq hu hi, require_true hactive]
    show (Register.log _ _ >>= _) = _
    rw [hrow]
    rfl
  have hcases := changeIncident_cases (resolveBody i.id message) (lit actor) now g
  unfold changeIncident at hcases ⊢
  rw [hchange] at hcases ⊢
  rcases hcases with ⟨e, he⟩ | ⟨g', view, hok, -⟩
  · -- the timeline has grown, so this is not the register from before
    have htimeline := congrArg (fun p => p.1.timeline.length) he
    simp [Register.revise] at htimeline
  · obtain ⟨rfl, hview⟩ := Prod.mk.inj hok
    exact ⟨_, view, rfl, rfl, hok⟩

/-! ## §8 What is active after a move -/

theorem Schema.resolved_of_active {g : Register} (h : Schema g) {i j : Incident}
    (hi : i ∈ g.incidents) (hj : j ∈ g.incidents) (hkey : j.event_key = i.event_key)
    (hactive : i.status ≠ .resolved) (hne : j.id ≠ i.id) : j.status = .resolved := by
  have hsymm : Std.Symm fun i j : Incident =>
      i.event_key = j.event_key → i.status = .resolved ∨ j.status = .resolved :=
    ⟨fun _ _ hij heq => (hij heq.symm).symm⟩
  have hne' : j ≠ i := fun heq => hne (congrArg Incident.id heq)
  exact (h.single.forall hj hi hne' hkey).resolve_right hactive

theorem activeWith_revise_of_same {g : Register} {id : Uuid} {set : Incident → Incident}
    {rows : List TimelineRow} (hkey : ∀ j, (set j).event_key = j.event_key)
    (hstatus : ∀ j, (set j).status = j.status) (key : Text) :
    (g.revise id set rows).activeWith key =
      (g.activeWith key).map fun j => if j.id = id then set j else j := by
  show (g.incidents.map fun j => if j.id = id then set j else j).find? _ = _
  rw [List.find?_map]
  have hpred : ((fun j : Incident => decide (j.event_key = key) && j.active) ∘
      fun j => if j.id = id then set j else j) =
        fun j => decide (j.event_key = key) && j.active := by
    funext j
    show (decide ((if j.id = id then set j else j).event_key = key) &&
      (if j.id = id then set j else j).active) = _
    split_ifs
    · rw [hkey, Incident.active, hstatus]
      rfl
    · rfl
  rw [hpred]
  rfl

theorem activeWith_create {g : Register} {i : Incident} {rows : List TimelineRow} (hnew : i.New)
    (hnone : g.activeWith i.event_key = none) (key : Text) :
    Register.activeWith ⟨g.incidents ++ [i], rows⟩ key =
      if key = i.event_key then some i else g.activeWith key := by
  show (g.incidents ++ [i]).find? _ = _
  rw [List.find?_append]
  show (g.activeWith key).or _ = _
  have hactive : i.active = true := by
    rw [Incident.active, hnew.status]
    rfl
  split_ifs with hk
  · subst hk
    rw [hnone, Option.none_or, List.find?_singleton, hactive]
    simp
  · have hno : [i].find? (fun j => decide (j.event_key = key) && j.active) = none := by
      rw [List.find?_singleton, decide_eq_false (Ne.symm hk)]
      rfl
    rw [hno, Option.or_none]

theorem find?_map_of_same {l : List Incident} {p : Incident → Bool} {f : Incident → Incident}
    (h : ∀ j ∈ l, p (f j) = true ∨ p j = true → f j = j) : (l.map f).find? p = l.find? p := by
  induction l with
  | nil => rfl
  | cons j rest ih =>
      rw [List.map_cons, List.find?_cons, List.find?_cons,
        ih fun k hk => h k (List.mem_cons_of_mem j hk)]
      by_cases hp : p (f j) = true ∨ p j = true
      · rw [h j List.mem_cons_self hp]
      · obtain ⟨hf, hj⟩ := not_or.mp hp
        rw [Bool.eq_false_iff.mpr hf, Bool.eq_false_iff.mpr hj]

/-- **After the active incident with a key was resolved there is none.** -/
theorem activeWith_resolve {g : Register} (h : Schema g) {i : Incident} (hi : i ∈ g.incidents)
    (hactive : i.status ≠ .resolved) (now : ℚ) (rows : List TimelineRow) (key : Text) :
    (g.revise i.id (Incident.resolve now) rows).activeWith key =
      if key = i.event_key then none else g.activeWith key := by
  split_ifs with hk
  · subst hk
    rw [activeWith_eq_none]
    intro j hj hkey
    rcases (mem_update h.unique hi).mp hj with rfl | ⟨hj, hne⟩
    · rfl
    · exact h.resolved_of_active hi hj hkey hactive hne
  · -- rows with another key are not written
    apply find?_map_of_same
    intro j hj hp
    have hjk : j.event_key = key := by
      simp only [Bool.and_eq_true, decide_eq_true_eq] at hp
      rcases hp with ⟨hkey, -⟩ | ⟨hkey, -⟩
      · by_cases hid : j.id = i.id
        · rw [if_pos hid] at hkey
          exact hkey
        · rw [if_neg hid] at hkey
          exact hkey
      · exact hkey
    rw [if_neg]
    intro hid
    rw [eq_of_id_eq h.unique hj hi hid] at hjk
    exact hk hjk.symm

end NetPulse.Server
