import NetPulse.Server.IncidentRuns

/-
# NetPulse.Server.RouterRuns — the collector and the alerts on one incident

The collector opens and resolves the incident of a router by its own checks, and alerts named
`MikroTikUnreachable` open and resolve the same incident. `router_runs` says, of every call after
every run, that the collector opens at the second failed check in a row at the earliest and outside
maintenance, that a check that succeeds closes, and that no alert closes while checks fail.

The failure count of the table is the number of failed checks since the last good one
(`failuresOf_run`), whatever else was called in between.
-/

namespace NetPulse.Server

open NetPulse.Lib NetPulse.Lib.Text

section Routers

variable [LabelsDigest]

/-! ## §1 What the runs are held to -/

/-- One more call, on the number of failed checks of the router in a row. -/
def Call.countFailure (r : RouterId) (failed : Nat) : Call → Nat
  | .observeRouter row _ _ => if row.id = r then if row.ok then 0 else failed + 1 else failed
  | _ => failed

/-- The failed checks of the router since the last good one. -/
def failedInRow (r : RouterId) (calls : List Call) : Nat :=
  calls.foldl (Call.countFailure r) 0

/-- What a call may do to incidents of routers, after the calls `before`. -/
structure RouterLaw (before : List Call) (s : Store) (c : Call) (t : Store) : Prop where
  /-- The collector opens at a failed check, outside maintenance, that is at least the second one in
  a row, and when no incident is active. -/
  opens : ∀ row now draw, c = .observeRouter row now draw →
    (∃ i ∈ t.incidents, ∀ j ∈ s.incidents, j.id ≠ i.id) →
      row.ok = false ∧ inMaintenance s (deviceOf row.id) now = false ∧
        2 ≤ failedInRow row.id (before ++ [c]) ∧ s.activeWith (routerKey row.id) = none
  /-- A good check resolves the active incident and resets the count. -/
  resolves : ∀ row now draw, c = .observeRouter row now draw → row.ok = true →
    failuresOf t (deviceOf row.id) = 0 ∧ t.activeWith (routerKey row.id) = none ∧
      ∀ i, s.activeWith (routerKey row.id) = some i →
        ∃ j ∈ t.incidents, j.id = i.id ∧ j.status = .resolved
  /-- No alert closes the incident of a router that fails. -/
  leaves : ∀ routers body clock draws, c = .receiveAlerts routers body clock draws →
    ∀ r, 0 < failuresOf s (deviceOf r) → ∀ i ∈ t.incidents, i.event_key = routerKey r →
      i.status = .resolved → i ∈ s.incidents

/-! ## §2 The failure count -/

omit [LabelsDigest] in
theorem RouterId.text_injective {r r' : RouterId} (h : r.text = r'.text) : r = r' := by
  have hinj : Function.Injective CodePoint.scalar := fun _ _ => CodePoint.scalar.inj
  have hchars : r.chars = r'.chars := List.map_injective_iff.mpr hinj h
  cases r
  cases r'
  cases hchars
  rfl

omit [LabelsDigest] in
theorem deviceOf_inj {r r' : RouterId} : deviceOf r = deviceOf r' ↔ r = r' := by
  constructor
  · exact fun h => RouterId.text_injective (List.append_cancel_left h)
  · exact congrArg deviceOf

omit [LabelsDigest] in
theorem failuresOf_recordHealth (row : RouterRow) (now : ℚ) (s : Store) (r : RouterId) :
    failuresOf (recordHealth row now s) (deviceOf r) =
      if row.id = r then if row.ok then 0 else failuresOf s (deviceOf r) + 1
      else failuresOf s (deviceOf r) := by
  show ((s.router_health.set (deviceOf row.id) _).get (deviceOf r)).elim 0 _ = _
  rw [Dict.get_set]
  by_cases hr : row.id = r
  · subst hr
    rw [if_pos rfl, if_pos rfl]
    rfl
  · rw [if_neg hr, if_neg]
    · rfl
    · exact fun h => hr (deviceOf_inj.mp h).symm

omit [LabelsDigest] in
theorem health_observeRouter (row : RouterRow) (now : ℚ) (draw : Draw) (s : Store) :
    (observeRouter row now draw s).1.router_health = (recordHealth row now s).router_health := by
  rcases observeRouter_cases row now draw s with ⟨-, -, h⟩ | ⟨-, i, g, r, -, -, h⟩ | ⟨-, h⟩ |
    ⟨-, -, -, ⟨e, h⟩ | ⟨g, id, created, -, h⟩⟩
  all_goals rw [h]

theorem turns_of_receiveAlerts {routers : List RouterId} {body : Body} {clock : Nat → ℚ}
    {draws : Nat → Draw} {s : Store} (hs : Schema s.toRegister) :
    ∃ batch, Turns routers s batch (receiveAlerts routers body clock draws s).1 := by
  unfold receiveAlerts
  cases validate body with
  | error e => exact ⟨[], rfl⟩
  | ok alerts =>
      rcases applyAlerts_eq routers hs rfl rfl (stamp clock draws alerts) ⟨0, 0, 0, []⟩ with
        ⟨-, t, out, happlied, hturns⟩ | ⟨earlier, a, e, t, -, happlied, hturns⟩
      · refine ⟨stamp clock draws alerts, ?_⟩
        dsimp only
        rw [happlied]
        exact hturns
      · refine ⟨earlier, ?_⟩
        dsimp only
        rw [happlied]
        exact hturns

omit [LabelsDigest] in
theorem failuresOf_congr {s t : Store} (h : t.router_health = s.router_health) (device : Text) :
    failuresOf t device = failuresOf s device := by
  unfold failuresOf
  rw [h]

/-- **One call moves the failure count** as it moves the number of failed checks in a row. -/
theorem failuresOf_perform {s : Store} (hs : Schema s.toRegister) (c : Call) (r : RouterId) :
    failuresOf (perform s c).1 (deviceOf r) = c.countFailure r (failuresOf s (deviceOf r)) := by
  cases c with
  | openIncident device_id title severity event_key actor now draw =>
      rw [perform]
      cases openIncident device_id title severity event_key actor now draw s.toRegister with
      | error e => rfl
      | ok p => rfl
  | changeIncident body actor now => rfl
  | observeRouter row now draw =>
      show failuresOf (observeRouter row now draw s).1 (deviceOf r) = _
      rw [failuresOf_congr (health_observeRouter row now draw s), failuresOf_recordHealth]
      rfl
  | receiveAlerts routers body clock draws =>
      obtain ⟨batch, hturns⟩ := turns_of_receiveAlerts hs
      exact failuresOf_congr (Turns.context routers hturns).2 _
  | saveContext device maintenance_until => rfl

omit [LabelsDigest] in
theorem failedInRow_append (r : RouterId) (calls : List Call) (c : Call) :
    failedInRow r (calls ++ [c]) = c.countFailure r (failedInRow r calls) := by
  rw [failedInRow, List.foldl_append]
  rfl

theorem sound_run {s t : Store} (hs : Sound s.toRegister) {calls : List Call}
    (hrun : operations.run s calls = some t) : Sound t.toRegister := by
  have hstep : ∀ (u : Store) (c : Call) (v : Store), Sound u.toRegister →
      operations.step u c = some v → Sound v.toRegister := by
    intro u c v hu hv
    cases hv
    exact perform_sound hu c
  exact Machine.invariant hstep hs hrun

/-- **The failure count is the number of failed checks in a row**, in every run. -/
theorem failuresOf_run {s t : Store} (hs : Sound s.toRegister) {calls : List Call}
    (hrun : operations.run s calls = some t) (r : RouterId) :
    failuresOf t (deviceOf r) = calls.foldl (Call.countFailure r) (failuresOf s (deviceOf r)) := by
  induction calls generalizing s with
  | nil =>
      cases hrun
      rfl
  | cons c rest ih =>
      obtain ⟨u, hu, hrest⟩ := (Machine.run_cons_eq_some operations).mp hrun
      cases hu
      rw [List.foldl_cons, ← failuresOf_perform hs.toSchema]
      exact ih (perform_sound hs c) hrest

/-! ## §3 What the collector does -/

omit [LabelsDigest] in
/-- The rows after a good check. -/
theorem observeRouter_ok {row : RouterRow} (hok : row.ok = true) (now : ℚ) (draw : Draw) {s : Store}
    (hs : Schema s.toRegister) :
    (s.activeWith (routerKey row.id) = none ∧
        (observeRouter row now draw s).1.toRegister = s.toRegister) ∨
      ∃ i r, s.activeWith (routerKey row.id) = some i ∧
        (observeRouter row now draw s).1.toRegister =
          s.revise i.id (Incident.resolve now) [r] := by
  rcases observeRouter_cases row now draw s with ⟨-, hnone, h⟩ | ⟨-, i, g, r, hi, hchange, h⟩ |
    ⟨hfailed, h⟩ | ⟨hfailed, -⟩
  · rw [h]
    exact Or.inl ⟨hnone, rfl⟩
  · obtain ⟨hmem, -, hactive⟩ := activeWith_some hi
    have hmessage : (lit "Связь восстановлена").length ≤ 2000 := by decide
    obtain ⟨row', view, -, -, hres⟩ :=
      changeIncident_resolve hs.unique hmem hactive hmessage "collector" now
    cases hres.symm.trans hchange
    rw [h]
    exact Or.inr ⟨i, row', hi, rfl⟩
  · rw [hok] at hfailed
    cases hfailed
  · rw [hok] at hfailed
    cases hfailed

omit [LabelsDigest] in
/-- The rows after a failed check: one more incident only outside maintenance, at the second failure
in a row, and with none active. -/
theorem observeRouter_failed {row : RouterRow} (hfailed : row.ok = false) (now : ℚ) (draw : Draw)
    (s : Store) :
    (∀ i ∈ (observeRouter row now draw s).1.incidents, ∃ j ∈ s.incidents, j.id = i.id) ∨
      inMaintenance s (deviceOf row.id) now = false ∧
        2 ≤ failuresOf (recordHealth row now s) (deviceOf row.id) ∧
          s.activeWith (routerKey row.id) = none := by
  rcases observeRouter_cases row now draw s with ⟨hok, -⟩ | ⟨hok, -⟩ | ⟨-, h⟩ |
    ⟨-, hmaint, htwo, ⟨e, h⟩ | ⟨g, id, created, hopen, h⟩⟩
  · rw [hfailed] at hok
    cases hok
  · rw [hfailed] at hok
    cases hok
  · rw [h]
    exact Or.inl fun i hi => ⟨i, hi, rfl⟩
  · rw [h]
    exact Or.inl fun i hi => ⟨i, hi, rfl⟩
  · obtain ⟨device, heading, level, hopen⟩ := openIncident_ok hopen
    rcases openTransaction_ok hopen with ⟨old, hold, -, -, rfl⟩ | ⟨hnone, -⟩
    · -- the active incident was counted
      rw [h]
      refine Or.inl fun i hi => ?_
      obtain ⟨j, hj, rfl⟩ := List.mem_map.mp hi
      refine ⟨j, hj, ?_⟩
      split_ifs
      · rfl
      · rfl
    · exact Or.inr ⟨hmaint, htwo, hnone⟩

/-! ## §4 What alerts leave alone -/

omit [LabelsDigest] in
theorem routerKey_inj {r r' : RouterId} : routerKey r = routerKey r' ↔ r = r' := by
  constructor
  · exact fun h => RouterId.text_injective (List.append_cancel_left h)
  · exact congrArg routerKey

/-- An alert has the key of a router only when it shares the incident of that router. -/
theorem sharedRouter_of_key {routers : List RouterId} {labels : Labels} {r : RouterId}
    (h : alertKey routers labels = routerKey r) : sharedRouter routers labels = some r := by
  unfold alertKey at h
  cases hshared : sharedRouter routers labels with
  | some r' =>
      rw [hshared] at h
      rw [routerKey_inj.mp h]
  | none =>
      rw [hshared] at h
      have hhead := congrArg List.head? h
      simp [lit, routerKey] at hhead

theorem Turns.leaves {routers : List RouterId} {s t : Store} {batch : List Stamped}
    (h : Turns routers s batch t) {r : RouterId} (hfailing : 0 < failuresOf s (deviceOf r)) :
    ∀ i ∈ t.incidents, i.event_key = routerKey r → i.status = .resolved → i ∈ s.incidents := by
  induction batch generalizing s with
  | nil =>
      cases h
      exact fun i hi _ _ => hi
  | cons a rest ih =>
      obtain ⟨u, hturn, hrest⟩ := h
      intro i hi hkey hresolved
      have hu : 0 < failuresOf u (deviceOf r) := by
        rw [failuresOf_congr hturn.health]
        exact hfailing
      have hiu := ih hrest hu i hi hkey hresolved
      rcases hturn.closes i hiu hresolved with his | ⟨hikey, hstill⟩
      · exact his
      · -- the alert would have seen the failures of the router
        exfalso
        have hshared := sharedRouter_of_key (hikey.symm.trans hkey)
        rw [stillFailing, hshared] at hstill
        have hzero : failuresOf s (deviceOf r) = 0 := by simpa using hstill
        omega

/-! ## §5 Runs -/

/-- **The incidents of routers, in every run** from empty tables, with any other calls in between. -/
theorem router_runs {before : List Call} {s : Store}
    (hrun : operations.run Store.empty before = some s) (c : Call) :
    RouterLaw before s c (perform s c).1 := by
  have hs := sound_run sound_empty hrun
  have hcount : ∀ r, failuresOf s (deviceOf r) = failedInRow r before :=
    failuresOf_run sound_empty hrun
  refine ⟨?_, ?_, ?_⟩
  · rintro row now draw rfl ⟨i, hi, hnew⟩
    change i ∈ (observeRouter row now draw s).1.incidents at hi
    cases hok : row.ok with
    | true =>
        -- a good check adds no row
        exfalso
        rcases observeRouter_ok hok now draw hs.toSchema with ⟨-, hsame⟩ | ⟨k, r, hk, hres⟩
        · rw [hsame] at hi
          exact hnew i hi rfl
        · rw [hres] at hi
          obtain ⟨hmem, -⟩ := activeWith_some hk
          rcases (mem_update hs.unique hmem).mp hi with rfl | ⟨hi, -⟩
          · exact hnew k hmem rfl
          · exact hnew i hi rfl
    | false =>
        rcases observeRouter_failed hok now draw s with hold | ⟨hmaint, htwo, hnone⟩
        · obtain ⟨j, hj, hji⟩ := hold i hi
          exact absurd hji (hnew j hj)
        · rw [failuresOf_recordHealth, if_pos rfl, hok, if_neg Bool.false_ne_true, hcount] at htwo
          refine ⟨rfl, hmaint, ?_, hnone⟩
          rw [failedInRow_append]
          show 2 ≤ if row.id = row.id then if row.ok then 0 else failedInRow row.id before + 1 else _
          rw [if_pos rfl, hok, if_neg Bool.false_ne_true]
          exact htwo
  · rintro row now draw rfl hok
    have hreset : failuresOf (observeRouter row now draw s).1 (deviceOf row.id) = 0 := by
      rw [failuresOf_congr (health_observeRouter row now draw s), failuresOf_recordHealth,
        if_pos rfl, if_pos hok]
    refine ⟨hreset, ?_⟩
    show (observeRouter row now draw s).1.activeWith (routerKey row.id) = none ∧ _
    rcases observeRouter_ok hok now draw hs.toSchema with ⟨hnone, hsame⟩ | ⟨k, r, hk, hres⟩
    · rw [hsame]
      refine ⟨hnone, ?_⟩
      intro i hi
      cases hnone.symm.trans hi
    · obtain ⟨hmem, hkey, hactive⟩ := activeWith_some hk
      rw [hres, activeWith_resolve hs.toSchema hmem hactive, if_pos hkey.symm]
      refine ⟨rfl, ?_⟩
      intro i hi
      cases hk.symm.trans hi
      show ∃ j ∈ (observeRouter row now draw s).1.incidents, _
      rw [hres]
      exact ⟨Incident.resolve now k, (mem_update hs.unique hmem).mpr (Or.inl rfl), rfl, rfl⟩
  · rintro routers body clock draws rfl r hfailing
    obtain ⟨batch, hturns⟩ := turns_of_receiveAlerts hs.toSchema
    exact Turns.leaves hturns hfailing

end Routers

/-! ## §6 A run -/

section Concrete

attribute [local instance] sampleDigest

def sampleRouter : RouterId := ⟨['e', 'd', 'g', 'e'], by decide, by decide, by decide⟩

/-- A failed check. -/
def failedCheck (n : Nat) : Call := .observeRouter ⟨sampleRouter, lit "Office", false⟩ 1 (sampleDraw n)

/-- The second failed check of two. -/
theorem second_failed_check : ∃ s, operations.run Store.empty [failedCheck 0] = some s ∧
    RouterLaw [failedCheck 0] s (failedCheck 1) (perform s (failedCheck 1)).1 :=
  ⟨_, rfl, router_runs rfl (failedCheck 1)⟩

example : (perform (perform Store.empty (failedCheck 0)).1 (failedCheck 1)).1.incidents.length = 1 := by
  decide +kernel

end Concrete

end NetPulse.Server
