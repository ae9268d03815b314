import NetPulse.Server.Incidents

/-
# NetPulse.Server.AlertBatch — a batch of alerts, applied alert by alert

`receive_alerts` checks the whole batch before it writes anything, and then opens and closes
incidents in one transaction each. The second pass can still refuse an alert: `text` strips a title
after it was seen to be there, and SQLite encodes it. What was applied before it stays.

Whether an alert is refused depends on which keys are active and which ids are in use when its turn
comes. A `Shadow` is that much of the tables, and the batch moves it as it moves the tables. So the
first alert that is refused (`firstRefused`) is found without running the batch, and
`batch_atomic_iff` says when the batch is atomic.
-/

namespace NetPulse.Server

open NetPulse.Lib NetPulse.Lib.Text

/-! ## §1 Rows of other incidents, and growth -/

/-- Rows with another key, and what the timeline has about them, are as they were. -/
def Untouched (g g' : Register) (key : Text) : Prop :=
  (g'.incidents.filter fun i => decide (i.event_key = key)) =
      (g.incidents.filter fun i => decide (i.event_key = key)) ∧
    ∀ i ∈ g.incidents, i.event_key = key →
      (g'.timeline.filter fun r => decide (r.incident_id = i.id)) =
        g.timeline.filter fun r => decide (r.incident_id = i.id)

def countedIn : List Incident → Nat
  | [] => 0
  | i :: rest => i.occurrences + countedIn rest

/-- It grows with every occurrence and every row of the timeline. -/
def Register.weight (g : Register) : Nat := g.timeline.length + countedIn g.incidents

theorem Untouched.refl (g : Register) (key : Text) : Untouched g g key :=
  ⟨rfl, fun _ _ _ => rfl⟩

theorem Untouched.trans {g g' g'' : Register} {key : Text} (h : Untouched g g' key)
    (h' : Untouched g' g'' key) : Untouched g g'' key := by
  refine ⟨h'.1.trans h.1, ?_⟩
  intro i hi hkey
  have hi' : i ∈ g'.incidents := by
    have hmem : i ∈ g'.incidents.filter fun i => decide (i.event_key = key) := by
      rw [h.1]
      exact List.mem_filter.mpr ⟨hi, decide_eq_true hkey⟩
    exact List.mem_of_mem_filter hmem
  exact (h'.2 i hi' hkey).trans (h.2 i hi hkey)

theorem filter_rows_of_other {rows : List TimelineRow} {id : Uuid}
    (h : ∀ r ∈ rows, r.incident_id ≠ id) :
    (rows.filter fun r => decide (r.incident_id = id)) = [] := by
  rw [List.filter_eq_nil_iff]
  intro r hr
  rw [decide_eq_true_eq]
  exact h r hr

theorem untouched_revise {g : Register} (hu : (g.incidents.map (·.id)).Nodup) {i : Incident}
    (hi : i ∈ g.incidents) {set : Incident → Incident} {rows : List TimelineRow} {key : Text}
    (hkey : i.event_key ≠ key) (hset : ∀ j, (set j).event_key = j.event_key)
    (hrows : ∀ r ∈ rows, r.incident_id = i.id) : Untouched g (g.revise i.id set rows) key := by
  constructor
  · show ((g.incidents.map fun j => if j.id = i.id then set j else j).filter _) = _
    rw [List.filter_map]
    have hpred : (((fun j : Incident => decide (j.event_key = key)) ∘
        fun j => if j.id = i.id then set j else j)) = fun j => decide (j.event_key = key) := by
      funext j
      show decide ((if j.id = i.id then set j else j).event_key = key) = _
      split_ifs
      · rw [hset]
      · rfl
    rw [hpred]
    -- a row with the key is not the one that was written
    refine (List.map_congr_left fun j hj => ?_).trans (List.map_id _)
    obtain ⟨hmem, hjk⟩ := List.mem_filter.mp hj
    rw [if_neg]
    · rfl
    · intro hid
      rw [eq_of_id_eq hu hmem hi hid] at hjk
      exact hkey (of_decide_eq_true hjk)
  · intro j hj hjk
    show ((g.timeline ++ rows).filter _) = _
    have hother : ∀ r ∈ rows, r.incident_id ≠ j.id := by
      intro r hr hid
      rw [eq_of_id_eq hu hi hj ((hrows r hr).symm.trans hid)] at hkey
      exact hkey hjk
    rw [List.filter_append, filter_rows_of_other hother, List.append_nil]

theorem untouched_create {g : Register} {i : Incident} {r : TimelineRow} {key : Text}
    (hfresh : ∀ j ∈ g.incidents, j.id ≠ i.id) (hkey : i.event_key ≠ key)
    (hid : r.incident_id = i.id) :
    Untouched g ⟨g.incidents ++ [i], g.timeline ++ [r]⟩ key := by
  constructor
  · show ((g.incidents ++ [i]).filter _) = _
    rw [List.filter_append, List.filter_singleton, decide_eq_false hkey]
    exact List.append_nil _
  · intro j hj _
    show ((g.timeline ++ [r]).filter _) = _
    have hother : ∀ r' ∈ [r], r'.incident_id ≠ j.id := by
      intro r' hr'
      rw [List.mem_singleton.mp hr', hid]
      exact Ne.symm (hfresh j hj)
    rw [List.filter_append, filter_rows_of_other hother, List.append_nil]

theorem countedIn_append (l l' : List Incident) :
    countedIn (l ++ l') = countedIn l + countedIn l' := by
  induction l with
  | nil => rw [List.nil_append, countedIn, Nat.zero_add]
  | cons i rest ih =>
      rw [List.cons_append, countedIn, countedIn, ih]
      omega

theorem countedIn_map_le {l : List Incident} {f : Incident → Incident}
    (hf : ∀ i, i.occurrences ≤ (f i).occurrences) : countedIn l ≤ countedIn (l.map f) := by
  induction l with
  | nil => exact Nat.le_refl _
  | cons i rest ih =>
      rw [List.map_cons, countedIn, countedIn]
      exact Nat.add_le_add (hf i) ih

theorem countedIn_map_lt {l : List Incident} {f : Incident → Incident}
    (hf : ∀ i, i.occurrences ≤ (f i).occurrences) {i : Incident} (hi : i ∈ l)
    (hlt : i.occurrences < (f i).occurrences) : countedIn l < countedIn (l.map f) := by
  induction l with
  | nil => cases hi
  | cons j rest ih =>
      rw [List.map_cons, countedIn, countedIn]
      rcases List.mem_cons.mp hi with rfl | hi
      · have hrest := countedIn_map_le (l := rest) hf
        omega
      · have hj := hf j
        have hrest := ih hi
        omega

section Batch

variable [LabelsDigest] (routers : List RouterId)

/-! ## §2 What the second pass refuses -/

/-- The keys that are active and the ids in use. -/
@[ext]
structure Shadow where
  active : Text → Bool
  used : Uuid → Bool

def Register.shadow (g : Register) : Shadow where
  active key := (g.activeWith key).isSome
  used id := g.incidents.any fun i => decide (i.id = id)

/-- The exception with which the turn of the alert ends, if it does. -/
def refusal (s : Store) (h : Shadow) (a : Stamped) : Option Error :=
  if a.firing && !alertInMaintenance routers s.device_context a then
    if a.title.chars = [] then some (.value "Нужны заголовок и допустимая важность")
    else if h.active (alertKey routers a.labels) then none
    else if !a.title.chars.encodable then some .unicode
    else if h.used a.draw.ident then some .integrity
    else none
  else none

/-- There is nothing to apply: the device is in maintenance, or there is nothing to close, or the
collector has the router failing. -/
def idle (s : Store) (h : Shadow) (a : Stamped) : Bool :=
  if a.firing then alertInMaintenance routers s.device_context a
  else !h.active (alertKey routers a.labels) || stillFailing routers s a.toAlert

/-- The shadow after the turn of an alert that is not refused. -/
def Shadow.after (s : Store) (h : Shadow) (a : Stamped) : Shadow :=
  let key := alertKey routers a.labels
  if idle routers s h a then h
  else if !a.firing then { h with active := fun k => decide (k ≠ key) && h.active k }
  else if h.active key then h
  else ⟨fun k => decide (k = key) || h.active k, fun u => decide (a.draw.ident = u) || h.used u⟩

/-- The first alert that is refused, after which ones, and how. -/
def firstRefused (s : Store) : Shadow → List Stamped → Option (List Stamped × Stamped × Error)
  | _, [] => none
  | h, a :: rest =>
      match refusal routers s h a with
      | some e => some ([], a, e)
      | none => (firstRefused s (h.after routers s a) rest).map fun p => (a :: p.1, p.2)

/-! ## §3 The turn of one alert -/

/-- What came of the turn of an alert, whatever it was. -/
def Applied (s : Store) (a : Stamped) (t : Store) : Prop :=
  let key := alertKey routers a.labels
  if idle routers s s.shadow a then t = s
  else if a.firing then
    ∃ i, t.activeWith key = some i ∧
      i.occurrences = (s.activeWith key).elim 0 (·.occurrences) + 1
  else t.activeWith key = none ∧
    ∀ i, s.activeWith key = some i → ∃ j ∈ t.incidents, j.id = i.id ∧ j.status = .resolved

/-- What the turn of an alert does when it does not raise. -/
structure Turn (s : Store) (a : Stamped) (t : Store) : Prop where
  schema : Schema t.toRegister
  health : t.router_health = s.router_health
  context : t.device_context = s.device_context
  applied : Applied routers s a t
  shadow : t.shadow = s.shadow.after routers s a
  grows : idle routers s s.shadow a = false → s.weight < t.weight
  others : ∀ key, alertKey routers a.labels ≠ key → Untouched s.toRegister t.toRegister key
  closes : ∀ i ∈ t.incidents, i.status = .resolved → i ∈ s.incidents ∨
    i.event_key = alertKey routers a.labels ∧ stillFailing routers s a.toAlert = false

omit [LabelsDigest] in
theorem active_shadow (g : Register) (key : Text) :
    g.shadow.active key = (g.activeWith key).isSome := rfl

theorem alertKey_ne_nil (labels : Labels) : alertKey routers labels ≠ [] := by
  unfold alertKey
  intro h
  have hlen := congrArg List.length h
  split at hlen
  · rw [routerKey, List.length_append] at hlen
    have h19 : (lit "router-unreachable:").length = 19 := by decide
    rw [List.length_nil] at hlen
    omega
  · rw [List.length_append] at hlen
    have h11 : (lit "prometheus:").length = 11 := by decide
    rw [List.length_nil] at hlen
    omega

theorem encodable_alertKey (labels : Labels) : (alertKey routers labels).encodable = true := by
  unfold alertKey
  split
  · exact encodable_routerKey _
  · exact encodable_append (encodable_lit _) (Hex.word _).encodable

omit [LabelsDigest] in
theorem alertDevice_word (labels : Labels) :
    Word (alertDevice routers labels) ∧ (alertDevice routers labels).length ≤ 64 := by
  unfold alertDevice
  cases routerOf routers labels with
  | none => exact ⟨fun c hc => (by cases hc), Nat.zero_le _⟩
  | some r => exact ⟨word_deviceOf r, length_deviceOf r⟩

/-- What the code opens an incident with, for an alert. -/
theorem openIncident_alert (a : Stamped) (g : Register) :
    openIncident (.str (alertDevice routers a.labels)) (.str a.title.chars) (.str (lit "critical"))
        (some (alertKey routers a.labels)) (lit "alertmanager") a.now a.draw g =
      if a.title.chars = [] then .error (.value "Нужны заголовок и допустимая важность")
      else openTransaction (alertDevice routers a.labels) a.title.chars .critical
        (alertKey routers a.labels) (lit "alertmanager") a.now a.draw.ident g := by
  obtain ⟨hword, hlen⟩ := alertDevice_word routers a.labels
  exact openIncident_eq hlen hword.strip a.title.short a.title.stripped (alertKey_ne_nil routers _)

/-- **An alert is refused** exactly as `refusal` says. -/
theorem applyAlert_refused {s : Store} {a : Stamped} {e : Error}
    (h : refusal routers s s.shadow a = some e) :
    applyAlert routers s.device_context a s = (s, .error e) := by
  have hkey := encodable_alertKey routers a.labels
  have hdev := (alertDevice_word routers a.labels).1.encodable
  unfold refusal at h
  split_ifs at h with hturn hblank hactive hunicode htaken
  all_goals
    obtain ⟨hfire, hmaint⟩ := Bool.and_eq_true_iff.mp hturn
    rw [Bool.not_eq_true'] at hmaint
    cases h
    simp only [applyAlert, hfire, hmaint, openIncident_alert]
  · rw [if_pos hblank]
    rfl
  · rw [active_shadow, Option.isSome_iff_ne_none, not_not] at hactive
    rw [Bool.not_eq_true'] at hunicode
    rw [if_neg hblank, openTransaction_unicode hdev hkey hactive hunicode]
    rfl
  · rw [active_shadow, Option.isSome_iff_ne_none, not_not] at hactive
    rw [Bool.not_eq_true', Bool.not_eq_false] at hunicode
    have hused : ∃ j ∈ s.incidents, j.id = a.draw.ident := by
      obtain ⟨j, hj, hid⟩ := List.any_eq_true.mp htaken
      exact ⟨j, hj, of_decide_eq_true hid⟩
    rw [if_neg hblank, openTransaction_taken hdev hkey hactive hunicode hused]
    rfl

theorem applyAlert_idle {s : Store} {a : Stamped} (h : idle routers s s.shadow a = true) :
    applyAlert routers s.device_context a s = (s, .ok .ignored) := by
  unfold idle at h
  unfold applyAlert
  by_cases hfire : a.firing = true
  · rw [if_pos hfire] at h
    simp only [hfire, h, if_true]
  · rw [if_neg hfire, active_shadow] at h
    rw [if_neg hfire]
    cases hactive : s.activeWith (alertKey routers a.labels) with
    | none => rfl
    | some i =>
        rw [hactive, Option.isSome_some, Bool.not_true, Bool.false_or] at h
        simp only [h, if_true]

omit [LabelsDigest] in
theorem used_revise {g : Register} {id : Uuid} {set : Incident → Incident} {rows : List TimelineRow}
    (hid : ∀ j, (set j).id = j.id) : (g.revise id set rows).shadow.used = g.shadow.used := by
  funext u
  show ((g.incidents.map fun j => if j.id = id then set j else j).any _) = _
  rw [List.any_map]
  have hpred : ((fun i : Incident => decide (i.id = u)) ∘ fun j => if j.id = id then set j else j) =
      fun i => decide (i.id = u) := by
    funext j
    show decide ((if j.id = id then set j else j).id = u) = _
    split_ifs
    · rw [hid]
    · rfl
  rw [hpred]
  rfl

/-! The three ways for an alert to have an effect. -/

section Effects

variable {s : Store} (hs : Schema s.toRegister) {a : Stamped}

include hs

theorem turn_count (hfire : a.firing = true)
    (hmaint : alertInMaintenance routers s.device_context a = false) {old : Incident}
    (hold : s.activeWith (alertKey routers a.labels) = some old) :
    Turn routers s a
      { s with toRegister := s.revise old.id (Incident.countAgain a.now) [] } := by
  obtain ⟨hmem, hkey, hactive⟩ := activeWith_some hold
  have hidle : idle routers s s.shadow a = false := by
    rw [idle, if_pos hfire]
    exact hmaint
  have hwith : ∀ key, (s.revise old.id (Incident.countAgain a.now) []).activeWith key =
      (s.activeWith key).map fun j => if j.id = old.id then Incident.countAgain a.now j else j :=
    activeWith_revise_of_same (fun _ => rfl) (fun _ => rfl)
  refine ⟨hs.revise hmem (fun _ => rfl) (fun _ => rfl) (fun h => h), rfl, rfl, ?_, ?_, ?_, ?_, ?_⟩
  · rw [Applied, if_neg (Bool.eq_false_iff.mp hidle), if_pos hfire]
    refine ⟨Incident.countAgain a.now old, ?_, ?_⟩
    · rw [hwith, hold, Option.map_some, if_pos rfl]
    · rw [hold]
      rfl
  · -- the same keys are active, with the same ids
    have hafter : s.shadow.after routers s a = s.shadow := by
      simp only [Shadow.after, hidle, hfire, active_shadow, hold, Option.isSome_some, if_true,
        Bool.not_true, Bool.false_eq_true, if_false]
    rw [hafter]
    refine Shadow.ext (funext fun key => ?_) (used_revise fun _ => rfl)
    show (Register.activeWith _ key).isSome = (s.activeWith key).isSome
    rw [hwith, Option.isSome_map]
  · intro _
    have hlt : countedIn s.incidents < countedIn (s.incidents.map fun j =>
        if j.id = old.id then Incident.countAgain a.now j else j) := by
      refine countedIn_map_lt (fun j => ?_) hmem ?_
      · split_ifs
        · exact Nat.le_succ _
        · exact Nat.le_refl _
      · rw [if_pos rfl]
        exact Nat.lt_succ_self _
    show s.timeline.length + _ < (s.timeline ++ []).length + countedIn (s.incidents.map _)
    rw [List.append_nil]
    omega
  · intro key hne
    refine untouched_revise hs.unique hmem ?_ (fun _ => rfl) ?_
    · rw [hkey]
      exact hne
    · intro r hr
      cases hr
  · intro j hj hresolved
    rcases (mem_update hs.unique hmem).mp hj with rfl | ⟨hj, -⟩
    · exact absurd hresolved hactive
    · exact Or.inl hj

theorem turn_create (hfire : a.firing = true)
    (hmaint : alertInMaintenance routers s.device_context a = false)
    (hnone : s.activeWith (alertKey routers a.labels) = none) {i : Incident} {r : TimelineRow}
    (hfresh : ∀ j ∈ s.incidents, j.id ≠ i.id) (hid : i.id = a.draw.ident)
    (hkey : i.event_key = alertKey routers a.labels) (hnew : i.New) (hrow : r.incident_id = i.id) :
    Turn routers s a { s with toRegister := ⟨s.incidents ++ [i], s.timeline ++ [r]⟩ } := by
  have hidle : idle routers s s.shadow a = false := by
    rw [idle, if_pos hfire]
    exact hmaint
  have hnone' : s.activeWith i.event_key = none := by
    rw [hkey]
    exact hnone
  have hwith : ∀ key, Register.activeWith ⟨s.incidents ++ [i], s.timeline ++ [r]⟩ key =
      if key = i.event_key then some i else s.activeWith key := activeWith_create hnew hnone'
  refine ⟨hs.create hfresh hnone', rfl, rfl, ?_, ?_, ?_, ?_, ?_⟩
  · rw [Applied, if_neg (Bool.eq_false_iff.mp hidle), if_pos hfire]
    refine ⟨i, ?_, ?_⟩
    · rw [hwith, hkey, if_pos rfl]
    · rw [hnone, hnew.occurrences]
      rfl
  · have hafter : s.shadow.after routers s a =
        ⟨fun k => decide (k = alertKey routers a.labels) || s.shadow.active k,
          fun u => decide (a.draw.ident = u) || s.shadow.used u⟩ := by
      simp only [Shadow.after, hidle, hfire, active_shadow, hnone, Option.isSome_none,
        Bool.not_true, Bool.false_eq_true, if_false]
    rw [hafter]
    refine Shadow.ext (funext fun key => ?_) (funext fun u => ?_)
    · show (Register.activeWith _ key).isSome = (_ || (s.activeWith key).isSome)
      rw [hwith, hkey]
      by_cases hk : key = alertKey routers a.labels
      · rw [if_pos hk, decide_eq_true hk]
        rfl
      · rw [if_neg hk, decide_eq_false hk, Bool.false_or]
    · show (s.incidents ++ [i]).any _ = (_ || s.incidents.any _)
      rw [List.any_append, List.any_cons, List.any_nil, Bool.or_false, hid, Bool.or_comm]
  · intro _
    show s.timeline.length + _ < (s.timeline ++ [r]).length + countedIn (s.incidents ++ [i])
    rw [List.length_append, List.length_singleton, countedIn_append]
    omega
  · intro key hne
    refine untouched_create hfresh ?_ hrow
    rw [hkey]
    exact hne
  · intro j hj hresolved
    rcases List.mem_append.mp hj with hj | hj
    · exact Or.inl hj
    · rw [List.mem_singleton.mp hj, hnew.status] at hresolved
      cases hresolved

theorem turn_resolve (hfire : a.firing = false) {i : Incident}
    (hi : s.activeWith (alertKey routers a.labels) = some i)
    (hfailing : stillFailing routers s a.toAlert = false) {r : TimelineRow}
    (hrow : r.incident_id = i.id) :
    Turn routers s a
      { s with toRegister := s.revise i.id (Incident.resolve a.now) [r] } := by
  obtain ⟨hmem, hkey, hactive⟩ := activeWith_some hi
  have hidle : idle routers s s.shadow a = false := by
    rw [idle, hfire, if_neg Bool.false_ne_true, active_shadow, hi, hfailing]
    rfl
  have hwith := activeWith_resolve hs hmem hactive a.now [r]
  refine ⟨hs.revise hmem (fun _ => rfl) (fun _ => rfl) (fun _ => rfl), rfl, rfl, ?_, ?_, ?_, ?_, ?_⟩
  · rw [Applied, if_neg (Bool.eq_false_iff.mp hidle), hfire, if_neg Bool.false_ne_true]
    refine ⟨?_, ?_⟩
    · rw [hwith, hkey, if_pos rfl]
    · intro j hj
      cases hi.symm.trans hj
      exact ⟨Incident.resolve a.now i, (mem_update hs.unique hmem).mpr (Or.inl rfl), rfl, rfl⟩
  · have hafter : s.shadow.after routers s a = { s.shadow with
        active := fun k => decide (k ≠ alertKey routers a.labels) && s.shadow.active k } := by
      simp only [Shadow.after, hidle, hfire, Bool.not_false, Bool.false_eq_true, if_false, if_true]
    rw [hafter]
    refine Shadow.ext (funext fun key => ?_) (used_revise fun _ => rfl)
    show (Register.activeWith _ key).isSome = (_ && (s.activeWith key).isSome)
    rw [hwith, hkey]
    by_cases hk : key = alertKey routers a.labels
    · rw [if_pos hk, decide_eq_false (not_not.mpr hk)]
      rfl
    · rw [if_neg hk, decide_eq_true hk, Bool.true_and]
  · intro _
    have hle : countedIn s.incidents ≤ countedIn (s.incidents.map fun j =>
        if j.id = i.id then Incident.resolve a.now j else j) := by
      apply countedIn_map_le
      intro j
      split_ifs
      · exact Nat.le_refl _
      · exact Nat.le_refl _
    show s.timeline.length + _ < (s.timeline ++ [r]).length + countedIn (s.incidents.map _)
    rw [List.length_append, List.length_singleton]
    omega
  · intro key hne
    refine untouched_revise hs.unique hmem ?_ (fun _ => rfl) ?_
    · rw [hkey]
      exact hne
    · intro r' hr'
      rw [List.mem_singleton.mp hr']
      exact hrow
  · intro j hj _
    rcases (mem_update hs.unique hmem).mp hj with rfl | ⟨hj, -⟩
    · exact Or.inr ⟨hkey, hfailing⟩
    · exact Or.inl hj

/-- **An alert that is not refused has its turn.** -/
theorem applyAlert_turn (h : refusal routers s s.shadow a = none) :
    ∃ t v, applyAlert routers s.device_context a s = (t, .ok v) ∧ Turn routers s a t := by
  by_cases hidle : idle routers s s.shadow a = true
  · refine ⟨s, .ignored, applyAlert_idle routers hidle, hs, rfl, rfl, ?_, ?_, ?_, ?_,
      fun _ hi _ => Or.inl hi⟩
    · rw [Applied, if_pos hidle]
    · rw [Shadow.after, if_pos hidle]
    · intro hno
      rw [hidle] at hno
      cases hno
    · exact fun key _ => Untouched.refl _ key
  rw [Bool.not_eq_true] at hidle
  have hkey := encodable_alertKey routers a.labels
  have hdev := (alertDevice_word routers a.labels).1.encodable
  cases hfire : a.firing with
  | true =>
      have hmaint : alertInMaintenance routers s.device_context a = false := by
        rw [idle, if_pos hfire] at hidle
        exact hidle
      simp only [refusal, hfire, hmaint, Bool.not_false, Bool.and_self, if_true] at h
      split_ifs at h with hblank hactive hunicode htaken
      · -- the incident is active and is counted
        obtain ⟨old, hold⟩ := Option.isSome_iff_exists.mp hactive
        refine ⟨_, .ignored, ?_, turn_count routers hs hfire hmaint hold⟩
        simp only [applyAlert, hfire, hmaint, openIncident_alert, if_neg hblank,
          openTransaction_active hkey hold, if_true, Bool.false_eq_true, if_false]
      · -- a new one
        rw [active_shadow, Option.isSome_iff_ne_none, not_not] at hactive
        rw [Bool.not_eq_true', Bool.not_eq_false] at hunicode
        have hfresh : ∀ j ∈ s.incidents, j.id ≠ a.draw.ident := by
          intro j hj hid
          exact htaken (List.any_eq_true.mpr ⟨j, hj, decide_eq_true hid⟩)
        have hactor : Text.encodable ((lit "alertmanager").take 160) = true :=
          encodable_of_sublist (List.take_sublist 160 _) (encodable_lit _)
        refine ⟨_, .opened, ?_, turn_create routers hs hfire hmaint hactive
          (i := ⟨a.draw.ident, alertKey routers a.labels, alertDevice routers a.labels,
            a.title.chars, .critical, .opened, [], a.now, a.now, none, none, 1⟩)
          (r := Register.row a.draw.ident (lit "alertmanager") .opened a.title.chars a.now)
          hfresh rfl rfl ⟨rfl, rfl, rfl, rfl⟩ rfl⟩
        simp only [applyAlert, hfire, hmaint, openIncident_alert, if_neg hblank,
          openTransaction_new hdev hkey hactive hunicode hactor hfresh, if_true,
          Bool.false_eq_true, if_false]
  | false =>
      rw [idle, hfire, if_neg Bool.false_ne_true, Bool.or_eq_false_iff, Bool.not_eq_false',
        active_shadow] at hidle
      obtain ⟨i, hi⟩ := Option.isSome_iff_exists.mp hidle.1
      obtain ⟨hmem, -, hactive⟩ := activeWith_some hi
      have hmessage : (lit "Alertmanager: восстановление").length ≤ 2000 := by decide
      obtain ⟨r, view, hrow, -, hres⟩ :=
        changeIncident_resolve hs.unique hmem hactive hmessage "alertmanager" a.now
      refine ⟨_, .resolved, ?_, turn_resolve routers hs hfire hi hidle.2 hrow⟩
      simp only [applyAlert, hfire, hi, hidle.2, hres, Bool.false_eq_true, if_false]

end Effects

/-! ## §4 The turns of a batch -/

theorem refusal_congr {s t : Store} (hc : t.device_context = s.device_context) (h : Shadow)
    (a : Stamped) : refusal routers t h a = refusal routers s h a := by
  unfold refusal
  rw [hc]

omit [LabelsDigest] in
theorem stillFailing_congr {s t : Store} (hh : t.router_health = s.router_health) (a : Alert) :
    stillFailing routers t a = stillFailing routers s a := by
  unfold stillFailing failuresOf
  rw [hh]

theorem idle_congr {s t : Store} (hc : t.device_context = s.device_context)
    (hh : t.router_health = s.router_health) (h : Shadow) (a : Stamped) :
    idle routers t h a = idle routers s h a := by
  unfold idle
  rw [hc, stillFailing_congr routers hh]

theorem after_congr {s t : Store} (hc : t.device_context = s.device_context)
    (hh : t.router_health = s.router_health) (h : Shadow) (a : Stamped) :
    h.after routers t a = h.after routers s a := by
  unfold Shadow.after
  rw [idle_congr routers hc hh]

/-- One turn after the other. -/
def Turns : Store → List Stamped → Store → Prop
  | s, [], t => t = s
  | s, a :: rest, t => ∃ u, Turn routers s a u ∧ Turns u rest t

/-- Each alert of the batch, applied to what the ones before it have left. -/
def AllApplied : Store → List Stamped → Store → Prop
  | s, [], t => t = s
  | s, a :: rest, t => ∃ u, Applied routers s a u ∧ AllApplied u rest t

theorem Turns.allApplied {s t : Store} {batch : List Stamped} (h : Turns routers s batch t) :
    AllApplied routers s batch t := by
  induction batch generalizing s with
  | nil => exact h
  | cons a rest ih =>
      obtain ⟨u, hturn, hrest⟩ := h
      exact ⟨u, hturn.applied, ih hrest⟩

theorem Turns.context {s t : Store} {batch : List Stamped} (h : Turns routers s batch t) :
    t.device_context = s.device_context ∧ t.router_health = s.router_health := by
  induction batch generalizing s with
  | nil =>
      cases h
      exact ⟨rfl, rfl⟩
  | cons a rest ih =>
      obtain ⟨u, hturn, hrest⟩ := h
      obtain ⟨hc, hh⟩ := ih hrest
      exact ⟨hc.trans hturn.context, hh.trans hturn.health⟩

/-- **What becomes of a batch**, read off the first alert that is refused. -/
theorem applyAlerts_eq {s₀ s : Store} (hs : Schema s.toRegister)
    (hc : s.device_context = s₀.device_context) (hh : s.router_health = s₀.router_health)
    (batch : List Stamped) (out : Outcome) :
    (firstRefused routers s₀ s.shadow batch = none ∧ ∃ t out',
      applyAlerts routers s₀.device_context batch out s = (t, .ok out') ∧
        Turns routers s batch t) ∨
    (∃ earlier a e t, firstRefused routers s₀ s.shadow batch = some (earlier, a, e) ∧
      applyAlerts routers s₀.device_context batch out s = (t, .error e) ∧
        Turns routers s earlier t) := by
  induction batch generalizing s out with
  | nil => exact Or.inl ⟨rfl, s, out, rfl, rfl⟩
  | cons a rest ih =>
      cases hr : refusal routers s s.shadow a with
      | some e =>
          refine Or.inr ⟨[], a, e, s, ?_, ?_, rfl⟩
          · rw [firstRefused, ← refusal_congr routers hc, hr]
          · rw [applyAlerts, ← hc, applyAlert_refused routers hr]
      | none =>
          obtain ⟨u, v, happly, hturn⟩ := applyAlert_turn routers hs hr
          have hfirst : firstRefused routers s₀ s.shadow (a :: rest) =
              (firstRefused routers s₀ u.shadow rest).map fun p => (a :: p.1, p.2) := by
            rw [firstRefused, ← refusal_congr routers hc, hr, hturn.shadow,
              after_congr routers hc hh]
          have hstep : applyAlerts routers s₀.device_context (a :: rest) out s =
              applyAlerts routers s₀.device_context rest (out.add a.toAlert v) u := by
            rw [applyAlerts, ← hc, happly]
          rw [hfirst, hstep]
          rcases ih hturn.schema (hturn.context.trans hc) (hturn.health.trans hh)
              (out.add a.toAlert v) with
            ⟨hnone, t, out', happlied, hturns⟩ | ⟨earlier, b, e, t, hsome, happlied, hturns⟩
          · rw [hnone]
            exact Or.inl ⟨rfl, t, out', happlied, u, hturn, hturns⟩
          · rw [hsome]
            exact Or.inr ⟨a :: earlier, b, e, t, rfl, happlied, u, hturn, hturns⟩

theorem Turns.weight_le {s t : Store} {batch : List Stamped} (h : Turns routers s batch t) :
    s.weight ≤ t.weight := by
  induction batch generalizing s with
  | nil =>
      cases h
      exact Nat.le_refl _
  | cons a rest ih =>
      obtain ⟨u, hturn, hrest⟩ := h
      refine Nat.le_trans ?_ (ih hrest)
      cases hidle : idle routers s s.shadow a with
      | true =>
          have happlied := hturn.applied
          rw [Applied, if_pos hidle] at happlied
          rw [happlied]
      | false => exact Nat.le_of_lt (hturn.grows hidle)

/-- Idle alerts leave the tables as they are. -/
theorem Turns.eq_of_idle {s t : Store} {batch : List Stamped} (h : Turns routers s batch t)
    (hidle : ∀ a ∈ batch, idle routers s s.shadow a = true) : t = s := by
  induction batch generalizing s with
  | nil => exact h
  | cons a rest ih =>
      obtain ⟨u, hturn, hrest⟩ := h
      have happlied := hturn.applied
      rw [Applied, if_pos (hidle a List.mem_cons_self)] at happlied
      subst happlied
      exact ih hrest fun b hb => hidle b (List.mem_cons_of_mem a hb)

/-- A batch that is not all idle leaves more in the tables than there was. -/
theorem Turns.grows {s t : Store} {batch : List Stamped} (h : Turns routers s batch t)
    {a : Stamped} (ha : a ∈ batch) (hidle : idle routers s s.shadow a = false) :
    s.weight < t.weight := by
  induction batch generalizing s with
  | nil => cases ha
  | cons b rest ih =>
      obtain ⟨u, hturn, hrest⟩ := h
      cases hb : idle routers s s.shadow b with
      | false => exact Nat.lt_of_lt_of_le (hturn.grows hb) hrest.weight_le
      | true =>
          have happlied := hturn.applied
          rw [Applied, if_pos hb] at happlied
          subst happlied
          rcases List.mem_cons.mp ha with rfl | ha
          · rw [hb] at hidle
            cases hidle
          · exact ih hrest ha hidle

/-- **The alert that raises** is the first that is refused. -/
theorem firstRefused_of_raise {s₀ s : Store} (hs : Schema s.toRegister)
    (hc : s.device_context = s₀.device_context) (hh : s.router_health = s₀.router_health)
    {earlier : List Stamped} (rest : List Stamped) {a : Stamped} {u : Store} {out out' : Outcome}
    {e : Error} (hearlier : applyAlerts routers s₀.device_context earlier out s = (u, .ok out'))
    (hraise : (applyAlert routers s₀.device_context a u).2 = .error e) :
    firstRefused routers s₀ s.shadow (earlier ++ a :: rest) = some (earlier, a, e) ∧
      Turns routers s earlier u ∧
      (applyAlerts routers s₀.device_context (earlier ++ a :: rest) out s).1 = u := by
  induction earlier generalizing s out with
  | nil =>
      cases hearlier
      cases hr : refusal routers u u.shadow a with
      | none =>
          obtain ⟨t, v, happly, -⟩ := applyAlert_turn routers hs hr
          rw [← hc, happly] at hraise
          cases hraise
      | some e' =>
          have hrefused := applyAlert_refused routers hr
          rw [hc] at hrefused
          rw [hrefused] at hraise
          cases hraise
          refine ⟨?_, rfl, ?_⟩
          · rw [List.nil_append, firstRefused, ← refusal_congr routers hc, hr]
          · rw [List.nil_append, applyAlerts, hrefused]
  | cons b earlier ih =>
      cases hr : refusal routers s s.shadow b with
      | some e' =>
          rw [applyAlerts, ← hc, applyAlert_refused routers hr] at hearlier
          cases hearlier
      | none =>
          obtain ⟨t, v, happly, hturn⟩ := applyAlert_turn routers hs hr
          rw [hc] at happly
          rw [applyAlerts, happly] at hearlier
          obtain ⟨hfirst, hturns, hend⟩ :=
            ih hturn.schema (hturn.context.trans hc) (hturn.health.trans hh) hearlier
          refine ⟨?_, ⟨t, hturn, hturns⟩, ?_⟩
          · rw [List.cons_append, firstRefused, ← refusal_congr routers hc, hr]
            dsimp only
            rw [← after_congr routers hc hh, ← hturn.shadow, hfirst]
            rfl
          · rw [List.cons_append, applyAlerts, happly]
            exact hend

theorem Shadow.after_of_ne (s : Store) (h : Shadow) {a : Stamped} {key : Text}
    (hne : key ≠ alertKey routers a.labels) : (h.after routers s a).active key = h.active key := by
  simp only [Shadow.after]
  split_ifs
  · rfl
  · show (decide (key ≠ alertKey routers a.labels) && h.active key) = h.active key
    rw [decide_eq_true hne, Bool.true_and]
  · rfl
  · show (decide (key = alertKey routers a.labels) || h.active key) = h.active key
    rw [decide_eq_false hne, Bool.false_or]

/-- Turns of alerts that have another key, or nothing to apply. -/
theorem Turns.untouched {s t : Store} {batch : List Stamped} (h : Turns routers s batch t)
    {key : Text}
    (hidle : ∀ a ∈ batch, alertKey routers a.labels = key → idle routers s s.shadow a = true) :
    Untouched s.toRegister t.toRegister key := by
  induction batch generalizing s with
  | nil =>
      cases h
      exact Untouched.refl _ key
  | cons a rest ih =>
      obtain ⟨u, hturn, hrest⟩ := h
      by_cases hkey : alertKey routers a.labels = key
      · have happlied := hturn.applied
        rw [Applied, if_pos (hidle a List.mem_cons_self hkey)] at happlied
        subst happlied
        exact ih hrest fun b hb => hidle b (List.mem_cons_of_mem a hb)
      · refine (hturn.others key hkey).trans (ih hrest ?_)
        intro b hb hbk
        -- the key is as active as it was
        have hactive : u.shadow.active key = s.shadow.active key := by
          rw [hturn.shadow]
          exact Shadow.after_of_ne routers s s.shadow (Ne.symm hkey)
        have hb' := hidle b (List.mem_cons_of_mem a hb) hbk
        rw [idle_congr routers hturn.context hturn.health]
        unfold idle at hb' ⊢
        rw [hbk] at hb' ⊢
        rw [hactive]
        exact hb'

/-! ## §5 Atomicity -/

variable (body : Body) (clock : Nat → ℚ) (draws : Nat → Draw) (s : Store)

/-- A batch that raises `ValueError` has changed nothing, and of one that returns each alert was
applied. -/
def Atomic : Prop :=
  (∀ t e, receiveAlerts routers body clock draws s = (t, .error e) → e.isValueError = true →
    t.toRegister = s.toRegister) ∧
  ∀ t out, receiveAlerts routers body clock draws s = (t, .ok out) →
    ∃ alerts, validate body = .ok alerts ∧ AllApplied routers s (stamp clock draws alerts) t

/-- Before the first alert that the second pass refuses there is nothing to apply. -/
def NothingBefore : Prop :=
  ∀ alerts earlier a e, validate body = .ok alerts →
    firstRefused routers s s.shadow (stamp clock draws alerts) = some (earlier, a, e) →
      e.isValueError = true → ∀ b ∈ earlier, idle routers s s.shadow b = true

variable {s}

/-- **When a batch is atomic.** -/
theorem batch_atomic_iff (hs : Schema s.toRegister) :
    Atomic routers body clock draws s ↔ NothingBefore routers body clock draws s := by
  unfold Atomic NothingBefore receiveAlerts
  cases hv : validate body with
  | error e =>
      -- refused as a whole by the first pass
      refine iff_of_true ⟨?_, ?_⟩ ?_
      · intro t e' h _
        cases h
        rfl
      · intro t out h
        cases h
      · intro alerts earlier a e' h
        cases h
  | ok alerts =>
      rcases applyAlerts_eq routers hs rfl rfl (stamp clock draws alerts) ⟨0, 0, 0, []⟩ with
        ⟨hnone, t, out, happlied, hturns⟩ | ⟨earlier, a, e, t, hsome, happlied, hturns⟩
      · refine iff_of_true ⟨?_, ?_⟩ ?_
        · intro t' e h
          cases happlied.symm.trans h
        · intro t' out' h
          cases happlied.symm.trans h
          exact ⟨alerts, rfl, hturns.allApplied⟩
        · intro alerts' earlier a e h hfirst
          cases h
          cases hnone.symm.trans hfirst
      · constructor
        · intro hatomic alerts' earlier' a' e' h hfirst hvalue b hb
          cases h
          cases hsome.symm.trans hfirst
          by_contra hidle
          have hgrows := Turns.grows routers hturns hb (Bool.eq_false_iff.mpr hidle)
          rw [hatomic.1 t e happlied hvalue] at hgrows
          exact Nat.lt_irrefl _ hgrows
        · intro hbefore
          refine ⟨?_, ?_⟩
          · intro t' e' h hvalue
            cases happlied.symm.trans h
            rw [Turns.eq_of_idle routers hturns (hbefore alerts earlier a e rfl hsome hvalue)]
          · intro t' out h
            cases happlied.symm.trans h

end Batch

/-! ## §6 A batch of two -/

section Concrete

/-- The digests of the labels that have no more than the name `DiskFull`, or another name. -/
@[reducible] def sampleDigest : LabelsDigest where
  hexdigest labels := if labels.alertname.chars = lit "DiskFull" then ⟨[
    5, 6, 14, 0, 8, 4, 0, 12, 12, 14, 5, 9, 15, 15, 14, 7, 12, 5, 0, 9, 14, 14, 11, 0, 2, 12,
    3, 1, 1, 13, 0, 8, 1, 7, 8, 5, 0, 0, 15, 2, 4, 15, 11, 0, 12, 14, 15, 6, 3, 13, 7, 5, 14,
    3, 9, 6, 2, 11, 7, 14, 11, 10, 10, 4]⟩
    else ⟨[
    3, 4, 13, 10, 6, 8, 2, 7, 0, 9, 7, 12, 8, 6, 6, 7, 1, 2, 0, 14, 11, 3, 12, 12, 11, 4, 3,
    10, 8, 8, 10, 12, 5, 11, 13, 13, 0, 13, 15, 15, 6, 15, 0, 14, 10, 9, 7, 13, 2, 8, 8, 13, 9,
    0, 4, 11, 11, 4, 3, 14, 10, 10, 3, 10]⟩

attribute [local instance] sampleDigest

def sampleUuid (n : Nat) : Uuid := ⟨⟨List.replicate 31 0 ++ [Fin.ofNat 16 n]⟩, by simp⟩

def sampleDraw (n : Nat) : Draw := ⟨sampleUuid (2 * n), sampleUuid (2 * n + 1)⟩

/-- A firing alert. -/
def firing (name summary : String) : Value :=
  .obj [(lit "status", .str (lit "firing")),
    (lit "labels", .obj [(lit "alertname", .str (lit name))]),
    (lit "annotations", .obj [(lit "summary", .str (lit summary))])]

/-- The summary of the second alert is a blank. -/
def blankBatch : Body :=
  [(lit "alerts", .list [firing "HighCpu" "CPU at 97 %", firing "DiskFull" " "])]

/-- The first alert of the batch stays applied after the second one has raised. -/
theorem blankBatch_not_atomic : Schema Store.empty.toRegister ∧
    ¬ Atomic [] blankBatch (fun _ => 1) sampleDraw Store.empty := by
  have hone : (receiveAlerts [] blankBatch (fun _ => 1) sampleDraw Store.empty).1.incidents.length =
      1 := by decide +kernel
  refine ⟨sound_empty.toSchema, ?_⟩
  rintro ⟨hraise, -⟩
  have hsame := hraise (receiveAlerts [] blankBatch (fun _ => 1) sampleDraw Store.empty).1
    (.value "Нужны заголовок и допустимая важность") rfl rfl
  rw [hsame] at hone
  cases hone

/-- The same batch with a summary. -/
def fullBatch : Body :=
  [(lit "alerts", .list [firing "HighCpu" "CPU at 97 %", firing "DiskFull" "2 % left"])]

theorem fullBatch_not_refused {alerts : List Alert} (hv : validate fullBatch = .ok alerts) :
    firstRefused [] Store.empty Store.empty.shadow (stamp (fun _ => 1) sampleDraw alerts) = none := by
  have hnone : ((validate fullBatch).map fun alerts => (firstRefused [] Store.empty
      Store.empty.shadow (stamp (fun _ => 1) sampleDraw alerts)).isNone).toOption = some true := by
    decide +kernel
  rw [hv] at hnone
  exact Option.isNone_iff_eq_none.mp (Option.some.inj hnone)

theorem fullBatch_atomic : Atomic [] fullBatch (fun _ => 1) sampleDraw Store.empty := by
  refine (batch_atomic_iff [] fullBatch (fun _ => 1) sampleDraw sound_empty.toSchema).mpr ?_
  intro alerts earlier a e hv hfirst
  cases (fullBatch_not_refused hv).symm.trans hfirst

end Concrete

end NetPulse.Server
