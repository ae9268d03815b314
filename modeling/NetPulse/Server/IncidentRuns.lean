import NetPulse.Server.AlertBatch

/-
# NetPulse.Server.IncidentRuns — the incidents in runs of calls

A call is a chain of moves, and so it keeps the tables sound, moves every incident forward and adds
to the timeline what it has done, in every run.

One clause needs a condition. A call that raises for an incident leaves that incident as it was, but
a batch of alerts can be about one incident twice: the first alert opens it and the second one
raises. `Undisturbed` says of a batch that this does not happen.
-/

namespace NetPulse.Server

open NetPulse.Lib NetPulse.Lib.Text

section Runs

variable [LabelsDigest]

/-! ## §1 What a call may do -/

/-- The call asks for an assignment or a comment. -/
def Call.remarks : Call → Bool
  | .changeIncident body _ _ => (asked body).any Change.remark
  | _ => false

/-- The call raises, and it was about the incident with this key when it did. Of a call that is not a
batch that is said of every key. -/
def RaisedFor (s : Store) (c : Call) (key : Text) : Prop :=
  match c with
  | .receiveAlerts routers body clock draws =>
      (∃ e, validate body = .error e) ∨
      ∃ alerts earlier a rest u out e, validate body = .ok alerts ∧
        stamp clock draws alerts = earlier ++ a :: rest ∧
        applyAlerts routers s.device_context earlier ⟨0, 0, 0, []⟩ s = (u, .ok out) ∧
        (applyAlert routers s.device_context a u).2 = .error e ∧ key = alertKey routers a.labels
  | c => ∃ e, (perform s c).2 = .error e

structure Lawful (s : Store) (c : Call) (t : Store) : Prop where
  forward : Forward s.toRegister t.toRegister
  appends : s.timeline <+: t.timeline
  /-- Rows that are no creation and no change of status come one for each assignment or comment. -/
  remarks : (c.remarks = true ∧ ∃ answer, (perform s c).2 = .ok answer) ∧
      (∃ r, t.remarks = s.remarks ++ [r]) ∨
    ¬ (c.remarks = true ∧ ∃ answer, (perform s c).2 = .ok answer) ∧ t.remarks = s.remarks
  /-- Opening an active key counts an occurrence and does no more. -/
  counts : ∀ device_id title severity event_key actor now draw old answer,
    c = .openIncident device_id title severity event_key actor now draw →
      s.activeWith (eventKey event_key draw) = some old → (perform s c).2 = .ok answer →
        t.toRegister = s.revise old.id (Incident.countAgain now) []
  raised : ∀ key, RaisedFor s c key → Untouched s.toRegister t.toRegister key

/-- No alert that is refused comes after one about the same incident that had something to apply. -/
def Undisturbed (s : Store) (c : Call) : Prop :=
  match c with
  | .receiveAlerts routers body clock draws =>
      ∀ alerts earlier a e, validate body = .ok alerts →
        firstRefused routers s s.shadow (stamp clock draws alerts) = some (earlier, a, e) →
          ∀ b ∈ earlier, alertKey routers b.labels = alertKey routers a.labels →
            idle routers s s.shadow b = true
  | _ => True

/-! ## §2 The calls as chains -/

/-- What a chain of shifts is to a call. -/
theorem lawful_of_shifts {s t : Store} {c : Call} (hs : Sound s.toRegister)
    (hshifts : Relation.ReflTransGen Shift s.toRegister t.toRegister) (hc : c.remarks = false)
    (hopen : ∀ device_id title severity event_key actor now draw,
      c ≠ .openIncident device_id title severity event_key actor now draw)
    (hraised : ∀ key, RaisedFor s c key → Untouched s.toRegister t.toRegister key) :
    Sound t.toRegister ∧ Lawful s c t := by
  obtain ⟨hsound, hforward, hrest, hremarks⟩ := shifts_keep hshifts hs
  refine ⟨hsound, hforward, hrest, Or.inr ⟨?_, hremarks⟩, ?_, hraised⟩
  · rw [hc]
    exact fun h => Bool.false_ne_true h.1
  · intro device_id title severity event_key actor now draw old answer heq
    exact absurd heq (hopen device_id title severity event_key actor now draw)

/-- Every call is a chain of shifts, or a remark. -/
theorem perform_moves (s : Store) (c : Call) :
    Relation.ReflTransGen Shift s.toRegister (perform s c).1.toRegister ∨
      Remark s.toRegister (perform s c).1.toRegister := by
  cases c with
  | openIncident device_id title severity event_key actor now draw =>
      rw [perform]
      cases hopen : openIncident device_id title severity event_key actor now draw s.toRegister with
      | error e => exact Or.inl .refl
      | ok p => exact Or.inl (.single (openIncident_shift hopen))
  | changeIncident body actor now =>
      rw [perform]
      rcases changeIncident_cases body actor now s.toRegister with ⟨e, he⟩ | ⟨g, view, hok, hmoves⟩
      · rw [he]
        exact Or.inl .refl
      · rw [hok]
        split_ifs at hmoves
        · exact Or.inr hmoves
        · exact Or.inl (.single hmoves)
  | observeRouter row now draw => exact Or.inl (observeRouter_shifts row now draw s).1
  | receiveAlerts routers body clock draws =>
      refine Or.inl ?_
      show Relation.ReflTransGen Shift s.toRegister
        (receiveAlerts routers body clock draws s).1.toRegister
      unfold receiveAlerts
      cases validate body with
      | error e => exact .refl
      | ok alerts => exact applyAlerts_shifts routers _ _ _ s
  | saveContext device maintenance_until => exact Or.inl .refl

/-- **Every call keeps the tables sound.** -/
theorem perform_sound {s : Store} (hs : Sound s.toRegister) (c : Call) :
    Sound (perform s c).1.toRegister := by
  rcases perform_moves s c with hshifts | hremark
  · exact (shifts_keep hshifts hs).1
  · exact hremark.sound hs

theorem perform_openIncident (device_id title severity : Value) (event_key : Option Text)
    (actor : Text) (now : ℚ) (draw : Draw) {s : Store} (hs : Sound s.toRegister) {c : Call}
    (hc : c = .openIncident device_id title severity event_key actor now draw) :
    Sound (perform s c).1.toRegister ∧ Lawful s c (perform s c).1 := by
  have hno : ¬ (c.remarks = true ∧ ∃ answer, (perform s c).2 = .ok answer) := by
    rw [hc]
    exact fun h => Bool.false_ne_true h.1
  cases hopen : openIncident device_id title severity event_key actor now draw s.toRegister with
  | error e =>
      have hperform : perform s c = (s, .error e) := by
        rw [hc, perform, hopen]
      have hstore : (perform s c).1 = s := by rw [hperform]
      rw [hstore]
      refine ⟨hs, Forward.refl _, List.prefix_rfl, Or.inr ⟨hno, rfl⟩, ?_,
        fun key _ => Untouched.refl _ key⟩
      intro _ _ _ _ _ _ _ _ answer _ _ hok
      rw [hperform] at hok
      cases hok
  | ok p =>
      obtain ⟨g, id, created⟩ := p
      have hperform : perform s c = ({ s with toRegister := g }, .ok (.opened id created)) := by
        rw [hc, perform, hopen]
      have hstore : (perform s c).1 = { s with toRegister := g } := by rw [hperform]
      obtain ⟨hsound, hforward, hrest, hremarks⟩ := shifts_keep
        (Relation.ReflTransGen.single (openIncident_shift hopen)) hs
      rw [hstore]
      refine ⟨hsound, hforward, hrest, Or.inr ⟨hno, hremarks⟩, ?_, ?_⟩
      · intro _ _ _ _ _ _ _ old _ heq hold _
        cases hc.symm.trans heq
        obtain ⟨device, heading, level, h⟩ := openIncident_ok hopen
        rcases openTransaction_ok h with ⟨old', hold', -, -, hg⟩ | ⟨hnone, -⟩
        · cases hold.symm.trans hold'
          exact hg
        · cases hold.symm.trans hnone
      · intro key hraised
        rw [hc] at hraised
        obtain ⟨e, he⟩ := hraised
        rw [← hc, hperform] at he
        cases he

theorem perform_changeIncident (body : Body) (actor : Text) (now : ℚ) {s : Store}
    (hs : Sound s.toRegister) {c : Call} (hc : c = .changeIncident body actor now) :
    Sound (perform s c).1.toRegister ∧ Lawful s c (perform s c).1 := by
  have hcounts : ∀ device_id title severity event_key actor now draw,
      c ≠ .openIncident device_id title severity event_key actor now draw := by
    intro _ _ _ _ _ _ _ heq
    cases hc.symm.trans heq
  rcases changeIncident_cases body actor now s.toRegister with ⟨e, he⟩ | ⟨g, view, hok, hmoves⟩
  · have hperform : perform s c = (s, .error e) := by
      rw [hc, perform, he]
      rfl
    have hno : ¬ (c.remarks = true ∧ ∃ answer, (perform s c).2 = .ok answer) := by
      rintro ⟨-, answer, hanswer⟩
      rw [hperform] at hanswer
      cases hanswer
    have hstore : (perform s c).1 = s := by rw [hperform]
    rw [hstore]
    exact ⟨hs, Forward.refl _, List.prefix_rfl, Or.inr ⟨hno, rfl⟩,
      fun _ _ _ _ _ _ _ _ _ heq => absurd heq (hcounts _ _ _ _ _ _ _),
      fun key _ => Untouched.refl _ key⟩
  · have hperform : perform s c = ({ s with toRegister := g }, .ok (.changed view)) := by
      rw [hc, perform, hok]
      rfl
    have hraised : ∀ key, RaisedFor s c key → Untouched s.toRegister g key := by
      intro key hraised
      rw [hc] at hraised
      obtain ⟨e, he⟩ := hraised
      rw [← hc, hperform] at he
      cases he
    have hanswer : ∃ answer, (perform s c).2 = .ok answer := ⟨.changed view, by rw [hperform]⟩
    have hasked : c.remarks = (asked body).any Change.remark := by
      rw [hc]
      rfl
    have hstore : (perform s c).1 = { s with toRegister := g } := by rw [hperform]
    rw [hstore]
    split_ifs at hmoves with hr
    · -- an assignment or a comment
      obtain ⟨hrest, hrow⟩ := hmoves.timeline
      exact ⟨hmoves.sound hs, hmoves.forward, hrest, Or.inl ⟨⟨hasked.trans hr, hanswer⟩, hrow⟩,
        fun _ _ _ _ _ _ _ _ _ heq => absurd heq (hcounts _ _ _ _ _ _ _), hraised⟩
    · obtain ⟨hrest, hsame⟩ := hmoves.timeline
      exact ⟨hmoves.sound hs, hmoves.forward hs, hrest,
        Or.inr ⟨fun h => hr (hasked.symm.trans h.1), hsame⟩,
        fun _ _ _ _ _ _ _ _ _ heq => absurd heq (hcounts _ _ _ _ _ _ _), hraised⟩

theorem perform_receiveAlerts (routers : List RouterId) (body : Body) (clock : Nat → ℚ)
    (draws : Nat → Draw) {s : Store} (hs : Sound s.toRegister)
    (hok : Undisturbed s (.receiveAlerts routers body clock draws)) :
    Sound (perform s (.receiveAlerts routers body clock draws)).1.toRegister ∧
      Lawful s (.receiveAlerts routers body clock draws)
        (perform s (.receiveAlerts routers body clock draws)).1 := by
  refine lawful_of_shifts hs ?_ rfl (fun _ _ _ _ _ _ _ heq => by cases heq) ?_
  · show Relation.ReflTransGen Shift s.toRegister
      (receiveAlerts routers body clock draws s).1.toRegister
    unfold receiveAlerts
    cases validate body with
    | error e => exact .refl
    | ok alerts => exact applyAlerts_shifts routers _ _ _ s
  · intro key hraised
    show Untouched s.toRegister (receiveAlerts routers body clock draws s).1.toRegister key
    rcases hraised with ⟨e, hv⟩ |
      ⟨alerts, earlier, a, rest, u, out, e, hv, hsplit, hearlier, hraise, rfl⟩
    · rw [receiveAlerts, hv]
      exact Untouched.refl _ key
    · obtain ⟨hfirst, hturns, hend⟩ :=
        firstRefused_of_raise routers hs.toSchema rfl rfl rest hearlier hraise
      rw [receiveAlerts, hv]
      dsimp only
      rw [hsplit, hend]
      rw [← hsplit] at hfirst
      exact Turns.untouched routers hturns (hok alerts earlier a e hv hfirst)

/-! ## §3 Runs -/

/-- **One call**, with every batch undisturbed. -/
theorem perform_lawful {s : Store} (hs : Sound s.toRegister) {c : Call} (hok : Undisturbed s c) :
    Sound (perform s c).1.toRegister ∧ Lawful s c (perform s c).1 := by
  cases c with
  | openIncident device_id title severity event_key actor now draw =>
      exact perform_openIncident device_id title severity event_key actor now draw hs rfl
  | changeIncident body actor now => exact perform_changeIncident body actor now hs rfl
  | observeRouter row now draw =>
      obtain ⟨hshifts, herror⟩ := observeRouter_shifts row now draw s
      refine lawful_of_shifts hs hshifts rfl (fun _ _ _ _ _ _ _ heq => by cases heq) ?_
      rintro key ⟨e, he⟩
      have hraise : (observeRouter row now draw s).2 = .error e := by
        cases hr : (observeRouter row now draw s).2 with
        | error e' =>
            rw [perform, hr] at he
            cases he
            rfl
        | ok o =>
            rw [perform, hr] at he
            cases he
      show Untouched s.toRegister (observeRouter row now draw s).1.toRegister key
      rw [herror e hraise]
      exact Untouched.refl _ key
  | receiveAlerts routers body clock draws => exact perform_receiveAlerts routers body clock draws hs hok
  | saveContext device maintenance_until =>
      refine lawful_of_shifts hs .refl rfl (fun _ _ _ _ _ _ _ heq => by cases heq) ?_
      exact fun key _ => Untouched.refl _ key

/-- **The life of an incident, in every run** of the four calls from sound tables. -/
theorem incident_runs {s : Store} (hs : Sound s.toRegister) {calls : List Call}
    (hok : operations.Guarded Undisturbed s calls) :
    operations.Always (fun t => Sound t.toRegister) s calls ∧ operations.Each Lawful s calls := by
  have hstep : ∀ (t : Store) (c : Call) (t' : Store), Sound t.toRegister → Undisturbed t c →
      operations.step t c = some t' → Sound t'.toRegister ∧ Lawful t c t' := by
    intro t c t' ht hc ht'
    cases ht'
    exact perform_lawful ht hc
  refine ⟨?_, ?_⟩
  · exact Machine.always_of_guarded (fun _ h => h) (fun t c t' h hc ht' => (hstep t c t' h hc ht').1)
      hs hok
  · exact Machine.each_of_guarded (fun t c t' h hc ht' => (hstep t c t' h hc ht').2)
      (fun t c t' h hc ht' => (hstep t c t' h hc ht').1) hs hok

end Runs

/-! ## §4 A run, and a batch that is about one incident twice -/

section Concrete

attribute [local instance] sampleDigest

/-- A batch, and then the acknowledgement of the first of its incidents. -/
theorem sample_incident_run :
    let calls : List Call := [.receiveAlerts [] fullBatch (fun _ => 1) sampleDraw,
      .changeIncident [(lit "id", .str (sampleUuid 0).text), (lit "action", .str (lit "acknowledge"))]
        (lit "operator") 2]
    operations.Always (fun t => Sound t.toRegister) Store.empty calls ∧
      operations.Each Lawful Store.empty calls := by
  intro calls
  refine incident_runs sound_empty ⟨?_, fun t _ => ⟨trivial, fun _ _ => trivial⟩⟩
  intro alerts earlier a e hv hfirst
  cases (fullBatch_not_refused hv).symm.trans hfirst

/-- Both alerts are about one incident, and the second one has a blank for a summary. -/
def twiceBatch : Body :=
  [(lit "alerts", .list [firing "DiskFull" "2 % left", firing "DiskFull" " "])]

/-- The batch raises for the incident that it has opened. -/
theorem twiceBatch_disturbs : ¬ (operations.Always (fun t => Sound t.toRegister) Store.empty
      [.receiveAlerts [] twiceBatch (fun _ => 1) sampleDraw] ∧
    operations.Each Lawful Store.empty [.receiveAlerts [] twiceBatch (fun _ => 1) sampleDraw]) := by
  rintro ⟨-, heach⟩
  have hlaw := heach.1 _ rfl
  obtain ⟨hrows, -⟩ := hlaw.raised _ (Or.inr ⟨_, [_], _, [], _, _, _, rfl, rfl, rfl, rfl, rfl⟩)
  have hlength := congrArg List.length hrows
  revert hlength
  decide +kernel

end Concrete

end NetPulse.Server
