import Mathlib.Data.Option.Basic
import Mathlib.Data.List.Basic

/-
# NetPulse.Lib.Machine — runs of a labelled state machine, invariants and guarded runs

A `Machine σ ε` answers, for a state and an event, the next state or `none` when the event cannot
happen there. Nondeterminism is in the choice of the events, so that one run is one list of events
and can be computed.

Four notions carry every result about whole runs:

* `Always P s es` — each state that the run passes through satisfies `P`;
* `Guarded ok s es` — each event of the run meets the condition `ok` in the state it happens in;
* `Each R s es` — each step of the run is in the relation `R`;
* `always_iff_guarded` — with an invariant that guarded steps keep, and with unguarded steps that
  leave `P` at once, `Always` holds exactly when `Guarded` does.
-/

namespace NetPulse.Lib

/-- A labelled machine: `step s e` is the state after event `e`, or `none` if `e` is impossible. -/
structure Machine (σ ε : Type*) where
  step : σ → ε → Option σ

namespace Machine

variable {σ ε : Type*} (M : Machine σ ε)

/-! ## §1 Runs -/

/-- The state after a list of events. -/
def run : σ → List ε → Option σ
  | s, [] => some s
  | s, e :: es => (M.step s e).bind fun s' => run s' es

/-- Every event of the run meets `ok` in the state in which it happens. -/
def Guarded (ok : σ → ε → Prop) : σ → List ε → Prop
  | _, [] => True
  | s, e :: es => ok s e ∧ ∀ s', M.step s e = some s' → Guarded ok s' es

/-- Every state of the run, first and last included, satisfies `P`. -/
def Always (P : σ → Prop) : σ → List ε → Prop
  | s, [] => P s
  | s, e :: es => P s ∧ ∀ s', M.step s e = some s' → Always P s' es

@[simp] theorem run_nil (s : σ) : M.run s [] = some s := rfl

theorem run_cons_eq_some {s t : σ} {e : ε} {es : List ε} :
    M.run s (e :: es) = some t ↔ ∃ s', M.step s e = some s' ∧ M.run s' es = some t := by
  simp only [run, Option.bind_eq_some_iff]

/-- A guard that can be decided event by event can be decided along a run. -/
instance decidableGuarded (ok : σ → ε → Prop) [∀ s e, Decidable (ok s e)] :
    ∀ (s : σ) (es : List ε), Decidable (M.Guarded ok s es)
  | _, [] => isTrue trivial
  | s, e :: es =>
      match hs : M.step s e with
      | none =>
          decidable_of_iff (ok s e)
            ⟨fun h => ⟨h, fun s' h' => by rw [hs] at h'; cases h'⟩, fun h => h.1⟩
      | some s' =>
          have := decidableGuarded ok s' es
          decidable_of_iff (ok s e ∧ M.Guarded ok s' es)
            ⟨fun h => ⟨h.1, fun u hu => by rw [hs] at hu; cases hu; exact h.2⟩,
              fun h => ⟨h.1, h.2 s' hs⟩⟩

/-- A run that ends where the guard is not met: it is found with one evaluation whether a run is
guarded and where it leads. -/
def guardedRun (ok : σ → ε → Prop) [∀ s e, Decidable (ok s e)] : σ → List ε → Option σ
  | s, [] => some s
  | s, e :: es => if ok s e then (M.step s e).bind fun s' => guardedRun ok s' es else none

theorem of_guardedRun {ok : σ → ε → Prop} [∀ s e, Decidable (ok s e)] {s t : σ} {es : List ε}
    (h : M.guardedRun ok s es = some t) : M.run s es = some t ∧ M.Guarded ok s es := by
  induction es generalizing s with
  | nil => exact ⟨h, trivial⟩
  | cons e es ih =>
      rw [guardedRun] at h
      split at h
      · next hok =>
        obtain ⟨s', hs', hrest⟩ := Option.bind_eq_some_iff.mp h
        obtain ⟨hrun, hguarded⟩ := ih hrest
        refine ⟨(run_cons_eq_some M).mpr ⟨s', hs', hrun⟩, hok, fun u hu => ?_⟩
        rw [← Option.some.inj (hs'.symm.trans hu)]
        exact hguarded
      · exact absurd h nofun

/-- The rest of a guarded run is guarded. -/
theorem guarded_append {ok : σ → ε → Prop} {s t : σ} {es fs : List ε}
    (hg : M.Guarded ok s (es ++ fs)) (h : M.run s es = some t) :
    M.Guarded ok s es ∧ M.Guarded ok t fs := by
  induction es generalizing s with
  | nil =>
      cases h
      exact ⟨trivial, hg⟩
  | cons e es ih =>
      obtain ⟨s', hs', hr⟩ := (run_cons_eq_some M).mp h
      obtain ⟨hbefore, hafter⟩ := ih (hg.2 s' hs') hr
      refine ⟨⟨hg.1, fun u hu => ?_⟩, hafter⟩
      rw [← Option.some.inj (hs'.symm.trans hu)]
      exact hbefore

/-! ## §2 Invariants -/

variable {M} {ok : σ → ε → Prop} {Inv P : σ → Prop}

/-- **Invariant rule.** What holds at the start and is kept by every guarded step holds at the end
of every guarded run. -/
theorem invariant_of_guarded
    (hstep : ∀ s e s', Inv s → ok s e → M.step s e = some s' → Inv s')
    {s t : σ} {es : List ε} (hs : Inv s) (hg : M.Guarded ok s es) (hr : M.run s es = some t) :
    Inv t := by
  induction es generalizing s with
  | nil =>
      cases hr
      exact hs
  | cons e es ih =>
      obtain ⟨s', hs', hr'⟩ := (run_cons_eq_some M).mp hr
      exact ih (hstep s e s' hs hg.1 hs') (hg.2 s' hs') hr'

/-- **Frame rule.** What no guarded step touches is at the end what it was at the start. -/
theorem frame_of_guarded {β : Type*} (f : σ → β)
    (hstep : ∀ s e s', ok s e → M.step s e = some s' → f s' = f s) {s t : σ} {es : List ε}
    (hg : M.Guarded ok s es) (hr : M.run s es = some t) : f t = f s := by
  induction es generalizing s with
  | nil =>
      cases hr
      rfl
  | cons e es ih =>
      obtain ⟨s', hs', hr'⟩ := (run_cons_eq_some M).mp hr
      exact (ih (hg.2 s' hs') hr').trans (hstep s e s' hg.1 hs')

/-- A condition that each event of the run meets in every state holds all along. -/
theorem guarded_of_mem {es : List ε} (h : ∀ e ∈ es, ∀ s, ok s e) (s : σ) : M.Guarded ok s es := by
  induction es generalizing s with
  | nil => trivial
  | cons e es ih =>
      exact ⟨h e List.mem_cons_self s, fun s' _ => ih (fun f hf => h f (List.mem_cons_of_mem e hf)) s'⟩

theorem guarded_of_forall (h : ∀ s e, ok s e) (s : σ) (es : List ε) : M.Guarded ok s es :=
  guarded_of_mem (fun e _ s => h s e) s

/-- A guarded run with one more event before it, whose effect is known. -/
theorem guarded_cons {s s' : σ} {e : ε} {es : List ε} (hs : M.step s e = some s') (hok : ok s e)
    (hg : M.Guarded ok s' es) : M.Guarded ok s (e :: es) := by
  refine ⟨hok, fun u hu => ?_⟩
  rw [← Option.some.inj (hs.symm.trans hu)]
  exact hg

theorem Guarded.mono {ok' : σ → ε → Prop} (h : ∀ s e, ok' s e → ok s e) {s : σ} {es : List ε}
    (hg : M.Guarded ok' s es) : M.Guarded ok s es := by
  induction es generalizing s with
  | nil => trivial
  | cons e es ih => exact ⟨h s e hg.1, fun s' hs' => ih (hg.2 s' hs')⟩

theorem Guarded.and {ok' : σ → ε → Prop} {s : σ} {es : List ε} (hg : M.Guarded ok s es)
    (hg' : M.Guarded ok' s es) : M.Guarded (fun s e => ok s e ∧ ok' s e) s es := by
  induction es generalizing s with
  | nil => trivial
  | cons e es ih =>
      exact ⟨⟨hg.1, hg'.1⟩, fun s' hs' => ih (hg.2 s' hs') (hg'.2 s' hs')⟩

/-- The invariant rule without a guard. -/
theorem invariant (hstep : ∀ s e s', Inv s → M.step s e = some s' → Inv s')
    {s t : σ} {es : List ε} (hs : Inv s) (hr : M.run s es = some t) : Inv t := by
  induction es generalizing s with
  | nil =>
      cases hr
      exact hs
  | cons e es ih =>
      obtain ⟨s', hs', hr'⟩ := (run_cons_eq_some M).mp hr
      exact ih (hstep s e s' hs hs') hr'

/-- An invariant of guarded steps that implies `P` makes `P` hold all along a guarded run. -/
theorem always_of_guarded (hP : ∀ s, Inv s → P s)
    (hstep : ∀ s e s', Inv s → ok s e → M.step s e = some s' → Inv s')
    {s : σ} {es : List ε} (hs : Inv s) (hg : M.Guarded ok s es) : M.Always P s es := by
  induction es generalizing s with
  | nil => exact hP s hs
  | cons e es ih =>
      exact ⟨hP s hs, fun s' hs' => ih (hstep s e s' hs hg.1 hs') (hg.2 s' hs')⟩

/-- Every step of the run is in the relation. -/
def Each (M : Machine σ ε) (R : σ → ε → σ → Prop) : σ → List ε → Prop :=
  M.Guarded fun s e => ∀ s', M.step s e = some s' → R s e s'

/-- What every guarded step does where the invariant holds, each step of a guarded run does. -/
theorem each_of_guarded {R : σ → ε → σ → Prop}
    (hR : ∀ s e s', Inv s → ok s e → M.step s e = some s' → R s e s')
    (hstep : ∀ s e s', Inv s → ok s e → M.step s e = some s' → Inv s')
    {s : σ} {es : List ε} (hs : Inv s) (hg : M.Guarded ok s es) : M.Each R s es := by
  induction es generalizing s with
  | nil => trivial
  | cons e es ih =>
      exact ⟨fun s' => hR s e s' hs hg.1, fun s' hs' => ih (hstep s e s' hs hg.1 hs') (hg.2 s' hs')⟩

/-- **Exactness rule, in an environment.** If guarded steps keep the invariant, and an unguarded step
leaves `P`, as long as the environment meets `env`, then `P` holds all along a run exactly when every
step of the run is guarded. -/
theorem always_iff_guarded_of_env {env : σ → ε → Prop} (hP : ∀ s, Inv s → P s)
    (hgood : ∀ s e s', Inv s → env s e → ok s e → M.step s e = some s' → Inv s')
    (hbad : ∀ s e s', Inv s → env s e → ¬ ok s e → M.step s e = some s' → ¬ P s')
    {s t : σ} {es : List ε} (hs : Inv s) (henv : M.Guarded env s es) (hr : M.run s es = some t) :
    M.Always P s es ↔ M.Guarded ok s es := by
  induction es generalizing s with
  | nil => exact ⟨fun _ => trivial, fun _ => hP s hs⟩
  | cons e es ih =>
      obtain ⟨s', hs', hr'⟩ := (run_cons_eq_some M).mp hr
      have honly : ∀ u, M.step s e = some u → u = s' := fun u hu =>
        Option.some.inj (hu.symm.trans hs')
      have hrest := fun hok => ih (hgood s e s' hs henv.1 hok hs') (henv.2 s' hs') hr'
      constructor
      · intro ha
        have hok : ok s e := by
          by_contra hno
          have hPs' : P s' := by
            have h := ha.2 s' hs'
            cases es with
            | nil => exact h
            | cons => exact h.1
          exact hbad s e s' hs henv.1 hno hs' hPs'
        refine ⟨hok, fun u hu => ?_⟩
        rw [honly u hu]
        exact (hrest hok).mp (ha.2 s' hs')
      · intro hg
        refine ⟨hP s hs, fun u hu => ?_⟩
        rw [honly u hu]
        exact (hrest hg.1).mpr (hg.2 s' hs')

/-- **Exactness rule.** If guarded steps keep the invariant, and an unguarded step leaves `P`, then
`P` holds all along a run exactly when every step of the run is guarded. -/
theorem always_iff_guarded (hP : ∀ s, Inv s → P s)
    (hgood : ∀ s e s', Inv s → ok s e → M.step s e = some s' → Inv s')
    (hbad : ∀ s e s', Inv s → ¬ ok s e → M.step s e = some s' → ¬ P s')
    {s t : σ} {es : List ε} (hs : Inv s) (hr : M.run s es = some t) :
    M.Always P s es ↔ M.Guarded ok s es :=
  always_iff_guarded_of_env hP (fun s e s' h (_ : True) => hgood s e s' h)
    (fun s e s' h _ => hbad s e s' h) hs (guarded_of_forall (fun _ _ => trivial) s es) hr

/-- If a step is in the relation exactly when it is guarded, every step of a run is in the relation
exactly when the run is guarded. -/
theorem each_iff_guarded {R : σ → ε → σ → Prop}
    (hstep : ∀ s e s', Inv s → M.step s e = some s' → Inv s')
    (hR : ∀ s e s', Inv s → M.step s e = some s' → (R s e s' ↔ ok s e))
    {s t : σ} {es : List ε} (hs : Inv s) (hr : M.run s es = some t) :
    M.Each R s es ↔ M.Guarded ok s es := by
  induction es generalizing s with
  | nil => exact Iff.rfl
  | cons e es ih =>
      obtain ⟨s', hs', hr'⟩ := (run_cons_eq_some M).mp hr
      have hrest := ih (hstep s e s' hs hs') hr'
      have hhere : (∀ u, M.step s e = some u → R s e u) ↔ ok s e := by
        refine ⟨fun h => (hR s e s' hs hs').mp (h s' hs'), fun hok u hu => ?_⟩
        exact (hR s e u hs hu).mpr hok
      have hlater : (∀ u, M.step s e = some u → M.Each R u es) ↔
          ∀ u, M.step s e = some u → M.Guarded ok u es := by
        refine forall_congr' fun u => forall_congr' fun hu => ?_
        rw [Option.some.inj (hu.symm.trans hs')]
        exact hrest
      exact and_congr hhere hlater

/-- The last state of a run is one of its states. -/
theorem Always.last {s t : σ} {es : List ε} (ha : M.Always P s es) (hr : M.run s es = some t) :
    P t := by
  induction es generalizing s with
  | nil =>
      cases hr
      exact ha
  | cons e es ih =>
      obtain ⟨s', hs', hr'⟩ := (run_cons_eq_some M).mp hr
      exact ih (ha.2 s' hs') hr'

end Machine

end NetPulse.Lib
