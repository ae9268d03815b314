import NetPulse.Lib.Machine
import NetPulse.Mesh.Sessions

/-
# NetPulse.Mesh.SessionHygiene — what an outgoing exchange leaves in the session table

Two pieces of code register a session, send a pack and wait: `Router.call` and the handshake of
`PipeTransport`. An exchange is followed here from its registration to the exit, among arbitrary
operations of others on the same table.

An exit is *tidy* when its handler cancels the session. `Router.call` is tidy on `NoRouteToHost` and
on the timeout; the handshake never is. The other exits are clean only if the session is gone
already, which a reply or a `cancel` of somebody else brings about. `hygienic_iff` says that this is
exact, and that no exit touches the entries of another label.
-/

namespace NetPulse.Mesh

open NetPulse.Lib SessionTable

variable {R : Type*}

/-! ## §1 The two exchanges -/

inductive Exchange where
  /-- `Router.call` -/
  | call
  /-- `PipeTransport._handshake_and_pump`, up to the pump -/
  | handshake
  deriving DecidableEq

/-- The ways out of an exchange. -/
inductive Exit where
  /-- the future has a result, a value or the exception of a remote error -/
  | returned
  | noRoute
  /-- `transport.send` raised -/
  | sendRaised
  | timeout
  /-- the awaited future was cancelled by somebody else -/
  | futureCancelled
  /-- the task of the caller was cancelled -/
  | callerCancelled
  deriving DecidableEq

/-- The handler of the exit calls `sessions.cancel(label)`. -/
def Exchange.tidies : Exchange → Exit → Bool
  | .call, .noRoute => true
  | .call, .timeout => true
  | _, _ => false

/-- The future settled: somebody resolved or cancelled it. -/
def Exit.settled : Exit → Bool
  | .returned => true
  | .futureCancelled => true
  | _ => false

inductive Stage where
  | ready
  /-- registered, awaiting `_forward` -/
  | sending (future : Nat)
  /-- awaiting `wait_for(future)` -/
  | waiting (future : Nat)
  | done
  deriving DecidableEq

structure ExchangeState (R : Type*) where
  sessions : SessionTable R
  stage : Stage

inductive ExchangeEvent (R : Type*) where
  | register (service method : String)
  /-- `call` to the own node: executed locally, without a session -/
  | shortcut
  | sent
  | exit (e : Exit)
  /-- others on the same table; labels are fresh, so none registers under ours -/
  | otherRegister (label service method : String)
  | otherResolve (label : String) (data : R)
  | otherCancel (label : String)
  | otherCancelByService (service : String)

/-- The event is a step of the exchange itself. -/
def ExchangeEvent.isOwn : ExchangeEvent R → Bool
  | .register .. => true
  | .shortcut => true
  | .sent => true
  | .exit _ => true
  | _ => false

/-- `wait_for` cancels the future that it gives up. -/
def giveUp (t : SessionTable R) (future : Nat) : SessionTable R :=
  match t.future future with
  | some .pending => t.store future (.future .cancelled)
  | _ => t

/-- The handler of an exit, on the table. -/
def Exchange.handle (x : Exchange) (label : String) (t : SessionTable R) (e : Exit) :
    SessionTable R :=
  if x.tidies e then t.cancel label else t

/-- The exit is possible while the future is awaited. -/
def waitExit (t : SessionTable R) (future : Nat) : Exit → Bool
  | .returned =>
      match t.future future with
      | some (.result _) => true
      | _ => false
  | .futureCancelled =>
      match t.future future with
      | some .cancelled => true
      | _ => false
  | .timeout => true
  | .callerCancelled => true
  | .noRoute => false
  | .sendRaised => false

/-- The exit is possible while `_forward` runs. -/
def sendExit : Exit → Bool
  | .noRoute => true
  | .sendRaised => true
  | .callerCancelled => true
  | _ => false

def exchangeStep (x : Exchange) (label : String) (s : ExchangeState R) :
    ExchangeEvent R → Option (ExchangeState R)
  | .register service method =>
      match s.stage with
      | .ready =>
          let (t, future) := s.sessions.registerSingle label service method
          some ⟨t, .sending future⟩
      | _ => none
  | .shortcut =>
      if s.stage = .ready ∧ x = .call then some { s with stage := .done } else none
  | .sent =>
      match s.stage with
      | .sending future => some { s with stage := .waiting future }
      | _ => none
  | .exit e =>
      match s.stage with
      | .sending _ => if sendExit e then some ⟨x.handle label s.sessions e, .done⟩ else none
      | .waiting future =>
          if waitExit s.sessions future e then
            some ⟨x.handle label (giveUp s.sessions future) e, .done⟩
          else none
      | _ => none
  | .otherRegister l service method =>
      if l = label then none
      else some { s with sessions := (s.sessions.registerSingle l service method).1 }
  | .otherResolve l data => some { s with sessions := s.sessions.resolve l data }
  | .otherCancel l => some { s with sessions := s.sessions.cancel l }
  | .otherCancelByService service =>
      some { s with sessions := s.sessions.cancelByService service }

/-- One exchange among the operations of others. -/
def exchange (x : Exchange) (label : String) : Machine (ExchangeState R) (ExchangeEvent R) where
  step := exchangeStep x label

/-- **Session hygiene**: an exchange that has ended has no entry left. -/
def Hygienic (label : String) (s : ExchangeState R) : Prop :=
  s.stage = .done → s.sessions.Absent label

/-- The condition on a step: the exchange exits because its future settled, or the handler of the
exit cancels, or others have removed the session before. -/
def Tidy (x : Exchange) (label : String) (s : ExchangeState R) : ExchangeEvent R → Prop
  | .exit e => e.settled = true ∨ x.tidies e = true ∨ s.sessions.Absent label
  | _ => True

/-- A step of the exchange leaves every other label as it was. -/
def Untouched (x : Exchange) (label : String) (s : ExchangeState R) (e : ExchangeEvent R) : Prop :=
  e.isOwn = true → ∀ s', exchangeStep x label s e = some s' →
    ∀ l, l ≠ label → s.sessions.SameEntry s'.sessions l

/-! ## §2 The session while the exchange runs -/

/-- The own session: it is in the table under the own label only and as long as its future is
pending, and nobody else's entry points to it. -/
structure Held (label : String) (future : Nat) (t : SessionTable R) : Prop where
  own : ∀ l, t.table.get l = some future → l = label
  here : ∀ id, t.table.get label = some id → id = future
  pending : t.table.get label = some future → t.heap[future]? = some (.future .pending)
  object : ∃ state, t.heap[future]? = some (.future state)
  both : t.table.get label = none → t.metas.get label = none

theorem Held.absent {label : String} {future : Nat} {t : SessionTable R} (h : Held label future t)
    (hdone : t.heap[future]? ≠ some (.future .pending)) : t.Absent label := by
  have hnone : t.table.get label = none := by
    cases hid : t.table.get label with
    | none => rfl
    | some id =>
        have hf := h.here id hid
        subst hf
        exact absurd (h.pending hid) hdone
  exact ⟨hnone, h.both hnone⟩

/-- An exit on a settled future finds the label absent. -/
theorem Held.absent_of_settled {label : String} {future : Nat} {t : SessionTable R}
    (h : Held label future t) {e : Exit} (he : e.settled = true)
    (hexit : waitExit t future e = true) : t.Absent label := by
  apply h.absent
  intro hpending
  cases e with
  | returned => simp [waitExit, SessionTable.future, hpending] at hexit
  | futureCancelled => simp [waitExit, SessionTable.future, hpending] at hexit
  | noRoute => cases he
  | sendRaised => cases he
  | timeout => cases he
  | callerCancelled => cases he

/-- What is left of the session is only its object, once the label is absent. -/
theorem Held.of_absent {label : String} {future : Nat} {t : SessionTable R}
    (habs : t.Absent label) (hown : ∀ l, t.table.get l ≠ some future)
    (hobj : ∃ state, t.heap[future]? = some (.future state)) : Held label future t where
  own l hl := absurd hl (hown l)
  here id hid := by rw [habs.1] at hid; cases hid
  pending hl := absurd hl (hown label)
  object := hobj
  both _ := habs.2

/-- A change that keeps the entries of the label and the own object, and gives the address to
nobody, keeps the session held. -/
theorem Held.frame {label : String} {future : Nat} {t u : SessionTable R} (h : Held label future t)
    (hsame : t.SameEntry u label) (hheap : u.heap[future]? = t.heap[future]?)
    (hown : ∀ l, l ≠ label → u.table.get l ≠ some future) : Held label future u where
  own l hl := by
    by_contra hne
    exact hown l hne hl
  here id hid := h.here id (hsame.1 ▸ hid)
  pending hl := by
    rw [hheap]
    exact h.pending (hsame.1 ▸ hl)
  object := by
    rw [hheap]
    exact h.object
  both hnone := by
    rw [hsame.2]
    exact h.both (hsame.1 ▸ hnone)

theorem Held.ne_own {label l : String} {future : Nat} {t : SessionTable R}
    (h : Held label future t) (hl : l ≠ label) : t.table.get l ≠ some future :=
  fun hget => hl (h.own l hget)

/-- Dropping another label's entries. -/
theorem forget_ne_own {label l : String} {future : Nat} {t : SessionTable R}
    (h : t.table.get l ≠ some future) : (t.forget label).table.get l ≠ some future := by
  rw [get_forget]
  split
  · simp
  · exact h

theorem Held.registerSingle {label l : String} {future : Nat} {t : SessionTable R}
    (h : Held label future t) (service method : String) (hl : l ≠ label) :
    Held label future (t.registerSingle l service method).1 := by
  obtain ⟨state, hstate⟩ := h.object
  have hlt : future < t.heap.length := by
    by_contra hge
    rw [List.getElem?_eq_none (by omega)] at hstate
    cases hstate
  refine h.frame (t.registerSingle_sameEntry service method (Ne.symm hl)) ?_ ?_
  · exact List.getElem?_append_left hlt
  · intro k hk hget
    change (t.table.set l t.heap.length).get k = some future at hget
    rw [Dict.get_set] at hget
    split at hget
    · cases hget
      omega
    · exact h.ne_own hk hget

theorem Held.resolve {label : String} {future : Nat} {t : SessionTable R}
    (h : Held label future t) (l : String) (data : R) : Held label future (t.resolve l data) := by
  obtain ⟨state, hstate⟩ := h.object
  rcases t.resolve_cases l data with heq | ⟨id, items, hid, hq, heq⟩ | ⟨id, hid, hpend, heq⟩
  · rw [heq]
    exact h
  · rw [heq]
    have hne : id ≠ future := by
      rintro rfl
      rw [hstate] at hq
      cases hq
    exact h.frame (.refl t label) (List.getElem?_set_ne hne) fun k hk => h.ne_own hk
  · rw [heq]
    by_cases hl : l = label
    · -- the answer to this exchange
      subst hl
      have hf := h.here id hid
      subst hf
      refine .of_absent (forget_absent _ l) ?_ ⟨.result data, ?_⟩
      · intro k
        by_cases hk : k = l
        · rw [get_forget, if_pos hk]
          simp
        · exact forget_ne_own (h.ne_own hk)
      · have hlt := t.allocated l id hid
        simp [hlt]
    · have hne : id ≠ future := by
        rintro rfl
        exact hl (h.own l hid)
      refine h.frame ((t.store id _).forget_sameEntry (Ne.symm hl)) ?_ fun k hk => ?_
      · exact List.getElem?_set_ne hne
      · exact forget_ne_own (t := t.store id _) (h.ne_own hk)

theorem Held.cancel {label : String} {future : Nat} {t : SessionTable R}
    (h : Held label future t) (l : String) : Held label future (t.cancel l) := by
  obtain ⟨state, hstate⟩ := h.object
  have hgone : ∀ u : SessionTable R, u.table = t.table → ∀ k, (k = l ∨ k ≠ label) →
      (u.forget l).table.get k ≠ some future := by
    intro u hu k hk
    rw [get_forget]
    split
    · simp
    · rename_i hkl
      rw [hu]
      exact h.ne_own (hk.resolve_left hkl)
  by_cases hl : l = label
  · subst hl
    have hall : ∀ u : SessionTable R, u.table = t.table →
        ∀ k, (u.forget l).table.get k ≠ some future := fun u hu k =>
      hgone u hu k (Decidable.em (k = l))
    rcases t.cancel_cases l with heq | ⟨id, s, hid, hs, heq⟩
    · rw [heq]
      exact .of_absent (forget_absent t l) (hall t rfl) ⟨state, hstate⟩
    · rw [heq]
      have hf := h.here id hid
      subst hf
      refine .of_absent (forget_absent _ l) (hall _ rfl) ?_
      rw [hs] at hstate
      cases hstate
      have hlt := t.allocated l id hid
      cases state with
      | pending => exact ⟨.cancelled, by simp [hlt, Session.cancelled]⟩
      | result r => exact ⟨.result r, by simp [hlt, Session.cancelled]⟩
      | cancelled => exact ⟨.cancelled, by simp [hlt, Session.cancelled]⟩
  · rcases t.cancel_cases l with heq | ⟨id, s, hid, hs, heq⟩
    · rw [heq]
      exact h.frame (t.forget_sameEntry (Ne.symm hl)) rfl fun k hk => hgone t rfl k (Or.inr hk)
    · rw [heq]
      have hne : id ≠ future := by
        rintro rfl
        exact hl (h.own l hid)
      refine h.frame ((t.store id _).forget_sameEntry (Ne.symm hl)) ?_
        fun k hk => hgone _ rfl k (Or.inr hk)
      exact List.getElem?_set_ne hne

theorem Held.cancelByService {label : String} {future : Nat} {t : SessionTable R}
    (h : Held label future t) (service : String) :
    Held label future (t.cancelByService service) := by
  unfold SessionTable.cancelByService
  generalize t.targets service = targets
  induction targets generalizing t with
  | nil => exact h
  | cons l rest ih => exact ih (h.cancel l)

theorem held_registerSingle (label : String) (t : SessionTable R) (service method : String) :
    Held label t.heap.length (t.registerSingle label service method).1 := by
  have hget : ∀ l, (t.registerSingle label service method).1.table.get l =
      if l = label then some t.heap.length else t.table.get l := fun l =>
    t.table.get_set label l _
  refine
    { own := ?_
      here := ?_
      pending := fun _ => ?_
      object := ⟨.pending, ?_⟩
      both := ?_ }
  · intro l hl
    by_contra hne
    rw [hget, if_neg hne] at hl
    have := t.allocated l _ hl
    omega
  · intro id hid
    rw [hget, if_pos rfl] at hid
    exact (Option.some.inj hid).symm
  · simp [SessionTable.registerSingle]
  · simp [SessionTable.registerSingle]
  · intro hnone
    rw [hget, if_pos rfl] at hnone
    cases hnone

/-! ## §3 The exits -/

theorem absent_resolve {label : String} {t : SessionTable R} (h : t.Absent label) (l : String)
    (data : R) : (t.resolve l data).Absent label := by
  by_cases hl : l = label
  · subst hl
    rw [resolve_of_free h.1]
    exact h
  · have hsame := t.resolve_sameEntry data (Ne.symm hl)
    exact ⟨hsame.1.trans h.1, hsame.2.trans h.2⟩

theorem absent_cancel {label : String} {t : SessionTable R} (h : t.Absent label) (l : String) :
    (t.cancel l).Absent label := by
  by_cases hl : l = label
  · subst hl
    exact t.cancel_absent l
  · have hsame := t.cancel_sameEntry (Ne.symm hl)
    exact ⟨hsame.1.trans h.1, hsame.2.trans h.2⟩

theorem absent_cancelByService {label : String} {t : SessionTable R} (h : t.Absent label)
    (service : String) : (t.cancelByService service).Absent label := by
  unfold SessionTable.cancelByService
  generalize t.targets service = targets
  induction targets generalizing t with
  | nil => exact h
  | cons l rest ih => exact ih (absent_cancel h l)

theorem absent_registerSingle {label l : String} {t : SessionTable R} (h : t.Absent label)
    (service method : String) (hl : l ≠ label) :
    (t.registerSingle l service method).1.Absent label := by
  have hsame := t.registerSingle_sameEntry service method (Ne.symm hl)
  exact ⟨hsame.1.trans h.1, hsame.2.trans h.2⟩

theorem giveUp_sameEntry (t : SessionTable R) (future : Nat) (l : String) :
    t.SameEntry (giveUp t future) l := by
  unfold giveUp
  split
  · exact .refl t l
  · exact .refl t l

/-- After the handler of an exit the label is absent exactly when the handler cancels or the label
was absent before. -/
theorem handle_absent_iff (x : Exchange) (label : String) (t : SessionTable R) (e : Exit) :
    (x.handle label t e).Absent label ↔ x.tidies e = true ∨ t.Absent label := by
  unfold Exchange.handle
  split
  · rename_i htidy
    exact ⟨fun _ => Or.inl htidy, fun _ => t.cancel_absent label⟩
  · rename_i htidy
    exact ⟨Or.inr, fun h => h.resolve_left htidy⟩

theorem giveUp_absent_iff (t : SessionTable R) (future : Nat) (label : String) :
    (giveUp t future).Absent label ↔ t.Absent label := by
  have hsame := giveUp_sameEntry t future label
  unfold SessionTable.Absent
  rw [hsame.1, hsame.2]

/-- A step of the exchange touches no other label. -/
theorem exchangeStep_sameEntry {x : Exchange} {label l : String} {s s' : ExchangeState R}
    {e : ExchangeEvent R} (hown : e.isOwn = true) (hstep : exchangeStep x label s e = some s')
    (hl : l ≠ label) : s.sessions.SameEntry s'.sessions l := by
  have hhandle : ∀ (t : SessionTable R) (e : Exit), t.SameEntry (x.handle label t e) l := by
    intro t e
    unfold Exchange.handle
    split
    · exact t.cancel_sameEntry hl
    · exact .refl t l
  cases e with
  | register service method =>
      simp only [exchangeStep] at hstep
      split at hstep
      · cases hstep
        exact s.sessions.registerSingle_sameEntry service method hl
      · cases hstep
  | shortcut =>
      simp only [exchangeStep, Option.ite_none_right_eq_some, Option.some.injEq] at hstep
      obtain ⟨_, rfl⟩ := hstep
      exact .refl _ l
  | sent =>
      simp only [exchangeStep] at hstep
      split at hstep
      · cases hstep
        exact .refl _ l
      · cases hstep
  | exit e =>
      simp only [exchangeStep] at hstep
      split at hstep
      · simp only [Option.ite_none_right_eq_some, Option.some.injEq] at hstep
        obtain ⟨_, rfl⟩ := hstep
        exact hhandle _ e
      · simp only [Option.ite_none_right_eq_some, Option.some.injEq] at hstep
        obtain ⟨_, rfl⟩ := hstep
        exact (giveUp_sameEntry _ _ l).trans (hhandle _ e)
      · cases hstep
  | otherRegister => cases hown
  | otherResolve => cases hown
  | otherCancel => cases hown
  | otherCancelByService => cases hown

/-! ## §4 Runs -/

/-- The invariant, by stage. -/
def ExchangeInv (label : String) (s : ExchangeState R) : Prop :=
  match s.stage with
  | .ready => s.sessions.Absent label
  | .sending future => Held label future s.sessions
  | .waiting future => Held label future s.sessions
  | .done => s.sessions.Absent label

theorem ExchangeInv.hygienic {label : String} {s : ExchangeState R} (h : ExchangeInv label s) :
    Hygienic label s := by
  intro hdone
  simpa only [ExchangeInv, hdone] using h

/-- A change of the table by others, in any stage. -/
theorem ExchangeInv.other {label : String} {s : ExchangeState R} {u : SessionTable R}
    (h : ExchangeInv label s) (habs : s.sessions.Absent label → u.Absent label)
    (hheld : ∀ future, Held label future s.sessions → Held label future u) :
    ExchangeInv label { s with sessions := u } := by
  unfold ExchangeInv at h ⊢
  cases hstage : s.stage with
  | ready => simp only [hstage] at h ⊢; exact habs h
  | sending future => simp only [hstage] at h ⊢; exact hheld future h
  | waiting future => simp only [hstage] at h ⊢; exact hheld future h
  | done => simp only [hstage] at h ⊢; exact habs h

/-- **Step lemma.** A tidy step keeps the invariant. -/
theorem ExchangeInv.step {x : Exchange} {label : String} {s s' : ExchangeState R}
    {e : ExchangeEvent R} (h : ExchangeInv label s) (htidy : Tidy x label s e)
    (hstep : exchangeStep x label s e = some s') : ExchangeInv label s' := by
  cases e with
  | register service method =>
      simp only [exchangeStep] at hstep
      split at hstep
      · cases hstep
        exact held_registerSingle label s.sessions service method
      · cases hstep
  | shortcut =>
      simp only [exchangeStep, Option.ite_none_right_eq_some, Option.some.injEq] at hstep
      obtain ⟨hready, rfl⟩ := hstep
      simpa only [ExchangeInv, hready.1] using h
  | sent =>
      simp only [exchangeStep] at hstep
      split at hstep
      · rename_i hstage
        cases hstep
        simpa only [ExchangeInv, hstage] using h
      · cases hstep
  | exit e =>
      simp only [exchangeStep] at hstep
      split at hstep
      · simp only [Option.ite_none_right_eq_some, Option.some.injEq] at hstep
        obtain ⟨hsend, rfl⟩ := hstep
        have hopen : e.settled = false := by
          cases e <;> first | rfl | cases hsend
        refine (handle_absent_iff x label _ e).mpr (htidy.resolve_left ?_)
        rw [hopen]
        simp
      · rename_i future hstage
        simp only [Option.ite_none_right_eq_some, Option.some.injEq] at hstep
        obtain ⟨hwait, rfl⟩ := hstep
        refine (handle_absent_iff x label _ e).mpr ?_
        rw [giveUp_absent_iff]
        rcases htidy with hsettled | htidy
        · simp only [ExchangeInv, hstage] at h
          exact Or.inr (h.absent_of_settled hsettled hwait)
        · exact htidy
      · cases hstep
  | otherRegister l service method =>
      simp only [exchangeStep, Option.ite_none_left_eq_some, Option.some.injEq] at hstep
      obtain ⟨hl, rfl⟩ := hstep
      exact h.other (fun ha => absent_registerSingle ha service method hl)
        fun _ hh => hh.registerSingle service method hl
  | otherResolve l data =>
      cases hstep
      exact h.other (fun ha => absent_resolve ha l data) fun _ hh => hh.resolve l data
  | otherCancel l =>
      cases hstep
      exact h.other (fun ha => absent_cancel ha l) fun _ hh => hh.cancel l
  | otherCancelByService service =>
      cases hstep
      exact h.other (fun ha => absent_cancelByService ha service)
        fun _ hh => hh.cancelByService service

/-- A step that is not tidy ends the exchange and leaves its entry. -/
theorem not_hygienic_of_untidy {x : Exchange} {label : String} {s s' : ExchangeState R}
    {e : ExchangeEvent R} (htidy : ¬ Tidy x label s e)
    (hstep : exchangeStep x label s e = some s') : ¬ Hygienic label s' := by
  cases e with
  | exit e =>
      simp only [exchangeStep] at hstep
      split at hstep
      · simp only [Option.ite_none_right_eq_some, Option.some.injEq] at hstep
        obtain ⟨_, rfl⟩ := hstep
        exact fun hyg => htidy (Or.inr ((handle_absent_iff x label _ e).mp (hyg rfl)))
      · simp only [Option.ite_none_right_eq_some, Option.some.injEq] at hstep
        obtain ⟨_, rfl⟩ := hstep
        intro hyg
        have := (handle_absent_iff x label _ e).mp (hyg rfl)
        exact htidy (Or.inr (this.imp_right (giveUp_absent_iff _ _ label).mp))
      · cases hstep
  | register => exact absurd trivial htidy
  | shortcut => exact absurd trivial htidy
  | sent => exact absurd trivial htidy
  | otherRegister => exact absurd trivial htidy
  | otherResolve => exact absurd trivial htidy
  | otherCancel => exact absurd trivial htidy
  | otherCancelByService => exact absurd trivial htidy

instance (x : Exchange) (label : String) (s : ExchangeState R) :
    DecidablePred (Tidy x label s)
  | .exit _ => inferInstanceAs (Decidable (_ ∨ _ ∨ _))
  | .register .. => isTrue trivial
  | .shortcut => isTrue trivial
  | .sent => isTrue trivial
  | .otherRegister .. => isTrue trivial
  | .otherResolve .. => isTrue trivial
  | .otherCancel .. => isTrue trivial
  | .otherCancelByService .. => isTrue trivial

/-- **An exchange leaves no entry behind exactly when each of its exits is tidy**, and it never
touches the entries of another label. The exchange starts with a fresh label on any table. -/
theorem hygienic_iff (x : Exchange) {label : String} {s t : ExchangeState R}
    {es : List (ExchangeEvent R)} (hready : s.stage = .ready) (hfresh : s.sessions.Absent label)
    (hrun : (exchange x label).run s es = some t) :
    ((exchange x label).Always (Hygienic label) s es ↔
      (exchange x label).Guarded (Tidy x label) s es) ∧
    (exchange x label).Guarded (Untouched x label) s es := by
  have hinv : ExchangeInv label s := by
    simpa only [ExchangeInv, hready] using hfresh
  refine ⟨?_, Machine.guarded_of_forall ?_ s es⟩
  · exact Machine.always_iff_guarded (fun _ => ExchangeInv.hygienic)
      (fun _ _ _ h htidy hstep => h.step htidy hstep)
      (fun _ _ _ _ htidy hstep => not_hygienic_of_untidy htidy hstep) hinv hrun
  · exact fun _ _ hown _ hstep _ hl => exchangeStep_sameEntry hown hstep hl

/-! ## §5 Three exchanges -/

/-- Nothing is registered yet. -/
def freshState : ExchangeState Nat := ⟨SessionTable.init, .ready⟩

/-- A call that is answered while another call registers, and one that times out. -/
theorem answered_call_hygienic :
    (exchange .call "l").Always (Hygienic "l") freshState
        [.register "s" "m", .sent, .otherRegister "k" "s" "m", .otherResolve "l" 7,
          .exit .returned] ∧
      (exchange .call "l").Always (Hygienic "l") freshState
        [.register "s" "m", .sent, .exit .timeout] := by
  constructor
  · exact (hygienic_iff .call rfl (by decide) (t := _) rfl).1.mpr (by decide)
  · exact (hygienic_iff .call rfl (by decide) (t := _) rfl).1.mpr (by decide)

/-- **Exits that leak**: a call whose `send` raises, a call whose caller is cancelled, and a
handshake that times out or has no route. -/
theorem untidy_exits_leak :
    (∃ t, (exchange .call "l").run freshState [.register "s" "m", .exit .sendRaised] = some t ∧
      ¬ Hygienic "l" t) ∧
    (∃ t, (exchange .call "l").run freshState
      [.register "s" "m", .sent, .exit .callerCancelled] = some t ∧ ¬ Hygienic "l" t) ∧
    (∃ t, (exchange .handshake "l").run freshState
      [.register "s" "m", .sent, .exit .timeout] = some t ∧ ¬ Hygienic "l" t) ∧
    (∃ t, (exchange .handshake "l").run freshState [.register "s" "m", .exit .noRoute] = some t ∧
      ¬ Hygienic "l" t) := by
  refine ⟨⟨_, rfl, ?_⟩, ⟨_, rfl, ?_⟩, ⟨_, rfl, ?_⟩, ⟨_, rfl, ?_⟩⟩ <;>
    exact fun h => absurd (h rfl) (by decide)

end NetPulse.Mesh
