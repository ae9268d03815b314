import NetPulse.Files.DownloadApart

/-
# NetPulse.Files.DownloadCancel — what a cancelled download still does

`cancel_download` takes the record out of the table and deletes the `.part`, and that is all: the
receiver has the record, whose status stays `running`, and goes on with it. `cancel_final` says when
nothing more comes of a cancelled download: when `cancel_download` returns, there is no receiver, or
one that has sent its first ACK, has written everything, and will see that the status is not
`running` any more.
-/

namespace NetPulse.Files

open NetPulse.Lib

variable {node : String} {s s' : Receiver} {label : String} {d d' : Folder} {t t' : Transfer}

/-! ## §1 The condition and the property -/

/-- The receiver, if there is one, will do nothing more. -/
def Settled (t : Transfer) : Prop :=
  match t.stage with
  | .acked => t.status ≠ .running
  | .reading h => t.status ≠ .running ∧ h.pending = []
  | stage => stage.active = false

/-- **The condition**: a cancellation returns to a download that is settled, and the operations of a
cancelled download on its file do not fail. -/
def Timely (s : Receiver) : Event → Prop
  | .move label (.cancelReturn _) => ∀ t, s.downloads label = some t → Settled t
  | .move label (.broken _) => ∀ t, s.downloads label = some t → t.cancel ≠ .returned
  | _ => True

/-- What a step makes of a download that has been cancelled: no chunk is written and no file gets a
byte, no ACK goes out, it is not done if it was not, and no exception ends its receiver. -/
structure Still (s : Receiver) (e : Event) (s' : Receiver) (l : String) (t t' : Transfer) : Prop where
  arrived : t'.arrived = t.arrived
  bytes : (∃ m, e = .move l m) → ∀ i, s'.disk.data i = s.disk.data i ∨ s'.disk.data i = []
  acks : t'.acks = t.acks
  status : t'.status = .done → t.status = .done
  stage : t'.stage = .raised → t.stage = .raised
  cancel : t'.cancel = .returned

/-- Nothing more comes of the cancelled downloads. -/
def Final (s : Receiver) (e : Event) (s' : Receiver) : Prop :=
  ∀ l t, s.downloads l = some t → t.cancel = .returned →
    ∃ t', s'.downloads l = some t' ∧ Still s e s' l t t'

/-- A cancelled download is not in the table, and whoever still has its record sees that it does not
run. -/
def Terminal (s : Receiver) : Prop :=
  ∀ l t, s.downloads l = some t → t.cancel = .returned →
    t.registered = false ∧ (t.stage.active = true → t.status ≠ .running)

/-! ## §2 One move -/

theorem settled_status (h : Settled t) (hactive : t.stage.active = true) : t.status ≠ .running := by
  cases hst : t.stage with
  | acked =>
      simp only [Settled, hst] at h
      exact h
  | reading handle =>
      simp only [Settled, hst] at h
      exact h.1
  | _ =>
      simp only [Settled, hst] at h
      rw [hst, h] at hactive
      cases hactive

theorem fail_of_unregistered {why : Failure} (h : t.registered = false) : t.fail why = t := by
  unfold Transfer.fail
  rw [if_neg (by rw [h]; exact Bool.false_ne_true)]

section Steps

variable [Sha256]

/-- **A move of a cancelled download**. -/
theorem advance_settled {m : Move} (hcancel : t.cancel = .returned) (hregistered : t.registered = false)
    (hsettled : Settled t) (hm : ∀ count, m ≠ .broken count)
    (h : advance d label t m = some (d', t')) :
    Settled t' ∧ (∀ i, d'.data i = d.data i ∨ d'.data i = []) ∧ t'.arrived = t.arrived ∧
      t'.acks = t.acks ∧ t'.status = t.status ∧ (t'.stage = .raised → t.stage = .raised) ∧
      t'.cancel = .returned ∧ t'.registered = false := by
  have hkeep : ∀ i, d.data i = d.data i ∨ d.data i = [] := fun i => Or.inl rfl
  have hno : t.stage.active = true → t.stage ≠ .acked → (∀ handle, t.stage ≠ .reading handle) →
      False := by
    intro hactive hacked hreading
    cases hst : t.stage with
    | acked => exact hacked hst
    | reading handle => exact hreading handle hst
    | _ =>
        simp only [Settled, hst] at hsettled
        rw [hst, hsettled] at hactive
        cases hactive
  have hover : t.status ≠ .running → t.settle = { t with stage := .finished } := fun hstatus =>
    if_pos hstatus
  cases advances_of_eq h with
  | served => exact ⟨hsettled, hkeep, rfl, rfl, rfl, id, hcancel, hregistered⟩
  | refused =>
      rw [fail_of_unregistered hregistered]
      exact ⟨hsettled, hkeep, rfl, rfl, rfl, id, hcancel, hregistered⟩
  | stream =>
      rw [if_neg (by rw [hregistered]; exact Bool.false_ne_true)]
      exact ⟨rfl, hkeep, rfl, rfl, rfl, (fun heq => by cases heq), hcancel, hregistered⟩
  | openPart hstage =>
      simp only [Settled, hstage] at hsettled
      refine ⟨⟨hsettled, ?_⟩, fun i => ?_, rfl, rfl, rfl, (fun heq => by cases heq), hcancel,
        hregistered⟩
      · unfold openPart Disk.openAppend
        split
        · split <;> rfl
        · rfl
      · unfold openPart Disk.openAppend Disk.openTruncate
        split
        · split
          · exact Or.inl rfl
          · by_cases hi : i = .made label
            · exact Or.inr (by rw [hi]; exact Function.update_self ..)
            · exact Or.inl (Function.update_of_ne hi ..)
        · by_cases hi : i = (d.dir t.part).getD (.made label)
          · exact Or.inr (by rw [hi]; exact Function.update_self ..)
          · exact Or.inl (Function.update_of_ne hi ..)
  | chunk hstage =>
      simp only [Settled, hstage] at hsettled
      unfold chunkStep
      rw [if_pos hsettled.1, hover hsettled.1, Disk.close, (Disk.flush_empty hsettled.2).1]
      exact ⟨rfl, hkeep, rfl, rfl, rfl, (fun heq => by cases heq), hcancel, hregistered⟩
  | eof hstage =>
      simp only [Settled, hstage] at hsettled
      rw [hover hsettled.1, Disk.close, (Disk.flush_empty hsettled.2).1]
      exact ⟨rfl, hkeep, rfl, rfl, rfl, (fun heq => by cases heq), hcancel, hregistered⟩
  | @broken flushed | @brokenOpen _ flushed => exact absurd rfl (hm flushed)
  | cancelPop hpopped =>
      rw [hregistered] at hpopped
      cases hpopped
  | cancelReturn hpopped =>
      rw [hcancel] at hpopped
      cases hpopped
  | finalize hstep =>
      rcases hstep.stage with hstage | hstage | hstage | hstage
      all_goals
        exact (hno (by rw [hstage]; rfl) (by rw [hstage]; exact fun heq => by cases heq)
          (by rw [hstage]; exact fun _ heq => by cases heq)).elim
  | trouble hstage =>
      rcases hstage with hstage | hstage | hstage
      all_goals
        exact (hno (by rw [hstage]; rfl) (by rw [hstage]; exact fun heq => by cases heq)
          (by rw [hstage]; exact fun _ heq => by cases heq)).elim
  | ackFirst hstage | ackNext hstage | copyOpen hstage | copied hstage | copyFails hstage
  | copyFailsOpen hstage =>
      exact (hno (by rw [hstage]; rfl) (by rw [hstage]; exact fun heq => by cases heq)
        (by rw [hstage]; exact fun _ heq => by cases heq)).elim

/-! ## §3 Runs -/

/-- What is kept along a run. -/
structure Cancelled (t : Transfer) : Prop where
  popped : t.cancel ≠ .never → t.registered = false
  settled : t.cancel = .returned → Settled t

omit [Sha256] in
theorem cancelled_kill (t : Transfer) : Cancelled t.kill := ⟨fun _ => rfl, fun _ => rfl⟩

/-- **Every record is kept so** by a timely move of its own. -/
theorem Cancelled.advance {m : Move} (hcancelled : Cancelled t) (hok : Timely s (.move label m))
    (ht : s.downloads label = some t) (h : Files.advance s.disk label t m = some (d', t')) :
    Cancelled t' := by
  have hprogress := advance_progress h
  refine ⟨hprogress.popped hcancelled.popped, fun hreturned => ?_⟩
  by_cases hbefore : t.cancel = .returned
  · have hregistered : t.registered = false :=
      hcancelled.popped (by rw [hbefore]; exact fun heq => by cases heq)
    refine (advance_settled hbefore hregistered (hcancelled.settled hbefore) ?_ h).1
    rintro count rfl
    exact hok t ht hbefore
  · rcases hprogress.cancel with hsame | ⟨hpopped, -⟩ | ⟨hpopped, unlinked, rfl⟩
    · exact absurd (hsame ▸ hreturned) hbefore
    · rw [hpopped] at hreturned
      cases hreturned
    · have hsettled : Settled t := hok t ht
      rw [Files.advance, if_pos hpopped] at h
      cases h
      exact hsettled

variable [PathText]

/-- Every record of the run is kept so. -/
theorem cancelled_step {e : Event} (hs : ∀ l t, s.downloads l = some t → Cancelled t)
    (hok : Timely s e) (h : (receiving node).step s e = some s') :
    ∀ l t, s'.downloads l = some t → Cancelled t := by
  intro l t ht
  cases e with
  | start label dst saveAs resume man =>
      obtain ⟨-, -, ⟨-, rfl⟩ | ⟨-, rfl⟩⟩ := step_start h
      · exact hs l t ht
      · rcases set_cases ht with ⟨rfl, rfl⟩ | ⟨-, hold⟩
        · exact ⟨fun hcancel => absurd rfl hcancel, fun hreturned => by cases hreturned⟩
        · exact hs l t hold
  | move label m =>
      obtain ⟨t₀, d', t₀', ht₀, hadvance, -, rfl⟩ := step_move h
      rcases set_cases ht with ⟨rfl, rfl⟩ | ⟨-, hold⟩
      · exact (hs l t₀ ht₀).advance hok ht₀ hadvance
      · exact hs l t hold
  | restart =>
      obtain rfl := Option.some.inj h
      obtain ⟨t₀, -, rfl⟩ := restarted_cases ht
      exact cancelled_kill t₀

omit [Sha256] [PathText] in
theorem still_refl {e : Event} {l : String} (hcancel : t.cancel = .returned)
    (hother : ∀ m, e ≠ .move l m) : Still s e s' l t t :=
  ⟨rfl, fun ⟨m, hm⟩ => absurd hm (hother m), rfl, id, id, hcancel⟩

theorem final_step {e : Event} (hs : ∀ l t, s.downloads l = some t → Cancelled t)
    (hok : Timely s e) (h : (receiving node).step s e = some s') : Final s e s' := by
  intro l t ht hcancel
  have hcancelled := hs l t ht
  have hregistered : t.registered = false :=
    hcancelled.popped (by rw [hcancel]; exact fun heq => by cases heq)
  cases e with
  | start label dst saveAs resume man =>
      obtain ⟨hnew, -, ⟨-, rfl⟩ | ⟨-, rfl⟩⟩ := step_start h
      · exact ⟨t, ht, still_refl hcancel fun m heq => by cases heq⟩
      · have hl : l ≠ label := by
          rintro rfl
          rw [hnew] at ht
          cases ht
        exact ⟨t, (set_other s _ hl).trans ht, still_refl hcancel fun m heq => by cases heq⟩
  | restart =>
      obtain rfl := Option.some.inj h
      refine ⟨t.kill, by rw [restarted_downloads, ht]; rfl, rfl, ?_, rfl, id, ?_, ?_⟩
      · rintro ⟨m, hm⟩
        cases hm
      · exact fun hraised => by cases hraised
      · show (if t.cancel = .popped then Cancel.never else t.cancel) = .returned
        rw [hcancel]
        rfl
  | move label m =>
      obtain ⟨t₀, d', t₀', ht₀, hadvance, -, rfl⟩ := step_move h
      by_cases hl : l = label
      · rw [hl] at ht ⊢
        obtain rfl := Option.some.inj (ht.symm.trans ht₀)
        have hm : ∀ count, m ≠ .broken count := by
          rintro count rfl
          exact hok t ht hcancel
        obtain ⟨-, hbytes, harrived, hacks, hstatus, hstage, hreturned, -⟩ :=
          advance_settled hcancel hregistered (hcancelled.settled hcancel) hm hadvance
        exact ⟨t₀', set_self s label _, harrived, fun _ => hbytes, hacks,
          fun hdone => hstatus ▸ hdone, hstage, hreturned⟩
      · refine ⟨t, (set_other s _ hl).trans ht, still_refl hcancel fun m heq => ?_⟩
        exact hl (Event.move.inj heq).1.symm

/-- **A cancellation is final** along every run whose steps meet the condition. -/
theorem cancel_final (node : String) (files : String → Option Bytes) (events : List Event)
    (hguard : (receiving node).Guarded Timely (.boot files) events) :
    (receiving node).Each Final (.boot files) events ∧
      (receiving node).Always Terminal (.boot files) events := by
  have hstep : ∀ (s : Receiver) e s', (∀ l t, s.downloads l = some t → Cancelled t) →
      Timely s e → (receiving node).step s e = some s' →
      ∀ l t, s'.downloads l = some t → Cancelled t := fun s e s' => cancelled_step
  have hstart : ∀ l t, (Receiver.boot files).downloads l = some t → Cancelled t :=
    fun l t ht => by cases ht
  constructor
  · exact Machine.each_of_guarded (fun s e s' => final_step) hstep hstart hguard
  · refine Machine.always_of_guarded (fun s hs l t ht hcancel => ?_) hstep hstart hguard
    have hcancelled := hs l t ht
    exact ⟨hcancelled.popped (by rw [hcancel]; exact fun heq => by cases heq),
      settled_status (hcancelled.settled hcancel)⟩

end Steps

/-! ## §4 Two cancellations -/

attribute [local instance] slashText spelled

/-- Before there is a stream: it is emptied when it comes. -/
def earlyCancel : List Event :=
  [.start "1" "nas" none true nasFile, .move "1" .cancelPop, .move "1" (.cancelReturn true),
    .move "1" .stream]

theorem earlyCancel_final :
    (receiving "me").Each Final (.boot fun _ => none) earlyCancel ∧
      (receiving "me").Always Terminal (.boot fun _ => none) earlyCancel := by
  apply cancel_final
  refine Machine.guarded_cons rfl trivial (Machine.guarded_cons rfl trivial
    (Machine.guarded_cons rfl ?_ (Machine.guarded_cons rfl trivial trivial)))
  intro t ht
  cases ht
  rfl

/-- While the receiver waits for the next chunk. -/
def lateCancel : List Event :=
  [.start "1" "nas" none true nasFile, .move "1" .stream, .move "1" .ack, .move "1" .openPart,
    .move "1" .cancelPop, .move "1" (.cancelReturn true)]

/-- The rest of the stream. -/
def restOfStream : List Event :=
  [.move "1" (.chunk [104, 105] true 2), .move "1" .ack, .move "1" .eof]

/-- What a download has done, and where it is. -/
def workOf (label : String) (s : Option Receiver) : Option (Bytes × Nat × Status × Stage) :=
  s.bind fun s => (s.downloads label).map fun t => (t.arrived, t.acks, t.status, t.stage)

/-- The cancelled download is `running`, writes on and sends an ACK, and ends by an exception: the
table does not have it when `_finalize` asks. -/
theorem lateCancel_goes_on :
    workOf "1" ((receiving "me").run (.boot fun _ => none) lateCancel) =
        some ([], 1, .running, .reading ⟨.made "1", some 0, []⟩) ∧
      workOf "1" ((receiving "me").run (.boot fun _ => none) (lateCancel ++ restOfStream)) =
        some ([104, 105], 2, .running, .raised) := by
  constructor <;> decide +kernel

end NetPulse.Files
