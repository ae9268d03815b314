import NetPulse.Mesh.StreamFlow

/-
# NetPulse.Mesh.StreamProgress — batch ACKs never leave both sides waiting

The pump waits for one ACK after every batch; the consumer sends one ACK when it starts and one after
every batch, or after every chunk. An ACK resolves the future of the moment, if there is a pending
one, and is lost otherwise. The first ACK may thus answer the first batch before it is consumed, or
arrive before any future exists.

The argument counts. A future is registered when `sentCount - sentInBatch` chunks were sent, and the
ACKs for those chunks are all the ACKs that can have been lost before (`Progress.bound`). Once the
batch is consumed, the consumer owes one ACK more than that, so one is in flight or the future is
resolved.
-/

namespace NetPulse.Mesh

open NetPulse.Lib StreamState

/-! ## §1 The consumer's ACKs -/

/-- When the consumer sends an ACK, besides the one at the start. -/
inductive AckPolicy where
  | perBatch
  | perChunk
  deriving DecidableEq

/-- An ACK follows the chunk after the first `n`; `n % w` is the counter `consumed_since_ack`. -/
def AckPolicy.acks (p : AckPolicy) (w n : Nat) : Bool :=
  match p with
  | .perBatch => decide (w ≤ n % w + 1)
  | .perChunk => true

/-- The ACKs sent once `n` chunks are consumed. -/
def AckPolicy.due (p : AckPolicy) (w n : Nat) : Nat :=
  match p with
  | .perBatch => 1 + n / w
  | .perChunk => 1 + n

theorem AckPolicy.due_succ (p : AckPolicy) {w : Nat} (hw : 0 < w) (n : Nat) :
    p.due w (n + 1) = p.due w n + if p.acks w n then 1 else 0 := by
  cases p with
  | perChunk =>
      simp only [AckPolicy.due, AckPolicy.acks, if_true]
      omega
  | perBatch =>
      have hdvd : w ∣ n + 1 ↔ w ≤ n % w + 1 := by
        have hlt := Nat.mod_lt n hw
        have hmod : n + 1 = n % w + 1 + w * (n / w) := by
          have := Nat.mod_add_div n w
          omega
        constructor
        · intro h
          rw [hmod] at h
          have h' := (Nat.dvd_add_left (Nat.dvd_mul_right w (n / w))).mp h
          exact Nat.le_of_dvd (by omega) h'
        · intro h
          have heq : n % w + 1 = w := by omega
          rw [hmod, heq]
          exact ⟨1 + n / w, by rw [Nat.mul_add, Nat.mul_one]⟩
      simp only [AckPolicy.due, AckPolicy.acks, Nat.succ_div, hdvd, decide_eq_true_eq]
      split <;> omega

theorem AckPolicy.due_mono (p : AckPolicy) (w : Nat) {m n : Nat} (h : m ≤ n) :
    p.due w m ≤ p.due w n := by
  cases p with
  | perBatch =>
      have := Nat.div_le_div_right (c := w) h
      simp only [AckPolicy.due]
      omega
  | perChunk =>
      simp only [AckPolicy.due]
      omega

/-- A whole batch consumed is an ACK more. -/
theorem AckPolicy.due_add_window (p : AckPolicy) {w : Nat} (hw : 0 < w) (n : Nat) :
    p.due w n + 1 ≤ p.due w (n + w) := by
  cases p with
  | perBatch =>
      simp only [AckPolicy.due, Nat.add_div_right n hw]
      omega
  | perChunk =>
      simp only [AckPolicy.due]
      omega

section Progress

variable {D : Type*} {c : StreamConfig} {p : AckPolicy} {s s' : StreamState D}

/-- A consumer that follows the policy and stays to the end, and no timer that expires. -/
def Disciplined (p : AckPolicy) (s : StreamState D) : StreamEvent → Prop
  | .start ack => ack = true
  | .consume ack => ack = p.acks s.window s.received.length
  | .quit => False
  | .pumpTimeout => False
  | _ => True

/-- **Deadlock**: the pump waits for an ACK, none is in flight, and the consumer has consumed
everything sent. -/
def Stuck (s : StreamState D) : Prop :=
  ∃ b f, s.pump = .waitAck b f ∧ s.sessions.future f = some .pending ∧ s.up = 0 ∧
    s.inbound.chunks = [] ∧ s.inFlight = []

/-! ## §2 Counting -/

/-- The number of chunks sent. -/
def StreamState.sentCount (s : StreamState D) : Nat :=
  (s.received ++ s.inbound.chunks ++ s.inFlight).length

/-- The number of ACKs sent by a consumer that follows the policy. -/
def StreamState.acksSent (s : StreamState D) (p : AckPolicy) : Nat :=
  if s.consumer = .created then 0 else p.due s.window s.received.length

/-- The local variables of the pump inside its loop. -/
def Pump.batch : Pump → Option (Nat × Nat)
  | .next b f => some (b, f)
  | .waitAck b f => some (b, f)
  | _ => none

/-- The invariant: while the future of the batch is pending, the ACKs sent and not in flight are at
most those due when the batch began. -/
structure Progress (c : StreamConfig) (p : AckPolicy) (s : StreamState D) : Prop where
  flow : Flow s
  ackOk : AckOk c s
  fresh : s.consumer = .created → s.received = []
  bound : ∀ b f, s.pump.batch = some (b, f) → b ≤ s.sentCount ∧
    (s.sessions.Pending c.ackLabel f → s.acksSent p ≤ p.due s.window (s.sentCount - b) + s.up)

theorem Flow.sentCount_add (h : Flow s) :
    s.sentCount + s.out.chunks.length = s.yielded.length := by
  rw [h.conserved, StreamState.sentCount, ← List.length_append]

theorem received_le_sentCount : s.received.length ≤ s.sentCount := by
  simp only [StreamState.sentCount, List.length_append]
  omega

theorem window_pos : 0 < s.window := by
  unfold StreamState.window
  omega

theorem Pump.batch_ne_done {pump : Pump} {q : Nat × Nat} (h : pump.batch = some q) :
    pump ≠ .done := by
  rintro rfl
  cases h

theorem AckOk.batchOpen (h : AckOk c s) {b f : Nat} (hb : s.pump.batch = some (b, f)) :
    BatchOpen c s f := by
  unfold AckOk at h
  cases hpump : s.pump with
  | start => rw [hpump] at hb; cases hb
  | done => rw [hpump] at hb; cases hb
  | next b' f' =>
      rw [hpump] at hb
      cases hb
      simp only [hpump] at h
      exact h.2
  | waitAck b' f' =>
      rw [hpump] at hb
      cases hb
      simp only [hpump] at h
      exact h.2

theorem BatchOpen.not_pending_after {f : Nat} (h : BatchOpen c s f) :
    ¬ (s.sessions.resolve c.ackLabel .ack).Pending c.ackLabel f := by
  intro hpending
  rcases h with hp | ha
  · have hfree := (hp.resolve (.ack : Reply D)).1
    have hsome := hpending.1
    rw [hfree] at hsome
    cases hsome
  · rw [SessionTable.resolve_of_free ha.1] at hpending
    have hsome := hpending.1
    rw [ha.1] at hsome
    cases hsome

theorem acksSent_le_due : s.acksSent p ≤ p.due s.window s.sentCount := by
  unfold StreamState.acksSent
  split
  · exact Nat.zero_le _
  · exact p.due_mono _ received_le_sentCount

/-- A step that sends no chunk, moves no ACK and leaves the pump where it is. -/
theorem Progress.of_eq (h : Progress c p s) (hflow : Flow s') (hackOk : AckOk c s')
    (hbatch : s'.pump.batch = s.pump.batch ∨ s'.pump.batch = none)
    (hsessions : s'.pump.batch = s.pump.batch → s'.sessions = s.sessions) (hup : s'.up = s.up)
    (hout : s'.out.chunks = s.out.chunks) (hyielded : s'.yielded = s.yielded)
    (hwindow : s'.window = s.window) (hreceived : s'.received = s.received)
    (hcreated : s'.consumer = .created ↔ s.consumer = .created) : Progress c p s' := by
  have hsent : s'.sentCount = s.sentCount := by
    have h1 := h.flow.sentCount_add
    have h2 := hflow.sentCount_add
    rw [hout, hyielded] at h2
    omega
  refine ⟨hflow, hackOk, fun hc => hreceived.trans (h.fresh (hcreated.mp hc)), ?_⟩
  intro b f hb
  rcases hbatch with heq | hnone
  · have hold := h.bound b f (heq ▸ hb)
    unfold StreamState.acksSent at hold ⊢
    rw [hsent, hsessions heq, hup, hwindow, hreceived]
    simp only [hcreated]
    exact hold
  · rw [hnone] at hb
    cases hb

theorem Progress.beginBatch (h : Progress c p s) (hpump : s.pump ≠ .done) :
    Progress c p (s.beginBatch c) := by
  refine ⟨h.flow.beginBatch hpump, AckOk.beginBatch, h.fresh, ?_⟩
  intro b f hb
  cases hb
  refine ⟨Nat.zero_le _, fun _ => ?_⟩
  have hle : s.acksSent p ≤ p.due s.window s.sentCount := acksSent_le_due
  exact Nat.le_trans hle (Nat.le_add_right _ _)

theorem Progress.sendChunk (h : Progress c p s) (hdirect : c.direct = true) {b f : Nat} {d : D}
    {rest : Pipe D} (hpump : s.pump = .next b f) (hnext : s.out.anext = .item d rest) :
    Progress c p (s.sendChunk c b f d rest) := by
  have hspec := h.flow.outSound.anext
  rw [hnext] at hspec
  have hflow' : Flow (s.sendChunk c b f d rest) :=
    h.flow.sendChunk hdirect (by simp [hpump]) hspec
  have hbuff := anext_item_buffLen h.flow.outSound hnext
  have hsame : (s.sendChunk c b f d rest).yielded = s.yielded ∧
      (s.sendChunk c b f d rest).received = s.received ∧
      (s.sendChunk c b f d rest).consumer = s.consumer ∧
      (s.sendChunk c b f d rest).up = s.up := by
    unfold StreamState.sendChunk StreamState.send
    split <;> exact ⟨rfl, rfl, rfl, rfl⟩
  have hwindow : (s.sendChunk c b f d rest).window = s.window := by
    simp only [StreamState.window, sendChunk_out, hbuff]
  have hsent : (s.sendChunk c b f d rest).sentCount = s.sentCount + 1 := by
    have h1 := h.flow.sentCount_add
    have h2 := hflow'.sentCount_add
    rw [sendChunk_out, hsame.1] at h2
    cases hspec with
    | item _ _ hchunks =>
        rw [hchunks, List.length_cons] at h1
        omega
  refine ⟨hflow', h.ackOk.sendChunk hpump hbuff, ?_, ?_⟩
  · rw [hsame.2.1, hsame.2.2.1]
    exact h.fresh
  · intro b' f' hb
    have hbatch : b' = b + 1 ∧ f' = f := by
      rw [sendChunk_pump] at hb
      split at hb <;>
      · cases hb
        exact ⟨rfl, rfl⟩
    obtain ⟨rfl, rfl⟩ := hbatch
    obtain ⟨hle, hacks⟩ := h.bound b f' (by rw [hpump]; rfl)
    refine ⟨by omega, fun hpending => ?_⟩
    rw [sendChunk_sessions] at hpending
    have hold := hacks hpending
    unfold StreamState.acksSent at hold ⊢
    rw [hsent, hwindow, hsame.2.1, hsame.2.2.1, hsame.2.2.2]
    have hsub : s.sentCount + 1 - (b + 1) = s.sentCount - b := by omega
    rw [hsub]
    exact hold

/-- Before the end of the stream an ACK goes out. -/
theorem sendAck_up (hflow : Flow s) (hpump : s.pump ≠ .done) (ack : Bool) :
    (s.sendAck ack).up = s.up + if ack then 1 else 0 := by
  obtain ⟨_, _, hopen⟩ := hflow.phase.of_running hpump
  have hroute := hflow.routed hopen.registered
  unfold StreamState.sendAck
  cases ack with
  | true => simp [hroute]
  | false => simp

theorem sendAck_same (ack : Bool) :
    (s.sendAck ack).pump = s.pump ∧ (s.sendAck ack).sessions = s.sessions ∧
      (s.sendAck ack).received = s.received ∧ (s.sendAck ack).consumer = s.consumer ∧
      (s.sendAck ack).window = s.window ∧ (s.sendAck ack).sentCount = s.sentCount := by
  unfold StreamState.sendAck
  split <;> exact ⟨rfl, rfl, rfl, rfl, rfl, rfl⟩

/-- A step of the consumer: its new ACK, if one is due, is in flight. -/
theorem Progress.consumerStep (h : Progress c p s) {t : StreamState D} {ack : Bool}
    (hflow : Flow t) (hackOk : AckOk c t) (hpump : t.pump = s.pump)
    (hsessions : t.sessions = s.sessions) (hup : t.up = s.up) (hsent : t.sentCount = s.sentCount)
    (hwindow : t.window = s.window) (hrunning : t.consumer ≠ .created)
    (hacks : t.acksSent p ≤ s.acksSent p + if ack then 1 else 0) :
    Progress c p (t.sendAck ack) := by
  obtain ⟨hp, hs, hr, hc, hw, hn⟩ := sendAck_same (s := t) ack
  refine ⟨hflow.sendAck ack, hackOk.sendAck ack, fun hcreated => ?_, ?_⟩
  · rw [hc] at hcreated
    exact absurd hcreated hrunning
  · intro b f hb
    rw [hp] at hb
    obtain ⟨hle, hold⟩ := h.bound b f (hpump ▸ hb)
    refine ⟨by rw [hn, hsent]; exact hle, fun hpending => ?_⟩
    have hnew : (t.sendAck ack).acksSent p = t.acksSent p := by
      unfold StreamState.acksSent
      rw [hc, hr, hw]
    rw [hs, hsessions] at hpending
    have hbound := hold hpending
    rw [hnew, hn, hsent, hw, hwindow, sendAck_up hflow (Pump.batch_ne_done hb) ack, hup]
    omega

/-- **Step lemma.** A disciplined step on a direct channel keeps the invariant. -/
theorem Progress.step (h : Progress c p s) (hdirect : c.direct = true) {e : StreamEvent}
    (hdisc : Disciplined p s e) (hmove : Moves c s e s') : Progress c p s' := by
  have hflow' := h.flow.step hdirect hmove
  have hackOk' := h.ackOk.step h.flow hmove
  cases hmove with
  | produce d rest =>
      refine ⟨hflow', hackOk', h.fresh, h.bound⟩
  | producerEnd =>
      refine h.of_eq hflow' hackOk' (Or.inl rfl) (fun _ => rfl) rfl (by simp) rfl ?_ rfl Iff.rfl
      unfold StreamState.window
      rw [show ((s.out.putNowait .sentinel).close).buffLen = s.out.buffLen from
        s.out.putNowait_buffLen .sentinel]
  | producerFail e =>
      refine h.of_eq hflow' hackOk' (Or.inl rfl) (fun _ => rfl) rfl (by simp) rfl ?_ rfl Iff.rfl
      unfold StreamState.window
      rw [show (s.out.fail e).buffLen = s.out.buffLen from s.out.fail_buffLen e]
  | pumpStart hpump => exact h.beginBatch (by simp [hpump])
  | pumpSend b f d rest hpump hnext => exact h.sendChunk hdirect hpump hnext
  | pumpEnd b f rest _ _ =>
      have hsame : (({ s with out := rest } : StreamState D).finish c).received = s.received ∧
          (({ s with out := rest } : StreamState D).finish c).consumer = s.consumer ∧
          (({ s with out := rest } : StreamState D).finish c).pump = .done := by
        unfold StreamState.finish StreamState.send
        split <;> exact ⟨rfl, rfl, rfl⟩
      refine ⟨hflow', hackOk', ?_, ?_⟩
      · rw [hsame.1, hsame.2.1]
        exact h.fresh
      · intro b' f' hb
        rw [hsame.2.2] at hb
        cases hb
  | pumpResume b f r hpump _ => exact h.beginBatch (by simp [hpump])
  | pumpTimeout => exact hdisc.elim
  | deliver x rest hloop hdown =>
      obtain ⟨hopen, _⟩ := h.flow.phase.of_down hdown
      have hreg := hopen.registered
      unfold StreamState.arrive at hflow' hackOk' ⊢
      simp only [hreg, if_true] at hflow' hackOk' ⊢
      split at hflow'
      · rename_i hfull
        rw [if_pos hfull] at hackOk' ⊢
        exact h.of_eq hflow' hackOk' (Or.inl rfl) (fun _ => rfl) rfl rfl rfl rfl rfl Iff.rfl
      · rename_i hroom
        rw [if_neg hroom] at hackOk' ⊢
        cases x <;>
          exact h.of_eq hflow' hackOk' (Or.inl rfl) (fun _ => rfl) rfl rfl rfl rfl rfl Iff.rfl
  | deliverError =>
      exact h.of_eq hflow' hackOk' (Or.inl rfl) (fun _ => rfl) rfl rfl rfl rfl rfl Iff.rfl
  | dropError =>
      exact h.of_eq hflow' hackOk' (Or.inl rfl) (fun _ => rfl) rfl rfl rfl rfl rfl Iff.rfl
  | unblock x =>
      cases x <;>
        exact h.of_eq hflow' hackOk' (Or.inl rfl) (fun _ => rfl) rfl rfl rfl rfl rfl Iff.rfl
  | ackDeliver n hup =>
      refine ⟨hflow', hackOk', h.fresh, fun b f hb => ?_⟩
      exact ⟨(h.bound b f hb).1, fun hpending =>
        absurd hpending (h.ackOk.batchOpen hb).not_pending_after⟩
  | start ack hconsumer =>
      have hack : ack = true := hdisc
      subst hack
      refine h.consumerStep (h.flow.of_eq rfl rfl rfl rfl rfl Iff.rfl rfl rfl rfl rfl)
        (h.ackOk.of_eq rfl rfl rfl) rfl rfl rfl rfl rfl (by simp) ?_
      have hnil := h.fresh hconsumer
      simp only [StreamState.acksSent, hconsumer, hnil, if_true, List.length_nil]
      cases p <;> simp [AckPolicy.due]
  | consume ack d rest hconsumer hnext =>
      have hack : ack = p.acks s.window s.received.length := hdisc
      have hspec := c.kind.next_spec h.flow.inSound
      rw [hnext] at hspec
      refine h.consumerStep (h.flow.receive hspec) (h.ackOk.of_eq rfl rfl rfl) rfl rfl rfl ?_ rfl
        (by simp [hconsumer]) ?_
      · cases hspec with
        | item _ _ hchunks =>
            simp only [StreamState.sentCount, StreamState.inFlight, List.length_append, hchunks,
              List.length_cons, List.length_nil]
            omega
      · have hdue := p.due_succ (window_pos (s := s)) s.received.length
        have hrun : s.consumer ≠ .created := by simp [hconsumer]
        simp only [StreamState.acksSent, if_neg hrun, List.length_append, List.length_singleton]
        rw [hack]
        exact Nat.le_of_eq hdue
  | consumeStop ack rest hconsumer _ =>
      refine h.of_eq hflow' hackOk' (Or.inl rfl) (fun _ => rfl) rfl rfl rfl rfl rfl ?_
      simp [hconsumer]
  | consumeRaise ack e rest hconsumer _ =>
      refine h.of_eq hflow' hackOk' (Or.inl rfl) (fun _ => rfl) rfl rfl rfl rfl rfl ?_
      simp [hconsumer]
  | quit => exact hdisc.elim

/-- The invariant excludes the deadlock. -/
theorem Progress.not_stuck (h : Progress c p s) : ¬ Stuck s := by
  rintro ⟨b, f, hpump, hfuture, hup, hchunks, hflight⟩
  have hbatch : s.pump.batch = some (b, f) := by rw [hpump]; rfl
  obtain ⟨hle, hbound⟩ := h.bound b f hbatch
  have hwindow : b = s.window := by
    have hok := h.ackOk
    simp only [AckOk, hpump] at hok
    exact hok.1
  have hpending : s.sessions.Pending c.ackLabel f := by
    rcases h.ackOk.batchOpen hbatch with hp | ha
    · exact hp
    · obtain ⟨r, hr⟩ := ha.future
      rw [hfuture] at hr
      cases hr
  have hall : s.sentCount = s.received.length := by
    simp [StreamState.sentCount, hchunks, hflight]
  have hpos := window_pos (s := s)
  have hrun : s.consumer ≠ .created := by
    intro hcreated
    rw [hall, h.fresh hcreated, List.length_nil] at hle
    omega
  have hacks := hbound hpending
  simp only [StreamState.acksSent, if_neg hrun, hup, hall, hwindow] at hacks
  have hmore := p.due_add_window hpos (s.received.length - s.window)
  rw [Nat.sub_add_cancel (by omega)] at hmore
  omega

/-- **Batch ACK progress.** On a direct channel, with a consumer that follows the policy and no timer
expiring, no run of the stream reaches the deadlock, for any chunks, batch size and pipes. -/
theorem never_stuck (c : StreamConfig) (p : AckPolicy) (hdirect : c.direct = true) (todo : List D)
    (buff : Nat) (buffIn : Int) (sessions : SessionTable (Reply D)) {es : List StreamEvent}
    (hdisc : (streamMachine c).Guarded (Disciplined p)
      (StreamState.init todo buff buffIn sessions) es) :
    (streamMachine c).Always (fun s => ¬ Stuck s)
      (StreamState.init todo buff buffIn sessions) es := by
  refine Machine.always_of_guarded (fun _ (h : Progress c p _) => h.not_stuck) ?_ ?_ hdisc
  · exact fun s e s' h hd hstep => h.step hdirect hd (moves_of_step hstep)
  · exact ⟨flow_init todo buff buffIn sessions, trivial, fun _ => rfl, fun b f hb => by cases hb⟩

end Progress

/-! ## §3 Two batches -/

instance (p : AckPolicy) (s : StreamState Nat) : DecidablePred (Disciplined p s)
  | .start _ => inferInstanceAs (Decidable (_ = _))
  | .consume _ => inferInstanceAs (Decidable (_ = _))
  | .quit => isFalse id
  | .pumpTimeout => isFalse id
  | .produce => isTrue trivial
  | .producerEnd => isTrue trivial
  | .producerFail _ => isTrue trivial
  | .pumpStart => isTrue trivial
  | .pumpNext => isTrue trivial
  | .pumpResume => isTrue trivial
  | .deliver => isTrue trivial
  | .unblock => isTrue trivial
  | .ackDeliver => isTrue trivial

/-- The first ACK arrives before the pump starts and is lost; a batch of two is consumed, answered,
and followed by the next. -/
theorem two_batches_never_stuck :
    (streamMachine ⟨"l", true, .pipe⟩).Always (fun s => ¬ Stuck s)
      (StreamState.init [1, 2, 3] (2 : Nat) 10 SessionTable.init)
      [.start true, .ackDeliver, .produce, .produce, .pumpStart, .pumpNext, .pumpNext, .deliver,
        .deliver, .consume false, .consume true, .ackDeliver, .pumpResume, .produce, .pumpNext] :=
  never_stuck ⟨"l", true, .pipe⟩ .perBatch rfl [1, 2, 3] 2 10 SessionTable.init (by decide)

end NetPulse.Mesh
