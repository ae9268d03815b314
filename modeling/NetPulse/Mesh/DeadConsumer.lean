import NetPulse.Mesh.StreamFlow

/-
# NetPulse.Mesh.DeadConsumer — a consumer that has gone, and the receive loop behind it

`StreamRegistry.feed` and `close` wait for a place in the pipe, and the stream stays registered when
its consumer has gone. The receive loop of the channel is then suspended for good once the pipe is
full, together with all other traffic of the channel.

How much can still arrive is known when the consumer leaves: what is in flight, what the producer
has left, bounded by what the pump may still send on the ACKs it has or that are in flight
(`allowance`), and the sentinel of EOF. `channel_free_of_room` says that the channel stays free when
all of that fits in the pipe (`load`), or the pipe has no bound, or the stream is closed already.
-/

namespace NetPulse.Mesh

open NetPulse.Lib StreamState

section DeadConsumer

variable {D : Type*} {c : StreamConfig} {s s' : StreamState D}

/-- **The channel is blocked for good**: the receive loop waits for a place in a pipe whose consumer
has gone. -/
def Blocked (s : StreamState D) : Prop :=
  s.consumer.gone = true ∧ s.loop.isSome ∧ s.inbound.isFull

/-! ## §1 What can still arrive -/

/-- The future has its result. -/
def answeredCount (s : StreamState D) (f : Nat) : Nat :=
  match s.sessions.future f with
  | some (.result _) => 1
  | _ => 0

/-- The chunks that the pump may still send on the current batch, on its answered future and on the
ACKs in flight. -/
def allowance (s : StreamState D) : Nat :=
  match s.pump with
  | .start => s.window + s.window * s.up
  | .next b f => s.window - b + s.window * (answeredCount s f + s.up)
  | .waitAck _ f => s.window * (answeredCount s f + s.up)
  | .done => 0

/-- The sentinel of an EOF still to be sent. -/
def eofDue (s : StreamState D) : Nat :=
  if s.pump = .done ∨ s.out.error.isSome then 0 else 1

/-- What the pump may still send. -/
def sendable (s : StreamState D) : Nat := min (s.out.chunks.length + s.todo.length) (allowance s)

/-- The elements in the pipe, on the way to it and still to be sent. -/
def load (s : StreamState D) : Nat :=
  s.inbound.queue.length + s.loop.toList.length + (Down.items s.down).length + sendable s + eofDue s

/-- All of the load finds a place. -/
def Room (s : StreamState D) : Prop :=
  s.registered = false ∨ s.inbound.buffLen ≤ 0 ∨ (load s : Int) ≤ s.inbound.buffLen

instance (s : StreamState D) : Decidable (Room s) := inferInstanceAs (Decidable (_ ∨ _ ∨ _))

/-- The condition on a consumer that leaves early. -/
def LeavesRoom (c : StreamConfig) (s : StreamState D) : StreamEvent → Prop
  | .quit => c.direct = false ∨ Room s
  | _ => True

/-! ## §2 Without the consumer the load does not grow -/

theorem Room.of_le (h : Room s) (hreg : s.registered = false → s'.registered = false)
    (hbuff : s'.inbound.buffLen = s.inbound.buffLen) (hload : load s' ≤ load s) : Room s' := by
  rcases h with hr | hb | hl
  · exact Or.inl (hreg hr)
  · exact Or.inr (Or.inl (hbuff ▸ hb))
  · refine Or.inr (Or.inr ?_)
    rw [hbuff]
    omega

theorem answeredCount_of_pending {f : Nat} (h : s.sessions.Pending c.ackLabel f) :
    answeredCount s f = 0 := by
  simp [answeredCount, h.future]

theorem answeredCount_of_answered {f : Nat} (h : s.sessions.Answered c.ackLabel f) :
    answeredCount s f = 1 := by
  obtain ⟨r, hr⟩ := h.future
  simp [answeredCount, hr]

/-- An ACK that arrives answers the future or is lost. -/
theorem answeredCount_resolve {f n : Nat} (h : BatchOpen c s f) (hup : s.up = n + 1) :
    answeredCount ({ s with up := n, sessions := s.sessions.resolve c.ackLabel .ack } :
      StreamState D) f + n ≤ answeredCount s f + s.up := by
  rcases h with hp | ha
  · rw [answeredCount_of_pending hp, answeredCount_of_answered (c := c) (hp.resolve .ack)]
    omega
  · rw [answeredCount_of_answered ha, answeredCount_of_answered (c := c)]
    · omega
    · show (s.sessions.resolve c.ackLabel .ack).Answered c.ackLabel f
      rw [SessionTable.resolve_of_free ha.1]
      exact ha

theorem allowance_ackDeliver {n : Nat} (h : AckOk c s) (hup : s.up = n + 1) :
    allowance ({ s with up := n, sessions := s.sessions.resolve c.ackLabel .ack } :
      StreamState D) ≤ allowance s := by
  unfold AckOk at h
  unfold allowance
  cases hpump : s.pump with
  | start =>
      have hmul : s.window * n ≤ s.window * s.up := Nat.mul_le_mul_left _ (by omega)
      exact Nat.add_le_add_left hmul _
  | next b f =>
      simp only [hpump] at h
      exact Nat.add_le_add_left (Nat.mul_le_mul_left _ (answeredCount_resolve h.2 hup)) _
  | waitAck b f =>
      simp only [hpump] at h
      exact Nat.mul_le_mul_left _ (answeredCount_resolve h.2 hup)
  | done => exact Nat.le_refl _

/-- A new batch is paid for by the answer to the last one, or is the first. -/
theorem allowance_beginBatch :
    allowance (s.beginBatch c) = s.window + s.window * s.up := by
  have hpending := SessionTable.pending_registerSingle s.sessions c.ackLabel "" ""
  have hcount : answeredCount (s.beginBatch c) s.sessions.heap.length = 0 :=
    answeredCount_of_pending (c := c) hpending
  show s.window - 0 + s.window * (answeredCount (s.beginBatch c) _ + s.up) = _
  rw [hcount, Nat.sub_zero, Nat.zero_add]

theorem allowance_resume {b f : Nat} {r : Reply D} (hpump : s.pump = .waitAck b f)
    (hresult : s.sessions.future f = some (.result r)) :
    allowance (s.beginBatch c) = allowance s := by
  rw [allowance_beginBatch]
  have hcount : answeredCount s f = 1 := by simp [answeredCount, hresult]
  unfold allowance
  simp only [hpump, hcount]
  rw [Nat.mul_add, Nat.mul_one]

/-- A chunk sent is a chunk less to send, and one more on the way. -/
theorem load_sendChunk (hdirect : c.direct = true) (hok : AckOk c s) (hsound : s.out.Sound)
    {b f : Nat} {d : D} {rest : Pipe D} (hpump : s.pump = .next b f)
    (hnext : s.out.anext = .item d rest) : load (s.sendChunk c b f d rest) = load s := by
  have hspec := hsound.anext
  rw [hnext] at hspec
  simp only [AckOk, hpump] at hok
  cases hspec with
  | item _ _ hchunks _ hbuff _ herror _ =>
      have hwindow : (s.sendChunk c b f d rest).window = s.window := by
        simp only [StreamState.window, sendChunk_out, hbuff]
      have hcount : answeredCount (s.sendChunk c b f d rest) f = answeredCount s f := by
        unfold answeredCount
        rw [sendChunk_sessions]
      have hup : (s.sendChunk c b f d rest).up = s.up := by
        unfold StreamState.sendChunk StreamState.send
        split <;> rfl
      have hallow : allowance (s.sendChunk c b f d rest) + 1 = allowance s := by
        unfold allowance
        rw [sendChunk_pump]
        by_cases hfull : s.window ≤ b + 1
        · simp only [if_pos hfull, hpump, hwindow, hcount, hup]
          omega
        · simp only [if_neg hfull, hpump, hwindow, hcount, hup]
          omega
      have hsend : sendable (s.sendChunk c b f d rest) + 1 = sendable s := by
        unfold sendable
        have htodo : (s.sendChunk c b f d rest).todo = s.todo := by
          unfold StreamState.sendChunk StreamState.send
          split <;> rfl
        rw [sendChunk_out, htodo, hchunks, List.length_cons]
        omega
      have heof : eofDue (s.sendChunk c b f d rest) = eofDue s := by
        have hne : (s.sendChunk c b f d rest).pump ≠ .done := by
          rw [sendChunk_pump]
          split <;> simp
        unfold eofDue
        rw [sendChunk_out, herror]
        simp [hne, hpump]
      have hway : (s.sendChunk c b f d rest).inbound = s.inbound ∧
          (s.sendChunk c b f d rest).loop = s.loop ∧
          (s.sendChunk c b f d rest).down = s.down ++ [.put (.chunk d)] := by
        unfold StreamState.sendChunk
        rw [send_direct hdirect]
        exact ⟨rfl, rfl, rfl⟩
      unfold load
      rw [heof, hway.1, hway.2.1, hway.2.2, Down.items_append, List.length_append]
      simp only [Down.items, List.length_singleton]
      omega

/-- The end of the pump sends at most the sentinel. -/
theorem load_finish (hdirect : c.direct = true) (hpump : s.pump ≠ .done) :
    load (s.finish c) ≤ load s := by
  unfold StreamState.finish
  rw [send_direct hdirect]
  cases herror : s.out.error with
  | none =>
      simp only [load, sendable, allowance, eofDue, Down.items, herror, hpump, Down.items_append,
        List.length_append, List.length_cons, List.length_nil, Nat.min_zero, if_true,
        Option.isSome_none, Bool.false_eq_true, or_false, if_false]
      omega
  | some e => simp [load, sendable, allowance, eofDue, Down.items, herror, hpump]

/-- A new answer future changes nothing but the allowance. -/
theorem load_beginBatch (hpump : s.pump ≠ .done)
    (hallow : allowance (s.beginBatch c) = allowance s) : load (s.beginBatch c) = load s := by
  have hne : (s.beginBatch c).pump ≠ .done := by
    intro hc
    cases hc
  have heof : eofDue (s.beginBatch c) = eofDue s := by
    unfold eofDue
    simp only [hne, hpump, false_or]
    rfl
  unfold load sendable
  rw [heof, hallow]
  rfl

/-- Equal parts, equal load. -/
theorem load_of_eq (hqueue : s'.inbound.queue.length + s'.loop.toList.length +
      (Down.items s'.down).length ≤ s.inbound.queue.length + s.loop.toList.length +
        (Down.items s.down).length)
    (hpump : s'.pump = s.pump) (hsessions : s'.sessions = s.sessions) (hup : s'.up = s.up)
    (hbuff : s'.out.buffLen = s.out.buffLen)
    (hleft : s'.out.chunks.length + s'.todo.length ≤ s.out.chunks.length + s.todo.length)
    (herror : s.out.error.isSome → s'.out.error.isSome) : load s' ≤ load s := by
  have hallow : allowance s' = allowance s := by
    unfold allowance answeredCount StreamState.window
    rw [hpump, hsessions, hup, hbuff]
  have heof : eofDue s' ≤ eofDue s := by
    unfold eofDue
    rw [hpump]
    split
    · exact Nat.zero_le _
    · rename_i hno
      rw [if_neg (fun h => hno (h.imp_right herror))]
  have hsend : sendable s' ≤ sendable s := by
    unfold sendable
    rw [hallow]
    omega
  unfold load
  omega

/-! ## §3 The channel -/

/-- The invariant on a direct channel. -/
structure Free (c : StreamConfig) (s : StreamState D) : Prop where
  flow : Flow s
  ackOk : AckOk c s
  gone : s.consumer.gone = true → s.consumer ≠ .quit → s.inbound.closed = true
  room : s.consumer = .quit → Room s

theorem Free.not_blocked (h : Free c s) : ¬ Blocked s := by
  rintro ⟨hgone, hloop, hfull⟩
  by_cases hquit : s.consumer = .quit
  · rcases h.room hquit with hreg | hbuff | hload
    · cases h.flow.phase with
      | streaming _ _ _ ho => exact absurd ho.registered (by simp [hreg])
      | closing _ _ _ _ _ ho => exact absurd ho.registered (by simp [hreg])
      | flushing _ _ _ _ hr => exact absurd hr (by simp [hreg])
      | closed _ _ hl _ _ =>
          rw [hl] at hloop
          cases hloop
    · have hpos := hfull.1
      omega
    · obtain ⟨x, hx⟩ := Option.isSome_iff_exists.mp hloop
      have hlen : s.loop.toList.length = 1 := by rw [hx]; rfl
      have hle := hfull.2
      unfold load at hload
      omega
  · have hclosed := h.gone hgone hquit
    obtain ⟨_, _, hnone, _⟩ := h.flow.phase.of_closed hclosed
    rw [hnone] at hloop
    cases hloop

/-- Once the consumer has left, no step makes the room scarce. -/
theorem Room.step (h : Room s) (hfree : Free c s) (hdirect : c.direct = true)
    (hquit : s.consumer = .quit) {e : StreamEvent} (hmove : Moves c s e s') : Room s' := by
  cases hmove with
  | produce d rest htodo =>
      refine h.of_le id rfl (load_of_eq (Nat.le_refl _) rfl rfl rfl rfl ?_ id)
      simp only [Pipe.chunks_push_chunk, htodo, List.length_append, List.length_cons,
        List.length_nil]
      omega
  | producerEnd htodo =>
      refine h.of_le id rfl (load_of_eq (Nat.le_refl _) rfl rfl rfl
        (s.out.putNowait_buffLen .sentinel) ?_ ?_)
      · simp
      · intro herror
        rw [show ((s.out.putNowait .sentinel).close).error = s.out.error from
          s.out.putNowait_error .sentinel]
        exact herror
  | producerFail e =>
      refine h.of_le id rfl (load_of_eq (Nat.le_refl _) rfl rfl rfl (s.out.fail_buffLen e) ?_ ?_)
      · simp
      · simp
  | pumpStart hpump =>
      refine h.of_le id rfl (Nat.le_of_eq (load_beginBatch (by simp [hpump]) ?_))
      rw [allowance_beginBatch]
      unfold allowance
      simp only [hpump]
  | pumpSend b f d rest hpump hnext =>
      refine h.of_le ?_ ?_
        (Nat.le_of_eq (load_sendChunk hdirect hfree.ackOk hfree.flow.outSound hpump hnext))
      · unfold StreamState.sendChunk StreamState.send
        split <;> exact id
      · unfold StreamState.sendChunk StreamState.send
        split <;> rfl
  | pumpEnd b f rest hpump hnext =>
      have hspec := hfree.flow.outSound.anext
      have hrest : s.out.chunks = [] ∧ rest.queue = [] ∧ rest.error = s.out.error ∧
          rest.buffLen = s.out.buffLen := by
        rcases hnext with hnext | ⟨e, hnext⟩
        · rw [hnext] at hspec
          cases hspec with
          | stop _ hchunks hrest hbuff _ _ herror => exact ⟨hchunks, hrest, herror, hbuff⟩
        · rw [hnext] at hspec
          cases hspec with
          | raised _ _ hchunks hrest hbuff _ _ herror => exact ⟨hchunks, hrest, herror, hbuff⟩
      obtain ⟨hchunks, hempty, herror, hbuff⟩ := hrest
      have hread : load ({ s with out := rest } : StreamState D) ≤ load s := by
        refine load_of_eq (Nat.le_refl _) rfl rfl rfl hbuff ?_ ?_
        · have hnil : rest.chunks = [] := by
            unfold Pipe.chunks
            rw [hempty]
            rfl
          simp only [hnil, hchunks, Nat.le_refl]
        · intro hsome
          show rest.error.isSome
          rw [herror]
          exact hsome
      refine h.of_le ?_ ?_ (Nat.le_trans (load_finish hdirect ?_) hread)
      · unfold StreamState.finish StreamState.send
        split <;> exact id
      · unfold StreamState.finish StreamState.send
        split <;> rfl
      · show s.pump ≠ .done
        simp [hpump]
  | pumpResume b f r hpump hresult =>
      exact h.of_le id rfl
        (Nat.le_of_eq (load_beginBatch (by simp [hpump]) (allowance_resume hpump hresult)))
  | pumpTimeout b f hpump =>
      refine h.of_le ?_ ?_ (load_finish hdirect (by simp [hpump]))
      · unfold StreamState.finish StreamState.send
        split <;> exact id
      · unfold StreamState.finish StreamState.send
        split <;> rfl
  | deliver x rest hloop hdown =>
      have hreg := (hfree.flow.phase.of_down hdown).1.registered
      unfold StreamState.arrive
      simp only [hreg, if_true]
      split
      · refine h.of_le (fun hr => absurd hr (by simp [hreg])) rfl
          (load_of_eq ?_ rfl rfl rfl rfl (Nat.le_refl _) id)
        simp only [hloop, hdown, Down.items, Option.toList, List.length_cons, List.length_nil]
        omega
      · cases x with
        | chunk d =>
            refine h.of_le (fun hr => absurd hr (by simp [hreg])) rfl
              (load_of_eq ?_ rfl rfl rfl rfl (Nat.le_refl _) id)
            simp only [StreamState.settle, Pipe.push, hloop, hdown, Down.items, Option.toList,
              List.length_append, List.length_cons, List.length_nil]
            omega
        | sentinel => exact Or.inl rfl
  | deliverError => exact Or.inl rfl
  | dropError e rest _ _ hreg => exact Or.inl hreg
  | unblock x hloop =>
      cases x with
      | chunk d =>
          refine h.of_le id rfl (load_of_eq ?_ rfl rfl rfl rfl (Nat.le_refl _) id)
          simp only [StreamState.settle, Pipe.push, hloop, Option.toList, List.length_append,
            List.length_cons, List.length_nil]
          omega
      | sentinel => exact Or.inl rfl
  | ackDeliver n hup =>
      refine h.of_le id rfl ?_
      have hallow := allowance_ackDeliver hfree.ackOk hup
      unfold load sendable
      exact Nat.add_le_add_right (Nat.add_le_add_left (min_le_min_left _ hallow) _) _
  | start ack hconsumer =>
      rw [hquit] at hconsumer
      cases hconsumer
  | consume ack d rest hconsumer =>
      rw [hquit] at hconsumer
      cases hconsumer
  | consumeStop ack rest hconsumer =>
      rw [hquit] at hconsumer
      cases hconsumer
  | consumeRaise ack e rest hconsumer =>
      rw [hquit] at hconsumer
      cases hconsumer
  | quit hconsumer =>
      rw [hquit] at hconsumer
      cases hconsumer

/-- What the receive loop does leaves the consumer as it is. -/
theorem arrive_consumer (x : Item D) : (s.arrive x).consumer = s.consumer := by
  unfold StreamState.arrive
  split
  · split
    · rfl
    · cases x <;> rfl
  · cases x <;> rfl

theorem sendAck_consumer (ack : Bool) : (s.sendAck ack).consumer = s.consumer := by
  unfold StreamState.sendAck
  split <;> rfl

/-- The consumer leaves by `quit`, or at the end of a closed pipe, or it was gone before. -/
theorem consumer_of_moves (hflow : Flow s) {e : StreamEvent} (hmove : Moves c s e s') :
    s'.consumer = s.consumer ∨ s'.consumer.gone = false ∨ s'.consumer = .quit ∧ e = .quit ∨
      s'.inbound.closed = true := by
  cases hmove with
  | produce => exact Or.inl rfl
  | producerEnd => exact Or.inl rfl
  | producerFail => exact Or.inl rfl
  | pumpStart => exact Or.inl rfl
  | pumpSend =>
      unfold StreamState.sendChunk StreamState.send
      split <;> exact Or.inl rfl
  | pumpEnd =>
      unfold StreamState.finish StreamState.send
      split <;> exact Or.inl rfl
  | pumpResume => exact Or.inl rfl
  | pumpTimeout =>
      unfold StreamState.finish StreamState.send
      split <;> exact Or.inl rfl
  | deliver x => exact Or.inl (arrive_consumer x)
  | deliverError => exact Or.inl rfl
  | dropError => exact Or.inl rfl
  | unblock x => cases x <;> exact Or.inl rfl
  | ackDeliver => exact Or.inl rfl
  | start ack =>
      refine Or.inr (Or.inl ?_)
      rw [sendAck_consumer]
      rfl
  | consume ack d rest hconsumer =>
      refine Or.inl ?_
      rw [sendAck_consumer]
  | consumeStop ack rest _ hnext =>
      have hspec := c.kind.next_spec hflow.inSound
      rw [hnext] at hspec
      cases hspec with
      | stop _ _ _ _ _ hrestc => exact Or.inr (Or.inr (Or.inr hrestc))
  | consumeRaise ack e rest _ hnext =>
      have hspec := c.kind.next_spec hflow.inSound
      rw [hnext] at hspec
      cases hspec with
      | raised _ _ _ _ _ _ hrestc => exact Or.inr (Or.inr (Or.inr hrestc))
  | quit => exact Or.inr (Or.inr (Or.inl ⟨rfl, rfl⟩))

/-- A closed pipe stays closed. -/
theorem closed_of_moves (hflow : Flow s) (hflow' : Flow s') {e : StreamEvent}
    (hmove : Moves c s e s') (hclosed : s.inbound.closed = true) : s'.inbound.closed = true := by
  obtain ⟨hpump, hdown, hloop, _⟩ := hflow.phase.of_closed hclosed
  have hdone : ∀ t : StreamState D, t.pump = .done → t.down = [] → t.loop = none →
      Flow t → t.inbound.closed = true := by
    intro t hp hd hl ht
    cases ht.phase with
    | streaming _ hp' _ _ => exact absurd hp hp'
    | closing ds x _ _ hd' _ =>
        rw [hd] at hd'
        simp at hd'
    | flushing _ _ hl' _ _ =>
        rw [hl] at hl'
        cases hl'
    | closed _ _ _ hc _ => exact hc
  refine hdone s' ?_ ?_ ?_ hflow'
  all_goals
    cases hmove with
    | pumpStart hp => rw [hpump] at hp; cases hp
    | pumpSend _ _ _ _ hp => rw [hpump] at hp; cases hp
    | pumpEnd _ _ _ hp => rw [hpump] at hp; cases hp
    | pumpResume _ _ _ hp => rw [hpump] at hp; cases hp
    | pumpTimeout _ _ hp => rw [hpump] at hp; cases hp
    | deliver _ _ _ hd => rw [hdown] at hd; cases hd
    | deliverError _ _ _ hd => rw [hdown] at hd; cases hd
    | dropError _ _ _ hd => rw [hdown] at hd; cases hd
    | unblock _ hl => rw [hloop] at hl; cases hl
    | start ack =>
        unfold StreamState.sendAck
        split <;> assumption
    | consume ack =>
        unfold StreamState.sendAck
        split <;> assumption
    | produce => assumption
    | producerEnd => assumption
    | producerFail => assumption
    | ackDeliver => assumption
    | consumeStop => assumption
    | consumeRaise => assumption
    | quit => assumption

/-- **Step lemma.** On a direct channel, a consumer that leaves room keeps the channel free. -/
theorem Free.step (h : Free c s) (hdirect : c.direct = true) {e : StreamEvent}
    (hroom : LeavesRoom c s e) (hmove : Moves c s e s') : Free c s' := by
  have hflow' := h.flow.step hdirect hmove
  refine ⟨hflow', h.ackOk.step h.flow hmove, ?_, ?_⟩
  · intro hgone hne
    rcases consumer_of_moves h.flow hmove with heq | hno | ⟨hquit, _⟩ | hclosed
    · rw [heq] at hgone hne
      exact closed_of_moves h.flow hflow' hmove (h.gone hgone hne)
    · rw [hno] at hgone
      cases hgone
    · exact absurd hquit hne
    · exact hclosed
  · intro hquit
    rcases consumer_of_moves h.flow hmove with heq | hno | ⟨_, rfl⟩ | hclosed
    · exact (h.room (heq ▸ hquit)).step h hdirect (heq ▸ hquit) hmove
    · rw [hquit] at hno
      cases hno
    · -- the consumer leaves in this step, with room behind it
      cases hmove with
      | quit =>
          have hleaves : Room s := hroom.resolve_left (by simp [hdirect])
          exact hleaves.of_le id rfl (load_of_eq (Nat.le_refl _) rfl rfl rfl rfl (Nat.le_refl _) id)
    · exact Or.inl (hflow'.phase.of_closed hclosed).2.2.2

/-- **A consumer that leaves room never blocks the channel**: in every run in which all that can
still arrive when the consumer leaves early has a place in the pipe, the receive loop is never
suspended behind a consumer that has gone. -/
theorem channel_free_of_room (c : StreamConfig) (todo : List D) (buffOut buffIn : Int)
    (sessions : SessionTable (Reply D)) {es : List StreamEvent}
    (hroom : (streamMachine c).Guarded (LeavesRoom c)
      (StreamState.init todo buffOut buffIn sessions) es) :
    (streamMachine c).Always (fun s => ¬ Blocked s)
      (StreamState.init todo buffOut buffIn sessions) es := by
  cases hdirect : c.direct with
  | true =>
      refine Machine.always_of_guarded (fun _ (h : Free c _) => h.not_blocked) ?_ ?_ hroom
      · exact fun s e s' h hr hstep => h.step hdirect hr (moves_of_step hstep)
      · refine ⟨flow_init todo buffOut buffIn sessions, trivial, fun hgone => ?_, fun hquit => ?_⟩
        · cases hgone
        · cases hquit
  | false =>
      refine Machine.always_of_guarded (fun s (h : Silent s) hblocked => ?_) ?_
        (silent_init todo buffOut buffIn sessions) hroom
      · have hloop := hblocked.2.1
        rw [h.loop] at hloop
        cases hloop
      · exact fun s e s' h _ hstep => h.step hdirect (moves_of_step hstep)

end DeadConsumer

/-! ## §4 Two downloads -/

instance (c : StreamConfig) (s : StreamState Nat) : DecidablePred (LeavesRoom c s)
  | .quit => inferInstanceAs (Decidable (_ ∨ _))
  | .start _ => isTrue trivial
  | .consume _ => isTrue trivial
  | .pumpTimeout => isTrue trivial
  | .produce => isTrue trivial
  | .producerEnd => isTrue trivial
  | .producerFail _ => isTrue trivial
  | .pumpStart => isTrue trivial
  | .pumpNext => isTrue trivial
  | .pumpResume => isTrue trivial
  | .deliver => isTrue trivial
  | .unblock => isTrue trivial
  | .ackDeliver => isTrue trivial

/-- A download in batches of eight, the first of them answered by the ACK of the start. -/
def firstBatch : List StreamEvent :=
  .start true :: List.replicate 8 .produce ++ .pumpStart :: List.replicate 8 .pumpNext ++
    [.ackDeliver, .pumpResume]

/-- The consumer breaks off when one chunk is left: the pipe of ten takes the rest. -/
theorem short_download_free :
    (streamMachine ⟨"l", true, .pipe⟩).Always (fun s => ¬ Blocked s)
      (StreamState.init (List.range 9) 8 10 SessionTable.init)
      (firstBatch ++ [.quit, .produce, .pumpNext] ++ List.replicate 9 .deliver) :=
  channel_free_of_room ⟨"l", true, .pipe⟩ (List.range 9) 8 10 SessionTable.init (by decide)

/-- **The consumer breaks off in the middle of a download**: ten chunks fill the pipe, and the
eleventh suspends the receive loop. -/
theorem broken_download_blocks :
    ∃ s, (streamMachine ⟨"l", true, .pipe⟩).run
        (StreamState.init (List.range 12) 8 10 SessionTable.init)
        (firstBatch ++ .quit :: List.replicate 3 .produce ++ List.replicate 3 .pumpNext ++
          List.replicate 11 .deliver) = some s ∧ Blocked s :=
  ⟨_, rfl, rfl, rfl, by decide⟩

end NetPulse.Mesh
