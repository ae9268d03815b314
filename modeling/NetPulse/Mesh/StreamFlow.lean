import NetPulse.Mesh.StreamPump

/-
# NetPulse.Mesh.StreamFlow — where the chunks of a stream are

On a direct channel nothing is lost on the way: at any moment the chunks that the producer has
yielded are, in order, those the consumer has received, those in `inbound`, the one in the suspended
`put`, those in flight and those in `out` (`Flow.conserved`). `Phase` says where the end of the
stream is: not sent, in flight behind all chunks, in the suspended `put`, or in the pipe of the
consumer.

Neither speaks of timeouts or of how the consumer ends, so the invariant holds in every run. The
results on integrity, progress and dead consumers start from it, from the state of the ACK session
(`AckOk`) and, for a destination without a channel, from `Silent`.
-/

namespace NetPulse.Mesh

open NetPulse.Lib StreamState

variable {D : Type*} {c : StreamConfig} {s s' : StreamState D}

/-! ## §1 The invariant -/

/-- What is put on the pipe by the packs of a channel. -/
def Down.items : List (Down D) → List (Item D)
  | [] => []
  | .put x :: rest => x :: items rest
  | .error _ :: rest => items rest

@[simp] theorem Down.items_append (xs ys : List (Down D)) :
    Down.items (xs ++ ys) = Down.items xs ++ Down.items ys := by
  induction xs with
  | nil => rfl
  | cons x xs ih => cases x <;> simp [Down.items, ih]

/-- The chunks between the pump and the pipe of the consumer. -/
def StreamState.inFlight (s : StreamState D) : List D :=
  chunksOf s.loop.toList ++ chunksOf (Down.items s.down)

/-- CHUNK packs. -/
def chunkPacks (ds : List D) : List (Down D) := ds.map fun d => .put (.chunk d)

/-- The stream is registered and open, and only a chunk can be waiting for a place. -/
structure OpenEnd (s : StreamState D) : Prop where
  open_ : s.inbound.closed = false
  registered : s.registered = true
  loop : ∀ x, s.loop = some x → ∃ d, x = .chunk d

/-- Where the end of the stream is. -/
inductive Phase (s : StreamState D) : Prop where
  | streaming (ds : List D) (hpump : s.pump ≠ .done) (hdown : s.down = chunkPacks ds)
      (hopen : OpenEnd s)
  | closing (ds : List D) (x : Down D) (hx : ∀ d, x ≠ .put (.chunk d)) (hpump : s.pump = .done)
      (hdown : s.down = chunkPacks ds ++ [x]) (hopen : OpenEnd s)
  | flushing (hpump : s.pump = .done) (hdown : s.down = []) (hloop : s.loop = some .sentinel)
      (hopen : s.inbound.closed = false) (hreg : s.registered = true)
  | closed (hpump : s.pump = .done) (hdown : s.down = []) (hloop : s.loop = none)
      (hclosed : s.inbound.closed = true) (hreg : s.registered = false)

structure Flow (s : StreamState D) : Prop where
  outSound : s.out.Sound
  inSound : s.inbound.Sound
  produced : s.out.closed = true → s.todo = []
  phase : Phase s
  conserved : s.yielded = s.received ++ s.inbound.chunks ++ s.inFlight ++ s.out.chunks
  healthy : s.inbound.closed = false → s.inbound.error = none
  routed : s.registered = true → s.routeCached = true

theorem flow_init (todo : List D) (buffOut buffIn : Int) (sessions : SessionTable (Reply D)) :
    Flow (StreamState.init todo buffOut buffIn sessions) where
  outSound := ⟨Or.inl rfl⟩
  inSound := ⟨Or.inl rfl⟩
  produced := by simp [StreamState.init]
  phase := .streaming [] (by simp [StreamState.init]) rfl ⟨rfl, rfl, by simp [StreamState.init]⟩
  conserved := rfl
  healthy _ := rfl
  routed _ := rfl

theorem Phase.of_eq (h : Phase s) (hpump : s'.pump = .done ↔ s.pump = .done)
    (hdown : s'.down = s.down) (hloop : s'.loop = s.loop)
    (hclosed : s'.inbound.closed = s.inbound.closed) (hreg : s'.registered = s.registered) :
    Phase s' := by
  have hopen : OpenEnd s → OpenEnd s' := fun ho =>
    ⟨hclosed.trans ho.open_, hreg.trans ho.registered, fun x hx => ho.loop x (hloop ▸ hx)⟩
  cases h with
  | streaming ds hp hd ho =>
      exact .streaming ds (fun hc => hp (hpump.mp hc)) (hdown.trans hd) (hopen ho)
  | closing ds x hx hp hd ho => exact .closing ds x hx (hpump.mpr hp) (hdown.trans hd) (hopen ho)
  | flushing hp hd hl ho hr =>
      exact .flushing (hpump.mpr hp) (hdown.trans hd) (hloop.trans hl) (hclosed.trans ho)
        (hreg.trans hr)
  | closed hp hd hl hc hr =>
      exact .closed (hpump.mpr hp) (hdown.trans hd) (hloop.trans hl) (hclosed.trans hc)
        (hreg.trans hr)

/-- Before the pump is done only chunks are on the way. -/
theorem Phase.of_running (h : Phase s) (hpump : s.pump ≠ .done) :
    ∃ ds, s.down = chunkPacks ds ∧ OpenEnd s := by
  cases h with
  | streaming ds _ hd ho => exact ⟨ds, hd, ho⟩
  | closing _ _ _ hp _ _ => exact absurd hp hpump
  | flushing hp _ _ _ _ => exact absurd hp hpump
  | closed hp _ _ _ _ => exact absurd hp hpump

/-- On a closed pipe nothing is on the way. -/
theorem Phase.of_closed (h : Phase s) (hclosed : s.inbound.closed = true) :
    s.pump = .done ∧ s.down = [] ∧ s.loop = none ∧ s.registered = false := by
  cases h with
  | streaming _ _ _ ho => exact absurd hclosed (by simp [ho.open_])
  | closing _ _ _ _ _ ho => exact absurd hclosed (by simp [ho.open_])
  | flushing _ _ _ ho _ => exact absurd hclosed (by simp [ho])
  | closed hp hd hl _ hr => exact ⟨hp, hd, hl, hr⟩

/-- A pack on the way finds the stream registered and open. -/
theorem Phase.of_down (h : Phase s) {x : Down D} {rest : List (Down D)} (hdown : s.down = x :: rest) :
    OpenEnd s ∧
      ((∃ d ds, x = .put (.chunk d) ∧ rest = chunkPacks ds ∧ s.pump ≠ .done) ∨
        (∃ d ds y, x = .put (.chunk d) ∧ rest = chunkPacks ds ++ [y] ∧ s.pump = .done ∧
          ∀ d', y ≠ .put (.chunk d')) ∨
        (rest = [] ∧ s.pump = .done ∧ ∀ d, x ≠ .put (.chunk d))) := by
  cases h with
  | streaming ds hp hd ho =>
      cases ds with
      | nil =>
          rw [hdown] at hd
          cases hd
      | cons d ds =>
          rw [hdown] at hd
          cases hd
          exact ⟨ho, Or.inl ⟨d, ds, rfl, rfl, hp⟩⟩
  | closing ds y hy hp hd ho =>
      cases ds with
      | nil =>
          rw [hdown] at hd
          cases hd
          exact ⟨ho, Or.inr (Or.inr ⟨rfl, hp, hy⟩)⟩
      | cons d ds =>
          rw [hdown] at hd
          cases hd
          exact ⟨ho, Or.inr (Or.inl ⟨d, ds, y, rfl, rfl, hp, hy⟩)⟩
  | flushing _ hd _ _ _ =>
      rw [hdown] at hd
      cases hd
  | closed _ hd _ _ _ =>
      rw [hdown] at hd
      cases hd

/-! ## §2 Steps of the producer -/

theorem send_direct (hdirect : c.direct = true) (x : Down D) :
    s.send c x = { s with down := s.down ++ [x] } := by
  simp [StreamState.send, hdirect]

theorem Flow.produce (h : Flow s) {d : D} {rest : List D} (hopen : s.out.closed = false) :
    Flow { s with todo := rest, yielded := s.yielded ++ [d], out := s.out.push (.chunk d) } where
  outSound := h.outSound.push_chunk hopen d
  inSound := h.inSound
  produced hc := absurd (show s.out.closed = true from hc) (by simp [hopen])
  phase := h.phase.of_eq Iff.rfl rfl rfl rfl rfl
  conserved := by
    show s.yielded ++ [d] = s.received ++ s.inbound.chunks ++ s.inFlight ++ _
    rw [Pipe.chunks_push_chunk, h.conserved, List.append_assoc _ s.out.chunks]
  healthy := h.healthy
  routed := h.routed

/-- A change of `out` that keeps its chunks, such as its end. -/
theorem Flow.endOut (h : Flow s) {todo : List D} {out : Pipe D} (hsound : out.Sound)
    (htodo : out.closed = true → todo = []) (hchunks : out.chunks = s.out.chunks) :
    Flow { s with todo, out } where
  outSound := hsound
  inSound := h.inSound
  produced := htodo
  phase := h.phase.of_eq Iff.rfl rfl rfl rfl rfl
  conserved := by
    show s.yielded = s.received ++ s.inbound.chunks ++ s.inFlight ++ out.chunks
    rw [hchunks]
    exact h.conserved
  healthy := h.healthy
  routed := h.routed

/-- The flow does not depend on the sessions, the ACKs and the place of the pump before its end. -/
theorem Flow.of_eq (h : Flow s) (hout : s'.out = s.out) (hin : s'.inbound = s.inbound)
    (htodo : s'.todo = s.todo) (hyielded : s'.yielded = s.yielded)
    (hreceived : s'.received = s.received) (hpump : s'.pump = .done ↔ s.pump = .done)
    (hdown : s'.down = s.down) (hloop : s'.loop = s.loop) (hreg : s'.registered = s.registered)
    (hroute : s'.routeCached = s.routeCached) : Flow s' where
  outSound := hout ▸ h.outSound
  inSound := hin ▸ h.inSound
  produced := by rw [hout, htodo]; exact h.produced
  phase := h.phase.of_eq hpump hdown hloop (by rw [hin]) hreg
  conserved := by
    rw [StreamState.inFlight, hyielded, hreceived, hin, hloop, hdown, hout]
    exact h.conserved
  healthy := by rw [hin]; exact h.healthy
  routed := by rw [hreg, hroute]; exact h.routed

theorem Flow.beginBatch (h : Flow s) (hpump : s.pump ≠ .done) : Flow (s.beginBatch c) :=
  h.of_eq rfl rfl rfl rfl rfl ⟨(by cases ·), (absurd · hpump)⟩ rfl rfl rfl rfl

theorem Flow.sendChunk (h : Flow s) (hdirect : c.direct = true) {b f : Nat} {d : D} {rest : Pipe D}
    (hpump : s.pump ≠ .done) (hnext : Pipe.NextSpec s.out (.item d rest)) :
    Flow (s.sendChunk c b f d rest) := by
  obtain ⟨_, _, hchunks, _, _, hclosed, _, hsound⟩ := hnext
  obtain ⟨ds, hdown, hopen⟩ := h.phase.of_running hpump
  unfold StreamState.sendChunk
  rw [send_direct hdirect]
  refine
    { outSound := hsound
      inSound := h.inSound
      produced := fun hc => h.produced (hclosed ▸ hc)
      phase := .streaming (ds ++ [d]) ?_ ?_ ⟨hopen.open_, hopen.registered, hopen.loop⟩
      conserved := ?_
      healthy := h.healthy
      routed := h.routed }
  · dsimp only
    split <;> simp
  · show s.down ++ [.put (.chunk d)] = _
    rw [hdown]
    simp [chunkPacks]
  · rw [h.conserved, hchunks]
    simp [StreamState.inFlight, Down.items, chunksOf]

theorem Flow.finish (h : Flow s) (hdirect : c.direct = true) (hpump : s.pump ≠ .done) :
    Flow (s.finish c) := by
  obtain ⟨ds, hdown, hopen⟩ := h.phase.of_running hpump
  unfold StreamState.finish
  rw [send_direct hdirect]
  refine
    { outSound := h.outSound
      inSound := h.inSound
      produced := h.produced
      phase := .closing ds _ ?_ rfl (congrArg (· ++ _) hdown)
        ⟨hopen.open_, hopen.registered, hopen.loop⟩
      conserved := ?_
      healthy := h.healthy
      routed := h.routed }
  · intro d
    split <;> simp
  · rw [h.conserved]
    cases s.out.error <;> simp [StreamState.inFlight, Down.items, chunksOf]

/-! ## §3 Steps of the receive loop and the consumer -/

/-- A `put` of the pending element. The chunk, if it is one, was the first one on the way. -/
theorem Flow.settle_chunk (h : Flow s) {d : D} (hopen : OpenEnd s) {down : List (Down D)}
    (hflight : s.inFlight = d :: chunksOf (Down.items down))
    (hphase : Phase { s with down, loop := none }) :
    Flow (({ s with down } : StreamState D).settle (.chunk d)) where
  outSound := h.outSound
  inSound := h.inSound.push_chunk hopen.open_ d
  produced := h.produced
  phase := hphase.of_eq Iff.rfl rfl rfl rfl rfl
  conserved := by
    have hc := h.conserved
    rw [hflight] at hc
    simp only [StreamState.settle, StreamState.inFlight, Pipe.chunks_push_chunk, Option.toList,
      chunksOf, List.nil_append]
    rw [hc]
    simp
  healthy := h.healthy
  routed := h.routed

theorem Flow.settle_sentinel (h : Flow s) (hclosed : s.inbound.closed = false)
    (hroom : ¬ s.inbound.isFull) (hpump : s.pump = .done) (hflight : s.inFlight = []) :
    Flow (({ s with down := [] } : StreamState D).settle .sentinel) where
  outSound := h.outSound
  inSound := by
    have hsound := h.inSound.close hclosed
    rw [Pipe.putNowait, if_neg hroom] at hsound
    exact hsound
  produced := h.produced
  phase := .closed hpump rfl rfl rfl rfl
  conserved := by
    have hc := h.conserved
    rw [hflight] at hc
    simpa [StreamState.settle, StreamState.inFlight, Down.items, chunksOf] using hc
  healthy := by simp [StreamState.settle, Pipe.close]
  routed := by simp [StreamState.settle]

theorem inFlight_cons {x : Item D} {rest : List (Down D)} (hloop : s.loop = none)
    (hdown : s.down = .put x :: rest) :
    s.inFlight = chunksOf (x :: Down.items rest) := by
  simp [StreamState.inFlight, hloop, hdown, Down.items, chunksOf]

/-- The flow when the first pack was taken from the channel and waits for a place. -/
theorem Flow.suspend (h : Flow s) {x : Item D} {rest : List (Down D)} (hloop : s.loop = none)
    (hdown : s.down = .put x :: rest)
    (hphase : Phase { s with down := rest, loop := some x }) :
    Flow { s with down := rest, loop := some x } where
  outSound := h.outSound
  inSound := h.inSound
  produced := h.produced
  phase := hphase
  conserved := by
    have hc := h.conserved
    rw [inFlight_cons hloop hdown] at hc
    rw [hc]
    cases x <;> simp [StreamState.inFlight, chunksOf]
  healthy := h.healthy
  routed := h.routed

theorem Flow.deliver (h : Flow s) {x : Item D} {rest : List (Down D)} (hloop : s.loop = none)
    (hdown : s.down = .put x :: rest) :
    Flow (({ s with down := rest } : StreamState D).arrive x) := by
  obtain ⟨hopen, hrest⟩ := h.phase.of_down hdown
  have hfly := inFlight_cons hloop hdown
  have harrive : ({ s with down := rest } : StreamState D).arrive x =
      if s.inbound.isFull then { s with down := rest, loop := some x }
      else ({ s with down := rest } : StreamState D).settle x := by
    simp only [StreamState.arrive, hopen.registered, if_true]
  rw [harrive]
  have hopenAt : ∀ (down : List (Down D)) (y : Option (Item D)),
      (∀ x, y = some x → ∃ d, x = .chunk d) → OpenEnd { s with down, loop := y } :=
    fun _ _ hy => ⟨hopen.open_, hopen.registered, hy⟩
  have hchunk : ∀ (d : D) (x : Item D), some (Item.chunk d) = some x → ∃ d', x = .chunk d' := by
    intro d x hx
    cases hx
    exact ⟨d, rfl⟩
  rcases hrest with ⟨d, ds, hx, hrest, hp⟩ | ⟨d, ds, y, hx, hrest, hp, hy⟩ | ⟨hrest, hp, hx⟩
  · cases hx
    split
    · exact h.suspend hloop hdown (.streaming ds hp hrest (hopenAt _ _ (hchunk d)))
    · exact h.settle_chunk hopen hfly (.streaming ds hp hrest (hopenAt _ _ (by simp)))
  · cases hx
    split
    · exact h.suspend hloop hdown (.closing ds y hy hp hrest (hopenAt _ _ (hchunk d)))
    · exact h.settle_chunk hopen hfly (.closing ds y hy hp hrest (hopenAt _ _ (by simp)))
  · subst hrest
    have hsentinel : x = .sentinel := by
      cases x with
      | chunk d => exact absurd rfl (hx d)
      | sentinel => rfl
    subst hsentinel
    split
    · exact h.suspend hloop hdown (.flushing hp rfl rfl hopen.open_ hopen.registered)
    · rename_i hroom
      exact h.settle_sentinel hopen.open_ hroom hp hfly

theorem Flow.unblock (h : Flow s) {x : Item D} (hloop : s.loop = some x)
    (hroom : ¬ s.inbound.isFull) : Flow (s.settle x) := by
  have hopenAt : OpenEnd s → OpenEnd { s with loop := none } := fun ho =>
    ⟨ho.open_, ho.registered, by simp⟩
  have hfly : s.inFlight = chunksOf (x :: Down.items s.down) := by
    cases x <;> simp [StreamState.inFlight, hloop, chunksOf]
  cases hphase : h.phase with
  | streaming ds hp hd ho =>
      obtain ⟨d, rfl⟩ := ho.loop x hloop
      exact h.settle_chunk ho hfly (.streaming ds hp hd (hopenAt ho))
  | closing ds y hy hp hd ho =>
      obtain ⟨d, rfl⟩ := ho.loop x hloop
      exact h.settle_chunk ho hfly (.closing ds y hy hp hd (hopenAt ho))
  | flushing hp hd hl ho hr =>
      rw [hloop] at hl
      cases hl
      have hnone : s.inFlight = [] := by
        rw [hfly, hd]
        rfl
      have hflow := h.settle_sentinel ho hroom hp hnone
      have heq : ({ s with down := [] } : StreamState D) = s := by rw [← hd]
      rwa [heq] at hflow
  | closed _ _ hl _ _ =>
      rw [hloop] at hl
      cases hl

theorem Flow.deliverError (h : Flow s) {e : String} {rest : List (Down D)} (hloop : s.loop = none)
    (hdown : s.down = .error e :: rest) :
    Flow { s with down := rest, inbound := s.inbound.fail e, registered := false } := by
  obtain ⟨hopen, hrest⟩ := h.phase.of_down hdown
  rcases hrest with ⟨_, _, hx, _⟩ | ⟨_, _, _, hx, _⟩ | ⟨hrest, hp, _⟩
  · cases hx
  · cases hx
  · subst hrest
    refine
      { outSound := h.outSound
        inSound := h.inSound.fail hopen.open_ e
        produced := h.produced
        phase := .closed hp rfl hloop rfl rfl
        conserved := ?_
        healthy := by simp
        routed := by simp }
    have hc := h.conserved
    simp only [StreamState.inFlight, hdown, Down.items] at hc
    simpa only [StreamState.inFlight, Pipe.chunks_fail, Down.items] using hc

/-- One more chunk received. -/
theorem Flow.receive (h : Flow s) {d : D} {rest : Pipe D}
    (hnext : Pipe.NextSpec s.inbound (.item d rest)) :
    Flow { s with inbound := rest, received := s.received ++ [d] } := by
  obtain ⟨_, _, hchunks, _, _, hclosed, herror, hsound⟩ := hnext
  refine
    { outSound := h.outSound
      inSound := hsound
      produced := h.produced
      phase := h.phase.of_eq Iff.rfl rfl rfl hclosed rfl
      conserved := ?_
      healthy := fun hc => herror.trans (h.healthy (hclosed ▸ hc))
      routed := h.routed }
  rw [h.conserved, hchunks]
  simp [StreamState.inFlight]

/-- The end of the iteration, which empties the pipe. -/
theorem Flow.stop (h : Flow s) {consumer : Consumer} {rest : Pipe D} (hchunks : s.inbound.chunks = [])
    (hrest : rest.queue = []) (hclosed : s.inbound.closed = true) (hrestc : rest.closed = true) :
    Flow { s with inbound := rest, consumer } := by
  have hempty : rest.chunks = [] := by
    unfold Pipe.chunks
    rw [hrest]
    rfl
  refine
    { outSound := h.outSound
      inSound := ⟨Or.inl (by rw [hempty, hrest]; rfl)⟩
      produced := h.produced
      phase := h.phase.of_eq Iff.rfl rfl rfl (hrestc.trans hclosed.symm) rfl
      conserved := ?_
      healthy := fun hc => absurd hrestc (by simp [show rest.closed = false from hc])
      routed := h.routed }
  rw [h.conserved, hchunks]
  simp [StreamState.inFlight, hempty]

theorem Flow.sendAck (h : Flow s) (ack : Bool) : Flow (s.sendAck ack) := by
  unfold StreamState.sendAck
  split
  · exact h.of_eq rfl rfl rfl rfl rfl Iff.rfl rfl rfl rfl rfl
  · exact h

theorem ConsumerKind.next_spec (k : ConsumerKind) {p : Pipe D} (h : p.Sound) :
    Pipe.NextSpec p (k.next p) := by
  cases k with
  | pipe => exact h.anext
  | mesh => exact h.meshNext

/-- **Step lemma.** On a direct channel every step keeps the flow. -/
theorem Flow.step (h : Flow s) (hdirect : c.direct = true) {e : StreamEvent}
    (hmove : Moves c s e s') : Flow s' := by
  cases hmove with
  | produce d rest _ hopen _ => exact h.produce hopen
  | producerEnd htodo hopen =>
      exact h.endOut (h.outSound.close hopen) (fun _ => htodo) (by simp)
  | producerFail e hopen => exact h.endOut (h.outSound.fail hopen e) (fun _ => rfl) (by simp)
  | pumpStart hpump => exact h.beginBatch (by simp [hpump])
  | pumpSend b f d rest hpump hnext =>
      exact h.sendChunk hdirect (by simp [hpump]) (hnext ▸ h.outSound.anext)
  | pumpEnd b f rest hpump hnext =>
      have hrest : rest.queue = [] ∧ s.out.chunks = [] ∧ s.out.closed = true := by
        have hspec := h.outSound.anext
        rcases hnext with hnext | ⟨e, hnext⟩
        · rw [hnext] at hspec
          cases hspec with
          | stop _ hchunks hrest _ hclosed => exact ⟨hrest, hchunks, hclosed⟩
        · rw [hnext] at hspec
          cases hspec with
          | raised _ _ hchunks hrest _ hclosed => exact ⟨hrest, hchunks, hclosed⟩
      have hempty : rest.chunks = [] := by
        unfold Pipe.chunks
        rw [hrest.1]
        rfl
      have hflow : Flow ({ s with out := rest } : StreamState D) :=
        h.endOut ⟨Or.inl (by rw [hempty, hrest.1]; rfl)⟩ (fun _ => h.produced hrest.2.2)
          (hempty.trans hrest.2.1.symm)
      exact hflow.finish hdirect (by simp [hpump])
  | pumpResume b f r hpump _ => exact h.beginBatch (by simp [hpump])
  | pumpTimeout b f hpump => exact h.finish hdirect (by simp [hpump])
  | deliver x rest hloop hdown => exact h.deliver hloop hdown
  | deliverError e rest hloop hdown _ => exact h.deliverError hloop hdown
  | dropError e rest _ hdown hreg =>
      have hopen := (h.phase.of_down hdown).1
      exact absurd hopen.registered (by simp [hreg])
  | unblock x hloop hroom => exact h.unblock hloop hroom
  | ackDeliver n hup => exact h.of_eq rfl rfl rfl rfl rfl Iff.rfl rfl rfl rfl rfl
  | start ack _ =>
      have hrunning : Flow ({ s with consumer := .running } : StreamState D) :=
        h.of_eq rfl rfl rfl rfl rfl Iff.rfl rfl rfl rfl rfl
      exact hrunning.sendAck ack
  | consume ack d rest _ hnext =>
      exact Flow.sendAck (h.receive (hnext ▸ c.kind.next_spec h.inSound)) ack
  | consumeStop ack rest _ hnext =>
      have hspec := c.kind.next_spec h.inSound
      rw [hnext] at hspec
      cases hspec with
      | stop _ hchunks hrest _ hclosed hrestc => exact h.stop hchunks hrest hclosed hrestc
  | consumeRaise ack e rest _ hnext =>
      have hspec := c.kind.next_spec h.inSound
      rw [hnext] at hspec
      cases hspec with
      | raised _ _ hchunks hrest _ hclosed hrestc => exact h.stop hchunks hrest hclosed hrestc
  | quit => exact h.of_eq rfl rfl rfl rfl rfl Iff.rfl rfl rfl rfl rfl

/-! ## §4 The batch and its ACK session -/

/-- The number of chunks in a batch. A bound of zero or less still lets one chunk through. -/
def StreamState.window (s : StreamState D) : Nat := max 1 s.out.buffLen.toNat

theorem window_le_iff {b : Nat} : s.window ≤ b + 1 ↔ s.out.buffLen ≤ (b : Int) + 1 := by
  unfold StreamState.window
  omega

/-- The future of the current batch waits under the ACK label, or has been answered. -/
def BatchOpen (c : StreamConfig) (s : StreamState D) (f : Nat) : Prop :=
  s.sessions.Pending c.ackLabel f ∨ s.sessions.Answered c.ackLabel f

/-- The local variables of the pump. -/
def AckOk (c : StreamConfig) (s : StreamState D) : Prop :=
  match s.pump with
  | .start => True
  | .next b f => b < s.window ∧ BatchOpen c s f
  | .waitAck b f => b = s.window ∧ BatchOpen c s f
  | .done => True

theorem AckOk.of_eq (h : AckOk c s) (hpump : s'.pump = s.pump)
    (hwindow : s'.out.buffLen = s.out.buffLen) (hsessions : s'.sessions = s.sessions) :
    AckOk c s' := by
  unfold AckOk BatchOpen StreamState.window at h ⊢
  rw [hpump, hwindow, hsessions]
  exact h

theorem AckOk.beginBatch : AckOk c (s.beginBatch c) := by
  refine ⟨?_, Or.inl (SessionTable.pending_registerSingle s.sessions c.ackLabel "" "")⟩
  unfold StreamState.window
  omega

theorem AckOk.finish : AckOk c (s.finish c) := by
  unfold StreamState.finish StreamState.send
  split <;> trivial

theorem sendChunk_out (b f : Nat) (d : D) (rest : Pipe D) : (s.sendChunk c b f d rest).out = rest := by
  unfold StreamState.sendChunk StreamState.send
  split <;> rfl

theorem sendChunk_sessions (b f : Nat) (d : D) (rest : Pipe D) :
    (s.sendChunk c b f d rest).sessions = s.sessions := by
  unfold StreamState.sendChunk StreamState.send
  split <;> rfl

/-- The pump after a chunk, by the place of the chunk in its batch. -/
theorem sendChunk_pump (b f : Nat) (d : D) (rest : Pipe D) :
    (s.sendChunk c b f d rest).pump =
      if s.window ≤ b + 1 then .waitAck (b + 1) f else .next (b + 1) f := by
  unfold StreamState.sendChunk
  simp only [window_le_iff]

theorem AckOk.sendChunk (h : AckOk c s) {b f : Nat} {d : D} {rest : Pipe D}
    (hpump : s.pump = .next b f) (hbuff : rest.buffLen = s.out.buffLen) :
    AckOk c (s.sendChunk c b f d rest) := by
  simp only [AckOk, hpump] at h
  have hwindow : (s.sendChunk c b f d rest).window = s.window := by
    simp only [StreamState.window, sendChunk_out, hbuff]
  unfold AckOk BatchOpen
  rw [sendChunk_pump, hwindow, sendChunk_sessions]
  by_cases hfull : s.window ≤ b + 1
  · rw [if_pos hfull]
    exact ⟨by omega, h.2⟩
  · rw [if_neg hfull]
    exact ⟨by omega, h.2⟩

theorem BatchOpen.resolve {f : Nat} (h : BatchOpen c s f) (n : Nat) :
    BatchOpen c
      ({ s with up := n, sessions := s.sessions.resolve c.ackLabel .ack } : StreamState D) f := by
  rcases h with hp | ha
  · exact Or.inr (hp.resolve .ack)
  · refine Or.inr ?_
    rw [SessionTable.resolve_of_free ha.1]
    exact ha

theorem AckOk.ackDeliver (h : AckOk c s) (n : Nat) :
    AckOk c
      ({ s with up := n, sessions := s.sessions.resolve c.ackLabel .ack } : StreamState D) := by
  unfold AckOk at h ⊢
  cases hpump : s.pump with
  | start => trivial
  | next b f =>
      simp only [hpump] at h ⊢
      exact ⟨h.1, h.2.resolve n⟩
  | waitAck b f =>
      simp only [hpump] at h ⊢
      exact ⟨h.1, h.2.resolve n⟩
  | done => trivial

theorem AckOk.sendAck (h : AckOk c s) (ack : Bool) : AckOk c (s.sendAck ack) := by
  unfold StreamState.sendAck
  split
  · exact h.of_eq rfl rfl rfl
  · exact h

theorem anext_item_buffLen {p rest : Pipe D} (hp : p.Sound) {d : D} (h : p.anext = .item d rest) :
    rest.buffLen = p.buffLen := by
  have hspec := hp.anext
  rw [h] at hspec
  cases hspec with
  | item _ _ _ _ hbuff => exact hbuff

/-- **Step lemma** for the ACK session. -/
theorem AckOk.step (h : AckOk c s) (hflow : Flow s) {e : StreamEvent} (hmove : Moves c s e s') :
    AckOk c s' := by
  cases hmove with
  | produce => exact h.of_eq rfl rfl rfl
  | producerEnd => exact h.of_eq rfl (s.out.putNowait_buffLen .sentinel) rfl
  | producerFail e => exact h.of_eq rfl (s.out.fail_buffLen e) rfl
  | pumpStart => exact AckOk.beginBatch
  | pumpSend b f d rest hpump hnext =>
      exact h.sendChunk hpump (anext_item_buffLen hflow.outSound hnext)
  | pumpEnd => exact AckOk.finish
  | pumpResume => exact AckOk.beginBatch
  | pumpTimeout => exact AckOk.finish
  | deliver x rest =>
      unfold StreamState.arrive
      split
      · split
        · exact h.of_eq rfl rfl rfl
        · cases x <;> exact h.of_eq rfl rfl rfl
      · cases x <;> exact h.of_eq rfl rfl rfl
  | deliverError => exact h.of_eq rfl rfl rfl
  | dropError => exact h.of_eq rfl rfl rfl
  | unblock x => cases x <;> exact h.of_eq rfl rfl rfl
  | ackDeliver n => exact h.ackDeliver n
  | start ack => exact AckOk.sendAck (s := { s with consumer := .running }) (h.of_eq rfl rfl rfl) ack
  | consume ack d rest =>
      exact AckOk.sendAck (s := { s with inbound := rest, received := s.received ++ [d] })
        (h.of_eq rfl rfl rfl) ack
  | consumeStop => exact h.of_eq rfl rfl rfl
  | consumeRaise => exact h.of_eq rfl rfl rfl
  | quit => exact h.of_eq rfl rfl rfl

/-! ## §5 Without a channel -/

/-- Without a channel nothing arrives, and the iteration does not end. -/
structure Silent (s : StreamState D) : Prop where
  down : s.down = []
  loop : s.loop = none
  queue : s.inbound.queue = []
  open_ : s.inbound.closed = false
  waiting : s.consumer ≠ .ended

theorem Silent.next (h : Silent s) (k : ConsumerKind) : k.next s.inbound = .blocked := by
  cases k with
  | pipe => simp [ConsumerKind.next, Pipe.anext, h.open_, h.queue]
  | mesh => simp [ConsumerKind.next, Pipe.meshNext, h.queue]

theorem Silent.of_eq (h : Silent s) (hdown : s'.down = s.down) (hloop : s'.loop = s.loop)
    (hin : s'.inbound = s.inbound) (hconsumer : s'.consumer = .ended → s.consumer = .ended) :
    Silent s' :=
  ⟨hdown.trans h.down, hloop.trans h.loop, by rw [hin]; exact h.queue, by rw [hin]; exact h.open_,
    fun hend => h.waiting (hconsumer hend)⟩

theorem Silent.step (h : Silent s) (hdirect : c.direct = false) {e : StreamEvent}
    (hmove : Moves c s e s') : Silent s' := by
  have hsend : ∀ (t : StreamState D) (x : Down D), t.send c x = t := by
    intro t x
    simp [StreamState.send, hdirect]
  cases hmove with
  | pumpSend b f d rest =>
      unfold StreamState.sendChunk
      rw [hsend]
      exact h.of_eq rfl rfl rfl id
  | pumpEnd =>
      unfold StreamState.finish
      rw [hsend]
      exact h.of_eq rfl rfl rfl id
  | pumpTimeout =>
      unfold StreamState.finish
      rw [hsend]
      exact h.of_eq rfl rfl rfl id
  | deliver x rest _ hdown =>
      rw [h.down] at hdown
      cases hdown
  | deliverError e rest _ hdown =>
      rw [h.down] at hdown
      cases hdown
  | dropError e rest _ hdown =>
      rw [h.down] at hdown
      cases hdown
  | unblock x hloop =>
      rw [h.loop] at hloop
      cases hloop
  | start ack =>
      unfold StreamState.sendAck
      split <;> exact h.of_eq rfl rfl rfl (by simp)
  | consume ack d rest _ hnext =>
      rw [h.next] at hnext
      cases hnext
  | consumeStop ack rest _ hnext =>
      rw [h.next] at hnext
      cases hnext
  | consumeRaise ack e rest _ hnext =>
      rw [h.next] at hnext
      cases hnext
  | quit => exact h.of_eq rfl rfl rfl (by simp)
  | produce => exact h.of_eq rfl rfl rfl id
  | producerEnd => exact h.of_eq rfl rfl rfl id
  | producerFail => exact h.of_eq rfl rfl rfl id
  | pumpStart => exact h.of_eq rfl rfl rfl id
  | pumpResume => exact h.of_eq rfl rfl rfl id
  | ackDeliver => exact h.of_eq rfl rfl rfl id

theorem silent_init (todo : List D) (buffOut buffIn : Int) (sessions : SessionTable (Reply D)) :
    Silent (StreamState.init todo buffOut buffIn sessions) :=
  ⟨rfl, rfl, rfl, rfl, by simp [StreamState.init]⟩

end NetPulse.Mesh
