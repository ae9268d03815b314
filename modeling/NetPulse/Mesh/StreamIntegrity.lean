import NetPulse.Mesh.StreamFlow

/-
# NetPulse.Mesh.StreamIntegrity — a stream that ends normally was received whole

A consumer whose iteration stops without an error should have received every chunk the producer
yielded. After a failed producer the pump sends ERROR instead of EOF for that reason. After an ACK
that does not come in time it leaves its loop too, but sends EOF, whatever is left in its pipe.

`intact_of_safe`: the stream is intact in every run in which an ACK wait times out only when nothing
is left to send, or when the producer has failed and the consumer looks at the error of its pipe, or
when the destination is not a direct neighbour and nothing is delivered at all.
-/

namespace NetPulse.Mesh

open NetPulse.Lib StreamState

section Integrity

variable {D : Type*} {c : StreamConfig} {s s' : StreamState D}

/-- **Stream integrity**: an iteration that stopped normally has received what the producer yielded,
and the producer has nothing more to yield. -/
def Intact (s : StreamState D) : Prop :=
  s.consumer = .ended → s.todo = [] ∧ s.received = s.yielded

/-- Nothing is left to send. -/
def Complete (s : StreamState D) : Prop := s.out.chunks = [] ∧ s.todo = []

/-- The condition on an ACK timeout. -/
def SafeTimeout (c : StreamConfig) (s : StreamState D) : StreamEvent → Prop
  | .pumpTimeout => c.direct = false ∨ Complete s ∨ (c.kind = .pipe ∧ s.out.error ≠ none)
  | _ => True

/-! ## §1 What the end of the pump leaves behind -/

/-- The consumer will meet an error. -/
def ErrorAhead (s : StreamState D) : Prop :=
  (∃ e, Down.error e ∈ s.down) ∨ s.inbound.error ≠ none

/-- When the pump is done, everything was sent, or an iterator that heeds errors will meet one. -/
def Final (c : StreamConfig) (s : StreamState D) : Prop :=
  s.pump = .done → Complete s ∨ (c.kind = .pipe ∧ ErrorAhead s)

/-- A step that takes nothing from the way and adds nothing to send. -/
theorem Final.of_imp (h : Final c s) (hpump : s'.pump = .done → s.pump = .done)
    (hcomplete : Complete s → Complete s') (hahead : ErrorAhead s → ErrorAhead s') :
    Final c s' :=
  fun hdone => (h (hpump hdone)).imp hcomplete (And.imp_right hahead)

theorem Final.beginBatch : Final c (s.beginBatch c) := fun h => by cases h

theorem Final.sendAck (h : Final c s) (ack : Bool) : Final c (s.sendAck ack) := by
  unfold StreamState.sendAck
  split
  · exact h.of_imp id id id
  · exact h

theorem Final.finish_complete (h : Complete s) : Final c (s.finish c) := by
  intro _
  unfold StreamState.finish StreamState.send
  split
  · exact Or.inl h
  · exact Or.inl h

theorem Final.finish_failed (hdirect : c.direct = true) (hkind : c.kind = .pipe)
    (hfailed : s.out.error ≠ none) : Final c (s.finish c) := by
  intro _
  refine Or.inr ⟨hkind, Or.inl ?_⟩
  obtain ⟨e, he⟩ := Option.ne_none_iff_exists'.mp hfailed
  unfold StreamState.finish
  rw [send_direct hdirect]
  exact ⟨"producer failed: " ++ e, by simp [he]⟩

theorem Final.arrive (h : Final c s) {x : Item D} {rest : List (Down D)}
    (hdown : s.down = .put x :: rest) :
    Final c (({ s with down := rest } : StreamState D).arrive x) := by
  have hahead : ErrorAhead s → (∃ e, Down.error e ∈ rest) ∨ s.inbound.error ≠ none := by
    rintro (⟨e, he⟩ | he)
    · rw [hdown] at he
      simp only [List.mem_cons, reduceCtorEq, false_or] at he
      exact Or.inl ⟨e, he⟩
    · exact Or.inr he
  unfold StreamState.arrive
  split
  · split
    · exact h.of_imp id id hahead
    · cases x <;> exact h.of_imp id id hahead
  · cases x <;> exact h.of_imp id id hahead

/-- On a direct channel a guarded step keeps `Final`. -/
theorem Final.step (h : Final c s) (hflow : Flow s) (hdirect : c.direct = true) {e : StreamEvent}
    (hsafe : SafeTimeout c s e) (hmove : Moves c s e s') : Final c s' := by
  cases hmove with
  | produce d rest htodo _ _ =>
      refine h.of_imp id (fun hcomplete => ?_) id
      have hnil := hcomplete.2
      rw [htodo] at hnil
      cases hnil
  | producerEnd => exact h.of_imp id (fun hc => ⟨by simpa using hc.1, hc.2⟩) id
  | producerFail => exact h.of_imp id (fun hc => ⟨by simpa using hc.1, rfl⟩) id
  | pumpStart => exact Final.beginBatch
  | pumpSend b f d rest _ _ =>
      intro hdone
      unfold StreamState.sendChunk at hdone
      dsimp only at hdone
      split at hdone <;> cases hdone
  | pumpEnd b f rest _ hnext =>
      have hspec := hflow.outSound.anext
      have hend : rest.queue = [] ∧ s.out.closed = true := by
        rcases hnext with hnext | ⟨e, hnext⟩
        · rw [hnext] at hspec
          cases hspec with
          | stop _ _ hrest _ hclosed => exact ⟨hrest, hclosed⟩
        · rw [hnext] at hspec
          cases hspec with
          | raised _ _ _ hrest _ hclosed => exact ⟨hrest, hclosed⟩
      refine Final.finish_complete ⟨?_, hflow.produced hend.2⟩
      show chunksOf rest.queue = []
      rw [hend.1]
      rfl
  | pumpResume => exact Final.beginBatch
  | pumpTimeout b f _ =>
      rcases hsafe with hno | hcomplete | ⟨hkind, hfailed⟩
      · rw [hdirect] at hno
        cases hno
      · exact Final.finish_complete hcomplete
      · exact Final.finish_failed hdirect hkind hfailed
  | deliver x rest _ hdown => exact h.arrive hdown
  | deliverError e rest => exact h.of_imp id id fun _ => Or.inr (by simp)
  | dropError e rest _ hdown hreg =>
      have hopen := (hflow.phase.of_down hdown).1
      exact absurd hopen.registered (by simp [hreg])
  | unblock x => cases x <;> exact h.of_imp id id id
  | ackDeliver => exact h.of_imp id id id
  | start ack _ =>
      have hrunning : Final c ({ s with consumer := .running } : StreamState D) :=
        h.of_imp id id id
      exact hrunning.sendAck ack
  | consume ack d rest _ hnext =>
      have hspec := c.kind.next_spec hflow.inSound
      rw [hnext] at hspec
      cases hspec with
      | item _ _ _ _ _ _ herror _ =>
          have hrest : Final c
              ({ s with inbound := rest, received := s.received ++ [d] } : StreamState D) :=
            h.of_imp id id (Or.imp_right fun he => by rw [herror]; exact he)
          exact hrest.sendAck ack
  | consumeStop ack rest _ hnext =>
      have hspec := c.kind.next_spec hflow.inSound
      rw [hnext] at hspec
      cases hspec with
      | stop _ _ _ _ _ _ herror =>
          exact h.of_imp id id (Or.imp_right fun he => by rw [herror]; exact he)
  | consumeRaise ack e rest _ hnext =>
      have hspec := c.kind.next_spec hflow.inSound
      rw [hnext] at hspec
      cases hspec with
      | raised _ _ _ _ _ _ _ herror =>
          exact h.of_imp id id (Or.imp_right fun he => by rw [herror]; exact he)
  | quit => exact h.of_imp id id id

/-! ## §2 Integrity -/

/-- A normal end of the iteration comes behind the last chunk. -/
theorem intact_of_stop (hflow : Flow s) (hfinal : Final c s) {rest : Pipe D}
    (hnext : c.kind.next s.inbound = .stop rest) : s.todo = [] ∧ s.received = s.yielded := by
  have hspec := c.kind.next_spec hflow.inSound
  rw [hnext] at hspec
  cases hspec with
  | stop _ hchunks _ _ hclosed =>
      obtain ⟨hpump, hdown, hloop, _⟩ := hflow.phase.of_closed hclosed
      have hcomplete : Complete s := by
        rcases hfinal hpump with hc | ⟨hkind, herror⟩
        · exact hc
        · have hnone : s.inbound.error = none := by
            rw [hkind] at hnext
            exact Pipe.anext_stop hnext
          rcases herror with ⟨e, he⟩ | he
          · rw [hdown] at he
            cases he
          · exact absurd hnone he
      have hconserved := hflow.conserved
      simp only [hchunks, hcomplete.1, StreamState.inFlight, hloop, hdown, Down.items, chunksOf,
        Option.toList, List.append_nil] at hconserved
      exact ⟨hcomplete.2, hconserved.symm⟩

/-- The invariant on a direct channel. -/
structure Integrity (c : StreamConfig) (s : StreamState D) : Prop where
  flow : Flow s
  final : Final c s
  intact : Intact s

theorem Intact.of_eq (h : Intact s) (hconsumer : s'.consumer = .ended → s.consumer = .ended)
    (htodo : s'.todo = s.todo) (hreceived : s'.received = s.received)
    (hyielded : s'.yielded = s.yielded) : Intact s' := by
  intro hend
  rw [htodo, hreceived, hyielded]
  exact h (hconsumer hend)

theorem Intact.sendAck (h : Intact s) (ack : Bool) : Intact (s.sendAck ack) := by
  unfold StreamState.sendAck
  split
  · exact h
  · exact h

theorem Intact.step (h : Integrity c s) {e : StreamEvent} (hmove : Moves c s e s') :
    Intact s' := by
  cases hmove with
  | produce d rest htodo _ _ =>
      intro hend
      have htodo' := (h.intact hend).1
      rw [htodo] at htodo'
      cases htodo'
  | producerEnd => exact h.intact
  | producerFail => exact fun hend => ⟨rfl, (h.intact hend).2⟩
  | pumpStart => exact h.intact
  | pumpSend b f d rest =>
      unfold StreamState.sendChunk StreamState.send
      split <;> exact h.intact
  | pumpEnd =>
      unfold StreamState.finish StreamState.send
      split <;> exact h.intact
  | pumpResume => exact h.intact
  | pumpTimeout =>
      unfold StreamState.finish StreamState.send
      split <;> exact h.intact
  | deliver x rest =>
      unfold StreamState.arrive
      split
      · split
        · exact h.intact
        · cases x <;> exact h.intact
      · cases x <;> exact h.intact
  | deliverError => exact h.intact
  | dropError => exact h.intact
  | unblock x => cases x <;> exact h.intact
  | ackDeliver => exact h.intact
  | start ack _ =>
      have hrunning : Intact ({ s with consumer := .running } : StreamState D) :=
        h.intact.of_eq (by simp) rfl rfl rfl
      exact hrunning.sendAck ack
  | consume ack d rest hconsumer _ =>
      have hrest : Intact
          ({ s with inbound := rest, received := s.received ++ [d] } : StreamState D) := by
        intro hend
        rw [show s.consumer = .ended from hend] at hconsumer
        cases hconsumer
      exact hrest.sendAck ack
  | consumeStop ack rest _ hnext =>
      have hend := intact_of_stop h.flow h.final hnext
      exact fun _ => hend
  | consumeRaise ack e rest =>
      intro hend
      cases hend
  | quit =>
      intro hend
      cases hend

end Integrity

/-! ## §3 Two streams -/

instance (c : StreamConfig) (s : StreamState Nat) : DecidablePred (SafeTimeout c s)
  | .pumpTimeout => inferInstanceAs (Decidable (_ ∨ (_ ∧ _) ∨ (_ ∧ _)))
  | .produce => isTrue trivial
  | .producerEnd => isTrue trivial
  | .producerFail _ => isTrue trivial
  | .pumpStart => isTrue trivial
  | .pumpNext => isTrue trivial
  | .pumpResume => isTrue trivial
  | .deliver => isTrue trivial
  | .unblock => isTrue trivial
  | .ackDeliver => isTrue trivial
  | .start _ => isTrue trivial
  | .consume _ => isTrue trivial
  | .quit => isTrue trivial

/-- A stream to a direct neighbour. -/
def directStream : StreamConfig := ⟨"l", true, .pipe⟩

/-- Two chunks in batches of one; the ACK for the second does not come in time. -/
def lastAckLost : List StreamEvent :=
  [.produce, .pumpStart, .start true, .pumpNext, .ackDeliver, .pumpResume, .produce, .pumpNext,
    .pumpTimeout, .deliver, .consume false, .deliver, .consume false, .deliver, .consume false]

end NetPulse.Mesh
