import NetPulse.Lib.Machine
import NetPulse.Mesh.Sending

/-
# NetPulse.Mesh.Forwarding — how often a pack is sent from router to router

A network is a set of routers whose sockets lead to one another. One pack travels through it: its
origin sends it, and each router that it reaches handles it and may send it on. Between two hops
anything may happen to the routers, so their tables, caches and sockets are arbitrary at every hop.

Of the handlers that send a pack on, only `_on_forwarded` looks at the `ttl` and at the path. The
others count the hop, some twice and one of them not at all, and ask nothing: a STREAM_OPEN or a
REQUEST goes on with a `ttl` below zero, and two tables that point at each other pass it back and
forth for ever (`streamOpen_relayed_forever`). `hops_bounded` says that the `ttl` bounds the hops
when these handlers are reached with hops left.
-/

namespace NetPulse.Mesh

open NetPulse.Lib Router

section Forwarding

variable [Canon] {N Data : Type*}

/-! ## §1 One pack in a network -/

/-- Where the pack is. -/
inductive Flight (N Data : Type*) where
  /-- made at a node, not sent yet -/
  | origin (n : N) (p : MsgPack Data)
  /-- received by a node on a socket -/
  | arrived (n : N) (ws : Sock) (p : MsgPack Data)
  /-- handled at its destination, dropped, or answered -/
  | ended

structure NetState (N Data : Type*) where
  routers : N → Router Data
  flight : Flight N Data
  /-- the transmissions from router to router so far -/
  hops : Nat

inductive NetEvent (N Data : Type*) where
  /-- the node that has the pack sends or handles it -/
  | move (now : Time)
  /-- anything else that changes the routers -/
  | env (routers : N → Router Data)

/-- How the origin sends: a REQUEST of `call` and a STREAM_OPEN through `_forward`, the packs of a
stream through `_send_pack`. -/
def launch (r : Router Data) (p : MsgPack Data) : Router Data × Option (Sock × MsgPack Data) :=
  match p.type with
  | .request | .streamOpen =>
      match r.forward p with
      | some (r', ws, p') => (r', some (ws, p'))
      | none => (r, none)
  | _ => r.sendPack p

variable [DecidableEq N]

/-- The state after node `n` did `sent`: the pack is at the other end of the socket. -/
def NetState.sent (s : NetState N Data) (peer : N → Sock → N × Sock) (n : N)
    (sent : Router Data × Option (Sock × MsgPack Data)) : NetState N Data :=
  let routers := Function.update s.routers n sent.1
  match sent.2 with
  | some (ws, p) =>
      { routers, flight := .arrived (peer n ws).1 (peer n ws).2 p, hops := s.hops + 1 }
  | none => { routers, flight := .ended, hops := s.hops }

/-- The routers of a network, whose sockets lead where `peer` says. -/
def network (peer : N → Sock → N × Sock) : Machine (NetState N Data) (NetEvent N Data) where
  step s e :=
    match e, s.flight with
    | .env routers, _ => some { s with routers }
    | .move _, .origin n p => some (s.sent peer n (launch (s.routers n) p))
    | .move now, .arrived n ws p =>
        let h := (s.routers n).handle now p ws
        some (s.sent peer n (h.router, h.relayed))
    | .move _, .ended => none

/-- The kinds of packs that routers relay towards a destination. -/
def PackType.relayable : PackType → Bool
  | .request => true
  | .forwarded => true
  | .streamOpen => true
  | .streamChunk => true
  | .streamEof => true
  | .streamAck => true
  | _ => false

/-- A pack at its origin, or a request that reaches its first router from a client. -/
def Injected (ttl : Int) (s : NetState N Data) : Prop :=
  s.hops = 0 ∧
    match s.flight with
    | .origin _ p => p.ttl = ttl ∧ p.type.relayable = true ∧ p.type ≠ .forwarded
    | .arrived _ _ p =>
        p.ttl = ttl ∧ (p.type = .request ∨ p.type = .forwarded ∨ p.type = .streamOpen)
    | .ended => False

/-! ## §2 The condition on a hop -/

/-- What an origin needs. -/
def OriginBudget (r : Router Data) (p : MsgPack Data) : Prop :=
  match p.type with
  | .streamAck => 0 < p.ttl ∧ ((r.stripSelf p.path).length : Int) ≤ p.ttl
  | _ => 0 < p.ttl

/-- What a router needs to send a pack on: hops left, for a REQUEST and a STREAM_OPEN; hops left and
no cached route, for the data of a stream, which its origin sent uncounted; and for an ACK its own id
at the end of the path. -/
def RelayBudget (r : Router Data) (now : Time) (p : MsgPack Data) : Prop :=
  match p.type with
  | .request => 0 < p.ttl
  | .streamOpen => 0 < p.ttl
  | .streamChunk | .streamEof =>
      1 < p.ttl ∧
        ((r.getStreamRoute now p.label).1.cachedHop (r.getStreamRoute now p.label).2).isNone
  | .streamAck => p.path.getLast?.any r.isNode = true
  | _ => True

/-- **The condition**: whoever sends the pack meets the budget. -/
def InBudget (s : NetState N Data) : NetEvent N Data → Prop
  | .env _ => True
  | .move now =>
      match s.flight with
      | .origin n p => OriginBudget (s.routers n) p
      | .arrived n _ p =>
          let r := (s.routers n).touchSource now p
          r.isRemote p = true → RelayBudget r now p
      | .ended => True

/-! ## §3 What a hop costs -/

/-- The hops that a pack on its way has left. -/
def MsgPack.due (p : MsgPack Data) : Int :=
  match p.type with
  | .streamChunk | .streamEof => max (p.ttl - 1) 0
  | .streamAck => max (p.path.length - 1) 0
  | _ => max p.ttl 0

/-- The kinds whose `due` is the `ttl` itself. -/
def PackType.signals : PackType → Bool
  | .request => true
  | .forwarded => true
  | .streamOpen => true
  | _ => false

omit [Canon] in
theorem due_of_signals {p : MsgPack Data} (h : p.type.signals = true) : p.due = max p.ttl 0 := by
  unfold MsgPack.due
  cases htype : p.type <;> simp_all [PackType.signals]

omit [Canon] in
theorem due_nonneg (p : MsgPack Data) : 0 ≤ p.due := by
  unfold MsgPack.due
  split <;> exact Int.le_max_right _ _

omit [Canon] in
/-- A signalling pack stays one, and its `ttl` is what is left of it. -/
theorem ForwardOf.signals {p p' : MsgPack Data} (h : ForwardOf p p')
    (hp : p.type.signals = true) : p'.type.signals = true ∧ p'.due = max (p.ttl - 1) 0 := by
  have hp' : p'.type.signals = true := by
    rcases h.2 with heq | ⟨_, heq⟩
    · rw [heq]
      exact hp
    · rw [heq]
      rfl
  exact ⟨hp', by rw [due_of_signals hp', h.1]⟩

omit [Canon] in
theorem relayable_of_signals {t : PackType} (h : t.signals = true) : t.relayable = true := by
  cases t <;> first | rfl | cases h

/-- `p'` is a pack on its way, with fewer hops left than `p`. -/
def Closer (p p' : MsgPack Data) : Prop := p'.type.relayable = true ∧ p'.due + 1 ≤ p.due

omit [Canon] in
/-- A signalling pack that had hops left when it was sent on. -/
theorem closer_of_signals {p p' : MsgPack Data} (hp : p.type.signals = true)
    (hp' : p'.type.signals = true) (httl : p'.ttl < p.ttl) (hpos : 0 < p.ttl) : Closer p p' := by
  refine ⟨relayable_of_signals hp', ?_⟩
  rw [due_of_signals hp, due_of_signals hp']
  omega

theorem onForwarded_closer {r : Router Data} {p p' : MsgPack Data} {ws : Sock}
    (htype : p.type = .forwarded) (h : (r.onForwarded p).relayed = some (ws, p')) :
    Closer p p' := by
  unfold Router.onForwarded at h
  split at h
  · cases h
  · rename_i httl
    split at h
    · cases h
    · dsimp only at h
      split at h
      · cases h
      · have hspec := relay_spec h
        have hsig : p.type.signals = true := by rw [htype]; rfl
        refine closer_of_signals hsig (hspec.signals hsig).1 ?_ (by omega)
        have hstep : p'.ttl = p.ttl - 1 := hspec.1
        omega

theorem onRemoteRequest_closer {r : Router Data} {now : Time} {p p' : MsgPack Data}
    {ws ws' : Sock} (htype : p.type = .request) (hpos : 0 < p.ttl)
    (h : (r.onRemoteRequest now p ws).relayed = some (ws', p')) : Closer p p' := by
  unfold Router.onRemoteRequest at h
  dsimp only at h
  split at h
  · rename_i hf
    cases h
    have hspec := forward_spec hf
    have hsig : p.type.signals = true := by rw [htype]; rfl
    refine closer_of_signals hsig (hspec.signals hsig).1 ?_ hpos
    have hstep : p'.ttl = p.ttl - 1 - 1 := hspec.1
    omega
  · cases h

theorem forwardStreamOpen_closer {r : Router Data} {now : Time} {p p' : MsgPack Data} {ws : Sock}
    (htype : p.type = .streamOpen) (hpos : 0 < p.ttl)
    (h : (r.forwardStreamOpen now p).relayed = some (ws, p')) : Closer p p' := by
  have hrelay : ∃ u : Router Data,
      (u.relay { p with path := p.path ++ [r.NODE], ttl := p.ttl - 1 }).relayed = some (ws, p') := by
    unfold Router.forwardStreamOpen at h
    dsimp only at h
    split at h
    · exact ⟨_, h⟩
    · split at h
      · exact ⟨_, h⟩
      · exact ⟨_, h⟩
  obtain ⟨u, hu⟩ := hrelay
  have hspec := relay_spec hu
  have hsig : p.type.signals = true := by rw [htype]; rfl
  refine closer_of_signals hsig (hspec.signals hsig).1 ?_ hpos
  have hstep : p'.ttl = p.ttl - 1 - 1 := hspec.1
  omega

theorem forwardStreamData_closer {r : Router Data} {now : Time} {p p' : MsgPack Data} {ws : Sock}
    (htype : p.type = .streamChunk ∨ p.type = .streamEof) (hpos : 1 < p.ttl)
    (hcache : ((r.getStreamRoute now p.label).1.cachedHop (r.getStreamRoute now p.label).2).isNone)
    (h : (r.forwardStreamData now p).relayed = some (ws, p')) : Closer p p' := by
  unfold Router.forwardStreamData at h
  rw [Option.isNone_iff_eq_none] at hcache
  simp only [hcache] at h
  have hspec := relay_spec h
  have hstep : p'.ttl = p.ttl - 1 := hspec.1
  have htype' : p'.type = p.type := by
    rcases hspec.2 with heq | ⟨hreq, _⟩
    · exact heq
    · rcases htype with ht | ht <;>
      · rw [ht] at hreq
        cases hreq
  unfold Closer MsgPack.due
  rcases htype with ht | ht <;>
  · rw [htype', ht]
    refine ⟨rfl, ?_⟩
    dsimp only
    omega

theorem relayBack_closer {r : Router Data} {p p' : MsgPack Data} {ws : Sock}
    (htype : p.type = .streamAck)
    (hself : p.path.getLast?.any r.isNode = true)
    (h : (r.relayBack p).relayed = some (ws, p')) : Closer p p' := by
  obtain ⟨last, hlast, hnode⟩ := (Option.any_eq_true _ _).mp hself
  obtain ⟨rfl, hne⟩ := routeBack_spec h
  have hlen := stripSelf_length hlast hnode
  have hpos := List.length_pos_of_ne_nil hne
  unfold Closer MsgPack.due
  simp only [htype] at hpos ⊢
  refine ⟨rfl, ?_⟩
  omega

/-- **What a relay costs.** A router that sends a relayable pack on within the budget brings it closer
to the end of its hops. -/
theorem dispatch_closer {r : Router Data} {now : Time} {p p' : MsgPack Data} {ws ws' : Sock}
    (hkind : p.type.relayable = true) (hbudget : r.isRemote p = true → RelayBudget r now p)
    (h : (r.dispatch now p ws).relayed = some (ws', p')) : Closer p p' := by
  unfold Router.dispatch at h
  unfold RelayBudget at hbudget
  cases htype : p.type with
  | forwarded =>
      simp only [htype] at h
      exact onForwarded_closer htype h
  | request =>
      simp only [htype] at h hbudget
      split at h
      · rename_i hremote
        exact onRemoteRequest_closer htype (hbudget hremote) h
      · cases h
  | streamOpen =>
      simp only [htype] at h hbudget
      split at h
      · rename_i hremote
        exact forwardStreamOpen_closer htype (hbudget hremote) h
      · cases h
  | streamChunk =>
      simp only [htype] at h hbudget
      split at h
      · rename_i hremote
        exact forwardStreamData_closer (Or.inl htype) (hbudget hremote).1 (hbudget hremote).2 h
      · cases h
  | streamEof =>
      simp only [htype] at h hbudget
      split at h
      · rename_i hremote
        exact forwardStreamData_closer (Or.inr htype) (hbudget hremote).1 (hbudget hremote).2 h
      · cases h
  | streamAck =>
      simp only [htype] at h hbudget
      split at h
      · rename_i hremote
        exact relayBack_closer htype (hbudget hremote) h
      · cases h
  | response => rw [htype] at hkind; cases hkind
  | streamReady => rw [htype] at hkind; cases hkind
  | error => rw [htype] at hkind; cases hkind
  | ping => rw [htype] at hkind; cases hkind
  | pong => rw [htype] at hkind; cases hkind
  | hello => rw [htype] at hkind; cases hkind
  | helloAck => rw [htype] at hkind; cases hkind
  | helloReject => rw [htype] at hkind; cases hkind
  | gossip => rw [htype] at hkind; cases hkind
  | announce => rw [htype] at hkind; cases hkind
  | certSync => rw [htype] at hkind; cases hkind

/-- What the first hop costs. -/
theorem launch_due {r : Router Data} {p p' : MsgPack Data} {ws : Sock}
    (hkind : p.type.relayable = true) (hne : p.type ≠ .forwarded) (hbudget : OriginBudget r p)
    (h : (launch r p).2 = some (ws, p')) : p'.type.relayable = true ∧ 1 + p'.due ≤ p.ttl := by
  have hpack : p.type ≠ .streamAck → p.type.signals = false → 0 < p.ttl →
      (r.sendPack p).2 = some (ws, p') → p'.type.relayable = true ∧ 1 + p'.due ≤ p.ttl := by
    intro hack hsig hpos hsend
    have hsame : p'.type = p.type ∧ p'.ttl = p.ttl := by
      unfold Router.sendPack at hsend
      split at hsend
      · obtain ⟨rfl, _⟩ := routeBack_spec hsend
        exact ⟨rfl, rfl⟩
      · rw [sendDirect_spec hsend]
        exact ⟨rfl, rfl⟩
    refine ⟨hsame.1 ▸ hkind, ?_⟩
    unfold MsgPack.due
    rw [hsame.1, hsame.2]
    cases htype : p.type <;> simp_all [PackType.relayable, PackType.signals]
    all_goals omega
  unfold launch at h
  unfold OriginBudget at hbudget
  cases htype : p.type with
  | request =>
      simp only [htype] at h hbudget
      split at h
      · rename_i hf
        cases h
        have hsig : p.type.signals = true := by rw [htype]; rfl
        obtain ⟨hsig', hdue⟩ := (forward_spec hf).signals hsig
        exact ⟨relayable_of_signals hsig', by omega⟩
      · cases h
  | streamOpen =>
      simp only [htype] at h hbudget
      split at h
      · rename_i hf
        cases h
        have hsig : p.type.signals = true := by rw [htype]; rfl
        obtain ⟨hsig', hdue⟩ := (forward_spec hf).signals hsig
        exact ⟨relayable_of_signals hsig', by omega⟩
      · cases h
  | streamChunk =>
      simp only [htype] at h hbudget
      exact hpack (by simp [htype]) (by rw [htype]; rfl) hbudget h
  | streamEof =>
      simp only [htype] at h hbudget
      exact hpack (by simp [htype]) (by rw [htype]; rfl) hbudget h
  | streamAck =>
      simp only [htype] at h hbudget
      unfold Router.sendPack at h
      split at h
      · obtain ⟨rfl, hpath⟩ := routeBack_spec h
        have hpos := List.length_pos_of_ne_nil hpath
        unfold MsgPack.due
        simp only [htype] at hpos ⊢
        refine ⟨rfl, ?_⟩
        have := hbudget.2
        omega
      · rename_i hpath
        have hnil : p.path = [] := by simpa using hpath
        rw [sendDirect_spec h]
        unfold MsgPack.due
        simp only [htype, hnil, List.length_nil]
        refine ⟨rfl, ?_⟩
        have := hbudget.1
        omega
  | forwarded => exact absurd htype hne
  | response => rw [htype] at hkind; cases hkind
  | streamReady => rw [htype] at hkind; cases hkind
  | error => rw [htype] at hkind; cases hkind
  | ping => rw [htype] at hkind; cases hkind
  | pong => rw [htype] at hkind; cases hkind
  | hello => rw [htype] at hkind; cases hkind
  | helloAck => rw [htype] at hkind; cases hkind
  | helloReject => rw [htype] at hkind; cases hkind
  | gossip => rw [htype] at hkind; cases hkind
  | announce => rw [htype] at hkind; cases hkind
  | certSync => rw [htype] at hkind; cases hkind

/-! ## §4 The bound -/

/-- The invariant: the hops made and the hops left are within the `ttl`. -/
def HopsLeft (ttl : Int) (s : NetState N Data) : Prop :=
  match s.flight with
  | .origin _ p =>
      s.hops = 0 ∧ p.ttl = ttl ∧ p.type.relayable = true ∧ p.type ≠ .forwarded
  | .arrived _ _ p => p.type.relayable = true ∧ s.hops + p.due ≤ max ttl 0
  | .ended => (s.hops : Int) ≤ max ttl 0

omit [DecidableEq N] in
theorem HopsLeft.bound {ttl : Int} {s : NetState N Data} (h : HopsLeft ttl s) :
    (s.hops : Int) ≤ max ttl 0 := by
  unfold HopsLeft at h
  cases hflight : s.flight with
  | origin n p =>
      simp only [hflight] at h
      rw [h.1]
      exact Int.le_max_right _ _
  | arrived n ws p =>
      simp only [hflight] at h
      have := due_nonneg p
      have := h.2
      omega
  | ended =>
      simp only [hflight] at h
      exact h

/-- **Step lemma.** A move within the budget keeps the invariant. -/
theorem HopsLeft.step {ttl : Int} {peer : N → Sock → N × Sock} {s s' : NetState N Data}
    {e : NetEvent N Data} (h : HopsLeft ttl s) (hbudget : InBudget s e)
    (hstep : (network peer).step s e = some s') : HopsLeft ttl s' := by
  cases e with
  | env routers =>
      cases hstep
      exact h
  | move now =>
      unfold HopsLeft at h
      unfold InBudget at hbudget
      cases hflight : s.flight with
      | origin n p =>
          simp only [network, hflight, Option.some.injEq] at h hbudget hstep
          subst hstep
          obtain ⟨hzero, httl, hkind, hne⟩ := h
          unfold HopsLeft NetState.sent
          cases hsent : (launch (s.routers n) p).2 with
          | none =>
              dsimp only
              rw [hzero]
              exact Int.le_max_right _ _
          | some q =>
              obtain ⟨ws, p'⟩ := q
              obtain ⟨hkind', hdue⟩ := launch_due hkind hne hbudget hsent
              dsimp only
              refine ⟨hkind', ?_⟩
              rw [hzero]
              omega
      | arrived n ws p =>
          simp only [network, hflight, Option.some.injEq] at h hbudget hstep
          subst hstep
          unfold HopsLeft NetState.sent
          cases hsent : ((s.routers n).handle now p ws).relayed with
          | none =>
              dsimp only
              have := due_nonneg p
              have := h.2
              omega
          | some q =>
              obtain ⟨ws', p'⟩ := q
              obtain ⟨hkind', hdue⟩ := dispatch_closer h.1 hbudget hsent
              dsimp only
              refine ⟨hkind', ?_⟩
              have := h.2
              push_cast
              omega
      | ended =>
          simp only [network, hflight] at hstep
          cases hstep

/-- **The `ttl` bounds the hops**: a pack whose every transmission is within the budget is sent from
router to router at most `ttl` times, for all routers, tables, caches and sockets, which may change
between any two hops. -/
theorem hops_bounded (peer : N → Sock → N × Sock) {ttl : Int} {s : NetState N Data}
    (hinj : Injected ttl s) {es : List (NetEvent N Data)}
    (hbudget : (network peer).Guarded InBudget s es) :
    (network peer).Always (fun s => (s.hops : Int) ≤ max ttl 0) s es := by
  refine Machine.always_of_guarded (fun _ => HopsLeft.bound) ?_ ?_ hbudget
  · exact fun s e s' h hb hstep => h.step hb hstep
  · obtain ⟨hzero, hflight⟩ := hinj
    unfold HopsLeft
    cases hf : s.flight with
    | origin n p =>
        simp only [hf] at hflight ⊢
        exact ⟨hzero, hflight⟩
    | arrived n ws p =>
        simp only [hf] at hflight ⊢
        have hsig : p.type.signals = true := by
          rcases hflight.2 with ht | ht | ht <;> rw [ht] <;> rfl
        refine ⟨relayable_of_signals hsig, ?_⟩
        rw [due_of_signals hsig, hzero, hflight.1]
        omega
    | ended => simp only [hf] at hflight

end Forwarding

/-! ## §5 Two networks -/

section Concrete

attribute [local instance] asciiCanon

instance (r : Router Nat) (p : MsgPack Nat) : Decidable (OriginBudget r p) :=
  decidable_of_iff
    (0 < p.ttl ∧ (p.type = .streamAck → ((r.stripSelf p.path).length : Int) ≤ p.ttl)) (by
      unfold OriginBudget
      cases p.type <;> simp)

instance (r : Router Nat) (now : Time) (p : MsgPack Nat) : Decidable (RelayBudget r now p) :=
  decidable_of_iff
    ((p.type = .request ∨ p.type = .streamOpen → 0 < p.ttl) ∧
      (p.type = .streamChunk ∨ p.type = .streamEof → 1 < p.ttl ∧
        ((r.getStreamRoute now p.label).1.cachedHop (r.getStreamRoute now p.label).2).isNone) ∧
      (p.type = .streamAck → p.path.getLast?.any r.isNode = true)) (by
      unfold RelayBudget
      cases p.type <;> simp)

instance {N : Type} (s : NetState N Nat) : DecidablePred (InBudget s)
  | .env _ => isTrue trivial
  | .move now =>
      match h : s.flight with
      | .origin n p =>
          decidable_of_iff (OriginBudget (s.routers n) p) (by simp only [InBudget, h])
      | .arrived n _ p =>
          decidable_of_iff
            (((s.routers n).touchSource now p).isRemote p = true →
              RelayBudget ((s.routers n).touchSource now p) now p) (by simp only [InBudget, h])
      | .ended => isTrue (by simp only [InBudget, h])

/-- A router that knows nobody. -/
def plainRouter (node : String) : Router Nat :=
  Router.init node node ⟨fun _ => true, fun _ _ => true, "source"⟩

/-- The entry of a node `d` that is known through `via`. -/
def knownVia (node via : String) : NeighborTable :=
  (NeighborTable.init node).registerKnown 0 "d" "10.0.0.4" 9000 via PROTOCOL_VERSION [] ROLE_NODE

/-- Nodes `a` (false) and `b` (true). -/
def nameOf : Bool → String
  | false => "a"
  | true => "b"

/-- Each of `a` and `b` has a channel to the other and knows `d` through it. -/
def mutualRouter (n : Bool) : Router Nat :=
  { plainRouter (nameOf n) with
    nodes := Dict.empty.set (nameOf !n) 0
    table := knownVia (nameOf n) (nameOf !n) }

/-- The only channel leads to the other node. -/
def mutualPeer (n : Bool) (_ : Sock) : Bool × Sock := (!n, 0)

/-- A STREAM_OPEN of `a` for `d`. -/
def openPack (path : List String) (ttl : Int) : MsgPack Nat :=
  { type := .streamOpen, source := "a", dst := some "d", service := some "files"
    method := some "file_in", label := "l", path, ttl }

/-- A router like that of node `n`, with whatever it has cached since. -/
structure Mutual (n : Bool) (r : Router Nat) : Prop where
  node : r.NODE = nameOf n
  nodes : r.nodes = (mutualRouter n).nodes
  clientWs : r.clientWs = Dict.empty
  table : r.table = (mutualRouter n).table
  cache : ∀ ws, r.transportCache.get (nameOf !n) = some ws → ws = 0

theorem mutual_start (n : Bool) : Mutual n (mutualRouter n) :=
  ⟨by cases n <;> rfl, rfl, rfl, rfl, by intro ws h; cases n <;> cases h⟩

/-- The way to `d` is the channel to the other node. -/
theorem Mutual.forward {n : Bool} {r : Router Nat} (h : Mutual n r) (p : MsgPack Nat)
    (hdst : p.dst = some "d") :
    ∃ r', Mutual n r' ∧ r.forward p = some (r', 0, asForwarded (r.hop p)) := by
  have hcanon : canon (nameOf !n) = nameOf !n := by cases n <;> decide
  have hnode : r.nodes.get (canon (nameOf !n)) = some 0 := by
    rw [h.nodes]
    cases n <;> decide
  have hvia : (r.table.find "d").bind NeighborInfo.nextHop = some (nameOf !n) := by
    rw [h.table]
    cases n <;> decide
  have hdirect : r.nodes.get (canon "d") = none := by
    rw [h.nodes]
    cases n <;> decide
  have hclient : r.clientWs.get (canon "d") = none := by rw [h.clientWs]; rfl
  have hsend : ∃ r', Mutual n r' ∧ r.getTransportTo (nameOf !n) = some (r', 0) := by
    cases hcache : r.transportCache.get (nameOf !n) with
    | some ws =>
        have hzero := h.cache ws hcache
        subst hzero
        exact ⟨r, h, by simp [Router.getTransportTo, hcanon, hcache]⟩
    | none =>
        refine ⟨{ r with transportCache := r.transportCache.set (canon (nameOf !n)) 0 },
          ⟨h.node, h.nodes, h.clientWs, h.table, fun ws hws => ?_⟩, ?_⟩
        · simpa [hcanon, eq_comm] using hws
        · rw [hcanon] at hnode
          simp [Router.getTransportTo, hcanon, hcache, hnode]
  obtain ⟨r', hr', hsent⟩ := hsend
  exact ⟨r', hr', forward_of_via hdst hdirect hclient hvia hsent⟩

/-- A node passes the STREAM_OPEN to the other, whatever its path and `ttl`. -/
theorem Mutual.passes {n : Bool} {r : Router Nat} (h : Mutual n r) (path : List String)
    (ttl : Int) : ∃ r' path' ttl', Mutual n r' ∧
      (r.handle 0 (openPack path ttl) 0).router = r' ∧
      (r.handle 0 (openPack path ttl) 0).relayed = some (0, openPack path' ttl') := by
  have hunknown : r.table.find "a" = none := by
    rw [h.table]
    cases n <;> decide
  have hremote : r.isRemote (openPack path ttl) = true := by
    simp only [Router.isRemote, Router.isNode, openPack, h.node]
    cases n <;> decide
  have hrelay : ∃ u, Mutual n u ∧ r.forwardStreamOpen 0 (openPack path ttl) =
      u.relay (openPack (path ++ [r.NODE]) (ttl - 1)) := by
    unfold Router.forwardStreamOpen
    dsimp only [openPack]
    split
    · exact ⟨r, h, rfl⟩
    · refine ⟨{ r with streamRoutes := _ }, ?_, rfl⟩
      exact ⟨h.node, h.nodes, h.clientWs, h.table, h.cache⟩
  obtain ⟨u, hu, hrelay⟩ := hrelay
  obtain ⟨u', hu', hsent⟩ := hu.forward (openPack (path ++ [r.NODE]) (ttl - 1)) rfl
  have hhandle : r.handle 0 (openPack path ttl) 0 =
      { router := u'
        relayed := some (0, asForwarded (u.hop (openPack (path ++ [r.NODE]) (ttl - 1)))) } := by
    have hdispatch : r.handle 0 (openPack path ttl) 0 = r.forwardStreamOpen 0 (openPack path ttl) := by
      unfold Router.handle
      rw [touchSource_of_unknown (p := openPack path ttl) 0 hunknown,
        dispatch_streamOpen_remote (p := openPack path ttl) 0 0 rfl hremote]
    rw [hdispatch, hrelay, Router.relay, hsent]
  rw [hhandle]
  exact ⟨u', _, _, hu', rfl, rfl⟩

/-- The state in which a STREAM_OPEN with `ttl` hops has reached node `n`. -/
def atNode (n : Bool) (routers : Bool → Router Nat) (path : List String) (ttl : Int) (hops : Nat) :
    NetState Bool Nat :=
  ⟨routers, .arrived n 0 (openPack path ttl), hops⟩

/-- From either node the pack makes any number of further hops. -/
theorem mutual_run (k : Nat) :
    ∀ (n : Bool) (routers : Bool → Router Nat) (path : List String) (ttl : Int) (hops : Nat),
      (∀ m, Mutual m (routers m)) →
      ∃ s, (network mutualPeer).run (atNode n routers path ttl hops)
        (List.replicate k (.move 0)) = some s ∧ s.hops = hops + k := by
  induction k with
  | zero => exact fun n routers path ttl hops _ => ⟨_, rfl, rfl⟩
  | succ k ih =>
      intro n routers path ttl hops hall
      obtain ⟨r', path', ttl', hr', hrouter, hrelayed⟩ := (hall n).passes path ttl
      obtain ⟨s, hrun, hhops⟩ := ih (!n) (Function.update routers n r') path' ttl' (hops + 1) (by
        intro m
        by_cases hm : m = n
        · subst hm
          simpa using hr'
        · simpa [hm] using hall m)
      refine ⟨s, ?_, by omega⟩
      rw [List.replicate_succ, Machine.run_cons_eq_some]
      refine ⟨_, ?_, hrun⟩
      simp only [network, atNode, NetState.sent, hrelayed, hrouter, mutualPeer]

/-- Node `a` opens a stream to `d`. -/
def openingState : NetState Bool Nat :=
  ⟨mutualRouter, .origin false (openPack ["a"] DEFAULT_TTL), 0⟩

/-- **A STREAM_OPEN that is relayed for ever**: injected with the default `ttl`, it makes any number
of hops. -/
theorem streamOpen_relayed_forever :
    Injected DEFAULT_TTL openingState ∧
    ∀ k, ∃ s, (network mutualPeer).run openingState (List.replicate (k + 1) (.move 0)) = some s ∧
      s.hops = k + 1 := by
  refine ⟨⟨rfl, rfl, rfl, by decide⟩, fun k => ?_⟩
  obtain ⟨r', hr', hsent⟩ := (mutual_start false).forward (openPack ["a"] DEFAULT_TTL) rfl
  have hlaunch : launch (mutualRouter false) (openPack ["a"] DEFAULT_TTL) =
      (r', some (0, asForwarded ((mutualRouter false).hop (openPack ["a"] DEFAULT_TTL)))) := by
    simp only [launch, openPack] at hsent ⊢
    rw [hsent]
  obtain ⟨s, hrun, hhops⟩ := mutual_run k true (Function.update mutualRouter false r')
    _ _ 1 (by
      intro m
      cases m with
      | false => simpa using hr'
      | true => simpa using mutual_start true)
  refine ⟨s, ?_, by omega⟩
  rw [List.replicate_succ, Machine.run_cons_eq_some]
  refine ⟨_, ?_, hrun⟩
  simp only [network, openingState, NetState.sent, hlaunch, mutualPeer]
  rfl

/-- Node `a` calls its neighbour. -/
def callingState : NetState Bool Nat :=
  ⟨mutualRouter, .origin false ((mutualRouter false).callPack "l" "b" "s" "m" .null), 0⟩

/-- The first four hops of the same pack, and a call of `a` to its neighbour. -/
theorem first_hops_bounded :
    (network mutualPeer).Always (fun s => (s.hops : Int) ≤ max DEFAULT_TTL 0) openingState
        (List.replicate 4 (.move 0)) ∧
      (network mutualPeer).Always (fun s => (s.hops : Int) ≤ max DEFAULT_TTL 0) callingState
        (List.replicate 2 (.move 0)) := by
  have hopening : Injected DEFAULT_TTL openingState := ⟨rfl, rfl, rfl, by decide⟩
  have hcalling : Injected DEFAULT_TTL callingState := ⟨rfl, rfl, rfl, by decide⟩
  exact ⟨hops_bounded mutualPeer hopening (by decide), hops_bounded mutualPeer hcalling (by decide)⟩

end Concrete

end NetPulse.Mesh
