import NetPulse.Mesh.Router

/-
# NetPulse.Mesh.Locality — whether a pack is for this node

A node has an id and an alias. `call` asks for both before it sends a request (a request to the own
alias would go into the mesh and block the websocket loop), and the handshake accepts a HELLO under
either. `handle` and `_on_forwarded` ask for the id alone, and `stream` asks nothing.

`handledLocally_iff` says, for a pack addressed to the node under either name, in which of these
places it stays at the node.
-/

namespace NetPulse.Mesh

open NetPulse.Lib

section Locality

variable [Canon] {Data : Type*}

/-! ## §1 Places where the question is asked -/

/-- The destination is the node, by its id or by its alias. -/
def Router.isMine (r : Router Data) (dst : String) : Prop :=
  canon dst = canon r.NODE ∨ canon dst = canon r.localAlias

inductive Place (Data : Type*) where
  | call (label service method : String) (data : Payload Data)
  | stream (label service method : String) (data : Payload Data)
  | handle (now : Time) (p : MsgPack Data) (ws : Sock)

/-- The place has a pack of one of the three kinds for the destination. -/
def Place.asks (dst : String) : Place Data → Prop
  | .handle _ p _ =>
      p.dst = some dst ∧ (p.type = .request ∨ p.type = .forwarded ∨ p.type = .streamOpen)
  | _ => True

/-- What a node does with a pack of its own: the service runs, or the stream is opened. -/
def Router.localHandling (r : Router Data) (now : Time) (p : MsgPack Data) : Handled Data :=
  match p.type with
  | .request => { router := r, act := some (.execute p) }
  | .forwarded =>
      { router := r
        act := some (.execute { p with path := p.path ++ [r.NODE], type := .request }) }
  | .streamOpen =>
      let (r', response, act) := r.onStreamOpen p
      let sent := (r'.cacheStreamRouteOnOpen now p).sendBack response p
      { router := sent.1, answered := sent.2, act }
  | _ => { router := r }

def HandledLocally (r : Router Data) (dst : String) : Place Data → Prop
  | .call label service method data =>
      r.call label dst service method data = .executed (r.callPack label dst service method data)
  | .stream label service method data =>
      r.stream label dst service method data = .executed (r.openPack label dst service method data)
  | .handle now p ws => r.handle now p ws = (r.touchSource now p).localHandling now p

/-- The pack leaves the node. -/
def Relayed (r : Router Data) (dst : String) : Place Data → Prop
  | .call label service method data =>
      ∃ r' ws p future, r.call label dst service method data = .sent r' ws p future
  | .stream label service method data =>
      ∃ r' ws p future, r.stream label dst service method data = .sent r' ws p future
  | .handle now p ws => (r.handle now p ws).relayed ≠ none

/-- Where the node knows itself. -/
def KnowsItself (r : Router Data) (dst : String) : Place Data → Prop
  | .call _ _ _ _ => True
  | .stream _ _ _ _ => False
  | .handle _ p _ =>
      if p.type = .forwarded then
        canon dst = canon r.NODE ∧ 0 < p.ttl ∧ canon r.NODE ∉ p.path.map canon
      else dst = "" ∨ canon dst = canon r.NODE

/-! ## §2 Each place -/

theorem touchSource_NODE (r : Router Data) (now : Time) (p : MsgPack Data) :
    (r.touchSource now p).NODE = r.NODE := by
  obtain ⟨table, htouch⟩ := r.exists_touchSource now p
  rw [htouch]

theorem not_isRemote_iff {r : Router Data} {p : MsgPack Data} {dst : String} (h : p.dst = some dst) :
    r.isRemote p = false ↔ dst = "" ∨ canon dst = canon r.NODE := by
  simp only [Router.isRemote, Router.isNode, h, Bool.and_eq_false_iff, decide_eq_false_iff_not,
    not_not, Bool.not_eq_false', decide_eq_true_eq]

theorem localHandling_relayed (r : Router Data) (now : Time) (p : MsgPack Data) :
    (r.localHandling now p).relayed = none ∧ (r.localHandling now p).raised = false := by
  unfold Router.localHandling
  split <;> exact ⟨rfl, rfl⟩

/-- `_forward` at the end of a handler sends the pack on or raises. -/
theorem relay_ne_local (r r' : Router Data) (p q : MsgPack Data) (now : Time) :
    r.relay p ≠ r'.localHandling now q := by
  intro heq
  obtain ⟨hrelayed, hraised⟩ := localHandling_relayed r' now q
  rw [← heq] at hrelayed hraised
  unfold Router.relay at hrelayed hraised
  cases hf : r.forward p with
  | some sent =>
      rw [hf] at hrelayed
      cases hrelayed
  | none =>
      rw [hf] at hraised
      cases hraised

theorem call_of_isMine {r : Router Data} {dst : String} (h : r.isMine dst)
    (label service method : String) (data : Payload Data) :
    r.call label dst service method data =
      .executed (r.callPack label dst service method data) := by
  have hself : r.isNode dst ∨ canon dst = canon r.localAlias := by
    unfold Router.isNode
    rw [decide_eq_true_eq]
    exact h
  simp only [Router.call, hself, if_true]

theorem stream_ne_executed (r : Router Data) (label dst service method : String)
    (data : Payload Data) (p : MsgPack Data) :
    r.stream label dst service method data ≠ .executed p := by
  intro heq
  simp only [Router.stream] at heq
  split at heq <;> cases heq

theorem handle_request_iff {r : Router Data} {now : Time} {p : MsgPack Data} {ws : Sock}
    (h : p.type = .request) :
    r.handle now p ws = (r.touchSource now p).localHandling now p ↔
      (r.touchSource now p).isRemote p = false := by
  simp only [Router.handle, Router.dispatch, Router.localHandling, h]
  cases hrem : (r.touchSource now p).isRemote p with
  | false => simp
  | true =>
      refine iff_of_false (fun heq => ?_) (fun hf => (by cases hf))
      have hact := congrArg Router.Handled.act heq
      rw [if_pos rfl] at hact
      simp only [Router.onRemoteRequest] at hact
      split at hact <;> cases hact

theorem handle_streamOpen_iff {r : Router Data} {now : Time} {p : MsgPack Data} {ws : Sock}
    (h : p.type = .streamOpen) :
    r.handle now p ws = (r.touchSource now p).localHandling now p ↔
      (r.touchSource now p).isRemote p = false := by
  unfold Router.handle
  cases hrem : (r.touchSource now p).isRemote p with
  | false => simp only [Router.dispatch, Router.localHandling, h, hrem, Bool.false_eq_true, if_false]
  | true =>
      rw [Router.dispatch_streamOpen_remote now ws h hrem]
      refine iff_of_false (fun heq => ?_) (fun hf => (by cases hf))
      simp only [Router.forwardStreamOpen] at heq
      split at heq
      · exact relay_ne_local _ _ _ _ _ heq
      · split at heq <;> exact relay_ne_local _ _ _ _ _ heq

theorem handle_forwarded_iff {r : Router Data} {now : Time} {p : MsgPack Data} {ws : Sock}
    {dst : String} (h : p.type = .forwarded) (hdst : p.dst = some dst) :
    r.handle now p ws = (r.touchSource now p).localHandling now p ↔
      canon dst = canon r.NODE ∧ 0 < p.ttl ∧ canon r.NODE ∉ p.path.map canon := by
  simp only [Router.handle, Router.dispatch, h, Router.onForwarded, touchSource_NODE]
  split_ifs with httl hloop hmine
  · -- the hops are used up: dropped
    refine iff_of_false (fun heq => ?_) (fun hall => absurd hall.2.1 (by omega))
    have hact := congrArg Router.Handled.act heq
    simp only [Router.localHandling, h] at hact
    cases hact
  · -- the pack has been here before: dropped
    refine iff_of_false (fun heq => ?_) (fun hall => hall.2.2 hloop)
    have hact := congrArg Router.Handled.act heq
    simp only [Router.localHandling, h] at hact
    cases hact
  · simp only [hdst, canon?_some, Option.some.injEq] at hmine
    simp only [Router.localHandling, h, touchSource_NODE]
    exact iff_of_true trivial ⟨hmine, by omega, hloop⟩
  · -- the address is another id, or the alias of this node: passed on
    simp only [hdst, canon?_some, Option.some.injEq] at hmine
    exact iff_of_false (relay_ne_local _ _ _ _ _) (fun hall => hmine hall.1)

/-! ## §3 One answer -/

/-- **Is this pack for me?** A pack addressed to the node, under its id or its alias and in any
spelling, stays at the node: always in `call`, never in `stream`, and in `handle` exactly when the
address is the id (or empty) and, for FORWARDED, when the pack has hops left and has not been here. -/
theorem handledLocally_iff (r : Router Data) (dst : String) (place : Place Data)
    (hmine : r.isMine dst) (hask : place.asks dst) :
    (HandledLocally r dst place ∧ ¬ Relayed r dst place) ↔ KnowsItself r dst place := by
  cases place with
  | call label service method data =>
      have hcall := call_of_isMine hmine label service method data
      refine iff_of_true ⟨hcall, ?_⟩ trivial
      rintro ⟨r', ws, p, future, hsent⟩
      rw [hcall] at hsent
      cases hsent
  | stream label service method data =>
      exact iff_of_false (fun h => stream_ne_executed _ _ _ _ _ _ _ h.1) id
  | handle now p ws =>
      obtain ⟨hdst, hkind⟩ := hask
      -- what is handled locally is not relayed
      have hlocal : (HandledLocally r dst (.handle now p ws) ∧ ¬ Relayed r dst (.handle now p ws)) ↔
          r.handle now p ws = (r.touchSource now p).localHandling now p := by
        refine ⟨fun h => h.1, fun h => ⟨h, fun hrel => hrel ?_⟩⟩
        rw [h]
        exact (localHandling_relayed _ now p).1
      have hremote := not_isRemote_iff (r := r.touchSource now p) hdst
      rw [touchSource_NODE] at hremote
      rw [hlocal]
      show _ ↔ if p.type = .forwarded then _ else _
      rcases hkind with htype | htype | htype
      · rw [handle_request_iff htype, hremote, htype, if_neg (by decide)]
      · rw [handle_forwarded_iff htype hdst, if_pos htype]
      · rw [handle_streamOpen_iff htype, hremote, htype, if_neg (by decide)]

end Locality

/-! ## §4 A node with an alias -/

section Concrete

attribute [local instance] asciiCanon

/-- The node `n0`, whose alias is `pc`. -/
def aliased : Router Unit := .init "n0" "pc" ⟨fun _ => true, fun _ _ => true, "invalid source"⟩

def requestTo (dst : String) : MsgPack Unit :=
  { type := .request, source := "hub", dst := some dst, service := some "system"
    method := some "info", label := "a" }

theorem handledLocally_by_id :
    HandledLocally aliased " N0" (.handle 0 (requestTo " N0") 7) ∧
      ¬ Relayed aliased " N0" (.handle 0 (requestTo " N0") 7) := by
  refine (handledLocally_iff aliased " N0" (.handle 0 (requestTo " N0") 7) (Or.inl (by decide))
    ⟨rfl, Or.inl rfl⟩).mpr ?_
  have hid : canon " N0" = canon aliased.NODE := by decide
  simp [KnowsItself, requestTo, hid]

/-- Under its alias, the node executes a request of its own `call` and does not know the one that it
receives; and it opens no stream to itself under any name. -/
theorem alias_not_local :
    aliased.isMine "pc" ∧
      HandledLocally aliased "pc" (.call "a" "system" "info" .null) ∧
      ¬ HandledLocally aliased "pc" (.handle 0 (requestTo "pc") 7) ∧
      ¬ HandledLocally aliased "n0" (.stream "a" "system" "info" .null) := by
  refine ⟨Or.inr rfl, call_of_isMine (Or.inr rfl) _ _ _ _, ?_, stream_ne_executed _ _ _ _ _ _ _⟩
  intro h
  have hremote := (handle_request_iff rfl).mp h
  revert hremote
  decide

end Concrete

end NetPulse.Mesh
