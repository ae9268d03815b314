import NetPulse.Mesh.Sending
import NetPulse.Mesh.SessionHygiene

/-
# NetPulse.Mesh.StreamOpen — the answer to a STREAM_OPEN (`Router.stream`)

`Router.stream` registers a session and a stream under a fresh label, sends the STREAM_OPEN and
waits for the future of the session: READY resolves it, and after `timeout` seconds `wait_for`
cancels it. An ERROR for the label comes to `handle`, which asks the stream registry first. The
stream is registered already, so the error goes to its pipe, which nobody reads yet, and the future
stays pending: the call ends with the timeout, not with the remote message.

One call is followed here among whatever else the node does. `answered_iff`: the call ends as its
answer says exactly when that answer is not an ERROR.
-/

namespace NetPulse.Mesh.StreamOpen

open NetPulse.Lib SessionTable

section Opening

variable [Canon] {Data : Type*}

/-! ## §1 Steps -/

/-- An exception that leaves `stream`. -/
inductive Raised where
  | noRoute
  /-- the transport raised in `_forward` -/
  | send
  /-- `RPCTimeout` -/
  | timeout
  /-- an exception with the message of the remote node -/
  | remote (message : Option String)
  deriving DecidableEq

inductive Stage where
  /-- in `_forward` -/
  | sending (future : Nat)
  /-- in `wait_for` -/
  | waiting (future : Nat)
  /-- `wait_for` has cancelled the future -/
  | expired
  | returned
  | raised (e : Raised)
  deriving DecidableEq

/-- The call awaits its answer. -/
def Stage.awaits : Stage → Option Nat
  | .sending future | .waiting future => some future
  | .expired | .returned | .raised _ => none

/-- `stream` is over. -/
def Stage.finished : Stage → Bool
  | .returned | .raised _ => true
  | .sending _ | .waiting _ | .expired => false

inductive Answer where
  | ready
  | error (message : Option String)
  deriving DecidableEq

/-- READY and ERROR packs answer a STREAM_OPEN. -/
def answerOf (p : MsgPack Data) : Option Answer :=
  match p.type with
  | .streamReady => some .ready
  | .error => some (.error p.error)
  | _ => none

structure State (Data : Type*) where
  router : Router Data
  stage : Stage
  /-- the first answer that was handled while the call awaited one -/
  answer : Option Answer := none

inductive Event (Data : Type*) where
  /-- `_forward` returns, or raises -/
  | sent
  | sendRaised
  /-- the future has a result -/
  | resume
  /-- The deadline of `wait_for`. A result that comes in the same turn of the event loop, with the
  deadline over, is too late: `wait_for` drops it. -/
  | expire
  /-- `except asyncio.TimeoutError` -/
  | giveUp
  /-- `handle` -/
  | pack (now : Time) (p : MsgPack Data) (ws : Sock)
  /-- other packs that the node sends -/
  | send (p : MsgPack Data)
  /-- other calls, streams and sessions, and their ends -/
  | call (label dst service method : String) (data : Payload Data)
  | stream (label dst service method : String) (data : Payload Data)
  | register (label service method : String)
  | cancel (label : String)
  | leave (label : String)
  /-- whatever comes and goes of channels, neighbours, clients and other streams -/
  | other (nodes clientWs transportCache : Dict String Sock) (wsPending : Dict String (Sock × Time))
      (streams : Finset String) (table : NeighborTable)

/-- The exit of `stream` on a timeout. -/
def leave (r : Router Data) (label : String) : Router Data :=
  { r with
    sessions := r.sessions.cancel label
    streams := r.streams.erase label
    streamRoutes := r.streamRoutes.pop label }

/-- The packs that can come: of another exchange; or the answer to the STREAM_OPEN, whose path leads
no further than this node; or the data of the stream. -/
def Comes (label : String) (r : Router Data) (p : MsgPack Data) : Prop :=
  p.label ≠ label ∧ "ack_" ++ p.label ≠ label ∨
    p.label = label ∧
      (answerOf p ≠ none ∧ r.stripSelf p.path = [] ∨
        p.type ∈ [.streamChunk, .streamEof, .streamAck] ∧ r.isRemote p = false)

instance (label : String) (r : Router Data) (p : MsgPack Data) : Decidable (Comes label r p) :=
  inferInstanceAs (Decidable (_ ∨ _))

/-- The router that a call leaves. -/
def calledRouter (r : Router Data) : Router.Called Data → Router Data
  | .executed _ => r
  | .sent r' _ _ _ => r'
  | .noRoute r' => r'

namespace State

variable (label : String)

/-- Note the first answer. -/
def note (s : State Data) (p : MsgPack Data) : Option Answer :=
  if p.label = label ∧ s.stage.awaits ≠ none then s.answer.or (answerOf p) else s.answer

def step (s : State Data) : Event Data → Option (State Data)
  | .sent =>
      match s.stage with
      | .sending future => some { s with stage := .waiting future }
      | _ => none
  | .sendRaised =>
      match s.stage with
      | .sending _ => some { s with stage := .raised .send }
      | _ => none
  | .resume =>
      match s.stage with
      | .waiting future =>
          match s.router.sessions.future future with
          -- the result is dropped, be it an exception
          | some (.result _) => some { s with stage := .returned }
          | _ => none
      | _ => none
  | .expire =>
      match s.stage with
      | .waiting future =>
          match s.router.sessions.future future with
          | some .pending =>
              some { s with
                router := { s.router with sessions := giveUp s.router.sessions future }
                stage := .expired }
          | _ => none
      | _ => none
  | .giveUp =>
      match s.stage with
      | .expired => some { s with router := leave s.router label, stage := .raised .timeout }
      | _ => none
  | .pack now p ws =>
      if Comes label s.router p then
        some { s with router := (s.router.handle now p ws).router, answer := s.note label p }
      else none
  | .send p =>
      if p.label = label then none else some { s with router := (s.router.sendPack p).1 }
  | .call l dst service method data =>
      if l = label then none
      else
        some { s with router := calledRouter s.router (s.router.call l dst service method data) }
  | .stream l dst service method data =>
      if l = label then none
      else
        some { s with router := calledRouter s.router (s.router.stream l dst service method data) }
  | .register l service method =>
      if l = label then none
      else
        some { s with
          router :=
            { s.router with sessions := (s.router.sessions.registerSingle l service method).1 } }
  | .cancel l =>
      if l = label then none
      else some { s with router := { s.router with sessions := s.router.sessions.cancel l } }
  | .leave l =>
      if l = label then none else some { s with router := StreamOpen.leave s.router l }
  | .other nodes clientWs transportCache wsPending streams table =>
      if label ∈ streams ↔ label ∈ s.router.streams then
        some { s with
          router := { s.router with nodes, clientWs, transportCache, wsPending, streams, table } }
      else none

end State

/-- One call of `stream` on a node. -/
def machine (label : String) : Machine (State Data) (Event Data) := ⟨State.step label⟩

/-- The call of `stream`, up to the first time that it waits. -/
def opened (r : Router Data) (label dst service method : String) (data : Payload Data) :
    State Data :=
  match r.stream label dst service method data with
  | .sent r' _ _ future => { router := r', stage := .sending future }
  | .noRoute r' => { router := r', stage := .raised .noRoute }
  -- `stream` has no branch for the own node
  | .executed _ => { router := r, stage := .raised .noRoute }

/-- The call ends as its answer says. -/
structure Answered (label : String) (s : State Data) : Prop where
  returned : s.stage = .returned → s.answer = some .ready
  remote : ∀ m, s.answer = some (.error m) → s.stage = .raised (.remote m)
  timeout : s.stage = .raised .timeout → s.answer = none
  tidy : (s.stage = .raised .timeout ∨ ∃ m, s.answer = some (.error m)) →
    label ∉ s.router.streams ∧ s.router.sessions.Absent label

/-! ## §2 What a pack does to the sessions and the streams -/

/-- The sessions and the streams are as they were. -/
structure Plain (r r' : Router Data) : Prop where
  sessions : r'.sessions = r.sessions
  streams : r'.streams = r.streams

theorem Plain.refl (r : Router Data) : Plain r r := ⟨rfl, rfl⟩

theorem plain_of_cached {r r' : Router Data} (h : Cached r r') : Plain r r' := by
  rw [h.same]
  exact ⟨rfl, rfl⟩

theorem plain_relay (r : Router Data) (p : MsgPack Data) : Plain r (r.relay p).router :=
  plain_of_cached (cached_relay r p)

/-- A pack settles at most one session, under its label or the label of its ACKs, and only a
STREAM_OPEN registers a stream. -/
structure Touches (p : MsgPack Data) (r r' : Router Data) : Prop where
  sessions : r'.sessions = r.sessions ∨
    ∃ l reply, (l = p.label ∨ l = "ack_" ++ p.label) ∧ r'.sessions = r.sessions.resolve l reply
  streams : ∀ l ∈ r'.streams, l ∈ r.streams ∨ p.type = .streamOpen ∧ l = p.label

theorem touches_of_plain {p : MsgPack Data} {r r' : Router Data} (h : Plain r r') :
    Touches p r r' :=
  ⟨Or.inl h.sessions, fun _ hl => Or.inl (h.streams ▸ hl)⟩

theorem Touches.of_plain {p : MsgPack Data} {r r' r'' : Router Data} (h : Plain r r')
    (h' : Touches p r' r'') : Touches p r r'' := by
  constructor
  · rw [← h.sessions]
    exact h'.sessions
  · rw [← h.streams]
    exact h'.streams

theorem touches_resolve {p : MsgPack Data} (r : Router Data) (reply : Reply Data) :
    Touches p r (r.resolve p.label reply) :=
  ⟨Or.inr ⟨p.label, reply, Or.inl rfl, rfl⟩, fun _ hl => Or.inl hl⟩

/-- A pack on its way back comes to the session of its label, or goes on. -/
theorem routeBack_cases (r : Router Data) (p : MsgPack Data) :
    Plain r (r.routeBack p).1 ∨ ∃ reply, (r.routeBack p).1 = r.resolve p.label reply := by
  unfold Router.routeBack
  split
  · exact Or.inr ⟨_, rfl⟩
  · split
    · rename_i hsend
      exact Or.inl (plain_of_cached (cached_getTransportTo hsend))
    · exact Or.inl (.refl r)

theorem plain_sendDirect (r : Router Data) (p : MsgPack Data) : Plain r (r.sendDirect p).1 := by
  unfold Router.sendDirect
  split
  · rename_i hsend
    obtain ⟨dst, _, hget⟩ := Option.bind_eq_some_iff.mp hsend
    exact plain_of_cached (cached_getTransportTo hget)
  · exact .refl r

theorem touches_routeBack {p : MsgPack Data} (r : Router Data) (q : MsgPack Data)
    (hlabel : q.label = p.label) : Touches p r (r.routeBack q).1 := by
  rcases routeBack_cases r q with hplain | ⟨reply, hresolve⟩
  · exact touches_of_plain hplain
  · rw [hresolve, hlabel]
    exact touches_resolve r reply

theorem touches_sendBack {p : MsgPack Data} (r : Router Data) (response : MsgPack Data)
    (hlabel : response.label = p.label) : Touches p r (r.sendBack response p).1 := by
  unfold Router.sendBack
  split
  · exact touches_routeBack r _ hlabel
  · exact touches_of_plain (plain_sendDirect r response)

theorem plain_getStreamRoute (r : Router Data) (now : Time) (label : String) :
    Plain r (r.getStreamRoute now label).1 := by
  unfold Router.getStreamRoute
  split
  · exact .refl r
  · split <;> exact ⟨rfl, rfl⟩

theorem plain_forwardStreamData (r : Router Data) (now : Time) (p : MsgPack Data) :
    Plain r (r.forwardStreamData now p).router := by
  have hroute := plain_getStreamRoute r now p.label
  unfold Router.forwardStreamData
  dsimp only
  have hlast : ∀ r'' : Router Data, Plain (r.getStreamRoute now p.label).1 r'' → Plain r r'' :=
    fun r'' h => ⟨h.sessions.trans hroute.sessions, h.streams.trans hroute.streams⟩
  split
  · rename_i hsend
    obtain ⟨via, _, hget⟩ := Option.bind_eq_some_iff.mp hsend
    exact hlast _ (plain_of_cached (cached_getTransportTo hget))
  · exact hlast _ (plain_relay _ p)

theorem plain_forwardStreamOpen (r : Router Data) (now : Time) (p : MsgPack Data) :
    Plain r (r.forwardStreamOpen now p).router := by
  unfold Router.forwardStreamOpen
  dsimp only
  split
  · exact plain_relay r _
  · split
    · exact plain_relay r _
    · obtain ⟨hsessions, hstreams⟩ := plain_relay _ _
      exact ⟨hsessions, hstreams⟩

theorem plain_onRemoteRequest (r : Router Data) (now : Time) (p : MsgPack Data) (ws : Sock) :
    Plain r (r.onRemoteRequest now p ws).router := by
  unfold Router.onRemoteRequest
  dsimp only
  split
  · rename_i hf
    obtain ⟨hsessions, hstreams⟩ := plain_of_cached (cached_forward hf)
    exact ⟨hsessions, hstreams⟩
  · exact ⟨rfl, rfl⟩

theorem plain_onForwarded (r : Router Data) (p : MsgPack Data) :
    Plain r (r.onForwarded p).router := by
  unfold Router.onForwarded
  dsimp only
  split
  · exact .refl r
  · split
    · exact .refl r
    · split
      · exact .refl r
      · exact plain_relay r _

theorem plain_cacheStreamRouteOnOpen (r : Router Data) (now : Time) (p : MsgPack Data) :
    Plain r (r.cacheStreamRouteOnOpen now p) := by
  unfold Router.cacheStreamRouteOnOpen
  split
  · exact .refl r
  · split <;> exact ⟨rfl, rfl⟩

theorem plain_cacheStreamRouteOnReady (r : Router Data) (now : Time) (p : MsgPack Data) :
    Plain r (r.cacheStreamRouteOnReady now p) := by
  unfold Router.cacheStreamRouteOnReady
  split
  · exact .refl r
  · split <;> exact ⟨rfl, rfl⟩

/-- RESPONSE, and ERROR without a stream. -/
theorem touches_reply (r : Router Data) (p : MsgPack Data) (reply : Reply Data) :
    Touches p r
      (match r.toWsClient p with
        | some h => h
        | none =>
            if p.path ≠ [] then r.relayBack p
            else { router := r.resolve p.label reply }).router := by
  split
  · rename_i hc
    obtain ⟨entry, _, rfl⟩ := Option.map_eq_some_iff.mp hc
    exact touches_of_plain ⟨rfl, rfl⟩
  · split
    · exact touches_routeBack r p rfl
    · exact touches_resolve r reply

/-- `_on_stream_open` and the answer to it. -/
theorem touches_onStreamOpen (r : Router Data) (now : Time) (p : MsgPack Data)
    (htype : p.type = .streamOpen) :
    Touches p r
      (((r.onStreamOpen p).1.cacheStreamRouteOnOpen now p).sendBack
        (r.onStreamOpen p).2.1 p).1 := by
  have hopen : ((r.onStreamOpen p).1 = r ∨
      (r.onStreamOpen p).1 = { r with streams := insert p.label r.streams }) ∧
      (r.onStreamOpen p).2.1.label = p.label := by
    unfold Router.onStreamOpen
    dsimp only
    split
    · exact ⟨Or.inl rfl, rfl⟩
    · split
      · exact ⟨Or.inl rfl, rfl⟩
      · split
        · exact ⟨Or.inr rfl, rfl⟩
        · exact ⟨Or.inr rfl, rfl⟩
  obtain ⟨hrouter, hlabel⟩ := hopen
  have hsent := Touches.of_plain (plain_cacheStreamRouteOnOpen (r.onStreamOpen p).1 now p)
    (touches_sendBack _ _ hlabel)
  rcases hrouter with hsame | hinsert
  · rw [hsame] at hsent
    rw [hsame]
    exact hsent
  · rw [hinsert] at hsent
    rw [hinsert]
    refine ⟨hsent.sessions, fun l hl => ?_⟩
    rcases hsent.streams l hl with hmem | hnew
    · exact (Finset.mem_insert.mp hmem).elim (fun h => Or.inr ⟨htype, h⟩) Or.inl
    · exact Or.inr hnew

theorem touches_dispatch (r : Router Data) (now : Time) (p : MsgPack Data) (ws : Sock) :
    Touches p r (r.dispatch now p ws).router := by
  have hplain : ∀ {r' : Router Data}, Plain r r' → Touches p r r' := touches_of_plain
  have hsame := hplain (.refl r)
  unfold Router.dispatch
  cases htype : p.type with
  | forwarded => exact hplain (plain_onForwarded r p)
  | request =>
      dsimp only
      split
      · exact hplain (plain_onRemoteRequest r now p ws)
      · exact hsame
  | response => exact touches_reply r p _
  | streamOpen =>
      dsimp only
      split
      · exact hplain (plain_forwardStreamOpen r now p)
      · exact touches_onStreamOpen r now p htype
  | streamReady =>
      have hready := plain_cacheStreamRouteOnReady r now p
      dsimp only
      split
      · exact .of_plain hready (touches_routeBack _ p rfl)
      · exact .of_plain hready (touches_resolve _ _)
  | streamChunk =>
      dsimp only
      split
      · exact hplain (plain_forwardStreamData r now p)
      · exact hsame
  | streamAck =>
      dsimp only
      split
      · exact touches_routeBack r p rfl
      · exact ⟨Or.inr ⟨_, _, Or.inr rfl, rfl⟩, fun _ hl => Or.inl hl⟩
  | streamEof =>
      dsimp only
      split
      · exact hplain (plain_forwardStreamData r now p)
      · exact ⟨Or.inl rfl, fun _ hl => Or.inl (Finset.mem_of_mem_erase hl)⟩
  | error =>
      dsimp only
      split
      · exact ⟨Or.inl rfl, fun _ hl => Or.inl (Finset.mem_of_mem_erase hl)⟩
      · exact touches_reply r p _
  | gossip =>
      dsimp only
      split
      · exact hplain ⟨rfl, rfl⟩
      · exact hsame
  | announce =>
      dsimp only
      split
      · exact hplain ⟨rfl, rfl⟩
      · exact hplain ⟨rfl, rfl⟩
  | ping => exact touches_sendBack r _ rfl
  | pong => exact touches_resolve r _
  | certSync => exact hsame
  | hello => exact hsame
  | helloAck => exact hsame
  | helloReject => exact hsame

theorem plain_touchSource (r : Router Data) (now : Time) (p : MsgPack Data) :
    Plain r (r.touchSource now p) := by
  obtain ⟨table, htouch⟩ := r.exists_touchSource now p
  rw [htouch]
  exact ⟨rfl, rfl⟩

theorem touches_handle (r : Router Data) (now : Time) (p : MsgPack Data) (ws : Sock) :
    Touches p r (r.handle now p ws).router :=
  .of_plain (plain_touchSource r now p) (touches_dispatch _ now p ws)

end Opening

/-! ## §3 The label of the call -/

section Sessions

variable {R : Type*} {t u v : SessionTable R} {label l : String} {future : Nat}

/-- The session of the call stays as it is. -/
def Spared (label : String) (future : Nat) (t u : SessionTable R) : Prop :=
  Held label future t → Held label future u ∧ u.heap[future]? = t.heap[future]? ∧
    u.table.get label = t.table.get label

theorem Spared.refl (t : SessionTable R) : Spared label future t t := fun h => ⟨h, rfl, rfl⟩

theorem Spared.trans (h : Spared label future t u) (h' : Spared label future u v) :
    Spared label future t v := by
  intro hheld
  obtain ⟨hu, hheap, htable⟩ := h hheld
  obtain ⟨hv, hheap', htable'⟩ := h' hu
  exact ⟨hv, hheap'.trans hheap, htable'.trans htable⟩

/-- An answer to another label. -/
theorem spared_resolve (hl : l ≠ label) (data : R) : Spared label future t (t.resolve l data) := by
  intro hheld
  refine ⟨hheld.resolve l data, ?_, (t.resolve_sameEntry data (Ne.symm hl)).1⟩
  cases hid : t.table.get l with
  | none => rw [resolve_of_free hid]
  | some i =>
      have hne : future ≠ i := by
        rintro rfl
        exact hheld.ne_own hl hid
      refine resolve_heap data (fun j hj => ?_) hne
      rw [hid] at hj
      exact (Option.some.inj hj).symm

theorem spared_cancel (hl : l ≠ label) : Spared label future t (t.cancel l) := by
  intro hheld
  refine ⟨hheld.cancel l, ?_, (t.cancel_sameEntry (Ne.symm hl)).1⟩
  rcases t.cancel_cases l with heq | ⟨id, o, hid, _, heq⟩
  · rw [heq]
    rfl
  · have hne : id ≠ future := by
      rintro rfl
      exact hheld.ne_own hl hid
    rw [heq]
    exact List.getElem?_set_ne hne

theorem spared_registerSingle (hl : l ≠ label) (service method : String) :
    Spared label future t (t.registerSingle l service method).1 := by
  intro hheld
  refine ⟨hheld.registerSingle service method hl, ?_,
    (t.registerSingle_sameEntry service method (Ne.symm hl)).1⟩
  obtain ⟨o, ho⟩ := hheld.object
  have hlt : future < t.heap.length := by
    by_contra hge
    rw [List.getElem?_eq_none (by omega)] at ho
    cases ho
  exact List.getElem?_append_left hlt

theorem ack_ne (label : String) : "ack_" ++ label ≠ label := by
  intro h
  have hlength := congrArg String.length h
  rw [String.length_append] at hlength
  have hfour : "ack_".length = 4 := rfl
  omega

end Sessions

section Running

variable [Canon] {Data : Type*}

/-- No entry for the label. -/
def Gone (label : String) (r : Router Data) : Prop :=
  label ∉ r.streams ∧ r.sessions.Absent label

/-- A change of the router that is none of the call's business. -/
structure Aside (label : String) (r r' : Router Data) : Prop where
  spared : ∀ future, Spared label future r.sessions r'.sessions
  gone : Gone label r → Gone label r'

theorem Aside.trans {label : String} {r r' r'' : Router Data} (h : Aside label r r')
    (h' : Aside label r' r'') : Aside label r r'' :=
  ⟨fun future => (h.spared future).trans (h'.spared future), fun hgone => h'.gone (h.gone hgone)⟩

theorem aside_of_plain {label : String} {r r' : Router Data} (h : Plain r r') :
    Aside label r r' := by
  constructor
  · intro future
    rw [h.sessions]
    exact .refl _
  · intro hgone
    unfold Gone
    rw [h.sessions, h.streams]
    exact hgone

theorem absent_of_touches {label : String} {p : MsgPack Data} {r r' : Router Data}
    (h : Touches p r r') (habsent : r.sessions.Absent label) : r'.sessions.Absent label := by
  rcases h.sessions with hsame | ⟨l, reply, _, hresolve⟩
  · rw [hsame]
    exact habsent
  · rw [hresolve]
    exact absent_resolve habsent l reply

/-- Only a STREAM_OPEN of the label could bring the label back. -/
theorem Gone.of_touches {label : String} {p : MsgPack Data} {r r' : Router Data}
    (hgone : Gone label r) (h : Touches p r r') (hopen : p.type = .streamOpen → label ≠ p.label) :
    Gone label r' := by
  refine ⟨fun hmem => ?_, absent_of_touches h hgone.2⟩
  rcases h.streams label hmem with hwas | ⟨htype, hlabel⟩
  · exact hgone.1 hwas
  · exact hopen htype hlabel

/-- A pack of another exchange. -/
theorem aside_of_touches {label : String} {p : MsgPack Data} {r r' : Router Data}
    (h : Touches p r r') (hlabel : p.label ≠ label) (hack : "ack_" ++ p.label ≠ label) :
    Aside label r r' := by
  refine ⟨fun future => ?_, fun hgone => hgone.of_touches h fun _ => Ne.symm hlabel⟩
  rcases h.sessions with hsame | ⟨l, reply, hl, hresolve⟩
  · rw [hsame]
    exact .refl _
  · rw [hresolve]
    refine spared_resolve ?_ reply
    rcases hl with rfl | rfl
    · exact hlabel
    · exact hack

theorem stripSelf_touchSource (r : Router Data) (now : Time) (p : MsgPack Data)
    (path : List String) : (r.touchSource now p).stripSelf path = r.stripSelf path := by
  obtain ⟨table, htouch⟩ := r.exists_touchSource now p
  rw [htouch]
  rfl

/-- The data of the stream leave the session of the call alone. -/
theorem aside_data {label : String} {r : Router Data} (now : Time) {p : MsgPack Data} (ws : Sock)
    (hlabel : p.label = label) (htype : p.type ∈ [.streamChunk, .streamEof, .streamAck])
    (hremote : r.isRemote p = false) : Aside label r (r.handle now p ws).router := by
  refine (aside_of_plain (plain_touchSource r now p)).trans ?_
  rw [← r.isRemote_touchSource now p p] at hremote
  unfold Router.handle
  generalize r.touchSource now p = r at hremote ⊢
  unfold Router.dispatch
  rcases List.mem_cons.mp htype with h | htype
  · rw [h]
    simp only [hremote, Bool.false_eq_true, if_false]
    exact aside_of_plain (.refl r)
  · rcases List.mem_cons.mp htype with h | htype
    · rw [h]
      simp only [hremote, Bool.false_eq_true, if_false]
      exact ⟨fun _ => .refl _, fun hgone => ⟨fun hmem => hgone.1 (Finset.mem_of_mem_erase hmem),
        hgone.2⟩⟩
    · rw [List.mem_singleton.mp htype]
      simp only [hremote, Bool.false_eq_true, if_false, hlabel]
      exact ⟨fun _ => spared_resolve (ack_ne label) _, fun hgone =>
        ⟨hgone.1, absent_resolve hgone.2 _ _⟩⟩

/-- A READY that has come home resolves the session. -/
theorem sessions_ready {r : Router Data} (now : Time) {p : MsgPack Data} (ws : Sock)
    (htype : p.type = .streamReady) (hpath : r.stripSelf p.path = []) :
    (r.handle now p ws).router.sessions = r.sessions.resolve p.label (.data p.data) := by
  have htouch := plain_touchSource r now p
  rw [← stripSelf_touchSource r now p] at hpath
  unfold Router.handle
  generalize r.touchSource now p = r' at htouch hpath ⊢
  have hready := plain_cacheStreamRouteOnReady r' now p
  have hstrip : (r'.cacheStreamRouteOnReady now p).stripSelf p.path = [] := by
    unfold Router.cacheStreamRouteOnReady
    split
    · exact hpath
    · split
      · exact hpath
      · exact hpath
  unfold Router.dispatch
  rw [htype]
  dsimp only
  split
  · unfold Router.relayBack Router.routeBack
    rw [hstrip]
    simp only [List.getLast?_nil, Router.resolve, Router.resolvePayload, htype, reduceCtorEq,
      if_false, hready.sessions, htouch.sessions]
  · simp only [Router.resolve, hready.sessions, htouch.sessions]

/-! ## §4 The invariant -/

/-- While the call awaits its answer, its future is pending until the answer comes, and a READY
resolves it. -/
structure Waiting (label : String) (future : Nat) (s : State Data) : Prop where
  held : Held label future s.router.sessions
  silent : s.answer = none → s.router.sessions.Pending label future
  ready : s.answer = some .ready →
    ∃ reply, s.router.sessions.heap[future]? = some (.future (.result reply))

def Inv (label : String) (s : State Data) : Prop :=
  match s.stage with
  | .sending future | .waiting future => Waiting label future s
  | .expired => s.answer ≠ some .ready
  | .returned => s.answer ≠ none
  | .raised .timeout => s.answer ≠ some .ready ∧ Gone label s.router
  | .raised (.remote _) => False
  | .raised .noRoute | .raised .send => True

theorem inv_opened (r : Router Data) (label dst service method : String) (data : Payload Data) :
    Inv label (opened r label dst service method data) := by
  unfold opened Router.stream
  dsimp only
  split
  · rename_i r' ws p' future heq
    split at heq
    · rename_i hf
      cases heq
      have hsame := (plain_of_cached (cached_forward hf)).sessions
      refine ⟨?_, fun _ => ?_, fun h => by cases h⟩
      · show Held label r.sessions.heap.length r'.sessions
        rw [hsame]
        exact held_registerSingle label r.sessions service method
      · show r'.sessions.Pending label r.sessions.heap.length
        rw [hsame]
        exact pending_registerSingle r.sessions label service method
    · cases heq
  · trivial
  · trivial

theorem Waiting.aside {label : String} {future : Nat} {s : State Data} (h : Waiting label future s)
    {r' : Router Data} (haside : Aside label s.router r') :
    Waiting label future { s with router := r' } := by
  obtain ⟨hheld, hheap, htable⟩ := haside.spared future h.held
  refine ⟨hheld, fun hnone => ?_, fun hready => ?_⟩
  · obtain ⟨hget, hpending⟩ := h.silent hnone
    exact ⟨htable.trans hget, hheap.trans hpending⟩
  · obtain ⟨reply, hreply⟩ := h.ready hready
    exact ⟨reply, hheap.trans hreply⟩

theorem Inv.aside {label : String} {s : State Data} (h : Inv label s) {r' : Router Data}
    (haside : Aside label s.router r') : Inv label { s with router := r' } := by
  obtain ⟨r, stage, answer⟩ := s
  cases stage with
  | sending future => exact Waiting.aside h haside
  | waiting future => exact Waiting.aside h haside
  | expired => exact h
  | returned => exact h
  | raised e =>
      cases e with
      | timeout => exact ⟨h.1, haside.gone h.2⟩
      | noRoute => trivial
      | send => trivial
      | remote m => exact h

/-! ## §5 Steps -/

theorem aside_called {label : String} {r : Router Data} {l dst service method : String}
    {data : Payload Data} (hl : l ≠ label) :
    Aside label r (calledRouter r (r.call l dst service method data)) := by
  have hregister : Aside label r
      { r with sessions := (r.sessions.registerSingle l service method).1 } :=
    ⟨fun _ => spared_registerSingle hl service method, fun hgone =>
      ⟨hgone.1, absent_registerSingle hgone.2 service method hl⟩⟩
  unfold Router.call
  dsimp only
  split
  · exact aside_of_plain (.refl r)
  · split
    · exact aside_of_plain (.refl r)
    · split
      · rename_i hf
        exact hregister.trans (aside_of_plain (plain_of_cached (cached_forward hf)))
      · exact hregister.trans ⟨fun _ => spared_cancel hl, fun hgone =>
          ⟨hgone.1, absent_cancel hgone.2 l⟩⟩

theorem aside_stream {label : String} {r : Router Data} {l dst service method : String}
    {data : Payload Data} (hl : l ≠ label) :
    Aside label r (calledRouter r (r.stream l dst service method data)) := by
  have hregister : Aside label r
      { r with
        sessions := (r.sessions.registerSingle l service method).1
        streams := insert l r.streams } := by
    refine ⟨fun _ => spared_registerSingle hl service method, fun hgone => ⟨fun hmem => ?_, ?_⟩⟩
    · rcases Finset.mem_insert.mp hmem with heq | hmem
      · exact hl heq.symm
      · exact hgone.1 hmem
    · exact absent_registerSingle hgone.2 service method hl
  unfold Router.stream
  dsimp only
  split
  · rename_i hf
    exact hregister.trans (aside_of_plain (plain_of_cached (cached_forward hf)))
  · exact hregister.trans ⟨fun _ => spared_cancel hl, fun hgone =>
      ⟨fun hmem => hgone.1 (Finset.mem_of_mem_erase hmem), absent_cancel hgone.2 l⟩⟩

/-- A pack that the node sends in another exchange. -/
theorem aside_sendPack {label : String} (r : Router Data) {p : MsgPack Data}
    (hlabel : p.label ≠ label) : Aside label r (r.sendPack p).1 := by
  unfold Router.sendPack
  split
  · rcases routeBack_cases r p with hplain | ⟨reply, hresolve⟩
    · exact aside_of_plain hplain
    · rw [hresolve]
      exact ⟨fun _ => spared_resolve hlabel reply, fun hgone =>
        ⟨hgone.1, absent_resolve hgone.2 p.label reply⟩⟩
  · exact aside_of_plain (plain_sendDirect r p)

/-- The exit of another stream. -/
theorem aside_leave {label l : String} (r : Router Data) (hl : l ≠ label) :
    Aside label r (leave r l) :=
  ⟨fun _ => spared_cancel hl, fun hgone =>
    ⟨fun hmem => hgone.1 (Finset.mem_of_mem_erase hmem), absent_cancel hgone.2 l⟩⟩

/-- An answer comes home while the call awaits one. -/
theorem Waiting.answered {label : String} {future : Nat} {s : State Data}
    (h : Waiting label future s) (now : Time) {p : MsgPack Data} (ws : Sock)
    (hlabel : p.label = label) {a : Answer} (ha : answerOf p = some a)
    (hpath : s.router.stripSelf p.path = []) :
    Waiting label future
      { s with router := (s.router.handle now p ws).router, answer := s.answer.or (some a) } := by
  have htouches := touches_handle s.router now p ws
  have hheld : Held label future (s.router.handle now p ws).router.sessions := by
    rcases htouches.sessions with hsame | ⟨l, reply, _, hresolve⟩
    · rw [hsame]
      exact h.held
    · rw [hresolve]
      exact h.held.resolve l reply
  refine ⟨hheld, fun hnone => ?_, fun hready => ?_⟩
  · exact absurd hnone (by cases s.answer <;> simp)
  · cases hanswer : s.answer with
    | none =>
        -- the READY itself
        rw [hanswer] at hready
        cases hready
        have htype : p.type = .streamReady := by
          unfold answerOf at ha
          split at ha
          · assumption
          · cases ha
          · cases ha
        refine ⟨.data p.data, ?_⟩
        show (s.router.handle now p ws).router.sessions.heap[future]? = _
        rw [sessions_ready now ws htype hpath, hlabel]
        exact (h.silent hanswer).result (.data p.data)
    | some b =>
        -- a result stays
        rw [hanswer] at hready
        have hready' : s.answer = some .ready := hanswer.trans hready
        obtain ⟨reply, hreply⟩ := h.ready hready'
        refine ⟨reply, ?_⟩
        show (s.router.handle now p ws).router.sessions.heap[future]? = _
        have habsent : s.router.sessions.Absent label := h.held.absent (by simp [hreply])
        rcases htouches.sessions with hsame | ⟨l, reply', hl, hresolve⟩
        · rw [hsame]
          exact hreply
        · rw [hresolve]
          rcases hl with rfl | rfl
          · rw [hlabel, resolve_of_free habsent.1]
            exact hreply
          · have hne : "ack_" ++ p.label ≠ label := hlabel ▸ ack_ne p.label
            exact (spared_resolve hne reply' h.held).2.1.trans hreply

/-- A pack, of whatever kind can come. -/
theorem Inv.pack {label : String} {s : State Data} (h : Inv label s) (now : Time)
    {p : MsgPack Data} (ws : Sock) (hcomes : Comes label s.router p) :
    Inv label
      { s with router := (s.router.handle now p ws).router, answer := s.note label p } := by
  have htouches := touches_handle s.router now p ws
  rcases hcomes with ⟨hlabel, hack⟩ | ⟨hlabel, ⟨hanswer, hpath⟩ | ⟨htype, hremote⟩⟩
  · have hnote : s.note label p = s.answer := if_neg fun hno => hlabel hno.1
    rw [hnote]
    exact h.aside (aside_of_touches htouches hlabel hack)
  · obtain ⟨a, ha⟩ := Option.ne_none_iff_exists'.mp hanswer
    have hopen : p.type = .streamOpen → label ≠ p.label := by
      intro htype
      simp [answerOf, htype] at ha
    obtain ⟨r, stage, answer⟩ := s
    cases stage with
    | sending future =>
        simp only [State.note, hlabel, Stage.awaits, ha, ne_eq, reduceCtorEq, not_false_eq_true,
          and_self, if_true]
        exact Waiting.answered h now ws hlabel ha hpath
    | waiting future =>
        simp only [State.note, hlabel, Stage.awaits, ha, ne_eq, reduceCtorEq, not_false_eq_true,
          and_self, if_true]
        exact Waiting.answered h now ws hlabel ha hpath
    | expired =>
        simp only [State.note, Stage.awaits, ne_eq, not_true_eq_false, and_false, if_false]
        exact h
    | returned =>
        simp only [State.note, Stage.awaits, ne_eq, not_true_eq_false, and_false, if_false]
        exact h
    | raised e =>
        simp only [State.note, Stage.awaits, ne_eq, not_true_eq_false, and_false, if_false]
        cases e with
        | timeout => exact ⟨h.1, h.2.of_touches htouches hopen⟩
        | noRoute => trivial
        | send => trivial
        | remote m => exact h
  · have haside := aside_data now ws hlabel htype hremote
    have hnone : answerOf p = none := by
      simp only [List.mem_cons, List.not_mem_nil, or_false] at htype
      rcases htype with h | h | h <;> simp [answerOf, h]
    have hnote : s.note label p = s.answer := by
      unfold State.note
      split
      · rw [hnone]
        cases s.answer <;> rfl
      · rfl
    rw [hnote]
    exact h.aside haside

/-- Every step keeps the invariant. -/
theorem Inv.step {label : String} {s t : State Data} (h : Inv label s) {ev : Event Data}
    (hstep : (machine label).step s ev = some t) : Inv label t := by
  obtain ⟨r, stage, answer⟩ := s
  cases ev with
  | sent =>
      simp only [machine, State.step] at hstep
      split at hstep
      · rename_i future
        cases hstep
        have hwaiting : Waiting label future ⟨r, .sending future, answer⟩ := h
        exact ⟨hwaiting.held, hwaiting.silent, hwaiting.ready⟩
      · cases hstep
  | sendRaised =>
      simp only [machine, State.step] at hstep
      split at hstep
      · cases hstep
        trivial
      · cases hstep
  | resume =>
      simp only [machine, State.step] at hstep
      split at hstep
      · rename_i future
        split at hstep
        · rename_i reply hfuture
          cases hstep
          -- without an answer the future would be pending
          intro hnone
          have hpending := (Waiting.silent h hnone).future
          rw [hfuture] at hpending
          cases hpending
        · cases hstep
      · cases hstep
  | expire =>
      simp only [machine, State.step] at hstep
      split at hstep
      · rename_i future
        split at hstep
        · rename_i hfuture
          cases hstep
          -- a READY would have resolved the future
          intro hready
          obtain ⟨reply, hreply⟩ := Waiting.ready h hready
          simp [SessionTable.future, hreply] at hfuture
        · cases hstep
      · cases hstep
  | giveUp =>
      simp only [machine, State.step] at hstep
      split at hstep
      · cases hstep
        exact ⟨h, Finset.notMem_erase label r.streams, cancel_absent _ label⟩
      · cases hstep
  | pack now p ws =>
      simp only [machine, State.step, Option.ite_none_right_eq_some, Option.some.injEq] at hstep
      obtain ⟨hcomes, rfl⟩ := hstep
      exact h.pack now ws hcomes
  | send p =>
      simp only [machine, State.step, Option.ite_none_left_eq_some, Option.some.injEq] at hstep
      obtain ⟨hlabel, rfl⟩ := hstep
      exact h.aside (aside_sendPack r hlabel)
  | call l dst service method data =>
      simp only [machine, State.step, Option.ite_none_left_eq_some, Option.some.injEq] at hstep
      obtain ⟨hl, rfl⟩ := hstep
      exact h.aside (aside_called hl)
  | stream l dst service method data =>
      simp only [machine, State.step, Option.ite_none_left_eq_some, Option.some.injEq] at hstep
      obtain ⟨hl, rfl⟩ := hstep
      exact h.aside (aside_stream hl)
  | register l service method =>
      simp only [machine, State.step, Option.ite_none_left_eq_some, Option.some.injEq] at hstep
      obtain ⟨hl, rfl⟩ := hstep
      exact h.aside ⟨fun _ => spared_registerSingle hl service method, fun hgone =>
        ⟨hgone.1, absent_registerSingle hgone.2 service method hl⟩⟩
  | cancel l =>
      simp only [machine, State.step, Option.ite_none_left_eq_some, Option.some.injEq] at hstep
      obtain ⟨hl, rfl⟩ := hstep
      exact h.aside ⟨fun _ => spared_cancel hl, fun hgone => ⟨hgone.1, absent_cancel hgone.2 l⟩⟩
  | leave l =>
      simp only [machine, State.step, Option.ite_none_left_eq_some, Option.some.injEq] at hstep
      obtain ⟨hl, rfl⟩ := hstep
      exact h.aside (aside_leave r hl)
  | other nodes clientWs transportCache wsPending streams table =>
      simp only [machine, State.step, Option.ite_none_right_eq_some, Option.some.injEq] at hstep
      obtain ⟨hstreams, rfl⟩ := hstep
      exact h.aside ⟨fun _ => .refl _, fun hgone =>
        ⟨fun hmem => hgone.1 (hstreams.mp hmem), hgone.2⟩⟩

/-- **The answer to a STREAM_OPEN** is what the call ends with, if and only if it is not an ERROR:
with silence or a READY as its first answer the call ends as it is to end, and with an ERROR it
never does, whatever the message and whatever else the node does. -/
theorem answered_iff (r : Router Data) (label dst service method : String) (data : Payload Data)
    {es : List (Event Data)} {t : State Data}
    (hr : (machine label).run (opened r label dst service method data) es = some t)
    (hfinished : t.stage.finished = true) :
    Answered label t ↔ ∀ m, t.answer ≠ some (.error m) := by
  have hinv : Inv label t :=
    Machine.invariant (fun _ _ _ h hstep => h.step hstep)
      (inv_opened r label dst service method data) hr
  obtain ⟨r', stage, answer⟩ := t
  constructor
  · rintro hanswered m rfl
    have hremote := hanswered.remote m rfl
    cases hremote
    exact hinv
  · intro hnot
    have hready : answer ≠ none → answer = some .ready := by
      intro hsome
      obtain ⟨a, rfl⟩ := Option.ne_none_iff_exists'.mp hsome
      cases a with
      | ready => rfl
      | error m => exact absurd rfl (hnot m)
    refine ⟨?_, fun m hm => absurd hm (hnot m), ?_, ?_⟩
    · rintro rfl
      exact hready hinv
    · rintro rfl
      by_contra hsome
      exact hinv.1 (hready hsome)
    · rintro (rfl | ⟨m, hm⟩)
      · exact hinv.2
      · exact absurd hm (hnot m)

end Running

section Concrete

attribute [local instance] asciiCanon

/-- Node `a` with a connection from node `b`. -/
def connectedRouter : Router Nat :=
  (Router.init "a" "" ⟨fun _ => false, fun _ _ => false, "no source"⟩).registerNode "b" 0

/-- A stream that `a` opens on `b`. -/
def openedOnB : State Nat := opened connectedRouter "l" "b" "s" "m" .null

def readyPack : MsgPack Nat :=
  { type := .streamReady, source := "b", dst := some "a", data := .ready, label := "l"
    path := ["a"] }

def errorPack : MsgPack Nat :=
  { type := .error, source := "b", dst := some "a", label := "l"
    error := some "Method not found: s.stream:m", path := ["a"] }

theorem ready_answered :
    ∃ t, (machine "l").run openedOnB [.sent, .pack 0 readyPack 0, .resume] = some t ∧
      (Answered "l" t ↔ ∀ m, t.answer ≠ some (.error m)) := by
  refine ⟨_, rfl, ?_⟩
  exact answered_iff connectedRouter "l" "b" "s" "m" .null
    (show (machine "l").run openedOnB [.sent, .pack 0 readyPack 0, .resume] = some _ from rfl) rfl

/-- The remote node has no such method: the call waits to the end, and raises its timeout. -/
theorem error_times_out :
    ¬ ∀ t, (machine "l").run openedOnB [.sent, .pack 0 errorPack 0, .expire, .giveUp] = some t →
      Answered "l" t := by
  intro h
  have hstage := (h _ rfl).remote (some "Method not found: s.stream:m") rfl
  cases hstage

end Concrete

end NetPulse.Mesh.StreamOpen
