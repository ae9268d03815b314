import NetPulse.Lib.Machine
import NetPulse.Mesh.Chain

/-
# NetPulse.Mesh.RoundTrip — a call along a chain, and its answer

`Trip` is the network around one call: the packs of the call that are on a channel, the service
methods that it set going, and the log of those that it ever set going. A step delivers any of the
packs or ends any of the methods, with any outcome, and anything else may change the routers between.

On a chain the call has one token: the REQUEST on its way out, the method, or the answer on its way
back (`CallStage`). `round_trip` says that this is all there ever is, that the path grows and shrinks
node by node, and that the session of the call, and no other, gets the answer.
-/

namespace NetPulse.Mesh

open NetPulse.Lib Router

section RoundTrip

variable [Canon] {N Data : Type*}

/-! ## §1 The packs of a call -/

/-- The request on the channel from node `i` to the next. -/
def CallArgs.outbound (a : CallArgs Data) (c : Chain N) (i : Nat) : MsgPack Data :=
  a.pack c (if c.length = 1 then .request else .forwarded) (c.visited i) (DEFAULT_TTL - (i + 1))

/-- The request that the last node serves. It has added its id to the path only if the request was
forwarded. -/
def CallArgs.served (a : CallArgs Data) (c : Chain N) : MsgPack Data :=
  a.pack c .request (if c.length = 1 then c.visited 0 else c.visited c.length)
    (DEFAULT_TTL - c.length)

/-- What an ERROR tells the caller. -/
def errorReply (text : String) : Reply Data :=
  .exception (some (((some text).filter (· ≠ "")).getD "unknown error"))

/-- What the caller of request `p` is told; a generator that ends well tells nothing. -/
def replyOf (p : MsgPack Data) : Outcome Data → Option (Reply Data)
  | .value d => some (.data d)
  | .methodNotFound => some (errorReply (methodNotFound p.service (shown p.method)))
  | .raised text => some (errorReply text)
  | .generator _ (some text) => some (errorReply text)
  | .generator _ none => none

/-- The pack is the answer to the label, with that reply. -/
structure Carries (label : String) (reply : Reply Data) (p : MsgPack Data) : Prop where
  type : p.type = .response ∨ p.type = .error
  label : p.label = label
  reply : resolvePayload p = reply

omit [Canon] in
theorem Carries.isData {label : String} {reply : Reply Data} {p : MsgPack Data}
    (h : Carries label reply p) : p.isData = false := by
  rcases h.type with ht | ht <;> simp [MsgPack.isData, ht]

/-- The packs that `_on_request` sends, besides the data of a generator: the one answer. -/
theorem responses_spec (r : Router Data) {p : MsgPack Data} {dst : String}
    (hdst : p.dst = some dst) (outcome : Outcome Data) :
    (∀ q ∈ r.responses p outcome, q.path = p.path) ∧
      match replyOf p outcome with
      | some reply => ∃ q, (r.responses p outcome).filter (fun q => !q.isData) = [q] ∧
          Carries p.label reply q
      | none => (r.responses p outcome).filter (fun q => !q.isData) = [] := by
  have hfilter : ∀ chunks : List (Payload Data), List.filter (fun q : MsgPack Data => !q.isData)
      (chunks.map fun d =>
        { type := .streamChunk, source := r.NODE, dst := some p.source, label := p.label, data := d
          path := p.path }) = [] := by
    intro chunks
    rw [List.filter_eq_nil_iff]
    intro q hq
    obtain ⟨d, _, rfl⟩ := List.mem_map.mp hq
    simp [MsgPack.isData]
  cases outcome with
  | value d =>
      simp only [Router.responses, hdst]
      exact ⟨by simp, _, rfl, Or.inl rfl, rfl, rfl⟩
  | methodNotFound => exact ⟨by simp [Router.responses], _, rfl, Or.inr rfl, rfl, rfl⟩
  | raised text => exact ⟨by simp [Router.responses], _, rfl, Or.inr rfl, rfl, rfl⟩
  | generator chunks failure =>
      cases failure with
      | none =>
          refine ⟨?_, ?_⟩
          · intro q hq
            rcases List.mem_append.mp hq with hq | hq
            · obtain ⟨d, _, rfl⟩ := List.mem_map.mp hq
              rfl
            · cases List.mem_singleton.mp hq
              rfl
          · simp only [replyOf, Router.responses, List.filter_append, hfilter]
            rfl
      | some text =>
          refine ⟨?_, ?_⟩
          · intro q hq
            rcases List.mem_append.mp hq with hq | hq
            · obtain ⟨d, _, rfl⟩ := List.mem_map.mp hq
              rfl
            · cases List.mem_singleton.mp hq
              rfl
          · simp only [replyOf, Router.responses, List.filter_append, hfilter]
            exact ⟨_, rfl, Or.inr rfl, rfl, rfl⟩

/-! ## §2 What a node of the chain does with them -/

/-- Nobody at this node uses the label. -/
def Fresh (label : String) (r : Router Data) : Prop :=
  label ∉ r.streams ∧ r.wsPending.get label = none

theorem Fresh.settled {label : String} {r r' : Router Data} (h : Fresh label r)
    (hr : Settled r r') : Fresh label r' :=
  ⟨fun hl => h.1 (hr.streams label hl), by rw [hr.wsPending]; exact h.2⟩

section Stops

variable {c : Chain N} {peer : N → Sock → N × Sock} {a : CallArgs Data} {r : Router Data}

/-- The caller sends the request to the first node after it. -/
theorem call_sent (h : c.Stop peer 0 r) (hname : c.Names a.dst)
    (halias : canon a.dst ≠ canon r.localAlias) (hhost : r.resolveByHost a.dst ≠ some r.NODE) :
    ∃ r' ws, r.call a.label a.dst a.service a.method a.data =
        .sent r' ws (a.outbound c 0) (r.sessions.registerSingle a.label a.service a.method).2 ∧
      (peer (c.node 0) ws).1 = c.node 1 ∧ SameWays r r' ∧ (Fresh a.label r → Fresh a.label r') ∧
      r'.sessions.Pending a.label (r.sessions.registerSingle a.label a.service a.method).2 := by
  have hself : r.isNode a.dst = false := by
    have hne : c.id c.length ≠ c.id 0 := fun heq =>
      absurd (c.simple _ (Nat.le_refl _) _ (Nat.zero_le _) heq) (by have := c.pos; omega)
    unfold Router.isNode
    rw [hname, h.node, c.canonical 0 (Nat.zero_le _), decide_eq_false_iff_not]
    exact hne
  have hpack : r.callPack a.label a.dst a.service a.method a.data =
      a.pack c .request (c.visited 0) DEFAULT_TTL := by
    unfold Router.callPack CallArgs.pack
    rw [h.node]
    rfl
  obtain ⟨r', ws, hforward, hpeer, hcached⟩ :=
    (h.of_sameWays (sameWays_sessions r (r.sessions.registerSingle a.label a.service a.method).1))
      |>.forward c.pos (p := a.pack c .request (c.visited 0) DEFAULT_TTL) rfl hname rfl
  have hsent : c.sentOn 0 (a.pack c .request (c.visited 0) DEFAULT_TTL) = a.outbound c 0 := by
    unfold Chain.sentOn CallArgs.outbound
    by_cases hlen : 0 + 1 < c.length
    · rw [if_pos hlen, if_neg (by omega)]
      rfl
    · rw [if_neg hlen, if_pos (by have := c.pos; omega)]
      rfl
  rw [hsent] at hforward
  refine ⟨r', ws, ?_, hpeer, (sameWays_sessions r _).trans hcached.settled.toSameWays, ?_, ?_⟩
  · simp only [Router.call, hself, Bool.false_eq_true, false_or, halias, if_false, hhost, hpack,
      hforward]
  · intro hfresh
    refine ⟨fun hl => hfresh.1 (hcached.settled.streams _ hl), ?_⟩
    rw [hcached.settled.wsPending]
    exact hfresh.2
  · rw [hcached.settled.sessions]
    exact SessionTable.pending_registerSingle r.sessions a.label a.service a.method

/-- A forwarded request reaches the last node, or is sent on. -/
theorem onForwarded_along {j : Nat} (h : c.Stop peer (j + 1) r) (hj : j + 1 ≤ c.length)
    (hname : c.Names a.dst) {ttl : Int} (httl : 0 < ttl) :
    r.onForwarded (a.pack c .forwarded (c.visited j) ttl) =
      if j + 1 = c.length then
        { router := r, act := some (.execute (a.pack c .request (c.visited (j + 1)) ttl)) }
      else r.relay (a.pack c .forwarded (c.visited (j + 1)) ttl) := by
  have hloop : canon r.NODE ∉ (c.visited j).map canon := by
    rw [h.node, c.canonical (j + 1) hj, Chain.canon_visited (by omega)]
    exact Chain.not_mem_visited (Nat.lt_succ_self j) hj
  have hdst : canon? (some a.dst) = some (canon r.NODE) ↔ j + 1 = c.length := by
    rw [canon?_some, hname, h.node, c.canonical (j + 1) hj, Option.some.injEq]
    exact ⟨fun heq => c.simple _ hj _ (Nat.le_refl _) heq.symm, fun heq => by rw [heq]; rfl⟩
  have hpath : c.visited j ++ [r.NODE] = c.visited (j + 1) := by rw [h.node, c.visited_succ]
  have hpos : ¬ ttl ≤ 0 := by omega
  simp only [Router.onForwarded, CallArgs.pack, hpos, hloop, if_false, hpath, hdst]

/-- The last node starts the service. -/
theorem handle_last (now : Time) (ws : Sock) {j : Nat} (h : c.Stop peer (j + 1) r)
    (hj : j + 1 = c.length) (hname : c.Names a.dst) (httl : (c.length : Int) < DEFAULT_TTL) :
    ∃ r', r.handle now (a.outbound c j) ws =
        { router := r', act := some (.execute (a.served c)) } ∧ Settled r r' := by
  have htouch := settled_touchSource r now (a.outbound c j)
  have hstop := h.of_sameWays htouch.toSameWays
  have hdue : DEFAULT_TTL - ((j : Int) + 1) = DEFAULT_TTL - c.length := by
    rw [← hj]
    push_cast
    rfl
  refine ⟨_, ?_, htouch⟩
  unfold Router.handle
  generalize r.touchSource now (a.outbound c j) = r₁ at hstop
  by_cases hlen : c.length = 1
  · have hpack : a.outbound c j = a.served c := by
      have hzero : j = 0 := by omega
      unfold CallArgs.outbound CallArgs.served
      rw [hdue, hzero, if_pos hlen, if_pos hlen]
    have htype : (a.served c).type = .request := rfl
    have hlocal : r₁.isRemote (a.served c) = false := by
      have hnode : r₁.isNode a.dst = true := by
        unfold Router.isNode
        rw [hname, hstop.node, c.canonical _ hj.le, hj]
        exact decide_eq_true rfl
      simp [Router.isRemote, CallArgs.served, CallArgs.pack, hnode]
    rw [hpack]
    simp only [Router.dispatch, htype, hlocal, Bool.false_eq_true, if_false]
  · have hpack : a.outbound c j = a.pack c .forwarded (c.visited j) (DEFAULT_TTL - c.length) := by
      unfold CallArgs.outbound
      rw [hdue, if_neg hlen]
    have hserved : a.served c = a.pack c .request (c.visited (j + 1)) (DEFAULT_TTL - c.length) := by
      unfold CallArgs.served
      rw [if_neg hlen, hj]
    have htype : (a.pack c .forwarded (c.visited j) (DEFAULT_TTL - c.length)).type = .forwarded :=
      rfl
    rw [hpack, hserved]
    simp only [Router.dispatch, htype]
    rw [onForwarded_along hstop hj.le hname (by omega), if_pos hj]

/-- Any other node sends the request on. -/
theorem handle_between (now : Time) (ws : Sock) {j : Nat} (h : c.Stop peer (j + 1) r)
    (hj : j + 1 < c.length) (hname : c.Names a.dst) (httl : (c.length : Int) < DEFAULT_TTL) :
    ∃ r' ws', r.handle now (a.outbound c j) ws =
        { router := r', relayed := some (ws', a.outbound c (j + 1)) } ∧
      (peer (c.node (j + 1)) ws').1 = c.node (j + 1 + 1) ∧ Settled r r' := by
  have htouch := settled_touchSource r now (a.outbound c j)
  have hstop := h.of_sameWays htouch.toSameWays
  have hlen : ¬ c.length = 1 := by omega
  have hpack : a.outbound c j = a.pack c .forwarded (c.visited j) (DEFAULT_TTL - (j + 1)) := by
    unfold CallArgs.outbound
    rw [if_neg hlen]
  have htype : (a.pack c .forwarded (c.visited j) (DEFAULT_TTL - (j + 1))).type = .forwarded := rfl
  obtain ⟨r', ws', hforward, hpeer, hcached⟩ :=
    hstop.forward hj (p := a.pack c .forwarded (c.visited (j + 1)) (DEFAULT_TTL - (j + 1))) rfl hname
      (c.getLast?_visited _)
  have hsent : c.sentOn (j + 1) (a.pack c .forwarded (c.visited (j + 1)) (DEFAULT_TTL - (j + 1))) =
      a.outbound c (j + 1) := by
    have hdue : DEFAULT_TTL - ((j : Int) + 1) - 1 = DEFAULT_TTL - ((j + 1 : Nat) + 1) := by
      push_cast
      omega
    have hkind : ∀ p : MsgPack Data, p.type = .forwarded → asForwarded p = p := by
      intro p hp
      unfold asForwarded
      rw [if_neg (by rw [hp]; decide)]
    unfold Chain.sentOn CallArgs.outbound
    rw [if_neg hlen, hkind _ rfl, ite_self]
    simp only [CallArgs.pack, hdue]
  refine ⟨r', ws', ?_, hpeer, htouch.trans hcached.settled⟩
  unfold Router.handle
  rw [hpack] at hstop hforward ⊢
  simp only [Router.dispatch, htype]
  rw [onForwarded_along hstop hj.le hname (by omega), if_neg (by omega), Router.relay, hforward,
    hsent]

/-- The answer of the last node, if the service tells one, goes to the node before. -/
theorem answer_back {j : Nat} (h : c.Stop peer (j + 1) r) (hj : j + 1 = c.length)
    (outcome : Outcome Data) :
    Settled r (r.answer (a.served c) outcome).1 ∧
      match replyOf (a.served c) outcome with
      | some reply => ∃ ws p,
          (r.answer (a.served c) outcome).2.filter (fun q => !q.2.isData) = [(ws, p)] ∧
          (peer (c.node (j + 1)) ws).1 = c.node j ∧ p.path = c.visited j ∧ Carries a.label reply p
      | none => (r.answer (a.served c) outcome).2.filter (fun q => !q.2.isData) = [] := by
  obtain ⟨hpaths, hanswer⟩ := responses_spec r
    (show (a.served c).dst = some a.dst from rfl) outcome
  have hserved : (a.served c).path = c.visited (j + 1) ∨ (a.served c).path = c.visited j := by
    unfold CallArgs.served CallArgs.pack
    by_cases hlen : c.length = 1
    · have hzero : j = 0 := by omega
      exact Or.inr (by rw [if_pos hlen, hzero])
    · exact Or.inl (by rw [if_neg hlen, hj])
  obtain ⟨hpacks, hpeers, hsettled⟩ := h.sendAll hj.le (r.responses (a.served c) outcome)
    (fun q hq => by rw [hpaths q hq]; exact hserved)
  have hfilter : ((r.answer (a.served c) outcome).2.filter fun q => !q.2.isData).map Prod.snd =
      ((r.responses (a.served c) outcome).filter fun q => !q.isData).map
        fun p => { p with path := c.visited j } := by
    calc ((r.answer (a.served c) outcome).2.filter fun q => !q.2.isData).map Prod.snd
        = ((r.answer (a.served c) outcome).2.map Prod.snd).filter fun q => !q.isData := by
          rw [List.filter_map]
          rfl
      _ = ((r.responses (a.served c) outcome).map fun p =>
            { p with path := c.visited j }).filter fun q => !q.isData := by rw [Router.answer, hpacks]
      _ = _ := by
          rw [List.filter_map]
          rfl
  refine ⟨hsettled, ?_⟩
  cases hreply : replyOf (a.served c) outcome with
  | none =>
      simp only [hreply] at hanswer ⊢
      rw [hanswer, List.map_nil, List.map_eq_nil_iff] at hfilter
      exact hfilter
  | some reply =>
      simp only [hreply] at hanswer ⊢
      obtain ⟨q, hq, hcarries⟩ := hanswer
      rw [hq, List.map_singleton, List.map_eq_singleton_iff] at hfilter
      obtain ⟨⟨ws, p⟩, hsent, rfl⟩ := hfilter
      have hmem : (ws, _) ∈ (r.answer (a.served c) outcome).2 :=
        List.mem_of_mem_filter (hsent ▸ List.mem_singleton_self _)
      exact ⟨ws, _, hsent, hpeers _ hmem, rfl, hcarries.type, hcarries.label, hcarries.reply⟩

/-- An answer for a label that nobody here uses goes back along its path. -/
theorem handle_answer (now : Time) (ws : Sock) {label : String} {reply : Reply Data}
    {p : MsgPack Data} (hp : Carries label reply p) (hfresh : Fresh label r) (hpath : p.path ≠ []) :
    r.handle now p ws = (r.touchSource now p).relayBack p := by
  obtain ⟨hstream, hclient⟩ := hfresh.settled (settled_touchSource r now p)
  unfold Router.handle
  generalize r.touchSource now p = r₁ at hstream hclient
  have hnone : r₁.toWsClient p = none := by
    unfold Router.toWsClient
    rw [hp.label, hclient]
    rfl
  rw [← hp.label] at hstream
  rcases hp.type with ht | ht
  · simp only [Router.dispatch, ht, hnone, hpath, ne_eq, not_false_eq_true, if_true]
  · simp only [Router.dispatch, ht, hnone, hpath, hstream, ne_eq, not_false_eq_true, if_true,
      if_false]

theorem handle_back (now : Time) (ws : Sock) {i : Nat} {reply : Reply Data} {p : MsgPack Data}
    (h : c.Stop peer (i + 1) r) (hi : i + 1 ≤ c.length) (hp : Carries a.label reply p)
    (hfresh : Fresh a.label r) (hpath : p.path = c.visited (i + 1)) :
    ∃ r' ws', r.handle now p ws =
        { router := r', relayed := some (ws', { p with path := c.visited i }) } ∧
      (peer (c.node (i + 1)) ws').1 = c.node i ∧ Settled r r' := by
  have htouch := settled_touchSource r now p
  obtain ⟨r', ws', hback, hpeer, hcached⟩ :=
    (h.of_sameWays htouch.toSameWays).back hi (Or.inl hpath)
  refine ⟨r', ws', ?_, hpeer, htouch.trans hcached.settled⟩
  rw [handle_answer now ws hp hfresh (by rw [hpath]; exact c.visited_ne_nil _), Router.relayBack,
    hback]

/-- At the caller the answer completes the session. -/
theorem handle_home (now : Time) (ws : Sock) {reply : Reply Data} {p : MsgPack Data}
    (h : c.Stop peer 0 r) (hp : Carries a.label reply p) (hfresh : Fresh a.label r)
    (hpath : p.path = c.visited 0) :
    ∃ r₁, r.handle now p ws = { router := r₁.resolve a.label reply } ∧ Settled r r₁ := by
  have htouch := settled_touchSource r now p
  refine ⟨_, ?_, htouch⟩
  rw [handle_answer now ws hp hfresh (by rw [hpath]; exact c.visited_ne_nil _), Router.relayBack,
    (h.of_sameWays htouch.toSameWays).home hpath, hp.label, hp.reply]

end Stops

/-! ## §3 The network around one call -/

structure Trip (N Data : Type*) where
  routers : N → Router Data
  flight : List (Transit N Data)
  /-- the service methods that have not ended, with the request that they serve -/
  running : List (N × MsgPack Data)
  /-- every method that was started -/
  executed : List (N × MsgPack Data)
  /-- every method that has ended, and how -/
  ended : List (N × MsgPack Data × Outcome Data)

inductive TripEvent (N Data : Type*) where
  /-- a pack in flight arrives and is handled -/
  | deliver (i : Nat) (now : Time)
  /-- a method ends -/
  | complete (i : Nat) (outcome : Outcome Data)
  /-- anything else that changes the routers -/
  | env (routers : N → Router Data)

/-- The method that a handler starts. -/
def Router.Handled.starts (h : Handled Data) (n : N) : List (N × MsgPack Data) :=
  match h.act with
  | some (.execute p) => [(n, p)]
  | _ => []

variable [DecidableEq N]

def trip (peer : N → Sock → N × Sock) : Machine (Trip N Data) (TripEvent N Data) where
  step s
    | .deliver i now =>
        (s.flight[i]?).map fun f =>
          let h := (s.routers f.node).handle now f.pack f.ws
          { s with
            routers := Function.update s.routers f.node h.router
            flight := s.flight.eraseIdx i ++ arrivals peer f.node h.sends
            running := s.running ++ h.starts f.node
            executed := s.executed ++ h.starts f.node }
    | .complete i outcome =>
        (s.running[i]?).map fun task =>
          let sent := (s.routers task.1).answer task.2 outcome
          { s with
            routers := Function.update s.routers task.1 sent.1
            flight := s.flight ++ arrivals peer task.1 sent.2
            running := s.running.eraseIdx i
            ended := s.ended ++ [(task.1, task.2, outcome)] }
    | .env routers => some { s with routers }

/-- `call` at node `n`, when it sends: the trip begins, and the call waits for the future. -/
def Trip.issue (peer : N → Sock → N × Sock) (n : N) (routers : N → Router Data)
    (a : CallArgs Data) : Option (Trip N Data × Nat) :=
  match (routers n).call a.label a.dst a.service a.method a.data with
  | .sent r ws p future =>
      some
        ({ routers := Function.update routers n r
           flight := arrivals peer n [(ws, p)]
           running := []
           executed := []
           ended := [] }, future)
  | _ => none

/-! ## §4 The stages of the call -/

/-- Where the call is. -/
inductive CallStage (Data : Type*) where
  /-- the request is on the channel from node `i` to the next -/
  | going (i : Nat)
  /-- the service runs at the last node -/
  | running
  /-- the answer is on the channel to node `i` -/
  | returning (i : Nat) (reply : Reply Data)
  | done (reply : Reply Data)
  /-- the service was a generator that ended well: no answer comes -/
  | streamed

/-- The packs in flight that are not the data of a generator. -/
def Trip.signals (s : Trip N Data) : List (Transit N Data) := s.flight.filter fun f => !f.pack.isData

/-- The pack that is on a channel in a stage, and its path. -/
def CallStage.OnChannel (c : Chain N) (a : CallArgs Data) (signals : List (Transit N Data)) :
    CallStage Data → Prop
  | .going i => i < c.length ∧ ∃ ws, signals = [⟨c.node (i + 1), ws, a.outbound c i⟩]
  | .returning i reply =>
      i < c.length ∧ ∃ ws p, signals = [⟨c.node i, ws, p⟩] ∧ p.path = c.visited i ∧
        Carries a.label reply p
  | _ => signals = []

/-- The methods that run in a stage. -/
def CallStage.runs (c : Chain N) (a : CallArgs Data) : CallStage Data → List (N × MsgPack Data)
  | .running => [(c.node c.length, a.served c)]
  | _ => []

/-- The methods that were started by then. -/
def CallStage.ran (c : Chain N) (a : CallArgs Data) : CallStage Data → List (N × MsgPack Data)
  | .going _ => []
  | _ => [(c.node c.length, a.served c)]

/-- How the service has ended by then. -/
def CallStage.Ended (c : Chain N) (a : CallArgs Data)
    (ended : List (N × MsgPack Data × Outcome Data)) : CallStage Data → Prop
  | .going _ | .running => ended = []
  | .returning _ reply | .done reply =>
      ∃ outcome, ended = [(c.node c.length, a.served c, outcome)] ∧
        replyOf (a.served c) outcome = some reply
  | .streamed =>
      ∃ outcome, ended = [(c.node c.length, a.served c, outcome)] ∧
        replyOf (a.served c) outcome = none

/-- The steps that the call still needs in a stage. -/
def CallStage.left (c : Chain N) : CallStage Data → Nat
  | .going i => 2 * c.length + 1 - i
  | .running => c.length + 1
  | .returning i _ => i + 1
  | .done _ => 0
  | .streamed => 0

/-- The caller has timed out, or was cancelled. -/
def GivenUp (t : SessionTable (Reply Data)) (label : String) (future : Nat) : Prop :=
  t.heap[future]? = some (.future .cancelled) ∧ ∀ id, t.table.get label = some id → id = future

/-- The future of the call in a stage: it has the answer, or waits for it. -/
def CallStage.Awaits (t : SessionTable (Reply Data)) (label : String) (future : Nat) :
    CallStage Data → Prop
  | .done reply =>
      t.table.get label = none ∧ t.heap[future]? = some (.future (.result reply)) ∨
        GivenUp t label future
  | _ => t.Pending label future ∨ GivenUp t label future

/-- The chain stands, and the label is nobody else's. -/
structure Ground (c : Chain N) (peer : N → Sock → N × Sock) (label : String)
    (routers : N → Router Data) : Prop where
  chain : c.On peer routers
  fresh : ∀ i ≤ c.length, Fresh label (routers (c.node i))

/-- **The call is in the stage.** -/
structure Trip.At (s : Trip N Data) (c : Chain N) (peer : N → Sock → N × Sock) (a : CallArgs Data)
    (future : Nat) (stage : CallStage Data) : Prop where
  ground : Ground c peer a.label s.routers
  channel : stage.OnChannel c a s.signals
  running : s.running = stage.runs c a
  executed : s.executed = stage.ran c a
  ended : stage.Ended c a s.ended
  session : stage.Awaits (s.routers (c.node 0)).sessions a.label future

/-- The sessions at the first node after other traffic: the future of the call is as it was, or its
caller has given up on it. -/
def Kept (t t' : SessionTable (Reply Data)) (label : String) (future : Nat) : Prop :=
  t'.heap[future]? = t.heap[future]? ∧ t'.table.get label = t.table.get label ∨
    t.heap[future]? = some (.future .pending) ∧ GivenUp t' label future

/-- Other traffic leaves the chain, the label and the future alone. -/
def Quiet (c : Chain N) (peer : N → Sock → N × Sock) (a : CallArgs Data) (future : Nat)
    (s : Trip N Data) : TripEvent N Data → Prop
  | .env routers =>
      Ground c peer a.label routers ∧
        Kept (s.routers (c.node 0)).sessions (routers (c.node 0)).sessions a.label future
  | _ => True

/-- Between the states, the sessions of every node are the same, but for those of the caller under the
label of the call. -/
def OnlyCall (c : Chain N) (a : CallArgs Data) (future : Nat) (s s' : Trip N Data) : Prop :=
  (∀ n, n ≠ c.node 0 → (s'.routers n).sessions = (s.routers n).sessions) ∧
  (∀ l, l ≠ a.label →
    (s.routers (c.node 0)).sessions.SameEntry (s'.routers (c.node 0)).sessions l) ∧
  ∀ id, id ≠ future →
    (s'.routers (c.node 0)).sessions.heap[id]? = (s.routers (c.node 0)).sessions.heap[id]?

/-- The steps of the call itself touch no other session. -/
def Confined (c : Chain N) (a : CallArgs Data) (future : Nat) (s : Trip N Data) :
    TripEvent N Data → Trip N Data → Prop
  | .env _, _ => True
  | _, s' => OnlyCall c a future s s'

section Steps

variable {c : Chain N} {peer : N → Sock → N × Sock} {a : CallArgs Data} {future : Nat}
  {s s' : Trip N Data} {stage : CallStage Data}

theorem Ground.update {routers : N → Router Data} {label : String} {n : N}
    {r' : Router Data} (h : Ground c peer label routers) (hways : SameWays (routers n) r')
    (hfresh : Fresh label (routers n) → Fresh label r') :
    Ground c peer label (Function.update routers n r') where
  chain := h.chain.update hways
  fresh i hi := by
    by_cases heq : c.node i = n
    · subst heq
      rw [Function.update_self]
      exact hfresh (h.fresh i hi)
    · rw [Function.update_of_ne heq]
      exact h.fresh i hi

theorem Ground.settled {routers : N → Router Data} {label : String} {n : N} {r' : Router Data}
    (h : Ground c peer label routers) (hr : Settled (routers n) r') :
    Ground c peer label (Function.update routers n r') :=
  h.update hr.toSameWays fun hfresh => hfresh.settled hr

omit [Canon] [DecidableEq N] in
theorem signals_arrivals (n : N) (sends : List (Sock × MsgPack Data)) :
    ((arrivals peer n sends).filter fun f => !f.pack.isData) =
      arrivals peer n (sends.filter fun q => !q.2.isData) := by
  unfold arrivals
  rw [List.filter_map]
  rfl

omit [DecidableEq N] in
/-- Taking the data of a generator off the channels leaves the signals. -/
theorem signals_erase_data {i : Nat} {f : Transit N Data} (hf : s.flight[i]? = some f)
    (hdata : f.pack.isData = true) :
    ((s.flight.eraseIdx i).filter fun f => !f.pack.isData) = s.signals := by
  have hsplit := flight_split hf
  unfold Trip.signals
  conv_rhs => rw [hsplit]
  rw [List.eraseIdx_eq_take_drop_succ, List.filter_append, List.filter_append,
    List.filter_cons_of_neg (by simp [hdata])]

omit [DecidableEq N] in
/-- A single signal is the one that is taken. -/
theorem signals_erase_signal {i : Nat} {f g : Transit N Data} (hf : s.flight[i]? = some f)
    (hdata : f.pack.isData = false) (hone : s.signals = [g]) :
    f = g ∧ ((s.flight.eraseIdx i).filter fun f => !f.pack.isData) = [] := by
  have hsplit := flight_split hf
  unfold Trip.signals at hone
  rw [hsplit, List.filter_append, List.filter_cons_of_pos (by simp [hdata])] at hone
  rw [List.eraseIdx_eq_take_drop_succ, List.filter_append]
  cases htake : (s.flight.take i).filter fun f => !f.pack.isData with
  | nil =>
      rw [htake, List.nil_append] at hone
      obtain ⟨heq, hdrop⟩ := List.cons.inj hone
      exact ⟨heq, by rw [List.nil_append, hdrop]⟩
  | cons g' rest =>
      rw [htake] at hone
      exact absurd (congrArg List.length hone) (by simp)

omit [Canon] [DecidableEq N] in
theorem GivenUp.kept {t t' : SessionTable (Reply Data)} {label : String} (h : GivenUp t label future)
    (hk : Kept t t' label future) : GivenUp t' label future := by
  rcases hk with ⟨hheap, htable⟩ | ⟨_, hgiven⟩
  · exact ⟨hheap.trans h.1, by rw [htable]; exact h.2⟩
  · exact hgiven

omit [Canon] [DecidableEq N] in
theorem CallStage.Awaits.kept {t t' : SessionTable (Reply Data)} {label : String}
    (h : stage.Awaits t label future) (hk : Kept t t' label future) :
    stage.Awaits t' label future := by
  have hpending : t.Pending label future ∨ GivenUp t label future →
      t'.Pending label future ∨ GivenUp t' label future := by
    rintro (hp | hg)
    · rcases hk with ⟨hheap, htable⟩ | ⟨_, hgiven⟩
      · exact Or.inl ⟨htable.trans hp.1, hheap.trans hp.2⟩
      · exact Or.inr hgiven
    · exact Or.inr (hg.kept hk)
  cases stage with
  | done reply =>
      rcases h with ⟨hlabel, hresult⟩ | hg
      · rcases hk with ⟨hheap, htable⟩ | ⟨hheap, _⟩
        · exact Or.inl ⟨htable.trans hlabel, hheap.trans hresult⟩
        · rw [hresult] at hheap
          cases hheap
      · exact Or.inr (hg.kept hk)
  | going i => exact hpending h
  | running => exact hpending h
  | returning i reply => exact hpending h
  | streamed => exact hpending h

omit [Canon] [DecidableEq N] in
/-- Who has given up is not told. -/
theorem GivenUp.resolve {t : SessionTable (Reply Data)} {label : String}
    (h : GivenUp t label future) (reply : Reply Data) : t.resolve label reply = t := by
  rcases t.resolve_cases label reply with heq | ⟨id, items, hid, hitems, _⟩ | ⟨id, hid, hpending, _⟩
  · exact heq
  · rw [h.2 id hid, h.1] at hitems
    cases hitems
  · rw [h.2 id hid, h.1] at hpending
    cases hpending

omit [Canon] [DecidableEq N] in
/-- The label is that of the call, or free. -/
theorem CallStage.Awaits.registered {t : SessionTable (Reply Data)} {label : String}
    (h : stage.Awaits t label future) : ∀ id, t.table.get label = some id → id = future := by
  intro id hid
  have hpending : t.Pending label future ∨ GivenUp t label future → id = future := by
    rintro (hp | hg)
    · exact Option.some.inj (hid.symm.trans hp.1)
    · exact hg.2 id hid
  cases stage with
  | done reply =>
      rcases h with ⟨hlabel, _⟩ | hg
      · rw [hlabel] at hid
        cases hid
      · exact hg.2 id hid
  | going i => exact hpending h
  | running => exact hpending h
  | returning i reply => exact hpending h
  | streamed => exact hpending h

omit [Canon] [DecidableEq N] in
/-- The answer completes the future, if somebody waits for it. -/
theorem CallStage.Awaits.resolve {t : SessionTable (Reply Data)} {label : String} {i : Nat}
    {told : Reply Data} (h : (CallStage.returning i told).Awaits t label future)
    (reply : Reply Data) : (CallStage.done reply).Awaits (t.resolve label reply) label future := by
  rcases h with hp | hg
  · exact Or.inl ⟨(hp.resolve reply).1, hp.result reply⟩
  · exact Or.inr (by rw [hg.resolve]; exact hg)

theorem sessions_update {routers : N → Router Data} {n : N} {r' : Router Data}
    (h : r'.sessions = (routers n).sessions) (m : N) :
    (Function.update routers n r' m).sessions = (routers m).sessions := by
  by_cases heq : m = n
  · subst heq
    rw [Function.update_self, h]
  · rw [Function.update_of_ne heq]

omit [DecidableEq N] in
theorem onlyCall_of_same (h : ∀ n, (s'.routers n).sessions = (s.routers n).sessions) :
    OnlyCall c a future s s' :=
  ⟨fun n _ => h n, fun l _ => by rw [h]; exact .refl _ l, fun id _ => by rw [h]⟩

/-- A pack of data comes and goes. -/
theorem Trip.At.deliver_data (h : s.At c peer a future stage) {i : Nat} {now : Time}
    {f : Transit N Data} (hf : s.flight[i]? = some f) (hdata : f.pack.isData = true)
    (hstep : (trip peer).step s (.deliver i now) = some s') :
    s'.At c peer a future stage ∧ OnlyCall c a future s s' := by
  obtain ⟨hsettled, hsends, hact⟩ := handle_data (r := s.routers f.node) now f.ws hdata
  have hstarts : ((s.routers f.node).handle now f.pack f.ws).starts f.node = [] := by
    unfold Router.Handled.starts
    split
    · rename_i p heq
      exact absurd heq (hact p)
    · rfl
  simp only [trip, hf, Option.map_some, Option.some.injEq, hstarts, List.append_nil] at hstep
  subst hstep
  have hsessions := sessions_update hsettled.sessions
  refine ⟨⟨h.ground.settled hsettled, ?_, h.running, h.executed, h.ended, ?_⟩, onlyCall_of_same hsessions⟩
  · have hnone : ((s.routers f.node).handle now f.pack f.ws).sends.filter
        (fun q => !q.2.isData) = [] := by
      rw [List.filter_eq_nil_iff]
      intro q hq
      simp [hsends q hq]
    unfold Trip.signals
    rw [List.filter_append, signals_arrivals, hnone, signals_erase_data hf hdata]
    simpa [arrivals] using h.channel
  · dsimp only
    rw [hsessions]
    exact h.session

/-- The signal is handled at a node that sends it on: the call is in the next stage. -/
theorem Trip.At.pass (h : s.At c peer a future stage) {i : Nat} {now : Time} {f : Transit N Data}
    (hf : s.flight[i]? = some f) (hdata : f.pack.isData = false) (hone : s.signals = [f])
    {r' : Router Data} {ws : Sock} {p : MsgPack Data}
    (hhandle : (s.routers f.node).handle now f.pack f.ws = { router := r', relayed := some (ws, p) })
    (hsettled : Settled (s.routers f.node) r') (hp : p.isData = false) (stage' : CallStage Data)
    (hchannel : stage'.OnChannel c a [⟨(peer f.node ws).1, (peer f.node ws).2, p⟩])
    (hruns : stage'.runs c a = stage.runs c a) (hran : stage'.ran c a = stage.ran c a)
    (hended : stage'.Ended c a s.ended = stage.Ended c a s.ended)
    (hawaits : ∀ t, stage.Awaits t a.label future → stage'.Awaits t a.label future)
    (hstep : (trip peer).step s (.deliver i now) = some s') :
    s'.At c peer a future stage' ∧ OnlyCall c a future s s' := by
  obtain ⟨_, herase⟩ := signals_erase_signal hf hdata hone
  have hsessions := sessions_update hsettled.sessions
  simp only [trip, hf, Option.map_some, Option.some.injEq, hhandle] at hstep
  subst hstep
  refine ⟨⟨h.ground.settled hsettled, ?_, ?_, ?_, hended ▸ h.ended, ?_⟩, onlyCall_of_same hsessions⟩
  · have hsends : (Router.Handled.sends { router := r', relayed := some (ws, p) }).filter
        (fun q => !q.2.isData) = [(ws, p)] := by
      simp [Router.Handled.sends, hp]
    unfold Trip.signals
    rw [List.filter_append, herase, signals_arrivals, hsends]
    exact hchannel
  · simp only [h.running, hruns, Router.Handled.starts, List.append_nil]
  · simp only [h.executed, hran, Router.Handled.starts, List.append_nil]
  · dsimp only
    rw [hsessions]
    exact hawaits _ h.session

omit [DecidableEq N] in
theorem outbound_isData (a : CallArgs Data) (c : Chain N) (j : Nat) :
    (a.outbound c j).isData = false := by
  unfold CallArgs.outbound
  split <;> rfl

/-- **A pack of the call arrives**: the request moves on or starts the service, the answer moves on or
completes the session. -/
theorem Trip.At.deliver_signal (h : s.At c peer a future stage) (hname : c.Names a.dst)
    (httl : (c.length : Int) < DEFAULT_TTL) {i : Nat} {now : Time} {f : Transit N Data}
    (hf : s.flight[i]? = some f) (hdata : f.pack.isData = false)
    (hstep : (trip peer).step s (.deliver i now) = some s') :
    (∃ stage', s'.At c peer a future stage' ∧ stage'.left c < stage.left c ∧
      stage' ≠ .streamed) ∧ OnlyCall c a future s s' := by
  have hchannel := h.channel
  have hmem : s.signals ≠ [] := by
    refine List.ne_nil_of_mem (a := f) (List.mem_filter.mpr ⟨List.mem_of_getElem? hf, ?_⟩)
    simp [hdata]
  cases stage with
  | going j =>
      obtain ⟨hj, ws, hone⟩ := hchannel
      obtain ⟨rfl, herase⟩ := signals_erase_signal hf hdata hone
      have hstop := h.ground.chain (j + 1) hj
      by_cases hlast : j + 1 = c.length
      · obtain ⟨r', hhandle, hsettled⟩ := handle_last (a := a) now ws hstop hlast hname httl
        have hsessions := sessions_update hsettled.sessions
        simp only [trip, hf, Option.map_some, Option.some.injEq, hhandle] at hstep
        subst hstep
        refine ⟨⟨.running, ⟨h.ground.settled hsettled, ?_, ?_, ?_, h.ended, ?_⟩, ?_, by simp⟩,
          onlyCall_of_same hsessions⟩
        · unfold Trip.signals
          rw [List.filter_append, herase]
          rfl
        · simp [h.running, CallStage.runs, Router.Handled.starts, hlast]
        · simp [h.executed, CallStage.ran, Router.Handled.starts, hlast]
        · dsimp only
          rw [hsessions]
          exact h.session
        · simp only [CallStage.left]
          omega
      · have hbetween : j + 1 < c.length := by omega
        obtain ⟨r', ws', hhandle, hpeer, hsettled⟩ :=
          handle_between (a := a) now ws hstop hbetween hname httl
        obtain ⟨hat, honly⟩ := h.pass hf hdata hone hhandle hsettled
          (outbound_isData a c _) (.going (j + 1)) ⟨hbetween, _, by rw [hpeer]⟩ rfl rfl rfl (fun _ ht => ht)
          hstep
        refine ⟨⟨_, hat, ?_, by simp⟩, honly⟩
        simp only [CallStage.left]
        omega
  | returning j reply =>
      obtain ⟨hj, ws, p, hone, hpath, hcarries⟩ := hchannel
      obtain ⟨rfl, herase⟩ := signals_erase_signal hf hdata hone
      have hstop := h.ground.chain j hj.le
      have hfresh := h.ground.fresh j hj.le
      cases j with
      | zero =>
          obtain ⟨r₁, hhandle, hsettled⟩ := handle_home now ws hstop hcarries hfresh hpath
          simp only [trip, hf, Option.map_some, Option.some.injEq, hhandle] at hstep
          subst hstep
          have hsessions : (r₁.resolve a.label reply).sessions =
              (s.routers (c.node 0)).sessions.resolve a.label reply := by
            rw [← hsettled.sessions]
            rfl
          refine ⟨⟨.done reply, ⟨?_, ?_, ?_, ?_, h.ended, ?_⟩, by simp [CallStage.left], by simp⟩, ?_⟩
          · refine h.ground.update (hsettled.toSameWays.trans (sameWays_sessions r₁ _)) ?_
            intro hfree
            have hfree' := hfree.settled hsettled
            exact hfree'
          · unfold Trip.signals
            rw [List.filter_append, herase]
            rfl
          · simp [h.running, CallStage.runs, Router.Handled.starts]
          · simp [h.executed, CallStage.ran, Router.Handled.starts]
          · simp only [Function.update_self, hsessions]
            exact h.session.resolve reply
          · refine ⟨fun n hn => ?_, fun l hl => ?_, fun id hid => ?_⟩
            · simp only [Function.update_of_ne hn]
            · simp only [Function.update_self, hsessions]
              exact SessionTable.resolve_sameEntry _ reply hl
            · simp only [Function.update_self, hsessions]
              exact SessionTable.resolve_heap reply h.session.registered hid
      | succ j =>
          obtain ⟨r', ws', hhandle, hpeer, hsettled⟩ :=
            handle_back now ws hstop hj.le hcarries hfresh hpath
          have hcarries' : Carries a.label reply { p with path := c.visited j } :=
            ⟨hcarries.type, hcarries.label, hcarries.reply⟩
          obtain ⟨hat, honly⟩ := h.pass hf hdata hone hhandle hsettled
            hcarries'.isData (.returning j reply) ⟨by omega, _, _, by rw [hpeer], rfl, hcarries'⟩ rfl rfl
            rfl (fun _ ht => ht) hstep
          refine ⟨⟨_, hat, ?_, by simp⟩, honly⟩
          simp only [CallStage.left]
          omega
  | running => exact absurd hchannel hmem
  | done reply => exact absurd hchannel hmem
  | streamed => exact absurd hchannel hmem

/-- **The service ends**: its answer sets out, or there is none. -/
theorem Trip.At.complete (h : s.At c peer a future stage) {i : Nat} {outcome : Outcome Data}
    (hstep : (trip peer).step s (.complete i outcome) = some s') :
    (∃ stage', s'.At c peer a future stage' ∧ stage'.left c < stage.left c ∧
      ((replyOf (a.served c) outcome).isSome → stage' ≠ .streamed)) ∧
      OnlyCall c a future s s' := by
  obtain ⟨task, htask, hstep⟩ := Option.map_eq_some_iff.mp hstep
  cases stage with
  | running =>
      have hrunning : s.running = [(c.node c.length, a.served c)] := h.running
      obtain ⟨hi, rfl⟩ : i = 0 ∧ (c.node c.length, a.served c) = task := by
        rw [hrunning] at htask
        cases i with
        | zero => exact ⟨rfl, Option.some.inj htask⟩
        | succ i => cases htask
      subst hi
      obtain ⟨j, hj⟩ : ∃ j, c.length = j + 1 := ⟨c.length - 1, by have := c.pos; omega⟩
      have hstop := h.ground.chain (j + 1) hj.ge
      obtain ⟨hsettled, hanswer⟩ := answer_back (a := a) hstop hj.symm outcome
      rw [← hj] at hsettled hanswer
      have hsessions := sessions_update hsettled.sessions
      have hnone : s.signals = [] := h.channel
      have hended : s.ended = [] := h.ended
      have hdue : c.length + 1 = j + 2 := by omega
      subst hstep
      refine ⟨?_, onlyCall_of_same hsessions⟩
      cases hreply : replyOf (a.served c) outcome with
      | some reply =>
          simp only [hreply] at hanswer
          obtain ⟨ws, p, hsent, hpeer, hpath, hcarries⟩ := hanswer
          refine ⟨.returning j reply, ⟨h.ground.settled hsettled,
            ⟨by omega, (peer (c.node c.length) ws).2, p, ?_, hpath, hcarries⟩, ?_, h.executed,
            ⟨outcome, ?_, hreply⟩, ?_⟩, ?_, fun _ => by simp⟩
          · unfold Trip.signals at hnone ⊢
            rw [List.filter_append, hnone, signals_arrivals, hsent]
            simp only [arrivals, List.map_singleton, List.nil_append, hpeer]
          · simp [hrunning, CallStage.runs]
          · simp [hended]
          · dsimp only
            rw [hsessions]
            exact h.session
          · simp only [CallStage.left, hdue]
            omega
      | none =>
          simp only [hreply] at hanswer
          refine ⟨.streamed, ⟨h.ground.settled hsettled, ?_, ?_, h.executed, ⟨outcome, ?_, hreply⟩,
            ?_⟩, ?_, fun hsome => by simp at hsome⟩
          · unfold CallStage.OnChannel Trip.signals at *
            rw [List.filter_append, hnone, signals_arrivals, hanswer]
            rfl
          · simp [hrunning, CallStage.runs]
          · simp [hended]
          · dsimp only
            rw [hsessions]
            exact h.session
          · simp [CallStage.left]
  | going j =>
      have hrunning : s.running = [] := h.running
      rw [hrunning] at htask
      cases htask
  | returning j reply =>
      have hrunning : s.running = [] := h.running
      rw [hrunning] at htask
      cases htask
  | done reply =>
      have hrunning : s.running = [] := h.running
      rw [hrunning] at htask
      cases htask
  | streamed =>
      have hrunning : s.running = [] := h.running
      rw [hrunning] at htask
      cases htask

omit [DecidableEq N] in
theorem Trip.At.env (h : s.At c peer a future stage) {routers : N → Router Data}
    (hquiet : Quiet c peer a future s (.env routers)) :
    Trip.At { s with routers } c peer a future stage :=
  ⟨hquiet.1, h.channel, h.running, h.executed, h.ended, h.session.kept hquiet.2⟩

/-- **Step lemma.** Every step leaves the call in a stage. -/
theorem Trip.At.step (h : s.At c peer a future stage) (hname : c.Names a.dst)
    (httl : (c.length : Int) < DEFAULT_TTL) {e : TripEvent N Data}
    (hquiet : Quiet c peer a future s e) (hstep : (trip peer).step s e = some s') :
    (∃ stage', s'.At c peer a future stage') ∧ Confined c a future s e s' := by
  cases e with
  | deliver i now =>
      obtain ⟨f, hf, _⟩ := Option.map_eq_some_iff.mp hstep
      cases hdata : f.pack.isData with
      | true =>
          obtain ⟨hat, honly⟩ := h.deliver_data hf hdata hstep
          exact ⟨⟨_, hat⟩, honly⟩
      | false =>
          obtain ⟨⟨_, hat, _⟩, honly⟩ := h.deliver_signal hname httl hf hdata hstep
          exact ⟨⟨_, hat⟩, honly⟩
  | complete i outcome =>
      obtain ⟨⟨_, hat, _⟩, honly⟩ := h.complete hstep
      exact ⟨⟨_, hat⟩, honly⟩
  | env routers =>
      cases hstep
      exact ⟨⟨_, h.env hquiet⟩, trivial⟩

/-- From every stage the answer is a few steps away, if the service tells one. -/
theorem Trip.At.finishes (hname : c.Names a.dst) (httl : (c.length : Int) < DEFAULT_TTL)
    {outcome : Outcome Data} (htold : (replyOf (a.served c) outcome).isSome) (n : Nat) :
    ∀ {s : Trip N Data} {stage : CallStage Data}, s.At c peer a future stage →
      stage ≠ .streamed → stage.left c ≤ n →
      ∃ es t reply, es.length ≤ n ∧ (trip peer).run s es = some t ∧
        t.At c peer a future (.done reply) := by
  induction n with
  | zero =>
      intro s stage h hne hleft
      cases stage with
      | done reply => exact ⟨[], s, reply, Nat.le_refl _, rfl, h⟩
      | streamed => exact absurd rfl hne
      | going i =>
          have := h.channel.1
          simp only [CallStage.left] at hleft
          omega
      | running => simp [CallStage.left] at hleft
      | returning i reply => simp [CallStage.left] at hleft
  | succ n ih =>
      intro s stage h hne hleft
      -- a step that moves the call on, followed by what the induction gives
      have hcons : ∀ {e s' stage'}, (trip peer).step s e = some s' →
          s'.At c peer a future stage' → stage'.left c < stage.left c → stage' ≠ .streamed →
          ∃ es t reply, es.length ≤ n + 1 ∧ (trip peer).run s es = some t ∧
            t.At c peer a future (.done reply) := by
        intro e s' stage' hstep hat hless hne'
        obtain ⟨es, t, reply, hlen, hrun, hdone⟩ := ih hat hne' (by omega)
        refine ⟨e :: es, t, reply, Nat.succ_le_succ hlen, ?_, hdone⟩
        exact ((trip peer).run_cons_eq_some).mpr ⟨s', hstep, hrun⟩
      have hsignal : ∀ {f}, s.signals = [f] →
          ∃ es t reply, es.length ≤ n + 1 ∧ (trip peer).run s es = some t ∧
            t.At c peer a future (.done reply) := by
        intro f hone
        obtain ⟨hmem, hdata⟩ := List.mem_filter.mp
          (show f ∈ s.signals by rw [hone]; exact List.mem_singleton_self f)
        obtain ⟨i, hf⟩ := List.mem_iff_getElem?.mp hmem
        have hstep : ∃ s', (trip peer).step s (.deliver i 0) = some s' := by
          simp only [trip, hf, Option.map_some]
          exact ⟨_, rfl⟩
        obtain ⟨s', hstep⟩ := hstep
        obtain ⟨⟨stage', hat, hless, hne'⟩, _⟩ :=
          h.deliver_signal hname httl hf (by simpa using hdata) hstep
        exact hcons hstep hat hless hne'
      cases stage with
      | done reply => exact ⟨[], s, reply, Nat.zero_le _, rfl, h⟩
      | streamed => exact absurd rfl hne
      | going i =>
          obtain ⟨_, ws, hone⟩ := h.channel
          exact hsignal hone
      | returning i reply =>
          obtain ⟨_, ws, p, hone, _⟩ := h.channel
          exact hsignal hone
      | running =>
          have hrunning : s.running = [(c.node c.length, a.served c)] := h.running
          have hstep : ∃ s', (trip peer).step s (.complete 0 outcome) = some s' := by
            simp only [trip, hrunning, List.getElem?_cons_zero, Option.map_some]
            exact ⟨_, rfl⟩
          obtain ⟨s', hstep⟩ := hstep
          obtain ⟨⟨stage', hat, hless, hne'⟩, _⟩ := h.complete hstep
          exact hcons hstep hat hless (hne' htold)

/-- The path lists node ids in the order of the chain, each one canonical and no one twice. -/
def Chain.InOrder (c : Chain N) (path : List String) : Prop :=
  (∃ i ≤ c.length, path = c.visited i) ∧ path.Nodup ∧ ∀ name ∈ path, canon name = name

omit [DecidableEq N] in
theorem Chain.inOrder_visited {i : Nat} (hi : i ≤ c.length) : c.InOrder (c.visited i) :=
  ⟨⟨i, hi, rfl⟩, nodup_visited hi, canonical_visited hi⟩

omit [DecidableEq N] in
theorem inOrder_served : c.InOrder (a.served c).path := by
  unfold CallArgs.served CallArgs.pack
  dsimp only
  split
  · exact Chain.inOrder_visited (Nat.zero_le _)
  · exact Chain.inOrder_visited (Nat.le_refl _)

omit [DecidableEq N] in
/-- Every pack of the call, wherever it is, has its path in order. -/
theorem Trip.At.inOrder (h : s.At c peer a future stage) :
    (∀ f ∈ s.signals, c.InOrder f.pack.path) ∧ ∀ task ∈ s.executed, c.InOrder task.2.path := by
  have hsignals := h.channel
  refine ⟨?_, ?_⟩
  · intro f hf
    cases stage with
    | going i =>
        obtain ⟨hi, ws, hone⟩ := hsignals
        rw [hone, List.mem_singleton] at hf
        subst hf
        exact Chain.inOrder_visited hi.le
    | returning i reply =>
        obtain ⟨hi, ws, p, hone, hpath, _⟩ := hsignals
        rw [hone, List.mem_singleton] at hf
        subst hf
        rw [hpath]
        exact Chain.inOrder_visited hi.le
    | running => rw [show s.signals = [] from hsignals] at hf; cases hf
    | done reply => rw [show s.signals = [] from hsignals] at hf; cases hf
    | streamed => rw [show s.signals = [] from hsignals] at hf; cases hf
  · intro task htask
    rw [h.executed] at htask
    have hserved : ∀ {stage : CallStage Data}, task ∈ stage.ran c a →
        task = (c.node c.length, a.served c) := by
      intro stage hmem
      cases stage <;> simp_all [CallStage.ran]
    rw [hserved htask]
    exact inOrder_served

end Steps

/-! ## §5 The round trip -/

/-- The call is in one of its stages, and its packs list the nodes in order. -/
def Trip.OnCourse (s : Trip N Data) (c : Chain N) (peer : N → Sock → N × Sock) (a : CallArgs Data)
    (future : Nat) : Prop :=
  (∃ stage, s.At c peer a future stage) ∧
    (∀ f ∈ s.signals, c.InOrder f.pack.path) ∧ ∀ task ∈ s.executed, c.InOrder task.2.path

/-- The call sets out. -/
theorem issue_at {c : Chain N} {peer : N → Sock → N × Sock} {routers : N → Router Data}
    {a : CallArgs Data} (hground : Ground c peer a.label routers) (hname : c.Names a.dst)
    (halias : canon a.dst ≠ canon (routers (c.node 0)).localAlias)
    (hhost : (routers (c.node 0)).resolveByHost a.dst ≠ some (routers (c.node 0)).NODE) :
    ∃ s future, Trip.issue peer (c.node 0) routers a = some (s, future) ∧
      s.At c peer a future (.going 0) := by
  obtain ⟨r', ws, hcall, hpeer, hways, hfresh, hpending⟩ :=
    call_sent (hground.chain 0 (Nat.zero_le _)) hname halias hhost
  unfold Trip.issue
  rw [hcall]
  refine ⟨_, _, rfl, ?_⟩
  exact
    { ground := hground.update hways hfresh
      channel := ⟨c.pos, (peer (c.node 0) ws).2, by
        simp [Trip.signals, arrivals, outbound_isData, hpeer]⟩
      running := rfl
      executed := rfl
      ended := rfl
      session := Or.inl (by simpa using hpending) }

/-- **A call along a chain comes back.** A call for the last node of a chain is sent, and along every
run, with whatever other traffic:

* the call is in one of its stages, so its service runs once, at the last node, and the answer goes
  back node by node;
* no step of the call touches a session but its own;
* from every state of the run the answer is at most `2 * length + 1` steps away from the caller,
  unless the service was a generator, which has none. -/
theorem round_trip (c : Chain N) (peer : N → Sock → N × Sock) {routers : N → Router Data}
    {a : CallArgs Data} (hground : Ground c peer a.label routers) (hname : c.Names a.dst)
    (halias : canon a.dst ≠ canon (routers (c.node 0)).localAlias)
    (hhost : (routers (c.node 0)).resolveByHost a.dst ≠ some (routers (c.node 0)).NODE)
    (httl : (c.length : Int) < DEFAULT_TTL) :
    ∃ s future, Trip.issue peer (c.node 0) routers a = some (s, future) ∧
      ∀ es, (trip peer).Guarded (Quiet c peer a future) s es →
        (trip peer).Always (fun t => t.OnCourse c peer a future) s es ∧
        (trip peer).Each (Confined c a future) s es ∧
        ∀ t outcome, (trip peer).run s es = some t → (replyOf (a.served c) outcome).isSome →
          t.At c peer a future .streamed ∨
          ∃ es' u reply, es'.length ≤ 2 * c.length + 1 ∧ (trip peer).run t es' = some u ∧
            u.At c peer a future (.done reply) := by
  obtain ⟨s, future, hissue, hstart⟩ := issue_at hground hname halias hhost
  refine ⟨s, future, hissue, fun es hquiet => ?_⟩
  have hstep : ∀ (s : Trip N Data) e s', (∃ stage, s.At c peer a future stage) →
      Quiet c peer a future s e → (trip peer).step s e = some s' →
      ∃ stage, s'.At c peer a future stage :=
    fun s e s' ⟨stage, hat⟩ hq hs => (hat.step hname httl hq hs).1
  refine ⟨?_, ?_, ?_⟩
  · refine Machine.always_of_guarded ?_ hstep ⟨_, hstart⟩ hquiet
    exact fun s ⟨stage, hat⟩ => ⟨⟨stage, hat⟩, hat.inOrder⟩
  · refine Machine.each_of_guarded ?_ hstep ⟨_, hstart⟩ hquiet
    exact fun s e s' ⟨stage, hat⟩ hq hs => (hat.step hname httl hq hs).2
  · intro t outcome hrun htold
    obtain ⟨stage, hat⟩ := Machine.invariant_of_guarded hstep ⟨_, hstart⟩ hquiet hrun
    by_cases hstream : stage = .streamed
    · exact Or.inl (hstream ▸ hat)
    · have hleft : stage.left c ≤ 2 * c.length + 1 := by
        have hchannel := hat.channel
        cases stage with
        | going i => simp [CallStage.left]
        | running => simp only [CallStage.left]; omega
        | returning i reply =>
            have := hchannel.1
            simp only [CallStage.left]
            omega
        | done reply => simp [CallStage.left]
        | streamed => simp [CallStage.left]
      exact Or.inr (hat.finishes hname httl htold _ hstream hleft)

end RoundTrip

/-! ## §6 Three nodes in a row -/

section Concrete

attribute [local instance] asciiCanon

theorem row_ground : Ground row rowPeer "l" rowRouter where
  chain := row_on
  fresh := by
    intro i hi
    match i, hi with
    | 0, _ => exact ⟨by decide, by decide⟩
    | 1, _ => exact ⟨by decide, by decide⟩
    | 2, _ => exact ⟨by decide, by decide⟩

/-- `a` calls a method of `d`. -/
def rowCall : CallArgs Nat := ⟨"l", "d", "files", "stat", .value 7⟩

/-- Out over `b`, the method, and back over `b`. -/
def rowEvents : List (TripEvent Nat Nat) :=
  [.deliver 0 0, .deliver 0 0, .complete 0 (.value (.value 8)), .deliver 0 0, .deliver 0 0]

/-- The call of `a` over `b`. -/
theorem row_round_trip : ∃ s future, Trip.issue rowPeer 0 rowRouter rowCall = some (s, future) ∧
    (trip rowPeer).Always (fun t => t.OnCourse row rowPeer rowCall future) s rowEvents ∧
    (trip rowPeer).Each (Confined row rowCall future) s rowEvents := by
  obtain ⟨s, future, hissue, hrun⟩ :=
    round_trip row rowPeer (a := rowCall) row_ground (by decide) (by decide) (by decide) (by decide)
  refine ⟨s, future, hissue, ?_⟩
  have hquiet : (trip rowPeer).Guarded (Quiet row rowPeer rowCall future) s rowEvents := by
    refine Machine.guarded_of_mem ?_ s
    intro e he t
    rcases e with _ | _ | routers
    · trivial
    · trivial
    · simp [rowEvents] at he
  exact ⟨(hrun _ hquiet).1, (hrun _ hquiet).2.1⟩

end Concrete

end NetPulse.Mesh
