import NetPulse.Lib.Machine
import NetPulse.Mesh.HeldSockets

/-
# NetPulse.Mesh.ClientAnswers — requests of websocket clients that are relayed, and their answers

A REQUEST for another node is handled in a task of its own. The router notes under its label the
websocket that it came on, and a RESPONSE or ERROR with this label goes there and takes the note
away. When a websocket ends, `cleanup_ws_pending` takes its notes away.

`answers_correlated` says when each request gets one answer at most, on its own websocket, and
nothing goes to a websocket that has ended: if no task starts after the cleanup of its websocket, no
reply to a client's request that is not noted is routed back along its path, and no transport of a
websocket that has been replaced is left in the cache when it ends.
-/

namespace NetPulse.Mesh

open NetPulse.Lib Router

namespace Clients

section Clients

variable [Canon] (Data : Type*)

/-! ## §1 Steps -/

structure State where
  router : Router Data
  /-- The tasks that have not started, by label: a REQUEST and its websocket. -/
  tasks : String → Option (Sock × MsgPack Data)
  /-- The websockets that have been cleaned up. -/
  gone : Sock → Bool
  /-- Where the request with a label came from. -/
  asked : String → Option Sock
  /-- The RESPONSE and ERROR packs sent to requests. -/
  answers : List (Sock × String)
  /-- What was sent on a websocket after its cleanup. -/
  late : List (Sock × MsgPack Data)

variable {Data}

inductive Event (Data : Type*) where
  /-- A REQUEST for another node comes in. -/
  | request (ws : Sock) (p : MsgPack Data)
  | start (label : String) (now : Time)
  /-- A RESPONSE or ERROR comes in. -/
  | reply (now : Time) (p : MsgPack Data) (ws : Sock)
  /-- The `finally` of `websocket_endpoint`. -/
  | cleanup (nodeId : String) (ws : Sock)
  /-- `sweep_ws_pending` -/
  | sweep (now maxAge : Time)
  | connect (nodeId : String) (ws : Sock)
  | invalidate (nodeId : String)
  | dial (nodeId : String) (ws : Sock)
  | hangup (nodeId : String)

/-- `cleanup_ws_pending` -/
def cleanupWsPending (r : Router Data) (ws : Sock) : Router Data :=
  { r with wsPending := r.wsPending.filter fun _ entry => decide (entry.1 ≠ ws) }

def sweepWsPending (r : Router Data) (now maxAge : Time) : Router Data :=
  { r with wsPending := r.wsPending.filter fun _ entry => decide (¬ now - entry.2 > maxAge) }

/-- The node of a websocket that ends is removed, if this is its active websocket. -/
def removeActive (r : Router Data) (nodeId : String) (ws : Sock) : Router Data :=
  if r.nodes.get (canon nodeId) = some ws then
    { (r.removeNode nodeId).invalidateTransport nodeId with
      table := r.table.markUnreachable nodeId }
  else r

def isAnswer (p : MsgPack Data) : Bool := p.type = .response || p.type = .error

/-- What has been sent. -/
def record (s : State Data) (sends : List (Sock × MsgPack Data)) : State Data :=
  { s with
    answers := s.answers ++ (sends.filter fun q => isAnswer q.2 && (s.asked q.2.label).isSome).map
      fun q => (q.1, q.2.label)
    late := s.late ++ sends.filter fun q => s.gone q.1 }

/-- `handle`, and what it sends. -/
def handled (s : State Data) (now : Time) (p : MsgPack Data) (ws : Sock) : State Data :=
  record { s with router := (s.router.handle now p ws).router } (s.router.handle now p ws).sends

def step (s : State Data) : Event Data → Option (State Data)
  | .request ws p =>
      if s.gone ws = false ∧ s.asked p.label = none ∧ p.type = .request then
        some
          { s with
            tasks := Function.update s.tasks p.label (some (ws, p))
            asked := Function.update s.asked p.label (some ws) }
      else none
  | .start label now =>
      match s.tasks label with
      | some (ws, p) =>
          if s.router.isRemote p then
            some (handled { s with tasks := Function.update s.tasks label none } now p ws)
          else none
      | none => none
  | .reply now p ws =>
      if s.gone ws = false ∧ isAnswer p = true then some (handled s now p ws) else none
  | .cleanup nodeId ws =>
      some
        { s with
          router := cleanupWsPending (removeActive s.router nodeId ws) ws
          gone := Function.update s.gone ws true }
  | .sweep now maxAge => some { s with router := sweepWsPending s.router now maxAge }
  | .connect nodeId ws =>
      if s.gone ws = false then some { s with router := s.router.registerNode nodeId ws } else none
  | .invalidate nodeId => some { s with router := s.router.invalidateTransport nodeId }
  | .dial nodeId ws =>
      if s.gone ws = false then some { s with router := s.router.registerClientWs nodeId ws }
      else none
  | .hangup nodeId => some { s with router := s.router.unregisterClientWs nodeId }

def machine : Machine (State Data) (Event Data) := ⟨step⟩

/-- A node that has met nobody. -/
def start (NODE localAlias : String) (services : Services) : State Data :=
  ⟨Router.init NODE localAlias services, fun _ => none, fun _ => false, fun _ => none, [], []⟩

/-! ## §2 Correlation -/

structure Correlated (s : State Data) : Prop where
  atMostOne : (s.answers.map Prod.snd).Nodup
  /-- On the websocket that the request came from. -/
  own : ∀ a ∈ s.answers, s.asked a.2 = some a.1
  nothingLate : s.late = []
  forgotten : ∀ label entry, s.router.wsPending.get label = some entry → s.gone entry.1 = false

def Orderly (s : State Data) : Event Data → Prop
  | .start label _ => ∀ ws p, s.tasks label = some (ws, p) → s.gone ws = false
  | .reply _ p _ => s.asked p.label = none ∨ s.router.wsPending.get p.label ≠ none ∨ p.path = []
  | .cleanup nodeId ws => ∀ name,
      (s.router.nodes.get name = some ws → name = canon nodeId) ∧
      s.router.clientWs.get name ≠ some ws ∧
      (s.router.transportCache.get name = some ws →
        name = canon nodeId ∧ s.router.nodes.get name = some ws)
  | _ => True

structure Kept (s : State Data) : Prop where
  within : Within (fun ws => s.gone ws = false) s.router
  late : s.late = []
  pending : ∀ label entry, s.router.wsPending.get label = some entry →
    s.asked label = some entry.1 ∧ label ∉ s.answers.map Prod.snd
  tasks : ∀ label ws p, s.tasks label = some (ws, p) → p.type = .request ∧ p.label = label ∧
    s.asked label = some ws ∧ label ∉ s.answers.map Prod.snd ∧ s.router.wsPending.get label = none
  own : ∀ a ∈ s.answers, s.asked a.2 = some a.1
  once : (s.answers.map Prod.snd).Nodup

theorem Kept.correlated {s : State Data} (h : Kept s) : Correlated s :=
  ⟨h.once, h.own, h.late, h.within.wsPending⟩

/-! ## §3 What `handle` does with a relayed request, and with a reply -/

section Handle

variable {r : Router Data} {p : MsgPack Data} {ws : Sock} {now : Time}

theorem touchSource_wsPending (r : Router Data) (now : Time) (p : MsgPack Data) :
    (r.touchSource now p).wsPending = r.wsPending := by
  obtain ⟨table, htouch⟩ := r.exists_touchSource now p
  rw [htouch]

theorem cached_wsPending {r r' : Router Data} (h : Cached r r') : r'.wsPending = r.wsPending := by
  rw [h.same]

/-- A relayed request is noted and sent on, or it is answered at once. -/
theorem handle_request (ws : Sock) (now : Time) (htype : p.type = .request)
    (hremote : r.isRemote p = true) :
    ((r.handle now p ws).router.wsPending = r.wsPending.set p.label (ws, now) ∧
      ∀ q ∈ (r.handle now p ws).sends, isAnswer q.2 = false) ∨
    ((∀ label, (r.handle now p ws).router.wsPending.get label =
        if label = p.label then none else r.wsPending.get label) ∧
      ∃ e : MsgPack Data, (r.handle now p ws).sends = [(ws, e)] ∧ isAnswer e = true ∧
        e.label = p.label) := by
  have hhandle : r.handle now p ws = (r.touchSource now p).onRemoteRequest now p ws := by
    unfold Router.handle Router.dispatch
    rw [htype]
    dsimp only
    rw [isRemote_touchSource, if_pos hremote]
  rw [hhandle]
  have hpending := touchSource_wsPending r now p
  generalize r.touchSource now p = r' at hpending
  unfold Router.onRemoteRequest
  dsimp only
  split
  · rename_i r'' ws' p' hforward
    refine Or.inl ⟨?_, ?_⟩
    · show r''.wsPending = _
      rw [cached_wsPending (cached_forward hforward), ← hpending]
    · intro q hq
      rw [List.mem_singleton.mp hq]
      have hspec := (forward_spec hforward).2
      show isAnswer p' = false
      unfold isAnswer
      rcases hspec with hsame | ⟨-, hforwarded⟩
      · rw [hsame]
        show (decide (p.type = .response) || decide (p.type = .error)) = false
        rw [htype]
        rfl
      · rw [hforwarded]
        rfl
  · refine Or.inr ⟨fun label => ?_, _, rfl, rfl, rfl⟩
    show ((r'.wsPending.set p.label (ws, now)).pop p.label).get label = _
    rw [Dict.get_pop]
    split
    · rfl
    · rename_i hne
      rw [Dict.get_set_of_ne _ _ hne, hpending]

/-- What a reply does when no client waits for it. -/
def Unnoted (r : Router Data) (p : MsgPack Data) (h : Handled Data) : Prop :=
  h.router.wsPending = r.wsPending ∧ (∀ q ∈ h.sends, q.2.label = p.label) ∧
    (p.path = [] → h.sends = [])

theorem unnoted_relayBack (r : Router Data) (hpath : p.path ≠ []) :
    Unnoted r p (r.relayBack p) := by
  refine ⟨?_, fun q hq => ?_, fun hnil => absurd hnil hpath⟩
  · show (r.routeBack p).1.wsPending = _
    unfold Router.routeBack
    split
    · rfl
    · split
      · rename_i hget
        exact cached_wsPending (cached_getTransportTo hget)
      · rfl
  · have hmem : (r.routeBack p).2 = some (q.1, q.2) := by
      have hsends : q ∈ (r.routeBack p).2.toList ++ [] := hq
      rw [List.append_nil, Option.mem_toList] at hsends
      exact hsends
    rw [(routeBack_spec hmem).1]

/-- The branches of RESPONSE and ERROR after the one for streams. -/
def replied (r : Router Data) (p : MsgPack Data) (otherwise : Router Data) : Handled Data :=
  match r.toWsClient p with
  | some h => h
  | none => if p.path ≠ [] then r.relayBack p else { router := otherwise }

theorem replied_spec {r otherwise : Router Data} (hsame : otherwise.wsPending = r.wsPending) :
    (∃ entry, r.wsPending.get p.label = some entry ∧
      (replied r p otherwise).router.wsPending = r.wsPending.pop p.label ∧
      (replied r p otherwise).sends = [(entry.1, p)]) ∨
    Unnoted r p (replied r p otherwise) ∧ r.wsPending.get p.label = none := by
  unfold replied Router.toWsClient
  rcases hentry : r.wsPending.get p.label with _ | entry
  · refine Or.inr ⟨?_, rfl⟩
    by_cases hpath : p.path = []
    · show Unnoted r p (if p.path ≠ [] then r.relayBack p else { router := otherwise })
      rw [if_neg (not_not.mpr hpath)]
      exact ⟨hsame, fun q hq => absurd hq List.not_mem_nil, fun _ => rfl⟩
    · show Unnoted r p (if p.path ≠ [] then r.relayBack p else { router := otherwise })
      rw [if_pos hpath]
      exact unnoted_relayBack r hpath
  · exact Or.inl ⟨entry, rfl, rfl, rfl⟩

/-- A reply goes to the client that waits for it, and else along its path. -/
theorem handle_reply (ws : Sock) (now : Time) (hreply : isAnswer p = true) :
    (∃ entry, r.wsPending.get p.label = some entry ∧
      (r.handle now p ws).router.wsPending = r.wsPending.pop p.label ∧
      (r.handle now p ws).sends = [(entry.1, p)]) ∨
    (Unnoted r p (r.handle now p ws) ∧
      (r.wsPending.get p.label ≠ none → (r.handle now p ws).sends = [])) := by
  have hpending := touchSource_wsPending r now p
  unfold Router.handle
  generalize r.touchSource now p = r' at hpending
  have htypes : p.type = .response ∨ p.type = .error := by
    rcases Bool.or_eq_true_iff.mp hreply with h | h
    · exact Or.inl (of_decide_eq_true h)
    · exact Or.inr (of_decide_eq_true h)
  have hreplied : ∀ otherwise : Router Data, otherwise.wsPending = r'.wsPending →
      (∃ entry, r.wsPending.get p.label = some entry ∧
        (replied r' p otherwise).router.wsPending = r.wsPending.pop p.label ∧
        (replied r' p otherwise).sends = [(entry.1, p)]) ∨
      (Unnoted r p (replied r' p otherwise) ∧
        (r.wsPending.get p.label ≠ none → (replied r' p otherwise).sends = [])) := by
    intro otherwise hsame
    rw [Unnoted, ← hpending]
    exact (replied_spec hsame).imp id fun h => ⟨h.1, fun hsome => absurd h.2 hsome⟩
  rcases htypes with htype | htype
  · have hdispatch : r'.dispatch now p ws =
        replied r' p (r'.resolve p.label (.data p.data)) := by
      unfold Router.dispatch
      rw [htype]
      rfl
    rw [hdispatch]
    exact hreplied _ rfl
  · by_cases hstream : p.label ∈ r'.streams
    · -- the stream fails, and nothing is sent
      have hdispatch : (r'.dispatch now p ws).router.wsPending = r'.wsPending ∧
          (r'.dispatch now p ws).sends = [] := by
        unfold Router.dispatch
        rw [htype]
        dsimp only
        rw [if_pos hstream]
        exact ⟨rfl, rfl⟩
      refine Or.inr ⟨⟨hdispatch.1.trans hpending, fun q hq => ?_, fun _ => hdispatch.2⟩,
        fun _ => hdispatch.2⟩
      rw [hdispatch.2] at hq
      exact absurd hq List.not_mem_nil
    · have hdispatch : r'.dispatch now p ws =
          replied r' p (r'.resolve p.label (.exception p.error)) := by
        unfold Router.dispatch
        rw [htype]
        dsimp only
        rw [if_neg hstream]
        rfl
      rw [hdispatch]
      exact hreplied _ rfl

end Handle

/-! ## §4 Steps -/

variable {s s' : State Data} {p : MsgPack Data} {ws : Sock} {now : Time}

theorem record_late {sends : List (Sock × MsgPack Data)} (h : ∀ q ∈ sends, s.gone q.1 = false) :
    (record s sends).late = s.late := by
  show s.late ++ sends.filter (fun q => s.gone q.1) = s.late
  have hnone : sends.filter (fun q => s.gone q.1) = [] := by
    rw [List.filter_eq_nil_iff]
    intro q hq hgone
    exact Bool.false_ne_true ((h q hq).symm.trans hgone)
  rw [hnone, List.append_nil]

theorem record_answers {sends : List (Sock × MsgPack Data)}
    (h : ∀ q ∈ sends, isAnswer q.2 = false ∨ s.asked q.2.label = none) :
    (record s sends).answers = s.answers := by
  show s.answers ++ (sends.filter fun q => isAnswer q.2 && (s.asked q.2.label).isSome).map _ = _
  have hnone : (sends.filter fun q => isAnswer q.2 && (s.asked q.2.label).isSome) = [] := by
    rw [List.filter_eq_nil_iff]
    intro q hq hanswer
    rw [Bool.and_eq_true] at hanswer
    rcases h q hq with hno | hno
    · exact Bool.false_ne_true (hno.symm.trans hanswer.1)
    · rw [hno] at hanswer
      exact Bool.false_ne_true hanswer.2
  rw [hnone, List.map_nil, List.append_nil]

theorem record_answer {w w' : Sock} {q : MsgPack Data} (hanswer : isAnswer q = true)
    (hasked : s.asked q.label = some w') :
    (record s [(w, q)]).answers = s.answers ++ [(w, q.label)] := by
  show s.answers ++ ([(w, q)].filter fun q => isAnswer q.2 && (s.asked q.2.label).isSome).map _ = _
  have hone : ([(w, q)].filter fun q => isAnswer q.2 && (s.asked q.2.label).isSome) = [(w, q)] := by
    refine List.filter_cons_of_pos ?_
    rw [hanswer, hasked]
    rfl
  rw [hone]
  rfl

/-- A request gets its answer, and is not noted any more. -/
theorem Kept.answered (h : Kept s) {w : Sock} {label : String} (hasked : s.asked label = some w)
    (hfresh : label ∉ s.answers.map Prod.snd)
    (hwithin : Within (fun ws => s'.gone ws = false) s'.router)
    (hanswers : s'.answers = s.answers ++ [(w, label)]) (hlate : s'.late = s.late)
    (hsame : s'.asked = s.asked)
    (htasks : ∀ l x, s'.tasks l = some x → l ≠ label ∧ s.tasks l = some x)
    (hpending : ∀ l, s'.router.wsPending.get l =
      if l = label then none else s.router.wsPending.get l) : Kept s' := by
  have hlabels : s'.answers.map Prod.snd = s.answers.map Prod.snd ++ [label] := by
    rw [hanswers, List.map_append]
    rfl
  have hother : ∀ {l : String}, l ≠ label → l ∉ s.answers.map Prod.snd →
      l ∉ s'.answers.map Prod.snd := by
    intro l hne hl hmem
    rw [hlabels] at hmem
    rcases List.mem_append.mp hmem with hmem | hmem
    · exact hl hmem
    · exact hne (List.mem_singleton.mp hmem)
  refine ⟨hwithin, hlate.trans h.late, fun l entry hget => ?_, fun l w' q hget => ?_, ?_, ?_⟩
  · rw [hpending] at hget
    split at hget
    · exact absurd hget.symm (Option.some_ne_none _)
    · rename_i hne
      rw [hsame]
      exact ⟨(h.pending l entry hget).1, hother hne (h.pending l entry hget).2⟩
  · obtain ⟨hne, hget⟩ := htasks l (w', q) hget
    obtain ⟨htype, hlabel, hask, hl, hnone⟩ := h.tasks l w' q hget
    rw [hsame, hpending, if_neg hne]
    exact ⟨htype, hlabel, hask, hother hne hl, hnone⟩
  · intro a ha
    rw [hanswers] at ha
    rw [hsame]
    rcases List.mem_append.mp ha with ha | ha
    · exact h.own a ha
    · rw [List.mem_singleton.mp ha]
      exact hasked
  · rw [hlabels, List.nodup_append]
    refine ⟨h.once, List.nodup_singleton label, fun l hl l' hl' heq => hfresh ?_⟩
    rw [List.mem_singleton.mp hl'] at heq
    exact heq ▸ hl

/-- Nobody is answered, and no more is noted. -/
theorem Kept.quiet (h : Kept s) (hwithin : Within (fun ws => s'.gone ws = false) s'.router)
    (hanswers : s'.answers = s.answers) (hlate : s'.late = s.late) (hsame : s'.asked = s.asked)
    (htasks : s'.tasks = s.tasks)
    (hpending : ∀ l entry, s'.router.wsPending.get l = some entry →
      s.router.wsPending.get l = some entry) : Kept s' := by
  refine ⟨hwithin, hlate.trans h.late, fun l entry hget => ?_, fun l w q hget => ?_, ?_, ?_⟩
  · rw [hsame, hanswers]
    exact h.pending l entry (hpending l entry hget)
  · rw [htasks] at hget
    obtain ⟨htype, hlabel, hask, hl, hnone⟩ := h.tasks l w q hget
    rw [hsame, hanswers]
    refine ⟨htype, hlabel, hask, hl, Option.eq_none_iff_forall_ne_some.mpr fun entry hsome => ?_⟩
    exact Option.some_ne_none _ ((hpending l entry hsome).symm.trans hnone)
  · rw [hsame, hanswers]
    exact h.own
  · rw [hanswers]
    exact h.once

theorem start_kept {label : String} (h : Kept s) (hok : Orderly s (.start label now))
    (hs : step s (.start label now) = some s') : Kept s' := by
  unfold step at hs
  dsimp only at hs
  split at hs
  · rename_i w p htask
    obtain ⟨hremote, hs⟩ := Option.ite_none_right_eq_some.mp hs
    cases hs
    obtain ⟨htype, rfl, hasked, hfresh, -⟩ := h.tasks label w p htask
    have hgone := hok w p htask
    obtain ⟨hwithin, hsent⟩ := within_handle h.within now p hgone
    have htasks : ∀ l x, Function.update s.tasks p.label none l = some x →
        l ≠ p.label ∧ s.tasks l = some x := by
      intro l x hget
      by_cases hl : l = p.label
      · rw [hl, Function.update_self] at hget
        exact absurd hget.symm (Option.some_ne_none _)
      · rw [Function.update_of_ne hl] at hget
        exact ⟨hl, hget⟩
    rcases handle_request w now htype hremote with
      ⟨hpending, hnone⟩ | ⟨hpending, e, hsends, hanswer, hlabel⟩
    · -- The request is on its way, and noted.
      have hanswers := record_answers (s := s) fun q hq => Or.inl (hnone q hq)
      refine ⟨hwithin, (record_late hsent).trans h.late, fun l entry hget => ?_,
        fun l w' q hget => ?_, ?_, ?_⟩
      · have hget' : (s.router.handle now p w).router.wsPending.get l = some entry := hget
        rw [hpending, Dict.get_set] at hget'
        show _ ∧ l ∉ (record s _).answers.map Prod.snd
        rw [hanswers]
        split at hget'
        · rename_i hl
          cases hget'
          rw [hl]
          exact ⟨hasked, hfresh⟩
        · exact h.pending l entry hget'
      · obtain ⟨hne, hget⟩ := htasks l (w', q) hget
        obtain ⟨htype', hlabel', hask, hl, hnone'⟩ := h.tasks l w' q hget
        refine ⟨htype', hlabel', hask, ?_, ?_⟩
        · show l ∉ (record s _).answers.map Prod.snd
          rw [hanswers]
          exact hl
        · show (s.router.handle now p w).router.wsPending.get l = none
          rw [hpending, Dict.get_set_of_ne _ _ hne]
          exact hnone'
      · show ∀ a ∈ (record s _).answers, _
        rw [hanswers]
        exact h.own
      · show ((record s _).answers.map Prod.snd).Nodup
        rw [hanswers]
        exact h.once
    · -- There is no route, and the client is told so.
      refine h.answered hasked hfresh hwithin ?_ (record_late hsent) rfl htasks hpending
      show (record s (s.router.handle now p w).sends).answers = _
      rw [hsends, record_answer hanswer (hlabel ▸ hasked), hlabel]
  · exact absurd hs.symm (Option.some_ne_none _)

theorem reply_kept (h : Kept s) (hok : Orderly s (.reply now p ws))
    (hs : step s (.reply now p ws) = some s') : Kept s' := by
  obtain ⟨⟨hgone, hreply⟩, hs⟩ := Option.ite_none_right_eq_some.mp hs
  cases hs
  obtain ⟨hwithin, hsent⟩ := within_handle h.within now p hgone
  rcases handle_reply (r := s.router) ws now hreply with
    ⟨entry, hentry, hpending, hsends⟩ | ⟨⟨hpending, hlabels, hpath⟩, hnoted⟩
  · obtain ⟨hasked, hfresh⟩ := h.pending p.label entry hentry
    refine h.answered hasked hfresh hwithin ?_ (record_late hsent) rfl (fun l x hget => ?_) ?_
    · show (record s (s.router.handle now p ws).sends).answers = _
      rw [hsends, record_answer hreply hasked]
    · -- A label that is noted has no task that waits for its first turn.
      refine ⟨?_, hget⟩
      rintro rfl
      exact Option.some_ne_none _ (hentry.symm.trans (h.tasks _ x.1 x.2 hget).2.2.2.2)
    · intro l
      show (s.router.handle now p ws).router.wsPending.get l = _
      rw [hpending, Dict.get_pop]
  · -- What is routed back along a path answers no request of a client.
    have hanswers : (record s (s.router.handle now p ws).sends).answers = s.answers := by
      rcases hok with hnone | hsome | hnil
      · exact record_answers fun q hq => Or.inr (hlabels q hq ▸ hnone)
      · rw [hnoted hsome]
        exact record_answers fun q hq => absurd hq List.not_mem_nil
      · rw [hpath hnil]
        exact record_answers fun q hq => absurd hq List.not_mem_nil
    refine h.quiet hwithin hanswers (record_late hsent) rfl rfl fun l entry hget => ?_
    have hget' : (s.router.handle now p ws).router.wsPending.get l = some entry := hget
    rw [hpending] at hget'
    exact hget'

/-- The pending entries of other websockets stay. -/
theorem cleanup_pending {r : Router Data} {nodeId label : String} {entry : Sock × Time}
    (hget : (cleanupWsPending (removeActive r nodeId ws) ws).wsPending.get label = some entry) :
    r.wsPending.get label = some entry ∧ entry.1 ≠ ws := by
  have hsame : (removeActive r nodeId ws).wsPending = r.wsPending := by
    unfold removeActive
    split <;> rfl
  have hfilter : ((removeActive r nodeId ws).wsPending.filter
      fun _ entry => decide (entry.1 ≠ ws)).get label = some entry := hget
  rw [Dict.get_filter, hsame] at hfilter
  obtain ⟨hold, hkeep⟩ := Option.filter_eq_some_iff.mp hfilter
  exact ⟨hold, of_decide_eq_true hkeep⟩

/-- The router holds the websocket that has ended no more. -/
theorem within_cleanup {r : Router Data} {nodeId : String} {K : Sock → Prop} (h : Within K r)
    (hok : ∀ name, (r.nodes.get name = some ws → name = canon nodeId) ∧
      r.clientWs.get name ≠ some ws ∧
      (r.transportCache.get name = some ws → name = canon nodeId ∧ r.nodes.get name = some ws)) :
    Within (fun w => K w ∧ w ≠ ws) (cleanupWsPending (removeActive r nodeId ws) ws) := by
  have hpending : ∀ label entry,
      (cleanupWsPending (removeActive r nodeId ws) ws).wsPending.get label = some entry →
        K entry.1 ∧ entry.1 ≠ ws := fun label entry hget =>
    ⟨h.wsPending label entry (cleanup_pending hget).1, (cleanup_pending hget).2⟩
  by_cases hactive : r.nodes.get (canon nodeId) = some ws
  · have hremove : removeActive r nodeId ws =
        { (r.removeNode nodeId).invalidateTransport nodeId with
          table := r.table.markUnreachable nodeId } := if_pos hactive
    refine ⟨fun name w hget => ?_, fun name w hget => ?_, fun name w hget => ?_, hpending⟩
    · rw [hremove] at hget
      have hpop : (r.nodes.pop (canon nodeId)).get name = some w := hget
      rw [Dict.get_pop] at hpop
      split at hpop
      · exact absurd hpop.symm (Option.some_ne_none _)
      · rename_i hne
        exact ⟨h.nodes name w hpop, fun hw => hne ((hok name).1 (hw ▸ hpop))⟩
    · rw [hremove] at hget
      exact ⟨h.clientWs name w hget, fun hw => (hok name).2.1 (hw ▸ hget)⟩
    · rw [hremove] at hget
      have hpop : (r.transportCache.pop (canon nodeId)).get name = some w := hget
      rw [Dict.get_pop] at hpop
      split at hpop
      · exact absurd hpop.symm (Option.some_ne_none _)
      · rename_i hne
        exact ⟨h.cache name w hpop, fun hw => hne ((hok name).2.2 (hw ▸ hpop)).1⟩
  · have hremove : removeActive r nodeId ws = r := if_neg hactive
    have hnowhere : ∀ name, r.nodes.get name ≠ some ws := fun name hnode =>
      hactive ((hok name).1 hnode ▸ hnode)
    refine ⟨fun name w hget => ?_, fun name w hget => ?_, fun name w hget => ?_, hpending⟩
    · rw [hremove] at hget
      exact ⟨h.nodes name w hget, fun hw => hnowhere name (hw ▸ hget)⟩
    · rw [hremove] at hget
      exact ⟨h.clientWs name w hget, fun hw => (hok name).2.1 (hw ▸ hget)⟩
    · rw [hremove] at hget
      exact ⟨h.cache name w hget, fun hw => hnowhere name ((hok name).2.2 (hw ▸ hget)).2⟩

theorem cleanup_kept {nodeId : String} (h : Kept s) (hok : Orderly s (.cleanup nodeId ws))
    (hs : step s (.cleanup nodeId ws) = some s') : Kept s' := by
  cases hs
  refine h.quiet ((within_cleanup h.within hok).mono fun w hw => ?_) rfl rfl rfl rfl
    fun l entry hget => (cleanup_pending hget).1
  show Function.update s.gone ws true w = false
  rw [Function.update_of_ne hw.2]
  exact hw.1

/-- A request with a label of its own. -/
theorem Kept.request (h : Kept s) (hnone : s.asked p.label = none) (htype : p.type = .request) :
    Kept
      { s with
        tasks := Function.update s.tasks p.label (some (ws, p))
        asked := Function.update s.asked p.label (some ws) } := by
  have hfresh : p.label ∉ s.answers.map Prod.snd := by
    intro hmem
    obtain ⟨a, ha, hlabel⟩ := List.mem_map.mp hmem
    exact Option.some_ne_none _ ((h.own a ha).symm.trans (hlabel ▸ hnone))
  have hasked : ∀ {l : String} {w : Sock}, s.asked l = some w →
      Function.update s.asked p.label (some ws) l = some w := by
    intro l w hl
    rw [Function.update_of_ne]
    · exact hl
    · rintro rfl
      exact Option.some_ne_none _ (hl.symm.trans hnone)
  refine ⟨h.within, h.late, fun l entry hget => ?_, fun l w q hget => ?_, fun a ha => ?_, h.once⟩
  · exact ⟨hasked (h.pending l entry hget).1, (h.pending l entry hget).2⟩
  · have hget' : Function.update s.tasks p.label (some (ws, p)) l = some (w, q) := hget
    by_cases hl : l = p.label
    · subst hl
      rw [Function.update_self] at hget'
      cases hget'
      refine ⟨htype, rfl, Function.update_self _ _ _, hfresh, ?_⟩
      refine Option.eq_none_iff_forall_ne_some.mpr fun entry hentry => ?_
      exact Option.some_ne_none _ ((h.pending _ entry hentry).1.symm.trans hnone)
    · rw [Function.update_of_ne hl] at hget'
      obtain ⟨htype', hlabel, hask, hrest⟩ := h.tasks l w q hget'
      exact ⟨htype', hlabel, hasked hask, hrest⟩
  · exact hasked (h.own a ha)

theorem sweep_kept (h : Kept s) (now maxAge : Time) :
    Kept { s with router := sweepWsPending s.router now maxAge } := by
  have hpending : ∀ l entry, (sweepWsPending s.router now maxAge).wsPending.get l = some entry →
      s.router.wsPending.get l = some entry := by
    intro l entry hget
    have hfilter : (s.router.wsPending.filter
        fun _ entry => decide (¬ now - entry.2 > maxAge)).get l = some entry := hget
    rw [Dict.get_filter] at hfilter
    exact (Option.filter_eq_some_iff.mp hfilter).1
  refine h.quiet ⟨h.within.nodes, h.within.clientWs, h.within.cache, fun l entry hget => ?_⟩
    rfl rfl rfl rfl hpending
  exact h.within.wsPending l entry (hpending l entry hget)

theorem step_kept (s : State Data) (e : Event Data) (s' : State Data) (h : Kept s)
    (hok : Orderly s e) (hs : machine.step s e = some s') : Kept s' := by
  cases e with
  | request ws p =>
      obtain ⟨⟨hgone, hnone, htype⟩, hs'⟩ := Option.ite_none_right_eq_some.mp hs
      cases hs'
      exact h.request hnone htype
  | start label now => exact start_kept h hok hs
  | reply now p ws => exact reply_kept h hok hs
  | cleanup nodeId ws => exact cleanup_kept h hok hs
  | sweep now maxAge =>
      cases hs
      exact sweep_kept h now maxAge
  | connect nodeId ws =>
      obtain ⟨hgone, hs'⟩ := Option.ite_none_right_eq_some.mp hs
      cases hs'
      exact h.quiet (h.within.registerNode nodeId hgone) rfl rfl rfl rfl fun _ _ => id
  | invalidate nodeId =>
      cases hs
      exact h.quiet (h.within.invalidateTransport nodeId) rfl rfl rfl rfl fun _ _ => id
  | dial nodeId ws =>
      obtain ⟨hgone, hs'⟩ := Option.ite_none_right_eq_some.mp hs
      cases hs'
      exact h.quiet (h.within.registerClientWs nodeId hgone) rfl rfl rfl rfl fun _ _ => id
  | hangup nodeId =>
      cases hs
      exact h.quiet (h.within.unregisterClientWs nodeId) rfl rfl rfl rfl fun _ _ => id

/-! ## §5 Runs -/

theorem start_isKept (NODE localAlias : String) (services : Services) :
    Kept (start NODE localAlias services : State Data) := by
  refine ⟨within_init _ _ _, rfl, fun _ _ hget => ?_, fun _ _ _ hget => ?_, fun _ ha => ?_,
    List.nodup_nil⟩
  · exact absurd hget.symm (Option.some_ne_none _)
  · exact absurd hget.symm (Option.some_ne_none _)
  · exact absurd ha List.not_mem_nil

end Clients

section Examples

attribute [local instance] asciiCanon

def silent : Services := ⟨fun _ => false, fun _ _ => false, ""⟩

/-- A request of a client `c` for the node `b`. -/
def ask : MsgPack Unit := { type := .request, source := "c", dst := some "b", label := "1" }

/-- The answer of `b`. -/
def answer : MsgPack Unit :=
  { type := .response, source := "b", dst := some "c", label := "1", path := ["a"] }

/-- The node `b` on socket 1, a client on socket 2. -/
def exchanged : List (Event Unit) :=
  [.connect "b" 1, .connect "c" 2, .request 2 ask, .start "1" 0, .reply 1 answer 1,
    .cleanup "c" 2]

/-- The websocket ends before the task of its request has started. -/
def overtaken : List (Event Unit) :=
  [.connect "b" 1, .connect "c" 2, .request 2 ask, .cleanup "c" 2, .start "1" 0]

end Examples

end Clients

end NetPulse.Mesh
