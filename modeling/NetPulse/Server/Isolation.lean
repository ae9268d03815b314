import NetPulse.Server.PostSteps
import Mathlib.Logic.Function.Basic

/-
# NetPulse.Server.Isolation — requests next to one another

All threads of the server share one `Api`. Body, actor and role of a request lie in attributes of it
that are `threading.local`, so that each thread finds its own. The body is an object: a handler can
edit it in place, and the audit row is written from it.

`request_isolation`: in every interleaving, a handler reads the body of its own request, no other
thread touches that body, and the audit row holds it. The row names the actor that the request was
authenticated for as long as the role check, which asks again, finds the same one; a handler that
changes the users in between can make it another (`renamed_actor`).
-/

namespace NetPulse.Gate

open NetPulse.Lib NetPulse.Lib.Json
open NetPulse.Server (Lower)

variable {Num : Type} {β : Type}

/-! ## §1 Threads -/

/-- `Api._request_state`: the body by the thread that read it, actor and role. -/
structure Local where
  body : Option Nat
  actor : Option String
  role : Option String

/-- A request, and the actor that it was authenticated for (`_user`, or that of the receiver). -/
structure Job where
  req : Request
  actor : String

/-- How far the `POST` of a thread has got. -/
inductive Stage where
  | idle
  | admitted (job : Job) (receiver : Bool)
  | received (job : Job) (receiver : Bool)
  | cleared (job : Job) (d : Dispatch)
  | bodyCached (job : Job) (d : Dispatch)
  | actorCached (job : Job) (d : Dispatch)
  | handling (job : Job) (d : Dispatch)
  | finished (job : Job) (d : Dispatch) (status : Nat)
  | audited (job : Job) (d : Dispatch) (status : Nat)
  | closed

structure Thread where
  stage : Stage
  store : Local

/-- `audit_log` -/
structure Row where
  thread : Nat
  user : Option String
  ip : String
  action : String
  status : Nat
  details : String

structure Shared (Num β : Type) where
  cfg : Entries Num
  /-- The bodies, by the thread that read them. -/
  heap : Nat → Option β
  threads : Nat → Thread
  /-- What handlers have read. -/
  views : List (Nat × Option β)
  rows : List Row

def Shared.initial (cfg : Entries Num) : Shared Num β :=
  ⟨cfg, fun _ => none, fun _ => ⟨.idle, ⟨none, none, none⟩⟩, [], []⟩

/-- What a thread does next. -/
inductive Action (Num β : Type) where
  /-- A `GET` on the same connection, which closes behind a `POST` only. -/
  | get (wait : Int) (req : Request)
  | authenticate (wait : Int) (req : Request)
  | receive (incoming : Incoming β)
  | check
  | cacheBody
  | cacheActor
  | cacheRole
  /-- The handler calls `_read_body`. -/
  | look
  /-- The handler edits what it was given. -/
  | edit (f : β → β)
  /-- The handler changes the configuration. -/
  | configure (cfg : Entries Num)
  | finish (status : Nat)
  | audit (saved : Bool)

section Threads

variable [Truth Num] [PyStr Num] [LoginBody β] [Lower]

/-- A `GET` with a credential leaves its actor behind. -/
def visited (w : World) (cfg : Entries Num) (wait : Int) (req : Request) (l : Local) : Local :=
  match getGate w cfg wait req with
  | .ok (.inside ident) =>
      { l with actor := some (actorOf false ident).1, role := some (actorOf false ident).2 }
  | _ => l

def letIn (w : World) (cfg : Entries Num) (wait : Int) (req : Request) : Stage :=
  match postGate w cfg wait req with
  | .ok (.action receiver) => .admitted ⟨req, (actorOf receiver (identity cfg req)).1⟩ receiver
  | _ => .closed

def takeBody (job : Job) (receiver : Bool) : Except Refusal β → Stage
  | .ok _ => .received job receiver
  | .error _ => .closed

def clear (job : Job) : Except Refusal Dispatch → Stage
  | .ok d => .cleared job d
  | .error _ => .closed

/-- The thread after an action, when it can be made. -/
def advance (w : World) (cfg : Entries Num) (t : Nat) (stage : Stage) (l : Local) :
    Action Num β → Option Thread
  | .get wait req =>
      match stage with
      | .idle => some ⟨.idle, visited w cfg wait req l⟩
      | _ => none
  | .authenticate wait req =>
      match stage with
      | .idle => some ⟨letIn w cfg wait req, l⟩
      | _ => none
  | .receive incoming =>
      match stage with
      | .admitted job receiver => some ⟨takeBody job receiver (readBody job.req incoming), l⟩
      | _ => none
  | .check =>
      match stage with
      | .received job receiver => some ⟨clear job (roleCheck cfg job.req receiver), l⟩
      | _ => none
  | .cacheBody =>
      match stage with
      | .cleared job d => some ⟨.bodyCached job d, { l with body := some t }⟩
      | _ => none
  | .cacheActor =>
      match stage with
      | .bodyCached job d => some ⟨.actorCached job d, { l with actor := some d.actor }⟩
      | _ => none
  | .cacheRole =>
      match stage with
      | .actorCached job d => some ⟨.handling job d, { l with role := some d.role }⟩
      | _ => none
  | .look | .edit _ | .configure _ =>
      match stage with
      | .handling job d => some ⟨.handling job d, l⟩
      | _ => none
  | .finish status =>
      match stage with
      | .handling job d => some ⟨.finished job d status, l⟩
      | _ => none
  | .audit _ =>
      match stage with
      | .finished job d status => some ⟨.audited job d status, l⟩
      | _ => none

/-! ## §2 The shared state -/

def cfgAfter (cfg : Entries Num) : Action Num β → Entries Num
  | .configure cfg' => cfg'
  | _ => cfg

def newBody (stage : Stage) (incoming : Incoming β) : Option β :=
  match stage with
  | .admitted job _ => (readBody job.req incoming).toOption
  | _ => none

/-- A body is made when it is read, and edited through the attribute of the thread. -/
def heapAfter (s : Shared Num β) (t : Nat) : Action Num β → Nat → Option β
  | .receive incoming => Function.update s.heap t (newBody (s.threads t).stage incoming)
  | .edit f =>
      match (s.threads t).store.body with
      | some r => Function.update s.heap r ((s.heap r).map f)
      | none => s.heap
  | _ => s.heap

/-- `_read_body` -/
def viewsAfter (s : Shared Num β) (t : Nat) : Action Num β → List (Nat × Option β)
  | .look => (t, (s.threads t).store.body.bind s.heap) :: s.views
  | _ => s.views

/-- The row is made of the attribute for the actor and of the local variable for the body. -/
def rowsAfter (details : β → String) (s : Shared Num β) (t : Nat) : Action Num β → List Row
  | .audit true =>
      match (s.threads t).stage with
      | .finished job _ status =>
          ⟨t, (s.threads t).store.actor, job.req.ip, job.req.endpoint, status,
            (s.heap t).elim "" details⟩ :: s.rows
      | _ => s.rows
  | _ => s.rows

/-- `ThreadingHTTPServer`: the actions of the threads in any order. -/
def threading (w : World) (details : β → String) : Machine (Shared Num β) (Nat × Action Num β) where
  step s e :=
    (advance w s.cfg e.1 (s.threads e.1).stage (s.threads e.1).store e.2).map fun th =>
      { cfg := cfgAfter s.cfg e.2
        heap := heapAfter s e.1 e.2
        threads := Function.update s.threads e.1 th
        views := viewsAfter s e.1 e.2
        rows := rowsAfter details s e.1 e.2 }

end Threads

/-! ## §3 One thread -/

namespace Stage

/-- The attribute for the body has been written. -/
def bodyIn : Stage → Bool
  | bodyCached _ _ | actorCached _ _ | handling _ _ | finished _ _ _ => true
  | _ => false

/-- The attribute for the actor has been written, from this dispatch. -/
def actorIn : Stage → Option Dispatch
  | actorCached _ d | handling _ d | finished _ d _ => some d
  | _ => none

/-- What the role check has let through. -/
def chosen : Stage → Option (Job × Dispatch)
  | cleared job d | bodyCached job d | actorCached job d | handling job d => some (job, d)
  | finished job d _ | audited job d _ => some (job, d)
  | _ => none

/-- There is a body. -/
def hasBody : Stage → Bool
  | received _ _ => true
  | stage => stage.chosen.isSome

end Stage

/-- A thread has a body as soon as it needs one, and finds its own body and its own actor. -/
structure Fine (t : Nat) (b : Option β) (stage : Stage) (l : Local) : Prop where
  present : stage.hasBody = true → b.isSome = true
  body : stage.bodyIn = true → l.body = some t
  actor : ∀ d, stage.actorIn = some d → l.actor = some d.actor

/-- What a thread does to its own body. -/
def ownBody [LoginBody β] (stage : Stage) (b : Option β) : Action Num β → Option β
  | .receive incoming => newBody stage incoming
  | .edit f => b.map f
  | _ => b

section OneThread

variable [Truth Num] [PyStr Num] [LoginBody β] [Lower] {w : World} {cfg : Entries Num} {t : Nat}
  {a : Action Num β} {stage : Stage} {l : Local} {th : Thread} {b : Option β}

omit [LoginBody β] in
theorem letIn_cases (w : World) (cfg : Entries Num) (wait : Int) (req : Request) :
    letIn w cfg wait req = .closed ∨ ∃ receiver, letIn w cfg wait req =
      .admitted ⟨req, (actorOf receiver (identity cfg req)).1⟩ receiver := by
  unfold letIn
  split
  · exact Or.inr ⟨_, rfl⟩
  · exact Or.inl rfl

omit [LoginBody β] [Lower] in
theorem takeBody_cases (job : Job) (receiver : Bool) (outcome : Except Refusal β) :
    takeBody job receiver outcome = .closed ∨
      takeBody job receiver outcome = .received job receiver ∧ outcome.toOption.isSome = true := by
  cases outcome with
  | error r => exact Or.inl rfl
  | ok body => exact Or.inr ⟨rfl, rfl⟩

omit [Lower] in
theorem clear_cases (job : Job) (outcome : Except Refusal Dispatch) :
    clear job outcome = .closed ∨ ∃ d, clear job outcome = .cleared job d ∧ outcome = .ok d := by
  cases outcome with
  | error r => exact Or.inl rfl
  | ok d => exact Or.inr ⟨d, rfl, rfl⟩

/-- **What a thread can do**, with the stage in which it can. -/
theorem advance_cases (h : advance w cfg t stage l a = some th) :
    (∃ wait req, a = .get wait req ∧ stage = .idle ∧ th = ⟨.idle, visited w cfg wait req l⟩) ∨
    (∃ wait req, a = .authenticate wait req ∧ stage = .idle ∧ th = ⟨letIn w cfg wait req, l⟩) ∨
    (∃ incoming job receiver, a = .receive incoming ∧ stage = .admitted job receiver ∧
      th = ⟨takeBody job receiver (readBody job.req incoming), l⟩) ∨
    (∃ job receiver, a = .check ∧ stage = .received job receiver ∧
      th = ⟨clear job (roleCheck cfg job.req receiver), l⟩) ∨
    (∃ job d, a = .cacheBody ∧ stage = .cleared job d ∧
      th = ⟨.bodyCached job d, { l with body := some t }⟩) ∨
    (∃ job d, a = .cacheActor ∧ stage = .bodyCached job d ∧
      th = ⟨.actorCached job d, { l with actor := some d.actor }⟩) ∨
    (∃ job d, a = .cacheRole ∧ stage = .actorCached job d ∧
      th = ⟨.handling job d, { l with role := some d.role }⟩) ∨
    (∃ job d, (a = .look ∨ (∃ f, a = .edit f) ∨ ∃ cfg', a = .configure cfg') ∧
      stage = .handling job d ∧ th = ⟨.handling job d, l⟩) ∨
    (∃ status job d, a = .finish status ∧ stage = .handling job d ∧
      th = ⟨.finished job d status, l⟩) ∨
    ∃ saved job d status, a = .audit saved ∧ stage = .finished job d status ∧
      th = ⟨.audited job d status, l⟩ := by
  cases a with
  | get wait req =>
      cases stage with
      | idle =>
          exact Or.inl ⟨wait, req, rfl, rfl, (Option.some.inj h).symm⟩
      | _ => cases h
  | authenticate wait req =>
      cases stage with
      | idle =>
          apply Or.inr
          exact Or.inl ⟨wait, req, rfl, rfl, (Option.some.inj h).symm⟩
      | _ => cases h
  | receive incoming =>
      cases stage with
      | admitted job receiver =>
          iterate 2 apply Or.inr
          exact Or.inl ⟨incoming, job, receiver, rfl, rfl, (Option.some.inj h).symm⟩
      | _ => cases h
  | check =>
      cases stage with
      | received job receiver =>
          iterate 3 apply Or.inr
          exact Or.inl ⟨job, receiver, rfl, rfl, (Option.some.inj h).symm⟩
      | _ => cases h
  | cacheBody =>
      cases stage with
      | cleared job d =>
          iterate 4 apply Or.inr
          exact Or.inl ⟨job, d, rfl, rfl, (Option.some.inj h).symm⟩
      | _ => cases h
  | cacheActor =>
      cases stage with
      | bodyCached job d =>
          iterate 5 apply Or.inr
          exact Or.inl ⟨job, d, rfl, rfl, (Option.some.inj h).symm⟩
      | _ => cases h
  | cacheRole =>
      cases stage with
      | actorCached job d =>
          iterate 6 apply Or.inr
          exact Or.inl ⟨job, d, rfl, rfl, (Option.some.inj h).symm⟩
      | _ => cases h
  | look =>
      cases stage with
      | handling job d =>
          iterate 7 apply Or.inr
          exact Or.inl ⟨job, d, Or.inl rfl, rfl, (Option.some.inj h).symm⟩
      | _ => cases h
  | edit f =>
      cases stage with
      | handling job d =>
          iterate 7 apply Or.inr
          exact Or.inl ⟨job, d, Or.inr (Or.inl ⟨f, rfl⟩), rfl, (Option.some.inj h).symm⟩
      | _ => cases h
  | configure cfg' =>
      cases stage with
      | handling job d =>
          iterate 7 apply Or.inr
          exact Or.inl ⟨job, d, Or.inr (Or.inr ⟨cfg', rfl⟩), rfl, (Option.some.inj h).symm⟩
      | _ => cases h
  | finish status =>
      cases stage with
      | handling job d =>
          iterate 8 apply Or.inr
          exact Or.inl ⟨status, job, d, rfl, rfl, (Option.some.inj h).symm⟩
      | _ => cases h
  | audit saved =>
      cases stage with
      | finished job d status =>
          iterate 9 apply Or.inr
          exact ⟨saved, job, d, status, rfl, rfl, (Option.some.inj h).symm⟩
      | _ => cases h

omit [LoginBody β] [Lower] in
theorem fine_of_before (t : Nat) (hpresent : stage.hasBody = true → b.isSome = true)
    (hbody : stage.bodyIn = false) (hactor : stage.actorIn = none) : Fine t b stage l where
  present := hpresent
  body h := by
    rw [hbody] at h
    cases h
  actor d h := by
    rw [hactor] at h
    cases h

/-- **An action keeps what a thread finds.** -/
theorem Fine.advance (h : Fine t b stage l) (ha : advance w cfg t stage l a = some th) :
    Fine t (ownBody stage b a) th.stage th.store := by
  rcases advance_cases ha with ⟨wait, req, rfl, rfl, rfl⟩ | ⟨wait, req, rfl, rfl, rfl⟩ |
    ⟨incoming, job, receiver, rfl, rfl, rfl⟩ | ⟨job, receiver, rfl, rfl, rfl⟩ |
    ⟨job, d, rfl, rfl, rfl⟩ | ⟨job, d, rfl, rfl, rfl⟩ | ⟨job, d, rfl, rfl, rfl⟩ |
    ⟨job, d, hquiet, rfl, rfl⟩ | ⟨status, job, d, rfl, rfl, rfl⟩ | ⟨saved, job, d, status, rfl, rfl, rfl⟩
  · exact fine_of_before t (fun h => by cases h) rfl rfl
  · rcases letIn_cases w cfg wait req with hgate | ⟨receiver, hgate⟩
    · rw [hgate]
      exact fine_of_before t (fun h => by cases h) rfl rfl
    · rw [hgate]
      exact fine_of_before t (fun h => by cases h) rfl rfl
  · rcases takeBody_cases job receiver (readBody job.req incoming) with htake | ⟨htake, hsome⟩
    · rw [htake]
      exact fine_of_before t (fun h => by cases h) rfl rfl
    · rw [htake]
      exact fine_of_before t (fun _ => hsome) rfl rfl
  · rcases clear_cases job (roleCheck cfg job.req receiver) with hclear | ⟨d, hclear, -⟩
    · rw [hclear]
      exact fine_of_before t (fun h => by cases h) rfl rfl
    · rw [hclear]
      exact fine_of_before t (fun _ => h.present rfl) rfl rfl
  · exact ⟨fun _ => h.present rfl, fun _ => rfl, fun d h => by cases h⟩
  · exact ⟨fun _ => h.present rfl, fun _ => h.body rfl, fun d h => by cases h; rfl⟩
  · exact ⟨fun _ => h.present rfl, fun _ => h.body rfl,
      fun d hd => by cases hd; exact h.actor _ rfl⟩
  · refine ⟨fun _ => ?_, h.body, h.actor⟩
    rcases hquiet with rfl | ⟨f, rfl⟩ | ⟨cfg', rfl⟩
    · exact h.present rfl
    · rw [ownBody, Option.isSome_map]
      exact h.present rfl
    · exact h.present rfl
  · exact ⟨fun _ => h.present rfl, fun _ => h.body rfl,
      fun d hd => by cases hd; exact h.actor _ rfl⟩
  · exact fine_of_before t (fun _ => h.present rfl) rfl rfl

end OneThread

/-! ## §4 All threads -/

section AllThreads

variable [Truth Num] [PyStr Num] [LoginBody β] [Lower] {w : World} {details : β → String}
  {s s' : Shared Num β} {e : Nat × Action Num β}

/-- Each thread finds its own. -/
def Sound (s : Shared Num β) : Prop :=
  ∀ t, Fine t (s.heap t) (s.threads t).stage (s.threads t).store

theorem threading_step (h : (threading w details).step s e = some s') :
    ∃ th, advance w s.cfg e.1 (s.threads e.1).stage (s.threads e.1).store e.2 = some th ∧
      s' = { cfg := cfgAfter s.cfg e.2
             heap := heapAfter s e.1 e.2
             threads := Function.update s.threads e.1 th
             views := viewsAfter s e.1 e.2
             rows := rowsAfter details s e.1 e.2 } := by
  obtain ⟨th, hth, hs'⟩ := Option.map_eq_some_iff.mp h
  exact ⟨th, hth, hs'.symm⟩

omit [Truth Num] [PyStr Num] [Lower] in
/-- **A body is its own thread's affair**: the attribute leads to it. -/
theorem heapAfter_eq {t : Nat} {a : Action Num β}
    (h : ∀ f, a = .edit f → (s.threads t).store.body = some t) :
    heapAfter s t a = Function.update s.heap t (ownBody (s.threads t).stage (s.heap t) a) := by
  cases a with
  | edit f =>
      simp only [heapAfter, h f rfl]
      rfl
  | receive incoming => rfl
  | _ => exact (Function.update_eq_self t s.heap).symm

/-- A handler that edits a body has its attribute written. -/
theorem bodyIn_of_edit {t : Nat} {stage : Stage} {l : Local} {th : Thread} {f : β → β}
    {cfg : Entries Num} (h : advance w cfg t stage l (.edit f) = some th) :
    stage.bodyIn = true := by
  cases stage with
  | handling job d => rfl
  | _ => cases h

theorem bodyIn_of_look {t : Nat} {stage : Stage} {l : Local} {th : Thread} {cfg : Entries Num}
    (h : advance w cfg t stage l (.look : Action Num β) = some th) :
    stage.bodyIn = true := by
  cases stage with
  | handling job d => rfl
  | _ => cases h

theorem Sound.heapAfter (h : Sound s) {th : Thread}
    (ha : advance w s.cfg e.1 (s.threads e.1).stage (s.threads e.1).store e.2 = some th) :
    heapAfter s e.1 e.2 =
      Function.update s.heap e.1 (ownBody (s.threads e.1).stage (s.heap e.1) e.2) := by
  apply heapAfter_eq
  intro f hf
  rw [hf] at ha
  exact (h e.1).body (bodyIn_of_edit ha)

/-- **Step lemma.** Each thread still finds its own. -/
theorem Sound.step (h : Sound s) (hs : (threading w details).step s e = some s') : Sound s' := by
  obtain ⟨th, hth, rfl⟩ := threading_step hs
  intro u
  dsimp only
  rw [h.heapAfter hth]
  by_cases hu : u = e.1
  · rw [hu, Function.update_self, Function.update_self]
    exact (h e.1).advance hth
  · rw [Function.update_of_ne hu, Function.update_of_ne hu]
    exact h u

omit [Truth Num] [PyStr Num] [LoginBody β] [Lower] in
theorem sound_initial (cfg : Entries Num) : Sound (Shared.initial cfg : Shared Num β) := by
  intro t
  exact fine_of_before t (fun h => by cases h) rfl rfl

/-! ## §5 Requests apart -/

/-- A handler that reads its own body. -/
def ownViews (s : Shared Num β) (t : Nat) : Action Num β → List (Nat × Option β)
  | .look => (t, s.heap t) :: s.views
  | _ => s.views

/-- A row about the thread's own request, and an actor that is taken from it. -/
def rowsBy (details : β → String) (who : Job → Dispatch → String) (s : Shared Num β) (t : Nat) :
    Action Num β → List Row
  | .audit true =>
      match (s.threads t).stage with
      | .finished job d status =>
          ⟨t, some (who job d), job.req.ip, job.req.endpoint, status,
            (s.heap t).elim "" details⟩ :: s.rows
      | _ => s.rows
  | _ => s.rows

/-- **A step of a thread that shares nothing with the others**: only its own body changes, its
handler reads that, and its row holds it, with the actor that its own role check has found. -/
structure Apart (details : β → String) (s : Shared Num β) (e : Nat × Action Num β)
    (s' : Shared Num β) : Prop where
  heap : s'.heap =
    Function.update s.heap e.1 (ownBody (s.threads e.1).stage (s.heap e.1) e.2)
  present : (s.threads e.1).stage.hasBody = true → (s.heap e.1).isSome = true
  views : s'.views = ownViews s e.1 e.2
  rows : s'.rows = rowsBy details (fun _ d => d.actor) s e.1 e.2

/-- The row names the actor that the request was authenticated for. -/
def Named (details : β → String) (s : Shared Num β) (e : Nat × Action Num β)
    (s' : Shared Num β) : Prop :=
  s'.rows = rowsBy details (fun job _ => job.actor) s e.1 e.2

theorem Sound.views (h : Sound s) (hs : (threading w details).step s e = some s') :
    s'.views = ownViews s e.1 e.2 := by
  obtain ⟨th, hth, rfl⟩ := threading_step hs
  obtain ⟨t, a⟩ := e
  dsimp only at hth ⊢
  cases a with
  | look =>
      simp only [viewsAfter, ownViews, (h t).body (bodyIn_of_look hth), Option.bind_some]
  | _ => rfl

theorem Sound.rows (h : Sound s) (hs : (threading w details).step s e = some s') :
    s'.rows = rowsBy details (fun _ d => d.actor) s e.1 e.2 := by
  obtain ⟨th, hth, rfl⟩ := threading_step hs
  obtain ⟨t, a⟩ := e
  dsimp only at hth ⊢
  cases a with
  | audit saved =>
      cases saved with
      | false => rfl
      | true =>
          have hfine := h t
          simp only [rowsAfter, rowsBy]
          cases hstage : (s.threads t).stage with
          | finished job d status =>
              rw [hstage] at hfine
              rw [hfine.actor d rfl]
          | _ => rfl
  | _ => rfl

/-- **Step lemma.** Whatever the other threads do, a thread shares nothing. -/
theorem Sound.apart (h : Sound s) (hs : (threading w details).step s e = some s') :
    Apart details s e s' where
  heap := by
    obtain ⟨th, hth, rfl⟩ := threading_step hs
    exact h.heapAfter hth
  present := (h e.1).present
  views := h.views hs
  rows := h.rows hs

/-! ## §6 The actor -/

/-- The role check finds the actor that the request was authenticated for. -/
def SameActor (s : Shared Num β) (e : Nat × Action Num β) : Prop :=
  match e.2, (s.threads e.1).stage with
  | .check, .received job receiver => (actorOf receiver (identity s.cfg job.req)).1 = job.actor
  | _, _ => True

def Same (s : Shared Num β) : Prop :=
  ∀ t job d, (s.threads t).stage.chosen = some (job, d) → d.actor = job.actor

omit [LoginBody β] [Lower] in
theorem roleCheck_actor {cfg : Entries Num} {req : Request} {receiver : Bool} {d : Dispatch}
    (h : roleCheck cfg req receiver = .ok d) : d.actor = (actorOf receiver (identity cfg req)).1 := by
  simp only [roleCheck, bind_eq_ok] at h
  obtain ⟨handler, -, -, -, hd⟩ := h
  cases hd
  rfl

/-- A dispatch comes from the role check, and stays. -/
theorem chosen_of_advance {cfg : Entries Num} {t : Nat} {a : Action Num β} {stage : Stage}
    {l : Local} {th : Thread} {job : Job} {d : Dispatch}
    (ha : advance w cfg t stage l a = some th) (h : th.stage.chosen = some (job, d)) :
    stage.chosen = some (job, d) ∨ ∃ receiver, a = .check ∧ stage = .received job receiver ∧
      roleCheck cfg job.req receiver = .ok d := by
  rcases advance_cases ha with ⟨wait, req, rfl, rfl, rfl⟩ | ⟨wait, req, rfl, rfl, rfl⟩ |
    ⟨incoming, job', receiver, rfl, rfl, rfl⟩ | ⟨job', receiver, rfl, rfl, rfl⟩ |
    ⟨job', d', rfl, rfl, rfl⟩ | ⟨job', d', rfl, rfl, rfl⟩ | ⟨job', d', rfl, rfl, rfl⟩ |
    ⟨job', d', -, rfl, rfl⟩ | ⟨status, job', d', rfl, rfl, rfl⟩ |
    ⟨saved, job', d', status, rfl, rfl, rfl⟩
  · cases h
  · rcases letIn_cases w cfg wait req with hgate | ⟨receiver, hgate⟩
    · rw [hgate] at h
      cases h
    · rw [hgate] at h
      cases h
  · rcases takeBody_cases job' receiver (readBody job'.req incoming) with htake | ⟨htake, -⟩
    · rw [htake] at h
      cases h
    · rw [htake] at h
      cases h
  · rcases clear_cases job' (roleCheck cfg job'.req receiver) with hclear | ⟨d', hclear, hcheck⟩
    · rw [hclear] at h
      cases h
    · rw [hclear] at h
      cases h
      exact Or.inr ⟨receiver, rfl, rfl, hcheck⟩
  · exact Or.inl h
  · exact Or.inl h
  · exact Or.inl h
  · exact Or.inl h
  · exact Or.inl h
  · exact Or.inl h

/-- **Step lemma.** The actor stays the one that the request was authenticated for. -/
theorem Same.step (h : Same s) (hok : SameActor s e)
    (hs : (threading w details).step s e = some s') : Same s' := by
  obtain ⟨th, hth, rfl⟩ := threading_step hs
  intro u job d hchosen
  dsimp only at hchosen
  by_cases hu : u = e.1
  · rw [hu, Function.update_self] at hchosen
    rcases chosen_of_advance hth hchosen with hbefore | ⟨receiver, hcheck, hstage, hrole⟩
    · exact h e.1 job d hbefore
    · rw [roleCheck_actor hrole]
      simp only [SameActor, hcheck, hstage] at hok
      exact hok
  · rw [Function.update_of_ne hu] at hchosen
    exact h u job d hchosen

omit [Truth Num] [PyStr Num] [LoginBody β] [Lower] in
theorem rowsBy_congr {who who' : Job → Dispatch → String} {t : Nat} {a : Action Num β}
    (h : ∀ job d, (s.threads t).stage.chosen = some (job, d) → who job d = who' job d) :
    rowsBy details who s t a = rowsBy details who' s t a := by
  cases a with
  | audit saved =>
      cases saved with
      | false => rfl
      | true =>
          simp only [rowsBy]
          cases hstage : (s.threads t).stage with
          | finished job d status =>
              rw [hstage] at h
              dsimp only
              rw [h job d rfl]
          | _ => rfl
  | _ => rfl

/-- **Requests stay apart**, in every interleaving: the handler reads the body of its own request,
nobody else touches it, and the audit row holds it. When each role check finds the actor that the
request was authenticated for, the audit row names that one. -/
theorem request_isolation (w : World) (details : β → String) (cfg : Entries Num)
    (events : List (Nat × Action Num β)) :
    (threading w details).Each (Apart details) (.initial cfg) events ∧
      ((threading w details).Guarded SameActor (.initial cfg) events →
        (threading w details).Each (Named details) (.initial cfg) events) := by
  have hsound : ∀ (s : Shared Num β) e s', Sound s →
      (threading w details).step s e = some s' → Sound s' := fun s e s' h hs => h.step hs
  have hstart : Sound (.initial cfg : Shared Num β) := sound_initial cfg
  constructor
  · exact Machine.each_of_guarded (fun s e s' h _ hs => h.apart hs)
      (fun s e s' h (_ : True) hs => hsound s e s' h hs) hstart
      (Machine.guarded_of_forall (fun _ _ => trivial) _ events)
  · intro hguard
    have hsame : ∀ (s : Shared Num β) e s', Sound s ∧ Same s → SameActor s e →
        (threading w details).step s e = some s' → Sound s' ∧ Same s' :=
      fun s e s' h hok hs => ⟨hsound s e s' h.1 hs, h.2.step hok hs⟩
    refine Machine.each_of_guarded (fun s e s' h _ hs => ?_) hsame
      ⟨hstart, fun t job d h => by cases h⟩ hguard
    calc s'.rows = rowsBy details (fun _ d => d.actor) s e.1 e.2 := h.1.rows hs
      _ = rowsBy details (fun job _ => job.actor) s e.1 e.2 := rowsBy_congr (h.2 e.1)

end AllThreads

/-! ## §7 Users who change between two requests -/

section Concrete

attribute [local instance] NetPulse.Server.asciiLower intPyStr tokenBody

def acker : Json Int := .obj [("name", .str "bob"), ("token", .str "pass"), ("role", .str "operator")]

/-- The operator's request waits behind its body for the settings of the administrator. -/
def overtaken (users : List (Json Int)) : List (Nat × Action Int Text) :=
  [(0, .authenticate 0 (jsonPost "pass" "alertsack")), (0, .receive (.object [])),
    (1, .authenticate 0 (jsonPost "admin" "settings")), (1, .receive (.object [])), (1, .check),
    (1, .cacheBody), (1, .cacheActor), (1, .cacheRole), (1, .look),
    (1, .configure (viewerConfig users)), (0, .check), (0, .cacheBody), (0, .cacheActor),
    (0, .cacheRole), (0, .look), (0, .finish 200), (0, .audit true)]

/-- **The audit row of the operator names another one.** -/
theorem renamed_actor : ∃ s job d,
    (threading plainWorld (fun _ => "")).run (.initial (viewerConfig [acker])) (overtaken []) =
      some s ∧ (s.threads 0).stage = .audited job d 200 ∧ job.actor = "bob" ∧
      s.rows = [⟨0, some "admin", "10.0.0.5", "alertsack", 200, ""⟩] :=
  ⟨_, _, _, rfl, rfl, rfl, rfl⟩

/-- The row names the operator when the account stays. -/
theorem operator_named :
    (threading plainWorld (fun _ => "")).Each (Named fun _ => "")
      (.initial (viewerConfig [acker])) (overtaken [acker]) := by
  apply (request_isolation _ _ _ _).2
  -- the settings leave the users, so that both role checks find whom they found before
  iterate 4 refine Machine.guarded_cons rfl trivial ?_
  refine Machine.guarded_cons rfl rfl ?_
  iterate 5 refine Machine.guarded_cons rfl trivial ?_
  refine Machine.guarded_cons rfl rfl ?_
  iterate 6 refine Machine.guarded_cons rfl trivial ?_
  trivial

end Concrete

end NetPulse.Gate
