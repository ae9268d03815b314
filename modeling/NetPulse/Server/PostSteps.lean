import NetPulse.Server.Gate
import NetPulse.Lib.Machine

/-
# NetPulse.Server.PostSteps — one `POST` while the configuration changes

`do_POST` asks for the identity twice: before it reads the body, and for the role check behind it.
A body may take long to arrive, and the configuration can change at any point. When there is no
identity any more at the role check, the request goes on, for the actor and the role `admin`.

`dispatch_allowed`: a handler only runs for somebody who may do this at that moment, in every run
where the role check still finds an identity (or the accepted bearer of the receiver), and where no
change between the role check and the dispatch takes the right away. `revoked_viewer_acts` is a run
where a viewer loses the account in the meantime and blocks an address as administrator.
-/

namespace NetPulse.Gate

open NetPulse.Lib NetPulse.Lib.Json
open NetPulse.Server (Lower)

variable {Num : Type} {β : Type}

/-! ## §1 The steps -/

/-- How far the request has got. -/
inductive Phase (β : Type) where
  | arrived
  | admitted (access : Access)
  | read (access : Access) (body : β)
  | checked (d : Dispatch) (body : β)
  | running (d : Dispatch) (body : β)
  /-- Answered without a handler. -/
  | over

structure Handling (Num β : Type) where
  cfg : Entries Num
  phase : Phase β

inductive PostEvent (Num β : Type) where
  /-- Somebody changes the configuration. -/
  | change (cfg : Entries Num)
  /-- All up to the body, with the seconds that a block has left. -/
  | authenticate (wait : Int)
  | receive (incoming : Incoming β)
  | check
  | dispatch

section Steps

variable [Truth Num] [PyStr Num] [LoginBody β]

/-- A refusal ends the request. -/
def orOver {α : Type} (outcome : Except Refusal α) (next : α → Phase β) : Phase β :=
  match outcome with
  | .error _ => .over
  | .ok a => next a

/-- What follows the body: a login is answered, anything else goes to the role check. -/
def checkPhase (cfg : Entries Num) (req : Request) (body : β) : Access → Phase β
  | .login => .over
  | .action receiver => orOver (roleCheck cfg req receiver) fun d => .checked d body

variable [Lower]

/-- `do_POST` for one request, step by step. -/
def poster (w : World) (req : Request) : Machine (Handling Num β) (PostEvent Num β) where
  step s
    | .change cfg => some { s with cfg := cfg }
    | .authenticate wait =>
        match s.phase with
        | .arrived => some { s with phase := orOver (postGate w s.cfg wait req) .admitted }
        | _ => none
    | .receive incoming =>
        match s.phase with
        | .admitted access =>
            some { s with phase := orOver (readBody req incoming) fun body => .read access body }
        | _ => none
    | .check =>
        match s.phase with
        | .read access body => some { s with phase := checkPhase s.cfg req body access }
        | _ => none
    | .dispatch =>
        match s.phase with
        | .checked d body => some { s with phase := .running d body }
        | _ => none

/-- **What a step does**, with the phase in which it can be made. -/
theorem poster_step {w : World} {req : Request} {s s' : Handling Num β} {e : PostEvent Num β}
    (h : (poster w req).step s e = some s') :
    (∃ cfg, e = .change cfg ∧ s' = { s with cfg := cfg }) ∨
    (∃ wait, e = .authenticate wait ∧ s.phase = .arrived ∧
      s' = { s with phase := orOver (postGate w s.cfg wait req) .admitted }) ∨
    (∃ incoming access, e = .receive incoming ∧ s.phase = .admitted access ∧
      s' = { s with phase := orOver (readBody req incoming) fun body => .read access body }) ∨
    (∃ access body, e = .check ∧ s.phase = .read access body ∧
      s' = { s with phase := checkPhase s.cfg req body access }) ∨
    ∃ d body, e = .dispatch ∧ s.phase = .checked d body ∧ s' = { s with phase := .running d body } := by
  obtain ⟨cfg, phase⟩ := s
  cases e with
  | change cfg' =>
      cases h
      exact Or.inl ⟨cfg', rfl, rfl⟩
  | authenticate wait =>
      cases phase <;> cases h
      exact Or.inr (Or.inl ⟨wait, rfl, rfl, rfl⟩)
  | receive incoming =>
      cases phase <;> cases h
      exact Or.inr (Or.inr (Or.inl ⟨incoming, _, rfl, rfl, rfl⟩))
  | check =>
      cases phase <;> cases h
      exact Or.inr (Or.inr (Or.inr (Or.inl ⟨_, _, rfl, rfl, rfl⟩)))
  | dispatch =>
      cases phase <;> cases h
      exact Or.inr (Or.inr (Or.inr (Or.inr ⟨_, _, rfl, rfl, rfl⟩)))

omit [LoginBody β] [Lower] in
theorem orOver_eq {α : Type} {outcome : Except Refusal α} {next : α → Phase β} {p : Phase β}
    (h : orOver outcome next = p) : p = .over ∨ ∃ a, outcome = .ok a ∧ next a = p := by
  cases outcome with
  | error r => exact Or.inl h.symm
  | ok a => exact Or.inr ⟨a, rfl, h⟩

omit [LoginBody β] [Lower] in
/-- A request that is checked has passed the role check. -/
theorem roleCheck_of_checked {cfg : Entries Num} {req : Request} {body body' : β} {access : Access}
    {d : Dispatch} (h : checkPhase cfg req body access = .checked d body') :
    ∃ receiver, roleCheck cfg req receiver = .ok d := by
  cases access with
  | login => cases h
  | action receiver =>
      rw [checkPhase] at h
      rcases orOver_eq h with hover | ⟨d', hd, hphase⟩
      · cases hover
      · cases hphase
        exact ⟨receiver, hd⟩

/-! ## §2 Who may act -/

/-- The configuration gives the request the right to its action: an administrator, an operator for
whom it is allowed, or the receiver at its own endpoint. -/
def Allowed (w : World) (cfg : Entries Num) (req : Request) : Prop :=
  (∃ ident, identity cfg req = some ident ∧ mayAct ident.2 req.endpoint = true) ∨
    isReceiver req = true ∧ receiverAuthed w cfg req = some true

/-- A handler runs for somebody who may do this at that moment. -/
def DispatchAllowed (w : World) (req : Request) (s : Handling Num β) (e : PostEvent Num β)
    (_ : Handling Num β) : Prop :=
  match e with
  | .dispatch => Allowed w s.cfg req
  | _ => True

/-- At the role check there still is an identity or an accepted bearer, and a change right behind it
leaves the right to act. -/
def KeepsRight (w : World) (req : Request) (s : Handling Num β) (e : PostEvent Num β) : Prop :=
  match e, s.phase with
  | .check, .read _ _ => (identity s.cfg req).isSome = true ∨
      isReceiver req = true ∧ receiverAuthed w s.cfg req = some true
  | .change cfg, .checked _ _ => Allowed w cfg req
  | _, _ => True

/-- Behind the role check the request has the right to act. -/
def Cleared (w : World) (req : Request) (s : Handling Num β) : Prop :=
  ∀ d body, s.phase = .checked d body → Allowed w s.cfg req

omit [LoginBody β] [Lower] in
/-- **What the role check has seen** of a request that passes it. -/
theorem allowed_of_roleCheck {w : World} {cfg : Entries Num} {req : Request} {receiver : Bool}
    {d : Dispatch} (h : roleCheck cfg req receiver = .ok d)
    (hright : (identity cfg req).isSome = true ∨
      isReceiver req = true ∧ receiverAuthed w cfg req = some true) : Allowed w cfg req := by
  simp only [roleCheck, bind_eq_ok, refuseUnless_eq_ok] at h
  obtain ⟨-, -, -, hmay, -⟩ := h
  rcases hright with hsome | hreceiver
  · obtain ⟨ident, hident⟩ := Option.isSome_iff_exists.mp hsome
    exact Or.inl ⟨ident, hident, hmay ident hident⟩
  · exact Or.inr hreceiver

/-- Whoever is cleared after a step was so by the role check, or by the guard on a change. -/
theorem cleared_of_step {w : World} {req : Request} {s s' : Handling Num β} {e : PostEvent Num β}
    (hok : KeepsRight w req s e) (hs : (poster w req).step s e = some s') : Cleared w req s' := by
  intro d body hchecked
  rcases poster_step hs with ⟨cfg, rfl, rfl⟩ | ⟨wait, rfl, -, rfl⟩ | ⟨incoming, access, rfl, -, rfl⟩ |
    ⟨access, body', rfl, hphase, rfl⟩ | ⟨d', body', rfl, -, rfl⟩
  · -- a change behind the role check
    have hphase : s.phase = .checked d body := hchecked
    simp only [KeepsRight, hphase] at hok
    exact hok
  · dsimp only at hchecked
    rcases orOver_eq hchecked with hover | ⟨access, -, hphase⟩
    · cases hover
    · cases hphase
  · dsimp only at hchecked
    rcases orOver_eq hchecked with hover | ⟨body', -, hphase⟩
    · cases hover
    · cases hphase
  · obtain ⟨receiver, hcheck⟩ := roleCheck_of_checked hchecked
    simp only [KeepsRight, hphase] at hok
    exact allowed_of_roleCheck hcheck hok
  · cases hchecked

/-- **Nobody acts without the right to**, in every run whose role checks find an identity or an
accepted bearer, and in which no change behind a role check takes the right away. -/
theorem dispatch_allowed (w : World) (req : Request) (cfg : Entries Num)
    (events : List (PostEvent Num β))
    (hguard : (poster w req).Guarded (KeepsRight w req) ⟨cfg, .arrived⟩ events) :
    (poster w req).Each (DispatchAllowed w req) ⟨cfg, .arrived⟩ events := by
  refine Machine.each_of_guarded (fun s e s' h _ hs => ?_)
    (fun s e s' _ hok hs => cleared_of_step hok hs) (fun d body h => ?_) hguard
  · rcases poster_step hs with ⟨cfg, rfl, -⟩ | ⟨wait, rfl, -⟩ | ⟨incoming, access, rfl, -⟩ |
      ⟨access, body, rfl, -⟩ | ⟨d, body, rfl, hphase, -⟩
    · trivial
    · trivial
    · trivial
    · trivial
    · exact h d body hphase
  · cases h

end Steps

/-! ## §3 A viewer who loses the account -/

section Concrete

attribute [local instance] NetPulse.Server.asciiLower intPyStr tokenBody

/-- An administrator, and perhaps a viewer. -/
def viewerConfig (users : List (Json Int)) : Entries Int :=
  [("web_auth_enabled", .bool true), ("web_token", .str "admin"), ("web_users", .list users)]

def viewer : Json Int := .obj [("name", .str "guest"), ("token", .str "pass"), ("role", .str "viewer")]

/-- A request of somebody with a token, to an endpoint. -/
def jsonPost (token endpoint : String) : Request :=
  ⟨.post, "10.0.0.5", "/api/" ++ endpoint, token, "", "", "application/json", "", "", false, false,
    false, [some 2]⟩

/-- The steps of a request, with a change of the users once the body is there. -/
def slowPost (users : List (Json Int)) : List (PostEvent Int Text) :=
  [.authenticate 0, .receive (.object []), .change (viewerConfig users), .check, .dispatch]

/-- **A viewer without an account blocks an address as administrator.** -/
theorem revoked_viewer_acts : ∃ s,
    (poster plainWorld (jsonPost "pass" "fwblockip")).run ⟨viewerConfig [viewer], .arrived⟩
      (slowPost []) = some s ∧ s.phase = .running ⟨"firewall_block_ip", "admin", "admin"⟩ [] ∧
    ¬ Allowed plainWorld s.cfg (jsonPost "pass" "fwblockip") := by
  refine ⟨_, rfl, rfl, ?_⟩
  rintro (⟨ident, hident, -⟩ | ⟨hreceiver, -⟩)
  · cases hident
  · exact absurd hreceiver (by decide)

/-- The administrator may go on when the viewer is gone. -/
theorem admin_dispatch_allowed :
    (poster plainWorld (jsonPost "admin" "fwblockip")).Each
      (DispatchAllowed plainWorld (jsonPost "admin" "fwblockip"))
      ⟨viewerConfig [viewer], .arrived⟩ (slowPost []) := by
  apply dispatch_allowed
  -- the identity is there at the role check, and nothing changes behind it
  refine Machine.guarded_cons rfl trivial ?_
  refine Machine.guarded_cons rfl trivial ?_
  refine Machine.guarded_cons rfl trivial ?_
  refine Machine.guarded_cons rfl (Or.inl rfl) ?_
  exact Machine.guarded_cons rfl trivial trivial

end Concrete

end NetPulse.Gate
