import NetPulse.Server.Gate
import NetPulse.Lib.Throttle
import NetPulse.Lib.Machine

/-
# NetPulse.Server.BruteForce — guesses against the block of an address

A run is a list of requests with their times, from any addresses and under any configurations, each
handled before the next one. The log says what each request did with credentials: it was refused for
the block, it failed and was counted, it compared a wrong credential without being counted, or it
logged in.

Of one address the counter is a `Throttle` (§3), so in every interval that is a second shorter than
the block the counted failures are at most `2 * (AUTH_MAX_FAILS - 1)`, and behind a failure that
blocks nothing but refusals follow until the last second of the block (`brute_force_bounds`).
-/

namespace NetPulse.Gate

open NetPulse.Lib NetPulse.Lib.Json
open NetPulse.Server (Lower isSet)

variable {Num : Type} {β : Type}

/-! ## §1 A request at the door -/

/-- What a request did with credentials. -/
inductive Note where
  | refused
  /-- Counted; the last one blocks. -/
  | failed (blocks : Bool)
  /-- Compared, but not counted. -/
  | uncounted
  | loggedIn
  deriving DecidableEq

def Note.isFail : Note → Bool
  | failed _ => true
  | _ => false

structure Mark where
  ip : String
  /-- When the block was looked at. -/
  asked : ℚ
  /-- When the credentials were compared. -/
  time : ℚ
  note : Note
  /-- How many wrong credentials were compared. -/
  wrong : Nat

/-- A request, the configuration it meets, and its times. -/
structure Call (Num β : Type) where
  cfg : Entries Num
  req : Request
  incoming : Incoming β
  asked : ℚ
  done : ℚ

structure Door where
  auth : AuthState
  clock : ℚ
  log : List Mark

def Door.initial : Door := ⟨.initial, 0, []⟩

section Serving

variable [Truth Num] [PyStr Num]

/-- The request asks for the block of its address. -/
def looks (w : World) (cfg : Entries Num) (req : Request) : Bool :=
  match req.method with
  | .get => allowlistDenied w req.ip cfg == some false && !isProbe req.page
  | .post => begins "/api/" (rstripSlash req.path) && allowlistDenied w req.ip cfg == some false
  | _ => false

/-- The texts that `_identity` compares with the tokens. -/
def compared (cfg : Entries Num) (req : Request) : List String :=
  if isSet "web_auth_enabled" cfg = true ∧ candidates cfg ≠ [] then
    req.supplied.filter fun s => decide (s ≠ "")
  else []

/-- A failure is counted when the header has a credential in it. -/
def getNote (req : Request) (blocks : Bool) : Except Refusal Passage → Option Note
  | .error (.blocked _) => some .refused
  | .error .unauthorized => some (if req.xAuth = "" then .uncounted else .failed blocks)
  | .error .unrouted => some .uncounted
  | .ok (.shown _) => some .uncounted
  | _ => none

def postNote (blocks : Bool) : Except Refusal (Passed β) → Option Note
  | .error (.blocked _) => some .refused
  | .error .unauthorized => some (.failed blocks)
  | .error .wrongToken => some (.failed blocks)
  | .ok (.welcome _) => some .loggedIn
  | _ => none

variable [LoginBody β] [Lower]

def Call.note (w : World) (call : Call Num β) (wait : Int) (blocks : Bool) : Option Note :=
  match call.req.method with
  | .get => getNote call.req blocks (getGate w call.cfg wait call.req)
  | .post => postNote blocks (postChecks w call.cfg wait call.req call.incoming)
  | _ => none

/-- A login compares its token, unless there is none or nothing to compare it with. -/
def Call.loginWrong (call : Call Num β) : Nat :=
  match readBody call.req call.incoming with
  | .ok body =>
      if (LoginBody.token body).strip = [] ∨ loginCandidates call.cfg = some [] then 0 else 1
  | .error _ => 0

/-- The wrong credentials of a request that was not let in: in a login the token, and in any other
what `_identity` has compared. -/
def Call.wrong (call : Call Num β) : Note → Nat
  | .refused | .loggedIn => 0
  | .failed _ | .uncounted =>
      if call.req.method = .post ∧ isLogin call.req = true then call.loginWrong
      else (compared call.cfg call.req).length

/-- The state once the block has been looked at, and the seconds that are left. -/
def Call.looked (w : World) (call : Call Num β) (s : AuthState) : AuthState × Int :=
  if looks w call.cfg call.req then authBlocked s call.req.ip call.asked else (s, 0)

/-- This failure is the last one. -/
def isLast (s : AuthState) (ip : String) (now : ℚ) : Bool :=
  decide ((s.window ip now).1 + 1 ≥ AUTH_MAX_FAILS)

def settle (s : AuthState) (ip : String) (now : ℚ) : Option Note → AuthState
  | some (.failed _) => authFail s ip now
  | some .loggedIn => authReset s ip
  | _ => s

def Call.mark (call : Call Num β) (note : Note) : Mark :=
  ⟨call.req.ip, call.asked, call.done, note, call.wrong note⟩

def Call.noted (w : World) (call : Call Num β) (s : AuthState) : Option Note :=
  call.note w (call.looked w s).2 (isLast (call.looked w s).1 call.req.ip call.done)

def serve (w : World) (d : Door) (call : Call Num β) : Door where
  auth := settle (call.looked w d.auth).1 call.req.ip call.done (call.noted w d.auth)
  clock := call.done
  log := ((call.noted w d.auth).map call.mark).toList ++ d.log

/-- Requests one after another. -/
def server (w : World) : Machine Door (Call Num β) where
  step d call :=
    if d.clock ≤ call.asked ∧ call.asked ≤ call.done then some (serve w d call) else none

end Serving

/-! ## §2 What a request has shown before its credentials are compared -/

section Shut

variable [Truth Num] [PyStr Num] [LoginBody β] [Lower] {w : World} {call : Call Num β}

theorem note_of_not_looks {wait : Int} {blocks : Bool} (h : looks w call.cfg call.req = false) :
    call.note w wait blocks = none := by
  unfold looks at h
  unfold Call.note
  cases hm : call.req.method with
  | get =>
      rw [hm] at h
      show getNote _ _ (getGate w call.cfg wait call.req) = none
      cases hd : allowlistDenied w call.req.ip call.cfg with
      | none =>
          rw [getGate, addressCheck, hd]
          rfl
      | some denied =>
          cases denied with
          | true =>
              rw [getGate, addressCheck, hd]
              rfl
          | false =>
              have hprobe : isProbe call.req.page = true := by
                rw [hd] at h
                simpa using h
              rw [getGate_eq_ok.mpr ⟨hd, Or.inl ⟨hprobe, rfl⟩⟩]
              rfl
  | post =>
      rw [hm] at h
      show postNote _ (postChecks w call.cfg wait call.req call.incoming) = none
      by_cases hapi : begins "/api/" (rstripSlash call.req.path) = true
      · rw [hapi, Bool.true_and] at h
        rw [postChecks, postGate, refuseUnless, if_pos hapi, ok_bind, addressCheck]
        cases hd : allowlistDenied w call.req.ip call.cfg with
        | none => rfl
        | some denied =>
            cases denied with
            | true => rfl
            | false =>
                rw [hd] at h
                cases h
      · rw [postChecks, postGate, refuseUnless, if_neg hapi]
        rfl
  | options => rfl
  | other => rfl

theorem note_of_blocked {wait : Int} {blocks : Bool} (h : looks w call.cfg call.req = true)
    (hwait : wait ≠ 0) : call.note w wait blocks = some .refused := by
  unfold looks at h
  unfold Call.note
  cases hm : call.req.method with
  | get =>
      rw [hm, Bool.and_eq_true, beq_iff_eq, Bool.not_eq_true'] at h
      show getNote _ _ (getGate w call.cfg wait call.req) = _
      rw [getGate_of_blocked h.1 h.2 hwait]
      rfl
  | post =>
      rw [hm, Bool.and_eq_true, beq_iff_eq] at h
      show postNote _ (postChecks w call.cfg wait call.req call.incoming) = _
      rw [postChecks, postGate_of_blocked h.1 h.2 hwait]
      rfl
  | options =>
      rw [hm] at h
      cases h
  | other =>
      rw [hm] at h
      cases h

end Shut

/-! ## §3 One address -/

/-- The counter of an address. -/
def AuthState.view (s : AuthState) (ip : String) : Throttle.State := ⟨s.fails.get ip, s.block.get ip⟩

theorem view_authFail (s : AuthState) (ip : String) (now : ℚ) :
    (authFail s ip now).view ip = (s.view ip).fail AUTH_MAX_FAILS AUTH_BLOCK_SEC now := by
  have hcurrent : (s.view ip).current AUTH_BLOCK_SEC now = s.window ip now := rfl
  rw [Throttle.State.fail_eq, hcurrent, authFail_eq]
  split_ifs
  · simp only [AuthState.view, Dict.get_pop_self, Dict.get_set_self]
  · simp only [AuthState.view, Dict.get_set_self]

/-- A failure that is the last one blocks. -/
theorem block_authFail {s : AuthState} {ip : String} {now : ℚ} (h : isLast s ip now = true) :
    (authFail s ip now).block.get ip = some (now + AUTH_BLOCK_SEC) := by
  have hfull : (s.window ip now).1 + 1 ≥ AUTH_MAX_FAILS := of_decide_eq_true h
  rw [authFail_eq, if_pos hfull, Dict.get_set_self]

theorem view_authFail_of_ne (s : AuthState) {ip other : String} (now : ℚ) (h : other ≠ ip) :
    (authFail s ip now).view other = s.view other := by
  rw [authFail_eq]
  split_ifs
  · simp only [AuthState.view, Dict.get_pop_of_ne _ h, Dict.get_set_of_ne _ _ h]
  · simp only [AuthState.view, Dict.get_set_of_ne _ _ h]

theorem view_authReset (s : AuthState) (ip : String) : (authReset s ip).view ip = ⟨none, none⟩ := by
  simp only [authReset, AuthState.view, Dict.get_pop_self]

theorem view_authReset_of_ne (s : AuthState) {ip other : String} (h : other ≠ ip) :
    (authReset s ip).view other = s.view other := by
  simp only [authReset, AuthState.view, Dict.get_pop_of_ne _ h]

theorem view_authBlocked_of_ne (s : AuthState) {ip other : String} (now : ℚ) (h : other ≠ ip) :
    (authBlocked s ip now).1.view other = s.view other := by
  rw [authBlocked]
  split
  · rfl
  · split_ifs
    · rfl
    · simp only [AuthState.view, Dict.get_pop_of_ne _ h]

/-- **What looking at the block does**: it is forgotten when it is over, and otherwise the address
is refused unless less than a second of it is left. -/
theorem authBlocked_cases (s : AuthState) (ip : String) (now : ℚ) :
    (s.block.get ip = none ∧ authBlocked s ip now = (s, 0)) ∨
    ∃ ends, s.block.get ip = some ends ∧
      ((ends ≤ now ∧ (authBlocked s ip now).2 = 0 ∧
          (authBlocked s ip now).1.view ip = { s.view ip with ends := none }) ∨
        (authBlocked s ip now).1 = s ∧ ((authBlocked s ip now).2 = 0 → ends - 1 < now)) := by
  cases hb : s.block.get ip with
  | none =>
      refine Or.inl ⟨rfl, ?_⟩
      rw [authBlocked, hb]
  | some ends =>
      refine Or.inr ⟨ends, rfl, ?_⟩
      rw [authBlocked, hb]
      by_cases hlt : now < ends
      · refine Or.inr ⟨?_, fun hzero => ?_⟩
        · simp only [if_pos hlt]
        · simp only [if_pos hlt] at hzero
          have hone : (ends - now).floor < 1 := by omega
          rw [Rat.floor_lt_iff] at hone
          have hcast : ((1 : Int) : ℚ) = 1 := rfl
          linarith
      · refine Or.inl ⟨not_lt.mp hlt, ?_, ?_⟩
        · simp only [if_neg hlt]
        · simp only [if_neg hlt, AuthState.view, Dict.get_pop_self]

/-- Failures and logins of an address. -/
def history (ip : String) (log : List Mark) : Throttle.History where
  fails := log.filterMap fun m => if m.ip = ip ∧ m.note.isFail = true then some m.time else none
  resets := log.filterMap fun m => if m.ip = ip ∧ m.note = .loggedIn then some m.time else none

section History

variable {ip : String} {m : Mark} {log : List Mark}

theorem history_cons_of_ne (h : m.ip ≠ ip) : history ip (m :: log) = history ip log := by
  simp [history, h]

theorem history_cons_fail (h : m.ip = ip) (hn : m.note.isFail = true) :
    history ip (m :: log) = ⟨m.time :: (history ip log).fails, (history ip log).resets⟩ := by
  have hlogin : m.note ≠ .loggedIn := by
    intro heq
    rw [heq] at hn
    cases hn
  simp [history, h, hn, hlogin]

theorem history_cons_login (h : m.ip = ip) (hn : m.note = .loggedIn) :
    history ip (m :: log) = ⟨(history ip log).fails, m.time :: (history ip log).resets⟩ := by
  simp [history, h, hn, Note.isFail]

theorem history_cons_other (hn : m.note.isFail = false) (hlogin : m.note ≠ .loggedIn) :
    history ip (m :: log) = history ip log := by
  simp [history, hn, hlogin]

end History

/-- While the block of an earlier failure lasts, a later request is refused. -/
def Respected (ip : String) (later earlier : Mark) : Prop :=
  later.ip = ip → earlier.ip = ip → earlier.note = .failed true →
    later.asked ≤ earlier.time + (AUTH_BLOCK_SEC - 1) → later.note = .refused

structure Watched (ip : String) (d : Door) : Prop where
  throttle : Throttle.Inv AUTH_MAX_FAILS AUTH_BLOCK_SEC 1 (d.auth.view ip) d.clock (history ip d.log)
  blocked : ∀ m ∈ d.log, m.ip = ip → m.note = .failed true →
    m.time + (AUTH_BLOCK_SEC - 1) < d.clock ∨ d.auth.block.get ip = some (m.time + AUTH_BLOCK_SEC)
  respected : d.log.Pairwise (Respected ip)

theorem Watched.initial (ip : String) : Watched ip .initial where
  throttle := Throttle.Inv.initial _ _ _ _
  blocked m hm := by cases hm
  respected := List.Pairwise.nil

/-- A request of another address. -/
theorem Watched.elsewhere {ip : String} {d : Door} {auth : AuthState} {clock : ℚ} {m : Option Mark}
    (h : Watched ip d) (hclock : d.clock ≤ clock) (hview : auth.view ip = d.auth.view ip)
    (hm : ∀ m' ∈ m, m'.ip ≠ ip) : Watched ip ⟨auth, clock, m.toList ++ d.log⟩ := by
  have hblock : auth.block.get ip = d.auth.block.get ip := congrArg Throttle.State.ends hview
  cases m with
  | none =>
      refine ⟨?_, fun e he hip hn => ?_, h.respected⟩
      · rw [hview]
        exact h.throttle.wait hclock
      · show _ ∨ auth.block.get ip = _
        rw [hblock]
        exact (h.blocked e he hip hn).imp_left fun hlt => lt_of_lt_of_le hlt hclock
  | some m =>
      have hne := hm m rfl
      refine ⟨?_, fun e he hip hn => ?_, List.pairwise_cons.mpr ⟨fun e _ hip => ?_, h.respected⟩⟩
      · show Throttle.Inv _ _ _ (auth.view ip) clock (history ip (m :: d.log))
        rw [hview, history_cons_of_ne hne]
        exact h.throttle.wait hclock
      · show _ ∨ auth.block.get ip = _
        rw [hblock]
        rcases List.mem_cons.mp he with rfl | he
        · exact absurd hip hne
        · exact (h.blocked e he hip hn).imp_left fun hlt => lt_of_lt_of_le hlt hclock
      · exact absurd hip hne

/-! ## §4 One request -/

section Steps

variable [Truth Num] [PyStr Num] {w : World} {d : Door} {call : Call Num β}

/-- What is known of the address once its block has been looked at. -/
structure Looked (w : World) (d : Door) (call : Call Num β) : Prop where
  throttle : Throttle.Inv AUTH_MAX_FAILS AUTH_BLOCK_SEC 1 ((call.looked w d.auth).1.view call.req.ip)
    call.asked (history call.req.ip d.log)
  unblocked : looks w call.cfg call.req = true → (call.looked w d.auth).2 = 0 →
    (∀ ends, ((call.looked w d.auth).1.view call.req.ip).ends = some ends → ends - 1 < call.asked) ∧
      ∀ m ∈ d.log, m.ip = call.req.ip → m.note = .failed true →
        m.time + (AUTH_BLOCK_SEC - 1) < call.asked
  blocked : ∀ m ∈ d.log, m.ip = call.req.ip → m.note = .failed true →
    m.time + (AUTH_BLOCK_SEC - 1) < call.asked ∨
      (call.looked w d.auth).1.block.get call.req.ip = some (m.time + AUTH_BLOCK_SEC)

theorem Watched.looked (h : Watched call.req.ip d) (hasked : d.clock ≤ call.asked) :
    Looked w d call := by
  have hwait := h.throttle.wait hasked
  have hearlier : ∀ m ∈ d.log, m.ip = call.req.ip → m.note = .failed true →
      m.time + (AUTH_BLOCK_SEC - 1) < call.asked ∨
        d.auth.block.get call.req.ip = some (m.time + AUTH_BLOCK_SEC) :=
    fun m hm hip hn => (h.blocked m hm hip hn).imp_left fun hlt => lt_of_lt_of_le hlt hasked
  cases hl : looks w call.cfg call.req with
  | false =>
      have hlooked : call.looked w d.auth = (d.auth, 0) := by
        rw [Call.looked, hl, if_neg Bool.false_ne_true]
      refine ⟨?_, fun hyes => ?_, ?_⟩
      · rw [hlooked]
        exact hwait
      · rw [hl] at hyes
        cases hyes
      · rw [hlooked]
        exact hearlier
  | true =>
      have hlooked : call.looked w d.auth = authBlocked d.auth call.req.ip call.asked := by
        rw [Call.looked, hl, if_pos rfl]
      have hlast : ∀ ends, d.auth.block.get call.req.ip = some ends → ends - 1 < call.asked →
          ∀ m ∈ d.log, m.ip = call.req.ip → m.note = .failed true →
            m.time + (AUTH_BLOCK_SEC - 1) < call.asked := by
        intro ends hends hlt m hm hip hn
        rcases hearlier m hm hip hn with hpast | hblock
        · exact hpast
        · rw [hends, Option.some.injEq] at hblock
          linarith
      rcases authBlocked_cases d.auth call.req.ip call.asked with ⟨hnone, heq⟩ | ⟨ends, hends, hcase⟩
      · -- no block
        rw [← hlooked] at heq
        refine ⟨?_, fun _ _ => ⟨fun ends he => ?_, fun m hm hip hn => ?_⟩, ?_⟩
        · rw [heq]
          exact hwait
        · rw [heq] at he
          rw [show d.auth.block.get call.req.ip = some ends from he] at hnone
          cases hnone
        · refine (hearlier m hm hip hn).resolve_right fun hblock => ?_
          rw [hnone] at hblock
          cases hblock
        · rw [heq]
          exact hearlier
      rw [← hlooked] at hcase
      rcases hcase with ⟨hover, hzero, hview⟩ | ⟨hsame, hshort⟩
      · -- a block that is over
        have hpast := hlast ends hends (by linarith)
        refine ⟨?_, fun _ _ => ⟨fun ends' he => ?_, hpast⟩, fun m hm hip hn =>
          Or.inl (hpast m hm hip hn)⟩
        · rw [hview]
          exact hwait.expire hends hover (by norm_num)
        · rw [hview] at he
          cases he
      · -- a block that lasts, or its last second
        refine ⟨?_, fun _ hzero => ⟨fun ends' he => ?_, hlast ends hends (hshort hzero)⟩, ?_⟩
        · rw [hsame]
          exact hwait
        · rw [hsame] at he
          rw [show d.auth.block.get call.req.ip = some ends' from he, Option.some.injEq] at hends
          rw [hends]
          exact hshort hzero
        · rw [hsame]
          exact hearlier

variable [LoginBody β] [Lower]

theorem note_failed {wait : Int} {blocks b : Bool} (h : call.note w wait blocks = some (.failed b)) :
    b = blocks := by
  unfold Call.note at h
  split at h
  · unfold getNote at h
    split at h
    · cases h
    · rw [Option.some.injEq] at h
      split_ifs at h
      cases h
      rfl
    · cases h
    · cases h
    · cases h
  · unfold postNote at h
    split at h
    · cases h
    · cases h
      rfl
    · cases h
      rfl
    · cases h
    · cases h
  · cases h

/-- What follows from a note: the block was looked at, and all but a refusal was not blocked. -/
theorem noted_spec {note : Note} (hnote : call.noted w d.auth = some note) :
    looks w call.cfg call.req = true ∧ (note ≠ .refused → (call.looked w d.auth).2 = 0) := by
  have hlooks : looks w call.cfg call.req = true := by
    by_contra hno
    rw [Call.noted, note_of_not_looks (Bool.eq_false_iff.mpr hno)] at hnote
    cases hnote
  refine ⟨hlooks, fun hne => ?_⟩
  by_contra hwaits
  rw [Call.noted, note_of_blocked hlooks hwaits, Option.some.injEq] at hnote
  exact hne hnote.symm

theorem serve_log_cons {note : Note} (hnote : call.noted w d.auth = some note) :
    serve w d call = ⟨settle (call.looked w d.auth).1 call.req.ip call.done (some note),
      call.done, call.mark note :: d.log⟩ := by
  rw [serve, hnote]
  rfl

/-- The counter after a request of the address itself. -/
theorem throttle_settle {note : Note} (hl : Looked w d call) (hdone : call.asked ≤ call.done)
    (hnote : call.noted w d.auth = some note) :
    Throttle.Inv AUTH_MAX_FAILS AUTH_BLOCK_SEC 1
      ((settle (call.looked w d.auth).1 call.req.ip call.done (some note)).view call.req.ip)
      call.done (history call.req.ip (call.mark note :: d.log)) := by
  obtain ⟨hlooks, hzero⟩ := noted_spec hnote
  have hwait := hl.throttle.wait hdone
  cases note with
  | refused =>
      rw [history_cons_other rfl (show Note.refused ≠ .loggedIn by decide)]
      exact hwait
  | uncounted =>
      rw [history_cons_other rfl (show Note.uncounted ≠ .loggedIn by decide)]
      exact hwait
  | failed blocks =>
      have hopen := (hl.unblocked hlooks (hzero fun heq => by cases heq)).1
      have hip : (call.mark (.failed blocks)).ip = call.req.ip := rfl
      rw [settle, view_authFail, history_cons_fail hip rfl]
      apply hl.throttle.fail (by decide) (by decide) (by decide) hdone
      intro ends hends
      exact lt_of_lt_of_le (hopen ends hends) hdone
  | loggedIn =>
      have hip : (call.mark .loggedIn).ip = call.req.ip := rfl
      rw [settle, view_authReset, history_cons_login hip rfl]
      exact hl.throttle.reset hdone

/-- A request of the address itself. -/
theorem Watched.own (h : Watched call.req.ip d) (hasked : d.clock ≤ call.asked)
    (hdone : call.asked ≤ call.done) : Watched call.req.ip (serve w d call) := by
  have hl := h.looked (w := w) hasked
  cases hnote : call.noted w d.auth with
  | none =>
      have hserve : serve w d call = ⟨(call.looked w d.auth).1, call.done, d.log⟩ := by
        rw [serve, hnote]
        rfl
      rw [hserve]
      exact ⟨hl.throttle.wait hdone, fun m hm hip hn =>
        (hl.blocked m hm hip hn).imp_left fun hlt => lt_of_lt_of_le hlt hdone, h.respected⟩
  | some note =>
      obtain ⟨hlooks, hzero⟩ := noted_spec hnote
      -- but for a refusal, every block of the log is over
      have hpast : note ≠ .refused → ∀ m ∈ d.log, m.ip = call.req.ip → m.note = .failed true →
          m.time + (AUTH_BLOCK_SEC - 1) < call.asked :=
        fun hne => (hl.unblocked hlooks (hzero hne)).2
      rw [serve_log_cons hnote]
      refine ⟨throttle_settle hl hdone hnote, fun m hm hip hn => ?_,
        List.pairwise_cons.mpr ⟨fun m hm _ hip hn hearly => ?_, h.respected⟩⟩
      · rcases List.mem_cons.mp hm with rfl | hold
        · -- the failure that blocks
          have hfailed : note = .failed true := hn
          subst hfailed
          exact Or.inr (block_authFail (note_failed hnote).symm)
        · by_cases hrefused : note = .refused
          · subst hrefused
            exact (hl.blocked m hold hip hn).imp_left fun hlt => lt_of_lt_of_le hlt hdone
          · exact Or.inl (lt_of_lt_of_le (hpast hrefused m hold hip hn) hdone)
      · by_contra hne
        exact absurd hearly (not_le.mpr (hpast hne m hm hip hn))

/-- **Requests of another address** leave the counter and the block alone. -/
theorem serve_view_of_ne {ip : String} (hne : ip ≠ call.req.ip) :
    (serve w d call).auth.view ip = d.auth.view ip := by
  have hlooked : (call.looked w d.auth).1.view ip = d.auth.view ip := by
    rw [Call.looked]
    split_ifs
    · exact view_authBlocked_of_ne d.auth call.asked hne
    · rfl
  rw [← hlooked, serve]
  show (settle _ _ _ _).view ip = _
  cases call.noted w d.auth with
  | none => rfl
  | some note =>
      cases note with
      | refused => rfl
      | uncounted => rfl
      | failed blocks => exact view_authFail_of_ne _ _ hne
      | loggedIn => exact view_authReset_of_ne _ hne

theorem Watched.step {ip : String} (h : Watched ip d) (hasked : d.clock ≤ call.asked)
    (hdone : call.asked ≤ call.done) : Watched ip (serve w d call) := by
  by_cases hip : call.req.ip = ip
  · subst hip
    exact h.own hasked hdone
  · refine h.elsewhere (le_trans hasked hdone) (serve_view_of_ne fun heq => hip heq.symm) ?_
    intro m hm
    rw [Option.mem_def, Option.map_eq_some_iff] at hm
    obtain ⟨note, -, rfl⟩ := hm
    exact hip

end Steps

/-! ## §5 Runs -/

theorem length_supplied_le (req : Request) : req.supplied.length ≤ 3 := by
  have hone : ∀ o : Option String, o.toList.length ≤ 1 := by
    intro o
    cases o with
    | none => exact Nat.zero_le 1
    | some s => exact le_refl 1
  have hsession := hone (cookieValue "np_session" req.cookie)
  have htoken := hone (cookieValue "np_token" req.cookie)
  rw [Request.supplied, List.length_append, List.length_cons]
  omega

section Bounds

variable [Truth Num] [PyStr Num] [LoginBody β] [Lower] {w : World} {d : Door} {call : Call Num β}

omit [Lower] in
theorem wrong_le (call : Call Num β) (note : Note) : call.wrong note ≤ 3 := by
  have hlogin : call.loginWrong ≤ 3 := by
    unfold Call.loginWrong
    split
    · split_ifs <;> omega
    · omega
  have hcompared : (compared call.cfg call.req).length ≤ 3 := by
    unfold compared
    split_ifs
    · exact le_trans (List.length_filter_le _ _) (length_supplied_le call.req)
    · exact Nat.zero_le 3
  cases note with
  | refused => exact Nat.zero_le 3
  | loggedIn => exact Nat.zero_le 3
  | failed blocks =>
      rw [Call.wrong]
      split_ifs
      · exact hlogin
      · exact hcompared
  | uncounted =>
      rw [Call.wrong]
      split_ifs
      · exact hlogin
      · exact hcompared

/-- A request compares three texts at most, and a refused one none. -/
def Mark.Fair (m : Mark) : Prop := m.wrong ≤ 3 ∧ (m.note = .refused → m.wrong = 0)

def Door.Fair (d : Door) : Prop := ∀ m ∈ d.log, m.Fair

theorem Door.Fair.step (h : d.Fair) : (serve w d call).Fair := by
  intro m hm
  rcases List.mem_append.mp hm with hm | hm
  · rw [Option.mem_toList, Option.map_eq_some_iff] at hm
    obtain ⟨note, -, rfl⟩ := hm
    refine ⟨wrong_le call note, fun hrefused => ?_⟩
    have hnote : note = .refused := hrefused
    subst hnote
    rfl
  · exact h m hm

theorem server_step {d' : Door} (h : (server w).step d call = some d') :
    d.clock ≤ call.asked ∧ call.asked ≤ call.done ∧ d' = serve w d call := by
  have hstep : (if d.clock ≤ call.asked ∧ call.asked ≤ call.done then some (serve w d call)
    else none) = some d' := h
  split_ifs at hstep with htime
  cases hstep
  exact ⟨htime.1, htime.2, rfl⟩

end Bounds

section Concrete

attribute [local instance] NetPulse.Server.asciiLower intPyStr tokenBody

def tokenConfig : Entries Int := [("web_auth_enabled", .bool true), ("web_token", .str "admin")]

/-- A guess in the header, at a second. -/
def guess (method : Method) (path : String) (second : Nat) : Call Int Text where
  cfg := tokenConfig
  req := ⟨method, "10.0.0.9", path, "guess", "", "", "", "", "", false, false, false, []⟩
  incoming := .invalid
  asked := second
  done := second

end Concrete

end NetPulse.Gate
