import NetPulse.Server.Conceal
import NetPulse.Lib.Respects

/-
# NetPulse.Server.Unauthenticated — what an answer tells somebody without a credential

Every check of the door answers the same for two configurations that are alike, as long as the
request has a valid credential under neither. `responses_alike_iff` says which requests get one
answer: all but the page `meta`, where what is not masked shows, and but a login with a token that
cannot be encoded, which is dropped as soon as there is a token to compare it with.
-/

namespace NetPulse.Gate

open NetPulse.Lib NetPulse.Lib.Json
open NetPulse.Server (Lower isSet mask)

variable {Num : Type}

/-! ## §1 Requests without a credential -/

section Strangers

variable [Lower] [Truth Num]

theorem publicAccess_respects (w : World) (req : Request) :
    Respects Alike fun cfg : Entries Num => publicAccess w cfg req := by
  refine respects_of_conceal fun cfg => ?_
  rw [publicAccess, publicAccess, metricsCheck, metricsCheck, metricsAuthed, metricsAuthed,
    bearerAuthed_conceal w (by decide)]

theorem receiverCheck_respects (w : World) (req : Request) :
    Respects Alike fun cfg : Entries Num => receiverCheck w cfg req := by
  refine respects_of_conceal fun cfg => ?_
  rw [receiverCheck, receiverCheck, receiverAuthed, receiverAuthed,
    bearerAuthed_conceal w (by decide)]

variable [PyStr Num]

/-- No valid credential of any kind. -/
structure Unauthenticated {β : Type} [LoginBody β] (w : World) (cfg : Entries Num) (req : Request)
    (incoming : Incoming β) : Prop where
  identity : identity cfg req = none
  receiver : receiverAuthed w cfg req ≠ some true
  metrics : metricsAuthed w cfg req ≠ some true
  login : ∀ body, readBody req incoming = .ok body → ∀ c, login cfg body ≠ .ok c

/-- Alike, and a stranger to both. -/
def Strange (req : Request) (cfg cfg' : Entries Num) : Prop :=
  Alike cfg cfg' ∧ identity cfg req = none ∧ identity cfg' req = none

theorem addressCheck_respects (w : World) (req : Request) :
    Respects Alike fun cfg : Entries Num => addressCheck w cfg req := by
  refine respects_of_conceal fun cfg => ?_
  rw [addressCheck, addressCheck, allowlistDenied_conceal]

theorem getAccess_respects (w : World) (req : Request) :
    Respects (Strange req) fun cfg : Entries Num => getAccess w cfg req := by
  rintro cfg cfg' ⟨halike, hno, hno'⟩
  show getAccess w cfg req = getAccess w cfg' req
  rw [getAccess, getAccess, hno, hno']
  simp only [publicAccess_respects w req cfg cfg' halike]

/-- **The gate of `do_GET`** does not tell them apart. -/
theorem getGate_respects (w : World) (wait : Int) (req : Request) :
    Respects (Strange req) fun cfg : Entries Num => getGate w cfg wait req := by
  refine Respects.bind ((addressCheck_respects w req).mono fun _ _ h => h.1) fun _ => ?_
  refine Respects.cond (Respects.const _) (Respects.const _) ?_
  exact Respects.bind (Respects.const _) fun _ => getAccess_respects w req

omit [PyStr Num] in
theorem csrfCheck_respects (w : World) (req : Request) (receiver : Bool) :
    Respects Alike fun cfg : Entries Num => csrfCheck w cfg req receiver := by
  refine respects_of_conceal fun cfg => ?_
  rw [csrfCheck, csrfCheck, originAllowed_conceal,
    isSet_concealEntries (credential_eq_false (by decide))]

theorem postAccess_respects (w : World) (req : Request) :
    Respects (Strange req) fun cfg : Entries Num => postAccess w cfg req := by
  have hpart : ∀ {α : Type} {f : Entries Num → α}, Respects Alike f → Respects (Strange req) f :=
    fun hf => hf.mono fun _ _ h => h.1
  refine Respects.cond (Respects.const _) (Respects.const _) ?_
  refine Respects.bind (hpart (receiverCheck_respects w req)) fun receiver => ?_
  refine Respects.bind (Respects.const _) fun _ => ?_
  refine Respects.bind ?_ fun _ => hpart (csrfCheck_respects w req receiver)
  -- neither has an identity
  rintro cfg cfg' ⟨-, hno, hno'⟩
  show refuseUnless _ _ = refuseUnless _ _
  simp only [hno, hno']

/-- **The gate of `do_POST`** does not tell them apart. -/
theorem postGate_respects (w : World) (wait : Int) (req : Request) :
    Respects (Strange req) fun cfg : Entries Num => postGate w cfg wait req := by
  refine Respects.bind (Respects.const _) fun _ => ?_
  refine Respects.bind ((addressCheck_respects w req).mono fun _ _ h => h.1) fun _ => ?_
  exact Respects.bind (Respects.const _) fun _ => postAccess_respects w req

end Strangers

/-! ## §2 How far they get -/

section Outside

variable [Truth Num] [PyStr Num] {β : Type} [LoginBody β] {w : World}
  {cfg cfg' : Entries Num} {req : Request} {incoming : Incoming β}

theorem eq_of_begins_after {start rest s : String} (hb : begins start s = true)
    (ha : after start s = rest) : s = start ++ rest := by
  obtain ⟨tail, htail⟩ := List.isPrefixOf_iff_prefix.mp hb
  apply String.toList_inj.mp
  rw [← ha, after, ← htail, List.drop_left, String.toList_append, String.toList_ofList, htail]

/-- **The public endpoints with a route** are two. -/
theorem publicAccess_cases {p : Passage} (h : Unauthenticated w cfg req incoming)
    (hp : publicAccess w cfg req = .ok p) :
    p = .shown "whoami" ∨ p = .shown "meta" ∧ req.page = "/api/meta" := by
  simp only [publicAccess, bind_eq_ok] at hp
  obtain ⟨metrics, hmetrics, hp⟩ := hp
  have hno : metrics = false := by
    unfold metricsCheck at hmetrics
    split_ifs at hmetrics
    · rw [orDropped_eq_ok] at hmetrics
      cases metrics with
      | false => rfl
      | true => exact absurd hmetrics h.metrics
    · cases hmetrics
      rfl
  rw [hno, if_neg Bool.false_ne_true] at hp
  simp only [bind_eq_ok, refuseUnless_eq_ok] at hp
  obtain ⟨-, hpublic, hp⟩ := hp
  generalize hname : (if begins "/api/" req.page then after "/api/" req.page else "") = name
    at hpublic hp
  rcases List.mem_cons.mp hpublic with rfl | hpublic
  · rw [show Dict.lookup "whoami" ROUTES_GET = some "whoami" by decide] at hp
    cases hp
    exact Or.inl rfl
  rcases List.mem_cons.mp hpublic with rfl | hpublic
  · rw [show Dict.lookup "meta" ROUTES_GET = some "meta" by decide] at hp
    cases hp
    refine Or.inr ⟨rfl, ?_⟩
    by_cases hb : begins "/api/" req.page = true
    · rw [if_pos hb] at hname
      exact eq_of_begins_after hb hname
    · rw [if_neg hb] at hname
      exact absurd hname (by decide)
  -- the third public name has no route
  · rw [List.mem_singleton] at hpublic
    subst hpublic
    rw [show Dict.lookup "login" ROUTES_GET = none by decide] at hp
    cases hp

theorem getGate_cases {wait : Int} {p : Passage} (h : Unauthenticated w cfg req incoming)
    (hp : getGate w cfg wait req = .ok p) :
    p = .probe ∨ p = .outside ∨ p = .shown "whoami" ∨ p = .shown "meta" ∧ req.page = "/api/meta" := by
  obtain ⟨-, ⟨-, rfl⟩ | ⟨-, -, hp⟩⟩ := getGate_eq_ok.mp hp
  · exact Or.inl rfl
  · rw [getAccess, h.identity] at hp
    split_ifs at hp
    · rcases publicAccess_cases h hp with hp | hp
      · exact Or.inr (Or.inr (Or.inl hp))
      · exact Or.inr (Or.inr (Or.inr hp))
    · cases hp
      exact Or.inr (Or.inl rfl)

/-- `meta` is reached by asking for it. -/
theorem getGate_meta {wait : Int} (h : Unauthenticated w cfg req incoming)
    (hpage : req.page = "/api/meta") (haddress : allowlistDenied w req.ip cfg = some false)
    (hwait : wait = 0) : getGate w cfg wait req = .ok (.shown "meta") := by
  refine getGate_eq_ok.mpr ⟨haddress, Or.inr ⟨?_, hwait, ?_⟩⟩
  · rw [hpage]
    decide
  · rw [getAccess, h.identity, hpage, if_pos (by decide)]
    show publicAccess w cfg req = _
    rw [publicAccess, metricsCheck, hpage, if_neg (by decide)]
    rfl

variable [Lower]

theorem Unauthenticated.strange (halike : Alike cfg cfg') (h : Unauthenticated w cfg req incoming)
    (h' : Unauthenticated w cfg' req incoming) : Strange req cfg cfg' :=
  ⟨halike, h.identity, h'.identity⟩

/-- **A stranger's body is read for a login only.** -/
theorem postGate_login {wait : Int} {a : Access} (h : Unauthenticated w cfg req incoming)
    (ha : postGate w cfg wait req = .ok a) : a = .login := by
  obtain ⟨-, -, -, ha⟩ := postGate_eq_ok.mp ha
  rcases postAccess_cases ha with ⟨-, rfl⟩ | ⟨-, hreceiver, -⟩ | ⟨-, hident, -⟩
  · rfl
  · exact absurd hreceiver h.receiver
  · rw [h.identity] at hident
    cases hident

end Outside

/-! ## §3 Logins that fail -/

theorem matchToken_of_encodable {token : Text} (henc : token.encodable = true)
    {cands : List Candidate} (hno : ∀ c, matchToken token cands ≠ .ok c) :
    matchToken token cands = .error .wrongToken := by
  induction cands with
  | nil => rfl
  | cons c rest ih =>
      rw [matchToken] at hno ⊢
      by_cases hempty : token = []
      · rw [if_pos hempty] at hno ⊢
        exact ih hno
      · rw [if_neg hempty, if_neg (by simp [henc])] at hno ⊢
        by_cases heq : token = Text.lit c.token
        · rw [if_pos heq] at hno
          exact absurd rfl (hno c)
        · rw [if_neg heq] at hno ⊢
          exact ih hno

/-- A text that cannot be encoded meets the first token and nothing else. -/
theorem matchToken_of_unencodable {token : Text} (henc : token.encodable = false)
    (cands : List Candidate) : matchToken token cands =
      .error (if cands = [] then .wrongToken else .dropped) := by
  have hne : token ≠ [] := by
    rintro rfl
    cases henc
  cases cands with
  | nil => rfl
  | cons c rest => rw [matchToken, if_neg hne, if_pos henc, if_neg (List.cons_ne_nil c rest)]

theorem loginCandidates_isSome_respects [Lower] [Truth Num] [PyStr Num] :
    Respects Alike fun cfg : Entries Num => (loginCandidates cfg).isSome := by
  have hread : ∀ {key : String}, ordinary key = true → ∀ cfg : Entries Num,
      (eachOf (Dict.lookup key (concealEntries cfg))).isSome =
        (eachOf (Dict.lookup key cfg)).isSome := by
    intro key hkey cfg
    rw [lookup_concealEntries (credential_eq_false hkey), eachOf_map_conceal, Option.isSome_map]
  have hsplit : ∀ cfg : Entries Num, (loginCandidates cfg).isSome =
      ((eachOf (Dict.lookup "web_admins" cfg)).isSome &&
        (eachOf (Dict.lookup "web_users" cfg)).isSome) := by
    intro cfg
    unfold loginCandidates
    cases eachOf (Dict.lookup "web_admins" cfg) with
    | none => rfl
    | some admins => cases eachOf (Dict.lookup "web_users" cfg) <;> rfl
  refine respects_of_conceal fun cfg => ?_
  rw [hsplit, hsplit, hread (by decide), hread (by decide)]

/-! ## §4 Answers -/

section Responses

variable [Lower] [Truth Num] [PyStr Num] [PyInt Num] {β : Type} [LoginBody β] {site : Site Num β}
  {s : AuthState} {now : ℚ} {req : Request} {incoming : Incoming β} {cfg cfg' : Entries Num}

/-- The request gets to `meta`, and its answer can be sent. -/
structure ShowsConfig (site : Site Num β) (s : AuthState) (now : ℚ) (cfg : Entries Num)
    (req : Request) : Prop where
  method : req.method = .get
  page : req.page = "/api/meta"
  address : allowlistDenied site.world req.ip cfg = some false
  block : (authBlocked s req.ip now).2 = 0
  tables : ∃ tables, site.tables = .ok tables
  cors : (corsHeaders site.world cfg req).isSome = true

/-- A login that gets as far as the tokens, with a text that cannot be encoded. -/
structure UnencodableLogin (site : Site Num β) (s : AuthState) (now : ℚ) (cfg : Entries Num)
    (req : Request) (incoming : Incoming β) : Prop where
  method : req.method = .post
  path : isLogin req = true
  address : allowlistDenied site.world req.ip cfg = some false
  block : (authBlocked s req.ip now).2 = 0
  body : ∃ body, readBody req incoming = .ok body ∧
    (LoginBody.token body).strip.encodable = false
  lists : (loginCandidates cfg).isSome = true
  cors : (corsHeaders site.world cfg req).isSome = true

omit [PyStr Num] [PyInt Num] in
theorem Alike.sendJson (halike : Alike cfg cfg') (w : World) (req : Request) (status : Nat)
    (page : Page Num) : sendJson w cfg req status page = sendJson w cfg' req status page := by
  have h : concealEntries cfg = concealEntries cfg' := halike
  rw [← sendJson_conceal, h, sendJson_conceal]

omit [PyStr Num] [PyInt Num] in
theorem Alike.refuse (halike : Alike cfg cfg') (w : World) (req : Request) (r : Refusal) :
    refuse w cfg req r = refuse w cfg' req r := by
  have h : concealEntries cfg = concealEntries cfg' := halike
  rw [← refuse_conceal, h, refuse_conceal]

omit [LoginBody β] [PyStr Num] in
theorem probeReply_respects (site : Site Num β) (req : Request) :
    Respects Alike fun cfg => probeReply site cfg req := by
  refine respects_of_conceal fun cfg => ?_
  unfold probeReply
  simp only [sendJson_conceal, ready_conceal]

omit [LoginBody β] [PyStr Num] [PyInt Num] in
theorem staticReply_respects (site : Site Num β) (req : Request) :
    Respects Alike fun cfg => staticReply site cfg req := by
  refine respects_of_conceal fun cfg => ?_
  unfold staticReply
  simp only [sendJson_conceal]

omit [LoginBody β] [PyStr Num] [PyInt Num] in
theorem whoamiReply_respects (site : Site Num β) (req : Request) :
    Respects Alike fun cfg => publicReply site cfg req "whoami" := by
  refine respects_of_conceal fun cfg => ?_
  rw [publicReply, publicReply, if_pos rfl, if_pos rfl, sendJson_conceal, whoami, whoami,
    isSet_concealEntries (credential_eq_false (by decide))]

omit [LoginBody β] [PyStr Num] [PyInt Num] in
/-- **The page `meta`** is the same exactly when it shows the same configuration. -/
theorem metaReply_eq_iff (halike : Alike cfg cfg') (hunique : (Json.obj cfg).Unique) :
    metaReply site cfg req = metaReply site cfg' req ↔
      ((∃ tables, site.tables = .ok tables) → (corsHeaders site.world cfg req).isSome = true →
        MetaAlike cfg cfg') := by
  rw [metaReply, metaReply]
  cases htables : site.tables with
  | error text =>
      refine iff_of_true (halike.sendJson site.world req 500 (.error text)) ?_
      rintro ⟨tables, h⟩
      cases h
  | ok tables =>
      simp only [← halike.sendJson]
      rw [sendJson, sendJson]
      cases hcors : corsHeaders site.world cfg req with
      | none => exact iff_of_true rfl fun _ h => by cases h
      | some cors =>
          rw [← metaConfig_eq_iff halike hunique]
          simp [metaPage]

theorem doGet_eq_iff {wait : Int} (halike : Alike cfg cfg') (hunique : (Json.obj cfg).Unique)
    (h : Unauthenticated site.world cfg req incoming)
    (h' : Unauthenticated site.world cfg' req incoming) :
    doGet site cfg wait req = doGet site cfg' wait req ↔
      (req.page = "/api/meta" → allowlistDenied site.world req.ip cfg = some false → wait = 0 →
        (∃ tables, site.tables = .ok tables) → (corsHeaders site.world cfg req).isSome = true →
          MetaAlike cfg cfg') := by
  have hgate := getGate_respects site.world wait req cfg cfg' (h.strange halike h')
  rw [doGet, doGet]
  cases hg : getGate site.world cfg wait req with
  | error r =>
      rw [show getGate site.world cfg' wait req = .error r from hgate.symm.trans hg]
      refine iff_of_true (halike.refuse site.world req r) ?_
      intro hpage haddress hwait
      rw [getGate_meta h hpage haddress hwait] at hg
      cases hg
  | ok p =>
      rw [show getGate site.world cfg' wait req = .ok p from hgate.symm.trans hg]
      show getReply site cfg req p = getReply site cfg' req p ↔ _
      -- whatever is not `meta` is the same, and `meta` is not asked for
      have hsame : req.page ≠ "/api/meta" ∨ p ≠ .shown "meta" →
          getReply site cfg req p = getReply site cfg' req p →
          (getReply site cfg req p = getReply site cfg' req p ↔
            (req.page = "/api/meta" → allowlistDenied site.world req.ip cfg = some false →
              wait = 0 → (∃ tables, site.tables = .ok tables) →
                (corsHeaders site.world cfg req).isSome = true → MetaAlike cfg cfg')) := by
        intro hother heq
        refine iff_of_true heq fun hpage haddress hwait => ?_
        have hmeta := getGate_meta h hpage haddress hwait
        rw [hg, Except.ok.injEq] at hmeta
        exact absurd hmeta (hother.resolve_left (not_not_intro hpage))
      rcases getGate_cases h hg with rfl | rfl | rfl | ⟨rfl, hpage⟩
      · exact hsame (Or.inr (by decide)) (probeReply_respects site req cfg cfg' halike)
      · exact hsame (Or.inr (by decide)) (staticReply_respects site req cfg cfg' halike)
      · exact hsame (Or.inr (by decide)) (whoamiReply_respects site req cfg cfg' halike)
      · obtain ⟨haddress, ⟨-, hp⟩ | ⟨-, hwait, -⟩⟩ := getGate_eq_ok.mp hg
        · cases hp
        show publicReply site cfg req "meta" = publicReply site cfg' req "meta" ↔ _
        show metaReply site cfg req = metaReply site cfg' req ↔ _
        rw [metaReply_eq_iff halike hunique]
        exact ⟨fun h _ _ _ => h, fun h => h hpage haddress hwait⟩

/-! ### Logins -/

omit [Lower] [PyInt Num] in
/-- What a login without a valid token is answered. -/
theorem login_refused {cfg : Entries Num} {body : β} (h : ∀ c, login cfg body ≠ .ok c) :
    (loginCandidates cfg = none ∧ login cfg body = .error .dropped) ∨
    ∃ cands, loginCandidates cfg = some cands ∧ login cfg body =
      .error (if (LoginBody.token body).strip.encodable = true ∨ cands = [] then .wrongToken
        else .dropped) := by
  cases hcands : loginCandidates cfg with
  | none =>
      refine Or.inl ⟨rfl, ?_⟩
      rw [login, hcands]
      rfl
  | some cands =>
      have hlogin : login cfg body = matchToken (LoginBody.token body).strip cands := by
        rw [login, hcands]
        rfl
      refine Or.inr ⟨cands, rfl, ?_⟩
      rw [hlogin] at h ⊢
      cases henc : Text.encodable (LoginBody.token body).strip with
      | true => rw [if_pos (Or.inl rfl), matchToken_of_encodable henc h]
      | false => simp only [Bool.false_eq_true, false_or, matchToken_of_unencodable henc]

omit [PyInt Num] in
theorem postChecks_of_login {w : World} {wait : Int} {body : β} {r : Refusal}
    (hgate : postGate w cfg wait req = .ok .login) (hbody : readBody req incoming = .ok body)
    (hlogin : login cfg body = .error r) : postChecks w cfg wait req incoming = .error r := by
  rw [postChecks, hgate, ok_bind, hbody, ok_bind, postAction, hlogin]
  rfl

omit [PyInt Num] [LoginBody β] in
theorem postGate_of_login {w : World} {wait : Int} (hlogin : isLogin req = true)
    (haddress : allowlistDenied w req.ip cfg = some false) (hwait : wait = 0) :
    postGate w cfg wait req = .ok .login := by
  have hpath : rstripSlash req.path = "/api/login" := beq_iff_eq.mp hlogin
  refine postGate_eq_ok.mpr ⟨?_, haddress, hwait, ?_⟩
  · rw [hpath]
    decide
  · rw [postAccess, if_pos hlogin]

omit [Lower] [PyStr Num] [PyInt Num] in
/-- A wrong token is told, where the answer can be sent; an exception is not. -/
theorem refuse_login_eq_iff {w : World} {c c' : Prop} [Decidable c] [Decidable c'] :
    refuse w cfg req (if c then .wrongToken else .dropped) =
      refuse w cfg req (if c' then .wrongToken else .dropped) ↔
        ((corsHeaders w cfg req).isSome = true → (c ↔ c')) := by
  have hwrong : refuse w cfg req .wrongToken =
      (corsHeaders w cfg req).map fun cors => ⟨401, .loginError "неверный токен", cors⟩ := by
    rw [refuse, Refusal.answer, Option.bind_some, sendJson]
  have hdropped : refuse w cfg req .dropped = none := rfl
  by_cases h : c
  · by_cases h' : c'
    · rw [if_pos h, if_pos h']
      exact iff_of_true rfl fun _ => iff_of_true h h'
    · rw [if_pos h, if_neg h', hwrong, hdropped, Option.map_eq_none_iff]
      cases corsHeaders w cfg req <;> simp [h, h']
  · by_cases h' : c'
    · rw [if_neg h, if_pos h', hwrong, hdropped, eq_comm, Option.map_eq_none_iff]
      cases corsHeaders w cfg req <;> simp [h, h']
    · rw [if_neg h, if_neg h']
      exact iff_of_true rfl fun _ => iff_of_false h h'

omit [PyInt Num] in
theorem doPost_eq_iff {wait : Int} (halike : Alike cfg cfg')
    (h : Unauthenticated site.world cfg req incoming)
    (h' : Unauthenticated site.world cfg' req incoming) :
    doPost site cfg wait req incoming = doPost site cfg' wait req incoming ↔
      (isLogin req = true → allowlistDenied site.world req.ip cfg = some false → wait = 0 →
        (∃ body, readBody req incoming = .ok body ∧
          (LoginBody.token body).strip.encodable = false) →
        (loginCandidates cfg).isSome = true → (corsHeaders site.world cfg req).isSome = true →
          (loginCandidates cfg = some [] ↔ loginCandidates cfg' = some [])) := by
  have hgate : postGate site.world cfg wait req = postGate site.world cfg' wait req :=
    postGate_respects site.world wait req cfg cfg' (h.strange halike h')
  have hsome : (loginCandidates cfg).isSome = (loginCandidates cfg').isSome :=
    loginCandidates_isSome_respects cfg cfg' halike
  rw [doPost, doPost]
  cases hg : postGate site.world cfg wait req with
  | error r =>
      rw [postChecks, postChecks, ← hgate, hg]
      refine iff_of_true (halike.refuse site.world req r) fun hlogin haddress hwait => ?_
      rw [postGate_of_login hlogin haddress hwait] at hg
      cases hg
  | ok a =>
      obtain rfl := postGate_login h hg
      have hg' := hgate.symm.trans hg
      cases hb : readBody req incoming with
      | error r =>
          rw [postChecks, postChecks, hg', hg, hb]
          refine iff_of_true (halike.refuse site.world req r) ?_
          rintro - - - ⟨body, hbody, -⟩
          cases hbody
      | ok body =>
          rcases login_refused (h.login body hb) with ⟨hnone, hlogin⟩ | ⟨cands, hcands, hlogin⟩
          · -- the lists cannot be gone through, in neither configuration
            rcases login_refused (h'.login body hb) with ⟨-, hlogin'⟩ | ⟨cands', hcands', -⟩
            · rw [postChecks_of_login hg hb hlogin, postChecks_of_login hg' hb hlogin']
              refine iff_of_true (halike.refuse site.world req .dropped) ?_
              rintro - - - - hlists
              rw [hnone] at hlists
              cases hlists
            · rw [hnone, hcands'] at hsome
              cases hsome
          · rcases login_refused (h'.login body hb) with ⟨hnone', -⟩ | ⟨cands', hcands', hlogin'⟩
            · rw [hcands, hnone'] at hsome
              cases hsome
            rw [postChecks_of_login hg hb hlogin, postChecks_of_login hg' hb hlogin', hcands,
              hcands', Option.some.injEq, Option.some.injEq]
            show refuse _ _ _ _ = refuse _ cfg' _ _ ↔ _
            rw [← halike.refuse, refuse_login_eq_iff]
            obtain ⟨-, haddress, hwait, haccess⟩ := postGate_eq_ok.mp hg
            have hpath : isLogin req = true := by
              rcases postAccess_cases haccess with ⟨hpath, -⟩ | ⟨-, -, ha⟩ | ⟨-, -, ha⟩
              · exact hpath
              · cases ha
              · cases ha
            cases henc : Text.encodable (LoginBody.token body).strip with
            | true =>
                refine iff_of_true (fun _ => iff_of_true (Or.inl rfl) (Or.inl rfl)) ?_
                rintro - - - ⟨body', hbody', henc'⟩
                rw [Except.ok.injEq] at hbody'
                rw [← hbody', henc] at henc'
                cases henc'
            | false =>
                simp only [Bool.false_eq_true, false_or]
                exact ⟨fun hiff _ _ _ _ _ => hiff,
                  fun hiff => hiff hpath haddress hwait ⟨body, rfl, henc⟩ rfl⟩

/-- **Answers to strangers.** Two configurations that differ in credentials only give a request
that is valid under neither the same answer, unless the answer is the page `meta` and they differ in
something that it does not mask, or the request logs in with a text that cannot be encoded and only
one of them has a token at all. -/
theorem responses_alike_iff (halike : Alike cfg cfg') (hunique : (Json.obj cfg).Unique)
    (h : Unauthenticated site.world cfg req incoming)
    (h' : Unauthenticated site.world cfg' req incoming) :
    respond site s now cfg req incoming = respond site s now cfg' req incoming ↔
      (ShowsConfig site s now cfg req → MetaAlike cfg cfg') ∧
        (UnencodableLogin site s now cfg req incoming →
          (loginCandidates cfg = some [] ↔ loginCandidates cfg' = some [])) := by
  unfold respond
  cases hmethod : req.method with
  | get =>
      rw [doGet_eq_iff halike hunique h h']
      constructor
      · intro hget
        refine ⟨fun hs => hget hs.page hs.address hs.block hs.tables hs.cors, fun hu => ?_⟩
        rw [hu.method] at hmethod
        cases hmethod
      · exact fun hboth hpage haddress hblock htables hcors =>
          hboth.1 ⟨hmethod, hpage, haddress, hblock, htables, hcors⟩
  | post =>
      rw [doPost_eq_iff halike h h']
      constructor
      · intro hpost
        refine ⟨fun hs => ?_, fun hu => hpost hu.path hu.address hu.block hu.body hu.lists hu.cors⟩
        rw [hs.method] at hmethod
        cases hmethod
      · exact fun hboth hpath haddress hblock hbody hlists hcors =>
          hboth.2 ⟨hmethod, hpath, haddress, hblock, hbody, hlists, hcors⟩
  | options =>
      refine iff_of_true ?_ ⟨fun hs => ?_, fun hu => ?_⟩
      · have hconceal : concealEntries cfg = concealEntries cfg' := halike
        show doOptions site.world cfg req = doOptions site.world cfg' req
        rw [doOptions, doOptions, ← originAllowed_conceal, hconceal, originAllowed_conceal]
        simp only [halike.sendJson, halike.refuse]
      · rw [hs.method] at hmethod
        cases hmethod
      · rw [hu.method] at hmethod
        cases hmethod
  | other =>
      refine iff_of_true (halike.refuse site.world req .unsupported) ⟨fun hs => ?_, fun hu => ?_⟩
      · rw [hs.method] at hmethod
        cases hmethod
      · rw [hu.method] at hmethod
        cases hmethod

end Responses

/-! ## §5 A configuration with a mail password -/

def intRead : Json Int → IntRead
  | .num n => .value n
  | _ => .invalid

@[reducible] def intPyInt : PyInt Int := ⟨intRead, fun _ => rfl, fun _ => rfl⟩

section Concrete

attribute [local instance] NetPulse.Server.asciiLower intPyStr intPyInt tokenBody

def plainSite : Site Int Text where
  world := plainWorld
  session := (none, none)
  database := true
  age := 0
  monitor := none
  tables := .ok ["audit_log"]
  modules := []
  version := "3"
  static _ := .missing
  inside _ _ := none
  handler _ _ _ := none

def mailConfig (password : String) : Entries Int :=
  [("web_auth_enabled", .bool true), ("web_token", .str "admin"),
    ("email", .obj [("password", .str password)])]

/-- `GET` without a credential. -/
def bareGet (path : String) : Request :=
  ⟨.get, "10.0.0.1", path, "", "", "", "", "", "", false, false, false, []⟩

theorem alike_mailConfig (password other : String) :
    Alike (mailConfig password) (mailConfig other) := by
  unfold Alike
  rfl

theorem unique_mailConfig (password : String) : (Json.obj (mailConfig password)).Unique := by
  simp [mailConfig, Json.Unique, UniqueEntries]

theorem mailConfig_unauthenticated (password path : String) :
    Unauthenticated plainWorld (mailConfig password) (bareGet path) (.invalid : Incoming Text) := by
  refine ⟨?_, ?_, ?_, ?_⟩
  · rfl
  · rw [show receiverAuthed plainWorld (mailConfig password) (bareGet path) = some false from rfl]
    decide
  · rw [show metricsAuthed plainWorld (mailConfig password) (bareGet path) = some false from rfl]
    decide
  · intro body hbody c hlogin
    cases hbody
    cases hlogin

/-- **The password of the mail account is in the page `meta`**, which is there for everybody. -/
theorem meta_shows_password :
    Alike (mailConfig "one") (mailConfig "two") ∧
      Unauthenticated plainWorld (mailConfig "one") (bareGet "/api/meta") (.invalid : Incoming Text) ∧
      Unauthenticated plainWorld (mailConfig "two") (bareGet "/api/meta") (.invalid : Incoming Text) ∧
      respond plainSite .initial 0 (mailConfig "one") (bareGet "/api/meta") (.invalid : Incoming Text) ≠
        respond plainSite .initial 0 (mailConfig "two") (bareGet "/api/meta") .invalid := by
  refine ⟨alike_mailConfig _ _, mailConfig_unauthenticated _ _, mailConfig_unauthenticated _ _,
    fun heq => ?_⟩
  have hone : ∀ password, respond plainSite .initial 0 (mailConfig password) (bareGet "/api/meta")
      (.invalid : Incoming Text) =
        some ⟨200, .metadata (metaPage plainSite (mailConfig password) ["audit_log"]), none⟩ := by
    intro password
    rfl
  have hemail : ∀ password, Dict.lookup "email" (metaConfig (mailConfig password)) =
      some (.obj [("password", .str password)]) := by
    intro password
    rfl
  rw [hone, hone, Option.some.injEq, Reply.mk.injEq] at heq
  have hshown := congrArg (fun page => Dict.lookup "email" page.config)
    (Page.metadata.inj heq.2.1)
  have hsame := (hemail "one").symm.trans (hshown.trans (hemail "two"))
  simp only [Option.some.injEq, Json.obj.injEq, List.cons.injEq, Prod.mk.injEq, Json.str.injEq] at hsame
  exact absurd hsame.1.2 (by decide)

/-- The settings are refused in one way, whatever the password. -/
theorem mail_settings_alike :
    respond plainSite .initial 0 (mailConfig "one") (bareGet "/api/settings")
        (.invalid : Incoming Text) =
      respond plainSite .initial 0 (mailConfig "two") (bareGet "/api/settings") .invalid := by
  refine (responses_alike_iff (alike_mailConfig _ _) (unique_mailConfig _)
    (mailConfig_unauthenticated _ _) (mailConfig_unauthenticated _ _)).mpr ⟨fun hs => ?_, fun hu => ?_⟩
  · exact absurd hs.page (by decide)
  · exact absurd hu.method (by decide)

end Concrete

end NetPulse.Gate
