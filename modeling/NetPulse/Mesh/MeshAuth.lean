import NetPulse.Lib.Json
import NetPulse.Lib.Machine
import NetPulse.Mesh.Protocol

/-
# NetPulse.Mesh.MeshAuth — who gets through the handshake (`networking/mesh_auth.py`)

With `local.secret` set, a node signs its HELLO with the HMAC of its own id and of a session id that
it has chosen itself, and the server checks the signature before it registers a channel. Nothing in
the signed text comes from the server or names it, so a HELLO that was seen once opens a channel
again, at any node. `admission` says that this is all an outsider can do: what it gets in with is a
signed text and a signature that it has seen.
A connector gets in with a secret that signs alike (`connector_accepted_iff`).

The HMAC is a parameter, and that it cannot be forged a hypothesis on the texts that outsiders know.
-/

namespace NetPulse.Mesh

open NetPulse.Lib

/-! ## §1 Signatures -/

/-- `s.encode('ascii')` does not raise. -/
def isAscii (s : String) : Bool := s.toList.all fun c => c.toNat < 128

/-- The base64 text of the HMAC-SHA256 of a text, under a secret. -/
class Hmac where
  mac : String → String → String
  mac_ascii : ∀ secret text, isAscii (mac secret text) = true
  mac_ne_empty : ∀ secret text, mac secret text ≠ ""

export Hmac (mac mac_ascii mac_ne_empty)

/-- `str(x)` for the values that a pack can hold. -/
class PyText (Num : Type) where
  pyStr : Json Num → String
  pyStr_str : ∀ s, pyStr (.str s) = s

export PyText (pyStr pyStr_str)

def SIG_FIELD : String := "sig"

inductive SigExn where
  | attributeError
  | unicodeEncodeError

/-- The text that is signed. -/
def helloText (nodeId sessionId : String) : String := nodeId ++ "\n" ++ sessionId

/-- A text with one line break is the signed text of one node id and one session id. -/
theorem helloText_inj {a b c d : String} (h : helloText a b = helloText c d)
    (hc : '\n' ∉ c.toList) (hd : '\n' ∉ d.toList) : a = c ∧ b = d := by
  have hlist : c.toList ++ '\n' :: d.toList = a.toList ++ '\n' :: b.toList := by
    have := congrArg String.toList h.symm
    simpa [helloText] using this
  obtain ⟨hca, -, hdb⟩ := (List.append_cons_inj_of_notMem hc hd).mp hlist
  exact ⟨String.toList_inj.mp hca.symm, String.toList_inj.mp hdb.symm⟩

section Signing

variable [Hmac]

def signHello (nodeId sessionId : String) (secret : Option String) : Option String :=
  match secret with
  | none => none
  | some secret => if secret = "" then none else some (mac secret (helloText nodeId sessionId))

variable {Num : Type} [Json.Truth Num]

/-- The `encode` of a value that is no text raises, and so does that of a text beyond ASCII. -/
def verifySig (nodeId sessionId : String) (secret : Option String) (provided : Json Num) :
    Except SigExn Bool :=
  if secret.getD "" = "" then .ok true
  else if !provided.truthy then .ok false
  else
    let expected := (signHello nodeId sessionId secret).getD ""
    if expected = "" then .ok false
    else
      match provided with
      | .str s =>
          if !isAscii expected || !isAscii s then .error .unicodeEncodeError
          else .ok (decide (expected = s))
      | _ => .error .attributeError

theorem signHello_some {nodeId sessionId secret : String} (hne : secret ≠ "") :
    signHello nodeId sessionId (some secret) = some (mac secret (helloText nodeId sessionId)) := by
  simp only [signHello, if_neg hne]

/-- What the check does with a text. -/
theorem verifySig_str {nodeId sessionId secret s : String} (hne : secret ≠ "") (hs : s ≠ "") :
    verifySig nodeId sessionId (some secret) (.str s : Json Num) =
      if isAscii s then .ok (decide (mac secret (helloText nodeId sessionId) = s))
      else .error .unicodeEncodeError := by
  have htrue : (Json.str s : Json Num).truthy = true := decide_eq_true hs
  simp only [verifySig, signHello_some hne, Option.getD_some, if_neg hne, htrue, mac_ascii,
    if_neg (mac_ne_empty _ _), Bool.not_true, Bool.false_or, Bool.false_eq_true, if_false]
  cases isAscii s with
  | true => rfl
  | false => rfl

/-- **The check passes** for the signature itself, and for nothing else. -/
theorem verifySig_true {nodeId sessionId secret : String} {provided : Json Num}
    (hne : secret ≠ "") :
    verifySig nodeId sessionId (some secret) provided = .ok true ↔
      provided = .str (mac secret (helloText nodeId sessionId)) := by
  constructor
  · intro h
    by_cases htruthy : provided.truthy = true
    · cases provided with
      | str s =>
          have hs : s ≠ "" := of_decide_eq_true htruthy
          rw [verifySig_str hne hs] at h
          split_ifs at h
          rw [of_decide_eq_true (Except.ok.inj h)]
      | _ =>
          -- a value without `encode` raises
          simp [verifySig, signHello_some hne, hne, mac_ne_empty, htruthy] at h
    · simp [verifySig, hne, htruthy] at h
  · rintro rfl
    rw [verifySig_str hne (mac_ne_empty _ _), if_pos (mac_ascii _ _)]
    simp

/-- The values that the check can compare: none at all, or a text in ASCII. -/
def Comparable (provided : Json Num) : Prop :=
  provided.truthy = false ∨ ∃ s, provided = .str s ∧ isAscii s = true

theorem verifySig_comparable (nodeId sessionId : String) {secret : String} {provided : Json Num}
    (hne : secret ≠ "") (hcmp : Comparable provided) :
    ∃ b, verifySig nodeId sessionId (some secret) provided = .ok b := by
  rcases hcmp with hfalsy | ⟨s, rfl, hascii⟩
  · exact ⟨false, by simp [verifySig, hne, hfalsy]⟩
  · by_cases hs : s = ""
    · subst hs
      exact ⟨false, by simp [verifySig, hne, Json.truthy]⟩
    · exact ⟨_, by rw [verifySig_str hne hs, if_pos hascii]⟩

end Signing

/-! ## §2 The server -/

/-- What the server reads of a pack that should be a HELLO. -/
structure HelloPack (Num : Type) where
  type : PackType
  dst : Option String
  data : Json Num

inductive Refusal where
  /-- `expected HELLO, got …` -/
  | notHello (type : PackType)
  /-- `HELLO addressed to …, this node is …` -/
  | addressedTo (dst : Option String)
  /-- `invalid HELLO signature` -/
  | invalidSignature

inductive Admission where
  | accepted
  | rejected (why : Refusal)
  /-- an exception ends the handler -/
  | raised

structure AuthConfig where
  NODE : String
  /-- `config.local.alias` -/
  localAlias : String
  /-- `config.local.secret` -/
  secret : Option String

section Server

variable [Canon] [Hmac] {Num : Type} [Json.Truth Num] [PyText Num]

/-- `pack.data or {}`; `none` for a value without `get`. -/
def HelloPack.helloData (p : HelloPack Num) : Option (Json.Entries Num) :=
  if !p.data.truthy then some []
  else
    match p.data with
    | .obj entries => some entries
    | _ => none

/-- `str(hello_data.get('session_id', ''))` -/
def sessionOf (entries : Json.Entries Num) : String :=
  pyStr ((Dict.lookup "session_id" entries).getD (.str ""))

/-- `hello_data.get(SIG_FIELD)` -/
def sigOf (entries : Json.Entries Num) : Json Num := (Dict.lookup SIG_FIELD entries).getD .null

/-- `websocket_endpoint`, from the first pack to the registration of the socket for `nodeId`. -/
def websocketEndpoint (cfg : AuthConfig) (nodeId : String) (p : HelloPack Num) : Admission :=
  if p.type ≠ .hello then .rejected (.notHello p.type)
  else if canon? p.dst ≠ some (canon cfg.NODE) ∧ canon? p.dst ≠ some (canon cfg.localAlias) then
    .rejected (.addressedTo p.dst)
  else
    match p.helloData with
    | none => .raised
    | some entries =>
        match verifySig nodeId (sessionOf entries) cfg.secret (sigOf entries) with
        | .ok true => .accepted
        | .ok false => .rejected .invalidSignature
        | .error _ => .raised

/-- The HELLO of `_handshake`. -/
def handshakeHello (NODE peer sessionId : String) (secret : Option String)
    (host port services : Json Num) : HelloPack Num where
  type := .hello
  dst := some peer
  data := .obj
    [("node_id", .str NODE), ("host", host), ("port", port), ("version", .str PROTOCOL_VERSION),
      ("session_id", .str sessionId), ("services", services), ("enc", .str "msgpack"),
      (SIG_FIELD, .str ((signHello NODE sessionId secret).getD ""))]

/-- The first frame is a HELLO for this node. -/
def AddressedTo (cfg : AuthConfig) (p : HelloPack Num) : Prop :=
  p.type = .hello ∧
    (canon? p.dst = some (canon cfg.NODE) ∨ canon? p.dst = some (canon cfg.localAlias))

theorem websocketEndpoint_accepted {cfg : AuthConfig} {nodeId : String} {p : HelloPack Num} :
    websocketEndpoint cfg nodeId p = .accepted ↔
      AddressedTo cfg p ∧ ∃ entries, p.helloData = some entries ∧
        verifySig nodeId (sessionOf entries) cfg.secret (sigOf entries) = .ok true := by
  unfold websocketEndpoint AddressedTo
  by_cases htype : p.type = .hello
  · by_cases hdst : canon? p.dst = some (canon cfg.NODE) ∨
        canon? p.dst = some (canon cfg.localAlias)
    · rw [if_neg (not_not.mpr htype), if_neg (by tauto)]
      cases p.helloData with
      | none => simp
      | some entries =>
          dsimp only
          cases hcheck : verifySig nodeId (sessionOf entries) cfg.secret (sigOf entries) with
          | error e => simp [hcheck]
          | ok b =>
              cases b with
              | true => simp [hcheck, htype, hdst]
              | false => simp [hcheck]
    · rw [if_neg (not_not.mpr htype), if_pos (by tauto)]
      simp [hdst]
  · rw [if_pos htype]
    simp [htype]

/-- **Where a connector gets in**: at the node that it means, if that one has no secret, or if its own
secret makes the same signature of the HELLO. -/
theorem connector_accepted_iff (cfg : AuthConfig) (NODE peer sessionId : String)
    (secret : Option String) (host port services : Json Num) :
    websocketEndpoint cfg NODE (handshakeHello NODE peer sessionId secret host port services) =
        .accepted ↔
      (canon peer = canon cfg.NODE ∨ canon peer = canon cfg.localAlias) ∧
        (cfg.secret.getD "" = "" ∨ secret.getD "" ≠ "" ∧
          mac (secret.getD "") (helloText NODE sessionId) =
            mac (cfg.secret.getD "") (helloText NODE sessionId)) := by
  have haddressed : AddressedTo cfg
      (handshakeHello NODE peer sessionId secret host port services) ↔
        canon peer = canon cfg.NODE ∨ canon peer = canon cfg.localAlias := by
    unfold AddressedTo handshakeHello
    rw [canon?_some, Option.some.injEq, Option.some.injEq]
    exact and_iff_right rfl
  -- the session id of the HELLO is a text, and its signature that of this text
  have hchecked : (∃ entries,
      (handshakeHello NODE peer sessionId secret host port services).helloData = some entries ∧
        verifySig NODE (sessionOf entries) cfg.secret (sigOf entries) = .ok true) ↔
      verifySig NODE sessionId cfg.secret
        (.str ((signHello NODE sessionId secret).getD "") : Json Num) = .ok true := by
    constructor
    · rintro ⟨entries, hentries, hcheck⟩
      cases hentries
      have htext : verifySig NODE (pyStr (.str sessionId : Json Num)) cfg.secret
          (.str ((signHello NODE sessionId secret).getD "") : Json Num) = .ok true := hcheck
      rwa [pyStr_str] at htext
    · intro hcheck
      refine ⟨_, rfl, ?_⟩
      show verifySig NODE (pyStr (.str sessionId : Json Num)) cfg.secret
        (.str ((signHello NODE sessionId secret).getD "")) = .ok true
      rwa [pyStr_str]
  rw [websocketEndpoint_accepted, haddressed, hchecked]
  refine and_congr_right fun _ => ?_
  by_cases hopen : cfg.secret.getD "" = ""
  · exact iff_of_true (by rw [verifySig, if_pos hopen]) (.inl hopen)
  · obtain ⟨own, hown⟩ : ∃ own, cfg.secret = some own := by
      cases hcfg : cfg.secret with
      | none => exact absurd (by rw [hcfg]; rfl) hopen
      | some own => exact ⟨own, rfl⟩
    rw [hown, Option.getD_some] at hopen ⊢
    rw [verifySig_true hopen, or_iff_right hopen, Json.str.injEq]
    by_cases hsecret : secret.getD "" = ""
    · have hnone : signHello NODE sessionId secret = none := by
        cases secret with
        | none => rfl
        | some s => exact if_pos hsecret
      rw [hnone, Option.getD_none]
      exact iff_of_false (Ne.symm (mac_ne_empty _ _)) fun h => h.1 hsecret
    · obtain ⟨s, rfl⟩ : ∃ s, secret = some s := by
        cases secret with
        | none => exact absurd rfl hsecret
        | some s => exact ⟨s, rfl⟩
      rw [Option.getD_some] at hsecret ⊢
      rw [signHello_some hsecret]
      exact (and_iff_right hsecret).symm

end Server

/-! ## §3 Members and outsiders -/

/-- What can be seen of a handshake: the id in the path, the session id and the signature. -/
structure Transcript where
  nodeId : String
  sessionId : String
  sig : String

/-- Who has opened a channel. -/
inductive Who (Num : Type) where
  | member (nodeId : String)
  | outsider (nodeId : String) (pack : HelloPack Num)

structure AuthState (Num : Type) where
  /-- All handshakes so far, as the outsiders have seen them. -/
  observed : List Transcript
  /-- `NodesManager.nodes` -/
  nodes : Dict String (Who Num)

inductive AuthEvent (Num : Type) where
  /-- A node that has the secret runs `_handshake`, with this server or with another one. -/
  | member (NODE peer sessionId : String) (host port services : Json Num) (here : Bool)
  /-- An outsider connects as `nodeId` and sends a pack. -/
  | outsider (nodeId : String) (pack : HelloPack Num)
  /-- The registered socket of `nodeId` closes. -/
  | closed (nodeId : String)

section Outsiders

variable [Canon] [Hmac] {Num : Type} [Json.Truth Num] [PyText Num]

/-- The end of the handshake: `nodes_manager.register`, if nothing was refused. -/
def AuthState.enter (cfg : AuthConfig) (s : AuthState Num) (nodeId : String) (p : HelloPack Num)
    (who : Who Num) : AuthState Num :=
  match websocketEndpoint cfg nodeId p with
  | .accepted => { s with nodes := s.nodes.set (canon nodeId) who }
  | _ => s

def authStep (cfg : AuthConfig) (s : AuthState Num) : AuthEvent Num → AuthState Num
  | .member NODE peer sessionId host port services here =>
      let hello := handshakeHello NODE peer sessionId cfg.secret host port services
      let s' := if here then s.enter cfg NODE hello (.member NODE) else s
      let sig := (signHello NODE sessionId cfg.secret).getD ""
      { s' with observed := s'.observed ++ [⟨NODE, sessionId, sig⟩] }
  | .outsider nodeId p => s.enter cfg nodeId p (.outsider nodeId p)
  | .closed nodeId => { s with nodes := s.nodes.pop (canon nodeId) }

/-- One server, its members, and outsiders that see every handshake of the mesh. -/
def authMachine (cfg : AuthConfig) : Machine (AuthState Num) (AuthEvent Num) where
  step s e := some (authStep cfg s e)

/-- The signature of the handshake is that of its text. -/
def Transcript.Genuine (secret : String) (t : Transcript) : Prop :=
  t.sig = mac secret (helloText t.nodeId t.sessionId)

/-- **The HMAC cannot be forged**: who has seen some signatures knows no others. -/
def Unforgeable (secret : String) (knows : List Transcript → String → Prop) : Prop :=
  ∀ seen : List Transcript, (∀ t ∈ seen, t.Genuine secret) →
    ∀ text, knows seen (mac secret text) → ∃ t ∈ seen, helloText t.nodeId t.sessionId = text

/-- What outsiders send: any pack, with a signature that they know if it is a text. -/
def OutsiderSends (knows : List Transcript → String → Prop) (s : AuthState Num) :
    AuthEvent Num → Prop
  | .outsider _ p => ∀ sig, p.helloData.map sigOf = some (.str sig) → knows s.observed sig
  | _ => True

/-- The HELLO has the signed text and the signature of a handshake. -/
structure Replays (t : Transcript) (nodeId : String) (p : HelloPack Num) : Prop where
  text : p.helloData.map (fun entries => helloText nodeId (sessionOf entries)) =
    some (helloText t.nodeId t.sessionId)
  sig : p.helloData.map sigOf = some (.str t.sig)

/-- Every channel of an outsider was opened with the signature of a handshake that was seen, and
under its node id. -/
def AuthState.OnlyReplays (s : AuthState Num) : Prop :=
  ∀ id nodeId p, s.nodes.get id = some (.outsider nodeId p) →
    ∃ t ∈ s.observed, Replays t nodeId p ∧
      ('\n' ∉ t.nodeId.toList → '\n' ∉ t.sessionId.toList → id = canon t.nodeId)

/-- What the server answers to an outsider: a channel for the repetition of a handshake and for
nothing else, and the check is false for any other signature that it can compare. -/
def AuthState.Answers (cfg : AuthConfig) (s : AuthState Num) : AuthEvent Num → Prop
  | .outsider nodeId p =>
      (websocketEndpoint cfg nodeId p = .accepted ↔
          AddressedTo cfg p ∧ ∃ t ∈ s.observed, Replays t nodeId p) ∧
        ∀ entries, p.helloData = some entries → Comparable (sigOf entries) →
          (∀ t ∈ s.observed, ¬ Replays t nodeId p) →
            verifySig nodeId (sessionOf entries) cfg.secret (sigOf entries) = .ok false
  | _ => True

/-! ## §4 What an outsider gets in with -/

variable {secret : String} {knows : List Transcript → String → Prop} {cfg : AuthConfig}
  {s : AuthState Num}

omit [Canon] in
/-- **The check passes for repetitions only.** -/
theorem verifySig_iff_replays (hne : secret ≠ "") (hunf : Unforgeable secret knows)
    {seen : List Transcript} (hseen : ∀ t ∈ seen, t.Genuine secret) {nodeId : String}
    {p : HelloPack Num} {entries : Json.Entries Num} (hp : p.helloData = some entries)
    (hknows : ∀ sig, p.helloData.map sigOf = some (.str sig) → knows seen sig) :
    verifySig nodeId (sessionOf entries) (some secret) (sigOf entries) = .ok true ↔
      ∃ t ∈ seen, Replays t nodeId p := by
  rw [verifySig_true hne]
  constructor
  · intro hsig
    have hmap : p.helloData.map sigOf =
        some (.str (mac secret (helloText nodeId (sessionOf entries)))) := by
      rw [hp, Option.map_some, hsig]
    obtain ⟨t, ht, htext⟩ := hunf seen hseen _ (hknows _ hmap)
    refine ⟨t, ht, ⟨?_, ?_⟩⟩
    · rw [hp, htext]
      rfl
    · rw [hmap, hseen t ht, htext]
  · rintro ⟨t, ht, htext, hsig⟩
    rw [hp] at htext hsig
    have htext' : helloText nodeId (sessionOf entries) = helloText t.nodeId t.sessionId :=
      Option.some.inj htext
    have hsig' : sigOf entries = .str t.sig := Option.some.inj hsig
    rw [hsig', htext', hseen t ht]

omit [Canon] [Hmac] in
/-- A repetition of one line comes under the node id of the handshake. -/
theorem Replays.nodeId_eq {t : Transcript} {nodeId : String} {p : HelloPack Num}
    (h : Replays t nodeId p) (hid : '\n' ∉ t.nodeId.toList) (hsession : '\n' ∉ t.sessionId.toList) :
    nodeId = t.nodeId := by
  obtain ⟨entries, -, htext⟩ := Option.map_eq_some_iff.mp h.text
  exact (helloText_inj htext hid hsession).1

/-- **What the server answers**, in one step. -/
theorem answers (hne : secret ≠ "") (hunf : Unforgeable secret knows)
    (hcfg : cfg.secret = some secret) (hseen : ∀ t ∈ s.observed, t.Genuine secret)
    {e : AuthEvent Num} (hsends : OutsiderSends knows s e) : s.Answers cfg e := by
  cases e with
  | member => trivial
  | closed => trivial
  | outsider nodeId p =>
      refine ⟨?_, ?_⟩
      · rw [websocketEndpoint_accepted, hcfg]
        refine and_congr_right fun _ => ⟨?_, ?_⟩
        · rintro ⟨entries, hp, hcheck⟩
          exact (verifySig_iff_replays hne hunf hseen hp hsends).mp hcheck
        · rintro ⟨t, ht, hreplays⟩
          obtain ⟨entries, hp, -⟩ := Option.map_eq_some_iff.mp hreplays.text
          have hcheck := (verifySig_iff_replays hne hunf hseen hp hsends).mpr ⟨t, ht, hreplays⟩
          exact ⟨entries, hp, hcheck⟩
      · intro entries hp hcmp hno
        rw [hcfg]
        obtain ⟨b, hb⟩ := verifySig_comparable nodeId (sessionOf entries) hne hcmp
        cases b with
        | false => exact hb
        | true =>
            obtain ⟨t, ht, hreplays⟩ := (verifySig_iff_replays hne hunf hseen hp hsends).mp hb
            exact absurd hreplays (hno t ht)

/-- A channel is opened under the canonical spelling of the id in the path, or no channel is. -/
theorem enter_cases (cfg : AuthConfig) (s : AuthState Num) (nodeId : String) (p : HelloPack Num)
    (who : Who Num) :
    (websocketEndpoint cfg nodeId p = .accepted ∧
      s.enter cfg nodeId p who = { s with nodes := s.nodes.set (canon nodeId) who }) ∨
    s.enter cfg nodeId p who = s := by
  unfold AuthState.enter
  cases haccepted : websocketEndpoint cfg nodeId p with
  | accepted => exact .inl ⟨rfl, rfl⟩
  | rejected => exact .inr rfl
  | raised => exact .inr rfl

omit [Hmac] in
/-- A new channel in the table: the others are as they were. -/
theorem AuthState.OnlyReplays.set (hs : s.OnlyReplays) {nodeId : String} {who : Who Num}
    (hwho : ∀ nodeId' p, who = .outsider nodeId' p → nodeId' = nodeId ∧
      ∃ t ∈ s.observed, Replays t nodeId p) :
    OnlyReplays { s with nodes := s.nodes.set (canon nodeId) who } := by
  intro id nodeId' p hget
  rw [Dict.get_set] at hget
  split_ifs at hget with hid
  · obtain ⟨rfl, t, ht, hreplays⟩ := hwho nodeId' p (Option.some.inj hget)
    exact ⟨t, ht, hreplays, fun h1 h2 => by rw [hid, hreplays.nodeId_eq h1 h2]⟩
  · exact hs id nodeId' p hget

/-- The invariant of a run: what was seen is genuine, and outsiders have repeated it. -/
structure Guest (secret : String) (s : AuthState Num) : Prop where
  genuine : ∀ t ∈ s.observed, t.Genuine secret
  replays : s.OnlyReplays

theorem Guest.step (hne : secret ≠ "") (hunf : Unforgeable secret knows)
    (hcfg : cfg.secret = some secret) (hs : Guest secret s) {e : AuthEvent Num}
    (hsends : OutsiderSends knows s e) : Guest secret (authStep cfg s e) := by
  cases e with
  | member NODE peer sessionId host port services here =>
      -- the table gets a member's channel at most, and what was seen grows
      have hentered : Guest secret (if here then s.enter cfg NODE
          (handshakeHello NODE peer sessionId cfg.secret host port services)
          (.member NODE) else s) := by
        cases here with
        | false => exact hs
        | true =>
            rcases enter_cases cfg s NODE
              (handshakeHello NODE peer sessionId cfg.secret host port services) (.member NODE)
              with ⟨-, heq⟩ | heq
            · rw [if_pos rfl, heq]
              exact ⟨hs.genuine, hs.replays.set fun _ _ h => by cases h⟩
            · rw [if_pos rfl, heq]
              exact hs
      refine ⟨?_, ?_⟩
      · intro t ht
        rcases List.mem_append.mp ht with ht | ht
        · exact hentered.genuine t ht
        · rw [List.mem_singleton.mp ht, hcfg, signHello_some hne]
          rfl
      · intro id nodeId p hget
        obtain ⟨t, ht, hreplays⟩ := hentered.replays id nodeId p hget
        exact ⟨t, List.mem_append_left _ ht, hreplays⟩
  | outsider nodeId p =>
      rcases enter_cases cfg s nodeId p (.outsider nodeId p) with ⟨haccepted, heq⟩ | heq
      · have hreplays := ((answers hne hunf hcfg hs.genuine hsends).1.mp haccepted).2
        show Guest secret (s.enter cfg nodeId p (.outsider nodeId p))
        rw [heq]
        exact ⟨hs.genuine, hs.replays.set fun _ _ h => by cases h; exact ⟨rfl, hreplays⟩⟩
      · show Guest secret (s.enter cfg nodeId p (.outsider nodeId p))
        rw [heq]
        exact hs
  | closed nodeId =>
      refine ⟨hs.genuine, ?_⟩
      intro id nodeId' p hget
      apply hs.replays id nodeId' p
      have hpop : (s.nodes.pop (canon nodeId)).get id = some (.outsider nodeId' p) := hget
      rw [Dict.get_pop] at hpop
      split_ifs at hpop
      exact hpop

/-- **Admission.** Along every run in which outsiders send what they can, an outsider has a channel
only by the repetition of a handshake that was seen, under the node id of that handshake; and each
time it connects, the server answers as `Answers` says. -/
theorem admission (hne : secret ≠ "") (hunf : Unforgeable secret knows)
    (hcfg : cfg.secret = some secret) (hs : Guest secret s) {es : List (AuthEvent Num)}
    (hsends : (authMachine cfg).Guarded (OutsiderSends knows) s es) :
    (authMachine cfg).Always AuthState.OnlyReplays s es ∧
      (authMachine cfg).Each (fun s e _ => AuthState.Answers cfg s e) s es := by
  have hstep : ∀ (s : AuthState Num) e s', Guest secret s → OutsiderSends knows s e →
      (authMachine cfg).step s e = some s' → Guest secret s' := by
    intro s e s' hs hsends hs'
    cases hs'
    exact hs.step hne hunf hcfg hsends
  refine ⟨?_, ?_⟩
  · exact Machine.always_of_guarded (fun s hs => hs.replays) hstep hs hsends
  · refine Machine.each_of_guarded ?_ hstep hs hsends
    intro s e s' hs hsends _
    exact answers hne hunf hcfg hs.genuine hsends

end Outsiders

/-! ## §5 A replay -/

section Concrete

attribute [local instance] asciiCanon

/-- The signature of node `b` for its session `s1` under the secret `sekret`. -/
def sigB : String := "hHy6jzVPwXgQZMfb9EFTC6UY0PN6W4sQ3K6YjZK+g0I="

/-- The HMAC on that text; on any other text, a value of its own. -/
@[reducible] def sekretHmac : Hmac where
  mac secret text := if secret = "sekret" ∧ text = "b\ns1" then sigB else "?"
  mac_ascii secret text := by
    split <;> decide
  mac_ne_empty secret text := by
    split <;> decide

@[reducible] def intTruth : Json.Truth Int := ⟨fun n => n ≠ 0⟩

@[reducible] def intText : PyText Int where
  pyStr := fun
    | .null => "None"
    | .bool b => if b then "True" else "False"
    | .num n => toString n
    | .str s => s
    | .list _ => "[...]"
    | .obj _ => "{...}"
  pyStr_str _ := rfl

attribute [local instance] sekretHmac intTruth intText

/-- Any text, but of the signatures only those that were seen. -/
def knowsSeen (seen : List Transcript) (text : String) : Prop :=
  text ≠ "?" ∧ (text = sigB → ∃ t ∈ seen, t.sig = sigB)

theorem knowsSeen_unforgeable : Unforgeable "sekret" knowsSeen := by
  intro seen hseen text hknows
  have hmac : ∀ text, mac "sekret" text = if text = "b\ns1" then sigB else "?" := fun text => by
    simp [mac]
  by_cases htext : text = "b\ns1"
  · rw [hmac, if_pos htext] at hknows
    obtain ⟨t, ht, hsig⟩ := hknows.2 rfl
    refine ⟨t, ht, ?_⟩
    have hgen := hseen t ht
    rw [Transcript.Genuine, hsig, hmac] at hgen
    split_ifs at hgen with htext'
    · rw [htext, htext']
    · exact absurd hgen (by decide)
  · rw [hmac, if_neg htext] at hknows
    exact absurd rfl hknows.1

def serverA : AuthConfig := ⟨"a", "a", some "sekret"⟩

/-- The HELLO of `b`, as an outsider has seen it. -/
def helloB : HelloPack Int :=
  handshakeHello "b" "a" "s1" (some "sekret") (.str "10.0.0.2") (.num 9000) (.list [])

/-- A HELLO under a session id of the outsider's own. -/
def forgedB : HelloPack Int where
  type := .hello
  dst := some "a"
  data := .obj [("node_id", .str "b"), ("session_id", .str "s2"), (SIG_FIELD, .str sigB)]

/-- Node `b` comes and goes; then an outsider connects as `b`, with a HELLO of its own and with a
copy. -/
def replayRun : List (AuthEvent Int) :=
  [.member "b" "a" "s1" (.str "10.0.0.2") (.num 9000) (.list []) true, .closed "b",
    .outsider "b" forgedB, .outsider "b" helloB]

def noNodes : AuthState Int := ⟨[], Dict.empty⟩

theorem noNodes_guest : Guest "sekret" noNodes where
  genuine t ht := by cases ht
  replays id nodeId p hget := by cases hget

theorem replayRun_sends :
    (authMachine serverA).Guarded (OutsiderSends knowsSeen) noNodes replayRun := by
  have hknows : knowsSeen [⟨"b", "s1", sigB⟩] sigB :=
    ⟨by decide, fun _ => ⟨_, List.mem_singleton_self _, rfl⟩⟩
  refine ⟨trivial, fun s hs => ?_⟩
  cases hs
  refine ⟨trivial, fun s hs => ?_⟩
  cases hs
  refine ⟨?_, fun s hs => ?_⟩
  · intro sig hsig
    have heq : some (Json.str sigB : Json Int) = some (.str sig) := hsig
    cases heq
    exact hknows
  · cases hs
    refine ⟨?_, fun s hs => trivial⟩
    intro sig hsig
    have heq : some (Json.str sigB : Json Int) = some (.str sig) := hsig
    cases heq
    exact hknows

theorem admission_run :
    (authMachine serverA).Always AuthState.OnlyReplays noNodes replayRun ∧
      (authMachine serverA).Each (fun s e _ => AuthState.Answers serverA s e) noNodes replayRun :=
  admission (by decide) knowsSeen_unforgeable rfl noNodes_guest replayRun_sends

/-- **The copy is let in**: although nothing is forged, the outsider has a channel as `b`. -/
theorem replay_is_admitted : Unforgeable "sekret" knowsSeen ∧
    (authMachine serverA).Guarded (OutsiderSends knowsSeen) noNodes replayRun ∧
    ∃ s, (authMachine serverA).run noNodes replayRun = some s ∧
      s.nodes.get "b" = some (.outsider "b" helloB) :=
  ⟨knowsSeen_unforgeable, replayRun_sends, _, rfl, rfl⟩

end Concrete

end NetPulse.Mesh
