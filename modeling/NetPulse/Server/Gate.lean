import NetPulse.Server.Settings
import NetPulse.Lib.Text
import NetPulse.Lib.Except
import Mathlib.Algebra.Order.Ring.Rat

/-
# NetPulse.Server.Gate — the door of the HTTP server (`server.py`)

What `do_GET` and `do_POST` look at before a handler runs: the networks that are let in, the block
of an address with too many failures, the credential (`X-Auth` or one of two cookies), the bearer
tokens of the alert receiver and of the metrics, the origin, the length of the body and the role.

Every check answers with a value or with a `Refusal`. An exception that nobody catches closes the
connection without an answer; that is the refusal `dropped`. Headers are the texts of a request that
has been parsed, `""` for one that is missing.
-/

namespace NetPulse.Gate

open NetPulse.Lib NetPulse.Lib.Json
open NetPulse.Server (Lower lower occursIn isSet)

variable {Num : Type}

/-! ## §1 Texts -/

def begins (start s : String) : Bool := start.toList.isPrefixOf s.toList

/-- `s[len(start):]` -/
def after (start s : String) : String := String.ofList (s.toList.drop start.toList.length)

def blank (c : Char) : Bool := Text.whitespace c.toNat

/-- `s.strip()` -/
def stripBlank (s : String) : String :=
  String.ofList ((s.toList.dropWhile blank).rdropWhile blank)

/-- `s.rstrip("/")` -/
def rstripSlash (s : String) : String := String.ofList (s.toList.rdropWhile fun c => c == '/')

/-- `name=([^\s;]+)` at the start. -/
def valueAt (name s : List Char) : Option (List Char) :=
  if (name ++ ['=']).isPrefixOf s then
    let value := (s.drop (name.length + 1)).takeWhile fun c => !blank c && c != ';'
    if value.isEmpty then none else some value
  else none

/-- `;\s*name=([^\s;]+)` at the leftmost place where it matches. -/
def valueAfter (name : List Char) : List Char → Option (List Char)
  | [] => none
  | c :: rest =>
      (if c = ';' then valueAt name (rest.dropWhile blank) else none).or (valueAfter name rest)

/-- `re.search(rf"(?:^|;\s*){name}=([^\s;]+)", cookie)` -/
def cookieValue (name cookie : String) : Option String :=
  ((valueAt name.toList cookie.toList).or (valueAfter name.toList cookie.toList)).map String.ofList

/-! ## §2 The configuration -/

/-- `str(value)`. What it makes of a list or an object begins with the bracket. -/
class PyStr (Num : Type) where
  text : Json Num → String
  text_str : ∀ s, text (.str s) = s
  text_list : ∀ items, (text (.list items)).toList.head? = some '['
  text_obj : ∀ entries, (text (.obj entries)).toList.head? = some '{'

export PyStr (text text_str text_list text_obj)

section Config

variable [Truth Num]

/-- `cfg.get(key) or {}`, of which a key is asked next: a true value that is no object has none. -/
def sectionOf (key : String) (cfg : Entries Num) : Option (Entries Num) :=
  match Dict.lookup key cfg with
  | none => some []
  | some (.obj entries) => some entries
  | some other => if other.truthy then none else some []

/-- `for x in (value or [])` -/
def eachOf : Option (Json Num) → Option (List (Json Num))
  | none => some []
  | some (.list items) => some items
  | some (.obj entries) => some (entries.map fun e => .str e.1)
  | some (.str s) => some (s.toList.map fun c => .str (String.singleton c))
  | some other => if other.truthy then none else some []

/-- The items of a list; of anything else, none. -/
def itemsOf : Option (Json Num) → List (Json Num)
  | some (.list items) => items
  | _ => []

end Config

inductive Role where
  | admin
  | operator
  | viewer
  deriving DecidableEq

def Role.ofName (name : String) : Role :=
  if name = "admin" then .admin else if name = "operator" then .operator else .viewer

structure Candidate where
  name : String
  token : String
  role : Role
  deriving DecidableEq

section Candidates

variable [Truth Num] [PyStr Num]

/-- `str(entry.get("name") or "?")` -/
def nameOf (entry : Entries Num) : String :=
  ((Dict.lookup "name" entry).filter truthy).elim "?" text

/-- `str(user.get('role', 'viewer'))` -/
def roleOf (entry : Entries Num) : Role :=
  (Dict.lookup "role" entry).elim .viewer fun role => Role.ofName (text role)

/-- The objects among the values that have a token. -/
def candidatesIn (role : Entries Num → Role) (values : List (Json Num)) : List Candidate :=
  values.filterMap fun value =>
    match value with
    | .obj entry =>
        ((Dict.lookup "token" entry).filter truthy).map fun token =>
          ⟨nameOf entry, text token, role entry⟩
    | _ => none

/-- The `web_token`, for the name `admin`. -/
def ownCandidate (cfg : Entries Num) : List Candidate :=
  (((Dict.lookup "web_token" cfg).filter truthy).map fun token =>
    ⟨"admin", text token, .admin⟩).toList

def candidates (cfg : Entries Num) : List Candidate :=
  candidatesIn (fun _ => .admin) (itemsOf (Dict.lookup "web_admins" cfg)) ++
    candidatesIn roleOf (itemsOf (Dict.lookup "web_users" cfg)) ++ ownCandidate cfg

/-- The same for the login, which takes anything that can be iterated for a list. -/
def loginCandidates (cfg : Entries Num) : Option (List Candidate) := do
  let admins ← eachOf (Dict.lookup "web_admins" cfg)
  let users ← eachOf (Dict.lookup "web_users" cfg)
  some (candidatesIn (fun _ => .admin) admins ++ ownCandidate cfg ++ candidatesIn roleOf users)

end Candidates

/-! ## §3 Requests and refusals -/

inductive Method where
  | get
  | post
  | options
  /-- Any other, which the base class refuses. -/
  | other
  deriving DecidableEq

structure Request where
  method : Method
  ip : String
  /-- `urlparse(self.path).path` -/
  path : String
  xAuth : String
  cookie : String
  authorization : String
  contentType : String
  host : String
  origin : String
  requestHeaders : Bool
  requestMethod : Bool
  transferEncoding : Bool
  /-- Each `Content-Length`, read by `int`. -/
  contentLength : List (Option Int)

/-- What the door asks its surroundings: the environment variables, the address module, and whether
the connection is encrypted. -/
structure World where
  environ : String → String
  inNetwork : String → String → Bool
  bracket : ∀ ip network, network.toList.head? = some '[' ∨ network.toList.head? = some '{' →
    inNetwork ip network = false
  tls : Bool

inductive Refusal where
  | dropped
  | unsupported
  | unknownEndpoint
  | address
  | blocked (wait : Int)
  | unauthorized
  /-- A public name without a route. -/
  | unrouted
  | receiver
  | contentType
  | csrf
  | xAuth
  | preflight
  | transferEncoding
  | contentLength
  | tooLarge
  | invalidBody
  | bodyTimeout
  | wrongToken
  | role
  deriving DecidableEq

/-- Status and text of the answer. -/
def Refusal.answer : Refusal → Option (Nat × String)
  | dropped => none
  | unsupported => some (501, "Unsupported method")
  | unknownEndpoint => some (404, "unknown endpoint")
  | address => some (403, "forbidden: IP вне разрешённых сетей")
  | blocked wait =>
      some (429, "слишком много неудачных попыток, подождите " ++ toString wait ++ " c")
  | unauthorized | unrouted => some (401, "unauthorized")
  | receiver => some (401, "unauthorized receiver")
  | contentType => some (415, "нужен Content-Type: application/json")
  | csrf => some (403, "csrf: недопустимый Origin")
  | xAuth => some (403, "нужен заголовок X-Auth")
  | preflight => some (403, "cors: origin forbidden")
  | transferEncoding => some (400, "transfer encoding not supported")
  | contentLength => some (400, "invalid Content-Length")
  | tooLarge => some (413, "request exceeds 1 MiB")
  | invalidBody => some (400, "valid JSON object required")
  | bodyTimeout => some (408, "request body timeout")
  | wrongToken => some (401, "неверный токен")
  | role => some (403, "forbidden: недостаточно прав для действия")

/-- An exception that nobody catches. -/
def orDropped {α : Type} (value : Option α) : Except Refusal α := value.elim (.error .dropped) .ok

def refuseUnless (c : Prop) [Decidable c] (r : Refusal) : Except Refusal Unit :=
  if c then .ok () else .error r

/-! ## §4 The block of an address -/

def AUTH_MAX_FAILS : Nat := 5

def AUTH_BLOCK_SEC : ℚ := 600

/-- `AUTH_FAILS` and `AUTH_BLOCK` -/
structure AuthState where
  fails : Dict String (Nat × ℚ)
  block : Dict String ℚ

def AuthState.initial : AuthState := ⟨Dict.empty, Dict.empty⟩

/-- Count and start of the window, which a failure after its end opens anew. -/
def AuthState.window (s : AuthState) (ip : String) (now : ℚ) : Nat × ℚ :=
  let found := (s.fails.get ip).getD (0, now)
  if now - found.2 > AUTH_BLOCK_SEC then (0, now) else found

/-- `_auth_fail` -/
def authFail (s : AuthState) (ip : String) (now : ℚ) : AuthState :=
  let (cnt, t0) := s.window ip now
  if cnt + 1 ≥ AUTH_MAX_FAILS then
    { fails := s.fails.pop ip, block := s.block.set ip (now + AUTH_BLOCK_SEC) }
  else { s with fails := s.fails.set ip (cnt + 1, t0) }

theorem authFail_eq (s : AuthState) (ip : String) (now : ℚ) : authFail s ip now =
    if (s.window ip now).1 + 1 ≥ AUTH_MAX_FAILS then
      { fails := s.fails.pop ip, block := s.block.set ip (now + AUTH_BLOCK_SEC) }
    else { s with fails := s.fails.set ip ((s.window ip now).1 + 1, (s.window ip now).2) } := rfl

/-- `_auth_blocked`: the whole seconds that are left. The end of a block is never the moment zero. -/
def authBlocked (s : AuthState) (ip : String) (now : ℚ) : AuthState × Int :=
  match s.block.get ip with
  | none => (s, 0)
  | some ends =>
      if now < ends then (s, (ends - now).floor) else ({ s with block := s.block.pop ip }, 0)

/-- A successful login forgets both. -/
def authReset (s : AuthState) (ip : String) : AuthState := ⟨s.fails.pop ip, s.block.pop ip⟩

/-! ## §5 Credentials -/

section Credentials

variable [Truth Num] [PyStr Num]

/-- The header and the two cookies. -/
def Request.supplied (req : Request) : List String :=
  req.xAuth :: (cookieValue "np_session" req.cookie).toList ++
    (cookieValue "np_token" req.cookie).toList

/-- `_identity`; without authentication everybody is the administrator. -/
def identity (cfg : Entries Num) (req : Request) : Option (String × Role) :=
  if isSet "web_auth_enabled" cfg then
    ((candidates cfg).find? fun c => req.supplied.any fun s => s ≠ "" && s == c.token).map fun c =>
      (c.name, c.role)
  else some ("admin", .admin)

/-- `section.get('token_env', default)`; the environment is asked for texts only. -/
def tokenEnv (default : String) (entries : Entries Num) : Option String :=
  match Dict.lookup "token_env" entries with
  | none => some default
  | some (.str name) => some name
  | some _ => none

/-- A bearer token against the variable that a section of the configuration names. -/
def bearerAuthed (w : World) (key default : String) (cfg : Entries Num) (req : Request) :
    Option Bool := do
  let entries ← sectionOf key cfg
  let name ← tokenEnv default entries
  let expected := w.environ name
  some (expected ≠ "" && begins "Bearer " req.authorization &&
    after "Bearer " req.authorization == expected)

/-- `_receiver_authed` -/
def receiverAuthed (w : World) (cfg : Entries Num) (req : Request) : Option Bool :=
  bearerAuthed w "alertmanager" "NP_ALERTMANAGER_TOKEN" cfg req

/-- `_metrics_authed` -/
def metricsAuthed (w : World) (cfg : Entries Num) (req : Request) : Option Bool :=
  bearerAuthed w "metrics" "NP_METRICS_TOKEN" cfg req

/-- `_allowlist_denied` -/
def allowlistDenied (w : World) (ip : String) (cfg : Entries Num) : Option Bool := do
  let aw ← sectionOf "ip_allowlist" cfg
  if isSet "enabled" aw then
    let networks ← eachOf (Dict.lookup "networks" aw)
    some (!networks.any fun network => w.inNetwork ip (text network))
  else some false

end Credentials

/-! ## §6 Origins -/

section Origins

variable [Truth Num]

/-- `_own_origin` -/
def ownOrigin (w : World) (req : Request) : List String :=
  if req.host = "" then []
  else [rstripSlash ((if w.tls then "https" else "http") ++ "://" ++ req.host)]

/-- An origin of the configuration. -/
def originOf : Json Num → Option String
  | .str s => if stripBlank s = "" then none else some (rstripSlash (stripBlank s))
  | _ => none

/-- `_allowed_origins` -/
def allowedOrigins (w : World) (cfg : Entries Num) (req : Request) : Option (List String) :=
  (eachOf (Dict.lookup "web_cors_origins" cfg)).map fun values =>
    ownOrigin w req ++ values.filterMap originOf

def Request.cleanOrigin (req : Request) : String := rstripSlash (stripBlank req.origin)

/-- `_origin_allowed` -/
def originAllowed (w : World) (cfg : Entries Num) (req : Request) : Option Bool :=
  if req.cleanOrigin = "" then some true
  else (allowedOrigins w cfg req).map fun origins => origins.contains req.cleanOrigin

structure Cors where
  origin : String
  headers : Bool
  methods : Bool
  deriving DecidableEq

/-- `_cors_headers` -/
def corsHeaders (w : World) (cfg : Entries Num) (req : Request) : Option (Option Cors) :=
  if req.cleanOrigin = "" then some none
  else (allowedOrigins w cfg req).map fun origins =>
    if origins.contains req.cleanOrigin then
      some ⟨req.cleanOrigin, req.requestHeaders, req.requestMethod⟩
    else none

end Origins

/-! ## §7 Routes -/

def PUBLIC_ENDPOINTS : List String := ["whoami", "meta", "login"]

def ROUTES_GET : List (String × String) :=
  [("operations", "operations_state"), ("device", "device_detail"), ("incident", "incident_detail"),
    ("deviceconfig", "device_configuration"), ("health", "health_get"), ("state", "state"),
    ("history", "history"), ("dbhistory", "db_history"), ("interfaces", "interfaces"),
    ("connections", "connections"), ("topprocesses", "top_processes"), ("apps", "apps"),
    ("appnewconn", "app_new_connections"), ("appexe", "app_exe"), ("idsfeed", "ids_feed"),
    ("firewallrules", "firewall_rules"), ("ping", "ping_probe"), ("trace", "trace"),
    ("traceall", "trace_targets"), ("dnsbest", "dns_best"), ("dnsresolve", "dns_resolve"),
    ("speedtest", "speedtest"), ("uploadtest", "speedtest_upload"), ("speedlog", "speedtest_log"),
    ("mtrstats", "mtr_stats"), ("landevices", "lan_devices"), ("capturestate", "capture_state"),
    ("securityresult", "security_result"), ("alerts", "alerts"), ("ai", "ai_stats"),
    ("settings", "settings_get"), ("backuplist", "backup_list"), ("audit", "audit"),
    ("journal", "journal_list"), ("journalreport", "journal_report"), ("hosts", "hosts_list"),
    ("hostdetail", "host_detail_ep"), ("events", "events_feed"), ("runbooks", "runbooks_list"),
    ("backupstatus", "backup_status_list"), ("planner", "planner_list"),
    ("softsearch", "software_search"), ("gposcript", "gpo_script"),
    ("diskforecast", "disk_forecast_ep"), ("selftest", "selftest"), ("meta", "meta"),
    ("whoami", "whoami"), ("infra", "infra_list"), ("infradtype", "infra_dtype"),
    ("infradiff", "infra_diff"), ("healing", "healing_status"), ("map", "map"),
    ("swagger", "swagger"), ("customchecks", "customchecks"), ("sla", "sla_ep"),
    ("geomap", "geo_ep"), ("ramforecast", "ram_forecast_ep"), ("l2map", "l2_map_ep"),
    ("ptrs", "ptrs_ep"), ("mtrhistory", "mtr_history_ep"), ("mikrotik", "mikrotik_status"),
    ("cvestatus", "cve_status"), ("proxmox", "proxmox_status"), ("reportpdf", "report_pdf"),
    ("p2pstatus", "p2p_status"), ("p2pnodes", "p2p_nodes"), ("p2pservices", "p2p_services"),
    ("p2pmetrics", "p2p_metrics")]

def ROUTES_POST : List (String × String) :=
  [("devicemeta", "device_metadata"), ("incidentchange", "incident_change"),
    ("incidentcreate", "incident_create"), ("alertmanager", "alertmanager_receive"),
    ("devicesave", "device_save"), ("deviceprobe", "device_probe"),
    ("notificationtest", "notifications_test"), ("settings", "settings_post"),
    ("alertsack", "alerts_ack"), ("aitrain", "ai_train"), ("securityscan", "security_scan"),
    ("mtrstart", "mtr_start"), ("mtrstop", "mtr_stop"), ("lanscan", "lan_scan"),
    ("lanscanjob", "lan_scan_job"), ("portscan", "port_scan"), ("capturestart", "capture_start"),
    ("capturestop", "capture_stop"), ("fwblockip", "firewall_block_ip"),
    ("fwblockapp", "firewall_block_app"), ("fwunblock", "firewall_unblock"),
    ("backuprun", "backup_run"), ("backupjob", "backup_job"), ("backupverify", "backup_verify"),
    ("journaladd", "journal_add"), ("journaldel", "journal_delete"),
    ("runbookexec", "runbook_exec"), ("watchdogpoll", "watchdog_poll"),
    ("healthrecompute", "health_recompute"), ("backupcheck", "backup_check_now"),
    ("plannerdone", "planner_done"), ("invreport", "inv_report"), ("wol", "wol_wake"),
    ("lanalias", "lan_alias"), ("infrascan", "infra_scan"), ("infradtype", "infra_dtype"),
    ("idswl", "ids_wl_add"), ("customchecksrun", "customchecks_run"), ("l2scan", "l2_scan"),
    ("cvescan", "cve_scan"), ("mikrotikpoll", "mikrotik_poll"), ("proxmoxpoll", "proxmox_poll"),
    ("mtrfan", "mtr_fan"), ("p2pcall", "p2p_call")]

/-- What an operator may do. -/
def operator_actions : List String :=
  ["alertsack", "lanalias", "devicemeta", "incidentchange", "incidentcreate"]

/-- The name behind `/api/`. -/
def Request.endpoint (req : Request) : String := after "/api/" (rstripSlash req.path)

/-- The path of a `GET`. -/
def Request.page (req : Request) : String :=
  if rstripSlash req.path = "" then "/" else rstripSlash req.path

/-! ## §8 `do_GET` -/

/-- A page that is answered before the block is looked at. -/
def isProbe (page : String) : Bool := page == "/healthz" || page == "/readyz"

/-- A page that needs a credential. -/
def isGuarded (page : String) : Bool :=
  begins "/api/" page || page == "/metrics" ||
    ["/journal.txt", "/journal.csv", "/report.txt"].contains page

/-- How far a `GET` gets. -/
inductive Passage where
  | probe
  /-- A page without a credential. -/
  | outside
  /-- A public endpoint, for somebody without a credential. -/
  | shown (handler : String)
  /-- With a credential; none is the bearer of the metrics. -/
  | inside (ident : Option (String × Role))
  deriving DecidableEq

section Doors

variable [Truth Num] [PyStr Num]

/-- The networks that are let in. -/
def addressCheck (w : World) (cfg : Entries Num) (req : Request) : Except Refusal Unit := do
  let denied ← orDropped (allowlistDenied w req.ip cfg)
  refuseUnless (denied = false) .address

/-- `path == "/metrics" and self._metrics_authed()` -/
def metricsCheck (w : World) (cfg : Entries Num) (req : Request) : Except Refusal Bool :=
  if req.page = "/metrics" then orDropped (metricsAuthed w cfg req) else .ok false

/-- Without an identity: the metrics have a bearer of their own, and two endpoints are public. -/
def publicAccess (w : World) (cfg : Entries Num) (req : Request) : Except Refusal Passage := do
  let metrics ← metricsCheck w cfg req
  if metrics then .ok (.inside none)
  else do
    let name := if begins "/api/" req.page then after "/api/" req.page else ""
    refuseUnless (name ∈ PUBLIC_ENDPOINTS) .unauthorized
    (Dict.lookup name ROUTES_GET).elim (.error .unrouted) fun handler => .ok (.shown handler)

/-- What comes after the block has been looked at. -/
def getAccess (w : World) (cfg : Entries Num) (req : Request) : Except Refusal Passage :=
  if isGuarded req.page then
    match identity cfg req with
    | some ident => .ok (.inside (some ident))
    | none => publicAccess w cfg req
  else .ok .outside

/-- The gate of `do_GET`, with the seconds that a block has left. -/
def getGate (w : World) (cfg : Entries Num) (wait : Int) (req : Request) :
    Except Refusal Passage := do
  addressCheck w cfg req
  if isProbe req.page then .ok .probe
  else do
    refuseUnless (wait = 0) (.blocked wait)
    getAccess w cfg req

/-! ## §9 `do_POST` -/

/-- How far a `POST` gets before its body is read. -/
inductive Access where
  | login
  /-- For a handler; `receiver` when the bearer of the alerts has been accepted. -/
  | action (receiver : Bool)
  deriving DecidableEq

section Post

variable [Lower]

def isLogin (req : Request) : Bool := rstripSlash req.path == "/api/login"

def isReceiver (req : Request) : Bool := rstripSlash req.path == "/api/alertmanager"

/-- The checks against requests that another site makes the browser send. -/
def csrfCheck (w : World) (cfg : Entries Num) (req : Request) (receiver : Bool) :
    Except Refusal Access := do
  refuseUnless (occursIn "application/json" (lower req.contentType) = true) .contentType
  let allowed ← orDropped (originAllowed w cfg req)
  refuseUnless (allowed = true) .csrf
  refuseUnless (¬ (isSet "web_auth_enabled" cfg = true ∧ receiver = false ∧ req.xAuth = "")) .xAuth
  .ok (.action receiver)

/-- `is_receiver and self._receiver_authed()` -/
def receiverCheck (w : World) (cfg : Entries Num) (req : Request) : Except Refusal Bool :=
  if isReceiver req then orDropped (receiverAuthed w cfg req) else .ok false

/-- What comes after the block has been looked at, up to the body. -/
def postAccess (w : World) (cfg : Entries Num) (req : Request) : Except Refusal Access := do
  if isLogin req then .ok .login
  else do
    let receiver ← receiverCheck w cfg req
    refuseUnless (isReceiver req = false ∨ receiver = true) .receiver
    refuseUnless (receiver = true ∨ (identity cfg req).isSome = true) .unauthorized
    csrfCheck w cfg req receiver

/-- The gate of `do_POST`, with the seconds that a block has left. -/
def postGate (w : World) (cfg : Entries Num) (wait : Int) (req : Request) :
    Except Refusal Access := do
  refuseUnless (begins "/api/" (rstripSlash req.path) = true) .unknownEndpoint
  addressCheck w cfg req
  refuseUnless (wait = 0) (.blocked wait)
  postAccess w cfg req

end Post

/-- What arrives of a body: nothing in time, something that is no JSON object, or one. -/
inductive Incoming (β : Type) where
  | timeout
  | invalid
  | object (body : β)

/-- Bodies, of which the login reads `str(body.get("token") or "")`. -/
class LoginBody (β : Type) where
  empty : β
  token : β → Text
  token_empty : token empty = []

def readBody {β : Type} [LoginBody β] (req : Request) (incoming : Incoming β) :
    Except Refusal β := do
  refuseUnless (req.transferEncoding = false) .transferEncoding
  refuseUnless (req.contentLength.length ≤ 1) .contentLength
  let length ← (req.contentLength.head?.getD (some 0)).elim (.error .contentLength) .ok
  refuseUnless (0 ≤ length) .contentLength
  refuseUnless (length ≤ 1024 * 1024) .tooLarge
  if length = 0 then .ok LoginBody.empty
  else
    match incoming with
    | .timeout => .error .bodyTimeout
    | .invalid => .error .invalidBody
    | .object body => .ok body

/-- The comparisons of a login. A text with a surrogate cannot be encoded. -/
def matchToken (token : Text) : List Candidate → Except Refusal Candidate
  | [] => .error .wrongToken
  | c :: rest =>
      if token = [] then matchToken token rest
      else if token.encodable = false then .error .dropped
      else if token = Text.lit c.token then .ok c
      else matchToken token rest

def login {β : Type} [LoginBody β] (cfg : Entries Num) (body : β) : Except Refusal Candidate := do
  let cands ← orDropped (loginCandidates cfg)
  matchToken (LoginBody.token body).strip cands

/-- What the role check lets through: the handler, and for whom it runs. -/
structure Dispatch where
  handler : String
  actor : String
  /-- The role, or `receiver`. -/
  role : String
  deriving DecidableEq

def Role.name : Role → String
  | admin => "admin"
  | operator => "operator"
  | viewer => "viewer"

/-- A viewer may do nothing and an operator five things. -/
def mayAct (role : Role) (name : String) : Bool :=
  match role with
  | .admin => true
  | .operator => operator_actions.contains name
  | .viewer => false

/-- The actor and the role that the handler and the audit see. -/
def actorOf (receiver : Bool) (ident : Option (String × Role)) : String × String :=
  if receiver then ("alertmanager", "receiver")
  else ident.elim ("admin", "admin") fun i => (i.1, i.2.name)

/-- The role check. The identity is asked for a second time; where there is none by now, the request
goes on. -/
def roleCheck (cfg : Entries Num) (req : Request) (receiver : Bool) : Except Refusal Dispatch := do
  let handler ← (Dict.lookup req.endpoint ROUTES_POST).elim (.error .unknownEndpoint) .ok
  let ident := identity cfg req
  refuseUnless (∀ i ∈ ident, mayAct i.2 req.endpoint = true) .role
  let actor := actorOf receiver ident
  .ok ⟨handler, actor.1, actor.2⟩

/-- What a `POST` has passed all checks for. -/
inductive Passed (β : Type) where
  | welcome (c : Candidate)
  | dispatch (d : Dispatch) (body : β)

/-- What follows the body. -/
def postAction {β : Type} [LoginBody β] (cfg : Entries Num) (req : Request) (body : β) :
    Access → Except Refusal (Passed β)
  | .login => (login cfg body).map .welcome
  | .action receiver => (roleCheck cfg req receiver).map fun d => .dispatch d body

/-- All checks of `do_POST`. -/
def postChecks {β : Type} [LoginBody β] [Lower] (w : World) (cfg : Entries Num) (wait : Int)
    (req : Request) (incoming : Incoming β) : Except Refusal (Passed β) := do
  let access ← postGate w cfg wait req
  let body ← readBody req incoming
  postAction cfg req body access

/-! ## §10 What a check lets through -/

omit [Truth Num] [PyStr Num] in
theorem refuseUnless_eq_ok {c : Prop} [Decidable c] {r : Refusal} {u : Unit} :
    refuseUnless c r = .ok u ↔ c := by
  unfold refuseUnless
  split_ifs with h
  · exact iff_of_true rfl h
  · exact iff_of_false (fun heq => by cases heq) h

omit [Truth Num] [PyStr Num] in
theorem orDropped_eq_ok {α : Type} {o : Option α} {a : α} : orDropped o = .ok a ↔ o = some a :=
  elim_eq_ok

theorem addressCheck_eq_ok {w : World} {cfg : Entries Num} {req : Request} {u : Unit} :
    addressCheck w cfg req = .ok u ↔ allowlistDenied w req.ip cfg = some false := by
  simp only [addressCheck, bind_eq_ok, orDropped_eq_ok, refuseUnless_eq_ok]
  constructor
  · rintro ⟨denied, hdenied, rfl⟩
    exact hdenied
  · exact fun h => ⟨false, h, rfl⟩

/-- **Who gets through the gate of `do_GET`.** -/
theorem getGate_eq_ok {w : World} {cfg : Entries Num} {wait : Int} {req : Request} {p : Passage} :
    getGate w cfg wait req = .ok p ↔ allowlistDenied w req.ip cfg = some false ∧
      (isProbe req.page = true ∧ p = .probe ∨
        isProbe req.page = false ∧ wait = 0 ∧ getAccess w cfg req = .ok p) := by
  simp only [getGate, bind_eq_ok, addressCheck_eq_ok, exists_const]
  refine and_congr_right fun _ => ?_
  by_cases hprobe : isProbe req.page = true
  · rw [if_pos hprobe, Except.ok.injEq, eq_comm]
    simp [hprobe]
  · rw [if_neg hprobe]
    simp [hprobe, bind_eq_ok, refuseUnless_eq_ok]

theorem addressCheck_of_let_in {w : World} {cfg : Entries Num} {req : Request}
    (h : allowlistDenied w req.ip cfg = some false) : addressCheck w cfg req = .ok () :=
  addressCheck_eq_ok.mpr h

theorem getGate_of_blocked {w : World} {cfg : Entries Num} {wait : Int} {req : Request}
    (haddress : allowlistDenied w req.ip cfg = some false) (hprobe : isProbe req.page = false)
    (hwait : wait ≠ 0) : getGate w cfg wait req = .error (.blocked wait) := by
  rw [getGate, addressCheck_of_let_in haddress, ok_bind, hprobe, if_neg Bool.false_ne_true,
    refuseUnless, if_neg hwait]
  rfl

section PostGate

variable [Lower]

theorem postGate_of_blocked {w : World} {cfg : Entries Num} {wait : Int} {req : Request}
    (hapi : begins "/api/" (rstripSlash req.path) = true)
    (haddress : allowlistDenied w req.ip cfg = some false) (hwait : wait ≠ 0) :
    postGate w cfg wait req = .error (.blocked wait) := by
  rw [postGate, refuseUnless, if_pos hapi, ok_bind, addressCheck_of_let_in haddress, ok_bind,
    refuseUnless, if_neg hwait]
  rfl

/-- **Who gets through the gate of `do_POST`.** -/
theorem postGate_eq_ok {w : World} {cfg : Entries Num} {wait : Int} {req : Request} {a : Access} :
    postGate w cfg wait req = .ok a ↔ begins "/api/" (rstripSlash req.path) = true ∧
      allowlistDenied w req.ip cfg = some false ∧ wait = 0 ∧ postAccess w cfg req = .ok a := by
  simp only [postGate, bind_eq_ok, refuseUnless_eq_ok, addressCheck_eq_ok, exists_const]

omit [PyStr Num] in
theorem csrfCheck_ok {w : World} {cfg : Entries Num} {req : Request} {receiver : Bool} {a : Access}
    (h : csrfCheck w cfg req receiver = .ok a) : a = .action receiver := by
  simp only [csrfCheck, bind_eq_ok] at h
  obtain ⟨-, -, -, -, -, -, -, -, h⟩ := h
  cases h
  rfl

/-- **What has been shown** of somebody whose body is read: nothing for a login, the bearer of the
receiver or an identity for anything else. -/
theorem postAccess_cases {w : World} {cfg : Entries Num} {req : Request} {a : Access}
    (h : postAccess w cfg req = .ok a) :
    (isLogin req = true ∧ a = .login) ∨
      (isReceiver req = true ∧ receiverAuthed w cfg req = some true ∧ a = .action true) ∨
      (isReceiver req = false ∧ (identity cfg req).isSome = true ∧ a = .action false) := by
  unfold postAccess at h
  by_cases hlogin : isLogin req = true
  · rw [if_pos hlogin] at h
    cases h
    exact Or.inl ⟨hlogin, rfl⟩
  rw [if_neg hlogin] at h
  simp only [bind_eq_ok, refuseUnless_eq_ok] at h
  obtain ⟨receiver, hreceiver, -, hown, -, hident, hcsrf⟩ := h
  have ha := csrfCheck_ok hcsrf
  unfold receiverCheck at hreceiver
  by_cases hr : isReceiver req = true
  · rw [if_pos hr, orDropped_eq_ok] at hreceiver
    rcases hown with hno | rfl
    · rw [hr] at hno
      cases hno
    · exact Or.inr (Or.inl ⟨hr, hreceiver, ha⟩)
  · rw [if_neg hr] at hreceiver
    cases hreceiver
    refine Or.inr (Or.inr ⟨Bool.eq_false_iff.mpr hr, ?_, ha⟩)
    exact hident.resolve_left Bool.false_ne_true

end PostGate

end Doors

/-! ## §11 Numbers and bodies for examples -/

/-- `str(value)` for values that are no lists or objects with something in them. -/
def intText : Json Int → String
  | .null => "None"
  | .bool b => if b then "True" else "False"
  | .num n => toString n
  | .str s => s
  | .list _ => "[]"
  | .obj _ => "\x7b\x7d"

@[reducible] def intPyStr : PyStr Int :=
  ⟨intText, fun _ => rfl, fun _ => by rw [intText]; decide, fun _ => by rw [intText]; decide⟩

/-- A body of which nothing but the token is kept. -/
@[reducible] def tokenBody : LoginBody Text := ⟨[], id, rfl⟩

/-- No variables, no networks, and no encryption. -/
def plainWorld : World := ⟨fun _ => "", fun _ _ => false, fun _ _ _ => rfl, false⟩

end NetPulse.Gate
