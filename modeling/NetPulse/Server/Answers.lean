import NetPulse.Server.Gate

/-
# NetPulse.Server.Answers — what the server answers (`server.py`, `health.py`)

The answers to a request, as far as they do not come out of a handler behind the door: refusals, the
two probes, the pages without a credential, and the public endpoints `whoami` and `meta`. `meta`
shows the whole configuration with two tokens masked. `Site` holds what the answers depend on
besides the configuration; what is behind the door is a parameter in it.
-/

namespace NetPulse.Gate

open NetPulse.Lib NetPulse.Lib.Json
open NetPulse.Server (Lower isSet mask)

variable {Num : Type}

/-! ## §1 Pages and replies -/

/-- The page `meta`. -/
structure Meta (Num : Type) where
  app : String
  endpoints_get : List String
  endpoints_post : List String
  special_paths : List String
  db_tables : List String
  config : Entries Num
  modules : List (String × String)

inductive Page (Num : Type) where
  | empty
  | error (text : String)
  | loginError (text : String)
  | probe (status : String)
  | whoami (user role : String) (authEnabled : Bool)
  | metadata (page : Meta Num)
  | welcome (user : String)
  /-- A file, or what a handler behind the door makes. -/
  | content (text : String)

structure Reply (Num : Type) where
  status : Nat
  page : Page Num
  cors : Option Cors

/-- What `_static` finds. -/
inductive Found where
  | forbidden
  | missing
  | file (content : String)

/-- The state of the router collector: seconds since the last check, and whether it failed. -/
structure Monitor where
  enabled : Bool
  sinceCheck : ℚ
  failed : Bool

/-- What `int(value)` does. -/
inductive IntRead where
  | value (n : Int)
  | invalid
  | overflow

class PyInt (Num : Type) where
  int : Json Num → IntRead
  int_list : ∀ items, int (.list items) = .invalid
  int_obj : ∀ entries, int (.obj entries) = .invalid

/-- All that the answers depend on besides the configuration. `inside` and `handler` stand for what
is behind the door. -/
structure Site (Num β : Type) where
  world : World
  /-- `_cached_actor` and `_cached_role` of the thread that serves the connection. -/
  session : Option String × Option String
  database : Bool
  age : ℚ
  monitor : Option Monitor
  tables : Except String (List String)
  modules : List (String × String)
  version : String
  static : String → Found
  inside : Entries Num → Request → Option (Reply Num)
  handler : Entries Num → Dispatch → β → Option (Reply Num)

/-! ## §2 The answers -/

section Answers

variable [Truth Num]

/-- `_send_json` -/
def sendJson (w : World) (cfg : Entries Num) (req : Request) (status : Nat) (page : Page Num) :
    Option (Reply Num) :=
  (corsHeaders w cfg req).map fun cors => ⟨status, page, cors⟩

def refuse (w : World) (cfg : Entries Num) (req : Request) (r : Refusal) : Option (Reply Num) :=
  match r with
  | .unsupported => r.answer.map fun a => ⟨a.1, .error a.2, none⟩
  | .wrongToken => r.answer.bind fun a => sendJson w cfg req a.1 (.loginError a.2)
  | r => r.answer.bind fun a => sendJson w cfg req a.1 (.error a.2)

/-- `max(15, min(3600, int(interval)))`, with the default for what is no number. -/
def pollInterval [PyInt Num] (cfg : Entries Num) : Option Int := do
  let entries ← sectionOf "mikrotik" cfg
  match (Dict.lookup "poll_interval_sec" entries).map PyInt.int with
  | none => some 30
  | some (.value n) => some (max 15 (min 3600 n))
  | some .invalid => some 30
  | some .overflow => none

def collectorOk [PyInt Num] (cfg : Entries Num) (m : Monitor) : Option Bool :=
  if m.enabled then
    (pollInterval cfg).map fun interval => !decide (m.sinceCheck > interval * 3 + 30) && !m.failed
  else some true

def isLocalHost : Json Num → Bool
  | .str host => ["127.0.0.1", "::1", "localhost"].contains host
  | _ => false

/-- `health_report(self.api.svc)['status'] == 'ok'` -/
def ready {β : Type} [PyInt Num] (site : Site Num β) (cfg : Entries Num) : Option Bool := do
  let collector ← site.monitor.elim (some true) (collectorOk cfg)
  some (site.database && decide (site.age < 60) && collector &&
    (isSet "web_auth_enabled" cfg || (Dict.lookup "web_host" cfg).elim true isLocalHost))

/-- `whoami` -/
def whoami {β : Type} (site : Site Num β) (cfg : Entries Num) : Page Num :=
  .whoami ((site.session.1.filter (· ≠ "")).getD "admin")
    ((site.session.2.filter (· ≠ "")).getD "admin") (isSet "web_auth_enabled" cfg)

/-- `if entries.get(key): entries[key] = '***'` -/
def maskKey (key : String) (entries : Entries Num) : Entries Num :=
  if isSet key entries then Dict.assign key mask entries else entries

/-- The same for the token in `telegram`. -/
def maskTelegram (shown : Entries Num) : Entries Num :=
  match Dict.lookup "telegram" shown with
  | some (.obj telegram) => Dict.assign "telegram" (.obj (maskKey "token" telegram)) shown
  | _ => shown

/-- The configuration as `meta` shows it. -/
def metaConfig (cfg : Entries Num) : Entries Num := maskTelegram (maskKey "web_token" cfg)

/-- `sorted(routes.keys())` -/
def sortedNames (routes : List (String × String)) : List String :=
  (routes.map Prod.fst).mergeSort fun a b => decide (a ≤ b)

def metaPage {β : Type} (site : Site Num β) (cfg : Entries Num) (tables : List String) :
    Meta Num where
  app := "NetPulse " ++ site.version
  endpoints_get := sortedNames ROUTES_GET
  endpoints_post := sortedNames ROUTES_POST
  special_paths := ["/api/stream", "/api/rdp", "/api/gposcript", "/journal.txt", "/journal.csv",
    "/report.txt", "/metrics"]
  db_tables := tables
  config := metaConfig cfg
  modules := site.modules

/-- `meta`, which fails when the tables cannot be listed. -/
def metaReply {β : Type} (site : Site Num β) (cfg : Entries Num) (req : Request) :
    Option (Reply Num) :=
  match site.tables with
  | .ok tables => sendJson site.world cfg req 200 (.metadata (metaPage site cfg tables))
  | .error text => sendJson site.world cfg req 500 (.error text)

/-- `_static` -/
def staticReply {β : Type} (site : Site Num β) (cfg : Entries Num) (req : Request) :
    Option (Reply Num) :=
  match site.static (if req.page = "/" then "index.html" else req.page) with
  | .forbidden => sendJson site.world cfg req 403 (.error "forbidden")
  | .missing => sendJson site.world cfg req 404 (.error "not found")
  | .file content => some ⟨200, .content content, none⟩

def probeReply {β : Type} [PyInt Num] (site : Site Num β) (cfg : Entries Num) (req : Request) :
    Option (Reply Num) := do
  let ok ← if req.page = "/readyz" then ready site cfg else some true
  sendJson site.world cfg req (if ok then 200 else 503) (.probe (if ok then "ok" else "degraded"))

/-- A public endpoint, for somebody without a credential. -/
def publicReply {β : Type} (site : Site Num β) (cfg : Entries Num) (req : Request)
    (handler : String) : Option (Reply Num) :=
  if handler = "whoami" then sendJson site.world cfg req 200 (whoami site cfg)
  else if handler = "meta" then metaReply site cfg req
  else site.inside cfg req

/-- The answer to a `GET` that got so far. -/
def getReply {β : Type} [PyInt Num] (site : Site Num β) (cfg : Entries Num) (req : Request) :
    Passage → Option (Reply Num)
  | .probe => probeReply site cfg req
  | .outside => staticReply site cfg req
  | .shown handler => publicReply site cfg req handler
  | .inside _ => site.inside cfg req

variable [PyStr Num] [PyInt Num] {β : Type} [LoginBody β] [Lower]

/-- What is sent for the outcome of the checks. -/
def answered {α : Type} (w : World) (cfg : Entries Num) (req : Request)
    (outcome : Except Refusal α) (reply : α → Option (Reply Num)) : Option (Reply Num) :=
  match outcome with
  | .error r => refuse w cfg req r
  | .ok a => reply a

/-- `do_GET` -/
def doGet (site : Site Num β) (cfg : Entries Num) (wait : Int) (req : Request) :
    Option (Reply Num) :=
  answered site.world cfg req (getGate site.world cfg wait req) (getReply site cfg req)

def postReply (site : Site Num β) (cfg : Entries Num) : Passed β → Option (Reply Num)
  | .welcome c => some ⟨200, .welcome c.name, none⟩
  | .dispatch d body => site.handler cfg d body

/-- `do_POST` -/
def doPost (site : Site Num β) (cfg : Entries Num) (wait : Int) (req : Request)
    (incoming : Incoming β) : Option (Reply Num) :=
  answered site.world cfg req (postChecks site.world cfg wait req incoming) (postReply site cfg)

/-- `do_OPTIONS` -/
def doOptions (w : World) (cfg : Entries Num) (req : Request) : Option (Reply Num) := do
  let allowed ← originAllowed w cfg req
  if allowed then sendJson w cfg req 204 .empty else refuse w cfg req .preflight

/-- The answer to a request at a moment; `none` when the connection is closed without one. -/
def respond (site : Site Num β) (s : AuthState) (now : ℚ) (cfg : Entries Num) (req : Request)
    (incoming : Incoming β) : Option (Reply Num) :=
  match req.method with
  | .get => doGet site cfg (authBlocked s req.ip now).2 req
  | .post => doPost site cfg (authBlocked s req.ip now).2 req incoming
  | .options => doOptions site.world cfg req
  | .other => refuse site.world cfg req .unsupported

end Answers

end NetPulse.Gate
