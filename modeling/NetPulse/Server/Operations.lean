import NetPulse.Lib.Dict
import NetPulse.Lib.Machine
import NetPulse.Lib.Text
import Mathlib.Algebra.Order.Ring.Rat

/-
# NetPulse.Server.Operations — incidents, router checks and alerts (`operations.py`)

The four calls that write incidents, and their timeline with them. `open_incident` and
`change_incident` are one transaction each: a call that raises is rolled back. `observe_router` writes
the health of the router in a first transaction and the incident in a second one. `receive_alerts`
looks through the whole batch first and then opens and closes incidents alert by alert, one
transaction each.

A text out of a request can have a surrogate in it. SQLite cannot encode it and the statement raises
a `UnicodeEncodeError`, which is a `ValueError`. A clock is read once for each transaction.
-/

namespace NetPulse.Server

open NetPulse.Lib NetPulse.Lib.Text

/-! ## §1 Values, identifiers and errors -/

/-- A value out of a body. Of a number no more than its truth value is looked at. -/
inductive Value where
  | null
  | bool (b : Bool)
  | num (nonzero : Bool)
  | str (s : Text)
  | list (items : List Value)
  | obj (entries : List (Text × Value))

abbrev Body := List (Text × Value)

namespace Value

def truthy : Value → Bool
  | null => false
  | bool b => b
  | num nonzero => nonzero
  | str s => !s.isEmpty
  | list items => !items.isEmpty
  | obj entries => !entries.isEmpty

/-- `value or default` -/
def orElse (value default : Value) : Value := if value.truthy then value else default

end Value

/-- `body.get(key, default)` -/
def getD (body : Body) (key : String) (default : Value) : Value :=
  (Dict.lookup (lit key) body).getD default

def hexDigit (d : Fin 16) : Char := "0123456789abcdef".toList.get d

/-- Hexadecimal digits. -/
structure Hex where
  digits : List (Fin 16)
  deriving DecidableEq

def Hex.text (h : Hex) : Text := h.digits.map fun d => .scalar (hexDigit d)

/-- `uuid.uuid4().hex` -/
structure Uuid where
  hex : Hex
  length : hex.digits.length = 32
  deriving DecidableEq

def Uuid.text (u : Uuid) : Text := u.hex.text

def idChar (c : Char) : Bool := c.isAlphanum || c == '_' || c == '-'

/-- The id of a configured router, as `validate_device` lets it pass. -/
structure RouterId where
  chars : List Char
  nonempty : chars ≠ []
  short : chars.length ≤ 48
  valid : chars.all idChar = true
  deriving DecidableEq

def RouterId.text (r : RouterId) : Text := r.chars.map .scalar

inductive Error where
  | value (message : String)
  /-- `UnicodeEncodeError` -/
  | unicode
  /-- `sqlite3.IntegrityError` -/
  | integrity
  deriving DecidableEq

def Error.isValueError : Error → Bool
  | value _ => true
  | unicode => true
  | integrity => false

def require (c : Prop) [Decidable c] (e : Error) : Except Error Unit :=
  if c then .ok () else .error e

/-- A parameter of a statement has to be encoded. -/
def sql (s : Text) : Except Error Unit := require (s.encodable = true) .unicode

/-- A text that `text` has let pass. -/
structure Line (limit : Nat) where
  chars : Text
  short : chars.length ≤ limit
  stripped : chars.strip = chars
  deriving DecidableEq

def text (value : Value) (limit : Nat) : Except Error (Line limit) :=
  match value with
  | .str s =>
      if h : s.length ≤ limit then
        .ok ⟨s.strip, (length_strip_le s).trans h, strip_strip s⟩
      else .error (.value s!"Ожидается текст не длиннее {limit} символов")
  | _ => .error (.value s!"Ожидается текст не длиннее {limit} символов")

/-! ## §2 Tables -/

inductive Severity where
  | info
  | warning
  | critical
  deriving DecidableEq

def severityOf : Value → Option Severity
  | .str s =>
      if s = lit "info" then some .info
      else if s = lit "warning" then some .warning
      else if s = lit "critical" then some .critical
      else none
  | _ => none

inductive Status where
  /-- `'open'` -/
  | opened
  | acknowledged
  | resolved
  deriving DecidableEq

/-- What a body can ask for. -/
inductive Change where
  | acknowledge
  | resolve
  | assign
  | comment
  deriving DecidableEq

def changeOf : Value → Option Change
  | .str s =>
      if s = lit "acknowledge" then some .acknowledge
      else if s = lit "resolve" then some .resolve
      else if s = lit "assign" then some .assign
      else if s = lit "comment" then some .comment
      else none
  | _ => none

/-- The `action` of a row of the timeline. -/
inductive Action where
  | opened
  | change (c : Change)
  deriving DecidableEq

structure Incident where
  id : Uuid
  event_key : Text
  device_id : Text
  title : Text
  severity : Severity
  status : Status
  owner : Text
  opened : ℚ
  updated : ℚ
  acknowledged : Option ℚ
  resolved : Option ℚ
  occurrences : Nat
  deriving DecidableEq

/-- `status IN ('open','acknowledged')` -/
def Incident.active (i : Incident) : Bool := i.status ≠ .resolved

structure TimelineRow where
  incident_id : Uuid
  ts : ℚ
  actor : Text
  action : Action
  message : Text
  deriving DecidableEq

/-- `incidents` and `incident_timeline` -/
structure Register where
  incidents : List Incident
  timeline : List TimelineRow
  deriving DecidableEq

/-- A row of `router_health`. -/
structure Health where
  failures : Nat
  last_success : Option ℚ
  last_check : ℚ
  deriving DecidableEq

/-- All tables; of `device_context` the `maintenance_until`. -/
structure Store extends Register where
  router_health : Dict Text Health
  device_context : Dict Text ℚ

def Store.empty : Store := ⟨⟨[], []⟩, Dict.empty, Dict.empty⟩

namespace Register

/-- `SELECT id FROM incidents WHERE event_key=? AND status IN ('open','acknowledged')` -/
def activeWith (g : Register) (key : Text) : Option Incident :=
  g.incidents.find? fun i => decide (i.event_key = key) && i.active

/-- `SELECT * FROM incidents WHERE id=?` -/
def find (g : Register) (ident : Text) : Option Incident :=
  g.incidents.find? fun i => decide (i.id.text = ident)

/-- `UPDATE incidents SET … WHERE id=?` -/
def update (g : Register) (id : Uuid) (set : Incident → Incident) : Register :=
  { g with incidents := g.incidents.map fun i => if i.id = id then set i else i }

/-- `INSERT INTO incidents`; the id is the primary key. -/
def insert (g : Register) (i : Incident) : Except Error Register := do
  sql i.event_key
  sql i.device_id
  sql i.title
  require (∀ j ∈ g.incidents, j.id ≠ i.id) .integrity
  return { g with incidents := g.incidents ++ [i] }

/-- The row that `_timeline` writes. -/
def row (ident : Uuid) (actor : Text) (action : Action) (message : Text) (now : ℚ) : TimelineRow :=
  ⟨ident, now, actor.take 160, action, message.take 2000⟩

/-- `_timeline` -/
def log (g : Register) (r : TimelineRow) : Except Error Register := do
  sql r.actor
  sql r.message
  return { g with timeline := g.timeline ++ [r] }

end Register

/-! ## §3 `open_incident` and `change_incident` -/

/-- What a call draws: the id of a new incident, and the key of one that comes without. -/
structure Draw where
  ident : Uuid
  manual : Uuid

/-- `event_key or ('manual:' + uuid.uuid4().hex)` -/
def eventKey (event_key : Option Text) (draw : Draw) : Text :=
  match event_key with
  | some (c :: key) => c :: key
  | _ => lit "manual:" ++ draw.manual.text

/-- The transaction of `open_incident`: the incident, and whether it is a new one. -/
def openTransaction (device_id title : Text) (severity : Severity) (key actor : Text) (now : ℚ)
    (ident : Uuid) (g : Register) : Except Error (Register × Uuid × Bool) := do
  sql key
  match g.activeWith key with
  | some old =>
      return (g.update old.id fun i => { i with updated := now, occurrences := i.occurrences + 1 },
        old.id, false)
  | none => do
      let g ← g.insert
        ⟨ident, key, device_id, title, severity, .opened, [], now, now, none, none, 1⟩
      let g ← g.log (Register.row ident actor .opened title now)
      return (g, ident, true)

/-- `open_incident` -/
def openIncident (device_id title severity : Value) (event_key : Option Text) (actor : Text)
    (now : ℚ) (draw : Draw) (g : Register) : Except Error (Register × Uuid × Bool) := do
  let device_id ← text device_id 64
  let title ← text title 300
  require (title.chars ≠ []) (.value "Нужны заголовок и допустимая важность")
  let severity ← (severityOf severity).elim
    (.error (.value "Нужны заголовок и допустимая важность")) .ok
  openTransaction device_id.chars title.chars severity (eventKey event_key draw) actor now draw.ident g

/-- The transaction of `change_incident`: the id of the incident that it has changed. -/
def change (body : Body) (actor : Text) (now : ℚ) (g : Register) :
    Except Error (Register × Uuid) := do
  let ident ← text (getD body "id" .null) 64
  let action ← (changeOf (getD body "action" .null)).elim
    (.error (.value "Неизвестное действие")) .ok
  let message ← text (getD body "message" (.str [])) 2000
  sql ident.chars
  let found ← (g.find ident.chars).elim (.error (.value "Инцидент не найден")) .ok
  match action with
  | .acknowledge => do
      require (found.status = .opened) (.value "Подтверждать можно только открытый инцидент")
      let g := g.update found.id fun i =>
        { i with status := .acknowledged, acknowledged := some now, updated := now }
      let g ← g.log (Register.row found.id actor (.change .acknowledge) message.chars now)
      return (g, found.id)
  | .resolve => do
      require (found.status ≠ .resolved) (.value "Инцидент уже закрыт")
      let g := g.update found.id fun i =>
        { i with status := .resolved, resolved := some now, updated := now }
      let g ← g.log (Register.row found.id actor (.change .resolve) message.chars now)
      return (g, found.id)
  | .assign => do
      let owner ← text (getD body "owner" (.str [])) 160
      sql owner.chars
      let g := g.update found.id fun i => { i with owner := owner.chars, updated := now }
      let g ← g.log (Register.row found.id actor (.change .assign) owner.chars now)
      return (g, found.id)
  | .comment => do
      require (message.chars ≠ []) (.value "Комментарий пуст")
      let g ← g.log (Register.row found.id actor (.change .comment) message.chars now)
      return (g, found.id)

/-- The last 100 rows of a timeline. -/
def latest (rows : List TimelineRow) : List TimelineRow := rows.drop (rows.length - 100)

/-- `incident` -/
def incident (ident : Uuid) (g : Register) : Except Error (Incident × List TimelineRow) :=
  match g.find ident.text with
  | none => .error (.value "Инцидент не найден")
  | some i => .ok (i, latest (g.timeline.filter fun r => decide (r.incident_id = i.id)))

/-- `change_incident`; the incident is read again after the commit. -/
def changeIncident (body : Body) (actor : Text) (now : ℚ) (g : Register) :
    Register × Except Error (Incident × List TimelineRow) :=
  match change body actor now g with
  | .error e => (g, .error e)
  | .ok (g', id) => (g', incident id g')

/-! ## §4 `observe_router` -/

/-- What the collector hands over for a router. -/
structure RouterRow where
  id : RouterId
  name : Text
  ok : Bool

inductive Observed where
  | opened
  | resolved
  deriving DecidableEq

def deviceOf (r : RouterId) : Text := lit "router:" ++ r.text

def routerKey (r : RouterId) : Text := lit "router-unreachable:" ++ r.text

/-- The body of the `change_incident` with which the code closes an incident. -/
def resolveBody (id : Uuid) (message : String) : Body :=
  [(lit "id", .str id.text), (lit "action", .str (lit "resolve")),
    (lit "message", .str (lit message))]

def failuresOf (s : Store) (device : Text) : Nat := (s.router_health.get device).elim 0 (·.failures)

/-- The first transaction of `observe_router`. -/
def recordHealth (row : RouterRow) (now : ℚ) (s : Store) : Store :=
  let old := s.router_health.get (deviceOf row.id)
  let failures := if row.ok then 0 else failuresOf s (deviceOf row.id) + 1
  let success := if row.ok then some now else old.bind (·.last_success)
  { s with router_health := s.router_health.set (deviceOf row.id) ⟨failures, success, now⟩ }

/-- `context and context['maintenance_until'] > now` -/
def inMaintenance (s : Store) (device : Text) (now : ℚ) : Bool :=
  (s.device_context.get device).any fun maintenance_until => decide (now < maintenance_until)

/-- `observe_router` -/
def observeRouter (row : RouterRow) (now : ℚ) (draw : Draw) (s : Store) :
    Store × Except Error (Option Observed) :=
  let s₁ := recordHealth row now s
  if row.ok then
    match s₁.activeWith (routerKey row.id) with
    | none => (s₁, .ok none)
    | some active =>
        let r := changeIncident (resolveBody active.id "Связь восстановлена") (lit "collector") now
          s₁.toRegister
        ({ s₁ with toRegister := r.1 }, r.2.map fun _ => some .resolved)
  else if !inMaintenance s (deviceOf row.id) now && decide (failuresOf s₁ (deviceOf row.id) ≥ 2) then
    match openIncident (.str (deviceOf row.id)) (.str (lit "Нет связи: " ++ row.name))
        (.str (lit "critical")) (some (routerKey row.id)) (lit "system") now draw s₁.toRegister with
    | .error e => (s₁, .error e)
    | .ok (g, _, created) =>
        ({ s₁ with toRegister := g }, .ok (if created then some .opened else none))
  else (s₁, .ok none)

/-! ## §5 `receive_alerts` -/

structure Labels where
  alertname : Line 256
  job : Line 256
  inst : Line 256
  router : Line 256
  deriving DecidableEq

/-- `sha256(json.dumps(labels, sort_keys=True))` -/
class LabelsDigest where
  hexdigest : Labels → Hex

structure Alert where
  firing : Bool
  labels : Labels
  title : Line 300

/-- An alert, as the first pass reads it. -/
def validateAlert (value : Value) : Except Error Alert := do
  let alert ← match value with
    | .obj entries => .ok entries
    | _ => .error (.value "Некорректное оповещение")
  let firing ← match getD alert "status" .null with
    | .str s =>
        if s = lit "firing" then .ok true
        else if s = lit "resolved" then .ok false
        else .error (.value "Некорректное оповещение")
    | _ => .error (.value "Некорректное оповещение")
  let labels ← match (getD alert "labels" .null).orElse (.obj []) with
    | .obj entries => .ok entries
    | _ => .error (.value "Некорректные метки")
  let alertname ← text (getD labels "alertname" (.str [])) 256
  let job ← text (getD labels "job" (.str [])) 256
  let inst ← text (getD labels "instance" (.str [])) 256
  let router ← text (getD labels "router" (.str [])) 256
  require (alertname.chars ≠ []) (.value "Отсутствует alertname")
  let annotations ← match (getD alert "annotations" .null).orElse (.obj []) with
    | .obj entries => .ok entries
    | _ => .error (.value "Некорректные аннотации")
  let title ← text ((getD annotations "summary" .null).orElse (.str alertname.chars)) 300
  return ⟨firing, ⟨alertname, job, inst, router⟩, title⟩

/-- The first pass of `receive_alerts`. -/
def validate (body : Body) : Except Error (List Alert) :=
  match getD body "alerts" .null with
  | .list alerts =>
      if alerts.length ≤ 100 then alerts.mapM validateAlert
      else .error (.value "Ожидается до 100 оповещений")
  | _ => .error (.value "Ожидается до 100 оповещений")

/-- An alert with what is read and drawn when its turn comes. -/
structure Stamped extends Alert where
  now : ℚ
  draw : Draw

def stamp (clock : Nat → ℚ) (draws : Nat → Draw) (alerts : List Alert) : List Stamped :=
  alerts.mapIdx fun n alert => ⟨alert, clock n, draws n⟩

inductive Notice where
  | alertOpened
  | alertResolved
  deriving DecidableEq

structure Outcome where
  opened : Nat
  resolved : Nat
  ignored : Nat
  notifications : List (Notice × Text)

/-- What has come of an alert. -/
inductive Verdict where
  | opened
  | resolved
  | ignored
  deriving DecidableEq

def Outcome.add (out : Outcome) (a : Alert) : Verdict → Outcome
  | .opened =>
      { out with
        opened := out.opened + 1
        notifications := out.notifications ++ [(.alertOpened, a.title.chars)] }
  | .resolved =>
      { out with
        resolved := out.resolved + 1
        notifications := out.notifications ++ [(.alertResolved, a.title.chars)] }
  | .ignored => { out with ignored := out.ignored + 1 }

section Receive

variable [LabelsDigest] (routers : List RouterId)

/-- The router that the labels name, if it is configured. -/
def routerOf (labels : Labels) : Option RouterId :=
  routers.find? fun r => decide (r.text = labels.router.chars)

/-- The router whose incident the alert shares with the collector. -/
def sharedRouter (labels : Labels) : Option RouterId :=
  if labels.alertname.chars = lit "MikroTikUnreachable" then routerOf routers labels else none

def alertDevice (labels : Labels) : Text := (routerOf routers labels).elim [] deviceOf

def alertKey (labels : Labels) : Text :=
  match sharedRouter routers labels with
  | some r => routerKey r
  | none => lit "prometheus:" ++ (LabelsDigest.hexdigest labels).text

/-- `contexts.get(device_id,{}).get('maintenance_until',0)>time.time()` -/
def alertInMaintenance (contexts : Dict Text ℚ) (a : Stamped) : Bool :=
  decide (a.now < (contexts.get (alertDevice routers a.labels)).getD 0)

/-- `health and health['failures']`, of the router of a shared incident. -/
def stillFailing (s : Store) (a : Alert) : Bool :=
  (sharedRouter routers a.labels).any fun r => decide (failuresOf s (deviceOf r) ≠ 0)

/-- The turn of an alert in the second pass. -/
def applyAlert (contexts : Dict Text ℚ) (a : Stamped) (s : Store) : Store × Except Error Verdict :=
  let key := alertKey routers a.labels
  if a.firing then
    if alertInMaintenance routers contexts a then (s, .ok .ignored)
    else
      match openIncident (.str (alertDevice routers a.labels)) (.str a.title.chars)
          (.str (lit "critical")) (some key) (lit "alertmanager") a.now a.draw s.toRegister with
      | .error e => (s, .error e)
      | .ok (g, _, created) =>
          ({ s with toRegister := g }, .ok (if created then .opened else .ignored))
  else
    match s.activeWith key with
    | none => (s, .ok .ignored)
    | some active =>
        if stillFailing routers s a.toAlert then (s, .ok .ignored)
        else
          let r := changeIncident (resolveBody active.id "Alertmanager: восстановление")
            (lit "alertmanager") a.now s.toRegister
          ({ s with toRegister := r.1 },
            match r.2 with
            | .ok _ => .ok .resolved
            | .error e => if e.isValueError then .ok .ignored else .error e)

/-- The second pass. -/
def applyAlerts (contexts : Dict Text ℚ) : List Stamped → Outcome → Store →
    Store × Except Error Outcome
  | [], out, s => (s, .ok out)
  | a :: rest, out, s =>
      match applyAlert routers contexts a s with
      | (s', .error e) => (s', .error e)
      | (s', .ok verdict) => applyAlerts contexts rest (out.add a.toAlert verdict) s'

/-- `receive_alerts` -/
def receiveAlerts (body : Body) (clock : Nat → ℚ) (draws : Nat → Draw) (s : Store) :
    Store × Except Error Outcome :=
  match validate body with
  | .error e => (s, .error e)
  | .ok alerts => applyAlerts routers s.device_context (stamp clock draws alerts) ⟨0, 0, 0, []⟩ s

end Receive

/-! ## §6 Runs of calls -/

inductive Call where
  | openIncident (device_id title severity : Value) (event_key : Option Text) (actor : Text)
      (now : ℚ) (draw : Draw)
  | changeIncident (body : Body) (actor : Text) (now : ℚ)
  | observeRouter (row : RouterRow) (now : ℚ) (draw : Draw)
  | receiveAlerts (routers : List RouterId) (body : Body) (clock : Nat → ℚ) (draws : Nat → Draw)
  /-- `save_context`, as far as incidents depend on it. -/
  | saveContext (device : Text) (maintenance_until : ℚ)

inductive Answer where
  | opened (id : Uuid) (created : Bool)
  | changed (view : Incident × List TimelineRow)
  | observed (outcome : Option Observed)
  | received (outcome : Outcome)
  | saved

/-- The tables after a call, and what it returns or raises. -/
def perform [LabelsDigest] (s : Store) : Call → Store × Except Error Answer
  | .openIncident device_id title severity event_key actor now draw =>
      match openIncident device_id title severity event_key actor now draw s.toRegister with
      | .error e => (s, .error e)
      | .ok (g, id, created) => ({ s with toRegister := g }, .ok (.opened id created))
  | .changeIncident body actor now =>
      let r := changeIncident body actor now s.toRegister
      ({ s with toRegister := r.1 }, r.2.map .changed)
  | .observeRouter row now draw =>
      let r := observeRouter row now draw s
      (r.1, r.2.map .observed)
  | .receiveAlerts routers body clock draws =>
      let r := receiveAlerts routers body clock draws s
      (r.1, r.2.map .received)
  | .saveContext device maintenance_until =>
      ({ s with device_context := s.device_context.set device maintenance_until }, .ok .saved)

/-- Calls one after the other. -/
def operations [LabelsDigest] : Machine Store Call where
  step s c := some (perform s c).1

end NetPulse.Server
