import NetPulse.Infra.Ber
import NetPulse.Lib.Machine
import NetPulse.Lib.Text
import Mathlib.Data.Finset.Card
import Mathlib.Data.Finset.Insert
import Mathlib.Data.List.Infix

/-
# NetPulse.Monitor.ProcessMonitor — new connections and the detection of intruders (`services.py`)

`sample` looks through the connections of the machine. One that was not there before is counted for
its remote address, and when so many ports have been counted as the threshold says there is an event
`PORT_SCAN`; one to a suspicious port gives `SUSPICIOUS_CONN`, unless a rule of the whitelist is for
it. `_raise_ids` keeps the event and pushes an alert if it does not find the same event.

Times are in milliseconds. The connections for the view, and what the processes read and write, are
left out.
-/

namespace NetPulse.Monitor.ProcessMonitor

open NetPulse.Lib NetPulse.Infra

/-! ## §1 The whitelist -/

abbrev Chars := List Char

def isSpace (c : Char) : Bool := Text.whitespace c.toNat

/-- `str.strip` -/
def stripped (s : String) : String :=
  String.ofList ((s.toList.dropWhile isSpace).rdropWhile isSpace)

/-- A rule as it is stored; a field that it does not name is empty. -/
structure Rule where
  process : String
  ports : String
  path : String
  named : process ≠ "" ∨ ports ≠ "" ∨ path ≠ ""

/-- The rule that `ids_wl_add` stores; an empty one is refused. -/
def ids_wl_add (process ports path : String) : Option Rule :=
  if h : stripped process ≠ "" ∨ stripped ports ≠ "" ∨ stripped path ≠ "" then
    some ⟨stripped process, stripped ports, stripped path, h⟩
  else none

section Whitelist

variable (lower : String → String) (int : Chars → Option Int)

/-- `part.lower() in text.lower()` -/
def within (part text : String) : Bool := decide ((lower part).toList <:+: (lower text).toList)

def Rule.proc_ok (r : Rule) (pname : String) : Bool :=
  decide (r.process = "") || within lower r.process pname

/-- The numbers between the commas; `none` if one of them is none. -/
def portNumbers (ports : String) : Option (List Int) :=
  (((ports.toList.filter fun c => c ≠ ' ').splitOn ',').filter fun x => x ≠ []).mapM int

def Rule.ports_ok (r : Rule) (port : Int) : Bool :=
  if r.ports = "" then true
  else
    match portNumbers int r.ports with
    | some numbers => decide (port ∈ numbers)
    -- `ValueError`
    | none => true

/-- `wl_hit` -/
def wl_hit (whitelist : List Rule) (pname : String) (port : Int) : Bool :=
  whitelist.any fun r => r.proc_ok lower pname && r.ports_ok int port

end Whitelist

/-! ## §2 The monitor -/

abbrev Time := Int

structure Settings where
  /-- `ids.enabled` -/
  ids_on : Bool
  /-- `ids.window_sec` -/
  window : Time
  /-- The window in seconds, as it is printed. -/
  windowText : String
  scan_threshold : Nat
  suspicious_ports : List Int
  whitelist : List Rule
  /-- `str.lower` -/
  lower : String → String
  /-- `int`; `none` is a `ValueError`. -/
  int : Chars → Option Int

/-- The settings of a new installation. -/
def Settings.shipped : Settings where
  ids_on := true
  window := 120000
  windowText := "120"
  scan_threshold := 15
  suspicious_ports := [4444, 1337, 31337, 6667, 4443, 8080, 8888, 3389, 5900, 22, 23]
  whitelist := []
  lower := id
  int := pyInt

/-- A connection with a remote address, and the name of its process. -/
structure Conn where
  pid : Nat
  process : String
  ip : String
  port : Int
  status : String

abbrev Endpoint := Nat × String × Int

def Conn.key (c : Conn) : Endpoint := (c.pid, c.ip, c.port)

structure IdsEvent where
  ts : Time
  type : String
  message : String
  deriving DecidableEq

/-- What the detection has seen, for the statements about runs; no function of the monitor reads it. -/
inductive Noted where
  /-- A new connection. -/
  | seen (time : Time) (ip : String) (port : Int)
  /-- There has been an event `PORT_SCAN` for the address. -/
  | scan (ip : String)

structure State where
  /-- `_seen_endpoints` -/
  seen_endpoints : Endpoint → Option Time
  seen_now : List Endpoint
  /-- `_scan_window` -/
  scan_window : String → Finset Int
  /-- `_last_alert` -/
  last_alert : String × Int → Time
  /-- The latest first. -/
  ids_events : List IdsEvent
  /-- What `push_alert` has got, the latest first. -/
  pushed : List (String × String)
  /-- Every event, the latest first; like `log`, no function reads it. -/
  raised : List IdsEvent
  /-- The latest first. -/
  log : List Noted

def State.start : State := ⟨fun _ => none, [], fun _ => ∅, fun _ => 0, [], [], [], []⟩

/-- `deque(maxlen=150)` -/
def maxEvents : Nat := 150

/-- `list(self.ids_events)[-10:]` -/
def lastTen (events : List IdsEvent) : List IdsEvent := events.drop (events.length - 10)

def sameEvent (type message : String) (e : IdsEvent) : Bool :=
  decide (e.type = type ∧ e.message = message)

/-- `_raise_ids` -/
def State.raise_ids (now : Time) (type message : String) (s : State) : State :=
  let dup := (lastTen s.ids_events).any (sameEvent type message)
  { s with
    ids_events := (⟨now, type, message⟩ :: s.ids_events).take maxEvents
    pushed := if dup then s.pushed else (type, message) :: s.pushed
    raised := ⟨now, type, message⟩ :: s.raised }

section Sampling

variable (cfg : Settings)

/-- `c.raddr.ip.startswith(("127.", "::1"))` -/
def loopback (ip : String) : Bool :=
  "127.".toList.isPrefixOf ip.toList || "::1".toList.isPrefixOf ip.toList

/-- The endpoint is new, in a state that is looked at. -/
def State.fresh (s : State) (c : Conn) : Bool :=
  (s.seen_endpoints c.key).isNone && (c.status == "ESTABLISHED" || c.status == "SYN_SENT")

/-- The connection is one for the detection. -/
def State.counts (s : State) (c : Conn) : Bool := s.fresh c && cfg.ids_on && !loopback c.ip

def scanMessage (ip : String) (count : Nat) : String :=
  "Скан портов с " ++ ip ++ ": " ++ count.repr ++ " разных целей за " ++ cfg.windowText ++ "с"

def suspiciousMessage (c : Conn) : String :=
  c.process ++ " (PID " ++ c.pid.repr ++ ") подключился к подозрительному порту " ++ c.ip ++ ":" ++
    toString c.port

def State.note (n : Noted) (s : State) : State := { s with log := n :: s.log }

def State.setWindow (ip : String) (ports : Finset Int) (s : State) : State :=
  { s with scan_window := fun ip' => if ip' = ip then ports else s.scan_window ip' }

/-- The port is counted, and there is an event if that makes enough of them. -/
def State.scan (now : Time) (c : Conn) (s : State) : State :=
  let ports := insert c.port (s.scan_window c.ip)
  let s := s.note (.seen now c.ip c.port)
  if cfg.scan_threshold ≤ ports.card then
    ((s.raise_ids now "PORT_SCAN" (scanMessage cfg c.ip ports.card)).note (.scan c.ip)).setWindow
      c.ip ∅
  else s.setWindow c.ip ports

/-- The first part of the body of the loop over the connections: up to the set of the address. -/
def State.look (now : Time) (c : Conn) (s : State) : State :=
  let s' := { s with seen_now := c.key :: s.seen_now }
  if s.counts cfg c then s'.scan cfg now c else s'

/-- An event is due for the connection: the port is suspicious, and no rule is for it. -/
def State.suspects (c : Conn) (s : State) : Bool :=
  s.counts cfg c && decide (c.port ∈ cfg.suspicious_ports) &&
    !wl_hit cfg.lower cfg.int cfg.whitelist c.process c.port

/-- The second part, for suspicious ports. -/
def State.suspect (now : Time) (c : Conn) (s : State) : State :=
  if s.suspects cfg c then
    if 300000 < now - s.last_alert (c.ip, c.port) then
      State.raise_ids now "SUSPICIOUS_CONN" (suspiciousMessage c)
        { s with last_alert := fun k => if k = (c.ip, c.port) then now else s.last_alert k }
    else s
  else s

/-- The end: old endpoints are forgotten. -/
def State.finish (now : Time) (s : State) : State :=
  -- "чистка окон": the sets of the addresses stay as they are
  let cutoff := now - max (cfg.window * 3) 300000
  { s with
    seen_endpoints := fun k =>
      if k ∈ s.seen_now then some now else (s.seen_endpoints k).filter fun t => cutoff < t
    seen_now := [] }

/-- `sample`, of the connections that have a remote address. -/
def State.sample (now : Time) (conns : List Conn) (s : State) : State :=
  (conns.foldl (fun s c => (s.look cfg now c).suspect cfg now c) s).finish cfg now

/-! ## §3 Steps -/

inductive Event where
  | look (now : Time) (c : Conn)
  | suspect (now : Time) (c : Conn)
  | finish (now : Time)

def State.step (s : State) : Event → State
  | .look now c => s.look cfg now c
  | .suspect now c => s.suspect cfg now c
  | .finish now => s.finish cfg now

def machine : Machine State Event := ⟨fun s e => some (s.step cfg e)⟩

/-- The steps of a sample. -/
def sampleEvents (now : Time) (conns : List Conn) : List Event :=
  conns.flatMap (fun c => [.look now c, .suspect now c]) ++ [.finish now]

/-- A sample is a run of its steps. -/
theorem run_sampleEvents (now : Time) (conns : List Conn) (s : State) :
    (machine cfg).run s (sampleEvents now conns) = some (s.sample cfg now conns) := by
  unfold sampleEvents State.sample
  induction conns generalizing s with
  | nil => rfl
  | cons c conns ih =>
      rw [List.flatMap_cons, List.append_assoc]
      exact ih _

/-- A run of the monitor never stops. -/
theorem exists_run (s : State) (es : List Event) : ∃ t, (machine cfg).run s es = some t := by
  induction es generalizing s with
  | nil => exact ⟨s, rfl⟩
  | cons e es ih => exact ih (s.step cfg e)

/-! ## §4 The event of a step -/

/-- The event that is due for a step, by the tests that the code makes. -/
def State.announces (s : State) : Event → Option IdsEvent
  | .look now c =>
      let ports := insert c.port (s.scan_window c.ip)
      if s.counts cfg c ∧ cfg.scan_threshold ≤ ports.card then
        some ⟨now, "PORT_SCAN", scanMessage cfg c.ip ports.card⟩
      else none
  | .suspect now c =>
      if s.suspects cfg c ∧ 300000 < now - s.last_alert (c.ip, c.port) then
        some ⟨now, "SUSPICIOUS_CONN", suspiciousMessage c⟩
      else none
  | .finish _ => none

/-- `_raise_ids` finds the same event. -/
def State.known (s : State) (v : IdsEvent) : Bool :=
  (lastTen s.ids_events).any (sameEvent v.type v.message)

variable {cfg} {s : State} {e : Event}

/-- Where no event is due, none is raised and nothing is pushed. -/
theorem step_silent (h : s.announces cfg e = none) :
    (s.step cfg e).raised = s.raised ∧ (s.step cfg e).ids_events = s.ids_events ∧
      (s.step cfg e).pushed = s.pushed := by
  cases e with
  | look now c =>
      simp only [State.announces, ite_eq_right_iff, reduceCtorEq, imp_false, not_and] at h
      by_cases hc : s.counts cfg c = true
      · simp [State.step, State.look, hc, State.scan, h hc, State.note, State.setWindow]
      · simp [State.step, State.look, hc]
  | suspect now c =>
      simp only [State.announces, ite_eq_right_iff, reduceCtorEq, imp_false, not_and] at h
      by_cases hc : s.suspects cfg c = true
      · simp [State.step, State.suspect, hc, h hc]
      · simp [State.step, State.suspect, hc]
  | finish now => exact ⟨rfl, rfl, rfl⟩

/-- An event that is due is raised and kept, and it is pushed unless `_raise_ids` finds it. -/
theorem step_loud {v : IdsEvent} (h : s.announces cfg e = some v) :
    (s.step cfg e).raised = v :: s.raised ∧
      (s.step cfg e).ids_events = (v :: s.ids_events).take maxEvents ∧
      (s.step cfg e).pushed = if s.known v then s.pushed else (v.type, v.message) :: s.pushed := by
  cases e with
  | look now c =>
      simp only [State.announces, Option.ite_none_right_eq_some, Option.some.injEq] at h
      obtain ⟨⟨hc, hfull⟩, rfl⟩ := h
      simp only [State.step, State.look, hc, State.scan, State.note, State.setWindow, hfull,
        State.raise_ids, if_true, true_and]
      rfl
  | suspect now c =>
      simp only [State.announces, Option.ite_none_right_eq_some, Option.some.injEq] at h
      obtain ⟨⟨hc, hlate⟩, rfl⟩ := h
      simp only [State.step, State.suspect, hc, hlate, State.raise_ids, if_true, true_and]
      rfl
  | finish now => cases h

/-- A step raises what is due, and nothing else. -/
theorem step_raised_iff {v : IdsEvent} :
    (s.step cfg e).raised = v :: s.raised ↔ s.announces cfg e = some v := by
  refine ⟨fun h => ?_, fun h => (step_loud h).1⟩
  cases hdue : s.announces cfg e with
  | none => exact absurd ((step_silent hdue).1.symm.trans h) (List.cons_ne_self v s.raised).symm
  | some w =>
      have hsame := (step_loud hdue).1.symm.trans h
      rw [(List.cons.inj hsame).1]

end Sampling

end NetPulse.Monitor.ProcessMonitor
