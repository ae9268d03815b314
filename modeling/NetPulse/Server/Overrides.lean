import NetPulse.Lib.JsonPaths
import NetPulse.Server.Gate
import NetPulse.Server.SecretsAtRest

/-
# NetPulse.Server.Overrides — how a configuration is loaded (`config.py`)

`load_config` puts four things one over another: the defaults, `config.json`, and the `NETPULSE_*`
names of `.env` and of the environment. The name of a variable is cut at every underscore, and the
parts are the keys of a nested object; the value is read as JSON, unless that fails or gives something
false. Then encrypted texts are decrypted and the fields that the program depends on are checked.

What encrypted values and checks have to do with it is in `finish`, which everything goes through at
the end.
-/

namespace NetPulse.Server.Config

open NetPulse.Lib NetPulse.Lib.Json
open NetPulse.Gate (begins after stripBlank)

/-! ## §1 Values -/

/-- The numbers of a configuration. -/
class Numeric (Num : Type) extends Truth Num where
  nat : Nat → Num
  tenths : Nat → Num
  /-- `v >= 0` -/
  nonneg : Num → Bool
  /-- `1 <= v <= 65535` -/
  port : Num → Bool

/-- `json.loads`, `none` where it raises; of what it reads, this much is used. -/
class Loads (Num : Type) where
  loads : String → Option (Json Num)
  unique : ∀ {s v}, loads s = some v → Json.Unique v
  loads_null : loads "null" = some .null
  loads_false : loads "false" = some (.bool false)
  loads_true : loads "true" = some (.bool true)
  loads_word : loads "on" = none
  loads_a : loads "\x7b\"a\": true\x7d" = some (.obj [("a", .bool true)])
  loads_b : loads "\x7b\"b\": true\x7d" = some (.obj [("b", .bool true)])

export Loads (loads)

/-- `base64.b64decode` and `_crypt(raw, protect=False)` of a text; `none` when one raises. -/
class Unprotect where
  unprotect : String → Option String

variable {Num : Type}

section Values

variable [Numeric Num]

/-- `DEFAULTS` -/
def DEFAULTS : Entries Num :=
  let int (n : Nat) : Json Num := .num (Numeric.nat n)
  [ ("mikrotik", .obj [("enabled", .bool false), ("poll_interval_sec", int 30),
      ("devices", .list [])]),
    ("metrics", .obj [("token_env", .str "NP_METRICS_TOKEN")]),
    ("alertmanager", .obj [("token_env", .str "NP_ALERTMANAGER_TOKEN")]),
    ("web_port", int 8770),
    ("web_host", .str "127.0.0.1"),
    ("web_auth_enabled", .bool false),
    ("web_token", .str ""),
    ("web_admins", .list []),
    ("theme", .str "dark"),
    ("ping_interval_sec", int 1),
    ("db_cleanup_days", int 30),
    ("ping_target", .str "8.8.8.8"),
    ("quality", .obj [("good_ping_ms", int 50), ("warn_ping_ms", int 120), ("max_jitter_ms", int 15),
      ("max_loss_pct", int 2), ("profiles", .obj [])]),
    ("quota", .obj [("daily_mb", int 0), ("monthly_gb", int 0), ("warn_pct", int 80)]),
    ("ai", .obj [("enabled", .bool true), ("anomaly_threshold", .num (Numeric.tenths 6)),
      ("training_interval", int 300), ("features", .list [.str "speed", .str "bytes_in",
        .str "bytes_out", .str "ping_ms", .str "jitter"])]),
    ("security", .obj [("suspicious_ports", .list [int 4444, int 1337, int 31337, int 6667, int 4443,
        int 8080, int 8888, int 3389, int 5900, int 22, int 23]),
      ("scan_detection_threshold", int 15)]),
    ("ids", .obj [("enabled", .bool true), ("window_sec", int 120), ("whitelist", .list [])]),
    ("infra", .obj [("community", .str "public")]),
    ("lan", .obj [("auto_scan_min", int 10), ("trusted_macs", .list [])]),
    ("diagnostics", .obj [("trace_targets", .list [.str "8.8.8.8", .str "1.1.1.1", .str "77.88.8.8"]),
      ("resolve_hosts", .list [.str "google.com", .str "youtube.com", .str "vk.com",
        .str "github.com", .str "wikipedia.org"])]),
    ("mtr", .obj [("target", .str "8.8.8.8"), ("max_hops", int 12), ("cycle_sec", int 10),
      ("pings_per_hop", int 2), ("targets", .list []), ("rotate_sec", int 600)]),
    ("speedtest", .obj [("url_down", .str "https://speed.cloudflare.com/__down?bytes=\x7bbytes\x7d"),
      ("url_up", .str "https://speed.cloudflare.com/__up"), ("bytes", int 8000000),
      ("timeout_sec", int 20)]),
    ("webhook", .obj [("enabled", .bool false), ("url", .str "")]),
    ("healing", .obj [("enabled", .bool false), ("rules", .list [])]),
    ("email", .obj [("enabled", .bool false), ("smtp_host", .str ""), ("smtp_port", int 25),
      ("use_tls", .bool true), ("user", .str ""), ("password", .str ""),
      ("from", .str "netpulse@localhost"), ("to", .str "")]),
    ("telegram", .obj [("enabled", .bool false), ("token", .str ""), ("chat_id", .str "")]),
    ("backup", .obj [("enabled", .bool false), ("time", .str "03:00"), ("keep", int 7),
      ("dir", .str "C:\\Backups")]),
    ("p2p", .obj [("enabled", .bool true), ("host", .str "127.0.0.1"), ("port", int 9000),
      ("node_id", .str "NetPulseHub"), ("target_node", .str "Node0"), ("reconnect_sec", int 5),
      ("call_timeout", int 15), ("secret", .str "")]),
    ("ip_allowlist", .obj [("enabled", .bool false),
      ("networks", .list [.str "192.168.1.0/24", .str "127.0.0.0/8"])]),
    ("journal", .obj [("default_minutes", int 0)]),
    ("watchdog", .obj [("enabled", .bool false), ("interval_min", int 15), ("timeout_sec", int 25),
      ("hosts", .list [.str "auto"]), ("disk_free_pct", int 10), ("ram_free_mb", int 500),
      ("event_ids", .list [int 41, int 6008, int 7, int 153, int 7031, int 7034]),
      ("event_hours", int 24), ("offline_after_polls", int 3)]),
    ("runbooks", .obj [("enabled", .bool true)]),
    ("backupwatch", .obj [("enabled", .bool false), ("drill_reminder", .bool true),
      ("resources", .list [])]),
    ("planner", .obj [("enabled", .bool false), ("tasks", .list [])]),
    ("web_users", .list []),
    ("proxmox", .obj [("enabled", .bool false), ("host", .str ""), ("port", int 8006),
      ("verify_tls", .bool true), ("token_id", .str ""), ("token_secret", .str "")]),
    ("report", .obj [("weekly", .obj [("enabled", .bool false), ("day", .str "mon"),
      ("time", .str "08:00"), ("to_email", .str "")])]),
    ("geo", .obj [("enabled", .bool false)]),
    ("cve", .obj [("enabled", .bool false)]),
    ("escalate", .obj [("enabled", .bool false), ("unack_min", int 30)]),
    ("web_tls", .obj [("enabled", .bool false), ("cert", .str "netpulse/certs/cert.pem"),
      ("key", .str "netpulse/certs/key.pem")]) ]

end Values

mutual

/-- The key paths of a tree, those that lead to objects included. -/
def paths : Json Num → List (List String)
  | .obj entries => pathsIn entries
  | _ => []

def pathsIn : Entries Num → List (List String)
  | [] => []
  | (k, v) :: rest => [k] :: ((paths v).map fun p => k :: p) ++ pathsIn rest

end

/-! ## §2 The variables -/

/-- A line of `.env`. -/
def readLine (line : String) : Option (String × String) :=
  let line := stripBlank line
  if line = "" ∨ begins "#" line ∨ '=' ∉ line.toList then none
  else
    let (k, rest) := line.toList.span fun c => decide (c ≠ '=')
    some (stripBlank (String.ofList k), stripBlank (String.ofList (rest.drop 1)))

/-- The lines of `.env` that could be read. -/
def dotenv (lines : List String) : List (String × String) :=
  lines.foldl (fun raw line =>
    match readLine line with
    | some (k, v) => Dict.assign k v raw
    | none => raw) []

/-- `raw`: what `.env` does not name is taken from the environment. -/
def collect (lines : List String) (environ : List (String × String)) : List (String × String) :=
  environ.foldl (fun raw (k, v) =>
    match Dict.lookup k raw with
    | some _ => raw
    | none => Dict.assign k v raw) (dotenv lines)

/-- `s.split("_")` -/
def keysOf (s : String) : List String := (s.toList.splitOn '_').map String.ofList

/-- `node.setdefault` down to the last key, which is set unless an object is there; `none` when an
object was needed and something else is there. -/
def put (v : Json Num) : List String → Entries Num → Option (Entries Num)
  | [], out => some out
  | [key], out =>
      match Dict.lookup key out with
      | some (.obj _) => some out
      | _ => some (Dict.assign key v out)
  | key :: rest, out =>
      match Dict.lookup key out with
      | none => (put v rest []).map fun node => Dict.assign key (.obj node) out
      | some (.obj node) => (put v rest node).map fun node => Dict.assign key (.obj node) out
      | some _ => none

section Loading

variable [Numeric Num] [Loads Num] [Lower] [Unprotect]

/-- `json.loads(v) or v`, or `v` when it raises. -/
def decode (v : String) : Json Num :=
  match loads v with
  | some d => if d.truthy then d else .str v
  | none => .str v

/-- One variable. -/
def override (out : Entries Num) (var : String × String) : Option (Entries Num) :=
  if begins "NETPULSE_" var.1 then put (decode var.2) (keysOf (lower (after "NETPULSE_" var.1))) out
  else some out

/-- `_env_overrides`; `none` when it raises an `AttributeError`. -/
def env_overrides (raw : List (String × String)) : Option (Entries Num) := raw.foldlM override []

/-! ## §3 `_validate` -/

def num_ok : Option (Json Num) → Bool
  | some (.num n) => Numeric.nonneg n
  | _ => false

/-- `reset` of a field of an object whose defaults these are. -/
def reset (src : Entries Num) (key : String) (node : Entries Num) : Entries Num :=
  match Dict.lookup key src with
  | some v => Dict.assign key v node
  | none => node

def portOk : Option (Json Num) → Bool
  | some (.num n) => Numeric.nonneg n && Numeric.port n
  | _ => false

def isStr : Option (Json Num) → Bool
  | some (.str _) => true
  | _ => false

/-- `numeric`: the sections with their fields, and the fields without a section. -/
def SECTIONS : List (String × List String) :=
  [ ("watchdog", ["interval_min", "timeout_sec", "disk_free_pct", "ram_free_mb", "event_hours",
      "offline_after_polls"]),
    ("mtr", ["max_hops", "cycle_sec", "pings_per_hop", "rotate_sec"]),
    ("quota", ["warn_pct"]),
    ("lan", ["auto_scan_min"]),
    ("escalate", ["unack_min"]) ]

def FIELDS : List String := ["ping_interval_sec", "db_cleanup_days"]

/-- A field that has to pass a check. -/
def checkField (ok : Option (Json Num) → Bool) (key : String) (cfg : Entries Num) : Entries Num :=
  if ok (Dict.lookup key cfg) then cfg else reset DEFAULTS key cfg

/-- The default of a section. -/
def defaultsOf (name : String) : Entries Num := inner (Dict.lookup name DEFAULTS)

/-- The fields of a section. -/
def checkFields (name : String) (keys : List String) (sec : Entries Num) : Entries Num :=
  keys.foldl (fun sec k => if num_ok (Dict.lookup k sec) then sec else reset (defaultsOf name) k sec)
    sec

def checkSection (cfg : Entries Num) (section_ : String × List String) : Entries Num :=
  match Dict.lookup section_.1 cfg with
  | some (.obj sec) => Dict.assign section_.1 (.obj (checkFields section_.1 section_.2 sec)) cfg
  | _ => Dict.assign section_.1 (.obj (defaultsOf section_.1)) cfg

def validate (cfg : Entries Num) : Entries Num :=
  let cfg := checkField portOk "web_port" cfg
  let cfg := checkField isStr "web_host" cfg
  let cfg := SECTIONS.foldl checkSection cfg
  FIELDS.foldl (fun cfg key => checkField num_ok key cfg) cfg

/-! ## §4 `load_config` -/

mutual

/-- `decrypt_config`: a text that cannot be decrypted stays. -/
def decrypt_config : Json Num → Json Num
  | .obj entries => .obj (decryptEntries entries)
  | .list items => .list (decryptItems items)
  | .str s =>
      if is_encrypted s then .str ((Unprotect.unprotect (after PREFIX s)).getD s) else .str s
  | .null => .null
  | .bool b => .bool b
  | .num n => .num n

def decryptEntries : Entries Num → Entries Num
  | [] => []
  | (k, v) :: rest => (k, decrypt_config v) :: decryptEntries rest

def decryptItems : List (Json Num) → List (Json Num)
  | [] => []
  | v :: rest => decrypt_config v :: decryptItems rest

end

/-- The defaults with `config.json` over them; a file that is missing, cannot be read or holds no
object leaves them. -/
def merged : Option (Json Num) → Entries Num
  | some (.obj saved) => deepMerge DEFAULTS saved
  | _ => DEFAULTS

/-- What is done with the configuration when everything has been merged. -/
def finish (fresh : Token) (cfg : Entries Num) : Entries Num :=
  let cfg := validate (decryptEntries cfg)
  if isSet "web_auth_enabled" cfg && !isSet "web_token" cfg then
    Dict.assign "web_token" (.str fresh.hex) cfg
  else cfg

/-- `load_config`; `none` when it raises. -/
def load_config (fresh : Token) (lines : List String) (environ : List (String × String))
    (saved : Option (Json Num)) : Option (Entries Num) :=
  (env_overrides (collect lines environ)).map fun changed => finish fresh (deepMerge (merged saved) changed)

end Loading

end NetPulse.Server.Config
