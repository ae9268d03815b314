import NetPulse.Lib.Schema
import NetPulse.Mesh.Canon

/-
# NetPulse.Mesh.NodeConfig — the models of `config.yaml` (`internal_modules/config.py`)

A node's configuration is a record of sections. The models are pydantic's: `Config(**raw)` takes the
fields it knows, converts them, puts defaults for those that are missing, and ignores other keys. Names
of nodes go through `_canon_node` before that. A model is known here by what `model_dump(mode='json')`
prints of it, so that `Config(**raw)` is `validate` of the kind `config`.
-/

namespace NetPulse.Mesh.NodeConfig

open NetPulse.Lib NetPulse.Lib.Json NetPulse.Lib.Schema

variable {Num : Type}

/-! ## §1 Fields -/

inductive Scalar where
  | int
  | float
  | bool
  | str
  /-- `Optional[str]` -/
  | optStr
  | path
  /-- `str`, behind `_canon_node` -/
  | ident
  /-- The same for `node`, which must not be empty. -/
  | node
  deriving DecidableEq

/-- The conversions of pydantic, as printed by `model_dump(mode='json')`; what has been converted
stays, and texts are not converted. -/
class Pydantic (Num : Type) where
  nat : Nat → Num
  /-- Numbers with one decimal. -/
  tenths : Nat → Num
  convert : Scalar → Json Num → Option (Json Num)
  convert_again : ∀ {s v w}, convert s v = some w → convert s w = some w
  convert_leaf : ∀ {s v w}, convert s v = some w → isLeaf w = true
  convert_nat : ∀ n, convert .int (.num (nat n)) = some (.num (nat n))
  convert_str : ∀ {v w}, convert .str v = some w ↔ ∃ s, v = .str s ∧ w = v

section Conversions

variable [Canon] [Pydantic Num]

/-- `_canon_node` and `node_not_empty`; what is no text is refused by the field. -/
def coerce : Scalar → Json Num → Option (Json Num)
  | .ident, .str s => some (.str (canon s))
  | .node, .str s => if canon s = "" then none else some (.str (canon s))
  | .ident, _ | .node, _ => none
  | s, v => Pydantic.convert s v

theorem coerce_ident {v w : Json Num} (h : coerce .ident v = some w) :
    ∃ s, v = .str s ∧ w = .str (canon s) := by
  cases v with
  | str s =>
      rw [coerce] at h
      exact ⟨s, rfl, (Option.some.inj h).symm⟩
  | null | bool | num | list | obj => cases h

theorem coerce_node {v w : Json Num} (h : coerce .node v = some w) :
    ∃ s, v = .str s ∧ canon s ≠ "" ∧ w = .str (canon s) := by
  cases v with
  | str s =>
      rw [coerce] at h
      split at h
      · cases h
      · rename_i hne
        exact ⟨s, rfl, hne, (Option.some.inj h).symm⟩
  | null | bool | num | list | obj => cases h

/-- The coercion of the models. -/
def coercion : Coercion Scalar Num where
  coerce := coerce
  again {s v w} h := by
    cases s with
    | ident =>
        obtain ⟨s, rfl, rfl⟩ := coerce_ident h
        rw [coerce, canon_canon]
    | node =>
        obtain ⟨s, rfl, hne, rfl⟩ := coerce_node h
        rw [coerce, canon_canon, if_neg hne]
    | int | float | bool | str | optStr | path => exact Pydantic.convert_again h
  leaf {s v w} h := by
    cases s with
    | ident =>
        obtain ⟨s, rfl, rfl⟩ := coerce_ident h
        rfl
    | node =>
        obtain ⟨s, rfl, hne, rfl⟩ := coerce_node h
        rfl
    | int | float | bool | str | optStr | path => exact Pydantic.convert_leaf h

end Conversions

/-! ## §2 The models -/

abbrev KindOf (Num : Type) := Kind Scalar Num

abbrev Fields (Num : Type) := List (Field Scalar Num)

section Models

variable [Pydantic Num] (hostname : String)

def int (n : Nat) : Json Num := .num (Pydantic.nat n)

def tenths (n : Nat) : Json Num := .num (Pydantic.tenths n)

def required (name : String) (s : Scalar) : Field Scalar Num := (name, .scalar s, none)

def field (name : String) (s : Scalar) (default_ : Json Num) : Field Scalar Num :=
  (name, .scalar s, some default_)

def listField (name : String) (item : KindOf Num) (default_ : List (Json Num)) : Field Scalar Num :=
  (name, .list item, some (.list default_))

/-- A section: its default is the model with all its defaults. -/
def section_ (name : String) (fields : Fields Num) : Field Scalar Num :=
  (name, .model fields, some (.obj (defaults fields)))

def networkConfig : Fields Num :=
  [field "host" .str (.str "0.0.0.0"), field "port" .int (int 9000), field "ip_ttl_sec" .int (int 60)]

def memoryConfig : Fields Num := [field "default_buff" .int (int 10)]

def loggingConfig : Fields Num :=
  [field "level" .str (.str "INFO"), field "uvicorn_level" .str (.str "WARNING"),
    field "websockets_level" .str (.str "WARNING")]

def logsConfig : Fields Num :=
  [field "buffer_size" .int (int 2000), field "max_msg_len" .int (int 4000),
    field "max_traceback_len" .int (int 2000)]

def shareConfig : Fields Num :=
  [required "name" .str, required "path" .path, listField "allow" (.scalar .ident) [],
    field "chunk_size" .int (int 262144)]

def filesConfig : Fields Num :=
  [listField "shares" (.model shareConfig) [], field "download_dir" .path (.str "downloads"),
    field "max_chunk" .int (int (4 * 1024 * 1024))]

def updateSource : Fields Num := [required "node" .ident, field "share" .str (.str "releases")]

def updateConfig : Fields Num :=
  [field "enabled" .bool (.bool true), listField "sources" (.model updateSource) [],
    field "auto_check" .bool (.bool true), field "check_interval_min" .int (int 60),
    field "auto_apply" .bool (.bool false), field "require_signed" .bool (.bool true),
    field "allow_downgrade" .bool (.bool false), field "health_confirm_sec" .int (int 90)]

def purgeConfig : Fields Num := [field "enabled" .bool (.bool true)]

def eyesauronStoreConfig : Fields Num :=
  [field "enabled" .bool (.bool false),
    field "root" .path (.str "\\\\192.168.53.21\\photo\\store\\packs"),
    field "volume_size_gb" .int (int 10), field "local_cache_gb" .int (int 100),
    field "max_age_hours" .float (tenths 240), field "bloom_enabled" .bool (.bool false)]

def eyesauronConfig : Fields Num :=
  [field "enabled" .bool (.bool false), field "collect" .bool (.bool true),
    field "capture" .bool (.bool false),
    field "store_path" .path (.str "\\\\192.168.53.21\\photo\\screens"),
    field "collector_node" .ident (.str ""), field "interval_sec" .float (tenths 50),
    field "send_delay_sec" .float (tenths 5), field "max_spool_mb" .int (int 500),
    section_ "store" eyesauronStoreConfig]

def webPanelAuthConfig : Fields Num :=
  [field "enabled" .bool (.bool true), ("users", .dict (.scalar .str), some (.obj []))]

def webPanelConfig : Fields Num := [section_ "auth" webPanelAuthConfig]

def servicesConfig : Fields Num := [field "path" .path (.str "services")]

def peerConfig : Fields Num := [required "node_id" .ident, required "uri" .str]

def localConfig : Fields Num :=
  [field "alias" .ident (.str hostname), field "name" .ident (.str "Core"),
    field "exe_name" .str (.str "Node_P2P_Core.exe"), field "secret" .optStr .null,
    field "work_dir" .path (.str "C:\\Core"),
    field "full_path" .path (.str "C:\\Core\\Node_P2P_Core.exe"),
    listField "excluded_autoload_services" .any [.str "webpanel"],
    listField "peers" (.model peerConfig) []]

def configFields : Fields Num :=
  [field "node" .node (.str hostname), section_ "network" networkConfig,
    section_ "memory" memoryConfig, section_ "logging" loggingConfig, section_ "logs" logsConfig,
    section_ "files" filesConfig, section_ "update" updateConfig, section_ "purge" purgeConfig,
    section_ "eyesauron" eyesauronConfig, section_ "webpanel" webPanelConfig,
    section_ "services" servicesConfig, section_ "local" (localConfig hostname),
    field "config_confirm_sec" .int (int 15)]

/-- `Config` -/
def config : KindOf Num := .model (configFields hostname)

/-- `_default_config_dict()` -/
def default_config_dict : Entries Num := defaults (configFields hostname)

end Models

end NetPulse.Mesh.NodeConfig
