import NetPulse.Server.Settings

/-
# NetPulse.Server.SecretsAtRest — what `save_config` writes encrypted (`core/secrets.py`)

`encrypt_config` walks the tree with the name of the last key and encrypts the strings under
`web_token` and `token`, also in lists below them. `redact_audit` masks whatever stands under a key
that has one of five words in it.

`credentials_encrypted_iff`: with DPAPI at hand, all credentials of a tree are written encrypted
exactly when none of them is under another key than those two. `valueAt_redact`: what the redaction
shows at each place of a tree.
-/

namespace NetPulse.Server

open NetPulse.Lib NetPulse.Lib.Json

variable {Num : Type}

/-! ## §1 Positions -/

/-- One step down a tree. -/
inductive Step where
  | key (k : String)
  | item (i : Nat)

def child : Step → Json Num → Option (Json Num)
  | .key k, .obj entries => Dict.lookup k entries
  | .item i, .list items => items[i]?
  | _, _ => none

/-- The value at a position of the tree. -/
def valueAt : List Step → Json Num → Option (Json Num)
  | [], v => some v
  | step :: path, v => (child step v).bind (valueAt path)

/-! ## §2 `encrypt_config` -/

def PREFIX : String := "dpapi:"

def SECRET_KEYS : List String := ["web_token", "token"]

/-- `is_encrypted`, of a string. -/
def is_encrypted (s : String) : Bool := PREFIX.toList.isPrefixOf s.toList

/-- `base64.b64encode(_crypt(plain.encode("utf-8"), protect=True))`; `none` when it raises. -/
class Dpapi where
  protect : String → Option String

section Encrypt

variable [Dpapi]

def encrypt_value (plain : String) : Option String := (Dpapi.protect plain).map (PREFIX ++ ·)

/-- `_encrypt_if_secret` of a string; an exception leaves it as it is. -/
def encrypt_if_secret (key : Option String) (s : String) : String :=
  if key.any (· ∈ SECRET_KEYS) && s ≠ "" && !is_encrypted s then (encrypt_value s).getD s else s

mutual

/-- `encrypt_config(node, key)` -/
def encrypt_config (key : Option String) : Json Num → Json Num
  | .obj entries => .obj (encryptEntries entries)
  | .list items => .list (encryptItems key items)
  | .str s => .str (encrypt_if_secret key s)
  | .null => .null
  | .bool b => .bool b
  | .num n => .num n

def encryptEntries : Entries Num → Entries Num
  | [] => []
  | (k, v) :: rest => (k, encrypt_config (some k) v) :: encryptEntries rest

def encryptItems (key : Option String) : List (Json Num) → List (Json Num)
  | [] => []
  | v :: rest => encrypt_config key v :: encryptItems key rest

end

/-- What `save_config` writes. -/
def stored (cfg : Json Num) : Json Num := encrypt_config none cfg

/-! ## §3 Walking down a stored tree -/

/-- The key that the walk has after a step. -/
def keyAfter (key : Option String) : Step → Option String
  | .key k => some k
  | .item _ => key

theorem encryptEntries_eq_map (entries : Entries Num) :
    encryptEntries entries = entries.map fun e => (e.1, encrypt_config (some e.1) e.2) := by
  induction entries with
  | nil => rw [encryptEntries, List.map_nil]
  | cons e rest ih => rw [encryptEntries, ih, List.map_cons]

theorem encryptItems_eq_map (key : Option String) (items : List (Json Num)) :
    encryptItems key items = items.map (encrypt_config key) := by
  induction items with
  | nil => rw [encryptItems, List.map_nil]
  | cons v rest ih => rw [encryptItems, ih, List.map_cons]

/-- A step of the walk goes where a step in the tree goes. -/
theorem child_encrypt (step : Step) (key : Option String) (v : Json Num) :
    child step (encrypt_config key v) = (child step v).map (encrypt_config (keyAfter key step)) := by
  cases v with
  | obj entries =>
      rw [encrypt_config, encryptEntries_eq_map]
      cases step with
      | key k => exact Dict.lookup_map (f := fun k => encrypt_config (some k))
      | item i => rfl
  | list items =>
      rw [encrypt_config, encryptItems_eq_map]
      cases step with
      | key k => rfl
      | item i => exact List.getElem?_map
  | null => cases step <;> rw [encrypt_config] <;> rfl
  | bool b => cases step <;> rw [encrypt_config] <;> rfl
  | num n => cases step <;> rw [encrypt_config] <;> rfl
  | str s => cases step <;> rw [encrypt_config] <;> rfl

theorem valueAt_encrypt (path : List Step) (key : Option String) (v : Json Num) :
    valueAt path (encrypt_config key v)
      = (valueAt path v).map (encrypt_config (path.foldl keyAfter key)) := by
  induction path generalizing key v with
  | nil => rfl
  | cons step path ih =>
      show (child step (encrypt_config key v)).bind (valueAt path) = _
      rw [child_encrypt, valueAt, List.foldl_cons]
      cases child step v with
      | none => rfl
      | some w => exact ih (keyAfter key step) w

/-- The last key on the way to a position. -/
def lastKey (path : List Step) : Option String := path.foldl keyAfter none

/-- **A string at rest**: the one of the tree, encrypted or not by the last key alone. -/
theorem valueAt_stored {path : List Step} {cfg : Json Num} {s : String}
    (h : valueAt path cfg = some (.str s)) :
    valueAt path (stored cfg) = some (.str (encrypt_if_secret (lastKey path) s)) := by
  rw [stored, valueAt_encrypt, h, Option.map_some, encrypt_config]
  rfl

omit [Dpapi] in
theorem is_encrypted_marked (s : String) : is_encrypted (PREFIX ++ s) = true := by
  rw [is_encrypted, String.toList_append, List.isPrefixOf_iff_prefix]
  exact List.prefix_append _ _

theorem is_encrypted_encrypt_if_secret (havailable : ∀ s, (Dpapi.protect s).isSome = true)
    (key : Option String) {s : String} (hs : s ≠ "") :
    is_encrypted (encrypt_if_secret key s) = true ↔
      key.any (· ∈ SECRET_KEYS) = true ∨ is_encrypted s = true := by
  unfold encrypt_if_secret
  obtain ⟨c, hc⟩ := Option.isSome_iff_exists.mp (havailable s)
  have hvalue : (encrypt_value s).getD s = PREFIX ++ c := by
    rw [encrypt_value, hc]
    rfl
  by_cases hkey : key.any (· ∈ SECRET_KEYS) = true
  · by_cases henc : is_encrypted s = true
    · rw [if_neg (by rw [henc, Bool.not_true, Bool.and_false]; exact Bool.false_ne_true)]
      exact iff_of_true henc (Or.inr henc)
    · rw [if_pos (by rw [hkey, Bool.eq_false_iff.mpr henc, decide_eq_true hs]; rfl), hvalue]
      exact iff_of_true (is_encrypted_marked c) (Or.inl hkey)
  · rw [if_neg (by rw [Bool.eq_false_iff.mpr hkey, Bool.false_and]; exact Bool.false_ne_true)]
    exact ⟨Or.inr, fun h => h.resolve_left hkey⟩

end Encrypt

/-! ## §4 What the redaction masks -/

section Redact

variable [Lower]

/-- The step goes into what `redact_audit` masks. -/
def Step.masked : Step → Bool
  | .key k => secret k
  | .item _ => false

theorem redactItems_eq_map (items : List (Json Num)) : redactItems items = items.map redact := by
  induction items with
  | nil => rw [redactItems, List.map_nil]
  | cons v rest ih => rw [redactItems, ih, List.map_cons]

theorem child_redact (step : Step) (v : Json Num) :
    child step (redact v) = (child step v).map fun w => if step.masked then mask else redact w := by
  cases v with
  | obj entries =>
      rw [redact]
      cases step with
      | key k => exact lookup_redactEntries k entries
      | item i => rfl
  | list items =>
      rw [redact, redactItems_eq_map]
      cases step with
      | key k => rfl
      | item i => exact List.getElem?_map
  | null => cases step <;> rw [redact] <;> rfl
  | bool b => cases step <;> rw [redact] <;> rfl
  | num n => cases step <;> rw [redact] <;> rfl
  | str s => cases step <;> rw [redact] <;> rfl

/-- The redaction treats what stands there as a credential: a key on the way is masked. -/
def credential (path : List Step) : Bool := path.any Step.masked

/-- **What is shown at each place**: behind a masked key nothing, at the key itself the mask, and
everything else as it is, masked further below. -/
theorem valueAt_redact (path : List Step) (v : Json Num) :
    valueAt path (redact v) =
      if credential path.dropLast then none
      else if credential path then (valueAt path v).map fun _ => mask
      else (valueAt path v).map redact := by
  induction path generalizing v with
  | nil => rfl
  | cons step path ih =>
      rw [valueAt, child_redact]
      by_cases hmasked : step.masked = true
      · have hcred : ∀ rest, credential (step :: rest) = true := fun rest => by
          rw [credential, List.any_cons, hmasked, Bool.true_or]
        cases path with
        | nil =>
            rw [List.dropLast_singleton, if_neg (show ¬ credential [] = true from Bool.false_ne_true),
              if_pos (hcred []), valueAt]
            cases child step v with
            | none => rfl
            | some w => simp only [hmasked, Option.map_some, Option.bind_some, if_true, valueAt]
        | cons next rest =>
            -- the mask is a string, and has nothing below it
            rw [List.dropLast_cons_cons, if_pos (hcred _)]
            cases child step v with
            | none => rfl
            | some w =>
                simp only [hmasked, Option.map_some, Option.bind_some, if_true, valueAt]
                cases next <;> rfl
      · have hcred : ∀ rest, credential (step :: rest) = credential rest := fun rest => by
          rw [credential, List.any_cons, Bool.eq_false_iff.mpr hmasked, Bool.false_or, credential]
        have hlast : credential (step :: path).dropLast = credential path.dropLast := by
          cases path with
          | nil => rfl
          | cons next rest => rw [List.dropLast_cons_cons, hcred]
        rw [hlast, hcred, valueAt]
        cases child step v with
        | none => simp only [Option.map_none, Option.bind_none, ite_self]
        | some w =>
            simp only [Bool.eq_false_iff.mpr hmasked, Option.map_some, Option.bind_some,
              Bool.false_eq_true, if_false]
            exact ih w

end Redact

/-! ## §5 Secrets at rest -/

section AtRest

variable [Lower] [Dpapi]

/-- Every non-empty string that is a credential is written with the mark of encryption. -/
def CredentialsEncrypted (cfg : Json Num) : Prop :=
  ∀ path s, valueAt path cfg = some (.str s) → s ≠ "" → credential path = true →
    ∃ s', valueAt path (stored cfg) = some (.str s') ∧ is_encrypted s' = true

/-- No credential is under a key other than `web_token` and `token`, unless it has the mark already. -/
def KnownKeysOnly (cfg : Json Num) : Prop :=
  ∀ path s, valueAt path cfg = some (.str s) → s ≠ "" → credential path = true →
    (lastKey path).any (· ∈ SECRET_KEYS) = true ∨ is_encrypted s = true

/-- **Exactly** the trees whose credentials are all under the two known keys. -/
theorem credentials_encrypted_iff (cfg : Json Num)
    (havailable : ∀ s, (Dpapi.protect s).isSome = true) :
    CredentialsEncrypted cfg ↔ KnownKeysOnly cfg := by
  refine forall_congr' fun path => forall_congr' fun s => forall_congr' fun hat =>
    forall_congr' fun hs => forall_congr' fun _ => ?_
  rw [valueAt_stored hat, ← is_encrypted_encrypt_if_secret havailable _ hs]
  constructor
  · rintro ⟨s', hs', henc⟩
    cases hs'
    exact henc
  · intro henc
    exact ⟨_, rfl, henc⟩

end AtRest

@[reducible] def someDpapi : Dpapi := ⟨some⟩

attribute [local instance] asciiLower someDpapi

/-- The token of a user in a list. -/
theorem userToken_encrypted :
    CredentialsEncrypted (.obj [("web_users", .list [.obj [("token", .str "t")]])] : Json Nat) ↔
      KnownKeysOnly (.obj [("web_users", .list [.obj [("token", .str "t")]])] : Json Nat) :=
  credentials_encrypted_iff _ fun _ => rfl

/-- The password of the mail server is on the disk as it is. -/
theorem mailPassword_plain :
    ¬ CredentialsEncrypted (.obj [("email", .obj [("password", .str "p")])] : Json Nat) := by
  intro h
  obtain ⟨s', hs', henc⟩ := h [.key "email", .key "password"] "p" rfl (by decide) (by decide +kernel)
  rw [valueAt_stored rfl] at hs'
  cases hs'
  exact absurd henc (by decide)

end NetPulse.Server
