import NetPulse.Lib.JsonStrings
import NetPulse.Server.SaveConfig

/-
# NetPulse.Server.SecretTrees — what encryption leaves of a configuration (`core/secrets.py`)

`encrypt_config` and `decrypt_config` are walks over the strings of a tree: the one looks at the last
key, the other at the prefix, and each leaves a string as it is when its function raises.

`secrets_round_trip`: a tree without the prefix comes back as it was, whichever of its secrets could
be protected; what has been encrypted is not encrypted again; and what is no secret stays.
-/

namespace NetPulse.Server.SecretTrees

open NetPulse.Lib NetPulse.Lib.Json NetPulse.Server.Config
open NetPulse.Gate (after)

variable {Num : Type}

/-! ## §1 The two walks -/

/-- `decrypt_config` of a string; an exception leaves it as it is. -/
def decrypt_if_marked [Unprotect] (s : String) : String :=
  if is_encrypted s then (Unprotect.unprotect (after PREFIX s)).getD s else s

theorem encrypt_config_eq_mapStrings [Dpapi] (key : Option String) (v : Json Num) :
    encrypt_config key v = mapStrings encrypt_if_secret key v := by
  induction key, v using keyed_induction with
  | hobj key entries ih =>
      rw [encrypt_config, mapStrings, encryptEntries_eq_map, mapStringsEntries_eq_map]
      exact congrArg obj (List.map_congr_left fun e he => congrArg (Prod.mk e.1) (ih e he))
  | hlist key items ih =>
      rw [encrypt_config, mapStrings, encryptItems_eq_map, mapStringsItems_eq_map]
      exact congrArg list (List.map_congr_left ih)
  | hstr key s | hnull key | hbool key b | hnum key n => rw [encrypt_config, mapStrings]

theorem decryptEntries_eq_map [Unprotect] (entries : Entries Num) :
    decryptEntries entries = entries.map fun e => (e.1, decrypt_config e.2) := by
  induction entries with
  | nil => rw [decryptEntries, List.map_nil]
  | cons e rest ih => rw [decryptEntries, ih, List.map_cons]

theorem decryptItems_eq_map [Unprotect] (items : List (Json Num)) :
    decryptItems items = items.map decrypt_config := by
  induction items with
  | nil => rw [decryptItems, List.map_nil]
  | cons v rest ih => rw [decryptItems, ih, List.map_cons]

theorem decrypt_config_eq_mapStrings [Unprotect] (key : Option String) (v : Json Num) :
    decrypt_config v = mapStrings (fun _ s => decrypt_if_marked s) key v := by
  induction key, v using keyed_induction with
  | hobj key entries ih =>
      rw [decrypt_config, mapStrings, decryptEntries_eq_map, mapStringsEntries_eq_map]
      exact congrArg obj (List.map_congr_left fun e he => congrArg (Prod.mk e.1) (ih e he))
  | hlist key items ih =>
      rw [decrypt_config, mapStrings, decryptItems_eq_map, mapStringsItems_eq_map]
      exact congrArg list (List.map_congr_left ih)
  | hstr key s =>
      rw [decrypt_config, mapStrings, decrypt_if_marked]
      split_ifs
      · rfl
      · rfl
  | hnull key | hbool key b | hnum key n => rw [decrypt_config, mapStrings]

/-! ## §2 One string -/

/-- Under this key a text that is not empty is a secret. -/
def secretKey (key : Option String) : Bool := key.any (· ∈ SECRET_KEYS)

/-- What is no secret under its key. -/
def NoSecret (key : Option String) (s : String) : Prop := secretKey key = false ∨ s = ""

/-- A text without the prefix. -/
def NotMarked (_ : Option String) (s : String) : Prop := is_encrypted s = false

section Strings
variable {key : Option String} {s : String}

theorem encrypt_if_secret_of_noSecret [Dpapi] (h : NoSecret key s) :
    encrypt_if_secret key s = s := by
  unfold encrypt_if_secret
  rw [if_neg]
  rcases h with hkey | rfl
  · rw [show key.any (· ∈ SECRET_KEYS) = false from hkey]
    exact Bool.false_ne_true
  · simp

theorem encrypt_if_secret_of_marked [Dpapi] (h : is_encrypted s = true) :
    encrypt_if_secret key s = s := by
  unfold encrypt_if_secret
  rw [h, Bool.not_true, Bool.and_false, if_neg Bool.false_ne_true]

/-- What a string is afterwards: marked, or what it was, and then it is no secret, had the mark
before or could not be protected. -/
theorem encrypt_if_secret_cases [Dpapi] (key : Option String) (s : String) :
    (∃ c, Dpapi.protect s = some c ∧ encrypt_if_secret key s = PREFIX ++ c) ∨
      encrypt_if_secret key s = s ∧
        (NoSecret key s ∨ is_encrypted s = true ∨ Dpapi.protect s = none) := by
  by_cases hkey : secretKey key = true
  · by_cases hs : s = ""
    · exact Or.inr ⟨encrypt_if_secret_of_noSecret (Or.inr hs), Or.inl (Or.inr hs)⟩
    · by_cases hmarked : is_encrypted s = true
      · exact Or.inr ⟨encrypt_if_secret_of_marked hmarked, Or.inr (Or.inl hmarked)⟩
      · have hvalue : encrypt_if_secret key s = (encrypt_value s).getD s := by
          rw [encrypt_if_secret, if_pos]
          rw [show key.any (· ∈ SECRET_KEYS) = true from hkey, Bool.eq_false_iff.mpr hmarked]
          simpa using hs
        rw [hvalue, encrypt_value]
        rcases hprotect : Dpapi.protect s with _ | c
        · exact Or.inr ⟨rfl, Or.inr (Or.inr rfl)⟩
        · exact Or.inl ⟨c, rfl, rfl⟩
  · have hno : NoSecret key s := Or.inl (Bool.eq_false_iff.mpr hkey)
    exact Or.inr ⟨encrypt_if_secret_of_noSecret hno, Or.inl hno⟩

theorem decrypt_if_marked_of_notMarked [Unprotect] (h : NotMarked key s) :
    decrypt_if_marked s = s := by
  rw [decrypt_if_marked, show is_encrypted s = false from h, if_neg Bool.false_ne_true]

/-- **There and back**, whether the string could be protected or not. -/
theorem decrypt_if_marked_encrypt_if_secret [Dpapi] [Unprotect] (hgives : GivesBack)
    (h : NotMarked key s) : decrypt_if_marked (encrypt_if_secret key s) = s := by
  rcases encrypt_if_secret_cases key s with ⟨c, hprotect, hsame⟩ | ⟨hsame, -⟩
  · rw [hsame, decrypt_if_marked, is_encrypted_marked, if_pos rfl, after_marked, hgives s c hprotect]
    rfl
  · rw [hsame]
    exact decrypt_if_marked_of_notMarked h

/-- **Not again**: `q` is the protection when the string is met for the second time, which need not
give the same text, but has no more success than before. -/
theorem encrypt_if_secret_again (p q : Dpapi)
    (hfails : ∀ s, p.protect s = none → q.protect s = none) :
    @encrypt_if_secret q key (@encrypt_if_secret p key s) = @encrypt_if_secret p key s := by
  rcases @encrypt_if_secret_cases p key s with ⟨c, -, hsame⟩ | ⟨hsame, hno | hmarked | hprotect⟩
  · rw [hsame]
    exact @encrypt_if_secret_of_marked _ _ q (is_encrypted_marked c)
  · rw [hsame]
    exact @encrypt_if_secret_of_noSecret _ _ q hno
  · rw [hsame]
    exact @encrypt_if_secret_of_marked _ _ q hmarked
  · rw [hsame]
    rcases @encrypt_if_secret_cases q key s with ⟨c, hsome, -⟩ | ⟨hagain, -⟩
    · rw [hfails s hprotect] at hsome
      cases hsome
    · exact hagain

end Strings

/-! ## §3 Trees -/

/-- No string of the tree has the prefix. -/
def Unmarked (v : Json Num) : Prop := AllStrings NotMarked none v

/-- No string of the tree is a secret, where the walk comes to it with a key. -/
def Plain (key : Option String) (v : Json Num) : Prop := AllStrings NoSecret key v

variable {key : Option String} {v w : Json Num}

theorem encrypt_config_of_plain [Dpapi] (h : Plain key v) : encrypt_config key v = v := by
  rw [encrypt_config_eq_mapStrings, mapStrings_eq_self_iff]
  exact AllStrings.imp (fun _ _ => encrypt_if_secret_of_noSecret) key v h

theorem decrypt_config_of_unmarked [Unprotect] (h : Unmarked v) : decrypt_config v = v := by
  rw [decrypt_config_eq_mapStrings none, mapStrings_eq_self_iff]
  exact AllStrings.imp (fun _ _ => decrypt_if_marked_of_notMarked) none v h

theorem decrypt_encrypt_of_unmarked [Dpapi] [Unprotect] (hgives : GivesBack) (h : Unmarked v) :
    decrypt_config (encrypt_config none v) = v := by
  rw [encrypt_config_eq_mapStrings, decrypt_config_eq_mapStrings none, mapStrings_mapStrings,
    mapStrings_eq_self_iff]
  exact AllStrings.imp (fun _ _ => decrypt_if_marked_encrypt_if_secret hgives) none v h

/-- Encrypting again, with what DPAPI says at that time. -/
theorem encrypt_config_again (p q : Dpapi) (hfails : ∀ s, p.protect s = none → q.protect s = none)
    (key : Option String) (v : Json Num) :
    @encrypt_config Num q key (@encrypt_config Num p key v) = @encrypt_config Num p key v := by
  have hstring : (fun key s => @encrypt_if_secret q key (@encrypt_if_secret p key s)) =
      @encrypt_if_secret p := by
    funext key s
    exact encrypt_if_secret_again p q hfails
  rw [@encrypt_config_eq_mapStrings _ p, @encrypt_config_eq_mapStrings _ q, mapStrings_mapStrings,
    hstring]

theorem child_decrypt [Unprotect] (step : Step) (v : Json Num) :
    child step (decrypt_config v) = (child step v).map decrypt_config := by
  cases v with
  | obj entries =>
      rw [decrypt_config, decryptEntries_eq_map]
      cases step with
      | key k => exact Dict.lookup_map (f := fun _ => decrypt_config)
      | item i => rfl
  | list items =>
      rw [decrypt_config, decryptItems_eq_map]
      cases step with
      | key k => rfl
      | item i => exact List.getElem?_map
  | null | bool b | num n => cases step <;> rw [decrypt_config] <;> rfl
  | str s =>
      rw [decrypt_config]
      cases step <;> split_ifs <;> rfl

theorem valueAt_decrypt [Unprotect] (path : List Step) (v : Json Num) :
    valueAt path (decrypt_config v) = (valueAt path v).map decrypt_config := by
  induction path generalizing v with
  | nil => rfl
  | cons step path ih =>
      show (child step (decrypt_config v)).bind (valueAt path) = _
      rw [child_decrypt, valueAt]
      cases child step v with
      | none => rfl
      | some w => exact ih w

/-- **Encryption and back.** A tree without the prefix comes back; encrypting it again changes nothing;
and in every tree, what stands at a place stays there under `encrypt_config` if there is no secret in
it, and under `decrypt_config` if the prefix is not in it. -/
theorem secrets_round_trip [Dpapi] [Unprotect] (hgives : GivesBack) (t : Json Num)
    (ht : Unmarked t) :
    decrypt_config (encrypt_config none t) = t ∧
      encrypt_config none (encrypt_config none t) = encrypt_config none t ∧
      ∀ u path (w : Json Num), valueAt path u = some w →
        (Plain (lastKey path) w → valueAt path (encrypt_config none u) = some w) ∧
        (Unmarked w → valueAt path (decrypt_config u) = some w) := by
  refine ⟨decrypt_encrypt_of_unmarked hgives ht, encrypt_config_again _ _ (fun _ => id) none t,
    fun u path w hw => ⟨fun hplain => ?_, fun hunmarked => ?_⟩⟩
  · rw [valueAt_encrypt, hw, Option.map_some]
    exact congrArg some (encrypt_config_of_plain hplain)
  · rw [valueAt_decrypt, hw, Option.map_some, decrypt_config_of_unmarked hunmarked]

/-! ## §4 A protection that fails for one of two tokens -/

section Concrete

/-- It protects every text but `long`. -/
@[reducible] def notLong : Dpapi := ⟨fun s => if s = "long" then none else some s⟩

attribute [local instance] notLong someUnprotect

/-- Two tokens, in a list under their key, and a note. -/
def twoTokens : Json Nat :=
  .obj [("token", .list [.str "short", .str "long"]), ("note", .str "short")]

theorem twoTokens_round_trip :
    decrypt_config (encrypt_config none twoTokens) = twoTokens ∧
      encrypt_config none twoTokens =
        .obj [("token", .list [.str "dpapi:short", .str "long"]), ("note", .str "short")] := by
  have hgives : GivesBack := by
    intro s c h
    obtain ⟨-, hc⟩ := (Option.ite_none_left_eq_some ..).mp h
    exact hc.symm
  refine ⟨(secrets_round_trip hgives twoTokens ?_).1, ?_⟩
  · simp only [Unmarked, twoTokens, AllStrings, AllStringsEntries, AllStringsItems, NotMarked]
    decide +kernel
  · rw [encrypt_config_eq_mapStrings]
    simp only [twoTokens, mapStrings, mapStringsEntries, mapStringsItems]
    rfl

end Concrete

end NetPulse.Server.SecretTrees
