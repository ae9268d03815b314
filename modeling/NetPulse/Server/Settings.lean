import NetPulse.Lib.Json
import NetPulse.Mesh.Canon

/-
# NetPulse.Server.Settings — the settings form (`server.py`, `services.py`, `config.py`)

`settings_get` masks every value under a key that looks like a credential; `settings_post` takes the
object back, throws the masks away and merges the rest into the configuration. A credential that
lies in nested objects survives, since the merge goes key by key. A list is replaced as a whole, so
what was masked inside of a list is gone.

`settings_round_trip_iff` says which configurations survive their own form.
-/

namespace NetPulse.Server

open NetPulse.Lib NetPulse.Lib.Json

/-! ## §1 Masking -/

/-- `str.lower`, of which the names in the code need this much: a name in small letters stays. -/
class Lower where
  lower : String → String
  lower_small : ∀ s, (s.toList.all fun c => c.isLower || c == '_') = true → lower s = s

export Lower (lower lower_small)

/-- `w in s` -/
def occursIn (w s : String) : Bool := s.toList.tails.any fun rest => w.toList.isPrefixOf rest

variable {Num : Type}

def mask : Json Num := .str "***"

def isMask : Json Num → Bool
  | .str s => s = "***"
  | _ => false

section Masking

variable [Lower]

/-- The key of a credential. -/
def secret (key : String) : Bool :=
  ["token", "password", "secret", "community", "api_key"].any fun word => occursIn word (lower key)

mutual

/-- `redact_audit` -/
def redact : Json Num → Json Num
  | .obj entries => .obj (redactEntries entries)
  | .list items => .list (redactItems items)
  | .null => .null
  | .bool b => .bool b
  | .num n => .num n
  | .str s => .str s

def redactEntries : Entries Num → Entries Num
  | [] => []
  | (k, v) :: rest => (k, if secret k then mask else redact v) :: redactEntries rest

def redactItems : List (Json Num) → List (Json Num)
  | [] => []
  | v :: rest => redact v :: redactItems rest

end

end Masking

mutual

/-- `discard_masked` -/
def discard : Json Num → Json Num
  | .obj entries => .obj (discardEntries entries)
  | .list items => .list (discardItems items)
  | .null => .null
  | .bool b => .bool b
  | .num n => .num n
  | .str s => .str s

def discardEntries : Entries Num → Entries Num
  | [] => []
  | (k, v) :: rest => if isMask v then discardEntries rest else (k, discard v) :: discardEntries rest

def discardItems : List (Json Num) → List (Json Num)
  | [] => []
  | v :: rest => discard v :: discardItems rest

end

mutual

/-- `"***" in json.dumps(value)`: some text or key of it has the mask in it. -/
def hasMask : Json Num → Bool
  | .obj entries => hasMaskEntries entries
  | .list items => hasMaskItems items
  | .str s => occursIn "***" s
  | .null | .bool _ | .num _ => false

def hasMaskEntries : Entries Num → Bool
  | [] => false
  | (k, v) :: rest => occursIn "***" k || hasMask v || hasMaskEntries rest

def hasMaskItems : List (Json Num) → Bool
  | [] => false
  | v :: rest => hasMask v || hasMaskItems rest

end

/-! ## §2 The form -/

def PROTECTED_SETTINGS : List String := ["web_auth_enabled", "mikrotik", "metrics", "alertmanager"]

/-- `body.pop(key, None)` -/
def pop (key : String) (body : Entries Num) : Entries Num := body.filter fun e => decide (e.1 ≠ key)

/-- `uuid4().hex` -/
structure Token where
  hex : String
  length : hex.length = 32

/-- `dict.update` -/
def update (base : Entries Num) : Entries Num → Entries Num
  | [] => base
  | (k, v) :: rest => update (Dict.assign k v base) rest

/-- `apply_settings`, on the configuration; when it cannot be saved, it stays. -/
def applySettings (saved : Bool) (cfg updates : Entries Num) : Entries Num :=
  if saved then update cfg (deepMerge cfg updates) else cfg

section Form

variable [Lower] [Truth Num]

/-- The value under the key is there and true. -/
def isSet (key : String) (entries : Entries Num) : Bool := (Dict.lookup key entries).any truthy

/-- `cfg['webhook']['url'] = '***'`; a `webhook` that is no object has no `get`. -/
def maskWebhook (shown : Entries Num) : Option (Entries Num) :=
  match Dict.lookup "webhook" shown with
  | none => some shown
  | some (.obj webhook) =>
      if isSet "url" webhook then
        some (Dict.assign "webhook" (.obj (Dict.assign "url" mask webhook)) shown)
      else some shown
  | some other => if other.truthy then none else some shown

/-- `settings_get`; `none` when it raises. -/
def settingsGet (cfg : Entries Num) : Option (Entries Num) :=
  (maskWebhook (redactEntries cfg)).map
    (Dict.assign "web_token_masked" (if isSet "web_token" cfg then mask else .str ""))

/-- What `settings_post` makes of the body before it is merged. -/
def updatesOf (fresh : Token) (body : Entries Num) : Entries Num :=
  let regen := isSet "_regen_token" body
  let body := pop "_regen_token" body
  let body := PROTECTED_SETTINGS.foldl (fun body key => pop key body) body
  let body := if regen then Dict.assign "web_token" (.str fresh.hex) body else body
  let body := if (Dict.lookup "web_users" body).any hasMask then pop "web_users" body else body
  discardEntries body

/-- `settings_post`: the configuration afterwards. -/
def settingsPost (saved : Bool) (fresh : Token) (cfg body : Entries Num) : Entries Num :=
  applySettings saved cfg (updatesOf fresh body)

end Form

/-! ## §3 What survives -/

section Survival

variable [Lower]

mutual

/-- Nothing in it is masked or thrown away. -/
def Plain : Json Num → Prop
  | .obj entries => PlainEntries entries
  | .list items => PlainItems items
  | _ => True

def PlainEntries : Entries Num → Prop
  | [] => True
  | (k, v) :: rest => (¬ secret k ∧ ¬ isMask v ∧ Plain v) ∧ PlainEntries rest

def PlainItems : List (Json Num) → Prop
  | [] => True
  | v :: rest => Plain v ∧ PlainItems rest

end

mutual

/-- What is masked or thrown away does not lie in a list. -/
def Kept : Json Num → Prop
  | .obj entries => KeptEntries entries
  | .list items => PlainItems items
  | _ => True

def KeptEntries : Entries Num → Prop
  | [] => True
  | (k, v) :: rest => (secret k ∨ isMask v ∨ Kept v) ∧ KeptEntries rest

end

/-- The same for `webhook`, whose `url` is masked as well. -/
def WebhookKept : Json Num → Prop
  | .obj entries => ∀ k v, (k, v) ∈ entries → k = "url" ∨ secret k ∨ isMask v ∨ Kept v
  | v => Kept v

/-- The condition on a configuration. -/
structure RoundTrips [Truth Num] (fresh : Token) (cfg : Entries Num) : Prop where
  regen : "_regen_token" ∈ cfg.map Prod.fst → Dict.lookup "web_token" cfg = some (.str fresh.hex)
  masked : isSet "web_token" cfg ∨ Dict.lookup "web_token_masked" cfg = some (.str "")
  entries : ∀ k v, (k, v) ∈ cfg → k ∈ PROTECTED_SETTINGS ∨ k = "web_users" ∨ secret k ∨ isMask v ∨
    if k = "webhook" then WebhookKept v else Kept v

/-! ## §4 Masking, then throwing the masks away -/

omit [Lower] in
theorem isMask_mask : isMask (mask : Json Num) = true := rfl

theorem isMask_redact (v : Json Num) : isMask (redact v) = isMask v := by
  cases v <;> simp only [redact, isMask]

theorem keys_redactEntries (entries : Entries Num) :
    (redactEntries entries).map Prod.fst = entries.map Prod.fst := by
  induction entries with
  | nil => rw [redactEntries]
  | cons e rest ih =>
      rw [redactEntries, List.map_cons, List.map_cons, ih]

theorem lookup_redactEntries (k : String) (entries : Entries Num) :
    Dict.lookup k (redactEntries entries) =
      (Dict.lookup k entries).map fun v => if secret k then mask else redact v := by
  induction entries with
  | nil =>
      rw [redactEntries]
      rfl
  | cons e rest ih =>
      obtain ⟨k', v⟩ := e
      rw [redactEntries, Dict.lookup, Dict.lookup]
      by_cases hk : k' = k
      · subst hk
        rw [if_pos rfl, if_pos rfl]
        rfl
      · rw [if_neg hk, if_neg hk, ih]

omit [Lower] in
theorem keys_discardEntries (entries : Entries Num) :
    List.Sublist ((discardEntries entries).map Prod.fst) (entries.map Prod.fst) := by
  induction entries with
  | nil => rw [discardEntries]
  | cons e rest ih =>
      obtain ⟨k, v⟩ := e
      rw [discardEntries]
      split_ifs
      · exact ih.cons k
      · exact ih.cons_cons k

omit [Lower] in
theorem lookup_discardEntries {entries : Entries Num} (h : (entries.map Prod.fst).Nodup)
    (k : String) : Dict.lookup k (discardEntries entries) =
      ((Dict.lookup k entries).filter fun v => !isMask v).map discard := by
  induction entries with
  | nil =>
      rw [discardEntries]
      rfl
  | cons e rest ih =>
      obtain ⟨k', v⟩ := e
      rw [List.map_cons, List.nodup_cons] at h
      rw [discardEntries, Dict.lookup]
      by_cases hk : k' = k
      · subst hk
        have hnone : Dict.lookup k' rest = none := Dict.lookup_eq_none h.1
        cases hm : isMask v with
        | true => simp [ih h.2, hnone, hm, Option.filter]
        | false => simp [Dict.lookup, hm, Option.filter]
      · cases hm : isMask v with
        | true => simp [ih h.2, hk]
        | false => simp [Dict.lookup, ih h.2, hk]

theorem length_discardEntries_redactEntries (entries : Entries Num) :
    (discardEntries (redactEntries entries)).length ≤ entries.length := by
  have hkeys := (keys_discardEntries (redactEntries entries)).length_le
  rw [keys_redactEntries, List.length_map, List.length_map] at hkeys
  exact hkeys

mutual

/-- **What stays as it is** on the way through both. -/
theorem discard_redact_eq_iff : ∀ v : Json Num, discard (redact v) = v ↔ Plain v
  | .obj entries => by
      rw [redact, discard, Json.obj.injEq, Plain]
      exact discardEntries_redactEntries_eq_iff entries
  | .list items => by
      rw [redact, discard, Json.list.injEq, Plain]
      exact discardItems_redactItems_eq_iff items
  | .null => by simp only [redact, discard, Plain]
  | .bool b => by simp only [redact, discard, Plain]
  | .num n => by simp only [redact, discard, Plain]
  | .str s => by simp only [redact, discard, Plain]

theorem discardEntries_redactEntries_eq_iff : ∀ entries : Entries Num,
    discardEntries (redactEntries entries) = entries ↔ PlainEntries entries
  | [] => by simp only [redactEntries, discardEntries, PlainEntries]
  | (k, v) :: rest => by
      have hlen := length_discardEntries_redactEntries rest
      have hv := discard_redact_eq_iff v
      have hrest := discardEntries_redactEntries_eq_iff rest
      rw [redactEntries, discardEntries, PlainEntries]
      by_cases hs : secret k
      · -- a masked value is thrown away, and the entry with it
        rw [if_pos hs, if_pos isMask_mask]
        refine iff_of_false (fun heq => ?_) (fun h => h.1.1 hs)
        rw [heq, List.length_cons] at hlen
        omega
      · rw [if_neg hs, isMask_redact]
        by_cases hm : isMask v
        · rw [if_pos hm]
          refine iff_of_false (fun heq => ?_) (fun h => h.1.2.1 hm)
          rw [heq, List.length_cons] at hlen
          omega
        · rw [if_neg hm, List.cons.injEq, Prod.mk.injEq, hv, hrest]
          simp [hs, hm]

theorem discardItems_redactItems_eq_iff : ∀ items : List (Json Num),
    discardItems (redactItems items) = items ↔ PlainItems items
  | [] => by simp only [redactItems, discardItems, PlainItems]
  | v :: rest => by
      rw [redactItems, discardItems, PlainItems, List.cons.injEq, discard_redact_eq_iff v,
        discardItems_redactItems_eq_iff rest]

end

/-- An object merged with a form of it, in which some values are hidden, is unchanged exactly when
each of the other values is. -/
theorem merge_hidden_eq_iff {entries form : Entries Num} (h : (entries.map Prod.fst).Nodup)
    (hform : (form.map Prod.fst).Nodup) (hidden : String → Bool)
    (hlook : ∀ k, Dict.lookup k form =
      (Dict.lookup k entries).map fun v => if hidden k then mask else redact v) :
    deepMerge entries (discardEntries form) = entries ↔
      ∀ k v, (k, v) ∈ entries → hidden k ∨ isMask v ∨
        mergeValue (some v) (discard (redact v)) = v := by
  rw [deepMerge_eq_self_iff (hform.sublist (keys_discardEntries _))]
  constructor
  · intro hall k v hmem
    have hv := Dict.lookup_of_mem h hmem
    by_cases hs : hidden k
    · exact Or.inl hs
    by_cases hm : isMask v
    · exact Or.inr (Or.inl hm)
    have hone := hall k (discard (redact v)) (by
      rw [lookup_discardEntries hform, hlook, hv]
      simp [hs, hm, isMask_redact, Option.filter])
    rw [hv, Option.some.injEq] at hone
    exact Or.inr (Or.inr hone.symm)
  · intro hall k u hu
    rw [lookup_discardEntries hform, hlook] at hu
    cases hv : Dict.lookup k entries with
    | none =>
        rw [hv] at hu
        cases hu
    | some v =>
        rw [hv] at hu
        by_cases hs : hidden k
        · simp [hs, isMask_mask, Option.filter] at hu
        by_cases hm : isMask v
        · simp [hs, hm, isMask_redact, Option.filter] at hu
        have hsame := ((hall k v (Dict.mem_of_lookup hv)).resolve_left hs).resolve_left hm
        simp [hs, hm, isMask_redact, Option.filter] at hu
        rw [← hu, hsame]

theorem nodup_redactEntries {entries : Entries Num} (h : (entries.map Prod.fst).Nodup) :
    ((redactEntries entries).map Prod.fst).Nodup := by
  rw [keys_redactEntries]
  exact h

theorem merge_form_eq_iff {entries : Entries Num} (h : (entries.map Prod.fst).Nodup) :
    deepMerge entries (discardEntries (redactEntries entries)) = entries ↔
      ∀ k v, (k, v) ∈ entries → secret k ∨ isMask v ∨
        mergeValue (some v) (discard (redact v)) = v :=
  merge_hidden_eq_iff h (nodup_redactEntries h) secret fun k => lookup_redactEntries k entries

mutual

/-- **What survives in its place**: the merge of a value with its own form. -/
theorem mergeValue_form_eq_iff : ∀ v : Json Num, Json.Unique v →
    (mergeValue (some v) (discard (redact v)) = v ↔ Kept v)
  | .obj entries, hu => by
      rw [Json.Unique] at hu
      rw [redact, discard, mergeValue_obj, Json.obj.injEq, merge_form_eq_iff hu.1, Kept]
      exact forall_form_eq_iff entries hu.2
  | .list items, _ => by
      rw [redact, discard, mergeValue, Json.list.injEq, Kept]
      exact discardItems_redactItems_eq_iff items
  | .null, _ => by simp only [redact, discard, mergeValue, Kept]
  | .bool b, _ => by simp only [redact, discard, mergeValue, Kept]
  | .num n, _ => by simp only [redact, discard, mergeValue, Kept]
  | .str s, _ => by simp only [redact, discard, mergeValue, Kept]

theorem forall_form_eq_iff : ∀ entries : Entries Num, UniqueEntries entries →
    ((∀ k v, (k, v) ∈ entries → secret k ∨ isMask v ∨
      mergeValue (some v) (discard (redact v)) = v) ↔ KeptEntries entries)
  | [], _ => by
      rw [KeptEntries]
      exact iff_of_true (fun k v h => (by cases h)) trivial
  | (k, v) :: rest, hu => by
      rw [UniqueEntries] at hu
      rw [KeptEntries, ← mergeValue_form_eq_iff v hu.1, ← forall_form_eq_iff rest hu.2]
      constructor
      · intro hall
        exact ⟨hall k v List.mem_cons_self, fun k' v' hmem =>
          hall k' v' (List.mem_cons_of_mem _ hmem)⟩
      · rintro ⟨hfirst, hrest⟩ k' v' hmem
        rcases List.mem_cons.mp hmem with heq | hmem
        · cases heq
          exact hfirst
        · exact hrest k' v' hmem

end

mutual

theorem Plain.kept : ∀ {v : Json Num}, Plain v → Kept v
  | .obj entries, h => by
      rw [Plain] at h
      rw [Kept]
      exact h.kept
  | .list items, h => by
      rw [Plain] at h
      rw [Kept]
      exact h
  | .null, _ => by simp only [Kept]
  | .bool b, _ => by simp only [Kept]
  | .num n, _ => by simp only [Kept]
  | .str s, _ => by simp only [Kept]

theorem PlainEntries.kept : ∀ {entries : Entries Num}, PlainEntries entries → KeptEntries entries
  | [], _ => by simp only [KeptEntries]
  | (k, v) :: rest, h => by
      rw [PlainEntries] at h
      rw [KeptEntries]
      exact ⟨Or.inr (Or.inr h.1.2.2.kept), h.2.kept⟩

end

omit [Lower] in
theorem hasMask_of_isMask {v : Json Num} (h : isMask v) : hasMask v := by
  cases v with
  | str s =>
      rw [isMask, decide_eq_true_eq] at h
      subst h
      rw [hasMask]
      decide
  | _ => cases h

mutual

/-- Where no mask is seen, nothing was masked. -/
theorem plain_of_not_hasMask : ∀ {v : Json Num}, hasMask (redact v) = false → Plain v
  | .obj entries, h => by
      rw [redact, hasMask] at h
      rw [Plain]
      exact plainEntries_of_not_hasMask h
  | .list items, h => by
      rw [redact, hasMask] at h
      rw [Plain]
      exact plainItems_of_not_hasMask h
  | .null, _ => by simp only [Plain]
  | .bool b, _ => by simp only [Plain]
  | .num n, _ => by simp only [Plain]
  | .str s, _ => by simp only [Plain]

theorem plainEntries_of_not_hasMask : ∀ {entries : Entries Num},
    hasMaskEntries (redactEntries entries) = false → PlainEntries entries
  | [], _ => by simp only [PlainEntries]
  | (k, v) :: rest, h => by
      rw [redactEntries, hasMaskEntries, Bool.or_eq_false_iff, Bool.or_eq_false_iff] at h
      rw [PlainEntries]
      have hs : secret k ≠ true := by
        intro hs
        rw [if_pos hs, hasMask_of_isMask isMask_mask] at h
        exact Bool.noConfusion h.1.2
      rw [if_neg hs] at h
      refine ⟨⟨hs, fun hm => ?_, plain_of_not_hasMask h.1.2⟩, plainEntries_of_not_hasMask h.2⟩
      rw [hasMask_of_isMask (by rw [isMask_redact]; exact hm)] at h
      exact Bool.noConfusion h.1.2

theorem plainItems_of_not_hasMask : ∀ {items : List (Json Num)},
    hasMaskItems (redactItems items) = false → PlainItems items
  | [], _ => by simp only [PlainItems]
  | v :: rest, h => by
      rw [redactItems, hasMaskItems, Bool.or_eq_false_iff] at h
      rw [PlainItems]
      exact ⟨plain_of_not_hasMask h.1, plainItems_of_not_hasMask h.2⟩

end

/-! ## §5 The names in the code -/

theorem secret_of_small {key : String} (h : (key.toList.all fun c => c.isLower || c == '_') = true) :
    secret key = ["token", "password", "secret", "community", "api_key"].any fun word =>
      occursIn word key := by
  unfold secret
  rw [lower_small key h]

theorem secret_web_token : secret "web_token" = true := by
  rw [secret_of_small (by decide)]
  decide

theorem secret_web_token_masked : secret "web_token_masked" = true := by
  rw [secret_of_small (by decide)]
  decide

theorem secret_regen_token : secret "_regen_token" = true := by
  rw [secret_of_small (by decide)]
  decide

theorem secret_web_users : secret "web_users" = false := by
  rw [secret_of_small (by decide)]
  decide

theorem secret_url : secret "url" = false := by
  rw [secret_of_small (by decide)]
  decide

theorem secret_webhook : secret "webhook" = false := by
  rw [secret_of_small (by decide)]
  decide

end Survival

/-! ## §6 The updates, key by key -/

theorem lookup_pop {body : Entries Num} (h : (body.map Prod.fst).Nodup) (key k : String) :
    Dict.lookup k (pop key body) = if k = key then none else Dict.lookup k body := by
  have hfilter := Dict.lookup_filter_key (k := k) (p := fun k' (_ : Json Num) => decide (k' ≠ key)) h
  unfold pop
  rw [hfilter]
  by_cases hk : k = key
  · cases Dict.lookup k body <;> simp [hk, Option.filter]
  · cases Dict.lookup k body <;> simp [hk, Option.filter]

theorem nodup_pop {body : Entries Num} (h : (body.map Prod.fst).Nodup) (key : String) :
    ((pop key body).map Prod.fst).Nodup :=
  h.sublist (List.filter_sublist.map Prod.fst)

theorem nodup_foldl_pop {body : Entries Num} (h : (body.map Prod.fst).Nodup) (keys : List String) :
    ((keys.foldl (fun body key => pop key body) body).map Prod.fst).Nodup := by
  induction keys generalizing body with
  | nil => exact h
  | cons key rest ih => exact ih (nodup_pop h key)

theorem lookup_foldl_pop {body : Entries Num} (h : (body.map Prod.fst).Nodup) (keys : List String)
    (k : String) : Dict.lookup k (keys.foldl (fun body key => pop key body) body) =
      if k ∈ keys then none else Dict.lookup k body := by
  induction keys generalizing body with
  | nil => simp
  | cons key rest ih =>
      rw [List.foldl_cons, ih (nodup_pop h key), lookup_pop h]
      by_cases hk : k = key
      · simp [hk]
      · simp [hk]

theorem update_eq_writeOver (base extra : Entries Num) :
    update base extra = Dict.writeOver (fun _ v => v) base extra := by
  induction extra generalizing base with
  | nil => rfl
  | cons e rest ih => exact ih _

theorem update_eq_self_iff {base extra : Entries Num} (hextra : (extra.map Prod.fst).Nodup) :
    update base extra = base ↔ ∀ k v, Dict.lookup k extra = some v → Dict.lookup k base = some v := by
  rw [update_eq_writeOver]
  exact Dict.writeOver_eq_self_iff hextra

/-- **What is saved is what was there** exactly when each update says what was there. -/
theorem applySettings_eq_self_iff {cfg updates : Entries Num} (hcfg : (cfg.map Prod.fst).Nodup)
    (hup : (updates.map Prod.fst).Nodup) : applySettings true cfg updates = cfg ↔
      ∀ k u, Dict.lookup k updates = some u →
        Dict.lookup k cfg = some (mergeValue (Dict.lookup k cfg) u) := by
  show update cfg (deepMerge cfg updates) = cfg ↔ _
  have hmerged : ((deepMerge cfg updates).map Prod.fst).Nodup := by
    rw [deepMerge_eq_writeOver]
    exact Dict.nodup_writeOver hcfg
  rw [update_eq_self_iff hmerged]
  constructor
  · intro hall k u hu
    apply hall k
    rw [lookup_deepMerge hup, hu]
    rfl
  · intro hall k v hv
    rw [lookup_deepMerge hup] at hv
    cases hu : Dict.lookup k updates with
    | none =>
        rw [hu] at hv
        exact hv
    | some u =>
        rw [hu, Option.map_some, Option.some_or] at hv
        rw [← hv]
        exact hall k u hu

section RoundTrip

variable [Lower] [Truth Num]

/-- The body without the keys that the form may not set. -/
def allowed (body : Entries Num) : Entries Num :=
  PROTECTED_SETTINGS.foldl (fun body key => pop key body) (pop "_regen_token" body)

omit [Lower] [Truth Num] in
theorem nodup_allowed {body : Entries Num} (h : (body.map Prod.fst).Nodup) :
    ((allowed body).map Prod.fst).Nodup :=
  nodup_foldl_pop (nodup_pop h _) _

omit [Lower] [Truth Num] in
theorem lookup_allowed {body : Entries Num} (h : (body.map Prod.fst).Nodup) (k : String) :
    Dict.lookup k (allowed body) =
      if k ∈ PROTECTED_SETTINGS ∨ k = "_regen_token" then none else Dict.lookup k body := by
  unfold allowed
  rw [lookup_foldl_pop (nodup_pop h _), lookup_pop h]
  by_cases hp : k ∈ PROTECTED_SETTINGS
  · simp [hp]
  · simp [hp]

/-- The body with the new token. -/
def rotated (fresh : Token) (body : Entries Num) : Entries Num :=
  if isSet "_regen_token" body then Dict.assign "web_token" (.str fresh.hex) (allowed body)
  else allowed body

omit [Lower] in
theorem nodup_rotated {body : Entries Num} (h : (body.map Prod.fst).Nodup) (fresh : Token) :
    ((rotated fresh body).map Prod.fst).Nodup := by
  unfold rotated
  split_ifs
  · exact Dict.nodup_assign (nodup_allowed h)
  · exact nodup_allowed h

omit [Lower] in
theorem lookup_rotated {body : Entries Num} (fresh : Token) {k : String} (hk : k ≠ "web_token") :
    Dict.lookup k (rotated fresh body) = Dict.lookup k (allowed body) := by
  unfold rotated
  split_ifs
  · rw [Dict.lookup_assign, if_neg hk]
  · rfl

omit [Lower] in
theorem updatesOf_eq (fresh : Token) (body : Entries Num) : updatesOf fresh body =
    discardEntries (if (Dict.lookup "web_users" (rotated fresh body)).any hasMask
      then pop "web_users" (rotated fresh body) else rotated fresh body) := rfl

omit [Lower] in
theorem nodup_updatesOf {body : Entries Num} (h : (body.map Prod.fst).Nodup) (fresh : Token) :
    ((updatesOf fresh body).map Prod.fst).Nodup := by
  rw [updatesOf_eq]
  refine List.Nodup.sublist (keys_discardEntries _) ?_
  split_ifs
  · exact nodup_pop (nodup_rotated h fresh) _
  · exact nodup_rotated h fresh

omit [Lower] in
/-- What a key other than `web_users` brings into the configuration. -/
theorem lookup_updatesOf {body : Entries Num} (h : (body.map Prod.fst).Nodup) (fresh : Token)
    {k : String} (hk : k ≠ "web_users") : Dict.lookup k (updatesOf fresh body) =
      ((Dict.lookup k (rotated fresh body)).filter fun v => !isMask v).map discard := by
  rw [updatesOf_eq]
  split_ifs
  · rw [lookup_discardEntries (nodup_pop (nodup_rotated h fresh) _),
      lookup_pop (nodup_rotated h fresh), if_neg hk]
  · rw [lookup_discardEntries (nodup_rotated h fresh)]

omit [Lower] in
theorem lookup_updatesOf_web_users {body : Entries Num} (h : (body.map Prod.fst).Nodup)
    (fresh : Token) {u : Json Num} (hu : Dict.lookup "web_users" (updatesOf fresh body) = some u) :
    ∃ v, Dict.lookup "web_users" body = some v ∧ hasMask v = false ∧ u = discard v := by
  have hrot : Dict.lookup "web_users" (rotated fresh body) = Dict.lookup "web_users" body := by
    rw [lookup_rotated fresh (by decide), lookup_allowed h, if_neg (by decide)]
  rw [updatesOf_eq] at hu
  split_ifs at hu with hmask
  · rw [lookup_discardEntries (nodup_pop (nodup_rotated h fresh) _),
      lookup_pop (nodup_rotated h fresh), if_pos rfl] at hu
    cases hu
  · rw [lookup_discardEntries (nodup_rotated h fresh), hrot] at hu
    rw [hrot] at hmask
    cases hv : Dict.lookup "web_users" body with
    | none =>
        rw [hv] at hu
        cases hu
    | some v =>
        rw [hv] at hu hmask
        obtain ⟨w, hw, rfl⟩ := Option.map_eq_some_iff.mp hu
        obtain ⟨hvw, _⟩ := Option.filter_eq_some_iff.mp hw
        cases hvw
        exact ⟨v, rfl, Bool.eq_false_iff.mpr hmask, rfl⟩

/-! ## §7 The form, key by key -/

/-- The form of `webhook`. -/
def webhookForm : Json Num → Json Num
  | .obj entries =>
      .obj (if isSet "url" (redactEntries entries) then
        Dict.assign "url" mask (redactEntries entries) else redactEntries entries)
  | v => redact v

theorem webhookForm_obj (entries : Entries Num) : webhookForm (.obj entries) =
    .obj (if isSet "url" (redactEntries entries) then
      Dict.assign "url" mask (redactEntries entries) else redactEntries entries) := rfl

theorem lookup_maskWebhook {cfg shown : Entries Num}
    (h : maskWebhook (redactEntries cfg) = some shown) (k : String) :
    Dict.lookup k shown = if k = "webhook" then (Dict.lookup k cfg).map webhookForm
      else Dict.lookup k (redactEntries cfg) := by
  unfold maskWebhook at h
  have hred := lookup_redactEntries "webhook" cfg
  rw [secret_webhook] at hred
  cases hcfg : Dict.lookup "webhook" cfg with
  | none =>
      rw [hred, hcfg] at h
      cases h
      by_cases hk : k = "webhook"
      · rw [if_pos hk, hk, hred, hcfg]
        rfl
      · rw [if_neg hk]
  | some v =>
      rw [hred, hcfg] at h
      by_cases hk : k = "webhook"
      · rw [if_pos hk, hk, hcfg, Option.map_some]
        cases v with
        | obj entries =>
            simp only [Option.map_some, redact, Bool.false_eq_true, if_false] at h
            rw [webhookForm_obj]
            split_ifs at h with hurl
            · cases h
              rw [Dict.lookup_assign, if_pos rfl, if_pos hurl]
            · cases h
              rw [hred, hcfg, if_neg hurl]
              simp only [Option.map_some, redact, Bool.false_eq_true, if_false]
        | _ =>
            simp only [Option.map_some, redact, Bool.false_eq_true, if_false] at h
            split_ifs at h
            cases h
            rw [hred, hcfg]
            simp only [Option.map_some, redact, Bool.false_eq_true, if_false, webhookForm]
      · rw [if_neg hk]
        cases v with
        | obj entries =>
            simp only [Option.map_some, redact, Bool.false_eq_true, if_false] at h
            split_ifs at h
            · cases h
              rw [Dict.lookup_assign, if_neg hk]
            · cases h
              rfl
        | _ =>
            simp only [Option.map_some, redact, Bool.false_eq_true, if_false] at h
            split_ifs at h
            cases h
            rfl

theorem nodup_maskWebhook {cfg shown : Entries Num} (hcfg : (cfg.map Prod.fst).Nodup)
    (h : maskWebhook (redactEntries cfg) = some shown) : (shown.map Prod.fst).Nodup := by
  have hred := nodup_redactEntries hcfg
  unfold maskWebhook at h
  split at h
  · cases h
    exact hred
  · split_ifs at h
    · cases h
      exact Dict.nodup_assign hred
    · cases h
      exact hred
  · split_ifs at h
    cases h
    exact hred

/-- **What the form shows under each key.** -/
theorem lookup_settingsGet {cfg shown : Entries Num} (h : settingsGet cfg = some shown) (k : String) :
    Dict.lookup k shown =
      if k = "web_token_masked" then some (if isSet "web_token" cfg then mask else .str "")
      else if k = "webhook" then (Dict.lookup k cfg).map webhookForm
      else (Dict.lookup k cfg).map fun v => if secret k then mask else redact v := by
  obtain ⟨masked, hmasked, rfl⟩ := Option.map_eq_some_iff.mp h
  rw [Dict.lookup_assign, lookup_maskWebhook hmasked, lookup_redactEntries]

theorem nodup_settingsGet {cfg shown : Entries Num} (hcfg : (cfg.map Prod.fst).Nodup)
    (h : settingsGet cfg = some shown) : (shown.map Prod.fst).Nodup := by
  obtain ⟨masked, hmasked, rfl⟩ := Option.map_eq_some_iff.mp h
  exact Dict.nodup_assign (nodup_maskWebhook hcfg hmasked)

/-- The form asks for a new token exactly when the configuration has a key of that name. -/
theorem regen_iff {cfg shown : Entries Num} (hcfg : (cfg.map Prod.fst).Nodup)
    (h : settingsGet cfg = some shown) :
    isSet "_regen_token" shown = true ↔ "_regen_token" ∈ cfg.map Prod.fst := by
  unfold isSet
  rw [lookup_settingsGet h, if_neg (by decide), if_neg (by decide), secret_regen_token]
  cases hlook : Dict.lookup "_regen_token" cfg with
  -- the name of the key makes its value a mask, and a mask counts as true
  | none =>
      refine iff_of_false (fun hf => (by cases hf)) (fun hmem => ?_)
      obtain ⟨⟨k, v⟩, hkv, hk⟩ := List.mem_map.mp hmem
      cases hk
      rw [Dict.lookup_of_mem hcfg hkv] at hlook
      cases hlook
  | some v =>
      refine iff_of_true (by simp [mask, truthy]) ?_
      exact List.mem_map.mpr ⟨_, Dict.mem_of_lookup hlook, rfl⟩

/-- The key brings nothing new. -/
def Fine (fresh : Token) (cfg shown : Entries Num) (k : String) : Prop :=
  ∀ u, Dict.lookup k (updatesOf fresh shown) = some u →
    Dict.lookup k cfg = some (mergeValue (Dict.lookup k cfg) u)

theorem fine_web_users {cfg shown : Entries Num} (fresh : Token) (hcfg : (Json.obj cfg).Unique)
    (h : settingsGet cfg = some shown) : Fine fresh cfg shown "web_users" := by
  rw [Json.Unique] at hcfg
  intro u hu
  obtain ⟨w, hw, hmask, rfl⟩ := lookup_updatesOf_web_users (nodup_settingsGet hcfg.1 h) fresh hu
  rw [lookup_settingsGet h, if_neg (by decide), if_neg (by decide), secret_web_users] at hw
  obtain ⟨v, hv, rfl⟩ := Option.map_eq_some_iff.mp hw
  have hplain : Plain v := plain_of_not_hasMask hmask
  have hunique := UniqueEntries.of_mem hcfg.2 (Dict.mem_of_lookup hv)
  rw [hv]
  exact congrArg some ((mergeValue_form_eq_iff v hunique).mpr hplain.kept).symm

omit [Lower] in
theorem fine_of_absent {cfg shown : Entries Num} {fresh : Token} {k : String}
    (hshown : (shown.map Prod.fst).Nodup) (hk : k ≠ "web_users")
    (hw : Dict.lookup k (rotated fresh shown) = none) : Fine fresh cfg shown k := by
  intro u hu
  rw [lookup_updatesOf hshown fresh hk, hw] at hu
  cases hu

omit [Lower] in
theorem fine_iff_of_present {cfg shown : Entries Num} {fresh : Token} {k : String} {w : Json Num}
    (hshown : (shown.map Prod.fst).Nodup) (hk : k ≠ "web_users")
    (hw : Dict.lookup k (rotated fresh shown) = some w) : Fine fresh cfg shown k ↔
      isMask w ∨ Dict.lookup k cfg = some (mergeValue (Dict.lookup k cfg) (discard w)) := by
  unfold Fine
  rw [lookup_updatesOf hshown fresh hk, hw]
  by_cases hm : isMask w
  · simp [hm, Option.filter]
  · simp [hm, Option.filter]

theorem fine_web_token {cfg shown : Entries Num} (fresh : Token) (hcfg : (cfg.map Prod.fst).Nodup)
    (h : settingsGet cfg = some shown) : Fine fresh cfg shown "web_token" ↔
      ("_regen_token" ∈ cfg.map Prod.fst → Dict.lookup "web_token" cfg = some (.str fresh.hex)) := by
  have hshown := nodup_settingsGet hcfg h
  rw [← regen_iff hcfg h]
  by_cases hregen : isSet "_regen_token" shown = true
  · -- the new token stands in the body, and it is no mask
    have hw : Dict.lookup "web_token" (rotated fresh shown) = some (.str fresh.hex) := by
      unfold rotated
      rw [if_pos hregen, Dict.lookup_assign, if_pos rfl]
    have hm : isMask (.str fresh.hex : Json Num) = false := by
      rw [isMask, decide_eq_false_iff_not]
      intro heq
      have hlen := fresh.length
      rw [heq] at hlen
      revert hlen
      decide
    rw [fine_iff_of_present hshown (by decide) hw, hm, discard, mergeValue]
    simp [hregen]
  · -- without a new token, the mask of the old one is thrown away
    refine iff_of_true ?_ (fun hr => absurd hr hregen)
    have hw : Dict.lookup "web_token" (rotated fresh shown) =
        (Dict.lookup "web_token" cfg).map fun _ => mask := by
      unfold rotated
      rw [if_neg hregen, lookup_allowed hshown, if_neg (by decide), lookup_settingsGet h,
        if_neg (by decide), if_neg (by decide), secret_web_token]
      rfl
    cases hv : Dict.lookup "web_token" cfg with
    | none =>
        rw [hv] at hw
        exact fine_of_absent hshown (by decide) hw
    | some v =>
        rw [hv] at hw
        exact (fine_iff_of_present hshown (by decide) hw).mpr (Or.inl rfl)

theorem fine_web_token_masked {cfg shown : Entries Num} (fresh : Token)
    (hcfg : (cfg.map Prod.fst).Nodup) (h : settingsGet cfg = some shown) :
    Fine fresh cfg shown "web_token_masked" ↔
      isSet "web_token" cfg ∨ Dict.lookup "web_token_masked" cfg = some (.str "") := by
  have hshown := nodup_settingsGet hcfg h
  have hw : Dict.lookup "web_token_masked" (rotated fresh shown) =
      some (if isSet "web_token" cfg then mask else .str "") := by
    rw [lookup_rotated fresh (by decide), lookup_allowed hshown, if_neg (by decide),
      lookup_settingsGet h, if_pos rfl]
  rw [fine_iff_of_present hshown (by decide) hw]
  by_cases hset : isSet "web_token" cfg
  · simp [hset, isMask_mask]
  · simp [hset, isMask, discard, mergeValue]

/-- A key that the form may set and that is no special case. -/
theorem fine_plain_key {cfg shown : Entries Num} (fresh : Token) (hcfg : (Json.obj cfg).Unique)
    (h : settingsGet cfg = some shown) {k : String} {v : Json Num} (hmem : (k, v) ∈ cfg)
    (hp : k ∉ PROTECTED_SETTINGS) (hs : secret k = false) (hwu : k ≠ "web_users")
    (hwh : k ≠ "webhook") : Fine fresh cfg shown k ↔ isMask v ∨ Kept v := by
  rw [Json.Unique] at hcfg
  have hshown := nodup_settingsGet hcfg.1 h
  have hne : ∀ name, secret name = true → k ≠ name := by
    rintro name hname rfl
    rw [hs] at hname
    cases hname
  have hlook := Dict.lookup_of_mem hcfg.1 hmem
  have hw : Dict.lookup k (rotated fresh shown) = some (redact v) := by
    rw [lookup_rotated fresh (hne _ secret_web_token), lookup_allowed hshown,
      if_neg (not_or.mpr ⟨hp, hne _ secret_regen_token⟩), lookup_settingsGet h,
      if_neg (hne _ secret_web_token_masked), if_neg hwh, hlook]
    simp [hs]
  rw [fine_iff_of_present hshown hwu hw, isMask_redact, hlook, Option.some.injEq,
    eq_comm (a := v), mergeValue_form_eq_iff v (UniqueEntries.of_mem hcfg.2 hmem)]

/-- A value that is not true has nothing in it to mask. -/
theorem kept_of_falsy {v : Json Num} (h : (redact v).truthy = false) : Kept v := by
  cases v with
  | obj entries =>
      cases entries with
      | nil => simp only [Kept, KeptEntries]
      | cons e rest => simp only [redact, redactEntries, truthy] at h; cases h
  | list items =>
      cases items with
      | nil => simp only [Kept, PlainItems]
      | cons v rest => simp only [redact, redactItems, truthy] at h; cases h
  | _ => simp only [Kept]

theorem webhook_merge_eq_iff {entries : Entries Num} (hu : (Json.obj entries).Unique) :
    mergeValue (some (.obj entries)) (discard (webhookForm (.obj entries))) = .obj entries ↔
      WebhookKept (.obj entries) := by
  rw [Json.Unique] at hu
  have hred := nodup_redactEntries hu.1
  have hurl := lookup_redactEntries "url" entries
  rw [secret_url] at hurl
  have hkept : ∀ k v, (k, v) ∈ entries →
      (mergeValue (some v) (discard (redact v)) = v ↔ Kept v) := fun k v hmem =>
    mergeValue_form_eq_iff v (UniqueEntries.of_mem hu.2 hmem)
  rw [webhookForm, discard, mergeValue_obj, Json.obj.injEq, WebhookKept]
  split_ifs with hset
  · -- the url is masked
    have hform := merge_hidden_eq_iff hu.1 (Dict.nodup_assign (k := "url") (v := mask) hred)
      (fun k => decide (k = "url") || secret k) (fun k => by
        rw [Dict.lookup_assign]
        by_cases hk : k = "url"
        · subst hk
          unfold isSet at hset
          rw [hurl] at hset
          cases hv : Dict.lookup "url" entries with
          | none =>
              rw [hv] at hset
              cases hset
          | some v => simp
        · rw [if_neg hk, lookup_redactEntries]
          simp [hk])
    rw [hform]
    constructor
    · intro hall k v hmem
      have hone := hall k v hmem
      rw [hkept k v hmem, Bool.or_eq_true, decide_eq_true_eq, or_assoc] at hone
      exact hone
    · intro hall k v hmem
      rw [hkept k v hmem, Bool.or_eq_true, decide_eq_true_eq, or_assoc]
      exact hall k v hmem
  · -- there is no url, or one that counts as false and so has nothing in it to mask
    rw [merge_form_eq_iff hu.1]
    constructor
    · intro hall k v hmem
      have hone := hall k v hmem
      rw [hkept k v hmem] at hone
      exact Or.inr hone
    · intro hall k v hmem
      rw [hkept k v hmem]
      rcases hall k v hmem with rfl | hone
      · refine Or.inr (Or.inr (kept_of_falsy ?_))
        unfold isSet at hset
        rw [hurl, Dict.lookup_of_mem hu.1 hmem] at hset
        simpa using hset
      · exact hone

theorem fine_webhook {cfg shown : Entries Num} (fresh : Token) (hcfg : (Json.obj cfg).Unique)
    (h : settingsGet cfg = some shown) {v : Json Num} (hmem : ("webhook", v) ∈ cfg) :
    Fine fresh cfg shown "webhook" ↔ isMask v ∨ WebhookKept v := by
  rw [Json.Unique] at hcfg
  have hshown := nodup_settingsGet hcfg.1 h
  have hlook := Dict.lookup_of_mem hcfg.1 hmem
  have hunique := UniqueEntries.of_mem hcfg.2 hmem
  have hw : Dict.lookup "webhook" (rotated fresh shown) = some (webhookForm v) := by
    rw [lookup_rotated fresh (by decide), lookup_allowed hshown, if_neg (by decide),
      lookup_settingsGet h, if_neg (by decide), if_pos rfl, hlook]
    rfl
  rw [fine_iff_of_present hshown (by decide) hw, hlook, Option.some.injEq,
    eq_comm (a := v)]
  cases v with
  | obj entries =>
      rw [webhook_merge_eq_iff hunique]
      exact Iff.rfl
  | _ =>
      simp only [webhookForm, WebhookKept]
      rw [isMask_redact, mergeValue_form_eq_iff _ hunique]

/-- A key that is not there, that is masked or that the form may not set brings nothing. -/
theorem fine_hidden_key {cfg shown : Entries Num} (fresh : Token) (hcfg : (cfg.map Prod.fst).Nodup)
    (h : settingsGet cfg = some shown) {k : String} (hwu : k ≠ "web_users")
    (htok : k ≠ "web_token") (htm : k ≠ "web_token_masked")
    (hk : k ∈ PROTECTED_SETTINGS ∨ Dict.lookup k cfg = none ∨ secret k) :
    Fine fresh cfg shown k := by
  have hshown := nodup_settingsGet hcfg h
  have hrot : Dict.lookup k (rotated fresh shown) =
      if k ∈ PROTECTED_SETTINGS ∨ k = "_regen_token" then none else Dict.lookup k shown := by
    rw [lookup_rotated fresh htok, lookup_allowed hshown]
  by_cases hp : k ∈ PROTECTED_SETTINGS ∨ k = "_regen_token"
  · -- dropped from the body
    rw [if_pos hp] at hrot
    exact fine_of_absent hshown hwu hrot
  rw [if_neg hp, lookup_settingsGet h, if_neg htm] at hrot
  rcases hk with hk | hnone | hs
  · exact absurd (Or.inl hk) hp
  · rw [hnone, Option.map_none, Option.map_none, ite_self] at hrot
    exact fine_of_absent hshown hwu hrot
  · -- shown as a mask, which is thrown away
    have hwh : k ≠ "webhook" := by
      rintro rfl
      rw [secret_webhook] at hs
      cases hs
    rw [if_neg hwh] at hrot
    cases hv : Dict.lookup k cfg with
    | none =>
        rw [hv] at hrot
        exact fine_of_absent hshown hwu hrot
    | some v =>
        rw [hv, Option.map_some, if_pos hs] at hrot
        exact (fine_iff_of_present hshown hwu hrot).mpr (Or.inl rfl)

/-- **The settings form**: posting back what `settings_get` returned leaves the configuration as it
was exactly when it satisfies `RoundTrips` (or cannot be saved). -/
theorem settings_round_trip_iff (saved : Bool) (fresh : Token) {cfg shown : Entries Num}
    (hcfg : (Json.obj cfg).Unique) (h : settingsGet cfg = some shown) :
    settingsPost saved fresh cfg shown = cfg ↔ saved = false ∨ RoundTrips fresh cfg := by
  have hkeys := hcfg
  rw [Json.Unique] at hkeys
  have hshown := nodup_settingsGet hkeys.1 h
  cases saved with
  | false => exact iff_of_true rfl (Or.inl rfl)
  | true =>
      have hall : settingsPost true fresh cfg shown = cfg ↔ ∀ k, Fine fresh cfg shown k :=
        applySettings_eq_self_iff hkeys.1 (nodup_updatesOf hshown fresh)
      rw [hall]
      constructor
      · intro hfine
        refine Or.inr ⟨(fine_web_token fresh hkeys.1 h).mp (hfine _),
          (fine_web_token_masked fresh hkeys.1 h).mp (hfine _), ?_⟩
        intro k v hmem
        -- the ways for a key to be hidden, in the order of `RoundTrips`
        by_cases hp : k ∈ PROTECTED_SETTINGS
        · exact Or.inl hp
        by_cases hwu : k = "web_users"
        · exact Or.inr (Or.inl hwu)
        by_cases hs : secret k
        · exact Or.inr (Or.inr (Or.inl hs))
        refine Or.inr (Or.inr (Or.inr ?_))
        by_cases hwh : k = "webhook"
        · subst hwh
          rw [if_pos rfl]
          exact (fine_webhook fresh hcfg h hmem).mp (hfine _)
        · rw [if_neg hwh]
          exact (fine_plain_key fresh hcfg h hmem hp (Bool.eq_false_iff.mpr hs) hwu hwh).mp (hfine k)
      · rintro (hf | hround) k
        · cases hf
        by_cases hwu : k = "web_users"
        · subst hwu
          exact fine_web_users fresh hcfg h
        by_cases htok : k = "web_token"
        · subst htok
          exact (fine_web_token fresh hkeys.1 h).mpr hround.regen
        by_cases htm : k = "web_token_masked"
        · subst htm
          exact (fine_web_token_masked fresh hkeys.1 h).mpr hround.masked
        by_cases hhidden : k ∈ PROTECTED_SETTINGS ∨ Dict.lookup k cfg = none ∨ secret k
        · exact fine_hidden_key fresh hkeys.1 h hwu htok htm hhidden
        -- the key is shown and comes back
        obtain ⟨hp, hnone, hs⟩ := not_or.mp hhidden |>.imp_right not_or.mp
        obtain ⟨v, hv⟩ := Option.ne_none_iff_exists'.mp hnone
        have hmem := Dict.mem_of_lookup hv
        have hone := (((hround.entries k v hmem).resolve_left hp).resolve_left hwu).resolve_left hs
        by_cases hwh : k = "webhook"
        · subst hwh
          rw [if_pos rfl] at hone
          exact (fine_webhook fresh hcfg h hmem).mpr hone
        · rw [if_neg hwh] at hone
          exact (fine_plain_key fresh hcfg h hmem hp (Bool.eq_false_iff.mpr hs) hwu hwh).mpr hone

end RoundTrip

/-! ## §8 Two configurations -/

theorem toLower_of_small {c : Char} (h : (c.isLower || c == '_') = true) : c.toLower = c := by
  apply Char.toNat_inj.mp
  rw [NetPulse.Mesh.toNat_toLower, if_neg]
  rcases Bool.or_eq_true_iff.mp h with hl | hu
  · have hlow : 97 ≤ c.toNat := (Bool.and_eq_true_iff.mp hl).1 |> of_decide_eq_true
    omega
  · rw [beq_iff_eq] at hu
    subst hu
    decide

/-- `str.lower` on ASCII text. -/
@[reducible] def asciiLower : Lower where
  lower s := String.ofList (s.toList.map Char.toLower)
  lower_small s h := by
    have hmap : s.toList.map Char.toLower = s.toList := by
      rw [List.all_eq_true] at h
      exact (List.map_congr_left fun c hc => toLower_of_small (h c hc)).trans (List.map_id _)
    rw [hmap, String.ofList_toList]

section Concrete

attribute [local instance] asciiLower

instance : Truth Int := ⟨fun n => n ≠ 0⟩

def token : Token := ⟨"0123456789abcdef0123456789abcdef", by decide +kernel⟩

/-- Credentials in objects, and a list of users. -/
def usersConfig : Entries Int :=
  [("web_token", .str "admin"), ("web_users", .list [.obj [("token", .str "viewer")]]),
    ("telegram", .obj [("token", .str "bot"), ("enabled", .bool true)])]

theorem usersConfig_round_trip : ∃ shown, settingsGet usersConfig = some shown ∧
    settingsPost true token usersConfig shown = usersConfig := by
  refine ⟨_, rfl, (settings_round_trip_iff true token ?_ rfl).mpr (Or.inr ⟨?_, Or.inl rfl, ?_⟩)⟩
  · simp [usersConfig, Json.Unique, UniqueEntries, UniqueItems]
  · exact fun hmem => absurd hmem (by decide)
  · intro k v hmem
    simp only [usersConfig, List.mem_cons, Prod.mk.injEq, List.not_mem_nil, or_false] at hmem
    rcases hmem with ⟨rfl, rfl⟩ | ⟨rfl, rfl⟩ | ⟨rfl, rfl⟩
    · exact Or.inr (Or.inr (Or.inl rfl))
    · exact Or.inr (Or.inl rfl)
    · refine Or.inr (Or.inr (Or.inr ?_))
      rw [if_neg (by decide)]
      refine Or.inr ?_
      simp only [Kept, KeptEntries]
      exact ⟨Or.inl rfl, Or.inr (Or.inr trivial), trivial⟩

/-- Administrators, with their tokens in a list. -/
def adminsConfig : Entries Int :=
  [("web_token", .str "admin"),
    ("web_admins", .list [.obj [("name", .str "ops"), ("token", .str "s3cret")]])]

/-- The token of the administrator is gone after the form was posted back. -/
theorem adminsConfig_loses_token : ∃ shown, settingsGet adminsConfig = some shown ∧
    settingsPost true token adminsConfig shown =
      [("web_token", .str "admin"), ("web_admins", .list [.obj [("name", .str "ops")]])] ∧
    settingsPost true token adminsConfig shown ≠ adminsConfig := by
  refine ⟨_, rfl, rfl, fun heq => ?_⟩
  have hadmins := congrArg (Dict.lookup "web_admins") heq
  cases hadmins

end Concrete

end NetPulse.Server
