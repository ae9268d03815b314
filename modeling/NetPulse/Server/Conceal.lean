import NetPulse.Server.Answers
import NetPulse.Lib.Respects

/-
# NetPulse.Server.Conceal — two configurations that differ in credentials

Two configurations are `Alike` when nothing but the values under credential keys differs, that is,
when `conceal` makes the same of both. The checks of the door only see what `conceal` leaves
(§2); what `meta` shows differs unless nothing does but the two tokens it masks (§3).
-/

namespace NetPulse.Gate

open NetPulse.Lib NetPulse.Lib.Json
open NetPulse.Server (Lower lower lower_small occursIn isSet mask secret)

variable {Num : Type}

/-! ## §1 The configuration without its credentials -/

section Conceal

variable [Lower]

/-- The key of a credential. The name of an environment variable is none. -/
def credential (key : String) : Bool := secret key && !"_env".toList.isSuffixOf key.toList

mutual

/-- The value with nothing in the place of each credential. -/
def conceal : Json Num → Json Num
  | .obj entries => .obj (concealEntries entries)
  | .list items => .list (concealItems items)
  | .null => .null
  | .bool b => .bool b
  | .num n => .num n
  | .str s => .str s

def concealEntries : Entries Num → Entries Num
  | [] => []
  | (k, v) :: rest => (k, if credential k then .null else conceal v) :: concealEntries rest

def concealItems : List (Json Num) → List (Json Num)
  | [] => []
  | v :: rest => conceal v :: concealItems rest

end

/-- **Alike**: nothing differs but values under credential keys. -/
def Alike (cfg cfg' : Entries Num) : Prop := concealEntries cfg = concealEntries cfg'

/-- What sees no more than `conceal` leaves answers the same for both. -/
theorem respects_of_conceal {α : Type} {f : Entries Num → α}
    (h : ∀ cfg, f (concealEntries cfg) = f cfg) : Respects Alike f :=
  Respects.of_view f h fun _ _ halike => halike

theorem keys_concealEntries (entries : Entries Num) :
    (concealEntries entries).map Prod.fst = entries.map Prod.fst := by
  induction entries with
  | nil => rw [concealEntries]
  | cons e rest ih => rw [concealEntries, List.map_cons, List.map_cons, ih]

theorem concealItems_eq_map (items : List (Json Num)) : concealItems items = items.map conceal := by
  induction items with
  | nil => rw [concealItems, List.map_nil]
  | cons v rest ih => rw [concealItems, List.map_cons, ih]

theorem lookup_concealEntries {k : String} (hk : credential k = false) (entries : Entries Num) :
    Dict.lookup k (concealEntries entries) = (Dict.lookup k entries).map conceal := by
  induction entries with
  | nil =>
      rw [concealEntries]
      rfl
  | cons e rest ih =>
      obtain ⟨k', v⟩ := e
      rw [concealEntries, Dict.lookup, Dict.lookup]
      by_cases h : k' = k
      · subst h
        rw [if_pos rfl, if_pos rfl, hk]
        rfl
      · rw [if_neg h, if_neg h, ih]

theorem Alike.keys {cfg cfg' : Entries Num} (h : Alike cfg cfg') :
    cfg.map Prod.fst = cfg'.map Prod.fst := by
  rw [← keys_concealEntries cfg, h, keys_concealEntries]

theorem Alike.lookup {cfg cfg' : Entries Num} (h : Alike cfg cfg') {k : String}
    (hk : credential k = false) :
    (Dict.lookup k cfg).map conceal = (Dict.lookup k cfg').map conceal := by
  rw [← lookup_concealEntries hk, h, lookup_concealEntries hk]

variable [Truth Num]

theorem truthy_conceal (v : Json Num) : (conceal v).truthy = v.truthy := by
  cases v with
  | list items =>
      rw [conceal, concealItems_eq_map, truthy, truthy]
      cases items <;> rfl
  | obj entries =>
      rw [conceal, truthy, truthy]
      cases entries <;> (unfold concealEntries; rfl)
  | null => rw [conceal]
  | bool b => rw [conceal]
  | num n => rw [conceal]
  | str s => rw [conceal]

theorem isSet_concealEntries {k : String} (hk : credential k = false) (entries : Entries Num) :
    isSet k (concealEntries entries) = isSet k entries := by
  rw [isSet, isSet, lookup_concealEntries hk, Option.any_map]
  exact congrArg (fun p => (Dict.lookup k entries).any p) (funext truthy_conceal)

theorem sectionOf_concealEntries {k : String} (hk : credential k = false) (cfg : Entries Num) :
    sectionOf k (concealEntries cfg) = (sectionOf k cfg).map concealEntries := by
  rw [sectionOf, sectionOf, lookup_concealEntries hk]
  cases hv : Dict.lookup k cfg with
  | none => rfl
  | some v =>
      cases v with
      | obj entries => rfl
      | list items => cases items <;> rfl
      | null => rfl
      | bool b => cases b <;> rfl
      | num n =>
          show (if Truth.isTrue n then _ else _) = Option.map _ (if Truth.isTrue n then _ else _)
          cases Truth.isTrue n <;> rfl
      | str s =>
          show (if (Json.str s).truthy then _ else _) = Option.map _ (if (Json.str s).truthy then _ else _)
          cases (Json.str s : Json Num).truthy <;> rfl

theorem eachOf_map_conceal (v : Option (Json Num)) :
    eachOf (v.map conceal) = (eachOf v).map (List.map conceal) := by
  cases v with
  | none => rfl
  | some v =>
      cases v with
      | obj entries =>
          show some ((concealEntries entries).map fun e => Json.str e.1) =
            some ((entries.map fun e => Json.str e.1).map conceal)
          rw [List.map_map]
          have hkeys := congrArg (List.map (Json.str : String → Json Num)) (keys_concealEntries entries)
          rw [List.map_map, List.map_map] at hkeys
          exact congrArg some hkeys
      | list items =>
          show some (concealItems items) = some (items.map conceal)
          rw [concealItems_eq_map]
      | null => rfl
      | bool b => cases b <;> rfl
      | num n =>
          show (if Truth.isTrue n then _ else _) = Option.map _ (if Truth.isTrue n then _ else _)
          cases Truth.isTrue n <;> rfl
      | str s =>
          show some (s.toList.map fun c => Json.str (String.singleton c)) =
            some ((s.toList.map fun c => Json.str (String.singleton c)).map conceal)
          rw [List.map_map]
          rfl

end Conceal

/-! ## §2 What the checks see of it -/

section Checks

variable [Lower]

/-- A key in small letters that is no credential. -/
def ordinary (key : String) : Bool :=
  (key.toList.all fun c => c.isLower || c == '_') &&
    (!(["token", "password", "secret", "community", "api_key"].any fun word => occursIn word key) ||
      "_env".toList.isSuffixOf key.toList)

theorem credential_eq_false {key : String} (h : ordinary key = true) : credential key = false := by
  unfold ordinary at h
  rw [Bool.and_eq_true, Bool.or_eq_true] at h
  rw [credential, secret, lower_small key h.1]
  rcases h.2 with hword | hsuffix
  · rw [Bool.not_eq_true'] at hword
    rw [hword, Bool.false_and]
  · rw [hsuffix, Bool.not_true, Bool.and_false]

theorem originOf_conceal (v : Json Num) : originOf (conceal v) = originOf v := by
  cases v <;> rw [conceal] <;> rfl

theorem isLocalHost_conceal (v : Json Num) : isLocalHost (conceal v) = isLocalHost v := by
  cases v <;> rw [conceal] <;> rfl

theorem inNetwork_conceal [PyStr Num] (w : World) (ip : String) (v : Json Num) :
    w.inNetwork ip (text (conceal v)) = w.inNetwork ip (text v) := by
  cases v with
  | list items =>
      rw [conceal, w.bracket ip _ (Or.inl (text_list _)), w.bracket ip _ (Or.inl (text_list _))]
  | obj entries =>
      rw [conceal, w.bracket ip _ (Or.inr (text_obj _)), w.bracket ip _ (Or.inr (text_obj _))]
  | null => rw [conceal]
  | bool b => rw [conceal]
  | num n => rw [conceal]
  | str s => rw [conceal]

variable [Truth Num]

theorem allowlistDenied_conceal [PyStr Num] (w : World) (ip : String) (cfg : Entries Num) :
    allowlistDenied w ip (concealEntries cfg) = allowlistDenied w ip cfg := by
  unfold allowlistDenied
  rw [sectionOf_concealEntries (credential_eq_false (by decide))]
  cases sectionOf "ip_allowlist" cfg with
  | none => rfl
  | some aw =>
      show (if isSet "enabled" (concealEntries aw) then _ else _) =
        if isSet "enabled" aw then _ else _
      rw [isSet_concealEntries (credential_eq_false (by decide)),
        lookup_concealEntries (credential_eq_false (by decide)), eachOf_map_conceal]
      cases eachOf (Dict.lookup "networks" aw) with
      | none => rfl
      | some networks =>
          -- no network is another one afterwards
          have hany : (networks.map conceal).any (fun n => w.inNetwork ip (text n)) =
              networks.any fun n => w.inNetwork ip (text n) := by
            rw [List.any_map]
            exact congrArg networks.any (funext (inNetwork_conceal w ip))
          show (if isSet "enabled" aw then some (!(networks.map conceal).any _) else _) =
            if isSet "enabled" aw then some (!networks.any _) else _
          rw [hany]

theorem allowedOrigins_conceal (w : World) (req : Request) (cfg : Entries Num) :
    allowedOrigins w (concealEntries cfg) req = allowedOrigins w cfg req := by
  unfold allowedOrigins
  rw [lookup_concealEntries (credential_eq_false (by decide)), eachOf_map_conceal, Option.map_map]
  refine congrArg (fun f => Option.map f (eachOf (Dict.lookup "web_cors_origins" cfg))) ?_
  funext values
  show _ ++ (values.map conceal).filterMap originOf = _ ++ values.filterMap originOf
  rw [List.filterMap_map]
  exact congrArg (fun f => ownOrigin w req ++ values.filterMap f) (funext originOf_conceal)

theorem originAllowed_conceal (w : World) (req : Request) (cfg : Entries Num) :
    originAllowed w (concealEntries cfg) req = originAllowed w cfg req := by
  rw [originAllowed, originAllowed, allowedOrigins_conceal]

theorem sendJson_conceal (w : World) (req : Request) (status : Nat) (page : Page Num)
    (cfg : Entries Num) :
    sendJson w (concealEntries cfg) req status page = sendJson w cfg req status page := by
  rw [sendJson, sendJson, corsHeaders, corsHeaders, allowedOrigins_conceal]

theorem refuse_conceal (w : World) (req : Request) (r : Refusal) (cfg : Entries Num) :
    refuse w (concealEntries cfg) req r = refuse w cfg req r := by
  unfold refuse
  simp only [sendJson_conceal]

omit [Truth Num] in
theorem tokenEnv_conceal (default : String) (entries : Entries Num) :
    tokenEnv default (concealEntries entries) = tokenEnv default entries := by
  unfold tokenEnv
  rw [lookup_concealEntries (credential_eq_false (by decide))]
  cases Dict.lookup "token_env" entries with
  | none => rfl
  | some v => cases v <;> rfl

theorem bearerAuthed_conceal (w : World) {key : String} (hkey : ordinary key = true)
    (default : String) (req : Request) (cfg : Entries Num) :
    bearerAuthed w key default (concealEntries cfg) req = bearerAuthed w key default cfg req := by
  unfold bearerAuthed
  rw [sectionOf_concealEntries (credential_eq_false hkey)]
  cases sectionOf key cfg with
  | none => rfl
  | some entries =>
      show ((tokenEnv default (concealEntries entries)).bind _ : Option Bool) =
        (tokenEnv default entries).bind _
      rw [tokenEnv_conceal]

theorem pollInterval_conceal [PyInt Num] (cfg : Entries Num) :
    pollInterval (concealEntries cfg) = pollInterval cfg := by
  have hint : ∀ v : Json Num, PyInt.int (conceal v) = PyInt.int v := by
    intro v
    cases v with
    | list items => rw [conceal, PyInt.int_list, PyInt.int_list]
    | obj entries => rw [conceal, PyInt.int_obj, PyInt.int_obj]
    | null => rw [conceal]
    | bool b => rw [conceal]
    | num n => rw [conceal]
    | str s => rw [conceal]
  unfold pollInterval
  rw [sectionOf_concealEntries (credential_eq_false (by decide))]
  cases sectionOf "mikrotik" cfg with
  | none => rfl
  | some entries =>
      have hread : (Dict.lookup "poll_interval_sec" (concealEntries entries)).map PyInt.int =
          (Dict.lookup "poll_interval_sec" entries).map PyInt.int := by
        rw [lookup_concealEntries (credential_eq_false (by decide)), Option.map_map]
        exact congrArg (fun f => Option.map f _) (funext hint)
      simp only [Option.map_some, Option.bind_eq_bind, Option.bind_some, hread]

theorem ready_conceal {β : Type} [PyInt Num] (site : Site Num β) (cfg : Entries Num) :
    ready site (concealEntries cfg) = ready site cfg := by
  have hcollector : collectorOk (concealEntries cfg) = collectorOk cfg := by
    funext m
    rw [collectorOk, collectorOk, pollInterval_conceal]
  have hhost : (Dict.lookup "web_host" (concealEntries cfg)).elim true isLocalHost =
      (Dict.lookup "web_host" cfg).elim true isLocalHost := by
    rw [lookup_concealEntries (credential_eq_false (by decide)), Option.elim_map]
    exact congrArg (Option.elim _ true) (funext isLocalHost_conceal)
  rw [ready, ready, hcollector, hhost, isSet_concealEntries (credential_eq_false (by decide))]

end Checks

/-! ## §3 What `meta` shows -/

section MetaConfig

variable [Truth Num]

def SameToken (v v' : Option (Json Num)) : Prop :=
  v = v' ∨ v.any truthy = true ∧ v'.any truthy = true

def SameTelegram (v v' : Option (Json Num)) : Prop :=
  v = v' ∨ ∃ t t', v = some (.obj t) ∧ v' = some (.obj t') ∧ isSet "token" t = true ∧
    isSet "token" t' = true ∧ ∀ k, k ≠ "token" → Dict.lookup k t = Dict.lookup k t'

/-- Nothing differs but the two tokens that `meta` masks, and these are there in both. -/
structure MetaAlike (cfg cfg' : Entries Num) : Prop where
  web_token : SameToken (Dict.lookup "web_token" cfg) (Dict.lookup "web_token" cfg')
  telegram : SameTelegram (Dict.lookup "telegram" cfg) (Dict.lookup "telegram" cfg')
  others : ∀ k, k ≠ "web_token" → k ≠ "telegram" → Dict.lookup k cfg = Dict.lookup k cfg'

/-- What `meta` makes of the value of `telegram`. -/
def hideToken : Json Num → Json Num
  | .obj t => .obj (maskKey "token" t)
  | v => v

theorem mem_keys_of_isSet {k : String} {entries : Entries Num} (h : isSet k entries = true) :
    k ∈ entries.map Prod.fst := by
  by_contra hno
  rw [isSet, Dict.lookup_eq_none hno] at h
  cases h

theorem keys_maskKey (key : String) (entries : Entries Num) :
    (maskKey key entries).map Prod.fst = entries.map Prod.fst := by
  unfold maskKey
  split_ifs with h
  · exact Dict.keys_assign _ (mem_keys_of_isSet h)
  · rfl

/-- The value under the mask. -/
def masked (v : Option (Json Num)) : Option (Json Num) :=
  if v.any truthy = true then some mask else v

theorem lookup_maskKey (key : String) (entries : Entries Num) (k : String) :
    Dict.lookup k (maskKey key entries) =
      if k = key then masked (Dict.lookup key entries) else Dict.lookup k entries := by
  unfold maskKey masked
  by_cases hset : isSet key entries = true
  · have hany : (Dict.lookup key entries).any truthy = true := hset
    rw [if_pos hset, Dict.lookup_assign, if_pos hany]
  · have hany : ¬ (Dict.lookup key entries).any truthy = true := hset
    rw [if_neg hset, if_neg hany]
    split_ifs with hk
    · rw [hk]
    · rfl

/-- The mask is a true value, so it is told from one that is not. -/
theorem masked_eq_iff (v v' : Option (Json Num)) : masked v = masked v' ↔ SameToken v v' := by
  have hmask : (some (mask : Json Num)).any truthy = true := rfl
  unfold SameToken masked
  by_cases h : v.any truthy = true
  · by_cases h' : v'.any truthy = true
    · rw [if_pos h, if_pos h']
      exact iff_of_true rfl (Or.inr ⟨h, h'⟩)
    · rw [if_pos h, if_neg h']
      refine iff_of_false (fun heq => h' (heq ▸ hmask)) ?_
      rintro (rfl | ⟨-, h''⟩)
      · exact h' h
      · exact h' h''
  · by_cases h' : v'.any truthy = true
    · rw [if_neg h, if_pos h']
      refine iff_of_false (fun heq => h (heq ▸ hmask)) ?_
      rintro (rfl | ⟨h'', -⟩)
      · exact h h'
      · exact h h''
    · rw [if_neg h, if_neg h']
      exact ⟨Or.inl, fun hs => hs.resolve_right fun hb => h hb.1⟩

theorem maskKey_eq_iff {key : String} {t t' : Entries Num}
    (hkeys : t.map Prod.fst = t'.map Prod.fst) (hnodup : (t.map Prod.fst).Nodup) :
    maskKey key t = maskKey key t' ↔ SameToken (Dict.lookup key t) (Dict.lookup key t') ∧
      ∀ k, k ≠ key → Dict.lookup k t = Dict.lookup k t' := by
  constructor
  · intro heq
    refine ⟨(masked_eq_iff _ _).mp ?_, fun k hne => ?_⟩
    · have htoken := lookup_maskKey key t key
      rw [heq, lookup_maskKey, if_pos rfl, if_pos rfl] at htoken
      exact htoken.symm
    · have hother := lookup_maskKey key t k
      rw [heq, lookup_maskKey, if_neg hne, if_neg hne] at hother
      exact hother.symm
  · rintro ⟨htoken, hother⟩
    refine Dict.ext_lookup ?_ ?_ fun k => ?_
    · rw [keys_maskKey, keys_maskKey, hkeys]
    · rw [keys_maskKey]
      exact hnodup
    · rw [lookup_maskKey, lookup_maskKey]
      by_cases hk : k = key
      · rw [if_pos hk, if_pos hk]
        exact (masked_eq_iff _ _).mpr htoken
      · rw [if_neg hk, if_neg hk]
        exact hother k hk

/-- Two objects with the same keys, with the token of each under the mask. -/
theorem hideToken_obj_eq_iff {t t' : Entries Num} (hkeys : t.map Prod.fst = t'.map Prod.fst)
    (hnodup : (t.map Prod.fst).Nodup) :
    hideToken (.obj t) = hideToken (.obj t') ↔ SameTelegram (some (.obj t)) (some (.obj t')) := by
  rw [hideToken, hideToken, Json.obj.injEq, maskKey_eq_iff hkeys hnodup]
  constructor
  · rintro ⟨htoken | hset, hother⟩
    · refine Or.inl (congrArg some (congrArg Json.obj (Dict.ext_lookup hkeys hnodup fun k => ?_)))
      by_cases hkey : k = "token"
      · rw [hkey, htoken]
      · exact hother k hkey
    · exact Or.inr ⟨t, t', rfl, rfl, hset.1, hset.2, hother⟩
  · rintro (heq | ⟨u, u', hu, hu', hset, hset', hother⟩)
    · cases heq
      exact ⟨Or.inl rfl, fun k _ => rfl⟩
    · cases hu
      cases hu'
      exact ⟨Or.inr ⟨hset, hset'⟩, hother⟩

theorem map_hideToken_of_not_obj {v : Option (Json Num)} (h : ∀ t, v ≠ some (.obj t)) :
    v.map hideToken = v := by
  cases v with
  | none => rfl
  | some v =>
      cases v with
      | obj t => exact absurd rfl (h t)
      | null => rfl
      | bool b => rfl
      | num n => rfl
      | str s => rfl
      | list items => rfl

theorem lookup_maskTelegram (shown : Entries Num) (k : String) :
    Dict.lookup k (maskTelegram shown) =
      if k = "telegram" then (Dict.lookup "telegram" shown).map hideToken
      else Dict.lookup k shown := by
  unfold maskTelegram
  split
  · rename_i t ht
    rw [ht, Dict.lookup_assign]
    rfl
  · rename_i hno
    split_ifs with hk
    · rw [hk, map_hideToken_of_not_obj hno]
    · rfl

theorem keys_metaConfig (cfg : Entries Num) :
    (metaConfig cfg).map Prod.fst = cfg.map Prod.fst := by
  rw [metaConfig, maskTelegram]
  split
  · rename_i t ht
    rw [Dict.keys_assign _ (List.mem_map_of_mem (Dict.mem_of_lookup ht)), keys_maskKey]
  · exact keys_maskKey _ _

theorem lookup_metaConfig (cfg : Entries Num) (k : String) :
    Dict.lookup k (metaConfig cfg) =
      if k = "telegram" then (Dict.lookup "telegram" cfg).map hideToken
      else if k = "web_token" then masked (Dict.lookup "web_token" cfg)
      else Dict.lookup k cfg := by
  have hother : Dict.lookup "telegram" (maskKey "web_token" cfg) = Dict.lookup "telegram" cfg := by
    rw [lookup_maskKey, if_neg (by decide)]
  rw [metaConfig, lookup_maskTelegram, hother, lookup_maskKey]

variable [Lower]

omit [Truth Num] in
theorem obj_of_map_conceal {v : Option (Json Num)} {t : Entries Num}
    (h : v.map conceal = some (.obj t)) : ∃ u, v = some (.obj u) ∧ concealEntries u = t := by
  cases v with
  | none => cases h
  | some v =>
      cases v with
      | obj u =>
          rw [Option.map_some, conceal, Option.some.injEq, Json.obj.injEq] at h
          exact ⟨u, rfl, h⟩
      | null => cases h
      | bool b => cases h
      | num n => cases h
      | str s => cases h
      | list items => cases h

/-- Alike values of `telegram`. -/
theorem map_hideToken_eq_iff {v v' : Option (Json Num)} (halike : v.map conceal = v'.map conceal)
    (hunique : ∀ u, v = some u → u.Unique) :
    v.map hideToken = v'.map hideToken ↔ SameTelegram v v' := by
  by_cases hobj : ∃ t, v = some (.obj t)
  · obtain ⟨t, rfl⟩ := hobj
    have hkeys := hunique _ rfl
    rw [Json.Unique] at hkeys
    obtain ⟨t', rfl, hconceal⟩ := obj_of_map_conceal halike.symm
    rw [Option.map_some, Option.map_some, Option.some.injEq]
    exact hideToken_obj_eq_iff (Alike.keys hconceal.symm) hkeys.1
  · -- no object on either side, so nothing is masked
    have hno : ∀ t, v ≠ some (.obj t) := fun t ht => hobj ⟨t, ht⟩
    have hno' : ∀ t, v' ≠ some (.obj t) := by
      rintro t rfl
      obtain ⟨u, hu, -⟩ := obj_of_map_conceal halike
      exact hno u hu
    rw [map_hideToken_of_not_obj hno, map_hideToken_of_not_obj hno']
    refine ⟨Or.inl, fun h => h.resolve_right ?_⟩
    rintro ⟨t, -, ht, -⟩
    exact hno t ht

/-- **When `meta` shows the same** of two configurations that are alike. -/
theorem metaConfig_eq_iff {cfg cfg' : Entries Num} (halike : Alike cfg cfg')
    (hunique : (Json.obj cfg).Unique) : metaConfig cfg = metaConfig cfg' ↔ MetaAlike cfg cfg' := by
  rw [Json.Unique] at hunique
  have hext : metaConfig cfg = metaConfig cfg' ↔
      ∀ k, Dict.lookup k (metaConfig cfg) = Dict.lookup k (metaConfig cfg') := by
    refine ⟨fun h k => by rw [h], Dict.ext_lookup ?_ ?_⟩
    · rw [keys_metaConfig, keys_metaConfig, halike.keys]
    · rw [keys_metaConfig]
      exact hunique.1
  have htelegram : (Dict.lookup "telegram" cfg).map hideToken =
      (Dict.lookup "telegram" cfg').map hideToken ↔
        SameTelegram (Dict.lookup "telegram" cfg) (Dict.lookup "telegram" cfg') :=
    map_hideToken_eq_iff (halike.lookup (credential_eq_false (by decide)))
      fun u hu => hunique.2.of_mem (Dict.mem_of_lookup hu)
  rw [hext]
  constructor
  · intro h
    refine ⟨(masked_eq_iff _ _).mp ?_, htelegram.mp ?_, fun k hw ht => ?_⟩
    · have hk := h "web_token"
      rw [lookup_metaConfig, lookup_metaConfig, if_neg (by decide), if_pos rfl, if_neg (by decide),
        if_pos rfl] at hk
      exact hk
    · have hk := h "telegram"
      rw [lookup_metaConfig, lookup_metaConfig, if_pos rfl, if_pos rfl] at hk
      exact hk
    · have hk := h k
      rw [lookup_metaConfig, lookup_metaConfig, if_neg ht, if_neg hw, if_neg ht, if_neg hw] at hk
      exact hk
  · intro h k
    rw [lookup_metaConfig, lookup_metaConfig]
    by_cases ht : k = "telegram"
    · rw [if_pos ht, if_pos ht]
      exact htelegram.mpr h.telegram
    · by_cases hw : k = "web_token"
      · rw [if_neg ht, if_pos hw, if_neg ht, if_pos hw]
        exact (masked_eq_iff _ _).mpr h.web_token
      · rw [if_neg ht, if_neg hw, if_neg ht, if_neg hw]
        exact h.others k hw ht

end MetaConfig

end NetPulse.Gate
