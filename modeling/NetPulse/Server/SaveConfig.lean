import NetPulse.Lib.JsonMerge
import NetPulse.Server.ConfigWriters
import NetPulse.Server.Overrides

/-
# NetPulse.Server.SaveConfig — how a configuration is changed and saved (`config.py`)

`apply_settings` and `save_device` change a copy of the configuration, `save_config` writes the copy to
a temporary file and puts that in the place of `config.json`, and only then the copy goes into memory.
A `Plan` says which of the calls on the way raise. The copies under `backups/config` are left out:
`_backup_config` catches whatever it raises.

`deep_merge_law` is the law that all of them rest on, and `writers_all_or_nothing` says what a
configuration and its file are after a request that succeeds, and after one that does not. In the file
the secrets are encrypted; a text that came in with the mark of encryption is taken for such a one when
the file is read.
-/

namespace NetPulse.Server.Config

open NetPulse.Lib NetPulse.Lib.Json
open NetPulse.Server.ConfigWriters (Device addDevice devicesOf withoutId install_modify)
open NetPulse.Gate (after)

variable {Num Text : Type}

/-! ## §1 Documents -/

/-- A JSON object. -/
structure Doc (Num : Type) where
  entries : Entries Num
  unique : Json.Unique (.obj entries)

namespace Doc

theorem ext {d d' : Doc Num} (h : d.entries = d'.entries) : d = d' := by
  obtain ⟨entries, unique⟩ := d
  obtain ⟨entries', unique'⟩ := d'
  cases h
  rfl

theorem nodup (d : Doc Num) : (d.entries.map Prod.fst).Nodup := (unique_obj.mp d.unique).1

/-- The value behind the keys. -/
def at_ (d : Doc Num) (p : List String) : Option (Json Num) := get p (.obj d.entries)

/-- `_deep_merge(base, extra)` -/
def merge (base extra : Doc Num) : Doc Num :=
  ⟨deepMerge base.entries extra.entries, unique_deepMerge base.unique extra.unique⟩

theorem obj_merge (base extra : Doc Num) :
    Json.obj (base.merge extra).entries = mergeValue (some (.obj base.entries)) (.obj extra.entries) :=
  (mergeValue_obj _ _).symm

/-- Where the overriding object has a value, it goes into what the base has there. -/
theorem at_merge_some (base extra : Doc Num) {p : List String} {v : Json Num}
    (h : extra.at_ p = some v) : (base.merge extra).at_ p = some (mergeValue (base.at_ p) v) := by
  rw [at_, obj_merge, get_mergeValue_some extra.unique h]
  rfl

/-- What it does not speak of stays. -/
theorem at_merge_none (base extra : Doc Num) {p : List String} (h : extra.at_ p = none)
    (hcuts : ¬ Cuts (.obj extra.entries) p) : (base.merge extra).at_ p = base.at_ p := by
  rw [at_, obj_merge, get_mergeValue_none extra.unique h hcuts]
  rfl

/-- **The law of the deep merge.** At the end of a path stands what the overriding object has there,
if that is no object or the base has none to take it; nothing stands there if the overriding object
has put something that is no object across the path; what both have as an object is merged, by the
same law; and elsewhere stands what the base has. A second merge changes nothing. -/
theorem deep_merge_law (base extra : Doc Num) :
    (∀ p v, extra.at_ p = some v → (isObj v = false ∨ (base.at_ p).any isObj = false) →
      (base.merge extra).at_ p = some v) ∧
    (∀ p, Cuts (.obj extra.entries) p →
      extra.at_ p = none ∧ (base.merge extra).at_ p = none) ∧
    (∀ p a b, base.at_ p = some (.obj a) → extra.at_ p = some (.obj b) →
      (base.merge extra).at_ p = some (.obj (deepMerge a b))) ∧
    (∀ p, extra.at_ p = none → ¬ Cuts (.obj extra.entries) p →
      (base.merge extra).at_ p = base.at_ p) ∧
    (base.merge extra).merge extra = base.merge extra := by
  refine ⟨fun p v hv hleaf => ?_, fun p hcuts => ⟨get_of_cuts hcuts, ?_⟩, fun p a b ha hb => ?_,
    fun p hp hcuts => at_merge_none base extra hp hcuts, ext (deepMerge_again extra.unique)⟩
  · rw [at_merge_some base extra hv]
    rcases hleaf with hleaf | hbase
    · rw [mergeValue_of_not_obj _ hleaf]
    · cases hat : base.at_ p with
      | none => rw [mergeValue_none]
      | some old =>
          rw [hat] at hbase
          cases old with
          | obj entries => cases hbase
          | null | bool | num | str | list => cases v <;> simp only [mergeValue]
  · rw [at_, obj_merge, get_mergeValue_cuts extra.unique hcuts]
  · rw [at_merge_some base extra hb, ha, mergeValue_obj]

end Doc

/-- A section that both have, and a section in the place of a number. -/
example : Json.get ["mtr", "target"] (.obj (deepMerge [("mtr", .obj [("target", .str "a"),
      ("max_hops", .num 12)])] [("mtr", .obj [("target", .str "b")])]) : Json Int) =
    some (.str "b") := by rfl

/-! ## §2 Encryption and back -/

section Secrets

variable [Dpapi]

mutual

theorem unique_encrypt_config : ∀ (v : Json Num) (key : Option String), Json.Unique v →
    Json.Unique (encrypt_config key v)
  | .obj entries, key, h => by
      obtain ⟨hkeys, hvalues⟩ := unique_obj.mp h
      rw [encrypt_config, unique_obj]
      refine ⟨?_, unique_encryptEntries entries hvalues⟩
      rw [encryptEntries_eq_map, List.map_map]
      exact hkeys
  | .list items, key, h => by
      rw [Json.Unique] at h
      rw [encrypt_config, Json.Unique]
      exact unique_encryptItems items key h
  | .null, _, h | .bool _, _, h | .num _, _, h => by
      rw [encrypt_config]
      exact h
  | .str s, key, h => by
      rw [encrypt_config]
      simp only [Json.Unique]

theorem unique_encryptEntries : ∀ entries : Entries Num, UniqueEntries entries →
    UniqueEntries (encryptEntries entries)
  | [], h => by
      rw [encryptEntries]
      exact h
  | (k, v) :: rest, h => by
      rw [UniqueEntries] at h
      rw [encryptEntries, UniqueEntries]
      exact ⟨unique_encrypt_config v (some k) h.1, unique_encryptEntries rest h.2⟩

theorem unique_encryptItems : ∀ (items : List (Json Num)) (key : Option String),
    UniqueItems items → UniqueItems (encryptItems key items)
  | [], _, h => by
      rw [encryptItems]
      exact h
  | v :: rest, key, h => by
      rw [UniqueItems] at h
      rw [encryptItems, UniqueItems]
      exact ⟨unique_encrypt_config v key h.1, unique_encryptItems rest key h.2⟩

end

variable [Unprotect]

/-- What DPAPI has protected, it gives back, on this machine and for this user. -/
def GivesBack : Prop :=
  ∀ s c, Dpapi.protect s = some c → Unprotect.unprotect c = some s

omit [Dpapi] [Unprotect] in
theorem after_marked (c : String) : after PREFIX (PREFIX ++ c) = c := by
  rw [after, String.toList_append, List.drop_left, String.ofList_toList]

/-- A text that `save_config` has encrypted comes back. -/
theorem decrypt_encrypt_if_secret (h : GivesBack) (key : Option String) (s : String) :
    decrypt_config (.str (encrypt_if_secret key s) : Json Num) = decrypt_config (.str s) := by
  unfold encrypt_if_secret
  split
  · rename_i hcond
    rw [Bool.and_eq_true, Bool.and_eq_true, Bool.not_eq_true'] at hcond
    rw [encrypt_value]
    cases hprotect : Dpapi.protect s with
    | none => rfl
    | some c =>
        show decrypt_config (.str (PREFIX ++ c)) = _
        rw [decrypt_config, if_pos (is_encrypted_marked c), after_marked, h s c hprotect,
          decrypt_config, if_neg (Bool.eq_false_iff.mp hcond.2)]
        rfl
  · rfl

mutual

/-- **Reading a file back** is the same as reading what was to be written. -/
theorem decrypt_encrypt (h : GivesBack) : ∀ (v : Json Num) (key : Option String),
    decrypt_config (encrypt_config key v) = decrypt_config v
  | .obj entries, key => by
      rw [encrypt_config, decrypt_config, decrypt_config, decrypt_encryptEntries h entries]
  | .list items, key => by
      rw [encrypt_config, decrypt_config, decrypt_config, decrypt_encryptItems h items key]
  | .null, _ | .bool _, _ | .num _, _ => by rw [encrypt_config]
  | .str s, key => by
      rw [encrypt_config]
      exact decrypt_encrypt_if_secret h key s

theorem decrypt_encryptEntries (h : GivesBack) : ∀ entries : Entries Num,
    decryptEntries (encryptEntries entries) = decryptEntries entries
  | [] => by rw [encryptEntries]
  | (k, v) :: rest => by
      rw [encryptEntries, decryptEntries, decryptEntries, decrypt_encrypt h v (some k),
        decrypt_encryptEntries h rest]

theorem decrypt_encryptItems (h : GivesBack) : ∀ (items : List (Json Num)) (key : Option String),
    decryptItems (encryptItems key items) = decryptItems items
  | [], _ => by rw [encryptItems]
  | v :: rest, key => by
      rw [encryptItems, decryptItems, decryptItems, decrypt_encrypt h v key,
        decrypt_encryptItems h rest key]

end

end Secrets

/-! ## §3 `save_config` -/

/-- `json.dump` and `json.load`; an object without repeated keys comes back as it was. -/
structure Codec (Num Text : Type) where
  dumps : Json Num → Option Text
  load : Text → Option (Json Num)
  load_dumps : ∀ v text, Json.Unique v → dumps v = some text → load text = some v

/-- `config.json`, and the temporary file beside it. -/
structure Files (Text : Type) where
  path : Option Text
  temporary : Option Text

/-- Which calls work. -/
structure Plan (Text : Type) where
  /-- `copy.deepcopy` of the configuration, by whoever wants to change it. -/
  candidate : Bool
  /-- `copy.deepcopy` for the encryption. -/
  copy : Bool
  create : Bool
  dump : Bool
  /-- What has been written when `json.dump` raises. -/
  partially : Text
  sync : Bool
  chmod : Bool
  replace : Bool
  unlink : Bool

variable (codec : Codec Num Text)

/-- The `try` with the temporary file, and whether it has come to its end. -/
def replaceWith (p : Plan Text) (stored : Json Num) (f : Files Text) : Files Text × Bool :=
  match p.dump, codec.dumps stored with
  | true, some text =>
      if p.sync && p.chmod && p.replace then ({ f with path := some text, temporary := none }, true)
      else ({ f with temporary := some text }, false)
  | _, _ => ({ f with temporary := some p.partially }, false)

/-- Its `finally`. -/
def unlinkTemporary (p : Plan Text) (r : Files Text × Bool) : Files Text × Bool :=
  match r.1.temporary with
  | none => r
  | some _ => if p.unlink then ({ r.1 with temporary := none }, r.2) else (r.1, false)

theorem unlinkTemporary_path (p : Plan Text) (r : Files Text × Bool) :
    (unlinkTemporary p r).1.path = r.1.path := by
  unfold unlinkTemporary
  cases r.1.temporary with
  | none => rfl
  | some _ => cases hunlink : p.unlink <;> rfl

section Saving

variable [Dpapi]

/-- `save_config`, and what it returns. -/
def save_config (p : Plan Text) (cfg : Entries Num) (f : Files Text) : Files Text × Bool :=
  if p.copy && p.create then unlinkTemporary p (replaceWith codec p (stored (.obj cfg)) f)
  else (f, false)

/-- **What `save_config` leaves**: the file as it was, or the encrypted configuration. -/
theorem save_config_spec (p : Plan Text) (cfg : Entries Num) (f : Files Text) :
    ((save_config codec p cfg f).2 = false ∧ (save_config codec p cfg f).1.path = f.path) ∨
      ((save_config codec p cfg f).2 = true ∧ ∃ text, codec.dumps (stored (.obj cfg)) = some text ∧
        (save_config codec p cfg f).1.path = some text) := by
  unfold save_config
  by_cases hbegin : (p.copy && p.create) = true
  · rw [if_pos hbegin, unlinkTemporary_path]
    unfold replaceWith unlinkTemporary
    cases hdump : p.dump with
    | false =>
        refine .inl ⟨?_, rfl⟩
        dsimp only
        split <;> rfl
    | true =>
        cases htext : codec.dumps (stored (.obj cfg)) with
        | none =>
            refine .inl ⟨?_, rfl⟩
            dsimp only
            split <;> rfl
        | some text =>
            dsimp only
            by_cases hrest : (p.sync && p.chmod && p.replace) = true
            · rw [if_pos hrest]
              exact .inr ⟨rfl, text, rfl, rfl⟩
            · rw [if_neg hrest]
              refine .inl ⟨?_, rfl⟩
              dsimp only
              split <;> rfl
  · rw [if_neg hbegin]
    exact .inl ⟨rfl, rfl⟩

end Saving

/-! ## §4 The two writers -/

def Doc.config (d : Doc Num) : ConfigWriters.Config Num := ⟨d.entries, d.nodup⟩

/-- What is asked for, as it came out of JSON. -/
structure Asked (Num : Type) where
  change : ConfigWriters.Change Num
  unique : match change with
    | .settings updates => Json.Unique (.obj updates)
    | .device d => Json.Unique (.obj d.entries)

section Uniqueness

theorem withoutId_subset {id : String} {devices others : List (Json Num)}
    (h : withoutId id devices = some others) : others ⊆ devices := by
  induction devices generalizing others with
  | nil =>
      cases h
      exact List.Subset.refl _
  | cons d rest ih =>
      rw [withoutId] at h
      obtain ⟨found, -, h⟩ := Option.bind_eq_some_iff.mp h
      obtain ⟨kept, hkept, h⟩ := Option.bind_eq_some_iff.mp h
      have hrest := List.subset_cons_of_subset d (ih hkept)
      cases h
      split
      · exact hrest
      · exact List.cons_subset.mpr ⟨List.mem_cons_self, hrest⟩

theorem unique_devicesOf {v : Json Num} {devices : List (Json Num)} (hv : Json.Unique v)
    (h : devicesOf v = some devices) : ∀ d ∈ devices, Json.Unique d := by
  have hnil : ∀ d ∈ ([] : List (Json Num)), Json.Unique d := fun d hd => absurd hd List.not_mem_nil
  unfold devicesOf at h
  split at h
  · cases h
    exact unique_of_mem_list hv
  · cases h
    exact hnil
  · split at h
    · cases h
      exact hnil
    · cases h
  · cases h

/-- What `addDevice` makes of a section. -/
theorem addDevice_eq {d : Device Num} {old changed : Json Num} (h : addDevice d old = some changed) :
    ∃ section_ devices others, old = .obj section_ ∧
      devicesOf ((Dict.lookup "devices" section_).getD (.list [])) = some devices ∧
      withoutId d.id devices = some others ∧
      changed = .obj (Dict.assign "devices" (.list (others ++ [.obj d.entries]))
        (Dict.assign "enabled" (.bool true) section_)) := by
  cases old with
  | obj section_ =>
      rw [addDevice] at h
      obtain ⟨devices, hdevices, h⟩ := Option.bind_eq_some_iff.mp h
      obtain ⟨others, hothers, h⟩ := Option.bind_eq_some_iff.mp h
      cases h
      exact ⟨section_, devices, others, rfl, hdevices, hothers, rfl⟩
  | null | bool | num | str | list => cases h

theorem unique_addDevice {d : Device Num} {old changed : Json Num} (hd : Json.Unique (.obj d.entries))
    (hold : Json.Unique old) (h : addDevice d old = some changed) : Json.Unique changed := by
  obtain ⟨section_, devices, others, rfl, hdevices, hothers, rfl⟩ := addDevice_eq h
  have hsection : Json.Unique ((Dict.lookup "devices" section_).getD (.list [])) := by
    cases hlookup : Dict.lookup "devices" section_ with
    | none => exact unique_list fun v hv => absurd hv List.not_mem_nil
    | some v => exact hold.lookup hlookup
  have hbool : Json.Unique (.bool true : Json Num) := by simp only [Json.Unique]
  refine (hold.assign "enabled" hbool).assign "devices" (unique_list fun v hv => ?_)
  rcases List.mem_append.mp hv with hv | hv
  · exact unique_devicesOf hsection hdevices v (withoutId_subset hothers hv)
  · rw [List.mem_singleton.mp hv]
    exact hd

theorem unique_update {base extra : Entries Num} (hbase : Json.Unique (.obj base))
    (hextra : Json.Unique (.obj extra)) : Json.Unique (.obj (update base extra)) := by
  have hvalues := (unique_obj.mp hextra).2
  clear hextra
  induction extra generalizing base with
  | nil => exact hbase
  | cons e rest ih =>
      obtain ⟨k, v⟩ := e
      rw [Json.UniqueEntries] at hvalues
      exact ih (hbase.assign k hvalues.1) hvalues.2

variable (valid : ConfigWriters.Config Num → Bool)

/-- The section `mikrotik` that is changed. -/
theorem device_modify {d : Device Num} {cfg : Doc Num} {candidate : ConfigWriters.Config Num}
    (h : (ConfigWriters.Change.device d).modify valid cfg.config = some candidate) :
    ∃ changed, addDevice d ((Dict.lookup "mikrotik" cfg.entries).getD (.obj [])) = some changed ∧
      candidate.items = Dict.assign "mikrotik" changed cfg.entries := by
  obtain ⟨changed, hchanged, h⟩ := Option.bind_eq_some_iff.mp h
  obtain ⟨-, h⟩ := Option.ite_none_right_eq_some.mp h
  cases h
  exact ⟨changed, hchanged, rfl⟩

theorem unique_mikrotik (cfg : Doc Num) :
    Json.Unique ((Dict.lookup "mikrotik" cfg.entries).getD (.obj [])) := by
  cases hlookup : Dict.lookup "mikrotik" cfg.entries with
  | none =>
      refine unique_obj.mpr ⟨List.nodup_nil, ?_⟩
      rw [Json.UniqueEntries]
      trivial
  | some v => exact cfg.unique.lookup hlookup

theorem Asked.unique_modify (a : Asked Num) (cfg : Doc Num) {candidate : ConfigWriters.Config Num}
    (h : a.change.modify valid cfg.config = some candidate) : Json.Unique (.obj candidate.items) := by
  obtain ⟨change, hunique⟩ := a
  cases change with
  | settings updates =>
      cases h
      exact unique_deepMerge cfg.unique hunique
  | device d =>
      obtain ⟨changed, hchanged, heq⟩ := device_modify valid h
      rw [heq]
      exact cfg.unique.assign _ (unique_addDevice hunique (unique_mikrotik cfg) hchanged)

theorem Asked.unique_install (a : Asked Num) (cfg candidate : Doc Num) :
    Json.Unique (.obj (a.change.install cfg.config candidate.config).items) := by
  cases a.change with
  | settings updates => exact unique_update cfg.unique candidate.unique
  | device d =>
      show Json.Unique (.obj (((candidate.config.get "mikrotik").map
        (cfg.config.set "mikrotik")).getD cfg.config).items)
      cases hget : candidate.config.get "mikrotik" with
      | none => exact cfg.unique
      | some v => exact cfg.unique.assign _ (candidate.unique.lookup hget)

end Uniqueness

variable (valid : ConfigWriters.Config Num → Bool)

/-- The copy with the change; `valid` says that `configured_devices` does not raise. -/
def Asked.modify (a : Asked Num) (cfg : Doc Num) : Option (Doc Num) :=
  (a.change.modify valid cfg.config).pmap (fun candidate h => ⟨candidate.items, h⟩)
    fun _ h => a.unique_modify valid cfg h

/-- `self.cfg.update(candidate)`, or `service.cfg['mikrotik'] = candidate['mikrotik']` -/
def Asked.install (a : Asked Num) (cfg candidate : Doc Num) : Doc Num :=
  ⟨(a.change.install cfg.config candidate.config).items, a.unique_install cfg candidate⟩

/-- What is raised when the copy cannot be saved. -/
def Asked.unsaved (a : Asked Num) : String :=
  match a.change with
  | .settings _ => "Не удалось сохранить настройки"
  | .device _ => "Не удалось сохранить конфигурацию; текущие настройки не изменены"

structure Service (Num Text : Type) where
  cfg : Doc Num
  files : Files Text

inductive Outcome where
  | done
  | refused
  | unsaved (text : String)

/-- `apply_settings` and `save_device`, up to the end of the lock; without anything that is asked if
`validate` has raised. -/
def Service.write [Dpapi] (p : Plan Text) (asked : Option (Asked Num)) (s : Service Num Text) :
    Service Num Text × Outcome :=
  match asked with
  | none => (s, .refused)
  | some a =>
      match if p.candidate then a.modify valid s.cfg else none with
      | none => (s, .refused)
      | some candidate =>
          let r := save_config codec p candidate.entries s.files
          if r.2 then (⟨a.install s.cfg candidate, r.1⟩, .done) else (⟨s.cfg, r.1⟩, .unsaved a.unsaved)

theorem Asked.install_modify {a : Asked Num} {cfg candidate : Doc Num}
    (h : a.modify valid cfg = some candidate) : a.install cfg candidate = candidate := by
  obtain ⟨c, hc, hmodify, rfl⟩ := Option.pmap_eq_some_iff.mp h
  refine Doc.ext ?_
  show (a.change.install cfg.config _).items = c.items
  rw [show Doc.config ⟨c.items, hc⟩ = c from rfl, ConfigWriters.install_modify valid hmodify]

/-! ## §5 All or nothing -/

/-- The request has something for the path, or for the way to its end. -/
def Asked.Mentions (a : Asked Num) (p : List String) : Prop :=
  match a.change with
  | .settings updates => get p (.obj updates) ≠ none ∨ Cuts (.obj updates) p
  | .device _ => ¬ (Apart ["mikrotik", "enabled"] p ∧ Apart ["mikrotik", "devices"] p)

/-- The device stands behind the others, and all are switched on. -/
structure Added (d : Device Num) (old new : Doc Num) : Prop where
  enabled : new.at_ ["mikrotik", "enabled"] = some (.bool true)
  devices : ∃ devices others,
    devicesOf ((old.at_ ["mikrotik", "devices"]).getD (.list [])) = some devices ∧
    withoutId d.id devices = some others ∧
    new.at_ ["mikrotik", "devices"] = some (.list (others ++ [.obj d.entries]))

/-- What a request that succeeds leaves of the configuration. -/
structure Kept (a : Asked Num) (old new : Doc Num) : Prop where
  others : ∀ p, ¬ a.Mentions p → new.at_ p = old.at_ p
  device : ∀ d, a.change = .device d → Added d old new

/-- What is read from `config.json`. -/
def decoded [Unprotect] (f : Files Text) : Option (Json Num) :=
  (f.path.bind codec.load).map decrypt_config

/-- A path beside the two that `save_device` writes to. -/
theorem apart_mikrotik {p : List String} (he : Apart ["mikrotik", "enabled"] p)
    (hd : Apart ["mikrotik", "devices"] p) :
    (∃ k q, p = k :: q ∧ k ≠ "mikrotik") ∨
      ∃ k q, p = "mikrotik" :: k :: q ∧ k ≠ "enabled" ∧ k ≠ "devices" := by
  obtain ⟨k, q, rfl, hk | ⟨rfl, hbelow⟩⟩ := he.cases
  · exact .inl ⟨k, q, rfl, hk⟩
  · obtain ⟨k, q, rfl, hk | ⟨rfl, hnil⟩⟩ := hbelow.cases
    · refine .inr ⟨k, q, rfl, hk, ?_⟩
      rintro rfl
      exact hd.1 ⟨q, rfl⟩
    · exact absurd List.nil_prefix hnil.1

theorem Kept.of_modify {a : Asked Num} {old new : Doc Num} (h : a.modify valid old = some new) :
    Kept a old new := by
  obtain ⟨c, hc, hmodify, rfl⟩ := Option.pmap_eq_some_iff.mp h
  obtain ⟨change, hunique⟩ := a
  cases change with
  | settings updates =>
      cases hmodify
      refine ⟨fun p hp => ?_, fun d hd => by cases hd⟩
      rw [Asked.Mentions, not_or, ne_eq, not_not] at hp
      exact Doc.at_merge_none old ⟨updates, hunique⟩ hp.1 hp.2
  | device d =>
      obtain ⟨changed, hchanged, heq⟩ := device_modify valid hmodify
      obtain ⟨section_, devices, others, hold, hdevices, hothers, rfl⟩ := addDevice_eq hchanged
      -- what there was of the section, key by key
      have hsection : ∀ k q, old.at_ ("mikrotik" :: k :: q) =
          (Dict.lookup k section_).bind (get q) := by
        intro k q
        rw [Doc.at_, get_cons]
        cases hlookup : Dict.lookup "mikrotik" old.entries with
        | none =>
            rw [hlookup] at hold
            cases hold
            rfl
        | some v =>
            rw [hlookup] at hold
            rw [Option.bind_some, show v = .obj section_ from hold, get_cons]
      have hlook : ∀ k, Dict.lookup k c.items = if k = "mikrotik" then _ else _ := fun k => by
        rw [heq, Dict.lookup_assign]
      have hnew : ∀ k q, Doc.at_ ⟨c.items, hc⟩ ("mikrotik" :: k :: q) =
          (Dict.lookup k (Dict.assign "devices" (.list (others ++ [.obj d.entries]))
            (Dict.assign "enabled" (.bool true) section_))).bind (get q) := by
        intro k q
        rw [Doc.at_, get_cons, hlook, if_pos rfl, Option.bind_some, get_cons]
      refine ⟨fun p hp => ?_, fun d' hd' => ?_⟩
      · obtain ⟨hleft, hright⟩ := not_not.mp hp
        rcases apart_mikrotik hleft hright with ⟨k, q, rfl, hk⟩ | ⟨k, q, rfl, hke, hkd⟩
        · rw [Doc.at_, Doc.at_, get_cons, get_cons, hlook, if_neg hk]
        · rw [hnew, hsection, Dict.lookup_assign, if_neg hkd, Dict.lookup_assign, if_neg hke]
      · cases hd'
        refine ⟨?_, devices, others, ?_, hothers, ?_⟩
        · rw [hnew, Dict.lookup_assign, if_neg (by decide), Dict.lookup_assign, if_pos rfl]
          rfl
        · rw [hsection]
          cases hdev : Dict.lookup "devices" section_ with
          | none =>
              rw [hdev] at hdevices
              exact hdevices
          | some v =>
              rw [hdev] at hdevices
              exact hdevices
        · rw [hnew, Dict.lookup_assign, if_pos rfl]
          rfl

/-- **All or nothing.** A request that fails leaves memory and file as they were; after one that
succeeds the file is read as what memory holds, with the texts decrypted that have the mark of
encryption, and what the request does not speak of is as it was. -/
theorem writers_all_or_nothing [Dpapi] [Unprotect] (hgives : GivesBack) (p : Plan Text)
    (asked : Option (Asked Num)) (s : Service Num Text) :
    ((s.write codec valid p asked).2 ≠ .done →
      (s.write codec valid p asked).1.cfg = s.cfg ∧
      (s.write codec valid p asked).1.files.path = s.files.path) ∧
    ((s.write codec valid p asked).2 = .done →
      decoded codec (s.write codec valid p asked).1.files =
        some (decrypt_config (.obj (s.write codec valid p asked).1.cfg.entries)) ∧
      ∃ a, asked = some a ∧ Kept a s.cfg (s.write codec valid p asked).1.cfg) := by
  cases asked with
  | none => exact ⟨fun _ => ⟨rfl, rfl⟩, fun h => by cases h⟩
  | some a =>
      unfold Service.write
      dsimp only
      -- the copy cannot be made, or its routers are no list
      cases hcandidate : if p.candidate then a.modify valid s.cfg else none with
      | none => exact ⟨fun _ => ⟨rfl, rfl⟩, fun h => by cases h⟩
      | some candidate =>
          have hmodify : a.modify valid s.cfg = some candidate := by
            by_cases hcopy : p.candidate = true
            · rwa [if_pos hcopy] at hcandidate
            · rw [if_neg hcopy] at hcandidate
              cases hcandidate
          dsimp only
          rcases save_config_spec codec p candidate.entries s.files with
            ⟨hfalse, hpath⟩ | ⟨htrue, text, hdumps, hpath⟩
          · -- `save_config` raises before the temporary file is in place
            rw [if_neg (Bool.eq_false_iff.mp hfalse)]
            exact ⟨fun _ => ⟨rfl, hpath⟩, fun h => by cases h⟩
          · rw [if_pos htrue, a.install_modify valid hmodify]
            refine ⟨fun h => absurd rfl h, fun _ => ⟨?_, a, rfl, Kept.of_modify valid hmodify⟩⟩
            have hload : codec.load text = some (stored (.obj candidate.entries)) :=
              codec.load_dumps _ _ (unique_encrypt_config _ _ candidate.unique) hdumps
            unfold decoded
            rw [hpath, Option.bind_some, hload, Option.map_some, stored, decrypt_encrypt hgives]

/-- Protection that changes nothing, and the way back. -/
@[reducible] def someUnprotect : Unprotect := ⟨some⟩

attribute [local instance] someDpapi someUnprotect

/-- The tree is its own text. -/
def sameText : Codec Int (Json Int) where
  dumps := some
  load := some
  load_dumps _ _ _ h := h.symm

/-- Nothing raises. -/
def smooth : Plan (Json Int) := ⟨true, true, true, true, .null, true, true, true, true⟩

/-- Routers are set up and switched off. -/
def switchedOff : Service Int (Json Int) :=
  ⟨⟨[("mikrotik", .obj [("enabled", .bool false)])], by
    simp [Json.Unique, Json.UniqueEntries]⟩, ⟨none, none⟩⟩

/-- A theme that looks encrypted. -/
def markedTheme : Asked Int :=
  ⟨.settings [("theme", .str "dpapi:x")], by simp [Json.Unique, Json.UniqueEntries]⟩

def edgeRouter : Asked Int :=
  ⟨.device ⟨"edge", [("id", .str "edge")], rfl⟩, by simp [Json.Unique, Json.UniqueEntries]⟩

theorem writers_all_or_nothing_router :
    (switchedOff.write sameText (fun _ => true) smooth (some edgeRouter)).2 = .done ∧
      decoded sameText (switchedOff.write sameText (fun _ => true) smooth (some edgeRouter)).1.files =
        some (decrypt_config (.obj
          (switchedOff.write sameText (fun _ => true) smooth (some edgeRouter)).1.cfg.entries)) :=
  ⟨rfl, ((writers_all_or_nothing sameText (fun _ => true) (fun _ _ h => h.symm) smooth
    (some edgeRouter) switchedOff).2 rfl).1⟩

/-- The theme comes back decrypted, and the routers are on, of which the device says nothing. -/
theorem writers_beyond_request :
    ((switchedOff.write sameText (fun _ => true) smooth (some markedTheme)).2 = .done ∧
      decoded sameText (switchedOff.write sameText (fun _ => true) smooth (some markedTheme)).1.files ≠
        some (.obj (switchedOff.write sameText (fun _ => true) smooth
          (some markedTheme)).1.cfg.entries)) ∧
    ((switchedOff.write sameText (fun _ => true) smooth (some edgeRouter)).2 = .done ∧
      switchedOff.cfg.at_ ["mikrotik", "enabled"] = some (.bool false) ∧
      (switchedOff.write sameText (fun _ => true) smooth (some edgeRouter)).1.cfg.at_
        ["mikrotik", "enabled"] = some (.bool true)) := by
  refine ⟨⟨rfl, fun h => ?_⟩, rfl, rfl, rfl⟩
  have htheme : some (.str "x") = some (.str "dpapi:x" : Json Int) :=
    congrArg (fun v => v.bind (get ["theme"])) h
  exact absurd (Json.str.inj (Option.some.inj htheme)) (by decide)

end NetPulse.Server.Config
