import NetPulse.Mesh.ConfigFill
import NetPulse.Mesh.NodeConfig

/-
# NetPulse.Mesh.ConfigManager — loading and updating `config.yaml` (`internal_modules/config.py`)

`_load` fills what was read with the defaults, validates it, and writes the file again if something
was added, or if names of nodes were not in their canonical spelling or peers stood there twice; in the
second case what is written is what the models print. `update` changes what was read at some keys.

`load_twice` says that a second loading gives the same configuration and leaves the file;
`update_atomic_iff` when an update that the models refuse leaves everything as it was: it writes the
file before it validates.
-/

namespace NetPulse.Mesh.NodeConfig

open NetPulse.Lib NetPulse.Lib.Json NetPulse.Lib.Schema

variable {Num Text : Type}

/-! ## §1 Defaults that stand behind a record -/

section Backed

variable [Canon] [Pydantic Num]

mutual

/-- The default of a section is the section with its defaults, that of a mapping is empty, and no
other default is a mapping. -/
def Backed : KindOf Num → Json Num → Prop
  | .scalar _, d | .any, d => isObj d = false
  | .list item, d => Sound coercion item ∧ isObj d = false
  | .dict value, d => Sound coercion value ∧ d = .obj []
  | .model fields, d => d = .obj (defaults fields) ∧ BackedFields fields

def BackedFields : Fields Num → Prop
  | [] => True
  | (_, kind, none) :: rest => Sound coercion kind ∧ BackedFields rest
  | (_, kind, some d) :: rest => Backed kind d ∧ BackedFields rest

end

theorem backedFields_iff {fields : Fields Num} :
    BackedFields fields ↔ ∀ f ∈ fields,
      (f.2.2 = none → Sound coercion f.2.1) ∧ ∀ d, f.2.2 = some d → Backed f.2.1 d := by
  induction fields with
  | nil =>
      rw [BackedFields]
      exact iff_of_true trivial fun f hf => absurd hf List.not_mem_nil
  | cons f rest ih =>
      obtain ⟨name, kind, default_⟩ := f
      rw [List.forall_mem_cons, ← ih]
      cases default_ with
      | none => rw [BackedFields]; simp
      | some d => rw [BackedFields]; simp

/-- A validated record has all that its defaults have. -/
theorem additions_validated {k : KindOf Num} (hk : Proper k) :
    ∀ {d w : Json Num}, Backed k d → validate coercion k w = some w →
      additions d (some w) = [] := by
  induction k using Kind.fieldInduction with
  | scalar s =>
      intro d w hd _
      rw [Backed] at hd
      rw [additions_leaf hd]
      rfl
  | any =>
      intro d w hd _
      rw [Backed] at hd
      rw [additions_leaf hd]
      rfl
  | list item _ =>
      intro d w hd _
      rw [Backed] at hd
      rw [additions_leaf hd.2]
      rfl
  | dict value _ =>
      intro d w hd h
      rw [Backed] at hd
      obtain ⟨entries, out, rfl, -, -⟩ := validate_dict.mp h
      rw [hd.2, additions_section, additionsIn]
  | model fields ih =>
      intro d w hd h
      rw [Backed, backedFields_iff] at hd
      rw [Proper, properFields_iff] at hk
      obtain ⟨entries, out, rfl, heq, hout⟩ := validate_model.mp h
      obtain rfl : entries = out := Json.obj.inj heq
      rw [hd.1, additions_section, additionsIn_eq_nil]
      intro e he
      obtain ⟨f, hf, hname, hdefault⟩ := mem_defaults he
      obtain ⟨v, hv, hvalid⟩ := validate_field hk.1 hout hf
      rw [← hname, hv]
      exact ih f hf (hk.2 f hf).1 ((hd.2 f hf).2 _ hdefault) hvalid

/-- What has been filled is validated without defaults that would be converted. -/
theorem ready_fill {k : KindOf Num} (hk : Proper k) :
    ∀ {d : Json Num}, Backed k d → ∀ cur : Option (Json Num),
      Ready coercion k (fillWith cur d) := by
  induction k using Kind.fieldInduction with
  | scalar s =>
      intro d _ cur
      rw [Ready]
      trivial
  | any =>
      intro d _ cur
      rw [Ready]
      trivial
  | list item _ =>
      intro d hd cur
      rw [Backed] at hd
      refine Sound.ready ?_ _
      rw [Sound]
      exact hd.1
  | dict value _ =>
      intro d hd cur
      rw [Backed] at hd
      refine Sound.ready ?_ _
      rw [Sound]
      exact hd.1
  | model fields ih =>
      intro d hd cur
      rw [Backed, backedFields_iff] at hd
      have hunique := unique_defaults hk
      rw [Proper, properFields_iff] at hk
      rw [hd.1, Ready]
      intro entries hentries
      -- what a field with a default has, and one without
      have hfield : ∀ f ∈ fields, (∀ d', f.2.2 = some d' →
          ∃ old, Dict.lookup f.1 entries = some (fillWith old d')) := by
        intro f hf d' hd'
        have hlookup : Dict.lookup f.1 (defaults fields) = some d' :=
          (lookup_defaults hk.1 hf).trans hd'
        -- a section is filled, anything else gives way to the defaults
        by_cases hcur : cur.any isObj = true
        · obtain ⟨v, rfl, hv⟩ := (Option.any_eq_true _ _).mp hcur
          cases v with
          | obj target =>
              rw [fillWith_section, Json.obj.injEq] at hentries
              rw [← hentries]
              exact ⟨_, lookup_filled_some (unique_obj.mp hunique).1 hlookup⟩
          | null | bool | num | str | list => cases hv
        · rw [Bool.not_eq_true] at hcur
          rw [fillWith_replaced hcur, Json.obj.injEq] at hentries
          rw [← hentries]
          exact ⟨none, hlookup.trans (congrArg some (fillWith_none d').symm)⟩
      refine readyFields_iff.mpr fun f hf => ⟨fun u hu => ?_, fun hnone d' hd' => ?_⟩
      · cases hdefault : f.2.2 with
        | none => exact ((hd.2 f hf).1 hdefault).ready u
        | some d' =>
            obtain ⟨old, hold⟩ := hfield f hf d' hdefault
            obtain rfl := Option.some.inj (hold.symm.trans hu)
            exact ih f hf (hk.2 f hf).1 ((hd.2 f hf).2 d' hdefault) old
      · obtain ⟨old, hold⟩ := hfield f hf d' hd'
        rw [hold] at hnone
        cases hnone

/-! ## §2 The models -/

omit [Canon] in
theorem proper_config (hostname : String) : Proper (config hostname : KindOf Num) := by
  simp [config, configFields, networkConfig, memoryConfig, loggingConfig, logsConfig, filesConfig,
    shareConfig, updateConfig, updateSource, purgeConfig, eyesauronConfig, eyesauronStoreConfig,
    webPanelConfig, webPanelAuthConfig, servicesConfig, localConfig, peerConfig, section_, field,
    listField, required, int, tenths, defaults, Proper, ProperFields, Json.Unique, Json.UniqueEntries,
    Json.UniqueItems]

theorem sound_shareConfig : SoundFields coercion (shareConfig : Fields Num) := by
  have hallow : validate coercion (.list (.scalar .ident)) (.list []) = some (.list [] : Json Num) :=
    validate_list.mpr ⟨[], [], rfl, rfl, .nil⟩
  have hchunk : validate coercion (.scalar .int) (int 262144) = some (int 262144 : Json Num) :=
    Pydantic.convert_nat 262144
  simp [shareConfig, required, listField, field, Sound, SoundFields, hallow, hchunk]

theorem sound_updateSource : SoundFields coercion (updateSource : Fields Num) := by
  have hshare : validate coercion (.scalar .str) (.str "releases") =
      some (.str "releases" : Json Num) := Pydantic.convert_str.mpr ⟨_, rfl, rfl⟩
  simp [updateSource, required, field, Sound, SoundFields, hshare]

theorem sound_peerConfig : SoundFields coercion (peerConfig : Fields Num) := by
  simp [peerConfig, required, Sound, SoundFields]

theorem backed_config (hostname : String) :
    Backed (config hostname : KindOf Num) (.obj (default_config_dict hostname)) := by
  simp [config, default_config_dict, configFields, networkConfig, memoryConfig, loggingConfig,
    logsConfig, filesConfig, updateConfig, purgeConfig, eyesauronConfig, eyesauronStoreConfig,
    webPanelConfig, webPanelAuthConfig, servicesConfig, localConfig, section_, field, listField, int,
    tenths, Backed, BackedFields, isObj, Sound, sound_shareConfig, sound_updateSource,
    sound_peerConfig]

omit [Canon] in
theorem unique_default_config_dict (hostname : String) :
    Json.Unique (.obj (default_config_dict hostname : Entries Num)) :=
  unique_defaults (proper_config hostname)

end Backed

/-! ## §3 Loading -/

/-- PyYAML; what has been dumped is loaded as it was. -/
structure Yaml (Num Text : Type) where
  safe_load : Text → Option (Json Num)
  dump : Json Num → Text
  load_dump : ∀ v, safe_load (dump v) = some v

/-- `_canon_node`, and `str.lower` for the comparison of peers. -/
class Letters extends Canon where
  lower : String → String
  lower_canon : ∀ s, lower (canon s) = canon s
  canon_lower : ∀ s, canon (lower s) = canon s

section Loading

variable [Letters] [Pydantic Num] [Truth Num]

/-- `yaml.safe_load(f) or {}`, which has to be a mapping for what follows. -/
def rootOf : Json Num → Option (Entries Num)
  | .obj entries => some entries
  | v => if v.truthy then none else some []

def textOf : Option (Json Num) → Option String
  | some (.str s) => some s
  | _ => none

/-- The text at a path, if there is one, is not the one of the model. -/
def differs (p : List String) (raw cfg : Entries Num) : Bool :=
  match textOf (get p (.obj raw)) with
  | some s => decide (textOf (get p (.obj cfg)) ≠ some s)
  | none => false

/-- `local.peers` -/
def peersOf (cfg : Entries Num) : List (Json Num) :=
  ((get ["local", "peers"] (.obj cfg)).bind listItems).getD []

/-- `node_id` of a peer. -/
def nodeId (peer : Json Num) : Option String := textOf (get ["node_id"] peer)

/-- `p.node_id.lower()` -/
def lowId (peer : Json Num) : String := Letters.lower ((nodeId peer).getD "")

/-- The first peer of each name, in any case. -/
def uniqPeers (seen : List String) : List (Json Num) → List (Json Num)
  | [] => []
  | p :: rest =>
      if lowId p ∈ seen then uniqPeers seen rest else p :: uniqPeers (lowId p :: seen) rest

/-- `cfg.local.peers = peers` -/
def setPeers (peers : List (Json Num)) (cfg : Entries Num) : Entries Num :=
  match Dict.lookup "local" cfg with
  | some (.obj loc) => Dict.assign "local" (.obj (Dict.assign "peers" (.list peers) loc)) cfg
  | _ => cfg

/-- `_need_migrate`, before the peers are looked through for one that is there twice. -/
def need_migrate (raw cfg : Entries Num) : Bool :=
  differs ["node"] raw cfg || differs ["local", "alias"] raw cfg ||
    differs ["local", "name"] raw cfg ||
    decide ((peersOf raw).length ≠ (peersOf cfg).length) ||
    ((peersOf raw).zip (peersOf cfg)).any fun p => decide (nodeId p.1 ≠ nodeId p.2)

variable (yaml : Yaml Num Text) (hostname : String)

/-- What becomes of a validated configuration, and of the file. -/
def migrate (file : Text) (raw cfg : Entries Num) : Text × Entries Num :=
  let uniq := uniqPeers [] (peersOf cfg)
  if uniq.length ≠ (peersOf cfg).length then
    (yaml.dump (.obj (setPeers uniq cfg)), setPeers uniq cfg)
  else if need_migrate raw cfg then (yaml.dump (.obj cfg), cfg)
  else (file, cfg)

/-- `_load`, from what is read: the file afterwards, and the configuration unless it raises. -/
def loadRaw (file : Text) (raw : Entries Num) : Text × Option (Entries Num) :=
  let r := deep_fill raw (default_config_dict hostname) ""
  let file := if r.2.isEmpty then file else yaml.dump (.obj r.1)
  match validateFields coercion (configFields hostname) r.1 with
  | some cfg => ((migrate yaml file r.1 cfg).1, some (migrate yaml file r.1 cfg).2)
  | none => (file, none)

/-- `_load`; a file that is missing is made from the defaults before. -/
def load (file : Option Text) : Text × Option (Entries Num) :=
  let file := file.getD (yaml.dump (.obj (default_config_dict hostname)))
  match (yaml.safe_load file).bind rootOf with
  | some raw => loadRaw yaml hostname file raw
  | none => (file, none)

end Loading

/-! ## §4 Peers that stand once -/

section Peers

variable [Letters]

theorem uniqPeers_sublist (seen : List String) (peers : List (Json Num)) :
    (uniqPeers seen peers).Sublist peers := by
  induction peers generalizing seen with
  | nil => exact List.Sublist.refl _
  | cons p rest ih =>
      rw [uniqPeers]
      split
      · exact (ih seen).trans (List.sublist_cons_self _ _)
      · exact (ih _).cons_cons p

theorem lowId_uniqPeers (seen : List String) (peers : List (Json Num)) :
    ((uniqPeers seen peers).map lowId).Nodup ∧ ∀ p ∈ uniqPeers seen peers, lowId p ∉ seen := by
  induction peers generalizing seen with
  | nil => exact ⟨List.nodup_nil, fun p hp => absurd hp List.not_mem_nil⟩
  | cons p rest ih =>
      rw [uniqPeers]
      by_cases hseen : lowId p ∈ seen
      · rw [if_pos hseen]
        exact ih seen
      · rw [if_neg hseen, List.map_cons, List.nodup_cons, List.forall_mem_cons]
        obtain ⟨hnodup, hnew⟩ := ih (lowId p :: seen)
        refine ⟨⟨fun hmem => ?_, hnodup⟩, hseen, fun q hq hmem => ?_⟩
        · obtain ⟨q, hq, heq⟩ := List.mem_map.mp hmem
          exact hnew q hq (heq ▸ List.mem_cons_self)
        · exact hnew q hq (List.mem_cons_of_mem _ hmem)

/-- **Peers of different names** all stay. -/
theorem uniqPeers_of_nodup {seen : List String} {peers : List (Json Num)}
    (h : (peers.map lowId).Nodup) (hnew : ∀ p ∈ peers, lowId p ∉ seen) :
    uniqPeers seen peers = peers := by
  induction peers generalizing seen with
  | nil => rfl
  | cons p rest ih =>
      rw [List.map_cons, List.nodup_cons] at h
      rw [List.forall_mem_cons] at hnew
      rw [uniqPeers, if_neg hnew.1, ih h.2]
      intro q hq hmem
      rcases List.mem_cons.mp hmem with heq | hmem
      · exact h.1 (List.mem_map.mpr ⟨q, hq, heq⟩)
      · exact hnew.2 q hq hmem

omit [Letters] in
theorem eq_of_mem_zip_self {l : List (Json Num)} {a b : Json Num} (h : (a, b) ∈ l.zip l) :
    a = b := by
  induction l with
  | nil => cases h
  | cons p rest ih =>
      rw [List.zip_cons_cons] at h
      rcases List.mem_cons.mp h with heq | h
      · exact (Prod.mk.inj heq).1.trans (Prod.mk.inj heq).2.symm
      · exact ih h

omit [Letters] in
/-- The names of the peers are those of the file, and a model's text is its own. -/
theorem need_migrate_self (cfg : Entries Num) : need_migrate cfg cfg = false := by
  have hdiffers : ∀ p, differs p cfg cfg = false := by
    intro p
    unfold differs
    cases htext : textOf (get p (.obj cfg)) with
    | none => rfl
    | some s => exact decide_eq_false (not_not.mpr rfl)
  unfold need_migrate
  rw [hdiffers, hdiffers, hdiffers, decide_eq_false (not_not.mpr rfl)]
  rw [Bool.false_or, Bool.false_or, Bool.false_or, Bool.false_or, List.any_eq_false]
  rintro ⟨a, b⟩ hab
  rw [eq_of_mem_zip_self hab, decide_eq_false (not_not.mpr rfl)]
  exact Bool.false_ne_true

end Peers

/-! ## §5 Loading again -/

section Again

variable [Letters] [Pydantic Num]

/-- A configuration as the models print one. -/
def Valid (hostname : String) (cfg : Entries Num) : Prop :=
  validateFields coercion (configFields hostname) cfg = some cfg

variable {hostname : String}

omit [Letters] in
theorem names_nodup (hostname : String) :
    ((configFields hostname : Fields Num).map Prod.fst).Nodup := by
  have h : Proper (config hostname : KindOf Num) := proper_config hostname
  rw [config, Proper] at h
  exact h.1

omit [Letters] [Pydantic Num] in
theorem local_nodup (hostname : String) :
    ((localConfig hostname : Fields Num).map Prod.fst).Nodup := by
  simp [localConfig, field, listField]

omit [Letters] in
theorem mem_configFields_local (hostname : String) :
    section_ "local" (localConfig hostname) ∈ (configFields hostname : Fields Num) := by
  simp [configFields]

omit [Letters] [Pydantic Num] in
theorem mem_localConfig_peers (hostname : String) :
    listField "peers" (.model peerConfig) [] ∈ (localConfig hostname : Fields Num) := by
  simp [localConfig]

/-- **What is filled and validated** is a configuration of the models. -/
theorem valid_of_filled {raw cfg : Entries Num}
    (h : validateFields coercion (configFields hostname)
      (filled raw (default_config_dict hostname)) = some cfg) : Valid hostname cfg := by
  have hready := ready_fill (proper_config hostname) (backed_config hostname)
    (some (.obj raw : Json Num))
  rw [fillWith_section] at hready
  have hmodel : validate coercion (config hostname)
      (.obj (filled raw (default_config_dict hostname))) = some (.obj cfg) :=
    validate_model.mpr ⟨_, cfg, rfl, rfl, h⟩
  obtain ⟨entries, out, hentries, hout, hvalid⟩ :=
    validate_model.mp (validate_again (proper_config hostname) hready hmodel)
  obtain rfl := Json.obj.inj hentries
  obtain rfl := Json.obj.inj hout
  exact hvalid

/-- The peers of a configuration, and what is around them. -/
theorem Valid.peers {cfg : Entries Num} (h : Valid hostname cfg) :
    ∃ loc peers, Dict.lookup "local" cfg = some (.obj loc) ∧
      validateFields coercion (localConfig hostname) loc = some loc ∧
      Dict.lookup "peers" loc = some (.list peers) ∧ peersOf cfg = peers ∧
      ∀ p ∈ peers, validate coercion (.model peerConfig) p = some p := by
  obtain ⟨v, hv, hvalid⟩ := validate_field (names_nodup hostname) h (mem_configFields_local hostname)
  obtain ⟨loc, out, rfl, heq, hloc⟩ := validate_model.mp hvalid
  obtain rfl := Json.obj.inj heq
  obtain ⟨w, hw, hvalid⟩ := validate_field (local_nodup hostname) hloc
    (mem_localConfig_peers hostname)
  obtain ⟨peers, out, rfl, heq, hpeers⟩ := validate_list.mp hvalid
  obtain rfl := Json.list.inj heq
  refine ⟨loc, peers, hv, hloc, hw, ?_, List.forall₂_same.mp hpeers⟩
  have hget : get ["local", "peers"] (.obj cfg) = some (.list peers) := by
    rw [get_cons, show Dict.lookup "local" cfg = _ from hv, Option.bind_some, get_key]
    exact hw
  unfold peersOf
  rw [hget]
  rfl

/-- Some of the peers, in the place of all. -/
theorem Valid.setPeers {cfg : Entries Num} (h : Valid hostname cfg) {some_ : List (Json Num)}
    (hsub : some_.Sublist (peersOf cfg)) :
    Valid hostname (NodeConfig.setPeers some_ cfg) ∧
      peersOf (NodeConfig.setPeers some_ cfg) = some_ := by
  obtain ⟨loc, peers, hlocal, hloc, hpeers, hof, hall⟩ := h.peers
  have hset : NodeConfig.setPeers some_ cfg =
      Dict.assign "local" (.obj (Dict.assign "peers" (.list some_) loc)) cfg := by
    rw [NodeConfig.setPeers, hlocal]
  have hlist : validate coercion (.list (.model peerConfig)) (.list some_) =
      some (.list some_ : Json Num) :=
    validate_list.mpr ⟨some_, some_, rfl, rfl, List.forall₂_same.mpr fun p hp =>
      hall p (hof ▸ hsub.subset hp)⟩
  have hinner := validateFields_assign (local_nodup hostname) hloc
    (mem_localConfig_peers hostname) hlist
  have hmodel : validate coercion (.model (localConfig hostname))
      (.obj (Dict.assign "peers" (.list some_) loc)) =
      some (.obj (Dict.assign "peers" (.list some_) loc)) :=
    validate_model.mpr ⟨_, _, rfl, rfl, hinner⟩
  refine ⟨?_, ?_⟩
  · rw [Valid, hset]
    exact validateFields_assign (names_nodup hostname) h (mem_configFields_local hostname) hmodel
  · have hget : get ["local", "peers"] (.obj (NodeConfig.setPeers some_ cfg)) =
        some (.list some_) := by
      rw [hset, get_cons, Dict.lookup_assign, if_pos rfl, Option.bind_some, get_key,
        Dict.lookup_assign, if_pos rfl]
    unfold peersOf
    rw [hget]
    rfl

theorem Valid.setPeers_self {cfg : Entries Num} (h : Valid hostname cfg) :
    NodeConfig.setPeers (peersOf cfg) cfg = cfg := by
  obtain ⟨loc, peers, hlocal, -, hpeers, hof, -⟩ := h.peers
  rw [NodeConfig.setPeers, hlocal, hof]
  dsimp only
  rw [Dict.assign_of_lookup hpeers, Dict.assign_of_lookup hlocal]

/-- There is nothing to fill in a configuration of the models. -/
theorem Valid.deep_fill {cfg : Entries Num} (h : Valid hostname cfg) :
    NodeConfig.deep_fill cfg (default_config_dict hostname) "" = (cfg, []) := by
  have hmodel : validate coercion (config hostname) (.obj cfg) = some (.obj cfg) :=
    validate_model.mpr ⟨cfg, cfg, rfl, rfl, h⟩
  have hnil := additions_validated (proper_config hostname) (backed_config hostname) hmodel
  have hsame := fillWith_of_additions (unique_default_config_dict hostname) _ hnil
  rw [fillWith_section] at hsame
  rw [additions_section] at hnil
  refine Prod.ext (Json.obj.inj hsame) ?_
  rw [deep_fill_paths (unique_default_config_dict hostname), hnil]
  rfl

variable [Truth Num] (yaml : Yaml Num Text)

omit [Truth Num] in
/-- A configuration of the models is loaded as it is, and the file stays. -/
theorem Valid.loadRaw {cfg : Entries Num} (h : Valid hostname cfg)
    (huniq : uniqPeers [] (peersOf cfg) = peersOf cfg) (file : Text) :
    NodeConfig.loadRaw yaml hostname file cfg = (file, some cfg) := by
  have hmigrate : migrate yaml file cfg cfg = (file, cfg) := by
    unfold migrate
    rw [huniq]
    dsimp only
    rw [if_neg (not_not.mpr rfl), need_migrate_self, if_neg Bool.false_ne_true]
  unfold NodeConfig.loadRaw
  rw [h.deep_fill]
  dsimp only
  rw [show validateFields coercion (configFields hostname) cfg = some cfg from h]
  dsimp only
  rw [List.isEmpty_nil, if_pos rfl, hmigrate]

theorem load_of_root {file : Text} {raw : Entries Num}
    (h : (yaml.safe_load file).bind rootOf = some raw) :
    load yaml hostname (some file) = NodeConfig.loadRaw yaml hostname file raw := by
  unfold load
  rw [Option.getD_some]
  dsimp only
  rw [h]

omit [Letters] [Pydantic Num] in
theorem root_dump (entries : Entries Num) :
    (yaml.safe_load (yaml.dump (.obj entries))).bind rootOf = some entries := by
  rw [yaml.load_dump, Option.bind_some, rootOf]

omit [Truth Num] in
/-- What one loading does: it leaves the file as it was or with the defaults, or it writes what the
models print. -/
theorem loadRaw_cases {file file' : Text} {raw cfg : Entries Num}
    (h : NodeConfig.loadRaw yaml hostname file raw = (file', some cfg)) :
    ∃ cfg₀, validateFields coercion (configFields hostname)
        (filled raw (default_config_dict hostname)) = some cfg₀ ∧
      ((uniqPeers [] (peersOf cfg₀) = peersOf cfg₀ ∧ cfg = cfg₀ ∧
          need_migrate (filled raw (default_config_dict hostname)) cfg₀ = false ∧
          file' = if (NodeConfig.deep_fill raw (default_config_dict hostname) "").2.isEmpty then file
            else yaml.dump (.obj (filled raw (default_config_dict hostname)))) ∨
        ((uniqPeers [] (peersOf cfg₀) ≠ peersOf cfg₀ ∨
            need_migrate (filled raw (default_config_dict hostname)) cfg₀ = true) ∧
          Valid hostname cfg ∧ peersOf cfg = uniqPeers [] (peersOf cfg₀) ∧
          cfg = NodeConfig.setPeers (uniqPeers [] (peersOf cfg₀)) cfg₀ ∧
          file' = yaml.dump (.obj cfg))) := by
  unfold NodeConfig.loadRaw at h
  dsimp only at h
  rw [deep_fill_filled] at h
  cases hvalid : validateFields coercion (configFields hostname)
      (filled raw (default_config_dict hostname)) with
  | none =>
      rw [hvalid] at h
      cases (Prod.mk.inj h).2
  | some cfg₀ =>
      rw [hvalid] at h
      dsimp only at h
      obtain ⟨hfile, hcfg⟩ := Prod.mk.inj h
      have hcfg := Option.some.inj hcfg
      have hv := valid_of_filled hvalid
      refine ⟨cfg₀, rfl, ?_⟩
      unfold migrate at hfile hcfg
      dsimp only at hfile hcfg
      by_cases hlength : (uniqPeers [] (peersOf cfg₀)).length = (peersOf cfg₀).length
      · have huniq := (uniqPeers_sublist [] (peersOf cfg₀)).eq_of_length hlength
        rw [if_neg (not_not.mpr hlength)] at hfile hcfg
        cases hneed : need_migrate (filled raw (default_config_dict hostname)) cfg₀ with
        | false =>
            rw [hneed, if_neg Bool.false_ne_true] at hfile hcfg
            exact .inl ⟨huniq, hcfg.symm, rfl, hfile.symm⟩
        | true =>
            rw [hneed, if_pos rfl] at hfile hcfg
            dsimp only at hfile hcfg
            subst hcfg
            refine .inr ⟨.inr rfl, hv, huniq.symm, ?_, hfile.symm⟩
            rw [huniq, hv.setPeers_self]
      · rw [if_pos hlength] at hfile hcfg
        dsimp only at hfile hcfg
        subst hcfg
        obtain ⟨hset, hpeers⟩ := hv.setPeers (uniqPeers_sublist [] (peersOf cfg₀))
        refine .inr ⟨.inl fun heq => hlength (congrArg List.length heq), hset, hpeers, rfl, hfile.symm⟩

/-- **Loading twice** gives the same configuration and leaves the file, and no peer is there twice. -/
theorem load_again {file file' : Text} {raw cfg : Entries Num}
    (h : NodeConfig.loadRaw yaml hostname file raw = (file', some cfg))
    (hraw : (yaml.safe_load file).bind rootOf = some raw) :
    load yaml hostname (some file') = (file', some cfg) ∧ ((peersOf cfg).map lowId).Nodup := by
  obtain ⟨cfg₀, hvalid, ⟨huniq, rfl, hneed, rfl⟩ | ⟨-, hv, hpeers, -, rfl⟩⟩ := loadRaw_cases yaml h
  · have hnodup := (lowId_uniqPeers [] (peersOf cfg)).1
    rw [huniq] at hnodup
    refine ⟨?_, hnodup⟩
    by_cases hempty : (NodeConfig.deep_fill raw (default_config_dict hostname) "").2.isEmpty = true
    · -- the file has not changed
      rw [if_pos hempty] at h ⊢
      rw [load_of_root yaml hraw, h]
    · rw [if_neg hempty, load_of_root yaml (root_dump yaml _)]
      have hagain := deep_fill_again (unique_default_config_dict hostname) raw "" ""
      rw [deep_fill_filled] at hagain
      unfold NodeConfig.loadRaw
      dsimp only
      rw [hagain]
      dsimp only
      rw [hvalid]
      dsimp only
      unfold migrate
      dsimp only
      rw [huniq, if_neg (not_not.mpr rfl), hneed, if_neg Bool.false_ne_true]
      rfl
  · have hnodup := (lowId_uniqPeers [] (peersOf cfg₀)).1
    rw [← hpeers] at hnodup
    refine ⟨?_, hnodup⟩
    rw [load_of_root yaml (root_dump yaml _)]
    exact hv.loadRaw yaml (uniqPeers_of_nodup hnodup fun _ _ => List.not_mem_nil) _

/-- **Filling and loading.** After `_deep_fill` every path of the defaults is there, what the user
had where no section goes is as it was, the paths returned are those at which something was put and
not above them, and filling again does nothing. Loading what a loading has left gives the same
configuration, in which no peer is there twice. -/
theorem config_filled_and_loaded (hostname : String) :
    (∀ target defaults : Entries Num, Json.Unique (.obj defaults) →
      (∀ p d, get p (.obj defaults) = some d →
        (get p (.obj (NodeConfig.deep_fill target defaults "").1)).isSome = true) ∧
      (∀ p v, get p (.obj target) = some v → (get p (.obj defaults)).any isObj = false →
        get p (.obj (NodeConfig.deep_fill target defaults "").1) = some v) ∧
      (∃ paths : List (List String), paths.Nodup ∧
        (∀ p, p ∈ paths ↔ Added (.obj defaults) (some (.obj target)) p) ∧
        (NodeConfig.deep_fill target defaults "").2 = paths.map (dotted "")) ∧
      NodeConfig.deep_fill (NodeConfig.deep_fill target defaults "").1 defaults "" =
        ((NodeConfig.deep_fill target defaults "").1, [])) ∧
    (∀ (file : Option Text) (file' : Text) (cfg : Entries Num),
      load yaml hostname file = (file', some cfg) →
      load yaml hostname (some file') = (file', some cfg) ∧ ((peersOf cfg).map lowId).Nodup) := by
  refine ⟨fun target defaults hd => ⟨fun p d hp => ?_, fun p v hv hp => ?_, ?_,
    deep_fill_again hd target "" ""⟩, fun file file' cfg h => ?_⟩
  · rw [deep_fill_filled, ← fillWith_section]
    exact get_fill_default hd hp _
  · rw [deep_fill_filled, ← fillWith_section]
    exact get_fill_user hd hv hp
  · refine ⟨additionsIn target defaults, ?_, fun p => ?_, deep_fill_paths hd target ""⟩
    · rw [← additions_section]
      exact nodup_additions hd _
    · rw [← additions_section]
      exact mem_additions hd _ p
  · unfold load at h
    dsimp only at h
    cases hraw : (yaml.safe_load (file.getD (yaml.dump (.obj (default_config_dict hostname))))).bind
        rootOf with
    | none =>
        rw [hraw] at h
        cases (Prod.mk.inj h).2
    | some raw =>
        rw [hraw] at h
        exact load_again yaml h hraw

end Again

/-- A number where the section `network` goes, and a name in capitals. -/
example : NodeConfig.deep_fill [("network", .num (1 : Int))] [("network", .obj [("port", .num 9000)]),
      ("local", .obj [("name", .str "Core")])] "" =
    ([("network", .obj [("port", .num 9000)]), ("local", .obj [("name", .str "Core")])],
      ["network", "local"]) := by rfl

/-! ## §6 Updating -/

/-- `_set_nested`; `none` when something on the way is no mapping. -/
def set_nested (value : Json Num) : List String → Json Num → Option (Json Num)
  | [k], .obj entries => some (.obj (Dict.assign k value entries))
  | k :: rest, .obj entries =>
      (set_nested value rest ((Dict.lookup k entries).getD (.obj []))).map fun v =>
        .obj (Dict.assign k v entries)
  | _, _ => none

/-- The pieces between double underscores. -/
def splitDunder (piece : List Char) : List Char → List String
  | '_' :: '_' :: rest => String.ofList piece.reverse :: splitDunder [] rest
  | c :: rest => splitDunder (c :: piece) rest
  | [] => [String.ofList piece.reverse]

/-- `key.split('__')` -/
def partsOf (key : String) : List String := splitDunder [] key.toList

structure Manager (Num Text : Type) where
  /-- `config.yaml` -/
  file : Option Text
  cfg : Json Num

/-- How an update ends. -/
inductive Updated where
  | done
  /-- The file cannot be read as YAML, or what is to be set is below something that is no mapping. -/
  | unreadable
  /-- `Config(**data)` raises. -/
  | invalid
  deriving DecidableEq

section Update

variable [Letters] [Pydantic Num] [Truth Num] (yaml : Yaml Num Text) (hostname : String)

/-- What `_load_yaml` gives. -/
def load_yaml (file : Option Text) : Option (Json Num) :=
  match file with
  | none => some (.obj [])
  | some text => (yaml.safe_load text).map fun v => if v.truthy then v else .obj []

/-- The data of the file with the changes. -/
def changed_data (file : Option Text) (kwargs : List (String × Json Num)) : Option (Json Num) :=
  (load_yaml yaml file).bind fun data =>
    kwargs.foldlM (fun data e => set_nested e.2 (partsOf e.1) data) data

/-- `ConfigManager.update` -/
def Manager.update (m : Manager Num Text) (kwargs : List (String × Json Num)) :
    Manager Num Text × Updated :=
  match changed_data yaml m.file kwargs with
  | none => (m, .unreadable)
  | some data =>
      -- The file is written before the data are validated.
      match validate coercion (config hostname) data with
      | none => ({ m with file := some (yaml.dump data) }, .invalid)
      | some cfg => (⟨some (yaml.dump data), cfg⟩, .done)

/-- An update that the models refuse leaves file and memory as they were. -/
def Manager.Atomic (m : Manager Num Text) (kwargs : List (String × Json Num)) : Prop :=
  (m.update yaml hostname kwargs).2 = .invalid →
    (m.update yaml hostname kwargs).1.file = m.file ∧
      (m.update yaml hostname kwargs).1.cfg = m.cfg

/-- **Exactly** the updates whose data the models accept, or that write what the file has already. -/
theorem update_atomic_iff (m : Manager Num Text) (kwargs : List (String × Json Num)) :
    m.Atomic yaml hostname kwargs ↔
      ∀ data, changed_data yaml m.file kwargs = some data →
        validate coercion (config hostname) data ≠ none ∨ m.file = some (yaml.dump data) := by
  unfold Manager.Atomic Manager.update
  cases hdata : changed_data yaml m.file kwargs with
  | none => exact iff_of_true (fun h => by cases h) fun data h => by cases h
  | some data =>
      dsimp only
      cases hvalid : validate coercion (config hostname) data with
      | some cfg =>
          refine iff_of_true (fun h => by cases h) fun data' h => .inl ?_
          rw [← Option.some.inj h, hvalid]
          exact Option.some_ne_none _
      | none =>
          constructor
          · intro h data' heq
            rw [← Option.some.inj heq]
            exact .inr (h rfl).1.symm
          · intro h _
            exact ⟨((h data rfl).resolve_left fun hne => hne hvalid).symm, rfl⟩

end Update

/-! ## §7 Concrete files -/

theorem map_toLower_toLower (m : List Char) :
    (m.map Char.toLower).map Char.toLower = m.map Char.toLower := by
  rw [List.map_map]
  exact List.map_congr_left fun c _ => toLower_toLower c

/-- `_canon_node` and `lower` on ASCII text. -/
@[reducible] def asciiLetters : Letters :=
  { asciiCanon with
    lower := fun s => String.ofList (s.toList.map Char.toLower)
    lower_canon := fun s => by
      show String.ofList (List.map Char.toLower (String.ofList _).toList) = _
      rw [String.toList_ofList, map_toLower_toLower]
      rfl
    canon_lower := fun s => by
      show String.ofList ((strip (String.ofList _).toList).map Char.toLower) = _
      rw [String.toList_ofList, strip_map_toLower, map_toLower_toLower]
      rfl }

/-- Conversions that take a value of the type and nothing else. -/
def plainConvert : Scalar → Json Int → Option (Json Int)
  | .int, .num n | .float, .num n => some (.num n)
  | .bool, .bool b => some (.bool b)
  | .str, .str s | .optStr, .str s | .path, .str s => some (.str s)
  | .optStr, .null => some .null
  | _, _ => none

@[reducible] def plainPydantic : Pydantic Int where
  nat := Int.ofNat
  tenths := Int.ofNat
  convert := plainConvert
  convert_again {s v w} h := by
    cases s <;> cases v <;> cases h <;> rfl
  convert_leaf {s v w} h := by
    cases s <;> cases v <;> cases h <;> rfl
  convert_nat n := rfl
  convert_str {v w} := by
    cases v <;> simp [plainConvert, eq_comm]

@[reducible] def intTruth : Truth Int := ⟨fun n => n ≠ 0⟩

/-- The tree is its own text. -/
def sameYaml : Yaml Int (Json Int) := ⟨some, id, fun _ => rfl⟩

attribute [local instance] asciiLetters plainPydantic intTruth

theorem exists_of_isSome {α β : Type*} {p : α × Option β} (h : p.2.isSome = true) :
    ∃ a b, p = (a, some b) := by
  obtain ⟨a, b⟩ := p
  obtain ⟨b, rfl⟩ := Option.isSome_iff_exists.mp h
  exact ⟨a, b, rfl⟩

/-- A section of the defaults over a number; and the first start of a node. -/
theorem config_filled_and_loaded_first :
    (get ["network", "port"] (.obj (NodeConfig.deep_fill [("network", .num (1 : Int))]
      [("network", .obj [("port", .num 9000)])] "").1)).isSome = true ∧
    ∃ file cfg, load sameYaml "PC" none = (file, some cfg) ∧
      load sameYaml "PC" (some file) = (file, some cfg) := by
  obtain ⟨hfill, hload⟩ := config_filled_and_loaded sameYaml "PC"
  refine ⟨(hfill _ _ ?_).1 ["network", "port"] (.num 9000) rfl, ?_⟩
  · simp [Json.Unique, Json.UniqueEntries]
  · have hsome : (load sameYaml "PC" none).2.isSome = true := by decide +kernel
    obtain ⟨file, cfg, hfirst⟩ := exists_of_isSome hsome
    exact ⟨file, cfg, hfirst, (hload none file cfg hfirst).1⟩

/-- A node with its defaults. -/
def started : Manager Int (Json Int) :=
  ⟨some (.obj (default_config_dict "pc")), .obj (default_config_dict "pc")⟩

/-- A port that is no number: the update is refused, the file has it, and the node does not start. -/
theorem update_port_kept :
    ¬ started.Atomic sameYaml "pc" [("network__port", .str "abc")] ∧
      (load sameYaml "pc" started.file).2.isSome = true ∧
      (load sameYaml "pc"
        (started.update sameYaml "pc" [("network__port", .str "abc")]).1.file).2.isSome = false := by
  refine ⟨fun h => ?_, by decide +kernel, by decide +kernel⟩
  have hinvalid : (started.update sameYaml "pc" [("network__port", .str "abc")]).2 = .invalid := by
    decide +kernel
  have hafter : textOf ((started.update sameYaml "pc"
      [("network__port", .str "abc")]).1.file.bind (get ["network", "port"])) = some "abc" := by
    decide +kernel
  have hbefore : textOf (started.file.bind (get ["network", "port"])) = none := by decide +kernel
  rw [(h hinvalid).1, hbefore] at hafter
  cases hafter

end NetPulse.Mesh.NodeConfig
