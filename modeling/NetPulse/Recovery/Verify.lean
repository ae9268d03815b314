import NetPulse.Lib.Except
import NetPulse.Recovery.Triples

/-
# NetPulse.Recovery.Verify — what `unpack_verified` accepts

`Genuine` is what an archive has to be: three members with the right names, the sizes that the
manifest has for them, payloads with the hashes of the manifest, a database that is whole and a
configuration that is an object. `unpackVerified_spec`: what is unpacked is the payloads of a genuine
archive, into the stage and nowhere else; and if nothing fails, a genuine archive is not refused.
-/

namespace NetPulse.Recovery

open NetPulse.Lib NetPulse.Lib.Json NetPulse.Lib.Prog

/-! ## §1 Genuine archives -/

variable {Num : Type} (lib : Library Num)

/-- What is in an archive. -/
structure Contents (Num : Type) where
  manifest : Entries Num
  files : Entries Num
  config : Bytes
  database : Bytes
  settings : Entries Num
  tables : Nat

/-- A directory with the two payloads. -/
def bothFiles (config database : Bytes) : String → Option Bytes :=
  Function.update (Function.update (fun _ => none) "config.json" (some config))
    "network_stats.db" (some database)

def Contents.payload (c : Contents Num) : String → Option Bytes := bothFiles c.config c.database

def Contents.summary (c : Contents Num) : Summary Num :=
  ⟨Dict.lookup "version" c.manifest, Dict.lookup "created" c.manifest, c.files, c.tables,
    encryptedEntries c.settings, none⟩

/-- A manifest that can be read, of the right format. -/
structure HasManifest (entries : List ZipEntry) (manifest : Entries Num) : Prop where
  text : ∃ item, entries.find? (·.filename = "manifest.json") = some item ∧
    item.fileSize ≤ 16384 ∧ item.failure = none ∧ lib.loads item.content = some (.obj manifest)
  format : isText (Dict.lookup "format" manifest) formatName = true ∧
    lib.isNumber (Dict.lookup "schema" manifest) 1 = true

/-- The names, the sizes in the headers, and the manifest. -/
structure Header (archive : Bytes) (entries : List ZipEntry) (manifest files : Entries Num) :
    Prop where
  zip : lib.readZip archive = .ok entries
  three : entries.length = 3 ∧ sameNames (entries.map (·.filename)) members = true
  total : (entries.map (·.fileSize)).sum ≤ maxBytes
  described : HasManifest lib entries manifest
  fileTable : Dict.lookup "files" manifest = some (.obj files)
  listed : sameNames (files.map Prod.fst) payloads = true

/-- A payload is as its header and the manifest say. -/
def Matches (entries : List ZipEntry) (files : Entries Num) (name : String) (content : Bytes) :
    Prop :=
  ∃ entry item, Dict.lookup name files = some (.obj entry) ∧
    entries.find? (·.filename = name) = some item ∧
    lib.isNumber (Dict.lookup "size" entry) item.fileSize = true ∧
    content.length ≤ limitOf name ∧ item.failure = none ∧ item.content = content ∧
    isText (Dict.lookup "sha256" entry) (lib.digest content) = true

/-- The payloads: the hashes, and what they are. -/
structure Sound (entries : List ZipEntry) (files : Entries Num) (config database : Bytes)
    (settings : Entries Num) (tables : Nat) : Prop where
  configFile : Matches lib entries files "config.json" config
  databaseFile : Matches lib entries files "network_stats.db" database
  whole : lib.integrityCheck database = .ok ["ok"]
  counted : lib.tableCount database = .ok tables
  small : config.length ≤ maxConfig
  parsed : lib.loadsText config = some (.obj settings)

/-- **A verified archive** with these contents. -/
def Genuine (archive : Bytes) (c : Contents Num) : Prop :=
  archive.length ≤ maxBytes ∧ ∃ entries, Header lib archive entries c.manifest c.files ∧
    Sound lib entries c.files c.config c.database c.settings c.tables

/-! ## §2 One payload -/

variable {lib}
variable {calm : Bool} {T B : Tree} {X : Prop} {PE : Tree → Prop} {stage q : Path}

theorem append_append (handle : Path) (a b : Bytes) :
    (T.setContent handle (· ++ a)).setContent handle (· ++ b) =
      T.setContent handle (· ++ (a ++ b)) := by
  rw [FileTree.setContent_setContent]
  exact congrArg (T.setContent handle) (funext fun c => List.append_assoc c a b)

theorem append_nil (handle : Path) : T.setContent handle (· ++ []) = T :=
  FileTree.setContent_id List.append_nil

/-- The loop stops when the limit is passed, and not before. -/
theorem copyBlocks_spec {limit size : Nat} {handle : Path} {blocks : List Bytes}
    (hsize : size ≤ limit) (h : ∀ written, PE (T.setContent handle (· ++ written)))
    (hX : ¬ size + blocks.flatten.length ≤ limit → X) :
    Triple (On calm T) (copyBlocks limit handle size blocks)
      (fun _ w => size + blocks.flatten.length ≤ limit ∧
        On calm (T.setContent handle (· ++ blocks.flatten)) w) (Err calm X PE) := by
  induction blocks generalizing size T with
  | nil =>
      refine Triple.pure fun w hw => ⟨hsize, ?_⟩
      rw [List.flatten_nil, append_nil]
      exact hw
  | cons block rest ih =>
      have hnow : PE T := by
        have h := h []
        rwa [append_nil] at h
      rw [List.flatten_cons, List.length_append, ← Nat.add_assoc] at hX ⊢
      refine Triple.bind (attempt_spec hnow) fun _ => ?_
      refine Triple.bind (require_spec hnow fun hno => hX ?_) fun _ => Triple.of_fact fun hlimit => ?_
      · exact fun hle => hno (Nat.le_trans (Nat.le_add_right _ _) hle)
      refine Triple.bind (writeBlock_spec fun k => h (block.take k)) fun _ => ?_
      refine (ih hlimit (fun written => ?_) hX).after fun _ w hw => ⟨hw.1, ?_⟩
      · rw [append_append]
        exact h (block ++ written)
      · rw [← append_append]
        exact hw.2

/-- The stage: a directory of our own, with nothing in it. -/
structure Stage (B : Tree) (stage q : Path) : Prop where
  locate : B.locate stage = some q
  dir : B.node q = some .dir
  empty : ∀ n, B.node (q ++ [n]) = none

/-- A directory that is made in another one and is empty. -/
theorem stage_put {parent : Path} {tmp : String} (hparent : T.locate parent = some q)
    (hdir : T.node q = some .dir) (hfree : T.node (q ++ [tmp]) = none) :
    Stage (T.put q tmp .dir hdir hfree) (parent ++ [tmp]) (q ++ [tmp]) :=
  ⟨FileTree.locate_append (FileTree.extends_put.locate hparent) (Or.inl FileTree.put_self),
    FileTree.put_self, FileTree.put_below⟩

theorem Stage.slot {files : String → Option Bytes} (hs : Stage B stage q)
    (hT : FileTree.Filled B q files T) (n : String) : T.slot (stage ++ [n]) = some (q, n) :=
  FileTree.slot_append ((hT.extends hs.empty).locate hs.locate)

theorem unpackPayload_spec {entries : List ZipEntry} {files : Entries Num} {name : String}
    {done : String → Option Bytes} (hs : Stage B stage q) (hT : FileTree.Filled B q done T)
    (hfree : done name = none) (hPE : ∀ files t, FileTree.Filled B q files t → PE t)
    (hX : (∀ content, ¬ Matches lib entries files name content) → X) :
    Triple (On calm T) (unpackPayload lib entries files stage name)
      (fun _ w => ∃ content T', Matches lib entries files name content ∧
        FileTree.Filled B q (Function.update done name (some content)) T' ∧ On calm T' w)
      (Err calm X PE) := by
  have hnow := hPE _ _ hT
  refine Triple.bind (asObject_spec hnow fun hno => hX ?_) fun entry =>
    Triple.of_fact fun hentry => ?_
  · rintro content ⟨entry, item, hentry, -⟩
    exact hno entry hentry
  refine Triple.bind (getinfo_spec hnow fun hno => hX ?_) fun item =>
    Triple.of_fact fun hitem => ?_
  · rintro content ⟨entry, item, -, hitem, -⟩
    rw [hno] at hitem
    cases hitem
  -- From here on the header and the entry of the manifest are known.
  have hrest : ¬ (lib.isNumber (Dict.lookup "size" entry) item.fileSize = true ∧
      item.content.length ≤ limitOf name ∧ item.failure = none ∧
      isText (Dict.lookup "sha256" entry) (lib.digest item.content) = true) → X := by
    refine fun hno => hX ?_
    rintro content ⟨entry', item', hentry', hitem', hsize, hlimit, hfailure, rfl, hsha⟩
    rw [hentry] at hentry'
    rw [hitem] at hitem'
    cases hentry'
    cases hitem'
    exact hno ⟨hsize, hlimit, hfailure, hsha⟩
  refine Triple.bind (require_spec hnow fun hno => hrest fun hall => hno hall.1) fun _ =>
    Triple.of_fact fun hsize => ?_
  have hdir : T.node q = some .dir := hT.self.trans hs.dir
  have hplace : T.node (q ++ [name]) = none := by
    rw [hT.child, hfree]
    rfl
  refine Triple.bind (enter_at hnow (hs.slot hT name) hdir hplace) fun handle =>
    Triple.of_fact fun hhandle => ?_
  subst hhandle
  have hput : FileTree.Filled B q (Function.update done name (some []))
    (T.put q name (.file []) hdir hplace) := hT.put []
  have hwritten : ∀ written, FileTree.Filled B q (Function.update done name (some written))
      ((T.put q name (.file []) hdir hplace).setContent (q ++ [name]) (· ++ written)) :=
    fun written => hT.put_setContent [] (· ++ written)
  refine Triple.bind (attempt_spec (hPE _ _ hput)) fun _ => ?_
  refine Triple.bind (copyBlocks_spec (Nat.zero_le _) (fun written => hPE _ _ (hwritten written))
    fun hno => hrest fun hall => hno (by rw [Nat.zero_add]; exact hall.2.1)) fun _ =>
    Triple.of_fact fun hlimit => ?_
  rw [Nat.zero_add] at hlimit
  have hfile := hwritten item.content
  refine Triple.bind (endOf_spec (hPE _ _ hfile) fun hno => hrest fun hall => hno hall.2.2.1)
    fun _ => Triple.of_fact fun hfailure => ?_
  have hat := hfile.fileAt hs.empty hs.locate (Function.update_self name _ done)
  refine Triple.bind (readFile_spec (hPE _ _ hfile) hat) fun content =>
    Triple.of_fact fun hcontent => ?_
  subst hcontent
  refine (require_spec (hPE _ _ hfile) fun hno => hrest fun hall => hno hall.2.2.2).after
    fun _ w hw => ?_
  exact ⟨item.content, _, ⟨entry, item, hentry, hitem, hsize, hlimit, hfailure, rfl, hw.1⟩, hfile,
    hw.2⟩

/-! ## §3 The whole archive -/

theorem checkDatabase_spec {p : Path} {content : Bytes} (hat : T.fileAt p = some content)
    (h : PE T) (hX : (∀ tables, ¬ (lib.integrityCheck content = .ok ["ok"] ∧
      lib.tableCount content = .ok tables)) → X) :
    Triple (On calm T) (checkDatabase lib p)
      (fun tables w => (lib.integrityCheck content = .ok ["ok"] ∧
        lib.tableCount content = .ok tables) ∧ On calm T w) (Err calm X PE) := by
  refine Triple.bind (readFile_spec h hat) fun content' => Triple.of_fact fun hcontent => ?_
  subst hcontent
  refine Triple.bind (library_spec h fun kind hkind => hX fun tables hall => ?_) fun result =>
    Triple.of_fact fun hresult => ?_
  · rw [hall.1] at hkind
    cases hkind
  refine Triple.bind (require_spec h fun hno => hX fun tables hall => ?_) fun _ =>
    Triple.of_fact fun hok => ?_
  · rw [hall.1] at hresult
    exact hno (Except.ok.inj hresult).symm
  refine (library_spec h fun kind hkind => hX fun tables hall => ?_).after fun tables w hw => ?_
  · rw [hall.2] at hkind
    cases hkind
  · exact ⟨⟨hok ▸ hresult, hw.1⟩, hw.2⟩

theorem checkConfig_spec {p : Path} {content : Bytes} (hat : T.fileAt p = some content) (h : PE T)
    (hX : (∀ settings, ¬ (content.length ≤ maxConfig ∧
      lib.loadsText content = some (.obj settings))) → X) :
    Triple (On calm T) (checkConfig lib p)
      (fun dpapi w => (∃ settings, content.length ≤ maxConfig ∧
        lib.loadsText content = some (.obj settings) ∧ dpapi = encryptedEntries settings) ∧
        On calm T w) (Err calm X PE) := by
  refine Triple.bind (fileSize_spec h hat) fun size => Triple.of_fact fun hsize => ?_
  subst hsize
  refine Triple.bind (require_spec h fun hno => hX fun settings hall => hno hall.1) fun _ =>
    Triple.of_fact fun hsmall => ?_
  refine Triple.bind (readFile_spec h hat) fun content' => Triple.of_fact fun hcontent => ?_
  subst hcontent
  refine Triple.bind (asObject_spec h fun hno => hX fun settings hall => hno settings hall.2)
    fun settings => Triple.of_fact fun hsettings => ?_
  exact Triple.bind (attempt_spec h) fun _ =>
    Triple.pure fun _ hw => ⟨⟨settings, hsmall, hsettings, rfl⟩, hw⟩

theorem readEntry_spec {e : ZipEntry} (h : PE T) (hX : e.failure ≠ none → X) :
    Triple (On calm T) (readEntry e)
      (fun text w => (e.failure = none ∧ text = e.content) ∧ On calm T w) (Err calm X PE) :=
  Triple.bind (endOf_spec h hX) fun _ => Triple.of_fact fun hnone =>
    Triple.pure fun _ hw => ⟨⟨hnone, rfl⟩, hw⟩

theorem readManifest_spec {entries : List ZipEntry} (h : PE T)
    (hX : (∀ manifest, ¬ HasManifest lib entries manifest) → X) :
    Triple (On calm T) (readManifest lib entries)
      (fun manifest w => HasManifest lib entries manifest ∧ On calm T w) (Err calm X PE) := by
  refine Triple.bind (getinfo_spec h fun hno => hX fun manifest hm => ?_) fun item =>
    Triple.of_fact fun hitem => ?_
  · obtain ⟨item, hitem, -⟩ := hm.text
    rw [hno] at hitem
    cases hitem
  have htext : ∀ {manifest}, HasManifest lib entries manifest → item.fileSize ≤ 16384 ∧
      item.failure = none ∧ lib.loads item.content = some (.obj manifest) := by
    intro manifest hm
    obtain ⟨item', hitem', hrest⟩ := hm.text
    rw [hitem] at hitem'
    exact Option.some.inj hitem' ▸ hrest
  refine Triple.bind (require_spec h fun hno => hX fun manifest hm => hno (htext hm).1)
    fun _ => Triple.of_fact fun hsmall => ?_
  refine Triple.bind (readEntry_spec h fun hno => hX fun manifest hm => hno (htext hm).2.1)
    fun text => Triple.of_fact fun hread => ?_
  obtain ⟨hwhole, rfl⟩ := hread
  refine Triple.bind (library_spec h fun kind hkind => hX fun manifest hm => ?_) fun value =>
    Triple.of_fact fun hvalue => ?_
  · rw [(htext hm).2.2] at hkind
    cases hkind
  rw [elim_eq_ok] at hvalue
  refine Triple.bind (asObject_spec h fun hno => hX fun manifest hm => hno manifest ?_)
    fun manifest => Triple.of_fact fun hmanifest => ?_
  · exact hvalue.symm.trans (htext hm).2.2
  refine Triple.bind (require_spec h fun hno => hX fun manifest' hm => hno ?_) fun _ =>
    Triple.of_fact fun hformat => ?_
  · have hsame := (hvalue.trans hmanifest).symm.trans (htext hm).2.2
    cases hsame
    exact hm.format
  exact Triple.pure fun _ hw =>
    ⟨⟨⟨item, hitem, hsmall, hwhole, hvalue.trans hmanifest⟩, hformat⟩, hw⟩

/-- There is one manifest. -/
theorem HasManifest.unique {entries : List ZipEntry} {manifest manifest' : Entries Num}
    (h : HasManifest lib entries manifest) (h' : HasManifest lib entries manifest') :
    manifest = manifest' := by
  obtain ⟨item, hitem, -, -, hloads⟩ := h.text
  obtain ⟨item', hitem', -, -, hloads'⟩ := h'.text
  obtain rfl := Option.some.inj (hitem.symm.trans hitem')
  cases hloads.symm.trans hloads'
  rfl

theorem Header.unique {archive : Bytes} {entries entries' : List ZipEntry}
    {manifest manifest' files files' : Entries Num} (h : Header lib archive entries manifest files)
    (h' : Header lib archive entries' manifest' files') :
    entries = entries' ∧ manifest = manifest' ∧ files = files' := by
  obtain rfl := Except.ok.inj (h.zip.symm.trans h'.zip)
  obtain rfl := h.described.unique h'.described
  cases h.fileTable.symm.trans h'.fileTable
  exact ⟨rfl, rfl, rfl⟩

theorem readHeader_spec {path : Path} {archive : Bytes} (hat : T.fileAt path = some archive)
    (h : PE T) (hX : (∀ entries manifest files, ¬ Header lib archive entries manifest files) → X) :
    Triple (On calm T) (readHeader lib path)
      (fun r w => Header lib archive r.1 r.2.1 r.2.2 ∧ On calm T w) (Err calm X PE) := by
  refine Triple.bind (readFile_spec h hat) fun content => Triple.of_fact fun hcontent => ?_
  subst hcontent
  refine Triple.bind (library_spec h fun kind hkind => hX fun entries manifest files hh => ?_)
    fun entries => Triple.of_fact fun hzip => ?_
  · rw [hh.zip] at hkind
    cases hkind
  have hentries : ∀ {es manifest files}, Header lib archive es manifest files → es = entries :=
    fun hh => Except.ok.inj (hh.zip.symm.trans hzip)
  refine Triple.bind (require_spec h fun hno => hX fun es manifest files hh => ?_) fun _ =>
    Triple.of_fact fun hthree => ?_
  · exact hno (hentries hh ▸ hh.three)
  refine Triple.bind (require_spec h fun hno => hX fun es manifest files hh => ?_) fun _ =>
    Triple.of_fact fun htotal => ?_
  · exact hno (hentries hh ▸ hh.total)
  refine Triple.bind (readManifest_spec h fun hno => hX fun es manifest files hh => ?_)
    fun manifest => Triple.of_fact fun hmanifest => ?_
  · exact hno manifest (hentries hh ▸ hh.described)
  have hsame : ∀ {es manifest' files}, Header lib archive es manifest' files → manifest' = manifest :=
    fun hh => HasManifest.unique (hentries hh ▸ hh.described) hmanifest
  refine Triple.bind (asObject_spec h fun hno => hX fun es manifest' files hh => ?_) fun files =>
    Triple.of_fact fun hfiles => ?_
  · exact hno files (hsame hh ▸ hh.fileTable)
  refine Triple.bind (require_spec h fun hno => hX fun es manifest' files' hh => hno ?_) fun _ =>
    Triple.of_fact fun hlisted => ?_
  · have htable := hh.fileTable
    rw [hsame hh, hfiles] at htable
    cases htable
    exact hh.listed
  exact Triple.pure fun _ hw =>
    ⟨⟨hzip, hthree, htotal, hmanifest, hfiles, hlisted⟩, hw⟩

theorem Matches.unique {entries : List ZipEntry} {files : Entries Num} {name : String}
    {content content' : Bytes} (h : Matches lib entries files name content)
    (h' : Matches lib entries files name content') : content = content' := by
  obtain ⟨entry, item, -, hitem, -, -, -, rfl, -⟩ := h
  obtain ⟨entry', item', -, hitem', -, -, -, rfl, -⟩ := h'
  rw [Option.some.inj (hitem.symm.trans hitem')]

theorem unpackPayloads_spec {entries : List ZipEntry} {files : Entries Num} (hs : Stage B stage q)
    (hPE : ∀ files t, FileTree.Filled B q files t → PE t)
    (hX : (∀ config database, ¬ (Matches lib entries files "config.json" config ∧
      Matches lib entries files "network_stats.db" database)) → X) :
    Triple (On calm B) (payloads.forM (unpackPayload lib entries files stage))
      (fun _ w => ∃ config database T, (Matches lib entries files "config.json" config ∧
        Matches lib entries files "network_stats.db" database) ∧
        FileTree.Filled B q (bothFiles config database) T ∧ On calm T w) (Err calm X PE) := by
  refine Triple.bind (unpackPayload_spec hs (FileTree.Filled.empty hs.empty) rfl hPE
    fun hno => hX fun config database hboth => hno config hboth.1) fun _ => ?_
  refine Triple.of_exists fun config => Triple.of_exists fun T => Triple.of_fact fun hconfig =>
    Triple.of_fact fun hT => ?_
  refine Triple.bind (unpackPayload_spec hs hT rfl hPE
    fun hno => hX fun config database hboth => hno database hboth.2) fun _ => ?_
  refine Triple.of_exists fun database => Triple.of_exists fun T' => Triple.of_fact fun hdatabase =>
    Triple.of_fact fun hT' => ?_
  exact Triple.pure fun w hw => ⟨config, database, T', ⟨hconfig, hdatabase⟩, hT', hw⟩

theorem unpackOpened_spec {path : Path} {archive : Bytes} (hs : Stage B stage q)
    (hat : B.fileAt path = some archive) (hPE : ∀ files t, FileTree.Filled B q files t → PE t)
    (hX : (∀ c : Contents Num, ¬ ∃ entries, Header lib archive entries c.manifest c.files ∧
      Sound lib entries c.files c.config c.database c.settings c.tables) → X) :
    Triple (On calm B) (unpackOpened lib path stage)
      (fun summary w => ∃ c : Contents Num, (∃ entries,
        Header lib archive entries c.manifest c.files ∧
        Sound lib entries c.files c.config c.database c.settings c.tables) ∧
        summary = c.summary ∧ ∃ T, FileTree.Filled B q c.payload T ∧ On calm T w)
      (Err calm X PE) := by
  have hstart : FileTree.Filled B q (fun _ => none) B := FileTree.Filled.empty hs.empty
  refine Triple.bind (readHeader_spec hat (hPE _ _ hstart) fun hno => hX ?_) fun r =>
    Triple.of_fact fun hheader => ?_
  · rintro c ⟨entries, hh, -⟩
    exact hno entries c.manifest c.files hh
  obtain ⟨entries, manifest, files⟩ := r
  -- From here on only the payloads can be wrong.
  have hrest : (∀ config database settings tables,
      ¬ Sound lib entries files config database settings tables) → X := by
    refine fun hno => hX ?_
    rintro c ⟨entries', hh, hsound⟩
    obtain ⟨rfl, hm, rfl⟩ := hheader.unique hh
    exact hno _ _ _ _ hsound
  refine Triple.bind (unpackPayloads_spec hs hPE fun hno => hrest
    fun config database settings tables hh => hno config database ⟨hh.configFile, hh.databaseFile⟩)
    fun _ => ?_
  refine Triple.of_exists fun config => Triple.of_exists fun database => Triple.of_exists fun T =>
    Triple.of_fact fun hmatch => Triple.of_fact fun hT => ?_
  have hnow := hPE _ _ hT
  have hconfig : T.fileAt (stage ++ ["config.json"]) = some config :=
    hT.fileAt hs.empty hs.locate rfl
  have hdatabase : T.fileAt (stage ++ ["network_stats.db"]) = some database :=
    hT.fileAt hs.empty hs.locate rfl
  refine Triple.bind (checkDatabase_spec hdatabase hnow fun hno => hrest
    fun config' database' settings tables hh => hno tables ?_) fun tables =>
    Triple.of_fact fun hcheck => ?_
  · rw [hmatch.2.unique hh.databaseFile]
    exact ⟨hh.whole, hh.counted⟩
  refine Triple.bind (checkConfig_spec hconfig hnow fun hno => hrest
    fun config' database' settings tables hh => hno settings ?_) fun dpapi =>
    Triple.of_fact fun hsettings => ?_
  · rw [hmatch.1.unique hh.configFile]
    exact ⟨hh.small, hh.parsed⟩
  obtain ⟨settings, hsmall, hparsed, rfl⟩ := hsettings
  refine Triple.pure fun w hw => ⟨⟨manifest, files, config, database, settings, tables⟩,
    ⟨entries, hheader, ?_⟩, rfl, T, hT, hw⟩
  exact ⟨hmatch.1, hmatch.2, hcheck.1, hcheck.2, hsmall, hparsed⟩

/-- **What `unpack_verified` does**, under all faults, and why it refuses without any. -/
theorem unpackVerified_spec {path : Path} (hs : Stage B stage q)
    (hPE : ∀ files t, FileTree.Filled B q files t → PE t)
    (hX : (∀ archive (c : Contents Num), B.fileAt path = some archive →
      ¬ Genuine lib archive c) → X) :
    Triple (On calm B) (unpackVerified lib path stage)
      (fun summary w => ∃ archive, ∃ c : Contents Num, B.fileAt path = some archive ∧
        Genuine lib archive c ∧ summary = c.summary ∧
        ∃ T, FileTree.Filled B q c.payload T ∧ On calm T w)
      (Err calm X PE) := by
  have hnow : PE B := hPE _ _ (FileTree.Filled.empty hs.empty)
  refine Triple.bind (isFile_spec hnow) fun there => Triple.of_fact fun hthere => ?_
  refine Triple.bind (require_spec hnow fun hno => hX fun archive c hat => ?_) fun _ =>
    Triple.of_fact fun hyes => ?_
  · rw [hat] at hthere
    exact absurd hthere hno
  obtain ⟨archive, hat⟩ := Option.isSome_iff_exists.mp (hthere.symm.trans hyes)
  refine Triple.bind (fileSize_spec hnow hat) fun size => Triple.of_fact fun hsize => ?_
  subst hsize
  refine Triple.bind (require_spec hnow fun hno => hX fun archive' c hat' hgenuine => hno ?_)
    fun _ => Triple.of_fact fun hfits => ?_
  · rw [Option.some.inj (hat.symm.trans hat')]
    exact hgenuine.1
  refine Triple.rethrow ((unpackOpened_spec hs hat hPE fun hno => hX
    fun archive' c hat' hgenuine => hno c ?_).weaken (fun _ => id) (fun summary w hw => ?_)
    (fun _ _ => id))
  · rw [Option.some.inj (hat.symm.trans hat')]
    exact hgenuine.2
  · obtain ⟨c, hinside, hsummary, hT⟩ := hw
    exact ⟨archive, c, hat, ⟨hfits, hinside⟩, hsummary, hT⟩

/-- What is accepted is genuine, and is what is unpacked. -/
theorem unpackVerified_genuine {path : Path} {w w' : World} {summary : Summary Num}
    (hs : Stage w.tree stage q) (hrun : unpackVerified lib path stage w = .ok summary w') :
    ∃ archive, ∃ c : Contents Num, w.tree.fileAt path = some archive ∧ Genuine lib archive c ∧
      summary = c.summary ∧ FileTree.Filled w.tree q c.payload w'.tree := by
  have hspec : Triple (On false w.tree) (unpackVerified lib path stage) _
      (Err false True fun _ => True) :=
    unpackVerified_spec hs (fun _ _ _ => trivial) fun _ => trivial
  obtain ⟨archive, c, hat, hgenuine, hsummary, T, hT, hw⟩ :=
    hspec.returned (On.of_tree rfl) hrun
  exact ⟨archive, c, hat, hgenuine, hsummary, hw.2 ▸ hT⟩

/-- What is genuine is accepted, if nothing fails. -/
theorem unpackVerified_accepts {path : Path} {w : World} {archive : Bytes} {c : Contents Num}
    (hs : Stage w.tree stage q) (hcalm : w.faults = []) (hat : w.tree.fileAt path = some archive)
    (hgenuine : Genuine lib archive c) :
    ∃ summary w', unpackVerified lib path stage w = .ok summary w' := by
  have hspec : Triple (On true w.tree) (unpackVerified lib path stage) _
      (Err true False fun _ => True) :=
    unpackVerified_spec hs (fun _ _ _ => trivial) fun hno => hno archive c hat hgenuine
  cases hrun : unpackVerified lib path stage w with
  | ok summary w' => exact ⟨summary, w', rfl⟩
  | error e w' => exact ((hspec.raised ⟨fun _ => hcalm, rfl⟩ hrun).2 rfl).elim

end NetPulse.Recovery
