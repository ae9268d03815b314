import NetPulse.Recovery.Create

/-
# NetPulse.Recovery.Restorable — which created archives are accepted

`create` bounds the configuration, the snapshot and their sum; `unpackVerified` bounds the archive
file, the manifest, and the sum of all three members. `created_restorable_iff`: an archive that was
created is accepted, with the payloads and the hashes of its manifest, exactly when it keeps to these
bounds as well. `fullBackup_refused` is one that does not: its payloads fill the limit, and the
manifest comes on top.
-/

namespace NetPulse.Recovery

open NetPulse.Lib NetPulse.Lib.Json NetPulse.Lib.Prog

variable {Num : Type} (lib : Library Num)

/-! ## §1 What is asked of the libraries, and of the sizes -/

/-- The zip library reads back the names, sizes and contents that it has written. -/
def Library.ReadsBack (files : List (String × Bytes)) : Prop :=
  ∃ entries, lib.readZip (lib.writeZip files) = .ok entries ∧
    List.Forall₂ (fun file e => e.filename = file.1 ∧ e.fileSize = file.2.length ∧
      e.content = file.2 ∧ e.failure = none) files entries

/-- The bounds of `unpack_verified`. -/
structure Fits (o : Occasion) (config database : Bytes) : Prop where
  archive : (archiveFor lib o config database).length ≤ maxBytes
  total : config.length + (lib.dumps (manifestFor lib o config database)).length +
    database.length ≤ maxBytes
  manifest : (lib.dumps (manifestFor lib o config database)).length ≤ 16384

/-- `unpack_verified` accepts the archive, and gives the payloads and hashes that were recorded. -/
def Restorable (archive stage : Path) (config database : Bytes) (w : World) : Prop :=
  ∃ summary w', unpackVerified lib archive stage w = .ok summary w' ∧
    summary.files = filesOf lib config database ∧
    w'.tree.fileAt (stage ++ ["config.json"]) = some config ∧
    w'.tree.fileAt (stage ++ ["network_stats.db"]) = some database

/-- The contents of a created archive. -/
def contentsFor (o : Occasion) (config database : Bytes) (settings : Entries Num) : Contents Num where
  manifest := [("format", .str formatName), ("schema", lib.num 1), ("version", .str o.version),
    ("created", .str o.created), ("files", .obj (filesOf lib config database)),
    ("tables", lib.num (tablesOf lib database)), ("dpapi_values", lib.num (dpapiOf lib config))]
  files := filesOf lib config database
  config := config
  database := database
  settings := settings
  tables := tablesOf lib database

variable {lib}
variable {o : Occasion} {config database : Bytes}

theorem isNumber_num (n : Nat) : lib.isNumber (some (lib.num n)) n = true := by
  show lib.equalsNat (lib.ofNat n) n = true
  rw [lib.equalsNat_ofNat]
  exact decide_eq_true rfl

/-! ## §2 Created archives are genuine, up to the bounds -/

/-- The three members, as they are read back. -/
structure ReadAs (lib : Library Num) (o : Occasion) (config database : Bytes) (c m d : ZipEntry) :
    Prop where
  zip : lib.readZip (archiveFor lib o config database) = .ok [c, m, d]
  configEntry : c.filename = "config.json" ∧ c.fileSize = config.length ∧ c.content = config ∧
    c.failure = none
  manifestEntry : m.filename = "manifest.json" ∧
    m.fileSize = (lib.dumps (manifestFor lib o config database)).length ∧
    m.content = lib.dumps (manifestFor lib o config database) ∧ m.failure = none
  databaseEntry : d.filename = "network_stats.db" ∧ d.fileSize = database.length ∧
    d.content = database ∧ d.failure = none

theorem Library.ReadsBack.entries (h : lib.ReadsBack (membersFor lib o config database)) :
    ∃ c m d, ReadAs lib o config database c m d := by
  obtain ⟨entries, hzip, hentries⟩ := h
  obtain ⟨c, rest, hc, hrest, rfl⟩ := List.forall₂_cons_left_iff.mp hentries
  obtain ⟨m, rest', hm, hrest', rfl⟩ := List.forall₂_cons_left_iff.mp hrest
  obtain ⟨d, rest'', hd, hrest'', rfl⟩ := List.forall₂_cons_left_iff.mp hrest'
  obtain rfl := List.forall₂_nil_left_iff.mp hrest''
  exact ⟨c, m, d, hzip, hc, hm, hd⟩

section Members

variable {c m d : ZipEntry}

theorem ReadAs.findConfig (h : ReadAs lib o config database c m d) :
    [c, m, d].find? (·.filename = "config.json") = some c := by
  simp [h.configEntry.1]

theorem ReadAs.findManifest (h : ReadAs lib o config database c m d) :
    [c, m, d].find? (·.filename = "manifest.json") = some m := by
  simp [h.configEntry.1, h.manifestEntry.1]

theorem ReadAs.findDatabase (h : ReadAs lib o config database c m d) :
    [c, m, d].find? (·.filename = "network_stats.db") = some d := by
  simp [h.configEntry.1, h.manifestEntry.1, h.databaseEntry.1]

theorem ReadAs.total (h : ReadAs lib o config database c m d) :
    ([c, m, d].map (·.fileSize)).sum =
      config.length + (lib.dumps (manifestFor lib o config database)).length + database.length := by
  show c.fileSize + (m.fileSize + (d.fileSize + 0)) = _
  rw [h.configEntry.2.1, h.manifestEntry.2.1, h.databaseEntry.2.1]
  omega

/-- A payload that has been recorded is found to be as recorded. -/
theorem matches_recorded {entries : List ZipEntry} {files : Entries Num} {name : String}
    {content : Bytes} {item : ZipEntry}
    (hentry : Dict.lookup name files = some (fileEntry lib content))
    (hitem : entries.find? (·.filename = name) = some item)
    (hread : item.fileSize = content.length ∧ item.content = content ∧ item.failure = none)
    (hlimit : content.length ≤ limitOf name) : Matches lib entries files name content := by
  refine ⟨_, item, hentry, hitem, ?_, hlimit, hread.2.2, hread.2.1, ?_⟩
  · rw [hread.1]
    exact isNumber_num content.length
  · show decide (lib.digest content = lib.digest content) = true
    exact decide_eq_true rfl

theorem genuine_of_fits (hread : ReadAs lib o config database c m d)
    (hjson : lib.loads (lib.dumps (manifestFor lib o config database)) =
      some (manifestFor lib o config database)) {settings : Entries Num} {tables : Nat}
    (hsmall : config.length ≤ maxConfig) (hsettings : lib.loadsText config = some (.obj settings))
    (hwhole : lib.integrityCheck database = .ok ["ok"])
    (htables : lib.tableCount database = .ok tables) (hfits : Fits lib o config database) :
    Genuine lib (archiveFor lib o config database) (contentsFor lib o config database settings) := by
  refine ⟨hfits.archive, [c, m, d], ⟨hread.zip, ⟨rfl, ?_⟩, ?_, ⟨⟨m, hread.findManifest, ?_,
    hread.manifestEntry.2.2.2, ?_⟩, ⟨rfl, isNumber_num 1⟩⟩, rfl, rfl⟩, ?_⟩
  · simp [sameNames, members, hread.configEntry.1, hread.manifestEntry.1, hread.databaseEntry.1]
  · rw [hread.total]
    exact hfits.total
  · rw [hread.manifestEntry.2.1]
    exact hfits.manifest
  · rw [hread.manifestEntry.2.2.1]
    exact hjson
  · refine ⟨matches_recorded rfl hread.findConfig hread.configEntry.2 hsmall,
      matches_recorded rfl hread.findDatabase hread.databaseEntry.2 ?_, hwhole, ?_, hsmall, hsettings⟩
    · exact Nat.le_trans (Nat.le_add_left _ _) hfits.total
    · exact htables.trans (congrArg Except.ok (recorded hsettings htables).1)

/-- What is accepted keeps to the bounds. -/
theorem fits_of_genuine (hread : ReadAs lib o config database c m d) {contents : Contents Num}
    (h : Genuine lib (archiveFor lib o config database) contents) : Fits lib o config database := by
  obtain ⟨hsize, entries, hheader, -⟩ := h
  obtain rfl := Except.ok.inj (hread.zip.symm.trans hheader.zip)
  refine ⟨hsize, hread.total ▸ hheader.total, ?_⟩
  obtain ⟨item, hitem, hsmall, -⟩ := hheader.described.text
  rw [hread.findManifest] at hitem
  rw [← hread.manifestEntry.2.1, Option.some.inj hitem]
  exact hsmall

end Members

theorem Sound.unique {entries : List ZipEntry} {files : Entries Num} {config config' : Bytes}
    {database database' : Bytes} {settings settings' : Entries Num} {tables tables' : Nat}
    (h : Sound lib entries files config database settings tables)
    (h' : Sound lib entries files config' database' settings' tables') :
    config = config' ∧ database = database' ∧ settings = settings' ∧ tables = tables' := by
  obtain rfl := h.configFile.unique h'.configFile
  obtain rfl := h.databaseFile.unique h'.databaseFile
  cases h.parsed.symm.trans h'.parsed
  exact ⟨rfl, rfl, rfl, Except.ok.inj (h.counted.symm.trans h'.counted)⟩

/-- An archive has one content. -/
theorem Genuine.unique {archive : Bytes} {c c' : Contents Num} (h : Genuine lib archive c)
    (h' : Genuine lib archive c') : c = c' := by
  obtain ⟨-, entries, hheader, hsound⟩ := h
  obtain ⟨-, entries', hheader', hsound'⟩ := h'
  obtain ⟨manifest, files, config, database, settings, tables⟩ := c
  obtain ⟨manifest', files', config', database', settings', tables'⟩ := c'
  obtain ⟨rfl, rfl, rfl⟩ := hheader.unique hheader'
  obtain ⟨rfl, rfl, rfl, rfl⟩ := hsound.unique hsound'
  rfl

/-! ## §3 The round trip -/

/-- In a calm world, where the archive is and the stage is new. -/
theorem restorable_iff_fits {path stage q : Path} {w : World} (hok : Acceptable lib config database)
    (hat : w.tree.fileAt path = some (archiveFor lib o config database))
    (hzip : lib.ReadsBack (membersFor lib o config database))
    (hjson : lib.loads (lib.dumps (manifestFor lib o config database)) =
      some (manifestFor lib o config database))
    (hcalm : w.faults = []) (hstage : Stage w.tree stage q) :
    Restorable lib path stage config database w ↔ Fits lib o config database := by
  obtain ⟨c, m, d, hread⟩ := hzip.entries
  constructor
  · rintro ⟨summary, w', hrun, -⟩
    obtain ⟨archive, contents, hat', hgenuine, -⟩ := unpackVerified_genuine hstage hrun
    cases hat.symm.trans hat'
    exact fits_of_genuine hread hgenuine
  · intro hfits
    obtain ⟨settings, hsettings⟩ := hok.parsed
    obtain ⟨tables, htables⟩ := hok.counted
    have hgenuine := genuine_of_fits hread hjson hok.small hsettings hok.whole htables hfits
    obtain ⟨summary, w', hrun⟩ := unpackVerified_accepts hstage hcalm hat hgenuine
    obtain ⟨archive, contents, hat', hgenuine', hsummary, hT⟩ := unpackVerified_genuine hstage hrun
    cases hat.symm.trans hat'
    obtain rfl := hgenuine'.unique hgenuine
    refine ⟨summary, w', hrun, ?_, ?_, ?_⟩
    · rw [hsummary]
      rfl
    · exact hT.fileAt hstage.empty hstage.locate rfl
    · exact hT.fileAt hstage.empty hstage.locate rfl

/-- **Which created archives can be restored**, in any later world where the archive is still there. -/
theorem created_restorable_iff (lib : Library Num) (o : Occasion)
    (source destination stage q : Path) (config database : Bytes) (w w' later : World)
    (receipt : Receipt) (hconfig : w.tree.fileAt (source ++ ["config.json"]) = some config)
    (hsnapshot : o.snapshot = .ok database)
    (hcreate : create lib o source destination w = .ok receipt w')
    (hzip : lib.ReadsBack (membersFor lib o config database))
    (hjson : lib.loads (lib.dumps (manifestFor lib o config database)) =
      some (manifestFor lib o config database))
    (hlater : later.tree.fileAt receipt.archive = w'.tree.fileAt receipt.archive)
    (hcalm : later.faults = []) (hstage : Stage later.tree stage q) :
    Restorable lib receipt.archive stage config database later ↔ Fits lib o config database := by
  obtain ⟨config', database', hconfig', hsnapshot', hok, rfl, hat⟩ := create_created hcreate
  obtain rfl := Option.some.inj (hconfig.symm.trans hconfig')
  obtain rfl := Except.ok.inj (hsnapshot.symm.trans hsnapshot')
  exact restorable_iff_fits hok (hlater.trans hat) hzip hjson hcalm hstage

/-! ## §4 Two backups -/

/-- An empty directory tree. -/
def bareTree : Tree where
  node p := if p = [] then some .dir else none
  root := rfl
  closed p n h := absurd (if_neg (List.append_ne_nil_of_right_ne_nil p (List.cons_ne_nil n []))) h

/-- The data directory, and one for the backups. -/
def sampleTree (config database : Bytes) : Tree :=
  (((bareTree.put [] "data" .dir rfl rfl).put [] "backups" .dir rfl rfl).put
    ["data"] "config.json" (.file config) rfl rfl).put
      ["data"] "network_stats.db" (.file database) rfl rfl

def sampleOccasion (database : Bytes) : Occasion where
  version := "2.8.1"
  created := "2026-01-01T00:00:00+00:00"
  tmp := ".netpulse-backup-00000000"
  name := "netpulse_auto_20260101_000000_00000000.zip"
  snapshot := .ok database

/-- Later: the archive, and a new directory to unpack it. -/
def laterTree (archive : Bytes) : Tree :=
  ((bareTree.put [] "backups" .dir rfl rfl).put ["backups"]
    "netpulse_auto_20260101_000000_00000000.zip" (.file archive) rfl rfl).put
      [] "stage" .dir rfl rfl

/-- SHA-256 of two contents. -/
def sampleDigest (config : Bytes) (configHash databaseHash : String) (content : Bytes) : String :=
  if content = config then configHash else databaseHash

/-- The manifest is 376 bytes long, and the zip is small. -/
def sampleText : Bytes := List.replicate 376 0x20

def sampleZip : Bytes := [0x50, 0x4b, 0x03, 0x04]

/-- The libraries, as they answer for one configuration, one database and the manifest of the two. -/
def sampleLibrary (config database : Bytes) (configHash databaseHash : String) : Library Nat where
  digest := sampleDigest config configHash databaseHash
  readZip _ := .ok [⟨"config.json", config.length, [config], none⟩,
    ⟨"manifest.json", sampleText.length, [sampleText], none⟩,
    ⟨"network_stats.db", database.length, [database], none⟩]
  writeZip _ := sampleZip
  loads _ := some (.obj [("format", .str formatName), ("schema", .num 1), ("version", .str "2.8.1"),
    ("created", .str "2026-01-01T00:00:00+00:00"),
    ("files", .obj [("config.json", .obj [("size", .num config.length),
        ("sha256", .str (sampleDigest config configHash databaseHash config))]),
      ("network_stats.db", .obj [("size", .num database.length),
        ("sha256", .str (sampleDigest config configHash databaseHash database))])]),
    ("tables", .num 0), ("dpapi_values", .num 0)])
  loadsText _ := some (.obj [])
  dumps _ := sampleText
  integrityCheck _ := .ok ["ok"]
  tableCount _ := .ok 0
  ofNat := id
  equalsNat n m := decide (n = m)
  equalsNat_ofNat _ _ := rfl

section Samples

variable (config database : Bytes) (configHash databaseHash : String)

theorem sample_readsBack : (sampleLibrary config database configHash databaseHash).ReadsBack
    (membersFor (sampleLibrary config database configHash databaseHash) (sampleOccasion database)
      config database) := by
  refine ⟨_, rfl, ?_⟩
  refine List.Forall₂.cons ⟨rfl, rfl, ?_, rfl⟩ (List.Forall₂.cons ⟨rfl, rfl, ?_, rfl⟩
    (List.Forall₂.cons ⟨rfl, rfl, ?_, rfl⟩ List.Forall₂.nil))
  · exact List.append_nil config
  · exact List.append_nil sampleText
  · exact List.append_nil database

theorem sample_loads : (sampleLibrary config database configHash databaseHash).loads
    ((sampleLibrary config database configHash databaseHash).dumps (manifestFor
      (sampleLibrary config database configHash databaseHash) (sampleOccasion database) config
      database)) = some (manifestFor (sampleLibrary config database configHash databaseHash)
        (sampleOccasion database) config database) := rfl

theorem sample_acceptable (hsmall : config.length ≤ maxConfig)
    (hsum : config.length + database.length ≤ maxBytes) :
    Acceptable (sampleLibrary config database configHash databaseHash) config database :=
  ⟨hsmall, hsum, ⟨[], rfl⟩, rfl, 0, rfl⟩

theorem sample_ready (hsum : config.length + database.length ≤ maxBytes) :
    Ready (sampleTree config database) (sampleOccasion database) ["data"] ["backups"] config where
  config := FileTree.fileAt_of_node rfl
  database := ⟨database, FileTree.fileAt_of_node rfl, Nat.le_trans (Nat.le_add_left _ _) hsum⟩
  dir := rfl
  stage := rfl
  target := (fun h => by cases h)
  apart := by
    show "netpulse_auto_20260101_000000_00000000.zip" ≠ ".netpulse-backup-00000000"
    decide

theorem sample_stage (archive : Bytes) : Stage (laterTree archive) ["stage"] ["stage"] :=
  ⟨FileTree.locate_of_present (Or.inl rfl), rfl, FileTree.put_below⟩

theorem sample_fits_iff :
    Fits (sampleLibrary config database configHash databaseHash) (sampleOccasion database) config
      database ↔ config.length + 376 + database.length ≤ maxBytes := by
  have htext : ((sampleLibrary config database configHash databaseHash).dumps
      (manifestFor (sampleLibrary config database configHash databaseHash)
        (sampleOccasion database) config database)).length = 376 := List.length_replicate
  constructor
  · intro hfits
    have htotal := hfits.total
    rwa [htext] at htotal
  · intro htotal
    refine ⟨?_, htext.symm ▸ htotal, htext.symm ▸ (by decide)⟩
    show sampleZip.length ≤ maxBytes
    decide

/-- A run of `create` on the sample. -/
theorem sample_created (hsmall : config.length ≤ maxConfig)
    (hsum : config.length + database.length ≤ maxBytes) :
    ∃ w', create (sampleLibrary config database configHash databaseHash) (sampleOccasion database)
        ["data"] ["backups"] ⟨sampleTree config database, [], false⟩ =
          .ok ⟨["backups", "netpulse_auto_20260101_000000_00000000.zip"], 0, 0⟩ w' ∧
      w'.tree.fileAt ["backups", "netpulse_auto_20260101_000000_00000000.zip"] = some sampleZip := by
  obtain ⟨receipt, w', hrun⟩ := create_succeeds (w := ⟨sampleTree config database, [], false⟩) rfl rfl rfl
    (sample_acceptable config database configHash databaseHash hsmall hsum)
    (sample_ready config database hsum)
  obtain ⟨config', database', hconfig', hsnapshot, hok, rfl, hat⟩ := create_created hrun
  exact ⟨w', hrun, hat⟩

end Samples

/-- `{}` -/
def smallConfig : Bytes := [0x7b, 0x7d]

/-- An SQLite database of one page, without tables. -/
def smallDatabase : Bytes :=
  [83, 81, 76, 105, 116, 101, 32, 102, 111, 114, 109, 97, 116, 32, 51, 0, 16, 0, 1, 1, 0, 64, 32, 32,
    0, 0, 0, 1, 0, 0, 0, 1, 0, 0, 0, 0, 0, 0, 0, 0, 0, 0, 0, 1, 0, 0, 0, 0, 0, 0, 0, 0, 0, 0, 0, 0, 0,
    0, 0, 0, 0, 0, 0, 0, 0, 0, 0, 0, 0, 0, 0, 0, 0, 0, 0, 0, 0, 0, 0, 0, 0, 0, 0, 0, 0, 0, 0, 0, 0, 0,
    0, 0, 0, 0, 0, 1, 0, 46, 122, 112, 13, 0, 0, 0, 0, 16] ++ List.replicate 3990 0

def smallLibrary : Library Nat :=
  sampleLibrary smallConfig smallDatabase
    "44136fa355b3678a1146ad16f7e8649e94fb4fc21fe77e8310c060f61caaff8a"
    "270a8e1710e9162798b17cafa31a54a8f68b80c54052b8ff039c7160bd55e48e"

theorem smallDatabase_length : smallDatabase.length = 4096 := by
  simp only [smallDatabase, List.length_append, List.length_replicate, List.length_cons,
    List.length_nil]

/-- A small backup can be restored. -/
theorem smallBackup_restorable : ∃ receipt w', create smallLibrary (sampleOccasion smallDatabase)
      ["data"] ["backups"] ⟨sampleTree smallConfig smallDatabase, [], false⟩ = .ok receipt w' ∧
    Restorable smallLibrary receipt.archive ["stage"] smallConfig smallDatabase
      ⟨laterTree sampleZip, [], false⟩ := by
  obtain ⟨w', hrun, hat⟩ := sample_created smallConfig smallDatabase
    "44136fa355b3678a1146ad16f7e8649e94fb4fc21fe77e8310c060f61caaff8a"
    "270a8e1710e9162798b17cafa31a54a8f68b80c54052b8ff039c7160bd55e48e" (by decide)
    (by rw [smallDatabase_length]; decide)
  refine ⟨_, w', hrun, ?_⟩
  refine (created_restorable_iff smallLibrary (sampleOccasion smallDatabase) ["data"] ["backups"]
    ["stage"] ["stage"] smallConfig smallDatabase _ w' ⟨laterTree sampleZip, [], false⟩ _
    (FileTree.fileAt_of_node rfl) rfl hrun (sample_readsBack _ _ _ _) (sample_loads _ _ _ _)
    ((FileTree.fileAt_of_node rfl).trans hat.symm) rfl (sample_stage sampleZip)).mpr ?_
  rw [smallLibrary, sample_fits_iff, smallDatabase_length]
  decide

/-- `{}` in a page of spaces. -/
def pageConfig : Bytes := [0x7b, 0x7d] ++ List.replicate 4094 0x20

/-- A database of 524287 pages of 4096 bytes. -/
def fullDatabase : Bytes := List.replicate (2 ^ 31 - 4096) 0

def fullLibrary : Library Nat := sampleLibrary pageConfig fullDatabase "" ""

/-- **The payloads fill the limit**: `create` succeeds, `unpack_verified` refuses. -/
theorem fullBackup_refused : ∃ receipt w', create fullLibrary (sampleOccasion fullDatabase)
      ["data"] ["backups"] ⟨sampleTree pageConfig fullDatabase, [], false⟩ = .ok receipt w' ∧
    pageConfig.length + fullDatabase.length = maxBytes ∧
    fullLibrary.ReadsBack (membersFor fullLibrary (sampleOccasion fullDatabase) pageConfig fullDatabase) ∧
    (laterTree sampleZip).fileAt receipt.archive = w'.tree.fileAt receipt.archive ∧
    ¬ Restorable fullLibrary receipt.archive ["stage"] pageConfig fullDatabase
      ⟨laterTree sampleZip, [], false⟩ := by
  have hpage : pageConfig.length = 4096 := by
    rw [pageConfig, List.length_append, List.length_replicate]
    rfl
  have hfull : fullDatabase.length = 2 ^ 31 - 4096 := List.length_replicate
  have hsum : pageConfig.length + fullDatabase.length = maxBytes := by
    rw [hpage, hfull]
    decide
  have hsmall : pageConfig.length ≤ maxConfig := by
    rw [hpage]
    decide
  obtain ⟨w', hrun, hat⟩ := sample_created pageConfig fullDatabase "" "" hsmall hsum.le
  refine ⟨_, w', hrun, hsum, sample_readsBack _ _ _ _, (FileTree.fileAt_of_node rfl).trans hat.symm,
    fun hrestorable => ?_⟩
  have hacceptable := sample_acceptable pageConfig fullDatabase "" "" hsmall hsum.le
  have hfits := (restorable_iff_fits hacceptable (FileTree.fileAt_of_node rfl)
    (sample_readsBack pageConfig fullDatabase "" "") (sample_loads pageConfig fullDatabase "" "") rfl
    (sample_stage sampleZip)).mp hrestorable
  have htotal := (sample_fits_iff _ _ _ _).mp hfits
  omega

end NetPulse.Recovery
