import NetPulse.Updater.Version
import NetPulse.Lib.Except
import NetPulse.Lib.Machine
import Mathlib.Logic.Function.Basic

/-
# NetPulse.Updater.Release — from a release in the mesh to the replacement of the binary

`Updater.check` asks the sources for their manifests and remembers them by version, `download`
fetches the binary of a version, and `apply` hands a staged binary to the process that replaces the
one that runs. The hash of the manifest is the only thing that ties the two together.

`launches_vetted`: in every run of checks, downloads, applications and restarts, with the staging
directory changing in between as it likes, a file that is launched has the hash of the manifest that
is known for its version, as long as each `apply` finds that manifest before it starts, hash
included, or fetches the file itself over a stream. `stale_file_launched` is a run where it finds
neither: `apply` asks the sources, and compares nothing.
-/

namespace NetPulse.Updater

open NetPulse.Lib NetPulse.Lib.Json

variable {Num Blob : Type}

/-! ## §1 Data -/

/-- The part of `UpdateConfig`, and of the process, that the methods read. -/
structure Settings where
  enabled : Bool
  /-- The nodes that are asked for releases. -/
  sources : List String
  requireSigned : Bool
  allowDowngrade : Bool
  /-- Not a run from the sources. -/
  frozen : Bool

/-- `files.read` of one manifest. -/
inductive Reading (Num : Type) where
  /-- No answer, or one that cannot be decoded. -/
  | unavailable
  /-- An answer that makes the method fail. -/
  | broken
  | parsed (man : Json Num)

/-- What a source answers: the manifests in the order in which they arrive. -/
inductive Answer (Num : Type) where
  | failed
  | found (readings : List (Reading Num))

/-- How `files.download` ends, and what is staged then. -/
inductive Delivery (Blob : Type) where
  | refused (staged : Option Blob)
  /-- The file is there already: `done` and `path`. -/
  | done (staged : Option Blob)
  /-- A stream, until the file has appeared or the time is over. -/
  | streamed (staged : Option Blob)

structure Release (Num Blob : Type) where
  /-- `read_version()` -/
  current : String
  /-- `_known`: the manifests by version. -/
  known : Dict String (Entries Num)
  /-- The staging directory, by the version in the name of the file. -/
  staging : String → Option Blob
  /-- The versions and files that have been launched. -/
  launches : List (String × Blob)

/-- The arguments of `apply` and what it meets on its way. -/
structure Order (Num Blob : Type) where
  version : String
  force : Bool
  /-- `pending_boot_confirm` without `boot_ok` in the state file. -/
  pending : Bool
  /-- The answers to the check that it makes, and to the one that the download makes. -/
  answers : Nat → Answer Num
  answers' : Nat → Answer Num
  delivery : Delivery Blob
  /-- `verify_signature` -/
  signed : Blob → Bool
  copies : Bool
  starts : Bool

section Methods

variable [VersionText] [Truth Num]

/-! ## §2 `check` -/

/-- `_read_one`: the version and the manifest; an exception in it makes the source fail. -/
def readOne : Reading Num → Except Unit (Option (String × Entries Num))
  | .unavailable => .ok none
  | .broken => .error ()
  | .parsed (.obj man) =>
      match Dict.lookup "version" man with
      | none => .ok none
      | some (.str ver) => .ok ((parseVersion ver).map fun _ => (ver, man))
      | some v => if v.truthy then .error () else .ok none
  | .parsed _ => .error ()

/-- `_probe`: what one source has. -/
def probe : Answer Num → Except Unit (List (String × Entries Num))
  | .failed => .error ()
  | .found readings => (readings.mapM readOne).map fun rows => rows.filterMap id

/-- What a check has found. -/
structure Checked where
  available : List String
  /-- There are errors. -/
  failed : Bool

/-- The versions of one source go into `_known`. -/
def remember (known : Dict String (Entries Num)) (rows : List (String × Entries Num)) :
    Dict String (Entries Num) :=
  rows.foldl (fun known row => known.set row.1 row.2) known

/-- All sources one after another. -/
def gather (known : Dict String (Entries Num)) :
    List (Answer Num) → Dict String (Entries Num) × Checked
  | [] => (known, ⟨[], false⟩)
  | a :: rest =>
      match probe a with
      | .error _ =>
          let (known, checked) := gather known rest
          (known, { checked with failed := true })
      | .ok rows =>
          let (known, checked) := gather (remember known rows) rest
          (known, { checked with available := rows.map Prod.fst ++ checked.available })

/-- `check` of some sources; without any it finds nothing and has no errors. -/
def check (sources : List String) (answers : Nat → Answer Num)
    (known : Dict String (Entries Num)) : Dict String (Entries Num) × Checked :=
  gather known ((List.range sources.length).map answers)

/-! ## §3 `download` -/

/-- `man.get('exe_sha256') or man.get('id')`, if it is set. -/
def hashOf (keys : List String) (man : Entries Num) : Option (Json Num) :=
  keys.findSome? fun key => (Dict.lookup key man).filter Json.truthy

/-- The file has the hash that is expected, if any is. -/
def hashFits (sha256 : Blob → String) (expected : Option (Json Num)) (file : Blob) : Bool :=
  match expected with
  | none => true
  | some (.str hash) => sha256 file = hash
  | some _ => false

/-- What the download finds staged behind the stream: a file with another hash is removed. -/
def receive (sha256 : Blob → String) (expected : Option (Json Num)) :
    Option Blob → Option Blob × Except Refusal Unit
  | none => (none, .error .downloadFailed)
  | some file => if hashFits sha256 expected file then (some file, .ok ())
      else (none, .error .hash)

/-- The call of `files.download` and what follows, with the manifest of the version. -/
def fetch (sha256 : Blob → String) (man : Entries Num) :
    Delivery Blob → Option Blob × Except Refusal Unit
  | .refused staged => (staged, .error .downloadFailed)
  | .done staged => (staged, .ok ())
  | .streamed staged => receive sha256 (hashOf ["exe_sha256", "id"] man) staged

/-- The manifest of a version, after a check if it is not known. -/
def lookUp (sources : List String) (answers : Nat → Answer Num) (version : String)
    (known : Dict String (Entries Num)) :
    Dict String (Entries Num) × Except Refusal (Entries Num) :=
  match known.get version with
  | some man => (known, .ok man)
  | none =>
      let (known, checked) := check sources answers known
      (known, if checked.failed && checked.available.isEmpty then .error .checkFailed
        else (known.get version).elim (.error .unavailable) .ok)

/-- `download` -/
def download (sha256 : Blob → String) (cfg : Settings) (version : String)
    (answers : Nat → Answer Num) (delivery : Delivery Blob) (s : Release Num Blob) :
    Release Num Blob × Except Refusal Unit :=
  let (known, found) := lookUp cfg.sources answers version s.known
  match found with
  | .error r => ({ s with known := known }, .error r)
  | .ok man =>
      let (staged, outcome) := fetch sha256 man delivery
      ({ s with known := known, staging := Function.update s.staging version staged }, outcome)

/-! ## §4 `apply` -/

/-- What `apply` asks before it does anything. -/
def mayApply (cfg : Settings) (current version : String) (force pending : Bool) :
    Except Refusal Unit := do
  require cfg.enabled .disabled
  require cfg.frozen .notFrozen
  validateTransition current version cfg.allowDowngrade force
  require (!pending) .unconfirmed

/-- `info`, which stays `None` when it takes a check to find the version. -/
def findInfo (cfg : Settings) (o : Order Num Blob) (known : Dict String (Entries Num)) :
    Dict String (Entries Num) × Except Refusal (Option (Entries Num)) :=
  match known.get o.version with
  | some man => (known, .ok (some man))
  | none =>
      let (known, checked) := check cfg.sources o.answers known
      (known, if checked.available.contains o.version then .ok none else .error .unavailable)

/-- The file that is staged, or downloaded. -/
def findStaged (sha256 : Blob → String) (cfg : Settings) (o : Order Num Blob)
    (s : Release Num Blob) : Release Num Blob × Except Refusal Blob :=
  match s.staging o.version with
  | some file => (s, .ok file)
  | none =>
      let (s, outcome) := download sha256 cfg o.version o.answers' o.delivery s
      (s, outcome.bind fun _ => (s.staging o.version).elim (.error .downloadFailed) .ok)

/-- Hash and signature of the file, and the start of the process that replaces the binary. -/
def launch (sha256 : Blob → String) (cfg : Settings) (o : Order Num Blob)
    (info : Option (Entries Num)) (file : Blob) : Except Refusal Unit := do
  require (hashFits sha256 (info.bind (hashOf ["exe_sha256"])) file) .hash
  require (!(cfg.requireSigned && !o.signed file)) .signature
  require o.copies .copy
  require o.starts .launch

/-- `apply` -/
def apply (sha256 : Blob → String) (cfg : Settings) (o : Order Num Blob)
    (s : Release Num Blob) : Release Num Blob × Except Refusal Unit :=
  match mayApply cfg s.current o.version o.force o.pending with
  | .error r => (s, .error r)
  | .ok _ =>
      let (known, info) := findInfo cfg o s.known
      let s := { s with known := known }
      match info with
      | .error r => (s, .error r)
      | .ok info =>
          let (s, staged) := findStaged sha256 cfg o s
          match staged with
          | .error r => (s, .error r)
          | .ok file =>
              match launch sha256 cfg o info file with
              | .error r => (s, .error r)
              | .ok _ => ({ s with launches := (o.version, file) :: s.launches }, .ok ())

/-! ## §5 Runs -/

inductive Event (Num Blob : Type) where
  /-- `check`, of all sources or of one. -/
  | check (node : Option String) (answers : Nat → Answer Num)
  | download (version : String) (answers : Nat → Answer Num) (delivery : Delivery Blob)
  | apply (o : Order Num Blob)
  /-- Somebody else changes the staging directory. -/
  | stage (version : String) (file : Option Blob)
  /-- Another process, perhaps of another version. -/
  | restart (current : String)

def wantedSources (cfg : Settings) (node : Option String) : List String :=
  node.elim cfg.sources fun n => cfg.sources.filter fun source => source = n

/-- The calls one after another. -/
def updater (sha256 : Blob → String) (cfg : Settings) :
    Machine (Release Num Blob) (Event Num Blob) where
  step s
    | .check node answers => some { s with known := (check (wantedSources cfg node) answers s.known).1 }
    | .download version answers delivery => some (download sha256 cfg version answers delivery s).1
    | .apply o => some (apply sha256 cfg o s).1
    | .stage version file => some { s with staging := Function.update s.staging version file }
    | .restart current => some { s with current := current, known := Dict.empty }

/-- The file has the hash of the manifest that is known for the version. -/
def Verified (sha256 : Blob → String) (s : Release Num Blob) (version : String) (file : Blob) :
    Prop :=
  ∃ man, s.known.get version = some man ∧
    Dict.lookup "exe_sha256" man = some (.str (sha256 file))

/-- What the step launches, if anything, is verified. -/
def LaunchVerified (sha256 : Blob → String) (s : Release Num Blob) (_ : Event Num Blob)
    (s' : Release Num Blob) : Prop :=
  s'.launches = s.launches ∨ ∃ version file,
    s'.launches = (version, file) :: s.launches ∧ Verified sha256 s' version file

def hasHash (man : Entries Num) : Bool := (hashOf ["exe_sha256"] man).isSome

def Delivery.isStream : Delivery Blob → Bool
  | .streamed _ => true
  | _ => false

/-- An `apply` finds a manifest with a hash for its version; or it finds none, and no file either,
and gets the file over a stream, with a hash in the manifest that its own check brings. -/
def Vetted (cfg : Settings) (s : Release Num Blob) : Event Num Blob → Prop
  | .apply o =>
      (∃ man, s.known.get o.version = some man ∧ hasHash man = true) ∨
      s.known.get o.version = none ∧ s.staging o.version = none ∧ o.delivery.isStream = true ∧
        ∀ man, (findInfo cfg o s.known).1.get o.version = some man → hasHash man = true
  | _ => True

/-! ## §6 Hashes -/

omit [VersionText] in
theorem lookup_of_hashFits {sha256 : Blob → String} {man : Entries Num} {file : Blob}
    (hman : hasHash man = true)
    (hfits : hashFits sha256 (hashOf ["exe_sha256"] man) file = true) :
    Dict.lookup "exe_sha256" man = some (.str (sha256 file)) := by
  obtain ⟨expected, hexpected⟩ := Option.isSome_iff_exists.mp hman
  rw [hexpected] at hfits
  have hlookup : Dict.lookup "exe_sha256" man = some expected := by
    simp only [hashOf, List.findSome?_cons, List.findSome?_nil] at hexpected
    split at hexpected
    · rename_i v hv
      cases hexpected
      exact (Option.filter_eq_some_iff.mp hv).1
    · cases hexpected
  cases expected with
  | str hash =>
      rw [hlookup, of_decide_eq_true hfits]
  | _ => cases hfits

omit [VersionText] in
/-- The download expects the hash that `apply` expects. -/
theorem hashOf_download {man : Entries Num} (hman : hasHash man = true) :
    hashOf ["exe_sha256", "id"] man = hashOf ["exe_sha256"] man := by
  obtain ⟨expected, hexpected⟩ := Option.isSome_iff_exists.mp hman
  rw [hexpected]
  simp only [hashOf, List.findSome?_cons, List.findSome?_nil] at hexpected ⊢
  split at hexpected
  · exact hexpected
  · cases hexpected

/-! ## §7 What a check has found is known -/

omit [VersionText] [Truth Num] in
theorem remember_keeps {version : String} {rows : List (String × Entries Num)}
    {known : Dict String (Entries Num)} (h : (known.get version).isSome = true) :
    ((remember known rows).get version).isSome = true := by
  induction rows generalizing known with
  | nil => exact h
  | cons row rest ih =>
      apply ih
      rw [Dict.get_set]
      split
      · rfl
      · exact h

omit [VersionText] [Truth Num] in
theorem remember_mem {version : String} {rows : List (String × Entries Num)}
    {known : Dict String (Entries Num)} (h : version ∈ rows.map Prod.fst) :
    ((remember known rows).get version).isSome = true := by
  induction rows generalizing known with
  | nil => cases h
  | cons row rest ih =>
      rcases List.mem_cons.mp h with rfl | h
      · show ((remember (known.set row.1 row.2) rest).get row.1).isSome = true
        apply remember_keeps
        rw [Dict.get_set_self]
        rfl
      · exact ih h

theorem gather_keeps {version : String} {answers : List (Answer Num)}
    {known : Dict String (Entries Num)} (h : (known.get version).isSome = true) :
    ((gather known answers).1.get version).isSome = true := by
  induction answers generalizing known with
  | nil => exact h
  | cons a rest ih =>
      rw [gather]
      cases probe a with
      | error u => exact ih h
      | ok rows => exact ih (remember_keeps h)

theorem gather_available {version : String} {answers : List (Answer Num)}
    {known : Dict String (Entries Num)} (h : version ∈ (gather known answers).2.available) :
    ((gather known answers).1.get version).isSome = true := by
  induction answers generalizing known with
  | nil => cases h
  | cons a rest ih =>
      rw [gather] at h ⊢
      cases hprobe : probe a with
      | error u =>
          rw [hprobe] at h
          exact ih h
      | ok rows =>
          rw [hprobe] at h
          rcases List.mem_append.mp h with hrow | hrest
          · exact gather_keeps (remember_mem hrow)
          · exact ih hrest

theorem findInfo_of_new {cfg : Settings} {o : Order Num Blob} {known : Dict String (Entries Num)}
    {info : Option (Entries Num)} (hnew : known.get o.version = none)
    (h : (findInfo cfg o known).2 = .ok info) :
    ((findInfo cfg o known).1.get o.version).isSome = true := by
  simp only [findInfo, hnew] at h ⊢
  by_cases hmem : (check cfg.sources o.answers known).2.available.contains o.version = true
  · exact gather_available (List.contains_iff_mem.mp hmem)
  · rw [if_neg hmem] at h
    cases h

/-! ## §8 What is launched -/

omit [VersionText] in
theorem launch_ok {sha256 : Blob → String} {cfg : Settings} {o : Order Num Blob}
    {info : Option (Entries Num)} {file : Blob} {u : Unit}
    (h : launch sha256 cfg o info file = .ok u) :
    hashFits sha256 (info.bind (hashOf ["exe_sha256"])) file = true := by
  simp only [launch, bind_eq_ok, require_eq_ok] at h
  obtain ⟨-, hfits, -⟩ := h
  exact hfits

theorem launches_download {sha256 : Blob → String} {cfg : Settings} {version : String}
    {answers : Nat → Answer Num} {delivery : Delivery Blob} {s : Release Num Blob} :
    (download sha256 cfg version answers delivery s).1.launches = s.launches := by
  unfold download
  split
  split <;> rfl

theorem launches_findStaged {sha256 : Blob → String} {cfg : Settings} {o : Order Num Blob}
    {s : Release Num Blob} : (findStaged sha256 cfg o s).1.launches = s.launches := by
  unfold findStaged
  split
  · rfl
  · exact launches_download

/-- **What `apply` does**: it launches nothing, or the file that it has found, with the hash that it
has found. -/
theorem apply_cases (sha256 : Blob → String) (cfg : Settings) (o : Order Num Blob)
    (s : Release Num Blob) :
    (apply sha256 cfg o s).1.launches = s.launches ∨ ∃ info file,
      (findInfo cfg o s.known).2 = .ok info ∧
      (findStaged sha256 cfg o { s with known := (findInfo cfg o s.known).1 }).2 = .ok file ∧
      hashFits sha256 (info.bind (hashOf ["exe_sha256"])) file = true ∧
      (apply sha256 cfg o s).1.launches = (o.version, file) :: s.launches ∧
      (apply sha256 cfg o s).1.known =
        (findStaged sha256 cfg o { s with known := (findInfo cfg o s.known).1 }).1.known := by
  unfold apply
  cases mayApply cfg s.current o.version o.force o.pending with
  | error r => exact Or.inl rfl
  | ok u =>
      dsimp only
      cases hinfo : (findInfo cfg o s.known).2 with
      | error r => exact Or.inl rfl
      | ok info =>
          dsimp only
          cases hfile : (findStaged sha256 cfg o { s with known := (findInfo cfg o s.known).1 }).2 with
          | error r => exact Or.inl launches_findStaged
          | ok file =>
              dsimp only
              cases hlaunch : launch sha256 cfg o info file with
              | error r => exact Or.inl launches_findStaged
              | ok u =>
                  refine Or.inr ⟨info, file, rfl, rfl, launch_ok hlaunch, ?_, rfl⟩
                  dsimp only
                  rw [launches_findStaged]

/-! ## §9 Launches are vetted -/

/-- A known manifest stays, whatever is downloaded. -/
theorem known_findStaged {sha256 : Blob → String} {cfg : Settings} {o : Order Num Blob}
    {s : Release Num Blob} {man : Entries Num} (h : s.known.get o.version = some man) :
    (findStaged sha256 cfg o s).1.known = s.known := by
  unfold findStaged
  split
  · rfl
  · simp only [download, lookUp, h]

/-- A file that comes over a stream has the hash of the manifest. -/
theorem streamed_verified {sha256 : Blob → String} {cfg : Settings} {o : Order Num Blob}
    {s : Release Num Blob} {man : Entries Num} {file : Blob}
    (hknown : s.known.get o.version = some man) (hman : hasHash man = true)
    (hnone : s.staging o.version = none) (hstream : o.delivery.isStream = true)
    (h : (findStaged sha256 cfg o s).2 = .ok file) :
    Dict.lookup "exe_sha256" man = some (.str (sha256 file)) := by
  apply lookup_of_hashFits hman
  simp only [findStaged, hnone, download, lookUp, hknown] at h
  cases hdelivery : o.delivery with
  | refused staged =>
      rw [hdelivery] at hstream
      cases hstream
  | done staged =>
      rw [hdelivery] at hstream
      cases hstream
  | streamed staged =>
      rw [hdelivery] at h
      simp only [fetch, hashOf_download hman, Function.update_self] at h
      cases staged with
      | none => cases h
      | some arrived =>
          simp only [receive] at h
          split at h
          · rename_i hfits
            cases h
            exact hfits
          · cases h

/-- **Step lemma.** A vetted `apply` launches a verified file. -/
theorem apply_verified {sha256 : Blob → String} {cfg : Settings} {o : Order Num Blob}
    {s : Release Num Blob} (hok : Vetted cfg s (.apply o)) :
    LaunchVerified sha256 s (.apply o) (apply sha256 cfg o s).1 := by
  rcases apply_cases sha256 cfg o s with hsame | ⟨info, file, hinfo, hfile, hfits, hlaunches, hknown⟩
  · exact Or.inl hsame
  refine Or.inr ⟨o.version, file, hlaunches, ?_⟩
  rcases hok with ⟨man, hman, hhash⟩ | ⟨hnew, hnone, hstream, hhash⟩
  · -- the manifest was known, and `apply` compares with it
    have hfind : findInfo cfg o s.known = (s.known, .ok (some man)) := by
      simp only [findInfo, hman]
    rw [hfind] at hinfo hknown
    cases hinfo
    refine ⟨man, ?_, lookup_of_hashFits hhash hfits⟩
    rw [hknown, known_findStaged hman]
    exact hman
  · -- the check of `apply` brings it, and the download compares with it
    obtain ⟨man, hman⟩ := Option.isSome_iff_exists.mp (findInfo_of_new hnew hinfo)
    refine ⟨man, ?_, streamed_verified (s := { s with known := (findInfo cfg o s.known).1 })
      hman (hhash man hman) hnone hstream hfile⟩
    rw [hknown, known_findStaged hman]
    exact hman

/-- **Launches are vetted**: in every run whose applications find what they have to find, each file
that is launched has the hash of the manifest that is known for its version. -/
theorem launches_vetted (sha256 : Blob → String) (cfg : Settings) (s : Release Num Blob)
    (events : List (Event Num Blob))
    (hguard : (updater sha256 cfg).Guarded (Vetted cfg) s events) :
    (updater sha256 cfg).Each (LaunchVerified sha256) s events := by
  refine hguard.mono fun s e hok s' hs => ?_
  cases e with
  | apply o =>
      cases hs
      exact apply_verified hok
  | download version answers delivery =>
      cases hs
      exact Or.inl launches_download
  | check node answers =>
      cases hs
      exact Or.inl rfl
  | stage version file =>
      cases hs
      exact Or.inl rfl
  | restart current =>
      cases hs
      exact Or.inl rfl

end Methods

/-! ## §10 A file from an earlier session -/

section Concrete

attribute [local instance] asciiVersions

local instance : Truth Int := ⟨fun n => n ≠ 0⟩

/-- SHA-256 of two files of one byte. -/
def digest (file : String) : String :=
  if file = "a" then "ca978112ca1bbdcafac231b39a23dc4da786eff8147c4e72b9807785afee48bb"
  else if file = "b" then "3e23e8160039594a33894f6564e1b1348bbd7a0088d42c4acb73eeaed59c009d"
  else ""

/-- One source, and the rest as it comes. -/
def defaults : Settings := ⟨true, ["nas"], true, false, true⟩

/-- The one release of the source. -/
def releaseA : Json Int := .obj [("version", .str "2.0.0"), ("exe_sha256", .str (digest "a"))]

/-- Its binary is signed, and comes over a stream. -/
def orderA : Order Int String where
  version := "2.0.0"
  force := false
  pending := false
  answers _ := .found [.parsed releaseA]
  answers' _ := .found [.parsed releaseA]
  delivery := .streamed (some "a")
  signed _ := true
  copies := true
  starts := true

/-- A node of an older version, behind a restart, with a file in its staging directory. -/
def waiting (file : Option String) : Release Int String :=
  ⟨"1.0.0", Dict.empty, fun _ => file, []⟩

/-- **The file of an earlier session is launched without a look at its hash.** -/
theorem stale_file_launched : ¬ (updater digest defaults).Each (LaunchVerified digest)
    (waiting (some "b")) [.apply orderA] := by
  intro h
  have hlaunched : (apply digest defaults orderA (waiting (some "b"))).1.launches =
      [("2.0.0", "b")] := by decide +kernel
  have hexpected : ((apply digest defaults orderA (waiting (some "b"))).1.known.get
      "2.0.0").bind (Dict.lookup "exe_sha256") = some (.str (digest "a")) := rfl
  rcases h.1 _ rfl with hsame | ⟨version, file, hlaunches, man, hman, hhash⟩
  · exact absurd (hlaunched.symm.trans hsame) (by decide)
  · cases hlaunched.symm.trans hlaunches
    rw [hman] at hexpected
    have hdigest : digest "b" = digest "a" := Json.str.inj (Option.some.inj (hhash.symm.trans hexpected))
    exact absurd hdigest (by decide)

/-- Behind a check, the staged file is compared. -/
theorem checked_file_vetted : (updater digest defaults).Each (LaunchVerified digest)
    (waiting (some "a"))
    [.check none fun _ => .found [.parsed releaseA], .apply orderA] := by
  apply launches_vetted
  refine Machine.guarded_cons rfl trivial ?_
  exact Machine.guarded_cons rfl (Or.inl ⟨_, rfl, rfl⟩) trivial

end Concrete

end NetPulse.Updater
