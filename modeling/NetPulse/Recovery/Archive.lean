import Mathlib.Algebra.GroupWithZero.Nat
import NetPulse.Lib.FileTree
import NetPulse.Lib.Json
import NetPulse.Lib.Prog

/-
# NetPulse.Recovery.Archive — recovery archives (`recovery.py`)

`create` puts the configuration and a snapshot of the database into a zip with a manifest,
`unpackVerified` checks an archive and unpacks its two payloads into a directory of its own, and
`restore` copies them from there to a new directory. Every operation of the system or of a library
can fail, at any moment; what has been written by then stays until a `with` takes it away.

Paths are lists of names without `..`.
-/

namespace NetPulse.Recovery

open NetPulse.Lib NetPulse.Lib.Json

/-! ## §1 The world of the program -/

abbrev Bytes := List UInt8

abbrev Path := List String

/-- The exceptions of the system and of the libraries. -/
inductive Trouble where
  /-- `BadZipFile`, `RuntimeError`, `KeyError`, `UnicodeError`, `sqlite3.Error`, `JSONDecodeError`
  and `RecursionError`: those that `unpack_verified` names. -/
  | damage
  /-- `OSError`, `zlib.error`, `EOFError` and the others. -/
  | failure
  deriving DecidableEq

inductive Raised where
  /-- `RecoveryError` with its text. -/
  | refused (text : String)
  | trouble (kind : Trouble)
  deriving DecidableEq

/-- An operation fails; if it was to write, so many bytes are written by then. -/
structure Fault where
  kind : Trouble
  written : Nat

structure World where
  tree : FileTree String Bytes
  /-- For each operation to come whether it fails. -/
  faults : List (Option Fault)
  /-- `LOCK` -/
  locked : Bool

abbrev Work (α : Type) := Prog Raised World α

/-- Whether the next operation fails. -/
def draw : Work (Option Fault) := fun w =>
  match w.faults with
  | [] => .ok none w
  | fault :: rest => .ok fault { w with faults := rest }

/-- An operation that reads, or does nothing that matters here. -/
def attempt : Work Unit := do
  match ← draw with
  | none => pure ()
  | some fault => throw (.trouble fault.kind)

def require (c : Prop) [Decidable c] (text : String) : Work Unit :=
  if c then pure () else throw (.refused text)

/-- A function of a library, which raises or returns. -/
def library {α : Type} (answer : Except Trouble α) : Work α := do
  attempt
  match answer with
  | .ok a => pure a
  | .error kind => throw (.trouble kind)

/-! ## §2 Files -/

/-- `Path.is_file` -/
def isFile (p : Path) : Work Bool := do
  attempt
  pure ((← get).tree.fileAt p).isSome

/-- `Path.is_dir` -/
def isDir (p : Path) : Work Bool := do
  attempt
  pure ((← get).tree.stat p == some .dir)

/-- `Path.exists` -/
def pathExists (p : Path) : Work Bool := do
  attempt
  pure ((← get).tree.stat p).isSome

/-- What there is with this path, a link for itself. -/
def lstat (t : FileTree String Bytes) (p : Path) : Option (FileEntry String Bytes) :=
  (t.slot p).bind fun r => t.node (r.1 ++ [r.2])

/-- `Path.is_symlink` -/
def isSymlink (p : Path) : Work Bool := do
  attempt
  match lstat (← get).tree p with
  | some (.link _) => pure true
  | _ => pure false

/-- The file is opened and read. -/
def readFile (p : Path) : Work Bytes := do
  attempt
  match (← get).tree.fileAt p with
  | some content => pure content
  | none => throw (.trouble .failure)

/-- `path.stat().st_size` -/
def fileSize (p : Path) : Work Nat := do
  let content ← readFile p
  pure content.length

/-- Something new under a path; the place is the handle. -/
def enter (p : Path) (x : FileEntry String Bytes) : Work Path := do
  attempt
  let w ← get
  match w.tree.slot p with
  | none => throw (.trouble .failure)
  | some (q, n) =>
      if h : w.tree.node q = some .dir ∧ w.tree.node (q ++ [n]) = none then
        set { w with tree := w.tree.put q n x h.1 h.2 }
        pure (q ++ [n])
      else throw (.trouble .failure)

/-- `open(p, 'xb')` -/
def createFile (p : Path) : Work Path := enter p (.file [])

/-- `Path.mkdir` -/
def mkdir (p : Path) : Work Unit := do
  let _ ← enter p .dir
  pure ()

/-- `dst.write(block)`; if it fails, a part may be written. -/
def writeBlock (handle : Path) (block : Bytes) : Work Unit := do
  match ← draw with
  | none => modify fun w => { w with tree := w.tree.setContent handle (· ++ block) }
  | some fault =>
      modify fun w =>
        { w with tree := w.tree.setContent handle (· ++ block.take fault.written) }
      throw (.trouble fault.kind)

/-- `mkdtemp` in `parent`; the random name is not taken. -/
def mkdtemp (parent : Path) (tmp : String) : Work Path := do
  mkdir (parent ++ [tmp])
  pure (parent ++ [tmp])

/-- `shutil.rmtree` -/
def rmtree (stage : Path) (t : FileTree String Bytes) : FileTree String Bytes :=
  match t.locate stage with
  | some q => t.remove q
  | none => t

/-- `TemporaryDirectory.__exit__` -/
def cleanup (stage : Path) (w : World) : World := { w with tree := rmtree stage w.tree }

/-- `with TemporaryDirectory(…, dir=parent) as stage` -/
def withTemporary {α : Type} (parent : Path) (tmp : String) (body : Path → Work α) : Work α := do
  let stage ← mkdtemp parent tmp
  Prog.ensuring (cleanup stage) (body stage)

/-! ## §3 The libraries -/

/-- A member of a zip file: what its header says, and what reading it brings. -/
structure ZipEntry where
  filename : String
  /-- `file_size` of the header -/
  fileSize : Nat
  /-- What the reads return until they return nothing. -/
  blocks : List Bytes
  /-- The exception that reading it ends with: a wrong CRC, a broken stream, encryption. -/
  failure : Option Trouble

def ZipEntry.content (e : ZipEntry) : Bytes := e.blocks.flatten

structure Library (Num : Type) where
  /-- `hashlib.sha256(…).hexdigest()` -/
  digest : Bytes → String
  /-- `ZipFile(path)` and `infolist()` -/
  readZip : Bytes → Except Trouble (List ZipEntry)
  /-- A zip file of these members. -/
  writeZip : List (String × Bytes) → Bytes
  /-- `json.loads` of bytes; where it raises, it is one of the exceptions that are named. -/
  loads : Bytes → Option (Json Num)
  /-- `json.loads` of the text in UTF-8; `none` where either raises. -/
  loadsText : Bytes → Option (Json Num)
  /-- `json.dumps`, in UTF-8 -/
  dumps : Json Num → Bytes
  /-- `PRAGMA integrity_check` -/
  integrityCheck : Bytes → Except Trouble (List String)
  /-- The number of tables. -/
  tableCount : Bytes → Except Trouble Nat
  ofNat : Nat → Num
  /-- `==` of a number and an integer -/
  equalsNat : Num → Nat → Bool
  equalsNat_ofNat : ∀ n m, equalsNat (ofNat n) m = decide (n = m)

variable {Num : Type}

def Library.num (lib : Library Num) (n : Nat) : Json Num := .num (lib.ofNat n)

/-- `value == n`; `True` is 1 and `False` is 0. -/
def Library.isNumber (lib : Library Num) (value : Option (Json Num)) (n : Nat) : Bool :=
  match value with
  | some (.num m) => lib.equalsNat m n
  | some (.bool b) => b.toNat = n
  | _ => false

/-- `value == text` -/
def isText (value : Option (Json Num)) (text : String) : Bool :=
  match value with
  | some (.str s) => s = text
  | _ => false

def asObject (value : Option (Json Num)) (text : String) : Work (Entries Num) :=
  match value with
  | some (.obj entries) => pure entries
  | _ => throw (.refused text)

/-! ## §4 Checks of the payloads -/

def maxBytes : Nat := 2 * 1024 ^ 3

def maxConfig : Nat := 4 * 1024 ^ 2

/-- `PAYLOADS`, in order. -/
def payloads : List String := ["config.json", "network_stats.db"]

/-- `PAYLOADS | {'manifest.json'}`, in order. -/
def members : List String := ["config.json", "manifest.json", "network_stats.db"]

/-- Two sets of names. -/
def sameNames (xs ys : List String) : Bool := xs.all (· ∈ ys) && ys.all (· ∈ xs)

def isCipher (s : String) : Bool := "dpapi:".toList.isPrefixOf s.toList

mutual

/-- `encrypted` -/
def encrypted : Json Num → Nat
  | .obj entries => encryptedEntries entries
  | .list items => encryptedItems items
  | .str s => (isCipher s).toNat
  | .null | .bool _ | .num _ => 0

def encryptedEntries : Entries Num → Nat
  | [] => 0
  | (_, v) :: rest => encrypted v + encryptedEntries rest

def encryptedItems : List (Json Num) → Nat
  | [] => 0
  | v :: rest => encrypted v + encryptedItems rest

end

variable (lib : Library Num)

/-- `check_database` -/
def checkDatabase (p : Path) : Work Nat := do
  let database ← readFile p
  let result ← library (lib.integrityCheck database)
  require (result = ["ok"]) "Нарушена целостность базы данных"
  library (lib.tableCount database)

/-- `check_config` -/
def checkConfig (p : Path) : Work Nat := do
  let size ← fileSize p
  require (size ≤ maxConfig) "Конфигурация слишком велика"
  let text ← readFile p
  let config ← asObject (lib.loadsText text) "Некорректный config.json"
  attempt
  pure (encryptedEntries config)

/-! ## §5 `unpack_verified` -/

def getinfo (entries : List ZipEntry) (name : String) : Work ZipEntry :=
  match entries.find? (·.filename = name) with
  | some e => pure e
  | none => throw (.trouble .damage)

/-- The end of the stream: nothing more, or an exception. -/
def endOf (e : ZipEntry) : Work Unit :=
  match e.failure with
  | none => attempt
  | some kind => throw (.trouble kind)

/-- `archive.read(name)` -/
def readEntry (e : ZipEntry) : Work Bytes := do
  endOf e
  pure e.content

/-- `while block := src.read(1024 * 1024)` -/
def copyBlocks (limit : Nat) (handle : Path) : Nat → List Bytes → Work Unit
  | _, [] => pure ()
  | size, block :: rest => do
      attempt
      require (size + block.length ≤ limit) "Превышен лимит файла"
      writeBlock handle block
      copyBlocks limit handle (size + block.length) rest

def limitOf (name : String) : Nat := if name = "config.json" then maxConfig else maxBytes

/-- One payload goes from the archive to the stage. -/
def unpackPayload (entries : List ZipEntry) (files : Entries Num) (stage : Path) (name : String) :
    Work Unit := do
  let entry ← asObject (Dict.lookup name files) "Размер файла не соответствует манифесту"
  let item ← getinfo entries name
  require (lib.isNumber (Dict.lookup "size" entry) item.fileSize)
    "Размер файла не соответствует манифесту"
  let handle ← createFile (stage ++ [name])
  attempt
  copyBlocks (limitOf name) handle 0 item.blocks
  endOf item
  let content ← readFile (stage ++ [name])
  require (isText (Dict.lookup "sha256" entry) (lib.digest content)) "Контрольная сумма не совпадает"

/-- What `unpack_verified` returns, and `restore` with the destination. -/
structure Summary (Num : Type) where
  version : Option (Json Num)
  created : Option (Json Num)
  files : Entries Num
  tables : Nat
  dpapiValues : Nat
  destination : Option Path

def formatName : String := "netpulse-recovery"

/-- The manifest of an archive. -/
def readManifest (entries : List ZipEntry) : Work (Entries Num) := do
  let item ← getinfo entries "manifest.json"
  require (item.fileSize ≤ 16384) "Манифест слишком велик"
  let text ← readEntry item
  let value ← library ((lib.loads text).elim (.error .damage) .ok)
  let manifest ← asObject (some value) "Неподдерживаемый формат архива"
  require (isText (Dict.lookup "format" manifest) formatName ∧
    lib.isNumber (Dict.lookup "schema" manifest) 1) "Неподдерживаемый формат архива"
  pure manifest

/-- The members, the manifest and its `files`. -/
def readHeader (path : Path) : Work (List ZipEntry × Entries Num × Entries Num) := do
  let archive ← readFile path
  let entries ← library (lib.readZip archive)
  require (entries.length = 3 ∧ sameNames (entries.map (·.filename)) members)
    "Неизвестный формат или лишние файлы в архиве"
  require ((entries.map (·.fileSize)).sum ≤ maxBytes) "Превышен размер распакованных данных"
  let manifest ← readManifest lib entries
  let files ← asObject (Dict.lookup "files" manifest) "Некорректный перечень файлов"
  require (sameNames (files.map Prod.fst) payloads) "Некорректный перечень файлов"
  pure (entries, manifest, files)

/-- The part of `unpack_verified` in `try`. -/
def unpackOpened (path stage : Path) : Work (Summary Num) := do
  let (entries, manifest, files) ← readHeader lib path
  payloads.forM (unpackPayload lib entries files stage)
  let tables ← checkDatabase lib (stage ++ ["network_stats.db"])
  let dpapi ← checkConfig lib (stage ++ ["config.json"])
  pure ⟨Dict.lookup "version" manifest, Dict.lookup "created" manifest, files, tables, dpapi, none⟩

/-- `except (…): raise RecoveryError` -/
def orDamaged : Raised → Raised
  | .trouble .damage => .refused "Архив повреждён или его данные не прошли проверку"
  | e => e

def unpackVerified (path stage : Path) : Work (Summary Num) := do
  let there ← isFile path
  require there "Архив отсутствует или слишком велик"
  let size ← fileSize path
  require (size ≤ maxBytes) "Архив отсутствует или слишком велик"
  Prog.rethrow orDamaged (unpackOpened lib path stage)

/-! ## §6 `restore` -/

/-- One payload goes from the stage to the destination. -/
def install (stage destination : Path) (name : String) : Work Unit := do
  let handle ← createFile (destination ++ [name])
  let content ← readFile (stage ++ [name])
  attempt
  writeBlock handle content

/-- The destination is new, and its parent is a directory. -/
def checkTarget (destination : Path) : Work Unit := do
  let there ← pathExists destination
  require (there = false) "Каталог восстановления уже существует; выберите новый путь"
  let link ← isSymlink destination
  require (link = false) "Каталог восстановления уже существует; выберите новый путь"
  let parent ← isDir destination.dropLast
  require parent "Родительский каталог восстановления должен существовать"

/-- The body of `restore` within the temporary directory. -/
def restoreFrom (path destination stage : Path) : Work (Summary Num) := do
  let result ← unpackVerified lib path stage
  mkdir destination
  Prog.rethrow (fun _ => .refused "Восстановление не завершено; проверьте новый каталог")
    (payloads.forM (install stage destination))
  pure result

def restore (path destination : Path) (tmp : String) : Work (Summary Num) := do
  checkTarget destination
  let result ← withTemporary destination.dropLast tmp (restoreFrom lib path destination)
  pure { result with destination := some destination }

/-! ## §7 `create` -/

/-- `mkdir(parents=True, exist_ok=True)` of a resolved path: no name of it is a link. -/
def mkdirs (cur : Path) : Path → Work Unit
  | [] => pure ()
  | n :: rest => do
      attempt
      let w ← get
      if w.tree.node (cur ++ [n]) = some .dir then pure () else mkdir (cur ++ [n])
      mkdirs (cur ++ [n]) rest

/-- A new file with this content. -/
def writeNew (p : Path) (content : Bytes) : Work Unit := do
  let handle ← createFile p
  writeBlock handle content

/-- `os.replace`; the source is a place of the tree. -/
def osReplace (source target : Path) : Work Unit := do
  attempt
  let w ← get
  match hs : w.tree.node source, w.tree.slot target with
  | some (.file content), some (q, n) =>
      if h : w.tree.node q = some .dir ∧ w.tree.node (q ++ [n]) ≠ some .dir then
        set { w with tree := w.tree.rename source content q n hs h.1 h.2 }
      else throw (.trouble .failure)
  | _, _ => throw (.trouble .failure)

/-- The entry of a file in the manifest. -/
def fileEntry (content : Bytes) : Json Num :=
  .obj [("size", lib.num content.length), ("sha256", .str (lib.digest content))]

/-- `files` of the manifest. -/
def filesOf (config database : Bytes) : Entries Num :=
  [("config.json", fileEntry lib config), ("network_stats.db", fileEntry lib database)]

def manifestOf (version created : String) (config database : Bytes) (tables dpapi : Nat) : Json Num :=
  .obj [("format", .str formatName), ("schema", lib.num 1), ("version", .str version),
    ("created", .str created), ("files", .obj (filesOf lib config database)),
    ("tables", lib.num tables), ("dpapi_values", lib.num dpapi)]

/-- What `create` returns. -/
structure Receipt where
  archive : Path
  tables : Nat
  dpapiValues : Nat

/-- What `create` gets from outside: the version of the program, the time as the manifest and as the
name of the archive have it, the random names, and the snapshot that `backup` comes to. -/
structure Occasion where
  version : String
  created : String
  tmp : String
  name : String
  snapshot : Except Trouble Bytes

/-- `archive.write(stage / name, name)` for each name. -/
def addMembers (stage : Path) : List String → Work (List (String × Bytes))
  | [] => pure []
  | name :: rest => do
      let content ← readFile (stage ++ [name])
      let others ← addMembers stage rest
      pure ((name, content) :: others)

/-- The body of `create` within the temporary directory. -/
def pack (o : Occasion) (config destination stage : Path) : Work Receipt := do
  let source ← readFile config
  writeNew (stage ++ ["config.json"]) source
  let dpapi ← checkConfig lib (stage ++ ["config.json"])
  let snapshot ← library o.snapshot
  require (snapshot.length ≤ maxBytes) "Превышен лимит времени или размера снимка"
  writeNew (stage ++ ["network_stats.db"]) snapshot
  let tables ← checkDatabase lib (stage ++ ["network_stats.db"])
  let settings ← readFile (stage ++ ["config.json"])
  let database ← readFile (stage ++ ["network_stats.db"])
  require (settings.length + database.length ≤ maxBytes) "Превышен размер архива"
  writeNew (stage ++ ["manifest.json"])
    (lib.dumps (manifestOf lib o.version o.created settings database tables dpapi))
  let files ← addMembers stage members
  writeNew (stage ++ ["archive.zip"]) (lib.writeZip files)
  attempt
  osReplace (stage ++ ["archive.zip"]) (destination ++ [o.name])
  pure ⟨destination ++ [o.name], tables, dpapi⟩

def acquire : Work Unit := do
  let w ← get
  require (w.locked = false) "Резервное копирование уже выполняется"
  set { w with locked := true }

def release (w : World) : World := { w with locked := false }

/-- `create`; the two directories are as `Path.resolve` gives them. -/
def create (o : Occasion) (source destination : Path) : Work Receipt := do
  acquire
  Prog.ensuring release do
    let config ← isFile (source ++ ["config.json"])
    require config "В каталоге данных нужны config.json и network_stats.db"
    let database ← isFile (source ++ ["network_stats.db"])
    require database "В каталоге данных нужны config.json и network_stats.db"
    let configSize ← fileSize (source ++ ["config.json"])
    require (configSize ≤ maxConfig) "Превышен размер исходных данных"
    let databaseSize ← fileSize (source ++ ["network_stats.db"])
    require (databaseSize ≤ maxBytes) "Превышен размер исходных данных"
    mkdirs [] destination
    withTemporary destination o.tmp (pack lib o (source ++ ["config.json"]) destination)

end NetPulse.Recovery
