import NetPulse.Mesh.Canon
import NetPulse.Lib.Dict
import NetPulse.Lib.Except
import Mathlib.Data.List.Sort

/-
# NetPulse.Files.Catalog — what a node tells about its shared files

The methods of `services/files` that read: `list_shares`, `find`, `stat`, `read`, `serve`, and
`download` when the file is on the node itself. A share is a directory with a public name and a list
of the nodes that may have it; an empty list stands for all of them. A file is named by share and
path or by the hash of its content.

Paths follow the system (`pathlib`), so that the text of a path and its components are a class; a
directory knows its files by components, and where a path leads when its links are followed. The
cache of the hashes is left out: it holds the hash of the content.
-/

namespace NetPulse.Files

open NetPulse.Lib
open NetPulse.Mesh (Canon canon)

/-! ## §1 Data -/

/-- Components of a path that a file can have, relative to a directory. -/
def Component (c : String) : Prop := c ≠ "" ∧ c ≠ "." ∧ '/' ∉ c.toList

instance (c : String) : Decidable (Component c) := inferInstanceAs (Decidable (_ ∧ _ ∧ _))

/-- `pathlib`: the components of a relative path are no empty ones, no dots and have no slash. -/
class PathText where
  isAbsolute : String → Bool
  parts : String → List String
  component : ∀ s, isAbsolute s = false → ∀ c ∈ parts s, Component c
  plain : isAbsolute "a" = false ∧ parts "a" = ["a"]

/-- Paths with slashes. -/
@[reducible] def slashText : PathText where
  isAbsolute s := s.toList.head? = some '/'
  parts s := ((s.toList.splitOn '/').map String.ofList).filter fun c =>
    decide (Component c)
  component s _ c hc := of_decide_eq_true (List.mem_filter.mp hc).2
  plain := by decide

/-- `fnmatch.fnmatch`, on a path and a pattern. -/
class Patterns where
  fits : String → String → Bool

/-- The content of a file. -/
class Content (Blob : Type) where
  size : Blob → Nat
  sha256 : Blob → String
  /-- No bytes. -/
  empty : Blob

structure File (Blob : Type) where
  data : Blob
  mtime : Int

/-- A directory: the files by their components, and where the components of a path lead when links
are followed, if they stay inside. -/
structure Dir (Blob : Type) where
  files : List (List String × File Blob)
  resolve : List String → Option (List String)
  named : ∀ e ∈ files, e.1 ≠ [] ∧ ∀ c ∈ e.1, Component c ∧ c ≠ ".."
  root : resolve [] = some []

structure Share where
  name : String
  path : String
  /-- The nodes that may have it; nobody for everybody. -/
  allow : List String
  chunkSize : Int

/-- `as_posix` -/
def posix (key : List String) : String := String.intercalate "/" key

/-- An entry of the catalog. -/
structure Row where
  path : String
  size : Nat
  mtime : Int
  deriving DecidableEq

structure Manifest where
  id : String
  share : String
  path : String
  size : Nat
  mtime : Int
  chunkSize : Int
  deriving DecidableEq

/-- `{share, path}` or `{id}` -/
structure Ref where
  share : Option String
  path : Option String
  id : Option String

/-- A number in a request: nothing that counts, or what `int` makes of it, if anything. -/
inductive Number where
  | unset
  | bad
  | of (n : Int)

inductive Refusal where
  | noId (fid : String)
  | noShare (name : Option String)
  | noFile (share rel : String)
  | tooLarge (size limit : Int)
  | noLabel
  | labelTaken
  | denied (share : String)
  | noRef
  /-- An exception. -/
  | raised
  deriving DecidableEq

/-- The text of an error. -/
def Refusal.text : Refusal → String
  | noId fid => "файл с id=" ++ String.ofList (fid.toList.take 12) ++ "… не найден в шарах"
  | noShare name => "шара " ++ name.elim "None" (fun n => "'" ++ n ++ "'") ++ " не найдена"
  | noFile share rel => "файл не найден: " ++ share ++ "/" ++ rel
  | tooLarge size limit => "файл больше лимита: " ++ toString size ++ " > " ++ toString limit ++ " байт"
  | noLabel => "нужны label и reply_to"
  | labelTaken => "label уже раздаётся"
  | denied share => "доступ к шаре '" ++ share ++ "' запрещён"
  | noRef => "укажите ref: share+path или id"
  | raised => ""

inductive Request where
  | listShares
  | find (share pattern : Option String) (limit : Number)
  | stat (ref : Ref) (chunkSize : Number)
  | read (ref : Ref) (limit : Number)
  | serve (label replyTo : Option String) (ref : Ref) (offset chunkSize buff : Number)
  /-- `download` of a file from the node to itself. -/
  | download (ref : Ref) (saveAs : Option String)

inductive Response (Blob : Type) where
  | shares (rows : List (String × Nat × Nat))
  | entries (rows : List (String × Row)) (truncated : Bool)
  | manifest (m : Manifest)
  | content (data : Blob) (size : Nat)
  /-- The answer of `serve`, and the stream: the file from an offset on. -/
  | serving (label : String) (m : Manifest) (offset : Int) (stream : Blob)
  /-- The file has been downloaded already. -/
  | present (name : String)
  | copying
  | failed (r : Refusal)

/-- The node: its configuration, what it is serving, and its directory for downloads. -/
structure Host (Blob : Type) where
  shares : List Share
  maxChunk : Int
  serves : List String
  downloads : String → Option Blob

/-! ## §2 Shares and files -/

/-- A value that counts as true. -/
def set? (s : Option String) : Option String := s.filter (· ≠ "")

@[simp] theorem set?_set? (s : Option String) : set? (set? s) = set? s := by
  cases s with
  | none => rfl
  | some x => by_cases hx : x = "" <;> simp [set?, hx]

@[simp] theorem getD_set? (s : Option String) : (set? s).getD "" = s.getD "" := by
  cases s with
  | none => rfl
  | some x => by_cases hx : x = "" <;> simp [set?, Option.filter, hx]

namespace Number

def get (default : Int) : Number → Except Refusal Int
  | unset => .ok default
  | bad => .error .raised
  | of n => .ok n

end Number

section Service

variable {Blob : Type} [Canon] [PathText] [Patterns] [Content Blob]

/-- `_acl_ok` -/
def aclOk (share : Share) (node : String) : Bool :=
  (share.allow.map canon).isEmpty || (share.allow.map canon).contains (canon node)

/-- `_safe_join` -/
def safeJoin (dir : Dir Blob) (rel : String) : Option (List String) :=
  if rel = "" || PathText.isAbsolute rel || (PathText.parts rel).contains ".." then none
  else dir.resolve (PathText.parts rel)

/-- The file that a relative path leads to. -/
def fileAt (dir : Dir Blob) (rel : String) : Option (List String × File Blob) :=
  (safeJoin dir rel).bind fun key => (Dict.lookup key dir.files).map fun file => (key, file)

/-- `_scan` -/
def scan (dir : Dir Blob) : List Row :=
  (dir.files.map fun e => ⟨posix e.1, Content.size e.2.data, e.2.mtime⟩).insertionSort
    fun a b => a.path ≤ b.path

/-- `_share_by_name` -/
def shareByName (shares : List Share) (name : String) : Option Share :=
  shares.find? fun s => s.name == name

/-- `_find_by_id` -/
def findById (shares : List Share) (fs : String → Dir Blob) (fid : String) :
    Option (String × String) :=
  shares.findSome? fun s => (scan (fs s.path)).findSome? fun e =>
    (fileAt (fs s.path) e.path).bind fun found =>
      if Content.sha256 found.2.data = fid then some (s.name, e.path) else none

/-- Share and path of a reference, which an id needs a search for. -/
def target (shares : List Share) (fs : String → Dir Blob) (ref : Ref) :
    Except Refusal (Option String × String) :=
  match set? ref.share, set? ref.id with
  | none, some fid =>
      (findById shares fs fid).elim (.error (.noId fid)) fun found => .ok (some found.1, found.2)
  | _, _ => .ok (ref.share, ref.path.getD "")

/-- The file of a share by its path. -/
def locate (shares : List Share) (fs : String → Dir Blob) (name : Option String) (rel : String) :
    Except Refusal (Share × List String × File Blob) := do
  let share ← (shareByName shares (name.getD "")).elim (.error (.noShare name)) .ok
  let found ← (fileAt (fs share.path) rel).elim (.error (.noFile share.name rel)) .ok
  .ok (share, found.1, found.2)

/-- `_resolve_ref` -/
def resolveRef (shares : List Share) (fs : String → Dir Blob) (ref : Ref) :
    Except Refusal (Share × List String × File Blob) := do
  let found ← target shares fs ref
  locate shares fs found.1 found.2

/-- `_manifest` -/
def manifestOf (share : Share) (key : List String) (file : File Blob) (chunkSize : Int) : Manifest :=
  ⟨Content.sha256 file.data, share.name, posix key, Content.size file.data, file.mtime, chunkSize⟩

/-! ## §3 The methods -/

/-- `list_shares` -/
def listShares (shares : List Share) (fs : String → Dir Blob) : Response Blob :=
  .shares (shares.map fun s =>
    (s.name, (scan (fs s.path)).length, ((scan (fs s.path)).map Row.size).foldl (· + ·) 0))

/-- The rows in their order, until there are enough of them. -/
def collect (limit : Number) (acc : List (String × Row)) :
    List (String × Row) → Except Refusal (List (String × Row) × Bool)
  | [] => .ok (acc, false)
  | row :: rest => do
      let n ← limit.get 500
      if n ≤ (acc ++ [row]).length then .ok (acc ++ [row], true) else collect limit (acc ++ [row]) rest

/-- `not (want_share and s.name != want_share)` -/
def asked (want : Option String) (s : Share) : Bool := (set? want).all fun w => s.name = w

/-- The rows of a share that fit the pattern. -/
def fitting (fs : String → Dir Blob) (pattern : String) (s : Share) : List (String × Row) :=
  ((scan (fs s.path)).filter fun e => Patterns.fits e.path pattern).map fun e => (s.name, e)

/-- `_find_sync` -/
def find (shares : List Share) (fs : String → Dir Blob) (want pattern : Option String)
    (limit : Number) : Except Refusal (Response Blob) := do
  let rows := (shares.filter (asked want)).flatMap (fitting fs ((set? pattern).getD "*"))
  let (rows, truncated) ← collect limit [] rows
  .ok (.entries rows truncated)

/-- `_stat_impl` -/
def stat (h : Host Blob) (fs : String → Dir Blob) (ref : Ref) (chunkSize : Number) :
    Except Refusal Manifest := do
  let (share, key, file) ← resolveRef h.shares fs ref
  let cs ← chunkSize.get share.chunkSize
  .ok (manifestOf share key file (min cs h.maxChunk))

/-- `_read_impl` -/
def read (h : Host Blob) (fs : String → Dir Blob) (ref : Ref) (limit : Number) :
    Except Refusal (Response Blob) := do
  let n ← limit.get 262144
  let limit := min (max n 1) (1024 * 1024)
  let (_, _, file) ← resolveRef h.shares fs ref
  if limit < Content.size file.data then .error (.tooLarge (Content.size file.data) limit)
  else .ok (.content file.data (Content.size file.data))

/-- `serve`: the one method that asks who it is for. -/
def serve (h : Host Blob) (fs : String → Dir Blob) (label replyTo : Option String) (ref : Ref)
    (offset chunkSize buff : Number) : Except Refusal (Response Blob) := do
  let label ← (set? label).elim (.error .noLabel) .ok
  let peer ← (set? replyTo).elim (.error .noLabel) .ok
  if h.serves.contains label then .error .labelTaken
  else do
    let (share, key, file) ← resolveRef h.shares fs ref
    if aclOk share peer then do
      let cs ← chunkSize.get share.chunkSize
      let start ← offset.get 0
      let _ ← buff.get 8
      .ok (.serving label (manifestOf share key file (min cs h.maxChunk)) (max 0 start) file.data)
    else .error (.denied share.name)

/-- `Path(save_as.replace('\\', '/')).name or 'unnamed'` -/
def targetName (saveAs : String) : String :=
  let last := (PathText.parts (String.ofList (saveAs.toList.map fun c =>
    if c = '\\' then '/' else c))).getLast?
  last.getD "unnamed"

/-- The keys of a reference that have a value. -/
def Ref.kept (ref : Ref) : Ref := ⟨set? ref.share, set? ref.path, set? ref.id⟩

/-- `download` from the node to itself, up to its answer. -/
def download (h : Host Blob) (fs : String → Dir Blob) (ref : Ref) (saveAs : Option String) :
    Except Refusal (Response Blob) :=
  let ref := ref.kept
  if ref.share.isNone && ref.path.isNone && ref.id.isNone then .error .noRef
  else do
    let man ← stat h fs ref .unset
    let name := targetName ((set? saveAs).getD man.path)
    if (h.downloads name).any (fun data => Content.sha256 data = man.id) then .ok (.present name)
    else .ok .copying

def orFailed : Except Refusal (Response Blob) → Response Blob
  | .ok r => r
  | .error r => .failed r

/-- The answer to a request. Who asks is not among what the methods are given. -/
def respond (h : Host Blob) (fs : String → Dir Blob) : Request → Response Blob
  | .listShares => listShares h.shares fs
  | .find want pattern limit => orFailed (find h.shares fs want pattern limit)
  | .stat ref chunkSize => orFailed ((stat h fs ref chunkSize).map .manifest)
  | .read ref limit => orFailed (read h fs ref limit)
  | .serve label replyTo ref offset chunkSize buff =>
      orFailed (serve h fs label replyTo ref offset chunkSize buff)
  | .download ref saveAs => orFailed (download h fs ref saveAs)

end Service

end NetPulse.Files
