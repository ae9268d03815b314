import NetPulse.Files.Catalog
import NetPulse.Lib.Disk
import NetPulse.Lib.Machine

/-
# NetPulse.Files.Download — the receiving side of the file service

`download` chooses the name of the file and of its `.part`, decides where to go on, and asks the
source for a stream; `prepare_file_in` and `consume_file_in` take the stream, `_finalize` compares
size and hash and puts the `.part` in the place of the file, and `cancel_download` forgets the
download. Any number of downloads go on at a time, each of them under a label of its own.

A step of the model ends where the event loop can turn to something else: at an `await`, and in
`_finalize` also between two operations, since `cancel_download` is no coroutine and is run in a
thread of its own (`asyncio.to_thread`). What the loop does without an `await` it does with nobody
else on the loop. The process can be stopped after any step; what is in the buffer of an open file
is lost then.

Names are those of the download directory, and a file that is open can lose its name. The record of
a download stays with the receiver of its stream when `cancel_download` takes it out of the table:
`registered` says whether it is in there. Times and the speed are left out.
-/

namespace NetPulse.Files

open NetPulse.Lib

/-! ## §1 Data -/

abbrev Bytes := List UInt8

/-- `_sha256_of` -/
class Sha256 where
  sha256 : Bytes → String

/-- A file that was there at first, or the one that a download has created. -/
inductive Ino where
  | first (name : String)
  | made (label : String)
  deriving DecidableEq

abbrev Folder := Disk String Ino UInt8

/-- What the source says of a file. -/
structure Offer where
  id : String
  share : String
  path : String
  size : Int
  deriving DecidableEq

inductive Status where
  | running
  | done
  | error
  deriving DecidableEq

/-- What a download that has failed says. -/
inductive Failure where
  | notFound
  | unreachable (why : String)
  | refused (err : String)
  | size (got : Nat) (want : Int)
  | hash
  | vanished
  | torn (received size : Int)
  | other (why : String)
  deriving DecidableEq

/-- The text of it. -/
def Failure.text : Failure → String
  | notFound => "локальный файл не найден"
  | unreachable why => "serve недоступен: " ++ why
  | refused err => err
  | size got want => "размер не сошёлся: " ++ toString got ++ " != " ++ toString want
  | hash => "sha256 не совпал"
  | vanished => ".part исчез до завершения"
  | torn received want => "передача оборвана: " ++ toString received ++ "/" ++ toString want
  | other why => why

/-- Where a download has got to. -/
inductive Stage where
  /-- There is no stream yet. -/
  | asked
  /-- The stream has been opened, and its receiver has the record. -/
  | prepared
  /-- The first ACK is out. -/
  | acked
  | reading (h : Handle Ino UInt8)
  /-- A chunk is written and there is room for more. -/
  | acking (h : Handle Ino UInt8)
  /-- A file of the node itself, which is copied. -/
  | copying
  | filling (h : Handle Ino UInt8)
  /-- `_finalize`, before each of its operations. -/
  | sizing
  | hashing
  | replacing
  | marking
  /-- The stream of a download that the table does not have. -/
  | drained
  | finished
  /-- An exception has ended the receiver. -/
  | raised
  /-- The process has been stopped. -/
  | killed
  deriving DecidableEq

namespace Stage

/-- The open `.part`. -/
def handle : Stage → Option (Handle Ino UInt8)
  | reading h | acking h | filling h => some h
  | _ => none

/-- The loop is in the middle of this. -/
def busy : Stage → Bool
  | copying | filling _ | sizing | hashing | replacing | marking => true
  | _ => false

/-- Somebody is at work on the files of the download, and has its record. -/
def active : Stage → Bool
  | asked | drained | finished | raised | killed => false
  | _ => true

end Stage

/-- How far `cancel_download` is. -/
inductive Cancel where
  | never
  | popped
  | returned
  deriving DecidableEq

/-- The record of a download. The last four fields are no part of it: they keep what it started
from and what it has done. -/
structure Transfer where
  src : String
  share : String
  path : String
  name : String
  id : String
  size : Int
  received : Int
  resumedFrom : Nat
  status : Status
  error : Option Failure
  registered : Bool
  /-- The answer of `serve` is there. -/
  answered : Bool
  stage : Stage
  cancel : Cancel
  /-- The `.part` that the download goes on from. -/
  base : Bytes
  /-- What has been written. -/
  arrived : Bytes
  acks : Nat
  /-- The file has been put in its place. -/
  replaced : Bool
  deriving DecidableEq

/-- `final.with_name(final.name + '.part')` -/
def partOf (name : String) : String := name ++ ".part"

namespace Transfer

def part (t : Transfer) : String := partOf t.name

/-- The download goes on: there is a receiver, or there can be one. -/
def live (t : Transfer) : Bool :=
  t.stage.active || (t.stage = .asked && t.registered && t.status = .running)

/-- `_fail` -/
def fail (t : Transfer) (why : Failure) : Transfer :=
  if t.registered then { t with status := .error, error := some why } else t

/-- `_finalize` up to its `try`: the table may not have the download any more. -/
def finalize (t : Transfer) : Transfer :=
  if t.registered then { t with stage := .sizing } else { t with stage := .raised }

/-- `consume_file_in` behind its loop. -/
def settle (t : Transfer) : Transfer :=
  if t.status ≠ .running then { t with stage := .finished }
  else if t.received ≠ t.size then { t.fail (.torn t.received t.size) with stage := .finished }
  else t.finalize

/-- The process is stopped. -/
def kill (t : Transfer) : Transfer :=
  { t with
    registered := false
    stage := .killed
    cancel := if t.cancel = .popped then .never else t.cancel }

end Transfer

structure Receiver where
  disk : Folder
  downloads : String → Option Transfer
  /-- What the loop is in the middle of. -/
  loop : Option String

/-- What can happen to a download. -/
inductive Move where
  /-- The call of `serve` has an answer, or fails. -/
  | served
  | refused (why : Failure)
  /-- `STREAM_OPEN` -/
  | stream
  /-- An ACK goes out. -/
  | ack
  | openPart
  /-- A chunk is taken from the pipe; so many bytes of the buffer reach the file. -/
  | chunk (bytes : Bytes) (room : Bool) (flushed : Nat)
  /-- The stream has ended, completely or not. -/
  | eof
  /-- An exception in the receiver. -/
  | broken (flushed : Nat)
  | copyOpen
  /-- `copyfile` has copied everything. -/
  | copied (bytes : Bytes)
  | copyFails (bytes : Bytes) (why : Failure)
  /-- The next operation of `_finalize`. -/
  | advance
  /-- An exception in it. -/
  | trouble (why : String)
  | cancelPop
  /-- The `.part` is deleted, if the system lets it be, and `cancel_download` returns. -/
  | cancelReturn (unlinked : Bool)
  deriving DecidableEq

/-- What is not on the loop. -/
def Move.threaded : Move → Bool
  | cancelPop | cancelReturn _ => true
  | _ => false

inductive Event where
  /-- `download`, when the source has answered `stat`. -/
  | start (label dst : String) (saveAs : Option String) (resume : Bool) (man : Offer)
  | move (label : String) (m : Move)
  | restart
  deriving DecidableEq

/-! ## §2 The steps of a download -/

section Steps

variable [Sha256]

/-- `_finalize`, one operation after another. -/
def finalizeStep (d : Folder) (t : Transfer) : Option (Folder × Transfer) :=
  match t.stage with
  | .sizing => match d.content t.part with
      | none => some (d, { t.fail .vanished with stage := .finished })
      | some data =>
          if (data.length : Int) ≠ t.size then
            some (d.unlink t.part, { t.fail (.size data.length t.size) with stage := .finished })
          else some (d, { t with stage := .hashing })
  | .hashing => match d.content t.part with
      | none => some (d, { t.fail .vanished with stage := .finished })
      | some data =>
          if Sha256.sha256 data ≠ t.id then
            some (d.unlink t.part, { t.fail .hash with stage := .finished })
          else some (d, { t with stage := .replacing })
  | .replacing => match d.dir t.part with
      | none => some (d, { t.fail .vanished with stage := .finished })
      | some _ => some (d.replace t.part t.name, { t with stage := .marking, replaced := true })
  | .marking => some (d, { t with status := .done, received := t.size, stage := .finished })
  | _ => none

/-- The bytes are written, and some of the buffer goes to the file. -/
def writeTo (d : Folder) (h : Handle Ino UInt8) (bytes : Bytes) (flushed : Nat) :
    Folder × Handle Ino UInt8 :=
  d.flush { h with pending := h.pending ++ bytes } flushed

/-- The loop of `consume_file_in`, for one chunk. -/
def chunkStep (d : Folder) (t : Transfer) (h : Handle Ino UInt8) (bytes : Bytes) (room : Bool)
    (flushed : Nat) : Folder × Transfer :=
  if t.status ≠ .running then (d.close h, t.settle)
  else
    ((writeTo d h bytes flushed).1,
      { t with
        received := t.received + bytes.length
        arrived := t.arrived ++ bytes
        stage := if room then .acking (writeTo d h bytes flushed).2
          else .reading (writeTo d h bytes flushed).2 })

/-- `'ab' if st.get('resumed_from') else 'wb'` -/
def openPart (d : Folder) (label : String) (t : Transfer) : Folder × Handle Ino UInt8 :=
  if t.resumedFrom ≠ 0 then d.openAppend (.made label) t.part
  else d.openTruncate (.made label) t.part

/-- What a move does to the files and to the record of its download. -/
def advance (d : Folder) (label : String) (t : Transfer) : Move → Option (Folder × Transfer)
  -- `download` goes on when nothing is in the middle of the loop
  | .served => if t.answered || t.stage.busy then none else some (d, { t with answered := true })
  | .refused why =>
      if t.answered || t.stage.busy then none else some (d, { t.fail why with answered := true })
  | .stream => match t.stage with
      | .asked => some (d, { t with stage := if t.registered then .prepared else .drained })
      | _ => none
  | .ack => match t.stage with
      | .prepared => some (d, { t with acks := t.acks + 1, stage := .acked })
      | .acking h => some (d, { t with acks := t.acks + 1, stage := .reading h })
      | _ => none
  | .openPart => match t.stage with
      | .acked => some ((openPart d label t).1, { t with stage := .reading (openPart d label t).2 })
      | _ => none
  | .chunk bytes room flushed => match t.stage with
      | .reading h => some (chunkStep d t h bytes room flushed)
      | _ => none
  | .eof => match t.stage with
      | .reading h => some (d.close h, t.settle)
      | _ => none
  | .broken flushed => match t.stage with
      | .prepared | .acked | .drained => some (d, { t with stage := .raised })
      | .reading h | .acking h => some ((d.flush h flushed).1, { t with stage := .raised })
      | _ => none
  | .copyOpen => match t.stage with
      | .copying => some ((d.openTruncate (.made label) t.part).1,
          { t with stage := .filling (d.openTruncate (.made label) t.part).2 })
      | _ => none
  | .copied bytes => match t.stage with
      | .filling h => some (d.close { h with pending := h.pending ++ bytes },
          -- the exception of `_finalize` is caught here, and `_fail` does not find the download
          { t with arrived := bytes, stage := if t.registered then .sizing else .finished })
      | _ => none
  | .copyFails bytes why => match t.stage with
      | .copying => some (d, { t.fail why with stage := .finished })
      | .filling h => some (d.close { h with pending := h.pending ++ bytes },
          { t.fail why with stage := .finished })
      | _ => none
  | .advance => finalizeStep d t
  | .trouble why => match t.stage with
      | .sizing | .hashing | .replacing => some (d, { t.fail (.other why) with stage := .finished })
      | _ => none
  | .cancelPop =>
      if t.registered then some (d, { t with registered := false, cancel := .popped }) else none
  | .cancelReturn unlinked =>
      if t.cancel = .popped then
        some (if unlinked then d.unlink t.part else d, { t with cancel := .returned })
      else none

/-! ## §3 Runs -/

section Machine

variable [PathText]

/-- `_target_path` of a download. -/
def finalName (saveAs : Option String) (man : Offer) : String :=
  targetName ((set? saveAs).getD man.path)

/-- The file is there already, and it is the same. -/
def present (d : Folder) (saveAs : Option String) (man : Offer) : Bool :=
  (d.content (finalName saveAs man)).any fun data => Sha256.sha256 data = man.id

/-- Where a download goes on: at the end of the `.part`, if it is not too long. -/
def offsetOf (d : Folder) (name : String) (resume : Bool) (man : Offer) : Nat :=
  let offset := if resume then ((d.content (partOf name)).getD []).length else 0
  if man.size < offset then 0 else offset

/-- The record that `download` makes. -/
def enter (node : String) (d : Folder) (dst : String) (saveAs : Option String) (resume : Bool)
    (man : Offer) : Transfer :=
  let name := finalName saveAs man
  let offset := offsetOf d name resume man
  { src := dst, share := man.share, path := man.path, name := name, id := man.id, size := man.size,
    received := offset, resumedFrom := offset, status := .running, error := none,
    registered := true, answered := dst = node,
    stage := if dst = node then .copying else .asked, cancel := .never,
    base := if dst = node || offset = 0 then [] else (d.content (partOf name)).getD [],
    arrived := [], acks := 0, replaced := false }

/-- A record of the table after a move. -/
def Receiver.set (s : Receiver) (label : String) (r : Folder × Transfer) : Receiver where
  disk := r.1
  downloads := Function.update s.downloads label (some r.2)
  loop := if r.2.stage.busy then some label else if s.loop = some label then none else s.loop

/-- The process is stopped and started again: the table is gone, and the files are there. -/
def Receiver.restarted (s : Receiver) : Receiver :=
  ⟨s.disk, fun label => (s.downloads label).map Transfer.kill, none⟩

/-- The receiving side of `node`. -/
def receiving (node : String) : Machine Receiver Event where
  step s
    | .start label dst saveAs resume man =>
        if (s.downloads label).isSome || s.loop.isSome then none
        else if present s.disk saveAs man then some s
        else some (s.set label (s.disk, enter node s.disk dst saveAs resume man))
    | .move label m => (s.downloads label).bind fun t =>
        if m.threaded || s.loop = none || s.loop = some label then
          (advance s.disk label t m).map (s.set label)
        else none
    | .restart => some s.restarted

end Machine

end Steps

/-- The process starts, with these files in the directory. -/
def Receiver.boot (files : String → Option Bytes) : Receiver where
  disk := {
    dir := fun name => (files name).map fun _ => .first name
    data := fun i => match i with
      | .first name => (files name).getD []
      | .made _ => [] }
  downloads _ := none
  loop := none

/-! ## §4 Small files -/

/-- A short text stands for its own hash. -/
@[reducible] def spelled : Sha256 where
  sha256 data := String.ofList (data.map fun byte => Char.ofNat byte.toNat)

/-- `docs/a` of `nas`, two bytes. -/
def nasFile : Offer := ⟨"hi", "docs", "a", 2⟩

/-- The status of a download at the end of a run. -/
def statusOf (label : String) (s : Option Receiver) : Option Status :=
  s.bind fun s => (s.downloads label).map Transfer.status

end NetPulse.Files
