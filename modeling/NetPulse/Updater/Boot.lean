import NetPulse.Updater.Release

/-
# NetPulse.Updater.Boot — the replacement of a binary, step by step

`apply` makes a copy of the running binary, `_update.exe`, writes `update_state.json` and starts the
copy, which waits for the node to leave, puts the staged file in the place of the binary, starts that
and watches it. The state file tells a node that starts whether there is an update that nobody has
confirmed; at the third such start the node puts `.old` back.

Every write to a file is a step of its own, and either process can be gone after any of them. One
node runs at a time: a second one finds the mutex of the first and leaves. The file of a running
program can be renamed but not written to, as on the system that the updater is for; a copy that
fails leaves no file. Files that are written and never read again are left out, the times in the
state file too, and so is the deletion of `_update.exe`, which `apply` makes anew.
-/

namespace NetPulse.Updater

open NetPulse.Lib NetPulse.Lib.Json

/-! ## §1 Data -/

/-- `update_state.json`; the paths in it are those of `exe` and `old` below. -/
structure Marker where
  fromVersion : String
  toVersion : String
  attempts : Nat
  pendingBootConfirm : Bool
  bootOk : Bool
  rolledBack : Bool
  lockedVersions : List String
  deriving DecidableEq

/-- `pending_boot_confirm` without `boot_ok`. -/
def Marker.unconfirmed (m : Marker) : Bool := m.pendingBootConfirm && !m.bootOk

/-- An empty state file. -/
def Marker.empty : Marker := ⟨"", "", 0, false, false, false, []⟩

/-- Where a node has got to. -/
inductive Task where
  | serving
  /-- `_update.exe` has been made. -/
  | prepared (target : String)
  /-- The state file has been written. -/
  | announced
  /-- `_exit_later` -/
  | leaving
  /-- `_do_rollback`, which has the state file of the start, step by step. -/
  | failed (st : Marker)
  | renamed (st : Marker)
  | restored (st : Marker)
  | recorded (st : Marker)
  | locked
  deriving DecidableEq

structure Node (Bin : Type) where
  bin : Bin
  task : Task
  /-- `_confirm_boot_later` is waiting. -/
  confirming : Bool
  /-- It is the process that the updater has started. -/
  launched : Bool
  /-- It runs from the file that is `exe` now. -/
  atExe : Bool
  /-- It was started while the staged binary was in place. -/
  fresh : Bool
  deriving DecidableEq

/-- Where `updater_main` has got to. -/
inductive Watch where
  | waiting
  | unlinked
  | renamed
  | copied
  | verified
  | watching
  /-- The new version could not be started. -/
  | lost
  deriving DecidableEq

structure Watchdog (Bin : Type) where
  bin : Bin
  stage : Watch
  deriving DecidableEq

/-- What has become of the last update: history, nothing reads it. -/
inductive Phase where
  | calm
  | marked
  /-- The staged binary has been put in place. -/
  | installed
  | rolledBack
  deriving DecidableEq

structure System (Bin : Type) where
  exe : Option Bin
  /-- `.old` -/
  old : Option Bin
  /-- `_update.exe` -/
  updaterExe : Option Bin
  staged : Option Bin
  marker : Option Marker
  node : Option (Node Bin)
  updater : Option (Watchdog Bin)
  /-- The binary that ran when the state file was last written by `apply`. -/
  origin : Option Bin
  phase : Phase
  /-- The rollbacks since then. -/
  rollbacks : Nat
  deriving DecidableEq

namespace System

variable {Bin : Type}

/-- A computer with some files on it, and nothing going on. -/
def initial (exe old updaterExe staged : Option Bin) : System Bin :=
  ⟨exe, old, updaterExe, staged, none, none, none, none, .calm, 0⟩

/-- `_load_state` -/
def load (s : System Bin) : Marker := s.marker.getD .empty

/-- A program runs from `exe`. -/
def locked (s : System Bin) : Bool := s.node.any fun n => n.atExe

/-- The process that the updater has started is there. -/
def alive (s : System Bin) : Bool := s.node.any fun n => n.launched

def setTask (s : System Bin) (n : Node Bin) (task : Task) : System Bin :=
  { s with node := some { n with task := task } }

def setStage (s : System Bin) (u : Watchdog Bin) (stage : Watch) : System Bin :=
  { s with updater := some { u with stage := stage } }

/-- The file that the node runs from has been renamed. -/
def moved (s : System Bin) : Option (Node Bin) := s.node.map fun n => { n with atExe := false }

/-- The node is not the one that the updater has just started. -/
def unwatched (s : System Bin) : Option (Node Bin) := s.node.map fun n => { n with launched := false }

/-! ## §2 The node -/

def MAX_ATTEMPTS : Nat := 2

/-- `Updater.start` of a process from a binary. -/
def startNode (s : System Bin) (launched : Bool) (b : Bin) : System Bin :=
  let n : Node Bin := ⟨b, .serving, false, launched, true, s.phase = .installed⟩
  if s.load.unconfirmed then
    let st := { s.load with attempts := s.load.attempts + 1 }
    { s with
      marker := some st
      node := some
        (if st.attempts > MAX_ATTEMPTS then { n with task := .failed st }
        else { n with confirming := true }) }
  else { s with node := some n }

/-- A node is started, by the system, by somebody, or behind a rollback. -/
def start (s : System Bin) : Option (System Bin) :=
  match s.node, s.exe with
  | none, some b => some (s.startNode false b)
  | _, _ => none

/-- The process ends. -/
def crash (s : System Bin) : Option (System Bin) := s.node.map fun _ => { s with node := none }

/-- What follows the checks of `apply`: the copy, which fails while that program runs. -/
def prepare [VersionText] (version : Bin → String) (cfg : Settings) (s : System Bin)
    (target : String) (force : Bool) : Option (System Bin) :=
  match s.node, s.exe, s.updater with
  | some n, some b, none =>
      match n.task, mayApply cfg (version n.bin) target force s.load.unconfirmed, s.staged with
      | .serving, .ok _, some _ =>
          some ({ s with updaterExe := some b }.setTask n (.prepared target))
      | _, _, _ => none
  | _, _, _ => none

/-- `_save_state` in `apply` -/
def announce (version : Bin → String) (s : System Bin) : Option (System Bin) :=
  s.node.bind fun n =>
    match n.task with
    | .prepared target => some
        { s with
          marker := some ⟨version n.bin, target, 0, true, false, false, []⟩
          node := some { n with task := .announced }
          origin := some n.bin
          phase := .marked
          rollbacks := 0 }
    | _ => none

/-- The start of `_update.exe`, which is removed when that fails. -/
def launchUpdater (s : System Bin) (starts : Bool) : Option (System Bin) :=
  s.node.bind fun n =>
    match n.task, s.updaterExe, starts with
    | .announced, some u, true => some ({ s with updater := some ⟨u, .waiting⟩ }.setTask n .leaving)
    | .announced, _, false => some ({ s with updaterExe := none }.setTask n .serving)
    | _, _, _ => none

/-- `os._exit` -/
def exit (s : System Bin) : Option (System Bin) :=
  s.node.bind fun n => if n.task = .leaving then some { s with node := none } else none

/-- `_confirm_boot_later` behind its wait -/
def confirm (s : System Bin) : Option (System Bin) :=
  s.node.bind fun n =>
    if n.confirming then
      let s' := { s with node := some { n with confirming := false } }
      some (if s.load.unconfirmed then { s' with marker := some { s.load with bootOk := true } }
        else s')
    else none

/-- `_do_rollback`: without `.old` it gives up, and also when the binary cannot be renamed. -/
def beginRollback (s : System Bin) (renames : Bool) : Option (System Bin) :=
  s.node.bind fun n =>
    match n.task with
    | .failed st => some
        (if s.old.isNone then
          { s with marker := some { st with rolledBack := true } }.setTask n .serving
        else if renames && s.exe.isSome then
          { s with exe := none, node := some { n with task := .renamed st, atExe := false } }
        else s.setTask n .serving)
    | _ => none

def copyOld (s : System Bin) : Option (System Bin) :=
  s.node.bind fun n =>
    match n.task, s.old with
    | .renamed st, some b => some ({ s with
        exe := some b
        phase := .rolledBack
        rollbacks := s.rollbacks + 1 }.setTask n (.restored st))
    | _, _ => none

def recordRollback (s : System Bin) : Option (System Bin) :=
  s.node.bind fun n =>
    match n.task with
    | .restored st =>
        some ({ s with marker := some { st with rolledBack := true } }.setTask n (.recorded st))
    | _ => none

/-- `locked_add` -/
def lockVersion (s : System Bin) : Option (System Bin) :=
  s.node.bind fun n =>
    match n.task with
    | .recorded st =>
        let known := s.load.lockedVersions
        some ((if known.contains st.toVersion then s else
          { s with marker := some { s.load with lockedVersions := known ++ [st.toVersion] } }).setTask
            n .locked)
    | _ => none

/-- The delayed start of the binary, and `_exit_later`. -/
def scheduleRestart (s : System Bin) : Option (System Bin) :=
  s.node.bind fun n => if n.task = .locked then some (s.setTask n .leaving) else none

/-! ## §3 The updater -/

/-- The updater is gone. -/
def withoutUpdater (s : System Bin) : System Bin := { s with updater := none }

/-- `_replace_binary`, behind a wait that ends in any case; without a staged file it fails. -/
def unlinkOld (s : System Bin) (unlinks : Bool) : Option (System Bin) :=
  s.updater.bind fun u =>
    if u.stage = .waiting then some
      (if s.staged.isNone then s.withoutUpdater
      else { s with old := if unlinks then none else s.old }.setStage u .unlinked)
    else none

def renameExe (s : System Bin) (renames : Bool) : Option (System Bin) :=
  s.updater.bind fun u =>
    if u.stage = .unlinked then some
      (match s.exe with
      | none => s.setStage u .renamed
      | some b =>
          if renames then
            { s with exe := none, old := some b, node := s.moved }.setStage u .renamed
          else s.withoutUpdater)
    else none

/-- After a copy that has failed, the old binary gets its name back. -/
def takeBack (s : System Bin) : System Bin :=
  if s.old.isSome && s.exe.isNone then { s with exe := s.old, old := none, updater := none }
  else s.withoutUpdater

/-- The copy of the staged file. -/
def copyStaged (s : System Bin) (copies : Bool) : Option (System Bin) :=
  s.updater.bind fun u =>
    if u.stage = .renamed then some
      (match s.staged with
      | some b =>
          if copies && !s.locked then
            { s with exe := some b, phase := .installed }.setStage u .copied
          else s.takeBack
      | none => s.takeBack)
    else none

/-- The hashes of the copy and of the staged file; the old binary replaces a copy that differs. -/
def verifyCopy (sha256 : Bin → String) (s : System Bin) : Option (System Bin) :=
  s.updater.bind fun u =>
    if u.stage = .copied then some
      (match s.exe, s.staged with
      | some b, some c =>
          if sha256 b = sha256 c then s.setStage u .verified
          else if s.old.isSome && !s.locked then
            { s with
              exe := s.old
              old := none
              updater := none
              phase := if s.phase = .installed then .marked else s.phase }
          else s.withoutUpdater
      | _, _ => s.withoutUpdater)
    else none

/-- `_launch_new_version`; a second node leaves at once. -/
def launchNew (s : System Bin) (starts : Bool) : Option (System Bin) :=
  s.updater.bind fun u =>
    if u.stage = .verified then some
      (match s.exe with
      | some b =>
          if starts then
            if s.node.isNone then (s.setStage u .watching).startNode true b
            else { s with node := s.unwatched }.setStage u .watching
          else s.setStage u .lost
      | none => s.setStage u .lost)
    else none

/-- `_rollback`, when the new version could not be started or has gone. -/
def rollback (s : System Bin) (copies : Bool) : Option (System Bin) :=
  s.updater.bind fun u =>
    if u.stage = .lost ∨ u.stage = .watching ∧ s.alive = false then some
      (if s.updaterExe.isSome && copies && !s.locked then
        { s with
          exe := s.updaterExe
          updater := none
          phase := .rolledBack
          rollbacks := s.rollbacks + 1 }
      else s.withoutUpdater)
    else none

/-- The end of `updater_main`, when the new version is alive at the deadline. -/
def confirmUpdate (s : System Bin) : Option (System Bin) :=
  s.updater.bind fun u =>
    if u.stage = .watching ∧ s.alive = true then
      some { s with marker := s.marker.map fun m => { m with bootOk := true }, updater := none }
    else none

/-- The updater ends. -/
def stopUpdater (s : System Bin) : Option (System Bin) := s.updater.map fun _ => s.withoutUpdater

end System

/-! ## §4 The machine -/

inductive Move (Bin : Type) where
  /-- The automatic check, which applies nothing: it writes down what there is. -/
  | check
  /-- The staged file changes. -/
  | stage (file : Option Bin)
  | start
  | crash
  | prepare (target : String) (force : Bool)
  | announce
  | launchUpdater (starts : Bool)
  | exit
  | confirm
  | beginRollback (renames : Bool)
  | copyOld
  | recordRollback
  | lockVersion
  | scheduleRestart
  | unlinkOld (unlinks : Bool)
  | renameExe (renames : Bool)
  | copyStaged (copies : Bool)
  | verifyCopy
  | launchNew (starts : Bool)
  | rollback (copies : Bool)
  | confirmUpdate
  | stopUpdater

/-- The node and the updater in any order, with every crash. -/
def updating {Bin : Type} [VersionText] (version sha256 : Bin → String) (cfg : Settings) :
    Machine (System Bin) (Move Bin) where
  step s
    | .check => some s
    | .stage file => some { s with staged := file }
    | .start => s.start
    | .crash => s.crash
    | .prepare target force => s.prepare version cfg target force
    | .announce => s.announce version
    | .launchUpdater starts => s.launchUpdater starts
    | .exit => s.exit
    | .confirm => s.confirm
    | .beginRollback renames => s.beginRollback renames
    | .copyOld => s.copyOld
    | .recordRollback => s.recordRollback
    | .lockVersion => s.lockVersion
    | .scheduleRestart => s.scheduleRestart
    | .unlinkOld unlinks => s.unlinkOld unlinks
    | .renameExe renames => s.renameExe renames
    | .copyStaged copies => s.copyStaged copies
    | .verifyCopy => s.verifyCopy sha256
    | .launchNew starts => s.launchNew starts
    | .rollback copies => s.rollback copies
    | .confirmUpdate => s.confirmUpdate
    | .stopUpdater => s.stopUpdater

end NetPulse.Updater
