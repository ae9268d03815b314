import NetPulse.Lib.BigEndian

/-
# NetPulse.Updater.ReplaceBinary — putting a staged file in the place of the binary (`update.py`)

`_replace_binary` renames the old binary to `.old`, copies the staged file to its place and compares
hashes. Every one of its calls can fail. Behind a copy that raises, the old binary is renamed back
only if there is no file in its place, and a copy that has written something has made one; behind a
hash that cannot be computed nothing is renamed back.

A `Plan` says of each call whether it fails, and how much of the copy has been written by then.
`replaceBinary_atomic_iff` says under which plans the binary ends as the staged file, with success
reported, or as it was, with failure reported.
-/

namespace NetPulse.Updater.Replacement

open NetPulse.Lib (Bytes)

/-! ## §1 The steps -/

/-- The files at the three paths. -/
structure Files where
  old_exe : Option Bytes
  old_old : Option Bytes
  staged : Option Bytes

/-- A call works, or it raises with this text. -/
abbrev Call := Option String

/-- How `shutil.copyfile` ends: what it has written, or, if it raises, what is at the target then. An
exception that is no `OSError` is not caught where the copy is made. -/
inductive Copy where
  | finished (written : Bytes)
  | osError (text : String) (left : Option Bytes)
  | other (text : String) (left : Option Bytes)

/-- What each call does. -/
structure Plan where
  staged_is_file : Call
  unlink : Call
  old_is_file : Call
  rename : Call
  copy : Copy
  hash : Call
  /-- The checks before the way back, and the renaming itself. -/
  restore : Call

/-- `old_old.unlink(missing_ok=True)`, whose `OSError` is ignored. -/
def Files.unlinkOld (f : Files) (call : Call) : Files :=
  call.elim { f with old_old := none } fun _ => f

/-- `os.replace(old_exe, old_old)` -/
def Files.rename (f : Files) : Files := { f with old_exe := none, old_old := f.old_exe }

/-- `os.replace(old_old, old_exe)`; without a file at the source it raises, which is ignored. -/
def Files.restore (f : Files) (call : Call) : Files :=
  match call, f.old_old with
  | none, some old => { f with old_exe := some old, old_old := none }
  | _, _ => f

/-- The way back behind a copy that has raised. -/
def Files.restoreIfMissing (f : Files) (call : Call) : Files :=
  if f.old_old.isSome ∧ f.old_exe = none then f.restore call else f

variable (sha256 : Bytes → String)

/-- The comparison of the hashes. -/
def verify (p : Plan) (f : Files) : Files × Bool × String :=
  match p.hash with
  | some e => (f, false, "sha256 check failed: " ++ e)
  | none =>
      if f.old_exe.map sha256 ≠ f.staged.map sha256 then
        (f.restore p.restore, false, "sha256 нового exe не совпал после копирования")
      else (f, true, "")

/-- The copy, and what follows it. -/
def copyAndVerify (p : Plan) (f : Files) : Files × Bool × String :=
  match p.copy with
  | .osError e left =>
      (({ f with old_exe := left } : Files).restoreIfMissing p.restore, false,
        "copy staged -> exe failed: " ++ e)
  | .other e left => ({ f with old_exe := left }, false, e)
  | .finished written => verify sha256 p { f with old_exe := some written }

/-- `_replace_binary`: the files afterwards, and what it returns. -/
def replaceBinary (stagedPath : String) (p : Plan) (f : Files) : Files × Bool × String :=
  match p.staged_is_file with
  | some e => (f, false, e)
  | none =>
      if f.staged = none then (f, false, "staged не найден: " ++ stagedPath)
      else
        let f := f.unlinkOld p.unlink
        match p.old_is_file with
        | some e => (f, false, e)
        | none =>
            if f.old_exe.isSome then
              match p.rename with
              | some e => (f, false, "не удалось переименовать старый exe: " ++ e)
              | none => copyAndVerify sha256 p f.rename
            else copyAndVerify sha256 p f

/-! ## §2 What is promised -/

/-- The binary is exactly the staged file, its hash was compared, and success is reported; or it is
what it was, and failure is reported. -/
def Atomic (p : Plan) (f : Files) (r : Files × Bool × String) : Prop :=
  (r.2.1 = true ∧ p.hash = none ∧ r.1.old_exe = f.staged ∧ f.staged.isSome) ∨
    (r.2.1 = false ∧ r.1.old_exe = f.old_exe)

/-- The call for the copy is made. -/
structure Copies (p : Plan) (f : Files) : Prop where
  staged : p.staged_is_file = none ∧ f.staged.isSome
  old : p.old_is_file = none
  rename : f.old_exe.isSome → p.rename = none

/-- What can be renamed back: the old binary, or, where there was none, a file that was left from
before and could not be removed. -/
def backup (p : Plan) (f : Files) : Option Bytes :=
  f.old_exe.or (p.unlink.bind fun _ => f.old_old)

/-- The binary where the way back is taken from a file, or from none. -/
def wayBack (p : Plan) (f : Files) (left : Option Bytes) : Option Bytes :=
  if p.restore = none then (backup p f).or left else left

/-- When the copy and the comparison keep the promise. -/
def CopyKept (p : Plan) (f : Files) : Prop :=
  match p.copy with
  | .osError _ none => wayBack p f none = f.old_exe
  | .osError _ (some left) => f.old_exe = some left
  | .other _ left => f.old_exe = left
  | .finished written =>
      if p.hash.isSome then f.old_exe = some written
      else if some (sha256 written) = f.staged.map sha256 then f.staged = some written
      else wayBack p f (some written) = f.old_exe

/-! ## §3 Before the copy -/

variable {sha256} {p : Plan} {f : Files}

theorem replaceBinary_stops (sha256 : Bytes → String) (stagedPath : String) (h : ¬ Copies p f) :
    (replaceBinary sha256 stagedPath p f).2.1 = false ∧
      (replaceBinary sha256 stagedPath p f).1.old_exe = f.old_exe := by
  have hold : (f.unlinkOld p.unlink).old_exe = f.old_exe := by
    unfold Files.unlinkOld
    cases p.unlink <;> rfl
  unfold replaceBinary
  cases hcheck : p.staged_is_file with
  | some e => exact ⟨rfl, rfl⟩
  | none =>
      by_cases hstaged : f.staged = none
      · rw [if_pos hstaged]
        exact ⟨rfl, rfl⟩
      rw [if_neg hstaged]
      cases hfile : p.old_is_file with
      | some e => exact ⟨rfl, hold⟩
      | none =>
          dsimp only
          rw [hold]
          by_cases hsome : f.old_exe.isSome
          · rw [if_pos hsome]
            cases hrename : p.rename with
            | some e => exact ⟨rfl, hold⟩
            | none =>
                exact absurd ⟨⟨hcheck, Option.isSome_iff_ne_none.mpr hstaged⟩, hfile, fun _ => hrename⟩ h
          · exact absurd ⟨⟨hcheck, Option.isSome_iff_ne_none.mpr hstaged⟩, hfile,
              fun hold => absurd hold hsome⟩ h

/-- The copy is made where no file is, beside what can be renamed back. -/
theorem replaceBinary_copies (stagedPath : String) (h : Copies p f) :
    replaceBinary sha256 stagedPath p f =
      copyAndVerify sha256 p ⟨none, backup p f, f.staged⟩ := by
  obtain ⟨⟨hcheck, hstaged⟩, hfile, hrename⟩ := h
  unfold replaceBinary
  rw [hcheck]
  dsimp only
  rw [if_neg (Option.isSome_iff_ne_none.mp hstaged), hfile]
  dsimp only
  cases hold : f.old_exe with
  | some old =>
      have hunlink : (f.unlinkOld p.unlink).old_exe = some old ∧
          (f.unlinkOld p.unlink).staged = f.staged := by
        unfold Files.unlinkOld
        cases p.unlink <;> exact ⟨hold, rfl⟩
      have hbackup : backup p f = some old := by
        unfold backup
        rw [hold, Option.some_or]
      rw [hunlink.1, hrename (hold ▸ rfl), hbackup]
      unfold Files.rename
      rw [hunlink.1, hunlink.2]
      rfl
  | none =>
      have hunlink : f.unlinkOld p.unlink = ⟨none, backup p f, f.staged⟩ := by
        unfold Files.unlinkOld backup
        rw [hold, Option.none_or]
        cases p.unlink with
        | none => rfl
        | some e =>
            show f = ⟨none, f.old_old, f.staged⟩
            rw [← hold]
      rw [hunlink]
      rfl

/-! ## §4 The copy -/

theorem restore_old_exe (call : Call) (left old staged : Option Bytes) :
    ((⟨left, old, staged⟩ : Files).restore call).old_exe =
      if call = none then old.or left else left := by
  unfold Files.restore
  cases call with
  | some e => rfl
  | none => cases old <;> rfl

theorem restoreIfMissing_none (call : Call) (old staged : Option Bytes) :
    ((⟨none, old, staged⟩ : Files).restoreIfMissing call).old_exe =
      if call = none then old.or none else none := by
  rw [← restore_old_exe call none old staged]
  unfold Files.restoreIfMissing
  cases old with
  | some old => rfl
  | none =>
      rw [if_neg (fun h => Bool.noConfusion h.1)]
      unfold Files.restore
      cases call <;> rfl

theorem restoreIfMissing_some (call : Call) (left : Bytes) (old staged : Option Bytes) :
    (⟨some left, old, staged⟩ : Files).restoreIfMissing call = ⟨some left, old, staged⟩ :=
  if_neg fun h => Option.some_ne_none _ h.2

/-- A failure keeps the promise if the binary is what it was. -/
theorem atomic_of_failure {r : Files × Bool × String} (h : r.2.1 = false) :
    Atomic p f r ↔ r.1.old_exe = f.old_exe := by
  unfold Atomic
  rw [h]
  simp

/-- **The copy and the comparison** keep the promise exactly under `CopyKept`. -/
theorem copyAndVerify_atomic (hstaged : f.staged.isSome) :
    Atomic p f (copyAndVerify sha256 p ⟨none, backup p f, f.staged⟩) ↔ CopyKept sha256 p f := by
  obtain ⟨staged, hstaged⟩ := Option.isSome_iff_exists.mp hstaged
  unfold copyAndVerify CopyKept
  cases hcopy : p.copy with
  | osError e left =>
      cases left with
      | none =>
          rw [atomic_of_failure rfl, restoreIfMissing_none]
          rfl
      | some left =>
          dsimp only
          rw [atomic_of_failure rfl, restoreIfMissing_some]
          exact eq_comm
  | other e left =>
      rw [atomic_of_failure rfl]
      exact eq_comm
  | finished written =>
      dsimp only
      unfold verify
      cases hhash : p.hash with
      | some e =>
          dsimp only
          rw [if_pos Option.isSome_some]
          exact (atomic_of_failure rfl).trans eq_comm
      | none =>
          dsimp only [Option.map_some]
          simp only [Option.isSome_none, Bool.false_eq_true, if_false, hstaged]
          by_cases hsame : sha256 written = sha256 staged
          · -- success is reported, for whatever was written
            have hmap : some (sha256 written) = Option.map sha256 (some staged) := congrArg some hsame
            rw [if_neg (not_not.mpr hmap), if_pos hmap]
            unfold Atomic
            simp only [hhash, hstaged, Option.isSome_some, Bool.true_eq_false, false_and, or_false,
              true_and, and_true]
            exact eq_comm
          · have hmap : some (sha256 written) ≠ Option.map sha256 (some staged) :=
              fun h => hsame (Option.some.inj h)
            rw [if_pos hmap, if_neg hmap, atomic_of_failure rfl, restore_old_exe]
            rfl

/-- **When the replacement is atomic.** Exactly if the copy is never made, or it keeps the promise: it
is complete and has the hash of the staged file, or it has failed and what is at the path afterwards,
by the way back or without one, is what was there before. -/
theorem replaceBinary_atomic_iff (sha256 : Bytes → String) (stagedPath : String) (p : Plan)
    (f : Files) :
    Atomic p f (replaceBinary sha256 stagedPath p f) ↔ (Copies p f → CopyKept sha256 p f) := by
  by_cases h : Copies p f
  · rw [replaceBinary_copies stagedPath h, copyAndVerify_atomic h.staged.2]
    exact ⟨fun hkept _ => hkept, fun hkept => hkept h⟩
  · obtain ⟨hfailed, hsame⟩ := replaceBinary_stops sha256 stagedPath h
    refine iff_of_true ?_ (fun hcopies => absurd hcopies h)
    rw [atomic_of_failure hfailed, hsame]

/-- A copy that is cut off. -/
def cutOff : Plan := ⟨none, none, none, none, .osError "disk full" (some [3]), none, none⟩

/-- **A copy that is cut off stays** where the binary was, and the binary stays at `.old`. -/
theorem replaceBinary_cut_off :
    (∀ sha256, replaceBinary sha256 "new.exe" cutOff ⟨some [1, 2], none, some [3, 4, 5]⟩ =
      (⟨some [3], some [1, 2], some [3, 4, 5]⟩, false, "copy staged -> exe failed: disk full")) ∧
    ∀ sha256, ¬ ∀ p f, Atomic p f (replaceBinary sha256 "new.exe" p f) := by
  have hrun (sha256 : Bytes → String) :
      replaceBinary sha256 "new.exe" cutOff ⟨some [1, 2], none, some [3, 4, 5]⟩ =
        (⟨some [3], some [1, 2], some [3, 4, 5]⟩, false, "copy staged -> exe failed: disk full") := by
    rfl
  refine ⟨hrun, fun sha256 hall => ?_⟩
  have hatomic := hall cutOff ⟨some [1, 2], none, some [3, 4, 5]⟩
  rw [hrun, atomic_of_failure rfl] at hatomic
  exact absurd hatomic (by decide)

end NetPulse.Updater.Replacement
