import NetPulse.Lib.Text
import NetPulse.Lib.Json

/-
# NetPulse.Updater.Version — versions, their order, and what may follow what

`app_version.py` reads `MAJOR.MINOR.PATCH`, perhaps with a `v` before it, `-build` and a number
behind it, and white space around it. Which characters are digits, and what `str.lower` does, is in
the Unicode tables and a class here.

`validateTransition` lets a node go to a newer version, and to an older one when it is told to.
-/

namespace NetPulse.Updater

open NetPulse.Lib NetPulse.Lib.Json

/-- `\d` with the value of the digit, and `str.lower`. -/
class VersionText where
  digit : Char → Option Nat
  lower : String → String

export VersionText (digit)

/-! ## §1 Reading a version -/

structure Version where
  major : Nat
  minor : Nat
  patch : Nat
  build : Nat
  deriving DecidableEq

namespace Version

/-- `<` of the tuples. -/
def before (a b : Version) : Bool :=
  a.major < b.major || a.major == b.major && (a.minor < b.minor || a.minor == b.minor &&
    (a.patch < b.patch || a.patch == b.patch && a.build < b.build))

end Version

def isSpace (c : Char) : Bool := Text.whitespace c.toNat

/-- What is left behind a given text. -/
def skip (start s : List Char) : Option (List Char) :=
  if start.isPrefixOf s then some (s.drop start.length) else none

section Reading

variable [VersionText]

/-- `(\d+)`, as a number, and what is left behind it. -/
def number (s : List Char) : Option (Nat × List Char) :=
  match s.takeWhile fun c => (digit c).isSome with
  | [] => none
  | ds => some (ds.foldl (fun n c => 10 * n + (digit c).getD 0) 0, s.drop ds.length)

/-- `(?:-build(\d+))?` at the end. -/
def buildNumber (s : List Char) : Option Nat :=
  if s = [] then some 0
  else do
    let s ← skip "-build".toList s
    let (n, rest) ← number s
    if rest = [] then some n else none

/-- `parse_version` -/
def parseVersion (s : String) : Option Version := do
  let s := (s.toList.dropWhile isSpace).rdropWhile isSpace
  let s := (skip ['v'] s).getD s
  let (major, s) ← number s
  let s ← skip ['.'] s
  let (minor, s) ← number s
  let s ← skip ['.'] s
  let (patch, s) ← number s
  let build ← buildNumber s
  some ⟨major, minor, patch, build⟩

/-! ## §2 Comparing versions -/

/-- `compare_versions`: what cannot be read is compared as a text. -/
def compareVersions (a b : String) : Ordering :=
  match parseVersion a, parseVersion b with
  | some va, some vb => if vb.before va then .gt else if va.before vb then .lt else .eq
  | _, _ => compare (VersionText.lower a) (VersionText.lower b)

/-- `is_newer` -/
def isNewer (candidate current : String) : Bool :=
  match parseVersion candidate, parseVersion current with
  | none, _ => false
  | some _, none => true
  | some c, some cur => cur.before c

/-! ## §3 What may follow what -/

/-- Why an update does not go on. -/
inductive Refusal where
  | disabled
  | notFrozen
  | installed
  | downgrade
  | unconfirmed
  /-- There are no sources to ask, or none of them has the version. -/
  | unavailable
  | checkFailed
  | downloadFailed
  | hash
  | signature
  | copy
  | launch
  deriving DecidableEq

/-- One check. -/
def require (c : Bool) (r : Refusal) : Except Refusal Unit := if c then .ok () else .error r

omit [VersionText] in
theorem require_eq_ok {c : Bool} {r : Refusal} {u : Unit} : require c r = .ok u ↔ c = true := by
  cases c with
  | false => exact iff_of_false (fun h => by cases h) (fun h => by cases h)
  | true => exact iff_of_true rfl rfl

/-- `_validate_transition` -/
def validateTransition (current target : String) (allowDowngrade force : Bool) :
    Except Refusal Unit :=
  if compareVersions target current = .eq then .error .installed
  else if isNewer target current then .ok ()
  else if allowDowngrade || force then .ok ()
  else .error .downgrade

end Reading

/-! ## §4 ASCII -/

/-- The table for ASCII text. -/
@[reducible] def asciiVersions : VersionText where
  digit c := if c.isDigit then some (c.toNat - '0'.toNat) else none
  lower s := String.ofList (s.toList.map Char.toLower)

section Concrete

attribute [local instance] asciiVersions

example : parseVersion " v2.10.3-build42\n" = some ⟨2, 10, 3, 42⟩ := by decide +kernel

example : isNewer "2.10.0" "2.9.1" = true := by decide +kernel

end Concrete

end NetPulse.Updater
