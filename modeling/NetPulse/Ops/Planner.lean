import NetPulse.Server.Unauthenticated

/-
# NetPulse.Ops.Planner — recurring tasks (`planner.py`)

`status_list` shows the tasks of the configuration by name, each with the days that are left of its
period; `planner_done` (`server.py`) takes a name and has `mark_done` write down that the task was
done. The list strips the names, the endpoint strips what it gets, and `mark_done` looks for the
result among the names as they are in the configuration.

`marksWell_iff` says for which lists every name that is shown can be sent back, with no effect on
another task. Journal and alerts are left out, and so is the order of the list.
-/

namespace NetPulse.Ops.Planner

open NetPulse.Lib NetPulse.Lib.Json
open NetPulse.Gate (PyStr text text_str PyInt stripBlank)

/-- Microseconds. -/
abbrev Time := Int

def DAY : Time := 86400000000

section

variable {Num : Type} [Truth Num] [PyStr Num] [PyInt Num]

/-! ## §1 What is shown -/

/-- A line of the list: the name and the period in days. -/
structure Row where
  name : String
  every_days : Int
  deriving DecidableEq

/-- `str(value or "").strip()` -/
def shownName (value : Option (Json Num)) : String :=
  stripBlank ((value.filter truthy).elim "" text)

/-- `max(1, int(t.get("every_days") or 30))`, and 30 for what is no number. Infinity is an exception
that nothing catches. -/
def everyDays (task : Entries Num) : Option Int :=
  match ((Dict.lookup "every_days" task).filter truthy).elim (.value 30) PyInt.int with
  | .value n => some (max 1 n)
  | .invalid => some 30
  | .overflow => none

/-- The lines for the tasks, in their order; `none` if that is an exception. -/
def shown : List (Json Num) → Option (List Row)
  | [] => some []
  | .obj task :: rest =>
      let name := shownName (Dict.lookup "name" task)
      if name = "" then shown rest
      else (everyDays task).bind fun every => (shown rest).map fun rows => ⟨name, every⟩ :: rows
  | _ :: _ => none

/-- What is written down for a task. -/
inductive LastDone where
  | time (t : Time)
  /-- A text that is no time. -/
  | unreadable
  | empty

/-- `planner_state` -/
abbrev Table := String → Option LastDone

/-- `days_left`; `none` when the time cannot be read. -/
def Row.daysLeft (row : Row) (table : Table) (now : Time) : Option Int :=
  match table row.name with
  | none => some (-1)
  | some .empty => some (-1)
  | some (.time t) => some (row.every_days - (now - t) / DAY)
  | some .unreadable => none

/-- `due` -/
def Row.Due (row : Row) (table : Table) (now : Time) : Prop :=
  ∃ days, row.daysLeft table now = some days ∧ days ≤ 0

/-! ## §2 Marking -/

/-- `{t.get("name") for t in tasks}`; `none` for a name that cannot be in a set. -/
def rawNames : List (Json Num) → Option (List (Json Num))
  | [] => some []
  | .obj task :: rest =>
      match (Dict.lookup "name" task).getD .null with
      | .list _ => none
      | .obj _ => none
      | name => (rawNames rest).map fun names => name :: names
  | _ :: _ => none

/-- `value == name`, for a text. -/
def isText (name : String) : Json Num → Bool
  | .str s => s == name
  | _ => false

inductive Marked where
  | raised
  /-- "задача не найдена в planner.tasks" -/
  | notFound
  | ok (table : Table)

def mark_done (tasks : List (Json Num)) (table : Table) (now : Time) (name : String) : Marked :=
  match rawNames tasks with
  | none => .raised
  | some names =>
      if names.any (isText name) then .ok (Function.update table name (some (.time now)))
      else .notFound

/-- The endpoint, with the `name` of the body. -/
def planner_done (tasks : List (Json Num)) (table : Table) (now : Time)
    (name : Option (Json Num)) : Marked :=
  mark_done tasks table now (shownName name)

/-! ## §3 When every name can be sent back -/

/-- The task of a line can be marked by its shown name, is then not due before its period has passed,
and no other line is due or not due because of it. -/
def MarksRow (tasks : List (Json Num)) (rows : List Row) (table : Table) (now : Time) (i : Nat)
    (row : Row) : Prop :=
  ∃ after, planner_done tasks table now (some (.str row.name)) = .ok after ∧
    (∀ t, t < now + row.every_days * DAY → ¬row.Due after t) ∧
    ∀ j other, j ≠ i → rows[j]? = some other → ∀ t, other.Due after t ↔ other.Due table t

/-- So it is for every line, at any time and whatever was marked before. -/
def MarksWell (tasks : List (Json Num)) : Prop :=
  ∀ rows, shown tasks = some rows → ∀ table now i row, rows[i]? = some row →
    MarksRow tasks rows table now i row

/-- All names can be in a set, each name that is shown is that of a task as it is in the
configuration, and no two are shown alike. -/
structure Plain (tasks : List (Json Num)) (rows : List Row) : Prop where
  asShown : ∃ names, rawNames tasks = some names ∧
    ∀ row ∈ rows, names.any (isText row.name) = true
  distinct : (rows.map Row.name).Nodup

variable {tasks : List (Json Num)} {rows : List Row} {row : Row} {table : Table} {now t : Time}

omit [Truth Num] [PyStr Num] [PyInt Num] in
theorem stripBlank_stripBlank (s : String) : stripBlank (stripBlank s) = stripBlank s := by
  unfold stripBlank
  rw [String.toList_ofList, trim_trim]

omit [PyStr Num] in
theorem everyDays_pos {task : Entries Num} {every : Int} (h : everyDays task = some every) :
    1 ≤ every := by
  unfold everyDays at h
  split at h
  · obtain rfl : max 1 _ = every := by simpa using h
    exact le_max_left _ _
  · obtain rfl : 30 = every := by simpa using h
    decide
  · cases h

/-- A name that is shown has no white space at its ends, and a period is at least a day. -/
theorem shown_row (h : shown tasks = some rows) (hrow : row ∈ rows) :
    row.name ≠ "" ∧ stripBlank row.name = row.name ∧ 1 ≤ row.every_days := by
  induction tasks generalizing rows with
  | nil =>
      obtain rfl : [] = rows := by simpa [shown] using h
      simp at hrow
  | cons task rest ih =>
      rcases task with _ | _ | _ | _ | _ | task
      iterate 5 · simp [shown] at h
      rw [shown] at h
      split_ifs at h with hname
      · exact ih h hrow
      · obtain ⟨every, hevery, h⟩ := Option.bind_eq_some_iff.mp h
        obtain ⟨rows', hrows', rfl⟩ := Option.map_eq_some_iff.mp h
        rcases List.mem_cons.mp hrow with rfl | hrow
        · exact ⟨hname, stripBlank_stripBlank _, everyDays_pos hevery⟩
        · exact ih hrows' hrow

/-- Sent back, a shown name arrives as it is. -/
theorem shownName_row (h : shown tasks = some rows) (hrow : row ∈ rows) :
    shownName (some (.str row.name) : Option (Json Num)) = row.name := by
  obtain ⟨hname, hstrip, -⟩ := shown_row h hrow
  have htrue : truthy (.str row.name : Json Num) = true := by simpa [truthy] using hname
  rw [shownName, Option.filter_some, if_pos htrue]
  show stripBlank (text (.str row.name : Json Num)) = row.name
  rw [text_str, hstrip]

theorem daysLeft_update_self :
    row.daysLeft (Function.update table row.name (some (.time now))) t =
      some (row.every_days - (t - now) / DAY) := by
  rw [Row.daysLeft, Function.update_self]

/-- **Not before the period has passed.** -/
theorem not_due_update (ht : t < now + row.every_days * DAY) :
    ¬row.Due (Function.update table row.name (some (.time now))) t := by
  rintro ⟨days, hdays, hle⟩
  rw [daysLeft_update_self] at hdays
  obtain rfl := Option.some.inj hdays
  have hlt : (t - now) / DAY < row.every_days :=
    Int.ediv_lt_of_lt_mul (by decide) (sub_lt_iff_lt_add'.mpr ht)
  exact (sub_nonpos.mp hle).not_gt hlt

/-- A line of another name looks at another entry. -/
theorem due_update_of_ne {other : Row} {name : String} (h : other.name ≠ name) :
    other.Due (Function.update table name (some (.time now))) t ↔ other.Due table t := by
  rw [Row.Due, Row.Due, Row.daysLeft, Row.daysLeft, Function.update_of_ne h]

/-- The endpoint marks a shown name if it is the name of a task as it stands. -/
theorem planner_done_row (h : shown tasks = some rows) (hrow : row ∈ rows) {after : Table} :
    planner_done tasks table now (some (.str row.name)) = .ok after ↔
      (∃ names, rawNames tasks = some names ∧ names.any (isText row.name) = true) ∧
        Function.update table row.name (some (.time now)) = after := by
  rw [planner_done, shownName_row h hrow, mark_done]
  rcases rawNames tasks with _ | names
  · simp
  · show (if names.any (isText row.name) then Marked.ok _ else Marked.notFound) = _ ↔ _
    by_cases hany : names.any (isText row.name) = true
    · rw [if_pos hany, Marked.ok.injEq]
      exact ⟨fun h => ⟨⟨names, rfl, hany⟩, h⟩, fun h => h.2⟩
    · rw [if_neg hany]
      refine ⟨nofun, fun h => absurd h.1 ?_⟩
      rintro ⟨names', hnames, hany'⟩
      obtain rfl := Option.some.inj hnames
      exact hany hany'

/-- Of two lines with one name, marking the first makes the second not due. -/
theorem name_ne_of_marksRow {i j : Nat} {other : Row} (h : shown tasks = some rows)
    (hmarks : MarksRow tasks rows (fun _ => none) 0 i row) (hrow : rows[i]? = some row)
    (hj : j ≠ i) (hother : rows[j]? = some other) : row.name ≠ other.name := by
  intro hname
  obtain ⟨after, hafter, -, hothers⟩ := hmarks
  obtain ⟨-, rfl⟩ := (planner_done_row h (List.mem_of_getElem? hrow)).mp hafter
  -- before any mark the other one is due, and it must still be when the first is marked
  have hdue : other.Due (fun _ => none) 0 := ⟨-1, rfl, by decide⟩
  have hstill := (hothers j other hj hother 0).mpr hdue
  rw [hname] at hstill
  have hperiod : 1 ≤ other.every_days := (shown_row h (List.mem_of_getElem? hother)).2.2
  have hlater : (0 : Time) < 0 + other.every_days * DAY := by
    show (0 : Int) < 0 + other.every_days * 86400000000
    omega
  exact not_due_update hlater hstill

/-- **Every name that is shown can be sent back**, without an effect on another task, exactly when
nothing is shown or the names are plain. -/
theorem marksWell_iff (tasks : List (Json Num)) :
    MarksWell tasks ↔ ∀ rows, shown tasks = some rows → rows = [] ∨ Plain tasks rows := by
  constructor
  · intro h rows hrows
    by_cases hempty : rows = []
    · exact .inl hempty
    have hmarked : ∀ row ∈ rows,
        ∃ names, rawNames tasks = some names ∧ names.any (isText row.name) = true := by
      intro row hrow
      obtain ⟨i, hi⟩ := List.getElem?_of_mem hrow
      obtain ⟨after, hafter, -⟩ := h rows hrows (fun _ => none) 0 i row hi
      exact ((planner_done_row hrows hrow).mp hafter).1
    refine .inr ⟨?_, ?_⟩
    · obtain ⟨first, hfirst⟩ := List.exists_mem_of_ne_nil rows hempty
      obtain ⟨names, hnames, -⟩ := hmarked first hfirst
      refine ⟨names, hnames, fun row hrow => ?_⟩
      obtain ⟨names', hnames', hany⟩ := hmarked row hrow
      rw [Option.some.inj (hnames.symm.trans hnames')]
      exact hany
    · rw [List.Nodup, List.pairwise_map, List.pairwise_iff_getElem]
      intro i j hi hj hij
      have hrow : rows[i]? = some rows[i] := List.getElem?_eq_getElem hi
      exact name_ne_of_marksRow hrows (h rows hrows _ 0 i _ hrow) hrow (by omega)
        (List.getElem?_eq_getElem hj)
  · intro h rows hrows table now i row hrow
    have hmem := List.mem_of_getElem? hrow
    rcases h rows hrows with rfl | ⟨hshown, hdistinct⟩
    · simp at hrow
    · obtain ⟨names, hnames, hany⟩ := hshown
      refine ⟨_, (planner_done_row hrows hmem).mpr ⟨⟨names, hnames, hany row hmem⟩, rfl⟩,
        fun t ht => not_due_update ht, fun j other hj hother t => ?_⟩
      refine due_update_of_ne fun heq => hj ?_
      -- two lines of one name would be one line
      have hi : i < (rows.map Row.name).length := by
        rw [List.length_map]
        exact (List.getElem?_eq_some_iff.mp hrow).1
      refine ((List.getElem?_inj hi hdistinct).mp ?_).symm
      rw [List.getElem?_map, List.getElem?_map, hrow, hother]
      exact congrArg some heq.symm

end

/-! ## §4 A blank -/

section Concrete

attribute [local instance] NetPulse.Gate.intPyStr NetPulse.Gate.intPyInt

/-- One task, with a blank behind its name. -/
def toner : List (Json Int) := [.obj [("name", .str "Toner "), ("every_days", .num 14)]]

/-- It is shown as "Toner", and of that name the endpoint knows no task. -/
theorem toner_lost :
    shown toner = some [⟨"Toner", 14⟩] ∧
      (∀ table now, planner_done toner table now (some (.str "Toner")) = .notFound) ∧
      ¬MarksWell toner := by
  have hshown : shown toner = some [⟨"Toner", 14⟩] := by decide +kernel
  have hname : shownName (some (.str "Toner") : Option (Json Int)) = "Toner" := by decide +kernel
  have hlost : ∀ table now, planner_done toner table now (some (.str "Toner")) = .notFound := by
    intro table now
    rw [planner_done, hname]
    rfl
  refine ⟨hshown, hlost, fun hmarks => ?_⟩
  obtain ⟨after, hafter, -⟩ := hmarks _ hshown (fun _ => none) 0 0 _ rfl
  rw [hlost] at hafter
  cases hafter

end Concrete

end NetPulse.Ops.Planner
