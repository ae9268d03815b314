import NetPulse.Monitor.ProcessMonitor

/-
# NetPulse.Monitor.IdsWhitelist — for which connections a rule of the whitelist is

`ids_wl_add` stores rules with a process, ports and a path. The loop of `sample` reads the process and
the ports, never the path, and ports that are no numbers are no condition to it. `_wl_match`, the
other reader of the same list, takes a field that is named as a part of the text it stands for; a
rule is read in that way here, and its ports as the numbers they list.
-/

namespace NetPulse.Monitor.IdsWhitelist

open NetPulse.Monitor.ProcessMonitor

/-! ## §1 One rule -/

section Rule

variable (lower : String → String) (int : Chars → Option Int) (r : Rule) (pname path : String)
  (port : Int)

/-- The loop takes the rule for the connection. -/
def admits : Bool := r.proc_ok lower pname && r.ports_ok int port

/-- What the rule names is so of the process, of its path and of the port. -/
structure Matches : Prop where
  process : r.process ≠ "" → within lower r.process pname = true
  path : r.path ≠ "" → within lower r.path path = true
  ports : r.ports ≠ "" → ∃ numbers, portNumbers int r.ports = some numbers ∧ port ∈ numbers

/-- Something that the rule names is otherwise. -/
inductive Contradicts : Prop where
  | process (hne : r.process ≠ "") (h : within lower r.process pname = false)
  | path (hne : r.path ≠ "") (h : within lower r.path path = false)
  | ports (hne : r.ports ≠ "") {numbers : List Int} (hnum : portNumbers int r.ports = some numbers)
      (h : port ∉ numbers)

/-- The path is not named, or a part of the path of the process. -/
def path_ok : Prop := r.path ≠ "" → within lower r.path path = true

/-- The ports are not named, or numbers. -/
def readable : Prop := r.ports ≠ "" → (portNumbers int r.ports).isSome = true

variable {lower int r pname path port}

theorem proc_ok_iff :
    r.proc_ok lower pname = true ↔ (r.process ≠ "" → within lower r.process pname = true) := by
  simp only [Rule.proc_ok, Bool.or_eq_true, decide_eq_true_eq]
  exact or_iff_not_imp_left

theorem ports_ok_of_numbers {numbers : List Int} (hnum : portNumbers int r.ports = some numbers) :
    r.ports_ok int port = true ↔ (r.ports ≠ "" → port ∈ numbers) := by
  by_cases hempty : r.ports = ""
  · simp [Rule.ports_ok, hempty]
  · simp [Rule.ports_ok, hempty, hnum]

/-- A field that is no list of numbers is no condition. -/
theorem ports_ok_of_none (hnum : portNumbers int r.ports = none) : r.ports_ok int port = true := by
  by_cases hempty : r.ports = ""
  · simp [Rule.ports_ok, hempty]
  · simp [Rule.ports_ok, hempty, hnum]

/-- **A rule matches when the loop takes it, its path is right and its ports are numbers.** -/
theorem matches_iff :
    Matches lower int r pname path port ↔
      admits lower int r pname port = true ∧ path_ok lower r path ∧ readable int r := by
  rw [admits, Bool.and_eq_true, proc_ok_iff]
  -- without numbers the loop makes no condition of the ports, and nothing matches them
  cases hnum : portNumbers int r.ports with
  | none =>
      constructor
      · intro h
        have hports : r.ports = "" := by
          by_contra hne
          obtain ⟨numbers, hsome, -⟩ := h.ports hne
          exact absurd (hnum.symm.trans hsome) (by simp)
        exact ⟨⟨h.process, ports_ok_of_none hnum⟩, h.path, fun hne => absurd hports hne⟩
      · rintro ⟨⟨hproc, -⟩, hpath, hread⟩
        refine ⟨hproc, hpath, fun hne => ?_⟩
        have hsome := hread hne
        rw [hnum] at hsome
        cases hsome
  | some numbers =>
      rw [ports_ok_of_numbers hnum]
      constructor
      · intro h
        refine ⟨⟨h.process, fun hne => ?_⟩, h.path, fun _ => by rw [hnum]; rfl⟩
        obtain ⟨numbers', hsome, hmem⟩ := h.ports hne
        rw [Option.some.inj (hnum.symm.trans hsome)]
        exact hmem
      · rintro ⟨⟨hproc, hport⟩, hpath, -⟩
        exact ⟨hproc, hpath, fun hne => ⟨numbers, hnum, hport hne⟩⟩

/-- **A rule that the loop takes can only be contradicted by the path.** -/
theorem not_contradicts_iff (h : admits lower int r pname port = true) :
    ¬ Contradicts lower int r pname path port ↔ path_ok lower r path := by
  rw [admits, Bool.and_eq_true, proc_ok_iff] at h
  constructor
  · intro hno hne
    by_contra hpath
    exact hno (.path hne (Bool.eq_false_iff.mpr hpath))
  · intro hpath hcon
    cases hcon with
    | process hne hother => exact absurd (h.1 hne) (Bool.eq_false_iff.mp hother)
    | path hne hother => exact absurd (hpath hne) (Bool.eq_false_iff.mp hother)
    | ports hne hnum hother => exact hother ((ports_ok_of_numbers hnum).mp h.2 hne)

end Rule

/-! ## §2 The event of a suspicious connection -/

section Monitor

variable (cfg : Settings) (s : State) (now : Time) (c : Conn) (path : String)

/-- But for the whitelist there is an event for the connection. -/
def Suspicious : Prop :=
  s.counts cfg c = true ∧ c.port ∈ cfg.suspicious_ports ∧
    300000 < now - s.last_alert (c.ip, c.port)

/-- An event is withheld only for a rule that matches, and the loop takes no rule that the connection
contradicts. `path` is the one of its process. -/
structure Precise : Prop where
  withheld : Suspicious cfg s now c → (s.suspect cfg now c).raised = s.raised →
    ∃ r ∈ cfg.whitelist, Matches cfg.lower cfg.int r c.process path c.port
  taken : ∀ r ∈ cfg.whitelist, admits cfg.lower cfg.int r c.process c.port = true →
    ¬ Contradicts cfg.lower cfg.int r c.process path c.port

/-- Every rule that the loop takes is right about the path, and one of them has ports that are
numbers, or none. -/
structure Sharp : Prop where
  paths : ∀ r ∈ cfg.whitelist, admits cfg.lower cfg.int r c.process c.port = true →
    path_ok cfg.lower r path
  numbers : Suspicious cfg s now c →
    ∀ r ∈ cfg.whitelist, admits cfg.lower cfg.int r c.process c.port = true →
      ∃ r' ∈ cfg.whitelist, admits cfg.lower cfg.int r' c.process c.port = true ∧ readable cfg.int r'

variable {cfg s now c path}

/-- The event is withheld exactly where the loop takes a rule. -/
theorem withheld_iff (h : Suspicious cfg s now c) :
    (s.suspect cfg now c).raised = s.raised ↔
      ∃ r ∈ cfg.whitelist, admits cfg.lower cfg.int r c.process c.port = true := by
  have hhit : wl_hit cfg.lower cfg.int cfg.whitelist c.process c.port = true ↔
      ∃ r ∈ cfg.whitelist, admits cfg.lower cfg.int r c.process c.port = true := List.any_eq_true
  have hsus : s.suspects cfg c = !wl_hit cfg.lower cfg.int cfg.whitelist c.process c.port := by
    simp [State.suspects, h.1, h.2.1]
  rw [← hhit]
  cases hw : wl_hit cfg.lower cfg.int cfg.whitelist c.process c.port with
  | true =>
      have hdue : s.announces cfg (.suspect now c) = none := by
        simp [State.announces, hsus, hw]
      exact iff_of_true (step_silent hdue).1 rfl
  | false =>
      have hdue : s.announces cfg (.suspect now c) =
          some ⟨now, "SUSPICIOUS_CONN", suspiciousMessage c⟩ := by
        simp [State.announces, hsus, hw, h.2.2]
      have hraised : (s.suspect cfg now c).raised = _ := (step_loud hdue).1
      rw [hraised]
      simp

end Monitor

/-- **The whitelist is precise for a connection exactly when the rules that the loop takes are right
about the path, and one of them has no ports that it cannot read.** -/
theorem precise_iff (cfg : Settings) (s : State) (now : Time) (c : Conn) (path : String) :
    Precise cfg s now c path ↔ Sharp cfg s now c path := by
  constructor
  · intro h
    refine ⟨fun r hr hadm => (not_contradicts_iff hadm).mp (h.taken r hr hadm), ?_⟩
    intro hsus r hr hadm
    obtain ⟨r', hr', hmatch⟩ := h.withheld hsus ((withheld_iff hsus).mpr ⟨r, hr, hadm⟩)
    have hparts := matches_iff.mp hmatch
    exact ⟨r', hr', hparts.1, hparts.2.2⟩
  · intro h
    refine ⟨fun hsus hsame => ?_, fun r hr hadm => (not_contradicts_iff hadm).mpr (h.paths r hr hadm)⟩
    obtain ⟨r, hr, hadm⟩ := (withheld_iff hsus).mp hsame
    obtain ⟨r', hr', hadm', hread⟩ := h.numbers hsus r hr hadm
    exact ⟨r', hr', matches_iff.mpr ⟨hadm', h.paths r' hr' hadm', hread⟩⟩

/-- A rule for the program at a path. -/
def toolRule : Rule := ⟨"", "", "/opt/tool", by decide⟩

/-- A rule whose ports are given as a range. -/
def rangeRule : Rule := ⟨"", "3389-3400", "", by decide⟩

def withRule (r : Rule) : Settings := { Settings.shipped with whitelist := [r] }

/-- A connection to a suspicious port, by a program that no rule is about. -/
def stranger : Conn := ⟨1, "implant", "10.0.0.7", 4444, "ESTABLISHED"⟩

/-- Either rule, stored as it was sent, ends the detection for every program. -/
theorem strange_program_withheld :
    (ids_wl_add "" "" "/opt/tool" = some toolRule ∧
        ¬ Precise (withRule toolRule) State.start 600000 stranger "/tmp/implant") ∧
      ids_wl_add "" "3389-3400" "" = some rangeRule ∧
        ¬ Precise (withRule rangeRule) State.start 600000 stranger "/tmp/implant" := by
  have hsus : ∀ r, Suspicious (withRule r) State.start 600000 stranger := by
    intro r
    exact ⟨rfl, List.mem_cons_self, by decide⟩
  refine ⟨⟨rfl, fun h => ?_⟩, rfl, fun h => ?_⟩
  · refine h.taken toolRule List.mem_cons_self (by decide) (.path (by decide) (by decide))
  · have hsame := (withheld_iff (hsus _)).mpr ⟨rangeRule, List.mem_cons_self, by decide⟩
    obtain ⟨r, hr, hmatch⟩ := h.withheld (hsus _) hsame
    obtain rfl := List.mem_singleton.mp hr
    obtain ⟨numbers, hnum, -⟩ := hmatch.ports (by decide)
    have hnone : portNumbers (withRule rangeRule).int rangeRule.ports = none := by decide
    rw [hnone] at hnum
    cases hnum

end NetPulse.Monitor.IdsWhitelist
