import NetPulse.Lib.Dict
import NetPulse.Lib.Template
import NetPulse.Lib.Text

/-
# NetPulse.Ops.Runbooks — the runbooks of a department (`runbooks.py`)

A runbook is a PowerShell template with `{placeholders}` and the list of its parameters. `execute`
checks what a caller supplied, fills the template and starts `powershell`; a remote runbook goes
through `Invoke-Command` to the parameter `host`. The built-in runbook looks at the disks and starts
nothing.

What a caller supplies is of any type `V`, of which the code uses `str` alone. The alert and the
inventory note behind a run are left out.
-/

namespace NetPulse.Ops.Runbooks

open NetPulse.Lib NetPulse.Lib.Text
open NetPulse.Lib.Template (Piece Marks pieces holes fill written)

/-! ## §1 What a parameter may be -/

/-- `[A-Za-z0-9._-]` -/
def paramChar : CodePoint → Bool
  | .scalar c => c.isAlphanum || c == '.' || c == '_' || c == '-'
  | .surrogate _ => false

/-- `PARAM_RE.match(s)`. Its `$` is also true before a newline at the end. -/
def PARAM_RE (s : Text) : Bool :=
  let body := s.takeWhile paramChar
  let rest := s.dropWhile paramChar
  decide (1 ≤ body.length) && decide (body.length ≤ 64) && (rest == [] || rest == lit "\n")

/-- The whole text is `[A-Za-z0-9._-]{1,64}`. -/
structure Allowed (s : Text) : Prop where
  nonempty : 1 ≤ s.length
  short : s.length ≤ 64
  chars : ∀ c ∈ s, paramChar c = true

instance (s : Text) : Decidable (Allowed s) :=
  decidable_of_iff (1 ≤ s.length ∧ s.length ≤ 64 ∧ ∀ c ∈ s, paramChar c = true)
    ⟨fun h => ⟨h.1, h.2.1, h.2.2⟩, fun h => ⟨h.nonempty, h.short, h.chars⟩⟩

theorem paramRe_cases {s : Text} (h : PARAM_RE s = true) :
    Allowed s ∨ ∃ body, Allowed body ∧ s = body ++ lit "\n" := by
  simp only [PARAM_RE, Bool.and_eq_true, Bool.or_eq_true, decide_eq_true_eq, beq_iff_eq] at h
  obtain ⟨⟨hpos, hshort⟩, hrest⟩ := h
  have hbody : Allowed (s.takeWhile paramChar) :=
    ⟨hpos, hshort, fun c hc => List.mem_takeWhile_imp hc⟩
  have hsplit : s.takeWhile paramChar ++ s.dropWhile paramChar = s :=
    List.takeWhile_append_dropWhile
  rcases hrest with hrest | hrest
  · rw [hrest, List.append_nil] at hsplit
    rw [hsplit] at hbody
    exact .inl hbody
  · rw [hrest] at hsplit
    exact .inr ⟨_, hbody, hsplit.symm⟩

/-- **Of a stripped text the pattern is for the whole of it**: there is no newline at its end. -/
theorem allowed_of_paramRe_strip {s : Text} (h : PARAM_RE s.strip = true) : Allowed s.strip := by
  rcases paramRe_cases h with hall | ⟨body, -, hbody⟩
  · exact hall
  · have hne : s.strip ≠ [] := by
      rw [hbody]
      simp [lit]
    have hlast : ¬isSpace (s.strip.getLast hne) = true := List.rdropWhile_last_not isSpace _ hne
    have hnewline : s.strip.getLast hne = .scalar '\n' := by
      simp [hbody, lit]
    exact absurd (by rw [hnewline]; decide) hlast

/-- `[a-z_]` -/
def placeholderChar : CodePoint → Bool
  | .scalar c => c.isLower || c == '_'
  | .surrogate _ => false

/-- `\{([a-z_]+)\}` -/
def PLACEHOLDER_RE : Marks CodePoint where
  left := .scalar '{'
  right := .scalar '}'
  nameChar := placeholderChar

/-! ## §2 Runbooks -/

section

variable {K V : Type} [DecidableEq K]

/-- The name of a declared parameter: a text, or another value that can be a key. -/
inductive ParamName (K : Type) where
  | text (s : Text)
  | other (k : K)
  deriving DecidableEq

structure Param (K : Type) where
  /-- `p.get("name")`; `none` for a value that cannot be a key. -/
  name : Option (ParamName K)
  required : Bool

structure Runbook (K : Type) where
  /-- `rb.get('builtin') == 'disk_space'` -/
  builtin : Bool
  /-- `rb.get("scope") == "remote"` -/
  remote : Bool
  /-- `str(rb.get("command", ""))` -/
  command : Text
  /-- `rb.get("params") or []`; `none` when it cannot be gone through, or has a part that is no
  object. -/
  params : Option (List (Param K))

def namesFrom (names : Dict (ParamName K) Bool) :
    List (Param K) → Option (Dict (ParamName K) Bool)
  | [] => some names
  | p :: rest => p.name.bind fun n => namesFrom (names.set n p.required) rest

/-- `{p.get("name"): bool(p.get("required")) for p in declared}`; `none` is an exception. -/
def Runbook.names (rb : Runbook K) : Option (Dict (ParamName K) Bool) :=
  rb.params.bind (namesFrom Dict.empty)

/-- One of the parameters of the runbook has this name. -/
def Runbook.Declares (rb : Runbook K) (name : Text) : Prop :=
  ∃ declared, rb.params = some declared ∧ ∃ p ∈ declared, p.name = some (.text name)

/-- It has this name and is required. Of two with one name the second counts. -/
def Runbook.Requires (rb : Runbook K) (name : ParamName K) : Prop :=
  ∃ names, rb.names = some names ∧ names.get name = some true


/-- Why a runbook does not run. The text of a set lists its members, sorted or not. -/
inductive Refusal (K : Type) where
  /-- "Runbooks отключены" -/
  | disabled
  /-- "runbook не найден" -/
  | notFound
  /-- "Этот сценарий требует Windows и PowerShell" -/
  | needsWindows
  /-- "недопустимый параметр {k}" -/
  | badParam (name : Text)
  /-- "не хватает параметра {pname}" -/
  | missingParam (name : ParamName K)
  /-- "лишние параметры: {…}" -/
  | extraParams (names : List Text)
  /-- "не заданы плейсхолдеры: {…}" -/
  | missingPlaceholders (names : List Text)
  /-- "для remote нужен host" -/
  | needsHost
  deriving DecidableEq

/-! ## §3 The check of the parameters -/

-- `str` of a value that a caller supplies
variable (str : V → Text)

/-- The loop over the parameters: `clean`, or the first one that is not allowed. -/
def cleanOf : List (Text × V) → Except Text (List (Text × Text))
  | [] => .ok []
  | (k, v) :: rest =>
      if PARAM_RE k = true ∧ PARAM_RE (str v).strip = true then
        match cleanOf rest with
        | .ok clean => .ok ((k, (str v).strip) :: clean)
        | .error name => .error name
      else .error k

/-- `pname in clean` -/
def given (clean : List (Text × Text)) : ParamName K → Bool
  | .text s => (Dict.lookup s clean).isSome
  | .other _ => false

def _validate_params (names : Dict (ParamName K) Bool) (params : Dict Text V) :
    Except (Refusal K) (List (Text × Text)) :=
  match cleanOf str params.items with
  | .error name => .error (.badParam name)
  | .ok clean =>
      match names.items.find? fun e => e.2 && !given clean e.1 with
      | some e => .error (.missingParam e.1)
      | none =>
          let unknown := (clean.map Prod.fst).filter fun k => !names.contains (.text k)
          if unknown = [] then .ok clean else .error (.extraParams unknown)

/-! ## §4 `execute` -/

structure Site (K : Type) where
  /-- `cfg.get('runbooks', {}).get('enabled', True)` -/
  enabled : Bool
  /-- `sys.platform == 'win32'` -/
  win32 : Bool
  /-- `_defs` -/
  defs : Text → Option (Runbook K)

/-- How a command, or the look at the disks, ended. -/
structure Exit where
  code : Int
  output : Text

structure LogRow where
  runbook : Text
  params : List (Text × Text)
  actor : Text
  target : Text
  exit_code : Int
  output : Text

inductive Answer (K : Type) where
  | error (why : Refusal K)
  /-- An exception goes to the caller. -/
  | raised
  | done (exit_code : Int) (output target runbook : Text)

/-- What a call does: the commands that were started, the rows of `runbook_log` and the answer. -/
structure Effects (K : Type) where
  commands : List (List Text)
  log : List LogRow
  answer : Answer K

def Effects.refuse (why : Refusal K) : Effects K := ⟨[], [], .error why⟩

/-- `$ErrorActionPreference=…` -/
def preamble : Text :=
  lit "$ErrorActionPreference='Stop'; [Console]::OutputEncoding=[System.Text.Encoding]::UTF8; "

def powershell (body : Text) : List Text :=
  [lit "powershell", lit "-NoProfile", lit "-NonInteractive", lit "-Command", preamble ++ body]

/-- `f"Invoke-Command -ComputerName '{host}' -ScriptBlock {{ {rendered} }}"` -/
def invokeOn (host rendered : Text) : Text :=
  lit "Invoke-Command -ComputerName '" ++ host ++ lit "' -ScriptBlock \x7b " ++ rendered ++ lit " \x7d"

def host : Text := lit "host"

def Runbook.pieces (rb : Runbook K) : List (Piece CodePoint) :=
  Template.pieces PLACEHOLDER_RE rb.command

/-- `clean.get(m.group(1), m.group(0))` -/
def valueIn (clean : List (Text × Text)) (name : Text) : Text :=
  (Dict.lookup name clean).getD (written PLACEHOLDER_RE name)

/-- What is logged and answered behind a run. -/
def report (rb_id : Text) (clean : List (Text × Text)) (actor : Text) (commands : List (List Text))
    (exit : Exit) : Effects K :=
  let target := (Dict.lookup host clean).getD []
  { commands := commands
    log := [⟨rb_id, clean, actor.take 60, if target = [] then lit "-" else target, exit.code,
      exit.output⟩]
    answer := .done exit.code exit.output.strip
      (if target = [] then lit "Этот сервер" else target) rb_id }

/-- `execute`; `tool` is the end of a command and `disks` that of the built-in one. -/
def execute (site : Site K) (tool : List Text → Exit) (disks : Exit) (rb_id : Text)
    (params : Dict Text V) (actor : Text) : Effects K :=
  if !site.enabled then .refuse .disabled
  else
    match site.defs rb_id with
    | none => .refuse .notFound
    | some rb =>
        if !rb.builtin && !site.win32 then .refuse .needsWindows
        else
          match rb.names with
          | none => ⟨[], [], .raised⟩
          | some names =>
              match _validate_params str names params with
              | .error why => .refuse why
              | .ok clean =>
                  let missing := (holes rb.pieces).filter fun n => (Dict.lookup n clean).isNone
                  if missing ≠ [] then .refuse (.missingPlaceholders missing)
                  else
                    let rendered := fill (valueIn clean) rb.pieces
                    let target := (Dict.lookup host clean).getD []
                    if rb.remote && decide (target = []) then .refuse .needsHost
                    else if rb.builtin then report rb_id clean actor [] disks
                    else
                      let argv :=
                        powershell (if rb.remote then invokeOn target rendered else rendered)
                      report rb_id clean actor [argv] (tool argv)

/-! ## §5 What the check lets through -/

section

variable {str : V → Text} {names : Dict (ParamName K) Bool} {params : Dict Text V}
  {clean : List (Text × Text)} {rb : Runbook K} {name : Text}

/-- Every value of `clean` is the stripped text of a supplied one, and allowed. -/
theorem cleanOf_lookup {items : List (Text × V)} (h : cleanOf str items = .ok clean) (k : Text) :
    Dict.lookup k clean = (Dict.lookup k items).map (fun v => (str v).strip) ∧
      ∀ v, Dict.lookup k items = some v → Allowed (str v).strip := by
  induction items generalizing clean with
  | nil =>
      obtain rfl : [] = clean := by simpa [cleanOf] using h
      exact ⟨rfl, fun v hv => by simp [Dict.lookup] at hv⟩
  | cons e rest ih =>
      obtain ⟨k', v'⟩ := e
      rw [cleanOf] at h
      split_ifs at h with hre
      rcases hrest : cleanOf str rest with name | clean'
      · simp [hrest] at h
      · obtain rfl : (k', (str v').strip) :: clean' = clean := by simpa [hrest] using h
        obtain ⟨hlook, hall⟩ := ih hrest
        by_cases hk : k' = k
        · subst hk
          refine ⟨by simp [Dict.lookup], fun v hv => ?_⟩
          obtain rfl : v' = v := by simpa [Dict.lookup] using hv
          exact allowed_of_paramRe_strip hre.2
        · simp only [Dict.lookup, if_neg hk]
          exact ⟨hlook, hall⟩

theorem cleanOf_keys {items : List (Text × V)} (h : cleanOf str items = .ok clean) :
    clean.map Prod.fst = items.map Prod.fst := by
  induction items generalizing clean with
  | nil =>
      obtain rfl : [] = clean := by simpa [cleanOf] using h
      rfl
  | cons e rest ih =>
      obtain ⟨k', v'⟩ := e
      rw [cleanOf] at h
      split_ifs at h with hre
      rcases hrest : cleanOf str rest with name | clean'
      · simp [hrest] at h
      · obtain rfl : (k', (str v').strip) :: clean' = clean := by simpa [hrest] using h
        simp [ih hrest]

/-- What the check lets through: what was supplied, all of it declared, with all that is required. -/
structure Valid (str : V → Text) (names : Dict (ParamName K) Bool) (params : Dict Text V)
    (clean : List (Text × Text)) : Prop where
  value : ∀ k, Dict.lookup k clean = (params.get k).map fun v => (str v).strip
  allowed : ∀ k v, params.get k = some v → Allowed (str v).strip
  declared : ∀ k ∈ params.keys, (names.get (.text k)).isSome = true
  required : ∀ n, names.get n = some true → given clean n = true

theorem valid_of_ok (h : _validate_params str names params = .ok clean) :
    Valid str names params clean := by
  unfold _validate_params at h
  rcases hclean : cleanOf str params.items with name | clean'
  · simp [hclean] at h
  · simp only [hclean] at h
    rcases hmiss : names.items.find? fun e => e.2 && !given clean' e.1 with _ | e
    · simp only [hmiss] at h
      split_ifs at h with hunknown
      obtain rfl : clean' = clean := by simpa using h
      refine ⟨fun k => (cleanOf_lookup hclean k).1, fun k => (cleanOf_lookup hclean k).2, ?_, ?_⟩
      · intro k hk
        rw [List.filter_eq_nil_iff] at hunknown
        have hmem : k ∈ clean'.map Prod.fst := by
          rw [cleanOf_keys hclean]
          exact hk
        simpa [Dict.contains, Option.isSome_iff_ne_none] using hunknown k hmem
      · intro n hn
        rw [List.find?_eq_none] at hmiss
        simpa using hmiss (n, true) ((Dict.mem_items_iff names).mpr hn)
    · simp [hmiss] at h

theorem mem_of_namesFrom {l : List (Param K)} {d : Dict (ParamName K) Bool}
    (h : namesFrom d l = some names) {n : ParamName K} (hn : (names.get n).isSome = true) :
    (d.get n).isSome = true ∨ ∃ p ∈ l, p.name = some n := by
  induction l generalizing d with
  | nil =>
      obtain rfl : d = names := by simpa [namesFrom] using h
      exact .inl hn
  | cons p rest ih =>
      obtain ⟨n', hn', hrest⟩ := Option.bind_eq_some_iff.mp h
      rcases ih hrest with hget | ⟨q, hq, hname⟩
      · by_cases hne : n = n'
        · exact .inr ⟨p, List.mem_cons_self, hne ▸ hn'⟩
        · rw [Dict.get_set_of_ne d p.required hne] at hget
          exact .inl hget
      · exact .inr ⟨q, List.mem_cons_of_mem _ hq, hname⟩

/-- A key of `names` is the name of a declared parameter. -/
theorem declares_of_get (h : rb.names = some names) (hn : (names.get (.text name)).isSome = true) :
    rb.Declares name := by
  obtain ⟨declared, hdeclared, h⟩ := Option.bind_eq_some_iff.mp h
  rcases mem_of_namesFrom h hn with hempty | hmem
  · simp at hempty
  · exact ⟨declared, hdeclared, hmem⟩

/-! ## §6 The command that is started -/

/-- The command of a runbook with a text for every parameter. -/
def Runbook.commandLine (rb : Runbook K) (value : Text → Text) : List Text :=
  let rendered := fill value rb.pieces
  powershell (if rb.remote then invokeOn (value host) rendered else rendered)

/-- The parameters of which the value is put into the command. -/
def Runbook.slots (rb : Runbook K) : List Text :=
  holes rb.pieces ++ if rb.remote then [host] else []

/-- The text that a caller supplied, stripped. -/
def supplied (str : V → Text) (params : Dict Text V) (name : Text) : Text :=
  ((params.get name).map fun v => (str v).strip).getD []

/-- The caller supplied what the runbook declares, all that it needs, and nothing that is not
allowed. -/
structure Fits (str : V → Text) (rb : Runbook K) (params : Dict Text V) : Prop where
  known : ∀ k ∈ params.keys, rb.Declares k
  required : ∀ n, rb.Requires n → ∃ k, n = .text k ∧ (params.get k).isSome = true
  filled : ∀ k ∈ rb.slots, (params.get k).isSome = true
  allowed : ∀ k v, params.get k = some v → Allowed (str v).strip

/-- Nothing was started, nothing is logged, and the caller has an error. -/
structure Rejected (e : Effects K) : Prop where
  commands : e.commands = []
  log : e.log = []
  answer : e.answer = .raised ∨ ∃ why, e.answer = .error why

omit [DecidableEq K] in
theorem rejected_refuse (why : Refusal K) : Rejected (Effects.refuse why) :=
  ⟨rfl, rfl, .inr ⟨why, rfl⟩⟩

omit [DecidableEq K] in
/-- Only the slots are read. -/
theorem commandLine_congr {f g : Text → Text} (h : ∀ k ∈ rb.slots, f k = g k) :
    rb.commandLine f = rb.commandLine g := by
  have hfill : fill f rb.pieces = fill g rb.pieces :=
    Template.fill_congr fun name hname => h name (List.mem_append_left _ hname)
  unfold Runbook.commandLine
  rw [hfill]
  by_cases hremote : rb.remote = true
  · have hhost : f host = g host := h host (by simp [Runbook.slots, hremote])
    rw [hhost]
  · simp [hremote]

theorem fits_of_valid (hnames : rb.names = some names) (h : Valid str names params clean)
    (hslots : ∀ k ∈ rb.slots, (Dict.lookup k clean).isSome = true) : Fits str rb params where
  known := fun k hk => declares_of_get hnames (h.declared k hk)
  required := by
    rintro n ⟨names', hnames', hn⟩
    obtain rfl : names = names' := Option.some.inj (hnames.symm.trans hnames')
    have hgiven := h.required n hn
    rcases n with k | k
    · refine ⟨k, rfl, ?_⟩
      simpa [given, h.value] using hgiven
    · simp [given] at hgiven
  filled := fun k hk => by simpa [h.value] using hslots k hk
  allowed := h.allowed

variable (str params) (site : Site K) (tool : List Text → Exit) (disks : Exit) (rb_id actor : Text)

/-- **Every call is rejected, or was in order**; then it is the built-in runbook or has started the
command of its template. -/
theorem execute_cases :
    Rejected (execute str site tool disks rb_id params actor) ∨
      ∃ rb, site.defs rb_id = some rb ∧ Fits str rb params ∧
        (execute str site tool disks rb_id params actor).commands =
          if rb.builtin then [] else [rb.commandLine (supplied str params)] := by
  unfold execute
  by_cases henabled : site.enabled = true
  swap
  · simp only [henabled, Bool.not_false, if_true]
    exact .inl (rejected_refuse _)
  simp only [henabled, Bool.not_true, Bool.false_eq_true, if_false]
  rcases hrb : site.defs rb_id with _ | rb
  · exact .inl (rejected_refuse _)
  dsimp only
  by_cases hplatform : (!rb.builtin && !site.win32) = true
  · rw [if_pos hplatform]
    exact .inl (rejected_refuse _)
  rw [if_neg hplatform]
  rcases hnames : rb.names with _ | names
  · exact .inl ⟨rfl, rfl, .inl rfl⟩
  dsimp only
  rcases hvalid : _validate_params str names params with why | clean
  · exact .inl (rejected_refuse _)
  -- the parameters are in order; what is left is whether the template has all it needs
  have h := valid_of_ok hvalid
  dsimp only
  by_cases hmissing : (holes rb.pieces).filter (fun n => (Dict.lookup n clean).isNone) ≠ []
  · rw [if_pos hmissing]
    exact .inl (rejected_refuse _)
  rw [if_neg hmissing]
  by_cases hhost : (rb.remote && decide ((Dict.lookup host clean).getD [] = [])) = true
  · rw [if_pos hhost]
    exact .inl (rejected_refuse _)
  rw [if_neg hhost]
  have hslots : ∀ k ∈ rb.slots, (Dict.lookup k clean).isSome = true := by
    intro k hk
    rcases List.mem_append.mp hk with hk | hk
    · rw [not_not, List.filter_eq_nil_iff] at hmissing
      simpa [Option.isSome_iff_ne_none] using hmissing k hk
    · -- a host that is not supplied is the empty text
      by_cases hremote : rb.remote = true
      · obtain rfl : k = host := by simpa [hremote] using hk
        rcases hlook : Dict.lookup host clean with _ | t
        · simp [hremote, hlook] at hhost
        · rfl
      · simp [hremote] at hk
  refine .inr ⟨rb, rfl, fits_of_valid hnames h hslots, ?_⟩
  by_cases hbuiltin : rb.builtin = true
  · simp [hbuiltin, report]
  · have hvalue : ∀ k ∈ rb.slots, valueIn clean k = supplied str params k := by
      intro k hk
      obtain ⟨t, ht⟩ := Option.isSome_iff_exists.mp (hslots k hk)
      rw [valueIn, supplied, ← h.value, ht]
      rfl
    have hline : rb.commandLine (valueIn clean) = rb.commandLine (supplied str params) :=
      commandLine_congr hvalue
    have htarget : rb.remote = true → (Dict.lookup host clean).getD [] = valueIn clean host := by
      intro hremote
      obtain ⟨t, ht⟩ := Option.isSome_iff_exists.mp (hslots host (by simp [Runbook.slots, hremote]))
      rw [valueIn, ht]
      rfl
    rw [← hline]
    by_cases hremote : rb.remote = true
    · simp [hbuiltin, report, Runbook.commandLine, hremote, htarget hremote]
    · simp [hbuiltin, report, Runbook.commandLine, hremote]

end

end

end NetPulse.Ops.Runbooks
