import NetPulse.Lib.Machine
import NetPulse.Lib.Spacing
import NetPulse.Server.Unauthenticated

/-
# NetPulse.Ops.Healing — runbooks that events start (`healing.py`)

A rule names an event and a runbook. `on_event` goes through the rules, and starts the runbook of
each that is for the event, needs no confirmation and was not started for the host too recently. The
limiter keeps the time of the last start, by the index of the rule and the host.

Every look at the clock is a reading of its own. A step of the machine is one event with its
readings; clocks do not go back. What a runbook then does is left out, and so are the journal and
the list of the rules.
-/

namespace NetPulse.Ops.Healing

open NetPulse.Lib NetPulse.Lib.Json
open NetPulse.Gate (PyStr text eachOf IntRead PyInt)

abbrev Time := ℚ

section

variable {Num : Type} [Truth Num] [PyStr Num] [PyInt Num]

/-! ## §1 Rules -/

/-- `cfg.get("enabled")`, which is false when it is missing. -/
def enabled (healing : Entries Num) : Bool := (Dict.lookup "enabled" healing).elim false truthy

/-- `cfg.get("rules") or []`, one by one; `none` if that is an exception. -/
def rules (healing : Entries Num) : Option (List (Json Num)) :=
  match Dict.lookup "rules" healing with
  | none => some []
  | some value => eachOf (some value)

/-- `int(rule.get("max_per_hour") or 1)` -/
def maxPerHour (rule : Entries Num) : IntRead :=
  ((Dict.lookup "max_per_hour" rule).filter truthy).elim (.value 1) PyInt.int

/-- `rule.get("confirm")` -/
def confirm (rule : Entries Num) : Bool := (Dict.lookup "confirm" rule).elim false truthy

/-- `str(rule.get("on_event"))` -/
def on_event (rule : Entries Num) : String := text ((Dict.lookup "on_event" rule).getD .null)

/-- `str(rule.get("runbook") or "")` -/
def runbook (rule : Entries Num) : String :=
  ((Dict.lookup "runbook" rule).filter truthy).elim "" text

/-- What the loop does with a rule. -/
inductive Verdict (Num : Type) where
  | skip
  /-- `int` fails, and nothing catches it. -/
  | raise
  | limit (rule : Entries Num) (max_per_hour : Int)

def judge (kind severity : String) : Json Num → Verdict Num
  | .obj rule =>
      if on_event rule ≠ kind then .skip
      else if confirm rule then .skip
      else if severity = "LOW" then .skip
      else
        match maxPerHour rule with
        | .value n => .limit rule n
        | _ => .raise
  | _ => .skip

/-! ## §2 The limiter -/

/-- A runbook that was started. -/
structure Action (Num : Type) where
  rule_idx : Nat
  rule : Entries Num
  kind : String
  severity : String
  /-- `""` for no host. -/
  host : String
  time : Time

structure State (Num : Type) where
  _last_run : Nat × String → Option Time
  clock : Time
  /-- The latest first. -/
  actions : List (Action Num)

def init (clock : Time) : State Num := ⟨fun _ => none, clock, []⟩

/-- `3600 / max(1, max_per_hour)` -/
def interval (max_per_hour : Int) : Time := 3600 / ((max 1 max_per_hour : Int) : ℚ)

/-- `_rate_ok`, at a time `now`. -/
def _rate_ok (s : State Num) (key : Nat × String) (max_per_hour : Int) (now : Time) :
    Bool × State Num :=
  if now - (s._last_run key).getD 0 < interval max_per_hour then (false, { s with clock := now })
  else (true, { s with _last_run := Function.update s._last_run key (some now), clock := now })

structure Event where
  kind : String
  severity : String
  host_name : Option String
  /-- What the clock shows, look by look. -/
  readings : List Time

/-- `host or ""` -/
def Event.host (e : Event) : String := e.host_name.getD ""

/-- The loop from the rule `idx` on. `none` when the clock goes back or has no more to show. -/
def onRules (e : Event) : Nat → List (Json Num) → List Time → State Num → Option (State Num)
  | _, [], _, s => some s
  | idx, r :: rest, readings, s =>
      match judge e.kind e.severity r with
      | .skip => onRules e (idx + 1) rest readings s
      | .raise => some s
      | .limit rule n =>
          match readings with
          | [] => none
          | now :: readings =>
              if now < s.clock then none
              else
                let (allowed, s) := _rate_ok s (idx, e.host) n now
                let s :=
                  if allowed then
                    { s with actions := ⟨idx, rule, e.kind, e.severity, e.host, now⟩ :: s.actions }
                  else s
                onRules e (idx + 1) rest readings s

/-- `on_event` -/
def machine (healing : Entries Num) : Machine (State Num) Event where
  step := fun s e =>
    if !enabled healing then some s
    else
      match rules healing with
      | none => some s
      | some rules => onRules e 0 rules e.readings s

/-! ## §3 What one rule leaves -/

/-- The starts for a rule and a host. -/
def State.times (s : State Num) (idx : Nat) (host : String) : List Time :=
  (s.actions.filter fun a => decide (a.rule_idx = idx ∧ a.host = host)).map Action.time

/-- The runbook was started for a rule of the list, as the rule allows. -/
structure Action.Allowed (healing : Entries Num) (a : Action Num) : Prop where
  enabled : enabled healing = true
  listed : ∃ l, rules healing = some l ∧ l[a.rule_idx]? = some (.obj a.rule)
  event : on_event a.rule = a.kind
  confirm : confirm a.rule = false
  severity : a.severity ≠ "LOW"
  limited : ∃ n, maxPerHour a.rule = .value n

structure Inv (healing : Entries Num) (s : State Num) : Prop where
  allowed : ∀ a ∈ s.actions, a.Allowed healing
  last : ∀ idx host, s._last_run (idx, host) = (s.times idx host).head?
  spaced : ∀ l idx host rule n, rules healing = some l → l[idx]? = some (.obj rule) →
    maxPerHour rule = .value n → Spaced (interval n) (s.times idx host)

variable {healing : Entries Num} {s s' : State Num} {e : Event}

theorem interval_pos (n : Int) : 0 < interval n := by
  have hmax : (0 : ℚ) < ((max 1 n : Int) : ℚ) := by
    exact_mod_cast lt_of_lt_of_le Int.one_pos (le_max_left 1 n)
  exact div_pos (by norm_num) hmax

omit [Truth Num] [PyStr Num] [PyInt Num] in
/-- A start is at least an interval behind the one before. -/
theorem gap_of_allowed {key : Nat × String} {n : Int} {now : Time}
    (h : ¬now - (s._last_run key).getD 0 < interval n) :
    ∀ last ∈ s._last_run key, last + interval n ≤ now := by
  intro last hlast
  rw [Option.mem_def.mp hlast, Option.getD_some] at h
  linarith

omit [Truth Num] [PyStr Num] [PyInt Num] in
theorem times_cons (a : Action Num) (as : List (Action Num)) (f : Nat × String → Option Time)
    (clock : Time) (idx : Nat) (host : String) :
    State.times ⟨f, clock, a :: as⟩ idx host =
      if a.rule_idx = idx ∧ a.host = host then a.time :: State.times ⟨f, clock, as⟩ idx host
      else State.times ⟨f, clock, as⟩ idx host := by
  unfold State.times
  rw [List.filter_cons]
  by_cases h : a.rule_idx = idx ∧ a.host = host <;> simp [h]

/-- A rule that is passed leaves what was there. -/
theorem Inv.tick (h : Inv healing s) (now : Time) : Inv healing { s with clock := now } :=
  ⟨h.allowed, h.last, h.spaced⟩

/-- A start that the limiter allows. -/
theorem Inv.start (h : Inv healing s) {l : List (Json Num)} {idx : Nat} {rule : Entries Num}
    {n : Int} {now : Time} (hrules : rules healing = some l) (hrule : l[idx]? = some (.obj rule))
    (hn : maxPerHour rule = .value n) {a : Action Num} (ha : a.Allowed healing)
    (hidx : a.rule_idx = idx) (hhost : a.host = e.host) (htime : a.time = now)
    (hgap : ∀ last ∈ s._last_run (idx, e.host), last + interval n ≤ now) :
    Inv healing ⟨Function.update s._last_run (idx, e.host) (some now), now, a :: s.actions⟩ where
  allowed := by
    intro b hb
    rcases List.mem_cons.mp hb with rfl | hb
    · exact ha
    · exact h.allowed b hb
  last := by
    intro idx' host'
    rw [times_cons, hidx, hhost, htime]
    by_cases hkey : idx = idx' ∧ e.host = host'
    · obtain ⟨rfl, rfl⟩ := hkey
      rw [if_pos ⟨rfl, rfl⟩]
      exact Function.update_self _ _ _
    · have hne : (idx', host') ≠ (idx, e.host) := by
        rintro heq
        obtain ⟨rfl, rfl⟩ := Prod.mk.inj heq
        exact hkey ⟨rfl, rfl⟩
      rw [if_neg hkey]
      exact (Function.update_of_ne hne _ _).trans (h.last idx' host')
  spaced := by
    intro l' idx' host' rule' n' hrules' hrule' hn'
    rw [times_cons, hidx, hhost, htime]
    by_cases hkey : idx = idx' ∧ e.host = host'
    · obtain ⟨rfl, rfl⟩ := hkey
      rw [if_pos ⟨rfl, rfl⟩]
      -- the rule is the same, so its interval is
      obtain rfl : l = l' := Option.some.inj (hrules.symm.trans hrules')
      obtain rfl : rule = rule' := by simpa using hrule.symm.trans hrule'
      obtain rfl : n = n' := by simpa using hn.symm.trans hn'
      have hspaced := h.spaced l idx e.host rule n hrules hrule hn
      have hlast := h.last idx e.host
      refine Spaced.cons (interval_pos n).le hspaced fun last hlast' => hgap last ?_
      rw [hlast]
      exact hlast'
    · rw [if_neg hkey]
      exact h.spaced l' idx' host' rule' n' hrules' hrule' hn'

/-- What a rule that may start a runbook is like. -/
theorem judge_limit {kind severity : String} {r : Json Num} {rule : Entries Num} {n : Int}
    (h : judge kind severity r = .limit rule n) :
    r = .obj rule ∧ on_event rule = kind ∧ confirm rule = false ∧ severity ≠ "LOW" ∧
      maxPerHour rule = .value n := by
  rcases r with _ | _ | _ | _ | _ | rule'
  iterate 5 · simp [judge] at h
  simp only [judge] at h
  split_ifs at h with hevent hconfirm hseverity
  rcases hread : maxPerHour rule' with m | _ | _
  · obtain ⟨rfl, rfl⟩ : rule' = rule ∧ m = n := by simpa [hread] using h
    exact ⟨rfl, not_not.mp hevent, by simpa using hconfirm, hseverity, hread⟩
  · simp [hread] at h
  · simp [hread] at h

/-- **The loop keeps the invariant**, from any rule on. -/
theorem Inv.onRules (hon : enabled healing = true) {l : List (Json Num)}
    (hrules : rules healing = some l) {idx : Nat} {rest : List (Json Num)}
    (hrest : l.drop idx = rest) {readings : List Time} (h : Inv healing s)
    (hloop : onRules e idx rest readings s = some s') : Inv healing s' := by
  induction rest generalizing idx readings s with
  | nil =>
      obtain rfl : s = s' := by simpa [Healing.onRules] using hloop
      exact h
  | cons r rest ih =>
      have hnext : l.drop (idx + 1) = rest := by
        rw [← List.tail_drop, hrest]
        rfl
      have hhere : l[idx]? = some r := by
        rw [← List.head?_drop, hrest]
        rfl
      rw [Healing.onRules] at hloop
      rcases hjudge : judge e.kind e.severity r with _ | _ | ⟨rule, n⟩
      · rw [hjudge] at hloop
        exact ih hnext h hloop
      · obtain rfl : s = s' := by simpa [hjudge] using hloop
        exact h
      · -- the rule may start: the clock is read, and the limiter is asked
        obtain ⟨rfl, hevent, hconfirm, hseverity, hn⟩ := judge_limit hjudge
        rw [hjudge] at hloop
        rcases readings with _ | ⟨now, readings⟩
        · simp at hloop
        dsimp only at hloop
        have hback : ¬now < s.clock := fun hback => by simp [hback] at hloop
        rw [if_neg hback] at hloop
        unfold _rate_ok at hloop
        by_cases hsoon : now - (s._last_run (idx, e.host)).getD 0 < interval n
        · rw [if_pos hsoon] at hloop
          exact ih hnext (h.tick now) hloop
        · rw [if_neg hsoon] at hloop
          have ha : Action.Allowed healing ⟨idx, rule, e.kind, e.severity, e.host, now⟩ :=
            ⟨hon, ⟨l, hrules, hhere⟩, hevent, hconfirm, hseverity, n, hn⟩
          exact ih hnext
            (h.start hrules hhere hn ha rfl rfl rfl (gap_of_allowed hsoon)) hloop

theorem Inv.step (h : Inv healing s) (hstep : (machine healing).step s e = some s') :
    Inv healing s' := by
  simp only [machine] at hstep
  by_cases hon : enabled healing = true
  · rw [hon, Bool.not_true, if_neg Bool.false_ne_true] at hstep
    rcases hrules : rules healing with _ | l
    · obtain rfl : s = s' := by simpa [hrules] using hstep
      exact h
    · rw [hrules] at hstep
      exact h.onRules hon hrules rfl hstep
  · obtain rfl : s = s' := by simpa [hon] using hstep
    exact h

theorem inv_init (healing : Entries Num) (clock : Time) : Inv healing (init clock) :=
  ⟨fun _ h => absurd h List.not_mem_nil, fun _ _ => rfl, fun _ _ _ _ _ _ _ _ => Spaced.nil _⟩

/-! ## §4 Every run -/

/-- The starts for a rule and a host in the hour from `start` on. -/
def State.inHour (s : State Num) (idx : Nat) (host : String) (start : Time) : Nat :=
  s.actions.countP fun a =>
    decide ((a.rule_idx = idx ∧ a.host = host) ∧ start ≤ a.time ∧ a.time < start + 3600)

omit [Truth Num] [PyStr Num] [PyInt Num] in
theorem inHour_eq (s : State Num) (idx : Nat) (host : String) (start : Time) :
    s.inHour idx host start =
      (s.times idx host).countP fun t => decide (start ≤ t ∧ t < start + 3600) := by
  unfold State.inHour State.times
  rw [List.countP_map, List.countP_filter]
  refine List.countP_congr fun a _ => ?_
  simp [and_comm]

/-- **No more than the rule says in any hour**, where less than one is one, and nothing is a limit of
one; and nothing is started while healing is off, for a rule with a confirmation or for an event
of severity `LOW`. -/
theorem healing_limited (healing : Entries Num) (clock : Time) {es : List Event}
    (hrun : (machine healing).run (init clock) es = some s) :
    (∀ l idx rule n host start, rules healing = some l → l[idx]? = some (.obj rule) →
        maxPerHour rule = .value n → (s.inHour idx host start : Int) ≤ max 1 n) ∧
      ∀ a ∈ s.actions, a.Allowed healing := by
  have hinv : Inv healing s :=
    Machine.invariant (fun s e s' h hstep => h.step hstep) (inv_init healing clock) hrun
  refine ⟨fun l idx rule n host start hrules hrule hn => ?_, hinv.allowed⟩
  obtain ⟨m, hm⟩ : ∃ m : ℕ, (m : Int) = max 1 n :=
    ⟨(max 1 n).toNat, Int.toNat_of_nonneg (by omega)⟩
  have hcount := (hinv.spaced l idx host rule n hrules hrule hn).countP_le (interval_pos n) start m
  -- as many intervals as the limit allows starts are an hour
  have hhour : (m : ℚ) * interval n = 3600 := by
    have hcast : ((max 1 n : Int) : ℚ) = m := by rw [← hm]; norm_cast
    have hpos : (m : ℚ) ≠ 0 := by
      have : (1 : Int) ≤ m := by omega
      have : (1 : ℚ) ≤ m := by exact_mod_cast this
      linarith
    rw [interval, hcast]
    rw [mul_comm, div_mul_cancel₀ _ hpos]
  rw [hhour] at hcount
  rw [inHour_eq, ← hm]
  exact_mod_cast hcount

end

/-! ## §5 A limit of nothing -/

section Concrete

attribute [local instance] NetPulse.Gate.intPyStr NetPulse.Gate.intPyInt

/-- A rule with `enabled` false and a limit of 0. -/
def zeroRule : Entries Int :=
  [("on_event", .str "disk"), ("runbook", .str "cleanup-temp"), ("enabled", .bool false),
    ("max_per_hour", .num 0)]

def zeroHealing : Entries Int := [("enabled", .bool true), ("rules", .list [.obj zeroRule])]

def diskEvent : Event := ⟨"disk", "HIGH", some "PC-1", [10000]⟩

/-- **A limit of 0 is one of 1**, and a rule has no switch: the runbook is started. -/
theorem zero_starts :
    Dict.lookup "max_per_hour" zeroRule = some (.num 0) ∧
      Dict.lookup "enabled" zeroRule = some (.bool false) ∧
      ((machine zeroHealing).run (init 0) [diskEvent]).map (fun s => s.inHour 0 "PC-1" 10000) =
        some 1 := by
  refine ⟨rfl, rfl, ?_⟩
  decide +kernel

/-- A later event of the same hour starts nothing. -/
def zeroRun : Option (State Int) :=
  (machine zeroHealing).run (init 0) [diskEvent, ⟨"disk", "HIGH", some "PC-1", [13599]⟩]

theorem zeroRun_isSome : zeroRun.isSome = true := by decide +kernel

theorem healing_limited_zero :
    (∀ l idx rule n host start, rules zeroHealing = some l → l[idx]? = some (.obj rule) →
        maxPerHour rule = .value n →
        (((zeroRun.get zeroRun_isSome).inHour idx host start : Nat) : Int) ≤ max 1 n) ∧
      ∀ a ∈ (zeroRun.get zeroRun_isSome).actions, a.Allowed zeroHealing :=
  healing_limited zeroHealing 0 (Option.some_get zeroRun_isSome).symm

end Concrete

end NetPulse.Ops.Healing
