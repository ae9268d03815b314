import NetPulse.Lib.Dict
import NetPulse.Lib.Escaping
import NetPulse.Lib.GeneralFormat
import NetPulse.Lib.Text
import Mathlib.Data.List.Dedup
import Mathlib.Data.List.Lex

/-
# NetPulse.Server.Metrics — samples as text, for Prometheus (`metrics.py`)

`add` puts a line into the family of its metric, with a `HELP` and a `TYPE` above the first one, and
`text` joins the lines of all families. A label value goes through `label`, which writes a backslash,
a line end and a quote with a backslash each. The other side is `read`: the sample lines of a text,
taken apart as Prometheus does.

`exposition_well_formed`: what is read is what was added, family by family, each sample with its own
label values; and the number of lines is that of the samples and of the names, whatever the values are.
-/

namespace NetPulse.Server.Metrics

open NetPulse.Lib NetPulse.Lib.Text NetPulse.Lib.Escaping NetPulse.Lib.GeneralFormat

/-! ## §1 Label values -/

/-- A character. -/
abbrev ch (c : Char) : CodePoint := .scalar c

/-- `str(value)` with three replacements. -/
def label (value : Text) : Text :=
  replace (ch '"') [ch '\\', ch '"'] (replace (ch '\n') [ch '\\', ch 'n']
    (replace (ch '\\') [ch '\\', ch '\\'] value))

/-- The escapes that Prometheus knows. -/
def escapes : Scheme CodePoint where
  esc := ch '\\'
  quote := ch '"'
  letter c :=
    if c = ch '\\' then some (ch '\\')
    else if c = ch '\n' then some (ch 'n')
    else if c = ch '"' then some (ch '"')
    else none
  meaning l :=
    if l = ch '\\' then some (ch '\\')
    else if l = ch 'n' then some (ch '\n')
    else if l = ch '"' then some (ch '"')
    else none
  letter_esc := rfl
  letter_quote := by decide
  meaning_letter := by
    intro c l h
    split_ifs at h with hesc hnl hquote
    · rw [hesc, ← Option.some.inj h]
      decide
    · rw [hnl, ← Option.some.inj h]
      decide
    · rw [hquote, ← Option.some.inj h]
      decide

/-- **The order of the replacements is right**: no backslash that one of them writes is doubled. -/
theorem label_eq_escape (value : Text) : label value = escapes.escape value := by
  have hfirst : replace (ch '\\') [ch '\\', ch '\\'] value =
      value.flatMap fun x => if x = ch '\\' then [ch '\\', ch '\\'] else [x] := rfl
  rw [label, hfirst, replace_flatMap, replace_flatMap, Scheme.escape]
  refine List.flatMap_congr fun c _ => ?_
  by_cases hesc : c = ch '\\'
  · subst hesc
    decide
  · by_cases hnl : c = ch '\n'
    · subst hnl
      decide
    · by_cases hquote : c = ch '"'
      · subst hquote
        decide
      · simp [replace, Scheme.escapeChar, escapes, hesc, hnl, hquote]

example : label [ch 'a', ch '"', ch '\\', ch '\n', ch 'b'] =
    [ch 'a', ch '\\', ch '"', ch '\\', ch '\\', ch '\\', ch 'n', ch 'b'] := by decide

theorem newline_not_mem_label (value : Text) : ch '\n' ∉ label value := by
  rw [label_eq_escape]
  refine Scheme.not_mem_escape (by decide) (by decide) (fun d => ?_) value
  show (if d = ch '\\' then _ else _) ≠ _
  split_ifs <;> decide

/-! ## §2 Samples -/

/-- A `float`. -/
inductive Float where
  | finite (x : Rat)
  | minusZero
  | infinite
  | nan

/-- What `float(value)` is. -/
inductive Value where
  | float (x : Float)
  /-- `TypeError` or `ValueError` -/
  | refused
  /-- `OverflowError`, of a whole number that is too great. -/
  | overflow

/-- `number(value)`, where there is one. An `OverflowError` is not caught: it ends `add` before
anything is added. -/
def number : Value → Option Float
  | .float (.finite x) => if 0 ≤ x then some (.finite x) else none
  | .float .minusZero => some .minusZero
  | _ => none

/-- `f'{value:.17g}'` -/
def Float.text : Float → Text
  | finite x => (general 17 x).map ch
  | minusZero => [ch '-', ch '0']
  | infinite => lit "inf"
  | nan => lit "nan"

def isLabelChar : CodePoint → Bool
  | .scalar c => c.isAlpha || c.isDigit || c = '_'
  | .surrogate _ => false

def isNameChar (c : CodePoint) : Bool := isLabelChar c || c = ch ':'

def startsWithDigit : Text → Bool
  | .scalar c :: _ => c.isDigit
  | _ => false

/-- `[a-zA-Z_:][a-zA-Z0-9_:]*` -/
def isMetricName (s : Text) : Bool := s ≠ [] && s.all isNameChar && !startsWithDigit s

/-- `[a-zA-Z_][a-zA-Z0-9_]*` -/
def isLabelName (s : Text) : Bool := s ≠ [] && s.all isLabelChar && !startsWithDigit s

/-- The arguments of `add`. Names, help texts and kinds are literals of the program; what comes from
outside is the value and the values of the labels, each as `str` gives it. -/
structure Sample where
  name : Text
  help_text : Text
  kind : Text
  value : Value
  labels : List (Text × Text)
  name_ok : isMetricName name = true
  help_ok : ch '\n' ∉ help_text
  kind_ok : ch '\n' ∉ kind
  keys_ok : ∀ e ∈ labels, isLabelName e.1 = true
  nodup : (labels.map Prod.fst).Nodup

def codePoint : CodePoint → Nat
  | .scalar c => c.toNat
  | .surrogate half => 0xd800 + half.val

/-- `sorted(labels.items())`; no two have the same key. -/
def Sample.sorted (s : Sample) : List (Text × Text) :=
  s.labels.mergeSort fun a b => decide (a.1.map codePoint ≤ b.1.map codePoint)

/-- `key="value"` -/
def pair (e : Text × Text) : Text := e.1 ++ ch '=' :: ch '"' :: (label e.2 ++ [ch '"'])

/-- The labels, in braces if there are any. -/
def Sample.suffix (s : Sample) : Text :=
  if s.labels = [] then [] else ch '{' :: ([ch ','].intercalate (s.sorted.map pair) ++ [ch '}'])

def Sample.helpLine (s : Sample) : Text := lit "# HELP " ++ s.name ++ ch ' ' :: s.help_text

def Sample.typeLine (s : Sample) : Text := lit "# TYPE " ++ s.name ++ ch ' ' :: s.kind

def Sample.line (s : Sample) (v : Float) : Text := s.name ++ s.suffix ++ ch ' ' :: v.text

structure Exposition where
  families : Dict Text (List Text)

namespace Exposition

def init : Exposition := ⟨Dict.empty⟩

def add (e : Exposition) (s : Sample) : Exposition :=
  match number s.value with
  | none => e
  | some v =>
      let families :=
        if e.families.contains s.name then e.families
        else e.families.set s.name [s.helpLine, s.typeLine]
      ⟨families.set s.name ((families.get s.name).getD [] ++ [s.line v])⟩

/-- The lines of all families. -/
def lines (e : Exposition) : List Text := e.families.values.flatten

def text (e : Exposition) : Text := [ch '\n'].intercalate e.lines ++ [ch '\n']

end Exposition

/-- The text of the samples of one scrape. -/
def after (calls : List Sample) : Exposition := calls.foldl Exposition.add Exposition.init

/-! ## §3 Reading -/

/-- What Prometheus takes from a sample line. -/
structure Record where
  name : Text
  labels : List (Text × Text)
  value : Text
  deriving DecidableEq

/-- A line that is not empty and no comment. -/
def isSampleLine : Text → Bool
  | [] => false
  | c :: _ => c ≠ ch '#'

def isNumeralChar : CodePoint → Bool
  | .scalar c => inNumeral c
  | .surrogate _ => false

def isNumeral (v : Text) : Bool := v ≠ [] && v.all isNumeralChar

/-- One label, and what follows its closing quote. -/
def readLabel (t : Text) : Option ((Text × Text) × Text) :=
  match t.dropWhile isLabelChar with
  | c :: q :: rest =>
      if isLabelName (t.takeWhile isLabelChar) && c = ch '=' && q = ch '"' then
        (escapes.readQuoted rest).map fun r => ((t.takeWhile isLabelChar, r.1), r.2)
      else none
  | _ => none

/-- The labels up to the closing brace, no more than so many, and what follows it. -/
def readLabels : Nat → Text → Option (List (Text × Text) × Text)
  | 0, _ => none
  | n + 1, t =>
      match readLabel t with
      | some (e, c :: rest) =>
          if c = ch ',' then (readLabels n rest).map fun r => (e :: r.1, r.2)
          else if c = ch '}' then some ([e], rest)
          else none
      | _ => none

/-- What stands behind the name: labels or none, a blank and a number. -/
def readRest (name : Text) : Text → Option Record
  | [] => none
  | c :: rest =>
      if c = ch '{' then
        match readLabels rest.length rest with
        | some (labels, b :: v) => if b = ch ' ' && isNumeral v then some ⟨name, labels, v⟩ else none
        | _ => none
      else if c = ch ' ' && isNumeral rest then some ⟨name, [], rest⟩
      else none

def readSample (line : Text) : Option Record :=
  if isMetricName (line.takeWhile isNameChar) then
    readRest (line.takeWhile isNameChar) (line.dropWhile isNameChar)
  else none

/-- The sample lines of a text, each as it is read; `none` if it is not well formed. -/
def read (t : Text) : List (Option Record) :=
  ((t.splitOn (ch '\n')).filter isSampleLine).map readSample

/-! ## §4 One line -/

theorem not_nameChar_of {c : CodePoint} (h : isNameChar c = false) {s : Text}
    (hs : s.all isNameChar = true) : c ∉ s := by
  intro hc
  rw [List.all_eq_true] at hs
  rw [hs c hc] at h
  cases h

theorem isLabelName_all {s : Text} (h : isLabelName s = true) : s.all isLabelChar = true := by
  simp only [isLabelName, Bool.and_eq_true] at h
  exact h.1.2

theorem isMetricName_all {s : Text} (h : isMetricName s = true) : s.all isNameChar = true := by
  simp only [isMetricName, Bool.and_eq_true] at h
  exact h.1.2

theorem isMetricName_ne_nil {s : Text} (h : isMetricName s = true) : s ≠ [] := by
  simp only [isMetricName, Bool.and_eq_true, decide_eq_true_iff] at h
  exact h.1.1

/-- What is read up to the first character that is not of its kind. -/
theorem takeWhile_all {p : CodePoint → Bool} {s : Text} (hs : s.all p = true) {c : CodePoint}
    (hc : p c = false) (rest : Text) :
    (s ++ c :: rest).takeWhile p = s ∧ (s ++ c :: rest).dropWhile p = c :: rest := by
  rw [List.all_eq_true] at hs
  rw [List.takeWhile_append_of_pos hs, List.dropWhile_append_of_pos hs, List.takeWhile_cons,
    List.dropWhile_cons, hc]
  exact ⟨List.append_nil s, rfl⟩

theorem readLabel_pair {e : Text × Text} (he : isLabelName e.1 = true) (rest : Text) :
    readLabel (pair e ++ rest) = some (e, rest) := by
  obtain ⟨htake, hdrop⟩ := takeWhile_all (isLabelName_all he) (c := ch '=') (by decide)
    (ch '"' :: (label e.2 ++ ch '"' :: rest))
  have hshape : pair e ++ rest = e.1 ++ ch '=' :: ch '"' :: (label e.2 ++ ch '"' :: rest) := by
    simp [pair]
  rw [hshape, readLabel, hdrop, htake]
  simp only [he, decide_true, Bool.and_true, if_true]
  rw [label_eq_escape, show ch '"' = escapes.quote from rfl,
    Scheme.readQuoted_escape (by decide) e.2 rest, Option.map_some]

/-- **Labels are read back**, all of them and no others. -/
theorem readLabels_pairs {es : List (Text × Text)} (hes : ∀ e ∈ es, isLabelName e.1 = true)
    (hne : es ≠ []) {n : Nat} (hn : es.length ≤ n) (rest : Text) :
    readLabels n ([ch ','].intercalate (es.map pair) ++ ch '}' :: rest) = some (es, rest) := by
  induction es generalizing n with
  | nil => exact absurd rfl hne
  | cons e es ih =>
      obtain ⟨n, rfl⟩ : ∃ m, n = m + 1 := ⟨n - 1, by simp at hn; omega⟩
      have he := hes e List.mem_cons_self
      rcases es with _ | ⟨e', es⟩
      · rw [List.map_singleton, List.intercalate_singleton, readLabels, readLabel_pair he]
        simp only
        rw [if_neg (by decide), if_pos trivial]
      · have hrest := ih (fun x hx => hes x (List.mem_cons_of_mem _ hx)) (List.cons_ne_nil _ _)
          (n := n) (by simp at hn ⊢; omega)
        rw [List.map_cons, List.map_cons, List.intercalate_cons_cons, List.append_assoc,
          List.append_assoc, readLabels, readLabel_pair he]
        simp only [List.singleton_append]
        rw [if_pos trivial, ← List.map_cons, hrest, Option.map_some]

theorem sorted_perm (s : Sample) : s.sorted.Perm s.labels := List.mergeSort_perm _ _

theorem isNumeral_general (x : Rat) : isNumeral ((general 17 x).map ch) = true := by
  rw [isNumeral, Bool.and_eq_true, decide_eq_true_iff, List.all_map, List.all_eq_true]
  exact ⟨fun h => general_ne_nil 17 x (List.map_eq_nil_iff.mp h), numeral_general 17 x⟩

/-- What is added is written as a number. -/
theorem isNumeral_text {r : Value} {v : Float} (h : number r = some v) : isNumeral v.text = true := by
  cases v with
  | finite x => exact isNumeral_general x
  | minusZero => rfl
  | infinite | nan =>
      unfold number at h
      split at h
      · split_ifs at h
        cases h
      · cases h
      · cases h

/-- What a sample is for Prometheus. -/
def record (p : Sample × Float) : Record := ⟨p.1.name, p.1.sorted, p.2.text⟩

theorem length_pairs_le (es : List (Text × Text)) :
    es.length ≤ ([ch ','].intercalate (es.map pair)).length := by
  have hpair : ∀ e, 1 ≤ (pair e).length := by
    intro e
    rw [pair, List.length_append, List.length_cons]
    omega
  induction es with
  | nil => exact Nat.zero_le _
  | cons e es ih =>
      rcases es with _ | ⟨e', es⟩
      · rw [List.map_singleton, List.intercalate_singleton]
        exact hpair e
      · rw [List.map_cons, List.map_cons, List.intercalate_cons_cons, ← List.map_cons,
          List.length_append, List.length_append, List.length_cons]
        have hone := hpair e
        omega

/-- **A sample line is read back.** -/
theorem readSample_line (s : Sample) {v : Float} (hv : isNumeral v.text = true) :
    readSample (s.line v) = some (record (s, v)) := by
  have hname := isMetricName_all s.name_ok
  rw [Sample.line, Sample.suffix]
  by_cases hlabels : s.labels = []
  · have hsorted : s.sorted = [] := List.perm_nil.mp (hlabels ▸ sorted_perm s)
    obtain ⟨htake, hdrop⟩ := takeWhile_all hname (c := ch ' ') (by decide) v.text
    rw [if_pos hlabels, List.append_nil, readSample, htake, hdrop, if_pos s.name_ok, readRest,
      if_neg (by decide), hv, record, hsorted]
    rfl
  · have hne : s.sorted ≠ [] := fun hnil => hlabels (List.perm_nil.mp (hnil ▸ (sorted_perm s).symm))
    have hkeys : ∀ e ∈ s.sorted, isLabelName e.1 = true := fun e he =>
      s.keys_ok e ((sorted_perm s).mem_iff.mp he)
    have hshape : s.name ++ ch '{' :: ([ch ','].intercalate (s.sorted.map pair) ++ [ch '}']) ++
        ch ' ' :: v.text = s.name ++ ch '{' :: ([ch ','].intercalate (s.sorted.map pair) ++
          ch '}' :: ch ' ' :: v.text) := by simp
    obtain ⟨htake, hdrop⟩ := takeWhile_all hname (c := ch '{') (by decide)
      ([ch ','].intercalate (s.sorted.map pair) ++ ch '}' :: ch ' ' :: v.text)
    have hlength : s.sorted.length ≤ ([ch ','].intercalate (s.sorted.map pair) ++
        ch '}' :: ch ' ' :: v.text).length := by
      rw [List.length_append]
      exact Nat.le_trans (length_pairs_le s.sorted) (Nat.le_add_right _ _)
    rw [if_neg hlabels, hshape, readSample, htake, hdrop, if_pos s.name_ok, readRest, if_pos rfl,
      readLabels_pairs hkeys hne hlength]
    simp only [hv, decide_true, Bool.and_true, if_true]
    rfl

/-! ## §5 Lines without line ends -/

/-- A sample line begins with its name. -/
theorem isSampleLine_line (s : Sample) (v : Float) : isSampleLine (s.line v) = true := by
  obtain ⟨c, rest, hname⟩ := List.exists_cons_of_ne_nil (isMetricName_ne_nil s.name_ok)
  have hc : isNameChar c = true := by
    have hall := isMetricName_all s.name_ok
    rw [hname, List.all_cons, Bool.and_eq_true] at hall
    exact hall.1
  have hne : c ≠ ch '#' := by
    rintro rfl
    exact absurd hc (by decide)
  rw [Sample.line, hname]
  simpa [isSampleLine] using hne

theorem newline_not_mem_name {s : Text} (h : s.all isNameChar = true) : ch '\n' ∉ s :=
  not_nameChar_of (by decide) h

theorem newline_not_mem_pair {e : Text × Text} (he : isLabelName e.1 = true) : ch '\n' ∉ pair e := by
  have hkey : ch '\n' ∉ e.1 := by
    intro hmem
    have hall := List.all_eq_true.mp (isLabelName_all he) _ hmem
    exact absurd hall (by decide)
  simp [pair, hkey, newline_not_mem_label e.2]

theorem newline_not_mem_intercalate {sep : Text} {ls : List Text} (hsep : ch '\n' ∉ sep)
    (hls : ∀ l ∈ ls, ch '\n' ∉ l) : ch '\n' ∉ sep.intercalate ls := by
  induction ls with
  | nil => exact List.not_mem_nil
  | cons l ls ih =>
      have hl := hls l List.mem_cons_self
      have hrest := ih fun x hx => hls x (List.mem_cons_of_mem _ hx)
      rcases ls with _ | ⟨l', ls⟩
      · rw [List.intercalate_singleton]
        exact hl
      · rw [List.intercalate_cons_cons]
        simp [hl, hsep, hrest]

/-- **No label value has a line end of its own.** -/
theorem newline_not_mem_line (s : Sample) {v : Float} (hv : isNumeral v.text = true) :
    ch '\n' ∉ s.line v := by
  have hname := newline_not_mem_name (isMetricName_all s.name_ok)
  have hsuffix : ch '\n' ∉ s.suffix := by
    unfold Sample.suffix
    split_ifs
    · exact List.not_mem_nil
    · have hpairs : ch '\n' ∉ [ch ','].intercalate (s.sorted.map pair) := by
        refine newline_not_mem_intercalate (by decide) fun l hl => ?_
        obtain ⟨e, he, rfl⟩ := List.mem_map.mp hl
        exact newline_not_mem_pair (s.keys_ok e ((sorted_perm s).mem_iff.mp he))
      simp [hpairs]
  have hvalue : ch '\n' ∉ v.text := by
    intro hmem
    rw [isNumeral, Bool.and_eq_true, List.all_eq_true] at hv
    exact absurd (hv.2 _ hmem) (by decide)
  simp [Sample.line, hname, hsuffix, hvalue]

/-- A comment line. -/
def Comment (l : Text) : Prop := ch '\n' ∉ l ∧ l ≠ [] ∧ isSampleLine l = false

theorem comment_helpLine (s : Sample) : Comment s.helpLine := by
  have hname := newline_not_mem_name (isMetricName_all s.name_ok)
  refine ⟨?_, nofun, rfl⟩
  have hlit : ch '\n' ∉ lit "# HELP " := by decide
  simp [Sample.helpLine, hname, s.help_ok, hlit]

theorem comment_typeLine (s : Sample) : Comment s.typeLine := by
  have hname := newline_not_mem_name (isMetricName_all s.name_ok)
  refine ⟨?_, nofun, rfl⟩
  have hlit : ch '\n' ∉ lit "# TYPE " := by decide
  simp [Sample.typeLine, hname, s.kind_ok, hlit]

/-! ## §6 Families -/

/-- The samples that are added, each with its number. -/
def added (calls : List Sample) : List (Sample × Float) :=
  calls.filterMap fun s => (number s.value).map fun v => (s, v)

/-- The samples of a name. -/
def ofName (done : List (Sample × Float)) (name : Text) : List (Sample × Float) :=
  done.filter fun p => p.1.name = name

/-- The families have what was added. -/
structure Grouped (e : Exposition) (done : List (Sample × Float)) : Prop where
  names : ∀ name, name ∈ e.families.keys ↔ ∃ p ∈ done, p.1.name = name
  family : ∀ name ls, e.families.get name = some ls → ∃ help type, Comment help ∧ Comment type ∧
    ls = help :: type :: (ofName done name).map fun p => p.1.line p.2

/-- What a family has before a line is put behind it. -/
def Exposition.opened (e : Exposition) (s : Sample) : List Text :=
  (e.families.get s.name).getD [s.helpLine, s.typeLine]

theorem get_add {e : Exposition} {s : Sample} {v : Float} (hv : number s.value = some v)
    (name : Text) : (e.add s).families.get name =
      if name = s.name then some (e.opened s ++ [s.line v]) else e.families.get name := by
  have hadd : e.add s = ⟨(if e.families.contains s.name then e.families
      else e.families.set s.name [s.helpLine, s.typeLine]).set s.name (e.opened s ++ [s.line v])⟩ := by
    unfold Exposition.add Exposition.opened
    simp only [hv]
    by_cases hold : e.families.contains s.name = true
    · obtain ⟨ls, hls⟩ := Option.isSome_iff_exists.mp hold
      rw [if_pos hold, hls]
      rfl
    · have hnone : e.families.get s.name = none := Option.not_isSome_iff_eq_none.mp hold
      rw [if_neg hold, hnone, Dict.get_set_self]
      rfl
  rw [hadd, Dict.get_set]
  by_cases hname : name = s.name
  · rw [if_pos hname, if_pos hname]
  · rw [if_neg hname, if_neg hname]
    split_ifs
    · rfl
    · exact Dict.get_set_of_ne _ _ hname

/-- **A sample goes into its family.** -/
theorem Grouped.add {e : Exposition} {done : List (Sample × Float)} (h : Grouped e done) {s : Sample}
    {v : Float} (hv : number s.value = some v) : Grouped (e.add s) (done ++ [(s, v)]) where
  names name := by
    have hold := h.names name
    rw [Dict.mem_keys_iff] at hold ⊢
    rw [get_add hv]
    by_cases hname : name = s.name
    · rw [if_pos hname]
      exact iff_of_true ⟨_, rfl⟩ ⟨(s, v), by simp, hname.symm⟩
    · rw [if_neg hname, hold]
      simp [Ne.symm hname, or_and_right, exists_or]
  family name ls hls := by
    rw [get_add hv] at hls
    by_cases hname : name = s.name
    · subst hname
      rw [if_pos rfl] at hls
      rcases hfamily : e.families.get s.name with _ | old
      · have hnone : ofName done s.name = [] := by
          refine List.filter_eq_nil_iff.mpr fun p hp heq => ?_
          have hkey := (h.names s.name).mpr ⟨p, hp, of_decide_eq_true heq⟩
          obtain ⟨ls, hls⟩ := (Dict.mem_keys_iff _).mp hkey
          rw [hfamily] at hls
          cases hls
        refine ⟨s.helpLine, s.typeLine, comment_helpLine s, comment_typeLine s, ?_⟩
        rw [ofName, List.filter_append, show List.filter _ done = [] from hnone,
          ← Option.some.inj hls, Exposition.opened, hfamily]
        simp
      · obtain ⟨help, type, hhelp, htype, rfl⟩ := h.family s.name old hfamily
        refine ⟨help, type, hhelp, htype, ?_⟩
        rw [ofName, List.filter_append, ← Option.some.inj hls, Exposition.opened, hfamily]
        simp [ofName]
    · rw [if_neg hname] at hls
      obtain ⟨help, type, hhelp, htype, rfl⟩ := h.family name ls hls
      refine ⟨help, type, hhelp, htype, ?_⟩
      simp [ofName, Ne.symm hname]

theorem grouped_after (calls : List Sample) : Grouped (after calls) (added calls) := by
  suffices hrun : ∀ e done, Grouped e done →
      Grouped (calls.foldl Exposition.add e) (done ++ added calls) from
    hrun _ [] ⟨by simp [Exposition.init, Dict.empty, Dict.keys],
      fun _ _ h => by simp [Exposition.init] at h⟩
  induction calls with
  | nil =>
      intro e done h
      rw [added, List.filterMap_nil, List.append_nil]
      exact h
  | cons s rest ih =>
      intro e done h
      rcases hv : number s.value with _ | v
      · have hsame : e.add s = e := by
          rw [Exposition.add, hv]
        have hadded : added (s :: rest) = added rest := by simp [added, hv]
        rw [List.foldl_cons, hsame, hadded]
        exact ih e done h
      · have hadded : added (s :: rest) = (s, v) :: added rest := by simp [added, hv]
        rw [List.foldl_cons, hadded, List.append_cons]
        exact ih _ _ (h.add hv)

/-! ## §7 The text -/

/-- The samples, family by family. -/
def arranged (e : Exposition) (done : List (Sample × Float)) : List (Sample × Float) :=
  e.families.keys.flatMap (ofName done)

/-- Every element is under its own key, and under no other. -/
theorem flatMap_filter_perm {α β : Type} [DecidableEq β] (f : α → β) {ks : List β}
    (hks : ks.Nodup) {l : List α} (h : ∀ a ∈ l, f a ∈ ks) :
    (ks.flatMap fun k => l.filter fun a => f a = k).Perm l := by
  induction ks generalizing l with
  | nil =>
      obtain rfl : l = [] := List.eq_nil_iff_forall_not_mem.mpr fun a ha =>
        absurd (h a ha) List.not_mem_nil
      exact List.Perm.refl _
  | cons k ks ih =>
      obtain ⟨hk, hks⟩ := List.nodup_cons.mp hks
      have hothers : ∀ k' ∈ ks, (l.filter fun a => f a = k') =
          (l.filter fun a => !decide (f a = k)).filter fun a => f a = k' := by
        intro k' hk'
        rw [List.filter_filter]
        refine List.filter_congr fun a _ => ?_
        by_cases ha : f a = k'
        · have hne : f a ≠ k := fun heq => hk (heq ▸ ha ▸ hk')
          simp [ha, ha ▸ hne]
        · simp [ha]
      have hrest : ∀ a ∈ l.filter fun a => !decide (f a = k), f a ∈ ks := by
        intro a ha
        obtain ⟨hmem, hne⟩ := List.mem_filter.mp ha
        exact (List.mem_cons.mp (h a hmem)).resolve_left (by simpa using hne)
      rw [List.flatMap_cons, List.flatMap_congr hothers]
      exact ((ih hks hrest).append_left _).trans (List.filter_append_perm _ l)

section Text
variable {e : Exposition} {done : List (Sample × Float)}

theorem arranged_perm (h : Grouped e done) : (arranged e done).Perm done :=
  flatMap_filter_perm _ e.families.nodup fun p hp => (h.names _).mpr ⟨p, hp, rfl⟩

/-- What is said of each family holds of all lines. -/
theorem lines_of_families (hdone : ∀ p ∈ done, isNumeral p.2.text = true)
    {items : List (Text × List Text)}
    (h : ∀ name ls, (name, ls) ∈ items → ∃ help type, Comment help ∧ Comment type ∧
      ls = help :: type :: (ofName done name).map fun p => p.1.line p.2) :
    (∀ l ∈ (items.map Prod.snd).flatten, ch '\n' ∉ l ∧ l ≠ []) ∧
      (items.map Prod.snd).flatten.filter isSampleLine =
        ((items.map Prod.fst).flatMap (ofName done)).map (fun p => p.1.line p.2) ∧
      (items.map Prod.snd).flatten.length =
        2 * items.length + ((items.map Prod.fst).flatMap (ofName done)).length := by
  induction items with
  | nil => simp
  | cons item rest ih =>
      obtain ⟨name, ls⟩ := item
      obtain ⟨help, type, hhelp, htype, rfl⟩ := h name ls List.mem_cons_self
      obtain ⟨hnl, hfilter, hlength⟩ := ih fun n ls hmem => h n ls (List.mem_cons_of_mem _ hmem)
      have hsamples : ((ofName done name).map fun p => p.1.line p.2).filter isSampleLine =
          (ofName done name).map fun p => p.1.line p.2 := by
        refine List.filter_eq_self.mpr fun l hl => ?_
        obtain ⟨p, -, rfl⟩ := List.mem_map.mp hl
        exact isSampleLine_line p.1 p.2
      refine ⟨fun l hl => ?_, ?_, ?_⟩
      · rcases List.mem_append.mp hl with hl | hl
        · rcases List.mem_cons.mp hl with rfl | hl
          · exact ⟨hhelp.1, hhelp.2.1⟩
          · rcases List.mem_cons.mp hl with rfl | hl
            · exact ⟨htype.1, htype.2.1⟩
            · obtain ⟨p, hp, rfl⟩ := List.mem_map.mp hl
              refine ⟨newline_not_mem_line p.1 (hdone p (List.mem_of_mem_filter hp)), fun hnil => ?_⟩
              have hsample := isSampleLine_line p.1 p.2
              rw [hnil] at hsample
              cases hsample
        · exact hnl l hl
      · rw [List.map_cons, List.flatten_cons, List.filter_append, hfilter, List.filter_cons, hhelp.2.2,
          List.filter_cons, htype.2.2, hsamples, List.map_cons, List.flatMap_cons, List.map_append]
        rfl
      · rw [List.map_cons, List.flatten_cons, List.length_append, hlength, List.map_cons,
          List.flatMap_cons, List.length_append]
        simp only [List.length_cons, List.length_map]
        omega

/-- The lines of a text, but for empty ones. -/
theorem filter_splitOn_text (hnl : ∀ l ∈ e.lines, ch '\n' ∉ l) {p : Text → Bool} (hp : p [] = false) :
    (e.text.splitOn (ch '\n')).filter p = e.lines.filter p := by
  rcases hlines : e.lines with _ | ⟨l, ls⟩
  · rw [Exposition.text, hlines, List.intercalate_nil]
    show List.filter p [[], []] = []
    simp [hp]
  · rw [Exposition.text, splitOn_lines hnl (by rw [hlines]; exact List.cons_ne_nil _ _),
      List.filter_append, hlines]
    simp [hp]

end Text

theorem isNumeral_of_added {calls : List Sample} {p : Sample × Float} (h : p ∈ added calls) :
    isNumeral p.2.text = true := by
  obtain ⟨s, -, hs⟩ := List.mem_filterMap.mp h
  obtain ⟨v, hv, rfl⟩ := Option.map_eq_some_iff.mp hs
  exact isNumeral_text hv

/-- The names of the samples that are added, each once. -/
def names (calls : List Sample) : List Text := ((added calls).map fun p => p.1.name).dedup

/-- **The text is well formed.** Its sample lines are read as the added samples, family by family, each
with the values that its labels had; and besides them it has two lines for every name. -/
theorem exposition_well_formed (calls : List Sample) :
    read (after calls).text =
        (arranged (after calls) (added calls)).map (fun p => some (record p)) ∧
      (arranged (after calls) (added calls)).Perm (added calls) ∧
      (∀ p ∈ added calls, (record p).labels.Perm p.1.labels) ∧
      (((after calls).text.splitOn (ch '\n')).filter (fun l => l ≠ [])).length =
        2 * (names calls).length + (added calls).length := by
  have h := grouped_after calls
  have hperm := arranged_perm h
  obtain ⟨hnl, hfilter, hlength⟩ := lines_of_families (fun p hp => isNumeral_of_added hp)
    fun name ls hmem => h.family name ls ((Dict.mem_items_iff _).mp hmem)
  have hkeys : (after calls).families.keys.length = (names calls).length := by
    refine ((List.perm_ext_iff_of_nodup (after calls).families.nodup (List.nodup_dedup _)).mpr
      fun name => ?_).length_eq
    have hname : name ∈ names calls ↔ ∃ p ∈ added calls, p.1.name = name :=
      List.mem_dedup.trans List.mem_map
    exact (h.names name).trans hname.symm
  refine ⟨?_, hperm, fun p _ => sorted_perm p.1, ?_⟩
  · rw [read, filter_splitOn_text (fun l hl => (hnl l hl).1) rfl]
    refine (congrArg (List.map readSample) hfilter).trans ?_
    rw [List.map_map]
    refine List.map_congr_left fun p hp => ?_
    exact readSample_line p.1 (isNumeral_of_added (hperm.mem_iff.mp hp))
  · rw [filter_splitOn_text (fun l hl => (hnl l hl).1) (by simp),
      List.filter_eq_self.mpr fun l hl => by simpa using (hnl l hl).2]
    refine hlength.trans ?_
    rw [← hkeys, ← hperm.length_eq, Dict.keys, List.length_map]
    rfl

end NetPulse.Server.Metrics
