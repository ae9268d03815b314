import NetPulse.Lib.Text
import NetPulse.Lib.Json
import NetPulse.Lib.PosixPath
import Mathlib.Data.List.Forall2
import Mathlib.Data.List.Infix

/-
# NetPulse.Mesh.ConfigMask — the secret in the texts of the config editor (`services/config/service.py`)

`get` and `read_backup` send a text in which the lines that look like `secret: value` have a
placeholder for their value; `save` puts the secret of the node into all of these lines again. Both
work on lines, with one regular expression, and know nothing of the tree that the text stands for.

`shown_same_iff` says when two texts are shown as one.
-/

namespace NetPulse.Mesh.ConfigService

open NetPulse.Lib

/-! ## §1 Lines with a secret -/

abbrev Chars := List Char

/-- `SECRET_PLACEHOLDER` -/
def secret_placeholder : Chars := "__MASKED_SECRET__".toList

/-- `[ \t]` -/
def isTab (c : Char) : Bool := c == ' ' || c == '\t'

/-- `\s`, which is `str.isspace`. -/
def isSpace (c : Char) : Bool := Text.whitespace c.toNat

def isQuote (c : Char) : Bool := c == '"' || c == '\''

def stripOf (p : Char → Bool) (s : Chars) : Chars := (s.dropWhile p).rdropWhile p

def isBlankText (s : Chars) : Bool := s.all isSpace

/-- The groups `indent` and `val`. -/
structure Match where
  indent : Chars
  val : Chars
  deriving DecidableEq

/-- `[ \t]*(?P<val>\S.*?)[ \t]*$` -/
def valueOf (rest : Chars) : Option Chars :=
  match rest.dropWhile isTab with
  | [] => none
  | c :: rest => if isSpace c then none else some ((c :: rest).rdropWhile isTab)

/-- `_SECRET_LINE_RE` on a line; a match is a whole line. -/
def secretLine (l : Chars) : Option Match :=
  if (l.takeWhile isTab).isEmpty then none
  else if "secret:".toList.isPrefixOf (l.dropWhile isTab) then
    (valueOf ((l.dropWhile isTab).drop 7)).map fun val => ⟨l.takeWhile isTab, val⟩
  else none

/-- The line with another value. -/
def written (indent value : Chars) : Chars := indent ++ "secret: ".toList ++ value

/-- The values that `_mask_secret` leaves. -/
def plainValue (val : Chars) : Bool :=
  let val := stripOf isQuote (stripOf isSpace val)
  val == "null".toList || val == "~".toList || val == [] || decide (secret_placeholder <:+: val)

def maskLine (l : Chars) : Chars :=
  match secretLine l with
  | some m => if plainValue m.val then l else written m.indent secret_placeholder
  | none => l

def unmaskLine (scalar : Chars) (l : Chars) : Chars :=
  match secretLine l with
  | some m => written m.indent scalar
  | none => l

def linesOf (text : Chars) : List Chars := text.splitOn '\n'

def mapLines (f : Chars → Chars) (text : Chars) : Chars := ['\n'].intercalate ((linesOf text).map f)

/-- `real` is true. -/
def isSet (real : Option String) : Bool := real.any fun s => s ≠ ""

def mask_secret (real : Option String) (text : Chars) : Chars :=
  if isSet real then mapLines maskLine text else text

/-- `_unmask_secret`, with what `_yaml_scalar` makes of the secret. -/
def unmask_secret (scalar : Chars) (text : Chars) : Chars := mapLines (unmaskLine scalar) text

/-! ## §2 What is matched -/

/-- A match has an indentation, and a value that starts and ends with no blank. -/
structure Match.Wf (m : Match) : Prop where
  indent_ne : m.indent ≠ []
  indent_tabs : ∀ c ∈ m.indent, isTab c = true
  value : valueOf m.val = some m.val

theorem isTab_isSpace {c : Char} (h : isTab c = true) : isSpace c = true := by
  unfold isTab at h
  rw [Bool.or_eq_true, beq_iff_eq, beq_iff_eq] at h
  rcases h with rfl | rfl
  · decide
  · decide

theorem valueOf_valueOf {rest val : Chars} (h : valueOf rest = some val) :
    valueOf val = some val := by
  unfold valueOf at h
  split at h
  · cases h
  · rename_i c tail _
    split at h
    · cases h
    · rename_i hspace
      have htab : isTab c = false := by
        rw [Bool.eq_false_iff]
        exact fun htab => hspace (isTab_isSpace htab)
      obtain rfl := Option.some.inj h
      -- the first character stays
      obtain ⟨tail', htail⟩ : ∃ tail', (c :: tail).rdropWhile isTab = c :: tail' := by
        have hpre := List.rdropWhile_prefix isTab (c :: tail)
        cases hdrop : (c :: tail).rdropWhile isTab with
        | nil =>
            rw [List.rdropWhile_eq_nil_iff] at hdrop
            rw [hdrop c List.mem_cons_self] at htab
            cases htab
        | cons c' tail' =>
            rw [hdrop, List.cons_prefix_cons] at hpre
            exact ⟨tail', by rw [hpre.1]⟩
      have hidem := List.rdropWhile_idempotent isTab (c :: tail)
      rw [htail] at hidem ⊢
      unfold valueOf
      rw [List.dropWhile_cons, htab, if_neg Bool.false_ne_true]
      dsimp only
      rw [if_neg hspace, hidem]

theorem secretLine_wf {l : Chars} {m : Match} (h : secretLine l = some m) : m.Wf := by
  unfold secretLine at h
  split at h
  · cases h
  · rename_i hindent
    split at h
    · obtain ⟨val, hval, rfl⟩ := Option.map_eq_some_iff.mp h
      refine ⟨fun hnil => hindent ?_, fun c hc => ?_, valueOf_valueOf hval⟩
      · exact List.isEmpty_iff.mpr hnil
      · exact List.mem_takeWhile_imp hc
    · cases h

theorem takeWhile_append_of {p : Char → Bool} {s t : Chars} (h : ∀ c ∈ s, p c = true)
    (ht : ∀ c ∈ t.head?, p c = false) : (s ++ t).takeWhile p = s ∧ (s ++ t).dropWhile p = t := by
  induction s with
  | nil =>
      cases t with
      | nil => exact ⟨rfl, rfl⟩
      | cons c t =>
          have hc := ht c rfl
          rw [List.nil_append, List.takeWhile_cons, List.dropWhile_cons, hc]
          exact ⟨rfl, rfl⟩
  | cons c s ih =>
      rw [List.forall_mem_cons] at h
      rw [List.cons_append, List.takeWhile_cons, List.dropWhile_cons, h.1, if_pos rfl, if_pos rfl,
        (ih h.2).1, (ih h.2).2]
      exact ⟨rfl, rfl⟩

/-- **What is written is matched**, with its indentation and its value. -/
theorem secretLine_written {indent value : Chars} (hne : indent ≠ [])
    (htabs : ∀ c ∈ indent, isTab c = true) (hvalue : valueOf value = some value) :
    secretLine (written indent value) = some ⟨indent, value⟩ := by
  have hsplit := takeWhile_append_of (t := "secret: ".toList ++ value) htabs (by
    intro c hc
    obtain rfl : 's' = c := Option.some.inj hc
    decide)
  unfold secretLine written
  rw [List.append_assoc, hsplit.1, hsplit.2]
  rw [if_neg fun h => hne (List.isEmpty_iff.mp h)]
  have hdrop : List.drop 7 ("secret: ".toList ++ value) = ' ' :: value := rfl
  have hpre : List.isPrefixOf "secret:".toList ("secret: ".toList ++ value) = true := rfl
  have hblank : valueOf (' ' :: value) = valueOf value := rfl
  rw [if_pos hpre, hdrop, hblank, hvalue]
  rfl

theorem valueOf_placeholder : valueOf secret_placeholder = some secret_placeholder := by decide +kernel

theorem written_inj {indent indent' value : Chars} (h : written indent value = written indent' value) :
    indent = indent' := by
  unfold written at h
  exact List.append_cancel_right (List.append_cancel_right h)

/-! ## §3 Lines of a text -/

theorem newline_not_mem {text l : Chars} (h : l ∈ linesOf text) : '\n' ∉ l := by
  intro hmem
  exact PosixPath.not_mem_of_mem_splitOn h hmem

theorem linesOf_ne_nil (text : Chars) : linesOf text ≠ [] := List.splitOn_ne_nil _ _

theorem newline_not_mem_written {indent value : Chars} (hindent : '\n' ∉ indent)
    (hvalue : '\n' ∉ value) : '\n' ∉ written indent value := by
  unfold written
  rw [List.mem_append, List.mem_append, not_or, not_or]
  exact ⟨⟨hindent, by decide⟩, hvalue⟩

theorem Match.Wf.newline_not_mem {m : Match} (h : m.Wf) : '\n' ∉ m.indent := by
  intro hmem
  have htab := h.indent_tabs _ hmem
  revert htab
  decide

/-- A change of lines is a change of the lines of the text. -/
theorem linesOf_mapLines {f : Chars → Chars} {text : Chars}
    (h : ∀ l ∈ linesOf text, '\n' ∉ f l) : linesOf (mapLines f text) = (linesOf text).map f := by
  unfold mapLines linesOf
  refine List.splitOn_intercalate '\n' (fun l hl => ?_) ?_
  · obtain ⟨l', hl', rfl⟩ := List.mem_map.mp hl
    exact h l' hl'
  · rw [Ne, List.map_eq_nil_iff]
    exact linesOf_ne_nil text

theorem newline_not_mem_maskLine {text l : Chars} (h : l ∈ linesOf text) : '\n' ∉ maskLine l := by
  unfold maskLine
  cases hmatch : secretLine l with
  | none => exact newline_not_mem h
  | some m =>
      dsimp only
      split
      · exact newline_not_mem h
      · exact newline_not_mem_written (secretLine_wf hmatch).newline_not_mem (by decide)

theorem linesOf_mask (text : Chars) :
    linesOf (mapLines maskLine text) = (linesOf text).map maskLine :=
  linesOf_mapLines fun _ hl => newline_not_mem_maskLine hl

theorem linesOf_unmask {scalar : Chars} (hscalar : '\n' ∉ scalar) (text : Chars) :
    linesOf (unmask_secret scalar text) = (linesOf text).map (unmaskLine scalar) := by
  refine linesOf_mapLines fun l hl => ?_
  unfold unmaskLine
  cases hmatch : secretLine l with
  | none => exact newline_not_mem hl
  | some m => exact newline_not_mem_written (secretLine_wf hmatch).newline_not_mem hscalar

theorem eq_of_linesOf {text text' : Chars} (h : linesOf text = linesOf text') : text = text' := by
  have hjoin : ['\n'].intercalate (linesOf text) = ['\n'].intercalate (linesOf text') := congrArg _ h
  unfold linesOf at hjoin
  rwa [List.intercalate_splitOn, List.intercalate_splitOn] at hjoin

/-- **Masked lines are matched again**, so that what is put into all of them is put into the lines that
were matched before. -/
theorem unmaskLine_maskLine (scalar l : Chars) :
    unmaskLine scalar (maskLine l) = unmaskLine scalar l := by
  cases hmatch : secretLine l with
  | none =>
      have hmask : maskLine l = l := by rw [maskLine, hmatch]
      rw [hmask]
  | some m =>
      have hwf := secretLine_wf hmatch
      by_cases hplain : plainValue m.val = true
      · have hmask : maskLine l = l := by
          rw [maskLine, hmatch]
          exact if_pos hplain
        rw [hmask]
      · have hmask : maskLine l = written m.indent secret_placeholder := by
          rw [maskLine, hmatch]
          exact if_neg hplain
        rw [hmask, unmaskLine, unmaskLine, hmatch,
          secretLine_written hwf.indent_ne hwf.indent_tabs valueOf_placeholder]

/-! ## §4 What is shown -/

/-- The node, as far as `get` and `read_backup` look at it. -/
structure Node where
  /-- `ctx.config.local.secret` -/
  secret : Option String
  /-- `config.yaml`, if it can be read. -/
  file : Option Chars
  /-- What can be read under a name that `_backup_path` accepts. -/
  backup : String → Option Chars

/-- The text that `get` answers. -/
def Node.get (n : Node) : Option Chars := n.file.map (mask_secret n.secret)

/-- The text that `read_backup` answers. -/
def Node.read_backup (n : Node) (name : String) : Option Chars :=
  (n.backup name).map (mask_secret n.secret)

/-- A line that is shown with the placeholder behind this indentation. -/
def Hidden (indent l : Chars) : Prop :=
  ∃ val, secretLine l = some ⟨indent, val⟩ ∧
    (plainValue val = false ∨ l = written indent secret_placeholder)

/-- The same line, or two in which a value is hidden behind one indentation. -/
def AlikeLine (l l' : Chars) : Prop := l = l' ∨ ∃ indent, Hidden indent l ∧ Hidden indent l'

def Alike (real : Option String) (t t' : Chars) : Prop :=
  if isSet real then List.Forall₂ AlikeLine (linesOf t) (linesOf t') else t = t'

theorem Hidden.maskLine {indent l : Chars} (h : Hidden indent l) :
    ConfigService.maskLine l = written indent secret_placeholder := by
  obtain ⟨val, hmatch, hval⟩ := h
  rw [ConfigService.maskLine, hmatch]
  dsimp only
  rcases hval with hval | hl
  · rw [hval, if_neg Bool.false_ne_true]
  · split
    · exact hl
    · rfl

/-- A line stays, or its value is hidden. -/
theorem maskLine_cases (l : Chars) : maskLine l = l ∨ ∃ indent, Hidden indent l := by
  cases hmatch : secretLine l with
  | none => exact .inl (by rw [maskLine, hmatch])
  | some m =>
      cases hplain : plainValue m.val with
      | true =>
          refine .inl ?_
          rw [maskLine, hmatch]
          exact if_pos hplain
      | false => exact .inr ⟨m.indent, m.val, hmatch, .inl hplain⟩

/-- What has been masked shows where the placeholder is. -/
theorem Hidden.of_written {indent l : Chars} (h : Hidden indent l) :
    Hidden indent (written indent secret_placeholder) := by
  obtain ⟨val, hmatch, -⟩ := h
  have hwf := secretLine_wf hmatch
  exact ⟨_, secretLine_written hwf.indent_ne hwf.indent_tabs valueOf_placeholder, .inr rfl⟩

theorem maskLine_eq_iff {l l' : Chars} : maskLine l = maskLine l' ↔ AlikeLine l l' := by
  constructor
  · intro h
    rcases maskLine_cases l with hl | ⟨indent, hhidden⟩ <;>
      rcases maskLine_cases l' with hl' | ⟨indent', hhidden'⟩
    · rw [hl, hl'] at h
      exact .inl h
    · rw [hl, hhidden'.maskLine] at h
      exact .inr ⟨indent', h ▸ hhidden'.of_written, hhidden'⟩
    · rw [hhidden.maskLine, hl'] at h
      exact .inr ⟨indent, hhidden, h ▸ hhidden.of_written⟩
    · rw [hhidden.maskLine, hhidden'.maskLine] at h
      exact .inr ⟨indent, hhidden, written_inj h ▸ hhidden'⟩
  · rintro (rfl | ⟨indent, hhidden, hhidden'⟩)
    · rfl
    · rw [hhidden.maskLine, hhidden'.maskLine]

/-- **Two texts are shown as one** exactly if they are alike line by line, and with no secret on the
node only if they are one text. -/
theorem mask_secret_eq_iff (real : Option String) (t t' : Chars) :
    mask_secret real t = mask_secret real t' ↔ Alike real t t' := by
  unfold mask_secret Alike
  by_cases hset : isSet real = true
  · rw [if_pos hset, if_pos hset, if_pos hset]
    have hlines : mapLines maskLine t = mapLines maskLine t' ↔
        (linesOf t).map maskLine = (linesOf t').map maskLine := by
      constructor
      · intro h
        rw [← linesOf_mask, ← linesOf_mask, h]
      · intro h
        exact eq_of_linesOf (by rw [linesOf_mask, linesOf_mask, h])
    rw [hlines, ← List.forall₂_eq_eq_eq, List.forall₂_map_left_iff, List.forall₂_map_right_iff]
    exact ⟨fun h => h.imp fun _ _ => maskLine_eq_iff.mp, fun h => h.imp fun _ _ => maskLine_eq_iff.mpr⟩
  · rw [if_neg hset, if_neg hset, if_neg hset]

theorem map_eq_map_iff {α β : Type} {f : α → β} {x y : Option α} :
    x.map f = y.map f ↔ Option.Rel (fun a b => f a = f b) x y := by
  cases x with
  | none =>
      cases y with
      | none => exact iff_of_true rfl .none
      | some b => exact iff_of_false (fun h => by cases h) (fun h => by cases h)
  | some a =>
      cases y with
      | none => exact iff_of_false (fun h => by cases h) (fun h => by cases h)
      | some b => exact ⟨fun h => .some (Option.some.inj h), fun h => by cases h with | some h => exact congrArg some h⟩

/-- **What two nodes with one secret show** of their files is the same exactly if the files are
alike. -/
theorem shown_same_iff (secret : Option String) (file file' : Option Chars)
    (backup backup' : String → Option Chars) :
    ((Node.mk secret file backup).get = (Node.mk secret file' backup').get ∧
      ∀ name, (Node.mk secret file backup).read_backup name =
        (Node.mk secret file' backup').read_backup name) ↔
      Option.Rel (Alike secret) file file' ∧
        ∀ name, Option.Rel (Alike secret) (backup name) (backup' name) := by
  have hrel : (fun t t' => mask_secret secret t = mask_secret secret t') = Alike secret := by
    funext t t'
    exact propext (mask_secret_eq_iff secret t t')
  unfold Node.get Node.read_backup
  dsimp only
  rw [map_eq_map_iff, hrel]
  refine and_congr_right' (forall_congr' fun name => ?_)
  rw [map_eq_map_iff, hrel]

/-! ## §5 A secret in braces -/

section Spellings

variable {Num : Type}

/-- A way to write a secret into a text; what is parsed is the same but for `local.secret`. -/
structure Spelling (safe_load : Chars → Option (Json Num)) where
  before : Chars
  value : String → Chars
  after : Chars
  root : Json.Entries Num
  loc : Json.Entries Num
  secrets : List String
  secrets_ne : "" ∉ secrets
  load_text : ∀ s ∈ secrets, safe_load (before ++ value s ++ after) =
    some (.obj (Dict.assign "local" (.obj (Dict.assign "secret" (.str s) loc)) root))

/-- The text does not depend on the secret when it is shown. -/
def Spelling.Nondisclosing {safe_load : Chars → Option (Json Num)} (σ : Spelling safe_load) : Prop :=
  ∀ (real : Option String), ∀ s ∈ σ.secrets, ∀ s' ∈ σ.secrets,
    mask_secret real (σ.before ++ σ.value s ++ σ.after) =
      mask_secret real (σ.before ++ σ.value s' ++ σ.after)

/-- `local` with the secret, and nothing else. -/
def localSecret (s : String) : Json Int := .obj [("local", .obj [("secret", .str s)])]

def flowText (s : String) : Chars := "local: \x7bsecret: ".toList ++ s.toList ++ "\x7d".toList

/-- YAML of two texts. -/
def flowLoad (text : Chars) : Option (Json Int) :=
  if text = flowText "alpha" then some (localSecret "alpha")
  else if text = flowText "beta" then some (localSecret "beta")
  else none

def flow : Spelling flowLoad where
  before := "local: \x7bsecret: ".toList
  value s := s.toList
  after := "\x7d".toList
  root := []
  loc := []
  secrets := ["alpha", "beta"]
  secrets_ne := by decide
  load_text s hs := by
    rw [List.mem_cons, List.mem_singleton] at hs
    rcases hs with rfl | rfl
    · rfl
    · rfl

/-- A flow mapping has no line of its own for the secret, and the secret is shown. -/
theorem flow_disclosed : ¬ flow.Nondisclosing := by
  intro h
  have hsame := h (some "alpha") "alpha" (by decide) "beta" (by decide)
  have hne : mask_secret (some "alpha") (flowText "alpha") ≠
      mask_secret (some "alpha") (flowText "beta") := by decide +kernel
  exact hne hsame

end Spellings

end NetPulse.Mesh.ConfigService
