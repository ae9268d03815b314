import Mathlib.Data.List.Basic

/-
# NetPulse.Lib.Escaping — text between quotes, and lines

A scheme has an escape character, a quote that ends a text, and a letter for each character that is
not written as it is. `readQuoted_escape`: what was escaped is read back up to its own quote, whatever
follows. `not_mem_escape`: a character with a letter is not in an escaped text, unless letters are
written with it.

`splitOn_lines`: lines without a line end, each with one behind it, are found again.
-/

namespace NetPulse.Lib.Escaping

variable {α : Type*} [DecidableEq α]

structure Scheme (α : Type*) where
  esc : α
  quote : α
  /-- The letter that stands behind `esc` for a character. -/
  letter : α → Option α
  /-- The character that a letter stands for. -/
  meaning : α → Option α
  letter_esc : (letter esc).isSome
  letter_quote : (letter quote).isSome
  meaning_letter : ∀ {c l}, letter c = some l → meaning l = some c

namespace Scheme

variable (S : Scheme α)

/-! ## §1 Escaping -/

def escapeChar (c : α) : List α :=
  match S.letter c with
  | some l => [S.esc, l]
  | none => [c]

def escape (s : List α) : List α := s.flatMap S.escapeChar

/-- The text up to the next quote, unescaped, and what follows the quote. -/
def readQuoted : List α → Option (List α × List α)
  | [] => none
  | [c] => if c = S.quote then some ([], []) else none
  | c :: l :: rest =>
      if c = S.quote then some ([], l :: rest)
      else if c = S.esc then
        (S.meaning l).bind fun d => (readQuoted rest).map fun r => (d :: r.1, r.2)
      else (readQuoted (l :: rest)).map fun r => (c :: r.1, r.2)

variable {S}

omit [DecidableEq α] in
theorem escape_cons (c : α) (s : List α) : S.escape (c :: s) = S.escapeChar c ++ S.escape s :=
  List.flatMap_cons

theorem readQuoted_quote (rest : List α) : S.readQuoted (S.quote :: rest) = some ([], rest) := by
  cases rest with
  | nil => rw [readQuoted, if_pos rfl]
  | cons l rest => rw [readQuoted, if_pos rfl]

theorem readQuoted_escaped (hne : S.esc ≠ S.quote) {l d : α} (hl : S.meaning l = some d)
    (rest : List α) : S.readQuoted (S.esc :: l :: rest) =
      (S.readQuoted rest).map fun r => (d :: r.1, r.2) := by
  rw [readQuoted, if_neg hne, if_pos rfl, hl, Option.bind_some]

theorem readQuoted_plain {c : α} (hc : S.letter c = none) (rest : List α) :
    S.readQuoted (c :: rest) = (S.readQuoted rest).map fun r => (c :: r.1, r.2) := by
  have hquote : c ≠ S.quote := by
    rintro rfl
    exact Option.not_isSome_iff_eq_none.mpr hc S.letter_quote
  have hesc : c ≠ S.esc := by
    rintro rfl
    exact Option.not_isSome_iff_eq_none.mpr hc S.letter_esc
  cases rest with
  | nil => simp [readQuoted, hquote]
  | cons l rest => rw [readQuoted, if_neg hquote, if_neg hesc]

/-- **What was escaped is read back**, and no more. -/
theorem readQuoted_escape (hne : S.esc ≠ S.quote) (s rest : List α) :
    S.readQuoted (S.escape s ++ S.quote :: rest) = some (s, rest) := by
  induction s with
  | nil => exact readQuoted_quote rest
  | cons c s ih =>
      rw [escape_cons, List.append_assoc]
      rcases hc : S.letter c with _ | l
      · have hchar : S.escapeChar c = [c] := by rw [escapeChar, hc]
        rw [hchar, List.singleton_append, readQuoted_plain hc, ih, Option.map_some]
      · have hchar : S.escapeChar c = [S.esc, l] := by rw [escapeChar, hc]
        rw [hchar, List.cons_append, List.singleton_append,
          readQuoted_escaped hne (S.meaning_letter hc), ih, Option.map_some]

omit [DecidableEq α] in
/-- **Not in an escaped text.** -/
theorem not_mem_escape {c : α} (hc : (S.letter c).isSome) (hesc : c ≠ S.esc)
    (hletter : ∀ d, S.letter d ≠ some c) (s : List α) : c ∉ S.escape s := by
  intro hmem
  obtain ⟨d, -, hd⟩ := List.mem_flatMap.mp hmem
  unfold escapeChar at hd
  rcases hl : S.letter d with _ | l
  · rw [hl, List.mem_singleton] at hd
    rw [hd, hl] at hc
    cases hc
  · rw [hl] at hd
    rcases List.mem_cons.mp hd with heq | hd
    · exact hesc heq
    · exact hletter d (hl.trans (congrArg some (List.mem_singleton.mp hd).symm))

end Scheme

/-! ## §2 One replacement after the other -/

/-- `s.replace(c, r)`, of a single character. -/
def replace (c : α) (r : List α) (s : List α) : List α := s.flatMap fun x => if x = c then r else [x]

theorem replace_flatMap (c : α) (r : List α) (f : α → List α) (s : List α) :
    replace c r (s.flatMap f) = s.flatMap fun x => replace c r (f x) := List.flatMap_assoc

/-! ## §3 Lines -/

omit [DecidableEq α] in
theorem intercalate_concat_nil {sep : List α} {ls : List (List α)} (h : ls ≠ []) :
    sep.intercalate (ls ++ [[]]) = sep.intercalate ls ++ sep := by
  induction ls with
  | nil => exact absurd rfl h
  | cons l rest ih =>
      rcases rest with _ | ⟨l', rest⟩
      · simp
      · have htail := ih (List.cons_ne_nil _ _)
        rw [List.cons_append] at htail
        rw [List.cons_append, List.cons_append, List.intercalate_cons_cons,
          List.intercalate_cons_cons, htail]
        simp only [List.append_assoc]

/-- **Lines**, each with a line end. -/
theorem splitOn_lines {nl : α} {ls : List (List α)} (h : ∀ l ∈ ls, nl ∉ l) (hne : ls ≠ []) :
    ([nl].intercalate ls ++ [nl]).splitOn nl = ls ++ [[]] := by
  have hall : ∀ l ∈ ls ++ [[]], nl ∉ l := by
    intro l hl
    rcases List.mem_append.mp hl with hl | hl
    · exact h l hl
    · rw [List.mem_singleton.mp hl]
      exact List.not_mem_nil
  rw [← intercalate_concat_nil hne]
  exact List.splitOn_intercalate nl hall (List.append_ne_nil_of_right_ne_nil _ (List.cons_ne_nil _ _))

end NetPulse.Lib.Escaping
