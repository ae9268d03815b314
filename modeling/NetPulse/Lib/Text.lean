import Mathlib.Data.List.DropRight

/-
# NetPulse.Lib.Text — text as lists of code points, surrogates included

A text that was read from a JSON escape may have a lone surrogate in it. Such a text has a length,
can be compared and stripped like any other, and cannot be encoded; so it is a list of code points
here and not a `String`.

`strip` takes white space off both ends. A `Word` has no white space and no surrogate in it: it can
be encoded, and stripping leaves it as it is.
-/

namespace NetPulse.Lib

/-- Off both ends of a list, and then there is nothing to take off. -/
theorem trim_trim {α : Type*} (p : α → Bool) (l : List α) :
    (((l.dropWhile p).rdropWhile p).dropWhile p).rdropWhile p = (l.dropWhile p).rdropWhile p := by
  have hfront : ((l.dropWhile p).rdropWhile p).dropWhile p = (l.dropWhile p).rdropWhile p := by
    rw [List.dropWhile_eq_self_iff]
    intro hpos
    have hpre : (l.dropWhile p).rdropWhile p <+: l.dropWhile p := List.rdropWhile_prefix _ _
    rw [hpre.getElem hpos]
    exact List.dropWhile_get_zero_not _ _ (Nat.lt_of_lt_of_le hpos hpre.length_le)
  rw [hfront, List.rdropWhile_idempotent]

/-- A code point: a character, or one half of a surrogate pair. -/
inductive CodePoint where
  | scalar (c : Char)
  | surrogate (half : Fin 2048)
  deriving DecidableEq

abbrev Text := List CodePoint

namespace Text

/-! ## §1 Literals, white space and encoding -/

/-- The text of a literal. -/
def lit (s : String) : Text := s.toList.map CodePoint.scalar

/-- White space, by code point. -/
def whitespace (n : Nat) : Bool :=
  (9 ≤ n && n ≤ 13) || (28 ≤ n && n ≤ 32) || n == 0x85 || n == 0xa0 || n == 0x1680 ||
    (0x2000 ≤ n && n ≤ 0x200a) || n == 0x2028 || n == 0x2029 || n == 0x202f || n == 0x205f ||
    n == 0x3000

def isSpace : CodePoint → Bool
  | .scalar c => whitespace c.toNat
  | .surrogate _ => false

/-- White space off both ends. -/
def strip (s : Text) : Text := (s.dropWhile isSpace).rdropWhile isSpace

def isScalar : CodePoint → Bool
  | .scalar _ => true
  | .surrogate _ => false

/-- There is no surrogate in it. -/
def encodable (s : Text) : Bool := s.all isScalar

theorem strip_sublist (s : Text) : List.Sublist s.strip s :=
  (List.rdropWhile_prefix isSpace _).sublist.trans (List.dropWhile_sublist isSpace)

theorem length_strip_le (s : Text) : s.strip.length ≤ s.length := (strip_sublist s).length_le

theorem dropWhile_of_all_false {p : CodePoint → Bool} {s : Text} (h : ∀ c ∈ s, p c = false) :
    s.dropWhile p = s := by
  cases s with
  | nil => rfl
  | cons c rest => rw [List.dropWhile_cons, h c List.mem_cons_self, if_neg Bool.false_ne_true]

/-- **Stripping twice** is stripping once. -/
theorem strip_strip (s : Text) : s.strip.strip = s.strip := trim_trim isSpace s

theorem encodable_of_sublist {s t : Text} (hsub : List.Sublist s t) (h : t.encodable = true) :
    s.encodable = true := by
  unfold encodable at h ⊢
  rw [List.all_eq_true] at h ⊢
  intro c hc
  exact h c (hsub.subset hc)

theorem encodable_append {s t : Text} (hs : s.encodable = true) (ht : t.encodable = true) :
    Text.encodable (s ++ t) = true := by
  unfold encodable at hs ht ⊢
  rw [List.all_append, hs, ht]
  rfl

theorem encodable_lit (s : String) : (lit s).encodable = true := by
  unfold encodable lit
  rw [List.all_map, List.all_eq_true]
  intro c _
  rfl

/-! ## §2 Words -/

/-- No white space and no surrogate. -/
def Word (s : Text) : Prop := ∀ c ∈ s, isSpace c = false ∧ isScalar c = true

theorem Word.encodable {s : Text} (h : Word s) : s.encodable = true := by
  unfold Text.encodable
  rw [List.all_eq_true]
  intro c hc
  exact (h c hc).2

theorem Word.append {s t : Text} (hs : Word s) (ht : Word t) : Word (s ++ t) := by
  intro c hc
  rcases List.mem_append.mp hc with hc | hc
  · exact hs c hc
  · exact ht c hc

/-- **A word is stripped already.** -/
theorem Word.strip {s : Text} (h : Word s) : s.strip = s := by
  have hend : s.rdropWhile isSpace = s := by
    unfold List.rdropWhile
    rw [dropWhile_of_all_false fun c hc => (h c (List.mem_reverse.mp hc)).1, List.reverse_reverse]
  rw [Text.strip, dropWhile_of_all_false fun c hc => (h c hc).1, hend]

end Text

end NetPulse.Lib
