import NetPulse.Lib.CommandLine

/-
# NetPulse.Lib.CommandArgs — command lines that are put together from arguments

One who writes a line puts an argument between quotes or leaves it without. `parse_lineOf_iff` says
which arguments are then read as they were meant: every character of a value is a character of the
argument that it was put into, and of nothing else. If one is not, a character of a value has been
taken for a mark, and there are too few of them in what is read.
-/

namespace NetPulse.Lib.CommandLine

/-! ## §1 Arguments as they are written -/

/-- A character, and whether it belongs to a value or is a mark around one. -/
structure Tagged where
  char : Char
  payload : Bool
  deriving DecidableEq

def valued (s : List Char) : List Tagged := s.map fun c => ⟨c, true⟩

def mark (c : Char) : Tagged := ⟨c, false⟩

/-- An argument: between quotes or without any. -/
inductive Arg where
  | bare (s : List Char)
  | quoted (s : List Char)
  deriving DecidableEq

def Arg.text : Arg → List Char
  | .bare s => s
  | .quoted s => s

def Arg.written : Arg → List Tagged
  | .bare s => valued s
  | .quoted s => mark '"' :: (valued s ++ [mark '"'])

/-- With a blank before each of them. -/
def written (args : List Arg) : List Tagged := args.flatMap fun a => mark ' ' :: a.written

/-- It cannot stand between quotes. -/
def badQuoted (c : Char) : Bool := c == '"' || c == '\r' || c == '\n'

/-- Outside quotes it is more than a character. -/
def special (c : Char) : Bool := badQuoted c || c == '^' || isOp c

/-- It cannot stand in an argument without quotes. -/
def badBare (c : Char) : Bool := special c || blank c

/-- An argument that is read as it was meant. -/
def Arg.Clean : Arg → Prop
  | .bare s => s ≠ [] ∧ ∀ c ∈ s, badBare c = false
  | .quoted s => s.getLast? ≠ some '\\' ∧ ∀ c ∈ s, badQuoted c = false

instance : DecidablePred Arg.Clean
  | .bare s =>
      decidable_of_iff (s ≠ [] ∧ (s.all fun c => !badBare c) = true) (by simp [Arg.Clean])
  | .quoted s =>
      decidable_of_iff (s.getLast? ≠ some '\\' ∧ (s.all fun c => !badQuoted c) = true)
        (by simp [Arg.Clean])

section Written

variable {word : Option (List Tagged)} {slashes s X : List Tagged} {quote : Quote} {a : Tagged}
  {v : List Char} {mode : Mode}

private abbrev ch : Tagged → Char := Tagged.char

theorem countP_valued (v : List Char) : (valued v).countP Tagged.payload = v.length := by
  have hall : ∀ a ∈ valued v, a.payload = true := by
    intro a ha
    obtain ⟨c, -, rfl⟩ := List.mem_map.mp ha
    rfl
  rw [List.countP_eq_length.mpr hall, valued, List.length_map]

theorem ch_quote : ch (mark '"') = '"' := rfl

theorem words_mark_blank (X : List Tagged) :
    words ch none [] .outside (mark ' ' :: X) = words ch none [] .outside X :=
  words_blank (show blank (ch (mark ' ')) = true by decide) (by decide)

/-- Between quotes: all of it is one argument, up to the quote behind it. -/
theorem words_inside (hv : ∀ c ∈ v, badQuoted c = false) (hlast : v.getLast? ≠ some '\\')
    (hslashes : v = [] → slashes = []) (X : List Tagged) :
    words ch word slashes .inside (valued v ++ mark '"' :: X) =
      words ch (some (word.getD [] ++ slashes ++ valued v)) [] .closing X := by
  induction v generalizing word slashes with
  | nil =>
      obtain rfl := hslashes rfl
      show words ch word [] .inside (mark '"' :: X) = _
      rw [words_quote ch_quote (by decide)]
      simp [valued, Quote.now, Quote.toggle]
  | cons c v ih =>
      have hc : c ≠ '"' := fun h => by simpa [h, badQuoted] using hv c List.mem_cons_self
      have hrest : ∀ c ∈ v, badQuoted c = false := fun d hd => hv d (List.mem_cons_of_mem _ hd)
      have hlast' : v.getLast? ≠ some '\\' := by
        intro h
        simp [List.getLast?_cons, h] at hlast
      show words ch word slashes .inside (⟨c, true⟩ :: (valued v ++ mark '"' :: X)) = _
      by_cases hslash : c = '\\'
      · have hne : v ≠ [] := by
          rintro rfl
          simp [hslash] at hlast
        rw [words_slash (show ch ⟨c, true⟩ = '\\' from hslash), Quote.now_inside,
          ih hrest hlast' fun h => absurd h hne]
        simp [valued]
      · rw [words_char (show ch ⟨c, true⟩ ≠ '\\' from hslash) (show ch ⟨c, true⟩ ≠ '"' from hc)
          (.inl rfl), Quote.now_inside, ih hrest hlast' fun _ => rfl]
        simp [valued]

/-- Without quotes: all of it is one argument, up to a blank or the end. -/
theorem words_outside (hv : ∀ c ∈ v, badBare c = false) (word : Option (List Tagged))
    (slashes : List Tagged) (X : List Tagged) (hX : X = [] ∨ ∃ Y, X = mark ' ' :: Y) :
    words ch word slashes .outside (valued v ++ X) =
      (finish word (slashes ++ valued v)).toList ++ words ch none [] .outside X := by
  induction v generalizing word slashes with
  | nil =>
      rw [valued, List.map_nil, List.append_nil, List.nil_append]
      rcases hX with rfl | ⟨Y, rfl⟩
      · simp [words, finish]
      · rw [words_blank (show blank (ch (mark ' ')) = true by decide) (by decide),
          words_blank (show blank (ch (mark ' ')) = true by decide) (by decide)]
        simp [finish]
  | cons c v ih =>
      have hc := hv c List.mem_cons_self
      simp only [badBare, special, badQuoted, Bool.or_eq_false_iff, beq_eq_false_iff_ne] at hc
      have hrest : ∀ c ∈ v, badBare c = false := fun d hd => hv d (List.mem_cons_of_mem _ hd)
      show words ch word slashes .outside (⟨c, true⟩ :: (valued v ++ X)) = _
      by_cases hslash : c = '\\'
      · rw [words_slash (show ch ⟨c, true⟩ = '\\' from hslash), Quote.now_outside, ih hrest]
        simp [valued]
      · rw [words_char (show ch ⟨c, true⟩ ≠ '\\' from hslash)
          (show ch ⟨c, true⟩ ≠ '"' from hc.1.1.1.1.1) (.inr hc.2), Quote.now_outside, ih hrest]
        simp [valued, finish]

theorem segments_chars (u : List Tagged) (ps : List (Piece Tagged)) :
    segments (u.map .char ++ ps) = (u ++ (segments ps).1, (segments ps).2) := by
  induction u with
  | nil => rfl
  | cons a u ih =>
      show segments (.char a :: (u.map .char ++ ps)) = _
      rw [segments, ih]
      rfl

theorem piecesIn_quoted_run (hv : ∀ c ∈ v, badQuoted c = false) (s : List Tagged) :
    piecesIn ch .quoted (valued v ++ s) = (valued v).map .char ++ piecesIn ch .quoted s := by
  induction v with
  | nil => rfl
  | cons c v ih =>
      have hc := hv c List.mem_cons_self
      simp only [badQuoted, Bool.or_eq_false_iff, beq_eq_false_iff_ne] at hc
      show piecesIn ch .quoted (⟨c, true⟩ :: (valued v ++ s)) = _
      rw [piecesIn, if_neg hc.1.2]
      show (if c = '\n' then _ else _) = _
      rw [if_neg hc.2]
      show _ :: piecesIn ch (if c = '"' then _ else _) _ = _
      rw [if_neg hc.1.1, ih fun d hd => hv d (List.mem_cons_of_mem _ hd)]
      rfl

theorem piecesIn_plain_run {u : List Tagged} (hu : ∀ a ∈ u, special a.char = false)
    (s : List Tagged) :
    piecesIn ch .plain (u ++ s) = u.map .char ++ piecesIn ch .plain s := by
  induction u with
  | nil => rfl
  | cons a u ih =>
      have ha := hu a List.mem_cons_self
      simp only [special, badQuoted, Bool.or_eq_false_iff, beq_eq_false_iff_ne] at ha
      show piecesIn ch .plain (a :: (u ++ s)) = _
      rw [piecesIn, if_neg ha.1.1.1.2]
      show (if a.char = '\n' then _ else if a.char = '^' then _
        else if isOp a.char = true then _ else _) = _
      rw [if_neg ha.1.1.2, if_neg ha.1.2, if_neg (by simp [ha.2])]
      show _ :: piecesIn ch (if a.char = '"' then _ else _) _ = _
      rw [if_neg ha.1.1.1.1, ih fun b hb => hu b (List.mem_cons_of_mem _ hb)]
      rfl

theorem special_valued (hv : ∀ c ∈ v, badBare c = false) :
    ∀ a ∈ valued v, special a.char = false := by
  intro a ha
  obtain ⟨c, hc, rfl⟩ := List.mem_map.mp ha
  exact (Bool.or_eq_false_iff.mp (hv c hc)).1

theorem piecesIn_mark_quote (s : List Tagged) :
    piecesIn ch .plain (mark '"' :: s) = .char (mark '"') :: piecesIn ch .quoted s ∧
      piecesIn ch .quoted (mark '"' :: s) = .char (mark '"') :: piecesIn ch .plain s :=
  ⟨rfl, rfl⟩

theorem piecesIn_mark_blank (s : List Tagged) :
    piecesIn ch .plain (mark ' ' :: s) = .char (mark ' ') :: piecesIn ch .plain s := rfl

/-- Nothing in a clean argument is an operator, or dropped. -/
theorem piecesIn_written {arg : Arg} (h : arg.Clean ∨ arg = .bare []) (s : List Tagged) :
    piecesIn ch .plain (arg.written ++ s) = arg.written.map .char ++ piecesIn ch .plain s := by
  rcases arg with v | v
  · have hv : ∀ c ∈ v, badBare c = false := by
      rcases h with h | h
      · exact h.2
      · simp [Arg.bare.inj h]
    exact piecesIn_plain_run (special_valued hv) s
  · have hv : ∀ c ∈ v, badQuoted c = false := by
      rcases h with h | h
      · exact h.2
      · simp at h
    show piecesIn ch .plain (mark '"' :: (valued v ++ [mark '"'] ++ s)) = _
    rw [(piecesIn_mark_quote _).1, List.append_assoc, List.singleton_append,
      piecesIn_quoted_run hv, (piecesIn_mark_quote _).2]
    simp [Arg.written]

/-- **A clean argument is one word**, and an empty one without quotes is none. -/
theorem words_written {arg : Arg} (h : arg.Clean ∨ arg = .bare []) {X : List Tagged}
    (hX : X = [] ∨ ∃ Y, X = mark ' ' :: Y) :
    words ch none [] .outside (arg.written ++ X) =
      (if arg = .bare [] then [] else [valued arg.text]) ++ words ch none [] .outside X := by
  rcases arg with v | v
  · have hv : ∀ c ∈ v, badBare c = false := by
      rcases h with h | h
      · exact h.2
      · simp [Arg.bare.inj h]
    show words ch none [] .outside (valued v ++ X) = _
    rw [words_outside hv none [] X hX]
    rcases v with _ | ⟨c, v⟩
    · simp [finish, valued]
    · simp [finish, valued, Arg.text]
  · have hclean : Arg.Clean (.quoted v) := h.resolve_right (by simp)
    show words ch none [] .outside (mark '"' :: (valued v ++ [mark '"'] ++ X)) = _
    rw [words_quote ch_quote (by decide), List.append_assoc, List.singleton_append]
    show words ch (some []) [] .inside _ = _
    rw [words_inside hclean.2 hclean.1 fun _ => rfl]
    have hend : words ch (some (valued v)) [] .closing X =
        [valued v] ++ words ch none [] .outside X := by
      rcases hX with rfl | ⟨Y, rfl⟩
      · simp [words, finish]
      · rw [words_blank (show blank (ch (mark ' ')) = true by decide) (by decide),
          words_blank (show blank (ch (mark ' ')) = true by decide) (by decide)]
        simp [finish]
    simpa [Arg.text] using hend

/-- Between quotes a character of a value is lost, or it is read. -/
theorem piecesIn_quoted_cases (c : Char) (s : List Tagged) :
    (kept (piecesIn ch .quoted (⟨c, true⟩ :: s))).countP Tagged.payload ≤
        s.countP Tagged.payload ∨
      c ≠ '\r' ∧ c ≠ '\n' ∧ piecesIn ch .quoted (⟨c, true⟩ :: s) =
        .char ⟨c, true⟩ :: piecesIn ch (if c = '"' then .plain else .quoted) s := by
  have hpieces : piecesIn ch .quoted (⟨c, true⟩ :: s) =
      if c = '\r' then piecesIn ch .quoted s
      else if c = '\n' then []
      else .char ⟨c, true⟩ :: piecesIn ch (if c = '"' then .plain else .quoted) s := by
    rw [piecesIn]
  rw [hpieces]
  by_cases hcr : c = '\r'
  · rw [if_pos hcr]
    exact .inl (countP_piecesIn_le ch Tagged.payload .quoted s)
  by_cases hlf : c = '\n'
  · rw [if_neg hcr, if_pos hlf]
    exact .inl (Nat.zero_le _)
  rw [if_neg hcr, if_neg hlf]
  exact .inr ⟨hcr, hlf, rfl⟩

/-- Outside them it may be an operator, too. -/
theorem piecesIn_plain_cases (c : Char) (s : List Tagged) :
    (kept (piecesIn ch .plain (⟨c, true⟩ :: s))).countP Tagged.payload ≤
        s.countP Tagged.payload ∨
      special c = (c == '"') ∧ piecesIn ch .plain (⟨c, true⟩ :: s) =
        .char ⟨c, true⟩ :: piecesIn ch (if c = '"' then .quoted else .plain) s := by
  have hle := fun mode => countP_piecesIn_le ch Tagged.payload mode s
  have hpieces : piecesIn ch .plain (⟨c, true⟩ :: s) =
      if c = '\r' then piecesIn ch .plain s
      else if c = '\n' then []
      else if c = '^' then piecesIn ch .escaped s
      else if isOp c = true then .op c :: piecesIn ch .plain s
      else .char ⟨c, true⟩ :: piecesIn ch (if c = '"' then .quoted else .plain) s := by
    rw [piecesIn]
  rw [hpieces]
  by_cases hcr : c = '\r'
  · rw [if_pos hcr]
    exact .inl (hle .plain)
  by_cases hlf : c = '\n'
  · rw [if_neg hcr, if_pos hlf]
    exact .inl (Nat.zero_le _)
  by_cases hcaret : c = '^'
  · rw [if_neg hcr, if_neg hlf, if_pos hcaret]
    exact .inl (hle .escaped)
  by_cases hop : isOp c = true
  · rw [if_neg hcr, if_neg hlf, if_neg hcaret, if_pos hop]
    exact .inl (hle .plain)
  rw [if_neg hcr, if_neg hlf, if_neg hcaret, if_neg hop]
  refine .inr ⟨?_, rfl⟩
  rw [special, badQuoted, beq_false_of_ne hcr, beq_false_of_ne hlf, beq_false_of_ne hcaret]
  simp [hop]

/-- A character that is read as one costs nothing: what is lost is lost behind it. -/
theorem loadFrom_value_lt {c : Char} {quote : Quote} {ps : List (Piece Tagged)} {m n : Nat}
    (hmark : c ≠ '"') (hnow : quote.now = quote) (hread : quote = .inside ∨ blank c = false)
    (word : Option (List Tagged)) (slashes : List Tagged)
    (hslashes : ∀ b ∈ slashes, b.payload = true)
    (h : ∀ word slashes, (∀ b ∈ slashes, b.payload = true) → (c = '\\' → slashes ≠ []) →
      loadFrom ch Tagged.payload word slashes quote (segments ps) <
        (word.getD []).countP Tagged.payload + slashes.countP Tagged.payload + m + n) :
    loadFrom ch Tagged.payload word slashes quote (segments (.char ⟨c, true⟩ :: ps)) <
      (word.getD []).countP Tagged.payload + slashes.countP Tagged.payload + (m + 1) + n := by
  by_cases hslash : c = '\\'
  · rw [loadFrom_char ch fun X => words_slash (show ch ⟨c, true⟩ = '\\' from hslash), hnow]
    refine (h word (slashes ++ [⟨c, true⟩]) ?_ fun _ => by simp).trans_le ?_
    · intro b hb
      rcases List.mem_append.mp hb with hb | hb
      · exact hslashes b hb
      · rw [List.mem_singleton.mp hb]
    · simp
      omega
  · rw [loadFrom_char ch fun X => words_char (show ch ⟨c, true⟩ ≠ '\\' from hslash)
      (show ch ⟨c, true⟩ ≠ '"' from hmark) hread, hnow]
    refine (h _ [] (by simp) fun h => absurd h hslash).trans_le ?_
    simp
    omega

/-- What an argument must not have in it, or at its end, costs a character of a value. -/
theorem loadFrom_inside_lt (word : Option (List Tagged)) (slashes : List Tagged)
    (hslashes : ∀ b ∈ slashes, b.payload = true)
    (h : (∃ c ∈ v, badQuoted c = true) ∨ v.getLast? = some '\\' ∨ (v = [] ∧ slashes ≠ []))
    (s : List Tagged) :
    loadFrom ch Tagged.payload word slashes .inside
        (segments (piecesIn ch .quoted (valued v ++ mark '"' :: s))) <
      (word.getD []).countP Tagged.payload + slashes.countP Tagged.payload + v.length +
        s.countP Tagged.payload := by
  induction v generalizing word slashes with
  | nil =>
      have hne : slashes ≠ [] := by simpa using h
      show loadFrom ch Tagged.payload word slashes .inside
        (segments (.char (mark '"') :: piecesIn ch .plain s)) < _
      have hlt := loadFrom_quote_lt ch Tagged.payload word .inside (by decide) ch_quote hslashes
        (.inr hne) (piecesIn ch .plain s)
      have hpieces := countP_piecesIn_le ch Tagged.payload .plain s
      have hmark : [mark '"'].countP Tagged.payload = 0 := rfl
      simp only [List.length_nil]
      omega
  | cons c v ih =>
      have htail : (valued v ++ mark '"' :: s).countP Tagged.payload =
          v.length + s.countP Tagged.payload := by
        rw [List.countP_append, countP_valued v]
        simp [mark]
      show loadFrom ch Tagged.payload word slashes .inside
        (segments (piecesIn ch .quoted (⟨c, true⟩ :: (valued v ++ mark '"' :: s)))) < _
      rw [List.length_cons]
      rcases piecesIn_quoted_cases c (valued v ++ mark '"' :: s) with hlost | ⟨hcr, hlf, hread⟩
      · have hle := loadFrom_le ch Tagged.payload word slashes .inside
          (piecesIn ch .quoted (⟨c, true⟩ :: (valued v ++ mark '"' :: s)))
        omega
      rw [hread]
      by_cases hquote : c = '"'
      · rw [if_pos hquote]
        have hlt := loadFrom_quote_lt ch Tagged.payload word .inside (by decide)
          (show ch ⟨c, true⟩ = '"' from hquote) hslashes (.inl rfl)
          (piecesIn ch .plain (valued v ++ mark '"' :: s))
        have hpieces := countP_piecesIn_le ch Tagged.payload .plain (valued v ++ mark '"' :: s)
        have hone : [(⟨c, true⟩ : Tagged)].countP Tagged.payload = 1 := rfl
        omega
      rw [if_neg hquote]
      refine loadFrom_value_lt hquote Quote.now_inside (.inl rfl) word slashes hslashes
        fun word slashes hslashes hne => ih word slashes hslashes ?_
      -- a backslash at the end of the value stands before the closing quote
      rcases h with ⟨e, he, hb⟩ | hlast | ⟨hnil, -⟩
      · rcases List.mem_cons.mp he with rfl | he
        · simp [badQuoted, hquote, hcr, hlf] at hb
        · exact .inl ⟨e, he, hb⟩
      · rcases v with _ | ⟨d, v⟩
        · exact .inr (.inr ⟨rfl, hne (by simpa using hlast)⟩)
        · exact .inr (.inl (by simpa [List.getLast?_cons] using hlast))
      · cases hnil

/-- The same without quotes. -/
theorem loadFrom_outside_lt (word : Option (List Tagged)) (slashes : List Tagged)
    (hslashes : ∀ b ∈ slashes, b.payload = true) (h : ∃ c ∈ v, badBare c = true)
    (s : List Tagged) :
    loadFrom ch Tagged.payload word slashes .outside
        (segments (piecesIn ch .plain (valued v ++ s))) <
      (word.getD []).countP Tagged.payload + slashes.countP Tagged.payload + v.length +
        s.countP Tagged.payload := by
  induction v generalizing word slashes with
  | nil => simp at h
  | cons c v ih =>
      have htail : (valued v ++ s).countP Tagged.payload = v.length + s.countP Tagged.payload := by
        rw [List.countP_append, countP_valued v]
      show loadFrom ch Tagged.payload word slashes .outside
        (segments (piecesIn ch .plain (⟨c, true⟩ :: (valued v ++ s)))) < _
      rw [List.length_cons]
      rcases piecesIn_plain_cases c (valued v ++ s) with hlost | ⟨hspecial, hread⟩
      · have hle := loadFrom_le ch Tagged.payload word slashes .outside
          (piecesIn ch .plain (⟨c, true⟩ :: (valued v ++ s)))
        omega
      rw [hread]
      by_cases hquote : c = '"'
      · rw [if_pos hquote]
        have hlt := loadFrom_quote_lt ch Tagged.payload word .outside (by decide)
          (show ch ⟨c, true⟩ = '"' from hquote) hslashes (.inl rfl)
          (piecesIn ch .quoted (valued v ++ s))
        have hpieces := countP_piecesIn_le ch Tagged.payload .quoted (valued v ++ s)
        have hone : [(⟨c, true⟩ : Tagged)].countP Tagged.payload = 1 := rfl
        omega
      rw [if_neg hquote]
      by_cases hblank : blank c = true
      · -- the word ends here, so that the blank is in none
        have hsplit : loadFrom ch Tagged.payload word slashes .outside
            (segments (.char ⟨c, true⟩ :: piecesIn ch .plain (valued v ++ s))) =
              (word.getD []).countP Tagged.payload + slashes.countP Tagged.payload +
                loadFrom ch Tagged.payload none [] .outside
                  (segments (piecesIn ch .plain (valued v ++ s))) := by
          have hfinish := countP_finish Tagged.payload word slashes
          simp only [loadFrom, segments]
          rw [words_blank (show blank (ch ⟨c, true⟩) = true from hblank) (by decide),
            List.flatten_append, List.countP_append]
          omega
        have hnone := loadFrom_pieces_le ch Tagged.payload none [] .outside .plain
          (valued v ++ s)
        simp only [Option.getD_none, List.countP_nil] at hnone
        omega
      rw [Bool.not_eq_true] at hblank
      refine loadFrom_value_lt hquote Quote.now_outside (.inr hblank) word slashes hslashes
        fun word slashes hslashes _ => ih word slashes hslashes ?_
      obtain ⟨e, he, hb⟩ := h
      rcases List.mem_cons.mp he with rfl | he
      · simp [badBare, hspecial, hquote, hblank] at hb
      · exact ⟨e, he, hb⟩

/-! ## §2 Which arguments are read as they were meant -/

theorem countP_written (args : List Arg) :
    (written args).countP Tagged.payload = (args.map fun a => a.text.length).sum := by
  induction args with
  | nil => rfl
  | cons arg args ih =>
      have harg : arg.written.countP Tagged.payload = arg.text.length := by
        rcases arg with v | v
        · exact countP_valued v
        · simp [Arg.written, Arg.text, mark, countP_valued]
      show (mark ' ' :: (arg.written ++ written args)).countP Tagged.payload = _
      rw [List.countP_cons, List.countP_append, ih, harg]
      simp [mark]

/-- The blank before an argument, or the end. -/
theorem written_cases (args : List Arg) :
    (segments (piecesIn ch .plain (written args))).1 = [] ∨
      ∃ Y, (segments (piecesIn ch .plain (written args))).1 = mark ' ' :: Y := by
  rcases args with _ | ⟨arg, args⟩
  · exact .inl rfl
  · exact .inr ⟨_, rfl⟩

/-- A clean argument and what is behind it are read one after the other. -/
theorem cut_written_cons {arg : Arg} (h : arg.Clean ∨ arg = .bare []) (args : List Arg) :
    segments (piecesIn ch .plain (written (arg :: args))) =
      (mark ' ' :: (arg.written ++ (segments (piecesIn ch .plain (written args))).1),
        (segments (piecesIn ch .plain (written args))).2) := by
  show segments (piecesIn ch .plain (mark ' ' :: (arg.written ++ written args))) = _
  rw [piecesIn_mark_blank, piecesIn_written h]
  exact segments_chars (mark ' ' :: arg.written) _

theorem words_written_cons {arg : Arg} (h : arg.Clean ∨ arg = .bare []) (args : List Arg) :
    words ch none [] .outside (segments (piecesIn ch .plain (written (arg :: args)))).1 =
      (if arg = .bare [] then [] else [valued arg.text]) ++
        words ch none [] .outside (segments (piecesIn ch .plain (written args))).1 := by
  rw [cut_written_cons h, words_blank (show blank (ch (mark ' ')) = true by decide) (by decide),
    words_written h (written_cases args)]
  rfl

/-- An argument that is not clean costs a character, whatever stands behind it. -/
theorem load_written_lt {arg : Arg} (h : ¬arg.Clean) (hempty : arg ≠ .bare []) (s : List Tagged) :
    load ch Tagged.payload (segments (piecesIn ch .plain (mark ' ' :: (arg.written ++ s)))) <
      arg.text.length + s.countP Tagged.payload := by
  have hblank : load ch Tagged.payload
      (segments (piecesIn ch .plain (mark ' ' :: (arg.written ++ s)))) =
        load ch Tagged.payload (segments (piecesIn ch .plain (arg.written ++ s))) := by
    rw [piecesIn_mark_blank]
    exact loadFrom_char ch words_mark_blank _ _
  rw [hblank]
  rcases arg with v | v
  · have hbad : ∃ c ∈ v, badBare c = true := by
      by_contra hnone
      refine h ⟨fun hv => hempty (by rw [hv]), fun c hc => ?_⟩
      by_contra hc'
      exact hnone ⟨c, hc, by simpa using hc'⟩
    have hlt := loadFrom_outside_lt none [] (by simp) hbad s
    simpa [load, Arg.written, Arg.text] using hlt
  · have hbad : (∃ c ∈ v, badQuoted c = true) ∨ v.getLast? = some '\\' := by
      by_contra hnone
      refine h ⟨fun hl => hnone (.inr hl), fun c hc => ?_⟩
      by_contra hc'
      exact hnone (.inl ⟨c, hc, by simpa using hc'⟩)
    have hopen : load ch Tagged.payload
        (segments (piecesIn ch .plain (Arg.written (.quoted v) ++ s))) =
          loadFrom ch Tagged.payload (some []) [] .inside
            (segments (piecesIn ch .quoted (valued v ++ mark '"' :: s))) := by
      show load ch Tagged.payload
        (segments (piecesIn ch .plain (mark '"' :: (valued v ++ [mark '"'] ++ s)))) = _
      rw [(piecesIn_mark_quote _).1, List.append_assoc, List.singleton_append]
      exact loadFrom_char ch (fun X => words_quote ch_quote (by decide)) _ _
    rw [hopen]
    have hlt := loadFrom_inside_lt (v := v) (some []) [] (by simp)
      (by rcases hbad with hb | hb
          · exact .inl hb
          · exact .inr (.inl hb)) s
    simpa [Arg.text] using hlt

/-- What is read of arguments of which none costs a character. -/
theorem cut_written_of_clean {args : List Arg} (h : ∀ a ∈ args, a.Clean ∨ a = .bare []) :
    (segments (piecesIn ch .plain (written args))).2 = [] ∧
      words ch none [] .outside (segments (piecesIn ch .plain (written args))).1 =
        (args.filter fun a => a ≠ .bare []).map fun a => valued a.text := by
  induction args with
  | nil => exact ⟨rfl, rfl⟩
  | cons arg args ih =>
      have harg := h arg List.mem_cons_self
      obtain ⟨hmore, hwords⟩ := ih fun a ha => h a (List.mem_cons_of_mem _ ha)
      refine ⟨by rw [cut_written_cons harg, hmore], ?_⟩
      rw [words_written_cons harg, hwords, List.filter_cons]
      by_cases hempty : arg = .bare [] <;> simp [hempty]

theorem load_written_lt_of_bad {args : List Arg}
    (h : ∃ a ∈ args, ¬a.Clean ∧ a ≠ .bare []) :
    load ch Tagged.payload (segments (piecesIn ch .plain (written args))) <
      (args.map fun a => a.text.length).sum := by
  induction args with
  | nil => simp at h
  | cons arg args ih =>
      rw [List.map_cons, List.sum_cons, ← countP_written args]
      by_cases harg : arg.Clean ∨ arg = .bare []
      · -- what is read before the first bad argument is exact
        have hrest : ∃ a ∈ args, ¬a.Clean ∧ a ≠ .bare [] := by
          obtain ⟨a, ha, hbad⟩ := h
          rcases List.mem_cons.mp ha with rfl | ha
          · exact absurd harg (not_or.mpr hbad)
          · exact ⟨a, ha, hbad⟩
        have hlt := ih hrest
        rw [← countP_written args] at hlt
        have hfirst : ((if arg = .bare [] then [] else [valued arg.text]) :
            List (List Tagged)).flatten.countP Tagged.payload ≤ arg.text.length := by
          split_ifs
          · simp
          · simp [countP_valued]
        have hwords := words_written_cons harg args
        have hcut := cut_written_cons harg args
        unfold load loadFrom at hlt ⊢
        rw [hwords, hcut, List.flatten_append, List.countP_append]
        dsimp only
        omega
      · obtain ⟨hbad, hempty⟩ := not_or.mp harg
        exact load_written_lt hbad hempty (written args)

/-- A line: a command without quotes, and behind `&&` one with arguments. -/
def lineOf (lead : List Char) (args : List Arg) : List Tagged :=
  lead.map mark ++ mark '&' :: mark '&' :: written args

/-- The values of variables are no values of arguments. -/
def environment (vars : List Char → Option (List Char)) (name : List Char) :
    Option (List Tagged) :=
  (vars name).map fun value => value.map mark

theorem sum_load_commandsOf (cut : List Tagged × List (List Char × List Tagged)) :
    ((commandsOf ch cut.1 cut.2).map fun c => c.args.flatten.countP Tagged.payload).sum =
      load ch Tagged.payload cut := by
  simp [commandsOf, load, loadFrom, Function.comp_def]

theorem countP_mark (s : List Char) : (s.map mark).countP Tagged.payload = 0 := by
  rw [List.countP_eq_zero]
  intro a ha
  obtain ⟨c, -, rfl⟩ := List.mem_map.mp ha
  simp [mark]

theorem countP_lineOf (lead : List Char) (args : List Arg) :
    (lineOf lead args).countP Tagged.payload = (args.map fun a => a.text.length).sum := by
  rw [lineOf, List.countP_append, countP_mark, ← countP_written]
  simp [mark]

theorem names_environment (vars : List Char → Option (List Char)) (s : List Char) :
    Names (environment vars) s ↔ Names vars s := by
  simp [Names, environment]

variable {vars : List Char → Option (List Char)} {lead : List Char} {args : List Arg}

/-- Every percent sign of a line is in a value. -/
theorem payload_of_percent (hlead : '%' ∉ lead) :
    ∀ a ∈ lineOf lead args, ch a = '%' → a.payload = true := by
  intro a ha hcode
  have hmarks : ∀ c : Char, a = mark c → c = '%' := fun c h => by
    rw [h] at hcode
    exact hcode
  rcases List.mem_append.mp ha with ha | ha
  · obtain ⟨c, hc, rfl⟩ := List.mem_map.mp ha
    exact absurd (hmarks c rfl ▸ hc) hlead
  · rcases List.mem_cons.mp ha with rfl | ha
    · exact absurd (hmarks _ rfl) (by decide)
    rcases List.mem_cons.mp ha with rfl | ha
    · exact absurd (hmarks _ rfl) (by decide)
    obtain ⟨arg, -, ha⟩ := List.mem_flatMap.mp ha
    rcases List.mem_cons.mp ha with rfl | ha
    · exact absurd (hmarks _ rfl) (by decide)
    rcases arg with v | v
    · obtain ⟨c, -, rfl⟩ := List.mem_map.mp ha
      rfl
    · rcases List.mem_cons.mp ha with rfl | ha
      · exact absurd (hmarks _ rfl) (by decide)
      rcases List.mem_append.mp ha with ha | ha
      · obtain ⟨c, -, rfl⟩ := List.mem_map.mp ha
        rfl
      · rw [List.mem_singleton] at ha
        exact absurd (hmarks _ ha) (by decide)

/-- The two commands of a line are read by themselves. -/
theorem cut_lineOf (hlead : ∀ c ∈ lead, special c = false) (hne : args ≠ []) :
    segments (piecesIn ch .plain (lineOf lead args)) =
      (lead.map mark, (['&', '&'], (segments (piecesIn ch .plain (written args))).1) ::
        (segments (piecesIn ch .plain (written args))).2) := by
  have hmarks : ∀ a ∈ lead.map mark, special a.char = false := by
    intro a ha
    obtain ⟨c, hc, rfl⟩ := List.mem_map.mp ha
    exact hlead c hc
  obtain ⟨arg, rest, rfl⟩ := List.exists_cons_of_ne_nil hne
  rw [lineOf, piecesIn_plain_run hmarks, segments_chars]
  have hblank : piecesIn ch .plain (written (arg :: rest)) =
      .char (mark ' ') :: piecesIn ch .plain (arg.written ++ written rest) := rfl
  have hops : piecesIn ch .plain (mark '&' :: mark '&' :: written (arg :: rest)) =
      .op '&' :: .op '&' :: piecesIn ch .plain (written (arg :: rest)) := rfl
  rw [hops, hblank]
  simp [segments]

theorem countP_meant (args : List Arg) :
    ((args.map fun a => valued a.text).flatten).countP Tagged.payload =
      (args.map fun a => a.text.length).sum := by
  rw [List.countP_flatten, List.map_map]
  congr 1
  exact List.map_congr_left fun a _ => countP_valued a.text

/-- With the name of a variable in it, the percent signs are missing. -/
theorem not_meant_of_names (hpercent : '%' ∉ lead)
    (hnames : Names vars ((lineOf lead args).map ch)) (first : Command Tagged) :
    parse ch (environment vars) (lineOf lead args) ≠
      [first, ⟨['&', '&'], args.map fun a => valued a.text⟩] := by
  have hvalues : ∀ name value, environment vars name = some value →
      value.countP Tagged.payload = 0 := by
    intro name value h
    obtain ⟨s, -, rfl⟩ := Option.map_eq_some_iff.mp h
    exact countP_mark s
  have hlt := countP_expandFrom_lt ch Tagged.payload hvalues (payload_of_percent hpercent)
    ((names_environment vars _).mpr hnames)
  rw [countP_lineOf] at hlt
  have hload := sum_load_commandsOf
    (segments (piecesIn ch .plain (expand ch (environment vars) (lineOf lead args))))
  have hle := loadFrom_pieces_le ch Tagged.payload none [] .outside .plain
    (expand ch (environment vars) (lineOf lead args))
  intro h
  have hsum := congrArg (fun cs : List (Command Tagged) =>
    (cs.map fun c => c.args.flatten.countP Tagged.payload).sum) h
  simp only [List.map_cons, List.map_nil, List.sum_cons, List.sum_nil, countP_meant] at hsum
  simp only [Option.getD_none, List.countP_nil, expand] at hle
  rw [parse, hload, load, expand] at hsum
  omega

/-- Without one, the line is cut as it is written. -/
theorem parse_of_not_names (hlead : ∀ c ∈ lead, special c = false) (hne : args ≠ [])
    (hnames : ¬Names vars ((lineOf lead args).map ch)) :
    parse ch (environment vars) (lineOf lead args) =
      ⟨[], words ch none [] .outside (lead.map mark)⟩ ::
        ⟨['&', '&'], words ch none [] .outside
          (segments (piecesIn ch .plain (written args))).1⟩ ::
        (segments (piecesIn ch .plain (written args))).2.map fun m =>
          ⟨m.1, words ch none [] .outside m.2⟩ := by
  have hexpand : expand ch (environment vars) (lineOf lead args) = lineOf lead args :=
    expandFrom_of_not_names ch fun h => hnames ((names_environment vars _).mp h)
  simp only [parse, hexpand, cut_lineOf hlead hne, commandsOf, List.map_cons]

variable (vars) in
/-- **A line is read as it was meant** exactly when nothing in it names a variable and every argument
is clean. -/
theorem parse_lineOf_iff (hlead : ∀ c ∈ lead, special c = false) (hpercent : '%' ∉ lead)
    (hne : args ≠ []) :
    parse ch (environment vars) (lineOf lead args) =
        [⟨[], words ch none [] .outside (lead.map mark)⟩,
          ⟨['&', '&'], args.map fun a => valued a.text⟩] ↔
      ¬Names vars ((lineOf lead args).map ch) ∧ ∀ a ∈ args, a.Clean := by
  by_cases hnames : Names vars ((lineOf lead args).map ch)
  · exact iff_of_false (not_meant_of_names hpercent hnames _) fun h => h.1 hnames
  rw [parse_of_not_names hlead hne hnames]
  constructor
  · intro h
    simp only [List.cons.injEq, Command.mk.injEq, true_and, List.map_eq_nil_iff] at h
    obtain ⟨hwords, hmore⟩ := h
    have hload : load ch Tagged.payload (segments (piecesIn ch .plain (written args))) =
        (args.map fun a => a.text.length).sum := by
      rw [load, loadFrom, hwords, hmore, countP_meant]
      rfl
    have hgood : ∀ a ∈ args, a.Clean ∨ a = .bare [] := by
      intro a ha
      by_contra hbad
      exact absurd (load_written_lt_of_bad ⟨a, ha, not_or.mp hbad⟩) (by rw [hload]; omega)
    -- no argument is missing, so none was empty
    have hfilter := (cut_written_of_clean hgood).2
    rw [hwords] at hfilter
    have hlen := congrArg List.length hfilter
    rw [List.length_map, List.length_map] at hlen
    have hall := List.filter_eq_self.mp
      ((List.filter_sublist : List.Sublist _ args).eq_of_length hlen.symm)
    exact ⟨hnames, fun a ha => (hgood a ha).resolve_right (by simpa using hall a ha)⟩
  · rintro ⟨-, hclean⟩
    have hne' : ∀ a ∈ args, a ≠ .bare [] := by
      rintro a ha rfl
      exact (hclean _ ha).1 rfl
    obtain ⟨hmore, hwords⟩ := cut_written_of_clean fun a ha => .inl (hclean a ha)
    rw [hmore, hwords, List.filter_eq_self.mpr (by simpa using hne')]
    rfl

end Written

end NetPulse.Lib.CommandLine
