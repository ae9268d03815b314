import Mathlib.Algebra.GroupWithZero.Nat
import Mathlib.Algebra.Order.BigOperators.Group.List
import Mathlib.Algebra.Order.Group.Nat
import Mathlib.Data.List.Basic
import Mathlib.Data.List.Count
import Mathlib.Data.List.TakeWhile

/-
# NetPulse.Lib.CommandLine — how a command line of Windows is taken apart

A text that is given to `cmd.exe` is read in three phases. `%name%` is replaced by the value of a
variable, inside quotes too. Then the line is cut at its operators: `"` begins and ends a part in
which nothing else is special and stays where it is, `^` takes the meaning from the next character,
a carriage return is dropped and a line feed ends the line. Last, every program splits its part into
arguments: blanks separate them, unless they are between quotes; backslashes before a quote count by
two, an odd one makes the quote a character; and of two quotes inside quotes the second is one.

Characters are of any type `α` with a `code`, so that they can carry where they come from. Nothing
that is read makes a character: §5 counts those that satisfy a `p`, through all three phases.
-/

namespace NetPulse.Lib.CommandLine

variable {α β : Type*} (code : α → Char)

/-! ## §1 Variables -/

/-- What stands for the variable that a text begins with, and how far its name reaches. -/
def variableAt (vars : List Char → Option (List α)) : List α → Option (List α × Nat)
  | [] => none
  | a :: rest =>
      let name := rest.takeWhile fun b => code b != '%'
      if code a = '%' ∧ name.length < rest.length then
        (vars (name.map code)).map fun value => (value, name.length + 1)
      else none

/-- Behind the next `skip` characters, which belong to the name before them. -/
def expandFrom (vars : List Char → Option (List α)) : Nat → List α → List α
  | _, [] => []
  | skip + 1, _ :: rest => expandFrom vars skip rest
  | 0, a :: rest =>
      match variableAt code vars (a :: rest) with
      | some (value, n) => value ++ expandFrom vars n rest
      | none => a :: expandFrom vars 0 rest

def expand (vars : List Char → Option (List α)) (s : List α) : List α := expandFrom code vars 0 s

/-! ## §2 Operators -/

/-- Where the reading of operators is: outside quotes, inside, or behind `^`. -/
inductive Mode where
  | plain
  | quoted
  | escaped

inductive Piece (α : Type*) where
  | char (a : α)
  | op (c : Char)

def isOp (c : Char) : Bool := c == '&' || c == '|' || c == '<' || c == '>'

def piecesIn : Mode → List α → List (Piece α)
  | _, [] => []
  | mode, a :: rest =>
      if code a = '\r' then piecesIn mode rest
      else
        match mode with
        | .quoted =>
            if code a = '\n' then []
            else .char a :: piecesIn (if code a = '"' then .plain else .quoted) rest
        | .plain =>
            if code a = '\n' then []
            else if code a = '^' then piecesIn .escaped rest
            else if isOp (code a) then .op (code a) :: piecesIn .plain rest
            else .char a :: piecesIn (if code a = '"' then .quoted else .plain) rest
        | .escaped =>
            -- the line goes on behind a line feed
            if code a = '\n' then piecesIn .escaped rest else .char a :: piecesIn .plain rest

/-- The text before the first operator, and every run of operators with the text behind it. -/
def segments : List (Piece α) → List α × List (List Char × List α)
  | [] => ([], [])
  | .char a :: ps => (a :: (segments ps).1, (segments ps).2)
  | .op c :: ps =>
      match segments ps with
      | ([], (run, text) :: more) => ([], (c :: run, text) :: more)
      | (text, more) => ([], ([c], text) :: more)

/-! ## §3 Arguments -/

/-- Outside quotes, inside, or just behind a quote that may end them. -/
inductive Quote where
  | outside
  | inside
  | closing
  deriving DecidableEq

/-- Behind a closing quote one is outside, unless the next character is a quote. -/
def Quote.now : Quote → Quote
  | .inside => .inside
  | _ => .outside

@[simp] theorem Quote.now_inside : Quote.inside.now = .inside := rfl

@[simp] theorem Quote.now_outside : Quote.outside.now = .outside := rfl

/-- What an even number of backslashes and a quote do: they begin or end a part. -/
def Quote.toggle : Quote → Quote
  | .outside => .inside
  | _ => .closing

def blank (c : Char) : Bool := c == ' ' || c == '\t'

/-- The argument that ends here, if one has begun. -/
def finish (word : Option (List α)) (slashes : List α) : Option (List α) :=
  if word.isNone ∧ slashes = [] then none else some (word.getD [] ++ slashes)

/-- With the argument so far and the backslashes behind it. -/
def words : Option (List α) → List α → Quote → List α → List (List α)
  | word, slashes, _, [] => (finish word slashes).toList
  | word, slashes, quote, a :: rest =>
      if quote = .closing ∧ code a = '"' then words (some (word.getD [] ++ [a])) [] .inside rest
      else if code a = '\\' then words word (slashes ++ [a]) quote.now rest
      else if code a = '"' then
        let kept := slashes.take (slashes.length / 2)
        if slashes.length % 2 = 1 then
          words (some (word.getD [] ++ kept ++ [a])) [] quote.now rest
        else words (some (word.getD [] ++ kept)) [] quote.now.toggle rest
      else if quote.now = .outside ∧ blank (code a) = true then
        (finish word slashes).toList ++ words none [] .outside rest
      else words (some (word.getD [] ++ slashes ++ [a])) [] quote.now rest

section Words

variable {code} {word : Option (List α)} {slashes rest : List α} {quote : Quote} {a : α}

theorem words_slash (h : code a = '\\') :
    words code word slashes quote (a :: rest) =
      words code word (slashes ++ [a]) quote.now rest := by
  rw [words, if_neg (by simp [h]), if_pos h]

theorem words_quote (h : code a = '"') (hquote : quote ≠ .closing) :
    words code word [] quote (a :: rest) =
      words code (some (word.getD [])) [] quote.now.toggle rest := by
  rw [words, if_neg (fun h => hquote h.1), if_neg (by rw [h]; decide), if_pos h]
  simp

theorem words_blank (h : blank (code a) = true) (hquote : quote ≠ .inside) :
    words code word slashes quote (a :: rest) =
      (finish word slashes).toList ++ words code none [] .outside rest := by
  have hslash : code a ≠ '\\' := fun h' => by simp [h', blank] at h
  have hmark : code a ≠ '"' := fun h' => by simp [h', blank] at h
  have hnow : quote.now = .outside := by rcases quote with _ | _ | _ <;> simp [Quote.now] at hquote ⊢
  rw [words, if_neg (fun h => hmark h.2), if_neg hslash, if_neg hmark, if_pos ⟨hnow, h⟩]

theorem words_char (hslash : code a ≠ '\\') (hmark : code a ≠ '"')
    (h : quote = .inside ∨ blank (code a) = false) :
    words code word slashes quote (a :: rest) =
      words code (some (word.getD [] ++ slashes ++ [a])) [] quote.now rest := by
  rw [words, if_neg (fun h => hmark h.2), if_neg hslash, if_neg hmark, if_neg]
  rintro ⟨hnow, hblank⟩
  rcases h with rfl | h
  · simp [Quote.now] at hnow
  · simp [h] at hblank

end Words

/-! ## §4 The whole line -/

/-- A command of a line: the operators before it and its arguments, the program being the first. -/
structure Command (α : Type*) where
  ops : List Char
  args : List (List α)
  deriving DecidableEq

def commandsOf (text : List α) (more : List (List Char × List α)) : List (Command α) :=
  ⟨[], words code none [] .outside text⟩ ::
    more.map fun m => ⟨m.1, words code none [] .outside m.2⟩

def parse (vars : List Char → Option (List α)) (s : List α) : List (Command α) :=
  let cut := segments (piecesIn code .plain (expand code vars s))
  commandsOf code cut.1 cut.2

example : parse id (fun _ => none) "a \"b c\"\" d\" && x^&\\\"y".toList =
    [⟨[], ["a".toList, "b c\" d".toList]⟩, ⟨"&&".toList, ["x&\"y".toList]⟩] := by
  decide

/-! ## §5 Nothing is made

Of the characters that satisfy `p` the arguments have at most as many as the line, and less where
one of them was taken for a mark.
-/

section Load

variable (p : α → Bool)

/-- The characters that are no operators. -/
def kept : List (Piece α) → List α
  | [] => []
  | .char a :: ps => a :: kept ps
  | .op _ :: ps => kept ps

/-- The operators and the characters that are dropped do not count. -/
def textLoad (cut : List α × List (List Char × List α)) : Nat :=
  cut.1.countP p + (cut.2.map fun m => m.2.countP p).sum

/-- How many characters the arguments have, where the first command is in the middle of one. -/
def loadFrom (word : Option (List α)) (slashes : List α) (quote : Quote)
    (cut : List α × List (List Char × List α)) : Nat :=
  (words code word slashes quote cut.1).flatten.countP p +
    (cut.2.map fun m => (words code none [] .outside m.2).flatten.countP p).sum

def load (cut : List α × List (List Char × List α)) : Nat := loadFrom code p none [] .outside cut

variable {word : Option (List α)} {slashes rest s : List α} {quote : Quote} {a : α}

omit code in
theorem countP_finish (word : Option (List α)) (slashes : List α) :
    ((finish word slashes).toList.flatten).countP p =
      (word.getD []).countP p + slashes.countP p := by
  unfold finish
  split_ifs with h
  · obtain ⟨hword, rfl⟩ := h
    obtain rfl : word = none := by simpa using hword
    simp
  · simp

theorem countP_words_le (word : Option (List α)) (slashes : List α) (quote : Quote) (s : List α) :
    (words code word slashes quote s).flatten.countP p ≤
      (word.getD []).countP p + slashes.countP p + s.countP p := by
  induction s generalizing word slashes quote with
  | nil =>
      rw [words, countP_finish]
      simp
  | cons a rest ih =>
      have htake : (slashes.take (slashes.length / 2)).countP p ≤ slashes.countP p :=
        (List.take_sublist _ _).countP_le
      have hone : ([a] : List α).countP p + rest.countP p = (a :: rest).countP p := by
        rw [← List.countP_append, List.singleton_append]
      have hblank := countP_finish p word slashes
      rw [words]
      split_ifs
      · refine (ih _ _ _).trans ?_
        simp only [Option.getD_some, List.countP_append, List.countP_nil]
        omega
      · refine (ih _ _ _).trans ?_
        simp only [List.countP_append]
        omega
      · refine (ih _ _ _).trans ?_
        simp only [Option.getD_some, List.countP_append, List.countP_nil]
        omega
      · refine (ih _ _ _).trans ?_
        simp only [Option.getD_some, List.countP_append, List.countP_nil]
        omega
      · have hrest := ih none [] .outside
        simp only [Option.getD_none, List.countP_nil] at hrest
        rw [List.flatten_append, List.countP_append]
        omega
      · refine (ih _ _ _).trans ?_
        simp only [Option.getD_some, List.countP_append, List.countP_nil]
        omega

/-- **A quote costs a character**: itself, or a backslash before it. -/
theorem countP_words_quote_lt (word : Option (List α)) (quote : Quote) (rest : List α)
    (hquote : quote ≠ .closing) (ha : code a = '"')
    (hslashes : ∀ b ∈ slashes, p b = true) (hcost : p a = true ∨ slashes ≠ []) :
    (words code word slashes quote (a :: rest)).flatten.countP p <
      (word.getD []).countP p + slashes.countP p + (a :: rest).countP p := by
  have hall : slashes.countP p = slashes.length := List.countP_eq_length.mpr hslashes
  have htake : (slashes.take (slashes.length / 2)).countP p = slashes.length / 2 := by
    rw [List.countP_eq_length.mpr fun b hb => hslashes b (List.mem_of_mem_take hb),
      List.length_take]
    omega
  have hone : ([a] : List α).countP p + rest.countP p = (a :: rest).countP p := by
    rw [← List.countP_append, List.singleton_append]
  have hpos : slashes ≠ [] → 0 < slashes.length := List.length_pos_iff.mpr
  have hp : p a = true → ([a] : List α).countP p = 1 := fun h => by simp [h]
  rw [words, if_neg (fun h => hquote h.1), if_neg (by rw [ha]; decide), if_pos ha]
  dsimp only
  split_ifs with hodd
  · refine (countP_words_le _ _ _ _ _ _).trans_lt ?_
    simp only [Option.getD_some, List.countP_append, List.countP_nil]
    omega
  · refine (countP_words_le _ _ _ _ _ _).trans_lt ?_
    simp only [Option.getD_some, List.countP_append, List.countP_nil]
    rcases hcost with hcost | hcost
    · have := hp hcost
      omega
    · have := hpos hcost
      omega

omit code in
theorem segments_op (c : Char) (ps : List (Piece α)) :
    ((segments (.op c :: ps)).1 = [] ∧
      textLoad p (segments (.op c :: ps)) = textLoad p (segments ps)) := by
  rw [segments]
  rcases h : segments ps with ⟨_ | ⟨b, text⟩, _ | ⟨m, more⟩⟩ <;> simp [textLoad]

omit code in
theorem textLoad_segments (ps : List (Piece α)) :
    textLoad p (segments ps) = (kept ps).countP p := by
  induction ps with
  | nil => rfl
  | cons piece ps ih =>
      rcases piece with a | c
      · rw [segments, kept, List.countP_cons, ← ih]
        simp only [textLoad, List.countP_cons]
        omega
      · rw [(segments_op p c ps).2, ih]
        rfl

omit p in
/-- A character stays, is an operator, is dropped, or ends the line. -/
theorem piecesIn_cases (mode : Mode) (a : α) (rest : List α) :
    piecesIn code mode (a :: rest) = [] ∨
      ∃ next, piecesIn code mode (a :: rest) = piecesIn code next rest ∨
        piecesIn code mode (a :: rest) = .op (code a) :: piecesIn code next rest ∨
        piecesIn code mode (a :: rest) = .char a :: piecesIn code next rest := by
  rcases mode with _ | _ | _ <;> rw [piecesIn] <;> split_ifs <;>
    first
    | exact .inl rfl
    | exact .inr ⟨_, .inl rfl⟩
    | exact .inr ⟨_, .inr (.inl rfl)⟩
    | exact .inr ⟨_, .inr (.inr rfl)⟩

theorem countP_piecesIn_le (mode : Mode) (s : List α) :
    (kept (piecesIn code mode s)).countP p ≤ s.countP p := by
  induction s generalizing mode with
  | nil => simp [piecesIn, kept]
  | cons a rest ih =>
      rw [List.countP_cons]
      rcases piecesIn_cases code mode a rest with h | ⟨next, h | h | h⟩
      · rw [h]
        exact Nat.zero_le _
      · rw [h]
        exact (ih next).trans (Nat.le_add_right _ _)
      · rw [h]
        exact (ih next).trans (Nat.le_add_right _ _)
      · rw [h, kept, List.countP_cons]
        exact Nat.add_le_add_right (ih next) _

theorem moreLoad_le (ps : List (Piece α)) :
    ((segments ps).2.map fun m => (words code none [] .outside m.2).flatten.countP p).sum +
      (segments ps).1.countP p ≤ (kept ps).countP p := by
  have hmore : ((segments ps).2.map fun m =>
      (words code none [] .outside m.2).flatten.countP p).sum ≤
        ((segments ps).2.map fun m => m.2.countP p).sum := by
    refine List.sum_le_sum fun m _ => ?_
    simpa using countP_words_le code p none [] .outside m.2
  have htext := textLoad_segments p ps
  unfold textLoad at htext
  omega

theorem loadFrom_le (word : Option (List α)) (slashes : List α) (quote : Quote)
    (ps : List (Piece α)) :
    loadFrom code p word slashes quote (segments ps) ≤
      (word.getD []).countP p + slashes.countP p + (kept ps).countP p := by
  have hfirst := countP_words_le code p word slashes quote (segments ps).1
  have hmore := moreLoad_le code p ps
  unfold loadFrom
  omega

theorem loadFrom_quote_lt (word : Option (List α)) (quote : Quote) (hquote : quote ≠ .closing)
    (ha : code a = '"') (hslashes : ∀ b ∈ slashes, p b = true) (hcost : p a = true ∨ slashes ≠ [])
    (ps : List (Piece α)) :
    loadFrom code p word slashes quote (segments (.char a :: ps)) <
      (word.getD []).countP p + slashes.countP p + [a].countP p + (kept ps).countP p := by
  have hfirst := countP_words_quote_lt code p word quote (segments ps).1 hquote ha hslashes
    hcost
  have hmore := moreLoad_le code p ps
  have hone : [a].countP p + (segments ps).1.countP p = (a :: (segments ps).1).countP p := by
    rw [← List.countP_append, List.singleton_append]
  rw [segments]
  unfold loadFrom
  dsimp only
  omega

omit p in
/-- A character that moves the reading of the first command on. -/
theorem loadFrom_char {word' : Option (List α)} {slashes' : List α} {quote' : Quote}
    (h : ∀ X, words code word slashes quote (a :: X) = words code word' slashes' quote' X)
    (p : α → Bool) (ps : List (Piece α)) :
    loadFrom code p word slashes quote (segments (.char a :: ps)) =
      loadFrom code p word' slashes' quote' (segments ps) := by
  rw [segments]
  simp only [loadFrom, h]

theorem loadFrom_pieces_le (word : Option (List α)) (slashes : List α) (quote : Quote) (mode : Mode)
    (s : List α) :
    loadFrom code p word slashes quote (segments (piecesIn code mode s)) ≤
      (word.getD []).countP p + slashes.countP p + s.countP p := by
  have hpieces := countP_piecesIn_le code p mode s
  exact (loadFrom_le code p word slashes quote _).trans (by omega)

/-- A text with a variable between two percent signs. -/
def Names (vars : List Char → Option β) (s : List Char) : Prop :=
  ∃ name, '%' ∉ name ∧ (vars name).isSome = true ∧ ('%' :: (name ++ ['%'])) <:+: s

omit p in
theorem variableAt_of_prefix {vars : List Char → Option (List α)} {name : List Char}
    (hname : '%' ∉ name) (hvars : (vars name).isSome = true)
    (h : ('%' :: (name ++ ['%'])) <+: (a :: rest).map code) :
    ∃ found, variableAt code vars (a :: rest) = some found := by
  obtain ⟨tail, htail⟩ := h
  simp only [List.map_cons, List.cons_append, List.cons.injEq] at htail
  obtain ⟨ha, hrest⟩ := htail
  have hpos : ∀ c ∈ name, (c != '%') = true := by
    intro c hc
    rw [bne_iff_ne]
    rintro rfl
    exact hname hc
  have htake : (rest.takeWhile fun b => code b != '%').map code = name := by
    have hcomm : (rest.takeWhile fun b => code b != '%').map code =
        (rest.map code).takeWhile (fun c => c != '%') := by
      rw [List.takeWhile_map]
      rfl
    rw [hcomm, ← hrest, List.append_assoc, List.takeWhile_append_of_pos hpos]
    simp
  have hlen : (rest.takeWhile fun b => code b != '%').length < rest.length := by
    have h₁ := congrArg List.length htake
    have h₂ := congrArg List.length hrest
    simp only [List.length_map, List.length_append, List.length_cons] at h₁ h₂
    omega
  obtain ⟨value, hvalue⟩ := Option.isSome_iff_exists.mp hvars
  rw [variableAt, if_pos ⟨ha.symm, hlen⟩, htake, hvalue]
  exact ⟨_, rfl⟩

omit p in
theorem prefix_of_variableAt {vars : List Char → Option (List α)} {found : List α × Nat}
    (h : variableAt code vars (a :: rest) = some found) :
    code a = '%' ∧ Names vars ((a :: rest).map code) ∧ ∃ name, vars name = some found.1 := by
  rw [variableAt] at h
  split_ifs at h with hcond
  obtain ⟨value, hvalue, rfl⟩ := Option.map_eq_some_iff.mp h
  set name := rest.takeWhile fun b => code b != '%' with hname
  refine ⟨hcond.1, ⟨name.map code, ?_, by simp [hvalue], ?_⟩, _, hvalue⟩
  · intro hmem
    obtain ⟨b, hb, hcode⟩ := List.mem_map.mp hmem
    have := List.mem_takeWhile_imp hb
    simp [hcode] at this
  · -- the character behind the name is the other percent sign
    have hsplit : name ++ rest.dropWhile (fun b => code b != '%') = rest :=
      List.takeWhile_append_dropWhile
    have hne : rest.dropWhile (fun b => code b != '%') ≠ [] := by
      intro hnil
      rw [hnil, List.append_nil] at hsplit
      exact absurd hcond.2 (by rw [hsplit]; omega)
    have hhead := List.head_dropWhile_not (fun b => code b != '%') hne
    obtain ⟨b, tail, hb⟩ := List.exists_cons_of_ne_nil hne
    have hcode : code b = '%' := by simpa [hb] using hhead
    refine ⟨[], tail.map code, ?_⟩
    rw [← hsplit, hb]
    simp [hcond.1, hcode]

omit p in
theorem expandFrom_of_not_names {vars : List Char → Option (List α)} {s : List α}
    (h : ¬Names vars (s.map code)) : expandFrom code vars 0 s = s := by
  induction s with
  | nil => rfl
  | cons a rest ih =>
      rcases hat : variableAt code vars (a :: rest) with _ | found
      · rw [expandFrom, hat]
        dsimp only
        rw [ih]
        rintro ⟨name, hname, hvars, hinfix⟩
        exact h ⟨name, hname, hvars, hinfix.trans (List.suffix_cons _ _).isInfix⟩
      · exact absurd (prefix_of_variableAt code hat).2.1 h

theorem countP_expandFrom_le {vars : List Char → Option (List α)}
    (hvars : ∀ name value, vars name = some value → value.countP p = 0) (skip : Nat)
    (s : List α) : (expandFrom code vars skip s).countP p ≤ s.countP p := by
  induction s generalizing skip with
  | nil => rcases skip with _ | skip <;> simp [expandFrom]
  | cons a rest ih =>
      rw [List.countP_cons]
      rcases skip with _ | skip
      · rcases hat : variableAt code vars (a :: rest) with _ | found
        · rw [expandFrom, hat]
          dsimp only
          rw [List.countP_cons]
          exact Nat.add_le_add_right (ih 0) _
        · obtain ⟨-, -, name, hvalue⟩ := prefix_of_variableAt code hat
          rw [expandFrom, hat]
          dsimp only
          rw [List.countP_append, hvars _ _ hvalue, Nat.zero_add]
          exact (ih _).trans (Nat.le_add_right _ _)
      · rw [expandFrom]
        exact (ih skip).trans (Nat.le_add_right _ _)

/-- A variable costs its percent signs. -/
theorem countP_expandFrom_lt {vars : List Char → Option (List α)}
    (hvars : ∀ name value, vars name = some value → value.countP p = 0) {s : List α}
    (hpercent : ∀ a ∈ s, code a = '%' → p a = true) (h : Names vars (s.map code)) :
    (expandFrom code vars 0 s).countP p < s.countP p := by
  induction s with
  | nil =>
      obtain ⟨name, -, -, hinfix⟩ := h
      simp at hinfix
  | cons a rest ih =>
      rw [List.countP_cons]
      rcases hat : variableAt code vars (a :: rest) with _ | found
      · -- no variable here, so it is further on
        have hrest : Names vars (rest.map code) := by
          obtain ⟨name, hname, hsome, hinfix⟩ := h
          rw [List.map_cons] at hinfix
          rcases List.infix_cons_iff.mp hinfix with hpre | hin
          · obtain ⟨found, hfound⟩ := variableAt_of_prefix code hname hsome hpre
            rw [hat] at hfound
            cases hfound
          · exact ⟨name, hname, hsome, hin⟩
        rw [expandFrom, hat]
        dsimp only
        rw [List.countP_cons]
        exact Nat.add_lt_add_right
          (ih (fun b hb => hpercent b (List.mem_cons_of_mem _ hb)) hrest) _
      · obtain ⟨ha, -, name, hvalue⟩ := prefix_of_variableAt code hat
        have hle := countP_expandFrom_le code p hvars found.2 rest
        rw [expandFrom, hat]
        dsimp only
        rw [List.countP_append, hvars _ _ hvalue, if_pos (hpercent a List.mem_cons_self ha)]
        omega

end Load

/-! ## §6 The reading looks at the codes alone -/

section Erase

variable (code : α → Char)

theorem expandFrom_map {vars : List Char → Option (List α)} (skip : Nat) (s : List α) :
    expandFrom id (fun n => (vars n).map (List.map code)) skip (s.map code) =
      (expandFrom code vars skip s).map code := by
  induction s generalizing skip with
  | nil => rcases skip with _ | skip <;> simp [expandFrom]
  | cons a rest ih =>
      rcases skip with _ | skip
      · have hat : variableAt id (fun n => (vars n).map (List.map code)) ((a :: rest).map code) =
            (variableAt code vars (a :: rest)).map fun found => (found.1.map code, found.2) := by
          have htake : (rest.map code).takeWhile (fun c => c != '%') =
              (rest.takeWhile fun b => code b != '%').map code := by
            rw [List.takeWhile_map]
            rfl
          simp only [variableAt, List.map_cons, id_eq, htake, List.length_map, List.map_id]
          split_ifs
          · simp [Function.comp_def]
          · rfl
        rw [expandFrom]
        rcases hfound : variableAt code vars (a :: rest) with _ | found
        · rw [hfound] at hat
          rw [List.map_cons] at hat ⊢
          rw [expandFrom, hat]
          simpa using ih 0
        · rw [hfound] at hat
          rw [List.map_cons] at hat ⊢
          rw [expandFrom, hat]
          simpa using ih found.2
      · simpa [expandFrom] using ih skip

def Piece.erase (code : α → Char) : Piece α → Piece Char
  | .char a => .char (code a)
  | .op c => .op c

theorem piecesIn_map (mode : Mode) (s : List α) :
    piecesIn id mode (s.map code) = (piecesIn code mode s).map (Piece.erase code) := by
  induction s generalizing mode with
  | nil => rfl
  | cons a rest ih =>
      rw [List.map_cons]
      rcases mode with _ | _ | _ <;> simp only [piecesIn, id_eq, ih] <;> split_ifs <;> rfl

theorem segments_map (ps : List (Piece α)) :
    segments (ps.map (Piece.erase code)) =
      ((segments ps).1.map code, (segments ps).2.map fun m => (m.1, m.2.map code)) := by
  induction ps with
  | nil => rfl
  | cons piece ps ih =>
      rcases piece with a | c
      · simp [Piece.erase, segments, ih]
      · simp only [List.map_cons, Piece.erase, segments, ih]
        rcases segments ps with ⟨_ | ⟨b, text⟩, _ | ⟨m, more⟩⟩ <;> simp

theorem finish_map (word : Option (List α)) (slashes : List α) :
    (finish (word.map (List.map code)) (slashes.map code)).toList =
      (finish word slashes).toList.map (List.map code) := by
  rcases word with _ | word <;> rcases slashes with _ | ⟨a, slashes⟩ <;> simp [finish]

theorem words_map (word : Option (List α)) (slashes : List α) (quote : Quote) (s : List α) :
    words id (word.map (List.map code)) (slashes.map code) quote (s.map code) =
      (words code word slashes quote s).map (List.map code) := by
  have hget : ∀ w : Option (List α), (w.map (List.map code)).getD [] = (w.getD []).map code := by
    rintro (_ | w) <;> rfl
  induction s generalizing word slashes quote with
  | nil => exact finish_map code word slashes
  | cons a rest ih =>
      have hsome := fun w => ih (some w) []
      simp only [Option.map_some, List.map_nil] at hsome
      rw [List.map_cons]
      simp only [words, id_eq, hget, List.length_map, finish_map]
      split_ifs
      · rw [← hsome]
        simp
      · rw [← ih]
        simp
      · rw [← hsome]
        simp
      · rw [← hsome]
        simp
      · have hnone := ih none [] .outside
        simp only [Option.map_none, List.map_nil] at hnone
        rw [hnone, List.map_append]
      · rw [← hsome]
        simp

def Command.erase (code : α → Char) (c : Command α) : Command Char :=
  ⟨c.ops, c.args.map (List.map code)⟩

/-- **The text alone decides** how a line is read, wherever its characters come from. -/
theorem parse_map (vars : List Char → Option (List α)) (s : List α) :
    parse id (fun n => (vars n).map (List.map code)) (s.map code) =
      (parse code vars s).map (Command.erase code) := by
  have hwords := fun t => words_map code none [] .outside t
  simp only [Option.map_none, List.map_nil] at hwords
  simp only [parse, expand, expandFrom_map, piecesIn_map, segments_map, commandsOf,
    List.map_cons, List.map_map, hwords]
  simp [Command.erase, Function.comp_def, hwords]

end Erase

end NetPulse.Lib.CommandLine
