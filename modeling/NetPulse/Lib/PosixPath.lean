import NetPulse.Lib.Text

/-
# NetPulse.Lib.PosixPath — `posixpath.join` and `posixpath.normpath`, and what lies below a directory

A path is a text. `normpath` takes its parts one by one and drops a part at each `..`, without a look
at any disk. A path from the root whose parts are names it leaves as it is (`normpath_absolute`).

`Below` is containment part by part. A path whose text begins with that of a directory need not be
below it: the last name may only go on.
-/

namespace NetPulse.Lib.PosixPath

open Text

/-! ## §1 Paths -/

def sep : CodePoint := .scalar '/'

def dot : CodePoint := .scalar '.'

/-- `join(a, b)` -/
def join (a b : Text) : Text :=
  if [sep].isPrefixOf b then b
  else if a = [] ∨ [sep].isSuffixOf a then a ++ b
  else a ++ sep :: b

/-- The slashes that are kept in front: two stay two, more become one. -/
def initialSlashes (path : Text) : Nat :=
  if [sep, sep].isPrefixOf path && !([sep, sep, sep].isPrefixOf path) then 2
  else if [sep].isPrefixOf path then 1
  else 0

/-- One part of the path, behind those that are kept. -/
def normStep (rooted : Bool) (done : List Text) (comp : Text) : List Text :=
  if comp = [] ∨ comp = [dot] then done
  else if comp ≠ [dot, dot] ∨ (rooted = false ∧ done = []) ∨ done.getLast? = some [dot, dot] then
    done ++ [comp]
  else done.dropLast

def normpath (path : Text) : Text :=
  if path = [] then [dot]
  else
    let slashes := initialSlashes path
    let comps := (path.splitOn sep).foldl (normStep (slashes ≠ 0)) []
    let path := List.replicate slashes sep ++ [sep].intercalate comps
    if path = [] then [dot] else path

/-! ## §2 Names -/

/-- What can be the name of a file in a directory. -/
structure Name (c : Text) : Prop where
  nonempty : c ≠ []
  not_dot : c ≠ [dot]
  not_dots : c ≠ [dot, dot]
  no_sep : sep ∉ c

/-- The path with these parts, from the root. -/
def absolute (parts : List Text) : Text := sep :: [sep].intercalate parts

theorem normStep_name {rooted : Bool} {done : List Text} {c : Text} (h : Name c) :
    normStep rooted done c = done ++ [c] := by
  unfold normStep
  rw [if_neg (not_or.mpr ⟨h.nonempty, h.not_dot⟩), if_pos (Or.inl h.not_dots)]

theorem foldl_normStep_names {rooted : Bool} {done parts : List Text} (h : ∀ c ∈ parts, Name c) :
    parts.foldl (normStep rooted) done = done ++ parts := by
  induction parts generalizing done with
  | nil => exact (List.append_nil done).symm
  | cons c parts ih =>
      obtain ⟨hc, hparts⟩ := List.forall_mem_cons.mp h
      rw [List.foldl_cons, normStep_name hc, ih hparts, List.append_assoc, List.singleton_append]

/-- No separator is in a part. -/
theorem not_mem_of_mem_splitOn {α : Type*} [DecidableEq α] {sep : α} {path c : List α}
    (h : c ∈ path.splitOn sep) : sep ∉ c := by
  induction hlen : path.length using Nat.strongRecOn generalizing path with
  | ind k ih =>
      by_cases hsep : sep ∈ path
      · obtain ⟨a, b, rfl, ha⟩ := List.eq_append_cons_of_mem hsep
        rw [List.splitOn_append_cons_self_of_not_mem ha] at h
        rcases List.mem_cons.mp h with rfl | h
        · exact ha
        · refine ih b.length ?_ h rfl
          rw [← hlen, List.length_append, List.length_cons]
          omega
      · rw [List.splitOn_eq_singleton hsep, List.mem_singleton] at h
        exact h ▸ hsep

theorem initialSlashes_one {path : Text} (h : ∀ rest, path ≠ sep :: rest) :
    initialSlashes (sep :: path) = 1 := by
  have hone : [sep, sep].isPrefixOf (sep :: path) = false := by
    cases path with
    | nil => rfl
    | cons c path =>
        have hne : (sep == c) = false := by
          rw [beq_eq_false_iff_ne]
          rintro rfl
          exact h path rfl
        simp [List.isPrefixOf, hne]
  unfold initialSlashes
  rw [hone, Bool.false_and, if_neg Bool.false_ne_true, if_pos (by simp [List.isPrefixOf])]

theorem head_absolute {parts : List Text} (hparts : ∀ c ∈ parts, Name c) (rest : Text) :
    [sep].intercalate parts ≠ sep :: rest := by
  cases parts with
  | nil => exact (List.cons_ne_nil _ _).symm
  | cons c parts =>
      obtain ⟨hc, -⟩ := List.forall_mem_cons.mp hparts
      intro h
      have hhead : c.head? = some sep := by
        cases parts with
        | nil =>
            rw [List.intercalate_singleton] at h
            rw [h]
            rfl
        | cons c' parts =>
            rw [List.intercalate_cons_cons, List.append_assoc] at h
            cases c with
            | nil => exact absurd rfl hc.nonempty
            | cons x c => exact congrArg some (List.cons.inj h).1
      exact hc.no_sep (List.mem_of_head? hhead)

theorem splitOn_absolute {parts : List Text} (hparts : ∀ c ∈ parts, Name c) (hne : parts ≠ []) :
    (absolute parts).splitOn sep = [] :: parts := by
  have hsplit : ([] ++ sep :: [sep].intercalate parts).splitOn sep =
      [] :: ([sep].intercalate parts).splitOn sep :=
    List.splitOn_append_cons_self_of_not_mem List.not_mem_nil _
  rw [List.nil_append, List.splitOn_intercalate sep (fun c hc => (hparts c hc).no_sep) hne] at hsplit
  exact hsplit

/-- **A path whose parts are names** stays as it is. -/
theorem normpath_absolute {parts : List Text} (hparts : ∀ c ∈ parts, Name c) (hne : parts ≠ []) :
    normpath (absolute parts) = absolute parts := by
  have hpath : absolute parts ≠ [] := List.cons_ne_nil _ _
  unfold normpath
  rw [if_neg hpath, splitOn_absolute hparts hne]
  have hslashes : initialSlashes (absolute parts) = 1 := initialSlashes_one (head_absolute hparts)
  have hfold : ([] :: parts).foldl (normStep (decide (1 ≠ 0))) [] = parts := by
    show parts.foldl (normStep true) [] = parts
    rw [foldl_normStep_names hparts, List.nil_append]
  rw [hslashes]
  dsimp only
  rw [hfold]
  exact if_neg (List.cons_ne_nil sep ([sep].intercalate parts))

theorem absolute_concat {parts : List Text} (hne : parts ≠ []) (c : Text) :
    absolute (parts ++ [c]) = absolute parts ++ sep :: c := by
  have hjoin : [sep].intercalate (parts ++ [c]) = [sep].intercalate parts ++ sep :: c := by
    induction parts with
    | nil => exact absurd rfl hne
    | cons p parts ih =>
        cases parts with
        | nil =>
            show [sep].intercalate [p, c] = [sep].intercalate [p] ++ sep :: c
            rw [List.intercalate_cons_cons, List.intercalate_singleton, List.intercalate_singleton,
              List.append_assoc, List.singleton_append]
        | cons p' parts =>
            rw [List.cons_append, List.cons_append, List.intercalate_cons_cons, ← List.cons_append,
              ih (List.cons_ne_nil _ _), List.intercalate_cons_cons]
            simp only [List.append_assoc]
  unfold absolute
  rw [hjoin, List.cons_append]

/-- A path whose parts are names does not end in a slash. -/
theorem not_suffix_absolute {parts : List Text} (hparts : ∀ c ∈ parts, Name c) (hne : parts ≠ []) :
    ¬ [sep] <:+ absolute parts := by
  rintro ⟨a, ha⟩
  have hsplit := splitOn_absolute hparts hne
  rw [← ha, List.splitOn_append_cons_self, List.splitOn_nil] at hsplit
  have hlast : (a.splitOn sep ++ [[]]).getLast? = ([] :: parts).getLast? := congrArg _ hsplit
  rw [List.getLast?_concat, List.getLast?_cons_of_ne_nil hne] at hlast
  exact (hparts [] (List.mem_of_getLast? hlast.symm)).nonempty rfl

/-- A path that does not start at the root is put behind a directory. -/
theorem join_absolute {parts : List Text} (hparts : ∀ c ∈ parts, Name c) (hne : parts ≠ [])
    {rel : Text} (hrel : ∀ rest, rel ≠ sep :: rest) :
    join (absolute parts) rel = absolute parts ++ sep :: rel := by
  unfold join
  rw [if_neg, if_neg]
  · rw [List.isSuffixOf_iff_suffix]
    exact not_or.mpr ⟨List.cons_ne_nil _ _, not_suffix_absolute hparts hne⟩
  · rw [List.isPrefixOf_iff_prefix]
    rintro ⟨rest, hrest⟩
    exact hrel rest hrest.symm

/-! ## §3 What lies below a directory -/

/-- The path goes on behind the directory with at least one name. -/
def Below (dir path : Text) : Prop :=
  ∃ names, names ≠ [] ∧ (∀ c ∈ names, Name c) ∧ path = dir ++ sep :: [sep].intercalate names

end NetPulse.Lib.PosixPath
