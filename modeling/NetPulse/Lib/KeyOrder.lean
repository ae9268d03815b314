import Mathlib.Order.Lattice
import Mathlib.Data.List.Basic
import Mathlib.Data.List.Pairwise

/-
# NetPulse.Lib.KeyOrder — sorting by a key, and the first of each key

`descending` sorts a list by a key, greatest first, and leaves elements of one key in the order in
which they were (`filter_descending`). `firsts` keeps the first element of each key. One after the
other they give a list with one element for each key, in strict order, and that element is the first
one of its key in the list (`mem_catalogue`).
-/

namespace NetPulse.Lib.KeyOrder

variable {α K : Type*} [LinearOrder K] {key : α → K}

/-- Whether an element has the key. -/
def ofKey (key : α → K) (k : K) (a : α) : Bool := decide (key a = k)

theorem key_of_find? {l : List α} {k : K} {a : α} (h : l.find? (ofKey key k) = some a) : key a = k :=
  of_decide_eq_true (List.find?_some h : ofKey key k a = true)

/-! ## §1 Sorting -/

/-- `sorted(…, key=…, reverse=True)` -/
def descending (key : α → K) (l : List α) : List α := l.mergeSort fun a b => decide (key b ≤ key a)

theorem pairwise_descending (l : List α) : (descending key l).Pairwise fun a b => key b ≤ key a := by
  have hsorted : (descending key l).Pairwise fun a b => decide (key b ≤ key a) = true := by
    apply List.pairwise_mergeSort
    · intro a b c hab hbc
      rw [decide_eq_true_iff] at hab hbc ⊢
      exact le_trans hbc hab
    · intro a b
      rw [Bool.or_eq_true, decide_eq_true_iff, decide_eq_true_iff]
      exact le_total _ _
  exact hsorted.imp of_decide_eq_true

/-- What is in this order already stays as it is. -/
theorem descending_of_pairwise {l : List α} (h : l.Pairwise fun a b => key b ≤ key a) :
    descending key l = l := List.mergeSort_of_pairwise (h.imp decide_eq_true)

/-- **Elements of one key stay as they were.** -/
theorem filter_descending (l : List α) (k : K) :
    (descending key l).filter (ofKey key k) = l.filter (ofKey key k) := by
  have hsame : (l.filter (ofKey key k)).Pairwise fun a b => decide (key b ≤ key a) = true := by
    refine List.pairwise_of_forall_mem_list fun a ha b hb => ?_
    rw [List.mem_filter, ofKey, decide_eq_true_iff] at ha hb
    rw [decide_eq_true_iff, ha.2, hb.2]
  have hsub : (l.filter (ofKey key k)).Sublist (descending key l) := by
    refine List.sublist_mergeSort ?_ ?_ hsame List.filter_sublist
    · intro a b c hab hbc
      rw [decide_eq_true_iff] at hab hbc ⊢
      exact le_trans hbc hab
    · intro a b
      rw [Bool.or_eq_true, decide_eq_true_iff, decide_eq_true_iff]
      exact le_total _ _
  have hfilter := hsub.filter (ofKey key k)
  rw [List.filter_filter] at hfilter
  simp only [Bool.and_self] at hfilter
  refine (hfilter.eq_of_length ?_).symm
  exact (((List.mergeSort_perm l _).filter _).length_eq).symm

theorem find?_descending (l : List α) (k : K) :
    (descending key l).find? (ofKey key k) = l.find? (ofKey key k) := by
  rw [← List.head?_filter, filter_descending, List.head?_filter]

/-! ## §2 The first of each key -/

/-- What has a key that is not seen yet. -/
def firsts (key : α → K) : List K → List α → List α
  | _, [] => []
  | seen, a :: rest =>
      if key a ∈ seen then firsts key seen rest else a :: firsts key (key a :: seen) rest

theorem firsts_sublist (seen : List K) (l : List α) : (firsts key seen l).Sublist l := by
  induction l generalizing seen with
  | nil => exact List.nil_sublist _
  | cons a rest ih =>
      rw [firsts]
      split_ifs
      · exact (ih seen).cons a
      · exact (ih (key a :: seen)).cons_cons a

theorem not_seen_of_mem {seen : List K} {l : List α} {a : α} (h : a ∈ firsts key seen l) :
    key a ∉ seen := by
  induction l generalizing seen with
  | nil => cases h
  | cons b rest ih =>
      rw [firsts] at h
      split_ifs at h with hseen
      · exact ih h
      · rcases List.mem_cons.mp h with rfl | h
        · exact hseen
        · exact fun hmem => ih h (List.mem_cons_of_mem _ hmem)

/-- No key occurs twice. -/
theorem pairwise_firsts (seen : List K) (l : List α) :
    (firsts key seen l).Pairwise fun a b => key a ≠ key b := by
  induction l generalizing seen with
  | nil => exact List.Pairwise.nil
  | cons a rest ih =>
      rw [firsts]
      split_ifs
      · exact ih seen
      · refine List.Pairwise.cons (fun b hb heq => ?_) (ih _)
        exact not_seen_of_mem hb (heq ▸ List.mem_cons_self)

/-- A key that is not seen is found where it was. -/
theorem find?_firsts {seen : List K} {k : K} (h : k ∉ seen) (l : List α) :
    (firsts key seen l).find? (ofKey key k) = l.find? (ofKey key k) := by
  induction l generalizing seen with
  | nil => rfl
  | cons a rest ih =>
      rw [firsts]
      by_cases hk : key a = k
      · have hnew : key a ∉ seen := hk ▸ h
        have hfound : ofKey key k a = true := decide_eq_true hk
        rw [if_neg hnew, List.find?_cons_of_pos hfound, List.find?_cons_of_pos hfound]
      · have hskip : ¬ ofKey key k a = true := by rwa [ofKey, decide_eq_true_iff]
        rw [List.find?_cons_of_neg (p := ofKey key k) hskip]
        split_ifs with hseen
        · exact ih h
        · rw [List.find?_cons_of_neg (p := ofKey key k) hskip, ih]
          rw [List.mem_cons, not_or]
          exact ⟨Ne.symm hk, h⟩

/-! ## §3 One after the other -/

/-- The first element of each key, the greatest key first. -/
def catalogue (key : α → K) (l : List α) : List α := firsts key [] (descending key l)

/-- **The order is strict.** -/
theorem pairwise_catalogue (l : List α) : (catalogue key l).Pairwise fun a b => key b < key a := by
  have hle : (catalogue key l).Pairwise fun a b => key b ≤ key a :=
    (pairwise_descending l).sublist (firsts_sublist [] _)
  exact (hle.and (pairwise_firsts [] _)).imp fun h => lt_of_le_of_ne h.1 (Ne.symm h.2)

/-- Of any two elements the one with the greater key comes first. -/
theorem pairwise_catalogue_iff {R : α → α → Prop} {l : List α} :
    (catalogue key l).Pairwise R ↔
      ∀ a ∈ catalogue key l, ∀ b ∈ catalogue key l, key b < key a → R a b := by
  have hstrict : (catalogue key l).Pairwise fun a b => key b < key a := pairwise_catalogue l
  constructor
  · intro h a ha b hb hlt
    have hboth : (catalogue key l).Pairwise fun a b => (key b < key a → R a b) ∧ (key a < key b → R b a) := by
      refine (hstrict.and h).imp fun h => ⟨fun _ => h.2, fun hgt => ?_⟩
      exact absurd hgt (lt_asymm h.1)
    have : Std.Symm fun a b => (key b < key a → R a b) ∧ (key a < key b → R b a) :=
      ⟨fun _ _ => And.symm⟩
    have hne : a ≠ b := fun heq => absurd hlt (heq ▸ lt_irrefl _)
    exact (hboth.forall ha hb hne).1 hlt
  · exact fun h => hstrict.imp_of_mem fun ha hb hlt => h _ ha _ hb hlt

theorem find?_catalogue (l : List α) (k : K) :
    (catalogue key l).find? (ofKey key k) = l.find? (ofKey key k) := by
  rw [catalogue, find?_firsts List.not_mem_nil, find?_descending]

theorem eq_of_key_eq {l : List α} {a b : α} (ha : a ∈ catalogue key l) (hb : b ∈ catalogue key l)
    (h : key a = key b) : a = b := by
  by_contra hne
  have hpair : (catalogue key l).Pairwise fun a b => key a ≠ key b := pairwise_firsts [] _
  have : Std.Symm fun a b : α => key a ≠ key b := ⟨fun _ _ hxy => Ne.symm hxy⟩
  exact hpair.forall ha hb hne h

/-- **What is kept** is the first of its key. -/
theorem mem_catalogue {l : List α} {a : α} :
    a ∈ catalogue key l ↔ l.find? (ofKey key (key a)) = some a := by
  rw [← find?_catalogue]
  constructor
  · intro ha
    cases hfind : (catalogue key l).find? (ofKey key (key a)) with
    | none => exact absurd (decide_eq_true rfl) (List.find?_eq_none.mp hfind a ha)
    | some b =>
        rw [eq_of_key_eq (List.mem_of_find?_eq_some hfind) ha (key_of_find? hfind)]
  · exact List.mem_of_find?_eq_some

theorem mem_of_mem_catalogue {l : List α} {a : α} (h : a ∈ catalogue key l) : a ∈ l :=
  List.mem_of_find?_eq_some (mem_catalogue.mp h)

/-- Every key has its element. -/
theorem exists_mem_catalogue {l : List α} {a : α} (h : a ∈ l) :
    ∃ b ∈ catalogue key l, key b = key a := by
  cases hfind : l.find? (ofKey key (key a)) with
  | none => exact absurd (decide_eq_true rfl) (List.find?_eq_none.mp hfind a h)
  | some b =>
      have hkey := key_of_find? hfind
      rw [← hkey] at hfind
      exact ⟨b, mem_catalogue.mpr hfind, hkey⟩

end NetPulse.Lib.KeyOrder
