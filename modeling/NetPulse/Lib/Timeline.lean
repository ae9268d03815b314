import Mathlib.MeasureTheory.Measure.Lebesgue.Basic
import Mathlib.Order.CompletePartialOrder

/-
# NetPulse.Lib.Timeline — a step function given by its changes

A list of changes, each with its time and the state it leads to. At a time the state is that of the
last change at or before it (`LastAt`), and before the first there is none (`Unchanged`). Neither
depends on the order of the list.

When the changes are listed by their times, the time that is spent in a state within a window is a
sum of clipped intervals (`timeIn`): it is the Lebesgue measure (`volume_timesIn`), and over all
states the sums are what is left of the window at the first change (`sum_timeIn`).
-/

namespace NetPulse.Lib.Timeline

open MeasureTheory Set

variable {σ : Type*} {changes rest : List (ℝ × σ)} {c : ℝ × σ} {s : σ} {t start stop : ℝ}

/-! ## §1 The step function -/

/-- At `t` the state is `s`. -/
def LastAt (changes : List (ℝ × σ)) (t : ℝ) (s : σ) : Prop :=
  ∃ since, (since, s) ∈ changes ∧ since ≤ t ∧ ∀ c ∈ changes, c.1 ≤ t → c.1 ≤ since

/-- At `t` there is no state. -/
def Unchanged (changes : List (ℝ × σ)) (t : ℝ) : Prop := ∀ c ∈ changes, t < c.1

/-- The times of the window with the state `s`. -/
def timesIn (changes : List (ℝ × σ)) (s : σ) (start stop : ℝ) : Set ℝ :=
  {t | t ∈ Ico start stop ∧ LastAt changes t s}

/-- The times of the window with no state. -/
def timesBefore (changes : List (ℝ × σ)) (start stop : ℝ) : Set ℝ :=
  {t | t ∈ Ico start stop ∧ Unchanged changes t}

theorem lastAt_congr {changes' : List (ℝ × σ)}
    (h : ∀ c : ℝ × σ, c.1 ≤ t → (c ∈ changes ↔ c ∈ changes')) :
    LastAt changes t s ↔ LastAt changes' t s := by
  constructor
  · rintro ⟨since, hmem, hle, hlast⟩
    exact ⟨since, (h _ hle).mp hmem, hle, fun c hc hct => hlast c ((h c hct).mpr hc) hct⟩
  · rintro ⟨since, hmem, hle, hlast⟩
    exact ⟨since, (h _ hle).mpr hmem, hle, fun c hc hct => hlast c ((h c hct).mp hc) hct⟩

/-- What changes after the window does not matter, and no order does. -/
theorem timesIn_congr {changes' : List (ℝ × σ)}
    (h : ∀ c : ℝ × σ, c.1 < stop → (c ∈ changes ↔ c ∈ changes')) :
    timesIn changes s start stop = timesIn changes' s start stop := by
  ext t
  exact and_congr_right fun hwindow => lastAt_congr fun c hct => h c (hct.trans_lt hwindow.2)

theorem Unchanged.of_subset {changes' : List (ℝ × σ)} (hbefore : Unchanged changes t)
    (h : ∀ c : ℝ × σ, c.1 ≤ t → c ∈ changes' → c ∈ changes) : Unchanged changes' t :=
  fun c hc => lt_of_not_ge fun hct => (hbefore c (h c hct hc)).not_ge hct

theorem timesBefore_congr {changes' : List (ℝ × σ)}
    (h : ∀ c : ℝ × σ, c.1 < stop → (c ∈ changes ↔ c ∈ changes')) :
    timesBefore changes start stop = timesBefore changes' start stop := by
  ext t
  refine and_congr_right fun hwindow => ⟨fun hbefore => ?_, fun hbefore => ?_⟩
  · exact hbefore.of_subset fun c hct => (h c (hct.trans_lt hwindow.2)).mpr
  · exact hbefore.of_subset fun c hct => (h c (hct.trans_lt hwindow.2)).mp

/-! ## §2 Sorted changes -/

/-- The changes are listed by their times, none of which is behind the window. -/
structure Sorted (changes : List (ℝ × σ)) (stop : ℝ) : Prop where
  lt : changes.Pairwise fun c d => c.1 < d.1
  le : ∀ c ∈ changes, c.1 ≤ stop

/-- Where the first change is, and the end of the window if there is none. -/
def firstTime (stop : ℝ) : List (ℝ × σ) → ℝ
  | [] => stop
  | c :: _ => c.1

/-- How much of an interval is in the window. -/
def overlap (start stop since til : ℝ) : ℝ := max 0 (min stop til - max start since)

/-- The sum of the intervals with the state `s`, each from a change to the next. -/
noncomputable def timeIn [DecidableEq σ] (start stop : ℝ) (s : σ) : List (ℝ × σ) → ℝ
  | [] => 0
  | c :: rest =>
      (if c.2 = s then overlap start stop c.1 (firstTime stop rest) else 0) + timeIn start stop s rest

theorem Sorted.tail (h : Sorted (c :: rest) stop) : Sorted rest stop :=
  ⟨(List.pairwise_cons.mp h.lt).2, fun d hd => h.le d (List.mem_cons_of_mem c hd)⟩

theorem firstTime_le (h : Sorted changes stop) : firstTime stop changes ≤ stop := by
  rcases changes with _ | ⟨c, rest⟩
  · exact le_rfl
  · exact h.le c List.mem_cons_self

theorem le_firstTime (h : Sorted (c :: rest) stop) : c.1 ≤ firstTime stop rest := by
  rcases rest with _ | ⟨d, rest⟩
  · exact h.le c List.mem_cons_self
  · exact ((List.pairwise_cons.mp h.lt).1 d List.mem_cons_self).le

/-- Within the window, nothing has changed before the first change. -/
theorem unchanged_iff (h : Sorted changes stop) (ht : t < stop) :
    Unchanged changes t ↔ t < firstTime stop changes := by
  rcases changes with _ | ⟨c, rest⟩
  · simp [Unchanged, firstTime, ht]
  · constructor
    · intro hall
      exact hall c List.mem_cons_self
    · intro hlt d hd
      rcases List.mem_cons.mp hd with rfl | hd
      · exact hlt
      · exact hlt.trans ((List.pairwise_cons.mp h.lt).1 d hd)

/-- The first change decides until the second, then the others do. -/
theorem lastAt_cons (h : Sorted (c :: rest) stop) :
    LastAt (c :: rest) t s ↔ (c.2 = s ∧ c.1 ≤ t ∧ Unchanged rest t) ∨ LastAt rest t s := by
  have hfirst := (List.pairwise_cons.mp h.lt).1
  constructor
  · rintro ⟨since, hmem, hle, hlast⟩
    rcases List.mem_cons.mp hmem with heq | hmem
    · subst heq
      refine .inl ⟨rfl, hle, fun d hd => lt_of_not_ge fun hdt => ?_⟩
      exact (hfirst d hd).not_ge (hlast d (List.mem_cons_of_mem _ hd) hdt)
    · exact .inr ⟨since, hmem, hle, fun d hd => hlast d (List.mem_cons_of_mem _ hd)⟩
  · rintro (⟨rfl, hle, hrest⟩ | ⟨since, hmem, hle, hlast⟩)
    · refine ⟨c.1, List.mem_cons_self, hle, fun d hd hdt => ?_⟩
      rcases List.mem_cons.mp hd with rfl | hd
      · exact le_rfl
      · exact absurd hdt (hrest d hd).not_ge
    · refine ⟨since, List.mem_cons_of_mem _ hmem, hle, fun d hd hdt => ?_⟩
      rcases List.mem_cons.mp hd with rfl | hd
      · exact (hfirst _ hmem).le
      · exact hlast d hd hdt

/-! ## §3 The measure -/

theorem volume_window_inter (start stop since til : ℝ) :
    volume (Ico start stop ∩ Ico since til) = ENNReal.ofReal (overlap start stop since til) := by
  rw [Ico_inter_Ico, Real.volume_Ico, overlap]
  rcases le_total (min stop til - max start since) 0 with h | h
  · rw [max_eq_left h, ENNReal.ofReal_zero]
    exact ENNReal.ofReal_of_nonpos h
  · rw [max_eq_right h]

theorem overlap_nonneg (start stop since til : ℝ) : 0 ≤ overlap start stop since til :=
  le_max_left _ _

theorem timeIn_nonneg [DecidableEq σ] (start stop : ℝ) (s : σ) (changes : List (ℝ × σ)) :
    0 ≤ timeIn start stop s changes := by
  induction changes with
  | nil => exact le_rfl
  | cons c rest ih =>
      rw [timeIn]
      split_ifs
      · exact add_nonneg (overlap_nonneg _ _ _ _) ih
      · exact add_nonneg le_rfl ih

/-- The states by other names. -/
theorem timeIn_map [DecidableEq σ] {τ : Type*} [DecidableEq τ] {f : σ → τ}
    (hf : Function.Injective f) (changes : List (ℝ × σ)) :
    timeIn start stop (f s) (changes.map (Prod.map id f)) = timeIn start stop s changes := by
  induction changes with
  | nil => rfl
  | cons c rest ih =>
      have hfirst : firstTime stop (rest.map (Prod.map id f)) = firstTime stop rest := by
        rcases rest with _ | ⟨d, rest⟩
        · rfl
        · rfl
      rw [List.map_cons, timeIn, timeIn, ih, hfirst]
      simp [hf.eq_iff]

/-- The window's part of the first interval, and the rest. -/
theorem timesIn_cons_self (h : Sorted (c :: rest) stop) :
    timesIn (c :: rest) c.2 start stop =
      Ico start stop ∩ Ico c.1 (firstTime stop rest) ∪ timesIn rest c.2 start stop := by
  ext t
  constructor
  · rintro ⟨hwindow, hlast⟩
    rcases (lastAt_cons h).mp hlast with ⟨-, hle, hrest⟩ | hrest
    · exact .inl ⟨hwindow, hle, (unchanged_iff h.tail hwindow.2).mp hrest⟩
    · exact .inr ⟨hwindow, hrest⟩
  · rintro (⟨hwindow, hle, hlt⟩ | ⟨hwindow, hrest⟩)
    · refine ⟨hwindow, (lastAt_cons h).mpr (.inl ⟨rfl, hle, ?_⟩)⟩
      exact (unchanged_iff h.tail hwindow.2).mpr hlt
    · exact ⟨hwindow, (lastAt_cons h).mpr (.inr hrest)⟩

theorem timesIn_cons_of_ne (h : Sorted (c :: rest) stop) (hs : c.2 ≠ s) :
    timesIn (c :: rest) s start stop = timesIn rest s start stop := by
  ext t
  simp [timesIn, lastAt_cons h, hs]

/-- Whoever is in a later interval is not in the first. -/
theorem disjoint_timesIn (h : Sorted rest stop) :
    Disjoint (Ico start stop ∩ Ico c.1 (firstTime stop rest)) (timesIn rest s start stop) := by
  rw [Set.disjoint_left]
  rintro t ⟨hwindow, -, hlt⟩ ⟨-, since, hmem, hle, -⟩
  exact ((unchanged_iff h hwindow.2).mpr hlt _ hmem).not_ge hle

/-- **The sum of the clipped intervals is the measure.** -/
theorem volume_timesIn [DecidableEq σ] (h : Sorted changes stop) :
    volume (timesIn changes s start stop) = ENNReal.ofReal (timeIn start stop s changes) := by
  induction changes with
  | nil =>
      have hempty : timesIn ([] : List (ℝ × σ)) s start stop = ∅ := by
        ext t
        simp [timesIn, LastAt]
      rw [hempty, measure_empty, timeIn, ENNReal.ofReal_zero]
  | cons c rest ih =>
      rw [timeIn]
      by_cases hs : c.2 = s
      · subst hs
        rw [timesIn_cons_self h, if_pos rfl,
          measure_union' (disjoint_timesIn h.tail) (measurableSet_Ico.inter measurableSet_Ico),
          volume_window_inter, ih h.tail,
          ENNReal.ofReal_add (overlap_nonneg _ _ _ _) (timeIn_nonneg _ _ _ _)]
      · rw [timesIn_cons_of_ne h hs, if_neg hs, zero_add, ih h.tail]

/-- **What is before the first change.** -/
theorem volume_timesBefore (h : Sorted changes stop) :
    volume (timesBefore changes start stop) =
      ENNReal.ofReal (firstTime stop changes - start) := by
  have hset : timesBefore changes start stop = Ico start (firstTime stop changes) := by
    ext t
    constructor
    · rintro ⟨hwindow, hbefore⟩
      exact ⟨hwindow.1, (unchanged_iff h hwindow.2).mp hbefore⟩
    · rintro ⟨hstart, hlt⟩
      have hstop := hlt.trans_le (firstTime_le h)
      exact ⟨⟨hstart, hstop⟩, (unchanged_iff h hstop).mpr hlt⟩
  rw [hset, Real.volume_Ico]

/-- An interval and what is behind it. -/
theorem overlap_add {since til : ℝ} (hsince : since ≤ til) (hstop : til ≤ stop) :
    overlap start stop since til + (stop - max start til) = stop - max start since := by
  rw [overlap, min_eq_right hstop]
  rcases le_total til start with h | h
  · rw [max_eq_left h, max_eq_left (hsince.trans h), max_eq_left (sub_nonpos.mpr h), zero_add]
  · rw [max_eq_right h, max_eq_right (sub_nonneg.mpr (max_le h hsince))]
    ring

/-- **The sums over all states** are what the window has from the first change on. -/
theorem sum_timeIn [Fintype σ] [DecidableEq σ] (hwindow : start ≤ stop)
    (h : Sorted changes stop) :
    ∑ s, timeIn start stop s changes = stop - max start (firstTime stop changes) := by
  induction changes with
  | nil =>
      rw [firstTime, max_eq_right hwindow, sub_self]
      exact Finset.sum_eq_zero fun s _ => rfl
  | cons c rest ih =>
      simp only [timeIn]
      rw [Finset.sum_add_distrib, ih h.tail, Finset.sum_ite_eq, if_pos (Finset.mem_univ _)]
      exact overlap_add (le_firstTime h) (firstTime_le h.tail)

end NetPulse.Lib.Timeline
