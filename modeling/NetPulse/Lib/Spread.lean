import Mathlib.Data.List.Perm.Basic
import Mathlib.Data.List.Nodup

/-
# NetPulse.Lib.Spread — things that are spread over lists

`Spread content known` says that every known thing is in exactly one of the lists `content l`, once,
and that nothing else is in any. `Spread.move` is the rule for a thing that goes from one list to
another, `Spread.add` the rule for a new one.
-/

namespace NetPulse.Lib

variable {L α : Type*}

structure Spread (content : L → List α) (known : α → Prop) : Prop where
  nodup : ∀ l, (content l).Nodup
  apart : ∀ l l' a, a ∈ content l → a ∈ content l' → l = l'
  somewhere : ∀ a, known a ↔ ∃ l, a ∈ content l

namespace Spread

variable {content content' : L → List α} {known known' : α → Prop}

theorem of_nil (hcontent : ∀ l, content l = []) (hknown : ∀ a, ¬ known a) :
    Spread content known where
  nodup l := hcontent l ▸ List.nodup_nil
  apart l _ _ ha := absurd (hcontent l ▸ ha) List.not_mem_nil
  somewhere a :=
    iff_of_false (hknown a) fun ⟨l, ha⟩ => absurd (hcontent l ▸ ha) List.not_mem_nil

/-- Where nothing has changed for `Spread`. -/
theorem congr (h : Spread content known) (hsame : ∀ l, content' l = content l) :
    Spread content' known := by
  obtain rfl : content' = content := funext hsame
  exact h

/-- **One thing moves.** -/
theorem move (h : Spread content known) (src dst : L) (a : α) (hne : src ≠ dst)
    (hsrc : (content src).Perm (a :: content' src)) (hdst : (content' dst).Perm (a :: content dst))
    (hother : ∀ l, l ≠ src → l ≠ dst → content' l = content l) : Spread content' known := by
  have ha : a ∈ content src := hsrc.mem_iff.mpr List.mem_cons_self
  have hrest := List.nodup_cons.mp (hsrc.nodup_iff.mp (h.nodup src))
  have hnot : a ∉ content dst := fun hdst' => hne (h.apart src dst a ha hdst')
  -- The thing itself is at its new place, and every other thing where it was.
  have hself : ∀ l, a ∈ content' l ↔ l = dst := by
    intro l
    by_cases hd : l = dst
    · rw [hd]
      exact iff_of_true (hdst.mem_iff.mpr List.mem_cons_self) rfl
    · refine iff_of_false (fun hmem => ?_) hd
      by_cases hs : l = src
      · exact hrest.1 (hs ▸ hmem)
      · rw [hother l hs hd] at hmem
        exact hs (h.apart l src a hmem ha)
  have hmem : ∀ l x, x ≠ a → (x ∈ content' l ↔ x ∈ content l) := by
    intro l x hx
    by_cases hd : l = dst
    · rw [hd, hdst.mem_iff, List.mem_cons]
      exact or_iff_right hx
    · by_cases hs : l = src
      · rw [hs, hsrc.mem_iff, List.mem_cons]
        exact (or_iff_right hx).symm
      · rw [hother l hs hd]
  refine ⟨fun l => ?_, fun l l' x hx hx' => ?_, fun x => ?_⟩
  · by_cases hd : l = dst
    · rw [hd]
      exact hdst.nodup_iff.mpr (List.nodup_cons.mpr ⟨hnot, h.nodup dst⟩)
    · by_cases hs : l = src
      · exact hs ▸ hrest.2
      · rw [hother l hs hd]
        exact h.nodup l
  · by_cases hxa : x = a
    · rw [hxa] at hx hx'
      rw [(hself l).mp hx, (hself l').mp hx']
    · exact h.apart l l' x ((hmem l x hxa).mp hx) ((hmem l' x hxa).mp hx')
  · by_cases hxa : x = a
    · rw [hxa]
      exact iff_of_true ((h.somewhere a).mpr ⟨src, ha⟩) ⟨dst, (hself dst).mpr rfl⟩
    · rw [h.somewhere x]
      exact exists_congr fun l => (hmem l x hxa).symm

/-- **A new thing.** -/
theorem add (h : Spread content known) (dst : L) (a : α) (hnew : ¬ known a)
    (hdst : (content' dst).Perm (a :: content dst))
    (hother : ∀ l, l ≠ dst → content' l = content l)
    (hknown : ∀ x, known' x ↔ x = a ∨ known x) : Spread content' known' := by
  have hnowhere : ∀ l, a ∉ content l := fun l ha => hnew ((h.somewhere a).mpr ⟨l, ha⟩)
  have hmem : ∀ l x, x ∈ content' l ↔ x = a ∧ l = dst ∨ x ∈ content l := by
    intro l x
    by_cases hd : l = dst
    · rw [hd, hdst.mem_iff, List.mem_cons]
      exact or_congr (and_iff_left rfl).symm Iff.rfl
    · rw [hother l hd]
      exact (or_iff_right fun hx => hd hx.2).symm
  refine ⟨fun l => ?_, fun l l' x hx hx' => ?_, fun x => ?_⟩
  · by_cases hd : l = dst
    · rw [hd]
      exact hdst.nodup_iff.mpr (List.nodup_cons.mpr ⟨hnowhere dst, h.nodup dst⟩)
    · rw [hother l hd]
      exact h.nodup l
  · rcases (hmem l x).mp hx with ⟨hxa, hl⟩ | hx
    · rcases (hmem l' x).mp hx' with ⟨-, hl'⟩ | hx'
      · rw [hl, hl']
      · exact absurd (hxa ▸ hx') (hnowhere l')
    · rcases (hmem l' x).mp hx' with ⟨hxa, -⟩ | hx'
      · exact absurd (hxa ▸ hx) (hnowhere l)
      · exact h.apart l l' x hx hx'
  · rw [hknown, h.somewhere x]
    constructor
    · rintro (hxa | ⟨l, hl⟩)
      · exact ⟨dst, (hmem dst x).mpr (Or.inl ⟨hxa, rfl⟩)⟩
      · exact ⟨l, (hmem l x).mpr (Or.inr hl)⟩
    · rintro ⟨l, hl⟩
      exact ((hmem l x).mp hl).imp And.left fun hx => ⟨l, hx⟩

end Spread

end NetPulse.Lib
