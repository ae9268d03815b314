import Mathlib.Data.List.Basic
import Mathlib.Data.List.Nodup
import Mathlib.Data.List.Perm.Subperm

/-
# NetPulse.Lib.LinkWalk — paths through a tree with symbolic links

A place is an anchor and the names below it. A walk takes one step after the other, up or down to a
name, and where it comes to a link it follows the link first, from the directory of the link. A link
that is met while it is being followed is a loop, which ends the walk. What is not there is walked
through like a directory.

`walk_clean`: where a walk ends, no link is left above. `walk_names`: from there the names lead to the
place itself. `walk_ne_exhausted`: with as many rounds as there are links, only loops end a walk.
-/

namespace NetPulse.Lib.LinkWalk

variable {A N : Type}

/-! ## §1 Walks -/

structure Place (A N : Type) where
  anchor : A
  names : List N
  deriving DecidableEq

inductive Step (N : Type) where
  | up
  | down (name : N)
  deriving DecidableEq

/-- What a link has in it: where to begin, if that is not the directory of the link, and the steps. -/
structure Target (A N : Type) where
  anchor : Option A
  rooted : Bool
  steps : List (Step N)

namespace Place

def below (here : Place A N) (name : N) : Place A N := ⟨here.anchor, here.names ++ [name]⟩

/-- The directory above; at the anchor, the place itself. -/
def up (here : Place A N) : Place A N := ⟨here.anchor, here.names.dropLast⟩

end Place

/-- Where the steps of a target begin. -/
def Target.start (t : Target A N) (here : Place A N) : Place A N :=
  ⟨t.anchor.getD here.anchor, if t.rooted || t.anchor.isSome then [] else here.names⟩

inductive Failure where
  /-- A link was met while it was being followed. -/
  | loop
  | exhausted
  deriving DecidableEq

section Walk
variable [DecidableEq A] [DecidableEq N] (links : Place A N → Option (Target A N))

/-- One step after the other; `active` are the links that are being followed. -/
def along (active : List (Place A N))
    (follow : Place A N → Target A N → List (Place A N) → Except Failure (Place A N)) :
    Place A N → List (Step N) → Except Failure (Place A N)
  | here, [] => .ok here
  | here, .up :: rest => along active follow here.up rest
  | here, .down name :: rest =>
      match links (here.below name) with
      | none => along active follow (here.below name) rest
      | some t =>
          if here.below name ∈ active then .error .loop
          else
            match follow here t (here.below name :: active) with
            | .error e => .error e
            | .ok mid => along active follow mid rest

/-- A walk in which no more than so many links are followed inside of each other. -/
def walk : Nat → List (Place A N) → Place A N → List (Step N) → Except Failure (Place A N)
  | 0, active => along links active fun _ _ _ => .error .exhausted
  | n + 1, active => along links active fun here t active => walk n active (t.start here) t.steps

end Walk

/-! ## §2 Rules -/

/-- What every step of a walk keeps; `ok` is said of the names that are stepped to. -/
structure Kept (links : Place A N → Option (Target A N)) (I : Place A N → Prop) (ok : N → Prop) :
    Prop where
  up : ∀ {here}, I here → I here.up
  down : ∀ {here name}, I here → ok name → links (here.below name) = none → I (here.below name)
  start : ∀ {here l t}, I here → links l = some t → I (t.start here)
  names : ∀ {l t name}, links l = some t → Step.down name ∈ t.steps → ok name

variable [DecidableEq A] [DecidableEq N] {links : Place A N → Option (Target A N)}
  {I : Place A N → Prop} {ok : N → Prop}

theorem along_kept (h : Kept links I ok) {active : List (Place A N)}
    {follow : Place A N → Target A N → List (Place A N) → Except Failure (Place A N)}
    (hfollow : ∀ {here l t active loc}, I here → links l = some t →
      follow here t active = .ok loc → I loc)
    {here loc : Place A N} {steps : List (Step N)} (hhere : I here)
    (hsteps : ∀ name, Step.down name ∈ steps → ok name)
    (hloc : along links active follow here steps = .ok loc) : I loc := by
  induction steps generalizing here with
  | nil => exact Except.ok.inj hloc ▸ hhere
  | cons step rest ih =>
      have hrest : ∀ name, Step.down name ∈ rest → ok name := fun name hname =>
        hsteps name (List.mem_cons_of_mem _ hname)
      cases step with
      | up => exact ih (h.up hhere) hrest hloc
      | down name =>
          rw [along] at hloc
          split at hloc
          · rename_i hnone
            exact ih (h.down hhere (hsteps name List.mem_cons_self) hnone) hrest hloc
          · rename_i t hlink
            split at hloc
            · cases hloc
            · split at hloc
              · cases hloc
              · rename_i mid hmid
                exact ih (hfollow hhere hlink hmid) hrest hloc

/-- **What every step keeps, a walk keeps.** -/
theorem walk_kept (h : Kept links I ok) {n : Nat} {active : List (Place A N)} {here loc : Place A N}
    {steps : List (Step N)} (hhere : I here) (hsteps : ∀ name, Step.down name ∈ steps → ok name)
    (hloc : walk links n active here steps = .ok loc) : I loc := by
  induction n generalizing active here loc steps with
  | zero => exact along_kept h (fun _ _ hnever => by cases hnever) hhere hsteps hloc
  | succ n ih =>
      refine along_kept h (fun hat hlink hmid => ?_) hhere hsteps hloc
      exact ih (h.start hat hlink) (fun name => h.names hlink) hmid

/-! ## §3 Where a walk ends -/

/-- No place on the way down to it is a link. -/
def Clean (links : Place A N → Option (Target A N)) (loc : Place A N) : Prop :=
  ∀ above name, above ++ [name] <+: loc.names → links ⟨loc.anchor, above ++ [name]⟩ = none

omit [DecidableEq A] [DecidableEq N] in
theorem Clean.below {here : Place A N} (h : Clean links here) {name : N}
    (hname : links (here.below name) = none) : Clean links (here.below name) := by
  intro above x hprefix
  rcases List.prefix_concat_iff.mp hprefix with heq | hprefix
  · rw [heq]
    exact hname
  · exact h above x hprefix

omit [DecidableEq A] [DecidableEq N] in
theorem Clean.up {here : Place A N} (h : Clean links here) : Clean links here.up := fun above name hp =>
  h above name (hp.trans (List.dropLast_prefix _))

omit [DecidableEq A] [DecidableEq N] in
theorem Clean.anchor (a : A) : Clean links ⟨a, []⟩ := by
  intro above name hprefix
  exact absurd (List.prefix_nil.mp hprefix) (by simp)

omit [DecidableEq A] [DecidableEq N] in
/-- A target begins at an anchor, or in the directory of its link. -/
theorem start_cases (t : Target A N) (here : Place A N) :
    (t.start here).names = [] ∨ t.start here = here := by
  unfold Target.start
  rcases t.anchor with _ | a
  · by_cases hroot : t.rooted = true
    · exact Or.inl (by simp [hroot])
    · exact Or.inr (by simp [hroot])
  · exact Or.inl (by simp)

omit [DecidableEq A] [DecidableEq N] in
theorem Clean.start {here : Place A N} (h : Clean links here) (t : Target A N) :
    Clean links (t.start here) := by
  rcases start_cases t here with hnames | hsame
  · intro above name hprefix
    rw [hnames] at hprefix
    exact absurd (List.prefix_nil.mp hprefix) (by simp)
  · rw [hsame]
    exact h

/-- **No link is left** above the end of a walk. -/
theorem walk_clean {n : Nat} {active : List (Place A N)} {here loc : Place A N} {steps : List (Step N)}
    (hhere : Clean links here) (hloc : walk links n active here steps = .ok loc) : Clean links loc := by
  have hkept : Kept links (Clean links) fun _ => True :=
    ⟨Clean.up, fun h _ => h.below, fun h _ => h.start _, fun _ _ => trivial⟩
  exact walk_kept hkept hhere (fun _ _ => trivial) hloc

theorem along_names {active : List (Place A N)}
    {follow : Place A N → Target A N → List (Place A N) → Except Failure (Place A N)} (a : A)
    (above names : List N) (h : Clean links ⟨a, above ++ names⟩) :
    along links active follow ⟨a, above⟩ (names.map .down) = .ok ⟨a, above ++ names⟩ := by
  induction names generalizing above with
  | nil => rw [List.map_nil, along, List.append_nil]
  | cons name rest ih =>
      have hplain : links ((⟨a, above⟩ : Place A N).below name) = none :=
        h above name ⟨rest, by simp⟩
      have hsplit : above ++ name :: rest = (above ++ [name]) ++ rest := by simp
      rw [hsplit] at h
      rw [List.map_cons, along, hplain, hsplit]
      exact ih (above ++ [name]) h

/-- **Names without a link on the way** lead to where they say. -/
theorem walk_names (n : Nat) (active : List (Place A N)) {loc : Place A N} (h : Clean links loc) :
    walk links n active ⟨loc.anchor, []⟩ (loc.names.map .down) = .ok loc := by
  cases n with
  | zero => exact along_names loc.anchor [] loc.names h
  | succ n => exact along_names loc.anchor [] loc.names h

/-! ## §4 Only loops end a walk -/

theorem along_ne_exhausted {active : List (Place A N)}
    {follow : Place A N → Target A N → List (Place A N) → Except Failure (Place A N)}
    (hfollow : ∀ here t name, links (here.below name) = some t → here.below name ∉ active →
      follow here t (here.below name :: active) ≠ .error .exhausted)
    (here : Place A N) (steps : List (Step N)) :
    along links active follow here steps ≠ .error .exhausted := by
  induction steps generalizing here with
  | nil => exact nofun
  | cons step rest ih =>
      cases step with
      | up => exact ih here.up
      | down name =>
          rw [along]
          split
          · exact ih _
          · rename_i t hlink
            split
            · exact nofun
            · rename_i hfresh
              have hnot := hfollow here t name hlink hfresh
              split
              · rename_i e he
                rw [he] at hnot
                exact hnot
              · exact ih _

/-- **Enough rounds**: the links that are followed inside of each other are different ones. -/
theorem walk_ne_exhausted {keys : List (Place A N)} (hkeys : ∀ l t, links l = some t → l ∈ keys)
    {n : Nat} {active : List (Place A N)} (hnodup : active.Nodup) (hactive : active ⊆ keys)
    (hn : keys.length ≤ n + active.length) (here : Place A N) (steps : List (Step N)) :
    walk links n active here steps ≠ .error .exhausted := by
  induction n generalizing active here steps with
  | zero =>
      refine along_ne_exhausted (fun here t name hlink hfresh => ?_) here steps
      have hsub : (here.below name :: active) ⊆ keys :=
        List.cons_subset.mpr ⟨hkeys _ t hlink, hactive⟩
      have hle := ((List.nodup_cons.mpr ⟨hfresh, hnodup⟩).subperm hsub).length_le
      rw [List.length_cons] at hle
      omega
  | succ n ih =>
      refine along_ne_exhausted (fun here t name hlink hfresh => ?_) here steps
      refine ih (List.nodup_cons.mpr ⟨hfresh, hnodup⟩)
        (List.cons_subset.mpr ⟨hkeys _ t hlink, hactive⟩) ?_ _ _
      rw [List.length_cons]
      omega

end NetPulse.Lib.LinkWalk
