import Mathlib.Logic.Basic
import Mathlib.Tactic.TypeStar

/-
# NetPulse.Lib.Prog — programs with a state and exceptions, and triples about them

A program is an `EStateM`: what it has done to the state stays done when it raises. `Triple P x Q E`
says that from every state with `P` the program `x` either returns, with `Q` of the value and the
state, or raises, with `E` of the exception and the state. There is one rule for each way of
composing programs; what a program does is then derived from what its parts do.
-/

namespace NetPulse.Lib

abbrev Prog (ε σ α : Type) := EStateM ε σ α

namespace Prog

variable {ε σ α β : Type}

/-! ## §1 Composition -/

/-- `except: raise f(e)` -/
def rethrow (f : ε → ε) (x : Prog ε σ α) : Prog ε σ α := fun s =>
  match x s with
  | .ok a t => .ok a t
  | .error e t => .error (f e) t

/-- `finally:`, and the end of a `with` -/
def ensuring (last : σ → σ) (x : Prog ε σ α) : Prog ε σ α := fun s =>
  match x s with
  | .ok a t => .ok a (last t)
  | .error e t => .error e (last t)

/-- The state in which a run ends. -/
def final : EStateM.Result ε σ α → σ
  | .ok _ s => s
  | .error _ s => s

/-! ## §2 Triples -/

/-- What a run ends with. -/
def Post (Q : α → σ → Prop) (E : ε → σ → Prop) : EStateM.Result ε σ α → Prop
  | .ok a s => Q a s
  | .error e s => E e s

def Triple (P : σ → Prop) (x : Prog ε σ α) (Q : α → σ → Prop) (E : ε → σ → Prop) : Prop :=
  ∀ s, P s → Post Q E (x s)

variable {P P' : σ → Prop} {Q Q' : α → σ → Prop} {R : β → σ → Prop} {E E' : ε → σ → Prop}
  {x : Prog ε σ α} {s t : σ}

theorem Triple.returned {a : α} (h : Triple P x Q E) (hs : P s) (hx : x s = .ok a t) : Q a t := by
  have hpost := h s hs
  rw [hx] at hpost
  exact hpost

theorem Triple.raised {e : ε} (h : Triple P x Q E) (hs : P s) (hx : x s = .error e t) : E e t := by
  have hpost := h s hs
  rw [hx] at hpost
  exact hpost

theorem Triple.weaken (h : Triple P x Q E) (hP : ∀ s, P' s → P s) (hQ : ∀ a s, Q a s → Q' a s)
    (hE : ∀ e s, E e s → E' e s) : Triple P' x Q' E' := by
  intro s hs
  have hpost := h s (hP s hs)
  cases hx : x s with
  | ok a t =>
      rw [hx] at hpost
      exact hQ a t hpost
  | error e t =>
      rw [hx] at hpost
      exact hE e t hpost

theorem Triple.before (h : Triple P x Q E) (hP : ∀ s, P' s → P s) : Triple P' x Q E :=
  h.weaken hP (fun _ _ => id) (fun _ _ => id)

theorem Triple.after (h : Triple P x Q E) (hQ : ∀ a s, Q a s → Q' a s) : Triple P x Q' E :=
  h.weaken (fun _ => id) hQ (fun _ _ => id)

theorem Triple.onError (h : Triple P x Q E) (hE : ∀ e s, E e s → E' e s) : Triple P x Q E' :=
  h.weaken (fun _ => id) (fun _ _ => id) hE

/-- A fact that does not speak of the state comes out of the precondition. -/
theorem Triple.of_fact {p : Prop} (h : p → Triple P x Q E) : Triple (fun s => p ∧ P s) x Q E :=
  fun s hs => h hs.1 s hs.2

theorem Triple.of_exists {ι : Sort*} {F : ι → σ → Prop} (h : ∀ i, Triple (F i) x Q E) :
    Triple (fun s => ∃ i, F i s) x Q E := by
  rintro s ⟨i, hi⟩
  exact h i s hi

theorem Triple.pure {a : α} (h : ∀ s, P s → Q a s) : Triple P (Pure.pure a : Prog ε σ α) Q E :=
  fun s hs => h s hs

theorem Triple.throw {e : ε} (h : ∀ s, P s → E e s) :
    Triple P (MonadExcept.throw e : Prog ε σ α) Q E :=
  fun s hs => h s hs

/-- **Composition.** What holds between the two programs is what the first one leaves. -/
theorem Triple.bind {f : α → Prog ε σ β} (hx : Triple P x Q E) (hf : ∀ a, Triple (Q a) (f a) R E) :
    Triple P (x >>= f) R E := by
  intro s hs
  have hpost := hx s hs
  show Post R E (EStateM.bind x f s)
  unfold EStateM.bind
  cases hxs : x s with
  | ok a t =>
      rw [hxs] at hpost
      exact hf a t hpost
  | error e t =>
      rw [hxs] at hpost
      exact hpost

theorem Triple.ite {c : Prop} [Decidable c] {y : Prog ε σ α} (hx : c → Triple P x Q E)
    (hy : ¬ c → Triple P y Q E) : Triple P (if c then x else y) Q E := by
  split
  · rename_i hc
    exact hx hc
  · rename_i hc
    exact hy hc

theorem Triple.rethrow {f : ε → ε} (h : Triple P x Q (fun e => E (f e))) :
    Triple P (rethrow f x) Q E := by
  intro s hs
  have hpost := h s hs
  unfold Prog.rethrow
  cases hx : x s with
  | ok a t =>
      rw [hx] at hpost
      exact hpost
  | error e t =>
      rw [hx] at hpost
      exact hpost

theorem Triple.ensuring {last : σ → σ}
    (h : Triple P x (fun a s => Q a (last s)) (fun e s => E e (last s))) :
    Triple P (ensuring last x) Q E := by
  intro s hs
  have hpost := h s hs
  unfold Prog.ensuring
  cases hx : x s with
  | ok a t =>
      rw [hx] at hpost
      exact hpost
  | error e t =>
      rw [hx] at hpost
      exact hpost

/-! ## §3 Programs that begin alike -/

/-- Where the first program raises, the second one has raised the same. -/
def RaisesIn (x : Prog ε σ α) (y : Prog ε σ β) : Prop :=
  ∀ s e t, x s = .error e t → y s = .error e t

variable {γ : Type} {y : Prog ε σ β}

theorem RaisesIn.bind {f : γ → Prog ε σ α} {g : γ → Prog ε σ β} (z : Prog ε σ γ)
    (h : ∀ a, RaisesIn (f a) (g a)) : RaisesIn (z >>= f) (z >>= g) := by
  intro s e t hx
  replace hx : EStateM.bind z f s = .error e t := hx
  show EStateM.bind z g s = .error e t
  unfold EStateM.bind at hx ⊢
  cases hz : z s with
  | ok a u =>
      rw [hz] at hx
      exact h a u e t hx
  | error e' u =>
      rw [hz] at hx
      cases hx
      rfl

theorem RaisesIn.more (f : α → Prog ε σ β) : RaisesIn x (x >>= f) := by
  intro s e t hx
  show EStateM.bind x f s = .error e t
  unfold EStateM.bind
  rw [hx]

theorem RaisesIn.then {f : β → Prog ε σ γ} (h : RaisesIn x y) : RaisesIn x (y >>= f) :=
  fun s e t hx => RaisesIn.more f s e t (h s e t hx)

theorem RaisesIn.ensuring {last : σ → σ} (h : RaisesIn x y) :
    RaisesIn (ensuring last x) (ensuring last y) := by
  intro s e t hx
  unfold Prog.ensuring at hx ⊢
  cases hxs : x s with
  | ok a u =>
      rw [hxs] at hx
      cases hx
  | error e' u =>
      rw [hxs] at hx
      rw [h s e' u hxs]
      cases hx
      rfl

end Prog

end NetPulse.Lib
