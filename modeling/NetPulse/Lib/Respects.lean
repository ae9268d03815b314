import Mathlib.Logic.Basic

/-
# NetPulse.Lib.Respects — what does not tell two states apart

`Respects R f` says that `f` answers the same for states that `R` relates. With `R` as "alike but
for a secret" this is a two-run property, and the rules put it together along a computation that can
fail: a function of what respects `R`, a choice, and a step after another one.
-/

namespace NetPulse.Lib

variable {σ α β ε : Type}

/-- `f` does not tell related states apart. -/
def Respects (R : σ → σ → Prop) (f : σ → α) : Prop := ∀ s s', R s s' → f s = f s'

namespace Respects

variable {R : σ → σ → Prop}

theorem const (a : α) : Respects R fun _ => a := fun _ _ _ => rfl

theorem mono {R' : σ → σ → Prop} {f : σ → α} (hf : Respects R f) (hR : ∀ s s', R' s s' → R s s') :
    Respects R' f :=
  fun s s' h => hf s s' (hR s s' h)

/-- What only looks at a view does not tell states with one view apart. -/
theorem of_view {τ : Type} {view : σ → τ} {f : σ → α} (g : τ → α) (hg : ∀ s, g (view s) = f s)
    (hR : ∀ s s', R s s' → view s = view s') : Respects R f := by
  intro s s' h
  rw [← hg s, ← hg s', hR s s' h]

theorem cond {c : σ → Bool} {f g : σ → α} (hc : Respects R c) (hf : Respects R f)
    (hg : Respects R g) : Respects R fun s => if c s then f s else g s := by
  intro s s' h
  show (if c s then f s else g s) = if c s' then f s' else g s'
  rw [hc s s' h, hf s s' h, hg s s' h]

/-- **One step after another**, in a computation that can be refused. -/
theorem bind {f : σ → Except ε α} {g : α → σ → Except ε β} (hf : Respects R f)
    (hg : ∀ a, Respects R (g a)) : Respects R fun s => f s >>= fun a => g a s := by
  intro s s' h
  show (f s >>= fun a => g a s) = f s' >>= fun a => g a s'
  rw [hf s s' h]
  refine congrArg (f s' >>= ·) (funext fun a => ?_)
  exact hg a s s' h

end Respects

end NetPulse.Lib
