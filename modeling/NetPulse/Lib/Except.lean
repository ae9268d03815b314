import Mathlib.Logic.Basic

/-
# NetPulse.Lib.Except — peeling a computation that can be refused

Each lemma says what the parts of a computation did when the whole of it succeeded.
-/

namespace NetPulse.Lib

variable {ε α β : Type}

theorem bind_eq_ok {x : Except ε α} {f : α → Except ε β} {b : β} :
    (x >>= f) = .ok b ↔ ∃ a, x = .ok a ∧ f a = .ok b := by
  cases x with
  | error e => simp [bind, Except.bind]
  | ok a => simp [bind, Except.bind]

theorem bind_eq_error {x : Except ε α} {f : α → Except ε β} {e : ε} :
    (x >>= f) = .error e ↔ x = .error e ∨ ∃ a, x = .ok a ∧ f a = .error e := by
  cases x with
  | error e' => simp [bind, Except.bind]
  | ok a => simp [bind, Except.bind]

theorem map_eq_ok {x : Except ε α} {f : α → β} {b : β} :
    x.map f = .ok b ↔ ∃ a, x = .ok a ∧ f a = b := by
  cases x with
  | error e => simp [Except.map]
  | ok a => simp [Except.map]

theorem ok_bind (a : α) (f : α → Except ε β) : ((.ok a : Except ε α) >>= f) = f a := rfl

theorem pure_eq_ok {a b : α} : (pure a : Except ε α) = .ok b ↔ a = b :=
  Except.ok.injEq a b ▸ Iff.rfl

theorem elim_eq_ok {o : Option α} {e : ε} {a : α} :
    (o.elim (.error e) .ok : Except ε α) = .ok a ↔ o = some a := by
  cases o with
  | none => exact iff_of_false (fun heq => by cases heq) (fun heq => by cases heq)
  | some b => rw [Option.elim_some, Except.ok.injEq, Option.some.injEq]

end NetPulse.Lib
