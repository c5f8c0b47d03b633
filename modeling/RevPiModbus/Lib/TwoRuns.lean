import Mathlib.Tactic

/-!
# Two runs of a computation that can fail

`Agree R x y`: both computations fail in the same way, or both return, and what they return is
related by `R`. The rules follow two runs of one program through its steps.
-/

namespace TwoRuns

variable {ε α β : Type}

/-- Two computations that fail alike or return related values. -/
inductive Agree (R : α → β → Prop) : Except ε α → Except ε β → Prop
  | ok {a : α} {b : β} (h : R a b) : Agree R (.ok a) (.ok b)
  | error (e : ε) : Agree R (.error e) (.error e)

variable {R : α → β → Prop} {x : Except ε α} {y : Except ε β}

/-- One computation in both runs. -/
theorem Agree.refl (x : Except ε α) : Agree (fun a b => a = b) x x := by
  cases x with
  | error e => exact .error e
  | ok a => exact .ok rfl

/-- Runs are compared step by step. -/
theorem Agree.bind {γ δ : Type} {S : γ → δ → Prop} {f : α → Except ε γ} {g : β → Except ε δ}
    (h : Agree R x y) (hfg : ∀ a b, R a b → Agree S (f a) (g b)) :
    Agree S (x >>= f) (y >>= g) := by
  cases h with
  | error e => exact .error e
  | ok h => exact hfg _ _ h

/-- What cannot tell related values apart cannot tell the runs apart. -/
theorem Agree.map_eq {γ : Type} {f : α → γ} {g : β → γ} (h : Agree R x y)
    (hfg : ∀ a b, R a b → f a = g b) : x.map f = y.map g := by
  cases h with
  | error e => rfl
  | ok h => exact congrArg Except.ok (hfg _ _ h)

end TwoRuns
