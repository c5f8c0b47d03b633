import Mathlib.Tactic

/-!
# Ways in which the C code can stop

The functions of the program that can abort the process, or whose behaviour C leaves undefined,
return `Except Fault`: a failed `assert`, a null pointer that is dereferenced or handed to a
function of `string.h`, an access past the end of a buffer, a division by zero.
-/

namespace RevPiModbus

/-- The reason why the process stops inside a function. -/
inductive Fault
  | assertFailed
  | nullPointer
  | outOfBounds
  | divisionByZero
  deriving DecidableEq, Repr

/-- `assert(p)`. -/
def cAssert (p : Prop) [Decidable p] : Except Fault Unit :=
  if p then .ok () else .error .assertFailed

theorem cAssert_of {p : Prop} [Decidable p] (h : p) : cAssert p = .ok () := if_pos h

theorem cAssert_of_not {p : Prop} [Decidable p] (h : ¬ p) : cAssert p = .error .assertFailed :=
  if_neg h

theorem cAssert_eq_ok {p : Prop} [Decidable p] {u : Unit} : cAssert p = .ok u ↔ p := by
  unfold cAssert
  split_ifs with h <;> simp [h]

section Bind

variable {ε α β : Type}

@[simp] theorem ok_bind (a : α) (f : α → Except ε β) : (Except.ok a >>= f) = f a := rfl

@[simp] theorem error_bind (e : ε) (f : α → Except ε β) : (Except.error e >>= f) = .error e := rfl

@[simp] theorem except_pure (a : α) : (pure a : Except ε α) = .ok a := rfl

/-- A sequence of two computations returns exactly when both do. -/
theorem bind_eq_ok {x : Except ε α} {f : α → Except ε β} {b : β} :
    x >>= f = .ok b ↔ ∃ a, x = .ok a ∧ f a = .ok b := by
  cases x with
  | error e => simp
  | ok a => simp

/-- A sequence fails in its first computation or in its second. -/
theorem bind_eq_error {x : Except ε α} {f : α → Except ε β} {e : ε} :
    x >>= f = .error e ↔ x = .error e ∨ ∃ a, x = .ok a ∧ f a = .error e := by
  cases x with
  | error e' => simp
  | ok a => simp

end Bind

end RevPiModbus
