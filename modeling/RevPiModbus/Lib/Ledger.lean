import Mathlib.Tactic
import Mathlib.Data.Finset.Basic

/-!
# Ledgers

A ledger records which resources are held, and whether something was used or released that was not
held at that time.

* `acquire`, `use`, `release`, `releaseAll`;
* `Clean`: nothing was misused; `Settled`: and nothing is held any more.
-/

/-- The resources that are held, and whether one was misused. -/
structure Ledger (α : Type*) where
  held : Finset α
  misused : Bool
  deriving DecidableEq

namespace Ledger

variable {α : Type*}

/-- Nothing is held. -/
def empty : Ledger α := ⟨∅, false⟩

@[simp] theorem empty_held : (empty : Ledger α).held = ∅ := rfl

variable [DecidableEq α]

/-- A new resource. -/
def acquire (l : Ledger α) (a : α) : Ledger α := { l with held := insert a l.held }

/-- The use of a resource. -/
def use (l : Ledger α) (a : α) : Ledger α := { l with misused := l.misused || decide (a ∉ l.held) }

/-- The release of a resource. -/
def release (l : Ledger α) (a : α) : Ledger α :=
  ⟨l.held.erase a, l.misused || decide (a ∉ l.held)⟩

/-- The release of one resource after the other. -/
def releaseAll (l : Ledger α) (as : List α) : Ledger α := as.foldl release l

/-- Nothing was misused. -/
def Clean (l : Ledger α) : Prop := l.misused = false

/-- Nothing was misused, and everything has been released. -/
def Settled (l : Ledger α) : Prop := l.Clean ∧ l.held = ∅

instance (l : Ledger α) : Decidable l.Clean := inferInstanceAs (Decidable (_ = _))

instance (l : Ledger α) : Decidable l.Settled := inferInstanceAs (Decidable (_ ∧ _))

variable {l : Ledger α} {a : α} {as : List α}

@[simp] theorem acquire_held : (l.acquire a).held = insert a l.held := rfl

@[simp] theorem release_held : (l.release a).held = l.held.erase a := rfl

@[simp] theorem release_clean : (l.release a).Clean ↔ l.Clean ∧ a ∈ l.held := by
  simp [Clean, release]

@[simp] theorem releaseAll_nil : l.releaseAll [] = l := rfl

@[simp] theorem releaseAll_cons : l.releaseAll (a :: as) = (l.release a).releaseAll as := rfl

/-- What is left after many releases. -/
theorem releaseAll_held : (l.releaseAll as).held = l.held \ as.toFinset := by
  induction as generalizing l with
  | nil => simp
  | cons a as ih =>
    rw [releaseAll_cons, ih, release_held]
    ext x
    simp only [Finset.mem_sdiff, Finset.mem_erase, List.mem_toFinset, List.mem_cons, not_or]
    tauto

/-- Many releases are clean exactly if each resource is held, and none is released twice. -/
theorem releaseAll_clean :
    (l.releaseAll as).Clean ↔ l.Clean ∧ as.Nodup ∧ ∀ a ∈ as, a ∈ l.held := by
  induction as generalizing l with
  | nil => simp
  | cons a as ih =>
    rw [releaseAll_cons, ih, release_clean, release_held]
    simp only [Finset.mem_erase, List.nodup_cons, List.forall_mem_cons]
    constructor
    · rintro ⟨⟨hclean, ha⟩, hnodup, hall⟩
      exact ⟨hclean, ⟨fun hmem => (hall a hmem).1 rfl, hnodup⟩, ha, fun x hx => (hall x hx).2⟩
    · rintro ⟨hclean, ⟨hnotMem, hnodup⟩, ha, hall⟩
      refine ⟨⟨hclean, ha⟩, hnodup, fun x hx => ⟨?_, hall x hx⟩⟩
      rintro rfl
      exact hnotMem hx

/-- Many releases settle a ledger exactly if they release what is held, each resource once. -/
theorem releaseAll_settled :
    (l.releaseAll as).Settled ↔ l.Clean ∧ as.Nodup ∧ as.toFinset = l.held := by
  unfold Settled
  rw [releaseAll_clean, releaseAll_held, Finset.sdiff_eq_empty_iff_subset]
  constructor
  · rintro ⟨⟨hclean, hnodup, hall⟩, hsub⟩
    refine ⟨hclean, hnodup, Finset.Subset.antisymm ?_ hsub⟩
    exact fun a ha => hall a (List.mem_toFinset.mp ha)
  · rintro ⟨hclean, hnodup, heq⟩
    exact ⟨⟨hclean, hnodup, fun a ha => heq ▸ List.mem_toFinset.mpr ha⟩, heq.ge⟩

end Ledger
