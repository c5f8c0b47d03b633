import Mathlib.Tactic
import Mathlib.Data.Set.Insert

/-!
# The first elements of an ordered set

`Enumerates r S l` says that the list `l` consists of the first `l.length` elements of the set
`S` in the order `r`: it is strictly increasing, it lies in `S`, and every element of `S` that it
leaves out comes after all it contains. Two such lists of one length are equal
(`Enumerates.unique`), so the property names one list.
-/

namespace Enumeration

variable {α : Type*} {r : α → α → Prop} {S : Set α} {l : List α}

/-- `l` lists the first `l.length` elements of `S` in the order `r`. -/
structure Enumerates (r : α → α → Prop) (S : Set α) (l : List α) : Prop where
  increasing : l.Pairwise r
  subset : ∀ a ∈ l, a ∈ S
  first : ∀ s ∈ S, s ∉ l → ∀ a ∈ l, r a s

/-- The head of an enumeration comes before every other element of the set. -/
theorem Enumerates.head_before {a : α} (h : Enumerates r S (a :: l)) {s : α} (hs : s ∈ S)
    (hsa : s ≠ a) : r a s := by
  by_cases hl : s ∈ l
  · exact List.rel_of_pairwise_cons h.increasing hl
  · exact h.first s hs (by simp [hsa, hl]) a (by simp)

theorem Enumerates.tail [Std.Irrefl r] {a : α} (h : Enumerates r S (a :: l)) :
    Enumerates r (S \ {a}) l where
  increasing := h.increasing.of_cons
  subset b hb := by
    refine ⟨h.subset b (by simp [hb]), fun hba => ?_⟩
    rw [Set.mem_singleton_iff.1 hba] at hb
    exact Std.Irrefl.irrefl a (List.rel_of_pairwise_cons h.increasing hb)
  first s hs hsl b hb := h.first s hs.1 (by simp [hsl, Set.mem_singleton_iff.not.1 hs.2]) b
    (by simp [hb])

/-- **A set has at most one enumeration of each length.** -/
theorem Enumerates.unique [Std.Irrefl r] [IsTrans α r] {l' : List α} (h : Enumerates r S l)
    (h' : Enumerates r S l') (hlen : l.length = l'.length) : l = l' := by
  induction l generalizing S l' with
  | nil => exact (List.length_eq_zero_iff.1 hlen.symm).symm
  | cons a l ih =>
    cases l' with
    | nil => simp at hlen
    | cons b l' =>
      have hab : a = b := by
        by_contra hne
        have h1 : r a b := h.head_before (h'.subset b (by simp)) (Ne.symm hne)
        have h2 : r b a := h'.head_before (h.subset a (by simp)) hne
        exact Std.Irrefl.irrefl a (IsTrans.trans a b a h1 h2)
      subst hab
      rw [ih h.tail h'.tail (by simpa using hlen)]

end Enumeration
