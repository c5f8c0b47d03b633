import Mathlib.Data.List.Basic
import Mathlib.Tactic.Common

/-!
# Slices of a list

A list as a table of items at the positions `0, 1, …`, of which several in a row are read or
replaced at once.

* `slice`, `splice`: read `n` items from a position on, and put items there;
* `slice_splice`, `slice_splice_of_disjoint`: what is read afterwards, there and elsewhere.
-/

namespace Slice

variable {α : Type*} {l v : List α} {i j n : ℕ}

/-- The `n` items from position `i` on. -/
def slice (l : List α) (i n : ℕ) : List α := (l.drop i).take n

/-- The list with the items `v` from position `i` on. -/
def splice (l : List α) (i : ℕ) (v : List α) : List α := l.take i ++ (v ++ l.drop (i + v.length))

theorem getElem?_slice (l : List α) (i n k : ℕ) :
    (slice l i n)[k]? = if k < n then l[i + k]? else none := by
  unfold slice
  rw [List.getElem?_take, List.getElem?_drop]

theorem slice_length (h : i + n ≤ l.length) : (slice l i n).length = n := by
  unfold slice
  rw [List.length_take, List.length_drop]
  omega

theorem splice_length (h : i + v.length ≤ l.length) : (splice l i v).length = l.length := by
  unfold splice
  simp only [List.length_append, List.length_take, List.length_drop]
  omega

/-- The items that have been put there. -/
theorem slice_splice (h : i + v.length ≤ l.length) : slice (splice l i v) i v.length = v := by
  have hlength : (l.take i).length = i := by
    rw [List.length_take]
    omega
  unfold slice splice
  rw [List.drop_left' hlength, List.take_left]

theorem getElem?_splice_of_lt {k : ℕ} (h : i + v.length ≤ l.length) (hk : k < i) :
    (splice l i v)[k]? = l[k]? := by
  unfold splice
  rw [List.getElem?_append_left (by rw [List.length_take]; omega), List.getElem?_take, if_pos hk]

theorem getElem?_splice_of_ge {k : ℕ} (h : i + v.length ≤ l.length) (hk : i + v.length ≤ k) :
    (splice l i v)[k]? = l[k]? := by
  have hlength : (l.take i).length = i := by
    rw [List.length_take]
    omega
  unfold splice
  rw [List.getElem?_append_right (by omega), hlength, List.getElem?_append_right (by omega),
    List.getElem?_drop]
  congr 1
  omega

/-- The items elsewhere. -/
theorem slice_splice_of_disjoint (h : i + v.length ≤ l.length)
    (hdisjoint : j + n ≤ i ∨ i + v.length ≤ j) : slice (splice l i v) j n = slice l j n := by
  apply List.ext_getElem?
  intro k
  rw [getElem?_slice, getElem?_slice]
  by_cases hk : k < n
  · rw [if_pos hk, if_pos hk]
    obtain hbefore | hafter := hdisjoint
    · exact getElem?_splice_of_lt h (by omega)
    · exact getElem?_splice_of_ge h (by omega)
  · rw [if_neg hk, if_neg hk]

end Slice
