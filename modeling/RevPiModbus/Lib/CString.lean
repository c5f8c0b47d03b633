import Mathlib.Tactic
import Mathlib.Data.List.TakeWhile

/-!
# Character strings of C

A string is the list of its bytes before the terminator, each written as a character.

* `strtounsigned`: the conversion functions `strtoul` and `strtoumax` in base 10;
* `integer`: the integer that a string denotes; `strtounsigned_eq`: what the conversion makes of it;
* `decimal`: the number that a string of digits denotes, and nothing for any other string;
* `delimited`: the leftmost occurrence of a name between two equal delimiters.
-/

namespace CString

/-- `isspace` in the C locale. -/
def isSpace (c : Char) : Bool :=
  c == ' ' || (9 ≤ c.toNat && c.toNat ≤ 13)

/-- The number that the leading decimal digits of a string denote. -/
def digitsValue (s : List Char) : ℕ :=
  (s.takeWhile Char.isDigit).foldl (fun value c => 10 * value + (c.toNat - '0'.toNat)) 0

/-- Conversion to an unsigned integer of `bits` bits: white space and one sign are skipped, what
follows the digits is ignored, and a minus sign negates modulo `2 ^ bits`. The flag says that
`errno` becomes `ERANGE`. -/
def strtounsigned (bits : ℕ) (s : List Char) : ℕ × Bool :=
  let (negative, digits) :=
    match s.dropWhile isSpace with
    | '-' :: digits => (true, digits)
    | '+' :: digits => (false, digits)
    | digits => (false, digits)
  let value := digitsValue digits
  if value < 2 ^ bits then
    (if negative then (2 ^ bits - value) % 2 ^ bits else value, false)
  else
    (2 ^ bits - 1, true)

/-- The integer that a string denotes, whatever its size. -/
def integer (s : List Char) : ℤ :=
  match s.dropWhile isSpace with
  | '-' :: digits => -digitsValue digits
  | '+' :: digits => digitsValue digits
  | digits => digitsValue digits

/-- The sign and the digits that the conversion takes from a string. -/
theorem strtounsigned_cases (bits : ℕ) (s : List Char) :
    ∃ (negative : Bool) (value : ℕ),
      integer s = (if negative then -(value : ℤ) else value) ∧
      strtounsigned bits s =
        if value < 2 ^ bits then
          (if negative then (2 ^ bits - value) % 2 ^ bits else value, false)
        else (2 ^ bits - 1, true) := by
  unfold strtounsigned integer
  generalize s.dropWhile isSpace = t
  split
  · exact ⟨true, _, rfl, rfl⟩
  · exact ⟨false, _, rfl, rfl⟩
  · refine ⟨false, digitsValue t, rfl, ?_⟩
    split
    rename_i heq
    cases heq
    rfl

/-- A conversion without `ERANGE` is right modulo `2 ^ bits`. -/
theorem strtounsigned_eq {bits : ℕ} {s : List Char} (h : (strtounsigned bits s).2 = false) :
    ((strtounsigned bits s).1 : ℤ) = integer s % 2 ^ bits := by
  obtain ⟨negative, value, hinteger, hconversion⟩ := strtounsigned_cases bits s
  rw [hconversion] at h ⊢
  by_cases hvalue : value < 2 ^ bits
  · rw [if_pos hvalue, hinteger]
    cases negative with
    | false => exact (Int.emod_eq_of_lt (Int.natCast_nonneg _) (by exact_mod_cast hvalue)).symm
    | true =>
      rw [if_pos rfl, if_pos rfl, Int.natCast_mod, Nat.cast_sub hvalue.le]
      push_cast
      rw [sub_eq_neg_add, Int.add_emod_right]
  · rw [if_neg hvalue] at h
    cases h

/-- The number that a string of decimal digits denotes. -/
def decimal (s : List Char) : Option ℕ :=
  if !s.isEmpty && s.all Char.isDigit then some (digitsValue s) else none

theorem not_isSpace_of_isDigit {c : Char} (h : c.isDigit) : isSpace c = false := by
  have hlow : 48 ≤ c.toNat := by
    unfold Char.isDigit at h
    simp only [Bool.and_eq_true, decide_eq_true_eq, ge_iff_le, UInt32.le_iff_toNat_le] at h
    exact h.1
  unfold isSpace
  rw [Bool.or_eq_false_iff, Bool.and_eq_false_iff]
  constructor
  · rw [beq_eq_false_iff_ne]
    rintro rfl
    exact absurd hlow (by decide)
  · right
    rw [decide_eq_false_iff_not]
    omega

/-- The conversion of a string of digits. -/
theorem strtounsigned_of_decimal {s : List Char} {n : ℕ} (h : decimal s = some n) (bits : ℕ) :
    strtounsigned bits s = if n < 2 ^ bits then (n, false) else (2 ^ bits - 1, true) := by
  unfold decimal at h
  split_ifs at h with hdigits
  cases h
  rw [Bool.and_eq_true, List.all_eq_true] at hdigits
  obtain ⟨hne, hdigits⟩ := hdigits
  obtain ⟨c, t, rfl⟩ := List.exists_cons_of_ne_nil (by simpa using hne)
  have hc : c.isDigit := hdigits c (by simp)
  have hminus : c ≠ '-' := by
    rintro rfl
    exact absurd hc (by decide)
  have hplus : c ≠ '+' := by
    rintro rfl
    exact absurd hc (by decide)
  unfold strtounsigned
  rw [List.dropWhile_cons_of_neg (by simp [not_isSpace_of_isDigit hc])]
  split
  rename_i heq
  split at heq
  · simp_all
  · simp_all
  · cases heq
    rfl

/-- The leftmost part of a string that consists of `delimiter`, at least one other character, and
`delimiter` again, with the characters other than `delimiter` as many as there are. -/
def delimited (delimiter : Char) : List Char → Option (List Char)
  | [] => none
  | c :: s =>
    let name := s.takeWhile (· != delimiter)
    if c = delimiter ∧ name ≠ [] ∧ (s.drop name.length).head? = some delimiter then
      some (c :: name ++ [delimiter])
    else
      delimited delimiter s

/-- `found` is a name in delimiters, and stands behind `front` in `s`. -/
structure DelimitedAt (delimiter : Char) (s front found : List Char) : Prop where
  isDelimited : ∃ name, found = delimiter :: name ++ [delimiter] ∧ name ≠ [] ∧ delimiter ∉ name
  stands : front ++ found <+: s

variable {delimiter : Char} {s front found name : List Char}

/-- A name followed by its delimiter is the longest part without delimiters. -/
theorem takeWhile_of_notMem (h : delimiter ∉ name) (rest : List Char) :
    (name ++ delimiter :: rest).takeWhile (· != delimiter) = name := by
  rw [List.takeWhile_append_of_pos]
  · simp
  · intro c hc
    simp only [bne_iff_ne, ne_eq]
    rintro rfl
    exact h hc

/-- What stands at the very beginning of a string is found there. -/
theorem delimited_of_delimitedAt_nil (h : DelimitedAt delimiter s [] found) :
    delimited delimiter s = some found := by
  obtain ⟨⟨name, rfl, hne, hnotMem⟩, rest, rfl⟩ := h
  have hname := takeWhile_of_notMem hnotMem rest
  simp only [List.nil_append, List.cons_append, List.append_assoc]
  rw [delimited]
  simp [hname, hne]

/-- A string with nothing at its beginning is searched from its second character on. -/
theorem delimited_cons_of_none {c : Char}
    (h : ∀ found, ¬ DelimitedAt delimiter (c :: s) [] found) :
    delimited delimiter (c :: s) = delimited delimiter s := by
  rw [delimited, if_neg]
  rintro ⟨rfl, hne, hhead⟩
  set name := s.takeWhile (· != c) with hname
  obtain ⟨rest, hrest⟩ : ∃ rest, s.drop name.length = c :: rest := List.head?_eq_some_iff.mp hhead
  have hs : s = name ++ c :: rest := by
    rw [← hrest]
    exact (List.prefix_iff_eq_append.mp (List.takeWhile_prefix _)).symm
  refine h (c :: name ++ [c]) ⟨⟨name, rfl, hne, ?_⟩, ⟨rest, ?_⟩⟩
  · intro hmem
    simpa using List.mem_takeWhile_imp hmem
  · rw [hs]
    simp

theorem delimitedAt_cons_iff {c x : Char} :
    DelimitedAt delimiter (c :: s) (x :: front) found ↔
      x = c ∧ DelimitedAt delimiter s front found := by
  constructor
  · rintro ⟨hdelimited, hstands⟩
    rw [List.cons_append, List.cons_prefix_cons] at hstands
    exact ⟨hstands.1, hdelimited, hstands.2⟩
  · rintro ⟨rfl, hdelimited, hstands⟩
    exact ⟨hdelimited, by rwa [List.cons_append, List.cons_prefix_cons, and_iff_right rfl]⟩

/-- **What `delimited` finds** stands in the string, and nothing of the kind stands further left. -/
theorem delimited_leftmost (h : delimited delimiter s = some found) :
    ∃ front, DelimitedAt delimiter s front found ∧
      ∀ front' found', DelimitedAt delimiter s front' found' → front.length ≤ front'.length := by
  induction s with
  | nil => cases h
  | cons c s ih =>
    by_cases hfirst : ∃ found, DelimitedAt delimiter (c :: s) [] found
    · obtain ⟨first, hfirst⟩ := hfirst
      rw [delimited_of_delimitedAt_nil hfirst] at h
      cases h
      exact ⟨[], hfirst, fun _ _ _ => Nat.zero_le _⟩
    · rw [not_exists] at hfirst
      rw [delimited_cons_of_none hfirst] at h
      obtain ⟨front, hfront, hleast⟩ := ih h
      refine ⟨c :: front, delimitedAt_cons_iff.mpr ⟨rfl, hfront⟩, ?_⟩
      intro front' found' hfound
      cases front' with
      | nil => exact absurd hfound (hfirst found')
      | cons x front' =>
        exact Nat.succ_le_succ (hleast front' found' (delimitedAt_cons_iff.mp hfound).2)

/-- `delimited` finds nothing only where there is nothing. -/
theorem not_delimitedAt_of_none (h : delimited delimiter s = none) (front found : List Char) :
    ¬ DelimitedAt delimiter s front found := by
  induction s generalizing front with
  | nil =>
    rintro ⟨⟨name, rfl, -, -⟩, hstands⟩
    simp at hstands
  | cons c s ih =>
    intro hfound
    have hfirst : ∀ first, ¬ DelimitedAt delimiter (c :: s) [] first := by
      intro first hfirst
      rw [delimited_of_delimitedAt_nil hfirst] at h
      cases h
    rw [delimited_cons_of_none hfirst] at h
    cases front with
    | nil => exact hfirst found hfound
    | cons x front => exact ih h front (delimitedAt_cons_iff.mp hfound).2

/-- Only one name stands behind a front of given length. -/
theorem DelimitedAt.unique {front' found' : List Char} (h : DelimitedAt delimiter s front found)
    (h' : DelimitedAt delimiter s front' found') (hlength : front.length = front'.length) :
    found = found' := by
  obtain ⟨hdelimited, rest, hs⟩ := h
  obtain ⟨hdelimited', rest', hs'⟩ := h'
  have happend : front ++ (found ++ rest) = front' ++ (found' ++ rest') := by
    rw [← List.append_assoc, ← List.append_assoc, hs, hs']
  have hrest := (List.append_inj happend hlength).2
  have hfound := delimited_of_delimitedAt_nil
    (s := found ++ rest) ⟨hdelimited, List.prefix_append found rest⟩
  have hfound' := delimited_of_delimitedAt_nil
    (s := found ++ rest) ⟨hdelimited', by rw [hrest]; exact List.prefix_append found' rest'⟩
  rw [hfound] at hfound'
  exact Option.some.inj hfound'

/-- **`delimited` finds exactly** the leftmost name in delimiters. -/
theorem delimited_eq_some_iff :
    delimited delimiter s = some found ↔
      ∃ front, DelimitedAt delimiter s front found ∧
        ∀ front' found', DelimitedAt delimiter s front' found' → front.length ≤ front'.length := by
  constructor
  · exact delimited_leftmost
  · rintro ⟨front, hfront, hleast⟩
    cases h : delimited delimiter s with
    | none => exact absurd hfront (not_delimitedAt_of_none h front found)
    | some first =>
      obtain ⟨front', hfront', hleast'⟩ := delimited_leftmost h
      have hlength := le_antisymm (hleast front' first hfront') (hleast' front found hfront)
      rw [hfront.unique hfront' hlength]

end CString
