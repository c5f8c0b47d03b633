import Mathlib.Tactic

/-!
# Byte images

A memory of bytes at natural addresses, and its bits: bit `n` of an image is bit `n % 8` of the
byte at `n / 8`. `setBit` changes one bit, `setBits` one bit after the other, `write` a range of
bytes, and `read` lists a range.
-/

namespace ByteImage

/-- A memory of bytes. -/
abbrev Image := ℕ → UInt8

variable (img : Image)

/-- The bit number `n`. -/
def bit (n : ℕ) : Bool := (img (n / 8)).toBitVec.getLsbD (n % 8)

/-- The image with bit number `n` set to `v`. -/
def setBit (n : ℕ) (v : Bool) : Image :=
  Function.update img (n / 8)
    (if v then ⟨(img (n / 8)).toBitVec ||| BitVec.twoPow 8 (n % 8)⟩
      else ⟨(img (n / 8)).toBitVec &&& ~~~ BitVec.twoPow 8 (n % 8)⟩)

/-- The image with `data` written from the address `a` on. -/
def write (a : ℕ) (data : List UInt8) : Image :=
  fun k => if a ≤ k then (data[k - a]?).getD (img k) else img k

/-- The `n` bytes from the address `a` on. -/
def read (a n : ℕ) : List UInt8 := (List.range n).map fun i => img (a + i)

variable {img}

theorem bit_setBit (n k : ℕ) (v : Bool) :
    bit (setBit img n v) k = if k = n then v else bit img k := by
  unfold bit setBit
  by_cases hbyte : k / 8 = n / 8
  · rw [hbyte, Function.update_self]
    have hk : k % 8 < 8 := Nat.mod_lt _ (by norm_num)
    by_cases hkn : k = n
    · subst hkn
      cases v <;> simp [hk]
    · have hmod : k % 8 ≠ n % 8 := by omega
      cases v <;> simp [hkn, hmod, hk]
  · have hkn : k ≠ n := fun h => hbyte (by rw [h])
    rw [Function.update_of_ne hbyte, if_neg hkn]

theorem setBit_of_div_ne {n a : ℕ} (h : a ≠ n / 8) (v : Bool) : setBit img n v a = img a :=
  Function.update_of_ne h _ _

theorem write_of_lt {a k : ℕ} (h : k < a) (data : List UInt8) : write img a data k = img k :=
  if_neg (by omega)

theorem write_of_ge {a k : ℕ} {data : List UInt8} (h : a + data.length ≤ k) :
    write img a data k = img k := by
  unfold write
  rw [if_pos (by omega), List.getElem?_eq_none (by omega), Option.getD_none]

@[simp] theorem write_nil (a : ℕ) : write img a [] = img := by
  funext k
  simp [write]

theorem write_add {a i : ℕ} {data : List UInt8} (h : i < data.length) :
    write img a data (a + i) = data[i] := by
  unfold write
  rw [if_pos (by omega), Nat.add_sub_cancel_left, List.getElem?_eq_getElem h, Option.getD_some]

/-- A write changes at most the bytes of its range. -/
theorem write_of_notMem {a k : ℕ} {data : List UInt8} (h : ¬ (a ≤ k ∧ k < a + data.length)) :
    write img a data k = img k := by
  by_cases hk : k < a
  · exact write_of_lt hk data
  · exact write_of_ge (by omega)

@[simp] theorem read_length (a n : ℕ) : (read img a n).length = n := by simp [read]

@[simp] theorem read_getElem (a n i : ℕ) (h : i < (read img a n).length) :
    (read img a n)[i] = img (a + i) := by simp [read]

/-- Reading a range back after writing it. -/
theorem read_write (a : ℕ) (data : List UInt8) : read (write img a data) a data.length = data := by
  refine List.ext_getElem (by simp) fun i h _ => ?_
  rw [read_getElem, write_add (by simpa using h)]

theorem take_read (a : ℕ) {m n : ℕ} (h : m ≤ n) : (read img a n).take m = read img a m := by
  unfold read
  rw [← List.map_take, List.take_range, Nat.min_eq_left h]

theorem read_congr {img' : Image} {a n : ℕ} (h : ∀ k, a ≤ k → k < a + n → img k = img' k) :
    read img a n = read img' a n := by
  refine List.ext_getElem (by simp) fun i hi _ => ?_
  rw [read_length] at hi
  rw [read_getElem, read_getElem]
  exact h (a + i) (by omega) (by omega)

/-- The bits of bytes that agree. -/
theorem bit_congr {img' : Image} {n : ℕ} (h : img (n / 8) = img' (n / 8)) :
    bit img n = bit img' n := by
  unfold bit
  rw [h]

/-- A byte is given by its bits. -/
theorem eq_of_bit {img' : Image} {a : ℕ} (h : ∀ k, k / 8 = a → bit img k = bit img' k) :
    img a = img' a := by
  apply UInt8.toBitVec_inj.mp
  apply BitVec.eq_of_getLsbD_eq
  intro i hi
  have hbit := h (8 * a + i) (by omega)
  unfold bit at hbit
  rwa [show (8 * a + i) / 8 = a by omega, show (8 * a + i) % 8 = i by omega] at hbit

/-- An image is given by its bits. -/
theorem ext_bit {img' : Image} (h : ∀ k, bit img k = bit img' k) : img = img' := by
  funext a
  exact eq_of_bit fun k _ => h k

theorem bit_write_of_notMem {a k : ℕ} {data : List UInt8}
    (h : ¬ (a ≤ k / 8 ∧ k / 8 < a + data.length)) : bit (write img a data) k = bit img k :=
  bit_congr (write_of_notMem h)

/-- The bits of a range that is written do not depend on the image before. -/
theorem bit_write_of_mem {img' : Image} {a k : ℕ} {data : List UInt8}
    (h : a ≤ k / 8 ∧ k / 8 < a + data.length) :
    bit (write img a data) k = bit (write img' a data) k := by
  have hbyte : ∀ m : Image, write m a data (k / 8) = data[k / 8 - a] := by
    intro m
    rw [← write_add (a := a) (by omega), show a + (k / 8 - a) = k / 8 by omega]
  apply bit_congr
  rw [hbyte, hbyte]

theorem write_singleton (a k : ℕ) (v : UInt8) :
    write img a [v] k = if k = a then v else img k := by
  by_cases hk : k = a
  · have hfirst : 0 < [v].length := Nat.zero_lt_one
    rw [if_pos hk, hk]
    exact write_add hfirst
  · rw [if_neg hk]
    exact write_of_notMem (by simp only [List.length_singleton]; omega)

theorem bit_write_zero (a k : ℕ) :
    bit (write img a [0]) k = if k / 8 = a then false else bit img k := by
  unfold bit
  rw [write_singleton]
  by_cases hk : k / 8 = a <;> simp [hk]

/-! ## One bit after the other -/

section SetBits

variable {ι : Type} (position : ι → ℕ) (value : ι → Bool)

/-- The image after the bits of the items in `l` have been set one after the other. -/
def setBits (img : Image) (l : List ι) : Image :=
  l.foldl (fun m i => setBit m (position i) (value i)) img

@[simp] theorem setBits_nil : setBits position value img [] = img := rfl

@[simp] theorem setBits_cons (i : ι) (l : List ι) :
    setBits position value img (i :: l) =
      setBits position value (setBit img (position i) (value i)) l := rfl

variable {position value}

theorem setBits_congr {value' : ι → Bool} {l : List ι} (h : ∀ i ∈ l, value i = value' i) :
    setBits position value img l = setBits position value' img l := by
  induction l generalizing img with
  | nil => rfl
  | cons i l ih =>
    rw [List.forall_mem_cons] at h
    rw [setBits_cons, setBits_cons, h.1, ih h.2]

/-- A bit that belongs to no item keeps its value. -/
theorem bit_setBits_of_notMem {k : ℕ} {l : List ι} (h : ∀ i ∈ l, k ≠ position i) :
    bit (setBits position value img l) k = bit img k := by
  induction l generalizing img with
  | nil => rfl
  | cons i l ih =>
    rw [List.forall_mem_cons] at h
    rw [setBits_cons, ih h.2, bit_setBit, if_neg h.1]

/-- A bit that is set in the end was set before, or by an item. -/
theorem bit_setBits_cases {k : ℕ} {l : List ι} (h : bit (setBits position value img l) k) :
    bit img k ∨ ∃ i ∈ l, k = position i ∧ value i := by
  induction l generalizing img with
  | nil => exact Or.inl h
  | cons i l ih =>
    obtain himg | ⟨j, hj, hpos⟩ := ih h
    · rw [bit_setBit] at himg
      by_cases hk : k = position i
      · rw [if_pos hk] at himg
        exact Or.inr ⟨i, List.mem_cons_self, hk, himg⟩
      · rw [if_neg hk] at himg
        exact Or.inl himg
    · exact Or.inr ⟨j, List.mem_cons_of_mem i hj, hpos⟩

/-- Where different items have different bits, the bit of every item has its value. -/
theorem bit_setBits_of_mem {l : List ι} (hnodup : l.Nodup)
    (hinj : ∀ i ∈ l, ∀ j ∈ l, position i = position j → i = j) {i : ι} (hi : i ∈ l) :
    bit (setBits position value img l) (position i) = value i := by
  induction l generalizing img with
  | nil => cases hi
  | cons j l ih =>
    rw [List.nodup_cons] at hnodup
    rw [setBits_cons]
    by_cases hmem : i ∈ l
    · exact ih hnodup.2 (fun a ha b hb =>
        hinj a (List.mem_cons_of_mem j ha) b (List.mem_cons_of_mem j hb)) hmem
    · obtain rfl : i = j := (List.mem_cons.mp hi).resolve_right hmem
      have hother : ∀ a ∈ l, position i ≠ position a := by
        intro a ha heq
        exact hmem (hinj i hi a (List.mem_cons_of_mem i ha) heq ▸ ha)
      rw [bit_setBits_of_notMem hother, bit_setBit, if_pos rfl]

/-- A bit that belongs to an item does not depend on the image before. -/
theorem bit_setBits_of_exists {img' : Image} {k : ℕ} {l : List ι} (h : ∃ i ∈ l, k = position i) :
    bit (setBits position value img l) k = bit (setBits position value img' l) k := by
  induction l generalizing img img' with
  | nil =>
    obtain ⟨i, hi, -⟩ := h
    cases hi
  | cons j l ih =>
    rw [setBits_cons, setBits_cons]
    by_cases hrest : ∃ i ∈ l, k = position i
    · exact ih hrest
    · obtain ⟨i, hi, hk⟩ := h
      have hother : ∀ i ∈ l, k ≠ position i := fun i hi hk => hrest ⟨i, hi, hk⟩
      obtain rfl : i = j := (List.mem_cons.mp hi).resolve_right fun hmem => hother i hmem hk
      rw [bit_setBits_of_notMem hother, bit_setBits_of_notMem hother, bit_setBit, bit_setBit,
        if_pos hk, if_pos hk]

end SetBits

/-- The image in which exactly the bit number `n` is set. -/
def oneHot (n : ℕ) : Image := setBit (fun _ => 0) n true

theorem bit_zero (k : ℕ) : bit (fun _ => 0) k = false := by simp [bit]

@[simp] theorem bit_oneHot (n k : ℕ) : bit (oneHot n) k = decide (k = n) := by
  unfold oneHot
  rw [bit_setBit, bit_zero]
  by_cases h : k = n <;> simp [h]

end ByteImage
