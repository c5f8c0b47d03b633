import RevPiModbus.Lib.Image

/-!
# Latched bytes with a reset bit

A latch of a byte image is a byte that keeps a value until a reset bit asks for it to be cleared.
Clearing a latch whose reset bit is set writes zero to its byte and takes the reset bit back.

* `clearLatch`, and `bit_clearLatch`, what it does to each bit;
* `clearLatch_comm`: separate latches can be cleared in either order;
* `clearLatches_perm`: so can a list of them, in any order.
-/

namespace ByteImage

/-- A latch: the number of its reset bit and the address of its byte. -/
structure Latch where
  reset : ℕ
  status : ℕ
  deriving DecidableEq, Repr

/-- Clear the byte of the latch and its reset bit, if the bit is set. -/
def clearLatch (img : Image) (l : Latch) : Image :=
  if bit img l.reset then setBit (write img l.status [0]) l.reset false else img

/-- Two latches of which neither touches the other. -/
structure Latch.Separate (l l' : Latch) : Prop where
  reset_ne : l.reset ≠ l'.reset
  status_ne : l.status ≠ l'.status
  reset_status : l.reset / 8 ≠ l'.status
  status_reset : l'.reset / 8 ≠ l.status

theorem Latch.Separate.symm {l l' : Latch} (h : l.Separate l') : l'.Separate l where
  reset_ne := h.reset_ne.symm
  status_ne := h.status_ne.symm
  reset_status := h.status_reset
  status_reset := h.reset_status

variable {img : Image}

theorem bit_clearLatch (l : Latch) (k : ℕ) :
    bit (clearLatch img l) k =
      (bit img k && !(bit img l.reset && (k = l.reset || k / 8 = l.status))) := by
  unfold clearLatch
  by_cases hreset : bit img l.reset = true
  · rw [if_pos hreset, bit_setBit, bit_write_zero, hreset]
    by_cases hk : k = l.reset <;> by_cases hbyte : k / 8 = l.status <;> simp [hk, hbyte]
  · rw [if_neg hreset]
    simp [hreset]

/-- A byte that is neither the byte of the latch nor that of its reset bit. -/
theorem clearLatch_of_ne {l : Latch} {a : ℕ} (hstatus : a ≠ l.status) (hreset : a ≠ l.reset / 8) :
    clearLatch img l a = img a := by
  unfold clearLatch
  by_cases h : bit img l.reset = true
  · rw [if_pos h, setBit_of_div_ne hreset, write_singleton, if_neg hstatus]
  · rw [if_neg h]

/-- The byte of the latch itself. -/
theorem clearLatch_status {l : Latch} (h : l.reset / 8 ≠ l.status) :
    clearLatch img l l.status = if bit img l.reset then 0 else img l.status := by
  unfold clearLatch
  by_cases hreset : bit img l.reset = true
  · rw [if_pos hreset, if_pos hreset, setBit_of_div_ne h.symm, write_singleton, if_pos rfl]
  · rw [if_neg hreset, if_neg hreset]

theorem bit_clearLatch_of_separate {l l' : Latch} (h : l.Separate l') :
    bit (clearLatch img l) l'.reset = bit img l'.reset := by
  rw [bit_clearLatch]
  simp [h.reset_ne.symm, h.status_reset]

/-- Separate latches can be cleared in either order. -/
theorem clearLatch_comm {l l' : Latch} (h : l.Separate l') :
    clearLatch (clearLatch img l) l' = clearLatch (clearLatch img l') l := by
  refine ext_bit fun k => ?_
  rw [bit_clearLatch, bit_clearLatch_of_separate h, bit_clearLatch, bit_clearLatch,
    bit_clearLatch_of_separate h.symm, bit_clearLatch]
  rw [Bool.and_right_comm]

/-- Clear the latches of a list one after the other. -/
def clearLatches (img : Image) (ls : List Latch) : Image := ls.foldl clearLatch img

/-- The order in which latches are cleared makes no difference. -/
theorem clearLatches_perm {ls ls' : List Latch} (hperm : ls.Perm ls')
    (hsep : ∀ l ∈ ls, ∀ l' ∈ ls, l ≠ l' → l.Separate l') (img : Image) :
    clearLatches img ls = clearLatches img ls' := by
  refine hperm.foldl_eq' (fun l hl l' hl' img' => ?_) img
  by_cases h : l = l'
  · rw [h]
  · exact clearLatch_comm (hsep l hl l' hl' h)

end ByteImage
