import RevPiModbus.SlaveDataFlow
import Mathlib.Data.List.GetD

/-!
# The bits of a slave

libmodbus keeps a coil or a discrete input as a byte, the process image as a bit. The two transfers
of `piProcessImageAccess.c` copy an eighth of the table as it stands.

* `areaBits`: the bits of an area as libmodbus keeps them;
* `CoilsWritten`, `InputsRead`: what the transfers are for;
* `eq_bitValue_iff`: a table that is its own packed form is 0 or 1, and then zeros;
* `copiedBit`: what a copy of the table leaves at the place of a coil;
* `CoilsFit`, `InputsFit`, `coilsWritten_iff`, `inputsRead_iff`: when the transfers do it.
-/

namespace RevPiModbus

open ByteImage

variable {σ : Type}

/-- A bit as libmodbus keeps it. -/
def bitValue (b : Bool) : UInt8 := if b then 1 else 0

/-- The `n` bits from the byte `offset` on, as libmodbus keeps them. -/
def areaBits (img : Image) (offset : UInt32) (n : ℕ) : List UInt8 :=
  (List.range n).map fun j => bitValue (bit img (8 * offset.toNat + j))

/-! ### Bits as bytes -/

@[simp] theorem bitValue_false : bitValue false = 0 := rfl

theorem bitValue_le_one (b : Bool) : bitValue b ≤ 1 := by
  cases b <;> decide

theorem eq_zero_or_one {x : UInt8} (h : x ≤ 1) : x = 0 ∨ x = 1 := by
  rw [UInt8.le_iff_toNat_le, show (1 : UInt8).toNat = 1 from rfl] at h
  rw [← UInt8.toNat_inj, ← UInt8.toNat_inj]
  change x.toNat = 0 ∨ x.toNat = 1
  omega

theorem getLsbD_eq_false {x : UInt8} (h : x ≤ 1) {k : ℕ} (hk : 0 < k) :
    x.toBitVec.getLsbD k = false := by
  obtain rfl | rfl := eq_zero_or_one h
  · exact BitVec.getLsbD_zero
  · exact BitVec.getLsbD_one.trans (by simp [hk.ne'])

/-- A table of bytes that is taken for packed bits comes out as it is exactly if its first entry is
a bit, and no other is set. -/
theorem eq_bitValue_iff {f : ℕ → UInt8} {n : ℕ} (hn : 0 < n) :
    (∀ j < n, f j = bitValue ((f (j / 8)).toBitVec.getLsbD (j % 8))) ↔
      f 0 ≤ 1 ∧ ∀ j < n, 0 < j → f j = 0 := by
  constructor
  · intro h
    have hfirst : f 0 ≤ 1 := by
      rw [h 0 hn]
      exact bitValue_le_one _
    refine ⟨hfirst, fun j => ?_⟩
    -- entry j is a bit of entry j / 8, which is the first one or off
    induction j using Nat.strong_induction_on with
    | _ j ih =>
      intro hj hpos
      rw [h j hj]
      rcases Nat.eq_zero_or_pos (j / 8) with hzero | hlater
      · rw [hzero, getLsbD_eq_false hfirst (by omega), bitValue_false]
      · rw [ih (j / 8) (by omega) (by omega) hlater]
        exact congrArg bitValue BitVec.getLsbD_zero
  · rintro ⟨hfirst, hoff⟩ j hj
    rcases Nat.eq_zero_or_pos j with rfl | hpos
    · obtain hbit | hbit := eq_zero_or_one hfirst <;> rw [Nat.zero_div, hbit] <;> rfl
    · rw [hoff j hj hpos]
      rcases Nat.eq_zero_or_pos (j / 8) with hzero | hlater
      · rw [hzero, getLsbD_eq_false hfirst (by omega), bitValue_false]
      · rw [hoff (j / 8) (by omega) hlater]
        exact (congrArg bitValue BitVec.getLsbD_zero).symm

/-! ### What the transfers are for -/

/-- After `writeModbusDataToProcessImage` the coil area holds the coils, and the area of the
holding registers holds the registers. -/
def CoilsWritten (host : Host σ) (m : ModbusMapping) (config : TProcessImageConfiguration)
    (state : σ) : Prop :=
  ∃ ret state', writeModbusDataToProcessImage host m config state = .ok (ret, state') ∧
    m.tabBits = areaBits (host.image state') config.u32CoilsInputOffset m.tabBits.length ∧
    read (host.image state') config.u32HoldingRegistersInputOffset.toNat
      (2 * m.tabRegisters.length) = registerBytes m.tabRegisters

/-- After `readModbusDataFromProcessImage` the discrete inputs are the bits of their area, and the
input registers are those of theirs. -/
def InputsRead (host : Host σ) (m : ModbusMapping) (config : TProcessImageConfiguration)
    (state : σ) : Prop :=
  ∃ ret m' state', readModbusDataFromProcessImage host m config state = .ok (ret, m', state') ∧
    m'.tabInputBits =
      areaBits (host.image state) config.u32DiscreteInputsOffset m.tabInputBits.length ∧
    m'.tabInputRegisters = windowRegisters (host.image state) config.u32InputRegistersOffset
      m.tabInputRegisters.length

/-! ## The coils -/

section Coils

variable {host : Host σ} {m : ModbusMapping} {config : TProcessImageConfiguration} {state : σ}

/-- The bit at the place of coil `j` once the first eighth of the coil table and then the registers
have been copied: it is of a register where the areas overlap, else of the byte `j / 8` of the table
as far as that was copied, else the old one. -/
def copiedBit (img : Image) (m : ModbusMapping) (config : TProcessImageConfiguration) (j : ℕ) :
    Bool :=
  let k := config.u32CoilsInputOffset.toNat + j / 8
  let registers := config.u32HoldingRegistersInputOffset.toNat
  if registers ≤ k ∧ k < registers + 2 * m.tabRegisters.length then
    ((registerBytes m.tabRegisters).getD (k - registers) 0).toBitVec.getLsbD (j % 8)
  else if j / 8 < m.tabBits.length / 8 then
    (m.tabBits.getD (j / 8) 0).toBitVec.getLsbD (j % 8)
  else
    bit img (8 * config.u32CoilsInputOffset.toNat + j)

/-- The registers are not written over the coils. -/
def AreasApart (m : ModbusMapping) (config : TProcessImageConfiguration) : Prop :=
  config.u32CoilsInputOffset.toNat + (m.tabBits.length + 7) / 8 ≤
      config.u32HoldingRegistersInputOffset.toNat ∨
    config.u32HoldingRegistersInputOffset.toNat + 2 * m.tabRegisters.length ≤
      config.u32CoilsInputOffset.toNat

instance (m : ModbusMapping) (config : TProcessImageConfiguration) :
    Decidable (AreasApart m config) :=
  inferInstanceAs (Decidable (_ ∨ _))

/-- Of the coils whose places are written at most the first is on, and the rest are in the image
already. -/
def CoilsLeft (img : Image) (m : ModbusMapping) (config : TProcessImageConfiguration) : Prop :=
  m.tabBits.getD 0 0 ≤ 1 ∧
  (∀ j < 8 * (m.tabBits.length / 8), 0 < j → m.tabBits.getD j 0 = 0) ∧
  ∀ j < m.tabBits.length, 8 * (m.tabBits.length / 8) ≤ j →
    m.tabBits.getD j 0 = bitValue (bit img (8 * config.u32CoilsInputOffset.toNat + j))

/-- The coils and registers come out right. There are no coils; or fewer than eight and the image
holds both already; or at least eight, and at most the first of them is on, but for the last few,
which are in the image. Where the registers are written over the coils, the coils have to be the
bits of what is there in the end. -/
def CoilsFit (img : Image) (m : ModbusMapping) (config : TProcessImageConfiguration) : Prop :=
  m.tabBits = [] ∨
  (m.tabBits.length < 8 ∧
    m.tabBits = areaBits img config.u32CoilsInputOffset m.tabBits.length ∧
    read img config.u32HoldingRegistersInputOffset.toNat (2 * m.tabRegisters.length) =
      registerBytes m.tabRegisters) ∨
  (8 ≤ m.tabBits.length ∧ AreasApart m config ∧ CoilsLeft img m config) ∨
  (8 ≤ m.tabBits.length ∧ ¬ AreasApart m config ∧
    ∀ j < m.tabBits.length, m.tabBits.getD j 0 = bitValue (copiedBit img m config j))

/-- The coils are the bits that the copies leave. -/
theorem coilsLeft_iff {img : Image} (hmany : 8 ≤ m.tabBits.length) (hapart : AreasApart m config) :
    CoilsLeft img m config ↔
      ∀ j < m.tabBits.length, m.tabBits.getD j 0 = bitValue (copiedBit img m config j) := by
  unfold AreasApart at hapart
  have hcopied : ∀ j < 8 * (m.tabBits.length / 8), copiedBit img m config j =
      (m.tabBits.getD (j / 8) 0).toBitVec.getLsbD (j % 8) := by
    intro j hj
    unfold copiedBit
    rw [if_neg (by omega), if_pos (by omega)]
  have hleft : ∀ j, 8 * (m.tabBits.length / 8) ≤ j → j < m.tabBits.length →
      copiedBit img m config j = bit img (8 * config.u32CoilsInputOffset.toNat + j) := by
    intro j hle hlt
    unfold copiedBit
    rw [if_neg (by omega), if_neg (by omega)]
  unfold CoilsLeft
  rw [← and_assoc, ← eq_bitValue_iff (f := fun j => m.tabBits.getD j 0) (by omega)]
  constructor
  · rintro ⟨hwritten, hrest⟩ j hj
    by_cases hless : j < 8 * (m.tabBits.length / 8)
    · rw [hcopied j hless]
      exact hwritten j hless
    · rw [hleft j (by omega) hj]
      exact hrest j hj (by omega)
  · intro h
    refine ⟨fun j hj => ?_, fun j hlt hle => ?_⟩
    · rw [h j (by omega), hcopied j hj]
    · rw [h j hlt, hleft j hle hlt]

/-- Eight coils or more come out right exactly if they are the bits that the copies leave. -/
theorem coilsFit_iff_of_many {img : Image} (hmany : 8 ≤ m.tabBits.length) :
    CoilsFit img m config ↔
      ∀ j < m.tabBits.length, m.tabBits.getD j 0 = bitValue (copiedBit img m config j) := by
  have hne : m.tabBits ≠ [] := List.length_pos_iff.1 (by omega)
  have hmany' : ¬ m.tabBits.length < 8 := by omega
  unfold CoilsFit
  by_cases hapart : AreasApart m config
  · simp only [hne, hmany', hmany, hapart, false_and, true_and, false_or, not_true_eq_false,
      or_false, coilsLeft_iff hmany hapart]
  · simp only [hne, hmany', hmany, hapart, false_and, true_and, false_or, not_false_eq_true]

/-- The table is the area, bit for bit. -/
theorem eq_areaBits_iff {img : Image} {tab : List UInt8} {offset : UInt32} :
    tab = areaBits img offset tab.length ↔
      ∀ j < tab.length, tab.getD j 0 = bitValue (bit img (8 * offset.toNat + j)) := by
  constructor
  · intro h j hj
    have hget := congrArg (fun l => l.getD j 0) h
    simpa [areaBits, hj] using hget
  · intro h
    refine List.ext_getElem (by simp [areaBits]) fun j hj _ => ?_
    have := h j hj
    rw [List.getD_eq_getElem _ _ hj] at this
    simpa [areaBits] using this

/-- The bits after a write of bytes. -/
theorem bit_write (img : Image) (a k : ℕ) (data : List UInt8) :
    bit (write img a data) k =
      if a ≤ k / 8 ∧ k / 8 < a + data.length then
        (data.getD (k / 8 - a) 0).toBitVec.getLsbD (k % 8)
      else bit img k := by
  split_ifs with h
  · have hk : k / 8 - a < data.length := by omega
    have hbyte : write img a data (a + (k / 8 - a)) = data[k / 8 - a] := write_add hk
    rw [show a + (k / 8 - a) = k / 8 by omega] at hbyte
    rw [bit, hbyte, List.getD_eq_getElem _ _ hk]
  · exact bit_write_of_notMem h

/-- The image that the write leaves. -/
theorem writeModbusDataToProcessImage_image (hhost : host.Succeeds) (m : ModbusMapping)
    (config : TProcessImageConfiguration) (state : σ) :
    ∃ ret state', writeModbusDataToProcessImage host m config state = .ok (ret, state') ∧
      host.image state' =
        if 0 < m.tabBits.length ∧ m.tabBits.length < 8 then host.image state
        else write (write (host.image state) config.u32CoilsInputOffset.toNat
            (m.tabBits.take (m.tabBits.length / 8)))
          config.u32HoldingRegistersInputOffset.toNat (registerBytes m.tabRegisters) := by
  by_cases hnil : m.tabBits = []
  · obtain ⟨ret, state', hwrite, himage⟩ :=
      writeModbusDataToProcessImage_eq hhost config state hnil
    refine ⟨ret, state', hwrite, ?_⟩
    rw [himage, hnil, if_neg (by simp), List.length_nil, List.take_nil, write_nil]
  have hpos : m.tabBits.length > 0 := List.length_pos_iff.2 hnil
  have hfront := bufferFront_of (Nat.div_le_self m.tabBits.length 8)
  have hret := hhost.write_ret config.u32CoilsInputOffset
    (m.tabBits.take (m.tabBits.length / 8)) state
  have himage := hhost.write_image config.u32CoilsInputOffset
    (m.tabBits.take (m.tabBits.length / 8)) state
  rw [List.length_take_of_le (Nat.div_le_self _ 8)] at hret
  unfold writeModbusDataToProcessImage
  rw [if_pos hpos, hfront, ok_bind]
  simp only [hret, except_pure]
  by_cases hfew : m.tabBits.length < 8
  · -- no whole byte: the transfer of zero bytes returns 0, which counts as a failure
    have hzero : m.tabBits.length / 8 = 0 := Nat.div_eq_of_lt hfew
    rw [if_pos (by omega), if_pos ⟨hpos, hfew⟩]
    refine ⟨_, _, rfl, ?_⟩
    rw [himage, hzero, List.take_zero, write_nil]
  · rw [if_neg (by omega), if_neg (by omega)]
    by_cases hregisters : m.tabRegisters.length > 0
    · rw [writeHoldingRegisters, if_pos hregisters]
      refine ⟨_, _, rfl, ?_⟩
      rw [hhost.write_image, himage]
    · rw [writeHoldingRegisters, if_neg hregisters]
      refine ⟨_, _, rfl, ?_⟩
      have hnone : m.tabRegisters = [] := List.length_eq_zero_iff.1 (by omega)
      rw [himage, hnone, registerBytes, write_nil]

/-- The bit at the place of a coil when both tables have been copied. -/
theorem bit_copied (img : Image) {j : ℕ} :
    bit (write (write img config.u32CoilsInputOffset.toNat
        (m.tabBits.take (m.tabBits.length / 8)))
      config.u32HoldingRegistersInputOffset.toNat (registerBytes m.tabRegisters))
      (8 * config.u32CoilsInputOffset.toNat + j) = copiedBit img m config j := by
  have hdiv : (8 * config.u32CoilsInputOffset.toNat + j) / 8 =
      config.u32CoilsInputOffset.toNat + j / 8 := by omega
  have hmod : (8 * config.u32CoilsInputOffset.toNat + j) % 8 = j % 8 := by omega
  rw [bit_write, bit_write, hdiv, hmod, registerBytes_length,
    List.length_take_of_le (Nat.div_le_self _ 8), Nat.add_sub_cancel_left]
  unfold copiedBit
  congr 1
  by_cases hj : j / 8 < m.tabBits.length / 8
  · rw [if_pos hj, if_pos (by omega), List.getD_eq_getElem?_getD, List.getElem?_take_of_lt hj,
      ← List.getD_eq_getElem?_getD]
  · rw [if_neg hj, if_neg (by omega)]

/-- The image after the write says whether the coils are written. -/
theorem coilsWritten_iff_of {ret : ℤ} {state' : σ}
    (hwrite : writeModbusDataToProcessImage host m config state = .ok (ret, state')) :
    CoilsWritten host m config state ↔
      m.tabBits = areaBits (host.image state') config.u32CoilsInputOffset m.tabBits.length ∧
      read (host.image state') config.u32HoldingRegistersInputOffset.toNat
        (2 * m.tabRegisters.length) = registerBytes m.tabRegisters := by
  unfold CoilsWritten
  rw [hwrite]
  simp only [Except.ok.injEq, Prod.mk.injEq]
  constructor
  · rintro ⟨_, _, ⟨rfl, rfl⟩, h⟩
    exact h
  · exact fun h => ⟨ret, state', ⟨rfl, rfl⟩, h⟩

/-- **When the coils are written.** -/
theorem coilsWritten_iff (hhost : host.Succeeds) :
    CoilsWritten host m config state ↔ CoilsFit (host.image state) m config := by
  obtain ⟨ret, state', hwrite, himage⟩ := writeModbusDataToProcessImage_image hhost m config state
  rw [coilsWritten_iff_of hwrite]
  by_cases hfew : 0 < m.tabBits.length ∧ m.tabBits.length < 8
  · rw [himage, if_pos hfew]
    unfold CoilsFit
    constructor
    · exact fun h => Or.inr (Or.inl ⟨hfew.2, h⟩)
    · rintro (hnil | ⟨-, h⟩ | ⟨hmany, -⟩ | ⟨hmany, -⟩)
      · simp [hnil] at hfew
      · exact h
      · omega
      · omega
  · rw [if_neg hfew] at himage
    have hregisters : read (host.image state') config.u32HoldingRegistersInputOffset.toNat
        (2 * m.tabRegisters.length) = registerBytes m.tabRegisters := by
      rw [himage, ← registerBytes_length, read_write]
    rw [eq_areaBits_iff, and_iff_left hregisters]
    simp only [himage, bit_copied]
    by_cases hnil : m.tabBits = []
    · exact iff_of_true (fun j hj => by simp [hnil] at hj) (Or.inl hnil)
    · have := List.length_pos_iff.2 hnil
      exact (coilsFit_iff_of_many (by omega)).symm

end Coils

/-! ## The discrete inputs -/

section Inputs

variable {host : Host σ} {m : ModbusMapping} {config : TProcessImageConfiguration} {state : σ}

/-- The inputs come out right. There are no discrete inputs; or fewer than eight and the tables are
up to date already; or at least eight, and of the bytes that are copied the first is 0 or 1 and the
others are 0, and the inputs that no byte is copied to are up to date. -/
def InputsFit (img : Image) (m : ModbusMapping) (config : TProcessImageConfiguration) : Prop :=
  m.tabInputBits = [] ∨
  (m.tabInputBits.length < 8 ∧
    m.tabInputBits = areaBits img config.u32DiscreteInputsOffset m.tabInputBits.length ∧
    m.tabInputRegisters =
      windowRegisters img config.u32InputRegistersOffset m.tabInputRegisters.length) ∨
  (8 ≤ m.tabInputBits.length ∧ img config.u32DiscreteInputsOffset.toNat ≤ 1 ∧
    (∀ j < m.tabInputBits.length / 8, 0 < j →
      img (config.u32DiscreteInputsOffset.toNat + j) = 0) ∧
    ∀ j < m.tabInputBits.length, m.tabInputBits.length / 8 ≤ j →
      m.tabInputBits.getD j 0 = bitValue (bit img (8 * config.u32DiscreteInputsOffset.toNat + j)))

/-- Eight inputs or more come out right exactly if the bytes that are copied, and the entries that
are left, are the bits. -/
theorem inputsFit_iff_of_many {img : Image} (hmany : 8 ≤ m.tabInputBits.length) :
    InputsFit img m config ↔ ∀ j < m.tabInputBits.length,
      (if j < m.tabInputBits.length / 8 then img (config.u32DiscreteInputsOffset.toNat + j)
        else m.tabInputBits.getD j 0) =
        bitValue (bit img (8 * config.u32DiscreteInputsOffset.toNat + j)) := by
  have hne : m.tabInputBits ≠ [] := List.length_pos_iff.1 (by omega)
  have hmany' : ¬ m.tabInputBits.length < 8 := by omega
  have hbit : ∀ j, bit img (8 * config.u32DiscreteInputsOffset.toNat + j) =
      (img (config.u32DiscreteInputsOffset.toNat + j / 8)).toBitVec.getLsbD (j % 8) := by
    intro j
    rw [bit, show (8 * config.u32DiscreteInputsOffset.toNat + j) / 8 =
      config.u32DiscreteInputsOffset.toNat + j / 8 by omega,
      show (8 * config.u32DiscreteInputsOffset.toNat + j) % 8 = j % 8 by omega]
  have hpacked := eq_bitValue_iff (f := fun j => img (config.u32DiscreteInputsOffset.toNat + j))
    (n := m.tabInputBits.length / 8) (by omega)
  rw [Nat.add_zero] at hpacked
  unfold InputsFit
  simp only [hne, hmany', hmany, false_and, true_and, false_or]
  rw [← and_assoc, ← hpacked]
  simp only [← hbit]
  constructor
  · rintro ⟨hcopied, hrest⟩ j hj
    split_ifs with hless
    · exact hcopied j hless
    · exact hrest j hj (by omega)
  · intro h
    refine ⟨fun j hj => ?_, fun j hlt hle => ?_⟩
    · have := h j (by omega)
      rwa [if_pos hj] at this
    · have := h j hlt
      rwa [if_neg (by omega)] at this

/-- The tables that the read leaves. -/
theorem readModbusDataFromProcessImage_tables (hhost : host.Succeeds) (m : ModbusMapping)
    (config : TProcessImageConfiguration) (state : σ) :
    ∃ ret m' state', readModbusDataFromProcessImage host m config state = .ok (ret, m', state') ∧
      m'.tabInputBits = read (host.image state) config.u32DiscreteInputsOffset.toNat
        (m.tabInputBits.length / 8) ++ m.tabInputBits.drop (m.tabInputBits.length / 8) ∧
      m'.tabInputRegisters =
        if 0 < m.tabInputBits.length ∧ m.tabInputBits.length < 8 then m.tabInputRegisters
        else windowRegisters (host.image state) config.u32InputRegistersOffset
          m.tabInputRegisters.length := by
  by_cases hpos : m.tabInputBits.length > 0
  · have hdata := hhost.read_eq config.u32DiscreteInputsOffset (m.tabInputBits.length / 8) state
    have hret := hhost.read_ret config.u32DiscreteInputsOffset (m.tabInputBits.length / 8) state
    have himage := hhost.read_image config.u32DiscreteInputsOffset
      (m.tabInputBits.length / 8) state
    have hoverwrite : overwrite m.tabInputBits
        (host.piControlRead config.u32DiscreteInputsOffset (m.tabInputBits.length / 8) state).1.2 =
        .ok (read (host.image state) config.u32DiscreteInputsOffset.toNat
          (m.tabInputBits.length / 8) ++ m.tabInputBits.drop (m.tabInputBits.length / 8)) := by
      rw [hdata, overwrite_of (by rw [read_length]; exact Nat.div_le_self _ 8), read_length]
    unfold readModbusDataFromProcessImage
    rw [if_pos hpos]
    simp only [hoverwrite, ok_bind, hret, except_pure]
    by_cases hfew : m.tabInputBits.length < 8
    · -- no whole byte: the registers are not read
      rw [if_pos (by omega), if_pos ⟨hpos, hfew⟩]
      exact ⟨_, _, _, rfl, rfl, rfl⟩
    · rw [if_neg (by omega), if_neg (by omega)]
      generalize read (host.image state) config.u32DiscreteInputsOffset.toNat
        (m.tabInputBits.length / 8) ++ m.tabInputBits.drop (m.tabInputBits.length / 8) = tab
      generalize (host.piControlRead config.u32DiscreteInputsOffset
        (m.tabInputBits.length / 8) state).2 = state₁ at himage
      obtain ⟨ret, state', hregisters, -⟩ := readInputRegisters_window hhost
        { m with tabInputBits := tab } config ((m.tabInputBits.length / 8 : ℕ) : ℤ) state₁
      rw [hregisters, himage]
      exact ⟨_, _, _, rfl, rfl, rfl⟩
  · have hnil : m.tabInputBits = [] := List.length_eq_zero_iff.1 (by omega)
    obtain ⟨ret, state', hread, -⟩ := readInputRegisters_window hhost m config 0 state
    unfold readModbusDataFromProcessImage
    rw [if_neg hpos, hread, if_neg (by omega)]
    exact ⟨_, _, _, rfl, by simp [ModbusMapping.refreshed, hnil, ByteImage.read], rfl⟩

/-- The tables after the read say whether the inputs are read. -/
theorem inputsRead_iff_of {ret : ℤ} {m' : ModbusMapping} {state' : σ}
    (hread : readModbusDataFromProcessImage host m config state = .ok (ret, m', state')) :
    InputsRead host m config state ↔
      m'.tabInputBits =
        areaBits (host.image state) config.u32DiscreteInputsOffset m.tabInputBits.length ∧
      m'.tabInputRegisters = windowRegisters (host.image state) config.u32InputRegistersOffset
        m.tabInputRegisters.length := by
  unfold InputsRead
  rw [hread]
  simp only [Except.ok.injEq, Prod.mk.injEq]
  constructor
  · rintro ⟨_, _, _, ⟨rfl, rfl, rfl⟩, h⟩
    exact h
  · exact fun h => ⟨ret, m', state', ⟨rfl, rfl, rfl⟩, h⟩

/-- The entries of a table whose first part has been read. -/
theorem getD_read_append (img : Image) (a n j : ℕ) (tab : List UInt8) :
    (read img a n ++ tab.drop n).getD j 0 = if j < n then img (a + j) else tab.getD j 0 := by
  rw [List.getD_eq_getElem?_getD]
  split_ifs with h
  · rw [List.getElem?_append_left (by simpa using h)]
    simp [ByteImage.read, h]
  · rw [List.getElem?_append_right (by simpa using h), read_length, List.getElem?_drop,
      Nat.add_sub_cancel' (by omega), List.getD_eq_getElem?_getD]

/-- **When the inputs are read.** -/
theorem inputsRead_iff (hhost : host.Succeeds) :
    InputsRead host m config state ↔ InputsFit (host.image state) m config := by
  obtain ⟨ret, m', state', hread, hbits, hregisters⟩ :=
    readModbusDataFromProcessImage_tables hhost m config state
  have hlength : m'.tabInputBits.length = m.tabInputBits.length := by
    rw [hbits, List.length_append, read_length, List.length_drop]
    omega
  have hget : ∀ j, m'.tabInputBits.getD j 0 =
      if j < m.tabInputBits.length / 8 then
        host.image state (config.u32DiscreteInputsOffset.toNat + j)
      else m.tabInputBits.getD j 0 := by
    intro j
    rw [hbits, getD_read_append]
  rw [inputsRead_iff_of hread, hregisters, ← hlength, eq_areaBits_iff, hlength]
  by_cases hfew : 0 < m.tabInputBits.length ∧ m.tabInputBits.length < 8
  · rw [if_pos hfew]
    have hold : (∀ j < m.tabInputBits.length, m'.tabInputBits.getD j 0 =
        bitValue (bit (host.image state) (8 * config.u32DiscreteInputsOffset.toNat + j))) ↔
        m.tabInputBits = areaBits (host.image state) config.u32DiscreteInputsOffset
          m.tabInputBits.length := by
      rw [eq_areaBits_iff]
      refine forall₂_congr fun j hj => ?_
      rw [hget j, if_neg (by omega)]
    rw [hold]
    unfold InputsFit
    constructor
    · exact fun h => Or.inr (Or.inl ⟨hfew.2, h⟩)
    · rintro (hnil | ⟨-, h⟩ | ⟨hmany, -⟩)
      · simp [hnil] at hfew
      · exact h
      · omega
  · rw [if_neg hfew, and_iff_left rfl]
    simp only [hget]
    by_cases hnil : m.tabInputBits = []
    · exact iff_of_true (fun j hj => by simp [hnil] at hj) (Or.inl hnil)
    · have := List.length_pos_iff.2 hnil
      exact (inputsFit_iff_of_many (by omega)).symm

end Inputs

/-! ## Both -/

/-- **When the bit areas of a slave are copied losslessly.** The coils with their registers, and
the discrete inputs with theirs. -/
theorem slaveBits_iff {host : Host σ} (hhost : host.Succeeds) (m : ModbusMapping)
    (config : TProcessImageConfiguration) (state : σ) :
    (CoilsWritten host m config state ↔ CoilsFit (host.image state) m config) ∧
      (InputsRead host m config state ↔ InputsFit (host.image state) m config) :=
  ⟨coilsWritten_iff hhost, inputsRead_iff hhost⟩

/-- Nine coils, the first and the last of which are on, nine discrete inputs, and a register. -/
def nineBits : ModbusMapping :=
  ⟨[1, 0, 0, 0, 0, 0, 0, 0, 1], [0, 0, 0, 0, 0, 0, 0, 0, 1], [], [0x1234]⟩

/-- The coils at byte 20, the inputs at byte 40, the register at byte 30. -/
def nineBitsConfig : TProcessImageConfiguration := ⟨40, 9, 20, 9, 0, 0, 30, 2⟩

/-- The last coil is on, and the first and the last input. -/
def nineBitsImage : Image := fun k => if k = 21 ∨ k = 40 ∨ k = 41 then 1 else 0

/-- The bits are of the kind that comes out right, and so they do. -/
theorem slaveBits_iff_nine :
    (CoilsFit nineBitsImage nineBits nineBitsConfig ∧
      CoilsWritten (imageHost fun _ => ⟨-1, 0, []⟩) nineBits nineBitsConfig nineBitsImage) ∧
    (InputsFit nineBitsImage nineBits nineBitsConfig ∧
      InputsRead (imageHost fun _ => ⟨-1, 0, []⟩) nineBits nineBitsConfig nineBitsImage) := by
  have hcoils : CoilsFit nineBitsImage nineBits nineBitsConfig :=
    .inr (.inr (.inl ⟨by decide, by decide, by decide, by decide, by decide⟩))
  have hinputs : InputsFit nineBitsImage nineBits nineBitsConfig :=
    .inr (.inr ⟨by decide, by decide, by decide, by decide⟩)
  have hhost : (imageHost fun _ => ⟨-1, 0, []⟩).Succeeds :=
    imageHost_succeeds fun c => by cases c <;> rfl
  have hiff := slaveBits_iff hhost nineBits nineBitsConfig nineBitsImage
  exact ⟨⟨hcoils, hiff.1.mpr hcoils⟩, hinputs, hiff.2.mpr hinputs⟩

/-- Four coils that are set, and a register. -/
def fourCoils : ModbusMapping := ⟨[1, 1, 1, 1], [], [], [0x1234]⟩

/-- The coils at byte 20, the register at byte 30. -/
def fourCoilsConfig : TProcessImageConfiguration := ⟨0, 0, 20, 4, 0, 0, 30, 2⟩

/-- Neither the coils nor the register arrive. -/
theorem not_coilsWritten_four :
    ¬ CoilsWritten (imageHost fun _ => ⟨-1, 0, []⟩) fourCoils fourCoilsConfig (fun _ => 0) := by
  rw [coilsWritten_iff (imageHost_succeeds fun c => by cases c <;> rfl)]
  rintro (hnil | ⟨-, hcoils, -⟩ | ⟨hmany, -⟩ | ⟨hmany, -⟩)
  · cases hnil
  · exact absurd hcoils (by decide)
  · exact absurd hmany (by decide)
  · exact absurd hmany (by decide)

end RevPiModbus
