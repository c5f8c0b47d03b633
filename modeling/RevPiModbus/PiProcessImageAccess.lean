import RevPiModbus.Host

/-!
# The data of a Modbus slave and the process image

`piProcessImageAccess.c`: the two transfers between the mapping of libmodbus, which holds the data
of a slave, and the process image. Registers are kept in memory in little endian order.

* `ModbusMapping`, `modbusMappingNew`;
* `writeModbusDataToProcessImage`, `readModbusDataFromProcessImage`.
-/

namespace RevPiModbus

open ByteImage

variable {σ : Type}

/-- `modbus_mapping_t`; the numbers of items are the lengths of the tables. -/
structure ModbusMapping where
  tabBits : List UInt8
  tabInputBits : List UInt8
  tabInputRegisters : List UInt16
  tabRegisters : List UInt16
  deriving DecidableEq, Repr

/-- `modbus_mapping_new`, where the allocation succeeds: all items are zero. -/
def modbusMappingNew (config : TModbusSlaveDataSizeConfig) : ModbusMapping where
  tabBits := List.replicate config.u16Coils.toNat 0
  tabInputBits := List.replicate config.u16DiscreteInputs.toNat 0
  tabInputRegisters := List.replicate config.u16InputRegisters.toNat 0
  tabRegisters := List.replicate config.u16HoldingRegisters.toNat 0

/-- A table of registers as the bytes in memory. -/
def registerBytes : List UInt16 → List UInt8
  | [] => []
  | register :: tab => register.toUInt8 :: (register >>> 8).toUInt8 :: registerBytes tab

/-- The bytes in memory as a table of registers. -/
def bytesRegisters : List UInt8 → List UInt16
  | low :: high :: bytes => (low.toUInt16 ||| (high.toUInt16 <<< 8)) :: bytesRegisters bytes
  | _ => []

theorem bytesRegisters_length {data : List UInt8} {n : ℕ} (h : data.length = 2 * n) :
    (bytesRegisters data).length = n := by
  induction n generalizing data with
  | zero =>
    obtain rfl := List.length_eq_zero_iff.mp h
    rfl
  | succ n ih =>
    rcases data with _ | ⟨low, _ | ⟨high, data⟩⟩
    · simp at h
    · simp only [List.length_cons, List.length_nil] at h
      omega
    · simp only [List.length_cons] at h
      simp only [bytesRegisters, List.length_cons, @ih data (by omega)]

@[simp] theorem registerBytes_length (tab : List UInt16) :
    (registerBytes tab).length = 2 * tab.length := by
  induction tab with
  | nil => rfl
  | cons register tab ih =>
    simp only [registerBytes, List.length_cons, ih]
    omega

/-- The holding registers part of `writeModbusDataToProcessImage`. -/
def writeHoldingRegisters (host : Host σ) (mbMapping : ModbusMapping)
    (ptrSPiProcessImageOffsets : TProcessImageConfiguration) (successful : ℤ) (state : σ) : ℤ × σ :=
  if mbMapping.tabRegisters.length > 0 then
    host.piControlWrite ptrSPiProcessImageOffsets.u32HoldingRegistersInputOffset
      (registerBytes mbMapping.tabRegisters) state
  else
    (successful, state)

/-- `writeModbusDataToProcessImage`. -/
def writeModbusDataToProcessImage (host : Host σ) (mbMapping : ModbusMapping)
    (ptrSPiProcessImageOffsets : TProcessImageConfiguration) (state : σ) :
    Except Fault (ℤ × σ) := do
  if mbMapping.tabBits.length > 0 then
    let data ← bufferFront mbMapping.tabBits (mbMapping.tabBits.length / 8)
    let (successful, state) :=
      host.piControlWrite ptrSPiProcessImageOffsets.u32CoilsInputOffset data state
    if successful ≤ 0 then
      return (successful, state)
    else
      return writeHoldingRegisters host mbMapping ptrSPiProcessImageOffsets successful state
  else
    return writeHoldingRegisters host mbMapping ptrSPiProcessImageOffsets 0 state

/-- The input registers part of `readModbusDataFromProcessImage`. -/
def readInputRegisters (host : Host σ) (mbMapping : ModbusMapping)
    (ptrSPiProcessImageOffsets : TProcessImageConfiguration) (successful : ℤ) (state : σ) :
    Except Fault (ℤ × ModbusMapping × σ) := do
  if mbMapping.tabInputRegisters.length > 0 then
    let ((successful, data), state) :=
      host.piControlRead ptrSPiProcessImageOffsets.u32InputRegistersOffset
        (2 * mbMapping.tabInputRegisters.length) state
    let bytes ← overwrite (registerBytes mbMapping.tabInputRegisters) data
    return (successful, { mbMapping with tabInputRegisters := bytesRegisters bytes }, state)
  else
    return (successful, mbMapping, state)

/-- `readModbusDataFromProcessImage`. -/
def readModbusDataFromProcessImage (host : Host σ) (mbMapping : ModbusMapping)
    (ptrSPiProcessImageOffsets : TProcessImageConfiguration) (state : σ) :
    Except Fault (ℤ × ModbusMapping × σ) := do
  if mbMapping.tabInputBits.length > 0 then
    let ((successful, data), state) :=
      host.piControlRead ptrSPiProcessImageOffsets.u32DiscreteInputsOffset
        (mbMapping.tabInputBits.length / 8) state
    let bytes ← overwrite mbMapping.tabInputBits data
    let mbMapping := { mbMapping with tabInputBits := bytes }
    if successful ≤ 0 then
      return (successful, mbMapping, state)
    else
      readInputRegisters host mbMapping ptrSPiProcessImageOffsets successful state
  else
    readInputRegisters host mbMapping ptrSPiProcessImageOffsets 0 state

variable {host : Host σ} {mbMapping : ModbusMapping} {config : TProcessImageConfiguration}
  {state : σ}

/-- Without coils, the write transfers the holding registers and nothing else. -/
theorem writeModbusDataToProcessImage_eq (hhost : host.Succeeds)
    (config : TProcessImageConfiguration) (state : σ) (hbits : mbMapping.tabBits = []) :
    ∃ ret state', writeModbusDataToProcessImage host mbMapping config state = .ok (ret, state') ∧
      host.image state' = write (host.image state) config.u32HoldingRegistersInputOffset.toNat
        (registerBytes mbMapping.tabRegisters) := by
  unfold writeModbusDataToProcessImage writeHoldingRegisters
  rw [hbits, if_neg (by simp)]
  by_cases hregisters : mbMapping.tabRegisters.length > 0
  · rw [if_pos hregisters]
    exact ⟨_, _, rfl, hhost.write_image _ _ _⟩
  · rw [if_neg hregisters]
    have hnil : mbMapping.tabRegisters = [] := List.length_eq_zero_iff.mp (by omega)
    refine ⟨0, state, rfl, ?_⟩
    funext k
    rw [hnil]
    exact (write_of_notMem (by simp [registerBytes])).symm

theorem readInputRegisters_eq (hhost : host.Succeeds) (successful : ℤ) :
    ∃ ret mbMapping' state',
      readInputRegisters host mbMapping config successful state = .ok (ret, mbMapping', state') ∧
      mbMapping'.tabBits = mbMapping.tabBits ∧ mbMapping'.tabRegisters = mbMapping.tabRegisters ∧
      host.image state' = host.image state := by
  have hdata := hhost.read_data config.u32InputRegistersOffset
    (2 * mbMapping.tabInputRegisters.length) state
  rw [← registerBytes_length] at hdata
  unfold readInputRegisters
  by_cases hpos : mbMapping.tabInputRegisters.length > 0
  · rw [if_pos hpos]
    simp only [← registerBytes_length, overwrite_of hdata, ok_bind]
    exact ⟨_, _, _, rfl, rfl, rfl, hhost.read_image _ _ _⟩
  · rw [if_neg hpos]
    exact ⟨_, _, _, rfl, rfl, rfl, rfl⟩

/-- The read changes the tables of the inputs only. -/
theorem readModbusDataFromProcessImage_eq (hhost : host.Succeeds)
    (mbMapping : ModbusMapping) (config : TProcessImageConfiguration) (state : σ) :
    ∃ ret mbMapping' state',
      readModbusDataFromProcessImage host mbMapping config state = .ok (ret, mbMapping', state') ∧
      mbMapping'.tabBits = mbMapping.tabBits ∧ mbMapping'.tabRegisters = mbMapping.tabRegisters ∧
      host.image state' = host.image state := by
  have hdata := hhost.read_data config.u32DiscreteInputsOffset
    (mbMapping.tabInputBits.length / 8) state
  unfold readModbusDataFromProcessImage
  by_cases hpos : mbMapping.tabInputBits.length > 0
  · rw [if_pos hpos]
    simp only [overwrite_of (hdata.trans (Nat.div_le_self _ 8)), ok_bind]
    have himage := hhost.read_image config.u32DiscreteInputsOffset
      (mbMapping.tabInputBits.length / 8) state
    split_ifs
    · exact ⟨_, _, _, rfl, rfl, rfl, himage⟩
    · obtain ⟨ret, mbMapping', state', h, hbits, hregisters, hstate⟩ := readInputRegisters_eq
        hhost _
      exact ⟨ret, mbMapping', state', h, hbits, hregisters, hstate.trans himage⟩
  · rw [if_neg hpos]
    exact readInputRegisters_eq hhost 0

end RevPiModbus
