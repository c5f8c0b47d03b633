import RevPiModbus.PiConfigDevices
import RevPiModbus.ActionList
import RevPiModbus.SlaveDataFlow

/-!
# The windows of a slave in the process image

`parse_modbus_slave_device_process_image_config` turns the sections `inp` and `out` of a device into
the windows through which `piProcessImageAccess.c` moves the registers.

* `wordAt`: a word of the process image; `bytesRegisters_read`: a table of registers is a list of
  words;
* `HoldingRegistersAt`, `InputRegistersAt`: the registers of a mapping lie word by word from an
  address on;
* `SectionWindow`, `ValidWindows`: the windows are those of the sections;
* `acceptsOnlyValid_iff`: the devices for which no other windows are accepted.
-/

namespace RevPiModbus

open ByteImage

/-! ## Words -/

/-- The word at an address, in little endian order. -/
def wordAt (img : Image) (a : ℕ) : UInt16 :=
  (img a).toUInt16 ||| ((img (a + 1)).toUInt16 <<< 8)

/-- A table of registers that is read from an address on. -/
theorem bytesRegisters_read (img : Image) (a n : ℕ) :
    bytesRegisters (read img a (2 * n)) = (List.range n).map fun k => wordAt img (a + 2 * k) := by
  induction n generalizing a with
  | zero => rfl
  | succ n ih =>
    have hread : read img a (2 * (n + 1)) = img a :: img (a + 1) :: read img (a + 2) (2 * n) := by
      refine List.ext_getElem (by simp [Nat.mul_succ]) fun i hi _ => ?_
      rw [read_getElem]
      rcases i with _ | _ | i
      · rfl
      · rfl
      · simp only [List.getElem_cons_succ, read_getElem]
        congr 1
        omega
    rw [hread, bytesRegisters, ih, List.range_succ_eq_map, List.map_cons, List.map_map]
    congr 1
    refine List.map_congr_left fun k _ => ?_
    simp only [Function.comp_apply, wordAt]
    rw [show a + 2 * k.succ = a + 2 + 2 * k by omega]

/-- A register is put together from its bytes. -/
theorem toUInt8_or_shiftLeft (register : UInt16) :
    register.toUInt8.toUInt16 ||| ((register >>> 8).toUInt8.toUInt16 <<< 8) = register := by
  have h := register.toNat_lt
  have hlow : register.toNat % 2 ^ 8 < 2 ^ 8 := Nat.mod_lt _ (by norm_num)
  have hhigh : register.toNat >>> 8 % 2 ^ 8 = register.toNat / 2 ^ 8 := by
    rw [Nat.shiftRight_eq_div_pow]
    omega
  have hshift : (register.toNat / 2 ^ 8) <<< 8 % 2 ^ 16 = (register.toNat / 2 ^ 8) <<< 8 := by
    rw [Nat.shiftLeft_eq]
    omega
  apply UInt16.toNat_inj.mp
  rw [UInt16.toNat_or, UInt16.toNat_shiftLeft, UInt8.toNat_toUInt16, UInt8.toNat_toUInt16,
    UInt16.toNat_toUInt8, UInt16.toNat_toUInt8, UInt16.toNat_shiftRight]
  show register.toNat % 2 ^ 8 ||| (register.toNat >>> 8 % 2 ^ 8) <<< 8 % 2 ^ 16 = register.toNat
  rw [hhigh, hshift, Nat.or_comm, ← Nat.shiftLeft_add_eq_or_of_lt hlow, Nat.shiftLeft_eq]
  omega

/-- The bytes of registers stand for the registers. -/
theorem bytesRegisters_registerBytes (tab : List UInt16) :
    bytesRegisters (registerBytes tab) = tab := by
  induction tab with
  | nil => rfl
  | cons register tab ih =>
    rw [registerBytes, bytesRegisters, ih, toUInt8_or_shiftLeft]

/-! ## What a configuration is for -/

/-- With a mapping of the configured sizes, holding register `k` is written to the word at
`base + 2 * k`. -/
def HoldingRegistersAt (config : TModbusSlaveConfiguration) (base : ℕ) : Prop :=
  ∀ {σ : Type} (host : Host σ), host.Succeeds → ∀ (m : ModbusMapping) (state : σ),
    RegistersOnly config m →
    ∃ ret state', writeModbusDataToProcessImage host m config.tProcessImageConfig state =
      .ok (ret, state') ∧
      m.tabRegisters = (List.range config.tModbusDataConfig.u16HoldingRegisters.toNat).map
        fun k => wordAt (host.image state') (base + 2 * k)

/-- With a mapping of the configured sizes, input register `k` is read from the word at
`base + 2 * k`. -/
def InputRegistersAt (config : TModbusSlaveConfiguration) (base : ℕ) : Prop :=
  ∀ {σ : Type} (host : Host σ), host.Succeeds → ∀ (m : ModbusMapping) (state : σ),
    RegistersOnly config m →
    ∃ ret m' state', readModbusDataFromProcessImage host m config.tProcessImageConfig state =
      .ok (ret, m', state') ∧
      m'.tabInputRegisters = (List.range config.tModbusDataConfig.u16InputRegisters.toNat).map
        fun k => wordAt (host.image state) (base + 2 * k)

/-- The section under the key has been parsed; its length is that of so many registers, and the
offset of the window is that of the section in the process image. -/
structure SectionWindow (device : Json) (key : List Char) (deviceOffset : ℤ) (start : UInt32)
    (count : UInt16) (offset length : UInt32) : Prop where
  parsed : ∃ entries, device.objectGetEx key = some entries ∧
    getDeviceProcessImageParameter entries = .ok (start, length)
  registers : 2 * count.toNat = length.toNat
  offset : (offset.toNat : ℤ) = deviceOffset + start.toNat

/-- The windows of the configuration are those of the sections `inp` and `out`, and the registers
correspond to their words. -/
def ValidWindows (platform : Platform) (device : Json) (config : TModbusSlaveConfiguration) :
    Prop :=
  ∃ inputStart outputStart, 0 ≤ getProcessImageDeviceOffset platform device ∧
    SectionWindow device "inp".toList (getProcessImageDeviceOffset platform device) inputStart
      config.tModbusDataConfig.u16HoldingRegisters
      config.tProcessImageConfig.u32HoldingRegistersInputOffset
      config.tProcessImageConfig.u32HoldingRegistersLength ∧
    SectionWindow device "out".toList (getProcessImageDeviceOffset platform device) outputStart
      config.tModbusDataConfig.u16InputRegisters
      config.tProcessImageConfig.u32InputRegistersOffset
      config.tProcessImageConfig.u32InputRegistersLength ∧
    HoldingRegistersAt config
      ((getProcessImageDeviceOffset platform device).toNat + inputStart.toNat) ∧
    InputRegistersAt config
      ((getProcessImageDeviceOffset platform device).toNat + outputStart.toNat)

/-- No configuration with other windows is returned; a device with a section that fails is
rejected. -/
def AcceptsOnlyValid (platform : Platform) (device : Json)
    (deviceConfig : TModbusDeviceConfiguration) : Prop :=
  ∀ config, parseModbusSlaveDeviceProcessImageConfig platform device deviceConfig = .ok config →
    ValidWindows platform device config

/-- The registers of the windows, once the offsets are right. -/
theorem holdingRegistersAt {config : TModbusSlaveConfiguration} {base : ℕ}
    (hbase : config.tProcessImageConfig.u32HoldingRegistersInputOffset.toNat = base) :
    HoldingRegistersAt config base := by
  intro σ host hhost m state hm
  obtain ⟨ret, state', hwrite, himage⟩ :=
    writeModbusDataToProcessImage_eq hhost config.tProcessImageConfig state hm.tabBits
  refine ⟨ret, state', hwrite, ?_⟩
  have hread := @read_write (host.image state) base (registerBytes m.tabRegisters)
  rw [← hbase, ← himage, registerBytes_length] at hread
  rw [← hm.tabRegisters, ← bytesRegisters_read, ← hbase, hread, bytesRegisters_registerBytes]

theorem inputRegistersAt {config : TModbusSlaveConfiguration} {base : ℕ}
    (hbase : config.tProcessImageConfig.u32InputRegistersOffset.toNat = base) :
    InputRegistersAt config base := by
  intro σ host hhost m state hm
  obtain ⟨ret, state', hread, -⟩ :=
    readModbusDataFromProcessImage_inputs hhost config.tProcessImageConfig state hm.tabInputBits
  refine ⟨ret, _, state', hread, ?_⟩
  rw [← hm.tabInputRegisters, ← hbase, ← bytesRegisters_read]
  rfl

/-! ## The code -/

section Parse

variable {platform : Platform} {device input output : Json}
  {deviceConfig : TModbusDeviceConfiguration} {config : TModbusSlaveConfiguration}

/-- The offset and the length that the code takes for a section: both 0 if the section fails. -/
def sectionResult (entries : Json) : UInt32 × UInt32 :=
  match getDeviceProcessImageParameter entries with
  | .ok window => window
  | .error _ => (0, 0)

/-- The assertion on the length of a section holds. -/
def LengthEven (entries : Json) : Prop := (sectionResult entries).2 % 2 = 0

instance (entries : Json) : Decidable (LengthEven entries) :=
  inferInstanceAs (Decidable (_ = _))

theorem processImageWindow_eq_ok {entries : Json} {window : UInt32 × UInt32} :
    processImageWindow entries = .ok window ↔
      LengthEven entries ∧ sectionResult entries = window := by
  have hwindow : processImageWindow entries =
      orFault (cAssert ((sectionResult entries).2 % 2 = 0)) >>= fun _ =>
        pure (sectionResult entries) := by
    unfold processImageWindow sectionResult
    cases getDeviceProcessImageParameter entries <;> rfl
  rw [hwindow, bind_eq_ok]
  simp only [orFault, mapError_eq_ok, cAssert_eq_ok, except_pure, Except.ok.injEq, exists_const]
  exact Iff.rfl

/-- What the function returns, and when. -/
theorem parseModbusSlaveDeviceProcessImageConfig_eq_ok :
    parseModbusSlaveDeviceProcessImageConfig platform device deviceConfig = .ok config ↔
      ∃ input output, 0 ≤ getProcessImageDeviceOffset platform device ∧
        device.objectGetEx "inp".toList = some input ∧
        device.objectGetEx "out".toList = some output ∧ LengthEven input ∧ LengthEven output ∧
        config = {
          tModbusDeviceConfig := deviceConfig
          tModbusDataConfig :=
            { u16DiscreteInputs := 0
              u16Coils := 0
              u16InputRegisters := ((sectionResult output).2 / 2).toUInt16
              u16HoldingRegisters := ((sectionResult input).2 / 2).toUInt16 }
          tProcessImageConfig :=
            { u32DiscreteInputsOffset := 0
              u32DiscreteInputsLength := 0
              u32CoilsInputOffset := 0
              u32CoilsLength := 0
              u32InputRegistersOffset := (sectionResult output).1 +
                UInt32.ofNat (getProcessImageDeviceOffset platform device).toNat
              u32InputRegistersLength := (sectionResult output).2
              u32HoldingRegistersInputOffset := (sectionResult input).1 +
                UInt32.ofNat (getProcessImageDeviceOffset platform device).toNat
              u32HoldingRegistersLength := (sectionResult input).2 } } := by
  unfold parseModbusSlaveDeviceProcessImageConfig
  constructor
  · intro h
    simp only at h
    split_ifs at h with hneg
    obtain ⟨input, hinput, h⟩ := bind_eq_ok.1 h
    obtain ⟨inputWindow, hinputWindow, h⟩ := bind_eq_ok.1 h
    obtain ⟨output, houtput, h⟩ := bind_eq_ok.1 h
    obtain ⟨outputWindow, houtputWindow, h⟩ := bind_eq_ok.1 h
    obtain ⟨hinputEven, rfl⟩ := processImageWindow_eq_ok.1 hinputWindow
    obtain ⟨houtputEven, rfl⟩ := processImageWindow_eq_ok.1 houtputWindow
    cases h
    exact ⟨input, output, not_lt.1 hneg, orError_requireSection_eq_ok.1 hinput,
      orError_requireSection_eq_ok.1 houtput, hinputEven, houtputEven, rfl⟩
  · rintro ⟨input, output, hoffset, hinput, houtput, hinputEven, houtputEven, rfl⟩
    simp only
    rw [if_neg (not_lt.2 hoffset), orError_requireSection_eq_ok.2 hinput, ok_bind,
      processImageWindow_eq_ok.2 ⟨hinputEven, rfl⟩, ok_bind,
      orError_requireSection_eq_ok.2 houtput, ok_bind,
      processImageWindow_eq_ok.2 ⟨houtputEven, rfl⟩, ok_bind]
    rfl

/-- The section is parsed, it has fewer than 2¹⁶ registers, and it starts within 32 bits. -/
def WindowFits (deviceOffset : ℤ) (entries : Json) : Prop :=
  ∃ start size, getDeviceProcessImageParameter entries = .ok (start, size) ∧
    size.toNat / 2 < 2 ^ 16 ∧ deviceOffset + start.toNat < 2 ^ 32

/-- One window of the configuration. -/
theorem sectionWindow_iff {key : List Char} {entries : Json} {deviceOffset : ℤ}
    (hentries : device.objectGetEx key = some entries) (hoffset : 0 ≤ deviceOffset)
    (heven : LengthEven entries) {start : UInt32} :
    SectionWindow device key deviceOffset start ((sectionResult entries).2 / 2).toUInt16
        ((sectionResult entries).1 + UInt32.ofNat deviceOffset.toNat) (sectionResult entries).2 ↔
      start = (sectionResult entries).1 ∧ WindowFits deviceOffset entries := by
  have heven' : (sectionResult entries).2.toNat % 2 = 0 := by
    have := congrArg UInt32.toNat heven
    simpa using this
  have hcount : ((sectionResult entries).2 / 2).toUInt16.toNat =
      (sectionResult entries).2.toNat / 2 % 2 ^ 16 := by
    rw [UInt32.toNat_toUInt16, UInt32.toNat_div]
    rfl
  have hsum : ((sectionResult entries).1 + UInt32.ofNat deviceOffset.toNat).toNat =
      ((sectionResult entries).1.toNat + deviceOffset.toNat) % 2 ^ 32 := by
    rw [UInt32.toNat_add, UInt32.toNat_ofNat', Nat.add_mod_mod]
  constructor
  · rintro ⟨⟨entries', hentries', hparsed⟩, hregisters, hstart⟩
    rw [hentries] at hentries'
    cases hentries'
    have hresult : sectionResult entries = (start, (sectionResult entries).2) := by
      conv_lhs => rw [sectionResult, hparsed]
    have hfirst : (sectionResult entries).1 = start := congrArg Prod.fst hresult
    rw [hcount] at hregisters
    rw [hsum, hfirst] at hstart
    have hlt := start.toNat_lt
    exact ⟨hfirst.symm, start, _, hparsed, by omega, by omega⟩
  · rintro ⟨rfl, start, size, hparsed, hsize, hfits⟩
    have hresult : sectionResult entries = (start, size) := by
      rw [sectionResult, hparsed]
    rw [hresult] at hcount hsum heven' ⊢
    refine ⟨⟨entries, hentries, hparsed⟩, ?_, ?_⟩
    · rw [hcount]
      simp only at heven' ⊢
      omega
    · rw [hsum]
      simp only
      omega

/-- The condition: where the device offset is not negative, both sections are there and the
assertions hold, both sections fit. -/
def WindowsFit (platform : Platform) (device : Json) : Prop :=
  ∀ input output, 0 ≤ getProcessImageDeviceOffset platform device →
    device.objectGetEx "inp".toList = some input → device.objectGetEx "out".toList = some output →
    LengthEven input → LengthEven output →
    WindowFits (getProcessImageDeviceOffset platform device) input ∧
      WindowFits (getProcessImageDeviceOffset platform device) output

/-- **The devices that are accepted with valid windows only.** -/
theorem acceptsOnlyValid_iff (platform : Platform) (device : Json)
    (deviceConfig : TModbusDeviceConfiguration) :
    AcceptsOnlyValid platform device deviceConfig ↔ WindowsFit platform device := by
  constructor
  · intro h input output hoffset hinput houtput hinputEven houtputEven
    obtain ⟨inputStart, outputStart, -, hinputWindow, houtputWindow, -, -⟩ :=
      h _ (parseModbusSlaveDeviceProcessImageConfig_eq_ok.2
        ⟨input, output, hoffset, hinput, houtput, hinputEven, houtputEven, rfl⟩)
    exact ⟨((sectionWindow_iff hinput hoffset hinputEven).1 hinputWindow).2,
      ((sectionWindow_iff houtput hoffset houtputEven).1 houtputWindow).2⟩
  · intro h config hconfig
    obtain ⟨input, output, hoffset, hinput, houtput, hinputEven, houtputEven, rfl⟩ :=
      parseModbusSlaveDeviceProcessImageConfig_eq_ok.1 hconfig
    obtain ⟨hinputFits, houtputFits⟩ := h input output hoffset hinput houtput hinputEven houtputEven
    have hinputWindow := (sectionWindow_iff hinput hoffset hinputEven).2 ⟨rfl, hinputFits⟩
    have houtputWindow := (sectionWindow_iff houtput hoffset houtputEven).2 ⟨rfl, houtputFits⟩
    refine ⟨_, _, hoffset, hinputWindow, houtputWindow, holdingRegistersAt ?_,
      inputRegistersAt ?_⟩
    · have := hinputWindow.offset
      simp only at this ⊢
      omega
    · have := houtputWindow.offset
      simp only at this ⊢
      omega

end Parse

/-- A slave without outputs. -/
def slaveWithoutOutputs : Json :=
  .object [("offset".toList, .int 11),
    ("inp".toList, .object [
      ("0".toList, .array [.string "Input_1".toList, .string "0".toList, .string "16".toList,
        .string "2".toList])]),
    ("out".toList, .object [])]

/-- Its section `out` fails, and the device is accepted all the same. -/
theorem not_acceptsOnlyValid_withoutOutputs :
    ¬ AcceptsOnlyValid examplePlatform slaveWithoutOutputs
      ⟨.tTcpConfig ⟨"0.0.0.0".toList, 502, 10⟩, 0, 0⟩ := by
  intro h
  have hoffset : 0 ≤ getProcessImageDeviceOffset examplePlatform slaveWithoutOutputs := by decide
  obtain ⟨-, outputStart, -, -, houtput, -, -⟩ :=
    h _ (parseModbusSlaveDeviceProcessImageConfig_eq_ok.2
      ⟨_, _, hoffset, rfl, rfl, by decide, by decide, rfl⟩)
  obtain ⟨entries, hentries, hparsed⟩ := houtput.parsed
  cases hentries
  cases hparsed

end RevPiModbus
