import RevPiModbus.ExecutableActions
import RevPiModbus.VariablePosition

/-!
# The numbers of an action

Every number of an action is a text in `extend.data`. It is converted to `unsigned long`, stored in
32 bits, compared with the bounds of an assertion if there is one, and stored in the field of the
action. Only the conversion is checked for overflow.

* `StoredExactly`: an action has the integers that its texts denote;
* `VariableFits`: the position of a variable survives the lookup and the carry of its bit offset;
* `FieldsFit`: the integers fit the fields;
* `storedExactly_iff`, `actionList_storedExactly_iff`: the first holds exactly when the second does.
-/

namespace RevPiModbus

variable {platform : Platform} {device : Json} {actions : ActionData} {id name : List Char}
  {action : TModbusAction}

/-- The integer that the text of a parameter denotes. -/
def denoted (platform : Platform) (actions : ActionData) (id key : List Char) : Option ℤ :=
  (firstEntry platform actions id key).map CString.integer

/-- The position of a variable in bits. -/
def variableBitPosition (platform : Platform) (device : Json) (name : List Char) : Option ℤ :=
  (variablePosition platform device name).map fun (byte, bit) => 8 * byte + bit

/-- The fields of an action are the integers that the texts of its identifier denote. -/
structure StoredExactly (platform : Platform) (device : Json) (actions : ActionData)
    (id : List Char) (action : TModbusAction) : Prop where
  actionID : denoted platform actions id modbusMasterActionIdKey =
    some (action.i16uActionID.toNat : ℤ)
  slaveAddress : denoted platform actions id modbusMasterSlaveAddressKey =
    some (action.i8uSlaveAddress.toNat : ℤ)
  functionCode : denoted platform actions id modbusMasterFunctonCodeKey =
    some (action.eFunctionCode.code : ℤ)
  startRegister : denoted platform actions id modbusMasterRegisterAddressKey =
    some (action.i32uStartRegister.toNat : ℤ)
  registerCount : denoted platform actions id modbusMasterQuantityOfRegistersKey =
    some (action.i16uRegisterCount.toNat : ℤ)
  interval : (denoted platform actions id modbusMasterActionIntervalKey).map (1000 * ·) =
    some (action.i32uIntervalUs.toNat : ℤ)
  coils : action.eFunctionCode.isCoilFunction = true →
    (firstEntry platform actions id modbusMasterProcessImageVariableNameKey).bind
        (variableBitPosition platform device) =
      some (8 * action.i32uStartByteProcessData.toNat + action.i8uStartBitProcessData.toNat : ℤ)

/-- The integer of a parameter is an unsigned number of that many bits. -/
def FitsIn (platform : Platform) (actions : ActionData) (id key : List Char) (bits : ℕ) : Prop :=
  ∀ z ∈ denoted platform actions id key, 0 ≤ z ∧ z < 2 ^ bits

instance (key : List Char) (bits : ℕ) : Decidable (FitsIn platform actions id key bits) :=
  inferInstanceAs (Decidable (∀ z ∈ denoted platform actions id key, _ ∧ _))

/-- A bit position that 32 bits of bytes hold. -/
def BitInReach (position : ℤ) : Prop := 0 ≤ position ∧ position < 2 ^ 35

instance (position : ℤ) : Decidable (BitInReach position) :=
  inferInstanceAs (Decidable (_ ∧ _))

/-- The position fits, for what is read in "out" and in "inp" of a device at the offset. It is in
reach; and the bit offset is below 2 ^ 8 if nothing else is read. If the array in "out" has given a
byte offset and no bit offset, the lookup has kept that: it has to be the one of the array in "inp",
but for the bits above 2 ^ 8 that the bit offset loses. -/
def OffsetsRead.Fits (offset : ℤ) : OffsetsRead → OffsetsRead → Prop
  | .both byte bit, _ => BitInReach (8 * (offset + byte) + bit) ∧ bit % 2 ^ 35 < 2 ^ 8
  | .byteOnly kept, .both byte bit =>
    BitInReach (8 * (offset + byte) + bit) ∧ kept % 2 ^ 32 = (byte + 2 ^ 5 * (bit / 2 ^ 8)) % 2 ^ 32
  | .nothing, .both byte bit => BitInReach (8 * (offset + byte) + bit) ∧ bit % 2 ^ 35 < 2 ^ 8
  | _, _ => True

instance (offset : ℤ) : ∀ out inp : OffsetsRead, Decidable (out.Fits offset inp)
  | .both _ _, _ => inferInstanceAs (Decidable (_ ∧ _))
  | .byteOnly _, .both _ _ => inferInstanceAs (Decidable (_ ∧ _))
  | .byteOnly _, .byteOnly _ => inferInstanceAs (Decidable True)
  | .byteOnly _, .nothing => inferInstanceAs (Decidable True)
  | .nothing, .both _ _ => inferInstanceAs (Decidable (_ ∧ _))
  | .nothing, .byteOnly _ => inferInstanceAs (Decidable True)
  | .nothing, .nothing => inferInstanceAs (Decidable True)

/-- The position of a variable fits. -/
def VariableFits (platform : Platform) (device : Json) (name : List Char) : Prop :=
  (deviceRead platform device name "out".toList).Fits (getProcessImageDeviceOffset platform device)
    (deviceRead platform device name "inp".toList)

instance : Decidable (VariableFits platform device name) :=
  inferInstanceAs (Decidable (OffsetsRead.Fits _ _ _))

/-- The integers of an identifier fit the fields of an action. What is asserted of a number is
asserted of its lower 32 bits; nothing is asserted that would keep the action id below 2 ^ 16, the
slave address below 2 ^ 8, or the bit offset of coils below 2 ^ 8. -/
structure FieldsFit (platform : Platform) (device : Json) (actions : ActionData)
    (id : List Char) : Prop where
  actionID : FitsIn platform actions id modbusMasterActionIdKey 16
  slaveAddress : FitsIn platform actions id modbusMasterSlaveAddressKey 8
  functionCode : FitsIn platform actions id modbusMasterFunctonCodeKey 32
  startRegister : FitsIn platform actions id modbusMasterRegisterAddressKey 32
  registerCount : FitsIn platform actions id modbusMasterQuantityOfRegistersKey 32
  interval : FitsIn platform actions id modbusMasterActionIntervalKey 32
  coils : (∃ z ∈ denoted platform actions id modbusMasterFunctonCodeKey,
      z = 1 ∨ z = 2 ∨ z = 5 ∨ z = 15) →
    ∀ name ∈ firstEntry platform actions id modbusMasterProcessImageVariableNameKey,
      VariableFits platform device name

/-! ### The fields -/

section Fields

variable (z : ℤ)

theorem ofInt_eq_iff : z = ((UInt32.ofInt z).toNat : ℤ) ↔ 0 ≤ z ∧ z < 2 ^ 32 := by
  rw [toNat_ofInt]
  omega

theorem toUInt16_ofInt_eq_iff :
    z = ((UInt32.ofInt z).toUInt16.toNat : ℤ) ↔ 0 ≤ z ∧ z < 2 ^ 16 := by
  have hstored := toNat_ofInt z
  rw [UInt32.toNat_toUInt16]
  omega

theorem toUInt8_ofInt_eq_iff :
    z = ((UInt32.ofInt z).toUInt8.toNat : ℤ) ↔ 0 ≤ z ∧ z < 2 ^ 8 := by
  have hstored := toNat_ofInt z
  rw [UInt32.toNat_toUInt8]
  omega

/-- An interval that has been accepted is stored in microseconds without overflow. -/
theorem interval_eq_iff (h : actionIntervalField.inRange (UInt32.ofInt z) = true) :
    1000 * z = ((UInt32.ofInt z * 1000).toNat : ℤ) ↔ 0 ≤ z ∧ z < 2 ^ 32 := by
  have hle : UInt32.ofInt z ≤ 1000 * 60 * 30 := by
    have hboth := Bool.and_eq_true_iff.mp h
    exact of_decide_eq_true hboth.2
  rw [UInt32.le_iff_toNat_le] at hle
  have hle : (UInt32.ofInt z).toNat ≤ 1800000 := hle
  have hstored := toNat_ofInt z
  rw [UInt32.toNat_mul, show (1000 : UInt32).toNat = 1000 from rfl]
  omega

theorem code_ofCode (n : ℕ) : (EModbusFunction.ofCode n).code = n := by
  unfold EModbusFunction.ofCode
  split <;> rfl

theorem isCoilFunction_ofCode (n : ℕ) :
    (EModbusFunction.ofCode n).isCoilFunction = true ↔ n = 1 ∨ n = 2 ∨ n = 5 ∨ n = 15 := by
  unfold EModbusFunction.ofCode
  split <;> simp_all [EModbusFunction.isCoilFunction]

/-- The start of coils, where the byte offset that was kept need not be that of the variable: the
carry comes after the bit offset has lost its upper bits. -/
theorem coilStart_eq_iff_kept (byte kept bit : ℤ) :
    8 * byte + bit =
        8 * ((UInt32.ofInt kept + ((UInt32.ofInt bit).toUInt8 / 8).toUInt32).toNat : ℤ) +
          (((UInt32.ofInt bit).toUInt8 % 8).toNat : ℤ) ↔
      BitInReach (8 * byte + bit) ∧ kept % 2 ^ 32 = (byte + 2 ^ 5 * (bit / 2 ^ 8)) % 2 ^ 32 := by
  have hkept := toNat_ofInt kept
  have hbit := toNat_ofInt bit
  unfold BitInReach
  rw [UInt32.toNat_add, UInt8.toNat_toUInt32, UInt8.toNat_div, UInt8.toNat_mod,
    UInt32.toNat_toUInt8, show (8 : UInt8).toNat = 8 from rfl]
  omega

theorem coilStart_eq_iff (byte bit : ℤ) :
    8 * byte + bit =
        8 * ((UInt32.ofInt byte + ((UInt32.ofInt bit).toUInt8 / 8).toUInt32).toNat : ℤ) +
          (((UInt32.ofInt bit).toUInt8 % 8).toNat : ℤ) ↔
      BitInReach (8 * byte + bit) ∧ bit % 2 ^ 35 < 2 ^ 8 := by
  have hsame : byte % 2 ^ 32 = (byte + 2 ^ 5 * (bit / 2 ^ 8)) % 2 ^ 32 ↔ bit % 2 ^ 35 < 2 ^ 8 := by
    omega
  rw [coilStart_eq_iff_kept, hsame]

end Fields

/-! ### One action -/

theorem denoted_of_firstEntry {key text : List Char}
    (h : firstEntry platform actions id key = some text) :
    denoted platform actions id key = some (CString.integer text) := by
  unfold denoted
  rw [h]
  rfl

theorem fitsIn_iff {key text : List Char} (h : firstEntry platform actions id key = some text)
    (bits : ℕ) :
    FitsIn platform actions id key bits ↔
      0 ≤ CString.integer text ∧ CString.integer text < 2 ^ bits := by
  unfold FitsIn
  rw [denoted_of_firstEntry h]
  simp

/-- A field has the integer of its text exactly when the integer fits, if this is so for the
number that is stored. -/
theorem denoted_eq_some_iff {key text : List Char} {bits n : ℕ}
    (h : firstEntry platform actions id key = some text)
    (hstored : CString.integer text = (n : ℤ) ↔
      0 ≤ CString.integer text ∧ CString.integer text < 2 ^ bits) :
    denoted platform actions id key = some (n : ℤ) ↔ FitsIn platform actions id key bits := by
  rw [denoted_of_firstEntry h, fitsIn_iff h, Option.some.injEq, hstored]

/-- The number of a text that has been accepted is its integer, as far as 32 bits go. -/
theorem number_of_accepts {field : NumericField} {text : List Char}
    (h : field.Accepts platform text) :
    platform.number text = UInt32.ofInt (CString.integer text) :=
  ofNat_strtounsigned platform.le_ulongBits h.1

/-- The bit position of a resolved variable is right exactly when it fits. -/
theorem variableBitPosition_eq_iff {data : VariableOffsets}
    (hdata : resolveVariable platform device name = some data) :
    variableBitPosition platform device name =
      some (8 * ((data.byteOffset + (data.bitOffset.toUInt8 / 8).toUInt32).toNat : ℤ) +
        ((data.bitOffset.toUInt8 % 8).toNat : ℤ)) ↔ VariableFits platform device name := by
  obtain ⟨kept, bit, hkept, rfl⟩ :=
    getVariableParameters_kept (getVariableParameters_of_resolveVariable hdata)
  unfold variableBitPosition variablePosition VariableFits
  generalize getProcessImageDeviceOffset platform device = offset
  generalize deviceRead platform device name "out".toList = out at hkept ⊢
  generalize deviceRead platform device name "inp".toList = inp at hkept ⊢
  cases out with
  | both outByte outBit =>
    cases hkept
    exact (Option.some.injEq _ _).to_iff.trans (coilStart_eq_iff _ _)
  | byteOnly outByte =>
    cases inp with
    | both inpByte inpBit =>
      -- the byte offset that was kept is not that of the array with the bit offset
      cases hkept
      have hshift : (offset + kept) % 2 ^ 32 = (offset + inpByte + 2 ^ 5 * (bit / 2 ^ 8)) % 2 ^ 32 ↔
          kept % 2 ^ 32 = (inpByte + 2 ^ 5 * (bit / 2 ^ 8)) % 2 ^ 32 := by
        omega
      refine (Option.some.injEq _ _).to_iff.trans ((coilStart_eq_iff_kept _ _ _).trans ?_)
      exact and_congr_right fun _ => hshift
    | _ => cases hkept
  | nothing =>
    cases inp with
    | both inpByte inpBit =>
      cases hkept
      exact (Option.some.injEq _ _).to_iff.trans (coilStart_eq_iff _ _)
    | _ => cases hkept

/-- The start of the data of an action on coils is right exactly when the position fits. -/
theorem coilPosition_eq_iff {data : VariableOffsets}
    (hdata : (firstEntry platform actions id modbusMasterProcessImageVariableNameKey).bind
      (resolveVariable platform device) = some data) :
    (firstEntry platform actions id modbusMasterProcessImageVariableNameKey).bind
        (variableBitPosition platform device) =
      some (8 * ((data.byteOffset + (data.bitOffset.toUInt8 / 8).toUInt32).toNat : ℤ) +
        ((data.bitOffset.toUInt8 % 8).toNat : ℤ)) ↔
    ∀ name ∈ firstEntry platform actions id modbusMasterProcessImageVariableNameKey,
      VariableFits platform device name := by
  obtain ⟨name, hname, hresolve⟩ := Option.bind_eq_some_iff.mp hdata
  rw [hname, Option.bind_some, variableBitPosition_eq_iff hresolve]
  simp only [Option.mem_def, Option.some.injEq, forall_eq']

/-- The fields of a parsed action are the integers of its texts exactly when these fit. -/
theorem storedExactly_iff (h : parseAction platform device actions (some id) = .ok action) :
    StoredExactly platform device actions id action ↔ FieldsFit platform device actions id := by
  obtain ⟨hbuild, haccepted⟩ := parseAction_ok h
  obtain ⟨actionID, slaveAddress, functionCode, registerAddress, quantity, interval, data, hid,
    haddress, hcode, hregister, hquantity, hinterval, hdata, eid, eaddress, ecode, eregister,
    equantity, einterval, ecoils⟩ := buildAction_eq_some hbuild
  have haccepts : ∀ field ∈ numericFields, ∀ text,
      firstEntry platform actions id field.key = some text → field.Accepts platform text := by
    intro field hfield text htext
    obtain ⟨text', htext', haccepts⟩ := haccepted field hfield
    obtain rfl : text = text' := Option.some.inj (htext.symm.trans htext')
    exact haccepts
  have aid := haccepts actionIdField (by simp [numericFields]) _ hid
  have aaddress := haccepts slaveAddressField (by simp [numericFields]) _ haddress
  have acode := haccepts functionCodeField (by simp [numericFields]) _ hcode
  have aregister := haccepts registerAddressField (by simp [numericFields]) _ hregister
  have aquantity := haccepts quantityOfRegistersField (by simp [numericFields]) _ hquantity
  have ainterval := haccepts actionIntervalField (by simp [numericFields]) _ hinterval
  -- one equivalence for each field
  have fid : denoted platform actions id modbusMasterActionIdKey =
      some (action.i16uActionID.toNat : ℤ) ↔
        FitsIn platform actions id modbusMasterActionIdKey 16 := by
    apply denoted_eq_some_iff hid
    rw [eid, number_of_accepts aid]
    exact toUInt16_ofInt_eq_iff _
  have faddress : denoted platform actions id modbusMasterSlaveAddressKey =
      some (action.i8uSlaveAddress.toNat : ℤ) ↔
        FitsIn platform actions id modbusMasterSlaveAddressKey 8 := by
    apply denoted_eq_some_iff haddress
    rw [eaddress, number_of_accepts aaddress]
    exact toUInt8_ofInt_eq_iff _
  have fcode : denoted platform actions id modbusMasterFunctonCodeKey =
      some (action.eFunctionCode.code : ℤ) ↔
        FitsIn platform actions id modbusMasterFunctonCodeKey 32 := by
    apply denoted_eq_some_iff hcode
    rw [ecode, code_ofCode, number_of_accepts acode]
    exact ofInt_eq_iff _
  have fregister : denoted platform actions id modbusMasterRegisterAddressKey =
      some (action.i32uStartRegister.toNat : ℤ) ↔
        FitsIn platform actions id modbusMasterRegisterAddressKey 32 := by
    apply denoted_eq_some_iff hregister
    rw [eregister, number_of_accepts aregister]
    exact ofInt_eq_iff _
  have fquantity : denoted platform actions id modbusMasterQuantityOfRegistersKey =
      some (action.i16uRegisterCount.toNat : ℤ) ↔
        FitsIn platform actions id modbusMasterQuantityOfRegistersKey 32 := by
    apply denoted_eq_some_iff hquantity
    rw [equantity, (toUInt16_of_inRange aquantity.2).1, number_of_accepts aquantity]
    exact ofInt_eq_iff _
  have finterval : (denoted platform actions id modbusMasterActionIntervalKey).map (1000 * ·) =
      some (action.i32uIntervalUs.toNat : ℤ) ↔
        FitsIn platform actions id modbusMasterActionIntervalKey 32 := by
    have hrange := ainterval.2
    rw [number_of_accepts ainterval] at hrange
    rw [denoted_of_firstEntry hinterval, fitsIn_iff hinterval, Option.map_some, Option.some.injEq,
      einterval, number_of_accepts ainterval, interval_eq_iff _ hrange]
  -- a function code that fits is a coil function exactly when its integer is
  have hcoil : FitsIn platform actions id modbusMasterFunctonCodeKey 32 →
      (action.eFunctionCode.isCoilFunction = true ↔
        ∃ z ∈ denoted platform actions id modbusMasterFunctonCodeKey,
          z = 1 ∨ z = 2 ∨ z = 5 ∨ z = 15) := by
    intro hfits
    rw [fitsIn_iff hcode] at hfits
    have hnumber := toNat_ofInt (CString.integer functionCode)
    rw [ecode, isCoilFunction_ofCode, number_of_accepts acode, denoted_of_firstEntry hcode]
    simp only [Option.mem_def, Option.some.injEq, exists_eq_left']
    omega
  constructor
  · intro stored
    have hfits := fcode.mp stored.functionCode
    refine ⟨fid.mp stored.actionID, faddress.mp stored.slaveAddress, hfits,
      fregister.mp stored.startRegister, fquantity.mp stored.registerCount,
      finterval.mp stored.interval, fun hz => ?_⟩
    have hisCoil := (hcoil hfits).mpr hz
    have hposition := stored.coils hisCoil
    rw [(ecoils hisCoil).1, (ecoils hisCoil).2] at hposition
    exact (coilPosition_eq_iff hdata).mp hposition
  · intro fits
    refine ⟨fid.mpr fits.actionID, faddress.mpr fits.slaveAddress, fcode.mpr fits.functionCode,
      fregister.mpr fits.startRegister, fquantity.mpr fits.registerCount,
      finterval.mpr fits.interval, fun hisCoil => ?_⟩
    rw [(ecoils hisCoil).1, (ecoils hisCoil).2]
    exact (coilPosition_eq_iff hdata).mpr (fits.coils ((hcoil fits.functionCode).mp hisCoil))

/-! ### The list of actions -/

/-- The identifiers of the keys that start with `ActionId`. -/
def identifiers (actions : ActionData) : List (List Char) :=
  (actions.filter fun entry => modbusMasterActionIdKey <+: entry.1).filterMap
    fun entry => regexec entry.1

theorem mem_identifiers :
    id ∈ identifiers actions ↔
      ∃ key ∈ actions, modbusMasterActionIdKey <+: key.1 ∧ id ∈ regexec key.1 := by
  unfold identifiers
  simp only [List.mem_filterMap, List.mem_filter, decide_eq_true_eq, Option.mem_def, and_assoc]

/-- **The numbers of the actions in a list** are the integers that their texts denote exactly when
the integers of every complete action fit its fields. -/
theorem actionList_storedExactly_iff (platform : Platform) (device : Json) (actions : ActionData)
    (count : ℤ) (list : List TModbusAction)
    (h : parseModbusMasterActionList platform device = .ok (count, list))
    (hdata : extendData device = some (.object actions)) :
    (∀ action, action ∈ list ↔ ∃ id ∈ identifiers actions,
      parseAction platform device actions (some id) = .ok action) ∧
    ((∀ id ∈ identifiers actions, ∀ action,
        parseAction platform device actions (some id) = .ok action →
        StoredExactly platform device actions id action) ↔
      ∀ id ∈ identifiers actions,
        (buildAction platform device (firstEntry platform actions id)).isSome →
        FieldsFit platform device actions id) := by
  refine ⟨fun action => ?_, ?_, ?_⟩
  · rw [mem_actionList_iff h hdata]
    constructor
    · rintro ⟨key, hmem, hkey, id, hid, hparse⟩
      exact ⟨id, mem_identifiers.mpr ⟨key, hmem, hkey, hid⟩, hparse⟩
    · rintro ⟨id, hmem, hparse⟩
      obtain ⟨key, hmem, hkey, hid⟩ := mem_identifiers.mp hmem
      exact ⟨key, hmem, hkey, id, hid, hparse⟩
  · intro hall id hmem hsome
    obtain ⟨action, hbuild⟩ := Option.isSome_iff_exists.mp hsome
    obtain ⟨key, hmem', hkey, hid⟩ := mem_identifiers.mp hmem
    have hparse := (buildAction_eq_some_iff_of_ok h hdata hmem' hkey hid action).mp hbuild
    exact (storedExactly_iff hparse).mp (hall id hmem action hparse)
  · intro hall id hmem action hparse
    have hbuild := (parseAction_ok hparse).1
    exact (storedExactly_iff hparse).mpr (hall id hmem (by rw [hbuild]; rfl))

/-- Two coils, all of whose numbers fit. -/
theorem actionList_storedExactly_coils :
    let actions := exampleActions (.string ['5']) .null ['1'] ['2']
    let device := exampleDevice (.object [(['0'], exampleVariable)]) actions
    ∀ action, parseAction examplePlatform device actions (some "_1_".toList) = .ok action →
      StoredExactly examplePlatform device actions "_1_".toList action := by
  intro actions device
  have hall := (actionList_storedExactly_iff examplePlatform device actions 1
    [exampleAction .readCoils 2] (by decide +kernel) rfl).2.mpr
  refine hall ?_ _ (by decide)
  intro id hid _
  obtain rfl : id = "_1_".toList := by
    have hids : identifiers actions = ["_1_".toList] := by decide
    rwa [hids, List.mem_singleton] at hid
  exact ⟨by decide +kernel, by decide +kernel, by decide +kernel, by decide +kernel,
    by decide +kernel, by decide +kernel, fun _ => by decide +kernel⟩

/-- A device that also has an output `v`, at byte 9, whose bit offset does not convert. -/
def twoEntriesDevice (actions : ActionData) : Json :=
  .object [
    ("offset".toList, .int 11),
    ("inp".toList, .object [(['0'], exampleVariable)]),
    ("out".toList, .object [(['1'], .array [.string ['v'], .string ['0'], .string ['8'],
      .string ['9'], .boolean true, .string "0001".toList, .string [],
      .string "99999999999999999999".toList])]),
    ("extend".toList, .object [("data".toList, .object actions)])]

/-- Its action on two coils. -/
def twoEntriesAction : TModbusAction :=
  { exampleAction .readCoils 2 with
    i32uStartByteProcessData := 20
    i32uStatusByteProcessImageOffset := 20
    i32uResetStatusProcessImageByteOffset := 20 }

/-- The slave address 300 becomes 44, and 4294967298 registers become 2; two coils go to byte 20,
where the output stands, though the bit offset is that of the input at byte 15. -/
theorem not_actionList_storedExactly :
    (let actions := exampleActions (.string "300".toList) .null ['3'] ['2']
      let device := exampleDevice (.object [(['0'], exampleVariable)]) actions
      parseModbusMasterActionList examplePlatform device =
          .ok (1, [{ exampleAction .readHoldingRegisters 2 with i8uSlaveAddress := 44 }]) ∧
        ¬ ∀ id ∈ identifiers actions, ∀ action,
          parseAction examplePlatform device actions (some id) = .ok action →
          StoredExactly examplePlatform device actions id action) ∧
    (let actions := exampleActions (.string ['5']) .null ['3'] "4294967298".toList
      let device := exampleDevice (.object [(['0'], exampleVariable)]) actions
      parseModbusMasterActionList examplePlatform device =
          .ok (1, [exampleAction .readHoldingRegisters 2]) ∧
        ¬ ∀ id ∈ identifiers actions, ∀ action,
          parseAction examplePlatform device actions (some id) = .ok action →
          StoredExactly examplePlatform device actions id action) ∧
    (let actions := exampleActions (.string ['5']) .null ['1'] ['2']
      let device := twoEntriesDevice actions
      parseModbusMasterActionList examplePlatform device = .ok (1, [twoEntriesAction]) ∧
        ¬ ∀ id ∈ identifiers actions, ∀ action,
          parseAction examplePlatform device actions (some id) = .ok action →
          StoredExactly examplePlatform device actions id action) := by
  refine ⟨⟨by decide +kernel, fun hall => ?_⟩, ⟨by decide +kernel, fun hall => ?_⟩,
    ⟨by decide +kernel, fun hall => ?_⟩⟩
  · have hstored := (hall "_1_".toList (by decide)
      { exampleAction .readHoldingRegisters 2 with i8uSlaveAddress := 44 }
      (by decide +kernel)).slaveAddress
    exact absurd hstored (by decide)
  · have hstored := (hall "_1_".toList (by decide) (exampleAction .readHoldingRegisters 2)
      (by decide +kernel)).registerCount
    exact absurd hstored (by decide)
  · have hstored := (hall "_1_".toList (by decide) twoEntriesAction (by decide +kernel)).coils rfl
    exact absurd hstored (by decide +kernel)

end RevPiModbus
