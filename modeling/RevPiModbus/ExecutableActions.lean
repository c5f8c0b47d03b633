import RevPiModbus.ActionList
import RevPiModbus.Coils

/-!
# Which parsed actions can be executed

The parser accepts the function codes from 1 to 22 and a quantity of up to 256 for each of them. The
executor implements nine function codes, with a limit of its own for each of them that is asserted
when an action is processed.

* `withinLimits`: the limits of the executor;
* `Executable`, `executable_iff`: an action with a parsed quantity can be executed exactly when it
  is within them;
* `NumbersWithinLimits`, `actionList_executable_iff`: the devices all of whose actions can be
  executed.
-/

namespace RevPiModbus

open Collect

variable {σ : Type} {host : Host σ} {action : TModbusAction} {buffer : List UInt8}
  {t : Transaction σ}

/-- The function codes that the `switch` implements, and the register counts that it asserts for
them. -/
def withinLimits (functionCode : EModbusFunction) (count : ℕ) : Bool :=
  match functionCode with
  | .readCoils | .readDiscreteInputs => count ≤ modbusMaxReadBits
  | .readHoldingRegisters | .readInputRegisters => count ≤ modbusMaxReadRegisters
  | .writeSingleCoil | .writeSingleRegister => count = 1
  | .writeMultipleCoils => count ≤ modbusMaxWriteBits
  | .writeMultipleRegisters => count ≤ modbusMaxWriteRegisters
  | .reportSlaveId => count ≤ modbusMaxPduLength
  | .readExceptionStatus | .writeMaskRegister | .writeAndReadRegisters | .unnamed _ => false

/-- The function codes that the `switch` implements. -/
def EModbusFunction.Implemented (functionCode : EModbusFunction) : Prop :=
  functionCode ∈ [.readCoils, .readDiscreteInputs, .readHoldingRegisters, .readInputRegisters,
    .writeSingleCoil, .writeSingleRegister, .writeMultipleCoils, .writeMultipleRegisters,
    EModbusFunction.reportSlaveId]

/-- The action has an implementation, and a master thread processes it without a failed assertion
and without leaving its buffer, whatever piControl and libmodbus answer. -/
def Executable (action : TModbusAction) : Prop :=
  action.eFunctionCode.Implemented ∧
    ∀ {σ : Type} (host : Host σ), host.Conforms → ∀ (buffer : List UInt8) (state : σ),
      buffer.length = maxRegisterSizePerAction →
      ∃ out, processModbusAction host action buffer state = .ok out

/-! ### The branches of the `switch` -/

theorem storeCoils_returns (host : Host σ) (action : TModbusAction) (n i : ℕ) (successful : ℤ)
    (state : σ) (hlen : i + n ≤ buffer.length) :
    ∃ out, storeCoils host action buffer n i successful state = .ok out := by
  induction n generalizing i successful state with
  | zero => exact ⟨_, rfl⟩
  | succ n ih =>
    unfold storeCoils
    rw [List.getElem?_eq_getElem (by omega)]
    dsimp only
    split_ifs
    · exact ⟨_, rfl⟩
    · exact ih _ _ _ (by omega)

theorem fetchCoils_returns (host : Host σ) (action : TModbusAction) (n i : ℕ) (successful : ℤ)
    (buffer : List UInt8) (state : σ) (hlen : i + n ≤ buffer.length) :
    ∃ successful' buffer' state',
      fetchCoils host action n i successful buffer state = .ok (successful', buffer', state') ∧
      buffer'.length = buffer.length := by
  induction n generalizing i successful buffer state with
  | zero => exact ⟨_, _, _, rfl, rfl⟩
  | succ n ih =>
    unfold fetchCoils
    dsimp only
    split_ifs with hfail hi
    · exact ⟨_, _, _, rfl, rfl⟩
    · obtain ⟨successful', buffer', state', hrest, hlength⟩ := ih (i + 1)
        (host.piControlGetBitValue (coilData action i 0) state).1.1
        (buffer.set i (host.piControlGetBitValue (coilData action i 0) state).1.2)
        (host.piControlGetBitValue (coilData action i 0) state).2
        (by rw [List.length_set]; omega)
      exact ⟨successful', buffer', state', hrest, by rw [hlength, List.length_set]⟩
    · omega

/-- A call of libmodbus that fits into the buffer keeps its size. -/
theorem receiveModbus_returns (hhost : host.Conforms) (call : ModbusCall)
    (hfit : call.capacity ≤ t.buffer.length) :
    ∃ t', receiveModbus host call t = .ok t' ∧ t'.buffer.length = t.buffer.length := by
  have hdata := hhost.modbus_data call t.state
  refine ⟨_, receiveModbus_eq hhost hfit, ?_⟩
  simp only [List.length_append, List.length_drop]
  omega

theorem readBitsCase_returns (hhost : host.Conforms) {call : ModbusCall}
    (hcap : call.capacity = action.i16uRegisterCount.toNat)
    (hn : action.i16uRegisterCount.toNat ≤ t.buffer.length)
    (hmax : action.i16uRegisterCount.toNat ≤ modbusMaxReadBits) :
    ∃ out, readBitsCase host action call t = .ok out := by
  obtain ⟨t', hreceive, hlength⟩ := receiveModbus_returns hhost call (hcap.trans_le hn)
  unfold readBitsCase
  simp only [cAssert_of hmax, ok_bind, hreceive]
  split_ifs
  · exact ⟨_, rfl⟩
  · obtain ⟨out, hstore⟩ := storeCoils_returns host action
      action.i16uRegisterCount.toNat 0 t'.successful t'.state
      (by rw [zero_add, hlength]; exact hn)
    rw [hstore]
    exact ⟨_, rfl⟩

theorem readRegistersCase_returns (hhost : host.Conforms) {call : ModbusCall}
    (hcap : call.capacity = 2 * action.i16uRegisterCount.toNat)
    (hn : 2 * action.i16uRegisterCount.toNat ≤ t.buffer.length)
    (hmax : action.i16uRegisterCount.toNat ≤ modbusMaxReadRegisters) :
    ∃ out, readRegistersCase host action call t = .ok out := by
  obtain ⟨t', hreceive, hlength⟩ := receiveModbus_returns hhost call (hcap.trans_le hn)
  unfold readRegistersCase
  simp only [cAssert_of hmax, ok_bind, hreceive]
  split_ifs
  · exact ⟨_, rfl⟩
  · rw [bufferFront_of (hlength ▸ hn)]
    exact ⟨_, rfl⟩

/-- The data of `piControlRead` fit into the buffer. -/
theorem overwrite_read (hhost : host.Conforms) (a : UInt32) {n : ℕ} (state : σ)
    (hn : n ≤ buffer.length) :
    ∃ buffer', overwrite buffer (host.piControlRead a n state).1.2 = .ok buffer' ∧
      buffer'.length = buffer.length := by
  have hdata := hhost.read_data a n state
  refine ⟨_, overwrite_of (hdata.trans hn), ?_⟩
  rw [List.length_append, List.length_drop]
  omega

/-- The buffer of a thread is not empty. -/
theorem exists_cons_of_buffer {buffer : List UInt8}
    (h : buffer.length = maxRegisterSizePerAction) : ∃ first rest, buffer = first :: rest := by
  refine List.exists_cons_of_length_pos ?_
  rw [h]
  decide

theorem writeSingleRegisterCase_returns (hhost : host.Conforms)
    (hbuffer : t.buffer.length = maxRegisterSizePerAction)
    (hone : action.i16uRegisterCount.toNat = 1) :
    ∃ out, writeSingleRegisterCase host action t = .ok out := by
  have hn : 2 * action.i16uRegisterCount.toNat ≤ t.buffer.length := by
    rw [hbuffer, hone]
    decide
  obtain ⟨buffer', hread, hlength⟩ := overwrite_read hhost
    action.i32uStartByteProcessData t.state hn
  unfold writeSingleRegisterCase
  simp only [cAssert_of hone, ok_bind, hread]
  split_ifs
  · exact ⟨_, rfl⟩
  · obtain ⟨low, rest, rfl⟩ := exists_cons_of_buffer (hlength.trans hbuffer)
    obtain ⟨high, rest, rfl⟩ : ∃ high t, rest = high :: t := by
      refine List.exists_cons_of_length_pos ?_
      have hfull := hlength.trans hbuffer
      rw [List.length_cons, maxRegisterSizePerAction] at hfull
      omega
    exact ⟨_, rfl⟩

theorem writeSingleCoilCase_returns (hbuffer : t.buffer.length = maxRegisterSizePerAction)
    (hone : action.i16uRegisterCount.toNat = 1) :
    ∃ out, writeSingleCoilCase host action t = .ok out := by
  obtain ⟨successful', buffer', state', hfetch, hlength⟩ := fetchCoils_returns host
    action action.i16uRegisterCount.toNat 0 t.successful t.buffer t.state
    (by rw [hbuffer, hone]; decide)
  unfold writeSingleCoilCase
  simp only [cAssert_of hone, ok_bind, hfetch]
  split_ifs
  · obtain ⟨status, rest, rfl⟩ := exists_cons_of_buffer (hlength.trans hbuffer)
    exact ⟨_, rfl⟩
  · exact ⟨_, rfl⟩

theorem writeMultipleCoilsCase_returns (hn : action.i16uRegisterCount.toNat ≤ t.buffer.length)
    (hmax : action.i16uRegisterCount.toNat ≤ modbusMaxWriteBits) :
    ∃ out, writeMultipleCoilsCase host action t = .ok out := by
  obtain ⟨successful', buffer', state', hfetch, hlength⟩ := fetchCoils_returns host
    action action.i16uRegisterCount.toNat 0 t.successful t.buffer t.state
    (by rw [zero_add]; exact hn)
  unfold writeMultipleCoilsCase
  simp only [cAssert_of hmax, ok_bind, hfetch]
  split_ifs
  · rw [bufferFront_of (hlength ▸ hn)]
    exact ⟨_, rfl⟩
  · exact ⟨_, rfl⟩

theorem writeMultipleRegistersCase_returns (hhost : host.Conforms)
    (hn : 2 * action.i16uRegisterCount.toNat ≤ t.buffer.length)
    (hmax : action.i16uRegisterCount.toNat ≤ modbusMaxWriteRegisters) :
    ∃ out, writeMultipleRegistersCase host action t = .ok out := by
  obtain ⟨buffer', hread, hlength⟩ := overwrite_read hhost
    action.i32uStartByteProcessData t.state hn
  unfold writeMultipleRegistersCase
  simp only [cAssert_of hmax, ok_bind, hread]
  split_ifs
  · exact ⟨_, rfl⟩
  · rw [bufferFront_of (hlength ▸ hn)]
    exact ⟨_, rfl⟩

theorem reportSlaveIdCase_returns (hhost : host.Conforms)
    (hbuffer : t.buffer.length = maxRegisterSizePerAction)
    (hmax : action.i16uRegisterCount.toNat ≤ modbusMaxPduLength) :
    ∃ out, reportSlaveIdCase host action t = .ok out := by
  obtain ⟨t', hreceive, hlength⟩ := receiveModbus_returns hhost
    (.reportSlaveId maxRegisterSizePerAction) hbuffer.ge
  have hn : action.i16uRegisterCount.toNat ≤ t'.buffer.length := by
    rw [hlength, hbuffer]
    exact hmax.trans (by decide)
  unfold reportSlaveIdCase
  simp only [cAssert_of hmax, ok_bind, hreceive]
  split_ifs
  · exact ⟨_, rfl⟩
  · rw [bufferFront_of hn]
    exact ⟨_, rfl⟩

/-! ### The actions that can be executed -/

/-- Within its limits, no branch of the `switch` stops the process. -/
theorem switchFunctionCode_returns (hhost : host.Conforms)
    (hbuffer : t.buffer.length = maxRegisterSizePerAction)
    (hcount : action.i16uRegisterCount.toNat ≤ maxRegisterSizePerAction)
    (hlimits : withinLimits action.eFunctionCode action.i16uRegisterCount.toNat = true) :
    ∃ out, switchFunctionCode host action t = .ok out := by
  have hn : action.i16uRegisterCount.toNat ≤ t.buffer.length := hbuffer ▸ hcount
  have hwords : ∀ {limit : ℕ}, action.i16uRegisterCount.toNat ≤ limit → 2 * limit ≤ 256 →
      2 * action.i16uRegisterCount.toNat ≤ t.buffer.length := by
    intro limit hle hlimit
    rw [hbuffer, maxRegisterSizePerAction]
    omega
  unfold switchFunctionCode
  cases hcode : action.eFunctionCode <;>
    simp only [hcode, withinLimits, decide_eq_true_eq, Bool.false_eq_true] at hlimits ⊢
  case readCoils => exact readBitsCase_returns hhost rfl hn hlimits
  case readDiscreteInputs => exact readBitsCase_returns hhost rfl hn hlimits
  case readHoldingRegisters =>
    exact readRegistersCase_returns hhost rfl (hwords hlimits (by decide)) hlimits
  case readInputRegisters =>
    exact readRegistersCase_returns hhost rfl (hwords hlimits (by decide)) hlimits
  case writeSingleCoil => exact writeSingleCoilCase_returns hbuffer hlimits
  case writeSingleRegister => exact writeSingleRegisterCase_returns hhost hbuffer hlimits
  case writeMultipleCoils => exact writeMultipleCoilsCase_returns hn hlimits
  case writeMultipleRegisters =>
    exact writeMultipleRegistersCase_returns hhost (hwords hlimits (by decide)) hlimits
  case reportSlaveId => exact reportSlaveIdCase_returns hhost hbuffer hlimits

/-- Beyond its limits, an implemented function code fails the assertion. -/
theorem switchFunctionCode_fails (himplemented : action.eFunctionCode.Implemented)
    (hlimits : ¬ withinLimits action.eFunctionCode action.i16uRegisterCount.toNat = true) :
    switchFunctionCode host action t = .error .assertFailed := by
  unfold EModbusFunction.Implemented at himplemented
  unfold switchFunctionCode
  cases hcode : action.eFunctionCode <;>
    simp only [hcode, withinLimits, decide_eq_true_eq] at hlimits ⊢
  case readCoils | readDiscreteInputs => rw [readBitsCase, cAssert_of_not hlimits, error_bind]
  case readHoldingRegisters | readInputRegisters =>
    rw [readRegistersCase, cAssert_of_not hlimits, error_bind]
  case writeSingleCoil => rw [writeSingleCoilCase, cAssert_of_not hlimits, error_bind]
  case writeSingleRegister => rw [writeSingleRegisterCase, cAssert_of_not hlimits, error_bind]
  case writeMultipleCoils => rw [writeMultipleCoilsCase, cAssert_of_not hlimits, error_bind]
  case writeMultipleRegisters =>
    rw [writeMultipleRegistersCase, cAssert_of_not hlimits, error_bind]
  case reportSlaveId => rw [reportSlaveIdCase, cAssert_of_not hlimits, error_bind]
  all_goals simp [hcode] at himplemented

theorem implemented_of_withinLimits {functionCode : EModbusFunction} {count : ℕ}
    (h : withinLimits functionCode count = true) : functionCode.Implemented := by
  unfold EModbusFunction.Implemented
  cases functionCode <;> simp [withinLimits] at h ⊢

/-- **An action whose register count fits into the buffer** can be executed exactly when it is
within the limits of its function code. -/
theorem executable_iff (hcount : action.i16uRegisterCount.toNat ≤ maxRegisterSizePerAction) :
    Executable action ↔
      withinLimits action.eFunctionCode action.i16uRegisterCount.toNat = true := by
  constructor
  · rintro ⟨himplemented, hreturns⟩
    by_contra hlimits
    obtain ⟨out, hout⟩ := hreturns _ (oneCoilHost_succeeds 0 0).toConforms
      (List.replicate maxRegisterSizePerAction 0) (fun _ => 0) (List.length_replicate ..)
    rw [processModbusAction, switchFunctionCode_fails himplemented hlimits] at hout
    cases hout
  · intro hlimits
    refine ⟨implemented_of_withinLimits hlimits, fun host hhost buffer state hbuffer => ?_⟩
    obtain ⟨t, hswitch⟩ := switchFunctionCode_returns (t := .start buffer state) hhost hbuffer
      hcount hlimits
    obtain ⟨out, hout, -⟩ := processModbusAction_of_switch hswitch
    exact ⟨out, hout⟩

/-! ### The parsed actions -/

variable {platform : Platform} {device : Json} {actions : ActionData} {id : List Char}

/-- A numeric parameter that is returned is the number of a text that has been accepted. -/
theorem numericParameter_ok {field : NumericField} {value : UInt32}
    (h : numericParameter platform actions field (some id) = .ok value) :
    ∃ text, firstEntry platform actions id field.key = some text ∧ field.Accepts platform text := by
  unfold numericParameter at h
  rw [actionParameter_eq] at h
  cases htext : firstEntry platform actions id field.key with
  | none =>
    rw [htext] at h
    cases h
  | some text =>
    simp only [htext, orNext, ok_bind] at h
    by_cases hrange : (platform.strtoul text).2 = true
    · rw [if_pos hrange] at h
      cases h
    · rw [if_neg hrange] at h
      obtain ⟨_, hassert, -⟩ := bind_eq_ok.mp h
      have haccepted := cAssert_eq_ok.mp (mapError_eq_ok.mp (mapError_eq_ok.mp hassert))
      exact ⟨text, rfl, Bool.not_eq_true _ ▸ hrange, haccepted⟩

/-- A parsed action is the one that its texts describe, and all its numbers have been accepted. -/
theorem parseAction_ok (h : parseAction platform device actions (some id) = .ok action) :
    buildAction platform device (firstEntry platform actions id) = some action ∧
      ∀ field ∈ numericFields, ∃ text, firstEntry platform actions id field.key = some text ∧
        field.Accepts platform text := by
  constructor
  · obtain ⟨reason, hleave⟩ | hbuild := parseAction_leavesOr platform device actions id
    · rw [hleave] at h
      cases h
    · rw [hbuild] at h
      cases hbuilt : buildAction platform device (firstEntry platform actions id) with
      | none =>
        rw [hbuilt] at h
        cases h
      | some built =>
        rw [hbuilt] at h
        exact congrArg some (Except.ok.inj h)
  · obtain ⟨actionID, hid, h⟩ := bind_eq_ok.mp h
    obtain ⟨slaveAddress, haddress, h⟩ := bind_eq_ok.mp h
    obtain ⟨functionCode, hcode, h⟩ := bind_eq_ok.mp h
    obtain ⟨registerAddress, hregister, h⟩ := bind_eq_ok.mp h
    obtain ⟨quantity, hquantity, h⟩ := bind_eq_ok.mp h
    obtain ⟨interval, hinterval, -⟩ := bind_eq_ok.mp h
    simp only [numericFields, List.forall_mem_cons]
    exact ⟨numericParameter_ok hid, numericParameter_ok haddress, numericParameter_ok hcode,
      numericParameter_ok hregister, numericParameter_ok hquantity,
      numericParameter_ok hinterval, by simp⟩

/-- The texts behind an action, and the variable of its data. -/
theorem buildAction_eq_some {parameter : List Char → Option (List Char)}
    (h : buildAction platform device parameter = some action) :
    ∃ actionID slaveAddress functionCode registerAddress quantity interval data,
      parameter modbusMasterActionIdKey = some actionID ∧
      parameter modbusMasterSlaveAddressKey = some slaveAddress ∧
      parameter modbusMasterFunctonCodeKey = some functionCode ∧
      parameter modbusMasterRegisterAddressKey = some registerAddress ∧
      parameter modbusMasterQuantityOfRegistersKey = some quantity ∧
      parameter modbusMasterActionIntervalKey = some interval ∧
      (parameter modbusMasterProcessImageVariableNameKey).bind (resolveVariable platform device) =
        some data ∧
      action.i16uActionID = (platform.number actionID).toUInt16 ∧
      action.i8uSlaveAddress = (platform.number slaveAddress).toUInt8 ∧
      action.eFunctionCode = .ofCode (platform.number functionCode).toNat ∧
      action.i32uStartRegister = platform.number registerAddress ∧
      action.i16uRegisterCount = (platform.number quantity).toUInt16 ∧
      action.i32uIntervalUs = platform.number interval * 1000 ∧
      (action.eFunctionCode.isCoilFunction = true →
        action.i32uStartByteProcessData =
          data.byteOffset + (data.bitOffset.toUInt8 / 8).toUInt32 ∧
        action.i8uStartBitProcessData = data.bitOffset.toUInt8 % 8) := by
  obtain ⟨_, hid', h⟩ := Option.bind_eq_some_iff.mp h
  obtain ⟨_, haddress', h⟩ := Option.bind_eq_some_iff.mp h
  obtain ⟨_, hcode', h⟩ := Option.bind_eq_some_iff.mp h
  obtain ⟨_, hregister', h⟩ := Option.bind_eq_some_iff.mp h
  obtain ⟨_, hquantity', h⟩ := Option.bind_eq_some_iff.mp h
  obtain ⟨_, hinterval', h⟩ := Option.bind_eq_some_iff.mp h
  obtain ⟨data, hdata, h⟩ := Option.bind_eq_some_iff.mp h
  obtain ⟨status, -, h⟩ := Option.bind_eq_some_iff.mp h
  obtain ⟨reset, -, h⟩ := Option.bind_eq_some_iff.mp h
  obtain ⟨actionID, hid, rfl⟩ := Option.map_eq_some_iff.mp hid'
  obtain ⟨slaveAddress, haddress, rfl⟩ := Option.map_eq_some_iff.mp haddress'
  obtain ⟨functionCode, hcode, rfl⟩ := Option.map_eq_some_iff.mp hcode'
  obtain ⟨registerAddress, hregister, rfl⟩ := Option.map_eq_some_iff.mp hregister'
  obtain ⟨quantity, hquantity, rfl⟩ := Option.map_eq_some_iff.mp hquantity'
  obtain ⟨interval, hinterval, rfl⟩ := Option.map_eq_some_iff.mp hinterval'
  cases h
  exact ⟨actionID, slaveAddress, functionCode, registerAddress, quantity, interval, data, hid,
    haddress, hcode, hregister, hquantity, hinterval, hdata, rfl, rfl, rfl, rfl, rfl, rfl,
    fun hcoil => ⟨if_pos hcoil, if_pos hcoil⟩⟩

/-- A quantity that has been accepted fits into the field of an action. -/
theorem toUInt16_of_inRange {quantity : UInt32}
    (h : quantityOfRegistersField.inRange quantity = true) :
    quantity.toUInt16.toNat = quantity.toNat ∧ quantity.toNat ≤ maxRegisterSizePerAction := by
  have hle : quantity ≤ UInt32.ofNat maxRegisterSizePerAction := by
    have hboth := Bool.and_eq_true_iff.mp h
    exact of_decide_eq_true hboth.2
  rw [UInt32.le_iff_toNat_le] at hle
  have hle : quantity.toNat ≤ maxRegisterSizePerAction := hle
  refine ⟨?_, hle⟩
  rw [UInt32.toNat_toUInt16, Nat.mod_eq_of_lt (hle.trans_lt (by decide))]

/-- The numbers under `FunctionCode` and `QuantityOfRegisters` are within the limits of the
executor. -/
def NumbersWithinLimits (platform : Platform) (actions : ActionData) (id : List Char) : Prop :=
  ∀ functionCode ∈ (firstEntry platform actions id modbusMasterFunctonCodeKey).map platform.number,
    ∀ quantity ∈
      (firstEntry platform actions id modbusMasterQuantityOfRegistersKey).map platform.number,
      withinLimits (.ofCode functionCode.toNat) quantity.toNat = true

instance (platform : Platform) (actions : ActionData) (id : List Char) :
    Decidable (NumbersWithinLimits platform actions id) :=
  -- by the values that are there; `UInt32` as a finite type would be enumerated
  @Option.decidableForallMem _ _ (fun _ => Option.decidableForallMem _) _

/-- A parsed action can be executed exactly when its numbers are within the limits. -/
theorem executable_parseAction_iff
    (h : parseAction platform device actions (some id) = .ok action) :
    Executable action ↔ NumbersWithinLimits platform actions id := by
  obtain ⟨hbuild, haccepted⟩ := parseAction_ok h
  obtain ⟨-, -, functionCode, -, quantity, -, -, -, -, hcode, -, hquantity, -, -, -, -, hactionCode,
    -, hcount, -⟩ := buildAction_eq_some hbuild
  obtain ⟨text, htext, -, hrange⟩ := haccepted quantityOfRegistersField (by simp [numericFields])
  obtain rfl : quantity = text := Option.some.inj (hquantity.symm.trans htext)
  obtain ⟨htoNat, hle⟩ := toUInt16_of_inRange hrange
  rw [← hcount] at htoNat
  unfold NumbersWithinLimits
  rw [executable_iff (htoNat.trans_le hle), hactionCode, htoNat, hcode, hquantity]
  simp

/-- The actions of a returned list are those that the parser has built for the complete keys. -/
theorem mem_actionList_iff {count : ℤ} {list : List TModbusAction}
    (h : parseModbusMasterActionList platform device = .ok (count, list))
    (hdata : extendData device = some (.object actions)) :
    action ∈ list ↔ ∃ key ∈ actions, modbusMasterActionIdKey <+: key.1 ∧
      ∃ id ∈ regexec key.1, parseAction platform device actions (some id) = .ok action := by
  obtain ⟨actions', hdata', -, rfl, -⟩ := parseModbusMasterActionList_eq_ok.mp h
  obtain rfl : actions = actions' := by
    rw [hdata] at hdata'
    cases hdata'
    rfl
  rw [List.mem_reverse, List.mem_filterMap]
  refine exists_congr fun key => and_congr_right fun _ => ?_
  rw [entry_eq_some, keyAction]
  split_ifs with hkey
  · cases regexec key.1 with
    | none => simp [parseAction_none]
    | some id => simp [hkey]
  · simp [hkey]

/-- Where the parse returns a list, every key with an identifier has the action that is built for
it. -/
theorem buildAction_eq_some_iff_of_ok {count : ℤ} {list : List TModbusAction}
    (h : parseModbusMasterActionList platform device = .ok (count, list))
    (hdata : extendData device = some (.object actions)) {key : List Char × Json}
    (hmem : key ∈ actions) (hkey : modbusMasterActionIdKey <+: key.1) (hid : id ∈ regexec key.1)
    (action : TModbusAction) :
    buildAction platform device (firstEntry platform actions id) = some action ↔
      parseAction platform device actions (some id) = .ok action := by
  obtain ⟨actions', hdata', hstays, -, -⟩ := parseModbusMasterActionList_eq_ok.mp h
  obtain rfl : actions = actions' := by
    rw [hdata] at hdata'
    cases hdata'
    rfl
  have hstay := hstays key hmem
  rw [exit_eq_none_iff, keyAction, if_pos hkey, Option.mem_def.mp hid] at hstay
  obtain ⟨reason, hleave⟩ | hbuild := parseAction_leavesOr platform device actions id
  · exact absurd hleave (hstay reason)
  · rw [hbuild]
    cases buildAction platform device (firstEntry platform actions id) <;> simp [orNext]

/-- **The actions of a device can all be executed** exactly when the numbers of each complete action
are within the limits of the executor. -/
theorem actionList_executable_iff (platform : Platform) (device : Json) (count : ℤ)
    (list : List TModbusAction)
    (h : parseModbusMasterActionList platform device = .ok (count, list)) :
    (∀ action ∈ list, Executable action) ↔
      ∀ actions, extendData device = some (.object actions) →
        ∀ key ∈ actions, modbusMasterActionIdKey <+: key.1 → ∀ id ∈ regexec key.1,
          (buildAction platform device (firstEntry platform actions id)).isSome →
            NumbersWithinLimits platform actions id := by
  obtain ⟨actions, hdata⟩ := extendData_of_ok h
  constructor
  · intro hall actions' hdata' key hmem hkey id hid hsome
    rw [hdata] at hdata'
    cases hdata'
    obtain ⟨action, haction⟩ := Option.isSome_iff_exists.mp hsome
    have hparse := (buildAction_eq_some_iff_of_ok h hdata hmem hkey hid action).mp haction
    rw [← executable_parseAction_iff hparse]
    exact hall action ((mem_actionList_iff h hdata).mpr ⟨key, hmem, hkey, id, hid, hparse⟩)
  · intro hwithin action haction
    obtain ⟨key, hmem, hkey, id, hid, hparse⟩ := (mem_actionList_iff h hdata).mp haction
    rw [executable_parseAction_iff hparse]
    have hbuild := (buildAction_eq_some_iff_of_ok h hdata hmem hkey hid action).mpr hparse
    exact hwithin actions hdata key hmem hkey id hid (by rw [hbuild]; rfl)

/-- The action of the examples. -/
def exampleAction (functionCode : EModbusFunction) (count : UInt16) : TModbusAction where
  i16uActionID := 1
  i8uSlaveAddress := 5
  eFunctionCode := functionCode
  i32uStartRegister := 1
  i16uRegisterCount := count
  i32uIntervalUs := 500000
  i32uStartByteProcessData := 15
  i8uStartBitProcessData := 0
  i32uStatusByteProcessImageOffset := 15
  i32uResetStatusProcessImageByteOffset := 15
  i8uResetStatusProcessImageBitOffset := 0

/-- Two holding registers are within the limits. -/
theorem actionList_executable_twoRegisters :
    Executable (exampleAction .readHoldingRegisters 2) := by
  have hall := (actionList_executable_iff examplePlatform (exampleDevice
    (.object [(['0'], exampleVariable)]) (exampleActions (.string ['5']) .null ['3'] ['2']))
    1 [exampleAction .readHoldingRegisters 2] (by decide +kernel)).mpr
  refine hall ?_ _ (List.mem_singleton_self _)
  intro actions hactions
  cases hactions
  decide +kernel

/-- Two hundred holding registers are accepted by the parser, and so is function code 8. -/
theorem actionList_not_executable :
    (parseModbusMasterActionList examplePlatform (exampleDevice
        (.object [(['0'], exampleVariable)])
        (exampleActions (.string ['5']) .null ['3'] "200".toList)) =
        .ok (1, [exampleAction .readHoldingRegisters 200]) ∧
      ¬ Executable (exampleAction .readHoldingRegisters 200)) ∧
    (parseModbusMasterActionList examplePlatform (exampleDevice
        (.object [(['0'], exampleVariable)])
        (exampleActions (.string ['5']) .null ['8'] ['1'])) =
        .ok (1, [exampleAction (.unnamed 8) 1]) ∧
      ¬ Executable (exampleAction (.unnamed 8) 1)) := by
  refine ⟨⟨by decide +kernel, ?_⟩, by decide +kernel, ?_⟩
  · rw [executable_iff (by decide)]
    decide
  · rw [executable_iff (by decide)]
    decide

end RevPiModbus
