import RevPiModbus.Json
import RevPiModbus.ModbusConfig
import RevPiModbus.Lib.Collect

/-!
# The parser of the configuration

The functions of `piConfigParser.c` that read one device up to the actions of a master. A function
ends without a result by an error code or by stopping the process; where the source uses what
a failed call has written through its pointers, the model returns the code together with it. Memory
allocation succeeds.

* `ParsingError`, `Failure`: how a function ends without a result;
* `getProcessImageDeviceOffset`, `getVariableRelativeOffsets`, `getVariableParameters`: the position
  of a variable in the process image;
* `parseAction`, `parseModbusMasterActionList`: the actions of a master; what the parser does to the
  process image for an action is modelled with the loops of the masters.
-/

namespace RevPiModbus

open Collect

/-- `parsing_error`. -/
inductive ParsingError
  | actionAddressWrongFormat
  | actionDataSectionNotFound
  | actionFunctionCodeWrongFormat
  | actionIdWrongFormat
  | actionIntervallWrongFormat
  | actionRegisterAddressWrongFormat
  | actionRegisterQuantityWrongFormat
  | deviceResetEntriesNotFound
  | devicesSectionEmpty
  | devicesSectionNotFound
  | extendSectionNotFound
  | generalException
  | inputParameterSectionNotFound
  | interfaceSectionNotFound
  | lengthPositionParameterNotFound
  | lengthPositionParameterWrongType
  | maxConnectionsLimitExceeded
  | maxConnectionsNotFound
  | offsetPositionParameterNotFound
  | offsetPositionParameterWrongType
  | outputParameterSectionNotFound
  | processImageObjectEmpty
  | processImageWrongType
  | productNameNotFound
  | productTypeSectionEmpty
  | productTypeSectionNotFound
  | rtuBaudrateNotFound
  | rtuBaudrateWrongFormat
  | rtuDatabitsNotFound
  | rtuDatabitsSize
  | rtuDevicePathLengthExceeded
  | rtuDevicePathNotFound
  | rtuModbusAddressNotFound
  | rtuModbusAddressSize
  | rtuParityLengthExceeded
  | rtuParityNotFound
  | rtuParityWrongFormat
  | rtuStopbitsNotFound
  | rtuStopbitsSize
  | tcpAddressNotFound
  | tcpAddressWrongFormat
  | tcpPortNotFound
  | tcpPortWrongFormat
  | unknownModbusDevice
  deriving DecidableEq, Repr

/-- The codes count up from -100. -/
def ParsingError.code (error : ParsingError) : ℤ := -100 + error.ctorIdx

theorem ParsingError.code_neg (error : ParsingError) : error.code < 0 := by
  cases error <;> decide

/-- How a function ends without a result. -/
inductive Failure
  | code (ret : ℤ)
  | fault (fault : Fault)
  deriving DecidableEq, Repr

section Lift

variable {α : Type}

/-- The error of a call is returned to the caller. -/
def orError (x : Except ParsingError α) : Except Failure α :=
  x.mapError fun error => .code error.code

/-- A call that can only stop the process. -/
def orFault (x : Except Fault α) : Except Failure α :=
  x.mapError .fault

/-- In the body of a loop: `return` the error of a call. -/
def orLeave (x : Except Failure α) : Except (Exit Failure) α :=
  x.mapError .leave

/-- In the body of a loop: `continue` after the error of a call. -/
def orSkip (x : Except Failure α) : Except (Exit Failure) α :=
  x.mapError fun
    | .code _ => .next
    | .fault fault => .leave (.fault fault)

/-- All four only change the error. -/
theorem mapError_eq_ok {ε ε' : Type} {f : ε → ε'} {x : Except ε α} {a : α} :
    x.mapError f = .ok a ↔ x = .ok a := by
  cases x <;> simp [Except.mapError]

end Lift

/-- The value under a key that must be there. -/
def requireSection (json : Json) (key : List Char) (error : ParsingError) :
    Except ParsingError Json :=
  match json.objectGetEx key with
  | some value => .ok value
  | none => .error error

theorem orError_requireSection_eq_ok {json value : Json} {key : List Char} {error : ParsingError} :
    orError (requireSection json key error) = .ok value ↔ json.objectGetEx key = some value := by
  unfold requireSection orError
  cases json.objectGetEx key <;> simp [Except.mapError]

theorem orFault_objectForeach_eq_ok {json : Json} {entries : List (List Char × Json)} :
    orFault json.objectForeach = .ok entries ↔ json = .object entries := by
  unfold orFault
  cases json <;> simp [Except.mapError, Json.objectForeach]

/-! ### Variables of the process image -/

/-- `VARIABLE_NAME_ARRAY_POSITION`. -/
def variableNameArrayPosition : ℕ := 0

/-- `PROCESS_IMAGE_VARIABLE_BIT_LENGTH_ARRAY_POSITION`. -/
def processImageVariableBitLengthArrayPosition : ℕ := 2

/-- `RELATIVE_PROCESS_IMAGE_VARIABLE_BYTE_OFFSET_ARRAY_POSITION`. -/
def relativeProcessImageVariableByteOffsetArrayPosition : ℕ := 3

/-- `RELATIVE_PROCESS_IMAGE_VARIABLE_BIT_OFFSET_ARRAY_POSITION`. -/
def relativeProcessImageVariableBitOffsetArrayPosition : ℕ := 7

/-- What `byte_offset_p` and `bit_offset_p` point to. -/
structure VariableOffsets where
  byteOffset : UInt32
  bitOffset : UInt32
  deriving DecidableEq, Repr

/-- `get_process_image_device_offset`: the offset, or a negative number. The check for the type of
the value never fails, since `json_object_is_type` is not negative. -/
def getProcessImageDeviceOffset (platform : Platform) (device : Json) : ℤ :=
  match device.objectGetEx "offset".toList with
  | none => ParsingError.offsetPositionParameterNotFound.code
  | some offset =>
    let (value, errno) := platform.jsonObjectGetInt offset
    if errno then ParsingError.offsetPositionParameterWrongType.code else value

/-- The end of `get_variable_relative_offsets`, for the array of the variable that it has found: the
code that it returns, and the offsets. -/
def readOffsets (platform : Platform) (inputData : List Json) (offsets : VariableOffsets) :
    Except Fault (ℤ × VariableOffsets) := do
  let byteText ← deref (platform.getString
    (arrayListGetIdx inputData relativeProcessImageVariableByteOffsetArrayPosition))
  let (byte, range) := strtoumax byteText
  if range then
    return (ParsingError.offsetPositionParameterWrongType.code, offsets)
  else
    let offsets := { offsets with byteOffset := UInt32.ofNat byte }
    let bitText ← deref (platform.getString
      (arrayListGetIdx inputData relativeProcessImageVariableBitOffsetArrayPosition))
    let (bit, range) := strtoumax bitText
    if range then
      return (ParsingError.offsetPositionParameterWrongType.code, offsets)
    else
      return (0, { offsets with bitOffset := UInt32.ofNat bit })

/-- The loop of `get_variable_relative_offsets`. -/
def relativeOffsetsLoop (platform : Platform) (name : Option (List Char)) :
    List (List Char × Json) → VariableOffsets → Except Fault (ℤ × VariableOffsets)
  | [], offsets => .ok (ParsingError.generalException.code, offsets)
  | (_, value) :: entries, offsets =>
    match value.getArray with
    | none => relativeOffsetsLoop platform name entries offsets
    | some inputData => do
      let variableName ←
        deref (platform.getString (arrayListGetIdx inputData variableNameArrayPosition))
      let parameterName ← deref name
      if variableName = parameterName then
        readOffsets platform inputData offsets
      else
        relativeOffsetsLoop platform name entries offsets

/-- `get_variable_relative_offsets`. -/
def getVariableRelativeOffsets (platform : Platform) (inOutSection : Json)
    (name : Option (List Char)) (offsets : VariableOffsets) :
    Except Fault (ℤ × VariableOffsets) := do
  relativeOffsetsLoop platform name (← inOutSection.objectForeach) offsets

/-- `get_variable_parameters`: the code that it returns, and the offsets. -/
def getVariableParameters (platform : Platform) (device : Json) (name : Option (List Char))
    (offsets : VariableOffsets) : Except Fault (ℤ × VariableOffsets) :=
  let deviceOffset := getProcessImageDeviceOffset platform device
  if deviceOffset < 0 then
    .ok (deviceOffset, offsets)
  else
    match device.objectGetEx "inp".toList with
    | none => .ok (ParsingError.inputParameterSectionNotFound.code, offsets)
    | some input => do
      let (rc1, offsets) ← getVariableRelativeOffsets platform input name offsets
      match device.objectGetEx "out".toList with
      | none => .ok (ParsingError.outputParameterSectionNotFound.code, offsets)
      | some output =>
        let (rc2, offsets) ← getVariableRelativeOffsets platform output name offsets
        if rc1 < 0 ∧ rc2 < 0 then
          return (ParsingError.generalException.code, offsets)
        else
          return (0, { offsets with
            byteOffset := offsets.byteOffset + UInt32.ofNat deviceOffset.toNat })

/-! ### The actions of a master -/

/-- The entries of `extend.data`. -/
abbrev ActionData : Type := List (List Char × Json)

/-- `MODBUS_MASTER_ACTION_ID_KEY`. -/
def modbusMasterActionIdKey : List Char := "ActionId".toList

/-- `MODBUS_MASTER_SLAVE_ADDRESS_KEY`. -/
def modbusMasterSlaveAddressKey : List Char := "SlaveAddress".toList

/-- `MODBUS_MASTER_FUNCTON_CODE_KEY`. -/
def modbusMasterFunctonCodeKey : List Char := "FunctionCode".toList

/-- `MODBUS_MASTER_REGISTER_ADDRESS_KEY`. -/
def modbusMasterRegisterAddressKey : List Char := "RegisterAddress".toList

/-- `MODBUS_MASTER_QUANTITY_OF_REGISTERS_KEY`. -/
def modbusMasterQuantityOfRegistersKey : List Char := "QuantityOfRegisters".toList

/-- `MODBUS_MASTER_ACTION_INTERVAL_KEY`. -/
def modbusMasterActionIntervalKey : List Char := "ActionInterval".toList

/-- `MODBUS_MASTER_PROCESS_IMAGE_VARIABLE_NAME_KEY`. -/
def modbusMasterProcessImageVariableNameKey : List Char := "DeviceValue".toList

/-- `MODBUS_MASTER_ACTION_STATUS_BYTE`. -/
def modbusMasterActionStatusByte : List Char := "ModbusActionStatus".toList

/-- `MODBUS_MASTER_ACTION_STATUS_RESET`. -/
def modbusMasterActionStatusReset : List Char := "ActionStatusReset".toList

/-- `get_modbus_action_matching_name_string_value`: the string of the first entry whose key starts
with the prefix and the identifier. -/
def getModbusActionMatchingNameStringValue (platform : Platform) (actions : ActionData)
    (parameterPrefix : List Char) (identifier : Option (List Char)) : Option (List Char) := do
  let identifier ← identifier
  let (_, value) ← actions.find? fun entry => parameterPrefix ++ identifier <+: entry.1
  platform.getString value

/-- The string of a parameter; the action is skipped without one. -/
def actionParameter (platform : Platform) (actions : ActionData) (key : List Char)
    (identifier : Option (List Char)) : Except (Exit Failure) (List Char) :=
  match getModbusActionMatchingNameStringValue platform actions key identifier with
  | some text => .ok text
  | none => .error .next

/-- A numeric parameter of an action: the prefix of its key, the error for a number that does not
fit, and the assertion about the converted number. -/
structure NumericField where
  key : List Char
  wrongFormat : ParsingError
  inRange : UInt32 → Bool

/-- The action id. -/
def actionIdField : NumericField where
  key := modbusMasterActionIdKey
  wrongFormat := .actionIdWrongFormat
  inRange actionID := 0 < actionID && actionID < 0x7FFFFFFF

/-- The slave address, about which nothing is asserted. -/
def slaveAddressField : NumericField where
  key := modbusMasterSlaveAddressKey
  wrongFormat := .actionAddressWrongFormat
  inRange _ := true

/-- The function code. -/
def functionCodeField : NumericField where
  key := modbusMasterFunctonCodeKey
  wrongFormat := .actionFunctionCodeWrongFormat
  inRange functionCode := 0x01 ≤ functionCode && functionCode < 0x17

/-- The register address. -/
def registerAddressField : NumericField where
  key := modbusMasterRegisterAddressKey
  wrongFormat := .actionRegisterAddressWrongFormat
  inRange registerAddress := 0 < registerAddress && registerAddress < 0x10000

/-- The quantity of registers. -/
def quantityOfRegistersField : NumericField where
  key := modbusMasterQuantityOfRegistersKey
  wrongFormat := .actionRegisterQuantityWrongFormat
  inRange quantity := 0 < quantity && quantity ≤ UInt32.ofNat maxRegisterSizePerAction

/-- The interval in milliseconds. -/
def actionIntervalField : NumericField where
  key := modbusMasterActionIntervalKey
  wrongFormat := .actionIntervallWrongFormat
  inRange interval := 0 < interval && interval ≤ 1000 * 60 * 30

/-- A numeric parameter: lookup, conversion, assertion. -/
def numericParameter (platform : Platform) (actions : ActionData) (field : NumericField)
    (identifier : Option (List Char)) : Except (Exit Failure) UInt32 := do
  let text ← actionParameter platform actions field.key identifier
  let (value, range) := platform.strtoul text
  if range then
    .error (.leave (.code field.wrongFormat.code))
  else
    orLeave (orFault (cAssert (field.inRange (UInt32.ofNat value))))
    return UInt32.ofNat value

/-- A parameter that names a variable; the action is skipped if the variable is not found. -/
def variableParameter (platform : Platform) (device : Json) (actions : ActionData)
    (key : List Char) (identifier : Option (List Char)) (offsets : VariableOffsets) :
    Except (Exit Failure) VariableOffsets := do
  let name ← actionParameter platform actions key identifier
  let (success, offsets) ←
    orSkip (orFault (getVariableParameters platform device (some name) offsets))
  if success ≠ 0 then .error .next else return offsets

/-- The function codes whose data are bits. -/
def EModbusFunction.isCoilFunction : EModbusFunction → Bool
  | .readCoils | .readDiscreteInputs | .writeSingleCoil | .writeMultipleCoils => true
  | _ => false

/-- The fields of an action that say where its data are. -/
def TModbusAction.withProcessData (action : TModbusAction) (offsets : VariableOffsets) :
    TModbusAction :=
  let startBit := offsets.bitOffset.toUInt8
  if action.eFunctionCode.isCoilFunction then
    { action with
      i32uStartByteProcessData := offsets.byteOffset + (startBit / 8).toUInt32
      i8uStartBitProcessData := startBit % 8 }
  else
    { action with
      i32uStartByteProcessData := offsets.byteOffset, i8uStartBitProcessData := startBit }

/-- The body of the loop of `parse_modbus_master_action_list` for a key that starts with
`ActionId`: the action of an identifier. -/
def parseAction (platform : Platform) (device : Json) (actions : ActionData)
    (identifier : Option (List Char)) : Except (Exit Failure) TModbusAction := do
  let actionID ← numericParameter platform actions actionIdField identifier
  let slaveAddress ← numericParameter platform actions slaveAddressField identifier
  let functionCode ← numericParameter platform actions functionCodeField identifier
  let registerAddress ← numericParameter platform actions registerAddressField identifier
  let quantityOfRegisters ← numericParameter platform actions quantityOfRegistersField identifier
  let actionInterval ← numericParameter platform actions actionIntervalField identifier
  let nextAction : TModbusAction := { TModbusAction.zero with
    i16uActionID := actionID.toUInt16
    i8uSlaveAddress := slaveAddress.toUInt8
    eFunctionCode := .ofCode functionCode.toNat
    i32uStartRegister := registerAddress
    i16uRegisterCount := quantityOfRegisters.toUInt16
    i32uIntervalUs := actionInterval * 1000 }
  let offsets ← variableParameter platform device actions
    modbusMasterProcessImageVariableNameKey identifier ⟨0, 0⟩
  let nextAction := nextAction.withProcessData offsets
  let offsets ← variableParameter platform device actions modbusMasterActionStatusByte
    identifier offsets
  let nextAction := { nextAction with i32uStatusByteProcessImageOffset := offsets.byteOffset }
  let offsets ← variableParameter platform device actions modbusMasterActionStatusReset
    identifier offsets
  return { nextAction with
    i32uResetStatusProcessImageByteOffset := offsets.byteOffset
    i8uResetStatusProcessImageBitOffset := offsets.bitOffset.toUInt8 }

/-- The leftmost match of the regular expression `_([^_]+)_`. -/
def regexec (key : List Char) : Option (List Char) := CString.delimited '_' key

/-- The variables of `parse_modbus_master_action_list` that live across the iterations; `nextAction`
is always null at the beginning of one. -/
structure ActionLoop where
  actionParametersIdentifier : Option (List Char)
  actionListHead : List TModbusAction
  i32ActionCount : ℤ
  deriving DecidableEq, Repr

/-- The loop over the keys. A key without match leaves the identifier as it is, and so does an
action that is skipped. -/
def actionLoop (platform : Platform) (device : Json) (actions : ActionData) :
    ActionData → ActionLoop → Except Failure ActionLoop
  | [], s => .ok s
  | (key, _) :: entries, s =>
    if modbusMasterActionIdKey <+: key then
      let identifier :=
        match regexec key with
        | some found => some found
        | none => s.actionParametersIdentifier
      match parseAction platform device actions identifier with
      | .ok nextAction =>
        actionLoop platform device actions entries
          { actionParametersIdentifier := none
            actionListHead := nextAction :: s.actionListHead
            i32ActionCount := s.i32ActionCount + 1 }
      | .error .next =>
        actionLoop platform device actions entries
          { s with actionParametersIdentifier := identifier }
      | .error (.leave failure) => .error failure
    else
      actionLoop platform device actions entries s

/-- `parse_modbus_master_action_list`: the number of actions, and their list. -/
def parseModbusMasterActionList (platform : Platform) (device : Json) :
    Except Failure (ℤ × List TModbusAction) := do
  orFault (cAssert (¬ device.isNull))
  let configExtend ← orError (requireSection device "extend".toList .extendSectionNotFound)
  let modbusActions ←
    orError (requireSection configExtend "data".toList .actionDataSectionNotFound)
  let actions ← orFault modbusActions.objectForeach
  let s ← actionLoop platform device actions actions
    { actionParametersIdentifier := none, actionListHead := [], i32ActionCount := 0 }
  return (s.i32ActionCount, s.actionListHead)

end RevPiModbus
