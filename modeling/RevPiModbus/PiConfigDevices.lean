import RevPiModbus.PiConfigParser

/-!
# The parser of the configuration: devices

The functions of `piConfigParser.c` that read a whole device, and the array of all devices.

* `parseDeviceModbusConfiguration`: the connection of a device;
* `getDeviceProcessImageParameter`, `parseModbusSlaveDeviceProcessImageConfig`: the windows of
  a slave in the process image;
* `parseModbusMasterDevice`, `parseModbusSlaveDevice`: the bodies of the two loops over the devices;
* `parseModbusMasterConfigData`, `parseModbusSlavesConfigData`: the loops.
-/

namespace RevPiModbus

open Collect

/-- `MODBUS_SLAVE_TCP_PI_PRODUCT_TYPE`. -/
def modbusSlaveTcpPiProductType : List Char := "24577".toList

/-- `MODBUS_SLAVE_RTU_PI_PRODUCT_TYPE`. -/
def modbusSlaveRtuPiProductType : List Char := "24578".toList

/-- `MODBUS_MASTER_TCP_PI_PRODUCT_TYPE`. -/
def modbusMasterTcpPiProductType : List Char := "24579".toList

/-- `MODBUS_MASTER_RTU_PI_PRODUCT_TYPE`. -/
def modbusMasterRtuPiProductType : List Char := "24580".toList

/-- `MODBUS_SLAVE_PARAMETER_ARRAY_POSITION`. -/
def modbusSlaveParameterArrayPosition : ℕ := 1

/-- `INET_ADDRSTRLEN`. -/
def inetAddrstrlen : ℕ := 16

/-- `PATH_MAX`. -/
def pathMax : ℕ := 4096

/-! ### The connection of a device -/

/-- `get_device_string_parameter`. -/
def getDeviceStringParameter (parameters : Json) (key : List Char) : Option (List Char) := do
  let entry ← parameters.objectGetEx key
  let configParameter ← entry.getArray
  match arrayListGetIdx configParameter modbusSlaveParameterArrayPosition with
  | .string s => some s
  | _ => none

/-- A string parameter that must be there. -/
def stringParameter (parameters : Json) (key : List Char) (notFound : ParsingError) :
    Except ParsingError (List Char) :=
  match getDeviceStringParameter parameters key with
  | some content => .ok content
  | none => .error notFound

/-- A parameter that is converted to a number. -/
def numberParameter (parameters : Json) (key : List Char) (notFound wrongFormat : ParsingError)
    (valid : UInt32 → Prop) [DecidablePred valid] : Except ParsingError UInt32 := do
  let content ← stringParameter parameters key notFound
  let (value, range) := strtoumax content
  if range ∨ ¬ valid (UInt32.ofNat value) then .error wrongFormat
  else return UInt32.ofNat value

/-- The TCP port. -/
def tcpPort (parameters : Json) (key : List Char) : Except ParsingError UInt32 :=
  numberParameter parameters key .tcpPortNotFound .tcpPortWrongFormat fun port => port ≤ 0xFFFF

/-- The branch for TCP masters. -/
def tcpMasterConfig (parameters : Json) : Except ParsingError TTcpConfig := do
  let address ← stringParameter parameters "0".toList .tcpAddressNotFound
  if address.length ≥ inetAddrstrlen then
    .error .tcpAddressWrongFormat
  else
    let port ← tcpPort parameters "1".toList
    return { szTcpIpAddress := address, i32uPort := port, maxModbusConnections := 0 }

/-- The branch for TCP slaves. -/
def tcpSlaveConfig (parameters : Json) : Except ParsingError TTcpConfig := do
  let port ← tcpPort parameters "0".toList
  let connections ← numberParameter parameters "1".toList .maxConnectionsNotFound
    .maxConnectionsLimitExceeded fun connections => connections ≤ 0xFFFF
  return {
    szTcpIpAddress := "0.0.0.0".toList, i32uPort := port, maxModbusConnections := connections }

/-- The parity as libmodbus takes it. -/
def rtuParity (parameters : Json) : Except ParsingError Char := do
  let content ← stringParameter parameters "2".toList .rtuParityNotFound
  if content.length > 1 then
    .error .rtuParityLengthExceeded
  else
    match content.head? with
    | some '1' => return 'E'
    | some '2' => return 'O'
    | some '0' => return 'N'
    | _ => .error .rtuParityWrongFormat

/-- The Modbus address, which only a slave has. -/
def rtuModbusAddress (platform : Platform) (productType : List Char) (parameters : Json) :
    Except ParsingError UInt32 :=
  if productType <+: modbusSlaveRtuPiProductType then
    numberParameter parameters "5".toList .rtuModbusAddressNotFound .rtuModbusAddressSize
      fun address => address.toNat ≤ platform.charMax
  else
    .ok 0

/-- The branch for RTU devices. -/
def rtuConfig (platform : Platform) (productType : List Char) (parameters : Json) :
    Except ParsingError TRtuConfig := do
  let path ← stringParameter parameters "0".toList .rtuDevicePathNotFound
  if path.length ≥ pathMax then
    .error .rtuDevicePathLengthExceeded
  else
    let baudrate ← numberParameter parameters "1".toList .rtuBaudrateNotFound
      .rtuBaudrateWrongFormat fun _ => True
    let parity ← rtuParity parameters
    let databits ← numberParameter parameters "3".toList .rtuDatabitsNotFound .rtuDatabitsSize
      fun count => 5 ≤ count ∧ count ≤ 8
    let stopbits ← numberParameter parameters "4".toList .rtuStopbitsNotFound .rtuStopbitsSize
      fun count => 1 ≤ count ∧ count ≤ 2
    let address ← rtuModbusAddress platform productType parameters
    return {
      i32uBaud := baudrate
      cParity := parity
      i8uDatabits := databits.toUInt8
      i8uStopbits := stopbits.toUInt8
      u8DeviceModbusAddress := address.toUInt8
      sz8DeviceFilePath := path }

/-- The branches of `parse_device_modbus_configuration`. The comparison of a product type ends with
the string of the device, so a prefix counts as equal. -/
def uProtConfig (platform : Platform) (productType : List Char) (parameters : Json) :
    Except ParsingError UProt :=
  if productType <+: modbusMasterTcpPiProductType then
    UProt.tTcpConfig <$> tcpMasterConfig parameters
  else if productType <+: modbusSlaveTcpPiProductType then
    UProt.tTcpConfig <$> tcpSlaveConfig parameters
  else if productType <+: modbusSlaveRtuPiProductType ∨
      productType <+: modbusMasterRtuPiProductType then
    UProt.tRtuConfig <$> rtuConfig platform productType parameters
  else
    .error .unknownModbusDevice

/-- `parse_device_modbus_configuration`. -/
def parseDeviceModbusConfiguration (platform : Platform) (device : Json) :
    Except ParsingError TModbusDeviceConfiguration :=
  match device.objectGetEx "productType".toList with
  | none => .error .productTypeSectionNotFound
  | some (.string productType) => do
    let parameters ← requireSection device "mem".toList .interfaceSectionNotFound
    let uProt ← uProtConfig platform productType parameters
    return {
      uProt := uProt
      i32uDeviceStatusByteProcessImageOffset := 0
      i32uDeviceStatusResetByteProcessImageByteOffset := 0 }
  | some _ => .error .productTypeSectionEmpty

/-! ### The windows of a slave in the process image -/

/-- The loop of `get_device_process_image_parameter`: the lowest offset, the highest, and the length
of the variable at the highest. The test after the length has been read looks at another pointer
and never fails. -/
def processImageLoop :
    List (List Char × Json) → UInt32 → UInt32 → Json → Except ParsingError (UInt32 × UInt32 × Json)
  | [], startAddress, size, highestSize => .ok (startAddress, size, highestSize)
  | (_, value) :: entries, startAddress, size, highestSize =>
    match value.getArray with
    | none => .error .processImageObjectEmpty
    | some inputData =>
      match arrayListGetIdx inputData relativeProcessImageVariableByteOffsetArrayPosition with
      | .null => .error .offsetPositionParameterNotFound
      | .string text =>
        let (value, range) := strtoumax text
        let offset := UInt32.ofNat value
        if range then .error .generalException
        else
          let startAddress := if startAddress > offset then offset else startAddress
          if size < offset then
            processImageLoop entries startAddress offset
              (arrayListGetIdx inputData processImageVariableBitLengthArrayPosition)
          else
            processImageLoop entries startAddress size highestSize
      | _ => .error .offsetPositionParameterWrongType

/-- `get_device_process_image_parameter`: the offset of a section and its length in bytes. -/
def getDeviceProcessImageParameter (processImageObject : Json) :
    Except ParsingError (UInt32 × UInt32) :=
  match processImageObject with
  | .object entries => do
    let (startAddress, size, highestSize) ← processImageLoop entries 0xFFFFFFFF 0 .null
    match highestSize with
    | .string text =>
      let (bits, range) := strtoumax text
      if range then .error .generalException
      else return (startAddress, size + UInt32.ofNat bits / 8 - startAddress)
    | _ => .error .offsetPositionParameterWrongType
  | _ => .error .processImageWrongType

/-- A section of a slave: an error is only printed, and leaves both numbers at 0. -/
def processImageWindow (processImageObject : Json) : Except Failure (UInt32 × UInt32) := do
  let (startAddress, size) :=
    match getDeviceProcessImageParameter processImageObject with
    | .ok window => window
    | .error _ => (0, 0)
  orFault (cAssert (size % 2 = 0))
  return (startAddress, size)

/-- `parse_modbus_slave_device_process_image_config`, which fills in the rest of a configuration. -/
def parseModbusSlaveDeviceProcessImageConfig (platform : Platform) (device : Json)
    (config : TModbusDeviceConfiguration) : Except Failure TModbusSlaveConfiguration :=
  let deviceOffset := getProcessImageDeviceOffset platform device
  if deviceOffset < 0 then
    .error (.code deviceOffset)
  else do
    let input ← orError (requireSection device "inp".toList .inputParameterSectionNotFound)
    let (inputStart, inputSize) ← processImageWindow input
    let output ← orError (requireSection device "out".toList .outputParameterSectionNotFound)
    let (outputStart, outputSize) ← processImageWindow output
    return {
      tModbusDeviceConfig := config
      tModbusDataConfig :=
        { u16DiscreteInputs := 0
          u16Coils := 0
          u16InputRegisters := (outputSize / 2).toUInt16
          u16HoldingRegisters := (inputSize / 2).toUInt16 }
      tProcessImageConfig :=
        { u32DiscreteInputsOffset := 0
          u32DiscreteInputsLength := 0
          u32CoilsInputOffset := 0
          u32CoilsLength := 0
          u32InputRegistersOffset := outputStart + UInt32.ofNat deviceOffset.toNat
          u32InputRegistersLength := outputSize
          u32HoldingRegistersInputOffset := inputStart + UInt32.ofNat deviceOffset.toNat
          u32HoldingRegistersLength := inputSize } }

/-! ### The devices -/

/-- `MODBUS_MASTER_MASTER_STATUS_BYTE`. -/
def modbusMasterMasterStatusByte : List Char := "ModbusMasterStatus".toList

/-- `MODBUS_MASTER_MASTER_STATUS_RESET_BYTE`. -/
def modbusMasterMasterStatusResetByte : List Char := "MasterStatusReset".toList

/-- `get_json_devices_array`. -/
def getJsonDevicesArray (platform : Platform) (piConfigData : List Char) :
    Except ParsingError (List Json) :=
  let config := platform.jsonTokenerParse piConfigData
  if config.isNull then
    .error .generalException
  else do
    let devices ← requireSection config "Devices".toList .devicesSectionNotFound
    match devices.getArray with
    | some devices => return devices
    | none => .error .devicesSectionEmpty

/-- `get_device_product_type`. -/
def getDeviceProductType (device : Json) : Except ParsingError (List Char) :=
  match device.objectGetEx "productType".toList with
  | some (.string productType) => .ok productType
  | _ => .error .productTypeSectionEmpty

/-- The loop over `extend.deviceMisc`. The offsets of an entry are still there at the next one. -/
def deviceMiscLoop (platform : Platform) (device : Json) :
    List (List Char × Json) → VariableOffsets → TModbusDeviceConfiguration →
      Except Fault TModbusDeviceConfiguration
  | [], _, config => .ok config
  | (key, value) :: entries, offsets, config => do
    if modbusMasterMasterStatusByte <+: key then
      let (success, offsets) ←
        getVariableParameters platform device (platform.getString value) offsets
      if success = 0 then
        deviceMiscLoop platform device entries offsets
          { config with i32uDeviceStatusByteProcessImageOffset := offsets.byteOffset }
      else
        deviceMiscLoop platform device entries offsets config
    else if modbusMasterMasterStatusResetByte <+: key then
      let (success, offsets) ←
        getVariableParameters platform device (platform.getString value) offsets
      if success = 0 then
        deviceMiscLoop platform device entries offsets
          { config with i32uDeviceStatusResetByteProcessImageByteOffset := offsets.byteOffset }
      else
        deviceMiscLoop platform device entries offsets config
    else
      deviceMiscLoop platform device entries offsets config

/-- The body of the loop of `parse_modbus_master_config_data`. -/
def parseModbusMasterDevice (platform : Platform) (device : Json) :
    Except (Exit Failure) TModbusMasterConfiguration := do
  let productType ← orLeave (orError (getDeviceProductType device))
  if productType <+: modbusMasterTcpPiProductType ∨
      productType <+: modbusMasterRtuPiProductType then
    let config ← orSkip (orError (parseDeviceModbusConfiguration platform device))
    let (actionCount, actionList) ← orSkip (parseModbusMasterActionList platform device)
    let configExtend ←
      orLeave (orError (requireSection device "extend".toList .extendSectionNotFound))
    let masterStatus ←
      orLeave (orError
        (requireSection configExtend "deviceMisc".toList .deviceResetEntriesNotFound))
    let entries ← orLeave (orFault masterStatus.objectForeach)
    let config ← orLeave (orFault (deviceMiscLoop platform device entries ⟨0, 0⟩ config))
    return {
      tModbusDeviceConfig := config
      i32ActionCount := actionCount
      mbActionListHead := actionList }
  else
    .error .next

/-- The body of the loop of `parse_modbus_slaves_config_data`. -/
def parseModbusSlaveDevice (platform : Platform) (device : Json) :
    Except (Exit Failure) TModbusSlaveConfiguration := do
  let productType ← orLeave (orError (getDeviceProductType device))
  if productType <+: modbusSlaveTcpPiProductType ∨
      productType <+: modbusSlaveRtuPiProductType then
    let config ← orSkip (orError (parseDeviceModbusConfiguration platform device))
    orSkip (parseModbusSlaveDeviceProcessImageConfig platform device config)
  else
    .error .next

/-- A loop over the devices: what the function returns, and the list, which is empty at the call. -/
def parseDevices {β : Type} (parseDevice : Json → Except (Exit Failure) β)
    (devices : Except ParsingError (List Json)) : Except Fault (ℤ × List β) :=
  match devices with
  | .error error => .ok (error.code, [])
  | .ok devices =>
    match collect parseDevice devices [] with
    | (list, none) => .ok (0, list)
    | (list, some (.code ret)) => .ok (ret, list)
    | (_, some (.fault fault)) => .error fault

/-- `parse_modbus_master_config_data`. -/
def parseModbusMasterConfigData (platform : Platform) (piConfigData : List Char) :
    Except Fault (ℤ × List TModbusMasterConfiguration) :=
  parseDevices (parseModbusMasterDevice platform) (getJsonDevicesArray platform piConfigData)

/-- `parse_modbus_slaves_config_data`. -/
def parseModbusSlavesConfigData (platform : Platform) (piConfigData : List Char) :
    Except Fault (ℤ × List TModbusSlaveConfiguration) :=
  parseDevices (parseModbusSlaveDevice platform) (getJsonDevicesArray platform piConfigData)

end RevPiModbus
