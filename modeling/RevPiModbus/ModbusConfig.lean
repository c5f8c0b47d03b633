import Mathlib.Tactic

/-!
# The configuration of a Modbus device

The data types and limits of `modbusconfig.h`. The fields have the widths of the C types; those of
type `int32_t` that are only set from, and passed on as, unsigned numbers are unsigned here.

* `EModbusFunction`: the function codes; `ofCode` is the cast from an integer, which C allows for
  integers without an enumerator as well (`unnamed`);
* `TModbusAction`: one periodic action of a Modbus master;
* `TModbusDeviceConfiguration`: the connection of a device;
* `TModbusMasterConfiguration`, `TModbusSlaveConfiguration`: the entries of the two lists that the
  configuration is parsed into.
-/

namespace RevPiModbus

/-- `MAX_REGISTER_SIZE_PER_ACTION`: the size of the data buffer of a master thread. -/
def maxRegisterSizePerAction : ℕ := 256

/-- `enum EModbusFunction`. -/
inductive EModbusFunction
  | readCoils
  | readDiscreteInputs
  | readHoldingRegisters
  | readInputRegisters
  | writeSingleCoil
  | writeSingleRegister
  | readExceptionStatus
  | writeMultipleCoils
  | writeMultipleRegisters
  | reportSlaveId
  | writeMaskRegister
  | writeAndReadRegisters
  /-- An integer that the enumeration does not name. -/
  | unnamed (code : ℕ)
  deriving DecidableEq, Repr

/-- The integer behind a function code. -/
def EModbusFunction.code : EModbusFunction → ℕ
  | .readCoils => 0x01
  | .readDiscreteInputs => 0x02
  | .readHoldingRegisters => 0x03
  | .readInputRegisters => 0x04
  | .writeSingleCoil => 0x05
  | .writeSingleRegister => 0x06
  | .readExceptionStatus => 0x07
  | .writeMultipleCoils => 0x0F
  | .writeMultipleRegisters => 0x10
  | .reportSlaveId => 0x11
  | .writeMaskRegister => 0x16
  | .writeAndReadRegisters => 0x17
  | .unnamed code => code

/-- The cast `(EModbusFunction)code`. -/
def EModbusFunction.ofCode : ℕ → EModbusFunction
  | 0x01 => .readCoils
  | 0x02 => .readDiscreteInputs
  | 0x03 => .readHoldingRegisters
  | 0x04 => .readInputRegisters
  | 0x05 => .writeSingleCoil
  | 0x06 => .writeSingleRegister
  | 0x07 => .readExceptionStatus
  | 0x0F => .writeMultipleCoils
  | 0x10 => .writeMultipleRegisters
  | 0x11 => .reportSlaveId
  | 0x16 => .writeMaskRegister
  | 0x17 => .writeAndReadRegisters
  | code => .unnamed code

/-- `TModbusAction`. -/
structure TModbusAction where
  i16uActionID : UInt16
  i8uSlaveAddress : UInt8
  eFunctionCode : EModbusFunction
  i32uStartRegister : UInt32
  i16uRegisterCount : UInt16
  i32uIntervalUs : UInt32
  i32uStartByteProcessData : UInt32
  i8uStartBitProcessData : UInt8
  i32uStatusByteProcessImageOffset : UInt32
  i32uResetStatusProcessImageByteOffset : UInt32
  i8uResetStatusProcessImageBitOffset : UInt8
  deriving DecidableEq, Repr

/-- The `calloc`ed action, every field zero. -/
def TModbusAction.zero : TModbusAction where
  i16uActionID := 0
  i8uSlaveAddress := 0
  eFunctionCode := .ofCode 0
  i32uStartRegister := 0
  i16uRegisterCount := 0
  i32uIntervalUs := 0
  i32uStartByteProcessData := 0
  i8uStartBitProcessData := 0
  i32uStatusByteProcessImageOffset := 0
  i32uResetStatusProcessImageByteOffset := 0
  i8uResetStatusProcessImageBitOffset := 0

/-- `EModbusProtocol`. -/
inductive EModbusProtocol
  | protRTU
  | protTCP
  deriving DecidableEq, Repr

/-- `TTcpConfig`. -/
structure TTcpConfig where
  szTcpIpAddress : List Char
  i32uPort : UInt32
  maxModbusConnections : UInt32
  deriving DecidableEq, Repr

/-- `TRtuConfig`, without the fields that nothing sets (vendor, model, serial number). -/
structure TRtuConfig where
  i32uBaud : UInt32
  cParity : Char
  i8uDatabits : UInt8
  i8uStopbits : UInt8
  u8DeviceModbusAddress : UInt8
  sz8DeviceFilePath : List Char
  deriving DecidableEq, Repr

/-- `eProtocol` together with the member of the union `uProt` that it selects. -/
inductive UProt
  | tTcpConfig (config : TTcpConfig)
  | tRtuConfig (config : TRtuConfig)
  deriving DecidableEq, Repr

/-- `eProtocol`. -/
def UProt.eProtocol : UProt → EModbusProtocol
  | .tTcpConfig _ => .protTCP
  | .tRtuConfig _ => .protRTU

/-- `TModbusDeviceConfiguration`. -/
structure TModbusDeviceConfiguration where
  uProt : UProt
  i32uDeviceStatusByteProcessImageOffset : UInt32
  i32uDeviceStatusResetByteProcessImageByteOffset : UInt32
  deriving DecidableEq, Repr

/-- `TModbusMasterConfiguration`. -/
structure TModbusMasterConfiguration where
  tModbusDeviceConfig : TModbusDeviceConfiguration
  i32ActionCount : ℤ
  mbActionListHead : List TModbusAction
  deriving DecidableEq, Repr

/-- `TModbusSlaveDataSizeConfig`. -/
structure TModbusSlaveDataSizeConfig where
  u16DiscreteInputs : UInt16
  u16Coils : UInt16
  u16InputRegisters : UInt16
  u16HoldingRegisters : UInt16
  deriving DecidableEq, Repr

/-- `TProcessImageConfiguration`. -/
structure TProcessImageConfiguration where
  u32DiscreteInputsOffset : UInt32
  u32DiscreteInputsLength : UInt32
  u32CoilsInputOffset : UInt32
  u32CoilsLength : UInt32
  u32InputRegistersOffset : UInt32
  u32InputRegistersLength : UInt32
  u32HoldingRegistersInputOffset : UInt32
  u32HoldingRegistersLength : UInt32
  deriving DecidableEq, Repr

/-- `TModbusSlaveConfiguration`. -/
structure TModbusSlaveConfiguration where
  tModbusDeviceConfig : TModbusDeviceConfiguration
  tModbusDataConfig : TModbusSlaveDataSizeConfig
  tProcessImageConfig : TProcessImageConfiguration
  deriving DecidableEq, Repr

end RevPiModbus
