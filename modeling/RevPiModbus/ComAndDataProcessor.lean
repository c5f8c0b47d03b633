import RevPiModbus.Host

/-!
# Processing one Modbus action

`ComAndDataProcessor.c`: an action is one request to libmodbus together with the transfer of its
data between the buffer of the thread and the process image. The function holds
`mutex_modbus_context` from beginning to end, so the calls of one action are not interleaved with
those of another.

* `Transaction`: the local variables of `processModbusAction`, with the buffer, the state of the
  host and the request that has been sent;
* `storeCoils`, `fetchCoils`: the loops over the bits of an action;
* `processModbusAction`, `writeErrorMessage`, `resetModbusActionStatus`, `resetModbusMasterStatus`.
-/

namespace RevPiModbus

/-- `MODBUS_MAX_READ_BITS` of libmodbus. -/
def modbusMaxReadBits : ℕ := 2000

/-- `MODBUS_MAX_WRITE_BITS` of libmodbus. -/
def modbusMaxWriteBits : ℕ := 1968

/-- `MODBUS_MAX_READ_REGISTERS` of libmodbus. -/
def modbusMaxReadRegisters : ℕ := 125

/-- `MODBUS_MAX_WRITE_REGISTERS` of libmodbus. -/
def modbusMaxWriteRegisters : ℕ := 123

/-- `MODBUS_MAX_PDU_LENGTH`. -/
def modbusMaxPduLength : ℕ := 253

/-- `MODBUS_ENOBASE` of libmodbus. -/
def modbusEnobase : UInt32 := 112345678

variable {σ : Type}

/-- The local variables of `processModbusAction`, the buffer, the state of the host, and the
request that has been sent to libmodbus. -/
structure Transaction (σ : Type) where
  len : ℤ
  successful : ℤ
  errno : UInt32
  buffer : List UInt8
  request : Option ModbusCall
  state : σ

/-- The local variables at the beginning. -/
def Transaction.start (buffer : List UInt8) (state : σ) : Transaction σ where
  len := 0
  successful := 0
  errno := 0
  buffer := buffer
  request := none
  state := state

/-- A call of libmodbus that stores its data in the buffer. -/
def receiveModbus (host : Host σ) (call : ModbusCall) (t : Transaction σ) :
    Except Fault (Transaction σ) := do
  let (reply, state) := host.modbus call t.state
  let buffer ← overwrite t.buffer reply.data
  return { t with
    len := reply.len, errno := reply.errno, buffer := buffer, request := some call, state := state }

/-- No call stores more than its capacity, so it fits into a buffer of that size. -/
theorem receiveModbus_eq {host : Host σ} (hhost : host.Conforms) {call : ModbusCall}
    {t : Transaction σ} (hfit : call.capacity ≤ t.buffer.length) :
    receiveModbus host call t = .ok { t with
      len := (host.modbus call t.state).1.len
      errno := (host.modbus call t.state).1.errno
      buffer := (host.modbus call t.state).1.data ++
        t.buffer.drop (host.modbus call t.state).1.data.length
      request := some call
      state := (host.modbus call t.state).2 } := by
  have hdata := hhost.modbus_data call t.state
  have hle : (host.modbus call t.state).1.data.length ≤ t.buffer.length := by omega
  unfold receiveModbus
  simp only [overwrite_of hle, ok_bind, except_pure]

/-- A call of libmodbus that only sends data. -/
def sendModbus (host : Host σ) (call : ModbusCall) (t : Transaction σ) : Transaction σ :=
  let (reply, state) := host.modbus call t.state
  { t with len := reply.len, errno := reply.errno, request := some call, state := state }

/-- `coil_data_l` for the coil number `i`: byte and bit are computed separately. -/
def coilData (action : TModbusAction) (i : ℕ) (value : UInt8) : SPIValue where
  i16uAddress := UInt16.ofNat (action.i32uStartByteProcessData.toNat + i / 8)
  i8uBit := UInt8.ofNat ((action.i8uStartBitProcessData.toNat + i) % 8)
  i8uValue := value

/-- The loop of the read functions over `n` coils from number `i` on. -/
def storeCoils (host : Host σ) (action : TModbusAction) (buffer : List UInt8) :
    ℕ → ℕ → ℤ → σ → Except Fault (ℤ × σ)
  | 0, _, successful, state => .ok (successful, state)
  | n + 1, i, _, state =>
    match buffer[i]? with
    | none => .error .outOfBounds
    | some value =>
      let (successful, state) := host.piControlSetBitValue (coilData action i value) state
      if successful < 0 then .ok (successful, state)
      else storeCoils host action buffer n (i + 1) successful state

/-- The loop of the write functions over `n` coils from number `i` on. -/
def fetchCoils (host : Host σ) (action : TModbusAction) :
    ℕ → ℕ → ℤ → List UInt8 → σ → Except Fault (ℤ × List UInt8 × σ)
  | 0, _, successful, buffer, state => .ok (successful, buffer, state)
  | n + 1, i, _, buffer, state =>
    let ((successful, value), state) := host.piControlGetBitValue (coilData action i 0) state
    if successful < 0 then .ok (successful, buffer, state)
    else if i < buffer.length then
      fetchCoils host action n (i + 1) successful (buffer.set i value) state
    else .error .outOfBounds

/-- `i32uStartRegister - MODBUS_ADDRESS_OFFSET`, as the `int` that libmodbus takes. -/
def TModbusAction.modbusAddress (action : TModbusAction) : ℤ :=
  toInt32 (action.i32uStartRegister.toNat - 1)

/-- The branches `eREAD_COILS` and `eREAD_DISCRETE_INPUTS`. -/
def readBitsCase (host : Host σ) (action : TModbusAction) (call : ModbusCall)
    (t : Transaction σ) : Except Fault (Transaction σ) := do
  let count := action.i16uRegisterCount.toNat
  cAssert (count ≤ modbusMaxReadBits)
  let t ← receiveModbus host call t
  if t.len < count then
    return t
  else
    let (successful, state) ← storeCoils host action t.buffer count 0 t.successful t.state
    return { t with successful := successful, state := state }

/-- The branches `eREAD_HOLDING_REGISTERS` and `eREAD_INPUT_REGISTERS`. -/
def readRegistersCase (host : Host σ) (action : TModbusAction) (call : ModbusCall)
    (t : Transaction σ) : Except Fault (Transaction σ) := do
  let count := action.i16uRegisterCount.toNat
  cAssert (count ≤ modbusMaxReadRegisters)
  let t ← receiveModbus host call t
  if t.len < count then
    return t
  else
    let data ← bufferFront t.buffer (2 * count)
    let (successful, state) := host.piControlWrite action.i32uStartByteProcessData data t.state
    return { t with successful := successful, state := state }

/-- The branch `eWRITE_SINGLE_REGISTER`; the value is little endian. -/
def writeSingleRegisterCase (host : Host σ) (action : TModbusAction) (t : Transaction σ) :
    Except Fault (Transaction σ) := do
  let count := action.i16uRegisterCount.toNat
  cAssert (count = 1)
  let ((successful, data), state) :=
    host.piControlRead action.i32uStartByteProcessData (2 * count) t.state
  let buffer ← overwrite t.buffer data
  let t := { t with successful := successful, buffer := buffer, state := state }
  if successful ≤ 0 then
    return t
  else
    match buffer with
    | low :: high :: _ =>
      return sendModbus host
        (.writeRegister action.modbusAddress (low.toNat + high.toNat * 2 ^ 8)) t
    | _ => .error .outOfBounds

/-- The branch `eWRITE_SINGLE_COIL`. -/
def writeSingleCoilCase (host : Host σ) (action : TModbusAction) (t : Transaction σ) :
    Except Fault (Transaction σ) := do
  let count := action.i16uRegisterCount.toNat
  cAssert (count = 1)
  let (successful, buffer, state) ← fetchCoils host action count 0 t.successful t.buffer t.state
  let t := { t with successful := successful, buffer := buffer, state := state }
  if successful ≥ 0 then
    match buffer with
    | status :: _ => return sendModbus host (.writeBit action.modbusAddress status) t
    | [] => .error .outOfBounds
  else
    return t

/-- The branch `eWRITE_MULTIPLE_COILS`. -/
def writeMultipleCoilsCase (host : Host σ) (action : TModbusAction) (t : Transaction σ) :
    Except Fault (Transaction σ) := do
  let count := action.i16uRegisterCount.toNat
  cAssert (count ≤ modbusMaxWriteBits)
  let (successful, buffer, state) ← fetchCoils host action count 0 t.successful t.buffer t.state
  let t := { t with successful := successful, buffer := buffer, state := state }
  if successful ≥ 0 then
    let data ← bufferFront buffer count
    return sendModbus host (.writeBits action.modbusAddress count data) t
  else
    return t

/-- The branch `eWRITE_MULTIPLE_REGISTERS`. -/
def writeMultipleRegistersCase (host : Host σ) (action : TModbusAction) (t : Transaction σ) :
    Except Fault (Transaction σ) := do
  let count := action.i16uRegisterCount.toNat
  cAssert (count ≤ modbusMaxWriteRegisters)
  let ((successful, data), state) :=
    host.piControlRead action.i32uStartByteProcessData (2 * count) t.state
  let buffer ← overwrite t.buffer data
  let t := { t with successful := successful, buffer := buffer, state := state }
  if successful ≤ 0 then
    return t
  else
    let data ← bufferFront buffer (2 * count)
    return sendModbus host (.writeRegisters action.modbusAddress count data) t

/-- The branch `eREPORT_SLAVE_ID`, as compiled for libmodbus from version 3.1.2 on. -/
def reportSlaveIdCase (host : Host σ) (action : TModbusAction) (t : Transaction σ) :
    Except Fault (Transaction σ) := do
  let count := action.i16uRegisterCount.toNat
  cAssert (count ≤ modbusMaxPduLength)
  let t ← receiveModbus host (.reportSlaveId maxRegisterSizePerAction) t
  if t.len < count then
    return t
  else
    let data ← bufferFront t.buffer count
    let (successful, state) := host.piControlWrite action.i32uStartByteProcessData data t.state
    return { t with successful := successful, state := state }

/-- The `switch` of `processModbusAction`. The function codes without a request only log. -/
def switchFunctionCode (host : Host σ) (action : TModbusAction) (t : Transaction σ) :
    Except Fault (Transaction σ) :=
  let addr := action.modbusAddress
  let count := action.i16uRegisterCount.toNat
  match action.eFunctionCode with
  | .readCoils => readBitsCase host action (.readBits addr count) t
  | .readDiscreteInputs => readBitsCase host action (.readInputBits addr count) t
  | .readHoldingRegisters => readRegistersCase host action (.readRegisters addr count) t
  | .readInputRegisters => readRegistersCase host action (.readInputRegisters addr count) t
  | .writeSingleRegister => writeSingleRegisterCase host action t
  | .readExceptionStatus => .ok t
  | .writeSingleCoil => writeSingleCoilCase host action t
  | .writeMultipleCoils => writeMultipleCoilsCase host action t
  | .writeMultipleRegisters => writeMultipleRegistersCase host action t
  | .reportSlaveId => reportSlaveIdCase host action t
  | .writeMaskRegister | .writeAndReadRegisters | .unnamed _ => .ok t

/-- `writeErrorMessage`. -/
def writeErrorMessage (host : Host σ) (statusBytePiOffset : UInt32) (modbusErrorCode : UInt8)
    (state : σ) : ℤ × σ :=
  host.piControlWrite statusBytePiOffset [modbusErrorCode] state

/-- The byte that stands for `errno` in the process image. -/
def errorCode (errno : UInt32) : UInt8 :=
  (if errno > modbusEnobase then errno - modbusEnobase else errno).toUInt8

/-- `processModbusAction`. -/
def processModbusAction (host : Host σ) (action : TModbusAction) (buffer : List UInt8)
    (state : σ) : Except Fault (Transaction σ) := do
  let t ← switchFunctionCode host action (.start buffer state)
  if t.len < 0 then
    let (_, state) :=
      writeErrorMessage host action.i32uStatusByteProcessImageOffset (errorCode t.errno) t.state
    return { t with state := state }
  else
    return t

/-- `reset_modbus_action_status`. -/
def resetModbusActionStatus (host : Host σ) (statusResetByteOffset : UInt32)
    (statusResetBitOffset : UInt8) (statusBytePiOffset : UInt32) (state : σ) : ℤ × σ :=
  let resetData : SPIValue :=
    { i16uAddress := statusResetByteOffset.toUInt16, i8uBit := statusResetBitOffset, i8uValue := 0 }
  let ((successful, value), state) := host.piControlGetBitValue resetData state
  if successful < 0 then
    (successful, state)
  else if value ≠ 0 then
    let (successful, state) := host.piControlWrite statusBytePiOffset [0] state
    if successful < 0 then
      (successful, state)
    else
      host.piControlSetBitValue resetData state
  else
    (successful, state)

/-- `reset_modbus_master_status`. -/
def resetModbusMasterStatus (host : Host σ) (statusResetByteOffset : UInt32)
    (statusByteOffset : UInt32) (state : σ) : ℤ × σ :=
  resetModbusActionStatus host statusResetByteOffset 0 statusByteOffset state

end RevPiModbus
