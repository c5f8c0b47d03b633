import RevPiModbus.ModbusMasterThread
import RevPiModbus.Lib.Interleaving

/-!
# The master threads call by call

`processModbusAction` and the loops of `ModbusMasterThread.c` once more, as programs that make one
call of piControl or libmodbus after the other. Between two calls the other threads and the user
have access to the process image.

* `HostCall`, `Host.perform`: the calls;
* `processModbusActionProgram`, `resetModbusActionStatusProgram`, `loopProgram`: the programs;
* `processModbusActionProgram_exec`, `loopProgram_exec`: executed in one piece they do what the
  functions do, on every host.
-/

namespace RevPiModbus

open Interleaving

/-- A call of piControl or libmodbus. -/
inductive HostCall
  | piControlRead (a : UInt32) (n : ℕ)
  | piControlWrite (a : UInt32) (data : List UInt8)
  | piControlSetBitValue (v : SPIValue)
  | piControlGetBitValue (v : SPIValue)
  | modbus (call : ModbusCall)
  deriving DecidableEq, Repr

/-- What the calls return. -/
abbrev HostCall.Answer : HostCall → Type
  | .piControlRead _ _ => ℤ × List UInt8
  | .piControlWrite _ _ => ℤ
  | .piControlSetBitValue _ => ℤ
  | .piControlGetBitValue _ => ℤ × UInt8
  | .modbus _ => ModbusReply

/-- The calls on a host. -/
def Host.perform {σ : Type} (host : Host σ) : (c : HostCall) → σ → c.Answer × σ
  | .piControlRead a n => host.piControlRead a n
  | .piControlWrite a data => host.piControlWrite a data
  | .piControlSetBitValue v => host.piControlSetBitValue v
  | .piControlGetBitValue v => host.piControlGetBitValue v
  | .modbus call => host.modbus call

/-- A program of a master thread. -/
abbrev HostProgram := Program HostCall.Answer

/-- A single call. -/
abbrev HostCall.ask (c : HostCall) : HostProgram c.Answer := Program.ask c

/-- Go on with a value, or stop at a fault. -/
abbrev orStop {α : Type} : Except Fault α → HostProgram α := Program.ofExcept

/-! ## The programs -/

/-- The local variables of `processModbusAction` without the state of the host. -/
abbrev TransactionLocals := Transaction Unit

/-- `receiveModbus`. -/
def receiveModbusProgram (call : ModbusCall) (t : TransactionLocals) :
    HostProgram TransactionLocals := do
  let reply : ModbusReply ← (HostCall.modbus call).ask
  let buffer ← orStop (overwrite t.buffer reply.data)
  return { t with len := reply.len, errno := reply.errno, buffer := buffer, request := some call }

/-- `sendModbus`. -/
def sendModbusProgram (call : ModbusCall) (t : TransactionLocals) :
    HostProgram TransactionLocals := do
  let reply : ModbusReply ← (HostCall.modbus call).ask
  return { t with len := reply.len, errno := reply.errno, request := some call }

/-- `storeCoils`. -/
def storeCoilsProgram (action : TModbusAction) (buffer : List UInt8) : ℕ → ℕ → ℤ → HostProgram ℤ
  | 0, _, successful => return successful
  | n + 1, i, _ =>
    match buffer[i]? with
    | none => .stop
    | some value => do
      let successful : ℤ ← (HostCall.piControlSetBitValue (coilData action i value)).ask
      if successful < 0 then return successful
      else storeCoilsProgram action buffer n (i + 1) successful

/-- `fetchCoils`. -/
def fetchCoilsProgram (action : TModbusAction) :
    ℕ → ℕ → ℤ → List UInt8 → HostProgram (ℤ × List UInt8)
  | 0, _, successful, buffer => return (successful, buffer)
  | n + 1, i, _, buffer => do
    let (successful, value) ← (HostCall.piControlGetBitValue (coilData action i 0)).ask
    if successful < 0 then return (successful, buffer)
    else if i < buffer.length then
      fetchCoilsProgram action n (i + 1) successful (buffer.set i value)
    else .stop

/-- `readBitsCase`. -/
def readBitsProgram (action : TModbusAction) (call : ModbusCall) (t : TransactionLocals) :
    HostProgram TransactionLocals := do
  let count := action.i16uRegisterCount.toNat
  orStop (cAssert (count ≤ modbusMaxReadBits))
  let t ← receiveModbusProgram call t
  if t.len < count then
    return t
  else
    let successful ← storeCoilsProgram action t.buffer count 0 t.successful
    return { t with successful := successful }

/-- `readRegistersCase`. -/
def readRegistersProgram (action : TModbusAction) (call : ModbusCall) (t : TransactionLocals) :
    HostProgram TransactionLocals := do
  let count := action.i16uRegisterCount.toNat
  orStop (cAssert (count ≤ modbusMaxReadRegisters))
  let t ← receiveModbusProgram call t
  if t.len < count then
    return t
  else
    let data ← orStop (bufferFront t.buffer (2 * count))
    let successful ← (HostCall.piControlWrite action.i32uStartByteProcessData data).ask
    return { t with successful := successful }

/-- `writeSingleRegisterCase`. -/
def writeSingleRegisterProgram (action : TModbusAction) (t : TransactionLocals) :
    HostProgram TransactionLocals := do
  let count := action.i16uRegisterCount.toNat
  orStop (cAssert (count = 1))
  let (successful, data) ← (HostCall.piControlRead action.i32uStartByteProcessData (2 * count)).ask
  let buffer ← orStop (overwrite t.buffer data)
  let t := { t with successful := successful, buffer := buffer }
  if successful ≤ 0 then
    return t
  else
    match buffer with
    | low :: high :: _ =>
      sendModbusProgram (.writeRegister action.modbusAddress (low.toNat + high.toNat * 2 ^ 8)) t
    | _ => .stop

/-- `writeSingleCoilCase`. -/
def writeSingleCoilProgram (action : TModbusAction) (t : TransactionLocals) :
    HostProgram TransactionLocals := do
  let count := action.i16uRegisterCount.toNat
  orStop (cAssert (count = 1))
  let (successful, buffer) ← fetchCoilsProgram action count 0 t.successful t.buffer
  let t := { t with successful := successful, buffer := buffer }
  if successful ≥ 0 then
    match buffer with
    | status :: _ => sendModbusProgram (.writeBit action.modbusAddress status) t
    | [] => .stop
  else
    return t

/-- `writeMultipleCoilsCase`. -/
def writeMultipleCoilsProgram (action : TModbusAction) (t : TransactionLocals) :
    HostProgram TransactionLocals := do
  let count := action.i16uRegisterCount.toNat
  orStop (cAssert (count ≤ modbusMaxWriteBits))
  let (successful, buffer) ← fetchCoilsProgram action count 0 t.successful t.buffer
  let t := { t with successful := successful, buffer := buffer }
  if successful ≥ 0 then
    let data ← orStop (bufferFront buffer count)
    sendModbusProgram (.writeBits action.modbusAddress count data) t
  else
    return t

/-- `writeMultipleRegistersCase`. -/
def writeMultipleRegistersProgram (action : TModbusAction) (t : TransactionLocals) :
    HostProgram TransactionLocals := do
  let count := action.i16uRegisterCount.toNat
  orStop (cAssert (count ≤ modbusMaxWriteRegisters))
  let (successful, data) ← (HostCall.piControlRead action.i32uStartByteProcessData (2 * count)).ask
  let buffer ← orStop (overwrite t.buffer data)
  let t := { t with successful := successful, buffer := buffer }
  if successful ≤ 0 then
    return t
  else
    let data ← orStop (bufferFront buffer (2 * count))
    sendModbusProgram (.writeRegisters action.modbusAddress count data) t

/-- `reportSlaveIdCase`. -/
def reportSlaveIdProgram (action : TModbusAction) (t : TransactionLocals) :
    HostProgram TransactionLocals := do
  let count := action.i16uRegisterCount.toNat
  orStop (cAssert (count ≤ modbusMaxPduLength))
  let t ← receiveModbusProgram (.reportSlaveId maxRegisterSizePerAction) t
  if t.len < count then
    return t
  else
    let data ← orStop (bufferFront t.buffer count)
    let successful ← (HostCall.piControlWrite action.i32uStartByteProcessData data).ask
    return { t with successful := successful }

/-- The `switch` of `processModbusAction`. -/
def switchFunctionCodeProgram (action : TModbusAction) (t : TransactionLocals) :
    HostProgram TransactionLocals :=
  let addr := action.modbusAddress
  let count := action.i16uRegisterCount.toNat
  match action.eFunctionCode with
  | .readCoils => readBitsProgram action (.readBits addr count) t
  | .readDiscreteInputs => readBitsProgram action (.readInputBits addr count) t
  | .readHoldingRegisters => readRegistersProgram action (.readRegisters addr count) t
  | .readInputRegisters => readRegistersProgram action (.readInputRegisters addr count) t
  | .writeSingleRegister => writeSingleRegisterProgram action t
  | .readExceptionStatus => return t
  | .writeSingleCoil => writeSingleCoilProgram action t
  | .writeMultipleCoils => writeMultipleCoilsProgram action t
  | .writeMultipleRegisters => writeMultipleRegistersProgram action t
  | .reportSlaveId => reportSlaveIdProgram action t
  | .writeMaskRegister | .writeAndReadRegisters | .unnamed _ => return t

/-- `processModbusAction`. -/
def processModbusActionProgram (action : TModbusAction) (buffer : List UInt8) :
    HostProgram TransactionLocals := do
  let t ← switchFunctionCodeProgram action (.start buffer ())
  if t.len < 0 then
    let _ ← (HostCall.piControlWrite action.i32uStatusByteProcessImageOffset
      [errorCode t.errno]).ask
    return t
  else
    return t

/-- `reset_modbus_action_status`. -/
def resetModbusActionStatusProgram (statusResetByteOffset : UInt32) (statusResetBitOffset : UInt8)
    (statusBytePiOffset : UInt32) : HostProgram ℤ := do
  let resetData : SPIValue :=
    { i16uAddress := statusResetByteOffset.toUInt16, i8uBit := statusResetBitOffset, i8uValue := 0 }
  let (successful, value) ← (HostCall.piControlGetBitValue resetData).ask
  if successful < 0 then
    return successful
  else if value ≠ 0 then
    let successful : ℤ ← (HostCall.piControlWrite statusBytePiOffset [0]).ask
    if successful < 0 then
      return successful
    else
      (HostCall.piControlSetBitValue resetData).ask
  else
    return successful

/-! ## The loops -/

/-- The local variables of a master thread without the state of the host. -/
abbrev LoopLocals := LoopState Unit

/-- What a thread learns from outside its calls of piControl and `processModbusAction`. -/
inductive LoopInput
  | connect (connected : Bool) (malloc : ℕ → Bool) (currentTime : Timespec)
  | proceed

/-- `writeDeviceStatus`. -/
def writeDeviceStatusProgram (config : TModbusMasterConfiguration) (error : EModbusErrors) :
    HostProgram Unit := do
  let _ ← (HostCall.piControlWrite
    config.tModbusDeviceConfig.i32uDeviceStatusByteProcessImageOffset [error.code]).ask
  return ()

/-- `connectStep`. -/
def connectProgram (config : TModbusMasterConfiguration) (connected : Bool) (malloc : ℕ → Bool)
    (currentTime : Timespec) (s : LoopLocals) : HostProgram LoopLocals :=
  if connected then
    match initScheduler malloc currentTime config.mbActionListHead with
    | .ok (ret, eventList) =>
      if ret < 0 then do
        writeDeviceStatusProgram config .internalError
        return { s with phase := .ended }
      else do
        writeDeviceStatusProgram config .noError
        return { s with phase := .nextEvent, eventList := eventList, errCnt := 0 }
    | .error _ => .stop
  else do
    writeDeviceStatusProgram config .noResponseFromDevice
    return { s with
      phase := match config.tModbusDeviceConfig.uProt.eProtocol with
        | .protTCP => .connect
        | .protRTU => .ended }

/-- `processStep`. -/
def processProgram (config : TModbusMasterConfiguration) (action : TModbusAction)
    (s : LoopLocals) : HostProgram LoopLocals := do
  let out ← processModbusActionProgram action s.buffer
  let errCnt := if out.len < 0 then s.errCnt + 1 else 0
  return { s with
    phase := match config.tModbusDeviceConfig.uProt.eProtocol with
      | .protTCP => if errCnt > 100 then .connect else .nextEvent
      | .protRTU => .nextEvent
    errCnt := errCnt
    buffer := out.buffer }

/-- The program of one step of a loop. -/
def loopProgram (config : TModbusMasterConfiguration) (s : LoopLocals) :
    LoopInput → HostProgram LoopLocals
  | .connect connected malloc currentTime =>
    if s.phase = .connect then connectProgram config connected malloc currentTime s else .stop
  | .proceed =>
    match s.phase with
    | .nextEvent =>
      match getNextEvent s.eventList with
      | .ok (some (nextEvent, eventList)) => return { s with
          phase := .reset (resetPending config.tModbusDeviceConfig.uProt.eProtocol nextEvent
            eventList) nextEvent
          eventList := eventList }
      | _ => .stop
    | .reset (i :: pending) nextEvent =>
      match config.mbActionListHead[i]? with
      | some action => do
        let _ ← resetModbusActionStatusProgram action.i32uResetStatusProcessImageByteOffset
          action.i8uResetStatusProcessImageBitOffset action.i32uStatusByteProcessImageOffset
        return { s with phase := .reset pending nextEvent }
      | none => .stop
    | .reset [] nextEvent => do
      let _ ← resetModbusActionStatusProgram
        config.tModbusDeviceConfig.i32uDeviceStatusResetByteProcessImageByteOffset 0
        config.tModbusDeviceConfig.i32uDeviceStatusByteProcessImageOffset
      return { s with phase := .process nextEvent }
    | .process nextEvent =>
      match config.mbActionListHead[nextEvent.ptModbusAction]? with
      | some action => processProgram config action s
      | none => .stop
    | _ => .stop

/-! ## In one piece -/

variable {σ : Type}

/-- The local variables together with a state of the host. -/
def TransactionLocals.at (t : TransactionLocals) (s : σ) : Transaction σ := { t with state := s }

/-- The local variables and the state of the host apart. -/
def Transaction.split (t : Transaction σ) : TransactionLocals × σ :=
  ({ t with state := () }, t.state)

variable {host : Host σ} {action : TModbusAction} {t : TransactionLocals} {s : σ}

/-- Executed in one piece, the program does what the function does, whose result `x` is the value
and the new state of the host in the form `f`. -/
abbrev Computes {α β : Type} (host : Host σ) (p : HostProgram α) (s : σ) (x : Except Fault β)
    (f : β → α × σ) : Prop :=
  Program.Computes host.perform p s x f

theorem receiveModbusProgram_computes (call : ModbusCall) :
    Computes host (receiveModbusProgram call t) s (receiveModbus host call (t.at s))
      Transaction.split :=
  .ask (HostCall.modbus call) (.bind (.ofExcept _) fun _ => .pure rfl)

theorem sendModbusProgram_computes (call : ModbusCall) :
    Computes host (sendModbusProgram call t) s (.ok (sendModbus host call (t.at s)))
      Transaction.split :=
  .ask (HostCall.modbus call) (.pure rfl)

theorem storeCoilsProgram_computes {buffer : List UInt8} {n i : ℕ} {successful : ℤ} {s : σ} :
    Computes host (storeCoilsProgram action buffer n i successful) s
      (storeCoils host action buffer n i successful s) id := by
  induction n generalizing i successful s with
  | zero => exact .pure rfl
  | succ n ih =>
    unfold storeCoilsProgram storeCoils
    cases buffer[i]? with
    | none => exact .stop _
    | some value =>
      exact .ask (HostCall.piControlSetBitValue (coilData action i value)) (.ite (.pure rfl) ih)

theorem fetchCoilsProgram_computes {n i : ℕ} {successful : ℤ} {buffer : List UInt8} {s : σ} :
    Computes host (fetchCoilsProgram action n i successful buffer) s
      (fetchCoils host action n i successful buffer s) fun r => ((r.1, r.2.1), r.2.2) := by
  induction n generalizing i successful buffer s with
  | zero => exact .pure rfl
  | succ n ih =>
    unfold fetchCoilsProgram fetchCoils
    exact .ask (HostCall.piControlGetBitValue (coilData action i 0))
      (.ite (.pure rfl) (.ite ih (.stop _)))

theorem readBitsProgram_computes (call : ModbusCall) :
    Computes host (readBitsProgram action call t) s (readBitsCase host action call (t.at s))
      Transaction.split := by
  unfold readBitsProgram readBitsCase
  refine .bind (.ofExcept _) fun _ => .bind (receiveModbusProgram_computes call) fun r => ?_
  exact .ite (.pure rfl) (.bind storeCoilsProgram_computes fun _ => .pure rfl)

theorem readRegistersProgram_computes (call : ModbusCall) :
    Computes host (readRegistersProgram action call t) s
      (readRegistersCase host action call (t.at s)) Transaction.split := by
  unfold readRegistersProgram readRegistersCase
  refine .bind (.ofExcept _) fun _ => .bind (receiveModbusProgram_computes call) fun r => ?_
  refine .ite (.pure rfl) (.bind (.ofExcept _) fun data => ?_)
  exact .ask (HostCall.piControlWrite action.i32uStartByteProcessData data) (.pure rfl)

theorem reportSlaveIdProgram_computes :
    Computes host (reportSlaveIdProgram action t) s (reportSlaveIdCase host action (t.at s))
      Transaction.split := by
  unfold reportSlaveIdProgram reportSlaveIdCase
  refine .bind (.ofExcept _) fun _ => .bind (receiveModbusProgram_computes _) fun r => ?_
  refine .ite (.pure rfl) (.bind (.ofExcept _) fun data => ?_)
  exact .ask (HostCall.piControlWrite action.i32uStartByteProcessData data) (.pure rfl)

theorem writeSingleRegisterProgram_computes :
    Computes host (writeSingleRegisterProgram action t) s
      (writeSingleRegisterCase host action (t.at s)) Transaction.split := by
  unfold writeSingleRegisterProgram writeSingleRegisterCase
  refine .bind (.ofExcept _) fun _ =>
    .ask (HostCall.piControlRead action.i32uStartByteProcessData _) ?_
  refine .bind (.ofExcept _) fun buffer => .ite (.pure rfl) ?_
  rcases buffer with - | ⟨low, - | ⟨high, buffer⟩⟩
  · exact .stop _
  · exact .stop _
  · exact sendModbusProgram_computes _

theorem writeMultipleRegistersProgram_computes :
    Computes host (writeMultipleRegistersProgram action t) s
      (writeMultipleRegistersCase host action (t.at s)) Transaction.split := by
  unfold writeMultipleRegistersProgram writeMultipleRegistersCase
  refine .bind (.ofExcept _) fun _ =>
    .ask (HostCall.piControlRead action.i32uStartByteProcessData _) ?_
  refine .bind (.ofExcept _) fun buffer => .ite (.pure rfl) ?_
  exact .bind (.ofExcept _) fun data => sendModbusProgram_computes _

theorem writeSingleCoilProgram_computes :
    Computes host (writeSingleCoilProgram action t) s (writeSingleCoilCase host action (t.at s))
      Transaction.split := by
  unfold writeSingleCoilProgram writeSingleCoilCase
  refine .bind (.ofExcept _) fun _ => .bind fetchCoilsProgram_computes ?_
  rintro ⟨successful, buffer, state⟩
  refine .ite ?_ (.pure rfl)
  cases buffer with
  | nil => exact .stop _
  | cons status buffer => exact sendModbusProgram_computes _

theorem writeMultipleCoilsProgram_computes :
    Computes host (writeMultipleCoilsProgram action t) s
      (writeMultipleCoilsCase host action (t.at s)) Transaction.split := by
  unfold writeMultipleCoilsProgram writeMultipleCoilsCase
  refine .bind (.ofExcept _) fun _ => .bind fetchCoilsProgram_computes ?_
  rintro ⟨successful, buffer, state⟩
  exact .ite (.bind (.ofExcept _) fun data => sendModbusProgram_computes _) (.pure rfl)

theorem switchFunctionCodeProgram_computes :
    Computes host (switchFunctionCodeProgram action t) s
      (switchFunctionCode host action (t.at s)) Transaction.split := by
  unfold switchFunctionCodeProgram switchFunctionCode
  cases action.eFunctionCode with
  | readCoils => exact readBitsProgram_computes _
  | readDiscreteInputs => exact readBitsProgram_computes _
  | readHoldingRegisters => exact readRegistersProgram_computes _
  | readInputRegisters => exact readRegistersProgram_computes _
  | writeSingleCoil => exact writeSingleCoilProgram_computes
  | writeSingleRegister => exact writeSingleRegisterProgram_computes
  | writeMultipleCoils => exact writeMultipleCoilsProgram_computes
  | writeMultipleRegisters => exact writeMultipleRegistersProgram_computes
  | reportSlaveId => exact reportSlaveIdProgram_computes
  | readExceptionStatus | writeMaskRegister | writeAndReadRegisters | unnamed code =>
    exact .pure rfl

/-- **`processModbusAction` call by call.** -/
theorem processModbusActionProgram_computes {buffer : List UInt8} :
    Computes host (processModbusActionProgram action buffer) s
      (processModbusAction host action buffer s) Transaction.split := by
  unfold processModbusActionProgram processModbusAction
  refine .bind (switchFunctionCodeProgram_computes (t := .start buffer ())) fun r => ?_
  refine .ite ?_ (.pure rfl)
  exact .ask (HostCall.piControlWrite action.i32uStatusByteProcessImageOffset [errorCode r.errno])
    (.pure rfl)

/-- `reset_modbus_action_status` call by call. -/
theorem resetModbusActionStatusProgram_computes (byteOffset : UInt32) (bitOffset : UInt8)
    (statusOffset : UInt32) :
    Computes host (resetModbusActionStatusProgram byteOffset bitOffset statusOffset) s
      (.ok (resetModbusActionStatus host byteOffset bitOffset statusOffset s)) id := by
  unfold resetModbusActionStatusProgram resetModbusActionStatus
  refine .ask (HostCall.piControlGetBitValue _) (.ite_ok (.pure rfl) (.ite_ok ?_ (.pure rfl)))
  exact .ask (HostCall.piControlWrite statusOffset [0]) (.ite_ok (.pure rfl) rfl)

/-- The local variables of a thread together with a state of the host. -/
def LoopLocals.at (x : LoopLocals) (s : σ) : LoopState σ := { x with state := s }

/-- The local variables of a thread and the state of the host apart. -/
def LoopState.split (x : LoopState σ) : LoopLocals × σ := ({ x with state := () }, x.state)

/-- The label of a step. -/
def LoopInput.label : LoopInput → LoopLabel σ
  | .connect connected malloc currentTime => .connect connected malloc currentTime
  | .proceed => .proceed

variable {config : TModbusMasterConfiguration} {x : LoopLocals}

theorem connectProgram_exec (connected : Bool) (malloc : ℕ → Bool) (currentTime : Timespec) :
    (connectProgram config connected malloc currentTime x).exec host.perform s =
      (connectStep host config connected malloc currentTime (x.at s)).map LoopState.split := by
  unfold connectProgram connectStep
  cases connected with
  | false => rfl
  | true =>
    simp only [if_true]
    cases initScheduler malloc currentTime config.mbActionListHead with
    | error fault => rfl
    | ok r =>
      dsimp only
      split_ifs with hret
      · rfl
      · rfl

theorem processProgram_exec :
    (processProgram config action x).exec host.perform s =
      (processStep host config action (x.at s)).map LoopState.split := by
  have hprocess : (processModbusActionProgram action x.buffer).exec host.perform s =
      (processModbusAction host action x.buffer s).toOption.map Transaction.split :=
    processModbusActionProgram_computes
  unfold processProgram processStep
  rw [Program.exec_bind, hprocess]
  simp only [LoopLocals.at]
  cases processModbusAction host action x.buffer s with
  | error fault => rfl
  | ok out => rfl

theorem resetProgram_exec (byteOffset : UInt32) (bitOffset : UInt8) (statusOffset : UInt32)
    (y : LoopLocals) :
    Program.exec host.perform (do
      let _ ← resetModbusActionStatusProgram byteOffset bitOffset statusOffset
      return y) s =
    some (y, (resetModbusActionStatus host byteOffset bitOffset statusOffset s).2) := by
  have hreset : (resetModbusActionStatusProgram byteOffset bitOffset statusOffset).exec
      host.perform s = some (resetModbusActionStatus host byteOffset bitOffset statusOffset s) :=
    resetModbusActionStatusProgram_computes byteOffset bitOffset statusOffset
  rw [Program.exec_bind, hreset]
  rfl

/-- **The loops call by call.** On every host, the program of a step does in one piece what the step
does. -/
theorem loopProgram_exec (input : LoopInput) :
    (loopProgram config x input).exec host.perform s =
      (loopStep host config (x.at s) input.label).map LoopState.split := by
  cases input with
  | connect connected malloc currentTime =>
    show Program.exec _ (if x.phase = .connect then _ else _) s =
      Option.map _ (if x.phase = .connect then _ else none)
    split_ifs with hphase
    · exact connectProgram_exec connected malloc currentTime
    · rfl
  | proceed =>
    obtain ⟨phase, eventList, errCnt, buffer, -⟩ := x
    cases phase with
    | connect | ended => rfl
    | nextEvent =>
      simp only [loopProgram, loopStep, LoopInput.label, LoopLocals.at]
      rcases getNextEvent eventList with fault | - | ⟨nextEvent, eventList⟩ <;> rfl
    | reset pending nextEvent =>
      cases pending with
      | nil => exact resetProgram_exec _ _ _ _
      | cons i pending =>
        simp only [loopProgram, loopStep, LoopInput.label, LoopLocals.at]
        cases config.mbActionListHead[i]? with
        | none => rfl
        | some action => exact resetProgram_exec _ _ _ _
    | process nextEvent =>
      simp only [loopProgram, loopStep, LoopInput.label, LoopLocals.at]
      cases config.mbActionListHead[nextEvent.ptModbusAction]? with
      | none => rfl
      | some action => exact processProgram_exec

end RevPiModbus
