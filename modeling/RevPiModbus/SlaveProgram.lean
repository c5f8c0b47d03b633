import RevPiModbus.Lib.Interleaving
import RevPiModbus.ModbusSlaveThread

/-!
# The slave threads call by call

`process_modbus_request` and the two transfers of `piProcessImageAccess.c` once more, as programs
that make one call of piControl or libmodbus after the other.

* `SlaveCall`, `SlaveHost.perform`: the calls;
* `processModbusRequestProgram`: the program;
* `processModbusRequestProgram_computes`: executed in one piece they do what the functions do, on
  every host.
-/

namespace RevPiModbus

open Interleaving

/-- A call of a slave thread. -/
inductive SlaveCall
  | piControlRead (a : UInt32) (n : ℕ)
  | piControlWrite (a : UInt32) (data : List UInt8)
  | modbusReceive
  | sendResponse (req : ModbusRequest) (len : ℤ) (mbMapping : ModbusMapping)

/-- What the calls return. -/
abbrev SlaveCall.Answer : SlaveCall → Type
  | .piControlRead _ _ => ℤ × List UInt8
  | .piControlWrite _ _ => ℤ
  | .modbusReceive => ℤ × ModbusRequest
  | .sendResponse _ _ _ => ℤ

/-- The calls on a host. -/
def SlaveHost.perform {σ : Type} (host : SlaveHost σ) : (c : SlaveCall) → σ → c.Answer × σ
  | .piControlRead a n => host.piControlRead a n
  | .piControlWrite a data => host.piControlWrite a data
  | .modbusReceive => host.modbusReceive
  | .sendResponse req len mbMapping => host.sendResponse req len mbMapping

/-- A program of a slave thread. -/
abbrev SlaveProgram := Program SlaveCall.Answer

/-- A single call. -/
abbrev SlaveCall.ask (c : SlaveCall) : SlaveProgram c.Answer := Program.ask c

/-! ## The programs -/

/-- `writeHoldingRegisters`. -/
def writeHoldingRegistersProgram (mbMapping : ModbusMapping)
    (ptrSPiProcessImageOffsets : TProcessImageConfiguration) (successful : ℤ) : SlaveProgram ℤ :=
  if mbMapping.tabRegisters.length > 0 then
    (SlaveCall.piControlWrite ptrSPiProcessImageOffsets.u32HoldingRegistersInputOffset
      (registerBytes mbMapping.tabRegisters)).ask
  else
    return successful

/-- `writeModbusDataToProcessImage`. -/
def writeModbusDataProgram (mbMapping : ModbusMapping)
    (ptrSPiProcessImageOffsets : TProcessImageConfiguration) : SlaveProgram ℤ := do
  if mbMapping.tabBits.length > 0 then
    let data ← Program.ofExcept (bufferFront mbMapping.tabBits (mbMapping.tabBits.length / 8))
    let successful : ℤ ←
      (SlaveCall.piControlWrite ptrSPiProcessImageOffsets.u32CoilsInputOffset data).ask
    if successful ≤ 0 then
      return successful
    else
      writeHoldingRegistersProgram mbMapping ptrSPiProcessImageOffsets successful
  else
    writeHoldingRegistersProgram mbMapping ptrSPiProcessImageOffsets 0

/-- `readInputRegisters`. -/
def readInputRegistersProgram (mbMapping : ModbusMapping)
    (ptrSPiProcessImageOffsets : TProcessImageConfiguration) (successful : ℤ) :
    SlaveProgram (ℤ × ModbusMapping) := do
  if mbMapping.tabInputRegisters.length > 0 then
    let (successful, data) ← (SlaveCall.piControlRead
      ptrSPiProcessImageOffsets.u32InputRegistersOffset
      (2 * mbMapping.tabInputRegisters.length)).ask
    let bytes ← Program.ofExcept (overwrite (registerBytes mbMapping.tabInputRegisters) data)
    return (successful, { mbMapping with tabInputRegisters := bytesRegisters bytes })
  else
    return (successful, mbMapping)

/-- `readModbusDataFromProcessImage`. -/
def readModbusDataProgram (mbMapping : ModbusMapping)
    (ptrSPiProcessImageOffsets : TProcessImageConfiguration) :
    SlaveProgram (ℤ × ModbusMapping) := do
  if mbMapping.tabInputBits.length > 0 then
    let (successful, data) ← (SlaveCall.piControlRead
      ptrSPiProcessImageOffsets.u32DiscreteInputsOffset (mbMapping.tabInputBits.length / 8)).ask
    let bytes ← Program.ofExcept (overwrite mbMapping.tabInputBits data)
    let mbMapping := { mbMapping with tabInputBits := bytes }
    if successful ≤ 0 then
      return (successful, mbMapping)
    else
      readInputRegistersProgram mbMapping ptrSPiProcessImageOffsets successful
  else
    readInputRegistersProgram mbMapping ptrSPiProcessImageOffsets 0

variable {σ : Type}

/-- `answerRequest`. -/
def answerRequestProgram (host : SlaveHost σ) (config : TModbusSlaveConfiguration)
    (req : ModbusRequest) (len : ℤ) (mbMapping : ModbusMapping) :
    SlaveProgram (ℤ × ModbusMapping) := do
  let mbMapping := host.applyRequest req len mbMapping
  let len : ℤ ← (SlaveCall.sendResponse req len mbMapping).ask
  if len = -1 then
    return (-1, mbMapping)
  else if writesProcessImage (req.get host.headerLength) then
    let _ ← writeModbusDataProgram mbMapping config.tProcessImageConfig
    return (0, mbMapping)
  else
    return (0, mbMapping)

/-- `process_modbus_request`. -/
def processModbusRequestProgram (host : SlaveHost σ) (config : TModbusSlaveConfiguration)
    (mbMapping : ModbusMapping) : SlaveProgram (ℤ × ModbusMapping) := do
  let (len, req) ← SlaveCall.modbusReceive.ask
  if len > 0 then
    if readsProcessImage (req.get host.headerLength) then
      let (_, mbMapping) ← readModbusDataProgram mbMapping config.tProcessImageConfig
      answerRequestProgram host config req len mbMapping
    else
      answerRequestProgram host config req len mbMapping
  else if len = -1 then
    return (-1, mbMapping)
  else
    return (0, mbMapping)

/-! ## In one piece -/

section Exec

variable {host : SlaveHost σ} {config : TModbusSlaveConfiguration} {m : ModbusMapping} {s : σ}

theorem writeHoldingRegistersProgram_computes (offsets : TProcessImageConfiguration)
    (successful : ℤ) :
    Program.Computes host.perform (writeHoldingRegistersProgram m offsets successful) s
      (.ok (writeHoldingRegisters host.toHost m offsets successful s) : Except Fault _) id :=
  .ite_ok rfl rfl

theorem writeModbusDataProgram_computes (offsets : TProcessImageConfiguration) :
    Program.Computes host.perform (writeModbusDataProgram m offsets) s
      (writeModbusDataToProcessImage host.toHost m offsets s) id := by
  unfold writeModbusDataProgram writeModbusDataToProcessImage
  refine .ite (.bind (.ofExcept _) fun data => ?_) (writeHoldingRegistersProgram_computes offsets 0)
  exact .ask (SlaveCall.piControlWrite offsets.u32CoilsInputOffset data)
    (.ite (.pure rfl) (writeHoldingRegistersProgram_computes offsets _))

theorem readInputRegistersProgram_computes (offsets : TProcessImageConfiguration)
    (successful : ℤ) :
    Program.Computes host.perform (readInputRegistersProgram m offsets successful) s
      (readInputRegisters host.toHost m offsets successful s) fun r => ((r.1, r.2.1), r.2.2) := by
  unfold readInputRegistersProgram readInputRegisters
  refine .ite (.ask (SlaveCall.piControlRead offsets.u32InputRegistersOffset _) ?_) (.pure rfl)
  exact .bind (.ofExcept _) fun bytes => .pure rfl

theorem readModbusDataProgram_computes (offsets : TProcessImageConfiguration) :
    Program.Computes host.perform (readModbusDataProgram m offsets) s
      (readModbusDataFromProcessImage host.toHost m offsets s)
      fun r => ((r.1, r.2.1), r.2.2) := by
  unfold readModbusDataProgram readModbusDataFromProcessImage
  refine .ite (.ask (SlaveCall.piControlRead offsets.u32DiscreteInputsOffset _) ?_)
    (readInputRegistersProgram_computes offsets 0)
  exact .bind (.ofExcept _) fun bytes =>
    .ite (.pure rfl) (readInputRegistersProgram_computes offsets _)

theorem answerRequestProgram_computes (req : ModbusRequest) (len : ℤ) :
    Program.Computes host.perform (answerRequestProgram host config req len m) s
      (answerRequest host config req len m s) fun r => ((r.1, r.2.1), r.2.2) := by
  unfold answerRequestProgram answerRequest modbusReply
  refine .ask (SlaveCall.sendResponse req len (host.applyRequest req len m)) (.ite (.pure rfl) ?_)
  exact .ite (.bind (writeModbusDataProgram_computes _) fun _ => .pure rfl) (.pure rfl)

/-- **`process_modbus_request` call by call.** -/
theorem processModbusRequestProgram_computes :
    Program.Computes host.perform (processModbusRequestProgram host config m) s
      (processModbusRequest host config m s) fun r => ((r.1, r.2.1), r.2.2) := by
  unfold processModbusRequestProgram processModbusRequest
  refine .ask SlaveCall.modbusReceive (.ite (.ite ?_ ?_) (.ite (.pure rfl) (.pure rfl)))
  · exact .bind (readModbusDataProgram_computes _) fun r => answerRequestProgram_computes _ _
  · exact answerRequestProgram_computes _ _

end Exec

end RevPiModbus
