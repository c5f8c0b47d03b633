import RevPiModbus.Scheduler
import RevPiModbus.ComAndDataProcessor
import RevPiModbus.Lib.Transition
import RevPiModbus.Lib.Latch

/-!
# The loops of the Modbus masters

`startTcpMasterThread` and `startRtuMasterThread` of `ModbusMasterThread.c`, with one step for
each call that touches the process image. The two loops differ in the actions whose status they
reset, and in what they do after a failed connection and after too many failed actions. The waiting
between the calls and the settings of the Modbus context do not concern the process image.

* `initializeStatus`: what the parser does to the process image for each action it adds;
* `LoopPhase`, `LoopState`, `LoopLabel`, `loopStep`: the loops, and the user of the process image
  between their steps;
* `sweepStatus`: the resets of one pass of the RTU loop without the user.
-/

namespace RevPiModbus

open ByteImage

variable {σ : Type}

/-- `EModbusErrors`, the codes of the device status byte. -/
inductive EModbusErrors
  | noError
  | noDevice
  | noResponseFromDevice
  | modbusActionBacklog
  | internalError
  deriving DecidableEq, Repr

/-- The byte behind a code. -/
def EModbusErrors.code : EModbusErrors → UInt8
  | .noError => 0x00
  | .noDevice => 0x10
  | .noResponseFromDevice => 0x11
  | .modbusActionBacklog => 0x12
  | .internalError => 0xf0

/-- The end of `parse_modbus_master_action_list` for an action that it adds to its list: reset bit
and status byte become 0. -/
def initializeStatus (host : Host σ) (action : TModbusAction) (state : σ) : σ :=
  let resetData : SPIValue :=
    { i16uAddress := action.i32uResetStatusProcessImageByteOffset.toUInt16
      i8uBit := action.i8uResetStatusProcessImageBitOffset
      i8uValue := 0 }
  let (_, state) := host.piControlSetBitValue resetData state
  (host.piControlWrite action.i32uStatusByteProcessImageOffset [0] state).2

/-- `reset_modbus_action_status` with the arguments of an action. -/
def resetActionStatus (host : Host σ) (action : TModbusAction) (state : σ) : σ :=
  (resetModbusActionStatus host action.i32uResetStatusProcessImageByteOffset
    action.i8uResetStatusProcessImageBitOffset action.i32uStatusByteProcessImageOffset state).2

/-- What a master thread is about to do. -/
inductive LoopPhase
  | connect
  | nextEvent
  /-- The actions at the positions `pending` are still to be reset, then the device is. -/
  | reset (pending : List ℕ) (nextEvent : TModbusEvent)
  | process (nextEvent : TModbusEvent)
  | ended
  deriving DecidableEq, Repr

/-- The local variables of a master thread, and the state of the host. -/
structure LoopState (σ : Type) where
  phase : LoopPhase
  eventList : List SchedulerEvent
  errCnt : ℕ
  buffer : List UInt8
  state : σ

/-- The thread after the parser has read its actions; the last one read is the first of the list. -/
def LoopState.start (host : Host σ) (config : TModbusMasterConfiguration) (state : σ) :
    LoopState σ where
  phase := .connect
  eventList := []
  errCnt := 0
  buffer := List.replicate maxRegisterSizePerAction 0
  state := config.mbActionListHead.reverse.foldl
    (fun s action => initializeStatus host action s) state

/-- `writeErrorMessage` to the device status byte. -/
def writeDeviceStatus (host : Host σ) (config : TModbusMasterConfiguration) (error : EModbusErrors)
    (state : σ) : σ :=
  (writeErrorMessage host config.tModbusDeviceConfig.i32uDeviceStatusByteProcessImageOffset
    error.code state).2

/-- The reset bit of an action, as an absolute bit, and the address of its status byte. -/
def TModbusAction.latch (action : TModbusAction) (host : Host σ) : Latch where
  reset := host.bitPosition action.i32uResetStatusProcessImageByteOffset.toUInt16
    action.i8uResetStatusProcessImageBitOffset
  status := action.i32uStatusByteProcessImageOffset.toNat

/-- The user of the process image, and the other devices: they leave the status bytes alone and may
set reset bits. -/
def UserSets (host : Host σ) (actions : List TModbusAction) (state state' : σ) : Prop :=
  ∀ action ∈ actions,
    host.image state' (action.latch host).status = host.image state (action.latch host).status ∧
    (bit (host.image state) (action.latch host).reset = true →
      bit (host.image state') (action.latch host).reset = true)

instance (host : Host σ) (actions : List TModbusAction) (state state' : σ) :
    Decidable (UserSets host actions state state') :=
  inferInstanceAs (Decidable (∀ action ∈ actions, _ ∧ (_ → _)))

/-- A step of the thread, with the outcome of `modbus_connect`, the allocator and the monotonic
clock where they matter, or a step of the user. -/
inductive LoopLabel (σ : Type)
  | connect (connected : Bool) (malloc : ℕ → Bool) (currentTime : Timespec)
  | proceed
  | user (state : σ)

/-- The actions that are reset before `nextEvent`, by their positions: TCP resets the action that
comes next, RTU every action in the event list. -/
def resetPending (eProtocol : EModbusProtocol) (nextEvent : TModbusEvent)
    (eventList : List SchedulerEvent) : List ℕ :=
  match eProtocol with
  | .protTCP => [nextEvent.ptModbusAction]
  | .protRTU => eventList.map SchedulerEvent.ptModbusAction

/-- The beginning of the thread, up to its inner loop. -/
def connectStep (host : Host σ) (config : TModbusMasterConfiguration) (connected : Bool)
    (malloc : ℕ → Bool) (currentTime : Timespec) (s : LoopState σ) : Option (LoopState σ) :=
  if connected then
    match initScheduler malloc currentTime config.mbActionListHead with
    | .ok (ret, eventList) =>
      if ret < 0 then
        some { s with
          phase := .ended, state := writeDeviceStatus host config .internalError s.state }
      else
        some { s with phase := .nextEvent, eventList := eventList, errCnt := 0,
                      state := writeDeviceStatus host config .noError s.state }
    | .error _ => none
  else
    some { s with
      phase := match config.tModbusDeviceConfig.uProt.eProtocol with
        | .protTCP => .connect
        | .protRTU => .ended
      state := writeDeviceStatus host config .noResponseFromDevice s.state }

/-- `processModbusAction`, and the count of the TCP loop of failed actions in a row. -/
def processStep (host : Host σ) (config : TModbusMasterConfiguration) (action : TModbusAction)
    (s : LoopState σ) : Option (LoopState σ) :=
  match processModbusAction host action s.buffer s.state with
  | .ok out =>
    let errCnt := if out.len < 0 then s.errCnt + 1 else 0
    some { s with
      phase := match config.tModbusDeviceConfig.uProt.eProtocol with
        | .protTCP => if errCnt > 100 then .connect else .nextEvent
        | .protRTU => .nextEvent
      errCnt := errCnt
      buffer := out.buffer
      state := out.state }
  | .error _ => none

/-- One step. It is `none` where the thread has ended or the process has been aborted. -/
def loopStep (host : Host σ) (config : TModbusMasterConfiguration) (s : LoopState σ) :
    LoopLabel σ → Option (LoopState σ)
  | .connect connected malloc currentTime =>
    if s.phase = .connect then connectStep host config connected malloc currentTime s else none
  | .proceed =>
    match s.phase with
    | .nextEvent =>
      match getNextEvent s.eventList with
      | .ok (some (nextEvent, eventList)) => some { s with
          phase := .reset (resetPending config.tModbusDeviceConfig.uProt.eProtocol nextEvent
            eventList) nextEvent
          eventList := eventList }
      | _ => none
    | .reset (i :: pending) nextEvent =>
      match config.mbActionListHead[i]? with
      | some action => some { s with
          phase := .reset pending nextEvent
          state := resetActionStatus host action s.state }
      | none => none
    | .reset [] nextEvent => some { s with
        phase := .process nextEvent
        state := (resetModbusMasterStatus host
          config.tModbusDeviceConfig.i32uDeviceStatusResetByteProcessImageByteOffset
          config.tModbusDeviceConfig.i32uDeviceStatusByteProcessImageOffset s.state).2 }
    | .process nextEvent =>
      match config.mbActionListHead[nextEvent.ptModbusAction]? with
      | some action => processStep host config action s
      | none => none
    | _ => none
  | .user state =>
    if UserSets host config.mbActionListHead s.state state then some { s with state := state }
    else none

/-- The resets of the RTU loop over a list of events. -/
def sweepStatus (host : Host σ) (actions : List TModbusAction) (eventList : List SchedulerEvent)
    (state : σ) : σ :=
  eventList.foldl (fun s pEvent =>
    match actions[pEvent.ptModbusAction]? with
    | some action => resetActionStatus host action s
    | none => s) state

end RevPiModbus
