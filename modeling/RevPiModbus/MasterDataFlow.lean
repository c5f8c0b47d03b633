import RevPiModbus.StatusLatch

/-!
# What the process image shows of the devices

A master is there to bring the data of its devices into the process image. The data of an action are
those of the last reply that delivered all that was asked for; failed and short replies, the other
actions and the resets leave them alone, in whatever order the scheduler delivers the actions.

* `storeReply`: what the data of a complete reply do to the process image;
* `delivered`, `processModbusAction_data`: the data that an execution brings, and its effect;
* `Delivery`, `shownBit`: the replies of a run, and what the process image should show of them;
* `DataSeparated`: the layout of the process image that the result needs;
* `dataFlow_run`: the data of all read actions in every run of a loop.
-/

namespace RevPiModbus

open ByteImage Transition

variable {σ : Type} {host : Host σ} {action : TModbusAction} {buffer : List UInt8} {state : σ}
  {t : Transaction σ}

/-! ## One action -/

/-- The bytes of a reply that an action asks for: a byte for each coil, two for each register. -/
def replyBytes (action : TModbusAction) : ℕ :=
  match action.eFunctionCode with
  | .readHoldingRegisters | .readInputRegisters => 2 * action.i16uRegisterCount.toNat
  | _ => action.i16uRegisterCount.toNat

/-- What the data of a complete reply do to the process image. -/
def storeReply (action : TModbusAction) (data : List UInt8) (img : Image) : Image :=
  match action.eFunctionCode with
  | .readCoils | .readDiscreteInputs =>
    setBits (coilPosition action) (coilValue data) img
      (List.range' 0 action.i16uRegisterCount.toNat)
  | .readHoldingRegisters | .readInputRegisters | .reportSlaveId =>
    write img action.i32uStartByteProcessData.toNat (data.take (replyBytes action))
  | _ => img

/-- Nothing is stored outside the data of the action. -/
theorem storeReply_outside {data : List UInt8} {img : Image} {k : ℕ}
    (hk : ¬ InDataWindow action k) : bit (storeReply action data img) k = bit img k := by
  unfold InDataWindow at hk
  unfold storeReply
  cases hcode : action.eFunctionCode with
  | readCoils | readDiscreteInputs =>
    simp only [hcode] at hk ⊢
    refine bit_setBits_of_notMem fun i hi heq => hk ⟨i, ?_, heq⟩
    rw [List.mem_range'_1] at hi
    omega
  | readHoldingRegisters | readInputRegisters | reportSlaveId =>
    simp only [hcode] at hk ⊢
    refine bit_write_of_notMem fun hin => hk ⟨hin.1, ?_⟩
    have hlength := List.length_take_le (replyBytes action) data
    simp only [replyBytes, hcode] at hlength hin
    omega
  | _ => rfl

/-- A complete reply determines the data of the action. -/
theorem storeReply_inside {data : List UInt8} {img img' : Image} {k : ℕ}
    (hreads : action.eFunctionCode.isReadFunction = true) (hk : InDataWindow action k)
    (hdata : replyBytes action ≤ data.length) :
    bit (storeReply action data img) k = bit (storeReply action data img') k := by
  unfold InDataWindow at hk
  unfold storeReply
  cases hcode : action.eFunctionCode with
  | readCoils | readDiscreteInputs =>
    simp only [hcode] at hk ⊢
    obtain ⟨i, hi, rfl⟩ := hk
    exact bit_setBits_of_exists ⟨i, List.mem_range'_1.mpr ⟨Nat.zero_le i, by omega⟩, rfl⟩
  | readHoldingRegisters | readInputRegisters | reportSlaveId =>
    simp only [hcode] at hk ⊢
    refine bit_write_of_mem ⟨hk.1, ?_⟩
    rw [List.length_take_of_le hdata]
    simp only [replyBytes, hcode]
    omega
  | _ =>
    rw [hcode] at hreads
    cases hreads

/-- The request of a complete reply, and the data of the reply in the process image. -/
structure Stored (host : Host σ) (action : TModbusAction) (state : σ) (t : Transaction σ)
    (call : ModbusCall) : Prop where
  request : t.request = some call
  data : replyBytes action ≤ (host.modbus call state).1.data.length
  image : host.image t.state =
    storeReply action (host.modbus call state).1.data (host.image state)

theorem storeCoils_image (hhost : host.Succeeds) {n i : ℕ} {successful successful' : ℤ} {s s' : σ}
    (h : storeCoils host action buffer n i successful s = .ok (successful', s')) :
    host.image s' = setBits (coilPosition action) (coilValue buffer) (host.image s)
      (List.range' i n) := by
  induction n generalizing i successful s with
  | zero =>
    unfold storeCoils at h
    cases h
    rfl
  | succ n ih =>
    unfold storeCoils at h
    cases hvalue : buffer[i]? with
    | none =>
      rw [hvalue] at h
      cases h
    | some value =>
      simp only [hvalue, not_lt.mpr (hhost.setBit_ret (coilData action i value) s), if_false] at h
      rw [ih h, hhost.setBit_image, bitPosition_coilData hhost, List.range'_succ, setBits_cons]
      unfold coilValue
      rw [hvalue]
      rfl

/-- What `receiveModbus` leaves in the buffer. -/
theorem receiveModbus_buffer {call : ModbusCall} {t' : Transaction σ}
    (h : receiveModbus host call t = .ok t') :
    t'.buffer = (host.modbus call t.state).1.data ++
        t.buffer.drop (host.modbus call t.state).1.data.length ∧
      t'.len = (host.modbus call t.state).1.len ∧ t'.request = some call ∧
      t'.state = (host.modbus call t.state).2 := by
  unfold receiveModbus at h
  obtain ⟨buffer', hbuffer, h⟩ := bind_eq_ok.mp h
  cases h
  refine ⟨?_, rfl, rfl, rfl⟩
  unfold overwrite at hbuffer
  split_ifs at hbuffer
  cases hbuffer
  rfl

theorem readBitsCase_stored (hhost : host.Succeeds) {call : ModbusCall}
    (hcode : action.eFunctionCode = .readCoils ∨ action.eFunctionCode = .readDiscreteInputs)
    (hsize : call.itemSize = 1) (hcap : call.capacity = action.i16uRegisterCount.toNat)
    (h : readBitsCase host action call (.start buffer state) = .ok t)
    (hlen : action.i16uRegisterCount.toNat ≤ t.len) : Stored host action state t call := by
  have hdata := hhost.modbus_data call state
  unfold readBitsCase at h
  obtain ⟨-, -, h⟩ := bind_eq_ok.mp h
  obtain ⟨r, hreceive, h⟩ := bind_eq_ok.mp h
  obtain ⟨hbuffer, hrlen, hrequest, hstate⟩ := receiveModbus_buffer hreceive
  by_cases hshort : r.len < action.i16uRegisterCount.toNat
  · rw [if_pos hshort] at h
    cases h
    exact absurd hlen (not_le.mpr hshort)
  · rw [if_neg hshort] at h
    obtain ⟨⟨successful, s⟩, hstore, h⟩ := bind_eq_ok.mp h
    cases h
    have hlength : (host.modbus call state).1.data.length = action.i16uRegisterCount.toNat := by
      have hrlen' : r.len = (host.modbus call state).1.len := hrlen
      rw [hsize, one_mul, hcap] at hdata
      omega
    have himage := storeCoils_image hhost hstore
    rw [hstate] at himage
    refine ⟨hrequest, ?_, ?_⟩
    · rw [hlength]
      obtain hcode | hcode := hcode <;> simp [replyBytes, hcode]
    · have hvalues : setBits (coilPosition action) (coilValue r.buffer)
          (host.image (host.modbus call state).2) (List.range' 0 action.i16uRegisterCount.toNat) =
          storeReply action (host.modbus call state).1.data (host.image state) := by
        rw [hhost.modbus_image]
        have hstoreReply : storeReply action (host.modbus call state).1.data (host.image state) =
            setBits (coilPosition action) (coilValue (host.modbus call state).1.data)
              (host.image state) (List.range' 0 action.i16uRegisterCount.toNat) := by
          obtain hcode | hcode := hcode <;> simp only [storeReply, hcode]
        rw [hstoreReply]
        refine setBits_congr fun i hi => ?_
        have hlt : i < (host.modbus call state).1.data.length := by
          rw [List.mem_range'_1] at hi
          omega
        unfold coilValue
        rw [hbuffer]
        exact congrArg (fun v => v.getD 0 != 0) (List.getElem?_append_left hlt)
      exact himage.trans hvalues

/-- The functions that write the front of the buffer to the process image. -/
theorem writeFront_stored (hhost : host.Succeeds) {call : ModbusCall} {r : Transaction σ}
    (hstoreReply : ∀ data img, storeReply action data img =
      write img action.i32uStartByteProcessData.toNat (data.take (replyBytes action)))
    (hdata : action.i16uRegisterCount.toNat ≤ (host.modbus call state).1.len →
      replyBytes action ≤ (host.modbus call state).1.data.length)
    (hreceive : receiveModbus host call (.start buffer state) = .ok r)
    (h : (if r.len < action.i16uRegisterCount.toNat then pure r else do
      let data ← bufferFront r.buffer (replyBytes action)
      let (successful, state) := host.piControlWrite action.i32uStartByteProcessData data r.state
      return { r with successful := successful, state := state }) = Except.ok (ε := Fault) t)
    (hlen : action.i16uRegisterCount.toNat ≤ t.len) : Stored host action state t call := by
  obtain ⟨hbuffer, hrlen, hrequest, hstate⟩ := receiveModbus_buffer hreceive
  have hrlen' : r.len = (host.modbus call state).1.len := hrlen
  by_cases hshort : r.len < action.i16uRegisterCount.toNat
  · rw [if_pos hshort] at h
    cases h
    exact absurd hlen (not_le.mpr hshort)
  · rw [if_neg hshort] at h
    obtain ⟨data, hfront, h⟩ := bind_eq_ok.mp h
    cases h
    have hcomplete := hdata (hrlen' ▸ not_lt.mp hshort)
    refine ⟨hrequest, hcomplete, ?_⟩
    have hfrontData : data = (host.modbus call state).1.data.take (replyBytes action) := by
      unfold bufferFront at hfront
      split_ifs at hfront
      cases hfront
      rw [hbuffer]
      exact List.take_append_of_le_length hcomplete
    show host.image (host.piControlWrite _ _ _).2 = _
    rw [hhost.write_image, hstate, hhost.modbus_image, hfrontData, hstoreReply]
    rfl

theorem readRegistersCase_stored (hhost : host.Succeeds) {call : ModbusCall}
    (hcode : action.eFunctionCode = .readHoldingRegisters ∨
      action.eFunctionCode = .readInputRegisters)
    (hsize : call.itemSize = 2) (hcap : call.capacity = 2 * action.i16uRegisterCount.toNat)
    (h : readRegistersCase host action call (.start buffer state) = .ok t)
    (hlen : action.i16uRegisterCount.toNat ≤ t.len) : Stored host action state t call := by
  have hdata := hhost.modbus_data call state
  rw [hsize, hcap] at hdata
  have hbytes : replyBytes action = 2 * action.i16uRegisterCount.toNat := by
    obtain hcode | hcode := hcode <;> simp only [replyBytes, hcode]
  unfold readRegistersCase at h
  obtain ⟨-, -, h⟩ := bind_eq_ok.mp h
  obtain ⟨r, hreceive, h⟩ := bind_eq_ok.mp h
  rw [← hbytes] at h
  refine writeFront_stored hhost (fun data img => ?_) (fun hle => ?_) hreceive h hlen
  · obtain hcode | hcode := hcode <;> simp only [storeReply, hcode]
  · omega

theorem reportSlaveIdCase_stored (hhost : host.Succeeds)
    (hcode : action.eFunctionCode = .reportSlaveId)
    (h : reportSlaveIdCase host action (.start buffer state) = .ok t)
    (hlen : action.i16uRegisterCount.toNat ≤ t.len) :
    Stored host action state t (.reportSlaveId maxRegisterSizePerAction) := by
  have hdata := hhost.modbus_data (.reportSlaveId maxRegisterSizePerAction) state
  have hsize : (ModbusCall.reportSlaveId maxRegisterSizePerAction).itemSize = 1 := rfl
  have hcap : (ModbusCall.reportSlaveId maxRegisterSizePerAction).capacity = 256 := rfl
  rw [hsize, hcap, one_mul] at hdata
  have hbytes : replyBytes action = action.i16uRegisterCount.toNat := by
    simp only [replyBytes, hcode]
  unfold reportSlaveIdCase at h
  obtain ⟨_, hassert, h⟩ := bind_eq_ok.mp h
  obtain ⟨r, hreceive, h⟩ := bind_eq_ok.mp h
  have hmax := cAssert_eq_ok.mp hassert
  rw [← hbytes] at h
  refine writeFront_stored hhost (fun data img => ?_) (fun hle => ?_) hreceive ?_ hlen
  · simp only [storeReply, hcode]
  · unfold modbusMaxPduLength at hmax
    omega
  · rw [← hbytes]
    exact h

/-- A read function that gets all it has asked for stores it. -/
theorem switchFunctionCode_stored (hhost : host.Succeeds)
    (hreads : action.eFunctionCode.isReadFunction = true)
    (h : switchFunctionCode host action (.start buffer state) = .ok t)
    (hlen : action.i16uRegisterCount.toNat ≤ t.len) :
    ∃ call, Stored host action state t call := by
  unfold switchFunctionCode at h
  cases hcode : action.eFunctionCode with
  | readCoils =>
    simp only [hcode] at h
    exact ⟨_, readBitsCase_stored hhost (.inl hcode) rfl rfl h hlen⟩
  | readDiscreteInputs =>
    simp only [hcode] at h
    exact ⟨_, readBitsCase_stored hhost (.inr hcode) rfl rfl h hlen⟩
  | readHoldingRegisters =>
    simp only [hcode] at h
    exact ⟨_, readRegistersCase_stored hhost (.inl hcode) rfl rfl h hlen⟩
  | readInputRegisters =>
    simp only [hcode] at h
    exact ⟨_, readRegistersCase_stored hhost (.inr hcode) rfl rfl h hlen⟩
  | reportSlaveId =>
    simp only [hcode] at h
    exact ⟨_, reportSlaveIdCase_stored hhost hcode h hlen⟩
  | _ =>
    rw [hcode] at hreads
    cases hreads

/-- The data of an execution, if it was a read function and got all it has asked for. -/
def delivered (host : Host σ) (action : TModbusAction) (state : σ) (out : Transaction σ) :
    Option (List UInt8) :=
  if action.eFunctionCode.isReadFunction = true ∧ action.i16uRegisterCount.toNat ≤ out.len then
    out.request.map fun call => (host.modbus call state).1.data
  else none

/-- The effect of one execution on the process image, apart from the status byte. -/
theorem processModbusAction_data (hhost : host.Succeeds) {out : Transaction σ}
    (h : processModbusAction host action buffer state = .ok out) {k : ℕ}
    (hk : k / 8 ≠ (action.latch host).status) :
    match delivered host action state out with
    | some data => replyBytes action ≤ data.length ∧
        bit (host.image out.state) k = bit (storeReply action data (host.image state)) k
    | none => bit (host.image out.state) k = bit (host.image state) k := by
  unfold processModbusAction at h
  obtain ⟨t, hswitch, h⟩ := bind_eq_ok.mp h
  have hquiet : ¬ (action.eFunctionCode.isReadFunction = true ∧
      action.i16uRegisterCount.toNat ≤ t.len) → host.image t.state = host.image state := by
    intro hnot
    cases switchFunctionCode_outcome hhost hswitch with
    | silent len image => exact image
    | ended call s replied last =>
      rw [last, hhost.modbus_image]
      exact replied.image
    | stored call s replied reads complete image => exact absurd ⟨reads, complete⟩ hnot
  by_cases hlen : t.len < 0
  · rw [if_pos hlen] at h
    cases h
    have hnot : ¬ (action.eFunctionCode.isReadFunction = true ∧
        action.i16uRegisterCount.toNat ≤ t.len) := by
      rintro ⟨-, hle⟩
      omega
    simp only [delivered, if_neg hnot]
    show bit (host.image (writeErrorMessage host _ _ t.state).2) k = _
    rw [writeErrorMessage_image hhost, hquiet hnot]
    exact bit_congr ((write_singleton _ _ _).trans (if_neg hk))
  · rw [if_neg hlen] at h
    obtain rfl : t = out := Except.ok.inj h
    by_cases hcomplete : action.eFunctionCode.isReadFunction = true ∧
        action.i16uRegisterCount.toNat ≤ t.len
    · obtain ⟨call, hstored⟩ := switchFunctionCode_stored hhost hcomplete.1 hswitch hcomplete.2
      simp only [delivered, if_pos hcomplete, hstored.request, Option.map_some]
      exact ⟨hstored.data, by rw [hstored.image]⟩
    · simp only [delivered, if_neg hcomplete]
      rw [hquiet hcomplete]

/-! ## The replies of a run -/

/-- The action at a position has got all it has asked for. -/
structure Delivery where
  action : ℕ
  data : List UInt8
  deriving DecidableEq, Repr

/-- The replies of one step of a loop. -/
def observeData (host : Host σ) (config : TModbusMasterConfiguration) (s : LoopState σ) :
    LoopLabel σ → List Delivery
  | .proceed =>
    match s.phase with
    | .process nextEvent =>
      match config.mbActionListHead[nextEvent.ptModbusAction]? with
      | some action =>
        match processModbusAction host action s.buffer s.state with
        | .ok out => ((delivered host action s.state out).map
            (Delivery.mk nextEvent.ptModbusAction)).toList
        | .error _ => []
      | none => []
    | _ => []
  | _ => []

/-- A step of a loop together with the replies up to it. -/
def deliveringStep (host : Host σ) (config : TModbusMasterConfiguration)
    (x : LoopState σ × List Delivery) (l : LoopLabel σ) : Option (LoopState σ × List Delivery) :=
  (loopStep host config x.1 l).map fun s => (s, observeData host config x.1 l ++ x.2)

/-- The last reply to the action at position `i`, the last one first in the list. -/
def lastReply (i : ℕ) : List Delivery → Option (List UInt8)
  | [] => none
  | d :: history => if d.action = i then some d.data else lastReply i history

/-- What a bit of the data of an action should show: the last reply, or the value from before. -/
def shownBit (initial : Image) (action : TModbusAction) (i k : ℕ) (history : List Delivery) :
    Bool :=
  match lastReply i history with
  | some data => bit (storeReply action data fun _ => 0) k
  | none => bit initial k

variable {config : TModbusMasterConfiguration}

/-- The status bytes and the reset bits of a master. -/
def InLatches (host : Host σ) (config : TModbusMasterConfiguration) (k : ℕ) : Prop :=
  ∃ l ∈ deviceLatch host config :: config.mbActionListHead.map fun a => a.latch host,
    k / 8 = l.status ∨ k = l.reset

/-- The data of the read actions are separate from each other, and from all status bytes and reset
bits. The data of the write actions may lie anywhere. -/
structure DataSeparated (host : Host σ) (config : TModbusMasterConfiguration) : Prop where
  windows : ∀ (i j : ℕ) (a b : TModbusAction), config.mbActionListHead[i]? = some a →
    config.mbActionListHead[j]? = some b → i ≠ j → a.eFunctionCode.isReadFunction = true →
    b.eFunctionCode.isReadFunction = true →
    ∀ k, InDataWindow a k → ¬ InDataWindow b k
  latches : ∀ a ∈ config.mbActionListHead, a.eFunctionCode.isReadFunction = true →
    ∀ k, InDataWindow a k → ¬ InLatches host config k

/-- The user, and the other devices, do not write to the data of the read actions. -/
def LeavesData (host : Host σ) (config : TModbusMasterConfiguration)
    (x : LoopState σ × List Delivery) : LoopLabel σ → Prop
  | .user state => ∀ a ∈ config.mbActionListHead, a.eFunctionCode.isReadFunction = true →
      ∀ k, InDataWindow a k → bit (host.image state) k = bit (host.image x.1.state) k
  | _ => True

/-- The process image shows the last replies. -/
def DataInv (host : Host σ) (config : TModbusMasterConfiguration) (initial : Image)
    (x : LoopState σ × List Delivery) : Prop :=
  ∀ (i : ℕ) (a : TModbusAction), config.mbActionListHead[i]? = some a →
    a.eFunctionCode.isReadFunction = true →
    ∀ k, InDataWindow a k → bit (host.image x.1.state) k = shownBit initial a i k x.2

/-! ## The steps -/

variable {initial : Image} {s s' : LoopState σ} {history : List Delivery}

theorem bit_clearLatch_of_ne {img : Image} {l : Latch} {k : ℕ}
    (hk : ¬ (k / 8 = l.status ∨ k = l.reset)) : bit (clearLatch img l) k = bit img k := by
  rw [not_or] at hk
  rw [bit_clearLatch]
  simp [hk.1, hk.2]

theorem deviceLatch_inLatches {k : ℕ} (hk : ¬ InLatches host config k) :
    ¬ (k / 8 = (deviceLatch host config).status ∨ k = (deviceLatch host config).reset) :=
  fun h => hk ⟨_, List.mem_cons_self, h⟩

theorem actionLatch_inLatches {a : TModbusAction} (ha : a ∈ config.mbActionListHead) {k : ℕ}
    (hk : ¬ InLatches host config k) :
    ¬ (k / 8 = (a.latch host).status ∨ k = (a.latch host).reset) :=
  fun h => hk ⟨_, List.mem_cons_of_mem _ (List.mem_map_of_mem ha), h⟩

/-- Connects and resets touch status bytes and reset bits only. -/
theorem connectStep_data (hhost : host.Succeeds) {connected : Bool} {malloc : ℕ → Bool}
    {currentTime : Timespec} (hs : connectStep host config connected malloc currentTime s = some s')
    {k : ℕ} (hk : ¬ InLatches host config k) :
    bit (host.image s'.state) k = bit (host.image s.state) k := by
  have hdevice : ∀ error, bit (host.image (writeDeviceStatus host config error s.state)) k =
      bit (host.image s.state) k := by
    intro error
    have hne := (not_or.mp (deviceLatch_inLatches hk)).1
    unfold writeDeviceStatus
    rw [writeErrorMessage_image hhost]
    exact bit_congr ((write_singleton _ _ _).trans (if_neg hne))
  unfold connectStep at hs
  split at hs
  · split at hs
    · split_ifs at hs
      · cases hs
        exact hdevice _
      · cases hs
        exact hdevice _
    · cases hs
  · cases hs
    exact hdevice _

theorem DataInv.quiet (hsep : DataSeparated host config)
    (h : DataInv host config initial (s, history))
    (hquiet : ∀ k, ¬ InLatches host config k →
      bit (host.image s'.state) k = bit (host.image s.state) k) :
    DataInv host config initial (s', history) := by
  intro i a hi hreads k hk
  exact (hquiet k (hsep.latches a (List.mem_of_getElem? hi) hreads k hk)).trans
    (h i a hi hreads k hk)

theorem DataInv.process (hhost : host.Succeeds) (hsep : DataSeparated host config)
    (h : DataInv host config initial (s, history)) {nextEvent : TModbusEvent}
    (hphase : s.phase = .process nextEvent) {b : TModbusAction}
    (hb : config.mbActionListHead[nextEvent.ptModbusAction]? = some b)
    (hs : processStep host config b s = some s') :
    DataInv host config initial (s', observeData host config s .proceed ++ history) := by
  unfold processStep at hs
  cases hprocess : processModbusAction host b s.buffer s.state with
  | error fault =>
    rw [hprocess] at hs
    cases hs
  | ok out =>
    rw [hprocess] at hs
    cases hs
    intro i a hi hreads k hk
    have hlatches := hsep.latches a (List.mem_of_getElem? hi) hreads k hk
    have hstatus := (not_or.mp (actionLatch_inLatches (List.mem_of_getElem? hb) hlatches)).1
    have hdata := processModbusAction_data hhost hprocess hstatus
    have hbefore : bit (host.image s.state) k = shownBit initial a i k history :=
      h i a hi hreads k hk
    simp only [observeData, hphase, hb, hprocess]
    cases hdelivered : delivered host b s.state out with
    | none =>
      rw [hdelivered] at hdata
      exact hdata.trans hbefore
    | some data =>
      rw [hdelivered] at hdata
      obtain ⟨hlength, hstored⟩ := hdata
      refine hstored.trans ?_
      by_cases hij : nextEvent.ptModbusAction = i
      · -- the action itself: its window shows the reply
        subst hij
        obtain rfl : a = b := Option.some.inj (hi.symm.trans hb)
        simp only [shownBit, Option.map_some, Option.toList_some, List.singleton_append, lastReply,
          if_true]
        exact storeReply_inside hreads hk hlength
      · -- another action: its reply is stored elsewhere
        have hother : ¬ InDataWindow b k := by
          have hreadsb : b.eFunctionCode.isReadFunction = true := by
            unfold delivered at hdelivered
            split_ifs at hdelivered with hcomplete
            exact hcomplete.1
          exact hsep.windows i _ a b hi hb (Ne.symm hij) hreads hreadsb k hk
        simp only [shownBit, Option.map_some, Option.toList_some, List.singleton_append, lastReply,
          if_neg hij]
        rw [storeReply_outside hother]
        exact hbefore

/-- **Every step keeps the data of the read actions.** -/
theorem DataInv.step (hhost : host.Succeeds) (hsep : DataSeparated host config)
    {x x' : LoopState σ × List Delivery} {l : LoopLabel σ} (h : DataInv host config initial x)
    (hleaves : LeavesData host config x l) (hs : deliveringStep host config x l = some x') :
    DataInv host config initial x' := by
  obtain ⟨s, history⟩ := x
  obtain ⟨s', hloop, rfl⟩ := Option.map_eq_some_iff.mp hs
  cases l with
  | connect connected malloc currentTime =>
    simp only [loopStep, Option.ite_none_right_eq_some] at hloop
    exact h.quiet hsep fun k hk => connectStep_data hhost hloop.2 hk
  | user state =>
    simp only [loopStep, Option.ite_none_right_eq_some] at hloop
    cases hloop.2
    intro i a hi hreads k hk
    exact (hleaves a (List.mem_of_getElem? hi) hreads k hk).trans (h i a hi hreads k hk)
  | proceed =>
    simp only [loopStep] at hloop
    cases hphase : s.phase with
    | connect | ended =>
      rw [hphase] at hloop
      cases hloop
    | nextEvent =>
      rw [hphase] at hloop
      simp only [observeData, hphase]
      simp only at hloop
      split at hloop
      · cases hloop
        exact h.quiet hsep fun _ _ => rfl
      · cases hloop
    | reset pending nextEvent =>
      rw [hphase] at hloop
      simp only [observeData, hphase]
      cases pending with
      | nil =>
        cases hloop
        refine h.quiet hsep fun k hk => ?_
        simp only [resetModbusMasterStatus, resetModbusActionStatus_image hhost]
        exact bit_clearLatch_of_ne (deviceLatch_inLatches hk)
      | cons i pending =>
        simp only at hloop
        split at hloop
        · rename_i action haction
          cases hloop
          refine h.quiet hsep fun k hk => ?_
          simp only [resetActionStatus_image hhost]
          exact bit_clearLatch_of_ne (actionLatch_inLatches (List.mem_of_getElem? haction) hk)
        · cases hloop
    | process nextEvent =>
      rw [hphase] at hloop
      simp only at hloop
      split at hloop
      · rename_i action haction
        exact h.process hhost hsep hphase haction hloop
      · cases hloop

/-- The parser does not touch the data. -/
theorem dataInv_start (hhost : host.Succeeds) (hsep : DataSeparated host config) (state : σ) :
    DataInv host config (host.image state) (.start host config state, []) := by
  have hquiet : ∀ actions : List TModbusAction, (∀ a ∈ actions, a ∈ config.mbActionListHead) →
      ∀ k, ¬ InLatches host config k →
        bit (host.image (actions.foldr (fun a s => initializeStatus host a s) state)) k =
          bit (host.image state) k := by
    intro actions hactions k hk
    induction actions with
    | nil => rfl
    | cons a actions ih =>
      rw [List.forall_mem_cons] at hactions
      have hne := not_or.mp (actionLatch_inLatches hactions.1 hk)
      rw [List.foldr_cons, initializeStatus_image hhost,
        bit_congr ((write_singleton _ _ _).trans (if_neg hne.1)), bit_setBit, if_neg hne.2]
      exact ih hactions.2
  intro i a hi hreads k hk
  show bit (host.image (config.mbActionListHead.reverse.foldl _ state)) k = _
  rw [List.foldl_reverse]
  exact hquiet _ (fun _ h => h) k (hsep.latches a (List.mem_of_getElem? hi) hreads k hk)

/-- **The data of the devices.** In every run of the TCP or the RTU loop, with piControl
succeeding, any answers of the device and a user that leaves the data of the read actions alone,
the process image shows in the data of each read action the last reply that delivered all that was
asked for, or what was there before the first one. The data of the write actions may overlap them.
-/
theorem dataFlow_run (hhost : host.Succeeds) (hsep : DataSeparated host config) (state : σ)
    (labels : List (LoopLabel σ))
    (hleaves : Along (deliveringStep host config) (LeavesData host config)
      (.start host config state, []) labels) :
    Throughout (deliveringStep host config) (DataInv host config (host.image state))
      (.start host config state, []) labels :=
  throughout_of_along (fun _ _ _ h hl hs => h.step hhost hsep hl hs)
    (dataInv_start hhost hsep state) hleaves

/-- A device that answers every request with one item whose bytes are 7. -/
def sevenHost : Host Image :=
  imageHost fun c => { len := 1, errno := 0, data := List.replicate (min c.itemSize c.capacity) 7 }

theorem sevenHost_succeeds : sevenHost.Succeeds := imageHost_succeeds fun c => by simp

theorem twoReadsConfig_dataSeparated : DataSeparated sevenHost twoReadsConfig where
  windows i j a b hi hj hij _ _ k ha hb := by
    rcases i with - | - | i <;> rcases j with - | - | j <;>
      simp [twoReadsConfig] at hi hj hij <;> subst hi hj <;>
      simp [InDataWindow] at ha hb <;> omega
  latches a ha _ k hk := by
    simp only [twoReadsConfig, List.mem_cons, List.not_mem_nil, or_false] at ha
    obtain rfl | rfl := ha <;>
      simp [InDataWindow, InLatches, twoReadsConfig, deviceLatch, TModbusAction.latch, sevenHost,
        imageHost] at hk ⊢ <;> omega

/-- The first action is answered. -/
theorem dataFlow_run_firstPass :
    Throughout (deliveringStep sevenHost twoReadsConfig)
      (DataInv sevenHost twoReadsConfig fun _ => 0) (.start sevenHost twoReadsConfig fun _ => 0, [])
      firstPass :=
  dataFlow_run sevenHost_succeeds twoReadsConfig_dataSeparated (fun _ => 0) firstPass (by
    simp only [firstPass, Along, LeavesData, true_and, implies_true])

end RevPiModbus
