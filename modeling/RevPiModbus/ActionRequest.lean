import RevPiModbus.RoundTrip
import RevPiModbus.WrittenData

/-!
# The request of an action

`processModbusAction` makes at most one call of libmodbus, of the function that the action names.
All its other calls go to piControl, so that what piControl leaves alone changes through that one
request.

* `ModbusCall.function`, `Host.Keeps`: the function of a call, and what piControl leaves alone;
* `Requested`, `processModbusAction_requested`: no request, or one;
* `processModbusAction_writesWords`, `processModbusAction_readsWords`: the requests of the actions
  that write and read registers.
-/

namespace RevPiModbus

open ByteImage

variable {σ τ : Type} {host : Host σ} {f : σ → τ} {action : TModbusAction} {buffer : List UInt8}
  {state : σ} {t : Transaction σ}

/-- The function that a call requests. -/
def ModbusCall.function : ModbusCall → EModbusFunction
  | .readBits _ _ => .readCoils
  | .readInputBits _ _ => .readDiscreteInputs
  | .readRegisters _ _ => .readHoldingRegisters
  | .readInputRegisters _ _ => .readInputRegisters
  | .writeRegister _ _ => .writeSingleRegister
  | .writeBit _ _ => .writeSingleCoil
  | .writeBits _ _ _ => .writeMultipleCoils
  | .writeRegisters _ _ _ => .writeMultipleRegisters
  | .reportSlaveId _ => .reportSlaveId

/-- The 16 bits of an address that a request has room for. -/
def wireAddress (addr : ℤ) : ℕ := (addr % 2 ^ 16).toNat

/-- The calls that libmodbus does not refuse with `EMBMDATA`. -/
def ModbusCall.Sendable : ModbusCall → Prop
  | .readBits _ nb | .readInputBits _ nb => nb ≤ modbusMaxReadBits
  | .readRegisters _ nb | .readInputRegisters _ nb => nb ≤ modbusMaxReadRegisters
  | .writeBits _ nb data => nb ≤ modbusMaxWriteBits ∧ data.length = nb
  | .writeRegisters _ nb data => nb ≤ modbusMaxWriteRegisters ∧ data.length = 2 * nb
  | .writeRegister _ _ | .writeBit _ _ | .reportSlaveId _ => True

instance (c : ModbusCall) : Decidable c.Sendable := by
  cases c <;> unfold ModbusCall.Sendable <;> infer_instance

/-- The first register that a call writes, and what it writes from there on. -/
def ModbusCall.written (c : ModbusCall) : Option (ℕ × List UInt16) :=
  match c with
  | .writeRegister addr _ | .writeRegisters addr _ _ => some (wireAddress addr, c.words)
  | _ => none

/-- The calls of piControl leave `f` alone. -/
structure Host.Keeps (host : Host σ) (f : σ → τ) : Prop where
  read : ∀ a n s, f (host.piControlRead a n s).2 = f s
  write : ∀ a d s, f (host.piControlWrite a d s).2 = f s
  setBit : ∀ v s, f (host.piControlSetBitValue v s).2 = f s
  getBit : ∀ v s, f (host.piControlGetBitValue v s).2 = f s

/-- No request has been made; or one, in a state that agrees with the first one, and `f` is as the
request has left it. -/
inductive Requested (host : Host σ) (f : σ → τ) (action : TModbusAction) (state : σ)
    (t : Transaction σ) : Prop
  | silent (request : t.request = none) (len : t.len = 0) (kept : f t.state = f state)
  | once (call : ModbusCall) (s : σ) (function : call.function = action.eFunctionCode)
      (before : f s = f state) (request : t.request = some call)
      (len : t.len = (host.modbus call s).1.len) (after : f t.state = f (host.modbus call s).2)

/-! ## The branches of the `switch` -/

theorem storeCoils_kept (hkeeps : host.Keeps f) {n i : ℕ} {successful successful' : ℤ} {s s' : σ}
    (h : storeCoils host action buffer n i successful s = .ok (successful', s')) : f s' = f s := by
  induction n generalizing i successful s with
  | zero =>
    unfold storeCoils at h
    cases h
    rfl
  | succ n ih =>
    unfold storeCoils at h
    cases hvalue : buffer[i]? with
    | none =>
      rw [hvalue] at h
      cases h
    | some value =>
      simp only [hvalue] at h
      split_ifs at h
      · cases h
        exact hkeeps.setBit _ s
      · exact (ih h).trans (hkeeps.setBit _ s)

theorem fetchCoils_kept (hkeeps : host.Keeps f) {n i : ℕ} {successful successful' : ℤ}
    {buffer buffer' : List UInt8} {s s' : σ}
    (h : fetchCoils host action n i successful buffer s = .ok (successful', buffer', s')) :
    f s' = f s := by
  induction n generalizing i successful buffer s with
  | zero =>
    unfold fetchCoils at h
    cases h
    rfl
  | succ n ih =>
    unfold fetchCoils at h
    simp only at h
    split_ifs at h
    · cases h
      exact hkeeps.getBit _ s
    · exact (ih h).trans (hkeeps.getBit _ s)

/-- A request that sends data is the last call. -/
theorem sendModbus_requested {call : ModbusCall} (hfunction : call.function = action.eFunctionCode)
    (h : f t.state = f state) : Requested host f action state (sendModbus host call t) :=
  .once call t.state hfunction h rfl rfl rfl

/-- A request that stores its data is the first call. -/
theorem receiveModbus_requested {call : ModbusCall}
    (hfunction : call.function = action.eFunctionCode)
    (h : receiveModbus host call (.start buffer state) = .ok t) :
    Requested host f action state t := by
  unfold receiveModbus at h
  obtain ⟨buffer', -, h⟩ := bind_eq_ok.mp h
  cases h
  exact .once call state hfunction rfl rfl rfl rfl

/-- Later calls of piControl do not matter. -/
theorem Requested.congr {t' : Transaction σ} (h : Requested host f action state t)
    (hrequest : t'.request = t.request) (hlen : t'.len = t.len) (hkept : f t'.state = f t.state) :
    Requested host f action state t' := by
  cases h with
  | silent request len kept =>
    exact .silent (hrequest.trans request) (hlen.trans len) (hkept.trans kept)
  | once call s function before request len after =>
    exact .once call s function before (hrequest.trans request) (hlen.trans len)
      (hkept.trans after)

theorem readBitsCase_requested (hkeeps : host.Keeps f) {call : ModbusCall}
    (hfunction : call.function = action.eFunctionCode)
    (h : readBitsCase host action call (.start buffer state) = .ok t) :
    Requested host f action state t := by
  unfold readBitsCase at h
  obtain ⟨-, -, h⟩ := bind_eq_ok.mp h
  obtain ⟨r, hreceive, h⟩ := bind_eq_ok.mp h
  have hrequested : Requested host f action state r := receiveModbus_requested hfunction hreceive
  split_ifs at h
  · cases h
    exact hrequested
  · obtain ⟨⟨successful, s⟩, hstore, h⟩ := bind_eq_ok.mp h
    cases h
    exact hrequested.congr rfl rfl (storeCoils_kept hkeeps hstore)

/-- The functions that write the front of the buffer to the process image. -/
theorem writeFront_requested (hkeeps : host.Keeps f) {call : ModbusCall} {n : ℕ} {r : Transaction σ}
    (hfunction : call.function = action.eFunctionCode)
    (hreceive : receiveModbus host call (.start buffer state) = .ok r)
    (h : (if r.len < action.i16uRegisterCount.toNat then pure r else do
      let data ← bufferFront r.buffer n
      let (successful, state) := host.piControlWrite action.i32uStartByteProcessData data r.state
      return { r with successful := successful, state := state }) = Except.ok (ε := Fault) t) :
    Requested host f action state t := by
  have hrequested : Requested host f action state r := receiveModbus_requested hfunction hreceive
  split_ifs at h
  · cases h
    exact hrequested
  · obtain ⟨data, -, h⟩ := bind_eq_ok.mp h
    cases h
    exact hrequested.congr rfl rfl (hkeeps.write _ _ _)

theorem readRegistersCase_requested (hkeeps : host.Keeps f) {call : ModbusCall}
    (hfunction : call.function = action.eFunctionCode)
    (h : readRegistersCase host action call (.start buffer state) = .ok t) :
    Requested host f action state t := by
  unfold readRegistersCase at h
  obtain ⟨-, -, h⟩ := bind_eq_ok.mp h
  obtain ⟨r, hreceive, h⟩ := bind_eq_ok.mp h
  exact writeFront_requested hkeeps hfunction hreceive h

theorem reportSlaveIdCase_requested (hkeeps : host.Keeps f)
    (hcode : action.eFunctionCode = .reportSlaveId)
    (h : reportSlaveIdCase host action (.start buffer state) = .ok t) :
    Requested host f action state t := by
  unfold reportSlaveIdCase at h
  obtain ⟨-, -, h⟩ := bind_eq_ok.mp h
  obtain ⟨r, hreceive, h⟩ := bind_eq_ok.mp h
  exact writeFront_requested hkeeps (by rw [hcode]; rfl) hreceive h

theorem writeSingleRegisterCase_requested (hkeeps : host.Keeps f)
    (hcode : action.eFunctionCode = .writeSingleRegister)
    (h : writeSingleRegisterCase host action (.start buffer state) = .ok t) :
    Requested host f action state t := by
  unfold writeSingleRegisterCase at h
  obtain ⟨-, -, h⟩ := bind_eq_ok.mp h
  obtain ⟨buffer', -, h⟩ := bind_eq_ok.mp h
  have hkept := hkeeps.read action.i32uStartByteProcessData
    (2 * action.i16uRegisterCount.toNat) state
  split_ifs at h
  · cases h
    exact .silent rfl rfl hkept
  · split at h
    · cases h
      exact sendModbus_requested hcode.symm hkept
    · cases h

theorem writeMultipleRegistersCase_requested (hkeeps : host.Keeps f)
    (hcode : action.eFunctionCode = .writeMultipleRegisters)
    (h : writeMultipleRegistersCase host action (.start buffer state) = .ok t) :
    Requested host f action state t := by
  unfold writeMultipleRegistersCase at h
  obtain ⟨-, -, h⟩ := bind_eq_ok.mp h
  obtain ⟨buffer', -, h⟩ := bind_eq_ok.mp h
  have hkept := hkeeps.read action.i32uStartByteProcessData
    (2 * action.i16uRegisterCount.toNat) state
  split_ifs at h
  · cases h
    exact .silent rfl rfl hkept
  · obtain ⟨data, -, h⟩ := bind_eq_ok.mp h
    cases h
    exact sendModbus_requested hcode.symm hkept

theorem writeSingleCoilCase_requested (hkeeps : host.Keeps f)
    (hcode : action.eFunctionCode = .writeSingleCoil)
    (h : writeSingleCoilCase host action (.start buffer state) = .ok t) :
    Requested host f action state t := by
  unfold writeSingleCoilCase at h
  obtain ⟨-, -, h⟩ := bind_eq_ok.mp h
  obtain ⟨⟨successful, buffer', s⟩, hfetch, h⟩ := bind_eq_ok.mp h
  have hkept : f s = f state := fetchCoils_kept hkeeps hfetch
  dsimp only at h
  split_ifs at h
  · split at h
    · cases h
      exact sendModbus_requested hcode.symm hkept
    · cases h
  · cases h
    exact .silent rfl rfl hkept

theorem writeMultipleCoilsCase_requested (hkeeps : host.Keeps f)
    (hcode : action.eFunctionCode = .writeMultipleCoils)
    (h : writeMultipleCoilsCase host action (.start buffer state) = .ok t) :
    Requested host f action state t := by
  unfold writeMultipleCoilsCase at h
  obtain ⟨-, -, h⟩ := bind_eq_ok.mp h
  obtain ⟨⟨successful, buffer', s⟩, hfetch, h⟩ := bind_eq_ok.mp h
  have hkept : f s = f state := fetchCoils_kept hkeeps hfetch
  dsimp only at h
  split_ifs at h
  · obtain ⟨data, -, h⟩ := bind_eq_ok.mp h
    cases h
    exact sendModbus_requested hcode.symm hkept
  · cases h
    exact .silent rfl rfl hkept

theorem switchFunctionCode_requested (hkeeps : host.Keeps f)
    (h : switchFunctionCode host action (.start buffer state) = .ok t) :
    Requested host f action state t := by
  unfold switchFunctionCode at h
  cases hcode : action.eFunctionCode with
  | readCoils | readDiscreteInputs =>
    simp only [hcode] at h
    exact readBitsCase_requested hkeeps (by rw [hcode]; rfl) h
  | readHoldingRegisters | readInputRegisters =>
    simp only [hcode] at h
    exact readRegistersCase_requested hkeeps (by rw [hcode]; rfl) h
  | reportSlaveId =>
    simp only [hcode] at h
    exact reportSlaveIdCase_requested hkeeps hcode h
  | writeSingleRegister =>
    simp only [hcode] at h
    exact writeSingleRegisterCase_requested hkeeps hcode h
  | writeSingleCoil =>
    simp only [hcode] at h
    exact writeSingleCoilCase_requested hkeeps hcode h
  | writeMultipleCoils =>
    simp only [hcode] at h
    exact writeMultipleCoilsCase_requested hkeeps hcode h
  | writeMultipleRegisters =>
    simp only [hcode] at h
    exact writeMultipleRegistersCase_requested hkeeps hcode h
  | readExceptionStatus | writeMaskRegister | writeAndReadRegisters | unnamed code =>
    simp only [hcode] at h
    cases h
    exact .silent rfl rfl rfl

/-- An action makes no request, or one. -/
theorem processModbusAction_requested (hkeeps : host.Keeps f) {out : Transaction σ}
    (h : processModbusAction host action buffer state = .ok out) :
    Requested host f action state out := by
  unfold processModbusAction at h
  obtain ⟨t, hswitch, h⟩ := bind_eq_ok.mp h
  have hrequested := switchFunctionCode_requested hkeeps hswitch
  split_ifs at h
  · cases h
    exact hrequested.congr rfl rfl (hkeeps.write _ _ _)
  · cases h
    exact hrequested

/-! ## The actions on registers -/

/-- The request is that of the `switch`. -/
theorem processModbusAction_request {out : Transaction σ}
    (h : processModbusAction host action buffer state = .ok out) :
    ∃ t, switchFunctionCode host action (.start buffer state) = .ok t ∧
      out.request = t.request := by
  unfold processModbusAction at h
  obtain ⟨t, hswitch, h⟩ := bind_eq_ok.mp h
  refine ⟨t, hswitch, ?_⟩
  split_ifs at h <;> cases h <;> rfl

theorem length_le_of_overwrite {buffer' data : List UInt8}
    (h : overwrite buffer data = .ok buffer') :
    data.length ≤ buffer.length := by
  unfold overwrite at h
  split_ifs at h with hle
  exact hle

/-- The first register of an action, as its request has it. -/
def TModbusAction.register (action : TModbusAction) : ℕ := wireAddress action.modbusAddress

instance (f : EModbusFunction) : Decidable f.WritesRegisters := inferInstanceAs (Decidable (_ ∨ _))

instance (f : EModbusFunction) : Decidable f.ReadsRegisters := inferInstanceAs (Decidable (_ ∨ _))

/-- The data of an action in the process image, as words. -/
def imageWords (img : Image) (action : TModbusAction) : List UInt16 :=
  bytesRegisters (read img action.i32uStartByteProcessData.toNat
    (2 * action.i16uRegisterCount.toNat))

/-- An action that writes registers requests that the words from the process image be written. -/
theorem processModbusAction_writesWords (hhost : host.Succeeds)
    (hfc : action.eFunctionCode.WritesRegisters) {out : Transaction σ} {call : ModbusCall}
    (h : processModbusAction host action buffer state = .ok out) (hcall : out.request = some call) :
    0 < action.i16uRegisterCount.toNat ∧ call.Sendable ∧
      call.written = some (action.register, imageWords (host.image state) action) := by
  obtain ⟨t, hswitch, -⟩ := processModbusAction_request h
  obtain hfc | hfc := hfc
  · unfold switchFunctionCode writeSingleRegisterCase at hswitch
    simp only [hfc] at hswitch
    obtain ⟨_, hassert, hswitch⟩ := bind_eq_ok.mp hswitch
    obtain ⟨_, hbuffer, -⟩ := bind_eq_ok.mp hswitch
    have hone := cAssert_eq_ok.mp hassert
    have hlength := length_le_of_overwrite hbuffer
    rw [hhost.read_eq, read_length, hone] at hlength
    obtain ⟨out', hout, hrequest⟩ :=
      processModbusAction_writesRegister hhost state hfc hone hlength
    obtain rfl := Except.ok.inj (h.symm.trans hout)
    obtain rfl := Option.some.inj (hcall.symm.trans hrequest)
    refine ⟨by omega, trivial, ?_⟩
    unfold imageWords
    rw [hone]
    exact congrArg (fun word => some (action.register, [word])) (ofNat_bytes _ _)
  · unfold switchFunctionCode writeMultipleRegistersCase at hswitch
    simp only [hfc] at hswitch
    obtain ⟨_, hassert, hswitch⟩ := bind_eq_ok.mp hswitch
    obtain ⟨_, hbuffer, -⟩ := bind_eq_ok.mp hswitch
    have hmax := cAssert_eq_ok.mp hassert
    have hlength := length_le_of_overwrite hbuffer
    rw [hhost.read_eq, read_length] at hlength
    obtain ⟨out', hout, hrequest⟩ :=
      processModbusAction_writesRegisters hhost state hfc hlength hmax
    obtain rfl := Except.ok.inj (h.symm.trans hout)
    rw [hcall] at hrequest
    split_ifs at hrequest with hzero
    obtain rfl := Option.some.inj hrequest
    refine ⟨by omega, ⟨hmax, read_length _ _⟩, ?_⟩
    have hwords : (imageWords (host.image state) action).length = action.i16uRegisterCount.toNat :=
      bytesRegisters_length (read_length _ _)
    exact congrArg (fun words => some (action.register, words))
      (List.take_of_length_le hwords.le)

theorem readRegistersCase_request {call : ModbusCall}
    (h : readRegistersCase host action call (.start buffer state) = .ok t) :
    t.request = some call ∧ action.i16uRegisterCount.toNat ≤ modbusMaxReadRegisters := by
  have hmax : action.i16uRegisterCount.toNat ≤ modbusMaxReadRegisters := by
    unfold readRegistersCase at h
    obtain ⟨_, hassert, -⟩ := bind_eq_ok.mp h
    exact cAssert_eq_ok.mp hassert
  refine ⟨?_, hmax⟩
  unfold readRegistersCase at h
  obtain ⟨-, -, h⟩ := bind_eq_ok.mp h
  obtain ⟨r, hreceive, h⟩ := bind_eq_ok.mp h
  unfold receiveModbus at hreceive
  obtain ⟨_, -, hreceive⟩ := bind_eq_ok.mp hreceive
  cases hreceive
  split_ifs at h
  · cases h
    rfl
  · obtain ⟨_, -, h⟩ := bind_eq_ok.mp h
    cases h
    rfl

/-- The request of an action that reads registers. -/
def TModbusAction.readCall (action : TModbusAction) : ModbusCall :=
  if action.eFunctionCode = .readInputRegisters then
    .readInputRegisters action.modbusAddress action.i16uRegisterCount.toNat
  else .readRegisters action.modbusAddress action.i16uRegisterCount.toNat

/-- An action that reads registers requests them. -/
theorem processModbusAction_readsWords (hfc : action.eFunctionCode.ReadsRegisters)
    {out : Transaction σ} (h : processModbusAction host action buffer state = .ok out) :
    out.request = some action.readCall ∧ action.readCall.Sendable := by
  obtain ⟨t, hswitch, hrequest⟩ := processModbusAction_request h
  unfold switchFunctionCode at hswitch
  unfold TModbusAction.readCall
  rw [hrequest]
  obtain hfc | hfc := hfc <;> simp only [hfc] at hswitch ⊢
  · obtain ⟨ht, hmax⟩ := readRegistersCase_request hswitch
    exact ⟨ht, hmax⟩
  · obtain ⟨ht, hmax⟩ := readRegistersCase_request hswitch
    exact ⟨ht, hmax⟩

end RevPiModbus
