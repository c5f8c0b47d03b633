import RevPiModbus.ExecutableActions

/-!
# What an action changes in the process image

Every branch of `processModbusAction` ends in one of three ways: without a request, with the
request as the last call, or with the transfer of the data of a successful request. Only the last
one touches the data of the action, and after it the tail of the function has nothing to report.

* `InDataWindow`, `dataBytes`: the bits and the bytes of the data of an action;
* `SwitchOutcome`, `switchFunctionCode_outcome`: the three ways;
* `ActionEffect`, `processModbusAction_effect`: what an action changes.
-/

namespace RevPiModbus

open ByteImage

variable {σ : Type} {host : Host σ} {action : TModbusAction} {buffer : List UInt8} {state : σ}
  {t : Transaction σ}

/-- The bits of the process image that the data of an action occupies: for coils the bits that the
loops over the coils address, for registers whole words, for the slave id whole bytes. -/
def InDataWindow (action : TModbusAction) (k : ℕ) : Prop :=
  let first := action.i32uStartByteProcessData.toNat
  let count := action.i16uRegisterCount.toNat
  match action.eFunctionCode with
  | .readCoils | .readDiscreteInputs | .writeSingleCoil | .writeMultipleCoils =>
    ∃ i < count, k = coilPosition action i
  | .readHoldingRegisters | .readInputRegisters | .writeSingleRegister | .writeMultipleRegisters =>
    first ≤ k / 8 ∧ k / 8 < first + 2 * count
  | .reportSlaveId => first ≤ k / 8 ∧ k / 8 < first + count
  | _ => False

/-- The functions that store the data of a reply in the process image. -/
def EModbusFunction.isReadFunction : EModbusFunction → Bool
  | .readCoils | .readDiscreteInputs | .readHoldingRegisters | .readInputRegisters
  | .reportSlaveId => true
  | _ => false

/-- The request has been sent to the process image as it was before, and has had that reply. -/
structure Replied (host : Host σ) (state : σ) (t : Transaction σ) (call : ModbusCall) (s : σ) :
    Prop where
  image : host.image s = host.image state
  request : t.request = some call
  len : t.len = (host.modbus call s).1.len
  errno : t.errno = (host.modbus call s).1.errno

/-- The end of the `switch`: no request has been sent; or the request was the last call; or it has
delivered what was asked for, and the data have been stored in `W`. -/
inductive SwitchOutcome (host : Host σ) (action : TModbusAction) (W : ℕ → Prop) (state : σ)
    (t : Transaction σ) : Prop
  | silent (len : t.len = 0) (image : host.image t.state = host.image state)
  | ended (call : ModbusCall) (s : σ) (replied : Replied host state t call s)
      (last : t.state = (host.modbus call s).2)
  | stored (call : ModbusCall) (s : σ) (replied : Replied host state t call s)
      (reads : action.eFunctionCode.isReadFunction = true)
      (complete : action.i16uRegisterCount.toNat ≤ t.len)
      (image : ∀ k, ¬ W k → bit (host.image t.state) k = bit (host.image state) k)

/-! ### The loops over the coils -/

theorem storeCoils_frame (hhost : host.Succeeds) {n i : ℕ} {successful successful' : ℤ} {s s' : σ}
    {k : ℕ} (h : storeCoils host action buffer n i successful s = .ok (successful', s'))
    (hk : ∀ j, i ≤ j → j < i + n → k ≠ coilPosition action j) :
    bit (host.image s') k = bit (host.image s) k := by
  induction n generalizing i successful s with
  | zero =>
    unfold storeCoils at h
    cases h
    rfl
  | succ n ih =>
    unfold storeCoils at h
    cases hvalue : buffer[i]? with
    | none =>
      rw [hvalue] at h
      cases h
    | some value =>
      simp only [hvalue, not_lt.mpr (hhost.setBit_ret (coilData action i value) s), if_false] at h
      rw [ih h fun j hj hj' => hk j (by omega) (by omega), hhost.setBit_image,
        bitPosition_coilData hhost, bit_setBit, if_neg (hk i le_rfl (by omega))]

theorem fetchCoils_frame (hhost : host.Succeeds) {n i : ℕ} {successful successful' : ℤ}
    {buffer buffer' : List UInt8} {s s' : σ}
    (h : fetchCoils host action n i successful buffer s = .ok (successful', buffer', s')) :
    host.image s' = host.image s := by
  induction n generalizing i successful buffer s with
  | zero =>
    unfold fetchCoils at h
    cases h
    rfl
  | succ n ih =>
    unfold fetchCoils at h
    simp only [not_lt.mpr (hhost.getBit_ret (coilData action i 0) s), if_false] at h
    split_ifs at h
    rw [ih h, hhost.getBit_image]

/-! ### The branches of the `switch` -/

theorem receiveModbus_replied {call : ModbusCall}
    (h : receiveModbus host call (.start buffer state) = .ok t) :
    Replied host state t call state ∧ t.state = (host.modbus call state).2 := by
  unfold receiveModbus at h
  obtain ⟨buffer', -, h⟩ := bind_eq_ok.mp h
  cases h
  exact ⟨⟨rfl, rfl, rfl, rfl⟩, rfl⟩

/-- A request that sends data is the last call. -/
theorem sendModbus_outcome (W : ℕ → Prop) (call : ModbusCall)
    (h : host.image t.state = host.image state) :
    SwitchOutcome host action W state (sendModbus host call t) :=
  .ended call t.state ⟨h, rfl, rfl, rfl⟩ rfl

theorem readBitsCase_outcome (hhost : host.Succeeds) {call : ModbusCall}
    (hreads : action.eFunctionCode.isReadFunction = true)
    (h : readBitsCase host action call (.start buffer state) = .ok t) :
    SwitchOutcome host action (fun k => ∃ i < action.i16uRegisterCount.toNat,
      k = coilPosition action i) state t := by
  unfold readBitsCase at h
  obtain ⟨-, -, h⟩ := bind_eq_ok.mp h
  obtain ⟨r, hreceive, h⟩ := bind_eq_ok.mp h
  obtain ⟨hreplied, hstate⟩ := receiveModbus_replied hreceive
  by_cases hlen : r.len < action.i16uRegisterCount.toNat
  · rw [if_pos hlen] at h
    cases h
    exact .ended call state hreplied hstate
  · rw [if_neg hlen] at h
    obtain ⟨⟨successful, s⟩, hstore, h⟩ := bind_eq_ok.mp h
    cases h
    refine .stored call state ⟨rfl, hreplied.request, hreplied.len, hreplied.errno⟩ hreads
      (not_lt.mp hlen) fun k hk => ?_
    have hframe := storeCoils_frame hhost hstore fun j _ hj hkj => hk ⟨j, by omega, hkj⟩
    rw [hframe, hstate, hhost.modbus_image]

/-- The functions that write the front of the buffer to the process image. -/
theorem writeBack_outcome (hhost : host.Succeeds) {call : ModbusCall} {n : ℕ} {r : Transaction σ}
    (hreads : action.eFunctionCode.isReadFunction = true)
    (hreceive : receiveModbus host call (.start buffer state) = .ok r)
    (h : (if r.len < action.i16uRegisterCount.toNat then pure r else do
      let data ← bufferFront r.buffer n
      let (successful, state) := host.piControlWrite action.i32uStartByteProcessData data r.state
      return { r with successful := successful, state := state }) = .ok t) :
    SwitchOutcome host action (fun k => action.i32uStartByteProcessData.toNat ≤ k / 8 ∧
      k / 8 < action.i32uStartByteProcessData.toNat + n) state t := by
  obtain ⟨hreplied, hstate⟩ := receiveModbus_replied hreceive
  by_cases hlen : r.len < action.i16uRegisterCount.toNat
  · rw [if_pos hlen] at h
    cases h
    exact .ended call state hreplied hstate
  · rw [if_neg hlen] at h
    obtain ⟨data, hdata, h⟩ := bind_eq_ok.mp h
    cases h
    refine .stored call state ⟨rfl, hreplied.request, hreplied.len, hreplied.errno⟩ hreads
      (not_lt.mp hlen) fun k hk => ?_
    -- the bound is all that counts of the data here
    have hlength : data.length ≤ n := by
      unfold bufferFront at hdata
      split_ifs at hdata
      cases hdata
      exact List.length_take_le _ _
    show bit (host.image (host.piControlWrite _ _ _).2) k = _
    rw [hhost.write_image, bit_write_of_notMem (fun hmem => hk ⟨hmem.1, by omega⟩), hstate,
      hhost.modbus_image]

theorem readRegistersCase_outcome (hhost : host.Succeeds) {call : ModbusCall}
    (hreads : action.eFunctionCode.isReadFunction = true)
    (h : readRegistersCase host action call (.start buffer state) = .ok t) :
    SwitchOutcome host action (fun k => action.i32uStartByteProcessData.toNat ≤ k / 8 ∧
      k / 8 < action.i32uStartByteProcessData.toNat + 2 * action.i16uRegisterCount.toNat)
      state t := by
  unfold readRegistersCase at h
  obtain ⟨-, -, h⟩ := bind_eq_ok.mp h
  obtain ⟨r, hreceive, h⟩ := bind_eq_ok.mp h
  exact writeBack_outcome hhost hreads hreceive h

theorem reportSlaveIdCase_outcome (hhost : host.Succeeds)
    (hreads : action.eFunctionCode.isReadFunction = true)
    (h : reportSlaveIdCase host action (.start buffer state) = .ok t) :
    SwitchOutcome host action (fun k => action.i32uStartByteProcessData.toNat ≤ k / 8 ∧
      k / 8 < action.i32uStartByteProcessData.toNat + action.i16uRegisterCount.toNat)
      state t := by
  unfold reportSlaveIdCase at h
  obtain ⟨-, -, h⟩ := bind_eq_ok.mp h
  obtain ⟨r, hreceive, h⟩ := bind_eq_ok.mp h
  exact writeBack_outcome hhost hreads hreceive h

theorem writeSingleRegisterCase_outcome (hhost : host.Succeeds) (W : ℕ → Prop)
    (h : writeSingleRegisterCase host action (.start buffer state) = .ok t) :
    SwitchOutcome host action W state t := by
  unfold writeSingleRegisterCase at h
  obtain ⟨-, -, h⟩ := bind_eq_ok.mp h
  obtain ⟨buffer', -, h⟩ := bind_eq_ok.mp h
  have himage := hhost.read_image action.i32uStartByteProcessData
    (2 * action.i16uRegisterCount.toNat) state
  split_ifs at h
  · cases h
    exact .silent rfl himage
  · split at h
    · cases h
      exact sendModbus_outcome W _ himage
    · cases h

theorem writeMultipleRegistersCase_outcome (hhost : host.Succeeds) (W : ℕ → Prop)
    (h : writeMultipleRegistersCase host action (.start buffer state) = .ok t) :
    SwitchOutcome host action W state t := by
  unfold writeMultipleRegistersCase at h
  obtain ⟨-, -, h⟩ := bind_eq_ok.mp h
  obtain ⟨buffer', -, h⟩ := bind_eq_ok.mp h
  have himage := hhost.read_image action.i32uStartByteProcessData
    (2 * action.i16uRegisterCount.toNat) state
  split_ifs at h
  · cases h
    exact .silent rfl himage
  · obtain ⟨data, -, h⟩ := bind_eq_ok.mp h
    cases h
    exact sendModbus_outcome W _ himage

theorem writeSingleCoilCase_outcome (hhost : host.Succeeds) (W : ℕ → Prop)
    (h : writeSingleCoilCase host action (.start buffer state) = .ok t) :
    SwitchOutcome host action W state t := by
  unfold writeSingleCoilCase at h
  obtain ⟨-, -, h⟩ := bind_eq_ok.mp h
  obtain ⟨⟨successful, buffer', s⟩, hfetch, h⟩ := bind_eq_ok.mp h
  have himage := fetchCoils_frame hhost hfetch
  dsimp only at h
  split_ifs at h
  · split at h
    · cases h
      exact sendModbus_outcome W _ himage
    · cases h
  · cases h
    exact .silent rfl himage

theorem writeMultipleCoilsCase_outcome (hhost : host.Succeeds) (W : ℕ → Prop)
    (h : writeMultipleCoilsCase host action (.start buffer state) = .ok t) :
    SwitchOutcome host action W state t := by
  unfold writeMultipleCoilsCase at h
  obtain ⟨-, -, h⟩ := bind_eq_ok.mp h
  obtain ⟨⟨successful, buffer', s⟩, hfetch, h⟩ := bind_eq_ok.mp h
  have himage := fetchCoils_frame hhost hfetch
  dsimp only at h
  split_ifs at h
  · obtain ⟨data, -, h⟩ := bind_eq_ok.mp h
    cases h
    exact sendModbus_outcome W _ himage
  · cases h
    exact .silent rfl himage

/-- The `switch` ends in one of the three ways, with the data window of the action. -/
theorem switchFunctionCode_outcome (hhost : host.Succeeds)
    (h : switchFunctionCode host action (.start buffer state) = .ok t) :
    SwitchOutcome host action (InDataWindow action) state t := by
  unfold switchFunctionCode at h
  unfold InDataWindow
  cases hfc : action.eFunctionCode with
  | readCoils | readDiscreteInputs =>
    simp only [hfc] at h ⊢
    exact readBitsCase_outcome hhost (by rw [hfc]; rfl) h
  | readHoldingRegisters | readInputRegisters =>
    simp only [hfc] at h ⊢
    exact readRegistersCase_outcome hhost (by rw [hfc]; rfl) h
  | reportSlaveId =>
    simp only [hfc] at h ⊢
    exact reportSlaveIdCase_outcome hhost (by rw [hfc]; rfl) h
  | writeSingleRegister =>
    simp only [hfc] at h
    exact writeSingleRegisterCase_outcome hhost _ h
  | writeSingleCoil =>
    simp only [hfc] at h
    exact writeSingleCoilCase_outcome hhost _ h
  | writeMultipleCoils =>
    simp only [hfc] at h
    exact writeMultipleCoilsCase_outcome hhost _ h
  | writeMultipleRegisters =>
    simp only [hfc] at h
    exact writeMultipleRegistersCase_outcome hhost _ h
  | readExceptionStatus | writeMaskRegister | writeAndReadRegisters | unnamed code =>
    simp only [hfc] at h
    cases h
    exact .silent rfl rfl

/-! ### The whole function -/

/-- The bytes of the process image that the data of an action occupies. -/
def dataBytes (action : TModbusAction) : ℕ :=
  let count := action.i16uRegisterCount.toNat
  match action.eFunctionCode with
  | .readCoils | .readDiscreteInputs | .writeSingleCoil | .writeMultipleCoils =>
    (action.i8uStartBitProcessData.toNat + count + 7) / 8
  | .readHoldingRegisters | .readInputRegisters | .writeSingleRegister | .writeMultipleRegisters =>
    2 * count
  | .reportSlaveId => count
  | _ => 0

/-- The byte belongs to the data of the action. -/
def IsDataByte (action : TModbusAction) (a : ℕ) : Prop :=
  action.i32uStartByteProcessData.toNat ≤ a ∧
    a < action.i32uStartByteProcessData.toNat + dataBytes action

/-- Where the data lie below the end of 16 bit addresses, the window of an action lies in its
bytes. -/
theorem isDataByte_of_inDataWindow {k : ℕ}
    (hfits : action.i32uStartByteProcessData.toNat + dataBytes action ≤ 2 ^ 16)
    (h : InDataWindow action k) : IsDataByte action (k / 8) := by
  unfold InDataWindow at h
  unfold IsDataByte
  unfold dataBytes at hfits ⊢
  cases hfc : action.eFunctionCode with
  | readCoils | readDiscreteInputs | writeSingleCoil | writeMultipleCoils =>
    simp only [hfc] at h hfits ⊢
    obtain ⟨i, hi, rfl⟩ := h
    unfold coilPosition
    omega
  | readHoldingRegisters | readInputRegisters | writeSingleRegister | writeMultipleRegisters
  | reportSlaveId =>
    simp only [hfc] at h ⊢
    exact h
  | readExceptionStatus | writeMaskRegister | writeAndReadRegisters | unnamed code =>
    simp only [hfc] at h

/-- The low byte of `errno`, or of its distance to `MODBUS_ENOBASE` if it lies above. -/
def statusCode (errno : UInt32) : UInt8 :=
  UInt8.ofNat (if modbusEnobase.toNat < errno.toNat then errno.toNat - modbusEnobase.toNat
    else errno.toNat)

theorem errorCode_eq_statusCode (errno : UInt32) : errorCode errno = statusCode errno := by
  unfold errorCode statusCode
  apply UInt8.toNat_inj.mp
  by_cases hgt : modbusEnobase < errno
  · rw [if_pos hgt, if_pos (UInt32.lt_iff_toNat_lt.mp hgt), UInt32.toNat_toUInt8,
      UInt32.toNat_sub_of_le _ _ (UInt32.le_of_lt hgt), UInt8.toNat_ofNat']
  · rw [if_neg hgt, if_neg fun h => hgt (UInt32.lt_iff_toNat_lt.mpr h), UInt32.toNat_toUInt8,
      UInt8.toNat_ofNat']

/-- What the processing of an action changes in the process image. -/
structure ActionEffect (host : Host σ) (action : TModbusAction) (state : σ) (out : Transaction σ) :
    Prop where
  /-- A failed request was the last call before its error is reported, and the status byte is all
  that changes. -/
  failed : out.len < 0 → ∃ call s, Replied host state out call s ∧
    out.state = (writeErrorMessage host action.i32uStatusByteProcessImageOffset
      (statusCode (host.modbus call s).1.errno) (host.modbus call s).2).2 ∧
    host.image out.state = write (host.image state)
      action.i32uStatusByteProcessImageOffset.toNat [statusCode (host.modbus call s).1.errno]
  /-- A reply with less than was asked for is not used. -/
  short : 0 ≤ out.len → out.len < action.i16uRegisterCount.toNat →
    action.eFunctionCode.isReadFunction = true → host.image out.state = host.image state
  /-- The data of a read go to the bytes of the action. -/
  read : 0 ≤ out.len → action.eFunctionCode.isReadFunction = true → ∀ a, ¬ IsDataByte action a →
    host.image out.state a = host.image state a
  /-- A write leaves the process image alone. -/
  written : 0 ≤ out.len → action.eFunctionCode.isReadFunction = false →
    host.image out.state = host.image state

/-- What the tail of `processModbusAction` makes of the end of the `switch`. -/
theorem actionEffect_of_outcome (hhost : host.Succeeds)
    (hfits : action.i32uStartByteProcessData.toNat + dataBytes action ≤ 2 ^ 16)
    (houtcome : SwitchOutcome host action (InDataWindow action) state t) (hlen : 0 ≤ t.len) :
    ActionEffect host action state t := by
  have hnot : ¬ t.len < 0 := not_lt.mpr hlen
  cases houtcome with
  | silent len image =>
    exact ⟨fun h => absurd h hnot, fun _ _ _ => image, fun _ _ _ _ => by rw [image],
      fun _ _ => image⟩
  | ended call s replied last =>
    have himage : host.image t.state = host.image state := by
      rw [last, hhost.modbus_image, replied.image]
    exact ⟨fun h => absurd h hnot, fun _ _ _ => himage, fun _ _ _ _ => by rw [himage],
      fun _ _ => himage⟩
  | stored call s replied reads complete image =>
    refine ⟨fun h => absurd h hnot, fun _ hshort _ => absurd complete (not_le.mpr hshort), ?_, ?_⟩
    · intro _ _ a ha
      apply eq_of_bit
      rintro k rfl
      exact image k fun hwindow => ha (isDataByte_of_inDataWindow hfits hwindow)
    · intro _ hwrites
      rw [reads] at hwrites
      cases hwrites

/-- **The effect of an action.** If the calls of piControl succeed and the data lie inside the
process image, an action within its limits is processed to the end. A failed request changes the
status byte only, to the code of its own `errno`; a short reply and a write change nothing; a
complete reply changes bytes of its own data only. -/
theorem processModbusAction_effect (hhost : host.Succeeds) (action : TModbusAction)
    (buffer : List UInt8) (state : σ)
    (hfits : action.i32uStartByteProcessData.toNat + dataBytes action ≤ 2 ^ 16) :
    (withinLimits action.eFunctionCode action.i16uRegisterCount.toNat = true →
      action.i16uRegisterCount.toNat ≤ maxRegisterSizePerAction →
      buffer.length = maxRegisterSizePerAction →
      ∃ out, processModbusAction host action buffer state = .ok out) ∧
    ∀ out, processModbusAction host action buffer state = .ok out →
      ActionEffect host action state out := by
  constructor
  · intro hlimits hcount hbuffer
    exact ((executable_iff hcount).mpr hlimits).2 host hhost.toConforms buffer state hbuffer
  · intro out h
    unfold processModbusAction at h
    obtain ⟨t, hswitch, h⟩ := bind_eq_ok.mp h
    have houtcome := switchFunctionCode_outcome hhost hswitch
    by_cases hlen : t.len < 0
    · rw [if_pos hlen] at h
      cases h
      cases houtcome with
      -- only a request that has failed leaves a negative length, and it was the last call
      | silent len image => exact absurd hlen (by omega)
      | stored call s replied reads complete image => exact absurd hlen (by omega)
      | ended call s replied last =>
        refine ⟨fun _ => ⟨call, s, ⟨replied.image, replied.request, replied.len, replied.errno⟩,
          ?_, ?_⟩, fun hle => ?_, fun hle => ?_, fun hle => ?_⟩
        · show (writeErrorMessage _ _ _ t.state).2 = _
          rw [replied.errno, errorCode_eq_statusCode, last]
        · show host.image (writeErrorMessage _ _ _ t.state).2 = _
          unfold writeErrorMessage
          rw [hhost.write_image, replied.errno, errorCode_eq_statusCode, last, hhost.modbus_image,
            replied.image]
        all_goals exact absurd hlen (not_lt.mpr hle)
    · rw [if_neg hlen] at h
      cases h
      exact actionEffect_of_outcome hhost hfits houtcome (not_lt.mp hlen)

/-- A failed request. -/
def failedReply (errno : UInt32) (_ : ModbusCall) : ModbusReply where
  len := -1
  errno := errno
  data := []

/-- An exception reply with code 2 leaves 2 in the status byte, and everything else as it is. -/
theorem processModbusAction_effect_failed :
    ∃ out, processModbusAction (imageHost (failedReply (modbusEnobase + 2))) midByteAction
        (List.replicate maxRegisterSizePerAction 0) (fun _ => 0) = .ok out ∧
      out.state = write (fun _ => 0) 10 [2] := by
  have hhost : (imageHost (failedReply (modbusEnobase + 2))).Succeeds :=
    imageHost_succeeds fun call => by simp [failedReply]
  obtain ⟨hreturns, heffect⟩ := processModbusAction_effect hhost midByteAction
    (List.replicate maxRegisterSizePerAction 0) (fun _ => 0) (by decide)
  obtain ⟨out, hout⟩ := hreturns (by decide) (by decide) List.length_replicate
  have hlen : (processModbusAction (imageHost (failedReply (modbusEnobase + 2))) midByteAction
      (List.replicate maxRegisterSizePerAction 0) (fun _ => 0)).map Transaction.len = .ok (-1) := by
    decide +kernel
  rw [hout] at hlen
  have hnegative : out.len < 0 := by
    rw [Except.ok.inj hlen]
    norm_num
  obtain ⟨call, s, -, -, himage⟩ := (heffect out hout).failed hnegative
  have hcode : statusCode (modbusEnobase + 2) = 2 := by decide
  refine ⟨out, hout, ?_⟩
  rw [← hcode]
  exact himage

end RevPiModbus
