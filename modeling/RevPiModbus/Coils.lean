import RevPiModbus.ComAndDataProcessor

/-!
# The placement of coils in the process image

Coil number `i` of an action belongs in the bit `8 · B + s + i` of the process image, where `B`
and `s` are the start byte and the start bit of the action. The loops of `processModbusAction`
compute the byte `B + i / 8` and the bit `(s + i) % 8` separately.

* `coilPosition`, `coilBit`: the bit that the loops address, and the bit of the coil;
* `storeCoils_eq`, `fetchCoils_eq`: what the loops do, in terms of `coilPosition`;
* `placesCoils_iff`: the actions whose coils are all at their bits.
-/

namespace RevPiModbus

open ByteImage

variable {σ : Type} {host : Host σ}

/-- The absolute bit that the loops address for the coil number `i`. -/
def coilPosition (action : TModbusAction) (i : ℕ) : ℕ :=
  8 * ((action.i32uStartByteProcessData.toNat + i / 8) % 2 ^ 16) +
    (action.i8uStartBitProcessData.toNat + i) % 8

/-- The absolute bit in which the coil number `i` belongs. -/
def coilBit (action : TModbusAction) (i : ℕ) : ℕ :=
  8 * action.i32uStartByteProcessData.toNat + action.i8uStartBitProcessData.toNat + i

theorem coilData_i8uBit_toNat (action : TModbusAction) (i : ℕ) (value : UInt8) :
    (coilData action i value).i8uBit.toNat = (action.i8uStartBitProcessData.toNat + i) % 8 := by
  show (UInt8.ofNat _).toNat = _
  rw [UInt8.toNat_ofNat']
  omega

/-- The bit that a bit call with the address of coil number `i` reaches. -/
theorem bitPosition_coilData (hhost : host.Succeeds) (action : TModbusAction) (i : ℕ)
    (value : UInt8) :
    host.bitPosition (coilData action i value).i16uAddress (coilData action i value).i8uBit =
      coilPosition action i := by
  have hbit := coilData_i8uBit_toNat action i value
  have hlt : (coilData action i value).i8uBit < 8 := by
    rw [UInt8.lt_iff_toNat_lt, hbit]
    exact Nat.mod_lt _ (by norm_num)
  rw [hhost.bitPosition_eq _ _ hlt, hbit]
  show 8 * (UInt16.ofNat _).toNat + _ = _
  rw [UInt16.toNat_ofNat']
  rfl

/-! ## The loops -/

/-- The value of a coil in a buffer, as a bit. -/
def coilValue (buffer : List UInt8) (i : ℕ) : Bool := buffer[i]?.getD 0 != 0

/-- The read loop sets the addressed bits one after the other to the values in the buffer. -/
theorem storeCoils_eq (hhost : host.Succeeds) (action : TModbusAction) (buffer : List UInt8)
    (n i : ℕ) (successful : ℤ) (state : σ) (hlen : i + n ≤ buffer.length) :
    ∃ successful' state',
      storeCoils host action buffer n i successful state = .ok (successful', state') ∧
      host.image state' =
        setBits (coilPosition action) (coilValue buffer) (host.image state) (List.range' i n) := by
  induction n generalizing i successful state with
  | zero => exact ⟨successful, state, rfl, rfl⟩
  | succ n ih =>
    have hi : i < buffer.length := by omega
    have hret := hhost.setBit_ret (coilData action i buffer[i]) state
    have himg := hhost.setBit_image (coilData action i buffer[i]) state
    rw [bitPosition_coilData hhost] at himg
    obtain ⟨successful', state', hrest, hstate'⟩ := ih (i + 1)
      (host.piControlSetBitValue (coilData action i buffer[i]) state).1
      (host.piControlSetBitValue (coilData action i buffer[i]) state).2 (by omega)
    refine ⟨successful', state', ?_, ?_⟩
    · unfold storeCoils
      rw [List.getElem?_eq_getElem hi]
      simp only [not_lt.mpr hret, if_false]
      exact hrest
    · rw [hstate', himg, List.range'_succ, setBits_cons]
      simp [coilValue, coilData, hi]

/-- The byte that stands for a bit of the image. -/
def bitByte (img : Image) (k : ℕ) : UInt8 := if bit img k then 1 else 0

/-- The write loop copies the addressed bits into the buffer and leaves the image alone. -/
theorem fetchCoils_eq (hhost : host.Succeeds) (action : TModbusAction) (n i : ℕ)
    (successful : ℤ) (buffer : List UInt8) (state : σ) (hlen : i + n ≤ buffer.length)
    (hsucc : 0 ≤ successful) :
    ∃ successful' state',
      fetchCoils host action n i successful buffer state = .ok (successful',
        buffer.take i ++ (List.range' i n).map
          (fun j => bitByte (host.image state) (coilPosition action j)) ++ buffer.drop (i + n),
        state') ∧
      0 ≤ successful' ∧ host.image state' = host.image state := by
  induction n generalizing i successful buffer state with
  | zero => exact ⟨successful, state, by simp [fetchCoils], hsucc, rfl⟩
  | succ n ih =>
    have hi : i < buffer.length := by omega
    have hret := hhost.getBit_ret (coilData action i 0) state
    have hval := hhost.getBit_eq (coilData action i 0) state
    have himg := hhost.getBit_image (coilData action i 0) state
    rw [bitPosition_coilData hhost] at hval
    obtain ⟨successful', state', hrest, hsucc', hstate'⟩ := ih (i + 1)
      (host.piControlGetBitValue (coilData action i 0) state).1.1
      (buffer.set i (host.piControlGetBitValue (coilData action i 0) state).1.2)
      (host.piControlGetBitValue (coilData action i 0) state).2
      (by rw [List.length_set]; omega) hret
    refine ⟨successful', state', ?_, hsucc', hstate'.trans himg⟩
    unfold fetchCoils
    simp only [not_lt.mpr hret, if_false, if_pos hi]
    rw [hrest, hval, himg, List.range'_succ]
    congr 3
    have hdrop : (buffer.set i (bitByte (host.image state) (coilPosition action i))).drop
        (i + 1 + n) = buffer.drop (i + (n + 1)) := by
      rw [List.drop_set_of_lt (by omega)]
      congr 1
      omega
    have htake : (buffer.set i (bitByte (host.image state) (coilPosition action i))).take (i + 1) =
        buffer.take i ++ [bitByte (host.image state) (coilPosition action i)] := by
      rw [List.take_set, List.take_succ_eq_append_getElem hi, List.set_append_right _ _ (by simp)]
      simp [Nat.min_eq_left hi.le]
    show (buffer.set i (bitByte (host.image state) (coilPosition action i))).take (i + 1) ++ _ ++
      (buffer.set i (bitByte (host.image state) (coilPosition action i))).drop (i + 1 + n) = _
    rw [hdrop, htake]
    simp

/-! ## The actions on coils -/

/-- The functions that read coils or discrete inputs. -/
def EModbusFunction.ReadsCoils (f : EModbusFunction) : Prop :=
  f = .readCoils ∨ f = .readDiscreteInputs

/-- The functions that write coils. -/
def EModbusFunction.WritesCoils (f : EModbusFunction) : Prop :=
  f = .writeSingleCoil ∨ f = .writeMultipleCoils

theorem EModbusFunction.ReadsCoils.not_writesCoils {f : EModbusFunction} (h : f.ReadsCoils) :
    ¬ f.WritesCoils := by
  obtain rfl | rfl := h <;> rintro (hf | hf) <;> cases hf

/-- The coils that a request transmits: as many of the data as it is told. -/
def ModbusCall.coils : ModbusCall → List UInt8
  | .writeBit _ status => [status]
  | .writeBits _ nb data => data.take nb
  | _ => []

variable {action : TModbusAction} {buffer : List UInt8} {state : σ}

/-- After the `switch` only the status byte may be written, and only after a failed request. -/
theorem processModbusAction_of_switch {t : Transaction σ}
    (h : switchFunctionCode host action (.start buffer state) = .ok t) :
    ∃ out, processModbusAction host action buffer state = .ok out ∧ out.request = t.request ∧
      (0 ≤ t.len → out = t) := by
  unfold processModbusAction
  rw [h, ok_bind]
  by_cases hlen : t.len < 0
  · rw [if_pos hlen]
    exact ⟨_, rfl, rfl, fun hle => absurd hlen (not_lt.mpr hle)⟩
  · rw [if_neg hlen]
    exact ⟨t, rfl, rfl, fun _ => rfl⟩

/-- The branch of the functions that read coils. -/
theorem readBitsCase_eq (hhost : host.Succeeds) {call : ModbusCall} {t : Transaction σ}
    (hsize : call.itemSize = 1) (hcap : call.capacity = action.i16uRegisterCount.toNat)
    (hn : action.i16uRegisterCount.toNat ≤ t.buffer.length)
    (hmax : action.i16uRegisterCount.toNat ≤ modbusMaxReadBits) :
    ∃ out, readBitsCase host action call t = .ok out ∧ out.request = some call ∧
      out.len = (host.modbus call t.state).1.len ∧
      (action.i16uRegisterCount.toNat ≤ (host.modbus call t.state).1.len →
        host.image out.state = setBits (coilPosition action)
          (coilValue (host.modbus call t.state).1.data) (host.image t.state)
          (List.range' 0 action.i16uRegisterCount.toNat)) := by
  have hdata := hhost.modbus_data call t.state
  rw [hsize, one_mul, hcap] at hdata
  unfold readBitsCase
  simp only [cAssert_of hmax, ok_bind, except_pure,
    receiveModbus_eq hhost.toConforms (hcap.trans_le hn)]
  by_cases hlen : (host.modbus call t.state).1.len < action.i16uRegisterCount.toNat
  · simp only [hlen, if_true]
    exact ⟨_, rfl, rfl, rfl, fun h => absurd hlen (not_lt.mpr h)⟩
  · simp only [hlen, if_false]
    obtain ⟨successful, state', hstore, himg⟩ := storeCoils_eq hhost action
      ((host.modbus call t.state).1.data ++ t.buffer.drop (host.modbus call t.state).1.data.length)
      action.i16uRegisterCount.toNat 0 t.successful (host.modbus call t.state).2
      (by rw [List.length_append, List.length_drop]; omega)
    rw [hstore, ok_bind]
    refine ⟨_, rfl, rfl, rfl, fun _ => himg.trans ?_⟩
    rw [hhost.modbus_image]
    refine setBits_congr fun i hi => ?_
    have hlt : i < (host.modbus call t.state).1.data.length := by
      rw [List.mem_range'_1] at hi
      omega
    unfold coilValue
    rw [List.getElem?_append_left hlt]

/-- A function that reads coils sends one request and, when it delivers enough coils, sets the
addressed bits to their values. -/
theorem processModbusAction_readsCoils (hhost : host.Succeeds) (state : σ)
    (hfc : action.eFunctionCode.ReadsCoils) (hn : action.i16uRegisterCount.toNat ≤ buffer.length)
    (hmax : action.i16uRegisterCount.toNat ≤ modbusMaxReadBits) :
    ∃ out call, processModbusAction host action buffer state = .ok out ∧
      out.request = some call ∧ call.itemSize = 1 ∧
      call.capacity = action.i16uRegisterCount.toNat ∧
      (action.i16uRegisterCount.toNat ≤ (host.modbus call state).1.len →
        host.image out.state = setBits (coilPosition action)
          (coilValue (host.modbus call state).1.data) (host.image state)
          (List.range' 0 action.i16uRegisterCount.toNat)) := by
  have hcall : ∃ call, call.itemSize = 1 ∧ call.capacity = action.i16uRegisterCount.toNat ∧
      ∀ t : Transaction σ,
        switchFunctionCode host action t = readBitsCase host action call t := by
    obtain hread | hread := hfc
    · refine ⟨.readBits action.modbusAddress action.i16uRegisterCount.toNat, rfl,
        rfl, fun t => ?_⟩
      simp only [switchFunctionCode, hread]
    · refine ⟨.readInputBits action.modbusAddress action.i16uRegisterCount.toNat, rfl,
        rfl, fun t => ?_⟩
      simp only [switchFunctionCode, hread]
  obtain ⟨call, hsize, hcap, hswitch⟩ := hcall
  obtain ⟨t, hcase, hrequest, hlen, himg⟩ :=
    readBitsCase_eq (t := .start buffer state) hhost hsize hcap hn hmax
  obtain ⟨out, hout, houtRequest, houtEq⟩ :=
    processModbusAction_of_switch ((hswitch _).trans hcase)
  refine ⟨out, call, hout, houtRequest.trans hrequest, hsize, hcap, fun hle => ?_⟩
  rw [houtEq (hlen ▸ (Int.natCast_nonneg _).trans hle)]
  exact himg hle

/-- A function that writes coils transmits the addressed bits. -/
theorem processModbusAction_writesCoils (hhost : host.Succeeds) (state : σ)
    (hfc : action.eFunctionCode.WritesCoils)
    (hsingle : action.eFunctionCode = .writeSingleCoil → action.i16uRegisterCount.toNat = 1)
    (hn : action.i16uRegisterCount.toNat ≤ buffer.length)
    (hmax : action.i16uRegisterCount.toNat ≤ modbusMaxWriteBits) :
    ∃ out call, processModbusAction host action buffer state = .ok out ∧
      out.request = some call ∧
      call.coils = (List.range action.i16uRegisterCount.toNat).map
        fun i => bitByte (host.image state) (coilPosition action i) := by
  obtain ⟨successful, state', hfetch, hsucc, -⟩ := fetchCoils_eq hhost action
    action.i16uRegisterCount.toNat 0 0 buffer state (by omega) le_rfl
  rw [List.take_zero, List.nil_append, zero_add, ← List.range_eq_range'] at hfetch
  obtain hwrite | hwrite := hfc
  · have hone := hsingle hwrite
    have hcase : ∃ t call,
        switchFunctionCode host action (.start buffer state) = .ok t ∧ t.request = some call ∧
        call.coils = (List.range action.i16uRegisterCount.toNat).map
          fun i => bitByte (host.image state) (coilPosition action i) := by
      unfold switchFunctionCode writeSingleCoilCase
      simp only [hwrite, Transaction.start, cAssert_of hone, ok_bind, hfetch]
      rw [if_pos (ge_iff_le.mpr hsucc), hone]
      exact ⟨_, _, rfl, rfl, rfl⟩
    obtain ⟨t, call, hswitch, hrequest, hcoils⟩ := hcase
    obtain ⟨out, hout, houtRequest, -⟩ := processModbusAction_of_switch hswitch
    exact ⟨out, call, hout, houtRequest.trans hrequest, hcoils⟩
  · have hcase : ∃ t call,
        switchFunctionCode host action (.start buffer state) = .ok t ∧ t.request = some call ∧
        call.coils = (List.range action.i16uRegisterCount.toNat).map
          fun i => bitByte (host.image state) (coilPosition action i) := by
      unfold switchFunctionCode writeMultipleCoilsCase bufferFront
      simp only [hwrite, Transaction.start, cAssert_of hmax, ok_bind, hfetch]
      rw [if_pos (ge_iff_le.mpr hsucc), if_pos (by simp)]
      refine ⟨_, _, rfl, rfl, ?_⟩
      simp [ModbusCall.coils]
    obtain ⟨t, call, hswitch, hrequest, hcoils⟩ := hcase
    obtain ⟨out, hout, houtRequest, -⟩ := processModbusAction_of_switch hswitch
    exact ⟨out, call, hout, houtRequest.trans hrequest, hcoils⟩

/-! ## The placement -/

/-- A read that has delivered all coils has set the bit of each coil to its value, and has changed
no other bit. -/
def StoresCoils (host : Host σ) (action : TModbusAction) (state : σ) (out : Transaction σ) : Prop :=
  ∃ call, out.request = some call ∧
    (action.i16uRegisterCount.toNat ≤ (host.modbus call state).1.len →
      (∀ i < action.i16uRegisterCount.toNat, bit (host.image out.state) (coilBit action i) =
        coilValue (host.modbus call state).1.data i) ∧
      ∀ k, (∀ i < action.i16uRegisterCount.toNat, k ≠ coilBit action i) →
        bit (host.image out.state) k = bit (host.image state) k)

/-- A write transmits the bit of each coil. -/
def TransmitsCoils (host : Host σ) (action : TModbusAction) (state : σ) (out : Transaction σ) :
    Prop :=
  ∃ call, out.request = some call ∧
    call.coils = (List.range action.i16uRegisterCount.toNat).map
      fun i => bitByte (host.image state) (coilBit action i)

/-- The execution of an action on coils places every coil in its bit, whatever the process image
and the answer of the device are. -/
def PlacesCoils (action : TModbusAction) : Prop :=
  ∀ {σ : Type} (host : Host σ), host.Succeeds → ∀ (buffer : List UInt8) (state : σ),
    buffer.length = maxRegisterSizePerAction →
    ∃ out, processModbusAction host action buffer state = .ok out ∧
      (action.eFunctionCode.ReadsCoils → StoresCoils host action state out) ∧
      (action.eFunctionCode.WritesCoils → TransmitsCoils host action state out)

theorem coilBit_injective (action : TModbusAction) {i j : ℕ}
    (h : coilBit action i = coilBit action j) : i = j := by
  unfold coilBit at h
  omega

/-- Byte and bit stay in step for all coils exactly when the coils do not leave the byte in which
they start, or start at bit 0, and the last byte has a 16 bit address. -/
theorem coilPosition_eq_coilBit_iff {n : ℕ} (hs : action.i8uStartBitProcessData < 8) (hn : 1 ≤ n) :
    (∀ i < n, coilPosition action i = coilBit action i) ↔
      action.i8uStartBitProcessData.toNat + min n 8 ≤ 8 ∧
        action.i32uStartByteProcessData.toNat + (n - 1) / 8 < 2 ^ 16 := by
  rw [UInt8.lt_iff_toNat_lt, show (8 : UInt8).toNat = 8 from rfl] at hs
  unfold coilPosition coilBit
  constructor
  · intro h
    have hlast := h (n - 1) (by omega)
    have hbyte := h (min n 8 - 1) (by omega)
    omega
  · rintro ⟨hbits, hbytes⟩ i hi
    omega

/-- A reply with as many items as asked for, in which only the coil number `i` is set. -/
def oneCoilReply (n i : ℕ) (call : ModbusCall) : ModbusReply where
  len := n
  errno := 0
  data := (List.range (min (call.itemSize * n) call.capacity)).map
    fun j => if j = i then 1 else 0

theorem oneCoilHost_succeeds (n i : ℕ) : (imageHost (oneCoilReply n i)).Succeeds :=
  imageHost_succeeds fun call => by simp [oneCoilReply]

theorem coilValue_oneCoilReply {call : ModbusCall} {n i j : ℕ} (hsize : call.itemSize = 1)
    (hcap : call.capacity = n) (hj : j < n) :
    coilValue (oneCoilReply n i call).data j = decide (j = i) := by
  have hlen : j < min (call.itemSize * n) call.capacity := by
    rw [hsize, hcap, one_mul, min_self]
    exact hj
  unfold coilValue oneCoilReply
  rw [List.getElem?_map, List.getElem?_range hlen]
  by_cases h : j = i <;> simp [h]

/-- On the request for one coil only, an empty image shows where the coil is stored. -/
theorem coilPosition_of_storesCoils {i : ℕ} (hfc : action.eFunctionCode.ReadsCoils)
    (hmax : action.i16uRegisterCount.toNat ≤ maxRegisterSizePerAction)
    (h : PlacesCoils action) (hi : i < action.i16uRegisterCount.toNat) :
    coilPosition action i = coilBit action i := by
  have hhost := oneCoilHost_succeeds action.i16uRegisterCount.toNat i
  have hbuffer : (List.replicate maxRegisterSizePerAction (0 : UInt8)).length =
    maxRegisterSizePerAction := List.length_replicate
  obtain ⟨out, call, hout, hrequest, hsize, hcap, himg⟩ :=
    processModbusAction_readsCoils hhost (fun _ => 0) hfc (hmax.trans_eq hbuffer.symm)
      (hmax.trans (by decide))
  obtain ⟨out', hout', hstores, -⟩ := h _ hhost _ (fun _ => 0) hbuffer
  obtain rfl : out = out' := Except.ok.inj (hout.symm.trans hout')
  obtain ⟨call', hrequest', hplaced⟩ := hstores hfc
  obtain rfl : call = call' := Option.some.inj (hrequest.symm.trans hrequest')
  have hset : bit out.state (coilBit action i) = true := by
    refine ((hplaced le_rfl).1 i hi).trans ?_
    exact (coilValue_oneCoilReply hsize hcap hi).trans (decide_eq_true rfl)
  have himg' := himg le_rfl
  change out.state = _ at himg'
  rw [himg'] at hset
  obtain hzero | ⟨j, hj, hpos, hval⟩ := bit_setBits_cases hset
  · exact absurd ((bit_zero _).symm.trans hzero) Bool.false_ne_true
  · have hlt : j < action.i16uRegisterCount.toNat := by
      rw [List.mem_range'_1] at hj
      omega
    have hji : j = i :=
      of_decide_eq_true ((coilValue_oneCoilReply hsize hcap hlt).symm.trans hval)
    exact hji ▸ hpos.symm

/-- An image with a single bit shows from where a coil is fetched. -/
theorem coilPosition_of_transmitsCoils {i : ℕ} (hfc : action.eFunctionCode.WritesCoils)
    (hsingle : action.eFunctionCode = .writeSingleCoil → action.i16uRegisterCount.toNat = 1)
    (hmax : action.i16uRegisterCount.toNat ≤ maxRegisterSizePerAction)
    (h : PlacesCoils action) (hi : i < action.i16uRegisterCount.toNat) :
    coilPosition action i = coilBit action i := by
  have hhost := oneCoilHost_succeeds 0 0
  have hbuffer : (List.replicate maxRegisterSizePerAction (0 : UInt8)).length =
    maxRegisterSizePerAction := List.length_replicate
  obtain ⟨out, call, hout, hrequest, hcoils⟩ :=
    processModbusAction_writesCoils hhost (oneHot (coilBit action i)) hfc hsingle
      (hmax.trans_eq hbuffer.symm) (hmax.trans (by decide))
  obtain ⟨out', hout', -, htransmits⟩ := h _ hhost _ (oneHot (coilBit action i)) hbuffer
  obtain rfl : out = out' := Except.ok.inj (hout.symm.trans hout')
  obtain ⟨call', hrequest', hplaced⟩ := htransmits hfc
  obtain rfl : call = call' := Option.some.inj (hrequest.symm.trans hrequest')
  have hbit := List.map_inj_left.mp (hcoils.symm.trans hplaced) i (List.mem_range.mpr hi)
  unfold bitByte imageHost at hbit
  by_contra hne
  simp [hne] at hbit

/-- A single coil action with another count than 1 stops at the assertion. -/
theorem processModbusAction_writeSingleCoil_of_ne
    (hfc : action.eFunctionCode = .writeSingleCoil) (hn : action.i16uRegisterCount.toNat ≠ 1) :
    processModbusAction host action buffer state = .error .assertFailed := by
  unfold processModbusAction switchFunctionCode writeSingleCoilCase cAssert
  simp [hfc, hn]

/-- **The actions whose coils are in place.** An action on coils moves every coil from or to its
bit of the process image exactly when all its coils lie in the byte in which they start, or it
starts at bit 0; and, for a single coil, when the count is 1; and when the last byte has a 16 bit
address. -/
theorem placesCoils_iff
    (hfc : action.eFunctionCode.ReadsCoils ∨ action.eFunctionCode.WritesCoils)
    (hs : action.i8uStartBitProcessData < 8) (hn : 1 ≤ action.i16uRegisterCount.toNat)
    (hmax : action.i16uRegisterCount.toNat ≤ maxRegisterSizePerAction) :
    PlacesCoils action ↔
      action.i8uStartBitProcessData.toNat + min action.i16uRegisterCount.toNat 8 ≤ 8 ∧
      action.i32uStartByteProcessData.toNat + (action.i16uRegisterCount.toNat - 1) / 8 < 2 ^ 16 ∧
      (action.eFunctionCode = .writeSingleCoil → action.i16uRegisterCount.toNat = 1) := by
  rw [← and_assoc, ← coilPosition_eq_coilBit_iff hs hn]
  constructor
  · intro h
    have hsingle : action.eFunctionCode = .writeSingleCoil →
        action.i16uRegisterCount.toNat = 1 := by
      intro hwrite
      by_contra hne
      obtain ⟨out, hout, -⟩ := h _ (oneCoilHost_succeeds 0 0)
        (List.replicate maxRegisterSizePerAction 0) (fun _ => 0) List.length_replicate
      rw [processModbusAction_writeSingleCoil_of_ne hwrite hne] at hout
      cases hout
    refine ⟨fun i hi => ?_, hsingle⟩
    obtain hread | hwrite := hfc
    · exact coilPosition_of_storesCoils hread hmax h hi
    · exact coilPosition_of_transmitsCoils hwrite hsingle hmax h hi
  · rintro ⟨hpos, hsingle⟩ σ host hhost buffer state hbuffer
    have hfit : action.i16uRegisterCount.toNat ≤ buffer.length := hmax.trans_eq hbuffer.symm
    obtain hread | hwrite := hfc
    · obtain ⟨out, call, hout, hrequest, -, -, himg⟩ :=
        processModbusAction_readsCoils hhost state hread hfit (hmax.trans (by decide))
      have hmem : ∀ i, i ∈ List.range' 0 action.i16uRegisterCount.toNat →
          coilPosition action i = coilBit action i := by
        intro i hi
        rw [List.mem_range'_1] at hi
        exact hpos i (by omega)
      refine ⟨out, hout, fun _ => ⟨call, hrequest, fun hle => ⟨fun i hi => ?_, fun k hk => ?_⟩⟩,
        fun hwrite => ?_⟩
      · rw [himg hle, ← hpos i hi]
        refine bit_setBits_of_mem List.nodup_range' (fun a ha b hb hab => ?_) ?_
        · rw [hmem a ha, hmem b hb] at hab
          exact coilBit_injective action hab
        · rw [List.mem_range'_1]
          omega
      · rw [himg hle]
        refine bit_setBits_of_notMem fun i hi => ?_
        rw [hmem i hi]
        rw [List.mem_range'_1] at hi
        exact hk i (by omega)
      · exact absurd hwrite hread.not_writesCoils
    · obtain ⟨out, call, hout, hrequest, hcoils⟩ :=
        processModbusAction_writesCoils hhost state hwrite hsingle hfit
          (hmax.trans (by decide))
      refine ⟨out, hout, fun hread => ?_, fun _ => ⟨call, hrequest, hcoils.trans ?_⟩⟩
      · exact absurd hwrite hread.not_writesCoils
      · refine List.map_congr_left fun i hi => ?_
        rw [hpos i (List.mem_range.mp hi)]

/-- Eight coils that are read into the bits from bit 4 of byte 0 on. -/
def midByteAction : TModbusAction where
  i16uActionID := 1
  i8uSlaveAddress := 1
  eFunctionCode := .readCoils
  i32uStartRegister := 1
  i16uRegisterCount := 8
  i32uIntervalUs := 1000000
  i32uStartByteProcessData := 0
  i8uStartBitProcessData := 4
  i32uStatusByteProcessImageOffset := 10
  i32uResetStatusProcessImageByteOffset := 11
  i8uResetStatusProcessImageBitOffset := 0

/-- The coil number 4 goes to bit 0 of byte 0 in place of bit 0 of byte 1. -/
theorem not_placesCoils_midByte : ¬ PlacesCoils midByteAction := by
  intro h
  have hpos := coilPosition_of_storesCoils (i := 4) (Or.inl rfl) (by decide) h (by decide)
  exact absurd hpos (by decide)

theorem placesCoils_iff_aligned : PlacesCoils { midByteAction with i8uStartBitProcessData := 0 } :=
  (placesCoils_iff (Or.inl (Or.inl rfl)) (by decide) (by decide) (by decide)).mpr
    ⟨by decide, by decide, by decide⟩

end RevPiModbus
