import RevPiModbus.Coils
import RevPiModbus.PiProcessImageAccess

/-!
# What a master reads and writes back

A master writes the data that it has read with one action to the process image, and reads the data
that it sends with another from there. The branches of `processModbusAction` for the two directions
agree on where the data are: a coil may not be at the bit that one would expect, but it is at the
same bit for both, and no two coils share a bit. Registers are words in little endian order.

* `coilPosition_injective`: the coils of an action have different bits;
* `processModbusAction_readsRegisters`, `processModbusAction_writesRegisters`,
  `processModbusAction_writesRegister`: what the branches for registers do;
* `coils_roundTrip`, `registers_roundTrip`, `singleRegister_eq`, `singleCoil_eq`, and
  `processModbusAction_roundTrip`.
-/

namespace RevPiModbus

open ByteImage

variable {σ : Type} {host : Host σ} {action : TModbusAction} {buffer : List UInt8} {state : σ}

/-! ## Registers -/

/-- The functions that read registers. -/
def EModbusFunction.ReadsRegisters (f : EModbusFunction) : Prop :=
  f = .readHoldingRegisters ∨ f = .readInputRegisters

/-- The words that a request transmits, on a little endian machine: as many of the data as it is
told. libmodbus takes the lower half of an `int` for a single register. -/
def ModbusCall.words : ModbusCall → List UInt16
  | .writeRegister _ value => [UInt16.ofNat value.toNat]
  | .writeRegisters _ nb data => (bytesRegisters data).take nb
  | _ => []

/-- The branch of the functions that read registers, when all of them have been delivered. -/
theorem readRegistersCase_eq (hhost : host.Succeeds) {call : ModbusCall} {t : Transaction σ}
    (hsize : call.itemSize = 2) (hcap : call.capacity = 2 * action.i16uRegisterCount.toNat)
    (hn : 2 * action.i16uRegisterCount.toNat ≤ t.buffer.length)
    (hmax : action.i16uRegisterCount.toNat ≤ modbusMaxReadRegisters) :
    ∃ out, readRegistersCase host action call t = .ok out ∧ out.request = some call ∧
      out.len = (host.modbus call t.state).1.len ∧
      (action.i16uRegisterCount.toNat ≤ (host.modbus call t.state).1.len →
        host.image out.state = write (host.image t.state) action.i32uStartByteProcessData.toNat
          (host.modbus call t.state).1.data) := by
  have hdata := hhost.modbus_data call t.state
  rw [hsize, hcap] at hdata
  unfold readRegistersCase
  simp only [cAssert_of hmax, ok_bind, except_pure,
    receiveModbus_eq hhost.toConforms (hcap.trans_le hn)]
  by_cases hlen : (host.modbus call t.state).1.len < action.i16uRegisterCount.toNat
  · simp only [hlen, if_true]
    exact ⟨_, rfl, rfl, rfl, fun h => absurd hlen (not_lt.mpr h)⟩
  · simp only [hlen, if_false]
    have hlength : (host.modbus call t.state).1.data.length =
        2 * action.i16uRegisterCount.toNat := by omega
    have hfit : 2 * action.i16uRegisterCount.toNat ≤ ((host.modbus call t.state).1.data ++
        t.buffer.drop (host.modbus call t.state).1.data.length).length := by
      rw [List.length_append, List.length_drop]
      omega
    rw [bufferFront_of hfit, ok_bind]
    refine ⟨_, rfl, rfl, rfl, fun _ => ?_⟩
    show host.image (host.piControlWrite _ _ _).2 = _
    rw [hhost.write_image, hhost.modbus_image, ← hlength, List.take_left]

/-- A function that reads registers sends one request and, when it delivers enough registers, writes
their bytes to the process image. -/
theorem processModbusAction_readsRegisters (hhost : host.Succeeds) (state : σ)
    (hfc : action.eFunctionCode.ReadsRegisters)
    (hn : 2 * action.i16uRegisterCount.toNat ≤ buffer.length)
    (hmax : action.i16uRegisterCount.toNat ≤ modbusMaxReadRegisters) :
    ∃ out call, processModbusAction host action buffer state = .ok out ∧
      out.request = some call ∧ call.itemSize = 2 ∧
      call.capacity = 2 * action.i16uRegisterCount.toNat ∧
      (action.i16uRegisterCount.toNat ≤ (host.modbus call state).1.len →
        host.image out.state = write (host.image state) action.i32uStartByteProcessData.toNat
          (host.modbus call state).1.data) := by
  have hcall : ∃ call, call.itemSize = 2 ∧
      call.capacity = 2 * action.i16uRegisterCount.toNat ∧
      ∀ t : Transaction σ,
        switchFunctionCode host action t = readRegistersCase host action call t := by
    obtain hread | hread := hfc
    · refine ⟨.readRegisters action.modbusAddress action.i16uRegisterCount.toNat, rfl, rfl,
        fun t => ?_⟩
      simp only [switchFunctionCode, hread]
    · refine ⟨.readInputRegisters action.modbusAddress action.i16uRegisterCount.toNat, rfl, rfl,
        fun t => ?_⟩
      simp only [switchFunctionCode, hread]
  obtain ⟨call, hsize, hcap, hswitch⟩ := hcall
  obtain ⟨t, hcase, hrequest, hlen, himg⟩ :=
    readRegistersCase_eq (t := .start buffer state) hhost hsize hcap hn hmax
  obtain ⟨out, hout, houtRequest, houtEq⟩ :=
    processModbusAction_of_switch ((hswitch _).trans hcase)
  refine ⟨out, call, hout, houtRequest.trans hrequest, hsize, hcap, fun hle => ?_⟩
  rw [houtEq (hlen ▸ (Int.natCast_nonneg _).trans hle)]
  exact himg hle

/-- A read from the process image fills the front of the buffer. -/
theorem overwrite_piControlRead (hhost : host.Succeeds) (a : UInt32) {n : ℕ} (state : σ)
    (hn : n ≤ buffer.length) :
    overwrite buffer (host.piControlRead a n state).1.2 =
      .ok (read (host.image state) a.toNat n ++ buffer.drop n) := by
  rw [hhost.read_eq, overwrite_of (by rwa [read_length]), read_length]

/-- Several registers are transmitted as they are in the process image; of no registers, nothing is
transmitted. -/
theorem processModbusAction_writesRegisters (hhost : host.Succeeds) (state : σ)
    (hfc : action.eFunctionCode = .writeMultipleRegisters)
    (hn : 2 * action.i16uRegisterCount.toNat ≤ buffer.length)
    (hmax : action.i16uRegisterCount.toNat ≤ modbusMaxWriteRegisters) :
    ∃ out, processModbusAction host action buffer state = .ok out ∧
      out.request = if action.i16uRegisterCount.toNat = 0 then none else
        some (.writeRegisters action.modbusAddress action.i16uRegisterCount.toNat
          (read (host.image state) action.i32uStartByteProcessData.toNat
            (2 * action.i16uRegisterCount.toNat))) := by
  have hcase : ∃ t, switchFunctionCode host action (.start buffer state) = .ok t ∧
      t.request = if action.i16uRegisterCount.toNat = 0 then none else
        some (.writeRegisters action.modbusAddress action.i16uRegisterCount.toNat
          (read (host.image state) action.i32uStartByteProcessData.toNat
            (2 * action.i16uRegisterCount.toNat))) := by
    unfold switchFunctionCode writeMultipleRegistersCase
    simp only [hfc, Transaction.start, cAssert_of hmax, ok_bind, except_pure, hhost.read_ret,
      overwrite_piControlRead hhost _ state hn]
    by_cases hzero : action.i16uRegisterCount.toNat = 0
    · rw [if_pos (by omega), if_pos hzero]
      exact ⟨_, rfl, rfl⟩
    · rw [if_neg (by omega), if_neg hzero, bufferFront_of (by simp), ok_bind,
        List.take_left' (read_length _ _)]
      exact ⟨_, rfl, rfl⟩
  obtain ⟨t, hswitch, hrequest⟩ := hcase
  obtain ⟨out, hout, houtRequest, -⟩ := processModbusAction_of_switch hswitch
  exact ⟨out, hout, houtRequest.trans hrequest⟩

/-- A single register is transmitted as the word at its place. -/
theorem processModbusAction_writesRegister (hhost : host.Succeeds) (state : σ)
    (hfc : action.eFunctionCode = .writeSingleRegister)
    (hone : action.i16uRegisterCount.toNat = 1) (hbuffer : 2 ≤ buffer.length) :
    ∃ out, processModbusAction host action buffer state = .ok out ∧
      out.request = some (.writeRegister action.modbusAddress
        ((host.image state action.i32uStartByteProcessData.toNat).toNat +
          (host.image state (action.i32uStartByteProcessData.toNat + 1)).toNat * 2 ^ 8)) := by
  have hcase : ∃ t, switchFunctionCode host action (.start buffer state) = .ok t ∧
      t.request = some (.writeRegister action.modbusAddress
        ((host.image state action.i32uStartByteProcessData.toNat).toNat +
          (host.image state (action.i32uStartByteProcessData.toNat + 1)).toNat * 2 ^ 8)) := by
    unfold switchFunctionCode writeSingleRegisterCase
    simp only [hfc, Transaction.start, hone, cAssert, if_true, ok_bind, except_pure,
      hhost.read_ret, overwrite_piControlRead hhost _ state hbuffer]
    rw [if_neg (by decide)]
    exact ⟨_, rfl, rfl⟩
  obtain ⟨t, hswitch, hrequest⟩ := hcase
  obtain ⟨out, hout, houtRequest, -⟩ := processModbusAction_of_switch hswitch
  exact ⟨out, hout, houtRequest.trans hrequest⟩

/-- The first words of a table are those of its first bytes. -/
theorem bytesRegisters_take (data : List UInt8) (m : ℕ) :
    bytesRegisters (data.take (2 * m)) = (bytesRegisters data).take m := by
  induction m generalizing data with
  | zero => simp [bytesRegisters]
  | succ m ih =>
    rcases data with _ | ⟨low, _ | ⟨high, data⟩⟩
    · simp [bytesRegisters]
    · simp [bytesRegisters, Nat.mul_succ]
    · show bytesRegisters (low :: high :: data.take (2 * m)) = _
      simp only [bytesRegisters, List.take_succ_cons, ih]

/-- The two ways to put a word together from its bytes. -/
theorem ofNat_bytes (low high : UInt8) :
    UInt16.ofNat (low.toNat + high.toNat * 2 ^ 8) = low.toUInt16 ||| (high.toUInt16 <<< 8) := by
  have hlow : low.toNat < 2 ^ 8 := low.toNat_lt
  have hhigh : high.toNat < 2 ^ 8 := high.toNat_lt
  apply UInt16.toNat_inj.mp
  rw [UInt16.toNat_or, UInt16.toNat_shiftLeft, UInt8.toNat_toUInt16, UInt8.toNat_toUInt16,
    UInt16.toNat_ofNat']
  show _ = low.toNat ||| (high.toNat <<< 8) % 2 ^ 16
  have hshift : high.toNat <<< 8 < 2 ^ 16 := by
    rw [Nat.shiftLeft_eq]
    omega
  rw [Nat.mod_eq_of_lt hshift, Nat.or_comm, ← Nat.shiftLeft_add_eq_or_of_lt hlow, Nat.shiftLeft_eq]
  omega

/-! ## Coils -/

/-- No two coils of a buffer share a bit, wherever the action starts. -/
theorem coilPosition_injective (action : TModbusAction) {i j : ℕ}
    (hi : i < maxRegisterSizePerAction) (hj : j < maxRegisterSizePerAction)
    (h : coilPosition action i = coilPosition action j) : i = j := by
  unfold maxRegisterSizePerAction at hi hj
  unfold coilPosition at h
  omega

/-- The place of an action in the process image. -/
def SamePlace (a b : TModbusAction) : Prop :=
  a.i32uStartByteProcessData = b.i32uStartByteProcessData ∧
    a.i8uStartBitProcessData = b.i8uStartBitProcessData

theorem SamePlace.coilPosition_eq {a b : TModbusAction} (h : SamePlace a b) (i : ℕ) :
    coilPosition a i = coilPosition b i := by
  unfold coilPosition
  rw [h.1, h.2]

/-- The byte of a bit that has been set to the value of a coil. -/
theorem bitByte_eq_of_bit {img : Image} {k i : ℕ} {data : List UInt8} (hi : i < data.length)
    (hvalue : data[i] = 0 ∨ data[i] = 1) (h : bit img k = coilValue data i) :
    bitByte img k = data[i] := by
  unfold bitByte
  rw [h, coilValue, List.getElem?_eq_getElem hi, Option.getD_some]
  rcases hvalue with hzero | hone
  · rw [hzero]
    rfl
  · rw [hone]
    rfl

section

/-- When the first action receives all its coils, and these are 0 or 1, the second one transmits
them as they were received. -/
def CoilsRoundTrip (host : Host σ) (a b : TModbusAction) (buffer buffer' : List UInt8) (state : σ) :
    Prop :=
  ∃ out call, processModbusAction host a buffer state = .ok out ∧ out.request = some call ∧
    (a.i16uRegisterCount.toNat ≤ (host.modbus call state).1.len →
      (∀ v ∈ (host.modbus call state).1.data, v = 0 ∨ v = 1) →
      ∃ out' call', processModbusAction host b buffer' out.state = .ok out' ∧
        out'.request = some call' ∧ call'.coils = (host.modbus call state).1.data)

/-- When the first action receives all its registers, the second one transmits as many of them as
it has, as they were received. -/
def RegistersRoundTrip (host : Host σ) (a b : TModbusAction) (buffer buffer' : List UInt8)
    (state : σ) : Prop :=
  ∃ out call, processModbusAction host a buffer state = .ok out ∧ out.request = some call ∧
    (a.i16uRegisterCount.toNat ≤ (host.modbus call state).1.len →
      ∃ out', processModbusAction host b buffer' out.state = .ok out' ∧
        (out'.request.map ModbusCall.words).getD [] =
          (bytesRegisters (host.modbus call state).1.data).take b.i16uRegisterCount.toNat ∧
        (1 ≤ b.i16uRegisterCount.toNat → out'.request.isSome))

/-- From the same process image, both actions transmit one item, and it is the same. -/
def TransmitSameItem {ι : Type} (items : ModbusCall → List ι) (host : Host σ) (a b : TModbusAction)
    (buffer buffer' : List UInt8) (state : σ) : Prop :=
  ∃ out out' call call', processModbusAction host a buffer state = .ok out ∧
    processModbusAction host b buffer' state = .ok out' ∧ out.request = some call ∧
    out'.request = some call' ∧ items call = items call' ∧ (items call).length = 1

variable {a b : TModbusAction} {buffer buffer' : List UInt8}

/-- Coils that have been read are written back as they were received. -/
theorem coils_roundTrip (hhost : host.Succeeds) (hread : a.eFunctionCode.ReadsCoils)
    (hwrite : b.eFunctionCode = .writeMultipleCoils) (hplace : SamePlace a b)
    (hcount : a.i16uRegisterCount = b.i16uRegisterCount)
    (hmax : a.i16uRegisterCount.toNat ≤ maxRegisterSizePerAction)
    (hbuffer : buffer.length = maxRegisterSizePerAction)
    (hbuffer' : buffer'.length = maxRegisterSizePerAction) (state : σ) :
    CoilsRoundTrip host a b buffer buffer' state := by
  obtain ⟨out, call, hout, hrequest, hsize, hcap, himg⟩ := processModbusAction_readsCoils hhost
    state hread (hmax.trans_eq hbuffer.symm) (hmax.trans (by decide))
  refine ⟨out, call, hout, hrequest, fun hlen hbits => ?_⟩
  have hmax' : b.i16uRegisterCount.toNat ≤ maxRegisterSizePerAction := hcount ▸ hmax
  obtain ⟨out', call', hout', hrequest', hcoils⟩ := processModbusAction_writesCoils hhost out.state
    (.inr hwrite) (fun hsingle => by rw [hwrite] at hsingle; cases hsingle)
    (hmax'.trans_eq hbuffer'.symm) (hmax'.trans (by decide))
  refine ⟨out', call', hout', hrequest', hcoils.trans ?_⟩
  have hdata := hhost.modbus_data call state
  rw [hsize, one_mul, hcap] at hdata
  have hlength : (host.modbus call state).1.data.length = b.i16uRegisterCount.toNat := by
    rw [← hcount]
    omega
  refine List.ext_getElem (by simp [hlength]) fun i hi hi' => ?_
  rw [List.getElem_map, List.getElem_range]
  apply bitByte_eq_of_bit hi' (hbits _ (List.getElem_mem hi'))
  rw [himg hlen, ← hplace.coilPosition_eq i]
  -- the loop over the coils sets the bit of each of them once
  refine bit_setBits_of_mem List.nodup_range' (fun x hx y hy hxy => ?_) ?_
  · rw [List.mem_range'_1] at hx hy
    exact coilPosition_injective a (by omega) (by omega) hxy
  · rw [List.mem_range'_1, hcount]
    omega

/-- Registers that have been read are written back as they were received. -/
theorem registers_roundTrip (hhost : host.Succeeds) (hread : a.eFunctionCode.ReadsRegisters)
    (hwrite : b.eFunctionCode = .writeMultipleRegisters)
    (hbyte : a.i32uStartByteProcessData = b.i32uStartByteProcessData)
    (hmax : a.i16uRegisterCount.toNat ≤ modbusMaxReadRegisters)
    (hle : b.i16uRegisterCount.toNat ≤ min a.i16uRegisterCount.toNat modbusMaxWriteRegisters)
    (hbuffer : buffer.length = maxRegisterSizePerAction)
    (hbuffer' : buffer'.length = maxRegisterSizePerAction) (state : σ) :
    RegistersRoundTrip host a b buffer buffer' state := by
  have hfit : 2 * a.i16uRegisterCount.toNat ≤ maxRegisterSizePerAction := by
    unfold modbusMaxReadRegisters at hmax
    unfold maxRegisterSizePerAction
    omega
  obtain ⟨out, call, hout, hrequest, hsize, hcap, himg⟩ :=
    processModbusAction_readsRegisters hhost state hread (hfit.trans_eq hbuffer.symm) hmax
  refine ⟨out, call, hout, hrequest, fun hlen => ?_⟩
  have hfit' : 2 * b.i16uRegisterCount.toNat ≤ buffer'.length := by omega
  obtain ⟨out', hout', hrequest'⟩ := processModbusAction_writesRegisters hhost
    out.state hwrite hfit' (hle.trans (min_le_right _ _))
  have hdata := hhost.modbus_data call state
  rw [hsize, hcap] at hdata
  have hlength : (host.modbus call state).1.data.length = 2 * a.i16uRegisterCount.toNat := by omega
  have hsent : read (host.image out.state) b.i32uStartByteProcessData.toNat
      (2 * b.i16uRegisterCount.toNat) =
        (host.modbus call state).1.data.take (2 * b.i16uRegisterCount.toNat) := by
    rw [himg hlen, ← hbyte,
      ← take_read _ (n := (host.modbus call state).1.data.length) (by omega), read_write]
  -- a read of no bytes counts as a failure, and then nothing is sent
  refine ⟨out', hout', ?_, fun hpos => ?_⟩
  · rw [hrequest', hsent]
    by_cases hzero : b.i16uRegisterCount.toNat = 0
    · simp [hzero]
    · rw [if_neg hzero]
      show (bytesRegisters _).take _ = _
      rw [bytesRegisters_take, List.take_take, min_self]
  · rw [hrequest', if_neg (by omega)]
    rfl

/-- A single register is transmitted like one of several. -/
theorem singleRegister_eq (hhost : host.Succeeds) (hsingle : a.eFunctionCode = .writeSingleRegister)
    (hmultiple : b.eFunctionCode = .writeMultipleRegisters)
    (hbyte : a.i32uStartByteProcessData = b.i32uStartByteProcessData)
    (hone : a.i16uRegisterCount = 1) (hone' : b.i16uRegisterCount = 1)
    (hbuffer : buffer.length = maxRegisterSizePerAction)
    (hbuffer' : buffer'.length = maxRegisterSizePerAction) (state : σ) :
    TransmitSameItem ModbusCall.words host a b buffer buffer' state := by
  have hcount : a.i16uRegisterCount.toNat = 1 := by rw [hone]; rfl
  have hcount' : b.i16uRegisterCount.toNat = 1 := by rw [hone']; rfl
  obtain ⟨out, hout, hrequest⟩ := processModbusAction_writesRegister hhost state hsingle hcount
    (by rw [hbuffer]; decide)
  have hfit' : 2 * b.i16uRegisterCount.toNat ≤ buffer'.length := by
    rw [hbuffer', hcount']
    decide
  obtain ⟨out', hout', hrequest'⟩ := processModbusAction_writesRegisters hhost
    state hmultiple hfit' (by rw [hcount']; decide)
  rw [hcount', if_neg Nat.one_ne_zero, ← hbyte] at hrequest'
  refine ⟨out, out', _, _, hout, hout', hrequest, hrequest', ?_, rfl⟩
  -- the branch for one register adds its bytes, and the other one copies the word
  exact congrArg (fun word => [word]) (ofNat_bytes _ _)

/-- A single coil is transmitted like one of several. -/
theorem singleCoil_eq (hhost : host.Succeeds) (hsingle : a.eFunctionCode = .writeSingleCoil)
    (hmultiple : b.eFunctionCode = .writeMultipleCoils) (hplace : SamePlace a b)
    (hone : a.i16uRegisterCount = 1) (hone' : b.i16uRegisterCount = 1)
    (hbuffer : buffer.length = maxRegisterSizePerAction)
    (hbuffer' : buffer'.length = maxRegisterSizePerAction) (state : σ) :
    TransmitSameItem ModbusCall.coils host a b buffer buffer' state := by
  have hcount : a.i16uRegisterCount.toNat = 1 := by rw [hone]; rfl
  have hcount' : b.i16uRegisterCount.toNat = 1 := by rw [hone']; rfl
  obtain ⟨out, call, hout, hrequest, hcoils⟩ := processModbusAction_writesCoils hhost state
    (.inl hsingle) (fun _ => hcount) (by rw [hbuffer, hcount]; decide) (by rw [hcount]; decide)
  obtain ⟨out', call', hout', hrequest', hcoils'⟩ := processModbusAction_writesCoils hhost state
    (.inr hmultiple) (fun _ => hcount') (by rw [hbuffer', hcount']; decide)
    (by rw [hcount']; decide)
  refine ⟨out, out', call, call', hout, hout', hrequest, hrequest', ?_, by simp [hcoils, hcount]⟩
  rw [hcoils, hcoils', hcount, hcount']
  exact List.map_congr_left fun i _ => by rw [hplace.coilPosition_eq i]

/-- **The round trip of a master.** On a little endian machine, with all calls succeeding in full,
for every start position and every count within the assertions: coils that one action has read are
transmitted by another one at the same place as they were received, and so are the first of the
registers; and the functions for a single item transmit what those for several items do. -/
theorem processModbusAction_roundTrip (hhost : host.Succeeds)
    (hbuffer : buffer.length = maxRegisterSizePerAction)
    (hbuffer' : buffer'.length = maxRegisterSizePerAction) (state : σ)
    (hbyte : a.i32uStartByteProcessData = b.i32uStartByteProcessData) :
    (a.eFunctionCode.ReadsCoils → b.eFunctionCode = .writeMultipleCoils →
      a.i8uStartBitProcessData = b.i8uStartBitProcessData →
      a.i16uRegisterCount = b.i16uRegisterCount →
      a.i16uRegisterCount.toNat ≤ maxRegisterSizePerAction →
      CoilsRoundTrip host a b buffer buffer' state) ∧
    (a.eFunctionCode.ReadsRegisters → b.eFunctionCode = .writeMultipleRegisters →
      a.i16uRegisterCount.toNat ≤ modbusMaxReadRegisters →
      b.i16uRegisterCount.toNat ≤ min a.i16uRegisterCount.toNat modbusMaxWriteRegisters →
      RegistersRoundTrip host a b buffer buffer' state) ∧
    (a.eFunctionCode = .writeSingleRegister → b.eFunctionCode = .writeMultipleRegisters →
      a.i16uRegisterCount = 1 → b.i16uRegisterCount = 1 →
      TransmitSameItem ModbusCall.words host a b buffer buffer' state) ∧
    (a.eFunctionCode = .writeSingleCoil → b.eFunctionCode = .writeMultipleCoils →
      a.i8uStartBitProcessData = b.i8uStartBitProcessData →
      a.i16uRegisterCount = 1 → b.i16uRegisterCount = 1 →
      TransmitSameItem ModbusCall.coils host a b buffer buffer' state) := by
  refine ⟨fun hread hwrite hbit hcount hmax => ?_, fun hread hwrite hmax hle => ?_,
    fun hsingle hmultiple hone hone' => ?_, fun hsingle hmultiple hbit hone hone' => ?_⟩
  · exact coils_roundTrip hhost hread hwrite ⟨hbyte, hbit⟩ hcount hmax hbuffer hbuffer' state
  · exact registers_roundTrip hhost hread hwrite hbyte hmax hle hbuffer hbuffer' state
  · exact singleRegister_eq hhost hsingle hmultiple hbyte hone hone' hbuffer hbuffer' state
  · exact singleCoil_eq hhost hsingle hmultiple ⟨hbyte, hbit⟩ hone hone' hbuffer hbuffer' state

/-- A buffer in which nothing has been stored. -/
def emptyBuffer : List UInt8 := List.replicate maxRegisterSizePerAction 0

theorem emptyBuffer_length : emptyBuffer.length = maxRegisterSizePerAction :=
  List.length_replicate

/-- 125 registers from byte 0 on. -/
def manyRegistersAction : TModbusAction :=
  { midByteAction with eFunctionCode := .readHoldingRegisters, i16uRegisterCount := 125 }

/-- Eight coils from the middle of a byte on, and 125 registers. -/
theorem processModbusAction_roundTrip_midByte :
    CoilsRoundTrip (imageHost (oneCoilReply 8 4)) midByteAction
      { midByteAction with eFunctionCode := .writeMultipleCoils } emptyBuffer emptyBuffer
      (fun _ => 0) ∧
    RegistersRoundTrip (imageHost (oneCoilReply 125 4)) manyRegistersAction
      { manyRegistersAction with
        eFunctionCode := .writeMultipleRegisters, i16uRegisterCount := 123 }
      emptyBuffer emptyBuffer (fun _ => 0) := by
  constructor
  · have h := processModbusAction_roundTrip (a := midByteAction)
      (b := { midByteAction with eFunctionCode := .writeMultipleCoils }) (oneCoilHost_succeeds 8 4)
      emptyBuffer_length emptyBuffer_length (fun _ => 0) rfl
    exact h.1 (.inl rfl) rfl rfl rfl (by decide)
  · have h := processModbusAction_roundTrip (a := manyRegistersAction)
      (b := { manyRegistersAction with
        eFunctionCode := .writeMultipleRegisters, i16uRegisterCount := 123 })
      (oneCoilHost_succeeds 125 4) emptyBuffer_length emptyBuffer_length (fun _ => 0) rfl
    exact h.2.1 (.inl rfl) rfl (by decide) (by decide)

end

end RevPiModbus
