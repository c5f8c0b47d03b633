import RevPiModbus.ExecutableActions
import RevPiModbus.Lib.TwoRuns

/-!
# Where written data come from

All actions of a thread share one buffer. A write function fills it from the process image and
sends what it has filled. `piControlRead` may copy less than it has been asked for; the branches
for registers take any positive result for a complete one, and then send bytes that an earlier
action has left behind.

* `Host.ReadsAsDocumented`: what is assumed of `piControlRead`;
* `SendsOnlyImage`: what is sent does not depend on the buffer;
* `AgreeUpTo`, `fetchCoils_agree`: two runs of the loop over the coils;
* `sendsOnlyImage_iff`: when a write function sends the process image only.
-/

namespace RevPiModbus

open TwoRuns ByteImage

variable {σ : Type} {host : Host σ} {action : TModbusAction} {buffer buffer' : List UInt8}
  {state : σ}

/-- `piControlRead` returns a negative number, or as many bytes as it has copied to the front of
the buffer, and it copies no more than it has been asked for. -/
structure Host.ReadsAsDocumented (host : Host σ) : Prop where
  fits : ∀ a n s, (host.piControlRead a n s).1.2.length ≤ n
  copied : ∀ a n s, 0 ≤ (host.piControlRead a n s).1.1 →
    ((host.piControlRead a n s).1.2.length : ℤ) = (host.piControlRead a n s).1.1

/-- The functions that write registers. -/
def EModbusFunction.WritesRegisters (f : EModbusFunction) : Prop :=
  f = .writeSingleRegister ∨ f = .writeMultipleRegisters

/-- The request that an action sends, with its values, or why the process stops. -/
def sentRequest (host : Host σ) (action : TModbusAction) (buffer : List UInt8) (state : σ) :
    Except Fault (Option ModbusCall) :=
  (processModbusAction host action buffer state).map Transaction.request

/-- Whatever earlier actions have left in the buffer, the same request is sent, or none. -/
def SendsOnlyImage (host : Host σ) (action : TModbusAction) (state : σ) : Prop :=
  ∀ buffer buffer', buffer.length = maxRegisterSizePerAction →
    buffer'.length = maxRegisterSizePerAction →
    sentRequest host action buffer state = sentRequest host action buffer' state

/-- The report of a failure sends nothing. -/
theorem sentRequest_eq (host : Host σ) (action : TModbusAction) (buffer : List UInt8) (state : σ) :
    sentRequest host action buffer state =
      (switchFunctionCode host action (.start buffer state)).map Transaction.request := by
  unfold sentRequest processModbusAction
  cases switchFunctionCode host action (.start buffer state) with
  | error fault => rfl
  | ok t =>
    rw [ok_bind]
    by_cases hlen : t.len < 0
    · rw [if_pos hlen]
      rfl
    · rw [if_neg hlen]
      rfl

/-! ### Two buffers -/

/-- Two buffers of one size with the same first `n` bytes. -/
structure AgreeUpTo (n : ℕ) (buffer buffer' : List UInt8) : Prop where
  length : buffer.length = buffer'.length
  take : buffer.take n = buffer'.take n

theorem agreeUpTo_zero (h : buffer.length = buffer'.length) : AgreeUpTo 0 buffer buffer' :=
  ⟨h, rfl⟩

theorem AgreeUpTo.mono {m n : ℕ} (h : AgreeUpTo n buffer buffer') (hle : m ≤ n) :
    AgreeUpTo m buffer buffer' := by
  refine ⟨h.length, ?_⟩
  have htake := congrArg (List.take m) h.take
  rwa [List.take_take, List.take_take, Nat.min_eq_left hle] at htake

theorem AgreeUpTo.bufferFront_eq {n : ℕ} (h : AgreeUpTo n buffer buffer') :
    bufferFront buffer n = bufferFront buffer' n := by
  unfold bufferFront
  rw [h.length, h.take]

/-- One more byte is filled. -/
theorem AgreeUpTo.set {i : ℕ} (h : AgreeUpTo i buffer buffer') (value : UInt8) :
    AgreeUpTo (i + 1) (buffer.set i value) (buffer'.set i value) := by
  refine ⟨by rw [List.length_set, List.length_set, h.length], ?_⟩
  apply List.ext_getElem?
  intro k
  have hk := congrArg (·[k]?) h.take
  simp only [List.getElem?_take] at hk
  simp only [List.getElem?_take, List.getElem?_set, h.length]
  split_ifs at hk ⊢ <;> first | rfl | exact hk | omega

/-- What is copied to the front is the same in both. -/
theorem overwrite_agree (h : buffer.length = buffer'.length) (data : List UInt8) :
    Agree (AgreeUpTo data.length) (overwrite buffer data) (overwrite buffer' data) := by
  unfold overwrite
  rw [← h]
  split_ifs
  · refine .ok ⟨?_, ?_⟩
    · rw [List.length_append, List.length_append, List.length_drop, List.length_drop, h]
    · rw [List.take_left, List.take_left]
  · exact .error _

theorem cAssert_agree (p : Prop) [Decidable p] :
    Agree (fun _ _ => p) (cAssert p) (cAssert p) := by
  unfold cAssert
  split_ifs with hp
  · exact .ok hp
  · exact .error _

/-- Two runs of the loop over the coils see the same values. If no read fails, both have filled
the same bytes. -/
theorem fetchCoils_agree (host : Host σ) (action : TModbusAction) (n i : ℕ) (successful : ℤ)
    (state : σ) (h : AgreeUpTo i buffer buffer') :
    Agree (fun r r' => r.1 = r'.1 ∧ (0 ≤ r.1 → AgreeUpTo (i + n) r.2.1 r'.2.1) ∧ r.2.2 = r'.2.2)
      (fetchCoils host action n i successful buffer state)
      (fetchCoils host action n i successful buffer' state) := by
  induction n generalizing i successful buffer buffer' state with
  | zero => exact .ok ⟨rfl, fun _ => h, rfl⟩
  | succ n ih =>
    unfold fetchCoils
    dsimp only
    rw [← h.length]
    split_ifs with hfail hi
    · exact .ok ⟨rfl, fun hle => absurd hfail (not_lt.mpr hle), rfl⟩
    · have hrest := ih (i + 1) (host.piControlGetBitValue (coilData action i 0) state).1.1
        (host.piControlGetBitValue (coilData action i 0) state).2
        (h.set (host.piControlGetBitValue (coilData action i 0) state).1.2)
      rwa [Nat.add_right_comm, Nat.add_assoc] at hrest
    · exact .error _

/-! ### The functions that write -/

/-- The first item of two buffers. -/
theorem AgreeUpTo.head?_eq (h : AgreeUpTo 1 buffer buffer') : buffer.head? = buffer'.head? := by
  have htake := congrArg List.head? h.take
  rwa [List.head?_take, List.head?_take, if_neg one_ne_zero, if_neg one_ne_zero] at htake

theorem writeSingleCoilCase_agree (host : Host σ) (action : TModbusAction) (state : σ)
    (h : buffer.length = buffer'.length) :
    Agree (fun t t' => t.request = t'.request)
      (writeSingleCoilCase host action (.start buffer state))
      (writeSingleCoilCase host action (.start buffer' state)) := by
  unfold writeSingleCoilCase
  apply (cAssert_agree (action.i16uRegisterCount.toNat = 1)).bind
  intro _ _ hone
  apply (fetchCoils_agree host action _ 0 0 state (agreeUpTo_zero h)).bind
  rintro ⟨successful, b, s⟩ ⟨successful', b', s'⟩ ⟨hsuccessful, hagree, hstate⟩
  dsimp only at hsuccessful hagree hstate ⊢
  subst hsuccessful hstate
  by_cases hnonneg : 0 ≤ successful
  · have hhead := ((hagree hnonneg).mono (by omega)).head?_eq
    rw [if_pos hnonneg, if_pos hnonneg]
    cases b with
    | nil =>
      cases b' with
      | nil => exact .error _
      | cons status' b' => cases hhead
    | cons status b =>
      cases b' with
      | nil => cases hhead
      | cons status' b' =>
        cases hhead
        exact .ok rfl
  · rw [if_neg hnonneg, if_neg hnonneg]
    exact .ok rfl

theorem writeMultipleCoilsCase_agree (host : Host σ) (action : TModbusAction) (state : σ)
    (h : buffer.length = buffer'.length) :
    Agree (fun t t' => t.request = t'.request)
      (writeMultipleCoilsCase host action (.start buffer state))
      (writeMultipleCoilsCase host action (.start buffer' state)) := by
  unfold writeMultipleCoilsCase
  apply (Agree.refl (cAssert (action.i16uRegisterCount.toNat ≤ modbusMaxWriteBits))).bind
  intro _ _ _
  apply (fetchCoils_agree host action _ 0 0 state (agreeUpTo_zero h)).bind
  rintro ⟨successful, b, s⟩ ⟨successful', b', s'⟩ ⟨hsuccessful, hagree, hstate⟩
  dsimp only at hsuccessful hagree hstate ⊢
  subst hsuccessful hstate
  by_cases hnonneg : 0 ≤ successful
  · have hfilled := hagree hnonneg
    rw [Nat.zero_add] at hfilled
    rw [if_pos hnonneg, if_pos hnonneg, hfilled.bufferFront_eq]
    apply (Agree.refl (bufferFront b' action.i16uRegisterCount.toNat)).bind
    rintro data _ rfl
    exact .ok rfl
  · rw [if_neg hnonneg, if_neg hnonneg]
    exact .ok rfl

/-- The read of an action that writes registers. -/
def registerRead (host : Host σ) (action : TModbusAction) (state : σ) : ℤ × List UInt8 :=
  (host.piControlRead action.i32uStartByteProcessData (2 * action.i16uRegisterCount.toNat) state).1

/-- The read delivers some of the bytes that it has been asked for, and not all. -/
def ReadsShort (host : Host σ) (action : TModbusAction) (state : σ) : Prop :=
  0 < (registerRead host action state).1 ∧
    (registerRead host action state).1 < 2 * action.i16uRegisterCount.toNat

/-- A read that is not short and does not fail delivers all bytes. -/
theorem registerRead_length (hhost : host.ReadsAsDocumented)
    (hshort : ¬ ReadsShort host action state) (hpos : 0 < (registerRead host action state).1) :
    (registerRead host action state).2.length = 2 * action.i16uRegisterCount.toNat := by
  have hfits := hhost.fits action.i32uStartByteProcessData
    (2 * action.i16uRegisterCount.toNat) state
  have hcopied := hhost.copied action.i32uStartByteProcessData
    (2 * action.i16uRegisterCount.toNat) state hpos.le
  unfold ReadsShort at hshort
  unfold registerRead at hshort hpos ⊢
  omega

theorem writeSingleRegisterCase_agree (hhost : host.ReadsAsDocumented)
    (hshort : ¬ ReadsShort host action state) (h : buffer.length = buffer'.length) :
    Agree (fun t t' => t.request = t'.request)
      (writeSingleRegisterCase host action (.start buffer state))
      (writeSingleRegisterCase host action (.start buffer' state)) := by
  have hlength := registerRead_length hhost hshort
  unfold registerRead at hlength
  unfold writeSingleRegisterCase Transaction.start
  apply (cAssert_agree (action.i16uRegisterCount.toNat = 1)).bind
  intro _ _ hone
  generalize host.piControlRead action.i32uStartByteProcessData
    (2 * action.i16uRegisterCount.toNat) state = r at hlength ⊢
  obtain ⟨⟨successful, data⟩, s⟩ := r
  apply (overwrite_agree h data).bind
  intro b b' hagree
  dsimp only at hlength ⊢
  by_cases hfail : successful ≤ 0
  · rw [if_pos hfail, if_pos hfail]
    exact .ok rfl
  · -- the two bytes of the word have been read, so they are the same in both runs
    rw [hlength (not_le.mp hfail), hone] at hagree
    have htake := hagree.take
    rw [if_neg hfail, if_neg hfail]
    match b, b', htake with
    | [], [], _ => exact .error _
    | [_], [_], _ => exact .error _
    | low :: high :: _, low' :: high' :: _, htake =>
      cases htake
      exact .ok rfl

theorem writeMultipleRegistersCase_agree (hhost : host.ReadsAsDocumented)
    (hshort : ¬ ReadsShort host action state) (h : buffer.length = buffer'.length) :
    Agree (fun t t' => t.request = t'.request)
      (writeMultipleRegistersCase host action (.start buffer state))
      (writeMultipleRegistersCase host action (.start buffer' state)) := by
  have hlength := registerRead_length hhost hshort
  unfold registerRead at hlength
  unfold writeMultipleRegistersCase Transaction.start
  apply (Agree.refl (cAssert (action.i16uRegisterCount.toNat ≤ modbusMaxWriteRegisters))).bind
  intro _ _ _
  generalize host.piControlRead action.i32uStartByteProcessData
    (2 * action.i16uRegisterCount.toNat) state = r at hlength ⊢
  obtain ⟨⟨successful, data⟩, s⟩ := r
  apply (overwrite_agree h data).bind
  intro b b' hagree
  dsimp only at hlength ⊢
  by_cases hfail : successful ≤ 0
  · rw [if_pos hfail, if_pos hfail]
    exact .ok rfl
  · rw [hlength (not_le.mp hfail)] at hagree
    rw [if_neg hfail, if_neg hfail, hagree.bufferFront_eq]
    apply (Agree.refl (bufferFront b' (2 * action.i16uRegisterCount.toNat))).bind
    rintro sent _ rfl
    exact .ok rfl

/-! ### Short reads -/

/-- A buffer in which earlier actions have left one value everywhere. -/
def uniformBuffer (v : UInt8) : List UInt8 := List.replicate maxRegisterSizePerAction v

theorem uniformBuffer_length (v : UInt8) : (uniformBuffer v).length = maxRegisterSizePerAction :=
  List.length_replicate

/-- A short read leaves the rest of the buffer as it is. -/
theorem overwrite_uniformBuffer {data : List UInt8} {n : ℕ} (hlt : data.length < n)
    (hn : n ≤ maxRegisterSizePerAction) (v : UInt8) :
    ∃ rest, overwrite (uniformBuffer v) data = .ok (data ++ v :: rest) ∧
      n ≤ (data ++ v :: rest).length := by
  have hle : data.length ≤ (uniformBuffer v).length := by
    rw [uniformBuffer_length]
    omega
  obtain ⟨m, hm⟩ : ∃ m, maxRegisterSizePerAction - data.length = m + 1 :=
    Nat.exists_eq_succ_of_ne_zero (by omega)
  refine ⟨List.replicate m v, ?_, ?_⟩
  · rw [overwrite_of hle, uniformBuffer, List.drop_replicate, hm, List.replicate_succ]
  · rw [List.length_append, List.length_cons, List.length_replicate]
    omega

/-- A single register is sent with a byte from the buffer. -/
theorem writeSingleRegisterCase_stale (hhost : host.ReadsAsDocumented)
    (hone : action.i16uRegisterCount.toNat = 1) (hshort : ReadsShort host action state) :
    ∃ low : UInt8, ∀ v, ∃ t, writeSingleRegisterCase host action (.start (uniformBuffer v) state) =
      .ok t ∧ t.request = some (.writeRegister action.modbusAddress
        (low.toNat + v.toNat * 2 ^ 8)) := by
  have hcopied := hhost.copied action.i32uStartByteProcessData
    (2 * action.i16uRegisterCount.toNat) state hshort.1.le
  unfold ReadsShort registerRead at hshort
  rcases hread : host.piControlRead action.i32uStartByteProcessData
    (2 * action.i16uRegisterCount.toNat) state with ⟨⟨successful, data⟩, s⟩
  rw [hread] at hcopied hshort
  dsimp only at hcopied hshort
  obtain ⟨low, rfl⟩ := List.length_eq_one_iff.mp (show data.length = 1 by omega)
  refine ⟨low, fun v => ?_⟩
  have hlt : [low].length < 2 := Nat.one_lt_two
  obtain ⟨rest, hoverwrite, -⟩ := overwrite_uniformBuffer hlt (by decide) v
  have hpos : ¬ successful ≤ 0 := not_le.mpr hshort.1
  unfold writeSingleRegisterCase Transaction.start
  simp only [cAssert_of hone, ok_bind, hread, hoverwrite, hpos, if_false]
  exact ⟨_, rfl, rfl⟩

/-- Multiple registers are sent with bytes from the buffer. -/
theorem writeMultipleRegistersCase_stale (hhost : host.ReadsAsDocumented)
    (hmax : action.i16uRegisterCount.toNat ≤ modbusMaxWriteRegisters)
    (hshort : ReadsShort host action state) :
    ∃ data : List UInt8, data.length < 2 * action.i16uRegisterCount.toNat ∧ ∀ v, ∃ t rest,
      writeMultipleRegistersCase host action (.start (uniformBuffer v) state) = .ok t ∧
      t.request = some (.writeRegisters action.modbusAddress action.i16uRegisterCount.toNat
        ((data ++ v :: rest).take (2 * action.i16uRegisterCount.toNat))) := by
  have hcopied := hhost.copied action.i32uStartByteProcessData
    (2 * action.i16uRegisterCount.toNat) state hshort.1.le
  have hsize : 2 * action.i16uRegisterCount.toNat ≤ maxRegisterSizePerAction := by
    unfold modbusMaxWriteRegisters at hmax
    unfold maxRegisterSizePerAction
    omega
  unfold ReadsShort registerRead at hshort
  rcases hread : host.piControlRead action.i32uStartByteProcessData
    (2 * action.i16uRegisterCount.toNat) state with ⟨⟨successful, data⟩, s⟩
  rw [hread] at hcopied hshort
  dsimp only at hcopied hshort
  have hlt : data.length < 2 * action.i16uRegisterCount.toNat := by omega
  refine ⟨data, hlt, fun v => ?_⟩
  obtain ⟨rest, hoverwrite, hlength⟩ := overwrite_uniformBuffer hlt hsize v
  have hpos : ¬ successful ≤ 0 := not_le.mpr hshort.1
  unfold writeMultipleRegistersCase Transaction.start
  simp only [cAssert_of hmax, ok_bind, hread, hoverwrite, hpos, if_false, bufferFront_of hlength]
  exact ⟨_, rest, rfl, rfl⟩

/-- After a short read, two buffers show that the values are not those of the process image. -/
theorem not_sendsOnlyImage_of_short (hhost : host.ReadsAsDocumented)
    (hwrite : action.eFunctionCode.WritesRegisters)
    (hlimits : withinLimits action.eFunctionCode action.i16uRegisterCount.toNat = true)
    (hshort : ReadsShort host action state) : ¬ SendsOnlyImage host action state := by
  intro h
  have hsame := h (uniformBuffer 0) (uniformBuffer 1) (uniformBuffer_length 0)
    (uniformBuffer_length 1)
  rw [sentRequest_eq, sentRequest_eq] at hsame
  unfold switchFunctionCode at hsame
  obtain hfc | hfc := hwrite
  · simp only [hfc, withinLimits, decide_eq_true_eq] at hlimits hsame
    -- the upper byte of the word is that of the buffer
    obtain ⟨low, hstale⟩ := writeSingleRegisterCase_stale hhost hlimits hshort
    obtain ⟨t, ht, hrequest⟩ := hstale 0
    obtain ⟨t', ht', hrequest'⟩ := hstale 1
    rw [ht, ht'] at hsame
    have hequal := Except.ok.inj hsame
    rw [hrequest, hrequest'] at hequal
    simp at hequal
  · simp only [hfc, withinLimits, decide_eq_true_eq] at hlimits hsame
    obtain ⟨data, hlt, hstale⟩ := writeMultipleRegistersCase_stale hhost hlimits hshort
    obtain ⟨t, rest, ht, hrequest⟩ := hstale 0
    obtain ⟨t', rest', ht', hrequest'⟩ := hstale 1
    rw [ht, ht'] at hsame
    have hequal := Except.ok.inj hsame
    rw [hrequest, hrequest'] at hequal
    have hsent := (ModbusCall.writeRegisters.inj (Option.some.inj hequal)).2.2
    -- the first byte behind the copied ones differs
    have hbyte := congrArg (·[data.length]?) hsent
    simp [hlt] at hbyte

/-- Every write function whose read is not short sends what it has filled. -/
theorem sendsOnlyImage_of (hhost : host.ReadsAsDocumented)
    (hwrite : action.eFunctionCode.WritesCoils ∨ action.eFunctionCode.WritesRegisters)
    (hshort : action.eFunctionCode.WritesRegisters → ¬ ReadsShort host action state) :
    SendsOnlyImage host action state := by
  intro b b' hb hb'
  have hlength : b.length = b'.length := hb.trans hb'.symm
  rw [sentRequest_eq, sentRequest_eq]
  unfold switchFunctionCode
  obtain (hfc | hfc) | hregisters := hwrite
  · simp only [hfc]
    exact (writeSingleCoilCase_agree host action state hlength).map_eq fun _ _ h => h
  · simp only [hfc]
    exact (writeMultipleCoilsCase_agree host action state hlength).map_eq fun _ _ h => h
  · have hcomplete := hshort hregisters
    obtain hfc | hfc := hregisters
    · simp only [hfc]
      exact (writeSingleRegisterCase_agree hhost hcomplete hlength).map_eq fun _ _ h => h
    · simp only [hfc]
      exact (writeMultipleRegistersCase_agree hhost hcomplete hlength).map_eq fun _ _ h => h

/-- **Where written data come from.** A write function within its limits sends the same values,
whatever earlier actions have left in the buffer, unless it writes registers and the read of the
process image is short. -/
theorem sendsOnlyImage_iff (hhost : host.ReadsAsDocumented)
    (hwrite : action.eFunctionCode.WritesCoils ∨ action.eFunctionCode.WritesRegisters)
    (hlimits : withinLimits action.eFunctionCode action.i16uRegisterCount.toNat = true)
    (state : σ) :
    SendsOnlyImage host action state ↔
      (action.eFunctionCode.WritesRegisters →
        ¬ (0 < (registerRead host action state).1 ∧
          (registerRead host action state).1 < 2 * action.i16uRegisterCount.toNat)) := by
  constructor
  · intro h hregisters hshort
    exact not_sendsOnlyImage_of_short hhost hregisters hlimits hshort h
  · exact sendsOnlyImage_of hhost hwrite

/-- A process image of 4096 bytes, at whose end a read is short. Each request is answered with one
item of ones. -/
def boundedHost : Host Image :=
  let reply (call : ModbusCall) : ModbusReply :=
    { len := 1, errno := 0, data := List.replicate (min call.itemSize call.capacity) 1 }
  { imageHost reply with
    piControlRead := fun a n s =>
      let copied := min n (4096 - a.toNat)
      ((copied, read s a.toNat copied), s) }

theorem boundedHost_readsAsDocumented : boundedHost.ReadsAsDocumented where
  fits a n s := by
    show (read s a.toNat (min n (4096 - a.toNat))).length ≤ n
    rw [read_length]
    exact Nat.min_le_left _ _
  copied a n s _ := by
    show ((read s a.toNat (min n (4096 - a.toNat))).length : ℤ) = _
    rw [read_length]
    rfl

/-- A register that is written from the given byte on. -/
def registerAction (functionCode : EModbusFunction) (startByte : UInt32) : TModbusAction :=
  { midByteAction with
    eFunctionCode := functionCode
    i16uRegisterCount := 1
    i32uStartByteProcessData := startByte
    i8uStartBitProcessData := 0 }

/-- Inside the process image, the register is sent as it stands there. -/
theorem sendsOnlyImage_inside :
    SendsOnlyImage boundedHost (registerAction .writeSingleRegister 4094) (fun _ => 0) :=
  (sendsOnlyImage_iff boundedHost_readsAsDocumented (.inr (.inl rfl)) (by decide) _).mpr
    fun _ => by decide

/-- From the last byte of the process image, half of the register that has been read before is sent
to the slave. -/
theorem not_sendsOnlyImage_endOfImage :
    (processModbusAction boundedHost (registerAction .readHoldingRegisters 100) (uniformBuffer 0)
        (fun _ => 0)).map Transaction.buffer = .ok ([1, 1] ++ List.replicate 254 0) ∧
      sentRequest boundedHost (registerAction .writeSingleRegister 4095) (uniformBuffer 0)
        (fun _ => 0) = .ok (some (.writeRegister 0 0)) ∧
      sentRequest boundedHost (registerAction .writeSingleRegister 4095)
        ([1, 1] ++ List.replicate 254 0) (fun _ => 0) = .ok (some (.writeRegister 0 256)) ∧
      ¬ SendsOnlyImage boundedHost (registerAction .writeSingleRegister 4095) (fun _ => 0) := by
  refine ⟨by decide +kernel, by decide +kernel, by decide +kernel, ?_⟩
  exact not_sendsOnlyImage_of_short boundedHost_readsAsDocumented (.inl rfl) (by decide)
    (by unfold ReadsShort; decide)

end RevPiModbus
