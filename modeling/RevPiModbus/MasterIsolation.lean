import RevPiModbus.MasterProgram
import RevPiModbus.StatusLatch

/-!
# Several masters on one process image

All masters of the configuration work on the same process image, and a call of one of them may come
between any two calls of another. The mutex in `processModbusAction` does not prevent this: the
resets are outside of it, and so is the user. Masters whose data, status bytes and reset bits are
separate do not notice one another all the same, and the steps of a loop may be taken as a whole.

* `HostCall.Touches`, `Footprint`: the bits that a call or a master reads or writes;
* `processModbusActionProgram_within`, `loopProgram_within`: a master keeps to its footprint;
* `Surroundings`, `mastersSystem`: the masters on one process image, call by call;
* `masterShare`, `masters_isolated`: each master does what its loop does alone.
-/

namespace RevPiModbus

open ByteImage Interleaving Transition

/-! ## Footprints -/

/-- The bits of the process image that a call reads or writes. -/
def HostCall.Touches : HostCall → ℕ → Prop
  | .piControlRead a n, k => a.toNat ≤ k / 8 ∧ k / 8 < a.toNat + n
  | .piControlWrite a data, k => a.toNat ≤ k / 8 ∧ k / 8 < a.toNat + data.length
  | .piControlSetBitValue v, k => k = 8 * v.i16uAddress.toNat + v.i8uBit.toNat
  | .piControlGetBitValue v, k => k = 8 * v.i16uAddress.toNat + v.i8uBit.toNat
  | .modbus _, _ => False

/-- The calls inside a set of bits. -/
def HostCall.Inside (F : ℕ → Prop) (c : HostCall) : Prop := ∀ k, c.Touches k → F k

variable {action : TModbusAction} {t : TransactionLocals} {F : ℕ → Prop}

theorem modbus_inside (call : ModbusCall) : (HostCall.modbus call).Inside F :=
  fun _ h => False.elim h

theorem piControlRead_inside {a : UInt32} {n : ℕ}
    (hF : ∀ k, a.toNat ≤ k / 8 → k / 8 < a.toNat + n → F k) :
    (HostCall.piControlRead a n).Inside F :=
  fun k hk => hF k hk.1 hk.2

theorem piControlSetBitValue_inside {v : SPIValue}
    (hF : F (8 * v.i16uAddress.toNat + v.i8uBit.toNat)) :
    (HostCall.piControlSetBitValue v).Inside F := by
  rintro k rfl
  exact hF

theorem piControlGetBitValue_inside {v : SPIValue}
    (hF : F (8 * v.i16uAddress.toNat + v.i8uBit.toNat)) :
    (HostCall.piControlGetBitValue v).Inside F := by
  rintro k rfl
  exact hF

theorem coilData_position (i : ℕ) (value : UInt8) :
    8 * (coilData action i value).i16uAddress.toNat + (coilData action i value).i8uBit.toNat =
      coilPosition action i := by
  rw [coilData_i8uBit_toNat]
  show 8 * (UInt16.ofNat _).toNat + _ = _
  rw [UInt16.toNat_ofNat']
  rfl

theorem receiveModbusProgram_within (call : ModbusCall) :
    (receiveModbusProgram call t).Within (HostCall.Inside F) :=
  (Program.Within.ask (modbus_inside call)).bind fun _ => Program.Within.ofExcept fun _ _ => trivial

theorem sendModbusProgram_within (call : ModbusCall) :
    (sendModbusProgram call t).Within (HostCall.Inside F) :=
  (Program.Within.ask (modbus_inside call)).bind fun _ => trivial

/-- The loops keep to the bits of their coils. -/
theorem storeCoilsProgram_within {buffer : List UInt8} {n i : ℕ} {successful : ℤ}
    (hF : ∀ j, i ≤ j → j < i + n → F (coilPosition action j)) :
    (storeCoilsProgram action buffer n i successful).Within (HostCall.Inside F) := by
  induction n generalizing i successful with
  | zero => trivial
  | succ n ih =>
    unfold storeCoilsProgram
    cases buffer[i]? with
    | none => trivial
    | some value =>
      refine (Program.Within.ask (piControlSetBitValue_inside ?_)).bind fun successful => ?_
      · rw [coilData_position]
        exact hF i le_rfl (by omega)
      · split_ifs
        · trivial
        · exact ih fun j hj hj' => hF j (by omega) (by omega)

theorem fetchCoilsProgram_within {n i : ℕ} {successful : ℤ} {buffer : List UInt8}
    (hF : ∀ j, i ≤ j → j < i + n → F (coilPosition action j)) :
    (fetchCoilsProgram action n i successful buffer).Within (HostCall.Inside F) := by
  induction n generalizing i successful buffer with
  | zero => trivial
  | succ n ih =>
    unfold fetchCoilsProgram
    refine (Program.Within.ask (piControlGetBitValue_inside ?_)).bind fun r => ?_
    · rw [coilData_position]
      exact hF i le_rfl (by omega)
    · obtain ⟨successful, value⟩ := r
      dsimp only
      split_ifs
      · trivial
      · exact ih fun j hj hj' => hF j (by omega) (by omega)
      · trivial

theorem readBitsProgram_within {call : ModbusCall}
    (hF : ∀ j < action.i16uRegisterCount.toNat, F (coilPosition action j)) :
    (readBitsProgram action call t).Within (HostCall.Inside F) := by
  refine Program.Within.ofExcept fun _ _ => (receiveModbusProgram_within call).bind fun r => ?_
  split_ifs
  · trivial
  · exact (storeCoilsProgram_within fun j _ hj => hF j (by omega)).bind fun _ => trivial

/-- The front of the buffer is written to as many bytes as it has. -/
theorem writeFront_within {r : TransactionLocals} {n : ℕ} {a : UInt32}
    (hF : ∀ k, a.toNat ≤ k / 8 → k / 8 < a.toNat + n → F k) :
    Program.Within (HostCall.Inside F) (do
      let data ← orStop (bufferFront r.buffer n)
      let successful : ℤ ← (HostCall.piControlWrite a data).ask
      return { r with successful := successful }) := by
  refine Program.Within.ofExcept fun data hdata => (Program.Within.ask ?_).bind fun _ => trivial
  have hlength : data.length ≤ n := by
    unfold bufferFront at hdata
    split_ifs at hdata
    cases hdata
    exact List.length_take_le _ _
  intro k hk
  exact hF k hk.1 (by have := hk.2; omega)

theorem readRegistersProgram_within {call : ModbusCall}
    (hF : ∀ k, action.i32uStartByteProcessData.toNat ≤ k / 8 →
      k / 8 < action.i32uStartByteProcessData.toNat + 2 * action.i16uRegisterCount.toNat → F k) :
    (readRegistersProgram action call t).Within (HostCall.Inside F) := by
  refine Program.Within.ofExcept fun _ _ => (receiveModbusProgram_within call).bind fun r => ?_
  split_ifs
  · trivial
  · exact writeFront_within hF

theorem reportSlaveIdProgram_within
    (hF : ∀ k, action.i32uStartByteProcessData.toNat ≤ k / 8 →
      k / 8 < action.i32uStartByteProcessData.toNat + action.i16uRegisterCount.toNat → F k) :
    (reportSlaveIdProgram action t).Within (HostCall.Inside F) := by
  refine Program.Within.ofExcept fun _ _ => (receiveModbusProgram_within _).bind fun r => ?_
  split_ifs
  · trivial
  · exact writeFront_within hF

theorem writeSingleRegisterProgram_within
    (hF : ∀ k, action.i32uStartByteProcessData.toNat ≤ k / 8 →
      k / 8 < action.i32uStartByteProcessData.toNat + 2 * action.i16uRegisterCount.toNat → F k) :
    (writeSingleRegisterProgram action t).Within (HostCall.Inside F) := by
  refine Program.Within.ofExcept fun _ _ =>
    (Program.Within.ask (piControlRead_inside hF)).bind fun r => ?_
  refine Program.Within.ofExcept fun buffer _ => ?_
  split_ifs
  · trivial
  · rcases buffer with - | ⟨low, - | ⟨high, buffer⟩⟩
    · trivial
    · trivial
    · exact sendModbusProgram_within _

theorem writeMultipleRegistersProgram_within
    (hF : ∀ k, action.i32uStartByteProcessData.toNat ≤ k / 8 →
      k / 8 < action.i32uStartByteProcessData.toNat + 2 * action.i16uRegisterCount.toNat → F k) :
    (writeMultipleRegistersProgram action t).Within (HostCall.Inside F) := by
  refine Program.Within.ofExcept fun _ _ =>
    (Program.Within.ask (piControlRead_inside hF)).bind fun r => ?_
  refine Program.Within.ofExcept fun buffer _ => ?_
  split_ifs
  · trivial
  · exact Program.Within.ofExcept fun _ _ => sendModbusProgram_within _

theorem writeSingleCoilProgram_within
    (hF : ∀ j < action.i16uRegisterCount.toNat, F (coilPosition action j)) :
    (writeSingleCoilProgram action t).Within (HostCall.Inside F) := by
  refine Program.Within.ofExcept fun _ _ => ?_
  refine (fetchCoilsProgram_within fun j _ hj => hF j (by omega)).bind fun r => ?_
  obtain ⟨successful, buffer⟩ := r
  dsimp only
  split_ifs
  · cases buffer with
    | nil => trivial
    | cons status buffer => exact sendModbusProgram_within _
  · trivial

theorem writeMultipleCoilsProgram_within
    (hF : ∀ j < action.i16uRegisterCount.toNat, F (coilPosition action j)) :
    (writeMultipleCoilsProgram action t).Within (HostCall.Inside F) := by
  refine Program.Within.ofExcept fun _ _ => ?_
  refine (fetchCoilsProgram_within fun j _ hj => hF j (by omega)).bind fun r => ?_
  obtain ⟨successful, buffer⟩ := r
  dsimp only
  split_ifs
  · exact Program.Within.ofExcept fun _ _ => sendModbusProgram_within _
  · trivial

/-- The `switch` keeps to the data of the action. -/
theorem switchFunctionCodeProgram_within (hF : ∀ k, InDataWindow action k → F k) :
    (switchFunctionCodeProgram action t).Within (HostCall.Inside F) := by
  unfold InDataWindow at hF
  unfold switchFunctionCodeProgram
  cases hcode : action.eFunctionCode with
  | readCoils | readDiscreteInputs =>
    simp only [hcode] at hF
    exact readBitsProgram_within fun j hj => hF _ ⟨j, hj, rfl⟩
  | writeSingleCoil =>
    simp only [hcode] at hF
    exact writeSingleCoilProgram_within fun j hj => hF _ ⟨j, hj, rfl⟩
  | writeMultipleCoils =>
    simp only [hcode] at hF
    exact writeMultipleCoilsProgram_within fun j hj => hF _ ⟨j, hj, rfl⟩
  | readHoldingRegisters | readInputRegisters =>
    simp only [hcode] at hF
    exact readRegistersProgram_within fun k hk hk' => hF k ⟨hk, hk'⟩
  | writeSingleRegister =>
    simp only [hcode] at hF
    exact writeSingleRegisterProgram_within fun k hk hk' => hF k ⟨hk, hk'⟩
  | writeMultipleRegisters =>
    simp only [hcode] at hF
    exact writeMultipleRegistersProgram_within fun k hk hk' => hF k ⟨hk, hk'⟩
  | reportSlaveId =>
    simp only [hcode] at hF
    exact reportSlaveIdProgram_within fun k hk hk' => hF k ⟨hk, hk'⟩
  | readExceptionStatus | writeMaskRegister | writeAndReadRegisters | unnamed code => trivial

/-- A write of one byte. -/
theorem piControlWrite_inside {a : UInt32} {v : UInt8} (hF : ∀ k, k / 8 = a.toNat → F k) :
    (HostCall.piControlWrite a [v]).Inside F := by
  rintro k ⟨hk, hk'⟩
  rw [List.length_singleton] at hk'
  exact hF k (by omega)

/-- An action keeps to its data and its status byte. -/
theorem processModbusActionProgram_within {buffer : List UInt8}
    (hF : ∀ k, InDataWindow action k → F k)
    (hstatus : ∀ k, k / 8 = action.i32uStatusByteProcessImageOffset.toNat → F k) :
    (processModbusActionProgram action buffer).Within (HostCall.Inside F) := by
  refine (switchFunctionCodeProgram_within hF).bind fun t => ?_
  split_ifs
  · exact (Program.Within.ask (piControlWrite_inside hstatus)).bind fun _ => trivial
  · trivial

/-- A reset keeps to its bit and its status byte. -/
theorem resetModbusActionStatusProgram_within {byteOffset : UInt32} {bitOffset : UInt8}
    {statusOffset : UInt32} (hreset : F (8 * byteOffset.toUInt16.toNat + bitOffset.toNat))
    (hstatus : ∀ k, k / 8 = statusOffset.toNat → F k) :
    (resetModbusActionStatusProgram byteOffset bitOffset statusOffset).Within
      (HostCall.Inside F) := by
  refine (Program.Within.ask (piControlGetBitValue_inside hreset)).bind fun r => ?_
  obtain ⟨successful, value⟩ := r
  dsimp only
  split_ifs
  · trivial
  · refine (Program.Within.ask (piControlWrite_inside hstatus)).bind fun successful => ?_
    split_ifs
    · trivial
    · exact Program.Within.ask (piControlSetBitValue_inside hreset)
  · trivial

variable {σ : Type} {host : Host σ} {config : TModbusMasterConfiguration}

/-- The bits that belong to a master: the data, the status bytes and the reset bits of its actions,
and those of its device. -/
def Footprint (host : Host σ) (config : TModbusMasterConfiguration) (k : ℕ) : Prop :=
  (∃ action ∈ config.mbActionListHead, InDataWindow action k ∨
    k / 8 = (action.latch host).status ∨ k = (action.latch host).reset) ∨
  k / 8 = (deviceLatch host config).status ∨ k = (deviceLatch host config).reset

/-- A master keeps to its footprint. -/
theorem loopProgram_within (hbit : ∀ a b, host.bitPosition a b = 8 * a.toNat + b.toNat)
    (x : LoopLocals) (input : LoopInput) :
    (loopProgram config x input).Within (HostCall.Inside (Footprint host config)) := by
  have hdevice : ∀ error, (writeDeviceStatusProgram config error).Within
      (HostCall.Inside (Footprint host config)) := by
    intro error
    exact (Program.Within.ask (piControlWrite_inside fun k hk => .inr (.inl hk))).bind
      fun _ => trivial
  cases input with
  | connect connected malloc currentTime =>
    simp only [loopProgram, connectProgram]
    split_ifs
    · split
      · split_ifs
        · exact (hdevice _).bind fun _ => trivial
        · exact (hdevice _).bind fun _ => trivial
      · trivial
    · exact (hdevice _).bind fun _ => trivial
    · trivial
  | proceed =>
    simp only [loopProgram]
    split
    · split <;> trivial
    · split
      · rename_i action haction
        have ha := List.mem_of_getElem? haction
        refine (resetModbusActionStatusProgram_within ?_ ?_).bind fun _ => trivial
        · exact .inl ⟨action, ha, .inr (.inr (hbit _ _).symm)⟩
        · exact fun k hk => .inl ⟨action, ha, .inr (.inl hk)⟩
      · trivial
    · refine (resetModbusActionStatusProgram_within ?_ ?_).bind fun _ => trivial
      · exact .inr (.inr (hbit _ _).symm)
      · exact fun k hk => .inr (.inl hk)
    · split
      · rename_i action haction
        have ha := List.mem_of_getElem? haction
        refine (processModbusActionProgram_within ?_ ?_).bind fun _ => trivial
        · exact fun k hk => .inl ⟨action, ha, .inl hk⟩
        · exact fun k hk => .inl ⟨action, ha, .inr (.inl hk)⟩
      · trivial
    · trivial

/-! ## The masters on one process image -/

/-- What a master has for itself: its device and its Modbus context, and the calls of piControl that
fail for it. -/
structure Surroundings (δ : Type) where
  modbus : ModbusCall → δ → ModbusReply × δ
  /-- The error of the next call, if it fails. -/
  piControl : δ → Option ℕ × δ

variable {δ : Type}

/-- The process image together with the surroundings of one master. -/
def Surroundings.toHost (w : Surroundings δ) : Host (Image × δ) where
  image := Prod.fst
  bitPosition a b := 8 * a.toNat + b.toNat
  piControlRead a n s :=
    match w.piControl s.2 with
    | (some e, d) => ((Int.negSucc e, []), (s.1, d))
    | (none, d) => ((n, read s.1 a.toNat n), (s.1, d))
  piControlWrite a data s :=
    match w.piControl s.2 with
    | (some e, d) => (Int.negSucc e, (s.1, d))
    | (none, d) => (data.length, (write s.1 a.toNat data, d))
  piControlSetBitValue v s :=
    match w.piControl s.2 with
    | (some e, d) => (Int.negSucc e, (s.1, d))
    | (none, d) =>
      (0, (setBit s.1 (8 * v.i16uAddress.toNat + v.i8uBit.toNat) (v.i8uValue != 0), d))
  piControlGetBitValue v s :=
    match w.piControl s.2 with
    | (some e, d) => ((Int.negSucc e, 0), (s.1, d))
    | (none, d) =>
      ((0, if bit s.1 (8 * v.i16uAddress.toNat + v.i8uBit.toNat) then 1 else 0), (s.1, d))
  modbus c s :=
    let (reply, d) := w.modbus c s.2
    (reply, (s.1, d))

/-- Two images that agree on a set of bits. -/
def agreeOn (F : ℕ → Prop) : Setoid Image where
  r m m' := ∀ k, F k → bit m k = bit m' k
  iseqv := ⟨fun _ _ _ => rfl, fun h k hk => (h k hk).symm,
    fun h h' k hk => (h k hk).trans (h' k hk)⟩

theorem agreeOn_write {m m' : Image} (h : (agreeOn F).r m m') (a : ℕ) (data : List UInt8) :
    (agreeOn F).r (write m a data) (write m' a data) := by
  intro k hk
  by_cases hin : a ≤ k / 8 ∧ k / 8 < a + data.length
  · exact bit_write_of_mem hin
  · rw [bit_write_of_notMem hin, bit_write_of_notMem hin]
    exact h k hk

theorem agreeOn_setBit {m m' : Image} (h : (agreeOn F).r m m') (n : ℕ) (v : Bool) :
    (agreeOn F).r (setBit m n v) (setBit m' n v) := by
  intro k hk
  rw [bit_setBit, bit_setBit, h k hk]

theorem agreeOn_read {m m' : Image} (h : (agreeOn F).r m m') {a n : ℕ}
    (hF : ∀ k, a ≤ k / 8 ∧ k / 8 < a + n → F k) : read m a n = read m' a n := by
  apply read_congr
  intro b hb hb'
  apply eq_of_bit
  rintro k rfl
  exact h k (hF k ⟨hb, hb'⟩)

/-- The answer of a call, and its effect on a set of bits that contains those it touches, depend on
these bits only. -/
theorem perform_agreeOn (w : Surroundings δ) {c : HostCall} (hc : c.Inside F) {m m' : Image}
    (h : (agreeOn F).r m m') (d : δ) :
    (w.toHost.perform c (m, d)).1 = (w.toHost.perform c (m', d)).1 ∧
      (agreeOn F).r (w.toHost.perform c (m, d)).2.1 (w.toHost.perform c (m', d)).2.1 ∧
      (w.toHost.perform c (m, d)).2.2 = (w.toHost.perform c (m', d)).2.2 := by
  cases c with
  | modbus call => exact ⟨rfl, h, rfl⟩
  | piControlRead a n =>
    have hread := agreeOn_read h hc
    simp only [Host.perform, Surroundings.toHost]
    rcases w.piControl d with ⟨- | e, d'⟩
    · exact ⟨by rw [hread], h, rfl⟩
    · exact ⟨rfl, h, rfl⟩
  | piControlWrite a data =>
    simp only [Host.perform, Surroundings.toHost]
    rcases w.piControl d with ⟨- | e, d'⟩
    · exact ⟨rfl, agreeOn_write h _ data, rfl⟩
    · exact ⟨rfl, h, rfl⟩
  | piControlSetBitValue v =>
    simp only [Host.perform, Surroundings.toHost]
    rcases w.piControl d with ⟨- | e, d'⟩
    · exact ⟨rfl, agreeOn_setBit h _ _, rfl⟩
    · exact ⟨rfl, h, rfl⟩
  | piControlGetBitValue v =>
    have hbit := h _ (hc _ rfl)
    simp only [Host.perform, Surroundings.toHost]
    rcases w.piControl d with ⟨- | e, d'⟩
    · exact ⟨by rw [hbit], h, rfl⟩
    · exact ⟨rfl, h, rfl⟩

/-- A call leaves alone what it does not touch. -/
theorem perform_frame (w : Surroundings δ) {c : HostCall} (hc : c.Inside fun k => ¬ F k)
    (m : Image) (d : δ) : (agreeOn F).r m (w.toHost.perform c (m, d)).2.1 := by
  cases c with
  | modbus call => exact fun _ _ => rfl
  | piControlRead a n | piControlGetBitValue v =>
    simp only [Host.perform, Surroundings.toHost]
    rcases w.piControl d with ⟨- | e, d'⟩ <;> exact fun _ _ => rfl
  | piControlWrite a data =>
    simp only [Host.perform, Surroundings.toHost]
    rcases w.piControl d with ⟨- | e, d'⟩
    · exact fun k hk => (bit_write_of_notMem fun hin => hc k hin hk).symm
    · exact fun _ _ => rfl
  | piControlSetBitValue v =>
    simp only [Host.perform, Surroundings.toHost]
    rcases w.piControl d with ⟨- | e, d'⟩
    · intro k hk
      rw [bit_setBit, if_neg]
      exact fun heq => hc k heq hk
    · exact fun _ _ => rfl

variable {ι : Type}

/-- The masters of a configuration. -/
def mastersSystem (configs : ι → TModbusMasterConfiguration) (surroundings : ι → Surroundings δ) :
    System ι Image δ LoopLocals LoopInput HostCall.Answer where
  body i x input := loopProgram (configs i) x input
  perform i := (surroundings i).toHost.perform
  permits i m m' := ∀ action ∈ (configs i).mbActionListHead,
    m' (action.latch (surroundings i).toHost).status =
      m (action.latch (surroundings i).toHost).status ∧
    (bit m (action.latch (surroundings i).toHost).reset = true →
      bit m' (action.latch (surroundings i).toHost).reset = true)

variable {configs : ι → TModbusMasterConfiguration} {surroundings : ι → Surroundings δ}

/-- Masters with separate footprints are isolated. -/
theorem mastersSystem_isolated
    (hseparate : ∀ i j, i ≠ j → ∀ k, Footprint (surroundings i).toHost (configs i) k →
      ¬ Footprint (surroundings j).toHost (configs j) k) :
    (mastersSystem configs surroundings).Isolated
      (fun i => agreeOn (Footprint (surroundings i).toHost (configs i)))
      (fun i => HostCall.Inside (Footprint (surroundings i).toHost (configs i))) where
  within i x input := loopProgram_within (fun _ _ => rfl) x input
  reads i c hc m m' d h := perform_agreeOn (surroundings i) hc h d
  frame i j hij c hc m d := perform_frame (surroundings i)
    (fun k hk hF => hseparate i j hij k (hc k hk) hF) m d
  permits_congr i m m' n h := by
    refine forall_congr' fun action => imp_congr_right fun haction => ?_
    have hstatus : m (action.latch (surroundings i).toHost).status =
        m' (action.latch (surroundings i).toHost).status :=
      eq_of_bit fun k hk => h k (.inl ⟨action, haction, .inr (.inl hk)⟩)
    have hreset := h _ (.inl ⟨action, haction, .inr (.inr rfl)⟩)
    rw [hstatus, hreset]

/-! ## The loops -/

/-- The local variables at the start of a thread. -/
def LoopLocals.start : LoopLocals where
  phase := .connect
  eventList := []
  errCnt := 0
  buffer := List.replicate maxRegisterSizePerAction 0
  state := ()

/-- All threads at their start. -/
def mastersStart (image : Image) (own : ι → δ) :
    Threads ι Image δ LoopLocals HostCall.Answer where
  shared := image
  own := own
  program _ := .done .start

/-- The label of a loop for what happens to a thread alone. -/
def soloToLoop : SoloLabel (Image × δ) LoopInput → LoopLabel (Image × δ)
  | .input input => input.label
  | .other state => .user state

/-- A thread alone is the loop of the master. -/
theorem loopStep_soloToLoop (i : ι) (x : LoopLocals × (Image × δ))
    (l : SoloLabel (Image × δ) LoopInput) :
    (loopStep (surroundings i).toHost (configs i) (x.1.at x.2) (soloToLoop l)).map LoopState.split =
      soloStep (mastersSystem configs surroundings) i x l := by
  cases l with
  | input input => exact (loopProgram_exec input).symm
  | other state =>
    show Option.map _ (if _ then _ else none) = if _ then _ else none
    split_ifs with hsets hpermits hpermits
    · rfl
    · exact absurd hsets hpermits
    · exact absurd hpermits hsets
    · rfl

theorem run_soloToLoop (i : ι) (x : LoopLocals × (Image × δ))
    (labels : List (SoloLabel (Image × δ) LoopInput)) :
    (run (loopStep (surroundings i).toHost (configs i)) (x.1.at x.2)
      (labels.map soloToLoop)).map LoopState.split =
      run (soloStep (mastersSystem configs surroundings) i) x labels := by
  induction labels generalizing x with
  | nil => rfl
  | cons l labels ih =>
    rw [List.map_cons, run, run, ← loopStep_soloToLoop]
    cases loopStep (surroundings i).toHost (configs i) (x.1.at x.2) (soloToLoop l) with
    | none => rfl
    | some s => exact ih s.split

variable [DecidableEq ι]

/-- The share of master `i` in an interleaved run, as steps of its loop. -/
def masterShare (configs : ι → TModbusMasterConfiguration) (surroundings : ι → Surroundings δ)
    (image : Image) (own : ι → δ) (labels : List (Label ι Image LoopInput)) (i : ι) :
    List (LoopLabel (Image × δ)) :=
  (soloRun (mastersSystem configs surroundings) i (mastersStart image own) labels).map soloToLoop

/-- **The masters do not notice one another.** Let the footprints of the masters be separate. Take
any run in which the masters make their calls of piControl and libmodbus in any order, with any
answers of the devices and any failures of piControl, and in which others change the process image
between the calls, though not the footprint of a master in the middle of a step. Then what each
master has still to do of its step leads to the local variables, the surroundings and the footprint
to which its loop leads alone, with every step as a whole. -/
theorem masters_isolated
    (hseparate : ∀ i j, i ≠ j → ∀ k, Footprint (surroundings i).toHost (configs i) k →
      ¬ Footprint (surroundings j).toHost (configs j) k)
    (image : Image) (own : ι → δ) (labels : List (Label ι Image LoopInput))
    (hothers : Along (interleavedStep (mastersSystem configs surroundings))
      ((mastersSystem configs surroundings).OthersKeep
        fun i => agreeOn (Footprint (surroundings i).toHost (configs i)))
      (mastersStart image own) labels)
    {g : Threads ι Image δ LoopLocals HostCall.Answer}
    (hrun : run (interleavedStep (mastersSystem configs surroundings)) (mastersStart image own)
      labels = some g) (i : ι) :
    Option.Rel (Alike (agreeOn (Footprint (surroundings i).toHost (configs i))))
      (g.outcome (mastersSystem configs surroundings) i)
      ((run (loopStep (surroundings i).toHost (configs i)) (LoopLocals.start.at (image, own i))
        (masterShare configs surroundings image own labels i)).map LoopState.split) := by
  have houtcome := (mastersSystem_isolated hseparate).run_outcome (fun _ => rfl) hothers hrun i
  rw [← run_soloToLoop] at houtcome
  exact houtcome

/-- Two masters with two reads each; the process image of the second one begins at byte 20. -/
def twoMasters : Bool → TModbusMasterConfiguration
  | false => twoReadsConfig
  | true => { twoReadsConfig with
    tModbusDeviceConfig := { twoReadsConfig.tModbusDeviceConfig with
      i32uDeviceStatusByteProcessImageOffset := 33
      i32uDeviceStatusResetByteProcessImageByteOffset := 34 }
    mbActionListHead := twoReadsConfig.mbActionListHead.map fun action => { action with
      i32uStartByteProcessData := action.i32uStartByteProcessData + 20
      i32uStatusByteProcessImageOffset := action.i32uStatusByteProcessImageOffset + 20
      i32uResetStatusProcessImageByteOffset :=
        action.i32uResetStatusProcessImageByteOffset + 20 } }

/-- Devices that do not answer, and a piControl that does not fail. -/
def silentSurroundings : Surroundings Unit where
  modbus _ d := ({ len := -1, errno := 110, data := [] }, d)
  piControl d := (none, d)

/-- The first action of both masters, in turns. -/
def inTurns : List (Label Bool Image LoopInput) :=
  [.start false (.connect true (fun _ => true) ⟨0, 0⟩),
   .start true (.connect true (fun _ => true) ⟨0, 0⟩), .call true, .call false,
   .start true .proceed, .start false .proceed, .start false .proceed, .start true .proceed,
   .call true, .call false, .start false .proceed, .call false, .start true .proceed, .call true,
   .start false .proceed, .call false, .start true .proceed, .call true, .call true, .call false]

theorem twoMasters_footprint {i : Bool} {k : ℕ}
    (h : Footprint silentSurroundings.toHost (twoMasters i) k) :
    k / 8 < 20 ↔ i = false := by
  cases i <;>
    simp [Footprint, twoMasters, twoReadsConfig, InDataWindow, TModbusAction.latch, deviceLatch,
      silentSurroundings, Surroundings.toHost] at h ⊢ <;> omega

theorem masters_isolated_twoMasters :
    ∃ g, run (interleavedStep (mastersSystem twoMasters fun _ => silentSurroundings))
        (mastersStart (fun _ => 0) fun _ => ()) inTurns = some g ∧
      Option.Rel (Alike (agreeOn (Footprint silentSurroundings.toHost (twoMasters true))))
        (g.outcome (mastersSystem twoMasters fun _ => silentSurroundings) true)
        ((run (loopStep silentSurroundings.toHost (twoMasters true))
          (LoopLocals.start.at (fun _ => 0, ()))
          (masterShare twoMasters (fun _ => silentSurroundings) (fun _ => 0) (fun _ => ()) inTurns
            true)).map LoopState.split) := by
  have hrun : (run (interleavedStep (mastersSystem twoMasters fun _ => silentSurroundings))
      (mastersStart (fun _ => 0) fun _ => ()) inTurns).isSome = true := by decide +kernel
  obtain ⟨g, hg⟩ := Option.isSome_iff_exists.mp hrun
  refine ⟨g, hg, masters_isolated ?_ _ _ _ ?_ hg true⟩
  · intro i j hij k hi hj
    have h := (twoMasters_footprint hi).symm.trans (twoMasters_footprint hj)
    cases i <;> cases j <;> simp at h hij
  · simp only [inTurns, Along, System.OthersKeep, true_and, implies_true]

end RevPiModbus
