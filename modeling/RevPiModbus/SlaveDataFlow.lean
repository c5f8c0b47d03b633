import RevPiModbus.ModbusSlaveThread

/-!
# The direction of the data of a slave

The process image has one window for the input registers of a slave and one for its holding
registers. Data go from the first to the clients, and from the clients to the second: the two lists
of function codes in `process_modbus_request` see to that.

* `AnsweringHost`: libmodbus as a slave, with the responses that it sends and the tables that it
  takes them from;
* `processModbusRequest_flow`: the data that one call moves;
* `writtenRegisters`: the registers as the clients of a run have written them;
* `slaveRun_oneWay`: the data that a run moves.
-/

namespace RevPiModbus

open ByteImage

variable {σ : Type}

/-- libmodbus as a slave, with the responses that have been sent, the last one first: what a
response contains, what the functions that read registers take from a table, and what a request
does to the holding registers. -/
structure AnsweringHost (σ : Type) extends SlaveHost σ where
  responses : σ → List (List UInt8)
  response : ModbusRequest → ℤ → ModbusMapping → List UInt8
  serveRegisters : ModbusRequest → ℤ → List UInt16 → List UInt8
  writeRegisters : ModbusRequest → ℤ → List UInt16 → List UInt16

/-- The function code of a request. -/
def AnsweringHost.functionCode (host : AnsweringHost σ) (req : ModbusRequest) : ℕ :=
  req[host.headerLength].toNat

/-- `modbus_reply` serves each function from its table, writes what the client has sent into the
holding registers, and leaves the tables of the inputs alone; nothing else sends a response. -/
structure AnsweringHost.Documented (host : AnsweringHost σ) : Prop
    extends SlaveHost.Documented host.toSlaveHost where
  apply_tabInputBits : ∀ req len m, (host.applyRequest req len m).tabInputBits = m.tabInputBits
  apply_tabInputRegisters : ∀ req len m,
    (host.applyRequest req len m).tabInputRegisters = m.tabInputRegisters
  apply_writes : ∀ req len m,
    (host.applyRequest req len m).tabRegisters = host.writeRegisters req len m.tabRegisters
  response_input : ∀ req len m, host.functionCode req = EModbusFunction.readInputRegisters.code →
    host.response req len m = host.serveRegisters req len m.tabInputRegisters
  response_holding : ∀ req len m,
    host.functionCode req = EModbusFunction.readHoldingRegisters.code →
    host.response req len m = host.serveRegisters req len m.tabRegisters
  send_responses : ∀ req len m s, host.responses (host.sendResponse req len m s).2 =
    if (host.sendResponse req len m s).1 = -1 then host.responses s
    else host.response req len m :: host.responses s
  receive_responses : ∀ s, host.responses (host.modbusReceive s).2 = host.responses s
  read_responses : ∀ a n s, host.responses (host.piControlRead a n s).2 = host.responses s
  write_responses : ∀ a d s, host.responses (host.piControlWrite a d s).2 = host.responses s

/-! ## The transfers -/

section Transfers

variable {host : Host σ} {mbMapping : ModbusMapping} {state : σ}

/-- The registers that the bytes of a window stand for. -/
def windowRegisters (img : Image) (offset : UInt32) (count : ℕ) : List UInt16 :=
  bytesRegisters (read img offset.toNat (2 * count))

theorem windowRegisters_length (img : Image) (offset : UInt32) (count : ℕ) :
    (windowRegisters img offset count).length = count :=
  bytesRegisters_length (read_length _ _)

/-- The mapping with the input registers that are in the process image. -/
def ModbusMapping.refreshed (mbMapping : ModbusMapping) (img : Image)
    (config : TProcessImageConfiguration) : ModbusMapping :=
  { mbMapping with
    tabInputRegisters :=
      windowRegisters img config.u32InputRegistersOffset mbMapping.tabInputRegisters.length }

/-- The registers part of the read replaces the input registers by their window. -/
theorem readInputRegisters_window (hhost : host.Succeeds) (mbMapping : ModbusMapping)
    (config : TProcessImageConfiguration) (successful : ℤ) (state : σ) :
    ∃ ret state', readInputRegisters host mbMapping config successful state =
      .ok (ret, mbMapping.refreshed (host.image state) config, state') ∧
      (state' = state ∨ ∃ a n, state' = (host.piControlRead a n state).2) := by
  rcases mbMapping with ⟨bits, inputBits, inputs, registers⟩
  have hlength := registerBytes_length inputs
  have hoverwrite : overwrite (registerBytes inputs)
      (host.piControlRead config.u32InputRegistersOffset (2 * inputs.length) state).1.2 =
      .ok (read (host.image state) config.u32InputRegistersOffset.toNat (2 * inputs.length)) := by
    rw [hhost.read_eq, overwrite_of (by rw [read_length, hlength]), read_length, ← hlength,
      List.drop_length, List.append_nil]
  unfold readInputRegisters
  by_cases hpos : inputs.length > 0
  · rw [if_pos hpos]
    simp only [hoverwrite, ok_bind, except_pure]
    exact ⟨_, _, rfl, .inr ⟨_, _, rfl⟩⟩
  · rw [if_neg hpos]
    obtain rfl : inputs = [] := List.length_eq_zero_iff.mp (by omega)
    exact ⟨_, _, rfl, .inl rfl⟩

/-- Without discrete inputs, the read replaces the input registers by their window. -/
theorem readModbusDataFromProcessImage_inputs (hhost : host.Succeeds)
    (config : TProcessImageConfiguration) (state : σ) (hbits : mbMapping.tabInputBits = []) :
    ∃ ret state', readModbusDataFromProcessImage host mbMapping config state =
      .ok (ret, mbMapping.refreshed (host.image state) config, state') ∧
      (state' = state ∨ ∃ a n, state' = (host.piControlRead a n state).2) := by
  have hnone : ¬ mbMapping.tabInputBits.length > 0 := by simp [hbits]
  unfold readModbusDataFromProcessImage
  rw [if_neg hnone]
  exact readInputRegisters_window hhost mbMapping config 0 state

/-- Without coils, the write goes to the window of the holding registers. -/
theorem writeModbusDataToProcessImage_holding (hhost : host.Succeeds)
    (config : TProcessImageConfiguration) (state : σ) (hbits : mbMapping.tabBits = []) :
    ∃ ret state', writeModbusDataToProcessImage host mbMapping config state = .ok (ret, state') ∧
      (∀ k, ¬ (config.u32HoldingRegistersInputOffset.toNat ≤ k ∧
        k < config.u32HoldingRegistersInputOffset.toNat + 2 * mbMapping.tabRegisters.length) →
        host.image state' k = host.image state k) ∧
      (state' = state ∨ ∃ a d, state' = (host.piControlWrite a d state).2) := by
  obtain ⟨ret, state', hwrite, himage⟩ := writeModbusDataToProcessImage_eq hhost config state hbits
  refine ⟨ret, state', hwrite, fun k hk => ?_, ?_⟩
  · rw [himage]
    exact write_of_notMem (by rwa [registerBytes_length])
  · unfold writeModbusDataToProcessImage writeHoldingRegisters at hwrite
    rw [hbits, if_neg (by simp)] at hwrite
    split_ifs at hwrite
    · exact .inr ⟨_, _, (congrArg Prod.snd (Except.ok.inj hwrite)).symm⟩
    · exact .inl (congrArg Prod.snd (Except.ok.inj hwrite)).symm

end Transfers

/-! ## One call -/

variable {host : AnsweringHost σ} {config : TModbusSlaveConfiguration} {mbMapping : ModbusMapping}
  {state : σ} {req : ModbusRequest} {len : ℤ}

/-- The byte is in the window of the holding registers. -/
def InHoldingWindow (config : TModbusSlaveConfiguration) (k : ℕ) : Prop :=
  config.tProcessImageConfig.u32HoldingRegistersInputOffset.toNat ≤ k ∧
    k < config.tProcessImageConfig.u32HoldingRegistersInputOffset.toNat +
      2 * config.tModbusDataConfig.u16HoldingRegisters.toNat

/-- The sizes of a mapping for registers only. -/
structure RegistersOnly (config : TModbusSlaveConfiguration) (m : ModbusMapping) : Prop where
  tabBits : m.tabBits = []
  tabInputBits : m.tabInputBits = []
  tabInputRegisters :
    m.tabInputRegisters.length = config.tModbusDataConfig.u16InputRegisters.toNat
  tabRegisters : m.tabRegisters.length = config.tModbusDataConfig.u16HoldingRegisters.toNat

theorem RegistersOnly.new (hcoils : config.tModbusDataConfig.u16Coils = 0)
    (hdiscrete : config.tModbusDataConfig.u16DiscreteInputs = 0) :
    RegistersOnly config (modbusMappingNew config.tModbusDataConfig) := by
  constructor <;> simp [modbusMappingNew, hcoils, hdiscrete]

theorem RegistersOnly.apply (h : RegistersOnly config mbMapping) (hhost : host.Documented)
    (req : ModbusRequest) (len : ℤ) :
    RegistersOnly config (host.applyRequest req len mbMapping) where
  tabBits := by
    rw [← List.length_eq_zero_iff, hhost.apply_tabBits_length, h.tabBits, List.length_nil]
  tabInputBits := by rw [hhost.apply_tabInputBits, h.tabInputBits]
  tabInputRegisters := by rw [hhost.apply_tabInputRegisters, h.tabInputRegisters]
  tabRegisters := by rw [hhost.apply_tabRegisters_length, h.tabRegisters]

theorem RegistersOnly.refreshed (h : RegistersOnly config mbMapping) (img : Image) :
    RegistersOnly config (mbMapping.refreshed img config.tProcessImageConfig) where
  tabBits := h.tabBits
  tabInputBits := h.tabInputBits
  tabInputRegisters := (windowRegisters_length _ _ _).trans h.tabInputRegisters
  tabRegisters := h.tabRegisters

/-- The responses after a reply: as before, or one more. -/
def Responds (host : AnsweringHost σ) (response : List UInt8) (state state' : σ) : Prop :=
  host.responses state' = host.responses state ∨
    host.responses state' = response :: host.responses state

/-- From the reply on: the request has been taken into the mapping, the response is that of the
mapping, and only the window of the holding registers has changed. -/
theorem answerRequest_flow (hhost : host.Documented) (h : RegistersOnly config mbMapping)
    (req : ModbusRequest) (len : ℤ) (state : σ) :
    ∃ ret state', answerRequest host.toSlaveHost config req len mbMapping state =
        .ok (ret, host.applyRequest req len mbMapping, state') ∧
      (∀ k, ¬ InHoldingWindow config k → host.image state' k = host.image state k) ∧
      Responds host (host.response req len (host.applyRequest req len mbMapping)) state state' := by
  have happlied := h.apply hhost req len
  have himage := hhost.send_image req len (host.applyRequest req len mbMapping) state
  have hresponses := hhost.send_responses req len (host.applyRequest req len mbMapping) state
  unfold answerRequest
  simp only [modbusReply, except_pure]
  by_cases hfail :
      (host.sendResponse req len (host.applyRequest req len mbMapping) state).1 = -1
  · simp only [hfail, if_true]
    rw [if_pos hfail] at hresponses
    exact ⟨_, _, rfl, fun k _ => by rw [himage], .inl hresponses⟩
  · simp only [hfail, if_false]
    rw [if_neg hfail] at hresponses
    by_cases hwrites : writesProcessImage req[host.headerLength] = true
    · obtain ⟨ret, state', hwrite, hwindow, hstate'⟩ := writeModbusDataToProcessImage_holding
        hhost.toSucceeds config.tProcessImageConfig
        (host.sendResponse req len (host.applyRequest req len mbMapping) state).2 happlied.tabBits
      rw [if_pos hwrites, hwrite, ok_bind]
      refine ⟨_, _, rfl, fun k hk => ?_, .inr ?_⟩
      · rw [happlied.tabRegisters] at hwindow
        rw [hwindow k hk, himage]
      · rcases hstate' with rfl | ⟨a, d, rfl⟩
        · exact hresponses
        · rw [hhost.write_responses, hresponses]
    · rw [if_neg hwrites]
      exact ⟨_, _, rfl, fun k _ => by rw [himage], .inr hresponses⟩

/-- The request that a call finds, with its length. -/
def receivedRequest (host : AnsweringHost σ) (state : σ) : Option (ModbusRequest × ℤ) :=
  let ((len, req), _) := host.modbusReceive state
  if len > 0 then some (req, len) else none

/-- What a request makes of the holding registers. -/
def registersAfter (host : AnsweringHost σ) (registers : List UInt16)
    (request : Option (ModbusRequest × ℤ)) : List UInt16 :=
  match request with
  | some (req, len) =>
    if writesRegisters req[host.headerLength] then host.writeRegisters req len registers
    else registers
  | none => registers

/-- The data that a call of `process_modbus_request` moves: the input registers that it sends are
those in the process image, the holding registers that it sends are those in the mapping, the
request alone changes these, and the process image changes in their window alone. -/
structure OneWay (host : AnsweringHost σ) (config : TModbusSlaveConfiguration)
    (before : ModbusMapping × σ) (after : ModbusMapping × σ) : Prop where
  input : ∀ req len, receivedRequest host before.2 = some (req, len) →
    host.functionCode req = EModbusFunction.readInputRegisters.code →
    Responds host (host.serveRegisters req len (windowRegisters (host.image before.2)
      config.tProcessImageConfig.u32InputRegistersOffset
      config.tModbusDataConfig.u16InputRegisters.toNat)) before.2 after.2
  holding : ∀ req len, receivedRequest host before.2 = some (req, len) →
    host.functionCode req = EModbusFunction.readHoldingRegisters.code →
    Responds host (host.serveRegisters req len before.1.tabRegisters) before.2 after.2
  registers : after.1.tabRegisters =
    registersAfter host before.1.tabRegisters (receivedRequest host before.2)
  window : ∀ k, ¬ InHoldingWindow config k → host.image after.2 k = host.image before.2 k

theorem readsProcessImage_of_readInputRegisters
    (h : host.functionCode req = EModbusFunction.readInputRegisters.code) :
    readsProcessImage req[host.headerLength] = true := by
  unfold AnsweringHost.functionCode at h
  unfold readsProcessImage
  rw [h]
  rfl

theorem not_writesRegisters_of_readHoldingRegisters
    (h : host.functionCode req = EModbusFunction.readHoldingRegisters.code) :
    writesRegisters req[host.headerLength] = false := by
  unfold AnsweringHost.functionCode at h
  unfold writesRegisters
  rw [h]
  rfl

/-- The registers of the mapping after a request. -/
theorem applyRequest_tabRegisters (hhost : host.Documented) (req : ModbusRequest) (len : ℤ)
    (m : ModbusMapping) : (host.applyRequest req len m).tabRegisters =
      registersAfter host m.tabRegisters (some (req, len)) := by
  unfold registersAfter
  dsimp only
  split_ifs with hwrites
  · exact hhost.apply_writes req len m
  · exact hhost.apply_tabRegisters req len m (Bool.not_eq_true _ ▸ hwrites)

/-- A call that answers from a mapping with the same holding registers and, for a request of input
registers, with those of the process image. -/
theorem oneWay_of_answer (hhost : host.Documented) {served : ModbusMapping} {s state' : σ}
    (hrequest : receivedRequest host state = some (req, len))
    (hregisters : served.tabRegisters = mbMapping.tabRegisters)
    (hinputs : host.functionCode req = EModbusFunction.readInputRegisters.code →
      served.tabInputRegisters = windowRegisters (host.image state)
        config.tProcessImageConfig.u32InputRegistersOffset
        config.tModbusDataConfig.u16InputRegisters.toNat)
    (himage : host.image s = host.image state)
    (hresponses : host.responses s = host.responses state)
    (hwindow : ∀ k, ¬ InHoldingWindow config k → host.image state' k = host.image s k)
    (hresponds :
      Responds host (host.response req len (host.applyRequest req len served)) s state') :
    OneWay host config (mbMapping, state) (host.applyRequest req len served, state') := by
  unfold Responds at hresponds
  rw [hresponses] at hresponds
  refine ⟨fun req' len' hrequest' hfc => ?_, fun req' len' hrequest' hfc => ?_, ?_,
    fun k hk => (hwindow k hk).trans (by rw [himage])⟩
  · obtain ⟨rfl, rfl⟩ := Prod.mk.inj (Option.some.inj (hrequest.symm.trans hrequest'))
    rw [hhost.response_input req len _ hfc, hhost.apply_tabInputRegisters, hinputs hfc] at hresponds
    exact hresponds
  · obtain ⟨rfl, rfl⟩ := Prod.mk.inj (Option.some.inj (hrequest.symm.trans hrequest'))
    have hkeeps := hhost.apply_tabRegisters req len served
      (not_writesRegisters_of_readHoldingRegisters hfc)
    rw [hhost.response_holding req len _ hfc, hkeeps, hregisters] at hresponds
    exact hresponds
  · show (host.applyRequest req len served).tabRegisters =
      registersAfter host mbMapping.tabRegisters (receivedRequest host state)
    rw [applyRequest_tabRegisters hhost, hregisters, hrequest]

/-- Every call of `process_modbus_request` moves the data one way. -/
theorem processModbusRequest_flow (hhost : host.Documented) (h : RegistersOnly config mbMapping)
    (state : σ) :
    ∃ ret mbMapping' state', processModbusRequest host.toSlaveHost config mbMapping state =
        .ok (ret, mbMapping', state') ∧ RegistersOnly config mbMapping' ∧
      OneWay host config (mbMapping, state) (mbMapping', state') := by
  have himage := hhost.receive_image state
  have hresponses := hhost.receive_responses state
  unfold processModbusRequest
  rcases hreq : host.modbusReceive state with ⟨⟨len, req⟩, received⟩
  rw [hreq] at himage hresponses
  dsimp only at himage hresponses
  simp only [except_pure]
  by_cases hlen : len > 0
  · have hrequest : receivedRequest host state = some (req, len) := by
      unfold receivedRequest
      rw [hreq]
      exact if_pos hlen
    rw [if_pos hlen]
    by_cases hreads : readsProcessImage req[host.headerLength] = true
    · obtain ⟨ret₀, s, hread, hs⟩ := readModbusDataFromProcessImage_inputs hhost.toSucceeds
        config.tProcessImageConfig received h.tabInputBits
      have hsImage : host.image s = host.image received := by
        rcases hs with rfl | ⟨a, n, rfl⟩
        · rfl
        · exact hhost.read_image a n received
      have hsResponses : host.responses s = host.responses received := by
        rcases hs with rfl | ⟨a, n, rfl⟩
        · rfl
        · exact hhost.read_responses a n received
      -- the request is answered from the mapping behind the read
      have hm := h.refreshed (host.image received)
      obtain ⟨ret, state', hanswer, hwindow, hresponds⟩ := answerRequest_flow hhost hm req len s
      rw [if_pos hreads, hread, ok_bind]
      refine ⟨ret, _, state', hanswer, hm.apply hhost req len,
        oneWay_of_answer hhost hrequest rfl (fun _ => ?_) (hsImage.trans himage)
          (hsResponses.trans hresponses) hwindow hresponds⟩
      rw [← himage, ← h.tabInputRegisters]
      rfl
    · -- the input registers of the mapping may be old here, but they are not asked for
      obtain ⟨ret, state', hanswer, hwindow, hresponds⟩ :=
        answerRequest_flow hhost h req len received
      rw [if_neg hreads]
      refine ⟨ret, _, state', hanswer, h.apply hhost req len,
        oneWay_of_answer hhost hrequest rfl (fun hfc => ?_) himage hresponses hwindow hresponds⟩
      exact absurd (readsProcessImage_of_readInputRegisters hfc) hreads
  · have hrequest : receivedRequest host state = none := by
      unfold receivedRequest
      rw [hreq]
      exact if_neg hlen
    rw [if_neg hlen]
    refine ⟨if len = -1 then -1 else 0, mbMapping, received, ?_, h,
      ⟨fun req' len' hrequest' => ?_, fun req' len' hrequest' => ?_, ?_, fun k _ => ?_⟩⟩
    · split_ifs <;> rfl
    · cases hrequest.symm.trans hrequest'
    · cases hrequest.symm.trans hrequest'
    · show mbMapping.tabRegisters = registersAfter host _ (receivedRequest host state)
      rw [hrequest]
      rfl
    · rw [himage]

/-! ## Runs -/

/-- The holding registers as the clients have written them with the requests of the first calls of
a run; the process image has no part in it. -/
def writtenRegisters (host : AnsweringHost σ) (config : TModbusSlaveConfiguration)
    (request : ℕ → Option (ModbusRequest × ℤ)) : ℕ → List UInt16
  | 0 => List.replicate config.tModbusDataConfig.u16HoldingRegisters.toNat 0
  | n + 1 => registersAfter host (writtenRegisters host config request n) (request n)

/-- **The data of a slave flow one way per area.** In every run of a slave with any numbers of
registers, over any requests: every response to a request of input registers is served from the
bytes of their window in the process image at that call; every response to a request of holding
registers is served from the values that the clients have written until then; and no call changes
a byte of the process image outside the window of the holding registers. -/
theorem slaveRun_oneWay (hhost : host.Documented)
    (hcoils : config.tModbusDataConfig.u16Coils = 0)
    (hdiscrete : config.tModbusDataConfig.u16DiscreteInputs = 0) (environment : ℕ → σ → σ)
    (state : σ) :
    ∃ run : ℕ → ModbusMapping × σ,
      (∀ n, slaveRun host.toSlaveHost config environment state n = .ok (run n)) ∧
      (∀ n, (run n).1.tabRegisters = writtenRegisters host config
        (fun i => receivedRequest host (environment i (run i).2)) n) ∧
      ∀ n, OneWay host config ((run n).1, environment n (run n).2) (run (n + 1)) := by
  have hexists : ∀ n, ∃ x : ModbusMapping × σ,
      slaveRun host.toSlaveHost config environment state n = .ok x ∧ RegistersOnly config x.1 := by
    intro n
    induction n with
    | zero => exact ⟨_, rfl, .new hcoils hdiscrete⟩
    | succ n ih =>
      obtain ⟨⟨m, s⟩, hrun, hm⟩ := ih
      obtain ⟨ret, m', s', hprocess, hm', -⟩ :=
        processModbusRequest_flow hhost hm (environment n s)
      exact ⟨(m', s'), slaveRun_succ hrun hprocess, hm'⟩
  -- the sizes of the tables are an invariant, so that the run never stops
  choose run hrun hsizes using hexists
  have hstep : ∀ n, OneWay host config ((run n).1, environment n (run n).2) (run (n + 1)) := by
    intro n
    obtain ⟨ret, m', s', hprocess, -, hflow⟩ :=
      processModbusRequest_flow hhost (hsizes n) (environment n (run n).2)
    have hnext : run (n + 1) = (m', s') :=
      Except.ok.inj ((hrun (n + 1)).symm.trans (slaveRun_succ (hrun n) hprocess))
    rw [hnext]
    exact hflow
  refine ⟨run, hrun, fun n => ?_, hstep⟩
  induction n with
  | zero =>
    have hzero := Except.ok.inj (hrun 0)
    rw [← hzero]
    rfl
  | succ n ih =>
    rw [(hstep n).registers, ih]
    rfl

/-- A host whose states have another part, which its calls leave alone. -/
def Host.extended {ρ : Type} (host : Host σ) : Host (σ × ρ) where
  image s := host.image s.1
  bitPosition := host.bitPosition
  piControlRead a n s := ((host.piControlRead a n s.1).1, (host.piControlRead a n s.1).2, s.2)
  piControlWrite a d s := ((host.piControlWrite a d s.1).1, (host.piControlWrite a d s.1).2, s.2)
  piControlSetBitValue v s :=
    ((host.piControlSetBitValue v s.1).1, (host.piControlSetBitValue v s.1).2, s.2)
  piControlGetBitValue v s :=
    ((host.piControlGetBitValue v s.1).1, (host.piControlGetBitValue v s.1).2, s.2)
  modbus c s := ((host.modbus c s.1).1, (host.modbus c s.1).2, s.2)

theorem Host.Succeeds.extended {ρ : Type} {host : Host σ} (h : host.Succeeds) :
    (host.extended (ρ := ρ)).Succeeds where
  read_data a n s := h.read_data a n s.1
  modbus_data c s := h.modbus_data c s.1
  bitPosition_eq := h.bitPosition_eq
  read_ret a n s := h.read_ret a n s.1
  read_eq a n s := h.read_eq a n s.1
  read_image a n s := h.read_image a n s.1
  write_ret a d s := h.write_ret a d s.1
  write_image a d s := h.write_image a d s.1
  setBit_ret v s := h.setBit_ret v s.1
  setBit_image v s := h.setBit_image v s.1
  getBit_ret v s := h.getBit_ret v s.1
  getBit_eq v s := h.getBit_eq v s.1
  getBit_image v s := h.getBit_image v s.1
  modbus_image c s := h.modbus_image c s.1

/-- The response of libmodbus to a request that reads registers. -/
def registersResponse (req : ModbusRequest) (tab : List UInt16) : List UInt8 :=
  let address := (pduByte req 1).toNat * 256 + (pduByte req 2).toNat
  let nb := (pduByte req 3).toNat * 256 + (pduByte req 4).toNat
  pduByte req 0 :: UInt8.ofNat (2 * nb) ::
    ((tab.drop address).take nb).flatMap fun register : UInt16 =>
      [(register >>> 8).toUInt8, register.toUInt8]

/-- A slave that is sent the request `req` again and again. -/
def answeringHost (req : ModbusRequest) : AnsweringHost (Image × List (List UInt8)) where
  toHost := (imageHost fun _ => { len := 0, errno := 0, data := [] }).extended
  headerLength := tcpHeaderLength
  modbusReceive s := ((12, req), s)
  applyRequest req _ m := applyWriteSingleRegister req m
  sendResponse req _ m s :=
    (12, s.1, (if req.get tcpHeaderLength = 4 then registersResponse req m.tabInputRegisters
      else registersResponse req m.tabRegisters) :: s.2)
  responses s := s.2
  response req _ m :=
    if req.get tcpHeaderLength = 4 then registersResponse req m.tabInputRegisters
    else registersResponse req m.tabRegisters
  serveRegisters req _ tab := registersResponse req tab
  writeRegisters req _ registers := (applyWriteSingleRegister req
    { tabBits := [], tabInputBits := [], tabInputRegisters := [],
      tabRegisters := registers }).tabRegisters

/-- Only the function code 6 changes a table, and that table is the one of the holding registers. -/
theorem applyWriteSingleRegister_eq (req : ModbusRequest) (m : ModbusMapping) :
    ∃ registers, applyWriteSingleRegister req m = { m with tabRegisters := registers } ∧
      registers.length = m.tabRegisters.length ∧
      (req.get tcpHeaderLength ≠ 6 → registers = m.tabRegisters) := by
  unfold applyWriteSingleRegister
  split_ifs with hsix
  · exact ⟨_, rfl, List.length_set, fun hne => absurd hsix hne⟩
  · exact ⟨m.tabRegisters, rfl, rfl, fun _ => rfl⟩

theorem answeringHost_documented (req : ModbusRequest) : (answeringHost req).Documented where
  toSucceeds := (imageHost_succeeds fun c => by simp).extended
  apply_tabBits_length req len m := by
    obtain ⟨registers, happly, -⟩ := applyWriteSingleRegister_eq req m
    exact congrArg (fun m => m.tabBits.length) happly
  apply_tabRegisters_length req len m := by
    obtain ⟨registers, happly, hlength, -⟩ := applyWriteSingleRegister_eq req m
    exact (congrArg (fun m => m.tabRegisters.length) happly).trans hlength
  apply_tabRegisters req len m h := by
    obtain ⟨registers, happly, -, hkeeps⟩ := applyWriteSingleRegister_eq req m
    refine (congrArg ModbusMapping.tabRegisters happly).trans (hkeeps fun hsix => ?_)
    change writesRegisters (req.get tcpHeaderLength) = false at h
    rw [hsix] at h
    exact absurd h (by decide)
  receive_image _ := rfl
  send_image _ _ _ _ := rfl
  apply_tabInputBits req len m := by
    obtain ⟨registers, happly, -⟩ := applyWriteSingleRegister_eq req m
    show (applyWriteSingleRegister req m).tabInputBits = _
    rw [happly]
  apply_tabInputRegisters req len m := by
    obtain ⟨registers, happly, -⟩ := applyWriteSingleRegister_eq req m
    show (applyWriteSingleRegister req m).tabInputRegisters = _
    rw [happly]
  apply_writes req len m := by
    show (applyWriteSingleRegister req m).tabRegisters =
      (applyWriteSingleRegister req _).tabRegisters
    unfold applyWriteSingleRegister
    split_ifs <;> rfl
  response_input req len m hfc := by
    refine if_pos (UInt8.toNat_inj.mp ?_)
    exact hfc
  response_holding req len m hfc := by
    refine if_neg fun hfour => ?_
    have hthree : (req.get tcpHeaderLength).toNat = 3 := hfc
    rw [hfour] at hthree
    exact absurd hthree (by decide)
  send_responses req len m s := by
    rw [if_neg (by show ¬ (12 : ℤ) = -1; decide)]
    rfl
  receive_responses _ := rfl
  read_responses _ _ _ := rfl
  write_responses _ _ _ := rfl

/-- The request for the input register at address 0. -/
def readInputRequest : ModbusRequest :=
  Vector.ofFn fun i => ([0, 1, 0, 0, 0, 6, 1, 4, 0, 0, 0, 1] : List UInt8)[i.val]?.getD 0

/-- A slave with one register of each kind. -/
def twoRegistersConfig : TModbusSlaveConfiguration :=
  { oneRegisterConfig with
    tModbusDataConfig :=
      { u16DiscreteInputs := 0, u16Coils := 0, u16InputRegisters := 1, u16HoldingRegisters := 1 } }

/-- The slave, and a client that reads the input register while it
counts up. -/
theorem slaveRun_oneWay_counting :
    ∃ run : ℕ → ModbusMapping × Image × List (List UInt8),
      (∀ n, slaveRun (answeringHost readInputRequest).toSlaveHost twoRegistersConfig
        (fun _ s => (write s.1 2 [s.1 2 + 1], s.2)) (fun _ => 0, []) n = .ok (run n)) ∧
      (∀ n, (run n).1.tabRegisters = writtenRegisters (answeringHost readInputRequest)
        twoRegistersConfig (fun i => receivedRequest (answeringHost readInputRequest)
          (write (run i).2.1 2 [(run i).2.1 2 + 1], (run i).2.2)) n) ∧
      ∀ n, OneWay (answeringHost readInputRequest) twoRegistersConfig
        ((run n).1, write (run n).2.1 2 [(run n).2.1 2 + 1], (run n).2.2) (run (n + 1)) :=
  slaveRun_oneWay (answeringHost_documented readInputRequest) rfl rfl
    (fun _ s => (write s.1 2 [s.1 2 + 1], s.2)) (fun _ => 0, [])

end RevPiModbus
