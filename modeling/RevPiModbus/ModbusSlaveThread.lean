import RevPiModbus.PiProcessImageAccess

/-!
# The threads of a Modbus slave

`ModbusSlaveThread.c`: both kinds of slave thread call `process_modbus_request` again and again,
for one connection or another. libmodbus keeps the data of the slave in the mapping and applies
the requests to it; the function copies the data between the mapping and the process image.

* `SlaveHost`: libmodbus as a slave, whose `modbus_reply` first applies the request to the mapping
  and then sends the response;
* `processModbusRequest`, and `slaveRun`, the first calls of a thread;
* `LosesWrite`: a request that the mapping has taken and whose response cannot be sent;
* `slaveRun_coherent_iff`: the process image follows the holding registers in exactly the runs
  without such a request.
-/

namespace RevPiModbus

open ByteImage

/-- `MODBUS_TCP_MAX_ADU_LENGTH` of libmodbus, the size of the request buffer. -/
def modbusTcpMaxAduLength : ℕ := 260

/-- The request buffer. -/
abbrev ModbusRequest := Vector UInt8 modbusTcpMaxAduLength

/-- libmodbus as a slave, next to piControl: `modbus_get_header_length`, `modbus_receive` and the
two parts of `modbus_reply`. -/
structure SlaveHost (σ : Type) extends Host σ where
  headerLength : Fin modbusTcpMaxAduLength
  modbusReceive : σ → (ℤ × ModbusRequest) × σ
  applyRequest : ModbusRequest → ℤ → ModbusMapping → ModbusMapping
  sendResponse : ModbusRequest → ℤ → ModbusMapping → σ → ℤ × σ

variable {σ : Type}

/-- `modbus_reply`. -/
def modbusReply (host : SlaveHost σ) (req : ModbusRequest) (len : ℤ) (mbMapping : ModbusMapping)
    (state : σ) : ℤ × ModbusMapping × σ :=
  let mbMapping := host.applyRequest req len mbMapping
  let (ret, state) := host.sendResponse req len mbMapping state
  (ret, mbMapping, state)

/-- The function codes after which the mapping is written to the process image. -/
def writesProcessImage (mbFunctionCode : UInt8) : Bool :=
  mbFunctionCode.toNat == EModbusFunction.writeMultipleCoils.code ||
  mbFunctionCode.toNat == EModbusFunction.writeMultipleRegisters.code ||
  mbFunctionCode.toNat == EModbusFunction.writeSingleCoil.code ||
  mbFunctionCode.toNat == EModbusFunction.writeSingleRegister.code ||
  mbFunctionCode.toNat == EModbusFunction.writeAndReadRegisters.code ||
  mbFunctionCode.toNat == EModbusFunction.writeMaskRegister.code

/-- The function codes before which the mapping is read from the process image. -/
def readsProcessImage (mbFunctionCode : UInt8) : Bool :=
  mbFunctionCode.toNat == EModbusFunction.readInputRegisters.code ||
  mbFunctionCode.toNat == EModbusFunction.readDiscreteInputs.code

/-- The part of `process_modbus_request` from the reply on. -/
def answerRequest (host : SlaveHost σ) (config : TModbusSlaveConfiguration) (req : ModbusRequest)
    (len : ℤ) (mbMapping : ModbusMapping) (state : σ) : Except Fault (ℤ × ModbusMapping × σ) := do
  let (len, mbMapping, state) := modbusReply host req len mbMapping state
  if len = -1 then
    return (-1, mbMapping, state)
  else if writesProcessImage req[host.headerLength] then
    let (_, state) ←
      writeModbusDataToProcessImage host.toHost mbMapping config.tProcessImageConfig state
    return (0, mbMapping, state)
  else
    return (0, mbMapping, state)

/-- `process_modbus_request`. -/
def processModbusRequest (host : SlaveHost σ) (config : TModbusSlaveConfiguration)
    (mbMapping : ModbusMapping) (state : σ) : Except Fault (ℤ × ModbusMapping × σ) := do
  let ((len, req), state) := host.modbusReceive state
  if len > 0 then
    if readsProcessImage req[host.headerLength] then
      let (_, mbMapping, state) ←
        readModbusDataFromProcessImage host.toHost mbMapping config.tProcessImageConfig state
      answerRequest host config req len mbMapping state
    else
      answerRequest host config req len mbMapping state
  else if len = -1 then
    return (-1, mbMapping, state)
  else
    return (0, mbMapping, state)

/-- The mapping and the state after the first calls of `process_modbus_request`. Before the call
number `n`, `environment n` stands for everything else: the other devices, and the connections
that are accepted, selected and closed. -/
def slaveRun (host : SlaveHost σ) (config : TModbusSlaveConfiguration) (environment : ℕ → σ → σ)
    (state : σ) : ℕ → Except Fault (ModbusMapping × σ)
  | 0 => .ok (modbusMappingNew config.tModbusDataConfig, state)
  | n + 1 => do
    let (mbMapping, state) ← slaveRun host config environment state n
    let (_, mbMapping, state) ← processModbusRequest host config mbMapping (environment n state)
    return (mbMapping, state)

/-! ## What is known of libmodbus -/

/-- The function codes of the requests that write registers. -/
def writesRegisters (mbFunctionCode : UInt8) : Bool :=
  mbFunctionCode.toNat == EModbusFunction.writeSingleRegister.code ||
  mbFunctionCode.toNat == EModbusFunction.writeMultipleRegisters.code ||
  mbFunctionCode.toNat == EModbusFunction.writeMaskRegister.code ||
  mbFunctionCode.toNat == EModbusFunction.writeAndReadRegisters.code

theorem writesProcessImage_of_writesRegisters {mbFunctionCode : UInt8}
    (h : writesRegisters mbFunctionCode = true) : writesProcessImage mbFunctionCode = true := by
  unfold writesRegisters at h
  unfold writesProcessImage
  simp only [Bool.or_eq_true] at h ⊢
  tauto

/-- piControl succeeds; libmodbus keeps the sizes of its tables, changes registers only on
requests that write registers, and leaves the process image alone. -/
structure SlaveHost.Documented (host : SlaveHost σ) : Prop extends Host.Succeeds host.toHost where
  apply_tabBits_length : ∀ req len m,
    (host.applyRequest req len m).tabBits.length = m.tabBits.length
  apply_tabRegisters_length : ∀ req len m,
    (host.applyRequest req len m).tabRegisters.length = m.tabRegisters.length
  apply_tabRegisters : ∀ (req : ModbusRequest) len m,
    writesRegisters req[host.headerLength] = false →
    (host.applyRequest req len m).tabRegisters = m.tabRegisters
  receive_image : ∀ s, host.image (host.modbusReceive s).2 = host.image s
  send_image : ∀ req len m s, host.image (host.sendResponse req len m s).2 = host.image s

/-- The holding registers of the mapping are the bytes of their window in the process image. -/
def Coherent (host : Host σ) (config : TModbusSlaveConfiguration) (x : ModbusMapping × σ) : Prop :=
  read (host.image x.2) config.tProcessImageConfig.u32HoldingRegistersInputOffset.toNat
    (2 * x.1.tabRegisters.length) = registerBytes x.1.tabRegisters

/-- From the first call that changes the holding registers on, the process image agrees with them
after every call. -/
def CoherentRun (host : Host σ) (config : TModbusSlaveConfiguration)
    (run : ℕ → ModbusMapping × σ) : Prop :=
  ∀ n, (∃ m ≤ n, (run (m + 1)).1.tabRegisters ≠ (run m).1.tabRegisters) →
    Coherent host config (run (n + 1))

/-- The request that is waiting changes the holding registers, its response cannot be sent, and
the process image does not happen to hold the new values. -/
def LosesWrite (host : SlaveHost σ) (config : TModbusSlaveConfiguration) (mbMapping : ModbusMapping)
    (state : σ) : Prop :=
  let ((len, req), received) := host.modbusReceive state
  let mbMapping' := host.applyRequest req len mbMapping
  0 < len ∧ mbMapping'.tabRegisters ≠ mbMapping.tabRegisters ∧
    (host.sendResponse req len mbMapping' received).1 = -1 ∧
    ¬ Coherent host.toHost config (mbMapping', state)

/-! ## One request -/

variable {host : SlaveHost σ} {mbMapping : ModbusMapping}

theorem not_writes_of_readsProcessImage {mbFunctionCode : UInt8}
    (h : readsProcessImage mbFunctionCode = true) :
    writesRegisters mbFunctionCode = false ∧ writesProcessImage mbFunctionCode = false := by
  simp only [readsProcessImage, Bool.or_eq_true, beq_iff_eq, EModbusFunction.code] at h
  simp only [writesRegisters, writesProcessImage, Bool.or_eq_false_iff, beq_eq_false_iff_ne,
    EModbusFunction.code]
  omega

theorem coherent_write (img : Image) (a : ℕ) (tab : List UInt16) :
    read (write img a (registerBytes tab)) a (2 * tab.length) = registerBytes tab := by
  rw [← registerBytes_length]
  exact read_write a _

theorem coherent_congr {host : Host σ} {config : TModbusSlaveConfiguration}
    {mbMapping' : ModbusMapping} {state state' : σ}
    (hregs : mbMapping'.tabRegisters = mbMapping.tabRegisters)
    (himg : host.image state' = host.image state) :
    Coherent host config (mbMapping', state') ↔ Coherent host config (mbMapping, state) := by
  unfold Coherent
  rw [hregs, himg]

/-- The reply takes the request into the mapping. When the response is sent, the process image
agrees with the registers afterwards, unless the request was not about registers. -/
theorem answerRequest_cases (hhost : host.Documented) (config : TModbusSlaveConfiguration)
    (req : ModbusRequest) (len : ℤ) (state : σ) (hbits : mbMapping.tabBits = []) :
    ∃ ret mbMapping' state',
      answerRequest host config req len mbMapping state = .ok (ret, mbMapping', state') ∧
      mbMapping'.tabBits = [] ∧
      mbMapping'.tabRegisters = (host.applyRequest req len mbMapping).tabRegisters ∧
      ((host.sendResponse req len (host.applyRequest req len mbMapping) state).1 = -1 →
        host.image state' = host.image state) ∧
      ((host.sendResponse req len (host.applyRequest req len mbMapping) state).1 ≠ -1 →
        Coherent host.toHost config (mbMapping', state') ∨
          mbMapping'.tabRegisters = mbMapping.tabRegisters ∧
            host.image state' = host.image state) := by
  have hnil : (host.applyRequest req len mbMapping).tabBits = [] := by
    rw [← List.length_eq_zero_iff, hhost.apply_tabBits_length, hbits, List.length_nil]
  have hsent := hhost.send_image req len (host.applyRequest req len mbMapping) state
  unfold answerRequest
  simp only [modbusReply, except_pure]
  by_cases hfail : (host.sendResponse req len (host.applyRequest req len mbMapping) state).1 = -1
  · simp only [hfail, if_true]
    exact ⟨_, _, _, rfl, hnil, rfl, fun _ => hsent, fun h => absurd rfl h⟩
  · simp only [hfail, if_false]
    by_cases hwrites : writesProcessImage req[host.headerLength] = true
    · obtain ⟨ret, state', hwrite, himg⟩ := writeModbusDataToProcessImage_eq hhost.toSucceeds
        config.tProcessImageConfig
        (host.sendResponse req len (host.applyRequest req len mbMapping) state).2 hnil
      rw [if_pos hwrites, hwrite, ok_bind]
      refine ⟨_, _, _, rfl, hnil, rfl, fun h => h.elim, fun _ => Or.inl ?_⟩
      unfold Coherent
      rw [himg]
      exact coherent_write _ _ _
    · rw [if_neg hwrites]
      have hregs : writesRegisters req[host.headerLength] = false := by
        by_contra h
        exact hwrites (writesProcessImage_of_writesRegisters (Bool.not_eq_false _ ▸ h))
      exact ⟨_, _, _, rfl, hnil, rfl, fun h => h.elim,
        fun _ => Or.inr ⟨hhost.apply_tabRegisters req len mbMapping hregs, hsent⟩⟩

/-- What a call of `process_modbus_request` can do: it leaves the process image in agreement with
the registers, or changes neither, or loses a write. -/
theorem processModbusRequest_cases (hhost : host.Documented) (config : TModbusSlaveConfiguration)
    (state : σ) (hbits : mbMapping.tabBits = []) :
    ∃ ret mbMapping' state',
      processModbusRequest host config mbMapping state = .ok (ret, mbMapping', state') ∧
      mbMapping'.tabBits = [] ∧
      mbMapping'.tabRegisters.length = mbMapping.tabRegisters.length ∧
      (¬ LosesWrite host config mbMapping state →
        Coherent host.toHost config (mbMapping', state') ∨
          mbMapping'.tabRegisters = mbMapping.tabRegisters ∧
            host.image state' = host.image state) ∧
      (LosesWrite host config mbMapping state →
        mbMapping'.tabRegisters ≠ mbMapping.tabRegisters ∧
          ¬ Coherent host.toHost config (mbMapping', state')) := by
  have hreceive := hhost.receive_image state
  unfold processModbusRequest LosesWrite
  rcases hreq : host.modbusReceive state with ⟨⟨len, req⟩, received⟩
  rw [hreq] at hreceive
  simp only [except_pure] at hreceive ⊢
  by_cases hlen : len > 0
  · rw [if_pos hlen]
    by_cases hreads : readsProcessImage req[host.headerLength] = true
    · -- a request that reads inputs changes no register
      have hregs := (not_writes_of_readsProcessImage hreads).1
      obtain ⟨ret₀, m, s, hread, hmbits, hmregs, himg⟩ := readModbusDataFromProcessImage_eq
        hhost.toSucceeds mbMapping config.tProcessImageConfig received
      obtain ⟨ret, m', s', hanswer, hnil, hmapping, hfail, hsent⟩ := answerRequest_cases
        hhost config req len s (hmbits.trans hbits)
      rw [if_pos hreads, hread, ok_bind]
      have hkeep := (hmapping.trans (hhost.apply_tabRegisters req len m hregs)).trans hmregs
      refine ⟨ret, m', s', hanswer, hnil, congrArg List.length hkeep, fun _ => ?_,
        fun hloses => absurd (hhost.apply_tabRegisters req len mbMapping hregs) hloses.2.1⟩
      by_cases h : (host.sendResponse req len (host.applyRequest req len m) s).1 = -1
      · exact Or.inr ⟨hkeep, (hfail h).trans (himg.trans hreceive)⟩
      · obtain hcoh | ⟨-, himg'⟩ := hsent h
        · exact Or.inl hcoh
        · exact Or.inr ⟨hkeep, himg'.trans (himg.trans hreceive)⟩
    · obtain ⟨ret, m', s', hanswer, hnil, hmapping, hfail, hsent⟩ := answerRequest_cases
        hhost config req len received hbits
      rw [if_neg hreads]
      refine ⟨ret, m', s', hanswer, hnil,
        (congrArg List.length hmapping).trans (hhost.apply_tabRegisters_length req len mbMapping),
        fun hkeeps => ?_, ?_⟩
      · by_cases h : (host.sendResponse req len (host.applyRequest req len mbMapping)
            received).1 = -1
        · by_cases hsame : m'.tabRegisters = mbMapping.tabRegisters
          · exact Or.inr ⟨hsame, (hfail h).trans hreceive⟩
          · refine Or.inl ((coherent_congr hmapping ((hfail h).trans hreceive)).mpr ?_)
            by_contra hcoh
            exact hkeeps ⟨hlen, hmapping ▸ hsame, h, hcoh⟩
        · obtain hcoh | ⟨hsame, himg⟩ := hsent h
          · exact Or.inl hcoh
          · exact Or.inr ⟨hsame, himg.trans hreceive⟩
      · rintro ⟨-, hchanged, h, hcoh⟩
        refine ⟨hmapping ▸ hchanged, fun hcoh' => hcoh ?_⟩
        exact (coherent_congr hmapping ((hfail h).trans hreceive)).mp hcoh'
  · rw [if_neg hlen]
    refine ⟨if len = -1 then -1 else 0, mbMapping, received, ?_, hbits, rfl,
      fun _ => Or.inr ⟨rfl, hreceive⟩, fun hloses => absurd hloses.1 hlen⟩
    split_ifs <;> rfl

/-! ## Runs -/

/-- One more call of a run. -/
theorem slaveRun_succ {config : TModbusSlaveConfiguration} {environment : ℕ → σ → σ} {state s : σ}
    {n : ℕ} {x : ModbusMapping × σ} {ret : ℤ} {m : ModbusMapping}
    (hrun : slaveRun host config environment state n = .ok x)
    (hprocess : processModbusRequest host config x.1 (environment n x.2) = .ok (ret, m, s)) :
    slaveRun host config environment state (n + 1) = .ok (m, s) := by
  unfold slaveRun
  rw [hrun, ok_bind]
  simp only [hprocess, ok_bind, except_pure]

/-- The calls of a run never stop the thread. -/
theorem slaveRun_exists (hhost : host.Documented) {config : TModbusSlaveConfiguration}
    (hcoils : config.tModbusDataConfig.u16Coils = 0) (environment : ℕ → σ → σ) (state : σ) (n : ℕ) :
    ∃ x : ModbusMapping × σ, slaveRun host config environment state n = .ok x ∧
      x.1.tabBits = [] ∧
      x.1.tabRegisters.length = config.tModbusDataConfig.u16HoldingRegisters.toNat := by
  induction n with
  | zero => exact ⟨_, rfl, by simp [modbusMappingNew, hcoils], by simp [modbusMappingNew]⟩
  | succ n ih =>
    obtain ⟨⟨m, s⟩, hrun, hbits, hlength⟩ := ih
    obtain ⟨ret, m', s', hprocess, hbits', hlength', -⟩ := processModbusRequest_cases
      hhost config (environment n s) hbits
    exact ⟨(m', s'), slaveRun_succ hrun hprocess, hbits', hlength'.trans hlength⟩

/-- **Coherence of a slave.** In every run of a slave with any number of registers and no coils,
from the first request that changes the holding registers on, the process image agrees with them
after every call of `process_modbus_request`, exactly when no request of the run has its response
fail after it has changed the registers. -/
theorem slaveRun_coherent_iff (hhost : host.Documented) {config : TModbusSlaveConfiguration}
    (hcoils : config.tModbusDataConfig.u16Coils = 0) (environment : ℕ → σ → σ)
    (henv : ∀ n s k, config.tProcessImageConfig.u32HoldingRegistersInputOffset.toNat ≤ k →
      k < config.tProcessImageConfig.u32HoldingRegistersInputOffset.toNat +
        2 * config.tModbusDataConfig.u16HoldingRegisters.toNat →
      host.image (environment n s) k = host.image s k)
    (state : σ) :
    ∃ run : ℕ → ModbusMapping × σ,
      (∀ n, slaveRun host config environment state n = .ok (run n)) ∧
      (CoherentRun host.toHost config run ↔
        ∀ n, ¬ LosesWrite host config (run n).1 (environment n (run n).2)) := by
  choose run hrun hbits hlength using slaveRun_exists hhost hcoils environment state
  refine ⟨run, hrun, ?_⟩
  have hstep : ∀ n, (¬ LosesWrite host config (run n).1 (environment n (run n).2) →
        Coherent host.toHost config (run (n + 1)) ∨
          (run (n + 1)).1.tabRegisters = (run n).1.tabRegisters ∧
            host.image (run (n + 1)).2 = host.image (environment n (run n).2)) ∧
      (LosesWrite host config (run n).1 (environment n (run n).2) →
        (run (n + 1)).1.tabRegisters ≠ (run n).1.tabRegisters ∧
          ¬ Coherent host.toHost config (run (n + 1))) := by
    intro n
    obtain ⟨ret, m', s', hprocess, -, -, hkeeps, hloses⟩ := processModbusRequest_cases
      hhost config (environment n (run n).2) (hbits n)
    have hnext : run (n + 1) = (m', s') :=
      Except.ok.inj ((hrun (n + 1)).symm.trans (slaveRun_succ (hrun n) hprocess))
    rw [hnext]
    exact ⟨hkeeps, hloses⟩
  have hcoherent : ∀ n, Coherent host.toHost config (run n) →
      Coherent host.toHost config ((run n).1, environment n (run n).2) := by
    intro n h
    unfold Coherent at h ⊢
    rw [← h]
    refine read_congr fun k hk hk' => henv n _ k hk ?_
    rw [← hlength n]
    exact hk'
  constructor
  · intro hcoh n hloses
    obtain ⟨hchanged, hnot⟩ := (hstep n).2 hloses
    exact hnot (hcoh n ⟨n, le_rfl, hchanged⟩)
  · intro hkeeps n
    induction n with
    | zero =>
      rintro ⟨m, hm, hchanged⟩
      obtain rfl : m = 0 := by omega
      obtain hcoh | ⟨hsame, -⟩ := (hstep 0).1 (hkeeps 0)
      · exact hcoh
      · exact absurd hsame hchanged
    | succ n ih =>
      rintro ⟨m, hm, hchanged⟩
      obtain hcoh | ⟨hsame, himg⟩ := (hstep (n + 1)).1 (hkeeps (n + 1))
      · exact hcoh
      · -- nothing has changed, so the first change is older
        have hm' : m ≤ n := by
          by_contra hlt
          obtain rfl : m = n + 1 := by omega
          exact hchanged hsame
        exact (coherent_congr hsame himg).mpr (hcoherent _ (ih ⟨m, hm', hchanged⟩))

/-! ## A client that writes one register and disconnects -/

/-- The header of Modbus TCP. -/
def tcpHeaderLength : Fin modbusTcpMaxAduLength := ⟨7, by decide⟩

/-- The byte number `i` after the header. -/
def pduByte (req : ModbusRequest) (i : ℕ) : UInt8 := req[tcpHeaderLength + i]?.getD 0

/-- The request to write 5 to the register at address 0. -/
def writeFiveRequest : ModbusRequest :=
  Vector.ofFn fun i => ([0, 1, 0, 0, 0, 6, 1, 6, 0, 0, 0, 5] : List UInt8)[i.val]?.getD 0

/-- What libmodbus does on `MODBUS_FC_WRITE_SINGLE_REGISTER`. -/
def applyWriteSingleRegister (req : ModbusRequest) (m : ModbusMapping) : ModbusMapping :=
  let address := (pduByte req 1).toNat * 256 + (pduByte req 2).toNat
  let data := (pduByte req 3).toUInt16 <<< 8 ||| (pduByte req 4).toUInt16
  if req[tcpHeaderLength] = 6 then { m with tabRegisters := m.tabRegisters.set address data } else m

/-- A slave that is sent `writeFiveRequest` again and again; `ret` is what sending the response
returns. -/
def writeFiveHost (ret : ℤ) : SlaveHost Image where
  toHost := imageHost fun _ => { len := 0, errno := 0, data := [] }
  headerLength := tcpHeaderLength
  modbusReceive s := ((12, writeFiveRequest), s)
  applyRequest req _ m := applyWriteSingleRegister req m
  sendResponse _ _ _ s := (ret, s)

/-- A slave with one holding register, at byte 0 of the process image. -/
def oneRegisterConfig : TModbusSlaveConfiguration where
  tModbusDeviceConfig := {
    uProt := .tTcpConfig
      { szTcpIpAddress := "0.0.0.0".toList, i32uPort := 502, maxModbusConnections := 10 }
    i32uDeviceStatusByteProcessImageOffset := 0
    i32uDeviceStatusResetByteProcessImageByteOffset := 0 }
  tModbusDataConfig :=
    { u16DiscreteInputs := 0, u16Coils := 0, u16InputRegisters := 0, u16HoldingRegisters := 1 }
  tProcessImageConfig :=
    { u32DiscreteInputsOffset := 0, u32DiscreteInputsLength := 0, u32CoilsInputOffset := 0
      u32CoilsLength := 0, u32InputRegistersOffset := 2, u32InputRegistersLength := 0
      u32HoldingRegistersInputOffset := 0, u32HoldingRegistersLength := 2 }

theorem writeFiveHost_documented (ret : ℤ) : (writeFiveHost ret).Documented where
  toSucceeds := imageHost_succeeds fun c => by simp
  apply_tabBits_length req len m := by
    show (applyWriteSingleRegister req m).tabBits.length = _
    unfold applyWriteSingleRegister
    split_ifs <;> rfl
  apply_tabRegisters_length req len m := by
    show (applyWriteSingleRegister req m).tabRegisters.length = _
    unfold applyWriteSingleRegister
    split_ifs
    · exact List.length_set
    · rfl
  apply_tabRegisters req len m h := by
    change writesRegisters req[tcpHeaderLength] = false at h
    show (applyWriteSingleRegister req m).tabRegisters = _
    unfold applyWriteSingleRegister
    rw [if_neg]
    intro hsix
    rw [hsix] at h
    exact absurd h (by decide)
  receive_image _ := rfl
  send_image _ _ _ _ := rfl

theorem applyRequest_writeFive (ret len : ℤ) {m : ModbusMapping}
    (hone : m.tabRegisters.length = 1) :
    ((writeFiveHost ret).applyRequest writeFiveRequest len m).tabRegisters = [5] := by
  have hpdu : ∀ i < 5, pduByte writeFiveRequest i = ([6, 0, 0, 0, 5] : List UInt8)[i]?.getD 0 := by
    intro i hi
    have hlt : (tcpHeaderLength : ℕ) + i < modbusTcpMaxAduLength := by
      show 7 + i < 260
      omega
    unfold pduByte writeFiveRequest
    rw [Vector.getElem?_eq_getElem hlt, Vector.getElem_ofFn]
    interval_cases i <;> rfl
  have hsix : writeFiveRequest[tcpHeaderLength] = 6 := by
    simp [writeFiveRequest, tcpHeaderLength]
  obtain ⟨r, hr⟩ := List.length_eq_one_iff.mp hone
  show (applyWriteSingleRegister writeFiveRequest m).tabRegisters = _
  unfold applyWriteSingleRegister
  rw [if_pos hsix, hpdu 1 (by omega), hpdu 2 (by omega), hpdu 3 (by omega), hpdu 4 (by omega), hr]
  rfl

/-- The client has disconnected before the response: the mapping holds the value 5, and the process
image does not. -/
theorem not_coherentRun_disconnected :
    ∃ run : ℕ → ModbusMapping × Image,
      (∀ n, slaveRun (writeFiveHost (-1)) oneRegisterConfig (fun _ s => s) (fun _ => 0) n =
        .ok (run n)) ∧
      ¬ CoherentRun (writeFiveHost (-1)).toHost oneRegisterConfig run := by
  have hhost := writeFiveHost_documented (-1)
  have hcoils : oneRegisterConfig.tModbusDataConfig.u16Coils = 0 := rfl
  choose run hrun hbits hlength using slaveRun_exists hhost hcoils (fun _ s => s) (fun _ => 0)
  refine ⟨run, hrun, fun hcoh => ?_⟩
  have hstart : run 0 = (modbusMappingNew oneRegisterConfig.tModbusDataConfig, fun _ => 0) :=
    (Except.ok.inj (hrun 0)).symm
  have hfive := applyRequest_writeFive (-1) 12 (m := (run 0).1) (hlength 0)
  have hloses : LosesWrite (writeFiveHost (-1)) oneRegisterConfig (run 0).1 (run 0).2 := by
    have hcase : (0 : ℤ) < 12 ∧ ((writeFiveHost (-1)).applyRequest writeFiveRequest 12
        (run 0).1).tabRegisters ≠ (run 0).1.tabRegisters ∧ (-1 : ℤ) = -1 ∧
        ¬ Coherent (writeFiveHost (-1)).toHost oneRegisterConfig
          ((writeFiveHost (-1)).applyRequest writeFiveRequest 12 (run 0).1, (run 0).2) := by
      unfold Coherent
      rw [hfive, hstart]
      decide
    exact hcase
  obtain ⟨ret, m', s', hprocess, -, -, -, hlost⟩ := processModbusRequest_cases
    hhost oneRegisterConfig (run 0).2 (hbits 0)
  have hnext : run 1 = (m', s') :=
    Except.ok.inj ((hrun 1).symm.trans (slaveRun_succ (hrun 0) hprocess))
  obtain ⟨hchanged, hnot⟩ := hlost hloses
  rw [← hnext] at hnot
  exact hnot (hcoh 0 ⟨0, le_rfl, by rw [hnext]; exact hchanged⟩)

theorem slaveRun_coherent_iff_sent :
    ∃ run : ℕ → ModbusMapping × Image,
      (∀ n, slaveRun (writeFiveHost 12) oneRegisterConfig (fun _ s => s) (fun _ => 0) n =
        .ok (run n)) ∧
      CoherentRun (writeFiveHost 12).toHost oneRegisterConfig run := by
  have hcoils : oneRegisterConfig.tModbusDataConfig.u16Coils = 0 := rfl
  obtain ⟨run, hrun, hiff⟩ := slaveRun_coherent_iff
    (writeFiveHost_documented 12) hcoils (fun _ s => s) (fun _ _ _ _ _ => rfl) (fun _ => 0)
  refine ⟨run, hrun, hiff.mpr fun n hloses => ?_⟩
  have hsent : (12 : ℤ) = -1 := hloses.2.2.1
  exact absurd hsent (by norm_num)

end RevPiModbus
