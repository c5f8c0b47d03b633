import RevPiModbus.Lib.Slice
import RevPiModbus.ActionRequest
import RevPiModbus.SlaveDataFlow

/-!
# A master and a slave on one line

Both daemons of the repository at the two ends of a Modbus connection: a call of libmodbus that the
master makes is a request that the slave's thread receives, and its reply is what comes back. The
line may lose either. The slave replies before it writes its registers to the process image, so
that the master goes on in between; it has written them before it receives the next request.

* `Libmodbus`, `Libmodbus.Documented`: the library at both ends, for a slave that keeps registers
  only;
* `replyToRequest`, `writeMapping`: `process_modbus_request` up to the reply and from there on;
  `processModbusRequest_eq_phases`: together they are the function;
* `Plant`: the two process images, the mapping of the slave, and the fate of the next request;
* `Plant.publish`, `Plant.serve`: what the thread of the slave does;
* `plantHost`: the surroundings of the master.
-/

namespace RevPiModbus

open ByteImage Slice

/-! ## The requests -/

namespace ModbusCall

/-- What a request makes of the holding registers: nothing where one of them does not exist. -/
def applyTo (c : ModbusCall) (tab : List UInt16) : List UInt16 :=
  match c.written with
  | some (address, words) =>
    if 0 < words.length ∧ address + words.length ≤ tab.length then splice tab address words else tab
  | none => tab

/-- The return value and the data of a call that a slave without coils answers; a negative value
stands for an exception. -/
def answer (c : ModbusCall) (m : ModbusMapping) : ℤ × List UInt8 :=
  match c with
  | readRegisters addr nb =>
    if 0 < nb ∧ wireAddress addr + nb ≤ m.tabRegisters.length then
      (nb, registerBytes (slice m.tabRegisters (wireAddress addr) nb))
    else (-1, [])
  | readInputRegisters addr nb =>
    if 0 < nb ∧ wireAddress addr + nb ≤ m.tabInputRegisters.length then
      (nb, registerBytes (slice m.tabInputRegisters (wireAddress addr) nb))
    else (-1, [])
  | writeRegister addr _ =>
    if wireAddress addr + 1 ≤ m.tabRegisters.length then (1, []) else (-1, [])
  | writeRegisters addr nb _ =>
    if 0 < nb ∧ wireAddress addr + nb ≤ m.tabRegisters.length then (nb, []) else (-1, [])
  | _ => (-1, [])

end ModbusCall

/-- libmodbus at both ends of a line: the request that a call sends, with its length as the slave
receives it, and what the call makes of the response. -/
structure Libmodbus where
  headerLength : Fin modbusTcpMaxAduLength
  request : ModbusCall → ℤ × ModbusRequest
  applyRequest : ModbusRequest → ℤ → ModbusMapping → ModbusMapping
  response : ModbusRequest → ℤ → ModbusMapping → List UInt8
  confirmation : ModbusCall → List UInt8 → ModbusReply

/-- The mapping has neither coils nor discrete inputs. -/
def ModbusMapping.WithoutBits (m : ModbusMapping) : Prop := m.tabBits = [] ∧ m.tabInputBits = []

/-- A request carries its function code; the slave writes the registers that it is told to write,
and answers from its tables; the master gets what the slave has answered. -/
structure Libmodbus.Documented (lib : Libmodbus) : Prop where
  request_length : ∀ c, 0 < (lib.request c).1
  request_function : ∀ c, ((lib.request c).2.get lib.headerLength).toNat = c.function.code
  apply_eq : ∀ (c : ModbusCall) (m : ModbusMapping), c.Sendable → m.WithoutBits →
    lib.applyRequest (lib.request c).2 (lib.request c).1 m =
      { m with tabRegisters := c.applyTo m.tabRegisters }
  confirmation_data : ∀ (c : ModbusCall) (response : List UInt8),
    (lib.confirmation c response).data.length =
      min (c.itemSize * (lib.confirmation c response).len.toNat) c.capacity
  confirmation_eq : ∀ (c : ModbusCall) (m : ModbusMapping), c.Sendable →
    (∀ maxDest, c ≠ .reportSlaveId maxDest) → m.WithoutBits →
    ((lib.confirmation c (lib.response (lib.request c).2 (lib.request c).1 m)).len,
      (lib.confirmation c (lib.response (lib.request c).2 (lib.request c).1 m)).data) = c.answer m

/-! ## The two phases of `process_modbus_request` -/

section Phases

variable {σ : Type}

/-- The call of `modbus_reply`: the return value of `process_modbus_request`, and whether it is
still to write the mapping to the process image. -/
def replyPhase (host : SlaveHost σ) (req : ModbusRequest) (len : ℤ) (mbMapping : ModbusMapping)
    (state : σ) : ℤ × Bool × ModbusMapping × σ :=
  let (len, mbMapping, state) := modbusReply host req len mbMapping state
  if len = -1 then (-1, false, mbMapping, state)
  else (0, writesProcessImage (req.get host.headerLength), mbMapping, state)

/-- `process_modbus_request` up to `modbus_reply`. -/
def replyToRequest (host : SlaveHost σ) (config : TModbusSlaveConfiguration)
    (mbMapping : ModbusMapping) (state : σ) : Except Fault (ℤ × Bool × ModbusMapping × σ) := do
  let ((len, req), state) := host.modbusReceive state
  if len > 0 then
    if readsProcessImage (req.get host.headerLength) then
      let (_, mbMapping, state) ←
        readModbusDataFromProcessImage host.toHost mbMapping config.tProcessImageConfig state
      return replyPhase host req len mbMapping state
    else return replyPhase host req len mbMapping state
  else if len = -1 then return (-1, false, mbMapping, state)
  else return (0, false, mbMapping, state)

/-- `process_modbus_request` from `modbus_reply` on. -/
def writeMapping (host : Host σ) (config : TModbusSlaveConfiguration) (unwritten : Bool)
    (mbMapping : ModbusMapping) (state : σ) : Except Fault σ := do
  if unwritten then
    let (_, state) ← writeModbusDataToProcessImage host mbMapping config.tProcessImageConfig state
    return state
  else return state

theorem answerRequest_eq_phases (host : SlaveHost σ) (config : TModbusSlaveConfiguration)
    (req : ModbusRequest) (len : ℤ) (mbMapping : ModbusMapping) (state : σ) :
    answerRequest host config req len mbMapping state = (do
      let (ret, unwritten, mbMapping, state) := replyPhase host req len mbMapping state
      let state ← writeMapping host.toHost config unwritten mbMapping state
      return (ret, mbMapping, state)) := by
  have hget : req.get host.headerLength = req[host.headerLength] := rfl
  unfold answerRequest replyPhase writeMapping
  by_cases hfail : (modbusReply host req len mbMapping state).1 = -1
  · simp only [hfail, if_true, Bool.false_eq_true, if_false, pure_bind]
  · by_cases hwrites : writesProcessImage req[host.headerLength] = true
    · simp only [hget, hfail, hwrites, if_false, if_true, bind_assoc, pure_bind]
    · rw [Bool.not_eq_true] at hwrites
      simp only [hget, hfail, hwrites, if_false, Bool.false_eq_true, pure_bind]

/-- The two phases are the whole function. -/
theorem processModbusRequest_eq_phases (host : SlaveHost σ) (config : TModbusSlaveConfiguration)
    (mbMapping : ModbusMapping) (state : σ) :
    processModbusRequest host config mbMapping state = (do
      let (ret, unwritten, mbMapping, state) ← replyToRequest host config mbMapping state
      let state ← writeMapping host.toHost config unwritten mbMapping state
      return (ret, mbMapping, state)) := by
  have hget : ∀ req : ModbusRequest, req.get host.headerLength = req[host.headerLength] :=
    fun _ => rfl
  unfold processModbusRequest replyToRequest
  simp only [answerRequest_eq_phases, hget]
  split_ifs <;>
    simp only [bind_assoc, pure_bind, writeMapping, Bool.false_eq_true, if_false]

end Phases
/-! ## The two devices -/

/-- What libmodbus keeps for the slave next to the process image: the request that it receives next,
whether it can send the response, and the response that it has sent. -/
structure Wire where
  inbox : ℤ × ModbusRequest
  responds : Bool
  outbox : Option (List UInt8)

/-- What becomes of a request: whether it reaches the slave, whether the slave can send its
response, whether the response reaches the master, and `errno` of the master where none does. -/
structure Fate where
  arrives : Bool
  responds : Bool
  returns : Bool
  errno : UInt32
  deriving DecidableEq, Repr

/-- The process image of the master; of the slave the process image, the wire and the mapping, and
whether its thread is still to write the mapping to the process image; the fate of the next
request. -/
structure Plant where
  master : Image
  slave : Image
  wire : Wire
  mapping : ModbusMapping
  unwritten : Bool
  fate : Fate

/-- The surroundings of the slave's thread. -/
def slaveHost (lib : Libmodbus) : SlaveHost (Image × Wire) where
  toHost := (imageHost fun _ => { len := -1, errno := 0, data := [] }).extended
  headerLength := lib.headerLength
  modbusReceive s := (s.2.inbox, s)
  applyRequest := lib.applyRequest
  sendResponse req len m s :=
    if s.2.responds then
      ((lib.response req len m).length, s.1, { s.2 with outbox := some (lib.response req len m) })
    else (-1, s)

/-- The slave's thread returns to `modbus_receive`. -/
def Plant.publish (lib : Libmodbus) (config : TModbusSlaveConfiguration) (p : Plant) :
    Except Fault Plant := do
  let s ← writeMapping (slaveHost lib).toHost config p.unwritten p.mapping (p.slave, p.wire)
  return { p with slave := s.1, wire := s.2, unwritten := false }

/-- The slave's thread receives the request of a call, and replies to it. -/
def Plant.serve (lib : Libmodbus) (config : TModbusSlaveConfiguration) (c : ModbusCall)
    (responds : Bool) (p : Plant) : Except Fault Plant := do
  let p ← p.publish lib config
  let wire := { inbox := lib.request c, responds := responds, outbox := none }
  let (_, unwritten, mapping, s) ←
    replyToRequest (slaveHost lib) config p.mapping (p.slave, wire)
  return { p with slave := s.1, wire := s.2, mapping := mapping, unwritten := unwritten }

/-- A call that gets no response. -/
def noReply (errno : UInt32) : ModbusReply := { len := -1, errno := errno, data := [] }

/-- `EMBMDATA`. -/
def embmdata : UInt32 := modbusEnobase + 16

/-- What a call gets back from a slave that has taken its request. -/
def Plant.replyTo (lib : Libmodbus) (c : ModbusCall) (p : Plant) : ModbusReply :=
  if p.fate.returns then
    match p.wire.outbox with
    | some response => lib.confirmation c response
    | none => noReply p.fate.errno
  else noReply p.fate.errno

/-- A call of libmodbus that the master makes. -/
def Plant.call (lib : Libmodbus) (config : TModbusSlaveConfiguration) (c : ModbusCall) (p : Plant) :
    ModbusReply × Plant :=
  if c.Sendable then
    if p.fate.arrives then
      match p.serve lib config c p.fate.responds with
      | .ok p => (p.replyTo lib c, p)
      | .error _ => (noReply p.fate.errno, p)
    else (noReply p.fate.errno, p)
  else (noReply embmdata, p)

/-- The surroundings of the master's thread. -/
def plantHost (lib : Libmodbus) (config : TModbusSlaveConfiguration) : Host Plant where
  image p := p.master
  bitPosition a b := 8 * a.toNat + b.toNat
  piControlRead a n p := ((n, read p.master a.toNat n), p)
  piControlWrite a d p := (d.length, { p with master := write p.master a.toNat d })
  piControlSetBitValue v p := (0, { p with
    master := setBit p.master (8 * v.i16uAddress.toNat + v.i8uBit.toNat) (v.i8uValue != 0) })
  piControlGetBitValue v p :=
    ((0, if bit p.master (8 * v.i16uAddress.toNat + v.i8uBit.toNat) then 1 else 0), p)
  modbus := Plant.call lib config

variable {lib : Libmodbus} {config : TModbusSlaveConfiguration} {c : ModbusCall} {p : Plant}

/-- Without anything left to write, the slave's thread runs through `process_modbus_request`. -/
theorem serve_publish (hp : p.unwritten = false) (responds : Bool) :
    (do
      let p' ← p.serve lib config c responds
      p'.publish lib config) = (do
      let (_, mapping, s) ← processModbusRequest (slaveHost lib) config p.mapping
        (p.slave, { inbox := lib.request c, responds := responds, outbox := none })
      return { p with slave := s.1, wire := s.2, mapping := mapping, unwritten := false }) := by
  unfold Plant.serve Plant.publish writeMapping
  rw [processModbusRequest_eq_phases]
  simp only [hp, Bool.false_eq_true, if_false, pure_bind, bind_assoc]
  rfl

/-! ## What the slave does -/

/-- The process image of the slave once its thread has written what it is still to write. -/
def Plant.settled (p : Plant) (config : TModbusSlaveConfiguration) : Image :=
  if p.unwritten then
    write p.slave config.tProcessImageConfig.u32HoldingRegistersInputOffset.toNat
      (registerBytes p.mapping.tabRegisters)
  else p.slave

/-- The requests before which the slave reads its process image. -/
def ModbusCall.refreshes (c : ModbusCall) : Bool :=
  c.function == .readInputRegisters || c.function == .readDiscreteInputs

/-- The requests after which the slave writes its process image. -/
def ModbusCall.publishes (c : ModbusCall) : Bool :=
  c.function == .writeSingleCoil || c.function == .writeMultipleCoils ||
    c.function == .writeSingleRegister || c.function == .writeMultipleRegisters

theorem readsProcessImage_request {code : UInt8} (h : code.toNat = c.function.code) :
    readsProcessImage code = c.refreshes := by
  unfold readsProcessImage ModbusCall.refreshes
  rw [h]
  cases c <;> rfl

theorem writesProcessImage_request {code : UInt8} (h : code.toNat = c.function.code) :
    writesProcessImage code = c.publishes := by
  unfold writesProcessImage ModbusCall.publishes
  rw [h]
  cases c <;> rfl

/-- The mapping from which the slave answers. -/
def Plant.answering (p : Plant) (config : TModbusSlaveConfiguration) (c : ModbusCall) :
    ModbusMapping :=
  { (if c.refreshes then p.mapping.refreshed (p.settled config) config.tProcessImageConfig
      else p.mapping) with
    tabRegisters := c.applyTo p.mapping.tabRegisters }

theorem ModbusCall.applyTo_length (c : ModbusCall) (tab : List UInt16) :
    (c.applyTo tab).length = tab.length := by
  unfold ModbusCall.applyTo
  split
  · split_ifs with h
    · exact splice_length h.2
    · rfl
  · rfl

theorem RegistersOnly.withoutBits {m : ModbusMapping} (h : RegistersOnly config m) :
    m.WithoutBits := ⟨h.tabBits, h.tabInputBits⟩

theorem RegistersOnly.answering (h : RegistersOnly config p.mapping) (c : ModbusCall) :
    RegistersOnly config (p.answering config c) := by
  have hrefreshed := h.refreshed (p.settled config)
  unfold Plant.answering
  split_ifs
  · exact ⟨h.tabBits, h.tabInputBits, hrefreshed.tabInputRegisters,
      (c.applyTo_length _).trans h.tabRegisters⟩
  · exact ⟨h.tabBits, h.tabInputBits, h.tabInputRegisters,
      (c.applyTo_length _).trans h.tabRegisters⟩

theorem publish_eq (lib : Libmodbus) (h : RegistersOnly config p.mapping) :
    p.publish lib config = .ok { p with slave := p.settled config, unwritten := false } := by
  unfold Plant.publish writeMapping Plant.settled writeModbusDataToProcessImage
    writeHoldingRegisters
  cases hunwritten : p.unwritten with
  | false => rfl
  | true =>
    simp only [h.tabBits, List.length_nil, gt_iff_lt, lt_irrefl, if_true, if_false, pure_bind]
    by_cases hpos : 0 < p.mapping.tabRegisters.length
    · rw [if_pos hpos]
      rfl
    · have hnil : p.mapping.tabRegisters = [] := List.length_eq_zero_iff.mp (by omega)
      rw [if_neg hpos, hnil, registerBytes, write_nil]
      rfl

theorem slaveHost_succeeds (lib : Libmodbus) : (slaveHost lib).toHost.Succeeds :=
  (imageHost_succeeds fun c => by simp).extended

/-- The slave answers from its tables, after it has refreshed them if the request reads inputs. -/
theorem replyToRequest_eq (hlib : lib.Documented) (h : RegistersOnly config p.mapping)
    {s : Image × Wire} (hs : s.2.inbox = lib.request c) :
    replyToRequest (slaveHost lib) config p.mapping s = .ok (replyPhase (slaveHost lib)
      (lib.request c).2 (lib.request c).1
      (if c.refreshes then p.mapping.refreshed s.1 config.tProcessImageConfig
        else p.mapping) s) := by
  have hpos := hlib.request_length c
  have hreads := readsProcessImage_request (hlib.request_function c)
  have hreceive : (slaveHost lib).modbusReceive s = (lib.request c, s) := by rw [← hs]; rfl
  unfold replyToRequest
  rw [hreceive]
  show (if (lib.request c).1 > 0 then
    if readsProcessImage ((lib.request c).2.get lib.headerLength) = true then _ else _ else _) = _
  rw [if_pos hpos, hreads]
  cases c.refreshes with
  | false => rfl
  | true =>
    obtain ⟨ret, s', hread, hs'⟩ := readModbusDataFromProcessImage_inputs
      (slaveHost_succeeds lib) config.tProcessImageConfig s h.tabInputBits
    obtain rfl : s' = s := by
      obtain rfl | ⟨a, n, rfl⟩ := hs'
      · rfl
      · rfl
    simp only [if_true, hread, ok_bind]
    rfl

/-- The reply takes the request into the mapping, and is followed by a write if it can be sent. -/
theorem replyPhase_eq (hlib : lib.Documented) (hc : c.Sendable) {m : ModbusMapping}
    (hm : m.WithoutBits) (s : Image × Wire) :
    replyPhase (slaveHost lib) (lib.request c).2 (lib.request c).1 m s =
      let m' := { m with tabRegisters := c.applyTo m.tabRegisters }
      if s.2.responds then
        (0, c.publishes, m', s.1,
          { s.2 with outbox := some (lib.response (lib.request c).2 (lib.request c).1 m') })
      else (-1, false, m', s) := by
  have hwrites := writesProcessImage_request (hlib.request_function c)
  unfold replyPhase modbusReply slaveHost
  simp only [hlib.apply_eq c m hc hm, hwrites]
  cases s.2.responds with
  | false => rfl
  | true =>
    simp only [if_true]
    rw [if_neg (by omega)]

/-- The two devices after the slave has replied to a request. -/
def Plant.served (lib : Libmodbus) (config : TModbusSlaveConfiguration) (c : ModbusCall)
    (responds : Bool) (p : Plant) : Plant :=
  { p with
    slave := p.settled config
    wire := {
      inbox := lib.request c
      responds := responds
      outbox := if responds then
        some (lib.response (lib.request c).2 (lib.request c).1 (p.answering config c)) else none }
    mapping := p.answering config c
    unwritten := responds && c.publishes }

/-- **One request.** The slave has written its registers, takes the request into its mapping, and
sends the response of that mapping if it can; only then it writes again. -/
theorem serve_eq (hlib : lib.Documented) (h : RegistersOnly config p.mapping) (hc : c.Sendable)
    (responds : Bool) : p.serve lib config c responds = .ok (p.served lib config c responds) := by
  have hbits : (if c.refreshes then
      p.mapping.refreshed (p.settled config) config.tProcessImageConfig
      else p.mapping).WithoutBits := by
    split_ifs
    · exact h.withoutBits
    · exact h.withoutBits
  have hregisters : (if c.refreshes then p.mapping.refreshed (p.settled config)
      config.tProcessImageConfig else p.mapping).tabRegisters = p.mapping.tabRegisters := by
    split_ifs <;> rfl
  unfold Plant.serve
  rw [publish_eq lib h, ok_bind]
  dsimp only
  rw [replyToRequest_eq hlib h rfl, ok_bind, replyPhase_eq hlib hc hbits]
  unfold Plant.served Plant.answering
  rw [hregisters]
  cases responds <;> rfl

/-! ## What the master sees -/

theorem plantHost_keeps (lib : Libmodbus) (config : TModbusSlaveConfiguration) :
    (plantHost lib config).Keeps fun p => { p with master := fun _ => 0 } where
  read _ _ _ := rfl
  write _ _ _ := rfl
  setBit _ _ := rfl
  getBit _ _ := rfl

/-- A call leaves the process image of the master alone. -/
theorem call_master (lib : Libmodbus) (config : TModbusSlaveConfiguration) (c : ModbusCall)
    (p : Plant) : (p.call lib config c).2.master = p.master := by
  have hpublish : ∀ p' : Plant, p.publish lib config = .ok p' → p'.master = p.master := by
    intro p' h
    unfold Plant.publish at h
    obtain ⟨s, -, h⟩ := bind_eq_ok.mp h
    cases h
    rfl
  have hserve : ∀ p' : Plant, p.serve lib config c p.fate.responds = .ok p' →
      p'.master = p.master := by
    intro p' h
    unfold Plant.serve at h
    obtain ⟨q, hq, h⟩ := bind_eq_ok.mp h
    obtain ⟨_, -, h⟩ := bind_eq_ok.mp h
    cases h
    exact hpublish q hq
  unfold Plant.call
  split_ifs
  · cases hresult : p.serve lib config c p.fate.responds with
    | error _ => rfl
    | ok p' => exact hserve p' hresult
  · rfl
  · rfl

/-- A call whose request does not reach the slave fails, and changes nothing. -/
theorem call_of_lost (lib : Libmodbus) (config : TModbusSlaveConfiguration)
    (h : ¬ (c.Sendable ∧ p.fate.arrives = true)) :
    (p.call lib config c).1.len = -1 ∧ (p.call lib config c).2 = p := by
  unfold Plant.call
  by_cases hc : c.Sendable
  · rw [if_pos hc, if_neg fun harrives => h ⟨hc, harrives⟩]
    exact ⟨rfl, rfl⟩
  · rw [if_neg hc]
    exact ⟨rfl, rfl⟩

/-- A call whose request reaches the slave. -/
theorem call_of_arrives (hlib : lib.Documented) (h : RegistersOnly config p.mapping)
    (hc : c.Sendable) (harrives : p.fate.arrives = true) : p.call lib config c =
      ((p.served lib config c p.fate.responds).replyTo lib c,
        p.served lib config c p.fate.responds) := by
  unfold Plant.call
  rw [if_pos hc, if_pos harrives, serve_eq hlib h hc]

/-- A call does not depend on the process image of the master. -/
theorem call_withMaster (hlib : lib.Documented) (h : RegistersOnly config p.mapping) {p' : Plant}
    (hp' : { p' with master := fun _ => 0 } = { p with master := fun _ => 0 }) :
    (p'.call lib config c).1.len = (p.call lib config c).1.len ∧
      { (p'.call lib config c).2 with master := fun _ => 0 } =
        { (p.call lib config c).2 with master := fun _ => 0 } := by
  obtain ⟨img, slave, wire, mapping, unwritten, fate⟩ := p'
  obtain ⟨-, rfl, rfl, rfl, rfl, rfl⟩ := Plant.mk.inj hp'
  by_cases hreaches : c.Sendable ∧ p.fate.arrives = true
  · have hcall := call_of_arrives hlib h hreaches.1 hreaches.2
    have hcall' := call_of_arrives (p := ⟨img, p.slave, p.wire, p.mapping, p.unwritten, p.fate⟩)
      hlib h hreaches.1 hreaches.2
    rw [hcall, hcall']
    exact ⟨rfl, rfl⟩
  · obtain ⟨hlen, hstate⟩ := call_of_lost lib config hreaches
    obtain ⟨hlen', hstate'⟩ := call_of_lost
      (p := ⟨img, p.slave, p.wire, p.mapping, p.unwritten, p.fate⟩) lib config hreaches
    rw [hlen, hstate, hlen', hstate']
    exact ⟨rfl, rfl⟩

/-- A call gets the answer of the slave, or fails. -/
theorem replyTo_served (hlib : lib.Documented) (h : RegistersOnly config p.mapping)
    (hc : c.Sendable) (hreport : ∀ maxDest, c ≠ .reportSlaveId maxDest)
    (hlen : 0 ≤ ((p.served lib config c p.fate.responds).replyTo lib c).len) :
    p.fate.responds = true ∧
      (((p.served lib config c p.fate.responds).replyTo lib c).len,
        ((p.served lib config c p.fate.responds).replyTo lib c).data) =
        c.answer (p.answering config c) := by
  unfold Plant.replyTo Plant.served at hlen ⊢
  dsimp only at hlen ⊢
  split_ifs at hlen ⊢ with hreturns hresponds
  · exact ⟨hresponds, hlib.confirmation_eq c _ hc hreport (h.answering c).withoutBits⟩
  · exact absurd (show (0 : ℤ) ≤ -1 from hlen) (by decide)
  · exact absurd (show (0 : ℤ) ≤ -1 from hlen) (by decide)

theorem call_data (hlib : lib.Documented) (config : TModbusSlaveConfiguration) (c : ModbusCall)
    (p : Plant) : (p.call lib config c).1.data.length =
      min (c.itemSize * (p.call lib config c).1.len.toNat) c.capacity := by
  have hnone : ∀ errno, (noReply errno).data.length =
      min (c.itemSize * (noReply errno).len.toNat) c.capacity := by
    intro errno
    simp [noReply]
  have hreply : ∀ p' : Plant, (p'.replyTo lib c).data.length =
      min (c.itemSize * (p'.replyTo lib c).len.toNat) c.capacity := by
    intro p'
    unfold Plant.replyTo
    split_ifs
    · split
      · exact hlib.confirmation_data c _
      · exact hnone _
    · exact hnone _
  unfold Plant.call
  split_ifs
  · cases p.serve lib config c p.fate.responds with
    | error _ => exact hnone _
    | ok p' => exact hreply p'
  · exact hnone _
  · exact hnone _

theorem plantHost_succeeds (hlib : lib.Documented) (config : TModbusSlaveConfiguration) :
    (plantHost lib config).Succeeds where
  read_data a n p := by simp [plantHost]
  modbus_data c p := call_data hlib config c p
  bitPosition_eq _ _ _ := rfl
  read_ret _ _ _ := rfl
  read_eq _ _ _ := rfl
  read_image _ _ _ := rfl
  write_ret _ _ _ := rfl
  write_image _ _ _ := rfl
  setBit_ret _ _ := le_rfl
  setBit_image _ _ := rfl
  getBit_ret _ _ := le_rfl
  getBit_eq _ _ := rfl
  getBit_image _ _ := rfl
  modbus_image c p := call_master lib config c p

end RevPiModbus
