import RevPiModbus.MasterDataFlow
import RevPiModbus.ModbusFrames
import RevPiModbus.SlaveWindows

/-!
# From one process image to the other

A master and a slave of this repository on one line: the words that the master finds in its process
image arrive in that of the slave, byte for byte, and the other way round. Requests and responses
may be lost, the slave may fail to send its response, other clients write to the slave, and both
process images have other users.

* `PlantLabel`, `plantStep`: the two threads, the other clients, the users and the line, in any
  order;
* `Exchange`, `exchanges`: what a step moves from one device to the other;
* `takenBytes`, `shownBytes`, `lastFetched`: what follows from the exchanges of a run;
* `Mirrored`: the two process images show that, and the master confirms nothing else;
* `mirrored_run`: the two devices in every run.
-/

namespace RevPiModbus

open ByteImage Transition Slice

/-! ## Registers as bytes -/

/-- The two bytes of a word that has been put together from them. -/
theorem word_bytes (low high : UInt8) :
    (low.toUInt16 ||| (high.toUInt16 <<< 8)).toUInt8 = low ∧
      ((low.toUInt16 ||| (high.toUInt16 <<< 8)) >>> 8).toUInt8 = high := by
  have hlow := low.toNat_lt
  have hhigh := high.toNat_lt
  rw [← ofNat_bytes]
  constructor <;> apply UInt8.toNat_inj.mp
  · rw [UInt16.toNat_toUInt8, UInt16.toNat_ofNat']
    omega
  · rw [UInt16.toNat_toUInt8, UInt16.toNat_shiftRight, UInt16.toNat_ofNat']
    show (_ % 2 ^ 16) >>> 8 % 2 ^ 8 = _
    rw [Nat.shiftRight_eq_div_pow]
    omega

theorem registerBytes_bytesRegisters {data : List UInt8} {n : ℕ} (h : data.length = 2 * n) :
    registerBytes (bytesRegisters data) = data := by
  induction n generalizing data with
  | zero =>
    obtain rfl := List.length_eq_zero_iff.mp h
    rfl
  | succ n ih =>
    rcases data with _ | ⟨low, _ | ⟨high, data⟩⟩
    · simp at h
    · simp only [List.length_cons, List.length_nil] at h
      omega
    · simp only [List.length_cons] at h
      rw [bytesRegisters, registerBytes, ih (by omega)]
      obtain ⟨hlow, hhigh⟩ := word_bytes low high
      rw [hlow, hhigh]

theorem registerBytes_replicate (n : ℕ) :
    registerBytes (List.replicate n 0) = List.replicate (2 * n) 0 := by
  induction n with
  | zero => rfl
  | succ n ih =>
    rw [List.replicate_succ, registerBytes, ih, Nat.mul_succ, List.replicate_succ,
      List.replicate_succ]
    rfl

theorem registerBytes_slice (tab : List UInt16) (i n : ℕ) :
    registerBytes (slice tab i n) = slice (registerBytes tab) (2 * i) (2 * n) := by
  unfold slice
  induction i generalizing tab with
  | zero =>
    rw [List.drop_zero, Nat.mul_zero, List.drop_zero]
    induction n generalizing tab with
    | zero => simp [registerBytes]
    | succ n ih =>
      cases tab with
      | nil => simp [registerBytes]
      | cons register tab =>
        show _ :: _ :: registerBytes (tab.take n) = _ :: _ :: (registerBytes tab).take (2 * n)
        rw [ih]
  | succ i ih =>
    cases tab with
    | nil => simp [registerBytes]
    | cons register tab => exact ih tab

/-- A part of what is read. -/
theorem slice_read (img : Image) (a m : ℕ) {i n : ℕ} (h : i + n ≤ m) :
    slice (read img a m) i n = read img (a + i) n := by
  apply List.ext_getElem?
  intro k
  rw [getElem?_slice]
  unfold ByteImage.read
  by_cases hk : k < n
  · rw [if_pos hk, List.getElem?_map, List.getElem?_map, List.getElem?_range (by omega),
      List.getElem?_range hk, Option.map_some, Option.map_some, Nat.add_assoc]
  · rw [if_neg hk, List.getElem?_eq_none (by simp; omega)]

/-! ## The two devices in motion -/

variable {lib : Libmodbus} {master : TModbusMasterConfiguration} {slave : TModbusSlaveConfiguration}

/-- A step of the master's thread; of the users of the two process images; of the slave's thread on
its way back to `modbus_receive`; of another client of the slave; of the line. -/
inductive PlantLabel
  | connect (connected : Bool) (malloc : ℕ → Bool) (currentTime : Timespec)
  | proceed
  | masterUser (img : Image)
  | slaveUser (img : Image)
  | publish
  | client (c : ModbusCall) (responds : Bool)
  | line (fate : Fate)

/-- The two devices elsewhere. -/
def LoopState.withPlant (s : LoopState Plant) (p : Plant) : LoopState Plant := { s with state := p }

/-- One step. It is `none` where a thread has ended or a process has been aborted. -/
def plantStep (lib : Libmodbus) (master : TModbusMasterConfiguration)
    (slave : TModbusSlaveConfiguration) (s : LoopState Plant) :
    PlantLabel → Option (LoopState Plant)
  | .connect connected malloc currentTime =>
    loopStep (plantHost lib slave) master s (.connect connected malloc currentTime)
  | .proceed => loopStep (plantHost lib slave) master s .proceed
  | .masterUser img =>
    loopStep (plantHost lib slave) master s (.user { s.state with master := img })
  | .slaveUser img => some (s.withPlant { s.state with slave := img })
  | .publish =>
    match s.state.publish lib slave with
    | .ok p => some (s.withPlant p)
    | .error _ => none
  | .client c responds =>
    if c.Sendable then
      match s.state.serve lib slave c responds with
      | .ok p => some (s.withPlant p)
      | .error _ => none
    else none
  | .line fate => some (s.withPlant { s.state with fate := fate })

/-- What passes between the devices: the request of an action that writes registers reaches the
slave with these bytes, and the slave can send its response or not; the action succeeds; the slave
writes its process image; an action that reads registers succeeds, and these are the bytes of the
slave. -/
inductive Exchange
  | taken (action : ℕ) (data : List UInt8) (answered : Bool)
  | confirmed (action : ℕ)
  | published
  | fetched (action : ℕ) (data : List UInt8)
  deriving DecidableEq, Repr

/-- The slave's registers for an action that writes registers exist. -/
def TModbusAction.WritesTo (action : TModbusAction) (slave : TModbusSlaveConfiguration) : Prop :=
  action.eFunctionCode.WritesRegisters ∧ action.register + action.i16uRegisterCount.toNat ≤
    slave.tModbusDataConfig.u16HoldingRegisters.toNat

instance (action : TModbusAction) : Decidable (action.WritesTo slave) :=
  inferInstanceAs (Decidable (_ ∧ _))

/-- The bytes of an action in the process image of the master. -/
def masterBytes (action : TModbusAction) (img : Image) : List UInt8 :=
  read img action.i32uStartByteProcessData.toNat (2 * action.i16uRegisterCount.toNat)

/-- The bytes of the registers of an action in the process image of the slave. -/
def slaveBytes (slave : TModbusSlaveConfiguration) (action : TModbusAction) (img : Image) :
    List UInt8 :=
  read img (slave.tProcessImageConfig.u32HoldingRegistersInputOffset.toNat + 2 * action.register)
    (2 * action.i16uRegisterCount.toNat)

/-- The bytes of the registers of an action in the mapping of the slave. -/
def mappedBytes (action : TModbusAction) (m : ModbusMapping) : List UInt8 :=
  registerBytes (slice m.tabRegisters action.register action.i16uRegisterCount.toNat)

/-- What an action that reads registers is to fetch: input registers from the process image of the
slave, holding registers from its mapping. -/
def sourceBytes (slave : TModbusSlaveConfiguration) (action : TModbusAction) (p : Plant) :
    List UInt8 :=
  if action.eFunctionCode = .readInputRegisters then
    read (p.settled slave)
      (slave.tProcessImageConfig.u32InputRegistersOffset.toNat + 2 * action.register)
      (2 * action.i16uRegisterCount.toNat)
  else mappedBytes action p.mapping

/-- What the thread of the slave writes first when a request reaches it. -/
def publication (p : Plant) : List Exchange := if p.unwritten then [.published] else []

/-- The exchanges of an action, the last one first. -/
def actionExchanges (slave : TModbusSlaveConfiguration) (i : ℕ) (action : TModbusAction) (p : Plant)
    (out : Transaction Plant) : List Exchange :=
  match out.request with
  | some call =>
    (if action.eFunctionCode.WritesRegisters ∧ 0 ≤ out.len then [.confirmed i] else []) ++
    (if action.eFunctionCode.ReadsRegisters ∧ action.i16uRegisterCount.toNat ≤ out.len then
      [.fetched i (sourceBytes slave action p)] else []) ++
    (if call.Sendable ∧ p.fate.arrives then
      (if action.WritesTo slave then [.taken i (masterBytes action p.master) p.fate.responds]
        else []) ++ publication p
    else [])
  | none => []

/-- The exchanges of a step, the last one first. -/
def exchanges (lib : Libmodbus) (master : TModbusMasterConfiguration)
    (slave : TModbusSlaveConfiguration) (s : LoopState Plant) : PlantLabel → List Exchange
  | .proceed =>
    match s.phase with
    | .process nextEvent =>
      match master.mbActionListHead[nextEvent.ptModbusAction]? with
      | some action =>
        match processModbusAction (plantHost lib slave) action s.buffer s.state with
        | .ok out => actionExchanges slave nextEvent.ptModbusAction action s.state out
        | .error _ => []
      | none => []
    | _ => []
  | .publish | .client _ _ => publication s.state
  | _ => []

/-- A step together with the exchanges up to it. -/
def exchangingStep (lib : Libmodbus) (master : TModbusMasterConfiguration)
    (slave : TModbusSlaveConfiguration) (x : LoopState Plant × List Exchange) (l : PlantLabel) :
    Option (LoopState Plant × List Exchange) :=
  (plantStep lib master slave x.1 l).map fun s => (s, exchanges lib master slave x.1 l ++ x.2)

/-! ## What follows from the exchanges -/

/-- The last request of an action that has reached the slave. -/
def lastTaken (i : ℕ) : List Exchange → Option (List UInt8 × Bool)
  | [] => none
  | .taken j data answered :: history =>
    if j = i then some (data, answered) else lastTaken i history
  | _ :: history => lastTaken i history

/-- What the slave keeps for an action: the bytes of its last request, or zeros before. -/
def takenBytes (action : TModbusAction) (i : ℕ) (history : List Exchange) : List UInt8 :=
  match lastTaken i history with
  | some (data, _) => data
  | none => List.replicate (2 * action.i16uRegisterCount.toNat) 0

/-- What the process image of the slave shows for an action: what the slave kept for it when it last
wrote its process image, or `initial` before. -/
def shownBytes (initial : List UInt8) (action : TModbusAction) (i : ℕ) : List Exchange → List UInt8
  | [] => initial
  | .published :: history => takenBytes action i history
  | _ :: history => shownBytes initial action i history

/-- What the last success of an action that reads registers has fetched. -/
def lastFetched (i : ℕ) : List Exchange → Option (List UInt8)
  | [] => none
  | .fetched j data :: history => if j = i then some data else lastFetched i history
  | _ :: history => lastFetched i history

/-- Each success of an action that writes registers has been preceded immediately by its request,
and the slave has sent its response. -/
def Honest : List Exchange → Prop
  | [] => True
  | .confirmed i :: history => (∃ data rest, history = .taken i data true :: rest) ∧ Honest history
  | _ :: history => Honest history

/-- The registers that two actions of the master write are different ones. -/
def WritesSeparated (master : TModbusMasterConfiguration) : Prop :=
  ∀ (i j : ℕ) (a b : TModbusAction), master.mbActionListHead[i]? = some a →
    master.mbActionListHead[j]? = some b → i ≠ j → a.eFunctionCode.WritesRegisters →
    b.eFunctionCode.WritesRegisters →
    a.register + a.i16uRegisterCount.toNat ≤ b.register ∨
      b.register + b.i16uRegisterCount.toNat ≤ a.register

/-- The users of the process images leave alone what the two threads write there, and other clients
leave the registers alone that the master writes. -/
def LeavesMirrored (master : TModbusMasterConfiguration) (slave : TModbusSlaveConfiguration)
    (x : LoopState Plant × List Exchange) : PlantLabel → Prop
  | .masterUser img => ∀ a ∈ master.mbActionListHead, a.eFunctionCode.isReadFunction = true →
      ∀ k, InDataWindow a k → bit img k = bit x.1.state.master k
  | .slaveUser img => ∀ k, InHoldingWindow slave k → img k = x.1.state.slave k
  | .client c _ => ∀ a ∈ master.mbActionListHead, a.eFunctionCode.WritesRegisters →
      ∀ address words, c.written = some (address, words) →
        address + words.length ≤ a.register ∨
          a.register + a.i16uRegisterCount.toNat ≤ address
  | _ => True

/-- **What the two devices show of each other.** For each action that writes registers, the slave
keeps the bytes of its last request, and its process image shows those that it kept when it last
wrote it: the last ones as soon as a request that it could answer has been processed to the end.
The master confirms only such requests. For each action that reads registers, the process image of
the master shows the bytes that the slave had at the last success. -/
structure Mirrored (master : TModbusMasterConfiguration) (slave : TModbusSlaveConfiguration)
    (initialMaster initialSlave : Image) (x : LoopState Plant × List Exchange) : Prop where
  kept : ∀ (i : ℕ) (a : TModbusAction), master.mbActionListHead[i]? = some a → a.WritesTo slave →
    mappedBytes a x.1.state.mapping = takenBytes a i x.2
  shown : ∀ (i : ℕ) (a : TModbusAction), master.mbActionListHead[i]? = some a → a.WritesTo slave →
    slaveBytes slave a x.1.state.slave = shownBytes (slaveBytes slave a initialSlave) a i x.2
  prompt : ∀ (i : ℕ) (a : TModbusAction) (data : List UInt8),
    master.mbActionListHead[i]? = some a → a.WritesTo slave → x.1.state.unwritten = false →
    lastTaken i x.2 = some (data, true) → slaveBytes slave a x.1.state.slave = data
  honest : Honest x.2
  fetched : ∀ (i : ℕ) (a : TModbusAction), master.mbActionListHead[i]? = some a →
    a.eFunctionCode.ReadsRegisters →
    masterBytes a x.1.state.master = (lastFetched i x.2).getD (masterBytes a initialMaster)

/-! ## The invariant of the slave -/

variable {initial : Image} {p q : Plant} {history : List Exchange} {c : ModbusCall}

/-- The slave has sent the response to a request of the master and not yet written it. -/
def owes : List Exchange → Bool
  | [] | .published :: _ => false
  | .taken _ _ true :: _ => true
  | _ :: history => owes history

/-- What holds on the side of the slave. -/
structure SlaveInv (master : TModbusMasterConfiguration) (slave : TModbusSlaveConfiguration)
    (initial : Image) (p : Plant) (history : List Exchange) : Prop where
  sizes : RegistersOnly slave p.mapping
  kept : ∀ (i : ℕ) (a : TModbusAction), master.mbActionListHead[i]? = some a → a.WritesTo slave →
    mappedBytes a p.mapping = takenBytes a i history
  shown : ∀ (i : ℕ) (a : TModbusAction), master.mbActionListHead[i]? = some a → a.WritesTo slave →
    slaveBytes slave a p.slave = shownBytes (slaveBytes slave a initial) a i history
  behind : owes history = true → p.unwritten = true
  honest : Honest history

/-- A slave that does not owe anything shows what it keeps for an action whose last request it has
answered. -/
theorem shownBytes_of_not_owes {base : List UInt8} {a : TModbusAction} {i : ℕ} {data : List UInt8}
    (howes : owes history = false) (hlast : lastTaken i history = some (data, true)) :
    shownBytes base a i history = data := by
  induction history with
  | nil => cases hlast
  | cons e history ih =>
    cases e with
    | published =>
      show takenBytes a i history = data
      unfold takenBytes
      rw [show lastTaken i history = some (data, true) from hlast]
    | taken j data' answered =>
      cases answered with
      | true => cases howes
      | false =>
        simp only [lastTaken] at hlast
        split_ifs at hlast
        · cases hlast
        · exact ih howes hlast
    | confirmed j => exact ih howes hlast
    | fetched j data' => exact ih howes hlast

/-- After a write of the whole table, the registers of an action are in the process image. -/
theorem slaveBytes_write {a : TModbusAction} (img : Image) {m : ModbusMapping}
    (ha : a.register + a.i16uRegisterCount.toNat ≤ m.tabRegisters.length) :
    slaveBytes slave a (write img slave.tProcessImageConfig.u32HoldingRegistersInputOffset.toNat
      (registerBytes m.tabRegisters)) = mappedBytes a m := by
  unfold slaveBytes mappedBytes
  rw [registerBytes_slice, ← slice_read _ _ (registerBytes m.tabRegisters).length
    (by rw [registerBytes_length]; omega), read_write]

/-- The thread of the slave gets back to `modbus_receive`. -/
theorem SlaveInv.settle (h : SlaveInv master slave initial p history) :
    SlaveInv master slave initial { p with slave := p.settled slave, unwritten := false }
      (publication p ++ history) := by
  unfold publication Plant.settled
  cases hunwritten : p.unwritten with
  | false =>
    refine ⟨h.sizes, h.kept, h.shown, fun howes => ?_, h.honest⟩
    exact hunwritten.symm.trans (h.behind howes)
  | true =>
    refine ⟨h.sizes, h.kept, fun i a hi ha => ?_, fun howes => ?_, h.honest⟩
    · refine (slaveBytes_write p.slave ?_).trans (h.kept i a hi ha)
      rw [h.sizes.tabRegisters]
      exact ha.2
    · cases howes

/-- A success in reading does not matter to the slave. -/
theorem SlaveInv.fetch (h : SlaveInv master slave initial p history) (i : ℕ) (data : List UInt8) :
    SlaveInv master slave initial p (.fetched i data :: history) :=
  ⟨h.sizes, h.kept, h.shown, h.behind, h.honest⟩

/-- A success in writing is honest right after its request. -/
theorem SlaveInv.confirm (h : SlaveInv master slave initial p history) {i : ℕ}
    (hlast : ∃ data rest, history = .taken i data true :: rest) :
    SlaveInv master slave initial p (.confirmed i :: history) :=
  ⟨h.sizes, h.kept, h.shown, h.behind, hlast, h.honest⟩

/-- What a request makes of the registers of an action that it does not write. -/
theorem slice_applyTo_of_disjoint {tab : List UInt16} {i n : ℕ}
    (hdisjoint : ∀ address words, c.written = some (address, words) →
      address + words.length ≤ i ∨ i + n ≤ address) :
    slice (c.applyTo tab) i n = slice tab i n := by
  unfold ModbusCall.applyTo
  cases hwritten : c.written with
  | none => rfl
  | some written =>
    obtain ⟨address, words⟩ := written
    simp only
    split_ifs with hin
    · exact slice_splice_of_disjoint hin.2 (hdisjoint address words hwritten).symm
    · rfl

/-- What a request makes of the registers that it writes. -/
theorem slice_applyTo_self {tab words : List UInt16} {i : ℕ}
    (hwritten : c.written = some (i, words))
    (hpos : 0 < words.length) (hin : i + words.length ≤ tab.length) :
    slice (c.applyTo tab) i words.length = words := by
  unfold ModbusCall.applyTo
  rw [hwritten]
  simp only
  rw [if_pos ⟨hpos, hin⟩]
  exact slice_splice hin

/-- A request that leaves the registers of the actions alone. -/
theorem SlaveInv.answer (h : SlaveInv master slave initial p history)
    (hunwritten : p.unwritten = false) (hmapping : q.mapping = p.answering slave c)
    (hslave : q.slave = p.slave)
    (hdisjoint : ∀ a ∈ master.mbActionListHead, a.WritesTo slave → ∀ address words,
      c.written = some (address, words) → address + words.length ≤ a.register ∨
        a.register + a.i16uRegisterCount.toNat ≤ address) :
    SlaveInv master slave initial q history where
  sizes := hmapping ▸ h.sizes.answering c
  kept i a hi ha := by
    refine Eq.trans ?_ (h.kept i a hi ha)
    unfold mappedBytes
    rw [hmapping]
    exact congrArg registerBytes
      (slice_applyTo_of_disjoint (hdisjoint a (List.mem_of_getElem? hi) ha))
  shown i a hi ha := by
    rw [hslave]
    exact h.shown i a hi ha
  behind howes := by
    rw [h.behind howes] at hunwritten
    cases hunwritten
  honest := h.honest

/-- The request of an action that writes registers. -/
theorem SlaveInv.take (hsep : WritesSeparated master) (h : SlaveInv master slave initial p history)
    (hunwritten : p.unwritten = false) (hmapping : q.mapping = p.answering slave c)
    (hslave : q.slave = p.slave) {i : ℕ} {a : TModbusAction}
    (hi : master.mbActionListHead[i]? = some a) (ha : a.WritesTo slave)
    (hpos : 0 < a.i16uRegisterCount.toNat) {words : List UInt16}
    (hwritten : c.written = some (a.register, words))
    (hlength : words.length = a.i16uRegisterCount.toNat) :
    SlaveInv master slave initial q (.taken i (registerBytes words) q.unwritten :: history) where
  sizes := hmapping ▸ h.sizes.answering c
  kept j b hj hb := by
    have hsizes := h.sizes.tabRegisters
    unfold mappedBytes
    rw [hmapping]
    show registerBytes (slice (c.applyTo p.mapping.tabRegisters) _ _) = _
    by_cases hij : i = j
    · -- its own registers
      subst hij
      obtain rfl := Option.some.inj (hi.symm.trans hj)
      have hin := hb.2
      rw [← hlength, slice_applyTo_self hwritten (by omega) (by omega)]
      simp only [takenBytes, lastTaken, if_true]
    · -- those of another action
      have hdisjoint := hsep i j a b hi hj hij ha.1 hb.1
      rw [slice_applyTo_of_disjoint fun address words' hwritten' => by
        obtain ⟨rfl, rfl⟩ := Prod.mk.inj (Option.some.inj (hwritten.symm.trans hwritten'))
        rwa [hlength]]
      refine (h.kept j b hj hb).trans ?_
      simp only [takenBytes, lastTaken, if_neg hij]
  shown j b hj hb := by
    rw [hslave]
    exact h.shown j b hj hb
  behind howes := by
    cases hq : q.unwritten with
    | true => rfl
    | false =>
      rw [hq] at howes
      rw [h.behind howes] at hunwritten
      cases hunwritten
  honest := h.honest

/-- The process image of the master does not matter to the slave. -/
theorem SlaveInv.congr (h : SlaveInv master slave initial p history)
    (hq : { q with master := fun _ => 0 } = { p with master := fun _ => 0 }) :
    SlaveInv master slave initial q history := by
  obtain ⟨img, slave', wire, mapping, unwritten, fate⟩ := q
  obtain ⟨-, rfl, rfl, rfl, rfl, rfl⟩ := Plant.mk.inj hq
  exact ⟨h.sizes, h.kept, h.shown, h.behind, h.honest⟩

/-! ## One action of the master -/

/-- Registers that do not exist are not confirmed. -/
theorem written_le_of_answer {m : ModbusMapping} {address : ℕ} {words : List UInt16}
    (hc : c.Sendable) (hwritten : c.written = some (address, words)) (hlen : 0 ≤ (c.answer m).1) :
    address + words.length ≤ m.tabRegisters.length := by
  unfold ModbusCall.answer at hlen
  cases c with
  | writeRegister addr value =>
    obtain ⟨rfl, rfl⟩ := Prod.mk.inj (Option.some.inj hwritten)
    simp only at hlen
    split_ifs at hlen with hin
    · exact hin
    · exact absurd hlen (by decide)
  | writeRegisters addr nb data =>
    obtain ⟨rfl, rfl⟩ := Prod.mk.inj (Option.some.inj hwritten)
    simp only at hlen
    split_ifs at hlen with hin
    · show _ + ((bytesRegisters data).take nb).length ≤ _
      rw [List.length_take, bytesRegisters_length hc.2, min_self]
      exact hin.2
    · exact absurd hlen (by decide)
  | _ => cases hwritten

/-- Only the calls that write registers write registers. -/
theorem written_eq_none (h : ¬ c.function.WritesRegisters) : c.written = none := by
  cases c with
  | writeRegister => exact absurd (.inl rfl) h
  | writeRegisters => exact absurd (.inr rfl) h
  | _ => rfl

theorem publishes_of_writesRegisters (h : c.function.WritesRegisters) : c.publishes = true := by
  unfold ModbusCall.publishes
  obtain h | h := h <;> rw [h] <;> rfl

theorem imageWords_bytes (img : Image) (a : TModbusAction) :
    (imageWords img a).length = a.i16uRegisterCount.toNat ∧
      registerBytes (imageWords img a) = masterBytes a img :=
  ⟨bytesRegisters_length (read_length _ _), registerBytes_bytesRegisters (read_length _ _)⟩

/-- The request of an action that writes registers reaches the slave. -/
theorem SlaveInv.process_write (hlib : lib.Documented) (hsep : WritesSeparated master)
    (h : SlaveInv master slave initial p history) {i : ℕ} {a : TModbusAction}
    (hi : master.mbActionListHead[i]? = some a) (hwrites : a.eFunctionCode.WritesRegisters)
    (hfunction : c.function = a.eFunctionCode) (hpos : 0 < a.i16uRegisterCount.toNat)
    (hc : c.Sendable) (hwritten : c.written = some (a.register, imageWords p.master a)) {len : ℤ}
    (hlen : len = ((p.served lib slave c p.fate.responds).replyTo lib c).len) :
    SlaveInv master slave initial (p.served lib slave c p.fate.responds)
      ((if 0 ≤ len then [.confirmed i] else []) ++
        ((if a.WritesTo slave then [.taken i (masterBytes a p.master) p.fate.responds] else []) ++
          (publication p ++ history))) := by
  have hsettled := h.settle
  obtain ⟨hlength, hbytes⟩ := imageWords_bytes p.master a
  have hreport : ∀ maxDest, c ≠ .reportSlaveId maxDest := by
    rintro maxDest rfl
    cases hwritten
  have hconfirmed : 0 ≤ len → p.fate.responds = true ∧ a.WritesTo slave := by
    intro hle
    rw [hlen] at hle
    obtain ⟨hresponds, hanswer⟩ := replyTo_served hlib h.sizes hc hreport hle
    refine ⟨hresponds, hwrites, ?_⟩
    have hin := written_le_of_answer (m := p.answering slave c) hc hwritten
      (hanswer ▸ hle)
    rwa [hlength, (h.sizes.answering c).tabRegisters] at hin
  by_cases hto : a.WritesTo slave
  · have htaken := hsettled.take (q := p.served lib slave c p.fate.responds) hsep rfl rfl rfl hi hto
      hpos hwritten hlength
    have hunwritten : (p.served lib slave c p.fate.responds).unwritten = p.fate.responds := by
      show (_ && c.publishes) = _
      rw [publishes_of_writesRegisters (hfunction ▸ hwrites), Bool.and_true]
    rw [hunwritten, hbytes] at htaken
    rw [if_pos hto, List.singleton_append]
    split_ifs with hle
    · exact htaken.confirm
        ⟨masterBytes a p.master, publication p ++ history, by rw [(hconfirmed hle).1]⟩
    · exact htaken
  · rw [if_neg hto, if_neg fun hle => hto (hconfirmed hle).2]
    -- registers that do not exist are not those of another action either
    refine hsettled.answer rfl rfl rfl fun b hb hbto address words hwritten' => ?_
    obtain ⟨j, hj⟩ := List.getElem?_of_mem hb
    obtain ⟨rfl, rfl⟩ := Prod.mk.inj (Option.some.inj (hwritten.symm.trans hwritten'))
    have hij : i ≠ j := by
      rintro rfl
      obtain rfl := Option.some.inj (hi.symm.trans hj)
      exact hto hbto
    rw [hlength]
    exact hsep i j a b hi hj hij hwrites hbto.1

/-- **An action of the master on the side of the slave.** -/
theorem SlaveInv.process (hlib : lib.Documented) (hsep : WritesSeparated master)
    (h : SlaveInv master slave initial p history) {i : ℕ} {a : TModbusAction}
    (hi : master.mbActionListHead[i]? = some a) {buffer : List UInt8} {out : Transaction Plant}
    (hout : processModbusAction (plantHost lib slave) a buffer p = .ok out) :
    SlaveInv master slave initial out.state (actionExchanges slave i a p out ++ history) := by
  unfold actionExchanges
  cases processModbusAction_requested (plantHost_keeps lib slave) hout with
  | silent request len kept =>
    rw [request]
    exact h.congr kept
  | once call s function before request len after =>
    obtain ⟨hlen, hstate⟩ := call_withMaster (c := call) hlib h.sizes before
    rw [request]
    replace len : out.len = (p.call lib slave call).1.len := len.trans hlen
    replace after := after.trans hstate
    by_cases hreaches : call.Sendable ∧ p.fate.arrives = true
    · rw [call_of_arrives hlib h.sizes hreaches.1 hreaches.2] at len after
      refine SlaveInv.congr ?_ after
      simp only [hreaches, and_self, if_true, List.append_assoc]
      by_cases hwrites : a.eFunctionCode.WritesRegisters
      · have hreads : ¬ a.eFunctionCode.ReadsRegisters := by
          rintro (hr | hr) <;> rw [hr] at hwrites <;> exact absurd hwrites (by decide)
        obtain ⟨hpos, -, hwritten⟩ := processModbusAction_writesWords
          (plantHost_succeeds hlib slave) hwrites hout request
        simp only [hwrites, hreads, true_and, false_and, if_false, List.nil_append]
        exact h.process_write hlib hsep hi hwrites function hpos hreaches.1 hwritten len
      · have hto : ¬ a.WritesTo slave := fun hto => hwrites hto.1
        have hnone : call.written = none := written_eq_none (function ▸ hwrites)
        simp only [hwrites, hto, false_and, if_false, List.nil_append]
        have hanswered : SlaveInv master slave initial (p.served lib slave call p.fate.responds)
            (publication p ++ history) :=
          h.settle.answer rfl rfl rfl fun _ _ _ address words hwritten => by
            rw [hnone] at hwritten
            cases hwritten
        split_ifs
        · exact hanswered.fetch i _
        · exact hanswered
    · obtain ⟨hlost, hsame⟩ := call_of_lost lib slave hreaches
      rw [hlost] at len
      rw [hsame] at after
      have hnot : ¬ 0 ≤ out.len := by omega
      have hnot' : ¬ (a.i16uRegisterCount.toNat : ℤ) ≤ out.len := by omega
      simp only [hnot, hnot', and_false, if_false, hreaches, List.nil_append]
      exact h.congr after

/-! ## The other steps, on the side of the slave -/

section Kept

variable {σ τ : Type} {host : Host σ} {f : σ → τ} {config : TModbusMasterConfiguration}
  {s s' : LoopState σ}

theorem resetModbusActionStatus_kept (hkeeps : host.Keeps f) (resetByte : UInt32) (resetBit : UInt8)
    (statusByte : UInt32) (state : σ) :
    f (resetModbusActionStatus host resetByte resetBit statusByte state).2 = f state := by
  unfold resetModbusActionStatus
  simp only
  split_ifs
  · exact hkeeps.getBit _ _
  · exact (hkeeps.write _ _ _).trans (hkeeps.getBit _ _)
  · exact (hkeeps.setBit _ _).trans ((hkeeps.write _ _ _).trans (hkeeps.getBit _ _))
  · exact hkeeps.getBit _ _

theorem connectStep_kept (hkeeps : host.Keeps f) {connected : Bool} {malloc : ℕ → Bool}
    {currentTime : Timespec}
    (h : connectStep host config connected malloc currentTime s = some s') :
    f s'.state = f s.state := by
  have hstatus : ∀ error, f (writeDeviceStatus host config error s.state) = f s.state :=
    fun error => hkeeps.write _ _ _
  unfold connectStep at h
  split at h
  · split at h
    · split_ifs at h
      · cases h
        exact hstatus _
      · cases h
        exact hstatus _
    · cases h
  · cases h
    exact hstatus _

/-- Only the processing of an action makes a request. -/
theorem loopStep_kept (hkeeps : host.Keeps f) (h : loopStep host config s .proceed = some s') :
    (∀ nextEvent, s.phase ≠ .process nextEvent) ∧ f s'.state = f s.state ∨
      ∃ nextEvent action out, s.phase = .process nextEvent ∧
        config.mbActionListHead[nextEvent.ptModbusAction]? = some action ∧
        processModbusAction host action s.buffer s.state = .ok out ∧ s'.state = out.state := by
  simp only [loopStep] at h
  cases hphase : s.phase with
  | connect | ended =>
    rw [hphase] at h
    cases h
  | nextEvent =>
    rw [hphase] at h
    simp only at h
    split at h
    · cases h
      exact .inl ⟨by simp, rfl⟩
    · cases h
  | reset pending nextEvent =>
    rw [hphase] at h
    cases pending with
    | nil =>
      cases h
      exact .inl ⟨by simp, resetModbusActionStatus_kept hkeeps _ _ _ _⟩
    | cons i pending =>
      simp only at h
      split at h
      · cases h
        exact .inl ⟨by simp, resetModbusActionStatus_kept hkeeps _ _ _ _⟩
      · cases h
  | process nextEvent =>
    rw [hphase] at h
    simp only at h
    split at h
    · rename_i action haction
      unfold processStep at h
      cases hout : processModbusAction host action s.buffer s.state with
      | error fault =>
        rw [hout] at h
        cases h
      | ok out =>
        rw [hout] at h
        cases h
        exact .inr ⟨nextEvent, action, out, rfl, haction, hout, rfl⟩
    · cases h

/-- So does the parser. -/
theorem start_kept (hkeeps : host.Keeps f) (state : σ) :
    f (LoopState.start host config state).state = f state := by
  have hfold : ∀ (actions : List TModbusAction) (s : σ),
      f (actions.foldl (fun s a => initializeStatus host a s) s) = f s := by
    intro actions
    induction actions with
    | nil => exact fun _ => rfl
    | cons a actions ih =>
      exact fun s => (ih _).trans ((hkeeps.write _ _ _).trans (hkeeps.setBit _ _))
  exact hfold _ state

end Kept

theorem exchanges_of_ne_process {s : LoopState Plant}
    (hphase : ∀ nextEvent, s.phase ≠ .process nextEvent) :
    exchanges lib master slave s .proceed = [] := by
  cases h : s.phase with
  | process nextEvent => exact absurd h (hphase nextEvent)
  | _ => simp only [exchanges, h]

theorem exchanges_of_process {s : LoopState Plant} {nextEvent : TModbusEvent} {a : TModbusAction}
    {out : Transaction Plant} (hphase : s.phase = .process nextEvent)
    (ha : master.mbActionListHead[nextEvent.ptModbusAction]? = some a)
    (hout : processModbusAction (plantHost lib slave) a s.buffer s.state = .ok out) :
    exchanges lib master slave s .proceed =
      actionExchanges slave nextEvent.ptModbusAction a s.state out := by
  simp only [exchanges, hphase, ha, hout]

/-- **Every step keeps the invariant of the slave.** -/
theorem SlaveInv.step (hlib : lib.Documented) (hsep : WritesSeparated master)
    {x x' : LoopState Plant × List Exchange} {l : PlantLabel}
    (h : SlaveInv master slave initial x.1.state x.2) (hleaves : LeavesMirrored master slave x l)
    (hs : exchangingStep lib master slave x l = some x') :
    SlaveInv master slave initial x'.1.state x'.2 := by
  obtain ⟨s, history⟩ := x
  obtain ⟨s', hstep, rfl⟩ := Option.map_eq_some_iff.mp hs
  have hkeeps := plantHost_keeps lib slave
  cases l with
  | connect connected malloc currentTime =>
    simp only [plantStep, loopStep, Option.ite_none_right_eq_some] at hstep
    exact h.congr (connectStep_kept hkeeps hstep.2)
  | proceed =>
    obtain ⟨hphase, hkept⟩ | ⟨nextEvent, a, out, hphase, ha, hout, hstate⟩ :=
      loopStep_kept hkeeps hstep
    · show SlaveInv master slave initial s'.state (exchanges lib master slave s .proceed ++ history)
      rw [exchanges_of_ne_process hphase]
      exact h.congr hkept
    · show SlaveInv master slave initial s'.state (exchanges lib master slave s .proceed ++ history)
      rw [exchanges_of_process hphase ha hout, hstate]
      exact h.process hlib hsep ha hout
  | masterUser img =>
    simp only [plantStep, loopStep, Option.ite_none_right_eq_some] at hstep
    cases hstep.2
    exact h.congr rfl
  | slaveUser img =>
    cases hstep
    refine ⟨h.sizes, h.kept, fun i a hi ha => ?_, h.behind, h.honest⟩
    refine Eq.trans ?_ (h.shown i a hi ha)
    refine read_congr fun k hk hk' => hleaves k ⟨by omega, ?_⟩
    have hin := ha.2
    omega
  | publish =>
    simp only [plantStep, publish_eq lib h.sizes] at hstep
    cases hstep
    exact h.settle
  | client c responds =>
    simp only [plantStep] at hstep
    split_ifs at hstep with hc
    rw [serve_eq hlib h.sizes hc] at hstep
    cases hstep
    exact h.settle.answer rfl rfl rfl fun a ha hto => hleaves a ha hto.1
  | line fate =>
    cases hstep
    exact ⟨h.sizes, h.kept, h.shown, h.behind, h.honest⟩

/-! ## What the master fetches -/

/-- The table from which an action that reads registers is answered. -/
def sourceTable (a : TModbusAction) (m : ModbusMapping) : List UInt16 :=
  if a.eFunctionCode = .readInputRegisters then m.tabInputRegisters else m.tabRegisters

theorem readCall_answer (a : TModbusAction) (m : ModbusMapping) : a.readCall.answer m =
    if 0 < a.i16uRegisterCount.toNat ∧
        a.register + a.i16uRegisterCount.toNat ≤ (sourceTable a m).length then
      ((a.i16uRegisterCount.toNat : ℤ),
        registerBytes (slice (sourceTable a m) a.register a.i16uRegisterCount.toNat))
    else (-1, []) := by
  unfold TModbusAction.readCall sourceTable
  by_cases hcode : a.eFunctionCode = .readInputRegisters
  · simp only [if_pos hcode]
    rfl
  · simp only [if_neg hcode]
    rfl

/-- The bytes behind the table, once the slave has taken the request. -/
theorem sourceTable_bytes {a : TModbusAction}
    (hin : a.register + a.i16uRegisterCount.toNat ≤
      (sourceTable a (p.answering slave a.readCall)).length) :
    registerBytes (slice (sourceTable a (p.answering slave a.readCall)) a.register
      a.i16uRegisterCount.toNat) = sourceBytes slave a p := by
  unfold sourceTable TModbusAction.readCall at hin ⊢
  unfold sourceBytes
  split_ifs at hin ⊢ with hcode
  · -- input registers, which the slave has refreshed
    have htab : (p.answering slave (.readInputRegisters a.modbusAddress
        a.i16uRegisterCount.toNat)).tabInputRegisters = windowRegisters (p.settled slave)
          slave.tProcessImageConfig.u32InputRegistersOffset
          p.mapping.tabInputRegisters.length := rfl
    rw [htab, windowRegisters_length] at hin
    rw [htab, registerBytes_slice]
    unfold windowRegisters
    rw [registerBytes_bytesRegisters (read_length _ _), slice_read _ _ _ (by omega)]
  · -- holding registers
    rfl

/-- The slave's registers of an action that reads registers, when its request succeeds. -/
theorem readCall_data (hlib : lib.Documented) (h : RegistersOnly slave p.mapping)
    {a : TModbusAction}
    (hlen : (a.i16uRegisterCount.toNat : ℤ) ≤ (p.call lib slave a.readCall).1.len) :
    (p.call lib slave a.readCall).1.data = sourceBytes slave a p ∧
      (sourceBytes slave a p).length = 2 * a.i16uRegisterCount.toNat := by
  have hreaches : a.readCall.Sendable ∧ p.fate.arrives = true := by
    by_contra hnot
    rw [(call_of_lost lib slave hnot).1] at hlen
    omega
  rw [call_of_arrives hlib h hreaches.1 hreaches.2] at hlen ⊢
  have hreport : ∀ maxDest, a.readCall ≠ .reportSlaveId maxDest := by
    intro maxDest
    unfold TModbusAction.readCall
    split_ifs <;> exact fun h => by cases h
  obtain ⟨-, hanswer⟩ := replyTo_served hlib h hreaches.1 hreport
    ((Int.natCast_nonneg _).trans hlen)
  obtain ⟨hlenEq, hdataEq⟩ := Prod.ext_iff.mp hanswer
  dsimp only at hlen hlenEq hdataEq ⊢
  rw [hlenEq, readCall_answer] at hlen
  rw [hdataEq, readCall_answer]
  split_ifs at hlen ⊢ with hin
  · have hbytes := sourceTable_bytes hin.2
    refine ⟨hbytes, ?_⟩
    rw [← hbytes, registerBytes_length, slice_length hin.2]
  · dsimp only at hlen
    omega

/-- What holds on the side of the master: the replies that its process image shows are what it has
fetched. -/
def FetchInv (lib : Libmodbus) (master : TModbusMasterConfiguration)
    (slave : TModbusSlaveConfiguration) (initial : Image) (x : LoopState Plant × List Exchange) :
    Prop :=
  ∃ deliveries, DataInv (plantHost lib slave) master initial (x.1, deliveries) ∧
    ∀ (i : ℕ) (a : TModbusAction), master.mbActionListHead[i]? = some a →
      a.eFunctionCode.ReadsRegisters → lastReply i deliveries = lastFetched i x.2 ∧
        ∀ data, lastFetched i x.2 = some data → data.length = 2 * a.i16uRegisterCount.toNat

theorem lastFetched_actionExchanges (i j : ℕ) (a : TModbusAction) (p : Plant)
    (out : Transaction Plant) (history : List Exchange) :
    lastFetched i (actionExchanges slave j a p out ++ history) =
      if out.request.isSome ∧ a.eFunctionCode.ReadsRegisters ∧
        a.i16uRegisterCount.toNat ≤ out.len ∧ j = i then some (sourceBytes slave a p)
      else lastFetched i history := by
  have hpublication : ∀ history,
      lastFetched i (publication p ++ history) = lastFetched i history := by
    intro history
    unfold publication
    split_ifs <;> rfl
  unfold actionExchanges
  cases out.request with
  | none => simp
  | some call =>
    simp only [Option.isSome_some, true_and]
    split_ifs <;> simp_all [lastFetched]

/-- The replies and what has been fetched go together. -/
theorem FetchInv.process (hlib : lib.Documented) {s : LoopState Plant} {deliveries : List Delivery}
    (hsizes : RegistersOnly slave s.state.mapping)
    (hlast : ∀ (i : ℕ) (a : TModbusAction), master.mbActionListHead[i]? = some a →
      a.eFunctionCode.ReadsRegisters → lastReply i deliveries = lastFetched i history ∧
        ∀ data, lastFetched i history = some data → data.length = 2 * a.i16uRegisterCount.toNat)
    {nextEvent : TModbusEvent} {b : TModbusAction} {out : Transaction Plant}
    (hphase : s.phase = .process nextEvent)
    (hb : master.mbActionListHead[nextEvent.ptModbusAction]? = some b)
    (hout : processModbusAction (plantHost lib slave) b s.buffer s.state = .ok out) (i : ℕ)
    (a : TModbusAction) (hi : master.mbActionListHead[i]? = some a)
    (hreads : a.eFunctionCode.ReadsRegisters) :
    lastReply i (observeData (plantHost lib slave) master s .proceed ++ deliveries) =
        lastFetched i (exchanges lib master slave s .proceed ++ history) ∧
      ∀ data, lastFetched i (exchanges lib master slave s .proceed ++ history) = some data →
        data.length = 2 * a.i16uRegisterCount.toNat := by
  obtain ⟨hreply, hlength⟩ := hlast i a hi hreads
  rw [exchanges_of_process hphase hb hout, lastFetched_actionExchanges]
  simp only [observeData, hphase, hb, hout]
  by_cases hij : nextEvent.ptModbusAction = i
  · obtain rfl : a = b := by
      rw [hij] at hb
      exact Option.some.inj (hi.symm.trans hb)
    obtain ⟨hrequest, -⟩ := processModbusAction_readsWords hreads hout
    have hisRead : a.eFunctionCode.isReadFunction = true := by
      obtain hr | hr := hreads <;> rw [hr] <;> rfl
    have hlen : out.len = (s.state.call lib slave a.readCall).1.len := by
      cases processModbusAction_requested (plantHost_keeps lib slave) hout with
      | silent request => cases request.symm.trans hrequest
      | once call s' function before request len after =>
        obtain rfl := Option.some.inj (request.symm.trans hrequest)
        exact len.trans (call_withMaster hlib hsizes before).1
    unfold delivered
    by_cases hcomplete : (a.i16uRegisterCount.toNat : ℤ) ≤ out.len
    · obtain ⟨hdata, hsource⟩ := readCall_data hlib hsizes (hlen ▸ hcomplete)
      have hcall : ((plantHost lib slave).modbus a.readCall s.state).1.data =
          sourceBytes slave a s.state := hdata
      simp only [hrequest, hisRead, hcomplete, hreads, hij, and_self, if_true, Option.isSome_some,
        Option.map_some, hcall, Option.toList_some, List.singleton_append, lastReply]
      refine ⟨trivial, fun data h => ?_⟩
      rw [← Option.some.inj h, hsource]
    · simp only [hcomplete, and_false, false_and, if_false, Option.map_none, Option.toList_none,
        List.nil_append]
      exact ⟨hreply, hlength⟩
  · simp only [hij, and_false, if_false]
    refine ⟨?_, hlength⟩
    cases delivered (plantHost lib slave) b s.state out with
    | none => exact hreply
    | some data =>
      simp only [Option.map_some, Option.toList_some, List.singleton_append, lastReply, if_neg hij]
      exact hreply

/-- **Every step keeps what the master has fetched.** -/
theorem FetchInv.step (hlib : lib.Documented) (hdata : DataSeparated (plantHost lib slave) master)
    {x x' : LoopState Plant × List Exchange} {l : PlantLabel}
    (hsizes : RegistersOnly slave x.1.state.mapping) (h : FetchInv lib master slave initial x)
    (hleaves : LeavesMirrored master slave x l)
    (hs : exchangingStep lib master slave x l = some x') :
    FetchInv lib master slave initial x' := by
  obtain ⟨s, history⟩ := x
  obtain ⟨s', hstep, rfl⟩ := Option.map_eq_some_iff.mp hs
  obtain ⟨deliveries, hinv, hlast⟩ := h
  have hsucceeds := plantHost_succeeds hlib slave
  -- a step that the master does not take part in
  have hquiet : ∀ history' : List Exchange, s'.state.master = s.state.master →
      (∀ i, lastFetched i history' = lastFetched i history) →
      FetchInv lib master slave initial (s', history') := by
    intro history' hmaster hhistory
    refine ⟨deliveries, hinv.quiet hdata fun k _ => ?_, fun i a hi hreads => ?_⟩
    · exact bit_congr (congrFun hmaster (k / 8))
    · rw [hhistory]
      exact hlast i a hi hreads
  have hpublication : ∀ i,
      lastFetched i (publication s.state ++ history) = lastFetched i history := by
    intro i
    unfold publication
    split_ifs <;> rfl
  have hloop : ∀ l, loopStep (plantHost lib slave) master s l = some s' →
      LeavesData (plantHost lib slave) master (s, deliveries) l →
      DataInv (plantHost lib slave) master initial
        (s', observeData (plantHost lib slave) master s l ++ deliveries) := by
    intro l hl hleaves
    refine hinv.step hsucceeds hdata hleaves ?_
    unfold deliveringStep
    rw [hl]
    rfl
  cases l with
  | connect connected malloc currentTime =>
    exact ⟨deliveries, hloop (.connect connected malloc currentTime) hstep trivial, hlast⟩
  | masterUser img =>
    exact ⟨deliveries, hloop (.user { s.state with master := img }) hstep hleaves, hlast⟩
  | proceed =>
    refine ⟨_, hloop .proceed hstep trivial, ?_⟩
    obtain ⟨hphase, -⟩ | ⟨nextEvent, b, out, hphase, hb, hout, -⟩ :=
      loopStep_kept (plantHost_keeps lib slave) hstep
    · show ∀ (i : ℕ) (a : TModbusAction), _ → _ → lastReply i _ = lastFetched i
        (exchanges lib master slave s .proceed ++ history) ∧ _
      rw [exchanges_of_ne_process hphase]
      have hnone : observeData (plantHost lib slave) master s .proceed = [] := by
        cases h : s.phase with
        | process nextEvent => exact absurd h (hphase nextEvent)
        | _ => simp only [observeData, h]
      rw [hnone]
      exact hlast
    · exact FetchInv.process hlib hsizes hlast hphase hb hout
  | slaveUser img =>
    cases hstep
    exact hquiet history rfl fun _ => rfl
  | publish =>
    simp only [plantStep, publish_eq lib hsizes] at hstep
    cases hstep
    exact hquiet _ rfl hpublication
  | client c responds =>
    simp only [plantStep] at hstep
    split_ifs at hstep with hc
    rw [serve_eq hlib hsizes hc] at hstep
    cases hstep
    exact hquiet _ rfl hpublication
  | line fate =>
    cases hstep
    exact hquiet history rfl fun _ => rfl

/-- The bytes of an action that reads registers, from the replies. -/
theorem FetchInv.bytes {x : LoopState Plant × List Exchange}
    (h : FetchInv lib master slave initial x)
    {i : ℕ} {a : TModbusAction} (hi : master.mbActionListHead[i]? = some a)
    (hreads : a.eFunctionCode.ReadsRegisters) :
    masterBytes a x.1.state.master = (lastFetched i x.2).getD (masterBytes a initial) := by
  obtain ⟨deliveries, hinv, hlast⟩ := h
  obtain ⟨hreply, hlength⟩ := hlast i a hi hreads
  have hisRead : a.eFunctionCode.isReadFunction = true := by
    obtain hr | hr := hreads <;> rw [hr] <;> rfl
  have hbits := hinv i a hi hisRead
  have hwindow : ∀ k, a.i32uStartByteProcessData.toNat ≤ k / 8 →
      k / 8 < a.i32uStartByteProcessData.toNat + 2 * a.i16uRegisterCount.toNat →
      InDataWindow a k := by
    intro k hle hlt
    unfold InDataWindow
    obtain hr | hr := hreads <;> simp only [hr] <;> exact ⟨hle, hlt⟩
  unfold shownBit at hbits
  rw [hreply] at hbits
  unfold masterBytes
  cases hfetched : lastFetched i x.2 with
  | none =>
    rw [hfetched] at hbits
    refine read_congr fun k hle hlt => eq_of_bit fun n hn => ?_
    subst hn
    exact hbits n (hwindow n hle hlt)
  | some data =>
    rw [hfetched] at hbits
    have hdata := hlength data hfetched
    have hstore : ∀ img, storeReply a data img =
        write img a.i32uStartByteProcessData.toNat data := by
      intro img
      have htake : data.take (replyBytes a) = data := by
        apply List.take_of_length_le
        unfold replyBytes
        obtain hr | hr := hreads <;> simp only [hr] <;> omega
      unfold storeReply
      rw [htake]
      obtain hr | hr := hreads <;> simp only [hr]
    simp only [hstore] at hbits
    have hself : ByteImage.read (write (fun _ => 0) a.i32uStartByteProcessData.toNat data)
        a.i32uStartByteProcessData.toNat data.length = data := read_write _ _
    rw [Option.getD_some, ← hself, hdata]
    refine read_congr fun k hle hlt => eq_of_bit fun n hn => ?_
    subst hn
    exact hbits n (hwindow n hle (by omega))

/-! ## The two devices in every run -/

theorem slaveInv_start (hcoils : slave.tModbusDataConfig.u16Coils = 0)
    (hdiscrete : slave.tModbusDataConfig.u16DiscreteInputs = 0)
    (hmapping : p.mapping = modbusMappingNew slave.tModbusDataConfig) :
    SlaveInv master slave p.slave p [] where
  sizes := hmapping ▸ .new hcoils hdiscrete
  kept i a hi ha := by
    have hslice : slice p.mapping.tabRegisters a.register a.i16uRegisterCount.toNat =
        List.replicate a.i16uRegisterCount.toNat 0 := by
      have hin := ha.2
      rw [hmapping]
      unfold slice modbusMappingNew
      rw [List.drop_replicate, List.take_replicate]
      congr 1
      omega
    unfold mappedBytes
    rw [hslice, registerBytes_replicate]
    rfl
  shown _ _ _ _ := rfl
  behind howes := by cases howes
  honest := trivial

theorem mirrored_of_inv {x : LoopState Plant × List Exchange} {initialMaster initialSlave : Image}
    (h : SlaveInv master slave initialSlave x.1.state x.2)
    (hfetch : FetchInv lib master slave initialMaster x) :
    Mirrored master slave initialMaster initialSlave x where
  kept := h.kept
  shown := h.shown
  prompt i a data hi ha hunwritten hlast := by
    have howes : owes x.2 = false := by
      by_contra hnot
      rw [h.behind (Bool.not_eq_false _ ▸ hnot)] at hunwritten
      cases hunwritten
    rw [h.shown i a hi ha]
    exact shownBytes_of_not_owes howes hlast
  honest := h.honest
  fetched i a hi hreads := hfetch.bytes hi hreads

/-- **From one process image to the other.** Let the write actions of a master write different
registers, and let its read actions have separate data. In every run of the master and a slave with
registers on a line that loses requests and responses, with a slave that writes its process image
some time after each reply, and with other clients and users that leave the registers and the
windows of the two threads alone: the process image of the slave shows the bytes of the last
request of each action that writes registers, as they were in the process image of the master, as
soon as the slave has processed a request that it could answer; the master confirms no other
request; and its own process image shows, for each action that reads registers, the bytes that the
slave had at the last success. -/
theorem mirrored_run (hlib : lib.Documented) (hcoils : slave.tModbusDataConfig.u16Coils = 0)
    (hdiscrete : slave.tModbusDataConfig.u16DiscreteInputs = 0)
    (hdata : DataSeparated (plantHost lib slave) master) (hsep : WritesSeparated master) (p : Plant)
    (hmapping : p.mapping = modbusMappingNew slave.tModbusDataConfig) (labels : List PlantLabel)
    (hleaves : Along (exchangingStep lib master slave) (LeavesMirrored master slave)
      (.start (plantHost lib slave) master p, []) labels) :
    Throughout (exchangingStep lib master slave) (Mirrored master slave p.master p.slave)
      (.start (plantHost lib slave) master p, []) labels := by
  have hslave : SlaveInv master slave p.slave
      (LoopState.start (plantHost lib slave) master p).state [] :=
    (slaveInv_start hcoils hdiscrete hmapping).congr (start_kept (plantHost_keeps lib slave) p)
  have hfetch : FetchInv lib master slave p.master (.start (plantHost lib slave) master p, []) :=
    ⟨[], dataInv_start (plantHost_succeeds hlib slave) hdata p,
      fun _ _ _ _ => ⟨rfl, fun _ h => by cases h⟩⟩
  have hinv : Throughout (exchangingStep lib master slave)
      (fun x => SlaveInv master slave p.slave x.1.state x.2 ∧
        FetchInv lib master slave p.master x)
      (.start (plantHost lib slave) master p, []) labels :=
    throughout_of_along (fun _ _ _ h hl hs =>
      ⟨h.1.step hlib hsep hl hs, h.2.step hlib hdata h.1.sizes hl hs⟩) ⟨hslave, hfetch⟩ hleaves
  exact hinv.imp fun _ h => mirrored_of_inv h.1 h.2

/-- A write of a register and a read of an input register. -/
def mirrorConfig : TModbusMasterConfiguration :=
  { twoReadsConfig with
    mbActionListHead := [
      { i16uActionID := 1, i8uSlaveAddress := 1, eFunctionCode := .writeSingleRegister
        i32uStartRegister := 1, i16uRegisterCount := 1, i32uIntervalUs := 1000000
        i32uStartByteProcessData := 2, i8uStartBitProcessData := 0
        i32uStatusByteProcessImageOffset := 10, i32uResetStatusProcessImageByteOffset := 12
        i8uResetStatusProcessImageBitOffset := 0 },
      { i16uActionID := 2, i8uSlaveAddress := 1, eFunctionCode := .readInputRegisters
        i32uStartRegister := 1, i16uRegisterCount := 1, i32uIntervalUs := 1000000
        i32uStartByteProcessData := 0, i8uStartBitProcessData := 0
        i32uStatusByteProcessImageOffset := 11, i32uResetStatusProcessImageByteOffset := 12
        i8uResetStatusProcessImageBitOffset := 1 }] }

theorem mirrorConfig_dataSeparated :
    DataSeparated (plantHost framedLibmodbus twoRegistersConfig) mirrorConfig where
  windows i j a b hi hj hij ha hb k _ _ := by
    rcases i with - | - | i
    · cases hi
      cases ha
    · rcases j with - | - | j
      · cases hj
        cases hb
      · exact absurd rfl hij
      · cases hj
    · cases hi
  latches a ha hread k hk := by
    simp only [mirrorConfig, List.mem_cons, List.not_mem_nil, or_false] at ha
    obtain rfl | rfl := ha
    · cases hread
    · simp [InDataWindow, InLatches, mirrorConfig, twoReadsConfig, deviceLatch,
        TModbusAction.latch, plantHost] at hk ⊢
      omega

theorem mirrorConfig_writesSeparated : WritesSeparated mirrorConfig := by
  intro i j a b hi hj hij ha hb
  rcases i with - | - | i
  · rcases j with - | - | j
    · exact absurd rfl hij
    · cases hj
      exact absurd hb (by decide)
    · cases hj
  · cases hi
    exact absurd ha (by decide)
  · cases hi

/-- The master holds a 5 for the register of the slave, and the slave a 7 for that of the master. -/
def fiveAndSeven : Plant where
  master k := if k = 2 then 5 else 0
  slave k := if k = 2 then 7 else 0
  wire := { inbox := framedLibmodbus.request (.reportSlaveId 0), responds := true, outbox := none }
  mapping := modbusMappingNew twoRegistersConfig.tModbusDataConfig
  unwritten := false
  fate := { arrives := true, responds := true, returns := true, errno := 110 }

/-- Both actions in turn; then the line loses a response, and then a request. -/
def lossyPass : List PlantLabel :=
  .connect true (fun _ => true) ⟨0, 0⟩ :: List.replicate 8 .proceed ++
    .line { arrives := true, responds := true, returns := false, errno := 110 } ::
    List.replicate 4 .proceed ++
    [.client (.readRegisters 0 1) true,
      .line { arrives := false, responds := true, returns := true, errno := 110 }] ++
    List.replicate 4 .proceed

/-- The slave takes the second request of the first action, which the master does not confirm. -/
theorem mirrored_run_lossy :
    (run (exchangingStep framedLibmodbus mirrorConfig twoRegistersConfig)
      (.start (plantHost framedLibmodbus twoRegistersConfig) mirrorConfig fiveAndSeven, [])
      lossyPass).map (·.2) = some [.published, .taken 0 [5, 0] true, .fetched 1 [7, 0], .published,
        .confirmed 0, .taken 0 [5, 0] true] ∧
      Throughout (exchangingStep framedLibmodbus mirrorConfig twoRegistersConfig)
        (Mirrored mirrorConfig twoRegistersConfig fiveAndSeven.master fiveAndSeven.slave)
        (.start (plantHost framedLibmodbus twoRegistersConfig) mirrorConfig fiveAndSeven, [])
        lossyPass := by
  refine ⟨by decide +kernel, mirrored_run framedLibmodbus_documented rfl rfl
    mirrorConfig_dataSeparated mirrorConfig_writesSeparated fiveAndSeven rfl lossyPass ?_⟩
  simp [lossyPass, List.replicate, Along, LeavesMirrored, ModbusCall.written]

end RevPiModbus
