import RevPiModbus.ModbusLine
import RevPiModbus.SlaveWindows

/-!
# A libmodbus

The frames of Modbus TCP, as far as a slave needs them that keeps registers only: what is asked of
the two ends of a line in `ModbusLine.lean` can be met.

* `wireBytes`, `wireWords`: registers on the wire;
* `pdu`, `frame`, `requestFields`: the requests, written and read;
* `framedLibmodbus`, `framedLibmodbus_documented`: the library.
-/

namespace RevPiModbus

open Slice

/-! ## Numbers on the wire -/

/-- The two bytes of a number on the wire, the high one first. -/
def highByte (n : ℕ) : UInt8 := UInt8.ofNat (n / 2 ^ 8)

def lowByte (n : ℕ) : UInt8 := UInt8.ofNat n

/-- The number that two bytes stand for. -/
def wireNumber (high low : UInt8) : ℕ := high.toNat * 2 ^ 8 + low.toNat

theorem wireNumber_bytes {n : ℕ} (h : n < 2 ^ 16) : wireNumber (highByte n) (lowByte n) = n := by
  unfold wireNumber highByte lowByte
  rw [UInt8.toNat_ofNat', UInt8.toNat_ofNat']
  omega

theorem wireAddress_lt (addr : ℤ) : wireAddress addr < 2 ^ 16 := by
  unfold wireAddress
  omega

/-- Registers on the wire, the high byte of each first. -/
def wireBytes : List UInt16 → List UInt8
  | [] => []
  | register :: tab => (register >>> 8).toUInt8 :: register.toUInt8 :: wireBytes tab

/-- The registers that bytes on the wire stand for. -/
def wireWords : List UInt8 → List UInt16
  | high :: low :: bytes => (low.toUInt16 ||| (high.toUInt16 <<< 8)) :: wireWords bytes
  | _ => []

theorem wireWords_wireBytes (tab : List UInt16) : wireWords (wireBytes tab) = tab := by
  induction tab with
  | nil => rfl
  | cons register tab ih => rw [wireBytes, wireWords, ih, toUInt8_or_shiftLeft]

theorem wireBytes_length (tab : List UInt16) : (wireBytes tab).length = 2 * tab.length := by
  induction tab with
  | nil => rfl
  | cons register tab ih =>
    simp only [wireBytes, List.length_cons, ih]
    omega

/-! ## The requests -/

/-- Eight coils in a byte. -/
def packBits (data : List UInt8) (k : ℕ) : UInt8 :=
  (List.range 8).foldr (fun i byte => byte <<< 1 ||| (data[8 * k + i]?.getD 0 &&& 1)) 0

/-- The function code, the address, and one more number. -/
def pduFront (code : UInt8) (addr : ℤ) (n : ℕ) : List UInt8 :=
  [code, highByte (wireAddress addr), lowByte (wireAddress addr), highByte n, lowByte n]

/-- What a request sends. -/
def pdu : ModbusCall → List UInt8
  | .readBits addr nb => pduFront 1 addr nb
  | .readInputBits addr nb => pduFront 2 addr nb
  | .readRegisters addr nb => pduFront 3 addr nb
  | .readInputRegisters addr nb => pduFront 4 addr nb
  | .writeBit addr status => pduFront 5 addr (if status = 0 then 0 else 0xff00)
  | .writeRegister addr value => pduFront 6 addr (UInt16.ofNat value.toNat).toNat
  | .writeBits addr nb data =>
    pduFront 15 addr nb ++
      UInt8.ofNat ((nb + 7) / 8) :: (List.range ((nb + 7) / 8)).map (packBits data)
  | .writeRegisters addr nb data =>
    pduFront 16 addr nb ++ UInt8.ofNat (2 * nb) :: wireBytes (bytesRegisters data)
  | .reportSlaveId _ => [17]

/-- The header of Modbus TCP, for the first transaction with unit 1, and the request. -/
def frame (c : ModbusCall) : List UInt8 :=
  [0, 0, 0, 0, highByte ((pdu c).length + 1), lowByte ((pdu c).length + 1), 1] ++ pdu c

/-- The request buffer. -/
def frameBuffer (data : List UInt8) : ModbusRequest := Vector.ofFn fun i => data[i.val]?.getD 0

/-- The function code, the address and the number of a request, and what follows. -/
def requestFields (req : ModbusRequest) : UInt8 × ℕ × ℕ × List UInt8 :=
  match req.toList.drop 7 with
  | code :: high :: low :: high' :: low' :: rest =>
    (code, wireNumber high low, wireNumber high' low', rest)
  | _ => (0, 0, 0, [])

theorem frameBuffer_toList {data : List UInt8} (h : data.length ≤ modbusTcpMaxAduLength) :
    (frameBuffer data).toList =
      data ++ List.replicate (modbusTcpMaxAduLength - data.length) 0 := by
  unfold frameBuffer
  rw [Vector.toList_ofFn]
  apply List.ext_getElem?
  intro k
  rw [List.getElem?_ofFn]
  by_cases hk : k < modbusTcpMaxAduLength
  · rw [dif_pos hk]
    by_cases hdata : k < data.length
    · rw [List.getElem?_append_left hdata, List.getElem?_eq_getElem hdata]
      rfl
    · rw [List.getElem?_append_right (not_lt.mp hdata), List.getElem?_replicate, if_pos (by omega),
        List.getElem?_eq_none (not_lt.mp hdata)]
      rfl
  · rw [dif_neg hk, List.getElem?_eq_none]
    rw [List.length_append, List.length_replicate]
    omega

theorem pdu_length_le {c : ModbusCall} (hc : c.Sendable) : (pdu c).length ≤ modbusMaxPduLength := by
  cases c with
  | writeBits addr nb data =>
    obtain ⟨hmax, -⟩ := hc
    unfold modbusMaxWriteBits at hmax
    simp only [pdu, pduFront, List.length_append, List.length_cons, List.length_nil,
      List.length_map,
      List.length_range, modbusMaxPduLength]
    omega
  | writeRegisters addr nb data =>
    obtain ⟨hmax, hlength⟩ := hc
    unfold modbusMaxWriteRegisters at hmax
    simp only [pdu, pduFront, List.length_append, List.length_cons, List.length_nil,
      wireBytes_length, bytesRegisters_length hlength, modbusMaxPduLength]
    omega
  | _ => simp [pdu, pduFront, modbusMaxPduLength]

/-- A request arrives as it has been sent. -/
theorem frame_toList {c : ModbusCall} (hc : c.Sendable) :
    ∃ padding, (frameBuffer (frame c)).toList.drop 7 = pdu c ++ padding := by
  have hlength := pdu_length_le hc
  have hframe : (frame c).length ≤ modbusTcpMaxAduLength := by
    unfold frame modbusTcpMaxAduLength
    unfold modbusMaxPduLength at hlength
    rw [List.length_append]
    simp only [List.length_cons, List.length_nil]
    omega
  rw [frameBuffer_toList hframe]
  exact ⟨_, rfl⟩

/-- The fields of a request with an address. -/
theorem requestFields_front {c : ModbusCall} (hc : c.Sendable) {code : UInt8} {addr : ℤ} {n : ℕ}
    {rest : List UInt8} (hn : n < 2 ^ 16) (hpdu : pdu c = pduFront code addr n ++ rest) :
    ∃ padding, requestFields (frameBuffer (frame c)) =
      (code, wireAddress addr, n, rest ++ padding) := by
  obtain ⟨padding, hlist⟩ := frame_toList hc
  refine ⟨padding, ?_⟩
  unfold requestFields
  rw [hlist, hpdu]
  simp only [pduFront, List.cons_append, List.nil_append, wireNumber_bytes hn,
    wireNumber_bytes (wireAddress_lt addr)]

/-! ## The library -/

/-- The registers that a request writes. -/
def writtenFields (req : ModbusRequest) : Option (ℕ × List UInt16) :=
  let (code, address, n, rest) := requestFields req
  if code = 6 then some (address, [UInt16.ofNat n])
  else if code = 16 then some (address, wireWords ((rest.drop 1).take (2 * n)))
  else none

/-- An exception with the code for an illegal address. -/
def exceptionResponse (code : UInt8) : List UInt8 := [code + 0x80, 2]

/-- The response of `modbus_reply` to a request that reads registers. -/
def readResponse (code : UInt8) (address n : ℕ) (tab : List UInt16) : List UInt8 :=
  if 0 < n ∧ address + n ≤ tab.length then
    code :: UInt8.ofNat (2 * n) :: wireBytes (slice tab address n)
  else exceptionResponse code

/-- The response of `modbus_reply` to a request that writes registers. -/
def writeResponse (req : ModbusRequest) (code : UInt8) (address n : ℕ) (tab : List UInt16) :
    List UInt8 :=
  if 0 < n ∧ address + n ≤ tab.length then (req.toList.drop 7).take 5 else exceptionResponse code

/-- The response of `modbus_reply` of a slave without coils. -/
def framedResponse (req : ModbusRequest) (m : ModbusMapping) : List UInt8 :=
  let (code, address, n, _) := requestFields req
  if code = 3 then readResponse code address n m.tabRegisters
  else if code = 4 then readResponse code address n m.tabInputRegisters
  else if code = 6 then writeResponse req code address 1 m.tabRegisters
  else if code = 16 then writeResponse req code address n m.tabRegisters
  else if code = 17 then [17, 2, 180, 0xff]
  else exceptionResponse code

/-- What a call makes of a response with its own function code. -/
def confirmedReply (c : ModbusCall) (rest : List UInt8) : ModbusReply :=
  match c with
  | .readBits _ nb | .readInputBits _ nb =>
    { len := nb, errno := 0
      data := (List.range nb).map fun i =>
        ((rest.drop 1)[i / 8]?.getD 0 >>> UInt8.ofNat (i % 8)) &&& 1 }
  | .readRegisters _ nb | .readInputRegisters _ nb =>
    let data := registerBytes (wireWords (rest.drop 1))
    if data.length = 2 * nb then { len := nb, errno := 0, data := data }
    else noReply (modbusEnobase + 13)
  | .writeRegister _ _ | .writeBit _ _ => { len := 1, errno := 0, data := [] }
  | .writeBits _ nb _ | .writeRegisters _ nb _ => { len := nb, errno := 0, data := [] }
  | .reportSlaveId maxDest =>
    { len := (rest.drop 1).length, errno := 0, data := (rest.drop 1).take maxDest }

/-- What a call makes of a response. -/
def framedConfirmation (c : ModbusCall) (response : List UInt8) : ModbusReply :=
  match response with
  | code :: rest =>
    if code.toNat = c.function.code then confirmedReply c rest
    else noReply (modbusEnobase + (rest[0]?.getD 0).toUInt32)
  | [] => noReply (modbusEnobase + 13)

/-- A libmodbus for slaves that keep registers only. -/
def framedLibmodbus : Libmodbus where
  headerLength := tcpHeaderLength
  request c := ((frame c).length, frameBuffer (frame c))
  applyRequest req _ m :=
    { m with
      tabRegisters :=
        match writtenFields req with
        | some (address, words) =>
          if 0 < words.length ∧ address + words.length ≤ m.tabRegisters.length then
            splice m.tabRegisters address words
          else m.tabRegisters
        | none => m.tabRegisters }
  response req _ m := framedResponse req m
  confirmation := framedConfirmation

/-- The function code of a request. -/
theorem requestFields_code {c : ModbusCall} (hc : c.Sendable) :
    (requestFields (frameBuffer (frame c))).1.toNat = c.function.code := by
  cases c with
  | reportSlaveId maxDest =>
    have hlist : (frameBuffer (frame (.reportSlaveId maxDest))).toList.drop 7 =
        17 :: List.replicate 252 0 := by
      rw [frameBuffer_toList (by simp [frame, pdu, modbusTcpMaxAduLength])]
      rfl
    unfold requestFields
    rw [hlist]
    rfl
  | _ =>
    obtain ⟨padding, hlist⟩ := frame_toList hc
    unfold requestFields
    rw [hlist]
    rfl

theorem writtenFields_eq_none {req : ModbusRequest} (h6 : (requestFields req).1.toNat ≠ 6)
    (h16 : (requestFields req).1.toNat ≠ 16) : writtenFields req = none := by
  unfold writtenFields
  generalize requestFields req = fields at h6 h16 ⊢
  obtain ⟨code, address, n, rest⟩ := fields
  dsimp only at h6 h16 ⊢
  rw [if_neg fun h => h6 (congrArg UInt8.toNat h), if_neg fun h => h16 (congrArg UInt8.toNat h)]

/-- The registers that a request writes are those of its call. -/
theorem writtenFields_frame {c : ModbusCall} (hc : c.Sendable) :
    writtenFields (frameBuffer (frame c)) = c.written := by
  cases c with
  | writeRegister addr value =>
    obtain ⟨padding, hfields⟩ := requestFields_front hc (UInt16.ofNat value.toNat).toNat_lt
      (List.append_nil (pdu (.writeRegister addr value))).symm
    unfold writtenFields
    rw [hfields]
    simp only [if_true, UInt16.ofNat_toNat]
    rfl
  | writeRegisters addr nb data =>
    obtain ⟨hmax, hlength⟩ := hc
    unfold modbusMaxWriteRegisters at hmax
    have hwords := bytesRegisters_length hlength
    obtain ⟨padding, hfields⟩ := requestFields_front (c := .writeRegisters addr nb data)
      ⟨hmax, hlength⟩ (by omega) rfl
    have htake : ((UInt8.ofNat (2 * nb) :: wireBytes (bytesRegisters data) ++ padding).drop 1).take
        (2 * nb) = wireBytes (bytesRegisters data) :=
      List.take_left' (by rw [wireBytes_length, hwords])
    unfold writtenFields
    rw [hfields]
    simp only [htake, wireWords_wireBytes]
    show _ = some (wireAddress addr, (bytesRegisters data).take nb)
    rw [List.take_of_length_le hwords.le]
    rfl
  | _ =>
    have hcode := requestFields_code hc
    apply writtenFields_eq_none
    · rw [hcode]
      simp [ModbusCall.function, EModbusFunction.code]
    · rw [hcode]
      simp [ModbusCall.function, EModbusFunction.code]

/-! ## The responses -/

section Responses

variable {code : UInt8} {address n : ℕ} {rest : List UInt8} {req : ModbusRequest}

theorem framedResponse_of_fields (h : requestFields req = (code, address, n, rest))
    (m : ModbusMapping) : framedResponse req m =
      if code = 3 then readResponse code address n m.tabRegisters
      else if code = 4 then readResponse code address n m.tabInputRegisters
      else if code = 6 then writeResponse req code address 1 m.tabRegisters
      else if code = 16 then writeResponse req code address n m.tabRegisters
      else if code = 17 then [17, 2, 180, 0xff]
      else exceptionResponse code := by
  unfold framedResponse
  rw [h]

/-- An exception is a failure of the call. -/
theorem framedConfirmation_exception {c : ModbusCall} (hcode : code.toNat = c.function.code) :
    ∃ errno, framedConfirmation c (exceptionResponse code) = noReply errno := by
  have hne : (code + 0x80).toNat ≠ c.function.code := by
    have hlt := code.toNat_lt
    rw [← hcode, UInt8.toNat_add]
    show (code.toNat + 128) % 2 ^ 8 ≠ code.toNat
    omega
  unfold framedConfirmation exceptionResponse
  dsimp only
  rw [if_neg hne]
  exact ⟨_, rfl⟩

/-- A slave without coils refuses a request of coils. -/
theorem framedResponse_of_bits (h : requestFields req = (code, address, n, rest))
    (hcode : code = 1 ∨ code = 2 ∨ code = 5 ∨ code = 15) (m : ModbusMapping) :
    framedResponse req m = exceptionResponse code := by
  rw [framedResponse_of_fields h]
  obtain rfl | rfl | rfl | rfl := hcode <;> rfl

/-- The registers of a response are those of the table. -/
theorem confirmedReply_read {c : ModbusCall} {nb : ℕ} {tab : List UInt16}
    (hc : ∀ rest, confirmedReply c rest =
      if (registerBytes (wireWords (rest.drop 1))).length = 2 * nb then
        { len := nb, errno := 0, data := registerBytes (wireWords (rest.drop 1)) }
      else noReply (modbusEnobase + 13))
    (hcode : code.toNat = c.function.code) :
    ((framedConfirmation c (readResponse code address nb tab)).len,
      (framedConfirmation c (readResponse code address nb tab)).data) =
      if 0 < nb ∧ address + nb ≤ tab.length then ((nb : ℤ), registerBytes (slice tab address nb))
      else (-1, []) := by
  unfold readResponse
  split_ifs with hin
  · have hlength := slice_length hin.2
    unfold framedConfirmation
    simp only [hcode, if_true, hc, List.drop_one, List.tail_cons, wireWords_wireBytes,
      registerBytes_length, hlength]
  · obtain ⟨errno, hfail⟩ := framedConfirmation_exception (c := c) hcode
    rw [hfail]
    rfl

/-- A request that writes is confirmed by its front. -/
theorem confirmedReply_write {c : ModbusCall} (hc : c.Sendable) {addr len : ℤ} (address nb : ℕ)
    (tab : List UInt16)
    (hconfirmed : ∀ rest, confirmedReply c rest = { len := len, errno := 0, data := [] })
    (hpdu : pdu c = pduFront code addr n ++ rest) (hcode : code.toNat = c.function.code) :
    ((framedConfirmation c (writeResponse (frameBuffer (frame c)) code address nb tab)).len,
      (framedConfirmation c (writeResponse (frameBuffer (frame c)) code address nb tab)).data) =
      if 0 < nb ∧ address + nb ≤ tab.length then (len, []) else (-1, []) := by
  unfold writeResponse
  split_ifs with hin
  · obtain ⟨padding, hlist⟩ := frame_toList hc
    rw [hlist, hpdu]
    unfold framedConfirmation pduFront
    simp only [List.cons_append, List.take_succ_cons, hcode, if_true, hconfirmed]
  · obtain ⟨errno, hfail⟩ := framedConfirmation_exception (c := c) hcode
    rw [hfail]
    rfl

end Responses

/-- A call that a slave without coils refuses. -/
theorem framedConfirmation_of_bits {c : ModbusCall} (hc : c.Sendable) {code : UInt8} {addr : ℤ}
    {n : ℕ} {rest : List UInt8} (hn : n < 2 ^ 16) (hpdu : pdu c = pduFront code addr n ++ rest)
    (hbits : code = 1 ∨ code = 2 ∨ code = 5 ∨ code = 15) (hcode : code.toNat = c.function.code)
    (m : ModbusMapping) :
    ((framedConfirmation c (framedResponse (frameBuffer (frame c)) m)).len,
      (framedConfirmation c (framedResponse (frameBuffer (frame c)) m)).data) = (-1, []) := by
  obtain ⟨padding, hfields⟩ := requestFields_front hc hn hpdu
  obtain ⟨errno, hfail⟩ := framedConfirmation_exception (c := c) hcode
  rw [framedResponse_of_bits hfields hbits, hfail]
  rfl

/-- The master gets what the slave has answered. -/
theorem framedConfirmation_answer {c : ModbusCall} (hc : c.Sendable)
    (hreport : ∀ maxDest, c ≠ .reportSlaveId maxDest) (m : ModbusMapping) :
    ((framedConfirmation c (framedResponse (frameBuffer (frame c)) m)).len,
      (framedConfirmation c (framedResponse (frameBuffer (frame c)) m)).data) = c.answer m := by
  have hend := fun c : ModbusCall => (List.append_nil (pdu c)).symm
  cases c with
  | readBits addr nb =>
    exact framedConfirmation_of_bits hc (lt_of_le_of_lt hc (by decide)) (hend _) (.inl rfl) rfl m
  | readInputBits addr nb =>
    exact framedConfirmation_of_bits hc (lt_of_le_of_lt hc (by decide)) (hend _) (.inr (.inl rfl))
      rfl m
  | writeBit addr status =>
    exact framedConfirmation_of_bits hc (by split_ifs <;> decide) (hend _)
      (.inr (.inr (.inl rfl))) rfl m
  | writeBits addr nb data =>
    exact framedConfirmation_of_bits hc (lt_of_le_of_lt hc.1 (by decide)) rfl
      (.inr (.inr (.inr rfl))) rfl m
  | readRegisters addr nb =>
    obtain ⟨padding, hfields⟩ := requestFields_front hc (lt_of_le_of_lt hc (by decide)) (hend _)
    rw [framedResponse_of_fields hfields]
    exact confirmedReply_read (fun _ => rfl) rfl
  | readInputRegisters addr nb =>
    obtain ⟨padding, hfields⟩ := requestFields_front hc (lt_of_le_of_lt hc (by decide)) (hend _)
    rw [framedResponse_of_fields hfields]
    exact confirmedReply_read (fun _ => rfl) rfl
  | writeRegister addr value =>
    obtain ⟨padding, hfields⟩ :=
      requestFields_front hc (UInt16.ofNat value.toNat).toNat_lt (hend _)
    have hanswer := confirmedReply_write hc (wireAddress addr) 1 m.tabRegisters (fun _ => rfl)
      (hend _) rfl
    simp only [Nat.one_pos, true_and] at hanswer
    rw [framedResponse_of_fields hfields]
    exact hanswer
  | writeRegisters addr nb data =>
    obtain ⟨padding, hfields⟩ := requestFields_front (c := .writeRegisters addr nb data) hc
      (lt_of_le_of_lt hc.1 (by decide)) rfl
    rw [framedResponse_of_fields hfields]
    exact confirmedReply_write hc _ _ _ (fun _ => rfl) rfl rfl
  | reportSlaveId maxDest => exact absurd rfl (hreport maxDest)

/-- The function code stands behind the header. -/
theorem frameBuffer_code (c : ModbusCall) :
    ((frameBuffer (frame c)).get tcpHeaderLength).toNat = c.function.code := by
  have hcode : (frameBuffer (frame c)).get tcpHeaderLength = (frame c)[7]?.getD 0 := by
    unfold frameBuffer
    exact Vector.getElem_ofFn _
  rw [hcode]
  cases c <;> rfl

/-- As many bytes are stored as the return value says. -/
theorem framedConfirmation_data (c : ModbusCall) (response : List UInt8) :
    (framedConfirmation c response).data.length =
      min (c.itemSize * (framedConfirmation c response).len.toNat) c.capacity := by
  have hnone : ∀ errno, (noReply errno).data.length =
      min (c.itemSize * (noReply errno).len.toNat) c.capacity := by simp [noReply]
  unfold framedConfirmation
  split
  · split_ifs
    · unfold confirmedReply
      cases c with
      | readRegisters addr nb | readInputRegisters addr nb =>
        simp only
        split_ifs with hlength
        · simp only [hlength, ModbusCall.itemSize, ModbusCall.capacity, Int.toNat_natCast, min_self]
        · exact hnone _
      | _ => simp [ModbusCall.itemSize, ModbusCall.capacity, min_comm]
    · exact hnone _
  · exact hnone _

theorem framedLibmodbus_documented : framedLibmodbus.Documented where
  request_length c := by
    show (0 : ℤ) < (frame c).length
    unfold frame
    rw [List.length_append]
    simp only [List.length_cons, List.length_nil]
    omega
  request_function := frameBuffer_code
  apply_eq c m hc _ := by
    show ({ m with tabRegisters := _ } : ModbusMapping) = _
    simp only [framedLibmodbus, writtenFields_frame hc]
    rfl
  confirmation_data := framedConfirmation_data
  confirmation_eq c m hc hreport _ := by
    dsimp only [framedLibmodbus]
    exact framedConfirmation_answer hc hreport m

end RevPiModbus
