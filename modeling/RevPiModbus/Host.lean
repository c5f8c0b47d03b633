import RevPiModbus.ModbusConfig
import RevPiModbus.Timespec
import RevPiModbus.Fault
import RevPiModbus.Lib.Image

/-!
# The surroundings of the daemons: piControl and libmodbus

Neither library is part of the repository. The calls that the program makes are the fields of
`Host`, over a type of states of which only the process image is visible; what the documentation
of the libraries promises about them is stated as properties of a host.

* `overwrite`, `bufferFront`: the buffers that a call fills or reads;
* `Host.Conforms`: no call stores more than it was asked for;
* `Host.Succeeds`: all calls of piControl succeed and do what they are for;
* `imageHost`: a host that is nothing but a process image and answers each request of libmodbus
  with a given reply.
-/

namespace RevPiModbus

open ByteImage

/-- `SPIValue`. -/
structure SPIValue where
  i16uAddress : UInt16
  i8uBit : UInt8
  i8uValue : UInt8
  deriving DecidableEq, Repr

/-- The requests that the program makes to libmodbus, with their arguments. -/
inductive ModbusCall
  | readBits (addr : ℤ) (nb : ℕ)
  | readInputBits (addr : ℤ) (nb : ℕ)
  | readRegisters (addr : ℤ) (nb : ℕ)
  | readInputRegisters (addr : ℤ) (nb : ℕ)
  | writeRegister (addr : ℤ) (value : ℤ)
  | writeBit (addr : ℤ) (status : UInt8)
  | writeBits (addr : ℤ) (nb : ℕ) (data : List UInt8)
  | writeRegisters (addr : ℤ) (nb : ℕ) (data : List UInt8)
  | reportSlaveId (maxDest : ℕ)
  deriving DecidableEq, Repr

/-- The bytes of one item of a reply. -/
def ModbusCall.itemSize : ModbusCall → ℕ
  | .readRegisters _ _ | .readInputRegisters _ _ => 2
  | _ => 1

/-- The most bytes that a call stores into the buffer it is given. -/
def ModbusCall.capacity : ModbusCall → ℕ
  | .readBits _ nb | .readInputBits _ nb => nb
  | .readRegisters _ nb | .readInputRegisters _ nb => 2 * nb
  | .reportSlaveId maxDest => maxDest
  | _ => 0

/-- What a call of libmodbus leaves: its return value, `errno`, and the bytes it has stored at the
front of the buffer. -/
structure ModbusReply where
  len : ℤ
  errno : UInt32
  data : List UInt8
  deriving DecidableEq, Repr

/-- Store `data` at the front of the buffer. -/
def overwrite (buffer data : List UInt8) : Except Fault (List UInt8) :=
  if data.length ≤ buffer.length then .ok (data ++ buffer.drop data.length)
  else .error .outOfBounds

/-- The first `n` bytes of the buffer, for a function that reads so many. -/
def bufferFront (buffer : List UInt8) (n : ℕ) : Except Fault (List UInt8) :=
  if n ≤ buffer.length then .ok (buffer.take n) else .error .outOfBounds

theorem overwrite_of {buffer data : List UInt8} (h : data.length ≤ buffer.length) :
    overwrite buffer data = .ok (data ++ buffer.drop data.length) := if_pos h

theorem bufferFront_of {buffer : List UInt8} {n : ℕ} (h : n ≤ buffer.length) :
    bufferFront buffer n = .ok (buffer.take n) := if_pos h

/-- The calls of piControl and libmodbus over states `σ`. A read returns its return value and the
bytes it has copied; `bitPosition` is the absolute bit that a bit call addresses. -/
structure Host (σ : Type) where
  image : σ → Image
  bitPosition : UInt16 → UInt8 → ℕ
  piControlRead : UInt32 → ℕ → σ → (ℤ × List UInt8) × σ
  piControlWrite : UInt32 → List UInt8 → σ → ℤ × σ
  piControlSetBitValue : SPIValue → σ → ℤ × σ
  piControlGetBitValue : SPIValue → σ → (ℤ × UInt8) × σ
  modbus : ModbusCall → σ → ModbusReply × σ

namespace Host

variable {σ : Type}

/-- No call stores more bytes than it was asked for, and libmodbus stores as many items as it
returns. -/
structure Conforms (host : Host σ) : Prop where
  read_data : ∀ a n s, (host.piControlRead a n s).1.2.length ≤ n
  modbus_data : ∀ c s, (host.modbus c s).1.data.length =
    min (c.itemSize * (host.modbus c s).1.len.toNat) c.capacity

/-- All calls of piControl succeed in full and do what they are for, the bit calls address the
bit `8 · address + bit`, and libmodbus leaves the process image alone. -/
structure Succeeds (host : Host σ) : Prop extends Conforms host where
  bitPosition_eq : ∀ (a : UInt16) (b : UInt8), b < 8 →
    host.bitPosition a b = 8 * a.toNat + b.toNat
  read_ret : ∀ a n s, (host.piControlRead a n s).1.1 = n
  read_eq : ∀ a n s, (host.piControlRead a n s).1.2 = read (host.image s) a.toNat n
  read_image : ∀ a n s, host.image (host.piControlRead a n s).2 = host.image s
  write_ret : ∀ a d s, (host.piControlWrite a d s).1 = d.length
  write_image : ∀ a d s,
    host.image (host.piControlWrite a d s).2 = write (host.image s) a.toNat d
  setBit_ret : ∀ v s, 0 ≤ (host.piControlSetBitValue v s).1
  setBit_image : ∀ v s, host.image (host.piControlSetBitValue v s).2 =
    setBit (host.image s) (host.bitPosition v.i16uAddress v.i8uBit) (v.i8uValue != 0)
  getBit_ret : ∀ v s, 0 ≤ (host.piControlGetBitValue v s).1.1
  getBit_eq : ∀ v s, (host.piControlGetBitValue v s).1.2 =
    if bit (host.image s) (host.bitPosition v.i16uAddress v.i8uBit) then 1 else 0
  getBit_image : ∀ v s, host.image (host.piControlGetBitValue v s).2 = host.image s
  modbus_image : ∀ c s, host.image (host.modbus c s).2 = host.image s

end Host

/-- The host that consists of the process image only, answering the requests of libmodbus by
`reply`. -/
def imageHost (reply : ModbusCall → ModbusReply) : Host Image where
  image s := s
  bitPosition a b := 8 * a.toNat + b.toNat
  piControlRead a n s := ((n, read s a.toNat n), s)
  piControlWrite a d s := (d.length, write s a.toNat d)
  piControlSetBitValue v s :=
    (0, setBit s (8 * v.i16uAddress.toNat + v.i8uBit.toNat) (v.i8uValue != 0))
  piControlGetBitValue v s :=
    ((0, if bit s (8 * v.i16uAddress.toNat + v.i8uBit.toNat) then 1 else 0), s)
  modbus c s := (reply c, s)

theorem imageHost_succeeds {reply : ModbusCall → ModbusReply}
    (h : ∀ c, (reply c).data.length = min (c.itemSize * (reply c).len.toNat) c.capacity) :
    (imageHost reply).Succeeds where
  read_data a n s := by simp [imageHost]
  modbus_data c _ := h c
  bitPosition_eq _ _ _ := rfl
  read_ret _ _ _ := rfl
  read_eq _ _ _ := rfl
  read_image _ _ _ := rfl
  write_ret _ _ _ := rfl
  write_image _ _ _ := rfl
  setBit_ret _ _ := le_rfl
  setBit_image _ _ := rfl
  getBit_ret _ _ := le_rfl
  getBit_eq _ _ := rfl
  getBit_image _ _ := rfl
  modbus_image _ _ := rfl

end RevPiModbus
