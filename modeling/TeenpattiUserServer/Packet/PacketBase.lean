import TeenpattiUserServer.Bytes.Memory

/-! `PacketBase` and `DataPacketBase`: a fixed buffer with a size and a read
cursor. The two classes differ in the byte order of their integers only. -/

namespace TeenpattiUserServer.Packet

open Bytes

/-- `PACKET_HEADER_SIZE` -/
def headerSize : Int := 9

/-- `PACKET_BUFFER_SIZE` -/
def bufferSize : Int := 8192

/-- The value an `int` holds after an addition or subtraction with this result. -/
def int (value : Int) : Int := Int.bmod value (2 ^ 32)

theorem int_eq {value : Int} (low : -2 ^ 31 ≤ value) (high : value < 2 ^ 31) : int value = value := by
  simp only [int, Int.bmod]
  omega

theorem int_overflow {value : Int} (low : 2 ^ 31 ≤ value) (high : value < 2 ^ 32) :
    int value = value - 2 ^ 32 := by
  simp only [int, Int.bmod]
  omega

/-- A `memcpy` made by `_Read`: where it reads, how much, and the room at its target. -/
structure Copy where
  source : Int
  length : Int
  room : Int
  deriving DecidableEq

/-- `copies` records what `_Read` has done, newest first; no function reads it. -/
structure PacketBase where
  strBuf : Nat → UInt8
  packetSize : Int
  bufPos : Int
  copies : List Copy

namespace PacketBase

/-- The first `packet_size()` bytes of `packet_buf()`. -/
def bytes (packet : PacketBase) : List UInt8 :=
  slice packet.strBuf 0 (min packet.packetSize bufferSize).toNat

def reset (packet : PacketBase) : PacketBase :=
  { packet with strBuf := fun _ => 0, bufPos := headerSize, packetSize := headerSize }

def copy (packet : PacketBase) (data : List UInt8) : Bool × PacketBase :=
  if bufferSize < data.length then
    (false, packet)
  else
    let cleared := packet.reset
    (true, { cleared with strBuf := store cleared.strBuf 0 data, packetSize := data.length })

def readHeader (packet : PacketBase) (len pos : Nat) : List UInt8 := slice packet.strBuf pos len

def writeHeader (packet : PacketBase) (data : List UInt8) (pos : Nat) : PacketBase :=
  if 0 < pos ∨ pos + data.length < headerSize then
    { packet with strBuf := store packet.strBuf pos data }
  else
    packet

/-- The bytes of a `short` as the class writes it. -/
def shortBytes (order : Order) (value : Int16) : List UInt8 := encode order 2 value.toUInt16.toNat

def intBytes (order : Order) (value : Int32) : List UInt8 := encode order 4 value.toUInt32.toNat

@[simp] theorem shortBytes_length (order : Order) (value : Int16) : (shortBytes order value).length = 2 :=
  encode_length ..

@[simp] theorem intBytes_length (order : Order) (value : Int32) : (intBytes order value).length = 4 :=
  encode_length ..

def toShort (order : Order) (data : List UInt8) : Int16 := (UInt16.ofNat (decode order data)).toInt16

def toInt (order : Order) (data : List UInt8) : Int32 := (UInt32.ofNat (decode order data)).toInt32

/-- `_begin` -/
def start (order : Order) (packet : PacketBase) (cmdType : Int16) (version subVersion : UInt8) : PacketBase :=
  let cleared := packet.reset
  let magic := cleared.writeHeader [66, 89] 2
  let versioned := (magic.writeHeader [version] 4).writeHeader [subVersion] 5
  versioned.writeHeader (shortBytes order cmdType) 6

def getCmdType (order : Order) (packet : PacketBase) : Int16 := toShort order (packet.readHeader 2 6)

def getBodyLength (order : Order) (packet : PacketBase) : Int16 := toShort order (packet.readHeader 2 0)

def getCbCheckCode (packet : PacketBase) : UInt8 := packet.strBuf 8

/-- `_end`: the length field does not count its own two bytes. -/
def finish (order : Order) (packet : PacketBase) : PacketBase :=
  let body := Int16.ofInt (packet.packetSize - 2)
  (packet.writeHeader (shortBytes order body) 0).writeHeader [0] 8

def read (packet : PacketBase) (len room : Int) : Option (List UInt8) × PacketBase :=
  if packet.packetSize < int (len + packet.bufPos) ∨ bufferSize < int (len + packet.bufPos) then
    (none, packet)
  else
    (some (slice packet.strBuf packet.bufPos.toNat len.toNat), { packet with
      bufPos := int (packet.bufPos + len), copies := ⟨packet.bufPos, len, room⟩ :: packet.copies })

def readUndo (packet : PacketBase) (len : Int) : PacketBase :=
  { packet with bufPos := int (packet.bufPos - len) }

/-- `_readpoint`: the address in the buffer, or null. -/
def readPoint (packet : PacketBase) (len : Int) : Option Int × PacketBase :=
  if packet.packetSize < int (len + packet.bufPos) then
    (none, packet)
  else
    (some packet.bufPos, { packet with bufPos := int (packet.bufPos + len) })

def write (packet : PacketBase) (data : List UInt8) : Bool × PacketBase :=
  if packet.packetSize < 0 ∨ bufferSize < int (data.length + packet.packetSize) then
    (false, packet)
  else
    (true, { packet with
      strBuf := store packet.strBuf packet.packetSize.toNat data
      packetSize := int (packet.packetSize + data.length) })

/-- `_Insert`: the body moves back and the data take its place. -/
def insert (order : Order) (packet : PacketBase) (data : List UInt8) : Bool × PacketBase :=
  if bufferSize < int (data.length + packet.packetSize) then
    (false, packet)
  else
    let body := slice packet.strBuf 9 (packet.packetSize - headerSize).toNat
    let moved := store packet.strBuf (9 + data.length) body
    (true, finish order { packet with
      strBuf := store moved 9 data, packetSize := int (packet.packetSize + data.length) })

def writeZero (packet : PacketBase) : Bool × PacketBase :=
  if bufferSize < int (packet.packetSize + 1) then
    (false, packet)
  else
    (true, { packet with
      strBuf := store packet.strBuf packet.packetSize.toNat [0]
      packetSize := int (packet.packetSize + 1) })

end PacketBase

/-- A buffer before its first use. -/
def fresh : PacketBase := ⟨fun _ => 0, headerSize, headerSize, []⟩

end TeenpattiUserServer.Packet
