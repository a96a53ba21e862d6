import TeenpattiUserServer.Packet.PacketBase

/-! The readers of `InputPacket` (network order) and `DataInputPacket` (host
order). -/

namespace TeenpattiUserServer.Packet.PacketBase

open Bytes

/-- A failed read leaves the `-1` the variable starts with. -/
def readInt (order : Order) (packet : PacketBase) : Int32 × PacketBase :=
  match packet.read 4 4 with
  | (some data, after) => (toInt order data, after)
  | (none, after) => (-1, after)

def readShort (order : Order) (packet : PacketBase) : Int16 × PacketBase :=
  match packet.read 2 2 with
  | (some data, after) => (toShort order data, after)
  | (none, after) => (-1, after)

def readByte (packet : PacketBase) : UInt8 × PacketBase :=
  match packet.read 1 1 with
  | (some data, after) => (data.getD 0 0, after)
  | (none, after) => (255, after)

/-- Eight bytes are read; `ntohl` keeps the low four of them. -/
def readULong (order : Order) (packet : PacketBase) : UInt64 × PacketBase :=
  match packet.read 8 8, order with
  | (some data, after), .network => (UInt64.ofNat (decode .network (data.take 4)), after)
  | (some data, after), .host => (UInt64.ofNat (decode .host data), after)
  | (none, after), .network => (0xFFFFFFFF, after)
  | (none, after), .host => (0xFFFFFFFFFFFFFFFF, after)

/-- `ReadString(pOutString, nMaxLen)`: the bytes written, or `false`. -/
def readString (order : Order) (packet : PacketBase) (maxLen : Int) : Option (List UInt8) × PacketBase :=
  let (len, after) := packet.readInt order
  if len = -1 then (none, after)
  else if maxLen < len.toInt then (none, after.readUndo 2)
  else after.read len.toInt maxLen

def readChar (order : Order) (packet : PacketBase) : Option Int × PacketBase :=
  let (len, after) := packet.readInt order
  if len = -1 then (none, after)
  else after.readPoint len.toInt

/-- The bytes behind the buffer are those of `m_nPacketSize`. -/
def byteAt (packet : PacketBase) (i : Nat) : UInt8 :=
  if i < 8192 then packet.strBuf i
  else (encode .host 4 (UInt32.ofInt packet.packetSize).toNat).getD (i - 8192) 0

/-- The C string at an address: the bytes before the first zero. -/
def cString (packet : PacketBase) (start : Nat) : List UInt8 :=
  (slice packet.byteAt start (8196 - start)).takeWhile (· ≠ 0)

/-- `ReadString()` -/
def readStdString (order : Order) (packet : PacketBase) : List UInt8 × PacketBase :=
  match packet.readChar order with
  | (none, after) => ([], after)
  | (some start, after) => (after.cString start.toNat, after)

/-- The result and, when the block was copied, its bytes. -/
def readBinary (order : Order) (packet : PacketBase) (maxLen : Int) : (Int × List UInt8) × PacketBase :=
  let (len, after) := packet.readInt order
  if len = -1 then ((-1, []), after)
  else if maxLen < len.toInt then ((-1, []), after.readUndo 4)
  else
    match after.read len.toInt maxLen with
    | (some data, done) => ((len.toInt, data), done)
    | (none, done) => ((0, []), done)

end TeenpattiUserServer.Packet.PacketBase
