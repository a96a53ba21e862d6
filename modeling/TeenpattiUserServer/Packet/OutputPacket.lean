import TeenpattiUserServer.Packet.PacketBase

/-! The writers of `OutputPacket` (network order) and `DataOutputPacket` (host
order), and the packets they build. -/

namespace TeenpattiUserServer.Packet

open Bytes

namespace PacketBase

def writeInt (order : Order) (packet : PacketBase) (value : Int32) : Bool × PacketBase :=
  packet.write (intBytes order value)

/-- `htonl` keeps the low four bytes, which are followed by four zero bytes. -/
def writeULong (order : Order) (packet : PacketBase) (value : UInt64) : Bool × PacketBase :=
  match order with
  | .network => packet.write (encode .network 4 (value.toNat % 2 ^ 32) ++ [0, 0, 0, 0])
  | .host => packet.write (encode .host 8 value.toNat)

def writeByte (packet : PacketBase) (value : UInt8) : Bool × PacketBase := packet.write [value]

def writeShort (order : Order) (packet : PacketBase) (value : Int16) : Bool × PacketBase :=
  packet.write (shortBytes order value)

def insertInt (order : Order) (packet : PacketBase) (value : Int32) : Bool × PacketBase :=
  packet.insert order (intBytes order value)

def insertByte (order : Order) (packet : PacketBase) (value : UInt8) : Bool × PacketBase :=
  packet.insert order [value]

/-- The length counts the zero byte; whether it could be written is not looked at. -/
def writeString (order : Order) (packet : PacketBase) (text : List UInt8) : Bool × PacketBase :=
  let sized := (packet.writeInt order (Int32.ofInt (text.length + 1))).2
  if text.length = 0 then sized.writeZero
  else
    match sized.write text with
    | (true, written) => written.writeZero
    | (false, unwritten) => (false, unwritten)

def writeBinary (order : Order) (packet : PacketBase) (block : List UInt8) : Bool × PacketBase :=
  ((packet.writeInt order (Int32.ofInt block.length)).2).write block

end PacketBase

/-- A write between `Begin` and `End`. -/
inductive Write where
  | int (value : Int32)
  | uLong (value : UInt64)
  | byte (value : UInt8)
  | short (value : Int16)
  | string (text : List UInt8)
  | binary (block : List UInt8)
  | insertInt (value : Int32)
  | insertByte (value : UInt8)

namespace Write

def run (order : Order) (op : Write) (packet : PacketBase) : Bool × PacketBase :=
  match op with
  | int value => packet.writeInt order value
  | uLong value => packet.writeULong order value
  | byte value => packet.writeByte value
  | short value => packet.writeShort order value
  | string text => packet.writeString order text
  | binary block => packet.writeBinary order block
  | insertInt value => packet.insertInt order value
  | insertByte value => packet.insertByte order value

/-- The sum of the length and the packet size is an `int`; beyond that the
addition in `_Write` has no defined result. -/
def Defined : Write → Prop
  | string text => text.length + 8192 < 2 ^ 31
  | binary block => block.length + 8192 < 2 ^ 31
  | _ => True

end Write

/-- The packet between `Begin` and `End`: the header is in place, the size in range. -/
structure Open (packet : PacketBase) : Prop where
  header : headerSize ≤ packet.packetSize
  small : packet.packetSize ≤ bufferSize
  firstFlag : packet.strBuf 2 = 66
  secondFlag : packet.strBuf 3 = 89

/-- `Begin`, the writes, whatever they return, and `End`. -/
def build (order : Order) (command : Int16) (version subVersion : UInt8) (writes : List Write)
    (packet : PacketBase) : PacketBase :=
  (writes.foldl (fun current op => (op.run order current).2)
    (packet.start order command version subVersion)).finish order

variable {order : Order} {packet : PacketBase}

/-- The condition in `_writeHeader` holds for every field of the header. -/
theorem writeHeader_eq (packet : PacketBase) (data : List UInt8) {pos : Nat} (field : pos + data.length < 9 ∨ 0 < pos) :
    packet.writeHeader data pos = { packet with strBuf := store packet.strBuf pos data } := by
  rw [PacketBase.writeHeader, if_pos]
  simp only [headerSize]
  omega

/-- `_end` writes the length and clears the check code. -/
theorem finish_eq (order : Order) (packet : PacketBase) :
    packet.finish order = { packet with
      strBuf := store (store packet.strBuf 0
        (PacketBase.shortBytes order (Int16.ofInt (packet.packetSize - 2)))) 8 [0] } := by
  simp only [PacketBase.finish]
  rw [writeHeader_eq packet _ (.inl (by simp)), writeHeader_eq _ [0] (.inr (by decide))]

namespace Open

theorem start_eq (order : Order) (command : Int16) (version subVersion : UInt8) (packet : PacketBase) :
    packet.start order command version subVersion = { packet with
      strBuf := store (store (store (store (fun _ => 0) 2 [66, 89]) 4 [version]) 5 [subVersion]) 6
        (PacketBase.shortBytes order command)
      packetSize := headerSize, bufPos := headerSize } := by
  simp only [PacketBase.start]
  rw [writeHeader_eq _ [66, 89] (.inr (by decide)), writeHeader_eq _ [version] (.inr (by decide)),
    writeHeader_eq _ [subVersion] (.inr (by decide)), writeHeader_eq _ _ (.inr (by decide))]
  rfl

theorem start (order : Order) (command : Int16) (version subVersion : UInt8) (packet : PacketBase) :
    Open (packet.start order command version subVersion) := by
  rw [start_eq]
  exact ⟨Int.le_refl _, by simp [headerSize, bufferSize], by simp [store], by simp [store]⟩

/-- Bytes written behind the header keep the packet open. -/
private theorem stored (opened : Open packet) {start : Nat} (behind : 9 ≤ start) (data : List UInt8) {size : Int}
    (header : headerSize ≤ size) (small : size ≤ bufferSize) :
    Open { packet with strBuf := store packet.strBuf start data, packetSize := size } :=
  ⟨header, small, (store_before (by omega)).trans opened.firstFlag, (store_before (by omega)).trans opened.secondFlag⟩

/-- The fields written by `End` lie around the flags. -/
theorem finish_strBuf (order : Order) (packet : PacketBase) {i : Nat} (after : 2 ≤ i) (before : i < 8) :
    (packet.finish order).strBuf i = packet.strBuf i := by
  rw [finish_eq]
  exact (store_before before).trans (store_after (by simpa using after))

theorem finish (order : Order) (opened : Open packet) : Open (packet.finish order) := by
  refine ⟨?_, ?_, ?_, ?_⟩
  · simpa only [finish_eq] using opened.header
  · simpa only [finish_eq] using opened.small
  · rw [finish_strBuf order packet (by decide) (by decide), opened.firstFlag]
  · rw [finish_strBuf order packet (by decide) (by decide), opened.secondFlag]

theorem write (opened : Open packet) {data : List UInt8} (defined : data.length + 8192 < 2 ^ 31) :
    Open (packet.write data).2 := by
  have header := opened.header
  have small := opened.small
  simp only [headerSize, bufferSize] at header small
  rw [PacketBase.write]
  split
  · exact opened
  · next fits =>
    have sum : int (packet.packetSize + data.length) = packet.packetSize + data.length :=
      int_eq (by omega) (by omega)
    rw [Int.add_comm, sum, bufferSize] at fits
    refine opened.stored (by omega) data ?_ ?_ <;> simp only [sum, headerSize, bufferSize] <;> omega

theorem writeZero (opened : Open packet) : Open packet.writeZero.2 := by
  have header := opened.header
  have small := opened.small
  simp only [headerSize, bufferSize] at header small
  have sum : int (packet.packetSize + 1) = packet.packetSize + 1 := int_eq (by omega) (by omega)
  rw [PacketBase.writeZero]
  split
  · exact opened
  · next fits =>
    rw [sum, bufferSize] at fits
    refine opened.stored (by omega) [0] ?_ ?_ <;> simp only [sum, headerSize, bufferSize] <;> omega

theorem insert (opened : Open packet) {data : List UInt8} (defined : data.length + 8192 < 2 ^ 31) :
    Open (packet.insert order data).2 := by
  have header := opened.header
  have small := opened.small
  simp only [headerSize, bufferSize] at header small
  rw [PacketBase.insert]
  split
  · exact opened
  · next fits =>
    have sum : int (packet.packetSize + data.length) = packet.packetSize + data.length :=
      int_eq (by omega) (by omega)
    rw [Int.add_comm, sum, bufferSize] at fits
    refine Open.finish order ⟨?_, ?_, ?_, ?_⟩
    · simp only [sum, headerSize]
      omega
    · simp only [sum, bufferSize]
      omega
    · change store (store packet.strBuf _ _) 9 data 2 = 66
      rw [store_before (by decide), store_before (by omega)]
      exact opened.firstFlag
    · change store (store packet.strBuf _ _) 9 data 3 = 89
      rw [store_before (by decide), store_before (by omega)]
      exact opened.secondFlag

theorem run (opened : Open packet) (op : Write) (defined : op.Defined) : Open (op.run order packet).2 := by
  cases op with
  | int value => exact opened.write (by simp)
  | uLong value => cases order <;> exact opened.write (by simp)
  | byte value => exact opened.write (by simp)
  | short value => exact opened.write (by simp)
  | string text =>
    have sized : Open (packet.writeInt order (Int32.ofInt (text.length + 1))).2 := opened.write (by simp)
    have written := sized.write defined
    simp only [Write.run, PacketBase.writeString]
    split
    · exact sized.writeZero
    · cases outcome : (packet.writeInt order (Int32.ofInt (text.length + 1))).2.write text with
      | mk done after =>
        rw [outcome] at written
        cases done
        · exact written
        · exact written.writeZero
  | binary block => exact (opened.write (by simp)).write defined
  | insertInt value => exact opened.insert (by simp)
  | insertByte value => exact opened.insert (by simp)

theorem writes (opened : Open packet) (writes : List Write) (defined : ∀ op ∈ writes, op.Defined) :
    Open (writes.foldl (fun current op => (op.run order current).2) packet) := by
  induction writes generalizing packet with
  | nil => exact opened
  | cons op rest ih =>
    exact ih (opened.run op (defined op (by simp))) fun later member => defined later (by simp [member])

end Open

/-- The bytes of a finished packet: its size is in range, its flags are in place
and its length field does not count its own two bytes. -/
structure Built (order : Order) (data : List UInt8) : Prop where
  header : 9 ≤ data.length
  small : data.length ≤ 8192
  firstFlag : data[2]? = some 66
  secondFlag : data[3]? = some 89
  lengthField : decode order (data.take 2) = data.length - 2

/-- A length below 2 to the 15th reads back as it was written. -/
private theorem toNat_ofInt {value : Int} (low : 0 ≤ value) (high : value < 2 ^ 15) :
    ((Int16.ofInt value).toUInt16.toNat : Int) = value := by
  have bits : (Int16.ofInt value).toUInt16.toNat = (BitVec.ofInt 16 value).toNat := rfl
  rw [bits, BitVec.toNat_ofInt]
  omega

theorem Open.bytes_length (opened : Open packet) : (packet.bytes.length : Int) = packet.packetSize := by
  have header := opened.header
  have small := opened.small
  simp only [headerSize] at header
  rw [PacketBase.bytes, slice_length, Int.min_eq_left small]
  omega

/-- `End` puts the size without the field's own two bytes first. -/
theorem finish_lengthField (order : Order) (packet : PacketBase) :
    slice (packet.finish order).strBuf 0 2 = PacketBase.shortBytes order (Int16.ofInt (packet.packetSize - 2)) := by
  have stored := slice_store packet.strBuf 0 (PacketBase.shortBytes order (Int16.ofInt (packet.packetSize - 2)))
  rw [PacketBase.shortBytes_length] at stored
  refine Eq.trans ?_ stored
  rw [finish_eq]
  exact slice_congr fun i _ bound => store_before (by omega)

/-- What `End` leaves in the buffer is a well-formed packet. -/
theorem Open.built (opened : Open packet) : Built order (packet.finish order).bytes := by
  have finished := opened.finish order
  have length := finished.bytes_length
  have header := finished.header
  have small := finished.small
  simp only [headerSize, bufferSize] at header small
  have size : (packet.finish order).packetSize = packet.packetSize := by rw [finish_eq]
  have long : (min (packet.finish order).packetSize bufferSize).toNat = (packet.finish order).bytes.length := by
    rw [PacketBase.bytes, slice_length]
  refine ⟨by omega, by omega, ?_, ?_, ?_⟩
  · rw [PacketBase.bytes, slice_getElem?, if_pos (by omega), finished.firstFlag]
  · rw [PacketBase.bytes, slice_getElem?, if_pos (by omega), finished.secondFlag]
  · rw [PacketBase.bytes, slice_take _ _ (by omega), slice_length, long]
    have body : ((Int16.ofInt (packet.packetSize - 2)).toUInt16.toNat : Int) = packet.packetSize - 2 :=
      toNat_ofInt (by omega) (by omega)
    rw [finish_lengthField, PacketBase.shortBytes, decode_encode _ (UInt16.toNat_lt _)]
    omega

/-- Every packet built with `Begin`, writes and `End` is well formed. -/
theorem build_built (order : Order) (command : Int16) (version subVersion : UInt8) {writes : List Write}
    (defined : ∀ op ∈ writes, op.Defined) (packet : PacketBase) :
    Built order (build order command version subVersion writes packet).bytes :=
  ((Open.start order command version subVersion packet).writes writes defined).built

/-- A packet to be built: what goes into it, and what its buffer held before. -/
structure Building where
  command : Int16
  version : UInt8
  subVersion : UInt8
  writes : List Write
  packet : PacketBase

namespace Building

def Defined (building : Building) : Prop := ∀ op ∈ building.writes, op.Defined

/-- `packet_buf()[0..packet_size())` after `End`. -/
def bytes (order : Order) (building : Building) : List UInt8 :=
  (build order building.command building.version building.subVersion building.writes building.packet).bytes

theorem built {building : Building} (defined : building.Defined) : Built order (building.bytes order) :=
  build_built order building.command building.version building.subVersion defined building.packet

end Building

end TeenpattiUserServer.Packet
