import TeenpattiUserServer.Packet.InputPacket
import TeenpattiUserServer.Packet.OutputPacket

/-! What the writers append to an open packet, and what the readers take from the
bytes ahead of the cursor. -/

namespace TeenpattiUserServer.Packet

open Bytes

namespace PacketBase

/-- The packet with these bytes behind its last one. -/
def appended (packet : PacketBase) (data : List UInt8) : PacketBase :=
  { packet with
    strBuf := store packet.strBuf packet.packetSize.toNat data
    packetSize := packet.packetSize + data.length }

end PacketBase

variable {order : Order} {packet after : PacketBase} {data rest : List UInt8}

theorem appended_nil (packet : PacketBase) : packet.appended [] = packet := by
  have same : store packet.strBuf packet.packetSize.toNat [] = packet.strBuf := by
    funext i
    simp only [store, List.length_nil]
    rw [if_neg (by omega)]
  simp [PacketBase.appended, same]

/-- `_Write` appends what fits and refuses what does not. -/
theorem write_sized (positive : 0 ≤ packet.packetSize) (small : packet.packetSize ≤ bufferSize)
    (defined : data.length + 8192 < 2 ^ 31) : packet.write data =
      if packet.packetSize + data.length ≤ 8192 then (true, packet.appended data) else (false, packet) := by
  simp only [bufferSize] at small
  have sum : int (packet.packetSize + data.length) = packet.packetSize + data.length := int_eq (by omega) (by omega)
  simp only [PacketBase.write, Int.add_comm (data.length : Int), sum, bufferSize]
  by_cases fits : packet.packetSize + data.length ≤ 8192
  · rw [if_neg (by omega), if_pos fits]
    rfl
  · rw [if_pos (by omega), if_neg fits]

theorem writeZero_sized (positive : 0 ≤ packet.packetSize) (small : packet.packetSize ≤ bufferSize) :
    packet.writeZero = if packet.packetSize + 1 ≤ 8192 then (true, packet.appended [0]) else (false, packet) := by
  simp only [bufferSize] at small
  have sum : int (packet.packetSize + 1) = packet.packetSize + 1 := int_eq (by omega) (by omega)
  simp only [PacketBase.writeZero, sum, bufferSize]
  by_cases fits : packet.packetSize + 1 ≤ 8192
  · rw [if_neg (by omega), if_pos fits]
    rfl
  · rw [if_pos (by omega), if_neg fits]

/-- An integer is appended where four bytes are left. -/
theorem writeInt_sized (positive : 0 ≤ packet.packetSize) (small : packet.packetSize ≤ bufferSize) (order : Order)
    (value : Int32) : (packet.writeInt order value).2 =
      if packet.packetSize + 4 ≤ 8192 then packet.appended (PacketBase.intBytes order value) else packet := by
  have defined : (PacketBase.intBytes order value).length + 8192 < 2 ^ 31 := by simp
  rw [PacketBase.writeInt, write_sized positive small defined, PacketBase.intBytes_length]
  by_cases fits : packet.packetSize + 4 ≤ 8192
  · rw [if_pos fits, if_pos (by exact_mod_cast fits)]
  · rw [if_neg fits, if_neg (by exact_mod_cast fits)]

namespace Open

theorem size_nonneg (opened : Open packet) : 0 ≤ packet.packetSize := by
  have header := opened.header
  simp only [headerSize] at header
  omega

theorem appended (opened : Open packet) (fits : packet.packetSize + data.length ≤ 8192) :
    Open (packet.appended data) := by
  have header := opened.header
  simp only [headerSize] at header
  refine ⟨?_, fits, ?_, ?_⟩
  · simp only [PacketBase.appended, headerSize]
    omega
  · exact (store_before (by omega)).trans opened.firstFlag
  · exact (store_before (by omega)).trans opened.secondFlag

theorem appended_append (opened : Open packet) (data rest : List UInt8) :
    (packet.appended data).appended rest = packet.appended (data ++ rest) := by
  have positive := opened.size_nonneg
  have start : (packet.packetSize + data.length).toNat = packet.packetSize.toNat + data.length := by omega
  simp only [PacketBase.appended, start, store_store_append, List.length_append]
  congr 1
  omega

theorem write_eq (opened : Open packet) (defined : data.length + 8192 < 2 ^ 31) :
    packet.write data =
      if packet.packetSize + data.length ≤ 8192 then (true, packet.appended data) else (false, packet) :=
  write_sized opened.size_nonneg opened.small defined

theorem writeZero_eq (opened : Open packet) :
    packet.writeZero = if packet.packetSize + 1 ≤ 8192 then (true, packet.appended [0]) else (false, packet) :=
  writeZero_sized opened.size_nonneg opened.small

theorem write_true (opened : Open packet) (defined : data.length + 8192 < 2 ^ 31)
    (written : (packet.write data).1 = true) :
    (packet.write data).2 = packet.appended data ∧ packet.packetSize + data.length ≤ 8192 := by
  rw [opened.write_eq defined] at written ⊢
  split_ifs at written ⊢ with fits
  exact ⟨rfl, fits⟩

theorem writeZero_true (opened : Open packet) (written : packet.writeZero.1 = true) :
    packet.writeZero.2 = packet.appended [0] ∧ packet.packetSize + 1 ≤ 8192 := by
  rw [opened.writeZero_eq] at written ⊢
  split_ifs at written ⊢ with fits
  exact ⟨rfl, fits⟩

theorem writeInt_snd (opened : Open packet) (order : Order) (value : Int32) :
    (packet.writeInt order value).2 =
      if packet.packetSize + 4 ≤ 8192 then packet.appended (PacketBase.intBytes order value) else packet :=
  writeInt_sized opened.size_nonneg opened.small order value

/-- A block that fits is written with its length. -/
theorem writeBinary_eq {block : List UInt8} (opened : Open packet)
    (fits : packet.packetSize + 4 + block.length ≤ 8192) :
    packet.writeBinary order block =
      (true, packet.appended (PacketBase.intBytes order (Int32.ofInt block.length) ++ block)) := by
  have header := opened.size_nonneg
  have sized : Open (packet.appended (PacketBase.intBytes order (Int32.ofInt block.length))) :=
    opened.appended (by simp; omega)
  have length : (packet.appended (PacketBase.intBytes order (Int32.ofInt block.length))).packetSize =
      packet.packetSize + 4 := by simp [PacketBase.appended]
  rw [PacketBase.writeBinary, opened.writeInt_snd, if_pos (by omega), sized.write_eq (by omega), if_pos (by omega),
    opened.appended_append]

/-- Of a block that does not fit the length is written. -/
theorem writeBinary_large {block : List UInt8} (opened : Open packet) (counted : packet.packetSize + 4 ≤ 8192)
    (large : 8192 < packet.packetSize + 4 + block.length) (defined : block.length + 8192 < 2 ^ 31) :
    packet.writeBinary order block =
      (false, packet.appended (PacketBase.intBytes order (Int32.ofInt block.length))) := by
  have sized : Open (packet.appended (PacketBase.intBytes order (Int32.ofInt block.length))) :=
    opened.appended (by simp; omega)
  have length : (packet.appended (PacketBase.intBytes order (Int32.ofInt block.length))).packetSize =
      packet.packetSize + 4 := by simp [PacketBase.appended]
  rw [PacketBase.writeBinary, opened.writeInt_snd, if_pos counted, sized.write_eq defined, if_neg (by omega)]

end Open

/-- The bytes lie ahead of the cursor, inside the packet. -/
structure Ahead (packet : PacketBase) (data : List UInt8) : Prop where
  cursor : 0 ≤ packet.bufPos
  inside : packet.bufPos + data.length ≤ packet.packetSize
  small : packet.packetSize ≤ bufferSize
  bytes : slice packet.strBuf packet.bufPos.toNat data.length = data

/-- A read moves the cursor and nothing else that a later read looks at. -/
structure Moved (packet after : PacketBase) (len : Int) : Prop where
  strBuf : after.strBuf = packet.strBuf
  packetSize : after.packetSize = packet.packetSize
  bufPos : after.bufPos = packet.bufPos + len

theorem Moved.trans {last : PacketBase} {first second : Int} (early : Moved packet after first)
    (late : Moved after last second) : Moved packet last (first + second) where
  strBuf := late.strBuf.trans early.strBuf
  packetSize := late.packetSize.trans early.packetSize
  bufPos := by
    rw [late.bufPos, early.bufPos, Int.add_assoc]

namespace Ahead

/-- Behind the bytes that were read, the others lie ahead. -/
theorem moved (ahead : Ahead packet (data ++ rest)) (moved : Moved packet after data.length) : Ahead after rest := by
  have cursor := ahead.cursor
  have inside := ahead.inside
  have small := ahead.small
  have both := ahead.bytes
  rw [List.length_append, slice_append] at both
  have back := (List.append_inj both (by simp)).2
  have position : (packet.bufPos + data.length).toNat = packet.bufPos.toNat + data.length := by omega
  rw [List.length_append] at inside
  refine ⟨?_, ?_, ?_, ?_⟩
  · rw [moved.bufPos]
    omega
  · rw [moved.bufPos, moved.packetSize]
    omega
  · rw [moved.packetSize]
    exact small
  · rw [moved.strBuf, moved.bufPos, position]
    exact back

/-- `_Read` takes the bytes ahead. -/
theorem read (ahead : Ahead packet (data ++ rest)) (room : Int) :
    ∃ after, packet.read data.length room = (some data, after) ∧ Moved packet after data.length ∧ Ahead after rest := by
  have cursor := ahead.cursor
  have inside := ahead.inside
  have small := ahead.small
  simp only [bufferSize, List.length_append] at inside small
  have sum : int (data.length + packet.bufPos) = data.length + packet.bufPos := int_eq (by omega) (by omega)
  have sum' : int (packet.bufPos + data.length) = packet.bufPos + data.length := int_eq (by omega) (by omega)
  have both := ahead.bytes
  rw [List.length_append, slice_append] at both
  have front := (List.append_inj both (by simp)).1
  let after : PacketBase := { packet with
    bufPos := packet.bufPos + data.length
    copies := ⟨packet.bufPos, data.length, room⟩ :: packet.copies }
  have step : Moved packet after data.length := ⟨rfl, rfl, rfl⟩
  refine ⟨after, ?_, step, ahead.moved step⟩
  simp only [PacketBase.read, sum, sum', bufferSize]
  rw [if_neg (by omega), Int.toNat_natCast, front]

/-- `_Read` of more than there is does nothing. -/
theorem read_short {len room : Int} (cursor : 0 ≤ packet.bufPos) (small : packet.bufPos ≤ 8192) (positive : 0 ≤ len)
    (defined : len + 8192 < 2 ^ 31) (short : packet.packetSize < packet.bufPos + len) :
    packet.read len room = (none, packet) := by
  have sum : int (len + packet.bufPos) = len + packet.bufPos := int_eq (by omega) (by omega)
  simp only [PacketBase.read, sum]
  rw [if_pos (by omega)]

end Ahead

namespace PacketBase

theorem toInt_intBytes (order : Order) (value : Int32) : toInt order (intBytes order value) = value := by
  rw [toInt, intBytes, decode_encode _ (UInt32.toNat_lt _)]
  simp

theorem toShort_shortBytes (order : Order) (value : Int16) : toShort order (shortBytes order value) = value := by
  rw [toShort, shortBytes, decode_encode _ (UInt16.toNat_lt _)]
  simp

end PacketBase

namespace Ahead

theorem readInt {value : Int32} (ahead : Ahead packet (PacketBase.intBytes order value ++ rest)) :
    ∃ after, packet.readInt order = (value, after) ∧ Moved packet after 4 ∧ Ahead after rest := by
  obtain ⟨after, taken, moved, further⟩ := ahead.read 4
  rw [PacketBase.intBytes_length] at taken moved
  refine ⟨after, ?_, moved, further⟩
  have run : packet.read 4 4 = _ := taken
  simp only [PacketBase.readInt, run, PacketBase.toInt_intBytes]

theorem readShort {value : Int16} (ahead : Ahead packet (PacketBase.shortBytes order value ++ rest)) :
    ∃ after, packet.readShort order = (value, after) ∧ Moved packet after 2 ∧ Ahead after rest := by
  obtain ⟨after, taken, moved, further⟩ := ahead.read 2
  rw [PacketBase.shortBytes_length] at taken moved
  refine ⟨after, ?_, moved, further⟩
  have run : packet.read 2 2 = _ := taken
  simp only [PacketBase.readShort, run, PacketBase.toShort_shortBytes]

theorem readByte {value : UInt8} (ahead : Ahead packet ([value] ++ rest)) :
    ∃ after, packet.readByte = (value, after) ∧ Moved packet after 1 ∧ Ahead after rest := by
  obtain ⟨after, taken, moved, further⟩ := ahead.read 1
  refine ⟨after, ?_, moved, further⟩
  have run : packet.read 1 1 = _ := taken
  simp only [PacketBase.readByte, run]
  rfl

end Ahead

/-- A length that was written as an `int` is read as it was. -/
theorem toInt_ofInt {value : Int} (low : 0 ≤ value) (high : value < 2 ^ 31) : (Int32.ofInt value).toInt = value := by
  have bits : (Int32.ofInt value).toInt = (BitVec.ofInt 32 value).toInt := rfl
  rw [bits, BitVec.toInt_ofInt, Int.bmod]
  omega

/-- A length is not the `-1` of a failed read. -/
theorem ofInt_ne_neg_one {value : Int} (low : 0 ≤ value) (high : value < 2 ^ 31) : Int32.ofInt value ≠ -1 := by
  intro same
  have read := toInt_ofInt low high
  rw [same] at read
  have negative : (-1 : Int32).toInt = -1 := rfl
  omega

namespace Ahead

theorem packet_size (ahead : Ahead packet data) : (data.length : Int) ≤ 8192 := by
  have cursor := ahead.cursor
  have inside := ahead.inside
  have small := ahead.small
  simp only [bufferSize] at small
  omega

/-- The C string ahead of the cursor. -/
theorem cString {text : List UInt8} (ahead : Ahead packet (text ++ [0] ++ rest)) (clean : 0 ∉ text) :
    packet.cString packet.bufPos.toNat = text := by
  have cursor := ahead.cursor
  have inside := ahead.inside
  have small := ahead.small
  have all := ahead.bytes
  simp only [bufferSize, List.length_append, List.length_singleton] at inside small
  rw [List.length_append, slice_append] at all
  have front := (List.append_inj all (by simp)).1
  obtain ⟨more, total⟩ : ∃ more, 8196 - packet.bufPos.toNat = (text ++ [0]).length + more :=
    ⟨8196 - packet.bufPos.toNat - (text ++ [0]).length, by
      simp only [List.length_append, List.length_singleton]
      omega⟩
  have inBuffer : slice packet.byteAt packet.bufPos.toNat (text ++ [0]).length = text ++ [0] := by
    refine Eq.trans (slice_congr fun i _ bound => ?_) front
    simp only [List.length_append, List.length_singleton] at bound
    exact if_pos (by omega)
  rw [PacketBase.cString, total, slice_append, inBuffer, List.append_assoc, List.takeWhile_append_of_pos]
  · simp
  · intro byte member
    have different : byte ≠ 0 := fun zero => clean (zero ▸ member)
    simpa using different

theorem readStdString {text : List UInt8} (clean : 0 ∉ text)
    (ahead : Ahead packet (PacketBase.intBytes order (Int32.ofInt (text.length + 1)) ++ (text ++ [0]) ++ rest)) :
    ∃ after, packet.readStdString order = (text, after) ∧ Moved packet after (text.length + 5) ∧ Ahead after rest := by
  have size := ahead.packet_size
  simp only [List.length_append, PacketBase.intBytes_length] at size
  rw [List.append_assoc] at ahead
  obtain ⟨middle, counted, moved, further⟩ := ahead.readInt
  have string := further.cString clean
  have cursor := further.cursor
  have inside := further.inside
  have small := further.small
  simp only [bufferSize, List.length_append, List.length_singleton] at inside small
  have length : (Int32.ofInt (text.length + 1)).toInt = text.length + 1 := toInt_ofInt (by omega) (by omega)
  have valid : Int32.ofInt (text.length + 1) ≠ -1 := ofInt_ne_neg_one (by omega) (by omega)
  have sum : int (text.length + 1 + middle.bufPos) = text.length + 1 + middle.bufPos := int_eq (by omega) (by omega)
  have sum' : int (middle.bufPos + (text.length + 1)) = middle.bufPos + (text.length + 1) :=
    int_eq (by omega) (by omega)
  have point : middle.readPoint (text.length + 1) =
      (some middle.bufPos, { middle with bufPos := middle.bufPos + (text.length + 1) }) := by
    simp only [PacketBase.readPoint, sum, sum']
    rw [if_neg (by omega)]
  have step : Moved middle { middle with bufPos := middle.bufPos + (text.length + 1) } ((text ++ [0]).length : Int) :=
    ⟨rfl, rfl, by simp⟩
  refine ⟨{ middle with bufPos := middle.bufPos + (text.length + 1) }, ?_, ⟨moved.strBuf, moved.packetSize, ?_⟩,
    further.moved step⟩
  · simp only [PacketBase.readStdString, PacketBase.readChar, counted, valid, if_false, length, point]
    congr 1
  · have position := moved.bufPos
    change middle.bufPos + (text.length + 1) = _
    omega

theorem readBinary {block : List UInt8} {maximum : Int} (room : block.length ≤ maximum)
    (ahead : Ahead packet (PacketBase.intBytes order (Int32.ofInt block.length) ++ block ++ rest)) :
    ∃ after, packet.readBinary order maximum = (((block.length : Int), block), after) ∧
      Moved packet after (block.length + 4) ∧ Ahead after rest := by
  have size := ahead.packet_size
  simp only [List.length_append, PacketBase.intBytes_length] at size
  rw [List.append_assoc] at ahead
  obtain ⟨middle, counted, moved, further⟩ := ahead.readInt
  obtain ⟨after, taken, movedOn, last⟩ := further.read maximum
  have length : (Int32.ofInt block.length).toInt = block.length := toInt_ofInt (by omega) (by omega)
  have valid : Int32.ofInt block.length ≠ -1 := ofInt_ne_neg_one (by omega) (by omega)
  refine ⟨after, ?_, ?_, last⟩
  · simp only [PacketBase.readBinary, counted, valid, if_false, length, taken]
    rw [if_neg (by omega)]
  · have both := moved.trans movedOn
    rwa [Int.add_comm] at both

/-- A block that is not there is read as an empty one. -/
theorem readBinary_short {length : Nat} {maximum : Int} (room : length ≤ maximum) (defined : length + 8192 < 2 ^ 31)
    (short : packet.packetSize < packet.bufPos + 4 + length)
    (ahead : Ahead packet (PacketBase.intBytes order (Int32.ofInt length) ++ rest)) :
    (packet.readBinary order maximum).1 = (0, []) := by
  obtain ⟨after, counted, moved, further⟩ := ahead.readInt
  have value : (Int32.ofInt length).toInt = length := toInt_ofInt (by omega) (by omega)
  have valid : Int32.ofInt length ≠ -1 := ofInt_ne_neg_one (by omega) (by omega)
  have cursor := further.cursor
  have inside := further.inside
  have small := further.small
  have position := moved.bufPos
  have size := moved.packetSize
  simp only [bufferSize] at small
  have missing : after.read length maximum = (none, after) :=
    read_short cursor (by omega) (by omega) (by omega) (by omega)
  simp only [PacketBase.readBinary, counted, valid, if_false, value, missing]
  rw [if_neg (by omega)]

end Ahead

/-- `Copy` of what `End` leaves: the bytes are those of the packet. -/
theorem copy_finish (order : Order) (opened : Open packet) (receiver : PacketBase) :
    (receiver.copy (packet.finish order).bytes).1 = true ∧
      (receiver.copy (packet.finish order).bytes).2.bufPos = headerSize ∧
      (receiver.copy (packet.finish order).bytes).2.packetSize = packet.packetSize ∧
      ∀ i : Nat, i < packet.packetSize →
        (receiver.copy (packet.finish order).bytes).2.strBuf i = (packet.finish order).strBuf i := by
  have finished := opened.finish order
  have length := finished.bytes_length
  have small := finished.small
  have size : (packet.finish order).packetSize = packet.packetSize := by rw [finish_eq]
  have fits : ¬ bufferSize < (packet.finish order).bytes.length := by omega
  simp only [PacketBase.copy, if_neg fits, PacketBase.reset]
  refine ⟨trivial, trivial, by omega, fun i inside => ?_⟩
  refine store_slice _ _ (Nat.zero_le i) ?_
  rw [PacketBase.bytes, slice_length] at length
  omega

/-- The command is in the header as `Begin` wrote it. -/
theorem start_command (order : Order) (command : Int16) (version subVersion : UInt8) (packet : PacketBase) :
    slice (packet.start order command version subVersion).strBuf 6 2 = PacketBase.shortBytes order command := by
  rw [Open.start_eq]
  have stored := slice_store (store (store (store (fun _ => 0) 2 [66, 89]) 4 [version]) 5 [subVersion]) 6
    (PacketBase.shortBytes order command)
  rwa [PacketBase.shortBytes_length] at stored

/-- The length field is the size without its own two bytes. -/
theorem finish_bodyLength (opened : Open packet) :
    (PacketBase.toShort order (slice (packet.finish order).strBuf 0 2)).toInt + 2 = packet.packetSize := by
  have header := opened.header
  have small := opened.small
  simp only [headerSize, bufferSize] at header small
  have bits : (Int16.ofInt (packet.packetSize - 2)).toInt = (BitVec.ofInt 16 (packet.packetSize - 2)).toInt := rfl
  have read : (Int16.ofInt (packet.packetSize - 2)).toInt = packet.packetSize - 2 := by
    rw [bits, BitVec.toInt_ofInt, Int.bmod]
    omega
  rw [finish_lengthField, PacketBase.toShort_shortBytes, read]
  omega

/-- The command is before anything that is appended. -/
theorem appended_command (opened : Open packet) (data : List UInt8) :
    slice (packet.appended data).strBuf 6 2 = slice packet.strBuf 6 2 := by
  have header := opened.header
  simp only [headerSize] at header
  exact slice_congr fun i low high => store_before (by omega)

/-- A copy of a finished packet has its command. -/
theorem copied_command {command : Int16} (opened : Open packet)
    (named : slice packet.strBuf 6 2 = PacketBase.shortBytes order command) (receiver : PacketBase) :
    (receiver.copy (packet.finish order).bytes).2.getCmdType order = command := by
  have header := opened.header
  simp only [headerSize] at header
  obtain ⟨_, _, _, bytes⟩ := copy_finish order opened receiver
  have field : slice (receiver.copy (packet.finish order).bytes).2.strBuf 6 2 = slice packet.strBuf 6 2 :=
    slice_congr fun i low high => by
      rw [bytes i (by omega), Open.finish_strBuf order packet (by omega) (by omega)]
  rw [PacketBase.getCmdType, PacketBase.readHeader, field, named, PacketBase.toShort_shortBytes]

/-- In a copy of a finished packet, what the writers appended lies ahead of the cursor. -/
theorem Ahead.copied (order : Order) (opened : Open packet) (empty : packet.packetSize = headerSize)
    (fits : 9 + data.length ≤ 8192) (receiver : PacketBase) :
    Ahead (receiver.copy ((packet.appended data).finish order).bytes).2 data := by
  have size : packet.packetSize = 9 := empty
  have filled : Open (packet.appended data) := opened.appended (by omega)
  have filledTo : (packet.appended data).packetSize = 9 + data.length := by rw [← size]; rfl
  obtain ⟨_, cursor, copiedTo, bytes⟩ := copy_finish order filled receiver
  have position : (receiver.copy ((packet.appended data).finish order).bytes).2.bufPos = 9 := cursor
  refine ⟨by omega, by omega, by simp only [bufferSize]; omega, ?_⟩
  have stored := slice_store packet.strBuf 9 data
  refine Eq.trans ?_ stored
  rw [position]
  refine slice_congr fun i low high => ?_
  have start : packet.packetSize.toNat = 9 := by omega
  rw [bytes i (by omega), finish_eq, PacketBase.appended, start]
  exact (store_after (by simp; omega)).trans (store_after (by simp; omega))

end TeenpattiUserServer.Packet
