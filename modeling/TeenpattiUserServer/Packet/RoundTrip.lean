import TeenpattiUserServer.Packet.Fields

/-! Values written into a packet and read back from a copy of it. -/

namespace TeenpattiUserServer.Packet

open Bytes

/-- A value that has a writer and a matching reader. -/
inductive Field where
  | int (value : Int32)
  | short (value : Int16)
  | byte (value : UInt8)
  | string (text : List UInt8)
  | binary (block : List UInt8)
  deriving DecidableEq, Repr

namespace Field

def write : Field → Write
  | int value => .int value
  | short value => .short value
  | byte value => .byte value
  | string text => .string text
  | binary block => .binary block

/-- A string has no zero byte in it, and lengths are of type `int`. -/
def Proper (field : Field) : Prop :=
  field.write.Defined ∧ match field with
    | string text => 0 ∉ text
    | _ => True

/-- Whether a length is written in front of the value. -/
def counted : Field → Bool
  | string _ | binary _ => true
  | _ => false

/-- The value itself. -/
def content (order : Order) : Field → List UInt8
  | int value => PacketBase.intBytes order value
  | short value => PacketBase.shortBytes order value
  | byte value => [value]
  | string text => text ++ [0]
  | binary block => block

/-- The length in front, where there is one. -/
def count (order : Order) : Field → List UInt8
  | string text => PacketBase.intBytes order (Int32.ofInt (text.length + 1))
  | binary block => PacketBase.intBytes order (Int32.ofInt block.length)
  | _ => []

def bytes (order : Order) (field : Field) : List UInt8 := field.count order ++ field.content order

/-- How many bytes that makes. -/
def size : Field → Nat
  | int _ => 4
  | short _ => 2
  | byte _ => 1
  | string text => text.length + 5
  | binary block => block.length + 4

theorem bytes_length (order : Order) (field : Field) : (field.bytes order).length = field.size := by
  cases field <;> simp [bytes, count, content, size] <;> omega

/-- The read that matches the write; `maximum` is the room for a block. -/
def read (order : Order) (maximum : Int) (field : Field) (packet : PacketBase) : Option Field × PacketBase :=
  match field with
  | int _ =>
    let (value, after) := packet.readInt order
    (some (int value), after)
  | short _ =>
    let (value, after) := packet.readShort order
    (some (short value), after)
  | byte _ =>
    let (value, after) := packet.readByte
    (some (byte value), after)
  | string _ =>
    let (text, after) := packet.readStdString order
    (some (string text), after)
  | binary _ =>
    let ((ret, block), after) := packet.readBinary order maximum
    (if ret < 0 then none else some (binary block), after)

end Field

/-- The writes in turn, and whether all of them returned true. -/
def writeAll (order : Order) : List Field → PacketBase → Bool × PacketBase
  | [], packet => (true, packet)
  | field :: fields, packet =>
    let (written, after) := field.write.run order packet
    let (others, last) := writeAll order fields after
    (written && others, last)

/-- The matching reads in turn. -/
def readAll (order : Order) (maximum : Int) : List Field → PacketBase → List (Option Field) × PacketBase
  | [], packet => ([], packet)
  | field :: fields, packet =>
    let (value, after) := field.read order maximum packet
    let (values, last) := readAll order maximum fields after
    (value :: values, last)

/-- A packet and what an input packet of the same family makes of its bytes. -/
structure RoundTrips (order : Order) (maximum : Int) (command : Int16) (fields : List Field)
    (packet receiver : PacketBase) : Prop where
  copied : (receiver.copy packet.bytes).1 = true
  command : (receiver.copy packet.bytes).2.getCmdType order = command
  bodyLength : ((receiver.copy packet.bytes).2.getBodyLength order).toInt + 2 = packet.packetSize
  values : (readAll order maximum fields (receiver.copy packet.bytes).2).1 = fields.map some
  cursor : (readAll order maximum fields (receiver.copy packet.bytes).2).2.bufPos = packet.packetSize

/-- Every length is written at a place where four bytes are left. -/
def Counted : Nat → List Field → Prop
  | _, [] => True
  | size, field :: fields => (field.counted = true → size + 4 ≤ 8192) ∧ Counted (size + field.size) fields

variable {order : Order} {packet after : PacketBase} {field : Field} {fields : List Field} {rest : List UInt8}

/-- A length in front is appended where there is room, then the content is. -/
private theorem string_run (opened : Open packet) {text : List UInt8} (defined : text.length + 8192 < 2 ^ 31)
    (written : (packet.writeString order text).1 = true) :
    (packet.writeString order text).2 =
      ((packet.writeInt order (Int32.ofInt (text.length + 1))).2).appended (text ++ [0]) := by
  have sized : Open (packet.writeInt order (Int32.ofInt (text.length + 1))).2 := opened.write (by simp)
  unfold PacketBase.writeString at written ⊢
  simp only at written ⊢
  by_cases none : text.length = 0
  · rw [if_pos none] at written ⊢
    rw [(sized.writeZero_true written).1, List.length_eq_zero_iff.mp none, List.nil_append]
  · rw [if_neg none] at written ⊢
    have shape := sized.write_eq defined
    split_ifs at shape with fits
    · rw [shape] at written ⊢
      rw [((sized.appended fits).writeZero_true written).1, sized.appended_append]
    · rw [shape] at written
      exact absurd written (by simp)

/-- A write appends the bytes of its value; where four bytes are not left, the length
in front is dropped. -/
theorem Field.run_snd (opened : Open packet) (proper : field.Proper)
    (written : (field.write.run order packet).1 = true) :
    (field.write.run order packet).2 = packet.appended
      (if field.counted = true ∧ ¬ packet.packetSize + 4 ≤ 8192 then field.content order else field.bytes order) := by
  have counting : ∀ (value : Int32) (data : List UInt8),
      ((packet.writeInt order value).2).appended data = packet.appended
        (if ¬ packet.packetSize + 4 ≤ 8192 then data else PacketBase.intBytes order value ++ data) := by
    intro value data
    rw [opened.writeInt_snd]
    split_ifs with room
    · rw [opened.appended_append]
    · rfl
  cases field with
  | int value => exact (opened.write_true (by simp) written).1
  | short value => exact (opened.write_true (by simp) written).1
  | byte value => exact (opened.write_true (by simp) written).1
  | string text =>
    have run := string_run opened proper.1 written
    rw [counting] at run
    refine run.trans ?_
    simp [counted, bytes, count, content]
  | binary block =>
    have sized : Open (packet.writeInt order (Int32.ofInt block.length)).2 := opened.write (by simp)
    have run := (sized.write_true proper.1 written).1
    rw [counting] at run
    refine run.trans ?_
    simp [counted, bytes, count, content]

/-- The room for blocks is large enough. -/
def Roomy (maximum : Int) (fields : List Field) : Prop :=
  ∀ block, .binary block ∈ fields → (block.length : Int) ≤ maximum

/-- The matching read takes the value whose bytes lie ahead. -/
theorem Field.read_ahead (maximum : Int) (proper : field.Proper)
    (room : ∀ block, field = .binary block → (block.length : Int) ≤ maximum)
    (ahead : Ahead packet (field.bytes order ++ rest)) :
    ∃ after, field.read order maximum packet = (some field, after) ∧ Moved packet after field.size ∧
      Ahead after rest := by
  cases field with
  | int value =>
    obtain ⟨after, taken, moved, further⟩ := Ahead.readInt ahead
    exact ⟨after, by simp only [read, taken], moved, further⟩
  | short value =>
    obtain ⟨after, taken, moved, further⟩ := Ahead.readShort ahead
    exact ⟨after, by simp only [read, taken], moved, further⟩
  | byte value =>
    obtain ⟨after, taken, moved, further⟩ := Ahead.readByte ahead
    exact ⟨after, by simp only [read, taken], moved, further⟩
  | string text =>
    obtain ⟨after, taken, moved, further⟩ := Ahead.readStdString proper.2 ahead
    exact ⟨after, by simp only [read, taken], moved, further⟩
  | binary block =>
    obtain ⟨after, taken, moved, further⟩ := Ahead.readBinary (room block rfl) ahead
    refine ⟨after, ?_, moved, further⟩
    simp only [read, taken]
    rw [if_neg (by omega)]

/-- What the writes have appended so far stays as it is. -/
theorem writeAll_before (opened : Open packet) (proper : ∀ field ∈ fields, field.Proper)
    (written : (writeAll order fields packet).1 = true) :
    Open (writeAll order fields packet).2 ∧ packet.packetSize ≤ (writeAll order fields packet).2.packetSize ∧
      ∀ i : Nat, i < packet.packetSize → (writeAll order fields packet).2.strBuf i = packet.strBuf i := by
  induction fields generalizing packet with
  | nil => exact ⟨opened, Int.le_refl _, fun i _ => rfl⟩
  | cons field fields ih =>
    simp only [writeAll, Bool.and_eq_true] at written ⊢
    have here := proper field (by simp)
    have run := Field.run_snd opened here written.1
    have further : Open (field.write.run order packet).2 := opened.run field.write here.1
    obtain ⟨last, grown, same⟩ := ih further (fun other member => proper other (by simp [member])) written.2
    have longer : packet.packetSize ≤ (field.write.run order packet).2.packetSize := by
      rw [run]
      simp only [PacketBase.appended]
      omega
    refine ⟨last, Int.le_trans longer grown, fun i bound => ?_⟩
    rw [same i (by omega), run]
    exact store_before (by omega)

/-- The read of a length fails where four bytes are not left. -/
private theorem readInt_short {reader : PacketBase} (cursor : 8189 ≤ reader.bufPos) (small : reader.bufPos ≤ 8192)
    (size : reader.packetSize ≤ 8192) : reader.readInt order = (-1, reader) := by
  have short : reader.read 4 4 = (none, reader) :=
    Ahead.read_short (by omega) small (by decide) (by decide) (by omega)
  rw [PacketBase.readInt, short]

private theorem readStdString_short {reader : PacketBase} (cursor : 8189 ≤ reader.bufPos)
    (small : reader.bufPos ≤ 8192) (size : reader.packetSize ≤ 8192) : reader.readStdString order = ([], reader) := by
  simp only [PacketBase.readStdString, PacketBase.readChar, readInt_short cursor small size, if_true]

private theorem readBinary_short {reader : PacketBase} (cursor : 8189 ≤ reader.bufPos)
    (small : reader.bufPos ≤ 8192) (size : reader.packetSize ≤ 8192) (maximum : Int) :
    reader.readBinary order maximum = ((-1, []), reader) := by
  simp only [PacketBase.readBinary, readInt_short cursor small size, if_true]

/-- Near the end of the buffer no length is read, no integer is written, and the
other values move the cursor no further than they move the writer. -/
private theorem read_behind (maximum : Int) {reader : PacketBase} (opened : Open packet) (proper : field.Proper)
    (written : (field.write.run order packet).1 = true) (cursor : 8189 ≤ reader.bufPos)
    (behind : reader.bufPos < packet.packetSize) (size : reader.packetSize ≤ 8192) :
    (field.read order maximum reader).2.packetSize ≤ 8192 ∧ 8189 ≤ (field.read order maximum reader).2.bufPos ∧
      (field.read order maximum reader).2.bufPos < (field.write.run order packet).2.packetSize := by
  have small := opened.small
  have run := Field.run_snd opened proper written
  simp only [bufferSize] at small
  have position : reader.bufPos ≤ 8192 := by omega
  have grown : packet.packetSize ≤ (field.write.run order packet).2.packetSize := by
    rw [run]
    simp only [PacketBase.appended]
    omega
  have few : ∀ len, 0 ≤ len → len ≤ 2 → (reader.read len len).2.packetSize = reader.packetSize ∧
      ((reader.read len len).2.bufPos = reader.bufPos ∨ (reader.read len len).2.bufPos = reader.bufPos + len) := by
    intro len positive bound
    rw [PacketBase.read]
    split
    · exact ⟨rfl, .inl rfl⟩
    · exact ⟨rfl, .inr (int_eq (by omega) (by omega))⟩
  cases field with
  | int value =>
    have last := (opened.write_true (by simp) written).2
    rw [PacketBase.intBytes_length] at last
    omega
  | short value =>
    have sum : ((Field.short value).write.run order packet).2.packetSize = packet.packetSize + 2 := by
      rw [run]
      simp [PacketBase.appended, Field.counted, Field.bytes_length, Field.size]
    have same : ((Field.short value).read order maximum reader).2 = (reader.read 2 2).2 := by
      simp only [Field.read, PacketBase.readShort]
      split <;> simp_all
    obtain ⟨kept, moved⟩ := few 2 (by decide) (by decide)
    rw [same]
    omega
  | byte value =>
    have sum : ((Field.byte value).write.run order packet).2.packetSize = packet.packetSize + 1 := by
      rw [run]
      simp [PacketBase.appended, Field.counted, Field.bytes_length, Field.size]
    have same : ((Field.byte value).read order maximum reader).2 = (reader.read 1 1).2 := by
      simp only [Field.read, PacketBase.readByte]
      split <;> simp_all
    obtain ⟨kept, moved⟩ := few 1 (by decide) (by decide)
    rw [same]
    omega
  | string text =>
    simp only [Field.read, readStdString_short cursor position size]
    omega
  | binary block =>
    simp only [Field.read, readBinary_short cursor position size]
    omega

/-- A cursor that is behind the writer near the end of the buffer stays behind. -/
private theorem readAll_behind (maximum : Int) {reader : PacketBase} (opened : Open packet)
    (proper : ∀ field ∈ fields, field.Proper) (written : (writeAll order fields packet).1 = true)
    (cursor : 8189 ≤ reader.bufPos) (behind : reader.bufPos < packet.packetSize)
    (size : reader.packetSize ≤ 8192) :
    (readAll order maximum fields reader).2.bufPos < (writeAll order fields packet).2.packetSize := by
  induction fields generalizing packet reader with
  | nil => exact behind
  | cons field fields ih =>
    simp only [writeAll, readAll, Bool.and_eq_true] at written ⊢
    have here := proper field (by simp)
    have further : Open (field.write.run order packet).2 := opened.run field.write here.1
    obtain ⟨size, cursor, behind⟩ := read_behind maximum opened here written.1 cursor behind size
    exact ih further (fun other member => proper other (by simp [member])) written.2 cursor behind size

/-- A length that was dropped is missed: a block is not read, and a string is not
read over. -/
private theorem readAll_dropped (maximum : Int) {reader : PacketBase} (opened : Open packet)
    (proper : ∀ other ∈ field :: fields, other.Proper) (written : (writeAll order (field :: fields) packet).1 = true)
    (counted : field.counted = true) (dropped : 8192 < packet.packetSize + 4)
    (cursor : reader.bufPos = packet.packetSize) (size : reader.packetSize ≤ 8192) :
    ¬ ((readAll order maximum (field :: fields) reader).1 = (field :: fields).map some ∧
      (readAll order maximum (field :: fields) reader).2.bufPos =
        (writeAll order (field :: fields) packet).2.packetSize) := by
  rintro ⟨values, last⟩
  simp only [writeAll, Bool.and_eq_true] at written
  simp only [readAll, writeAll, List.map_cons, List.cons.injEq] at values last
  have small := opened.small
  simp only [bufferSize] at small
  have here := proper field (by simp)
  have further : Open (field.write.run order packet).2 := opened.run field.write here.1
  have run := Field.run_snd opened here written.1
  rw [if_pos ⟨counted, by omega⟩] at run
  cases field with
  | int value => cases counted
  | short value => cases counted
  | byte value => cases counted
  | string text =>
    simp only [Field.read, readStdString_short (by omega : 8189 ≤ reader.bufPos) (by omega) size] at values last
    have grown : ((Field.string text).write.run order packet).2.packetSize = packet.packetSize + (text.length + 1) := by
      rw [run]
      simp [PacketBase.appended, Field.content]
    have behind := readAll_behind maximum further (fun other member => proper other (by simp [member])) written.2
      (by omega : 8189 ≤ reader.bufPos) (by omega) size
    omega
  | binary block =>
    simp only [Field.read, readBinary_short (by omega : 8189 ≤ reader.bufPos) (by omega) size] at values
    exact absurd values.1 (by simp)

/-- The matching reads take the written values up to the end of the packet exactly
when no length was dropped. -/
theorem readAll_iff (maximum : Int) {reader : PacketBase} (opened : Open packet)
    (proper : ∀ field ∈ fields, field.Proper) (roomy : Roomy maximum fields)
    (written : (writeAll order fields packet).1 = true) (cursor : reader.bufPos = packet.packetSize)
    (size : reader.packetSize = (writeAll order fields packet).2.packetSize)
    (bytes : ∀ i : Nat, packet.packetSize ≤ i → i < reader.packetSize →
      reader.strBuf i = (writeAll order fields packet).2.strBuf i) :
    ((readAll order maximum fields reader).1 = fields.map some ∧
      (readAll order maximum fields reader).2.bufPos = (writeAll order fields packet).2.packetSize) ↔
      Counted packet.packetSize.toNat fields := by
  induction fields generalizing packet reader with
  | nil => exact iff_of_true ⟨rfl, cursor⟩ trivial
  | cons field fields ih =>
    have positive := opened.size_nonneg
    have small := (writeAll_before opened proper written).1.small
    simp only [bufferSize] at small
    by_cases dropped : field.counted = true ∧ ¬ packet.packetSize + 4 ≤ 8192
    · refine iff_of_false (readAll_dropped maximum opened proper written dropped.1 (by omega) cursor (by omega)) ?_
      rintro ⟨room, _⟩
      have fits := room dropped.1
      omega
    · have here := proper field (by simp)
      have others : ∀ other ∈ fields, other.Proper := fun other member => proper other (by simp [member])
      simp only [writeAll, Bool.and_eq_true] at written size bytes small ⊢
      have further : Open (field.write.run order packet).2 := opened.run field.write here.1
      have run := Field.run_snd opened here written.1
      rw [if_neg dropped] at run
      have grown : (field.write.run order packet).2.packetSize = packet.packetSize + field.size := by
        rw [run]
        simp [PacketBase.appended, Field.bytes_length]
      obtain ⟨last, longer, same⟩ := writeAll_before further others written.2
      have ahead : Ahead reader (field.bytes order ++ []) := by
        rw [List.append_nil]
        have length : ((field.bytes order).length : Int) = field.size := by rw [Field.bytes_length]
        refine ⟨by omega, by omega, by simp only [bufferSize]; omega, ?_⟩
        have stored := slice_store packet.strBuf packet.packetSize.toNat (field.bytes order)
        refine Eq.trans ?_ stored
        rw [cursor]
        refine slice_congr fun i low high => ?_
        rw [bytes i (by omega) (by omega), same i (by omega), run]
        rfl
      obtain ⟨after, taken, moved, _⟩ := Field.read_ahead maximum here (fun block is => roomy block (by simp [is]))
        ahead
      have position := moved.bufPos
      have unchanged := moved.packetSize
      have rest : ∀ i : Nat, (field.write.run order packet).2.packetSize ≤ i → i < after.packetSize →
          after.strBuf i = (writeAll order fields (field.write.run order packet).2).2.strBuf i := by
        intro i low high
        rw [moved.strBuf, bytes i (by omega) (by omega)]
      have tail := ih further others (fun block member => roomy block (by simp [member])) written.2 (by omega)
        (by omega) rest
      have next : (field.write.run order packet).2.packetSize.toNat = packet.packetSize.toNat + field.size := by omega
      rw [next] at tail
      simp only [readAll, taken, List.map_cons, List.cons.injEq, true_and, tail, Counted]
      refine ⟨fun counted => ⟨fun has => ?_, counted⟩, And.right⟩
      have fits : packet.packetSize + 4 ≤ 8192 := by
        by_contra short
        exact dropped ⟨has, short⟩
      omega

section Packed

variable {command : Int16} {version subVersion : UInt8} {receiver : PacketBase} {maximum : Int}

/-- The reads from a copy of the finished packet. -/
private theorem readAll_copy_iff (proper : ∀ field ∈ fields, field.Proper) (roomy : Roomy maximum fields)
    (written : (writeAll order fields (packet.start order command version subVersion)).1 = true) :
    ((readAll order maximum fields (receiver.copy ((writeAll order fields
        (packet.start order command version subVersion)).2.finish order).bytes).2).1 = fields.map some ∧
      (readAll order maximum fields (receiver.copy ((writeAll order fields
        (packet.start order command version subVersion)).2.finish order).bytes).2).2.bufPos =
        (writeAll order fields (packet.start order command version subVersion)).2.packetSize) ↔ Counted 9 fields := by
  have started := Open.start order command version subVersion packet
  have startSize : (packet.start order command version subVersion).packetSize = 9 := rfl
  generalize packet.start order command version subVersion = begun at started startSize written ⊢
  have opened := (writeAll_before started proper written).1
  obtain ⟨_, cursor, size, bytes⟩ := copy_finish order opened receiver
  have reads := readAll_iff maximum started proper roomy written (cursor.trans startSize.symm) size
  rw [startSize] at reads
  refine reads fun i low high => ?_
  rw [bytes i (by omega), finish_eq]
  exact (store_after (by simp; omega)).trans (store_after (by simp; omega))

/-- A packet in which no length was dropped round-trips. -/
theorem Counted.roundTrips (counted : Counted 9 fields) (proper : ∀ field ∈ fields, field.Proper)
    (roomy : Roomy maximum fields)
    (written : (writeAll order fields (packet.start order command version subVersion)).1 = true) :
    RoundTrips order maximum command fields
      ((writeAll order fields (packet.start order command version subVersion)).2.finish order) receiver := by
  obtain ⟨values, position⟩ := (@readAll_copy_iff order packet fields command version subVersion receiver maximum proper
    roomy written).mpr counted
  have started := Open.start order command version subVersion packet
  have startSize : (packet.start order command version subVersion).packetSize = 9 := rfl
  have named := start_command order command version subVersion packet
  generalize packet.start order command version subVersion = begun at *
  obtain ⟨opened, longer, same⟩ := writeAll_before started proper written
  generalize (writeAll order fields begun).2 = last at *
  obtain ⟨copied, _, size, bytes⟩ := copy_finish order opened receiver
  have finished : (last.finish order).packetSize = last.packetSize := by rw [finish_eq]
  have kept : slice last.strBuf 6 2 = slice begun.strBuf 6 2 := slice_congr fun i low high => same i (by omega)
  have field : slice (receiver.copy (last.finish order).bytes).2.strBuf 0 2 = slice (last.finish order).strBuf 0 2 :=
    slice_congr fun i low high => bytes i (by omega)
  refine ⟨copied, copied_command opened (kept.trans named) receiver, ?_, values, position.trans finished.symm⟩
  rw [PacketBase.getBodyLength, PacketBase.readHeader, field, finish_bodyLength opened, finished]

/-- In a packet that round-trips no length was dropped. -/
theorem RoundTrips.counted (proper : ∀ field ∈ fields, field.Proper) (roomy : Roomy maximum fields)
    (written : (writeAll order fields (packet.start order command version subVersion)).1 = true)
    (trips : RoundTrips order maximum command fields
      ((writeAll order fields (packet.start order command version subVersion)).2.finish order) receiver) :
    Counted 9 fields := by
  refine (readAll_copy_iff proper roomy written).mp ⟨trips.values, trips.cursor.trans ?_⟩
  rw [finish_eq]

end Packed

/-- What is written with `Begin`, writes that all return true and `End` round-trips
exactly when every length was written where four bytes were left. -/
theorem codec_round_trips_iff (order : Order) (command : Int16) (version subVersion : UInt8)
    (packet receiver : PacketBase) (maximum : Int) {fields : List Field} (proper : ∀ field ∈ fields, field.Proper)
    (roomy : Roomy maximum fields)
    (written : (writeAll order fields (packet.start order command version subVersion)).1 = true) :
    RoundTrips order maximum command fields
      ((writeAll order fields (packet.start order command version subVersion)).2.finish order) receiver ↔
      Counted 9 fields :=
  ⟨RoundTrips.counted proper roomy written, fun counted => counted.roundTrips proper roomy written⟩

/-- Five values of all kinds. -/
def fiveFields : List Field := [.int (-1), .short 2, .byte 3, .string [65], .binary []]

theorem codec_round_trips_iff_five :
    RoundTrips .network 0 7 fiveFields
      ((writeAll .network fiveFields (fresh.start .network 7 1 1)).2.finish .network) fresh ↔ Counted 9 fiveFields :=
  codec_round_trips_iff .network 7 1 1 fresh fresh 0 (by simp [fiveFields, Field.Proper, Field.write, Write.Defined])
    (by simp [fiveFields, Roomy]) (by decide)

/-- An empty block at the end of the buffer is written without its length. -/
private theorem writeBinary_dropped (order : Order) (opened : Open packet) (full : 8192 < packet.packetSize + 4) :
    (packet.writeBinary order []).1 = true := by
  have small := opened.small
  simp only [bufferSize] at small
  rw [PacketBase.writeBinary, opened.writeInt_snd, if_neg (by omega), opened.write_eq (by simp), if_pos]
  simpa using small

/-- A block that fills the buffer, and an empty one behind it, whose length has no room. -/
private theorem full_written {block : List UInt8} (full : block.length = 8179) (opened : Open packet)
    (empty : packet.packetSize = 9) : (writeAll order [.binary block, .binary []] packet).1 = true := by
  have first : packet.writeBinary order block = _ := opened.writeBinary_eq (by omega)
  have filled : Open (packet.appended (PacketBase.intBytes order (Int32.ofInt block.length) ++ block)) :=
    opened.appended (by simp; omega)
  have second := writeBinary_dropped order filled (by simp [PacketBase.appended]; omega)
  simp only [writeAll, Field.write, Write.run, first, second, Bool.and_self]

/-- Both writes return true, but the length of the second block is dropped. -/
theorem full_block_loses_next : ∃ block,
    (∀ field ∈ [Field.binary block, .binary []], field.Proper) ∧ Roomy 8192 [.binary block, .binary []] ∧
      (writeAll .network [.binary block, .binary []] (fresh.start .network 7 1 1)).1 = true ∧
      ¬ RoundTrips .network 8192 7 [.binary block, .binary []]
        ((writeAll .network [.binary block, .binary []] (fresh.start .network 7 1 1)).2.finish .network) fresh := by
  have started := Open.start .network 7 1 1 fresh
  have full : (List.replicate 8179 (0 : UInt8)).length = 8179 := List.length_replicate
  refine ⟨List.replicate 8179 0, ?_⟩
  generalize List.replicate 8179 (0 : UInt8) = block at full ⊢
  have proper : ∀ field ∈ [Field.binary block, .binary []], field.Proper := by
    simp [Field.Proper, Field.write, Write.Defined, full]
  have roomy : Roomy 8192 [.binary block, .binary []] := by simp [Roomy, full]
  refine ⟨proper, roomy, full_written full started rfl, fun trips => ?_⟩
  have counted := trips.counted proper roomy (full_written full started rfl)
  simp [Counted, Field.counted, Field.size, full] at counted

end TeenpattiUserServer.Packet
