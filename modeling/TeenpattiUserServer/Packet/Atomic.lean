import TeenpattiUserServer.Packet.Confinement
import TeenpattiUserServer.Packet.Fields

/-! When an operation on a field that fails leaves the packet as it was. The
operations have several parts, and not every way out undoes the parts before it. -/

namespace TeenpattiUserServer.Packet

open Bytes PacketBase

/-- What `Begin`, `Copy` and `Reset` set up and no operation changes: the size fits the
buffer, and the cursor is some `int`. -/
structure Held (packet : PacketBase) : Prop where
  positive : 0 ≤ packet.packetSize
  small : packet.packetSize ≤ bufferSize
  low : -2 ^ 31 ≤ packet.bufPos
  high : packet.bufPos < 2 ^ 31

inductive FieldOp where
  | writeString (text : List UInt8)
  | writeBinary (block : List UInt8)
  | readString (maxLen : Int)
  | readBinary (maxLen : Int)

/-- The check in `_Read` does not let this many bytes through. -/
def Refused (packet : PacketBase) (len : Int) : Prop :=
  packet.packetSize < int (len + packet.bufPos) ∨ bufferSize < int (len + packet.bufPos)

namespace FieldOp

def Defined : FieldOp → Prop
  | writeString text => (Write.string text).Defined
  | writeBinary block => (Write.binary block).Defined
  | _ => True

/-- `ReadBinary` gives the block that is declared. -/
def Delivers (order : Order) (packet : PacketBase) (maxLen : Int) : Prop :=
  let (len, after) := packet.readInt order
  0 ≤ len.toInt ∧
    (packet.readBinary order maxLen).1 = (len.toInt, slice packet.strBuf after.bufPos.toNat len.toInt.toNat)

/-- A writer that fails leaves the bytes and the size, a reader that fails leaves the cursor. -/
def Atomic (order : Order) (packet : PacketBase) : FieldOp → Prop
  | writeString text => (packet.writeString order text).1 = false →
      (packet.writeString order text).2.packetSize = packet.packetSize ∧
        (packet.writeString order text).2.bytes = packet.bytes
  | writeBinary block => (packet.writeBinary order block).1 = false →
      (packet.writeBinary order block).2.packetSize = packet.packetSize ∧
        (packet.writeBinary order block).2.bytes = packet.bytes
  | readString maxLen => (packet.readString order maxLen).1 = none →
      (packet.readString order maxLen).2.bufPos = packet.bufPos
  | readBinary maxLen => ¬ Delivers order packet maxLen →
      (packet.readBinary order maxLen).2.bufPos = packet.bufPos

/-- A writer writes all of the field, or the length does not fit and neither does a part
of the rest. A reader finds no length, or it takes what it finds; `ReadBinary` may also
find one above its maximum, or a block of `-4` bytes, which ends where its length began. -/
def Clean (order : Order) (packet : PacketBase) : FieldOp → Prop
  | writeString text =>
      (packet.packetSize + 4 ≤ 8192 → packet.packetSize + 5 + text.length ≤ 8192) ∧
        (8192 < packet.packetSize + 4 → text.length = 0 ∨ packet.packetSize + text.length ≠ 8192)
  | writeBinary block => packet.packetSize + 4 ≤ 8192 → packet.packetSize + 4 + block.length ≤ 8192
  | readString maxLen =>
      let (len, after) := packet.readInt order
      Refused packet 4 ∨ len ≠ -1 ∧ len.toInt ≤ maxLen ∧ ¬ Refused after len.toInt
  | readBinary maxLen =>
      let (len, after) := packet.readInt order
      Refused packet 4 ∨
        len ≠ -1 ∧ (maxLen < len.toInt ∨ ¬ Refused after len.toInt ∧ (0 ≤ len.toInt ∨ len.toInt = -4))

end FieldOp

variable {order : Order} {packet : PacketBase}

/-- What the check refuses is not read. -/
theorem Refused.read {len : Int} (refused : Refused packet len) (room : Int) : packet.read len room = (none, packet) :=
  if_pos refused

theorem read_passed {len : Int} (passed : ¬ Refused packet len) (room : Int) : packet.read len room =
    (some (slice packet.strBuf packet.bufPos.toNat len.toNat), { packet with
      bufPos := int (packet.bufPos + len), copies := ⟨packet.bufPos, len, room⟩ :: packet.copies }) :=
  if_neg passed

/-- A length that is there moves the cursor by its own four bytes. -/
private theorem readInt_passed (order : Order) (passed : ¬ Refused packet 4) :
    (packet.readInt order).2.bufPos = int (packet.bufPos + 4) ∧ (packet.readInt order).2.strBuf = packet.strBuf ∧
      ¬ Refused (packet.readInt order).2 0 := by
  have moved : int (0 + int (packet.bufPos + 4)) = int (4 + packet.bufPos) := by
    simp only [int, Int.bmod]
    omega
  rw [PacketBase.readInt, read_passed passed]
  refine ⟨rfl, rfl, ?_⟩
  rw [Refused, moved]
  exact passed

private theorem readInt_refused (order : Order) (refused : Refused packet 4) :
    packet.readInt order = (-1, packet) := by
  rw [PacketBase.readInt, refused.read]

namespace Held

/-- With room for it, the length is appended. -/
private theorem counted (held : Held packet) (order : Order) (value : Int32) (room : packet.packetSize + 4 ≤ 8192) :
    ∃ sized, (packet.writeInt order value).2 = sized ∧ sized.packetSize = packet.packetSize + 4 := by
  refine ⟨_, rfl, ?_⟩
  rw [writeInt_sized held.positive held.small, if_pos room]
  simp [PacketBase.appended]

private theorem writeBinary_atomic_iff (held : Held packet) {block : List UInt8}
    (defined : (FieldOp.writeBinary block).Defined) :
    (FieldOp.writeBinary block).Atomic order packet ↔ (FieldOp.writeBinary block).Clean order packet := by
  have positive := held.positive
  simp only [FieldOp.Atomic, FieldOp.Clean, PacketBase.writeBinary]
  by_cases room : packet.packetSize + 4 ≤ 8192
  · obtain ⟨sized, written, size⟩ := held.counted order (Int32.ofInt block.length) room
    rw [written, write_sized (by omega) (by rw [size]; exact room) defined, size]
    by_cases fits : packet.packetSize + 4 + block.length ≤ 8192
    · simp [fits]
    · rw [if_neg fits]
      refine iff_of_false (fun atomic => ?_) fun clean => fits (clean room)
      have same : sized.packetSize = packet.packetSize := (atomic rfl).1
      omega
  · rw [writeInt_sized positive held.small, if_neg room, write_sized positive held.small defined]
    refine iff_of_true (fun failed => ?_) fun counted => absurd counted room
    split_ifs at failed ⊢
    exact ⟨rfl, rfl⟩

/-- `WriteString` behind the length: the text, and the zero byte if there is still room for it. -/
private theorem writeString_sized {sized : PacketBase} {text : List UInt8}
    (written : (packet.writeInt order (Int32.ofInt (text.length + 1))).2 = sized) (positive : 0 ≤ sized.packetSize)
    (small : sized.packetSize ≤ bufferSize) (defined : text.length + 8192 < 2 ^ 31) :
    packet.writeString order text =
      if sized.packetSize + text.length + 1 ≤ 8192 then (true, (sized.appended text).appended [0])
      else (false, if sized.packetSize + text.length ≤ 8192 then sized.appended text else sized) := by
  simp only [PacketBase.writeString, written]
  by_cases empty : text.length = 0
  · obtain rfl := List.eq_nil_of_length_eq_zero empty
    rw [if_pos empty, writeZero_sized positive small, appended_nil]
    simp
  · rw [if_neg empty, write_sized positive small defined]
    have size : (sized.appended text).packetSize = sized.packetSize + text.length := rfl
    by_cases fits : sized.packetSize + text.length ≤ 8192
    · rw [if_pos fits, if_pos fits]
      dsimp only
      rw [writeZero_sized (by omega) (by simp only [bufferSize]; omega), size]
    · rw [if_neg fits, if_neg fits, if_neg (by omega)]

private theorem writeString_atomic_iff (held : Held packet) {text : List UInt8}
    (defined : (FieldOp.writeString text).Defined) :
    (FieldOp.writeString text).Atomic order packet ↔ (FieldOp.writeString text).Clean order packet := by
  have positive := held.positive
  simp only [FieldOp.Atomic, FieldOp.Clean]
  by_cases room : packet.packetSize + 4 ≤ 8192
  · obtain ⟨sized, written, size⟩ := held.counted order (Int32.ofInt (text.length + 1)) room
    rw [writeString_sized written (by omega) (by rw [size]; exact room) defined, size]
    by_cases fits : packet.packetSize + 5 + text.length ≤ 8192
    · rw [if_pos (by omega)]
      exact iff_of_true (by simp) ⟨fun _ => fits, fun full => by omega⟩
    · rw [if_neg (by omega)]
      refine iff_of_false (fun atomic => ?_) fun clean => fits (clean.1 room)
      have same := (atomic rfl).1
      have grown : (sized.appended text).packetSize = sized.packetSize + text.length := rfl
      split_ifs at same <;> dsimp only at same <;> omega
  · have unwritten : (packet.writeInt order (Int32.ofInt (text.length + 1))).2 = packet := by
      rw [writeInt_sized positive held.small, if_neg room]
    rw [writeString_sized unwritten positive held.small defined]
    by_cases fits : packet.packetSize + text.length + 1 ≤ 8192
    · rw [if_pos fits]
      exact iff_of_true (by simp) ⟨fun counted => absurd counted room, fun _ => .inr (by omega)⟩
    · rw [if_neg fits]
      by_cases whole : packet.packetSize + text.length ≤ 8192
      · rw [if_pos whole]
        have grown : (packet.appended text).packetSize = packet.packetSize + text.length := rfl
        constructor
        · intro atomic
          have same : (packet.appended text).packetSize = packet.packetSize := (atomic rfl).1
          exact ⟨fun counted => absurd counted room, fun _ => .inl (by omega)⟩
        · intro clean _
          have empty : text = [] := List.eq_nil_of_length_eq_zero ((clean.2 (by omega)).resolve_right (by omega))
          rw [empty, appended_nil]
          exact ⟨rfl, rfl⟩
      · rw [if_neg whole]
        exact iff_of_true (fun _ => ⟨rfl, rfl⟩) ⟨fun counted => absurd counted room, fun _ => .inr (by omega)⟩

private theorem readString_atomic_iff (held : Held packet) (maxLen : Int) :
    (FieldOp.readString maxLen).Atomic order packet ↔ (FieldOp.readString maxLen).Clean order packet := by
  have low := held.low
  have high := held.high
  simp only [FieldOp.Atomic, FieldOp.Clean, PacketBase.readString]
  by_cases absent : Refused packet 4
  · rw [readInt_refused order absent]
    exact iff_of_true (fun _ => rfl) (.inl absent)
  · obtain ⟨moved, _, _⟩ := readInt_passed order absent
    generalize packet.readInt order = field at moved ⊢
    obtain ⟨len, after⟩ := field
    dsimp only at moved ⊢
    have left : int (packet.bufPos + 4) ≠ packet.bufPos := by
      simp only [int, Int.bmod]
      omega
    have halfway : int (int (packet.bufPos + 4) - 2) ≠ packet.bufPos := by
      simp only [int, Int.bmod]
      omega
    by_cases missing : len = -1
    · simp [missing, absent, moved, left]
    · by_cases long : maxLen < len.toInt
      · simp [missing, absent, long, moved, halfway, PacketBase.readUndo, Int.not_le.mpr long]
      · by_cases refused : Refused after len.toInt
        · simp [missing, absent, long, moved, left, refused, refused.read]
        · simp [missing, long, refused, read_passed refused, Int.not_lt.mp long]

/-- What `ReadBinary` does with a length that is there. -/
private theorem readBinary_counted {maxLen : Int} {len : Int32} {after : PacketBase}
    (counted : packet.readInt order = (len, after)) (moved : after.bufPos = int (packet.bufPos + 4))
    (bytes : after.strBuf = packet.strBuf) (settled : ¬ Refused after 0) (held : Held packet) :
    (FieldOp.readBinary maxLen).Atomic order packet ↔
      len ≠ -1 ∧ (maxLen < len.toInt ∨ ¬ Refused after len.toInt ∧ (0 ≤ len.toInt ∨ len.toInt = -4)) := by
  have low := held.low
  have high := held.high
  have least := len.le_toInt
  have most := len.toInt_lt
  have left : int (packet.bufPos + 4) ≠ packet.bufPos := by
    simp only [int, Int.bmod]
    omega
  simp only [FieldOp.Atomic, FieldOp.Delivers, counted, PacketBase.readBinary]
  by_cases missing : len = -1
  · rw [if_pos missing]
    refine iff_of_false (fun atomic => left (moved ▸ atomic fun both => ?_)) fun both => both.1 missing
    have negative : (-1 : Int32).toInt = -1 := rfl
    rw [missing, negative] at both
    omega
  · rw [if_neg missing]
    by_cases long : maxLen < len.toInt
    · rw [if_pos long]
      refine iff_of_true (fun _ => ?_) ⟨missing, .inl long⟩
      simp only [PacketBase.readUndo, moved, int, Int.bmod]
      omega
    · rw [if_neg long]
      by_cases refused : Refused after len.toInt
      · rw [refused.read]
        refine iff_of_false (fun atomic => left (moved ▸ atomic fun both => ?_)) fun both =>
          (both.2.resolve_left long).1 refused
        have zero : len.toInt = 0 := (Prod.mk.inj both.2).1.symm
        exact settled (zero ▸ refused)
      · rw [read_passed refused, bytes]
        by_cases positive : 0 ≤ len.toInt
        · exact iff_of_true (fun lost => absurd ⟨positive, rfl⟩ lost) ⟨missing, .inr ⟨refused, .inl positive⟩⟩
        · have back : int (after.bufPos + len.toInt) = packet.bufPos ↔ len.toInt = -4 := by
            simp only [moved, int, Int.bmod]
            omega
          constructor
          · intro atomic
            exact ⟨missing, .inr ⟨refused, .inr (back.mp (atomic fun both => positive both.1))⟩⟩
          · intro clean _
            exact back.mpr (((clean.2.resolve_left long).2).resolve_left positive)

private theorem readBinary_atomic_iff (held : Held packet) (maxLen : Int) :
    (FieldOp.readBinary maxLen).Atomic order packet ↔ (FieldOp.readBinary maxLen).Clean order packet := by
  by_cases absent : Refused packet 4
  · refine iff_of_true ?_ (.inl absent)
    simp only [FieldOp.Atomic, PacketBase.readBinary, readInt_refused order absent]
    exact fun _ => rfl
  · obtain ⟨moved, bytes, settled⟩ := readInt_passed order absent
    generalize counted : packet.readInt order = field at moved bytes settled
    obtain ⟨len, after⟩ := field
    rw [readBinary_counted counted moved bytes settled held]
    simp only [FieldOp.Clean, counted, absent, false_or]

end Held

theorem int_range (value : Int) : -2 ^ 31 ≤ int value ∧ int value < 2 ^ 31 := by
  simp only [int, Int.bmod]
  omega

namespace Held

theorem start (order : Order) (command : Int16) (version subVersion : UInt8) (packet : PacketBase) :
    Held (packet.start order command version subVersion) := by
  have cursor : -2 ^ 31 ≤ headerSize ∧ headerSize < 2 ^ 31 := by decide
  rw [Open.start_eq]
  exact ⟨(by decide : 0 ≤ headerSize), (by decide : headerSize ≤ bufferSize), cursor.1, cursor.2⟩

theorem reset (packet : PacketBase) : Held packet.reset := by
  have cursor : -2 ^ 31 ≤ headerSize ∧ headerSize < 2 ^ 31 := by decide
  exact ⟨(by decide : 0 ≤ headerSize), (by decide : headerSize ≤ bufferSize), cursor.1, cursor.2⟩

theorem copied (packet : PacketBase) {data : List UInt8} (fits : data.length ≤ 8192) : Held (packet.copy data).2 := by
  have inBuffer : ¬ bufferSize < (data.length : Int) := by
    simp only [bufferSize]
    omega
  have cleared := Held.reset packet
  rw [PacketBase.copy, if_neg inBuffer]
  exact ⟨Int.natCast_nonneg _, Int.not_lt.mp inBuffer, cleared.low, cleared.high⟩

theorem write (held : Held packet) {data : List UInt8} (defined : data.length + 8192 < 2 ^ 31) :
    Held (packet.write data).2 := by
  have positive := held.positive
  rw [write_sized positive held.small defined]
  split_ifs with fits
  · refine ⟨?_, fits, held.low, held.high⟩
    change 0 ≤ packet.packetSize + data.length
    omega
  · exact held

theorem writeZero (held : Held packet) : Held packet.writeZero.2 := by
  have positive := held.positive
  rw [writeZero_sized positive held.small]
  split_ifs with fits
  · refine ⟨?_, fits, held.low, held.high⟩
    change 0 ≤ packet.packetSize + 1
    omega
  · exact held

theorem insert (held : Held packet) {data : List UInt8} (defined : data.length + 8192 < 2 ^ 31) :
    Held (packet.insert order data).2 := by
  have positive := held.positive
  have small := held.small
  simp only [bufferSize] at small
  have sum : int (packet.packetSize + data.length) = packet.packetSize + data.length := int_eq (by omega) (by omega)
  simp only [PacketBase.insert, Int.add_comm (data.length : Int), sum, finish_eq]
  split_ifs with large
  · exact held
  · refine ⟨?_, Int.not_lt.mp large, held.low, held.high⟩
    change 0 ≤ packet.packetSize + data.length
    omega

theorem run (held : Held packet) (op : Write) (defined : op.Defined) : Held (op.run order packet).2 := by
  cases op with
  | uLong value => cases order <;> exact held.write (by simp)
  | int value | byte value | short value => exact held.write (by simp)
  | string text =>
    have sized : Held (packet.writeInt order (Int32.ofInt (text.length + 1))).2 := held.write (by simp)
    have written := sized.write defined
    simp only [Write.run, PacketBase.writeString]
    split
    · exact sized.writeZero
    · generalize (packet.writeInt order (Int32.ofInt (text.length + 1))).2.write text = outcome at written ⊢
      obtain ⟨done, after⟩ := outcome
      cases done with
      | false => exact written
      | true => exact written.writeZero
  | binary block => exact (held.write (by simp)).write defined
  | insertInt value | insertByte value => exact held.insert (by simp)

theorem read (held : Held packet) (len room : Int) : Held (packet.read len room).2 := by
  rw [PacketBase.read]
  split_ifs
  · exact held
  · exact ⟨held.positive, held.small, (int_range _).1, (int_range _).2⟩

theorem readUndo (held : Held packet) (len : Int) : Held (packet.readUndo len) :=
  ⟨held.positive, held.small, (int_range _).1, (int_range _).2⟩

theorem readPoint (held : Held packet) (len : Int) : Held (packet.readPoint len).2 := by
  rw [PacketBase.readPoint]
  split_ifs
  · exact held
  · exact ⟨held.positive, held.small, (int_range _).1, (int_range _).2⟩

theorem readRun (held : Held packet) (op : Read) : Held (op.run order packet) := by
  have counted : Held (packet.readInt order).2 := by
    have read := held.read 4 4
    rw [PacketBase.readInt]
    split <;> simp_all
  have pointed : Held (packet.readChar order).2 := by
    simp only [PacketBase.readChar]
    split_ifs
    · exact counted
    · exact counted.readPoint _
  cases op with
  | int => exact counted
  | short =>
    have read := held.read 2 2
    simp only [Read.run, PacketBase.readShort]
    split <;> simp_all
  | byte =>
    have read := held.read 1 1
    simp only [Read.run, PacketBase.readByte]
    split <;> simp_all
  | uLong =>
    have read := held.read 8 8
    simp only [Read.run, PacketBase.readULong]
    split <;> simp_all
  | string maxLen =>
    simp only [Read.run, PacketBase.readString]
    split_ifs
    · exact counted
    · exact counted.readUndo 2
    · exact counted.read _ maxLen
  | char => exact pointed
  | stdString =>
    simp only [Read.run, PacketBase.readStdString]
    split <;> simp_all
  | binary maxLen =>
    have read := counted.read (packet.readInt order).1.toInt maxLen
    simp only [Read.run, PacketBase.readBinary]
    split_ifs
    · exact counted
    · exact counted.readUndo 4
    · split <;> simp_all

end Held

/-- A packet in use: it was set up, and then written and read in any order. -/
inductive InUse (order : Order) : PacketBase → Prop where
  | started (command : Int16) (version subVersion : UInt8) (packet : PacketBase) :
      InUse order (packet.start order command version subVersion)
  | reset (packet : PacketBase) : InUse order packet.reset
  | copied (packet : PacketBase) {data : List UInt8} (fits : data.length ≤ 8192) : InUse order (packet.copy data).2
  | written {packet : PacketBase} (used : InUse order packet) {op : Write} (defined : op.Defined) :
      InUse order (op.run order packet).2
  | read {packet : PacketBase} (used : InUse order packet) (op : Read) : InUse order (op.run order packet)

theorem InUse.held (used : InUse order packet) : Held packet := by
  induction used with
  | started command version subVersion packet => exact .start order command version subVersion packet
  | reset packet => exact .reset packet
  | copied packet fits => exact .copied packet fits
  | written _ defined ih => exact ih.run _ defined
  | read _ op ih => exact ih.readRun op

/-- An operation is atomic exactly where none of its parts is left behind. -/
theorem atomic_iff (held : Held packet) (op : FieldOp) (defined : op.Defined) :
    op.Atomic order packet ↔ op.Clean order packet := by
  cases op with
  | writeString text => exact held.writeString_atomic_iff defined
  | writeBinary block => exact held.writeBinary_atomic_iff defined
  | readString maxLen => exact held.readString_atomic_iff maxLen
  | readBinary maxLen => exact held.readBinary_atomic_iff maxLen

/-- A block of five bytes, and a cursor in front of its length. -/
def fiveBytes : PacketBase := (fresh.copy [0, 16, 66, 89, 1, 1, 0, 1, 0, 0, 0, 0, 5, 1, 2, 3, 4, 5]).2

theorem fiveBytes_held : Held fiveBytes := @InUse.held .network _ (.copied fresh (by decide))

theorem atomic_iff_fiveBytes :
    (FieldOp.readString 4).Atomic .network fiveBytes ↔ (FieldOp.readString 4).Clean .network fiveBytes :=
  atomic_iff fiveBytes_held (.readString 4) trivial

/-- The last two of the five bytes are cut off. -/
def cutBlock : PacketBase := (fresh.copy [0, 14, 66, 89, 1, 1, 0, 1, 0, 0, 0, 0, 5, 1, 2, 3]).2

/-- There are five bytes left. -/
def nearlyFull : PacketBase := { fresh.start .network 1 1 1 with packetSize := 8187 }

/-- Of a string and of a block the length stays behind, `ReadString` gives two bytes back
of the four of a length that is too large, and `ReadBinary` none for a block that is cut off. -/
theorem failed_operations_leave_parts :
    ¬ (FieldOp.writeString [65, 66]).Atomic .network nearlyFull ∧
      ¬ (FieldOp.writeBinary [65, 66]).Atomic .network nearlyFull ∧
        ¬ (FieldOp.readString 4).Atomic .network fiveBytes ∧ ¬ (FieldOp.readBinary 10).Atomic .network cutBlock := by
  refine ⟨fun atomic => ?_, fun atomic => ?_, fun atomic => ?_, fun atomic => ?_⟩
  · exact absurd (atomic (by decide)).1 (by decide)
  · exact absurd (atomic (by decide)).1 (by decide)
  · exact absurd (atomic (by decide)) (by decide)
  · refine absurd (atomic fun delivered => ?_) (by decide)
    exact absurd (congrArg Prod.fst delivered.2) (by decide)

end TeenpattiUserServer.Packet
