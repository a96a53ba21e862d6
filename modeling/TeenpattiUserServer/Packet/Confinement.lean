import Mathlib.Data.List.Induction
import TeenpattiUserServer.Packet.Reading

/-! Where the readers of an input packet read. The cursor stays in the packet as
long as no reader meets a length field below `-1` or one that overflows the
cursor; a reader that meets one leaves the packet. -/

namespace TeenpattiUserServer.Packet

open Bytes PacketBase

/-- A read operation of an input packet. -/
inductive Read where
  | int
  | short
  | byte
  | uLong
  | string (maxLen : Int)
  | char
  | stdString
  | binary (maxLen : Int)

namespace Read

def run (order : Order) (op : Read) (packet : PacketBase) : PacketBase :=
  match op with
  | int => (packet.readInt order).2
  | short => (packet.readShort order).2
  | byte => packet.readByte.2
  | uLong => (packet.readULong order).2
  | string maxLen => (packet.readString order maxLen).2
  | char => (packet.readChar order).2
  | stdString => (packet.readStdString order).2
  | binary maxLen => (packet.readBinary order maxLen).2

/-- The length field at the cursor is one the reader handles: it is absent or
`-1`, or refused as too long, or neither negative nor overflowing the cursor. The
pointer readers accept any length that keeps the cursor behind the header. -/
def Safe (order : Order) (packet : PacketBase) : Read → Prop
  | string maxLen | binary maxLen =>
    let (len, after) := packet.readInt order
    len = -1 ∨ maxLen < len.toInt ∨ 0 ≤ len.toInt ∧ after.bufPos + len.toInt < 2 ^ 31
  | char | stdString =>
    let (len, after) := packet.readInt order
    len = -1 ∨ headerSize ≤ after.bufPos + len.toInt ∧ after.bufPos + len.toInt < 2 ^ 31
  | _ => True

end Read

/-- The copy fits its target and reads between the header and the end of the packet. -/
structure Copy.Inside (copy : Copy) (packetSize : Int) : Prop where
  nonnegative : 0 ≤ copy.length
  fits : copy.length ≤ copy.room
  afterHeader : headerSize ≤ copy.source
  beforeEnd : copy.source + copy.length ≤ packetSize

/-- The cursor and every copy so far are inside the packet. -/
structure Confined (packet : PacketBase) : Prop where
  afterHeader : headerSize ≤ packet.bufPos
  beforeEnd : packet.bufPos ≤ packet.packetSize
  copies : ∀ copy ∈ packet.copies, copy.Inside packet.packetSize

variable {order : Order} {packet : PacketBase}

private theorem Confined.cursor (confined : Confined packet) : 0 ≤ packet.bufPos :=
  Int.le_trans (by decide) confined.afterHeader

private theorem confined_read (confined : Confined packet) (small : packet.packetSize ≤ bufferSize)
    {len room : Int} (nonnegative : 0 ≤ len) (high : packet.bufPos + len < 2 ^ 31) (fits : len ≤ room) :
    Confined (packet.read len room).2 := by
  have start := confined.afterHeader
  rw [read_eq confined.cursor small (by omega) high]
  split
  · exact confined
  · refine ⟨?_, ?_, ?_⟩
    · change headerSize ≤ packet.bufPos + len
      omega
    · change packet.bufPos + len ≤ packet.packetSize
      omega
    · intro copy member
      rcases List.mem_cons.mp member with same | old
      · subst copy
        exact ⟨nonnegative, fits, start, by change packet.bufPos + len ≤ packet.packetSize; omega⟩
      · exact confined.copies copy old

/-- A read of a few bytes stays inside. -/
private theorem confined_read_few (confined : Confined packet) (small : packet.packetSize ≤ bufferSize)
    (len : Int) (nonnegative : 0 ≤ len) (few : len ≤ 8) : Confined (packet.read len len).2 := by
  have last := confined.beforeEnd
  simp only [bufferSize] at small
  exact confined_read confined (by simpa [bufferSize] using small) nonnegative (by omega) (Int.le_refl len)

private theorem readInt_snd (order : Order) (packet : PacketBase) :
    (packet.readInt order).2 = (packet.read 4 4).2 := by
  rw [readInt]
  split <;> simp_all

private theorem readULong_snd (order : Order) (packet : PacketBase) :
    (packet.readULong order).2 = (packet.read 8 8).2 := by
  unfold readULong
  split <;> simp_all

/-- A block that is not refused is copied inside the packet exactly when its
length is not negative and does not overflow the cursor. -/
private theorem confined_block_iff (confined : Confined packet) (small : packet.packetSize ≤ bufferSize)
    {len room : Int} (low : -2 ^ 31 ≤ len) (high : len < 2 ^ 31) (fits : len ≤ room) :
    Confined (packet.read len room).2 ↔ 0 ≤ len ∧ packet.bufPos + len < 2 ^ 31 := by
  refine ⟨fun after => ?_, fun safe => confined_read confined small safe.1 safe.2 fits⟩
  have first := confined.afterHeader
  have last := confined.beforeEnd
  simp only [headerSize, bufferSize] at first small
  by_cases overflow : packet.bufPos + len < 2 ^ 31
  · refine ⟨?_, overflow⟩
    have inside : ¬ packet.packetSize < packet.bufPos + len ∨ 0 ≤ len := by omega
    rcases inside with short | nonnegative
    · rw [read_eq confined.cursor (by simpa [bufferSize] using small) low overflow, if_neg short] at after
      exact (after.copies _ (List.mem_cons_self ..)).nonnegative
    · exact nonnegative
  · have wrapped : int (len + packet.bufPos) = len + packet.bufPos - 2 ^ 32 :=
      int_overflow (by omega) (by omega)
    have passes : ¬ (packet.packetSize < int (len + packet.bufPos) ∨ bufferSize < int (len + packet.bufPos)) := by
      rw [wrapped, bufferSize]
      omega
    rw [PacketBase.read, if_neg passes] at after
    have beyond := (after.copies _ (List.mem_cons_self ..)).beforeEnd
    change packet.bufPos + len ≤ packet.packetSize at beyond
    omega

/-- A pointer into the packet leaves the cursor inside exactly when the length
does not move it before the header or overflow it. -/
private theorem confined_point_iff (confined : Confined packet) (small : packet.packetSize ≤ bufferSize)
    {len : Int} (low : -2 ^ 31 ≤ len) (high : len < 2 ^ 31) :
    Confined (packet.readPoint len).2 ↔ headerSize ≤ packet.bufPos + len ∧ packet.bufPos + len < 2 ^ 31 := by
  have first := confined.afterHeader
  have last := confined.beforeEnd
  simp only [headerSize, bufferSize] at first small ⊢
  by_cases overflow : packet.bufPos + len < 2 ^ 31
  · have sum : int (len + packet.bufPos) = packet.bufPos + len := by
      rw [int_eq (by omega) (by omega), Int.add_comm]
    have moved : int (packet.bufPos + len) = packet.bufPos + len := int_eq (by omega) overflow
    rw [readPoint, sum, moved]
    by_cases long : packet.packetSize < packet.bufPos + len
    · rw [if_pos long]
      exact iff_of_true confined (by omega)
    · rw [if_neg long]
      refine ⟨fun after => ⟨after.afterHeader, overflow⟩, fun safe => ⟨safe.1, ?_, confined.copies⟩⟩
      change packet.bufPos + len ≤ packet.packetSize
      omega
  · have wrapped : int (len + packet.bufPos) = len + packet.bufPos - 2 ^ 32 :=
      int_overflow (by omega) (by omega)
    have moved : int (packet.bufPos + len) = packet.bufPos + len - 2 ^ 32 :=
      int_overflow (by omega) (by omega)
    rw [readPoint, wrapped, moved, if_neg (by omega)]
    refine iff_of_false (fun after => ?_) (by omega)
    have before := after.afterHeader
    change (9 : Int) ≤ packet.bufPos + len - 2 ^ 32 at before
    omega

/-- Reading a length field stays inside; the cursor moves unless the field is cut off. -/
private theorem readInt_confined (order : Order) (confined : Confined packet) (small : packet.packetSize ≤ bufferSize) :
    Confined (packet.readInt order).2 ∧ (packet.readInt order).2.packetSize = packet.packetSize ∧
      ((packet.readInt order).1 = -1 ∨ (packet.readInt order).2.bufPos = packet.bufPos + 4) := by
  have last := confined.beforeEnd
  have stays := confined_read_few confined small 4 (by decide) (by decide)
  simp only [bufferSize] at small
  rw [read_eq confined.cursor (by simpa [bufferSize] using small) (by decide) (by omega)] at stays
  rw [readInt, read_eq confined.cursor (by simpa [bufferSize] using small) (by decide) (by omega)]
  by_cases long : packet.packetSize < packet.bufPos + 4
  · rw [if_pos long] at stays ⊢
    exact ⟨stays, rfl, .inl rfl⟩
  · rw [if_neg long] at stays ⊢
    exact ⟨stays, rfl, .inr rfl⟩

private theorem confined_readUndo (confined : Confined packet) (small : packet.packetSize ≤ bufferSize)
    {len : Int} (nonnegative : 0 ≤ len) (behind : headerSize + len ≤ packet.bufPos) :
    Confined (packet.readUndo len) := by
  have last := confined.beforeEnd
  simp only [headerSize, bufferSize] at small behind
  have moved : int (packet.bufPos - len) = packet.bufPos - len := int_eq (by omega) (by omega)
  refine ⟨?_, ?_, confined.copies⟩
  · change headerSize ≤ int (packet.bufPos - len)
    rw [moved, headerSize]
    omega
  · change int (packet.bufPos - len) ≤ packet.packetSize
    omega

/-- Giving back no more than the length field just read stays inside. -/
private theorem confined_length_undo (confined : Confined packet) (small : packet.packetSize ≤ bufferSize)
    {after : PacketBase} (stays : Confined after) (size : after.packetSize = packet.packetSize)
    (behind : after.bufPos = packet.bufPos + 4) {len : Int} (nonnegative : 0 ≤ len) (within : len ≤ 4) :
    Confined (after.readUndo len) := by
  have first := confined.afterHeader
  refine confined_readUndo stays (size ▸ small) nonnegative ?_
  rw [behind]
  omega

private theorem string_confined_iff (confined : Confined packet) (small : packet.packetSize ≤ bufferSize)
    {maxLen : Int} : Confined (packet.readString order maxLen).2 ↔ (Read.string maxLen).Safe order packet := by
  obtain ⟨stays, size, moved⟩ := readInt_confined order confined small
  simp only [Read.Safe, readString]
  generalize packet.readInt order = field at stays size moved ⊢
  obtain ⟨len, after⟩ := field
  dsimp only at stays size moved ⊢
  by_cases absent : len = -1
  · simp [absent, stays]
  · by_cases long : maxLen < len.toInt
    · have behind := moved.resolve_left absent
      simp only [absent, long, if_true, if_false, true_or, or_true, iff_true]
      exact confined_length_undo confined small stays size behind (by decide) (by decide)
    · simp only [absent, long, if_false, false_or]
      exact confined_block_iff stays (size ▸ small) len.le_toInt len.toInt_lt (Int.not_lt.mp long)

private theorem binary_confined_iff (confined : Confined packet) (small : packet.packetSize ≤ bufferSize)
    {maxLen : Int} : Confined (packet.readBinary order maxLen).2 ↔ (Read.binary maxLen).Safe order packet := by
  obtain ⟨stays, size, moved⟩ := readInt_confined order confined small
  simp only [Read.Safe, readBinary]
  generalize packet.readInt order = field at stays size moved ⊢
  obtain ⟨len, after⟩ := field
  dsimp only at stays size moved ⊢
  by_cases absent : len = -1
  · simp [absent, stays]
  · by_cases long : maxLen < len.toInt
    · have behind := moved.resolve_left absent
      simp only [absent, long, if_true, if_false, true_or, or_true, iff_true]
      exact confined_length_undo confined small stays size behind (by decide) (by decide)
    · have block := confined_block_iff stays (size ▸ small) len.le_toInt len.toInt_lt (Int.not_lt.mp long)
      simp only [absent, long, if_false, false_or]
      generalize after.read len.toInt maxLen = outcome at block ⊢
      obtain ⟨data, done⟩ := outcome
      cases data <;> exact block

private theorem char_confined_iff (confined : Confined packet) (small : packet.packetSize ≤ bufferSize) :
    Confined (packet.readChar order).2 ↔ Read.char.Safe order packet := by
  obtain ⟨stays, size, _⟩ := readInt_confined order confined small
  simp only [Read.Safe, readChar]
  generalize packet.readInt order = field at stays size ⊢
  obtain ⟨len, after⟩ := field
  dsimp only at stays size ⊢
  by_cases absent : len = -1
  · simp [absent, stays]
  · simp only [absent, if_false, false_or]
    exact confined_point_iff stays (size ▸ small) len.le_toInt len.toInt_lt

private theorem readStdString_snd (order : Order) (packet : PacketBase) :
    (packet.readStdString order).2 = (packet.readChar order).2 := by
  rw [readStdString]
  split <;> simp_all

/-- One operation keeps everything inside exactly when it is safe. -/
theorem Read.confined_iff (op : Read) (confined : Confined packet)
    (small : packet.packetSize ≤ bufferSize) : Confined (op.run order packet) ↔ op.Safe order packet := by
  cases op with
  | int => exact iff_of_true (readInt_confined order confined small).1 trivial
  | short =>
    have stays := confined_read_few confined small 2 (by decide) (by decide)
    refine iff_of_true ?_ trivial
    rw [run, readShort]
    split <;> simp_all
  | byte =>
    have stays := confined_read_few confined small 1 (by decide) (by decide)
    refine iff_of_true ?_ trivial
    rw [run, readByte]
    split <;> simp_all
  | uLong =>
    have stays := confined_read_few confined small 8 (by decide) (by decide)
    refine iff_of_true ?_ trivial
    rw [run, readULong_snd]
    exact stays
  | string maxLen => exact string_confined_iff confined small
  | char => exact char_confined_iff confined small
  | stdString =>
    rw [run, readStdString_snd]
    exact char_confined_iff confined small
  | binary maxLen => exact binary_confined_iff confined small

/-- No reader changes the size of the packet. -/
theorem Read.packetSize_run (op : Read) (packet : PacketBase) :
    (op.run order packet).packetSize = packet.packetSize := by
  have read : ∀ (current : PacketBase) len room, (current.read len room).2.packetSize = current.packetSize := by
    intro current len room
    rw [PacketBase.read]
    split <;> rfl
  have point : ∀ (current : PacketBase) len, (current.readPoint len).2.packetSize = current.packetSize := by
    intro current len
    rw [readPoint]
    split <;> rfl
  have field : (packet.readInt order).2.packetSize = packet.packetSize := by rw [readInt_snd, read]
  cases op <;> simp only [run, readShort, readByte, readULong_snd, readString, readStdString_snd, readChar, readBinary]
    <;> grind [readUndo]

/-- The packet after a sequence of read operations. -/
def runReads (order : Order) (ops : List Read) (packet : PacketBase) : PacketBase :=
  ops.foldl (fun current op => op.run order current) packet

theorem runReads_append (ops : List Read) (op : Read) (packet : PacketBase) :
    runReads order (ops ++ [op]) packet = op.run order (runReads order ops packet) := by
  simp [runReads]

theorem packetSize_runReads (ops : List Read) (packet : PacketBase) :
    (runReads order ops packet).packetSize = packet.packetSize := by
  induction ops using List.reverseRecOn with
  | nil => rfl
  | append_singleton ops op ih => rw [runReads_append, Read.packetSize_run, ih]

/-- A sequence of reads stays inside the packet exactly when each of its
operations is safe in the state before it. -/
theorem reads_confined_iff (order : Order) (packet : PacketBase) (confined : Confined packet)
    (small : packet.packetSize ≤ bufferSize) (ops : List Read) :
    (∀ done, done <+: ops → Confined (runReads order done packet)) ↔
      ∀ done op, done ++ [op] <+: ops → op.Safe order (runReads order done packet) := by
  have fits : ∀ done, (runReads order done packet).packetSize ≤ bufferSize := fun done => by
    rw [packetSize_runReads]
    exact small
  constructor
  · intro inside done op part
    have before := inside done ((List.prefix_append done [op]).trans part)
    have after := inside _ part
    rw [runReads_append] at after
    exact (op.confined_iff before (fits done)).mp after
  · intro safe done
    induction done using List.reverseRecOn with
    | nil => exact fun _ => confined
    | append_singleton done op ih =>
      intro part
      have before := ih ((List.prefix_append done [op]).trans part)
      rw [runReads_append]
      exact (op.confined_iff before (fits done)).mpr (safe done op part)

/-- A packet whose body is the length field -2. -/
def negativeBlock : PacketBase :=
  ((⟨fun _ => 0, 9, 9, []⟩ : PacketBase).copy [0, 11, 66, 89, 1, 1, 0, 1, 0, 255, 255, 255, 254]).2

theorem negativeBlock_confined : Confined negativeBlock := ⟨by decide, by decide, fun _ none => nomatch none⟩

theorem reads_confined_iff_negativeBlock :
    (∀ done, done <+: [Read.int] → Confined (runReads .network done negativeBlock)) ↔
      ∀ done op, done ++ [op] <+: [Read.int] → op.Safe .network (runReads .network done negativeBlock) :=
  reads_confined_iff .network negativeBlock negativeBlock_confined (by decide) [.int]

/-- `ReadBinary` with a buffer of 10240 bytes copies `-2` bytes. -/
theorem negativeBlock_leaves : headerSize ≤ negativeBlock.packetSize ∧ negativeBlock.packetSize ≤ bufferSize ∧
    ¬ Confined (runReads .network [.binary 10240] negativeBlock) := by
  refine ⟨by decide, by decide, fun confined => ?_⟩
  have copied : (⟨13, -2, 10240⟩ : Copy) ∈ (runReads .network [.binary 10240] negativeBlock).copies := by decide
  exact absurd (confined.copies _ copied).nonnegative (by decide)

end TeenpattiUserServer.Packet
