import TeenpattiUserServer.Packet.InputPacket

/-! What the readers take from a packet that holds given bytes, wherever the cursor
is: the field there, or nothing, and then the cursor stays. -/

namespace TeenpattiUserServer.Packet

open Bytes

/-- The bytes of a field that lies inside the content. -/
def fieldAt (content : List UInt8) (pos width : Nat) : Option (List UInt8) :=
  if pos + width ≤ content.length then some ((content.drop pos).take width) else none

/-- The cursor behind a field, or where it was. -/
def behindField (content : List UInt8) (pos width : Nat) : Nat :=
  if pos + width ≤ content.length then pos + width else pos

def intAt (order : Order) (content : List UInt8) (pos : Nat) : Int32 :=
  (fieldAt content pos 4).elim (-1) (PacketBase.toInt order)

def shortAt (order : Order) (content : List UInt8) (pos : Nat) : Int16 :=
  (fieldAt content pos 2).elim (-1) (PacketBase.toShort order)

/-- The packet holds the content, and the cursor is here. -/
structure At (content : List UInt8) (packet : PacketBase) (pos : Nat) : Prop where
  size : packet.packetSize = content.length
  bytes : slice packet.strBuf 0 content.length = content
  small : content.length ≤ 8192
  cursor : packet.bufPos = pos
  near : pos ≤ 8192

variable {order : Order} {packet : PacketBase} {content : List UInt8} {pos : Nat}

/-- What is cut off reads as `-1`. -/
theorem shortAt_missing (order : Order) (short : content.length < pos + 2) : shortAt order content pos = -1 := by
  rw [shortAt, fieldAt, if_neg (by omega)]
  rfl

theorem intAt_missing (order : Order) (short : content.length < pos + 4) : intAt order content pos = -1 := by
  rw [intAt, fieldAt, if_neg (by omega)]
  rfl

/-- `_Read` where the sum with the cursor does not overflow. -/
theorem read_eq {len room : Int} (cursor : 0 ≤ packet.bufPos) (small : packet.packetSize ≤ bufferSize)
    (low : -2 ^ 31 ≤ len) (high : packet.bufPos + len < 2 ^ 31) :
    packet.read len room = if packet.packetSize < packet.bufPos + len then (none, packet)
      else (some (slice packet.strBuf packet.bufPos.toNat len.toNat), { packet with
        bufPos := packet.bufPos + len, copies := ⟨packet.bufPos, len, room⟩ :: packet.copies }) := by
  have sum : int (len + packet.bufPos) = packet.bufPos + len := by
    rw [int_eq (by omega) (by omega), Int.add_comm]
  have moved : int (packet.bufPos + len) = packet.bufPos + len := int_eq (by omega) (by omega)
  rw [PacketBase.read, sum, moved]
  by_cases long : packet.packetSize < packet.bufPos + len
  · simp [long]
  · have inBuffer : ¬ bufferSize < packet.bufPos + len := by omega
    simp [long, inBuffer]

namespace At

/-- A copy is read from behind the header. -/
theorem copied (small : content.length ≤ 8192) (receiver : PacketBase) : At content (receiver.copy content).2 9 := by
  have fits : ¬ bufferSize < (content.length : Int) := by
    simp only [bufferSize]
    omega
  simp only [PacketBase.copy, if_neg fits]
  exact ⟨rfl, slice_store .., small, rfl, by decide⟩

theorem packet_small (reads : At content packet pos) : packet.packetSize ≤ bufferSize := by
  have small := reads.small
  rw [reads.size, bufferSize]
  omega

/-- Any part of the content is in the buffer. -/
theorem slice_eq (reads : At content packet pos) {start len : Nat} (inside : start + len ≤ content.length) :
    slice packet.strBuf start len = (content.drop start).take len := by
  conv => rhs; rw [← reads.bytes, slice_drop _ _ (by omega), slice_take _ _ (by omega), Nat.zero_add]

/-- `_Read` takes the field at the cursor if it is there. -/
theorem read (reads : At content packet pos) (width : Nat) (room : Int) (few : width < 2 ^ 30) :
    ∃ after, packet.read width room = (fieldAt content pos width, after) ∧
      At content after (behindField content pos width) := by
  have small := reads.small
  have near := reads.near
  have cursor := reads.cursor
  rw [read_eq (by omega) reads.packet_small (by omega) (by omega), reads.size, cursor]
  by_cases inside : pos + width ≤ content.length
  · rw [if_neg (by omega), fieldAt, if_pos inside, behindField, if_pos inside, Int.toNat_natCast, Int.toNat_natCast,
      reads.slice_eq inside]
    exact ⟨_, rfl, rfl, reads.bytes, small, by simp, by omega⟩
  · rw [if_pos (by omega), fieldAt, if_neg inside, behindField, if_neg inside]
    exact ⟨_, rfl, reads⟩

theorem readInt (order : Order) (reads : At content packet pos) : ∃ after,
    packet.readInt order = (intAt order content pos, after) ∧ At content after (behindField content pos 4) := by
  obtain ⟨after, run, later⟩ := reads.read 4 4 (by decide)
  have run : packet.read 4 4 = _ := run
  refine ⟨after, ?_, later⟩
  rw [PacketBase.readInt, run, intAt]
  cases fieldAt content pos 4 <;> rfl

theorem readShort (order : Order) (reads : At content packet pos) : ∃ after,
    packet.readShort order = (shortAt order content pos, after) ∧ At content after (behindField content pos 2) := by
  obtain ⟨after, run, later⟩ := reads.read 2 2 (by decide)
  have run : packet.read 2 2 = _ := run
  refine ⟨after, ?_, later⟩
  rw [PacketBase.readShort, run, shortAt]
  cases fieldAt content pos 2 <;> rfl

/-- A block with a length in range is taken if it is there, and else it is an empty one. -/
theorem readBinary (reads : At content packet pos) {len : Nat} {maximum : Int} (room : len ≤ maximum)
    (few : len < 2 ^ 30) (counted : (intAt order content pos).toInt = len) :
    (packet.readBinary order maximum).1 =
      (fieldAt content (pos + 4) len).elim (0, []) fun block => ((len : Int), block) := by
  have present : intAt order content pos ≠ -1 := by
    intro minus
    rw [minus] at counted
    have negative : (-1 : Int32).toInt = -1 := rfl
    omega
  have inside : pos + 4 ≤ content.length := by
    by_contra outside
    exact present (intAt_missing order (by omega))
  obtain ⟨after, run, later⟩ := reads.readInt order
  rw [behindField, if_pos inside] at later
  obtain ⟨last, taken, _⟩ := later.read len maximum few
  simp only [PacketBase.readBinary, run, present, if_false, counted, Int.not_lt.mpr room, taken]
  cases fieldAt content (pos + 4) len <;> rfl

/-- A block with any other length is refused. -/
theorem readBinary_refused (reads : At content packet pos) {maximum : Int}
    (refused : ¬ (0 ≤ (intAt order content pos).toInt ∧ (intAt order content pos).toInt ≤ maximum)) :
    (packet.readBinary order maximum).1.1 < 0 := by
  obtain ⟨after, run, later⟩ := reads.readInt order
  simp only [PacketBase.readBinary, run]
  by_cases absent : intAt order content pos = -1
  · rw [if_pos absent]
    exact (by decide : (-1 : Int) < 0)
  · rw [if_neg absent]
    by_cases long : maximum < (intAt order content pos).toInt
    · rw [if_pos long]
      exact (by decide : (-1 : Int) < 0)
    · have inside : pos + 4 ≤ content.length := by
        by_contra outside
        exact absent (intAt_missing order (by omega))
      rw [behindField, if_pos inside] at later
      have low := (intAt order content pos).le_toInt
      have near := later.near
      have cursor := later.cursor
      rw [if_neg long, read_eq (by omega) later.packet_small (by omega) (by omega), later.size, if_neg (by omega)]
      dsimp only
      omega

end At

end TeenpattiUserServer.Packet
