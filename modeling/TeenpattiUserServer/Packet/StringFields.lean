import Mathlib.Data.List.TakeWhile
import TeenpattiUserServer.Packet.Reading

/-! Which bytes the string of a string field depends on: `ReadString()` looks for a zero
byte and does not look at the length it has read. -/

namespace TeenpattiUserServer.Packet

open Bytes

/-- A copy of the content, read up to here. -/
def readerAt (receiver : PacketBase) (content : List UInt8) (pos : Nat) : PacketBase :=
  { (receiver.copy content).2 with bufPos := pos }

/-- A string field of so many bytes, inside the content. -/
structure StringField (order : Order) (content : List UInt8) (pos len : Nat) : Prop where
  declared : (intAt order content pos).toInt = len
  inside : pos + 4 + len ≤ content.length
  small : content.length ≤ 8192

/-- Whatever surrounds the length and the bytes of the field, the string is the same,
and not longer than the field. -/
def StringConfined (order : Order) (content : List UInt8) (pos len : Nat) : Prop :=
  ∀ other receiver another, StringField order other pos len →
    (other.drop pos).take (4 + len) = (content.drop pos).take (4 + len) →
      ((readerAt receiver other pos).readStdString order).1 = ((readerAt another content pos).readStdString order).1 ∧
        ((readerAt receiver other pos).readStdString order).1.length ≤ len

variable {order : Order} {packet : PacketBase} {content : List UInt8} {pos len : Nat}

theorem At.readerAt (small : content.length ≤ 8192) (near : pos ≤ 8192) (receiver : PacketBase) :
    At content (readerAt receiver content pos) pos := by
  have copied := At.copied small receiver
  exact ⟨copied.size, copied.bytes, small, rfl, near⟩

/-- The string begins behind the length. -/
private theorem readStdString_eq (reads : At content packet pos) (field : StringField order content pos len) :
    ∃ after, At content after (pos + 4) ∧ (packet.readStdString order).1 = after.cString (pos + 4) := by
  have declared := field.declared
  have inside := field.inside
  have small := field.small
  have present : intAt order content pos ≠ -1 := by
    intro minus
    rw [minus] at declared
    have negative : (-1 : Int32).toInt = -1 := rfl
    omega
  obtain ⟨after, run, later⟩ := reads.readInt order
  rw [behindField, if_pos (by omega)] at later
  have size := later.size
  have cursor := later.cursor
  have sum : int ((len : Int) + after.bufPos) = len + after.bufPos := int_eq (by omega) (by omega)
  have start : after.bufPos.toNat = pos + 4 := by omega
  simp only [PacketBase.readStdString, PacketBase.readChar, run, present, if_false, declared, PacketBase.readPoint, sum]
  rw [if_neg (by omega)]
  simp only [start]
  exact ⟨_, ⟨later.size, later.bytes, small, cursor, later.near⟩, rfl⟩

/-- The scan sees a part of the content first. -/
private theorem cString_part (reads : At content packet pos) {start : Nat} (inside : start + len ≤ content.length) :
    packet.cString start = ((content.drop start).take len ++
      slice packet.byteAt (start + len) (8196 - (start + len))).takeWhile (· ≠ 0) := by
  have small := reads.small
  have split : 8196 - start = len + (8196 - (start + len)) := by omega
  have inBuffer : slice packet.byteAt start len = slice packet.strBuf start len :=
    slice_congr fun i _ bound => if_pos (by omega)
  rw [PacketBase.cString, split, slice_append, inBuffer, reads.slice_eq inside]

/-- A zero byte in the field ends the string. -/
private theorem cString_ended (reads : At content packet pos) {start : Nat} (inside : start + len ≤ content.length)
    (ended : 0 ∈ (content.drop start).take len) :
    packet.cString start = ((content.drop start).take len).takeWhile (· ≠ 0) := by
  rw [cString_part reads inside, List.takeWhile_append, if_neg]
  intro whole
  have all := List.takeWhile_eq_self_iff.mp ((List.takeWhile_sublist _).eq_of_length whole)
  simpa using all 0 ended

/-- Behind the last byte of the buffer lies the size of a full packet, which begins with a zero byte. -/
private theorem cString_full (reads : At content packet pos) {start : Nat} (inside : start + len ≤ content.length)
    (full : start + len = 8192) :
    packet.cString start = ((content.drop start).take len).takeWhile (· ≠ 0) := by
  have small := reads.small
  have size : packet.packetSize = 8192 := by
    have held := reads.size
    omega
  have ends : packet.byteAt 8192 = 0 := by
    rw [PacketBase.byteAt, if_neg (Nat.lt_irrefl _), size]
    decide
  have rest : slice packet.byteAt 8192 (8196 - 8192) = 0 :: slice packet.byteAt 8193 3 := by
    have front : slice packet.byteAt 8192 1 = [packet.byteAt 8192] := rfl
    rw [← ends, ← List.singleton_append, ← front]
    exact slice_append packet.byteAt 8192 1 3
  rw [cString_part reads inside, full, rest, List.takeWhile_append]
  split_ifs with whole
  · have all := (List.takeWhile_sublist _).eq_of_length whole
    rw [all]
    simp
  · rfl

/-- Where no zero byte is in the field, one behind it is in the string. -/
private theorem cString_beyond (reads : At content packet pos) {start : Nat} (inside : start + len + 1 ≤ content.length)
    (unended : ∀ byte ∈ (content.drop start).take (len + 1), byte ≠ 0) : len < (packet.cString start).length := by
  have length : ((content.drop start).take (len + 1)).length = len + 1 := by
    rw [List.length_take, List.length_drop]
    omega
  have string := @cString_part packet content pos (len + 1) reads start (by omega)
  rw [string, List.takeWhile_append_of_pos (by simpa using unended), List.length_append]
  omega

/-- The bytes of the field, and those of its length, are among those that agree. -/
private theorem agree_parts {other : List UInt8}
    (agree : (other.drop pos).take (4 + len) = (content.drop pos).take (4 + len)) :
    (other.drop (pos + 4)).take len = (content.drop (pos + 4)).take len ∧
      (other.drop pos).take 4 = (content.drop pos).take 4 := by
  constructor
  · have behind := congrArg (List.drop 4) agree
    rwa [List.drop_take, List.drop_take, List.drop_drop, List.drop_drop, Nat.add_sub_cancel_left] at behind
  · have front := congrArg (List.take 4) agree
    rwa [List.take_take, List.take_take, Nat.min_eq_left (by omega)] at front

/-- The string of a field that a zero byte or the end of the buffer ends. -/
private theorem string_ended (receiver : PacketBase) (field : StringField order content pos len)
    (ended : 0 ∈ (content.drop (pos + 4)).take len ∨ pos + 4 + len = 8192) :
    ((readerAt receiver content pos).readStdString order).1 =
      ((content.drop (pos + 4)).take len).takeWhile (· ≠ 0) := by
  have inside := field.inside
  have small := field.small
  obtain ⟨after, reads, string⟩ := readStdString_eq (At.readerAt small (by omega) receiver) field
  rw [string]
  rcases ended with zero | full
  · exact cString_ended reads inside zero
  · exact cString_full reads inside full

/-- A string is confined to its field exactly when a zero byte in it, or the end of the
buffer, ends the string. -/
theorem scanned_string_confined_iff (field : StringField order content pos len) :
    StringConfined order content pos len ↔ 0 ∈ (content.drop (pos + 4)).take len ∨ pos + 4 + len = 8192 := by
  have inside := field.inside
  have small := field.small
  constructor
  · intro confined
    by_contra unended
    rw [not_or] at unended
    let other := content.take (pos + 4 + len) ++ [1]
    have length : other.length = pos + 4 + len + 1 := by
      simp only [other, List.length_append, List.length_take, List.length_singleton]
      omega
    have agree : (other.drop pos).take (4 + len) = (content.drop pos).take (4 + len) := by
      have front : other.take (pos + 4 + len) = content.take (pos + 4 + len) := by
        rw [List.take_left' (by rw [List.length_take]; omega)]
      have whole : pos + 4 + len = pos + (4 + len) := by omega
      rw [whole] at front
      have behind := congrArg (List.drop pos) front
      rwa [List.drop_take, List.drop_take, Nat.add_sub_cancel_left] at behind
    obtain ⟨same, counted⟩ := agree_parts agree
    have otherField : StringField order other pos len := by
      refine ⟨?_, by omega, by omega⟩
      rw [← field.declared, intAt, intAt, fieldAt, fieldAt, if_pos (by omega), if_pos (by omega), counted]
    have short := (confined other fresh fresh otherField agree).2
    obtain ⟨after, reads, string⟩ := readStdString_eq (At.readerAt otherField.small (by omega) fresh) otherField
    have last : (other.drop (pos + 4)).take (len + 1) = (content.drop (pos + 4)).take len ++ [1] := by
      have all : other.drop (pos + 4) = (content.take (pos + 4 + len)).drop (pos + 4) ++ [1] :=
        List.drop_append_of_le_length (by rw [List.length_take]; omega)
      rw [all, List.drop_take, Nat.add_sub_cancel_left, List.take_of_length_le]
      simp only [List.length_append, List.length_take, List.length_singleton]
      omega
    have long : len < (after.cString (pos + 4)).length := cString_beyond reads (by omega) fun byte member => by
      rw [last] at member
      rcases List.mem_append.mp member with early | one
      · exact fun zero => unended.1 (zero ▸ early)
      · rw [List.mem_singleton.mp one]
        decide
    rw [string] at short
    omega
  · intro ended other receiver another otherField agree
    have same := (agree_parts agree).1
    rw [string_ended another field ended, string_ended receiver otherField (same ▸ ended), same]
    refine ⟨rfl, ?_⟩
    have part := (List.takeWhile_sublist (fun byte : UInt8 => decide (byte ≠ 0))
      (l := (content.drop (pos + 4)).take len)).length_le
    exact part.trans (List.length_take_le ..)

/-- A field of one byte without a zero, and a byte behind it. -/
def unended : List UInt8 := [0, 13, 66, 89, 1, 1, 0, 1, 0, 0, 0, 0, 1, 65, 66]

theorem unended_field : StringField .network unended 9 1 := ⟨by decide, by decide, by decide⟩

theorem scanned_string_confined_iff_unended : StringConfined .network unended 9 1 ↔
    0 ∈ (unended.drop (9 + 4)).take 1 ∨ 9 + 4 + 1 = 8192 :=
  scanned_string_confined_iff unended_field

/-- The string of one byte is read as one of two. -/
theorem string_leaves_field : ((readerAt fresh unended 9).readStdString .network).1 = [65, 66] ∧
    ¬ StringConfined .network unended 9 1 := by
  have read : ((readerAt fresh unended 9).readStdString .network).1 = [65, 66] := by decide +kernel
  refine ⟨read, fun confined => ?_⟩
  have short := (confined unended fresh fresh unended_field rfl).2
  rw [read] at short
  exact absurd short (by decide)

end TeenpattiUserServer.Packet
