import TeenpattiUserServer.Packet.RoundTrip

/-! Numbers written without a look at what the writers return: a number that finds
no room is left out, the ones behind it move up, and its reader answers `-1`. -/

namespace TeenpattiUserServer.Packet

open Bytes

/-- The packet size after a number of this width. -/
def advance (size width : Nat) : Nat := if size + width ≤ 8192 then size + width else size

/-- The numbers that find room. -/
def kept : Nat → List Field → List Field
  | _, [] => []
  | size, field :: fields =>
    if size + field.size ≤ 8192 then field :: kept (size + field.size) fields else kept size fields

/-- The packet size behind the numbers. -/
def filled : Nat → List Field → Nat
  | size, [] => size
  | size, field :: fields => filled (advance size field.size) fields

namespace Field

/-- A number that is written without a length in front. -/
def IsNumber : Field → Prop
  | int _ | short _ => True
  | _ => False

/-- What a reader answers where the number is not there. -/
def missing : Field → Field
  | int _ => .int (-1)
  | short _ => .short (-1)
  | field => field

end Field

/-- What the readers answer. -/
def received : Nat → List Field → List Field
  | _, [] => []
  | size, field :: fields =>
    (if size + field.size ≤ 8192 then field else field.missing) :: received (advance size field.size) fields

/-- Every number that finds no room is `-1`. -/
def Spared : Nat → List Field → Prop
  | _, [] => True
  | size, field :: fields =>
    (size + field.size ≤ 8192 ∨ field = field.missing) ∧ Spared (advance size field.size) fields

variable {order : Order} {packet reader : PacketBase} {size : Nat} {field : Field} {fields rest : List Field}

theorem received_eq_iff (size : Nat) (fields : List Field) : received size fields = fields ↔ Spared size fields := by
  induction fields generalizing size with
  | nil => exact iff_of_true rfl trivial
  | cons field fields ih =>
    simp only [received, Spared, List.cons.injEq, ih]
    refine and_congr_left fun _ => ?_
    split_ifs with fits
    · exact iff_of_true rfl (.inl fits)
    · exact ⟨fun same => .inr same.symm, fun spared => (spared.resolve_left fits).symm⟩

theorem spared_append (size : Nat) (fields rest : List Field) :
    Spared size (fields ++ rest) ↔ Spared size fields ∧ Spared (filled size fields) rest := by
  induction fields generalizing size with
  | nil => simp [Spared, filled]
  | cons field fields ih => simp only [List.cons_append, Spared, filled, ih, and_assoc]

/-- Numbers that fit into the buffer all find room. -/
theorem spared_of_fits (fits : size + (fields.map Field.size).sum ≤ 8192) : Spared size fields := by
  induction fields generalizing size with
  | nil => trivial
  | cons field fields ih =>
    simp only [List.map_cons, List.sum_cons] at fits
    have here : size + field.size ≤ 8192 := by omega
    refine ⟨.inl here, ih ?_⟩
    rw [advance, if_pos here]
    omega

/-- Numbers that fit into the buffer are all kept. -/
theorem kept_of_fits (fits : size + (fields.map Field.size).sum ≤ 8192) :
    kept size fields = fields ∧ filled size fields = size + (fields.map Field.size).sum := by
  induction fields generalizing size with
  | nil => exact ⟨rfl, rfl⟩
  | cons field fields ih =>
    simp only [List.map_cons, List.sum_cons] at fits ⊢
    have here : size + field.size ≤ 8192 := by omega
    have rest : size + field.size + (fields.map Field.size).sum ≤ 8192 := by omega
    obtain ⟨same, last⟩ := ih rest
    rw [kept, if_pos here, same, filled, advance, if_pos here, last]
    exact ⟨rfl, Nat.add_assoc ..⟩

theorem Field.IsNumber.few (number : field.IsNumber) : field.size ≤ 4 := by
  cases field <;> simp [Field.IsNumber, Field.size] at number ⊢

private theorem le_filled (size : Nat) (fields : List Field) : size ≤ filled size fields := by
  induction fields generalizing size with
  | nil => exact Nat.le_refl size
  | cons field fields ih =>
    refine Nat.le_trans ?_ (ih (advance size field.size))
    rw [advance]
    split_ifs <;> omega

/-- Where numbers are left out, the buffer is as good as full. -/
theorem filled_of_numbers (numbers : ∀ field ∈ fields, field.IsNumber) :
    size + (fields.map Field.size).sum ≤ filled size fields ∨ 8189 ≤ filled size fields := by
  induction fields generalizing size with
  | nil => exact .inl (Nat.le_refl size)
  | cons field fields ih =>
    have few := (numbers field (by simp)).few
    simp only [List.map_cons, List.sum_cons, filled]
    by_cases fits : size + field.size ≤ 8192
    · have later := @ih (size + field.size) fun other member => numbers other (by simp [member])
      rw [advance, if_pos fits]
      omega
    · have grown := le_filled size fields
      rw [advance, if_neg fits]
      omega

/-- Where a last integer finds room, or would be missed, all numbers have found room. -/
theorem fits_of_spared {value : Int32} (numbers : ∀ field ∈ fields, field.IsNumber) (real : value ≠ -1)
    (spared : Spared size (fields ++ [.int value])) : size + (fields.map Field.size).sum + 4 ≤ 8192 := by
  induction fields generalizing size with
  | nil =>
    rcases spared.1 with fits | same
    · simpa [Field.size] using fits
    · exact absurd (Field.int.inj same) real
  | cons field fields ih =>
    have later := ih (fun other member => numbers other (by simp [member])) spared.2
    have few := (numbers field (by simp)).few
    simp only [List.map_cons, List.sum_cons]
    rw [advance] at later
    split_ifs at later <;> omega

/-- A number is appended where it fits. -/
theorem Field.number_run (opened : Open packet) (number : field.IsNumber) :
    (field.write.run order packet).2 =
      if packet.packetSize + field.size ≤ 8192 then packet.appended (field.bytes order) else packet := by
  have appends : ∀ (data : List UInt8) (width : Nat), data.length = width → width < 5 → (packet.write data).2 =
      if packet.packetSize + width ≤ 8192 then packet.appended data else packet := by
    rintro data width rfl few
    rw [opened.write_eq (by omega)]
    split_ifs <;> rfl
  cases field with
  | int value => exact appends _ 4 (PacketBase.intBytes_length order value) (by decide)
  | short value => exact appends _ 2 (PacketBase.shortBytes_length order value) (by decide)
  | byte value => cases number
  | string text => cases number
  | binary block => cases number

theorem kept_length (bound : size ≤ 8192) :
    size + ((kept size fields).flatMap (Field.bytes order)).length = filled size fields ∧
      filled size fields ≤ 8192 := by
  induction fields generalizing size with
  | nil => exact ⟨rfl, bound⟩
  | cons field fields ih =>
    simp only [kept, filled, advance]
    split_ifs with fits
    · obtain ⟨length, last⟩ := ih fits
      refine ⟨?_, last⟩
      rw [List.flatMap_cons, List.length_append, Field.bytes_length, ← length]
      omega
    · exact ih bound

/-- The writes append the numbers that find room. -/
theorem writes_kept (opened : Open packet) (numbers : ∀ field ∈ fields, field.IsNumber) :
    fields.foldl (fun current field => (field.write.run order current).2) packet =
      packet.appended ((kept packet.packetSize.toNat fields).flatMap (Field.bytes order)) := by
  induction fields generalizing packet with
  | nil => simp [kept, appended_nil]
  | cons field fields ih =>
    have positive := opened.size_nonneg
    have others : ∀ other ∈ fields, other.IsNumber := fun other member => numbers other (by simp [member])
    rw [List.foldl_cons, Field.number_run opened (numbers field (by simp)), kept]
    by_cases fits : packet.packetSize + field.size ≤ 8192
    · have filled : Open (packet.appended (field.bytes order)) :=
        opened.appended (by rw [Field.bytes_length]; exact fits)
      have size : (packet.appended (field.bytes order)).packetSize.toNat = packet.packetSize.toNat + field.size := by
        simp only [PacketBase.appended, Field.bytes_length]
        omega
      rw [if_pos fits, if_pos (by omega), ih filled others, size, List.flatMap_cons, opened.appended_append]
    · rw [if_neg fits, if_neg (by omega), ih opened others]

/-- The reader's cursor is where the writer was, and what was written from there on
lies ahead. -/
structure Synced (order : Order) (size : Nat) (fields : List Field) (reader : PacketBase) : Prop where
  ahead : Ahead reader ((kept size fields).flatMap (Field.bytes order))
  position : reader.bufPos = size

namespace Synced

/-- Where a number found room, its bytes are next. -/
private theorem next (synced : Synced order size (field :: fields) reader) (fits : size + field.size ≤ 8192) :
    Ahead reader (field.bytes order ++ (kept (size + field.size) fields).flatMap (Field.bytes order)) := by
  have ahead := synced.ahead
  rwa [kept, if_pos fits, List.flatMap_cons] at ahead

private theorem moved {width : Nat} {after : PacketBase} (synced : Synced order size (field :: fields) reader)
    (fits : size + width ≤ 8192) (moved : Moved reader after width)
    (ahead : Ahead after ((kept (size + width) fields).flatMap (Field.bytes order))) :
    Synced order (advance size width) fields after := by
  rw [advance, if_pos fits]
  refine ⟨ahead, ?_⟩
  rw [moved.bufPos, synced.position]
  rfl

/-- Where a number was left out, its read fails and nothing moves. -/
private theorem skipped (synced : Synced order size (field :: fields) reader) (few : field.size ≤ 4)
    (left : ¬ size + field.size ≤ 8192) : reader.read field.size field.size = (none, reader) ∧
      Synced order (advance size field.size) fields reader := by
  have position := synced.position
  have ahead := synced.ahead
  have inside := ahead.inside
  have small := ahead.small
  simp only [bufferSize] at small
  rw [kept, if_neg left] at ahead
  rw [advance, if_neg left]
  exact ⟨Ahead.read_short (by omega) (by omega) (by omega) (by omega) (by omega), ahead, position⟩

theorem readInt {value : Int32} (synced : Synced order size (.int value :: fields) reader) :
    ∃ after, reader.readInt order = (if size + 4 ≤ 8192 then value else -1, after) ∧
      Synced order (advance size 4) fields after := by
  by_cases fits : size + 4 ≤ 8192
  · obtain ⟨after, taken, step, further⟩ := Ahead.readInt (synced.next fits)
    exact ⟨after, by rw [taken, if_pos fits], synced.moved fits step further⟩
  · obtain ⟨short, further⟩ := synced.skipped (by simp [Field.size]) fits
    have failed : reader.read 4 4 = (none, reader) := short
    exact ⟨reader, by rw [if_neg fits, PacketBase.readInt, failed], further⟩

theorem readShort {value : Int16} (synced : Synced order size (.short value :: fields) reader) :
    ∃ after, reader.readShort order = (if size + 2 ≤ 8192 then value else -1, after) ∧
      Synced order (advance size 2) fields after := by
  by_cases fits : size + 2 ≤ 8192
  · obtain ⟨after, taken, step, further⟩ := Ahead.readShort (synced.next fits)
    exact ⟨after, by rw [taken, if_pos fits], synced.moved fits step further⟩
  · obtain ⟨short, further⟩ := synced.skipped (by simp [Field.size]) fits
    have failed : reader.read 2 2 = (none, reader) := short
    exact ⟨reader, by rw [if_neg fits, PacketBase.readShort, failed], further⟩

end Synced

end TeenpattiUserServer.Packet
