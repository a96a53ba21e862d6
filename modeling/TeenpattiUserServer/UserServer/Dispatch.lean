import TeenpattiUserServer.Packet.Reading
import TeenpattiUserServer.UserServer.Tunnel

/-! Which tunnelled packets get to a handler, against what a well-formed one is. -/

namespace TeenpattiUserServer.UserServer

open Bytes Packet

/-- The `switch` of `ProcessClientPacket`, on a packet that was laid open. -/
def switchRequest (uid svid : Int32) (packet : PacketBase) : Request :=
  let cmd := packet.getCmdType .network
  if cmd = GameCmd.clientCmdUserLogin then
    let (userId, packet) := packet.readInt .network
    let (terminalType, _) := packet.readShort .network
    .userLogin uid svid userId terminalType
  else if cmd = GameCmd.cmdGetRoomLevelNum then
    let (levelCount, packet) := packet.readShort .network
    .getRoomLevelNum uid svid levelCount (readShorts levelCount.toInt.toNat packet)
  else .ignored

/-- `ProcessSubPacket` up to the `switch`: the ids and the packet it is made on. -/
def dispatched (packet : PacketBase) : Option (Int32 × Int32 × PacketBase) :=
  (subPacket packet).bind fun found =>
    let (ret, opened) := found.2.2.crevasseBuffer
    if ret < 0 then none else some (found.1, found.2.1, opened)

/-- The command of the `switch`. -/
def dispatchedCommand (packet : PacketBase) : Option Int16 :=
  (dispatched packet).map fun found => found.2.2.getCmdType .network

/-- A tunnelled packet asks for what the `switch` makes of it, and otherwise for nothing. -/
theorem subRequest_dispatched (packet : PacketBase) : subRequest packet =
    (dispatched packet).elim .ignored fun found => switchRequest found.1 found.2.1 found.2.2 := by
  rw [subRequest_eq, dispatched]
  cases subPacket packet with
  | none => rfl
  | some found =>
    obtain ⟨uid, svid, inner⟩ := found
    simp only [Option.elim_some, Option.bind_some, clientRequest]
    generalize inner.crevasseBuffer = outcome
    obtain ⟨ret, opened⟩ := outcome
    by_cases fails : ret < 0
    · simp only [fails, if_true, Option.elim_none]
    · simp only [fails, if_false, Option.elim_some, switchRequest]

/-- Where the length of the packet inside stands. -/
def lengthPlace (cmd : Int16) : Nat := if cmd = GameCmd.clientPacket2 then 23 else 17

/-- The block that is declared, if it lies inside the content. -/
def declaredBlock (cmd : Int16) (content : List UInt8) : Option (List UInt8) :=
  let len := (intAt .network content (lengthPlace cmd)).toInt
  if len < 0 then none else fieldAt content (lengthPlace cmd + 4) len.toNat

/-- The decrypted body. -/
def plainBody (block : List UInt8) : List UInt8 := (block.drop 9).map fun byte => recvByteMap.getD byte.toNat 0

/-- Everything a packet inside has to have but its magic. -/
structure Framed (block : List UInt8) : Prop where
  header : 9 ≤ block.length
  small : block.length ≤ 8192
  size : 2 + decode .network (block.take 2) = block.length
  checked : ((block.getD 8 0).toNat + ((plainBody block).map UInt8.toNat).sum) % 256 = 0

def Flagged (block : List UInt8) : Prop := block[2]? = some 66 ∧ block[3]? = some 89

def headerCommand (block : List UInt8) : Int16 := PacketBase.toShort .network ((block.drop 6).take 2)

/-- The commands of the `switch` are those in the headers of the well-formed packets inside. -/
def DispatchExact (packet : PacketBase) (content : List UInt8) : Prop :=
  ∀ command, dispatchedCommand packet = some command ↔
    ∃ block, declaredBlock (packet.getCmdType .network) content = some block ∧ Framed block ∧ Flagged block ∧
      command = headerCommand block

variable {packet : PacketBase} {content block : List UInt8}

/-- The length is read where it stands, or it is missing. -/
private theorem length_read (reads : At content packet 9) :
    ∃ pos, At content (if packet.getCmdType .network = GameCmd.clientPacket2 then
          ((((packet.readInt .network).2.readInt .network).2.readInt .network).2.readShort .network).2
        else ((packet.readInt .network).2.readInt .network).2) pos ∧
      intAt .network content pos = intAt .network content (lengthPlace (packet.getCmdType .network)) ∧
      (lengthPlace (packet.getCmdType .network) + 4 ≤ content.length →
        pos = lengthPlace (packet.getCmdType .network)) := by
  obtain ⟨first, uid, reads⟩ := reads.readInt .network
  obtain ⟨second, svid, reads⟩ := reads.readInt .network
  simp only [uid, svid]
  by_cases longer : packet.getCmdType .network = GameCmd.clientPacket2
  · obtain ⟨third, ip, reads⟩ := reads.readInt .network
    obtain ⟨last, api, reads⟩ := reads.readShort .network
    rw [if_pos longer, lengthPlace, if_pos longer, ip, api]
    refine ⟨_, reads, ?_⟩
    by_cases whole : 23 + 4 ≤ content.length
    · have pos :
          behindField content (behindField content (behindField content (behindField content 9 4) 4) 4) 2 = 23 := by
        simp only [behindField]
        split_ifs <;> omega
      exact ⟨by rw [pos], fun _ => pos⟩
    · have cut : content.length <
          behindField content (behindField content (behindField content (behindField content 9 4) 4) 4) 2 + 4 := by
        simp only [behindField]
        split_ifs <;> omega
      exact ⟨(intAt_missing .network cut).trans (intAt_missing .network (by omega)).symm,
        fun inside => absurd inside whole⟩
  · rw [if_neg longer, lengthPlace, if_neg longer]
    refine ⟨_, reads, ?_⟩
    by_cases whole : 17 + 4 ≤ content.length
    · have pos : behindField content (behindField content 9 4) 4 = 17 := by
        simp only [behindField]
        split_ifs <;> omega
      exact ⟨by rw [pos], fun _ => pos⟩
    · have cut : content.length < behindField content (behindField content 9 4) 4 + 4 := by
        simp only [behindField]
        split_ifs <;> omega
      exact ⟨(intAt_missing .network cut).trans (intAt_missing .network (by omega)).symm,
        fun inside => absurd inside whole⟩

/-- The packet inside is a copy of the declared block, when that is complete. -/
private theorem subPacket_block (reads : At content packet 9) :
    (subPacket packet).map (fun found => found.2.2) =
      (declaredBlock (packet.getCmdType .network) content).bind fun block =>
        if checkPacketComplete block block.length then some ((PacketBase.mk (fun _ => 0) 0 0 []).copy block).2
        else none := by
  obtain ⟨pos, reads, same, place⟩ := length_read reads
  have small := reads.small
  simp only [subPacket, declaredBlock, ← same]
  generalize (if packet.getCmdType .network = GameCmd.clientPacket2 then _ else _ : PacketBase) = behind at reads ⊢
  by_cases ranged : 0 ≤ (intAt .network content pos).toInt ∧ (intAt .network content pos).toInt ≤ 10240
  · obtain ⟨len, counted⟩ := Int.eq_ofNat_of_zero_le ranged.1
    have room : (len : Int) ≤ 10240 := counted ▸ ranged.2
    have there : lengthPlace (packet.getCmdType .network) + 4 ≤ content.length := by
      by_contra missing
      rw [same, intAt_missing .network (by omega)] at counted
      have negative : (-1 : Int32).toInt = -1 := rfl
      rw [negative] at counted
      omega
    have taken := reads.readBinary room (by omega) counted
    rw [place there] at taken
    have counts : ¬ ((len : Int) < 0) := by omega
    rw [counted, if_neg counts, Int.toNat_natCast]
    generalize behind.readBinary .network 10240 = result at taken ⊢
    obtain ⟨⟨got, bytes⟩, last⟩ := result
    generalize outcome : fieldAt content (lengthPlace (packet.getCmdType .network) + 4) len = found at taken ⊢
    cases found with
    | none =>
      have incomplete : checkPacketComplete [] 0 = false := by decide
      obtain ⟨rfl, rfl⟩ := Prod.mk.inj taken
      dsimp only
      rw [if_neg (Int.lt_irrefl 0), if_pos incomplete]
      rfl
    | some block =>
      rw [fieldAt] at outcome
      split_ifs at outcome with inside
      have length : block.length = len := by
        rw [← Option.some.inj outcome, List.length_take, List.length_drop]
        omega
      have copies : ((PacketBase.mk (fun _ => 0) 0 0 []).copy block).1 = true := by
        rw [PacketBase.copy, if_neg (by simp only [bufferSize]; omega)]
      obtain ⟨rfl, rfl⟩ := Prod.mk.inj taken
      dsimp only
      rw [if_neg counts, Option.bind_some, length]
      generalize (PacketBase.mk (fun _ => 0) 0 0 []).copy bytes = copied at copies ⊢
      obtain ⟨done, inner⟩ := copied
      cases copies
      cases checkPacketComplete bytes len <;> rfl
  · rw [if_pos (reads.readBinary_refused ranged)]
    have refused : (if (intAt .network content pos).toInt < 0 then none else
        fieldAt content (lengthPlace (packet.getCmdType .network) + 4) (intAt .network content pos).toInt.toNat) =
          none := by
      split_ifs
      · rfl
      · rw [fieldAt, if_neg (by omega)]
    rw [refused]
    rfl

/-- A wrong flag aside, the check finds what is wrong with a frame. -/
private theorem checkPacketComplete_iff : checkPacketComplete block block.length = true ↔
    9 ≤ block.length ∧ block.length ≤ 8192 ∧ 2 + decode .network (block.take 2) = block.length := by
  simp only [checkPacketComplete, headerSize]
  split_ifs
  · grind
  · grind

/-- A sum of bytes is kept modulo 256. -/
private theorem foldl_toNat (bytes : List UInt8) (code : UInt8) :
    (bytes.foldl (· + ·) code).toNat = (code.toNat + (bytes.map UInt8.toNat).sum) % 256 := by
  induction bytes generalizing code with
  | nil =>
    have small := code.toNat_lt
    rw [List.foldl_nil, List.map_nil, List.sum_nil]
    omega
  | cons byte bytes ih =>
    rw [List.foldl_cons, ih, UInt8.toNat_add, List.map_cons, List.sum_cons]
    omega

/-- What is left of a complete packet when it is laid open. -/
private theorem crevasse_block (header : 9 ≤ block.length) (small : block.length ≤ 8192)
    (size : 2 + decode .network (block.take 2) = block.length) {inner : PacketBase} (reads : At block inner 9) :
    (inner.crevasseBuffer.1 < 0 ↔ ((block.getD 8 0).toNat + ((plainBody block).map UInt8.toNat).sum) % 256 ≠ 0) ∧
      inner.crevasseBuffer.2.getCmdType .network = headerCommand block := by
  have field : slice inner.strBuf 0 2 = block.take 2 := reads.slice_eq (by omega)
  have length : inner.dataSize = block.length - 9 := by
    have value : (inner.getBodyLength .network).toInt = block.length - 2 := by
      rw [PacketBase.getBodyLength, PacketBase.readHeader, field, PacketBase.toShort]
      have bits : (UInt16.ofNat (decode .network (block.take 2))).toInt16.toInt =
        (BitVec.ofNat 16 (decode .network (block.take 2))).toInt := rfl
      rw [bits, BitVec.toInt_ofNat', Int.bmod]
      omega
    rw [PacketBase.dataSize, value, BitVec.toNat_ofInt, headerSize]
    omega
  have body : slice inner.strBuf 9 (block.length - 9) = block.drop 9 := by
    rw [reads.slice_eq (by omega), List.take_of_length_le (by rw [List.length_drop])]
  have code : inner.strBuf 8 = block.getD 8 0 := by
    have one : slice inner.strBuf 8 1 = (block.drop 8).take 1 := reads.slice_eq (by omega)
    have first := congrArg (fun bytes : List UInt8 => bytes.getD 0 0) one
    simpa [slice, List.getD_eq_getElem?_getD] using first
  have named : slice inner.strBuf 6 2 = (block.drop 6).take 2 := reads.slice_eq (by omega)
  simp only [PacketBase.crevasseBuffer, length, body, PacketBase.getCbCheckCode, code]
  have sum := foldl_toNat (plainBody block) (block.getD 8 0)
  rw [plainBody] at sum ⊢
  generalize ((block.drop 9).map fun byte => recvByteMap.getD byte.toNat 0) = plain at sum ⊢
  have header : slice (store inner.strBuf 9 plain) 6 2 = (block.drop 6).take 2 :=
    (slice_congr fun i _ high => store_before (by omega)).trans named
  rw [← sum]
  by_cases whole : plain.foldl (· + ·) (block.getD 8 0) = 0
  · rw [whole, if_neg (by simp)]
    exact ⟨by simp, congrArg _ header⟩
  · rw [if_pos whole]
    refine ⟨iff_of_true (by decide : (-1 : Int) < 0) fun zero => whole (UInt8.toNat_inj.mp zero), congrArg _ header⟩

/-- A command is dispatched for the well-formed blocks, whatever their magic. -/
theorem dispatchedCommand_iff (reads : At content packet 9) {command : Int16} :
    dispatchedCommand packet = some command ↔
      ∃ block, declaredBlock (packet.getCmdType .network) content = some block ∧ Framed block ∧
        command = headerCommand block := by
  have inside : dispatchedCommand packet = ((subPacket packet).map fun found => found.2.2).bind fun inner =>
      if inner.crevasseBuffer.1 < 0 then none else some (inner.crevasseBuffer.2.getCmdType .network) := by
    rw [dispatchedCommand, dispatched]
    cases subPacket packet with
    | none => rfl
    | some found =>
      simp only [Option.bind_some, Option.map_some]
      split_ifs <;> rfl
  rw [inside, subPacket_block reads]
  cases declaredBlock (packet.getCmdType .network) content with
  | none => simp
  | some block =>
    by_cases complete : checkPacketComplete block block.length = true
    · obtain ⟨header, small, size⟩ := checkPacketComplete_iff.mp complete
      obtain ⟨fails, named⟩ := crevasse_block header small size (At.copied small (PacketBase.mk (fun _ => 0) 0 0 []))
      simp only [Option.bind_some, complete, if_true, fails, named, Option.some.injEq, exists_eq_left']
      constructor
      · intro run
        split_ifs at run with wrong
        exact ⟨⟨header, small, size, by omega⟩, (Option.some.inj run).symm⟩
      · intro both
        rw [if_neg (not_not.mpr both.1.checked), both.2]
    · rw [Option.bind_some, if_neg complete, Option.bind_none]
      refine ⟨(by simp), ?_⟩
      rintro ⟨other, same, framed, _⟩
      obtain rfl := Option.some.inj same
      exact absurd (checkPacketComplete_iff.mpr ⟨framed.header, framed.small, framed.size⟩) complete

/-- The dispatch is exact but for blocks whose magic is the only thing wrong. -/
theorem dispatch_exact_iff (fits : content.length ≤ 8192) (receiver : PacketBase) :
    DispatchExact (receiver.copy content).2 content ↔
      ∀ block, declaredBlock ((receiver.copy content).2.getCmdType .network) content = some block → Framed block →
        Flagged block := by
  have reads := At.copied fits receiver
  constructor
  · intro exact block declared framed
    obtain ⟨other, same, _, flagged, _⟩ :=
      (exact (headerCommand block)).mp ((dispatchedCommand_iff reads).mpr ⟨block, declared, framed, rfl⟩)
    obtain rfl : block = other := Option.some.inj (declared.symm.trans same)
    exact flagged
  · intro fair command
    rw [dispatchedCommand_iff reads]
    constructor
    · rintro ⟨block, declared, framed, named⟩
      exact ⟨block, declared, framed, fair block declared framed, named⟩
    · rintro ⟨block, declared, framed, _, named⟩
      exact ⟨block, declared, framed, named⟩

/-- A login without a body for user 7 of hall 1, with the wrong magic `XY`. -/
def wrongMagic : List UInt8 :=
  [0, 28, 66, 89, 1, 1, 0, 1, 0, 0, 0, 0, 7, 0, 0, 0, 1, 0, 0, 0, 9, 0, 7, 88, 89, 1, 1, 1, 1, 0]

theorem dispatch_exact_iff_wrongMagic : DispatchExact (fresh.copy wrongMagic).2 wrongMagic ↔
    ∀ block, declaredBlock ((fresh.copy wrongMagic).2.getCmdType .network) wrongMagic = some block → Framed block →
      Flagged block :=
  dispatch_exact_iff (by decide) fresh

/-- It is dispatched as a login. -/
theorem wrong_magic_dispatched : (fresh.copy wrongMagic).2.getCmdType .network = GameCmd.clientPacket ∧
    dispatchedCommand (fresh.copy wrongMagic).2 = some GameCmd.clientCmdUserLogin ∧
      ¬ DispatchExact (fresh.copy wrongMagic).2 wrongMagic := by
  have outer : (fresh.copy wrongMagic).2.getCmdType .network = GameCmd.clientPacket := by decide
  have declared : declaredBlock GameCmd.clientPacket wrongMagic = some [0, 7, 88, 89, 1, 1, 1, 1, 0] := by decide
  have framed : Framed [0, 7, 88, 89, 1, 1, 1, 1, 0] := ⟨by decide, by decide, by decide, by decide⟩
  have fits : wrongMagic.length ≤ 8192 := by decide
  refine ⟨outer, (dispatchedCommand_iff (At.copied fits fresh)).mpr ⟨_, ?_, framed, by decide⟩, fun exact => ?_⟩
  · rw [outer]
    exact declared
  · obtain ⟨block, same, _, flagged, _⟩ := (exact GameCmd.clientCmdUserLogin).mp
      ((dispatchedCommand_iff (At.copied fits fresh)).mpr ⟨_, by rw [outer]; exact declared, framed, by decide⟩)
    rw [outer, declared] at same
    obtain rfl := Option.some.inj same
    exact absurd flagged.1 (by decide)

end TeenpattiUserServer.UserServer
