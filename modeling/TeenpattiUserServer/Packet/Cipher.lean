import TeenpattiUserServer.Packet.Fields

/-! The byte maps that hide the body of a tunnelled packet, and the check code
over its plain bytes. -/

namespace TeenpattiUserServer.Packet

open Bytes

/-- `m_RecvByteMap` -/
def recvByteMap : Array UInt8 :=
  #[0x51, 0xA1, 0x9E, 0xB0, 0x1E, 0x83, 0x1C, 0x2D, 0xE9, 0x77, 0x3D, 0x13, 0x93, 0x10, 0x45, 0xFF,
    0x6D, 0xC9, 0x20, 0x2F, 0x1B, 0x82, 0x1A, 0x7D, 0xF5, 0xCF, 0x52, 0xA8, 0xD2, 0xA4, 0xB4, 0x0B,
    0x31, 0x97, 0x57, 0x19, 0x34, 0xDF, 0x5B, 0x41, 0x58, 0x49, 0xAA, 0x5F, 0x0A, 0xEF, 0x88, 0x01,
    0xDC, 0x95, 0xD4, 0xAF, 0x7B, 0xE3, 0x11, 0x8E, 0x9D, 0x16, 0x61, 0x8C, 0x84, 0x3C, 0x1F, 0x5A,
    0x02, 0x4F, 0x39, 0xFE, 0x04, 0x07, 0x5C, 0x8B, 0xEE, 0x66, 0x33, 0xC4, 0xC8, 0x59, 0xB5, 0x5D,
    0xC2, 0x6C, 0xF6, 0x4D, 0xFB, 0xAE, 0x4A, 0x4B, 0xF3, 0x35, 0x2C, 0xCA, 0x21, 0x78, 0x3B, 0x03,
    0xFD, 0x24, 0xBD, 0x25, 0x37, 0x29, 0xAC, 0x4E, 0xF9, 0x92, 0x3A, 0x32, 0x4C, 0xDA, 0x06, 0x5E,
    0x00, 0x94, 0x60, 0xEC, 0x17, 0x98, 0xD7, 0x3E, 0xCB, 0x6A, 0xA9, 0xD9, 0x9C, 0xBB, 0x08, 0x8F,
    0x40, 0xA0, 0x6F, 0x55, 0x67, 0x87, 0x54, 0x80, 0xB2, 0x36, 0x47, 0x22, 0x44, 0x63, 0x05, 0x6B,
    0xF0, 0x0F, 0xC7, 0x90, 0xC5, 0x65, 0xE2, 0x64, 0xFA, 0xD5, 0xDB, 0x12, 0x7A, 0x0E, 0xD8, 0x7E,
    0x99, 0xD1, 0xE8, 0xD6, 0x86, 0x27, 0xBF, 0xC1, 0x6E, 0xDE, 0x9A, 0x09, 0x0D, 0xAB, 0xE1, 0x91,
    0x56, 0xCD, 0xB3, 0x76, 0x0C, 0xC3, 0xD3, 0x9F, 0x42, 0xB6, 0x9B, 0xE5, 0x23, 0xA7, 0xAD, 0x18,
    0xC6, 0xF4, 0xB8, 0xBE, 0x15, 0x43, 0x70, 0xE0, 0xE7, 0xBC, 0xF1, 0xBA, 0xA5, 0xA6, 0x53, 0x75,
    0xE4, 0xEB, 0xE6, 0x85, 0x14, 0x48, 0xDD, 0x38, 0x2A, 0xCC, 0x7F, 0xB1, 0xC0, 0x71, 0x96, 0xF8,
    0x3F, 0x28, 0xF2, 0x69, 0x74, 0x68, 0xB7, 0xA3, 0x50, 0xD0, 0x79, 0x1D, 0xFC, 0xCE, 0x8A, 0x8D,
    0x2E, 0x62, 0x30, 0xEA, 0xED, 0x2B, 0x26, 0xB9, 0x81, 0x7C, 0x46, 0x89, 0x73, 0xA2, 0xF7, 0x72]

/-- `m_SendByteMap` -/
def sendByteMap : Array UInt8 :=
  #[0x70, 0x2F, 0x40, 0x5F, 0x44, 0x8E, 0x6E, 0x45, 0x7E, 0xAB, 0x2C, 0x1F, 0xB4, 0xAC, 0x9D, 0x91,
    0x0D, 0x36, 0x9B, 0x0B, 0xD4, 0xC4, 0x39, 0x74, 0xBF, 0x23, 0x16, 0x14, 0x06, 0xEB, 0x04, 0x3E,
    0x12, 0x5C, 0x8B, 0xBC, 0x61, 0x63, 0xF6, 0xA5, 0xE1, 0x65, 0xD8, 0xF5, 0x5A, 0x07, 0xF0, 0x13,
    0xF2, 0x20, 0x6B, 0x4A, 0x24, 0x59, 0x89, 0x64, 0xD7, 0x42, 0x6A, 0x5E, 0x3D, 0x0A, 0x77, 0xE0,
    0x80, 0x27, 0xB8, 0xC5, 0x8C, 0x0E, 0xFA, 0x8A, 0xD5, 0x29, 0x56, 0x57, 0x6C, 0x53, 0x67, 0x41,
    0xE8, 0x00, 0x1A, 0xCE, 0x86, 0x83, 0xB0, 0x22, 0x28, 0x4D, 0x3F, 0x26, 0x46, 0x4F, 0x6F, 0x2B,
    0x72, 0x3A, 0xF1, 0x8D, 0x97, 0x95, 0x49, 0x84, 0xE5, 0xE3, 0x79, 0x8F, 0x51, 0x10, 0xA8, 0x82,
    0xC6, 0xDD, 0xFF, 0xFC, 0xE4, 0xCF, 0xB3, 0x09, 0x5D, 0xEA, 0x9C, 0x34, 0xF9, 0x17, 0x9F, 0xDA,
    0x87, 0xF8, 0x15, 0x05, 0x3C, 0xD3, 0xA4, 0x85, 0x2E, 0xFB, 0xEE, 0x47, 0x3B, 0xEF, 0x37, 0x7F,
    0x93, 0xAF, 0x69, 0x0C, 0x71, 0x31, 0xDE, 0x21, 0x75, 0xA0, 0xAA, 0xBA, 0x7C, 0x38, 0x02, 0xB7,
    0x81, 0x01, 0xFD, 0xE7, 0x1D, 0xCC, 0xCD, 0xBD, 0x1B, 0x7A, 0x2A, 0xAD, 0x66, 0xBE, 0x55, 0x33,
    0x03, 0xDB, 0x88, 0xB2, 0x1E, 0x4E, 0xB9, 0xE6, 0xC2, 0xF7, 0xCB, 0x7D, 0xC9, 0x62, 0xC3, 0xA6,
    0xDC, 0xA7, 0x50, 0xB5, 0x4B, 0x94, 0xC0, 0x92, 0x4C, 0x11, 0x5B, 0x78, 0xD9, 0xB1, 0xED, 0x19,
    0xE9, 0xA1, 0x1C, 0xB6, 0x32, 0x99, 0xA3, 0x76, 0x9E, 0x7B, 0x6D, 0x9A, 0x30, 0xD6, 0xA9, 0x25,
    0xC7, 0xAE, 0x96, 0x35, 0xD0, 0xBB, 0xD2, 0xC8, 0xA2, 0x08, 0xF3, 0xD1, 0x73, 0xF4, 0x48, 0x2D,
    0x90, 0xCA, 0xE2, 0x58, 0xC1, 0x18, 0x52, 0xFE, 0xDF, 0x68, 0x98, 0x54, 0xEC, 0x60, 0x43, 0x0F]

/-- `m_isCheckCode` tells whether the check code has been written since `Begin`. -/
structure OutputPacket where
  base : PacketBase
  isCheckCode : Bool

namespace PacketBase

/-- `wDataSize`: the body length in the header, less the rest of the header, as a `WORD`. -/
def dataSize (packet : PacketBase) : Nat :=
  (BitVec.ofInt 16 ((packet.getBodyLength .network).toInt - headerSize + 2)).toNat

/-- `InputPacket::CrevasseBuffer` -/
def crevasseBuffer (packet : PacketBase) : Int × PacketBase :=
  let size := packet.dataSize
  let plain := (slice packet.strBuf 9 size).map fun byte => recvByteMap.getD byte.toNat 0
  let opened := { packet with strBuf := store packet.strBuf 9 plain }
  let checkCode := plain.foldl (· + ·) packet.getCbCheckCode
  if checkCode ≠ 0 then (-1, opened) else (size, opened)

end PacketBase

namespace OutputPacket

def writeCbCheckCode (packet : OutputPacket) (value : UInt8) : OutputPacket :=
  ⟨packet.base.writeHeader [value] 8, true⟩

def encryptBuffer (packet : OutputPacket) : Nat × OutputPacket :=
  if packet.isCheckCode then (0, packet)
  else
    let size := packet.base.dataSize
    let plain := slice packet.base.strBuf 9 size
    let hidden := plain.map fun byte => sendByteMap.getD byte.toNat 0
    let checkCode := plain.foldl (· + ·) 0
    let closed := { packet with
      base := { packet.base with strBuf := store packet.base.strBuf 9 hidden } }
    (size, closed.writeCbCheckCode (~~~checkCode + 1))

end OutputPacket

namespace OutputPacket

/-- `Begin`, the writes and `End`, on a packet that was used before or not. -/
def build (command : Int16) (version subVersion : UInt8) (writes : List Write) (packet : PacketBase) : OutputPacket :=
  ⟨Packet.build .network command version subVersion writes packet, false⟩

end OutputPacket

private theorem getD_toList (map : Array UInt8) (place : Nat) : map.toList.getD place 0 = map.getD place 0 := by
  rw [List.getD_eq_getElem?_getD, Array.getElem?_toList, Array.getD_eq_getD_getElem?]

/-- The receiver's map undoes the sender's. -/
theorem recvByteMap_sendByteMap (byte : UInt8) :
    recvByteMap.getD (sendByteMap.getD byte.toNat 0).toNat 0 = byte := by
  have table : sendByteMap.toList.map (fun sent => recvByteMap.toList.getD sent.toNat 0) =
      (List.range 256).map UInt8.ofNat := by decide +kernel
  have place : ((List.range 256).map UInt8.ofNat)[byte.toNat]? = some byte := by
    rw [List.getElem?_map, List.getElem?_range byte.toNat_lt, Option.map_some, UInt8.ofNat_toNat]
  rw [← table, List.getElem?_map, Option.map_eq_some_iff] at place
  obtain ⟨sent, found, received⟩ := place
  rw [← getD_toList, ← getD_toList, List.getD_eq_getElem?_getD (l := sendByteMap.toList), found]
  exact received

/-- The running sum from a code on is the code and the sum. -/
theorem foldl_checkCode (bytes : List UInt8) (code : UInt8) :
    bytes.foldl (· + ·) code = code + bytes.foldl (· + ·) 0 := by
  induction bytes generalizing code with
  | nil => simp
  | cons byte bytes ih =>
    rw [List.foldl_cons, List.foldl_cons, ih (code + byte), ih (0 + byte), UInt8.zero_add, UInt8.add_assoc]

/-- A check code that is the complement of the sum cancels it. -/
theorem checkCode_cancels (bytes : List UInt8) :
    bytes.foldl (· + ·) (~~~bytes.foldl (· + ·) 0 + 1) = 0 := by
  rw [foldl_checkCode, ← UInt8.neg_eq_not_add, UInt8.add_comm, UInt8.add_neg_eq_sub, UInt8.sub_self]

/-- A body is hidden once. -/
theorem encryptBuffer_again (packet : OutputPacket) :
    packet.encryptBuffer.2.encryptBuffer = (0, packet.encryptBuffer.2) := by
  have written : packet.encryptBuffer.2.isCheckCode = true := by
    rw [OutputPacket.encryptBuffer]
    split
    · assumption
    · rfl
  rw [OutputPacket.encryptBuffer, if_pos written]

/-- A body hidden with the sender's map, under its check code, is laid open. -/
theorem crevasseBuffer_hidden {packet : PacketBase} {plain : List UInt8} (size : packet.dataSize = plain.length)
    (hidden : slice packet.strBuf 9 plain.length = plain.map fun byte => sendByteMap.getD byte.toNat 0)
    (code : packet.getCbCheckCode = ~~~plain.foldl (· + ·) 0 + 1) :
    packet.crevasseBuffer = ((plain.length : Int), { packet with strBuf := store packet.strBuf 9 plain }) := by
  have opened : (slice packet.strBuf 9 plain.length).map (fun byte => recvByteMap.getD byte.toNat 0) = plain := by
    rw [hidden, List.map_map]
    simp only [Function.comp_def, recvByteMap_sendByteMap, List.map_id']
  simp only [PacketBase.crevasseBuffer, size, opened, code, checkCode_cancels]
  rfl

/-- `hidden` is `plain` with its body hidden, under the check code of the body. -/
structure Sealed (plain hidden : PacketBase) : Prop where
  size : hidden.packetSize = plain.packetSize
  header : ∀ i, i < 8 → hidden.strBuf i = plain.strBuf i
  code : hidden.strBuf 8 = ~~~(slice plain.strBuf 9 (plain.packetSize - 9).toNat).foldl (· + ·) 0 + 1
  body : slice hidden.strBuf 9 (plain.packetSize - 9).toNat =
    (slice plain.strBuf 9 (plain.packetSize - 9).toNat).map fun byte => sendByteMap.getD byte.toNat 0

variable {packet hidden : PacketBase}

/-- The two computations of the length of the body agree. -/
theorem Open.dataSize (opened : Open packet) {other : PacketBase}
    (same : ∀ i, i < 2 → other.strBuf i = (packet.finish .network).strBuf i) :
    other.dataSize = (packet.packetSize - 9).toNat := by
  have header := opened.header
  have small := opened.small
  simp only [headerSize, bufferSize] at header small
  have field : slice other.strBuf 0 2 = slice (packet.finish .network).strBuf 0 2 :=
    slice_congr fun i _ high => same i (by omega)
  have length : (PacketBase.toShort .network _).toInt + 2 = _ := finish_bodyLength opened
  rw [← field] at length
  have value : (other.getBodyLength .network).toInt = packet.packetSize - 2 := by
    rw [PacketBase.getBodyLength, PacketBase.readHeader]
    omega
  rw [PacketBase.dataSize, value, BitVec.toNat_ofInt, headerSize]
  omega

/-- `EncryptBuffer` hides the body of a packet that `End` has finished. -/
theorem Open.sealed (opened : Open packet) :
    Sealed (packet.finish .network) (OutputPacket.encryptBuffer ⟨packet.finish .network, false⟩).2.base := by
  have size : (packet.finish .network).packetSize = packet.packetSize := by rw [finish_eq]
  have data : (packet.finish .network).dataSize = (packet.packetSize - 9).toNat := opened.dataSize fun i _ => rfl
  have closed : (OutputPacket.encryptBuffer ⟨packet.finish .network, false⟩).2.base = { packet.finish .network with
      strBuf := store (store (packet.finish .network).strBuf 9
        ((slice (packet.finish .network).strBuf 9 (packet.packetSize - 9).toNat).map fun byte =>
          sendByteMap.getD byte.toNat 0)) 8
        [~~~(slice (packet.finish .network).strBuf 9 (packet.packetSize - 9).toNat).foldl (· + ·) 0 + 1] } := by
    simp only [OutputPacket.encryptBuffer, OutputPacket.writeCbCheckCode, data, Bool.false_eq_true, if_false]
    rw [writeHeader_eq _ _ (.inr (by decide))]
  rw [closed]
  refine ⟨rfl, fun i before => ?_, ?_, ?_⟩
  · exact (store_before before).trans (store_before (by omega))
  · simp [store, size]
  · rw [size]
    have stored := slice_store (packet.finish .network).strBuf 9
      ((slice (packet.finish .network).strBuf 9 (packet.packetSize - 9).toNat).map fun byte =>
        sendByteMap.getD byte.toNat 0)
    rw [List.length_map, slice_length] at stored
    refine Eq.trans (slice_congr fun i low _ => ?_) stored
    exact store_after (by simpa using low)

/-- What the receiver gets from a hidden packet: the command and the body of the
plain one, and nothing changed but the body. -/
structure Opens (plain hidden : PacketBase) : Prop where
  ret : hidden.crevasseBuffer.1 = plain.packetSize - 9
  size : hidden.crevasseBuffer.2.packetSize = plain.packetSize
  command : hidden.crevasseBuffer.2.getCmdType .network = plain.getCmdType .network
  body : slice hidden.crevasseBuffer.2.strBuf 9 (plain.packetSize - 9).toNat =
    slice plain.strBuf 9 (plain.packetSize - 9).toNat
  outside : ∀ i : Nat, i < 9 ∨ plain.packetSize ≤ i → hidden.crevasseBuffer.2.strBuf i = hidden.strBuf i

/-- A sealed packet is laid open by `CrevasseBuffer`. -/
theorem Sealed.opens (opened : Open packet) (hides : Sealed (packet.finish .network) hidden) :
    Opens (packet.finish .network) hidden := by
  have header := opened.header
  simp only [headerSize] at header
  have size : (packet.finish .network).packetSize = packet.packetSize := by rw [finish_eq]
  have data := opened.dataSize fun i before => hides.header i (by omega)
  have body := hides.body
  have code := hides.code
  rw [size] at body code
  have length : (slice (packet.finish .network).strBuf 9 (packet.packetSize - 9).toNat).length =
      (packet.packetSize - 9).toNat := slice_length ..
  generalize plainIs : slice (packet.finish .network).strBuf 9 (packet.packetSize - 9).toNat = plain at *
  have run : hidden.crevasseBuffer = _ :=
    crevasseBuffer_hidden (data.trans length.symm) (by rw [length]; exact body) code
  have stored := slice_store hidden.strBuf 9 plain
  rw [length] at stored
  refine ⟨?_, ?_, ?_, ?_, ?_⟩
  · rw [run, size]
    omega
  · rw [run]
    exact hides.size
  · rw [run, PacketBase.getCmdType, PacketBase.getCmdType, PacketBase.readHeader, PacketBase.readHeader]
    congr 1
    exact slice_congr fun i _ high => (store_before (by omega)).trans (hides.header i (by omega))
  · rw [run, size, plainIs]
    exact stored
  · intro i out
    rw [run]
    rcases out with before | after
    · exact store_before before
    · exact store_after (by omega)

/-- A copy of a hidden packet is as it was. -/
theorem Sealed.copied (header : 9 ≤ packet.packetSize) (small : packet.packetSize ≤ 8192) (hides : Sealed packet hidden)
    (receiver : PacketBase) : (receiver.copy hidden.bytes).1 = true ∧ Sealed packet (receiver.copy hidden.bytes).2 := by
  have size := hides.size
  have length : hidden.bytes.length = packet.packetSize.toNat := by
    rw [PacketBase.bytes, slice_length, size, bufferSize]
    omega
  have fits : ¬ bufferSize < hidden.bytes.length := by
    simp only [bufferSize]
    omega
  have same : ∀ i : Nat, i < packet.packetSize →
      store (fun _ => 0) 0 hidden.bytes i = hidden.strBuf i := by
    intro i inside
    refine store_slice _ _ (Nat.zero_le i) ?_
    rw [PacketBase.bytes, slice_length] at length
    omega
  simp only [PacketBase.copy, if_neg fits, PacketBase.reset, true_and]
  refine ⟨by simp only [length]; omega, fun i before => ?_, ?_, ?_⟩
  · exact (same i (by omega)).trans (hides.header i before)
  · exact (same 8 (by omega)).trans hides.code
  · refine Eq.trans (slice_congr fun i low high => ?_) hides.body
    exact same i (by omega)

end TeenpattiUserServer.Packet
