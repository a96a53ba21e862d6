import TeenpattiUserServer.Net.StreamDecoder

/-! `OnPacketComplete` of `ClientHandler` and `CBackServer`: one member packet is
used for every frame of the connection. -/

namespace TeenpattiUserServer.Net

open Bytes Packet

variable {State : Type}

/-- The frame is copied into the member packet, whatever `Copy` answers, and the
member packet is processed. -/
def onPacketComplete (processPacket : State → PacketBase → Int × State × PacketBase) (member : State × PacketBase)
    (data : List UInt8) : Int × State × PacketBase :=
  processPacket member.1 (member.2.copy data).2

/-- The packets `ProcessPacket` runs on, each with the frame it stands for. -/
def processed (processPacket : State → PacketBase → Int × State × PacketBase) (member : State × PacketBase) :
    List (List UInt8) → List (List UInt8 × PacketBase)
  | [] => []
  | frame :: frames => (frame, (member.2.copy frame).2) ::
      processed processPacket (onPacketComplete processPacket member frame).2 frames

/-- The packet holds exactly the frame, with the cursor behind the header. -/
structure Exact (frame : List UInt8) (packet : PacketBase) : Prop where
  bytes : packet.bytes = frame
  cursor : packet.bufPos = headerSize

/-- The decoder cuts this frame from a stream. -/
def Accepts (decoder : StreamDecoder) (frame : List UInt8) : Prop :=
  0 < frame.length ∧ ∃ later, decoder.parsePacket (frame ++ later) = frame.length

/-- A frame is copied when it fits into the buffer, and only then. -/
theorem copy_exact_iff (packet : PacketBase) (frame : List UInt8) :
    Exact frame (packet.copy frame).2 ↔ frame.length ≤ 8192 := by
  constructor
  · intro exact
    by_contra large
    have unchanged : (packet.copy frame).2 = packet := by
      rw [PacketBase.copy, if_pos (by simp only [bufferSize]; omega)]
    have length := congrArg List.length exact.bytes
    rw [unchanged, PacketBase.bytes, slice_length] at length
    simp only [bufferSize] at length
    omega
  · intro fits
    rw [PacketBase.copy, if_neg (by simp only [bufferSize]; omega)]
    refine ⟨?_, rfl⟩
    have whole : (min (frame.length : Int) bufferSize).toNat = frame.length := by
      simp only [bufferSize]
      omega
    change slice (store _ 0 frame) 0 (min (frame.length : Int) bufferSize).toNat = frame
    rw [whole, slice_store]

/-- A frame that does not fit leaves the packet of the frame before it. -/
theorem copy_stale (packet : PacketBase) {frame : List UInt8} (large : 8192 < frame.length) :
    (packet.copy frame).2 = packet := by
  rw [PacketBase.copy, if_pos (by simp only [bufferSize]; omega)]

/-- `ProcessPacket` runs on the frames themselves exactly when all of them fit. -/
theorem processed_exact_iff (processPacket : State → PacketBase → Int × State × PacketBase)
    (member : State × PacketBase) (frames : List (List UInt8)) :
    (∀ entry ∈ processed processPacket member frames, Exact entry.1 entry.2) ↔
      ∀ frame ∈ frames, frame.length ≤ 8192 := by
  induction frames generalizing member with
  | nil => simp [processed]
  | cons frame frames ih =>
    simp only [processed, List.forall_mem_cons, copy_exact_iff, ih]

/-- A packet with an unknown command. -/
def unknownFrame : List UInt8 := [0, 11, 66, 89, 2, 1, 0, 0, 0, 0, 0, 0, 7]

/-- A frame of 9000 bytes. -/
def oversizedFrame : List UInt8 := [35, 38, 66, 89, 2, 1, 0, 0, 0] ++ List.replicate 8991 0

private theorem oversizedFrame_length : oversizedFrame.length = 9000 := by
  rw [oversizedFrame, List.length_append, List.length_replicate]
  rfl

private theorem oversizedFrame_large : 8192 < oversizedFrame.length := by
  rw [oversizedFrame_length]
  decide

/-- Both frames are accepted; for the second, the bytes of the first are processed again. -/
theorem oversizedFrame_processed_stale :
    Accepts BoyaaDecoder unknownFrame ∧ Accepts BoyaaDecoder oversizedFrame ∧
      ∃ first second, processed (fun (state : Unit) packet => (0, state, packet)) ((), ⟨fun _ => 0, 9, 9, []⟩)
          [unknownFrame, oversizedFrame] = [(unknownFrame, first), (oversizedFrame, second)] ∧
        second.bytes = unknownFrame ∧ ¬ Exact oversizedFrame second := by
  refine ⟨⟨by decide, [], by decide⟩, ⟨Nat.lt_trans (by decide) oversizedFrame_large, [], ?_⟩, _, _, rfl, ?_, ?_⟩
  · have field : networkLength oversizedFrame = 8998 := by decide
    have first : oversizedFrame[2]? = some 66 := rfl
    have second : oversizedFrame[3]? = some 89 := rfl
    simp only [StreamDecoder.parsePacket, BoyaaDecoder, boyaaCheckHead, boyaaGetPacketLen, List.append_nil,
      oversizedFrame_length, field, first, second, headerSize]
    decide
  · rw [copy_stale _ oversizedFrame_large]
    exact ((copy_exact_iff _ unknownFrame).mpr (by decide)).bytes
  · rw [copy_exact_iff]
    exact Nat.not_le.mpr oversizedFrame_large

end TeenpattiUserServer.Net
