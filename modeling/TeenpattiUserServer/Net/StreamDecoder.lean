import TeenpattiUserServer.Framing.Stream
import TeenpattiUserServer.Packet.OutputPacket

/-! `CCStreamDecoder` and its two instances: `BoyaaDecoder` reads the length field
in network order, `BoyaaDecoder1` as it lies in memory. -/

namespace TeenpattiUserServer.Net

open Bytes Packet Framing

/-- The virtual functions of a decoder, on the bytes that have arrived. -/
structure StreamDecoder where
  getHeadLen : List UInt8 → Int
  checkHead : List UInt8 → Bool
  getPacketLen : List UInt8 → Int

/-- `-1` for a bad stream, `0` for an incomplete packet, else the packet's length. -/
def StreamDecoder.parsePacket (decoder : StreamDecoder) (data : List UInt8) : Int :=
  if (data.length : Int) < decoder.getHeadLen data then 0
  else if decoder.checkHead data = false then -1
  else
    let pkgLen := decoder.getPacketLen data
    if pkgLen < 0 then -1
    else if (data.length : Int) < pkgLen then 0
    else pkgLen

/-- `GetPacketLen` and `CheckHead` over the value of the length field. -/
def boyaaGetPacketLen (length : List UInt8 → Int) (data : List UInt8) : Int :=
  let pkgLen := 2 + length data
  if pkgLen ≤ 0 ∨ 10240 < pkgLen then -1 else pkgLen

def boyaaCheckHead (length : List UInt8 → Int) (data : List UInt8) : Bool :=
  if data[2]? ≠ some 66 ∨ data[3]? ≠ some 89 then false
  else
    let pkgLen := 2 + length data
    if pkgLen ≤ 0 ∨ 10240 < pkgLen then false else true

/-- `ntohs` makes the field unsigned. -/
def networkLength (data : List UInt8) : Int := decode .network (data.take 2)

/-- The field is a `short`. -/
def hostLength (data : List UInt8) : Int := (PacketBase.toShort .host (data.take 2)).toInt

def BoyaaDecoder : StreamDecoder where
  getHeadLen _ := headerSize
  checkHead := boyaaCheckHead networkLength
  getPacketLen := boyaaGetPacketLen networkLength

def BoyaaDecoder1 : StreamDecoder where
  getHeadLen _ := headerSize
  checkHead := boyaaCheckHead hostLength
  getPacketLen := boyaaGetPacketLen hostLength

/-- The decoder for packets written in this byte order. -/
def matchingDecoder (order : Order) : StreamDecoder :=
  match order with
  | .network => BoyaaDecoder
  | .host => BoyaaDecoder1

/-- What the parse loop makes of the decoder's answer. -/
def StreamDecoder.verdict (decoder : StreamDecoder) (data : List UInt8) : Verdict :=
  let packetLen := decoder.parsePacket data
  if packetLen = -1 then .bad
  else if packetLen = 0 then .more
  else .frame packetLen.toNat

variable {order : Order} {packet : List UInt8}

private theorem hostLength_eq {data : List UInt8} (small : decode .host (data.take 2) < 2 ^ 15) :
    hostLength data = decode .host (data.take 2) := by
  have bits : hostLength data = (BitVec.ofNat 16 (decode .host (data.take 2))).toInt := rfl
  rw [bits, BitVec.toInt_ofNat']
  simp only [Int.bmod]
  omega

/-- A decoder that reads the length of the packet in front, whatever arrives behind its header. -/
private theorem parsePacket_eq (order : Order) {data : List UInt8} (head : 9 ≤ data.length)
    (firstFlag : data[2]? = some 66) (secondFlag : data[3]? = some 89) {body : Nat}
    (lengthField : decode order (data.take 2) = body) (small : body ≤ 8190) :
    (matchingDecoder order).parsePacket data = if data.length < 2 + body then 0 else 2 + (body : Int) := by
  have value : order = .host → hostLength data = body := fun same => by
    subst same
    rw [hostLength_eq (by omega), lengthField]
  cases order with
  | network =>
    simp only [matchingDecoder, BoyaaDecoder, StreamDecoder.parsePacket, boyaaCheckHead, boyaaGetPacketLen,
      networkLength, lengthField, firstFlag, secondFlag, headerSize]
    split_ifs <;> grind
  | host =>
    simp only [matchingDecoder, BoyaaDecoder1, StreamDecoder.parsePacket, boyaaCheckHead, boyaaGetPacketLen,
      value rfl, firstFlag, secondFlag, headerSize]
    split_ifs <;> grind

private theorem front_getElem? {data later : List UInt8} {i : Nat} (bound : i < data.length) :
    (data ++ later)[i]? = data[i]? := List.getElem?_append_left bound

/-- The matching decoder recognises every packet that was built. -/
theorem built_recognised (built : Built order packet) :
    Recognised (matchingDecoder order).verdict packet := by
  have header := built.header
  have small := built.small
  have parsed : ∀ data : List UInt8, 9 ≤ data.length → data[2]? = packet[2]? → data[3]? = packet[3]? →
      data.take 2 = packet.take 2 → (matchingDecoder order).parsePacket data =
        if data.length < packet.length then 0 else (packet.length : Int) := by
    intro data head first second field
    rw [parsePacket_eq order head (first.trans built.firstFlag) (second.trans built.secondFlag)
      (field ▸ built.lengthField) (by omega)]
    split_ifs <;> omega
  refine ⟨List.ne_nil_of_length_pos (by omega), fun rest => ?_, fun front nonempty short different => ?_⟩
  · have answer := parsed (packet ++ rest) (by simp only [List.length_append]; omega)
      (front_getElem? (by omega)) (front_getElem? (by omega)) (List.take_append_of_le_length (by omega))
    rw [if_neg (by simp)] at answer
    simp only [StreamDecoder.verdict, answer]
    rw [if_neg (by omega), if_neg (by omega), Int.toNat_natCast]
  · have shorter : front.length < packet.length :=
      Nat.lt_of_le_of_ne short.length_le fun same => different (short.eq_of_length same)
    have waits : (matchingDecoder order).parsePacket front = 0 := by
      by_cases head : 9 ≤ front.length
      · obtain ⟨rest, rfl⟩ := short
        have answer := parsed front head (front_getElem? (by omega)).symm (front_getElem? (by omega)).symm
          (List.take_append_of_le_length (by omega)).symm
        rwa [if_pos shorter] at answer
      · have early : (front.length : Int) < headerSize := by
          simp only [headerSize]
          omega
        cases order <;> simp [matchingDecoder, BoyaaDecoder, BoyaaDecoder1, StreamDecoder.parsePacket, early]
    simp [StreamDecoder.verdict, waits]

/-- The header decides: more bytes change neither the check nor the length. -/
theorem matchingDecoder_settled (order : Order) : Settled (matchingDecoder order).verdict := by
  have header : ∀ front later : List UInt8, 9 ≤ front.length →
      (matchingDecoder order).checkHead (front ++ later) = (matchingDecoder order).checkHead front ∧
        (matchingDecoder order).getPacketLen (front ++ later) = (matchingDecoder order).getPacketLen front := by
    intro front later long
    have field : (front ++ later).take 2 = front.take 2 := List.take_append_of_le_length (by omega)
    have first : (front ++ later)[2]? = front[2]? := front_getElem? (by omega)
    have second : (front ++ later)[3]? = front[3]? := front_getElem? (by omega)
    cases order
    · simp only [matchingDecoder, BoyaaDecoder, boyaaCheckHead, boyaaGetPacketLen, networkLength, field, first,
        second]
      trivial
    · simp only [matchingDecoder, BoyaaDecoder1, boyaaCheckHead, boyaaGetPacketLen, hostLength, field, first,
        second]
      trivial
  have headLen : ∀ data, (matchingDecoder order).getHeadLen data = 9 := by
    intro data
    cases order <;> rfl
  refine ⟨fun front later given => ?_, fun buffer len verdict => ?_⟩
  · simp only [StreamDecoder.verdict, StreamDecoder.parsePacket, headLen] at given ⊢
    by_cases long : 9 ≤ front.length
    · obtain ⟨check, length⟩ := header front later long
      have size : (front ++ later).length = front.length + later.length := List.length_append
      have early : ¬ (front.length : Int) < 9 := by omega
      have longer : ¬ ((front ++ later).length : Int) < 9 := by omega
      simp only [early, longer, check, length, if_false] at given ⊢
      by_cases whole : (front.length : Int) < (matchingDecoder order).getPacketLen front
      · have nonnegative : ¬ (matchingDecoder order).getPacketLen front < 0 := by omega
        by_cases refused : (matchingDecoder order).checkHead front = false
        · simp only [refused, if_true]
        · simp [refused, nonnegative, whole] at given
      · have more : ¬ ((front ++ later).length : Int) < (matchingDecoder order).getPacketLen front := by omega
        simp only [whole, more, if_false]
    · have early : (front.length : Int) < 9 := by omega
      simp [early] at given
  · simp only [StreamDecoder.verdict, StreamDecoder.parsePacket] at verdict
    split_ifs at verdict <;> grind

/-- The decoder waits for less than a packet of the greatest length. -/
theorem matchingDecoder_waits {order : Order} {data : List UInt8}
    (waits : (matchingDecoder order).verdict data = .more) : data.length < 10240 := by
  have headLen : (matchingDecoder order).getHeadLen data = 9 := by cases order <;> rfl
  have length : (matchingDecoder order).getPacketLen data < 0 ∨
      (0 < (matchingDecoder order).getPacketLen data ∧ (matchingDecoder order).getPacketLen data ≤ 10240) := by
    cases order
    · simp only [matchingDecoder, BoyaaDecoder, boyaaGetPacketLen]
      split_ifs <;> omega
    · simp only [matchingDecoder, BoyaaDecoder1, boyaaGetPacketLen]
      split_ifs <;> omega
  simp only [StreamDecoder.verdict, StreamDecoder.parsePacket, headLen] at waits
  by_contra long
  have enough : ¬ (data.length : Int) < 9 := by omega
  have complete : ¬ (data.length : Int) < (matchingDecoder order).getPacketLen data := by omega
  simp only [enough, complete, if_false] at waits
  split_ifs at waits <;> grind

end TeenpattiUserServer.Net
