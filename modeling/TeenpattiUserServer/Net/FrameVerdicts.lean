import TeenpattiUserServer.Net.StreamDecoder

/-! What the stream decoders say about any bytes, against what a well-formed frame is:
a frame has at least its own header. -/

namespace TeenpattiUserServer.Net

open Bytes Packet

/-- The length field as the decoder for this byte order takes it. -/
def lengthField (order : Order) : List UInt8 → Int :=
  match order with
  | .network => networkLength
  | .host => hostLength

/-- A whole header with the flags in place. -/
structure Headed (data : List UInt8) : Prop where
  whole : 9 ≤ data.length
  firstFlag : data[2]? = some 66
  secondFlag : data[3]? = some 89

/-- The data starts with a complete frame of this length. -/
structure StartsWith (order : Order) (data : List UInt8) (len : Int) : Prop where
  headed : Headed data
  declared : len = 2 + lengthField order data
  header : 9 ≤ len
  limit : len ≤ 10240
  complete : len ≤ data.length

/-- The data may become a frame: there is less than a header, or less than the frame
that the header declares. -/
def Waits (order : Order) (data : List UInt8) : Prop :=
  data.length < 9 ∨ (Headed data ∧ 9 ≤ 2 + lengthField order data ∧ 2 + lengthField order data ≤ 10240 ∧
    data.length < 2 + lengthField order data)

/-- The answer is the length of the frame in front, `0` while there may be one, and
otherwise `-1`. -/
structure VerdictExact (order : Order) (data : List UInt8) : Prop where
  frame : ∀ len, 0 < len → ((matchingDecoder order).parsePacket data = len ↔ StartsWith order data len)
  wait : (matchingDecoder order).parsePacket data = 0 ↔ Waits order data
  bad : (matchingDecoder order).parsePacket data = -1 ↔ ¬ Waits order data ∧ ∀ len, ¬ StartsWith order data len

variable {order : Order} {data : List UInt8}

private theorem parsePacket_short (short : data.length < 9) : (matchingDecoder order).parsePacket data = 0 := by
  have early : (data.length : Int) < headerSize := by
    simp only [headerSize]
    omega
  cases order <;> simp [matchingDecoder, BoyaaDecoder, BoyaaDecoder1, StreamDecoder.parsePacket, early]

private theorem parsePacket_unflagged (whole : 9 ≤ data.length) (unflagged : ¬ Headed data) :
    (matchingDecoder order).parsePacket data = -1 := by
  have late : ¬ (data.length : Int) < headerSize := by
    simp only [headerSize]
    omega
  have wrong : data[2]? ≠ some 66 ∨ data[3]? ≠ some 89 := by
    by_contra right
    simp only [not_or, not_not] at right
    exact unflagged ⟨whole, right.1, right.2⟩
  cases order <;>
    simp [matchingDecoder, BoyaaDecoder, BoyaaDecoder1, StreamDecoder.parsePacket, late, boyaaCheckHead, wrong]

/-- With a header only the declared length counts. -/
private theorem parsePacket_headed (headed : Headed data) : (matchingDecoder order).parsePacket data =
    if 2 + lengthField order data ≤ 0 ∨ 10240 < 2 + lengthField order data then -1
    else if data.length < 2 + lengthField order data then 0 else 2 + lengthField order data := by
  have late : ¬ (data.length : Int) < headerSize := by
    have whole := headed.whole
    simp only [headerSize]
    omega
  cases order <;>
    simp only [matchingDecoder, BoyaaDecoder, BoyaaDecoder1, StreamDecoder.parsePacket, late, boyaaCheckHead,
      boyaaGetPacketLen, headed.firstFlag, headed.secondFlag, lengthField] <;>
    split_ifs <;> grind

/-- The answers are exact but where a header declares a frame that is shorter than the
header itself. -/
theorem verdict_exact_iff (order : Order) (data : List UInt8) : VerdictExact order data ↔
    ¬ (Headed data ∧ 0 < 2 + lengthField order data ∧ 2 + lengthField order data < 9) := by
  by_cases short : data.length < 9
  · have answer := @parsePacket_short order data short
    have unheaded : ¬ Headed data := fun headed => by
      have whole := headed.whole
      omega
    have waits : Waits order data := .inl short
    refine iff_of_true ⟨fun len positive => ?_, ?_, ?_⟩ fun both => unheaded both.1
    · rw [answer]
      exact ⟨fun zero => by omega, fun starts => absurd starts.headed unheaded⟩
    · exact iff_of_true answer waits
    · rw [answer]
      exact ⟨fun minus => by omega, fun both => absurd waits both.1⟩
  · by_cases headed : Headed data
    · have answer := @parsePacket_headed order data headed
      have waits : Waits order data ↔ 9 ≤ 2 + lengthField order data ∧ 2 + lengthField order data ≤ 10240 ∧
          data.length < 2 + lengthField order data := by simp [Waits, short, headed]
      have starts (len : Int) : StartsWith order data len ↔ len = 2 + lengthField order data ∧ 9 ≤ len ∧
          len ≤ 10240 ∧ len ≤ data.length :=
        ⟨fun all => ⟨all.declared, all.header, all.limit, all.complete⟩,
          fun all => ⟨headed, all.1, all.2.1, all.2.2.1, all.2.2.2⟩⟩
      have never : (∀ len, ¬ StartsWith order data len) ↔ ¬ (9 ≤ 2 + lengthField order data ∧
          2 + lengthField order data ≤ 10240 ∧ 2 + lengthField order data ≤ data.length) := by
        refine ⟨fun none all => none _ ((starts _).mpr ⟨rfl, all⟩), fun not len begins => ?_⟩
        obtain ⟨rfl, all⟩ := (starts len).mp begins
        exact not all
      have whole := headed.whole
      constructor
      · rintro exact ⟨-, positive, less⟩
        have taken : (matchingDecoder order).parsePacket data = 2 + lengthField order data := by
          rw [answer, if_neg (by omega), if_neg (by omega)]
        have frame := ((exact.frame _ positive).mp taken).header
        omega
      · intro fair
        have longer : 2 + lengthField order data ≤ 0 ∨ 9 ≤ 2 + lengthField order data := by
          by_contra between
          exact fair ⟨headed, by omega, by omega⟩
        refine ⟨fun len positive => ?_, ?_, ?_⟩
        · rw [answer, starts]
          split_ifs <;> omega
        · rw [answer, waits]
          split_ifs <;> grind
        · rw [answer, waits, never]
          split_ifs <;> grind
    · have answer := @parsePacket_unflagged order data (Nat.not_lt.mp short) headed
      have waits : ¬ Waits order data := by simp [Waits, short, headed]
      refine iff_of_true ⟨fun len positive => ?_, ?_, ?_⟩ fun both => headed both.1
      · rw [answer]
        exact ⟨fun minus => by omega, fun starts => absurd starts.headed headed⟩
      · rw [answer]
        exact ⟨fun zero => by omega, fun waiting => absurd waiting waits⟩
      · exact iff_of_true answer ⟨waits, fun len starts => headed starts.headed⟩

/-- A header with a length field of 0 is taken for a frame of two bytes, and in host
order one with -1 for a frame of one. -/
theorem short_frames_accepted :
    BoyaaDecoder.parsePacket [0, 0, 66, 89, 1, 1, 0, 0, 0] = 2 ∧ ¬ VerdictExact .network [0, 0, 66, 89, 1, 1, 0, 0, 0] ∧
      BoyaaDecoder1.parsePacket [255, 255, 66, 89, 1, 1, 0, 0, 0] = 1 ∧
        ¬ VerdictExact .host [255, 255, 66, 89, 1, 1, 0, 0, 0] := by
  have network : BoyaaDecoder.parsePacket [0, 0, 66, 89, 1, 1, 0, 0, 0] = 2 := by decide
  have host : BoyaaDecoder1.parsePacket [255, 255, 66, 89, 1, 1, 0, 0, 0] = 1 := by decide
  refine ⟨network, fun exact => ?_, host, fun exact => ?_⟩
  · have starts := (exact.frame 2 (by decide)).mp network
    exact absurd starts.header (by decide)
  · have starts := (exact.frame 1 (by decide)).mp host
    exact absurd starts.header (by decide)

end TeenpattiUserServer.Net
