import TeenpattiUserServer.Net.RawCache
import TeenpattiUserServer.Net.StreamDecoder

/-! The receiving side of `CCSocketHandler`: received bytes are appended to the
cache, and complete packets are handed on and skipped. -/

namespace TeenpattiUserServer.Net

open Bytes Packet Framing

/-- `CConnState` -/
inductive ConnState where
  | idle
  | fatalError
  | dataError
  | connecting
  | disconnect
  | connected
  | dataSending
  | dataRecving
  | sendDone
  | recvDone
  | appendSending
  | appendDone
  | xmlPolicy
  deriving DecidableEq, Repr

/-- `Handler` is the state of the class that overrides `OnPacketComplete`. -/
structure SocketHandler (Handler : Type) where
  r : RawCache
  stage : ConnState
  inputEnabled : Bool
  handler : Handler

namespace SocketHandler

variable {Handler : Type}

def connected (handler : Handler) : SocketHandler Handler := ⟨RawCache.empty, .idle, true, handler⟩

/-- The loop of `handle_input`; `none` when the fuel runs out. -/
def parseLoop (decoder : StreamDecoder) (onPacketComplete : Handler → List UInt8 → Int × Handler) :
    Nat → SocketHandler Handler → Option (SocketHandler Handler)
  | 0, _ => none
  | fuel + 1, conn =>
    if conn.r.dataLen = 0 then some conn
    else
      let packetLen := decoder.parsePacket conn.r.data
      if packetLen = -1 then some { conn with inputEnabled := false, stage := .dataError }
      else if packetLen = 0 then some { conn with stage := .dataRecving }
      else
        let (ret, handler) := onPacketComplete conn.handler (conn.r.data.take packetLen.toNat)
        if ret < 0 then some { conn with handler, stage := .fatalError }
        else parseLoop decoder onPacketComplete fuel
          { conn with handler, stage := .recvDone, r := conn.r.skip packetLen.toNat }

/-- `handle_input` on bytes that are not a policy request. -/
def receive (allocate : Nat → Option Nat) (decoder : StreamDecoder)
    (onPacketComplete : Handler → List UInt8 → Int × Handler) (conn : SocketHandler Handler) (bytes : List UInt8) :
    Option (SocketHandler Handler) :=
  (conn.r.append allocate bytes).bind fun r =>
    parseLoop decoder onPacketComplete (r.dataLen + 1) { conn with r }

/-- The chunks as they arrive. -/
def receiveAll (allocate : Nat → Option Nat) (decoder : StreamDecoder)
    (onPacketComplete : Handler → List UInt8 → Int × Handler) (conn : SocketHandler Handler)
    (chunks : List (List UInt8)) : Option (SocketHandler Handler) :=
  chunks.foldlM (receive allocate decoder onPacketComplete) conn

/-- The handler after these packets, in this order. -/
def handled (onPacketComplete : Handler → List UInt8 → Int × Handler) (packets : List (List UInt8))
    (handler : Handler) : Handler :=
  packets.foldl (fun current packet => (onPacketComplete current packet).2) handler

variable {decoder : StreamDecoder} {onPacketComplete : Handler → List UInt8 → Int × Handler}
  {conn : SocketHandler Handler} {content : List UInt8}

theorem parsePacket_length (decoder : StreamDecoder) (data : List UInt8) :
    decoder.parsePacket data = -1 ∨ (0 ≤ decoder.parsePacket data ∧ decoder.parsePacket data ≤ data.length) := by
  simp only [StreamDecoder.parsePacket]
  split_ifs <;> omega

/-- What a run of the loop leaves: the packets handed on, the bytes kept, and no new error. -/
structure Drained (onPacketComplete : Handler → List UInt8 → Int × Handler) (conn : SocketHandler Handler)
    (packets : List (List UInt8)) (kept : List UInt8) (after : SocketHandler Handler) : Prop where
  handler : after.handler = handled onPacketComplete packets conn.handler
  holds : after.r.Holds kept
  inputEnabled : after.inputEnabled = conn.inputEnabled
  stage : after.stage = .dataError → conn.stage = .dataError

/-- What the loop makes of the decoder's outcome. A refusal disables input. -/
structure Obeyed (onPacketComplete : Handler → List UInt8 → Int × Handler) (conn : SocketHandler Handler)
    (outcome : Outcome UInt8) (after : SocketHandler Handler) : Prop where
  handler : after.handler = handled onPacketComplete outcome.frames conn.handler
  holds : after.r.Holds outcome.rest
  inputEnabled : after.inputEnabled = (conn.inputEnabled && !outcome.failed)
  stage : if outcome.failed then after.stage = .dataError
    else after.stage = conn.stage ∨ after.stage = .dataRecving ∨ after.stage = .recvDone

private theorem parseLoop_empty (holds : conn.r.Holds []) (fuel : Nat) :
    parseLoop decoder onPacketComplete (fuel + 1) conn = some conn ∧
      Obeyed onPacketComplete conn (drain decoder.verdict fuel []) conn := by
  have length := holds.dataLen_eq_zero.mpr rfl
  have stopped : drain decoder.verdict fuel [] = ⟨[], [], false⟩ := by cases fuel <;> rfl
  rw [stopped]
  exact ⟨by simp [parseLoop, length], rfl, holds, by simp, .inl rfl⟩

/-- With a handler that does not fail, the loop drains the cache as the decoder says. -/
theorem parseLoop_obeys (succeeds : ∀ handler packet, (onPacketComplete handler packet).1 = 0)
    (holds : conn.r.Holds content) {fuel : Nat} (enough : content.length ≤ fuel) :
    ∃ after, parseLoop decoder onPacketComplete (fuel + 1) conn = some after ∧
      Obeyed onPacketComplete conn (drain decoder.verdict fuel content) after := by
  induction fuel generalizing conn content with
  | zero =>
    have none : content = [] := List.length_eq_zero_iff.mp (by omega)
    subst content
    exact ⟨conn, parseLoop_empty holds 0⟩
  | succ fuel ih =>
    cases content with
    | nil => exact ⟨conn, parseLoop_empty holds (fuel + 1)⟩
    | cons byte rest =>
      have length : conn.r.dataLen ≠ 0 := fun zero => by simp [holds.dataLen_eq_zero] at zero
      have data := holds.data
      have answer := parsePacket_length decoder (byte :: rest)
      rw [parseLoop]
      simp only [drain, StreamDecoder.verdict, length, if_false, data]
      by_cases bad : decoder.parsePacket (byte :: rest) = -1
      · simp only [bad, if_true]
        exact ⟨_, rfl, rfl, holds, by simp, rfl⟩
      · by_cases more : decoder.parsePacket (byte :: rest) = 0
        · simp only [more, if_true]
          exact ⟨_, rfl, rfl, holds, by simp, .inr (.inl rfl)⟩
        · simp only [bad, more, if_false]
          have ret := succeeds conn.handler ((byte :: rest).take (decoder.parsePacket (byte :: rest)).toNat)
          obtain ⟨handler, run⟩ : ∃ handler, onPacketComplete conn.handler
              ((byte :: rest).take (decoder.parsePacket (byte :: rest)).toNat) = (0, handler) :=
            ⟨_, Prod.ext ret rfl⟩
          simp only [run, Int.lt_irrefl, if_false]
          have shorter : ((byte :: rest).drop (decoder.parsePacket (byte :: rest)).toNat).length ≤ fuel := by
            rw [List.length_drop]
            omega
          let advanced : SocketHandler Handler := { conn with
            handler := handler, stage := .recvDone, r := conn.r.skip (decoder.parsePacket (byte :: rest)).toNat }
          have advancedHolds : advanced.r.Holds _ := holds.skip _
          obtain ⟨after, ran, result⟩ := ih advancedHolds shorter
          refine ⟨after, ran, ?_, result.holds, result.inputEnabled, ?_⟩
          · rw [result.handler]
            simp [handled, run, advanced]
          · have stage := result.stage
            split_ifs at stage ⊢ with failed
            · exact stage
            · rcases stage with done | later
              · exact .inr (.inr done)
              · exact .inr later

/-- On a stream that is not refused, the loop ends without a new error. -/
theorem parseLoop_drain (succeeds : ∀ handler packet, (onPacketComplete handler packet).1 = 0)
    (holds : conn.r.Holds content) {fuel : Nat} (enough : content.length ≤ fuel)
    {packets : List (List UInt8)} {kept : List UInt8}
    (drained : drain decoder.verdict fuel content = ⟨packets, kept, false⟩) :
    ∃ after, parseLoop decoder onPacketComplete (fuel + 1) conn = some after ∧
      Drained onPacketComplete conn packets kept after := by
  obtain ⟨after, ran, obeyed⟩ := @parseLoop_obeys _ decoder _ _ _ succeeds holds _ enough
  rw [drained] at obeyed
  refine ⟨after, ran, obeyed.handler, obeyed.holds, by simpa using obeyed.inputEnabled, fun error => ?_⟩
  rcases obeyed.stage with same | waiting | done
  · exact same ▸ error
  · simp [waiting] at error
  · simp [done] at error

/-- One chunk carries the progress of the stream on. -/
theorem receive_progress {allocate : Nat → Option Nat} (serves : RawCache.Serves allocate)
    (succeeds : ∀ handler packet, (onPacketComplete handler packet).1 = 0) {frames : List (List UInt8)}
    (recognised : ∀ frame ∈ frames, Recognised decoder.verdict frame) {arrived chunk pending : List UInt8}
    {delivered : List (List UInt8)} (progress : Progress frames arrived delivered pending)
    (holds : conn.r.Holds pending) (front : arrived ++ chunk <+: frames.flatten)
    (small : pending.length + chunk.length < maxWebRecvLen + 10240) :
    ∃ after packets kept, receive allocate decoder onPacketComplete conn chunk = some after ∧
      Drained onPacketComplete conn packets kept after ∧
      Progress frames (arrived ++ chunk) (delivered ++ packets) kept := by
  obtain ⟨r, appended, fresh⟩ := holds.append serves small
  obtain ⟨packets, kept, drained, further⟩ :=
    progress.feed recognised front (Nat.le_of_eq fresh.length.symm)
  let filled : SocketHandler Handler := { conn with r }
  have filledHolds : filled.r.Holds (pending ++ chunk) := fresh
  obtain ⟨after, ran, result⟩ := parseLoop_drain succeeds filledHolds (Nat.le_of_eq fresh.length.symm) drained
  refine ⟨after, packets, kept, ?_, ⟨result.handler, result.holds, result.inputEnabled, result.stage⟩, further⟩
  simp only [receive, appended, Option.bind_some]
  exact ran

theorem Drained.trans {first second : List (List UInt8)} {kept left : List UInt8}
    {between after : SocketHandler Handler}
    (early : Drained onPacketComplete conn first kept between)
    (late : Drained onPacketComplete between second left after) :
    Drained onPacketComplete conn (first ++ second) left after where
  handler := by rw [late.handler, early.handler, handled, handled, handled, List.foldl_append]
  holds := late.holds
  inputEnabled := late.inputEnabled.trans early.inputEnabled
  stage := fun error => early.stage (late.stage error)

/-- Any pieces of a stream of recognised frames are received without an error. -/
theorem receiveAll_progress {allocate : Nat → Option Nat} (serves : RawCache.Serves allocate)
    (succeeds : ∀ handler packet, (onPacketComplete handler packet).1 = 0) {frames : List (List UInt8)}
    (recognised : ∀ frame ∈ frames, Recognised decoder.verdict frame)
    (small : ∀ frame ∈ frames, frame.length < 10240) {chunks : List (List UInt8)}
    (received : ∀ chunk ∈ chunks, chunk.length ≤ maxWebRecvLen) {arrived pending : List UInt8}
    {delivered : List (List UInt8)} (progress : Progress frames arrived delivered pending)
    (holds : conn.r.Holds pending) (front : arrived ++ chunks.flatten <+: frames.flatten) :
    ∃ after packets kept, receiveAll allocate decoder onPacketComplete conn chunks = some after ∧
      Drained onPacketComplete conn packets kept after ∧
      Progress frames (arrived ++ chunks.flatten) (delivered ++ packets) kept := by
  induction chunks generalizing conn arrived delivered pending with
  | nil => exact ⟨conn, [], pending, rfl, ⟨rfl, holds, rfl, id⟩, by simpa using progress⟩
  | cons chunk chunks ih =>
    have early : arrived ++ chunk <+: frames.flatten :=
      (List.prefix_append _ chunks.flatten).trans (by simpa using front)
    have bound := progress.pending_length (by decide) small
    have size := received chunk (by simp)
    obtain ⟨between, first, kept, ran, result, further⟩ :=
      receive_progress serves succeeds recognised progress holds early (by omega)
    obtain ⟨after, second, left, ranOn, resultOn, all⟩ :=
      ih (fun later member => received later (by simp [member])) further result.holds (by simpa using front)
    refine ⟨after, first ++ second, left, ?_, result.trans resultOn, by simpa using all⟩
    rw [receiveAll, List.foldlM_cons, ran]
    exact ranOn

/-- Packets that were built arrive as they were built, however the stream is cut:
between chunks the complete ones have been handled in order, and the cache holds a
proper part of the next one. -/
theorem framing_inverts_building (order : Order) {allocate : Nat → Option Nat} (serves : RawCache.Serves allocate)
    (onPacketComplete : Handler → List UInt8 → Int × Handler)
    (succeeds : ∀ handler packet, (onPacketComplete handler packet).1 = 0) (buildings : List Building)
    (defined : ∀ building ∈ buildings, building.Defined) (chunks : List (List UInt8))
    (received : ∀ chunk ∈ chunks, chunk.length ≤ maxWebRecvLen)
    (cut : chunks.flatten = (buildings.map (Building.bytes order)).flatten) (handler : Handler) :
    (∀ first rest, chunks = first ++ rest →
      ∃ conn, receiveAll allocate (matchingDecoder order) onPacketComplete (connected handler) first = some conn ∧
        conn.stage ≠ .dataError ∧ conn.inputEnabled = true ∧
        ∃ delivered later, buildings.map (Building.bytes order) = delivered ++ later ∧
          conn.handler = handled onPacketComplete delivered handler ∧
          first.flatten = delivered.flatten ++ conn.r.data ∧ conn.r.data.length < 10240 ∧
          (conn.r.data = [] ∨ ∃ next remaining, later = next :: remaining ∧
            conn.r.data <+: next ∧ conn.r.data ≠ next)) ∧
    ∃ conn, receiveAll allocate (matchingDecoder order) onPacketComplete (connected handler) chunks = some conn ∧
      conn.handler = handled onPacketComplete (buildings.map (Building.bytes order)) handler ∧ conn.r.data = [] := by
  have built : ∀ packet ∈ buildings.map (Building.bytes order), Built order packet := by
    intro packet member
    obtain ⟨building, listed, rfl⟩ := List.mem_map.mp member
    exact Building.built (defined building listed)
  have recognised : ∀ packet ∈ buildings.map (Building.bytes order), Recognised (matchingDecoder order).verdict packet :=
    fun packet member => built_recognised (built packet member)
  have small : ∀ packet ∈ buildings.map (Building.bytes order), packet.length < 10240 :=
    fun packet member => Nat.lt_of_le_of_lt (built packet member).small (by decide)
  have run : ∀ first rest, chunks = first ++ rest → ∃ conn delivered pending,
      receiveAll allocate (matchingDecoder order) onPacketComplete (connected handler) first = some conn ∧
        Drained onPacketComplete (connected handler) delivered pending conn ∧
        Progress (buildings.map (Building.bytes order)) first.flatten delivered pending := by
    intro first rest split
    have front : [] ++ first.flatten <+: (buildings.map (Building.bytes order)).flatten := by
      rw [← cut, split]
      simp
    have bounded : ∀ chunk ∈ first, chunk.length ≤ maxWebRecvLen :=
      fun chunk member => received chunk (by simp [split, member])
    have fresh : (connected handler).r.Holds [] := RawCache.empty_holds
    simpa using receiveAll_progress serves succeeds recognised small bounded (Progress.start _) fresh front
  refine ⟨fun first rest split => ?_, ?_⟩
  · obtain ⟨conn, delivered, pending, ran, result, progress⟩ := run first rest split
    obtain ⟨later, all, next⟩ := progress.next
    have data := result.holds.data
    refine ⟨conn, ran, (fun error => nomatch result.stage error), result.inputEnabled, delivered, later, all,
      result.handler, ?_, ?_, ?_⟩
    · simpa [data] using progress.bytes
    · simpa [data] using progress.pending_length (by decide) small
    · simpa [data] using next
  · obtain ⟨conn, delivered, pending, ran, result, progress⟩ := run chunks [] (by simp)
    rw [cut] at progress
    obtain ⟨rfl, rfl⟩ := progress.finish fun packet member => (recognised packet member).nonempty
    exact ⟨conn, ran, result.handler, result.holds.data⟩

/-- A report with one integer. -/
def shortReport : Building := ⟨257, 2, 1, [.int 7], ⟨fun _ => 0, 0, 0, []⟩⟩

/-- A text with a byte put before it, in a buffer that held another packet. -/
def namedReport : Building := ⟨513, 2, 1, [.string [72, 105], .insertByte 9], ⟨fun _ => 255, 40, 12, []⟩⟩

/-- Three reports: the first piece ends in a header, the second in the header of the next report. -/
def cutReports : List (List UInt8) :=
  [[0, 11, 66], [89, 2, 1, 1, 1, 0, 0, 0, 0, 7, 0, 15, 66, 89, 2],
    [1, 2, 1, 0, 9, 0, 0, 0, 3, 72, 105, 0, 0, 11, 66, 89, 2, 1, 1, 1, 0, 0, 0, 0, 7]]

/-- The reports cut inside their headers, with a handler that collects the packets. -/
theorem framing_inverts_building_cut :
    ∃ early conn : SocketHandler (List (List UInt8)),
      receiveAll (fun size => some (RawCache.fitBlockSize size)) (matchingDecoder .network)
          (fun packets packet => (0, packets ++ [packet])) (connected []) (cutReports.take 2) = some early ∧
        early.stage ≠ .dataError ∧ early.inputEnabled = true ∧
      receiveAll (fun size => some (RawCache.fitBlockSize size)) (matchingDecoder .network)
          (fun packets packet => (0, packets ++ [packet])) (connected []) cutReports = some conn ∧
        conn.handler = [[0, 11, 66, 89, 2, 1, 1, 1, 0, 0, 0, 0, 7],
          [0, 15, 66, 89, 2, 1, 2, 1, 0, 9, 0, 0, 0, 3, 72, 105, 0], [0, 11, 66, 89, 2, 1, 1, 1, 0, 0, 0, 0, 7]] ∧
        conn.r.data = [] := by
  have short : shortReport.bytes .network = [0, 11, 66, 89, 2, 1, 1, 1, 0, 0, 0, 0, 7] := by decide
  have named : namedReport.bytes .network = [0, 15, 66, 89, 2, 1, 2, 1, 0, 9, 0, 0, 0, 3, 72, 105, 0] := by decide
  have outcome := framing_inverts_building .network RawCache.fitBlockSize_serves
    (fun packets packet => (0, packets ++ [packet])) (fun _ _ => rfl) [shortReport, namedReport, shortReport]
    (by simp [Building.Defined, shortReport, namedReport, Write.Defined]) cutReports
    (by simp [cutReports, maxWebRecvLen]) (by simp [short, named, cutReports]) []
  obtain ⟨early, first, stage, enabled, _⟩ := outcome.1 (cutReports.take 2) (cutReports.drop 2) (List.take_append_drop 2 _).symm
  obtain ⟨conn, whole, handler, empty⟩ := outcome.2
  refine ⟨early, conn, first, stage, enabled, whole, ?_, empty⟩
  simpa [short, named, handled] using handler

end SocketHandler

end TeenpattiUserServer.Net
