import TeenpattiUserServer.Net.SocketHandler

/-! `handle_input` on the results of `recv`, with its shortcut for policy requests,
and what it makes of the same stream cut in different ways. -/

namespace TeenpattiUserServer.Net

open Bytes Packet Framing

/-- `<policy-file-request/>` with its terminator. -/
def policyRequest : List UInt8 :=
  [60, 112, 111, 108, 105, 99, 121, 45, 102, 105, 108, 101, 45, 114, 101, 113, 117, 101, 115, 116, 47, 62, 0]

/-- 23 bytes that start with `<p`. -/
def startsPolicy (bytes : List UInt8) : Bool :=
  decide (bytes.length = 23) && decide (bytes[0]? = some 60) && decide (bytes[1]? = some 112)

/-- `InputNotify` keeps the connection after these stages and closes it after all others. -/
def ConnState.keeps : ConnState → Bool
  | .dataRecving | .idle | .recvDone => true
  | _ => false

namespace SocketHandler

variable {Handler : Type}

/-- `handle_input` after a `recv` that took these bytes. The shortcut looks at them
alone, whatever is in the cache. -/
def handleInput (allocate : Nat → Option Nat) (decoder : StreamDecoder)
    (onPacketComplete : Handler → List UInt8 → Int × Handler) (conn : SocketHandler Handler) (bytes : List UInt8) :
    Option (SocketHandler Handler) :=
  if startsPolicy bytes then
    if bytes = policyRequest then some { conn with stage := .xmlPolicy }
    else some { conn with stage := .dataError }
  else receive allocate decoder onPacketComplete conn bytes

/-- The results of `recv` one after another, until `InputNotify` closes the connection. -/
def inputAll (allocate : Nat → Option Nat) (decoder : StreamDecoder)
    (onPacketComplete : Handler → List UInt8 → Int × Handler) :
    SocketHandler Handler → List (List UInt8) → Option (SocketHandler Handler)
  | conn, [] => some conn
  | conn, piece :: pieces =>
    (handleInput allocate decoder onPacketComplete conn piece).bind fun after =>
      if after.stage.keeps then inputAll allocate decoder onPacketComplete after pieces else some after

/-- The handler, which also notes the packets it was given. -/
def noting (onPacketComplete : Handler → List UInt8 → Int × Handler) (state : List (List UInt8) × Handler)
    (packet : List UInt8) : Int × List (List UInt8) × Handler :=
  let (ret, handler) := onPacketComplete state.2 packet
  (ret, state.1 ++ [packet], handler)

end SocketHandler

/-- The stream in non-empty pieces that fit the receive buffer. -/
structure Cut (stream : List UInt8) (pieces : List (List UInt8)) : Prop where
  joined : pieces.flatten = stream
  nonempty : ∀ piece ∈ pieces, piece ≠ []
  fits : ∀ piece ∈ pieces, piece.length ≤ maxWebRecvLen

/-- The complete packets of a stream, and whether the decoder refuses it. -/
def told (decoder : StreamDecoder) (stream : List UInt8) : List (List UInt8) × Bool :=
  ((whole decoder.verdict stream).frames, (whole decoder.verdict stream).failed)

/-- The first piece that takes the shortcut, unless the decoder refuses the stream
before: the bytes received before it, and whether it is the policy request. -/
def shortcut (decoder : StreamDecoder) : List UInt8 → List (List UInt8) → Option (List UInt8 × Bool)
  | _, [] => none
  | received, piece :: pieces =>
    if startsPolicy piece then some (received, decide (piece = policyRequest))
    else if (whole decoder.verdict (received ++ piece)).failed then none
    else shortcut decoder (received ++ piece) pieces

/-- Where the shortcut makes a difference: the packets complete before it, and
whether it counts as a data error. -/
def interruption (decoder : StreamDecoder) (stream : List UInt8) (pieces : List (List UInt8)) :
    Option (List (List UInt8) × Bool) :=
  (shortcut decoder [] pieces).bind fun (received, policy) =>
    let early := ((whole decoder.verdict received).frames, !policy)
    if early = told decoder stream then none else some early

namespace SocketHandler

variable {Handler : Type} {decoder : StreamDecoder} {onPacketComplete : Handler → List UInt8 → Int × Handler}

private theorem handled_noting (packets : List (List UInt8)) (state : List (List UInt8) × Handler) :
    handled (noting onPacketComplete) packets state = (state.1 ++ packets, handled onPacketComplete packets state.2) := by
  induction packets generalizing state with
  | nil => simp [handled]
  | cons packet packets ih =>
    rw [handled, List.foldl_cons]
    refine (ih _).trans ?_
    simp [noting, handled]

/-- What has been noted, and whether the connection met a data error. -/
def observed (conn : SocketHandler (List (List UInt8) × Handler)) : List (List UInt8) × Bool :=
  (conn.handler.1, decide (conn.stage = .dataError))

/-- The packets of the bytes received so far have been noted, and the rest is kept. -/
structure Awaits (decoder : StreamDecoder) (received : List UInt8)
    (conn : SocketHandler (List (List UInt8) × Handler)) : Prop where
  noted : conn.handler.1 = (whole decoder.verdict received).frames
  holds : conn.r.Holds (whole decoder.verdict received).rest
  fine : (whole decoder.verdict received).failed = false
  keeps : conn.stage.keeps = true

private theorem Awaits.start (handler : Handler) : Awaits decoder [] (connected ([], handler)) :=
  ⟨rfl, RawCache.empty_holds, rfl, rfl⟩

/-- A piece that does not take the shortcut is received as part of the stream. -/
private theorem Awaits.further {allocate : Nat → Option Nat} (serves : RawCache.Serves allocate)
    (succeeds : ∀ handler packet, (onPacketComplete handler packet).1 = 0) {order : Order}
    {conn : SocketHandler (List (List UInt8) × Handler)} {received piece : List UInt8}
    (awaits : Awaits (matchingDecoder order) received conn) (fits : piece.length ≤ maxWebRecvLen)
    (plain : startsPolicy piece = false) :
    ∃ after, handleInput allocate (matchingDecoder order) (noting onPacketComplete) conn piece = some after ∧
      after.handler.1 = (whole (matchingDecoder order).verdict (received ++ piece)).frames ∧
      if (whole (matchingDecoder order).verdict (received ++ piece)).failed then after.stage = .dataError
      else Awaits (matchingDecoder order) (received ++ piece) after := by
  have settled := matchingDecoder_settled order
  have waiting : (whole (matchingDecoder order).verdict received).rest.length < 10240 := by
    rcases settled.whole_rest awaits.fine with empty | waits
    · simp [empty]
    · exact matchingDecoder_waits waits
  obtain ⟨r, appended, fresh⟩ : ∃ r, conn.r.append allocate piece = some r ∧
      r.Holds ((whole (matchingDecoder order).verdict received).rest ++ piece) :=
    awaits.holds.append serves (by omega)
  let filled : SocketHandler (List (List UInt8) × Handler) := { conn with r }
  have filledHolds : filled.r.Holds _ := fresh
  have succeedsNoting : ∀ state packet, (noting onPacketComplete state packet).1 = 0 :=
    fun state packet => succeeds state.2 packet
  obtain ⟨after, ran, obeyed⟩ := @parseLoop_obeys _ (matchingDecoder order) _ _ _ succeedsNoting filledHolds _
    (Nat.le_of_eq fresh.length.symm)
  rw [settled.drain_whole (Nat.le_of_eq fresh.length.symm)] at obeyed
  have joined := settled.whole_append received piece
  rw [awaits.fine] at joined
  simp only [Bool.false_eq_true, if_false] at joined
  have noted : after.handler.1 = (whole (matchingDecoder order).verdict (received ++ piece)).frames := by
    rw [obeyed.handler, handled_noting, joined]
    exact congrArg (· ++ _) awaits.noted
  have stage := obeyed.stage
  refine ⟨after, ?_, noted, ?_⟩
  · rw [handleInput, if_neg (by simp [plain]), receive, appended]
    exact ran
  · rw [joined]
    by_cases failed : (whole (matchingDecoder order).verdict
        ((whole (matchingDecoder order).verdict received).rest ++ piece)).failed
    · rw [if_pos failed] at stage ⊢
      exact stage
    · rw [if_neg failed] at stage ⊢
      refine ⟨noted, ?_, ?_, ?_⟩
      · rw [joined]
        exact obeyed.holds
      · rw [joined]
        simpa using failed
      · rcases stage with same | later | done
        · rw [same]
          exact awaits.keeps
        · rw [later]
          rfl
        · rw [done]
          rfl

/-- A run notes what the whole stream holds, unless a piece takes the shortcut. -/
private theorem inputAll_observed {allocate : Nat → Option Nat} (serves : RawCache.Serves allocate)
    (succeeds : ∀ handler packet, (onPacketComplete handler packet).1 = 0) {order : Order}
    {conn : SocketHandler (List (List UInt8) × Handler)} {received : List UInt8} {pieces : List (List UInt8)}
    (awaits : Awaits (matchingDecoder order) received conn) (fits : ∀ piece ∈ pieces, piece.length ≤ maxWebRecvLen) :
    ∃ after, inputAll allocate (matchingDecoder order) (noting onPacketComplete) conn pieces = some after ∧
      observed after = match shortcut (matchingDecoder order) received pieces with
        | none => told (matchingDecoder order) (received ++ pieces.flatten)
        | some (early, policy) => ((whole (matchingDecoder order).verdict early).frames, !policy) := by
  induction pieces generalizing conn received with
  | nil =>
    have fine : conn.stage ≠ .dataError := fun error => by
      have keeps := awaits.keeps
      rw [error] at keeps
      simp [ConnState.keeps] at keeps
    exact ⟨conn, rfl, by simp [observed, shortcut, told, awaits.noted, awaits.fine, fine]⟩
  | cons piece pieces ih =>
    have small := fits piece (by simp)
    by_cases policy : startsPolicy piece
    · by_cases request : piece = policyRequest
      · subst request
        refine ⟨{ conn with stage := .xmlPolicy }, ?_, ?_⟩
        · simp [inputAll, handleInput, policy, ConnState.keeps]
        · simp [observed, shortcut, policy, awaits.noted]
      · refine ⟨{ conn with stage := .dataError }, ?_, ?_⟩
        · simp [inputAll, handleInput, policy, request, ConnState.keeps]
        · simp [observed, shortcut, policy, request, awaits.noted]
    · have plain : startsPolicy piece = false := by simpa using policy
      obtain ⟨after, ran, noted, next⟩ := awaits.further serves succeeds small plain
      simp only [inputAll, ran, Option.bind_some, shortcut, plain]
      by_cases failed : (whole (matchingDecoder order).verdict (received ++ piece)).failed
      · rw [if_pos failed] at next
        have joined := (matchingDecoder_settled order).whole_append (received ++ piece) pieces.flatten
        rw [if_pos failed, List.append_assoc] at joined
        refine ⟨after, by simp [next, ConnState.keeps], ?_⟩
        simp [observed, failed, told, List.flatten_cons, joined, noted, next]
      · rw [if_neg failed] at next
        obtain ⟨last, ranOn, result⟩ := ih next (fun later member => fits later (by simp [member]))
        refine ⟨last, by simp [next.keeps, ranOn], ?_⟩
        simpa [failed] using result

/-- Two runs note the same packets and agree about the data error. -/
def Agree (one other : SocketHandler (List (List UInt8) × Handler)) : Prop :=
  one.handler.1 = other.handler.1 ∧ (one.stage = .dataError ↔ other.stage = .dataError)

private theorem agree_iff_observed (one other : SocketHandler (List (List UInt8) × Handler)) :
    Agree one other ↔ observed one = observed other := by
  simp [Agree, observed]

/-- Two ways of cutting a stream agree exactly when both are interrupted alike, or neither is. -/
theorem cuttings_agree_iff (order : Order) {allocate : Nat → Option Nat} (serves : RawCache.Serves allocate)
    (onPacketComplete : Handler → List UInt8 → Int × Handler)
    (succeeds : ∀ handler packet, (onPacketComplete handler packet).1 = 0) {stream : List UInt8}
    {first second : List (List UInt8)} (cutFirst : Cut stream first) (cutSecond : Cut stream second)
    (handler : Handler) :
    ∃ one other,
      inputAll allocate (matchingDecoder order) (noting onPacketComplete) (connected ([], handler)) first = some one ∧
      inputAll allocate (matchingDecoder order) (noting onPacketComplete) (connected ([], handler)) second = some other ∧
      (Agree one other ↔
        interruption (matchingDecoder order) stream first = interruption (matchingDecoder order) stream second) := by
  have run : ∀ pieces, Cut stream pieces → ∃ after,
      inputAll allocate (matchingDecoder order) (noting onPacketComplete) (connected ([], handler)) pieces = some after ∧
        observed after = (interruption (matchingDecoder order) stream pieces).getD (told (matchingDecoder order) stream) ∧
        interruption (matchingDecoder order) stream pieces ≠ some (told (matchingDecoder order) stream) := by
    intro pieces cut
    have awaits : Awaits (matchingDecoder order) [] (connected ([], handler)) := Awaits.start handler
    obtain ⟨after, ran, result⟩ := inputAll_observed serves succeeds awaits cut.fits
    rw [List.nil_append, cut.joined] at result
    refine ⟨after, ran, ?_⟩
    rw [result]
    cases found : shortcut (matchingDecoder order) [] pieces with
    | none => simp [interruption, found]
    | some place =>
      obtain ⟨early, policy⟩ := place
      by_cases same : ((whole (matchingDecoder order).verdict early).frames, !policy) = told (matchingDecoder order) stream
      · simp [interruption, found, same]
      · simp [interruption, found, same]
  obtain ⟨one, ranOne, seenOne, properOne⟩ := run first cutFirst
  obtain ⟨other, ranOther, seenOther, properOther⟩ := run second cutSecond
  refine ⟨one, other, ranOne, ranOther, ?_⟩
  rw [agree_iff_observed, seenOne, seenOther]
  cases oneCut : interruption (matchingDecoder order) stream first with
  | none =>
    cases otherCut : interruption (matchingDecoder order) stream second with
    | none => simp
    | some seen =>
      have different : told (matchingDecoder order) stream ≠ seen := fun same => properOther (by rw [otherCut, same])
      simpa using different
  | some seen =>
    cases otherCut : interruption (matchingDecoder order) stream second with
    | none =>
      have different : seen ≠ told (matchingDecoder order) stream := fun same => properOne (by rw [oneCut, same])
      simpa using different
    | some later => simp

/-- Pieces that do not look like a policy request interrupt nothing. -/
theorem interruption_plain {decoder : StreamDecoder} (stream : List UInt8) {pieces : List (List UInt8)}
    (plain : ∀ piece ∈ pieces, startsPolicy piece = false) : interruption decoder stream pieces = none := by
  have passes : ∀ received, shortcut decoder received pieces = none := by
    induction pieces with
    | nil => exact fun _ => rfl
    | cons piece pieces ih =>
      intro received
      have later := ih (fun other member => plain other (by simp [member]))
      simp [shortcut, plain piece (by simp), later]
  rw [interruption, passes, Option.bind_none]

/-- A packet with one string of 23 bytes, terminator included, that starts with `<p`. -/
def taggedReport : List UInt8 :=
  [0, 34, 66, 89, 2, 1, 1, 1, 0, 0, 0, 0, 23, 60, 112, 62, 97, 97, 97, 97, 97, 97, 97, 97, 97, 97, 97, 97, 97, 97,
    97, 97, 97, 97, 97, 0]

private theorem cut_whole : Cut taggedReport [taggedReport] := ⟨by simp, by decide, by decide⟩

private theorem cut_before_string : Cut taggedReport [taggedReport.take 13, taggedReport.drop 13] :=
  ⟨by simp, by decide, by decide⟩

/-- In one piece the packet is handled; cut before the string, the connection is dropped. -/
theorem cuttings_disagree :
    Cut taggedReport [taggedReport] ∧ Cut taggedReport [taggedReport.take 13, taggedReport.drop 13] ∧
      ¬ policyRequest <+: taggedReport ∧
      ∃ one other : SocketHandler (List (List UInt8) × Unit),
        inputAll (fun size => some (RawCache.fitBlockSize size)) BoyaaDecoder (noting fun state _ => (0, state))
            (connected ([], ())) [taggedReport] = some one ∧
          inputAll (fun size => some (RawCache.fitBlockSize size)) BoyaaDecoder (noting fun state _ => (0, state))
            (connected ([], ())) [taggedReport.take 13, taggedReport.drop 13] = some other ∧
          one.handler.1 = [taggedReport] ∧ one.stage ≠ .dataError ∧ other.handler.1 = [] ∧ other.stage = .dataError ∧
          ¬ Agree one other := by
  refine ⟨cut_whole, cut_before_string, by decide, _, _, rfl, rfl, by decide, by decide, by decide, by decide, ?_⟩
  rintro ⟨_, alike⟩
  exact absurd (alike.mpr (by decide)) (by decide)

/-- The same packet cut inside its header arrives like the uncut one. -/
theorem cuttings_agree_iff_tagged :
    Cut taggedReport [taggedReport.take 5, taggedReport.drop 5] ∧
      ∃ one other : SocketHandler (List (List UInt8) × Unit),
        inputAll (fun size => some (RawCache.fitBlockSize size)) (matchingDecoder .network)
            (noting fun state _ => (0, state)) (connected ([], ())) [taggedReport] = some one ∧
          inputAll (fun size => some (RawCache.fitBlockSize size)) (matchingDecoder .network)
            (noting fun state _ => (0, state)) (connected ([], ())) [taggedReport.take 5, taggedReport.drop 5] =
              some other ∧
          Agree one other := by
  have cut : Cut taggedReport [taggedReport.take 5, taggedReport.drop 5] := ⟨by simp, by decide, by decide⟩
  obtain ⟨one, other, ranOne, ranOther, agree⟩ := cuttings_agree_iff .network RawCache.fitBlockSize_serves
    (fun (state : Unit) _ => (0, state)) (fun _ _ => rfl) cut_whole cut ()
  refine ⟨cut, one, other, ranOne, ranOther, agree.mpr ?_⟩
  rw [interruption_plain _ (by decide), interruption_plain _ (by decide)]

end SocketHandler

end TeenpattiUserServer.Net
