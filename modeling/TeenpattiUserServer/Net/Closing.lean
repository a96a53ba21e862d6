import TeenpattiUserServer.Net.Serving

/-! A handler that is closed from inside `OnPacketComplete`: `Send` deletes it, and
`handle_input` goes on with it. -/

namespace TeenpattiUserServer.Net

open Bytes Framing

/-- `OnClose` is called at most once, and nothing is seen of the handler after it was released. -/
structure StaysClosed (acts : List Act) : Prop where
  once : acts.count .onClose ≤ 1
  last : ∀ before after, acts = before ++ .released :: after → after = []

/-- No sign of closing. -/
def Open (acts : List Act) : Prop := .onClose ∉ acts ∧ .released ∉ acts

variable {acts : List Act}

theorem Open.delivered (isOpen : Open acts) (packets : List (List UInt8)) : Open (acts ++ packets.map .delivered) := by
  simpa [Open] using isOpen

theorem staysClosed_open (isOpen : Open acts) : StaysClosed acts := by
  refine ⟨?_, fun before after split => ?_⟩
  · rw [List.count_eq_zero_of_not_mem isOpen.1]
    exact Nat.zero_le 1
  · exact absurd (by simp [split]) isOpen.2

theorem staysClosed_closed (isOpen : Open acts) : StaysClosed (acts ++ [.onClose, .released]) := by
  refine ⟨?_, fun before after split => ?_⟩
  · rw [List.count_append, List.count_eq_zero_of_not_mem isOpen.1]
    decide
  · rcases List.eq_nil_or_concat after with empty | ⟨others, last, rfl⟩
    · exact empty
    · have ends : acts ++ [.onClose] ++ [.released] = before ++ .released :: others ++ [last] := by simpa using split
      obtain ⟨front, _⟩ := List.append_inj' ends rfl
      have member : .released ∈ acts ++ [Act.onClose] := by simp [front]
      simp [isOpen.2] at member

theorem not_staysClosed_accessed (acts : List Act) : ¬ StaysClosed (acts ++ [.onClose, .released, .accessed]) := by
  intro stays
  have nothing := stays.last (acts ++ [.onClose]) [.accessed] (by simp)
  simp at nothing

namespace Connection

variable {Handler : Type} {allocate : Nat → Option Nat} {conn after : Connection Handler}
  {content queue : List UInt8} {decoder : StreamDecoder}
  {onPacketComplete : Handler → List UInt8 → List Sending × Int × Handler}

/-- The calls of `Send` that one `recv` gives rise to, with `content` already in the cache. -/
def replies (decoder : StreamDecoder) (onPacketComplete : Handler → List UInt8 → List Sending × Int × Handler)
    (handler : Handler) (content : List UInt8) (arrival : Arrival) : List Sending :=
  match arrival.recv with
  | .bytes received =>
    if startsPolicy received then
      if received = policyRequest then [⟨policyResponse, arrival.reply⟩] else []
    else (handling onPacketComplete handler (whole decoder.verdict (content ++ received)).frames).sendings
  | .closed | .again | .fatal => []

/-- The receive buffer is large enough for what was received. -/
def Arrival.Fits (arrival : Arrival) : Prop :=
  ∀ received, arrival.recv = .bytes received → received.length ≤ maxWebRecvLen

/-- `handle_input` loses the handler when a `::send` fails, and otherwise leaves it alive. -/
theorem handleInput_lost_or_alive (grants : ∀ size, RawCache.Grants allocate size)
    (small : ∀ handler packet, Small (onPacketComplete handler packet).1) (ready : Ready conn content queue)
    {arrival : Arrival} (fits : arrival.Fits)
    (ran : conn.handleInput allocate decoder onPacketComplete arrival = some after) :
    (Fails (replies decoder onPacketComplete conn.handler content arrival) → Lost conn after) ∧
      (¬ Fails (replies decoder onPacketComplete conn.handler content arrival) →
        after.released = false ∧ ∃ packets : List (List UInt8), after.acts = conn.acts ++ packets.map .delivered) := by
  obtain ⟨recv, reply⟩ := arrival
  have quiet : ∀ {other : Connection Handler}, other.released = conn.released → other.acts = conn.acts →
      (Fails [] → Lost conn other) ∧
        (¬ Fails [] → other.released = false ∧
          ∃ packets : List (List UInt8), other.acts = conn.acts ++ packets.map .delivered) :=
    fun released acts => ⟨fun fails => by simp [Fails] at fails,
      fun _ => ⟨released.trans ready.alive, [], by simpa using acts⟩⟩
  cases recv with
  | fatal =>
    obtain rfl := Option.some.inj ran
    exact quiet rfl rfl
  | again =>
    obtain rfl := Option.some.inj ran
    exact quiet rfl rfl
  | closed =>
    obtain rfl := Option.some.inj ran
    exact quiet rfl rfl
  | bytes received =>
    simp only [handleInput] at ran
    simp only [replies]
    by_cases policy : startsPolicy received
    · rw [if_pos policy] at ran ⊢
      by_cases request : received = policyRequest
      · rw [if_pos request] at ran ⊢
        obtain ⟨sent, sending, rfl⟩ := Option.map_eq_some_iff.mp ran
        have nonempty : policyResponse ≠ [] := by decide
        have size : policyResponse.length < 2 ^ 31 := by decide
        by_cases fatal : reply = .fatal
        · subst fatal
          obtain ⟨released, acts⟩ := send_fatal ready nonempty size grants sending
          have fails : Fails [⟨policyResponse, .fatal⟩] := ⟨⟨policyResponse, .fatal⟩, by simp, nonempty, rfl⟩
          rw [if_pos released]
          exact ⟨fun _ => ⟨released, [], by simp [access, acts]⟩, fun fine => absurd fails fine⟩
        · have pushes := send_pushes ready nonempty size grants fatal sending
          have alive := pushes.released.trans ready.alive
          rw [if_neg (by simp [alive])]
          refine ⟨fun fails => absurd ?_ fatal, fun _ => ⟨alive, [], by simp [pushes.acts]⟩⟩
          obtain ⟨sending, member, _, failing⟩ := fails
          rwa [List.mem_singleton.mp member] at failing
      · rw [if_neg request] at ran ⊢
        obtain rfl := Option.some.inj ran
        exact quiet rfl rfl
    · rw [if_neg policy] at ran ⊢
      obtain ⟨r, appended, loop⟩ := Option.bind_eq_some_iff.mp ran
      have bound := fits received rfl
      have filled : r.Holds (content ++ received) := ready.received.appended
        (by simp only [maxWebRecvLen] at bound; omega) (fun size _ => grants size) appended
      have filledReady : Ready { conn with r } (content ++ received) queue :=
        ⟨filled, ready.queued, ready.applied, ready.input, ready.output, ready.alive⟩
      rw [filled.length] at loop
      obtain ⟨lost, served⟩ := parseLoop_serves grants small filledReady (Nat.le_refl _) rfl rfl loop
      refine ⟨fun fails => ⟨(lost fails).released, (lost fails).acts⟩, fun fine => ?_⟩
      have done := served fine
      exact ⟨done.alive, _, done.acts⟩

/-- A closed handler stays closed exactly when no `::send` made while the bytes are
handled meets a fatal error. -/
theorem closed_stays_closed_iff (grants : ∀ size, RawCache.Grants allocate size)
    (small : ∀ handler packet, Small (onPacketComplete handler packet).1) (ready : Ready conn content queue)
    (isOpen : Open conn.acts) {arrival : Arrival} (fits : arrival.Fits) {state : PollerState}
    (ran : conn.inputNotify allocate decoder onPacketComplete arrival = some (state, after)) :
    StaysClosed after.acts ↔ ¬ Fails (replies decoder onPacketComplete conn.handler content arrival) := by
  obtain ⟨handled, input, result⟩ := Option.map_eq_some_iff.mp ran
  obtain ⟨lost, alive⟩ := handleInput_lost_or_alive grants small ready fits input
  by_cases fails : Fails (replies decoder onPacketComplete conn.handler content arrival)
  · obtain ⟨released, packets, acts⟩ := lost fails
    rw [if_pos released] at result
    cases result
    rw [acts]
    exact iff_of_false (not_staysClosed_accessed _) (not_not_intro fails)
  · obtain ⟨live, packets, acts⟩ := alive fails
    rw [if_neg (by simp [live])] at result
    have fresh : Open handled.acts := acts ▸ isOpen.delivered packets
    refine iff_of_true ?_ fails
    by_cases keeps : handled.stage.keeps
    · rw [if_pos keeps] at result
      cases result
      exact staysClosed_open fresh
    · rw [if_neg keeps] at result
      cases result
      exact staysClosed_closed fresh

/-- A packet with no body. -/
def shortPacket : List UInt8 := [0, 7, 66, 89, 2, 1, 0, 0, 0]

/-- The answer to the first of two packets fails: the deleted handler is used. -/
theorem closed_handler_used :
    ∃ after : Connection Unit,
      (connected ()).inputNotify RawCache.limitedPool BoyaaDecoder (fun _ _ => ([⟨[1], .fatal⟩], 0, ()))
          ⟨.bytes (shortPacket ++ shortPacket), .full⟩ = some (.complete, after) ∧
        after.acts = [.delivered shortPacket, .onClose, .released, .accessed] ∧ ¬ StaysClosed after.acts := by
  refine ⟨_, rfl, by decide, ?_⟩
  exact not_staysClosed_accessed [.delivered shortPacket]

/-- Two bytes for each packet: of the first answer one byte is taken, later ones are put off. -/
def twoBytes (count : Nat) (_ : List UInt8) : List Sending × Int × Nat :=
  ([⟨[1, 2], if count = 0 then .part 1 else .again⟩], 0, count + 1)

/-- Answers that are taken in part or put off leave the handler open. -/
theorem closed_stays_closed_iff_partly :
    ∃ (state : PollerState) (after : Connection Nat),
      (connected 0).inputNotify RawCache.limitedPool BoyaaDecoder twoBytes
          ⟨.bytes (shortPacket ++ shortPacket), .full⟩ = some (state, after) ∧
        StaysClosed after.acts := by
  have small : ∀ handler packet, Small (twoBytes handler packet).1 := by simp [Small, twoBytes]
  have fits : Arrival.Fits ⟨.bytes (shortPacket ++ shortPacket), .full⟩ := by
    rintro received same
    cases same
    decide
  have fine : ¬ Fails (replies BoyaaDecoder twoBytes 0 [] ⟨.bytes (shortPacket ++ shortPacket), .full⟩) := by
    unfold Fails
    decide
  obtain ⟨⟨state, after⟩, ran⟩ : ∃ result, (connected 0).inputNotify RawCache.limitedPool BoyaaDecoder twoBytes
      ⟨.bytes (shortPacket ++ shortPacket), .full⟩ = some result := ⟨_, rfl⟩
  refine ⟨state, after, ran, ?_⟩
  exact (closed_stays_closed_iff RawCache.limitedPool_grants small (connected_ready 0) (by simp [Open, connected])
    fits ran).mpr fine

end Connection

end TeenpattiUserServer.Net
