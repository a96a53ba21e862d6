import TeenpattiUserServer.Net.SendQueue

/-! The parse loop with a handler that sends: what is delivered, and what becomes of
the handler, when the `::send` calls in between succeed and when one of them fails. -/

namespace TeenpattiUserServer.Net

open Bytes Framing

/-- One of the calls reaches `::send` and is answered with a fatal error. -/
def Fails (sendings : List Sending) : Prop := ∃ sending ∈ sendings, sending.buff ≠ [] ∧ sending.answer = .fatal

/-- Whether the queue is empty after the calls, none of which fails. -/
def flushed : List Sending → Bool → Bool
  | [], empty => empty
  | sending :: sendings, empty =>
    flushed sendings (if sending.buff = [] then empty else decide (sending.answer = .full))

/-- What a handler does with packets: those it is given until it fails, and its calls of `Send`. -/
structure Handling (Handler : Type) where
  packets : List (List UInt8)
  sendings : List Sending
  failed : Bool
  handler : Handler

def handling {Handler : Type} (onPacketComplete : Handler → List UInt8 → List Sending × Int × Handler) :
    Handler → List (List UInt8) → Handling Handler
  | handler, [] => ⟨[], [], false, handler⟩
  | handler, packet :: packets =>
    let (sendings, ret, handler) := onPacketComplete handler packet
    if ret < 0 then ⟨[packet], sendings, true, handler⟩
    else
      let later := handling onPacketComplete handler packets
      ⟨packet :: later.packets, sendings ++ later.sendings, later.failed, later.handler⟩

theorem fails_append (first second : List Sending) : Fails (first ++ second) ↔ Fails first ∨ Fails second := by
  simp [Fails, or_and_right, exists_or]

theorem flushed_append (first second : List Sending) (empty : Bool) :
    flushed (first ++ second) empty = flushed second (flushed first empty) := by
  induction first generalizing empty with
  | nil => rfl
  | cons sending first ih => exact ih _

/-- A handler that never returns an error is given every packet. -/
theorem handling_succeeds {Handler : Type} {onPacketComplete : Handler → List UInt8 → List Sending × Int × Handler}
    (succeeds : ∀ handler packet, 0 ≤ (onPacketComplete handler packet).2.1) (handler : Handler)
    (packets : List (List UInt8)) : (handling onPacketComplete handler packets).failed = false := by
  induction packets generalizing handler with
  | nil => rfl
  | cons packet packets ih =>
    have ret := succeeds handler packet
    simp only [handling]
    rw [if_neg (Int.not_lt.mpr ret)]
    exact ih _

namespace Connection

variable {Handler : Type} {allocate : Nat → Option Nat} {conn after : Connection Handler}
  {pending queue content : List UInt8} {sendings : List Sending} {decoder : StreamDecoder}
  {onPacketComplete : Handler → List UInt8 → List Sending × Int × Handler}

/-- The lengths given to `Send` are of type `int`. -/
def Small (sendings : List Sending) : Prop := ∀ sending ∈ sendings, sending.buff.length < 2 ^ 31

/-- Calls without a fatal answer leave the handler ready. -/
theorem sendAll_ready (grants : ∀ size, RawCache.Grants allocate size) (ready : Ready conn pending queue)
    (small : Small sendings) (fine : ¬ Fails sendings) (sent : sendAll allocate sendings conn = some after) :
    ∃ left, Ready after pending left ∧ (decide (left = []) = flushed sendings (decide (queue = []))) ∧
      after.acts = conn.acts ∧ after.handler = conn.handler ∧ after.r = conn.r := by
  induction sendings generalizing conn queue with
  | nil =>
    obtain rfl := Option.some.inj sent
    exact ⟨queue, ready, rfl, rfl, rfl, rfl⟩
  | cons sending sendings ih =>
    obtain ⟨buff, answer⟩ := sending
    rw [sendAll, if_neg (by simp [ready.alive])] at sent
    obtain ⟨middle, first, rest⟩ := Option.bind_eq_some_iff.mp sent
    have laterSmall : Small sendings := fun other member => small other (by simp [member])
    have laterFine : ¬ Fails sendings := fun ⟨other, member, failing⟩ => fine ⟨other, by simp [member], failing⟩
    by_cases empty : buff = []
    · subst empty
      obtain rfl : conn = middle := by simpa [send] using first
      simpa [flushed] using ih ready laterSmall laterFine rest
    · have notFatal : answer ≠ .fatal := fun fatal => fine ⟨⟨buff, answer⟩, by simp, empty, fatal⟩
      have pushes := send_pushes ready empty (small ⟨buff, answer⟩ (by simp)) grants notFatal first
      have joined : queue ++ buff ≠ [] := List.append_ne_nil_of_right_ne_nil queue empty
      obtain ⟨left, further, last, acts, handler, r⟩ := ih (pushes.ready ready joined) laterSmall laterFine rest
      refine ⟨left, further, ?_, acts.trans pushes.acts, handler.trans pushes.handler, r.trans pushes.r⟩
      simpa [flushed, empty, SendResult.left_eq_nil joined] using last

/-- A fatal answer closes the handler and ends the calls that are followed. -/
theorem sendAll_fatal (grants : ∀ size, RawCache.Grants allocate size) (ready : Ready conn pending queue)
    (small : Small sendings) (fails : Fails sendings) (sent : sendAll allocate sendings conn = some after) :
    after.released = true ∧ after.acts = conn.acts ++ [.onClose, .released] := by
  induction sendings generalizing conn queue with
  | nil => simp [Fails] at fails
  | cons sending sendings ih =>
    obtain ⟨buff, answer⟩ := sending
    rw [sendAll, if_neg (by simp [ready.alive])] at sent
    obtain ⟨middle, first, rest⟩ := Option.bind_eq_some_iff.mp sent
    have laterSmall : Small sendings := fun other member => small other (by simp [member])
    have here := small ⟨buff, answer⟩ (by simp)
    by_cases failing : buff ≠ [] ∧ answer = .fatal
    · obtain ⟨nonempty, rfl⟩ := failing
      obtain ⟨released, acts⟩ := send_fatal ready nonempty here grants first
      cases sendings with
      | nil =>
        obtain rfl := Option.some.inj rest
        exact ⟨released, acts⟩
      | cons next others =>
        rw [sendAll, if_pos released] at rest
        obtain rfl := Option.some.inj rest
        exact ⟨released, acts⟩
    · have laterFails : Fails sendings := by
        obtain ⟨other, member, nonempty, fatal⟩ := fails
        rcases List.mem_cons.mp member with rfl | later
        · exact absurd ⟨nonempty, fatal⟩ failing
        · exact ⟨other, later, nonempty, fatal⟩
      by_cases empty : buff = []
      · subst empty
        obtain rfl : conn = middle := by simpa [send] using first
        exact ih ready laterSmall laterFails rest
      · have notFatal : answer ≠ .fatal := fun fatal => failing ⟨empty, fatal⟩
        have pushes := send_pushes ready empty here grants notFatal first
        have joined : queue ++ buff ≠ [] := List.append_ne_nil_of_right_ne_nil queue empty
        obtain ⟨released, acts⟩ := ih (pushes.ready ready joined) laterSmall laterFails rest
        exact ⟨released, acts.trans (by rw [pushes.acts])⟩

/-- The packet is handed over. -/
def given (packet : List UInt8) (handler : Handler) (conn : Connection Handler) : Connection Handler :=
  { conn with handler, acts := conn.acts ++ [.delivered packet] }

theorem Ready.given (ready : Ready conn pending queue) (packet : List UInt8) (handler : Handler) :
    Ready (conn.given packet handler) pending queue :=
  ⟨ready.received, ready.queued, ready.applied, ready.input, ready.output, ready.alive⟩

/-- The handler after the packets of an outcome, no call of `Send` having failed. -/
structure Served (conn : Connection Handler) (queue : List UInt8) (outcome : Outcome UInt8)
    (work : Handling Handler) (after : Connection Handler) : Prop where
  acts : after.acts = conn.acts ++ work.packets.map .delivered
  handler : after.handler = work.handler
  alive : after.released = false
  stage : (after.stage = conn.stage ∧ outcome.frames = [] ∧ outcome.rest = []) ∨
    after.stage = .dataRecving ∨ after.stage = .recvDone ∨
    (after.stage = .dataError ∧ outcome.failed = true) ∨ (after.stage = .fatalError ∧ work.failed = true)
  ready : outcome.failed = false → work.failed = false → ∃ left, Ready after outcome.rest left ∧
    decide (left = []) = flushed work.sendings (decide (queue = []))

/-- The handler was released while it handled a packet, and then used. -/
structure Lost (conn after : Connection Handler) : Prop where
  released : after.released = true
  acts : ∃ packets : List (List UInt8),
    after.acts = conn.acts ++ packets.map .delivered ++ [.onClose, .released, .accessed]

private theorem parseLoop_stops (ready : Ready conn [] queue) {fuel : Nat} {work : Handling Handler}
    (idle : work = ⟨[], [], false, conn.handler⟩)
    (ran : parseLoop allocate decoder onPacketComplete (fuel + 1) conn = some after) :
    Served conn queue ⟨[], [], false⟩ work after := by
  have length := ready.received.dataLen_eq_zero.mpr rfl
  obtain rfl : conn = after := by simpa [parseLoop, length] using ran
  subst idle
  exact ⟨by simp, rfl, ready.alive, .inl ⟨rfl, rfl, rfl⟩, fun _ _ => ⟨queue, ready, rfl⟩⟩

/-- The packets the decoder takes from the cache are served, unless a `::send` fails. -/
theorem parseLoop_serves (grants : ∀ size, RawCache.Grants allocate size)
    (small : ∀ handler packet, Small (onPacketComplete handler packet).1) (ready : Ready conn content queue)
    {fuel : Nat} (enough : content.length ≤ fuel) {outcome : Outcome UInt8}
    (drained : drain decoder.verdict fuel content = outcome) {work : Handling Handler}
    (handled : handling onPacketComplete conn.handler outcome.frames = work)
    (ran : parseLoop allocate decoder onPacketComplete (fuel + 1) conn = some after) :
    (Fails work.sendings → Lost conn after) ∧ (¬ Fails work.sendings → Served conn queue outcome work after) := by
  induction fuel generalizing conn content queue outcome work with
  | zero =>
    have none : content = [] := List.length_eq_zero_iff.mp (by omega)
    subst none drained handled
    have served : Served conn queue _ ⟨[], [], false, conn.handler⟩ after := parseLoop_stops ready rfl ran
    exact ⟨fun fails => by simp [Fails, handling, drain] at fails, fun _ => served⟩
  | succ fuel ih =>
    cases content with
    | nil =>
      subst drained handled
      have served : Served conn queue _ ⟨[], [], false, conn.handler⟩ after := parseLoop_stops ready rfl ran
      exact ⟨fun fails => by simp [Fails, handling, drain] at fails, fun _ => served⟩
    | cons byte rest =>
      have length : conn.r.dataLen ≠ 0 := fun zero => by simp [ready.received.dataLen_eq_zero] at zero
      have data := ready.received.data
      rw [parseLoop] at ran
      simp only [length, if_false, data] at ran
      by_cases bad : decoder.parsePacket (byte :: rest) = -1
      · have verdict : decoder.verdict (byte :: rest) = .bad := by simp [StreamDecoder.verdict, bad]
        simp only [drain, verdict] at drained
        simp only [bad, if_true, Option.some.injEq] at ran
        subst drained handled ran
        exact ⟨fun fails => by simp [Fails, handling] at fails, fun _ => ⟨by simp [handling, disableInput], rfl,
          ready.alive, .inr (.inr (.inr (.inl ⟨rfl, rfl⟩))), by simp⟩⟩
      by_cases more : decoder.parsePacket (byte :: rest) = 0
      · have verdict : decoder.verdict (byte :: rest) = .more := by simp [StreamDecoder.verdict, more]
        simp only [drain, verdict] at drained
        rw [if_neg bad, if_pos more] at ran
        obtain rfl := Option.some.inj ran
        subst drained handled
        have waiting : Ready { conn with stage := .dataRecving } (byte :: rest) queue :=
          ⟨ready.received, ready.queued, ready.applied, ready.input, ready.output, ready.alive⟩
        exact ⟨fun fails => by simp [Fails, handling] at fails, fun _ => ⟨by simp [handling], rfl, ready.alive,
          .inr (.inl rfl), fun _ _ => ⟨queue, waiting, rfl⟩⟩⟩
      have verdict : decoder.verdict (byte :: rest) = .frame (decoder.parsePacket (byte :: rest)).toNat := by
        simp [StreamDecoder.verdict, bad, more]
      simp only [drain, verdict] at drained
      rw [if_neg bad, if_neg more] at ran
      obtain ⟨middle, sent, ranOn⟩ := Option.bind_eq_some_iff.mp ran
      clear ran
      rcases answer : onPacketComplete conn.handler
        ((byte :: rest).take (decoder.parsePacket (byte :: rest)).toNat) with ⟨sendings, ret, handler⟩
      have first : Small sendings := by
        have every := small conn.handler ((byte :: rest).take (decoder.parsePacket (byte :: rest)).toNat)
        rwa [answer] at every
      have range := SocketHandler.parsePacket_length decoder (byte :: rest)
      simp only [answer] at sent ranOn
      rw [← drained] at handled
      simp only [handling, answer] at handled
      generalize taken : (byte :: rest).take (decoder.parsePacket (byte :: rest)).toNat = packet at *
      have readyGiven := ready.given packet handler
      by_cases fails : Fails sendings
      · obtain ⟨released, acts⟩ := sendAll_fatal grants readyGiven first fails sent
        rw [if_pos released] at ranOn
        obtain rfl := Option.some.inj ranOn
        have failsAll : Fails work.sendings := by
          rw [← handled]
          split_ifs with negative
          · exact fails
          · exact (fails_append _ _).mpr (.inl fails)
        have lost : Lost conn middle.access := ⟨released, [packet], by simp [access, acts, given]⟩
        exact ⟨fun _ => lost, fun fine => absurd failsAll fine⟩
      obtain ⟨left, further, flush, acts, kept, _⟩ := sendAll_ready grants readyGiven first fails sent
      have same : middle.handler = handler := kept
      rw [if_neg (by simp [further.alive])] at ranOn
      by_cases negative : ret < 0
      · rw [if_pos negative] at ranOn handled
        obtain rfl := Option.some.inj ranOn
        subst handled
        refine ⟨fun failing => absurd failing fails, fun _ => ⟨by simp [acts, given], same, further.alive,
          .inr (.inr (.inr (.inr ⟨rfl, rfl⟩))), by simp⟩⟩
      rw [if_neg negative] at ranOn handled
      have nextReady : Ready { middle with
          stage := .recvDone, r := middle.r.skip (decoder.parsePacket (byte :: rest)).toNat }
          ((byte :: rest).drop (decoder.parsePacket (byte :: rest)).toNat) left :=
        ⟨further.received.skip _, further.queued, further.applied, further.input, further.output, further.alive⟩
      have shorter : ((byte :: rest).drop (decoder.parsePacket (byte :: rest)).toNat).length ≤ fuel := by
        rw [List.length_drop]
        omega
      obtain ⟨lost, served⟩ := ih nextReady shorter rfl rfl ranOn
      simp only [same] at lost served
      subst drained handled
      refine ⟨fun failing => ?_, fun fine => ?_⟩
      · obtain ⟨released, packets, later⟩ := lost ((fails_append _ _).mp failing |>.resolve_left fails)
        exact ⟨released, packet :: packets, by simp [later, acts, given]⟩
      · have done := served fun failing => fine ((fails_append _ _).mpr (.inr failing))
        refine ⟨by simp [done.acts, acts, given], done.handler, done.alive, ?_, fun whole kept => ?_⟩
        · rcases done.stage with ⟨recv, _⟩ | others
          · exact .inr (.inr (.inl recv))
          · exact .inr others
        · obtain ⟨last, final, empties⟩ := done.ready whole kept
          exact ⟨last, final, by rw [empties, flush, flushed_append]⟩

end Connection

end TeenpattiUserServer.Net
