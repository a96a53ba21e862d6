import TeenpattiUserServer.Net.Closing

/-! One event of `epoll_wait` from the side of the bytes that are sent: what each packet
keeps of the handler and the bytes passed to `Send`, the whole event keeps of the handler
and the bytes taken by the kernel or still queued. -/

namespace TeenpattiUserServer.Net

open Bytes Framing

/-- The bytes of the calls of `Send`, one after another. -/
def bytesOf (sendings : List Sending) : List UInt8 := sendings.flatMap Sending.buff

namespace Connection

variable {Handler : Type} {allocate : Nat → Option Nat} {conn after : Connection Handler}
  {content pending queue received : List UInt8} {sendings : List Sending} {decoder : StreamDecoder}
  {onPacketComplete : Handler → List UInt8 → List Sending × Int × Handler}
  {inv : List UInt8 → List UInt8 → Handler → Prop}

/-- The connection with another state of its handler. -/
def handing {Other : Type} (handler : Other) (conn : Connection Handler) : Connection Other where
  r := conn.r
  w := conn.w
  stage := conn.stage
  newEvents := conn.newEvents
  oldEvents := conn.oldEvents
  handler := handler
  accepted := conn.accepted
  released := conn.released
  acts := conn.acts

theorem Ready.handing {Other : Type} (ready : Ready conn pending queue) (handler : Other) :
    Ready (conn.handing handler) pending queue :=
  ⟨ready.received, ready.queued, ready.applied, ready.input, ready.output, ready.alive⟩

/-- Calls without a fatal answer move no byte and lose none. -/
private theorem sendAll_bytes (grants : ∀ size, RawCache.Grants allocate size) (ready : Ready conn pending queue)
    (small : Small sendings) (fine : ¬ Fails sendings) (sent : sendAll allocate sendings conn = some after) :
    ∃ left, Ready after pending left ∧ after.accepted ++ left = conn.accepted ++ queue ++ bytesOf sendings ∧
      after.handler = conn.handler := by
  induction sendings generalizing conn queue with
  | nil =>
    obtain rfl := Option.some.inj sent
    exact ⟨queue, ready, (List.append_nil _).symm, rfl⟩
  | cons sending sendings ih =>
    obtain ⟨buff, answer⟩ := sending
    rw [sendAll, if_neg (by simp [ready.alive])] at sent
    obtain ⟨middle, first, rest⟩ := Option.bind_eq_some_iff.mp sent
    have laterSmall : Small sendings := fun other member => small other (List.mem_cons_of_mem _ member)
    have laterFine : ¬ Fails sendings := by
      rintro ⟨other, member, failing⟩
      exact fine ⟨other, List.mem_cons_of_mem _ member, failing⟩
    by_cases empty : buff = []
    · subst empty
      obtain rfl : conn = middle := by simpa [send] using first
      exact ih ready laterSmall laterFine rest
    · have notFatal : answer ≠ .fatal := fun fatal => fine ⟨_, List.mem_cons_self .., empty, fatal⟩
      have pushes := send_pushes ready empty (small _ (List.mem_cons_self ..)) grants notFatal first
      have joined : queue ++ buff ≠ [] := List.append_ne_nil_of_right_ne_nil queue empty
      obtain ⟨left, further, bytes, handler⟩ := ih (pushes.ready ready joined) laterSmall laterFine rest
      refine ⟨left, further, ?_, handler.trans pushes.handler⟩
      rw [bytes, pushes.bytes, bytesOf, bytesOf, List.flatMap_cons, List.append_assoc, List.append_assoc,
        List.append_assoc]

/-- `inv` speaks of the bytes in the cache, of all that were passed to `Send`, and of the handler.
Each packet keeps it, and no call of `Send` fails. -/
def KeptBy (decoder : StreamDecoder) (onPacketComplete : Handler → List UInt8 → List Sending × Int × Handler)
    (inv : List UInt8 → List UInt8 → Handler → Prop) : Prop :=
  ∀ {content sent handler sendings ret next}, inv content sent handler → 0 < decoder.parsePacket content →
    onPacketComplete handler (content.take (decoder.parsePacket content).toNat) = (sendings, ret, next) →
    Small sendings ∧ ¬ Fails sendings ∧ 0 ≤ ret ∧
      inv (content.drop (decoder.parsePacket content).toNat) (sent ++ bytesOf sendings) next

/-- No packet is complete in what is kept, and the decoder may have refused it. -/
def Undelivered (decoder : StreamDecoder) (kept : List UInt8) (failed : Bool) : Prop :=
  whole decoder.verdict kept = ⟨[], kept, failed⟩

private theorem undelivered_bad (bad : decoder.parsePacket content = -1) (nonempty : content ≠ []) :
    Undelivered decoder content true := by
  obtain ⟨item, items, rfl⟩ := List.exists_cons_of_ne_nil nonempty
  have verdict : decoder.verdict (item :: items) = .bad := by simp [StreamDecoder.verdict, bad]
  simp [Undelivered, whole, drain, verdict]

private theorem undelivered_more (more : decoder.parsePacket content = 0) : Undelivered decoder content false := by
  cases content with
  | nil => rfl
  | cons item items =>
    have verdict : decoder.verdict (item :: items) = .more := by simp [StreamDecoder.verdict, more]
    simp [Undelivered, whole, drain, verdict]

/-- What is left of a stream that is not refused waits for more. -/
theorem undelivered_rest (settled : Settled decoder.verdict) {stream : List UInt8}
    (fine : (whole decoder.verdict stream).failed = false) :
    Undelivered decoder (whole decoder.verdict stream).rest false := by
  rcases settled.whole_rest fine with empty | waits
  · rw [empty]
    rfl
  · generalize (whole decoder.verdict stream).rest = rest at waits
    cases rest with
    | nil => rfl
    | cons item items => simp [Undelivered, whole, drain, waits]

/-- The loop's invariant rule. -/
private theorem parseLoop_keeps (keeps : KeptBy decoder onPacketComplete inv)
    (grants : ∀ size, RawCache.Grants allocate size) (ready : Ready conn content queue)
    (holds : inv content (conn.accepted ++ queue) conn.handler) {fuel : Nat}
    (ran : parseLoop allocate decoder onPacketComplete fuel conn = some after) :
    ∃ kept failed left, Undelivered decoder kept failed ∧ inv kept (after.accepted ++ left) after.handler ∧
      if failed then after.released = false ∧ after.stage = .dataError
      else Ready after kept left ∧ (after.stage.keeps = true ∨ content = [] ∧ after.stage = conn.stage) := by
  induction fuel generalizing conn content queue with
  | zero => simp [parseLoop] at ran
  | succ fuel ih =>
    rw [parseLoop] at ran
    by_cases empty : conn.r.dataLen = 0
    · obtain rfl := ready.received.dataLen_eq_zero.mp empty
      rw [if_pos empty] at ran
      obtain rfl := Option.some.inj ran
      exact ⟨[], false, queue, whole_nil _, holds, ready, .inr ⟨rfl, rfl⟩⟩
    have nonempty : content ≠ [] := fun none => empty (ready.received.dataLen_eq_zero.mpr none)
    simp only [empty, if_false, ready.received.data] at ran
    by_cases bad : decoder.parsePacket content = -1
    · rw [if_pos bad] at ran
      obtain rfl := Option.some.inj ran
      exact ⟨content, true, queue, undelivered_bad bad nonempty, holds, ready.alive, rfl⟩
    by_cases more : decoder.parsePacket content = 0
    · rw [if_neg bad, if_pos more] at ran
      obtain rfl := Option.some.inj ran
      have waiting : Ready { conn with stage := .dataRecving } content queue :=
        ⟨ready.received, ready.queued, ready.applied, ready.input, ready.output, ready.alive⟩
      exact ⟨content, false, queue, undelivered_more more, holds, waiting, .inl rfl⟩
    rw [if_neg bad, if_neg more] at ran
    obtain ⟨middle, sent, ranOn⟩ := Option.bind_eq_some_iff.mp ran
    have positive : 0 < decoder.parsePacket content := by
      rcases SocketHandler.parsePacket_length decoder content with refused | range
      · exact absurd refused bad
      · omega
    rcases answer : onPacketComplete conn.handler (content.take (decoder.parsePacket content).toNat) with
      ⟨sendings, ret, handler⟩
    obtain ⟨small, fine, succeeds, next⟩ := keeps holds positive answer
    simp only [answer] at sent ranOn
    obtain ⟨left, further, bytes, same⟩ := sendAll_bytes grants (ready.given _ handler) small fine sent
    have handed : middle.handler = handler := same
    rw [if_neg (by simp [further.alive]), if_neg (Int.not_lt.mpr succeeds)] at ranOn
    have nextReady : Ready { middle with
        stage := .recvDone, r := middle.r.skip (decoder.parsePacket content).toNat }
        (content.drop (decoder.parsePacket content).toNat) left :=
      ⟨further.received.skip _, further.queued, further.applied, further.input, further.output, further.alive⟩
    have total : conn.accepted ++ queue ++ bytesOf sendings = middle.accepted ++ left := bytes.symm
    rw [total, ← handed] at next
    obtain ⟨kept, failed, last, undelivered, held, rest⟩ := ih nextReady next ranOn
    refine ⟨kept, failed, last, undelivered, held, ?_⟩
    cases failed with
    | true => exact rest
    | false =>
      obtain ⟨still, stage⟩ := rest
      refine ⟨still, .inl ?_⟩
      rcases stage with keeping | ⟨_, done⟩
      · exact keeping
      · rw [done]
        rfl

/-- What an event leaves. A closed handler has left a front of its bytes to the kernel, perhaps with some of
the policy response behind them. -/
structure Leaves (decoder : StreamDecoder) (inv : List UInt8 → List UInt8 → Handler → Prop) (kept sent : List UInt8)
    (failed : Bool) (after : Connection Handler) : Prop where
  undelivered : Undelivered decoder kept failed
  keeps : inv kept sent after.handler
  opened : after.released = false → failed = false ∧ ∃ queue, Ready after kept queue ∧ after.accepted ++ queue = sent
  closed : after.accepted <+: sent ++ policyResponse

private theorem Leaves.of_ready {kept : List UInt8} (undelivered : Undelivered decoder kept false)
    (ready : Ready after kept queue) (keeps : inv kept (after.accepted ++ queue) after.handler) :
    Leaves decoder inv kept (after.accepted ++ queue) false after where
  undelivered := undelivered
  keeps := keeps
  opened _ := ⟨rfl, queue, ready, rfl⟩
  closed := by
    rw [List.append_assoc]
    exact List.prefix_append ..

private theorem Leaves.of_released {kept sent : List UInt8} {failed : Bool}
    (undelivered : Undelivered decoder kept failed) (keeps : inv kept sent after.handler)
    (released : after.released = true) (front : after.accepted <+: sent) :
    Leaves decoder inv kept sent failed after where
  undelivered := undelivered
  keeps := keeps
  opened alive := by simp [released] at alive
  closed := front.trans (List.prefix_append ..)

private theorem Ready.apply (ready : Ready conn pending queue) : Ready conn.applyEvents pending queue :=
  ⟨ready.received, ready.queued, rfl, ready.input, ready.output, ready.alive⟩

/-- The output half of an event. -/
private theorem processOutput_leaves (undelivered : Undelivered decoder pending false)
    (ready : Ready conn pending queue) (keeps : inv pending (conn.accepted ++ queue) conn.handler)
    (output : Option SendResult) :
    Leaves decoder inv pending (conn.accepted ++ queue) false (conn.processOutput output) := by
  cases output with
  | none => exact .of_ready undelivered ready.apply keeps
  | some answer =>
    by_cases closing : queue = [] ∨ answer = .fatal
    · obtain ⟨complete, released, _⟩ := outputNotify_closes ready.queued closing
      have offered : (conn.processOutput (some answer)) = (conn.outputNotify answer).2 := by
        simp [processOutput, released]
      rw [offered]
      have untouched : (conn.outputNotify answer).2.accepted = conn.accepted ∧
          (conn.outputNotify answer).2.handler = conn.handler := by
        rcases closing with rfl | rfl
        · have none := ready.queued.dataLen_eq_zero.mpr rfl
          simp [outputNotify, handleOutput, none, close, disableOutput, applyEvents]
        · by_cases none : conn.w.dataLen = 0 <;>
            simp [outputNotify, handleOutput, none, close, disableOutput, disableInput, applyEvents]
      refine .of_released undelivered (by rwa [untouched.2]) released ?_
      rw [untouched.1]
      exact List.prefix_append ..
    · obtain ⟨nonempty, fine⟩ := not_or.mp closing
      obtain ⟨result, pushes⟩ := outputNotify_pushes ready.queued nonempty fine
      have still : Ready (conn.outputNotify answer).2 pending (answer.left queue) :=
        pushes.ready ⟨ready.received, ready.queued, ready.applied, ready.input, ready.output, ready.alive⟩ nonempty
      have total : (conn.outputNotify answer).2.accepted ++ answer.left queue = conn.accepted ++ queue := pushes.bytes
      have handler : (conn.outputNotify answer).2.handler = conn.handler := pushes.handler
      rw [← total] at keeps ⊢
      rw [← handler] at keeps
      by_cases full : answer = .full
      · have offered : conn.processOutput (some answer) = (conn.outputNotify answer).2 := by
          rw [if_pos full] at result
          simp [processOutput, result]
        rw [offered]
        exact .of_ready undelivered still keeps
      · have offered : conn.processOutput (some answer) = (conn.outputNotify answer).2.applyEvents := by
          simp [processOutput, still.alive, result, full]
        rw [offered]
        exact .of_ready undelivered still.apply keeps

/-- The bytes of an arrival that go into the cache. -/
def Arrival.piece (arrival : Arrival) : List UInt8 :=
  match arrival.recv with
  | .bytes received => if startsPolicy received then [] else received
  | .closed | .again | .fatal => []

/-- `::recv` takes at least one byte, and the answer to a policy request does not fail. -/
structure Arrival.Proper (arrival : Arrival) : Prop where
  fits : ∀ received, arrival.recv = .bytes received → received ≠ [] ∧ received.length ≤ maxWebRecvLen
  reply : arrival.reply ≠ .fatal

/-- The input half of an event. -/
private theorem inputNotify_leaves (keeps : KeptBy decoder onPacketComplete inv)
    (grants : ∀ size, RawCache.Grants allocate size) (undelivered : Undelivered decoder pending false)
    (ready : Ready conn pending queue) {arrival : Arrival} (proper : arrival.Proper)
    (holds : inv (pending ++ arrival.piece) (conn.accepted ++ queue) conn.handler) {state : PollerState}
    (ran : conn.inputNotify allocate decoder onPacketComplete arrival = some (state, after)) :
    (state = .succ ∧ ∃ kept left, Undelivered decoder kept false ∧ Ready after kept left ∧
        inv kept (after.accepted ++ left) after.handler) ∨
      after.released = true ∧ ∃ kept sent failed, Leaves decoder inv kept sent failed after := by
  obtain ⟨middle, handled, rest⟩ := Option.map_eq_some_iff.mp ran
  obtain ⟨recv, reply⟩ := arrival
  obtain ⟨fits, fine⟩ := proper
  cases recv with
  | fatal | closed =>
    obtain rfl := Option.some.inj handled
    have whole : pending ++ [] = pending := List.append_nil pending
    rw [Arrival.piece, whole] at holds
    simp only [disableInput, ready.alive, Bool.false_eq_true, if_false, ConnState.keeps, Prod.mk.injEq] at rest
    obtain ⟨_, rfl⟩ := rest
    exact .inr ⟨rfl, pending, _, false, .of_released undelivered holds rfl (List.prefix_append ..)⟩
  | again =>
    obtain rfl := Option.some.inj handled
    have whole : pending ++ [] = pending := List.append_nil pending
    rw [Arrival.piece, whole] at holds
    have waiting : Ready { conn with stage := .dataRecving } pending queue :=
      ⟨ready.received, ready.queued, ready.applied, ready.input, ready.output, ready.alive⟩
    have keeping : ConnState.dataRecving.keeps = true := rfl
    rw [if_neg (by simp [ready.alive]), if_pos keeping] at rest
    obtain ⟨rfl, rfl⟩ := Prod.mk.inj rest
    exact .inl ⟨rfl, pending, queue, undelivered, waiting, holds⟩
  | bytes received =>
    obtain ⟨nonempty, few⟩ := fits received rfl
    cases policy : startsPolicy received with
    | true =>
      have whole : pending ++ [] = pending := List.append_nil pending
      simp only [Arrival.piece, policy, if_true] at holds
      rw [whole] at holds
      simp only [handleInput, policy, if_true] at handled
      by_cases asked : received = policyRequest
      · rw [if_pos asked] at handled
        obtain ⟨pushed, sent, rfl⟩ := Option.map_eq_some_iff.mp handled
        have pushes := send_pushes ready (by decide) (by decide) grants fine sent
        have alive : pushed.released = false := pushes.released.trans ready.alive
        simp only [alive, Bool.false_eq_true, if_false, ConnState.keeps, Prod.mk.injEq] at rest
        obtain ⟨_, rfl⟩ := rest
        refine .inr ⟨rfl, pending, conn.accepted ++ queue, false, undelivered, ?_, ?_, ?_⟩
        · exact pushes.handler.symm ▸ holds
        · intro still
          cases still
        · rw [List.append_assoc, ← pushes.bytes]
          exact List.prefix_append ..
      · rw [if_neg asked] at handled
        obtain rfl := Option.some.inj handled
        simp only [ready.alive, Bool.false_eq_true, if_false, ConnState.keeps, Prod.mk.injEq] at rest
        obtain ⟨_, rfl⟩ := rest
        exact .inr ⟨rfl, pending, _, false, .of_released undelivered holds rfl (List.prefix_append ..)⟩
    | false =>
      simp only [Arrival.piece, policy, Bool.false_eq_true, if_false] at holds
      simp only [handleInput, policy, Bool.false_eq_true, if_false] at handled
      obtain ⟨r, appended, parsed⟩ := Option.bind_eq_some_iff.mp handled
      have small : received.length < 2 ^ 31 := by
        simp only [maxWebRecvLen] at few
        omega
      have filled : Ready { conn with r } (pending ++ received) queue :=
        ⟨ready.received.appended small (fun size _ => grants size) appended, ready.queued, ready.applied, ready.input,
          ready.output, ready.alive⟩
      obtain ⟨kept, failed, left, undelivered, held, ended⟩ := parseLoop_keeps keeps grants filled holds parsed
      cases failed with
      | true =>
        obtain ⟨alive, stage⟩ := ended
        simp only [alive, stage, Bool.false_eq_true, if_false, ConnState.keeps, Prod.mk.injEq] at rest
        obtain ⟨_, rfl⟩ := rest
        exact .inr ⟨rfl, kept, _, true, .of_released undelivered held rfl (List.prefix_append ..)⟩
      | false =>
        obtain ⟨still, stage⟩ := ended
        have keeping : middle.stage.keeps = true :=
          stage.resolve_right fun ended => nonempty (List.append_eq_nil_iff.mp ended.1).2
        simp only [still.alive, keeping, Bool.false_eq_true, if_false, if_true, Prod.mk.injEq] at rest
        obtain ⟨rfl, rfl⟩ := rest
        exact .inl ⟨rfl, kept, left, undelivered, still, held⟩

/-- The bytes of an event that go into the cache. -/
def PollerEvent.piece (event : PollerEvent) : List UInt8 :=
  if event.hangup then [] else event.input.elim [] Arrival.piece

def PollerEvent.Proper (event : PollerEvent) : Prop := ∀ arrival, event.input = some arrival → arrival.Proper

/-- A whole event: what each packet keeps is kept, of the bytes that were sent none is lost, doubled or moved,
and no complete packet is left in the cache. -/
theorem processPollerEvents_leaves (keeps : KeptBy decoder onPacketComplete inv)
    (grants : ∀ size, RawCache.Grants allocate size) (undelivered : Undelivered decoder pending false)
    (ready : Ready conn pending queue) {event : PollerEvent} (proper : event.Proper)
    (holds : inv (pending ++ event.piece) (conn.accepted ++ queue) conn.handler)
    (ran : conn.processPollerEvents allocate decoder onPacketComplete event = some after) :
    ∃ kept sent failed, Leaves decoder inv kept sent failed after := by
  obtain ⟨hangup, input, output⟩ := event
  have whole : pending ++ [] = pending := List.append_nil pending
  have armed : Ready { conn with newEvents := conn.oldEvents } pending queue :=
    ⟨ready.received, ready.queued, rfl, (congrArg Interest.input ready.applied).trans ready.input,
      by simpa [ready.applied] using ready.output, ready.alive⟩
  rw [processPollerEvents, if_neg (by simp [ready.alive])] at ran
  cases hangup with
  | true =>
    obtain rfl := Option.some.inj ran
    simp only [PollerEvent.piece, if_true] at holds
    rw [whole] at holds
    exact ⟨pending, _, false, .of_released undelivered holds rfl (List.prefix_append ..)⟩
  | false =>
    cases input with
    | none =>
      obtain rfl := Option.some.inj ran
      rw [PollerEvent.piece] at holds
      simp only [Bool.false_eq_true, if_false, Option.elim_none] at holds
      rw [whole] at holds
      exact ⟨pending, _, false, processOutput_leaves undelivered armed holds output⟩
    | some arrival =>
      obtain ⟨⟨state, middle⟩, notified, rest⟩ := Option.map_eq_some_iff.mp ran
      rcases inputNotify_leaves keeps grants undelivered armed (proper arrival rfl) holds notified with
        ⟨rfl, kept, left, settled, still, held⟩ | ⟨released, kept, sent, failed, leaves⟩
      · simp only [still.alive, Bool.false_eq_true, if_false, ne_eq, not_true_eq_false] at rest
        subst rest
        exact ⟨kept, _, false, processOutput_leaves settled still held output⟩
      · simp only [released, if_true] at rest
        subst rest
        exact ⟨kept, sent, failed, leaves⟩

end Connection

end TeenpattiUserServer.Net
