import TeenpattiUserServer.Net.Closing

/-! `ProcessPollerEvents` over the life of one handler: which events close it although
nothing is wrong with the connection. -/

namespace TeenpattiUserServer.Net

open Bytes Packet Framing

namespace Connection

variable {Handler : Type} {allocate : Nat → Option Nat} {conn after : Connection Handler}
  {pending queue arrived : List UInt8} {decoder : StreamDecoder}
  {onPacketComplete : Handler → List UInt8 → List Sending × Int × Handler} {event : PollerEvent}
  {frames delivered : List (List UInt8)}

/-- A healthy connection: `EPOLLOUT` is reported only where it is armed, the peer
neither hangs up nor closes, and no call of `::recv` or `::send` fails for good. -/
structure Harmless (decoder : StreamDecoder) (onPacketComplete : Handler → List UInt8 → List Sending × Int × Handler)
    (event : PollerEvent) (conn : Connection Handler) : Prop where
  hangup : event.hangup = false
  armed : event.output ≠ none → conn.oldEvents.output = true
  output : event.output ≠ some .fatal
  recv : ∀ arrival, event.input = some arrival → arrival.recv = .again ∨
    ∃ received, arrival.recv = .bytes received ∧ received ≠ [] ∧ received.length ≤ maxWebRecvLen
  sends : ∀ arrival, event.input = some arrival →
    ¬ Fails (replies decoder onPacketComplete conn.handler conn.r.data arrival)

/-- Nothing that is received takes the shortcut for policy requests, and where one
event has both directions, the calls of `Send` in the first leave bytes for the second. -/
structure Undisturbed (decoder : StreamDecoder)
    (onPacketComplete : Handler → List UInt8 → List Sending × Int × Handler) (event : PollerEvent)
    (conn : Connection Handler) : Prop where
  plain : ∀ arrival received, event.input = some arrival → arrival.recv = .bytes received →
    startsPolicy received = false
  queued : ∀ arrival, event.input = some arrival → event.output ≠ none →
    flushed (replies decoder onPacketComplete conn.handler conn.r.data arrival) false = false

/-- The bytes an event brings. -/
def PollerEvent.received (event : PollerEvent) : List UInt8 :=
  match event.input with
  | some ⟨.bytes received, _⟩ => received
  | _ => []

/-- The handler was never closed, and `OutputNotify` never called with nothing to send. -/
def Calm (acts : List Act) : Prop := .onClose ∉ acts ∧ .outputNotify 0 ∉ acts

private theorem Ready.applyEvents (ready : Ready conn pending queue) : Ready conn.applyEvents pending queue :=
  ⟨ready.received, ready.queued, rfl, ready.input, ready.output, ready.alive⟩

/-- The output half keeps the handler when there is something to send. -/
private theorem processOutput_keeps (ready : Ready conn pending queue) (calm : Calm conn.acts)
    {output : Option SendResult} (nonempty : output ≠ none → queue ≠ []) (fine : output ≠ some .fatal) :
    ∃ left, Ready (conn.processOutput output) pending left ∧ Calm (conn.processOutput output).acts := by
  cases output with
  | none => exact ⟨queue, ready.applyEvents, calm⟩
  | some answer =>
    have some' : queue ≠ [] := nonempty (by simp)
    have notFatal : answer ≠ .fatal := fun same => fine (by rw [same])
    obtain ⟨_, pushes⟩ := outputNotify_pushes ready.queued some' notFatal
    have called : Ready conn.notified pending queue :=
      ⟨ready.received, ready.queued, ready.applied, ready.input, ready.output, ready.alive⟩
    have further := pushes.ready called some'
    have length : conn.w.dataLen ≠ 0 := fun zero => some' (ready.queued.dataLen_eq_zero.mp zero)
    have calmer : Calm (conn.outputNotify answer).2.acts := by
      rw [pushes.acts]
      simpa [Calm, notified, length.symm] using calm
    have shape : conn.processOutput (some answer) = (conn.outputNotify answer).2 ∨
        conn.processOutput (some answer) = (conn.outputNotify answer).2.applyEvents := by
      simp only [processOutput, further.alive]
      split_ifs <;> simp
    rcases shape with same | applied
    · rw [same]
      exact ⟨_, further, calmer⟩
    · rw [applied]
      exact ⟨_, further.applyEvents, calmer⟩

/-- The output half closes the handler when there is nothing to send. -/
private theorem processOutput_closes (ready : Ready conn pending []) {output : Option SendResult}
    (present : output ≠ none) : (conn.processOutput output).released = true := by
  obtain ⟨answer, rfl⟩ := Option.ne_none_iff_exists'.mp present
  have closes : (conn.outputNotify answer).2.released = true := (outputNotify_closes ready.queued (.inl rfl)).2.1
  simp only [processOutput, closes, if_true]

/-- The input half serves a piece of the stream that does not take the shortcut. -/
private theorem inputNotify_keeps (grants : ∀ size, RawCache.Grants allocate size)
    (small : ∀ handler packet, Small (onPacketComplete handler packet).1)
    (succeeds : ∀ handler packet, 0 ≤ (onPacketComplete handler packet).2.1)
    (recognised : ∀ frame ∈ frames, Recognised decoder.verdict frame) (ready : Ready conn pending queue)
    (progress : Progress frames arrived delivered pending) {received : List UInt8} {reply : SendResult}
    (plain : startsPolicy received = false) (nonempty : received ≠ []) (fits : received.length ≤ maxWebRecvLen)
    (front : arrived ++ received <+: frames.flatten)
    (fine : ¬ Fails (replies decoder onPacketComplete conn.handler pending ⟨.bytes received, reply⟩))
    {state : PollerState}
    (ran : conn.inputNotify allocate decoder onPacketComplete ⟨.bytes received, reply⟩ = some (state, after)) :
    state = .succ ∧ ∃ kept left done, Ready after kept left ∧
      Progress frames (arrived ++ received) (delivered ++ done) kept ∧
      decide (left = []) = flushed (replies decoder onPacketComplete conn.handler pending ⟨.bytes received, reply⟩)
        (decide (queue = [])) ∧
      ∃ packets : List (List UInt8), after.acts = conn.acts ++ packets.map .delivered := by
  obtain ⟨handled, input, result⟩ := Option.map_eq_some_iff.mp ran
  have different : ¬ startsPolicy received := by simp [plain]
  simp only [handleInput] at input
  simp only [replies] at fine ⊢
  rw [if_neg different] at input fine ⊢
  obtain ⟨r, appended, loop⟩ := Option.bind_eq_some_iff.mp input
  have filled : r.Holds (pending ++ received) := ready.received.appended
    (by simp only [maxWebRecvLen] at fits; omega) (fun size _ => grants size) appended
  have filledReady : Ready { conn with r } (pending ++ received) queue :=
    ⟨filled, ready.queued, ready.applied, ready.input, ready.output, ready.alive⟩
  obtain ⟨done, kept, drained, further⟩ := progress.feed recognised front (Nat.le_refl _)
  rw [filled.length] at loop
  obtain ⟨_, served⟩ := parseLoop_serves grants small filledReady (Nat.le_refl _) drained rfl loop
  rw [whole, drained] at fine ⊢
  have work := served fine
  have noFailure := handling_succeeds succeeds conn.handler done
  obtain ⟨left, final, empties⟩ := work.ready rfl noFailure
  have keeps : handled.stage.keeps = true := by
    rcases work.stage with ⟨_, noFrames, noRest⟩ | waiting | finished | ⟨_, failed⟩ | ⟨_, failed⟩
    · have all := further.bytes
      rw [show done = [] from noFrames, show kept = [] from noRest, progress.bytes] at all
      have empty : pending ++ received = [] := by simpa using all
      exact absurd (List.append_eq_nil_iff.mp empty).2 nonempty
    · rw [waiting]
      rfl
    · rw [finished]
      rfl
    · exact absurd failed (by simp)
    · exact absurd failed (by simp [noFailure])
  rw [if_neg (by simp [work.alive]), if_pos keeps] at result
  cases result
  exact ⟨rfl, kept, left, done, final, further, empties, _, work.acts⟩

/-- A piece that takes the shortcut closes the handler. -/
private theorem inputNotify_policy {received : List UInt8} {reply : SendResult} (policy : startsPolicy received = true)
    {state : PollerState}
    (ran : conn.inputNotify allocate decoder onPacketComplete ⟨.bytes received, reply⟩ = some (state, after)) :
    after.released = true := by
  obtain ⟨handled, input, result⟩ := Option.map_eq_some_iff.mp ran
  simp only [handleInput] at input
  rw [if_pos policy] at input
  by_cases released : handled.released = true
  · rw [if_pos released] at result
    cases result
    exact released
  · have dropped : handled.stage.keeps = false := by
      split_ifs at input with request
      · obtain ⟨sent, _, same⟩ := Option.map_eq_some_iff.mp input
        split_ifs at same with gone
        · exact absurd (same ▸ gone) released
        · rw [← same]
          rfl
      · rw [← Option.some.inj input]
        rfl
    rw [if_neg released, if_neg (by simp [dropped])] at result
    cases result
    rfl

/-- What a `recv` without bytes leaves. -/
private theorem inputNotify_again (ready : Ready conn pending queue) {reply : SendResult} {state : PollerState}
    (ran : conn.inputNotify allocate decoder onPacketComplete ⟨.again, reply⟩ = some (state, after)) :
    state = .succ ∧ Ready after pending queue ∧ after.acts = conn.acts := by
  obtain ⟨handled, input, result⟩ := Option.map_eq_some_iff.mp ran
  obtain rfl := Option.some.inj input
  have alive : ¬ conn.released = true := by simp [ready.alive]
  rw [if_neg alive, if_pos (show ConnState.keeps .dataRecving = true from rfl)] at result
  cases result
  exact ⟨rfl, ⟨ready.received, ready.queued, ready.applied, ready.input, ready.output, ready.alive⟩, rfl⟩

private theorem Calm.served {acts : List Act} (calm : Calm acts) (packets : List (List UInt8)) :
    Calm (acts ++ packets.map .delivered) := by
  simpa [Calm] using calm

/-- What the handler is like between two events. -/
structure Steady (frames : List (List UInt8)) (arrived : List UInt8) (conn : Connection Handler) : Prop where
  ready : ∃ pending queue delivered, Ready conn pending queue ∧ Progress frames arrived delivered pending
  calm : Calm conn.acts

private theorem Steady.start (handler : Handler) : Steady frames [] (connected handler) :=
  ⟨⟨[], [], [], connected_ready handler, Progress.start frames⟩, by simp [Calm, connected]⟩

private theorem undisturbed_iff {arrival : Arrival} (input : event.input = some arrival) :
    Undisturbed decoder onPacketComplete event conn ↔
      (∀ received, arrival.recv = .bytes received → startsPolicy received = false) ∧
        (event.output ≠ none → flushed (replies decoder onPacketComplete conn.handler conn.r.data arrival) false = false) := by
  constructor
  · intro undisturbed
    exact ⟨fun received => undisturbed.plain arrival received input, undisturbed.queued arrival input⟩
  · rintro ⟨plain, queued⟩
    have only : ∀ {other}, event.input = some other → other = arrival :=
      fun same => (Option.some.inj (input.symm.trans same)).symm
    exact ⟨fun other received same => only same ▸ plain received, fun other same => only same ▸ queued⟩

/-- An event of a healthy connection keeps the handler steady when it is undisturbed,
and closes it when it is not. -/
private theorem processPollerEvents_step (grants : ∀ size, RawCache.Grants allocate size)
    (small : ∀ handler packet, Small (onPacketComplete handler packet).1)
    (succeeds : ∀ handler packet, 0 ≤ (onPacketComplete handler packet).2.1)
    (recognised : ∀ frame ∈ frames, Recognised decoder.verdict frame) (steady : Steady frames arrived conn)
    (front : arrived ++ event.received <+: frames.flatten)
    (harmless : Harmless decoder onPacketComplete event conn)
    (stepped : processPollerEvents allocate decoder onPacketComplete event conn = some after) :
    (Undisturbed decoder onPacketComplete event conn → Steady frames (arrived ++ event.received) after) ∧
      (¬ Undisturbed decoder onPacketComplete event conn → after.released = true) := by
  obtain ⟨⟨pending, queue, delivered, ready, progress⟩, calm⟩ := steady
  have same : { conn with newEvents := conn.oldEvents } = conn :=
    congrArg (fun interest => { conn with newEvents := interest }) ready.applied
  have armed : event.output ≠ none → queue ≠ [] := fun present =>
    ready.output.mp (ready.applied ▸ harmless.armed present)
  simp only [processPollerEvents, same, harmless.hangup] at stepped
  rw [if_neg (by simp [ready.alive]), if_neg (by simp)] at stepped
  cases input : event.input with
  | none =>
    have undisturbed : Undisturbed decoder onPacketComplete event conn := ⟨by simp [input], by simp [input]⟩
    rw [input] at stepped
    obtain rfl := Option.some.inj stepped
    obtain ⟨left, final, calmer⟩ := processOutput_keeps ready calm armed harmless.output
    refine ⟨fun _ => ⟨⟨pending, left, delivered, final, ?_⟩, calmer⟩, fun disturbed => absurd undisturbed disturbed⟩
    simpa [PollerEvent.received, input] using progress
  | some arrival =>
    obtain ⟨recv, reply⟩ := arrival
    rw [input] at stepped
    obtain ⟨⟨state, middle⟩, notified, result⟩ := Option.map_eq_some_iff.mp stepped
    rcases harmless.recv _ input with again | ⟨received, bytes, nonempty, fits⟩
    · change recv = _ at again
      subst again
      obtain ⟨rfl, middleReady, acts⟩ := inputNotify_again ready notified
      have undisturbed : Undisturbed decoder onPacketComplete event conn :=
        (undisturbed_iff input).mpr ⟨by simp, by simp [replies, flushed]⟩
      simp only [middleReady.alive] at result
      rw [if_neg (by simp), if_neg (by simp)] at result
      subst result
      obtain ⟨left, final, calmer⟩ := processOutput_keeps middleReady (acts ▸ calm) armed harmless.output
      refine ⟨fun _ => ⟨⟨pending, left, delivered, final, ?_⟩, calmer⟩, fun disturbed => absurd undisturbed disturbed⟩
      simpa [PollerEvent.received, input] using progress
    · change recv = _ at bytes
      subst bytes
      have brought : event.received = received := by simp [PollerEvent.received, input]
      by_cases policy : startsPolicy received = true
      · have released := inputNotify_policy policy notified
        rw [if_pos released] at result
        subst result
        refine ⟨fun undisturbed => ?_, fun _ => released⟩
        have plain := undisturbed.plain _ received input rfl
        simp [plain] at policy
      · have plain : startsPolicy received = false := by simpa using policy
        have fine := harmless.sends _ input
        rw [ready.received.data] at fine
        rw [brought] at front
        obtain ⟨rfl, kept, left, done, middleReady, further, empties, packets, acts⟩ :=
          inputNotify_keeps grants small succeeds recognised ready progress plain nonempty fits front fine notified
        simp only [middleReady.alive] at result
        rw [if_neg (by simp), if_neg (by simp)] at result
        subst result
        have calmer : Calm middle.acts := by
          rw [acts]
          exact calm.served packets
        by_cases present : event.output = none
        · have undisturbed : Undisturbed decoder onPacketComplete event conn :=
            (undisturbed_iff input).mpr ⟨by simp [plain], by simp [present]⟩
          obtain ⟨last, final, stillCalm⟩ :=
            processOutput_keeps middleReady calmer (fun some' => absurd present some') harmless.output
          refine ⟨fun _ => ⟨⟨kept, last, delivered ++ done, final, ?_⟩, stillCalm⟩, fun disturbed => absurd undisturbed disturbed⟩
          rw [brought]
          exact further
        · have filled : decide (queue = []) = false := by simpa using armed present
          rw [filled] at empties
          by_cases empty : left = []
          · subst empty
            refine ⟨fun undisturbed => ?_, fun _ => processOutput_closes middleReady present⟩
            have quiet := undisturbed.queued _ input present
            rw [ready.received.data, ← empties] at quiet
            simp at quiet
          · have undisturbed : Undisturbed decoder onPacketComplete event conn := by
              refine (undisturbed_iff input).mpr ⟨by simp [plain], fun _ => ?_⟩
              rw [ready.received.data, ← empties]
              simpa using empty
            obtain ⟨last, final, stillCalm⟩ :=
              processOutput_keeps middleReady calmer (fun _ => empty) harmless.output
            refine ⟨fun _ => ⟨⟨kept, last, delivered ++ done, final, ?_⟩, stillCalm⟩, fun disturbed => absurd undisturbed disturbed⟩
            rw [brought]
            exact further

private theorem run_closed {events : List PollerEvent}
    (ran : Bookkeeping.run (processPollerEvents allocate decoder onPacketComplete) events conn = some after)
    (released : conn.released = true) : after.released = true := by
  have keeps : ∀ {conn : Connection Handler} {event after}, conn.released = true →
      processPollerEvents allocate decoder onPacketComplete event conn = some after → after.released = true := by
    intro conn event after released stepped
    simp only [processPollerEvents] at stepped
    rw [if_pos released] at stepped
    exact Option.some.inj stepped ▸ released
  exact Bookkeeping.run_keeps keeps ran released

private theorem run_undisturbed_iff (grants : ∀ size, RawCache.Grants allocate size)
    (small : ∀ handler packet, Small (onPacketComplete handler packet).1)
    (succeeds : ∀ handler packet, 0 ≤ (onPacketComplete handler packet).2.1)
    (recognised : ∀ frame ∈ frames, Recognised decoder.verdict frame) {events : List PollerEvent}
    (steady : Steady frames arrived conn)
    (front : arrived ++ events.flatMap PollerEvent.received <+: frames.flatten)
    (ran : Bookkeeping.run (processPollerEvents allocate decoder onPacketComplete) events conn = some after)
    (harmless : Bookkeeping.AtEachStep (processPollerEvents allocate decoder onPacketComplete) events conn
      fun _ event before _ => before.released = false → Harmless decoder onPacketComplete event before) :
    (after.released = false ∧ Calm after.acts) ↔
      Bookkeeping.AtEachStep (processPollerEvents allocate decoder onPacketComplete) events conn
        fun _ event before _ => Undisturbed decoder onPacketComplete event before := by
  induction events generalizing conn arrived with
  | nil =>
    obtain rfl := Option.some.inj ran
    obtain ⟨⟨pending, queue, delivered, ready, progress⟩, calm⟩ := steady
    exact iff_of_true ⟨ready.alive, calm⟩ Bookkeeping.atEachStep_nil
  | cons event events ih =>
    obtain ⟨middle, stepped, rest⟩ := Option.bind_eq_some_iff.mp ran
    rw [Bookkeeping.atEachStep_cons stepped] at harmless ⊢
    have alive : conn.released = false := by
      obtain ⟨⟨_, _, _, ready, _⟩, _⟩ := steady
      exact ready.alive
    have early : arrived ++ event.received <+: frames.flatten :=
      (List.prefix_append _ (events.flatMap PollerEvent.received)).trans (by simpa using front)
    obtain ⟨kept, closed⟩ :=
      processPollerEvents_step grants small succeeds recognised steady early (harmless.1 alive) stepped
    by_cases undisturbed : Undisturbed decoder onPacketComplete event conn
    · rw [ih (kept undisturbed) (by simpa using front) rest harmless.2]
      exact ⟨fun others => ⟨undisturbed, others⟩, fun all => all.2⟩
    · have gone := run_closed rest (closed undisturbed)
      exact iff_of_false (fun fine => by simp [gone] at fine) (fun all => undisturbed all.1)

/-- A healthy connection is never closed, and `OutputNotify` never called with nothing
to send, exactly when no event disturbs it. -/
theorem healthy_connection_kept_iff (grants : ∀ size, RawCache.Grants allocate size)
    (small : ∀ handler packet, Small (onPacketComplete handler packet).1)
    (succeeds : ∀ handler packet, 0 ≤ (onPacketComplete handler packet).2.1)
    (recognised : ∀ frame ∈ frames, Recognised decoder.verdict frame) (handler : Handler) (events : List PollerEvent)
    (front : events.flatMap PollerEvent.received <+: frames.flatten)
    (ran : Bookkeeping.run (processPollerEvents allocate decoder onPacketComplete) events (connected handler) = some after)
    (harmless : Bookkeeping.AtEachStep (processPollerEvents allocate decoder onPacketComplete) events (connected handler)
      fun _ event before _ => before.released = false → Harmless decoder onPacketComplete event before) :
    (after.released = false ∧ .onClose ∉ after.acts ∧ .outputNotify 0 ∉ after.acts) ↔
      Bookkeeping.AtEachStep (processPollerEvents allocate decoder onPacketComplete) events (connected handler)
        fun _ event before _ => Undisturbed decoder onPacketComplete event before :=
  run_undisturbed_iff grants small succeeds recognised (Steady.start handler) (by simpa using front) ran harmless

/-- One byte for each packet: the first answer is put off, later ones are taken whole. -/
def oneByte (count : Nat) (_ : List UInt8) : List Sending × Int × Nat :=
  ([⟨[1], if count = 0 then .again else .full⟩], 0, count + 1)

private theorem shortPacket_recognised : Recognised BoyaaDecoder.verdict shortPacket := by
  let building : Building := ⟨0, 2, 1, [], ⟨fun _ => 0, 0, 0, []⟩⟩
  have bytes : Building.bytes .network building = shortPacket := by decide
  have defined : building.Defined := by simp [building, Building.Defined]
  rw [← bytes]
  change Recognised (matchingDecoder .network).verdict _
  exact built_recognised (Building.built defined)

/-- The answer to the first packet waits for output. One event then brings the second
packet and reports output: its answer empties the queue, and the handler is closed. -/
theorem healthy_connection_closed :
    ∃ waiting after : Connection Nat,
      processPollerEvents RawCache.limitedPool BoyaaDecoder oneByte ⟨false, some ⟨.bytes shortPacket, .full⟩, none⟩
          (connected 0) = some waiting ∧
        waiting.oldEvents = ⟨true, true⟩ ∧
        processPollerEvents RawCache.limitedPool BoyaaDecoder oneByte
          ⟨false, some ⟨.bytes shortPacket, .full⟩, some .full⟩ waiting = some after ∧
        after.acts = [.delivered shortPacket, .delivered shortPacket, .outputNotify 0, .onClose, .released] :=
  ⟨_, _, rfl, rfl, rfl, by decide⟩

/-- Two events, one with the packet and one to send the answer, keep the connection. -/
theorem healthy_connection_kept_iff_apart :
    ∃ after : Connection Nat,
      Bookkeeping.run (processPollerEvents RawCache.limitedPool BoyaaDecoder oneByte)
          [⟨false, some ⟨.bytes shortPacket, .full⟩, none⟩, ⟨false, none, some .full⟩] (connected 0) = some after ∧
        after.released = false ∧ .onClose ∉ after.acts ∧ .outputNotify 0 ∉ after.acts := by
  obtain ⟨waiting, first, armed⟩ : ∃ waiting : Connection Nat,
      processPollerEvents RawCache.limitedPool BoyaaDecoder oneByte ⟨false, some ⟨.bytes shortPacket, .full⟩, none⟩
        (connected 0) = some waiting ∧ waiting.oldEvents.output = true := ⟨_, rfl, rfl⟩
  obtain ⟨after, second⟩ : ∃ after, processPollerEvents RawCache.limitedPool BoyaaDecoder oneByte
      ⟨false, none, some .full⟩ waiting = some after := by
    simp only [processPollerEvents]
    split_ifs <;> exact ⟨_, rfl⟩
  have ran : Bookkeeping.run (processPollerEvents RawCache.limitedPool BoyaaDecoder oneByte)
      [⟨false, some ⟨.bytes shortPacket, .full⟩, none⟩, ⟨false, none, some .full⟩] (connected 0) = some after := by
    rw [Bookkeeping.run, first, Option.bind_some, Bookkeeping.run, second, Option.bind_some, Bookkeeping.run]
  have small : ∀ handler packet, Small (oneByte handler packet).1 := by simp [Small, oneByte]
  have answered : ¬ Fails (replies BoyaaDecoder oneByte 0 [] ⟨.bytes shortPacket, .full⟩) := by
    unfold Fails
    decide
  have recognised : ∀ frame ∈ [shortPacket], Recognised BoyaaDecoder.verdict frame := by
    simpa using shortPacket_recognised
  refine ⟨after, ran, (healthy_connection_kept_iff RawCache.limitedPool_grants small (fun _ _ => Int.le_refl 0)
    recognised 0 _ (by decide) ran ?_).mpr ?_⟩
  · rw [Bookkeeping.atEachStep_cons first, Bookkeeping.atEachStep_cons second]
    refine ⟨fun _ => ⟨rfl, by simp, by simp, ?_, ?_⟩, fun _ => ⟨rfl, fun _ => armed, by simp, by simp, by simp⟩,
      Bookkeeping.atEachStep_nil⟩
    · rintro arrival same
      cases same
      exact .inr ⟨shortPacket, rfl, by decide, by decide⟩
    · rintro arrival same
      cases same
      exact answered
  · rw [Bookkeeping.atEachStep_cons first, Bookkeeping.atEachStep_cons second]
    refine ⟨⟨?_, by simp⟩, ⟨by simp, by simp⟩, Bookkeeping.atEachStep_nil⟩
    · rintro arrival received same bytes
      cases same
      cases bytes
      decide

end Connection

end TeenpattiUserServer.Net
