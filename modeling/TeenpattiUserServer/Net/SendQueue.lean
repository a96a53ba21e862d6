import TeenpattiUserServer.Bookkeeping.Runs
import TeenpattiUserServer.Net.Connection

/-! The sending side of a connection. `Send` with an empty queue and `Send` with a
full one both come to this: the bytes join the queue, and the kernel takes some from
its front. -/

namespace TeenpattiUserServer.Net

open Bytes

/-- What stays in the queue of the bytes offered. -/
def SendResult.left (answer : SendResult) (offered : List UInt8) : List UInt8 :=
  offered.drop (answer.taken offered.length)

theorem SendResult.taken_lt {answer : SendResult} {offered : Nat} (positive : 0 < offered) (partly : answer ≠ .full) :
    answer.taken offered < offered := by
  cases answer with
  | full => exact absurd rfl partly
  | part count =>
    simp only [taken]
    omega
  | again => exact positive
  | fatal => exact positive

theorem SendResult.left_eq_nil {answer : SendResult} {offered : List UInt8} (nonempty : offered ≠ []) :
    answer.left offered = [] ↔ answer = .full := by
  constructor
  · intro empty
    by_contra partly
    have short := taken_lt (List.length_pos_iff.mpr nonempty) partly
    have length := congrArg List.length empty
    simp only [left, List.length_drop, List.length_nil] at length
    omega
  · rintro rfl
    simp [left, taken]

namespace Connection

variable {Handler : Type} {allocate : Nat → Option Nat} {conn after : Connection Handler}
  {pending queue buff offered : List UInt8} {answer : SendResult}

/-- A handler between two calls: output is enabled, and armed, exactly while bytes are queued. -/
structure Ready (conn : Connection Handler) (pending queue : List UInt8) : Prop where
  received : conn.r.Holds pending
  queued : conn.w.Holds queue
  applied : conn.oldEvents = conn.newEvents
  input : conn.newEvents.input = true
  output : conn.newEvents.output = true ↔ queue ≠ []
  alive : conn.released = false

theorem connected_ready (handler : Handler) : Ready (connected handler) [] [] where
  received := RawCache.empty_holds
  queued := RawCache.empty_holds
  applied := rfl
  input := rfl
  output := by simp [connected]
  alive := rfl

/-- The kernel takes from the front of the offered bytes, the rest is queued, and
nothing else of the handler changes. -/
structure Pushes (answer : SendResult) (offered : List UInt8) (conn after : Connection Handler) : Prop where
  accepted : after.accepted = conn.accepted ++ offered.take (answer.taken offered.length)
  queued : after.w.Holds (answer.left offered)
  newEvents : after.newEvents = ⟨conn.newEvents.input, decide (answer ≠ .full)⟩
  applied : after.oldEvents = after.newEvents
  stage : after.stage = if answer = .full then .sendDone else .dataSending
  r : after.r = conn.r
  handler : after.handler = conn.handler
  released : after.released = conn.released
  acts : after.acts = conn.acts

/-- No byte is lost, doubled or moved. -/
theorem Pushes.bytes (pushes : Pushes answer offered conn after) :
    after.accepted ++ answer.left offered = conn.accepted ++ offered := by
  rw [pushes.accepted, SendResult.left, List.append_assoc, List.take_append_drop]

theorem Pushes.ready (pushes : Pushes answer offered conn after) (ready : Ready conn pending queue)
    (nonempty : offered ≠ []) : Ready after pending (answer.left offered) where
  received := by
    rw [pushes.r]
    exact ready.received
  queued := pushes.queued
  applied := pushes.applied
  input := by
    rw [pushes.newEvents]
    exact ready.input
  output := by
    rw [pushes.newEvents]
    simp [SendResult.left_eq_nil nonempty]
  alive := by
    rw [pushes.released]
    exact ready.alive

/-- `handle_output` on a queue. -/
theorem handleOutput_pushes (queued : conn.w.Holds offered) (nonempty : offered ≠ []) (fine : answer ≠ .fatal) :
    Pushes answer offered conn (conn.handleOutput answer) := by
  have length := queued.length
  have some' : conn.w.dataLen ≠ 0 := fun none => nonempty (queued.dataLen_eq_zero.mp none)
  have skipped := queued.skip (answer.taken offered.length)
  have data := queued.data
  unfold handleOutput
  rw [if_pos some']
  cases answer with
  | again => exact ⟨by simp [SendResult.taken, enableOutput, applyEvents], queued, rfl, rfl, rfl, rfl, rfl, rfl, rfl⟩
  | fatal => exact absurd rfl fine
  | full =>
    simp only [SendResult.taken, length, data, if_true]
    exact ⟨rfl, skipped, rfl, rfl, rfl, rfl, rfl, rfl, rfl⟩
  | part count =>
    have short : (SendResult.part count).taken offered.length ≠ offered.length :=
      Nat.ne_of_lt (SendResult.taken_lt (List.length_pos_iff.mpr nonempty) (by simp))
    simp only [length, data, short, if_false]
    exact ⟨rfl, skipped, rfl, rfl, rfl, rfl, rfl, rfl, rfl⟩

/-- Without a fatal answer, `Send` queues its bytes and offers the queue. -/
theorem send_pushes (ready : Ready conn pending queue) (nonempty : buff ≠ []) (small : buff.length < 2 ^ 31)
    (grants : ∀ size, RawCache.Grants allocate size) (fine : answer ≠ .fatal)
    (sent : conn.send allocate ⟨buff, answer⟩ = some after) : Pushes answer (queue ++ buff) conn after := by
  have buffLength : buff.length ≠ 0 := by simpa using nonempty
  have appends : ∀ {rest w}, rest.length < 2 ^ 31 → conn.w.append allocate rest = some w → w.Holds (queue ++ rest) :=
    fun bound appended => ready.queued.appended bound (fun size _ => grants size) appended
  rw [send, if_neg buffLength] at sent
  by_cases empty : conn.w.dataLen = 0
  · rw [if_pos empty] at sent
    have none : queue = [] := ready.queued.dataLen_eq_zero.mp empty
    subst none
    have quiet : conn.newEvents = ⟨conn.newEvents.input, false⟩ := by
      have off : conn.newEvents.output = false := by simpa using ready.output
      rw [← off]
    cases answer with
    | fatal => exact absurd rfl fine
    | again =>
      obtain ⟨w, appended, rfl⟩ := Option.map_eq_some_iff.mp sent
      have queued := appends small appended
      exact ⟨by simp [SendResult.taken, enableOutput, applyEvents], queued, rfl, rfl, rfl, rfl, rfl, rfl, rfl⟩
    | full =>
      simp only [SendResult.taken, Nat.lt_irrefl, if_false, Option.some.injEq] at sent
      subst sent
      exact ⟨by simp [SendResult.taken], by simpa [SendResult.left, SendResult.taken] using ready.queued, quiet,
        ready.applied, rfl, rfl, rfl, rfl, rfl⟩
    | part count =>
      have short : (SendResult.part count).taken buff.length < buff.length :=
        SendResult.taken_lt (List.length_pos_iff.mpr nonempty) (by simp)
      simp only [short, if_true] at sent
      obtain ⟨w, appended, rfl⟩ := Option.map_eq_some_iff.mp sent
      have rest : (buff.drop ((SendResult.part count).taken buff.length)).length < 2 ^ 31 := by
        rw [List.length_drop]
        omega
      have queued := appends rest appended
      exact ⟨rfl, queued, rfl, rfl, rfl, rfl, rfl, rfl, rfl⟩
  · rw [if_neg empty] at sent
    obtain ⟨w, appended, rfl⟩ := Option.map_eq_some_iff.mp sent
    have queued : { conn with w }.w.Holds (queue ++ buff) := appends small appended
    have pushes := handleOutput_pushes queued (List.append_ne_nil_of_right_ne_nil queue nonempty) fine
    have stage : ({ conn with w }.handleOutput answer).stage ≠ .fatalError := by
      rw [pushes.stage]
      split_ifs <;> simp
    rw [if_neg stage]
    exact ⟨pushes.accepted, pushes.queued, pushes.newEvents, pushes.applied, pushes.stage, pushes.r, pushes.handler,
      pushes.released, pushes.acts⟩

/-- A fatal answer closes the handler. -/
theorem send_fatal (ready : Ready conn pending queue) (nonempty : buff ≠ []) (small : buff.length < 2 ^ 31)
    (grants : ∀ size, RawCache.Grants allocate size) (sent : conn.send allocate ⟨buff, .fatal⟩ = some after) :
    after.released = true ∧ after.acts = conn.acts ++ [.onClose, .released] := by
  have buffLength : buff.length ≠ 0 := by simpa using nonempty
  rw [send, if_neg buffLength] at sent
  by_cases empty : conn.w.dataLen = 0
  · rw [if_pos empty] at sent
    obtain rfl := Option.some.inj sent
    exact ⟨rfl, rfl⟩
  · rw [if_neg empty] at sent
    obtain ⟨w, appended, rfl⟩ := Option.map_eq_some_iff.mp sent
    have queued : w.Holds (queue ++ buff) := ready.queued.appended small (fun size _ => grants size) appended
    have some' : w.dataLen ≠ 0 := fun none => by simp [queued.dataLen_eq_zero, nonempty] at none
    have failed : { conn with w }.handleOutput .fatal =
        { { conn with w }.disableInput.disableOutput.applyEvents with stage := .fatalError } := by
      unfold handleOutput
      exact if_pos some'
    rw [failed, if_pos rfl]
    exact ⟨rfl, rfl⟩

/-- `OutputNotify` is called. -/
def notified (conn : Connection Handler) : Connection Handler :=
  { conn with acts := conn.acts ++ [.outputNotify conn.w.dataLen] }

private theorem outputNotify_sendDone (stage : (conn.notified.handleOutput answer).stage = .sendDone) :
    conn.outputNotify answer = (.complete, conn.notified.handleOutput answer) := by
  unfold outputNotify
  change _ = (PollerState.complete, handleOutput answer { conn with acts := _ })
  change (handleOutput answer { conn with acts := _ }).stage = _ at stage
  simp only [stage]

private theorem outputNotify_dataSending (stage : (conn.notified.handleOutput answer).stage = .dataSending) :
    conn.outputNotify answer = (.succ, conn.notified.handleOutput answer) := by
  unfold outputNotify
  change _ = (PollerState.succ, handleOutput answer { conn with acts := _ })
  change (handleOutput answer { conn with acts := _ }).stage = _ at stage
  simp only [stage]

private theorem outputNotify_fatalError (stage : (conn.notified.handleOutput answer).stage = .fatalError) :
    conn.outputNotify answer = (.complete, (conn.notified.handleOutput answer).close) := by
  unfold outputNotify
  change _ = (PollerState.complete, (handleOutput answer { conn with acts := _ }).close)
  change (handleOutput answer { conn with acts := _ }).stage = _ at stage
  simp only [stage]

/-- `OutputNotify` on a queue keeps the handler, unless the answer is fatal. -/
theorem outputNotify_pushes (queued : conn.w.Holds queue) (nonempty : queue ≠ []) (fine : answer ≠ .fatal) :
    (conn.outputNotify answer).1 = (if answer = .full then .complete else .succ) ∧
      Pushes answer queue conn.notified (conn.outputNotify answer).2 := by
  have pushes : Pushes answer queue conn.notified (conn.notified.handleOutput answer) :=
    handleOutput_pushes queued nonempty fine
  have stage := pushes.stage
  by_cases full : answer = .full
  · rw [if_pos full] at stage ⊢
    rw [outputNotify_sendDone stage]
    exact ⟨rfl, pushes⟩
  · rw [if_neg full] at stage ⊢
    rw [outputNotify_dataSending stage]
    exact ⟨rfl, pushes⟩

/-- `OutputNotify` closes the handler when its queue is empty or the answer is fatal. -/
theorem outputNotify_closes (queued : conn.w.Holds queue) (closing : queue = [] ∨ answer = .fatal) :
    (conn.outputNotify answer).1 = .complete ∧ (conn.outputNotify answer).2.released = true ∧
      .onClose ∈ (conn.outputNotify answer).2.acts := by
  have stage : (conn.notified.handleOutput answer).stage = .fatalError := by
    unfold handleOutput
    by_cases empty : conn.notified.w.dataLen ≠ 0
    · have fatal : answer = .fatal := closing.resolve_left fun none => empty (queued.dataLen_eq_zero.mpr none)
      rw [if_pos empty, fatal]
    · rw [if_neg empty]
  rw [outputNotify_fatalError stage]
  exact ⟨rfl, rfl, by simp [close]⟩

/-- What the sending side is asked to do. -/
inductive OutputEvent where
  | send (sending : Sending)
  | outputNotify (answer : SendResult)
  deriving DecidableEq, Repr

/-- A released handler is asked no more. -/
def outputEvent (allocate : Nat → Option Nat) (event : OutputEvent) (conn : Connection Handler) :
    Option (Connection Handler) :=
  if conn.released then some conn
  else
    match event with
    | .send sending => conn.send allocate sending
    | .outputNotify answer => some (conn.outputNotify answer).2

/-- The buffers passed to `Send`, one after another. -/
def sentBytes (events : List OutputEvent) : List UInt8 :=
  events.flatMap fun
    | .send sending => sending.buff
    | .outputNotify _ => []

/-- The length of a buffer is a positive `int`. -/
def Proper : OutputEvent → Prop
  | .send sending => 0 < sending.buff.length ∧ sending.buff.length < 2 ^ 31
  | .outputNotify _ => True

private theorem run_released {events : List OutputEvent}
    (ran : Bookkeeping.run (outputEvent allocate) events conn = some after)
    (released : conn.released = true) : after.released = true := by
  have keeps : ∀ {conn : Connection Handler} {event after}, conn.released = true →
      outputEvent allocate event conn = some after → after.released = true := by
    intro conn event after released stepped
    unfold outputEvent at stepped
    rw [if_pos released] at stepped
    exact Option.some.inj stepped ▸ released
  exact Bookkeeping.run_keeps keeps ran released

/-- One event either releases the handler or keeps it ready, with every byte in place. -/
private theorem outputEvent_keeps (grants : ∀ size, RawCache.Grants allocate size)
    (ready : Ready conn pending queue) {event : OutputEvent} (proper : Proper event)
    (stepped : outputEvent allocate event conn = some after) :
    after.released = true ∨ ∃ left, Ready after pending left ∧
      after.accepted ++ left = conn.accepted ++ queue ++ sentBytes [event] := by
  unfold outputEvent at stepped
  rw [if_neg (by simp [ready.alive])] at stepped
  cases event with
  | send sending =>
    obtain ⟨buff, answer⟩ := sending
    obtain ⟨positive, small⟩ := proper
    have nonempty : buff ≠ [] := List.ne_nil_of_length_pos positive
    by_cases fatal : answer = .fatal
    · subst fatal
      exact .inl (send_fatal ready nonempty small grants stepped).1
    · have pushes := send_pushes ready nonempty small grants fatal stepped
      have joined : queue ++ buff ≠ [] := List.append_ne_nil_of_right_ne_nil queue nonempty
      exact .inr ⟨_, pushes.ready ready joined, by simp [pushes.bytes, sentBytes]⟩
  | outputNotify answer =>
    obtain rfl := Option.some.inj stepped
    by_cases closing : queue = [] ∨ answer = .fatal
    · exact .inl (outputNotify_closes ready.queued closing).2.1
    · obtain ⟨nonempty, fine⟩ := not_or.mp closing
      have pushes := (outputNotify_pushes ready.queued nonempty fine).2
      have calledReady : Ready conn.notified pending queue :=
        ⟨ready.received, ready.queued, ready.applied, ready.input, ready.output, ready.alive⟩
      exact .inr ⟨_, pushes.ready calledReady nonempty, by simp [pushes.bytes, sentBytes, notified]⟩

private theorem run_bytes (grants : ∀ size, RawCache.Grants allocate size) {events : List OutputEvent}
    (ready : Ready conn pending queue) (proper : ∀ event ∈ events, Proper event)
    (ran : Bookkeeping.run (outputEvent allocate) events conn = some after) (alive : after.released = false) :
    ∃ left, Ready after pending left ∧ after.accepted ++ left = conn.accepted ++ queue ++ sentBytes events := by
  induction events generalizing conn queue with
  | nil =>
    obtain rfl := Option.some.inj ran
    exact ⟨queue, ready, by simp [sentBytes]⟩
  | cons event events ih =>
    obtain ⟨middle, stepped, rest⟩ := Option.bind_eq_some_iff.mp ran
    rcases outputEvent_keeps grants ready (proper event (by simp)) stepped with released | ⟨left, further, bytes⟩
    · simp [run_released rest released] at alive
    · obtain ⟨last, end', total⟩ := ih further (fun other member => proper other (by simp [member])) rest
      refine ⟨last, end', ?_⟩
      rw [total, bytes]
      simp [sentBytes]

/-- Outgoing bytes are neither lost nor doubled nor reordered, and while some are
queued `EPOLLOUT` is enabled. -/
theorem sent_bytes_in_order (grants : ∀ size, RawCache.Grants allocate size) (handler : Handler)
    (events : List OutputEvent) (proper : ∀ event ∈ events, Proper event)
    (ran : Bookkeeping.run (outputEvent allocate) events (connected handler) = some after)
    (alive : after.released = false) :
    after.accepted ++ after.w.data = sentBytes events ∧ (after.w.data ≠ [] → after.newEvents.output = true) := by
  obtain ⟨left, ready, bytes⟩ := run_bytes grants (connected_ready handler) proper ran alive
  rw [ready.queued.data]
  exact ⟨by simpa [connected] using bytes, ready.output.mpr⟩

/-- A packet taken in part, another one while the first is queued, and two events until all is sent. -/
theorem sent_bytes_in_order_drained :
    ∃ after : Connection Unit,
      Bookkeeping.run (outputEvent RawCache.limitedPool)
          [.send ⟨[1, 2, 3], .part 1⟩, .send ⟨[4], .again⟩, .outputNotify (.part 2), .outputNotify .full]
          (connected ()) = some after ∧
        after.accepted ++ after.w.data = [1, 2, 3, 4] ∧ (after.w.data ≠ [] → after.newEvents.output = true) := by
  refine ⟨_, rfl, ?_⟩
  exact sent_bytes_in_order RawCache.limitedPool_grants ()
    [.send ⟨[1, 2, 3], .part 1⟩, .send ⟨[4], .again⟩, .outputNotify (.part 2), .outputNotify .full]
    (by simp [Proper]) rfl (by decide)

end Connection

end TeenpattiUserServer.Net
