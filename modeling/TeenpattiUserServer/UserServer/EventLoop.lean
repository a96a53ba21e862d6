import TeenpattiUserServer.Net.Periodic
import TeenpattiUserServer.UserServer.Retention
import TeenpattiUserServer.UserServer.Timers

/-! `RunEventLoop`: the timers of the process and what it serves, turn by turn. The timers see to it
that the two checks are made regularly, and so the server keeps a user no longer than these allow. -/

namespace TeenpattiUserServer.UserServer

open Std Bookkeeping Net TimerUnit Timers

/-- The check of the users that a timer makes. -/
def ServerTimer.check? : ServerTimer → Option Event
  | .flush => some .flushCheck
  | .offline => some .offlineCheck
  | .check | .link => none

/-- What a turn of the loop brings: the packets that `ProcessPollerEvents` serves, what happens to the link,
and the answers to each notification. -/
structure Round where
  packets : List (Event × Answers)
  links : Timers.Turn
  answers : Nat → Answers
  served : ∀ input ∈ packets, isFlush input.1 = false ∧ isOfflineCheck input.1 = false

/-- The process between two turns. The source keeps no history: `log` lists what the server has done. -/
structure EventLoop where
  unit : TimerUnit ServerTimer
  server : Server
  log : List (Event × Answers)

namespace EventLoop

/-- What `main` does before `RunEventLoop`; the first attempt to connect comes before `InitTimer`. -/
def start (timestamps : Clock) (changes : List LinkChange) (server : Server) : EventLoop where
  unit := initTimer timestamps server.options (linkChanges timestamps changes idle)
  server
  log := []

def checks (answers : Nat → Answers) (notified : List ServerTimer) : List (Event × Answers) :=
  notified.zipIdx.filterMap fun (timer, count) => timer.check?.map fun event => (event, answers count)

/-- One turn of `RunEventLoop`. No check looks at the timers, and no timer at what the checks do. -/
def turn (timestamps : Clock) (fuel : Nat) (round : Round) (loop : EventLoop) : Option EventLoop := do
  let waited := (loop.unit.expireMicroSeconds timestamps 1000).2
  let now := timestamps.read waited.reads
  let served ← run (fun input : Event × Answers => Server.step input.1 input.2) round.packets loop.server
  let polled := linkChanges timestamps round.links.polled { waited with reads := waited.reads + 1 }
  let notify := Timers.timerNotify timestamps served.options round.links.during
  let expired ← checkExpired timestamps notify fuel now polled
  let rest ← checkPending notify fuel expired
  let made := checks round.answers rest.notified
  let server ← run (fun input : Event × Answers => Server.step input.1 input.2) made served
  pure ⟨rest.unit, server, loop.log ++ (round.packets ++ made)⟩

/-- The second in which the state is. -/
def second (timestamps : Clock) (loop : EventLoop) : Int := timestamps.read loop.unit.reads / 1000000

/-- A turn takes so many seconds at most, and nothing in it is earlier by `time` than its start. -/
structure Timed (timestamps : Clock) (delay : Nat) (before after : EventLoop) : Prop where
  paced : timestamps.read after.unit.reads ≤ timestamps.read before.unit.reads + delay * 1000000
  clocked : ∀ input ∈ after.log.drop before.log.length, second timestamps before ≤ clock input

/-- The intervals that are set for the report are positive and fit an `int` as milliseconds. -/
def Sensible (inputs : List (Event × Answers)) : Prop :=
  ∀ input ∈ inputs, ∀ tjSwitch tjInteval, input.1 = .request (.tjSwitch tjSwitch tjInteval) →
    TimerCall.Fits (tjInteval.toInt * 1000)

/-- The timers with an interval of their own, in seconds, and the checks they make. -/
inductive Periodic : ServerTimer → (Event → Bool) → Int → Prop
  | flush : Periodic .flush isFlush flushCheckTime
  | offline : Periodic .offline isOfflineCheck timeInteval.toInt

variable {timestamps : Clock} {options : Options} {unit : TimerUnit ServerTimer} {timer : ServerTimer}
  {kind : Event → Bool} {interval : Int}

/-! What the notifications do to the timers. -/

/-- A change of the link is a call on its timer. -/
private def linkCall : LinkChange → TimerCall ServerTimer
  | .closed => .start .link linkInterval true
  | .connected => .stop .link

/-- The calls on timers that a handler makes. -/
private def handlerCalls (options : Options) (changes : List LinkChange) :
    ServerTimer → List (TimerCall ServerTimer)
  | .check => .stop .check :: (changes.map linkCall ++ [.start .check (options.tjInteval.toInt * 1000) false])
  | .flush => [.stop .flush, .start .flush (flushCheckTime * 1000) false]
  | .offline => [.stop .offline, .start .offline (timeInteval.toInt * 1000) false]
  | .link => changes.map linkCall

private theorem linkChanges_eq (changes : List LinkChange) (unit : TimerUnit ServerTimer) :
    linkChanges timestamps changes unit = (changes.map linkCall).foldl (called timestamps) unit := by
  rw [linkChanges, List.foldl_map]
  congr 1
  funext state change
  cases change <;> rfl

private theorem processOnTimerOut_eq (changes : List LinkChange) (timer : ServerTimer) (unit : TimerUnit ServerTimer) :
    processOnTimerOut timestamps options changes timer unit =
      (handlerCalls options changes timer).foldl (called timestamps) unit := by
  cases timer with
  | check =>
    rw [processOnTimerOut, processTimeCheck, linkChanges_eq, handlerCalls, List.foldl_cons, List.foldl_append]
    rfl
  | flush | offline => rfl
  | link => exact linkChanges_eq ..

private theorem valid_linkCalls (changes : List LinkChange) :
    ∀ call ∈ changes.map linkCall, call.Valid ∧ call.timer = .link := by
  intro call member
  obtain ⟨change, _, rfl⟩ := List.mem_map.mp member
  cases change
  · exact ⟨⟨by decide, by decide⟩, rfl⟩
  · exact ⟨trivial, rfl⟩

private theorem valid_handlerCalls (fits : TimerCall.Fits (options.tjInteval.toInt * 1000)) (changes : List LinkChange)
    (timer : ServerTimer) : ∀ call ∈ handlerCalls options changes timer,
      call.Valid ∧ (call.timer = timer ∨ call.timer = .link) := by
  have links := valid_linkCalls changes
  cases timer with
  | check =>
    refine List.forall_mem_cons.mpr ⟨⟨trivial, .inl rfl⟩, fun call member => ?_⟩
    rcases List.mem_append.mp member with link | last
    · exact ⟨(links call link).1, .inr (links call link).2⟩
    · obtain rfl := List.mem_singleton.mp last
      exact ⟨fits, .inl rfl⟩
  | flush | offline =>
    refine List.forall_mem_cons.mpr ⟨⟨trivial, .inl rfl⟩, fun call last => ?_⟩
    obtain rfl := List.mem_singleton.mp last
    exact ⟨⟨by decide, by decide⟩, .inl rfl⟩
  | link => exact fun call member => ⟨(links call member).1, .inr (links call member).2⟩

/-- A notification makes calls on its own timer and on that of the link. -/
private theorem timerNotify_calls (fits : TimerCall.Fits (options.tjInteval.toInt * 1000))
    (during : Nat → List LinkChange) (count : Nat) (timer : ServerTimer) (unit : TimerUnit ServerTimer) :
    ∃ calls : List (TimerCall ServerTimer),
      Timers.timerNotify timestamps options during count timer unit = calls.foldl (called timestamps) unit ∧
      ∀ call ∈ calls, call.Valid ∧ (call.timer = timer ∨ call.timer = .link) := by
  have valid := valid_handlerCalls fits (during count) timer
  simp only [Timers.timerNotify, processOnTimerOut_eq]
  split
  · refine ⟨handlerCalls options (during count) timer ++ [.start timer linkInterval true], ?_, fun call member => ?_⟩
    · rw [List.foldl_append]
      rfl
    · rcases List.mem_append.mp member with first | last
      · exact valid call first
      · obtain rfl := List.mem_singleton.mp last
        exact ⟨⟨by decide, by decide⟩, .inl rfl⟩
  · exact ⟨_, rfl, valid⟩

private theorem timerNotify_touches (fits : TimerCall.Fits (options.tjInteval.toInt * 1000))
    (during : Nat → List LinkChange) (count : Nat) (ordered : unit.Ordered timestamps) :
    (Timers.timerNotify timestamps options during count timer unit).Ordered timestamps ∧ ∃ timers,
      Touches (timestamps.read unit.reads) timers unit (Timers.timerNotify timestamps options during count timer unit) ∧
        ∀ other ∈ timers, other = timer ∨ other = .link := by
  obtain ⟨calls, same, valid⟩ := @timerNotify_calls timestamps options fits during count timer unit
  rw [same]
  have called := calls_called (fun call member => (valid call member).1) ordered (Int.le_refl _)
  refine ⟨called.ordered, _, called.touches, fun other member => ?_⟩
  obtain ⟨call, made, rfl⟩ := List.mem_map.mp member
  exact (valid call made).2

private theorem Periodic.fits (periodic : Periodic timer kind interval) : TimerCall.Fits (interval * 1000) := by
  cases periodic <;> exact ⟨by decide, by decide⟩

private theorem Periodic.ne_link (periodic : Periodic timer kind interval) : timer ≠ .link := by
  cases periodic <;> decide

/-- The handler of such a timer stops it and starts it again. -/
private theorem Periodic.restarts (periodic : Periodic timer kind interval) (during : Nat → List LinkChange)
    (count : Nat) (unit : TimerUnit ServerTimer) :
    Timers.timerNotify timestamps options during count timer unit =
      (unit.stopTimer timer).startTimer timestamps timer (interval * 1000) false := by
  have handled : processOnTimerOut timestamps options (during count) timer unit =
      (unit.stopTimer timer).startTimer timestamps timer (interval * 1000) false := by
    cases periodic <;> rfl
  simp only [Timers.timerNotify, handled, startTimer_isLoop, Bool.false_eq_true, if_false]

private theorem Periodic.rearms (periodic : Periodic timer kind interval)
    (fits : TimerCall.Fits (options.tjInteval.toInt * 1000)) (during : Nat → List LinkChange) :
    Rearms timestamps (Int32.ofInt (interval * 1000)) timer (Timers.timerNotify timestamps options during) where
  ordered count other unit ordered := (timerNotify_touches fits during count ordered).1
  reads count other unit ordered := by
    obtain ⟨_, timers, touches, _⟩ := @timerNotify_touches timestamps options unit other fits during count ordered
    exact touches.later.reads
  own count unit ordered := by
    rw [periodic.restarts]
    exact startTimer_enlisted (positive_interval periodic.fits)
  others count other unit ordered different enlisted := by
    obtain ⟨_, timers, touches, only⟩ := @timerNotify_touches timestamps options unit other fits during count ordered
    have apart : timer ∉ timers := fun member => (only timer member).elim different.symm periodic.ne_link
    exact ⟨touches.enlisted apart enlisted, touches.objexp timer apart⟩

/-! When the last check was. -/

private theorem lastTime_append (kind : Event → Bool) (start : Int) (first second : List (Event × Answers)) :
    lastTime kind start (first ++ second) = lastTime kind (lastTime kind start first) second := List.foldl_append ..

private theorem lastTime_none {inputs : List (Event × Answers)} (none : ∀ input ∈ inputs, kind input.1 = false)
    (start : Int) : lastTime kind start inputs = start := by
  induction inputs generalizing start with
  | nil => rfl
  | cons input rest ih =>
    obtain ⟨first, others⟩ := List.forall_mem_cons.mp none
    rw [lastTime, List.foldl_cons, if_neg (by simp [first])]
    exact ih others start

private theorem le_lastTime {inputs : List (Event × Answers)} {begun start : Int}
    (later : ∀ input ∈ inputs, begun ≤ clock input)
    (some : begun ≤ start ∨ ∃ input ∈ inputs, kind input.1 = true) : begun ≤ lastTime kind start inputs := by
  induction inputs generalizing start with
  | nil => exact some.resolve_right (by simp)
  | cons input rest ih =>
    obtain ⟨first, others⟩ := List.forall_mem_cons.mp later
    rw [lastTime, List.foldl_cons]
    refine ih others ?_
    by_cases made : kind input.1 = true
    · rw [if_pos made]
      exact .inl first
    · rw [if_neg made]
      rcases some with before | ⟨other, member, which⟩
      · exact .inl before
      · refine .inr ⟨other, ?_, which⟩
        exact (List.mem_cons.mp member).resolve_left fun same => made (same ▸ which)

private theorem mem_checks {answers : Nat → Answers} {notified : List ServerTimer} {input : Event × Answers} :
    input ∈ checks answers notified ↔ ∃ (count : Nat) (timer : ServerTimer), notified[count]? = some timer ∧
      timer.check? = some input.1 ∧ input.2 = answers count := by
  simp only [checks, List.mem_filterMap, Prod.exists, List.mk_mem_zipIdx_iff_getElem?, Option.map_eq_some_iff]
  constructor
  · rintro ⟨timer, count, there, event, made, rfl⟩
    exact ⟨count, timer, there, made, rfl⟩
  · rintro ⟨count, timer, there, made, answered⟩
    exact ⟨timer, count, there, input.1, made, by rw [← answered]⟩

private theorem checked_event {answers : Nat → Answers} {notified : List ServerTimer} {input : Event × Answers}
    (member : input ∈ checks answers notified) : input.1 = .flushCheck ∨ input.1 = .offlineCheck := by
  obtain ⟨_, timer, _, made, _⟩ := mem_checks.mp member
  cases timer with
  | check | link => cases made
  | flush => exact .inl (Option.some.inj made).symm
  | offline => exact .inr (Option.some.inj made).symm

private theorem Periodic.checked (periodic : Periodic timer kind interval) (answers : Nat → Answers)
    {notified : List ServerTimer} (member : timer ∈ notified) :
    ∃ input ∈ checks answers notified, kind input.1 = true := by
  obtain ⟨count, there⟩ := List.mem_iff_getElem?.mp member
  cases periodic with
  | flush => exact ⟨(.flushCheck, answers count), mem_checks.mpr ⟨count, _, there, rfl, rfl⟩, rfl⟩
  | offline => exact ⟨(.offlineCheck, answers count), mem_checks.mpr ⟨count, _, there, rfl, rfl⟩, rfl⟩

private theorem Periodic.unchecked (periodic : Periodic timer kind interval) {answers : Nat → Answers}
    {notified : List ServerTimer} (absent : timer ∉ notified) :
    ∀ input ∈ checks answers notified, kind input.1 = false := by
  intro input member
  obtain ⟨count, other, there, made, _⟩ := mem_checks.mp member
  have different : other ≠ timer := ne_of_mem_of_not_mem (List.mem_of_getElem? there) absent
  generalize input.1 = event at made
  cases periodic <;> cases other <;> cases made <;> first | rfl | exact absurd rfl different

private theorem Periodic.served (periodic : Periodic timer kind interval) (round : Round) :
    ∀ input ∈ round.packets, kind input.1 = false := by
  intro input member
  cases periodic with
  | flush => exact (round.served input member).1
  | offline => exact (round.served input member).2

/-- A check is under way: its timer is in its list, and neither its expiry nor the state is long after the last time. -/
structure Regularly (timestamps : Clock) (delay : Nat) (start : Int) (timer : ServerTimer) (kind : Event → Bool)
    (interval : Int) (loop : EventLoop) : Prop where
  enlisted : loop.unit.Enlisted (Int32.ofInt (interval * 1000)) timer
  expiry : loop.unit.objexp timer < (lastTime kind start loop.log + 1 + delay + interval) * 1000000
  recent : timestamps.read loop.unit.reads < (lastTime kind start loop.log + 1 + 2 * delay + interval) * 1000000

/-- What holds between two turns. -/
structure Steady (timestamps : Clock) (delay : Nat) (begun : Server) (start : Int) (loop : EventLoop) : Prop where
  ran : run (fun input : Event × Answers => Server.step input.1 input.2) loop.log begun = some loop.server
  ordered : loop.unit.Ordered timestamps
  fits : TimerCall.Fits (loop.server.options.tjInteval.toInt * 1000)
  checks : ∀ timer kind interval, Periodic timer kind interval →
    Regularly timestamps delay start timer kind interval loop

/-- The interval of the report fits after a run that sets it sensibly. -/
private theorem fits_run {inputs : List (Event × Answers)} {server after : Server} (sensible : Sensible inputs)
    (fits : TimerCall.Fits (server.options.tjInteval.toInt * 1000))
    (ran : run (fun input : Event × Answers => Server.step input.1 input.2) inputs server = some after) :
    TimerCall.Fits (after.options.tjInteval.toInt * 1000) := by
  induction inputs generalizing server with
  | nil =>
    obtain rfl := Option.some.inj ran
    exact fits
  | cons input rest ih =>
    obtain ⟨own, others⟩ := List.forall_mem_cons.mp sensible
    obtain ⟨middle, stepped, further⟩ := Option.bind_eq_some_iff.mp ran
    refine ih others ?_ further
    rcases Server.step_interval stepped with ⟨tjSwitch, set⟩ | same
    · exact own _ _ set
    · rwa [same]

/-- The parts of a turn. -/
private theorem turn_parts {fuel : Nat} {round : Round} {loop after : EventLoop}
    (ran : turn timestamps fuel round loop = some after) : ∃ served expired rest,
      run (fun input : Event × Answers => Server.step input.1 input.2) round.packets loop.server = some served ∧
      checkExpired timestamps (Timers.timerNotify timestamps served.options round.links.during) fuel
        (timestamps.read (loop.unit.reads + 1)) (linkChanges timestamps round.links.polled
          { loop.unit with reads := loop.unit.reads + 2 }) = some expired ∧
      checkPending (Timers.timerNotify timestamps served.options round.links.during) fuel expired = some rest ∧
      run (fun input : Event × Answers => Server.step input.1 input.2) (checks round.answers rest.notified) served =
        some after.server ∧
      after.unit = rest.unit ∧ after.log = loop.log ++ (round.packets ++ checks round.answers rest.notified) := by
  obtain ⟨served, first, ran⟩ := Option.bind_eq_some_iff.mp ran
  obtain ⟨expired, second, ran⟩ := Option.bind_eq_some_iff.mp ran
  obtain ⟨rest, third, ran⟩ := Option.bind_eq_some_iff.mp ran
  obtain ⟨server, last, same⟩ := Option.bind_eq_some_iff.mp ran
  obtain rfl := Option.some.inj same
  exact ⟨served, expired, rest, first, second, third, last, rfl, rfl⟩

/-- What changes of the link do: the clock goes on, and the two other timers stay. -/
private theorem linkChanges_touches (changes : List LinkChange) (ordered : unit.Ordered timestamps) :
    (linkChanges timestamps changes unit).Ordered timestamps ∧ ∃ timers,
      Touches (timestamps.read unit.reads) timers unit (linkChanges timestamps changes unit) ∧
        ∀ other ∈ timers, other = .link := by
  have valid := valid_linkCalls changes
  have called := calls_called (fun call member => (valid call member).1) ordered
    (Int.le_refl (timestamps.read unit.reads))
  rw [linkChanges_eq]
  refine ⟨called.ordered, _, called.touches, fun other member => ?_⟩
  obtain ⟨call, made, rfl⟩ := List.mem_map.mp member
  exact (valid call made).2

variable {delay fuel : Nat} {begun : Server} {first : Int} {round : Round} {loop after : EventLoop}

/-- The timers of a turn, once the poller is served. -/
private theorem swept_watched (periodic : Periodic timer kind interval)
    (enlisted : loop.unit.Enlisted (Int32.ofInt (interval * 1000)) timer) (ordered : loop.unit.Ordered timestamps)
    {served : Server} {expired : Sweep ServerTimer} (fits : TimerCall.Fits (served.options.tjInteval.toInt * 1000))
    (ran : checkExpired timestamps (Timers.timerNotify timestamps served.options round.links.during) fuel
      (timestamps.read (loop.unit.reads + 1)) (linkChanges timestamps round.links.polled
        { loop.unit with reads := loop.unit.reads + 2 }) = some expired) :
    Watched timestamps (Int32.ofInt (interval * 1000)) timer loop.unit expired ∧
      timestamps.read (loop.unit.reads + 1) < expired.unit.objexp timer := by
  let waited : TimerUnit ServerTimer := { loop.unit with reads := loop.unit.reads + 2 }
  obtain ⟨polled, timers, touches, only⟩ := @linkChanges_touches timestamps waited round.links.polled ordered.read.read
  have apart : timer ∉ timers := fun member => periodic.ne_link (only timer member)
  have reads : loop.unit.reads + 2 ≤ (linkChanges timestamps round.links.polled waited).reads := touches.later.reads
  have ahead : timestamps.read (loop.unit.reads + 1) ≤
      timestamps.read (linkChanges timestamps round.links.polled waited).reads := timestamps.forward _ _ (by omega)
  obtain ⟨watched, late⟩ := checkExpired_watched (periodic.rearms fits round.links.during)
    (positive_interval periodic.fits) (Int.ne_of_gt (timestamps.positive _)) ahead polled
    (touches.enlisted apart enlisted) ran
  have further := watched.reads
  refine ⟨⟨watched.ordered, by omega, watched.enlisted, ?_⟩, late⟩
  rcases watched.expiry with ⟨quiet, kept⟩ | ⟨notified, call, begins, ends, started⟩
  · exact .inl ⟨quiet, kept.trans (touches.objexp timer apart)⟩
  · exact .inr ⟨notified, call, by omega, ends, started⟩

/-- A turn in which the timer is notified makes its check and starts it again; in another, it was not due. -/
private theorem regularly_turn (periodic : Periodic timer kind interval)
    (regularly : Regularly timestamps delay first timer kind interval loop) (timed : Timed timestamps delay loop after)
    {expired : Sweep ServerTimer}
    (watched : Watched timestamps (Int32.ofInt (interval * 1000)) timer loop.unit expired)
    (late : timestamps.read (loop.unit.reads + 1) < expired.unit.objexp timer) (unit : after.unit = expired.unit)
    (log : after.log = loop.log ++ (round.packets ++ checks round.answers expired.notified)) :
    Regularly timestamps delay first timer kind interval after := by
  have paced := timed.paced
  have forward := timestamps.forward loop.unit.reads (loop.unit.reads + 1) (by omega)
  have made : lastTime kind first after.log =
      lastTime kind (lastTime kind first loop.log) (round.packets ++ checks round.answers expired.notified) := by
    rw [log, lastTime_append]
  rcases watched.expiry with ⟨quiet, kept⟩ | ⟨notified, call, _, before, started⟩
  · have same : lastTime kind first after.log = lastTime kind first loop.log := by
      rw [made, lastTime_append, lastTime_none (periodic.served round), lastTime_none (periodic.unchecked quiet)]
    have old := regularly.expiry
    refine ⟨by rw [unit]; exact watched.enlisted, by rw [unit, same, kept]; exact old, ?_⟩
    rw [same]
    omega
  · have recent : second timestamps loop ≤ lastTime kind first after.log := by
      rw [made]
      refine le_lastTime (fun input member => timed.clocked input ?_) (.inr ?_)
      · rwa [log, List.drop_left]
      · obtain ⟨input, member, which⟩ := periodic.checked round.answers notified
        exact ⟨input, List.mem_append_right _ member, which⟩
    have begins : timestamps.read loop.unit.reads < (second timestamps loop + 1) * 1000000 := by
      rw [second]
      omega
    have last : timestamps.read call ≤ timestamps.read after.unit.reads := by
      rw [unit]
      exact timestamps.forward _ _ (by omega)
    have length := periodic.fits.1
    rw [toInt_interval periodic.fits] at started
    refine ⟨by rw [unit]; exact watched.enlisted, ?_, ?_⟩
    · rw [unit, started]
      omega
    · omega

/-- Without a timer that waits to be notified, `CheckPending` does nothing. -/
private theorem checkPending_idle {notify : Notify ServerTimer} {sweep rest : Sweep ServerTimer}
    (idle : sweep.unit.pending = []) (ran : checkPending notify fuel sweep = some rest) : rest = sweep := by
  cases fuel with
  | zero => cases ran
  | succ fuel =>
    have stops : pendingRound notify sweep = none := by rw [pendingRound, idle, List.head?_nil, Option.map_none]
    rw [checkPending, Loops.iterate_stop stops] at ran
    exact (Option.some.inj ran).symm

private theorem sensible_checks (answers : Nat → Answers) (notified : List ServerTimer) :
    Sensible (checks answers notified) := by
  intro input member tjSwitch tjInteval asked
  rcases checked_event member with flush | offline
  · cases asked.symm.trans flush
  · cases asked.symm.trans offline

/-- One turn keeps all that holds between turns. -/
private theorem steady_turn (steady : Steady timestamps delay begun first loop) (sensible : Sensible round.packets)
    (timed : Timed timestamps delay loop after) (ran : turn timestamps fuel round loop = some after) :
    Steady timestamps delay begun first after := by
  obtain ⟨served, expired, rest, packets, swept, emptied, checked, unit, log⟩ := turn_parts ran
  have fits := fits_run sensible steady.fits packets
  have watched {timer : ServerTimer} {kind : Event → Bool} {interval : Int} (periodic : Periodic timer kind interval) :=
    swept_watched periodic (steady.checks _ _ _ periodic).enlisted steady.ordered fits swept
  obtain rfl := checkPending_idle (watched .flush).1.ordered.idle emptied
  refine ⟨?_, ?_, fits_run (sensible_checks _ _) fits checked, fun timer kind interval periodic => ?_⟩
  · rw [log, run_append, steady.ran, Option.bind_some, run_append, packets, Option.bind_some]
    exact checked
  · rw [unit]
    exact (watched .flush).1.ordered
  · obtain ⟨kept, late⟩ := watched periodic
    exact regularly_turn periodic (steady.checks _ _ _ periodic) timed kept late unit log

variable {changes : List LinkChange} {rounds : List Round} {server : Server}

/-- A timer that is started before the first turn. -/
private theorem regularly_start (periodic : Periodic timer kind interval)
    (paced : timestamps.read loop.unit.reads ≤ timestamps.read 0 + delay * 1000000) (log : loop.log = [])
    (enlisted : loop.unit.Enlisted (Int32.ofInt (interval * 1000)) timer)
    (started : StartedBetween timestamps (Int32.ofInt (interval * 1000)) timer unit loop.unit) :
    Regularly timestamps delay (timestamps.read 0 / 1000000) timer kind interval loop := by
  obtain ⟨call, _, ends, expiry⟩ := started
  rw [toInt_interval periodic.fits] at expiry
  have length := periodic.fits.1
  have last := timestamps.forward call loop.unit.reads (by omega)
  have begins : lastTime kind (timestamps.read 0 / 1000000) loop.log = timestamps.read 0 / 1000000 := by
    rw [log]
    rfl
  refine ⟨enlisted, ?_, ?_⟩
  · rw [begins, expiry]
    omega
  · rw [begins]
    omega

/-- `InitTimer` starts the timers. -/
private theorem steady_start (fits : TimerCall.Fits (server.options.tjInteval.toInt * 1000))
    (paced : timestamps.read (start timestamps changes server).unit.reads ≤ timestamps.read 0 + delay * 1000000) :
    Steady timestamps delay server (timestamps.read 0 / 1000000) (start timestamps changes server) := by
  have empty : idle.Ordered timestamps := .initial ⟨rfl, rfl⟩
  have tried := (linkChanges_touches changes empty).1
  have first : Ordered timestamps (startSeconds timestamps .check server.options.tjInteval.toInt
      (linkChanges timestamps changes idle)) := tried.startTimer fits
  have second : Ordered timestamps (startSeconds timestamps .flush flushCheckTime (startSeconds timestamps .check
      server.options.tjInteval.toInt (linkChanges timestamps changes idle))) := first.startTimer Periodic.flush.fits
  have last := @startTimer_touches _ _ timestamps _ ServerTimer.offline _ _ false Periodic.offline.fits
    (Int.le_refl (timestamps.read (startSeconds timestamps .flush flushCheckTime (startSeconds timestamps .check
      server.options.tjInteval.toInt (linkChanges timestamps changes idle))).reads))
  refine ⟨rfl, second.startTimer Periodic.offline.fits, fits, fun timer kind interval periodic => ?_⟩
  cases periodic with
  | flush =>
    obtain ⟨enlisted, call, begins, ends, expiry⟩ := @startTimer_enlisted _ _ timestamps ServerTimer.flush
      (startSeconds timestamps .check server.options.tjInteval.toInt (linkChanges timestamps changes idle)) _ false
      (positive_interval Periodic.flush.fits)
    refine regularly_start .flush paced rfl (last.enlisted (by decide) enlisted) ⟨call, begins, ?_, ?_⟩
    · exact Nat.lt_of_lt_of_le ends last.later.reads
    · exact (last.objexp _ (by decide)).trans expiry
  | offline =>
    obtain ⟨enlisted, started⟩ := @startTimer_enlisted _ _ timestamps ServerTimer.offline
      (startSeconds timestamps .flush flushCheckTime (startSeconds timestamps .check
        server.options.tjInteval.toInt (linkChanges timestamps changes idle))) _ false
      (positive_interval Periodic.offline.fits)
    exact regularly_start .offline paced rfl enlisted started

private theorem steady_run (steady : Steady timestamps delay begun first loop)
    (sensible : ∀ round ∈ rounds, Sensible round.packets) (ran : run (turn timestamps fuel) rounds loop = some after)
    (timed : AtEachStep (turn timestamps fuel) rounds loop
      fun _ _ before after => Timed timestamps delay before after) :
    Steady timestamps delay begun first after := by
  induction rounds generalizing loop with
  | nil =>
    obtain rfl := Option.some.inj ran
    exact steady
  | cons round rounds ih =>
    obtain ⟨own, others⟩ := List.forall_mem_cons.mp sensible
    obtain ⟨middle, turned, rest⟩ := Option.bind_eq_some_iff.mp ran
    obtain ⟨now, later⟩ := (atEachStep_cons turned).mp timed
    exact ih (steady_turn steady own now turned) others rest later

/-- The checks of the users always go through. -/
private theorem checks_run (answers : Nat → Answers) (notified : List ServerTimer) (server : Server) :
    ∃ after, run (fun input : Event × Answers => Server.step input.1 input.2) (checks answers notified) server =
      some after := by
  have goes (input : Event × Answers) (member : input ∈ checks answers notified) (server : Server) :
      ∃ after, server.step input.1 input.2 = some after := by
    rcases checked_event member with flush | offline
    · exact ⟨_, by rw [flush]; rfl⟩
    · exact ⟨_, by rw [offline]; rfl⟩
  generalize checks answers notified = inputs at goes
  induction inputs generalizing server with
  | nil => exact ⟨server, rfl⟩
  | cons input rest ih =>
    obtain ⟨own, others⟩ := List.forall_mem_cons.mp goes
    obtain ⟨middle, stepped⟩ := own server
    obtain ⟨after, ran⟩ := ih middle others
    exact ⟨after, by rw [run, stepped, Option.bind_some, ran]⟩

/-- There are four timers, so a turn ends unless a packet is the end of the process. -/
private theorem turn_ends (steady : Steady timestamps delay begun first loop) (sensible : Sensible round.packets)
    {served : Server}
    (packets : run (fun input : Event × Answers => Server.step input.1 input.2) round.packets loop.server =
      some served) :
    ∃ after, turn timestamps 5 round loop = some after := by
  have fits := fits_run sensible steady.fits packets
  let waited : TimerUnit ServerTimer := { loop.unit with reads := loop.unit.reads + 2 }
  obtain ⟨_, _, touches, _⟩ := @linkChanges_touches timestamps waited round.links.polled steady.ordered.read.read
  have reads : loop.unit.reads + 2 ≤ (linkChanges timestamps round.links.polled waited).reads := touches.later.reads
  have postpones := Timers.timerNotify_postpones timestamps (positive_interval fits) round.links.during
  obtain ⟨expired, swept, _, _⟩ := checkExpired_ends postpones (timestamps.forward (loop.unit.reads + 1) _ (by omega))
    (armed_length_lt (linkChanges timestamps round.links.polled waited))
  have idle := (swept_watched .flush (steady.checks _ _ _ .flush).enlisted steady.ordered fits swept).1.ordered.idle
  have emptied : checkPending (Timers.timerNotify timestamps served.options round.links.during) 5 expired =
      some expired :=
    Loops.iterate_stop (by rw [pendingRound, idle, List.head?_nil, Option.map_none])
  obtain ⟨server, checked⟩ := checks_run round.answers expired.notified served
  refine ⟨⟨expired.unit, server, loop.log ++ (round.packets ++ checks round.answers expired.notified)⟩, ?_⟩
  exact Option.bind_eq_some_iff.mpr ⟨served, packets, Option.bind_eq_some_iff.mpr ⟨expired, swept,
    Option.bind_eq_some_iff.mpr ⟨expired, emptied, Option.bind_eq_some_iff.mpr ⟨server, checked, rfl⟩⟩⟩⟩

/-- As long as no turn takes longer than `delay` seconds, no record gets older than two hours and the interval of
the flush, and no entry of the offline list older than five minutes and the interval of its check, each but for two
turns; and the loop goes on until a packet is the end of the process. -/
theorem users_kept_in_time (keyed : server.Keyed) (fits : TimerCall.Fits (server.options.tjInteval.toInt * 1000))
    (recent : ∀ uid, (server.presence uid).Timely (timestamps.read 0 / 1000000) (timestamps.read 0 / 1000000))
    (sensible : ∀ round ∈ rounds, Sensible round.packets)
    (ran : run (turn timestamps 5) rounds (start timestamps changes server) = some after)
    (paced : timestamps.read (start timestamps changes server).unit.reads ≤ timestamps.read 0 + delay * 1000000)
    (timed : AtEachStep (turn timestamps 5) rounds (start timestamps changes server)
      fun _ _ before after => Timed timestamps delay before after)
    (ticks : Ticks (timestamps.read 0 / 1000000) after.log) :
    (∀ uid user, after.server.gshm.lookup uid = some user →
      second timestamps after - user.updateTime.toInt < 7200 + 601 + 2 * delay) ∧
    (∀ (uid time : Int32), after.server.options.offlineUserMgr[uid]? = some time →
      second timestamps after - time.toInt < 300 + 301 + 2 * delay) ∧
    ∀ round served, Sensible round.packets →
      run (fun input : Event × Answers => Server.step input.1 input.2) round.packets after.server = some served →
        ∃ next, turn timestamps 5 round after = some next := by
  have steady := steady_run (steady_start fits paced) sensible ran timed
  have epoch : 0 ≤ timestamps.read 0 / 1000000 := by
    have positive := timestamps.positive 0
    omega
  have timely (uid : Int32) := timely_run (Server.presence_run keyed steady.ran uid) ticks epoch (Int.le_refl _)
    (Int.le_refl _) (recent uid)
  have flushed := (steady.checks _ _ _ .flush).recent
  have checked := (steady.checks _ _ _ .offline).recent
  rw [show flushCheckTime = 601 by decide] at flushed
  rw [show timeInteval.toInt = 301 by decide] at checked
  refine ⟨fun uid user stored => ?_, fun uid time listed => ?_,
    fun round served own packets => turn_ends steady own packets⟩
  · have seat : (after.server.presence uid).seat = some user.seat := by rw [Server.presence, stored, Option.map_some]
    have age := ((timely uid).seat user.seat seat).2
    have same : user.seat.updateTime = user.updateTime := rfl
    rw [same] at age
    rw [second]
    omega
  · have age := ((timely uid).since time listed).2
    rw [second]
    omega

/-- A clock that stands still for a turn, and then goes on by ten minutes. -/
def tenMinutes : Clock where
  read call := if call < 5 then 1000000000 else 1602000000
  positive call := by split <;> decide
  forward call later bound := by split <;> split <;> omega

/-- Two users log in, and one of them is cut off at a table. -/
def cutOffRound : Round where
  packets := [(.request (.userLogin 7 1 7 3), Server.quiet 1000), (.request (.userLogin 8 1 8 3), Server.quiet 1000),
    (.request (.userEnterRoom 7 65536), Server.quiet 1000), (.request (.clientClose 7), Server.quiet 1000)]
  links := Timers.quiet
  answers _ := Server.quiet 1000
  served := by decide

def laterRound : Round where
  packets := []
  links := Timers.quiet
  answers _ := Server.quiet 1602
  served := by simp

private theorem answered_turn {time : Int32} (packets : ∀ input ∈ round.packets, input.2 = Server.quiet time)
    (answers : ∀ count, round.answers count = Server.quiet time) (ran : turn timestamps fuel round loop = some after) :
    ∃ notified, after.log = loop.log ++ (round.packets ++ checks round.answers notified) ∧
      ∀ input ∈ round.packets ++ checks round.answers notified, input.2 = Server.quiet time := by
  obtain ⟨served, expired, rest, _, _, _, _, _, log⟩ := turn_parts ran
  refine ⟨rest.notified, log, fun input member => ?_⟩
  rcases List.mem_append.mp member with packet | check
  · exact packets input packet
  · obtain ⟨count, _, _, _, answered⟩ := mem_checks.mp check
    rw [answered, answers]

private theorem ticks_append {time : Int32} {start : Int} {inputs rest : List (Event × Answers)}
    (quiet : ∀ input ∈ inputs, input.2 = Server.quiet time) (later : start ≤ time.toInt)
    (ticks : Ticks time.toInt rest) :
    Ticks start (inputs ++ rest) := by
  induction inputs generalizing start with
  | nil =>
    cases rest with
    | nil => trivial
    | cons input rest => exact ⟨Int.le_trans later ticks.1, ticks.2⟩
  | cons input inputs ih =>
    obtain ⟨own, others⟩ := List.forall_mem_cons.mp quiet
    have now : clock input = time.toInt := by rw [clock, own]; rfl
    refine ⟨by rw [now]; exact later, fun call => ?_, ?_⟩
    · rw [now, own]
      exact Int.le_refl _
    · rw [now]
      exact ih others (Int.le_refl _)

theorem users_kept_in_time_cutOff : ∃ after,
    run (turn tenMinutes 5) [cutOffRound, laterRound] (start tenMinutes [] (.initial 2 0)) = some after ∧
      after.server.gshm.lookup 7 = none ∧ after.server.gshm.lookup 8 ≠ none ∧
      (∀ uid user, after.server.gshm.lookup uid = some user →
        second tenMinutes after - user.updateTime.toInt < 7200 + 601 + 2 * (602 : Nat)) ∧
      (∀ (uid time : Int32), after.server.options.offlineUserMgr[uid]? = some time →
        second tenMinutes after - time.toInt < 300 + 301 + 2 * (602 : Nat)) ∧
      ∀ round served, Sensible round.packets →
        run (fun input : Event × Answers => Server.step input.1 input.2) round.packets after.server = some served →
          ∃ next, turn tenMinutes 5 round after = some next := by
  have facts : (run (turn tenMinutes 5) [cutOffRound, laterRound] (start tenMinutes [] (.initial 2 0))).map
      (fun after => ((after.server.gshm.lookup 7).isSome, (after.server.gshm.lookup 8).isSome, after.unit.reads)) =
        some (false, true, 10) := by decide +kernel
  have begun : (start tenMinutes [] (.initial 2 0)).unit.reads = 3 := by decide +kernel
  have turned : (turn tenMinutes 5 cutOffRound (start tenMinutes [] (.initial 2 0))).map
      (fun middle => middle.unit.reads) = some 5 := by decide +kernel
  obtain ⟨after, ran, seen⟩ := Option.map_eq_some_iff.mp facts
  simp only [Prod.mk.injEq] at seen
  obtain ⟨middle, first, rest⟩ := Option.bind_eq_some_iff.mp ran
  obtain ⟨last, second, same⟩ := Option.bind_eq_some_iff.mp rest
  obtain rfl := Option.some.inj same
  rw [first, Option.map_some, Option.some.injEq] at turned
  obtain ⟨early, log, quiet⟩ := @answered_turn _ _ cutOffRound _ _ 1000 (by simp [cutOffRound]) (fun _ => rfl) first
  obtain ⟨late, log', quiet'⟩ := @answered_turn _ _ laterRound _ _ 1602 (by simp [laterRound]) (fun _ => rfl) second
  have recent (uid : Int32) : (((Server.initial 2 0).presence uid).Timely 1000 1000) :=
    ⟨by simp [Server.presence, Server.initial, GameUserSHM.lookup],
      by simp [Server.presence, Server.initial, Options.initial]⟩
  have sensible : ∀ round ∈ [cutOffRound, laterRound], Sensible round.packets := by
    refine List.forall_mem_cons.mpr ⟨fun input member tjSwitch tjInteval asked => ?_, by simp [Sensible, laterRound]⟩
    simp only [cutOffRound, List.mem_cons, List.not_mem_nil, or_false] at member
    rcases member with rfl | rfl | rfl | rfl <;> cases asked
  have timed : AtEachStep (turn tenMinutes 5) [cutOffRound, laterRound] (start tenMinutes [] (.initial 2 0))
      fun _ _ before after => Timed tenMinutes 602 before after := by
    refine (atEachStep_cons first).mpr ⟨⟨?_, fun input member => ?_⟩, (atEachStep_cons second).mpr
      ⟨⟨?_, fun input member => ?_⟩, atEachStep_nil⟩⟩
    · rw [turned, begun]
      decide
    · rw [log, List.drop_left] at member
      rw [EventLoop.second, begun, clock, quiet input member]
      decide
    · rw [turned, seen.2.2]
      decide
    · rw [log', List.drop_left] at member
      rw [EventLoop.second, turned, clock, quiet' input member]
      decide
  have whole : last.log = (cutOffRound.packets ++ checks cutOffRound.answers early) ++
      ((laterRound.packets ++ checks laterRound.answers late) ++ []) := by
    rw [log', log, List.append_nil]
    rfl
  have ticks : Ticks (tenMinutes.read 0 / 1000000) last.log := by
    rw [whole]
    exact ticks_append quiet (by decide) (ticks_append quiet' (by decide) trivial)
  refine ⟨last, ran, by simpa using seen.1, fun gone => by simp [gone] at seen, ?_⟩
  exact users_kept_in_time (Server.fresh_initial 2 0).keyed ⟨by decide, by decide⟩ recent sensible ran
    (by rw [begun]; decide) timed ticks

end EventLoop

end TeenpattiUserServer.UserServer
