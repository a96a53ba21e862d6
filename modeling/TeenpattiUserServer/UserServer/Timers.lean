import TeenpattiUserServer.Net.TimerList
import TeenpattiUserServer.UserServer.Options

/-! The timers of the process: the statistics report, the two checks of `Options` and
the reconnection of the statistics server. Each notification arms its timer again;
only the report takes its interval from a message. -/

namespace TeenpattiUserServer.UserServer

open Net TimerUnit

inductive ServerTimer where
  | check
  | flush
  | offline
  | link
  deriving DecidableEq, Repr

/-- What happens to the link meanwhile: `OnClose` and `OnConnected` of `CBackServer`. -/
inductive LinkChange where
  | closed
  | connected
  deriving DecidableEq, Repr

namespace Timers

/-- `FLUSH_CHECK_TIME` -/
def flushCheckTime : Int := 10 * 60 + 1

/-- `OnClose` starts the only timer that is a loop. -/
def linkInterval : Int := 5000

def linkChange (clock : Clock) (unit : TimerUnit ServerTimer) : LinkChange → TimerUnit ServerTimer
  | .closed => unit.startTimer clock .link linkInterval true
  | .connected => unit.stopTimer .link

def linkChanges (clock : Clock) (changes : List LinkChange) (unit : TimerUnit ServerTimer) : TimerUnit ServerTimer :=
  changes.foldl (linkChange clock) unit

/-- `CTimer::StartTimer` -/
def startSeconds (clock : Clock) (timer : ServerTimer) (interval : Int) (unit : TimerUnit ServerTimer) :
    TimerUnit ServerTimer := unit.startTimer clock timer (interval * 1000) false

/-- `Options::InitTimer` -/
def initTimer (clock : Clock) (options : Options) (unit : TimerUnit ServerTimer) : TimerUnit ServerTimer :=
  startSeconds clock .offline timeInteval.toInt
    (startSeconds clock .flush flushCheckTime (startSeconds clock .check options.tjInteval.toInt unit))

/-- `ReportData` may find the link broken. -/
def processTimeCheck (clock : Clock) (options : Options) (changes : List LinkChange) (unit : TimerUnit ServerTimer) :
    TimerUnit ServerTimer :=
  startSeconds clock .check options.tjInteval.toInt (linkChanges clock changes (unit.stopTimer .check))

def processFlushCheck (clock : Clock) (unit : TimerUnit ServerTimer) : TimerUnit ServerTimer :=
  startSeconds clock .flush flushCheckTime (unit.stopTimer .flush)

def processOfflineCheck (clock : Clock) (unit : TimerUnit ServerTimer) : TimerUnit ServerTimer :=
  startSeconds clock .offline timeInteval.toInt (unit.stopTimer .offline)

def processOnTimerOut (clock : Clock) (options : Options) (changes : List LinkChange) :
    ServerTimer → TimerUnit ServerTimer → TimerUnit ServerTimer
  | .check => processTimeCheck clock options changes
  | .flush => processFlushCheck clock
  | .offline => processOfflineCheck clock
  | .link => linkChanges clock changes

/-- `CCTimer::TimerNotify`. A timer that is a loop is the link's, with its interval. -/
def timerNotify (clock : Clock) (options : Options) (during : Nat → List LinkChange) : Notify ServerTimer :=
  fun count timer unit =>
    let after := processOnTimerOut clock options (during count) timer unit
    if after.isLoop timer then after.startTimer clock timer linkInterval true else after

/-- What happens to the link in one turn: while the poller is served, and in each
notification. -/
structure Turn where
  polled : List LinkChange
  during : Nat → List LinkChange

/-- One turn of `RunEventLoop`, with the timers that `CheckExpired` notified. -/
def turn (clock : Clock) (options : Options) (fuel : Nat) (turn : Turn) (unit : TimerUnit ServerTimer) :
    Option (Sweep ServerTimer) := do
  let now := clock.read unit.reads
  let served := linkChanges clock turn.polled { unit with reads := unit.reads + 1 }
  let notify := timerNotify clock options turn.during
  let sweep ← checkExpired clock notify fuel now served
  let rest ← checkPending notify fuel ⟨sweep.unit, []⟩
  pure ⟨rest.unit, sweep.notified⟩

/-- The calls of `CheckExpired` in a run, with what each notified. -/
def runTurns (clock : Clock) (options : Options) (fuel : Nat) :
    List Turn → TimerUnit ServerTimer → Option (List (List ServerTimer))
  | [], _ => some []
  | first :: rest, unit => do
    let sweep ← turn clock options fuel first unit
    let notified ← runTurns clock options fuel rest sweep.unit
    pure (sweep.notified :: notified)

/-- Once the report has fired and armed itself again, every later `CheckExpired` ends,
and notifies no timer twice. -/
def ProcessingEnds (options : Options) : Prop :=
  ∀ clock unit fuel first sweep, turn clock options fuel first unit = some sweep → .check ∈ sweep.notified →
    ∀ turns, ∃ fuel notified, runTurns clock options fuel turns sweep.unit = some notified ∧
      ∀ each ∈ notified, each.Nodup

/-- The timeout of the report's list: milliseconds, cut to an `int`. -/
def reportTimeout (options : Options) : Int32 := Int32.ofInt (options.tjInteval.toInt * 1000)

variable {clock : Clock} {options : Options} {unit before after : TimerUnit ServerTimer} {now : Int} {timer : ServerTimer}

theorem linkChange_postpones (change : LinkChange) (ahead : now ≤ clock.read unit.reads) :
    Postpones now unit (linkChange clock unit change) := by
  cases change with
  | closed => exact startTimer_postpones (by decide) ahead
  | connected => exact stopTimer_postpones

theorem linkChanges_postpones (changes : List LinkChange) (ahead : now ≤ clock.read unit.reads) :
    Postpones now unit (linkChanges clock changes unit) := by
  induction changes generalizing unit with
  | nil => exact .refl unit
  | cons change rest ih =>
    have first : Postpones now unit (linkChange clock unit change) := linkChange_postpones change ahead
    exact first.trans (ih (first.later.ahead ahead))

private theorem restart_postpones {interval : Int} (positive : 0 < (Int32.ofInt (interval * 1000)).toInt)
    (stopped : Postpones now unit after) (ahead : now ≤ clock.read unit.reads) :
    Postpones now unit (startSeconds clock timer interval after) :=
  stopped.trans (startTimer_postpones positive (stopped.later.ahead ahead))

theorem processOnTimerOut_postpones (positive : 0 < (reportTimeout options).toInt) (changes : List LinkChange)
    (ahead : now ≤ clock.read unit.reads) : Postpones now unit (processOnTimerOut clock options changes timer unit) := by
  cases timer with
  | check =>
    have stopped : Postpones now unit (unit.stopTimer .check) := stopTimer_postpones
    exact restart_postpones positive (stopped.trans (linkChanges_postpones changes (stopped.later.ahead ahead))) ahead
  | flush =>
    have long : 0 < (Int32.ofInt (flushCheckTime * 1000)).toInt := by decide
    exact restart_postpones long stopTimer_postpones ahead
  | offline =>
    have long : 0 < (Int32.ofInt (timeInteval.toInt * 1000)).toInt := by decide
    exact restart_postpones long stopTimer_postpones ahead
  | link => exact linkChanges_postpones changes ahead

theorem timerNotify_postpones (clock : Clock) (positive : 0 < (reportTimeout options).toInt)
    (during : Nat → List LinkChange) :
    (timerNotify clock options during).Postpones clock := by
  intro count timer unit now ahead
  have processed : Postpones now unit (processOnTimerOut clock options (during count) timer unit) :=
    processOnTimerOut_postpones positive (during count) ahead
  dsimp only [timerNotify]
  split
  · exact processed.trans (startTimer_postpones (by decide) (processed.later.ahead ahead))
  · exact processed

/-- There are four timers. -/
theorem armed_length_lt (unit : TimerUnit ServerTimer) : unit.armed.length < 5 := by
  have inside : unit.armed ⊆ [.check, .flush, .offline, .link] := fun timer _ => by cases timer <;> simp
  exact Nat.lt_succ_of_le (unit.once.length_le_of_subset inside)

private theorem turn_ends (clock : Clock) (positive : 0 < (reportTimeout options).toInt) (events : Turn)
    (unit : TimerUnit ServerTimer) :
    ∃ sweep, turn clock options 5 events unit = some sweep ∧ sweep.notified.Nodup := by
  have postpones := timerNotify_postpones clock positive events.during
  let started : TimerUnit ServerTimer := { unit with reads := unit.reads + 1 }
  have ahead : clock.read unit.reads ≤ clock.read started.reads := clock.forward _ _ (Nat.le_succ _)
  have served := linkChanges_postpones events.polled ahead
  obtain ⟨sweep, ran, apart, _⟩ := checkExpired_ends postpones (served.later.ahead ahead) (armed_length_lt _)
  have advances : Advances clock (clock.read sweep.unit.reads) ⟨sweep.unit, []⟩ :=
    ⟨Int.le_refl _, List.nodup_nil, by simp⟩
  have room : (sweep.unit.dues (clock.read sweep.unit.reads)).length < 5 :=
    Nat.lt_of_le_of_lt (dues_length_le _ _) (armed_length_lt _)
  obtain ⟨rest, emptied, _⟩ := checkPending_ends postpones advances room
  exact ⟨⟨rest.unit, sweep.notified⟩, by simp [turn, started, ran, emptied], apart⟩

/-- With a positive timeout, every run of the event loop goes on. -/
private theorem runTurns_end (positive : 0 < (reportTimeout options).toInt) (turns : List Turn)
    (unit : TimerUnit ServerTimer) :
    ∃ notified, runTurns clock options 5 turns unit = some notified ∧ ∀ each ∈ notified, each.Nodup := by
  induction turns generalizing unit with
  | nil => exact ⟨[], rfl, by simp⟩
  | cons first rest ih =>
    obtain ⟨sweep, ran, apart⟩ := turn_ends clock positive first unit
    obtain ⟨notified, ended, others⟩ := ih sweep.unit
    exact ⟨sweep.notified :: notified, by simp [runTurns, ran, ended], List.forall_mem_cons.mpr ⟨apart, others⟩⟩

/-- The report is in the list of `timeout`, with the expiry it had. -/
private structure Rearmed (timeout : Int32) (before after : TimerUnit ServerTimer) : Prop where
  order : after.order = if timeout ∈ before.order then before.order else timeout :: before.order
  pending : after.pending = before.pending.filter (· ≠ .check)
  objexp : after.objexp = before.objexp
  isLoop : after.isLoop .check = false
  reads : after.reads = before.reads
  others : ∀ other, other ≠ timeout → after.tlist other = (before.tlist other).filter (· ≠ .check)
  own : after.tlist timeout =
    (if timeout ∈ before.order then (before.tlist timeout).filter (· ≠ .check) else []) ++ [.check]

private theorem processTimeCheck_bad (clock : Clock) (bad : ¬ 0 < (reportTimeout options).toInt)
    (unit : TimerUnit ServerTimer) :
    Rearmed (reportTimeout options) unit (processTimeCheck clock options [] unit) := by
  let flagged : TimerUnit ServerTimer := { unit.stopTimer ServerTimer.check with
    isLoop := Function.update (unit.stopTimer ServerTimer.check).isLoop ServerTimer.check false
    interval := Function.update (unit.stopTimer ServerTimer.check).interval ServerTimer.check (options.tjInteval.toInt * 1000) }
  have armed : processTimeCheck clock options [] unit =
      (((flagged.getTimerList (reportTimeout options)).disableTimer .check).listMoveTail (reportTimeout options) .check) :=
    if_neg bad
  rw [armed]
  by_cases listed : reportTimeout options ∈ unit.order
  · constructor <;> simp +contextual [listMoveTail, disableTimer, getTimerList, stopTimer, listed, flagged]
  · constructor <;> simp +contextual [listMoveTail, disableTimer, getTimerList, stopTimer, listed, flagged]

private theorem timerNotify_bad (clock : Clock) (bad : ¬ 0 < (reportTimeout options).toInt)
    (count : Nat) (unit : TimerUnit ServerTimer) :
    Rearmed (reportTimeout options) unit (timerNotify clock options (fun _ => []) count .check unit) := by
  have rearmed := processTimeCheck_bad clock bad unit
  have once : timerNotify clock options (fun _ => []) count .check unit = processTimeCheck clock options [] unit := by
    simp [timerNotify, processOnTimerOut, rearmed.isLoop]
  rwa [once]

/-- The report is alone in its list, and due. -/
private structure Stuck (timeout : Int32) (now : Int) (sweep : Sweep ServerTimer) : Prop where
  alone : sweep.unit.tlist timeout = [.check]
  listed : timeout ∈ sweep.unit.order
  old : sweep.unit.objexp .check ≤ now

private theorem list_never_ends (clock : Clock) (bad : ¬ 0 < (reportTimeout options).toInt)
    (stamped : now ≠ 0) {sweep : Sweep ServerTimer}
    (stuck : Stuck (reportTimeout options) now sweep) (fuel : Nat) :
    checkExpiredList clock (timerNotify clock options fun _ => []) fuel now (reportTimeout options) sweep = none := by
  have kept (state : Sweep ServerTimer) (stuck : Stuck (reportTimeout options) now state) :
      ∃ next, expireRound (timerNotify clock options fun _ => []) now (reportTimeout options) state = some next ∧
        Stuck (reportTimeout options) now next := by
    refine ⟨_, by rw [expireRound, stuck.alone, List.head?_cons]; exact if_neg (Int.not_lt.mpr stuck.old), ?_⟩
    have rearmed := timerNotify_bad clock bad state.notified.length (state.unit.disableTimer .check)
    refine ⟨?_, ?_, ?_⟩
    · rw [notifyHead, rearmed.own]
      simp [disableTimer, stuck.alone]
    · rw [notifyHead, rearmed.order]
      simp [disableTimer, stuck.listed]
    · rw [notifyHead, rearmed.objexp]
      exact stuck.old
  rw [checkExpiredList, show stamp clock now sweep.unit = (now, sweep.unit) from if_neg stamped]
  exact Loops.iterate_never kept stuck fuel

/-- Nothing happens to the link. -/
def quiet : Turn := ⟨[], fun _ => []⟩

private theorem turn_never_ends (bad : ¬ 0 < (reportTimeout options).toInt) {rest : List Int32}
    (idle : unit.pending = []) (first : unit.order = reportTimeout options :: rest)
    (alone : unit.tlist (reportTimeout options) = [.check]) (old : unit.objexp .check ≤ clock.read unit.reads) (fuel : Nat) :
    turn clock options fuel quiet unit = none := by
  have stamped : clock.read unit.reads ≠ 0 := Int.ne_of_gt (clock.positive unit.reads)
  let served : Sweep ServerTimer := ⟨{ unit with reads := unit.reads + 1 }, []⟩
  have stuck : Stuck (reportTimeout options) (clock.read unit.reads) served :=
    ⟨alone, show _ ∈ unit.order by simp [first], old⟩
  have endless := list_never_ends clock bad stamped stuck fuel
  cases fuel with
  | zero => rfl
  | succ fuel =>
    have nothing : checkPending (timerNotify clock options fun _ => []) (fuel + 1) served = some served :=
      Loops.iterate_stop (by simp [pendingRound, served, idle])
    have expired : checkExpired clock (timerNotify clock options fun _ => []) (fuel + 1) (clock.read unit.reads)
        served.unit = none := by
      rw [checkExpired, show stamp clock (clock.read unit.reads) served.unit = (_, served.unit) from if_neg stamped]
      change (checkPending _ _ served).bind _ = none
      rw [nothing]
      change List.foldlM _ served unit.order = none
      rw [first, List.foldlM_cons, endless]
      rfl
    simp [turn, quiet, linkChanges, served, expired] at expired ⊢

/-- The timers as `InitTimer` leaves them, with a report each minute. -/
def armedClock : Clock where
  read call := if call < 3 then 1 else 60000001
  positive call := by split <;> decide
  forward call later bound := by split <;> split <;> omega

/-- No timer is in a list. -/
def idle : TimerUnit ServerTimer where
  order := []
  tlist _ := []
  pending := []
  objexp _ := 0
  isLoop _ := false
  interval _ := 0
  reads := 0
  distinct := List.nodup_nil
  once := List.nodup_nil

/-- A minute after `InitTimer` the report fires, and goes to a list of its own. -/
private theorem first_turn (bad : ¬ 0 < (reportTimeout options).toInt) :
    ∃ sweep, turn armedClock options 2 quiet (initTimer armedClock (.initial 0) idle) = some sweep ∧
      .check ∈ sweep.notified ∧ sweep.unit.pending = [] ∧
      sweep.unit.order = reportTimeout options :: [301000, 601000, 60000] ∧
      sweep.unit.tlist (reportTimeout options) = [.check] ∧
      sweep.unit.objexp .check ≤ armedClock.read sweep.unit.reads := by
  let start := initTimer armedClock (.initial 0) idle
  have order : start.order = [301000, 601000, 60000] := by decide +kernel
  have pending : start.pending = [] := by decide +kernel
  have offline : start.tlist 301000 = [.offline] := by decide +kernel
  have flush : start.tlist 601000 = [.flush] := by decide +kernel
  have check : start.tlist 60000 = [.check] := by decide +kernel
  have expiries : start.objexp .offline = 301000001 ∧ start.objexp .flush = 601000001 ∧ start.objexp .check = 60000001 := by
    decide +kernel
  have now : armedClock.read start.reads = 60000001 := by decide +kernel
  have apart : reportTimeout options ∉ start.order := by
    rw [order]
    intro member
    simp only [List.mem_cons, List.not_mem_nil, or_false] at member
    rcases member with same | same | same <;> rw [same] at bad <;> exact bad (by decide)
  let notify := timerNotify armedClock options fun _ => []
  let served : Sweep ServerTimer := ⟨{ start with reads := start.reads + 1 }, []⟩
  let fired := notifyHead notify .check served
  have rearmed : Rearmed (reportTimeout options) (served.unit.disableTimer .check) fired.unit :=
    timerNotify_bad armedClock bad 0 _
  have unset : (60000001 : Int) ≠ 0 := by decide
  have waits {timeout : Int32} {timer : ServerTimer} (alone : start.tlist timeout = [timer])
      (late : 60000001 < start.objexp timer) :
      checkExpiredList armedClock notify 2 60000001 timeout served = some served := by
    rw [checkExpiredList, show stamp armedClock 60000001 served.unit = (_, served.unit) from if_neg unset]
    exact Loops.iterate_stop (by simp [expireRound, served, alone, late])
  have fires : checkExpiredList armedClock notify 2 60000001 60000 served = some fired := by
    rw [checkExpiredList, show stamp armedClock 60000001 served.unit = (_, served.unit) from if_neg unset]
    have round : expireRound notify 60000001 60000 served = some fired := by
      simp [expireRound, served, check, expiries.2.2, fired]
    have emptied : fired.unit.tlist 60000 = [] := by
      rw [rearmed.others 60000 fun same => apart (by simp [order, ← same])]
      simp [disableTimer, served, check]
    exact (Loops.iterate_next round).trans (Loops.iterate_stop (by simp [expireRound, emptied]))
  have nothing {sweep : Sweep ServerTimer} (idle : sweep.unit.pending = []) : checkPending notify 2 sweep = some sweep :=
    Loops.iterate_stop (by simp [pendingRound, idle])
  have still : fired.unit.pending = [] := by
    rw [rearmed.pending]
    simp [disableTimer, served, pending]
  have expired : checkExpired armedClock notify 2 60000001 served.unit = some fired := by
    rw [checkExpired, show stamp armedClock 60000001 served.unit = (_, served.unit) from if_neg unset]
    change (checkPending _ _ served).bind _ = _
    rw [nothing pending, Option.bind_some, show served.unit.order = [301000, 601000, 60000] from order]
    simp [waits offline (by simp [expiries.1]), waits flush (by simp [expiries.2.1]), fires]
  refine ⟨⟨fired.unit, fired.notified⟩, ?_, by simp [fired, notifyHead, served], still, ?_, ?_, ?_⟩
  · have settled : checkPending notify 2 ⟨fired.unit, []⟩ = some ⟨fired.unit, []⟩ := nothing still
    change (checkExpired armedClock notify 2 (armedClock.read start.reads) served.unit).bind _ = _
    rw [now, expired]
    change (checkPending notify 2 ⟨fired.unit, []⟩).bind _ = _
    rw [settled]
    rfl
  · rw [rearmed.order]
    exact (if_neg apart).trans (by rw [← order]; rfl)
  · rw [rearmed.own]
    exact congrArg (· ++ [ServerTimer.check]) (if_neg apart)
  · rw [rearmed.objexp, rearmed.reads]
    change start.objexp .check ≤ armedClock.read (start.reads + 1)
    rw [expiries.2.2, ← now]
    exact armedClock.forward _ _ (Nat.le_succ _)

/-- From the first report with such an interval on, the event loop hangs. -/
private theorem processing_hangs (bad : ¬ 0 < (reportTimeout options).toInt) : ¬ ProcessingEnds options := by
  intro ends
  obtain ⟨sweep, ran, fired, idle, order, alone, old⟩ := first_turn bad
  obtain ⟨fuel, notified, ended, _⟩ := ends _ _ _ _ _ ran fired [quiet]
  have hangs := turn_never_ends bad idle order alone old fuel
  simp [runTurns, hangs] at ended

/-- The event loop goes on exactly when the interval gives a positive number of
milliseconds after the cut to an `int`. -/
theorem timer_processing_ends_iff (options : Options) (tjSwitch tjInteval : Int32) :
    ProcessingEnds (options.setTjSwitch tjSwitch tjInteval) ↔ 0 < (Int32.ofInt (tjInteval.toInt * 1000)).toInt := by
  rw [show Int32.ofInt (tjInteval.toInt * 1000) = reportTimeout (options.setTjSwitch tjSwitch tjInteval) from rfl]
  constructor
  · intro ends
    by_contra bad
    exact processing_hangs bad ends
  · intro positive clock unit fuel first sweep _ _ turns
    exact ⟨5, runTurns_end positive turns sweep.unit⟩

/-- A report every 0 seconds. -/
theorem timer_processing_hangs : ¬ ∀ (options : Options) (tjSwitch tjInteval : Int32),
    ProcessingEnds (options.setTjSwitch tjSwitch tjInteval) := by
  intro ends
  have bad : ¬ 0 < (reportTimeout ((Options.initial 0).setTjSwitch 1 0)).toInt := by decide
  exact processing_hangs bad (ends (.initial 0) 1 0)

end Timers

end TeenpattiUserServer.UserServer
