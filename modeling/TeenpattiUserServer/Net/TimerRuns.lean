import Mathlib.Data.List.Pairwise
import TeenpattiUserServer.Bookkeeping.Runs
import TeenpattiUserServer.Net.TimerList

/-! Timers that are started and stopped in any order, also out of their notifications. A
list stays ordered by expiry, so what `CheckExpired` and `ExpireMicroSeconds` see of it, its
first timer, is the next one due. -/

namespace TeenpattiUserServer.Net

open Bookkeeping Loops

variable {Timer : Type}

/-- A call on a `CCTimer`. -/
inductive TimerCall (Timer : Type) where
  | start (timer : Timer) (interval : Int) (isLoop : Bool)
  | stop (timer : Timer)

namespace TimerCall

def timer : TimerCall Timer → Timer
  | start timer _ _ => timer
  | stop timer => timer

/-- Milliseconds that are positive and fit an `int`. -/
def Fits (interval : Int) : Prop := 0 < interval ∧ interval < 2147483648

def Valid : TimerCall Timer → Prop
  | start _ interval _ => Fits interval
  | stop _ => True

end TimerCall

namespace TimerUnit

/-- What the loop of `ExpireMicroSeconds` over the lists makes of `exp`. -/
def earliest (unit : TimerUnit Timer) (exp : Int) : Int :=
  unit.order.foldl (fun exp timeout =>
    match (unit.tlist timeout).head? with
    | none => exp
    | some timer => if unit.objexp timer < exp then unit.objexp timer else exp) exp

/-- `ExpireMicroSeconds`, which takes and gives milliseconds. -/
def expireMicroSeconds (clock : Clock) (msec : Int32) (unit : TimerUnit Timer) : Int32 × TimerUnit Timer :=
  let now := clock.read unit.reads
  let exp := unit.earliest (now + msec.toInt * 1000) - now
  (if exp ≤ 0 then 0 else Int32.ofInt (exp / 1000), { unit with reads := unit.reads + 1 })

variable [DecidableEq Timer]

def called (clock : Clock) (unit : TimerUnit Timer) : TimerCall Timer → TimerUnit Timer
  | .start timer interval isLoop => unit.startTimer clock timer interval isLoop
  | .stop timer => unit.stopTimer timer

/-- `CCTimer::TimerNotify`, where `ProcessOnTimerOut` makes these calls. -/
def timerNotify (clock : Clock) (during : Nat → List (TimerCall Timer)) : Notify Timer := fun count timer unit =>
  let processed := (during count).foldl (called clock) unit
  if processed.isLoop timer then processed.startTimer clock timer (processed.interval timer) true else processed

/-- What happens to the timers. `getTimestamp` is a reading of the clock elsewhere. -/
inductive Event (Timer : Type) where
  | call (call : TimerCall Timer)
  | checkExpired (fuel : Nat) (now : Int) (during : Nat → List (TimerCall Timer))
  | expireMicroSeconds (msec : Int32)
  | getTimestamp

def step (clock : Clock) : Event Timer → TimerUnit Timer → Option (TimerUnit Timer)
  | .call call, unit => some (unit.called clock call)
  | .checkExpired fuel now during, unit =>
    (checkExpired clock (timerNotify clock during) fuel now unit).map Sweep.unit
  | .expireMicroSeconds msec, unit => some (unit.expireMicroSeconds clock msec).2
  | .getTimestamp, unit => some { unit with reads := unit.reads + 1 }

def Calls (during : Nat → List (TimerCall Timer)) : Prop := ∀ count, ∀ call ∈ during count, call.Valid

/-- `CheckExpired` is called with a time that has come, and with enough fuel. -/
def Allowed (clock : Clock) (unit : TimerUnit Timer) : Event Timer → Prop
  | .call call => call.Valid
  | .checkExpired fuel now during => now ≤ clock.read unit.reads ∧ Calls during ∧ unit.armed.length < fuel
  | .expireMicroSeconds _ => True
  | .getTimestamp => True

def Initial (unit : TimerUnit Timer) : Prop := unit.order = [] ∧ unit.pending = []

/-- Timers of a list expire in its order, and not later than one that is attached now. -/
structure Ordered (clock : Clock) (unit : TimerUnit Timer) : Prop where
  idle : unit.pending = []
  sorted : ∀ timeout ∈ unit.order,
    (unit.tlist timeout).Pairwise fun early late => unit.objexp early ≤ unit.objexp late
  bounded : ∀ timeout ∈ unit.order, ∀ timer ∈ unit.tlist timeout,
    unit.objexp timer ≤ clock.read unit.reads + timeout.toInt * 1000
  intervals : ∀ timer ∈ unit.armed, TimerCall.Fits (unit.interval timer)

variable {clock : Clock} {unit before after middle : TimerUnit Timer} {timer other : Timer} {now interval : Int}
  {timeout : Int32} {isLoop : Bool} {during : Nat → List (TimerCall Timer)} {fuel : Nat} {sweep : Sweep Timer}

omit [DecidableEq Timer] in
theorem mem_armed : timer ∈ unit.armed ↔ timer ∈ unit.pending ∨ ∃ timeout ∈ unit.order, timer ∈ unit.tlist timeout := by
  simp [armed]

omit [DecidableEq Timer] in
theorem Ordered.initial (initial : unit.Initial) : unit.Ordered clock := by
  obtain ⟨none, idle⟩ := initial
  refine ⟨idle, by simp [none], by simp [none], ?_⟩
  intro timer armed
  simp [mem_armed, none, idle] at armed

omit [DecidableEq Timer] in
theorem Ordered.read (ordered : unit.Ordered clock) : Ordered clock { unit with reads := unit.reads + 1 } :=
  ⟨ordered.idle, ordered.sorted, fun timeout listed timer member =>
    Int.le_trans (ordered.bounded timeout listed timer member)
      (Int.add_le_add_right (clock.forward _ _ (Nat.le_succ _)) _), ordered.intervals⟩

theorem Ordered.disableTimer (ordered : unit.Ordered clock) (timer : Timer) :
    (unit.disableTimer timer).Ordered clock := by
  refine ⟨?_, fun timeout listed => (ordered.sorted timeout listed).filter _, ?_, ?_⟩
  · change unit.pending.filter _ = []
    rw [ordered.idle, List.filter_nil]
  · intro timeout listed other member
    exact ordered.bounded timeout listed other (List.mem_filter.mp member).1
  · intro other armed
    apply ordered.intervals
    rw [mem_armed] at armed ⊢
    rcases armed with waiting | ⟨timeout, listed, member⟩
    · exact .inl (List.mem_filter.mp waiting).1
    · exact .inr ⟨timeout, listed, (List.mem_filter.mp member).1⟩

omit [DecidableEq Timer] in
theorem getTimerList_tlist (timeout place : Int32) : (unit.getTimerList timeout).tlist place =
    if timeout ∉ unit.order ∧ place = timeout then [] else unit.tlist place := by
  unfold getTimerList
  split
  · next listed => rw [if_neg fun both => both.1 listed]
  · next fresh => by_cases same : place = timeout <;> simp [fresh, same]

omit [DecidableEq Timer] in
theorem mem_getTimerList_order {place : Int32} :
    place ∈ (unit.getTimerList timeout).order ↔ place = timeout ∨ place ∈ unit.order := by
  unfold getTimerList
  split
  · next listed => exact ⟨.inr, fun either => either.elim (fun same => same ▸ listed) id⟩
  · exact List.mem_cons

omit [DecidableEq Timer] in
@[simp] theorem getTimerList_pending : (unit.getTimerList timeout).pending = unit.pending := by
  unfold getTimerList
  split <;> rfl

omit [DecidableEq Timer] in
@[simp] theorem getTimerList_objexp : (unit.getTimerList timeout).objexp = unit.objexp := by
  unfold getTimerList
  split <;> rfl

omit [DecidableEq Timer] in
@[simp] theorem getTimerList_interval : (unit.getTimerList timeout).interval = unit.interval := by
  unfold getTimerList
  split <;> rfl

omit [DecidableEq Timer] in
@[simp] theorem getTimerList_reads : (unit.getTimerList timeout).reads = unit.reads := by
  unfold getTimerList
  split <;> rfl

omit [DecidableEq Timer] in
/-- A new list is empty, and the others are as they were. -/
theorem mem_getTimerList {place : Int32} :
    (place ∈ (unit.getTimerList timeout).order ∧ other ∈ (unit.getTimerList timeout).tlist place) ↔
      place ∈ unit.order ∧ other ∈ unit.tlist place := by
  rw [mem_getTimerList_order, getTimerList_tlist]
  by_cases same : place = timeout
  · by_cases listed : timeout ∈ unit.order <;> simp [same, listed]
  · simp [same]

omit [DecidableEq Timer] in
theorem Ordered.getTimerList (ordered : unit.Ordered clock) (timeout : Int32) :
    (unit.getTimerList timeout).Ordered clock := by
  refine ⟨by rw [getTimerList_pending, ordered.idle], ?_, ?_, ?_⟩
  · intro place listed
    rw [getTimerList_objexp, getTimerList_tlist]
    split_ifs with empty
    · exact List.Pairwise.nil
    · refine ordered.sorted place ?_
      by_contra absent
      have same := (mem_getTimerList_order.mp listed).resolve_right absent
      exact empty ⟨same ▸ absent, same⟩
  · intro place listed other member
    obtain ⟨listed, member⟩ := mem_getTimerList.mp ⟨listed, member⟩
    rw [getTimerList_objexp, getTimerList_reads]
    exact ordered.bounded place listed other member
  · intro other armed
    rw [getTimerList_interval]
    apply ordered.intervals
    rw [mem_armed, getTimerList_pending] at armed
    rw [mem_armed]
    rcases armed with waiting | ⟨place, listed, member⟩
    · exact .inl waiting
    · exact .inr ⟨place, mem_getTimerList.mp ⟨listed, member⟩⟩

theorem listMoveTail_tlist (timeout place : Int32) : (unit.listMoveTail timeout timer).tlist place =
    (unit.tlist place).filter (· ≠ timer) ++ if place = timeout then [timer] else [] := by
  by_cases same : place = timeout
  · subst same
    simp [listMoveTail, disableTimer]
  · simp [listMoveTail, disableTimer, same]

theorem mem_listMoveTail {place : Int32} : other ∈ (unit.listMoveTail timeout timer).tlist place ↔
    other ∈ unit.tlist place ∧ other ≠ timer ∨ place = timeout ∧ other = timer := by
  rw [listMoveTail_tlist]
  by_cases same : place = timeout <;> simp [same]

/-- The new last timer of a list expires last in it. -/
theorem Ordered.attachTimer (ordered : unit.Ordered clock) (positive : 0 < timeout.toInt)
    (fits : TimerCall.Fits (unit.interval timer)) : (unit.attachTimer clock timeout timer).Ordered clock := by
  rw [TimerUnit.attachTimer, if_pos positive]
  have later : clock.read unit.reads ≤ clock.read (unit.reads + 1) := clock.forward _ _ (Nat.le_succ _)
  let expiry := Function.update unit.objexp timer (clock.read unit.reads + timeout.toInt * 1000)
  have own : expiry timer = clock.read unit.reads + timeout.toInt * 1000 := Function.update_self ..
  have kept (other : Timer) (different : other ≠ timer) : expiry other = unit.objexp other :=
    Function.update_of_ne different ..
  refine ⟨?_, ?_, ?_, ?_⟩
  · change unit.pending.filter _ = []
    rw [ordered.idle, List.filter_nil]
  · intro place listed
    rw [listMoveTail_tlist]
    refine List.pairwise_append.mpr ⟨?_, by split_ifs <;> simp, ?_⟩
    · refine ((ordered.sorted place listed).filter _).imp_of_mem fun {early late} first second le => ?_
      change expiry early ≤ expiry late
      rw [kept early (by simpa using (List.mem_filter.mp first).2),
        kept late (by simpa using (List.mem_filter.mp second).2)]
      exact le
    · intro early earlier late last
      split_ifs at last with same
      · obtain rfl := List.mem_singleton.mp last
        obtain ⟨member, different⟩ := List.mem_filter.mp earlier
        change expiry early ≤ expiry late
        rw [kept early (by simpa using different), own, ← same]
        exact ordered.bounded place listed early member
      · cases last
  · intro place listed other member
    change expiry other ≤ clock.read (unit.reads + 1) + place.toInt * 1000
    rcases mem_listMoveTail.mp member with ⟨before, different⟩ | ⟨rfl, rfl⟩
    · have bounded := ordered.bounded place listed other before
      rw [kept other different]
      omega
    · rw [own]
      omega
  · intro other armed
    rcases mem_armed.mp armed with waiting | ⟨place, listed, member⟩
    · exact ordered.intervals other (mem_armed.mpr (.inl (List.mem_filter.mp waiting).1))
    · rcases mem_listMoveTail.mp member with ⟨before, different⟩ | ⟨rfl, rfl⟩
      · exact ordered.intervals other (mem_armed.mpr (.inr ⟨place, listed, before⟩))
      · exact fits

theorem toInt_interval (fits : TimerCall.Fits interval) : (Int32.ofInt interval).toInt = interval := by
  obtain ⟨positive, small⟩ := fits
  exact Int32.toInt_ofInt_of_le (by omega) (by omega)

theorem positive_interval (fits : TimerCall.Fits interval) : 0 < (Int32.ofInt interval).toInt := by
  rw [toInt_interval fits]
  exact fits.1

theorem Ordered.startTimer (ordered : unit.Ordered clock) (fits : TimerCall.Fits interval) :
    (unit.startTimer clock timer interval isLoop).Ordered clock := by
  let flagged : TimerUnit Timer := { unit with
    isLoop := Function.update unit.isLoop timer isLoop
    interval := Function.update unit.interval timer interval }
  have own : Function.update unit.interval timer interval timer = interval := Function.update_self ..
  have start : flagged.Ordered clock := by
    refine ⟨ordered.idle, ordered.sorted, ordered.bounded, fun other armed => ?_⟩
    change TimerCall.Fits (Function.update unit.interval timer interval other)
    by_cases same : other = timer
    · rw [same, own]
      exact fits
    · rw [Function.update_of_ne same]
      exact ordered.intervals other armed
  refine ((start.getTimerList _).disableTimer timer).attachTimer (positive_interval fits) ?_
  change TimerCall.Fits ((flagged.getTimerList _).interval timer)
  rw [getTimerList_interval]
  change TimerCall.Fits (Function.update unit.interval timer interval timer)
  rwa [own]

theorem Ordered.stopTimer (ordered : unit.Ordered clock) : (unit.stopTimer timer).Ordered clock :=
  have disabled := ordered.disableTimer timer
  ⟨disabled.idle, disabled.sorted, disabled.bounded, disabled.intervals⟩

theorem Ordered.called {call : TimerCall Timer} (ordered : unit.Ordered clock) (valid : call.Valid) :
    (unit.called clock call).Ordered clock := by
  cases call with
  | start timer interval isLoop => exact ordered.startTimer valid
  | stop timer => exact ordered.stopTimer

theorem startTimer_interval : (unit.startTimer clock timer interval isLoop).interval =
    Function.update unit.interval timer interval := by
  unfold startTimer registTimer attachTimer
  split <;> exact getTimerList_interval

/-- A timer that was started once keeps an interval that fits. -/
theorem fits_called {call : TimerCall Timer} (fits : TimerCall.Fits (unit.interval other)) (valid : call.Valid) :
    TimerCall.Fits ((unit.called clock call).interval other) := by
  cases call with
  | start timer interval isLoop =>
    rw [TimerUnit.called, startTimer_interval]
    by_cases same : other = timer
    · rw [same, Function.update_self]
      exact valid
    · rw [Function.update_of_ne same]
      exact fits
  | stop timer => exact fits

/-- What calls on these timers do: the other timers stay as they are, and these are not due. -/
structure Touches (now : Int) (timers : List Timer) (before after : TimerUnit Timer) : Prop where
  later : Later before after
  objexp : ∀ other, other ∉ timers → after.objexp other = before.objexp other
  pending : ∀ other, other ∉ timers → (other ∈ after.pending ↔ other ∈ before.pending)
  lists : ∀ other, other ∉ timers → ∀ timeout, timeout ∈ after.order ∧ other ∈ after.tlist timeout ↔
    timeout ∈ before.order ∧ other ∈ before.tlist timeout
  gone : ∀ timer ∈ timers, timer ∉ after.dues now

omit [DecidableEq Timer] in
theorem Touches.refl (unit : TimerUnit Timer) : Touches now [] unit unit :=
  ⟨.refl unit, fun _ _ => rfl, fun _ _ => Iff.rfl, fun _ _ _ => Iff.rfl, fun _ member => by cases member⟩

omit [DecidableEq Timer] in
theorem Touches.mem_dues {timers : List Timer} (touches : Touches now timers before after) :
    timer ∈ after.dues now ↔ timer ∈ before.dues now ∧ timer ∉ timers := by
  by_cases touched : timer ∈ timers
  · exact iff_of_false (touches.gone timer touched) fun both => both.2 touched
  · rw [and_iff_left touched, TimerUnit.mem_dues, TimerUnit.mem_dues, touches.objexp timer touched,
      touches.pending timer touched]
    simp only [touches.lists timer touched]

omit [DecidableEq Timer] in
theorem Touches.trans {early late : List Timer} (first : Touches now early before middle)
    (second : Touches now late middle after) : Touches now (early ++ late) before after := by
  refine ⟨first.later.trans second.later, ?_, ?_, ?_, ?_⟩
  · intro other apart
    obtain ⟨neither, nor⟩ := not_or.mp (mt List.mem_append.mpr apart)
    exact (second.objexp other nor).trans (first.objexp other neither)
  · intro other apart
    obtain ⟨neither, nor⟩ := not_or.mp (mt List.mem_append.mpr apart)
    exact (second.pending other nor).trans (first.pending other neither)
  · intro other apart timeout
    obtain ⟨neither, nor⟩ := not_or.mp (mt List.mem_append.mpr apart)
    exact (second.lists other nor timeout).trans (first.lists other neither timeout)
  · intro timer touched due
    obtain ⟨was, apart⟩ := second.mem_dues.mp due
    exact first.gone timer ((List.mem_append.mp touched).resolve_right apart) was

omit [DecidableEq Timer] in
theorem Touches.congr {timers others : List Timer} (touches : Touches now timers before after)
    (same : ∀ timer, timer ∈ timers ↔ timer ∈ others) : Touches now others before after :=
  ⟨touches.later, fun other apart => touches.objexp other (mt (same other).mp apart),
    fun other apart => touches.pending other (mt (same other).mp apart),
    fun other apart => touches.lists other (mt (same other).mp apart),
    fun timer touched => touches.gone timer ((same timer).mpr touched)⟩

theorem disableTimer_touches : Touches now [timer] unit (unit.disableTimer timer) := by
  have postpones : Postpones now unit (unit.disableTimer timer) := disableTimer_postpones
  refine ⟨postpones.later, fun _ _ => rfl, ?_, ?_, ?_⟩
  · intro other apart
    simp_all [disableTimer]
  · intro other apart timeout
    simp_all [disableTimer]
  · intro other same due
    exact (mem_dues_disableTimer.mp due).2 (List.mem_singleton.mp same)

theorem stopTimer_touches : Touches now [timer] unit (unit.stopTimer timer) :=
  have disabled : Touches now [timer] unit (unit.disableTimer timer) := disableTimer_touches
  ⟨⟨disabled.later.reads, disabled.later.lists⟩, disabled.objexp, disabled.pending, disabled.lists, disabled.gone⟩

omit [DecidableEq Timer] in
theorem getTimerList_touches : Touches now [] unit (unit.getTimerList timeout) := by
  have postpones : Postpones now unit (unit.getTimerList timeout) := getTimerList_postpones
  refine ⟨postpones.later, ?_, ?_, fun other _ place => mem_getTimerList, fun _ member => by cases member⟩
  · intro other _
    rw [getTimerList_objexp]
  · intro other _
    rw [getTimerList_pending]

theorem attachTimer_touches (positive : 0 < timeout.toInt) (ahead : now ≤ clock.read unit.reads)
    (idle : timer ∉ unit.pending) :
    Touches now [timer] unit (unit.attachTimer clock timeout timer) := by
  have postpones : Postpones now unit (unit.attachTimer clock timeout timer) := attachTimer_postpones positive ahead
  refine ⟨postpones.later, ?_, ?_, ?_, ?_⟩
  · intro other apart
    rw [TimerUnit.attachTimer, if_pos positive]
    exact Function.update_of_ne (mt List.mem_singleton.mpr apart) ..
  · intro other apart
    rw [TimerUnit.attachTimer, if_pos positive]
    have disabled : Touches now [timer] unit (unit.disableTimer timer) := disableTimer_touches
    exact disabled.pending other apart
  · intro other apart place
    rw [TimerUnit.attachTimer, if_pos positive, mem_listMoveTail]
    simp_all [listMoveTail, disableTimer]
  · intro other same due
    obtain rfl := List.mem_singleton.mp same
    rw [TimerUnit.attachTimer, if_pos positive, mem_dues] at due
    rcases due with waiting | ⟨_, late⟩
    · exact idle (List.mem_filter.mp waiting).1
    · change Function.update unit.objexp other _ other ≤ now at late
      rw [Function.update_self] at late
      omega

theorem startTimer_touches (fits : TimerCall.Fits interval) (ahead : now ≤ clock.read unit.reads) :
    Touches now [timer] unit (unit.startTimer clock timer interval isLoop) := by
  let flagged : TimerUnit Timer := { unit with
    isLoop := Function.update unit.isLoop timer isLoop
    interval := Function.update unit.interval timer interval }
  have same : Touches now [] unit flagged := by
    have refl : Touches now [] unit unit := .refl unit
    exact ⟨⟨refl.later.reads, refl.later.lists⟩, refl.objexp, refl.pending, refl.lists, refl.gone⟩
  have listed : Touches now [timer] unit ((flagged.getTimerList (Int32.ofInt interval)).disableTimer timer) :=
    (same.trans getTimerList_touches).trans disableTimer_touches
  have attached : Touches now [timer] _ (unit.startTimer clock timer interval isLoop) :=
    attachTimer_touches (positive_interval fits) (listed.later.ahead ahead) (by simp [disableTimer])
  exact (listed.trans attached).congr (by simp)

theorem called_touches {call : TimerCall Timer} (valid : call.Valid) (ahead : now ≤ clock.read unit.reads) :
    Touches now [call.timer] unit (unit.called clock call) := by
  cases call with
  | start timer interval isLoop => exact startTimer_touches valid ahead
  | stop timer => exact stopTimer_touches

/-- Calls that follow each other. -/
structure Called (clock : Clock) (now : Int) (calls : List (TimerCall Timer)) (before after : TimerUnit Timer) :
    Prop where
  ordered : after.Ordered clock
  touches : Touches now (calls.map TimerCall.timer) before after
  fits : ∀ timer, TimerCall.Fits (before.interval timer) → TimerCall.Fits (after.interval timer)

theorem calls_called {calls : List (TimerCall Timer)} (valid : ∀ call ∈ calls, call.Valid)
    (ordered : unit.Ordered clock) (ahead : now ≤ clock.read unit.reads) :
    Called clock now calls unit (calls.foldl (called clock) unit) := by
  induction calls generalizing unit with
  | nil => exact ⟨ordered, .refl unit, fun _ fits => fits⟩
  | cons call rest ih =>
    obtain ⟨own, others⟩ := List.forall_mem_cons.mp valid
    have first : Touches now [call.timer] unit (unit.called clock call) := called_touches own ahead
    have later := ih others (ordered.called own) (first.later.ahead ahead)
    exact ⟨later.ordered, first.trans later.touches, fun timer fits => later.fits timer (fits_called fits own)⟩

/-- A notification touches its own timer and those that are started or stopped in it. -/
theorem notifyHead_touches (calls : Calls during) (ordered : sweep.unit.Ordered clock)
    (ahead : now ≤ clock.read sweep.unit.reads) (armed : timer ∈ sweep.unit.armed) :
    (notifyHead (timerNotify clock during) timer sweep).unit.Ordered clock ∧
      Touches now (timer :: (during sweep.notified.length).map TimerCall.timer) sweep.unit
        (notifyHead (timerNotify clock during) timer sweep).unit := by
  have disabled : Touches now [timer] sweep.unit (sweep.unit.disableTimer timer) := disableTimer_touches
  have processed := calls_called (calls sweep.notified.length) (ordered.disableTimer timer)
    (disabled.later.ahead ahead)
  have both := disabled.trans processed.touches
  have fits := processed.fits timer (ordered.intervals timer armed)
  dsimp only [notifyHead, timerNotify]
  split_ifs
  · have restarted := @startTimer_touches _ _ _ _ timer now _ true fits (both.later.ahead ahead)
    refine ⟨processed.ordered.startTimer fits, (both.trans restarted).congr fun other => ?_⟩
    simp only [List.mem_append, List.mem_cons]
    tauto
  · exact ⟨processed.ordered, both⟩

/-- In the order of expiry, if they were in one list. -/
def InOrder (start : TimerUnit Timer) (early late : Timer) : Prop :=
  ∀ timeout ∈ start.order, early ∈ start.tlist timeout → late ∈ start.tlist timeout →
    start.objexp early ≤ start.objexp late

/-- The first notifications neither start nor stop the timer. -/
def Untouched (during : Nat → List (TimerCall Timer)) (count : Nat) (timer : Timer) : Prop :=
  ∀ i < count, ∀ call ∈ during i, call.timer ≠ timer

omit [DecidableEq Timer] in
theorem untouched_succ {count : Nat} : Untouched during (count + 1) timer ↔
    Untouched during count timer ∧ ∀ call ∈ during count, call.timer ≠ timer := by
  constructor
  · exact fun all => ⟨fun i less => all i (by omega), all count (Nat.lt_succ_self count)⟩
  · rintro ⟨before, last⟩ i less
    rcases Nat.lt_succ_iff_lt_or_eq.mp less with earlier | rfl
    · exact before i earlier
    · exact last

/-- How far a call of `CheckExpired` is: what is due now is what was due at its start, but for the
timers that were notified, started or stopped meanwhile, and it is where it was. -/
structure Progress (clock : Clock) (now : Int) (during : Nat → List (TimerCall Timer)) (start : TimerUnit Timer)
    (sweep : Sweep Timer) : Prop where
  ordered : sweep.unit.Ordered clock
  ahead : now ≤ clock.read sweep.unit.reads
  lists : ∀ timeout ∈ start.order, timeout ∈ sweep.unit.order
  once : sweep.notified.Nodup
  notified : ∀ timer ∈ sweep.notified, timer ∈ start.dues now ∧ ∀ i < sweep.notified.length,
    timer ∉ sweep.notified.take (i + 1) → ∀ call ∈ during i, call.timer ≠ timer
  dues : ∀ timer, timer ∈ sweep.unit.dues now ↔
    timer ∈ start.dues now ∧ timer ∉ sweep.notified ∧ Untouched during sweep.notified.length timer
  objexp : ∀ timer ∈ sweep.unit.dues now, sweep.unit.objexp timer = start.objexp timer
  places : ∀ timer ∈ sweep.unit.dues now, ∀ timeout, timeout ∈ sweep.unit.order ∧ timer ∈ sweep.unit.tlist timeout ↔
    timeout ∈ start.order ∧ timer ∈ start.tlist timeout
  sorted : sweep.notified.Pairwise (InOrder start)
  next : ∀ early ∈ sweep.notified, ∀ late ∈ sweep.unit.dues now, InOrder start early late

omit [DecidableEq Timer] in
theorem Progress.start (ordered : unit.Ordered clock) (ahead : now ≤ clock.read unit.reads) :
    Progress clock now during unit ⟨unit, []⟩ where
  ordered := ordered
  ahead := ahead
  lists _ listed := listed
  once := List.nodup_nil
  notified _ member := absurd member List.not_mem_nil
  dues _ := ⟨fun due => ⟨due, List.not_mem_nil, fun _ less => absurd less (Nat.not_lt_zero _)⟩, And.left⟩
  objexp _ _ := rfl
  places _ _ _ := Iff.rfl
  sorted := List.Pairwise.nil
  next _ member := absurd member List.not_mem_nil

omit [DecidableEq Timer] in
theorem list_unique {place : Int32} (listed : timeout ∈ unit.order) (member : timer ∈ unit.tlist timeout)
    (listed' : place ∈ unit.order) (member' : timer ∈ unit.tlist place) : place = timeout := by
  obtain ⟨_, apart⟩ := List.nodup_flatMap.mp (List.nodup_append.mp unit.once).2.1
  have symm : Std.Symm (Function.onFun List.Disjoint unit.tlist) :=
    ⟨fun _ _ disjoint _ mine theirs => disjoint theirs mine⟩
  by_contra different
  exact apart.forall listed' listed different member' member

omit [DecidableEq Timer] in
/-- The first timer of a list expires first in it. -/
theorem Ordered.head_le (ordered : unit.Ordered clock) (listed : timeout ∈ unit.order)
    (first : (unit.tlist timeout).head? = some timer) (member : other ∈ unit.tlist timeout) :
    unit.objexp timer ≤ unit.objexp other := by
  obtain ⟨rest, split⟩ := List.head?_eq_some_iff.mp first
  have sorted := ordered.sorted timeout listed
  rw [split] at sorted member
  rcases List.mem_cons.mp member with rfl | behind
  · exact Int.le_refl _
  · exact (List.pairwise_cons.mp sorted).1 other behind

theorem Progress.notifyHead {start : TimerUnit Timer} (progress : Progress clock now during start sweep)
    (calls : Calls during) (listed : timeout ∈ sweep.unit.order)
    (first : (sweep.unit.tlist timeout).head? = some timer) (reached : sweep.unit.objexp timer ≤ now) :
    Progress clock now during start (notifyHead (timerNotify clock during) timer sweep) ∧
      ∀ other, other ∈ (TimerUnit.notifyHead (timerNotify clock during) timer sweep).unit.dues now →
        other ∈ sweep.unit.dues now ∧ other ≠ timer := by
  have member : timer ∈ sweep.unit.tlist timeout := List.mem_of_mem_head? first
  have due : timer ∈ sweep.unit.dues now := mem_dues.mpr (.inr ⟨⟨timeout, listed, member⟩, reached⟩)
  obtain ⟨ordered, touches⟩ := notifyHead_touches calls progress.ordered progress.ahead
    (mem_armed.mpr (.inr ⟨timeout, listed, member⟩))
  obtain ⟨dueAtStart, fresh, untouched⟩ := (progress.dues timer).mp due
  have grown : (TimerUnit.notifyHead (timerNotify clock during) timer sweep).notified = sweep.notified ++ [timer] := rfl
  have length : (sweep.notified ++ [timer]).length = sweep.notified.length + 1 := by simp
  have fewer (other : Timer)
      (still : other ∈ (TimerUnit.notifyHead (timerNotify clock during) timer sweep).unit.dues now) :
      other ∈ sweep.unit.dues now ∧ other ∉ timer :: (during sweep.notified.length).map TimerCall.timer :=
    touches.mem_dues.mp still
  refine ⟨⟨ordered, touches.later.ahead progress.ahead,
    fun place old => touches.later.lists _ (progress.lists place old),
    ?_, ?_, ?_, ?_, ?_, ?_, ?_⟩, fun other still => ⟨(fewer other still).1, fun same => ?_⟩⟩
  · refine List.nodup_append.mpr ⟨progress.once, List.nodup_singleton _, fun early earlier late last => ?_⟩
    rw [List.mem_singleton.mp last]
    exact ne_of_mem_of_not_mem earlier fresh
  · rw [grown]
    intro other member
    rw [length]
    rcases List.mem_append.mp member with old | last
    · obtain ⟨dueToo, kept⟩ := progress.notified other old
      refine ⟨dueToo, fun i less ahead => kept i ?_ ?_⟩
      · by_contra late
        exact ahead (by rw [List.take_of_length_le (by omega)]; exact member)
      · exact fun taken => ahead (by rw [List.take_append]; exact List.mem_append.mpr (.inl taken))
    · obtain rfl := List.mem_singleton.mp last
      refine ⟨dueAtStart, fun i less ahead => untouched i ?_⟩
      by_contra late
      exact ahead (by rw [List.take_of_length_le (by omega)]; exact member)
  · intro other
    rw [touches.mem_dues, progress.dues]
    rw [grown, length, untouched_succ]
    simp only [List.mem_cons, List.mem_map, List.mem_append, List.not_mem_nil, or_false, not_or, not_exists, not_and]
    tauto
  · intro other still
    obtain ⟨before, apart⟩ := fewer other still
    exact (touches.objexp other apart).trans (progress.objexp other before)
  · intro other still place
    obtain ⟨before, apart⟩ := fewer other still
    exact (touches.lists other apart place).trans (progress.places other before place)
  · exact List.pairwise_append.mpr ⟨progress.sorted, List.pairwise_singleton .., fun early earlier late last =>
      List.mem_singleton.mp last ▸ progress.next early earlier timer due⟩
  · intro early earlier late still
    have before := (fewer late still).1
    rcases List.mem_append.mp earlier with old | last
    · exact progress.next early old late before
    · obtain rfl := List.mem_singleton.mp last
      intro place known own others
      obtain ⟨_, mine⟩ := (progress.places early due place).mpr ⟨known, own⟩
      obtain rfl := list_unique listed member (progress.lists place known) mine
      obtain ⟨_, theirs⟩ := (progress.places late before place).mpr ⟨known, others⟩
      rw [← progress.objexp early due, ← progress.objexp late before]
      exact progress.ordered.head_le listed first theirs
  · exact (fewer other still).2 (same ▸ List.mem_cons_self)

omit [DecidableEq Timer] in
private theorem dues_fewer (gone : timer ∈ before.dues now)
    (fewer : ∀ other, other ∈ after.dues now → other ∈ before.dues now ∧ other ≠ timer) :
    (after.dues now).length < (before.dues now).length := by
  have distinct : (timer :: after.dues now).Nodup :=
    List.nodup_cons.mpr ⟨fun still => (fewer timer still).2 rfl, dues_nodup now after⟩
  exact Nat.lt_of_succ_le (distinct.length_le_of_subset
    (List.cons_subset.mpr ⟨gone, fun other still => (fewer other still).1⟩))

/-- The rounds on one list: they end, and none of its timers is due then. -/
private theorem list_expires {start : TimerUnit Timer} (calls : Calls during) (listed : timeout ∈ start.order)
    (progress : Progress clock now during start sweep) (enough : (sweep.unit.dues now).length < fuel) :
    ∃ final, iterate (expireRound (timerNotify clock during) now timeout) fuel sweep = some final ∧
      Progress clock now during start final ∧ (final.unit.dues now).length < fuel ∧
      (∀ timer ∈ final.unit.dues now, timer ∈ sweep.unit.dues now) ∧
      ∀ timer ∈ final.unit.dues now, timer ∉ start.tlist timeout := by
  let inv (state : Sweep Timer) : Prop := Progress clock now during start state ∧
    ∀ timer ∈ state.unit.dues now, timer ∈ sweep.unit.dues now
  have kept (state next : Sweep Timer) (held : inv state)
      (goes : expireRound (timerNotify clock during) now timeout state = some next) :
      inv next ∧ (next.unit.dues now).length < (state.unit.dues now).length := by
    obtain ⟨progress, old⟩ := held
    rw [expireRound] at goes
    cases first : (state.unit.tlist timeout).head? with
    | none => simp [first] at goes
    | some timer =>
      simp only [first] at goes
      split_ifs at goes with ahead
      obtain rfl := Option.some.inj goes
      have place := progress.lists timeout listed
      have member := List.mem_of_mem_head? first
      obtain ⟨further, fewer⟩ := progress.notifyHead calls place first (Int.not_lt.mp ahead)
      refine ⟨⟨further, fun other still => old other (fewer other still).1⟩, dues_fewer ?_ fewer⟩
      exact mem_dues.mpr (.inr ⟨⟨timeout, place, member⟩, Int.not_lt.mp ahead⟩)
  obtain ⟨final, ran, ⟨ended, old⟩, bound, stops⟩ := iterate_ends kept ⟨progress, fun _ due => due⟩ enough
  refine ⟨final, ran, ended, by omega, old, fun timer due inside => ?_⟩
  obtain ⟨place, member⟩ := (ended.places timer due timeout).mpr ⟨listed, inside⟩
  have reached : final.unit.objexp timer ≤ now := by
    rcases mem_dues.mp due with waiting | ⟨_, reached⟩
    · rw [ended.ordered.idle] at waiting
      cases waiting
    · exact reached
  rw [expireRound] at stops
  cases first : (final.unit.tlist timeout).head? with
  | none =>
    rw [List.head?_eq_none_iff.mp first] at member
    cases member
  | some head =>
    have early := ended.ordered.head_le place first member
    have past : ¬ now < final.unit.objexp head := by omega
    simp [first, past] at stops

private theorem lists_expire {start : TimerUnit Timer} (calls : Calls during) (stamped : now ≠ 0) {order : List Int32}
    (listed : ∀ timeout ∈ order, timeout ∈ start.order) (progress : Progress clock now during start sweep)
    (enough : (sweep.unit.dues now).length < fuel) :
    ∃ final, order.foldlM (fun sweep timeout =>
        checkExpiredList clock (timerNotify clock during) fuel now timeout sweep) sweep = some final ∧
      Progress clock now during start final ∧ (∀ timer ∈ final.unit.dues now, timer ∈ sweep.unit.dues now) ∧
      ∀ timeout ∈ order, ∀ timer ∈ final.unit.dues now, timer ∉ start.tlist timeout := by
  induction order generalizing sweep with
  | nil => exact ⟨sweep, rfl, progress, fun _ due => due, fun _ member => by cases member⟩
  | cons timeout rest ih =>
    obtain ⟨first, others⟩ := List.forall_mem_cons.mp listed
    obtain ⟨middle, ran, further, bound, old, empty⟩ := list_expires calls first progress enough
    obtain ⟨final, ended, last, older, empties⟩ := ih others further bound
    have same : checkExpiredList clock (timerNotify clock during) fuel now timeout sweep = some middle := by
      rw [checkExpiredList, show stamp clock now sweep.unit = (now, sweep.unit) from if_neg stamped]
      exact ran
    refine ⟨final, ?_, last, fun timer due => old timer (older timer due), ?_⟩
    · rw [List.foldlM_cons, same]
      exact ended
    · rintro place member timer due
      rcases List.mem_cons.mp member with rfl | later
      · exact empty timer (older timer due)
      · exact empties place later timer due

/-- What a call of `CheckExpired` notifies: the timers that are due, each once, but for those that an
earlier notification started or stopped. -/
structure Fired (now : Int) (during : Nat → List (TimerCall Timer)) (before : TimerUnit Timer) (sweep : Sweep Timer) :
    Prop where
  once : sweep.notified.Nodup
  exactly : ∀ timer, timer ∈ sweep.notified ↔ timer ∈ before.armed ∧ before.objexp timer ≤ now ∧
    ∀ i < sweep.notified.length, (∃ call ∈ during i, call.timer = timer) → timer ∈ sweep.notified.take (i + 1)
  sorted : sweep.notified.Pairwise (InOrder before)

omit [DecidableEq Timer] in
private theorem Progress.fired (ordered : unit.Ordered clock) (progress : Progress clock now during unit sweep)
    (empty : ∀ timer, timer ∉ sweep.unit.dues now) : Fired now during unit sweep := by
  have due (timer : Timer) : timer ∈ unit.dues now ↔ timer ∈ unit.armed ∧ unit.objexp timer ≤ now := by
    simp [mem_dues, mem_armed, ordered.idle]
  refine ⟨progress.once, fun timer => ⟨?_, ?_⟩, progress.sorted⟩
  · intro member
    obtain ⟨dueAtStart, kept⟩ := progress.notified timer member
    obtain ⟨armed, reached⟩ := (due timer).mp dueAtStart
    refine ⟨armed, reached, ?_⟩
    rintro i less ⟨call, made, same⟩
    by_contra ahead
    exact kept i less ahead call made same
  · rintro ⟨armed, reached, all⟩
    by_contra absent
    refine empty timer ((progress.dues timer).mpr ⟨(due timer).mpr ⟨armed, reached⟩, absent, ?_⟩)
    intro i less call made same
    exact absent (List.mem_of_mem_take (all i less ⟨call, made, same⟩))

/-- The time that `CheckExpired` takes: 0 stands for the clock's. -/
def effective (clock : Clock) (now : Int) (unit : TimerUnit Timer) : Int :=
  if now = 0 then clock.read unit.reads else now

theorem checkExpired_fires (calls : Calls during) (ordered : unit.Ordered clock)
    (ahead : now ≤ clock.read unit.reads) (enough : unit.armed.length < fuel) :
    ∃ sweep, checkExpired clock (timerNotify clock during) fuel now unit = some sweep ∧ sweep.unit.Ordered clock ∧
      Fired (effective clock now unit) during unit sweep := by
  have stamps : ∃ stamped, stamp clock now unit = (effective clock now unit, stamped) ∧ stamped.Ordered clock ∧
      effective clock now unit ≤ clock.read stamped.reads ∧ effective clock now unit ≠ 0 ∧
      stamped.order = unit.order ∧ stamped.tlist = unit.tlist ∧ stamped.pending = unit.pending ∧
      stamped.objexp = unit.objexp := by
    by_cases unset : now = 0
    · refine ⟨_, ?_, ordered.read, ?_, ?_, rfl, rfl, rfl, rfl⟩
      · rw [stamp, effective, if_pos unset, if_pos unset]
      · rw [effective, if_pos unset]
        exact clock.forward _ _ (Nat.le_succ _)
      · rw [effective, if_pos unset]
        exact Int.ne_of_gt (clock.positive unit.reads)
    · refine ⟨unit, ?_, ordered, ?_, ?_, rfl, rfl, rfl, rfl⟩
      · rw [stamp, effective, if_neg unset, if_neg unset]
      · rwa [effective, if_neg unset]
      · rwa [effective, if_neg unset]
  obtain ⟨stamped, same, good, ready, nonzero, order, tlist, pending, objexp⟩ := stamps
  generalize effective clock now unit = late at same ready nonzero ⊢
  have armed : stamped.armed = unit.armed := by rw [armed, armed, order, tlist, pending]
  have room : (stamped.dues late).length < fuel := by
    have bound := dues_length_le late stamped
    rw [armed] at bound
    omega
  have idle : checkPending (timerNotify clock during) fuel ⟨stamped, []⟩ = some ⟨stamped, []⟩ := by
    cases fuel with
    | zero => exact absurd enough (Nat.not_lt_zero _)
    | succ fuel => exact iterate_stop (by rw [pendingRound, good.idle]; rfl)
  obtain ⟨final, ran, progress, old, empties⟩ :=
    lists_expire calls nonzero (fun _ listed => listed) (Progress.start good ready) room
  have empty (timer : Timer) : timer ∉ final.unit.dues late := fun due => by
    rcases mem_dues.mp (old timer due) with waiting | ⟨⟨timeout, listed, member⟩, _⟩
    · change timer ∈ stamped.pending at waiting
      rw [good.idle] at waiting
      cases waiting
    · exact empties timeout listed timer due member
  have fired := progress.fired good empty
  refine ⟨final, ?_, progress.ordered, fired.once, ?_, ?_⟩
  · simp only [checkExpired, same, idle, Option.bind_eq_bind, Option.bind_some]
    exact ran
  · rw [← armed, ← objexp]
    exact fired.exactly
  · refine fired.sorted.imp fun {early late} sorted => ?_
    rwa [InOrder, ← order, ← tlist, ← objexp]

omit [DecidableEq Timer] in
/-- The loop over the lists gets behind no timer of them. -/
private theorem earliest_of_lists (ordered : unit.Ordered clock) {order : List Int32}
    (listed : ∀ timeout ∈ order, timeout ∈ unit.order) (exp : Int) :
    let result := order.foldl (fun exp timeout =>
      match (unit.tlist timeout).head? with
      | none => exp
      | some timer => if unit.objexp timer < exp then unit.objexp timer else exp) exp
    result ≤ exp ∧ ∀ timeout ∈ order, ∀ timer ∈ unit.tlist timeout, result ≤ unit.objexp timer := by
  induction order generalizing exp with
  | nil => exact ⟨Int.le_refl _, fun _ member => by cases member⟩
  | cons timeout rest ih =>
    obtain ⟨place, others⟩ := List.forall_mem_cons.mp listed
    rw [List.foldl_cons]
    cases first : (unit.tlist timeout).head? with
    | none =>
      obtain ⟨early, firsts⟩ := ih others exp
      refine ⟨early, List.forall_mem_cons.mpr ⟨fun timer member => ?_, firsts⟩⟩
      rw [List.head?_eq_none_iff.mp first] at member
      cases member
    | some head =>
      dsimp only
      split_ifs with sooner
      · obtain ⟨early, firsts⟩ := ih others (unit.objexp head)
        refine ⟨by omega, List.forall_mem_cons.mpr ⟨fun timer member => ?_, firsts⟩⟩
        have least := ordered.head_le place first member
        omega
      · obtain ⟨early, firsts⟩ := ih others exp
        refine ⟨early, List.forall_mem_cons.mpr ⟨fun timer member => ?_, firsts⟩⟩
        have least := ordered.head_le place first member
        omega

/-- How long to wait: within what is offered, not past a timer that is due later, and not at all when one is due. -/
structure Waits (now : Int) (msec : Int32) (unit : TimerUnit Timer) (result : Int32) : Prop where
  nonnegative : 0 ≤ result.toInt
  most : result.toInt ≤ msec.toInt
  later : ∀ timer ∈ unit.armed, now < unit.objexp timer → now + result.toInt * 1000 ≤ unit.objexp timer
  due : (∃ timer ∈ unit.armed, unit.objexp timer ≤ now) → result.toInt = 0

omit [DecidableEq Timer] in
theorem expireMicroSeconds_waits (ordered : unit.Ordered clock) {msec : Int32} (nonnegative : 0 ≤ msec.toInt) :
    Waits (clock.read unit.reads) msec unit (unit.expireMicroSeconds clock msec).1 := by
  obtain ⟨most, firsts⟩ := earliest_of_lists ordered (fun _ listed => listed)
    (clock.read unit.reads + msec.toInt * 1000)
  rw [← earliest] at most firsts
  have least (timer : Timer) (armed : timer ∈ unit.armed) :
      unit.earliest (clock.read unit.reads + msec.toInt * 1000) ≤ unit.objexp timer := by
    rcases mem_armed.mp armed with waiting | ⟨timeout, listed, member⟩
    · rw [ordered.idle] at waiting
      cases waiting
    · exact firsts timeout listed timer member
  have small := msec.toInt_lt
  dsimp only [expireMicroSeconds]
  generalize unit.earliest (clock.read unit.reads + msec.toInt * 1000) = exp at most least ⊢
  split_ifs with none
  · refine ⟨Int.le_refl _, nonnegative, fun timer _ later => ?_, fun _ => rfl⟩
    rw [show (0 : Int32).toInt = 0 from rfl]
    omega
  · have result : (Int32.ofInt ((exp - clock.read unit.reads) / 1000)).toInt = (exp - clock.read unit.reads) / 1000 :=
      Int32.toInt_ofInt_of_le (by omega) (by omega)
    refine ⟨by omega, by omega, fun timer armed _ => ?_, ?_⟩
    · have bound := least timer armed
      omega
    · rintro ⟨timer, armed, reached⟩
      have bound := least timer armed
      omega

/-- What a state has and what the calls in it do. -/
structure Exact (clock : Clock) (unit : TimerUnit Timer) : Prop where
  once : unit.armed.Nodup
  sorted : ∀ timeout ∈ unit.order,
    (unit.tlist timeout).Pairwise fun early late => unit.objexp early ≤ unit.objexp late
  expired : ∀ now during fuel, now ≤ clock.read unit.reads → Calls during → unit.armed.length < fuel →
    ∃ sweep, checkExpired clock (timerNotify clock during) fuel now unit = some sweep ∧
      Fired (effective clock now unit) during unit sweep
  waits : ∀ msec : Int32, 0 ≤ msec.toInt →
    Waits (clock.read unit.reads) msec unit (unit.expireMicroSeconds clock msec).1

theorem step_ordered (ordered : unit.Ordered clock) {event : Event Timer} (allowed : unit.Allowed clock event)
    (ran : step clock event unit = some after) : after.Ordered clock := by
  cases event with
  | call call =>
    obtain rfl := Option.some.inj ran
    exact ordered.called allowed
  | checkExpired fuel now during =>
    obtain ⟨ahead, calls, enough⟩ := allowed
    obtain ⟨sweep, swept, further, _⟩ := checkExpired_fires calls ordered ahead enough
    rw [step, swept] at ran
    obtain rfl := Option.some.inj ran
    exact further
  | expireMicroSeconds msec =>
    obtain rfl := Option.some.inj ran
    exact ordered.read
  | getTimestamp =>
    obtain rfl := Option.some.inj ran
    exact ordered.read

/-- In every run, timers fire when they are due. -/
theorem timers_fire_when_due (reached : Reached Initial (step clock) (Allowed clock) unit) : unit.Exact clock := by
  have ordered : unit.Ordered clock :=
    reached.invariant (fun _ => .initial) fun held allowed ran => step_ordered held allowed ran
  refine ⟨unit.once, ordered.sorted, fun now during fuel ahead calls enough => ?_,
    fun msec => expireMicroSeconds_waits ordered⟩
  obtain ⟨sweep, ran, _, fired⟩ := checkExpired_fires calls ordered ahead enough
  exact ⟨sweep, ran, fired⟩

/-- No timer is started yet. -/
def stopped : TimerUnit Timer where
  order := []
  tlist _ := []
  pending := []
  objexp _ := 0
  isLoop _ := false
  interval _ := 0
  reads := 0
  distinct := List.nodup_nil
  once := List.nodup_nil

/-- One millisecond between two readings, and twenty more before the fifth. -/
def twentyLater : Clock where
  read call := 1 + 1000 * (call : Nat) + if call < 4 then 0 else 20000
  positive call := by split <;> omega
  forward call later bound := by split <;> split <;> omega

/-- Two timers for five milliseconds, of which the second repeats, and two for ten. -/
def twoLists : List (TimerCall (Fin 4)) := [.start 0 5 false, .start 1 5 true, .start 2 10 false, .start 3 10 false]

/-- The first callback stops a timer that is due, and the second starts the one before it again. -/
def meanwhile (count : Nat) : List (TimerCall (Fin 4)) := [[.stop 3], [.start 2 5 false]].getD count []

private theorem calls_meanwhile : Calls meanwhile := by
  intro count call member
  match count with
  | 0 =>
    obtain rfl := List.mem_singleton.mp member
    trivial
  | 1 =>
    obtain rfl := List.mem_singleton.mp member
    exact ⟨by decide, by decide⟩
  | count + 2 => simp [meanwhile] at member

private theorem calls_reached {calls : List (TimerCall Timer)} (valid : ∀ call ∈ calls, call.Valid)
    (reached : Reached Initial (step clock) (Allowed clock) unit) :
    Reached Initial (step clock) (Allowed clock) (calls.foldl (called clock) unit) := by
  induction calls generalizing unit with
  | nil => exact reached
  | cons call calls ih =>
    obtain ⟨head, tail⟩ := List.forall_mem_cons.mp valid
    have permitted : unit.Allowed clock (.call call) := head
    exact ih tail (reached.step permitted rfl)

private theorem twoLists_reached : Reached Initial (step twentyLater) (Allowed twentyLater)
    (twoLists.foldl (called twentyLater) stopped) := by
  have valid : ∀ call ∈ twoLists, call.Valid := by
    simp [twoLists, TimerCall.Valid, TimerCall.Fits]
  exact calls_reached valid (.start ⟨rfl, rfl⟩)

/-- A timer fires, the one behind it is stopped meanwhile, and then the other list is worked off. -/
theorem timers_fire_when_due_twoLists : ∃ sweep,
    checkExpired twentyLater (timerNotify twentyLater meanwhile) 5 20001 (twoLists.foldl (called twentyLater) stopped) =
        some sweep ∧
      sweep.notified = [2, 0, 1] ∧ sweep.unit.tlist 5 = [2, 1] ∧ sweep.unit.tlist 10 = [] ∧
      (twoLists.foldl (called twentyLater) stopped).Exact twentyLater ∧ sweep.unit.Exact twentyLater := by
  have outcome : (checkExpired twentyLater (timerNotify twentyLater meanwhile) 5 20001
      (twoLists.foldl (called twentyLater) stopped)).map (fun sweep =>
        (sweep.notified, sweep.unit.tlist 5, sweep.unit.tlist 10)) = some ([2, 0, 1], [2, 1], []) := by decide +kernel
  obtain ⟨sweep, ran, same⟩ := Option.map_eq_some_iff.mp outcome
  simp only [Prod.mk.injEq] at same
  obtain ⟨notified, five, ten⟩ := same
  have allowed : (twoLists.foldl (called twentyLater) stopped).Allowed twentyLater (.checkExpired 5 20001 meanwhile) :=
    ⟨by decide +kernel, calls_meanwhile, by decide +kernel⟩
  have after : Reached Initial (step twentyLater) (Allowed twentyLater) sweep.unit :=
    twoLists_reached.step allowed (by rw [step, ran]; rfl)
  exact ⟨sweep, ran, notified, five, ten, timers_fire_when_due twoLists_reached, timers_fire_when_due after⟩

/-- The clock when the timer is started, and five milliseconds later. -/
def fiveLater : Clock where
  read call := 1 + 5000 * (min call 1 : Nat)
  positive call := by omega
  forward call later bound := by omega

/-- One timer is started for five milliseconds. -/
def started : TimerUnit Unit := stopped.startTimer fiveLater () 5 false

private theorem started_reached : Reached Initial (step fiveLater) (Allowed fiveLater) started := by
  have first : Reached Initial (step fiveLater) (Allowed fiveLater) (stopped : TimerUnit Unit) := .start ⟨rfl, rfl⟩
  have allowed : (stopped : TimerUnit Unit).Allowed fiveLater (.call (.start () 5 false)) := ⟨by decide, by decide⟩
  exact first.step allowed rfl

/-- A time of 0 stands for the clock's: a timer fires that has not expired by 0. -/
theorem zero_fires_later : Reached Initial (step fiveLater) (Allowed fiveLater) started ∧
    0 ≤ fiveLater.read started.reads ∧
      ∃ sweep, checkExpired fiveLater (timerNotify fiveLater fun _ => []) 2 0 started = some sweep ∧
        ¬ Fired 0 (fun _ => []) started sweep := by
  have fires : (checkExpired fiveLater (timerNotify fiveLater fun _ => []) 2 0 started).map Sweep.notified =
      some [()] := by decide +kernel
  obtain ⟨sweep, ran, notified⟩ := Option.map_eq_some_iff.mp fires
  refine ⟨started_reached, by decide +kernel, sweep, ran, fun fired => ?_⟩
  have late : ¬ started.objexp () ≤ 0 := by decide +kernel
  exact late ((fired.exactly ()).mp (by rw [notified]; exact List.mem_cons_self)).2.1

end TimerUnit

end TeenpattiUserServer.Net
