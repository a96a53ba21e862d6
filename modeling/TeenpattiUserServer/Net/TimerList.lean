import Mathlib.Data.List.Nodup
import Mathlib.Data.List.Perm.Basic
import Mathlib.Logic.Function.Basic
import TeenpattiUserServer.Loops.Iterate

/-! `CTimerUnit` and `CTimerList`: the timers of one timeout queue up in the order
in which they were attached. What `TimerNotify` does is a parameter, since it may
attach and detach timers of the lists that are being worked off. -/

namespace TeenpattiUserServer.Net

open Loops

/-- `GET_TIMESTAMP`, call by call: microseconds since 1970. -/
structure Clock where
  read : Nat → Int
  positive : ∀ call, 0 < read call
  forward : ∀ call later, call ≤ later → read call ≤ read later

/-- The timer lists by their timeouts, which are in the order of the `next` pointers.
A timer is in one list at most. `isLoop` and `interval` are the members of `CCTimer`;
`reads` counts the readings of the clock. -/
structure TimerUnit (Timer : Type) where
  order : List Int32
  tlist : Int32 → List Timer
  pending : List Timer
  objexp : Timer → Int
  isLoop : Timer → Bool
  interval : Timer → Int
  reads : Nat
  distinct : order.Nodup
  once : (pending ++ order.flatMap tlist).Nodup

namespace TimerUnit

variable {Timer : Type}

/-- The timers that are in a list. -/
def armed (unit : TimerUnit Timer) : List Timer := unit.pending ++ unit.order.flatMap unit.tlist

private theorem once_created (unit : TimerUnit Timer) {timeout : Int32} (fresh : timeout ∉ unit.order) :
    (unit.pending ++ (timeout :: unit.order).flatMap (Function.update unit.tlist timeout [])).Nodup := by
  have same : unit.order.flatMap (Function.update unit.tlist timeout []) = unit.order.flatMap unit.tlist :=
    List.flatMap_congr fun other member => Function.update_of_ne (ne_of_mem_of_not_mem member fresh) ..
  rw [List.flatMap_cons, Function.update_self, List.nil_append, same]
  exact unit.once

private theorem once_pushed {unit : TimerUnit Timer} {timer : Timer} (idle : timer ∉ unit.armed) (timeout : Int32) :
    (unit.pending ++ unit.order.flatMap (Function.update unit.tlist timeout (unit.tlist timeout ++ [timer]))).Nodup := by
  have others (rest : List Int32) (absent : timeout ∉ rest) :
      rest.flatMap (Function.update unit.tlist timeout (unit.tlist timeout ++ [timer])) = rest.flatMap unit.tlist :=
    List.flatMap_congr fun other member => Function.update_of_ne (ne_of_mem_of_not_mem member absent) ..
  by_cases member : timeout ∈ unit.order
  · have split := List.perm_cons_erase member
    have pushed := split.flatMap_right (Function.update unit.tlist timeout (unit.tlist timeout ++ [timer]))
    have before := split.flatMap_right unit.tlist
    rw [List.flatMap_cons, Function.update_self, others _ unit.distinct.not_mem_erase] at pushed
    rw [List.flatMap_cons] at before
    have joined : (unit.pending ++ unit.order.flatMap (Function.update unit.tlist timeout (unit.tlist timeout ++ [timer]))).Perm
        (timer :: unit.armed) := by
      refine (pushed.append_left unit.pending).trans (List.Perm.trans ?_ ((before.append_left unit.pending).cons timer).symm)
      have moved : ((unit.pending ++ unit.tlist timeout) ++ timer :: (unit.order.erase timeout).flatMap unit.tlist).Perm
          (timer :: ((unit.pending ++ unit.tlist timeout) ++ (unit.order.erase timeout).flatMap unit.tlist)) :=
        List.perm_middle
      simpa only [List.append_assoc, List.cons_append, List.nil_append] using moved
    exact joined.nodup_iff.mpr (List.nodup_cons.mpr ⟨idle, unit.once⟩)
  · rw [others _ member]
    exact unit.once

variable [DecidableEq Timer]

private theorem once_without (unit : TimerUnit Timer) (timer : Timer) :
    (unit.pending.filter (· ≠ timer) ++ unit.order.flatMap fun timeout => (unit.tlist timeout).filter (· ≠ timer)).Nodup := by
  rw [← List.filter_flatMap, ← List.filter_append]
  exact unit.once.filter _

/-- `DisableTimer`: the timer leaves whatever list it is in. -/
def disableTimer (timer : Timer) (unit : TimerUnit Timer) : TimerUnit Timer :=
  { unit with
    tlist := fun timeout => (unit.tlist timeout).filter (· ≠ timer)
    pending := unit.pending.filter (· ≠ timer)
    once := once_without unit timer }

theorem not_armed_disableTimer (timer : Timer) (unit : TimerUnit Timer) : timer ∉ (unit.disableTimer timer).armed := by
  simp [armed, disableTimer]

/-- A list with a new timeout goes in front of the others. -/
def getTimerList (timeout : Int32) (unit : TimerUnit Timer) : TimerUnit Timer :=
  if member : timeout ∈ unit.order then unit
  else { unit with
    order := timeout :: unit.order
    tlist := Function.update unit.tlist timeout []
    distinct := List.nodup_cons.mpr ⟨member, unit.distinct⟩
    once := once_created unit member }

def listMoveTail (timeout : Int32) (timer : Timer) (unit : TimerUnit Timer) : TimerUnit Timer :=
  let bare := unit.disableTimer timer
  { bare with
    tlist := Function.update bare.tlist timeout (bare.tlist timeout ++ [timer])
    once := once_pushed (not_armed_disableTimer timer unit) timeout }

/-- Without a positive timeout the timer keeps the expiry it had. -/
def attachTimer (clock : Clock) (timeout : Int32) (timer : Timer) (unit : TimerUnit Timer) : TimerUnit Timer :=
  if 0 < timeout.toInt then
    { unit with
      objexp := Function.update unit.objexp timer (clock.read unit.reads + timeout.toInt * 1000)
      reads := unit.reads + 1 }.listMoveTail timeout timer
  else unit.listMoveTail timeout timer

/-- `RegistTimer` passes its `long` to the `int` of `GetTimerList`. -/
def registTimer (clock : Clock) (timer : Timer) (t : Int) (unit : TimerUnit Timer) : TimerUnit Timer :=
  ((unit.getTimerList (Int32.ofInt t)).disableTimer timer).attachTimer clock (Int32.ofInt t) timer

/-- `CCTimer::StartTimer` -/
def startTimer (clock : Clock) (timer : Timer) (interval : Int) (isLoop : Bool) (unit : TimerUnit Timer) :
    TimerUnit Timer :=
  { unit with
    isLoop := Function.update unit.isLoop timer isLoop
    interval := Function.update unit.interval timer interval }.registTimer clock timer interval

/-- `CCTimer::StopTimer` -/
def stopTimer (timer : Timer) (unit : TimerUnit Timer) : TimerUnit Timer :=
  let disabled := unit.disableTimer timer
  { disabled with isLoop := Function.update disabled.isLoop timer false }

/-- What `TimerNotify` does, given how many notifications came before it. -/
abbrev Notify (Timer : Type) := Nat → Timer → TimerUnit Timer → TimerUnit Timer

/-- A call in progress: the lists, and the timers notified so far. -/
structure Sweep (Timer : Type) where
  unit : TimerUnit Timer
  notified : List Timer

def notifyHead (notify : Notify Timer) (timer : Timer) (sweep : Sweep Timer) : Sweep Timer where
  unit := notify sweep.notified.length timer (sweep.unit.disableTimer timer)
  notified := sweep.notified ++ [timer]

/-- A round of `CTimerList::CheckExpired`. -/
def expireRound (notify : Notify Timer) (now : Int) (timeout : Int32) (sweep : Sweep Timer) : Option (Sweep Timer) :=
  match (sweep.unit.tlist timeout).head? with
  | none => none
  | some timer => if now < sweep.unit.objexp timer then none else some (notifyHead notify timer sweep)

def pendingRound (notify : Notify Timer) (sweep : Sweep Timer) : Option (Sweep Timer) :=
  sweep.unit.pending.head?.map fun timer => notifyHead notify timer sweep

def checkPending (notify : Notify Timer) (fuel : Nat) (sweep : Sweep Timer) : Option (Sweep Timer) :=
  iterate (pendingRound notify) fuel sweep

/-- The `now == 0` of both `CheckExpired`. -/
def stamp (clock : Clock) (now : Int) (unit : TimerUnit Timer) : Int × TimerUnit Timer :=
  if now = 0 then (clock.read unit.reads, { unit with reads := unit.reads + 1 }) else (now, unit)

/-- `CTimerList::CheckExpired` -/
def checkExpiredList (clock : Clock) (notify : Notify Timer) (fuel : Nat) (now : Int) (timeout : Int32)
    (sweep : Sweep Timer) : Option (Sweep Timer) :=
  let (now, unit) := stamp clock now sweep.unit
  iterate (expireRound notify now timeout) fuel { sweep with unit }

/-- `CTimerUnit::CheckExpired`. A list that is created on the way goes in front of the
first one, and is not met. -/
def checkExpired (clock : Clock) (notify : Notify Timer) (fuel : Nat) (now : Int) (unit : TimerUnit Timer) :
    Option (Sweep Timer) := do
  let (now, unit) := stamp clock now unit
  let sweep ← checkPending notify fuel ⟨unit, []⟩
  sweep.unit.order.foldlM (fun sweep timeout => checkExpiredList clock notify fuel now timeout sweep) sweep

/-! A call that re-arms timers for the future only: the number of timers that are
due falls with each notification, and no timer becomes due again. -/

def dues (now : Int) (unit : TimerUnit Timer) : List Timer :=
  unit.pending ++ (unit.order.flatMap unit.tlist).filter fun timer => unit.objexp timer ≤ now

variable {unit before after middle : TimerUnit Timer} {timer other : Timer} {now : Int} {clock : Clock} {timeout : Int32}
  {notify : Notify Timer} {sweep : Sweep Timer} {fuel : Nat}

omit [DecidableEq Timer] in
theorem mem_dues : timer ∈ unit.dues now ↔ timer ∈ unit.pending ∨
    (∃ timeout ∈ unit.order, timer ∈ unit.tlist timeout) ∧ unit.objexp timer ≤ now := by
  simp [dues]

omit [DecidableEq Timer] in
theorem dues_nodup (now : Int) (unit : TimerUnit Timer) : (unit.dues now).Nodup :=
  unit.once.sublist ((List.filter_sublist).append_left unit.pending)

omit [DecidableEq Timer] in
theorem dues_length_le (now : Int) (unit : TimerUnit Timer) : (unit.dues now).length ≤ unit.armed.length :=
  ((List.filter_sublist).append_left unit.pending).length_le

/-- The clock has not gone back, and no list has been dropped. -/
structure Later (before after : TimerUnit Timer) : Prop where
  reads : before.reads ≤ after.reads
  lists : ∀ timeout ∈ before.order, timeout ∈ after.order

omit [DecidableEq Timer] in
theorem Later.refl (unit : TimerUnit Timer) : Later unit unit := ⟨Nat.le_refl _, fun _ listed => listed⟩

omit [DecidableEq Timer] in
theorem Later.trans (first : Later before middle) (second : Later middle after) : Later before after :=
  ⟨Nat.le_trans first.reads second.reads, fun timeout listed => second.lists timeout (first.lists timeout listed)⟩

omit [DecidableEq Timer] in
theorem Later.ahead (later : Later before after) (ahead : now ≤ clock.read before.reads) :
    now ≤ clock.read after.reads := Int.le_trans ahead (clock.forward _ _ later.reads)

/-- Nothing has become due. -/
structure Postpones (now : Int) (before after : TimerUnit Timer) : Prop where
  later : Later before after
  dues : ∀ timer ∈ after.dues now, timer ∈ before.dues now

omit [DecidableEq Timer] in
theorem Postpones.refl (unit : TimerUnit Timer) : Postpones now unit unit := ⟨.refl unit, fun _ member => member⟩

omit [DecidableEq Timer] in
theorem Postpones.trans (first : Postpones now before middle) (second : Postpones now middle after) :
    Postpones now before after :=
  ⟨first.later.trans second.later, fun timer member => first.dues timer (second.dues timer member)⟩

theorem mem_dues_disableTimer : other ∈ (unit.disableTimer timer).dues now ↔ other ∈ unit.dues now ∧ other ≠ timer := by
  simp only [mem_dues, disableTimer, List.mem_filter, decide_eq_true_eq]
  constructor
  · rintro (⟨member, different⟩ | ⟨⟨timeout, listed, member, different⟩, due⟩)
    · exact ⟨.inl member, different⟩
    · exact ⟨.inr ⟨⟨timeout, listed, member⟩, due⟩, different⟩
  · rintro ⟨member | ⟨⟨timeout, listed, member⟩, due⟩, different⟩
    · exact .inl ⟨member, different⟩
    · exact .inr ⟨⟨timeout, listed, member, different⟩, due⟩

theorem disableTimer_postpones : Postpones now unit (unit.disableTimer timer) :=
  ⟨⟨Nat.le_refl _, fun _ listed => listed⟩, fun _ member => (mem_dues_disableTimer.mp member).1⟩

omit [DecidableEq Timer] in
theorem getTimerList_postpones : Postpones now unit (unit.getTimerList timeout) := by
  unfold getTimerList
  split
  · exact .refl unit
  · next fresh =>
    refine ⟨⟨Nat.le_refl _, fun _ listed => List.mem_cons_of_mem _ listed⟩, fun other member => ?_⟩
    rw [mem_dues] at member ⊢
    rcases member with waiting | ⟨⟨place, listed, inside⟩, due⟩
    · exact .inl waiting
    · refine .inr ⟨?_, due⟩
      by_cases same : place = timeout
      · subst same
        simp at inside
      · simp only [List.mem_cons, same, false_or] at listed
        exact ⟨place, listed, by simpa [Function.update_of_ne same] using inside⟩

theorem stopTimer_postpones : Postpones now unit (unit.stopTimer timer) :=
  ⟨⟨Nat.le_refl _, fun _ listed => listed⟩,
    fun _ member => (mem_dues_disableTimer.mp (show _ ∈ (unit.disableTimer timer).dues now from member)).1⟩

/-- A timer that is attached with a positive timeout is due later than the clock. -/
theorem attachTimer_postpones (positive : 0 < timeout.toInt) (ahead : now ≤ clock.read unit.reads) :
    Postpones now unit (unit.attachTimer clock timeout timer) := by
  rw [attachTimer, if_pos positive]
  refine ⟨⟨Nat.le_succ _, fun _ listed => listed⟩, fun other member => ?_⟩
  rw [mem_dues] at member ⊢
  simp only [listMoveTail, disableTimer, List.mem_filter, decide_eq_true_eq] at member
  rcases member with waiting | ⟨⟨place, listed, inside⟩, due⟩
  · exact .inl waiting.1
  · by_cases same : other = timer
    · subst other
      rw [Function.update_self] at due
      omega
    · rw [Function.update_of_ne same] at due
      refine .inr ⟨⟨place, listed, ?_⟩, due⟩
      by_cases here : place = timeout
      · subst place
        simpa [same] using inside
      · simpa [Function.update_of_ne here, same] using inside

theorem startTimer_postpones {interval : Int} {isLoop : Bool} (positive : 0 < (Int32.ofInt interval).toInt)
    (ahead : now ≤ clock.read unit.reads) : Postpones now unit (unit.startTimer clock timer interval isLoop) := by
  let flagged : TimerUnit Timer := { unit with
    isLoop := Function.update unit.isLoop timer isLoop
    interval := Function.update unit.interval timer interval }
  have same : Postpones now unit flagged := ⟨⟨Nat.le_refl _, fun _ listed => listed⟩, fun _ member => member⟩
  have listed : Postpones now flagged ((flagged.getTimerList (Int32.ofInt interval)).disableTimer timer) :=
    getTimerList_postpones.trans disableTimer_postpones
  exact same.trans (listed.trans (attachTimer_postpones positive ((same.trans listed).later.ahead ahead)))

/-- No notification makes a timer due. -/
def Notify.Postpones (clock : Clock) (notify : Notify Timer) : Prop :=
  ∀ count timer unit now, now ≤ clock.read unit.reads → TimerUnit.Postpones now unit (notify count timer unit)

/-- Before each round: the clock is not behind, and no notified timer is due. -/
structure Advances (clock : Clock) (now : Int) (sweep : Sweep Timer) : Prop where
  ahead : now ≤ clock.read sweep.unit.reads
  apart : sweep.notified.Nodup
  past : ∀ timer ∈ sweep.notified, timer ∉ sweep.unit.dues now

theorem Advances.notifyHead (advances : Advances clock now sweep) (postpones : notify.Postpones clock)
    (due : timer ∈ sweep.unit.dues now) :
    Advances clock now (notifyHead notify timer sweep) ∧
      ((notifyHead notify timer sweep).unit.dues now).length < (sweep.unit.dues now).length ∧
      Later sweep.unit (notifyHead notify timer sweep).unit := by
  have disabled : TimerUnit.Postpones now sweep.unit (sweep.unit.disableTimer timer) := disableTimer_postpones
  have further : TimerUnit.Postpones now (sweep.unit.disableTimer timer) (TimerUnit.notifyHead notify timer sweep).unit :=
    postpones _ _ _ _ (disabled.later.ahead advances.ahead)
  have gone : timer ∉ (TimerUnit.notifyHead notify timer sweep).unit.dues now := fun member =>
    (mem_dues_disableTimer.mp (further.dues timer member)).2 rfl
  have both := disabled.trans further
  refine ⟨⟨both.later.ahead advances.ahead, ?_, ?_⟩, ?_, both.later⟩
  · refine List.nodup_append.mpr ⟨advances.apart, List.nodup_singleton _, fun old notified new same => ?_⟩
    rintro rfl
    obtain rfl : old = timer := by simpa using same
    exact advances.past old notified due
  · intro old notified
    rcases List.mem_append.mp notified with earlier | last
    · exact fun member => advances.past old earlier (both.dues old member)
    · obtain rfl : old = timer := by simpa using last
      exact gone
  · have distinct : (timer :: (TimerUnit.notifyHead notify timer sweep).unit.dues now).Nodup :=
      List.nodup_cons.mpr ⟨gone, dues_nodup now _⟩
    refine Nat.lt_of_succ_le (distinct.length_le_of_subset (List.cons_subset.mpr ⟨due, fun other member => ?_⟩))
    exact both.dues other member

/-- A loop of notifications of due timers ends. -/
private theorem notifications_end (postpones : notify.Postpones clock) {round : Sweep Timer → Option (Sweep Timer)}
    (notifies : ∀ state next, Later sweep.unit state.unit → round state = some next →
      ∃ timer ∈ state.unit.dues now, next = TimerUnit.notifyHead notify timer state)
    (advances : Advances clock now sweep) (enough : (sweep.unit.dues now).length < fuel) :
    ∃ final, iterate round fuel sweep = some final ∧ Advances clock now final ∧
      (final.unit.dues now).length < fuel ∧ Later sweep.unit final.unit := by
  have kept (state next : Sweep Timer) (inv : Advances clock now state ∧ Later sweep.unit state.unit)
      (goes : round state = some next) : (Advances clock now next ∧ Later sweep.unit next.unit) ∧
        (next.unit.dues now).length < (state.unit.dues now).length := by
    obtain ⟨timer, due, rfl⟩ := notifies state next inv.2 goes
    obtain ⟨further, less, later⟩ := inv.1.notifyHead postpones due
    exact ⟨⟨further, inv.2.trans later⟩, less⟩
  obtain ⟨final, ran, inv, bound, _⟩ := iterate_ends kept ⟨advances, .refl _⟩ enough
  exact ⟨final, ran, inv.1, by omega, inv.2⟩

theorem checkPending_ends (postpones : notify.Postpones clock) (advances : Advances clock now sweep)
    (enough : (sweep.unit.dues now).length < fuel) :
    ∃ final, checkPending notify fuel sweep = some final ∧ Advances clock now final ∧
      (final.unit.dues now).length < fuel ∧ Later sweep.unit final.unit := by
  refine notifications_end postpones (fun state next _ goes => ?_) advances enough
  obtain ⟨timer, first, rfl⟩ := Option.map_eq_some_iff.mp goes
  exact ⟨timer, mem_dues.mpr (.inl (List.mem_of_mem_head? first)), rfl⟩

private theorem checkExpiredList_ends (postpones : notify.Postpones clock) (stamped : now ≠ 0)
    (advances : Advances clock now sweep) (enough : (sweep.unit.dues now).length < fuel)
    (listed : timeout ∈ sweep.unit.order) :
    ∃ final, checkExpiredList clock notify fuel now timeout sweep = some final ∧ Advances clock now final ∧
      (final.unit.dues now).length < fuel ∧ Later sweep.unit final.unit := by
  have same : stamp clock now sweep.unit = (now, sweep.unit) := if_neg stamped
  rw [checkExpiredList, same]
  refine notifications_end postpones (fun state next later goes => ?_) advances enough
  rw [expireRound] at goes
  cases first : (state.unit.tlist timeout).head? with
  | none => simp [first] at goes
  | some timer =>
    simp only [first] at goes
    split at goes
    · cases goes
    · next reached =>
      refine ⟨timer, mem_dues.mpr (.inr ⟨⟨timeout, later.lists timeout listed, List.mem_of_mem_head? first⟩, ?_⟩),
        (Option.some.inj goes).symm⟩
      exact Int.not_lt.mp reached

private theorem lists_end (postpones : notify.Postpones clock) (stamped : now ≠ 0) {order : List Int32}
    (advances : Advances clock now sweep) (enough : (sweep.unit.dues now).length < fuel)
    (listed : ∀ timeout ∈ order, timeout ∈ sweep.unit.order) :
    ∃ final, order.foldlM (fun sweep timeout => checkExpiredList clock notify fuel now timeout sweep) sweep =
      some final ∧ Advances clock now final ∧ Later sweep.unit final.unit := by
  induction order generalizing sweep with
  | nil => exact ⟨sweep, rfl, advances, .refl _⟩
  | cons timeout rest ih =>
    obtain ⟨middle, ran, further, bound, later⟩ :=
      checkExpiredList_ends postpones stamped advances enough (listed timeout (List.mem_cons_self ..))
    obtain ⟨final, ended, advanced, latest⟩ := ih further bound fun other member =>
      later.lists other (listed other (List.mem_cons_of_mem _ member))
    exact ⟨final, by simp [ran, ended], advanced, later.trans latest⟩

/-- Without a notification that makes a timer due, `CheckExpired` ends and notifies no
timer twice. -/
theorem checkExpired_ends (postpones : notify.Postpones clock) (ahead : now ≤ clock.read unit.reads)
    (enough : unit.armed.length < fuel) :
    ∃ sweep, checkExpired clock notify fuel now unit = some sweep ∧ sweep.notified.Nodup ∧
      Later unit sweep.unit := by
  have stamps : ∃ late stamped, stamp clock now unit = (late, stamped) ∧ late ≤ clock.read stamped.reads ∧ late ≠ 0 ∧
      Later unit stamped ∧ stamped.armed = unit.armed := by
    by_cases unset : now = 0
    · refine ⟨_, _, if_pos unset, clock.forward _ _ (Nat.le_succ _), ?_, ⟨Nat.le_succ _, fun _ listed => listed⟩, rfl⟩
      exact Int.ne_of_gt (clock.positive unit.reads)
    · exact ⟨now, unit, if_neg unset, ahead, unset, .refl unit, rfl⟩
  obtain ⟨late, stamped, same, ready, nonzero, started, armed⟩ := stamps
  have advances : Advances clock late ⟨stamped, []⟩ := ⟨ready, List.nodup_nil, by simp⟩
  have room : (stamped.dues late).length < fuel := by
    have bound := dues_length_le late stamped
    rw [armed] at bound
    omega
  obtain ⟨middle, ran, further, bound, later⟩ := checkPending_ends postpones advances room
  obtain ⟨final, ended, advanced, latest⟩ := lists_end postpones nonzero further bound fun _ listed => listed
  refine ⟨final, ?_, advanced.apart, started.trans (later.trans latest)⟩
  simp only [checkExpired, same, Option.bind_eq_bind, ran, Option.bind_some]
  exact ended

end TimerUnit

end TeenpattiUserServer.Net
