import TeenpattiUserServer.Net.TimerRuns

/-! A timer whose notification starts it again with the same interval, among timers that do
what they like: it stays in its list, and is due again an interval after the last time. -/

namespace TeenpattiUserServer.Net

open Loops

namespace TimerUnit

variable {Timer : Type}

/-- The timer is in the list of this timeout. -/
def Enlisted (timeout : Int32) (timer : Timer) (unit : TimerUnit Timer) : Prop :=
  timeout ∈ unit.order ∧ timer ∈ unit.tlist timeout

/-- The timer was started at one of the readings of the clock between two states. -/
def StartedBetween (clock : Clock) (timeout : Int32) (timer : Timer) (before after : TimerUnit Timer) : Prop :=
  ∃ call, before.reads ≤ call ∧ call < after.reads ∧ after.objexp timer = clock.read call + timeout.toInt * 1000

/-- The timer's own notification starts it again; the others leave it alone. -/
structure Rearms (clock : Clock) (timeout : Int32) (timer : Timer) (notify : Notify Timer) : Prop where
  ordered : ∀ count other unit, unit.Ordered clock → (notify count other unit).Ordered clock
  reads : ∀ count other unit, unit.Ordered clock → unit.reads ≤ (notify count other unit).reads
  own : ∀ count unit, unit.Ordered clock → (notify count timer unit).Enlisted timeout timer ∧
    StartedBetween clock timeout timer unit (notify count timer unit)
  others : ∀ count other unit, unit.Ordered clock → other ≠ timer → unit.Enlisted timeout timer →
    (notify count other unit).Enlisted timeout timer ∧ (notify count other unit).objexp timer = unit.objexp timer

/-- Meanwhile the timer is in its list, with the expiry that it had or, once it was notified, a new one. -/
structure Watched (clock : Clock) (timeout : Int32) (timer : Timer) (before : TimerUnit Timer) (sweep : Sweep Timer) :
    Prop where
  ordered : sweep.unit.Ordered clock
  reads : before.reads ≤ sweep.unit.reads
  enlisted : sweep.unit.Enlisted timeout timer
  expiry : (timer ∉ sweep.notified ∧ sweep.unit.objexp timer = before.objexp timer) ∨
    timer ∈ sweep.notified ∧ StartedBetween clock timeout timer before sweep.unit

variable [DecidableEq Timer] {clock : Clock} {timeout : Int32} {timer : Timer} {notify : Notify Timer}
  {unit before : TimerUnit Timer} {sweep final : Sweep Timer} {now : Int} {fuel : Nat}

theorem Enlisted.disableTimer (enlisted : unit.Enlisted timeout timer) {other : Timer} (different : other ≠ timer) :
    (unit.disableTimer other).Enlisted timeout timer :=
  ⟨enlisted.1, List.mem_filter.mpr ⟨enlisted.2, by simpa using different.symm⟩⟩

theorem startTimer_isLoop {interval : Int} {isLoop : Bool} :
    (unit.startTimer clock timer interval isLoop).isLoop timer = isLoop := by
  have listed (unit : TimerUnit Timer) (timeout : Int32) : (unit.getTimerList timeout).isLoop = unit.isLoop := by
    unfold getTimerList
    split <;> rfl
  unfold startTimer registTimer attachTimer
  split <;> exact (congrFun (listed _ _) timer).trans (Function.update_self ..)

/-- A timer that is started goes to the list of its timeout, and expires a timeout later. -/
theorem startTimer_enlisted {interval : Int} {isLoop : Bool} (positive : 0 < (Int32.ofInt interval).toInt) :
    (unit.startTimer clock timer interval isLoop).Enlisted (Int32.ofInt interval) timer ∧
      StartedBetween clock (Int32.ofInt interval) timer unit (unit.startTimer clock timer interval isLoop) := by
  rw [startTimer, registTimer, attachTimer, if_pos positive]
  refine ⟨⟨mem_getTimerList_order.mpr (.inl rfl), mem_listMoveTail.mpr (.inr ⟨rfl, rfl⟩)⟩, unit.reads,
    Nat.le_refl _, ?_, ?_⟩
  · change unit.reads < (getTimerList _ _).reads + 1
    rw [getTimerList_reads]
    exact Nat.lt_succ_self _
  · change Function.update _ _ _ timer = _
    rw [Function.update_self]
    change clock.read (getTimerList _ _).reads + _ = _
    rw [getTimerList_reads]

omit [DecidableEq Timer] in
/-- Calls on other timers leave a timer where it is. -/
theorem Touches.enlisted {timers : List Timer} (touches : Touches now timers before unit) (apart : timer ∉ timers)
    (enlisted : before.Enlisted timeout timer) : unit.Enlisted timeout timer :=
  (touches.lists timer apart timeout).mpr enlisted

theorem Watched.notifyHead (rearms : Rearms clock timeout timer notify)
    (watched : Watched clock timeout timer before sweep) (other : Timer) :
    Watched clock timeout timer before (notifyHead notify other sweep) := by
  have ordered := watched.ordered.disableTimer other
  have reads : before.reads ≤ (sweep.unit.disableTimer other).reads := watched.reads
  have later := rearms.reads sweep.notified.length other _ ordered
  refine ⟨rearms.ordered _ _ _ ordered, Nat.le_trans reads later, ?_, ?_⟩
  · by_cases same : other = timer
    · subst same
      exact (rearms.own _ _ ordered).1
    · exact (rearms.others _ _ _ ordered same (watched.enlisted.disableTimer same)).1
  · by_cases same : other = timer
    · subst same
      obtain ⟨_, call, first, last, expiry⟩ := rearms.own sweep.notified.length _ ordered
      exact .inr ⟨by simp [TimerUnit.notifyHead], call, Nat.le_trans reads first, last, expiry⟩
    · have kept := (rearms.others sweep.notified.length _ _ ordered same (watched.enlisted.disableTimer same)).2
      have member : timer ∈ (TimerUnit.notifyHead notify other sweep).notified ↔ timer ∈ sweep.notified := by
        simp [TimerUnit.notifyHead, Ne.symm same]
      rw [member]
      rcases watched.expiry with ⟨fresh, expiry⟩ | ⟨notified, call, first, last, expiry⟩
      · exact .inl ⟨fresh, kept.trans expiry⟩
      · exact .inr ⟨notified, call, first, Nat.lt_of_lt_of_le last later, kept.trans expiry⟩

/-- A timer that is not due does not become due. -/
theorem Watched.still (rearms : Rearms clock timeout timer notify) (positive : 0 < timeout.toInt)
    (ahead : now ≤ clock.read before.reads) (watched : Watched clock timeout timer before sweep)
    (ahead' : now < sweep.unit.objexp timer) (other : Timer) :
    now < (TimerUnit.notifyHead notify other sweep).unit.objexp timer := by
  have ordered := watched.ordered.disableTimer other
  by_cases same : other = timer
  · subst same
    obtain ⟨_, call, first, _, expiry⟩ := rearms.own sweep.notified.length _ ordered
    have forward := clock.forward _ _ (Nat.le_trans watched.reads first)
    rw [TimerUnit.notifyHead, expiry]
    omega
  · have kept := (rearms.others sweep.notified.length _ _ ordered same (watched.enlisted.disableTimer same)).2
    rw [TimerUnit.notifyHead, kept]
    exact ahead'

/-- A round notifies one timer. -/
private theorem notified_of_round {place : Int32} {next : Sweep Timer}
    (goes : expireRound notify now place sweep = some next) : ∃ other, next = notifyHead notify other sweep := by
  rw [expireRound] at goes
  split at goes
  · cases goes
  · rename_i other _
    split at goes
    · cases goes
    · exact ⟨other, (Option.some.inj goes).symm⟩

/-- A list is worked off: its own timer is not due any more. -/
private theorem list_watched (rearms : Rearms clock timeout timer notify) (positive : 0 < timeout.toInt)
    (stamped : now ≠ 0) (ahead : now ≤ clock.read before.reads) (watched : Watched clock timeout timer before sweep)
    {place : Int32} (ran : checkExpiredList clock notify fuel now place sweep = some final) :
    Watched clock timeout timer before final ∧
      (place = timeout ∨ now < sweep.unit.objexp timer → now < final.unit.objexp timer) := by
  rw [checkExpiredList, show stamp clock now sweep.unit = (now, sweep.unit) from if_neg stamped] at ran
  have each (state next : Sweep Timer) (held : Watched clock timeout timer before state ∧
      (now < sweep.unit.objexp timer → now < state.unit.objexp timer))
      (goes : expireRound notify now place state = some next) : Watched clock timeout timer before next ∧
        (now < sweep.unit.objexp timer → now < next.unit.objexp timer) := by
    obtain ⟨other, rfl⟩ := notified_of_round goes
    exact ⟨held.1.notifyHead rearms other, fun before => held.1.still rearms positive ahead (held.2 before) other⟩
  obtain ⟨⟨ended, kept⟩, stops⟩ := iterate_keeps each ⟨watched, id⟩ ran
  refine ⟨ended, fun either => either.elim (fun same => ?_) kept⟩
  subst same
  rw [expireRound] at stops
  cases first : (final.unit.tlist place).head? with
  | none =>
    have member := ended.enlisted.2
    rw [List.head?_eq_none_iff.mp first] at member
    cases member
  | some head =>
    have early := ended.ordered.head_le ended.enlisted.1 first ended.enlisted.2
    simp only [first] at stops
    split at stops
    · rename_i late
      exact Int.lt_of_lt_of_le late early
    · cases stops

/-- After `CheckExpired` the timer waits in its list, and is not due. -/
theorem checkExpired_watched (rearms : Rearms clock timeout timer notify) (positive : 0 < timeout.toInt)
    (stamped : now ≠ 0) (ahead : now ≤ clock.read unit.reads) (ordered : unit.Ordered clock)
    (enlisted : unit.Enlisted timeout timer) (ran : checkExpired clock notify fuel now unit = some final) :
    Watched clock timeout timer unit final ∧ now < final.unit.objexp timer := by
  rw [checkExpired, show stamp clock now unit = (now, unit) from if_neg stamped] at ran
  obtain ⟨middle, emptied, ran⟩ := Option.bind_eq_some_iff.mp ran
  have start : Watched clock timeout timer unit ⟨unit, []⟩ :=
    ⟨ordered, Nat.le_refl _, enlisted, .inl ⟨List.not_mem_nil, rfl⟩⟩
  have pending (state next : Sweep Timer) (held : Watched clock timeout timer unit state)
      (goes : pendingRound notify state = some next) : Watched clock timeout timer unit next := by
    obtain ⟨other, _, rfl⟩ := Option.map_eq_some_iff.mp goes
    exact held.notifyHead rearms other
  obtain ⟨watched, _⟩ := iterate_keeps pending start emptied
  have lists (order : List Int32) (sweep : Sweep Timer) (watched : Watched clock timeout timer unit sweep)
      (ran : order.foldlM (fun sweep place => checkExpiredList clock notify fuel now place sweep) sweep = some final) :
      Watched clock timeout timer unit final ∧
        (timeout ∈ order ∨ now < sweep.unit.objexp timer → now < final.unit.objexp timer) := by
    induction order generalizing sweep with
    | nil =>
      obtain rfl := Option.some.inj ran
      exact ⟨watched, fun either => either.resolve_left List.not_mem_nil⟩
    | cons place rest ih =>
      rw [List.foldlM_cons] at ran
      obtain ⟨next, first, rest⟩ := Option.bind_eq_some_iff.mp ran
      obtain ⟨further, gone⟩ := list_watched rearms positive stamped ahead watched first
      obtain ⟨ended, kept⟩ := ih next further rest
      refine ⟨ended, fun either => kept ?_⟩
      rcases either with member | late
      · rcases List.mem_cons.mp member with rfl | behind
        · exact .inr (gone (.inl rfl))
        · exact .inl behind
      · exact .inr (gone (.inr late))
  obtain ⟨ended, gone⟩ := lists middle.unit.order middle watched ran
  exact ⟨ended, gone (.inl watched.enlisted.1)⟩

end TimerUnit

end TeenpattiUserServer.Net
