import TeenpattiUserServer.Bookkeeping.Clients
import TeenpattiUserServer.Net.TimerMemory

/-! The lists of the timers in memory are the queues of `TimerUnit`: whatever is called,
also out of the notifications, the same timers are notified in the same order. -/

namespace TeenpattiUserServer.Net

open Bookkeeping Intrusive Loops Equiv

variable {Timer : Type}

namespace TimerUnit

variable [DecidableEq Timer]

def attachZeroTimer (timer : Timer) (unit : TimerUnit Timer) : TimerUnit Timer :=
  let bare := unit.disableTimer timer
  { bare with
    pending := bare.pending ++ [timer]
    once := by
      rw [List.append_assoc, List.singleton_append]
      exact List.nodup_middle.mpr (List.nodup_cons.mpr ⟨not_armed_disableTimer timer unit, bare.once⟩) }

end TimerUnit

namespace TimerMemory

/-- The `list_head`s that a constructor has set up. -/
def Used (memory : TimerMemory Timer) : TimerNode Timer → Prop
  | .tlist list => list < memory.created
  | _ => True

/-- The `CTimerList`s with their timeouts, first to last, and the timers around each `list_head`. -/
structure Held (memory : TimerMemory Timer) (turn : Perm (TimerNode Timer)) (lists : List (Nat × Int32))
    (unit : TimerUnit Timer) : Prop where
  chain : Chain memory.nextList memory.next (lists.map Prod.fst) none
  members : ∀ list ∈ lists, list.1 < memory.created ∧ memory.timeout list.1 = list.2
  order : unit.order = lists.map Prod.snd
  linked : memory.heads.Linked memory.Used turn
  pending : Around turn .pending (unit.pending.map .timer)
  tlists : ∀ list ∈ lists, Around turn (.tlist list.1) ((unit.tlist list.2).map .timer)
  idle : ∀ timer, timer ∉ unit.armed → turn (.timer timer) = .timer timer
  objexp : memory.objexp = unit.objexp
  isLoop : memory.isLoop = unit.isLoop
  interval : memory.interval = unit.interval
  reads : memory.reads = unit.reads

/-- The memory holds the queues, and the `known` lists are still the last ones. -/
def Holds (known : List (Nat × Int32)) (memory : TimerMemory Timer) (unit : TimerUnit Timer) : Prop :=
  ∃ turn newer, memory.Held turn (newer ++ known) unit

variable {memory : TimerMemory Timer} {unit : TimerUnit Timer} {turn : Perm (TimerNode Timer)}
  {lists known : List (Nat × Int32)} {timer : Timer} {list : Nat × Int32} {timeout : Int32}

theorem Holds.suffix {fewer : List (Nat × Int32)} (holds : memory.Holds known unit) (suffix : fewer <:+ known) :
    memory.Holds fewer unit := by
  obtain ⟨turn, newer, held⟩ := holds
  obtain ⟨front, rfl⟩ := suffix
  exact ⟨turn, newer ++ front, by rwa [List.append_assoc]⟩

theorem Holds.read (holds : memory.Holds known unit) :
    Holds known { memory with reads := memory.reads + 1 } { unit with reads := unit.reads + 1 } := by
  obtain ⟨turn, newer, held⟩ := holds
  exact ⟨turn, newer, { held with reads := congrArg (· + 1) held.reads }⟩

/-- A list has one timeout, and a timeout one list. -/
theorem Held.apart (held : memory.Held turn lists unit) {other : Nat × Int32} (member : list ∈ lists)
    (listed : other ∈ lists) (different : other ≠ list) : other.1 ≠ list.1 ∧ other.2 ≠ list.2 := by
  have distinct : (lists.map Prod.snd).Nodup := held.order ▸ unit.distinct
  have timeouts : other.2 ≠ list.2 := fun same => different (List.inj_on_of_nodup_map distinct listed member same)
  refine ⟨fun same => timeouts ?_, timeouts⟩
  rw [← (held.members other listed).2, ← (held.members list member).2, same]

theorem Held.lists_le (held : memory.Held turn lists unit) : lists.length ≤ memory.created := by
  have bounded : lists.map Prod.fst ⊆ List.range memory.created := by
    intro place member
    obtain ⟨list, listed, rfl⟩ := List.mem_map.mp member
    exact List.mem_range.mpr (held.members list listed).1
  simpa using held.chain.nodup.length_le_of_subset bounded

theorem mem_armed_of_held (held : memory.Held turn lists unit) : timer ∈ unit.armed ↔
    timer ∈ unit.pending ∨ ∃ list ∈ lists, timer ∈ unit.tlist list.2 := by
  simp only [TimerUnit.armed, held.order, List.mem_append, List.mem_flatMap, List.mem_map, exists_exists_and_eq_and]

variable [DecidableEq Timer]

/-- A timer leaves its list, if it is in one. -/
theorem Held.disableTimer (held : memory.Held turn lists unit) (timer : Timer) :
    (memory.disableTimer timer).Held (leave turn (.timer timer)) lists (unit.disableTimer timer) := by
  have kept (queue : List Timer) : (queue.filter (· ≠ timer)).map TimerNode.timer =
      (queue.map TimerNode.timer).filter (· ≠ .timer timer) := by
    simp [List.filter_map, Function.comp_def]
  have linked : (memory.disableTimer timer).heads.Linked memory.Used (leave turn (.timer timer)) :=
    ListHeads.listDelInit_linked held.linked trivial
  exact { held with
    linked := linked
    pending := by
      rw [TimerUnit.disableTimer, kept]
      exact held.pending.leave (by simp)
    tlists := fun list listed => by
      rw [TimerUnit.disableTimer, kept]
      exact (held.tlists list listed).leave (by simp)
    idle := fun other absent => by
      by_cases same : other = timer
      · rw [same, leave_self]
      · refine leave_alone (held.idle other fun armed => absent ?_)
        simpa [TimerUnit.armed, TimerUnit.disableTimer, same] using armed }

/-- A timer that is in no list comes last in one. -/
private theorem Held.push (held : memory.Held turn lists unit) (idle : timer ∉ unit.armed) {head : TimerNode Timer}
    (isHead : ∀ other, head ≠ .timer other) {pushed : ListHeads (TimerNode Timer)}
    (linked : pushed.Linked memory.Used (join turn head (.timer timer))) {pending : List Timer}
    {tlist : Int32 → List Timer} (once : (pending ++ unit.order.flatMap tlist).Nodup)
    (waiting : pending = unit.pending ++ if head = .pending then [timer] else [])
    (queued : ∀ list ∈ lists, tlist list.2 = unit.tlist list.2 ++ if head = .tlist list.1 then [timer] else [])
    (armed : timer ∈ pending ++ unit.order.flatMap tlist) :
    Held { memory with heads := pushed } (join turn head (.timer timer)) lists
      { unit with pending := pending, tlist := tlist, once := once } := by
  have alone := held.idle timer idle
  have gone := idle
  rw [mem_armed_of_held held, not_or, not_exists] at gone
  have around {other : TimerNode Timer} (away : ∀ timer, other ≠ .timer timer) {queue : List Timer}
      (absent : timer ∉ queue) (before : Around turn other (queue.map .timer)) :
      Around (join turn head (.timer timer)) other ((queue ++ if head = other then [timer] else []).map .timer) := by
    have outside : TimerNode.timer timer ∉ other :: queue.map .timer := by
      simpa [(away timer).symm] using absent
    by_cases same : head = other
    · subst same
      simpa using before.join alone outside
    · have apart : head ∉ other :: queue.map .timer := by
        simp only [List.mem_cons, same, List.mem_map, false_or, not_exists, not_and]
        exact fun timer _ here => isHead timer here.symm
      simpa [same] using before.join_outside outside apart
  exact { held with
    linked := linked
    pending := waiting ▸ around (by simp) gone.1 held.pending
    tlists := fun list listed => by
      change Around _ (TimerNode.tlist list.1) ((tlist list.2).map TimerNode.timer)
      rw [queued list listed]
      exact around (by simp) (fun inside => gone.2 list ⟨listed, inside⟩) (held.tlists list listed)
    idle := fun other absent => by
      have different : other ≠ timer := fun same => absent (same ▸ armed)
      have stays := held.idle other fun member => absent ?_
      · rw [join_of_ne (by simpa using different) (stays.trans_ne (isHead other).symm), stays]
      · rcases (mem_armed_of_held held).mp member with early | ⟨list, listed, inside⟩
        · exact List.mem_append_left _ (waiting ▸ List.mem_append_left _ early)
        · have order : list.2 ∈ unit.order := held.order ▸ List.mem_map.mpr ⟨list, listed, rfl⟩
          have kept : other ∈ tlist list.2 := queued list listed ▸ List.mem_append_left _ inside
          exact List.mem_append_right _ (List.mem_flatMap.mpr ⟨list.2, order, kept⟩) }

theorem Held.listMoveTail (held : memory.Held turn lists unit) (member : list ∈ lists) (timer : Timer) :
    ∃ turn, (memory.listMoveTail (.tlist list.1) timer).Held turn lists (unit.listMoveTail list.2 timer) := by
  have bare := held.disableTimer timer
  have listed : list.2 ∈ unit.order := held.order ▸ List.mem_map.mpr ⟨list, member, rfl⟩
  have linked : (memory.listMoveTail (.tlist list.1) timer).heads.Linked memory.Used _ :=
    ListHeads.listMoveTail_linked held.linked trivial (held.members list member).1 (by simp)
  refine ⟨_, bare.push (TimerUnit.not_armed_disableTimer timer unit) (by simp) linked _ ?_ ?_ ?_⟩
  · simp
  · intro other known
    by_cases same : other = list
    · simp [same]
    · have apart := held.apart member known same
      simp [Function.update_of_ne apart.2, apart.1.symm]
  · refine List.mem_append_right _ (List.mem_flatMap.mpr ⟨list.2, listed, ?_⟩)
    simp

theorem Held.attachZeroTimer (held : memory.Held turn lists unit) (timer : Timer) :
    ∃ turn, (memory.attachZeroTimer timer).Held turn lists (unit.attachZeroTimer timer) := by
  have bare := held.disableTimer timer
  have linked : (memory.attachZeroTimer timer).heads.Linked memory.Used _ :=
    ListHeads.listMoveTail_linked held.linked trivial trivial (by simp)
  refine ⟨_, bare.push (TimerUnit.not_armed_disableTimer timer unit) (by simp) linked _ ?_ ?_ ?_⟩
  · simp
  · simp
  · simp

omit [DecidableEq Timer] in
/-- The loop of `GetTimerList` meets the lists in their order. -/
private theorem findList_eq {rest : List (Nat × Int32)} {head : Option Nat} {rounds : Nat}
    (chain : Chain memory.nextList head (rest.map Prod.fst) none)
    (members : ∀ list ∈ rest, memory.timeout list.1 = list.2) (enough : rest.length ≤ rounds) (timeout : Int32) :
    memory.findList timeout rounds head = some ((rest.find? (·.2 = timeout)).map Prod.fst) := by
  induction rest generalizing head rounds with
  | nil =>
    obtain rfl := chain.head
    cases rounds <;> rfl
  | cons list rest ih =>
    obtain ⟨rfl, further⟩ := chain
    cases rounds with
    | zero => simp at enough
    | succ rounds =>
      rw [findList, members list (List.mem_cons_self ..)]
      by_cases found : list.2 = timeout
      · simp [found]
      · have later := ih further (fun other member => members other (List.mem_cons_of_mem _ member))
          (Nat.le_of_succ_le_succ enough)
        simpa [found] using later

private theorem Held.newTimerList (held : memory.Held turn lists unit) (fresh : timeout ∉ unit.order) :
    (memory.newTimerList timeout).Held turn ((memory.created, timeout) :: lists) (unit.getTimerList timeout) := by
  have absent : ¬ memory.Used (.tlist memory.created) := Nat.lt_irrefl _
  have older : ∀ list ∈ lists, list.1 ≠ memory.created ∧ list.2 ≠ timeout := by
    intro list listed
    refine ⟨Nat.ne_of_lt (held.members list listed).1, fun same => fresh ?_⟩
    exact held.order ▸ List.mem_map.mpr ⟨list, listed, same⟩
  have used : (memory.newTimerList timeout).Used = fun node => node = .tlist memory.created ∨ memory.Used node := by
    funext node
    refine propext ?_
    cases node with
    | tlist list =>
      rw [TimerNode.tlist.injEq]
      exact Nat.lt_succ_iff_lt_or_eq.trans or_comm
    | _ => exact iff_of_true trivial (.inr trivial)
  rw [TimerUnit.getTimerList, dif_neg fresh]
  refine { held with
    chain := ⟨rfl, ?_⟩
    members := ?_
    order := congrArg (timeout :: ·) held.order
    linked := used ▸ ListHeads.initListHead_linked held.linked absent
    tlists := ?_
    idle := fun timer gone => held.idle timer fun armed => gone ?_ }
  · have outside : memory.created ∉ lists.map Prod.fst := by
      simp only [List.mem_map, not_exists, not_and]
      exact fun list listed same => (older list listed).1 same
    simpa [TimerMemory.newTimerList] using held.chain.update outside memory.next
  · intro list listed
    rcases List.mem_cons.mp listed with rfl | member
    · exact ⟨Nat.lt_succ_self _, Function.update_self ..⟩
    · have before := held.members list member
      exact ⟨Nat.lt_succ_of_lt before.1, (Function.update_of_ne (older list member).1 ..).trans before.2⟩
  · intro list listed
    rcases List.mem_cons.mp listed with rfl | member
    · simpa [around_nil] using held.linked.unused _ absent
    · simpa [Function.update_of_ne (older list member).2] using held.tlists list member
  · rw [TimerUnit.mem_armed] at armed ⊢
    refine armed.imp id fun ⟨place, listed, inside⟩ => ⟨place, List.mem_cons_of_mem _ listed, ?_⟩
    have different : place ≠ timeout := ne_of_mem_of_not_mem listed fresh
    simpa [Function.update_of_ne different] using inside

/-- The list of a timeout, old or new. -/
theorem Held.getTimerList (held : memory.Held turn lists unit) (timeout : Int32) :
    ∃ list after newer, memory.getTimerList timeout = some (list, after) ∧
      after.Held turn (newer ++ lists) (unit.getTimerList timeout) ∧ (list, timeout) ∈ newer ++ lists := by
  have walked := findList_eq held.chain (fun list listed => (held.members list listed).2) held.lists_le timeout
  cases found : lists.find? (·.2 = timeout) with
  | some list =>
    have member := List.mem_of_find?_eq_some found
    obtain rfl : list.2 = timeout := by simpa using List.find?_some found
    have listed : list.2 ∈ unit.order := held.order ▸ List.mem_map.mpr ⟨list, member, rfl⟩
    refine ⟨list.1, memory, [], ?_, ?_, member⟩
    · rw [TimerMemory.getTimerList, walked, found]
      rfl
    · rwa [TimerUnit.getTimerList, dif_pos listed]
  | none =>
    have fresh : timeout ∉ unit.order := by
      rw [held.order, List.mem_map]
      rintro ⟨list, listed, rfl⟩
      simpa using List.find?_eq_none.mp found list listed
    refine ⟨memory.created, memory.newTimerList timeout, [(memory.created, timeout)], ?_,
      held.newTimerList fresh, by simp⟩
    rw [TimerMemory.getTimerList, walked, found]
    rfl

theorem Held.attachTimer (held : memory.Held turn lists unit) (member : list ∈ lists) (clock : Clock) (timer : Timer) :
    ∃ turn, (memory.attachTimer clock list.1 timer).Held turn lists (unit.attachTimer clock list.2 timer) := by
  rw [TimerMemory.attachTimer, TimerUnit.attachTimer, (held.members list member).2]
  split
  · rw [held.objexp, held.reads]
    have later : Held { memory with
        objexp := Function.update unit.objexp timer (clock.read unit.reads + list.2.toInt * 1000)
        reads := unit.reads + 1 } turn lists { unit with
        objexp := Function.update unit.objexp timer (clock.read unit.reads + list.2.toInt * 1000)
        reads := unit.reads + 1 } := { held with objexp := rfl, reads := rfl }
    exact later.listMoveTail member timer
  · exact held.listMoveTail member timer

/-- A call in memory goes through, and does what it does to the queues. -/
abbrev Does (known : List (Nat × Int32)) (memory : Option (TimerMemory Timer)) (unit : TimerUnit Timer) : Prop :=
  Option.Rel (Holds known) memory (some unit)

theorem Holds.disableTimer (holds : memory.Holds known unit) (timer : Timer) :
    (memory.disableTimer timer).Holds known (unit.disableTimer timer) := by
  obtain ⟨_, newer, held⟩ := holds
  exact ⟨_, newer, held.disableTimer timer⟩

theorem Holds.attachZeroTimer (holds : memory.Holds known unit) (timer : Timer) :
    (memory.attachZeroTimer timer).Holds known (unit.attachZeroTimer timer) := by
  obtain ⟨_, newer, held⟩ := holds
  obtain ⟨turn, after⟩ := held.attachZeroTimer timer
  exact ⟨turn, newer, after⟩

theorem Holds.registTimer (holds : memory.Holds known unit) (clock : Clock) (timer : Timer) (interval : Int) :
    Does known (memory.registTimer clock timer interval) (unit.registTimer clock timer interval) := by
  obtain ⟨turn, newer, held⟩ := holds
  obtain ⟨list, after, first, found, listed, member⟩ := held.getTimerList (Int32.ofInt interval)
  obtain ⟨turn, attached⟩ := (listed.disableTimer timer).attachTimer member clock timer
  rw [TimerMemory.registTimer, found]
  exact .some ⟨turn, first ++ newer, by rwa [List.append_assoc]⟩

theorem Holds.startTimer (holds : memory.Holds known unit) (clock : Clock) (timer : Timer) (interval : Int)
    (isLoop : Bool) : Does known (memory.startTimer clock timer interval isLoop)
      (unit.startTimer clock timer interval isLoop) := by
  obtain ⟨turn, newer, held⟩ := holds
  have flagged : Holds known { memory with
      isLoop := Function.update memory.isLoop timer isLoop
      interval := Function.update memory.interval timer interval } { unit with
      isLoop := Function.update unit.isLoop timer isLoop
      interval := Function.update unit.interval timer interval } :=
    ⟨turn, newer, { held with
      isLoop := by rw [held.isLoop]
      interval := by rw [held.interval] }⟩
  exact flagged.registTimer clock timer interval

theorem Holds.stopTimer (holds : memory.Holds known unit) (timer : Timer) :
    (memory.stopTimer timer).Holds known (unit.stopTimer timer) := by
  obtain ⟨turn, newer, held⟩ := holds.disableTimer timer
  have isLoop : Function.update (memory.disableTimer timer).isLoop timer false =
      Function.update (unit.disableTimer timer).isLoop timer false := by rw [held.isLoop]
  exact ⟨turn, newer, { held with isLoop := isLoop }⟩

theorem Holds.called (holds : memory.Holds known unit) (clock : Clock) (call : TimerCall Timer) :
    Does known (memory.called clock call) (unit.called clock call) := by
  cases call with
  | start timer interval isLoop => exact holds.startTimer clock timer interval isLoop
  | stop timer => exact .some (holds.stopTimer timer)

theorem Holds.timerNotify (holds : memory.Holds known unit) (clock : Clock) (during : Nat → List (TimerCall Timer))
    (count : Nat) (timer : Timer) :
    Does known (TimerMemory.timerNotify clock during count timer memory)
      (TimerUnit.timerNotify clock during count timer unit) := by
  obtain ⟨processed, ran, same⟩ := rel_some_iff.mp
    (rel_foldl (fun call _ _ same => Holds.called same clock call) (during count) holds)
  obtain ⟨turn, newer, held⟩ := same
  simp only [TimerMemory.timerNotify, ran, Option.bind_some, TimerUnit.timerNotify, held.isLoop, held.interval]
  split
  · exact Holds.startTimer ⟨turn, newer, held⟩ clock timer _ true
  · exact .some ⟨turn, newer, held⟩

/-- What `ListEmpty` and `NextOwner` see of a list: its first timer. -/
private theorem seen (linked : memory.heads.Linked memory.Used turn) {head : TimerNode Timer} (used : memory.Used head)
    (isHead : ∀ timer, head ≠ .timer timer) {queue : List Timer} (around : Around turn head (queue.map .timer)) :
    memory.heads.listEmpty head = queue.isEmpty ∧ memory.nextOwner head = queue.head? := by
  have next := (linked.next head used).trans around.next_head
  rw [ListHeads.listEmpty, nextOwner, next]
  cases queue with
  | nil =>
    cases head with
    | timer timer => exact absurd rfl (isHead timer)
    | _ => simp
  | cons timer rest => simpa using (isHead timer).symm

/-- A notification in memory does what it does to the queues. -/
def Notify.Follows (notify : Notify Timer) (beside : TimerUnit.Notify Timer) : Prop :=
  ∀ {known memory unit}, Holds known memory unit → ∀ count timer,
    Does known (notify count timer memory) (beside count timer unit)

/-- Calls in progress that have notified the same timers. -/
structure Sweep.Holds (known : List (Nat × Int32)) (sweep : Sweep Timer) (beside : TimerUnit.Sweep Timer) : Prop where
  memory : sweep.memory.Holds known beside.unit
  notified : sweep.notified = beside.notified

variable {notify : Notify Timer} {beside : TimerUnit.Notify Timer} {sweep : Sweep Timer}
  {other : TimerUnit.Sweep Timer} {fuel : Nat}

theorem Sweep.Holds.notifyHead (same : sweep.Holds known other) (follows : notify.Follows beside) (timer : Timer) :
    ∃ after, TimerMemory.notifyHead notify timer sweep = some after ∧
      after.Holds known (TimerUnit.notifyHead beside timer other) := by
  obtain ⟨memory, ran, holds⟩ :=
    rel_some_iff.mp (follows (same.memory.disableTimer timer) sweep.notified.length timer)
  rw [same.notified] at ran holds
  refine ⟨⟨memory, sweep.notified ++ [timer]⟩, ?_, holds, congrArg (· ++ [timer]) same.notified⟩
  rw [TimerMemory.notifyHead, same.notified, ran, Option.map_some]

theorem Sweep.Holds.pendingRound (same : sweep.Holds known other) (follows : notify.Follows beside) :
    Option.Rel (Option.Rel (Sweep.Holds known)) (TimerMemory.pendingRound notify sweep)
      (some (TimerUnit.pendingRound beside other)) := by
  obtain ⟨turn, newer, held⟩ := same.memory
  have used : sweep.memory.Used .pending := trivial
  obtain ⟨empty, first⟩ := seen held.linked used (by simp) held.pending
  rw [TimerMemory.pendingRound, TimerUnit.pendingRound, empty, first]
  cases other.unit.pending with
  | nil => exact .some .none
  | cons timer rest =>
    obtain ⟨after, ran, further⟩ := same.notifyHead follows timer
    simpa [ran] using further

theorem Sweep.Holds.expireRound (same : sweep.Holds known other) (follows : notify.Follows beside) (now : Int)
    (member : list ∈ known) : Option.Rel (Option.Rel (Sweep.Holds known))
      (TimerMemory.expireRound notify now list.1 sweep) (some (TimerUnit.expireRound beside now list.2 other)) := by
  obtain ⟨turn, newer, held⟩ := same.memory
  have listed : list ∈ newer ++ known := List.mem_append_right _ member
  have used : sweep.memory.Used (.tlist list.1) := (held.members list listed).1
  obtain ⟨empty, first⟩ := seen held.linked used (by simp) (held.tlists list listed)
  rw [TimerMemory.expireRound, TimerUnit.expireRound, empty, first, held.objexp]
  cases other.unit.tlist list.2 with
  | nil => exact .some .none
  | cons timer rest =>
    obtain ⟨after, ran, further⟩ := same.notifyHead follows timer
    by_cases later : now < other.unit.objexp timer
    · simp [later]
    · simpa [later, ran] using further

omit [DecidableEq Timer] in
/-- The pointer of a list leads to the one after it. -/
theorem Holds.nextList_eq {front rest : List (Nat × Int32)} (holds : memory.Holds (front ++ list :: rest) unit) :
    memory.nextList list.1 = (rest.map Prod.fst).head? := by
  obtain ⟨turn, newer, held⟩ := holds
  have chain := held.chain
  rw [← List.append_assoc, List.map_append, List.map_cons] at chain
  obtain ⟨_, _, _, further⟩ := chain_append.mp chain
  exact further.head

omit [DecidableEq Timer] in
theorem Holds.stamp (holds : memory.Holds known unit) (clock : Clock) (now : Int) :
    ∃ time after later, TimerMemory.stamp clock now memory = (time, after) ∧
      TimerUnit.stamp clock now unit = (time, later) ∧ after.Holds known later := by
  obtain ⟨turn, newer, held⟩ := holds
  by_cases unset : now = 0
  · refine ⟨_, _, _, if_pos unset, ?_, Holds.read ⟨turn, newer, held⟩⟩
    rw [TimerUnit.stamp, if_pos unset, held.reads]
  · exact ⟨now, memory, unit, if_neg unset, if_neg unset, turn, newer, held⟩

theorem Sweep.Holds.checkPending (same : sweep.Holds known other) (follows : notify.Follows beside) (fuel : Nat) :
    Option.Rel (Sweep.Holds known) (TimerMemory.checkPending notify fuel sweep)
      (TimerUnit.checkPending beside fuel other) :=
  rel_attempt (fun _ _ same => Sweep.Holds.pendingRound same follows) fuel same

theorem Sweep.Holds.checkExpiredList (same : sweep.Holds known other) (follows : notify.Follows beside) (clock : Clock)
    (fuel : Nat) (now : Int) (member : list ∈ known) :
    Option.Rel (Sweep.Holds known) (TimerMemory.checkExpiredList clock notify fuel now list.1 sweep)
      (TimerUnit.checkExpiredList clock beside fuel now list.2 other) := by
  obtain ⟨time, after, later, stamped, beside, holds⟩ := same.memory.stamp clock now
  rw [TimerMemory.checkExpiredList, TimerUnit.checkExpiredList, stamped, beside]
  exact rel_attempt (fun _ _ same => Sweep.Holds.expireRound same follows _ member) fuel ⟨holds, same.notified⟩

/-- The loop of `CheckExpired` along the lists, from one of them on. -/
private theorem lists_follow (same : sweep.Holds known other) (follows : notify.Follows beside) (clock : Clock)
    (fuel : Nat) (now : Int) {rest : List (Nat × Int32)} (suffix : rest <:+ known) {rounds : Nat}
    (enough : rest.length ≤ rounds) : Option.Rel (Sweep.Holds known)
      (along (fun sweep => sweep.memory.nextList) (TimerMemory.checkExpiredList clock notify fuel now) rounds
        (rest.map Prod.fst).head? sweep)
      ((rest.map Prod.snd).foldlM (fun other timeout => TimerUnit.checkExpiredList clock beside fuel now timeout other)
        other) := by
  induction rest generalizing sweep other rounds with
  | nil =>
    rw [List.map_nil, List.head?_nil, along]
    exact .some same
  | cons list rest ih =>
    obtain ⟨front, rfl⟩ := suffix
    cases rounds with
    | zero => simp at enough
    | succ rounds =>
      rw [List.map_cons, List.head?_cons, along, List.map_cons, List.foldlM_cons]
      refine rel_bind (same.checkExpiredList follows clock fuel now (by simp)) fun sweep other further => ?_
      rw [further.memory.nextList_eq]
      exact ih further ⟨front ++ [list], by simp⟩ (Nat.le_of_succ_le_succ enough)

theorem Holds.checkExpired (holds : memory.Holds known unit) (follows : notify.Follows beside) (clock : Clock)
    (fuel : Nat) (now : Int) : Option.Rel (Sweep.Holds known) (memory.checkExpired clock notify fuel now)
      (unit.checkExpired clock beside fuel now) := by
  obtain ⟨time, stamped, later, first, second, started⟩ := holds.stamp clock now
  rw [TimerMemory.checkExpired, TimerUnit.checkExpired, first, second]
  refine rel_bind (Sweep.Holds.checkPending ⟨started, rfl⟩ follows fuel) fun sweep other same => ?_
  obtain ⟨turn, newer, held⟩ := same.memory
  have lists : sweep.Holds (newer ++ known) other := ⟨⟨turn, [], held⟩, same.notified⟩
  have along := lists_follow lists follows clock fuel time List.suffix_rfl held.lists_le
  rw [← held.chain.head, ← held.order] at along
  exact rel_imp along fun _ _ after => ⟨after.memory.suffix (List.suffix_append ..), after.notified⟩

/-- The loop of `ExpireMicroSeconds` along the lists, from one of them on. -/
private theorem earliest_follows {front rest : List (Nat × Int32)} (held : memory.Held turn (front ++ rest) unit)
    {rounds : Nat} (enough : rest.length ≤ rounds) (exp : Int) :
    along (fun _ => memory.nextList) memory.earlier rounds (rest.map Prod.fst).head? exp =
      some ((rest.map Prod.snd).foldl (fun exp timeout =>
        match (unit.tlist timeout).head? with
        | none => exp
        | some timer => if unit.objexp timer < exp then unit.objexp timer else exp) exp) := by
  induction rest generalizing front rounds exp with
  | nil => rw [List.map_nil, List.head?_nil, along, List.map_nil, List.foldl_nil]
  | cons list rest ih =>
    cases rounds with
    | zero => simp at enough
    | succ rounds =>
      have member : list ∈ front ++ list :: rest := by simp
      have used : memory.Used (.tlist list.1) := (held.members list member).1
      obtain ⟨empty, first⟩ := seen held.linked used (by simp) (held.tlists list member)
      have next := Holds.nextList_eq ⟨turn, [], held⟩
      have seen : memory.earlier list.1 exp = some (match (unit.tlist list.2).head? with
          | none => exp
          | some timer => if unit.objexp timer < exp then unit.objexp timer else exp) := by
        rw [earlier, empty, first, held.objexp]
        cases unit.tlist list.2 <;> rfl
      rw [List.map_cons, List.head?_cons, along, seen, Option.bind_some, next]
      have onward : memory.Held turn ((front ++ [list]) ++ rest) unit := by simpa using held
      exact ih onward (Nat.le_of_succ_le_succ enough) _

theorem Holds.expireMicroSeconds (holds : memory.Holds known unit) (clock : Clock) (msec : Int32) :
    ∃ after, memory.expireMicroSeconds clock msec = some ((unit.expireMicroSeconds clock msec).1, after) ∧
      after.Holds known (unit.expireMicroSeconds clock msec).2 := by
  have later := holds.read
  obtain ⟨turn, newer, held⟩ := holds
  have whole : memory.Held turn ([] ++ (newer ++ known)) unit := held
  have along := earliest_follows whole held.lists_le (clock.read unit.reads + msec.toInt * 1000)
  rw [← held.chain.head, ← held.order] at along
  refine ⟨{ memory with reads := memory.reads + 1 }, ?_, later⟩
  rw [TimerMemory.expireMicroSeconds, held.reads, along]
  rfl

end TimerMemory

/-- What is asked of the timers. -/
inductive TimerUse (Timer : Type) where
  | call (call : TimerCall Timer)
  | attachZeroTimer (timer : Timer)
  | checkExpired (fuel : Nat) (now : Int) (during : Nat → List (TimerCall Timer))
  | checkPending (fuel : Nat) (during : Nat → List (TimerCall Timer))
  | expireMicroSeconds (msec : Int32)
  | getTimestamp

/-- What comes back: the timers that were notified, how long to wait, or the time. -/
inductive TimerReply (Timer : Type) where
  | done
  | notified (timers : List Timer)
  | wait (msec : Int32)
  | timestamp (time : Int)
  deriving DecidableEq

variable [DecidableEq Timer]

def TimerMemory.serve (clock : Clock) :
    TimerUse Timer → TimerMemory Timer → Option (TimerReply Timer × TimerMemory Timer)
  | .call call, memory => (memory.called clock call).map fun after => (.done, after)
  | .attachZeroTimer timer, memory => some (.done, memory.attachZeroTimer timer)
  | .checkExpired fuel now during, memory =>
    (memory.checkExpired clock (timerNotify clock during) fuel now).map fun sweep =>
      (.notified sweep.notified, sweep.memory)
  | .checkPending fuel during, memory =>
    (checkPending (timerNotify clock during) fuel ⟨memory, []⟩).map fun sweep =>
      (.notified sweep.notified, sweep.memory)
  | .expireMicroSeconds msec, memory =>
    (memory.expireMicroSeconds clock msec).map fun result => (.wait result.1, result.2)
  | .getTimestamp, memory =>
    some (.timestamp (clock.read memory.reads), { memory with reads := memory.reads + 1 })

def TimerUnit.serve (clock : Clock) : TimerUse Timer → TimerUnit Timer → Option (TimerReply Timer × TimerUnit Timer)
  | .call call, unit => some (.done, unit.called clock call)
  | .attachZeroTimer timer, unit => some (.done, unit.attachZeroTimer timer)
  | .checkExpired fuel now during, unit =>
    (unit.checkExpired clock (timerNotify clock during) fuel now).map fun sweep =>
      (.notified sweep.notified, sweep.unit)
  | .checkPending fuel during, unit =>
    (checkPending (timerNotify clock during) fuel ⟨unit, []⟩).map fun sweep =>
      (.notified sweep.notified, sweep.unit)
  | .expireMicroSeconds msec, unit =>
    some (.wait (unit.expireMicroSeconds clock msec).1, (unit.expireMicroSeconds clock msec).2)
  | .getTimestamp, unit => some (.timestamp (clock.read unit.reads), { unit with reads := unit.reads + 1 })

namespace TimerMemory

/-- After the constructors: no `CTimerList`, and every `list_head` leads to itself. -/
structure Constructed (memory : TimerMemory Timer) : Prop where
  next : memory.next = none
  created : memory.created = 0
  pending : memory.heads.next .pending = .pending ∧ memory.heads.prev .pending = .pending
  timers : ∀ timer, memory.heads.next (.timer timer) = .timer timer ∧ memory.heads.prev (.timer timer) = .timer timer

/-- Empty queues, for timers with these members. -/
def queues (memory : TimerMemory Timer) : TimerUnit Timer where
  order := []
  tlist _ := []
  pending := []
  objexp := memory.objexp
  isLoop := memory.isLoop
  interval := memory.interval
  reads := memory.reads
  distinct := List.nodup_nil
  once := List.nodup_nil

variable {memory : TimerMemory Timer}

omit [DecidableEq Timer] in
theorem Constructed.holds (constructed : memory.Constructed) : memory.Holds [] memory.queues := by
  have linked : memory.heads.Linked memory.Used 1 := by
    refine ⟨fun node used => ?_, fun node used => ?_, fun _ _ => rfl⟩
    all_goals
      cases node with
      | pending => first | exact constructed.pending.1 | exact constructed.pending.2
      | tlist list => simp [Used, constructed.created] at used
      | timer timer => first | exact (constructed.timers timer).1 | exact (constructed.timers timer).2
  exact ⟨1, [], {
    chain := constructed.next
    members := fun list listed => absurd listed List.not_mem_nil
    order := rfl
    linked := linked
    pending := around_nil.mpr rfl
    tlists := fun list listed => absurd listed List.not_mem_nil
    idle := fun _ _ => rfl
    objexp := rfl
    isLoop := rfl
    interval := rfl
    reads := rfl }⟩

theorem mirrors (clock : Clock) : Mirrors (serve clock) (TimerUnit.serve clock)
    (Holds [] : TimerMemory Timer → TimerUnit Timer → Prop) := by
  intro memory unit holds call
  have follows (during : Nat → List (TimerCall Timer)) : (timerNotify clock during).Follows
      (TimerUnit.timerNotify clock during) := fun holds => Holds.timerNotify holds clock during
  cases call with
  | call call =>
    obtain ⟨after, ran, same⟩ := rel_some_iff.mp (holds.called clock call)
    rw [serve, ran]
    exact .some ⟨rfl, same⟩
  | attachZeroTimer timer => exact .some ⟨rfl, holds.attachZeroTimer timer⟩
  | checkExpired fuel now during =>
    refine rel_map (holds.checkExpired (follows during) clock fuel now) fun sweep other same => ?_
    exact ⟨congrArg TimerReply.notified same.notified, same.memory⟩
  | checkPending fuel during =>
    refine rel_map (Sweep.Holds.checkPending ⟨holds, rfl⟩ (follows during) fuel) fun sweep other same => ?_
    exact ⟨congrArg TimerReply.notified same.notified, same.memory⟩
  | expireMicroSeconds msec =>
    obtain ⟨after, ran, same⟩ := holds.expireMicroSeconds clock msec
    rw [serve, ran]
    exact .some ⟨rfl, same⟩
  | getTimestamp =>
    obtain ⟨turn, newer, held⟩ := holds
    exact .some ⟨by rw [held.reads], Holds.read ⟨turn, newer, held⟩⟩

/-- No program can tell the lists in memory from queues, and no pointer of them leads astray. -/
theorem rings_act_as_queues (clock : Clock) (constructed : memory.Constructed) {α : Type}
    (client : Client (TimerUse Timer) (TimerReply Timer) α) :
    Option.Rel (fun result other => result.1 = other.1 ∧ result.2.Holds [] other.2) (client.run (serve clock) memory)
      (client.run (TimerUnit.serve clock) memory.queues) :=
  Mirrors.client (mirrors clock) client constructed.holds

/-- A millisecond from one reading to the next. -/
def ticking : Clock where
  read call := 1000 * ((call : Int) + 1)
  positive call := by omega
  forward call later bound := by omega

/-- Two timers, and rubble where the lists are going to be. -/
def unused : TimerMemory Bool where
  heads.next
    | .tlist _ => .pending
    | node => node
  heads.prev
    | .tlist list => .tlist (list + 1)
    | node => node
  timeout _ := 2
  nextList list := some list
  next := none
  created := 0
  objexp _ := 0
  isLoop _ := false
  interval _ := 0
  reads := 0

/-- Two timers of one list are due; the first is started again and stops the second. Later the second is attached
for at once. -/
def twoTimers : Client (TimerUse Bool) (TimerReply Bool) (List (TimerReply Bool)) :=
  .ask (.call (.start false 2 true)) fun _ => .ask (.call (.start true 2 false)) fun _ =>
    .ask (.expireMicroSeconds 1000) fun wait =>
      .ask (.checkExpired 3 0 fun count => if count = 0 then [.stop true] else []) fun expired =>
        .ask (.attachZeroTimer true) fun _ => .ask (.checkPending 2 fun _ => []) fun pending =>
          .ask (.expireMicroSeconds 1000) fun again => .done [wait, expired, pending, again]

theorem rings_act_as_queues_twoTimers : ∃ after, twoTimers.run (serve ticking) unused =
    some ([.wait 0, .notified [false], .notified [true], .wait 1], after) := by
  have constructed : unused.Constructed := ⟨rfl, rfl, ⟨rfl, rfl⟩, fun _ => ⟨rfl, rfl⟩⟩
  have both := rings_act_as_queues ticking constructed twoTimers
  obtain ⟨unit, ran⟩ : ∃ unit, twoTimers.run (TimerUnit.serve ticking) unused.queues =
      some ([.wait 0, .notified [false], .notified [true], .wait 1], unit) := ⟨_, rfl⟩
  rw [ran] at both
  obtain ⟨⟨replies, after⟩, reached, same, _⟩ := rel_some_iff.mp both
  exact ⟨after, reached.trans (congrArg some (Prod.ext same rfl))⟩

end TimerMemory

end TeenpattiUserServer.Net
