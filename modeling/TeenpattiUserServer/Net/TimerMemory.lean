import TeenpattiUserServer.Loops.Related
import TeenpattiUserServer.Net.ListHead
import TeenpattiUserServer.Net.TimerRuns

/-! The timers as they lie in memory: `list_head`s in the timers and in the `CTimerList`s,
and the `CTimerList`s one behind the other. A `list_head` that is taken for one of a timer
and is not one is a fault. -/

namespace TeenpattiUserServer.Net

open Loops

/-- What holds a `list_head`: `pending`, the `CTimerList`s in the order of their creation, and the timers. -/
inductive TimerNode (Timer : Type) where
  | pending
  | tlist (list : Nat)
  | timer (timer : Timer)
  deriving DecidableEq

/-- `timeout` and `nextList` are members of `CTimerList`, `next` is one of `CTimerUnit`. -/
structure TimerMemory (Timer : Type) where
  heads : ListHeads (TimerNode Timer)
  timeout : Nat → Int32
  nextList : Nat → Option Nat
  next : Option Nat
  created : Nat
  objexp : Timer → Int
  isLoop : Timer → Bool
  interval : Timer → Int
  reads : Nat

namespace TimerMemory

variable {Timer : Type}

/-- The loop of `GetTimerList`. -/
def findList (timeout : Int32) (memory : TimerMemory Timer) : Nat → Option Nat → Option (Option Nat)
  | _, none => some none
  | 0, some _ => none
  | rounds + 1, some list =>
    if memory.timeout list = timeout then some (some list)
    else memory.findList timeout rounds (memory.nextList list)

variable [DecidableEq Timer]

/-- `NextOwner`, for a list that is not empty. -/
def nextOwner (head : TimerNode Timer) (memory : TimerMemory Timer) : Option Timer :=
  match memory.heads.next head with
  | .timer timer => some timer
  | _ => none

def disableTimer (timer : Timer) (memory : TimerMemory Timer) : TimerMemory Timer :=
  { memory with heads := memory.heads.listDelInit (.timer timer) }

def listMoveTail (head : TimerNode Timer) (timer : Timer) (memory : TimerMemory Timer) : TimerMemory Timer :=
  { memory with heads := memory.heads.listMoveTail (.timer timer) head }

def attachZeroTimer (timer : Timer) (memory : TimerMemory Timer) : TimerMemory Timer :=
  memory.listMoveTail .pending timer

def attachTimer (clock : Clock) (list : Nat) (timer : Timer) (memory : TimerMemory Timer) : TimerMemory Timer :=
  if 0 < (memory.timeout list).toInt then
    { memory with
      objexp := Function.update memory.objexp timer (clock.read memory.reads + (memory.timeout list).toInt * 1000)
      reads := memory.reads + 1 }.listMoveTail (.tlist list) timer
  else memory.listMoveTail (.tlist list) timer

def newTimerList (timeout : Int32) (memory : TimerMemory Timer) : TimerMemory Timer :=
  { memory with
    heads := memory.heads.initListHead (.tlist memory.created)
    timeout := Function.update memory.timeout memory.created timeout
    nextList := Function.update memory.nextList memory.created memory.next
    next := some memory.created
    created := memory.created + 1 }

def getTimerList (timeout : Int32) (memory : TimerMemory Timer) : Option (Nat × TimerMemory Timer) :=
  match memory.findList timeout memory.created memory.next with
  | none => none
  | some (some list) => some (list, memory)
  | some none => some (memory.created, memory.newTimerList timeout)

def registTimer (clock : Clock) (timer : Timer) (t : Int) (memory : TimerMemory Timer) : Option (TimerMemory Timer) :=
  (memory.getTimerList (Int32.ofInt t)).map fun found =>
    (found.2.disableTimer timer).attachTimer clock found.1 timer

/-- `CCTimer::StartTimer` -/
def startTimer (clock : Clock) (timer : Timer) (interval : Int) (isLoop : Bool) (memory : TimerMemory Timer) :
    Option (TimerMemory Timer) :=
  { memory with
    isLoop := Function.update memory.isLoop timer isLoop
    interval := Function.update memory.interval timer interval }.registTimer clock timer interval

/-- `CCTimer::StopTimer` -/
def stopTimer (timer : Timer) (memory : TimerMemory Timer) : TimerMemory Timer :=
  let disabled := memory.disableTimer timer
  { disabled with isLoop := Function.update disabled.isLoop timer false }

def called (clock : Clock) (memory : TimerMemory Timer) : TimerCall Timer → Option (TimerMemory Timer)
  | .start timer interval isLoop => memory.startTimer clock timer interval isLoop
  | .stop timer => some (memory.stopTimer timer)

abbrev Notify (Timer : Type) := Nat → Timer → TimerMemory Timer → Option (TimerMemory Timer)

/-- `CCTimer::TimerNotify`, where `ProcessOnTimerOut` makes these calls. -/
def timerNotify (clock : Clock) (during : Nat → List (TimerCall Timer)) : Notify Timer := fun count timer memory =>
  ((during count).foldlM (called clock) memory).bind fun processed =>
    if processed.isLoop timer then processed.startTimer clock timer (processed.interval timer) true else some processed

/-- A call in progress, and the timers notified so far. -/
structure Sweep (Timer : Type) where
  memory : TimerMemory Timer
  notified : List Timer

def notifyHead (notify : Notify Timer) (timer : Timer) (sweep : Sweep Timer) : Option (Sweep Timer) :=
  (notify sweep.notified.length timer (sweep.memory.disableTimer timer)).map fun memory =>
    ⟨memory, sweep.notified ++ [timer]⟩

/-- A round of `CheckPending`. -/
def pendingRound (notify : Notify Timer) (sweep : Sweep Timer) : Option (Option (Sweep Timer)) :=
  if sweep.memory.heads.listEmpty .pending then some none
  else (sweep.memory.nextOwner .pending).bind fun timer => (notifyHead notify timer sweep).map some

def checkPending (notify : Notify Timer) (fuel : Nat) (sweep : Sweep Timer) : Option (Sweep Timer) :=
  attempt (pendingRound notify) fuel sweep

/-- A round of `CTimerList::CheckExpired`. -/
def expireRound (notify : Notify Timer) (now : Int) (list : Nat) (sweep : Sweep Timer) :
    Option (Option (Sweep Timer)) :=
  if sweep.memory.heads.listEmpty (.tlist list) then some none
  else (sweep.memory.nextOwner (.tlist list)).bind fun timer =>
    if now < sweep.memory.objexp timer then some none else (notifyHead notify timer sweep).map some

/-- The `now == 0` of both `CheckExpired`. -/
def stamp (clock : Clock) (now : Int) (memory : TimerMemory Timer) : Int × TimerMemory Timer :=
  if now = 0 then (clock.read memory.reads, { memory with reads := memory.reads + 1 }) else (now, memory)

/-- `CTimerList::CheckExpired` -/
def checkExpiredList (clock : Clock) (notify : Notify Timer) (fuel : Nat) (now : Int) (list : Nat)
    (sweep : Sweep Timer) : Option (Sweep Timer) :=
  let (now, memory) := stamp clock now sweep.memory
  attempt (expireRound notify now list) fuel { sweep with memory }

/-- `CTimerUnit::CheckExpired` -/
def checkExpired (clock : Clock) (notify : Notify Timer) (fuel : Nat) (now : Int) (memory : TimerMemory Timer) :
    Option (Sweep Timer) := do
  let (now, memory) := stamp clock now memory
  let sweep ← checkPending notify fuel ⟨memory, []⟩
  along (fun sweep => sweep.memory.nextList) (checkExpiredList clock notify fuel now) sweep.memory.created
    sweep.memory.next sweep

/-- The loop of `ExpireMicroSeconds` for one list. -/
def earlier (memory : TimerMemory Timer) (list : Nat) (exp : Int) : Option Int :=
  if memory.heads.listEmpty (.tlist list) then some exp
  else (memory.nextOwner (.tlist list)).map fun timer =>
    if memory.objexp timer < exp then memory.objexp timer else exp

/-- `ExpireMicroSeconds`, which takes and gives milliseconds. -/
def expireMicroSeconds (clock : Clock) (msec : Int32) (memory : TimerMemory Timer) :
    Option (Int32 × TimerMemory Timer) :=
  let now := clock.read memory.reads
  (along (fun _ => memory.nextList) memory.earlier memory.created memory.next (now + msec.toInt * 1000)).map fun exp =>
    (if exp - now ≤ 0 then 0 else Int32.ofInt ((exp - now) / 1000), { memory with reads := memory.reads + 1 })

end TimerMemory

end TeenpattiUserServer.Net
