import Mathlib.Algebra.Ring.Nat
import Mathlib.Logic.Function.Basic
import TeenpattiUserServer.Bookkeeping.Runs
import TeenpattiUserServer.Bookkeeping.Turns

/-! `CPollerUnit` and the `CPollerObject`s of the process, which all belong to its one
unit. Slots are indices of `pollerTable`, objects are found by their addresses, and
what `epoll_ctl` answers is a parameter of each call. -/

namespace TeenpattiUserServer.Net

open Bookkeeping

/-- `seq` is a `uint32_t`. -/
structure EpollSlot where
  seq : Nat
  poller : Option Nat
  freeList : Option Nat

structure PollerUnit where
  maxPollers : Nat
  usedPollers : Int
  freeSlotList : Option Nat
  pollerTable : Nat → EpollSlot
  positive : 0 < maxPollers
  bounded : maxPollers < 2 ^ 31

/-- `ownerUnit` tells whether it is set. `born` is not a member: an address is used
again for other objects, and `born` tells these apart. -/
structure PollerObject where
  netfd : Int
  ownerUnit : Bool
  newEvents : Nat
  oldEvents : Nat
  epslot : Option Nat
  born : Nat
deriving DecidableEq

/-- `EPOLLIN`, `EPOLLOUT`, and `EPOLLHUP | EPOLLERR` -/
def epollIn : Nat := 1
def epollOut : Nat := 4
def epollHupErr : Nat := 0x10 ||| 0x8

/-- `(seq << 32) + slot`, with which a slot is registered. -/
def eventId (seq slot : Nat) : Nat := seq * 2 ^ 32 + slot

namespace PollerUnit

/-- `InitializePollerUnit`: the free slots are chained in their order. -/
def initializePollerUnit (maxPollers : Nat) (positive : 0 < maxPollers)
    (bounded : maxPollers < 2 ^ 31) : PollerUnit where
  maxPollers
  usedPollers := 0
  freeSlotList := some 0
  pollerTable slot := ⟨0, none, if slot + 1 < maxPollers then some (slot + 1) else none⟩
  positive
  bounded

def setSlot (slot : Nat) (content : EpollSlot) (unit : PollerUnit) : PollerUnit :=
  { unit with pollerTable := Function.update unit.pollerTable slot content }

/-- `seq + 1` as a `uint32_t`. -/
def bump (slot : Nat) (unit : PollerUnit) : PollerUnit :=
  unit.setSlot slot { unit.pollerTable slot with seq := ((unit.pollerTable slot).seq + 1) % 2 ^ 32 }

def freeEpollSlot (slot : Nat) (unit : PollerUnit) : PollerUnit :=
  let freed := unit.setSlot slot { unit.pollerTable slot with freeList := unit.freeSlotList, poller := none }
  { freed with freeSlotList := some slot, usedPollers := unit.usedPollers - 1 }.bump slot

def allocEpollSlot (unit : PollerUnit) : Option (Nat × PollerUnit) :=
  match unit.freeSlotList with
  | none => none
  | some slot =>
    let head := { unit with
      usedPollers := unit.usedPollers + 1
      freeSlotList := (unit.pollerTable slot).freeList }
    some (slot, head.setSlot slot { unit.pollerTable slot with freeList := none })

/-- `VerifyEvents` -/
def verifyEvents (data : Nat) (unit : PollerUnit) : Bool :=
  data % 2 ^ 32 < unit.maxPollers ∧ data / 2 ^ 32 = (unit.pollerTable (data % 2 ^ 32)).seq

end PollerUnit

/-- A call of `epoll_ctl` with `EPOLL_CTL_ADD` or `EPOLL_CTL_MOD` that succeeded. -/
structure Registration where
  netfd : Int
  id : Nat
  object : Nat
deriving DecidableEq

/-- The unit and the objects in memory. The other fields keep account: `births` of
the objects made, `turns` of each slot's changes of hands, and `registered` of the
successful registrations, the latest first. -/
structure Pollers where
  unit : PollerUnit
  objects : Nat → Option PollerObject
  births : Nat
  turns : List (Turn Nat Nat)
  registered : List Registration

namespace Pollers

def setObject (address : Nat) (object : Option PollerObject) (pollers : Pollers) : Pollers :=
  { pollers with objects := Function.update pollers.objects address object }

/-- `new`, which takes an address that is not in use. -/
def construct (address : Nat) (fd : Int) (unit : Bool) (pollers : Pollers) : Option Pollers :=
  match pollers.objects address with
  | some _ => none
  | none =>
    some { pollers.setObject address (some ⟨fd, unit, 0, 0, none, pollers.births⟩) with births := pollers.births + 1 }

/-- `EnableInput`, `DisableInput` and their likes change `newEvents`. -/
def interest (address : Nat) (events : Nat) (pollers : Pollers) : Option Pollers :=
  (pollers.objects address).map fun object => pollers.setObject address (some { object with newEvents := events })

/-- `Reset` and `Connect` of a handler change its descriptor. -/
def reopen (address : Nat) (fd : Int) (pollers : Pollers) : Option Pollers :=
  (pollers.objects address).map fun object => pollers.setObject address (some { object with netfd := fd })

/-- `++epslot->seq` -/
def arm (slot : Nat) (object : PollerObject) (pollers : Pollers) : Pollers :=
  { pollers with unit := pollers.unit.bump slot, turns := ⟨slot, some object.born⟩ :: pollers.turns }

/-- The registration of a slot: `AttachPoller` adds it, `ApplyEvents` modifies it. -/
def register (ok : Bool) (address slot : Nat) (object : PollerObject) (pollers : Pollers) : Int × Pollers :=
  let armed := pollers.arm slot object
  if ok then
    (0, { armed.setObject address (some { object with oldEvents := object.newEvents }) with
      registered :=
        ⟨object.netfd, eventId (armed.unit.pollerTable slot).seq slot, object.born⟩ :: pollers.registered })
  else (-1, armed)

/-- Calls on an address without an object are undefined. -/
def applyEvents (ok : Bool) (address : Nat) (pollers : Pollers) : Option (Int × Pollers) :=
  match pollers.objects address with
  | none => none
  | some object =>
    match object.epslot with
    | none => some (0, pollers)
    | some slot =>
      if object.oldEvents = object.newEvents then some (0, pollers)
      else some (pollers.register ok address slot object)

/-- The slot an object gets from `AllocEpollSlot`, `poller` set. -/
def takeSlot (address : Nat) (object : PollerObject) (pollers : Pollers) : Option (Nat × PollerObject × Pollers) :=
  match pollers.unit.allocEpollSlot with
  | none => none
  | some (slot, unit) =>
    let taken := { object with epslot := some slot }
    some (slot, taken, { pollers with
      unit := unit.setSlot slot { unit.pollerTable slot with poller := some address } }.setObject address (some taken))

/-- `AttachPoller` once it has settled `ownerUnit`. Without a unit it is undefined. -/
def attachOwned (ok : Bool) (address : Nat) (object : PollerObject) (pollers : Pollers) : Option (Int × Pollers) :=
  if object.netfd < 0 then some (-1, pollers)
  else
    match object.epslot with
    | some _ => pollers.applyEvents ok address
    | none =>
      if object.ownerUnit then
        match pollers.takeSlot address object with
        | none => some (-1, pollers)
        | some (slot, taken, pollers) => some (pollers.register ok address slot taken)
      else none

/-- `unit` tells whether the argument is given. There is no other unit, so that the
branch for an object of another one is never taken. -/
def attachPoller (unit ok : Bool) (address : Nat) (pollers : Pollers) : Option (Int × Pollers) :=
  match pollers.objects address with
  | none => none
  | some before =>
    let object := { before with ownerUnit := before.ownerUnit || unit }
    (pollers.setObject address (some object)).attachOwned ok address object

/-- `FreeEpollSlot` -/
def release (slot : Nat) (pollers : Pollers) : Pollers :=
  { pollers with unit := pollers.unit.freeEpollSlot slot, turns := ⟨slot, none⟩ :: pollers.turns }

def detachPoller (ok : Bool) (address : Nat) (pollers : Pollers) : Option (Int × Pollers) :=
  match pollers.objects address with
  | none => none
  | some object =>
    match object.epslot with
    | none => some (0, pollers)
    | some slot =>
      if ok then
        some (0, (pollers.release slot).setObject address
          (some { object with oldEvents := object.newEvents, epslot := none }))
      else some (-1, pollers)

/-- `~CPollerObject` -/
def destroy (address : Nat) (pollers : Pollers) : Option Pollers :=
  match pollers.objects address with
  | none => none
  | some object =>
    match object.ownerUnit, object.epslot with
    | true, some slot => some ((pollers.release slot).setObject address none)
    | _, _ => some (pollers.setObject address none)

end Pollers

/-- What callbacks, and the code around `ProcessPollerEvents`, do with the objects. -/
inductive PollerCall
  | construct (address : Nat) (fd : Int) (unit : Bool)
  | interest (address events : Nat)
  | reopen (address : Nat) (fd : Int)
  | attachPoller (unit ok : Bool) (address : Nat)
  | applyEvents (ok : Bool) (address : Nat)
  | detachPoller (ok : Bool) (address : Nat)
  | destroy (address : Nat)

def PollerCall.run : PollerCall → Pollers → Option Pollers
  | .construct address fd unit, pollers => pollers.construct address fd unit
  | .interest address events, pollers => pollers.interest address events
  | .reopen address fd, pollers => pollers.reopen address fd
  | .attachPoller unit ok address, pollers => (pollers.attachPoller unit ok address).map Prod.snd
  | .applyEvents ok address, pollers => (pollers.applyEvents ok address).map Prod.snd
  | .detachPoller ok address, pollers => (pollers.detachPoller ok address).map Prod.snd
  | .destroy address, pollers => pollers.destroy address

/-- `struct epoll_event`, `data.u64` being the id. -/
structure EpollEvent where
  events : Nat
  data : Nat
deriving DecidableEq

inductive Notification
  | input
  | output
  | hangup
deriving DecidableEq

/-- Where `ProcessPollerEvents` stands: outside, at the head of its loop with the
events that are left, or in a callback on what the slot's `poller` was. -/
inductive Control
  | idle
  | loop (batch : List EpollEvent)
  | calling (notification : Notification) (event : EpollEvent) (slot : Nat) (poller : Option Nat)
    (rest : List EpollEvent)
deriving DecidableEq

/-- The object of the callback that is running. -/
def Control.callee : Control → Option Nat
  | .calling _ _ _ poller _ => poller
  | _ => none

/-- A callback that was made, with the object that was then at the address. -/
structure Callback where
  notification : Notification
  event : EpollEvent
  found : Option PollerObject

structure Polling where
  pollers : Pollers
  control : Control
  callbacks : List Callback

/-- `wait` is `WaitPollerEvents` and the call of `ProcessPollerEvents`; `next` takes the
next event, and `back` returns from a callback. -/
inductive PollingStep
  | call (call : PollerCall)
  | wait (events : List EpollEvent)
  | next (ok : Bool)
  | back (code : Int) (ok : Bool)

namespace Polling

/-- Each event carries the id that was registered last for its descriptor. -/
def fetched (events : List EpollEvent) (pollers : Pollers) : Bool :=
  events.all fun event => pollers.registered.any fun registration =>
    registration.id = event.data ∧
      pollers.registered.find? (fun other => other.netfd = registration.netfd) = some registration

def notify (notification : Notification) (event : EpollEvent) (slot : Nat) (poller : Option Nat)
    (rest : List EpollEvent) (polling : Polling) : Polling where
  pollers := polling.pollers
  control := .calling notification event slot poller rest
  callbacks := ⟨notification, event, poller.bind polling.pollers.objects⟩ :: polling.callbacks

/-- The end of the loop's body: `p->ApplyEvents ()`. -/
def applied (ok : Bool) (poller : Option Nat) (rest : List EpollEvent) (polling : Polling) : Option Polling :=
  poller.bind fun address => (polling.pollers.applyEvents ok address).map fun result =>
    { polling with pollers := result.2, control := .loop rest }

/-- From the test for `EPOLLOUT` on. -/
def outputOrApply (ok : Bool) (event : EpollEvent) (slot : Nat) (poller : Option Nat) (rest : List EpollEvent)
    (polling : Polling) : Option Polling :=
  if event.events &&& epollOut ≠ 0 then some (polling.notify .output event slot poller rest)
  else polling.applied ok poller rest

/-- `p->newEvents = p->oldEvents` -/
def resetEvents (poller : Option Nat) (pollers : Pollers) : Pollers :=
  match poller with
  | none => pollers
  | some address =>
    match pollers.objects address with
    | none => pollers
    | some object => pollers.setObject address (some { object with newEvents := object.oldEvents })

/-- The body of the loop up to the first callback. -/
def nextEvent (ok : Bool) (event : EpollEvent) (rest : List EpollEvent) (polling : Polling) : Option Polling :=
  if polling.pollers.unit.verifyEvents event.data then
    let slot := event.data % 2 ^ 32
    let poller := (polling.pollers.unit.pollerTable slot).poller
    let polling := { polling with pollers := resetEvents poller polling.pollers }
    if event.events &&& epollHupErr ≠ 0 then some (polling.notify .hangup event slot poller rest)
    else if event.events &&& epollIn ≠ 0 then some (polling.notify .input event slot poller rest)
    else polling.outputOrApply ok event slot poller rest
  else some { polling with control := .loop rest }

/-- What follows a callback: nothing when the slot changed hands or the code is not
`POLLER_SUCC`. -/
def returned (notification : Notification) (code : Int) (ok : Bool) (event : EpollEvent) (slot : Nat)
    (poller : Option Nat) (rest : List EpollEvent) (polling : Polling) : Option Polling :=
  if notification = .hangup ∨ (polling.pollers.unit.pollerTable slot).poller ≠ poller ∨ code ≠ 0 then
    some { polling with control := .loop rest }
  else if notification = .input then polling.outputOrApply ok event slot poller rest
  else polling.applied ok poller rest

def step (input : PollingStep) (polling : Polling) : Option Polling :=
  match input, polling.control with
  | .call _, .loop _ => none
  | .call call, _ => (call.run polling.pollers).map fun pollers => { polling with pollers }
  | .wait events, .idle =>
    if fetched events polling.pollers then some { polling with control := .loop events } else none
  | .next _, .loop [] => some { polling with control := .idle }
  | .next ok, .loop (event :: rest) => polling.nextEvent ok event rest
  | .back code ok, .calling notification event slot poller rest =>
    polling.returned notification code ok event slot poller rest
  | _, _ => none

/-- No callback makes an object at the address of the one it is called on. -/
def Allowed (polling : Polling) : PollingStep → Prop
  | .call (.construct address _ _) => polling.control.callee ≠ some address
  | _ => True

instance : DecidableRel Allowed
  | polling, .call (.construct address _ _) => inferInstanceAs (Decidable (polling.control.callee ≠ some address))
  | _, .call (.interest ..) => .isTrue trivial
  | _, .call (.reopen ..) => .isTrue trivial
  | _, .call (.attachPoller ..) => .isTrue trivial
  | _, .call (.applyEvents ..) => .isTrue trivial
  | _, .call (.detachPoller ..) => .isTrue trivial
  | _, .call (.destroy ..) => .isTrue trivial
  | _, .wait _ => .isTrue trivial
  | _, .next _ => .isTrue trivial
  | _, .back .. => .isTrue trivial

/-- An initialised unit, and no object yet. -/
def Initial (polling : Polling) : Prop :=
  ∃ maxPollers positive bounded, polling =
    ⟨⟨.initializePollerUnit maxPollers positive bounded, fun _ => none, 0, [], []⟩, .idle, []⟩

end Polling

end TeenpattiUserServer.Net
