import TeenpattiUserServer.Net.StaleEvents

/-! `ProcessPollerEvents` over whole runs, calls in its callbacks included. -/

namespace TeenpattiUserServer.Net

open Bookkeeping Intrusive Relation Pollers

namespace Polling

variable {polling after : Polling} {event : EpollEvent} {slot : Nat} {poller : Option Nat} {rest : List EpollEvent}
  {ok : Bool}

/-- The events a run of the loop still has, the one of a callback included. -/
def pending : Control → List EpollEvent
  | .idle => []
  | .loop batch => batch
  | .calling _ event _ _ rest => event :: rest

/-- Each of these events carries an id that was registered. -/
def Registered (pollers : Pollers) (events : List EpollEvent) : Prop :=
  ∀ event ∈ events, ∃ born, pollers.Names event born

/-- Each callback was made on an object, and on the one its event's id was registered for. -/
def Heard (polling : Polling) : Prop :=
  ∀ callback ∈ polling.callbacks, ∃ object, callback.found = some object ∧
    polling.pollers.Names callback.event object.born

/-- While a callback runs, its object is there or nothing is. -/
def Aimed (polling : Polling) : Prop :=
  ∀ notification event slot poller rest, polling.control = .calling notification event slot poller rest →
    slot < polling.pollers.unit.maxPollers ∧ ∃ address born, poller = some address ∧
      polling.pollers.Names event born ∧ ∀ object, polling.pollers.objects address = some object → object.born = born

structure Steady (polling : Polling) : Prop where
  sound : polling.pollers.Sound
  batch : Registered polling.pollers (pending polling.control)
  right : polling.pollers.Unwrapped → polling.Heard ∧ polling.Aimed

theorem Registered.mono {pollers later : Pollers} {events : List EpollEvent} (registered : Registered pollers events)
    (more : pollers.registered ⊆ later.registered) : Registered later events := by
  intro event member
  obtain ⟨born, names⟩ := registered event member
  exact ⟨born, names.mono more⟩

theorem Heard.mono {pollers : Pollers} {control : Control} (heard : polling.Heard)
    (more : polling.pollers.registered ⊆ pollers.registered) : Heard ⟨pollers, control, polling.callbacks⟩ := by
  intro callback member
  obtain ⟨object, found, names⟩ := heard callback member
  exact ⟨object, found, names.mono more⟩

/-- A callback on the object the event is for. -/
private theorem notify_steady {notification : Notification} (sound : polling.pollers.Sound)
    (batch : Registered polling.pollers (event :: rest)) (heard : polling.pollers.Unwrapped → polling.Heard)
    (facing : polling.pollers.Unwrapped → polling.pollers.Facing event slot poller) :
    (polling.notify notification event slot poller rest).Steady := by
  refine ⟨sound, batch, fun unwrapped => ⟨?_, ?_⟩⟩
  · intro callback member
    rcases List.mem_cons.mp member with rfl | before
    · obtain ⟨address, object, rfl, found, names⟩ := (facing unwrapped).found
      exact ⟨object, found, names⟩
    · exact heard unwrapped callback before
  · intro notification' event' slot' poller' rest' same
    cases same
    obtain ⟨small, address, object, rfl, found, names⟩ := facing unwrapped
    refine ⟨small, address, object.born, rfl, names, ?_⟩
    intro other stored
    rw [show polling.pollers.objects address = some other from stored] at found
    cases found
    rfl

/-- `ApplyEvents` at the end of the body. -/
private theorem applied_steady (sound : polling.pollers.Sound) (batch : Registered polling.pollers rest)
    (heard : polling.pollers.Unwrapped → polling.Heard) (ran : polling.applied ok poller rest = some after) :
    after.Steady := by
  obtain ⟨address, rfl, applied⟩ := Option.bind_eq_some_iff.mp ran
  obtain ⟨result, changed, rfl⟩ := Option.map_eq_some_iff.mp applied
  have changes := applyEvents_changes changed
  have grows := grows_of_changes changes
  refine ⟨sound_of_changes changes sound, batch.mono grows.registered, fun unwrapped => ⟨?_, ?_⟩⟩
  · exact (heard (grows.unwrapped unwrapped)).mono grows.registered
  · intro _ _ _ _ _ same
    cases same

private theorem outputOrApply_steady (sound : polling.pollers.Sound)
    (batch : Registered polling.pollers (event :: rest)) (heard : polling.pollers.Unwrapped → polling.Heard)
    (facing : polling.pollers.Unwrapped → polling.pollers.Facing event slot poller)
    (ran : polling.outputOrApply ok event slot poller rest = some after) : after.Steady := by
  simp only [outputOrApply] at ran
  split at ran
  · cases ran
    exact notify_steady sound batch heard facing
  · exact applied_steady sound (fun later member => batch later (List.mem_cons_of_mem _ member)) heard ran

/-- `p->newEvents = p->oldEvents` is a change at the object's address. -/
private theorem resetEvents_changes (poller : Option Nat) (pollers : Pollers) :
    ∃ address, ReflTransGen (Change address) pollers (resetEvents poller pollers) := by
  cases poller with
  | none => exact ⟨0, .refl⟩
  | some address =>
    refine ⟨address, ?_⟩
    cases found : pollers.objects address with
    | none => simpa [resetEvents, found] using ReflTransGen.refl
    | some object =>
      simp only [resetEvents, found]
      exact .single (.edited found rfl id rfl)

private theorem resetEvents_facing {pollers : Pollers} (facing : pollers.Facing event slot poller) :
    (resetEvents poller pollers).Facing event slot poller := by
  obtain ⟨small, address, object, rfl, found, names⟩ := facing
  have reset : resetEvents (some address) pollers =
      pollers.setObject address (some { object with newEvents := object.oldEvents }) := by simp [resetEvents, found]
  rw [reset]
  exact ⟨small, address, { object with newEvents := object.oldEvents }, rfl, setObject_self, names⟩

private theorem nextEvent_steady (sound : polling.pollers.Sound) (batch : Registered polling.pollers (event :: rest))
    (heard : polling.pollers.Unwrapped → polling.Heard) (ran : polling.nextEvent ok event rest = some after) :
    after.Steady := by
  simp only [nextEvent] at ran
  split at ran
  · rename_i verified
    obtain ⟨address, changes⟩ :=
      resetEvents_changes (polling.pollers.unit.pollerTable (event.data % 2 ^ 32)).poller polling.pollers
    have grows := grows_of_changes changes
    have sound' := sound_of_changes changes sound
    have batch' := batch.mono grows.registered
    have heard' : (resetEvents (polling.pollers.unit.pollerTable (event.data % 2 ^ 32)).poller polling.pollers).Unwrapped →
        Heard ⟨_, polling.control, polling.callbacks⟩ :=
      fun unwrapped => (heard (grows.unwrapped unwrapped)).mono grows.registered
    have facing : (resetEvents (polling.pollers.unit.pollerTable (event.data % 2 ^ 32)).poller polling.pollers).Unwrapped →
        (resetEvents (polling.pollers.unit.pollerTable (event.data % 2 ^ 32)).poller polling.pollers).Facing event
          (event.data % 2 ^ 32) (polling.pollers.unit.pollerTable (event.data % 2 ^ 32)).poller := by
      intro unwrapped
      obtain ⟨born, names⟩ := batch event (List.mem_cons_self ..)
      exact resetEvents_facing (sound.facing (grows.unwrapped unwrapped) names verified)
    split at ran
    · cases ran
      exact notify_steady sound' batch' heard' facing
    · split at ran
      · cases ran
        exact notify_steady sound' batch' heard' facing
      · exact outputOrApply_steady sound' batch' heard' facing ran
  · cases ran
    refine ⟨sound, fun later member => batch later (List.mem_cons_of_mem _ member), fun unwrapped => ⟨heard unwrapped, ?_⟩⟩
    intro _ _ _ _ _ same
    cases same

private theorem returned_steady {notification : Notification} {code : Int} (steady : polling.Steady)
    (calling : polling.control = .calling notification event slot poller rest)
    (ran : polling.returned notification code ok event slot poller rest = some after) : after.Steady := by
  have batch : Registered polling.pollers (event :: rest) := by simpa [calling, pending] using steady.batch
  have heard := fun unwrapped => (steady.right unwrapped).1
  simp only [returned] at ran
  split at ran
  · cases ran
    refine ⟨steady.sound, fun later member => batch later (List.mem_cons_of_mem _ member), fun unwrapped => ⟨heard unwrapped, ?_⟩⟩
    intro _ _ _ _ _ same
    cases same
  · rename_i stays
    have same : (polling.pollers.unit.pollerTable slot).poller = poller := by
      by_contra moved
      exact stays (.inr (.inl moved))
    have facing : polling.pollers.Unwrapped → polling.pollers.Facing event slot poller := by
      intro unwrapped
      obtain ⟨small, address, born, rfl, names, only⟩ := (steady.right unwrapped).2 _ _ _ _ _ calling
      obtain ⟨object, stored⟩ := steady.sound.poller_live small same
      exact ⟨small, address, object, rfl, stored, (only object stored).symm ▸ names⟩
    split at ran
    · exact outputOrApply_steady steady.sound batch heard facing ran
    · exact applied_steady steady.sound (fun later member => batch later (List.mem_cons_of_mem _ member)) heard ran

private theorem call_steady {call : PollerCall} {pollers : Pollers} (steady : polling.Steady)
    (allowed : polling.Allowed (.call call)) (ran : call.run polling.pollers = some pollers) :
    Steady { polling with pollers } := by
  obtain ⟨sound, passes⟩ := steady.sound.run ran
  refine ⟨sound, steady.batch.mono passes.registered, fun unwrapped => ?_⟩
  obtain ⟨heard, aimed⟩ := steady.right fun slot => Nat.lt_of_le_of_lt (passes.turns slot) (unwrapped slot)
  refine ⟨heard.mono passes.registered, ?_⟩
  intro notification event slot poller rest calling
  obtain ⟨small, address, born, rfl, names, only⟩ := aimed notification event slot poller rest calling
  refine ⟨passes.maxPollers ▸ small, address, born, rfl, names.mono passes.registered, ?_⟩
  intro object stored
  have elsewhere : ∀ fd unit, call ≠ .construct address fd unit := by
    rintro fd unit rfl
    exact allowed (by rw [calling]; rfl)
  obtain ⟨earlier, found, same⟩ := passes.born elsewhere stored
  exact same ▸ only earlier found

private theorem fetched_registered {pollers : Pollers} {events : List EpollEvent}
    (fetches : fetched events pollers = true) :
    Registered pollers events := by
  intro event member
  obtain ⟨registration, known, same⟩ := List.any_eq_true.mp (List.all_eq_true.mp fetches event member)
  exact ⟨registration.object, registration, known, (of_decide_eq_true same).1, rfl⟩

private theorem unaimed {control : Control} (outside : ∀ notification event slot poller rest,
    control ≠ .calling notification event slot poller rest) {pollers : Pollers} {callbacks : List Callback} :
    Aimed ⟨pollers, control, callbacks⟩ :=
  fun notification event slot poller rest same => absurd same (outside notification event slot poller rest)

theorem step_steady {input : PollingStep} (steady : polling.Steady) (allowed : polling.Allowed input)
    (ran : step input polling = some after) : after.Steady := by
  cases input with
  | call call =>
    cases control : polling.control with
    | loop batch => simp [step, control] at ran
    | idle =>
      simp only [step, control] at ran
      obtain ⟨pollers, called, rfl⟩ := Option.map_eq_some_iff.mp ran
      exact control ▸ call_steady steady allowed called
    | calling notification event slot poller rest =>
      simp only [step, control] at ran
      obtain ⟨pollers, called, rfl⟩ := Option.map_eq_some_iff.mp ran
      exact control ▸ call_steady steady allowed called
  | wait events =>
    cases control : polling.control with
    | idle =>
      simp only [step, control] at ran
      split at ran
      · rename_i fetches
        cases ran
        exact ⟨steady.sound, fetched_registered fetches,
          fun unwrapped => ⟨(steady.right unwrapped).1, unaimed (by simp)⟩⟩
      · cases ran
    | loop batch => simp [step, control] at ran
    | calling notification event slot poller rest => simp [step, control] at ran
  | next ok =>
    cases control : polling.control with
    | idle => simp [step, control] at ran
    | loop batch =>
      cases batch with
      | nil =>
        simp only [step, control, Option.some.injEq] at ran
        subst ran
        exact ⟨steady.sound, by simp [Registered, pending],
          fun unwrapped => ⟨(steady.right unwrapped).1, unaimed (by simp)⟩⟩
      | cons event rest =>
        simp only [step, control] at ran
        exact nextEvent_steady steady.sound (by simpa [control, pending] using steady.batch)
          (fun unwrapped => (steady.right unwrapped).1) ran
    | calling notification event slot poller rest => simp [step, control] at ran
  | back code ok =>
    cases control : polling.control with
    | idle => simp [step, control] at ran
    | loop batch => simp [step, control] at ran
    | calling notification event slot poller rest =>
      simp only [step, control] at ran
      exact returned_steady steady control ran

/-- The slots from some slot to the last one are chained in their order. -/
private theorem initial_chain {maxPollers : Nat} (positive : 0 < maxPollers) (bounded : maxPollers < 2 ^ 31)
    (later start : Nat) (total : start + later + 1 = maxPollers) :
    Chain (PollerUnit.initializePollerUnit maxPollers positive bounded).nexts (some start)
      (List.range' start (later + 1)) none := by
  induction later generalizing start with
  | zero =>
    refine ⟨rfl, ?_⟩
    simp [PollerUnit.nexts, PollerUnit.initializePollerUnit, ← total]
  | succ later ih =>
    rw [List.range'_succ]
    refine ⟨rfl, ?_⟩
    have next : (PollerUnit.initializePollerUnit maxPollers positive bounded).nexts start = some (start + 1) :=
      if_pos (by omega)
    rw [next]
    exact ih (start + 1) (by omega)

theorem initial_steady (initial : polling.Initial) : polling.Steady := by
  obtain ⟨maxPollers, positive, bounded, rfl⟩ := initial
  refine ⟨⟨⟨List.range maxPollers, [], ?_, ?_, ?_, ?_, ?_, ?_⟩, ?_, ?_, ?_⟩, ?_, ?_⟩
  · have chain := initial_chain positive bounded (maxPollers - 1) 0 (by omega)
    rwa [Nat.sub_add_cancel positive, ← List.range_eq_range'] at chain
  · simp [PollerUnit.initializePollerUnit]
  · rfl
  · simp [PollerUnit.initializePollerUnit]
  · simp
  · simp
  · simp [PollerUnit.initializePollerUnit, turnsOf]
  · simp [holder]
  · simp
  · simp [Registered, pending]
  · exact fun _ => ⟨by simp [Heard], unaimed (by simp)⟩

end Polling

/-- The free list and the slots of attached objects make up the table, each slot is of
one object, and `usedPollers` counts them. -/
structure Pollers.Partition (pollers : Pollers) (free used : List Nat) : Prop where
  free_list : Chain pollers.unit.nexts pollers.unit.freeSlotList free none
  used_slots : ∀ slot, slot ∈ used ↔ ∃ address, pollers.Owns address slot
  parts : (free ++ used).Perm (List.range pollers.unit.maxPollers)
  unshared : ∀ address other slot, pollers.Owns address slot → pollers.Owns other slot → address = other
  count : pollers.unit.usedPollers = used.length

theorem Pollers.Parts.partition {pollers : Pollers} {free used : List Nat} (parts : pollers.Parts free used) :
    pollers.Partition free used where
  free_list := parts.chain
  parts := parts.parts
  count := parts.count
  unshared _ _ _ := parts.unique
  used_slots slot := by
    constructor
    · intro member
      obtain ⟨address, _, owns⟩ := parts.owned slot member
      exact ⟨address, owns⟩
    · rintro ⟨address, object, found, owns⟩
      exact (parts.owner found owns).1

namespace Polling

/-- In every run: the table is parted into free and owned slots, and as long as no
sequence number wraps, each callback is made on an object, which is the one, and the
only one, that its event's id was registered for. -/
theorem events_reach_their_objects {polling : Polling} (reached : Reached Initial step Allowed polling) :
    (∃ free used, polling.pollers.Partition free used) ∧
      ((∀ slot, turnsOf slot polling.pollers.turns < 2 ^ 32) → ∀ callback ∈ polling.callbacks,
        ∃ object, callback.found = some object ∧
          (∃ registration ∈ polling.pollers.registered, registration.id = callback.event.data) ∧
          ∀ registration ∈ polling.pollers.registered, registration.id = callback.event.data →
            registration.object = object.born) := by
  have steady : polling.Steady := reached.invariant (fun _ => initial_steady) step_steady
  constructor
  · obtain ⟨free, used, parts⟩ := steady.sound.parts
    exact ⟨free, used, parts.partition⟩
  · intro unwrapped callback member
    obtain ⟨object, found, names⟩ := (steady.right unwrapped).1 callback member
    refine ⟨object, found, ?_, ?_⟩
    · obtain ⟨registration, known, same, _⟩ := names
      exact ⟨registration, known, same⟩
    · intro registration known same
      exact steady.sound.names_unique unwrapped ⟨registration, known, same, rfl⟩ names

/-- The events of two objects, whose slots were each registered once. -/
def first : EpollEvent := ⟨epollIn, eventId 1 0⟩
def second : EpollEvent := ⟨epollIn, eventId 1 1⟩

def checked (input : PollingStep) (polling : Polling) : Option Polling :=
  if Allowed polling input then step input polling else none

def started : Polling :=
  ⟨⟨.initializePollerUnit 2 (by decide) (by decide), fun _ => none, 0, [], []⟩, .idle, []⟩

/-- Two objects are made and attached. -/
def setup : Option Polling :=
  run checked [.call (.construct 1 5 true), .call (.interest 1 epollIn), .call (.attachPoller true true 1),
    .call (.construct 2 6 true), .call (.interest 2 epollIn), .call (.attachPoller true true 2)] started

def fetching : Option Polling := setup.bind (step (.wait [second, first]))

/-- The callback of the second object destroys the first, and attaches a third. -/
def parking : Option Polling :=
  fetching.bind (run checked [.next true, .call (.destroy 1), .call (.construct 4 7 true),
    .call (.attachPoller true true 4)])

private theorem turns_parking {polling : Polling} (ran : parking = some polling) :
    polling.pollers.turns = [⟨0, some 2⟩, ⟨0, none⟩, ⟨1, some 1⟩, ⟨0, some 0⟩] := by
  have handed : parking.map (fun polling => polling.pollers.turns) =
    some [⟨0, some 2⟩, ⟨0, none⟩, ⟨1, some 1⟩, ⟨0, some 0⟩] := by decide +kernel
  rw [ran] at handed
  exact Option.some.inj handed

/-- In the callback of the second object, of which the first and a third are the others. -/
theorem events_reach_their_objects_parking : ∃ polling, parking = some polling ∧ polling.callbacks ≠ [] ∧
    (∃ free used, polling.pollers.Partition free used) ∧ ∀ callback ∈ polling.callbacks,
      ∃ object, callback.found = some object ∧
        (∃ registration ∈ polling.pollers.registered, registration.id = callback.event.data) ∧
        ∀ registration ∈ polling.pollers.registered, registration.id = callback.event.data →
          registration.object = object.born := by
  obtain ⟨polling, parked⟩ : ∃ polling, parking = some polling := Option.isSome_iff_exists.mp (by decide +kernel)
  have called : parking.map (fun polling => polling.callbacks.length) = some 1 := by decide +kernel
  obtain ⟨fetching, fetched, ran⟩ := Option.bind_eq_some_iff.mp parked
  obtain ⟨waiting, ready, waits⟩ := Option.bind_eq_some_iff.mp fetched
  have before : Reached Initial step Allowed waiting := Reached.run (.start ⟨2, by decide, by decide, rfl⟩) ready
  have permitted : Allowed waiting (.wait [second, first]) := trivial
  have reached : Reached Initial step Allowed polling := (before.step permitted waits).run ran
  obtain ⟨parts, right⟩ := events_reach_their_objects reached
  refine ⟨polling, parked, ?_, parts, right fun slot => ?_⟩
  · rintro empty
    rw [parked, Option.map_some, empty] at called
    cases called
  · rw [turns_parking parked]
    simp only [turnsOf]
    split_ifs <;> omega

/-- How often a slot was registered, or an attempt was made. -/
def registrationsOf (slot : Nat) (turns : List (Turn Nat Nat)) : Nat :=
  turns.countP fun turn => turn.slot = slot ∧ turn.owner.isSome

namespace Rounds

variable {pollers : Pollers} {address slot : Nat} {object : PollerObject}

/-- What attaching an object without a slot does to the objects and the table. -/
private structure Attached (pollers : Pollers) (address slot : Nat) (object : PollerObject)
    (after : Pollers) : Prop where
  objects : after.objects =
    Function.update pollers.objects address (some { object with epslot := some slot, oldEvents := object.newEvents })
  seq : (after.unit.pollerTable slot).seq = ((pollers.unit.pollerTable slot).seq + 1) % 2 ^ 32
  poller : (after.unit.pollerTable slot).poller = some address
  others : ∀ other, other ≠ slot → after.unit.pollerTable other = pollers.unit.pollerTable other
  maxPollers : after.unit.maxPollers = pollers.unit.maxPollers
  turns : after.turns = ⟨slot, some object.born⟩ :: pollers.turns

private theorem attachPoller_idle (found : pollers.objects address = some object) (unit : object.ownerUnit = true)
    (idle : object.epslot = none) (open' : 0 ≤ object.netfd) (head : pollers.unit.freeSlotList = some slot) :
    ∃ after, pollers.attachPoller true true address = some (0, after) ∧ Attached pollers address slot object after := by
  have same : { object with ownerUnit := object.ownerUnit || true } = object := by simp [← unit]
  have positive : ¬ object.netfd < 0 := by omega
  obtain ⟨taken, middle, took⟩ : ∃ taken middle,
      (pollers.setObject address (some object)).takeSlot address object = some (slot, taken, middle) := by
    have head' : (pollers.setObject address (some object)).unit.freeSlotList = some slot := head
    simp [takeSlot, PollerUnit.allocEpollSlot, head']
  refine ⟨(middle.register true address slot taken).2, ?_, ?_⟩
  · have entered : pollers.attachPoller true true address =
        (pollers.setObject address (some object)).attachOwned true address object := by
      simp only [attachPoller, found]
      rw [same]
    rw [entered]
    simp only [attachOwned, if_neg positive, idle, unit, if_true, took]
    rfl
  · obtain ⟨_, rfl, rfl⟩ := takeSlot_eq took
    refine ⟨?_, ?_, ?_, ?_, rfl, rfl⟩
    · simp [register, arm, setObject, Function.update_idem]
    · simp [register, arm, setObject, PollerUnit.bump_seq_self]
    · simp [register, arm, setObject]
    · intro other different
      simp [register, arm, setObject, PollerUnit.bump, PollerUnit.setSlot, Function.update_of_ne different]

/-- The callback of the second object, after the first was destroyed in it and another
was attached in its slot, and then detached and attached again some times. -/
private structure Parked (rounds : Nat) (polling : Polling) : Prop where
  control : polling.control = .calling .input second 1 (some 2) [first]
  maxPollers : polling.pollers.unit.maxPollers = 2
  seq : (polling.pollers.unit.pollerTable 0).seq = (2 * rounds + 3) % 2 ^ 32
  poller : (polling.pollers.unit.pollerTable 0).poller = some 4
  other : (polling.pollers.unit.pollerTable 1).poller = some 2
  callee : polling.pollers.objects 2 = some ⟨6, true, 1, 1, some 1, 1⟩
  object : polling.pollers.objects 4 = some ⟨7, true, 0, 0, some 0, 2⟩
  registrations : ∀ slot, registrationsOf slot polling.pollers.turns ≤ rounds + 2

private theorem registrationsOf_back (slot other : Nat) (turns : List (Turn Nat Nat)) :
    registrationsOf slot (⟨other, none⟩ :: turns) = registrationsOf slot turns := by
  simp [registrationsOf]

private theorem registrationsOf_cons (slot : Nat) (turn : Turn Nat Nat) (turns : List (Turn Nat Nat)) :
    registrationsOf slot (turn :: turns) ≤ registrationsOf slot turns + 1 := by
  rw [registrationsOf, List.countP_cons, registrationsOf]
  split <;> omega

variable {start : Polling → Prop} {polling : Polling} {rounds : Nat}

/-- `DetachPoller` and `AttachPoller` add two to the sequence number. -/
private theorem Parked.round (parked : Parked rounds polling) (reached : Reached start step Allowed polling) :
    ∃ after, Reached start step Allowed after ∧ Parked (rounds + 1) after := by
  let idle : PollerObject := ⟨7, true, 0, 0, none, 2⟩
  let middle : Pollers := (polling.pollers.release 0).setObject 4 (some idle)
  have detaches : polling.pollers.detachPoller true 4 = some (0, middle) := by
    simp only [detachPoller, parked.object]
    rfl
  obtain ⟨after, attaches, attached⟩ :=
    attachPoller_idle (show middle.objects 4 = some idle from setObject_self) rfl rfl (by decide) rfl
  have first' : step (.call (.detachPoller true 4)) polling = some { polling with pollers := middle } := by
    simp only [step, parked.control, PollerCall.run, detaches]
    rfl
  have second' : step (.call (.attachPoller true true 4)) { polling with pollers := middle } =
      some { polling with pollers := after } := by
    simp only [step, parked.control, PollerCall.run, attaches]
    rfl
  have between := reached.step (show Allowed polling (.call (.detachPoller true 4)) from trivial) first'
  refine ⟨_, between.step (show Allowed _ (.call (.attachPoller true true 4)) from trivial) second', ?_⟩
  refine ⟨parked.control, attached.maxPollers.trans parked.maxPollers, ?_, attached.poller, ?_, ?_, ?_, ?_⟩
  · have freed : (middle.unit.pollerTable 0).seq = ((polling.pollers.unit.pollerTable 0).seq + 1) % 2 ^ 32 :=
      PollerUnit.freeEpollSlot_seq_self
    rw [attached.seq, freed, parked.seq]
    omega
  · rw [attached.others 1 (by decide)]
    exact (PollerUnit.freeEpollSlot_poller_ne (by decide)).trans parked.other
  · have kept : middle.objects 2 = polling.pollers.objects 2 := setObject_ne (by decide)
    rw [attached.objects, Function.update_of_ne (by decide), kept]
    exact parked.callee
  · rw [attached.objects, Function.update_self]
  · intro slot
    rw [attached.turns]
    have before := parked.registrations slot
    have more := registrationsOf_cons slot ⟨0, some idle.born⟩ middle.turns
    have same : registrationsOf slot middle.turns = registrationsOf slot polling.pollers.turns :=
      registrationsOf_back slot 0 _
    omega

private theorem Parked.repeated (parked : Parked 0 polling)
    (reached : Reached start step Allowed polling) (rounds : Nat) :
    ∃ after, Reached start step Allowed after ∧ Parked rounds after := by
  induction rounds with
  | zero => exact ⟨polling, reached, parked⟩
  | succ rounds ih =>
    obtain ⟨after, further, held⟩ := ih
    exact held.round further

/-- After `2 ^ 31 - 1` rounds the number has come back to one, and the next event passes. -/
private theorem Parked.misled (parked : Parked (2 ^ 31 - 1) polling) (reached : Reached start step Allowed polling) :
    ∃ after, Reached start step Allowed after ∧ after.pollers.turns = polling.pollers.turns ∧
      ∃ object, ⟨.input, first, some object⟩ ∈ after.callbacks ∧ object.born = 2 := by
  let looping : Polling := { polling with control := .loop [first] }
  let object : PollerObject := ⟨7, true, 0, 0, some 0, 2⟩
  have applies : polling.pollers.applyEvents true 2 = some (0, polling.pollers) := by
    simp [applyEvents, parked.callee]
  have back : step (.back 0 true) polling = some looping := by
    have input : ¬ second.events &&& epollOut ≠ 0 := by decide
    simp [step, parked.control, returned, parked.other, outputOrApply, if_neg input, applied, applies, looping]
  have verified : polling.pollers.unit.verifyEvents first.data = true := by
    have seq : (polling.pollers.unit.pollerTable 0).seq = 1 := parked.seq
    have slot : first.data % 2 ^ 32 = 0 := by decide
    have shown : first.data / 2 ^ 32 = 1 := by decide
    rw [PollerUnit.verifyEvents, slot, shown, seq, parked.maxPollers]
    rfl
  have next : step (.next true) looping = some
      (notify .input first 0 (some 4) [] { looping with pollers := polling.pollers.setObject 4 (some object) }) := by
    have slot : first.data % 2 ^ 32 = 0 := by decide
    have quiet : ¬ first.events &&& epollHupErr ≠ 0 := by decide
    have input : first.events &&& epollIn ≠ 0 := by decide
    have reset : resetEvents (some 4) polling.pollers = polling.pollers.setObject 4 (some object) := by
      simp [resetEvents, parked.object, object]
    simp only [step, looping, nextEvent, verified, if_true, slot, parked.poller, reset, if_neg quiet, if_pos input]
  have between := reached.step (show Allowed polling (.back 0 true) from trivial) back
  refine ⟨_, between.step (show Allowed looping (.next true) from trivial) next, rfl, object, ?_, rfl⟩
  simp [notify]

end Rounds

private theorem registered_setup :
    setup.map (fun polling => polling.pollers.registered) = some [⟨6, eventId 1 1, 1⟩, ⟨5, eventId 1 0, 0⟩] := by
  decide +kernel

private theorem parked_parking {polling : Polling} (ran : parking = some polling) : Rounds.Parked 0 polling := by
  have unit : parking.map (fun polling => (polling.control, polling.pollers.unit.maxPollers,
      polling.pollers.unit.pollerTable 0 |>.seq)) =
    some (.calling .input second 1 (some 2) [first], 2, 3) := by decide +kernel
  have slots : parking.map (fun polling => ((polling.pollers.unit.pollerTable 0).poller,
      (polling.pollers.unit.pollerTable 1).poller)) = some (some 4, some 2) := by decide +kernel
  have objects : parking.map (fun polling => (polling.pollers.objects 2, polling.pollers.objects 4)) =
    some (some ⟨6, true, 1, 1, some 1, 1⟩, some ⟨7, true, 0, 0, some 0, 2⟩) := by decide +kernel
  simp only [ran, Option.map_some, Option.some.injEq, Prod.mk.injEq] at unit slots objects
  obtain ⟨control, maxPollers, seq⟩ := unit
  obtain ⟨poller, other⟩ := slots
  obtain ⟨callee, object⟩ := objects
  refine ⟨control, maxPollers, seq, poller, other, callee, object, ?_⟩
  intro slot
  rw [turns_parking ran]
  by_cases zero : slot = 0
  · subst zero
    decide
  · by_cases one : slot = 1
    · subst one
      decide
    · simp [registrationsOf, Ne.symm zero, Ne.symm one]

/-- Counting registrations is not enough: a slot that is registered fewer than `2 ^ 32`
times may show an old number again, since each `DetachPoller` counts it up as well. The
event was fetched when its id was registered for another object only. -/
theorem stale_event_reaches_another : ∃ waiting fetching polling : Polling, ∃ events,
    Reached Initial step Allowed waiting ∧ step (.wait events) waiting = some fetching ∧
      Reached (· = fetching) step Allowed polling ∧
      (∀ slot, registrationsOf slot polling.pollers.turns < 2 ^ 32) ∧
      ∃ callback ∈ polling.callbacks, callback.event ∈ events ∧ ∃ object, callback.found = some object ∧
        ∀ registration ∈ waiting.pollers.registered, registration.id = callback.event.data →
          registration.object ≠ object.born := by
  obtain ⟨polling, parked⟩ : ∃ polling, parking = some polling := Option.isSome_iff_exists.mp (by decide +kernel)
  obtain ⟨fetching, fetched, ran⟩ := Option.bind_eq_some_iff.mp parked
  obtain ⟨waiting, ready, waits⟩ := Option.bind_eq_some_iff.mp fetched
  have reached : Reached Initial step Allowed waiting :=
    Reached.run (.start ⟨2, by decide, by decide, rfl⟩) ready
  have registered := registered_setup
  rw [ready] at registered
  have begins : Reached (· = fetching) step Allowed polling := Reached.run (.start rfl) ran
  obtain ⟨wrapped, further, held⟩ := (parked_parking parked).repeated begins (2 ^ 31 - 1)
  obtain ⟨after, last, turns, object, called, born⟩ := held.misled further
  refine ⟨waiting, fetching, after, _, reached, waits, last, ?_, _, called, by simp, object, rfl, ?_⟩
  · intro slot
    rw [turns]
    exact Nat.lt_of_le_of_lt (held.registrations slot) (by decide)
  · intro registration member same
    rw [show waiting.pollers.registered = _ from Option.some.inj registered] at member
    rw [born]
    rcases List.mem_cons.mp member with rfl | member
    · decide
    · obtain rfl := List.mem_singleton.mp member
      decide

end Polling

end TeenpattiUserServer.Net
