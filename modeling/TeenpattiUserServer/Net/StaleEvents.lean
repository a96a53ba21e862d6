import Mathlib.Logic.Relation
import TeenpattiUserServer.Net.PollerSlots

/-! An event that was fetched before its slot changed hands does not reach the next
object in the slot, while no sequence number has wrapped. -/

namespace TeenpattiUserServer.Net

open Bookkeeping Intrusive Relation

namespace Pollers

/-- The single changes that the calls on the object at an address are made of. -/
inductive Change (address : Nat) : Pollers → Pollers → Prop
  | edited {pollers : Pollers} {before after : PollerObject} (found : pollers.objects address = some before)
      (slots : after.epslot = before.epslot) (unit : before.ownerUnit = true → after.ownerUnit = true)
      (born : after.born = before.born) : Change address pollers (pollers.setObject address (some after))
  | taken {pollers : Pollers} {object : PollerObject} {slot : Nat} {taken : PollerObject} {result : Pollers}
      (found : pollers.objects address = some object) (idle : object.epslot = none)
      (unit : object.ownerUnit = true) (took : pollers.takeSlot address object = some (slot, taken, result)) :
      Change address pollers result
  | registered {pollers : Pollers} {object : PollerObject} {slot : Nat}
      (found : pollers.objects address = some object) (owns : object.epslot = some slot) (ok : Bool) :
      Change address pollers (pollers.register ok address slot object).2
  | released {pollers : Pollers} {object : PollerObject} {slot : Nat} {replaced : Option PollerObject}
      (found : pollers.objects address = some object) (owns : object.epslot = some slot)
      (stays : ∀ after, replaced = some after → after.epslot = none ∧ after.born = object.born) :
      Change address pollers ((pollers.release slot).setObject address replaced)
  | dropped {pollers : Pollers} {object : PollerObject} (found : pollers.objects address = some object)
      (idle : object.epslot = none) : Change address pollers (pollers.setObject address none)

variable {pollers after : Pollers} {address : Nat} {ok : Bool} {result : Int × Pollers}

theorem applyEvents_changes (ran : pollers.applyEvents ok address = some result) :
    ReflTransGen (Change address) pollers result.2 := by
  simp only [applyEvents] at ran
  cases found : pollers.objects address with
  | none => simp [found] at ran
  | some object =>
    rw [found] at ran
    cases owns : object.epslot with
    | none =>
      simp only [owns, Option.some.injEq] at ran
      subst ran
      exact .refl
    | some slot =>
      simp only [owns] at ran
      split at ran <;> cases ran
      · exact .refl
      · exact .single (.registered found owns ok)

private theorem attachOwned_changes {object : PollerObject} (found : pollers.objects address = some object)
    (ran : pollers.attachOwned ok address object = some result) :
    ReflTransGen (Change address) pollers result.2 := by
  simp only [attachOwned] at ran
  split at ran
  · cases ran
    exact .refl
  · split at ran
    · exact applyEvents_changes ran
    · rename_i idle
      split at ran
      · rename_i attached
        cases took : pollers.takeSlot address object with
        | none =>
          rw [took] at ran
          cases ran
          exact .refl
        | some given =>
          obtain ⟨slot, taken, middle⟩ := given
          rw [took] at ran
          cases ran
          have gained : Change address pollers middle := .taken found idle attached took
          obtain ⟨_, rfl, rfl⟩ := takeSlot_eq took
          exact (ReflTransGen.single gained).tail (.registered (Function.update_self ..) rfl ok)
      · cases ran

theorem attachPoller_changes {unit : Bool} (ran : pollers.attachPoller unit ok address = some result) :
    ReflTransGen (Change address) pollers result.2 := by
  simp only [attachPoller] at ran
  cases found : pollers.objects address with
  | none => simp [found] at ran
  | some before =>
    rw [found] at ran
    have owned : Change address pollers
        (pollers.setObject address (some { before with ownerUnit := before.ownerUnit || unit })) :=
      .edited found rfl (fun set => by simp [set]) rfl
    exact (ReflTransGen.single owned).trans (attachOwned_changes setObject_self ran)

theorem detachPoller_changes (ran : pollers.detachPoller ok address = some result) :
    ReflTransGen (Change address) pollers result.2 := by
  simp only [detachPoller] at ran
  cases found : pollers.objects address with
  | none => simp [found] at ran
  | some object =>
    simp only [found] at ran
    cases owns : object.epslot with
    | none =>
      simp only [owns, Option.some.injEq] at ran
      subst ran
      exact .refl
    | some slot =>
      simp only [owns] at ran
      split at ran <;> cases ran
      · refine .single (.released found owns ?_)
        rintro after same
        cases same
        exact ⟨rfl, rfl⟩
      · exact .refl

theorem destroy_changes {free used : List Nat} (parts : pollers.Parts free used)
    (ran : pollers.destroy address = some after) : ReflTransGen (Change address) pollers after := by
  simp only [destroy] at ran
  cases found : pollers.objects address with
  | none => simp [found] at ran
  | some object =>
    simp only [found] at ran
    cases owns : object.epslot with
    | none =>
      have dropped : after = pollers.setObject address none := by
        cases unit : object.ownerUnit <;> simp only [owns, unit] at ran <;> exact (Option.some.inj ran).symm
      rw [dropped]
      exact .single (.dropped found owns)
    | some slot =>
      have attached := (parts.owner found owns).2.2
      simp only [owns, attached, Option.some.injEq] at ran
      subst ran
      exact .single (.released found owns (by simp))

/-- What holds between any two calls. -/
structure Sound (pollers : Pollers) : Prop where
  parts : ∃ free used, pollers.Parts free used
  counted : pollers.Counted

/-- What a call never takes back. -/
structure Grows (before after : Pollers) : Prop where
  maxPollers : after.unit.maxPollers = before.unit.maxPollers
  births : after.births = before.births
  registered : before.registered ⊆ after.registered
  turns : ∀ slot, turnsOf slot before.turns ≤ turnsOf slot after.turns
  born : ∀ {address object}, after.objects address = some object →
    ∃ earlier, before.objects address = some earlier ∧ earlier.born = object.born

theorem Grows.refl (pollers : Pollers) : Grows pollers pollers :=
  ⟨rfl, rfl, List.Subset.refl _, fun _ => Nat.le_refl _, fun found => ⟨_, found, rfl⟩⟩

theorem Grows.trans {middle : Pollers} (first : Grows pollers middle) (second : Grows middle after) :
    Grows pollers after where
  maxPollers := second.maxPollers.trans first.maxPollers
  births := second.births.trans first.births
  registered := List.Subset.trans first.registered second.registered
  turns slot := Nat.le_trans (first.turns slot) (second.turns slot)
  born := by
    intro address object found
    obtain ⟨earlier, before, same⟩ := second.born found
    obtain ⟨first', start, equal⟩ := first.born before
    exact ⟨first', start, equal.trans same⟩

/-- Objects change at one address, and the one there stays the one it was. -/
private theorem born_setObject {before : PollerObject} {replaced : Option PollerObject}
    (found : pollers.objects address = some before) (stays : ∀ object, replaced = some object → object.born = before.born)
    {other : Nat} {object : PollerObject}
    (stored : Function.update pollers.objects address replaced other = some object) :
    ∃ earlier, pollers.objects other = some earlier ∧ earlier.born = object.born := by
  by_cases same : other = address
  · subst same
    rw [Function.update_self] at stored
    exact ⟨before, found, (stays object stored).symm⟩
  · rw [Function.update_of_ne same] at stored
    exact ⟨object, stored, rfl⟩

private theorem born_kept {before after : PollerObject} (same : after.born = before.born) (object : PollerObject)
    (stored : some after = some object) : object.born = before.born := by
  cases stored
  exact same

theorem Change.grows (change : Change address pollers after) : Grows pollers after := by
  cases change with
  | edited found slots unit born =>
    exact ⟨rfl, rfl, List.Subset.refl _, fun _ => Nat.le_refl _, born_setObject found (born_kept born)⟩
  | taken found idle unit took =>
    obtain ⟨_, rfl, rfl⟩ := takeSlot_eq took
    exact ⟨rfl, rfl, List.Subset.refl _, fun _ => Nat.le_refl _, born_setObject found (born_kept (by rfl))⟩
  | registered found owns ok =>
    cases ok with
    | false =>
      exact ⟨rfl, rfl, List.Subset.refl _, fun _ => turnsOf_le_cons, fun stored => ⟨_, stored, rfl⟩⟩
    | true =>
      exact ⟨rfl, rfl, List.subset_cons_self .., fun _ => turnsOf_le_cons, born_setObject found (born_kept (by rfl))⟩
  | released found owns stays =>
    exact ⟨rfl, rfl, List.Subset.refl _, fun _ => turnsOf_le_cons,
      born_setObject found fun object stored => (stays object stored).2⟩
  | dropped found idle =>
    exact ⟨rfl, rfl, List.Subset.refl _, fun _ => Nat.le_refl _, born_setObject found (by simp)⟩

theorem Change.sound (change : Change address pollers after) (sound : pollers.Sound) : after.Sound := by
  obtain ⟨⟨free, used, parts⟩, counted⟩ := sound
  cases change with
  | edited found slots unit born =>
    exact ⟨⟨free, used, parts.edited found slots unit⟩, counted.edited found slots born⟩
  | taken found idle unit took =>
    obtain ⟨rest, rfl, gained⟩ := parts.taken found idle unit took
    exact ⟨⟨rest, _, gained⟩, counted.taken found idle (parts.vacant _ (List.mem_cons_self ..)) took⟩
  | registered found owns ok =>
    exact ⟨⟨free, used, parts.registered found ok⟩, counted.registered parts found owns ok⟩
  | released found owns stays =>
    exact ⟨⟨_, _, parts.released found owns fun object stored => (stays object stored).1⟩,
      counted.released found owns⟩
  | dropped found idle =>
    have only : ∀ object, pollers.objects address = some object → object.epslot = none := by
      intro object stored
      rw [found] at stored
      cases stored
      exact idle
    exact ⟨⟨free, used, parts.detached only (by simp)⟩, counted.detached only⟩

theorem grows_of_changes (changes : ReflTransGen (Change address) pollers after) : Grows pollers after := by
  induction changes with
  | refl => exact .refl _
  | tail _ change ih => exact ih.trans change.grows

theorem sound_of_changes (changes : ReflTransGen (Change address) pollers after) (sound : pollers.Sound) :
    after.Sound := by
  induction changes with
  | refl => exact sound
  | tail _ change ih => exact change.sound ih

/-- A call makes an object, or changes the one at its address. -/
theorem PollerCall.run_cases {call : PollerCall} (sound : pollers.Sound) (ran : call.run pollers = some after) :
    (∃ address fd unit, call = .construct address fd unit ∧ pollers.construct address fd unit = some after) ∨
      ∃ address, ReflTransGen (Change address) pollers after := by
  cases call with
  | construct address fd unit => exact .inl ⟨address, fd, unit, rfl, ran⟩
  | interest address events =>
    obtain ⟨object, found, rfl⟩ := Option.map_eq_some_iff.mp ran
    exact .inr ⟨address, .single (.edited found rfl id rfl)⟩
  | reopen address fd =>
    obtain ⟨object, found, rfl⟩ := Option.map_eq_some_iff.mp ran
    exact .inr ⟨address, .single (.edited found rfl id rfl)⟩
  | attachPoller unit ok address =>
    obtain ⟨result, attached, rfl⟩ := Option.map_eq_some_iff.mp ran
    exact .inr ⟨address, attachPoller_changes attached⟩
  | applyEvents ok address =>
    obtain ⟨result, applied, rfl⟩ := Option.map_eq_some_iff.mp ran
    exact .inr ⟨address, applyEvents_changes applied⟩
  | detachPoller ok address =>
    obtain ⟨result, detached, rfl⟩ := Option.map_eq_some_iff.mp ran
    exact .inr ⟨address, detachPoller_changes detached⟩
  | destroy address =>
    obtain ⟨free, used, parts⟩ := sound.parts
    exact .inr ⟨address, destroy_changes parts ran⟩

/-- The sequence number of no slot has wrapped. -/
def Unwrapped (pollers : Pollers) : Prop := ∀ slot, turnsOf slot pollers.turns < 2 ^ 32

theorem Grows.unwrapped (grows : Grows pollers after) (unwrapped : after.Unwrapped) : pollers.Unwrapped :=
  fun slot => Nat.lt_of_le_of_lt (grows.turns slot) (unwrapped slot)

/-- The id of the event was registered for the object. -/
def Names (pollers : Pollers) (event : EpollEvent) (born : Nat) : Prop :=
  ∃ registration ∈ pollers.registered, registration.id = event.data ∧ registration.object = born

theorem Names.mono {event : EpollEvent} {born : Nat} (names : pollers.Names event born)
    (more : pollers.registered ⊆ after.registered) : after.Names event born := by
  obtain ⟨registration, member, kept⟩ := names
  exact ⟨registration, more member, kept⟩

private theorem eventId_slot {seq slot : Nat} (small : slot < 2 ^ 31) : eventId seq slot % 2 ^ 32 = slot := by
  simp only [eventId]
  omega

private theorem eventId_seq {seq slot : Nat} (small : slot < 2 ^ 31) : eventId seq slot / 2 ^ 32 = seq := by
  simp only [eventId]
  omega

/-- Ids are given once. -/
theorem Sound.names_unique (sound : pollers.Sound) (unwrapped : pollers.Unwrapped)
    {event : EpollEvent} {born other : Nat}
    (names : pollers.Names event born) (again : pollers.Names event other) : born = other := by
  obtain ⟨registration, member, id, rfl⟩ := names
  obtain ⟨another, also, same, rfl⟩ := again
  obtain ⟨slot, number, small, shown, issued⟩ := sound.counted.issued registration member
  obtain ⟨slot', number', small', shown', issued'⟩ := sound.counted.issued another also
  have below : slot < 2 ^ 31 := Nat.lt_trans small pollers.unit.bounded
  have below' : slot' < 2 ^ 31 := Nat.lt_trans small' pollers.unit.bounded
  have equal : eventId (number % 2 ^ 32) slot = eventId (number' % 2 ^ 32) slot' := by
    rw [← shown, ← shown', id, same]
  have slots : slot = slot' := by
    rw [← eventId_slot below, equal, eventId_slot below']
  subst slots
  have numbers : number % 2 ^ 32 = number' % 2 ^ 32 := by
    have seqs := congrArg (· / 2 ^ 32) equal
    simpa only [eventId_seq below] using seqs
  rw [Nat.mod_eq_of_lt (Nat.lt_of_le_of_lt issued.le (unwrapped slot)),
    Nat.mod_eq_of_lt (Nat.lt_of_le_of_lt issued'.le (unwrapped slot))] at numbers
  subst numbers
  exact issued.unique issued'

/-- The slot of an event holds, as its `poller`, the object the id was registered for. -/
structure Facing (pollers : Pollers) (event : EpollEvent) (slot : Nat) (poller : Option Nat) : Prop where
  small : slot < pollers.unit.maxPollers
  found : ∃ address object, poller = some address ∧ pollers.objects address = some object ∧
    pollers.Names event object.born

/-- An event that passes `VerifyEvents` is for the object in the slot. -/
theorem Sound.facing (sound : pollers.Sound) (unwrapped : pollers.Unwrapped) {event : EpollEvent} {born : Nat}
    (names : pollers.Names event born) (verified : pollers.unit.verifyEvents event.data = true) :
    pollers.Facing event (event.data % 2 ^ 32) (pollers.unit.pollerTable (event.data % 2 ^ 32)).poller := by
  obtain ⟨small, shown⟩ := of_decide_eq_true verified
  refine ⟨small, ?_⟩
  obtain ⟨registration, member, id, rfl⟩ := id names
  obtain ⟨slot, number, bound, ticket, issued⟩ := sound.counted.issued registration member
  have below : slot < 2 ^ 31 := Nat.lt_trans bound pollers.unit.bounded
  rw [← id, ticket, eventId_slot below] at shown ⊢
  rw [eventId_seq below, sound.counted.seq] at shown
  obtain ⟨address, object, poller, stored, _, born⟩ :=
    sound.counted.held (issued.holds_of_mod (unwrapped slot) shown)
  exact ⟨address, object, poller, stored, born ▸ names⟩

/-- An attached object that is the `poller` of a slot is there. -/
theorem Sound.poller_live (sound : pollers.Sound) {slot : Nat} (small : slot < pollers.unit.maxPollers)
    (poller : (pollers.unit.pollerTable slot).poller = some address) : ∃ object, pollers.objects address = some object := by
  obtain ⟨free, used, parts⟩ := sound.parts
  rcases List.mem_append.mp (parts.parts.symm.subset (List.mem_range.mpr small)) with vacant | member
  · rw [parts.vacant slot vacant] at poller
    cases poller
  · obtain ⟨other, here, object, stored, _⟩ := parts.owned slot member
    obtain rfl := Option.some.inj (poller.symm.trans here)
    exact ⟨object, stored⟩

/-- Nothing is lost by a call, but that `construct` puts an object at its address. -/
structure Passes (call : PollerCall) (before after : Pollers) : Prop where
  maxPollers : after.unit.maxPollers = before.unit.maxPollers
  registered : before.registered ⊆ after.registered
  turns : ∀ slot, turnsOf slot before.turns ≤ turnsOf slot after.turns
  born : ∀ {address object}, (∀ fd unit, call ≠ .construct address fd unit) → after.objects address = some object →
    ∃ earlier, before.objects address = some earlier ∧ earlier.born = object.born

theorem Sound.run {call : PollerCall} (sound : pollers.Sound) (ran : call.run pollers = some after) :
    after.Sound ∧ Passes call pollers after := by
  rcases PollerCall.run_cases sound ran with ⟨address, fd, unit, rfl, made⟩ | ⟨address, changes⟩
  · simp only [construct] at made
    split at made
    · cases made
    · rename_i absent
      cases made
      obtain ⟨⟨free, used, parts⟩, counted⟩ := sound
      have only : ∀ object, pollers.objects address = some object → object.epslot = none := by simp [absent]
      have slots := parts.detached only (by rintro object same; cases same; rfl : ∀ object,
        some (⟨fd, unit, 0, 0, none, pollers.births⟩ : PollerObject) = some object → object.epslot = none)
      have counts : (pollers.setObject address (some ⟨fd, unit, 0, 0, none, pollers.births⟩)).Counted :=
        counted.detached only
      refine ⟨⟨⟨free, used, slots.chain, slots.parts, slots.count, slots.vacant, slots.owned, slots.owner⟩,
        ⟨counts.seq, counts.held, counts.issued⟩⟩, ⟨rfl, List.Subset.refl _, fun _ => Nat.le_refl _, ?_⟩⟩
      intro other object away stored
      have different : other ≠ address := by
        rintro rfl
        exact away fd unit rfl
      exact ⟨object, (setObject_ne different).symm.trans stored, rfl⟩
  · have grows := grows_of_changes changes
    exact ⟨sound_of_changes changes sound, grows.maxPollers, grows.registered, grows.turns, fun _ => grows.born⟩

end Pollers

end TeenpattiUserServer.Net
