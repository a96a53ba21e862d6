import Mathlib.Data.List.Perm.Basic
import Mathlib.Data.List.Range
import TeenpattiUserServer.Intrusive.Chain
import TeenpattiUserServer.Net.PollerUnit

/-! What every call on poller objects keeps: the free slots and the owned ones make up
the table, and the sequence number of a slot counts its turns. -/

namespace TeenpattiUserServer.Net

open Bookkeeping Intrusive

namespace PollerUnit

variable {unit : PollerUnit} {slot other : Nat} {content : EpollSlot}

/-- The `freeList` pointers. -/
def nexts (unit : PollerUnit) (slot : Nat) : Option Nat := (unit.pollerTable slot).freeList

@[simp] theorem pollerTable_setSlot_self : (unit.setSlot slot content).pollerTable slot = content :=
  Function.update_self ..

theorem pollerTable_setSlot_ne (different : other ≠ slot) :
    (unit.setSlot slot content).pollerTable other = unit.pollerTable other := Function.update_of_ne different ..

@[simp] theorem bump_poller : ((unit.bump slot).pollerTable other).poller = (unit.pollerTable other).poller := by
  by_cases same : other = slot
  · subst same
    simp [bump]
  · rw [bump, pollerTable_setSlot_ne same]

@[simp] theorem bump_nexts : (unit.bump slot).nexts = unit.nexts := by
  funext other
  by_cases same : other = slot
  · subst same
    simp [nexts, bump]
  · simp [nexts, bump, pollerTable_setSlot_ne same]

theorem bump_seq_self : ((unit.bump slot).pollerTable slot).seq = ((unit.pollerTable slot).seq + 1) % 2 ^ 32 := by
  simp [bump]

theorem bump_seq_ne (different : other ≠ slot) :
    ((unit.bump slot).pollerTable other).seq = (unit.pollerTable other).seq := by
  rw [bump, pollerTable_setSlot_ne different]

@[simp] theorem freeEpollSlot_poller_self : ((unit.freeEpollSlot slot).pollerTable slot).poller = none := by
  simp [freeEpollSlot, setSlot]

theorem freeEpollSlot_poller_ne (different : other ≠ slot) :
    ((unit.freeEpollSlot slot).pollerTable other).poller = (unit.pollerTable other).poller := by
  simp [freeEpollSlot, setSlot, Function.update_of_ne different]

theorem freeEpollSlot_seq_self :
    ((unit.freeEpollSlot slot).pollerTable slot).seq = ((unit.pollerTable slot).seq + 1) % 2 ^ 32 := by
  simp [freeEpollSlot, setSlot, bump]

theorem freeEpollSlot_seq_ne (different : other ≠ slot) :
    ((unit.freeEpollSlot slot).pollerTable other).seq = (unit.pollerTable other).seq := by
  simp [freeEpollSlot, setSlot, bump, Function.update_of_ne different]

theorem freeEpollSlot_nexts :
    (unit.freeEpollSlot slot).nexts = Function.update unit.nexts slot unit.freeSlotList := by
  funext other
  by_cases same : other = slot
  · subst same
    simp [nexts, freeEpollSlot, setSlot, bump]
  · simp [nexts, freeEpollSlot, setSlot, bump, Function.update_of_ne same]

end PollerUnit

namespace Pollers

/-- An object is attached with this slot. -/
def Owns (pollers : Pollers) (address slot : Nat) : Prop :=
  ∃ object, pollers.objects address = some object ∧ object.epslot = some slot

/-- `free` is the free list, and `used` are the slots of attached objects. -/
structure Parts (pollers : Pollers) (free used : List Nat) : Prop where
  chain : Chain pollers.unit.nexts pollers.unit.freeSlotList free none
  parts : (free ++ used).Perm (List.range pollers.unit.maxPollers)
  count : pollers.unit.usedPollers = used.length
  vacant : ∀ slot ∈ free, (pollers.unit.pollerTable slot).poller = none
  owned : ∀ slot ∈ used, ∃ address, (pollers.unit.pollerTable slot).poller = some address ∧ pollers.Owns address slot
  owner : ∀ {address object slot}, pollers.objects address = some object → object.epslot = some slot →
    slot ∈ used ∧ (pollers.unit.pollerTable slot).poller = some address ∧ object.ownerUnit = true

/-- The sequence numbers count turns, whoever holds a slot is its `poller`, and each
id that was registered is a ticket. -/
structure Counted (pollers : Pollers) : Prop where
  seq : ∀ slot, (pollers.unit.pollerTable slot).seq = turnsOf slot pollers.turns % 2 ^ 32
  held : ∀ {slot born}, holder slot pollers.turns = some born →
    ∃ address object, (pollers.unit.pollerTable slot).poller = some address ∧
      pollers.objects address = some object ∧ object.epslot = some slot ∧ object.born = born
  issued : ∀ registration ∈ pollers.registered, ∃ slot number, slot < pollers.unit.maxPollers ∧
    registration.id = eventId (number % 2 ^ 32) slot ∧ Issued slot registration.object number pollers.turns

variable {pollers : Pollers} {free used : List Nat} {address other slot : Nat} {object before after : PollerObject}
  {replaced : Option PollerObject}

@[simp] theorem setObject_self : (pollers.setObject address replaced).objects address = replaced :=
  Function.update_self ..

theorem setObject_ne (different : other ≠ address) :
    (pollers.setObject address replaced).objects other = pollers.objects other := Function.update_of_ne different ..

theorem Parts.nodup (parts : pollers.Parts free used) : (free ++ used).Nodup :=
  parts.parts.nodup_iff.mpr List.nodup_range

theorem Parts.lt (parts : pollers.Parts free used) (member : slot ∈ used) : slot < pollers.unit.maxPollers :=
  List.mem_range.mp (parts.parts.subset (List.mem_append_right _ member))

/-- Two objects with one slot are one. -/
theorem Parts.unique (parts : pollers.Parts free used) (first : pollers.Owns address slot)
    (second : pollers.Owns other slot) : address = other := by
  obtain ⟨object, found, owns⟩ := first
  obtain ⟨another, also, shares⟩ := second
  have one := (parts.owner found owns).2.1
  have two := (parts.owner also shares).2.1
  exact Option.some.inj (one.symm.trans two)

/-- An object that keeps its slot may change otherwise. -/
theorem Parts.edited (parts : pollers.Parts free used) (found : pollers.objects address = some before)
    (slots : after.epslot = before.epslot) (unit : before.ownerUnit = true → after.ownerUnit = true) :
    (pollers.setObject address (some after)).Parts free used where
  chain := parts.chain
  parts := parts.parts
  count := parts.count
  vacant := parts.vacant
  owned := by
    intro slot member
    obtain ⟨at', poller, object, stored, owns⟩ := parts.owned slot member
    refine ⟨at', poller, ?_⟩
    by_cases same : at' = address
    · subst same
      rw [found] at stored
      cases stored
      exact ⟨after, setObject_self, slots.trans owns⟩
    · exact ⟨object, (setObject_ne same).trans stored, owns⟩
  owner := by
    intro at' object slot stored owns
    by_cases same : at' = address
    · subst same
      rw [setObject_self] at stored
      cases stored
      obtain ⟨member, poller, attached⟩ := parts.owner found (slots ▸ owns)
      exact ⟨member, poller, unit attached⟩
    · rw [setObject_ne same] at stored
      exact parts.owner stored owns

theorem Counted.edited (counted : pollers.Counted) (found : pollers.objects address = some before)
    (slots : after.epslot = before.epslot) (same : after.born = before.born) :
    (pollers.setObject address (some after)).Counted where
  seq := counted.seq
  issued := counted.issued
  held := by
    intro slot born holds
    obtain ⟨at', object, poller, stored, owns, born'⟩ := counted.held holds
    refine ⟨at', ?_⟩
    by_cases here : at' = address
    · subst here
      rw [found] at stored
      cases stored
      exact ⟨after, poller, setObject_self, slots.trans owns, same.trans born'⟩
    · exact ⟨object, poller, (setObject_ne here).trans stored, owns, born'⟩

/-- A change at an address whose object has no slot, if there is one. -/
theorem Parts.detached (parts : pollers.Parts free used)
    (idle : ∀ object, pollers.objects address = some object → object.epslot = none)
    (stays : ∀ object, replaced = some object → object.epslot = none) :
    (pollers.setObject address replaced).Parts free used where
  chain := parts.chain
  parts := parts.parts
  count := parts.count
  vacant := parts.vacant
  owned := by
    intro slot member
    obtain ⟨at', poller, object, stored, owns⟩ := parts.owned slot member
    have different : at' ≠ address := by
      rintro rfl
      simp [idle object stored] at owns
    exact ⟨at', poller, object, (setObject_ne different).trans stored, owns⟩
  owner := by
    intro at' object slot stored owns
    have different : at' ≠ address := by
      rintro rfl
      rw [setObject_self] at stored
      simp [stays object stored] at owns
    rw [setObject_ne different] at stored
    exact parts.owner stored owns

theorem Counted.detached (counted : pollers.Counted)
    (idle : ∀ object, pollers.objects address = some object → object.epslot = none) :
    (pollers.setObject address replaced).Counted where
  seq := counted.seq
  issued := counted.issued
  held := by
    intro slot born holds
    obtain ⟨at', object, poller, stored, owns, born'⟩ := counted.held holds
    have different : at' ≠ address := by
      rintro rfl
      simp [idle object stored] at owns
    exact ⟨at', object, poller, (setObject_ne different).trans stored, owns, born'⟩

private theorem Parts.used_nodup (parts : pollers.Parts free used) : used.Nodup :=
  (List.nodup_append.mp parts.nodup).2.1

private theorem Parts.apart (parts : pollers.Parts free used) (vacant : other ∈ free) (member : slot ∈ used) :
    other ≠ slot := (List.nodup_append.mp parts.nodup).2.2 other vacant slot member

/-- `FreeEpollSlot` on the slot of an object that lets it go. -/
theorem Parts.released (parts : pollers.Parts free used) (found : pollers.objects address = some object)
    (owns : object.epslot = some slot) (stays : ∀ object, replaced = some object → object.epslot = none) :
    ((pollers.release slot).setObject address replaced).Parts (slot :: free) (used.erase slot) := by
  obtain ⟨member, poller, _⟩ := parts.owner found owns
  refine ⟨?_, ?_, ?_, ?_, ?_, ?_⟩
  · change Chain (pollers.unit.freeEpollSlot slot).nexts (some slot) (slot :: free) none
    rw [PollerUnit.freeEpollSlot_nexts]
    refine ⟨rfl, ?_⟩
    rw [Function.update_self]
    exact parts.chain.update (fun vacant => parts.apart vacant member rfl) _
  · exact (List.perm_middle.symm.trans ((List.perm_cons_erase member).symm.append_left free)).trans parts.parts
  · change pollers.unit.usedPollers - 1 = _
    have length := List.length_erase_of_mem member
    have positive := List.length_pos_of_mem member
    rw [parts.count]
    omega
  · intro other vacant
    change ((pollers.unit.freeEpollSlot slot).pollerTable other).poller = none
    rcases List.mem_cons.mp vacant with rfl | vacant
    · exact PollerUnit.freeEpollSlot_poller_self
    · rw [PollerUnit.freeEpollSlot_poller_ne (parts.apart vacant member)]
      exact parts.vacant other vacant
  · intro other kept
    obtain ⟨different, before⟩ := parts.used_nodup.mem_erase_iff.mp kept
    obtain ⟨at', pollerOther, another, stored, shares⟩ := parts.owned other before
    have away : at' ≠ address := by
      rintro rfl
      rw [found] at stored
      cases stored
      exact different (Option.some.inj (shares.symm.trans owns))
    exact ⟨at', (PollerUnit.freeEpollSlot_poller_ne different).trans pollerOther, another,
      (setObject_ne away).trans stored, shares⟩
  · intro at' another other stored shares
    have away : at' ≠ address := by
      rintro rfl
      rw [setObject_self] at stored
      simp [stays another stored] at shares
    rw [setObject_ne away] at stored
    obtain ⟨before, pollerOther, attached⟩ := parts.owner stored shares
    have different : other ≠ slot := by
      rintro rfl
      exact away (Option.some.inj (pollerOther.symm.trans poller))
    exact ⟨parts.used_nodup.mem_erase_iff.mpr ⟨different, before⟩,
      (PollerUnit.freeEpollSlot_poller_ne different).trans pollerOther, attached⟩

theorem Counted.released (counted : pollers.Counted) (found : pollers.objects address = some object)
    (owns : object.epslot = some slot) :
    ((pollers.release slot).setObject address replaced).Counted where
  seq := by
    intro other
    change ((pollers.unit.freeEpollSlot slot).pollerTable other).seq = turnsOf other (⟨slot, none⟩ :: pollers.turns) % 2 ^ 32
    by_cases same : other = slot
    · subst same
      rw [PollerUnit.freeEpollSlot_seq_self, counted.seq, turnsOf_self, Nat.mod_add_mod]
    · rw [PollerUnit.freeEpollSlot_seq_ne same, counted.seq, turnsOf_ne (Ne.symm same)]
  held := by
    intro other born holds
    change holder other (⟨slot, none⟩ :: pollers.turns) = some born at holds
    have different : other ≠ slot := by
      rintro rfl
      simp at holds
    rw [holder_ne (Ne.symm different)] at holds
    obtain ⟨at', another, poller, stored, shares, born'⟩ := counted.held holds
    have away : at' ≠ address := by
      rintro rfl
      rw [found] at stored
      cases stored
      exact different (Option.some.inj (shares.symm.trans owns))
    exact ⟨at', another, (PollerUnit.freeEpollSlot_poller_ne different).trans poller,
      (setObject_ne away).trans stored, shares, born'⟩
  issued := by
    intro registration member
    obtain ⟨slot', number, small, id, issued⟩ := counted.issued registration member
    exact ⟨slot', number, small, id, issued.later⟩

/-- What `takeSlot` gives: the head of the free list. -/
theorem takeSlot_eq {taken : PollerObject} {result : Pollers}
    (took : pollers.takeSlot address object = some (slot, taken, result)) :
    pollers.unit.freeSlotList = some slot ∧ taken = { object with epslot := some slot } ∧
      result = { pollers with
        unit := { pollers.unit with
          usedPollers := pollers.unit.usedPollers + 1
          freeSlotList := (pollers.unit.pollerTable slot).freeList
          pollerTable := Function.update pollers.unit.pollerTable slot
            ⟨(pollers.unit.pollerTable slot).seq, some address, none⟩ }
        objects := Function.update pollers.objects address (some taken) } := by
  simp only [takeSlot, PollerUnit.allocEpollSlot] at took
  cases head : pollers.unit.freeSlotList with
  | none => simp [head] at took
  | some first =>
    simp only [head, Option.some.injEq, Prod.mk.injEq] at took
    obtain ⟨rfl, rfl, rfl⟩ := took
    refine ⟨rfl, rfl, ?_⟩
    simp [PollerUnit.setSlot, setObject, Function.update_idem]

/-- A slot from the free list goes to an object without one. -/
theorem Parts.taken (parts : pollers.Parts free used) (found : pollers.objects address = some object)
    (idle : object.epslot = none) (unit : object.ownerUnit = true) {taken : PollerObject} {result : Pollers}
    (took : pollers.takeSlot address object = some (slot, taken, result)) :
    ∃ rest, free = slot :: rest ∧ result.Parts rest (slot :: used) := by
  obtain ⟨head, rfl, rfl⟩ := takeSlot_eq took
  obtain ⟨rest, rfl⟩ : ∃ rest, free = slot :: rest := by
    cases free with
    | nil =>
      have empty : pollers.unit.freeSlotList = none := parts.chain
      simp [head] at empty
    | cons first rest =>
      obtain rfl := Option.some.inj (head.symm.trans parts.chain.1)
      exact ⟨rest, rfl⟩
  have fresh : ∀ other ∈ rest, other ≠ slot := fun other member same =>
    (List.nodup_cons.mp (List.nodup_append.mp parts.nodup).1).1 (same ▸ member)
  refine ⟨rest, rfl, ?_, ?_, ?_, ?_, ?_, ?_⟩
  · refine Chain.congr parts.chain.2 fun other member => ?_
    simp [PollerUnit.nexts, Function.update_of_ne (fresh other member)]
  · exact List.perm_middle.trans parts.parts
  · change pollers.unit.usedPollers + 1 = _
    rw [parts.count, List.length_cons, Int.natCast_succ]
  · intro other member
    change (Function.update pollers.unit.pollerTable slot _ other).poller = none
    rw [Function.update_of_ne (fresh other member)]
    exact parts.vacant other (List.mem_cons_of_mem _ member)
  · intro other member
    rcases List.mem_cons.mp member with rfl | before
    · exact ⟨address, by simp, _, Function.update_self .., rfl⟩
    · have different : other ≠ slot := (parts.apart (List.mem_cons_self ..) before).symm
      obtain ⟨at', poller, another, stored, shares⟩ := parts.owned other before
      have away : at' ≠ address := by
        rintro rfl
        rw [found] at stored
        cases stored
        simp [idle] at shares
      refine ⟨at', ?_, another, (Function.update_of_ne away ..).trans stored, shares⟩
      simpa [Function.update_of_ne different] using poller
  · intro at' another other stored shares
    change Function.update pollers.objects address _ at' = some another at stored
    by_cases same : at' = address
    · subst same
      rw [Function.update_self] at stored
      cases stored
      cases shares
      exact ⟨List.mem_cons_self .., by simp, unit⟩
    · rw [Function.update_of_ne same] at stored
      obtain ⟨before, poller, attached⟩ := parts.owner stored shares
      have different : other ≠ slot := (parts.apart (List.mem_cons_self ..) before).symm
      refine ⟨List.mem_cons_of_mem _ before, ?_, attached⟩
      simpa [Function.update_of_ne different] using poller

theorem Counted.taken (counted : pollers.Counted) (found : pollers.objects address = some object)
    (idle : object.epslot = none) (vacant : (pollers.unit.pollerTable slot).poller = none)
    {taken : PollerObject} {result : Pollers}
    (took : pollers.takeSlot address object = some (slot, taken, result)) : result.Counted := by
  obtain ⟨_, rfl, rfl⟩ := takeSlot_eq took
  refine ⟨?_, ?_, counted.issued⟩
  · intro other
    change (Function.update pollers.unit.pollerTable slot _ other).seq = _
    by_cases same : other = slot
    · subst same
      rw [Function.update_self]
      exact counted.seq other
    · rw [Function.update_of_ne same]
      exact counted.seq other
  · intro other born holds
    obtain ⟨at', another, poller, stored, shares, born'⟩ := counted.held holds
    have different : other ≠ slot := by
      rintro rfl
      simp [vacant] at poller
    have away : at' ≠ address := by
      rintro rfl
      rw [found] at stored
      cases stored
      simp [idle] at shares
    refine ⟨at', another, ?_, (Function.update_of_ne away ..).trans stored, shares, born'⟩
    simpa [Function.update_of_ne different] using poller

private theorem Parts.armed (parts : pollers.Parts free used) : (pollers.arm slot object).Parts free used where
  chain := by
    change Chain (pollers.unit.bump slot).nexts pollers.unit.freeSlotList free none
    simpa using parts.chain
  parts := parts.parts
  count := parts.count
  vacant := by simpa [arm] using parts.vacant
  owned := by simpa [arm, Owns] using parts.owned
  owner := by
    intro at' another other stored shares
    simpa [arm] using parts.owner stored shares

private theorem Counted.armed (counted : pollers.Counted) (parts : pollers.Parts free used)
    (found : pollers.objects address = some object) (owns : object.epslot = some slot) :
    (pollers.arm slot object).Counted where
  seq := by
    intro other
    change ((pollers.unit.bump slot).pollerTable other).seq = turnsOf other (⟨slot, some object.born⟩ :: pollers.turns) % 2 ^ 32
    by_cases same : other = slot
    · subst same
      rw [PollerUnit.bump_seq_self, counted.seq, turnsOf_self, Nat.mod_add_mod]
    · rw [PollerUnit.bump_seq_ne same, counted.seq, turnsOf_ne (Ne.symm same)]
  held := by
    intro other born holds
    change holder other (⟨slot, some object.born⟩ :: pollers.turns) = some born at holds
    by_cases same : slot = other
    · subst same
      rw [holder_self] at holds
      exact ⟨address, object, by simpa [arm] using (parts.owner found owns).2.1, found, owns, Option.some.inj holds⟩
    · rw [holder_ne same] at holds
      obtain ⟨at', another, poller, kept⟩ := counted.held holds
      exact ⟨at', another, by simpa [arm] using poller, kept⟩
  issued := by
    intro registration member
    obtain ⟨slot', number, small, id, issued⟩ := counted.issued registration member
    exact ⟨slot', number, small, id, issued.later⟩

/-- A registration, whether it succeeds or not. -/
theorem Parts.registered (parts : pollers.Parts free used) (found : pollers.objects address = some object) (ok : Bool) :
    (pollers.register ok address slot object).2.Parts free used := by
  have armed : (pollers.arm slot object).Parts free used := parts.armed
  cases ok with
  | false => exact armed
  | true =>
    have stored : ((pollers.arm slot object).setObject address
        (some { object with oldEvents := object.newEvents })).Parts free used := armed.edited found rfl id
    exact ⟨stored.chain, stored.parts, stored.count, stored.vacant, stored.owned, stored.owner⟩

theorem Counted.registered (counted : pollers.Counted) (parts : pollers.Parts free used)
    (found : pollers.objects address = some object) (owns : object.epslot = some slot) (ok : Bool) :
    (pollers.register ok address slot object).2.Counted := by
  have armed : (pollers.arm slot object).Counted := counted.armed parts found owns
  cases ok with
  | false => exact armed
  | true =>
    have stored : ((pollers.arm slot object).setObject address
        (some { object with oldEvents := object.newEvents })).Counted := armed.edited found rfl rfl
    refine ⟨stored.seq, stored.held, ?_⟩
    intro registration member
    rcases List.mem_cons.mp member with rfl | before
    · refine ⟨slot, turnsOf slot pollers.turns + 1, parts.lt (parts.owner found owns).1, ?_, Issued.new⟩
      rw [armed.seq slot]
      exact congrArg (fun turns => eventId (turns % 2 ^ 32) slot) turnsOf_self
    · exact stored.issued registration before

end Pollers

end TeenpattiUserServer.Net
