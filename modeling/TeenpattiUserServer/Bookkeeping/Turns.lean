import Mathlib.Data.Nat.Notation

/-! Slots that pass from owner to owner. Each turn of a slot, to an owner or back,
counts; a ticket is the count at which its owner got the slot. As long as the count
has not wrapped, a ticket that shows the current count belongs to the holder. -/

namespace Bookkeeping

universe u v

/-- A slot goes to an owner, or comes back from one. -/
structure Turn (κ : Type u) (ω : Type v) where
  slot : κ
  owner : Option ω
deriving DecidableEq

variable {κ : Type u} {ω : Type v} [DecidableEq κ]

/-- How often the slot has turned. Turns are listed newest first. -/
def turnsOf (slot : κ) : List (Turn κ ω) → Nat
  | [] => 0
  | turn :: earlier => if turn.slot = slot then turnsOf slot earlier + 1 else turnsOf slot earlier

/-- Who got the slot last, unless it came back. -/
def holder (slot : κ) : List (Turn κ ω) → Option ω
  | [] => none
  | turn :: earlier => if turn.slot = slot then turn.owner else holder slot earlier

/-- The owner got the slot in its turn of this number. -/
def Issued (slot : κ) (owner : ω) (number : Nat) : List (Turn κ ω) → Prop
  | [] => False
  | turn :: earlier =>
    (turn = ⟨slot, some owner⟩ ∧ number = turnsOf slot earlier + 1) ∨ Issued slot owner number earlier

variable {slot other : κ} {owner another : ω} {number : Nat} {turn : Turn κ ω} {turns : List (Turn κ ω)}

@[simp] theorem turnsOf_self {owner : Option ω} : turnsOf slot (⟨slot, owner⟩ :: turns) = turnsOf slot turns + 1 :=
  if_pos rfl

theorem turnsOf_ne {owner : Option ω} (different : other ≠ slot) :
    turnsOf slot (⟨other, owner⟩ :: turns) = turnsOf slot turns := if_neg different

@[simp] theorem holder_self {owner : Option ω} : holder slot (⟨slot, owner⟩ :: turns) = owner := if_pos rfl

theorem holder_ne {owner : Option ω} (different : other ≠ slot) :
    holder slot (⟨other, owner⟩ :: turns) = holder slot turns := if_neg different

theorem turnsOf_le_cons : turnsOf slot turns ≤ turnsOf slot (turn :: turns) := by
  rw [turnsOf]
  split
  · exact Nat.le_succ _
  · exact Nat.le_refl _

namespace Issued

theorem new : Issued slot owner (turnsOf slot turns + 1) (⟨slot, some owner⟩ :: turns) := .inl ⟨rfl, rfl⟩

theorem later (issued : Issued slot owner number turns) : Issued slot owner number (turn :: turns) := .inr issued

theorem le (issued : Issued slot owner number turns) : number ≤ turnsOf slot turns := by
  induction turns with
  | nil => exact issued.elim
  | cons turn earlier ih =>
    rcases issued with ⟨rfl, rfl⟩ | before
    · simp
    · exact Nat.le_trans (ih before) turnsOf_le_cons

/-- Whoever shows the current count has the slot. -/
theorem holds (issued : Issued slot owner number turns) (current : number = turnsOf slot turns) :
    holder slot turns = some owner := by
  induction turns with
  | nil => exact issued.elim
  | cons turn earlier ih =>
    rcases issued with ⟨rfl, _⟩ | before
    · exact holder_self
    · by_cases same : turn.slot = slot
      · have bound := before.le
        rw [turnsOf, if_pos same] at current
        omega
      · rw [turnsOf, if_neg same] at current
        rw [holder, if_neg same]
        exact ih before current

/-- A counter that wraps at `limit` serves as well while there are fewer turns. -/
theorem holds_of_mod {limit : Nat} (issued : Issued slot owner number turns)
    (few : turnsOf slot turns < limit) (shown : number % limit = turnsOf slot turns % limit) :
    holder slot turns = some owner := by
  have bound := issued.le
  rw [Nat.mod_eq_of_lt few, Nat.mod_eq_of_lt (Nat.lt_of_le_of_lt bound few)] at shown
  exact issued.holds shown

/-- No two owners have the same ticket. -/
theorem unique (issued : Issued slot owner number turns) (again : Issued slot another number turns) :
    owner = another := by
  induction turns with
  | nil => exact issued.elim
  | cons turn earlier ih =>
    rcases issued with ⟨rfl, rfl⟩ | before <;> rcases again with ⟨same, number⟩ | older
    · cases same
      rfl
    · have bound := older.le
      omega
    · have bound := before.le
      omega
    · exact ih before older

end Issued

end Bookkeeping
