import TeenpattiUserServer.Bookkeeping.Ledger

/-! Counters by class: each record belongs to one class or to none, and an edit
moves the count from the class of the old record to that of the new one. -/

namespace Bookkeeping

universe u v w x

variable {κ : Type u} {ρ : Type v} {β : Type w} {τ : Type x} [DecidableEq τ]

/-- A counter goes up by one. -/
def raise (count : τ → Int) (key : τ) : τ → Int := Function.update count key (count key + 1)

/-- A counter goes down by one, but not below zero. -/
def lower (count : τ → Int) (key : τ) : τ → Int :=
  Function.update count key (if 0 < count key then count key - 1 else count key)

/-- A move between classes. Outside all classes nothing is counted. -/
def move (count : τ → Int) (left entered : Option τ) : τ → Int :=
  let rest := left.elim count (lower count)
  entered.elim rest (raise rest)

@[simp] theorem move_none (count : τ → Int) : move count none none = count := rfl

@[simp] theorem move_enter (count : τ → Int) (entered : τ) : move count none (some entered) = raise count entered := rfl

@[simp] theorem move_leave (count : τ → Int) (left : τ) : move count (some left) none = lower count left := rfl

@[simp] theorem move_across (count : τ → Int) (left entered : τ) :
    move count (some left) (some entered) = raise (lower count left) entered := rfl

/-- Who leaves a class and enters it again leaves the count as it is. -/
theorem raise_lower_same {count : τ → Int} {key : τ} (positive : 0 < count key) :
    raise (lower count key) key = count := by
  funext other
  by_cases same : other = key
  · subst other
    simp [raise, lower, positive]
  · simp [raise, lower, same]

theorem raise_apply (count : τ → Int) (key other : τ) :
    raise count key other = count other + if key = other then 1 else 0 := by
  by_cases same : other = key
  · subst other
    simp [raise]
  · have different : key ≠ other := fun equal => same equal.symm
    simp [raise, same, different]

theorem lower_apply {count : τ → Int} {key : τ} (positive : 0 < count key) (other : τ) :
    lower count key other + (if key = other then 1 else 0) = count other := by
  by_cases same : other = key
  · subst other
    simp [lower, positive]
  · have different : key ≠ other := fun equal => same equal.symm
    simp [lower, same, different]

private theorem move_apply {count : τ → Int} {left : Option τ} (positive : ∀ key ∈ left, 0 < count key)
    (entered : Option τ) (other : τ) : move count left entered other + (if left = some other then 1 else 0) =
      count other + if entered = some other then 1 else 0 := by
  have lowered : left.elim count (lower count) other + (if left = some other then 1 else 0) = count other := by
    cases left with
    | none => simp
    | some key => simpa only [Option.some.injEq, Option.elim_some] using lower_apply (positive key rfl) other
  cases entered with
  | none => simpa [move] using lowered
  | some key =>
    have raised := raise_apply (left.elim count (lower count)) key other
    simp only [Option.some.injEq]
    change raise _ key other + _ = _
    omega

/-- The records of a class. -/
def inClass (classOf : ρ → Option τ) (t : τ) (record : ρ) : Bool := classOf record = some t

private theorem hit_inClass (classOf : ρ → Option τ) (t : τ) (record : Option ρ) :
    (hit (inClass classOf t) record : Int) = if record.bind classOf = some t then 1 else 0 := by
  cases record with
  | none => rfl
  | some record => by_cases inside : classOf record = some t <;> simp [inClass, inside]

/-- An edit that leaves the class of its record and the count alone is balanced. -/
theorem Balanced.of_same {count : β → τ → Int} {classOf : ρ → Option τ} {edit : Edit κ ρ β}
    (same : edit.new.bind classOf = edit.old.bind classOf) (note : ∀ book, count (edit.note book) = count book) :
    Balanced count (inClass classOf) edit := by
  intro book _ t
  rw [hit_inClass, hit_inClass, same, note]

/-- An edit that moves the count as it moves the record is balanced. -/
theorem Balanced.of_move {count : β → τ → Int} {classOf : ρ → Option τ} {edit : Edit κ ρ β}
    (moves : ∀ book, (∀ key ∈ edit.old.bind classOf, 0 < count book key) →
      count (edit.note book) = move (count book) (edit.old.bind classOf) (edit.new.bind classOf)) :
    Balanced count (inClass classOf) edit := by
  intro book bound t
  have positive : ∀ key ∈ edit.old.bind classOf, 0 < count book key := by
    intro key member
    have least := bound key
    rw [hit_inClass, if_pos (Option.mem_def.mp member)] at least
    exact least
  have moved := move_apply positive (edit.new.bind classOf) t
  rw [← moves book positive] at moved
  rw [hit_inClass, hit_inClass]
  exact moved

end Bookkeeping
