/-! Loops that go on while their condition holds, with a bound on the rounds. A
measure that every round decreases shows that a loop ends; a set of states that
no round leaves shows that it does not. -/

namespace Loops

variable {S : Type}

/-- A round is `none` when the condition of the loop fails. The result is `none`
when `fuel` tests of the condition are not enough. -/
def iterate (round : S → Option S) : Nat → S → Option S
  | 0, _ => none
  | fuel + 1, state =>
    match round state with
    | none => some state
    | some next => iterate round fuel next

variable {round : S → Option S} {state next final : S} {fuel more : Nat}

theorem iterate_stop (stops : round state = none) : iterate round (fuel + 1) state = some state := by
  simp [iterate, stops]

theorem iterate_next (goes : round state = some next) : iterate round (fuel + 1) state = iterate round fuel next := by
  simp [iterate, goes]

/-- A loop whose rounds decrease a measure ends within that many rounds. -/
theorem iterate_ends {inv : S → Prop} {measure : S → Nat}
    (kept : ∀ state next, inv state → round state = some next → inv next ∧ measure next < measure state)
    (start : inv state) (enough : measure state < fuel) :
    ∃ final, iterate round fuel state = some final ∧ inv final ∧ measure final ≤ measure state ∧ round final = none := by
  induction fuel generalizing state with
  | zero => simp at enough
  | succ fuel ih =>
    cases goes : round state with
    | none => exact ⟨state, iterate_stop goes, start, Nat.le_refl _, goes⟩
    | some next =>
      obtain ⟨further, less⟩ := kept state next start goes
      obtain ⟨final, ran, ended, bound, stops⟩ := ih further (by omega)
      exact ⟨final, (iterate_next goes).trans ran, ended, by omega, stops⟩

/-- Where a loop ends, what its rounds keep still holds, and its condition fails. -/
theorem iterate_keeps {inv : S → Prop} (kept : ∀ state next, inv state → round state = some next → inv next)
    (start : inv state) (ran : iterate round fuel state = some final) : inv final ∧ round final = none := by
  induction fuel generalizing state with
  | zero => cases ran
  | succ fuel ih =>
    cases goes : round state with
    | none =>
      rw [iterate_stop goes] at ran
      obtain rfl := Option.some.inj ran
      exact ⟨start, goes⟩
    | some next =>
      rw [iterate_next goes] at ran
      exact ih (kept state next start goes) ran

/-- A loop that always has another round does not end, however many are allowed. -/
theorem iterate_never {inv : S → Prop} (kept : ∀ state, inv state → ∃ next, round state = some next ∧ inv next)
    (start : inv state) (fuel : Nat) : iterate round fuel state = none := by
  induction fuel generalizing state with
  | zero => rfl
  | succ fuel ih =>
    obtain ⟨next, goes, further⟩ := kept state start
    rw [iterate_next goes, ih further]

end Loops
