import Mathlib.Data.Option.Basic
import TeenpattiUserServer.Loops.Iterate

/-! Loops that may fault, beside loops that do not: rounds that take related states to
related states make related results. -/

namespace Loops

universe u v w x

section Faults

variable {S : Type u} {T : Type v} {U : Type w} {V : Type x} {related : S → T → Prop} {final : U → V → Prop}

theorem rel_some_iff {first : Option S} {other : T} :
    Option.Rel related first (some other) ↔ ∃ state, first = some state ∧ related state other := by
  constructor
  · intro both
    cases both with
    | some same => exact ⟨_, rfl, same⟩
  · rintro ⟨state, rfl, same⟩
    exact .some same

theorem rel_imp {wider : S → T → Prop} {first : Option S} {second : Option T} (both : Option.Rel related first second)
    (rest : ∀ state other, related state other → wider state other) : Option.Rel wider first second := by
  cases both with
  | none => exact .none
  | some same => exact .some (rest _ _ same)

theorem rel_bind {first : Option S} {second : Option T} {further : S → Option U} {beside : T → Option V}
    (both : Option.Rel related first second)
    (rest : ∀ state other, related state other → Option.Rel final (further state) (beside other)) :
    Option.Rel final (first.bind further) (second.bind beside) := by
  cases both with
  | none => exact .none
  | some same => exact rest _ _ same

theorem rel_map {first : Option S} {second : Option T} {further : S → U} {beside : T → V}
    (both : Option.Rel related first second)
    (rest : ∀ state other, related state other → final (further state) (beside other)) :
    Option.Rel final (first.map further) (second.map beside) := by
  cases both with
  | none => exact .none
  | some same => exact .some (rest _ _ same)

end Faults

variable {S T Cell : Type} {related : S → T → Prop}

theorem rel_foldl {ι : Type} {body : S → ι → Option S} {beside : T → ι → T}
    (rounds : ∀ input state other, related state other →
      Option.Rel related (body state input) (some (beside other input)))
    (inputs : List ι) {state : S} {other : T} (same : related state other) :
    Option.Rel related (inputs.foldlM body state) (some (inputs.foldl beside other)) := by
  induction inputs generalizing state other with
  | nil => exact .some same
  | cons input inputs ih =>
    rw [List.foldlM_cons, List.foldl_cons]
    exact rel_bind (rounds input state other same) fun _ _ further => ih further

/-- `iterate`, where a test of the condition or a round may fault. -/
def attempt (round : S → Option (Option S)) : Nat → S → Option S
  | 0, _ => none
  | fuel + 1, state =>
    match round state with
    | none => none
    | some none => some state
    | some (some next) => attempt round fuel next

theorem rel_attempt {round : S → Option (Option S)} {beside : T → Option T}
    (rounds : ∀ state other, related state other →
      Option.Rel (Option.Rel related) (round state) (some (beside other)))
    (fuel : Nat) {state : S} {other : T} (same : related state other) :
    Option.Rel related (attempt round fuel state) (iterate beside fuel other) := by
  induction fuel generalizing state other with
  | zero => exact .none
  | succ fuel ih =>
    have both := rounds state other same
    rw [attempt, iterate]
    generalize round state = goes at both
    generalize beside other = follows at both
    cases both with
    | some steps =>
      cases steps with
      | none => exact .some same
      | some further => exact ih further

/-- `for (cell = head; cell; cell = cell->next) body(cell)`, where `next` is read after the body. -/
def along (next : S → Cell → Option Cell) (body : Cell → S → Option S) : Nat → Option Cell → S → Option S
  | _, none, state => some state
  | 0, some _, _ => none
  | rounds + 1, some cell, state => (body cell state).bind fun after => along next body rounds (next after cell) after

end Loops
