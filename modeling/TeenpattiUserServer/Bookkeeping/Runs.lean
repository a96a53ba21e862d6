import Mathlib.Data.List.Induction

/-! Machines that take inputs one after another: what holds in every state they
reach, and what holds of every step of a given run. -/

namespace Bookkeeping

universe u v

variable {σ : Type u} {ι : Type v}

/-- The states reached from a start by steps that are all allowed. -/
inductive Reached (start : σ → Prop) (step : ι → σ → Option σ) (allowed : σ → ι → Prop) : σ → Prop
  | start {state} (initial : start state) : Reached start step allowed state
  | step {state input after} (reached : Reached start step allowed state) (permitted : allowed state input)
      (ran : step input state = some after) : Reached start step allowed after

namespace Reached

variable {start : σ → Prop} {step : ι → σ → Option σ} {allowed other : σ → ι → Prop} {state : σ}

/-- An invariant holds at the start and each allowed step keeps it. -/
theorem invariant {inv : σ → Prop} (initial : ∀ state, start state → inv state)
    (keeps : ∀ {state input after}, inv state → allowed state input → step input state = some after → inv after)
    (reached : Reached start step allowed state) : inv state := by
  induction reached with
  | start initially => exact initial _ initially
  | step _ permitted ran ih => exact keeps ih permitted ran

end Reached

/-- The state after some inputs, unless one of the steps faults. -/
def run (step : ι → σ → Option σ) : List ι → σ → Option σ
  | [], state => some state
  | input :: inputs, state => (step input state).bind (run step inputs)

theorem run_keeps {step : ι → σ → Option σ} {inv : σ → Prop}
    (keeps : ∀ {state input after}, inv state → step input state = some after → inv after) {inputs : List ι}
    {state after : σ} (ran : run step inputs state = some after) (holds : inv state) : inv after := by
  induction inputs generalizing state with
  | nil =>
    obtain rfl := Option.some.inj ran
    exact holds
  | cons input inputs ih =>
    obtain ⟨middle, stepped, rest⟩ := Option.bind_eq_some_iff.mp ran
    exact ih rest (keeps holds stepped)

theorem run_append {step : ι → σ → Option σ} (first second : List ι) (state : σ) :
    run step (first ++ second) state = (run step first state).bind (run step second) := by
  induction first generalizing state with
  | nil => rfl
  | cons input first ih =>
    rw [List.cons_append, run, run, Option.bind_assoc]
    exact congrArg _ (funext ih)

theorem run_snoc {step : ι → σ → Option σ} (inputs : List ι) (input : ι) (state : σ) :
    run step (inputs ++ [input]) state = (run step inputs state).bind (step input) := by
  rw [run_append]
  refine congrArg _ (funext fun middle => ?_)
  exact Option.bind_fun_some (step input middle)

/-- A run goes through just when each of its steps does. -/
theorem run_isSome_iff {step : ι → σ → Option σ} {inputs : List ι} {start : σ} :
    (∃ after, run step inputs start = some after) ↔ ∀ past input rest before, inputs = past ++ input :: rest →
      run step past start = some before → ∃ after, step input before = some after := by
  induction inputs generalizing start with
  | nil =>
    refine iff_of_true ⟨start, rfl⟩ fun past input rest before split => ?_
    simp at split
  | cons first inputs ih =>
    constructor
    · rintro ⟨after, ran⟩ past input rest before split passed
      obtain ⟨middle, stepped, further⟩ := Option.bind_eq_some_iff.mp ran
      cases past with
      | nil =>
        obtain ⟨rfl, rfl⟩ := List.cons.inj split
        obtain rfl := Option.some.inj passed
        exact ⟨middle, stepped⟩
      | cons head past =>
        obtain ⟨rfl, others⟩ := List.cons.inj split
        rw [run, stepped, Option.bind_some] at passed
        exact ih.mp ⟨after, further⟩ past input rest before others passed
    · intro each
      obtain ⟨middle, stepped⟩ := each [] first inputs start rfl rfl
      obtain ⟨after, further⟩ := ih.mpr fun past input rest before split passed =>
        each (first :: past) input rest before (by rw [split]; rfl) (by rw [run, stepped]; exact passed)
      exact ⟨after, by rw [run, stepped]; exact further⟩

/-- A run that checks each input before it takes it stays among the states reached. -/
theorem Reached.run {start : σ → Prop} {step : ι → σ → Option σ} {allowed : σ → ι → Prop} [DecidableRel allowed]
    {state after : σ} (reached : Reached start step allowed state) {inputs : List ι}
    (ran : Bookkeeping.run (fun input state => if allowed state input then step input state else none) inputs state =
      some after) : Reached start step allowed after := by
  refine run_keeps ?_ ran reached
  intro state input after before stepped
  by_cases permitted : allowed state input
  · rw [if_pos permitted] at stepped
    exact before.step permitted stepped
  · rw [if_neg permitted] at stepped
    cases stepped

/-- A property of each step of a run, of the inputs before it, its input and the
states around it. -/
def AtEachStep (step : ι → σ → Option σ) (inputs : List ι) (start : σ) (p : List ι → ι → σ → σ → Prop) : Prop :=
  ∀ past input rest before after, inputs = past ++ input :: rest → run step past start = some before →
    step input before = some after → p past input before after

/-- Two properties that agree on each step from a state with an invariant agree on runs. -/
theorem atEachStep_congr {step : ι → σ → Option σ} {inv : σ → Prop}
    (keeps : ∀ {state input after}, inv state → step input state = some after → inv after)
    {p q : List ι → ι → σ → σ → Prop}
    (same : ∀ {past input before after}, inv before → step input before = some after →
      (p past input before after ↔ q past input before after))
    (inputs : List ι) {start : σ} (holds : inv start) :
    AtEachStep step inputs start p ↔ AtEachStep step inputs start q := by
  constructor <;> intro each past input rest before after split ran stepped
  · exact (same (run_keeps keeps ran holds) stepped).mp (each past input rest before after split ran stepped)
  · exact (same (run_keeps keeps ran holds) stepped).mpr (each past input rest before after split ran stepped)

/-- An invariant of the states with their past holds throughout a run exactly when a
condition does at each step, if the condition is what a legal step from a good state
takes to keep it. -/
theorem atEachStep_inv_iff {step : ι → σ → Option σ} {sound : σ → Prop} {inv : List ι → σ → Prop}
    {legal condition : List ι → ι → σ → σ → Prop}
    (keeps : ∀ {state input after}, sound state → step input state = some after → sound after)
    (each : ∀ {past input before after}, sound before → inv past before → legal past input before after →
      step input before = some after → (inv (past ++ [input]) after ↔ condition past input before after))
    {inputs : List ι} {start : σ} (initially : sound start) (holds : inv [] start)
    (lawful : AtEachStep step inputs start legal) :
    AtEachStep step inputs start (fun past input _ after => inv (past ++ [input]) after) ↔
      AtEachStep step inputs start condition := by
  have good {past : List ι} {before : σ} (ran : run step past start = some before) : sound before :=
    run_keeps keeps ran initially
  constructor
  · intro kept past input rest before after split ran stepped
    have before_inv : inv past before := by
      cases past using List.reverseRecOn with
      | nil =>
        obtain rfl := Option.some.inj ran
        exact holds
      | append_singleton earlier last =>
        rw [run_snoc] at ran
        obtain ⟨middle, ran, further⟩ := Option.bind_eq_some_iff.mp ran
        exact kept earlier last (input :: rest) middle before (by rw [split]; simp) ran further
    exact (each (good ran) before_inv (lawful past input rest before after split ran stepped) stepped).mp
      (kept past input rest before after split ran stepped)
  · intro met past
    -- the invariant before a step is the one after the step before it
    induction past using List.reverseRecOn with
    | nil =>
      intro input rest before after split ran stepped
      obtain rfl := Option.some.inj ran
      exact (each initially holds (lawful [] input rest start after split rfl stepped) stepped).mpr
        (met [] input rest start after split rfl stepped)
    | append_singleton earlier last ih =>
      intro input rest before after split ran stepped
      have reached := ran
      rw [run_snoc] at ran
      obtain ⟨middle, ran, further⟩ := Option.bind_eq_some_iff.mp ran
      have before_inv := ih last (input :: rest) middle before (by rw [split]; simp) ran further
      exact (each (good reached) before_inv (lawful _ input rest before after split reached stepped) stepped).mpr
        (met _ input rest before after split reached stepped)

theorem atEachStep_and {step : ι → σ → Option σ} {inputs : List ι} {start : σ} {p q : List ι → ι → σ → σ → Prop} :
    AtEachStep step inputs start (fun past input before after =>
      p past input before after ∧ q past input before after) ↔
        AtEachStep step inputs start p ∧ AtEachStep step inputs start q := by
  constructor
  · intro both
    constructor <;> intro past input rest before after split ran stepped
    · exact (both past input rest before after split ran stepped).1
    · exact (both past input rest before after split ran stepped).2
  · rintro ⟨first, second⟩ past input rest before after split ran stepped
    constructor
    · exact first past input rest before after split ran stepped
    · exact second past input rest before after split ran stepped

theorem atEachStep_nil {step : ι → σ → Option σ} {state : σ} {p : List ι → ι → σ → σ → Prop} :
    AtEachStep step [] state p := by
  intro past input rest before after split
  simp at split

/-- The first step of a run, and the others. -/
theorem atEachStep_cons {step : ι → σ → Option σ} {input : ι} {inputs : List ι} {state after : σ}
    (stepped : step input state = some after) {p : List ι → ι → σ → σ → Prop} :
    AtEachStep step (input :: inputs) state p ↔
      p [] input state after ∧ AtEachStep step inputs after fun past => p (input :: past) := by
  constructor
  · intro each
    refine ⟨each [] input inputs state after rfl rfl stepped, ?_⟩
    intro past next rest before last split ran further
    exact each (input :: past) next rest before last (by rw [split]; rfl) (by simp [run, stepped, ran]) further
  · rintro ⟨first, others⟩ past next rest before last split ran further
    cases past with
    | nil =>
      obtain ⟨rfl, rfl⟩ := List.cons.inj split
      obtain rfl := Option.some.inj ran
      rw [stepped] at further
      obtain rfl := Option.some.inj further
      exact first
    | cons head past =>
      obtain ⟨rfl, tail⟩ := List.cons.inj split
      rw [run, stepped, Option.bind_some] at ran
      exact others past next rest before last tail ran further

end Bookkeeping
