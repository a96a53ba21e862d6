import TeenpattiUserServer.Loops.Related

/-! Programs that use a component through its calls alone. What a program does next
may depend on the replies; two components of which one simulates or mirrors the other
give every program the same result. -/

namespace Bookkeeping

universe u v w x y

/-- A program over the calls `κ` with the replies `ρ`. -/
inductive Client (κ : Type u) (ρ : Type v) (α : Type w)
  | done (result : α)
  | ask (call : κ) (next : ρ → Client κ ρ α)

namespace Client

variable {κ : Type u} {ρ : Type v} {α : Type w} {σ : Type x} {τ : Type y}

/-- One program after another, which may depend on its result. -/
def bind {β : Type w} : Client κ ρ α → (α → Client κ ρ β) → Client κ ρ β
  | done result, rest => rest result
  | ask call next, rest => .ask call fun reply => (next reply).bind rest

/-- The result and the final state, unless a call faults. -/
def run (serve : κ → σ → Option (ρ × σ)) : Client κ ρ α → σ → Option (α × σ)
  | done result, state => some (result, state)
  | ask call next, state => (serve call state).bind fun (reply, middle) => (next reply).run serve middle

/-- The same over a component whose calls never fault. -/
def eval (answer : κ → τ → ρ × τ) : Client κ ρ α → τ → α × τ
  | done result, state => (result, state)
  | ask call next, state => (next (answer call state).1).eval answer (answer call state).2

theorem eval_bind {β : Type w} (answer : κ → τ → ρ × τ) (client : Client κ ρ α) (rest : α → Client κ ρ β) (state : τ) :
    (client.bind rest).eval answer state =
      (rest (client.eval answer state).1).eval answer (client.eval answer state).2 := by
  induction client generalizing state with
  | done result => rfl
  | ask call next ih => exact ih _ _

end Client

variable {κ : Type u} {ρ : Type v} {α : Type w} {σ : Type x} {τ : Type y}

/-- Each call on a state that represents another one replies as it does there. -/
def Simulates (serve : κ → σ → Option (ρ × σ)) (answer : κ → τ → ρ × τ) (represents : σ → τ → Prop) : Prop :=
  ∀ {concrete abstract}, represents concrete abstract → ∀ call, ∃ after,
    serve call concrete = some ((answer call abstract).1, after) ∧ represents after (answer call abstract).2

theorem Simulates.client {serve : κ → σ → Option (ρ × σ)} {answer : κ → τ → ρ × τ} {represents : σ → τ → Prop}
    (simulates : Simulates serve answer represents) (client : Client κ ρ α) {concrete : σ} {abstract : τ}
    (represented : represents concrete abstract) : ∃ after,
      client.run serve concrete = some ((client.eval answer abstract).1, after) ∧
        represents after (client.eval answer abstract).2 := by
  induction client generalizing concrete abstract with
  | done result => exact ⟨concrete, rfl, represented⟩
  | ask call next ih =>
    obtain ⟨middle, replied, still⟩ := simulates represented call
    obtain ⟨after, ran, last⟩ := ih _ still
    refine ⟨after, ?_, last⟩
    rw [Client.run, replied, Option.bind_some]
    exact ran

/-- Calls on states that represent each other both fault, or reply the same. -/
def Mirrors (serve : κ → σ → Option (ρ × σ)) (answer : κ → τ → Option (ρ × τ)) (represents : σ → τ → Prop) : Prop :=
  ∀ {concrete abstract}, represents concrete abstract → ∀ call,
    Option.Rel (fun reply other => reply.1 = other.1 ∧ represents reply.2 other.2) (serve call concrete)
      (answer call abstract)

theorem Mirrors.client {serve : κ → σ → Option (ρ × σ)} {answer : κ → τ → Option (ρ × τ)} {represents : σ → τ → Prop}
    (mirrors : Mirrors serve answer represents) (client : Client κ ρ α) {concrete : σ} {abstract : τ}
    (represented : represents concrete abstract) :
    Option.Rel (fun result other => result.1 = other.1 ∧ represents result.2 other.2) (client.run serve concrete)
      (client.run answer abstract) := by
  induction client generalizing concrete abstract with
  | done result => exact .some ⟨rfl, represented⟩
  | ask call next ih =>
    refine Loops.rel_bind (mirrors represented call) fun reply other same => ?_
    rw [same.1]
    exact ih _ same.2

end Bookkeeping
