import Mathlib.Logic.Function.Basic

/-! Programs over a store. A run either faults or returns a value, the final
store and the stores it went through, one for each write, so that one program
serves both for its result and for what an interruption can leave behind. -/

namespace Store

universe u v

/-- A deterministic program over the store `S`; `none` is a fault. -/
def Prog (S : Type u) (α : Type v) := S → Option (α × S × List S)

namespace Prog

variable {S T α β : Type}

instance : Monad (Prog S) where
  pure value := fun store => some (value, store, [])
  bind first rest := fun store =>
    match first store with
    | none => none
    | some (value, middle, before) =>
      (rest value middle).map fun (result, final, after) => (result, final, before ++ after)

def read (field : S → α) : Prog S α := fun store => some (field store, store, [])

def write (change : S → S) : Prog S Unit := fun store => some ((), change store, [change store])

/-- A write to a part of the memory that the store does not keep. -/
def touch : Prog S Unit := fun store => some ((), store, [store])

def fault : Prog S α := fun _ => none

/-- Run a program of a component inside the whole store. -/
def within (get : S → T) (put : T → S → S) (part : Prog T α) : Prog S α := fun store =>
  (part (get store)).map fun (value, inner, trace) =>
    (value, put inner store, trace.map fun each => put each store)

def onlyIf (condition : Bool) (body : Prog S Unit) : Prog S Unit :=
  if condition then body else pure ()

def forSome (target : Option α) (body : α → Prog S Unit) : Prog S Unit :=
  match target with
  | some value => body value
  | none => pure ()

/-- `for (i = 0; i < count; i++) body(i)` -/
def upto (body : Nat → Prog S Unit) : Nat → Prog S Unit
  | 0 => pure ()
  | count + 1 => do
    upto body count
    body count

/-- The value and the final store of a run. -/
def exec (program : Prog S α) (store : S) : Option (α × S) :=
  (program store).map fun (value, final, _) => (value, final)

@[simp] theorem exec_pure (value : α) (store : S) :
    exec (pure value : Prog S α) store = some (value, store) := rfl

@[simp] theorem exec_bind (first : Prog S α) (rest : α → Prog S β) (store : S) :
    exec (first >>= rest) store =
      (exec first store).bind fun (value, middle) => exec (rest value) middle := by
  simp only [exec, bind]
  cases first store with
  | none => rfl
  | some run =>
    obtain ⟨value, middle, before⟩ := run
    cases done : rest value middle <;> simp [done]

@[simp] theorem exec_read (field : S → α) (store : S) :
    exec (read field) store = some (field store, store) := rfl

@[simp] theorem exec_write (change : S → S) (store : S) :
    exec (write change) store = some ((), change store) := rfl

@[simp] theorem exec_touch (store : S) : exec touch store = some ((), store) := rfl

@[simp] theorem exec_fault (store : S) : exec (fault : Prog S α) store = none := rfl

@[simp] theorem exec_within (get : S → T) (put : T → S → S) (part : Prog T α) (store : S) :
    exec (within get put part) store =
      (exec part (get store)).map fun (value, inner) => (value, put inner store) := by
  unfold exec within
  cases part (get store) <;> rfl

@[simp] theorem exec_ite (condition : Prop) [Decidable condition] (yes no : Prog S α) (store : S) :
    exec (if condition then yes else no) store =
      if condition then exec yes store else exec no store := by
  split <;> rfl

@[simp] theorem exec_onlyIf (condition : Bool) (body : Prog S Unit) (store : S) :
    exec (onlyIf condition body) store = if condition then exec body store else some ((), store) := by
  cases condition <;> rfl

@[simp] theorem exec_forSome_none (body : α → Prog S Unit) (store : S) :
    exec (forSome none body) store = some ((), store) := rfl

@[simp] theorem exec_forSome_some (value : α) (body : α → Prog S Unit) (store : S) :
    exec (forSome (some value) body) store = exec (body value) store := rfl

/-- A counted loop keeps an indexed invariant that each round carries one further. -/
theorem exec_upto (body : Nat → Prog S Unit) (holds : Nat → S → Prop) (count : Nat) {store : S}
    (initial : holds 0 store)
    (round : ∀ i, i < count → ∀ current, holds i current →
      ∃ after, exec (body i) current = some ((), after) ∧ holds (i + 1) after) :
    ∃ final, exec (upto body count) store = some ((), final) ∧ holds count final := by
  induction count with
  | zero => exact ⟨store, rfl, initial⟩
  | succ count ih =>
    obtain ⟨middle, ran, reached⟩ := ih (fun i bound => round i (by omega))
    obtain ⟨final, last, done⟩ := round count (by omega) middle reached
    exact ⟨final, by simp [upto, ran, last], done⟩

end Prog

end Store
