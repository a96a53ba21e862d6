import Mathlib.Data.List.Basic
import TeenpattiUserServer.Store.Prog

/-! What an interruption leaves behind. A run goes through one store for each of
its writes; when it dies early, the store stays as the last write before left it.
A run is judged write by write, and the judgements of its parts add up. -/

namespace Store.Prog

variable {S T α β : Type}

/-- The store that is left when the run dies after its first `writes` writes. -/
def cutOff (writes : Nat) (program : Prog S α) (store : S) : Option S :=
  (program store).map fun (_, _, stores) => (stores.take writes).getLast?.getD store

theorem exec_of_run {program : Prog S α} {store final : S} {value : α} {stores : List S}
    (ran : program store = some (value, final, stores)) : Prog.exec program store = some (value, final) := by
  simp [Prog.exec, ran]

theorem onlyIf_true {condition : Bool} {body : Prog S Unit} (holds : condition = true) (store : S) :
    Prog.onlyIf condition body store = body store := by
  rw [holds]
  rfl

theorem onlyIf_false {condition : Bool} {body : Prog S Unit} (fails : condition = false) (store : S) :
    Prog.onlyIf condition body store = some ((), store, []) := by
  rw [fails]
  rfl

/-- The program only reads. -/
def Silent (program : Prog S α) : Prop :=
  ∀ store value final stores, program store = some (value, final, stores) → final = store ∧ stores = []

namespace Silent

theorem pure (value : α) : Silent (Pure.pure value : Prog S α) := by
  intro store result final stores ran
  obtain ⟨-, rfl, rfl⟩ : value = result ∧ store = final ∧ [] = stores := by simpa [Pure.pure] using ran
  exact ⟨rfl, rfl⟩

theorem read (field : S → α) : Silent (Prog.read field) := by
  intro store result final stores ran
  obtain ⟨-, rfl, rfl⟩ : field store = result ∧ store = final ∧ [] = stores := by simpa [Prog.read] using ran
  exact ⟨rfl, rfl⟩

theorem fault : Silent (Prog.fault : Prog S α) := fun store value final stores ran => by simp [Prog.fault] at ran

theorem bind {first : Prog S α} {rest : α → Prog S β} (before : Silent first) (after : ∀ value, Silent (rest value)) :
    Silent (first >>= rest) := by
  intro store result final stores ran
  cases started : first store with
  | none => simp [Bind.bind, started] at ran
  | some run =>
    obtain ⟨value, middle, early⟩ := run
    obtain ⟨rfl, rfl⟩ := before store value middle early started
    simp only [Bind.bind, started, Option.map_eq_some_iff, Prod.mk.injEq] at ran
    obtain ⟨⟨_, _, late⟩, continued, rfl, rfl, rfl⟩ := ran
    simpa using after value middle _ _ late continued

theorem ite {condition : Prop} [Decidable condition] {yes no : Prog S α} (first : Silent yes) (second : Silent no) :
    Silent (if condition then yes else no) := by
  split
  · exact first
  · exact second

theorem within {get : S → T} {put : T → S → S} {part : Prog T α} (same : ∀ store, put (get store) store = store)
    (silent : Silent part) : Silent (Prog.within get put part) := by
  intro store value final stores ran
  simp only [Prog.within, Option.map_eq_some_iff, Prod.mk.injEq] at ran
  obtain ⟨⟨_, inner, late⟩, continued, rfl, rfl, rfl⟩ := ran
  obtain ⟨rfl, rfl⟩ := silent _ _ inner late continued
  exact ⟨same store, rfl⟩

theorem run {program : Prog S α} (silent : Silent program) {store final : S} {value : α}
    (ran : Prog.exec program store = some (value, final)) : program store = some (value, store, []) := by
  simp only [Prog.exec, Option.map_eq_some_iff, Prod.mk.injEq] at ran
  obtain ⟨⟨_, _, stores⟩, done, rfl, rfl⟩ := ran
  obtain ⟨rfl, rfl⟩ := silent _ _ _ _ done
  exact done

end Silent

/-- Each write of the program keeps `inv`. -/
def Keeps (inv : S → Prop) (program : Prog S α) : Prop :=
  ∀ store value final stores, program store = some (value, final, stores) → inv store →
    inv final ∧ ∀ left ∈ stores, inv left

namespace Keeps

variable {inv : S → Prop}

theorem ofSilent {program : Prog S α} (silent : Silent program) : Keeps inv program := by
  intro store value final stores ran holds
  obtain ⟨rfl, rfl⟩ := silent store value final stores ran
  exact ⟨holds, by simp⟩

theorem write {change : S → S} (kept : ∀ store, inv store → inv (change store)) : Keeps inv (Prog.write change) := by
  intro store value final stores ran holds
  obtain ⟨rfl, rfl⟩ : change store = final ∧ [change store] = stores := by simpa [Prog.write] using ran
  exact ⟨kept store holds, by simpa using kept store holds⟩

theorem touch : Keeps inv (Prog.touch : Prog S Unit) := write fun _ holds => holds

theorem bind {first : Prog S α} {rest : α → Prog S β} (before : Keeps inv first)
    (after : ∀ value, Keeps inv (rest value)) :
    Keeps inv (first >>= rest) := by
  intro store result final stores ran holds
  cases started : first store with
  | none => simp [Bind.bind, started] at ran
  | some run =>
    obtain ⟨value, middle, early⟩ := run
    have left := before store value middle early started holds
    simp only [Bind.bind, started, Option.map_eq_some_iff, Prod.mk.injEq] at ran
    obtain ⟨⟨_, _, late⟩, continued, rfl, rfl, rfl⟩ := ran
    have right := after value middle _ _ late continued left.1
    refine ⟨right.1, fun each member => ?_⟩
    rcases List.mem_append.mp member with inEarly | inLate
    · exact left.2 each inEarly
    · exact right.2 each inLate

theorem onlyIf {condition : Bool} {body : Prog S Unit} (kept : Keeps inv body) :
    Keeps inv (Prog.onlyIf condition body) := by
  cases condition with
  | false => exact ofSilent (.pure ())
  | true => exact kept

theorem within {get : S → T} {put : T → S → S} {part : Prog T α}
    (kept : ∀ store each, inv store → inv (put each store)) : Keeps inv (Prog.within get put part) := by
  intro store value final stores ran holds
  simp only [Prog.within, Option.map_eq_some_iff, Prod.mk.injEq] at ran
  obtain ⟨⟨_, inner, late⟩, _, rfl, rfl, rfl⟩ := ran
  refine ⟨kept store inner holds, fun left member => ?_⟩
  obtain ⟨each, _, rfl⟩ := List.mem_map.mp member
  exact kept store each holds

theorem exec {program : Prog S α} {store final : S} {value : α} (keeps : Keeps inv program)
    (ran : Prog.exec program store = some (value, final)) (start : inv store) : inv final := by
  simp only [Prog.exec, Option.map_eq_some_iff, Prod.mk.injEq] at ran
  obtain ⟨⟨_, _, stores⟩, done, rfl, rfl⟩ := ran
  exact (keeps _ _ _ _ done start).1

end Keeps

/-- The run ends after `count` writes, and the store after its `k`-th write is good
exactly when `k` is not bad. -/
def Cuts (good : S → Prop) (bad : Nat → Prop) (program : Prog S α) (store : S) (count : Nat) : Prop :=
  ∃ value final stores, program store = some (value, final, stores) ∧ stores.length = count ∧
    ∀ k left, stores[k]? = some left → (good left ↔ ¬ bad (k + 1))

namespace Cuts

variable {good : S → Prop} {bad other : Nat → Prop} {store middle final : S} {count more : Nat} {value : α}

theorem silent {program : Prog S α} (ran : program store = some (value, store, [])) :
    Cuts good bad program store 0 := ⟨value, store, [], ran, rfl, by simp⟩

theorem pure : Cuts good bad (Pure.pure value : Prog S α) store 0 := silent rfl

theorem ends {program : Prog S α} (cuts : Cuts good bad program store count) :
    ∃ value final, Prog.exec program store = some (value, final) := by
  obtain ⟨value, final, stores, ran, _⟩ := cuts
  exact ⟨value, final, exec_of_run ran⟩

theorem bind {first : Prog S α} {rest : α → Prog S β} (before : Cuts good bad first store count)
    (ran : Prog.exec first store = some (value, middle))
    (after : Cuts good (fun k => bad (count + k)) (rest value) middle more) :
    Cuts good bad (first >>= rest) store (count + more) := by
  obtain ⟨_, _, stores, started, length, judged⟩ := before
  obtain ⟨result, final, later, continued, lengthLater, judgedLater⟩ := after
  obtain ⟨rfl, rfl⟩ : _ = value ∧ _ = middle := by simpa [Prog.exec, started] using ran
  refine ⟨result, final, stores ++ later, by simp [Bind.bind, started, continued], by simp [length, lengthLater], ?_⟩
  intro k left found
  by_cases early : k < stores.length
  · exact judged k left (by rwa [List.getElem?_append_left early] at found)
  · rw [List.getElem?_append_right (Nat.le_of_not_lt early)] at found
    have place : count + (k - stores.length + 1) = k + 1 := by omega
    simpa only [place] using judgedLater _ left found

/-- A part that does not write. -/
theorem skipThen {first : Prog S α} {rest : α → Prog S β} (ran : first store = some (value, store, []))
    (after : Cuts good bad (rest value) store count) : Cuts good bad (first >>= rest) store count := by
  have whole : Cuts good bad (first >>= rest) store (0 + count) :=
    (silent ran).bind (exec_of_run ran) (by simpa only [Nat.zero_add] using after)
  rwa [Nat.zero_add] at whole

theorem thenSkip {first : Prog S α} {rest : α → Prog S β} {result : β} (before : Cuts good bad first store count)
    (ran : Prog.exec first store = some (value, middle)) (quiet : rest value middle = some (result, middle, [])) :
    Cuts good bad (first >>= rest) store count := before.bind ran (silent quiet)

/-- A part that writes once. -/
theorem step {program : Prog S α} (ran : program store = some (value, final, [final]))
    (judged : good final ↔ ¬ bad 1) : Cuts good bad program store 1 := by
  refine ⟨value, final, [final], ran, rfl, fun k left found => ?_⟩
  cases k with
  | zero =>
    obtain rfl : final = left := by simpa using found
    exact judged
  | succ k => simp at found

theorem stepThen {first : Prog S α} {rest : α → Prog S β} (ran : first store = some (value, middle, [middle]))
    (judged : good middle ↔ ¬ bad 1) (after : Cuts good (fun k => bad (k + 1)) (rest value) middle count) :
    Cuts good bad (first >>= rest) store (count + 1) := by
  have whole : Cuts good bad (first >>= rest) store (1 + count) :=
    (step ran judged).bind (exec_of_run ran) (by simpa only [Nat.add_comm] using after)
  rwa [Nat.add_comm] at whole

/-- A component's run is judged inside the whole store. -/
theorem within {get : S → T} {put : T → S → S} {part : Prog T α}
    (cuts : Cuts (fun each => good (put each store)) bad part (get store) count) :
    Cuts good bad (Prog.within get put part) store count := by
  obtain ⟨value, inner, stores, ran, length, judged⟩ := cuts
  refine ⟨value, put inner store, stores.map fun each => put each store, by simp [Prog.within, ran],
    by simpa using length, ?_⟩
  intro k left found
  rw [List.getElem?_map, Option.map_eq_some_iff] at found
  obtain ⟨each, here, rfl⟩ := found
  exact judged k each here

theorem recount {program : Prog S α} {total : Nat} (cuts : Cuts good bad program store count)
    (same : count = total) : Cuts good bad program store total := same ▸ cuts

/-- Where every store is good, the writes need not be counted. -/
theorem kept {inv : S → Prop} {program : Prog S α} (keeps : Keeps inv program)
    (ran : Prog.exec program store = some (value, final)) (start : inv store) (fine : ∀ left, inv left → good left)
    (quiet : ∀ k, ¬ bad (k + 1)) : ∃ count, Cuts good bad program store count := by
  simp only [Prog.exec, Option.map_eq_some_iff, Prod.mk.injEq] at ran
  obtain ⟨⟨_, _, stores⟩, done, rfl, rfl⟩ := ran
  refine ⟨stores.length, _, _, stores, done, rfl, fun k left found => iff_of_true ?_ (quiet k)⟩
  exact fine left ((keeps _ _ _ _ done start).2 left (List.mem_of_getElem? found))

/-- The judgement of the writes is the judgement of the interruptions. -/
theorem cutOff {program : Prog S α} (cuts : Cuts good bad program store count)
    (start : good store) (inside : ∀ k, bad k → 0 < k ∧ k < count) (writes : Nat) :
    ∃ left, Prog.cutOff writes program store = some left ∧ (good left ↔ ¬ bad writes) := by
  obtain ⟨value, final, stores, ran, length, judged⟩ := cuts
  refine ⟨(stores.take writes).getLast?.getD store, by simp [Prog.cutOff, ran], ?_⟩
  have fine (k : Nat) (outside : k = 0 ∨ count ≤ k) : ¬ bad k := fun wrong => by
    have between := inside k wrong
    omega
  by_cases early : writes < count
  · cases writes with
    | zero => simpa using iff_of_true start (fine 0 (.inl rfl))
    | succ k =>
      have here : stores[k]? = some stores[k] := List.getElem?_eq_getElem (by omega)
      have last : (stores.take (k + 1)).getLast? = some stores[k] := by
        rw [List.getLast?_eq_getElem?, List.length_take, Nat.min_eq_left (by omega)]
        simp [here]
      simpa [last] using judged k _ here
  · have whole : stores.take writes = stores := List.take_of_length_le (by omega)
    refine iff_of_true ?_ (fine writes (.inr (by omega)))
    rw [whole, List.getLast?_eq_getElem?]
    cases found : stores[stores.length - 1]? with
    | none => simpa using start
    | some left =>
      have bound := (List.getElem?_eq_some_iff.mp found).1
      exact (judged _ left found).mpr (fine _ (.inr (by omega)))

end Cuts

end Store.Prog
