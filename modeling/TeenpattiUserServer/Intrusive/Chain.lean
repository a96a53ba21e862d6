import Mathlib.Data.List.Basic
import Mathlib.Logic.Function.Basic

/-! Singly linked chains threaded through a memory of cells: one column `next`
of the memory holds, for each cell, the cell that follows it. -/

namespace Intrusive

universe u

variable {Cell : Type u}

/-- Following `next` from `head` visits exactly `cells` and then stands at `stop`. -/
def Chain (next : Cell → Option Cell) : Option Cell → List Cell → Option Cell → Prop
  | head, [], stop => head = stop
  | head, cell :: rest, stop => head = some cell ∧ Chain next (next cell) rest stop

@[simp] theorem chain_nil {next : Cell → Option Cell} {head stop : Option Cell} :
    Chain next head [] stop ↔ head = stop := Iff.rfl

@[simp] theorem chain_cons {next : Cell → Option Cell} {head stop : Option Cell} {cell : Cell}
    {rest : List Cell} :
    Chain next head (cell :: rest) stop ↔ head = some cell ∧ Chain next (next cell) rest stop := Iff.rfl

theorem chain_append {next : Cell → Option Cell} {head stop : Option Cell} {front back : List Cell} :
    Chain next head (front ++ back) stop ↔
      ∃ middle, Chain next head front middle ∧ Chain next middle back stop := by
  induction front generalizing head with
  | nil => simp
  | cons cell rest ih =>
    simp only [List.cons_append, chain_cons, ih]
    constructor
    · rintro ⟨same, middle, first, second⟩
      exact ⟨middle, ⟨same, first⟩, second⟩
    · rintro ⟨middle, ⟨same, first⟩, second⟩
      exact ⟨same, middle, first, second⟩

/-- A chain reads the column only at its own cells. -/
theorem Chain.congr {next other : Cell → Option Cell} {head stop : Option Cell} {cells : List Cell}
    (chain : Chain next head cells stop) (same : ∀ cell ∈ cells, other cell = next cell) :
    Chain other head cells stop := by
  induction cells generalizing head with
  | nil => exact chain
  | cons cell rest ih =>
    refine ⟨chain.1, ?_⟩
    rw [same cell (by simp)]
    exact ih chain.2 (fun later member => same later (by simp [member]))

theorem Chain.head {next : Cell → Option Cell} {head : Option Cell} {cells : List Cell}
    (chain : Chain next head cells none) : head = cells.head? := by
  cases cells with
  | nil => exact chain
  | cons cell rest => exact chain.1

/-- The end of the chain and the column determine the cells that are visited. -/
theorem Chain.unique {next : Cell → Option Cell} {head : Option Cell} {cells others : List Cell}
    (first : Chain next head cells none) (second : Chain next head others none) : cells = others := by
  induction cells generalizing head others with
  | nil =>
    cases others with
    | nil => rfl
    | cons other rest =>
      have empty : head = none := first
      simp [empty] at second
  | cons cell rest ih =>
    cases others with
    | nil =>
      have empty : head = none := second
      simp [empty] at first
    | cons other later =>
      obtain ⟨found, tail⟩ := first
      obtain ⟨same, remaining⟩ := second
      have equal : cell = other := Option.some.inj (found.symm.trans same)
      subst other
      exact congrArg (cell :: ·) (ih tail remaining)

/-- A chain that ends visits no cell twice. -/
theorem Chain.nodup {next : Cell → Option Cell} {head : Option Cell} {cells : List Cell}
    (chain : Chain next head cells none) : cells.Nodup := by
  induction cells generalizing head with
  | nil => exact List.nodup_nil
  | cons cell rest ih =>
    refine List.nodup_cons.mpr ⟨?_, ih chain.2⟩
    intro repeated
    obtain ⟨front, back, split⟩ := List.append_of_mem repeated
    have whole : Chain next (next cell) (front ++ cell :: back) none := split ▸ chain.2
    obtain ⟨middle, _, again⟩ := chain_append.mp whole
    have shorter := Chain.unique whole again.2
    have lengths := congrArg List.length shorter
    simp at lengths
    omega

/-- Follow a column from `head` for at most `fuel` cells. -/
def walk (next : Cell → Option Cell) : Nat → Option Cell → Option (List Cell)
  | _, none => some []
  | 0, some _ => none
  | fuel + 1, some cell => (walk next fuel (next cell)).map (cell :: ·)

theorem Chain.walk_eq {next : Cell → Option Cell} {head : Option Cell} {cells : List Cell}
    (chain : Chain next head cells none) {fuel : Nat} (enough : cells.length ≤ fuel) :
    walk next fuel head = some cells := by
  induction cells generalizing head fuel with
  | nil =>
    have empty : head = none := chain
    subst head
    cases fuel <;> rfl
  | cons cell rest ih =>
    obtain ⟨found, tail⟩ := chain
    subst head
    cases fuel with
    | zero => simp at enough
    | succ fuel => simp [walk, ih tail (by simpa using enough)]

variable [DecidableEq Cell]

theorem Chain.update {next : Cell → Option Cell} {head stop : Option Cell} {cells : List Cell}
    (chain : Chain next head cells stop) {cell : Cell} (outside : cell ∉ cells) (value : Option Cell) :
    Chain (Function.update next cell value) head cells stop :=
  chain.congr fun visited member => by
    rw [Function.update_of_ne]
    rintro rfl
    exact outside member

/-- Redirecting the last cell moves the place where the chain stops. -/
theorem Chain.redirect {next : Cell → Option Cell} {head stop : Option Cell} {front : List Cell}
    {last : Cell} (chain : Chain next head (front ++ [last]) stop) (fresh : last ∉ front)
    (target : Option Cell) :
    Chain (Function.update next last target) head (front ++ [last]) target := by
  obtain ⟨middle, before, at_last⟩ := chain_append.mp chain
  exact chain_append.mpr ⟨middle, before.update fresh target, at_last.1, by simp⟩

end Intrusive
