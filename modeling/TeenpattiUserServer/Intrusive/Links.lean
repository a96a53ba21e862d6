import Mathlib.Data.List.Basic
import Mathlib.Logic.Function.Basic
import TeenpattiUserServer.Intrusive.Chain

/-! Doubly linked lists: two columns of a memory of cells and the two ends.
A list is one chain read forwards and the same cells read backwards, so each
edit is proved once, for the forward chain, and reversed for the other. -/

namespace Intrusive

universe u

variable {Cell : Type u}

structure Links (Cell : Type u) where
  head : Option Cell
  tail : Option Cell
  next : Cell → Option Cell
  prev : Cell → Option Cell

namespace Links

/-- The links thread exactly `cells`, in this order. -/
structure Holds (links : Links Cell) (cells : List Cell) : Prop where
  forward : Chain links.next links.head cells none
  backward : Chain links.prev links.tail cells.reverse none

def flip (links : Links Cell) : Links Cell := ⟨links.tail, links.head, links.prev, links.next⟩

theorem Holds.flip {links : Links Cell} {cells : List Cell} (holds : links.Holds cells) :
    links.flip.Holds cells.reverse :=
  ⟨holds.backward, by rw [List.reverse_reverse]; exact holds.forward⟩

theorem Holds.nodup {links : Links Cell} {cells : List Cell} (holds : links.Holds cells) :
    cells.Nodup := holds.forward.nodup

theorem Holds.head_eq {links : Links Cell} {cells : List Cell} (holds : links.Holds cells) :
    links.head = cells.head? := holds.forward.head

theorem Holds.tail_eq {links : Links Cell} {cells : List Cell} (holds : links.Holds cells) :
    links.tail = cells.getLast? := by
  rw [holds.backward.head, List.head?_reverse]

theorem Holds.tail_none_iff {links : Links Cell} {cells : List Cell} (holds : links.Holds cells) :
    links.tail = none ↔ cells = [] := by
  rw [holds.tail_eq, List.getLast?_eq_none_iff]

/-- A list depends on its ends and on the links of its own cells. -/
theorem Holds.congr {links other : Links Cell} {cells : List Cell} (holds : links.Holds cells)
    (head : other.head = links.head) (tail : other.tail = links.tail)
    (same : ∀ cell ∈ cells, other.next cell = links.next cell ∧ other.prev cell = links.prev cell) :
    other.Holds cells := by
  refine ⟨?_, ?_⟩
  · rw [head]
    exact holds.forward.congr fun cell member => (same cell member).1
  · rw [tail]
    exact holds.backward.congr fun cell member => (same cell (by simpa using member)).2

theorem Holds.split {links : Links Cell} {front back : List Cell} {cell : Cell}
    (holds : links.Holds (front ++ cell :: back)) :
    Chain links.next links.head front (some cell) ∧ Chain links.next (links.next cell) back none := by
  obtain ⟨middle, before, after⟩ := chain_append.mp holds.forward
  obtain ⟨same, rest⟩ := after
  exact ⟨same ▸ before, rest⟩

theorem Holds.prev_eq {links : Links Cell} {front back : List Cell} {cell : Cell}
    (holds : links.Holds (front ++ cell :: back)) : links.prev cell = front.getLast? := by
  have reversed : links.flip.Holds (back.reverse ++ cell :: front.reverse) := by
    simpa using holds.flip
  rw [← List.head?_reverse]
  exact reversed.split.2.head

theorem Holds.next_eq {links : Links Cell} {front back : List Cell} {cell : Cell}
    (holds : links.Holds (front ++ cell :: back)) : links.next cell = back.head? :=
  holds.split.2.head

theorem Holds.neighbours_mem {links : Links Cell} {cells : List Cell} {cell other : Cell}
    (holds : links.Holds cells) (member : cell ∈ cells)
    (near : links.next cell = some other ∨ links.prev cell = some other) : other ∈ cells := by
  obtain ⟨front, back, rfl⟩ := List.append_of_mem member
  rw [holds.next_eq, holds.prev_eq] at near
  rcases near with after | before
  · simp [List.mem_of_mem_head? after]
  · simp [List.mem_of_getLast? before]

theorem Holds.apart {links : Links Cell} {front back : List Cell} {cell : Cell}
    (holds : links.Holds (front ++ cell :: back)) : cell ∉ front ++ back := by
  have unique := List.nodup_append.mp holds.nodup
  have own := List.nodup_cons.mp unique.2.1
  have absent : cell ∉ front := fun member => unique.2.2 cell member cell (by simp) rfl
  simp [absent, own.1]

/-- A cell with a cell before it is not the first. -/
theorem Holds.head_ne {links : Links Cell} {start back : List Cell} {last cell : Cell}
    (holds : links.Holds (start ++ [last] ++ cell :: back)) : links.head ≠ some cell := by
  have absent : cell ∉ start ++ [last] := fun member => holds.apart (List.mem_append_left _ member)
  rw [holds.head_eq]
  intro same
  cases start with
  | nil => simp at same; simp [same] at absent
  | cons first rest => simp at same; simp [same] at absent

theorem Holds.tail_ne {links : Links Cell} {front back : List Cell} {cell following : Cell}
    (holds : links.Holds (front ++ cell :: following :: back)) : links.tail ≠ some cell := by
  have flipped : links.flip.Holds (back.reverse ++ [following] ++ cell :: front.reverse) := by
    simpa using holds.flip
  exact flipped.head_ne

variable [DecidableEq Cell]

/-- Write `value` at the cell a link names, if it names one. -/
def setAt (column : Cell → Option Cell) (target value : Option Cell) : Cell → Option Cell :=
  match target with
  | some cell => Function.update column cell value
  | none => column

@[simp] theorem setAt_none (column : Cell → Option Cell) (value : Option Cell) :
    setAt column none value = column := rfl

@[simp] theorem setAt_some (column : Cell → Option Cell) (cell : Cell) (value : Option Cell) :
    setAt column (some cell) value = Function.update column cell value := rfl

theorem setAt_of_ne {column : Cell → Option Cell} {target value : Option Cell} {cell : Cell}
    (other : target ≠ some cell) : setAt column target value cell = column cell := by
  cases target with
  | none => rfl
  | some written =>
    have different : cell ≠ written := fun same => other (congrArg some same.symm)
    simp [different]

/-- Take `cell` out: join its neighbours, move the ends past it, clear its own links. -/
def unlink (links : Links Cell) (cell : Cell) : Links Cell where
  head := if links.head = some cell then links.next cell else links.head
  tail := if links.tail = some cell then links.prev cell else links.tail
  next := Function.update (setAt links.next (links.prev cell) (links.next cell)) cell none
  prev := Function.update (setAt links.prev (links.next cell) (links.prev cell)) cell none

/-- The link or the head that led to `cell` now leads past it. -/
theorem Holds.bypass {links : Links Cell} {front back : List Cell} {cell : Cell}
    (holds : links.Holds (front ++ cell :: back)) :
    Chain (setAt links.next (links.prev cell) (links.next cell))
      (if links.head = some cell then links.next cell else links.head) (front ++ back) none := by
  obtain ⟨before, after⟩ := holds.split
  cases final : front.getLast? with
  | none =>
    have empty : front = [] := List.getLast?_eq_none_iff.mp final
    subst front
    have first : links.head = some cell := before
    simpa [holds.prev_eq, first] using after
  | some last =>
    obtain ⟨start, shape⟩ := List.getLast?_eq_some_iff.mp final
    subst front
    have unique := List.nodup_append.mp holds.nodup
    have lastFresh : last ∉ start := fun member =>
      (List.nodup_append.mp unique.1).2.2 last member last (by simp) rfl
    have lastBack : last ∉ back := fun member =>
      unique.2.2 last (by simp) last (List.mem_cons_of_mem _ member) rfl
    simp only [holds.prev_eq, final, setAt_some, holds.head_ne, ite_false]
    exact chain_append.mpr ⟨_, before.redirect lastFresh _, after.update lastBack _⟩

private theorem unlink_forward {links : Links Cell} {front back : List Cell} {cell : Cell}
    (holds : links.Holds (front ++ cell :: back)) :
    Chain (links.unlink cell).next (links.unlink cell).head (front ++ back) none :=
  holds.bypass.update holds.apart none

/-- Unlinking a member leaves the other members linked in their order. -/
theorem Holds.unlink {links : Links Cell} {front back : List Cell} {cell : Cell}
    (holds : links.Holds (front ++ cell :: back)) :
    (links.unlink cell).Holds (front ++ back) := by
  refine ⟨unlink_forward holds, ?_⟩
  have reversed : links.flip.Holds (back.reverse ++ cell :: front.reverse) := by
    simpa using holds.flip
  rw [List.reverse_append]
  exact unlink_forward reversed

theorem Holds.unlink_mem {links : Links Cell} {cells : List Cell} {cell : Cell}
    (holds : links.Holds cells) (member : cell ∈ cells) :
    (links.unlink cell).Holds (cells.erase cell) := by
  obtain ⟨front, back, rfl⟩ := List.append_of_mem member
  have absent : cell ∉ front := fun twice =>
    (List.nodup_append.mp holds.nodup).2.2 cell twice cell (by simp) rfl
  rw [List.erase_append_right _ absent, List.erase_cons_head]
  exact holds.unlink

/-- Cells outside the list keep their links when a member is taken out. -/
theorem Holds.unlink_outside {links : Links Cell} {cells : List Cell} {cell other : Cell}
    (holds : links.Holds cells) (member : cell ∈ cells) (outside : other ∉ cells) :
    (links.unlink cell).next other = links.next other ∧
      (links.unlink cell).prev other = links.prev other := by
  have different : other ≠ cell := fun same => outside (same ▸ member)
  have beforeOther : links.prev cell ≠ some other := fun near =>
    outside (holds.neighbours_mem member (.inr near))
  have afterOther : links.next cell ≠ some other := fun near =>
    outside (holds.neighbours_mem member (.inl near))
  simp [Links.unlink, Function.update_of_ne different, setAt_of_ne beforeOther, setAt_of_ne afterOther]

/-- Unlinking a cell with no neighbours that is at neither end changes nothing. -/
theorem unlink_idle {links : Links Cell} {cell : Cell} (noNext : links.next cell = none)
    (noPrev : links.prev cell = none) (notHead : links.head ≠ some cell)
    (notTail : links.tail ≠ some cell) : links.unlink cell = links := by
  simp [unlink, noNext, noPrev, notHead, notTail, Function.update_eq_self_iff.mpr]

/-- Put `cell` in front of the list. -/
def pushFront (links : Links Cell) (cell : Cell) : Links Cell where
  head := some cell
  tail := if links.tail = none then some cell else links.tail
  next := Function.update links.next cell links.head
  prev := setAt (Function.update links.prev cell none) links.head (some cell)

theorem Holds.pushFront {links : Links Cell} {cells : List Cell} {cell : Cell}
    (holds : links.Holds cells) (fresh : cell ∉ cells) :
    (links.pushFront cell).Holds (cell :: cells) := by
  constructor
  · exact ⟨rfl, by simpa [Links.pushFront] using holds.forward.update fresh links.head⟩
  · cases cells with
    | nil =>
      have noHead : links.head = none := holds.forward
      have noTail : links.tail = none := by simpa using holds.backward
      simp [Links.pushFront, noHead, noTail]
    | cons first rest =>
      have atHead : links.head = some first := holds.head_eq
      have hasTail : links.tail ≠ none := by simp [holds.tail_none_iff]
      have unique := List.nodup_cons.mp holds.nodup
      have old : Chain (Function.update links.prev cell none) links.tail (rest.reverse ++ [first]) none := by
        have outside : cell ∉ (first :: rest).reverse := by simpa [and_comm] using fresh
        have backward := holds.backward.update outside none
        simpa using backward
      have linked := old.redirect (by simpa using unique.1) (some cell)
      have different : cell ≠ first := by rintro rfl; simp at fresh
      simp only [Links.pushFront, atHead, hasTail, ite_false, setAt_some, List.reverse_cons]
      exact chain_append.mpr ⟨some cell, linked, rfl, by simp [different]⟩

theorem Holds.pushFront_outside {links : Links Cell} {cells : List Cell} {cell other : Cell}
    (holds : links.Holds cells) (different : other ≠ cell) (outside : other ∉ cells) :
    (links.pushFront cell).next other = links.next other ∧
      (links.pushFront cell).prev other = links.prev other := by
  have notHead : links.head ≠ some other := by
    rw [holds.head_eq]
    exact fun first => outside (List.mem_of_mem_head? first)
  simp [Links.pushFront, Function.update_of_ne different, setAt_of_ne notHead]

end Links

end Intrusive
