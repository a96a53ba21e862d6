import Mathlib.Algebra.Group.End
import Mathlib.Data.List.Nodup
import TeenpattiUserServer.Intrusive.Chain

/-! Circular lists: a permutation takes every cell to the one after it, and a list is
what lies on the way around from its head. A cell alone leads to itself. To take a cell
out and to put one in is to multiply by a transposition. -/

namespace Intrusive

open Equiv

universe u

variable {Cell : Type u}

/-- The way around from `head` leads over `cells`. -/
structure Around (turn : Perm Cell) (head : Cell) (cells : List Cell) : Prop where
  path : Chain (fun cell => some (turn cell)) (some head) (head :: cells) (some head)
  apart : (head :: cells).Nodup

variable {turn other : Perm Cell} {head cell start : Cell} {cells starts : List Cell}

theorem around_nil : Around turn head [] ↔ turn head = head := by
  refine ⟨fun around => Option.some.inj around.path.2, fun alone => ⟨⟨rfl, congrArg some alone⟩, by simp⟩⟩

/-- The head leads to the first cell, or to itself. -/
theorem Around.next_head (around : Around turn head cells) : turn head = cells.head?.getD head := by
  cases cells with
  | nil => exact around_nil.mp around
  | cons first rest => exact Option.some.inj around.path.2.1

/-- No cell leads out. -/
theorem Around.closed (around : Around turn head cells) (member : cell ∈ head :: cells) :
    turn cell ∈ head :: cells := by
  obtain ⟨front, back, split⟩ := List.append_of_mem member
  have path := around.path
  rw [split] at path
  obtain ⟨_, _, _, after⟩ := chain_append.mp path
  cases back with
  | nil =>
    rw [Option.some.inj after]
    exact List.mem_cons_self ..
  | cons next rest =>
    rw [Option.some.inj after.1, split]
    simp

/-- The way around depends on its own cells alone. -/
theorem Around.congr (around : Around turn head cells) (same : ∀ cell ∈ head :: cells, other cell = turn cell) :
    Around other head cells :=
  ⟨around.path.congr fun cell member => congrArg some (same cell member), around.apart⟩

variable [DecidableEq Cell]

/-- The cell before `cell` leads past it, and `cell` to itself. -/
def leave (turn : Perm Cell) (cell : Cell) : Perm Cell := turn * swap cell (turn.symm cell)

theorem leave_self (turn : Perm Cell) (cell : Cell) : leave turn cell cell = cell := by
  simp [leave]

theorem leave_of_ne (away : start ≠ cell) (unlinked : turn start ≠ cell) : leave turn cell start = turn start := by
  have before : start ≠ turn.symm cell := fun same => unlinked (by rw [same, apply_symm_apply])
  rw [leave, Perm.mul_apply, swap_apply_of_ne_of_ne away before]

/-- What changes at a cell that leaves: where the cell before it leads, and itself. -/
theorem leave_eq (turn : Perm Cell) (cell : Cell) :
    leave turn cell = Function.update (Function.update turn (turn.symm cell) (turn cell)) cell cell := by
  funext place
  simp only [leave, Perm.mul_apply, swap_apply_def, Function.update_apply]
  split_ifs <;> simp

theorem leave_symm_eq (turn : Perm Cell) (cell : Cell) :
    (leave turn cell).symm = Function.update (Function.update turn.symm (turn cell) (turn.symm cell)) cell cell := by
  funext place
  have back : (leave turn cell).symm place = swap cell (turn.symm cell) (turn.symm place) := rfl
  have after : turn.symm place = cell ↔ place = turn cell := turn.symm_apply_eq
  simp only [back, swap_apply_def, Function.update_apply, after, turn.symm.injective.eq_iff]
  split_ifs with atNext atCell
  · exact turn.symm_apply_eq.mpr (atCell.symm.trans atNext)
  all_goals rfl

/-- A cell alone stays alone. -/
theorem leave_alone (alone : turn start = start) : leave turn cell start = start := by
  by_cases same : start = cell
  · rw [same, leave_self]
  · rw [leave_of_ne same (alone.trans_ne same), alone]

theorem Around.leave_outside (around : Around turn head cells) (outside : cell ∉ head :: cells) :
    Around (leave turn cell) head cells :=
  around.congr fun _ member => leave_of_ne (ne_of_mem_of_not_mem member outside)
    (ne_of_mem_of_not_mem (around.closed member) outside)

private theorem leave_inside {front back : List Cell} (around : Around turn head (front ++ cell :: back)) :
    Around (leave turn cell) head (front ++ back) := by
  obtain ⟨start, last, before⟩ : ∃ start last, head :: front = start ++ [last] :=
    ⟨_, _, (List.dropLast_concat_getLast (List.cons_ne_nil head front)).symm⟩
  have path := around.path
  have apart := around.apart
  rw [← List.cons_append, before] at path apart
  obtain ⟨_, toLast, found, fromCell⟩ := chain_append.mp path
  obtain rfl := found
  obtain ⟨_, _, _, atLast⟩ := chain_append.mp toLast
  have leads : turn last = cell := Option.some.inj atLast
  have fresh : last ∉ start := fun member =>
    (List.nodup_append.mp (List.nodup_append.mp apart).1).2.2 last member last (List.mem_singleton_self _) rfl
  have distinct := List.nodup_append.mp apart
  have own := List.nodup_cons.mp distinct.2.1
  refine ⟨?_, ?_⟩
  · rw [← List.cons_append, before]
    refine chain_append.mpr ⟨some (turn cell), ?_, ?_⟩
    · refine (toLast.redirect fresh (some (turn cell))).congr fun place member => ?_
      by_cases same : place = last
      · subst same
        rw [Function.update_self, ← leads, leave, Perm.mul_apply, symm_apply_apply, swap_apply_right]
      · have away : place ≠ cell := fun here => distinct.2.2 place member cell (List.mem_cons_self ..) here
        have unlinked : turn place ≠ cell := fun here => same (turn.injective (here.trans leads.symm))
        rw [Function.update_of_ne same, leave_of_ne away unlinked]
    · refine fromCell.congr fun place member => ?_
      have away : place ≠ cell := ne_of_mem_of_not_mem member own.1
      have unlinked : turn place ≠ cell := by
        rw [← leads]
        exact fun here => distinct.2.2 last (by simp) place (List.mem_cons_of_mem _ member) (turn.injective here).symm
      rw [leave_of_ne away unlinked]
  · exact around.apart.sublist ((List.append_sublist_append_left _).mpr (List.sublist_cons_self ..) |>.cons_cons head)

/-- A cell leaves whatever list it is on. -/
theorem Around.leave (around : Around turn head cells) (notHead : cell ≠ head) :
    Around (leave turn cell) head (cells.filter (· ≠ cell)) := by
  by_cases member : cell ∈ cells
  · obtain ⟨front, back, rfl⟩ := List.append_of_mem member
    have apart := List.nodup_middle.mp (List.nodup_cons.mp around.apart).2
    have absent : ∀ place ∈ front ++ back, decide (place ≠ cell) = true := fun place inside =>
      decide_eq_true (ne_of_mem_of_not_mem inside (List.nodup_cons.mp apart).1)
    have kept : (front ++ cell :: back).filter (· ≠ cell) = front ++ back := by
      rw [List.filter_append, List.filter_cons_of_neg (by simp), ← List.filter_append, List.filter_eq_self.mpr absent]
    rw [kept]
    exact leave_inside around
  · rw [List.filter_eq_self.mpr fun place inside => decide_eq_true (ne_of_mem_of_not_mem inside member)]
    exact around.leave_outside fun inside => (List.mem_cons.mp inside).elim notHead member

/-- The last cell leads to `cell`, and `cell` to `head`. -/
def join (turn : Perm Cell) (head cell : Cell) : Perm Cell := turn * swap cell (turn.symm head)

theorem join_of_ne (away : start ≠ cell) (unlinked : turn start ≠ head) : join turn head cell start = turn start := by
  have before : start ≠ turn.symm head := fun same => unlinked (by rw [same, apply_symm_apply])
  rw [join, Perm.mul_apply, swap_apply_of_ne_of_ne away before]

theorem join_self (turn : Perm Cell) (head cell : Cell) : join turn head cell cell = head := by
  simp [join]

theorem join_eq (alone : turn cell = cell) (notHead : cell ≠ head) :
    join turn head cell = Function.update (Function.update turn cell head) (turn.symm head) cell := by
  have different : turn.symm head ≠ cell := by
    rw [Ne, turn.symm_apply_eq, alone]
    exact notHead.symm
  funext place
  simp only [join, Perm.mul_apply, swap_apply_def, Function.update_apply]
  split_ifs <;> simp_all

theorem join_symm_eq (alone : turn cell = cell) :
    (join turn head cell).symm = Function.update (Function.update turn.symm head cell) cell (turn.symm head) := by
  funext place
  have back : (join turn head cell).symm place = swap cell (turn.symm head) (turn.symm place) := rfl
  have own : turn.symm place = cell ↔ place = cell := by rw [turn.symm_apply_eq, alone]
  simp only [back, swap_apply_def, Function.update_apply, own, turn.symm.injective.eq_iff]

/-- A cell that was alone comes last. -/
theorem Around.join (around : Around turn head cells) (alone : turn cell = cell) (outside : cell ∉ head :: cells) :
    Around (join turn head cell) head (cells ++ [cell]) := by
  obtain ⟨start, last, before⟩ : ∃ start last, head :: cells = start ++ [last] :=
    ⟨_, _, (List.dropLast_concat_getLast (List.cons_ne_nil head cells)).symm⟩
  have path := around.path
  have apart := around.apart
  rw [before] at path apart
  obtain ⟨_, _, _, atLast⟩ := chain_append.mp path
  have leads : turn last = head := Option.some.inj atLast
  have fresh : last ∉ start := fun member =>
    (List.nodup_append.mp apart).2.2 last member last (List.mem_singleton_self _) rfl
  refine ⟨?_, ?_⟩
  · rw [← List.cons_append, before]
    refine chain_append.mpr ⟨some cell, ?_, rfl, congrArg some (join_self ..)⟩
    refine (path.redirect fresh (some cell)).congr fun place member => ?_
    by_cases same : place = last
    · subst same
      rw [Function.update_self, ← leads, Intrusive.join, Perm.mul_apply, symm_apply_apply, swap_apply_right, alone]
    · have away : place ≠ cell := ne_of_mem_of_not_mem member (before ▸ outside)
      have unlinked : turn place ≠ head := fun here => same (turn.injective (here.trans leads.symm))
      rw [Function.update_of_ne same, join_of_ne away unlinked]
  · rw [← List.cons_append]
    exact List.nodup_append.mpr ⟨around.apart, List.nodup_singleton _, fun place inside new same => by
      rintro rfl
      exact outside ((List.mem_singleton.mp same) ▸ inside)⟩

theorem Around.join_outside (around : Around turn start starts) (cellOutside : cell ∉ start :: starts)
    (headOutside : head ∉ start :: starts) : Around (Intrusive.join turn head cell) start starts :=
  around.congr fun _ member => join_of_ne (ne_of_mem_of_not_mem member cellOutside)
    (ne_of_mem_of_not_mem (around.closed member) headOutside)

end Intrusive
