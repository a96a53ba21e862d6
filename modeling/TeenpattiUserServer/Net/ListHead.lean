import TeenpattiUserServer.Intrusive.Ring

/-! `list.h`: the `struct list_head` that is embedded in the timers and in their lists,
and the calls on it, assignment by assignment. -/

namespace TeenpattiUserServer.Net

open Equiv Intrusive

/-- The two pointers of every `list_head`. -/
structure ListHeads (Node : Type) where
  next : Node → Node
  prev : Node → Node

namespace ListHeads

variable {Node : Type}

def listEmpty [DecidableEq Node] (head : Node) (heads : ListHeads Node) : Bool := heads.next head = head

variable [DecidableEq Node]

def setNext (node target : Node) (heads : ListHeads Node) : ListHeads Node :=
  { heads with next := Function.update heads.next node target }

def setPrev (node target : Node) (heads : ListHeads Node) : ListHeads Node :=
  { heads with prev := Function.update heads.prev node target }

/-- `INIT_LIST_HEAD` -/
def initListHead (ptr : Node) (heads : ListHeads Node) : ListHeads Node := (heads.setNext ptr ptr).setPrev ptr ptr

/-- `__list_add` -/
def listAdd (p prev next : Node) (heads : ListHeads Node) : ListHeads Node :=
  (((heads.setPrev next p).setNext p next).setPrev p prev).setNext prev p

def listAddTail (p head : Node) (heads : ListHeads Node) : ListHeads Node := heads.listAdd p (heads.prev head) head

/-- `__list_del` -/
def listDel (prev next : Node) (heads : ListHeads Node) : ListHeads Node := (heads.setPrev next prev).setNext prev next

def listDelInit (entry : Node) (heads : ListHeads Node) : ListHeads Node :=
  (heads.listDel (heads.prev entry) (heads.next entry)).initListHead entry

def listMoveTail (list head : Node) (heads : ListHeads Node) : ListHeads Node :=
  (heads.listDel (heads.prev list) (heads.next list)).listAddTail list head

/-- The `list_head`s in use lead around as `turn` does, and back. -/
structure Linked (heads : ListHeads Node) (used : Node → Prop) (turn : Perm Node) : Prop where
  next : ∀ node, used node → heads.next node = turn node
  prev : ∀ node, used node → heads.prev node = turn.symm node
  unused : ∀ node, ¬ used node → turn node = node

variable {heads : ListHeads Node} {used : Node → Prop} {turn : Perm Node} {entry head list : Node}

theorem listDelInit_linked (linked : heads.Linked used turn) (inUse : used entry) :
    (heads.listDelInit entry).Linked used (leave turn entry) where
  next node member := by
    rw [leave_eq, ← linked.next entry inUse, ← linked.prev entry inUse]
    simp only [listDelInit, listDel, initListHead, setPrev, setNext, Function.update_apply, linked.next node member]
  prev node member := by
    rw [leave_symm_eq, ← linked.next entry inUse, ← linked.prev entry inUse]
    simp only [listDelInit, listDel, initListHead, setPrev, setNext, Function.update_apply, linked.prev node member]
  unused node absent := leave_alone (linked.unused node absent)

theorem listAddTail_linked (linked : heads.Linked used turn) (inUse : used entry) (headUsed : used head)
    (alone : turn entry = entry) (notHead : entry ≠ head) :
    (heads.listAddTail entry head).Linked used (join turn head entry) where
  next node member := by
    rw [join_eq alone notHead, ← linked.prev head headUsed]
    simp only [listAddTail, listAdd, setPrev, setNext, Function.update_apply, linked.next node member]
  prev node member := by
    rw [join_symm_eq alone, ← linked.prev head headUsed]
    simp only [listAddTail, listAdd, setPrev, setNext, Function.update_apply, linked.prev node member]
  unused node absent := by
    have stays := linked.unused node absent
    have away : node ≠ entry := fun same => absent (same ▸ inUse)
    rw [join_of_ne away fun same => absent ((stays.symm.trans same) ▸ headUsed), stays]

/-- What `listDelInit` writes into the entry itself is written again. -/
theorem listMoveTail_eq (heads : ListHeads Node) (notHead : list ≠ head) :
    heads.listMoveTail list head = (heads.listDelInit list).listAddTail list head := by
  have kept : (heads.listDelInit list).prev head = (heads.listDel (heads.prev list) (heads.next list)).prev head :=
    Function.update_of_ne notHead.symm ..
  rw [listMoveTail, listAddTail, listAddTail, kept]
  simp only [listDelInit, initListHead, listAdd, setPrev, setNext]
  congr 1
  · funext node
    simp only [Function.update_apply]
    split_ifs <;> rfl
  · funext node
    simp only [Function.update_apply]
    split_ifs <;> rfl

theorem listMoveTail_linked (linked : heads.Linked used turn) (inUse : used list) (headUsed : used head)
    (notHead : list ≠ head) : (heads.listMoveTail list head).Linked used (join (leave turn list) head list) := by
  rw [listMoveTail_eq heads notHead]
  exact listAddTail_linked (listDelInit_linked linked inUse) inUse headUsed (leave_self turn list) notHead

/-- A new `list_head`, whatever was in its place. -/
theorem initListHead_linked (linked : heads.Linked used turn) {fresh : Node} (absent : ¬ used fresh) :
    (heads.initListHead fresh).Linked (fun node => node = fresh ∨ used node) turn where
  next node member := by
    have alone := linked.unused fresh absent
    simp only [initListHead, setPrev, setNext, Function.update_apply]
    split_ifs with same
    · rw [same, alone]
    · exact linked.next node (member.resolve_left same)
  prev node member := by
    have alone := turn.symm_apply_eq.mpr (linked.unused fresh absent).symm
    simp only [initListHead, setPrev, setNext, Function.update_apply]
    split_ifs with same
    · rw [same, alone]
    · exact linked.prev node (member.resolve_left same)
  unused node gone := linked.unused node fun inUse => gone (.inr inUse)

end ListHeads

end TeenpattiUserServer.Net
