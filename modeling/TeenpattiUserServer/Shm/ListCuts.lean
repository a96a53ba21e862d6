import Mathlib.Data.List.Basic
import Mathlib.Logic.Function.Basic
import TeenpattiUserServer.Shm.Buckets
import TeenpattiUserServer.Store.Interrupted

/-! The writes of the add list, one by one. While a node is moved there is a
stretch of writes between which the list, read from its head, does not have it. -/

namespace TeenpattiUserServer.Shm.HashMap

open Store Intrusive

variable {Key : Type} {pool : Pool Key} {good : Pool Key → Prop} {bad : Nat → Prop} {node : Nat}
  {front back cells : List Nat}

/-- A node is unlinked by the first write, or by the second when it is the first
of several. -/
theorem deleteFromAddList_cuts (holds : pool.addLinks.Holds (front ++ node :: back))
    (whole : ∀ links : Links Nat, Chain links.next links.head (front ++ node :: back) none → good (pool.withAdd links))
    (stray : ∀ links : Links Nat, Chain links.next links.head (front ++ back) none → ¬ good (pool.withAdd links))
    (first : bad 1 ↔ ¬(pool.addPrev node = none ∧ pool.addNext node ≠ none))
    (rest : ∀ k, 1 < k → k ≤ 4 → bad k) : Prog.Cuts good bad (deleteFromAddList node) pool 4 := by
  have before : pool.addPrev node = front.getLast? := holds.prev_eq
  have after : pool.addNext node = back.head? := holds.next_eq
  have joined := holds.bypass
  have cleared := joined.update holds.apart none
  simp only [Pool.addLinks] at joined cleared
  have second := rest 2 (by omega) (by omega)
  have third := rest 3 (by omega) (by omega)
  have fourth := rest 4 (by omega) (by omega)
  have lost {k : Nat} (wrong : bad k) (links : Links Nat) (chain : Chain links.next links.head (front ++ back) none) :
      good (pool.withAdd links) ↔ ¬ bad k := iff_of_false (stray links chain) (not_not.mpr wrong)
  refine .skipThen rfl ?_
  cases prev : front.getLast? with
  | none =>
    obtain rfl : front = [] := List.getLast?_eq_none_iff.mp prev
    have atHead : pool.addHead = some node := holds.head_eq
    rw [prev] at before
    cases next : back with
    | nil =>
      have atTail : pool.addTail = some node := by
        have last := holds.tail_eq
        rw [next] at last
        exact last
      rw [next, List.head?_nil] at after
      have one : bad 1 := first.mpr (by simp [after])
      simp only [before, after, atHead, Links.setAt_none, if_true] at joined cleared
      simp only [id_eq, before, after, atHead, atTail, ne_eq, not_true_eq_false, and_false, if_false, decide_true]
      exact .skipThen rfl (.skipThen rfl (.stepThen rfl (lost one ⟨_, _, _, _⟩ joined)
        (.stepThen rfl (lost second ⟨_, _, _, _⟩ joined) (.stepThen rfl (lost third ⟨_, _, _, _⟩ joined)
          (.step rfl (lost fourth ⟨_, _, _, _⟩ cleared))))))
    | cons other later =>
      have notTail : pool.addTail ≠ some node := Links.Holds.tail_ne (next ▸ holds)
      rw [next, List.head?_cons] at after
      have fine : ¬ bad 1 := fun wrong => first.mp wrong ⟨before, by simp [after]⟩
      simp only [before, after, atHead, Links.setAt_none, if_true] at joined cleared
      simp only [id_eq, before, after, atHead, reduceCtorEq, ne_eq, not_true_eq_false, false_and, and_false, if_false,
        notTail, decide_true, decide_false]
      exact .skipThen rfl (.stepThen rfl (iff_of_true (whole ⟨_, _, _, _⟩ holds.forward) fine)
        (.stepThen rfl (lost second ⟨_, _, _, _⟩ joined) (.skipThen rfl (.stepThen rfl (lost third ⟨_, _, _, _⟩ joined)
          (.step rfl (lost fourth ⟨_, _, _, _⟩ cleared))))))
  | some last =>
    obtain ⟨start, rfl⟩ := List.getLast?_eq_some_iff.mp prev
    have notHead : pool.addHead ≠ some node := holds.head_ne
    rw [prev] at before
    have one : bad 1 := first.mpr (by simp [before])
    simp only [before, notHead, Links.setAt_some, if_false] at joined cleared
    cases next : back with
    | nil =>
      have atTail : pool.addTail = some node := by
        have last := holds.tail_eq
        rw [next, List.getLast?_concat] at last
        exact last
      rw [next, List.head?_nil] at after
      simp only [id_eq, before, after, atTail, notHead, reduceCtorEq, ne_eq, not_true_eq_false, and_false, if_false,
        decide_true, decide_false]
      exact .stepThen rfl (lost one ⟨_, _, _, _⟩ joined) (.skipThen rfl (.skipThen rfl
        (.stepThen rfl (lost second ⟨_, _, _, _⟩ joined) (.stepThen rfl (lost third ⟨_, _, _, _⟩ joined)
          (.step rfl (lost fourth ⟨_, _, _, _⟩ cleared))))))
    | cons other later =>
      have notTail : pool.addTail ≠ some node := Links.Holds.tail_ne (next ▸ holds)
      rw [next, List.head?_cons] at after
      simp only [id_eq, before, after, notTail, notHead, reduceCtorEq, ne_eq, false_and, if_false, decide_false]
      exact .stepThen rfl (lost one ⟨_, _, _, _⟩ joined) (.stepThen rfl (lost second ⟨_, _, _, _⟩ joined)
        (.skipThen rfl (.skipThen rfl (.stepThen rfl (lost third ⟨_, _, _, _⟩ joined)
          (.step rfl (lost fourth ⟨_, _, _, _⟩ cleared))))))

/-- A node that is not in the list is put in front of it: from the second write on
the list has it. -/
theorem insertAddListHead_cuts {count : Nat} {links : Links Nat}
    (removed : Prog.Cuts good bad (deleteFromAddList node) pool count)
    (unlinked : pool.addLinks.unlink node = links) (holds : links.Holds cells) (fresh : node ∉ cells)
    (stray : ∀ links : Links Nat, Chain links.next links.head cells none → ¬ good (pool.withAdd links))
    (whole : ∀ links : Links Nat, Chain links.next links.head (node :: cells) none → good (pool.withAdd links))
    (first : bad (count + 1)) (rest : ∀ k, 1 < k → k ≤ 4 → ¬ bad (count + k)) :
    Prog.Cuts good bad (insertAddListHead node) pool (count + 4) := by
  have ran : Prog.exec (deleteFromAddList node) pool = _ := exec_deleteFromAddList node
  rw [unlinked] at ran
  have before := holds.forward.update fresh links.head
  have after : Chain (Function.update links.next node links.head) (some node) (node :: cells) none :=
    ⟨rfl, by simpa using before⟩
  have lost (chained : Links Nat) (chain : Chain chained.next chained.head cells none) :
      good (pool.withAdd chained) ↔ ¬ bad (count + 1) := iff_of_false (stray chained chain) (not_not.mpr first)
  have fine {k : Nat} (bound : 1 < k ∧ k ≤ 4) (chained : Links Nat)
      (chain : Chain chained.next chained.head (node :: cells) none) :
      good (pool.withAdd chained) ↔ ¬ bad (count + k) := iff_of_true (whole chained chain) (rest k bound.1 bound.2)
  refine removed.bind ran (.skipThen rfl (.stepThen rfl (lost ⟨_, _, _, _⟩ before)
    (.stepThen rfl (fine (k := 2) (by omega) ⟨_, _, _, _⟩ after) (.skipThen rfl ?_))))
  have third := fine (k := 3) (by omega)
  have fourth := fine (k := 4) (by omega)
  cases cells with
  | nil =>
    have noHead : links.head = none := holds.head_eq
    have noTail : links.tail = none := holds.tail_eq
    have noNext : Function.update links.next node links.head node = none := by simp [noHead]
    simp only [Pool.withAdd, noTail, decide_true]
    refine .stepThen rfl (third ⟨_, _, _, _⟩ after) (.stepThen rfl (fourth ⟨_, _, _, _⟩ after) (.skipThen rfl ?_))
    simp only [noNext]
    exact .pure
  | cons other later =>
    have atHead : links.head = some other := holds.head_eq
    have someTail : links.tail ≠ none := by simp [holds.tail_none_iff]
    have someNext : Function.update links.next node links.head node = some other := by simp [atHead]
    simp only [Pool.withAdd, someTail, decide_false]
    refine .skipThen rfl (.stepThen rfl (third ⟨_, _, _, _⟩ after) (.skipThen rfl ?_))
    simp only [someNext]
    exact .step rfl (fourth ⟨_, _, _, _⟩ after)

end TeenpattiUserServer.Shm.HashMap
