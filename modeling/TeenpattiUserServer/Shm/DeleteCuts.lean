import Mathlib.Data.List.Basic
import Mathlib.Data.List.Perm.Basic
import TeenpattiUserServer.Shm.NodeCuts

/-! Which writes of a deletion leave a pool that `open` takes although the deleted
node is in no list any more: from the write that takes it out of the add list to
the one that makes a counter disagree. -/

namespace TeenpattiUserServer.Shm.HashMap

open Store Intrusive

variable {Key : Type} {hash : Key → Nat} {para : HashPara} {pool : Pool Key} {layout : Layout}
  {front back cells : List Nat} {tail : Option Nat} {node : Nat} {bad : Nat → Prop}

/-- The counter of used nodes is written last; before it only an emptied bucket is noticed. -/
private theorem deleteFromNodeList_cuts {good : Pool Key → Prop}
    (holds : (pool.bucketLinks (getBucketId hash pool (pool.key node)) tail).Holds (front ++ node :: back))
    (lost : ∀ bucket next prev, (∀ b, bucket b = none ↔ pool.bucket b = none) →
      (∀ other, other ∉ front ++ node :: back → next other = pool.nodeNext other) →
      ¬ good { pool with bucket := bucket, nodeNext := next, nodePrev := prev })
    (emptied : ∀ next prev, (∀ other, other ∉ front ++ node :: back → next other = pool.nodeNext other) →
      good { pool with
        bucket := Function.update pool.bucket (getBucketId hash pool (pool.key node)) none
        nodeNext := next, nodePrev := prev })
    (counted : ∀ bucket next prev, (∀ other, other ∉ front ++ node :: back → next other = pool.nodeNext other) →
      good { pool with usedNodeNum := pool.usedNodeNum + -1, bucket := bucket, nodeNext := next, nodePrev := prev })
    (judged : ∀ k, 0 < k →
      (bad k ↔ k ≤ if pool.nodeNext node ≠ none then 4 else if pool.nodePrev node ≠ none then 3 else 0)) :
    Prog.Cuts good bad (deleteFromNodeList hash node) pool (if pool.nodeNext node ≠ none then 5 else 4) := by
  have before : pool.nodePrev node = front.getLast? := holds.prev_eq
  have after : pool.nodeNext node = back.head? := holds.next_eq
  have atHead : pool.bucket (getBucketId hash pool (pool.key node)) = (front ++ node :: back).head? := holds.head_eq
  have own : node ∈ front ++ node :: back := by simp
  have same : ∀ other, other ∉ front ++ node :: back → pool.nodeNext other = pool.nodeNext other := fun _ _ => rfl
  have linked {next : Nat → Handler} (links : ∀ other, other ∉ front ++ node :: back → next other = pool.nodeNext other)
      {cell : Nat} (inside : cell ∈ front ++ node :: back) (value : Handler) (other : Nat)
      (outside : other ∉ front ++ node :: back) : Function.update next cell value other = pool.nodeNext other := by
    have different : other ≠ cell := by
      rintro rfl
      exact outside inside
    rw [Function.update_of_ne different]
    exact links other outside
  have wrong {k : Nat} (early : bad k) {bucket next prev} (buckets : ∀ b, bucket b = none ↔ pool.bucket b = none)
      (links : ∀ other, other ∉ front ++ node :: back → next other = pool.nodeNext other) :
      good { pool with bucket := bucket, nodeNext := next, nodePrev := prev } ↔ ¬ bad k :=
    iff_of_false (lost bucket next prev buckets links) (not_not.mpr early)
  refine .skipThen rfl (.skipThen rfl ?_)
  cases prev : front.getLast? with
  | none =>
    obtain rfl : front = [] := List.getLast?_eq_none_iff.mp prev
    rw [prev] at before
    have isHead : pool.bucket (getBucketId hash pool (pool.key node)) = some node := atHead
    cases next : back with
    | nil =>
      rw [next, List.head?_nil] at after
      simp only [before, after, ne_eq, not_true_eq_false, if_false] at judged ⊢
      have fine (k : Nat) (positive : 0 < k) : ¬ bad k := by
        rw [judged k positive]
        omega
      refine .skipThen rfl (.skipThen rfl (.skipThen rfl (.skipThen rfl
        (.stepThen (Prog.onlyIf_true (decide_eq_true isHead) _) ?_
        (.stepThen rfl ?_ (.stepThen rfl ?_ (.step rfl ?_)))))))
      · exact iff_of_true (emptied _ _ same) (fine _ (by omega))
      · exact iff_of_true (emptied _ _ (linked same own _)) (fine _ (by omega))
      · exact iff_of_true (emptied _ _ (linked same own _)) (fine _ (by omega))
      · exact iff_of_true (counted _ _ _ (linked same own _)) (fine _ (by omega))
    | cons other later =>
      rw [next, List.head?_cons] at after
      simp only [before, after, ne_eq, reduceCtorEq, not_false_eq_true, if_true] at judged ⊢
      have early (k : Nat) (positive : 0 < k) (bound : k ≤ 4) : bad k := (judged k positive).mpr bound
      have late : ¬ bad 5 := by
        rw [judged 5 (by omega)]
        omega
      have occupied (b : Nat) : Function.update pool.bucket (getBucketId hash pool (pool.key node)) (some other) b = none ↔
          pool.bucket b = none := by
        by_cases here : b = getBucketId hash pool (pool.key node)
        · simp [here, isHead]
        · rw [Function.update_of_ne here]
      refine .skipThen rfl (.stepThen rfl ?_ (.skipThen rfl (.skipThen rfl
        (.stepThen (Prog.onlyIf_true (decide_eq_true isHead) _) ?_
        (.stepThen rfl ?_ (.stepThen rfl ?_ (.step rfl ?_)))))))
      · exact wrong (early _ (by omega) (by omega)) (fun _ => .rfl) same
      · exact wrong (early _ (by omega) (by omega)) occupied same
      · exact wrong (early _ (by omega) (by omega)) occupied (linked same own _)
      · exact wrong (early _ (by omega) (by omega)) occupied (linked same own _)
      · exact iff_of_true (counted _ _ _ (linked same own _)) late
  | some last =>
    obtain ⟨start, rfl⟩ := List.getLast?_eq_some_iff.mp prev
    have notHead : pool.bucket (getBucketId hash pool (pool.key node)) ≠ some node := holds.head_ne
    have inside : last ∈ start ++ [last] ++ node :: back := by simp
    rw [prev] at before
    cases next : back with
    | nil =>
      rw [next, List.head?_nil] at after
      simp only [before, after, ne_eq, not_true_eq_false, reduceCtorEq, not_false_eq_true, if_true, if_false] at judged ⊢
      have early (k : Nat) (positive : 0 < k) (bound : k ≤ 3) : bad k := (judged k positive).mpr bound
      have late : ¬ bad 4 := by
        rw [judged 4 (by omega)]
        omega
      refine .stepThen rfl ?_ (.skipThen rfl (.skipThen rfl (.skipThen rfl
        (.skipThen (Prog.onlyIf_false (decide_eq_false notHead) _)
        (.stepThen rfl ?_ (.stepThen rfl ?_ (.step rfl ?_)))))))
      · exact wrong (early _ (by omega) (by omega)) (fun _ => .rfl) (linked same inside _)
      · exact wrong (early _ (by omega) (by omega)) (fun _ => .rfl) (linked (linked same inside _) own _)
      · exact wrong (early _ (by omega) (by omega)) (fun _ => .rfl) (linked (linked same inside _) own _)
      · exact iff_of_true (counted _ _ _ (linked (linked same inside _) own _)) late
    | cons other later =>
      rw [next, List.head?_cons] at after
      simp only [before, after, ne_eq, reduceCtorEq, not_false_eq_true, if_true] at judged ⊢
      have early (k : Nat) (positive : 0 < k) (bound : k ≤ 4) : bad k := (judged k positive).mpr bound
      have late : ¬ bad 5 := by
        rw [judged 5 (by omega)]
        omega
      refine .stepThen rfl ?_ (.stepThen rfl ?_ (.skipThen rfl (.skipThen rfl
        (.skipThen (Prog.onlyIf_false (decide_eq_false notHead) _)
        (.stepThen rfl ?_ (.stepThen rfl ?_ (.step rfl ?_)))))))
      · exact wrong (early _ (by omega) (by omega)) (fun _ => .rfl) (linked same inside _)
      · exact wrong (early _ (by omega) (by omega)) (fun _ => .rfl) (linked same inside _)
      · exact wrong (early _ (by omega) (by omega)) (fun _ => .rfl) (linked (linked same inside _) own _)
      · exact wrong (early _ (by omega) (by omega)) (fun _ => .rfl) (linked (linked same inside _) own _)
      · exact iff_of_true (counted _ _ _ (linked (linked same inside _) own _)) late

/-- An emptied bucket leaves the counter of used buckets behind. -/
private theorem occupied_emptied {b : Nat} (bound : b < pool.bucketSize) (occupied : pool.bucket b ≠ none) :
    ((List.range pool.bucketSize).countP fun other => Function.update pool.bucket b none other ≠ none) ≠ pool.occupied := by
  have split := List.perm_cons_erase (List.mem_range.mpr bound)
  have others : ((List.range pool.bucketSize).erase b).countP (fun other => Function.update pool.bucket b none other ≠ none) =
      ((List.range pool.bucketSize).erase b).countP fun other => pool.bucket other ≠ none := by
    refine List.countP_congr fun other member => ?_
    have different := (List.Nodup.mem_erase_iff List.nodup_range).mp member
    simp [Function.update_of_ne different.1]
  rw [Pool.occupied, split.countP_eq, split.countP_eq, List.countP_cons, List.countP_cons, others]
  simp [occupied]

private theorem keeps_initNode {free : List Nat} (busy : node ∉ free) :
    Prog.Keeps (fun left : Pool Key => Miscounted para left free) (initNode node) := by
  have kept {change : Pool Key → Pool Key}
      (shape : ∀ left, (change left).nodeTotal = left.nodeTotal ∧ (change left).bucketSize = left.bucketSize)
      (list : ∀ left, (change left).freeList = left.freeList) (used : ∀ left, (change left).usedNodeNum = left.usedNodeNum)
      (links : ∀ left, ∀ other ∈ free, (change left).nodeNext other = left.nodeNext other) :
      Prog.Keeps (fun left : Pool Key => Miscounted para left free) (Prog.write change) :=
    .write fun left off => off.congr (shape left) (list left) (used left) (links left)
  have plain (left : Pool Key) (other : Nat) (_ : other ∈ free) : left.nodeNext other = left.nodeNext other := rfl
  have cleared (left : Pool Key) (other : Nat) (isFree : other ∈ free) :
      Function.update left.nodeNext node none other = left.nodeNext other := by
    refine Function.update_of_ne ?_ _ _
    rintro rfl
    exact busy isFree
  refine .bind (kept (fun _ => ⟨rfl, rfl⟩) (fun _ => rfl) (fun _ => rfl) plain) fun _ => ?_
  refine .bind .touch fun _ => .bind .touch fun _ => .bind .touch fun _ => ?_
  refine .bind (kept (fun _ => ⟨rfl, rfl⟩) (fun _ => rfl) (fun _ => rfl) plain) fun _ => ?_
  refine .bind (kept (fun _ => ⟨rfl, rfl⟩) (fun _ => rfl) (fun _ => rfl) cleared) fun _ => ?_
  refine .bind (kept (fun _ => ⟨rfl, rfl⟩) (fun _ => rfl) (fun _ => rfl) plain) fun _ => ?_
  refine .bind (kept (fun _ => ⟨rfl, rfl⟩) (fun _ => rfl) (fun _ => rfl) plain) fun _ => ?_
  exact kept (fun _ => ⟨rfl, rfl⟩) (fun _ => rfl) (fun _ => rfl) plain

/-- What follows the counter of used nodes in `free_node`. -/
private theorem keeps_freeNode {free : List Nat} (busy : node ∉ free) {after : Pool Key} {start : Pool Key}
    (ran : Prog.exec (freeNode hash node) start = some ((), after)) {middle : Pool Key}
    (unhung : Prog.exec (deleteFromNodeList hash node) start = some ((), middle)) (off : Miscounted para middle free) :
    Miscounted para after free ∧ ∀ count, Prog.Cuts (Reopens para) bad (deleteFromNodeList hash node) start count →
      (∀ k, ¬ bad (count + (k + 1))) → ∃ more, Prog.Cuts (Reopens para) bad (freeNode hash node) start (count + more) := by
  rw [freeNode, Prog.exec_bind, unhung, Option.bind_some] at ran
  have keeps : Prog.Keeps (fun left : Pool Key => Miscounted para left free) (do
      allocator (ChunkAllocator.free (← Prog.read (·.chunkHead node)))
      let bucketListLen ← getBucketListLen (← Prog.read fun pool => getBucketId hash pool (pool.key node))
      Prog.onlyIf (bucketListLen = 0) (addUsedBucketNum (-1))
      initNode node) := by
    refine .bind (.ofSilent (.read _)) fun head => .bind ?_ fun _ => .bind (.ofSilent (.read _)) fun bucketId => ?_
    · exact .within fun left chunks off => off.congr ⟨rfl, rfl⟩ rfl rfl fun _ _ => rfl
    refine .bind (.ofSilent (silent_getBucketListLen bucketId)) fun length => .bind (.onlyIf ?_) fun _ => ?_
    · exact .write fun left off => off.congr ⟨rfl, rfl⟩ rfl rfl fun _ _ => rfl
    · exact keeps_initNode busy
  refine ⟨keeps.exec ran off, fun count cuts quiet => ?_⟩
  obtain ⟨more, rest⟩ : ∃ more, Prog.Cuts (Reopens para) (fun k => bad (count + k)) _ middle more :=
    Prog.Cuts.kept keeps ran off (fun left off => off.reopens) quiet
  exact ⟨more, .bind cuts unhung rest⟩

/-- A deleted node is in no list from the write that takes it out of the add list on;
an emptied bucket or the counter of used nodes gives that away. -/
theorem Laid.delete_cuts (laid : Laid hash pool layout) (shaped : pool.Shaped para) (member : node ∈ layout.recent)
    {start stop : Nat} (starts : start = if pool.addPrev node = none ∧ pool.addNext node ≠ none then 2 else 1)
    (stops : stop = if pool.nodeNext node ≠ none then 9 else if pool.nodePrev node ≠ none then 8 else 5)
    (judged : ∀ k, 0 < k → (bad k ↔ start ≤ k ∧ k < stop)) :
    ∃ count, stop ≤ count ∧ Prog.Cuts (Reopens para) bad (deleteNode hash node) pool count := by
  obtain ⟨final, _, _, ran, laidAfter, _, shape, _⟩ := laid.delete member
  have counted := laid.counted shaped
  have busy := laid.member_busy member
  have bound := laid.buckets.bucketId_lt (pool.key node)
  obtain ⟨front, back, split⟩ := List.append_of_mem member
  have holds : pool.addLinks.Holds (front ++ node :: back) := split ▸ laid.adds
  have early : 5 ≤ stop := by
    rw [stops]
    split_ifs <;> omega
  let cut : Pool Key := pool.withAdd (pool.addLinks.unlink node)
  have missed : Chain cut.addNext cut.addHead (front ++ back) none := holds.unlink.forward
  -- the add list
  have removed : Prog.Cuts (Reopens para) bad (deleteFromAddList node) pool 4 := by
    refine deleteFromAddList_cuts holds (fun links chain => laid.reopens_withAdd shaped chain (split ▸ .refl _))
      (fun links chain => laid.not_reopens_withAdd shaped chain member holds.apart) ?_ fun k low high => ?_
    · rw [judged 1 (by omega), starts]
      by_cases behind : pool.addPrev node = none ∧ pool.addNext node ≠ none
      · rw [if_pos behind]
        exact iff_of_false (by omega) (not_not.mpr behind)
      · rw [if_neg behind]
        exact iff_of_true (by omega) behind
    · rw [judged k (by omega), starts]
      split_ifs <;> omega
  -- the bucket chain
  let bucketId := getBucketId hash pool (pool.key node)
  have here : node ∈ layout.chain bucketId := (laid.buckets.members node).mp member
  obtain ⟨before, behind, chained⟩ := List.append_of_mem here
  let tail := (before ++ node :: behind).getLast?
  have linked : (cut.bucketLinks bucketId tail).Holds (before ++ node :: behind) := by
    have whole := laid.buckets.linked bucketId bound
    rwa [chained] at whole
  have apart (other : Nat) (isFree : other ∈ layout.free) : other ∉ before ++ node :: behind := fun inside =>
    laid.free_not_recent isFree (laid.buckets.hung_of_mem bound (chained ▸ inside))
  have freeChain (next : Nat → Handler)
      (links : ∀ other, other ∉ before ++ node :: behind → next other = cut.nodeNext other) :
      Chain next pool.freeList layout.free none :=
    laid.freeChain.congr fun other isFree => links other (apart other isFree)
  have occupied : pool.bucket bucketId ≠ none := fun none => by
    rw [(laid.buckets.bucket_eq_none_iff bound).mp none] at here
    simp at here
  have offNodes (bucket next prev : Nat → Handler)
      (links : ∀ other, other ∉ before ++ node :: behind → next other = cut.nodeNext other) :
      Miscounted para { cut with
        usedNodeNum := cut.usedNodeNum + -1, bucket := bucket, nodeNext := next, nodePrev := prev } layout.free := by
    refine ⟨shaped.1, shaped.2, freeChain next links, counted.fits, ?_⟩
    have total := counted.nodes
    change pool.usedNodeNum + -1 + _ ≠ (pool.nodeTotal : Int)
    omega
  have unhung : Prog.Cuts (Reopens para) (fun k => bad (4 + k)) (deleteFromNodeList hash node) cut
      (if cut.nodeNext node ≠ none then 5 else 4) := by
    refine deleteFromNodeList_cuts linked (fun bucket next prev buckets links => ?_) (fun next prev links => ?_)
      (fun bucket next prev links => (offNodes bucket next prev links).reopens) fun k positive => ?_
    · have kept : Counted para { cut with bucket := bucket, nodeNext := next, nodePrev := prev } layout.free
          layout.freeChunks := by
        refine ⟨⟨shaped.1, shaped.2, shaped.3, shaped.4⟩, ?_, freeChain next links, counted.nodes, counted.fits,
          counted.chunkChain, counted.chunks, counted.fitsChunks⟩
        have same : ((List.range pool.bucketSize).countP fun b => bucket b ≠ none) = pool.occupied := by
          refine List.countP_congr fun b _ => ?_
          have both : bucket b = none ↔ pool.bucket b = none := buckets b
          simpa using not_congr both
        exact (congrArg Int.ofNat same).trans counted.occupied
      exact kept.not_reopens_of_stray missed (laid.member_lt member) busy holds.apart
    · refine reopens_of_miscounted shaped.1 shaped.2 (freeChain next links) counted.fits fun right => ?_
      exact occupied_emptied bound occupied (Int.ofNat.inj (right.1.trans counted.occupied.symm))
    · rw [judged (4 + k) (by omega), starts, stops]
      change _ ↔ k ≤ if pool.nodeNext node ≠ none then 4 else if pool.nodePrev node ≠ none then 3 else 0
      split_ifs <;> omega
  -- the counter of used nodes is behind until the last write
  obtain ⟨chunks, freed, _⟩ := laid.stored.release member
  have buckets : Buckets hash cut layout.chain layout.recent :=
    laid.buckets.congr rfl rfl rfl rfl rfl fun _ _ => ⟨rfl, rfl⟩
  obtain ⟨emptied, emptiedRun⟩ : ∃ emptied, Prog.exec (freeNode hash node) cut = some ((), emptied) := by
    obtain ⟨_, _, _, _, _, freeRun, _⟩ := buckets.exec_freeNode member laid.recent_length_le
      (show Prog.exec (ChunkAllocator.free (cut.chunkHead node)) cut.chunks = _ from freed)
    exact ⟨_, freeRun⟩
  obtain ⟨middle, unhungRun, off⟩ : ∃ middle, Prog.exec (deleteFromNodeList hash node) cut = some ((), middle) ∧
      Miscounted para middle layout.free := by
    refine ⟨_, exec_deleteFromNodeList tail, offNodes _ _ _ fun other outside => ?_⟩
    exact (linked.unlink_outside (by simp) outside).1
  obtain ⟨offAfter, freeing⟩ : Miscounted para emptied layout.free ∧ ∀ count,
      Prog.Cuts (Reopens para) (fun k => bad (4 + k)) (deleteFromNodeList hash node) cut count →
      (∀ k, ¬ bad (4 + (count + (k + 1)))) →
      ∃ more, Prog.Cuts (Reopens para) (fun k => bad (4 + k)) (freeNode hash node) cut (count + more) :=
    keeps_freeNode busy emptiedRun unhungRun off
  have quiet (k : Nat) (late : stop ≤ k) : ¬ bad k := by
    rw [judged k (by omega)]
    omega
  have stopped : stop ≤ 4 + if cut.nodeNext node ≠ none then 5 else 4 := by
    change stop ≤ 4 + if pool.nodeNext node ≠ none then 5 else 4
    rw [stops]
    split_ifs <;> omega
  obtain ⟨more, freeing⟩ := freeing _ unhung fun k => quiet _ (by omega)
  -- the node enters the free list
  have entering : Miscounted para { emptied with
      nodeNext := Function.update emptied.nodeNext node emptied.freeList } layout.free := by
    refine offAfter.congr ⟨rfl, rfl⟩ rfl rfl fun other isFree => Function.update_of_ne ?_ _ _
    rintro rfl
    exact busy isFree
  have ended := ran
  rw [deleteNode, Prog.exec_bind, exec_deleteFromAddList, Option.bind_some] at ended
  change (Prog.exec (freeNode hash node >>= _) cut) = _ at ended
  rw [Prog.exec_bind, emptiedRun] at ended
  refine ⟨_, ?_, .bind removed (exec_deleteFromAddList node)
    (.bind freeing emptiedRun (.thenSkip (.skipThen rfl (.stepThen rfl ?_ (.step rfl ?_))) rfl rfl))⟩
  · omega
  · exact iff_of_true entering.reopens (quiet _ (by omega))
  · obtain rfl := (Prod.mk.inj (Option.some.inj ended)).2
    exact iff_of_true (laidAfter.reopens (shaped.trans shape)) (quiet _ (by omega))

end TeenpattiUserServer.Shm.HashMap
