import Mathlib.Data.List.Basic
import Mathlib.Data.List.Perm.Basic
import TeenpattiUserServer.Shm.ChunkCuts
import TeenpattiUserServer.Shm.ListCuts
import TeenpattiUserServer.Shm.Reopen

/-! Which writes of a search, an insertion and a deletion leave a pool that `open`
takes without noticing that a used node is missing from the add list. -/

namespace TeenpattiUserServer.Shm

open Store Intrusive HashMap

variable {Key : Type} {hash : Key → Nat} {para : HashPara} {pool : Pool Key} {layout : Layout}
  {free freeChunks cells : List Nat} {links : Links Nat} {node : Nat} {bad : Nat → Prop}

theorem Counted.withAdd (counted : Counted para pool free freeChunks) (links : Links Nat) :
    Counted para (pool.withAdd links) free freeChunks where
  shaped := ⟨counted.shaped.1, counted.shaped.2, counted.shaped.3, counted.shaped.4⟩
  occupied := counted.occupied
  nodeChain := counted.nodeChain
  nodes := counted.nodes
  fits := counted.fits
  chunkChain := counted.chunkChain
  chunks := counted.chunks
  fitsChunks := counted.fitsChunks

/-- The node found under a key. -/
def Pool.seat [DecidableEq Key] (hash : Key → Nat) (pool : Pool Key) (key : Key) : Option Nat :=
  ((walk pool.nodeNext pool.nodeTotal (pool.bucket (getBucketId hash pool key))).getD []).find?
    fun node => pool.key node = key

namespace HashMap

namespace Laid

theorem member_lt (laid : Laid hash pool layout) (member : node ∈ layout.recent) : node < pool.nodeTotal :=
  List.mem_range.mp (laid.nodes.mem_iff.mp (List.mem_append_left _ member))

theorem member_busy (laid : Laid hash pool layout) (member : node ∈ layout.recent) : node ∉ layout.free :=
  fun isFree => laid.free_not_recent isFree member

/-- The order of the add list and its links backwards do not matter. -/
theorem reopens_withAdd (laid : Laid hash pool layout) (shaped : pool.Shaped para)
    (chain : Chain links.next links.head cells none) (same : cells.Perm layout.recent) :
    Reopens para (pool.withAdd links) := by
  rw [((laid.counted shaped).withAdd links).reopens_iff]
  have partitioned := laid.partitioned
  refine ⟨{ layout with recent := cells }, ⟨?_, ?_, ?_, chain, partitioned.freeNodes, partitioned.buckets, ?_,
    partitioned.freeChunks⟩⟩
  · exact (same.append_right layout.free).trans partitioned.nodes
  · exact partitioned.hung.trans same.symm
  · exact ((same.flatMap_right layout.block).append_right layout.freeChunks).trans partitioned.cells
  · exact fun node member => partitioned.blocks node (same.mem_iff.mp member)

theorem not_reopens_withAdd (laid : Laid hash pool layout) (shaped : pool.Shaped para)
    (chain : Chain links.next links.head cells none) (member : node ∈ layout.recent) (stray : node ∉ cells) :
    ¬ Reopens para (pool.withAdd links) :=
  ((laid.counted shaped).withAdd links).not_reopens_of_stray chain (laid.member_lt member) (laid.member_busy member)
    stray

/-- A used node that is moved to the front is out of the list from the write that
unlinks it to the sixth. -/
theorem touch_cuts (laid : Laid hash pool layout) (shaped : pool.Shaped para) (member : node ∈ layout.recent)
    (first : bad 1 ↔ ¬(pool.addPrev node = none ∧ pool.addNext node ≠ none)) (torn : ∀ k, 1 < k → k < 6 → bad k)
    (fine : ∀ k, 6 ≤ k → k ≤ 8 → ¬ bad k) : Prog.Cuts (Reopens para) bad (insertAddListHead node) pool 8 := by
  obtain ⟨front, back, shape⟩ := List.append_of_mem member
  have holds : pool.addLinks.Holds (front ++ node :: back) := shape ▸ laid.adds
  have fresh := holds.apart
  have moved : (node :: (front ++ back)).Perm layout.recent := by
    rw [shape]
    exact List.perm_middle.symm
  have stray (links : Links Nat) (chain : Chain links.next links.head (front ++ back) none) :=
    laid.not_reopens_withAdd shaped chain member fresh
  have removed : Prog.Cuts (Reopens para) bad (deleteFromAddList node) pool 4 :=
    deleteFromAddList_cuts holds (fun links chain => laid.reopens_withAdd shaped chain (shape ▸ .refl _)) stray
      first fun k low high => torn k low (by omega)
  exact insertAddListHead_cuts removed rfl holds.unlink fresh stray
    (fun links chain => laid.reopens_withAdd shaped chain moved) (torn 5 (by omega) (by omega))
    fun k low high => fine (4 + k) (by omega) (by omega)

theorem walk_seat [DecidableEq Key] (laid : Laid hash pool layout) (key : Key) :
    pool.seat hash key = (layout.chain (getBucketId hash pool key)).find? fun node => pool.key node = key := by
  rw [Pool.seat, laid.walk_bucket key, Option.getD_some]

theorem seat_mem [DecidableEq Key] (laid : Laid hash pool layout) {key : Key}
    (seated : pool.seat hash key = some node) : node ∈ layout.recent := by
  rw [laid.walk_seat] at seated
  exact laid.buckets.hung_of_mem (laid.buckets.bucketId_lt key) (List.mem_of_find?_eq_some seated)

end Laid

/-- A hit notes the time and counts the access before it moves the node. -/
private theorem findLoop_cuts [DecidableEq Key] {good : Pool Key → Prop} {key : Key} {head : Handler} {fuel count : Nat}
    (chain : Chain pool.nodeNext head cells none) (enough : cells.length ≤ fuel)
    (hit : (cells.find? fun cell => pool.key cell = key) = some node) (start : good pool) (time : ¬ bad 1)
    (times : ¬ bad 2) (touched : Prog.Cuts good (fun k => bad (k + 2)) (insertAddListHead node) pool count) :
    Prog.Cuts good bad (findLoop key fuel head) pool (count + 2) := by
  induction cells generalizing head fuel with
  | nil => simp at hit
  | cons cell rest ih =>
    obtain ⟨rfl, tail⟩ := chain
    cases fuel with
    | zero => simp at enough
    | succ fuel =>
      refine .skipThen rfl ?_
      by_cases same : pool.key cell = key
      · obtain rfl : cell = node := by simpa [same] using hit
        simp only [same, if_true]
        exact .stepThen rfl (iff_of_true start time) (.stepThen rfl (iff_of_true start times)
          (touched.thenSkip (exec_insertAddListHead cell) rfl))
      · simp only [same, if_false]
        exact .skipThen rfl (ih tail (by simpa using enough) (by simpa [same] using hit))

private theorem findLoop_misses [DecidableEq Key] {key : Key} {head : Handler} {fuel : Nat}
    (chain : Chain pool.nodeNext head cells none) (enough : cells.length ≤ fuel)
    (miss : (cells.find? fun cell => pool.key cell = key) = none) :
    findLoop key fuel head pool = some (none, pool, []) := by
  induction cells generalizing head fuel with
  | nil =>
    have atEnd : head = none := chain
    subst head
    cases fuel <;> rfl
  | cons cell rest ih =>
    obtain ⟨rfl, tail⟩ := chain
    cases fuel with
    | zero => simp at enough
    | succ fuel =>
      have different : ¬ pool.key cell = key := by
        intro same
        simp [same] at miss
      have later := ih tail (by simpa using enough) (by simpa [different] using miss)
      simp [findLoop, Bind.bind, Prog.read, different, later]

namespace Laid

variable [DecidableEq Key]

theorem findNode_cuts (laid : Laid hash pool layout) {good : Pool Key → Prop} {key : Key} {count : Nat}
    (seated : pool.seat hash key = some node) (start : good pool) (time : ¬ bad 1) (times : ¬ bad 2)
    (touched : Prog.Cuts good (fun k => bad (k + 2)) (insertAddListHead node) pool count) :
    Prog.Cuts good bad (findNode hash key) pool (count + 2) := by
  rw [laid.walk_seat] at seated
  have bound := laid.buckets.bucketId_lt key
  have enough := (laid.buckets.chain_length_le bound).trans laid.recent_length_le
  exact .skipThen rfl (findLoop_cuts (laid.buckets.linked _ bound).forward enough seated start time times touched)

theorem findNode_misses (laid : Laid hash pool layout) {key : Key} (missing : pool.seat hash key = none) :
    findNode hash key pool = some (none, pool, []) := by
  rw [laid.walk_seat] at missing
  have bound := laid.buckets.bucketId_lt key
  have enough := (laid.buckets.chain_length_le bound).trans laid.recent_length_le
  have looped := findLoop_misses (laid.buckets.linked _ bound).forward enough missing
  simp only [Pool.bucketLinks] at looped
  simp [findNode, Bind.bind, Prog.read, looped]

end Laid

theorem silent_getBucketListLen (bucketId : Nat) : Prog.Silent (getBucketListLen bucketId : Run Key Int) :=
  (Prog.Silent.read _).bind fun _ => ChunkAllocator.silent_countLoop _ _ _

/-- What is written before the counter of used nodes is noticed. -/
private theorem Miscounted.early {rest : List Nat} {k : Nat} (off : Miscounted para pool rest) (fresh : node ∉ rest)
    (quiet : ¬ bad k) (after : Pool Key)
    (shape : after.nodeTotal = pool.nodeTotal ∧ after.bucketSize = pool.bucketSize)
    (list : after.freeList = pool.freeList) (used : after.usedNodeNum = pool.usedNodeNum)
    (links : ∀ other, other ≠ node → after.nodeNext other = pool.nodeNext other) : Reopens para after ↔ ¬ bad k := by
  refine iff_of_true (off.congr shape list used fun other inside => links other ?_).reopens quiet
  rintro rfl
  exact fresh inside

private theorem insertNodeList_cuts {rest : List Nat} {more : Nat} (off : Miscounted para pool rest)
    (fresh : node ∉ rest)
    (counted : more = if pool.bucket (getBucketId hash pool (pool.key node)) = none then 1 else 2)
    (quiet : ∀ k, 0 < k → k < more + 3 → ¬ bad k)
    (last : ∀ after, Prog.exec (insertNodeList hash node) pool = some ((), after) →
      (Reopens para after ↔ ¬ bad (more + 3))) :
    Prog.Cuts (Reopens para) bad (insertNodeList hash node) pool (more + 3) := by
  have positive : 0 < more := by
    rw [counted]
    split <;> omega
  have linked (value : Handler) (other : Nat) (different : other ≠ node) :
      Function.update pool.nodeNext node value other = pool.nodeNext other := Function.update_of_ne different _ _
  have first := Miscounted.early off fresh (quiet 1 (by omega) (by omega))
  have second := Miscounted.early off fresh (quiet 2 (by omega) (by omega))
  have third := Miscounted.early off fresh (quiet 3 (by omega) (by omega))
  refine .skipThen rfl (.skipThen rfl (.stepThen rfl (first _ ⟨rfl, rfl⟩ rfl rfl (linked _))
    (.stepThen rfl (second _ ⟨rfl, rfl⟩ rfl rfl (linked _))
    (.stepThen rfl (third _ ⟨rfl, rfl⟩ rfl rfl (linked _)) (.skipThen rfl ?_)))))
  cases here : pool.bucket (getBucketId hash pool (pool.key node)) with
  | none =>
    obtain rfl : more = 1 := by simpa [here] using counted
    simp only [Function.update_self, here]
    refine .skipThen rfl (.step rfl (last _ ?_))
    simp [insertNodeList, setNodeNext, setNodePrev, setBucket, addUsedNodeNum, here]
  | some other =>
    obtain rfl : more = 2 := by simpa [here] using counted
    have fourth := Miscounted.early off fresh (quiet 4 (by omega) (by omega))
    simp only [Function.update_self, here]
    refine .stepThen rfl (fourth _ ⟨rfl, rfl⟩ rfl rfl (linked _)) (.step rfl (last _ ?_))
    simp [insertNodeList, setNodeNext, setNodePrev, setBucket, addUsedNodeNum, here]

/-- While a node is hung into its bucket the counters disagree; the last write
settles them. -/
private theorem useNode_cuts {rest : List Nat} {key : Key} {chunkLen : Nat} {chunkHead : Handler}
    (off : Miscounted para pool rest) (fresh : node ∉ rest)
    (chain : Chain pool.nodeNext (pool.bucket (getBucketId hash pool key)) cells none)
    (enough : cells.length ≤ pool.nodeTotal) (quiet : ∀ k, 0 < k → k < 10 → ¬ bad k)
    (last : ∀ after, Prog.exec (useNode hash node key chunkLen chunkHead) pool = some ((), after) →
      (Reopens para after ↔ ¬ bad 10)) :
    Prog.Cuts (Reopens para) bad (useNode hash node key chunkLen chunkHead) pool 10 := by
  let named : Pool Key := { pool with
    key := Function.update pool.key node key, chunkLen := Function.update pool.chunkLen node chunkLen
    chunkHead := Function.update pool.chunkHead node chunkHead }
  have home : getBucketId hash named (named.key node) = getBucketId hash pool key := by simp [named, getBucketId]
  have counted : Prog.exec (getBucketListLen (getBucketId hash named (named.key node))) named =
      some ((cells.length : Int), named) := by
    rw [home]
    exact exec_getBucketListLen chain enough
  have listLen := (silent_getBucketListLen _).run counted
  have ran (after : Pool Key) (hung : Prog.exec (insertNodeList hash node)
      { named with usedBucketNum := if cells = [] then pool.usedBucketNum + 1 else pool.usedBucketNum } =
        some ((), after)) : Prog.exec (useNode hash node key chunkLen chunkHead) pool = some ((), after) := by
    simp only [useNode, setChunkLen, setChunkHead, exec_setAddInfo1, exec_setAddInfo2, Prog.exec_bind,
      Prog.exec_write, Option.bind_some, Prog.exec_read]
    change ((Prog.exec (getBucketListLen (getBucketId hash named (named.key node))) named).bind _) = _
    rw [counted]
    cases cells <;> exact hung
  have first := Miscounted.early off fresh (quiet 1 (by omega) (by omega))
  have second := Miscounted.early off fresh (quiet 2 (by omega) (by omega))
  have third := Miscounted.early off fresh (quiet 3 (by omega) (by omega))
  have fourth := Miscounted.early off fresh (quiet 4 (by omega) (by omega))
  have fifth := Miscounted.early off fresh (quiet 5 (by omega) (by omega))
  refine .stepThen rfl (first _ ⟨rfl, rfl⟩ rfl rfl fun _ _ => rfl)
    (.stepThen rfl (second _ ⟨rfl, rfl⟩ rfl rfl fun _ _ => rfl)
    (.stepThen rfl (third _ ⟨rfl, rfl⟩ rfl rfl fun _ _ => rfl)
    (.stepThen rfl (fourth _ ⟨rfl, rfl⟩ rfl rfl fun _ _ => rfl)
    (.stepThen rfl (fifth _ ⟨rfl, rfl⟩ rfl rfl fun _ _ => rfl) (.skipThen rfl (.skipThen listLen ?_))))))
  have atBucket : named.bucket (getBucketId hash named (named.key node)) = cells.head? := by
    rw [home]
    exact chain.head
  cases cells with
  | nil =>
    have sixth := Miscounted.early off fresh (quiet 6 (by omega) (by omega))
    refine .stepThen rfl (sixth _ ⟨rfl, rfl⟩ rfl rfl fun _ _ => rfl) ?_
    refine insertNodeList_cuts (off.congr ⟨rfl, rfl⟩ rfl rfl fun _ _ => rfl) fresh (if_pos atBucket).symm
      ?_ fun after hung => last after (ran after hung)
    exact fun k positive bound => quiet _ (by omega) (by omega)
  | cons other later =>
    have occupied : named.bucket (getBucketId hash named (named.key node)) ≠ none := by simp [atBucket]
    refine .skipThen rfl ?_
    refine insertNodeList_cuts (off.congr ⟨rfl, rfl⟩ rfl rfl fun _ _ => rfl) fresh (if_neg occupied).symm
      ?_ fun after hung => last after (ran after hung)
    exact fun k positive bound => quiet _ (by omega) (by omega)

private theorem freeListRemove_cuts {good : Pool Key → Prop} (atHead : pool.freeList = some node)
    (moved : good { pool with freeList := pool.nodeNext node } ↔ ¬ bad 1)
    (cleared : good { pool with freeList := pool.nodeNext node, nodeNext := Function.update pool.nodeNext node none } ↔
      ¬ bad 2) : Prog.Cuts good bad freeListRemove pool 2 := by
  refine .skipThen rfl ?_
  simp only [atHead]
  exact .skipThen rfl (.stepThen rfl moved (.stepThen rfl cleared .pure))

private theorem exec_freeListRemove (atHead : pool.freeList = some node) :
    Prog.exec freeListRemove pool = some (some node,
      { pool with freeList := pool.nodeNext node, nodeNext := Function.update pool.nodeNext node none }) := by
  simp [freeListRemove, atHead, setFreeList, setNodeNext]

private theorem deleteFromAddList_idle {good : Pool Key → Prop} (idle : pool.addNext node = none ∧
    pool.addPrev node = none ∧ pool.addHead ≠ some node ∧ pool.addTail ≠ some node) :
    Prog.Cuts good bad (deleteFromAddList node) pool 0 := by
  refine .skipThen rfl ?_
  simp only [id_eq]
  rw [if_pos idle]
  exact .pure

/-- The counters disagree from the first write on that takes a node off the free list. -/
private theorem Laid.taken_off (laid : Laid hash pool layout) (shaped : pool.Shaped para) {rest : List Nat}
    (free : layout.free = node :: rest) : pool.freeList = some node ∧ node ∉ rest ∧
      Miscounted para { pool with freeList := pool.nodeNext node } rest ∧
      Miscounted para { pool with
        freeList := pool.nodeNext node, nodeNext := Function.update pool.nodeNext node none } rest := by
  have counted := laid.counted shaped
  have freeChain := free ▸ laid.freeChain
  have fresh : node ∉ rest := (List.nodup_cons.mp freeChain.nodup).1
  obtain ⟨atHead, tail⟩ := freeChain
  have total := counted.nodes
  have room := counted.fits
  rw [free, List.length_cons] at total room
  have wrong : pool.usedNodeNum + rest.length ≠ pool.nodeTotal := by omega
  have fits : rest.length ≤ pool.nodeTotal := by omega
  exact ⟨atHead, fresh, ⟨shaped.1, shaped.2, tail, fits, wrong⟩,
    ⟨shaped.1, shaped.2, tail.update fresh none, fits, wrong⟩⟩

/-- A new node is in its bucket, and counted, for four writes before the add list
has it. -/
theorem Laid.insert_cuts (laid : Laid hash pool layout) (shaped : pool.Shaped para) (key : Key) {data : List UInt8}
    {rest : List Nat} {count : Nat} (free : layout.free = node :: rest) (nonempty : data ≠ [])
    (needed : count = ChunkAllocator.getChunkNum pool.chunks.chunkSize data.length)
    (enough : count ≤ layout.freeChunks.length)
    (judged : ∀ k, bad k ↔ 4 * count + 13 ≤ k ∧ k ≤ 4 * count + 16) :
    Prog.Cuts (Reopens para) bad (insertNode hash key data) pool (4 * count + 19) := by
  obtain ⟨after, _, _, ran, laidAfter, shape, _⟩ := laid.insert key free nonempty (needed ▸ enough)
  have isFree : node ∈ layout.free := by simp [free]
  have fresh := laid.free_not_recent isFree
  have quiet (k : Nat) (early : k < 4 * count + 13) : ¬ bad k := by
    rw [judged]
    omega
  let moved : Pool Key := { pool with freeList := pool.nodeNext node }
  let removed : Pool Key := { moved with nodeNext := Function.update pool.nodeNext node none }
  obtain ⟨atHead, freshRest, offMoved, off⟩ : pool.freeList = some node ∧ node ∉ rest ∧ Miscounted para moved rest ∧
    Miscounted para removed rest := laid.taken_off shaped free
  have offChunks (chunks : ChunkPool) : Miscounted para { removed with chunks := chunks } rest :=
    off.congr ⟨rfl, rfl⟩ rfl rfl fun _ _ => rfl
  obtain ⟨headChunk, middle, chunks, got, wrote, allocating⟩ :=
    ChunkAllocator.allocate_cuts ⟨laid.stored.freeChain, laid.stored.free_length_le, rfl, rfl⟩ laid.stored.counted
      laid.stored.positive needed nonempty enough
  let filled : Pool Key := { removed with chunks := chunks }
  have buckets : Buckets hash filled layout.chain layout.recent := by
    refine laid.buckets.congr rfl rfl rfl rfl rfl fun other inside => ⟨?_, rfl⟩
    exact Function.update_of_ne (by rintro rfl; exact fresh inside) ..
  obtain ⟨nodes, occupied, bucket, nodeNext, nodePrev, used, hung, _⟩ :=
    buckets.exec_useNode fresh laid.recent_length_le key data.length (some headChunk)
  let named : Pool Key := { filled with
    key := Function.update pool.key node key, chunkLen := Function.update pool.chunkLen node data.length
    chunkHead := Function.update pool.chunkHead node (some headChunk), usedNodeNum := nodes
    usedBucketNum := occupied, bucket := bucket, nodeNext := nodeNext, nodePrev := nodePrev }
  have gotIn : Prog.exec (allocator (ChunkAllocator.malloc count)) removed =
      some (some headChunk, { removed with chunks := middle }) := by simp [allocator, removed, moved, got]
  have wroteIn : Prog.exec (allocator (ChunkAllocator.split (some headChunk) data)) { removed with chunks := middle } =
      some ((), filled) := by simp [allocator, wrote, filled]
  have adds : named.addLinks.Holds layout.recent := laid.adds
  have unlinked : named.addLinks.unlink node = named.addLinks := unlink_fresh adds fresh (laid.idle node isFree)
  have pushed : Prog.exec (insertAddListHead node) named = _ := exec_insertAddListHead node
  rw [unlinked] at pushed
  have final : after = named.withAdd (named.addLinks.pushFront node) := by
    have composed : Prog.exec (insertNode hash key data) pool =
        some (some node, named.withAdd (named.addLinks.pushFront node)) := by
      simp only [insertNode, Prog.exec_bind, exec_freeListRemove atHead, Option.bind_some, Prog.exec_read, ← needed]
      change (Prog.exec (allocator (ChunkAllocator.malloc count)) removed).bind _ = _
      rw [gotIn]
      change (Prog.exec (allocator _ >>= _) _) = _
      rw [Prog.exec_bind, wroteIn]
      change (Prog.exec (useNode hash node key data.length (some headChunk) >>= _) filled) = _
      rw [Prog.exec_bind, used]
      simp only [Option.bind_some, Prog.exec_bind, exec_setAddInfo1, exec_setAddInfo2]
      change (Prog.exec (insertAddListHead node) named).bind _ = _
      rw [pushed]
      rfl
    exact (Prod.mk.inj (Option.some.inj (ran.symm.trans composed))).2
  have shapedAfter := shaped.trans shape
  -- the used node misses in the add list until it is its head
  have stray (links : Links Nat) (chain : Chain links.next links.head layout.recent none) :
      ¬ Reopens para (named.withAdd links) := by
    have lost := laidAfter.not_reopens_withAdd shapedAfter chain (List.mem_cons_self ..) fresh
    rwa [final] at lost
  have listed (links : Links Nat) (chain : Chain links.next links.head (node :: layout.recent) none) :
      Reopens para (named.withAdd links) := by
    have intact := laidAfter.reopens_withAdd shapedAfter chain (.refl _)
    rwa [final] at intact
  rw [show 4 * count + 19 = 2 + (3 * count + 1 + (count + (10 + (0 + 4 + 1 + 1)))) by omega]
  refine .bind (freeListRemove_cuts atHead ?_ ?_) (exec_freeListRemove atHead) ?_
  · exact iff_of_true offMoved.reopens (quiet 1 (by omega))
  · exact iff_of_true off.reopens (quiet 2 (by omega))
  refine .skipThen rfl ?_
  simp only [← needed]
  refine .bind (.within ?_) gotIn ?_
  · exact (allocating fun chunks => (offChunks chunks).reopens).1 fun k low high => quiet _ (by omega)
  refine .bind (.within ?_) wroteIn ?_
  · exact (allocating fun chunks => (offChunks chunks).reopens).2 fun k low high => quiet _ (by omega)
  refine .bind ?_ used ?_
  · refine useNode_cuts (offChunks chunks) freshRest
      (buckets.linked (getBucketId hash pool key) (laid.buckets.bucketId_lt key)).forward
      ((laid.buckets.chain_length_le (laid.buckets.bucketId_lt key)).trans laid.recent_length_le) ?_ ?_
    · exact fun k low high => quiet _ (by omega)
    · intro last ended
      obtain rfl : named = last := (Prod.mk.inj (Option.some.inj (used.symm.trans ended))).2
      exact iff_of_false (stray named.addLinks adds.forward) (not_not.mpr ((judged _).mpr (by omega)))
  have unlisted {k : Nat} (torn : bad k) : Reopens para named ↔ ¬ bad k :=
    iff_of_false (stray named.addLinks adds.forward) (not_not.mpr torn)
  refine .stepThen rfl (unlisted ((judged _).mpr (by omega))) (.stepThen rfl (unlisted ((judged _).mpr (by omega))) ?_)
  refine .thenSkip ?_ (exec_insertAddListHead node) rfl
  refine insertAddListHead_cuts (deleteFromAddList_idle ?_) unlinked adds fresh stray listed
    ((judged _).mpr (by omega)) fun k low high wrong => ?_
  · have idle := laid.idle node isFree
    have atFront : named.addHead = layout.recent.head? := adds.head_eq
    have atBack : named.addTail = layout.recent.getLast? := adds.tail_eq
    refine ⟨idle.1, idle.2, fun first => ?_, fun last => ?_⟩
    · exact fresh (List.mem_of_mem_head? (atFront ▸ first))
    · exact fresh (List.mem_of_getLast? (atBack ▸ last))
  · have inside := (judged _).mp wrong
    omega

/-- An insertion that is refused gives the node back; until then the counters disagree. -/
theorem Laid.insert_fails_cuts (laid : Laid hash pool layout) (shaped : pool.Shaped para) (key : Key)
    (data : List UInt8) (lack : layout.free = [] ∨ data = [] ∨
      layout.freeChunks.length < ChunkAllocator.getChunkNum pool.chunks.chunkSize data.length)
    (quiet : ∀ k, ¬ bad k) : ∃ count, Prog.Cuts (Reopens para) bad (insertNode hash key data) pool count := by
  cases shape : layout.free with
  | nil =>
    have freeChain := laid.freeChain
    rw [shape] at freeChain
    have none : pool.freeList = none := freeChain
    have nothing : freeListRemove pool = some (Option.none, pool, []) := by
      simp [freeListRemove, Bind.bind, Prog.read, none, Pure.pure]
    exact ⟨0, .skipThen nothing .pure⟩
  | cons node rest =>
    let moved : Pool Key := { pool with freeList := pool.nodeNext node }
    let removed : Pool Key := { moved with nodeNext := Function.update pool.nodeNext node none }
    obtain ⟨atHead, fresh, offMoved, off⟩ : pool.freeList = some node ∧ node ∉ rest ∧ Miscounted para moved rest ∧
      Miscounted para removed rest := laid.taken_off shaped shape
    have refused : Prog.exec (ChunkAllocator.malloc (ChunkAllocator.getChunkNum pool.chunks.chunkSize data.length))
        pool.chunks = some (none, pool.chunks) := by
      rcases lack with noNode | noByte | noChunk
      · simp [shape] at noNode
      · simp [noByte, ChunkAllocator.exec_malloc_zero]
      · exact ChunkAllocator.exec_malloc_lack (by rw [laid.stored.counted]; omega)
    have refusedIn : Prog.exec (allocator (ChunkAllocator.malloc
        (ChunkAllocator.getChunkNum pool.chunks.chunkSize data.length))) removed = some (none, removed) := by
      simp [allocator, removed, moved, refused]
    have kept : Prog.Keeps (fun left : Pool Key => Miscounted para left rest) (allocator (ChunkAllocator.malloc
        (ChunkAllocator.getChunkNum pool.chunks.chunkSize data.length))) :=
      .within fun left each off => off.congr ⟨rfl, rfl⟩ rfl rfl fun _ _ => rfl
    obtain ⟨count, asked⟩ : ∃ count, Prog.Cuts (Reopens para) (fun k => bad (2 + k)) (allocator (ChunkAllocator.malloc
        (ChunkAllocator.getChunkNum pool.chunks.chunkSize data.length))) removed count :=
      Prog.Cuts.kept kept refusedIn off (fun left off => off.reopens) fun k => quiet (2 + (k + 1))
    have returned : { removed with
        nodeNext := Function.update removed.nodeNext node removed.freeList, freeList := some node } = pool := by
      simp [removed, moved, ← atHead]
    have intact := laid.reopens shaped
    rw [← returned] at intact
    refine ⟨2 + (count + 2), .bind (freeListRemove_cuts atHead ?_ ?_) (exec_freeListRemove atHead) ?_⟩
    · exact iff_of_true offMoved.reopens (quiet _)
    · exact iff_of_true off.reopens (quiet _)
    refine .skipThen rfl (.bind asked refusedIn (.thenSkip (.skipThen rfl (.stepThen rfl ?_ (.step rfl ?_))) rfl rfl))
    · exact Miscounted.early off fresh (quiet _) _ ⟨rfl, rfl⟩ rfl rfl fun other different =>
        Function.update_of_ne different _ _
    · exact iff_of_true intact (quiet _)

end HashMap

end TeenpattiUserServer.Shm
