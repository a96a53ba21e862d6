import Mathlib.Data.List.Basic
import TeenpattiUserServer.Shm.NodeCuts

/-! Which writes of an update leave a pool that `open` takes although a chunk is
free and in the block of the updated node, or in no list: nearly all that leave
the counter of free chunks right, since the old block is freed before the node
has the new one. -/

namespace TeenpattiUserServer.Shm

open Store Intrusive HashMap ChunkAllocator

variable {Key : Type} {hash : Key → Nat} {para : HashPara} {pool : Pool Key} {layout : Layout} {chunks : ChunkPool}
  {free freeChunks others : List Nat} {node : Nat} {bad : Nat → Prop}

/-- The lists of nodes do not depend on the chunks. -/
private theorem Counted.withChunks (counted : Counted para pool free freeChunks)
    (listed : Listed pool.chunks chunks others)
    (balanced : chunks.freeTotal = others.length) (chunkLen : Nat → Nat) :
    Counted para { pool with chunkLen := chunkLen, chunks := chunks } free others where
  shaped := ⟨counted.shaped.1, counted.shaped.2, listed.chunkTotal.trans counted.shaped.3,
    listed.chunkSize.trans counted.shaped.4⟩
  occupied := counted.occupied
  nodeChain := counted.nodeChain
  nodes := counted.nodes
  fits := counted.fits
  chunkChain := listed.chain
  chunks := balanced
  fitsChunks := listed.chunkTotal ▸ listed.fits

private theorem Counted.noticed (counted : Counted para pool free freeChunks)
    (listed : Listed pool.chunks chunks others)
    (wrong : chunks.freeTotal ≠ others.length) : Reopens para { pool with chunks := chunks } :=
  reopens_of_miscounted_chunks ⟨counted.shaped.1, counted.shaped.2, listed.chunkTotal.trans counted.shaped.3,
    listed.chunkSize.trans counted.shaped.4⟩ counted.nodeChain counted.fits listed.chain
    (listed.chunkTotal ▸ listed.fits) wrong

namespace HashMap.Laid

private theorem listed (laid : Laid hash pool layout) : Listed pool.chunks pool.chunks layout.freeChunks :=
  ⟨laid.stored.freeChain, laid.stored.free_length_le, rfl, rfl⟩

/-- The bytes and their number are not verified, and not needed. -/
private theorem reopens_rewritten (laid : Laid hash pool layout) (shaped : pool.Shaped para) (data : Nat → List UInt8)
    (chunkLen : Nat → Nat) :
    Reopens para { pool with chunkLen := chunkLen, chunks := { pool.chunks with data := data } } := by
  have listed : Listed pool.chunks { pool.chunks with data := data } layout.freeChunks :=
    ⟨laid.stored.freeChain, laid.stored.free_length_le, rfl, rfl⟩
  have counted : Counted para { pool with chunkLen := chunkLen, chunks := { pool.chunks with data := data } }
      layout.free layout.freeChunks := (laid.counted shaped).withChunks listed laid.stored.counted chunkLen
  have partitioned := laid.partitioned
  exact counted.reopens_iff.mpr ⟨layout, partitioned.nodes, partitioned.hung, partitioned.cells, partitioned.adds,
    partitioned.freeNodes, partitioned.buckets, partitioned.blocks, partitioned.freeChunks⟩

/-- The first freed chunk stays the head of the block. -/
private theorem shared (laid : Laid hash pool layout) (shaped : pool.Shaped para) (member : node ∈ layout.recent)
    {first : Nat} (atHead : pool.chunkHead node = some first) (listed : Listed pool.chunks chunks others)
    (balanced : chunks.freeTotal = others.length) (isFree : first ∈ others) (chunkLen : Nat → Nat) :
    ¬ Reopens para { pool with chunkLen := chunkLen, chunks := chunks } := by
  refine ((laid.counted shaped).withChunks listed balanced chunkLen).not_reopens_of_shared (laid.member_lt member)
    (laid.member_busy member) (fun cells chain => ?_) isFree
  change Chain chunks.next (pool.chunkHead node) cells none at chain
  rw [atHead] at chain
  exact List.mem_of_mem_head? chain.head.symm

/-- A used node is in the add list. -/
private theorem used (laid : Laid hash pool layout) (bound : node < pool.nodeTotal) (busy : node ∉ layout.free) :
    node ∈ layout.recent := laid.partitioned.used laid.freeChain bound busy

/-- After one write the block of the node goes on with the free list. -/
private theorem first_link (laid : Laid hash pool layout) (shaped : pool.Shaped para) (member : node ∈ layout.recent)
    {first : Nat} {cells : List Nat} (block : layout.block node = first :: cells) :
    Reopens para { pool with chunks := { pool.chunks with
      next := Function.update pool.chunks.next first pool.chunks.freeList } } ↔
        cells = [] ∧ layout.freeChunks = [] := by
  let linked : ChunkPool := { pool.chunks with next := Function.update pool.chunks.next first pool.chunks.freeList }
  have chain := laid.stored.blocks node member
  have distinct := chain.nodup
  rw [block] at chain distinct
  obtain ⟨atHead, tail⟩ := chain
  have busy : first ∉ layout.freeChunks := laid.stored.apart_free member first (by simp [block])
  have freeChain : Chain linked.next linked.freeList layout.freeChunks none := laid.stored.freeChain.update busy _
  have own : Chain linked.next (pool.chunkHead node) (first :: layout.freeChunks) none :=
    ⟨atHead, by simpa [linked] using freeChain⟩
  have listed : Listed pool.chunks linked layout.freeChunks := ⟨freeChain, laid.stored.free_length_le, rfl, rfl⟩
  have counted : Counted para { pool with chunks := linked } layout.free layout.freeChunks :=
    (laid.counted shaped).withChunks listed laid.stored.counted pool.chunkLen
  constructor
  · intro reopens
    by_contra more
    cases free : layout.freeChunks with
    | cons chunk rest =>
      refine counted.not_reopens_of_shared (laid.member_lt member) (laid.member_busy member) (fun cells chain => ?_)
        (show chunk ∈ layout.freeChunks by simp [free]) reopens
      rw [chain.unique own]
      simp [free]
    | nil =>
      obtain ⟨second, later, rfl⟩ := List.exists_cons_of_ne_nil fun single : cells = [] => more ⟨single, free⟩
      have inside : second ∈ layout.block node := by simp [block]
      have owned := List.mem_flatMap.mpr ⟨node, member, inside⟩
      have inRange := laid.stored.cells.mem_iff.mp (List.mem_append_left _ owned)
      refine counted.not_reopens_of_lost (List.mem_range.mp inRange) (laid.stored.apart_free member second inside)
        (fun other bound otherBusy => ?_) reopens
      by_cases same : other = node
      · subst other
        refine ⟨_, own, ?_⟩
        have different : second ≠ first := by
          rintro rfl
          simp at distinct
        simp [free, different]
      · have otherMember := laid.used bound otherBusy
        have apart := laid.stored.apart_block member otherMember same
        have notFirst : first ∉ layout.block other := fun twice => apart first twice (by simp [block])
        refine ⟨_, (laid.stored.blocks other otherMember).update notFirst _, ?_⟩
        exact fun twice => apart second twice inside
  · rintro ⟨rfl, free⟩
    have atEnd : pool.chunks.next first = none := tail
    have empty : pool.chunks.freeList = none := by simpa [free] using laid.stored.freeChain
    have same : Function.update pool.chunks.next first pool.chunks.freeList = pool.chunks.next := by
      rw [empty, ← atEnd, Function.update_eq_self]
    rw [same]
    exact laid.reopens shaped

/-- Freeing the old block of a node that keeps it. -/
private theorem free_cuts (laid : Laid hash pool layout) (shaped : pool.Shaped para) (member : node ∈ layout.recent)
    {old : Nat} (length : (layout.block node).length = old)
    (judged : ∀ k, 0 < k → k ≤ 3 * old → (bad k ↔ k % 3 ≠ 2 ∧ ¬(k = 1 ∧ old = 1 ∧ layout.freeChunks = []))) :
    Prog.Cuts (fun chunks => Reopens para { pool with chunks := chunks }) bad
      (ChunkAllocator.free (pool.chunkHead node)) pool.chunks (3 * old) := by
  have chain := laid.stored.blocks node member
  cases block : layout.block node with
  | nil =>
    rw [block] at chain length
    have atEnd : pool.chunkHead node = none := chain
    obtain rfl : old = 0 := length.symm
    rw [atEnd]
    refine .skipThen rfl ?_
    have nothing (fuel : Nat) : freeLoop fuel none = pure () := by cases fuel <;> rfl
    rw [nothing]
    exact .pure
  | cons first cells =>
    have firstLink := laid.first_link shaped member block
    have busy : first ∉ layout.freeChunks := laid.stored.apart_free member first (by simp [block])
    have apart : ∀ cell ∈ cells, cell ∉ layout.freeChunks := fun cell inside =>
      laid.stored.apart_free member cell (by simp [block, inside])
    have room : (layout.block node).length + layout.freeChunks.length ≤ pool.chunks.chunkTotal := by
      have total := laid.stored.cells.length_eq
      have split := (List.perm_cons_erase member).flatMap_right layout.block
      rw [List.length_append, split.length_eq, List.flatMap_cons, List.length_append, List.length_range] at total
      omega
    rw [block] at chain length room
    have unique := List.nodup_cons.mp chain.nodup
    obtain ⟨atHead, tail⟩ := chain
    simp only [List.length_cons] at length room
    obtain ⟨fuel, total⟩ : ∃ fuel, pool.chunks.chunkTotal = fuel + 1 := ⟨pool.chunks.chunkTotal - 1, by omega⟩
    let moved : ChunkPool := { pool.chunks with
      freeTotal := pool.chunks.freeTotal + 1, freeList := some first
      next := Function.update pool.chunks.next first pool.chunks.freeList }
    have balance := laid.stored.counted
    have joined : Chain moved.next (some first) (first :: layout.freeChunks) none :=
      ⟨rfl, by simpa [moved] using laid.stored.freeChain.update busy pool.chunks.freeList⟩
    have longer : (first :: layout.freeChunks).length ≤ pool.chunks.chunkTotal := by
      simp only [List.length_cons]
      omega
    have ahead : pool.chunks.freeTotal ≠ (first :: layout.freeChunks).length := by
      simp only [List.length_cons]
      omega
    have balanced : pool.chunks.freeTotal + 1 = (first :: layout.freeChunks).length := by
      simp only [List.length_cons]
      omega
    have listedLink : Listed pool.chunks { moved with freeTotal := pool.chunks.freeTotal }
        (first :: layout.freeChunks) := ⟨joined, longer, rfl, rfl⟩
    have listedMoved : Listed pool.chunks moved (first :: layout.freeChunks) := ⟨joined, longer, rfl, rfl⟩
    have isFree : first ∈ first :: layout.freeChunks := List.mem_cons_self ..
    have entered := (laid.counted shaped).noticed listedLink ahead
    have settled := laid.shared shaped member atHead listedMoved balanced isFree pool.chunkLen
    have later : Prog.Cuts (fun chunks => Reopens para { pool with chunks := chunks }) (fun k => bad (2 + (k + 1)))
        (freeLoop fuel (pool.chunks.next first)) moved (3 * cells.length) := by
      refine freeLoop_cuts ⟨joined, longer, rfl, rfl⟩ balanced (tail.update unique.1 _) ?_
        (show cells.length + (first :: layout.freeChunks).length ≤ pool.chunks.chunkTotal by
          simp only [List.length_cons]; omega)
        (by omega) isFree
        (fun chunks free listed => (laid.counted shaped).noticed
          ⟨listed.chain, listed.fits, listed.chunkTotal, listed.chunkSize⟩)
        (fun chunks free listed right isFree => laid.shared shaped member atHead
          ⟨listed.chain, listed.fits, listed.chunkTotal, listed.chunkSize⟩ right isFree pool.chunkLen) ?_
      · intro cell inside
        have different : cell ≠ first := by
          rintro rfl
          exact unique.1 inside
        simp [different, apart cell inside]
      · intro k _ bound
        rw [judged _ (by omega) (by omega)]
        omega
    have inserted : Prog.Cuts (fun chunks => Reopens para { pool with chunks := chunks }) bad
        (ChunkAllocator.freeListInsert first) pool.chunks 2 := by
      refine .stepThen rfl ?_ (.step rfl (iff_of_true entered ?_))
      · refine firstLink.trans ?_
        rw [judged 1 (by omega) (by omega), ← length]
        simp
      · rw [judged 2 (by omega) (by omega)]
        omega
    have ran : Prog.exec (ChunkAllocator.freeListInsert first) pool.chunks =
        some ((), { moved with freeTotal := pool.chunks.freeTotal }) := rfl
    refine .skipThen rfl ?_
    simp only [atHead, total]
    refine .skipThen rfl (.recount (inserted.bind ran (.stepThen rfl (iff_of_false settled ?_) later)) ?_)
    · rw [not_not, judged _ (by omega) (by omega)]
      omega
    · omega

/-- Between `malloc` and the new head of the block, the node has its old block: one
of its chunks is free, or a new chunk is in no list. -/
private theorem swapped (laid : Laid hash pool layout) (shaped : pool.Shaped para) (member : node ∈ layout.recent)
    {freed : ChunkPool} {taken rest : List Nat} {next : Nat → Handler}
    (released : Stored freed pool.chunkHead pool.chunkLen (layout.recent.erase node) layout.block
      ((layout.block node).reverse ++ layout.freeChunks))
    (size : freed.chunkSize = pool.chunks.chunkSize) (total : freed.chunkTotal = pool.chunks.chunkTotal)
    (whole : (layout.block node).reverse ++ layout.freeChunks = taken ++ rest)
    (different : taken.length ≠ (layout.block node).length)
    (linked : Chain next taken.reverse.head? taken.reverse none)
    (outside : ∀ cell, cell ∉ taken → next cell = freed.next cell) (data : Nat → List UInt8) (chunkLen : Nat → Nat) :
    ¬ Reopens para { pool with chunkLen := chunkLen, chunks := { freed with
      freeTotal := freed.freeTotal - taken.length, freeList := rest.head?, next := next, data := data } } := by
  let chunks : ChunkPool := { freed with
    freeTotal := freed.freeTotal - taken.length, freeList := rest.head?, next := next, data := data }
  have freeChain := whole ▸ released.freeChain
  have distinct := freeChain.nodup
  have length := released.counted
  have fits := released.free_length_le
  rw [whole, List.length_append] at length fits
  obtain ⟨_, _, tail⟩ := chain_append.mp freeChain
  have restChain : Chain next rest.head? rest none := by
    rw [← tail.head]
    exact tail.congr fun cell inside => outside cell fun twice =>
      (List.nodup_append.mp distinct).2.2 cell twice cell inside rfl
  have listed : Listed pool.chunks chunks rest := ⟨restChain, by omega, total, size⟩
  have balanced : chunks.freeTotal = rest.length := by
    change freed.freeTotal - taken.length = _
    omega
  rcases List.append_eq_append_iff.mp whole with ⟨more, took, free⟩ | ⟨kept, block, free⟩
  · have grown : more ≠ [] := by
      rintro rfl
      simp [took] at different
    obtain ⟨chunk, later, rfl⟩ := List.exists_cons_of_ne_nil grown
    have isFree : chunk ∈ layout.freeChunks := by simp [free]
    have inRange := laid.stored.cells.mem_iff.mp (List.mem_append_right _ isFree)
    have busy : chunk ∉ rest := fun twice =>
      (List.nodup_append.mp distinct).2.2 chunk (by simp [took]) chunk twice rfl
    refine ((laid.counted shaped).withChunks listed balanced chunkLen).not_reopens_of_lost
      (show chunk < freed.chunkTotal from total ▸ List.mem_range.mp inRange) busy fun other bound otherBusy => ?_
    have otherMember := laid.used bound otherBusy
    refine ⟨layout.block other, ?_, fun inside => laid.stored.apart_free otherMember chunk inside isFree⟩
    change Chain next (pool.chunkHead other) (layout.block other) none
    by_cases same : other = node
    · subst other
      rw [took, List.reverse_append, List.reverse_reverse] at linked
      obtain ⟨middle, _, own⟩ := chain_append.mp linked
      rwa [own.head, ← (laid.stored.blocks node member).head] at own
    · have still := (List.mem_erase_of_ne same).mpr otherMember
      refine (released.blocks other still).congr fun cell inside => outside cell fun twice => ?_
      exact released.apart_free still cell inside (whole ▸ List.mem_append_left _ twice)
  · have shrunk : kept ≠ [] := by
      rintro rfl
      have same := congrArg List.length block
      simp only [List.append_nil, List.length_reverse] at same
      exact different same.symm
    obtain ⟨before, first, rfl⟩ := List.eq_nil_or_concat kept |>.resolve_left shrunk
    have atHead : pool.chunkHead node = some first := by
      rw [(laid.stored.blocks node member).head, ← List.reverse_reverse (layout.block node), block]
      simp
    exact laid.shared shaped member atHead listed balanced (by simp [free]) chunkLen

/-- New bytes of the same number of chunks do not touch a list. -/
private theorem rewrite_cuts (laid : Laid hash pool layout) (shaped : pool.Shaped para) (member : node ∈ layout.recent)
    {data : List UInt8} (same : getChunkNum pool.chunks.chunkSize (pool.chunkLen node) =
      getChunkNum pool.chunks.chunkSize data.length) (quiet : ∀ k, ¬ bad k) :
    Prog.Cuts (Reopens para) bad (updateNode node data) pool ((layout.block node).length + 1) := by
  obtain ⟨bytes, wrote, _⟩ := exec_splitLoop data (laid.stored.blocks node member) (laid.stored.block_length_le member)
  have written : Prog.exec (allocator (split (pool.chunkHead node) data)) pool =
      some ((), { pool with chunks := { pool.chunks with data := bytes } }) := by simp [allocator, split, wrote]
  refine .skipThen rfl ?_
  simp only [id_eq, same, ne_eq, not_true_eq_false, if_false]
  refine .bind (.within ?_) written (.stepThen rfl ?_ .pure)
  · refine split_cuts laid.stored.positive (laid.stored.blocks node member) (laid.stored.block_length_le member)
      ((laid.stored.sized node member).trans same) fun bytes k _ _ => ?_
    exact iff_of_true (laid.reopens_rewritten shaped bytes pool.chunkLen) (quiet k)
  · exact iff_of_true (laid.reopens_rewritten shaped _ _) (quiet _)

/-- An update of a used node from `old` to `count` chunks. -/
theorem update_cuts (laid : Laid hash pool layout) (shaped : pool.Shaped para) (member : node ∈ layout.recent)
    {data : List UInt8} {old count : Nat} (olds : old = getChunkNum pool.chunks.chunkSize (pool.chunkLen node))
    (needed : count = getChunkNum pool.chunks.chunkSize data.length)
    (judged : ∀ k, bad k ↔ old ≠ count ∧ count ≤ layout.freeChunks.length + old ∧
      (0 < k ∧ k ≤ 3 * old ∧ k % 3 ≠ 2 ∧ ¬(k = 1 ∧ old = 1 ∧ layout.freeChunks = []) ∨
        3 * old + 3 * count + 1 ≤ k ∧ k ≤ 3 * old + 4 * count + 2)) :
    ∃ total, (∀ k, bad k → k < total) ∧ Prog.Cuts (Reopens para) bad (updateNode node data) pool total := by
  by_cases same : old = count
  · have quiet (k : Nat) : ¬ bad k := fun wrong => ((judged k).mp wrong).1 same
    exact ⟨_, fun k wrong => absurd wrong (quiet k),
      laid.rewrite_cuts shaped member (olds.symm.trans (same.trans needed)) quiet⟩
  by_cases lack : layout.freeChunks.length + old < count
  · have quiet (k : Nat) : ¬ bad k := fun wrong => by
      have enough := ((judged k).mp wrong).2.1
      omega
    have short : old < count ∧ pool.chunks.freeTotal < ((count - old : Nat) : Int) := by
      rw [laid.stored.counted]
      omega
    refine ⟨0, fun k wrong => absurd wrong (quiet k), .skipThen rfl ?_⟩
    simp only [id_eq, ← olds, ← needed]
    rw [if_pos same, if_pos short]
    exact .pure
  have enough : getChunkNum pool.chunks.chunkSize data.length ≤
      layout.freeChunks.length + getChunkNum pool.chunks.chunkSize (pool.chunkLen node) := by omega
  obtain ⟨after, _, _, ran, laidAfter, _, shape, _⟩ := laid.update member enough
  have granted : ¬(old < count ∧ pool.chunks.freeTotal < ((count - old : Nat) : Int)) := by
    rw [laid.stored.counted]
    omega
  have length : (layout.block node).length = old := (laid.stored.sized node member).trans olds.symm
  obtain ⟨freed, freedRun, freedSize, freedTotal, _, released⟩ := laid.stored.release member
  obtain ⟨taken, rest, whole, tookLength⟩ : ∃ taken rest,
      (layout.block node).reverse ++ layout.freeChunks = taken ++ rest ∧ taken.length = count := by
    refine ⟨_, _, (List.take_append_drop count _).symm, ?_⟩
    simp only [List.length_take, List.length_append, List.length_reverse]
    omega
  have counted := released.counted
  have fits := released.free_length_le
  have freeChain := released.freeChain
  rw [whole] at counted fits freeChain
  obtain ⟨next, got, linked, outside⟩ := exec_malloc freeChain (by rw [counted, List.length_append]; omega)
  have torn := laid.swapped shaped member released freedSize freedTotal whole (by omega) linked outside
  generalize taken.reverse.head? = head at got linked
  let middle : ChunkPool := { freed with
    freeTotal := freed.freeTotal - taken.length, freeList := rest.head?, next := next }
  have chain : Chain middle.next head taken.reverse none := linked
  have room : taken.reverse.length ≤ middle.chunkTotal := by
    rw [List.length_append] at fits
    rw [List.length_reverse]
    change taken.length ≤ freed.chunkTotal
    omega
  obtain ⟨bytes, wrote, _⟩ := exec_splitLoop data chain room
  have freedIn : Prog.exec (allocator (ChunkAllocator.free (pool.chunkHead node))) pool =
      some ((), { pool with chunks := freed }) := by simp [allocator, freedRun]
  have gotIn : Prog.exec (allocator (malloc count)) { pool with chunks := freed } =
      some (head, { pool with chunks := middle }) := by simp [allocator, ← tookLength, got, middle]
  have wroteIn : Prog.exec (allocator (split head data)) { pool with chunks := middle } =
      some ((), { pool with chunks := { middle with data := bytes } }) := by simp [allocator, split, wrote]
  have composed : Prog.exec (updateNode node data) pool = some (some node, { pool with
      chunkLen := Function.update pool.chunkLen node data.length
      chunkHead := Function.update pool.chunkHead node head
      chunks := { middle with data := bytes } }) := by
    simp only [updateNode, Prog.exec_bind, Prog.exec_read, Option.bind_some, id_eq, Prog.exec_ite, ← olds, ← needed]
    rw [if_pos same, if_neg granted]
    simp [freedIn, gotIn, wroteIn, setChunkLen, setChunkHead]
  have final := (Prod.mk.inj (Option.some.inj (ran.symm.trans composed))).2
  have wrong {k : Nat} (late : 3 * old + 3 * count + 1 ≤ k) (early : k ≤ 3 * old + 4 * count + 2) : bad k :=
    (judged k).mpr ⟨same, not_lt.mp lack, .inr ⟨late, early⟩⟩
  refine ⟨3 * old + (3 * count + 1 + (count + 2)), fun k wrong => ?_, .skipThen rfl ?_⟩
  · obtain ⟨_, _, between⟩ := (judged k).mp wrong
    omega
  simp only [id_eq, ← olds, ← needed]
  rw [if_pos same, if_neg granted]
  refine .bind (.within (laid.free_cuts shaped member length fun k low high => ?_)) freedIn ?_
  · rw [judged k, and_iff_right same, and_iff_right (not_lt.mp lack), or_iff_left (by omega), and_iff_right low,
      and_iff_right high]
  refine .bind (.within ?_) gotIn ?_
  · rw [← tookLength]
    refine malloc_cuts ⟨freeChain, fits, rfl, rfl⟩ (Int.le_of_eq counted.symm)
      (fun chunks others listed wrong => (laid.counted shaped).noticed ⟨listed.chain, ?_, ?_, ?_⟩ wrong) ?_ got ?_
    · exact freedTotal ▸ listed.fits
    · exact listed.chunkTotal.trans freedTotal
    · exact listed.chunkSize.trans freedSize
    · intro k low high
      rw [judged]
      omega
    · exact iff_of_false (torn freed.data pool.chunkLen) (not_not.mpr (wrong (by omega) (by omega)))
  refine .bind (.within ?_) wroteIn ?_
  · have sized : taken.reverse.length = count := by rw [List.length_reverse, tookLength]
    rw [← sized]
    refine split_cuts released.positive chain room ?_ fun bytes k low high => ?_
    · rw [sized, needed, ← freedSize]
    · exact iff_of_false (torn bytes pool.chunkLen) (not_not.mpr (wrong (by omega) (by omega)))
  refine .stepThen rfl ?_ (.stepThen rfl ?_ .pure)
  · exact iff_of_false (torn bytes _) (not_not.mpr (wrong (by omega) (by omega)))
  · refine iff_of_true ?_ ?_
    · have reopens := laidAfter.reopens (shaped.trans shape)
      rwa [final] at reopens
    · rw [judged]
      omega

end HashMap.Laid

end TeenpattiUserServer.Shm
