import Mathlib.Data.List.Basic
import Mathlib.Data.List.Nodup
import Mathlib.Data.List.Perm.Basic
import TeenpattiUserServer.Shm.Restart

/-! Opening a pool that a process left in the middle of a change. Both
verifications count: used buckets, free nodes, free chunks. No link of a used
node and no chunk of a used node is looked at, so a pool with the right counts
is accepted whatever its other lists hold. -/

namespace TeenpattiUserServer.Shm

open Store Intrusive HashMap

variable {Key : Type}

/-- The table invariants, read off the lists that the code walks from their
heads: each node is free or in the add list, exactly once; the bucket chains
share out the nodes of the add list; their blocks and the free list share out
the chunks. -/
structure Pool.Partitioned (pool : Pool Key) (layout : Layout) : Prop where
  nodes : (layout.recent ++ layout.free).Perm (List.range pool.nodeTotal)
  hung : ((List.range pool.bucketSize).flatMap layout.chain).Perm layout.recent
  cells : (layout.recent.flatMap layout.block ++ layout.freeChunks).Perm (List.range pool.chunks.chunkTotal)
  adds : Chain pool.addNext pool.addHead layout.recent none
  freeNodes : Chain pool.nodeNext pool.freeList layout.free none
  buckets : ∀ b, b < pool.bucketSize → Chain pool.nodeNext (pool.bucket b) (layout.chain b) none
  blocks : ∀ node ∈ layout.recent, Chain pool.chunks.next (pool.chunkHead node) (layout.block node) none
  freeChunks : Chain pool.chunks.next pool.chunks.freeList layout.freeChunks none

def Pool.Intact (pool : Pool Key) : Prop := ∃ layout, pool.Partitioned layout

/-- `open` with `init = false` returns, with an error or on an intact pool. -/
def Reopens (para : HashPara) (pool : Pool Key) : Prop :=
  ∃ ret after, Prog.exec (openPool false para.nodeTotal para.bucketSize para.chunkTotal para.chunkSize) pool =
    some (ret, after) ∧ (ret ≠ 0 ∨ after.Intact)

/-- What `used_bucket_num_` should count. -/
def Pool.occupied (pool : Pool Key) : Nat := (List.range pool.bucketSize).countP fun b => pool.bucket b ≠ none

/-- The counters that both verifications compare are right. -/
structure Counted (para : HashPara) (pool : Pool Key) (free freeChunks : List Nat) : Prop where
  shaped : pool.Shaped para
  occupied : (pool.occupied : Int) = pool.usedBucketNum
  nodeChain : Chain pool.nodeNext pool.freeList free none
  nodes : pool.usedNodeNum + free.length = pool.nodeTotal
  fits : free.length ≤ pool.nodeTotal
  chunkChain : Chain pool.chunks.next pool.chunks.freeList freeChunks none
  chunks : pool.chunks.freeTotal = freeChunks.length
  fitsChunks : freeChunks.length ≤ pool.chunks.chunkTotal

variable {hash : Key → Nat} {para : HashPara} {pool : Pool Key} {layout : Layout} {free freeChunks cells : List Nat}
  {node chunk : Nat}

private theorem exec_verifyPoolData (nodeTotal : pool.nodeTotal = para.nodeTotal)
    (bucketSize : pool.bucketSize = para.bucketSize) (chain : Chain pool.nodeNext pool.freeList free none)
    (fits : free.length ≤ pool.nodeTotal) :
    Prog.exec (HashMap.verifyPoolData para.nodeTotal para.bucketSize) pool =
      some (if (pool.occupied : Int) = pool.usedBucketNum ∧ pool.usedNodeNum + free.length = pool.nodeTotal
        then 0 else errorBase, pool) := by
  have counted := ChunkAllocator.exec_countLoop pool chain fits
  simp only [HashMap.verifyPoolData, Prog.exec_bind, Prog.exec_read, Option.bind_some, id_eq, Prog.exec_ite,
    nodeTotal.symm, bucketSize.symm, ne_eq, not_true_eq_false, if_false, counted, Prog.exec_pure]
  by_cases buckets : (pool.occupied : Int) = pool.usedBucketNum <;>
    by_cases nodes : pool.usedNodeNum + (free.length : Int) = pool.nodeTotal <;>
    simp_all [Pool.occupied]

private theorem exec_verifyPoolData_chunks (shaped : pool.Shaped para)
    (chain : Chain pool.chunks.next pool.chunks.freeList freeChunks none)
    (fits : freeChunks.length ≤ pool.chunks.chunkTotal) :
    Prog.exec (ChunkAllocator.verifyPoolData para.chunkTotal para.chunkSize) pool.chunks =
      some (if pool.chunks.freeTotal = freeChunks.length then 0 else ChunkAllocator.errorDataVerifyFail,
        pool.chunks) := by
  have counted := ChunkAllocator.exec_countLoop pool.chunks chain fits
  by_cases right : pool.chunks.freeTotal = freeChunks.length
  · simp [ChunkAllocator.verifyPoolData, ← shaped.chunkSize, ← shaped.chunkTotal, counted, right]
  · simp [ChunkAllocator.verifyPoolData, ← shaped.chunkSize, ← shaped.chunkTotal, counted, right, Ne.symm right]

/-- A wrong number of nodes or of used buckets is noticed. -/
theorem reopens_of_miscounted (nodeTotal : pool.nodeTotal = para.nodeTotal)
    (bucketSize : pool.bucketSize = para.bucketSize) (chain : Chain pool.nodeNext pool.freeList free none)
    (fits : free.length ≤ pool.nodeTotal)
    (wrong : ¬((pool.occupied : Int) = pool.usedBucketNum ∧ pool.usedNodeNum + free.length = pool.nodeTotal)) :
    Reopens para pool := by
  have verified := exec_verifyPoolData nodeTotal bucketSize chain fits
  rw [if_neg wrong] at verified
  exact ⟨errorBase, pool, by simp [openPool, verified, errorBase], .inl (by decide)⟩

/-- The used nodes and the free nodes do not add up. -/
structure Miscounted (para : HashPara) (pool : Pool Key) (free : List Nat) : Prop where
  nodeTotal : pool.nodeTotal = para.nodeTotal
  bucketSize : pool.bucketSize = para.bucketSize
  chain : Chain pool.nodeNext pool.freeList free none
  fits : free.length ≤ pool.nodeTotal
  wrong : pool.usedNodeNum + free.length ≠ pool.nodeTotal

theorem Miscounted.reopens (miscounted : Miscounted para pool free) : Reopens para pool :=
  reopens_of_miscounted miscounted.nodeTotal miscounted.bucketSize miscounted.chain miscounted.fits
    fun right => miscounted.wrong right.2

theorem Miscounted.congr (miscounted : Miscounted para pool free) {after : Pool Key}
    (shape : after.nodeTotal = pool.nodeTotal ∧ after.bucketSize = pool.bucketSize)
    (list : after.freeList = pool.freeList) (used : after.usedNodeNum = pool.usedNodeNum)
    (links : ∀ node ∈ free, after.nodeNext node = pool.nodeNext node) : Miscounted para after free where
  nodeTotal := shape.1.trans miscounted.nodeTotal
  bucketSize := shape.2.trans miscounted.bucketSize
  chain := list ▸ miscounted.chain.congr links
  fits := shape.1 ▸ miscounted.fits
  wrong := by
    rw [used, shape.1]
    exact miscounted.wrong

/-- A wrong number of free chunks is noticed. -/
theorem reopens_of_miscounted_chunks (shaped : pool.Shaped para)
    (chain : Chain pool.nodeNext pool.freeList free none) (fits : free.length ≤ pool.nodeTotal)
    (chunkChain : Chain pool.chunks.next pool.chunks.freeList freeChunks none)
    (chunkFits : freeChunks.length ≤ pool.chunks.chunkTotal)
    (wrong : pool.chunks.freeTotal ≠ freeChunks.length) : Reopens para pool := by
  by_cases right : (pool.occupied : Int) = pool.usedBucketNum ∧ pool.usedNodeNum + free.length = pool.nodeTotal
  · have verified := exec_verifyPoolData shaped.nodeTotal shaped.bucketSize chain fits
    have chunks := exec_verifyPoolData_chunks shaped chunkChain chunkFits
    rw [if_pos right] at verified
    rw [if_neg wrong] at chunks
    exact ⟨ChunkAllocator.errorDataVerifyFail, pool,
      by simp [openPool, verified, allocator, ChunkAllocator.openPool, chunks], .inl (by decide)⟩
  · exact reopens_of_miscounted shaped.nodeTotal shaped.bucketSize chain fits right

/-- With the right counts the pool is accepted as it is. -/
theorem Counted.reopens_iff (counted : Counted para pool free freeChunks) : Reopens para pool ↔ pool.Intact := by
  have verified := exec_verifyPoolData counted.shaped.nodeTotal counted.shaped.bucketSize counted.nodeChain counted.fits
  have chunks := exec_verifyPoolData_chunks counted.shaped counted.chunkChain counted.fitsChunks
  rw [if_pos ⟨counted.occupied, counted.nodes⟩] at verified
  rw [if_pos counted.chunks] at chunks
  have opened : Prog.exec (openPool false para.nodeTotal para.bucketSize para.chunkTotal para.chunkSize) pool =
      some (0, pool) := by
    simp [openPool, verified, allocator, ChunkAllocator.openPool, chunks]
  simp [Reopens, opened]

namespace Pool.Partitioned

/-- A node that is not free is in the add list. -/
theorem used (partitioned : pool.Partitioned layout)
    (chain : Chain pool.nodeNext pool.freeList free none) (bound : node < pool.nodeTotal)
    (busy : node ∉ free) : node ∈ layout.recent := by
  have same : layout.free = free := partitioned.freeNodes.unique chain
  have somewhere := partitioned.nodes.mem_iff.mpr (List.mem_range.mpr bound)
  rw [same] at somewhere
  exact (List.mem_append.mp somewhere).resolve_right busy

theorem not_shared (partitioned : pool.Partitioned layout) (member : node ∈ layout.recent)
    (inside : chunk ∈ layout.block node)
    (chain : Chain pool.chunks.next pool.chunks.freeList freeChunks none) : chunk ∉ freeChunks := by
  have same : layout.freeChunks = freeChunks := partitioned.freeChunks.unique chain
  have distinct := partitioned.cells.nodup_iff.mpr List.nodup_range
  rw [same] at distinct
  exact fun isFree =>
    (List.nodup_append.mp distinct).2.2 chunk (List.mem_flatMap.mpr ⟨node, member, inside⟩) chunk isFree rfl

end Pool.Partitioned

/-- A used node that the add list misses. -/
theorem Counted.not_reopens_of_stray (counted : Counted para pool free freeChunks)
    (chain : Chain pool.addNext pool.addHead cells none) (bound : node < pool.nodeTotal) (busy : node ∉ free)
    (stray : node ∉ cells) : ¬ Reopens para pool := by
  rw [counted.reopens_iff]
  rintro ⟨layout, partitioned⟩
  have member := partitioned.used counted.nodeChain bound busy
  rw [partitioned.adds.unique chain] at member
  exact stray member

/-- A free chunk in the block of a used node. -/
theorem Counted.not_reopens_of_shared (counted : Counted para pool free freeChunks) (bound : node < pool.nodeTotal)
    (busy : node ∉ free)
    (inside : ∀ cells, Chain pool.chunks.next (pool.chunkHead node) cells none → chunk ∈ cells)
    (isFree : chunk ∈ freeChunks) : ¬ Reopens para pool := by
  rw [counted.reopens_iff]
  rintro ⟨layout, partitioned⟩
  have member := partitioned.used counted.nodeChain bound busy
  exact partitioned.not_shared member (inside _ (partitioned.blocks node member)) counted.chunkChain isFree

/-- A chunk that is neither free nor in the block of a used node. -/
theorem Counted.not_reopens_of_lost (counted : Counted para pool free freeChunks)
    (bound : chunk < pool.chunks.chunkTotal) (busy : chunk ∉ freeChunks)
    (missed : ∀ node, node < pool.nodeTotal → node ∉ free →
      ∃ cells, Chain pool.chunks.next (pool.chunkHead node) cells none ∧ chunk ∉ cells) :
    ¬ Reopens para pool := by
  rw [counted.reopens_iff]
  rintro ⟨layout, partitioned⟩
  have same : layout.freeChunks = freeChunks := partitioned.freeChunks.unique counted.chunkChain
  have somewhere := partitioned.cells.mem_iff.mpr (List.mem_range.mpr bound)
  rw [same, List.mem_append, or_iff_left busy] at somewhere
  obtain ⟨node, member, inside⟩ := List.mem_flatMap.mp somewhere
  have listed := partitioned.nodes.mem_iff.mp (List.mem_append_left _ member)
  have apart : node ∉ free := by
    rw [← partitioned.freeNodes.unique counted.nodeChain]
    have distinct := partitioned.nodes.nodup_iff.mpr List.nodup_range
    exact fun isFree => (List.nodup_append.mp distinct).2.2 node member node isFree rfl
  obtain ⟨cells, chain, absent⟩ := missed node (List.mem_range.mp listed) apart
  rw [(partitioned.blocks node member).unique chain] at inside
  exact absent inside

namespace HashMap.Laid

/-- The bucket chains share out the used nodes. -/
private theorem hung (laid : Laid hash pool layout) :
    ((List.range pool.bucketSize).flatMap layout.chain).Perm layout.recent := by
  have distinct : ((List.range pool.bucketSize).flatMap layout.chain).Nodup := by
    refine List.nodup_flatMap.mpr ⟨fun b inside => ?_, List.nodup_range.pairwise_of_forall_ne ?_⟩
    · exact (laid.buckets.linked b (List.mem_range.mp inside)).nodup
    · intro b first other second different cell here there
      have home := laid.buckets.homed b (List.mem_range.mp first) cell here
      exact different (home.symm.trans (laid.buckets.homed other (List.mem_range.mp second) cell there))
  refine (List.perm_ext_iff_of_nodup distinct laid.adds.nodup).mpr fun cell => ?_
  rw [List.mem_flatMap]
  constructor
  · rintro ⟨b, inside, here⟩
    exact laid.buckets.hung_of_mem (List.mem_range.mp inside) here
  · intro member
    exact ⟨_, List.mem_range.mpr (laid.buckets.bucketId_lt _), (laid.buckets.members cell).mp member⟩

theorem partitioned (laid : Laid hash pool layout) : pool.Partitioned layout where
  nodes := laid.nodes
  hung := laid.hung
  cells := laid.stored.cells
  adds := laid.adds.forward
  freeNodes := laid.freeChain
  buckets := fun b bound => (laid.buckets.linked b bound).forward
  blocks := laid.stored.blocks
  freeChunks := laid.stored.freeChain

theorem counted (laid : Laid hash pool layout) (shaped : pool.Shaped para) :
    Counted para pool layout.free layout.freeChunks where
  shaped := shaped
  occupied := by
    have same : pool.occupied = (List.range pool.bucketSize).countP fun b => layout.chain b ≠ [] := by
      refine List.countP_congr fun b member => ?_
      simpa using not_congr (laid.buckets.bucket_eq_none_iff (List.mem_range.mp member))
    rw [same, laid.buckets.occupied]
  nodeChain := laid.freeChain
  nodes := by
    have total := laid.nodes.length_eq
    simp only [List.length_append, List.length_range] at total
    rw [laid.buckets.counted]
    omega
  fits := laid.free_length_le
  chunkChain := laid.stored.freeChain
  chunks := laid.stored.counted
  fitsChunks := laid.stored.free_length_le

theorem reopens (laid : Laid hash pool layout) (shaped : pool.Shaped para) : Reopens para pool :=
  (laid.counted shaped).reopens_iff.mpr ⟨layout, laid.partitioned⟩

end HashMap.Laid

end TeenpattiUserServer.Shm
