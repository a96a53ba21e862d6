import Mathlib.Data.List.Basic
import Mathlib.Data.List.Nodup
import Mathlib.Data.List.Perm.Basic
import TeenpattiUserServer.Shm.ChunkChains

/-! The chunk pool seen from the table: each used node owns one chain of chunks,
the other chunks are free, and no chunk is lost. -/

namespace TeenpattiUserServer.Shm

open Store Intrusive ChunkAllocator

/-- Every chunk is in the block of exactly one used node or in the free list. -/
structure Stored (chunks : ChunkPool) (chunkHead : Nat → Handler) (chunkLen : Nat → Nat)
    (used : List Nat) (block : Nat → List Nat) (free : List Nat) : Prop where
  positive : 0 < chunks.chunkSize
  blocks : ∀ node ∈ used, Chain chunks.next (chunkHead node) (block node) none
  sized : ∀ node ∈ used, (block node).length = getChunkNum chunks.chunkSize (chunkLen node)
  freeChain : Chain chunks.next chunks.freeList free none
  cells : (used.flatMap block ++ free).Perm (List.range chunks.chunkTotal)
  distinct : used.Nodup
  counted : chunks.freeTotal = free.length

namespace Stored

variable {chunks : ChunkPool} {chunkHead : Nat → Handler} {chunkLen : Nat → Nat} {used others : List Nat}
  {block : Nat → List Nat} {free : List Nat} {node : Nat}

theorem perm (stored : Stored chunks chunkHead chunkLen used block free) (same : used.Perm others) :
    Stored chunks chunkHead chunkLen others block free where
  positive := stored.positive
  blocks := fun node member => stored.blocks node (same.mem_iff.mpr member)
  sized := fun node member => stored.sized node (same.mem_iff.mpr member)
  freeChain := stored.freeChain
  cells := ((same.flatMap_right block).symm.append_right free).trans stored.cells
  distinct := same.nodup_iff.mp stored.distinct
  counted := stored.counted

/-- Only the heads and lengths of used nodes matter. -/
theorem congr (stored : Stored chunks chunkHead chunkLen used block free)
    {head : Nat → Handler} {len : Nat → Nat} (sameHead : ∀ node ∈ used, head node = chunkHead node)
    (sameLen : ∀ node ∈ used, len node = chunkLen node) : Stored chunks head len used block free where
  positive := stored.positive
  blocks := fun node member => by rw [sameHead node member]; exact stored.blocks node member
  sized := fun node member => by rw [sameLen node member]; exact stored.sized node member
  freeChain := stored.freeChain
  cells := stored.cells
  distinct := stored.distinct
  counted := stored.counted

theorem nodup_cells (stored : Stored chunks chunkHead chunkLen used block free) :
    (used.flatMap block ++ free).Nodup := stored.cells.nodup_iff.mpr List.nodup_range

theorem apart_free (stored : Stored chunks chunkHead chunkLen used block free) (member : node ∈ used) :
    ∀ cell ∈ block node, cell ∉ free := fun cell inside free =>
  (List.nodup_append.mp stored.nodup_cells).2.2 cell (List.mem_flatMap.mpr ⟨node, member, inside⟩) cell free rfl

theorem apart_block (stored : Stored chunks chunkHead chunkLen used block free) (member : node ∈ used)
    {other : Nat} (otherMember : other ∈ used) (different : other ≠ node) :
    ∀ cell ∈ block other, cell ∉ block node := by
  have pairwise := (List.nodup_flatMap.mp (List.nodup_append.mp stored.nodup_cells).1).2
  have symmetric : Std.Symm (Function.onFun List.Disjoint block) := ⟨fun _ _ apart _ first second => apart second first⟩
  exact fun cell inOther inNode => pairwise.forall otherMember member different inOther inNode

theorem block_length_le (stored : Stored chunks chunkHead chunkLen used block free) (member : node ∈ used) :
    (block node).length ≤ chunks.chunkTotal := by
  have inside : block node ⊆ List.range chunks.chunkTotal := fun cell found =>
    stored.cells.subset (List.mem_append_left _ (List.mem_flatMap.mpr ⟨node, member, found⟩))
  simpa using (stored.blocks node member).nodup.length_le_of_subset inside

theorem free_length_le (stored : Stored chunks chunkHead chunkLen used block free) :
    free.length ≤ chunks.chunkTotal := by
  have length := stored.cells.length_eq
  simp only [List.length_append, List.length_range] at length
  omega

/-- The bytes stored for a node. -/
def contents (chunks : ChunkPool) (chunkLen : Nat → Nat) (block : Nat → List Nat) (node : Nat) : List UInt8 :=
  payload chunks.chunkSize chunks.data (block node) (chunkLen node)

/-- The data areas do not matter. -/
theorem withData (stored : Stored chunks chunkHead chunkLen used block free) (data : Nat → List UInt8) :
    Stored { chunks with data := data } chunkHead chunkLen used block free where
  positive := stored.positive
  blocks := stored.blocks
  sized := stored.sized
  freeChain := stored.freeChain
  cells := stored.cells
  distinct := stored.distinct
  counted := stored.counted

/-- Only the number of chunks matters of a length. -/
theorem withLen (stored : Stored chunks chunkHead chunkLen used block free) {len : Nat → Nat}
    (same : ∀ node ∈ used, getChunkNum chunks.chunkSize (len node) = getChunkNum chunks.chunkSize (chunkLen node)) :
    Stored chunks chunkHead len used block free where
  positive := stored.positive
  blocks := stored.blocks
  sized := fun node member => (stored.sized node member).trans (same node member).symm
  freeChain := stored.freeChain
  cells := stored.cells
  distinct := stored.distinct
  counted := stored.counted

/-- `malloc` makes the front of the free list, reversed, the block of a node that owns none. -/
theorem acquire (stored : Stored chunks chunkHead chunkLen used block free)
    {count : Nat} (enough : count ≤ free.length) :
    ∃ middle, Prog.exec (malloc count) chunks = some ((free.take count).reverse.head?, middle) ∧
      middle.chunkSize = chunks.chunkSize ∧ middle.chunkTotal = chunks.chunkTotal ∧ middle.data = chunks.data ∧
      ∀ node len, node ∉ used → getChunkNum chunks.chunkSize len = count →
        Stored middle (Function.update chunkHead node (free.take count).reverse.head?)
          (Function.update chunkLen node len) (node :: used) (Function.update block node (free.take count).reverse)
          (free.drop count) := by
  let taken := free.take count
  let rest := free.drop count
  have takenLength : taken.length = count := List.length_take_of_le enough
  have whole : taken ++ rest = free := List.take_append_drop count free
  have restLength : rest.length = free.length - count := List.length_drop ..
  have freeChain : Chain chunks.next chunks.freeList (taken ++ rest) none := whole ▸ stored.freeChain
  obtain ⟨next, ran, chain, outside⟩ := exec_malloc freeChain (by rw [stored.counted, takenLength]; omega)
  rw [takenLength] at ran
  refine ⟨_, ran, rfl, rfl, rfl, fun node len fresh sized => ?_⟩
  have freshCells : ∀ other ∈ used, ∀ cell ∈ block other, cell ∉ taken := fun other member cell inside twice =>
    stored.apart_free member cell inside (List.mem_of_mem_take twice)
  have keptBlock : ∀ other, other ∈ used → Function.update block node taken.reverse other = block other :=
    fun other member => Function.update_of_ne (by rintro rfl; exact fresh member) ..
  refine ⟨stored.positive, ?_, ?_, ?_, ?_, List.nodup_cons.mpr ⟨fresh, stored.distinct⟩, ?_⟩
  · intro other member
    rcases List.mem_cons.mp member with same | old
    · subst other
      simpa using chain
    · have different : other ≠ node := fun same => fresh (same ▸ old)
      rw [Function.update_of_ne different, Function.update_of_ne different]
      exact (stored.blocks other old).congr fun cell inside => outside cell (freshCells other old cell inside)
  · intro other member
    rcases List.mem_cons.mp member with same | old
    · subst other
      rw [Function.update_self, Function.update_self, List.length_reverse]
      exact takenLength.trans sized.symm
    · have different : other ≠ node := fun same => fresh (same ▸ old)
      rw [Function.update_of_ne different, Function.update_of_ne different]
      exact stored.sized other old
  · obtain ⟨_, _, tail⟩ := chain_append.mp freeChain
    have restOutside : ∀ cell ∈ rest, cell ∉ taken := by
      intro cell inRest inTaken
      have unique := List.nodup_append.mp freeChain.nodup
      exact unique.2.2 cell inTaken cell inRest rfl
    change Chain next rest.head? rest none
    rw [← tail.head]
    exact tail.congr fun cell inside => outside cell (restOutside cell inside)
  · have same : used.flatMap (Function.update block node taken.reverse) = used.flatMap block :=
      List.flatMap_congr keptBlock
    rw [List.flatMap_cons, Function.update_self, same]
    have joined : (used.flatMap block ++ (taken ++ rest)).Perm (List.range chunks.chunkTotal) :=
      whole ▸ stored.cells
    change (taken.reverse ++ used.flatMap block ++ rest).Perm (List.range chunks.chunkTotal)
    refine List.Perm.trans ?_ joined
    rw [← List.append_assoc]
    refine List.Perm.append_right rest ?_
    exact ((List.reverse_perm taken).append_right _).trans List.perm_append_comm
  · change chunks.freeTotal - count = _
    rw [stored.counted, restLength]
    omega

/-- `split` into the block a node already owns. -/
theorem rewrite (stored : Stored chunks chunkHead chunkLen used block free) (member : node ∈ used)
    {bytes : List UInt8} (same : getChunkNum chunks.chunkSize (chunkLen node) =
      getChunkNum chunks.chunkSize bytes.length) :
    ∃ after, Prog.exec (split (chunkHead node) bytes) chunks = some ((), after) ∧
      after.chunkSize = chunks.chunkSize ∧ after.chunkTotal = chunks.chunkTotal ∧
      Stored after chunkHead (Function.update chunkLen node bytes.length) used block free ∧
      payload after.chunkSize after.data (block node) bytes.length = bytes ∧
      ∀ other ∈ used, other ≠ node → contents after chunkLen block other = contents chunks chunkLen block other := by
  obtain ⟨data, wrote, kept, reads⟩ := exec_splitLoop bytes (stored.blocks node member)
    (stored.block_length_le member)
  refine ⟨{ chunks with data := data }, by simpa [split] using wrote, rfl, rfl, ?_, ?_, ?_⟩
  · refine (stored.withData data).withLen fun other inside => ?_
    by_cases equal : other = node
    · subst other
      rw [Function.update_self]
      exact same.symm
    · rw [Function.update_of_ne equal]
  · exact reads (by
      rw [stored.sized node member, same]
      exact getChunkNum_fits stored.positive)
  · intro other inside different
    exact payload_congr fun cell found => kept cell (stored.apart_block member inside different cell found)

/-- `malloc` and `split` for a node that owns no block: both succeed when enough
chunks are free, and give the node its bytes. -/
theorem allocate (stored : Stored chunks chunkHead chunkLen used block free) (fresh : node ∉ used)
    (bytes : List UInt8) (enough : getChunkNum chunks.chunkSize bytes.length ≤ free.length) :
    ∃ head cells middle after,
      Prog.exec (malloc (getChunkNum chunks.chunkSize bytes.length)) chunks = some (head, middle) ∧
      Prog.exec (split head bytes) middle = some ((), after) ∧
      (head = none ↔ bytes = []) ∧
      after.chunkSize = chunks.chunkSize ∧ after.chunkTotal = chunks.chunkTotal ∧
      Stored after (Function.update chunkHead node head) (Function.update chunkLen node bytes.length)
        (node :: used) (Function.update block node cells)
        (free.drop (getChunkNum chunks.chunkSize bytes.length)) ∧
      payload after.chunkSize after.data cells bytes.length = bytes ∧
      ∀ other ∈ used, contents after chunkLen block other = contents chunks chunkLen block other := by
  obtain ⟨middle, ran, size, total, same, acquired⟩ := stored.acquire enough
  have given := acquired node bytes.length fresh rfl
  have sized : getChunkNum middle.chunkSize (Function.update chunkLen node bytes.length node) =
      getChunkNum middle.chunkSize bytes.length := by rw [Function.update_self]
  obtain ⟨after, wrote, sizeAfter, totalAfter, written, reads, kept⟩ := given.rewrite (List.mem_cons_self ..) sized
  rw [Function.update_self] at wrote reads
  rw [Function.update_idem] at written
  refine ⟨_, _, middle, after, ran, wrote, ?_, sizeAfter.trans size, totalAfter.trans total, written, reads, ?_⟩
  · rw [List.head?_eq_none_iff, List.reverse_eq_nil_iff, ← List.length_eq_zero_iff, List.length_take_of_le enough]
    constructor
    · intro zero
      by_contra nonempty
      have positive := getChunkNum_pos stored.positive (List.length_pos_iff.mpr nonempty)
      omega
    · rintro rfl
      exact getChunkNum_zero
  · intro other member
    have different : other ≠ node := fun same => fresh (same ▸ member)
    have unchanged := kept other (List.mem_cons_of_mem node member) different
    simp only [contents, Function.update_of_ne different, size, same] at unchanged
    exact unchanged

/-- `free` gives the whole block of a node back. -/
theorem release (stored : Stored chunks chunkHead chunkLen used block free) (member : node ∈ used) :
    ∃ after, Prog.exec (ChunkAllocator.free (chunkHead node)) chunks = some ((), after) ∧
      after.chunkSize = chunks.chunkSize ∧ after.chunkTotal = chunks.chunkTotal ∧ after.data = chunks.data ∧
      Stored after chunkHead chunkLen (used.erase node) block ((block node).reverse ++ free) := by
  have chain := stored.blocks node member
  obtain ⟨next, ran, joined, outside⟩ := exec_freeLoop chain stored.freeChain
    (stored.apart_free member) (stored.block_length_le member)
  have split := List.perm_cons_erase member
  have othersApart : ∀ other ∈ used.erase node, ∀ cell ∈ block other, cell ∉ block node := by
    intro other inside
    have different := stored.distinct.mem_erase_iff.mp inside
    exact stored.apart_block member different.2 different.1
  let after : ChunkPool := { chunks with
    freeTotal := chunks.freeTotal + (block node).length
    freeList := ((block node).reverse ++ free).head?, next := next }
  have freed : Prog.exec (ChunkAllocator.free (chunkHead node)) chunks = some ((), after) := by
    simp only [ChunkAllocator.free, Prog.exec_bind, Prog.exec_read, Option.bind_some]
    exact ran
  refine ⟨after, freed, rfl, rfl, rfl, stored.positive, ?_, ?_, joined, ?_, stored.distinct.erase node, ?_⟩
  · intro other inside
    exact (stored.blocks other (List.mem_of_mem_erase inside)).congr
      fun cell found => outside cell (othersApart other inside cell found)
  · exact fun other inside => stored.sized other (List.mem_of_mem_erase inside)
  · refine List.Perm.trans ?_ stored.cells
    have blocks := (split.flatMap_right block).append_right free
    rw [List.flatMap_cons] at blocks
    refine List.Perm.trans ?_ blocks.symm
    rw [← List.append_assoc]
    refine List.Perm.append_right free ?_
    exact (List.perm_append_comm).trans ((List.reverse_perm _).append_right _)
  · simp [after, stored.counted]
    omega

end Stored

end TeenpattiUserServer.Shm
