import Mathlib.Data.List.Basic
import Mathlib.Data.List.Perm.Basic
import TeenpattiUserServer.Shm.Layout

/-! Insertion, update, deletion, initialisation and verification of a laid out
pool. -/

namespace TeenpattiUserServer.Shm.HashMap

open Store Intrusive ChunkAllocator

variable {Key : Type} {hash : Key → Nat} {pool : Pool Key} {layout : Layout} {node : Nat}

namespace Laid

/-- A node that is in no list may be pushed without being unlinked first. -/
theorem unlink_fresh {links : Links Nat} {cells : List Nat} (holds : links.Holds cells)
    (fresh : node ∉ cells) (idle : links.next node = none ∧ links.prev node = none) :
    links.unlink node = links := by
  apply Links.unlink_idle idle.1 idle.2
  · rw [holds.head_eq]
    exact fun first => fresh (List.mem_of_mem_head? first)
  · rw [holds.tail_eq]
    exact fun last => fresh (List.mem_of_getLast? last)

/-- Without a free node, a byte to store or the chunks for it, nothing is inserted. -/
theorem insert_fails (laid : Laid hash pool layout) (key : Key) (data : List UInt8)
    (lack : layout.free = [] ∨ data = [] ∨
      layout.freeChunks.length < getChunkNum pool.chunks.chunkSize data.length) :
    Prog.exec (insertNode hash key data) pool = some (none, pool) := by
  have freeChain := laid.freeChain
  cases shape : layout.free with
  | nil =>
    rw [shape] at freeChain
    have none : pool.freeList = none := freeChain
    simp [insertNode, freeListRemove, none]
  | cons node rest =>
    rw [shape] at freeChain
    have atHead : pool.freeList = some node := freeChain.1
    have refused : Prog.exec (malloc (getChunkNum pool.chunks.chunkSize data.length)) pool.chunks =
        some (none, pool.chunks) := by
      rcases lack with noNode | noByte | noChunk
      · simp [shape] at noNode
      · simp [noByte, exec_malloc_zero]
      · exact exec_malloc_lack (by rw [laid.stored.counted]; omega)
    simp [insertNode, freeListRemove, atHead, setFreeList, setNodeNext, allocator, refused, freeListInsert]
    rw [← atHead]

theorem insert (laid : Laid hash pool layout) (key : Key) {data : List UInt8} {rest : List Nat}
    (free : layout.free = node :: rest) (nonempty : data ≠ [])
    (enough : getChunkNum pool.chunks.chunkSize data.length ≤ layout.freeChunks.length) :
    ∃ after chain block, Prog.exec (insertNode hash key data) pool = some (some node, after) ∧
      Laid hash after ⟨chain, node :: layout.recent, rest, block,
        layout.freeChunks.drop (getChunkNum pool.chunks.chunkSize data.length)⟩ ∧
      pool.SameShape after ∧ after.entry node = ⟨key, data⟩ ∧
      ∀ other ∈ layout.recent, after.entry other = pool.entry other := by
  have isFree : node ∈ layout.free := by simp [free]
  have fresh := laid.free_not_recent isFree
  have idle := laid.idle node isFree
  have freeChain := free ▸ laid.freeChain
  have freshRest : node ∉ rest := (List.nodup_cons.mp freeChain.nodup).1
  obtain ⟨atHead, tail⟩ := freeChain
  obtain ⟨head, cells, middle, chunks, got, wrote, headNone, size, total, stored, reads, kept⟩ :=
    laid.stored.allocate fresh data enough
  obtain ⟨headChunk, rfl⟩ := Option.ne_none_iff_exists'.mp (fun none => nonempty (headNone.mp none))
  let filled : Pool Key := { pool with
    freeList := pool.nodeNext node, nodeNext := Function.update pool.nodeNext node none, chunks := chunks }
  have buckets : Buckets hash filled layout.chain layout.recent := by
    refine laid.buckets.congr rfl rfl rfl rfl rfl fun other inside => ⟨?_, rfl⟩
    exact Function.update_of_ne (by rintro rfl; exact fresh inside) ..
  obtain ⟨nodes, occupied, bucket, next, prev, used, hung, frame⟩ :=
    buckets.exec_useNode fresh laid.recent_length_le key data.length (some headChunk)
  let named : Pool Key := { filled with
    key := Function.update pool.key node key, chunkLen := Function.update pool.chunkLen node data.length
    chunkHead := Function.update pool.chunkHead node (some headChunk), usedNodeNum := nodes
    usedBucketNum := occupied, bucket := bucket, nodeNext := next, nodePrev := prev }
  have adds : named.addLinks.Holds layout.recent := laid.adds
  have unlinked : named.addLinks.unlink node = named.addLinks := unlink_fresh adds fresh idle
  let after := named.withAdd (named.addLinks.pushFront node)
  have pushed : Prog.exec (insertAddListHead node) named = _ := exec_insertAddListHead node
  rw [unlinked] at pushed
  have storedAfter : Stored after.chunks after.chunkHead after.chunkLen (node :: layout.recent)
      (Function.update layout.block node cells) _ := stored
  have bytesNew : after.bytes node = data := by
    rw [storedAfter.bytes_eq (List.mem_cons_self ..)]
    simpa [Stored.contents, after, named, filled, Pool.withAdd] using reads
  have bytesOld : ∀ other ∈ layout.recent, after.bytes other = pool.bytes other := by
    intro other inside
    have different : other ≠ node := by rintro rfl; exact fresh inside
    rw [storedAfter.bytes_eq (List.mem_cons_of_mem _ inside), laid.stored.bytes_eq inside, ← kept other inside]
    simp [Stored.contents, after, named, filled, Pool.withAdd, Function.update_of_ne different]
  let bucketId := getBucketId hash filled key
  refine ⟨after, Function.update layout.chain bucketId (node :: layout.chain bucketId),
    Function.update layout.block node cells, ?_, ⟨?_, adds.pushFront fresh, ?_, ?_, ?_, stored, ?_⟩,
    ⟨rfl, rfl, total, size⟩, ?_, ?_⟩
  · simp only [insertNode, freeListRemove, setFreeList, setNodeNext, allocator, Prog.exec_bind, Prog.exec_read,
      Option.bind_some, atHead, Prog.exec_write, Prog.exec_pure, Prog.exec_within, got, Option.map_some, wrote]
    change (Prog.exec (useNode hash node key data.length (some headChunk)) filled).bind _ = _
    rw [used]
    change (Prog.exec (insertAddListHead node) named).bind _ = _
    rw [pushed]
    rfl
  · exact ⟨hung.positive, hung.linked, hung.homed, hung.members, hung.distinct, hung.counted, hung.occupied⟩
  · intro other inside
    have member : other ∈ layout.free := by simp [free, inside]
    have different : other ≠ node := by rintro rfl; exact freshRest inside
    have kept := adds.pushFront_outside different (laid.free_not_recent member)
    have old := laid.idle other member
    exact ⟨kept.1.trans old.1, kept.2.trans old.2⟩
  · refine tail.congr fun other inside => ?_
    have different : other ≠ node := by rintro rfl; exact freshRest inside
    exact (frame other different).trans (Function.update_of_ne different ..)
  · refine List.Perm.trans ?_ laid.nodes
    rw [free]
    exact List.perm_middle.symm
  · intro other inside
    rcases List.mem_cons.mp inside with same | old
    · subst other
      rw [bytesNew]
      simp [after, named, Pool.withAdd]
    · have different : other ≠ node := by rintro rfl; exact fresh old
      rw [bytesOld other old, laid.filled other old]
      simp [after, named, Pool.withAdd, Function.update_of_ne different]
  · exact Pool.entry_eq (Function.update_self ..) bytesNew
  · intro other inside
    have different : other ≠ node := by rintro rfl; exact fresh inside
    exact Pool.entry_eq (Function.update_of_ne different ..) (bytesOld other inside)

/-- New bytes for one node leave the lists of nodes alone. -/
private theorem refill (laid : Laid hash pool layout) (member : node ∈ layout.recent) {data : List UInt8}
    {chunks : ChunkPool} {heads : Nat → Handler} {block : Nat → List Nat} {freeChunks : List Nat}
    (stored : Stored chunks heads (Function.update pool.chunkLen node data.length) layout.recent block freeChunks)
    (reads : payload chunks.chunkSize chunks.data (block node) data.length = data)
    (kept : ∀ other ∈ layout.recent, other ≠ node →
      Stored.contents chunks pool.chunkLen block other = pool.bytes other) :
    let after : Pool Key := { pool with
      chunkLen := Function.update pool.chunkLen node data.length, chunkHead := heads, chunks := chunks }
    Laid hash after { layout with block := block, freeChunks := freeChunks } ∧
      after.entry node = ⟨pool.key node, data⟩ ∧
      ∀ other ∈ layout.recent, other ≠ node → after.entry other = pool.entry other := by
  intro after
  have storedAfter : Stored after.chunks after.chunkHead after.chunkLen layout.recent block freeChunks := stored
  have bytesNew : after.bytes node = data := by
    rw [storedAfter.bytes_eq member]
    simpa [Stored.contents, after] using reads
  have bytesOld : ∀ other ∈ layout.recent, other ≠ node → after.bytes other = pool.bytes other := by
    intro other inside different
    rw [storedAfter.bytes_eq inside, ← kept other inside different]
    simp [Stored.contents, after, Function.update_of_ne different]
  refine ⟨⟨?_, laid.adds, laid.idle, laid.freeChain, laid.nodes, stored, ?_⟩, Pool.entry_eq rfl bytesNew, ?_⟩
  · exact laid.buckets.congr rfl rfl rfl rfl rfl fun _ _ => ⟨rfl, rfl⟩
  · intro other inside
    by_cases same : other = node
    · subst other
      simp [bytesNew, after]
    · rw [bytesOld other inside same, laid.filled other inside]
      simp [after, Function.update_of_ne same]
  · exact fun other inside different => Pool.entry_eq rfl (bytesOld other inside different)

/-- An update that needs more chunks than are free is refused before anything is freed. -/
theorem update_fails (laid : Laid hash pool layout) (node : Nat) (data : List UInt8)
    (lack : layout.freeChunks.length + getChunkNum pool.chunks.chunkSize (pool.chunkLen node) <
      getChunkNum pool.chunks.chunkSize data.length) :
    Prog.exec (updateNode node data) pool = some (none, pool) := by
  have grows : getChunkNum pool.chunks.chunkSize (pool.chunkLen node) <
      getChunkNum pool.chunks.chunkSize data.length := by omega
  have short : pool.chunks.freeTotal < ((getChunkNum pool.chunks.chunkSize data.length -
      getChunkNum pool.chunks.chunkSize (pool.chunkLen node) : Nat) : Int) := by
    rw [laid.stored.counted]
    omega
  simp only [updateNode, Prog.exec_bind, Prog.exec_read, Option.bind_some, id_eq, Prog.exec_ite]
  rw [if_pos (Nat.ne_of_lt grows), if_pos ⟨grows, short⟩, Prog.exec_pure]

theorem update (laid : Laid hash pool layout) (member : node ∈ layout.recent) {data : List UInt8}
    (enough : getChunkNum pool.chunks.chunkSize data.length ≤
      layout.freeChunks.length + getChunkNum pool.chunks.chunkSize (pool.chunkLen node)) :
    ∃ after block freeChunks, Prog.exec (updateNode node data) pool = some (some node, after) ∧
      Laid hash after { layout with block := block, freeChunks := freeChunks } ∧
      freeChunks.length + getChunkNum pool.chunks.chunkSize data.length =
        layout.freeChunks.length + getChunkNum pool.chunks.chunkSize (pool.chunkLen node) ∧
      pool.SameShape after ∧ after.entry node = ⟨pool.key node, data⟩ ∧
      ∀ other ∈ layout.recent, other ≠ node → after.entry other = pool.entry other := by
  by_cases same : getChunkNum pool.chunks.chunkSize (pool.chunkLen node) =
      getChunkNum pool.chunks.chunkSize data.length
  · obtain ⟨chunks, wrote, size, total, stored, reads, kept⟩ := laid.stored.rewrite member same
    obtain ⟨laidAfter, entryNew, entryOld⟩ := laid.refill member stored reads fun other inside different =>
      (kept other inside different).trans (laid.stored.bytes_eq inside).symm
    refine ⟨_, _, _, ?_, laidAfter, by rw [same], ⟨rfl, rfl, total, size⟩, entryNew, entryOld⟩
    simp [updateNode, same, allocator, wrote, setChunkLen]
  · obtain ⟨freed, freedRun, freedSize, freedTotal, freedData, released⟩ := laid.stored.release member
    have absent : node ∉ layout.recent.erase node := laid.adds.nodup.not_mem_erase
    have available : getChunkNum freed.chunkSize data.length ≤
        ((layout.block node).reverse ++ layout.freeChunks).length := by
      have length := laid.stored.sized node member
      simp only [List.length_append, List.length_reverse, freedSize]
      omega
    obtain ⟨head, cells, middle, chunks, got, wrote, _, size, total, allocated, reads, kept⟩ :=
      released.allocate absent data available
    have stored := allocated.perm (List.perm_cons_erase member).symm
    have entries : ∀ other ∈ layout.recent, other ≠ node →
        Stored.contents chunks pool.chunkLen (Function.update layout.block node cells) other =
          pool.bytes other := by
      intro other inside different
      have still : other ∈ layout.recent.erase node := (List.mem_erase_of_ne different).mpr inside
      rw [laid.stored.bytes_eq inside]
      have before := kept other still
      simp only [Stored.contents, freedSize, freedData] at before
      simpa [Stored.contents, Function.update_of_ne different] using before
    obtain ⟨laidAfter, entryNew, entryOld⟩ := laid.refill member stored (by simpa using reads) entries
    have granted : ¬ (getChunkNum pool.chunks.chunkSize (pool.chunkLen node) <
        getChunkNum pool.chunks.chunkSize data.length ∧ pool.chunks.freeTotal <
          ((getChunkNum pool.chunks.chunkSize data.length -
            getChunkNum pool.chunks.chunkSize (pool.chunkLen node) : Nat) : Int)) := by
      rw [laid.stored.counted]
      omega
    refine ⟨_, _, _, ?_, laidAfter, ?_, ⟨rfl, rfl, total.trans freedTotal, size.trans freedSize⟩, entryNew, entryOld⟩
    · rw [freedSize] at got
      simp only [updateNode, Prog.exec_bind, Prog.exec_read, Option.bind_some, id_eq, Prog.exec_ite]
      rw [if_pos same, if_neg granted]
      simp [allocator, freedRun, got, wrote, setChunkLen, setChunkHead]
    · have length := laid.stored.sized node member
      simp only [List.length_drop, List.length_append, List.length_reverse, freedSize] at available ⊢
      omega

/-- A deleted node goes to the front of the free list and its chunks are freed. -/
theorem delete (laid : Laid hash pool layout) (member : node ∈ layout.recent) :
    ∃ after chain freeChunks, Prog.exec (deleteNode hash node) pool = some (0, after) ∧
      Laid hash after ⟨chain, layout.recent.erase node, node :: layout.free, layout.block, freeChunks⟩ ∧
      freeChunks.length = layout.freeChunks.length + getChunkNum pool.chunks.chunkSize (pool.chunkLen node) ∧
      pool.SameShape after ∧ ∀ other ∈ layout.recent.erase node, after.entry other = pool.entry other := by
  have distinct := laid.adds.nodup
  have absent : node ∉ layout.recent.erase node := distinct.not_mem_erase
  have notFree : node ∉ layout.free := fun isFree => laid.free_not_recent isFree member
  obtain ⟨chunks, freed, size, total, data, released⟩ := laid.stored.release member
  let cut : Pool Key := pool.withAdd (pool.addLinks.unlink node)
  have adds : cut.addLinks.Holds (layout.recent.erase node) := laid.adds.unlink_mem member
  have buckets : Buckets hash cut layout.chain layout.recent :=
    laid.buckets.congr rfl rfl rfl rfl rfl fun _ _ => ⟨rfl, rfl⟩
  have cutFreed : Prog.exec (free (cut.chunkHead node)) cut.chunks = some ((), chunks) := freed
  obtain ⟨nodes, occupied, bucket, next, prev, ran, hung, frame⟩ :=
    buckets.exec_freeNode member laid.recent_length_le cutFreed
  let bucketId := getBucketId hash cut (cut.key node)
  let after : Pool Key := { cut with
    chunkLen := Function.update pool.chunkLen node 0, chunkHead := Function.update pool.chunkHead node none
    addNext := Function.update cut.addNext node none, addPrev := Function.update cut.addPrev node none
    usedNodeNum := nodes, usedBucketNum := occupied, bucket := bucket, freeList := some node
    nodeNext := Function.update next node pool.freeList, nodePrev := prev, chunks := chunks }
  have others : ∀ other ∈ layout.recent.erase node, other ≠ node := by
    rintro other inside rfl
    exact absent inside
  have stored : Stored after.chunks after.chunkHead after.chunkLen (layout.recent.erase node) layout.block _ :=
    released.congr (fun other inside => Function.update_of_ne (others other inside) ..)
      (fun other inside => Function.update_of_ne (others other inside) ..)
  have bytesOld : ∀ other ∈ layout.recent.erase node, after.bytes other = pool.bytes other := by
    intro other inside
    rw [stored.bytes_eq inside, laid.stored.bytes_eq (List.mem_of_mem_erase inside)]
    simp [Stored.contents, after, size, data, Function.update_of_ne (others other inside)]
  refine ⟨after, Function.update layout.chain bucketId ((layout.chain bucketId).erase node), _, ?_,
    ⟨?_, ?_, ?_, ?_, ?_, stored, ?_⟩, ?_, ⟨rfl, rfl, total, size⟩, ?_⟩
  · simp only [deleteNode, Prog.exec_bind, exec_deleteFromAddList, Option.bind_some]
    change (Prog.exec (freeNode hash node) cut).bind _ = _
    rw [ran]
    rfl
  · refine hung.congr rfl rfl rfl rfl rfl fun other inside => ⟨?_, rfl⟩
    exact Function.update_of_ne (others other inside) ..
  · refine adds.congr rfl rfl fun other inside => ⟨?_, ?_⟩ <;>
      exact Function.update_of_ne (others other inside) ..
  · intro other inside
    rcases List.mem_cons.mp inside with same | old
    · subst other
      exact ⟨Function.update_self .., Function.update_self ..⟩
    · have different : other ≠ node := by rintro rfl; exact notFree old
      have before := laid.adds.unlink_outside member (laid.free_not_recent old)
      have idle := laid.idle other old
      exact ⟨(Function.update_of_ne different ..).trans (before.1.trans idle.1),
        (Function.update_of_ne different ..).trans (before.2.trans idle.2)⟩
  · refine ⟨rfl, ?_⟩
    have kept : Chain next pool.freeList layout.free none :=
      laid.freeChain.congr fun other inside => frame other (laid.free_not_recent inside)
    simpa [after] using kept.update notFree pool.freeList
  · refine List.Perm.trans List.perm_middle (List.Perm.trans ?_ laid.nodes)
    exact ((List.perm_cons_erase member).append_right layout.free).symm
  · intro other inside
    rw [bytesOld other inside, laid.filled other (List.mem_of_mem_erase inside)]
    exact (Function.update_of_ne (others other inside) ..).symm
  · have length := laid.stored.sized node member
    simp only [List.length_append, List.length_reverse]
    omega
  · exact fun other inside => Pool.entry_eq rfl (bytesOld other inside)

theorem merge (laid : Laid hash pool layout) (member : node ∈ layout.recent) (dataLen : Int) :
    Prog.exec (mergeNodeData node dataLen) pool = some (if dataLen < (pool.bytes node).length
      then (errorInvalidParam, (pool.bytes node).length, [])
      else (0, (pool.bytes node).length, pool.bytes node), pool) := by
  have ran := exec_mergeLoop (pool.chunkLen node)
    (laid.stored.blocks node member) (laid.stored.block_length_le member)
  have delivered : payload pool.chunks.chunkSize pool.chunks.data (layout.block node) (pool.chunkLen node) =
      pool.bytes node := (laid.stored.bytes_eq member).symm
  rw [laid.filled node member]
  by_cases short : dataLen < (pool.chunkLen node : Int)
  · simp [mergeNodeData, allocator, ChunkAllocator.merge, short]
  · simp [mergeNodeData, allocator, ChunkAllocator.merge, short, ran, delivered]

/-- An insertion puts the node that it takes in front, or lacks something and leaves the pool as it is. -/
theorem insert_cases (laid : Laid hash pool layout) (key : Key) (data : List UInt8) :
    ((layout.free = [] ∨ data = [] ∨ layout.freeChunks.length < getChunkNum pool.chunks.chunkSize data.length) ∧
      Prog.exec (insertNode hash key data) pool = some (none, pool)) ∨
    (¬ (layout.free = [] ∨ data = [] ∨ layout.freeChunks.length < getChunkNum pool.chunks.chunkSize data.length) ∧
      ∃ node after next, Prog.exec (insertNode hash key data) pool = some (some node, after) ∧ Laid hash after next ∧
        next.recent = node :: layout.recent ∧ node ∉ layout.recent ∧ pool.SameShape after ∧ after.key node = key ∧
        ∀ other ∈ layout.recent, after.key other = pool.key other) := by
  by_cases lack : layout.free = [] ∨ data = [] ∨
      layout.freeChunks.length < getChunkNum pool.chunks.chunkSize data.length
  · exact .inl ⟨lack, laid.insert_fails key data lack⟩
  · refine .inr ⟨lack, ?_⟩
    rw [not_or, not_or, not_lt] at lack
    obtain ⟨node, rest, free⟩ := List.exists_cons_of_ne_nil lack.1
    obtain ⟨after, _, _, ran, laidAfter, shape, own, others⟩ := laid.insert key free lack.2.1 lack.2.2
    exact ⟨node, after, _, ran, laidAfter, rfl, laid.free_not_recent (by simp [free]), shape,
      congrArg Sigma.fst own, fun other inside => congrArg Sigma.fst (others other inside)⟩

/-- An update leaves the used nodes and their keys, whether there are the chunks for it or not. -/
theorem update_cases (laid : Laid hash pool layout) (member : node ∈ layout.recent) (data : List UInt8) :
    ∃ found after next, Prog.exec (updateNode node data) pool = some (found, after) ∧ Laid hash after next ∧
      next.recent = layout.recent ∧ pool.SameShape after ∧
      ∀ other ∈ layout.recent, after.key other = pool.key other := by
  by_cases lack : layout.freeChunks.length + getChunkNum pool.chunks.chunkSize (pool.chunkLen node) <
      getChunkNum pool.chunks.chunkSize data.length
  · exact ⟨none, pool, layout, laid.update_fails node data lack, laid, rfl, .refl pool, fun _ _ => rfl⟩
  · obtain ⟨after, _, _, ran, laidAfter, _, shape, own, others⟩ := laid.update member (not_lt.mp lack)
    refine ⟨_, after, _, ran, laidAfter, rfl, shape, fun other inside => ?_⟩
    by_cases same : other = node
    · rw [same]
      exact congrArg Sigma.fst own
    · exact congrArg Sigma.fst (others other inside same)

end Laid

private theorem exec_clearBuckets (pool : Pool Key) (count : Nat) :
    ∃ bucket, Prog.exec (Prog.upto (fun i => setBucket i none) count) pool =
        some ((), { pool with bucket := bucket }) ∧ ∀ b, b < count → bucket b = none := by
  obtain ⟨final, ran, bucket, rfl, empty⟩ :=
    Prog.exec_upto (fun i => setBucket i none)
      (fun i current => ∃ bucket, current = { pool with bucket := bucket } ∧ ∀ b, b < i → bucket b = none) count
      ⟨pool.bucket, rfl, by simp⟩ (by
        rintro i _ current ⟨bucket, rfl, empty⟩
        refine ⟨_, rfl, Function.update bucket i none, rfl, fun b bound => ?_⟩
        by_cases same : b = i
        · simp [same]
        · rw [Function.update_of_ne same]
          exact empty b (by omega))
  exact ⟨bucket, ran, empty⟩

/-- The nodes enter the free list from the first to the last. -/
private theorem exec_linkNodes (pool : Pool Key) (count : Nat) (start : pool.freeList = none) :
    ∃ chunkLen chunkHead next prev addNext addPrev,
      Prog.exec (Prog.upto (fun i => do initNode i; freeListInsert i) count) pool =
        some ((), { pool with
          freeList := (List.range count).reverse.head?, chunkLen := chunkLen, chunkHead := chunkHead
          nodeNext := next, nodePrev := prev, addNext := addNext, addPrev := addPrev }) ∧
      Chain next (List.range count).reverse.head? (List.range count).reverse none ∧
      ∀ node, node < count → addNext node = none ∧ addPrev node = none := by
  let holds (i : Nat) (current : Pool Key) : Prop :=
    ∃ chunkLen chunkHead next prev addNext addPrev,
      current = { pool with
        freeList := (List.range i).reverse.head?, chunkLen := chunkLen, chunkHead := chunkHead
        nodeNext := next, nodePrev := prev, addNext := addNext, addPrev := addPrev } ∧
      Chain next (List.range i).reverse.head? (List.range i).reverse none ∧
      ∀ node, node < i → addNext node = none ∧ addPrev node = none
  obtain ⟨final, ran, chunkLen, chunkHead, next, prev, addNext, addPrev, rfl, chain, idle⟩ :=
    Prog.exec_upto (fun i => do initNode i; freeListInsert i) holds count (show holds 0 pool by
        refine ⟨pool.chunkLen, pool.chunkHead, pool.nodeNext, pool.nodePrev, pool.addNext, pool.addPrev,
          ?_, rfl, by simp⟩
        simp [← start]) (by
        rintro i _ current ⟨chunkLen, chunkHead, next, prev, addNext, addPrev, rfl, chain, idle⟩
        have fresh : i ∉ (List.range i).reverse := by simp
        let added := Function.update (Function.update next i none) i (List.range i).reverse.head?
        have linked : Chain added (some i) (i :: (List.range i).reverse) none :=
          ⟨rfl, by simpa [added] using chain.update fresh _⟩
        rw [show i :: (List.range i).reverse = (List.range (i + 1)).reverse by simp [List.range_succ]] at linked
        refine ⟨_, rfl, Function.update chunkLen i 0, Function.update chunkHead i none, added,
          Function.update prev i none, Function.update addNext i none, Function.update addPrev i none,
          by rw [← linked.head], linked.head ▸ linked, fun node bound => ?_⟩
        by_cases same : node = i
        · simp [same]
        · rw [Function.update_of_ne same, Function.update_of_ne same]
          exact idle node (by omega))
  exact ⟨chunkLen, chunkHead, next, prev, addNext, addPrev, ran, chain, idle⟩

/-- Whatever the memory held, an initialised pool has no used node. -/
theorem exec_openPool_init (hash : Key → Nat) (nodeTotal nChunks : Nat) {bucketSize chunkSize : Nat}
    (buckets : 0 < bucketSize) (chunks : 0 < chunkSize) (memory : Pool Key) :
    ∃ after, Prog.exec (openPool true nodeTotal bucketSize nChunks chunkSize) memory = some (0, after) ∧
      Laid hash after ⟨fun _ => [], [], (List.range nodeTotal).reverse, fun _ => [], (List.range nChunks).reverse⟩ ∧
      after.nodeTotal = nodeTotal ∧ after.bucketSize = bucketSize ∧
      after.chunks.chunkTotal = nChunks ∧ after.chunks.chunkSize = chunkSize := by
  let cleared : Pool Key := { memory with
    nodeTotal := nodeTotal, bucketSize := bucketSize, usedNodeNum := 0, usedBucketNum := 0
    addHead := none, addTail := none, freeList := none }
  obtain ⟨bucket, clearing, empty⟩ := exec_clearBuckets cleared bucketSize
  let emptied : Pool Key := { cleared with bucket := bucket }
  obtain ⟨chunkLen, chunkHead, next, prev, addNext, addPrev, linking, chain, idle⟩ :=
    exec_linkNodes emptied nodeTotal rfl
  obtain ⟨chunkNext, chunking, chunkChain⟩ :=
    exec_initPoolData memory.chunks nChunks chunkSize
  let after : Pool Key := { emptied with
    freeList := (List.range nodeTotal).reverse.head?, chunkLen := chunkLen, chunkHead := chunkHead
    nodeNext := next, nodePrev := prev, addNext := addNext, addPrev := addPrev
    chunks := ⟨nChunks, chunkSize, nChunks, (List.range nChunks).reverse.head?, chunkNext, memory.chunks.data⟩ }
  refine ⟨after, ?_, ⟨?_, ⟨rfl, rfl⟩, ?_, chain, ?_, ?_, ?_⟩, rfl, rfl, rfl, rfl⟩
  · simp only [openPool, initPoolData, if_true, Prog.exec_bind, Prog.exec_write, Option.bind_some, setAddHead,
      setAddTail, setFreeList]
    change ((Prog.exec (Prog.upto _ bucketSize) cleared).bind _ |>.bind _) = _
    rw [clearing]
    change ((Prog.exec (Prog.upto _ nodeTotal) emptied).bind _) = _
    rw [linking]
    simp [allocator, ChunkAllocator.openPool, chunking, after, emptied, cleared]
  · refine ⟨buckets, fun b bound => ⟨empty b bound, rfl⟩, by simp, by simp, by simp, rfl, ?_⟩
    simp [after, emptied, cleared]
  · exact fun node member => idle node (by simpa using member)
  · change ([] ++ (List.range nodeTotal).reverse).Perm (List.range nodeTotal)
    exact List.reverse_perm (List.range nodeTotal)
  · refine ⟨chunks, by simp, by simp, chunkChain, ?_, by simp, by simp [after]⟩
    change ([] ++ (List.range nChunks).reverse).Perm (List.range nChunks)
    exact List.reverse_perm (List.range nChunks)
  · simp

/-- A laid out pool passes both verifications, which change nothing. -/
theorem Laid.exec_openPool_verify (laid : Laid hash pool layout) :
    Prog.exec (openPool false pool.nodeTotal pool.bucketSize pool.chunks.chunkTotal pool.chunks.chunkSize) pool =
      some (0, pool) := by
  have freeNodes := exec_countLoop pool laid.freeChain laid.free_length_le
  have freeChunks := exec_countLoop pool.chunks laid.stored.freeChain laid.stored.free_length_le
  have same : ((List.range pool.bucketSize).countP fun b => pool.bucket b ≠ none) =
      (List.range pool.bucketSize).countP fun b => layout.chain b ≠ [] := by
    refine List.countP_congr fun b member => ?_
    simpa using not_congr (laid.buckets.bucket_eq_none_iff (List.mem_range.mp member))
  have occupied := laid.buckets.occupied
  rw [← same] at occupied
  have total := laid.nodes.length_eq
  simp only [List.length_append, List.length_range] at total
  have nodes : pool.usedNodeNum + (layout.free.length : Int) = pool.nodeTotal := by
    rw [laid.buckets.counted]
    omega
  have table : Prog.exec (verifyPoolData pool.nodeTotal pool.bucketSize) pool = some (0, pool) := by
    simp only [verifyPoolData, Prog.exec_bind, Prog.exec_read, Option.bind_some, id_eq, Prog.exec_ite]
    rw [if_neg (by simp), if_neg (by simp), if_neg (by simp [occupied])]
    simp [freeNodes, nodes]
  have chunks : Prog.exec (ChunkAllocator.verifyPoolData pool.chunks.chunkTotal pool.chunks.chunkSize)
      pool.chunks = some (0, pool.chunks) := by
    simp [ChunkAllocator.verifyPoolData, freeChunks, laid.stored.counted]
  simp [openPool, table, allocator, ChunkAllocator.openPool, chunks]

end TeenpattiUserServer.Shm.HashMap
