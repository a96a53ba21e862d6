import Mathlib.Data.List.Basic
import Mathlib.Data.List.Perm.Basic
import TeenpattiUserServer.Shm.Blocks
import TeenpattiUserServer.Shm.Buckets

/-! The whole pool. A layout says which node and which chunk is where; each
operation of the table takes a laid out pool to a laid out pool and changes the
layout by one list edit. Equal keys may be stored twice here. -/

namespace TeenpattiUserServer.Shm

open Store Intrusive

variable {Key : Type}

/-- `recent` lists the used nodes, most recently accessed first. -/
structure Layout where
  chain : Nat → List Nat
  recent : List Nat
  free : List Nat
  block : Nat → List Nat
  freeChunks : List Nat

namespace Pool

/-- The bytes `merge_node_data` delivers for a node when the buffer is large enough. -/
def bytes (pool : Pool Key) (node : Nat) : List UInt8 :=
  ChunkAllocator.payload pool.chunks.chunkSize pool.chunks.data
    ((walk pool.chunks.next pool.chunks.chunkTotal (pool.chunkHead node)).getD []) (pool.chunkLen node)

def entry (pool : Pool Key) (node : Nat) : (_ : Key) × List UInt8 := ⟨pool.key node, pool.bytes node⟩

/-- What the table stores under a key: the first node of its bucket that has it. -/
def lookup [DecidableEq Key] (hash : Key → Nat) (pool : Pool Key) (key : Key) : Option (List UInt8) :=
  (((walk pool.nodeNext pool.nodeTotal (pool.bucket (HashMap.getBucketId hash pool key))).getD []).find?
    fun node => pool.key node = key).map pool.bytes

/-- The free nodes in the order they will be handed out. -/
def freeNodes (pool : Pool Key) : Option (List Nat) := walk pool.nodeNext pool.nodeTotal pool.freeList

def freeChunks (pool : Pool Key) : Option (List Nat) :=
  walk pool.chunks.next pool.chunks.chunkTotal pool.chunks.freeList

structure SameFree (pool after : Pool Key) : Prop where
  nodes : after.freeNodes = pool.freeNodes
  chunks : after.freeChunks = pool.freeChunks

theorem SameFree.refl (pool : Pool Key) : SameFree pool pool := ⟨rfl, rfl⟩

theorem entry_eq {pool : Pool Key} {node : Nat} {key : Key} {data : List UInt8} (named : pool.key node = key)
    (stored : pool.bytes node = data) : pool.entry node = ⟨key, data⟩ := by
  rw [entry, named, stored]

/-- The four parameters the pool was opened with. -/
structure SameShape (pool after : Pool Key) : Prop where
  nodeTotal : after.nodeTotal = pool.nodeTotal
  bucketSize : after.bucketSize = pool.bucketSize
  chunkTotal : after.chunks.chunkTotal = pool.chunks.chunkTotal
  chunkSize : after.chunks.chunkSize = pool.chunks.chunkSize

theorem SameShape.refl (pool : Pool Key) : SameShape pool pool := ⟨rfl, rfl, rfl, rfl⟩

theorem SameShape.trans {pool middle after : Pool Key} (first : SameShape pool middle)
    (second : SameShape middle after) : SameShape pool after :=
  ⟨second.1.trans first.1, second.2.trans first.2, second.3.trans first.3, second.4.trans first.4⟩

end Pool

theorem Stored.bytes_eq {pool : Pool Key} {used free : List Nat} {block : Nat → List Nat} {node : Nat}
    (stored : Stored pool.chunks pool.chunkHead pool.chunkLen used block free) (member : node ∈ used) :
    pool.bytes node = contents pool.chunks pool.chunkLen block node := by
  have found := (stored.blocks node member).walk_eq (stored.block_length_le member)
  simp [Pool.bytes, contents, found]

namespace HashMap

variable {hash : Key → Nat} {pool : Pool Key}

theorem Buckets.perm {chain : Nat → List Nat} {hung others : List Nat}
    (buckets : Buckets hash pool chain hung) (same : hung.Perm others) : Buckets hash pool chain others where
  positive := buckets.positive
  linked := buckets.linked
  homed := buckets.homed
  members := fun node => same.mem_iff.symm.trans (buckets.members node)
  distinct := same.nodup_iff.mp buckets.distinct
  counted := by rw [buckets.counted, same.length_eq]
  occupied := buckets.occupied

/-- The chains depend on the keys, the links of the hung nodes and the counters. -/
theorem Buckets.congr {chain : Nat → List Nat} {hung : List Nat} (buckets : Buckets hash pool chain hung)
    {after : Pool Key} (bucketSize : after.bucketSize = pool.bucketSize) (bucket : after.bucket = pool.bucket)
    (key : after.key = pool.key) (nodes : after.usedNodeNum = pool.usedNodeNum)
    (occupied : after.usedBucketNum = pool.usedBucketNum)
    (links : ∀ node ∈ hung, after.nodeNext node = pool.nodeNext node ∧ after.nodePrev node = pool.nodePrev node) :
    Buckets hash after chain hung where
  positive := bucketSize ▸ buckets.positive
  linked := fun b bound => by
    have small : b < pool.bucketSize := bucketSize ▸ bound
    apply (buckets.linked b small).congr
    · simp [Pool.bucketLinks, bucket]
    · rfl
    · exact fun node member => links node (buckets.hung_of_mem small member)
  homed := fun b bound node member => by
    have home := buckets.homed b (bucketSize ▸ bound) node member
    simpa [getBucketId, bucketSize, key] using home
  members := fun node => by simpa [getBucketId, bucketSize, key] using buckets.members node
  distinct := buckets.distinct
  counted := nodes.trans buckets.counted
  occupied := by rw [occupied, bucketSize]; exact buckets.occupied

/-- Every node and every chunk is where the layout says, and nowhere else. -/
structure Laid (hash : Key → Nat) (pool : Pool Key) (layout : Layout) : Prop where
  buckets : Buckets hash pool layout.chain layout.recent
  adds : pool.addLinks.Holds layout.recent
  idle : ∀ node ∈ layout.free, pool.addNext node = none ∧ pool.addPrev node = none
  freeChain : Chain pool.nodeNext pool.freeList layout.free none
  nodes : (layout.recent ++ layout.free).Perm (List.range pool.nodeTotal)
  stored : Stored pool.chunks pool.chunkHead pool.chunkLen layout.recent layout.block layout.freeChunks
  filled : ∀ node ∈ layout.recent, (pool.bytes node).length = pool.chunkLen node

namespace Laid

variable {layout : Layout} {node : Nat}

theorem nodup (laid : Laid hash pool layout) : (layout.recent ++ layout.free).Nodup :=
  laid.nodes.nodup_iff.mpr List.nodup_range

theorem free_not_recent (laid : Laid hash pool layout) (member : node ∈ layout.free) :
    node ∉ layout.recent := fun used =>
  (List.nodup_append.mp laid.nodup).2.2 node used node member rfl

theorem recent_length_le (laid : Laid hash pool layout) : layout.recent.length ≤ pool.nodeTotal := by
  have length := laid.nodes.length_eq
  simp only [List.length_append, List.length_range] at length
  omega

theorem free_length_le (laid : Laid hash pool layout) : layout.free.length ≤ pool.nodeTotal := by
  have length := laid.nodes.length_eq
  simp only [List.length_append, List.length_range] at length
  omega

theorem walk_bucket (laid : Laid hash pool layout) (key : Key) :
    walk pool.nodeNext pool.nodeTotal (pool.bucket (getBucketId hash pool key)) =
      some (layout.chain (getBucketId hash pool key)) := by
  have bound := laid.buckets.bucketId_lt key
  exact (laid.buckets.linked _ bound).forward.walk_eq
    ((laid.buckets.chain_length_le bound).trans laid.recent_length_le)

theorem freeNodes (laid : Laid hash pool layout) : pool.freeNodes = some layout.free :=
  laid.freeChain.walk_eq laid.free_length_le

theorem freeChunks (laid : Laid hash pool layout) : pool.freeChunks = some layout.freeChunks :=
  laid.stored.freeChain.walk_eq laid.stored.free_length_le

theorem sameFree (laid : Laid hash pool layout) {after : Pool Key} {other : Layout}
    (laidAfter : Laid hash after other) (nodes : other.free = layout.free)
    (chunks : other.freeChunks = layout.freeChunks) : pool.SameFree after :=
  ⟨by rw [laid.freeNodes, laidAfter.freeNodes, nodes], by rw [laid.freeChunks, laidAfter.freeChunks, chunks]⟩

/-- `insert_add_list_head` on a used node. -/
theorem touch (laid : Laid hash pool layout) (member : node ∈ layout.recent) :
    ∃ after, Prog.exec (insertAddListHead node) pool = some ((), after) ∧
      Laid hash after { layout with recent := node :: layout.recent.erase node } ∧
      pool.SameShape after ∧ after.entry = pool.entry := by
  have distinct := laid.adds.nodup
  have absent : node ∉ layout.recent.erase node := distinct.not_mem_erase
  have unlinked := laid.adds.unlink_mem member
  have moved := List.perm_cons_erase member
  refine ⟨_, exec_insertAddListHead node, ?_, ⟨rfl, rfl, rfl, rfl⟩, rfl⟩
  refine ⟨?_, unlinked.pushFront absent, ?_, laid.freeChain, ?_, laid.stored.perm moved, ?_⟩
  · have buckets := laid.buckets.perm moved
    exact ⟨buckets.positive, buckets.linked, buckets.homed, buckets.members, buckets.distinct,
      buckets.counted, buckets.occupied⟩
  · intro other isFree
    have outside := laid.free_not_recent isFree
    have different : other ≠ node := fun same => outside (same ▸ member)
    have outsideRest : other ∉ layout.recent.erase node := fun inside => outside (List.mem_of_mem_erase inside)
    have kept := unlinked.pushFront_outside different outsideRest
    have before := laid.adds.unlink_outside member outside
    have old := laid.idle other isFree
    exact ⟨kept.1.trans (before.1.trans old.1), kept.2.trans (before.2.trans old.2)⟩
  · exact (moved.symm.append_right layout.free).trans laid.nodes
  · exact fun other inside => laid.filled other (moved.mem_iff.mpr inside)

theorem exec_findLoop [DecidableEq Key] (key : Key) {head : Handler} {cells : List Nat} {fuel : Nat}
    (chain : Chain pool.nodeNext head cells none) (enough : cells.length ≤ fuel) :
    Prog.exec (findLoop key fuel head) pool =
      match cells.find? fun cell => pool.key cell = key with
      | none => some (none, pool)
      | some found => (Prog.exec (insertAddListHead found) pool).map fun run => (some found, run.2) := by
  induction cells generalizing head fuel with
  | nil =>
    have atEnd : head = none := chain
    subst head
    cases fuel <;> rfl
  | cons cell rest ih =>
    obtain ⟨atHead, tail⟩ := chain
    subst head
    cases fuel with
    | zero => simp at enough
    | succ fuel =>
      by_cases same : pool.key cell = key
      · simp [findLoop, same, exec_insertAddListHead]
      · simpa [findLoop, same] using ih tail (by simpa using enough)

/-- `find_node` stops at a node with the key, if one is used, and touches it. -/
theorem find [DecidableEq Key] (laid : Laid hash pool layout) (key : Key) :
    (∃ node ∈ layout.recent, pool.key node = key ∧
      ∃ after, Prog.exec (findNode hash key) pool = some (some node, after) ∧
        Laid hash after { layout with recent := node :: layout.recent.erase node } ∧
        pool.SameShape after ∧ after.entry = pool.entry) ∨
    ((∀ node ∈ layout.recent, pool.key node ≠ key) ∧
      Prog.exec (findNode hash key) pool = some (none, pool)) := by
  let bucketId := getBucketId hash pool key
  have bound : bucketId < pool.bucketSize := laid.buckets.bucketId_lt key
  have enough := (laid.buckets.chain_length_le bound).trans laid.recent_length_le
  have ran := exec_findLoop key (laid.buckets.linked bucketId bound).forward enough
  have started : Prog.exec (findNode hash key) pool =
      Prog.exec (findLoop key pool.nodeTotal (pool.bucket bucketId)) pool := by
    simp [findNode, bucketId]
  rw [started, show pool.bucket bucketId = (pool.bucketLinks bucketId _).head from rfl]
  cases search : (layout.chain bucketId).find? fun cell => pool.key cell = key with
  | some node =>
    have same : pool.key node = key := by simpa using List.find?_some search
    have member := laid.buckets.hung_of_mem bound (List.mem_of_find?_eq_some search)
    obtain ⟨after, touched, laidAfter, shape, kept⟩ := laid.touch member
    refine .inl ⟨node, member, same, after, ?_, laidAfter, shape, kept⟩
    rw [search] at ran
    simpa [touched] using ran
  | none =>
    refine .inr ⟨?_, by rw [search] at ran; exact ran⟩
    intro node member same
    have here : node ∈ layout.chain bucketId := by
      have home := (laid.buckets.members node).mp member
      rwa [same] at home
    have missed := List.find?_eq_none.mp search node here
    simp [same] at missed

end Laid

end HashMap

end TeenpattiUserServer.Shm
