import Mathlib.Data.List.Basic
import Mathlib.Data.List.Count
import Mathlib.Data.List.Range
import Mathlib.Data.List.Perm.Basic
import TeenpattiUserServer.Intrusive.Links
import TeenpattiUserServer.Shm.ChunkChains
import TeenpattiUserServer.Shm.HashMap

/-! The bucket chains and the add list of the table: the splicing code performs
exactly the list edits of `Intrusive.Links`, and keeps the counters. -/

namespace TeenpattiUserServer.Shm

open Store Intrusive

namespace Pool

variable {Key : Type}

/-- The add list, a doubly linked list with both ends in the header. -/
def addLinks (pool : Pool Key) : Links Nat := ⟨pool.addHead, pool.addTail, pool.addNext, pool.addPrev⟩

def withAdd (pool : Pool Key) (links : Links Nat) : Pool Key :=
  { pool with addHead := links.head, addTail := links.tail, addNext := links.next, addPrev := links.prev }

/-- A bucket chain; the table stores its head only. -/
def bucketLinks (pool : Pool Key) (bucketId : Nat) (tail : Option Nat) : Links Nat :=
  ⟨pool.bucket bucketId, tail, pool.nodeNext, pool.nodePrev⟩

end Pool

namespace HashMap

variable {Key : Type} {hash : Key → Nat} {pool : Pool Key}

theorem exec_deleteFromAddList (node : Nat) :
    Prog.exec (deleteFromAddList node) pool = some ((), pool.withAdd (pool.addLinks.unlink node)) := by
  by_cases idle : pool.addNext node = none ∧ pool.addPrev node = none ∧
      pool.addHead ≠ some node ∧ pool.addTail ≠ some node
  · have same : pool.addLinks.unlink node = pool.addLinks :=
      Links.unlink_idle idle.1 idle.2.1 idle.2.2.1 idle.2.2.2
    rw [same]
    simp [deleteFromAddList, idle, Pool.withAdd, Pool.addLinks]
  · simp only [deleteFromAddList, Prog.exec_bind, Prog.exec_read, Option.bind_some, id_eq, Prog.exec_ite,
      idle, if_false]
    cases before : pool.addPrev node <;> cases after : pool.addNext node <;>
      by_cases first : pool.addHead = some node <;> by_cases last : pool.addTail = some node <;>
      simp [setAddNext, setAddPrev, setAddHead, setAddTail, Pool.withAdd, Pool.addLinks, Links.unlink,
        before, after, first, last]

theorem exec_insertAddListHead (node : Nat) :
    Prog.exec (insertAddListHead node) pool =
      some ((), pool.withAdd ((pool.addLinks.unlink node).pushFront node)) := by
  simp only [insertAddListHead, Prog.exec_bind, exec_deleteFromAddList, Option.bind_some, Prog.exec_read,
    setAddNext, setAddHead, setAddTail, setAddPrev, Prog.exec_write, Prog.exec_onlyIf]
  generalize pool.addLinks.unlink node = links
  by_cases noTail : links.tail = none <;> cases atHead : links.head <;>
    simp [Pool.withAdd, Links.pushFront, noTail, atHead]

theorem exec_insertNodeList {node : Nat} (tail : Option Nat) :
    Prog.exec (insertNodeList hash node) pool =
      let bucketId := getBucketId hash pool (pool.key node)
      let links := (pool.bucketLinks bucketId tail).pushFront node
      some ((), { pool with
        usedNodeNum := pool.usedNodeNum + 1, bucket := Function.update pool.bucket bucketId links.head
        nodeNext := links.next, nodePrev := links.prev }) := by
  simp only [insertNodeList, Prog.exec_bind, Prog.exec_read, Option.bind_some, setNodeNext, setNodePrev,
    setBucket, addUsedNodeNum, Prog.exec_write]
  cases atHead : pool.bucket (getBucketId hash pool (pool.key node)) <;>
    simp [Pool.bucketLinks, Links.pushFront, atHead]

theorem exec_deleteFromNodeList {node : Nat} (tail : Option Nat) :
    Prog.exec (deleteFromNodeList hash node) pool =
      let bucketId := getBucketId hash pool (pool.key node)
      let links := (pool.bucketLinks bucketId tail).unlink node
      some ((), { pool with
        usedNodeNum := pool.usedNodeNum - 1, bucket := Function.update pool.bucket bucketId links.head
        nodeNext := links.next, nodePrev := links.prev }) := by
  simp only [deleteFromNodeList, Prog.exec_bind, Prog.exec_read, Option.bind_some]
  cases before : pool.nodePrev node <;> cases after : pool.nodeNext node <;>
    by_cases first : pool.bucket (getBucketId hash pool (pool.key node)) = some node <;>
    simp [setNodeNext, setNodePrev, setBucket, addUsedNodeNum, getBucketId, Pool.bucketLinks, Links.unlink,
      before, after] <;> simp_all [getBucketId, Int.sub_eq_add_neg]

/-- Changing one chain changes the number of non-empty buckets by that chain only. -/
private theorem occupied_update {size bucketId : Nat} (chain : Nat → List Nat) (cells : List Nat)
    (bound : bucketId < size) :
    ((List.range size).countP fun b => Function.update chain bucketId cells b ≠ []) +
        (if chain bucketId = [] then 0 else 1) =
      ((List.range size).countP fun b => chain b ≠ []) + (if cells = [] then 0 else 1) := by
  have split := List.perm_cons_erase (List.mem_range.mpr bound)
  have others : ((List.range size).erase bucketId).countP (fun b => Function.update chain bucketId cells b ≠ []) =
      ((List.range size).erase bucketId).countP fun b => chain b ≠ [] := by
    apply List.countP_congr
    intro b member
    have different := (List.Nodup.mem_erase_iff List.nodup_range).mp member
    simp [Function.update_of_ne different.1]
  rw [split.countP_eq, split.countP_eq, List.countP_cons, List.countP_cons, others]
  by_cases before : chain bucketId = [] <;> by_cases after : cells = [] <;> simp [before, after]

theorem exec_getBucketListLen {bucketId : Nat} {cells : List Nat}
    (chain : Chain pool.nodeNext (pool.bucket bucketId) cells none) (enough : cells.length ≤ pool.nodeTotal) :
    Prog.exec (getBucketListLen bucketId) pool = some ((cells.length : Int), pool) := by
  have run := ChunkAllocator.exec_countLoop pool chain enough
  simpa [getBucketListLen] using run

/-- The bucket chains: `hung` lists the nodes that hang in them. -/
structure Buckets (hash : Key → Nat) (pool : Pool Key) (chain : Nat → List Nat) (hung : List Nat) :
    Prop where
  positive : 0 < pool.bucketSize
  linked : ∀ b, b < pool.bucketSize → (pool.bucketLinks b (chain b).getLast?).Holds (chain b)
  homed : ∀ b, b < pool.bucketSize → ∀ node ∈ chain b, getBucketId hash pool (pool.key node) = b
  members : ∀ node, node ∈ hung ↔ node ∈ chain (getBucketId hash pool (pool.key node))
  distinct : hung.Nodup
  counted : pool.usedNodeNum = hung.length
  occupied : pool.usedBucketNum = (List.range pool.bucketSize).countP fun b => chain b ≠ []

namespace Buckets

variable {chain : Nat → List Nat} {hung : List Nat} {node : Nat}

theorem bucketId_lt (buckets : Buckets hash pool chain hung) (key : Key) :
    getBucketId hash pool key < pool.bucketSize := Nat.mod_lt _ buckets.positive

theorem hung_of_mem (buckets : Buckets hash pool chain hung) {b : Nat} (bound : b < pool.bucketSize)
    (member : node ∈ chain b) : node ∈ hung := by
  rw [buckets.members, buckets.homed b bound node member]
  exact member

theorem chain_length_le (buckets : Buckets hash pool chain hung) {b : Nat} (bound : b < pool.bucketSize) :
    (chain b).length ≤ hung.length :=
  (buckets.linked b bound).nodup.length_le_of_subset fun _ member => buckets.hung_of_mem bound member

theorem bucket_eq_none_iff (buckets : Buckets hash pool chain hung) {b : Nat} (bound : b < pool.bucketSize) :
    pool.bucket b = none ↔ chain b = [] := by
  have atHead : pool.bucket b = (chain b).head? := (buckets.linked b bound).head_eq
  rw [atHead, List.head?_eq_none_iff]

theorem exec_useNode (buckets : Buckets hash pool chain hung) (fresh : node ∉ hung)
    (fits : hung.length ≤ pool.nodeTotal) (key : Key) (chunkLen : Nat) (chunkHead : Handler) :
    ∃ nodes occupied bucket next prev,
      let after : Pool Key := { pool with
        key := Function.update pool.key node key, chunkLen := Function.update pool.chunkLen node chunkLen
        chunkHead := Function.update pool.chunkHead node chunkHead, usedNodeNum := nodes
        usedBucketNum := occupied, bucket := bucket, nodeNext := next, nodePrev := prev }
      let bucketId := getBucketId hash pool key
      Prog.exec (useNode hash node key chunkLen chunkHead) pool = some ((), after) ∧
        Buckets hash after (Function.update chain bucketId (node :: chain bucketId)) (node :: hung) ∧
        ∀ other, other ≠ node → next other = pool.nodeNext other := by
  let bucketId := getBucketId hash pool key
  have bound : bucketId < pool.bucketSize := buckets.bucketId_lt key
  have absent : ∀ b, b < pool.bucketSize → node ∉ chain b :=
    fun b small member => fresh (buckets.hung_of_mem small member)
  let links := (pool.bucketLinks bucketId (chain bucketId).getLast?).pushFront node
  have pushed : links.Holds (node :: chain bucketId) :=
    (buckets.linked bucketId bound).pushFront (absent bucketId bound)
  refine ⟨pool.usedNodeNum + 1, pool.usedBucketNum + (if chain bucketId = [] then 1 else 0),
    Function.update pool.bucket bucketId links.head, links.next, links.prev, ?_, ?_, ?_⟩
  · let named : Pool Key := { pool with
      key := Function.update pool.key node key, chunkLen := Function.update pool.chunkLen node chunkLen
      chunkHead := Function.update pool.chunkHead node chunkHead }
    have listLen : Prog.exec (getBucketListLen bucketId) named = some (((chain bucketId).length : Int), named) :=
      exec_getBucketListLen (buckets.linked bucketId bound).forward ((buckets.chain_length_le bound).trans fits)
    have home : getBucketId hash named (named.key node) = bucketId := by
      simp [named, getBucketId, bucketId]
    simp only [useNode, setChunkLen, setChunkHead, Prog.exec_bind, Prog.exec_write, Option.bind_some,
      Prog.exec_read]
    change ((Prog.exec (getBucketListLen (getBucketId hash named (named.key node))) named).bind _) = _
    rw [home, listLen]
    simp only [Option.bind_some, Prog.exec_onlyIf, addUsedBucketNum, Prog.exec_write]
    by_cases empty : chain bucketId = [] <;>
      simp [empty, exec_insertNodeList (chain bucketId).getLast?, named, getBucketId] <;>
      exact ⟨rfl, rfl, rfl⟩
  · refine ⟨buckets.positive, ?_, ?_, ?_, ?_, ?_, ?_⟩
    · intro b small
      by_cases same : b = bucketId
      · subst b
        rw [Function.update_self, ← pushed.tail_eq]
        simpa [Pool.bucketLinks] using pushed
      · rw [Function.update_of_ne same]
        apply (buckets.linked b small).congr
        · simp [Pool.bucketLinks, Function.update_of_ne same]
        · rfl
        · intro cell member
          have different : cell ≠ node := fun equal => absent b small (equal ▸ member)
          have outside : cell ∉ chain bucketId := fun here =>
            same ((buckets.homed b small cell member).symm.trans (buckets.homed bucketId bound cell here))
          exact (buckets.linked bucketId bound).pushFront_outside different outside
    · intro b small cell member
      by_cases same : b = bucketId
      · subst b
        rw [Function.update_self, List.mem_cons] at member
        rcases member with equal | old
        · subst cell
          simp [getBucketId, bucketId]
        · have different : cell ≠ node := fun equal => absent bucketId small (equal ▸ old)
          simpa [getBucketId, Function.update_of_ne different] using buckets.homed bucketId small cell old
      · rw [Function.update_of_ne same] at member
        have different : cell ≠ node := fun equal => absent b small (equal ▸ member)
        simpa [getBucketId, Function.update_of_ne different] using buckets.homed b small cell member
    · intro cell
      by_cases equal : cell = node
      · subst cell
        simp [getBucketId, bucketId]
      · have old := buckets.members cell
        have kept : Function.update pool.key node key cell = pool.key cell := Function.update_of_ne equal ..
        change cell ∈ node :: hung ↔ cell ∈ Function.update chain bucketId (node :: chain bucketId)
          (getBucketId hash pool (Function.update pool.key node key cell))
        rw [kept]
        by_cases same : getBucketId hash pool (pool.key cell) = bucketId
        · rw [same] at old
          simp [same, equal, old]
        · simp [Function.update_of_ne same, equal, old]
    · exact List.nodup_cons.mpr ⟨fresh, buckets.distinct⟩
    · simp [buckets.counted]
    · have counted := occupied_update chain (node :: chain bucketId) bound
      have occupied := buckets.occupied
      rw [if_neg (List.cons_ne_nil _ _)] at counted
      change pool.usedBucketNum + (if chain bucketId = [] then 1 else 0) = (((List.range pool.bucketSize).countP
        fun b => Function.update chain bucketId (node :: chain bucketId) b ≠ [] : Nat) : Int)
      by_cases empty : chain bucketId = []
      · rw [if_pos empty] at counted ⊢
        omega
      · rw [if_neg empty] at counted ⊢
        omega
  · intro other different
    simp [links, Links.pushFront, Pool.bucketLinks, Function.update_of_ne different]

theorem exec_freeNode (buckets : Buckets hash pool chain hung) (member : node ∈ hung)
    (fits : hung.length ≤ pool.nodeTotal) {chunks : ChunkPool}
    (freed : Prog.exec (ChunkAllocator.free (pool.chunkHead node)) pool.chunks = some ((), chunks)) :
    ∃ nodes occupied bucket next prev,
      let after : Pool Key := { pool with
        chunkLen := Function.update pool.chunkLen node 0
        chunkHead := Function.update pool.chunkHead node none
        addNext := Function.update pool.addNext node none, addPrev := Function.update pool.addPrev node none
        usedNodeNum := nodes, usedBucketNum := occupied, bucket := bucket, nodeNext := next, nodePrev := prev
        chunks := chunks }
      let bucketId := getBucketId hash pool (pool.key node)
      Prog.exec (freeNode hash node) pool = some ((), after) ∧
        Buckets hash after (Function.update chain bucketId ((chain bucketId).erase node)) (hung.erase node) ∧
        ∀ other, other ∉ hung → next other = pool.nodeNext other := by
  let bucketId := getBucketId hash pool (pool.key node)
  have bound : bucketId < pool.bucketSize := buckets.bucketId_lt _
  have here : node ∈ chain bucketId := (buckets.members node).mp member
  let links := (pool.bucketLinks bucketId (chain bucketId).getLast?).unlink node
  let rest := (chain bucketId).erase node
  have unlinked : links.Holds rest := (buckets.linked bucketId bound).unlink_mem here
  have ownNext : links.next node = none := Function.update_self ..
  have ownPrev : links.prev node = none := Function.update_self ..
  have restShort : rest.length ≤ pool.nodeTotal :=
    List.erase_sublist.length_le.trans ((buckets.chain_length_le bound).trans fits)
  refine ⟨pool.usedNodeNum - 1, pool.usedBucketNum + (if rest = [] then -1 else 0),
    Function.update pool.bucket bucketId links.head, links.next, links.prev, ?_, ?_, ?_⟩
  · let cut : Pool Key := { pool with
      usedNodeNum := pool.usedNodeNum - 1, bucket := Function.update pool.bucket bucketId links.head
      nodeNext := links.next, nodePrev := links.prev, chunks := chunks }
    have unlinkedChain : Chain cut.nodeNext (cut.bucket bucketId) rest none := by
      simpa [cut] using unlinked.forward
    have listLen : Prog.exec (getBucketListLen bucketId) cut = some ((rest.length : Int), cut) :=
      exec_getBucketListLen unlinkedChain restShort
    have clearNext : Function.update links.next node none = links.next := by simp [ownNext]
    have clearPrev : Function.update links.prev node none = links.prev := by simp [ownPrev]
    simp only [freeNode, Prog.exec_bind, exec_deleteFromNodeList (chain bucketId).getLast?, Option.bind_some,
      Prog.exec_read, allocator, Prog.exec_within, freed, Option.map_some]
    change ((Prog.exec (getBucketListLen bucketId) cut).bind _) = _
    rw [listLen]
    simp only [Option.bind_some, Prog.exec_onlyIf, addUsedBucketNum, Prog.exec_write]
    by_cases empty : rest = [] <;>
      simp [empty, initNode, setChunkLen, setChunkHead, setNodeNext, setNodePrev, setAddNext, setAddPrev,
        cut, clearNext, clearPrev]
  · have distinct := (buckets.linked bucketId bound).nodup
    refine ⟨buckets.positive, ?_, ?_, ?_, buckets.distinct.erase node, ?_, ?_⟩
    · intro b small
      by_cases same : b = bucketId
      · subst b
        rw [Function.update_self, ← unlinked.tail_eq]
        simpa [Pool.bucketLinks] using unlinked
      · rw [Function.update_of_ne same]
        apply (buckets.linked b small).congr
        · simp [Pool.bucketLinks, Function.update_of_ne same]
        · rfl
        · intro cell inside
          have outside : cell ∉ chain bucketId := fun twice =>
            same ((buckets.homed b small cell inside).symm.trans (buckets.homed bucketId bound cell twice))
          exact (buckets.linked bucketId bound).unlink_outside here outside
    · intro b small cell inside
      by_cases same : b = bucketId
      · subst b
        rw [Function.update_self] at inside
        exact buckets.homed bucketId small cell (List.mem_of_mem_erase inside)
      · rw [Function.update_of_ne same] at inside
        exact buckets.homed b small cell inside
    · intro cell
      change cell ∈ hung.erase node ↔ cell ∈ Function.update chain bucketId rest
        (getBucketId hash pool (pool.key cell))
      rw [buckets.distinct.mem_erase_iff, buckets.members cell]
      by_cases same : getBucketId hash pool (pool.key cell) = bucketId
      · rw [same, Function.update_self, distinct.mem_erase_iff]
      · rw [Function.update_of_ne same]
        constructor
        · exact fun inside => inside.2
        · refine fun inside => ⟨?_, inside⟩
          rintro rfl
          exact same rfl
    · change pool.usedNodeNum - 1 = _
      have length := List.length_erase_of_mem member
      have positive := List.length_pos_of_mem member
      rw [buckets.counted]
      omega
    · have counted := occupied_update chain rest bound
      have occupied := buckets.occupied
      rw [if_neg (List.ne_nil_of_mem here)] at counted
      change pool.usedBucketNum + (if rest = [] then -1 else 0) = (((List.range pool.bucketSize).countP
        fun b => Function.update chain bucketId rest b ≠ [] : Nat) : Int)
      by_cases empty : rest = []
      · rw [if_pos empty] at counted ⊢
        omega
      · rw [if_neg empty] at counted ⊢
        omega
  · intro other outside
    have notHere : other ∉ chain bucketId := fun inside => outside (buckets.hung_of_mem bound inside)
    exact ((buckets.linked bucketId bound).unlink_outside here notHere).1

end Buckets

end HashMap

end TeenpattiUserServer.Shm
