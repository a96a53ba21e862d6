import Mathlib.Algebra.Ring.Nat
import Mathlib.Logic.Function.Basic
import TeenpattiUserServer.Shm.ChunkAlloc

/-! `CHashMap`: a chained hash table in one shared-memory pool. A used node hangs
in the chain of its bucket and in the add list, a free node in the free list;
the bytes of a used node are in a chunk chain. -/

namespace TeenpattiUserServer.Shm

open Store

/-- `THashMap` with its buckets, the `HashNode` array behind it (one function for
each field) and the chunk pool at the tail. What `add_info_1_`, `add_info_2_` and
`flag_` hold is never read, and is left out; that they are written is not. -/
structure Pool (Key : Type) where
  nodeTotal : Nat
  bucketSize : Nat
  usedNodeNum : Int
  usedBucketNum : Int
  addHead : Handler
  addTail : Handler
  freeList : Handler
  bucket : Nat → Handler
  key : Nat → Key
  chunkLen : Nat → Nat
  chunkHead : Nat → Handler
  nodePrev : Nat → Handler
  nodeNext : Nat → Handler
  addPrev : Nat → Handler
  addNext : Nat → Handler
  chunks : ChunkPool

namespace HashMap

variable {Key : Type}

def errorBase : Int := -1000

abbrev Run (Key α : Type) := Prog (Pool Key) α

def allocator {α : Type} (part : Prog ChunkPool α) : Run Key α :=
  Prog.within (·.chunks) (fun chunks pool => { pool with chunks := chunks }) part

def setChunkLen (node value : Nat) : Run Key Unit :=
  Prog.write fun pool => { pool with chunkLen := Function.update pool.chunkLen node value }

def setChunkHead (node : Nat) (value : Handler) : Run Key Unit :=
  Prog.write fun pool => { pool with chunkHead := Function.update pool.chunkHead node value }

def setNodePrev (node : Nat) (value : Handler) : Run Key Unit :=
  Prog.write fun pool => { pool with nodePrev := Function.update pool.nodePrev node value }

def setNodeNext (node : Nat) (value : Handler) : Run Key Unit :=
  Prog.write fun pool => { pool with nodeNext := Function.update pool.nodeNext node value }

def setAddPrev (node : Nat) (value : Handler) : Run Key Unit :=
  Prog.write fun pool => { pool with addPrev := Function.update pool.addPrev node value }

def setAddNext (node : Nat) (value : Handler) : Run Key Unit :=
  Prog.write fun pool => { pool with addNext := Function.update pool.addNext node value }

def setAddHead (value : Handler) : Run Key Unit :=
  Prog.write fun pool => { pool with addHead := value }

def setAddTail (value : Handler) : Run Key Unit :=
  Prog.write fun pool => { pool with addTail := value }

def setFreeList (value : Handler) : Run Key Unit :=
  Prog.write fun pool => { pool with freeList := value }

def setBucket (bucketId : Nat) (value : Handler) : Run Key Unit :=
  Prog.write fun pool => { pool with bucket := Function.update pool.bucket bucketId value }

def addUsedNodeNum (change : Int) : Run Key Unit :=
  Prog.write fun pool => { pool with usedNodeNum := pool.usedNodeNum + change }

def addUsedBucketNum (change : Int) : Run Key Unit :=
  Prog.write fun pool => { pool with usedBucketNum := pool.usedBucketNum + change }

/-- A write of `add_info_1_`, the time of the last access. -/
def setAddInfo1 : Run Key Unit := Prog.touch

/-- A write of `add_info_2_`, the number of accesses. -/
def setAddInfo2 : Run Key Unit := Prog.touch

def setFlag : Run Key Unit := Prog.touch

@[simp] theorem exec_setAddInfo1 (pool : Pool Key) : Prog.exec setAddInfo1 pool = some ((), pool) := rfl

@[simp] theorem exec_setAddInfo2 (pool : Pool Key) : Prog.exec setAddInfo2 pool = some ((), pool) := rfl

@[simp] theorem exec_setFlag (pool : Pool Key) : Prog.exec setFlag pool = some ((), pool) := rfl

def freeListInsert (node : Nat) : Run Key Unit := do
  setNodeNext node (← Prog.read (·.freeList))
  setFreeList (some node)

def freeListRemove : Run Key Handler := do
  match ← Prog.read (·.freeList) with
  | none => pure none
  | some headNode =>
    setFreeList (← Prog.read (·.nodeNext headNode))
    setNodeNext headNode none
    pure (some headNode)

/-- The key of a node is left as it was. -/
def initNode (node : Nat) : Run Key Unit := do
  setChunkLen node 0
  setAddInfo1
  setAddInfo2
  setFlag
  setChunkHead node none
  setNodeNext node none
  setNodePrev node none
  setAddNext node none
  setAddPrev node none

def deleteFromAddList (node : Nat) : Run Key Unit := do
  let pool ← Prog.read id
  let nextAdd := pool.addNext node
  let prevAdd := pool.addPrev node
  if nextAdd = none ∧ prevAdd = none ∧ pool.addHead ≠ some node ∧ pool.addTail ≠ some node then
    pure ()
  else
    Prog.forSome prevAdd fun prev => do setAddNext prev (← Prog.read (·.addNext node))
    Prog.forSome nextAdd fun next => do setAddPrev next (← Prog.read (·.addPrev node))
    Prog.onlyIf (pool.addHead = some node) (setAddHead nextAdd)
    Prog.onlyIf (pool.addTail = some node) (setAddTail prevAdd)
    setAddPrev node none
    setAddNext node none

def insertAddListHead (node : Nat) : Run Key Unit := do
  deleteFromAddList node
  setAddNext node (← Prog.read (·.addHead))
  setAddHead (some node)
  Prog.onlyIf ((← Prog.read (·.addTail)) = none) (setAddTail (some node))
  setAddPrev node none
  Prog.forSome (← Prog.read (·.addNext node)) fun next => setAddPrev next (some node)

variable (hash : Key → Nat)

/-- The hash value is cut to `unsigned int` before the remainder. -/
def getBucketId (pool : Pool Key) (key : Key) : Nat := hash key % 2 ^ 32 % pool.bucketSize

def getBucketListLen (bucketId : Nat) : Run Key Int := do
  let pool ← Prog.read id
  ChunkAllocator.countLoop pool.nodeNext pool.nodeTotal (pool.bucket bucketId)

def insertNodeList (node : Nat) : Run Key Unit := do
  let bucketId ← Prog.read fun pool => getBucketId hash pool (pool.key node)
  setNodeNext node (← Prog.read (·.bucket bucketId))
  setNodePrev node none
  setBucket bucketId (some node)
  Prog.forSome (← Prog.read (·.nodeNext node)) fun next => setNodePrev next (some node)
  addUsedNodeNum 1

def deleteFromNodeList (node : Nat) : Run Key Unit := do
  let nextNode ← Prog.read (·.nodeNext node)
  let prevNode ← Prog.read (·.nodePrev node)
  Prog.forSome prevNode fun prev => do setNodeNext prev (← Prog.read (·.nodeNext node))
  Prog.forSome nextNode fun next => do setNodePrev next (← Prog.read (·.nodePrev node))
  let bucketId ← Prog.read fun pool => getBucketId hash pool (pool.key node)
  Prog.onlyIf ((← Prog.read (·.bucket bucketId)) = some node) (setBucket bucketId nextNode)
  setNodeNext node none
  setNodePrev node none
  addUsedNodeNum (-1)

def freeNode (node : Nat) : Run Key Unit := do
  deleteFromNodeList hash node
  allocator (ChunkAllocator.free (← Prog.read (·.chunkHead node)))
  let bucketListLen ← getBucketListLen (← Prog.read fun pool => getBucketId hash pool (pool.key node))
  Prog.onlyIf (bucketListLen = 0) (addUsedBucketNum (-1))
  initNode node

def useNode (node : Nat) (key : Key) (chunkLen : Nat) (chunkHead : Handler) : Run Key Unit := do
  Prog.write fun pool => { pool with key := Function.update pool.key node key }
  setChunkLen node chunkLen
  setChunkHead node chunkHead
  setAddInfo1
  setAddInfo2
  let bucketListLen ← getBucketListLen (← Prog.read fun pool => getBucketId hash pool (pool.key node))
  Prog.onlyIf (bucketListLen = 0) (addUsedBucketNum 1)
  insertNodeList hash node

def findLoop [DecidableEq Key] (key : Key) : Nat → Handler → Run Key Handler
  | _, none => pure none
  | 0, some _ => Prog.fault
  | fuel + 1, some node => do
    if (← Prog.read (·.key node)) = key then
      setAddInfo1
      setAddInfo2
      insertAddListHead node
      pure (some node)
    else
      findLoop key fuel (← Prog.read (·.nodeNext node))

/-- A hit moves the node to the front of the add list. -/
def findNode [DecidableEq Key] (key : Key) : Run Key Handler := do
  let pool ← Prog.read id
  findLoop key pool.nodeTotal (pool.bucket (getBucketId hash pool key))

def insertNode (key : Key) (newData : List UInt8) : Run Key Handler := do
  match ← freeListRemove with
  | none => pure none
  | some node =>
    let newChunkNum ← Prog.read fun pool => ChunkAllocator.getChunkNum pool.chunks.chunkSize newData.length
    match ← allocator (ChunkAllocator.malloc newChunkNum) with
    | none =>
      freeListInsert node
      pure none
    | some headChunk =>
      allocator (ChunkAllocator.split (some headChunk) newData)
      useNode hash node key newData.length (some headChunk)
      setAddInfo1
      setAddInfo2
      insertAddListHead node
      pure (some node)

/-- Every caller passes null for `old_data` and `old_len`. -/
def updateNode (node : Nat) (newData : List UInt8) : Run Key Handler := do
  let pool ← Prog.read id
  let oldChunkNum := ChunkAllocator.getChunkNum pool.chunks.chunkSize (pool.chunkLen node)
  let newChunkNum := ChunkAllocator.getChunkNum pool.chunks.chunkSize newData.length
  if oldChunkNum ≠ newChunkNum then
    if oldChunkNum < newChunkNum ∧ pool.chunks.freeTotal < (newChunkNum - oldChunkNum : Nat) then
      pure none
    else
      -- free first, then allocate: the freed chunks are counted on
      allocator (ChunkAllocator.free (pool.chunkHead node))
      let headChunk ← allocator (ChunkAllocator.malloc newChunkNum)
      allocator (ChunkAllocator.split headChunk newData)
      setChunkLen node newData.length
      setChunkHead node headChunk
      pure (some node)
  else
    allocator (ChunkAllocator.split (pool.chunkHead node) newData)
    setChunkLen node newData.length
    pure (some node)

def replaceNode [DecidableEq Key] (key : Key) (newData : List UInt8) : Run Key Handler := do
  match ← findNode hash key with
  | some node => updateNode node newData
  | none => insertNode hash key newData

/-- Every caller passes null for `data` and `data_len`. -/
def deleteNode (node : Nat) : Run Key Int := do
  deleteFromAddList node
  freeNode hash node
  freeListInsert node
  pure 0

def mergeNodeData (node : Nat) (dataLen : Int) : Run Key (Int × Nat × List UInt8) := do
  let pool ← Prog.read id
  allocator (ChunkAllocator.merge (pool.chunkHead node) (pool.chunkLen node) dataLen)

def initPoolData (nodeTotal bucketSize : Nat) : Run Key Unit := do
  Prog.write fun pool => { pool with nodeTotal := nodeTotal }
  Prog.write fun pool => { pool with bucketSize := bucketSize }
  Prog.write fun pool => { pool with usedNodeNum := 0 }
  Prog.write fun pool => { pool with usedBucketNum := 0 }
  setAddHead none
  setAddTail none
  setFreeList none
  Prog.upto (fun i => setBucket i none) bucketSize
  Prog.upto (fun i => do
    initNode i
    freeListInsert i) nodeTotal

def verifyPoolData (nodeTotal bucketSize : Nat) : Run Key Int := do
  let pool ← Prog.read id
  if nodeTotal ≠ pool.nodeTotal then
    pure errorBase
  else if bucketSize ≠ pool.bucketSize then
    pure errorBase
  else
    let usedBucketCount : Int := (List.range pool.bucketSize).countP fun i => pool.bucket i ≠ none
    if usedBucketCount ≠ pool.usedBucketNum then
      pure errorBase
    else
      let freeNodeCount ← ChunkAllocator.countLoop pool.nodeNext pool.nodeTotal pool.freeList
      if pool.usedNodeNum + freeNodeCount ≠ pool.nodeTotal then
        pure errorBase
      else
        pure 0

def openPool (init : Bool) (nodeTotal bucketSize nChunks chunkSize : Nat) : Run Key Int := do
  let ret ← if init then do initPoolData nodeTotal bucketSize; pure 0
    else verifyPoolData nodeTotal bucketSize
  if ret ≠ 0 then
    pure ret
  else
    allocator (ChunkAllocator.openPool init nChunks chunkSize)

end HashMap

end TeenpattiUserServer.Shm
