import Mathlib.Logic.Function.Basic
import TeenpattiUserServer.Store.Prog

/-! `CChunkAllocator`: fixed-size chunks in a shared-memory pool, kept in a free
list and handed out as chains. The pool is modelled column by column: the field
`next_` of all chunk nodes is one function, the data areas another. -/

namespace TeenpattiUserServer.Shm

open Store

/-- `BC_MEM_HANDLER`. Every handler the code makes is `INVALID_BC_MEM_HANDLER`
(`none`) or the offset of the `i`-th record of its array (`some i`). -/
abbrev Handler := Option Nat

/-- `TChunk` with the chunk nodes behind it. -/
structure ChunkPool where
  chunkTotal : Nat
  chunkSize : Nat
  freeTotal : Int
  freeList : Handler
  next : Nat → Handler
  data : Nat → List UInt8

/-- `memcpy` into the front of a data area. -/
def memcpy (area bytes : List UInt8) : List UInt8 := bytes ++ area.drop bytes.length

namespace ChunkAllocator

def errorBase : Int := -1
def errorInvalidParam : Int := errorBase - 1
def errorDataVerifyFail : Int := errorBase - 3

def setNext (node : Nat) (value : ChunkPool → Handler) : Prog ChunkPool Unit :=
  Prog.write fun pool => { pool with next := Function.update pool.next node (value pool) }

def setData (node : Nat) (bytes : List UInt8) : Prog ChunkPool Unit :=
  Prog.write fun pool => { pool with data := Function.update pool.data node (memcpy (pool.data node) bytes) }

/-- Insert at the head of the free list. -/
def freeListInsert (node : Nat) : Prog ChunkPool Unit := do
  setNext node (·.freeList)
  Prog.write fun pool => { pool with freeList := some node }

def freeListRemove : Prog ChunkPool Handler := do
  match ← Prog.read (·.freeList) with
  | none => pure none
  | some headNode =>
    Prog.write fun pool => { pool with freeList := pool.next headNode }
    setNext headNode fun _ => none
    pure (some headNode)

/-- `for (i = 0; i < chunk_num; i++)` in `malloc`; an empty free list makes the
loop write through a null pointer. -/
def mallocLoop : Nat → Handler → Prog ChunkPool Handler
  | 0, head => pure head
  | count + 1, head => do
    match ← freeListRemove with
    | none => Prog.fault
    | some node =>
      setNext node fun _ => head
      mallocLoop count (some node)

def malloc (chunkNum : Nat) : Prog ChunkPool Handler := do
  if (← Prog.read (·.freeTotal)) < chunkNum then
    pure none
  else
    let head ← mallocLoop chunkNum none
    Prog.write fun pool => { pool with freeTotal := pool.freeTotal - chunkNum }
    pure head

/-- The `while` loops over a chain fault when they do not stop within `fuel` rounds. -/
def freeLoop : Nat → Handler → Prog ChunkPool Unit
  | _, none => pure ()
  | 0, some _ => Prog.fault
  | fuel + 1, some node => do
    let nextChunk ← Prog.read (·.next node)
    freeListInsert node
    Prog.write fun pool => { pool with freeTotal := pool.freeTotal + 1 }
    freeLoop fuel nextChunk

def free (headChunk : Handler) : Prog ChunkPool Unit := do
  freeLoop (← Prog.read (·.chunkTotal)) headChunk

def getChunkNum (chunkSize dataLen : Nat) : Nat :=
  if dataLen % chunkSize ≠ 0 then dataLen / chunkSize + 1 else dataLen / chunkSize

/-- `remain` is what `read_pos` still has to deliver. -/
def splitLoop : Nat → Handler → List UInt8 → Prog ChunkPool Unit
  | _, none, _ => pure ()
  | 0, some _, _ => Prog.fault
  | fuel + 1, some node, remain => do
    let size ← Prog.read (·.chunkSize)
    if remain.length < size then
      setData node remain
    else
      setData node (remain.take size)
      splitLoop fuel (← Prog.read (·.next node)) (remain.drop size)

def split (head : Handler) (dataBuf : List UInt8) : Prog ChunkPool Unit := do
  splitLoop (← Prog.read (·.chunkTotal)) head dataBuf

/-- The bytes the loop of `merge` copies to `write_pos`. -/
def mergeLoop : Nat → Handler → Nat → Prog ChunkPool (List UInt8)
  | _, none, _ => pure []
  | 0, some _, _ => Prog.fault
  | fuel + 1, some node, remainLen => do
    let size ← Prog.read (·.chunkSize)
    let area ← Prog.read (·.data node)
    if remainLen < size then
      pure (area.take remainLen)
    else
      let rest ← mergeLoop fuel (← Prog.read (·.next node)) (remainLen - size)
      pure (area.take size ++ rest)

/-- Result, `*data_len` on return and the bytes written at `data_buf`. -/
def merge (chunkNode : Handler) (chunkLen : Nat) (dataLen : Int) :
    Prog ChunkPool (Int × Nat × List UInt8) := do
  if dataLen < chunkLen then
    pure (errorInvalidParam, chunkLen, [])
  else
    let bytes ← mergeLoop (← Prog.read (·.chunkTotal)) chunkNode chunkLen
    pure (0, chunkLen, bytes)

/-- The chunk headers; the data areas keep what the memory held. -/
def initPoolData (nChunks chunkSize : Nat) : Prog ChunkPool Unit := do
  Prog.write fun pool => { pool with freeList := none }
  Prog.upto (fun i => do
    setNext i fun _ => none
    freeListInsert i) nChunks
  Prog.write fun pool => { pool with chunkTotal := nChunks }
  Prog.write fun pool => { pool with chunkSize := chunkSize }
  Prog.write fun pool => { pool with freeTotal := nChunks }

/-- Number of cells a counting `while` loop visits before it meets `INVALID`. -/
def countLoop (next : Nat → Handler) : Nat → Handler → Prog S Int
  | _, none => pure 0
  | 0, some _ => Prog.fault
  | fuel + 1, some node => do
    let rest ← countLoop next fuel (next node)
    pure (rest + 1)

def verifyPoolData (nChunks chunkSize : Nat) : Prog ChunkPool Int := do
  let chunk ← Prog.read id
  if chunk.chunkSize ≠ chunkSize ∨ chunk.chunkTotal ≠ nChunks then
    pure errorDataVerifyFail
  else
    let freeTotal ← countLoop chunk.next chunk.chunkTotal chunk.freeList
    if freeTotal ≠ chunk.freeTotal then
      pure errorDataVerifyFail
    else
      pure 0

def openPool (init : Bool) (nChunks chunkSize : Nat) : Prog ChunkPool Int := do
  if init then
    initPoolData nChunks chunkSize
    pure 0
  else
    verifyPoolData nChunks chunkSize

end ChunkAllocator

end TeenpattiUserServer.Shm
