import Mathlib.Algebra.Ring.Nat
import Mathlib.Data.Finset.Card
import TeenpattiUserServer.Bookkeeping.Ledger
import TeenpattiUserServer.Bookkeeping.Runs

/-! `CMemPool`: blocks whose sizes are powers of two, with a free list and a set of
stubs for each size. Numbers are `unsigned`, blocks are their addresses. -/

namespace TeenpattiUserServer.Net

open Bookkeeping

/-- What `new` answers, call by call: no block that is not deleted yet. -/
structure NewBlock where
  address : Nat → Finset Nat → Nat
  fresh : ∀ call undeleted, address call undeleted ∉ undeleted

/-- `undeleted` are the blocks in memory, and `news` counts the calls of `new`. -/
structure MemPool where
  free : Store Nat (List Nat)
  stub : Store Nat (Finset Nat)
  allocatedSize : Nat
  waterMark : Nat
  undeleted : Finset Nat
  news : Nat

namespace MemPool

def cExtendSet : Nat := 128
def cSlot1 : Nat := 2 ^ 20
def cSlot2 : Nat := 2 ^ 26
def cAllocCapcity : Nat := 2 * cSlot2
def cMaxPoolSize : Nat := 2000 * 2 ^ 20
def cMaxWaterMark : Nat := 2 ^ 30

def empty : MemPool := ⟨∅, ∅, 0, cMaxWaterMark, ∅, 0⟩

/-- The loop of `fit_block_size`. An `unsigned` is zero after 32 shifts. -/
def fitLoop : Nat → Nat → Nat → Nat
  | 0, _, i => i
  | bits + 1, size, i => if size = 0 then i else fitLoop bits (size / 2) (i + 1)

def fitBlockSize (size : Nat) : Nat :=
  let i := fitLoop 32 (size / 2 ^ 10) 10
  2 ^ (if i < 10 then 10 else i) % 2 ^ 32

def fitExtendSet (size : Nat) : Nat :=
  if size < cSlot1 then cExtendSet
  else if size < cSlot2 then cAllocCapcity / size
  else 1

/-- `release_size (block_size, free_count, stub_count)` -/
def releaseCount (waterMark blockSize freeCount stubCount : Nat) : Nat :=
  if freeCount * blockSize % 2 ^ 32 < 2 ^ 20 then 0
  else if cSlot2 < blockSize then if 1 < freeCount then freeCount / 2 else freeCount
  else if stubCount / 2 ≤ freeCount ∨ waterMark ≤ freeCount * blockSize % 2 ^ 32 then freeCount / 2
  else 0

def setClass (size : Nat) (l : List Nat) (s : Finset Nat) (pool : MemPool) : MemPool :=
  { pool with free := put pool.free size (some l), stub := put pool.stub size (some s) }

/-- The loop of `release`, from the front of the list. An empty list has no front. -/
def releaseBlocks : Nat → List Nat → Finset Nat → Finset Nat → Option (List Nat × Finset Nat × Finset Nat)
  | 0, l, s, undeleted => some (l, s, undeleted)
  | _ + 1, [], _, _ => none
  | todo + 1, p :: l, s, undeleted => releaseBlocks todo l (s.erase p) (undeleted.erase p)

/-- `release` on the containers of a size. `none` is the assertion, or an empty list. -/
def release (size : Nat) (l : List Nat) (s : Finset Nat) (pool : MemPool) : Option MemPool :=
  let todo := releaseCount pool.waterMark size (l.length % 2 ^ 32) (s.card % 2 ^ 32)
  if todo = 0 then some pool
  else if pool.allocatedSize < size * todo % 2 ^ 32 then none
  else
    (releaseBlocks todo l s pool.undeleted).map fun result =>
      { pool.setClass size result.1 result.2.1 with
        undeleted := result.2.2
        allocatedSize := (pool.allocatedSize + 2 ^ 32 - size * todo % 2 ^ 32) % 2 ^ 32 }

/-- The loop of `release_size (mem_size)`. It halves `purge_size`, 32 times at most. -/
def purge (lastAllocSize memSize : Nat) : Nat → Nat → MemPool → Option MemPool
  | 0, _, _ => none
  | bits + 1, purgeSize, pool =>
    if (lastAllocSize + 2 ^ 32 - pool.allocatedSize) % 2 ^ 32 < memSize ∧ cSlot1 ≤ purgeSize then
      match pool.stub.lookup (purgeSize / 2), pool.free.lookup (purgeSize / 2) with
      | some s, some l => (release (purgeSize / 2) l s pool).bind (purge lastAllocSize memSize bits (purgeSize / 2))
      | _, _ => purge lastAllocSize memSize bits (purgeSize / 2) pool
    else some pool

def releaseSize (memSize : Nat) (pool : MemPool) : Option (Int × MemPool) :=
  (purge pool.allocatedSize memSize 32 (2 ^ 31) { pool with waterMark := cAllocCapcity }).map fun purged =>
    (if (pool.allocatedSize + 2 ^ 32 - purged.allocatedSize) % 2 ^ 32 < memSize then -1 else 0,
      { purged with waterMark := cMaxWaterMark })

variable (new : NewBlock)

/-- The loop of `extend`. -/
def newBlocks : Nat → List Nat → Finset Nat → Finset Nat → Nat → List Nat × Finset Nat × Finset Nat × Nat
  | 0, l, s, undeleted, news => (l, s, undeleted, news)
  | todo + 1, l, s, undeleted, news =>
    let p := new.address news undeleted
    newBlocks todo (p :: l) (insert p s) (insert p undeleted) (news + 1)

/-- The rest of `extend`, once there is room. -/
def extendClass (size : Nat) (pool : MemPool) : Option (Int × MemPool) :=
  match pool.free.lookup size, pool.stub.lookup size with
  | some l, some s =>
    let (l, s, undeleted, news) := newBlocks new (fitExtendSet size) l s pool.undeleted pool.news
    some (0, { pool.setClass size l s with
      undeleted, news, allocatedSize := (pool.allocatedSize + size * fitExtendSet size) % 2 ^ 32 })
  | _, _ => none

/-- `extend` on the containers of a size. -/
def extend (size : Nat) (pool : MemPool) : Option (Int × MemPool) :=
  let wanted := (pool.allocatedSize + size * fitExtendSet size) % 2 ^ 32
  if cMaxPoolSize ≤ wanted then
    (releaseSize (wanted - cMaxPoolSize) pool).bind fun released =>
      if released.1 ≠ 0 then some (-1, released.2) else extendClass new size released.2
  else extendClass new size pool

/-- It is called for a size that has no containers yet. -/
def extendNewSize (size : Nat) (pool : MemPool) : Option (Int × MemPool) :=
  extend new size (pool.setClass size [] ∅)

/-- The front of the list goes out. -/
def popFront (blockSize : Nat) (pool : MemPool) : Option (Nat × Nat) × MemPool :=
  match pool.free.lookup blockSize with
  | some (p :: rest) => (some (p, blockSize), { pool with free := put pool.free blockSize (some rest) })
  | _ => (none, pool)

/-- The block and its size, or null. -/
def allocate (size : Nat) (pool : MemPool) : Option (Option (Nat × Nat) × MemPool) :=
  let blockSize := fitBlockSize size
  match pool.free.lookup blockSize with
  | none =>
    (extendNewSize new blockSize pool).map fun extended =>
      if extended.1 ≠ 0 then (none, extended.2) else popFront blockSize extended.2
  | some [] =>
    (extend new blockSize pool).map fun extended =>
      if extended.1 ≠ 0 then (none, extended.2) else popFront blockSize extended.2
  | some _ => some (popFront blockSize pool)

def recycle (mem memSize : Nat) (pool : MemPool) : Option (Int × MemPool) :=
  match pool.stub.lookup memSize with
  | none => some (-1, pool)
  | some s =>
    if mem ∈ s then
      match pool.free.lookup memSize with
      | none => some (-1, pool)
      | some l => (release memSize (mem :: l) s (pool.setClass memSize (mem :: l) s)).map fun released => (0, released)
    else some (-1, pool)

end MemPool

/-- A block that was handed out: what was asked for, and the size it came with. -/
structure Handed where
  requested : Nat
  block : Nat
  size : Nat
deriving DecidableEq

/-- The pool and the blocks that are handed out. -/
structure Lending where
  pool : MemPool
  handed : List Handed

inductive PoolCall
  | allocate (size : Nat)
  | recycle (block : Handed)

namespace Lending

/-- With the answer of `allocate` to a request. -/
def handOut (requested : Nat) (handed : List Handed) : Option (Nat × Nat) → List Handed
  | none => handed
  | some (block, blockSize) => ⟨requested, block, blockSize⟩ :: handed

def step (new : NewBlock) : PoolCall → Lending → Option Lending
  | .allocate size, lending =>
    (lending.pool.allocate new size).map fun result => ⟨result.2, handOut size lending.handed result.1⟩
  | .recycle given, lending =>
    (lending.pool.recycle given.block given.size).map fun result => ⟨result.2, lending.handed.erase given⟩

/-- Sizes are below `2 ^ 31`, and what is recycled is handed out. -/
def Allowed (lending : Lending) : PoolCall → Prop
  | .allocate size => size < 2 ^ 31
  | .recycle given => given ∈ lending.handed

instance : DecidableRel Allowed
  | _, .allocate size => inferInstanceAs (Decidable (size < 2 ^ 31))
  | lending, .recycle given => inferInstanceAs (Decidable (given ∈ lending.handed))

def Initial (lending : Lending) : Prop := lending = ⟨.empty, []⟩

end Lending

end TeenpattiUserServer.Net
