import TeenpattiUserServer.Bookkeeping.Runs
import TeenpattiUserServer.Net.PoolRuns
import TeenpattiUserServer.Net.RawCache

/-! `CRawCache` as a queue of bytes: what a run of `append` and `skip` leaves in it, and why
the blocks of `CMemPool` are good for it. -/

namespace TeenpattiUserServer.Net

open Bookkeeping

/-- `data ()`: null, or the offset in the block. `error` is the assertion. -/
def RawCache.dataPointer (cache : RawCache) : Except Unit (Option Nat) :=
  if cache.dataLen = 0 then .ok none
  else if cache.dataHead < cache.blockSize then .ok (some cache.dataHead)
  else .error ()

/-- A call, with the answer of the pool in it. -/
inductive CacheCall
  | append (allocate : Nat → Option RawCache.Block) (bytes : List UInt8)
  | skip (length : Nat)

/-- A cache and the queue it stands for. -/
structure CacheQueue where
  cache : RawCache
  queue : List UInt8

namespace CacheQueue

/-- On the queue, bytes are appended at the back unless the call throws, and dropped at the front. -/
def step : CacheCall → CacheQueue → Option CacheQueue
  | .append allocate bytes, state =>
    let (cache, thrown) := state.cache.appendThrowing allocate bytes
    some ⟨cache, if thrown then state.queue else state.queue ++ bytes⟩
  | .skip length, state => some ⟨state.cache.skip length, state.queue.drop (min length state.queue.length)⟩

/-- A block is as large as it is asked for, and the sum of the lengths fits 32 bits. -/
def Allowed (state : CacheQueue) : CacheCall → Prop
  | .append allocate bytes =>
    (∀ block, allocate (bytes.length + state.cache.dataLen) = some block →
      bytes.length + state.cache.dataLen ≤ block.size) ∧
      bytes.length + state.cache.dataHead + state.cache.dataLen < 2 ^ 32
  | .skip _ => True

def Initial (state : CacheQueue) : Prop := state = ⟨.empty, []⟩

/-- The cache acts as its queue. -/
structure Exact (state : CacheQueue) : Prop where
  data : state.cache.data = state.queue
  length : state.cache.dataLen = state.queue.length
  fits : state.cache.dataHead + state.cache.dataLen ≤ state.cache.blockSize
  null : state.cache.dataPointer = .ok none ↔ state.queue = []
  asserted : state.cache.dataPointer ≠ .error ()
  throws : ∀ allocate bytes, state.Allowed (.append allocate bytes) →
    (state.cache.appendThrowing allocate bytes).2 = true →
    allocate (bytes.length + state.cache.dataLen) = none ∧
      (state.cache.appendThrowing allocate bytes).1 = state.cache

def Kept (state : CacheQueue) : Prop := state.cache.Queued state.queue

variable {state after : CacheQueue}

private theorem appended (queued : state.Kept) {allocate : Nat → Option RawCache.Block}
    {bytes : List UInt8} (allowed : state.Allowed (.append allocate bytes)) :
    RawCache.Appended allocate state.cache (state.queue ++ bytes) (state.cache.appendThrowing allocate bytes) := by
  have wanted : bytes.length + state.cache.dataLen = (state.queue ++ bytes).length := by
    rw [queued.length, List.length_append, Nat.add_comm]
  obtain ⟨grants, room⟩ := allowed
  rw [wanted] at grants
  exact queued.append room grants

private theorem step_kept (queued : state.Kept) {call : CacheCall} (allowed : state.Allowed call)
    (ran : step call state = some after) : after.Kept := by
  cases call with
  | append allocate bytes =>
    have outcome := appended queued allowed
    rw [step] at ran
    generalize state.cache.appendThrowing allocate bytes = result at ran outcome
    obtain rfl := Option.some.inj ran
    cases outcome with
    | thrown => exact queued
    | same grown | moved grown => exact grown
  | skip length =>
    obtain rfl := Option.some.inj ran
    have dropped : state.queue.drop (min length state.queue.length) = state.queue.drop length := by simp
    rw [Kept, dropped]
    exact queued.skip length

private theorem exact_of_queued (queued : state.Kept) : state.Exact := by
  have length := queued.length
  have fits := queued.fits
  have empty : state.cache.dataLen = 0 ↔ state.queue = [] := by rw [length, List.length_eq_zero_iff]
  refine ⟨queued.data, length, fits, ?_, ?_, ?_⟩
  · rw [← empty, RawCache.dataPointer]
    split_ifs with none
    · exact iff_of_true rfl none
    · exact iff_of_false (by simp) none
    · exact iff_of_false (by simp) none
  · rw [RawCache.dataPointer]
    split_ifs with none inside
    · simp
    · simp
    · exact absurd fits (by omega)
  · intro allocate bytes allowed thrown
    have wanted : bytes.length + state.cache.dataLen = (state.queue ++ bytes).length := by
      rw [length, List.length_append, Nat.add_comm]
    have outcome := appended queued allowed
    generalize state.cache.appendThrowing allocate bytes = result at thrown outcome
    cases outcome with
    | thrown refused => exact ⟨wanted ▸ refused, rfl⟩
    | same | moved => cases thrown

/-- After every run of `append` and `skip`, the cache is the queue of its bytes. -/
theorem cache_is_queue (reached : Reached Initial step Allowed state) : state.Exact := by
  apply exact_of_queued
  have initial (state : CacheQueue) (first : Initial state) : state.Kept := first ▸ RawCache.empty_queued
  exact reached.invariant initial fun kept allowed ran => step_kept kept allowed ran

/-- A pool with blocks of four bytes. -/
def fourBytes (size : Nat) : Option RawCache.Block := if size ≤ 4 then some ⟨fun _ => 0, 4⟩ else none

private theorem fourBytes_grants (size : Nat) (block : RawCache.Block) (served : fourBytes size = some block) :
    size ≤ block.size := by
  unfold fourBytes at served
  split_ifs at served with small
  obtain rfl := Option.some.inj served
  exact small

/-- Bytes are moved to the front of the block, and then there is no block for more of them. -/
def movedBytes : List CacheCall :=
  [.append fourBytes [1, 2, 3], .skip 2, .append fourBytes [4, 5], .append fourBytes [6, 7]]

theorem cache_is_queue_moved : ∃ state, run step movedBytes ⟨.empty, []⟩ = some state ∧
    state.queue = [3, 4, 5] ∧ state.Exact := by
  have append {state : CacheQueue} (bytes : List UInt8)
      (room : bytes.length + state.cache.dataHead + state.cache.dataLen < 2 ^ 32) :
      state.Allowed (.append fourBytes bytes) := ⟨fourBytes_grants _, room⟩
  have skip {state : CacheQueue} (length : Nat) : state.Allowed (.skip length) := trivial
  have first : Reached Initial step Allowed ⟨.empty, []⟩ := .start rfl
  have second := first.step (append [1, 2, 3] (by decide)) rfl
  have third := second.step (skip 2) rfl
  have fourth := third.step (append [4, 5] (by decide)) rfl
  have fifth := fourth.step (append [6, 7] (by decide)) rfl
  exact ⟨_, rfl, rfl, cache_is_queue fifth⟩

end CacheQueue

namespace MemPool

/-- What `allocate` answers a cache: the block, whatever is in it. -/
def blockFor (new : NewBlock) (pool : MemPool) (bytes : Nat → UInt8) (size : Nat) : Option RawCache.Block :=
  (pool.allocate new size).bind fun result => result.1.map fun block => ⟨bytes, block.2⟩

private theorem popFront_size {blockSize : Nat} {pool : MemPool} {block : Nat × Nat}
    (served : (popFront blockSize pool).1 = some block) : block.2 = blockSize := by
  unfold popFront at served
  split at served
  · obtain rfl := Option.some.inj served
    rfl
  · cases served

/-- Below 2 GiB, the blocks of the pool are larger than they are asked for. -/
theorem blockFor_grants {new : NewBlock} {pool : MemPool} {bytes : Nat → UInt8} {size : Nat} {block : RawCache.Block}
    (small : size < 2 ^ 31) (served : pool.blockFor new bytes size = some block) : size ≤ block.size := by
  obtain ⟨⟨answer, after⟩, allocated, found⟩ := Option.bind_eq_some_iff.mp served
  obtain ⟨given, rfl, rfl⟩ := Option.map_eq_some_iff.mp found
  have extended {outcome : Option (Int × MemPool)}
      (same : (outcome.map fun extended => if extended.1 ≠ 0 then (none, extended.2)
        else popFront (fitBlockSize size) extended.2) = some (some given, after)) : given.2 = fitBlockSize size := by
    obtain ⟨⟨code, grown⟩, _, popped⟩ := Option.map_eq_some_iff.mp same
    split_ifs at popped with refused
    · cases congrArg Prod.fst popped
    · exact popFront_size (congrArg Prod.fst popped)
  have exactly : given.2 = fitBlockSize size := by
    simp only [allocate] at allocated
    split at allocated
    · exact extended allocated
    · exact extended allocated
    · exact popFront_size (congrArg Prod.fst (Option.some.inj allocated))
  have larger := (lt_fitBlockSize small).1
  change size ≤ given.2
  omega

end MemPool

/-- So a cache may append what it gets of the pool, up to that length. -/
theorem CacheQueue.allowed_of_pool {new : NewBlock} {pool : MemPool} {contents : Nat → UInt8} {state : CacheQueue}
    {bytes : List UInt8} (small : bytes.length + state.cache.dataHead + state.cache.dataLen < 2 ^ 31) :
    state.Allowed (.append (pool.blockFor new contents) bytes) :=
  ⟨fun _ served => MemPool.blockFor_grants (by omega) served, by omega⟩

end TeenpattiUserServer.Net
