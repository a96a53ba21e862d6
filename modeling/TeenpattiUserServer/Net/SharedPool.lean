import TeenpattiUserServer.Net.CacheQueue
import TeenpattiUserServer.Net.PoolHoldings

/-! The caches of all the connections over the one `_memPool`: a cache is the address
of its block, and what it reads and writes is the memory that the others use too. -/

namespace TeenpattiUserServer.Net

open Bookkeeping Bytes

/-- `CRawCache`; `mem` is null or an address. -/
structure PooledCache where
  mem : Option Nat
  blockSize : Nat
  dataHead : Nat
  dataLen : Nat
deriving DecidableEq

/-- The pool, and what is in each block. -/
structure PoolMemory where
  pool : MemPool
  bytes : Nat → Nat → UInt8

namespace PooledCache

def empty : PooledCache := ⟨none, 0, 0, 0⟩

/-- `append`, with whether it throws. `none` is a fault of the pool. -/
def append (new : NewBlock) (data : List UInt8) (cache : PooledCache) (memory : PoolMemory) :
    Option (PooledCache × PoolMemory × Bool) :=
  match cache.mem with
  | none =>
    (memory.pool.allocate new data.length).map fun
      | (none, pool) => (cache, { memory with pool }, true)
      | (some (mem, blockSize), pool) =>
        (⟨some mem, blockSize, 0, data.length⟩,
          ⟨pool, Function.update memory.bytes mem (store (memory.bytes mem) 0 data)⟩, false)
  | some mem =>
    let here := memory.bytes mem
    let total := (cache.dataLen + data.length) % 2 ^ 32
    if (data.length + cache.dataHead + cache.dataLen) % 2 ^ 32 ≤ cache.blockSize then
      some ({ cache with dataLen := total },
        { memory with bytes := Function.update memory.bytes mem (store here (cache.dataHead + cache.dataLen) data) },
        false)
    else if cache.blockSize < (data.length + cache.dataLen) % 2 ^ 32 then
      (memory.pool.allocate new ((data.length + cache.dataLen) % 2 ^ 32)).bind fun
        | (none, pool) => some (cache, { memory with pool }, true)
        | (some (block, newBlockSize), pool) =>
          let moved := store (memory.bytes block) 0 (slice here cache.dataHead cache.dataLen)
          (pool.recycle mem cache.blockSize).map fun recycled =>
            (⟨some block, newBlockSize, 0, total⟩,
              ⟨recycled.2, Function.update memory.bytes block (store moved cache.dataLen data)⟩, false)
    else
      let moved := store here 0 (slice here cache.dataHead cache.dataLen)
      some ({ cache with dataHead := 0, dataLen := total },
        { memory with bytes := Function.update memory.bytes mem (store moved cache.dataLen data) }, false)

def skip (length : Nat) (cache : PooledCache) (memory : PoolMemory) : Option (PooledCache × PoolMemory) :=
  match cache.mem with
  | none => some (cache, memory)
  | some mem =>
    if cache.dataLen ≤ length then
      (memory.pool.recycle mem cache.blockSize).map fun recycled => (empty, { memory with pool := recycled.2 })
    else some ({ cache with dataHead := cache.dataHead + length, dataLen := cache.dataLen - length }, memory)

/-- The cache by itself, with the bytes of its block in it. -/
def view (cache : PooledCache) (memory : PoolMemory) : RawCache :=
  ⟨cache.mem.map memory.bytes, cache.blockSize, cache.dataHead, cache.dataLen⟩

end PooledCache

/-- The caches, and the queues that they stand for. -/
structure Caches (ι : Type) where
  memory : PoolMemory
  cache : ι → PooledCache
  queue : ι → List UInt8

/-- Calls on the caches, and writes of the rest of the program to its own memory. -/
inductive SharedCall (ι : Type)
  | append (i : ι) (data : List UInt8)
  | skip (i : ι) (length : Nat)
  | elsewhere (bytes : Nat → Nat → UInt8)

namespace Caches

variable {ι : Type} [DecidableEq ι]

def step (new : NewBlock) : SharedCall ι → Caches ι → Option (Caches ι)
  | .append i data, state =>
    ((state.cache i).append new data state.memory).map fun
      | (cache, memory, thrown) =>
        ⟨memory, Function.update state.cache i cache,
          if thrown then state.queue else Function.update state.queue i (state.queue i ++ data)⟩
  | .skip i length, state =>
    ((state.cache i).skip length state.memory).map fun
      | (cache, memory) =>
        ⟨memory, Function.update state.cache i cache, Function.update state.queue i ((state.queue i).drop length)⟩
  | .elsewhere bytes, state => some { state with memory := { state.memory with bytes } }

/-- Bytes are appended as they are received and sent, 32 MiB at most at once, and the rest of the
program keeps off the blocks of the caches. -/
def Allowed (state : Caches ι) : SharedCall ι → Prop
  | .append _ data => data ≠ [] ∧ data.length < 2 ^ 25
  | .skip _ _ => True
  | .elsewhere bytes => ∀ i mem, (state.cache i).mem = some mem → bytes mem = state.memory.bytes mem

def Initial (state : Caches ι) : Prop :=
  state.memory.pool = .empty ∧ (∀ i, state.cache i = .empty) ∧ ∀ i, state.queue i = []

/-- Each cache is the queue of its bytes, in a block of its own, and a block that no cache
holds is free. -/
structure Exact (state : Caches ι) : Prop where
  data : ∀ i, ((state.cache i).view state.memory).data = state.queue i
  length : ∀ i, (state.cache i).dataLen = (state.queue i).length
  fits : ∀ i, (state.cache i).dataHead + (state.cache i).dataLen ≤ (state.cache i).blockSize
  null : ∀ i, (state.cache i).mem = none ↔ state.queue i = []
  distinct : ∀ i j mem, (state.cache i).mem = some mem → (state.cache j).mem = some mem → i = j
  there : ∀ i mem, (state.cache i).mem = some mem → mem ∈ state.memory.pool.undeleted
  unfree : ∀ i mem, (state.cache i).mem = some mem → ∀ size l, state.memory.pool.free.lookup size = some l → mem ∉ l
  held : ∀ mem ∈ state.memory.pool.undeleted,
    (∃ size l, state.memory.pool.free.lookup size = some l ∧ mem ∈ l) ∨ ∃ i, (state.cache i).mem = some mem

end Caches

namespace PooledCache

variable {new : NewBlock} {cache after : PooledCache} {memory memory' : PoolMemory} {data : List UInt8} {thrown : Bool}

/-- A call throws and leaves the cache as it was, or the bytes are in it. -/
private theorem thrown_or_queued {allocate : Nat → Option RawCache.Block} {cache after : RawCache} {content : List UInt8}
    (appended : RawCache.Appended allocate cache content (after, thrown)) :
    (thrown = true ∧ after = cache) ∨ (thrown = false ∧ after.Queued content) := by
  cases appended with
  | thrown => exact .inl ⟨rfl, rfl⟩
  | same queued | moved queued => exact .inr ⟨rfl, queued⟩

/-- What the pool answers to a request, with the bytes that are in the block. -/
def served (new : NewBlock) (memory : PoolMemory) (size : Nat) : Option RawCache.Block :=
  (memory.pool.allocate new size).bind fun result => result.1.map fun block => ⟨memory.bytes block.1, block.2⟩

/-- Seen by itself, the cache is the one with a block of its own. -/
theorem append_view (ran : cache.append new data memory = some (after, memory', thrown)) :
    (cache.view memory).appendThrowing (served new memory) data = (after.view memory', thrown) := by
  obtain ⟨mem, blockSize, dataHead, dataLen⟩ := cache
  cases mem with
  | none =>
    obtain ⟨⟨result, pool⟩, allocated, same⟩ := Option.map_eq_some_iff.mp ran
    have answer : served new memory data.length = result.map fun block => ⟨memory.bytes block.1, block.2⟩ := by
      rw [served, allocated, Option.bind_some]
    simp only [RawCache.appendThrowing, view, Option.map_none, answer]
    cases result <;> cases same <;> simp
  | some mem =>
    change RawCache.appendThrowing _ ⟨some (memory.bytes mem), blockSize, dataHead, dataLen⟩ data = _
    simp only [append] at ran
    simp only [RawCache.appendThrowing]
    split at ran
    · rename_i direct
      rw [if_pos direct]
      cases ran
      simp [view]
    · rename_i direct
      rw [if_neg direct]
      split at ran
      · rename_i larger
        rw [if_pos larger]
        obtain ⟨⟨result, pool⟩, allocated, rest⟩ := Option.bind_eq_some_iff.mp ran
        have answer : served new memory ((data.length + dataLen) % 2 ^ 32) =
            result.map fun block => ⟨memory.bytes block.1, block.2⟩ := by
          rw [served, allocated, Option.bind_some]
        rw [answer]
        cases result with
        | none =>
          cases rest
          rfl
        | some block =>
          obtain ⟨_, _, same⟩ := Option.map_eq_some_iff.mp rest
          cases same
          simp [view]
      · rename_i larger
        rw [if_neg larger]
        cases ran
        simp [view]

end PooledCache

namespace Caches

variable {ι : Type} [DecidableEq ι] {new : NewBlock} {cache : ι → PooledCache} {after : PooledCache} {i : ι}
  {handed : List Handed} {given : Handed}

/-- What is handed out is what the caches hold, and no two of them hold the same. -/
private structure Owns (cache : ι → PooledCache) (handed : List Handed) : Prop where
  held : ∀ i mem, (cache i).mem = some mem →
    ∃ given ∈ handed, given.block = mem ∧ given.size = (cache i).blockSize
  owner : ∀ given ∈ handed, ∃ i, (cache i).mem = some given.block
  apart : ∀ i j mem, (cache i).mem = some mem → (cache j).mem = some mem → i = j

private theorem Owns.stays (owns : Owns cache handed) (mem : after.mem = (cache i).mem)
    (size : after.blockSize = (cache i).blockSize) : Owns (Function.update cache i after) handed := by
  have same : ∀ j, (Function.update cache i after j).mem = (cache j).mem ∧
      (Function.update cache i after j).blockSize = (cache j).blockSize := by
    intro j
    by_cases equal : j = i
    · subst equal
      rw [Function.update_self]
      exact ⟨mem, size⟩
    · rw [Function.update_of_ne equal]
      exact ⟨rfl, rfl⟩
  constructor
  · intro j block holds
    rw [(same j).2]
    exact owns.held j block ((same j).1 ▸ holds)
  · intro given member
    obtain ⟨j, holds⟩ := owns.owner given member
    exact ⟨j, (same j).1 ▸ holds⟩
  · intro j k block first second
    exact owns.apart j k block ((same j).1 ▸ first) ((same k).1 ▸ second)

private theorem Owns.take (owns : Owns cache handed) (idle : (cache i).mem = none)
    (unknown : ∀ other ∈ handed, other.block ≠ given.block) (mem : after.mem = some given.block)
    (size : after.blockSize = given.size) : Owns (Function.update cache i after) (given :: handed) := by
  have apart : ∀ j, j ≠ i → (cache j).mem ≠ some given.block := by
    intro j _ holds
    obtain ⟨other, member, same, _⟩ := owns.held j _ holds
    exact unknown other member same
  constructor
  · intro j block holds
    by_cases equal : j = i
    · subst equal
      rw [Function.update_self] at holds ⊢
      exact ⟨given, List.mem_cons_self .., Option.some.inj (mem.symm.trans holds), size.symm⟩
    · rw [Function.update_of_ne equal] at holds ⊢
      obtain ⟨other, member, same⟩ := owns.held j block holds
      exact ⟨other, List.mem_cons_of_mem _ member, same⟩
  · intro other member
    rcases List.mem_cons.mp member with rfl | before
    · exact ⟨i, by rw [Function.update_self, mem]⟩
    · obtain ⟨j, holds⟩ := owns.owner other before
      have different : j ≠ i := by
        rintro rfl
        rw [idle] at holds
        cases holds
      exact ⟨j, by rw [Function.update_of_ne different, holds]⟩
  · intro j k block first second
    by_cases one : j = i <;> by_cases two : k = i
    · exact one.trans two.symm
    · subst one
      rw [Function.update_self, mem] at first
      rw [Function.update_of_ne two] at second
      exact absurd (second.trans first.symm) (apart k two)
    · subst two
      rw [Function.update_self, mem] at second
      rw [Function.update_of_ne one] at first
      exact absurd (first.trans second.symm) (apart j one)
    · rw [Function.update_of_ne one] at first
      rw [Function.update_of_ne two] at second
      exact owns.apart j k block first second

private theorem Owns.leave (owns : Owns cache handed) (distinct : (handed.map Handed.block).Nodup)
    (member : given ∈ handed) (holds : (cache i).mem = some given.block) (idle : after.mem = none) :
    Owns (Function.update cache i after) (handed.erase given) := by
  constructor
  · intro j block holds'
    have different : j ≠ i := by
      rintro rfl
      rw [Function.update_self, idle] at holds'
      cases holds'
    rw [Function.update_of_ne different] at holds' ⊢
    obtain ⟨other, known, same, size⟩ := owns.held j block holds'
    have another : other ≠ given := by
      rintro rfl
      exact different (owns.apart j i block holds' (same ▸ holds))
    exact ⟨other, (List.mem_erase_of_ne another).mpr known, same, size⟩
  · intro other still
    have known := List.mem_of_mem_erase still
    obtain ⟨j, holds'⟩ := owns.owner other known
    have different : j ≠ i := by
      rintro rfl
      have same : other.block = given.block := Option.some.inj (holds'.symm.trans holds)
      have equal : other = given := List.inj_on_of_nodup_map distinct known member same
      exact (List.Nodup.of_map _ distinct).not_mem_erase (equal ▸ still)
    exact ⟨j, by rw [Function.update_of_ne different, holds']⟩
  · intro j k block first second
    have different : ∀ l, (Function.update cache i after l).mem = some block → l ≠ i := by
      rintro l holds' rfl
      rw [Function.update_self, idle] at holds'
      cases holds'
    have one := different j first
    have two := different k second
    rw [Function.update_of_ne one] at first
    rw [Function.update_of_ne two] at second
    exact owns.apart j k block first second

/-- The accounts of the pool and of the caches agree. -/
private structure Accounts (cache : ι → PooledCache) (pool : MemPool) (handed : List Handed) : Prop where
  sound : pool.Sound handed
  settled : pool.Settled handed
  owns : Owns cache handed

/-- The blocks that are written are those of one cache. -/
private structure Changed (cache : ι → PooledCache) (memory : PoolMemory) (i : ι) (after : PooledCache)
    (memory' : PoolMemory) : Prop where
  accounts : ∃ handed, Accounts (Function.update cache i after) memory'.pool handed
  frame : ∀ j ≠ i, ∀ mem, (cache j).mem = some mem → memory'.bytes mem = memory.bytes mem

variable {memory memory' : PoolMemory} {data content : List UInt8} {queue : ι → List UInt8}

/-- A write in a block that a cache holds afterwards leaves the other blocks alone. -/
private theorem frame_of_owns {bytes : Nat → Nat → UInt8} {mem : Nat} {contents : Nat → UInt8}
    (owns : Owns (Function.update cache i after) handed) (holds : after.mem = some mem) :
    ∀ j ≠ i, ∀ other, (cache j).mem = some other → Function.update bytes mem contents other = bytes other := by
  intro j different other theirs
  refine Function.update_of_ne (fun same => different ?_) ..
  subst same
  refine owns.apart j i other ?_ ?_
  · rw [Function.update_of_ne different, theirs]
  · rw [Function.update_self, holds]

/-- A block goes back to the pool. -/
private theorem Accounts.leave {pool : MemPool} (accounts : Accounts cache pool handed) {mem : Nat}
    (holds : (cache i).mem = some mem) (idle : after.mem = none) :
    ∃ code recycled, pool.recycle mem (cache i).blockSize = some (code, recycled) ∧
      ∃ rest, Accounts (Function.update cache i after) recycled rest := by
  obtain ⟨given, member, rfl, size⟩ := accounts.owns.held i mem holds
  obtain ⟨recycled, ran, sound⟩ := accounts.sound.recycle member
  exact ⟨0, recycled, size ▸ ran, _, sound, accounts.settled.recycle ran rfl,
    accounts.owns.leave accounts.sound.distinct member holds idle⟩

variable (new) in
/-- A cache without a block asks for one. -/
private theorem Accounts.take {pool : MemPool} (accounts : Accounts cache pool handed) (idle : (cache i).mem = none)
    {size : Nat} (small : size < 2 ^ 31) :
    ∃ result pool', pool.allocate new size = some (result, pool') ∧
      (result = none → Accounts cache pool' handed) ∧
      ∀ block blockSize, result = some (block, blockSize) →
        ∀ after : PooledCache, after.mem = some block → after.blockSize = blockSize →
          Accounts (Function.update cache i after) pool' (⟨size, block, blockSize⟩ :: handed) := by
  obtain ⟨result, pool', ran, sound⟩ := accounts.sound.allocate new small
  have settled := accounts.settled.allocate new accounts.sound ran
  refine ⟨result, pool', ran, ?_, ?_⟩
  · rintro rfl
    exact ⟨sound, settled, accounts.owns⟩
  · rintro block blockSize rfl
    refine fun after mem large => ⟨sound, settled, ?_⟩
    refine accounts.owns.take idle (fun other member same => ?_) mem large
    have distinct := sound.distinct
    rw [Lending.handOut, List.map_cons, List.nodup_cons] at distinct
    exact distinct.1 (List.mem_map.mpr ⟨other, member, same⟩)

variable (new) in
/-- A cache asks for another block, and gives its own back when it gets one. -/
private theorem Accounts.move {pool : MemPool} (accounts : Accounts cache pool handed) {mem : Nat}
    (holds : (cache i).mem = some mem) {size : Nat} (small : size < 2 ^ 31) :
    ∃ result pool', pool.allocate new size = some (result, pool') ∧
      (result = none → Accounts cache pool' handed) ∧
      ∀ block blockSize, result = some (block, blockSize) → ∃ code recycled,
        pool'.recycle mem (cache i).blockSize = some (code, recycled) ∧
          ∀ after : PooledCache, after.mem = some block → after.blockSize = blockSize →
            ∃ rest, Accounts (Function.update cache i after) recycled rest := by
  obtain ⟨result, pool', ran, sound⟩ := accounts.sound.allocate new small
  have settled := accounts.settled.allocate new accounts.sound ran
  refine ⟨result, pool', ran, ?_, ?_⟩
  · rintro rfl
    exact ⟨sound, settled, accounts.owns⟩
  · rintro block blockSize rfl
    obtain ⟨given, member, rfl, sized⟩ := accounts.owns.held i mem holds
    have distinct := sound.distinct
    rw [Lending.handOut, List.map_cons, List.nodup_cons] at distinct
    have unknown : ∀ other ∈ handed, other.block ≠ block := fun other known same =>
      distinct.1 (List.mem_map.mpr ⟨other, known, same⟩)
    obtain ⟨recycled, back, sound'⟩ := sound.recycle (List.mem_cons_of_mem _ member)
    have settled' := settled.recycle back rfl
    refine ⟨0, recycled, sized ▸ back, fun after mem' large => ⟨_, sound', settled', ?_⟩⟩
    have left : Owns (Function.update cache i .empty) (handed.erase given) :=
      accounts.owns.leave accounts.sound.distinct member holds rfl
    have another : ¬ (⟨size, block, blockSize⟩ : Handed) == given := by
      rw [beq_iff_eq]
      rintro rfl
      exact unknown _ member rfl
    rw [Lending.handOut, List.erase_cons_tail another]
    have idle : (Function.update cache i PooledCache.empty i).mem = none := by
      rw [Function.update_self]
      rfl
    have fresh : ∀ other ∈ handed.erase given, other.block ≠ block := fun other still =>
      unknown other (List.mem_of_mem_erase still)
    have taken : Owns (Function.update (Function.update cache i .empty) i after)
        (⟨size, block, blockSize⟩ :: handed.erase given) := left.take idle fresh mem' large
    rwa [Function.update_idem] at taken

omit [DecidableEq ι] in
/-- The pool grants what is asked for. -/
private theorem Accounts.grants (accounts : Accounts cache memory.pool handed) {size : Nat} (small : size < 2 ^ 31)
    {block : RawCache.Block} (served : PooledCache.served new memory size = some block) : size ≤ block.size := by
  obtain ⟨result, pool', ran, sound⟩ := accounts.sound.allocate new small
  rw [PooledCache.served, ran, Option.bind_some] at served
  obtain ⟨⟨address, blockSize⟩, rfl, rfl⟩ := Option.map_eq_some_iff.mp served
  exact Nat.le_of_lt (sound.given _ (List.mem_cons_self ..)).1

omit [DecidableEq ι] in
/-- No block is larger than the pool. -/
private theorem Accounts.blockSize_le {pool : MemPool} (accounts : Accounts cache pool handed) {mem : Nat}
    (holds : (cache i).mem = some mem) : (cache i).blockSize ≤ MemPool.cMaxPoolSize := by
  obtain ⟨given, member, _, size⟩ := accounts.owns.held i mem holds
  obtain ⟨_, _, s, _, stub, owned, _⟩ := accounts.sound.given given member
  have some' : 0 < s.card := Finset.card_pos.mpr ⟨_, owned⟩
  have whole := MemPool.weight_le accounts.sound stub
  have bounded := accounts.sound.bounded
  have single : given.size * 1 ≤ given.size * s.card := Nat.mul_le_mul_left _ some'
  omega

omit [DecidableEq ι] in
/-- A cache that holds no block has no bytes. -/
private theorem nil_of_idle (queued : ((cache i).view memory).Queued content) (idle : (cache i).mem = none) :
    content = [] := by
  rw [← queued.data]
  simp [PooledCache.view, RawCache.data, idle]

variable (new) in
private theorem append_changed (accounts : Accounts cache memory.pool handed) (small : data.length < 2 ^ 25)
    (within : (cache i).dataLen ≤ (cache i).blockSize) :
    ∃ after memory' thrown, (cache i).append new data memory = some (after, memory', thrown) ∧
      Changed cache memory i after memory' ∧ (thrown = true → after = cache i) := by
  cases holds : (cache i).mem with
  | none =>
    have fits : data.length < 2 ^ 31 := by omega
    obtain ⟨result, pool', ran, refused, granted⟩ := accounts.take new holds fits
    simp only [PooledCache.append, holds, ran, Option.map_some]
    cases result with
    | none =>
      refine ⟨_, _, _, rfl, ⟨⟨handed, ?_⟩, fun _ _ _ _ => rfl⟩, fun _ => rfl⟩
      rw [Function.update_eq_self]
      exact refused rfl
    | some block =>
      have after := granted block.1 block.2 rfl ⟨some block.1, block.2, 0, data.length⟩ rfl rfl
      exact ⟨_, _, _, rfl, ⟨⟨_, after⟩, frame_of_owns after.owns rfl⟩, by simp⟩
  | some mem =>
    have largest := Nat.le_trans within (accounts.blockSize_le holds)
    simp only [MemPool.cMaxPoolSize] at largest
    have stays : ∀ after : PooledCache, after.mem = some mem → after.blockSize = (cache i).blockSize →
        Accounts (Function.update cache i after) memory.pool handed := fun after same size =>
      ⟨accounts.sound, accounts.settled, accounts.owns.stays (same.trans holds.symm) size⟩
    simp only [PooledCache.append, holds]
    split
    · have after := stays
        ⟨some mem, (cache i).blockSize, (cache i).dataHead, ((cache i).dataLen + data.length) % 2 ^ 32⟩ rfl rfl
      exact ⟨_, _, _, rfl, ⟨⟨_, after⟩, frame_of_owns after.owns rfl⟩, by simp⟩
    · split
      · have fits : (data.length + (cache i).dataLen) % 2 ^ 32 < 2 ^ 31 := by omega
        obtain ⟨result, pool', ran, refused, granted⟩ := accounts.move new holds fits
        rw [ran, Option.bind_some]
        cases result with
        | none =>
          refine ⟨_, _, _, rfl, ⟨⟨handed, ?_⟩, fun _ _ _ _ => rfl⟩, fun _ => rfl⟩
          rw [Function.update_eq_self]
          exact refused rfl
        | some block =>
          obtain ⟨code, recycled, back, accounted⟩ := granted block.1 block.2 rfl
          obtain ⟨rest, after⟩ := accounted
            ⟨some block.1, block.2, 0, ((cache i).dataLen + data.length) % 2 ^ 32⟩ rfl rfl
          simp only [back, Option.map_some]
          exact ⟨_, _, _, rfl, ⟨⟨_, after⟩, frame_of_owns after.owns rfl⟩, by simp⟩
      · have after := stays ⟨some mem, (cache i).blockSize, 0, ((cache i).dataLen + data.length) % 2 ^ 32⟩ rfl rfl
        exact ⟨_, _, _, rfl, ⟨⟨_, after⟩, frame_of_owns after.owns rfl⟩, by simp⟩

private theorem skip_changed (queued : ((cache i).view memory).Queued content)
    (idle : content = [] → cache i = .empty) (accounts : Accounts cache memory.pool handed) (length : Nat) :
    ∃ after memory', (cache i).skip length memory = some (after, memory') ∧ Changed cache memory i after memory' ∧
      after.view memory' = ((cache i).view memory).skip length ∧ (content.drop length = [] → after = .empty) := by
  have bytes : (cache i).dataLen = content.length := queued.length
  have frame : ∀ j ≠ i, ∀ mem, (cache j).mem = some mem → memory.bytes mem = memory.bytes mem := fun _ _ _ _ => rfl
  cases holds : (cache i).mem with
  | none =>
    have none := nil_of_idle queued holds
    simp only [PooledCache.skip, holds]
    refine ⟨_, _, rfl, ⟨⟨handed, ?_⟩, frame⟩, ?_, fun _ => idle none⟩
    · rwa [Function.update_eq_self]
    · simp [RawCache.skip, PooledCache.view, holds]
  | some mem =>
    simp only [PooledCache.skip, holds]
    split
    · rename_i all
      obtain ⟨code, recycled, ran, rest, after⟩ := accounts.leave holds (rfl : PooledCache.empty.mem = none)
      rw [ran, Option.map_some]
      refine ⟨_, _, rfl, ⟨⟨rest, after⟩, frame⟩, ?_, fun _ => rfl⟩
      simp [RawCache.skip, PooledCache.view, PooledCache.empty, RawCache.empty, holds, all]
    · rename_i part
      refine ⟨_, _, rfl, ⟨⟨handed, accounts.sound, accounts.settled, accounts.owns.stays holds.symm rfl⟩, frame⟩, ?_, ?_⟩
      · simp [RawCache.skip, PooledCache.view, holds, part]
      · intro none
        have short := List.drop_eq_nil_iff.mp none
        omega

/-- A state whose accounts agree, with the queues of its caches. -/
private structure Kept (state : Caches ι) : Prop where
  accounts : ∃ handed, Accounts state.cache state.memory.pool handed
  queued : ∀ i, ((state.cache i).view state.memory).Queued (state.queue i)
  idle : ∀ i, state.queue i = [] → state.cache i = .empty

variable {state : Caches ι}

/-- The other caches keep their blocks and what is in them. -/
private theorem Kept.changed (kept : Kept state) (changed : Changed state.cache state.memory i after memory')
    (queued : (after.view memory').Queued content) (idle : content = [] → after = .empty) :
    Kept ⟨memory', Function.update state.cache i after, Function.update state.queue i content⟩ where
  accounts := changed.accounts
  queued := by
    intro j
    by_cases same : j = i
    · subst same
      simpa using queued
    · have others : (state.cache j).view memory' = (state.cache j).view state.memory := by
        rw [PooledCache.view, PooledCache.view]
        congr 1
        refine Option.map_congr fun mem theirs => ?_
        exact changed.frame j same mem theirs
      simp only [Function.update_of_ne same, others]
      exact kept.queued j
  idle := by
    intro j none
    by_cases same : j = i
    · subst same
      simp only [Function.update_self] at none ⊢
      exact idle none
    · simp only [Function.update_of_ne same] at none ⊢
      exact kept.idle j none

omit [DecidableEq ι] in
/-- The sums of the lengths fit 32 bits. -/
private theorem Kept.room (kept : Kept state) (accounts : Accounts state.cache state.memory.pool handed)
    (small : data.length < 2 ^ 25) :
    data.length + ((state.cache i).view state.memory).dataHead + ((state.cache i).view state.memory).dataLen < 2 ^ 32 ∧
      (state.queue i ++ data).length < 2 ^ 31 := by
  have length := (kept.queued i).length
  have fits := (kept.queued i).fits
  have largest : ((state.cache i).view state.memory).blockSize ≤ MemPool.cMaxPoolSize := by
    cases holds : (state.cache i).mem with
    | none =>
      rw [kept.idle i (nil_of_idle (kept.queued i) holds)]
      exact Nat.zero_le _
    | some mem => exact accounts.blockSize_le holds
  simp only [MemPool.cMaxPoolSize] at largest
  rw [List.length_append]
  omega

variable (new) in
/-- A call that is allowed does not fault, and keeps the accounts. -/
private theorem step_kept (kept : Kept state) {call : SharedCall ι} (allowed : state.Allowed call) :
    ∃ after, step new call state = some after ∧ Kept after := by
  obtain ⟨handed, accounts⟩ := kept.accounts
  cases call with
  | append i data =>
    obtain ⟨nonempty, small⟩ := allowed
    obtain ⟨after, memory', thrown, ran, changed, unchanged⟩ := append_changed new accounts small
      (Nat.le_trans (Nat.le_add_left ..) (kept.queued i).fits)
    refine ⟨_, by rw [step, ran]; rfl, ?_⟩
    have seen := PooledCache.append_view ran
    obtain ⟨room, need⟩ := kept.room accounts (i := i) small
    have grants : ∀ block, PooledCache.served new state.memory (state.queue i ++ data).length = some block →
        (state.queue i ++ data).length ≤ block.size := fun _ served => accounts.grants need served
    have outcome := (kept.queued i).append room grants
    rw [seen] at outcome
    rcases PooledCache.thrown_or_queued outcome with ⟨rfl, same⟩ | ⟨rfl, queued⟩
    · obtain rfl := unchanged rfl
      have whole := kept.changed changed (same ▸ kept.queued i) (kept.idle i)
      rw [Function.update_eq_self i state.queue] at whole
      exact whole
    · exact kept.changed changed queued fun none => absurd (List.append_eq_nil_iff.mp none).2 nonempty
  | skip i length =>
    obtain ⟨after, memory', ran, changed, seen, emptied⟩ := skip_changed (kept.queued i) (kept.idle i) accounts length
    exact ⟨_, by rw [step, ran]; rfl, kept.changed changed (seen ▸ (kept.queued i).skip length) emptied⟩
  | elsewhere bytes =>
    refine ⟨_, rfl, ⟨handed, accounts⟩, fun i => ?_, kept.idle⟩
    have same : (state.cache i).view { state.memory with bytes } = (state.cache i).view state.memory := by
      rw [PooledCache.view, PooledCache.view]
      congr 1
      exact Option.map_congr fun mem mine => allowed i mem mine
    change ((state.cache i).view { state.memory with bytes }).Queued (state.queue i)
    rw [same]
    exact kept.queued i

omit [DecidableEq ι] in
private theorem kept_of_initial (initial : Initial state) : Kept state := by
  obtain ⟨pool, idle, none⟩ := initial
  refine ⟨⟨[], ?_, ?_, ?_, by simp, ?_⟩, fun i => ?_, fun i _ => idle i⟩
  · exact pool ▸ MemPool.empty_sound
  · exact pool ▸ MemPool.empty_settled
  · simp [idle, PooledCache.empty]
  · simp [idle, PooledCache.empty]
  · rw [idle, none]
    exact RawCache.empty_queued

omit [DecidableEq ι] in
private theorem exact_of_kept (kept : Kept state) : state.Exact := by
  obtain ⟨handed, sound, settled, owns⟩ := kept.accounts
  have lent : Lending.Exact ⟨state.memory.pool, handed⟩ := Lending.exact_of_sound sound
  constructor
  case data => exact fun i => (kept.queued i).data
  case length => exact fun i => (kept.queued i).length
  case fits => exact fun i => (kept.queued i).fits
  case null => exact fun i => ⟨nil_of_idle (kept.queued i), fun none => by rw [kept.idle i none]; rfl⟩
  case distinct => exact owns.apart
  case there =>
    intro i mem holds
    obtain ⟨given, member, rfl, _⟩ := owns.held i mem holds
    exact lent.there given member
  case unfree =>
    intro i mem holds
    obtain ⟨given, member, rfl, _⟩ := owns.held i mem holds
    exact lent.unfree given member
  case held =>
    intro mem member
    obtain ⟨size, s, stub, inside⟩ := settled.stubbed mem member
    have known : (state.memory.pool.free.lookup size).isSome := by rw [sound.classes, stub]; rfl
    obtain ⟨l, free⟩ := Option.isSome_iff_exists.mp known
    rcases settled.listed size l s free stub mem inside with listed | ⟨given, handed', same, _⟩
    · exact .inl ⟨size, l, free, listed⟩
    · obtain ⟨i, holds⟩ := owns.owner given handed'
      exact .inr ⟨i, same ▸ holds⟩

/-- In every run, each cache is the queue of its own bytes whatever the others do, no block is lost,
and no call faults. -/
theorem caches_keep_apart (reached : Reached Initial (step new) Allowed state) :
    state.Exact ∧ ∀ call, state.Allowed call → ∃ after, step new call state = some after := by
  have kept : Kept state := by
    refine reached.invariant (fun _ => kept_of_initial) ?_
    intro state call after before allowed ran
    obtain ⟨result, stepped, kept⟩ := step_kept new before allowed
    rw [stepped] at ran
    exact Option.some.inj ran ▸ kept
  refine ⟨exact_of_kept kept, fun call allowed => ?_⟩
  obtain ⟨after, ran, _⟩ := step_kept new kept allowed
  exact ⟨after, ran⟩

private theorem reached_of_run {calls : List (SharedCall ι)} (each : ∀ call ∈ calls, ∀ state : Caches ι, state.Allowed call)
    {after : Caches ι} (reached : Reached Initial (step new) Allowed state) (ran : run (step new) calls state = some after) :
    Reached Initial (step new) Allowed after := by
  induction calls generalizing state with
  | nil => exact Option.some.inj ran ▸ reached
  | cons call calls ih =>
    obtain ⟨middle, stepped, rest⟩ := Option.bind_eq_some_iff.mp ran
    have permitted := each call (List.mem_cons_self ..) state
    exact ih (fun other member => each other (List.mem_cons_of_mem _ member)) (reached.step permitted stepped) rest

/-- The two caches of a connection: bytes go to both, the first is emptied, and the second grows out of
its block while the first comes back. -/
def bothDirections : List (SharedCall Bool) :=
  [.append false [1, 2], .append true [3], .skip false 2, .append true (List.replicate 1024 4), .append false [5]]

theorem caches_keep_apart_both : ∃ state, run (step Lending.ascending) bothDirections
      ⟨⟨.empty, fun _ _ => 0⟩, fun _ => .empty, fun _ => []⟩ = some state ∧
    state.queue false = [5] ∧ (state.cache true).blockSize = 2048 ∧ state.Exact ∧
    ∀ call, state.Allowed call → ∃ after, step Lending.ascending call state = some after := by
  have facts : (run (step Lending.ascending) bothDirections
      ⟨⟨.empty, fun _ _ => 0⟩, fun _ => .empty, fun _ => []⟩).map (fun state =>
        (state.queue false, (state.cache true).blockSize)) = some ([5], 2048) := by decide +kernel
  obtain ⟨state, ran, same⟩ := Option.map_eq_some_iff.mp facts
  obtain ⟨queue, blockSize⟩ := Prod.mk.inj same
  have first : Reached Initial (step Lending.ascending) Allowed
      (⟨⟨.empty, fun _ _ => 0⟩, fun _ => .empty, fun _ => []⟩ : Caches Bool) :=
    .start ⟨rfl, fun _ => rfl, fun _ => rfl⟩
  have each : ∀ call ∈ bothDirections, ∀ state : Caches Bool, state.Allowed call := by
    simp [bothDirections, Allowed, -List.reduceReplicate]
  exact ⟨state, ran, queue, blockSize, caches_keep_apart (reached_of_run each first ran)⟩

end Caches

end TeenpattiUserServer.Net
