import TeenpattiUserServer.Bookkeeping.Runs
import TeenpattiUserServer.Shm.Blocks

/-! Runs of the chunk allocator from an initialised pool: which chunks are free and which
are in the chains that were handed out, and what such a chain carries. -/

namespace TeenpattiUserServer.Shm.ChunkAllocator

open Store Intrusive Bookkeeping

/-- The calls that write to the pool. `free` and `split` name a chain by its first chunk. -/
inductive Call where
  | malloc (chunkNum : Nat)
  | free (headChunk : Nat)
  | split (head : Nat) (dataBuf : List UInt8)

/-- The pool, and the chains that `malloc` returned and that are not yet freed. -/
structure Lent where
  pool : ChunkPool
  live : List Nat

namespace Call

def step (call : Call) (lent : Lent) : Option Lent :=
  match call with
  | malloc chunkNum =>
    (Prog.exec (ChunkAllocator.malloc chunkNum) lent.pool).map fun (head, pool) => ⟨pool, head.toList ++ lent.live⟩
  | free headChunk =>
    (Prog.exec (ChunkAllocator.free (some headChunk)) lent.pool).map fun (_, pool) => ⟨pool, lent.live.erase headChunk⟩
  | split head dataBuf =>
    (Prog.exec (ChunkAllocator.split (some head) dataBuf) lent.pool).map fun (_, pool) => ⟨pool, lent.live⟩

/-- At least one chunk is asked for, and no chain is used that is not live. -/
def Allowed (lent : Lent) : Call → Prop
  | malloc chunkNum => 1 ≤ chunkNum
  | free headChunk => headChunk ∈ lent.live
  | split head _ => head ∈ lent.live

end Call

/-- A pool that was opened for the first time, in a memory with any contents. -/
structure Initialised (nChunks chunkSize : Nat) (lent : Lent) : Prop where
  opened : ∃ memory, Prog.exec (openPool true nChunks chunkSize) memory = some (0, lent.pool)
  unlent : lent.live = []

/-- Any calls so far. -/
def LentBy (nChunks chunkSize : Nat) : Lent → Prop :=
  Reached (Initialised nChunks chunkSize) Call.step fun lent call => call.Allowed lent

/-- The free list and the live chains end, no chunk is in two of them or in one twice, and
every chunk is in one. -/
structure Conserved (nChunks chunkSize : Nat) (lent : Lent) (chain : Nat → List Nat) (free : List Nat) : Prop where
  total : lent.pool.chunkTotal = nChunks
  size : lent.pool.chunkSize = chunkSize
  freeChain : Chain lent.pool.next lent.pool.freeList free none
  liveChain : ∀ head ∈ lent.live, Chain lent.pool.next (some head) (chain head) none
  freeAcyclic : free.Nodup
  liveAcyclic : ∀ head ∈ lent.live, (chain head).Nodup
  freeApart : ∀ head ∈ lent.live, (chain head).Disjoint free
  liveApart : ∀ head ∈ lent.live, ∀ other ∈ lent.live, other ≠ head → (chain other).Disjoint (chain head)
  named : lent.live.Nodup
  cells : (lent.live.flatMap chain ++ free).Perm (List.range nChunks)
  counted : lent.pool.freeTotal = free.length

/-- `malloc` refuses what it has not, and otherwise returns a chain of so many chunks. -/
def Grants (pool : ChunkPool) (chunkNum : Nat) : Prop :=
  if pool.freeTotal < chunkNum then Prog.exec (malloc chunkNum) pool = some (none, pool)
  else ∃ head after cells, Prog.exec (malloc chunkNum) pool = some (some head, after) ∧
    Chain after.next (some head) cells none ∧ cells.length = chunkNum

/-- `merge` refuses a buffer that is too short. `split` writes the data areas of this chain
only and no further than they go, and `merge` then gives the data back, to a buffer that is
long enough. -/
def Carries (pool : ChunkPool) (head : Nat) (cells : List Nat) (bytes : List UInt8) : Prop :=
  (∀ dataLen : Int, dataLen < bytes.length →
    Prog.exec (merge (some head) bytes.length dataLen) pool =
      some ((errorInvalidParam, bytes.length, []), pool)) ∧
  ∃ data, Prog.exec (split (some head) bytes) pool = some ((), { pool with data := data }) ∧
    (∀ cell, cell ∉ cells → data cell = pool.data cell) ∧
    (∀ cell, (pool.data cell).length = pool.chunkSize → (data cell).length = pool.chunkSize) ∧
    ∀ dataLen : Int, Prog.exec (merge (some head) bytes.length dataLen) { pool with data := data } =
      some (if dataLen < bytes.length then (errorInvalidParam, bytes.length, []) else (0, bytes.length, bytes),
        { pool with data := data })

/-- The live chains are stored blocks, each of the length its chunks have. -/
def Held (nChunks chunkSize : Nat) (lent : Lent) (chain : Nat → List Nat) (free : List Nat) : Prop :=
  lent.pool.chunkTotal = nChunks ∧ lent.pool.chunkSize = chunkSize ∧
    Stored lent.pool some (fun head => (chain head).length * chunkSize) lent.live chain free

variable {nChunks chunkSize : Nat} {lent after : Lent}
  {chain : Nat → List Nat} {free : List Nat} {call : Call}

@[simp] theorem getChunkNum_whole (positive : 0 < chunkSize) (count : Nat) :
    getChunkNum chunkSize (count * chunkSize) = count := by
  rw [getChunkNum, if_neg (by simp), Nat.mul_div_cancel count positive]

theorem Initialised.held (positive : 0 < chunkSize) (initially : Initialised nChunks chunkSize lent) :
    Held nChunks chunkSize lent (fun _ => []) (List.range nChunks).reverse := by
  obtain ⟨memory, opened⟩ := initially.opened
  obtain ⟨next, ran, chain⟩ := exec_initPoolData memory nChunks chunkSize
  have pool : ⟨nChunks, chunkSize, nChunks, (List.range nChunks).reverse.head?, next, memory.data⟩ = lent.pool := by
    simpa [openPool, ran] using opened
  rw [Held, ← pool, initially.unlent]
  refine ⟨rfl, rfl, positive, by simp, by simp, chain, ?_, List.nodup_nil, ?_⟩
  · exact List.reverse_perm _
  · simp

/-- The first chunk of a live chain is in it, and not free. -/
theorem Held.not_live (held : Held nChunks chunkSize lent chain free) {head : Nat} (unused : head ∈ free) :
    head ∉ lent.live := by
  obtain ⟨_, _, stored⟩ := held
  intro live
  have first : some head = (chain head).head? := (stored.blocks head live).head
  exact stored.apart_free live head (List.mem_of_mem_head? first.symm) unused

/-- Granted chunks leave the free list and make a chain of their own. -/
theorem Held.malloc (held : Held nChunks chunkSize lent chain free) {chunkNum : Nat} (asked : 1 ≤ chunkNum)
    (enough : chunkNum ≤ free.length) : ∃ head middle,
      Prog.exec (ChunkAllocator.malloc chunkNum) lent.pool = some (some head, middle) ∧
      Held nChunks chunkSize ⟨middle, head :: lent.live⟩ (Function.update chain head (free.take chunkNum).reverse)
        (free.drop chunkNum) := by
  have notLive {head : Nat} (unused : head ∈ free) : head ∉ lent.live := held.not_live unused
  obtain ⟨total, size, stored⟩ := held
  obtain ⟨middle, ran, sizeAfter, totalAfter, _, acquired⟩ := stored.acquire enough
  obtain ⟨head, first⟩ : ∃ head, (free.take chunkNum).reverse.head? = some head := by
    refine Option.ne_none_iff_exists'.mp fun nothing => ?_
    have empty := congrArg List.length (List.head?_eq_none_iff.mp nothing)
    rw [List.length_reverse, List.length_take_of_le enough, List.length_nil] at empty
    omega
  rw [first] at ran acquired
  have unused : head ∈ free := List.mem_of_mem_take (List.mem_reverse.mp (List.mem_of_mem_head? first))
  have given := acquired head (chunkNum * chunkSize) (notLive unused)
    (by rw [size, getChunkNum_whole (size ▸ stored.positive)])
  refine ⟨head, middle, ran, totalAfter.trans total, sizeAfter.trans size, ?_⟩
  rw [Function.update_eq_self] at given
  refine given.congr (fun _ _ => rfl) fun node _ => ?_
  by_cases same : node = head
  · subst node
    rw [Function.update_self, Function.update_self, List.length_reverse, List.length_take_of_le enough]
  · rw [Function.update_of_ne same, Function.update_of_ne same]

/-- Every call that is allowed returns and keeps the chains. -/
theorem Held.step (held : Held nChunks chunkSize lent chain free) (allowed : call.Allowed lent) :
    ∃ after chain free, call.step lent = some after ∧ Held nChunks chunkSize after chain free := by
  cases call with
  | malloc chunkNum =>
    by_cases lack : lent.pool.freeTotal < chunkNum
    · refine ⟨lent, chain, free, ?_, held⟩
      rw [Call.step, exec_malloc_lack lack]
      rfl
    · have enough : chunkNum ≤ free.length := by
        rw [held.2.2.counted] at lack
        omega
      obtain ⟨head, middle, ran, given⟩ := held.malloc allowed enough
      refine ⟨_, _, _, ?_, given⟩
      rw [Call.step, ran]
      rfl
  | free headChunk =>
    obtain ⟨total, size, stored⟩ := held
    obtain ⟨after, ran, sizeAfter, totalAfter, _, released⟩ := stored.release allowed
    refine ⟨⟨after, lent.live.erase headChunk⟩, chain, (chain headChunk).reverse ++ free, ?_,
      totalAfter.trans total, sizeAfter.trans size, released⟩
    rw [Call.step, ran]
    rfl
  | split head dataBuf =>
    obtain ⟨total, size, stored⟩ := held
    obtain ⟨data, ran, _⟩ := exec_splitLoop dataBuf (stored.blocks head allowed) (stored.block_length_le allowed)
    refine ⟨⟨{ lent.pool with data := data }, lent.live⟩, chain, free, ?_, total, size, stored.withData data⟩
    have wrote : Prog.exec (split (some head) dataBuf) lent.pool = some ((), { lent.pool with data := data }) := by
      simpa [split] using ran
    rw [Call.step, wrote]
    rfl

theorem LentBy.held (positive : 0 < chunkSize) (reached : LentBy nChunks chunkSize lent) :
    ∃ chain free, Held nChunks chunkSize lent chain free := by
  let sound (state : Lent) : Prop := ∃ chain free, Held nChunks chunkSize state chain free
  have holds : sound lent := by
    refine Reached.invariant (fun state initially => ?_) (fun held allowed ran => ?_) reached
    · exact ⟨_, _, Initialised.held positive initially⟩
    · obtain ⟨chain, free, held⟩ := held
      obtain ⟨after, chain, free, stepped, later⟩ := held.step allowed
      obtain rfl := Option.some.inj (stepped.symm.trans ran)
      exact ⟨chain, free, later⟩
  exact holds

theorem Held.conserved (held : Held nChunks chunkSize lent chain free) :
    Conserved nChunks chunkSize lent chain free := by
  obtain ⟨total, size, stored⟩ := held
  refine ⟨total, size, stored.freeChain, stored.blocks, stored.freeChain.nodup, ?_, ?_, ?_, stored.distinct,
    total ▸ stored.cells, stored.counted⟩
  · exact fun head live => (stored.blocks head live).nodup
  · exact fun head live cell => stored.apart_free live cell
  · exact fun head live other alive different cell => stored.apart_block live alive different cell

theorem Held.grants (held : Held nChunks chunkSize lent chain free) {chunkNum : Nat} (asked : 1 ≤ chunkNum) :
    Grants lent.pool chunkNum := by
  rw [Grants]
  split
  · next lack => exact exec_malloc_lack lack
  · next granted =>
    have enough : chunkNum ≤ free.length := by
      rw [held.2.2.counted] at granted
      omega
    obtain ⟨head, middle, ran, _, _, given⟩ := held.malloc asked enough
    have chain := given.blocks head (List.mem_cons_self ..)
    rw [Function.update_self] at chain
    refine ⟨head, middle, _, ran, chain, ?_⟩
    rw [List.length_reverse, List.length_take_of_le enough]

theorem Held.carries (held : Held nChunks chunkSize lent chain free) {head : Nat} (live : head ∈ lent.live)
    {bytes : List UInt8} (sized : (chain head).length = getChunkNum chunkSize bytes.length) :
    Carries lent.pool head (chain head) bytes := by
  obtain ⟨total, size, stored⟩ := held
  have blocks := stored.blocks head live
  have short := stored.block_length_le live
  obtain ⟨data, ran, outside, reads⟩ := exec_splitLoop bytes blocks short
  have fits : bytes.length ≤ (chain head).length * lent.pool.chunkSize := by
    rw [sized, ← size]
    exact getChunkNum_fits stored.positive
  refine ⟨fun dataLen small => by simp [merge, small], data, by simpa [split] using ran, outside,
    fun cell area => splitLoop_areas ran area, fun dataLen => ?_⟩
  have merged := exec_mergeLoop bytes.length
    (show Chain { lent.pool with data := data }.next (some head) (chain head) none from blocks) short
  rw [reads fits] at merged
  by_cases small : dataLen < bytes.length
  · simp [merge, small]
  · simp [merge, small, merged]

/-- In every state that is reached all chunks are in the free list or in one live chain, and
live chains carry the data they are long enough for. -/
theorem chunk_chains_conserved (positive : 1 ≤ chunkSize) (reached : LentBy nChunks chunkSize lent) :
    (∃ chain free, Conserved nChunks chunkSize lent chain free ∧
      ∀ head ∈ lent.live, ∀ bytes : List UInt8, 1 ≤ bytes.length →
        (chain head).length = getChunkNum lent.pool.chunkSize bytes.length → Carries lent.pool head (chain head) bytes) ∧
      (∀ chunkNum, 1 ≤ chunkNum → Grants lent.pool chunkNum) ∧
      ∀ call : Call, call.Allowed lent → ∃ after, call.step lent = some after := by
  obtain ⟨chain, free, held⟩ := LentBy.held positive reached
  refine ⟨⟨chain, free, held.conserved, fun head live bytes _ sized => held.carries live (held.2.1 ▸ sized)⟩,
    fun chunkNum asked => held.grants asked, fun call allowed => ?_⟩
  obtain ⟨after, _, _, stepped, _⟩ := held.step allowed
  exact ⟨after, stepped⟩

/-- Three chunks of two bytes, of which two carry three bytes. -/
theorem chunk_chains_conserved_three : ∃ lent, LentBy 3 2 lent ∧ lent.live = [1] ∧
    Carries lent.pool 1 [1, 2] [7, 8, 9] ∧ Grants lent.pool 2 := by
  obtain ⟨pool, after, opened, stepped, cells⟩ : ∃ pool after,
      Prog.exec (openPool true 3 2) ⟨0, 0, 0, none, fun _ => none, fun _ => [0, 0]⟩ = some (0, pool) ∧
      (Call.malloc 2).step ⟨pool, []⟩ = some ⟨after, [1]⟩ ∧ Chain after.next (some 1) [1, 2] none :=
    ⟨_, _, rfl, rfl, rfl, rfl, rfl⟩
  have begun : LentBy 3 2 ⟨pool, []⟩ := .start ⟨⟨_, opened⟩, rfl⟩
  have reached : LentBy 3 2 ⟨after, [1]⟩ := .step begun (show (Call.malloc 2).Allowed _ from Nat.le_succ 1) stepped
  obtain ⟨⟨chain, free, conserved, carries⟩, grants, _⟩ := chunk_chains_conserved (Nat.le_succ 1) reached
  have live : 1 ∈ [1] := List.mem_singleton.mpr rfl
  have same : chain 1 = [1, 2] := (conserved.liveChain 1 live).unique cells
  have carried := carries 1 live [7, 8, 9] (by decide) (by rw [same, conserved.size]; rfl)
  rw [same] at carried
  exact ⟨⟨after, [1]⟩, reached, rfl, carried, grants 2 (by decide)⟩

end TeenpattiUserServer.Shm.ChunkAllocator
