import Mathlib.Data.List.Basic
import Mathlib.Data.List.Range
import Mathlib.Logic.Function.Basic
import TeenpattiUserServer.Intrusive.Chain
import TeenpattiUserServer.Shm.ChunkAlloc

/-! What each chunk operation does to the chains: one statement for each loop of
the allocator, over arbitrary lists of chunk nodes. -/

namespace TeenpattiUserServer.Shm.ChunkAllocator

open Store Intrusive

variable {pool : ChunkPool} {head : Handler} {free taken rest got cells : List Nat}

theorem exec_mallocLoop (freeChain : Chain pool.next pool.freeList (taken ++ rest) none)
    (gotChain : Chain pool.next head got none) (apart : ∀ node ∈ taken, node ∉ got) :
    ∃ next, Prog.exec (mallocLoop taken.length head) pool =
        some ((taken.reverse ++ got).head?, { pool with freeList := rest.head?, next := next }) ∧
      Chain next (taken.reverse ++ got).head? (taken.reverse ++ got) none ∧
      ∀ node, node ∉ taken → next node = pool.next node := by
  induction taken generalizing pool head got with
  | nil =>
    have atFree : pool.freeList = rest.head? := freeChain.head
    have atGot : head = got.head? := gotChain.head
    refine ⟨pool.next, ?_, by simpa [← atGot] using gotChain, fun _ _ => rfl⟩
    simp [mallocLoop, ← atFree, atGot]
  | cons node taken ih =>
    have unique := List.nodup_cons.mp freeChain.nodup
    obtain ⟨atHead, tail⟩ := freeChain
    have fresh : node ∉ got := apart node (by simp)
    let moved : ChunkPool :=
      { pool with freeList := pool.next node, next := Function.update pool.next node head }
    have movedFree : Chain moved.next moved.freeList (taken ++ rest) none := tail.update unique.1 head
    have movedGot : Chain moved.next (some node) (node :: got) none :=
      ⟨rfl, by simpa [moved] using gotChain.update fresh head⟩
    have movedApart : ∀ later ∈ taken, later ∉ node :: got := by
      intro later member
      have different : later ≠ node := by
        rintro rfl
        exact unique.1 (List.mem_append_left _ member)
      simp [different, apart later (List.mem_cons_of_mem _ member)]
    obtain ⟨next, ran, chain, outside⟩ := ih movedFree movedGot movedApart
    refine ⟨next, ?_, by simpa using chain, ?_⟩
    · simpa [mallocLoop, freeListRemove, atHead, setNext, moved] using ran
    · intro other absent
      simp only [List.mem_cons, not_or] at absent
      rw [outside other absent.2]
      exact Function.update_of_ne absent.1 _ _

/-- With enough free chunks `malloc` hands out the front of the free list, reversed. -/
theorem exec_malloc (freeChain : Chain pool.next pool.freeList (taken ++ rest) none)
    (enough : (taken.length : Int) ≤ pool.freeTotal) :
    ∃ next, Prog.exec (malloc taken.length) pool =
        some (taken.reverse.head?, { pool with
          freeTotal := pool.freeTotal - taken.length, freeList := rest.head?, next := next }) ∧
      Chain next taken.reverse.head? taken.reverse none ∧
      ∀ node, node ∉ taken → next node = pool.next node := by
  obtain ⟨next, ran, chain, outside⟩ :=
    exec_mallocLoop freeChain (show Chain pool.next none [] none from rfl) (by simp)
  simp only [List.append_nil] at ran chain
  refine ⟨next, ?_, chain, outside⟩
  have sufficient : ¬ pool.freeTotal < (taken.length : Int) := by omega
  simp only [malloc, Prog.exec_bind, Prog.exec_read, Option.bind_some, Prog.exec_ite, sufficient,
    ite_false, ran, Prog.exec_write, Prog.exec_pure]

theorem exec_malloc_lack {count : Nat} (lack : pool.freeTotal < count) :
    Prog.exec (malloc count) pool = some (none, pool) := by
  simp [malloc, lack]

theorem exec_malloc_zero : Prog.exec (malloc 0) pool = some (none, pool) := by
  simp [malloc, mallocLoop]

theorem exec_freeLoop {fuel : Nat} (chain : Chain pool.next head cells none)
    (freeChain : Chain pool.next pool.freeList free none) (apart : ∀ node ∈ cells, node ∉ free)
    (enough : cells.length ≤ fuel) :
    ∃ next, Prog.exec (freeLoop fuel head) pool =
        some ((), { pool with
          freeTotal := pool.freeTotal + cells.length, freeList := (cells.reverse ++ free).head?, next := next }) ∧
      Chain next (cells.reverse ++ free).head? (cells.reverse ++ free) none ∧
      ∀ node, node ∉ cells → next node = pool.next node := by
  induction cells generalizing pool head free fuel with
  | nil =>
    have atEnd : head = none := chain
    subst head
    have atFree : pool.freeList = free.head? := freeChain.head
    refine ⟨pool.next, ?_, by simpa [← atFree] using freeChain, fun _ _ => rfl⟩
    cases fuel <;> simp [freeLoop, ← atFree]
  | cons node cells ih =>
    have unique := List.nodup_cons.mp chain.nodup
    obtain ⟨atHead, tail⟩ := chain
    subst head
    cases fuel with
    | zero => simp at enough
    | succ fuel =>
      have fresh : node ∉ free := apart node (by simp)
      let moved : ChunkPool := { pool with
        freeTotal := pool.freeTotal + 1, freeList := some node
        next := Function.update pool.next node pool.freeList }
      have movedChain : Chain moved.next (pool.next node) cells none := tail.update unique.1 _
      have movedFree : Chain moved.next moved.freeList (node :: free) none :=
        ⟨rfl, by simpa [moved] using freeChain.update fresh pool.freeList⟩
      have movedApart : ∀ later ∈ cells, later ∉ node :: free := by
        intro later member
        have different : later ≠ node := by
          rintro rfl
          exact unique.1 member
        simp [different, apart later (List.mem_cons_of_mem _ member)]
      obtain ⟨next, ran, joined, outside⟩ :=
        ih movedChain movedFree movedApart (by simpa using enough)
      refine ⟨next, ?_, by simpa using joined, ?_⟩
      · simp only [freeLoop, freeListInsert, setNext, Prog.exec_bind, Prog.exec_read, Option.bind_some,
          Prog.exec_write]
        rw [ran]
        simp [moved]
        omega
      · intro other absent
        simp only [List.mem_cons, not_or] at absent
        rw [outside other absent.2]
        exact Function.update_of_ne absent.1 _ _

/-- What `merge` reads from a chain that holds `len` bytes. -/
def payload (size : Nat) (data : Nat → List UInt8) : List Nat → Nat → List UInt8
  | [], _ => []
  | node :: rest, len =>
    if len < size then (data node).take len
    else (data node).take size ++ payload size data rest (len - size)

theorem payload_congr {size : Nat} {data other : Nat → List UInt8} {len : Nat}
    (same : ∀ node ∈ cells, other node = data node) :
    payload size other cells len = payload size data cells len := by
  induction cells generalizing len with
  | nil => rfl
  | cons node rest ih =>
    simp only [payload, same node (by simp), ih (fun later member => same later (by simp [member]))]

theorem exec_mergeLoop {fuel : Nat} (len : Nat) (chain : Chain pool.next head cells none)
    (enough : cells.length ≤ fuel) :
    Prog.exec (mergeLoop fuel head len) pool = some (payload pool.chunkSize pool.data cells len, pool) := by
  induction cells generalizing head fuel len with
  | nil =>
    have atEnd : head = none := chain
    subst head
    cases fuel <;> simp [mergeLoop, payload]
  | cons node rest ih =>
    obtain ⟨atHead, tail⟩ := chain
    subst head
    cases fuel with
    | zero => simp at enough
    | succ fuel =>
      have shorter : rest.length ≤ fuel := by simpa using enough
      have tailRun := ih (len - pool.chunkSize) tail shorter
      by_cases short : len < pool.chunkSize <;> simp [mergeLoop, payload, short, tailRun]

theorem exec_splitLoop {fuel : Nat} (bytes : List UInt8) (chain : Chain pool.next head cells none)
    (enough : cells.length ≤ fuel) :
    ∃ data, Prog.exec (splitLoop fuel head bytes) pool = some ((), { pool with data := data }) ∧
      (∀ node, node ∉ cells → data node = pool.data node) ∧
      (bytes.length ≤ cells.length * pool.chunkSize →
        payload pool.chunkSize data cells bytes.length = bytes) := by
  induction cells generalizing pool head fuel bytes with
  | nil =>
    have atEnd : head = none := chain
    subst head
    refine ⟨pool.data, by cases fuel <;> simp [splitLoop], fun _ _ => rfl, ?_⟩
    intro fits
    have empty : bytes = [] := by simpa using fits
    simp [payload, empty]
  | cons node rest ih =>
    have unique := List.nodup_cons.mp chain.nodup
    obtain ⟨atHead, tail⟩ := chain
    subst head
    cases fuel with
    | zero => simp at enough
    | succ fuel =>
      by_cases short : bytes.length < pool.chunkSize
      · refine ⟨Function.update pool.data node (memcpy (pool.data node) bytes), ?_, ?_, ?_⟩
        · simp [splitLoop, setData, short]
        · intro other absent
          simp only [List.mem_cons, not_or] at absent
          exact Function.update_of_ne absent.1 _ _
        · intro _
          simp [payload, short, memcpy]
      · let first := bytes.take pool.chunkSize
        let written : ChunkPool := { pool with data := Function.update pool.data node (memcpy (pool.data node) first) }
        have shorter : rest.length ≤ fuel := by simpa using enough
        have firstLength : first.length = pool.chunkSize := by simp [first]; omega
        obtain ⟨data, ran, outside, reads⟩ :=
          ih (bytes.drop pool.chunkSize) (show Chain written.next (pool.next node) rest none from tail) shorter
        refine ⟨data, ?_, ?_, ?_⟩
        · simpa [splitLoop, setData, short] using ran
        · intro other absent
          simp only [List.mem_cons, not_or] at absent
          rw [outside other absent.2]
          exact Function.update_of_ne absent.1 _ _
        · intro fits
          have remaining := reads (by simp only [List.length_drop, List.length_cons] at fits ⊢; grind)
          have kept : data node = memcpy (pool.data node) first := by
            rw [outside node unique.1]
            exact Function.update_self ..
          have front : (data node).take pool.chunkSize = first := by
            rw [kept, memcpy, ← firstLength, List.take_left]
          rw [List.length_drop] at remaining
          change payload pool.chunkSize data rest _ = _ at remaining
          simp [payload, short, front, remaining, first]

theorem memcpy_length {area bytes : List UInt8} (fits : bytes.length ≤ area.length) :
    (memcpy area bytes).length = area.length := by
  rw [memcpy, List.length_append, List.length_drop]
  omega

private theorem area_written {part : List UInt8} {node cell : Nat} (fits : part.length ≤ pool.chunkSize)
    (area : (pool.data cell).length = pool.chunkSize) :
    (Function.update pool.data node (memcpy (pool.data node) part) cell).length = pool.chunkSize := by
  by_cases here : cell = node
  · subst node
    rw [Function.update_self, memcpy_length (area ▸ fits), area]
  · rw [Function.update_of_ne here, area]

/-- `split` writes no further than the data areas go. -/
theorem splitLoop_areas {fuel : Nat} {bytes : List UInt8} {after : ChunkPool}
    (ran : Prog.exec (splitLoop fuel head bytes) pool = some ((), after)) {cell : Nat}
    (area : (pool.data cell).length = pool.chunkSize) : (after.data cell).length = pool.chunkSize := by
  induction fuel generalizing pool head bytes with
  | zero =>
    cases head with
    | none =>
      obtain rfl : pool = after := by simpa [splitLoop] using ran
      exact area
    | some node => cases ran
  | succ fuel ih =>
    cases head with
    | none =>
      obtain rfl : pool = after := by simpa [splitLoop] using ran
      exact area
    | some node =>
      by_cases short : bytes.length < pool.chunkSize
      · have only : { pool with data := Function.update pool.data node (memcpy (pool.data node) bytes) } = after := by
          simpa [splitLoop, setData, short] using ran
        rw [← only]
        exact area_written (Nat.le_of_lt short) area
      · let first := bytes.take pool.chunkSize
        let written :=
          { pool with data := Function.update pool.data node (memcpy (pool.data node) first) }
        have later : Prog.exec (splitLoop fuel (pool.next node) (bytes.drop pool.chunkSize)) written =
            some ((), after) := by
          simpa [splitLoop, setData, short] using ran
        have kept : (after.data cell).length = written.chunkSize :=
          ih later (area_written (List.length_take_le ..) area)
        exact kept

theorem getChunkNum_fits {size len : Nat} (positive : 0 < size) : len ≤ getChunkNum size len * size := by
  have division := Nat.div_add_mod' len size
  have bound := Nat.mod_lt len positive
  unfold getChunkNum
  split
  · rw [Nat.add_mul, Nat.one_mul]
    omega
  · omega

theorem getChunkNum_pos {size len : Nat} (positive : 0 < size) (nonempty : 0 < len) :
    0 < getChunkNum size len := by
  by_contra none
  have fits : len ≤ getChunkNum size len * size := getChunkNum_fits positive
  simp [Nat.eq_zero_of_not_pos none] at fits
  omega

@[simp] theorem getChunkNum_zero {size : Nat} : getChunkNum size 0 = 0 := by simp [getChunkNum]

theorem exec_countLoop {S : Type} {next : Nat → Handler} {fuel : Nat} (store : S)
    (chain : Chain next head cells none) (enough : cells.length ≤ fuel) :
    Prog.exec (countLoop next fuel head : Prog S Int) store = some ((cells.length : Int), store) := by
  induction cells generalizing head fuel with
  | nil =>
    have atEnd : head = none := chain
    subst head
    cases fuel <;> rfl
  | cons node rest ih =>
    obtain ⟨atHead, tail⟩ := chain
    subst head
    cases fuel with
    | zero => simp at enough
    | succ fuel => simp [countLoop, ih tail (by simpa using enough)]

/-- The initial free list names the chunks from the last to the first. -/
theorem exec_initPoolData (pool : ChunkPool) (nChunks size : Nat) :
    ∃ next, Prog.exec (initPoolData nChunks size) pool =
        some ((), ⟨nChunks, size, nChunks, (List.range nChunks).reverse.head?, next, pool.data⟩) ∧
      Chain next (List.range nChunks).reverse.head? (List.range nChunks).reverse none := by
  let holds (i : Nat) (current : ChunkPool) : Prop :=
    ∃ next, current = { pool with freeList := (List.range i).reverse.head?, next := next } ∧
      Chain next (List.range i).reverse.head? (List.range i).reverse none
  obtain ⟨final, ran, next, rfl, chain⟩ :=
    Prog.exec_upto (fun i => do setNext i fun _ => none; freeListInsert i) holds nChunks
      (show holds 0 { pool with freeList := none } from ⟨pool.next, rfl, rfl⟩) (by
        rintro i bound current ⟨next, rfl, chain⟩
        have fresh : i ∉ (List.range i).reverse := by simp
        let added := Function.update (Function.update next i none) i (List.range i).reverse.head?
        have linked : Chain added (some i) (i :: (List.range i).reverse) none :=
          ⟨rfl, by simpa [added] using chain.update fresh _⟩
        rw [show i :: (List.range i).reverse = (List.range (i + 1)).reverse by simp [List.range_succ]] at linked
        refine ⟨_, rfl, added, ?_, linked.head ▸ linked⟩
        rw [← linked.head])
  exact ⟨next, by simp [initPoolData, ran], chain⟩

end TeenpattiUserServer.Shm.ChunkAllocator
