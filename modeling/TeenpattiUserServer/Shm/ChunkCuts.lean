import Mathlib.Data.List.Basic
import Mathlib.Logic.Function.Basic
import TeenpattiUserServer.Shm.ChunkChains
import TeenpattiUserServer.Store.Interrupted

/-! The writes of the chunk allocator, one by one. The free list stays a list
after each of them; between the write of its head and the write of its counter
the two disagree. -/

namespace TeenpattiUserServer.Shm.ChunkAllocator

open Store Intrusive

variable {pool : ChunkPool} {good : ChunkPool → Prop} {bad : Nat → Prop} {head : Handler} {node count : Nat}
  {free taken rest cells : List Nat}

theorem silent_countLoop {S : Type} (next : Nat → Handler) (fuel : Nat) (head : Handler) :
    Prog.Silent (countLoop next fuel head : Prog S Int) := by
  induction fuel generalizing head with
  | zero => cases head <;> first | exact .pure _ | exact .fault
  | succ fuel ih =>
    cases head with
    | none => exact .pure _
    | some node => exact (ih (next node)).bind fun _ => .pure _

theorem silent_mergeLoop (fuel : Nat) (head : Handler) (remainLen : Nat) :
    Prog.Silent (mergeLoop fuel head remainLen) := by
  induction fuel generalizing head remainLen with
  | zero => cases head <;> first | exact .pure _ | exact .fault
  | succ fuel ih =>
    cases head with
    | none => exact .pure _
    | some node =>
      refine (Prog.Silent.read _).bind fun size => (Prog.Silent.read _).bind fun area => ?_
      exact .ite (.pure _) ((Prog.Silent.read _).bind fun next => (ih next _).bind fun _ => .pure _)

/-- The free list of `chunks` in a pool with the parameters of `pool`. -/
structure Listed (pool chunks : ChunkPool) (free : List Nat) : Prop where
  chain : Chain chunks.next chunks.freeList free none
  fits : free.length ≤ pool.chunkTotal
  chunkTotal : chunks.chunkTotal = pool.chunkTotal
  chunkSize : chunks.chunkSize = pool.chunkSize

private theorem freeListRemove_cuts (atHead : pool.freeList = some node)
    (moved : good { pool with freeList := pool.next node } ↔ ¬ bad 1)
    (cleared : good { pool with freeList := pool.next node, next := Function.update pool.next node none } ↔ ¬ bad 2) :
    Prog.Cuts good bad freeListRemove pool 2 := by
  refine .skipThen rfl ?_
  simp only [atHead]
  exact .stepThen rfl moved (.stepThen rfl cleared .pure)

private theorem exec_freeListRemove (atHead : pool.freeList = some node) :
    Prog.exec freeListRemove pool = some (some node,
      { pool with freeList := pool.next node, next := Function.update pool.next node none }) := by
  simp [freeListRemove, atHead, setNext]

/-- While chunks are taken, the counter is ahead of the free list. -/
theorem mallocLoop_cuts (listed : Listed pool pool (taken ++ rest))
    (enough : ((taken ++ rest).length : Int) ≤ pool.freeTotal)
    (noticed : ∀ chunks free, Listed pool chunks free → chunks.freeTotal ≠ free.length → good chunks)
    (quiet : ∀ k, 0 < k → k ≤ 3 * taken.length → ¬ bad k) :
    Prog.Cuts good bad (mallocLoop taken.length head) pool (3 * taken.length) := by
  induction taken generalizing pool head bad with
  | nil => exact .pure
  | cons node taken ih =>
    have fits := listed.fits
    obtain ⟨atHead, tail⟩ := listed.chain
    have fresh : node ∉ taken ++ rest := (List.nodup_cons.mp listed.chain.nodup).1
    simp only [List.cons_append, List.length_cons] at enough fits quiet
    have short (next : Nat → Handler) (chain : Chain next (pool.next node) (taken ++ rest) none) :
        good { pool with freeList := pool.next node, next := next } := by
      refine noticed _ (taken ++ rest) ⟨chain, by omega, rfl, rfl⟩ ?_
      change pool.freeTotal ≠ _
      omega
    have removed : Prog.Cuts good bad freeListRemove pool 2 := freeListRemove_cuts atHead
      (iff_of_true (short _ tail) (quiet 1 (by omega) (by omega)))
      (iff_of_true (short _ (tail.update fresh none)) (quiet 2 (by omega) (by omega)))
    have pushed := iff_of_true (short _ ((tail.update fresh none).update fresh head))
      (quiet 3 (by omega) (by omega))
    let moved : ChunkPool := { pool with
      freeList := pool.next node, next := Function.update (Function.update pool.next node none) node head }
    have later : Prog.Cuts good (fun k => bad (2 + (k + 1))) (mallocLoop taken.length (some node)) moved
        (3 * taken.length) :=
      ih ⟨(tail.update fresh none).update fresh head, by change _ ≤ pool.chunkTotal; omega, rfl, rfl⟩
        (by change _ ≤ pool.freeTotal; omega)
        (fun chunks free other => noticed chunks free ⟨other.chain, other.fits, other.chunkTotal, other.chunkSize⟩)
        (fun k positive bound => quiet _ (by omega) (by omega))
    refine (removed.bind (exec_freeListRemove atHead) (.stepThen rfl pushed later)).recount ?_
    simp only [List.length_cons]
    omega

/-- `malloc` is noticed until it has written the counter. -/
theorem malloc_cuts (listed : Listed pool pool (taken ++ rest))
    (enough : ((taken ++ rest).length : Int) ≤ pool.freeTotal)
    (noticed : ∀ chunks free, Listed pool chunks free → chunks.freeTotal ≠ free.length → good chunks)
    (quiet : ∀ k, 0 < k → k ≤ 3 * taken.length → ¬ bad k) {final : ChunkPool}
    (ran : Prog.exec (malloc taken.length) pool = some (head, final)) (last : good final ↔ ¬ bad (3 * taken.length + 1)) :
    Prog.Cuts good bad (malloc taken.length) pool (3 * taken.length + 1) := by
  have granted : ¬ pool.freeTotal < (taken.length : Int) := by
    rw [List.length_append] at enough
    omega
  have looped : Prog.Cuts good bad (mallocLoop taken.length none) pool (3 * taken.length) :=
    mallocLoop_cuts listed enough noticed quiet
  obtain ⟨value, middle, ended⟩ := looped.ends
  obtain ⟨rfl, rfl⟩ : value = head ∧ { middle with freeTotal := middle.freeTotal - taken.length } = final := by
    simpa [malloc, granted, ended] using ran
  refine .skipThen rfl ?_
  rw [if_neg granted]
  exact looped.bind ended (.stepThen rfl last .pure)

theorem getChunkNum_step {size len : Nat} (positive : 0 < size) (long : size ≤ len) :
    getChunkNum size len = getChunkNum size (len - size) + 1 := by
  have quotient := Nat.div_eq_sub_div positive long
  have remainder := Nat.mod_eq_sub_mod long
  simp only [getChunkNum, quotient, remainder]
  split <;> omega

theorem getChunkNum_short {size len : Nat} (short : len < size) : getChunkNum size len ≤ 1 := by
  unfold getChunkNum
  rw [Nat.div_eq_of_lt short]
  split <;> omega

/-- `split` writes each chunk of a block of the right length once. -/
theorem splitLoop_cuts {fuel : Nat} {bytes : List UInt8} (positive : 0 < pool.chunkSize)
    (chain : Chain pool.next head cells none) (enough : cells.length ≤ fuel)
    (sized : cells.length = getChunkNum pool.chunkSize bytes.length)
    (judged : ∀ data k, 0 < k → k ≤ cells.length → (good { pool with data := data } ↔ ¬ bad k)) :
    Prog.Cuts good bad (splitLoop fuel head bytes) pool cells.length := by
  induction cells generalizing pool head fuel bytes bad with
  | nil =>
    have atEnd : head = none := chain
    subst head
    cases fuel <;> exact .pure
  | cons node rest ih =>
    obtain ⟨rfl, tail⟩ := chain
    cases fuel with
    | zero => simp at enough
    | succ fuel =>
      have here (bytes : List UInt8) := judged (Function.update pool.data node (memcpy (pool.data node) bytes)) 1
        (by omega) (by simp only [List.length_cons]; omega)
      refine .skipThen rfl ?_
      by_cases short : bytes.length < pool.chunkSize
      · have one := getChunkNum_short short
        have alone : rest.length = 0 := by
          simp only [List.length_cons] at sized
          omega
        obtain rfl : rest = [] := List.length_eq_zero_iff.mp alone
        rw [if_pos short]
        exact .step rfl (here bytes)
      · rw [getChunkNum_step positive (not_lt.mp short)] at sized
        simp only [List.length_cons] at sized enough judged
        let first := bytes.take pool.chunkSize
        let written : ChunkPool := { pool with data := Function.update pool.data node (memcpy (pool.data node) first) }
        have later : Prog.Cuts good (fun k => bad (k + 1))
            (splitLoop fuel (pool.next node) (bytes.drop pool.chunkSize)) written rest.length :=
          ih (show 0 < written.chunkSize from positive) (show Chain written.next (pool.next node) rest none from tail)
            (show rest.length ≤ fuel by omega) (by rw [List.length_drop]; exact Nat.succ.inj sized)
            (fun data k _ bound => judged data (k + 1) (by omega) (by omega))
        rw [if_neg short]
        exact .stepThen rfl (here first) (.skipThen rfl later)

theorem split_cuts {bytes : List UInt8} (positive : 0 < pool.chunkSize) (chain : Chain pool.next head cells none)
    (enough : cells.length ≤ pool.chunkTotal) (sized : cells.length = getChunkNum pool.chunkSize bytes.length)
    (judged : ∀ data k, 0 < k → k ≤ cells.length → (good { pool with data := data } ↔ ¬ bad k)) :
    Prog.Cuts good bad (split head bytes) pool cells.length :=
  .skipThen rfl (splitLoop_cuts positive chain enough sized judged)

/-- `malloc` and `split` for a new block, in a surrounding that hides the chunks. -/
theorem allocate_cuts {bytes : List UInt8} (listed : Listed pool pool free) (counted : pool.freeTotal = free.length)
    (positive : 0 < pool.chunkSize) (needed : count = getChunkNum pool.chunkSize bytes.length) (nonempty : bytes ≠ [])
    (enough : count ≤ free.length) :
    ∃ headChunk middle after, Prog.exec (malloc count) pool = some (some headChunk, middle) ∧
      Prog.exec (split (some headChunk) bytes) middle = some ((), after) ∧
      ∀ {good : ChunkPool → Prop}, (∀ chunks, good chunks) → ∀ {bad : Nat → Prop},
        ((∀ k, 0 < k → k ≤ 3 * count + 1 → ¬ bad k) → Prog.Cuts good bad (malloc count) pool (3 * count + 1)) ∧
        ((∀ k, 0 < k → k ≤ count → ¬ bad k) → Prog.Cuts good bad (split (some headChunk) bytes) middle count) := by
  obtain ⟨taken, later, rfl, rfl⟩ : ∃ taken later, free = taken ++ later ∧ taken.length = count :=
    ⟨free.take count, free.drop count, (List.take_append_drop count free).symm, by simp [enough]⟩
  have fits := listed.fits
  rw [List.length_append] at fits counted
  obtain ⟨next, got, linked, _⟩ := exec_malloc listed.chain (by omega)
  have occupied : 0 < taken.length := by
    rw [needed]
    exact getChunkNum_pos positive (List.length_pos_iff.mpr nonempty)
  obtain ⟨headChunk, atFront⟩ : ∃ headChunk, taken.reverse.head? = some headChunk := by
    rw [← Option.isSome_iff_exists, List.isSome_head?, ← List.length_pos_iff, List.length_reverse]
    exact occupied
  rw [atFront] at got linked
  let middle : ChunkPool := { pool with
    freeTotal := pool.freeTotal - taken.length, freeList := later.head?, next := next }
  have chain : Chain middle.next (some headChunk) taken.reverse none := linked
  have length : taken.reverse.length = taken.length := List.length_reverse
  obtain ⟨data, wrote, _⟩ := exec_splitLoop bytes chain (show taken.reverse.length ≤ pool.chunkTotal by omega)
  refine ⟨headChunk, middle, { middle with data := data }, got, by simpa [split, middle] using wrote, ?_⟩
  intro good fine bad
  refine ⟨fun quiet => ?_, fun quiet => ?_⟩
  · exact malloc_cuts listed (by rw [List.length_append]; omega)
      (fun chunks _ _ _ => fine chunks) (fun k low high => quiet k low (by omega)) got
      (iff_of_true (fine _) (quiet _ (by omega) (by omega)))
  · rw [← length]
    exact split_cuts positive chain (show taken.reverse.length ≤ pool.chunkTotal by omega) (length.trans needed)
      fun data k low high => iff_of_true (fine _) (quiet k low (by omega))

/-- The chunks behind the first one of a block are freed: the counter is behind the
free list after every second write, and the first one stays in both. -/
theorem freeLoop_cuts {fuel : Nat} {first : Nat} (listed : Listed pool pool free)
    (counted : pool.freeTotal = free.length) (chain : Chain pool.next head cells none)
    (apart : ∀ node ∈ cells, node ∉ free) (room : cells.length + free.length ≤ pool.chunkTotal)
    (enough : cells.length ≤ fuel) (shared : first ∈ free)
    (noticed : ∀ chunks free, Listed pool chunks free → chunks.freeTotal ≠ free.length → good chunks)
    (missed : ∀ chunks free, Listed pool chunks free → chunks.freeTotal = free.length → first ∈ free → ¬ good chunks)
    (judged : ∀ k, 0 < k → k ≤ 3 * cells.length → (bad k ↔ k % 3 ≠ 2)) :
    Prog.Cuts good bad (freeLoop fuel head) pool (3 * cells.length) := by
  induction cells generalizing pool head free fuel bad with
  | nil =>
    have atEnd : head = none := chain
    subst head
    cases fuel <;> exact .pure
  | cons node cells ih =>
    have unique := List.nodup_cons.mp chain.nodup
    obtain ⟨rfl, tail⟩ := chain
    cases fuel with
    | zero => simp at enough
    | succ fuel =>
      have fresh : node ∉ free := apart node (by simp)
      simp only [List.length_cons] at room enough judged
      let moved : ChunkPool := { pool with
        freeTotal := pool.freeTotal + 1, freeList := some node
        next := Function.update pool.next node pool.freeList }
      have kept : Chain moved.next pool.freeList free none := listed.chain.update fresh pool.freeList
      have joined : Chain moved.next (some node) (node :: free) none := ⟨rfl, by simpa [moved] using kept⟩
      have longer : (node :: free).length ≤ pool.chunkTotal := by simp only [List.length_cons]; omega
      have ahead : pool.freeTotal ≠ (node :: free).length := by simp only [List.length_cons]; omega
      have balanced : pool.freeTotal + 1 = (node :: free).length := by simp only [List.length_cons]; omega
      have movedApart : ∀ later ∈ cells, later ∉ node :: free := by
        intro later member
        have different : later ≠ node := by
          rintro rfl
          exact unique.1 member
        simp [different, apart later (List.mem_cons_of_mem _ member)]
      have later : Prog.Cuts good (fun k => bad (2 + (k + 1))) (freeLoop fuel (pool.next node)) moved
          (3 * cells.length) :=
        ih ⟨joined, longer, rfl, rfl⟩ balanced (tail.update unique.1 _) movedApart
          (by change _ ≤ pool.chunkTotal; simp only [List.length_cons]; omega) (by omega)
          (List.mem_cons_of_mem _ shared)
          (fun chunks free other => noticed chunks free ⟨other.chain, other.fits, other.chunkTotal, other.chunkSize⟩)
          (fun chunks free other => missed chunks free ⟨other.chain, other.fits, other.chunkTotal, other.chunkSize⟩)
          (fun k _ bound => by rw [judged _ (by omega) (by omega)]; omega)
      have linked := missed { pool with next := moved.next } free ⟨kept, listed.fits, rfl, rfl⟩ counted shared
      have entered := noticed { pool with next := moved.next, freeList := some node } _ ⟨joined, longer, rfl, rfl⟩ ahead
      have settled := missed moved _ ⟨joined, longer, rfl, rfl⟩ balanced (List.mem_cons_of_mem _ shared)
      have first : bad 1 := (judged 1 (by omega) (by omega)).mpr (by omega)
      have second : ¬ bad 2 := fun wrong => (judged 2 (by omega) (by omega)).mp wrong rfl
      have third : bad 3 := (judged 3 (by omega) (by omega)).mpr (by omega)
      have inserted : Prog.Cuts good bad (freeListInsert node) pool 2 :=
        .stepThen rfl (iff_of_false linked (not_not.mpr first)) (.step rfl (iff_of_true entered second))
      have ran : Prog.exec (freeListInsert node) pool =
          some ((), { pool with next := moved.next, freeList := some node }) := rfl
      refine .skipThen rfl (.recount (inserted.bind ran (.stepThen rfl ?_ later)) ?_)
      · exact iff_of_false settled (not_not.mpr third)
      · simp only [List.length_cons]
        omega

end TeenpattiUserServer.Shm.ChunkAllocator
