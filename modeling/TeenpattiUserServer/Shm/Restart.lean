import Mathlib.Data.List.Perm.Basic
import TeenpattiUserServer.Shm.Uses

/-! Attaching to a segment that already exists. Any run of the table leaves a
laid out pool, so both verifications accept it; what `Init` then does depends on
the local variable that it passes on without having assigned it. -/

namespace TeenpattiUserServer.Shm

open Store Intrusive HashMap

variable {Key : Type}

namespace Pool

/-- The keys in the order of their last access. -/
def recency (pool : Pool Key) : Option (List Key) :=
  (walk pool.addNext pool.nodeTotal pool.addHead).map (·.map pool.key)

structure Shaped (para : HashPara) (pool : Pool Key) : Prop where
  nodeTotal : pool.nodeTotal = para.nodeTotal
  bucketSize : pool.bucketSize = para.bucketSize
  chunkTotal : pool.chunks.chunkTotal = para.chunkTotal
  chunkSize : pool.chunks.chunkSize = para.chunkSize

theorem Shaped.trans {para : HashPara} {pool after : Pool Key} (shaped : Shaped para pool)
    (same : SameShape pool after) : Shaped para after :=
  ⟨same.1.trans shaped.1, same.2.trans shaped.2, same.3.trans shaped.3, same.4.trans shaped.4⟩

end Pool

variable [DecidableEq Key]

/-- The contents that processes can leave in the segment: created by an `Init`,
used, and attached again by later ones. -/
inductive Left (hash : Key → Nat) (para : HashPara) : Pool Key → Prop where
  | created {os : SVShm.Answers} {unassigned : Int} {memory pool : Pool Key}
      (fresh : SVShm.forceOpenAndAttach os = (0, 1))
      (ran : Prog.exec (ShmHashMap.init os unassigned para) memory = some (0, pool)) : Left hash para pool
  | used {pool after : Pool Key} {use : Use Key} (before : Left hash para pool)
      (ran : Prog.exec (use.run hash) pool = some ((), after)) : Left hash para after
  | attached {os : SVShm.Answers} {unassigned : Int} {pool after : Pool Key} (before : Left hash para pool)
      (existing : SVShm.forceOpenAndAttach os = (0, 0))
      (ran : Prog.exec (ShmHashMap.init os unassigned para) pool = some (0, after)) : Left hash para after

variable {hash : Key → Nat} {para : HashPara} {pool : Pool Key} {layout : Layout} {node : Nat}

namespace HashMap.Laid

omit [DecidableEq Key] in
theorem recency (laid : Laid hash pool layout) : pool.recency = some (layout.recent.map pool.key) := by
  have walked := laid.adds.forward.walk_eq laid.recent_length_le
  rw [Pool.recency]
  exact congrArg (Option.map _) walked

theorem lookup_empty (laid : Laid hash pool layout) (empty : layout.recent = []) (key : Key) :
    pool.lookup hash key = none := by
  have none : layout.chain (getBucketId hash pool key) = [] := by
    refine List.eq_nil_iff_forall_not_mem.mpr fun node member => ?_
    have used := laid.buckets.hung_of_mem (laid.buckets.bucketId_lt key) member
    simp [empty] at used
  simp [Pool.lookup, laid.walk_bucket key, none]

/-- Whatever is done with the table, it does not fault and leaves the pool laid out. -/
theorem exec_use (laid : Laid hash pool layout) (use : Use Key) :
    ∃ after, Prog.exec (use.run hash) pool = some ((), after) ∧ (∃ next, Laid hash after next) ∧
      pool.SameShape after := by
  obtain ⟨after, next, ran, laidAfter, shape, _⟩ := laid.use_effect use
  exact ⟨after, ran, ⟨next, laidAfter⟩, shape⟩

end HashMap.Laid

/-- The invariant of the segment. -/
def Sound (hash : Key → Nat) (para : HashPara) (pool : Pool Key) : Prop :=
  (∃ layout, Laid hash pool layout) ∧ pool.Shaped para

omit [DecidableEq Key] in
/-- `Init` on a segment that it just created, or on a sound one whose value of
`init` asks for it, starts an empty table. -/
theorem exec_init_fresh (buckets : 0 < para.bucketSize) (chunks : 0 < para.chunkSize)
    {os : SVShm.Answers} {tmpInit : Int} (attached : SVShm.forceOpenAndAttach os = (0, tmpInit))
    (unassigned : Int) (asked : tmpInit ≠ 0 ∨ unassigned ≠ 0) (hash : Key → Nat) (memory : Pool Key) :
    ∃ after, Prog.exec (ShmHashMap.init os unassigned para) memory = some (0, after) ∧
      Laid hash after ⟨fun _ => [], [], (List.range para.nodeTotal).reverse, fun _ => [],
        (List.range para.chunkTotal).reverse⟩ ∧ after.Shaped para := by
  obtain ⟨after, opened, laid, nodeTotal, bucketSize, chunkTotal, chunkSize⟩ :=
    exec_openPool_init hash para.nodeTotal para.chunkTotal buckets chunks memory
  refine ⟨after, ?_, laid, ⟨nodeTotal, bucketSize, chunkTotal, chunkSize⟩⟩
  have init : (if tmpInit = 0 then unassigned else tmpInit) ≠ 0 := by
    split
    · next none => exact asked.resolve_left (not_not.mpr none)
    · assumption
  simp [ShmHashMap.init, attached, init, opened]

omit [DecidableEq Key] in
theorem exec_init_existing (sound : Sound hash para pool) {os : SVShm.Answers}
    (existing : SVShm.forceOpenAndAttach os = (0, 0)) :
    Prog.exec (ShmHashMap.init os 0 para) pool = some (0, pool) := by
  obtain ⟨⟨layout, laid⟩, shaped⟩ := sound
  have verified := laid.exec_openPool_verify
  rw [shaped.nodeTotal, shaped.bucketSize, shaped.chunkTotal, shaped.chunkSize] at verified
  simp [ShmHashMap.init, existing, verified]

theorem Left.sound (buckets : 0 < para.bucketSize) (chunks : 0 < para.chunkSize) (left : Left hash para pool) :
    Sound hash para pool := by
  induction left with
  | @created os unassigned memory pool fresh ran =>
    obtain ⟨after, done, laid, shaped⟩ :=
      exec_init_fresh buckets chunks fresh unassigned (.inl (by decide)) hash memory
    obtain rfl : pool = after := by simpa [ran] using done
    exact ⟨⟨_, laid⟩, shaped⟩
  | @used pool after use _ ran ih =>
    obtain ⟨⟨layout, laid⟩, shaped⟩ := ih
    obtain ⟨final, done, laidAfter, same⟩ := laid.exec_use use
    obtain rfl : after = final := by simpa [ran] using done
    exact ⟨laidAfter, shaped.trans same⟩
  | @attached os unassigned pool after _ existing ran ih =>
    by_cases assigned : unassigned = 0
    · subst unassigned
      obtain rfl : after = pool := by simpa [ran] using exec_init_existing ih existing
      exact ih
    · obtain ⟨final, done, laid, shaped⟩ :=
        exec_init_fresh buckets chunks existing unassigned (.inr assigned) hash pool
      obtain rfl : after = final := by simpa [ran] using done
      exact ⟨⟨_, laid⟩, shaped⟩

/-- Attaching returns 0 and keeps the map, the recency order and the set of free chunks. -/
def KeepsUsers (hash : Key → Nat) (para : HashPara) (os : SVShm.Answers) (unassigned : Int)
    (pool : Pool Key) : Prop :=
  ∃ after, Prog.exec (ShmHashMap.init os unassigned para) pool = some (0, after) ∧
    (∀ key, after.lookup hash key = pool.lookup hash key) ∧ after.recency = pool.recency ∧
    ∃ before free, pool.freeChunks = some before ∧ after.freeChunks = some free ∧
      ∀ chunk, chunk ∈ free ↔ chunk ∈ before

private theorem Sound.keepsUsers_iff (sound : Sound hash para pool) (buckets : 0 < para.bucketSize)
    (chunks : 0 < para.chunkSize) {os : SVShm.Answers} (existing : SVShm.forceOpenAndAttach os = (0, 0))
    (unassigned : Int) : KeepsUsers hash para os unassigned pool ↔ unassigned = 0 ∨ pool.usedNodeNum = 0 := by
  obtain ⟨⟨layout, laid⟩, shaped⟩ := id sound
  by_cases assigned : unassigned = 0
  · subst unassigned
    refine iff_of_true ⟨pool, exec_init_existing sound existing, fun _ => rfl, rfl, ?_⟩ (.inl rfl)
    exact ⟨_, _, laid.freeChunks, laid.freeChunks, fun _ => .rfl⟩
  · obtain ⟨after, ran, laidAfter, _⟩ := exec_init_fresh buckets chunks existing unassigned (.inr assigned) hash pool
    simp only [assigned, false_or]
    constructor
    · rintro ⟨final, done, _, recency, _⟩
      obtain rfl : after = final := by simpa [ran] using done
      rw [laidAfter.recency, laid.recency] at recency
      have none : layout.recent = [] := by simpa using recency.symm
      simp [laid.buckets.counted, none]
    · intro none
      have empty : layout.recent = [] := by simpa [laid.buckets.counted] using none
      refine ⟨after, ran, fun key => ?_, ?_, _, _, laid.freeChunks, laidAfter.freeChunks, fun chunk => ?_⟩
      · rw [laidAfter.lookup_empty rfl, laid.lookup_empty empty]
      · rw [laidAfter.recency, laid.recency, empty]
        rfl
      · have cells := laid.stored.cells
        rw [empty, shaped.chunkTotal] at cells
        have everywhere := cells.mem_iff (a := chunk)
        simpa using everywhere.symm

/-- A restart keeps the users exactly when the variable that `Init` leaves
unassigned holds 0, or there are none. -/
theorem restart_keeps_users_iff (hash : Key → Nat) (para : HashPara) (buckets : 0 < para.bucketSize)
    (chunks : 0 < para.chunkSize) (pool : Pool Key) (left : Left hash para pool) (os : SVShm.Answers)
    (existing : SVShm.forceOpenAndAttach os = (0, 0)) (unassigned : Int) :
    KeepsUsers hash para os unassigned pool ↔ unassigned = 0 ∨ pool.usedNodeNum = 0 :=
  (left.sound buckets chunks).keepsUsers_iff buckets chunks existing unassigned

/-- The segment exists already: the first `shmget` fails with `EEXIST`, the second succeeds. -/
def existingSegment : SVShm.Answers := ⟨-1, true, 5, 0, 0, 0, false⟩

/-- One user stored under key 7 in a segment created for one node and one chunk. -/
theorem left_one_user : ∃ pool : Pool Nat, Left id ⟨1, 1, 1, 4⟩ pool ∧ pool.usedNodeNum = 1 := by
  let memory : Pool Nat := ⟨0, 0, 0, 0, none, none, none, fun _ => none, fun _ => 0, fun _ => 0, fun _ => none,
    fun _ => none, fun _ => none, fun _ => none, fun _ => none, ⟨0, 0, 0, none, fun _ => none, fun _ => []⟩⟩
  let para : HashPara := ⟨1, 1, 1, 4⟩
  have fresh : SVShm.forceOpenAndAttach ⟨5, false, 0, 0, 0, 0, false⟩ = (0, 1) := rfl
  have buckets : 0 < para.bucketSize := by decide
  have chunks : 0 < para.chunkSize := by decide
  obtain ⟨created, opened, laid, shaped⟩ := exec_init_fresh buckets chunks fresh 0 (.inl (by decide)) id memory
  have one : ([1] : List UInt8) ≠ [] := by decide
  obtain ⟨pool, _, _, ran, laidAfter, _⟩ := laid.insert 7 (show (List.range 1).reverse = 0 :: [] from rfl) one
    (by rw [shaped.chunkSize]; decide)
  have inserted : Prog.exec ((Use.insert 7 [1]).run id) created = some ((), pool) := by
    simp [Use.run, ShmHashMap.insert, ran]
  refine ⟨pool, .used (.created fresh opened) inserted, ?_⟩
  rw [laidAfter.buckets.counted]
  rfl

theorem restart_keeps_users_iff_one_user : ∃ pool : Pool Nat, Left id ⟨1, 1, 1, 4⟩ pool ∧
    (KeepsUsers id ⟨1, 1, 1, 4⟩ existingSegment 0 pool ↔ (0 : Int) = 0 ∨ pool.usedNodeNum = 0) := by
  obtain ⟨pool, left, _⟩ := left_one_user
  exact ⟨pool, left, restart_keeps_users_iff id ⟨1, 1, 1, 4⟩ (by decide) (by decide) pool left existingSegment rfl 0⟩

/-- With garbage in the variable, the stored user is gone after the restart. -/
theorem restart_loses_one_user : ¬ ∀ pool : Pool Nat, Left id ⟨1, 1, 1, 4⟩ pool →
    ∀ unassigned, KeepsUsers id ⟨1, 1, 1, 4⟩ existingSegment unassigned pool := by
  intro keeps
  obtain ⟨pool, left, one⟩ := left_one_user
  have sound := left.sound (by decide) (by decide)
  have attached : SVShm.forceOpenAndAttach existingSegment = (0, 0) := rfl
  have kept := (sound.keepsUsers_iff (by decide) (by decide) attached 1).mp (keeps pool left 1)
  simp [one] at kept

end TeenpattiUserServer.Shm
