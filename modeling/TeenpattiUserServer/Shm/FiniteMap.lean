import Mathlib.Data.Finset.Card
import TeenpattiUserServer.Shm.Table

/-! Every run of the table from a freshly opened pool behaves as a finite map
with a budget of nodes and chunks. -/

namespace TeenpattiUserServer.Shm

open Store HashMap ShmHashMap ChunkAllocator

variable {Key : Type} [DecidableEq Key]

/-- A call of the table's interface. -/
inductive Call (Key : Type) where
  | find (key : Key) (bufLen : Int)
  | setValue (key : Key) (data : List UInt8)
  | insert (key : Key) (data : List UInt8)
  | delete (key : Key)

namespace Call

/-- Calls other than `Find` have no buffer. -/
def run (hash : Key → Nat) : Call Key → Run Key Reply
  | find key bufLen => ShmHashMap.find hash key bufLen
  | setValue key data => do pure ⟨← ShmHashMap.setValue hash key data, 0, []⟩
  | insert key data => do pure ⟨← ShmHashMap.insert hash key data, 0, []⟩
  | delete key => do pure ⟨← ShmHashMap.delete hash key, 0, []⟩

/-- Values have at least one byte and `Insert` is called on absent keys. -/
def Allowed (stored : Key → Option (List UInt8)) : Call Key → Prop
  | find _ _ => True
  | setValue _ data => data ≠ []
  | insert key data => data ≠ [] ∧ stored key = none
  | delete _ => True

/-- The map after a call that returned `ret`. -/
def stores (ret : Int) (stored : Key → Option (List UInt8)) : Call Key → Key → Option (List UInt8)
  | find _ _ => stored
  | setValue key data => if ret = 0 then Function.update stored key (some data) else stored
  | insert key data => if ret = 0 then Function.update stored key (some data) else stored
  | delete key => if ret = 0 then Function.update stored key none else stored

/-- The call on the abstract table. -/
def next (table : Table Key) : Call Key → Reply × Table Key
  | find key bufLen => table.find key bufLen
  | setValue key data => (⟨(table.setValue key data).1, 0, []⟩, (table.setValue key data).2)
  | insert key data => (⟨(table.add key data).1, 0, []⟩, (table.add key data).2)
  | delete key => (⟨(table.delete key).1, 0, []⟩, (table.delete key).2)

end Call

/-- The pools that runs from a freshly opened pool reach, each with the map that
the calls so far should have left. -/
inductive Reached (hash : Key → Nat) (para : HashPara) : Pool Key → (Key → Option (List UInt8)) → Prop where
  | opened {memory pool : Pool Key} (ran : Prog.exec
      (openPool true para.nodeTotal para.bucketSize para.chunkTotal para.chunkSize) memory = some (0, pool)) :
      Reached hash para pool fun _ => none
  | called {pool after : Pool Key} {stored : Key → Option (List UInt8)} {call : Call Key} {reply : Reply}
      (before : Reached hash para pool stored) (allowed : call.Allowed stored)
      (ran : Prog.exec (call.run hash) pool = some (reply, after)) :
      Reached hash para after (call.stores reply.ret stored)

/-- What the table promises in one state. -/
structure ActsAsMap (hash : Key → Nat) (para : HashPara) (pool : Pool Key)
    (stored : Key → Option (List UInt8)) (nodes chunks : List Nat) : Prop where
  content : ∀ key, pool.lookup hash key = stored key
  freeNodes : pool.freeNodes = some nodes
  freeChunks : pool.freeChunks = some chunks
  find_missing : ∀ key bufLen, stored key = none →
    Prog.exec (find hash key bufLen) pool = some (⟨-1, bufLen, []⟩, pool)
  find_found : ∀ key data (bufLen : Int), stored key = some data → data.length ≤ bufLen →
    ∃ after, Prog.exec (find hash key bufLen) pool = some (⟨0, data.length, data⟩, after)
  find_short : ∀ key data (bufLen : Int), stored key = some data → bufLen < data.length →
    ∃ after, Prog.exec (find hash key bufLen) pool = some (⟨errorInvalidParam, data.length, []⟩, after)
  delete : ∀ key, ∃ ret after, Prog.exec (ShmHashMap.delete hash key) pool = some (ret, after) ∧
    (ret = 0 ↔ stored key ≠ none)
  setValue_new : ∀ key data, data ≠ [] → stored key = none →
    ∃ ret after, Prog.exec (setValue hash key data) pool = some (ret, after) ∧
      (ret = 0 ↔ 0 < nodes.length ∧ getChunkNum para.chunkSize data.length ≤ chunks.length)
  insert_new : ∀ key data, data ≠ [] → stored key = none →
    ∃ ret after, Prog.exec (insert hash key data) pool = some (ret, after) ∧
      (ret = 0 ↔ 0 < nodes.length ∧ getChunkNum para.chunkSize data.length ≤ chunks.length)
  setValue_old : ∀ key old data, data ≠ [] → stored key = some old →
    ∃ ret after, Prog.exec (setValue hash key data) pool = some (ret, after) ∧
      (ret = 0 ↔ getChunkNum para.chunkSize data.length ≤
        chunks.length + getChunkNum para.chunkSize old.length)
  failed : ∀ (call : Call Key) reply after, call.Allowed stored →
    Prog.exec (call.run hash) pool = some (reply, after) → reply.ret ≠ 0 →
      (∀ key, after.lookup hash key = pool.lookup hash key) ∧ pool.SameFree after
  counted : ∃ keys : Finset Key, (∀ key, key ∈ keys ↔ stored key ≠ none) ∧
    pool.usedNodeNum = keys.card ∧ pool.usedBucketNum = (keys.image (getBucketId hash pool)).card
  occupied : pool.usedBucketNum = (List.range para.bucketSize).countP fun b => pool.bucket b ≠ none

namespace Table

variable (table : Table Key) (key : Key) (data : List UInt8)

@[simp] theorem touch_lookup (other : Key) :
    (table.touch key).entries.lookup other = table.entries.lookup other := by
  cases found : table.entries.lookup key with
  | none => simp [touch, found]
  | some data =>
    by_cases same : other = key
    · subst other
      simp [touch, found]
    · simp [touch, found, AList.lookup_insert_ne same]

@[simp] theorem touch_chunkSize : (table.touch key).chunkSize = table.chunkSize := by
  unfold touch
  split <;> rfl

private theorem lookup_insert (entries : AList fun _ : Key => List UInt8) (other : Key) :
    (entries.insert key data).lookup other = Function.update entries.lookup key (some data) other := by
  by_cases same : other = key
  · subst other
    simp
  · simp [AList.lookup_insert_ne same, Function.update_of_ne same]

theorem add_ret : (table.add key data).1 = 0 ↔
    table.freeNodes ≠ 0 ∧ data ≠ [] ∧ table.chunksFor data ≤ table.freeChunks := by
  unfold add
  split
  · grind
  · simp_all

theorem add_lookup (other : Key) : (table.add key data).2.entries.lookup other =
    if (table.add key data).1 = 0 then Function.update table.entries.lookup key (some data) other
    else table.entries.lookup other := by
  unfold add
  split <;> simp [lookup_insert]

end Table

namespace Call

variable {call : Call Key} {table : Table Key}

/-- The abstract call changes the map as its return value says. -/
theorem next_lookup (call : Call Key) (table : Table Key) (key : Key) :
    (call.next table).2.entries.lookup key = call.stores (call.next table).1.ret table.entries.lookup key := by
  cases call with
  | find key bufLen => cases found : table.entries.lookup key <;> simp [next, stores, Table.find, found]
  | setValue key data =>
    cases found : table.entries.lookup key with
    | none =>
      by_cases done : (table.add key data).1 = 0 <;>
        simp [next, stores, Table.setValue, found, Table.add_lookup, done]
    | some old =>
      by_cases lack : table.freeChunks + table.chunksFor old < table.chunksFor data <;>
        simp [next, stores, Table.setValue, found, lack, Table.lookup_insert]
  | insert key data => by_cases done : (table.add key data).1 = 0 <;> simp [next, stores, Table.add_lookup, done]
  | delete gone =>
    cases found : table.entries.lookup gone with
    | none => simp [next, stores, Table.delete, found]
    | some old =>
      by_cases same : key = gone
      · subst key
        simp [next, stores, Table.delete, found]
      · simp [next, stores, Table.delete, found, AList.lookup_erase_ne same, Function.update_of_ne same]

theorem next_chunkSize (call : Call Key) (table : Table Key) :
    (call.next table).2.chunkSize = table.chunkSize := by
  cases call <;> simp only [next, Table.find, Table.setValue, Table.add, Table.delete] <;> grind [Table.touch_chunkSize]

end Call

variable {hash : Key → Nat} {pool : Pool Key} {table : Table Key}

/-- Each allowed call of the code is the call on the abstract table. -/
theorem Refines.call (refines : Refines hash pool table) (call : Call Key)
    (allowed : call.Allowed table.entries.lookup) :
    ∃ after, Prog.exec (call.run hash) pool = some ((call.next table).1, after) ∧
      Refines hash after (call.next table).2 ∧ pool.SameShape after ∧
      ((call.next table).1.ret ≠ 0 → pool.SameFree after) := by
  cases call with
  | find key bufLen =>
    obtain ⟨after, ran, refinesAfter, shape, free⟩ := refines.find key bufLen
    exact ⟨after, ran, refinesAfter, shape, fun _ => free⟩
  | setValue key data =>
    obtain ⟨after, ran, refinesAfter, shape, free⟩ := refines.setValue key data
    exact ⟨after, by simp [Call.run, ran, Call.next], refinesAfter, shape, free⟩
  | insert key data =>
    obtain ⟨after, ran, refinesAfter, shape, free⟩ := refines.insert allowed.2 data
    exact ⟨after, by simp [Call.run, ran, Call.next], refinesAfter, shape, free⟩
  | delete key =>
    obtain ⟨after, ran, refinesAfter, shape, free⟩ := refines.delete key
    exact ⟨after, by simp [Call.run, ran, Call.next], refinesAfter, shape, free⟩

/-- The two counters of the header count the keys and the buckets that have one. -/
private theorem Refines.counters (refines : Refines hash pool table) :
    (∃ keys : Finset Key, (∀ key, key ∈ keys ↔ table.entries.lookup key ≠ none) ∧
      pool.usedNodeNum = keys.card ∧ pool.usedBucketNum = (keys.image (getBucketId hash pool)).card) ∧
    pool.usedBucketNum = (List.range pool.bucketSize).countP fun b => pool.bucket b ≠ none := by
  obtain ⟨layout, laid, represents⟩ := refines
  have hasKey : ∀ key, key ∈ table.entries.keys ↔ ∃ node ∈ layout.recent, pool.key node = key := by
    intro key
    simp [AList.keys, List.keys, ← represents.entries, Pool.entry]
  refine ⟨⟨table.entries.keys.toFinset, ?_, ?_, ?_⟩, ?_⟩
  · intro key
    rw [List.mem_toFinset, ← AList.mem_keys, ← AList.lookup_isSome, Option.isSome_iff_ne_none]
  · rw [List.toFinset_card_of_nodup table.entries.keys_nodup, laid.buckets.counted]
    simp [AList.keys, List.keys, ← represents.entries]
  · have image : table.entries.keys.toFinset.image (getBucketId hash pool) =
        ((List.range pool.bucketSize).filter fun b => layout.chain b ≠ []).toFinset := by
      ext b
      simp only [Finset.mem_image, List.mem_toFinset, List.mem_filter, List.mem_range, decide_eq_true_eq, hasKey]
      constructor
      · rintro ⟨_, ⟨node, member, rfl⟩, rfl⟩
        exact ⟨laid.buckets.bucketId_lt _, List.ne_nil_of_mem ((laid.buckets.members node).mp member)⟩
      · rintro ⟨bound, occupied⟩
        obtain ⟨node, member⟩ := List.exists_mem_of_ne_nil _ occupied
        exact ⟨_, ⟨node, laid.buckets.hung_of_mem bound member, rfl⟩, laid.buckets.homed b bound node member⟩
    rw [image, List.toFinset_card_of_nodup (List.nodup_range.filter _), ← List.countP_eq_length_filter]
    exact laid.buckets.occupied
  · rw [laid.buckets.occupied]
    refine congrArg _ (List.countP_congr fun b member => ?_)
    simpa using (not_congr (laid.buckets.bucket_eq_none_iff (List.mem_range.mp member))).symm

variable {para : HashPara} {stored : Key → Option (List UInt8)}

/-- Every reached pool refines a table that holds exactly the map of the run. -/
theorem Reached.refines (buckets : 0 < para.bucketSize) (chunks : 0 < para.chunkSize)
    (reached : Reached hash para pool stored) :
    ∃ table : Table Key, Refines hash pool table ∧ table.entries.lookup = stored ∧
      table.chunkSize = para.chunkSize ∧ pool.bucketSize = para.bucketSize := by
  induction reached with
  | @opened memory pool ran =>
    obtain ⟨after, opened, laid, _, bucketSize, _, chunkSize⟩ :=
      exec_openPool_init hash para.nodeTotal para.chunkTotal buckets chunks memory
    obtain rfl : after = pool := by simpa [ran] using opened.symm
    refine ⟨⟨∅, para.nodeTotal, para.chunkTotal, para.chunkSize⟩, ⟨_, laid, ?_⟩, ?_, rfl, bucketSize⟩
    · exact ⟨rfl, by simp, by simp, chunkSize⟩
    · funext key
      simp
  | @called pool after stored call reply _ allowed ran ih =>
    obtain ⟨table, refines, rfl, chunkSize, bucketSize⟩ := ih
    obtain ⟨final, done, refinesAfter, shape, _⟩ := refines.call call allowed
    obtain ⟨rfl, rfl⟩ : reply = (call.next table).1 ∧ after = final := by
      simpa [ran, Prod.mk.injEq] using done
    exact ⟨_, refinesAfter, funext (call.next_lookup table), (call.next_chunkSize table).trans chunkSize,
      shape.bucketSize.trans bucketSize⟩

/-- A pool that refines a table keeps the promises for the map of the table. -/
private theorem Refines.actsAsMap (refines : Refines hash pool table) (chunkSize : table.chunkSize = para.chunkSize)
    (bucketSize : pool.bucketSize = para.bucketSize) :
    ∃ nodes chunks, ActsAsMap hash para pool table.entries.lookup nodes chunks := by
  obtain ⟨layout, laid, represents⟩ := id refines
  have need : ∀ data : List UInt8, getChunkNum para.chunkSize data.length = table.chunksFor data := fun data => by
    rw [Table.chunksFor, chunkSize]
  refine ⟨layout.free, layout.freeChunks, {
    content := represents.pool_lookup laid
    freeNodes := laid.freeNodes
    freeChunks := laid.freeChunks
    find_missing := ?_, find_found := ?_, find_short := ?_, delete := ?_, setValue_new := ?_
    insert_new := ?_, setValue_old := ?_, failed := ?_, counted := refines.counters.1
    occupied := bucketSize ▸ refines.counters.2 }⟩
  · intro key bufLen missing
    rcases exec_findNode laid represents key with ⟨_, _, _, _, found, _⟩ | ⟨_, ran⟩
    · simp [missing] at found
    · simp [ShmHashMap.find, ran]
  · intro key data bufLen found enough
    obtain ⟨after, ran, _⟩ := refines.find key bufLen
    exact ⟨after, by simpa [Table.find, found, not_lt.mpr enough] using ran⟩
  · intro key data bufLen found short
    obtain ⟨after, ran, _⟩ := refines.find key bufLen
    exact ⟨after, by simpa [Table.find, found, short] using ran⟩
  · intro key
    obtain ⟨after, ran, _⟩ := refines.delete key
    refine ⟨_, after, ran, ?_⟩
    cases found : table.entries.lookup key <;> simp [Table.delete, found]
  · intro key data filled missing
    obtain ⟨after, ran, _⟩ := refines.setValue key data
    refine ⟨_, after, ran, ?_⟩
    simp only [Table.setValue, missing, Table.add_ret, represents.freeNodes, represents.freeChunks, need]
    simp [filled, Nat.pos_iff_ne_zero]
  · intro key data filled missing
    obtain ⟨after, ran, _⟩ := refines.insert missing data
    refine ⟨_, after, ran, ?_⟩
    simp only [Table.add_ret, represents.freeNodes, represents.freeChunks, need]
    simp [filled, Nat.pos_iff_ne_zero]
  · intro key old data _ found
    obtain ⟨after, ran, _⟩ := refines.setValue key data
    refine ⟨_, after, ran, ?_⟩
    simp only [Table.setValue, found, represents.freeChunks, need]
    by_cases lack : table.freeChunks + table.chunksFor old < table.chunksFor data
    · simp [lack]
    · have enough := not_lt.mp lack
      simp [lack, enough]
  · intro call reply after allowed ran failed
    obtain ⟨final, done, refinesAfter, _, free⟩ := refines.call call allowed
    obtain ⟨rfl, rfl⟩ : reply = (call.next table).1 ∧ after = final := by
      simpa [ran, Prod.mk.injEq] using done
    obtain ⟨_, laidAfter, representsAfter⟩ := refinesAfter
    refine ⟨fun key => ?_, free failed⟩
    rw [representsAfter.pool_lookup laidAfter, represents.pool_lookup laid, call.next_lookup]
    cases call <;> simp_all [Call.stores]

namespace Call

/-- The abstract table after some calls. -/
def after (calls : List (Call Key)) (table : Table Key) : Table Key :=
  calls.foldl (fun table call => (call.next table).2) table

/-- Each call is allowed when it is made. -/
def Allows : Table Key → List (Call Key) → Prop
  | _, [] => True
  | table, call :: calls => call.Allowed table.entries.lookup ∧ Allows (call.next table).2 calls

end Call

/-- The code follows the calls of the abstract table. -/
theorem Reached.calls {calls : List (Call Key)} (reached : Reached hash para pool table.entries.lookup)
    (refines : Refines hash pool table) (allows : Call.Allows table calls) : ∃ after,
      Reached hash para after (Call.after calls table).entries.lookup ∧ Refines hash after (Call.after calls table) := by
  induction calls generalizing pool table with
  | nil => exact ⟨pool, reached, refines⟩
  | cons call calls ih =>
    obtain ⟨middle, ran, refinesMiddle, _⟩ := refines.call call allows.1
    refine ih ?_ refinesMiddle allows.2
    rw [funext (call.next_lookup table)]
    exact reached.called allows.1 ran

/-- A freshly opened pool refines the empty table. -/
theorem Reached.fresh (hash : Key → Nat) (para : HashPara) (buckets : 0 < para.bucketSize)
    (chunks : 0 < para.chunkSize) (memory : Pool Key) : ∃ pool, Reached hash para pool (fun _ => none) ∧
      Refines hash pool ⟨∅, para.nodeTotal, para.chunkTotal, para.chunkSize⟩ := by
  obtain ⟨pool, opened, laid, _, _, _, chunkSize⟩ :=
    exec_openPool_init hash para.nodeTotal para.chunkTotal buckets chunks memory
  exact ⟨pool, .opened opened, _, laid, rfl, by simp, by simp, chunkSize⟩

/-- A shared-memory table opened for the first time is a finite map with a fixed
number of nodes and chunks, whatever the run. -/
theorem reached_acts_as_map (hash : Key → Nat) (para : HashPara) (buckets : 0 < para.bucketSize)
    (chunks : 0 < para.chunkSize) :
    (∀ memory : Pool Key, ∃ pool, Prog.exec
      (openPool true para.nodeTotal para.bucketSize para.chunkTotal para.chunkSize) memory = some (0, pool)) ∧
    ∀ (pool : Pool Key) stored, Reached hash para pool stored →
      ∃ nodes chunks, ActsAsMap hash para pool stored nodes chunks := by
  refine ⟨fun memory => ?_, fun pool stored reached => ?_⟩
  · obtain ⟨pool, opened, _⟩ := exec_openPool_init hash para.nodeTotal para.chunkTotal buckets chunks memory
    exact ⟨pool, opened⟩
  · obtain ⟨table, refines, rfl, chunkSize, bucketSize⟩ := reached.refines buckets chunks
    exact refines.actsAsMap chunkSize bucketSize

/-- Memory full of zeros. -/
def zeros : Pool Nat := ⟨0, 0, 0, 0, none, none, none, fun _ => none, fun _ => 0, fun _ => 0, fun _ => none,
  fun _ => none, fun _ => none, fun _ => none, fun _ => none, ⟨0, 0, 0, none, fun _ => none, fun _ => []⟩⟩

/-- Two users are stored, the first gets a second chunk and is found, and the second is deleted. -/
def comings : List (Call Nat) :=
  [.insert 7 [1], .setValue 9 [2, 3], .setValue 7 [4, 5, 6, 7, 8], .find 7 8, .delete 9]

theorem reached_acts_as_map_small : ∃ (pool : Pool Nat) (stored : Nat → Option (List UInt8)) (nodes chunks : List Nat),
    Reached id ⟨2, 1, 3, 4⟩ pool stored ∧ stored 7 = some [4, 5, 6, 7, 8] ∧ stored 9 = none ∧
      nodes.length = 1 ∧ chunks.length = 1 ∧ ActsAsMap id ⟨2, 1, 3, 4⟩ pool stored nodes chunks := by
  obtain ⟨fresh, start, empty⟩ := Reached.fresh id ⟨2, 1, 3, 4⟩ (by decide) (by decide) zeros
  have allows : Call.Allows (⟨∅, 2, 3, 4⟩ : Table Nat) comings :=
    ⟨⟨List.cons_ne_nil _ _, rfl⟩, List.cons_ne_nil _ _, List.cons_ne_nil _ _, trivial, trivial, trivial⟩
  obtain ⟨pool, reached, layout, laid, represents⟩ := start.calls empty allows
  obtain ⟨nodes, chunks, acts⟩ :=
    (reached_acts_as_map (id : Nat → Nat) ⟨2, 1, 3, 4⟩ (by decide) (by decide)).2 pool _ reached
  obtain rfl := Option.some.inj (laid.freeNodes.symm.trans acts.freeNodes)
  obtain rfl := Option.some.inj (laid.freeChunks.symm.trans acts.freeChunks)
  exact ⟨pool, _, _, _, reached, by decide, by decide, represents.freeNodes, represents.freeChunks, acts⟩

end TeenpattiUserServer.Shm
