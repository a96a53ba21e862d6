import TeenpattiUserServer.Bookkeeping.Runs
import TeenpattiUserServer.Shm.Restart

/-! `Insert` under a key that the table holds already. It never looks for the key,
so it refuses only when it has no room; then the table has the key twice. -/

namespace TeenpattiUserServer.Shm

open Store Intrusive HashMap ChunkAllocator Bookkeeping

variable {Key : Type}

namespace Pool

/-- The nodes that hang in the buckets. -/
def usedNodes (pool : Pool Key) : List Nat :=
  (List.range pool.bucketSize).flatMap fun b => (walk pool.nodeNext pool.nodeTotal (pool.bucket b)).getD []

/-- No key is held by two used nodes. -/
def Unique (pool : Pool Key) : Prop :=
  ∀ first ∈ pool.usedNodes, ∀ second ∈ pool.usedNodes, pool.key first = pool.key second → first = second

/-- There is no free node, no byte to store, or not the chunks for them. -/
def InsertLacks (pool : Pool Key) (data : List UInt8) : Prop :=
  pool.freeList = none ∨ data = [] ∨ pool.chunks.freeTotal < getChunkNum pool.chunks.chunkSize data.length

end Pool

variable {hash : Key → Nat} {para : HashPara} {pool after : Pool Key} {layout : Layout} {node : Nat}

namespace HashMap.Laid

theorem mem_usedNodes (laid : Laid hash pool layout) : node ∈ pool.usedNodes ↔ node ∈ layout.recent := by
  have walked {b : Nat} (bound : b < pool.bucketSize) :
      walk pool.nodeNext pool.nodeTotal (pool.bucket b) = some (layout.chain b) :=
    (laid.buckets.linked b bound).forward.walk_eq ((laid.buckets.chain_length_le bound).trans laid.recent_length_le)
  rw [Pool.usedNodes, List.mem_flatMap]
  constructor
  · rintro ⟨b, small, inside⟩
    have bound := List.mem_range.mp small
    rw [walked bound, Option.getD_some] at inside
    exact laid.buckets.hung_of_mem bound inside
  · intro member
    have bound := laid.buckets.bucketId_lt (pool.key node)
    refine ⟨_, List.mem_range.mpr bound, ?_⟩
    rw [walked bound, Option.getD_some]
    exact (laid.buckets.members node).mp member

theorem unique_iff (laid : Laid hash pool layout) : pool.Unique ↔ (layout.recent.map pool.key).Nodup := by
  rw [List.nodup_map_iff_inj_on laid.adds.nodup]
  simp only [Pool.Unique, laid.mem_usedNodes]

theorem insertLacks_iff (laid : Laid hash pool layout) (data : List UInt8) : pool.InsertLacks data ↔
    layout.free = [] ∨ data = [] ∨ layout.freeChunks.length < getChunkNum pool.chunks.chunkSize data.length := by
  have head : pool.freeList = layout.free.head? := laid.freeChain.head
  rw [Pool.InsertLacks, head, List.head?_eq_none_iff, laid.stored.counted, Int.ofNat_lt]

/-- `Insert` returns -1 only without room, and leaves the table then. -/
theorem insert_refuses_iff (laid : Laid hash pool layout) (key : Key) (data : List UInt8) :
    Prog.exec (ShmHashMap.insert hash key data) pool = some (-1, pool) ↔ pool.InsertLacks data := by
  rw [laid.insertLacks_iff]
  rcases laid.insert_cases key data with ⟨lack, ran⟩ | ⟨room, _, _, _, ran, _⟩
  · exact iff_of_true (by simp [ShmHashMap.insert, ran]) lack
  · exact iff_of_false (by simp [ShmHashMap.insert, ran]) room

variable [DecidableEq Key]

/-- A key is present when some used node has it. -/
theorem present_iff (laid : Laid hash pool layout) (key : Key) :
    pool.lookup hash key ≠ none ↔ key ∈ layout.recent.map pool.key := by
  rw [Pool.lookup, laid.walk_bucket key, Option.getD_some, ne_eq, Option.map_eq_none_iff, List.find?_eq_none,
    List.mem_map]
  push Not
  constructor
  · rintro ⟨node, member, same⟩
    exact ⟨node, laid.buckets.hung_of_mem (laid.buckets.bucketId_lt key) member, by simpa using same⟩
  · rintro ⟨node, member, rfl⟩
    exact ⟨node, (laid.buckets.members node).mp member, by simp⟩

/-- A use keeps the keys of the used nodes apart, unless it inserts a key that is
there, with room for it. -/
theorem use_unique_iff (laid : Laid hash pool layout) (unique : pool.Unique) {use : Use Key}
    (ran : Prog.exec (use.run hash) pool = some ((), after)) : after.Unique ↔
      ∀ key data, use = .insert key data → pool.lookup hash key ≠ none → pool.InsertLacks data := by
  have distinct := laid.unique_iff.mp unique
  obtain ⟨final, next, done, laidAfter, _, keys, effect⟩ := laid.use_effect use
  obtain rfl : after = final := by simpa [ran] using done
  have stay {cells : List Nat} (before : cells ⊆ layout.recent) (there : cells ⊆ next.recent) :
      cells.map after.key = cells.map pool.key :=
    List.map_congr_left fun node member => keys node (before member) (there member)
  rw [laidAfter.unique_iff]
  cases effect with
  | rests _ recent refused =>
    refine iff_of_true ?_ fun key data same _ => (laid.insertLacks_iff data).mpr (refused key data same)
    rw [recent, stay (List.Subset.refl _) (recent ▸ List.Subset.refl _)]
    exact distinct
  | moves node _ member recent other =>
    refine iff_of_true ?_ fun key data same => absurd same (other key data)
    have moved : (node :: layout.recent.erase node).Perm layout.recent := (List.perm_cons_erase member).symm
    rw [recent, stay moved.subset (recent ▸ List.Subset.refl _)]
    exact (moved.map pool.key).nodup_iff.mpr distinct
  | removes node _ member recent other =>
    refine iff_of_true ?_ fun key data same => absurd same (other key data)
    rw [recent, stay List.erase_subset (recent ▸ List.Subset.refl _)]
    exact distinct.sublist (List.erase_sublist.map _)
  | adds node key data _ _ recent own asked =>
    have front : next.recent.map after.key = key :: layout.recent.map pool.key := by
      rw [recent, List.map_cons, own, stay (List.Subset.refl _) (recent ▸ List.subset_cons_self ..)]
    rw [front, List.nodup_cons]
    rcases asked with ⟨rfl, room⟩ | ⟨rfl, absent⟩
    · have lacks : ¬ pool.InsertLacks data := fun lack => room ((laid.insertLacks_iff data).mp lack)
      simp [laid.present_iff, distinct, lacks]
    · refine iff_of_true ⟨fun inside => ?_, distinct⟩ (by simp)
      obtain ⟨other, member, same⟩ := List.mem_map.mp inside
      exact absent other member same

end HashMap.Laid

variable [DecidableEq Key]

/-- What happens to the segment: some use of the table, or a process attaches to it. -/
inductive Turn (Key : Type) where
  | use (call : Use Key)
  | attach (os : SVShm.Answers) (unassigned : Int)

def Turn.step (hash : Key → Nat) (para : HashPara) : Turn Key → Pool Key → Option (Pool Key)
  | .use call, pool => (Prog.exec (call.run hash) pool).map (·.2)
  | .attach os unassigned, pool =>
    if SVShm.forceOpenAndAttach os = (0, 0) then
      (Prog.exec (ShmHashMap.init os unassigned para) pool).bind fun run => if run.1 = 0 then some run.2 else none
    else none

/-- `Insert` of a key that is present returns -1 and leaves the table. -/
def RefusesPresent (hash : Key → Nat) (turn : Turn Key) (before : Pool Key) : Prop :=
  ∀ key data, turn = .use (.insert key data) → before.lookup hash key ≠ none →
    Prog.exec (ShmHashMap.insert hash key data) before = some (-1, before)

/-- A key that is inserted is absent, or there is no room for it. -/
def InsertsNew (hash : Key → Nat) (turn : Turn Key) (before : Pool Key) : Prop :=
  ∀ key data, turn = .use (.insert key data) → before.lookup hash key ≠ none → before.InsertLacks data

variable {turn : Turn Key}

omit [DecidableEq Key] in
private theorem unique_empty {empty : Layout} (laid : Laid hash pool empty) (none : empty.recent = []) : pool.Unique :=
  laid.unique_iff.mpr (by simp [none])

private theorem turn_attach (buckets : 0 < para.bucketSize) (chunks : 0 < para.chunkSize) (sound : Sound hash para pool)
    {os : SVShm.Answers} {unassigned : Int} (ran : (Turn.attach os unassigned).step hash para pool = some after) :
    Sound hash para after ∧ (pool.Unique → after.Unique) := by
  simp only [Turn.step, Option.ite_none_right_eq_some, Option.bind_eq_some_iff] at ran
  obtain ⟨existing, ⟨ret, final⟩, done, same⟩ := ran
  obtain ⟨rfl, rfl⟩ : ret = 0 ∧ final = after := by simpa using same
  by_cases assigned : unassigned = 0
  · subst unassigned
    obtain rfl : pool = final := by simpa [exec_init_existing sound existing] using done
    exact ⟨sound, id⟩
  · obtain ⟨fresh, started, laid, shaped⟩ :=
      exec_init_fresh buckets chunks existing unassigned (.inr assigned) hash pool
    obtain rfl : fresh = final := by simpa [started] using done
    exact ⟨⟨⟨_, laid⟩, shaped⟩, fun _ => unique_empty laid rfl⟩

private theorem turn_sound (buckets : 0 < para.bucketSize) (chunks : 0 < para.chunkSize) (sound : Sound hash para pool)
    (ran : turn.step hash para pool = some after) : Sound hash para after := by
  cases turn with
  | attach => exact (turn_attach buckets chunks sound ran).1
  | use call =>
    obtain ⟨⟨layout, laid⟩, shaped⟩ := sound
    obtain ⟨final, done, laidAfter, same⟩ := laid.exec_use call
    obtain rfl : final = after := by simpa [Turn.step, done] using ran
    exact ⟨laidAfter, shaped.trans same⟩

private theorem turn_unique_iff (buckets : 0 < para.bucketSize) (chunks : 0 < para.chunkSize)
    (sound : Sound hash para pool) (unique : pool.Unique) (ran : turn.step hash para pool = some after) :
    after.Unique ↔ InsertsNew hash turn pool := by
  cases turn with
  | attach => exact iff_of_true ((turn_attach buckets chunks sound ran).2 unique) fun _ _ same => by simp at same
  | use call =>
    obtain ⟨⟨layout, laid⟩, _⟩ := sound
    obtain ⟨final, done, _⟩ := laid.exec_use call
    obtain rfl : final = after := by simpa [Turn.step, done] using ran
    simpa [InsertsNew] using laid.use_unique_iff unique done

private theorem refusesPresent_iff (sound : Sound hash para pool) :
    RefusesPresent hash turn pool ↔ InsertsNew hash turn pool := by
  obtain ⟨⟨layout, laid⟩, _⟩ := sound
  simp only [RefusesPresent, InsertsNew, laid.insert_refuses_iff]

/-- In every run of a segment from its creation, `Insert` refuses the keys that are
present and no two used nodes have one key after each step, exactly when each key
that is inserted is absent or there is no room for it. -/
theorem inserts_keep_keys_unique_iff (hash : Key → Nat) (para : HashPara) (buckets : 0 < para.bucketSize)
    (chunks : 0 < para.chunkSize) {os : SVShm.Answers} {unassigned : Int} {memory pool : Pool Key}
    (fresh : SVShm.forceOpenAndAttach os = (0, 1))
    (created : Prog.exec (ShmHashMap.init os unassigned para) memory = some (0, pool)) (turns : List (Turn Key)) :
    AtEachStep (Turn.step hash para) turns pool
        (fun _ turn before after => RefusesPresent hash turn before ∧ after.Unique) ↔
      AtEachStep (Turn.step hash para) turns pool fun _ turn before _ => InsertsNew hash turn before := by
  obtain ⟨start, opened, laid, shaped⟩ :=
    exec_init_fresh buckets chunks fresh unassigned (.inl (by decide)) hash memory
  obtain rfl : start = pool := by simpa [created] using opened.symm
  have sound : Sound hash para start := ⟨⟨_, laid⟩, shaped⟩
  have keeps {pool after : Pool Key} {turn : Turn Key} (sound : Sound hash para pool)
      (ran : turn.step hash para pool = some after) : Sound hash para after := turn_sound buckets chunks sound ran
  have refuses : AtEachStep (Turn.step hash para) turns start (fun _ turn before _ => RefusesPresent hash turn before) ↔
      AtEachStep (Turn.step hash para) turns start fun _ turn before _ => InsertsNew hash turn before :=
    atEachStep_congr keeps (fun sound _ => refusesPresent_iff sound) turns sound
  have unique : AtEachStep (Turn.step hash para) turns start (fun _ _ _ after => after.Unique) ↔
      AtEachStep (Turn.step hash para) turns start fun _ turn before _ => InsertsNew hash turn before := by
    let inv (_ : List (Turn Key)) (pool : Pool Key) : Prop := pool.Unique
    let legal (_ : List (Turn Key)) (_ : Turn Key) (_ _ : Pool Key) : Prop := True
    exact @atEachStep_inv_iff _ _ (Turn.step hash para) (Sound hash para) inv legal _ keeps
      (fun sound unique _ ran => turn_unique_iff buckets chunks sound unique ran) turns start sound
      (unique_empty laid rfl) fun _ _ _ _ _ _ _ _ => trivial
  rw [atEachStep_and, refuses, unique, and_self]

/-- A segment made for two nodes and two chunks of four bytes, on memory full of zeros. -/
private theorem created_two : ∃ pool : Pool Nat,
    Prog.exec (ShmHashMap.init ⟨5, false, 0, 0, 0, 0, false⟩ 0 ⟨2, 1, 2, 4⟩)
      ⟨0, 0, 0, 0, none, none, none, fun _ => none, fun _ => 0, fun _ => 0, fun _ => none, fun _ => none,
        fun _ => none, fun _ => none, fun _ => none, ⟨0, 0, 0, none, fun _ => none, fun _ => []⟩⟩ = some (0, pool) ∧
      Laid id pool ⟨fun _ => [], [], [1, 0], fun _ => [], [1, 0]⟩ ∧ pool.Shaped ⟨2, 1, 2, 4⟩ :=
  have fresh : SVShm.forceOpenAndAttach ⟨5, false, 0, 0, 0, 0, false⟩ = (0, 1) := rfl
  exec_init_fresh (by decide) (by decide) fresh 0 (.inl (by decide)) id _

/-- Keys 7 and 8 are inserted. -/
theorem inserts_keep_keys_unique_iff_two : ∃ pool : Pool Nat,
    AtEachStep (Turn.step id ⟨2, 1, 2, 4⟩) [.use (.insert 7 [1]), .use (.insert 8 [2])] pool
        (fun _ turn before after => RefusesPresent id turn before ∧ after.Unique) ↔
      AtEachStep (Turn.step id ⟨2, 1, 2, 4⟩) [.use (.insert 7 [1]), .use (.insert 8 [2])] pool
        fun _ turn before _ => InsertsNew id turn before := by
  obtain ⟨pool, created, _⟩ := created_two
  exact ⟨pool, inserts_keep_keys_unique_iff id ⟨2, 1, 2, 4⟩ (by decide) (by decide) (by decide) created _⟩

/-- The second insertion of key 7 returns 0, and two nodes have the key. -/
theorem insert_doubles_key : ∃ pool middle after : Pool Nat, Left id ⟨2, 1, 2, 4⟩ pool ∧
    Prog.exec ((Use.insert 7 [1]).run id) pool = some ((), middle) ∧ middle.lookup id 7 ≠ none ∧
    Prog.exec (ShmHashMap.insert id 7 [2]) middle = some (0, after) ∧ ¬ after.Unique := by
  obtain ⟨pool, created, laid, shaped⟩ := created_two
  have one : ([1] : List UInt8) ≠ [] := by decide
  have two : ([2] : List UInt8) ≠ [] := by decide
  obtain ⟨middle, _, _, first, laidMiddle, same, own, _⟩ :=
    laid.insert 7 (show [1, 0] = 1 :: [0] from rfl) one (by rw [shaped.chunkSize]; decide)
  have key : middle.key 1 = 7 := congrArg Sigma.fst own
  have chunkLeft : getChunkNum 4 1 ≤ (List.drop (getChunkNum 4 1) [1, 0]).length := by decide
  obtain ⟨after, _, _, second, laidAfter, _, ownAfter, kept⟩ :=
    laidMiddle.insert 7 (show [0] = 0 :: [] from rfl) two
      (by rw [same.chunkSize, shaped.chunkSize]; exact chunkLeft)
  have keyAfter : after.key 0 = 7 := congrArg Sigma.fst ownAfter
  have keyKept : after.key 1 = middle.key 1 := congrArg Sigma.fst (kept 1 (by simp))
  refine ⟨pool, middle, after, .created rfl created, by simp [Use.run, ShmHashMap.insert, first], ?_,
    by simp [ShmHashMap.insert, second], ?_⟩
  · rw [laidMiddle.present_iff]
    simp [key]
  · rw [laidAfter.unique_iff]
    simp [keyAfter, keyKept, key]

end TeenpattiUserServer.Shm
