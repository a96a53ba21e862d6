import TeenpattiUserServer.Bookkeeping.Clients
import TeenpattiUserServer.Shm.Recency
import TeenpattiUserServer.UserServer.GameUser

/-! `GameUserSHM` over the shared memory: the calls that the server makes on the
segment, and that no program can tell it from the table of records, over the
lives of any number of processes. -/

namespace TeenpattiUserServer.UserServer

open Store Bookkeeping Shm HashMap

/-- What the server does with its users: `Init`, `Find`, `SetValue`, `Delete`, and a walk of a
`vistor` from `begin` to the end. -/
inductive TableCall where
  | init (os : SVShm.Answers) (unassigned : Int)
  | find (uid : Int32)
  | setValue (user : GameUser)
  | delete (uid : Int32)
  | visit

/-- The return value, and the records that were read. -/
structure TableReply where
  ret : Int
  users : List GameUser
  deriving DecidableEq

namespace GameUserSHM

def sizeofGameUser : Nat := 20

/-- `SetHashInfo`, with the parameters of `InitSHM` -/
def hashInfo (shmNodeCount : Nat) : HashPara := ⟨shmNodeCount, 65537, shmNodeCount, sizeofGameUser⟩

/-- `ret == -1 || len != sizeof(CGameUser)` passes over a node. -/
def readable (reply : Reply) : Option GameUser :=
  if reply.ret = -1 ∨ reply.bufLen ≠ sizeofGameUser then none else some (.decode reply.buf)

end GameUserSHM

namespace TableCall

/-- The call on the segment. -/
def run (hash : Int32 → Nat) (shmNodeCount : Nat) : TableCall → Run Int32 TableReply
  | init os unassigned => do pure ⟨← ShmHashMap.init os unassigned (GameUserSHM.hashInfo shmNodeCount), []⟩
  | find uid => do
    let reply ← ShmHashMap.find hash uid GameUserSHM.sizeofGameUser
    pure ⟨reply.ret, if reply.ret = 0 then [.decode reply.buf] else []⟩
  | setValue user => do pure ⟨← ShmHashMap.setValue hash user.uid user.encode, []⟩
  | delete uid => do pure ⟨← ShmHashMap.delete hash uid, []⟩
  | visit => do
    let fuel ← Prog.read (·.nodeTotal)
    let replies ← ShmHashMap.readAll GameUserSHM.sizeofGameUser fuel
    pure ⟨0, replies.filterMap fun visited => GameUserSHM.readable visited.2⟩

/-- The call on the records. `Init` keeps them when the segment is there and its local variable holds 0. -/
def answer (shmNodeCount : Nat) : TableCall → GameUserSHM → TableReply × GameUserSHM
  | init os unassigned, shm =>
    if (SVShm.forceOpenAndAttach os).1 < 0 then (⟨-1, []⟩, shm)
    else if (SVShm.forceOpenAndAttach os).2 ≠ 0 ∨ unassigned ≠ 0 then (⟨0, []⟩, ⟨∅, shmNodeCount⟩)
    else (⟨0, []⟩, shm)
  | find uid, shm => (⟨if (shm.find uid).1 = none then -1 else 0, (shm.find uid).1.toList⟩, (shm.find uid).2)
  | setValue user, shm => (⟨(shm.setValue user).1, []⟩, (shm.setValue user).2)
  | delete uid, shm => (⟨(shm.delete uid).1, []⟩, (shm.delete uid).2)
  | visit, shm => (⟨0, shm.visit⟩, shm)

end TableCall

namespace GameUserSHM

/-- The segment holds these users in this order, and has this many nodes left. -/
def HeldIn (hash : Int32 → Nat) (shmNodeCount : Nat) (pool : Pool Int32) (shm : GameUserSHM) : Prop :=
  Refines hash pool shm.table ∧ pool.Shaped (hashInfo shmNodeCount)

variable {hash : Int32 → Nat} {shmNodeCount : Nat} {pool : Pool Int32} {shm : GameUserSHM}

private theorem HeldIn.sound (held : HeldIn hash shmNodeCount pool shm) : Sound hash (hashInfo shmNodeCount) pool := by
  obtain ⟨⟨layout, laid, _⟩, shaped⟩ := held
  exact ⟨⟨layout, laid⟩, shaped⟩

/-- An empty table has all nodes and all chunks. -/
private theorem empty_heldIn {after : Pool Int32} (shaped : after.Shaped (hashInfo shmNodeCount))
    (laid : Laid hash after ⟨fun _ => [], [], (List.range shmNodeCount).reverse, fun _ => [],
      (List.range shmNodeCount).reverse⟩) : HeldIn hash shmNodeCount after ⟨∅, shmNodeCount⟩ := by
  refine ⟨⟨_, laid, rfl, ?_, ?_, shaped.chunkSize⟩, shaped⟩
  · simp [table]
  · simp [table]

/-- A segment that is new, or whose `init` was asked for, becomes an empty table. -/
private theorem exec_init (hash : Int32 → Nat) (shmNodeCount : Nat) {os : SVShm.Answers} {tmpInit : Int}
    (attached : SVShm.forceOpenAndAttach os = (0, tmpInit))
    (unassigned : Int) (asked : tmpInit ≠ 0 ∨ unassigned ≠ 0) (memory : Pool Int32) :
    ∃ after, Prog.exec (ShmHashMap.init os unassigned (hashInfo shmNodeCount)) memory = some (0, after) ∧
      HeldIn hash shmNodeCount after ⟨∅, shmNodeCount⟩ := by
  have buckets : 0 < (hashInfo shmNodeCount).bucketSize := Nat.zero_lt_succ _
  have chunks : 0 < (hashInfo shmNodeCount).chunkSize := Nat.zero_lt_succ _
  obtain ⟨after, ran, laid, shaped⟩ := exec_init_fresh buckets chunks attached unassigned asked hash memory
  exact ⟨after, ran, empty_heldIn shaped laid⟩

/-- Each node of the add list is one record. -/
private theorem readable_reply {layout : Layout} (represents : Represents pool layout shm.table) :
    (layout.recent.map fun node => (node, pool.reply sizeofGameUser node)).filterMap
      (fun visited => readable visited.2) = shm.visit := by
  have entries : layout.recent.map pool.entry =
      shm.users.entries.map fun entry => (⟨entry.1, entry.2.encode⟩ : (_ : Int32) × List UInt8) := represents.entries
  have read (node : Nat) (user : GameUser) (bytes : pool.bytes node = user.encode) :
      readable (pool.reply sizeofGameUser node) = some user := by
    simp [readable, Pool.reply, bytes, GameUser.encode_length, GameUser.decode_encode, sizeofGameUser]
  rw [List.filterMap_map, visit]
  generalize shm.users.entries = users at entries
  generalize layout.recent = nodes at entries
  induction nodes generalizing users with
  | nil =>
    cases users with
    | nil => rfl
    | cons => cases entries
  | cons node nodes ih =>
    cases users with
    | nil => cases entries
    | cons user users =>
      obtain ⟨first, others⟩ := List.cons.inj entries
      have bytes : pool.bytes node = user.2.encode := eq_of_heq (Sigma.mk.inj first).2
      have same : readable (pool.reply sizeofGameUser node) = some user.2 := read node user.2 bytes
      rw [List.filterMap_cons, Function.comp_apply, same, List.map_cons, ih users others]

end GameUserSHM

namespace TableCall

variable {hash : Int32 → Nat} {shmNodeCount : Nat} {pool : Pool Int32} {shm : GameUserSHM}

private theorem attached_cases (os : SVShm.Answers) :
    (SVShm.forceOpenAndAttach os).1 < 0 ∨ (SVShm.forceOpenAndAttach os).1 = 0 := by
  have attach : SVShm.attach os < 0 ∨ SVShm.attach os = 0 := by
    rw [SVShm.attach]
    split <;> simp
  rw [SVShm.forceOpenAndAttach]
  repeat' split
  all_goals first | exact attach | simp

private theorem exec_init_answer (held : GameUserSHM.HeldIn hash shmNodeCount pool shm) (os : SVShm.Answers)
    (unassigned : Int) : ∃ after, Prog.exec ((init os unassigned).run hash shmNodeCount) pool =
      some (((init os unassigned).answer shmNodeCount shm).1, after) ∧
        GameUserSHM.HeldIn hash shmNodeCount after ((init os unassigned).answer shmNodeCount shm).2 := by
  obtain ⟨ret, tmpInit, answers⟩ : ∃ ret tmpInit, SVShm.forceOpenAndAttach os = (ret, tmpInit) := ⟨_, _, rfl⟩
  have cases := attached_cases os
  simp only [run, answer, answers] at cases ⊢
  rcases cases with failed | rfl
  · refine ⟨pool, ?_, ?_⟩
    · simp [ShmHashMap.init, answers, failed]
    · rwa [if_pos failed]
  · by_cases asked : tmpInit ≠ 0 ∨ unassigned ≠ 0
    · obtain ⟨after, ran, empty⟩ := GameUserSHM.exec_init hash shmNodeCount answers unassigned asked pool
      refine ⟨after, ?_, ?_⟩
      · rw [Prog.exec_bind, ran, if_neg (Int.lt_irrefl 0), if_pos asked]
        rfl
      · rwa [if_neg (Int.lt_irrefl 0), if_pos asked]
    · obtain ⟨rfl, rfl⟩ : tmpInit = 0 ∧ unassigned = 0 := by simpa using asked
      have kept := exec_init_existing held.sound answers
      refine ⟨pool, ?_, ?_⟩
      · rw [Prog.exec_bind, kept, if_neg (Int.lt_irrefl 0), if_neg asked]
        rfl
      · rwa [if_neg (Int.lt_irrefl 0), if_neg asked]

/-- Each call on a segment that holds the users replies as the call on the users. -/
theorem simulates : Simulates (fun call : TableCall => Prog.exec (call.run hash shmNodeCount)) (answer shmNodeCount)
    (GameUserSHM.HeldIn hash shmNodeCount) := by
  intro pool shm held call
  obtain ⟨refines, shaped⟩ := held
  cases call with
  | init os unassigned => exact exec_init_answer ⟨refines, shaped⟩ os unassigned
  | find uid =>
    obtain ⟨after, ran, still, shape, _⟩ := refines.find uid 20
    rw [shm.table_find uid] at ran still
    refine ⟨after, ?_, still, shaped.trans shape⟩
    change Prog.exec (ShmHashMap.find hash uid GameUserSHM.sizeofGameUser) pool = _ at ran
    simp only [run, Prog.exec_bind, ran, Option.bind_some, Prog.exec_pure, answer]
    cases (shm.find uid).1 with
    | none => simp
    | some user => simp [GameUser.decode_encode]
  | setValue user =>
    obtain ⟨after, ran, still, shape, _⟩ := refines.setValue user.uid user.encode
    rw [shm.table_setValue user] at ran still
    exact ⟨after, by simp [run, answer, ran], still, shaped.trans shape⟩
  | delete uid =>
    obtain ⟨after, ran, still, shape, _⟩ := refines.delete uid
    rw [shm.table_delete uid] at ran still
    exact ⟨after, by simp [run, answer, ran], still, shaped.trans shape⟩
  | visit =>
    obtain ⟨layout, laid, represents⟩ := refines
    have chain : Intrusive.Chain pool.addNext pool.addHead layout.recent none := laid.adds.forward
    have visited := laid.exec_readFrom GameUserSHM.sizeofGameUser chain (fun _ member => member)
      laid.recent_length_le
    refine ⟨pool, ?_, ⟨layout, laid, represents⟩, shaped⟩
    simp only [run, ShmHashMap.readAll, Prog.exec_bind, Prog.exec_read, Option.bind_some, visited, Prog.exec_pure,
      answer, GameUserSHM.readable_reply represents]

/-- A segment that was just created holds no user, whatever is in the memory. -/
theorem exec_init_created (hash : Int32 → Nat) (shmNodeCount : Nat) {os : SVShm.Answers}
    (created : SVShm.forceOpenAndAttach os = (0, 1)) (unassigned : Int) (memory : Pool Int32) : ∃ fresh,
      Prog.exec ((init os unassigned).run hash shmNodeCount) memory = some (⟨0, []⟩, fresh) ∧
        GameUserSHM.HeldIn hash shmNodeCount fresh ⟨∅, shmNodeCount⟩ := by
  obtain ⟨fresh, ran, empty⟩ := GameUserSHM.exec_init hash shmNodeCount created unassigned (.inl Int.one_ne_zero) memory
  exact ⟨fresh, by simp only [run, Prog.exec_bind, ran, Option.bind_some, Prog.exec_pure], empty⟩

/-- From the creation of the segment on, no program can tell it from the table of records, whatever the
processes do that attach to it one after another; no call faults. -/
theorem users_held_in_segment (hash : Int32 → Nat) (shmNodeCount : Nat) {os : SVShm.Answers}
    (created : SVShm.forceOpenAndAttach os = (0, 1)) (unassigned : Int) (memory : Pool Int32) {α : Type}
    (client : Client TableCall TableReply α) : ∃ after,
      (Client.ask (.init os unassigned) fun _ => client).run (fun call => Prog.exec (call.run hash shmNodeCount)) memory =
        some ((client.eval (answer shmNodeCount) ⟨∅, shmNodeCount⟩).1, after) ∧
      GameUserSHM.HeldIn hash shmNodeCount after (client.eval (answer shmNodeCount) ⟨∅, shmNodeCount⟩).2 := by
  obtain ⟨fresh, opened, empty⟩ := exec_init_created hash shmNodeCount created unassigned memory
  obtain ⟨after, rest, held⟩ := simulates.client client empty
  refine ⟨after, ?_, held⟩
  simp only [Client.run, opened, Option.bind_some]
  exact rest

/-- Two users are stored, the first is looked for, and the next process meets both; a third finds no node. -/
def twoLives : Client TableCall TableReply (TableReply × TableReply × TableReply) :=
  .ask (.setValue ⟨7, 1, 0, 3, -1, 1000⟩) fun _ => .ask (.setValue ⟨8, 1, 0, 3, -1, 1001⟩) fun _ =>
    .ask (.find 7) fun found => .ask (.init ⟨-1, true, 5, 0, 0, 0, false⟩ 0) fun _ =>
      .ask (.setValue ⟨9, 1, 0, 3, -1, 1002⟩) fun refused => .ask .visit fun met => .done (found, refused, met)

/-- What is in the memory before the segment is created. -/
def rubble : Pool Int32 where
  nodeTotal := 3
  bucketSize := 0
  usedNodeNum := -1
  usedBucketNum := 4
  addHead := some 9
  addTail := none
  freeList := some 9
  bucket _ := some 1
  key node := .ofNat node
  chunkLen _ := 1
  chunkHead _ := some 0
  nodePrev _ := none
  nodeNext node := some node
  addPrev _ := none
  addNext node := some node
  chunks := ⟨0, 0, 7, some 5, some, fun _ => []⟩

theorem users_held_in_segment_twoLives : ∃ after,
    (Client.ask (.init ⟨5, false, 0, 0, 0, 0, false⟩ 9) fun _ => twoLives).run
      (fun call => Prog.exec (call.run (fun uid => uid.toUInt32.toNat) 2)) rubble =
        some ((⟨0, [⟨7, 1, 0, 3, -1, 1000⟩]⟩, ⟨-1, []⟩, ⟨0, [⟨7, 1, 0, 3, -1, 1000⟩, ⟨8, 1, 0, 3, -1, 1001⟩]⟩), after) := by
  obtain ⟨after, ran, _⟩ := users_held_in_segment (fun uid => uid.toUInt32.toNat) 2
    (by decide : SVShm.forceOpenAndAttach ⟨5, false, 0, 0, 0, 0, false⟩ = (0, 1)) 9 rubble twoLives
  exact ⟨after, ran⟩

end TableCall

end TeenpattiUserServer.UserServer
