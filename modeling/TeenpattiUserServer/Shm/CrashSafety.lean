import Mathlib.Data.List.Basic
import TeenpattiUserServer.Shm.DeleteCuts
import TeenpattiUserServer.Shm.UpdateCuts

/-! A process that dies in the middle of a call on the shared table. The store
that is left depends on the number of writes that were done; `open` counts used
nodes, used buckets and free chunks, and takes any pool in which these agree. -/

namespace TeenpattiUserServer.Shm

open Store Intrusive HashMap ChunkAllocator

variable {Key : Type}

namespace Pool

/-- A node on its way to the front: after the two writes of its access it is unlinked
by the first write, or by the second when it is the first of several, and back with
the sixth. -/
def moveTorn (pool : Pool Key) (node writes : Nat) : Prop :=
  (if pool.addPrev node = none ∧ pool.addNext node ≠ none then 4 else 3) ≤ writes ∧ writes < 8

/-- A new node is counted and in its bucket, and not yet in the add list. -/
def insertTorn (pool : Pool Key) (data : List UInt8) (writes : Nat) : Prop :=
  let count := getChunkNum pool.chunks.chunkSize data.length
  pool.freeList ≠ none ∧ data ≠ [] ∧ (count : Int) ≤ pool.chunks.freeTotal ∧
    4 * count + 13 ≤ writes ∧ writes ≤ 4 * count + 16

/-- A new number of chunks: the old block is given back chunk by chunk, the node
keeps it until it has the new one. -/
def updateTorn (pool : Pool Key) (node : Nat) (data : List UInt8) (writes : Nat) : Prop :=
  let old := getChunkNum pool.chunks.chunkSize (pool.chunkLen node)
  let count := getChunkNum pool.chunks.chunkSize data.length
  old ≠ count ∧ (count : Int) ≤ pool.chunks.freeTotal + old ∧
    (0 < writes ∧ writes ≤ 3 * old ∧ writes % 3 ≠ 2 ∧ ¬(writes = 1 ∧ old = 1 ∧ pool.chunks.freeTotal = 0) ∨
      3 * old + 3 * count + 1 ≤ writes ∧ writes ≤ 3 * old + 4 * count + 2)

theorem updateTorn.positive {pool : Pool Key} {node writes : Nat} {data : List UInt8}
    (torn : pool.updateTorn node data writes) : 0 < writes := by
  obtain ⟨_, _, between⟩ := torn
  omega

/-- A node out of the add list, until an emptied bucket or the counter of used
nodes is noticed. -/
def deleteTorn (pool : Pool Key) (node start writes : Nat) : Prop :=
  start ≤ writes ∧ writes < if pool.nodeNext node ≠ none then 9 else if pool.nodePrev node ≠ none then 8 else 5

/-- The node that a visitor stands at after `steps` calls of `next`. -/
def visited (pool : Pool Key) (steps : Nat) : Option Nat :=
  ((walk pool.addNext pool.nodeTotal pool.addHead).getD [])[steps]?

end Pool

variable [DecidableEq Key]

/-- The numbers of writes after which the use leaves a torn pool that `open` takes.
A hit of `find_node` takes the first ten writes. -/
def Use.Torn (hash : Key → Nat) (pool : Pool Key) (writes : Nat) : Use Key → Prop
  | contains key => ∃ node, pool.seat hash key = some node ∧ pool.moveTorn node writes
  | find key _ => ∃ node, pool.seat hash key = some node ∧ pool.moveTorn node writes
  | insert _ data => pool.insertTorn data writes
  | setValue key data =>
    (∃ node, pool.seat hash key = some node ∧ (pool.moveTorn node writes ∨ 10 < writes ∧ pool.updateTorn node data (writes - 10))) ∨
      pool.seat hash key = none ∧ pool.insertTorn data writes
  | delete key => ∃ node, pool.seat hash key = some node ∧
      (pool.moveTorn node writes ∨ 10 < writes ∧ pool.deleteTorn node (if pool.usedNodeNum = 1 then 1 else 2) (writes - 10))
  | erase steps => ∃ node, pool.visited steps = some node ∧
      pool.deleteTorn node (if pool.addPrev node = none ∧ pool.addNext node ≠ none then 2 else 1) writes
  | updateData steps data => ∃ node, pool.visited steps = some node ∧ pool.updateTorn node data writes

variable {hash : Key → Nat} {para : HashPara} {pool : Pool Key} {layout : Layout} {node : Nat} {bad : Nat → Prop}

namespace HashMap.Laid

theorem exec_findNode_seat (laid : Laid hash pool layout) {key : Key} (seated : pool.seat hash key = some node) :
    Prog.exec (findNode hash key) pool =
      some (some node, pool.withAdd ((pool.addLinks.unlink node).pushFront node)) := by
  have bound := laid.buckets.bucketId_lt key
  have enough := (laid.buckets.chain_length_le bound).trans laid.recent_length_le
  have ran := exec_findLoop key (laid.buckets.linked _ bound).forward enough
  rw [laid.walk_seat] at seated
  rw [seated] at ran
  simpa [findNode, Pool.bucketLinks, exec_insertAddListHead] using ran

omit [DecidableEq Key] in
theorem visited_eq (laid : Laid hash pool layout) (steps : Nat) : pool.visited steps = layout.recent[steps]? := by
  have walked := laid.adds.forward.walk_eq laid.recent_length_le
  simp only [Pool.addLinks] at walked
  rw [Pool.visited, walked, Option.getD_some]

/-- Every interruption of the program is judged by `bad`. -/
private def Judged {α : Type} (para : HashPara) (bad : Nat → Prop) (program : Run Key α) (pool : Pool Key) : Prop :=
  ∃ total, (∀ k, bad k → 0 < k ∧ k < total) ∧ Prog.Cuts (Reopens para) bad program pool total

omit [DecidableEq Key] in
private theorem Judged.thenSilent {α β : Type} {first : Run Key α} {rest : α → Run Key β}
    (judged : Judged para bad first pool)
    (silent : ∀ value, Prog.Silent (rest value)) (ends : ∃ run, Prog.exec (first >>= rest) pool = some run) :
    Judged para bad (first >>= rest) pool := by
  obtain ⟨total, inside, cuts⟩ := judged
  obtain ⟨value, middle, ran⟩ := cuts.ends
  obtain ⟨⟨result, final⟩, ended⟩ := ends
  rw [Prog.exec_bind, ran, Option.bind_some] at ended
  exact ⟨total, inside, cuts.thenSkip ran ((silent value).run ended)⟩

omit [DecidableEq Key] in
private theorem exec_of_discard {α : Type} {program : Run Key α} {after : Pool Key}
    (ran : Prog.exec (do let _ ← program; pure ()) pool = some ((), after)) :
    ∃ run, Prog.exec program pool = some run := by
  rw [Prog.exec_bind] at ran
  obtain ⟨run, ended, _⟩ := Option.bind_eq_some_iff.mp ran
  exact ⟨run, ended⟩

omit [DecidableEq Key] in
private theorem Judged.discard {α : Type} {program : Run Key α} (judged : Judged para bad program pool) :
    Judged para bad (do let _ ← program; pure ()) pool := by
  obtain ⟨total, inside, cuts⟩ := judged
  obtain ⟨_, _, ran⟩ := cuts.ends
  exact ⟨total, inside, cuts.thenSkip ran rfl⟩

omit [DecidableEq Key] in
private theorem Judged.skipThen {α β : Type} {first : Run Key α} {rest : α → Run Key β} {value : α}
    (ran : first pool = some (value, pool, [])) (judged : Judged para bad (rest value) pool) :
    Judged para bad (first >>= rest) pool := by
  obtain ⟨total, inside, cuts⟩ := judged
  exact ⟨total, inside, cuts.skipThen ran⟩

omit [DecidableEq Key] in
private theorem Judged.quiet {α : Type} {program : Run Key α} {value : α} (ran : program pool = some (value, pool, []))
    (quiet : ∀ k, ¬ bad k) : Judged para bad program pool := ⟨0, fun k wrong => absurd wrong (quiet k), .silent ran⟩

omit [DecidableEq Key] in
private theorem judged_insertNode (laid : Laid hash pool layout) (shaped : pool.Shaped para) (key : Key)
    (data : List UInt8) (torn : ∀ k, bad k ↔ pool.insertTorn data k) :
    Judged para bad (insertNode hash key data) pool := by
  have counted : pool.chunks.freeTotal = layout.freeChunks.length := laid.stored.counted
  by_cases lack : layout.free = [] ∨ data = [] ∨
      layout.freeChunks.length < getChunkNum pool.chunks.chunkSize data.length
  · have quiet (k : Nat) : ¬ bad k := by
      rw [torn]
      rintro ⟨listed, filled, enough, _⟩
      rcases lack with noNode | noByte | noChunk
      · exact listed (by simpa [noNode] using laid.freeChain)
      · exact filled noByte
      · omega
    obtain ⟨total, cuts⟩ := laid.insert_fails_cuts shaped key data lack quiet
    exact ⟨total, fun k wrong => absurd wrong (quiet k), cuts⟩
  · simp only [not_or, not_lt] at lack
    obtain ⟨node, rest, free⟩ := List.exists_cons_of_ne_nil lack.1
    have listed : pool.freeList ≠ none := by simp [(free ▸ laid.freeChain).1]
    have window (k : Nat) : bad k ↔ 4 * getChunkNum pool.chunks.chunkSize data.length + 13 ≤ k ∧
        k ≤ 4 * getChunkNum pool.chunks.chunkSize data.length + 16 := by
      rw [torn]
      refine ⟨fun wrong => wrong.2.2.2, fun between => ⟨listed, lack.2.1, ?_, between⟩⟩
      rw [counted]
      exact Int.ofNat_le.mpr lack.2.2
    refine ⟨_, fun k wrong => ?_, laid.insert_cuts shaped key free lack.2.1 rfl lack.2.2 window⟩
    have between := (window k).mp wrong
    omega

omit [DecidableEq Key] in
private theorem judged_updateNode (laid : Laid hash pool layout) (shaped : pool.Shaped para)
    (member : node ∈ layout.recent)
    (data : List UInt8) (torn : ∀ k, bad k ↔ pool.updateTorn node data k) :
    Judged para bad (updateNode node data) pool := by
  have counted : pool.chunks.freeTotal = layout.freeChunks.length := laid.stored.counted
  have room (count old : Nat) : (count : Int) ≤ layout.freeChunks.length + old ↔ count ≤ layout.freeChunks.length + old := by
    omega
  have dry : (layout.freeChunks.length : Int) = 0 ↔ layout.freeChunks = [] := by
    rw [← List.length_eq_zero_iff]
    omega
  have window (k : Nat) := torn k
  simp only [Pool.updateTorn, counted, room, dry] at window
  obtain ⟨total, inside, cuts⟩ := laid.update_cuts shaped member rfl rfl window
  refine ⟨total, fun k wrong => ⟨?_, inside k wrong⟩, cuts⟩
  obtain ⟨_, _, between⟩ := (window k).mp wrong
  omega

omit [DecidableEq Key] in
private theorem judged_deleteNode (laid : Laid hash pool layout) (shaped : pool.Shaped para)
    (member : node ∈ layout.recent)
    {start : Nat} (starts : start = if pool.addPrev node = none ∧ pool.addNext node ≠ none then 2 else 1)
    (torn : ∀ k, bad k ↔ pool.deleteTorn node start k) : Judged para bad (deleteNode hash node) pool := by
  have positive : 0 < start := by
    rw [starts]
    split <;> omega
  obtain ⟨total, inside, cuts⟩ := laid.delete_cuts shaped member starts rfl fun k _ => torn k
  refine ⟨total, fun k wrong => ?_, cuts⟩
  have between := (torn k).mp wrong
  exact ⟨positive.trans_le between.1, between.2.trans_le inside⟩

omit [DecidableEq Key] in
private theorem silent_mergeNodeData (node : Nat) (dataLen : Int) :
    Prog.Silent (mergeNodeData node dataLen : Run Key (Int × Nat × List UInt8)) := by
  refine (Prog.Silent.read _).bind fun pool => .within (fun _ => rfl) (.ite (.pure _) ?_)
  exact (Prog.Silent.read _).bind fun total => (silent_mergeLoop _ _ _).bind fun bytes => .pure _

omit [DecidableEq Key] in
private theorem silent_visit (steps : Nat) : Prog.Silent (ShmHashMap.visit steps : Run Key Handler) := by
  induction steps with
  | zero => exact .read _
  | succ steps ih =>
    refine ih.bind fun found => ?_
    cases found with
    | none => exact .pure _
    | some node => exact .read _

private theorem found_cuts (laid : Laid hash pool layout) (shaped : pool.Shaped para) {key : Key}
    (seated : pool.seat hash key = some node) (torn : ∀ k, k ≤ 10 → (bad k ↔ pool.moveTorn node k)) :
    Prog.Cuts (Reopens para) bad (findNode hash key) pool 10 := by
  have accessed (k : Nat) (early : k ≤ 2) : ¬ bad k := by
    rw [torn k (by omega), Pool.moveTorn]
    split_ifs <;> omega
  refine laid.findNode_cuts seated (laid.reopens shaped) (accessed 1 (by omega)) (accessed 2 (by omega))
    (laid.touch_cuts shaped (laid.seat_mem seated) ?_ (fun k low high => ?_) fun k low high => ?_) <;>
    rw [torn _ (by omega), Pool.moveTorn] <;> split_ifs with behind <;> first | omega | simp [behind]

private theorem judged_findNode (laid : Laid hash pool layout) (shaped : pool.Shaped para) {key : Key}
    (seated : pool.seat hash key = some node) (torn : ∀ k, bad k ↔ pool.moveTorn node k) :
    Judged para bad (findNode hash key) pool := by
  refine ⟨10, fun k wrong => ?_, laid.found_cuts shaped seated fun k _ => torn k⟩
  have between := (torn k).mp wrong
  unfold Pool.moveTorn at between
  split_ifs at between <;> omega

/-- A hit, and what is done with the node. -/
private theorem judged_found {α : Type} (laid : Laid hash pool layout) (shaped : pool.Shaped para) {key : Key}
    (seated : pool.seat hash key = some node) {rest : Handler → Run Key α}
    (torn : ∀ k, k ≤ 10 → (bad k ↔ pool.moveTorn node k))
    (after : Judged para (fun k => bad (10 + k)) (rest (some node))
      (pool.withAdd ((pool.addLinks.unlink node).pushFront node))) :
    Judged para bad (findNode hash key >>= rest) pool := by
  obtain ⟨total, inside, cuts⟩ := after
  refine ⟨10 + total, fun k wrong => ?_, (laid.found_cuts shaped seated torn).bind (laid.exec_findNode_seat seated) cuts⟩
  by_cases early : k ≤ 10
  · have between := (torn k early).mp wrong
    unfold Pool.moveTorn at between
    split_ifs at between <;> omega
  · obtain ⟨later, rfl⟩ : ∃ later, k = 10 + later := ⟨k - 10, by omega⟩
    have between := inside later wrong
    omega

omit [DecidableEq Key] in
private theorem touched (laid : Laid hash pool layout) (member : node ∈ layout.recent) :
    Laid hash (pool.withAdd ((pool.addLinks.unlink node).pushFront node))
      { layout with recent := node :: layout.recent.erase node } := by
  obtain ⟨after, ran, laidAfter, _⟩ := laid.touch member
  obtain rfl := (Prod.mk.inj (Option.some.inj (ran.symm.trans (exec_insertAddListHead node)))).2
  exact laidAfter

private theorem judged_replaceNode (laid : Laid hash pool layout) (shaped : pool.Shaped para) (key : Key)
    (data : List UInt8) : Judged para (fun k => (Use.setValue key data).Torn hash pool k) (replaceNode hash key data) pool := by
  cases seated : pool.seat hash key with
  | none =>
    refine .skipThen (laid.findNode_misses seated) (laid.judged_insertNode shaped key data fun k => ?_)
    simp [Use.Torn, seated]
  | some node =>
    have laidAfter := laid.touched (laid.seat_mem seated)
    refine laid.judged_found shaped seated (fun k early => ?_)
      (laidAfter.judged_updateNode ⟨shaped.1, shaped.2, shaped.3, shaped.4⟩ (List.mem_cons_self ..) data fun k => ?_)
    · simp [Use.Torn, seated, not_lt.mpr early]
    · change _ ↔ pool.updateTorn node data k
      have moved : ¬ pool.moveTorn node (10 + k) := fun wrong => absurd wrong.2 (by omega)
      simpa [Use.Torn, seated, moved] using Pool.updateTorn.positive

private theorem judged_delete (laid : Laid hash pool layout) (shaped : pool.Shaped para) (key : Key) :
    Judged para (fun k => (Use.delete key).Torn hash pool k) (ShmHashMap.delete hash key) pool := by
  cases seated : pool.seat hash key with
  | none => exact .skipThen (laid.findNode_misses seated) (.quiet rfl (by simp [Use.Torn, seated]))
  | some node =>
    have member := laid.seat_mem seated
    have laidAfter := laid.touched member
    let start := if pool.usedNodeNum = 1 then 1 else 2
    have alone : layout.recent.erase node = [] ↔ pool.usedNodeNum = 1 := by
      rw [laid.buckets.counted, ← List.length_eq_zero_iff, (List.perm_cons_erase member).length_eq, List.length_cons]
      omega
    let links := (pool.addLinks.unlink node).pushFront node
    have holds : links.Holds ([] ++ node :: layout.recent.erase node) := laidAfter.adds
    have starts : start = if links.prev node = none ∧ links.next node ≠ none then 2 else 1 := by
      simp only [holds.prev_eq, holds.next_eq, List.getLast?_nil, ne_eq, List.head?_eq_none_iff, alone, start, true_and, ite_not]
    refine laid.judged_found shaped seated (fun k early => ?_)
      (laidAfter.judged_deleteNode ⟨shaped.1, shaped.2, shaped.3, shaped.4⟩ (List.mem_cons_self ..) starts fun k => ?_)
    · simp [Use.Torn, seated, not_lt.mpr early]
    · change _ ↔ pool.deleteTorn node start k
      have moved : ¬ pool.moveTorn node (10 + k) := fun wrong => absurd wrong.2 (by omega)
      have positive : pool.deleteTorn node start k → 0 < k := fun wrong => by
        have low : 0 < start := by
          simp only [start]
          split <;> omega
        exact low.trans_le wrong.1
      simpa [Use.Torn, seated, moved, start] using positive

/-- What each interruption of a use leaves. -/
private theorem judged_use (laid : Laid hash pool layout) (shaped : pool.Shaped para) (use : Use Key) :
    Judged para (fun k => use.Torn hash pool k) (use.run hash) pool := by
  obtain ⟨after, ran, _⟩ := laid.exec_use use
  cases use with
  | contains key =>
    cases seated : pool.seat hash key with
    | none =>
      have missed : ShmHashMap.contains hash key pool = some (false, pool, []) := by
        simp [ShmHashMap.contains, Bind.bind, laid.findNode_misses seated, Pure.pure]
      exact .skipThen missed (.quiet rfl (by simp [Use.Torn, seated]))
    | some node =>
      have judged : Judged para (fun k => (Use.contains key).Torn hash pool k) (findNode hash key) pool :=
        laid.judged_findNode shaped seated fun k => by simp [Use.Torn, seated]
      exact (judged.thenSilent (fun _ => .pure _) (exec_of_discard ran)).discard
  | find key bufLen =>
    cases seated : pool.seat hash key with
    | none =>
      have missed : ShmHashMap.find hash key bufLen pool = some (⟨-1, bufLen, []⟩, pool, []) := by
        simp [ShmHashMap.find, Bind.bind, laid.findNode_misses seated, Pure.pure]
      exact .skipThen missed (.quiet rfl (by simp [Use.Torn, seated]))
    | some node =>
      have judged : Judged para (fun k => (Use.find key bufLen).Torn hash pool k) (findNode hash key) pool :=
        laid.judged_findNode shaped seated fun k => by simp [Use.Torn, seated]
      refine (judged.thenSilent (fun found => ?_) (exec_of_discard ran)).discard
      cases found with
      | none => exact .pure _
      | some node => exact (silent_mergeNodeData node bufLen).bind fun _ => .pure _
  | insert key data =>
    have judged : Judged para (fun k => (Use.insert key data).Torn hash pool k) (insertNode hash key data) pool :=
      laid.judged_insertNode shaped key data fun _ => .rfl
    refine (judged.thenSilent (fun found => ?_) (exec_of_discard ran)).discard
    cases found <;> exact .pure _
  | setValue key data =>
    refine ((laid.judged_replaceNode shaped key data).thenSilent (fun found => ?_) (exec_of_discard ran)).discard
    cases found <;> exact .pure _
  | delete key => exact (laid.judged_delete shaped key).discard
  | erase steps =>
    have visits := (silent_visit steps).run (laid.exec_visit steps)
    refine .skipThen visits ?_
    cases visited : layout.recent[steps]? with
    | none => exact .discard (.quiet rfl (by simp [Use.Torn, laid.visited_eq, visited]))
    | some node =>
      refine .discard (laid.judged_deleteNode shaped (List.mem_of_getElem? visited) rfl fun k => ?_)
      simp [Use.Torn, laid.visited_eq, visited]
  | updateData steps data =>
    have visits := (silent_visit steps).run (laid.exec_visit steps)
    refine .skipThen visits ?_
    cases visited : layout.recent[steps]? with
    | none => exact .discard (.quiet rfl (by simp [Use.Torn, laid.visited_eq, visited]))
    | some node =>
      rw [Use.run, Prog.exec_bind, laid.exec_visit, visited] at ran
      have judged : Judged para (fun k => (Use.updateData steps data).Torn hash pool k) (updateNode node data) pool :=
        laid.judged_updateNode shaped (List.mem_of_getElem? visited) data fun k => by
          simp [Use.Torn, laid.visited_eq, visited]
      refine (judged.thenSilent (fun found => ?_) (exec_of_discard ran)).discard
      cases found <;> exact .pure _

/-- What is left of a laid out pool when the process dies in the middle of a use. -/
theorem cutOff_use (laid : Laid hash pool layout) (shaped : pool.Shaped para) (use : Use Key) (writes : Nat) :
    ∃ remains, Prog.cutOff writes (use.run hash) pool = some remains ∧
      (Reopens para remains ↔ ¬ use.Torn hash pool writes) := by
  obtain ⟨total, inside, cuts⟩ := laid.judged_use shaped use
  exact cuts.cutOff (laid.reopens shaped) inside writes

end HashMap.Laid

/-- A later `open` with `init = false` ends, with an error or on an intact pool,
exactly when the process did not die in one of the torn stretches of its call. -/
theorem reopens_after_crash_iff (hash : Key → Nat) (para : HashPara) (buckets : 0 < para.bucketSize)
    (chunks : 0 < para.chunkSize) (pool : Pool Key) (left : Left hash para pool) (use : Use Key) (writes : Nat) :
    ∃ remains, Prog.cutOff writes (use.run hash) pool = some remains ∧
      (Reopens para remains ↔ ¬ use.Torn hash pool writes) := by
  obtain ⟨⟨layout, laid⟩, shaped⟩ := left.sound buckets chunks
  exact laid.cutOff_use shaped use writes

/-- An empty table of one node and one chunk, on memory full of zeros. -/
private theorem left_empty : ∃ (pool : Pool Nat) (layout : Layout), Left id ⟨1, 1, 1, 4⟩ pool ∧ Laid id pool layout ∧
    pool.Shaped ⟨1, 1, 1, 4⟩ ∧ layout.recent = [] ∧ layout.free = [0] ∧ layout.freeChunks = [0] := by
  let memory : Pool Nat := ⟨0, 0, 0, 0, none, none, none, fun _ => none, fun _ => 0, fun _ => 0, fun _ => none,
    fun _ => none, fun _ => none, fun _ => none, fun _ => none, ⟨0, 0, 0, none, fun _ => none, fun _ => []⟩⟩
  let para : HashPara := ⟨1, 1, 1, 4⟩
  have buckets : 0 < para.bucketSize := by decide
  have chunks : 0 < para.chunkSize := by decide
  have fresh : SVShm.forceOpenAndAttach ⟨5, false, 0, 0, 0, 0, false⟩ = (0, 1) := rfl
  obtain ⟨pool, opened, laid, shaped⟩ := exec_init_fresh buckets chunks fresh 0 (.inl (by decide)) id memory
  exact ⟨pool, _, .created fresh opened, laid, shaped, rfl, rfl, rfl⟩

theorem reopens_after_crash_iff_empty : ∃ pool remains : Pool Nat, Left id ⟨1, 1, 1, 4⟩ pool ∧
    Prog.cutOff 16 ((Use.insert 7 [1]).run id) pool = some remains ∧
      (Reopens ⟨1, 1, 1, 4⟩ remains ↔ ¬ (Use.insert 7 [1]).Torn id pool 16) := by
  obtain ⟨pool, _, left, _⟩ := left_empty
  obtain ⟨remains, cut, judged⟩ :=
    reopens_after_crash_iff id ⟨1, 1, 1, 4⟩ (by decide) (by decide) pool left (.insert 7 [1]) 16
  exact ⟨pool, remains, left, cut, judged⟩

/-- The first insertion dies after 17 writes: the new user is in its bucket, and no
visitor will ever meet it. -/
theorem crash_hides_user : ¬ ∀ pool : Pool Nat, Left id ⟨1, 1, 1, 4⟩ pool → ∀ key data writes,
    pool.lookup id key = none → ∃ remains, Prog.cutOff writes ((Use.insert key data).run id) pool = some remains ∧
      Reopens ⟨1, 1, 1, 4⟩ remains := by
  intro safe
  obtain ⟨pool, layout, left, laid, shaped, empty, nodes, chunks⟩ := left_empty
  obtain ⟨remains, cut, reopens⟩ := safe pool left 7 [1] 17 (laid.lookup_empty empty 7)
  obtain ⟨_, same, judged⟩ := laid.cutOff_use shaped (.insert 7 [1]) 17
  obtain rfl := Option.some.inj (cut.symm.trans same)
  refine judged.mp reopens ⟨?_, by decide, ?_, ?_⟩
  · simp [(nodes ▸ laid.freeChain).1]
  · rw [shaped.chunkSize, laid.stored.counted, chunks]
    decide
  · rw [shaped.chunkSize]
    decide

end TeenpattiUserServer.Shm
