import Mathlib.Data.List.AList
import TeenpattiUserServer.Shm.Operations
import TeenpattiUserServer.Shm.ShmHashMap

/-! What the table is for: a keyed store of byte strings in the order of their
last access, with a budget of nodes and chunks. The pool refines it. -/

namespace TeenpattiUserServer.Shm

open Store HashMap ChunkAllocator

/-- The keys are distinct and the most recently accessed one comes first. -/
structure Table (Key : Type) where
  entries : AList fun _ : Key => List UInt8
  freeNodes : Nat
  freeChunks : Nat
  chunkSize : Nat

namespace Table

variable {Key : Type} [DecidableEq Key]

def chunksFor (table : Table Key) (data : List UInt8) : Nat := getChunkNum table.chunkSize data.length

def touch (table : Table Key) (key : Key) : Table Key :=
  match table.entries.lookup key with
  | none => table
  | some data => { table with entries := table.entries.insert key data }

/-- The place of a key does not matter once it is taken out. -/
theorem touch_erase (table : Table Key) (key : Key) :
    (table.touch key).entries.erase key = table.entries.erase key := by
  cases found : table.entries.lookup key with
  | none => simp [touch, found]
  | some data =>
    simp only [touch, found]
    apply AList.ext
    change List.kerase key (table.entries.insert key data).entries = List.kerase key table.entries.entries
    rw [AList.entries_insert]
    exact List.kerase_cons_eq rfl

def find (table : Table Key) (key : Key) (bufLen : Int) : Reply × Table Key :=
  match table.entries.lookup key with
  | none => (⟨-1, bufLen, []⟩, table)
  | some data =>
    (if bufLen < data.length then ⟨errorInvalidParam, data.length, []⟩ else ⟨0, data.length, data⟩, table.touch key)

/-- Insertion of a key that is not in the table. -/
def add (table : Table Key) (key : Key) (data : List UInt8) : Int × Table Key :=
  if table.freeNodes = 0 ∨ data = [] ∨ table.freeChunks < table.chunksFor data then (-1, table)
  else (0, { table with
    entries := table.entries.insert key data, freeNodes := table.freeNodes - 1
    freeChunks := table.freeChunks - table.chunksFor data })

def setValue (table : Table Key) (key : Key) (data : List UInt8) : Int × Table Key :=
  match table.entries.lookup key with
  | none => table.add key data
  | some old =>
    if table.freeChunks + table.chunksFor old < table.chunksFor data then (-1, table.touch key)
    else (0, { table with
      entries := table.entries.insert key data
      freeChunks := table.freeChunks + table.chunksFor old - table.chunksFor data })

def delete (table : Table Key) (key : Key) : Int × Table Key :=
  match table.entries.lookup key with
  | none => (-1, table)
  | some old =>
    (0, { table with
      entries := table.entries.erase key, freeNodes := table.freeNodes + 1
      freeChunks := table.freeChunks + table.chunksFor old })

end Table

variable {Key : Type} {hash : Key → Nat} {pool : Pool Key} {layout : Layout} {node : Nat}

/-- The pool holds exactly the entries and the free room of the table. -/
structure Represents (pool : Pool Key) (layout : Layout) (table : Table Key) : Prop where
  entries : layout.recent.map pool.entry = table.entries.entries
  freeNodes : layout.free.length = table.freeNodes
  freeChunks : layout.freeChunks.length = table.freeChunks
  chunkSize : pool.chunks.chunkSize = table.chunkSize

/-- The pool is laid out and stores the table. -/
def Refines (hash : Key → Nat) (pool : Pool Key) (table : Table Key) : Prop :=
  ∃ layout, Laid hash pool layout ∧ Represents pool layout table

namespace Represents

variable {table : Table Key}

/-- Different used nodes have different keys. -/
theorem key_ne (represents : Represents pool layout table) (distinct : layout.recent.Nodup)
    (member : node ∈ layout.recent) {other : Nat} (inside : other ∈ layout.recent.erase node) :
    pool.key other ≠ pool.key node := by
  intro same
  have keys : (layout.recent.map pool.key).Nodup := by
    have unique := table.entries.nodupKeys
    rw [← represents.entries] at unique
    simpa [List.NodupKeys, List.keys, Function.comp_def, Pool.entry] using unique
  have equal := List.inj_on_of_nodup_map keys (List.mem_of_mem_erase inside) member same
  exact (distinct.mem_erase_iff.mp inside).1 equal

variable [DecidableEq Key]

theorem lookup (represents : Represents pool layout table) (member : node ∈ layout.recent) :
    table.entries.lookup (pool.key node) = some (pool.bytes node) := by
  have inside : pool.entry node ∈ table.entries.entries :=
    represents.entries ▸ List.mem_map_of_mem member
  exact AList.mem_lookup_iff.mpr inside

theorem lookup_none (represents : Represents pool layout table) {key : Key}
    (absent : ∀ node ∈ layout.recent, pool.key node ≠ key) : table.entries.lookup key = none := by
  refine Option.eq_none_iff_forall_ne_some.mpr fun data found => ?_
  have inside : (⟨key, data⟩ : (_ : Key) × List UInt8) ∈ layout.recent.map pool.entry :=
    represents.entries ▸ AList.mem_lookup_iff.mp found
  obtain ⟨node, member, same⟩ := List.mem_map.mp inside
  exact absent node member (congrArg Sigma.fst same)

/-- Reading the bucket finds what the table stores. -/
theorem pool_lookup (represents : Represents pool layout table) (laid : Laid hash pool layout) (key : Key) :
    pool.lookup hash key = table.entries.lookup key := by
  have bound := laid.buckets.bucketId_lt key
  rw [Pool.lookup, laid.walk_bucket key, Option.getD_some]
  cases search : (layout.chain (getBucketId hash pool key)).find? fun node => pool.key node = key with
  | some node =>
    have same : pool.key node = key := by simpa using List.find?_some search
    have member := laid.buckets.hung_of_mem bound (List.mem_of_find?_eq_some search)
    rw [← same, represents.lookup member, Option.map_some]
  | none =>
    refine (represents.lookup_none fun node member same => ?_).symm
    have here := (laid.buckets.members node).mp member
    rw [same] at here
    have missed := List.find?_eq_none.mp search node here
    simp [same] at missed

/-- Taking a node out of the add list takes its key out of the table. -/
theorem erase (represents : Represents pool layout table) (distinct : layout.recent.Nodup)
    (member : node ∈ layout.recent) :
    (layout.recent.erase node).map pool.entry = (table.entries.erase (pool.key node)).entries := by
  change _ = List.kerase (pool.key node) table.entries.entries
  rw [← represents.entries]
  obtain ⟨front, back, shape⟩ := List.append_of_mem member
  have apart : node ∉ front := fun twice =>
    (List.nodup_append.mp (shape ▸ distinct)).2.2 node twice node (by simp) rfl
  have rest : layout.recent.erase node = front ++ back := by
    rw [shape, List.erase_append_right _ apart, List.erase_cons_head]
  have absent : pool.key node ∉ (front.map pool.entry).keys := by
    intro inside
    simp only [List.keys, List.map_map, List.mem_map] at inside
    obtain ⟨other, before, same⟩ := inside
    exact represents.key_ne distinct member (rest ▸ List.mem_append_left back before) same
  rw [rest, shape, List.map_append, List.map_append, List.map_cons, List.kerase_append_right absent,
    List.kerase_cons_eq (show pool.key node = (pool.entry node).1 from rfl)]

/-- A node moved to the front with new bytes is an insertion into the table. -/
theorem promote (represents : Represents pool layout table) (distinct : layout.recent.Nodup)
    (member : node ∈ layout.recent) {after : Pool Key} {data : List UInt8}
    (written : after.entry node = ⟨pool.key node, data⟩)
    (kept : ∀ other ∈ layout.recent.erase node, after.entry other = pool.entry other) :
    (node :: layout.recent.erase node).map after.entry =
      (table.entries.insert (pool.key node) data).entries := by
  rw [List.map_cons, List.map_congr_left kept, represents.erase distinct member, written, AList.entries_insert]
  rfl

end Represents

variable {table : Table Key} [DecidableEq Key]

/-- `find_node` returns the node of the key, now in front, or nothing. -/
theorem exec_findNode (laid : Laid hash pool layout) (represents : Represents pool layout table)
    (key : Key) :
    (∃ node data rest after, table.entries.lookup key = some data ∧
      Prog.exec (findNode hash key) pool = some (some node, after) ∧
      Laid hash after { layout with recent := node :: rest } ∧
      Represents after { layout with recent := node :: rest } (table.touch key) ∧
      pool.SameShape after ∧ after.key node = key ∧ after.bytes node = data) ∨
    (table.entries.lookup key = none ∧ Prog.exec (findNode hash key) pool = some (none, pool)) := by
  rcases laid.find key with ⟨node, member, rfl, after, ran, laidAfter, shape, kept⟩ | ⟨absent, ran⟩
  · have found := represents.lookup member
    refine .inl ⟨node, pool.bytes node, _, after, found, ran, laidAfter, ⟨?_, ?_, ?_, ?_⟩, shape, ?_, ?_⟩
    · simp only [Table.touch, found]
      exact represents.promote laid.adds.nodup member (congrFun kept node) fun other _ => congrFun kept other
    · simpa [Table.touch, found] using represents.freeNodes
    · simpa [Table.touch, found] using represents.freeChunks
    · simpa [Table.touch, found] using shape.chunkSize.trans represents.chunkSize
    · exact congrArg Sigma.fst (congrFun kept node)
    · exact eq_of_heq (Sigma.mk.inj (congrFun kept node)).2
  · exact .inr ⟨represents.lookup_none absent, ran⟩

namespace Refines

theorem find (refines : Refines hash pool table) (key : Key) (bufLen : Int) :
    ∃ after, Prog.exec (ShmHashMap.find hash key bufLen) pool = some ((table.find key bufLen).1, after) ∧
      Refines hash after (table.find key bufLen).2 ∧ pool.SameShape after ∧ pool.SameFree after := by
  obtain ⟨layout, laid, represents⟩ := refines
  rcases exec_findNode laid represents key with
    ⟨node, data, rest, after, found, ran, laidAfter, touched, shape, _, bytes⟩ | ⟨missing, ran⟩
  · have merged := laidAfter.merge (List.mem_cons_self ..) bufLen
    refine ⟨after, ?_, ⟨_, laidAfter, ?_⟩, shape, laid.sameFree laidAfter rfl rfl⟩
    · simp only [ShmHashMap.find, Prog.exec_bind, ran, Option.bind_some, merged, bytes, Table.find, found]
      by_cases short : bufLen < (data.length : Int) <;> simp [short]
    · simpa [Table.find, found] using touched
  · exact ⟨pool, by simp [ShmHashMap.find, ran, Table.find, missing],
      by simpa [Table.find, missing] using ⟨layout, laid, represents⟩, .refl pool, .refl pool⟩

private theorem exec_insertNode (laid : Laid hash pool layout) (represents : Represents pool layout table)
    {key : Key} (absent : table.entries.lookup key = none) (data : List UInt8) :
    ∃ found after, Prog.exec (insertNode hash key data) pool = some (found, after) ∧
      (if found = none then (-1 : Int) else 0) = (table.add key data).1 ∧
      Refines hash after (table.add key data).2 ∧ pool.SameShape after ∧
      ((table.add key data).1 ≠ 0 → pool.SameFree after) := by
  have need : getChunkNum pool.chunks.chunkSize data.length = table.chunksFor data := by
    rw [represents.chunkSize, Table.chunksFor]
  by_cases lack : table.freeNodes = 0 ∨ data = [] ∨ table.freeChunks < table.chunksFor data
  · have failed := laid.insert_fails key data (by
      rw [need, represents.freeChunks, ← List.length_eq_zero_iff, represents.freeNodes]
      exact lack)
    refine ⟨none, pool, failed, ?_, ?_, .refl pool, fun _ => .refl pool⟩
    · simp [Table.add, lack]
    · simpa [Table.add, lack] using ⟨layout, laid, represents⟩
  · obtain ⟨some, filled, enough⟩ : table.freeNodes ≠ 0 ∧ data ≠ [] ∧ table.chunksFor data ≤ table.freeChunks := by
      simpa [not_or] using lack
    obtain ⟨node, rest, free⟩ := List.exists_cons_of_length_pos
      (Nat.pos_of_ne_zero (represents.freeNodes.trans_ne some))
    obtain ⟨after, chain, block, ran, laidAfter, shape, written, kept⟩ :=
      laid.insert key free filled (by rw [need, represents.freeChunks]; exact enough)
    refine ⟨_, after, ran, by simp [Table.add, lack], ⟨_, laidAfter, ?_⟩, shape, by simp [Table.add, lack]⟩
    rw [Table.add, if_neg lack]
    refine ⟨?_, ?_, ?_, shape.chunkSize.trans represents.chunkSize⟩
    · have fresh : key ∉ table.entries := AList.lookup_eq_none.mp absent
      rw [AList.entries_insert_of_notMem fresh, ← represents.entries, List.map_cons, written,
        List.map_congr_left kept]
    · have length := represents.freeNodes
      rw [free] at length
      simp only [List.length_cons] at length ⊢
      omega
    · simp only [List.length_drop, represents.freeChunks, need]

theorem insert (refines : Refines hash pool table) {key : Key} (absent : table.entries.lookup key = none)
    (data : List UInt8) :
    ∃ after, Prog.exec (ShmHashMap.insert hash key data) pool = some ((table.add key data).1, after) ∧
      Refines hash after (table.add key data).2 ∧ pool.SameShape after ∧
      ((table.add key data).1 ≠ 0 → pool.SameFree after) := by
  obtain ⟨layout, laid, represents⟩ := refines
  obtain ⟨found, after, ran, ret, refinesAfter, shape, failed⟩ := exec_insertNode laid represents absent data
  refine ⟨after, ?_, refinesAfter, shape, failed⟩
  cases found <;> simp [ShmHashMap.insert, ran, ← ret]

private theorem exec_updateNode {rest : List Nat} (laid : Laid hash pool { layout with recent := node :: rest })
    (represents : Represents pool { layout with recent := node :: rest } table) (data : List UInt8)
    (enough : table.chunksFor data ≤ table.freeChunks + table.chunksFor (pool.bytes node)) :
    ∃ after, Prog.exec (updateNode node data) pool = some (some node, after) ∧
      Refines hash after { table with
        entries := table.entries.insert (pool.key node) data
        freeChunks := table.freeChunks + table.chunksFor (pool.bytes node) - table.chunksFor data } ∧
      pool.SameShape after := by
  have member : node ∈ node :: rest := List.mem_cons_self ..
  have absent : node ∉ rest := (List.nodup_cons.mp laid.adds.nodup).1
  have old : getChunkNum pool.chunks.chunkSize (pool.chunkLen node) = table.chunksFor (pool.bytes node) := by
    rw [represents.chunkSize, Table.chunksFor, laid.filled node member]
  have need : getChunkNum pool.chunks.chunkSize data.length = table.chunksFor data := by
    rw [represents.chunkSize, Table.chunksFor]
  obtain ⟨after, block, freeChunks, ran, laidAfter, balance, shape, written, kept⟩ :=
    laid.update member (by rw [old, need, represents.freeChunks]; exact enough)
  refine ⟨after, ran, ⟨_, laidAfter, ?_, represents.freeNodes, ?_, shape.chunkSize.trans represents.chunkSize⟩, shape⟩
  · have moved := represents.promote laid.adds.nodup member written fun other inside =>
      kept other (List.mem_of_mem_erase inside) fun same => absent (by simpa [same] using inside)
    rw [List.erase_cons_head] at moved
    exact moved
  · rw [old, need, represents.freeChunks] at balance
    change freeChunks.length = table.freeChunks + table.chunksFor (pool.bytes node) - table.chunksFor data
    omega

theorem setValue (refines : Refines hash pool table) (key : Key) (data : List UInt8) :
    ∃ after, Prog.exec (ShmHashMap.setValue hash key data) pool = some ((table.setValue key data).1, after) ∧
      Refines hash after (table.setValue key data).2 ∧ pool.SameShape after ∧
      ((table.setValue key data).1 ≠ 0 → pool.SameFree after) := by
  obtain ⟨layout, laid, represents⟩ := refines
  rcases exec_findNode laid represents key with
    ⟨node, old, rest, middle, found, ran, laidMiddle, touched, shape, rfl, rfl⟩ | ⟨missing, ran⟩
  · have chunks : (table.touch (middle.key node)).freeChunks = table.freeChunks := by simp [Table.touch, found]
    have counts : (table.touch (middle.key node)).chunksFor = table.chunksFor := by
      funext bytes
      simp [Table.touch, found, Table.chunksFor]
    by_cases lack : table.freeChunks + table.chunksFor (middle.bytes node) < table.chunksFor data
    · have failed := laidMiddle.update_fails node data (by
        rw [laidMiddle.filled node (List.mem_cons_self ..) |>.symm, touched.freeChunks, chunks, touched.chunkSize]
        simpa [Table.touch, found, Table.chunksFor] using lack)
      refine ⟨middle, ?_, ?_, shape, fun _ => laid.sameFree laidMiddle rfl rfl⟩
      · simp [ShmHashMap.setValue, replaceNode, ran, failed, Table.setValue, found, lack]
      · simpa [Table.setValue, found, lack] using ⟨_, laidMiddle, touched⟩
    · obtain ⟨after, updated, refinesAfter, shapeAfter⟩ := exec_updateNode laidMiddle touched data (by
        rw [counts, chunks]
        omega)
      refine ⟨after, ?_, ?_, shape.trans shapeAfter, by simp [Table.setValue, found, lack]⟩
      · simp [ShmHashMap.setValue, replaceNode, ran, updated, Table.setValue, found, lack]
      · rw [counts, chunks] at refinesAfter
        simpa [Table.setValue, found, lack, Table.touch, AList.insert_insert] using refinesAfter
  · obtain ⟨result, after, inserted, ret, refinesAfter, shape, failed⟩ := exec_insertNode laid represents missing data
    refine ⟨after, ?_, by simpa [Table.setValue, missing] using refinesAfter, shape,
      by simpa [Table.setValue, missing] using failed⟩
    cases result <;> simp [ShmHashMap.setValue, replaceNode, ran, inserted, Table.setValue, missing, ← ret]

theorem delete (refines : Refines hash pool table) (key : Key) :
    ∃ after, Prog.exec (ShmHashMap.delete hash key) pool = some ((table.delete key).1, after) ∧
      Refines hash after (table.delete key).2 ∧ pool.SameShape after ∧
      ((table.delete key).1 ≠ 0 → pool.SameFree after) := by
  obtain ⟨layout, laid, represents⟩ := refines
  rcases exec_findNode laid represents key with
    ⟨node, old, rest, middle, found, ran, laidMiddle, touched, shape, rfl, rfl⟩ | ⟨missing, ran⟩
  · have member : node ∈ node :: rest := List.mem_cons_self ..
    obtain ⟨after, chain, freeChunks, deleted, laidAfter, freed, shapeAfter, kept⟩ := laidMiddle.delete member
    have gone := touched.erase laidMiddle.adds.nodup member
    refine ⟨after, by simp [ShmHashMap.delete, ran, deleted, Table.delete, found], ⟨_, laidAfter, ?_⟩,
      shape.trans shapeAfter, by simp [Table.delete, found]⟩
    have count : getChunkNum middle.chunks.chunkSize (middle.chunkLen node) = table.chunksFor (middle.bytes node) := by
      rw [shape.chunkSize, represents.chunkSize, Table.chunksFor, laidMiddle.filled node member]
    simp only [Table.delete, found]
    refine ⟨?_, ?_, ?_, (shape.trans shapeAfter).chunkSize.trans represents.chunkSize⟩
    · rw [List.map_congr_left kept, gone, table.touch_erase]
    · exact congrArg (· + 1) represents.freeNodes
    · rw [freed, count]
      exact congrArg (· + _) represents.freeChunks
  · exact ⟨pool, by simp [ShmHashMap.delete, ran, Table.delete, missing],
      by simpa [Table.delete, missing] using ⟨layout, laid, represents⟩, .refl pool, fun _ => .refl pool⟩

end Refines

end TeenpattiUserServer.Shm
