import TeenpattiUserServer.Shm.Operations
import TeenpattiUserServer.Shm.ShmHashMap

/-! The uses of the table, and what a use can do to the used nodes: nothing, move one to
the front, take one out or put a new one in. -/

namespace TeenpattiUserServer.Shm

open Store Intrusive HashMap ChunkAllocator

variable {Key : Type} [DecidableEq Key]

/-- Any use of the table: its interface, and a visitor that erases or rewrites
the entry `steps` places behind the front. -/
inductive Use (Key : Type) where
  | contains (key : Key)
  | find (key : Key) (bufLen : Int)
  | insert (key : Key) (data : List UInt8)
  | setValue (key : Key) (data : List UInt8)
  | delete (key : Key)
  | erase (steps : Nat)
  | updateData (steps : Nat) (data : List UInt8)

def Use.run (hash : Key → Nat) : Use Key → Run Key Unit
  | contains key => do let _ ← ShmHashMap.contains hash key
  | find key bufLen => do let _ ← ShmHashMap.find hash key bufLen
  | insert key data => do let _ ← ShmHashMap.insert hash key data
  | setValue key data => do let _ ← ShmHashMap.setValue hash key data
  | delete key => do let _ ← ShmHashMap.delete hash key
  | erase steps => do let _ ← ShmHashMap.erase hash (← ShmHashMap.visit steps)
  | updateData steps data => do let _ ← ShmHashMap.updateData (← ShmHashMap.visit steps) data

namespace Pool

/-- The node that a lookup of the key finds. -/
def hit (hash : Key → Nat) (pool : Pool Key) (key : Key) : Option Nat := (Prog.exec (findNode hash key) pool).bind (·.1)

/-- The node that an insertion takes. -/
def taken (hash : Key → Nat) (pool : Pool Key) (key : Key) (data : List UInt8) : Option Nat :=
  (Prog.exec (insertNode hash key data) pool).bind (·.1)

end Pool

/-- The node a use accesses: it is inserted, or a lookup finds it. -/
def Use.access (hash : Key → Nat) (pool : Pool Key) : Use Key → Option Nat
  | contains key => pool.hit hash key
  | find key _ => pool.hit hash key
  | insert key data => pool.taken hash key data
  | setValue key data => (pool.hit hash key).or (pool.taken hash key data)
  | delete key => pool.hit hash key
  | erase _ => none
  | updateData _ _ => none

/-- There is no free node, no byte to store, or not the chunks for them. -/
def Layout.Lacks (layout : Layout) (chunkSize : Nat) (data : List UInt8) : Prop :=
  layout.free = [] ∨ data = [] ∨ layout.freeChunks.length < getChunkNum chunkSize data.length

/-- What becomes of the used nodes, and which of them was accessed. -/
inductive Use.Effect (hash : Key → Nat) (pool : Pool Key) (layout : Layout) (use : Use Key) (after : Pool Key)
    (next : Layout) : Prop
  | rests (access : use.access hash pool = none) (recent : next.recent = layout.recent)
      (refused : ∀ key data, use = .insert key data → layout.Lacks pool.chunks.chunkSize data)
  | moves (node : Nat) (access : use.access hash pool = some node) (member : node ∈ layout.recent)
      (recent : next.recent = node :: layout.recent.erase node) (other : ∀ key data, use ≠ .insert key data)
  | removes (node : Nat) (access : use.access hash pool = none ∨ use.access hash pool = some node)
      (member : node ∈ layout.recent) (recent : next.recent = layout.recent.erase node)
      (other : ∀ key data, use ≠ .insert key data)
  | adds (node : Nat) (key : Key) (data : List UInt8) (access : use.access hash pool = some node)
      (fresh : node ∉ layout.recent) (recent : next.recent = node :: layout.recent) (own : after.key node = key)
      (asked : use = .insert key data ∧ ¬ layout.Lacks pool.chunks.chunkSize data ∨
        use = .setValue key data ∧ ∀ other ∈ layout.recent, pool.key other ≠ key)

variable {hash : Key → Nat} {pool : Pool Key} {layout : Layout} {node : Nat}

namespace HashMap.Laid

omit [DecidableEq Key] in
theorem exec_visit (laid : Laid hash pool layout) (steps : Nat) :
    Prog.exec (ShmHashMap.visit steps) pool = some (layout.recent[steps]?, pool) := by
  induction steps with
  | zero =>
    have atHead : pool.addHead = layout.recent.head? := laid.adds.head_eq
    simp [ShmHashMap.visit, atHead, List.head?_eq_getElem?]
  | succ steps ih =>
    simp only [ShmHashMap.visit, Prog.exec_bind, ih, Option.bind_some]
    cases found : layout.recent[steps]? with
    | none =>
      have short := List.getElem?_eq_none_iff.mp found
      simp [List.getElem?_eq_none_iff.mpr (show layout.recent.length ≤ steps + 1 by omega)]
    | some node =>
      obtain ⟨bound, here⟩ := List.getElem?_eq_some_iff.mp found
      have split : layout.recent = layout.recent.take steps ++ node :: layout.recent.drop (steps + 1) := by
        rw [← here, List.getElem_cons_drop, List.take_append_drop]
      have after : pool.addNext node = (layout.recent.drop (steps + 1)).head? := (split ▸ laid.adds).next_eq
      simp [after, List.head?_drop]

/-- A use does not fault, keeps the table laid out and the keys of the nodes that stay. -/
theorem use_effect (laid : Laid hash pool layout) (use : Use Key) :
    ∃ after next, Prog.exec (use.run hash) pool = some ((), after) ∧ Laid hash after next ∧ pool.SameShape after ∧
      (∀ other ∈ layout.recent, other ∈ next.recent → after.key other = pool.key other) ∧
      use.Effect hash pool layout after next := by
  cases use with
  | contains key =>
    rcases laid.find key with ⟨node, member, _, after, ran, laidAfter, shape, kept⟩ | ⟨_, ran⟩
    · refine ⟨after, _, by simp [Use.run, ShmHashMap.contains, ran], laidAfter, shape, ?_, ?_⟩
      · exact fun other _ _ => congrArg Sigma.fst (congrFun kept other)
      · exact .moves node (by simp [Use.access, Pool.hit, ran]) member rfl (by simp)
    · refine ⟨pool, layout, by simp [Use.run, ShmHashMap.contains, ran], laid, .refl pool, fun _ _ _ => rfl, ?_⟩
      exact .rests (by simp [Use.access, Pool.hit, ran]) rfl (by simp)
  | find key bufLen =>
    rcases laid.find key with ⟨node, member, _, after, ran, laidAfter, shape, kept⟩ | ⟨_, ran⟩
    · have merged := laidAfter.merge (List.mem_cons_self ..) bufLen
      refine ⟨after, _, by simp [Use.run, ShmHashMap.find, ran, merged], laidAfter, shape, ?_, ?_⟩
      · exact fun other _ _ => congrArg Sigma.fst (congrFun kept other)
      · exact .moves node (by simp [Use.access, Pool.hit, ran]) member rfl (by simp)
    · refine ⟨pool, layout, by simp [Use.run, ShmHashMap.find, ran], laid, .refl pool, fun _ _ _ => rfl, ?_⟩
      exact .rests (by simp [Use.access, Pool.hit, ran]) rfl (by simp)
  | insert key data =>
    rcases laid.insert_cases key data with ⟨lack, ran⟩ |
      ⟨room, node, after, next, ran, laidAfter, recent, fresh, shape, own, others⟩
    · refine ⟨pool, layout, by simp [Use.run, ShmHashMap.insert, ran], laid, .refl pool, fun _ _ _ => rfl, ?_⟩
      refine .rests (by simp [Use.access, Pool.taken, ran]) rfl fun _ _ same => ?_
      obtain ⟨rfl, rfl⟩ := Use.insert.inj same
      exact lack
    · refine ⟨after, next, by simp [Use.run, ShmHashMap.insert, ran], laidAfter, shape, fun other inside _ =>
        others other inside, ?_⟩
      exact .adds node key data (by simp [Use.access, Pool.taken, ran]) fresh recent own (.inl ⟨rfl, room⟩)
  | setValue key data =>
    rcases laid.find key with ⟨node, member, _, middle, ran, laidMiddle, shape, kept⟩ | ⟨absent, ran⟩
    · obtain ⟨found, after, next, updated, laidAfter, recent, shapeAfter, keys⟩ :=
        laidMiddle.update_cases (List.mem_cons_self ..) data
      refine ⟨after, next, ?_, laidAfter, shape.trans shapeAfter, fun other _ inside => ?_, ?_⟩
      · cases found <;> simp [Use.run, ShmHashMap.setValue, replaceNode, ran, updated]
      · exact (keys other (recent ▸ inside)).trans (congrArg Sigma.fst (congrFun kept other))
      · exact .moves node (by simp [Use.access, Pool.hit, ran]) member recent (by simp)
    · rcases laid.insert_cases key data with ⟨_, inserted⟩ |
        ⟨_, node, after, next, inserted, laidAfter, recent, fresh, shape, own, others⟩
      · refine ⟨pool, layout, by simp [Use.run, ShmHashMap.setValue, replaceNode, ran, inserted], laid, .refl pool,
          fun _ _ _ => rfl, ?_⟩
        exact .rests (by simp [Use.access, Pool.hit, Pool.taken, ran, inserted]) rfl (by simp)
      · refine ⟨after, next, by simp [Use.run, ShmHashMap.setValue, replaceNode, ran, inserted], laidAfter, shape,
          fun other inside _ => others other inside, ?_⟩
        exact .adds node key data (by simp [Use.access, Pool.hit, Pool.taken, ran, inserted]) fresh recent own
          (.inr ⟨rfl, absent⟩)
  | delete key =>
    rcases laid.find key with ⟨node, member, _, middle, ran, laidMiddle, shape, kept⟩ | ⟨_, ran⟩
    · obtain ⟨after, _, _, deleted, laidAfter, _, shapeAfter, others⟩ := laidMiddle.delete (List.mem_cons_self ..)
      rw [List.erase_cons_head] at others
      refine ⟨after, _, by simp [Use.run, ShmHashMap.delete, ran, deleted], laidAfter, shape.trans shapeAfter,
        fun other _ inside => ?_, ?_⟩
      · have stays : other ∈ layout.recent.erase node := by simpa using inside
        exact congrArg Sigma.fst ((others other stays).trans (congrFun kept other))
      · exact .removes node (.inr (by simp [Use.access, Pool.hit, ran])) member (List.erase_cons_head ..) (by simp)
    · refine ⟨pool, layout, by simp [Use.run, ShmHashMap.delete, ran], laid, .refl pool, fun _ _ _ => rfl, ?_⟩
      exact .rests (by simp [Use.access, Pool.hit, ran]) rfl (by simp)
  | erase steps =>
    have visited := laid.exec_visit steps
    cases stop : layout.recent[steps]? with
    | none =>
      refine ⟨pool, layout, by simp [Use.run, visited, stop, ShmHashMap.erase], laid, .refl pool, fun _ _ _ => rfl, ?_⟩
      exact .rests rfl rfl (by simp)
    | some node =>
      have member := List.mem_of_getElem? stop
      obtain ⟨after, _, _, deleted, laidAfter, _, shape, others⟩ := laid.delete member
      refine ⟨after, _, by simp [Use.run, visited, stop, ShmHashMap.erase, deleted], laidAfter, shape, ?_, ?_⟩
      · exact fun other _ inside => congrArg Sigma.fst (others other inside)
      · exact .removes node (.inl rfl) member rfl (by simp)
  | updateData steps data =>
    have visited := laid.exec_visit steps
    cases stop : layout.recent[steps]? with
    | none =>
      refine ⟨pool, layout, by simp [Use.run, visited, stop, ShmHashMap.updateData], laid, .refl pool,
        fun _ _ _ => rfl, ?_⟩
      exact .rests rfl rfl (by simp)
    | some node =>
      obtain ⟨found, after, next, updated, laidAfter, recent, shape, keys⟩ :=
        laid.update_cases (List.mem_of_getElem? stop) data
      refine ⟨after, next, ?_, laidAfter, shape, fun other inside _ => keys other inside, .rests rfl recent (by simp)⟩
      cases found <;> simp [Use.run, visited, stop, ShmHashMap.updateData, updated]

end HashMap.Laid

end TeenpattiUserServer.Shm
