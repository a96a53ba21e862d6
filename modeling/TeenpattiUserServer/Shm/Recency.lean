import TeenpattiUserServer.Shm.DuplicateKeys
import TeenpattiUserServer.Shm.FiniteMap

/-! What a visitor meets: every entry once, the last one accessed first, in every
state that the history of the segment can lead to. -/

namespace TeenpattiUserServer.Shm

open Store Intrusive HashMap ChunkAllocator

variable {Key : Type}

namespace ShmHashMap

/-- The cursor of a `vistor` after `end` and `steps` calls of `prev`. -/
def visitBack : Nat → Run Key Handler
  | 0 => Prog.read (·.addTail)
  | steps + 1 => do
    match ← visitBack steps with
    | none => pure none
    | some node => Prog.read (·.addPrev node)

/-- `GetData` and `next` until there is no node. A walk of more than `fuel` nodes faults. -/
def readFrom (dataLen : Int) : Nat → Handler → Run Key (List (Nat × Reply))
  | _, none => pure []
  | 0, some _ => Prog.fault
  | fuel + 1, some node => do
    let reply ← getData node dataLen
    let rest ← readFrom dataLen fuel (← Prog.read (·.addNext node))
    pure ((node, reply) :: rest)

def readAll (dataLen : Int) (fuel : Nat) : Run Key (List (Nat × Reply)) := do
  readFrom dataLen fuel (← Prog.read (·.addHead))

end ShmHashMap

/-- What `GetData` delivers for a node. -/
def Pool.reply (pool : Pool Key) (dataLen : Int) (node : Nat) : Reply :=
  if dataLen < (pool.bytes node).length then ⟨errorInvalidParam, (pool.bytes node).length, []⟩
  else ⟨0, (pool.bytes node).length, pool.bytes node⟩

/-- A visitor meets these nodes and stops: the used ones, each once, by falling time.
Backwards it meets them in the reverse order, and it may read each on the way. -/
structure Traversal (pool : Pool Key) (times : Nat → Nat) (nodes : List Nat) : Prop where
  forward : ∀ steps, Prog.exec (ShmHashMap.visit steps) pool = some (nodes[steps]?, pool)
  backward : ∀ steps, Prog.exec (ShmHashMap.visitBack steps) pool = some (nodes.reverse[steps]?, pool)
  used : ∀ node, node ∈ nodes ↔ node ∈ pool.usedNodes
  once : nodes.Nodup
  notFree : ∃ free, pool.freeNodes = some free ∧ ∀ node ∈ free, node ∉ nodes
  ordered : nodes.Pairwise fun first second => times second < times first
  reads : ∀ (dataLen : Int) fuel, nodes.length ≤ fuel → Prog.exec (ShmHashMap.readAll dataLen fuel) pool =
    some (nodes.map fun node => (node, pool.reply dataLen node), pool)

variable {hash : Key → Nat} {para : HashPara} {pool after : Pool Key} {layout : Layout} {node now : Nat}
  {times : Nat → Nat}

namespace HashMap.Laid

theorem exec_visitBack (laid : Laid hash pool layout) (steps : Nat) :
    Prog.exec (ShmHashMap.visitBack steps) pool = some (layout.recent.reverse[steps]?, pool) := by
  have flipped : pool.addLinks.flip.Holds layout.recent.reverse := laid.adds.flip
  induction steps with
  | zero =>
    have atTail : pool.addTail = layout.recent.reverse.head? := flipped.head_eq
    simp [ShmHashMap.visitBack, atTail, List.head?_eq_getElem?]
  | succ steps ih =>
    simp only [ShmHashMap.visitBack, Prog.exec_bind, ih, Option.bind_some]
    cases found : layout.recent.reverse[steps]? with
    | none =>
      have short := List.getElem?_eq_none_iff.mp found
      simp only [Prog.exec_pure, List.getElem?_eq_none_iff.mpr (show layout.recent.reverse.length ≤ steps + 1 by omega)]
    | some node =>
      obtain ⟨bound, here⟩ := List.getElem?_eq_some_iff.mp found
      have split : layout.recent.reverse =
          layout.recent.reverse.take steps ++ node :: layout.recent.reverse.drop (steps + 1) := by
        rw [← here, List.getElem_cons_drop, List.take_append_drop]
      have before : pool.addPrev node = (layout.recent.reverse.drop (steps + 1)).head? := (split ▸ flipped).next_eq
      simp only [Prog.exec_read, before, List.head?_drop]

theorem exec_readFrom (laid : Laid hash pool layout) (dataLen : Int) {head : Handler} {nodes : List Nat} {fuel : Nat}
    (chain : Chain pool.addNext head nodes none) (part : nodes ⊆ layout.recent) (enough : nodes.length ≤ fuel) :
    Prog.exec (ShmHashMap.readFrom dataLen fuel head) pool =
      some (nodes.map fun node => (node, pool.reply dataLen node), pool) := by
  induction nodes generalizing head fuel with
  | nil =>
    obtain rfl : head = none := chain
    cases fuel <;> rfl
  | cons node rest ih =>
    obtain ⟨rfl, tail⟩ := chain
    cases fuel with
    | zero => simp at enough
    | succ fuel =>
      have member : node ∈ layout.recent := part (by simp)
      have others := ih tail (fun other inside => part (by simp [inside])) (by simpa using enough)
      simp only [ShmHashMap.readFrom, ShmHashMap.getData, Prog.exec_bind, laid.merge member, Option.bind_some,
        Prog.exec_pure, Prog.exec_read, others, List.map_cons, Pool.reply]
      split <;> rfl

end HashMap.Laid

/-- The nodes were last accessed in this order, none of them later than now. -/
structure Timed (nodes : List Nat) (times : Nat → Nat) (now : Nat) : Prop where
  ordered : nodes.Pairwise fun first second => times second < times first
  past : ∀ node ∈ nodes, times node ≤ now

namespace Timed

variable {nodes rest : List Nat}

theorem fewer (timed : Timed nodes times now) (part : rest.Sublist nodes) : Timed rest times (now + 1) :=
  ⟨timed.ordered.sublist part, fun node member => Nat.le_succ_of_le (timed.past node (part.subset member))⟩

/-- The node that is accessed comes first. -/
theorem front (timed : Timed nodes times now) (part : rest.Sublist nodes) (absent : node ∉ rest) :
    Timed (node :: rest) (Function.update times node (now + 1)) (now + 1) := by
  have kept (other : Nat) (member : other ∈ rest) : Function.update times node (now + 1) other = times other := by
    refine Function.update_of_ne ?_ ..
    rintro rfl
    exact absent member
  refine ⟨List.pairwise_cons.mpr ⟨fun other member => ?_, ?_⟩, fun other member => ?_⟩
  · rw [Function.update_self, kept other member]
    exact Nat.lt_succ_of_le (timed.past other (part.subset member))
  · refine (timed.ordered.sublist part).imp_of_mem fun {first second} inFirst inSecond earlier => ?_
    rw [kept first inFirst, kept second inSecond]
    exact earlier
  · rcases List.mem_cons.mp member with rfl | inside
    · rw [Function.update_self]
    · rw [kept other inside]
      exact Nat.le_succ_of_le (timed.past other (part.subset inside))

theorem tail (timed : Timed (node :: rest) times now) : Timed rest times now :=
  ⟨(List.pairwise_cons.mp timed.ordered).2, fun other member => timed.past other (by simp [member])⟩

end Timed

theorem HashMap.Laid.traversal (laid : Laid hash pool layout) (timed : Timed layout.recent times now) :
    Traversal pool times layout.recent where
  forward := laid.exec_visit
  backward := laid.exec_visitBack
  used _ := laid.mem_usedNodes.symm
  once := laid.adds.nodup
  notFree := ⟨layout.free, laid.freeNodes, fun _ => laid.free_not_recent⟩
  ordered := timed.ordered
  reads dataLen fuel enough := by
    rw [ShmHashMap.readAll, Prog.exec_bind, Prog.exec_read, Option.bind_some]
    exact laid.exec_readFrom dataLen laid.adds.forward (fun _ member => member) enough

variable [DecidableEq Key]

/-- The times of the last access after a use. -/
def Use.stamp (hash : Key → Nat) (pool : Pool Key) (use : Use Key) (times : Nat → Nat) (now : Nat) : Nat → Nat :=
  (use.access hash pool).elim times fun node => Function.update times node (now + 1)

/-- The contents that the segment can have, with the time of the last access to each
node; the clock counts the uses. -/
inductive Accessed (hash : Key → Nat) (para : HashPara) : Pool Key → (Nat → Nat) → Nat → Prop where
  | created {os : SVShm.Answers} {unassigned : Int} {memory pool : Pool Key} {times : Nat → Nat} {now : Nat}
      (fresh : SVShm.forceOpenAndAttach os = (0, 1))
      (ran : Prog.exec (ShmHashMap.init os unassigned para) memory = some (0, pool)) : Accessed hash para pool times now
  | used {pool after : Pool Key} {times : Nat → Nat} {now : Nat} {use : Use Key}
      (before : Accessed hash para pool times now) (ran : Prog.exec (use.run hash) pool = some ((), after)) :
      Accessed hash para after (use.stamp hash pool times now) (now + 1)
  | attached {os : SVShm.Answers} {unassigned : Int} {pool after : Pool Key} {times : Nat → Nat} {now : Nat}
      (before : Accessed hash para pool times now) (existing : SVShm.forceOpenAndAttach os = (0, 0))
      (ran : Prog.exec (ShmHashMap.init os unassigned para) pool = some (0, after)) :
      Accessed hash para after times now

/-- A laid out pool whose add list is in the order of the accesses. -/
def Recent (hash : Key → Nat) (times : Nat → Nat) (now : Nat) (pool : Pool Key) : Prop :=
  ∃ layout, Laid hash pool layout ∧ Timed layout.recent times now

/-- Each use keeps the add list in the order of the accesses. -/
theorem HashMap.Laid.use_recent (laid : Laid hash pool layout) (timed : Timed layout.recent times now) (use : Use Key) :
    ∃ after, Prog.exec (use.run hash) pool = some ((), after) ∧
      Recent hash (use.stamp hash pool times now) (now + 1) after := by
  obtain ⟨after, next, ran, laidAfter, _, _, effect⟩ := laid.use_effect use
  refine ⟨after, ran, next, laidAfter, ?_⟩
  have shorter (node : Nat) :
      Timed (node :: layout.recent.erase node) (Function.update times node (now + 1)) (now + 1) :=
    timed.front List.erase_sublist laid.adds.nodup.not_mem_erase
  rw [Use.stamp]
  cases effect with
  | rests access recent =>
    rw [access, recent]
    exact timed.fewer (List.Sublist.refl _)
  | moves node access _ recent =>
    rw [access, recent]
    exact shorter node
  | removes node access _ recent =>
    rw [recent]
    rcases access with none | found
    · rw [none]
      exact timed.fewer List.erase_sublist
    · rw [found]
      exact (shorter node).tail
  | adds node key data access fresh recent =>
    rw [access, recent]
    exact timed.front (List.Sublist.refl _) fresh

theorem Accessed.recent (buckets : 0 < para.bucketSize) (chunks : 0 < para.chunkSize)
    (accessed : Accessed hash para pool times now) : Recent hash times now pool ∧ pool.Shaped para := by
  have empty {pool : Pool Key} {times : Nat → Nat} {now : Nat} {layout : Layout} (laid : Laid hash pool layout)
      (none : layout.recent = []) : Recent hash times now pool := ⟨layout, laid, by rw [none]; exact ⟨.nil, by simp⟩⟩
  induction accessed with
  | @created os unassigned memory pool times now fresh ran =>
    obtain ⟨start, opened, laid, shaped⟩ :=
      exec_init_fresh buckets chunks fresh unassigned (.inl (by decide)) hash memory
    obtain rfl : pool = start := by simpa [ran] using opened
    exact ⟨empty laid rfl, shaped⟩
  | @used pool after times now use _ ran ih =>
    obtain ⟨⟨layout, laid, timed⟩, shaped⟩ := ih
    obtain ⟨final, done, recent⟩ := laid.use_recent timed use
    obtain rfl : after = final := by simpa [ran] using done
    obtain ⟨same, other, _, shape⟩ := laid.exec_use use
    obtain rfl : after = same := by simpa [ran] using other
    exact ⟨recent, shaped.trans shape⟩
  | @attached os unassigned pool after times now _ existing ran ih =>
    obtain ⟨recent, shaped⟩ := ih
    by_cases assigned : unassigned = 0
    · subst unassigned
      obtain ⟨layout, laid, _⟩ := id recent
      obtain rfl : after = pool := by simpa [ran] using exec_init_existing ⟨⟨layout, laid⟩, shaped⟩ existing
      exact ⟨recent, shaped⟩
    · obtain ⟨start, opened, laid, shapedAfter⟩ :=
        exec_init_fresh buckets chunks existing unassigned (.inr assigned) hash pool
      obtain rfl : after = start := by simpa [ran] using opened
      exact ⟨empty laid rfl, shapedAfter⟩

/-- In every state the segment can have, a visitor meets the used nodes, the most
recently accessed first. -/
theorem visits_most_recent_first (buckets : 0 < para.bucketSize) (chunks : 0 < para.chunkSize)
    (accessed : Accessed hash para pool times now) : ∃ nodes, Traversal pool times nodes := by
  obtain ⟨⟨layout, laid, timed⟩, _⟩ := accessed.recent buckets chunks
  exact ⟨layout.recent, laid.traversal timed⟩

/-- Every content the segment can have comes with times of the last accesses. -/
theorem Left.accessed (left : Left hash para pool) : ∃ times now, Accessed hash para pool times now := by
  induction left with
  | created fresh ran => exact ⟨fun _ => 0, 0, .created fresh ran⟩
  | used _ ran ih =>
    obtain ⟨times, now, before⟩ := ih
    exact ⟨_, _, before.used ran⟩
  | attached _ existing ran ih =>
    obtain ⟨times, now, before⟩ := ih
    exact ⟨times, now, before.attached existing ran⟩

/-- A call of the interface is a use. -/
def Call.use : Call Key → Use Key
  | find key bufLen => .find key bufLen
  | setValue key data => .setValue key data
  | insert key data => .insert key data
  | delete key => .delete key

theorem Call.exec_use {call : Call Key} {reply : Reply} (ran : Prog.exec (call.run hash) pool = some (reply, after)) :
    Prog.exec (call.use.run hash) pool = some ((), after) := by
  cases call with
  | find key bufLen =>
    have found : Prog.exec (ShmHashMap.find hash key bufLen) pool = some (reply, after) := ran
    simp [Call.use, Use.run, found]
  | setValue key data | insert key data | delete key =>
    obtain ⟨⟨ret, last⟩, done, same⟩ := Option.bind_eq_some_iff.mp ((Prog.exec_bind ..).symm.trans ran)
    obtain rfl : last = after := (Prod.mk.inj (Option.some.inj same)).2
    simp [Call.use, Use.run, done]

/-- The code follows the calls of the abstract table, and notes their accesses. -/
theorem Accessed.calls {table : Table Key} {calls : List (Call Key)} (accessed : Accessed hash para pool times now)
    (refines : Refines hash pool table) (allows : Call.Allows table calls) : ∃ after times now,
      Accessed hash para after times now ∧ Refines hash after (Call.after calls table) := by
  induction calls generalizing pool table times now with
  | nil => exact ⟨pool, times, now, accessed, refines⟩
  | cons call calls ih =>
    obtain ⟨middle, ran, refinesMiddle, _⟩ := refines.call call allows.1
    exact ih (accessed.used (Call.exec_use ran)) refinesMiddle allows.2

/-- Three users are stored, and the first is looked for. -/
def lookedFor : List (Call Nat) := [.insert 7 [1], .insert 8 [2], .setValue 9 [3], .find 7 8]

theorem visits_most_recent_first_lookedFor : ∃ (pool : Pool Nat) (times : Nat → Nat) (now : Nat) (nodes : List Nat),
    Accessed id ⟨4, 1, 4, 4⟩ pool times now ∧ nodes.map pool.key = [7, 9, 8] ∧
      (∃ free, pool.freeNodes = some [free]) ∧ Traversal pool times nodes := by
  have fresh : SVShm.forceOpenAndAttach ⟨5, false, 0, 0, 0, 0, false⟩ = (0, 1) := rfl
  have buckets : 0 < (⟨4, 1, 4, 4⟩ : HashPara).bucketSize := by decide
  have chunks : 0 < (⟨4, 1, 4, 4⟩ : HashPara).chunkSize := by decide
  obtain ⟨created, opened, laid, shaped⟩ := exec_init_fresh buckets chunks fresh 0 (.inl (by decide)) id zeros
  have empty : Refines id created ⟨∅, 4, 4, 4⟩ := ⟨_, laid, rfl, by simp, by simp, shaped.chunkSize⟩
  have allows : Call.Allows (⟨∅, 4, 4, 4⟩ : Table Nat) lookedFor :=
    ⟨⟨List.cons_ne_nil _ _, rfl⟩, ⟨List.cons_ne_nil _ _, by decide⟩, List.cons_ne_nil _ _, trivial, trivial⟩
  have start : Accessed id ⟨4, 1, 4, 4⟩ created (fun _ => 0) 0 := .created fresh opened
  obtain ⟨pool, times, now, accessed, layout, laidAfter, represents⟩ := start.calls empty allows
  obtain ⟨nodes, traversal⟩ := visits_most_recent_first buckets chunks accessed
  obtain rfl : nodes = layout.recent := List.ext_getElem? fun steps =>
    (Prod.mk.inj (Option.some.inj ((traversal.forward steps).symm.trans (laidAfter.exec_visit steps)))).1
  refine ⟨pool, times, now, _, accessed, ?_, ?_, traversal⟩
  · have keys := congrArg (List.map Sigma.fst) represents.entries
    rw [List.map_map] at keys
    exact keys.trans (by decide)
  · have one : layout.free.length = 1 := represents.freeNodes
    obtain ⟨free, same⟩ := List.length_eq_one_iff.mp one
    exact ⟨free, same ▸ laidAfter.freeNodes⟩

end TeenpattiUserServer.Shm
