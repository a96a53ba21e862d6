import TeenpattiUserServer.Net.PoolAccounts

/-! The memory pool over all sequences of `allocate` and `recycle`. -/

namespace TeenpattiUserServer.Net

open Bookkeeping

namespace MemPool

variable (new : NewBlock) {pool : MemPool} {handed : List Handed} {size : Nat}

/-- An extension for which there is room. -/
private theorem Sound.extendClass (sound : pool.Sound handed) (known : (pool.free.lookup size).isSome)
    (room : pool.allocatedSize + size * fitExtendSet size ≤ cMaxPoolSize) :
    ∃ after, extendClass new size pool = some (0, after) ∧ after.Sound handed := by
  obtain ⟨l, s, free, stub⟩ := sound.class_exists known
  obtain ⟨l', s', undeleted', news', ran, nodup, stubs, more, origin, listed, card, memory⟩ :=
    newBlocks_eq new (fitExtendSet size) pool.news pool.undeleted (sound.nodup free) (sound.stubs free stub)
      (sound.undeleted stub)
  have small : (pool.allocatedSize + size * fitExtendSet size) % 2 ^ 32 =
      pool.allocatedSize + size * fitExtendSet size := by
    simp only [cMaxPoolSize] at room
    exact Nat.mod_eq_of_lt (by omega)
  have stubbed : (pool.stub.lookup size).getD ∅ = s := by simp [stub]
  have extended : MemPool.extendClass new size pool = some (0, { pool.setClass size l' s' with
      undeleted := undeleted', news := news'
      allocatedSize := pool.allocatedSize + size * fitExtendSet size }) := by
    simp only [MemPool.extendClass, free, stub, ran, small]
  refine ⟨_, extended, ?_⟩
  refine sound.changed stubbed nodup stubs origin ?_ ?_ ?_ room
  · intro given member same
    obtain ⟨_, list, stub', found, known, owned, away⟩ := sound.given given member
    rw [same, free] at found
    rw [same, stub] at known
    cases found
    cases known
    refine ⟨more _ owned, fun listed' => ?_⟩
    rcases listed _ listed' with before | never
    · exact away before
    · exact never (sound.undeleted stub _ owned)
  · intro p
    have inside := sound.undeleted stub p
    have kept := more p
    rw [memory]
    tauto
  · rw [card, Nat.mul_add]
    omega

theorem Sound.extend (sound : pool.Sound handed) (known : (pool.free.lookup size).isSome) (small : size ≤ 2 ^ 31) :
    ∃ code after, extend new size pool = some (code, after) ∧ after.Sound handed := by
  have bounded := sound.bounded
  have extension := extension_le small
  have wanted : (pool.allocatedSize + size * fitExtendSet size) % 2 ^ 32 =
      pool.allocatedSize + size * fitExtendSet size := by
    simp only [cMaxPoolSize] at bounded
    exact Nat.mod_eq_of_lt (by omega)
  simp only [MemPool.extend, wanted]
  split
  · obtain ⟨code, released, ran, kept, shrinks, freed⟩ :=
      sound.releaseSize (pool.allocatedSize + size * fitExtendSet size - cMaxPoolSize)
    rw [ran, Option.bind_some]
    by_cases failed : code = 0
    · have enough := freed failed
      have less := shrinks.allocated
      obtain ⟨after, extended, final⟩ :=
        kept.extendClass new (shrinks.known size known) (by omega)
      exact ⟨0, after, by rw [if_neg (by simpa using failed), extended], final⟩
    · exact ⟨-1, released, if_pos failed, kept⟩
  · obtain ⟨after, extended, final⟩ := sound.extendClass new known (by omega)
    exact ⟨0, after, extended, final⟩

/-- One more block that is not free is handed out. -/
private theorem Sound.lent (sound : pool.Sound handed) {l : List Nat} {s : Finset Nat}
    (free : pool.free.lookup size = some l) (stub : pool.stub.lookup size = some s) {block requested : Nat}
    (member : block ∈ s) (away : block ∉ l) (larger : requested < size)
    (unknown : ∀ given ∈ handed, given.block ≠ block) : pool.Sound (⟨requested, block, size⟩ :: handed) where
  classes := sound.classes
  nodup := sound.nodup
  stubs := sound.stubs
  undeleted := sound.undeleted
  apart := sound.apart
  allocated := sound.allocated
  bounded := sound.bounded
  distinct := by
    rw [List.map_cons, List.nodup_cons]
    refine ⟨?_, sound.distinct⟩
    intro known
    obtain ⟨given, before, same⟩ := List.mem_map.mp known
    exact unknown given before same
  given := by
    intro given known
    rcases List.mem_cons.mp known with rfl | before
    · exact ⟨larger, l, s, free, stub, member, away⟩
    · exact sound.given given before

/-- The front of a free list is handed out. -/
private theorem Sound.popFront (sound : pool.Sound handed) {requested : Nat} (larger : requested < size) :
    (MemPool.popFront size pool).2.Sound (Lending.handOut requested handed (MemPool.popFront size pool).1) := by
  cases free : pool.free.lookup size with
  | none => simpa [MemPool.popFront, free, Lending.handOut] using sound
  | some l =>
    cases l with
    | nil => simpa [MemPool.popFront, free, Lending.handOut] using sound
    | cons p rest =>
      obtain ⟨_, s, same, stub⟩ := sound.class_exists (by rw [free]; rfl : (pool.free.lookup size).isSome)
      obtain ⟨absent, nodup⟩ := List.nodup_cons.mp (sound.nodup free)
      have stubs := sound.stubs free stub
      have stubbed : (pool.stub.lookup size).getD ∅ = s := by simp [stub]
      have mine : ∀ given ∈ handed, given.size = size → given.block ∈ s ∧ given.block ∉ p :: rest := by
        intro given member equal
        obtain ⟨_, list, stub', found, known, owned, away⟩ := sound.given given member
        rw [equal, free] at found
        rw [equal, stub] at known
        cases found
        cases known
        exact ⟨owned, away⟩
      have popped : pool.setClass size rest s = { pool with free := put pool.free size (some rest) } := by
        rw [setClass, put_same pool.stub stub]
      have kept : (pool.setClass size rest s).Sound handed := by
        refine sound.changed stubbed nodup (fun q member => stubs q (List.mem_cons_of_mem _ member)) (fun _ => .inl)
          ?_ ?_ rfl sound.bounded
        · intro given member equal
          obtain ⟨owned, away⟩ := mine given member equal
          exact ⟨owned, fun inside => away (List.mem_cons_of_mem _ inside)⟩
        · intro q
          have inside := sound.undeleted stub q
          change q ∈ pool.undeleted ↔ _
          tauto
      have unknown : ∀ given ∈ handed, given.block ≠ p := by
        rintro given member rfl
        obtain ⟨_, list, stub', found, known, owned, away⟩ := sound.given given member
        have equal := sound.apart known stub owned (stubs _ (List.mem_cons_self ..))
        exact (mine given member equal).2 (List.mem_cons_self ..)
      have result : MemPool.popFront size pool = (some (p, size), pool.setClass size rest s) := by
        rw [popped]
        simp only [MemPool.popFront, free]
      rw [result]
      refine kept.lent ?_ ?_ (stubs p (List.mem_cons_self ..)) absent larger unknown
      · rw [free_setClass, if_pos rfl]
      · rw [stub_setClass, if_pos rfl]

theorem Sound.allocate (sound : pool.Sound handed) (small : size < 2 ^ 31) :
    ∃ result after, allocate new size pool = some (result, after) ∧
      after.Sound (Lending.handOut size handed result) := by
  obtain ⟨larger, bounded⟩ := lt_fitBlockSize small
  have ends : ∀ (pool : MemPool) (code : Int), pool.Sound handed →
      (if code ≠ 0 then (none, pool) else MemPool.popFront (fitBlockSize size) pool).2.Sound
        (Lending.handOut size handed
          (if code ≠ 0 then (none, pool) else MemPool.popFront (fitBlockSize size) pool).1) := by
    intro pool code kept
    split
    · exact kept
    · exact kept.popFront larger
  simp only [MemPool.allocate]
  split
  · rename_i absent
    have created := sound.newClass absent
    have known : ((pool.setClass (fitBlockSize size) [] ∅).free.lookup (fitBlockSize size)).isSome := by
      rw [free_setClass, if_pos rfl]
      rfl
    obtain ⟨code, after, extended, kept⟩ := created.extend new known bounded
    exact ⟨_, _, by rw [extendNewSize, extended, Option.map_some], ends after code kept⟩
  · rename_i empty
    obtain ⟨code, after, extended, kept⟩ := sound.extend new (by rw [empty]; rfl) bounded
    exact ⟨_, _, by rw [extended, Option.map_some], ends after code kept⟩
  · exact ⟨_, _, rfl, sound.popFront larger⟩

private theorem Sound.fewer (sound : pool.Sound handed) {others : List Handed} (fewer : others.Sublist handed) :
    pool.Sound others :=
  ⟨sound.classes, sound.nodup, sound.stubs, sound.undeleted, sound.apart, sound.allocated, sound.bounded,
    sound.distinct.sublist (fewer.map _), fun given member => sound.given given (fewer.subset member)⟩

/-- A block that was handed out is taken back. -/
theorem Sound.recycle (sound : pool.Sound handed) {given : Handed} (member : given ∈ handed) :
    ∃ after, recycle given.block given.size pool = some (0, after) ∧ after.Sound (handed.erase given) := by
  obtain ⟨_, l, s, free, stub, owned, away⟩ := sound.given given member
  have stubbed : (pool.stub.lookup given.size).getD ∅ = s := by simp [stub]
  have others := sound.fewer (List.erase_sublist : (handed.erase given).Sublist handed)
  have different : ∀ other ∈ handed.erase given, other.block ≠ given.block := by
    intro other still same
    have known := List.mem_of_mem_erase still
    have equal : other = given := List.inj_on_of_nodup_map sound.distinct known member same
    exact (List.Nodup.of_map _ sound.distinct).not_mem_erase (equal ▸ still)
  have back : (pool.setClass given.size (given.block :: l) s).Sound (handed.erase given) := by
    refine others.changed stubbed (List.nodup_cons.mpr ⟨away, sound.nodup free⟩) ?_ (fun _ => .inl) ?_ ?_ rfl
      sound.bounded
    · intro p inside
      rcases List.mem_cons.mp inside with rfl | before
      · exact owned
      · exact sound.stubs free stub p before
    · intro other still same
      obtain ⟨_, list, stub', found, known, kept, apart⟩ := others.given other still
      rw [same, free] at found
      rw [same, stub] at known
      cases found
      cases known
      refine ⟨kept, fun inside => ?_⟩
      rcases List.mem_cons.mp inside with equal | before
      · exact different other still equal
      · exact apart before
    · intro p
      have inside := sound.undeleted stub p
      change p ∈ pool.undeleted ↔ _
      tauto
  obtain ⟨after, released, kept, _⟩ := back.release
    (show _ = some (given.block :: l) by rw [free_setClass, if_pos rfl]) (show _ = some s by rw [stub_setClass, if_pos rfl])
  refine ⟨after, ?_, kept⟩
  simp only [MemPool.recycle, stub, if_pos owned, free, released, Option.map_some]

theorem empty_sound : empty.Sound [] where
  classes _ := rfl
  nodup := by simp [empty]
  stubs := by simp [empty]
  undeleted := by simp [empty]
  apart := by simp [empty]
  allocated := rfl
  bounded := by decide
  distinct := List.nodup_nil
  given := by simp

end MemPool

namespace Lending

open MemPool

variable (new : NewBlock) {lending : Lending}

def Kept (lending : Lending) : Prop := lending.pool.Sound lending.handed

/-- A call that is allowed succeeds, and keeps the accounts. -/
theorem step_kept (sound : lending.Kept) {call : PoolCall} (allowed : lending.Allowed call) :
    ∃ after, step new call lending = some after ∧ after.Kept := by
  cases call with
  | allocate size =>
    obtain ⟨result, pool, ran, kept⟩ := sound.allocate new allowed
    exact ⟨⟨pool, _⟩, by rw [step, ran]; rfl, kept⟩
  | recycle given =>
    obtain ⟨pool, ran, kept⟩ := sound.recycle allowed
    exact ⟨⟨pool, _⟩, by rw [step, ran]; rfl, kept⟩

/-- The accounts of the pool: blocks that are handed out are different, larger than what
was asked for, neither free nor deleted; a free list has no block twice, and only
stubs of its size; the allocated size is that of the stubs, and within its limit. -/
structure Exact (lending : Lending) : Prop where
  distinct : (lending.handed.map Handed.block).Nodup
  larger : ∀ given ∈ lending.handed, given.requested < given.size
  there : ∀ given ∈ lending.handed, given.block ∈ lending.pool.undeleted
  unfree : ∀ given ∈ lending.handed, ∀ size l, lending.pool.free.lookup size = some l → given.block ∉ l
  nodup : ∀ size l, lending.pool.free.lookup size = some l → l.Nodup
  stubs : ∀ size l, lending.pool.free.lookup size = some l →
    ∃ s, lending.pool.stub.lookup size = some s ∧ ∀ p ∈ l, p ∈ s
  allocated : lending.pool.allocatedSize = total weight lending.pool.stub
  bounded : lending.pool.allocatedSize ≤ cMaxPoolSize

theorem exact_of_sound (sound : lending.Kept) : lending.Exact where
  distinct := sound.distinct
  larger given member := (sound.given given member).1
  there := by
    intro given member
    obtain ⟨_, _, _, _, stub, owned, _⟩ := sound.given given member
    exact sound.undeleted stub _ owned
  unfree := by
    intro given member size l free inside
    obtain ⟨_, list, s, found, stub, owned, away⟩ := sound.given given member
    obtain ⟨_, other, same, known⟩ := sound.class_exists (by rw [free]; rfl : (lending.pool.free.lookup size).isSome)
    have equal := sound.apart known stub (sound.stubs free known _ inside) owned
    subst equal
    rw [free] at found
    cases found
    exact away inside
  nodup _ _ := sound.nodup
  stubs := by
    intro size l free
    obtain ⟨_, s, _, stub⟩ := sound.class_exists (by rw [free]; rfl : (lending.pool.free.lookup size).isSome)
    exact ⟨s, stub, sound.stubs free stub⟩
  allocated := sound.allocated
  bounded := sound.bounded

/-- In every run the accounts are exact, and no call fails its assertion or takes a block
from an empty list. -/
theorem pool_accounts_exact {lending : Lending} (reached : Reached Initial (step new) Allowed lending) :
    lending.Exact ∧ ∀ call, lending.Allowed call → ∃ after, step new call lending = some after := by
  have start : ∀ state, Initial state → Kept state := by
    rintro state rfl
    exact empty_sound
  have sound : lending.Kept := by
    refine reached.invariant start ?_
    intro state call after before allowed ran
    obtain ⟨result, stepped, kept⟩ := step_kept new before allowed
    rw [stepped] at ran
    exact Option.some.inj ran ▸ kept
  refine ⟨exact_of_sound sound, fun call allowed => ?_⟩
  obtain ⟨after, ran, _⟩ := step_kept new sound allowed
  exact ⟨after, ran⟩

private theorem le_sum {block : Nat} {blocks : Multiset Nat} (member : block ∈ blocks) : block ≤ blocks.sum := by
  obtain ⟨rest, rfl⟩ := Multiset.exists_cons_of_mem member
  rw [Multiset.sum_cons]
  exact Nat.le_add_right ..

private theorem ascending_fresh (blocks : Finset Nat) : blocks.val.sum + 1 ∉ blocks :=
  fun member => Nat.not_succ_le_self _ (le_sum member)

/-- Addresses that go up. -/
def ascending : NewBlock := ⟨fun _ undeleted => undeleted.val.sum + 1, fun _ => ascending_fresh⟩

/-- Two blocks are handed out, and the first is taken back and deleted. -/
def twoBlocks : Option Lending :=
  run (fun call lending => if Allowed lending call then step ascending call lending else none)
    [.allocate (2 ^ 26), .allocate (2 ^ 26), .recycle ⟨2 ^ 26, 1, 2 ^ 27⟩] ⟨.empty, []⟩

theorem pool_accounts_exact_two : ∃ lending, twoBlocks = some lending ∧
    lending.handed = [⟨2 ^ 26, 2, 2 ^ 27⟩] ∧ lending.pool.undeleted = {2} ∧ lending.Exact ∧
    ∀ call, lending.Allowed call → ∃ after, step ascending call lending = some after := by
  have facts : twoBlocks.map (fun lending => (lending.handed, lending.pool.undeleted)) =
    some ([⟨2 ^ 26, 2, 2 ^ 27⟩], {2}) := by decide +kernel
  obtain ⟨lending, ran, same⟩ := Option.map_eq_some_iff.mp facts
  obtain ⟨handed, undeleted⟩ := Prod.mk.inj same
  have reached : Reached Initial (step ascending) Allowed lending := Reached.run (.start rfl) ran
  exact ⟨lending, ran, handed, undeleted, pool_accounts_exact ascending reached⟩

end Lending

end TeenpattiUserServer.Net
