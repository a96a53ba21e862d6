import TeenpattiUserServer.Net.PoolRuns

/-! No block of `CMemPool` is lost: a stub that is not free is handed out, whatever
the pool releases and extends in between. -/

namespace TeenpattiUserServer.Net

open Bookkeeping

namespace MemPool

/-- Somebody has the block. -/
def HeldBy (handed : List Handed) (size block : Nat) : Prop := ∃ given ∈ handed, given.block = block ∧ given.size = size

/-- Every stub is free or handed out, and every block in memory is a stub. -/
structure Settled (pool : MemPool) (handed : List Handed) : Prop where
  listed : ∀ size l s, pool.free.lookup size = some l → pool.stub.lookup size = some s →
    ∀ p ∈ s, p ∈ l ∨ HeldBy handed size p
  stubbed : ∀ p ∈ pool.undeleted, ∃ size s, pool.stub.lookup size = some s ∧ p ∈ s

variable {pool after : MemPool} {handed others : List Handed} {size : Nat} {l l' : List Nat} {s s' : Finset Nat}

/-- The containers of one size are replaced. -/
private theorem Settled.edited (settled : pool.Settled handed) (l' : List Nat) (s' : Finset Nat)
    (free : after.free = (pool.setClass size l' s').free)
    (stub : after.stub = (pool.setClass size l' s').stub) (each : ∀ p ∈ s', p ∈ l' ∨ HeldBy handed size p)
    (memory : ∀ p ∈ after.undeleted, p ∈ s' ∨ (p ∈ pool.undeleted ∧ ∀ s, pool.stub.lookup size = some s → p ∉ s)) :
    after.Settled handed where
  listed := by
    intro other list stubs found known
    rw [free, free_setClass] at found
    rw [stub, stub_setClass] at known
    by_cases same : other = size
    · rw [if_pos same] at found known
      cases found
      cases known
      exact same ▸ each
    · rw [if_neg same] at found known
      exact settled.listed other list stubs found known
  stubbed := by
    intro p member
    rcases memory p member with inside | ⟨before, outside⟩
    · exact ⟨size, s', by rw [stub, stub_setClass, if_pos rfl], inside⟩
    · obtain ⟨other, stubs, known, inside⟩ := settled.stubbed p before
      have different : other ≠ size := fun same => outside stubs (same ▸ known) inside
      exact ⟨other, stubs, by rw [stub, stub_setClass, if_neg different, known], inside⟩

/-- What leaves the stubs leaves the free list and the memory, and nothing else does. -/
private theorem releaseBlocks_listed {todo : Nat} {undeleted undeleted' : Finset Nat}
    (loop : releaseBlocks todo l s undeleted = some (l', s', undeleted')) :
    (∀ p ∈ s', p ∈ s ∧ (p ∈ l → p ∈ l')) ∧ ∀ p ∈ undeleted', p ∈ undeleted ∧ (p ∈ s → p ∈ s') := by
  induction todo generalizing l s undeleted with
  | zero =>
    cases loop
    exact ⟨fun _ member => ⟨member, id⟩, fun _ member => ⟨member, id⟩⟩
  | succ todo ih =>
    cases l with
    | nil => cases loop
    | cons first rest =>
      obtain ⟨stubs, memory⟩ := ih loop
      constructor
      · intro p member
        obtain ⟨inside, later⟩ := stubs p member
        obtain ⟨different, inside⟩ := Finset.mem_erase.mp inside
        exact ⟨inside, fun listed => later ((List.mem_cons.mp listed).resolve_left different)⟩
      · intro p member
        obtain ⟨inside, later⟩ := memory p member
        obtain ⟨different, inside⟩ := Finset.mem_erase.mp inside
        exact ⟨inside, fun stub => later (Finset.mem_erase.mpr ⟨different, stub⟩)⟩

private theorem Settled.release (settled : pool.Settled handed)
    (free : pool.free.lookup size = some l) (stub : pool.stub.lookup size = some s)
    (ran : release size l s pool = some after) : after.Settled handed := by
  simp only [MemPool.release] at ran
  split at ran
  · obtain rfl := Option.some.inj ran
    exact settled
  · split at ran
    · cases ran
    · obtain ⟨⟨l', s', undeleted'⟩, loop, rfl⟩ := Option.map_eq_some_iff.mp ran
      obtain ⟨stubs, memory⟩ := releaseBlocks_listed loop
      refine settled.edited l' s' rfl rfl (fun p member => ?_) fun p member => ?_
      · obtain ⟨inside, later⟩ := stubs p member
        exact (settled.listed size l s free stub p inside).imp_left later
      · obtain ⟨before, later⟩ := memory p member
        by_cases inside : p ∈ s
        · exact .inl (later inside)
        · refine .inr ⟨before, fun known same => ?_⟩
          cases stub.symm.trans same
          exact inside

private theorem Settled.purge {last memSize bits purgeSize : Nat} (settled : pool.Settled handed)
    (ran : purge last memSize bits purgeSize pool = some after) : after.Settled handed := by
  induction bits generalizing pool purgeSize with
  | zero => cases ran
  | succ bits ih =>
    simp only [MemPool.purge] at ran
    split at ran
    · split at ran
      · rename_i s l stub free
        obtain ⟨middle, released, rest⟩ := Option.bind_eq_some_iff.mp ran
        exact ih (settled.release free stub released) rest
      · exact ih settled ran
    · obtain rfl := Option.some.inj ran
      exact settled

private theorem Settled.releaseSize {memSize : Nat} {code : Int} (settled : pool.Settled handed)
    (ran : releaseSize memSize pool = some (code, after)) : after.Settled handed := by
  obtain ⟨purged, done, same⟩ := Option.map_eq_some_iff.mp ran
  have marked : ({ pool with waterMark := cAllocCapcity } : MemPool).Settled handed :=
    ⟨settled.listed, settled.stubbed⟩
  have kept := marked.purge done
  cases same
  exact ⟨kept.listed, kept.stubbed⟩

variable (new : NewBlock)

/-- Fresh blocks go to the stubs and to the free list. -/
private theorem newBlocks_listed {todo news news' : Nat} {undeleted undeleted' : Finset Nat}
    (loop : newBlocks new todo l s undeleted news = (l', s', undeleted', news'))
    (each : ∀ p ∈ s, p ∈ l ∨ HeldBy handed size p) :
    (∀ p ∈ s', p ∈ l' ∨ HeldBy handed size p) ∧ (∀ p ∈ s, p ∈ s') ∧ ∀ p ∈ undeleted', p ∈ s' ∨ p ∈ undeleted := by
  induction todo generalizing l s undeleted news with
  | zero =>
    cases loop
    exact ⟨each, fun _ => id, fun _ => .inr⟩
  | succ todo ih =>
    have wider : ∀ p ∈ insert (new.address news undeleted) s,
        p ∈ new.address news undeleted :: l ∨ HeldBy handed size p := by
      intro p member
      rcases Finset.mem_insert.mp member with rfl | before
      · exact .inl (List.mem_cons_self ..)
      · exact (each p before).imp_left (List.mem_cons_of_mem _)
    obtain ⟨listed, more, memory⟩ := ih loop wider
    refine ⟨listed, fun p before => more p (Finset.mem_insert_of_mem before), fun p member => ?_⟩
    rcases memory p member with inside | known
    · exact .inl inside
    · rcases Finset.mem_insert.mp known with rfl | before
      · exact .inl (more _ (Finset.mem_insert_self ..))
      · exact .inr before

private theorem Settled.extendClass {code : Int} (settled : pool.Settled handed)
    (ran : extendClass new size pool = some (code, after)) : after.Settled handed := by
  simp only [MemPool.extendClass] at ran
  split at ran
  · rename_i l s free stub
    obtain ⟨l', s', undeleted', news', loop⟩ : ∃ l' s' undeleted' news',
        newBlocks new (fitExtendSet size) l s pool.undeleted pool.news = (l', s', undeleted', news') := ⟨_, _, _, _, rfl⟩
    obtain ⟨listed, more, memory⟩ := newBlocks_listed new loop (settled.listed size l s free stub)
    rw [loop] at ran
    cases ran
    refine settled.edited l' s' rfl rfl listed fun p member => ?_
    rcases memory p member with inside | before
    · exact .inl inside
    · by_cases inside : p ∈ s
      · exact .inl (more p inside)
      · refine .inr ⟨before, fun known same => ?_⟩
        cases stub.symm.trans same
        exact inside
  · cases ran

private theorem Settled.extend {code : Int} (settled : pool.Settled handed)
    (ran : extend new size pool = some (code, after)) : after.Settled handed := by
  simp only [MemPool.extend] at ran
  split at ran
  · obtain ⟨⟨_, released⟩, first, rest⟩ := Option.bind_eq_some_iff.mp ran
    have kept := settled.releaseSize first
    split at rest
    · cases rest
      exact kept
    · exact kept.extendClass new rest
  · exact settled.extendClass new ran

private theorem Settled.more (settled : pool.Settled handed) (each : ∀ given ∈ handed, given ∈ others) :
    pool.Settled others := by
  refine ⟨fun size l s free stub p member => ?_, settled.stubbed⟩
  refine (settled.listed size l s free stub p member).imp_right ?_
  rintro ⟨given, known, same⟩
  exact ⟨given, each given known, same⟩

/-- The front of a free list is handed out. -/
private theorem Settled.popFront (settled : pool.Settled handed) (size requested : Nat) :
    (MemPool.popFront size pool).2.Settled (Lending.handOut requested handed (MemPool.popFront size pool).1) := by
  cases free : pool.free.lookup size with
  | none => simpa [MemPool.popFront, free, Lending.handOut] using settled
  | some l =>
    cases l with
    | nil => simpa [MemPool.popFront, free, Lending.handOut] using settled
    | cons first rest =>
      have result : MemPool.popFront size pool =
          (some (first, size), { pool with free := put pool.free size (some rest) }) := by
        simp only [MemPool.popFront, free]
      have wider : pool.Settled (⟨requested, first, size⟩ :: handed) :=
        settled.more fun _ => List.mem_cons_of_mem _
      rw [result]
      refine ⟨fun other list stubs found known p member => ?_, settled.stubbed⟩
      change (put pool.free size (some rest)).lookup other = some list at found
      rw [lookup_put_eq] at found
      split at found
      · rename_i same
        cases found
        subst same
        rcases wider.listed other _ stubs free known p member with listed | held
        · rcases List.mem_cons.mp listed with rfl | later
          · exact .inr ⟨_, List.mem_cons_self .., rfl, rfl⟩
          · exact .inl later
        · exact .inr held
      · exact wider.listed other list stubs found known p member

theorem Settled.allocate (settled : pool.Settled handed) (sound : pool.Sound handed) {result : Option (Nat × Nat)}
    (ran : allocate new size pool = some (result, after)) :
    after.Settled (Lending.handOut size handed result) := by
  have ends : ∀ {pool : MemPool} {code : Int}, pool.Settled handed →
      (if code ≠ 0 then (none, pool) else MemPool.popFront (fitBlockSize size) pool) = (result, after) →
      after.Settled (Lending.handOut size handed result) := by
    intro pool code kept same
    split at same
    · cases same
      exact kept
    · have popped := kept.popFront (fitBlockSize size) size
      rw [same] at popped
      exact popped
  simp only [MemPool.allocate] at ran
  split at ran
  · rename_i absent
    obtain ⟨extended, first, same⟩ := Option.map_eq_some_iff.mp ran
    have unknown : pool.stub.lookup (fitBlockSize size) = none := by
      have same := sound.classes (fitBlockSize size)
      rw [absent] at same
      simpa using same.symm
    have created : (pool.setClass (fitBlockSize size) [] ∅).Settled handed :=
      settled.edited [] ∅ rfl rfl (by simp) fun p member => .inr ⟨member, by simp [unknown]⟩
    exact ends (created.extend new first) same
  · obtain ⟨extended, first, same⟩ := Option.map_eq_some_iff.mp ran
    exact ends (settled.extend new first) same
  · have popped := settled.popFront (fitBlockSize size) size
    rw [Option.some.inj ran] at popped
    exact popped

/-- Without one block that is handed out: it is free again. -/
theorem Settled.recycle (settled : pool.Settled handed) {given : Handed} {code : Int}
    (ran : recycle given.block given.size pool = some (code, after)) (known : code = 0) :
    after.Settled (handed.erase given) := by
  simp only [MemPool.recycle] at ran
  split at ran
  · cases ran
    cases known
  · rename_i s stub
    split at ran
    · split at ran
      · cases ran
        cases known
      · rename_i l free
        obtain ⟨released, done, same⟩ := Option.map_eq_some_iff.mp ran
        cases same
        refine Settled.release (l := given.block :: l) (s := s) ?_ (by rw [free_setClass, if_pos rfl])
          (by rw [stub_setClass, if_pos rfl]) done
        have unchanged : (pool.setClass given.size (given.block :: l) s).stub = pool.stub := put_same pool.stub stub
        refine ⟨fun size list stubs found listed p member => ?_, fun p member => unchanged ▸ settled.stubbed p member⟩
        rw [free_setClass] at found
        rw [stub_setClass] at listed
        -- the holder of `p` is the holder of another block, or `p` is the block that comes back
        have back : p ∈ list ∨ HeldBy handed size p := by
          split at found
          · rename_i same
            subst same
            rw [if_pos rfl] at listed
            cases found
            cases listed
            exact (settled.listed _ l s free stub p member).imp_left (List.mem_cons_of_mem _)
          · rename_i different
            rw [if_neg different] at listed
            exact settled.listed size list stubs found listed p member
        rcases back with still | ⟨holder, known, block, size'⟩
        · exact .inl still
        · by_cases equal : holder = given
          · subst equal
            rw [if_pos size'.symm] at found
            cases found
            exact .inl (block ▸ List.mem_cons_self ..)
          · exact .inr ⟨holder, (List.mem_erase_of_ne equal).mpr known, block, size'⟩
    · cases ran
      cases known

theorem empty_settled : empty.Settled [] where
  listed size l s free := by simp [empty] at free
  stubbed p member := by simp [empty] at member

end MemPool

end TeenpattiUserServer.Net
