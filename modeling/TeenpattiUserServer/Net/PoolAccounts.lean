import TeenpattiUserServer.Net.MemPool

/-! The accounts of `CMemPool`: what each of its nested calls keeps. -/

namespace TeenpattiUserServer.Net

open Bookkeeping

namespace MemPool

/-- What a class of blocks adds to `_allocated_size`. -/
def weight (size : Nat) (s : Finset Nat) : Nat := size * s.card

/-- The free lists are parts of the stubs, the stubs are blocks in memory, and what is
handed out is in the stubs of its size and not free. -/
structure Sound (pool : MemPool) (handed : List Handed) : Prop where
  classes : ∀ size, (pool.free.lookup size).isSome = (pool.stub.lookup size).isSome
  nodup : ∀ {size l}, pool.free.lookup size = some l → l.Nodup
  stubs : ∀ {size l s}, pool.free.lookup size = some l → pool.stub.lookup size = some s → ∀ p ∈ l, p ∈ s
  undeleted : ∀ {size s}, pool.stub.lookup size = some s → ∀ p ∈ s, p ∈ pool.undeleted
  apart : ∀ {size other s t p}, pool.stub.lookup size = some s → pool.stub.lookup other = some t →
    p ∈ s → p ∈ t → size = other
  allocated : pool.allocatedSize = total weight pool.stub
  bounded : pool.allocatedSize ≤ cMaxPoolSize
  distinct : (handed.map Handed.block).Nodup
  given : ∀ given ∈ handed, given.requested < given.size ∧ ∃ l s, pool.free.lookup given.size = some l ∧
    pool.stub.lookup given.size = some s ∧ given.block ∈ s ∧ given.block ∉ l

variable {pool : MemPool} {handed : List Handed} {size other : Nat} {l l' : List Nat} {s s' undeleted : Finset Nat}

theorem free_setClass (pool : MemPool) (size other : Nat) (l : List Nat) (s : Finset Nat) :
    (pool.setClass size l s).free.lookup other = if other = size then some l else pool.free.lookup other :=
  lookup_put_eq ..

theorem stub_setClass (pool : MemPool) (size other : Nat) (l : List Nat) (s : Finset Nat) :
    (pool.setClass size l s).stub.lookup other = if other = size then some s else pool.stub.lookup other :=
  lookup_put_eq ..

theorem weight_le (sound : pool.Sound handed) (stub : pool.stub.lookup size = some s) :
    size * s.card ≤ pool.allocatedSize := by
  have share := share_le_total weight pool.stub size
  rw [stub, share_some] at share
  exact sound.allocated ▸ share

/-- A change of the containers of one size, or new containers for it. -/
theorem Sound.changed (sound : pool.Sound handed) (stub : (pool.stub.lookup size).getD ∅ = s)
    (nodup : l'.Nodup) (stubs : ∀ p ∈ l', p ∈ s')
    (fresh : ∀ p ∈ s', p ∈ s ∨ p ∉ pool.undeleted)
    (kept : ∀ given ∈ handed, given.size = size → given.block ∈ s' ∧ given.block ∉ l')
    (memory : ∀ p, p ∈ undeleted ↔ p ∈ s' ∨ (p ∈ pool.undeleted ∧ p ∉ s)) {allocatedSize waterMark news : Nat}
    (balance : allocatedSize + size * s.card = pool.allocatedSize + size * s'.card)
    (bounded : allocatedSize ≤ cMaxPoolSize) :
    Sound { pool.setClass size l' s' with undeleted, allocatedSize, waterMark, news } handed := by
  have old : ∀ p ∈ s, ∃ stub, pool.stub.lookup size = some stub ∧ p ∈ stub := by
    intro p member
    cases found : pool.stub.lookup size with
    | none => simp [← stub, found] at member
    | some before => exact ⟨before, rfl, by simpa [← stub, found] using member⟩
  have share : share weight size (pool.stub.lookup size) = size * s.card := by
    cases found : pool.stub.lookup size with
    | none => simp [← stub, found]
    | some before => simp [← stub, found, weight]
  constructor
  case classes =>
    intro other
    change ((pool.setClass size l' s').free.lookup other).isSome = ((pool.setClass size l' s').stub.lookup other).isSome
    rw [free_setClass, stub_setClass]
    split
    · rfl
    · exact sound.classes other
  case nodup =>
    intro other list found
    replace found := (free_setClass pool size other l' s').symm.trans found
    split at found
    · exact Option.some.inj found ▸ nodup
    · exact sound.nodup found
  case stubs =>
    intro other list stub' found known
    replace found := (free_setClass pool size other l' s').symm.trans found
    replace known := (stub_setClass pool size other l' s').symm.trans known
    split at found
    · rename_i same
      rw [if_pos same] at known
      cases found
      cases known
      exact stubs
    · rename_i different
      rw [if_neg different] at known
      exact sound.stubs found known
  case undeleted =>
    intro other stub' known p member
    replace known := (stub_setClass pool size other l' s').symm.trans known
    apply (memory p).mpr
    split at known
    · cases known
      exact .inl member
    · rename_i different
      refine .inr ⟨sound.undeleted known p member, ?_⟩
      intro shared
      obtain ⟨before, found, inside⟩ := old p shared
      exact different (sound.apart known found member inside)
  case apart =>
    have outside : ∀ {other t p}, ¬ other = size → pool.stub.lookup other = some t → p ∈ t → p ∉ s' := by
      intro other t p different known member shared
      rcases fresh p shared with before | never
      · obtain ⟨stub', found, inside⟩ := old p before
        exact different (sound.apart known found member inside)
      · exact never (sound.undeleted known p member)
    intro one two t u p first second inFirst inSecond
    replace first := (stub_setClass pool size one l' s').symm.trans first
    replace second := (stub_setClass pool size two l' s').symm.trans second
    split at first <;> split at second
    · rename_i same also
      exact same.trans also.symm
    · rename_i same different
      cases first
      exact absurd inFirst (outside different second inSecond)
    · rename_i different same
      cases second
      exact absurd inSecond (outside different first inFirst)
    · exact sound.apart first second inFirst inSecond
  case allocated =>
    have changed := total_put weight pool.stub size (some s')
    rw [share, share_some, ← sound.allocated] at changed
    change allocatedSize = total weight (put pool.stub size (some s'))
    simp only [weight] at changed
    omega
  case bounded => exact bounded
  case distinct => exact sound.distinct
  case given =>
    intro given member
    obtain ⟨larger, list, stub', found, known, owned, away⟩ := sound.given given member
    refine ⟨larger, ?_⟩
    by_cases same : given.size = size
    · obtain ⟨stays, out⟩ := kept given member same
      refine ⟨l', s', ?_, ?_, stays, out⟩
      · exact (free_setClass pool size given.size l' s').trans (if_pos same)
      · exact (stub_setClass pool size given.size l' s').trans (if_pos same)
    · refine ⟨list, stub', ?_, ?_, owned, away⟩
      · exact (free_setClass pool size given.size l' s').trans ((if_neg same).trans found)
      · exact (stub_setClass pool size given.size l' s').trans ((if_neg same).trans known)

/-- The containers of a size that has none yet. -/
theorem Sound.newClass (sound : pool.Sound handed) (absent : pool.free.lookup size = none) :
    (pool.setClass size [] ∅).Sound handed := by
  have unknown : pool.stub.lookup size = none := by
    have same := sound.classes size
    rw [absent] at same
    simpa using same.symm
  refine sound.changed (show _ = (∅ : Finset Nat) by rw [unknown]; rfl) List.nodup_nil (by simp) (by simp) ?_ (by simp) rfl sound.bounded
  intro given member same
  obtain ⟨_, list, _, found, _⟩ := sound.given given member
  rw [same, absent] at found
  cases found

/-- A class that is there has both containers. -/
theorem Sound.class_exists (sound : pool.Sound handed) (known : (pool.free.lookup size).isSome) :
    ∃ l s, pool.free.lookup size = some l ∧ pool.stub.lookup size = some s := by
  obtain ⟨l, free⟩ := Option.isSome_iff_exists.mp known
  obtain ⟨s, stub⟩ := Option.isSome_iff_exists.mp (sound.classes size ▸ known)
  exact ⟨l, s, free, stub⟩

/-- What the loop of `release` does, when the list is long enough. -/
theorem releaseBlocks_eq (undeleted : Finset Nat) {todo : Nat} (enough : todo ≤ l.length)
    (nodup : l.Nodup) (stubs : ∀ p ∈ l, p ∈ s) :
    ∃ s' undeleted', releaseBlocks todo l s undeleted = some (l.drop todo, s', undeleted') ∧
      s'.card + todo = s.card ∧ (∀ p, p ∈ s' ↔ p ∈ s ∧ p ∉ l.take todo) ∧
      ∀ p, p ∈ undeleted' ↔ p ∈ undeleted ∧ p ∉ l.take todo := by
  induction todo generalizing l s undeleted with
  | zero => exact ⟨s, undeleted, rfl, rfl, by simp, by simp⟩
  | succ todo ih =>
    cases l with
    | nil => simp at enough
    | cons p rest =>
      obtain ⟨absent, others⟩ := List.nodup_cons.mp nodup
      have kept : ∀ q ∈ rest, q ∈ s.erase p := by
        intro q member
        exact Finset.mem_erase.mpr ⟨fun same => absent (same ▸ member), stubs q (List.mem_cons_of_mem _ member)⟩
      obtain ⟨s', undeleted', ran, card, members, memory⟩ :=
        ih (undeleted.erase p) (by simpa using enough) others kept
      refine ⟨s', undeleted', ran, ?_, ?_, ?_⟩
      · have inside : p ∈ s := stubs p (List.mem_cons_self ..)
        have erased := Finset.card_erase_add_one inside
        omega
      · intro q
        rw [members, Finset.mem_erase, List.take_succ_cons, List.mem_cons]
        tauto
      · intro q
        rw [memory, Finset.mem_erase, List.take_succ_cons, List.mem_cons]
        tauto

theorem releaseCount_le (waterMark blockSize freeCount stubCount : Nat) :
    releaseCount waterMark blockSize freeCount stubCount ≤ freeCount := by
  simp only [releaseCount]
  split_ifs <;> omega

/-- What the calls inside `allocate` and `recycle` keep, besides the accounts. -/
structure Shrinks (before after : MemPool) : Prop where
  allocated : after.allocatedSize ≤ before.allocatedSize
  known : ∀ size, (before.free.lookup size).isSome → (after.free.lookup size).isSome

theorem Shrinks.refl (pool : MemPool) : Shrinks pool pool := ⟨Nat.le_refl _, fun _ => id⟩

theorem Shrinks.trans {middle after : MemPool} (first : Shrinks pool middle) (second : Shrinks middle after) :
    Shrinks pool after :=
  ⟨Nat.le_trans second.allocated first.allocated, fun size known => second.known size (first.known size known)⟩

/-- `release` neither fails its assertion nor takes from an empty list. -/
theorem Sound.release (sound : pool.Sound handed) (free : pool.free.lookup size = some l)
    (stub : pool.stub.lookup size = some s) :
    ∃ after, release size l s pool = some after ∧ after.Sound handed ∧ Shrinks pool after := by
  obtain ⟨todo, count⟩ : ∃ todo, todo = releaseCount pool.waterMark size (l.length % 2 ^ 32) (s.card % 2 ^ 32) :=
    ⟨_, rfl⟩
  by_cases none : todo = 0
  · exact ⟨pool, by simp only [MemPool.release, ← count, if_pos none], sound, .refl pool⟩
  · have stubs := sound.stubs free stub
    have enough : todo ≤ l.length :=
      Nat.le_trans (count ▸ releaseCount_le ..) (Nat.mod_le _ _)
    obtain ⟨s', undeleted', ran, card, members, memory⟩ :=
      releaseBlocks_eq pool.undeleted enough (sound.nodup free) stubs
    have whole := weight_le sound stub
    have product : size * s.card = size * s'.card + size * todo := by rw [← card, Nat.mul_add]
    have bounded := sound.bounded
    simp only [cMaxPoolSize] at bounded
    have small : size * todo % 2 ^ 32 = size * todo := Nat.mod_eq_of_lt (by omega)
    have left : (pool.allocatedSize + 2 ^ 32 - size * todo) % 2 ^ 32 = pool.allocatedSize - size * todo := by omega
    have taken : ∀ p ∈ l.take todo, p ∈ l := fun p => List.mem_of_mem_take
    have stubbed : (pool.stub.lookup size).getD ∅ = s := by simp [stub]
    refine ⟨{ pool.setClass size (l.drop todo) s' with
      undeleted := undeleted', allocatedSize := pool.allocatedSize - size * todo }, ?_, ?_, ?_, ?_⟩
    · simp only [MemPool.release, ← count, if_neg none, small, ran, left, Option.map_some]
      rw [if_neg (by omega)]
    · refine sound.changed stubbed ((sound.nodup free).sublist (List.drop_sublist ..)) ?_ ?_ ?_ ?_ ?_ ?_
      · intro p member
        refine (members p).mpr ⟨stubs p (List.mem_of_mem_drop member), ?_⟩
        have apart := (List.take_append_drop todo l).symm ▸ sound.nodup free
        exact fun front => (List.nodup_append.mp apart).2.2 p front p member rfl
      · exact fun p member => .inl ((members p).mp member).1
      · intro given member same
        obtain ⟨_, list, stub', found, known, owned, away⟩ := sound.given given member
        rw [same, free] at found
        rw [same, stub] at known
        cases found
        cases known
        exact ⟨(members _).mpr ⟨owned, fun front => away (taken _ front)⟩, fun back => away (List.mem_of_mem_drop back)⟩
      · intro p
        have inside := sound.undeleted stub p
        have front : p ∈ l.take todo → p ∈ s := fun member => stubs p (taken p member)
        rw [memory, members]
        tauto
      · omega
      · exact Nat.le_trans (Nat.sub_le _ _) sound.bounded
    · exact Nat.sub_le _ _
    · intro other known
      change ((pool.setClass size (l.drop todo) s').free.lookup other).isSome
      rw [free_setClass]
      split
      · rfl
      · exact known

/-- The loop of `release_size` comes to its end. -/
theorem Sound.purge (sound : pool.Sound handed) (last memSize bits purgeSize : Nat) (some' : 0 < bits)
    (enough : purgeSize < 2 ^ (19 + bits)) :
    ∃ after, purge last memSize bits purgeSize pool = some after ∧ after.Sound handed ∧ Shrinks pool after := by
  induction bits generalizing pool purgeSize with
  | zero => omega
  | succ bits ih =>
    simp only [MemPool.purge]
    split
    · rename_i goes
      have large : 2 ^ 20 ≤ purgeSize := goes.2
      have halved : purgeSize / 2 < 2 ^ (19 + bits) := by
        have twice : 2 ^ (19 + (bits + 1)) = 2 * 2 ^ (19 + bits) := by rw [← Nat.add_assoc, Nat.pow_succ, Nat.mul_comm]
        omega
      have further : 0 < bits := by
        rcases Nat.eq_zero_or_pos bits with rfl | positive
        · have narrow : purgeSize < 2 ^ 20 := enough
          omega
        · exact positive
      split
      · rename_i s l stub free
        obtain ⟨middle, released, kept, shrinks⟩ := sound.release free stub
        obtain ⟨after, ran, final, less⟩ := ih kept _ further halved
        exact ⟨after, by rw [released, Option.bind_some, ran], final, shrinks.trans less⟩
      · exact ih sound _ further halved
    · exact ⟨pool, rfl, sound, .refl pool⟩

theorem Sound.setWaterMark (sound : pool.Sound handed) (waterMark : Nat) :
    Sound { pool with waterMark } handed :=
  ⟨sound.classes, sound.nodup, sound.stubs, sound.undeleted, sound.apart, sound.allocated, sound.bounded,
    sound.distinct, sound.given⟩

theorem Sound.releaseSize (sound : pool.Sound handed) (memSize : Nat) :
    ∃ code after, releaseSize memSize pool = some (code, after) ∧ after.Sound handed ∧ Shrinks pool after ∧
      (code = 0 → memSize ≤ pool.allocatedSize - after.allocatedSize) := by
  obtain ⟨purged, ran, kept, shrinks⟩ :=
    (sound.setWaterMark cAllocCapcity).purge pool.allocatedSize memSize 32 (2 ^ 31) (by decide) (by decide)
  have bounded := sound.bounded
  have less : purged.allocatedSize ≤ pool.allocatedSize := shrinks.allocated
  simp only [cMaxPoolSize] at bounded
  have difference : (pool.allocatedSize + 2 ^ 32 - purged.allocatedSize) % 2 ^ 32 =
      pool.allocatedSize - purged.allocatedSize := by omega
  have result : MemPool.releaseSize memSize pool =
      some (if (pool.allocatedSize + 2 ^ 32 - purged.allocatedSize) % 2 ^ 32 < memSize then -1 else 0,
        { purged with waterMark := cMaxWaterMark }) := by
    rw [MemPool.releaseSize, ran, Option.map_some]
  refine ⟨_, _, result, kept.setWaterMark _, ⟨less, shrinks.known⟩, ?_⟩
  intro done
  rw [difference] at done
  by_contra short
  rw [if_pos (by simpa using short)] at done
  cases done

private theorem fitLoop_eq {bits width : Nat} (fits : width ≤ bits) {size : Nat} (small : size < 2 ^ width) (i : Nat) :
    ∃ steps, fitLoop bits size i = i + steps ∧ steps ≤ width ∧ size < 2 ^ steps := by
  induction bits generalizing width size i with
  | zero =>
    obtain rfl : width = 0 := by omega
    exact ⟨0, rfl, Nat.le_refl _, small⟩
  | succ bits ih =>
    by_cases done : size = 0
    · exact ⟨0, by simp [fitLoop, done], Nat.zero_le _, by simp [done]⟩
    · cases width with
      | zero =>
        have zero : size < 1 := small
        omega
      | succ width =>
        rw [Nat.pow_succ] at small
        obtain ⟨steps, loop, bound, below⟩ :=
          ih (by omega : width ≤ bits) (by omega : size / 2 < 2 ^ width) (i + 1)
        refine ⟨steps + 1, ?_, by omega, ?_⟩
        · rw [fitLoop, if_neg done, loop]
          omega
        · rw [Nat.pow_succ]
          omega

/-- The block is larger than what is asked for. -/
theorem lt_fitBlockSize (small : size < 2 ^ 31) : size < fitBlockSize size ∧ fitBlockSize size ≤ 2 ^ 31 := by
  obtain ⟨steps, loop, bound, below⟩ :=
    fitLoop_eq (show 21 ≤ 32 by decide) (show size / 2 ^ 10 < 2 ^ 21 by omega) 10
  have power : fitBlockSize size = 2 ^ (10 + steps) := by
    have least : ¬ 10 + steps < 10 := by omega
    have bounded : 2 ^ (10 + steps) < 2 ^ 32 := Nat.pow_lt_pow_right (by decide) (by omega)
    simp only [fitBlockSize, loop, if_neg least]
    exact Nat.mod_eq_of_lt bounded
  rw [power]
  constructor
  · rw [Nat.pow_add]
    omega
  · exact Nat.pow_le_pow_right (by decide) (by omega)

/-- What the blocks of one extension take together. -/
theorem extension_le (small : size ≤ 2 ^ 31) : size * fitExtendSet size ≤ 2 ^ 31 := by
  by_cases tiny : size < cSlot1
  · rw [fitExtendSet, if_pos tiny]
    simp only [cSlot1] at tiny
    simp only [cExtendSet]
    omega
  · by_cases middling : size < cSlot2
    · rw [fitExtendSet, if_neg tiny, if_pos middling]
      have whole := Nat.mul_div_le cAllocCapcity size
      have capacity : cAllocCapcity ≤ 2 ^ 31 := by decide
      omega
    · rw [fitExtendSet, if_neg tiny, if_neg middling]
      omega

/-- What the loop of `extend` does with fresh blocks. -/
theorem newBlocks_eq (new : NewBlock) (todo news : Nat) (undeleted : Finset Nat) (nodup : l.Nodup)
    (stubs : ∀ p ∈ l, p ∈ s)
    (inside : ∀ p ∈ s, p ∈ undeleted) :
    ∃ l' s' undeleted' news', newBlocks new todo l s undeleted news = (l', s', undeleted', news') ∧ l'.Nodup ∧
      (∀ p ∈ l', p ∈ s') ∧ (∀ p ∈ s, p ∈ s') ∧ (∀ p ∈ s', p ∈ s ∨ p ∉ undeleted) ∧
      (∀ p ∈ l', p ∈ l ∨ p ∉ undeleted) ∧ s'.card = s.card + todo ∧
      ∀ p, p ∈ undeleted' ↔ p ∈ undeleted ∨ p ∈ s' := by
  induction todo generalizing l s undeleted news with
  | zero =>
    refine ⟨l, s, undeleted, news, rfl, nodup, stubs, fun _ => id, fun _ => .inl, fun _ => .inl, rfl, fun p => ?_⟩
    exact ⟨.inl, fun either => either.elim id (inside p)⟩
  | succ todo ih =>
    have fresh := new.fresh news undeleted
    have absent : new.address news undeleted ∉ s := fun member => fresh (inside _ member)
    have nodup' : (new.address news undeleted :: l).Nodup :=
      List.nodup_cons.mpr ⟨fun member => absent (stubs _ member), nodup⟩
    have stubs' : ∀ p ∈ new.address news undeleted :: l, p ∈ insert (new.address news undeleted) s := by
      intro p member
      rcases List.mem_cons.mp member with rfl | before
      · exact Finset.mem_insert_self ..
      · exact Finset.mem_insert_of_mem (stubs p before)
    have inside' : ∀ p ∈ insert (new.address news undeleted) s, p ∈ insert (new.address news undeleted) undeleted := by
      intro p member
      rcases Finset.mem_insert.mp member with rfl | before
      · exact Finset.mem_insert_self ..
      · exact Finset.mem_insert_of_mem (inside p before)
    obtain ⟨l', s', undeleted', news', ran, others, kept, more, origin, listed, card, memory⟩ :=
      ih (news + 1) _ nodup' stubs' inside'
    refine ⟨l', s', undeleted', news', ran, others, kept, ?_, ?_, ?_, ?_, ?_⟩
    · exact fun p member => more p (Finset.mem_insert_of_mem member)
    · intro p member
      rcases origin p member with before | never
      · rcases Finset.mem_insert.mp before with rfl | before
        · exact .inr fresh
        · exact .inl before
      · exact .inr fun known => never (Finset.mem_insert_of_mem known)
    · intro p member
      rcases listed p member with before | never
      · rcases List.mem_cons.mp before with rfl | before
        · exact .inr fresh
        · exact .inl before
      · exact .inr fun known => never (Finset.mem_insert_of_mem known)
    · rw [card, Finset.card_insert_of_notMem absent]
      omega
    · intro p
      rw [memory, Finset.mem_insert]
      have own := more (new.address news undeleted) (Finset.mem_insert_self ..)
      constructor
      · rintro ((rfl | before) | made)
        · exact .inr own
        · exact .inl before
        · exact .inr made
      · rintro (before | made)
        · exact .inl (.inr before)
        · exact .inr made

end MemPool

end TeenpattiUserServer.Net
