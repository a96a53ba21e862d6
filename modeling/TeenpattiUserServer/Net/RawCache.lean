import Mathlib.Data.List.Basic
import Mathlib.Data.Nat.Size
import TeenpattiUserServer.Bytes.Memory

/-! `CRawCache`: the bytes received and not yet handled, or accepted and not yet
sent, in one block of the memory pool with a moving head. -/

namespace TeenpattiUserServer.Net

open Bytes

/-- `MAX_WEB_RECV_LEN`: the room for one `recv`. -/
def maxWebRecvLen : Nat := 102400

/-- The lengths are `unsigned`. `mem` is null while no block is held. -/
structure RawCache where
  mem : Option (Nat → UInt8)
  blockSize : Nat
  dataHead : Nat
  dataLen : Nat

namespace RawCache

def empty : RawCache := ⟨none, 0, 0, 0⟩

/-- The bytes at `data()`, `data_len()` of them. -/
def data (cache : RawCache) : List UInt8 :=
  match cache.mem with
  | none => []
  | some mem => slice mem cache.dataHead cache.dataLen

/-- `allocate` is the answer of the pool: the size of the block it hands out, or
null. What a fresh block holds before it is written is taken to be zeros. `none` is
the exception. -/
def append (allocate : Nat → Option Nat) (cache : RawCache) (bytes : List UInt8) : Option RawCache :=
  match cache.mem with
  | none =>
    (allocate bytes.length).map fun blockSize =>
      ⟨some (store (fun _ => 0) 0 bytes), blockSize, 0, bytes.length⟩
  | some mem =>
    if (bytes.length + cache.dataHead + cache.dataLen) % 2 ^ 32 ≤ cache.blockSize then
      some { cache with
        mem := some (store mem (cache.dataHead + cache.dataLen) bytes)
        dataLen := (cache.dataLen + bytes.length) % 2 ^ 32 }
    else if cache.blockSize < (bytes.length + cache.dataLen) % 2 ^ 32 then
      (allocate ((bytes.length + cache.dataLen) % 2 ^ 32)).map fun blockSize =>
        let moved := store (fun _ => 0) 0 (slice mem cache.dataHead cache.dataLen)
        ⟨some (store moved cache.dataLen bytes), blockSize, 0, (cache.dataLen + bytes.length) % 2 ^ 32⟩
    else
      let moved := store mem 0 (slice mem cache.dataHead cache.dataLen)
      some { cache with
        mem := some (store moved cache.dataLen bytes), dataHead := 0
        dataLen := (cache.dataLen + bytes.length) % 2 ^ 32 }

/-- A block of the pool, with the bytes that are in it already. -/
structure Block where
  bytes : Nat → UInt8
  size : Nat

/-- `append`, with what it leaves behind and whether it throws. A failing `allocate` gives null
and does not set the size. -/
def appendThrowing (allocate : Nat → Option Block) (cache : RawCache) (bytes : List UInt8) : RawCache × Bool :=
  match cache.mem with
  | none =>
    match allocate bytes.length with
    | none => ({ cache with mem := none }, true)
    | some block => (⟨some (store block.bytes 0 bytes), block.size, 0, bytes.length⟩, false)
  | some mem =>
    if (bytes.length + cache.dataHead + cache.dataLen) % 2 ^ 32 ≤ cache.blockSize then
      ({ cache with
        mem := some (store mem (cache.dataHead + cache.dataLen) bytes)
        dataLen := (cache.dataLen + bytes.length) % 2 ^ 32 }, false)
    else if cache.blockSize < (bytes.length + cache.dataLen) % 2 ^ 32 then
      match allocate ((bytes.length + cache.dataLen) % 2 ^ 32) with
      | none => (cache, true)
      | some block =>
        let moved := store block.bytes 0 (slice mem cache.dataHead cache.dataLen)
        (⟨some (store moved cache.dataLen bytes), block.size, 0, (cache.dataLen + bytes.length) % 2 ^ 32⟩, false)
    else
      let moved := store mem 0 (slice mem cache.dataHead cache.dataLen)
      ({ cache with
        mem := some (store moved cache.dataLen bytes), dataHead := 0
        dataLen := (cache.dataLen + bytes.length) % 2 ^ 32 }, false)

def skip (cache : RawCache) (length : Nat) : RawCache :=
  match cache.mem with
  | none => cache
  | some _ =>
    if cache.dataLen ≤ length then empty
    else { cache with dataHead := cache.dataHead + length, dataLen := cache.dataLen - length }

/-- The cache holds exactly these bytes inside its block. -/
structure Holds (cache : RawCache) (content : List UInt8) : Prop where
  data : cache.data = content
  length : cache.dataLen = content.length
  fits : cache.dataHead + cache.dataLen ≤ cache.blockSize
  block : cache.blockSize ≤ 2 ^ 31

/-- The pool serves what one `recv` and the part of a packet before it need, with a block that is
large enough. -/
def Serves (allocate : Nat → Option Nat) : Prop :=
  ∀ size, size < maxWebRecvLen + 10240 → ∃ blockSize, allocate size = some blockSize ∧ size ≤ blockSize ∧
    blockSize ≤ 2 ^ 31

/-- `fit_block_size`: the loop counts the bits of the size in units of 1024 bytes. -/
def fitBlockSize (size : Nat) : Nat := 2 ^ (10 + Nat.size (size / 2 ^ 10))

private theorem fitBlockSize_bounds {size : Nat} (small : size < 2 ^ 31) :
    size ≤ fitBlockSize size ∧ fitBlockSize size ≤ 2 ^ 31 := by
  constructor
  · have large := Nat.lt_size_self (size / 2 ^ 10)
    rw [fitBlockSize, Nat.pow_add]
    omega
  · have few : Nat.size (size / 2 ^ 10) ≤ 21 := Nat.size_le.mpr (by omega)
    exact Nat.pow_le_pow_right (by decide) (by omega)

/-- The pool's own block sizes serve, as long as the system has memory for them. -/
theorem fitBlockSize_serves : Serves fun size => some (fitBlockSize size) :=
  fun size small => ⟨fitBlockSize size, rfl, fitBlockSize_bounds (by simp only [maxWebRecvLen] at small; omega)⟩

variable {allocate : Nat → Option Nat} {cache : RawCache} {content bytes : List UInt8}

theorem empty_holds : empty.Holds [] := ⟨rfl, rfl, Nat.le_refl 0, by decide⟩

private theorem slice_grown {memory grown : Nat → UInt8} {start len from' : Nat} (bytes : List UInt8)
    (old : slice grown start len = slice memory from' len) :
    slice (store grown (start + len) bytes) start (len + bytes.length) = slice memory from' len ++ bytes := by
  rw [slice_append, slice_store, ← old]
  congr 1
  exact slice_congr fun i _ bound => store_before bound

/-- A block is as large as it was asked for. -/
def Grants (allocate : Nat → Option Nat) (size : Nat) : Prop :=
  ∀ blockSize, allocate size = some blockSize → size ≤ blockSize ∧ blockSize ≤ 2 ^ 31

/-- The pool holds at most 2000 MiB, so its largest block has 1 GiB. -/
def limitedPool (size : Nat) : Option Nat := if size < 2 ^ 30 then some (fitBlockSize size) else none

theorem limitedPool_grants (size : Nat) : Grants limitedPool size := by
  intro blockSize served
  unfold limitedPool at served
  split_ifs at served with small
  cases served
  exact fitBlockSize_bounds (by omega)

private theorem Serves.grants (serves : Serves allocate) {size : Nat} (small : size < maxWebRecvLen + 10240) :
    Grants allocate size := by
  intro blockSize served
  obtain ⟨other, same, bounds⟩ := serves size small
  rw [served] at same
  cases same
  exact bounds

/-- The cache has exactly these bytes, in its block. -/
structure Queued (cache : RawCache) (content : List UInt8) : Prop where
  data : cache.data = content
  length : cache.dataLen = content.length
  fits : cache.dataHead + cache.dataLen ≤ cache.blockSize

theorem Holds.queued (holds : cache.Holds content) : cache.Queued content := ⟨holds.data, holds.length, holds.fits⟩

theorem empty_queued : empty.Queued [] := empty_holds.queued

/-- `append` is the same one, as long as it does not throw. -/
theorem append_eq (allocate : Nat → Option Nat) (cache : RawCache) (bytes : List UInt8) :
    cache.append allocate bytes =
      let result := cache.appendThrowing (fun size => (allocate size).map (Block.mk fun _ => 0)) bytes
      if result.2 then none else some result.1 := by
  cases shape : cache.mem with
  | none => cases served : allocate bytes.length <;> simp [append, appendThrowing, shape, served]
  | some mem =>
    simp only [append, appendThrowing, shape]
    by_cases direct : (bytes.length + cache.dataHead + cache.dataLen) % 2 ^ 32 ≤ cache.blockSize
    · simp only [direct, if_true, Bool.false_eq_true, if_false]
    · by_cases larger : cache.blockSize < (bytes.length + cache.dataLen) % 2 ^ 32
      · cases served : allocate ((bytes.length + cache.dataLen) % 2 ^ 32) <;> simp only [direct, larger, if_true,
          if_false, Option.map_none, Option.map_some, Bool.false_eq_true]
      · simp only [direct, larger, if_false, Bool.false_eq_true]

/-- What `append` may do: it throws and changes nothing, or the content is in the same block or in
one that was asked for. -/
inductive Appended (allocate : Nat → Option Block) (cache : RawCache) (content : List UInt8) :
    RawCache × Bool → Prop where
  | thrown (refused : allocate content.length = none) : Appended allocate cache content (cache, true)
  | same {after : RawCache} (queued : after.Queued content) (size : after.blockSize = cache.blockSize) :
      Appended allocate cache content (after, false)
  | moved {after : RawCache} {block : Block} (queued : after.Queued content)
      (served : allocate content.length = some block) (size : after.blockSize = block.size) :
      Appended allocate cache content (after, false)

/-- Bytes that are moved to the front of a block, with others behind them. -/
private theorem Queued.moved {mem base : Nat → UInt8} (old : content = slice mem cache.dataHead cache.dataLen)
    (length : cache.dataLen = content.length) {blockSize : Nat} (fits : content.length + bytes.length ≤ blockSize) :
    Queued ⟨some (store (store base 0 (slice mem cache.dataHead cache.dataLen)) cache.dataLen bytes), blockSize, 0,
      cache.dataLen + bytes.length⟩ (content ++ bytes) := by
  have front : slice (store base 0 (slice mem cache.dataHead cache.dataLen)) 0 cache.dataLen =
      slice mem cache.dataHead cache.dataLen := by
    have same := slice_store base 0 (slice mem cache.dataHead cache.dataLen)
    rwa [slice_length] at same
  have grown := slice_grown bytes front
  rw [Nat.zero_add] at grown
  refine ⟨?_, by rw [List.length_append, length], ?_⟩
  · rw [old]
    exact grown
  · change 0 + (_ + _) ≤ blockSize
    omega

theorem Queued.append {allocate : Nat → Option Block} (queued : cache.Queued content)
    (room : bytes.length + cache.dataHead + cache.dataLen < 2 ^ 32)
    (grants : ∀ block, allocate (content ++ bytes).length = some block → (content ++ bytes).length ≤ block.size) :
    Appended allocate cache (content ++ bytes) (cache.appendThrowing allocate bytes) := by
  have length := queued.length
  have fits := queued.fits
  have grownLength : cache.dataLen + bytes.length = (content ++ bytes).length := by rw [List.length_append, length]
  cases shape : cache.mem with
  | none =>
    have none : content = [] := by rw [← queued.data, RawCache.data, shape]
    subst none
    rw [List.nil_append] at grants ⊢
    cases served : allocate bytes.length with
    | none =>
      have result : cache.appendThrowing allocate bytes = (cache, true) := by
        simp only [appendThrowing, shape, served]
        rw [← shape]
      rw [result]
      exact .thrown served
    | some block =>
      simp only [appendThrowing, shape, served]
      refine .moved ⟨by simp [RawCache.data], rfl, ?_⟩ served rfl
      simpa using grants block served
  | some mem =>
    have old : content = slice mem cache.dataHead cache.dataLen := by rw [← queued.data, RawCache.data, shape]
    have total : (cache.dataLen + bytes.length) % 2 ^ 32 = cache.dataLen + bytes.length :=
      Nat.mod_eq_of_lt (by omega)
    have sum : (bytes.length + cache.dataHead + cache.dataLen) % 2 ^ 32 =
        bytes.length + cache.dataHead + cache.dataLen := Nat.mod_eq_of_lt room
    have need : (bytes.length + cache.dataLen) % 2 ^ 32 = (content ++ bytes).length := by
      rw [← grownLength, Nat.add_comm, total]
    simp only [appendThrowing, shape, sum, need, total]
    split_ifs with direct larger
    · refine .same ⟨?_, grownLength, ?_⟩ rfl
      · rw [old]
        exact slice_grown bytes rfl
      · change cache.dataHead + (_ + _) ≤ cache.blockSize
        omega
    · cases served : allocate (content ++ bytes).length with
      | none => exact .thrown served
      | some block => exact .moved (.moved old length (by simpa using grants block served)) served rfl
    · exact .same (.moved old length (by simpa using larger)) rfl

theorem Queued.skip (queued : cache.Queued content) (n : Nat) : (cache.skip n).Queued (content.drop n) := by
  have length := queued.length
  have fits := queued.fits
  cases shape : cache.mem with
  | none =>
    have none : content = [] := by rw [← queued.data, RawCache.data, shape]
    subst content
    simpa [RawCache.skip, shape] using queued
  | some mem =>
    by_cases all : cache.dataLen ≤ n
    · have gone : content.drop n = [] := List.drop_eq_nil_of_le (by omega)
      simpa [RawCache.skip, shape, all, gone] using empty_queued
    · simp only [RawCache.skip, shape, all, if_false]
      refine ⟨?_, ?_, by change cache.dataHead + n + (cache.dataLen - n) ≤ cache.blockSize; omega⟩
      · rw [← queued.data]
        simp only [RawCache.data, shape]
        exact (slice_drop mem cache.dataHead (by omega)).symm
      · simp [length]

/-- Where the bytes are appended, they follow what the cache held. -/
theorem Holds.appended (holds : cache.Holds content) (small : bytes.length < 2 ^ 31)
    (grants : ∀ size, size ≤ content.length + bytes.length → Grants allocate size) {after : RawCache}
    (appended : cache.append allocate bytes = some after) : after.Holds (content ++ bytes) := by
  have fits := holds.fits
  have block := holds.block
  have zeros {size blockSize : Nat} (bound : size = (content ++ bytes).length)
      (served : allocate size = some blockSize) : size ≤ blockSize ∧ blockSize ≤ 2 ^ 31 :=
    grants size (by rw [bound, List.length_append]) blockSize served
  have outcome := @Queued.append cache content bytes (fun size => (allocate size).map (Block.mk fun _ => 0))
    holds.queued (by omega) fun block served => by
      obtain ⟨blockSize, answer, rfl⟩ := Option.map_eq_some_iff.mp served
      exact (zeros rfl answer).1
  rw [append_eq] at appended
  generalize cache.appendThrowing _ bytes = result at appended outcome
  cases outcome with
  | thrown => cases appended
  | same queued size =>
    obtain rfl := Option.some.inj appended
    exact ⟨queued.data, queued.length, queued.fits, size ▸ block⟩
  | moved queued served size =>
    obtain rfl := Option.some.inj appended
    obtain ⟨blockSize, answer, rfl⟩ := Option.map_eq_some_iff.mp served
    exact ⟨queued.data, queued.length, queued.fits, size ▸ (zeros rfl answer).2⟩

theorem Holds.append (holds : cache.Holds content) (serves : Serves allocate)
    (small : content.length + bytes.length < maxWebRecvLen + 10240) :
    ∃ after, cache.append allocate bytes = some after ∧ after.Holds (content ++ bytes) := by
  have length := holds.length
  have few : content.length + bytes.length < 2 ^ 31 := by
    simp only [maxWebRecvLen] at small
    omega
  have served : ∃ after, cache.append allocate bytes = some after := by
    cases shape : cache.mem with
    | none =>
      obtain ⟨blockSize, served, _⟩ := serves bytes.length (by omega)
      simp only [RawCache.append, shape, served, Option.map_some]
      exact ⟨_, rfl⟩
    | some mem =>
      obtain ⟨blockSize, served, _⟩ := serves ((bytes.length + cache.dataLen) % 2 ^ 32) (by omega)
      simp only [RawCache.append, shape, served, Option.map_some]
      split_ifs <;> exact ⟨_, rfl⟩
  obtain ⟨after, appended⟩ := served
  exact ⟨after, appended, holds.appended (by omega) (fun size bound => serves.grants (by omega)) appended⟩

theorem Holds.skip (holds : cache.Holds content) (n : Nat) : (cache.skip n).Holds (content.drop n) := by
  have block := holds.block
  have skipped := holds.queued.skip n
  refine ⟨skipped.data, skipped.length, skipped.fits, ?_⟩
  cases shape : cache.mem with
  | none => simpa [RawCache.skip, shape] using block
  | some mem =>
    simp only [RawCache.skip, shape]
    split_ifs
    · exact Nat.zero_le _
    · exact block

theorem Holds.dataLen_eq_zero (holds : cache.Holds content) : cache.dataLen = 0 ↔ content = [] := by
  rw [holds.length, List.length_eq_zero_iff]

end RawCache

end TeenpattiUserServer.Net
