import Mathlib.Algebra.Ring.Int.Defs
import Mathlib.Algebra.Ring.Nat
import Mathlib.Data.List.Basic

/-! Byte buffers as functions from addresses, and integers as byte strings in
the two byte orders. -/

namespace Bytes

/-- The `len` bytes from `start` on. -/
def slice (memory : Nat → UInt8) (start len : Nat) : List UInt8 :=
  (List.range len).map fun i => memory (start + i)

/-- Write `bytes` from `start` on. -/
def store (memory : Nat → UInt8) (start : Nat) (bytes : List UInt8) : Nat → UInt8 := fun i =>
  if start ≤ i ∧ i < start + bytes.length then bytes.getD (i - start) 0 else memory i

@[simp] theorem slice_length (memory : Nat → UInt8) (start len : Nat) :
    (slice memory start len).length = len := by simp [slice]

@[simp] theorem slice_zero (memory : Nat → UInt8) (start : Nat) : slice memory start 0 = [] := rfl

theorem slice_getElem? (memory : Nat → UInt8) (start len i : Nat) :
    (slice memory start len)[i]? = if i < len then some (memory (start + i)) else none := by
  by_cases bound : i < len <;> simp [slice, bound]

theorem slice_congr {memory other : Nat → UInt8} {start len : Nat}
    (same : ∀ i, start ≤ i → i < start + len → other i = memory i) :
    slice other start len = slice memory start len := by
  refine List.map_congr_left fun i member => ?_
  have bound := List.mem_range.mp member
  exact same _ (by omega) (by omega)

theorem slice_append (memory : Nat → UInt8) (start first second : Nat) :
    slice memory start (first + second) = slice memory start first ++ slice memory (start + first) second := by
  simp [slice, List.range_add, Nat.add_assoc, Function.comp_def]

theorem slice_take (memory : Nat → UInt8) (start : Nat) {len n : Nat} (bound : n ≤ len) :
    (slice memory start len).take n = slice memory start n := by
  obtain ⟨rest, rfl⟩ := Nat.exists_eq_add_of_le bound
  rw [slice_append, List.take_left' (slice_length ..)]

theorem slice_drop (memory : Nat → UInt8) (start : Nat) {len n : Nat} (bound : n ≤ len) :
    (slice memory start len).drop n = slice memory (start + n) (len - n) := by
  obtain ⟨rest, rfl⟩ := Nat.exists_eq_add_of_le bound
  rw [slice_append, List.drop_left' (slice_length ..), Nat.add_sub_cancel_left]

@[simp] theorem slice_store (memory : Nat → UInt8) (start : Nat) (bytes : List UInt8) :
    slice (store memory start bytes) start bytes.length = bytes := by
  apply List.ext_getElem
  · simp
  · intro i _ bound
    simp [slice, store, bound]

theorem store_before {memory : Nat → UInt8} {start i : Nat} {bytes : List UInt8} (before : i < start) :
    store memory start bytes i = memory i := by
  simp [store, Nat.not_le.mpr before]

theorem store_after {memory : Nat → UInt8} {start i : Nat} {bytes : List UInt8}
    (after : start + bytes.length ≤ i) : store memory start bytes i = memory i := by
  simp [store, Nat.not_lt.mpr after]

/-- A part of another memory, copied to the same place. -/
theorem store_slice (memory other : Nat → UInt8) {start len i : Nat} (after : start ≤ i) (before : i < start + len) :
    store memory start (slice other start len) i = other i := by
  have place : start + (i - start) = i := Nat.add_sub_cancel' after
  rw [store, if_pos ⟨after, by simpa using before⟩, List.getD_eq_getElem?_getD, slice_getElem?,
    if_pos (by omega), place, Option.getD_some]

/-- Bytes written behind others. -/
theorem store_store_append (memory : Nat → UInt8) (start : Nat) (first second : List UInt8) :
    store (store memory start first) (start + first.length) second = store memory start (first ++ second) := by
  funext i
  simp only [store, List.length_append]
  by_cases later : start + first.length ≤ i
  · by_cases inside : i < start + first.length + second.length
    · rw [if_pos ⟨later, inside⟩, if_pos (by omega), List.getD_eq_getElem?_getD, List.getD_eq_getElem?_getD,
        List.getElem?_append_right (by omega)]
      congr 2
      omega
    · rw [if_neg (by omega), if_neg (by omega), if_neg (by omega)]
  · rw [if_neg (by omega)]
    by_cases inside : start ≤ i
    · rw [if_pos (by omega), if_pos (by omega), List.getD_eq_getElem?_getD, List.getD_eq_getElem?_getD,
        List.getElem?_append_left (by omega)]
    · rw [if_neg (by omega), if_neg (by omega)]

/-- Byte order on the wire. -/
inductive Order where
  | network
  | host
  deriving DecidableEq, Repr

def encodeLittle : Nat → Nat → List UInt8
  | 0, _ => []
  | width + 1, value => UInt8.ofNat value :: encodeLittle width (value / 256)

def decodeLittle : List UInt8 → Nat
  | [] => 0
  | byte :: rest => byte.toNat + 256 * decodeLittle rest

/-- The host is little endian. -/
def encode (order : Order) (width value : Nat) : List UInt8 :=
  match order with
  | .network => (encodeLittle width value).reverse
  | .host => encodeLittle width value

def decode (order : Order) (bytes : List UInt8) : Nat :=
  match order with
  | .network => decodeLittle bytes.reverse
  | .host => decodeLittle bytes

theorem encodeLittle_length (width value : Nat) : (encodeLittle width value).length = width := by
  induction width generalizing value with
  | zero => rfl
  | succ width ih => simp [encodeLittle, ih]

@[simp] theorem encode_length (order : Order) (width value : Nat) : (encode order width value).length = width := by
  cases order <;> simp [encode, encodeLittle_length]

theorem decodeLittle_encodeLittle {width value : Nat} (bound : value < 256 ^ width) :
    decodeLittle (encodeLittle width value) = value := by
  induction width generalizing value with
  | zero =>
    have zero : value = 0 := by simpa using bound
    simp [zero, encodeLittle, decodeLittle]
  | succ width ih =>
    have smaller : value / 256 < 256 ^ width := by
      apply (Nat.div_lt_iff_lt_mul (by decide)).mpr
      simpa [Nat.pow_succ] using bound
    simp only [encodeLittle, decodeLittle, UInt8.toNat_ofNat', ih smaller]
    omega

theorem decode_encode (order : Order) {width value : Nat} (bound : value < 256 ^ width) :
    decode order (encode order width value) = value := by
  cases order <;> simp [encode, decode, decodeLittle_encodeLittle bound]

end Bytes
