import KernelSU.Lib.Bytes

/-!
# Byte memory

A memory gives every address a byte.  Buffers are stretches of it.

* `bytesAt_store_inside` — **PROVED**: a store into a stretch is a patch of the buffer that it holds;
* `bytesAt_store_apart`, `store_apart` — **PROVED**: a store elsewhere is not seen;
* `slice_bytesAt` — **PROVED**: a stretch of a stretch.
-/

namespace KernelSU.Lib

open Bytes

/-- What every address holds. -/
abbrev Memory := ℕ → UInt8

namespace Memory

/-- The `n` bytes from `a` on. -/
def bytesAt (mem : Memory) (a n : ℕ) : List UInt8 := (List.range n).map fun i => mem (a + i)

/-- Overwrite the bytes from `a` on. -/
def store (mem : Memory) (a : ℕ) (bs : List UInt8) : Memory :=
  fun x => if a ≤ x then (bs[x - a]?).getD (mem x) else mem x

/-- The unsigned word of `k` bytes at `a`. -/
def word (mem : Memory) (a k : ℕ) : ℕ := decodeLE (mem.bytesAt a k)

variable (mem : Memory)

@[simp] theorem bytesAt_length (a n : ℕ) : (mem.bytesAt a n).length = n := by simp [bytesAt]

theorem getElem?_bytesAt (a n i : ℕ) : (mem.bytesAt a n)[i]? = if i < n then some (mem (a + i)) else none := by
  rw [bytesAt, List.getElem?_map]
  split
  · next h => rw [List.getElem?_range h]; rfl
  · next h => rw [List.getElem?_eq_none (by simpa using h)]; rfl

theorem slice_bytesAt {a n o k : ℕ} (h : o + k ≤ n) : slice (mem.bytesAt a n) o k = mem.bytesAt (a + o) k := by
  apply List.ext_getElem?
  intro i
  rw [getElem?_slice, getElem?_bytesAt, getElem?_bytesAt]
  split
  · rw [if_pos (by omega), Nat.add_assoc]
  · rfl

theorem bytesAt_add (a m n : ℕ) : mem.bytesAt a (m + n) = mem.bytesAt a m ++ mem.bytesAt (a + m) n := by
  rw [bytesAt, List.range_add, List.map_append, List.map_map]
  apply congrArg
  apply List.map_congr_left
  intro i _
  rw [Function.comp_apply, Nat.add_assoc]

/-- A store is not seen outside of its stretch. -/
theorem store_apart {a x : ℕ} {bs : List UInt8} (h : x < a ∨ a + bs.length ≤ x) : mem.store a bs x = mem x := by
  rw [store]
  split
  · rw [List.getElem?_eq_none (by omega)]
    rfl
  · rfl

theorem store_inside {a i : ℕ} {bs : List UInt8} (h : i < bs.length) : mem.store a bs (a + i) = bs[i] := by
  rw [store, if_pos (Nat.le_add_right a i), Nat.add_sub_cancel_left, List.getElem?_eq_getElem h]
  rfl

theorem bytesAt_store_apart {a b n : ℕ} {bs : List UInt8} (h : b + n ≤ a ∨ a + bs.length ≤ b) :
    (mem.store a bs).bytesAt b n = mem.bytesAt b n := by
  apply List.map_congr_left
  intro i hi
  rw [List.mem_range] at hi
  exact mem.store_apart (by omega)

/-- A store into a buffer patches it. -/
theorem bytesAt_store_inside {a n o : ℕ} {bs : List UInt8} (h : o + bs.length ≤ n) :
    (mem.store (a + o) bs).bytesAt a n = patch (mem.bytesAt a n) o bs := by
  apply List.ext_getElem?
  intro i
  rw [getElem?_patch (by rw [bytesAt_length]; exact h), getElem?_bytesAt, getElem?_bytesAt]
  by_cases hin : o ≤ i ∧ i < o + bs.length
  · have hat : a + i = a + o + (i - o) := by omega
    rw [if_pos hin, if_pos (by omega), hat, mem.store_inside (by omega), List.getElem?_eq_getElem]
  · rw [if_neg hin, mem.store_apart (by omega)]

/-- A buffer that was stored is there. -/
theorem bytesAt_store_same (a : ℕ) (bs : List UInt8) : (mem.store a bs).bytesAt a bs.length = bs := by
  apply List.ext_getElem?
  intro i
  rw [getElem?_bytesAt]
  split
  · next h => rw [mem.store_inside h, List.getElem?_eq_getElem]
  · next h => rw [List.getElem?_eq_none (by omega)]

/-- A word of a buffer is read where the buffer is. -/
theorem word_of_bytesAt {a n o k : ℕ} {bs : List UInt8} (hbs : mem.bytesAt a n = bs) (h : o + k ≤ n) :
    mem.word (a + o) k = decodeLE (slice bs o k) := by
  rw [word, ← hbs, mem.slice_bytesAt h]

end Memory

end KernelSU.Lib
