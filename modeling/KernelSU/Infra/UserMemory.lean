import KernelSU.Sulog.Event

/-!
# User memory of a request

* `UserMem` — what stands behind the pointer that a request carries;
* `copyFromUser`, `copyToUser`, `strncpyFromUser` — the kernel's accesses;
* `cString_bufferAfter` — **PROVED**: the string that a copy into a zeroed buffer leaves.
-/

namespace KernelSU.Infra

open KernelSU.Lib KernelSU.Lib.Bytes KernelSU.Sulog

/-- The bytes from a pointer on as far as they can be read, and how many of them can be written. -/
structure UserMem where
  bytes : List UInt8
  writable : ℕ
  deriving DecidableEq

namespace UserMem

/-- `copy_from_user` of the `n` bytes at offset `o`. -/
def copyFromUser (mem : UserMem) (o n : ℕ) : Option (List UInt8) :=
  if o + n ≤ mem.bytes.length then some (slice mem.bytes o n) else none

/-- `copy_to_user` to offset `o`: whether all was copied, and the memory, which is written up to the first byte that
cannot be. -/
def copyToUser (mem : UserMem) (o : ℕ) (bs : List UInt8) : Bool × UserMem :=
  let limit := min mem.writable mem.bytes.length
  if o + bs.length ≤ limit then (true, { mem with bytes := patch mem.bytes o bs })
  else (false, { mem with bytes := if o ≤ limit then patch mem.bytes o (bs.take (limit - o)) else mem.bytes })

end UserMem

/-- `strncpy_from_user`: what it returns, which does not count the NUL, and what it has written. -/
def strncpyFromUser (s : UserStr) (count : ℕ) : ℤ × List UInt8 :=
  match s with
  | .str bytes _ =>
    if bytes.length < count then (bytes.length, bytes ++ [0]) else (count, bytes.take count)
  | .fault copied => (Errno.EFAULT.val, copied.take count)

/-- A buffer of zeros after a copy. -/
def bufferAfter (size : ℕ) (written : List UInt8) : List UInt8 := patch (List.replicate size 0) 0 written

theorem bufferAfter_eq (size : ℕ) (written : List UInt8) :
    bufferAfter size written = written ++ List.replicate (size - written.length) 0 := by
  rw [bufferAfter, patch, List.take_zero, List.nil_append, Nat.zero_add, List.drop_replicate]

theorem cString_append_zero {t : List UInt8} (h : 0 ∉ t) (rest : List UInt8) : cString (t ++ 0 :: rest) = t := by
  have hpos : ∀ b ∈ t, (b != 0) = true := fun b hb => bne_iff_ne.mpr fun heq => h (heq ▸ hb)
  rw [cString, List.takeWhile_append_of_pos hpos, List.takeWhile_cons_of_neg (by simp), List.append_nil]

/-- Zeros stay zeros. -/
theorem set_zeros (t : List UInt8) (n i : ℕ) (h : t.length ≤ i) :
    (t ++ List.replicate n 0).set i 0 = t ++ List.replicate n 0 := by
  rw [List.set_append_right i 0 h]
  congr 1
  apply List.ext_getElem?
  intro j
  rw [List.getElem?_set]
  split_ifs with hij hj
  · subst hij
    rw [List.length_replicate] at hj
    rw [List.getElem?_replicate, if_pos hj]
  · rw [List.length_replicate] at hj
    rw [List.getElem?_replicate, if_neg (hij ▸ hj)]
  · rfl

/-- **A string** that is copied into a zeroed buffer, the last byte of which is then set to NUL, is cut there. -/
theorem cString_bufferAfter {bytes : List UInt8} (h : 0 ∉ bytes) {size count : ℕ}
    (hcount : count = size + 1 ∨ count = size) :
    cString ((bufferAfter (size + 1) (strncpyFromUser (.str bytes h) count).2).set size 0) = bytes.take size := by
  have htake : 0 ∉ bytes.take size := fun hmem => h (List.mem_of_mem_take hmem)
  by_cases hfits : bytes.length < count
  · have hwritten : (strncpyFromUser (.str bytes h) count).2 = bytes ++ [0] := by
      show (if bytes.length < count then _ else _ : ℤ × List UInt8).2 = _
      rw [if_pos hfits]
    have hzeros : bufferAfter (size + 1) (bytes ++ [0]) = bytes ++ List.replicate (size + 1 - bytes.length) 0 := by
      have hlength : size + 1 - bytes.length = (size + 1 - (bytes ++ [0]).length) + 1 := by
        rw [List.length_append, List.length_singleton]
        omega
      rw [bufferAfter_eq, hlength, List.replicate_succ, List.append_assoc]
      rfl
    have hsucc : size + 1 - bytes.length = (size - bytes.length) + 1 := by omega
    rw [hwritten, hzeros, set_zeros bytes _ size (by omega), hsucc, List.replicate_succ, cString_append_zero h,
      List.take_of_length_le (by omega)]
  · -- the string does not fit, and its last byte is overwritten or a zero is left
    have hwritten : (strncpyFromUser (.str bytes h) count).2 = bytes.take count := by
      show (if bytes.length < count then _ else _ : ℤ × List UInt8).2 = _
      rw [if_neg hfits]
    have hlong : size ≤ bytes.length := by omega
    have hbuffer : (bufferAfter (size + 1) (bytes.take count)).set size 0 = bytes.take size ++ [0] := by
      have hlength : (bytes.take size).length = size := List.length_take_of_le hlong
      have hset : ∀ b : UInt8, (bytes.take size ++ [b]).set size 0 = bytes.take size ++ [0] := by
        intro b
        rw [List.set_append_right size 0 (by omega), hlength, Nat.sub_self]
        rfl
      rcases hcount with rfl | rfl
      · have hlt : size < bytes.length := by omega
        have hfull : (bytes.take (size + 1)).length = size + 1 := List.length_take_of_le hlt
        rw [bufferAfter_eq, hfull, Nat.sub_self, List.replicate_zero, List.append_nil, List.take_succ_eq_append_getElem hlt]
        exact hset _
      · rw [bufferAfter_eq, hlength, Nat.add_sub_cancel_left]
        exact hset 0
    rw [hwritten, hbuffer]
    exact cString_append_zero htake []

end KernelSU.Infra
