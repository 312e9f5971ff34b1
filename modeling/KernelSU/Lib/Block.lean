import KernelSU.Lib.Bytes

/-!
# Records of a fixed size

A C structure that is copied as a whole is a block of bytes; its members are stretches of it.

* `field_write_same`, `field_write_disjoint` — **PROVED**: a store is read back where it was made and is
  not seen elsewhere;
* `word_write_same` — **PROVED**: the same for a word and its encoding.
-/

namespace KernelSU.Lib

open Bytes

/-- A block of `n` bytes. -/
structure Block (n : ℕ) where
  bytes : List UInt8
  length_bytes : bytes.length = n
  deriving DecidableEq, Repr

namespace Block

variable {n : ℕ}

/-- The `k` bytes at offset `o`. -/
def field (b : Block n) (o k : ℕ) : List UInt8 := slice b.bytes o k

/-- The unsigned word of `k` bytes at offset `o`. -/
def word (b : Block n) (o k : ℕ) : ℕ := decodeLE (b.field o k)

/-- A `bool` at offset `o`. -/
def flag (b : Block n) (o : ℕ) : Bool := b.word o 1 != 0

/-- Overwrite the bytes from offset `o` on. -/
def write (b : Block n) (o : ℕ) (w : List UInt8) (h : o + w.length ≤ n) : Block n where
  bytes := patch b.bytes o w
  length_bytes := (patch_length (b.length_bytes.symm ▸ h)).trans b.length_bytes

theorem ext {b b' : Block n} (h : b.bytes = b'.bytes) : b = b' := by
  obtain ⟨bytes, hb⟩ := b
  obtain ⟨bytes', hb'⟩ := b'
  subst h
  rfl

@[simp] theorem field_length (b : Block n) {o k : ℕ} (h : o + k ≤ n) : (b.field o k).length = k :=
  slice_length_of_le (b.length_bytes.symm ▸ h)

theorem field_write_same (b : Block n) {o : ℕ} {w : List UInt8} (h : o + w.length ≤ n) :
    (b.write o w h).field o w.length = w :=
  slice_patch_same (b.length_bytes.symm ▸ h)

theorem field_write_disjoint (b : Block n) {o : ℕ} {w : List UInt8} (h : o + w.length ≤ n) {o' k : ℕ}
    (hd : o' + k ≤ o ∨ o + w.length ≤ o') : (b.write o w h).field o' k = b.field o' k :=
  slice_patch_disjoint (b.length_bytes.symm ▸ h) hd

theorem word_write_same (b : Block n) {o k v : ℕ} (h : o + (encodeLE k v).length ≤ n)
    (hv : v < 256 ^ k) : (b.write o (encodeLE k v) h).word o k = v := by
  have hfield := b.field_write_same h
  rw [encodeLE_length] at hfield
  rw [word, hfield, decodeLE_encodeLE_of_lt k v hv]

end Block

end KernelSU.Lib
