import Mathlib.Data.List.Basic
import Mathlib.Tactic.Ring

/-!
# UTF-16

A character is one code unit below U+10000 and a surrogate pair from there on.  A program that stores its
strings in UTF-16 scans code units, so what a scan of a printed text meets is stated about code units:

* `encodeUtf16_append`, `encodeUtf16_cons` — the encoding is a homomorphism;
* `encodeUtf16Char_ascii` — an ASCII character is its own code unit;
* `eq_of_ascii_mem` — an ASCII code unit comes from the ASCII character only, so that a scan for an ASCII
  delimiter never stops inside another character.
-/

namespace KernelSU.Lib

/-- The code units of a character. -/
def encodeUtf16Char (c : Char) : List UInt16 :=
  if c.toNat < 0x10000 then [UInt16.ofNat c.toNat]
  else
    [UInt16.ofNat (0xD800 + (c.toNat - 0x10000) / 0x400),
      UInt16.ofNat (0xDC00 + (c.toNat - 0x10000) % 0x400)]

/-- The code units of a text. -/
def encodeUtf16 (s : List Char) : List UInt16 := s.flatMap encodeUtf16Char

@[simp] theorem encodeUtf16_nil : encodeUtf16 [] = [] := rfl

@[simp] theorem encodeUtf16_cons (c : Char) (s : List Char) :
    encodeUtf16 (c :: s) = encodeUtf16Char c ++ encodeUtf16 s := rfl

@[simp] theorem encodeUtf16_append (s t : List Char) :
    encodeUtf16 (s ++ t) = encodeUtf16 s ++ encodeUtf16 t := by
  simp [encodeUtf16]

theorem encodeUtf16_ne_nil {s : List Char} (h : s ≠ []) : encodeUtf16 s ≠ [] := by
  obtain ⟨c, cs, rfl⟩ := List.exists_cons_of_ne_nil h
  rw [encodeUtf16_cons, encodeUtf16Char]
  split <;> simp

theorem encodeUtf16Char_ascii {c : Char} (h : c.toNat < 0x80) :
    encodeUtf16Char c = [UInt16.ofNat c.toNat] := by
  rw [encodeUtf16Char, if_pos (by omega)]

theorem toNat_lt_unicode (c : Char) : c.toNat < 0x110000 := by
  have h : c.toNat.isValidChar := c.valid
  rcases h with h | h
  · omega
  · exact h.2

/-- A code unit of a character above ASCII is above ASCII itself. -/
theorem encodeUtf16Char_avoids {c : Char} (h : 0x80 ≤ c.toNat) {u : UInt16}
    (hu : u ∈ encodeUtf16Char c) : 0x80 ≤ u.toNat := by
  have hc : c.toNat < 0x110000 := toNat_lt_unicode c
  rw [encodeUtf16Char] at hu
  split at hu
  · next hbmp =>
    have hval : u = UInt16.ofNat c.toNat := by simpa using hu
    rw [hval, UInt16.toNat_ofNat', Nat.mod_eq_of_lt (by omega)]
    exact h
  · rcases List.mem_cons.mp hu with rfl | hu
    · rw [UInt16.toNat_ofNat', Nat.mod_eq_of_lt (by omega)]
      omega
    · have hval : u = UInt16.ofNat (0xDC00 + (c.toNat - 0x10000) % 0x400) := by simpa using hu
      rw [hval, UInt16.toNat_ofNat', Nat.mod_eq_of_lt (by omega)]
      omega

theorem eq_of_ascii_mem {c d : Char} (hd : d.toNat < 0x80)
    (h : UInt16.ofNat d.toNat ∈ encodeUtf16Char c) : c = d := by
  have hval : (UInt16.ofNat d.toNat).toNat = d.toNat := by
    rw [UInt16.toNat_ofNat', Nat.mod_eq_of_lt (by omega)]
  by_cases hc : c.toNat < 0x80
  · rw [encodeUtf16Char_ascii hc, List.mem_singleton] at h
    have hnat : d.toNat = c.toNat := by
      rw [← hval, h, UInt16.toNat_ofNat', Nat.mod_eq_of_lt (by omega)]
    rw [← Char.ofNat_toNat c, ← hnat, Char.ofNat_toNat]
  · have habove := encodeUtf16Char_avoids (by omega) h
    omega

end KernelSU.Lib
