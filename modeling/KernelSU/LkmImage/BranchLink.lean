import KernelSU.Lib.BitField

/-!
# `userspace/ksud/src/lkm_image.rs`: the `BL` instruction

* `decodeBlTarget_eq_some_iff`, `encodeBl_eq_ok_iff` — **PROVED**: the opcode is in the upper six bits, and the
  other 26 are the distance in instructions, with its sign;
* `encodeBl_decodeBlTarget` — **PROVED**: each of the two functions undoes the other.
-/

namespace KernelSU.LkmImage

open KernelSU.Lib

/-- `u64::checked_add_signed`. -/
def checkedAddSigned (address : UInt64) (n : ℤ) : Option UInt64 :=
  if 0 ≤ address.toNat + n ∧ address.toNat + n < 2 ^ 64 then some (UInt64.ofNat (address.toNat + n).toNat) else none

/-- `decode_bl_target`. -/
def decodeBlTarget (instruction : UInt32) (sourceAddress : UInt64) : Option UInt64 :=
  if instruction &&& 0xfc000000 ≠ 0x94000000 then none
  else checkedAddSigned sourceAddress ((instruction <<< 6).toInt32.toInt >>> (4 : ℕ))

/-- `encode_bl`; the mask keeps 26 bits of the two's complement, so that `u32::try_from` does not fail. -/
def encodeBl (sourceAddress targetAddress : UInt64) : Except String UInt32 :=
  let displacement : ℤ := targetAddress.toNat - sourceAddress.toNat
  if Int.tmod displacement 4 ≠ 0 then .error "ARM64 BL target is not 4-byte aligned"
  else
    let immediate := displacement >>> (2 : ℕ)
    if ¬(-2 ^ 25 ≤ immediate ∧ immediate < 2 ^ 25) then
      .error ("ARM64 BL from 0x" ++ String.ofList (Nat.toDigits 16 sourceAddress.toNat) ++ " to 0x" ++
        String.ofList (Nat.toDigits 16 targetAddress.toNat) ++ " is out of range")
    else .ok (0x94000000 ||| UInt32.ofNat (immediate % 2 ^ 26).toNat)

/-! ### The fields of the instruction -/

/-- The immediate: the lower 26 bits, with their sign. -/
def blImmediate (instruction : UInt32) : ℤ := Int.bmod instruction.toNat (2 ^ 26)

theorem opcode_iff (instruction : UInt32) :
    instruction &&& 0xfc000000 = 0x94000000 ↔ instruction.toNat / 2 ^ 26 = 37 := by
  have hmask : instruction.toNat &&& 0xfc000000 = field instruction.toNat 26 6 <<< 26 :=
    and_mask instruction.toNat 26 6
  have hlt := instruction.toNat_lt
  rw [← UInt32.toNat_inj, UInt32.toNat_and]
  change instruction.toNat &&& 0xfc000000 = 0x94000000 ↔ _
  rw [hmask, Nat.shiftLeft_eq, field]
  omega

theorem bmod_26 (x : ℤ) :
    Int.bmod x (2 ^ 26) = if x % 0x4000000 < 0x2000000 then x % 0x4000000 else x % 0x4000000 - 0x4000000 := by
  rw [Int.bmod_def]
  rfl

theorem bmod_32 (x : ℤ) :
    Int.bmod x (2 ^ 32) = if x % 0x100000000 < 0x80000000 then x % 0x100000000 else x % 0x100000000 - 0x100000000 := by
  rw [Int.bmod_def]
  rfl

theorem bmod_26_range (x : ℤ) : -2 ^ 25 ≤ Int.bmod x (2 ^ 26) ∧ Int.bmod x (2 ^ 26) < 2 ^ 25 := by
  rw [bmod_26]
  split_ifs <;> omega

theorem bmod_shifts (n : ℕ) : Int.bmod (n * 2 ^ 6 : ℕ) (2 ^ 32) / 2 ^ 4 = 4 * Int.bmod n (2 ^ 26) := by
  rw [bmod_26, bmod_32]
  push_cast
  split_ifs <;> omega

/-- The shifts of `decode_bl_target` extend the sign and scale. -/
theorem shifts_eq (instruction : UInt32) :
    (instruction <<< 6).toInt32.toInt >>> (4 : ℕ) = 4 * blImmediate instruction := by
  have hshift : (instruction <<< 6).toInt32.toInt = Int.bmod (instruction.toNat * 2 ^ 6 : ℕ) (2 ^ 32) := by
    change (instruction <<< 6).toBitVec.toInt = _
    rw [BitVec.toInt_eq_toNat_bmod]
    change Int.bmod ((instruction <<< 6).toNat : ℕ) (2 ^ 32) = _
    rw [UInt32.toNat_shiftLeft, Nat.shiftLeft_eq, Int.natCast_mod]
    exact Int.emod_bmod _ _
  rw [hshift, Int.shiftRight_eq_div_pow]
  exact bmod_shifts instruction.toNat

/-! ### What the functions do -/

/-- **What an instruction branches to.** -/
theorem decodeBlTarget_eq_some_iff {instruction : UInt32} {source target : UInt64} :
    decodeBlTarget instruction source = some target ↔
      instruction.toNat / 2 ^ 26 = 37 ∧ (target.toNat : ℤ) - source.toNat = 4 * blImmediate instruction := by
  have htarget := target.toNat_lt
  rw [decodeBlTarget, shifts_eq, checkedAddSigned, ← opcode_iff]
  by_cases hopcode : instruction &&& 0xfc000000 = 0x94000000
  · rw [if_neg (not_not.mpr hopcode)]
    by_cases hrange : 0 ≤ (source.toNat : ℤ) + 4 * blImmediate instruction ∧
        (source.toNat : ℤ) + 4 * blImmediate instruction < 2 ^ 64
    · rw [if_pos hrange, Option.some.injEq, ← UInt64.toNat_inj,
        UInt64.toNat_ofNat_of_lt' (by rw [UInt64.size]; omega)]
      exact ⟨fun h => ⟨hopcode, by omega⟩, fun h => by omega⟩
    · rw [if_neg hrange]
      exact iff_of_false (fun h => absurd h.symm (Option.some_ne_none _)) fun h => hrange (by omega)
  · rw [if_pos hopcode]
    exact iff_of_false (fun h => absurd h.symm (Option.some_ne_none _)) fun h => hopcode h.1

/-- The instruction with an immediate. -/
theorem word_iff {word : ℕ} {immediate : ℤ} (hlow : -2 ^ 25 ≤ immediate) (hhigh : immediate < 2 ^ 25) :
    37 * 2 ^ 26 + (immediate % 2 ^ 26).toNat = word ↔ word / 2 ^ 26 = 37 ∧ immediate = Int.bmod word (2 ^ 26) := by
  rw [bmod_26]
  split_ifs <;> omega

theorem toNat_word (immediate : ℤ) :
    (0x94000000 ||| UInt32.ofNat (immediate % 2 ^ 26).toNat : UInt32).toNat =
      37 * 2 ^ 26 + (immediate % 2 ^ 26).toNat := by
  have hlt : (immediate % 2 ^ 26).toNat < 2 ^ 26 := by omega
  have hopcode : (0x94000000 : UInt32).toNat = 37 <<< 26 := by decide
  rw [UInt32.toNat_or, UInt32.toNat_ofNat_of_lt' (by rw [UInt32.size]; omega), hopcode, shiftLeft_or_of_lt hlt]

/-- **Which instruction branches there.** -/
theorem encodeBl_eq_ok_iff {source target : UInt64} {word : UInt32} :
    encodeBl source target = .ok word ↔
      word.toNat / 2 ^ 26 = 37 ∧ (target.toNat : ℤ) - source.toNat = 4 * blImmediate word := by
  obtain ⟨hlow, hhigh⟩ : -2 ^ 25 ≤ blImmediate word ∧ blImmediate word < 2 ^ 25 := bmod_26_range _
  simp only [encodeBl]
  generalize (target.toNat : ℤ) - source.toNat = displacement
  by_cases haligned : Int.tmod displacement 4 = 0
  · obtain ⟨immediate, rfl⟩ := Int.dvd_of_tmod_eq_zero haligned
    have hshift : (4 * immediate) >>> (2 : ℕ) = immediate := by
      rw [Int.shiftRight_eq_div_pow]
      omega
    rw [if_neg (not_not.mpr haligned), hshift]
    by_cases hrange : -2 ^ 25 ≤ immediate ∧ immediate < 2 ^ 25
    · rw [if_neg (not_not.mpr hrange), Except.ok.injEq, ← UInt32.toNat_inj, toNat_word,
        word_iff hrange.1 hrange.2]
      exact and_congr_right fun _ => ⟨fun h => congrArg (4 * ·) h, fun h => Int.eq_of_mul_eq_mul_left (by decide) h⟩
    · rw [if_pos hrange]
      refine iff_of_false (fun h => by cases h) fun h => hrange ?_
      have hsame := Int.eq_of_mul_eq_mul_left (by decide) h.2
      exact hsame ▸ ⟨hlow, hhigh⟩
  · rw [if_pos haligned]
    refine iff_of_false (fun h => by cases h) fun h => haligned ?_
    rw [h.2]
    exact Int.mul_tmod_right _ _

/-- **The two functions undo each other.** -/
theorem encodeBl_decodeBlTarget :
    (∀ source target : UInt64,
      ((∃ word, encodeBl source target = .ok word) ↔
        (4 : ℤ) ∣ target.toNat - source.toNat ∧ -2 ^ 27 ≤ (target.toNat : ℤ) - source.toNat ∧
          (target.toNat : ℤ) - source.toNat < 2 ^ 27) ∧
      ∀ word, encodeBl source target = .ok word → decodeBlTarget word source = some target) ∧
    ∀ (word : UInt32) (source target : UInt64),
      decodeBlTarget word source = some target → encodeBl source target = .ok word := by
  refine ⟨fun source target => ⟨⟨?_, ?_⟩, fun word h => ?_⟩, fun word source target h => ?_⟩
  · intro h
    obtain ⟨word, hword⟩ := h
    obtain ⟨-, hdistance⟩ := encodeBl_eq_ok_iff.mp hword
    obtain ⟨hlow, hhigh⟩ : -2 ^ 25 ≤ blImmediate word ∧ blImmediate word < 2 ^ 25 := bmod_26_range _
    exact ⟨⟨_, hdistance⟩, by omega, by omega⟩
  · intro h
    obtain ⟨⟨immediate, hdistance⟩, hlow, hhigh⟩ := h
    have hword := (word_iff (by omega) (by omega)).mp (toNat_word immediate).symm
    refine ⟨_, encodeBl_eq_ok_iff.mpr ⟨hword.1, ?_⟩⟩
    rw [hdistance]
    exact congrArg (4 * ·) hword.2
  · exact decodeBlTarget_eq_some_iff.mpr (encodeBl_eq_ok_iff.mp h)
  · exact encodeBl_eq_ok_iff.mpr (decodeBlTarget_eq_some_iff.mp h)

end KernelSU.LkmImage
