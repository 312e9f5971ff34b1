import KernelSU.Kpm.InlineHook

/-!
# The forms of moved instructions

* `bits32_eq`, `sign64Extend_setWidth` — **PROVED**: the macros take fields apart and extend their sign;
* `decode_keptCond`, `decode_keptZero`, `decode_keptBit`, `decode_movedAdr` — **PROVED**: what the words of the buffer
  that are made from an instruction are.
-/

namespace KernelSU.Kpm

open KernelSU.Lib KernelSU.Lib.Arm64

/-! ### Fields -/

theorem bits32_eq (w : Word) {high low width : ℕ} (hw : low + width = high + 1) (hh : high < 32) :
    bits32 w high low = (w.extractLsb' low width).setWidth 32 := by
  ext i hi
  have hidx : 31 - high + low + i - (31 - high) = low + i := by omega
  simp only [bits32, BitVec.getElem_ushiftRight, BitVec.getLsbD_shiftLeft, BitVec.getElem_setWidth, BitVec.getLsbD_extractLsb', hidx]
  by_cases hin : i < width
  · have h1 : 31 - high + low + i < 32 := by omega
    have h2 : ¬ 31 - high + low + i < 31 - high := by omega
    simp [hin, h1, h2]
  · have h1 : ¬ 31 - high + low + i < 32 := by omega
    simp [hin, h1]

theorem shifted_eq {n m : ℕ} (x : BitVec n) (hn : n ≤ 32) :
    ((x.setWidth 32).setWidth 64 : Addr) <<< m = (x ++ (0 : BitVec m)).setWidth 64 := by
  ext i hi
  rw [BitVec.getElem_setWidth, BitVec.getLsbD_append, BitVec.getElem_shiftLeft]
  by_cases hm : i < m
  · simp [hm]
  · by_cases hin : i - m < 32
    · simp [hm, hin]
    · have hge : x.getLsbD (i - m) = false := BitVec.getLsbD_of_ge x _ (by omega)
      simp [hm, hin, hge]

theorem sign64Extend_setWidth {len : ℕ} (hpos : 0 < len) (hlen : len ≤ 64) (x : BitVec len) :
    sign64Extend (x.setWidth 64) len = x.signExtend 64 := by
  have htop : 63 - (63 - (len - 1)) = len - 1 := by omega
  have hmsb : ((x.setWidth 64 <<< (63 - (len - 1))) >>> 63).getLsbD 0 = x.msb := by
    simp [BitVec.msb_eq_getLsbD_last, htop]
  have hlow : ∀ i, 0 < i → ((x.setWidth 64 <<< (63 - (len - 1))) >>> 63).getLsbD i = false := by
    intro i hi
    simp
    omega
  have hiff : (x.setWidth 64 <<< (63 - (len - 1))) >>> 63 ≠ 0 ↔ x.msb = true := by
    rw [← hmsb]
    constructor
    · intro h
      by_contra hz
      apply h
      ext i hi
      cases i with
      | zero => simpa using hz
      | succ i => simpa using hlow (i + 1) (by omega)
    · intro h hz
      simp [hz] at h
  have hall : (0xFFFFFFFFFFFFFFFF : Addr) = BitVec.allOnes 64 := by decide
  unfold sign64Extend
  ext i hi
  rw [BitVec.getElem_signExtend, hall]
  by_cases hin : i < len
  · rw [dif_pos hin]
    split_ifs with h
    · simp [hin]
    · simp [hin]
  · have hge : x.getLsbD i = false := BitVec.getLsbD_of_ge x i (Nat.not_lt.mp hin)
    rw [dif_neg hin]
    split_ifs with h
    · rw [BitVec.getElem_or, BitVec.getElem_setWidth, BitVec.getElem_shiftLeft, hge, hiff.mp h]
      simp [hin, -BitVec.reduceAllOnes]
    · have hm : x.msb = false := by
        rw [← Bool.not_eq_true, ← hiff]
        exact h
      rw [BitVec.getElem_setWidth, hge, hm]

theorem offset_b (w : Word) : sign64Extend ((bits32 w 25 0).setWidth 64 <<< 2) 28 = offset w 0 26 := by
  rw [bits32_eq w (show 0 + 26 = 25 + 1 from rfl) (by decide), shifted_eq _ (by decide),
    sign64Extend_setWidth (by decide) (by decide), offset]

theorem offset_cb (w : Word) : sign64Extend ((bits32 w 23 5).setWidth 64 <<< 2) 21 = offset w 5 19 := by
  rw [bits32_eq w (show 5 + 19 = 23 + 1 from rfl) (by decide), shifted_eq _ (by decide),
    sign64Extend_setWidth (by decide) (by decide), offset]

theorem offset_tb (w : Word) : sign64Extend ((bits32 w 18 5).setWidth 64 <<< 2) 16 = offset w 5 14 := by
  rw [bits32_eq w (show 5 + 14 = 18 + 1 from rfl) (by decide), shifted_eq _ (by decide),
    sign64Extend_setWidth (by decide) (by decide), offset]

theorem or_shifted_eq {n m : ℕ} (x : BitVec n) (y : BitVec m) (hn : n ≤ 32) (hm : m ≤ 32) :
    (((x.setWidth 32).setWidth 64 : Addr) <<< m) ||| (y.setWidth 32).setWidth 64 = (x ++ y).setWidth 64 := by
  rw [shifted_eq x hn]
  ext i hi
  rw [BitVec.getElem_or, BitVec.getElem_setWidth, BitVec.getElem_setWidth, BitVec.getElem_setWidth, BitVec.getLsbD_append,
    BitVec.getLsbD_append, BitVec.getLsbD_setWidth]
  by_cases him : i < m
  · have hi32 : i < 32 := by omega
    simp [him, hi32]
  · have hge : y.getLsbD i = false := BitVec.getLsbD_of_ge y i (Nat.not_lt.mp him)
    simp [him, hge]

theorem adrOffset_eq (w : Word) :
    sign64Extend (((bits32 w 23 5).setWidth 64 <<< 2) ||| (bits32 w 30 29).setWidth 64) 21 = adrOffset w := by
  rw [bits32_eq w (show 5 + 19 = 23 + 1 from rfl) (by decide), bits32_eq w (show 29 + 2 = 30 + 1 from rfl) (by decide),
    or_shifted_eq _ _ (by decide) (by decide), sign64Extend_setWidth (by decide) (by decide), adrOffset]

theorem adrpOffset_eq (w : Word) :
    sign64Extend (((bits32 w 23 5).setWidth 64 <<< 14) ||| ((bits32 w 30 29).setWidth 64 <<< 12)) 33 = adrpOffset w := by
  have hshift : ((bits32 w 23 5).setWidth 64 <<< 14 : Addr) ||| ((bits32 w 30 29).setWidth 64 <<< 12) =
      ((((w.extractLsb' 5 19 ++ w.extractLsb' 29 2 : BitVec 21).setWidth 32).setWidth 64 : Addr) <<< 12) := by
    rw [bits32_eq w (show 5 + 19 = 23 + 1 from rfl) (by decide), bits32_eq w (show 29 + 2 = 30 + 1 from rfl) (by decide),
      show (14 : ℕ) = 2 + 12 from rfl, BitVec.shiftLeft_add, ← BitVec.shiftLeft_or_distrib,
      or_shifted_eq _ _ (by decide) (by decide), BitVec.setWidth_setWidth (by decide)]
  rw [hshift, shifted_eq _ (by decide), sign64Extend_setWidth (by decide) (by decide), adrpOffset]

/-! ### Words of the buffer -/

/-- The address behind two words. -/
theorem word64_words {text : Text} {a addr : Addr} (h : At text a (words addr)) : text.word64 a = some addr := by
  obtain ⟨hlo, hhi, -⟩ := h
  rw [Text.word64, hlo, Option.bind_some, hhi, Option.map_some]
  congr 1
  ext i hi
  rw [BitVec.getElem_append]
  split_ifs with hlow
  · have hbit : Nat.testBit 4294967295 i = decide (i < 32) := Nat.testBit_two_pow_sub_one 32 i
    have hmask : (4294967295#32)[i] = true := by
      rw [← BitVec.getLsbD_eq_getElem, BitVec.getLsbD_ofNat, hbit, decide_eq_true hlow, Bool.true_and]
    simp [hmask, BitVec.getLsbD_eq_getElem hi]
  · have hadd : 32 + (i - 32) = i := by omega
    simp [hadd, BitVec.getLsbD_eq_getElem hi]

theorem decode_ldr17 : decode 0x58000051 = .ldrX 17 8 := by decide

theorem decode_ret17 : decode 0xD65F0220 = .br 17 := by decide

theorem decode_br17 : decode 0xd61f0220 = .br 17 := by decide

theorem decode_nop : decode ARM64_NOP = .nop := by decide

theorem decode_bti : decode ARM64_BTI_JC = .nop := by decide

theorem decode_b12 : decode 0x14000003 = .b 12 := by decide

theorem decode_b20 : decode 0x14000005 = .b 20 := by decide

theorem decode_b24 : decode 0x14000006 = .b 24 := by decide

theorem decode_adr30 : decode 0x1000001E = .adr 30 0 := by decide

theorem decode_add30 : decode 0x910033DE = .addImm 30 30 12 := by decide

theorem and_ones4 (x : BitVec 4) : x &&& 15#4 = x := BitVec.and_allOnes

theorem and_ones5 (x : BitVec 5) : x &&& 31#5 = x := BitVec.and_allOnes

theorem and_ones1 (x : BitVec 1) : x &&& 1#1 = x := BitVec.and_allOnes

/-- B.cond, kept but for its distance. -/
theorem decode_keptCond {w : Word} (h : w &&& 0xFF000010 = 0x54000000) :
    decode ((w &&& 0xFF00001F) ||| 0x40) = .branchIf (.cond (w.extractLsb' 0 4)) 8 := by
  have hkept : ((w &&& 0xFF00001F) ||| 0x40) &&& 0xFF000010 = 0x54000000 := by
    rw [masked_and]
    simpa using h
  rw [decode_branchCond hkept]
  simp [offset, BitVec.extractLsb'_or, BitVec.extractLsb'_and, and_ones4]

/-- CBZ and CBNZ. -/
theorem decode_keptZero {w : Word} (h : w &&& 0x7E000000 = 0x34000000) :
    decode ((w &&& 0xFF00001F) ||| 0x40) = .branchIf (.zero (w.getLsbD 31) (w.getLsbD 24) (reg w 0)) 8 := by
  have hkept : ((w &&& 0xFF00001F) ||| 0x40) &&& 0x7E000000 = 0x34000000 := by
    rw [masked_and]
    simpa using h
  rw [decode_branchZero hkept]
  simp [offset, reg, BitVec.extractLsb'_or, BitVec.extractLsb'_and, and_ones5]

/-- TBZ and TBNZ. -/
theorem decode_keptBit {w : Word} (h : w &&& 0x7E000000 = 0x36000000) :
    decode ((w &&& 0xFFF8001F) ||| 0x40) =
      .branchIf (.bit (w.getLsbD 24) (w.extractLsb' 31 1 ++ w.extractLsb' 19 5).toNat (reg w 0)) 8 := by
  have hkept : ((w &&& 0xFFF8001F) ||| 0x40) &&& 0x7E000000 = 0x36000000 := by
    rw [masked_and]
    simpa using h
  rw [decode_branchBit hkept]
  simp [offset, reg, BitVec.extractLsb'_or, BitVec.extractLsb'_and, and_ones5, and_ones1]

theorem bits32_reg (w : Word) : bits32 w 4 0 = w &&& 0x1F := by
  rw [bits32_eq w (show 0 + 5 = 4 + 1 from rfl) (by decide)]
  ext i hi
  have hbit : Nat.testBit 31 i = decide (i < 5) := Nat.testBit_two_pow_sub_one 5 i
  have hmask : (31#32)[i] = decide (i < 5) := by
    rw [← BitVec.getLsbD_eq_getElem, BitVec.getLsbD_ofNat, hbit, decide_eq_true hi, Bool.true_and]
  simp [hmask, Bool.and_comm, BitVec.getLsbD_eq_getElem hi]

/-- The load that ADR and ADRP become. -/
theorem decode_movedAdr (w : Word) : decode (0x58000040 ||| bits32 w 4 0) = .ldrX (reg w 0) 8 := by
  rw [bits32_reg, BitVec.or_comm]
  have hkept : ((w &&& 0x1F) ||| 0x58000040) &&& 0xFF000000 = 0x58000000 := by
    rw [masked_and]
    simp
  rw [decode_ldrX hkept]
  simp [offset, reg, BitVec.extractLsb'_or, BitVec.extractLsb'_and, and_ones5]

end KernelSU.Kpm
