import KernelSU.Lib.BitField
import KernelSU.LkmImage.ModuleElf

/-!
# `userspace/ksud/src/lkm_image.rs`: one relocation of the bootstrap

`apply_bootstrap_relocation` patches a word of the buffer; what it returns is its result and the buffer after it.

* `AbiWord` — the word that the AArch64 ABI asks for, by the type of the relocation;
* `applyBootstrapRelocation_ok` — **PROVED**: on success the word is that one, and no other byte has changed;
* `applyBootstrapRelocation_error` — **PROVED**: an error leaves the buffer as it was;
* `applyBootstrapRelocation_abi` — **PROVED**: the two together, with the bytes outside the word.
-/

namespace KernelSU.LkmImage

open KernelSU.Lib KernelSU.Lib.Bytes

/-! ### Constants -/

def R_AARCH64_ABS64 : ℕ := 257
def R_AARCH64_ABS32 : ℕ := 258
def R_AARCH64_JUMP26 : ℕ := 282
def R_AARCH64_CALL26 : ℕ := 283
def R_AARCH64_ADR_PREL_PG_HI21 : ℕ := 275
def R_AARCH64_ADD_ABS_LO12_NC : ℕ := 277

/-! ### Writing -/

/-- `get_slice_mut`, and `copy_from_slice` of as many bytes. -/
def writeSlice (data : List UInt8) (offset : ℕ) (bytes : List UInt8) : Except String Unit × List UInt8 :=
  if 2 ^ 64 ≤ offset + bytes.length then (.error "offset overflow", data)
  else if offset + bytes.length ≤ data.length then (.ok (), patch data offset bytes)
  else (.error ("offset 0x" ++ hex offset ++ " size 0x" ++ hex bytes.length ++ " is outside output"), data)

/-- `write_u32`. -/
def writeU32 (data : List UInt8) (offset value : ℕ) : Except String Unit × List UInt8 :=
  writeSlice data offset (encodeLE 4 value)

/-- `write_u64`. -/
def writeU64 (data : List UInt8) (offset value : ℕ) : Except String Unit × List UInt8 :=
  writeSlice data offset (encodeLE 8 value)

/-- `read_u32(..)?` and what follows. -/
def withU32 (data : List UInt8) (offset : ℕ) (f : ℕ → Except String Unit × List UInt8) :
    Except String Unit × List UInt8 :=
  match readU32 data offset with
  | .error e => (.error e, data)
  | .ok word => f word

/-! ### The relocation -/

/-- `as i64 as u64`. -/
def asU64 (x : ℤ) : ℕ := (x % 2 ^ 64).toNat

/-- An address with its lower twelve bits cleared. -/
def pageAddress (address : ℕ) : ℕ := address &&& 0xfffffffffffff000

/-- `apply_bootstrap_relocation`; the sums are in `i128` and do not overflow. -/
def applyBootstrapRelocation (output : List UInt8) (outputOffset : ℕ) (placeAddress : UInt64) (relocationType : ℕ)
    (symbolValue : UInt64) (addend : Int64) : Except String Unit × List UInt8 :=
  let value : ℤ := symbolValue.toNat + addend.toInt
  if relocationType = R_AARCH64_ABS64 then
    if outputOffset % 8 ≠ 0 then (.error "unaligned ABS64 relocation", output)
    else if ¬(0 ≤ value ∧ value < 2 ^ 64) then (.error "ABS64 relocation overflow", output)
    else writeU64 output outputOffset value.toNat
  else if relocationType = R_AARCH64_ABS32 then
    if outputOffset % 4 ≠ 0 then (.error "unaligned ABS32 relocation", output)
    else if ¬(0 ≤ value ∧ value < 2 ^ 32) then (.error "ABS32 relocation overflow", output)
    else writeU32 output outputOffset value.toNat
  else if relocationType = R_AARCH64_CALL26 ∨ relocationType = R_AARCH64_JUMP26 then
    let delta := value - placeAddress.toNat
    if Int.tmod delta 4 ≠ 0 then (.error "branch target is not instruction-aligned", output)
    else
      let immediate := Int.tdiv delta 4
      if ¬(-2 ^ 25 ≤ immediate ∧ immediate < 2 ^ 25) then
        (.error "branch target is outside the AArch64 26-bit range", output)
      else
        withU32 output outputOffset fun instruction =>
          let opcode := if relocationType = R_AARCH64_CALL26 then 0x94000000 else 0x14000000
          if instruction &&& 0xfc000000 ≠ opcode then
            (.error "branch relocation does not target the expected instruction", output)
          else writeU32 output outputOffset (opcode ||| (asU64 immediate &&& 0x03ffffff))
  else if relocationType = R_AARCH64_ADR_PREL_PG_HI21 then
    if ¬(0 ≤ value ∧ value < 2 ^ 64) then (.error "ADRP relocation overflow", output)
    else
      let pageDelta := Int.tdiv ((pageAddress value.toNat : ℤ) - pageAddress placeAddress.toNat) 4096
      if ¬(-2 ^ 20 ≤ pageDelta ∧ pageDelta < 2 ^ 20) then
        (.error "ADRP target is outside the AArch64 21-bit page range", output)
      else
        withU32 output outputOffset fun instruction =>
          if instruction &&& 0x9f000000 ≠ 0x90000000 then
            (.error "ADRP relocation does not target an ADRP instruction", output)
          else
            let immediate := asU64 pageDelta &&& 0x1fffff
            let immlo := (immediate &&& 0x3) <<< 29
            let immhi := (immediate >>> 2 &&& 0x7ffff) <<< 5
            -- the mask is `!0x60ff_ffe0`
            writeU32 output outputOffset (instruction &&& 0x9f00001f ||| immlo ||| immhi)
  else if relocationType = R_AARCH64_ADD_ABS_LO12_NC then
    if ¬(0 ≤ value ∧ value < 2 ^ 64) then (.error "ADD relocation overflow", output)
    else
      withU32 output outputOffset fun instruction =>
        if instruction &&& 0x7f400000 ≠ 0x11000000 then
          (.error "ADD relocation does not target an unshifted ADD-immediate instruction", output)
        else
          let immediate := (value.toNat &&& 0xfff) <<< 10
          -- the mask is `!0x003f_fc00`
          writeU32 output outputOffset (instruction &&& 0xffc003ff ||| immediate)
  else (.error s!"unsupported AArch64 bootstrap relocation {relocationType}", output)

/-! ### What the ABI asks for -/

/-- A field of the word as a signed number. -/
def signed (width v : ℕ) : ℤ := Int.bmod v (2 ^ width)

/-- The page of an address. -/
def page (x : ℤ) : ℤ := x - x % 4096

/-- The word that a relocation of a symbol at `S` with addend `A` makes of `word` at the place `P`. -/
inductive AbiWord (S : ℕ) (A : ℤ) (P word : ℕ) : ℕ → ℕ → Prop
  | abs64 {word' : ℕ} : (word' : ℤ) = S + A → AbiWord S A P word R_AARCH64_ABS64 word'
  | abs32 {word' : ℕ} : (word' : ℤ) = S + A → AbiWord S A P word R_AARCH64_ABS32 word'
  | branch {t word'} : t = R_AARCH64_CALL26 ∨ t = R_AARCH64_JUMP26 → 4 * signed 26 (field word' 0 26) = S + A - P →
      Keeps [(0, 26)] word word' → AbiWord S A P word t word'
  | adrp {word'} : 4096 * signed 21 (field word' 5 19 * 4 + field word' 29 2) = page (S + A) - page P →
      Keeps [(5, 19), (29, 2)] word word' → AbiWord S A P word R_AARCH64_ADR_PREL_PG_HI21 word'
  | add {word'} : (field word' 10 12 : ℤ) = (S + A) % 4096 → Keeps [(10, 12)] word word' →
      AbiWord S A P word R_AARCH64_ADD_ABS_LO12_NC word'

/-- How many bytes a relocation patches. -/
def relocationWidth (relocationType : ℕ) : Option ℕ :=
  if relocationType = R_AARCH64_ABS64 then some 8
  else if relocationType = R_AARCH64_ABS32 ∨ relocationType = R_AARCH64_CALL26 ∨ relocationType = R_AARCH64_JUMP26 ∨
    relocationType = R_AARCH64_ADR_PREL_PG_HI21 ∨ relocationType = R_AARCH64_ADD_ABS_LO12_NC then some 4
  else none

/-- The buffer after a relocation: one word is patched as the ABI asks for. -/
def Relocated (output : List UInt8) (offset : ℕ) (P : ℕ) (relocationType S : ℕ) (A : ℤ) (output' : List UInt8) : Prop :=
  ∃ width word', relocationWidth relocationType = some width ∧ offset + width ≤ output.length ∧
    word' < 256 ^ width ∧ output' = patch output offset (encodeLE width word') ∧
    AbiWord S A P (decodeLE (slice output offset width)) relocationType word'

/-! ### Outcomes -/

/-- A result with the buffer after it: success leaves what `Q` says, an error leaves the buffer as it was. -/
def Outcome (output : List UInt8) (Q : List UInt8 → Prop) (r : Except String Unit × List UInt8) : Prop :=
  (r.1 = .ok () → Q r.2) ∧ (r.1 ≠ .ok () → r.2 = output)

section Outcomes

variable {output : List UInt8} {Q : List UInt8 → Prop}

theorem outcome_error (e : String) : Outcome output Q (.error e, output) :=
  ⟨fun h => absurd h (fun h => by cases h), fun _ => rfl⟩

theorem outcome_ite {c : Prop} [Decidable c] {x y : Except String Unit × List UInt8} (hx : c → Outcome output Q x)
    (hy : ¬c → Outcome output Q y) : Outcome output Q (if c then x else y) := by
  by_cases hc : c
  · rw [if_pos hc]
    exact hx hc
  · rw [if_neg hc]
    exact hy hc

theorem outcome_writeSlice {offset : ℕ} {bytes : List UInt8}
    (h : offset + bytes.length ≤ output.length → Q (patch output offset bytes)) :
    Outcome output Q (writeSlice output offset bytes) :=
  outcome_ite (fun _ => outcome_error _) fun _ =>
    outcome_ite (fun hin => ⟨fun _ => h hin, fun hne => absurd rfl hne⟩) fun _ => outcome_error _

theorem outcome_withU32 {offset : ℕ} {f : ℕ → Except String Unit × List UInt8}
    (h : offset + 4 ≤ output.length → Outcome output Q (f (decodeLE (slice output offset 4)))) :
    Outcome output Q (withU32 output offset f) := by
  by_cases hin : offset + 4 ≤ output.length
  · have hread : readU32 output offset = .ok (decodeLE (slice output offset 4)) := by
      rw [readU32, readWord, getSlice, if_pos hin]
      rfl
    rw [withU32, hread]
    exact h hin
  · have hread : ∃ e, readU32 output offset = .error e := by
      rw [readU32, readWord, getSlice, if_neg hin]
      exact ⟨_, rfl⟩
    obtain ⟨e, hread⟩ := hread
    rw [withU32, hread]
    exact outcome_error e

end Outcomes

/-! ### The fields -/

theorem asU64_mask (x : ℤ) {width : ℕ} (hwidth : width ≤ 64) : asU64 x &&& (2 ^ width - 1) = (x % 2 ^ width).toNat := by
  have hnonneg : (0 : ℤ) ≤ x % 2 ^ 64 := Int.emod_nonneg x (by decide)
  have hdvd : (2 : ℤ) ^ width ∣ 2 ^ 64 := pow_dvd_pow 2 hwidth
  rw [asU64, Nat.and_two_pow_sub_one_eq_mod, ← Int.emod_emod_of_dvd x hdvd, Int.toNat_emod hnonneg (by positivity)]
  norm_cast

theorem toNat_emod_lt (x : ℤ) (width : ℕ) : (x % 2 ^ width).toNat < 2 ^ width := by
  have hlt : x % 2 ^ width < 2 ^ width := Int.emod_lt_of_pos x (by positivity)
  have hnonneg : 0 ≤ x % 2 ^ width := Int.emod_nonneg x (by positivity)
  zify
  omega

/-- A signed number that fits is read back from its field. -/
theorem signed_toNat_emod {x : ℤ} {width : ℕ} (hlow : -2 ^ width ≤ x) (hhigh : x < 2 ^ width) :
    signed (width + 1) (x % 2 ^ (width + 1)).toNat = x :=
  bmod_emod_eq hlow hhigh

theorem pageAddress_eq {address : ℕ} (h : address < 2 ^ 64) : (pageAddress address : ℤ) = page address := by
  have hmask : address &&& 0xfffffffffffff000 = field address 12 52 <<< 12 := and_mask address 12 52
  rw [pageAddress, hmask, Nat.shiftLeft_eq, field, page]
  omega

/-- The word of a branch. -/
theorem branchWord {instruction opcode : ℕ} {immediate : ℤ} (hword : instruction < 2 ^ 32)
    (hopcode : instruction &&& 0xfc000000 = opcode) (hlow : -2 ^ 25 ≤ immediate) (hhigh : immediate < 2 ^ 25) :
    signed 26 (field (opcode ||| (asU64 immediate &&& 0x03ffffff)) 0 26) = immediate ∧
      Keeps [(0, 26)] instruction (opcode ||| (asU64 immediate &&& 0x03ffffff)) ∧
      (opcode ||| (asU64 immediate &&& 0x03ffffff)) < 2 ^ 32 := by
  have hencoded : asU64 immediate &&& 0x03ffffff = (immediate % 2 ^ 26).toNat := asU64_mask immediate (show 26 ≤ 64 by decide)
  have hlt := toNat_emod_lt immediate 26
  rw [hencoded, ← hopcode]
  refine ⟨?_, keeps_masked hword ?_ ?_, ?_⟩
  · rw [field_masked (by decide), field, Nat.pow_zero, Nat.div_one, Nat.mod_eq_of_lt hlt]
    exact signed_toNat_emod hlow hhigh
  · have hbits : ∀ i < 32, ¬(0 ≤ i ∧ i < 26) → Nat.testBit 0xfc000000 i = true := by decide
    exact fun i hi hout => hbits i hi (hout _ List.mem_cons_self)
  · intro i hout
    have hbit := testBit_shiftLeft_of_lt hlt (hout _ List.mem_cons_self)
    rwa [Nat.shiftLeft_zero] at hbit
  · refine Nat.or_lt_two_pow (Nat.and_lt_two_pow _ (by decide)) (hlt.trans (by decide))

/-- The two parts of the immediate of an `ADRP`. -/
theorem adrpFields {immlo immhi : ℕ} (hlo : immlo < 2 ^ 2) (hhi : immhi < 2 ^ 19) :
    field (immlo * 2 ^ 29 + immhi * 2 ^ 5) 5 19 = immhi ∧ field (immlo * 2 ^ 29 + immhi * 2 ^ 5) 29 2 = immlo := by
  have hshift : (immlo * 2 ^ 29 + immhi * 2 ^ 5) / 2 ^ 5 = immlo * 2 ^ 24 + immhi := by omega
  have hshift' : (immlo * 2 ^ 29 + immhi * 2 ^ 5) / 2 ^ 29 = immlo := by omega
  rw [field, field, hshift, hshift']
  constructor
  · omega
  · exact Nat.mod_eq_of_lt hlo

/-- The word of an `ADRP`. -/
theorem adrpWord {instruction : ℕ} {pages : ℤ} (hword : instruction < 2 ^ 32) (hlow : -2 ^ 20 ≤ pages)
    (hhigh : pages < 2 ^ 20) {immediate word' : ℕ} (himm : immediate = asU64 pages &&& 0x1fffff)
    (hword' : word' = instruction &&& 0x9f00001f ||| (immediate &&& 0x3) <<< 29 |||
      (immediate >>> 2 &&& 0x7ffff) <<< 5) :
    signed 21 (field word' 5 19 * 4 + field word' 29 2) = pages ∧ Keeps [(5, 19), (29, 2)] instruction word' ∧
      word' < 2 ^ 32 := by
  have hencoded : asU64 pages &&& 0x1fffff = (pages % 2 ^ 21).toNat := asU64_mask pages (show 21 ≤ 64 by decide)
  have hlt := toNat_emod_lt pages 21
  rw [hencoded] at himm
  have hlo : immediate &&& 0x3 = immediate % 2 ^ 2 := Nat.and_two_pow_sub_one_eq_mod immediate 2
  have hhi : immediate >>> 2 &&& 0x7ffff = immediate / 4 := by
    rw [Nat.shiftRight_eq_div_pow]
    exact (Nat.and_two_pow_sub_one_eq_mod _ 19).trans (Nat.mod_eq_of_lt (by omega))
  rw [hlo, hhi, Nat.or_assoc] at hword'
  have hloLt : immediate % 2 ^ 2 < 2 ^ 2 := Nat.mod_lt _ (by decide)
  have hhiLt : immediate / 4 < 2 ^ 19 := by omega
  -- the two parts of the immediate lie next to each other
  have hparts : (immediate % 2 ^ 2) <<< 29 ||| (immediate / 4) <<< 5
      = immediate % 2 ^ 2 * 2 ^ 29 + immediate / 4 * 2 ^ 5 := by
    rw [shiftLeft_or_of_lt (by rw [Nat.shiftLeft_eq]; omega), Nat.shiftLeft_eq]
  subst hword'
  refine ⟨?_, keeps_masked hword ?_ ?_, ?_⟩
  · have hfields : field (instruction &&& 0x9f00001f ||| ((immediate % 2 ^ 2) <<< 29 ||| (immediate / 4) <<< 5)) 5 19 * 4
        + field (instruction &&& 0x9f00001f ||| ((immediate % 2 ^ 2) <<< 29 ||| (immediate / 4) <<< 5)) 29 2
        = immediate := by
      rw [field_masked (by decide), field_masked (by decide), hparts, (adrpFields hloLt hhiLt).1,
        (adrpFields hloLt hhiLt).2]
      omega
    rw [hfields, himm]
    exact signed_toNat_emod hlow hhigh
  · have hbits : ∀ i < 32, ¬(5 ≤ i ∧ i < 24) → ¬(29 ≤ i ∧ i < 31) → Nat.testBit 0x9f00001f i = true := by decide
    exact fun i hi hout => hbits i hi (hout (5, 19) (by simp)) (hout (29, 2) (by simp))
  · intro i hout
    rw [Nat.testBit_or, testBit_shiftLeft_of_lt hloLt (hout (29, 2) (by simp)),
      testBit_shiftLeft_of_lt hhiLt (hout (5, 19) (by simp)), Bool.false_or]
  · refine Nat.or_lt_two_pow (Nat.and_lt_two_pow _ (by decide)) ?_
    rw [hparts]
    omega

/-- The word of an `ADD`. -/
theorem addWord {instruction : ℕ} (target : ℕ) (hword : instruction < 2 ^ 32) :
    field (instruction &&& 0xffc003ff ||| (target &&& 0xfff) <<< 10) 10 12 = target % 4096 ∧
      Keeps [(10, 12)] instruction (instruction &&& 0xffc003ff ||| (target &&& 0xfff) <<< 10) ∧
      (instruction &&& 0xffc003ff ||| (target &&& 0xfff) <<< 10) < 2 ^ 32 := by
  have hlo : target &&& 0xfff = target % 2 ^ 12 := Nat.and_two_pow_sub_one_eq_mod target 12
  have hlt : target % 2 ^ 12 < 2 ^ 12 := Nat.mod_lt _ (by decide)
  rw [hlo]
  refine ⟨?_, keeps_masked hword ?_ ?_, ?_⟩
  · rw [field_masked (by decide), field, Nat.shiftLeft_eq]
    omega
  · have hbits : ∀ i < 32, ¬(10 ≤ i ∧ i < 22) → Nat.testBit 0xffc003ff i = true := by decide
    exact fun i hi hout => hbits i hi (hout _ List.mem_cons_self)
  · exact fun i hout => testBit_shiftLeft_of_lt hlt (hout _ List.mem_cons_self)
  · refine Nat.or_lt_two_pow (Nat.and_lt_two_pow _ (by decide)) ?_
    rw [Nat.shiftLeft_eq]
    omega

/-! ### The relocation does what the ABI asks for -/

section Apply

variable {output : List UInt8} {offset : ℕ} {P S : UInt64} {A : Int64} {t : ℕ}

/-- A word of four bytes at the place. -/
theorem relocated_word {word' : ℕ} (hwidth : relocationWidth t = some 4) (hlt : word' < 2 ^ 32)
    (habi : AbiWord S.toNat A.toInt P.toNat (decodeLE (slice output offset 4)) t word') :
    Outcome output (Relocated output offset P.toNat t S.toNat A.toInt) (writeU32 output offset word') := by
  refine outcome_writeSlice fun hin => ?_
  rw [encodeLE_length] at hin
  exact ⟨4, word', hwidth, hin, hlt, rfl, habi⟩

theorem decodeLE_slice_lt (h : offset + 4 ≤ output.length) : decodeLE (slice output offset 4) < 2 ^ 32 := by
  have hlt := decodeLE_lt (slice output offset 4)
  rw [slice_length_of_le h] at hlt
  exact hlt

/-- An address that fits is its own number. -/
theorem toNat_value {value : ℤ} (h : 0 ≤ value ∧ value < 2 ^ 64) : ((value.toNat : ℕ) : ℤ) = value ∧ value.toNat < 2 ^ 64 := by
  omega

theorem applyBootstrapRelocation_outcome (output : List UInt8) (offset : ℕ) (P : UInt64) (t : ℕ) (S : UInt64)
    (A : Int64) : Outcome output (Relocated output offset P.toNat t S.toNat A.toInt)
      (applyBootstrapRelocation output offset P t S A) := by
  unfold applyBootstrapRelocation
  dsimp only
  refine outcome_ite (fun ht => ?_) fun ht64 => outcome_ite (fun ht => ?_) fun ht32 => outcome_ite (fun ht => ?_)
    fun htBranch => outcome_ite (fun ht => ?_) fun htAdrp => outcome_ite (fun ht => ?_) fun _ => outcome_error _
  · -- ABS64
    subst ht
    refine outcome_ite (fun _ => outcome_error _) fun _ => outcome_ite (fun _ => outcome_error _) fun hrange => ?_
    obtain ⟨hvalue, hlt⟩ := toNat_value (not_not.mp hrange)
    refine outcome_writeSlice fun hin => ?_
    rw [encodeLE_length] at hin
    exact ⟨8, _, rfl, hin, hlt, rfl, .abs64 hvalue⟩
  · -- ABS32
    subst ht
    refine outcome_ite (fun _ => outcome_error _) fun _ => outcome_ite (fun _ => outcome_error _) fun hrange => ?_
    rw [not_not] at hrange
    exact relocated_word rfl (by omega) (.abs32 (by omega))
  · -- CALL26 and JUMP26
    refine outcome_ite (fun _ => outcome_error _) fun haligned => outcome_ite (fun _ => outcome_error _) fun hrange => ?_
    refine outcome_withU32 fun hin => outcome_ite (fun _ => outcome_error _) fun hopcode => ?_
    rw [not_not] at haligned hrange hopcode
    obtain ⟨immediate, hdelta⟩ := Int.dvd_of_tmod_eq_zero haligned
    rw [hdelta, Int.mul_tdiv_cancel_left _ (by decide)] at hrange ⊢
    obtain ⟨hfield, hkeeps, hlt⟩ := branchWord (decodeLE_slice_lt hin) hopcode hrange.1 hrange.2
    have hwidth : relocationWidth t = some 4 := by
      rcases ht with rfl | rfl
      · rfl
      · rfl
    exact relocated_word hwidth hlt (.branch ht (by rw [hfield]; omega) hkeeps)
  · -- ADR_PREL_PG_HI21
    subst ht
    refine outcome_ite (fun _ => outcome_error _) fun hvalue => outcome_ite (fun _ => outcome_error _) fun hrange => ?_
    refine outcome_withU32 fun hin => outcome_ite (fun _ => outcome_error _) fun _ => ?_
    rw [not_not] at hvalue hrange
    obtain ⟨hvalue, hvalueLt⟩ := toNat_value hvalue
    have hpages : (4096 : ℤ) ∣ page (S.toNat + A.toInt) - page P.toNat := by
      rw [page, page]
      omega
    obtain ⟨pages, hpages⟩ := hpages
    rw [pageAddress_eq hvalueLt, pageAddress_eq P.toNat_lt, hvalue, hpages,
      Int.mul_tdiv_cancel_left _ (by decide)] at hrange ⊢
    obtain ⟨hfield, hkeeps, hlt⟩ := adrpWord (decodeLE_slice_lt hin) hrange.1 hrange.2 rfl rfl
    exact relocated_word rfl hlt (.adrp (by rw [hfield, hpages]) hkeeps)
  · -- ADD_ABS_LO12_NC
    subst ht
    refine outcome_ite (fun _ => outcome_error _) fun hvalue => ?_
    refine outcome_withU32 fun hin => outcome_ite (fun _ => outcome_error _) fun _ => ?_
    rw [not_not] at hvalue
    obtain ⟨hvalue, -⟩ := toNat_value hvalue
    obtain ⟨hfield, hkeeps, hlt⟩ := addWord (↑S.toNat + A.toInt).toNat (decodeLE_slice_lt hin)
    exact relocated_word rfl hlt (.add (by rw [hfield]; omega) hkeeps)

/-- **On success** the word is the ABI's and nothing else has changed. -/
theorem applyBootstrapRelocation_ok (h : (applyBootstrapRelocation output offset P t S A).1 = .ok ()) :
    Relocated output offset P.toNat t S.toNat A.toInt (applyBootstrapRelocation output offset P t S A).2 :=
  (applyBootstrapRelocation_outcome output offset P t S A).1 h

/-- **An error** leaves the buffer. -/
theorem applyBootstrapRelocation_error (h : (applyBootstrapRelocation output offset P t S A).1 ≠ .ok ()) :
    (applyBootstrapRelocation output offset P t S A).2 = output :=
  (applyBootstrapRelocation_outcome output offset P t S A).2 h

/-- A byte outside the word. -/
theorem Relocated.getElem?_outside {output' : List UInt8} {P S : ℕ} {A : ℤ}
    (h : Relocated output offset P t S A output') {i : ℕ}
    (hi : ∀ width, relocationWidth t = some width → i < offset ∨ offset + width ≤ i) : output'[i]? = output[i]? := by
  obtain ⟨width, word', hwidth, hin, -, rfl, -⟩ := h
  have hout := hi width hwidth
  have hlength : (encodeLE width word').length = width := encodeLE_length width word'
  rw [getElem?_patch (by rw [hlength]; exact hin), hlength, if_neg (by omega)]

/-- **A relocation follows the ABI.**  It succeeds and makes of the word at its place the one that the ABI asks for,
every byte outside the word being as it was, or it fails and the whole buffer is as it was. -/
theorem applyBootstrapRelocation_abi (output : List UInt8) (offset : ℕ) (P : UInt64) (t : ℕ) (S : UInt64) (A : Int64) :
    (∃ output', applyBootstrapRelocation output offset P t S A = (.ok (), output') ∧
      Relocated output offset P.toNat t S.toNat A.toInt output' ∧ output'.length = output.length ∧
      ∀ i, (∀ width, relocationWidth t = some width → i < offset ∨ offset + width ≤ i) →
        output'[i]? = output[i]?) ∨
    ∃ e, applyBootstrapRelocation output offset P t S A = (.error e, output) := by
  cases hresult : (applyBootstrapRelocation output offset P t S A).1 with
  | ok u =>
    have hrelocated := applyBootstrapRelocation_ok hresult
    refine Or.inl ⟨_, Prod.ext hresult rfl, hrelocated, ?_, fun i hi => hrelocated.getElem?_outside hi⟩
    obtain ⟨width, word', -, hin, -, houtput, -⟩ := hrelocated
    exact (congrArg List.length houtput).trans (patch_length (by rw [encodeLE_length]; exact hin))
  | error e =>
    have hsame := applyBootstrapRelocation_error fun hok => by rw [hresult] at hok; cases hok
    exact Or.inr ⟨e, Prod.ext hresult hsame⟩

end Apply

end KernelSU.LkmImage
