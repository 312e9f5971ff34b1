import KernelSU.Lib.Fields
import KernelSU.Manager.ApkSign

/-!
# Which files carry the manager's signature

The format that `check_v2_signature` is for, as a property of the file: the end of the central directory, the
signing block before the directory, its pairs, and the first certificate in the v2 pair.

* `foldl_see_blocks`, `foldl_see_v3`, `foldl_see_valid_one` — **PROVED**: what a walk over the pairs has seen;
* `verdict_foldl_see` — **PROVED**: the verdict after the walk.
-/

namespace KernelSU.Manager.ApkSign

open KernelSU.Lib KernelSU.Lib.Bytes

/-! ### The end of the central directory -/

/-- The word of `k` bytes at an offset. -/
def fileWord (file : List UInt8) (o k : ℕ) : ℕ := decodeLE (slice file o k)

/-- A record that ends the file together with a comment of `i` bytes. -/
def EocdAt (file : List UInt8) (i : ℕ) : Prop :=
  i + 22 ≤ file.length ∧ fileWord file (file.length - i - 2) 2 = i ∧
    fileWord file (file.length - i - 22) 4 = EOCD_MAGIC

instance (file : List UInt8) (i : ℕ) : Decidable (EocdAt file i) := inferInstanceAs (Decidable (_ ∧ _ ∧ _))

/-! ### Pairs -/

/-- A pair of the signing block. -/
structure Pair where
  id : ℕ
  value : List UInt8

/-- How a pair is written. -/
def Pair.bytes (p : Pair) : List UInt8 := encodeLE 8 (4 + p.value.length) ++ (encodeLE 4 p.id ++ p.value)

/-- A pair that can be written. -/
def Pair.Fits (p : Pair) : Prop := p.id < 2 ^ 32 ∧ 4 + p.value.length < 2 ^ 64

theorem Pair.length_bytes (p : Pair) : p.bytes.length = 12 + p.value.length := by
  rw [Pair.bytes, List.length_append, List.length_append, encodeLE_length, encodeLE_length]
  omega

/-! ### Certificates -/

/-- The first certificate of the first signer. -/
def FirstCertificate (value cert : List UInt8) : Prop :=
  ∃ signers rest, LengthField 4 value signers rest ∧
    ∃ signer rest, LengthField 4 signers signer rest ∧
      ∃ signedData rest, LengthField 4 signer signedData rest ∧
        ∃ digests rest, LengthField 4 signedData digests rest ∧
          ∃ certificates rest', LengthField 4 rest certificates rest' ∧
            ∃ rest, LengthField 4 certificates cert rest

section Signature

variable (ksuSha256 : List UInt8 → Option (Block 32)) (expectedSize : ℕ) (expectedSha256 : List UInt8)

/-- A v2 value with the certificate that is expected. -/
def Certified (value : List UInt8) : Prop :=
  ∃ cert, FirstCertificate value cert ∧ cert.length = expectedSize ∧
    ∃ digest, ksuSha256 cert = some digest ∧ expectedSha256 = bin2hex digest.bytes

/-! ### The signing block -/

variable (file : List UInt8)

/-- The offset of the central directory, as the record has it. -/
def cdOffset (eocd : ℕ) : ℕ := fileWord file (eocd + 16) 4

/-- The size of the signing block, as its end has it. -/
def blockSize (eocd : ℕ) : ℕ := fileWord file (cdOffset file eocd - 0x18) 8

/-- The signing block before the central directory that ends at `eocd`. -/
structure SigningBlock (eocd : ℕ) (pairs : List Pair) : Prop where
  noZip64 : 20 ≤ eocd → fileWord file (eocd - 20) 4 ≠ ZIP64_LOCATOR_MAGIC
  cdEnd : cdOffset file eocd + fileWord file (eocd + 12) 4 = eocd
  cdStart : 0x20 ≤ cdOffset file eocd
  magic : slice file (cdOffset file eocd - 16) 16 = SIGNING_BLOCK_MAGIC
  size : 0x18 ≤ blockSize file eocd ∧ blockSize file eocd + 8 ≤ cdOffset file eocd
  sizeAtHead : fileWord file (cdOffset file eocd - blockSize file eocd - 8) 8 = blockSize file eocd
  written : slice file (cdOffset file eocd - blockSize file eocd) (blockSize file eocd - 0x18)
    = pairs.flatMap Pair.bytes
  fits : ∀ p ∈ pairs, p.Fits

/-- Exactly one v2 pair, with the certificate that is expected, and no v3 pair. -/
structure SignedBy (pairs : List Pair) : Prop where
  one : pairs.countP (fun p => p.id = V2_ID) = 1
  noV3 : ∀ p ∈ pairs, p.id ≠ V3_ID ∧ p.id ≠ V3_1_ID
  certified : ∃ p ∈ pairs, p.id = V2_ID ∧ Certified ksuSha256 expectedSize expectedSha256 p.value

/-- A signed file, with a comment of `i` bytes behind its record. -/
structure SignedFile (i : ℕ) : Prop where
  range : i ≤ 0xffff
  eocd : EocdAt file i
  first : ∀ j < i, ¬EocdAt file j
  block : ∃ pairs, SigningBlock file (file.length - i - 22) pairs ∧
    SignedBy ksuSha256 expectedSize expectedSha256 pairs

/-! ### A walk over the pairs -/

open Classical in
/-- What a pair adds to what has been seen. -/
noncomputable def Scan.see (scan : Scan) (p : Pair) : Scan :=
  if p.id = V2_ID then
    { scan with
      v2SigningBlocks := scan.v2SigningBlocks + 1
      v2SigningValid := decide (Certified ksuSha256 expectedSize expectedSha256 p.value) }
  else if p.id = V3_ID then { scan with v3SigningExist := true }
  else if p.id = V3_1_ID then { scan with v31SigningExist := true }
  else scan

theorem foldl_see_blocks (pairs : List Pair) (scan : Scan) :
    (pairs.foldl (Scan.see ksuSha256 expectedSize expectedSha256) scan).v2SigningBlocks
      = scan.v2SigningBlocks + pairs.countP (fun p => p.id = V2_ID) := by
  induction pairs generalizing scan with
  | nil => rfl
  | cons p pairs ih =>
    rw [List.foldl_cons, ih, List.countP_cons]
    by_cases hv2 : p.id = V2_ID
    · have hsee : (scan.see ksuSha256 expectedSize expectedSha256 p).v2SigningBlocks
          = scan.v2SigningBlocks + 1 := by
        rw [Scan.see, if_pos hv2]
      rw [hsee, if_pos (decide_eq_true hv2)]
      omega
    · have hsee : (scan.see ksuSha256 expectedSize expectedSha256 p).v2SigningBlocks = scan.v2SigningBlocks := by
        rw [Scan.see, if_neg hv2]
        split_ifs <;> rfl
      have hother : ¬decide (p.id = V2_ID) = true := by simpa using hv2
      rw [hsee, if_neg hother]
      rfl

/-- No v3 pair has been seen. -/
def Scan.NoV3 (scan : Scan) : Prop := (scan.v3SigningExist || scan.v31SigningExist) = false

theorem foldl_see_v3 (pairs : List Pair) (scan : Scan) :
    (pairs.foldl (Scan.see ksuSha256 expectedSize expectedSha256) scan).NoV3 ↔
      scan.NoV3 ∧ ∀ p ∈ pairs, p.id ≠ V3_ID ∧ p.id ≠ V3_1_ID := by
  induction pairs generalizing scan with
  | nil => simp
  | cons p pairs ih =>
    have hstep : (scan.see ksuSha256 expectedSize expectedSha256 p).NoV3 ↔
        scan.NoV3 ∧ p.id ≠ V3_ID ∧ p.id ≠ V3_1_ID := by
      rw [Scan.see]
      split_ifs with hv2 hv3 hv31
      · simp [Scan.NoV3, hv2, V2_ID, V3_ID, V3_1_ID]
      · simp [Scan.NoV3, hv3]
      · simp [Scan.NoV3, hv31]
      · simp [hv3, hv31]
    rw [List.foldl_cons, ih, hstep, List.forall_mem_cons, and_assoc]

variable {ksuSha256 expectedSize expectedSha256}

/-- Without a v2 pair the verdict on the certificate stays. -/
theorem foldl_see_valid_none {pairs : List Pair} (h : ∀ p ∈ pairs, p.id ≠ V2_ID) (scan : Scan) :
    (pairs.foldl (Scan.see ksuSha256 expectedSize expectedSha256) scan).v2SigningValid = scan.v2SigningValid := by
  induction pairs generalizing scan with
  | nil => rfl
  | cons p pairs ih =>
    obtain ⟨hp, hrest⟩ := List.forall_mem_cons.mp h
    rw [List.foldl_cons, ih hrest, Scan.see, if_neg hp]
    split_ifs <;> rfl

open Classical in
/-- With one v2 pair it is the verdict on that pair. -/
theorem foldl_see_valid_one {pairs : List Pair} (h : pairs.countP (fun p => p.id = V2_ID) = 1) (scan : Scan) :
    (pairs.foldl (Scan.see ksuSha256 expectedSize expectedSha256) scan).v2SigningValid = true ↔
      ∃ p ∈ pairs, p.id = V2_ID ∧ Certified ksuSha256 expectedSize expectedSha256 p.value := by
  induction pairs generalizing scan with
  | nil => cases h
  | cons p pairs ih =>
    rw [List.countP_cons] at h
    by_cases hv2 : p.id = V2_ID
    · have hzero : pairs.countP (fun p => p.id = V2_ID) = 0 := by
        simp only [hv2, decide_true, if_true] at h
        omega
      have hnone : ∀ q ∈ pairs, q.id ≠ V2_ID := by
        intro q hq
        have hcount := List.countP_eq_zero.mp hzero q hq
        simpa using hcount
      rw [List.foldl_cons, foldl_see_valid_none hnone, Scan.see, if_pos hv2]
      constructor
      · intro hvalid
        exact ⟨p, List.mem_cons_self, hv2, of_decide_eq_true hvalid⟩
      · rintro ⟨q, hq, hid, hcert⟩
        rcases List.mem_cons.mp hq with rfl | hq
        · exact decide_eq_true hcert
        · exact absurd hid (hnone q hq)
    · have hone : pairs.countP (fun p => p.id = V2_ID) = 1 := by simpa [hv2] using h
      rw [List.foldl_cons, ih hone]
      constructor
      · rintro ⟨q, hq, hid, hcert⟩
        exact ⟨q, List.mem_cons_of_mem p hq, hid, hcert⟩
      · rintro ⟨q, hq, hid, hcert⟩
        rcases List.mem_cons.mp hq with rfl | hq
        · exact absurd hid hv2
        · exact ⟨q, hq, hid, hcert⟩

/-- **The verdict** after the walk over the pairs. -/
theorem verdict_foldl_see (pairs : List Pair) :
    (pairs.foldl (Scan.see ksuSha256 expectedSize expectedSha256) ⟨0, false, false, false⟩).verdict = true ↔
      SignedBy ksuSha256 expectedSize expectedSha256 pairs := by
  have hblocks := foldl_see_blocks ksuSha256 expectedSize expectedSha256 pairs ⟨0, false, false, false⟩
  have hv3 := foldl_see_v3 ksuSha256 expectedSize expectedSha256 pairs ⟨0, false, false, false⟩
  rw [Nat.zero_add] at hblocks
  rw [Scan.NoV3] at hv3
  rw [Scan.verdict, Bool.and_eq_true, Bool.and_eq_true, beq_iff_eq, hblocks, Bool.not_eq_true', hv3]
  constructor
  · rintro ⟨⟨hone, hvalid⟩, -, hno⟩
    exact ⟨hone, hno, (foldl_see_valid_one hone _).mp hvalid⟩
  · rintro ⟨hone, hno, hcert⟩
    exact ⟨⟨hone, (foldl_see_valid_one hone _).mpr hcert⟩, rfl, hno⟩

end Signature

end KernelSU.Manager.ApkSign
