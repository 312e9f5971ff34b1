import KernelSU.Manager.ApkSignExact

/-!
# Signed files as they are written

* `signedFile_apk` — **PROVED**: a signing block written around a list of pairs makes a signed file, however long
  the pairs are;
* `checkV2Signature_exact` — **PROVED**: `check_v2_signature` ends, reads inside the file, and accepts exactly the
  signed files whose signing block is no larger than it allows.
-/

namespace KernelSU.Manager.ApkSign

open KernelSU.Lib KernelSU.Lib.Bytes KernelSU.Lib.Reading

/-! ### Writing -/

/-- The record that ends a file, for a directory of 20 bytes at `cdOffset`. -/
def eocdRecord (cdOffset : ℕ) : List UInt8 :=
  encodeLE 4 EOCD_MAGIC ++ (encodeLE 8 0 ++ (encodeLE 4 20 ++ (encodeLE 4 cdOffset ++ encodeLE 2 0)))

/-- A file that is a signing block, an empty directory and its record. -/
def apk (pairs : List Pair) : List UInt8 :=
  encodeLE 8 ((pairs.flatMap Pair.bytes).length + 0x18) ++ (pairs.flatMap Pair.bytes ++
    (encodeLE 8 ((pairs.flatMap Pair.bytes).length + 0x18) ++ (SIGNING_BLOCK_MAGIC ++
      (encodeLE 20 0 ++ eocdRecord ((pairs.flatMap Pair.bytes).length + 0x20)))))

theorem eocdRecord_length (cdOffset : ℕ) : (eocdRecord cdOffset).length = 22 := by
  simp only [eocdRecord, List.length_append, encodeLE_length]

theorem apk_length (pairs : List Pair) : (apk pairs).length = (pairs.flatMap Pair.bytes).length + 74 := by
  have hmagic : SIGNING_BLOCK_MAGIC.length = 16 := rfl
  simp only [apk, List.length_append, encodeLE_length, hmagic, eocdRecord_length]
  omega

/-- Where the parts of the file are. -/
theorem hasAt_apk (pairs : List Pair) (n : ℕ) (hn : (pairs.flatMap Pair.bytes).length = n) :
    HasAt (apk pairs) 0 (encodeLE 8 (n + 0x18)) ∧ HasAt (apk pairs) 8 (pairs.flatMap Pair.bytes) ∧
      HasAt (apk pairs) (n + 8) (encodeLE 8 (n + 0x18)) ∧ HasAt (apk pairs) (n + 16) SIGNING_BLOCK_MAGIC ∧
      HasAt (apk pairs) (n + 32) (encodeLE 20 0) ∧ HasAt (apk pairs) (n + 52) (encodeLE 4 EOCD_MAGIC) ∧
      HasAt (apk pairs) (n + 64) (encodeLE 4 20) ∧ HasAt (apk pairs) (n + 68) (encodeLE 4 (n + 0x20)) ∧
      HasAt (apk pairs) (n + 72) (encodeLE 2 0) := by
  have hmagic : SIGNING_BLOCK_MAGIC.length = 16 := rfl
  have hfull := hasAt_full (apk pairs)
  nth_rewrite 2 [apk] at hfull
  rw [eocdRecord, hn] at hfull
  simp only [hasAt_append, encodeLE_length, hmagic, hn, Nat.zero_add] at hfull
  obtain ⟨hhead, hpairs, hsize, hblock, hcd, heocd, -, hcdSize, hcdOffset, hcomment⟩ := hfull
  have hat : ∀ {o o' : ℕ} {w : List UInt8}, HasAt (apk pairs) o w → o = o' → HasAt (apk pairs) o' w := by
    rintro o _ w h rfl
    exact h
  exact ⟨hhead, hpairs, hat hsize (by omega), hat hblock (by omega), hat hcd (by omega), hat heocd (by omega),
    hat hcdSize (by omega), hat hcdOffset (by omega), hat hcomment (by omega)⟩

section Apk

variable {ksuSha256 : List UInt8 → Option (Block 32)} {expectedSize : ℕ} {expectedSha256 : List UInt8}
  {pairs : List Pair} {n : ℕ}

theorem cdOffset_apk (hn : (pairs.flatMap Pair.bytes).length = n) (hfits : n + 0x20 < 2 ^ 32) :
    cdOffset (apk pairs) (n + 52) = n + 0x20 :=
  (hasAt_apk pairs n hn).2.2.2.2.2.2.2.1.word hfits

theorem blockSize_apk (hn : (pairs.flatMap Pair.bytes).length = n) (hfits : n + 0x20 < 2 ^ 32) :
    blockSize (apk pairs) (n + 52) = n + 0x18 := by
  have hword : n + 0x18 < 256 ^ 8 := by omega
  rw [blockSize, cdOffset_apk hn hfits]
  exact (hasAt_apk pairs n hn).2.2.1.word hword

theorem signingBlock_apk (hn : (pairs.flatMap Pair.bytes).length = n) (hfits : n + 0x20 < 2 ^ 32)
    (hpairs : ∀ p ∈ pairs, p.Fits) : SigningBlock (apk pairs) (n + 52) pairs := by
  obtain ⟨hhead, hbody, hsize, hmagic, hcd, -, hcdSize, -, -⟩ := hasAt_apk pairs n hn
  have hcdOffset := cdOffset_apk hn hfits
  have hblockSize := blockSize_apk hn hfits
  have hword : n + 0x18 < 256 ^ 8 := by omega
  constructor
  case noZip64 =>
    intro _
    have hzeros : encodeLE 20 0 = encodeLE 4 0 ++ encodeLE 16 0 := rfl
    rw [hzeros] at hcd
    have hzero : fileWord (apk pairs) (n + 32) 4 = 0 := (hasAt_append.mp hcd).1.word (by decide)
    have hpos : n + 52 - 20 = n + 32 := by omega
    rw [hpos, hzero]
    decide
  case cdEnd =>
    have htwenty : fileWord (apk pairs) (n + 64) 4 = 20 := hcdSize.word (by decide)
    rw [hcdOffset, Nat.add_assoc, htwenty]
  case cdStart => omega
  case magic =>
    have hpos : n + 0x20 - 16 = n + 16 := by omega
    rw [hcdOffset, hpos]
    exact hmagic.slice_eq rfl
  case size => omega
  case sizeAtHead =>
    have hpos : n + 0x20 - (n + 0x18) - 8 = 0 := by omega
    rw [hcdOffset, hblockSize, hpos]
    exact hhead.word hword
  case written =>
    have hpos : n + 0x20 - (n + 0x18) = 8 := by omega
    have hlen : n + 0x18 - 0x18 = n := by omega
    rw [hcdOffset, hblockSize, hpos, hlen]
    exact hbody.slice_eq hn
  case fits => exact hpairs

/-- **A signed file**, with no comment. -/
theorem signedFile_apk (hn : (pairs.flatMap Pair.bytes).length = n) (hfits : n + 0x20 < 2 ^ 32)
    (hpairs : ∀ p ∈ pairs, p.Fits) (hsigned : SignedBy ksuSha256 expectedSize expectedSha256 pairs) :
    SignedFile ksuSha256 expectedSize expectedSha256 (apk pairs) 0 := by
  obtain ⟨-, -, -, -, -, heocd, -, -, hcomment⟩ := hasAt_apk pairs n hn
  have hlength := apk_length pairs
  rw [hn] at hlength
  constructor
  case range => omega
  case eocd =>
    have hsize : fileWord (apk pairs) (n + 72) 2 = 0 := hcomment.word (by decide)
    have hmagic : fileWord (apk pairs) (n + 52) 4 = EOCD_MAGIC := heocd.word (by decide)
    have hpos : n + 74 - 0 - 2 = n + 72 := by omega
    have hpos' : n + 74 - 0 - 22 = n + 52 := by omega
    rw [EocdAt, hlength, hpos, hpos']
    exact ⟨by omega, hsize, hmagic⟩
  case first =>
    intro j hj
    exact absurd hj (Nat.not_lt_zero j)
  case block =>
    have hpos : n + 74 - 0 - 22 = n + 52 := by omega
    rw [hlength, hpos]
    exact ⟨pairs, signingBlock_apk hn hfits hpairs, hsigned⟩

end Apk

/-! ### The value of a v2 pair -/

/-- A field behind its length. -/
def lengthPrefixed (bytes : List UInt8) : List UInt8 := encodeLE 4 bytes.length ++ bytes

theorem lengthPrefixed_length (bytes : List UInt8) : (lengthPrefixed bytes).length = 4 + bytes.length := by
  rw [lengthPrefixed, List.length_append, encodeLE_length]

theorem lengthField_lengthPrefixed {bytes : List UInt8} (h : bytes.length < 2 ^ 32) (rest : List UInt8) :
    LengthField 4 (lengthPrefixed bytes ++ rest) bytes rest :=
  ⟨h, List.append_assoc ..⟩

theorem lengthField_last {bytes : List UInt8} (h : bytes.length < 2 ^ 32) :
    LengthField 4 (lengthPrefixed bytes) bytes [] := by
  have hprefixed := lengthField_lengthPrefixed h []
  rw [List.append_nil] at hprefixed
  exact hprefixed

/-- No digests and one certificate. -/
def signedDataOf (cert : List UInt8) : List UInt8 := lengthPrefixed [] ++ lengthPrefixed (lengthPrefixed cert)

/-- One signer. -/
def v2Value (cert : List UInt8) : List UInt8 :=
  lengthPrefixed (lengthPrefixed (lengthPrefixed (signedDataOf cert)))

theorem signedDataOf_length (cert : List UInt8) : (signedDataOf cert).length = cert.length + 12 := by
  rw [signedDataOf, List.length_append, lengthPrefixed_length, lengthPrefixed_length, lengthPrefixed_length,
    List.length_nil]
  omega

theorem v2Value_length (cert : List UInt8) : (v2Value cert).length = cert.length + 24 := by
  rw [v2Value, lengthPrefixed_length, lengthPrefixed_length, lengthPrefixed_length, signedDataOf_length]
  omega

theorem firstCertificate_v2Value {cert : List UInt8} (h : cert.length ≤ CERT_MAX_LENGTH) :
    FirstCertificate (v2Value cert) cert := by
  rw [CERT_MAX_LENGTH] at h
  have hsignedData := signedDataOf_length cert
  have hsigner := lengthPrefixed_length (signedDataOf cert)
  have hsigners := lengthPrefixed_length (lengthPrefixed (signedDataOf cert))
  have hcertificates := lengthPrefixed_length cert
  exact ⟨_, [], lengthField_last (by omega), _, [], lengthField_last (by omega), _, [], lengthField_last (by omega),
    [], _, lengthField_lengthPrefixed (by decide) _, _, [], lengthField_last (by omega), [],
    lengthField_last (by omega)⟩

/-- A v2 pair with this certificate. -/
def v2Pair (cert : List UInt8) : Pair := ⟨V2_ID, v2Value cert⟩

/-- A pair that is skipped, of any length. -/
def paddingPair (n : ℕ) : Pair := ⟨0x42726577, List.replicate n 0⟩

theorem signedBy_padded {ksuSha256 : List UInt8 → Option (Block 32)} {cert : List UInt8} {digest : Block 32}
    (hcert : cert.length ≤ CERT_MAX_LENGTH) (hdigest : ksuSha256 cert = some digest) (n : ℕ) :
    SignedBy ksuSha256 cert.length (bin2hex digest.bytes) [v2Pair cert, paddingPair n] := by
  constructor
  case one => rfl
  case noV3 =>
    intro p hp
    rcases List.mem_cons.mp hp with rfl | hp
    · exact ⟨show V2_ID ≠ V3_ID by decide, show V2_ID ≠ V3_1_ID by decide⟩
    · obtain rfl := List.mem_singleton.mp hp
      exact ⟨show 0x42726577 ≠ V3_ID by decide, show 0x42726577 ≠ V3_1_ID by decide⟩
  case certified =>
    exact ⟨v2Pair cert, List.mem_cons_self, rfl, cert, firstCertificate_v2Value hcert, rfl, digest, hdigest, rfl⟩

theorem padded_length (cert : List UInt8) (n : ℕ) :
    ([v2Pair cert, paddingPair n].flatMap Pair.bytes).length = cert.length + n + 48 := by
  have hpadding : (paddingPair n).value.length = n := List.length_replicate
  have hvalue : (v2Pair cert).value.length = cert.length + 24 := v2Value_length cert
  rw [List.flatMap_cons, List.flatMap_cons, List.flatMap_nil, List.append_nil, List.length_append, Pair.length_bytes,
    Pair.length_bytes, hvalue, hpadding]
  omega

theorem padded_fits {cert : List UInt8} {n : ℕ} (hcert : cert.length ≤ CERT_MAX_LENGTH) (hn : n < 2 ^ 32) :
    ∀ p ∈ [v2Pair cert, paddingPair n], p.Fits := by
  have hpadding : (paddingPair n).value.length = n := List.length_replicate
  have hvalue : (v2Pair cert).value.length = cert.length + 24 := v2Value_length cert
  rw [CERT_MAX_LENGTH] at hcert
  intro p hp
  rcases List.mem_cons.mp hp with rfl | hp
  · exact ⟨show V2_ID < 2 ^ 32 by decide, by omega⟩
  · obtain rfl := List.mem_singleton.mp hp
    exact ⟨show 0x42726577 < 2 ^ 32 by decide, by omega⟩

/-! ### Exactness -/

/-- **The check is exact.**  It ends, reads inside the file, and accepts the signed files whose signing block is
no larger than `INT_MAX - 8`. -/
theorem checkV2Signature_exact (ksuSha256 : List UInt8 → Option (Block 32)) (expectedSize : ℕ)
    (expectedSha256 file : List UInt8) (fuel : ℕ) (hsize : expectedSize ≤ CERT_MAX_LENGTH)
    (hfuel : file.length ≤ fuel) :
    Within 0 file.length (walkFile file ksuSha256 expectedSize expectedSha256 fuel) ∧
      ∃ b, checkV2Signature file ksuSha256 expectedSize expectedSha256 fuel = some b ∧
        (b = true ↔ ∃ i, SignedFile ksuSha256 expectedSize expectedSha256 file i ∧
          blockSize file (file.length - i - 22) ≤ INT_MAX - 8) :=
  ⟨(safe_walkFile ksuSha256 expectedSize expectedSha256 hfuel).within,
    checkV2Signature_eq ksuSha256 expectedSha256 hfuel hsize⟩

/-- The certificate of the examples, and its digest. -/
def abcCert : List UInt8 := [0x61, 0x62, 0x63]

def abcDigest : Block 32 :=
  ⟨encodeLE 32 0xad1500f261ff10b49c7a1796a36103b02322ae5dde404141eacf018fbf1678ba, encodeLE_length 32 _⟩

/-- The digest as it is expected. -/
def abcSha256 : List UInt8 :=
  "ba7816bf8f01cfea414140de5dae2223b00361a396177a9cb410ff61f20015ad".toList.map fun c => UInt8.ofNat c.toNat

theorem checkV2Signature_apk :
    ∃ i, SignedFile (fun _ => some abcDigest) 3 abcSha256 (apk [v2Pair abcCert]) i ∧
      blockSize (apk [v2Pair abcCert]) ((apk [v2Pair abcCert]).length - i - 22) ≤ INT_MAX - 8 := by
  have hfuel : (apk [v2Pair abcCert]).length ≤ 113 := by decide +kernel
  obtain ⟨-, b, hb, hexact⟩ := checkV2Signature_exact (fun _ => some abcDigest) 3 abcSha256 (apk [v2Pair abcCert]) 113
    (by decide) hfuel
  have haccepts : checkV2Signature (apk [v2Pair abcCert]) (fun _ => some abcDigest) 3 abcSha256 113 = some true := by
    decide +kernel
  exact hexact.mp (Option.some.inj (hb.symm.trans haccepts))

/-- A signed file whose signing block is larger is refused. -/
theorem checkV2Signature_large :
    ∃ file : List UInt8, SignedFile (fun _ => some abcDigest) abcCert.length (bin2hex abcDigest.bytes) file 0 ∧
      ∀ fuel, file.length ≤ fuel →
        checkV2Signature file (fun _ => some abcDigest) abcCert.length (bin2hex abcDigest.bytes) fuel = some false := by
  have hcert : abcCert.length ≤ CERT_MAX_LENGTH := by decide
  obtain ⟨n, hn⟩ : ∃ n, n = 2 ^ 31 := ⟨_, rfl⟩
  have hpairs := padded_length abcCert n
  have hfits : abcCert.length + n + 48 + 0x20 < 2 ^ 32 := by
    rw [hn]
    decide
  have hsigned : SignedFile (fun _ => some abcDigest) abcCert.length (bin2hex abcDigest.bytes)
      (apk [v2Pair abcCert, paddingPair n]) 0 :=
    signedFile_apk hpairs hfits (padded_fits hcert (by omega)) (signedBy_padded hcert rfl n)
  refine ⟨_, hsigned, ?_⟩
  intro fuel hfuel
  obtain ⟨b, hb, hexact⟩ := checkV2Signature_eq (fun _ => some abcDigest) (bin2hex abcDigest.bytes) hfuel hcert
  rw [hb]
  cases b with
  | false => rfl
  | true =>
    -- the record that counts is the one with no comment
    obtain ⟨i, haccepted, hsmall⟩ := hexact.mp rfl
    have hzero : i = 0 := by
      by_contra hne
      exact haccepted.first 0 (Nat.pos_of_ne_zero hne) hsigned.eocd
    have hlength := apk_length [v2Pair abcCert, paddingPair n]
    have hpos : abcCert.length + n + 48 + 74 - 0 - 22 = abcCert.length + n + 48 + 52 := by omega
    rw [hzero, hlength, hpairs, hpos, blockSize_apk hpairs hfits, INT_MAX, hn] at hsmall
    omega

end KernelSU.Manager.ApkSign
