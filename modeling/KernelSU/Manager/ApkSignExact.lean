import KernelSU.Manager.ApkSignBounds

/-!
# The signature check is exact

* `checkBlock_ok` — **PROVED**: `check_block` accepts a v2 value exactly when its first certificate is the one
  that is expected;
* `scanPairs_ok` — **PROVED**: the loop comes to its end exactly over a list of pairs, and has seen each of them;
* `findEocd_ok`, `centralDirectory_ok`, `signingBlock_ok` — **PROVED**: what each part of the search finds;
* `checkV2Signature_eq` — **PROVED**: the verdict on a file.
-/

namespace KernelSU.Manager.ApkSign

open KernelSU.Lib KernelSU.Lib.Bytes KernelSU.Lib.Reading

variable {file : List UInt8}

/-! ### Fields -/

theorem readLengthPrefixedEnd_ok {p e : ℕ} {bytes : List UInt8} (h : HasAt file p bytes) (he : p + bytes.length = e)
    (hsmall : bytes.length ≤ INT_MAX) {r : ℤ × ℤ} :
    (readLengthPrefixedEnd file p e).result = .ok r ↔
      ∃ field rest, LengthField 4 bytes field rest ∧ r = (((p + 4 : ℕ) : ℤ), ((p + 4 + field.length : ℕ) : ℤ)) := by
  have hfits := h.1
  rw [readLengthPrefixedEnd, bind_result_ok]
  constructor
  · rintro ⟨length, hlength, hr⟩
    obtain ⟨hword, rfl⟩ := (readExactWord_ok (by omega)).mp hlength
    obtain ⟨_, hcheck, hr⟩ := bind_result_ok.mp hr
    have hroom := ensure_result_ok.mp hcheck
    cases hr
    dsimp only at hroom
    have hfield := hasAt_field h (k := 4) (n := fileWord file p 4) rfl (by omega)
    refine ⟨_, _, hfield, ?_⟩
    rw [slice_length_of_le (by omega), Nat.cast_add (p + 4)]
  · rintro ⟨field, rest, hfield, rfl⟩
    obtain ⟨hword, -, -⟩ := h.field hfield
    have hlength := hfield.length_eq
    refine ⟨_, (readExactWord_ok (by omega)).mpr ⟨by omega, rfl⟩, ?_⟩
    refine bind_result_ok.mpr ⟨(), ensure_result_ok.mpr ?_, ?_⟩
    · dsimp only [fileWord]
      omega
    · dsimp only [fileWord]
      rw [hword, Nat.cast_add (p + 4)]
      rfl

/-- **One field down.**  After the length of a field the walk goes on inside it. -/
theorem descend_ok {γ : Type} {p e : ℕ} {bytes : List UInt8} (h : HasAt file p bytes) (he : p + bytes.length = e)
    (hsmall : bytes.length ≤ INT_MAX) {f : ℤ × ℤ → Reading Stop γ} {c : γ} :
    (readLengthPrefixedEnd file p e >>= f).result = .ok c ↔
      ∃ field rest, LengthField 4 bytes field rest ∧ HasAt file (p + 4) field ∧ field.length ≤ INT_MAX ∧
        (f (((p + 4 : ℕ) : ℤ), ((p + 4 + field.length : ℕ) : ℤ))).result = .ok c := by
  rw [bind_result_ok]
  constructor
  · rintro ⟨r, hr, hc⟩
    obtain ⟨field, rest, hfield, rfl⟩ := (readLengthPrefixedEnd_ok h he hsmall).mp hr
    have hlength := hfield.length_eq
    exact ⟨field, rest, hfield, (h.field hfield).2.1, by omega, hc⟩
  · rintro ⟨field, rest, hfield, -, -, hc⟩
    exact ⟨_, (readLengthPrefixedEnd_ok h he hsmall).mpr ⟨field, rest, hfield, rfl⟩, hc⟩

/-! ### The v2 block -/

section Block

variable {ksuSha256 : List UInt8 → Option (Block 32)} {expectedSize : ℕ} {expectedSha256 : List UInt8}

/-- The certificate that `check_block` has come to. -/
theorem certificate_ok {p e : ℕ} {certificates : List UInt8} (h : HasAt file p certificates)
    (he : p + certificates.length = e) (hsmall : certificates.length ≤ INT_MAX)
    (hsize : expectedSize ≤ CERT_MAX_LENGTH) {f : List UInt8 × ℤ → Reading Stop Unit} :
    (do
      let certificateSize ← readExactWord file 4 p e
      ensure (¬(INT_MAX < certificateSize.1 ∨ (e : ℤ) - certificateSize.2 < certificateSize.1)) .refused
      ensure (certificateSize.1 = expectedSize) .refused
      ensure (certificateSize.1 ≤ CERT_MAX_LENGTH) .refused
      let cert ← readExact file certificateSize.1 certificateSize.2 e
      f cert).result = .ok () ↔
      ∃ cert rest, LengthField 4 certificates cert rest ∧ cert.length = expectedSize ∧
        (f (cert, ((p + 4 + expectedSize : ℕ) : ℤ))).result = .ok () := by
  have hfits := h.1
  constructor
  · intro hr
    obtain ⟨size, hword, hr⟩ := bind_result_ok.mp hr
    obtain ⟨hin, rfl⟩ := (readExactWord_ok (by omega)).mp hword
    obtain ⟨_, hcheck, hr⟩ := bind_result_ok.mp hr
    obtain ⟨_, hexpected, hr⟩ := bind_result_ok.mp hr
    obtain ⟨_, -, hr⟩ := bind_result_ok.mp hr
    obtain ⟨cert, hcert, hr⟩ := bind_result_ok.mp hr
    have hroom := ensure_result_ok.mp hcheck
    have hequal := ensure_result_ok.mp hexpected
    dsimp only at hroom hequal hcert
    obtain ⟨-, rfl⟩ := (readExact_ok (by omega)).mp hcert
    have hfield := hasAt_field h (k := 4) (n := fileWord file p 4) rfl (by omega)
    refine ⟨_, _, hfield, ?_, ?_⟩
    · rw [slice_length_of_le (by omega), hequal]
    · rw [← hequal]
      exact hr
  · rintro ⟨cert, rest, hfield, hexpected, hr⟩
    obtain ⟨hword, hcert, -⟩ := h.field hfield
    have hlength := hfield.length_eq
    have hequal : fileWord file p 4 = expectedSize := hword.trans hexpected
    refine bind_result_ok.mpr ⟨_, (readExactWord_ok (by omega)).mpr ⟨by omega, rfl⟩, ?_⟩
    refine bind_result_ok.mpr ⟨(), ensure_result_ok.mpr ?_, ?_⟩
    · dsimp only
      omega
    refine bind_result_ok.mpr ⟨(), ensure_result_ok.mpr hequal, ?_⟩
    refine bind_result_ok.mpr ⟨(), ensure_result_ok.mpr ?_, ?_⟩
    · dsimp only
      omega
    refine bind_result_ok.mpr ⟨_, (readExact_ok (by omega)).mpr ⟨?_, rfl⟩, ?_⟩
    · dsimp only
      omega
    · dsimp only
      rw [hequal, hcert.slice_eq hexpected]
      exact hr

/-- **`check_block`** accepts the certificate that is expected, and nothing else. -/
theorem checkBlock_ok {p e : ℕ} {value : List UInt8} (h : HasAt file p value) (he : p + value.length = e)
    (hsmall : value.length ≤ INT_MAX) (hsize : expectedSize ≤ CERT_MAX_LENGTH) :
    (checkBlock file ksuSha256 expectedSize expectedSha256 p e).result = .ok () ↔
      Certified ksuSha256 expectedSize expectedSha256 value := by
  rw [checkBlock, descend_ok h he hsmall]
  constructor
  · rintro ⟨signers, rest₁, hsigners, hat, hlen, hr⟩
    obtain ⟨signer, rest₂, hsigner, hat, hlen, hr⟩ := (descend_ok hat rfl hlen).mp hr
    obtain ⟨signedData, rest₃, hsignedData, hat, hlen, hr⟩ := (descend_ok hat rfl hlen).mp hr
    obtain ⟨digests, rest₄, hdigests, -, -, hr⟩ := (descend_ok hat rfl hlen).mp hr
    have hbehind := (hat.field hdigests).2.2
    have hlength := hdigests.length_eq
    obtain ⟨certificates, rest₅, hcertificates, hat, hlen, hr⟩ :=
      (descend_ok hbehind (by omega) (by omega)).mp hr
    obtain ⟨cert, rest₆, hcert, hexpected, hr⟩ := (certificate_ok hat rfl hlen hsize).mp hr
    refine ⟨cert, ⟨signers, rest₁, hsigners, signer, rest₂, hsigner, signedData, rest₃, hsignedData, digests, rest₄,
      hdigests, certificates, rest₅, hcertificates, rest₆, hcert⟩, hexpected, ?_⟩
    dsimp only at hr
    split at hr
    · cases hr
    · next digest hdigest => exact ⟨digest, hdigest, ensure_result_ok.mp hr⟩
  · rintro ⟨cert, ⟨signers, rest₁, hsigners, signer, rest₂, hsigner, signedData, rest₃, hsignedData, digests, rest₄,
      hdigests, certificates, rest₅, hcertificates, rest₆, hcert⟩, hexpected, digest, hdigest, hhash⟩
    have hat₁ := (h.field hsigners).2.1
    have hlen₁ := hsigners.length_eq
    refine ⟨signers, rest₁, hsigners, hat₁, by omega, (descend_ok hat₁ rfl (by omega)).mpr ?_⟩
    have hat₂ := (hat₁.field hsigner).2.1
    have hlen₂ := hsigner.length_eq
    refine ⟨signer, rest₂, hsigner, hat₂, by omega, (descend_ok hat₂ rfl (by omega)).mpr ?_⟩
    have hat₃ := (hat₂.field hsignedData).2.1
    have hlen₃ := hsignedData.length_eq
    refine ⟨signedData, rest₃, hsignedData, hat₃, by omega, (descend_ok hat₃ rfl (by omega)).mpr ?_⟩
    obtain ⟨-, hat₄, hbehind⟩ := hat₃.field hdigests
    have hlen₄ := hdigests.length_eq
    refine ⟨digests, rest₄, hdigests, hat₄, by omega, (descend_ok hbehind (by omega) (by omega)).mpr ?_⟩
    have hat₅ := (hbehind.field hcertificates).2.1
    have hlen₅ := hcertificates.length_eq
    refine ⟨certificates, rest₅, hcertificates, hat₅, by omega,
      (certificate_ok hat₅ rfl (by omega) hsize).mpr ⟨cert, rest₆, hcert, hexpected, ?_⟩⟩
    dsimp only
    rw [hdigest]
    exact ensure_result_ok.mpr hhash

/-! ### The pairs -/

open Classical in
theorem isOk_checkBlock {p e : ℕ} {value : List UInt8} (h : HasAt file p value) (he : p + value.length = e)
    (hsmall : value.length ≤ INT_MAX) (hsize : expectedSize ≤ CERT_MAX_LENGTH) :
    (checkBlock file ksuSha256 expectedSize expectedSha256 p e).result.isOk
      = decide (Certified ksuSha256 expectedSize expectedSha256 value) := by
  have hblock : (checkBlock file ksuSha256 expectedSize expectedSha256 p e).result = .ok () ↔
      Certified ksuSha256 expectedSize expectedSha256 value := checkBlock_ok h he hsmall hsize
  cases hresult : (checkBlock file ksuSha256 expectedSize expectedSha256 p e).result with
  | ok u => exact (decide_eq_true (hblock.mp hresult)).symm
  | error stop =>
    refine (decide_eq_false fun hcert => ?_).symm
    rw [hblock.mpr hcert] at hresult
    cases hresult

theorem seePair_ok {p e : ℕ} {pair : Pair} (h : HasAt file p pair.value) (he : p + pair.value.length = e)
    (hsmall : pair.value.length ≤ INT_MAX) (hsize : expectedSize ≤ CERT_MAX_LENGTH) (scan : Scan) :
    (seePair file ksuSha256 expectedSize expectedSha256 scan pair.id p e).result
      = .ok (scan.see ksuSha256 expectedSize expectedSha256 pair) := by
  rw [seePair, Scan.see]
  split
  · rw [bind_of_ok (succeeds_result _), isOk_checkBlock h he hsmall hsize]
    rfl
  · split
    · rfl
    · split
      · rfl
      · rfl

/-- A pair is a field of its id and its value. -/
theorem Pair.field_iff {pair : Pair} {bytes rest : List UInt8} :
    bytes = pair.bytes ++ rest ∧ 4 + pair.value.length < 2 ^ 64 ↔
      LengthField 8 bytes (encodeLE 4 pair.id ++ pair.value) rest := by
  have hlength : (encodeLE 4 pair.id ++ pair.value).length = 4 + pair.value.length := by
    rw [List.length_append, encodeLE_length]
  have hwide : 256 ^ 8 = 2 ^ 64 := rfl
  rw [LengthField, hlength, Pair.bytes, List.append_assoc, and_comm, hwide]

/-- **One turn** reads one pair. -/
theorem scanPair_ok {p e : ℕ} {bytes : List UInt8} (h : HasAt file p bytes) (he : p + bytes.length = e)
    (hsmall : bytes.length ≤ INT_MAX) (hsize : expectedSize ≤ CERT_MAX_LENGTH) {scan : Scan} {r : ℤ × Scan} :
    (scanPair file ksuSha256 expectedSize expectedSha256 p e scan).result = .ok r ↔
      ∃ pair rest, bytes = Pair.bytes pair ++ rest ∧ pair.Fits ∧
        r = (((p + pair.bytes.length : ℕ) : ℤ), scan.see ksuSha256 expectedSize expectedSha256 pair) := by
  have hfits := h.1
  rw [scanPair]
  constructor
  · intro hr
    obtain ⟨size, hword, hr⟩ := bind_result_ok.mp hr
    obtain ⟨hin, rfl⟩ := (readExactWord_ok (by omega)).mp hword
    obtain ⟨_, hcheck, hr⟩ := bind_result_ok.mp hr
    have hroom := ensure_result_ok.mp hcheck
    dsimp only at hroom hr
    rw [← Nat.cast_add (p + 8)] at hr
    obtain ⟨id, hid, hr⟩ := bind_result_ok.mp hr
    obtain ⟨-, rfl⟩ := (readExactWord_ok (by omega)).mp hid
    have hfield := hasAt_field h (k := 8) (n := fileWord file p 8) rfl (by omega)
    have hvalue := hasAt_slice (l := file) (o := p + 8 + 4) (n := fileWord file p 8 - 4) (by omega)
    have hlength := slice_length_of_le (l := file) (o := p + 8 + 4) (n := fileWord file p 8 - 4) (by omega)
    -- the field is the id and the value
    have hparts : slice file (p + 8) (fileWord file p 8)
        = encodeLE 4 (fileWord file (p + 8) 4) ++ slice file (p + 8 + 4) (fileWord file p 8 - 4) := by
      refine (hasAt_slice (by omega)).unique (hasAt_append.mpr ⟨hasAt_word (by omega), ?_⟩) ?_
      · rw [encodeLE_length]
        exact hvalue
      · rw [List.length_append, encodeLE_length, hlength, slice_length_of_le (by omega)]
        omega
    obtain ⟨pair, hpairId, hpairValue⟩ : ∃ pair : Pair, pair.id = fileWord file (p + 8) 4 ∧
        pair.value = slice file (p + 8 + 4) (fileWord file p 8 - 4) := ⟨⟨_, _⟩, rfl, rfl⟩
    rw [hparts, ← hpairId, ← hpairValue] at hfield
    rw [← hpairValue] at hvalue hlength
    obtain ⟨hpair, hwide⟩ := Pair.field_iff.mpr hfield
    have hidLt := decodeLE_lt (slice file (p + 8) 4)
    rw [slice_length_of_le (by omega)] at hidLt
    have hpairEnd : p + 8 + 4 + pair.value.length = p + 8 + fileWord file p 8 := by omega
    have hsee : (seePair file ksuSha256 expectedSize expectedSha256 scan pair.id ((p + 8 + 4 : ℕ) : ℤ)
        ((p + 8 + fileWord file p 8 : ℕ) : ℤ)).result = .ok (scan.see ksuSha256 expectedSize expectedSha256 pair) :=
      seePair_ok hvalue hpairEnd (by omega) hsize scan
    rw [hpairId] at hsee
    rw [bind_of_ok hsee] at hr
    refine ⟨pair, _, hpair, ⟨by rw [hpairId]; exact hidLt, hwide⟩, ?_⟩
    cases hr
    rw [Pair.length_bytes]
    have hend : p + 8 + fileWord file p 8 = p + (12 + pair.value.length) := by omega
    rw [hend]
  · rintro ⟨pair, rest, hbytes, ⟨hid, hwide⟩, rfl⟩
    have hfield := Pair.field_iff.mp ⟨hbytes, hwide⟩
    obtain ⟨hword, hat, -⟩ := h.field hfield
    have hlength := hfield.length_eq
    obtain ⟨hidAt, hvalue⟩ := hasAt_append.mp hat
    have hidWord : fileWord file (p + 8) 4 = pair.id := hidAt.word hid
    have hsizeWord : fileWord file p 8 = 4 + pair.value.length := by
      rw [fileWord, hword, List.length_append, encodeLE_length]
    rw [List.length_append, encodeLE_length] at hlength
    rw [encodeLE_length] at hvalue
    refine bind_result_ok.mpr ⟨_, (readExactWord_ok (by omega)).mpr ⟨by omega, rfl⟩, ?_⟩
    refine bind_result_ok.mpr ⟨(), ensure_result_ok.mpr ?_, ?_⟩
    · dsimp only
      omega
    dsimp only
    rw [hsizeWord, ← Nat.cast_add (p + 8)]
    refine bind_result_ok.mpr ⟨_, (readExactWord_ok (by omega)).mpr ⟨by omega, rfl⟩, ?_⟩
    dsimp only
    rw [hidWord, bind_of_ok (seePair_ok hvalue (by omega) (by omega) hsize scan), Pair.length_bytes]
    have hend : p + 8 + (4 + pair.value.length) = p + (12 + pair.value.length) := by omega
    rw [hend]
    rfl

/-- **The loop** comes to its end over lists of pairs, and sees each of them. -/
theorem scanPairs_ok {fuel p e : ℕ} {bytes : List UInt8} (h : HasAt file p bytes) (he : p + bytes.length = e)
    (hsmall : bytes.length ≤ INT_MAX) (hsize : expectedSize ≤ CERT_MAX_LENGTH) (hfuel : bytes.length < fuel)
    {scan scan' : Scan} :
    (scanPairs file ksuSha256 expectedSize expectedSha256 fuel p e scan).result = .ok scan' ↔
      ∃ pairs : List Pair, bytes = pairs.flatMap Pair.bytes ∧ (∀ p ∈ pairs, p.Fits) ∧
        scan' = pairs.foldl (Scan.see ksuSha256 expectedSize expectedSha256) scan := by
  induction fuel generalizing p bytes scan with
  | zero => omega
  | succ fuel ih =>
    rw [scanPairs]
    by_cases hnone : bytes = []
    · rw [hnone, List.length_nil] at he
      rw [if_neg (by omega)]
      constructor
      · intro hr
        cases hr
        exact ⟨[], hnone, List.forall_mem_nil _, rfl⟩
      · rintro ⟨pairs, hbytes, -, rfl⟩
        cases pairs with
        | nil => rfl
        | cons pair pairs =>
          have hlength := congrArg List.length hbytes
          rw [hnone, List.flatMap_cons, List.length_append, Pair.length_bytes, List.length_nil] at hlength
          omega
    · have hpositive := List.length_pos_of_ne_nil hnone
      rw [if_pos (by omega), bind_result_ok]
      constructor
      · rintro ⟨r, hturn, hr⟩
        obtain ⟨pair, rest, rfl, hpair, rfl⟩ := (scanPair_ok h he hsmall hsize).mp hturn
        rw [List.length_append] at he hsmall hfuel
        have hlength := pair.length_bytes
        obtain ⟨pairs, rfl, hpairs, rfl⟩ :=
          (ih (hasAt_append.mp h).2 (by omega) (by omega) (by omega)).mp hr
        exact ⟨pair :: pairs, rfl, List.forall_mem_cons.mpr ⟨hpair, hpairs⟩, rfl⟩
      · rintro ⟨pairs, hbytes, hpairs, rfl⟩
        cases pairs with
        | nil => exact absurd hbytes hnone
        | cons pair pairs =>
          obtain ⟨hpair, hrest⟩ := List.forall_mem_cons.mp hpairs
          rw [List.flatMap_cons] at hbytes
          refine ⟨_, (scanPair_ok h he hsmall hsize).mpr ⟨pair, _, hbytes, hpair, rfl⟩, ?_⟩
          rw [hbytes, List.length_append] at he hsmall hfuel
          rw [hbytes] at h
          have hlength := pair.length_bytes
          exact (ih (hasAt_append.mp h).2 (by omega) (by omega) (by omega)).mpr ⟨pairs, rfl, hrest, rfl⟩

end Block

/-! ### The end of the central directory -/

/-- The first record among `n` comment sizes from `i` on is the one with a comment of `j` bytes. -/
def EocdFrom (file : List UInt8) (i n j : ℕ) : Prop :=
  i ≤ j ∧ j < i + n ∧ EocdAt file j ∧ ∀ k, i ≤ k → k < j → ¬EocdAt file k

theorem eocdFrom_here {i n j : ℕ} (h : EocdAt file i) : EocdFrom file i (n + 1) j ↔ j = i := by
  constructor
  · rintro ⟨hle, -, -, hfirst⟩
    by_contra hne
    exact hfirst i (le_refl i) (by omega) h
  · rintro rfl
    exact ⟨le_refl j, by omega, h, fun k hle hlt => by omega⟩

theorem eocdFrom_next {i n j : ℕ} (h : ¬EocdAt file i) : EocdFrom file i (n + 1) j ↔ EocdFrom file (i + 1) n j := by
  constructor
  · rintro ⟨hle, hlt, hat, hfirst⟩
    have hne : i ≠ j := by
      rintro rfl
      exact h hat
    exact ⟨by omega, by omega, hat, fun k hk => hfirst k (by omega)⟩
  · rintro ⟨hle, hlt, hat, hfirst⟩
    refine ⟨by omega, by omega, hat, ?_⟩
    intro k hle hlt
    rcases Nat.eq_or_lt_of_le hle with rfl | hgt
    · exact h
    · exact hfirst k hgt hlt

/-- A record behind which there is no room for its comment is none. -/
theorem not_eocdFrom {i n j : ℕ} (h : file.length < i + 22) : ¬EocdFrom file i n j := by
  rintro ⟨hle, -, hat, -⟩
  have hroom := hat.1
  omega

theorem findEocd_ok {n i : ℕ} {r : ℤ} :
    (findEocd file n i).result = .ok r ↔ ∃ j, EocdFrom file i n j ∧ r = ((file.length - j - 22 : ℕ) : ℤ) := by
  induction n generalizing i with
  | zero =>
    constructor
    · intro h
      cases h
    · rintro ⟨j, ⟨hle, hlt, -⟩, -⟩
      omega
  | succ n ih =>
    rw [findEocd]
    by_cases hroom : i + 22 ≤ file.length
    · have hpos : (file.length : ℤ) - i - 2 = ((file.length - i - 2 : ℕ) : ℤ) := by omega
      have hcomment : (readExactWord file 2 ((file.length - i - 2 : ℕ) : ℤ) file.length).result
          = .ok (fileWord file (file.length - i - 2) 2, ((file.length - i - 2 + 2 : ℕ) : ℤ)) :=
        (readExactWord_ok (le_refl _)).mpr ⟨by omega, rfl⟩
      have hpos' : ((file.length - i - 2 + 2 : ℕ) : ℤ) - 22 = ((file.length - i - 22 : ℕ) : ℤ) := by omega
      have hmagic : (readExactWord file 4 ((file.length - i - 22 : ℕ) : ℤ) file.length).result
          = .ok (fileWord file (file.length - i - 22) 4, ((file.length - i - 22 + 4 : ℕ) : ℤ)) :=
        (readExactWord_ok (le_refl _)).mpr ⟨by omega, rfl⟩
      rw [hpos, bind_of_ok hcomment]
      dsimp only
      split
      · next hsize =>
        rw [hpos', bind_of_ok hmagic]
        dsimp only
        split
        · next hword =>
          have hat : EocdAt file i := ⟨hroom, hsize, hword⟩
          have hend : ((file.length - i - 22 + 4 : ℕ) : ℤ) - 4 = ((file.length - i - 22 : ℕ) : ℤ) := by omega
          simp only [eocdFrom_here hat, exists_eq_left, pure_result, Except.ok.injEq, hend]
          exact eq_comm
        · next hword =>
          have hnot : ¬EocdAt file i := fun hat => hword hat.2.2
          simp only [eocdFrom_next hnot]
          exact ih
      · next hsize =>
        have hnot : ¬EocdAt file i := fun hat => hsize hat.2.1
        simp only [eocdFrom_next hnot]
        exact ih
    · -- no record has room from here on
      have hnone : ¬∃ j, EocdFrom file i (n + 1) j ∧ r = ((file.length - j - 22 : ℕ) : ℤ) := by
        rintro ⟨j, hj, -⟩
        exact not_eocdFrom (by omega) hj
      refine iff_of_false ?_ hnone
      have hnext : ¬(findEocd file n (i + 1)).result = .ok r := by
        rw [ih]
        rintro ⟨j, hj, -⟩
        exact not_eocdFrom (by omega) hj
      intro h
      obtain ⟨comment, hcomment, h⟩ := bind_result_ok.mp h
      have hmoves := readExactWord_moves hcomment
      split at h
      · obtain ⟨magic, hmagic, h⟩ := bind_result_ok.mp h
        have hmoves' := readExactWord_moves hmagic
        omega
      · exact hnext h

/-! ### The signing block -/

theorem rejectZip64_ok {e : ℕ} (he : e ≤ file.length) :
    (rejectZip64 file e).result = .ok () ↔ (20 ≤ e → fileWord file (e - 20) 4 ≠ ZIP64_LOCATOR_MAGIC) := by
  rw [rejectZip64]
  split
  · next hroom =>
    have hpos : (e : ℤ) - 20 = ((e - 20 : ℕ) : ℤ) := by omega
    have hmagic : (readExactWord file 4 ((e - 20 : ℕ) : ℤ) file.length).result
        = .ok (fileWord file (e - 20) 4, ((e - 20 + 4 : ℕ) : ℤ)) :=
      (readExactWord_ok (le_refl _)).mpr ⟨by omega, rfl⟩
    rw [hpos, bind_of_ok hmagic]
    dsimp only
    rw [ensure_result_ok]
    constructor
    · intro h _
      exact h
    · intro h
      exact h (by omega)
  · next hroom => exact iff_of_true rfl fun h => absurd h (by omega)

theorem centralDirectory_ok {e : ℕ} (he : e + 22 ≤ file.length) {r : ℤ} :
    (centralDirectory file e).result = .ok r ↔
      cdOffset file e + fileWord file (e + 12) 4 = e ∧ 0x20 ≤ cdOffset file e ∧ r = (cdOffset file e : ℤ) := by
  have hsize : (readExactWord file 4 ((e + 12 : ℕ) : ℤ) file.length).result
      = .ok (fileWord file (e + 12) 4, ((e + 12 + 4 : ℕ) : ℤ)) :=
    (readExactWord_ok (le_refl _)).mpr ⟨by omega, rfl⟩
  have hoffset : (readExactWord file 4 ((e + 12 + 4 : ℕ) : ℤ) file.length).result
      = .ok (cdOffset file e, ((e + 12 + 4 + 4 : ℕ) : ℤ)) :=
    (readExactWord_ok (le_refl _)).mpr ⟨by omega, rfl⟩
  have hpos : (e : ℤ) + 12 = ((e + 12 : ℕ) : ℤ) := by omega
  rw [centralDirectory, hpos, bind_of_ok hsize]
  dsimp only
  rw [bind_of_ok hoffset]
  dsimp only
  rw [bind_result_ok]
  constructor
  · rintro ⟨_, hcheck, h⟩
    obtain ⟨_, hstart, h⟩ := bind_result_ok.mp h
    have hend := ensure_result_ok.mp hcheck
    cases h
    exact ⟨by omega, ensure_result_ok.mp hstart, rfl⟩
  · rintro ⟨hend, hstart, rfl⟩
    refine ⟨(), ensure_result_ok.mpr (by omega), ?_⟩
    exact bind_result_ok.mpr ⟨(), ensure_result_ok.mpr hstart, rfl⟩

/-- The size word, the magic and the size word at the head. -/
theorem signingBlock_ok {c size : ℕ} (hc : c ≤ file.length) (hstart : 0x20 ≤ c)
    (hword : fileWord file (c - 0x18) 8 = size) {r : ℤ × ℤ} :
    (signingBlock file c).result = .ok r ↔
      slice file (c - 16) 16 = SIGNING_BLOCK_MAGIC ∧ (0x18 ≤ size ∧ size ≤ INT_MAX - 8 ∧ size + 8 ≤ c) ∧
        fileWord file (c - size - 8) 8 = size ∧ r = (((c - size : ℕ) : ℤ), ((c - 0x18 : ℕ) : ℤ)) := by
  have hpos : (c : ℤ) - 0x18 = ((c - 0x18 : ℕ) : ℤ) := by omega
  have hsize : (readExactWord file 8 ((c - 0x18 : ℕ) : ℤ) c).result = .ok (size, ((c - 0x18 + 8 : ℕ) : ℤ)) := by
    rw [← hword]
    exact (readExactWord_ok hc).mpr ⟨by omega, rfl⟩
  have hbehind : c - 0x18 + 8 = c - 16 := by omega
  have hbuffer : (readExact file 16 ((c - 16 : ℕ) : ℤ) c).result
      = .ok (slice file (c - 16) 16, ((c - 16 + 16 : ℕ) : ℤ)) :=
    (readExact_ok hc).mpr ⟨by omega, rfl⟩
  rw [signingBlock, hpos, bind_of_ok hsize]
  dsimp only
  rw [hbehind, bind_of_ok hbuffer]
  dsimp only
  rw [bind_result_ok]
  -- where the head is, once the size is known to fit
  have hhead : size + 8 ≤ c → (c : ℤ) - size - 8 = ((c - size - 8 : ℕ) : ℤ) := by omega
  have hpairs : size + 8 ≤ c → c - size - 8 + 8 = c - size := by omega
  constructor
  · rintro ⟨_, hmagic, h⟩
    obtain ⟨_, hcheck, h⟩ := bind_result_ok.mp h
    obtain ⟨head, hread, h⟩ := bind_result_ok.mp h
    obtain ⟨_, hequal, h⟩ := bind_result_ok.mp h
    have hfits := ensure_result_ok.mp hcheck
    have hroom : size + 8 ≤ c := by omega
    rw [hhead hroom] at hread
    obtain ⟨-, rfl⟩ := (readExactWord_ok (by omega)).mp hread
    cases h
    refine ⟨ensure_result_ok.mp hmagic, ⟨by omega, by omega, hroom⟩, ensure_result_ok.mp hequal, ?_⟩
    rw [hpairs hroom]
  · rintro ⟨hmagic, ⟨hleast, hmost, hroom⟩, hequal, rfl⟩
    refine ⟨(), ensure_result_ok.mpr hmagic, ?_⟩
    refine bind_result_ok.mpr ⟨(), ensure_result_ok.mpr (by omega), ?_⟩
    rw [hhead hroom]
    refine bind_result_ok.mpr ⟨_, (readExactWord_ok (by omega)).mpr ⟨by omega, rfl⟩, ?_⟩
    refine bind_result_ok.mpr ⟨(), ensure_result_ok.mpr hequal, ?_⟩
    rw [hpairs hroom]
    rfl

/-! ### The check -/

section Check

variable {ksuSha256 : List UInt8 → Option (Block 32)} {expectedSize : ℕ} {expectedSha256 : List UInt8}

/-- The loop over the pairs of a block. -/
theorem scanBlock_ok {c size fuel : ℕ} (hc : c ≤ file.length)
    (hfits : 0x18 ≤ size ∧ size ≤ INT_MAX - 8 ∧ size + 8 ≤ c) (hsize : expectedSize ≤ CERT_MAX_LENGTH)
    (hfuel : file.length ≤ fuel) {scan scan' : Scan} :
    (scanPairs file ksuSha256 expectedSize expectedSha256 fuel ((c - size : ℕ) : ℤ) ((c - 0x18 : ℕ) : ℤ) scan).result
        = .ok scan' ↔
      ∃ pairs : List Pair, slice file (c - size) (size - 0x18) = pairs.flatMap Pair.bytes ∧ (∀ p ∈ pairs, p.Fits) ∧
        scan' = pairs.foldl (Scan.see ksuSha256 expectedSize expectedSha256) scan := by
  have hlength : (slice file (c - size) (size - 0x18)).length = size - 0x18 := slice_length_of_le (by omega)
  have hmax : INT_MAX = 2147483647 := rfl
  exact scanPairs_ok (hasAt_slice (by omega)) (by rw [hlength]; omega) (by rw [hlength]; omega) hsize
    (by rw [hlength]; omega)

/-- The walk from the record on. -/
theorem walkFile_ok {fuel : ℕ} (hfuel : file.length ≤ fuel) (hsize : expectedSize ≤ CERT_MAX_LENGTH) :
    (walkFile file ksuSha256 expectedSize expectedSha256 fuel).result = .ok true ↔
      ∃ i, SignedFile ksuSha256 expectedSize expectedSha256 file i ∧
        blockSize file (file.length - i - 22) ≤ INT_MAX - 8 := by
  rw [walkFile, bind_result_ok]
  constructor
  · rintro ⟨e, heocd, h⟩
    obtain ⟨i, ⟨-, hrange, hat, hfirst⟩, rfl⟩ := findEocd_ok.mp heocd
    have hroom := hat.1
    obtain ⟨_, hzip64, h⟩ := bind_result_ok.mp h
    obtain ⟨c, hcd, h⟩ := bind_result_ok.mp h
    obtain ⟨hcdEnd, hcdStart, rfl⟩ := (centralDirectory_ok (by omega)).mp hcd
    obtain ⟨r, hblock, h⟩ := bind_result_ok.mp h
    have hword : fileWord file (cdOffset file (file.length - i - 22) - 0x18) 8
        = blockSize file (file.length - i - 22) := rfl
    obtain ⟨hmagic, hfits, hequal, rfl⟩ := (signingBlock_ok (by omega) hcdStart hword).mp hblock
    obtain ⟨scan, hscan, h⟩ := bind_result_ok.mp h
    obtain ⟨pairs, hwritten, hpairs, rfl⟩ := (scanBlock_ok (by omega) hfits hsize hfuel).mp hscan
    have hverdict := Except.ok.inj h
    refine ⟨i, ⟨by omega, hat, fun j hj => hfirst j (by omega) hj, pairs, ?_, ?_⟩, hfits.2.1⟩
    · exact ⟨(rejectZip64_ok (by omega)).mp hzip64, hcdEnd, hcdStart, hmagic, ⟨hfits.1, hfits.2.2⟩, hequal,
        hwritten, hpairs⟩
    · exact (verdict_foldl_see pairs).mp hverdict
  · rintro ⟨i, ⟨hrange, hat, hfirst, pairs, hblock, hsigned⟩, hmost⟩
    have hroom := hat.1
    have hcdEnd := hblock.cdEnd
    obtain ⟨hleast, hbefore⟩ := hblock.size
    have hword : fileWord file (cdOffset file (file.length - i - 22) - 0x18) 8
        = blockSize file (file.length - i - 22) := rfl
    refine ⟨_, findEocd_ok.mpr ⟨i, ⟨Nat.zero_le i, by omega, hat, fun j _ hj => hfirst j hj⟩, rfl⟩, ?_⟩
    refine bind_result_ok.mpr ⟨(), (rejectZip64_ok (by omega)).mpr hblock.noZip64, ?_⟩
    refine bind_result_ok.mpr ⟨_, (centralDirectory_ok (by omega)).mpr ⟨hcdEnd, hblock.cdStart, rfl⟩, ?_⟩
    refine bind_result_ok.mpr ⟨_, (signingBlock_ok (by omega) hblock.cdStart hword).mpr
      ⟨hblock.magic, ⟨hleast, hmost, hbefore⟩, hblock.sizeAtHead, rfl⟩, ?_⟩
    refine bind_result_ok.mpr ⟨_, (scanBlock_ok (by omega) ⟨hleast, hmost, hbefore⟩ hsize hfuel).mpr
      ⟨pairs, hblock.written, hblock.fits, rfl⟩, ?_⟩
    rw [(verdict_foldl_see pairs).mpr hsigned]
    rfl

/-- What `check_v2_signature` returns once its loop has turns enough. -/
theorem checkV2Signature_eq (ksuSha256 : List UInt8 → Option (Block 32)) (expectedSha256 : List UInt8) {fuel : ℕ}
    (hfuel : file.length ≤ fuel) (hsize : expectedSize ≤ CERT_MAX_LENGTH) :
    ∃ b, checkV2Signature file ksuSha256 expectedSize expectedSha256 fuel = some b ∧
      (b = true ↔ ∃ i, SignedFile ksuSha256 expectedSize expectedSha256 file i ∧
        blockSize file (file.length - i - 22) ≤ INT_MAX - 8) := by
  have hsafe : Safe file (walkFile file ksuSha256 expectedSize expectedSha256 fuel) :=
    safe_walkFile ksuSha256 expectedSize expectedSha256 hfuel
  rw [← walkFile_ok hfuel hsize, checkV2Signature]
  cases hresult : (walkFile file ksuSha256 expectedSize expectedSha256 fuel).result with
  | ok b => exact ⟨b, rfl, by rw [Except.ok.injEq]⟩
  | error stop =>
    cases stop with
    | refused => exact ⟨false, rfl, iff_of_false (fun h => nomatch h) fun h => nomatch h⟩
    | outOfFuel => exact absurd hresult hsafe.never

end Check

end KernelSU.Manager.ApkSign
