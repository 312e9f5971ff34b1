import KernelSU.Manager.ApkSignature

/-!
# The signature check stays inside the file

* `readExact_nat` — **PROVED**: what a read of a stretch inside a container returns;
* `safe_walkFile` — **PROVED**: every read of the check lies inside the file, and with as many turns as the file
  has bytes the loop over the pairs comes to its end.
-/

namespace KernelSU.Manager.ApkSign

open KernelSU.Lib KernelSU.Lib.Bytes KernelSU.Lib.Reading

variable {α β : Type} {file : List UInt8}

/-! ### Safe steps -/

/-- All reads lie inside the file, and no loop runs out of turns. -/
structure Safe (file : List UInt8) (x : Reading Stop α) : Prop where
  within : Within 0 file.length x
  never : Never .outOfFuel x

theorem safe_pure (file : List UInt8) (a : α) : Safe file (pure a : Reading Stop α) :=
  ⟨within_pure _ _ a, never_pure _ a⟩

theorem safe_refused (file : List UInt8) : Safe file (Reading.fail .refused : Reading Stop α) :=
  ⟨within_fail _ _ _, never_fail (by decide)⟩

theorem safe_ensure (file : List UInt8) (c : Prop) [Decidable c] :
    Safe file (ensure c .refused : Reading Stop Unit) :=
  ⟨within_ensure _ _ c _, never_ensure (by decide) c⟩

theorem safe_bind {x : Reading Stop α} {f : α → Reading Stop β} (hx : Safe file x)
    (hf : ∀ a, x.result = .ok a → Safe file (f a)) : Safe file (x >>= f) :=
  ⟨within_bind hx.within fun a ha => (hf a ha).within, never_bind hx.never fun a ha => (hf a ha).never⟩

/-! ### One read -/

theorem safe_readExact {n : ℕ} {pos limit : ℤ} (h : limit ≤ file.length) : Safe file (readExact file n pos limit) := by
  rw [readExact]
  split
  · exact safe_refused file
  · refine safe_bind ⟨within_read _ ?_ ?_, never_read _ _ _⟩ fun r _ => ?_
    · show 0 ≤ pos
      omega
    · show pos + n ≤ file.length
      omega
    · exact safe_bind (safe_ensure file _) fun _ _ => safe_pure file r

/-- **A read** inside a container. -/
theorem readExact_nat {n p e : ℕ} (he : e ≤ file.length) :
    readExact file n p e
      = if p + n ≤ e then Reading.read ⟨p, n⟩ (slice file p n, ((p + n : ℕ) : ℤ)) else Reading.fail .refused := by
  rw [readExact]
  by_cases hfits : p + n ≤ e
  · have hlength : (slice file p n).length = n := slice_length_of_le (by omega)
    rw [if_pos hfits, if_neg (by omega), kernelRead, Int.toNat_natCast, hlength, bind_of_ok (read_result _ _),
      ensure, if_pos hlength, Reading.pure_bind, ← Nat.cast_add]
    rfl
  · rw [if_neg hfits, if_pos (by omega)]

theorem safe_readExactWord {n : ℕ} {pos limit : ℤ} (h : limit ≤ file.length) :
    Safe file (readExactWord file n pos limit) :=
  safe_bind (safe_readExact h) fun r _ => safe_pure file (decodeLE r.1, r.2)

theorem readExact_ok {n p e : ℕ} (he : e ≤ file.length) {r : List UInt8 × ℤ} :
    (readExact file n p e).result = .ok r ↔ p + n ≤ e ∧ r = (slice file p n, ((p + n : ℕ) : ℤ)) := by
  rw [readExact_nat he]
  split
  · next hfits =>
    rw [read_result]
    constructor
    · intro h
      exact ⟨hfits, (Except.ok.inj h).symm⟩
    · rintro ⟨-, rfl⟩
      rfl
  · next hfits => exact iff_of_false (fun h => nomatch h) fun h => hfits h.1

theorem readExactWord_ok {n p e : ℕ} (he : e ≤ file.length) {r : ℕ × ℤ} :
    (readExactWord file n p e).result = .ok r ↔ p + n ≤ e ∧ r = (fileWord file p n, ((p + n : ℕ) : ℤ)) := by
  rw [readExactWord, bind_result_ok]
  constructor
  · rintro ⟨bytes, hbytes, h⟩
    obtain ⟨hfits, rfl⟩ := (readExact_ok he).mp hbytes
    cases h
    exact ⟨hfits, rfl⟩
  · rintro ⟨hfits, rfl⟩
    exact ⟨_, (readExact_ok he).mpr ⟨hfits, rfl⟩, rfl⟩

/-- A read that succeeds has moved on, but not past the end of its container. -/
theorem readExactWord_moves {n : ℕ} {pos limit : ℤ} {r : ℕ × ℤ}
    (h : (readExactWord file n pos limit).result = .ok r) : 0 ≤ pos ∧ r.2 = pos + n ∧ r.2 ≤ limit := by
  obtain ⟨bytes, hbytes, h⟩ := bind_result_ok.mp h
  cases h
  rw [readExact] at hbytes
  split at hbytes
  · cases hbytes
  · obtain ⟨read, hread, hbytes⟩ := bind_result_ok.mp hbytes
    obtain ⟨_, hlength, hbytes⟩ := bind_result_ok.mp hbytes
    cases hread
    cases hbytes
    have hn : (slice file pos.toNat n).length = n := ensure_result_ok.mp hlength
    show 0 ≤ pos ∧ pos + (slice file pos.toNat n).length = pos + n ∧ pos + (slice file pos.toNat n).length ≤ limit
    omega

/-! ### The v2 block -/

theorem safe_readLengthPrefixedEnd {pos limit : ℤ} (h : limit ≤ file.length) :
    Safe file (readLengthPrefixedEnd file pos limit) :=
  safe_bind (safe_readExactWord h) fun _ _ => safe_bind (safe_ensure file _) fun _ _ => safe_pure file _

/-- A value does not reach past its container. -/
theorem readLengthPrefixedEnd_le {pos limit : ℤ} {r : ℤ × ℤ}
    (h : (readLengthPrefixedEnd file pos limit).result = .ok r) : r.2 ≤ limit := by
  obtain ⟨length, -, h⟩ := bind_result_ok.mp h
  obtain ⟨_, hcheck, h⟩ := bind_result_ok.mp h
  have hroom := ensure_result_ok.mp hcheck
  cases h
  show length.2 + length.1 ≤ limit
  omega

section Block

variable (ksuSha256 : List UInt8 → Option (Block 32)) (expectedSize : ℕ) (expectedSha256 : List UInt8)

theorem safe_checkBlock {pos limit : ℤ} (h : limit ≤ file.length) :
    Safe file (checkBlock file ksuSha256 expectedSize expectedSha256 pos limit) := by
  refine safe_bind (safe_readLengthPrefixedEnd h) fun signers hsigners => ?_
  have hsignersEnd := (readLengthPrefixedEnd_le hsigners).trans h
  refine safe_bind (safe_readLengthPrefixedEnd hsignersEnd) fun signer hsigner => ?_
  have hsignerEnd := (readLengthPrefixedEnd_le hsigner).trans hsignersEnd
  refine safe_bind (safe_readLengthPrefixedEnd hsignerEnd) fun signedData hsignedData => ?_
  have hsignedDataEnd := (readLengthPrefixedEnd_le hsignedData).trans hsignerEnd
  refine safe_bind (safe_readLengthPrefixedEnd hsignedDataEnd) fun digests _ => ?_
  refine safe_bind (safe_readLengthPrefixedEnd hsignedDataEnd) fun certificates hcertificates => ?_
  have hcertificatesEnd := (readLengthPrefixedEnd_le hcertificates).trans hsignedDataEnd
  refine safe_bind (safe_readExactWord hcertificatesEnd) fun size _ => ?_
  refine safe_bind (safe_ensure file _) fun _ _ => safe_bind (safe_ensure file _) fun _ _ => ?_
  refine safe_bind (safe_ensure file _) fun _ _ => safe_bind (safe_readExact hcertificatesEnd) fun cert _ => ?_
  split
  · exact safe_refused file
  · exact safe_ensure file _

/-! ### The pairs -/

theorem safe_seePair {scan : Scan} {id : ℕ} {pos limit : ℤ} (h : limit ≤ file.length) :
    Safe file (seePair file ksuSha256 expectedSize expectedSha256 scan id pos limit) := by
  rw [seePair]
  split
  · have hblock : Safe file (checkBlock file ksuSha256 expectedSize expectedSha256 pos limit) :=
      safe_checkBlock ksuSha256 expectedSize expectedSha256 h
    exact safe_bind ⟨within_succeeds hblock.within, never_succeeds _ _⟩ fun _ _ => safe_pure file _
  · split
    · exact safe_pure file _
    · split
      · exact safe_pure file _
      · exact safe_pure file _

theorem safe_scanPair {scan : Scan} {pos limit : ℤ} (h : limit ≤ file.length) :
    Safe file (scanPair file ksuSha256 expectedSize expectedSha256 pos limit scan) := by
  refine safe_bind (safe_readExactWord h) fun size _ => safe_bind (safe_ensure file _) fun _ hcheck => ?_
  have hroom := ensure_result_ok.mp hcheck
  have hend : size.2 + size.1 ≤ file.length := by omega
  exact safe_bind (safe_readExactWord hend) fun id _ =>
    safe_bind (safe_seePair ksuSha256 expectedSize expectedSha256 hend) fun _ _ => safe_pure file _

/-- A pair takes at least twelve bytes, and ends before the pairs do. -/
theorem scanPair_moves {scan : Scan} {pos limit : ℤ} {r : ℤ × Scan}
    (h : (scanPair file ksuSha256 expectedSize expectedSha256 pos limit scan).result = .ok r) :
    pos + 12 ≤ r.1 ∧ r.1 ≤ limit := by
  obtain ⟨size, hsize, h⟩ := bind_result_ok.mp h
  obtain ⟨_, hcheck, h⟩ := bind_result_ok.mp h
  obtain ⟨id, -, h⟩ := bind_result_ok.mp h
  obtain ⟨scan', -, h⟩ := bind_result_ok.mp h
  have hroom := ensure_result_ok.mp hcheck
  have hmoves := (readExactWord_moves hsize).2.1
  cases h
  show pos + 12 ≤ size.2 + size.1 ∧ size.2 + size.1 ≤ limit
  omega

/-- **The loop** comes to its end in fewer turns than there are bytes. -/
theorem safe_scanPairs {fuel : ℕ} {scan : Scan} {pos limit : ℤ} (h : limit ≤ file.length) (hpos : pos ≤ limit)
    (hfuel : limit - pos < fuel) :
    Safe file (scanPairs file ksuSha256 expectedSize expectedSha256 fuel pos limit scan) := by
  induction fuel generalizing pos scan with
  | zero => omega
  | succ fuel ih =>
    rw [scanPairs]
    split
    · refine safe_bind (safe_scanPair ksuSha256 expectedSize expectedSha256 h) fun r hr => ?_
      obtain ⟨hmoves, hend⟩ := scanPair_moves ksuSha256 expectedSize expectedSha256 hr
      exact ih hend (by omega)
    · exact safe_pure file _

end Block

/-! ### The file -/

theorem safe_findEocd (file : List UInt8) (left i : ℕ) : Safe file (findEocd file left i) := by
  induction left generalizing i with
  | zero => exact safe_refused file
  | succ left ih =>
    rw [findEocd]
    refine safe_bind (safe_readExactWord (le_refl _)) fun commentSize _ => ?_
    split
    · refine safe_bind (safe_readExactWord (le_refl _)) fun magic _ => ?_
      split
      · exact safe_pure file _
      · exact ih (i + 1)
    · exact ih (i + 1)

theorem safe_rejectZip64 (file : List UInt8) (eocdOffset : ℤ) : Safe file (rejectZip64 file eocdOffset) := by
  rw [rejectZip64]
  split
  · exact safe_bind (safe_readExactWord (le_refl _)) fun _ _ => safe_ensure file _
  · exact safe_pure file ()

theorem safe_centralDirectory (file : List UInt8) (eocdOffset : ℤ) :
    Safe file (centralDirectory file eocdOffset) := by
  refine safe_bind (safe_readExactWord (le_refl _)) fun cdSize _ => ?_
  refine safe_bind (safe_readExactWord (le_refl _)) fun offset _ => ?_
  exact safe_bind (safe_ensure file _) fun _ _ => safe_bind (safe_ensure file _) fun _ _ => safe_pure file _

/-- The central directory starts before the record, whose size has been read. -/
theorem centralDirectory_le {eocdOffset r : ℤ} (h : (centralDirectory file eocdOffset).result = .ok r) :
    r ≤ file.length := by
  obtain ⟨cdSize, hsize, h⟩ := bind_result_ok.mp h
  obtain ⟨offset, -, h⟩ := bind_result_ok.mp h
  obtain ⟨_, hcheck, h⟩ := bind_result_ok.mp h
  obtain ⟨_, -, h⟩ := bind_result_ok.mp h
  have hmoves := readExactWord_moves hsize
  have hbefore := ensure_result_ok.mp hcheck
  cases h
  omega

theorem safe_signingBlock {offset : ℤ} (h : offset ≤ file.length) : Safe file (signingBlock file offset) := by
  refine safe_bind (safe_readExactWord h) fun size _ => safe_bind (safe_readExact h) fun buffer _ => ?_
  refine safe_bind (safe_ensure file _) fun _ _ => safe_bind (safe_ensure file _) fun _ _ => ?_
  have hpairs : offset - 0x18 ≤ file.length := by omega
  exact safe_bind (safe_readExactWord hpairs) fun _ _ => safe_bind (safe_ensure file _) fun _ _ => safe_pure file _

/-- The pairs lie inside the file. -/
theorem signingBlock_moves {offset : ℤ} {r : ℤ × ℤ} (h : (signingBlock file offset).result = .ok r) :
    0 ≤ r.1 ∧ r.1 ≤ r.2 ∧ r.2 + 0x18 = offset := by
  obtain ⟨size, hsize, h⟩ := bind_result_ok.mp h
  obtain ⟨buffer, -, h⟩ := bind_result_ok.mp h
  obtain ⟨_, -, h⟩ := bind_result_ok.mp h
  obtain ⟨_, -, h⟩ := bind_result_ok.mp h
  obtain ⟨head, hhead, h⟩ := bind_result_ok.mp h
  obtain ⟨_, -, h⟩ := bind_result_ok.mp h
  have hmoves := readExactWord_moves hhead
  cases h
  show 0 ≤ head.2 ∧ head.2 ≤ offset - 0x18 ∧ offset - 0x18 + 0x18 = offset
  omega

/-- **The check** stays inside the file, and ends. -/
theorem safe_walkFile (ksuSha256 : List UInt8 → Option (Block 32)) (expectedSize : ℕ) (expectedSha256 : List UInt8)
    {fuel : ℕ} (hfuel : file.length ≤ fuel) :
    Safe file (walkFile file ksuSha256 expectedSize expectedSha256 fuel) := by
  refine safe_bind (safe_findEocd file _ _) fun eocdOffset _ => ?_
  refine safe_bind (safe_rejectZip64 file _) fun _ _ => ?_
  refine safe_bind (safe_centralDirectory file _) fun offset hoffset => ?_
  have hinside := centralDirectory_le hoffset
  refine safe_bind (safe_signingBlock hinside) fun pairs hpairs => ?_
  obtain ⟨hstart, horder, hend⟩ := signingBlock_moves hpairs
  exact safe_bind (safe_scanPairs _ _ _ (by omega) horder (by omega)) fun scan _ => safe_pure file _

end KernelSU.Manager.ApkSign
