import KernelSU.Lib.Block
import KernelSU.Lib.Reading

/-!
# `kernel/manager/apk_sign.c`: the APK signature of the manager

`check_v2_signature` searches a file backwards for the end of the central directory, finds the signing block
before the directory and walks its pairs; `check_block` follows the lengths of the v2 pair down to the first
certificate.

A file is its bytes, from which `kernel_read` returns what there is.  Positions are integers, as a `loff_t` may
get negative.  `ksu_sha256`, which is the kernel's and may fail, is a parameter.
-/

namespace KernelSU.Manager.ApkSign

open KernelSU.Lib KernelSU.Lib.Bytes KernelSU.Lib.Reading

/-! ### Constants -/

def INT_MAX : ℕ := 2147483647
def CERT_MAX_LENGTH : ℕ := 1024

/-- The magic numbers of the ZIP records. -/
def EOCD_MAGIC : ℕ := 0x06054b50
def ZIP64_LOCATOR_MAGIC : ℕ := 0x07064b50

/-- `APK Sig Block 42`. -/
def SIGNING_BLOCK_MAGIC : List UInt8 :=
  [0x41, 0x50, 0x4b, 0x20, 0x53, 0x69, 0x67, 0x20, 0x42, 0x6c, 0x6f, 0x63, 0x6b, 0x20, 0x34, 0x32]

/-- The ids of the pairs. -/
def V2_ID : ℕ := 0x7109871a
def V3_ID : ℕ := 0xf05368c0
def V3_1_ID : ℕ := 0x1b93ad61

/-! ### Reading -/

/-- Why the walk over a file ends early. -/
inductive Stop
  | refused
  | outOfFuel
  deriving DecidableEq, Repr

section File

variable (file : List UInt8)

/-- `kernel_read`, and the position after it. -/
def kernelRead (size : ℕ) (pos : ℤ) : Reading Stop (List UInt8 × ℤ) :=
  Reading.read ⟨pos, size⟩ (slice file pos.toNat size, pos + (slice file pos.toNat size).length)

/-- `read_exact`. -/
def readExact (size : ℕ) (pos limit : ℤ) : Reading Stop (List UInt8 × ℤ) :=
  if pos < 0 ∨ limit < pos ∨ limit - pos < size then Reading.fail .refused
  else do
    let r ← kernelRead file size pos
    ensure (r.1.length = size) .refused
    return r

/-- `read_exact` into an unsigned word. -/
def readExactWord (size : ℕ) (pos limit : ℤ) : Reading Stop (ℕ × ℤ) := do
  let r ← readExact file size pos limit
  return (decodeLE r.1, r.2)

/-- `read_length_prefixed_end`: the position after the length, and the end of the value. -/
def readLengthPrefixedEnd (pos containerEnd : ℤ) : Reading Stop (ℤ × ℤ) := do
  let length ← readExactWord file 4 pos containerEnd
  ensure (¬(INT_MAX < length.1 ∨ containerEnd - length.2 < length.1)) .refused
  return (length.2, length.2 + length.1)

/-! ### The v2 block -/

/-- A digit of `hex_asc`. -/
def hexAsc (n : ℕ) : UInt8 := UInt8.ofNat (if n < 10 then 0x30 + n else 0x57 + n)

/-- `bin2hex`. -/
def bin2hex (bytes : List UInt8) : List UInt8 :=
  bytes.flatMap fun b => [hexAsc (b.toNat / 16), hexAsc (b.toNat % 16)]

variable (ksuSha256 : List UInt8 → Option (Block 32)) (expectedSize : ℕ) (expectedSha256 : List UInt8)

/-- `check_block`, which is refused where it returns `false`. -/
def checkBlock (pos blockEnd : ℤ) : Reading Stop Unit := do
  let signers ← readLengthPrefixedEnd file pos blockEnd
  let signer ← readLengthPrefixedEnd file signers.1 signers.2
  let signedData ← readLengthPrefixedEnd file signer.1 signer.2
  let digests ← readLengthPrefixedEnd file signedData.1 signedData.2
  let certificates ← readLengthPrefixedEnd file digests.2 signedData.2
  let certificateSize ← readExactWord file 4 certificates.1 certificates.2
  ensure (¬(INT_MAX < certificateSize.1 ∨ certificates.2 - certificateSize.2 < certificateSize.1)) .refused
  ensure (certificateSize.1 = expectedSize) .refused
  ensure (certificateSize.1 ≤ CERT_MAX_LENGTH) .refused
  let cert ← readExact file certificateSize.1 certificateSize.2 certificates.2
  match ksuSha256 cert.1 with
  | none => Reading.fail .refused
  | some digest => ensure (expectedSha256 = bin2hex digest.bytes) .refused

/-! ### The pairs -/

/-- What the walk over the pairs has seen. -/
structure Scan where
  v2SigningBlocks : ℕ
  v2SigningValid : Bool
  v3SigningExist : Bool
  v31SigningExist : Bool
  deriving DecidableEq, Repr

/-- One pair, whose id has been read. -/
def seePair (scan : Scan) (id : ℕ) (pos pairEnd : ℤ) : Reading Stop Scan :=
  if id = V2_ID then do
    let valid ← succeeds (checkBlock file ksuSha256 expectedSize expectedSha256 pos pairEnd)
    return { scan with v2SigningBlocks := scan.v2SigningBlocks + 1, v2SigningValid := valid }
  else if id = V3_ID then return { scan with v3SigningExist := true }
  else if id = V3_1_ID then return { scan with v31SigningExist := true }
  else return scan

/-- One turn of the loop over the pairs. -/
def scanPair (pos pairsEnd : ℤ) (scan : Scan) : Reading Stop (ℤ × Scan) := do
  let size ← readExactWord file 8 pos pairsEnd
  ensure (¬(size.1 < 4 ∨ INT_MAX < size.1 ∨ pairsEnd - size.2 < size.1)) .refused
  let id ← readExactWord file 4 size.2 (size.2 + size.1)
  let scan ← seePair file ksuSha256 expectedSize expectedSha256 scan id.1 id.2 (size.2 + size.1)
  return (size.2 + size.1, scan)

/-- The loop over the pairs, at most `fuel` turns of it. -/
def scanPairs : ℕ → ℤ → ℤ → Scan → Reading Stop Scan
  | 0, _, _, _ => Reading.fail .outOfFuel
  | fuel + 1, pos, pairsEnd, scan =>
    if pos < pairsEnd then do
      let r ← scanPair file ksuSha256 expectedSize expectedSha256 pos pairsEnd scan
      scanPairs fuel r.1 pairsEnd r.2
    else return scan

/-! ### The file -/

/-- The search for the end of the central directory, with `left` values of `i` to go. -/
def findEocd : ℕ → ℕ → Reading Stop ℤ
  | 0, _ => Reading.fail .refused
  | left + 1, i => do
    let commentSize ← readExactWord file 2 ((file.length : ℤ) - i - 2) file.length
    if commentSize.1 = i then do
      let magic ← readExactWord file 4 (commentSize.2 - 22) file.length
      if magic.1 = EOCD_MAGIC then return magic.2 - 4 else findEocd left (i + 1)
    else findEocd left (i + 1)

/-- A ZIP64 locator before the record is refused. -/
def rejectZip64 (eocdOffset : ℤ) : Reading Stop Unit :=
  if 20 ≤ eocdOffset then do
    let magic ← readExactWord file 4 (eocdOffset - 20) file.length
    ensure (magic.1 ≠ ZIP64_LOCATOR_MAGIC) .refused
  else return ()

/-- The offset of the central directory, which ends at the record. -/
def centralDirectory (eocdOffset : ℤ) : Reading Stop ℤ := do
  let cdSize ← readExactWord file 4 (eocdOffset + 12) file.length
  let cdOffset ← readExactWord file 4 cdSize.2 file.length
  ensure (¬(eocdOffset < cdOffset.1 ∨ (cdSize.1 : ℤ) ≠ eocdOffset - cdOffset.1)) .refused
  ensure (0x20 ≤ cdOffset.1) .refused
  return cdOffset.1

/-- Where the pairs of the signing block start and end. -/
def signingBlock (cdOffset : ℤ) : Reading Stop (ℤ × ℤ) := do
  let sizeOfBlock ← readExactWord file 8 (cdOffset - 0x18) cdOffset
  let buffer ← readExact file 16 sizeOfBlock.2 cdOffset
  ensure (buffer.1 = SIGNING_BLOCK_MAGIC) .refused
  ensure (¬(sizeOfBlock.1 < 0x18 ∨ INT_MAX - 8 < sizeOfBlock.1 ∨ cdOffset - 8 < sizeOfBlock.1)) .refused
  let sizeOfBlockAtHead ← readExactWord file 8 (cdOffset - sizeOfBlock.1 - 8) (cdOffset - 0x18)
  ensure (sizeOfBlockAtHead.1 = sizeOfBlock.1) .refused
  return (sizeOfBlockAtHead.2, cdOffset - 0x18)

/-- What the walk leaves to the end of `check_v2_signature`. -/
def Scan.verdict (scan : Scan) : Bool :=
  scan.v2SigningBlocks == 1 && scan.v2SigningValid && !(scan.v3SigningExist || scan.v31SigningExist)

/-- The walk over the file. -/
def walkFile (fuel : ℕ) : Reading Stop Bool := do
  let eocdOffset ← findEocd file 0x10000 0
  rejectZip64 file eocdOffset
  let cdOffset ← centralDirectory file eocdOffset
  let pairs ← signingBlock file cdOffset
  let scan ← scanPairs file ksuSha256 expectedSize expectedSha256 fuel pairs.1 pairs.2 ⟨0, false, false, false⟩
  return scan.verdict

/-- `check_v2_signature`; `none` is a loop that takes `fuel` turns or more. -/
def checkV2Signature (fuel : ℕ) : Option Bool :=
  match (walkFile file ksuSha256 expectedSize expectedSha256 fuel).result with
  | .ok valid => some valid
  | .error .refused => some false
  | .error .outOfFuel => none

end File

end KernelSU.Manager.ApkSign
