import KernelSU.Lib.Block
import KernelSU.Lib.Fallible
import KernelSU.LkmImage.ModuleElf

/-!
# `userspace/ksud/src/lkm_image.rs`: the capsule

`build_capsule` packs a module and its fixups behind a header, to be appended to a kernel image;
`inject_image` links the same numbers into the bootstrap as constants.

Sums of a `usize` wrap where the source does not check them, as they do in a release build; a build that
checks them panics there instead.  The SHA-256 of a module is a parameter.
-/

namespace KernelSU.LkmImage

open KernelSU.Lib KernelSU.Lib.Bytes

/-! ### Constants -/

/-- `CAPSULE_MAGIC`: `KSULKM1` and a NUL. -/
def CAPSULE_MAGIC : List UInt8 := [0x4b, 0x53, 0x55, 0x4c, 0x4b, 0x4d, 0x31, 0x00]

def CAPSULE_VERSION : ℕ := 1
def CAPSULE_ALIGNMENT : ℕ := 4096
def CAPSULE_HEADER_SIZE : ℕ := 96
def CAPSULE_FLAG_SHN_ABS_FIXUPS : ℕ := 1

/-- `isize::MAX`, which no vector exceeds. -/
def ISIZE_MAX : ℕ := 2 ^ 63 - 1

/-- `align_up`, to a power of two. -/
def alignUp (value alignment : ℕ) : ℕ :=
  (value + alignment - 1) % 2 ^ 64 - (value + alignment - 1) % 2 ^ 64 % alignment

/-! ### Building -/

/-- `pack_fixups`. -/
def packFixups : List Fixup → Except String (List UInt8)
  | [] => .ok []
  | fixup :: fixups =>
    if 2 ^ 32 ≤ fixup.symbolFileOffset then .error "out of range integral type conversion attempted"
    else
      (packFixups fixups).map fun output =>
        encodeLE 4 fixup.symbolFileOffset ++ encodeLE 4 0 ++ encodeLE 8 fixup.kernelOffset ++ output

/-- `struct Capsule`. -/
structure Capsule where
  data : List UInt8
  fileOffset : ℕ
  imageSize : ℕ
  moduleOffset : ℕ
  fixupOffset : ℕ
  deriving DecidableEq

section Build

variable (sha256 : List UInt8 → Block 32)

/-- The stores that fill the capsule. -/
def capsuleStores (module fixupBytes : List UInt8) (fixupCount capsuleSize fixupRelativeOffset : ℕ) :
    List (ℕ × List UInt8) :=
  [(0, CAPSULE_MAGIC),
    (8, encodeLE 4 CAPSULE_VERSION),
    (12, encodeLE 4 CAPSULE_HEADER_SIZE),
    (16, encodeLE 8 capsuleSize),
    (24, encodeLE 8 CAPSULE_HEADER_SIZE),
    (32, encodeLE 8 module.length),
    (40, encodeLE 8 fixupRelativeOffset),
    (48, encodeLE 8 fixupCount),
    (56, encodeLE 8 (if fixupCount = 0 then 0 else CAPSULE_FLAG_SHN_ABS_FIXUPS)),
    (64, (sha256 module).bytes),
    (CAPSULE_HEADER_SIZE, module),
    (fixupRelativeOffset, fixupBytes)]

/-- `build_capsule`. -/
def buildCapsule (imageSize : ℕ) (module fixupBytes : List UInt8) (fixupCount : ℕ) : Except String Capsule :=
  let capsuleOffset := alignUp imageSize 16
  let fixupRelativeOffset := CAPSULE_HEADER_SIZE + alignUp module.length 16
  let contentEnd := fixupRelativeOffset + fixupBytes.length
  let newImageSize := alignUp (capsuleOffset + contentEnd) CAPSULE_ALIGNMENT
  let capsuleSize := (newImageSize + 2 ^ 64 - capsuleOffset) % 2 ^ 64
  if fixupBytes.length ≠ min (fixupCount * 16) (2 ^ 64 - 1) then
    .error "fixup table length does not match its entry count"
  else if 2 ^ 64 ≤ fixupRelativeOffset then .error "capsule module offset overflow"
  else if 2 ^ 64 ≤ contentEnd then .error "capsule fixup offset overflow"
  else if 2 ^ 64 ≤ capsuleOffset + contentEnd then .error "capsule image size overflow"
  else if ISIZE_MAX < capsuleSize then .error "capacity overflow"
  else
    (storeAll "range end index out of range for slice"
        (capsuleStores sha256 module fixupBytes fixupCount capsuleSize fixupRelativeOffset)
        (List.replicate capsuleSize 0)).map fun data =>
      { data := data
        fileOffset := capsuleOffset
        imageSize := newImageSize
        moduleOffset := capsuleOffset + CAPSULE_HEADER_SIZE
        fixupOffset := capsuleOffset + fixupRelativeOffset }

end Build

/-! ### The constants of the bootstrap -/

/-- `reserve_extension`. -/
def reserveExtension (imageSize : ℕ) (capsule : Capsule) : Except String ℕ :=
  if imageSize ≤ capsule.imageSize then .ok (capsule.imageSize - imageSize)
  else .error "capsule did not extend the Image"

/-- The definitions that the capsule checks and the fixup loop use. -/
structure BootDefinitions where
  capsuleMagic : ℕ
  capsuleVersion : ℕ
  capsuleHeaderSize : ℕ
  capsuleSize : ℕ
  moduleCapsuleOffset : ℕ
  fixupCapsuleOffset : ℕ
  moduleSize : ℕ
  fixupCount : ℕ
  deriving DecidableEq, Repr

/-- What `inject_image` defines. -/
def bootDefinitions (capsule : Capsule) (module : List UInt8) (fixups : List Fixup) : BootDefinitions where
  capsuleMagic := decodeLE CAPSULE_MAGIC
  capsuleVersion := CAPSULE_VERSION
  capsuleHeaderSize := CAPSULE_HEADER_SIZE
  capsuleSize := capsule.data.length
  moduleCapsuleOffset := capsule.moduleOffset - capsule.fileOffset
  fixupCapsuleOffset := capsule.fixupOffset - capsule.fileOffset
  moduleSize := module.length
  fixupCount := fixups.length

end KernelSU.LkmImage
