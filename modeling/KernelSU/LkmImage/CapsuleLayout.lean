import KernelSU.LkmImage.Bootstrap

/-!
# What `build_capsule` lays out

* `slice_flatMap_fixupEntry` — **PROVED**: each packed fixup is found at its stride;
* `buildCapsule_layout` — **PROVED**: every header field, the module and the fixup table are read back, and the
  regions lie one behind the other inside the capsule;
* `buildCapsule_end` — **PROVED**: the capsule ends where the reserved memory ends.
-/

namespace KernelSU.LkmImage

open KernelSU.Lib KernelSU.Lib.Bytes

/-! ### The fixup table -/

/-- The 16 bytes of one entry. -/
def fixupEntry (fixup : Fixup) : List UInt8 :=
  encodeLE 4 fixup.symbolFileOffset ++ encodeLE 4 0 ++ encodeLE 8 fixup.kernelOffset

theorem fixupEntry_length (fixup : Fixup) : (fixupEntry fixup).length = 16 := by simp [fixupEntry]

theorem packFixups_ok {fixups : List Fixup} {bytes : List UInt8} (h : packFixups fixups = .ok bytes) :
    bytes = fixups.flatMap fixupEntry ∧ ∀ f ∈ fixups, f.symbolFileOffset < 2 ^ 32 := by
  induction fixups generalizing bytes with
  | nil =>
    cases h
    exact ⟨rfl, List.forall_mem_nil _⟩
  | cons f fixups ih =>
    rw [packFixups] at h
    split at h
    · cases h
    · next hlt =>
      cases hrest : packFixups fixups with
      | error e => rw [hrest] at h; cases h
      | ok rest =>
        obtain ⟨hbytes, hoffsets⟩ := ih hrest
        rw [hrest] at h
        cases h
        refine ⟨?_, List.forall_mem_cons.mpr ⟨Nat.not_le.mp hlt, hoffsets⟩⟩
        rw [List.flatMap_cons, hbytes, fixupEntry]

theorem flatMap_fixupEntry_length (fixups : List Fixup) :
    (fixups.flatMap fixupEntry).length = fixups.length * 16 := flatMap_length_const fixupEntry_length fixups

/-- The entry with this index. -/
theorem slice_flatMap_fixupEntry {fixups : List Fixup} {i : ℕ} {f : Fixup} (h : fixups[i]? = some f) :
    slice (fixups.flatMap fixupEntry) (16 * i) 16 = fixupEntry f := slice_flatMap_const fixupEntry_length h

/-- The two words of an entry. -/
theorem fixupEntry_words (f : Fixup) :
    slice (fixupEntry f) 0 4 = encodeLE 4 f.symbolFileOffset ∧
      slice (fixupEntry f) 8 8 = encodeLE 8 f.kernelOffset := by
  constructor
  · have hfirst := slice_append_left (encodeLE 4 f.symbolFileOffset) (encodeLE 4 0 ++ encodeLE 8 f.kernelOffset)
      (o := 0) (n := 4) (by rw [encodeLE_length])
    have hfull := slice_full (encodeLE 4 f.symbolFileOffset)
    rw [encodeLE_length] at hfull
    rw [fixupEntry, List.append_assoc, hfirst, hfull]
  · have hlast := slice_append_exact (encodeLE 4 f.symbolFileOffset ++ encodeLE 4 0)
      (encodeLE 8 f.kernelOffset) [] (o := 8) (by simp) (encodeLE_length 8 _)
    rw [List.append_nil] at hlast
    exact hlast

/-! ### The capsule -/

theorem alignUp_spec {v : ℕ} (h : v < 2 ^ 63) : v ≤ alignUp v 16 ∧ alignUp v 16 < v + 16 := by
  rw [alignUp]
  omega

/-- The stores that fill the capsule do not meet. -/
theorem capsuleStores_apart (sha256 : List UInt8 → Block 32) {module fixupBytes : List UInt8}
    {fixupCount capsuleSize fixupRelativeOffset : ℕ}
    (h : CAPSULE_HEADER_SIZE + module.length ≤ fixupRelativeOffset) :
    (capsuleStores sha256 module fixupBytes fixupCount capsuleSize fixupRelativeOffset).Pairwise
      StoresApart := by
  have hmagic : CAPSULE_MAGIC.length = 8 := rfl
  have hsha := (sha256 module).length_bytes
  rw [CAPSULE_HEADER_SIZE] at h
  simp only [capsuleStores, List.pairwise_cons, List.mem_cons, List.not_mem_nil, or_false, forall_eq_or_imp,
    forall_eq, StoresApart, encodeLE_length, hmagic, hsha, CAPSULE_HEADER_SIZE, List.Pairwise.nil,
    false_implies, implies_true, and_true]
  omega

/-- What a built capsule holds. -/
structure CapsuleLayout (module fixupBytes : List UInt8) (fixupCount : ℕ) (capsule : Capsule) : Prop where
  moduleOffset : capsule.moduleOffset - capsule.fileOffset = CAPSULE_HEADER_SIZE
  moduleEnd : CAPSULE_HEADER_SIZE + module.length ≤ capsule.fixupOffset - capsule.fileOffset
  fixupEnd : capsule.fixupOffset - capsule.fileOffset + fixupBytes.length ≤ capsule.data.length
  size : capsule.data.length ≤ ISIZE_MAX
  magic : slice capsule.data 0 8 = CAPSULE_MAGIC
  version : slice capsule.data 8 4 = encodeLE 4 CAPSULE_VERSION
  headerSize : slice capsule.data 12 4 = encodeLE 4 CAPSULE_HEADER_SIZE
  capsuleSize : slice capsule.data 16 8 = encodeLE 8 capsule.data.length
  moduleOffsetField : slice capsule.data 24 8 = encodeLE 8 CAPSULE_HEADER_SIZE
  moduleSize : slice capsule.data 32 8 = encodeLE 8 module.length
  fixupOffsetField : slice capsule.data 40 8 = encodeLE 8 (capsule.fixupOffset - capsule.fileOffset)
  fixupCountField : slice capsule.data 48 8 = encodeLE 8 fixupCount
  module : slice capsule.data CAPSULE_HEADER_SIZE module.length = module
  fixups : slice capsule.data (capsule.fixupOffset - capsule.fileOffset) fixupBytes.length = fixupBytes

/-- What a successful `build_capsule` has computed. -/
theorem buildCapsule_ok {sha256 : List UInt8 → Block 32} {imageSize fixupCount : ℕ}
    {module fixupBytes : List UInt8} {capsule : Capsule}
    (h : buildCapsule sha256 imageSize module fixupBytes fixupCount = .ok capsule) :
    ∃ capsuleSize fixupRelativeOffset,
      fixupRelativeOffset = CAPSULE_HEADER_SIZE + alignUp module.length 16 ∧
      capsule.fileOffset = alignUp imageSize 16 ∧
      capsule.imageSize = alignUp (capsule.fileOffset + (fixupRelativeOffset + fixupBytes.length)) 4096 ∧
      capsuleSize = (capsule.imageSize + 2 ^ 64 - capsule.fileOffset) % 2 ^ 64 ∧
      capsule.moduleOffset = capsule.fileOffset + CAPSULE_HEADER_SIZE ∧
      capsule.fixupOffset = capsule.fileOffset + fixupRelativeOffset ∧
      capsule.fileOffset + (fixupRelativeOffset + fixupBytes.length) < 2 ^ 64 ∧ capsuleSize ≤ ISIZE_MAX ∧
      storeAll "range end index out of range for slice"
        (capsuleStores sha256 module fixupBytes fixupCount capsuleSize fixupRelativeOffset)
        (List.replicate capsuleSize 0) = .ok capsule.data := by
  simp only [buildCapsule] at h
  split_ifs at h with _ _ _ hfits hsize
  cases hstores : storeAll "range end index out of range for slice"
      (capsuleStores sha256 module fixupBytes fixupCount
        ((alignUp (alignUp imageSize 16 + (CAPSULE_HEADER_SIZE + alignUp module.length 16 + fixupBytes.length))
          CAPSULE_ALIGNMENT + 2 ^ 64 - alignUp imageSize 16) % 2 ^ 64)
        (CAPSULE_HEADER_SIZE + alignUp module.length 16))
      (List.replicate ((alignUp (alignUp imageSize 16 +
        (CAPSULE_HEADER_SIZE + alignUp module.length 16 + fixupBytes.length)) CAPSULE_ALIGNMENT + 2 ^ 64 -
          alignUp imageSize 16) % 2 ^ 64) 0) with
  | error e => rw [hstores] at h; cases h
  | ok data =>
    rw [hstores] at h
    cases h
    exact ⟨_, _, rfl, rfl, rfl, rfl, rfl, rfl, Nat.not_le.mp hfits, Nat.not_lt.mp hsize, hstores⟩

section Built

variable {sha256 : List UInt8 → Block 32} {imageSize fixupCount : ℕ} {module fixupBytes : List UInt8}
  {capsule : Capsule}

/-- **The layout.**  Every store of `build_capsule` lies inside the capsule and is read back. -/
theorem buildCapsule_layout (h : buildCapsule sha256 imageSize module fixupBytes fixupCount = .ok capsule) :
    CapsuleLayout module fixupBytes fixupCount capsule := by
  obtain ⟨capsuleSize, relative, hrelative, -, -, -, hmodule, hfixup, -, hmax, hstores⟩ := buildCapsule_ok h
  obtain ⟨hlength, hinside⟩ := storeAll_inside hstores
  rw [List.length_replicate] at hlength hinside
  have hmoduleIn : CAPSULE_HEADER_SIZE + module.length ≤ capsuleSize :=
    hinside (CAPSULE_HEADER_SIZE, module) (by simp [capsuleStores])
  have hfixupIn : relative + fixupBytes.length ≤ capsuleSize :=
    hinside (relative, fixupBytes) (by simp [capsuleStores])
  rw [ISIZE_MAX] at hmax
  have halign := (alignUp_spec (v := module.length) (by omega)).1
  have hread : ∀ o w n, (o, w) ∈ capsuleStores sha256 module fixupBytes fixupCount capsuleSize relative →
      w.length = n → slice capsule.data o n = w := by
    intro o w n hmem hn
    rw [← hn]
    exact slice_storeAll hstores (capsuleStores_apart sha256 (by omega)) hmem
  have hbase : capsule.moduleOffset - capsule.fileOffset = CAPSULE_HEADER_SIZE := by omega
  have hrel : capsule.fixupOffset - capsule.fileOffset = relative := by omega
  constructor
  case moduleOffset => exact hbase
  case moduleEnd => omega
  case fixupEnd => omega
  case size => rw [ISIZE_MAX]; omega
  case magic => exact hread 0 _ 8 (by simp [capsuleStores]) rfl
  case version => exact hread 8 _ 4 (by simp [capsuleStores]) (encodeLE_length ..)
  case headerSize => exact hread 12 _ 4 (by simp [capsuleStores]) (encodeLE_length ..)
  case capsuleSize => exact hread 16 _ 8 (by simp [capsuleStores, hlength]) (encodeLE_length ..)
  case moduleOffsetField => exact hread 24 _ 8 (by simp [capsuleStores]) (encodeLE_length ..)
  case moduleSize => exact hread 32 _ 8 (by simp [capsuleStores]) (encodeLE_length ..)
  case fixupOffsetField => exact hread 40 _ 8 (by simp [capsuleStores, hrel]) (encodeLE_length ..)
  case fixupCountField => exact hread 48 _ 8 (by simp [capsuleStores]) (encodeLE_length ..)
  case module => exact hread CAPSULE_HEADER_SIZE _ _ (by simp [capsuleStores]) rfl
  case fixups => exact hread _ _ _ (by simp [capsuleStores, hrel]) rfl

/-- **The end.**  The capsule fills the memory that the bootstrap reserves behind the image. -/
theorem buildCapsule_end {extension : ℕ}
    (h : buildCapsule sha256 imageSize module fixupBytes fixupCount = .ok capsule)
    (hreserve : reserveExtension imageSize capsule = .ok extension) :
    capsule.fileOffset + capsule.data.length = imageSize + extension := by
  obtain ⟨capsuleSize, relative, -, hfile, himage, hsize, -, -, hfits, -, hstores⟩ := buildCapsule_ok h
  have hlength := (storeAll_inside hstores).1
  rw [List.length_replicate] at hlength
  rw [reserveExtension] at hreserve
  split_ifs at hreserve with hle
  cases hreserve
  rw [alignUp] at hfile himage
  omega

end Built

end KernelSU.LkmImage
