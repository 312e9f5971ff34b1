import KernelSU.LkmImage.BootstrapObject
import KernelSU.LkmImage.Capsule

/-!
# `userspace/ksud/src/lkm_image.rs`: linking the bootstrap

* `BootstrapObject.link` — the loadable sections are copied into a zeroed image and the relocations applied in turn;
* `BootstrapObject.Linked` — what that should make, in terms of the ABI.
-/

namespace KernelSU.LkmImage

open KernelSU.Lib KernelSU.Lib.Bytes KernelSU.Ksud

/-! ### Values of symbols -/

section Link

variable (obj : BootstrapObject) (codeAddress : UInt64) (definitions : Str → Option UInt64)

/-- `u64::checked_add`. -/
def checkedAdd (a b : ℕ) (message : String) : Except String UInt64 :=
  if a + b < 2 ^ 64 then .ok (UInt64.ofNat (a + b)) else .error message

/-- `section_address`. -/
def BootstrapObject.sectionAddress (sectionIndex : ℕ) : Except String UInt64 := do
  let s ← context obj.sections[sectionIndex]? "bootstrap symbol has an invalid section"
  let outputOffset ← context s.outputOffset
    ("bootstrap symbol refers to non-loadable section " ++ String.ofList s.name)
  checkedAdd codeAddress.toNat outputOffset "bootstrap section address overflow"

/-- `symbol_value`. -/
def BootstrapObject.symbolValue (symbolIndex : ℕ) : Except String UInt64 := do
  let symbol ← context obj.symbols[symbolIndex]? "bootstrap relocation has an invalid symbol index"
  if symbol.sectionIndex = SHN_UNDEF then
    context (definitions symbol.name) ("bootstrap requires missing definition " ++ debug symbol.name)
  else if symbol.sectionIndex = SHN_ABS then return symbol.value
  else do
    let address ← obj.sectionAddress codeAddress symbol.sectionIndex
    checkedAdd address.toNat symbol.value.toNat "bootstrap symbol address overflow"

/-- `named_symbol_value`. -/
def BootstrapObject.namedSymbolValue (name : String) : Panicking String UInt64 := do
  let index ← reported (context (onlyOne (indicesWhere (fun s => s.name = name.toList) obj.symbols))
    s!"bootstrap must define exactly one symbol {name}")
  let symbol ← indexAt obj.symbols index
  reported (ensure (symbol.sectionIndex ≠ SHN_UNDEF) s!"bootstrap symbol {name} is undefined")
  reported (obj.symbolValue codeAddress definitions index)

/-! ### The image -/

/-- The sections with a place in the image, and the place. -/
def BootstrapObject.loadable : List (BootstrapSection × ℕ) :=
  obj.sections.filterMap fun s => s.outputOffset.map fun outputOffset => (s, outputOffset)

/-- A section's address is a multiple of its alignment. -/
def checkAligned (s : BootstrapSection × ℕ) : Except String Unit := do
  let address ← checkedAdd codeAddress.toNat s.2 "bootstrap section address overflow"
  ensure (address.toNat % s.1.alignment = 0)
    ("bootstrap section " ++ String.ofList s.1.name ++ " is not aligned at 0x" ++ hex address.toNat)

/-- `vec![0u8; size]`. -/
def zeroed (size : ℕ) : Panicking String (List UInt8) :=
  if size ≤ ISIZE_MAX then .ok (List.replicate size 0) else .error .panic

/-- `copy_from_slice` into the `size` bytes at `offset`. -/
def copyFromSlice (data : List UInt8) (offset size : ℕ) (bytes : List UInt8) : Panicking String (List UInt8) :=
  if bytes.length = size then .ok (patch data offset bytes) else .error .panic

/-- `get_slice_mut`. -/
def checkSliceMut (data : List UInt8) (offset size : ℕ) : Except String Unit := do
  ensure (offset + size < 2 ^ 64) "offset overflow"
  ensure (offset + size ≤ data.length) ("offset 0x" ++ hex offset ++ " size 0x" ++ hex size ++ " is outside output")

/-- A section is copied to its place. -/
def copySection (data output : List UInt8) (s : BootstrapSection × ℕ) : Panicking String (List UInt8) := do
  reported (checkSliceMut output s.2 s.1.size)
  let bytes ← reported (getSlice data s.1.offset s.1.size)
  copyFromSlice output s.2 s.1.size bytes

/-! ### Relocations -/

/-- `read_i64`. -/
def readI64 (data : List UInt8) (offset : ℕ) : Except String Int64 :=
  (readU64 data offset).map fun w => (UInt64.ofNat w).toInt64

/-- `apply_bootstrap_relocation(..).with_context(..)?`. -/
def relocate (output : List UInt8) (outputOffset : ℕ) (placeAddress : UInt64) (relocationType : ℕ)
    (symbolValue : UInt64) (addend : Int64) (message : String) : Except String (List UInt8) := do
  context (applyBootstrapRelocation output outputOffset placeAddress relocationType symbolValue addend).1.toOption message
  return (applyBootstrapRelocation output outputOffset placeAddress relocationType symbolValue addend).2

/-- One entry of a section of relocations, for a section that has a place and an address. -/
def BootstrapObject.relocateEntry (s target : BootstrapSection) (targetOutput : ℕ) (targetAddress : UInt64)
    (output : List UInt8) (index : ℕ) : Panicking String (List UInt8) := do
  let step ← usizeMul index ELF64_RELA_SIZE
  let offset ← usizeAdd s.offset step
  let targetOffset ← reported (readU64 obj.data offset)
  let infoOffset ← usizeAdd offset 8
  let info ← reported (readU64 obj.data infoOffset)
  let relocationType := info % 2 ^ 32
  let symbolIndex := info / 2 ^ 32
  let addendOffset ← usizeAdd offset 16
  let addend ← reported (readI64 obj.data addendOffset)
  let width ← reported (context (relocationWidth relocationType)
    s!"unsupported AArch64 bootstrap relocation {relocationType}")
  reported (ensure (targetOffset + width < 2 ^ 64 ∧ targetOffset + width ≤ target.size)
    ("bootstrap relocation is outside section " ++ String.ofList target.name))
  reported (ensure (targetOutput + targetOffset < 2 ^ 64) "bootstrap relocation output offset overflow")
  let placeAddress ← reported (checkedAdd targetAddress.toNat targetOffset "bootstrap relocation address overflow")
  let symbolValue ← reported (obj.symbolValue codeAddress definitions symbolIndex)
  let symbol ← indexAt obj.symbols symbolIndex
  reported (relocate output (targetOutput + targetOffset) placeAddress relocationType symbolValue addend
    ("cannot relocate " ++ String.ofList target.name ++ "+0x" ++ hex targetOffset ++ " against " ++ debug symbol.name))

/-- A section of relocations. -/
def BootstrapObject.relocateSection (output : List UInt8) (s : BootstrapSection) : Panicking String (List UInt8) := do
  reported (ensure (s.link = obj.symbolTableIndex) "bootstrap relocation uses an unexpected symbol table")
  let target ← indexAt obj.sections s.info
  let targetOutput ← reported (context target.outputOffset "bootstrap relocation target is not loadable")
  let targetAddress ← reported (obj.sectionAddress codeAddress s.info)
  (List.range (s.size / ELF64_RELA_SIZE)).foldlM
    (obj.relocateEntry codeAddress definitions s target targetOutput targetAddress) output

/-- The sections of relocations. -/
def BootstrapObject.relaSections : List BootstrapSection := obj.sections.filter fun s => s.sectionType = SHT_RELA

/-- `link`. -/
def BootstrapObject.link : Panicking String LinkedBootstrap := do
  reported (obj.loadable.forM (checkAligned codeAddress))
  let output ← zeroed obj.imageSize
  let output ← obj.loadable.foldlM (copySection obj.data) output
  let output ← obj.relaSections.foldlM (obj.relocateSection codeAddress definitions) output
  let entryAddress ← obj.namedSymbolValue codeAddress definitions "ksu_bootstrap"
  let reserveWrapperAddress ← obj.namedSymbolValue codeAddress definitions "ksu_memblock_reserve_wrapper"
  let strndupAdapterAddress ← obj.namedSymbolValue codeAddress definitions "ksu_strndup_user_adapter"
  return ⟨output, entryAddress, reserveWrapperAddress, strndupAdapterAddress⟩

/-! ### What linking is for -/

/-- An entry of a section of relocations. -/
structure RelaEntry where
  /-- the section that is relocated -/
  target : ℕ
  targetOffset : ℕ
  relocationType : ℕ
  symbolIndex : ℕ
  addend : Int64

/-- The entry with an index. -/
def BootstrapObject.relaEntry (s : BootstrapSection) (index : ℕ) : RelaEntry :=
  let word := fun o => decodeLE (slice obj.data (s.offset + index * ELF64_RELA_SIZE + o) 8)
  ⟨s.info, word 0, word 8 % 2 ^ 32, word 8 / 2 ^ 32, (UInt64.ofNat (word 16)).toInt64⟩

/-- All entries, in the order of the file. -/
def BootstrapObject.relaEntries : List RelaEntry :=
  obj.relaSections.flatMap fun s => (List.range (s.size / ELF64_RELA_SIZE)).map (obj.relaEntry s)

/-- The image before the relocations: the loadable sections are at their places, and the rest is zero. -/
structure BootstrapObject.LaidOut (image : List UInt8) : Prop where
  length : image.length = obj.imageSize
  sections : ∀ s ∈ obj.loadable, slice image s.2 s.1.size = slice obj.data s.1.offset s.1.size ∧
    (slice obj.data s.1.offset s.1.size).length = s.1.size
  rest : ∀ i < obj.imageSize, (∀ s ∈ obj.loadable, ¬(s.2 ≤ i ∧ i < s.2 + s.1.size)) → image[i]? = some 0

/-- One entry is applied at its place. -/
def BootstrapObject.AppliedEntry (e : RelaEntry) (image image' : List UInt8) : Prop :=
  ∃ (target : BootstrapSection) (outputOffset : ℕ) (S : UInt64), obj.sections[e.target]? = some target ∧
    target.outputOffset = some outputOffset ∧ obj.symbolValue codeAddress definitions e.symbolIndex = .ok S ∧
    Relocated image (outputOffset + e.targetOffset) (codeAddress.toNat + outputOffset + e.targetOffset)
      e.relocationType S.toNat e.addend.toInt image'

/-- The entries are applied in turn, each once. -/
inductive BootstrapObject.Applied : List RelaEntry → List UInt8 → List UInt8 → Prop
  | nil {image} : Applied [] image image
  | cons {e es image image' image''} : obj.AppliedEntry codeAddress definitions e image image' →
      Applied es image' image'' → Applied (e :: es) image image''

/-- What linking makes. -/
structure BootstrapObject.Linked (linked : LinkedBootstrap) : Prop where
  image : ∃ image, obj.LaidOut image ∧ obj.Applied codeAddress definitions obj.relaEntries image linked.data
  entry : obj.namedSymbolValue codeAddress definitions "ksu_bootstrap" = .ok linked.entryAddress
  reserve : obj.namedSymbolValue codeAddress definitions "ksu_memblock_reserve_wrapper"
    = .ok linked.reserveWrapperAddress
  strndup : obj.namedSymbolValue codeAddress definitions "ksu_strndup_user_adapter" = .ok linked.strndupAdapterAddress

end Link

end KernelSU.LkmImage
