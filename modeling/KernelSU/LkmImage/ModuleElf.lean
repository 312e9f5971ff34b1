import KernelSU.Lib.Bytes
import KernelSU.Lib.Utf8
import KernelSU.Ksud.Sepolicy

/-!
# `userspace/ksud/src/lkm_image.rs`: the fixups of a module

`collect_module_fixups` walks the symbol tables of a kernel module and lists, for each undefined symbol that
the kernel has, where its entry is in the file and how far the kernel's symbol is from the image base.

Offsets and sizes are those of a 64-bit host, so that a `u64` always fits; `symbols.resolve_module_symbol`
is a function from names to addresses.
-/

namespace KernelSU.LkmImage

open KernelSU.Lib KernelSU.Lib.Bytes KernelSU.Ksud

/-! ### Constants -/

def EM_AARCH64 : ℕ := 183
def ET_REL : ℕ := 1
def SHT_SYMTAB : ℕ := 2
def SHN_UNDEF : ℕ := 0
def SHN_ABS : ℕ := 0xfff1

/-- The bytes that an ELF file starts with. -/
def elfMagic : List UInt8 := [0x7f, 0x45, 0x4c, 0x46]

/-! ### Reading -/

/-- The format `{n:x}`. -/
def hex (n : ℕ) : String := String.ofList (Nat.toDigits 16 n)

/-- `get_slice`. -/
def getSlice (data : List UInt8) (offset size : ℕ) : Except String (List UInt8) :=
  if offset + size ≤ data.length then .ok (slice data offset size)
  else .error ("offset 0x" ++ hex offset ++ " size 0x" ++ hex size ++ " is outside input")

/-- `read_u16`, `read_u32` and `read_u64`, by the number of bytes. -/
def readWord (size : ℕ) (data : List UInt8) (offset : ℕ) : Except String ℕ :=
  (getSlice data offset size).map decodeLE

def readU16 : List UInt8 → ℕ → Except String ℕ := readWord 2
def readU32 : List UInt8 → ℕ → Except String ℕ := readWord 4
def readU64 : List UInt8 → ℕ → Except String ℕ := readWord 8

/-- A word that is read stands in the file. -/
theorem readWord_eq {size : ℕ} {data : List UInt8} {offset v : ℕ} (h : readWord size data offset = .ok v) :
    v = decodeLE (slice data offset size) := by
  rw [readWord, getSlice] at h
  split_ifs at h
  · exact (Except.ok.inj h).symm
  · cases h

/-- A word that stands in the data is read. -/
theorem readWord_of_slice {size : ℕ} (hsize : 0 < size) {data : List UInt8} {offset v : ℕ}
    (h : slice data offset size = encodeLE size v) (hv : v < 256 ^ size) : readWord size data offset = .ok v := by
  have hlen := congrArg List.length h
  rw [slice_length, encodeLE_length] at hlen
  rw [readWord, getSlice, if_pos (by omega), h]
  exact congrArg Except.ok (decodeLE_encodeLE_of_lt size v hv)

/-- `read_c_string`. -/
def readCString (data : List UInt8) (offset : ℕ) : Option Str :=
  if data.length < offset then none
  else if 0 ∈ data.drop offset then some (fromUtf8Lossy (cString (data.drop offset)))
  else none

/-! ### Sections -/

/-- `struct ElfSection`. -/
structure ElfSection where
  sectionType : ℕ
  offset : ℕ
  size : ℕ
  link : ℕ
  entrySize : ℕ
  deriving DecidableEq, Repr

/-- One entry of the section table. -/
def readSection (module : List UInt8) (offset : ℕ) : Except String ElfSection := do
  let dataOffset ← readU64 module (offset + 24)
  let size ← readU64 module (offset + 32)
  let sectionType ← readU32 module (offset + 4)
  let link ← readU32 module (offset + 40)
  let entrySize ← readU64 module (offset + 56)
  return ⟨sectionType, dataOffset, size, link, entrySize⟩

/-- The section table, once its offset, the size of an entry and their number are known. -/
def readSections (module : List UInt8) (sectionOffset sectionEntrySize sectionCount : ℕ) :
    Except String (List ElfSection) :=
  if ¬(0 < sectionCount ∧ 64 ≤ sectionEntrySize) then
    .error "extended or malformed ELF section tables are unsupported"
  else if 2 ^ 64 ≤ sectionEntrySize * sectionCount then .error "ELF section table size overflow"
  else if 2 ^ 64 ≤ sectionOffset + sectionEntrySize * sectionCount then
    .error "ELF section table offset overflow"
  else if ¬(sectionOffset ≤ module.length ∧
      sectionOffset + sectionEntrySize * sectionCount ≤ module.length) then
    .error "ELF section table is outside the module"
  else (List.range sectionCount).mapM fun index => readSection module (sectionOffset + index * sectionEntrySize)

/-! ### Symbols -/

/-- `struct Fixup`. -/
structure Fixup where
  symbolFileOffset : ℕ
  kernelOffset : ℕ
  deriving DecidableEq, Repr

/-- What the walk has found so far: the fixups, the set of unresolved names and the offsets seen. -/
structure Found where
  fixups : List Fixup
  unresolved : List Str
  seenOffsets : List ℕ
  deriving DecidableEq, Repr

def Found.addUnresolved (found : Found) (name : Str) : Found :=
  if name ∈ found.unresolved then found else { found with unresolved := name :: found.unresolved }

/-- A fixup goes in once for each offset. -/
def Found.addFixup (found : Found) (fixup : Fixup) : Found :=
  if fixup.symbolFileOffset ∈ found.seenOffsets then found
  else
    { found with
      fixups := found.fixups ++ [fixup]
      seenOffsets := fixup.symbolFileOffset :: found.seenOffsets }

section Collect

variable (resolve : Str → Option UInt64) (imageBase imageSize : ℕ) (module : List UInt8)

/-- An undefined symbol with a name: its fixup, unless the kernel does not have it inside the image. -/
def resolveSymbol (found : Found) (symbolFileOffset : ℕ) (name : Str) : Except String Found :=
  match resolve name with
  | none => .ok (found.addUnresolved name)
  | some address =>
    if address.toNat < imageBase then .ok (found.addUnresolved name)
    else if imageSize ≤ address.toNat - imageBase then .ok (found.addUnresolved name)
    else if 2 ^ 32 ≤ symbolFileOffset then
      .error "module symbol offset does not fit the capsule fixup format"
    else .ok (found.addFixup ⟨symbolFileOffset, address.toNat - imageBase⟩)

/-- The symbol with this index. -/
def collectSymbol (elfSection : ElfSection) (strings : List UInt8) (found : Found) (index : ℕ) :
    Except String Found :=
  let symbolFileOffset := elfSection.offset + index * elfSection.entrySize
  if 2 ^ 64 ≤ symbolFileOffset then .error "ELF symbol offset overflow"
  else if module.length < min (symbolFileOffset + 24) (2 ^ 64 - 1) then
    .error "ELF symbol is outside the module"
  else do
    let shndx ← readU16 module (symbolFileOffset + 6)
    if shndx ≠ SHN_UNDEF then return found
    else
      let nameOffset ← readU32 module symbolFileOffset
      match readCString strings nameOffset with
      | none => return found
      | some name =>
        if name = [] then return found
        else resolveSymbol resolve imageBase imageSize found symbolFileOffset name

/-- One symbol table; its entry 0 is no symbol. -/
def collectSection (sections : List ElfSection) (found : Found) (elfSection : ElfSection) :
    Except String Found :=
  if ¬(24 ≤ elfSection.entrySize ∧ elfSection.size % elfSection.entrySize = 0) then
    .error "malformed ELF symbol table"
  else
    match sections[elfSection.link]? with
    | none => .error "ELF symbol table has an invalid string table"
    | some stringsSection =>
      if 2 ^ 64 ≤ stringsSection.offset + stringsSection.size then .error "ELF string table size overflow"
      else if module.length < stringsSection.offset + stringsSection.size then
        .error "ELF string table is outside the module"
      else
        (List.range' 1 (elfSection.size / elfSection.entrySize - 1)).foldlM
          (collectSymbol resolve imageBase imageSize module elfSection
            (slice module stringsSection.offset stringsSection.size)) found

/-- The walk over the symbol tables. -/
def collectSections (sections : List ElfSection) : Except String Found :=
  (sections.filter fun s => s.sectionType = SHT_SYMTAB).foldlM
    (collectSection resolve imageBase imageSize module sections) ⟨[], [], []⟩

/-- The order of strings, which is that of their code points. -/
def strLe (a b : Str) : Bool := !b.lex a fun c d => decide (c.toNat < d.toNat)

/-- What is returned: the fixups, and the unresolved names in order. -/
def Found.finish (found : Found) : Except String (List Fixup × List Str) :=
  if found.fixups = [] ∧ found.unresolved = [] then
    .error "module has no undefined symbols; unexpected kernel module format"
  else .ok (found.fixups, found.unresolved.mergeSort strLe)

/-- `collect_module_fixups`. -/
def collectModuleFixups : Except String (List Fixup × List Str) :=
  if ¬(64 ≤ module.length ∧ elfMagic <+: module) then .error "module is not an ELF file"
  else if ¬(module[4]? = some 2 ∧ module[5]? = some 1) then .error "module must be little-endian ELF64"
  else do
    let elfType ← readU16 module 16
    let machine ← readU16 module 18
    if ¬(elfType = ET_REL ∧ machine = EM_AARCH64) then .error "module must be an ARM64 ET_REL object"
    else
      let sectionOffset ← readU64 module 40
      let sectionEntrySize ← readU16 module 58
      let sectionCount ← readU16 module 60
      let sections ← readSections module sectionOffset sectionEntrySize sectionCount
      let found ← collectSections resolve imageBase imageSize module sections
      found.finish

end Collect

end KernelSU.LkmImage
