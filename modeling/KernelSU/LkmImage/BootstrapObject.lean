import KernelSU.Lib.Panicking
import KernelSU.Lib.Utf8
import KernelSU.LkmImage.BootstrapRelocation

/-!
# `userspace/ksud/src/lkm_image.rs`: the bootstrap object and its linker

`BootstrapObject::parse` checks a relocatable ELF file with one text and one read-only section, `link` lays the two
out and applies the relocations.

Sizes are those of a 64-bit host.  `parse` indexes only behind its checks, so it ends with a value or an error; `link`
may also panic, which `vec![0; n]` does past `isize::MAX`.  The definitions that the linker is given are a function
from names to addresses.
-/

namespace KernelSU.LkmImage

open KernelSU.Lib KernelSU.Lib.Bytes KernelSU.Ksud

/-! ### Constants -/

def SHT_PROGBITS : ℕ := 1
def SHT_STRTAB : ℕ := 3
def SHT_RELA : ℕ := 4
def SHT_NOBITS : ℕ := 8
def SHT_REL : ℕ := 9
def SHF_WRITE : ℕ := 1
def SHF_ALLOC : ℕ := 2
def SHF_EXECINSTR : ℕ := 4
def ELF64_SECTION_SIZE : ℕ := 64
def ELF64_SYMBOL_SIZE : ℕ := 24
def ELF64_RELA_SIZE : ℕ := 24

/-! ### Data -/

/-- `struct BootstrapSection`. -/
structure BootstrapSection where
  name : Str
  sectionType : ℕ
  flags : ℕ
  offset : ℕ
  size : ℕ
  link : ℕ
  info : ℕ
  alignment : ℕ
  entrySize : ℕ
  outputOffset : Option ℕ
  deriving DecidableEq

/-- `struct BootstrapSymbol`. -/
structure BootstrapSymbol where
  name : Str
  value : UInt64
  sectionIndex : ℕ
  deriving DecidableEq

/-- `struct BootstrapObject`. -/
structure BootstrapObject where
  data : List UInt8
  sections : List BootstrapSection
  symbols : List BootstrapSymbol
  symbolTableIndex : ℕ
  imageSize : ℕ
  deriving DecidableEq

/-- `struct LinkedBootstrap`. -/
structure LinkedBootstrap where
  data : List UInt8
  entryAddress : UInt64
  reserveWrapperAddress : UInt64
  strndupAdapterAddress : UInt64
  deriving DecidableEq

/-! ### Helpers -/

/-- `ensure!`. -/
def ensure (c : Prop) [Decidable c] (message : String) : Except String Unit :=
  if c then .ok () else .error message

/-- `context` of an `Option`. -/
def context {α : Type} (o : Option α) (message : String) : Except String α := o.elim (.error message) .ok

/-- The indices of the elements that pass a test. -/
def indicesWhere {α : Type} (p : α → Bool) (xs : List α) : List ℕ :=
  (List.range xs.length).filter fun i => xs[i]?.any p

/-- The only element of a list. -/
def onlyOne {α : Type} : List α → Option α
  | [x] => some x
  | _ => none

/-- `checked_align_up`; the mask of a power of two leaves the multiple below. -/
def checkedAlignUp (value alignment : ℕ) : Except String ℕ := do
  ensure alignment.isPowerOfTwo "ELF section alignment is invalid"
  ensure (value + (alignment - 1) < 2 ^ 64) "ELF section layout overflow"
  return value + (alignment - 1) - (value + (alignment - 1)) % alignment

/-- `read_elf_string`. -/
def readElfString (data : List UInt8) (offset : ℕ) : Except String Str := do
  ensure (offset ≤ data.length) ("ELF string offset 0x" ++ hex offset ++ " is outside its table")
  ensure (0 ∈ data.drop offset) "unterminated ELF string"
  context (fromUtf8 (cString (data.drop offset))) "ELF string is not UTF-8"

/-! ### Parsing -/

/-- The header: where the section table is, how many sections it has, and which of them has the names. -/
def parseHeader (data : List UInt8) : Except String (ℕ × ℕ × ℕ) := do
  ensure (64 ≤ data.length ∧ slice data 0 4 = elfMagic) "embedded bootstrap is not an ELF file"
  ensure (data.getD 4 0 = 2 ∧ data.getD 5 0 = 1 ∧ data.getD 6 0 = 1) "embedded bootstrap must be little-endian ELF64"
  let objectType ← readU16 data 16
  let machine ← readU16 data 18
  ensure (objectType = ET_REL ∧ machine = EM_AARCH64) "embedded bootstrap must be an AArch64 ET_REL object"
  let version ← readU32 data 20
  ensure (version = 1) "unsupported ELF version"
  let headerSize ← readU16 data 52
  let programHeaders ← readU16 data 56
  ensure (64 ≤ headerSize ∧ programHeaders = 0) "malformed bootstrap ELF header"
  let sectionOffset ← readU64 data 40
  let sectionEntrySize ← readU16 data 58
  let sectionCount ← readU16 data 60
  let sectionNamesIndex ← readU16 data 62
  ensure (0 < sectionCount ∧ sectionEntrySize = ELF64_SECTION_SIZE ∧ sectionNamesIndex < sectionCount)
    "extended or malformed bootstrap section tables are unsupported"
  ensure (sectionOffset + sectionEntrySize * sectionCount < 2 ^ 64 ∧
    sectionOffset + sectionEntrySize * sectionCount ≤ data.length) "bootstrap section table is outside the object"
  return (sectionOffset, sectionCount, sectionNamesIndex)

/-- An entry of the section table, without its name, and where the name is. -/
def parseSection (data : List UInt8) (sectionOffset index : ℕ) : Except String (BootstrapSection × ℕ) := do
  let offset := sectionOffset + index * ELF64_SECTION_SIZE
  let sectionType ← readU32 data (offset + 4)
  let dataOffset ← readU64 data (offset + 24)
  let size ← readU64 data (offset + 32)
  let alignment ← readU64 data (offset + 48)
  let alignment := max alignment 1
  ensure alignment.isPowerOfTwo s!"bootstrap section {index} has invalid alignment {alignment}"
  ensure (sectionType ≠ SHT_NOBITS → dataOffset + size < 2 ^ 64 ∧ dataOffset + size ≤ data.length)
    s!"bootstrap section {index} is outside the object"
  let nameOffset ← readU32 data offset
  let flags ← readU64 data (offset + 8)
  let link ← readU32 data (offset + 40)
  let info ← readU32 data (offset + 44)
  let entrySize ← readU64 data (offset + 56)
  return (⟨[], sectionType, flags, dataOffset, size, link, info, alignment, entrySize, none⟩, nameOffset)

/-- The section table. -/
def parseSections (data : List UInt8) : Except String (List BootstrapSection) := do
  let header ← parseHeader data
  let entries ← (List.range header.2.1).mapM (parseSection data header.1)
  let sectionNames ← context (entries[header.2.2]?.map Prod.fst) "invalid bootstrap section-name table"
  ensure (sectionNames.sectionType = SHT_STRTAB) "bootstrap section-name table is not a string table"
  let sectionNameData ← getSlice data sectionNames.offset sectionNames.size
  entries.mapM fun entry => do
    let name ← readElfString sectionNameData entry.2
    return { entry.1 with name := name }

/-- `find_unique_section`. -/
def findUniqueSection (sections : List BootstrapSection) (name : String) : Except String ℕ :=
  context (onlyOne (indicesWhere (fun s => s.name = name.toList) sections))
    s!"bootstrap must contain exactly one {name} section"

/-- The text and the read-only section get their place in the image; the sections, and the size of the image. -/
def layoutSections (sections : List BootstrapSection) : Except String (List BootstrapSection × ℕ) := do
  let textIndex ← findUniqueSection sections ".text.ksu_bootstrap"
  let rodataIndex ← findUniqueSection sections ".rodata.ksu_bootstrap"
  let text ← context sections[textIndex]? "index out of bounds"
  let rodata ← context sections[rodataIndex]? "index out of bounds"
  ensure (text.sectionType = SHT_PROGBITS ∧
      text.flags &&& (SHF_ALLOC ||| SHF_EXECINSTR) = SHF_ALLOC ||| SHF_EXECINSTR ∧ text.flags &&& SHF_WRITE = 0)
    "bootstrap text section has unsafe flags or type"
  ensure (rodata.sectionType = SHT_PROGBITS ∧ rodata.flags &&& SHF_ALLOC ≠ 0 ∧
      rodata.flags &&& (SHF_WRITE ||| SHF_EXECINSTR) = 0)
    "bootstrap rodata section has unsafe flags or type"
  sections.zipIdx.forM fun s =>
    ensure (s.1.size = 0 ∨ s.1.flags &&& SHF_ALLOC = 0 ∨ s.2 = textIndex ∨ s.2 = rodataIndex)
      ("unsupported allocatable bootstrap section " ++ String.ofList s.1.name)
  let rodataOutput ← checkedAlignUp text.size rodata.alignment
  ensure (rodataOutput + rodata.size < 2 ^ 64) "bootstrap image size overflow"
  ensure (0 < rodataOutput + rodata.size) "bootstrap has no loadable bytes"
  return ((sections.set textIndex { text with outputOffset := some 0 }).set rodataIndex
    { rodata with outputOffset := some rodataOutput }, rodataOutput + rodata.size)

/-- The format `{name:?}`, for a name without characters to escape. -/
def debug (name : Str) : String := "\"" ++ String.ofList name ++ "\""

/-- A symbol. -/
def parseSymbol (data : List UInt8) (sections : List BootstrapSection) (strings : List UInt8) (tableOffset index : ℕ) :
    Except String BootstrapSymbol := do
  let offset := tableOffset + index * ELF64_SYMBOL_SIZE
  let nameOffset ← readU32 data offset
  let name ← readElfString strings nameOffset
  let sectionIndex ← readU16 data (offset + 6)
  ensure (sectionIndex = SHN_UNDEF ∨ sectionIndex = SHN_ABS ∨ sectionIndex < sections.length)
    ("bootstrap symbol " ++ debug name ++ " uses an unsupported section index")
  let value ← readU64 data (offset + 8)
  ensure (sectionIndex ≠ SHN_UNDEF ∧ sectionIndex ≠ SHN_ABS →
      ∃ s ∈ sections[sectionIndex]?, value ≤ s.size)
    ("bootstrap symbol " ++ debug name ++ " is outside its section")
  return ⟨name, UInt64.ofNat value, sectionIndex⟩

/-- The symbol table: its index and the symbols. -/
def parseSymbols (data : List UInt8) (sections : List BootstrapSection) :
    Except String (ℕ × List BootstrapSymbol) := do
  let symbolTableIndex ← context (onlyOne (indicesWhere (fun s => s.sectionType = SHT_SYMTAB) sections))
    "bootstrap must contain exactly one symbol table"
  let symbolTable ← context sections[symbolTableIndex]? "index out of bounds"
  ensure (symbolTable.entrySize = ELF64_SYMBOL_SIZE ∧ symbolTable.size % ELF64_SYMBOL_SIZE = 0)
    "malformed bootstrap symbol table"
  let symbolStrings ← context sections[symbolTable.link]? "bootstrap symbol table has an invalid string table"
  ensure (symbolStrings.sectionType = SHT_STRTAB) "bootstrap symbol names are not in a string table"
  let strings ← getSlice data symbolStrings.offset symbolStrings.size
  ensure (symbolTable.info ≤ symbolTable.size / ELF64_SYMBOL_SIZE)
    "bootstrap symbol table has invalid local symbol count"
  let symbols ← (List.range (symbolTable.size / ELF64_SYMBOL_SIZE)).mapM
    (parseSymbol data sections strings symbolTable.offset)
  return (symbolTableIndex, symbols)

/-- The check of a section of relocations, and how many there are with it. -/
def checkRela (sections : List BootstrapSection) (symbolTableIndex relocationCount : ℕ) (s : BootstrapSection) :
    Except String ℕ := do
  ensure (s.entrySize = ELF64_RELA_SIZE ∧ s.size % ELF64_RELA_SIZE = 0 ∧ s.link = symbolTableIndex)
    ("malformed bootstrap relocation section " ++ String.ofList s.name)
  let target ← context sections[s.info]? "bootstrap relocation section has an invalid target"
  ensure target.outputOffset.isSome ("bootstrap relocation section " ++ String.ofList s.name ++
    " targets non-loadable section " ++ String.ofList target.name)
  ensure (relocationCount + s.size / ELF64_RELA_SIZE < 2 ^ 64) "bootstrap relocation count overflow"
  return relocationCount + s.size / ELF64_RELA_SIZE

/-- `BootstrapObject::parse`. -/
def BootstrapObject.parse (data : List UInt8) : Except String BootstrapObject := do
  let sections ← parseSections data
  let laidOut ← layoutSections sections
  let table ← parseSymbols data laidOut.1
  ensure (∀ s ∈ laidOut.1, s.sectionType ≠ SHT_REL) "bootstrap uses unsupported REL relocations"
  let relocationCount ← (laidOut.1.filter fun s => s.sectionType = SHT_RELA).foldlM (checkRela laidOut.1 table.1) 0
  ensure (0 < relocationCount) "bootstrap has no relocations"
  return ⟨data, laidOut.1, table.2, table.1, laidOut.2⟩

end KernelSU.LkmImage
