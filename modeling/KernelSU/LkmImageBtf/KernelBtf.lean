import KernelSU.LkmImageBtf.Candidate

/-!
# `userspace/ksud/src/lkm_image_btf.rs`: what the kernel's types say of `load_module`

* `loadInfoLayout` — where `struct load_info` has its members `hdr` and `len`;
* `validateFunctionAbis` — whether the functions that are called take as many parameters as they are given;
* `toKernelBtf` — both.
-/

namespace KernelSU.LkmImageBtf

open KernelSU.Lib KernelSU.Lib.Bytes KernelSU.Lib.Reading
open KernelSU.LkmImage (checked)

def ARM64_POINTER_SIZE : ℕ := 8

structure LoadInfoLayout where
  structureSize : ℕ
  hdrOffset : ℕ
  lenOffset : ℕ
deriving DecidableEq

structure KernelBtf where
  fileOffset : ℕ
  size : ℕ
  typeCount : ℕ
  loadInfo : Option LoadInfoLayout
deriving DecidableEq

/-- `ensure!`. -/
def require (c : Prop) [Decidable c] (message : String) : Except String Unit := if c then .ok () else .error message

/-- `ok_or_else`. -/
def okOrElse {α : Type} (o : Option α) (message : String) : Except String α :=
  match o with
  | some a => .ok a
  | none => .error message

/-- Kinds that stand for another type. -/
def BtfKind.isModifier : BtfKind → Bool
  | typedef | volatile | const | restrict | typeTag => true
  | _ => false

namespace BtfCandidate

variable (c : BtfCandidate)

/-- At most `n` turns of the loop in `strip_modifiers`. -/
def stripModifiersWithin : ℕ → ℕ → Option ℕ
  | 0, _ => none
  | n + 1, typeId =>
    match c.typeById typeId with
    | none => if typeId = 0 then some 0 else none
    | some btfType =>
      if btfType.kind.isModifier then stripModifiersWithin n btfType.sizeOrType else some typeId

/-- `strip_modifiers`. -/
def stripModifiers (typeId : ℕ) : Option ℕ := c.stripModifiersWithin c.types.length typeId

/-- `type_size_inner`, where `n` more arrays may be entered. -/
def typeSizeWithin : ℕ → ℕ → Option ℕ
  | 0, _ => none
  | n + 1, typeId => do
    let typeId ← c.stripModifiers typeId
    let btfType ← c.typeById typeId
    match btfType.kind with
    | .int | .struct | .union | .enum | .float | .enum64 => some btfType.sizeOrType
    | .ptr => some ARM64_POINTER_SIZE
    | .array => do
      let elementType ← (readU32 c.data btfType.payloadOffset).value
      let count ← (readU32 c.data (btfType.payloadOffset + 8)).value
      let size ← typeSizeWithin n elementType
      checked (size * count)
    | _ => none

/-- `type_size`: the depth is at most 64. -/
def typeSize (typeId : ℕ) : Option ℕ := c.typeSizeWithin 65 typeId

def pointsToNamedStruct (typeId : ℕ) (expectedName : String) : Bool :=
  match (c.stripModifiers typeId).bind c.typeById with
  | none => false
  | some pointer =>
    if pointer.kind ≠ .ptr then false
    else
      ((c.stripModifiers pointer.sizeOrType).bind c.typeById).any fun pointee =>
        pointee.kind == .struct && (c.string pointee.nameOffset).value == some expectedName

def memberOffset (structure' : BtfType) (memberIndex : ℕ) : Option ℕ := do
  let raw ← (readU32 c.data (structure'.payloadOffset + memberIndex * 12 + 8)).value
  if structure'.kindFlag = true ∧ raw >>> 24 ≠ 0 then none
  else
    let bitOffset := if structure'.kindFlag then raw &&& 0x00ffffff else raw
    if bitOffset % 8 = 0 then some (bitOffset / 8) else none

/-- The types of this kind and name. -/
def typesNamed (kind : BtfKind) (name : String) : List BtfType :=
  c.types.filter fun btfType => btfType.kind == kind && (c.string btfType.nameOffset).value == some name

/-- The name of a member, if there is one. -/
def memberName (structure' : BtfType) (index : ℕ) : Option String := do
  let nameOffset ← (readU32 c.data (structure'.payloadOffset + index * 12)).value
  (c.string nameOffset).value

/-- One member of `struct load_info`, where `hdr` and `len` were found so far. -/
def loadInfoMember (structure' : BtfType) (found : Option ℕ × Option ℕ) (index : ℕ) :
    Except String (Option ℕ × Option ℕ) :=
  match c.memberName structure' index with
  | none => .ok found
  | some name =>
    if name ≠ "hdr" ∧ name ≠ "len" then .ok found
    else do
      let memberType ← okOrElse (readU32 c.data (structure'.payloadOffset + index * 12 + 4)).value
        "BTF load_info member type is truncated"
      require (c.typeSize memberType = some ARM64_POINTER_SIZE)
        ("BTF struct load_info." ++ name ++ " is not eight bytes")
      let offset ← okOrElse (c.memberOffset structure' index) ("BTF struct load_info." ++ name ++ " is not byte-aligned")
      if name = "hdr" then .ok (some offset, found.2) else .ok (found.1, some offset)

/-- One `struct load_info`, where these layouts were found so far. -/
def loadInfoStruct (layouts : List LoadInfoLayout) (structure' : BtfType) : Except String (List LoadInfoLayout) := do
  let found ← (List.range structure'.vlen).foldlM (c.loadInfoMember structure') (none, none)
  match found with
  | (some hdrOffset, some lenOffset) => do
    require (hdrOffset + ARM64_POINTER_SIZE ≤ structure'.sizeOrType ∧
      lenOffset + ARM64_POINTER_SIZE ≤ structure'.sizeOrType) "BTF struct load_info fields exceed the structure size"
    .ok (layouts.insert ⟨structure'.sizeOrType, hdrOffset, lenOffset⟩)
  | _ => .ok layouts

/-- `load_info_layout`.  The set of layouts is a list without duplicates. -/
def loadInfoLayout : Except String (Option LoadInfoLayout) := do
  let structures := c.typesNamed .struct "load_info"
  let layouts ← structures.foldlM c.loadInfoStruct []
  if structures.length = 0 then .ok none
  else do
    require (layouts ≠ []) "BTF contains struct load_info without usable hdr/len members"
    require (layouts.length = 1) "BTF contains conflicting struct load_info layouts"
    .ok layouts.head?

def EXPECTED_ARITIES : List (String × ℕ) :=
  [("load_module", 3), ("vmalloc", 1), ("vmalloc_noprof", 1), ("memcpy", 3), ("kstrdup", 2), ("strndup_user", 2),
    ("memblock_reserve", 2)]

/-- One function of this name. -/
def validateFunctionAbi (name : String) (expectedArity : ℕ) (function : BtfType) : Except String Unit := do
  let prototype ← okOrElse (c.typeById function.sizeOrType) ("BTF function " ++ name ++ " has no prototype")
  require (prototype.kind = .funcProto ∧ prototype.vlen = expectedArity)
    ("BTF function " ++ name ++ " has " ++ toString prototype.vlen ++ " parameters; expected " ++ toString expectedArity)
  if name = "load_module" then do
    let firstParameter ← okOrElse (readU32 c.data (prototype.payloadOffset + 4)).value
      "BTF load_module prototype is truncated"
    require (c.pointsToNamedStruct firstParameter "load_info")
      "BTF load_module first parameter is not struct load_info *"
  else .ok ()

/-- `validate_function_abis`. -/
def validateFunctionAbis : Except String Unit :=
  EXPECTED_ARITIES.forM fun expected =>
    (c.typesNamed .func expected.1).forM (c.validateFunctionAbi expected.1 expected.2)

def size : ℕ := c.blobEnd - c.fileOffset

/-- `to_kernel_btf`. -/
def toKernelBtf : Except String KernelBtf := do
  let loadInfo ← c.loadInfoLayout
  c.validateFunctionAbis
  .ok ⟨c.fileOffset, c.size, c.types.length, loadInfo⟩

end BtfCandidate

end KernelSU.LkmImageBtf
