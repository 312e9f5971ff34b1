import KernelSU.Lib.Reading
import KernelSU.LkmImage.Kallsyms

/-!
# `userspace/ksud/src/lkm_image_btf.rs`: the type descriptions of a kernel

A blob of type descriptions is a header, a section of records and a section of names.  A record is twelve bytes and
a payload whose size depends on its kind, and records refer to names by their offset and to other records by their
number.

* `BtfCandidate.parse` — the blob at an offset, if there is one;
* `findBtfCandidates` — all blobs of an image.
-/

namespace KernelSU.LkmImageBtf

open KernelSU.Lib KernelSU.Lib.Bytes KernelSU.Lib.Reading
open KernelSU.LkmImage (checked)

def BTF_MAGIC : ℕ := 0xeb9f
def BTF_VERSION : ℕ := 1
def BTF_HEADER_SIZE : ℕ := 24
def BTF_MAGIC_BYTES : List UInt8 := [0x9f, 0xeb, 0x01, 0x00]

/-- `BTF_KIND_*`. -/
inductive BtfKind where
  | int | ptr | array | struct | union | enum | fwd | typedef | volatile | const | restrict | func | funcProto | var
  | datasec | float | declTag | typeTag | enum64
deriving DecidableEq

namespace BtfKind

/-- The number of a kind. -/
def code : BtfKind → ℕ
  | int => 1
  | ptr => 2
  | array => 3
  | struct => 4
  | union => 5
  | enum => 6
  | fwd => 7
  | typedef => 8
  | volatile => 9
  | const => 10
  | restrict => 11
  | func => 12
  | funcProto => 13
  | var => 14
  | datasec => 15
  | float => 16
  | declTag => 17
  | typeTag => 18
  | enum64 => 19

/-- The kind with this number. -/
def ofCode : ℕ → Option BtfKind
  | 1 => some int
  | 2 => some ptr
  | 3 => some array
  | 4 => some struct
  | 5 => some union
  | 6 => some enum
  | 7 => some fwd
  | 8 => some typedef
  | 9 => some volatile
  | 10 => some const
  | 11 => some restrict
  | 12 => some func
  | 13 => some funcProto
  | 14 => some var
  | 15 => some datasec
  | 16 => some float
  | 17 => some declTag
  | 18 => some typeTag
  | 19 => some enum64
  | _ => none

theorem ofCode_code (kind : BtfKind) : ofCode kind.code = some kind := by cases kind <;> rfl

theorem code_lt (kind : BtfKind) : kind.code < 32 := by cases kind <;> decide

end BtfKind

structure BtfType where
  kind : BtfKind
  vlen : ℕ
  kindFlag : Bool
  nameOffset : ℕ
  sizeOrType : ℕ
  payloadOffset : ℕ
deriving DecidableEq

structure BtfCandidate where
  data : List UInt8
  fileOffset : ℕ
  blobEnd : ℕ
  stringsStart : ℕ
  stringsEnd : ℕ
  types : List BtfType
deriving DecidableEq

/-! ### Reads -/

/-- `data.get(start..end)`. -/
def getSlice (data : List UInt8) (start stop : ℕ) : Reading Unit (List UInt8) :=
  if start ≤ stop ∧ stop ≤ data.length then read ⟨start, stop - start⟩ (slice data start (stop - start)) else fail ()

/-- `checked_add`. -/
def checkedAdd (a b : ℕ) : Reading Unit ℕ := ofOption (checked (a + b)) ()

/-- `data.get(offset)`. -/
def getByte (data : List UInt8) (offset : ℕ) : Reading Unit ℕ := do
  let bytes ← getSlice data offset (offset + 1)
  pure (decodeLE bytes)

/-- A word of `n` bytes. -/
def readWord (n : ℕ) (data : List UInt8) (offset : ℕ) : Reading Unit ℕ := do
  let stop ← checkedAdd offset n
  let bytes ← getSlice data offset stop
  pure (decodeLE bytes)

/-- `read_u16`. -/
def readU16 (data : List UInt8) (offset : ℕ) : Reading Unit ℕ := readWord 2 data offset

/-- `read_u32`. -/
def readU32 (data : List UInt8) (offset : ℕ) : Reading Unit ℕ := readWord 4 data offset

def rangesOverlap (leftStart leftEnd rightStart rightEnd : ℕ) : Bool :=
  max leftStart rightStart < min leftEnd rightEnd

/-- `read_string`. -/
def readString (data : List UInt8) (stringsStart stringsEnd offset : ℕ) : Reading Unit String := do
  let start ← checkedAdd stringsStart offset
  ensure (start < stringsEnd) ()
  let tail ← getSlice data start stringsEnd
  let length ← ofOption (tail.findIdx? (· == 0)) ()
  ofOption (textFromUtf8 (tail.take length)) ()

/-- `payload_size`. -/
def payloadSize (kind : BtfKind) (vlen : ℕ) : ℕ :=
  match kind with
  | .int | .var | .declTag => 4
  | .ptr | .fwd | .typedef | .volatile | .const | .restrict | .func | .float | .typeTag => 0
  | .array => 12
  | .struct | .union | .datasec | .enum64 => vlen * 12
  | .enum | .funcProto => vlen * 8

/-! ### The two sections -/

/-- Where the sections of a blob are. -/
structure Sections where
  typesStart : ℕ
  typesEnd : ℕ
  stringsStart : ℕ
  stringsEnd : ℕ
deriving DecidableEq

/-- The header of a blob. -/
def readSections (data : List UInt8) (fileOffset : ℕ) : Reading Unit Sections := do
  let magic ← readU16 data fileOffset
  let version ← getByte data (← checkedAdd fileOffset 2)
  let flags ← getByte data (← checkedAdd fileOffset 3)
  let headerLength ← readU32 data (← checkedAdd fileOffset 4)
  ensure (magic = BTF_MAGIC ∧ version = BTF_VERSION ∧ flags = 0 ∧ BTF_HEADER_SIZE ≤ headerLength) ()
  let headerEnd ← checkedAdd fileOffset headerLength
  let typeOffset ← readU32 data (← checkedAdd fileOffset 8)
  let typeLength ← readU32 data (← checkedAdd fileOffset 12)
  let stringsOffset ← readU32 data (← checkedAdd fileOffset 16)
  let stringsLength ← readU32 data (← checkedAdd fileOffset 20)
  let typesStart ← checkedAdd headerEnd typeOffset
  let typesEnd ← checkedAdd typesStart typeLength
  let stringsStart ← checkedAdd headerEnd stringsOffset
  let stringsEnd ← checkedAdd stringsStart stringsLength
  ensure (headerEnd ≤ data.length ∧ headerEnd ≤ typesStart ∧ headerEnd ≤ stringsStart ∧ typesEnd ≤ data.length ∧
    stringsEnd ≤ data.length ∧ stringsLength ≠ 0 ∧
    rangesOverlap typesStart typesEnd stringsStart stringsEnd = false) ()
  -- The string section is not empty here, so that it has a last byte.
  let first ← getByte data stringsStart
  ensure (first = 0) ()
  let last ← getByte data (stringsEnd - 1)
  ensure (last = 0) ()
  pure ⟨typesStart, typesEnd, stringsStart, stringsEnd⟩

/-- One turn of the loop over the records: the record at this position. -/
def readType (data : List UInt8) (s : Sections) (position : ℕ) : Reading Unit BtfType := do
  let headerEnd ← checkedAdd position 12
  ensure (headerEnd ≤ s.typesEnd) ()
  let nameOffset ← readU32 data position
  let info ← readU32 data (← checkedAdd position 4)
  let sizeOrType ← readU32 data (← checkedAdd position 8)
  let kind ← ofOption (BtfKind.ofCode ((info >>> 24) &&& 0x1f)) ()
  let vlen := info &&& 0xffff
  let next ← checkedAdd headerEnd (payloadSize kind vlen)
  ensure (next ≤ s.typesEnd) ()
  let _ ← readString data s.stringsStart s.stringsEnd nameOffset
  pure ⟨kind, vlen, info >>> 31 != 0, nameOffset, sizeOrType, headerEnd⟩

/-- The records from this position on. -/
def readTypes (data : List UInt8) (s : Sections) (position : ℕ) : Reading Unit (List BtfType) :=
  if position < s.typesEnd then do
    let btfType ← readType data s position
    let rest ← readTypes data s (position + 12 + payloadSize btfType.kind btfType.vlen)
    pure (btfType :: rest)
  else if position = s.typesEnd then pure []
  else fail ()
termination_by s.typesEnd - position

/-! ### References -/

namespace BtfCandidate

variable (c : BtfCandidate)

def string (offset : ℕ) : Reading Unit String := readString c.data c.stringsStart c.stringsEnd offset

def typeById (typeId : ℕ) : Option BtfType := if typeId = 0 then none else c.types[typeId - 1]?

def validTypeId (typeId : ℕ) : Bool := typeId == 0 || decide (typeId ≤ c.types.length)

/-- There is a word at this offset, and it is the offset of a name. -/
def validNameAt (offset : ℕ) : Reading Unit Bool :=
  isSomeAnd (readU32 c.data offset) fun name => succeeds (c.string name)

/-- There is a word at this offset, and it is the number of a type. -/
def validTypeAt (offset : ℕ) : Reading Unit Bool :=
  isSomeAnd (readU32 c.data offset) fun typeId => pure (c.validTypeId typeId)

def isOfKind (kind : BtfKind) (typeId : ℕ) : Bool := (c.typeById typeId).any fun btfType => btfType.kind == kind

/-- `valid_base_reference`. -/
def validBaseReference (t : BtfType) : Bool :=
  match t.kind with
  | .ptr | .typedef | .volatile | .const | .restrict | .func | .funcProto | .var | .declTag | .typeTag =>
    c.validTypeId t.sizeOrType
  | _ => true

/-- What is checked of a record by its kind. -/
def validPayload (t : BtfType) : Reading Unit Bool :=
  match t.kind with
  | .array =>
    isSomeAnd (readU32 c.data t.payloadOffset) fun elementType =>
      isSomeAnd (readU32 c.data (t.payloadOffset + 4)) fun indexType =>
        pure (c.validTypeId elementType && c.validTypeId indexType)
  | .struct | .union =>
    all (fun index =>
      andAlso (c.validNameAt (t.payloadOffset + index * 12)) (c.validTypeAt (t.payloadOffset + index * 12 + 4)))
      (List.range t.vlen)
  | .enum => all (fun index => c.validNameAt (t.payloadOffset + index * 8)) (List.range t.vlen)
  | .func => pure (c.isOfKind .funcProto t.sizeOrType)
  | .funcProto =>
    all (fun index =>
      andAlso (c.validNameAt (t.payloadOffset + index * 8)) (c.validTypeAt (t.payloadOffset + index * 8 + 4)))
      (List.range t.vlen)
  | .datasec =>
    all (fun index =>
      isSomeAnd (readU32 c.data (t.payloadOffset + index * 12)) fun typeId => pure (c.isOfKind .var typeId))
      (List.range t.vlen)
  | .enum64 => all (fun index => c.validNameAt (t.payloadOffset + index * 12)) (List.range t.vlen)
  | _ => pure true

/-- `validate_references`. -/
def validateReferences : Reading Unit Bool :=
  all (fun t => andAlso (succeeds (c.string t.nameOffset)) (andAlso (pure (c.validBaseReference t)) (c.validPayload t)))
    c.types

/-- `BtfCandidate::parse`. -/
def parse (data : List UInt8) (fileOffset : ℕ) : Reading Unit BtfCandidate := do
  let s ← readSections data fileOffset
  let types ← readTypes data s s.typesStart
  let parsed : BtfCandidate := ⟨data, fileOffset, max s.stringsEnd s.typesEnd, s.stringsStart, s.stringsEnd, types⟩
  let valid ← parsed.validateReferences
  ensure (valid = true) ()
  pure parsed

end BtfCandidate

/-! ### All blobs of an image -/

/-- `windows`. -/
def windows (data : List UInt8) (size : ℕ) : List (List UInt8) :=
  (List.range (data.length + 1 - size)).map fun i => slice data i size

/-- The blobs from this offset on. -/
def findBtfCandidatesFrom (image : List UInt8) (searchFrom : ℕ) : List BtfCandidate :=
  if searchFrom ≤ image.length - BTF_MAGIC_BYTES.length then
    match (windows (image.drop searchFrom) BTF_MAGIC_BYTES.length).findIdx? (· == BTF_MAGIC_BYTES) with
    | none => []
    | some relative =>
      let fileOffset := searchFrom + relative
      (BtfCandidate.parse image fileOffset).value.toList ++ findBtfCandidatesFrom image (fileOffset + 1)
  else []
termination_by image.length + 1 - searchFrom

/-- `find_btf_candidates`. -/
def findBtfCandidates (image : List UInt8) : List BtfCandidate := findBtfCandidatesFrom image 0

end KernelSU.LkmImageBtf
