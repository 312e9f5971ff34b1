import KernelSU.LkmImageBtf.Candidate

/-!
# What a blob of type descriptions says

A description is one record with its payload.  Some of its words refer to something: to a name, to any type, or to a
type of one kind.  A `Blob` is a list of descriptions all of whose references are good, with the names they use; its
encoding is the form in which the kernel carries it.

* `references` — the words of a description that refer to something, and to what;
* `ReferencesValid` — all of them are good;
* `Blob.encode` — the header, the records and the names.
-/

namespace KernelSU.LkmImageBtf

open KernelSU.Lib KernelSU.Lib.Bytes

/-- What a word of a record refers to. -/
inductive Role where
  | name | type | prototype | var | nothing
deriving DecidableEq

namespace BtfKind

/-- What the word of a record refers to that is a size for other kinds. -/
def baseRole : BtfKind → Role
  | ptr | typedef | volatile | const | restrict | funcProto | var | declTag | typeTag => .type
  | func => .prototype
  | _ => .nothing

/-- The words of a payload that refer to something. -/
def payloadRoles (kind : BtfKind) (vlen : ℕ) : List (Role × ℕ) :=
  match kind with
  | array => [(.type, 0), (.type, 1)]
  | struct | union => (List.range vlen).flatMap fun i => [(.name, 3 * i), (.type, 3 * i + 1)]
  | enum => (List.range vlen).map fun i => (.name, 2 * i)
  | funcProto => (List.range vlen).flatMap fun i => [(.name, 2 * i), (.type, 2 * i + 1)]
  | datasec => (List.range vlen).map fun i => (.var, 3 * i)
  | enum64 => (List.range vlen).map fun i => (.name, 3 * i)
  | _ => []

end BtfKind

/-- One type. -/
structure TypeDescription where
  kind : BtfKind
  vlen : ℕ
  kindFlag : Bool
  name : ℕ
  sizeOrType : ℕ
  payload : List ℕ
deriving DecidableEq

namespace TypeDescription

variable (d : TypeDescription)

/-- Its numbers fit, and its payload has the size of its kind. -/
structure Fits : Prop where
  vlen : d.vlen < 2 ^ 16
  name : d.name < 2 ^ 32
  sizeOrType : d.sizeOrType < 2 ^ 32
  payload : ∀ word ∈ d.payload, word < 2 ^ 32
  size : d.payload.length * 4 = payloadSize d.kind d.vlen

instance : Decidable d.Fits :=
  decidable_of_iff (d.vlen < 2 ^ 16 ∧ d.name < 2 ^ 32 ∧ d.sizeOrType < 2 ^ 32 ∧ (∀ word ∈ d.payload, word < 2 ^ 32) ∧
    d.payload.length * 4 = payloadSize d.kind d.vlen)
    ⟨fun ⟨hv, hn, hs, hp, hl⟩ => ⟨hv, hn, hs, hp, hl⟩, fun h => ⟨h.vlen, h.name, h.sizeOrType, h.payload, h.size⟩⟩

/-- The words that refer to something. -/
def references : List (Role × ℕ) :=
  (.name, d.name) :: (d.kind.baseRole, d.sizeOrType) ::
    (d.kind.payloadRoles d.vlen).map fun r => (r.1, d.payload.getD r.2 0)

/-- The word with the kind and the number of entries. -/
def info : ℕ := d.vlen + 2 ^ 24 * d.kind.code + 2 ^ 31 * d.kindFlag.toNat

def encode : List UInt8 :=
  encodeLE 4 d.name ++ (encodeLE 4 d.info ++ (encodeLE 4 d.sizeOrType ++ d.payload.flatMap (encodeLE 4)))

end TypeDescription

/-- This NUL-terminated text stands at this offset. -/
def NameAt (strings : List UInt8) (offset : ℕ) (text : String) : Prop :=
  0 ∉ asBytes text ∧ slice strings offset ((asBytes text).length + 1) = asBytes text ++ [0]

instance (strings : List UInt8) (offset : ℕ) (text : String) : Decidable (NameAt strings offset text) :=
  inferInstanceAs (Decidable (_ ∧ _))

/-- A reference is good, where these are the names and these are the kinds of the types. -/
def Role.Good (strings : List UInt8) (kinds : List BtfKind) (value : ℕ) : Role → Prop
  | name => ∃ text, NameAt strings value text
  | type => value ≤ kinds.length
  | prototype => value ≠ 0 ∧ kinds[value - 1]? = some .funcProto
  | var => value ≠ 0 ∧ kinds[value - 1]? = some .var
  | nothing => True

/-- Every name is in the string section, and every type that is referred to exists and has the kind it should have. -/
def ReferencesValid (strings : List UInt8) (types : List TypeDescription) : Prop :=
  ∀ d ∈ types, ∀ r ∈ d.references, r.1.Good strings (types.map (·.kind)) r.2

/-- The type section. -/
def encodeTypes (types : List TypeDescription) : List UInt8 := types.flatMap TypeDescription.encode

/-- Types and their names. -/
structure Blob where
  types : List TypeDescription
  strings : List UInt8
  fits : ∀ d ∈ types, d.Fits
  valid : ReferencesValid strings types
  first : strings.head? = some 0
  last : strings.getLast? = some 0
  typesLength : (encodeTypes types).length < 2 ^ 32
  stringsLength : strings.length < 2 ^ 32

/-- A blob as bytes. -/
def Blob.encode (blob : Blob) : List UInt8 :=
  BTF_MAGIC_BYTES ++ (encodeLE 4 BTF_HEADER_SIZE ++ (encodeLE 4 0 ++ (encodeLE 4 (encodeTypes blob.types).length ++
    (encodeLE 4 (encodeTypes blob.types).length ++ (encodeLE 4 blob.strings.length ++
      (encodeTypes blob.types ++ blob.strings))))))

end KernelSU.LkmImageBtf
