import KernelSU.LkmImageBtf.CandidateReads

/-!
# What is accepted as a blob

* `value_readSections` — **PROVED**: what the header says of the two sections;
* `value_readTypes` — **PROVED**: the records tile the type section;
* `holds_validateReferences` — **PROVED**: the check of the references is `ReferencesValid`;
* `value_parse` — **PROVED**: all of it together.
-/

namespace KernelSU.LkmImageBtf

open KernelSU.Lib KernelSU.Lib.Bytes KernelSU.Lib.Reading

/-! ### The header -/

/-- There is a header at this offset, and this is what it says of the sections. -/
structure SectionsAt (data : List UInt8) (offset : ℕ) (s : Sections) : Prop where
  magic : decodeLE (slice data offset 2) = BTF_MAGIC
  version : decodeLE (slice data (offset + 2) 1) = BTF_VERSION
  flags : decodeLE (slice data (offset + 3) 1) = 0
  headerSize : BTF_HEADER_SIZE ≤ wordAt data (offset + 4)
  headerEnd : offset + wordAt data (offset + 4) ≤ data.length
  typesStart : s.typesStart = offset + wordAt data (offset + 4) + wordAt data (offset + 8)
  typesEnd : s.typesEnd = s.typesStart + wordAt data (offset + 12)
  stringsStart : s.stringsStart = offset + wordAt data (offset + 4) + wordAt data (offset + 16)
  stringsEnd : s.stringsEnd = s.stringsStart + wordAt data (offset + 20)
  typesInside : s.typesEnd ≤ data.length
  stringsInside : s.stringsEnd ≤ data.length
  stringsNonempty : wordAt data (offset + 20) ≠ 0
  apart : rangesOverlap s.typesStart s.typesEnd s.stringsStart s.stringsEnd = false
  first : decodeLE (slice data s.stringsStart 1) = 0
  last : decodeLE (slice data (s.stringsEnd - 1) 1) = 0

/-- **What the header says.** -/
theorem value_readSections {data : List UInt8} (hlength : data.length < 2 ^ 64) {offset : ℕ} {s : Sections} :
    (readSections data offset).value = some s ↔ SectionsAt data offset s := by
  simp only [readSections, readU16, value_checkedAdd_bind, value_readWord_bind hlength, value_readU32_bind hlength,
    value_getByte_bind, value_ensure_bind, value_pure, Option.some.injEq]
  constructor
  · rintro ⟨-, -, -, -, -, -, -, ⟨hmagic, hversion, hflags, hheader⟩, -, -, -, -, -, -, -, -, -, -, -, -, -,
      ⟨hend, -, -, htypes, hstrings, hnonempty, hapart⟩, -, hfirst, -, hlast, rfl⟩
    exact ⟨hmagic, hversion, hflags, hheader, hend, rfl, rfl, rfl, rfl, htypes, hstrings, hnonempty, hapart, hfirst,
      hlast⟩
  · rintro ⟨hmagic, hversion, hflags, hheader, hend, ht, hte, hs, hse, htypes, hstrings, hnonempty, hapart, hfirst,
      hlast⟩
    obtain ⟨typesStart, typesEnd, stringsStart, stringsEnd⟩ := s
    dsimp only at ht hte hs hse htypes hstrings hapart hfirst hlast
    subst ht hte hs hse
    have hsize : 24 ≤ wordAt data (offset + 4) := hheader
    refine ⟨?_, ?_, ?_, ?_, ?_, ?_, ?_, ⟨hmagic, hversion, hflags, hheader⟩, ?_, ?_, ?_, ?_, ?_, ?_, ?_, ?_, ?_, ?_, ?_,
      ?_, ?_, ⟨hend, ?_, ?_, htypes, hstrings, hnonempty, hapart⟩, ?_, hfirst, ?_, hlast, rfl⟩
    all_goals omega

/-! ### The records -/

/-- The record at this position. -/
structure RecordAt (data : List UInt8) (position : ℕ) (t : BtfType) : Prop where
  name : wordAt data position = t.nameOffset
  kind : BtfKind.ofCode ((wordAt data (position + 4) >>> 24) &&& 0x1f) = some t.kind
  vlen : wordAt data (position + 4) &&& 0xffff = t.vlen
  kindFlag : (wordAt data (position + 4) >>> 31 != 0) = t.kindFlag
  sizeOrType : wordAt data (position + 8) = t.sizeOrType
  payload : position + 12 = t.payloadOffset

/-- The records follow each other from this position on, up to the end and not beyond. -/
def Tiles (data : List UInt8) (stop : ℕ) : ℕ → List BtfType → Prop
  | position, [] => position = stop
  | position, t :: ts => RecordAt data position t ∧ Tiles data stop (position + 12 + payloadSize t.kind t.vlen) ts

/-- The names of a blob. -/
def Sections.names (s : Sections) (data : List UInt8) : List UInt8 :=
  slice data s.stringsStart (s.stringsEnd - s.stringsStart)

theorem tiles_le {data : List UInt8} {stop position : ℕ} {types : List BtfType} (h : Tiles data stop position types) :
    position ≤ stop := by
  induction types generalizing position with
  | nil => exact le_of_eq h
  | cons t types ih =>
    have hrest := ih h.2
    omega

/-- A record that tiles has its payload inside. -/
theorem tiles_payload {data : List UInt8} {stop position : ℕ} {types : List BtfType}
    (h : Tiles data stop position types) {t : BtfType} (ht : t ∈ types) :
    t.payloadOffset + payloadSize t.kind t.vlen ≤ stop := by
  induction types generalizing position with
  | nil => cases ht
  | cons u types ih =>
    rcases List.mem_cons.mp ht with rfl | ht
    · rw [← h.1.payload]
      exact tiles_le h.2
    · exact ih h.2 ht

section Records

variable {data : List UInt8} (hlength : data.length < 2 ^ 64) {s : Sections} (htypes : s.typesEnd ≤ data.length)
  (hstrings : s.stringsEnd ≤ data.length)

include hlength htypes hstrings

/-- One record. -/
theorem value_readType {position : ℕ} {t : BtfType} :
    (readType data s position).value = some t ↔
      RecordAt data position t ∧ position + 12 + payloadSize t.kind t.vlen ≤ s.typesEnd ∧
        ∃ text, NameAt (s.names data) t.nameOffset text := by
  simp only [readType, value_checkedAdd_bind, value_readU32_bind hlength, value_ensure_bind, value_ofOption_bind]
  simp only [value_bind, Option.bind_eq_some_iff, value_readString hlength hstrings, value_pure, Option.some.injEq]
  constructor
  · rintro ⟨-, -, -, -, -, -, -, kind, hkind, -, hnext, text, htext, rfl⟩
    exact ⟨⟨rfl, hkind, rfl, rfl, rfl, rfl⟩, hnext, text, htext⟩
  · rintro ⟨⟨hname, hkind, hvlen, hflag, hsize, hpayload⟩, hnext, text, htext⟩
    obtain ⟨kind, vlen, kindFlag, nameOffset, sizeOrType, payloadOffset⟩ := t
    subst hname hvlen hflag hsize hpayload
    have hnext' : position + 12 + payloadSize kind (wordAt data (position + 4) &&& 65535) ≤ s.typesEnd := hnext
    exact ⟨by omega, by omega, by omega, by omega, by omega, by omega, by omega, kind, hkind, by omega, hnext, text,
      htext, rfl⟩

/-- **The records tile the type section.** -/
theorem value_readTypes {position : ℕ} {types : List BtfType} :
    (readTypes data s position).value = some types ↔
      Tiles data s.typesEnd position types ∧ ∀ t ∈ types, ∃ text, NameAt (s.names data) t.nameOffset text := by
  induction position using readTypes.induct s generalizing types with
  | case1 position hlt ih =>
    rw [readTypes, if_pos hlt]
    simp only [value_bind, Option.bind_eq_some_iff, value_readType hlength htypes hstrings, value_pure,
      Option.some.injEq]
    constructor
    · rintro ⟨t, ⟨hrecord, -, hname⟩, rest, hrest, rfl⟩
      obtain ⟨htiles, hnames⟩ := (ih t).mp hrest
      exact ⟨⟨hrecord, htiles⟩, List.forall_mem_cons.mpr ⟨hname, hnames⟩⟩
    · rintro ⟨htiles, hnames⟩
      cases types with
      | nil => exact absurd htiles (Nat.ne_of_lt hlt)
      | cons t types =>
        obtain ⟨hname, hnames⟩ := List.forall_mem_cons.mp hnames
        exact ⟨t, ⟨htiles.1, tiles_le htiles.2, hname⟩, types, (ih t).mpr ⟨htiles.2, hnames⟩, rfl⟩
  | case2 hlt =>
    rw [readTypes, if_neg hlt, if_pos rfl, value_pure, Option.some.injEq]
    cases types with
    | nil => exact iff_of_true rfl ⟨rfl, List.forall_mem_nil _⟩
    | cons t types =>
      refine iff_of_false (List.cons_ne_nil t types).symm fun h => ?_
      have hle := tiles_le h.1.2
      omega
  | case3 position hlt hne =>
    rw [readTypes, if_neg hlt, if_neg hne, value_fail]
    refine iff_of_false (Option.some_ne_none types).symm fun h => ?_
    have hle := tiles_le h.1
    omega

end Records

/-! ### The references -/

namespace BtfCandidate

variable (c : BtfCandidate)

/-- The string section. -/
def strings : List UInt8 := slice c.data c.stringsStart (c.stringsEnd - c.stringsStart)

def kinds : List BtfKind := c.types.map (·.kind)

/-- A record with its payload. -/
def description (t : BtfType) : TypeDescription :=
  ⟨t.kind, t.vlen, t.kindFlag, t.nameOffset, t.sizeOrType,
    (List.range (payloadSize t.kind t.vlen / 4)).map fun i => wordAt c.data (t.payloadOffset + 4 * i)⟩

def descriptions : List TypeDescription := c.types.map c.description

theorem descriptions_kinds : c.descriptions.map (·.kind) = c.kinds := by
  rw [descriptions, List.map_map]
  rfl

section

variable (hlength : c.data.length < 2 ^ 64) (hstrings : c.stringsEnd ≤ c.data.length)

include hlength hstrings

theorem value_string {offset : ℕ} {text : String} :
    (c.string offset).value = some text ↔ NameAt c.strings offset text := value_readString hlength hstrings

theorem holds_validNameAt {offset : ℕ} (hin : offset + 4 ≤ c.data.length) :
    Holds (c.validNameAt offset) ↔ Role.name.Good c.strings c.kinds (wordAt c.data offset) := by
  simp only [validNameAt, holds_isSomeAnd, value_readU32 hlength, holds_succeeds, c.value_string hlength hstrings]
  constructor
  · rintro ⟨_, ⟨-, rfl⟩, hname⟩
    exact hname
  · intro hname
    exact ⟨_, ⟨hin, rfl⟩, hname⟩

end

theorem validTypeId_iff {typeId : ℕ} : c.validTypeId typeId = true ↔ Role.type.Good c.strings c.kinds typeId := by
  simp only [validTypeId, Bool.or_eq_true, beq_iff_eq, decide_eq_true_eq, Role.Good, kinds, List.length_map]
  omega

theorem isOfKind_iff {kind : BtfKind} {typeId : ℕ} :
    c.isOfKind kind typeId = true ↔ typeId ≠ 0 ∧ c.kinds[typeId - 1]? = some kind := by
  rw [isOfKind, typeById, kinds, List.getElem?_map, Option.map_eq_some_iff]
  split
  · next h => simp [h]
  · next h => simp [h, Option.any_eq_true]

theorem holds_validTypeAt (hlength : c.data.length < 2 ^ 64) {offset : ℕ} (hin : offset + 4 ≤ c.data.length) :
    Holds (c.validTypeAt offset) ↔ Role.type.Good c.strings c.kinds (wordAt c.data offset) := by
  simp only [validTypeAt, holds_isSomeAnd, value_readU32 hlength, holds_pure, c.validTypeId_iff]
  constructor
  · rintro ⟨_, ⟨-, rfl⟩, htype⟩
    exact htype
  · intro htype
    exact ⟨_, ⟨hin, rfl⟩, htype⟩

/-- What a record refers to outside of its payload. -/
theorem validBaseReference_iff {t : BtfType} (hkind : t.kind ≠ .func) :
    c.validBaseReference t = true ↔ t.kind.baseRole.Good c.strings c.kinds t.sizeOrType := by
  rw [validBaseReference]
  cases h : t.kind with
  | func => exact absurd h hkind
  | _ => first | exact c.validTypeId_iff | exact iff_of_true rfl trivial

section Payload

variable (hlength : c.data.length < 2 ^ 64) (hstrings : c.stringsEnd ≤ c.data.length)

include hlength hstrings

/-- Entries of `w` words that begin with a name. -/
theorem holds_names {start vlen : ℕ} (w : ℕ) (hw : 1 ≤ w) (hin : start + vlen * (4 * w) ≤ c.data.length) :
    Holds (all (fun index => c.validNameAt (start + index * (4 * w))) (List.range vlen)) ↔
      ∀ r ∈ (List.range vlen).map fun i => (Role.name, w * i),
        r.1.Good c.strings c.kinds (wordAt c.data (start + 4 * r.2)) := by
  rw [holds_all, List.forall_mem_map]
  refine forall₂_congr fun i hi => ?_
  have hentry : (i + 1) * (4 * w) ≤ vlen * (4 * w) := Nat.mul_le_mul_right _ (List.mem_range.mp hi)
  rw [Nat.succ_mul] at hentry
  rw [c.holds_validNameAt hlength hstrings (by omega), show i * (4 * w) = 4 * (w * i) by ring]

/-- Entries of `w` words that begin with a name and a type. -/
theorem holds_members {start vlen : ℕ} (w : ℕ) (hw : 2 ≤ w) (hin : start + vlen * (4 * w) ≤ c.data.length) :
    Holds (all (fun index => andAlso (c.validNameAt (start + index * (4 * w)))
        (c.validTypeAt (start + index * (4 * w) + 4))) (List.range vlen)) ↔
      ∀ r ∈ (List.range vlen).flatMap fun i => [(Role.name, w * i), (Role.type, w * i + 1)],
        r.1.Good c.strings c.kinds (wordAt c.data (start + 4 * r.2)) := by
  rw [holds_all, List.forall_mem_flatMap]
  refine forall₂_congr fun i hi => ?_
  have hentry : (i + 1) * (4 * w) ≤ vlen * (4 * w) := Nat.mul_le_mul_right _ (List.mem_range.mp hi)
  rw [Nat.succ_mul] at hentry
  have hoffset : i * (4 * w) = 4 * (w * i) := by ring
  rw [holds_andAlso, c.holds_validNameAt hlength hstrings (by omega), c.holds_validTypeAt hlength (by omega),
    List.forall_mem_cons, List.forall_mem_singleton, hoffset, Nat.mul_succ, Nat.add_assoc]

omit hstrings in
/-- Entries of `w` words that begin with a variable. -/
theorem holds_variables {start vlen : ℕ} (w : ℕ) (hw : 1 ≤ w) (hin : start + vlen * (4 * w) ≤ c.data.length) :
    Holds (all (fun index =>
        isSomeAnd (readU32 c.data (start + index * (4 * w))) fun typeId =>
          (pure (c.isOfKind .var typeId) : Reading Unit Bool)) (List.range vlen)) ↔
      ∀ r ∈ (List.range vlen).map fun i => (Role.var, w * i),
        r.1.Good c.strings c.kinds (wordAt c.data (start + 4 * r.2)) := by
  rw [holds_all, List.forall_mem_map]
  refine forall₂_congr fun i hi => ?_
  have hentry : (i + 1) * (4 * w) ≤ vlen * (4 * w) := Nat.mul_le_mul_right _ (List.mem_range.mp hi)
  rw [Nat.succ_mul] at hentry
  have hoffset : i * (4 * w) = 4 * (w * i) := by ring
  simp only [holds_isSomeAnd, value_readU32 hlength, holds_pure, c.isOfKind_iff, hoffset]
  constructor
  · rintro ⟨_, ⟨-, rfl⟩, hvar⟩
    exact hvar
  · intro hvar
    exact ⟨_, ⟨by omega, rfl⟩, hvar⟩

/-- What a record refers to in its payload. -/
theorem holds_validPayload {t : BtfType} (hkind : t.kind ≠ .func)
    (hin : t.payloadOffset + payloadSize t.kind t.vlen ≤ c.data.length) :
    Holds (c.validPayload t) ↔ ∀ r ∈ t.kind.payloadRoles t.vlen,
      r.1.Good c.strings c.kinds (wordAt c.data (t.payloadOffset + 4 * r.2)) := by
  rw [validPayload]
  cases h : t.kind with
  | func => exact absurd h hkind
  | array =>
    simp only [h, payloadSize] at hin
    simp only [holds_isSomeAnd, value_readU32 hlength, holds_pure, Bool.and_eq_true, c.validTypeId_iff]
    constructor
    · rintro ⟨_, ⟨-, rfl⟩, _, ⟨-, rfl⟩, helement, hindex⟩
      simp only [BtfKind.payloadRoles, List.forall_mem_cons]
      exact ⟨helement, hindex, List.forall_mem_nil _⟩
    · intro hroles
      simp only [BtfKind.payloadRoles, List.forall_mem_cons] at hroles
      exact ⟨_, ⟨by omega, rfl⟩, _, ⟨by omega, rfl⟩, hroles.1, hroles.2.1⟩
  | struct =>
    rw [h] at hin
    exact c.holds_members hlength hstrings 3 (by omega) hin
  | union =>
    rw [h] at hin
    exact c.holds_members hlength hstrings 3 (by omega) hin
  | enum =>
    rw [h] at hin
    exact c.holds_names hlength hstrings 2 (by omega) hin
  | funcProto =>
    rw [h] at hin
    exact c.holds_members hlength hstrings 2 (by omega) hin
  | datasec =>
    rw [h] at hin
    exact c.holds_variables hlength 3 (by omega) hin
  | enum64 =>
    rw [h] at hin
    exact c.holds_names hlength hstrings 3 (by omega) hin
  | _ => exact iff_of_true ((holds_pure true).mpr rfl) fun r hr => nomatch hr

/-- What a record refers to. -/
theorem holds_references {t : BtfType} (hin : t.payloadOffset + payloadSize t.kind t.vlen ≤ c.data.length) :
    c.validBaseReference t = true ∧ Holds (c.validPayload t) ↔
      t.kind.baseRole.Good c.strings c.kinds t.sizeOrType ∧ ∀ r ∈ t.kind.payloadRoles t.vlen,
        r.1.Good c.strings c.kinds (wordAt c.data (t.payloadOffset + 4 * r.2)) := by
  by_cases hkind : t.kind = .func
  · rw [validBaseReference, validPayload, hkind]
    simp only [holds_pure, c.validTypeId_iff, c.isOfKind_iff, BtfKind.payloadRoles]
    constructor
    · rintro ⟨-, hprototype⟩
      exact ⟨hprototype, List.forall_mem_nil _⟩
    · rintro ⟨hprototype, -⟩
      refine ⟨?_, hprototype⟩
      have hlt := (List.getElem?_eq_some_iff.mp hprototype.2).1
      show t.sizeOrType ≤ c.kinds.length
      omega
  · rw [c.validBaseReference_iff hkind, c.holds_validPayload hlength hstrings hkind hin]

end Payload

/-! ### Records with their payloads -/

/-- A reference in a payload is one of its words. -/
theorem payloadRoles_lt {kind : BtfKind} {vlen : ℕ} {r : Role × ℕ} (h : r ∈ kind.payloadRoles vlen) :
    r.2 < payloadSize kind vlen / 4 := by
  cases kind with
  | array =>
    simp only [BtfKind.payloadRoles, List.mem_cons, List.not_mem_nil, or_false] at h
    rcases h with rfl | rfl <;> simp only [payloadSize] <;> omega
  | struct | union | funcProto =>
    obtain ⟨i, hi, hr⟩ := List.mem_flatMap.mp h
    have hlt := List.mem_range.mp hi
    simp only [List.mem_cons, List.not_mem_nil, or_false] at hr
    rcases hr with rfl | rfl <;> simp only [payloadSize] <;> omega
  | enum | datasec | enum64 =>
    obtain ⟨i, hi, rfl⟩ := List.mem_map.mp h
    have hlt := List.mem_range.mp hi
    simp only [payloadSize]
    omega
  | _ => nomatch h

/-- The references of a description are those of its record. -/
theorem forall_references (t : BtfType) (P : Role → ℕ → Prop) :
    (∀ r ∈ (c.description t).references, P r.1 r.2) ↔
      P .name t.nameOffset ∧ P t.kind.baseRole t.sizeOrType ∧
        ∀ r ∈ t.kind.payloadRoles t.vlen, P r.1 (wordAt c.data (t.payloadOffset + 4 * r.2)) := by
  simp only [TypeDescription.references, List.forall_mem_cons, List.forall_mem_map]
  refine and_congr Iff.rfl (and_congr Iff.rfl (forall₂_congr fun r hr => ?_))
  have hlt : r.2 < payloadSize t.kind t.vlen / 4 := payloadRoles_lt hr
  rw [description, List.getD_eq_getElem?_getD, List.getElem?_map, List.getElem?_range hlt]
  rfl

/-- **The references are checked.** -/
theorem holds_validateReferences (hlength : c.data.length < 2 ^ 64) (hstrings : c.stringsEnd ≤ c.data.length)
    (hin : ∀ t ∈ c.types, t.payloadOffset + payloadSize t.kind t.vlen ≤ c.data.length) :
    Holds c.validateReferences ↔ ReferencesValid c.strings c.descriptions := by
  rw [validateReferences, holds_all, ReferencesValid, c.descriptions_kinds, descriptions, List.forall_mem_map]
  refine forall₂_congr fun t ht => ?_
  rw [holds_andAlso, holds_andAlso, holds_pure, c.holds_references hlength hstrings (hin t ht), holds_succeeds,
    c.forall_references t fun role value => role.Good c.strings c.kinds value]
  simp only [c.value_string hlength hstrings]
  rfl

end BtfCandidate

/-! ### Blobs -/

/-- There is a blob at this offset, and this is what it holds. -/
structure IsCandidate (data : List UInt8) (offset : ℕ) (s : Sections) (c : BtfCandidate) : Prop where
  header : SectionsAt data offset s
  data_eq : c.data = data
  fileOffset_eq : c.fileOffset = offset
  blobEnd_eq : c.blobEnd = max s.stringsEnd s.typesEnd
  stringsStart_eq : c.stringsStart = s.stringsStart
  stringsEnd_eq : c.stringsEnd = s.stringsEnd
  tiles : Tiles data s.typesEnd s.typesStart c.types
  valid : ReferencesValid c.strings c.descriptions

/-- A name that is checked is there. -/
theorem names_of_valid {c : BtfCandidate} (h : ReferencesValid c.strings c.descriptions) {t : BtfType}
    (ht : t ∈ c.types) : ∃ text, NameAt c.strings t.nameOffset text :=
  h _ (List.mem_map_of_mem ht) _ List.mem_cons_self

/-- **What is accepted as a blob.** -/
theorem value_parse {data : List UInt8} (hlength : data.length < 2 ^ 64) {offset : ℕ} {c : BtfCandidate} :
    (BtfCandidate.parse data offset).value = some c ↔ ∃ s, IsCandidate data offset s c := by
  rw [BtfCandidate.parse, value_bind, Option.bind_eq_some_iff]
  refine exists_congr fun s => ?_
  rw [value_readSections hlength, value_bind, Option.bind_eq_some_iff]
  constructor
  · rintro ⟨hheader, types, htypes, hparsed⟩
    obtain ⟨htiles, -⟩ := (value_readTypes hlength hheader.typesInside hheader.stringsInside).mp htypes
    rw [value_bind, Option.bind_eq_some_iff] at hparsed
    obtain ⟨valid, hvalid, hparsed⟩ := hparsed
    obtain ⟨rfl, hc⟩ := value_ensure_bind.mp hparsed
    obtain rfl := Option.some.inj hc
    refine ⟨hheader, rfl, rfl, rfl, rfl, rfl, htiles, ?_⟩
    refine (BtfCandidate.holds_validateReferences _ hlength hheader.stringsInside fun t ht => ?_).mp hvalid
    exact (tiles_payload htiles ht).trans hheader.typesInside
  · rintro ⟨hheader, hdata, hoffset, hend, hstart, hstop, htiles, hvalid⟩
    obtain ⟨cdata, fileOffset, blobEnd, stringsStart, stringsEnd, types⟩ := c
    dsimp only at hdata hoffset hend hstart hstop htiles
    subst hdata hoffset hend hstart hstop
    refine ⟨hheader, types, ?_, ?_⟩
    · exact (value_readTypes hlength hheader.typesInside hheader.stringsInside).mpr
        ⟨htiles, fun t ht => names_of_valid hvalid ht⟩
    · rw [value_bind, Option.bind_eq_some_iff]
      refine ⟨true, ?_, value_ensure_bind.mpr ⟨rfl, rfl⟩⟩
      refine (BtfCandidate.holds_validateReferences _ hlength hheader.stringsInside fun t ht => ?_).mpr hvalid
      exact (tiles_payload htiles ht).trans hheader.typesInside

end KernelSU.LkmImageBtf
