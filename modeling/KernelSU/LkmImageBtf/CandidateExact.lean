import KernelSU.LkmImageBtf.CandidateParsed

/-!
# Blobs are parsed back, and all are found

* `parse_encode` — **PROVED**: the encoding of a blob, wherever it stands, is parsed to the blob;
* `findBtfCandidates_eq` — **PROVED**: the offsets at which parsing succeeds, and no others, are found;
* `btfParsing_exact` — **PROVED**: parsing stays inside the data, accepts nothing that is not a blob, and gives back
  every blob.
-/

namespace KernelSU.LkmImageBtf

open KernelSU.Lib KernelSU.Lib.Bytes KernelSU.Lib.Reading

/-! ### Words in a row -/

theorem words_length (ws : List ℕ) : (ws.flatMap (encodeLE 4)).length = ws.length * 4 :=
  flatMap_length_const (encodeLE_length 4) ws

/-- Words that are written in a row are read back. -/
theorem wordAt_of_words {data : List UInt8} {position : ℕ} {ws : List ℕ} (hws : ∀ w ∈ ws, w < 2 ^ 32)
    (h : slice data position (ws.flatMap (encodeLE 4)).length = ws.flatMap (encodeLE 4)) {i w : ℕ}
    (hi : ws[i]? = some w) : wordAt data (position + 4 * i) = w := by
  have hlt : i < ws.length := (List.getElem?_eq_some_iff.mp hi).1
  have hslice : slice data (position + 4 * i) 4 = encodeLE 4 w := by
    rw [← slice_slice data (n := (ws.flatMap (encodeLE 4)).length) (by rw [words_length]; omega), h]
    exact slice_flatMap_const (encodeLE_length 4) hi
  rw [wordAt, hslice]
  exact decodeLE_encodeLE_of_lt 4 w (hws w (List.mem_of_getElem? hi))

/-! ### One record -/

namespace TypeDescription

variable {d : TypeDescription}

theorem encode_eq (d : TypeDescription) :
    d.encode = (d.name :: d.info :: d.sizeOrType :: d.payload).flatMap (encodeLE 4) := rfl

theorem encode_length (h : d.Fits) : d.encode.length = 12 + payloadSize d.kind d.vlen := by
  rw [encode_eq, words_length, ← h.size]
  simp only [List.length_cons]
  omega

/-- The fields of the word with the kind. -/
theorem info_fields (h : d.vlen < 2 ^ 16) : d.info < 2 ^ 32 ∧ (d.info >>> 24) &&& 0x1f = d.kind.code ∧
    d.info &&& 0xffff = d.vlen ∧ (d.info >>> 31 != 0) = d.kindFlag := by
  have hcode := d.kind.code_lt
  have hkind : d.info >>> 24 &&& 0x1f = d.info / 2 ^ 24 % 2 ^ 5 := by
    rw [Nat.shiftRight_eq_div_pow]
    exact Nat.and_two_pow_sub_one_eq_mod _ 5
  have hvlen : d.info &&& 0xffff = d.info % 2 ^ 16 := Nat.and_two_pow_sub_one_eq_mod _ 16
  rw [hkind, hvlen, Nat.shiftRight_eq_div_pow, info]
  cases d.kindFlag with
  | false =>
    simp only [Bool.toNat_false, bne_eq_false_iff_eq]
    omega
  | true =>
    simp only [Bool.toNat_true, bne_iff_ne, ne_eq]
    omega

/-- The record of a description that stands at this position. -/
def record (d : TypeDescription) (position : ℕ) : BtfType :=
  ⟨d.kind, d.vlen, d.kindFlag, d.name, d.sizeOrType, position + 12⟩

theorem words_lt (h : d.Fits) : ∀ w ∈ d.name :: d.info :: d.sizeOrType :: d.payload, w < 2 ^ 32 := by
  refine List.forall_mem_cons.mpr ⟨h.name, List.forall_mem_cons.mpr ⟨(info_fields h.vlen).1, ?_⟩⟩
  exact List.forall_mem_cons.mpr ⟨h.sizeOrType, h.payload⟩

/-- An encoded record is found. -/
theorem recordAt_encode (h : d.Fits) {data : List UInt8} {position : ℕ}
    (hdata : slice data position d.encode.length = d.encode) : RecordAt data position (d.record position) := by
  rw [encode_eq] at hdata
  obtain ⟨-, hkind, hvlen, hflag⟩ := info_fields h.vlen
  have hname : wordAt data position = d.name := wordAt_of_words (words_lt h) hdata (i := 0) rfl
  have hinfo : wordAt data (position + 4) = d.info := wordAt_of_words (words_lt h) hdata (i := 1) rfl
  have hsize : wordAt data (position + 8) = d.sizeOrType := wordAt_of_words (words_lt h) hdata (i := 2) rfl
  refine ⟨hname, ?_, ?_, ?_, hsize, rfl⟩
  · rw [hinfo, hkind]
    exact d.kind.ofCode_code
  · rw [hinfo, hvlen]
    rfl
  · rw [hinfo, hflag]
    rfl

/-- Its payload is the description's. -/
theorem description_encode (h : d.Fits) {c : BtfCandidate} {position : ℕ}
    (hdata : slice c.data position d.encode.length = d.encode) : c.description (d.record position) = d := by
  rw [encode_eq] at hdata
  have hcount : payloadSize d.kind d.vlen / 4 = d.payload.length := by
    rw [← h.size, Nat.mul_div_cancel _ (by decide)]
  have hpayload : (List.range (payloadSize d.kind d.vlen / 4)).map
      (fun i => wordAt c.data (position + 12 + 4 * i)) = d.payload := by
    refine List.ext_getElem (by rw [List.length_map, List.length_range, hcount]) fun i _ hi => ?_
    rw [List.getElem_map, List.getElem_range, show position + 12 + 4 * i = position + 4 * (i + 3) by omega]
    exact wordAt_of_words (words_lt h) hdata (List.getElem?_eq_getElem hi)
  show TypeDescription.mk d.kind d.vlen d.kindFlag d.name d.sizeOrType _ = d
  rw [show (d.record position).payloadOffset = position + 12 from rfl]
  exact congrArg (TypeDescription.mk d.kind d.vlen d.kindFlag d.name d.sizeOrType) hpayload

end TypeDescription

/-! ### The type section -/

/-- The records of descriptions that follow each other from this position on. -/
def recordsFrom : ℕ → List TypeDescription → List BtfType
  | _, [] => []
  | position, d :: ds => d.record position :: recordsFrom (position + 12 + payloadSize d.kind d.vlen) ds

/-- **An encoded type section is tiled by its records**, and they are the descriptions. -/
theorem tiles_encodeTypes {types : List TypeDescription} (h : ∀ d ∈ types, d.Fits) {c : BtfCandidate} {position : ℕ}
    (hdata : slice c.data position (encodeTypes types).length = encodeTypes types) :
    Tiles c.data (position + (encodeTypes types).length) position (recordsFrom position types) ∧
      (recordsFrom position types).map c.description = types := by
  induction types generalizing position with
  | nil => exact ⟨rfl, rfl⟩
  | cons d types ih =>
    obtain ⟨hd, htypes⟩ := List.forall_mem_cons.mp h
    have hcons : encodeTypes (d :: types) = d.encode ++ encodeTypes types := List.flatMap_cons
    rw [hcons] at hdata ⊢
    obtain ⟨hhead, htail⟩ := slice_eq_append_iff.mp hdata
    have hlength := TypeDescription.encode_length hd
    have hnext : position + d.encode.length = position + 12 + payloadSize d.kind d.vlen := by omega
    rw [hnext] at htail
    obtain ⟨htiles, hmap⟩ := ih htypes htail
    constructor
    · refine ⟨TypeDescription.recordAt_encode hd hhead, ?_⟩
      rw [List.length_append, ← Nat.add_assoc, hnext]
      exact htiles
    · rw [recordsFrom, List.map_cons, TypeDescription.description_encode hd hhead, hmap]

/-! ### A blob in its surroundings -/

namespace Blob

variable (blob : Blob)

/-- The words of the header, the first of which is the magic number. -/
def header : List ℕ :=
  [0x0001eb9f, BTF_HEADER_SIZE, 0, (encodeTypes blob.types).length, (encodeTypes blob.types).length,
    blob.strings.length]

theorem encode_eq : blob.encode = blob.header.flatMap (encodeLE 4) ++ (encodeTypes blob.types ++ blob.strings) := rfl

theorem header_lt : ∀ w ∈ blob.header, w < 2 ^ 32 := by
  simp only [header, List.forall_mem_cons]
  exact ⟨by decide, by decide, by decide, blob.typesLength, blob.typesLength, blob.stringsLength, List.forall_mem_nil _⟩

/-- Where its sections are when it stands at this offset. -/
def sections (offset : ℕ) : Sections :=
  ⟨offset + 24, offset + 24 + (encodeTypes blob.types).length, offset + 24 + (encodeTypes blob.types).length,
    offset + 24 + (encodeTypes blob.types).length + blob.strings.length⟩

theorem strings_pos : 0 < blob.strings.length := by
  cases h : blob.strings with
  | nil => exact nomatch h ▸ blob.first
  | cons b strings => exact Nat.succ_pos _

variable {blob} {data : List UInt8} {offset : ℕ}

/-- The parts of an encoded blob are where the header says. -/
theorem parts_of_encode (h : slice data offset blob.encode.length = blob.encode) :
    slice data offset (blob.header.flatMap (encodeLE 4)).length = blob.header.flatMap (encodeLE 4) ∧
      slice data (offset + 24) (encodeTypes blob.types).length = encodeTypes blob.types ∧
      slice data (offset + 24 + (encodeTypes blob.types).length) blob.strings.length = blob.strings := by
  rw [encode_eq] at h
  obtain ⟨hheader, hrest⟩ := slice_eq_append_iff.mp h
  obtain ⟨htypes, hstrings⟩ := slice_eq_append_iff.mp hrest
  exact ⟨hheader, htypes, hstrings⟩

theorem encode_length : blob.encode.length = 24 + (encodeTypes blob.types).length + blob.strings.length := by
  rw [encode_eq, List.length_append, List.length_append, words_length, ← Nat.add_assoc]
  rfl

/-- A byte inside a part that is found. -/
theorem byte_of_slice {part : List UInt8} {o i : ℕ} (h : slice data o part.length = part) (hi : part[i]? = some 0) :
    decodeLE (slice data (o + i) 1) = 0 := by
  have hlt : i < part.length := (List.getElem?_eq_some_iff.mp hi).1
  have hbyte : slice data (o + i) 1 = [0] := by
    rw [← slice_slice data (n := part.length) (by omega), h, slice_eq_cons_iff]
    exact ⟨hi, slice_size_zero _ _⟩
  rw [hbyte]
  rfl

/-- **Its header is found.** -/
theorem sectionsAt_encode (h : slice data offset blob.encode.length = blob.encode)
    (hin : offset + blob.encode.length ≤ data.length) : SectionsAt data offset (blob.sections offset) := by
  obtain ⟨hheader, -, hstrings⟩ := parts_of_encode h
  rw [encode_length] at hin
  have hpos := blob.strings_pos
  have hsize : wordAt data (offset + 4) = 24 := wordAt_of_words blob.header_lt hheader (i := 1) rfl
  have htypes : wordAt data (offset + 8) = 0 := wordAt_of_words blob.header_lt hheader (i := 2) rfl
  have htypesLength : wordAt data (offset + 12) = (encodeTypes blob.types).length :=
    wordAt_of_words blob.header_lt hheader (i := 3) rfl
  have hstringsOffset : wordAt data (offset + 16) = (encodeTypes blob.types).length :=
    wordAt_of_words blob.header_lt hheader (i := 4) rfl
  have hstringsLength : wordAt data (offset + 20) = blob.strings.length :=
    wordAt_of_words blob.header_lt hheader (i := 5) rfl
  have hmagic : slice data offset 4 = BTF_MAGIC_BYTES := by
    rw [← Nat.add_zero offset, ← slice_slice data (n := (blob.header.flatMap (encodeLE 4)).length)
      (by rw [words_length]; exact (by decide : 0 + 4 ≤ 6 * 4)), hheader]
    rfl
  refine ⟨?_, ?_, ?_, ?_, ?_, ?_, ?_, ?_, ?_, ?_, ?_, ?_, ?_, ?_, ?_⟩
  · rw [← Nat.add_zero offset, ← slice_slice data (n := 4) (by decide), hmagic]
    rfl
  · rw [← slice_slice data (n := 4) (by decide), hmagic]
    rfl
  · rw [← slice_slice data (n := 4) (by decide), hmagic]
    rfl
  · rw [hsize]
    exact le_rfl
  · rw [hsize]
    omega
  · rw [hsize, htypes]
    rfl
  · rw [htypesLength]
    rfl
  · rw [hsize, hstringsOffset]
    rfl
  · rw [hstringsLength]
    rfl
  · show offset + 24 + (encodeTypes blob.types).length ≤ data.length
    omega
  · show offset + 24 + (encodeTypes blob.types).length + blob.strings.length ≤ data.length
    omega
  · rw [hstringsLength]
    exact Nat.ne_of_gt hpos
  · rw [rangesOverlap, decide_eq_false_iff_not]
    simp only [sections]
    omega
  · have hfirst := blob.first
    rw [List.head?_eq_getElem?] at hfirst
    show decodeLE (slice data (offset + 24 + (encodeTypes blob.types).length + 0) 1) = 0
    exact byte_of_slice hstrings hfirst
  · have hlast := blob.last
    rw [List.getLast?_eq_getElem?] at hlast
    have hend : (blob.sections offset).stringsEnd - 1 =
        offset + 24 + (encodeTypes blob.types).length + (blob.strings.length - 1) := by
      show offset + 24 + (encodeTypes blob.types).length + blob.strings.length - 1 = _
      omega
    rw [hend]
    exact byte_of_slice hstrings hlast

/-- What it is parsed to when it stands at this offset. -/
def candidate (blob : Blob) (data : List UInt8) (offset : ℕ) : BtfCandidate :=
  ⟨data, offset, offset + blob.encode.length, (blob.sections offset).stringsStart, (blob.sections offset).stringsEnd,
    recordsFrom (offset + 24) blob.types⟩

theorem candidate_strings (h : slice data offset blob.encode.length = blob.encode) :
    (blob.candidate data offset).strings = blob.strings := by
  obtain ⟨-, -, hstrings⟩ := parts_of_encode h
  show slice data (offset + 24 + (encodeTypes blob.types).length)
    (offset + 24 + (encodeTypes blob.types).length + blob.strings.length -
      (offset + 24 + (encodeTypes blob.types).length)) = blob.strings
  rw [Nat.add_sub_cancel_left, hstrings]

theorem candidate_descriptions (h : slice data offset blob.encode.length = blob.encode) :
    (blob.candidate data offset).descriptions = blob.types := by
  obtain ⟨-, htypes, -⟩ := parts_of_encode h
  exact (tiles_encodeTypes (c := blob.candidate data offset) blob.fits htypes).2

/-- **A blob is parsed back**, wherever it stands. -/
theorem parse_encode (hlength : data.length < 2 ^ 64) (h : slice data offset blob.encode.length = blob.encode) :
    (BtfCandidate.parse data offset).value = some (blob.candidate data offset) := by
  obtain ⟨-, htypes, -⟩ := parts_of_encode h
  have hin : offset + blob.encode.length ≤ data.length := by
    have hslice := congrArg List.length h
    rw [slice_length, encode_length] at hslice
    rw [encode_length]
    omega
  have hend : offset + blob.encode.length = max (blob.sections offset).stringsEnd (blob.sections offset).typesEnd := by
    rw [encode_length]
    simp only [sections]
    omega
  refine (value_parse hlength).mpr ⟨blob.sections offset, sectionsAt_encode h hin, rfl, rfl, hend, rfl, rfl, ?_, ?_⟩
  · exact (tiles_encodeTypes (c := blob.candidate data offset) blob.fits htypes).1
  · rw [candidate_strings h, candidate_descriptions h]
    exact blob.valid

end Blob

/-! ### All blobs of an image -/

/-- Where a blob is, its magic number is. -/
theorem magic_of_parse {image : List UInt8} (hlength : image.length < 2 ^ 64) {offset : ℕ} {c : BtfCandidate}
    (h : (BtfCandidate.parse image offset).value = some c) :
    offset + 4 ≤ image.length ∧ slice image offset 4 = BTF_MAGIC_BYTES := by
  obtain ⟨s, hs⟩ := (value_parse hlength).mp h
  have hheader := hs.header
  have hsize : 24 ≤ wordAt image (offset + 4) := hheader.headerSize
  have hend := hheader.headerEnd
  refine ⟨by omega, ?_⟩
  have hmagic : slice image offset 2 = [0x9f, 0xeb] :=
    encodeLE_of_decodeLE (slice_length_of_le (by omega)) hheader.magic
  have hversion : slice image (offset + 2) 1 = [1] :=
    encodeLE_of_decodeLE (slice_length_of_le (by omega)) hheader.version
  have hflags : slice image (offset + 3) 1 = [0] :=
    encodeLE_of_decodeLE (slice_length_of_le (by omega)) hheader.flags
  have htail : slice image (offset + 2) 2 = [1, 0] := by
    rw [← slice_append_slice image (offset + 2) 1 1 (by omega), hversion, hflags]
    rfl
  rw [← slice_append_slice image offset 2 2 (by omega), hmagic, htail]
  rfl

/-- The window at an index. -/
theorem windows_getElem? {data : List UInt8} {size i : ℕ} {w : List UInt8} :
    (windows data size)[i]? = some w ↔ i + size ≤ data.length ∧ slice data i size = w := by
  rw [windows, List.getElem?_map, Option.map_eq_some_iff]
  constructor
  · rintro ⟨j, hj, rfl⟩
    obtain ⟨hlt, rfl⟩ := List.getElem?_eq_some_iff.mp hj
    rw [List.length_range] at hlt
    rw [List.getElem_range]
    exact ⟨by omega, rfl⟩
  · rintro ⟨hin, rfl⟩
    exact ⟨i, List.getElem?_range (by omega), rfl⟩

/-- The candidates of some offsets. -/
def candidatesAt (image : List UInt8) (offsets : List ℕ) : List BtfCandidate :=
  offsets.filterMap fun offset => (BtfCandidate.parse image offset).value

theorem candidatesAt_append (image : List UInt8) (os os' : List ℕ) :
    candidatesAt image (os ++ os') = candidatesAt image os ++ candidatesAt image os' := List.filterMap_append

/-- Where the magic number is not, no blob is. -/
theorem candidatesAt_eq_nil {image : List UInt8} (hlength : image.length < 2 ^ 64) {os : List ℕ}
    (h : ∀ o ∈ os, o + 4 ≤ image.length → slice image o 4 ≠ BTF_MAGIC_BYTES) : candidatesAt image os = [] := by
  refine List.filterMap_eq_nil_iff.mpr fun o ho => Option.eq_none_iff_forall_not_mem.mpr fun c hc => ?_
  obtain ⟨hin, hmagic⟩ := magic_of_parse hlength hc
  exact h o ho hin hmagic

/-- Every magic number in front of this window is at this window or behind it. -/
theorem no_magic_before {image : List UInt8} {searchFrom : ℕ} (limit : ℕ)
    (h : ∀ i w, i < limit → (windows (image.drop searchFrom) 4)[i]? = some w → w ≠ BTF_MAGIC_BYTES) {o : ℕ}
    (hlo : searchFrom ≤ o) (hhi : o < searchFrom + limit) (hin : o + 4 ≤ image.length) :
    slice image o 4 ≠ BTF_MAGIC_BYTES := by
  refine h (o - searchFrom) _ (by omega) (windows_getElem?.mpr ⟨?_, ?_⟩)
  · rw [List.length_drop]
    omega
  · rw [slice, slice, List.drop_drop, Nat.add_sub_cancel' hlo]

/-- **The search from an offset on** finds what is there. -/
theorem findBtfCandidatesFrom_eq {image : List UInt8} (hlength : image.length < 2 ^ 64) (searchFrom : ℕ) :
    findBtfCandidatesFrom image searchFrom =
      candidatesAt image (List.range' searchFrom (image.length - searchFrom)) := by
  induction searchFrom using findBtfCandidatesFrom.induct image with
  | case1 searchFrom hle hnone =>
    rw [findBtfCandidatesFrom, if_pos hle, hnone]
    refine (candidatesAt_eq_nil hlength fun o ho hin => ?_).symm
    obtain ⟨hlo, hhi⟩ := List.mem_range'_1.mp ho
    refine no_magic_before image.length (fun i w _ hw heq => ?_) hlo (by omega) hin
    have hw' := List.findIdx?_eq_none_iff.mp hnone w (List.mem_of_getElem? hw)
    rw [heq] at hw'
    cases hw'
  | case2 searchFrom hle relative hsome fileOffset ih =>
    rw [findBtfCandidatesFrom, if_pos hle, hsome]
    obtain ⟨hlt, hfound, hbefore⟩ := List.findIdx?_eq_some_iff_getElem.mp hsome
    have hin : searchFrom + relative + 4 ≤ image.length := by
      have hwindow := (windows_getElem?.mp (List.getElem?_eq_getElem hlt)).1
      rw [List.length_drop] at hwindow
      change relative + 4 ≤ image.length - searchFrom at hwindow
      change searchFrom ≤ image.length - 4 at hle
      omega
    have hsplit : List.range' searchFrom (image.length - searchFrom) =
        List.range' searchFrom relative ++
          (searchFrom + relative) :: List.range' (searchFrom + relative + 1) (image.length - (searchFrom + relative + 1)) := by
      rw [← List.range'_succ, List.range'_append_1]
      congr 1
      omega
    rw [hsplit, candidatesAt_append, candidatesAt_eq_nil hlength, List.nil_append]
    · show (BtfCandidate.parse image fileOffset).value.toList ++ findBtfCandidatesFrom image (fileOffset + 1) = _
      rw [ih, candidatesAt, candidatesAt, List.filterMap_cons]
      cases (BtfCandidate.parse image fileOffset).value <;> rfl
    · intro o ho ho4
      obtain ⟨hlo, hhi⟩ := List.mem_range'_1.mp ho
      refine no_magic_before relative (fun i w hi hw heq => ?_) hlo hhi ho4
      obtain ⟨hlt', rfl⟩ := List.getElem?_eq_some_iff.mp hw
      refine hbefore i hi ?_
      rw [beq_iff_eq]
      exact heq
  | case3 searchFrom hgt =>
    rw [findBtfCandidatesFrom, if_neg hgt]
    refine (candidatesAt_eq_nil hlength fun o ho hin => ?_).symm
    obtain ⟨hlo, hhi⟩ := List.mem_range'_1.mp ho
    change ¬ searchFrom ≤ image.length - 4 at hgt
    omega

/-- **Exactly the offsets at which parsing succeeds** are found. -/
theorem findBtfCandidates_eq {image : List UInt8} (hlength : image.length < 2 ^ 64) :
    findBtfCandidates image = candidatesAt image (List.range image.length) := by
  rw [findBtfCandidates, findBtfCandidatesFrom_eq hlength, List.range_eq_range', Nat.sub_zero]

/-- What is found stands where it was found. -/
theorem mem_candidatesAt {image : List UInt8} (hlength : image.length < 2 ^ 64) {os : List ℕ} {c : BtfCandidate} :
    c ∈ candidatesAt image os ↔ c.fileOffset ∈ os ∧ (BtfCandidate.parse image c.fileOffset).value = some c := by
  rw [candidatesAt, List.mem_filterMap]
  constructor
  · rintro ⟨o, ho, hc⟩
    obtain ⟨s, hs⟩ := (value_parse hlength).mp hc
    rw [hs.fileOffset_eq]
    exact ⟨ho, hc⟩
  · rintro ⟨ho, hc⟩
    exact ⟨_, ho, hc⟩

/-- **Parsing** reads inside of the data only.  It accepts exactly where a header stands whose type section is tiled by
records with good references.  A blob that was encoded is given back wherever it stands, and the search finds the
offsets at which parsing succeeds, each once and in order. -/
theorem btfParsing_exact (data : List UInt8) (hlength : data.length < 2 ^ 64) :
    (∀ offset, Within 0 data.length (BtfCandidate.parse data offset)) ∧
    (∀ offset c, (BtfCandidate.parse data offset).value = some c ↔ ∃ s, IsCandidate data offset s c) ∧
    (∀ (blob : Blob) offset, slice data offset blob.encode.length = blob.encode →
      ∃ c, (BtfCandidate.parse data offset).value = some c ∧ c.descriptions = blob.types ∧ c.strings = blob.strings) ∧
    findBtfCandidates data = candidatesAt data (List.range data.length) ∧
    ∀ c, c ∈ findBtfCandidates data ↔ (BtfCandidate.parse data c.fileOffset).value = some c := by
  refine ⟨parse_within data, fun offset c => value_parse hlength, fun blob offset h => ?_, findBtfCandidates_eq hlength,
    fun c => ?_⟩
  · exact ⟨_, Blob.parse_encode hlength h, Blob.candidate_descriptions h, Blob.candidate_strings h⟩
  · rw [findBtfCandidates_eq hlength, mem_candidatesAt hlength, List.mem_range]
    refine and_iff_right_of_imp fun hc => ?_
    have hmagic := (magic_of_parse hlength hc).1
    omega

/-- A pointer to a number, a structure with both, and a function that takes it. -/
def sampleBlob : Blob where
  types :=
    [⟨.int, 0, false, 1, 8, [64]⟩, ⟨.ptr, 0, false, 0, 1, []⟩, ⟨.struct, 2, false, 6, 16, [8, 1, 0, 10, 2, 64]⟩,
      ⟨.funcProto, 1, false, 0, 1, [8, 3]⟩, ⟨.func, 1, false, 12, 4, []⟩]
  strings := [0] ++ asBytes "long" ++ [0] ++ asBytes "s" ++ [0] ++ asBytes "a" ++ [0] ++ asBytes "b" ++ [0] ++
    asBytes "f" ++ [0]
  fits := by decide
  valid := by decide +kernel
  first := by decide
  last := by decide
  typesLength := by decide
  stringsLength := by decide

/-- It is parsed back behind three other bytes. -/
theorem btfParsing_exact_sample :
    ∃ c, (BtfCandidate.parse ([0x9f, 0xeb, 0x01] ++ (sampleBlob.encode ++ [])) 3).value = some c ∧
      c.descriptions = sampleBlob.types ∧ c.strings = sampleBlob.strings :=
  (btfParsing_exact ([0x9f, 0xeb, 0x01] ++ (sampleBlob.encode ++ [])) (by decide +kernel)).2.2.1 sampleBlob 3
    (slice_append_exact _ _ _ rfl rfl)

end KernelSU.LkmImageBtf
