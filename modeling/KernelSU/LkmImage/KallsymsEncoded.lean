import KernelSU.LkmImage.KallsymsNames

/-!
# Names as the kernel writes them

* `spansOf_tile`, `spansOf_markers` — **PROVED**: where the names are that the kernel wrote;
* `decodeKallsymsName_of_encodes` — **PROVED**: a symbol written in tokens is read back;
* `kallsymsNames_exact` — **PROVED**: so are all, and whatever else is accepted is tiled by its spans.
-/

namespace KernelSU.LkmImage

open KernelSU.Lib KernelSU.Lib.Bytes

/-- The bytes of a name: those of its length, and its tokens. -/
structure EncodedName where
  lengthBytes : List UInt8
  code : List UInt8

def EncodedName.bytes (e : EncodedName) : List UInt8 := e.lengthBytes ++ e.code

/-- The symbol's kind and name are what the tokens expand to. -/
structure EncodedName.Encodes (tokens : List (List UInt8)) (uleb128Lengths : Bool) (symbol : UInt8 × String)
    (e : EncodedName) : Prop where
  length : LengthBytes uleb128Lengths e.code.length e.lengthBytes
  expand : (e.code.flatMap fun index => tokens.getD index.toNat []) = symbol.1 :: asBytes symbol.2

/-- A symbol of a kernel: of a known kind, with a printable name of at most 4095 characters. -/
structure ValidSymbol (symbol : UInt8 × String) : Prop where
  kind : symbol.1 ∈ SYMBOL_TYPES
  nonempty : asBytes symbol.2 ≠ []
  length : (asBytes symbol.2).length ≤ 4095
  printable : ∀ b ∈ asBytes symbol.2, 0x21 ≤ b ∧ b ≤ 0x7e

instance (symbol : UInt8 × String) : Decidable (ValidSymbol symbol) :=
  decidable_of_iff (symbol.1 ∈ SYMBOL_TYPES ∧ asBytes symbol.2 ≠ [] ∧ (asBytes symbol.2).length ≤ 4095 ∧
      ((asBytes symbol.2).all fun b => decide (0x21 ≤ b) && decide (b ≤ 0x7e)) = true)
    ⟨fun ⟨hkind, hnonempty, hlength, hprintable⟩ => ⟨hkind, hnonempty, hlength, fun b hb => by
        simpa using List.all_eq_true.mp hprintable b hb⟩,
      fun h => ⟨h.kind, h.nonempty, h.length, List.all_eq_true.mpr fun b hb => by simpa using h.printable b hb⟩⟩

/-- The region of the names. -/
def namesRegion (es : List EncodedName) : List UInt8 := es.flatMap EncodedName.bytes

/-- Where each 256th name starts. -/
def markersOf (es : List EncodedName) : List ℕ :=
  (List.range ((es.length + 255) / 256)).map fun j => (namesRegion (es.take (256 * j))).length

/-- The spans of names from a position on. -/
def spansOf : ℕ → List EncodedName → List (ℕ × ℕ)
  | _, [] => []
  | position, e :: es => (position + e.lengthBytes.length, e.code.length) :: spansOf (position + e.bytes.length) es

/-! ### Where the names are -/

theorem spansOf_length (position : ℕ) (es : List EncodedName) : (spansOf position es).length = es.length := by
  induction es generalizing position with
  | nil => rfl
  | cons e es ih => exact congrArg Nat.succ (ih _)

theorem spansOf_tile {image : List UInt8} {uleb128Lengths : Bool} {es : List EncodedName}
    (hes : ∀ e ∈ es, LengthBytes uleb128Lengths e.code.length e.lengthBytes ∧ 0 < e.code.length) {position : ℕ}
    (hregion : slice image position (namesRegion es).length = namesRegion es) :
    NamesTile image uleb128Lengths position (spansOf position es) (position + (namesRegion es).length) := by
  induction es generalizing position with
  | nil => rfl
  | cons e es ih =>
    obtain ⟨⟨hlength, hpos⟩, hrest⟩ := List.forall_mem_cons.mp hes
    rw [namesRegion, List.flatMap_cons] at hregion ⊢
    obtain ⟨hname, htail⟩ := slice_eq_append_iff.mp hregion
    have htile := ih hrest htail
    rw [EncodedName.bytes, List.length_append, ← Nat.add_assoc] at htile
    rw [List.length_append, ← Nat.add_assoc, EncodedName.bytes, List.length_append, ← Nat.add_assoc]
    refine ⟨⟨e.lengthBytes, hlength, (slice_eq_append_iff.mp hname).1, rfl⟩, hpos, ?_⟩
    rw [EncodedName.bytes, List.length_append, ← Nat.add_assoc]
    exact htile

theorem getElem?_entryOffsets_spansOf {es : List EncodedName} {position i offset : ℕ}
    (h : (entryOffsets position (spansOf position es))[i]? = some offset) :
    i < es.length ∧ offset = position + (namesRegion (es.take i)).length := by
  induction es generalizing position i with
  | nil => cases h
  | cons e es ih =>
    cases i with
    | zero =>
      obtain rfl := Option.some.inj h
      exact ⟨Nat.succ_pos _, rfl⟩
    | succ i =>
      have hstop : position + e.lengthBytes.length + e.code.length = position + e.bytes.length := by
        rw [EncodedName.bytes, List.length_append, Nat.add_assoc]
      have hrest : (entryOffsets (position + e.bytes.length) (spansOf (position + e.bytes.length) es))[i]?
          = some offset := by
        rw [← hstop]
        rw [spansOf, ← hstop] at h
        exact h
      obtain ⟨hi, rfl⟩ := ih hrest
      refine ⟨Nat.succ_lt_succ hi, ?_⟩
      rw [List.take_succ_cons, namesRegion, namesRegion, List.flatMap_cons, List.length_append, Nat.add_assoc]

theorem spansOf_markers (position : ℕ) (es : List EncodedName) :
    MarkersAt position (markersOf es) 0 position (spansOf position es) := by
  intro i offset hoffset hindex
  obtain ⟨hi, rfl⟩ := getElem?_entryOffsets_spansOf hoffset
  rw [Nat.zero_add] at hindex ⊢
  have hmul : 256 * (i / 256) = i := by omega
  have hrange : i / 256 < (es.length + 255) / 256 := by omega
  rw [markersOf, List.getElem?_map, List.getElem?_range hrange, Option.map_some, hmul, Nat.add_sub_cancel_left]

/-! ### What the names say -/

theorem EncodedName.Encodes.code_pos {tokens : List (List UInt8)} {uleb128Lengths : Bool} {symbol : UInt8 × String}
    {e : EncodedName} (h : e.Encodes tokens uleb128Lengths symbol) : 0 < e.code.length := by
  have hexpand := h.expand
  cases hcode : e.code with
  | nil =>
    rw [hcode] at hexpand
    cases hexpand
  | cons b code => exact Nat.succ_pos _

/-- **A symbol written in tokens is read back.** -/
theorem decodeKallsymsName_of_encodes {image : List UInt8} {tokens : List (List UInt8)} {uleb128Lengths : Bool}
    {symbol : UInt8 × String} {e : EncodedName} {position : ℕ} (himage : image.length < 2 ^ 64)
    (htokens : tokens.length = KALLSYMS_TOKEN_COUNT) (hvalid : ValidSymbol symbol)
    (hencodes : e.Encodes tokens uleb128Lengths symbol) (hcode : slice image position e.code.length = e.code) :
    decodeKallsymsName image tokens (position, e.code.length) = some symbol := by
  have hpos := hencodes.code_pos
  have hin := congrArg List.length hcode
  rw [slice_length] at hin
  have hrange : getRange image position (position + e.code.length) = some e.code :=
    getRange_eq_some.mpr ⟨by omega, by omega, by rw [Nat.add_sub_cancel_left]; exact hcode⟩
  have hpieces : e.code.mapM (fun index => tokens[index.toNat]?)
      = some (e.code.map fun index => tokens.getD index.toNat []) := by
    rw [mapM_eq_some, List.map_map]
    refine List.map_congr_left fun index _ => ?_
    have hindex : index.toNat < tokens.length := by
      rw [htokens]
      exact index.toNat_lt
    rw [Function.comp_apply, List.getD_eq_getElem _ _ hindex, List.getElem?_eq_getElem hindex]
  have hflatten : (e.code.map fun index => tokens.getD index.toNat []).flatten = symbol.1 :: asBytes symbol.2 := by
    rw [← List.flatMap_def]
    exact hencodes.expand
  have hsum : ((e.code.map fun index => tokens.getD index.toNat []).map List.length).sum
      = (asBytes symbol.2).length + 1 := by
    rw [← List.length_flatten, hflatten, List.length_cons]
  have hlength := hvalid.length
  have hprintable : ¬((asBytes symbol.2).isEmpty = true ∨ symbol.1 ∉ SYMBOL_TYPES ∨
      ((asBytes symbol.2).any fun byte => byte < 0x21 || 0x7e < byte) = true) := by
    rw [not_or, not_or, not_not, List.any_eq_true]
    refine ⟨?_, hvalid.kind, ?_⟩
    · rw [List.isEmpty_iff]
      exact hvalid.nonempty
    · rintro ⟨b, hb, hbad⟩
      obtain ⟨hlow, hhigh⟩ := hvalid.printable b hb
      rw [Bool.or_eq_true, decide_eq_true_iff, decide_eq_true_iff] at hbad
      rcases hbad with hbad | hbad
      · exact absurd hlow (UInt8.not_le.mpr hbad)
      · exact absurd hhigh (UInt8.not_le.mpr hbad)
  have htext : textFromUtf8 (asBytes symbol.2) = some symbol.2 := textFromUtf8_eq_some_iff.mpr rfl
  have hstop : checked (position + e.code.length) = some (position + e.code.length) :=
    checked_eq_some.mpr ⟨by omega, rfl⟩
  have hexpanded : checked ((asBytes symbol.2).length + 1) = some ((asBytes symbol.2).length + 1) :=
    checked_eq_some.mpr ⟨by omega, rfl⟩
  simp only [decodeKallsymsName, hstop, hrange, hpieces, hsum, hexpanded, hflatten, Option.bind_eq_bind,
    Option.bind_some]
  rw [if_neg (by omega), if_neg hprintable, htext]
  rfl

/-- The names of the spans of written names. -/
theorem decode_spansOf {image : List UInt8} {tokens : List (List UInt8)} {uleb128Lengths : Bool}
    {symbols : List (UInt8 × String)} {es : List EncodedName} (himage : image.length < 2 ^ 64)
    (htokens : tokens.length = KALLSYMS_TOKEN_COUNT) (hvalid : ∀ symbol ∈ symbols, ValidSymbol symbol)
    (hencodes : List.Forall₂ (fun symbol e => e.Encodes tokens uleb128Lengths symbol) symbols es) {position : ℕ}
    (hregion : slice image position (namesRegion es).length = namesRegion es) :
    (spansOf position es).map (decodeKallsymsName image tokens) = symbols.map some := by
  induction hencodes generalizing position with
  | nil => rfl
  | @cons symbol e symbols es hfirst _ ih =>
    obtain ⟨hsymbol, hsymbols⟩ := List.forall_mem_cons.mp hvalid
    rw [namesRegion, List.flatMap_cons] at hregion
    obtain ⟨hname, htail⟩ := slice_eq_append_iff.mp hregion
    rw [spansOf, List.map_cons, List.map_cons, ih hsymbols htail,
      decodeKallsymsName_of_encodes himage htokens hsymbol hfirst (slice_eq_append_iff.mp hname).2]

/-- What the kernel wrote: the names one behind the other, and zeros up to the markers. -/
structure KernelNames (image : List UInt8) (namesOffset markersOffset : ℕ) (uleb128Lengths : Bool)
    (tokens : List (List UInt8)) (symbols : List (UInt8 × String)) (es : List EncodedName) : Prop where
  size : image.length ≤ ISIZE_MAX
  tokenCount : tokens.length = KALLSYMS_TOKEN_COUNT
  valid : ∀ symbol ∈ symbols, ValidSymbol symbol
  required : ∀ name ∈ ["_text", "_end", "load_module"], name ∈ symbols.map Prod.snd
  encodes : List.Forall₂ (fun symbol e => e.Encodes tokens uleb128Lengths symbol) symbols es
  region : slice image namesOffset (namesRegion es).length = namesRegion es
  align : alignUp (namesOffset + (namesRegion es).length) KALLSYMS_ALIGNMENT = markersOffset
  inside : markersOffset ≤ image.length
  padding : ∀ b ∈ slice image (namesOffset + (namesRegion es).length)
    (markersOffset - (namesOffset + (namesRegion es).length)), b = 0

section Written

variable {image : List UInt8} {namesOffset markersOffset : ℕ} {uleb128Lengths : Bool} {tokens : List (List UInt8)}
  {symbols : List (UInt8 × String)} {es : List EncodedName}
  (h : KernelNames image namesOffset markersOffset uleb128Lengths tokens symbols es)

include h

theorem KernelNames.symbols_pos : 0 < symbols.length := by
  have hmem := h.required "_text" List.mem_cons_self
  rw [List.mem_map] at hmem
  obtain ⟨symbol, hsymbol, -⟩ := hmem
  exact List.length_pos_of_mem hsymbol

theorem KernelNames.lengths :
    ∀ e ∈ es, LengthBytes uleb128Lengths e.code.length e.lengthBytes ∧ 0 < e.code.length := by
  intro e he
  obtain ⟨i, hi, rfl⟩ := List.mem_iff_getElem.mp he
  have hencodes := h.encodes.get (by rw [h.encodes.length_eq]; exact hi) hi
  exact ⟨hencodes.length, hencodes.code_pos⟩

theorem KernelNames.region_inside : namesOffset + (namesRegion es).length ≤ image.length := by
  have hin := congrArg List.length h.region
  rw [slice_length] at hin
  have hpos : 0 < (namesRegion es).length := by
    have htile := (spansOf_tile h.lengths h.region).le
    have := h.symbols_pos
    rw [spansOf_length, ← h.encodes.length_eq] at htile
    omega
  omega

/-- The spans of the names are found. -/
theorem KernelNames.parse : parseKallsymsNameSpans image namesOffset symbols.length markersOffset (markersOf es)
    uleb128Lengths = some (spansOf namesOffset es) := by
  have hcount := h.encodes.length_eq
  have hpos := h.symbols_pos
  have hend : namesOffset + (namesRegion es).length ≤ markersOffset := by
    have hregion := h.region_inside
    have hsize := h.size
    rw [← h.align, alignUp, KALLSYMS_ALIGNMENT]
    rw [ISIZE_MAX] at hsize
    omega
  refine parseKallsymsNameSpans_iff.mpr ⟨⟨by omega, ?_⟩, ?_, _, spansOf_tile h.lengths h.region,
    spansOf_markers namesOffset es, h.align, _, getRange_eq_some.mpr ⟨hend, h.inside, rfl⟩, h.padding⟩
  · rw [markersOf, List.length_map, List.length_range, hcount]
  · rw [spansOf_length, hcount]

/-- The names of the spans are read back. -/
theorem KernelNames.decode : decodeKallsymsNames image (spansOf namesOffset es) tokens = some symbols := by
  have hsize : image.length < 2 ^ 64 := Nat.lt_of_le_of_lt h.size (by decide)
  have hdecoded := mapM_eq_some.mpr (decode_spansOf hsize h.tokenCount h.valid h.encodes h.region)
  rw [decodeKallsymsNames, hdecoded, Option.bind_eq_bind, Option.bind_some, if_neg]
  rw [List.any_eq_true]
  rintro ⟨name, hname, hmissing⟩
  exact of_decide_eq_true hmissing (h.required name hname)

end Written

/-- **Names as the kernel writes them are read back**, and whatever is accepted is tiled by its spans. -/
theorem kallsymsNames_exact :
    (∀ image namesOffset markersOffset uleb128Lengths tokens symbols es,
      KernelNames image namesOffset markersOffset uleb128Lengths tokens symbols es →
      ((parseKallsymsNameSpans image namesOffset symbols.length markersOffset (markersOf es) uleb128Lengths).bind
        fun spans => decodeKallsymsNames image spans tokens) = some symbols) ∧
      ∀ image namesOffset count markersOffset markers uleb128Lengths spans,
        parseKallsymsNameSpans image namesOffset count markersOffset markers uleb128Lengths = some spans →
        ∃ last, NamesAccepted image namesOffset count markersOffset markers uleb128Lengths spans last := by
  refine ⟨?_, ?_⟩
  · intro image namesOffset markersOffset uleb128Lengths tokens symbols es h
    rw [h.parse]
    exact h.decode
  · intro image namesOffset count markersOffset markers uleb128Lengths spans h
    exact parseKallsymsNameSpans_accepted h

/-- Each byte is a token of its own. -/
def byteTokens : List (List UInt8) := (List.range 256).map fun index => [UInt8.ofNat index]

theorem byteTokens_expand (code : List UInt8) :
    (code.flatMap fun index => byteTokens.getD index.toNat []) = code := by
  have hpiece : ∀ index : UInt8, byteTokens.getD index.toNat [] = [index] := by
    intro index
    rw [byteTokens, List.getD_eq_getElem?_getD, List.getElem?_map, List.getElem?_range index.toNat_lt, Option.map_some,
      Option.getD_some, UInt8.ofNat_toNat]
  simp only [hpiece, List.flatMap_singleton']

def requiredSymbols : List (UInt8 × String) := [(0x54, "_text"), (0x54, "load_module"), (0x42, "_end")]

def requiredNames : List EncodedName :=
  [⟨[6], 0x54 :: asBytes "_text"⟩, ⟨[12], 0x54 :: asBytes "load_module"⟩, ⟨[5], 0x42 :: asBytes "_end"⟩]

def requiredImage : List UInt8 := namesRegion requiredNames ++ List.replicate 6 0

theorem kallsymsNames_exact_required :
    ((parseKallsymsNameSpans requiredImage 0 3 32 (markersOf requiredNames) false).bind
      fun spans => decodeKallsymsNames requiredImage spans byteTokens) = some requiredSymbols := by
  have hencodes : List.Forall₂ (fun symbol e => EncodedName.Encodes byteTokens false symbol e) requiredSymbols
      requiredNames :=
    .cons ⟨.one 6 (by decide), byteTokens_expand _⟩ (.cons ⟨.one 12 (by decide), byteTokens_expand _⟩
      (.cons ⟨.one 5 (by decide), byteTokens_expand _⟩ .nil))
  have htokens : byteTokens.length = KALLSYMS_TOKEN_COUNT := by
    rw [byteTokens, List.length_map, List.length_range]
    rfl
  have hpadding : (slice requiredImage 26 6).all (· == 0) = true := by decide
  exact kallsymsNames_exact.1 requiredImage 0 32 false byteTokens requiredSymbols requiredNames
    ⟨by decide, htokens, by decide, by decide, hencodes, by decide, by decide, by decide,
      fun b hb => eq_of_beq (List.all_eq_true.mp hpadding b hb)⟩

end KernelSU.LkmImage
