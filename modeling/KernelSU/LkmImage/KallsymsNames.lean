import KernelSU.LkmImage.Kallsyms
import KernelSU.Lib.Fallible
import Mathlib.Data.Nat.Bitwise

/-!
# The names of the symbols

* `readNameLength_iff` — **PROVED**: the lengths that are read;
* `nameSpansFrom_iff` — **PROVED**: the names tile their region, and each marker is where its name starts;
* `parseKallsymsNameSpans_iff`, `parseKallsymsNameSpans_accepted` — **PROVED**: what is accepted.
-/

namespace KernelSU.LkmImage

open KernelSU.Lib KernelSU.Lib.Bytes

/-! ### Lengths -/

/-- The bytes of a length: one byte, or with ULEB128 lengths a byte below 128 or two bytes of 7 bits each. -/
inductive LengthBytes (uleb128Lengths : Bool) : ℕ → List UInt8 → Prop
  | one (b : UInt8) : (uleb128Lengths = true → b.toNat < 128) → LengthBytes uleb128Lengths b.toNat [b]
  | two (low high : UInt8) : uleb128Lengths = true → 128 ≤ low.toNat → high.toNat < 128 →
    LengthBytes uleb128Lengths (low.toNat % 128 + 128 * high.toNat) [low, high]

theorem LengthBytes.le {uleb128Lengths : Bool} {length : ℕ} {bytes : List UInt8}
    (h : LengthBytes uleb128Lengths length bytes) : length ≤ 0x3fff := by
  cases h with
  | one b _ =>
    have := b.toNat_lt
    omega
  | two low high _ _ hhigh => omega

theorem and_high_bit {b : ℕ} (hb : b < 256) : b &&& 0x80 ≠ 0 ↔ 128 ≤ b := by
  have htest : b &&& 0x80 = (b.testBit 7).toNat * 2 ^ 7 := Nat.and_two_pow b 7
  rw [htest, Nat.testBit_eq_decide_div_mod_eq]
  by_cases hbit : b / 2 ^ 7 % 2 = 1
  · rw [decide_eq_true hbit]
    simp only [Bool.toNat_true]
    omega
  · rw [decide_eq_false hbit]
    simp only [Bool.toNat_false]
    omega

theorem low_or_high {low high : ℕ} : (low &&& 0x7f) ||| (high <<< 7) = low % 128 + 128 * high := by
  have hlow : low &&& 0x7f = low % 2 ^ 7 := Nat.and_two_pow_sub_one_eq_mod low 7
  rw [hlow, Nat.or_comm, ← Nat.shiftLeft_add_eq_or_of_lt (Nat.mod_lt _ (by decide)), Nat.shiftLeft_eq]
  omega

/-- A length at a position, by its bytes. -/
def LengthAt (image : List UInt8) (uleb128Lengths : Bool) (position length next : ℕ) : Prop :=
  ∃ bytes, LengthBytes uleb128Lengths length bytes ∧ slice image position bytes.length = bytes ∧
    next = position + bytes.length

theorem lengthAt_iff {image : List UInt8} {uleb128Lengths : Bool} {position length next : ℕ} :
    LengthAt image uleb128Lengths position length next ↔
      ∃ b, image[position]? = some b ∧
        (¬(uleb128Lengths = true ∧ 128 ≤ b.toNat) ∧ length = b.toNat ∧ next = position + 1 ∨
          (uleb128Lengths = true ∧ 128 ≤ b.toNat) ∧ ∃ high, image[position + 1]? = some high ∧ high.toNat < 128 ∧
            length = b.toNat % 128 + 128 * high.toNat ∧ next = position + 2) := by
  constructor
  · rintro ⟨bytes, hbytes, hslice, hnext⟩
    cases hbytes with
    | one b hlow =>
      refine ⟨b, (slice_eq_cons_iff.mp hslice).1, Or.inl ⟨?_, rfl, hnext⟩⟩
      rintro ⟨huleb, hb⟩
      exact absurd (hlow huleb) (Nat.not_lt.mpr hb)
    | two low high huleb hlow hhigh =>
      obtain ⟨hfirst, hrest⟩ := slice_eq_cons_iff.mp hslice
      exact ⟨low, hfirst, Or.inr ⟨⟨huleb, hlow⟩, high, (slice_eq_cons_iff.mp hrest).1, hhigh, rfl, hnext⟩⟩
  · rintro ⟨b, hfirst, ⟨hsmall, rfl, rfl⟩ | ⟨⟨huleb, hlow⟩, high, hsecond, hhigh, rfl, rfl⟩⟩
    · refine ⟨[b], .one b fun huleb => ?_, slice_eq_cons_iff.mpr ⟨hfirst, slice_size_zero _ _⟩, rfl⟩
      by_contra hb
      exact hsmall ⟨huleb, Nat.not_lt.mp hb⟩
    · exact ⟨[b, high], .two b high huleb hlow hhigh,
        slice_eq_cons_iff.mpr ⟨hfirst, slice_eq_cons_iff.mpr ⟨hsecond, slice_size_zero _ _⟩⟩, rfl⟩

/-- **The lengths that are read**, from a position in front of the markers. -/
theorem readNameLength_iff {image : List UInt8} {markersOffset position length next : ℕ} {uleb128Lengths : Bool}
    (hposition : position < markersOffset) :
    readNameLength image markersOffset uleb128Lengths position = some (length, next) ↔
      LengthAt image uleb128Lengths position length next ∧ next ≤ markersOffset := by
  rw [readNameLength, lengthAt_iff]
  cases hfirst : image[position]? with
  | none => simp
  | some b =>
    have hbit := and_high_bit b.toNat_lt
    simp only [Option.map_some, Option.bind_eq_bind, Option.bind_some, hbit, Option.some.injEq, exists_eq_left']
    by_cases huleb : uleb128Lengths = true ∧ 128 ≤ b.toNat
    · rw [if_pos huleb]
      simp only [huleb, and_self, not_true_eq_false, false_and, false_or, true_and]
      split_ifs with hlimit
      · refine iff_of_false (by simp) ?_
        rintro ⟨⟨high, -, -, -, rfl⟩, hle⟩
        omega
      · cases hsecond : image[position + 1]? with
        | none => simp
        | some high =>
          simp only [Option.map_some, Option.bind_some, and_high_bit high.toNat_lt, Option.some.injEq, exists_eq_left']
          split_ifs with hhigh
          · exact iff_of_false (by simp) fun h => absurd h.1.1 (Nat.not_lt.mpr hhigh)
          · rw [Option.some.injEq, Prod.mk.injEq, low_or_high]
            constructor
            · rintro ⟨rfl, rfl⟩
              exact ⟨⟨by omega, rfl, rfl⟩, by omega⟩
            · rintro ⟨⟨-, rfl, rfl⟩, -⟩
              exact ⟨rfl, rfl⟩
    · rw [if_neg huleb, Option.some.injEq, Prod.mk.injEq]
      constructor
      · rintro ⟨rfl, rfl⟩
        exact ⟨Or.inl ⟨huleb, rfl, rfl⟩, hposition⟩
      · rintro ⟨⟨-, rfl, rfl⟩ | ⟨habs, -⟩, -⟩
        · exact ⟨rfl, rfl⟩
        · exact absurd habs huleb

/-! ### Spans -/

/-- The names of the spans lie one behind the other from a position on. -/
def NamesTile (image : List UInt8) (uleb128Lengths : Bool) : ℕ → List (ℕ × ℕ) → ℕ → Prop
  | position, [], last => position = last
  | position, (start, length) :: spans, last =>
    LengthAt image uleb128Lengths position length start ∧ 0 < length ∧
      NamesTile image uleb128Lengths (start + length) spans last

/-- Where the entries of the spans start, with their lengths. -/
def entryOffsets : ℕ → List (ℕ × ℕ) → List ℕ
  | _, [] => []
  | position, (start, length) :: spans => position :: entryOffsets (start + length) spans

/-- Each marker among the names from number `index` on is where its name starts. -/
def MarkersAt (namesOffset : ℕ) (markers : List ℕ) (index position : ℕ) (spans : List (ℕ × ℕ)) : Prop :=
  ∀ i offset, (entryOffsets position spans)[i]? = some offset → (index + i) % 256 = 0 →
    markers[(index + i) / 256]? = some (offset - namesOffset)

theorem NamesTile.le {image : List UInt8} {uleb128Lengths : Bool} {spans : List (ℕ × ℕ)} {position last : ℕ}
    (h : NamesTile image uleb128Lengths position spans last) : position + spans.length ≤ last := by
  induction spans generalizing position with
  | nil => exact Nat.le_of_eq h
  | cons span spans ih =>
    obtain ⟨start, length⟩ := span
    obtain ⟨⟨bytes, hbytes, -, hstart⟩, hpos, hrest⟩ := h
    have := ih hrest
    rw [List.length_cons]
    omega

theorem markersAt_cons {namesOffset index position start length : ℕ} {markers : List ℕ} {spans : List (ℕ × ℕ)} :
    MarkersAt namesOffset markers index position ((start, length) :: spans) ↔
      (index % 256 = 0 → markers[index / 256]? = some (position - namesOffset)) ∧
        MarkersAt namesOffset markers (index + 1) (start + length) spans := by
  constructor
  · intro h
    refine ⟨h 0 position rfl, fun i offset hoffset hindex => ?_⟩
    have heq : index + 1 + i = index + (i + 1) := by omega
    rw [heq] at hindex ⊢
    exact h (i + 1) offset hoffset hindex
  · rintro ⟨hfirst, hrest⟩ i offset hoffset hindex
    cases i with
    | zero =>
      obtain rfl := Option.some.inj hoffset
      exact hfirst hindex
    | succ i =>
      have heq : index + (i + 1) = index + 1 + i := by omega
      rw [heq] at hindex ⊢
      exact hrest i offset hoffset hindex

theorem checked_eq_some {n m : ℕ} : checked n = some m ↔ n < 2 ^ 64 ∧ n = m := by
  rw [checked, Option.ite_none_right_eq_some, Option.some.injEq]

/-- **The spans that are found** tile their region, and the markers among them are where their names start. -/
theorem nameSpansFrom_iff {image : List UInt8} {namesOffset markersOffset : ℕ} {markers : List ℕ}
    {uleb128Lengths : Bool} (hmarkers : markersOffset < 2 ^ 64) {n index position last : ℕ} {spans : List (ℕ × ℕ)} :
    nameSpansFrom image namesOffset markersOffset markers uleb128Lengths n index position = some (spans, last) ↔
      spans.length = n ∧ NamesTile image uleb128Lengths position spans last ∧ (spans ≠ [] → last ≤ markersOffset) ∧
        MarkersAt namesOffset markers index position spans := by
  induction n generalizing index position spans with
  | zero =>
    rw [nameSpansFrom, Option.some.injEq, Prod.mk.injEq, List.length_eq_zero_iff]
    constructor
    · rintro ⟨rfl, rfl⟩
      refine ⟨rfl, rfl, fun h => absurd rfl h, fun i offset hoffset => ?_⟩
      cases hoffset
    · rintro ⟨rfl, hlast, -, -⟩
      exact ⟨rfl, hlast⟩
  | succ n ih =>
    rw [nameSpansFrom]
    split_ifs with hmarker hlimit
    · -- the marker of this name is another one
      refine iff_of_false (by simp) ?_
      rintro ⟨hlength, -, -, hmarkers⟩
      obtain ⟨⟨start, length⟩, rest, rfl⟩ := List.exists_cons_of_length_eq_add_one hlength
      exact hmarker.2 (hmarkers 0 position rfl hmarker.1)
    · -- the region has ended
      refine iff_of_false (by simp) ?_
      rintro ⟨hlength, htile, hlast, -⟩
      have hne : spans ≠ [] := List.ne_nil_of_length_eq_add_one hlength
      have := htile.le
      have := hlast hne
      omega
    · constructor
      · intro h
        obtain ⟨⟨length, start⟩, hread, h⟩ := Option.bind_eq_some_iff.mp h
        obtain ⟨stop, hstop, h⟩ := Option.bind_eq_some_iff.mp h
        obtain ⟨-, rfl⟩ := checked_eq_some.mp hstop
        split_ifs at h with hlength
        obtain ⟨⟨rest, last'⟩, hrest, h⟩ := Option.bind_eq_some_iff.mp h
        obtain ⟨rfl, rfl⟩ := Prod.mk.inj (Option.some.inj h)
        obtain ⟨hat, -⟩ := (readNameLength_iff (Nat.not_le.mp hlimit)).mp hread
        obtain ⟨hcount, htile, hlast, hrestMarkers⟩ := ih.mp hrest
        refine ⟨congrArg Nat.succ hcount, ⟨hat, by omega, htile⟩, fun _ => ?_, markersAt_cons.mpr ⟨?_, hrestMarkers⟩⟩
        · cases rest with
          | nil =>
            obtain rfl : start + length = last' := htile
            omega
          | cons span rest => exact hlast (List.cons_ne_nil span rest)
        · intro hindex
          by_contra hne
          exact hmarker ⟨hindex, hne⟩
      · rintro ⟨hcount, htile, hlast, hspanMarkers⟩
        obtain ⟨⟨start, length⟩, rest, rfl⟩ := List.exists_cons_of_length_eq_add_one hcount
        obtain ⟨hat, hpos, hrest⟩ := htile
        have hle := hlast (List.cons_ne_nil _ _)
        have hstop := hrest.le
        have hmax : length ≤ 0x3fff := by
          obtain ⟨bytes, hbytes, -⟩ := hat
          exact hbytes.le
        have hnext := ih.mpr ⟨Nat.succ.inj hcount, hrest, fun _ => hle, (markersAt_cons.mp hspanMarkers).2⟩
        refine Option.bind_eq_some_iff.mpr ⟨(length, start),
          (readNameLength_iff (Nat.not_le.mp hlimit)).mpr ⟨hat, by omega⟩, ?_⟩
        refine Option.bind_eq_some_iff.mpr ⟨start + length, checked_eq_some.mpr ⟨by omega, rfl⟩, ?_⟩
        rw [if_neg (by omega)]
        exact Option.bind_eq_some_iff.mpr ⟨_, hnext, rfl⟩

theorem getRange_eq_some {data bytes : List UInt8} {start stop : ℕ} :
    getRange data start stop = some bytes ↔
      start ≤ stop ∧ stop ≤ data.length ∧ slice data start (stop - start) = bytes := by
  rw [getRange, Option.ite_none_right_eq_some, Option.some.injEq, and_assoc]

theorem alignUp_lt (v a : ℕ) : alignUp v a < 2 ^ 64 :=
  Nat.lt_of_le_of_lt (Nat.sub_le _ _) (Nat.mod_lt _ (by decide))

/-- **What `parse_kallsyms_name_spans` accepts.** -/
theorem parseKallsymsNameSpans_iff {image : List UInt8} {namesOffset count markersOffset : ℕ} {markers : List ℕ}
    {uleb128Lengths : Bool} {spans : List (ℕ × ℕ)} :
    parseKallsymsNameSpans image namesOffset count markersOffset markers uleb128Lengths = some spans ↔
      (count ≠ 0 ∧ markers.length = (count + 255) / 256) ∧ spans.length = count ∧
        ∃ last, NamesTile image uleb128Lengths namesOffset spans last ∧
          MarkersAt namesOffset markers 0 namesOffset spans ∧ alignUp last KALLSYMS_ALIGNMENT = markersOffset ∧
          ∃ padding, getRange image last markersOffset = some padding ∧ ∀ b ∈ padding, b = 0 := by
  rw [parseKallsymsNameSpans]
  split_ifs with hcount
  · refine iff_of_false (by simp) ?_
    rintro ⟨hboth, -⟩
    omega
  · rw [not_or, not_not] at hcount
    rw [Option.bind_eq_bind, Option.bind_eq_some_iff]
    constructor
    · rintro ⟨⟨spans', last⟩, hspans, h⟩
      dsimp only at h
      split_ifs at h with halign
      obtain ⟨padding, hpadding, h⟩ := Option.bind_eq_some_iff.mp h
      split_ifs at h with hzero
      obtain rfl := Option.some.inj h
      rw [not_not] at halign
      obtain ⟨hlength, htile, -, hmarkers⟩ := (nameSpansFrom_iff (halign ▸ alignUp_lt _ _)).mp hspans
      refine ⟨hcount, hlength, last, htile, hmarkers, halign, padding, hpadding, ?_⟩
      simpa using hzero
    · rintro ⟨-, hlength, last, htile, hmarkers, halign, padding, hpadding, hzero⟩
      have hlast := (getRange_eq_some.mp hpadding).1
      refine ⟨(spans, last),
        (nameSpansFrom_iff (halign ▸ alignUp_lt _ _)).mpr ⟨hlength, htile, fun _ => hlast, hmarkers⟩, ?_⟩
      dsimp only
      rw [if_neg (not_not.mpr halign)]
      refine Option.bind_eq_some_iff.mpr ⟨padding, hpadding, if_neg ?_⟩
      simpa using hzero

/-- The names tile their region up to less than 8 zero bytes, and each marker is where its name starts. -/
structure NamesAccepted (image : List UInt8) (namesOffset count markersOffset : ℕ) (markers : List ℕ)
    (uleb128Lengths : Bool) (spans : List (ℕ × ℕ)) (last : ℕ) : Prop where
  count : spans.length = count
  tile : NamesTile image uleb128Lengths namesOffset spans last
  padding_lt : last ≤ markersOffset ∧ markersOffset < last + 8 ∧ markersOffset ≤ image.length
  padding : slice image last (markersOffset - last) = List.replicate (markersOffset - last) 0
  markers : ∀ j marker, markers[j]? = some marker →
    (entryOffsets namesOffset spans)[256 * j]? = some (namesOffset + marker)

theorem entryOffsets_length (position : ℕ) (spans : List (ℕ × ℕ)) :
    (entryOffsets position spans).length = spans.length := by
  induction spans generalizing position with
  | nil => rfl
  | cons span spans ih => exact congrArg Nat.succ (ih _)

theorem NamesTile.offset_ge {image : List UInt8} {uleb128Lengths : Bool} {spans : List (ℕ × ℕ)} {position last : ℕ}
    (h : NamesTile image uleb128Lengths position spans last) {offset : ℕ}
    (hmem : offset ∈ entryOffsets position spans) : position ≤ offset := by
  induction spans generalizing position with
  | nil => cases hmem
  | cons span spans ih =>
    obtain ⟨start, length⟩ := span
    obtain ⟨⟨bytes, -, -, hstart⟩, -, hrest⟩ := h
    rcases List.mem_cons.mp hmem with rfl | hmem
    · exact Nat.le_refl _
    · have := ih hrest hmem
      omega

/-- **Whatever is accepted** is tiled by its spans. -/
theorem parseKallsymsNameSpans_accepted {image : List UInt8} {namesOffset count markersOffset : ℕ}
    {markers : List ℕ} {uleb128Lengths : Bool} {spans : List (ℕ × ℕ)}
    (h : parseKallsymsNameSpans image namesOffset count markersOffset markers uleb128Lengths = some spans) :
    ∃ last, NamesAccepted image namesOffset count markersOffset markers uleb128Lengths spans last := by
  obtain ⟨⟨hcount, hmarkerCount⟩, hlength, last, htile, hmarkers, halign, padding, hpadding, hzero⟩ :=
    parseKallsymsNameSpans_iff.mp h
  obtain ⟨hlast, hend, hslice⟩ := getRange_eq_some.mp hpadding
  refine ⟨last, hlength, htile, ⟨hlast, ?_, hend⟩, ?_, ?_⟩
  · rw [alignUp, KALLSYMS_ALIGNMENT] at halign
    omega
  · rw [hslice]
    refine List.eq_replicate_iff.mpr ⟨?_, hzero⟩
    rw [← hslice, slice_length]
    omega
  · intro j marker hmarker
    have hj : j < markers.length := (List.getElem?_eq_some_iff.mp hmarker).1
    have hindex : 256 * j < (entryOffsets namesOffset spans).length := by rw [entryOffsets_length]; omega
    have hoffset := List.getElem?_eq_getElem hindex
    have hge := htile.offset_ge (List.getElem_mem hindex)
    have hfound := hmarkers (256 * j) _ hoffset (by omega)
    have hdiv : (0 + 256 * j) / 256 = j := by omega
    rw [hdiv, hmarker, Option.some.injEq] at hfound
    rw [hoffset, hfound, Nat.add_sub_cancel' hge]

end KernelSU.LkmImage
