import KernelSU.LkmImage.KallsymsNames
import KernelSU.LkmImageBtf.Blob

/-!
# What the reads of a candidate give

* `parse_within` — **PROVED**: no read is outside of the data, whatever they are and wherever the search starts;
* `value_readWord`, `value_readString` — **PROVED**: what a word and a name are.
-/

namespace KernelSU.LkmImageBtf

open KernelSU.Lib KernelSU.Lib.Bytes KernelSU.Lib.Reading
open KernelSU.LkmImage (checked checked_eq_some)

/-! ### Inside the data -/

section Within

variable (data : List UInt8)

theorem getSlice_within (start stop : ℕ) : Within 0 data.length (getSlice data start stop) := by
  rw [getSlice]
  split
  · next h =>
    refine within_read _ (Int.natCast_nonneg start) ?_
    show (start : ℤ) + ((stop - start : ℕ) : ℤ) ≤ data.length
    omega
  · exact within_fail _ _ ()

theorem checkedAdd_within (a b : ℕ) : Within 0 data.length (checkedAdd a b) := within_ofOption _ _ _ _

theorem getByte_within (offset : ℕ) : Within 0 data.length (getByte data offset) :=
  within_bind (getSlice_within data _ _) fun _ _ => within_pure _ _ _

theorem readWord_within (n offset : ℕ) : Within 0 data.length (readWord n data offset) := by
  refine within_bind (checkedAdd_within data _ _) fun _ _ => ?_
  exact within_bind (getSlice_within data _ _) fun _ _ => within_pure _ _ _

/-- A read at an offset that is computed first. -/
theorem readAt_within {α : Type} {a b : ℕ} {f : ℕ → Reading Unit α} (hf : ∀ o, Within 0 data.length (f o)) :
    Within 0 data.length (checkedAdd a b >>= f) := within_bind (checkedAdd_within data _ _) fun o _ => hf o

theorem check_within {α : Type} {c : Prop} [Decidable c] {f : Unit → Reading Unit α}
    (hf : Within 0 data.length (f ())) : Within 0 data.length (ensure c () >>= f) :=
  within_bind (within_ensure _ _ _ _) fun _ _ => hf

theorem readString_within (stringsStart stringsEnd offset : ℕ) :
    Within 0 data.length (readString data stringsStart stringsEnd offset) := by
  refine readAt_within data fun start => check_within data ?_
  refine within_bind (getSlice_within data _ _) fun tail _ => ?_
  exact within_bind (within_ofOption _ _ _ _) fun length _ => within_ofOption _ _ _ _

theorem readSections_within (fileOffset : ℕ) : Within 0 data.length (readSections data fileOffset) := by
  have hword : ∀ n o, Within 0 data.length (readWord n data o) := readWord_within data
  have hbyte : ∀ o, Within 0 data.length (getByte data o) := getByte_within data
  refine within_bind (hword 2 _) fun _ _ => readAt_within data fun _ => ?_
  refine within_bind (hbyte _) fun _ _ => readAt_within data fun _ => ?_
  refine within_bind (hbyte _) fun _ _ => readAt_within data fun _ => ?_
  refine within_bind (hword 4 _) fun _ _ => check_within data ?_
  refine readAt_within data fun _ => readAt_within data fun _ => ?_
  refine within_bind (hword 4 _) fun _ _ => readAt_within data fun _ => ?_
  refine within_bind (hword 4 _) fun _ _ => readAt_within data fun _ => ?_
  refine within_bind (hword 4 _) fun _ _ => readAt_within data fun _ => ?_
  refine within_bind (hword 4 _) fun _ _ => readAt_within data fun _ => readAt_within data fun _ => ?_
  refine readAt_within data fun _ => readAt_within data fun _ => check_within data ?_
  refine within_bind (hbyte _) fun _ _ => check_within data ?_
  refine within_bind (hbyte _) fun _ _ => check_within data ?_
  exact within_pure _ _ _

theorem readType_within (s : Sections) (position : ℕ) : Within 0 data.length (readType data s position) := by
  have hword : ∀ o, Within 0 data.length (readU32 data o) := readWord_within data 4
  refine readAt_within data fun _ => check_within data ?_
  refine within_bind (hword _) fun _ _ => readAt_within data fun _ => ?_
  refine within_bind (hword _) fun _ _ => readAt_within data fun _ => ?_
  refine within_bind (hword _) fun _ _ => within_bind (within_ofOption _ _ _ _) fun _ _ => ?_
  refine readAt_within data fun _ => check_within data ?_
  exact within_bind (readString_within data _ _ _) fun _ _ => within_pure _ _ _

theorem readTypes_within (s : Sections) (position : ℕ) : Within 0 data.length (readTypes data s position) := by
  induction position using readTypes.induct s with
  | case1 position _ ih =>
    rw [readTypes, if_pos ‹_›]
    refine within_bind (readType_within data s position) fun t _ => ?_
    exact within_bind (ih t) fun _ _ => within_pure _ _ _
  | case2 _ =>
    rw [readTypes, if_neg ‹_›, if_pos rfl]
    exact within_pure _ _ _
  | case3 position _ _ =>
    rw [readTypes, if_neg ‹_›, if_neg ‹_›]
    exact within_fail _ _ ()

end Within

namespace BtfCandidate

variable (c : BtfCandidate)

theorem string_within (offset : ℕ) : Within 0 c.data.length (c.string offset) := readString_within c.data _ _ _

theorem validNameAt_within (offset : ℕ) : Within 0 c.data.length (c.validNameAt offset) :=
  within_isSomeAnd (readWord_within c.data 4 _) fun _ => within_succeeds (c.string_within _)

theorem validTypeAt_within (offset : ℕ) : Within 0 c.data.length (c.validTypeAt offset) :=
  within_isSomeAnd (readWord_within c.data 4 _) fun _ => within_pure _ _ _

theorem validPayload_within (t : BtfType) : Within 0 c.data.length (c.validPayload t) := by
  have hword : ∀ o, Within 0 c.data.length (readU32 c.data o) := readWord_within c.data 4
  have hname := c.validNameAt_within
  have htype := c.validTypeAt_within
  rw [validPayload]
  cases t.kind with
  | array => exact within_isSomeAnd (hword _) fun _ => within_isSomeAnd (hword _) fun _ => within_pure _ _ _
  | struct => exact within_all (fun _ => within_andAlso (hname _) (htype _)) _
  | union => exact within_all (fun _ => within_andAlso (hname _) (htype _)) _
  | enum => exact within_all (fun _ => hname _) _
  | funcProto => exact within_all (fun _ => within_andAlso (hname _) (htype _)) _
  | datasec => exact within_all (fun _ => within_isSomeAnd (hword _) fun _ => within_pure _ _ _) _
  | enum64 => exact within_all (fun _ => hname _) _
  | _ => exact within_pure _ _ _

theorem validateReferences_within : Within 0 c.data.length c.validateReferences := by
  refine within_all (fun t => ?_) _
  refine within_andAlso (within_succeeds (c.string_within _)) ?_
  exact within_andAlso (within_pure _ _ _) (c.validPayload_within t)

end BtfCandidate

/-- **No read is outside of the data.** -/
theorem parse_within (data : List UInt8) (fileOffset : ℕ) :
    Within 0 data.length (BtfCandidate.parse data fileOffset) := by
  refine within_bind (readSections_within data fileOffset) fun s _ => ?_
  refine within_bind (readTypes_within data s _) fun types _ => ?_
  refine within_bind (BtfCandidate.validateReferences_within _) fun valid _ => check_within data ?_
  exact within_pure _ _ _

/-! ### Words and names -/

theorem value_checkedAdd {a b v : ℕ} : (checkedAdd a b).value = some v ↔ a + b < 2 ^ 64 ∧ a + b = v := by
  rw [checkedAdd, value_ofOption, checked_eq_some]

theorem value_getSlice {data : List UInt8} {start stop : ℕ} {bytes : List UInt8} :
    (getSlice data start stop).value = some bytes ↔
      start ≤ stop ∧ stop ≤ data.length ∧ slice data start (stop - start) = bytes := by
  rw [getSlice]
  split
  · next h => simp [h]
  · next h =>
    rw [value_fail]
    exact iff_of_false (fun h => nomatch h) fun hin => h ⟨hin.1, hin.2.1⟩

theorem value_getByte {data : List UInt8} {offset v : ℕ} :
    (getByte data offset).value = some v ↔ offset < data.length ∧ decodeLE (slice data offset 1) = v := by
  simp only [getByte, value_bind, Option.bind_eq_some_iff, value_getSlice, value_pure, Option.some.injEq]
  constructor
  · rintro ⟨bytes, ⟨-, hin, rfl⟩, rfl⟩
    exact ⟨hin, by rw [Nat.add_sub_cancel_left]⟩
  · rintro ⟨hin, rfl⟩
    exact ⟨_, ⟨by omega, hin, rfl⟩, by rw [Nat.add_sub_cancel_left]⟩

/-- A word is read where it lies in the data. -/
theorem value_readWord {data : List UInt8} (hlength : data.length < 2 ^ 64) {n offset v : ℕ} :
    (readWord n data offset).value = some v ↔ offset + n ≤ data.length ∧ decodeLE (slice data offset n) = v := by
  simp only [readWord, value_bind, Option.bind_eq_some_iff, value_checkedAdd, value_getSlice, value_pure,
    Option.some.injEq]
  constructor
  · rintro ⟨stop, ⟨-, rfl⟩, bytes, ⟨-, hin, rfl⟩, rfl⟩
    exact ⟨hin, by rw [Nat.add_sub_cancel_left]⟩
  · rintro ⟨hin, rfl⟩
    exact ⟨_, ⟨by omega, rfl⟩, _, ⟨by omega, hin, rfl⟩, by rw [Nat.add_sub_cancel_left]⟩

/-- The word at an offset. -/
def wordAt (data : List UInt8) (offset : ℕ) : ℕ := decodeLE (slice data offset 4)

/-- The bytes before the first NUL, and the NUL itself. -/
theorem findIdx?_nul_iff {bytes text : List UInt8} :
    (∃ n, bytes.findIdx? (· == 0) = some n ∧ bytes.take n = text) ↔
      0 ∉ text ∧ bytes.take (text.length + 1) = text ++ [0] := by
  induction bytes generalizing text with
  | nil => simp
  | cons b bytes ih =>
    rw [List.findIdx?_cons]
    by_cases hb : b = 0
    · rw [if_pos (by simpa using hb)]
      cases text with
      | nil => simp [hb]
      | cons t text =>
        refine iff_of_false (fun ⟨n, hn, htake⟩ => ?_) fun ⟨hnul, htake⟩ => hnul ?_
        · cases hn
          cases htake
        · rw [← hb, (List.cons.inj htake).1]
          exact List.mem_cons_self
    · rw [if_neg (by simpa using hb)]
      cases text with
      | nil =>
        refine iff_of_false (fun ⟨n, hn, htake⟩ => ?_) fun ⟨_, htake⟩ => hb (List.cons.inj htake).1
        obtain ⟨m, -, rfl⟩ := Option.map_eq_some_iff.mp hn
        cases htake
      | cons t text =>
        have htail := @ih text
        constructor
        · rintro ⟨n, hn, htake⟩
          obtain ⟨m, hm, rfl⟩ := Option.map_eq_some_iff.mp hn
          obtain ⟨rfl, hbody⟩ := List.cons.inj htake
          obtain ⟨hnul, hrest⟩ := htail.mp ⟨m, hm, hbody⟩
          refine ⟨fun h => ?_, ?_⟩
          · rcases List.mem_cons.mp h with h | h
            · exact hb h.symm
            · exact hnul h
          · rw [List.length_cons, List.take_succ_cons, hrest, List.cons_append]
        · rintro ⟨hnul, htake⟩
          rw [List.length_cons, List.take_succ_cons, List.cons_append] at htake
          obtain ⟨rfl, hbody⟩ := List.cons.inj htake
          obtain ⟨m, hm, hrest⟩ := htail.mpr ⟨fun h => hnul (List.mem_cons_of_mem _ h), hbody⟩
          exact ⟨m + 1, Option.map_eq_some_iff.mpr ⟨m, hm, rfl⟩, by rw [List.take_succ_cons, hrest]⟩

theorem exists_nameAt_iff {strings : List UInt8} {offset : ℕ} :
    (∃ text, NameAt strings offset text) ↔ (((strings.drop offset).findIdx? (· == 0)).bind fun n =>
      textFromUtf8 ((strings.drop offset).take n)).isSome = true := by
  rw [Option.isSome_iff_exists]
  refine exists_congr fun text => ?_
  rw [NameAt, slice, ← findIdx?_nul_iff, Option.bind_eq_some_iff]
  refine exists_congr fun n => and_congr Iff.rfl ?_
  rw [textFromUtf8_eq_some_iff, eq_comm]

/-- Whether the references are good can be computed. -/
instance decidableGood (strings : List UInt8) (kinds : List BtfKind) (value : ℕ) (role : Role) :
    Decidable (role.Good strings kinds value) :=
  match role with
  | .name => decidable_of_iff _ exists_nameAt_iff.symm
  | .type => inferInstanceAs (Decidable (value ≤ kinds.length))
  | .prototype => inferInstanceAs (Decidable (value ≠ 0 ∧ kinds[value - 1]? = some .funcProto))
  | .var => inferInstanceAs (Decidable (value ≠ 0 ∧ kinds[value - 1]? = some .var))
  | .nothing => .isTrue trivial

instance (strings : List UInt8) (types : List TypeDescription) : Decidable (ReferencesValid strings types) :=
  inferInstanceAs (Decidable (∀ d ∈ types, ∀ r ∈ d.references, r.1.Good strings (types.map (·.kind)) r.2))

/-- **A name is read where it stands.** -/
theorem value_readString {data : List UInt8} (hlength : data.length < 2 ^ 64) {stringsStart stringsEnd offset : ℕ}
    (hin : stringsEnd ≤ data.length) {text : String} :
    (readString data stringsStart stringsEnd offset).value = some text ↔
      NameAt (slice data stringsStart (stringsEnd - stringsStart)) offset text := by
  have htail : slice data (stringsStart + offset) (stringsEnd - (stringsStart + offset)) =
      (slice data stringsStart (stringsEnd - stringsStart)).drop offset := by
    rw [slice, slice, List.drop_take, List.drop_drop, Nat.sub_sub]
  rw [NameAt, slice, ← htail, ← findIdx?_nul_iff]
  simp only [readString, value_bind, Option.bind_eq_some_iff, value_checkedAdd, value_getSlice, value_ofOption,
    textFromUtf8_eq_some_iff]
  constructor
  · rintro ⟨start, ⟨-, rfl⟩, _, hstart, tail, ⟨-, -, rfl⟩, n, hn, htext⟩
    exact ⟨n, hn, htext.symm⟩
  · rintro ⟨n, hn, htext⟩
    have hstart : stringsStart + offset < stringsEnd := by
      by_contra hge
      rw [Nat.sub_eq_zero_of_le (by omega), slice_size_zero] at hn
      cases hn
    refine ⟨_, ⟨by omega, rfl⟩, (), ?_, _, ⟨by omega, hin, rfl⟩, n, hn, htext.symm⟩
    rw [value_eq_some, ensure_result_ok]
    exact hstart

theorem value_readU32 {data : List UInt8} (hlength : data.length < 2 ^ 64) {offset v : ℕ} :
    (readU32 data offset).value = some v ↔ offset + 4 ≤ data.length ∧ wordAt data offset = v :=
  value_readWord hlength

/-! ### What follows a read -/

section Bind

variable {α : Type} {y : α}

theorem value_checkedAdd_bind {a b : ℕ} {f : ℕ → Reading Unit α} :
    (checkedAdd a b >>= f).value = some y ↔ a + b < 2 ^ 64 ∧ (f (a + b)).value = some y := by
  rw [value_bind, Option.bind_eq_some_iff]
  constructor
  · rintro ⟨v, hv, hf⟩
    obtain ⟨hfits, rfl⟩ := value_checkedAdd.mp hv
    exact ⟨hfits, hf⟩
  · rintro ⟨hfits, hf⟩
    exact ⟨_, value_checkedAdd.mpr ⟨hfits, rfl⟩, hf⟩

theorem value_getByte_bind {data : List UInt8} {offset : ℕ} {f : ℕ → Reading Unit α} :
    (getByte data offset >>= f).value = some y ↔
      offset < data.length ∧ (f (decodeLE (slice data offset 1))).value = some y := by
  rw [value_bind, Option.bind_eq_some_iff]
  constructor
  · rintro ⟨v, hv, hf⟩
    obtain ⟨hin, rfl⟩ := value_getByte.mp hv
    exact ⟨hin, hf⟩
  · rintro ⟨hin, hf⟩
    exact ⟨_, value_getByte.mpr ⟨hin, rfl⟩, hf⟩

theorem value_readWord_bind {data : List UInt8} (hlength : data.length < 2 ^ 64) {n offset : ℕ}
    {f : ℕ → Reading Unit α} :
    (readWord n data offset >>= f).value = some y ↔
      offset + n ≤ data.length ∧ (f (decodeLE (slice data offset n))).value = some y := by
  rw [value_bind, Option.bind_eq_some_iff]
  constructor
  · rintro ⟨v, hv, hf⟩
    obtain ⟨hin, rfl⟩ := (value_readWord hlength).mp hv
    exact ⟨hin, hf⟩
  · rintro ⟨hin, hf⟩
    exact ⟨_, (value_readWord hlength).mpr ⟨hin, rfl⟩, hf⟩

theorem value_readU32_bind {data : List UInt8} (hlength : data.length < 2 ^ 64) {offset : ℕ} {f : ℕ → Reading Unit α} :
    (readU32 data offset >>= f).value = some y ↔
      offset + 4 ≤ data.length ∧ (f (wordAt data offset)).value = some y :=
  value_readWord_bind hlength

theorem value_ofOption_bind {β : Type} {o : Option β} {f : β → Reading Unit α} :
    (ofOption o () >>= f).value = some y ↔ ∃ b, o = some b ∧ (f b).value = some y := by
  rw [value_bind, Option.bind_eq_some_iff, value_ofOption]

end Bind

end KernelSU.LkmImageBtf
