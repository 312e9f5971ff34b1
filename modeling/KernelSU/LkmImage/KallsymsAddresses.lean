import KernelSU.LkmImage.Kallsyms
import KernelSU.Lib.Fallible

/-!
# The addresses of the symbols

The kernel writes an address as its distance from a base, or in a form that keeps absolute addresses apart.

* `guessAddresses_own` — **PROVED**: with the right guess the addresses are the ones written;
* `guessAddresses_other` — **PROVED**: with the wrong guess `_text` is not at the base;
* `decodeKallsymsAddresses_exact` — **PROVED**: the addresses written are decoded, or none are.
-/

namespace KernelSU.LkmImage

open KernelSU.Lib KernelSU.Lib.Bytes

/-! ### The forms of the kernel -/

inductive OffsetForm where
  | relative
  | absolutePercpu
deriving DecidableEq

/-- The word `entry` stands for `address`. -/
def OffsetForm.Encodes (base : ℕ) : OffsetForm → ℕ → ℕ → Prop
  | .relative, address, entry => entry < 2 ^ 32 ∧ address = base + entry
  | .absolutePercpu, address, entry =>
    entry < 2 ^ 32 ∧ (address : ℤ) = if signed32 entry < 0 then base - 1 - signed32 entry else signed32 entry

/-- The form that the share of negative entries suggests. -/
def guessForm (entries : List ℕ) : OffsetForm :=
  if ((entries.map signed32).filter (· < 0)).length * 2 ≥ entries.length then .absolutePercpu else .relative

theorem OffsetForm.Encodes.lt {base address entry : ℕ} {form : OffsetForm} (h : form.Encodes base address entry) :
    entry < 2 ^ 32 := by
  cases form with
  | relative => exact h.1
  | absolutePercpu => exact h.1

/-! ### Reading the table -/

section Table

variable {image : List UInt8} {offset : ℕ} {entries : List ℕ}
  (htable : slice image offset (4 * entries.length) = entries.flatMap (encodeLE 4))

include htable

theorem readU32_table (hentries : ∀ e ∈ entries, e < 2 ^ 32) {i : ℕ} (hi : i < entries.length) :
    readU32 image (offset + i * 4) = .ok entries[i] := by
  have hentry : slice image (offset + i * 4) 4 = encodeLE 4 entries[i] := by
    rw [← slice_flatMap_const (encodeLE_length 4) (List.getElem?_eq_getElem hi), ← htable, slice_slice _ (by omega),
      Nat.mul_comm 4 i]
  exact readWord_of_slice (by decide) hentry (hentries _ (List.getElem_mem hi))

/-- The address that an entry stands for in a form. -/
def decodeEntry (base : ℕ) (form : OffsetForm) (entry : ℕ) : Option ℕ :=
  match form with
  | .relative => checked (base + entry)
  | .absolutePercpu => percpuAddress base (signed32 entry)

/-- The table is decoded entry by entry, in the form that is guessed. -/
theorem guessAddresses_eq (hentries : ∀ e ∈ entries, e < 2 ^ 32) (base : ℕ) :
    guessAddresses image offset base entries.length = entries.mapM (decodeEntry base (guessForm entries)) := by
  have hread : ∀ i (hi : i < entries.length), readU32 image (offset + i * 4) = .ok entries[i] :=
    fun i hi => readU32_table htable hentries hi
  have hsigned : (List.range entries.length).mapM (fun index => (readI32 image (offset + index * 4)).toOption)
      = some (entries.map signed32) := by
    have hwhole : (List.range entries.length).mapM (fun index => (readI32 image (offset + index * 4)).toOption)
        = entries.mapM fun e => some (signed32 e) := by
      refine mapM_range fun i hi => ?_
      rw [readI32, hread i hi]
      rfl
    rw [hwhole, mapM_eq_some, List.map_map]
    rfl
  have hwords : (List.range entries.length).mapM (fun index => (do
      let word ← (readU32 image (offset + index * 4)).toOption
      checked (base + word) : Option ℕ)) = entries.mapM fun e => checked (base + e) := by
    refine mapM_range fun i hi => ?_
    rw [hread i hi]
    rfl
  rw [guessAddresses, hsigned, hwords, Option.bind_eq_bind, Option.bind_some, guessForm]
  by_cases hnegative : ((entries.map signed32).filter (· < 0)).length * 2 ≥ entries.length
  · simp only [if_pos hnegative, List.mapM_map]
    rfl
  · simp only [if_neg hnegative]
    rfl

end Table

/-! ### Right and wrong guesses -/

/-- An entry decoded in its own form gives the address it was written for. -/
theorem decodeEntry_own {base address address' entry : ℕ} {form : OffsetForm}
    (h : form.Encodes base address entry) (hdecode : decodeEntry base form entry = some address') :
    address' = address := by
  cases form with
  | relative =>
    obtain ⟨-, rfl⟩ := h
    simp only [decodeEntry, checked] at hdecode
    split_ifs at hdecode
    exact (Option.some.inj hdecode).symm
  | absolutePercpu =>
    obtain ⟨-, haddress⟩ := h
    simp only [decodeEntry, percpuAddress, ← haddress] at hdecode
    split_ifs at hdecode
    exact (Option.some.inj hdecode).symm.trans (Int.toNat_natCast address)

/-- **The forms exclude each other**: the entry of a symbol at the base is 0 in one of them and -1 in the other, and
neither is the base in the form that it was not written in. -/
theorem decodeEntry_other {base entry : ℕ} (hbase : 2 ^ 32 ≤ base) {form form' : OffsetForm} (hother : form' ≠ form)
    (h : form.Encodes base base entry) : decodeEntry base form' entry ≠ some base := by
  intro hdecode
  cases form with
  | relative =>
    obtain ⟨-, heq⟩ := h
    have hzero : entry = 0 := by omega
    cases form' with
    | relative => exact hother rfl
    | absolutePercpu =>
      subst hzero
      have hlow : decodeEntry base .absolutePercpu 0 = some 0 := rfl
      rw [hlow] at hdecode
      have := Option.some.inj hdecode
      omega
  | absolutePercpu =>
    obtain ⟨hlt, heq⟩ := h
    have hnegative : entry = 2 ^ 32 - 1 := by
      rw [signed32] at heq
      split_ifs at heq <;> omega
    cases form' with
    | absolutePercpu => exact hother rfl
    | relative =>
      simp only [decodeEntry, checked] at hdecode
      split_ifs at hdecode
      have := Option.some.inj hdecode
      omega

theorem isArm64KernelAddress_ge {address : ℕ} (h : isArm64KernelAddress address = true) : 2 ^ 32 ≤ address := by
  simp only [isArm64KernelAddress, Bool.and_eq_true, beq_iff_eq, Nat.shiftRight_eq_div_pow] at h
  omega

/-! ### What is accepted -/

/-- What has been read and checked when there is a result. -/
theorem decodeKallsymsAddresses_some {image : List UInt8} {imageSize : ℕ} {names : List (UInt8 × String)}
    {offsetsOffset relativeBaseOffset : ℕ} {symbols : List MapSymbol}
    (h : decodeKallsymsAddresses image imageSize names offsetsOffset relativeBaseOffset = some symbols) :
    ∃ base addresses, readU64 image relativeBaseOffset = .ok base ∧ isArm64KernelAddress base = true ∧
      guessAddresses image offsetsOffset base names.length = some addresses ∧
      isPlausible imageSize base names addresses = true ∧
      symbols = (addresses.zip names).map fun symbol => ⟨symbol.1, symbol.2.2⟩ := by
  simp only [decodeKallsymsAddresses, Option.bind_eq_bind, Option.bind_eq_some_iff] at h
  obtain ⟨size, -, offsetsEnd, -, relativeBaseEnd, -, h⟩ := h
  split_ifs at h
  obtain ⟨padding, -, h⟩ := Option.bind_eq_some_iff.mp h
  split_ifs at h
  obtain ⟨base, hbase, h⟩ := Option.bind_eq_some_iff.mp h
  split_ifs at h with hkernel
  obtain ⟨addresses, haddresses, h⟩ := Option.bind_eq_some_iff.mp h
  split_ifs at h with hchecks
  refine ⟨base, addresses, ?_, by simpa using hkernel, haddresses, hchecks, (Option.some.inj h).symm⟩
  cases hread : readU64 image relativeBaseOffset with
  | error e =>
    rw [hread] at hbase
    cases hbase
  | ok v =>
    rw [hread] at hbase
    exact congrArg Except.ok (Option.some.inj hbase)

/-- **`_text` is at the base**, wherever it is named. -/
theorem isPlausible_text {imageSize base : ℕ} {names : List (UInt8 × String)} {addresses : List ℕ}
    (h : isPlausible imageSize base names addresses = true) {address : ℕ} {kind : UInt8}
    (hmem : (address, kind, "_text") ∈ addresses.zip names) : address = base := by
  have htext : address ∈ addressesOf "_text" addresses names := List.mem_filterMap.mpr ⟨_, hmem, if_pos rfl⟩
  rw [isPlausible, Bool.and_eq_true] at h
  have hmatch := h.2
  split at hmatch
  · rename_i text last heq _
    rw [heq, List.mem_singleton] at htext
    simp only [Bool.and_eq_true, beq_iff_eq] at hmatch
    rw [htext]
    exact hmatch.1.1.1
  · cases hmatch

/-- **The addresses that were written, or none**: a table is decoded in the form it was written in, or not at all. -/
theorem decodeKallsymsAddresses_exact {image : List UInt8} {imageSize : ℕ} {names : List (UInt8 × String)}
    {offsetsOffset relativeBaseOffset base : ℕ} {form : OffsetForm} {addresses entries : List ℕ}
    (hnames : addresses.length = names.length) (hform : List.Forall₂ (form.Encodes base) addresses entries)
    (htable : slice image offsetsOffset (4 * entries.length) = entries.flatMap (encodeLE 4))
    (hbase : slice image relativeBaseOffset 8 = encodeLE 8 base) (hlt : base < 2 ^ 64)
    (htext : ∃ kind, (base, kind, "_text") ∈ addresses.zip names) :
    decodeKallsymsAddresses image imageSize names offsetsOffset relativeBaseOffset = none ∨
      guessForm entries = form ∧
        decodeKallsymsAddresses image imageSize names offsetsOffset relativeBaseOffset =
          some ((addresses.zip names).map fun symbol => ⟨symbol.1, symbol.2.2⟩) := by
  cases hdecode : decodeKallsymsAddresses image imageSize names offsetsOffset relativeBaseOffset with
  | none => exact Or.inl rfl
  | some symbols =>
    right
    obtain ⟨base', decoded, hread, hkernel, hguess, hchecks, rfl⟩ := decodeKallsymsAddresses_some hdecode
    have hlength : entries.length = names.length := hform.length_eq.symm.trans hnames
    have hentries : ∀ e ∈ entries, e < 2 ^ 32 := by
      intro e he
      obtain ⟨i, hi, rfl⟩ := List.mem_iff_getElem.mp he
      exact (hform.get (by rw [hform.length_eq]; exact hi) hi).lt
    obtain rfl : base = base' := by
      have hword := readWord_of_slice (by decide) hbase (by omega)
      exact Except.ok.inj (hword.symm.trans hread)
    rw [← hlength, guessAddresses_eq htable hentries, mapM_eq_some] at hguess
    have hcount : decoded.length = entries.length := by
      have := congrArg List.length hguess
      rw [List.length_map, List.length_map] at this
      exact this.symm
    have hentry : ∀ i (hi : i < entries.length) (hd : i < decoded.length) (ha : i < addresses.length),
        decodeEntry base (guessForm entries) entries[i] = some decoded[i] ∧
          form.Encodes base addresses[i] entries[i] := by
      intro i hi hd ha
      refine ⟨?_, hform.get ha hi⟩
      have heq := List.getElem_of_eq hguess (by rw [List.length_map]; exact hi)
      rwa [List.getElem_map, List.getElem_map] at heq
    have hguessed : guessForm entries = form := by
      by_contra hother
      obtain ⟨kind, htext⟩ := htext
      obtain ⟨i, hi, hsymbol⟩ := List.mem_iff_getElem.mp htext
      rw [List.length_zip] at hi
      rw [List.getElem_zip, Prod.mk.injEq] at hsymbol
      obtain ⟨hdecoded, hencodes⟩ := hentry i (by omega) (by omega) (by omega)
      have hmem : (decoded[i], kind, "_text") ∈ decoded.zip names := by
        refine List.mem_iff_getElem.mpr ⟨i, by rw [List.length_zip]; omega, ?_⟩
        rw [List.getElem_zip, hsymbol.2]
      rw [isPlausible_text hchecks hmem] at hdecoded
      rw [hsymbol.1] at hencodes
      exact decodeEntry_other (isArm64KernelAddress_ge hkernel) hother hencodes hdecoded
    have hdecoded : decoded = addresses := by
      refine List.ext_getElem (by omega) fun i hd ha => ?_
      obtain ⟨hentry, hencodes⟩ := hentry i (by omega) hd ha
      rw [hguessed] at hentry
      exact decodeEntry_own hencodes hentry
    rw [hdecoded]
    exact ⟨hguessed, rfl⟩

/-- The two symbols of a small image, and the image. -/
def twoNames : List (UInt8 × String) := [(0x54, "_text"), (0x54, "_end")]

def twoImage : List UInt8 := encodeLE 4 0 ++ encodeLE 4 4096 ++ encodeLE 8 0xffffffc008000000

theorem decodeKallsymsAddresses_exact_two : decodeKallsymsAddresses twoImage 4096 twoNames 0 8 =
    some [⟨0xffffffc008000000, "_text"⟩, ⟨0xffffffc008001000, "_end"⟩] := by
  have hform : List.Forall₂ (OffsetForm.relative.Encodes 0xffffffc008000000)
      [0xffffffc008000000, 0xffffffc008001000] [0, 4096] :=
    .cons ⟨by decide, by decide⟩ (.cons ⟨by decide, by decide⟩ .nil)
  have htable : slice twoImage 0 (4 * [0, 4096].length) = [0, 4096].flatMap (encodeLE 4) := by decide
  have hbase : slice twoImage 8 8 = encodeLE 8 0xffffffc008000000 := by decide
  have hexact : decodeKallsymsAddresses twoImage 4096 twoNames 0 8 = none ∨ _ :=
    decodeKallsymsAddresses_exact rfl hform htable hbase (by decide) ⟨0x54, by decide⟩
  rcases hexact with h | h
  · exact absurd h (by decide)
  · exact h.2

end KernelSU.LkmImage
