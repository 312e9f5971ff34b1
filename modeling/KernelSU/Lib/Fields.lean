import KernelSU.Lib.Bytes

/-!
# Fields behind their lengths

`HasAt l o w` says that `w` stands in `l` at offset `o`.  A *field* is preceded by its length, a word of `k`
bytes; formats nest fields in fields.

* `hasAt_append` — **PROVED**: what stands there in two parts;
* `HasAt.field` — **PROVED**: where the field and the rest stand;
* `hasAt_field` — **PROVED**: a length that leaves room for its field makes one.
-/

namespace KernelSU.Lib.Bytes

variable {α : Type*}

/-- `w` stands in `l` at offset `o`. -/
def HasAt (l : List α) (o : ℕ) (w : List α) : Prop := o + w.length ≤ l.length ∧ slice l o w.length = w

theorem hasAt_slice {l : List α} {o n : ℕ} (h : o + n ≤ l.length) : HasAt l o (slice l o n) := by
  have hlength := slice_length_of_le h
  refine ⟨by omega, ?_⟩
  rw [hlength]

theorem hasAt_full (l : List α) : HasAt l 0 l := ⟨by omega, slice_full l⟩

/-- **Two parts**, one after the other. -/
theorem hasAt_append {l : List α} {o : ℕ} {v w : List α} :
    HasAt l o (v ++ w) ↔ HasAt l o v ∧ HasAt l (o + v.length) w := by
  constructor
  · rintro ⟨hfits, heq⟩
    rw [List.length_append] at hfits heq
    have hleft : slice (slice l o (v.length + w.length)) 0 v.length = slice l o v.length :=
      slice_slice l (by omega)
    have hright : slice (slice l o (v.length + w.length)) v.length w.length = slice l (o + v.length) w.length :=
      slice_slice l (by omega)
    rw [heq] at hleft hright
    rw [slice_append_left v w (by omega), slice_full] at hleft
    rw [← Nat.add_zero v.length, slice_append_right, slice_full, Nat.add_zero] at hright
    exact ⟨⟨by omega, hleft.symm⟩, ⟨by omega, hright.symm⟩⟩
  · rintro ⟨⟨hfits, hv⟩, ⟨hfits', hw⟩⟩
    refine ⟨by rw [List.length_append]; omega, ?_⟩
    rw [List.length_append, ← slice_append_slice l o _ _ hfits, hv, hw]

theorem HasAt.slice_eq {l : List α} {o n : ℕ} {w : List α} (h : HasAt l o w) (hn : w.length = n) :
    slice l o n = w := by
  rw [← hn, h.2]

/-- At most one list of a length stands at an offset. -/
theorem HasAt.unique {l : List α} {o : ℕ} {v w : List α} (hv : HasAt l o v) (hw : HasAt l o w)
    (hlength : v.length = w.length) : v = w := by
  rw [← hv.2, ← hw.2, hlength]

/-- The word that a list ends or goes on after. -/
theorem HasAt.word {l : List UInt8} {o k v : ℕ} (h : HasAt l o (encodeLE k v)) (hv : v < 256 ^ k) :
    decodeLE (slice l o k) = v := by
  rw [h.slice_eq (encodeLE_length k v), decodeLE_encodeLE_of_lt k v hv]

theorem hasAt_word {l : List UInt8} {o k : ℕ} (h : o + k ≤ l.length) :
    HasAt l o (encodeLE k (decodeLE (slice l o k))) := by
  have hword : encodeLE k (decodeLE (slice l o k)) = slice l o k :=
    (encodeLE_of_decodeLE (slice_length_of_le h) rfl).symm
  rw [hword]
  exact hasAt_slice h

/-! ### Fields -/

/-- `bytes` are a field, whose length is a word of `k` bytes, and a rest. -/
def LengthField (k : ℕ) (bytes field rest : List UInt8) : Prop :=
  field.length < 256 ^ k ∧ bytes = encodeLE k field.length ++ (field ++ rest)

theorem LengthField.length_eq {k : ℕ} {bytes field rest : List UInt8} (h : LengthField k bytes field rest) :
    k + field.length + rest.length = bytes.length := by
  rw [h.2, List.length_append, List.length_append, encodeLE_length, Nat.add_assoc]

/-- **A field** of what stands there. -/
theorem HasAt.field {l bytes field rest : List UInt8} {o k : ℕ} (h : HasAt l o bytes)
    (hfield : LengthField k bytes field rest) :
    decodeLE (slice l o k) = field.length ∧ HasAt l (o + k) field ∧ HasAt l (o + k + field.length) rest := by
  obtain ⟨hlt, rfl⟩ := hfield
  obtain ⟨hword, hbehind⟩ := hasAt_append.mp h
  rw [encodeLE_length] at hbehind
  obtain ⟨hfield, hrest⟩ := hasAt_append.mp hbehind
  exact ⟨hword.word hlt, hfield, hrest⟩

/-- **A length that leaves room** for its field. -/
theorem hasAt_field {l bytes : List UInt8} {o k n : ℕ} (h : HasAt l o bytes) (hn : decodeLE (slice l o k) = n)
    (hroom : k + n ≤ bytes.length) :
    LengthField k bytes (slice l (o + k) n) (slice l (o + k + n) (bytes.length - (k + n))) := by
  have hfits := h.1
  have hfield : (slice l (o + k) n).length = n := slice_length_of_le (by omega)
  have hlt : n < 256 ^ k := by
    have hword := decodeLE_lt (slice l o k)
    rw [slice_length_of_le (by omega), hn] at hword
    exact hword
  have hword := hasAt_word (l := l) (o := o) (k := k) (by omega)
  rw [hn] at hword
  refine ⟨by rw [hfield]; exact hlt, h.unique (hasAt_append.mpr ⟨by rw [hfield]; exact hword, ?_⟩) ?_⟩
  · rw [encodeLE_length]
    refine hasAt_append.mpr ⟨hasAt_slice (by omega), ?_⟩
    rw [hfield]
    exact hasAt_slice (by omega)
  · rw [List.length_append, List.length_append, encodeLE_length, hfield, slice_length_of_le (by omega)]
    omega

end KernelSU.Lib.Bytes
