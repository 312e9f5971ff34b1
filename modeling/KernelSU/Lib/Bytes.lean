import Mathlib.Data.List.Basic
import Mathlib.Data.Nat.Basic
import Mathlib.Tactic.Linarith
import Mathlib.Tactic.Ring

/-!
# Byte buffers: little-endian words, slices and in-place writes

A buffer is a list.  Everything the parsers and the writers of this development do to a buffer is one
of three things, and each comes here with the laws the later files cite:

* `encodeLE` / `decodeLE` — an unsigned word of a given number of bytes, least significant byte first.
  The two are inverse up to truncation (`decodeLE_encodeLE`, `encodeLE_decodeLE`);
* `slice l o n` — the `n` cells of `l` from offset `o` on.  The laws say how a slice sees an append
  (`slice_append_left`, `slice_append_right`) and a longer slice (`slice_slice`);
* `patch l o w` — `l` with the cells from offset `o` on overwritten by `w`.  The frame laws say that a
  patch is read back where it was written and is invisible elsewhere (`slice_patch_same`,
  `slice_patch_disjoint`, `getElem?_patch`).

Nothing here mentions a program: slices and patches are over an arbitrary cell type.
-/

namespace KernelSU.Lib.Bytes

/-! ### Little-endian words -/

/-- The unsigned integer a byte list stands for, least significant byte first. -/
def decodeLE : List UInt8 → ℕ
  | [] => 0
  | b :: bs => b.toNat + 256 * decodeLE bs

/-- The low `w` bytes of `v`, least significant byte first. -/
def encodeLE : ℕ → ℕ → List UInt8
  | 0, _ => []
  | w + 1, v => UInt8.ofNat v :: encodeLE w (v / 256)

@[simp] theorem encodeLE_length (w v : ℕ) : (encodeLE w v).length = w := by
  induction w generalizing v with
  | zero => rfl
  | succ w ih => simp [encodeLE, ih]

theorem decodeLE_lt (bs : List UInt8) : decodeLE bs < 256 ^ bs.length := by
  induction bs with
  | nil => simp [decodeLE]
  | cons b bs ih =>
    have hb : b.toNat < 256 := b.toNat_lt
    rw [decodeLE, List.length_cons, pow_succ]
    omega

/-- Writing a value and reading it back truncates it to the width of the word. -/
theorem decodeLE_encodeLE (w v : ℕ) : decodeLE (encodeLE w v) = v % 256 ^ w := by
  induction w generalizing v with
  | zero => simp [encodeLE, decodeLE, Nat.mod_one]
  | succ w ih =>
    have hlow : (UInt8.ofNat v).toNat = v % 256 := by simp
    rw [encodeLE, decodeLE, ih, hlow, pow_succ, Nat.mul_comm (256 ^ w) 256, Nat.mod_mul]

theorem decodeLE_encodeLE_of_lt (w v : ℕ) (h : v < 256 ^ w) : decodeLE (encodeLE w v) = v := by
  rw [decodeLE_encodeLE, Nat.mod_eq_of_lt h]

/-- A byte list is the word it stands for, written at its own width. -/
theorem encodeLE_decodeLE (bs : List UInt8) : encodeLE bs.length (decodeLE bs) = bs := by
  induction bs with
  | nil => rfl
  | cons b bs ih =>
    have hb : b.toNat < 256 := b.toNat_lt
    have hlow : UInt8.ofNat (b.toNat + 256 * decodeLE bs) = b := by
      apply UInt8.toNat_inj.mp
      rw [UInt8.toNat_ofNat']
      omega
    have hhigh : (b.toNat + 256 * decodeLE bs) / 256 = decodeLE bs := by omega
    rw [List.length_cons, decodeLE, encodeLE, hlow, hhigh, ih]

theorem encodeLE_of_decodeLE {bs : List UInt8} {w v : ℕ} (hw : bs.length = w)
    (hv : decodeLE bs = v) : bs = encodeLE w v := by
  rw [← hw, ← hv, encodeLE_decodeLE]

/-! ### Slices -/

variable {α : Type*}

/-- The `n` cells of `l` from offset `o` on (fewer when `l` ends before). -/
def slice (l : List α) (o n : ℕ) : List α := (l.drop o).take n

theorem slice_length (l : List α) (o n : ℕ) : (slice l o n).length = min n (l.length - o) := by
  rw [slice, List.length_take, List.length_drop]

theorem slice_length_of_le {l : List α} {o n : ℕ} (h : o + n ≤ l.length) :
    (slice l o n).length = n := by
  rw [slice_length]
  omega

@[simp] theorem slice_size_zero (l : List α) (o : ℕ) : slice l o 0 = [] := by simp [slice]

@[simp] theorem slice_full (l : List α) : slice l 0 l.length = l := by simp [slice]

theorem getElem?_slice (l : List α) (o n i : ℕ) :
    (slice l o n)[i]? = if i < n then l[o + i]? else none := by
  rw [slice, List.getElem?_take]
  split
  · rw [List.getElem?_drop]
  · rfl

/-- A slice of the left part of an append does not see the right part. -/
theorem slice_append_left (l r : List α) {o n : ℕ} (h : o + n ≤ l.length) :
    slice (l ++ r) o n = slice l o n := by
  apply List.ext_getElem?
  intro i
  rw [getElem?_slice, getElem?_slice]
  split
  · rw [List.getElem?_append_left (by omega)]
  · rfl

/-- A slice past the left part of an append is a slice of the right part. -/
theorem slice_append_right (l r : List α) (o n : ℕ) :
    slice (l ++ r) (l.length + o) n = slice r o n := by
  apply List.ext_getElem?
  intro i
  rw [getElem?_slice, getElem?_slice]
  split
  · rw [List.getElem?_append_right (by omega)]
    congr 1
    omega
  · rfl

theorem slice_append_right' (l r : List α) {k : ℕ} (hk : l.length = k) (o n : ℕ) :
    slice (l ++ r) (k + o) n = slice r o n := by
  rw [← hk, slice_append_right]

theorem slice_append_exact (l m r : List α) {o n : ℕ} (ho : l.length = o) (hn : m.length = n) :
    slice (l ++ (m ++ r)) o n = m := by
  have h := slice_append_right l (m ++ r) 0 n
  rw [Nat.add_zero, ho] at h
  rw [h, slice_append_left m r (by omega), ← hn, slice_full]

/-- A slice inside a slice is a slice of the whole. -/
theorem slice_slice (l : List α) {o n o' n' : ℕ} (h : o' + n' ≤ n) :
    slice (slice l o n) o' n' = slice l (o + o') n' := by
  apply List.ext_getElem?
  intro i
  rw [getElem?_slice, getElem?_slice, getElem?_slice]
  split
  · rw [if_pos (by omega)]
    congr 1
    omega
  · rfl

/-- A slice cell by cell. -/
theorem slice_eq_cons_iff {l w : List α} {o n : ℕ} {a : α} :
    slice l o (n + 1) = a :: w ↔ l[o]? = some a ∧ slice l (o + 1) n = w := by
  rw [slice, slice]
  cases ha : l[o]? with
  | none =>
    rw [List.drop_eq_nil_of_le (List.getElem?_eq_none_iff.mp ha)]
    simp
  | some b =>
    obtain ⟨ho, rfl⟩ := List.getElem?_eq_some_iff.mp ha
    rw [List.drop_eq_getElem_cons ho, List.take_succ_cons, List.cons.injEq, Option.some.injEq]

/-- Two words in a row are found one behind the other. -/
theorem slice_eq_append_iff {l v w : List α} {o : ℕ} :
    slice l o (v ++ w).length = v ++ w ↔ slice l o v.length = v ∧ slice l (o + v.length) w.length = w := by
  induction v generalizing o with
  | nil => simp
  | cons a v ih =>
    rw [List.cons_append, List.length_cons, List.length_cons, slice_eq_cons_iff, slice_eq_cons_iff, ih, and_assoc,
      Nat.add_right_comm, Nat.add_assoc]

/-- Pieces of one length in a row. -/
theorem flatMap_length_const {β : Type*} {f : β → List α} {w : ℕ} (hf : ∀ b, (f b).length = w) (xs : List β) :
    (xs.flatMap f).length = xs.length * w := by
  induction xs with
  | nil => rw [List.flatMap_nil, List.length_nil, List.length_nil, Nat.zero_mul]
  | cons x xs ih => rw [List.flatMap_cons, List.length_append, hf, ih, List.length_cons, Nat.succ_mul, Nat.add_comm]

/-- The piece with this index is found at its stride. -/
theorem slice_flatMap_const {β : Type*} {f : β → List α} {w : ℕ} (hf : ∀ b, (f b).length = w) {xs : List β} {i : ℕ}
    {b : β} (h : xs[i]? = some b) : slice (xs.flatMap f) (w * i) w = f b := by
  induction xs generalizing i with
  | nil => cases h
  | cons x xs ih =>
    rw [List.flatMap_cons]
    cases i with
    | zero =>
      obtain rfl := Option.some.inj h
      rw [Nat.mul_zero, slice_append_left _ _ (by rw [hf]; omega), ← hf x, slice_full]
    | succ i =>
      rw [Nat.mul_succ, Nat.add_comm, slice_append_right' _ _ (hf x), ih h]

/-- Two neighbouring slices make one. -/
theorem slice_append_slice (l : List α) (o m n : ℕ) (h : o + m ≤ l.length) :
    slice l o m ++ slice l (o + m) n = slice l o (m + n) := by
  have hlen : (slice l o m).length = m := slice_length_of_le h
  apply List.ext_getElem?
  intro i
  rcases Nat.lt_or_ge i m with him | him
  · rw [List.getElem?_append_left (by omega), getElem?_slice, getElem?_slice, if_pos him,
      if_pos (by omega)]
  · rw [List.getElem?_append_right (by omega), getElem?_slice, getElem?_slice, hlen]
    rcases Nat.lt_or_ge i (m + n) with hin | hin
    · rw [if_pos (by omega), if_pos hin]
      congr 1
      omega
    · rw [if_neg (by omega), if_neg (by omega)]

/-! ### In-place writes -/

/-- `l` with the cells from offset `o` on overwritten by `w`. -/
def patch (l : List α) (o : ℕ) (w : List α) : List α :=
  l.take o ++ (w ++ l.drop (o + w.length))

theorem patch_length {l : List α} {o : ℕ} {w : List α} (h : o + w.length ≤ l.length) :
    (patch l o w).length = l.length := by
  simp only [patch, List.length_append, List.length_take, List.length_drop]
  omega

/-- **Frame law.**  A patched buffer holds the patch inside its range and the old cells outside. -/
theorem getElem?_patch {l : List α} {o : ℕ} {w : List α} (h : o + w.length ≤ l.length) (i : ℕ) :
    (patch l o w)[i]? = if o ≤ i ∧ i < o + w.length then w[i - o]? else l[i]? := by
  have hto : (l.take o).length = o := by rw [List.length_take]; omega
  rcases Nat.lt_or_ge i o with hlt | hge
  · rw [if_neg (by omega), patch, List.getElem?_append_left (by omega),
      List.getElem?_take_of_lt hlt]
  · rw [patch, List.getElem?_append_right (by omega), hto]
    rcases Nat.lt_or_ge i (o + w.length) with hin | hout
    · rw [if_pos ⟨hge, hin⟩, List.getElem?_append_left (by omega)]
    · rw [if_neg (by omega), List.getElem?_append_right (by omega), List.getElem?_drop]
      congr 1
      omega

/-- What was written is read back. -/
theorem slice_patch_same {l : List α} {o : ℕ} {w : List α} (h : o + w.length ≤ l.length) :
    slice (patch l o w) o w.length = w := by
  rw [patch]
  exact slice_append_exact _ _ _ (by rw [List.length_take]; omega) rfl

/-- A read that does not meet the patch sees the old buffer. -/
theorem slice_patch_disjoint {l : List α} {o : ℕ} {w : List α} (h : o + w.length ≤ l.length)
    {o' n' : ℕ} (hd : o' + n' ≤ o ∨ o + w.length ≤ o') :
    slice (patch l o w) o' n' = slice l o' n' := by
  apply List.ext_getElem?
  intro i
  rw [getElem?_slice, getElem?_slice]
  split
  · rw [getElem?_patch h, if_neg (by omega)]
  · rfl

/-- Writing back what is already there changes nothing. -/
theorem patch_slice_self {l : List α} {o n : ℕ} (h : o + n ≤ l.length) :
    patch l o (slice l o n) = l := by
  have hlen : (slice l o n).length = n := slice_length_of_le h
  apply List.ext_getElem?
  intro i
  rw [getElem?_patch (by omega), hlen, getElem?_slice]
  split
  · rw [if_pos (by omega)]
    congr 1
    omega
  · rfl

/-- Two patches next to each other are one. -/
theorem patch_append {l : List α} {o : ℕ} {v w : List α} (h : o + v.length + w.length ≤ l.length) :
    patch (patch l o v) (o + v.length) w = patch l o (v ++ w) := by
  have hfirst : o + v.length ≤ l.length := by omega
  have hboth : o + (v ++ w).length ≤ l.length := by rw [List.length_append]; omega
  apply List.ext_getElem?
  intro i
  rw [getElem?_patch (by rw [patch_length hfirst]; exact h), getElem?_patch hfirst, getElem?_patch hboth,
    List.length_append]
  by_cases hv : o ≤ i ∧ i < o + v.length
  · rw [if_neg (by omega), if_pos hv, if_pos (by omega), List.getElem?_append_left (by omega)]
  · by_cases hw : o + v.length ≤ i ∧ i < o + v.length + w.length
    · rw [if_pos hw, if_pos (by omega), List.getElem?_append_right (by omega)]
      congr 1
      omega
    · rw [if_neg hw, if_neg hv, if_neg (by omega)]

/-! ### Strings in a buffer -/

/-- The bytes before the first NUL, all of them if there is none. -/
def cString (bs : List UInt8) : List UInt8 := bs.takeWhile (· != 0)

end KernelSU.Lib.Bytes
