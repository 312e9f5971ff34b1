import KernelSU.Lib.Bytes

/-!
# Readers of bytes

A reader takes bytes off the front of its input, or fails.

* `Exact` — a reader that takes certain bytes whatever follows them, and fails when the input ends among them;
* `Exact.bind` — **PROVED**: such readers compose, and so do the bytes.
-/

namespace KernelSU.Lib

open Bytes

variable {ε α β : Type}

/-- A reader. -/
abbrev ByteReader (ε : Type) := StateT (List UInt8) (Except ε)

namespace ByteReader

/-- The next `n` bytes. -/
def takeBytes (n : ℕ) (e : ε) : ByteReader ε (List UInt8) := fun bs =>
  if n ≤ bs.length then .ok (bs.take n, bs.drop n) else .error e

/-- The next `n` bytes as a number, the lowest byte first. -/
def takeLE (n : ℕ) (e : ε) : ByteReader ε ℕ := decodeLE <$> takeBytes n e

/-- The reader takes `bs` for `a`, and not less. -/
structure Exact (p : ByteReader ε α) (bs : List UInt8) (a : α) : Prop where
  reads : ∀ rest, p (bs ++ rest) = .ok (a, rest)
  short : ∀ t, t <+: bs → t ≠ bs → ∃ e, p t = .error e

theorem Exact.reads_all {p : ByteReader ε α} {bs : List UInt8} {a : α} (h : Exact p bs a) : p bs = .ok (a, []) := by
  have hreads := h.reads []
  rwa [List.append_nil] at hreads

theorem Exact.pure (a : α) : Exact (Pure.pure a : ByteReader ε α) [] a := by
  refine ⟨fun rest => rfl, fun t ht hne => ?_⟩
  exact absurd (List.prefix_nil.mp ht) hne

/-- **Composition.**  What the first reader leaves is read by the second. -/
theorem Exact.bind {p : ByteReader ε α} {q : α → ByteReader ε β} {bs cs : List UInt8} {a : α} {b : β}
    (hp : Exact p bs a) (hq : Exact (q a) cs b) : Exact (p >>= q) (bs ++ cs) b := by
  have hbind : ∀ t, (p >>= q) t = (p t >>= fun r => q r.1 r.2) := fun t => rfl
  constructor
  · intro rest
    rw [hbind, List.append_assoc, hp.reads]
    exact hq.reads rest
  · intro t ht hne
    rcases List.prefix_or_prefix_of_prefix ht (List.prefix_append bs cs) with hshort | ⟨t', rfl⟩
    · by_cases hbs : t = bs
      · -- the input ends between the two
        subst hbs
        have hcs : [] ≠ cs := by
          rintro rfl
          exact hne (List.append_nil t).symm
        obtain ⟨e, he⟩ := hq.short [] (List.nil_prefix) hcs
        refine ⟨e, ?_⟩
        rw [hbind, hp.reads_all]
        exact he
      · obtain ⟨e, he⟩ := hp.short t hshort hbs
        refine ⟨e, ?_⟩
        rw [hbind, he]
        rfl
    · have ht' : t' <+: cs := (List.prefix_append_right_inj bs).mp ht
      obtain ⟨e, he⟩ := hq.short t' ht' fun heq => hne (congrArg _ heq)
      refine ⟨e, ?_⟩
      rw [hbind, hp.reads]
      exact he

theorem Exact.takeBytes {bs : List UInt8} (e : ε) : Exact (takeBytes bs.length e) bs bs := by
  constructor
  · intro rest
    rw [ByteReader.takeBytes, if_pos (by rw [List.length_append]; omega), List.take_left, List.drop_left]
  · intro t ht hne
    have hlt : t.length < bs.length := Nat.lt_of_le_of_ne ht.length_le fun heq => hne (ht.eq_of_length heq)
    exact ⟨e, if_neg (Nat.not_le.mpr hlt)⟩

theorem Exact.map {p : ByteReader ε α} {bs : List UInt8} {a : α} (h : Exact p bs a) (f : α → β) :
    Exact (f <$> p) bs (f a) := by
  have hmap : ∀ t, (f <$> p) t = (p t).map fun r => (f r.1, r.2) := fun t => rfl
  constructor
  · intro rest
    rw [hmap, h.reads]
    rfl
  · intro t ht hne
    obtain ⟨e, he⟩ := h.short t ht hne
    refine ⟨e, ?_⟩
    rw [hmap, he]
    rfl

theorem Exact.takeLE {n v : ℕ} (hv : v < 256 ^ n) (e : ε) : Exact (takeLE n e) (encodeLE n v) v := by
  have h : Exact (ByteReader.takeBytes (encodeLE n v).length e) (encodeLE n v) (encodeLE n v) := Exact.takeBytes e
  have hmap := h.map decodeLE
  rwa [encodeLE_length, decodeLE_encodeLE_of_lt n v hv] at hmap

end ByteReader

end KernelSU.Lib
