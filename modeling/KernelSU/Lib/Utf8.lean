import KernelSU.Lib.Utf16

/-!
# UTF-8, with replacement

A byte string that need not be UTF-8 is decoded to the end: each longest beginning of a character that is
no character gives one U+FFFD, and decoding goes on behind it.

* `utf8Next_encode` — **PROVED**: an encoded character is decoded, whatever follows it;
* `fromUtf8Lossy_encode` — **PROVED**: on UTF-8 nothing is replaced;
* `fromUtf8_eq_some_iff` — **PROVED**: decoding without replacement accepts exactly the encodings.
-/

namespace KernelSU.Lib

/-- U+FFFD. -/
def replacementCharacter : Char := Char.ofNat 0xFFFD

/-- What a first byte announces: how many more bytes, the range of the first of them, and its own bits of
the code point. -/
def utf8First (b : ℕ) : Option (ℕ × ℕ × ℕ × ℕ) :=
  if b < 0x80 then some (0, 0x80, 0xBF, b)
  else if 0xC2 ≤ b ∧ b ≤ 0xDF then some (1, 0x80, 0xBF, b % 0x20)
  else if b = 0xE0 then some (2, 0xA0, 0xBF, b % 0x10)
  else if b = 0xED then some (2, 0x80, 0x9F, b % 0x10)
  else if 0xE1 ≤ b ∧ b ≤ 0xEF then some (2, 0x80, 0xBF, b % 0x10)
  else if b = 0xF0 then some (3, 0x90, 0xBF, b % 0x08)
  else if b = 0xF4 then some (3, 0x80, 0x8F, b % 0x08)
  else if 0xF1 ≤ b ∧ b ≤ 0xF3 then some (3, 0x80, 0xBF, b % 0x08)
  else none

/-- Take `n` more bytes, the first of them in the given range; `none` stops at a byte that does not fit. -/
def utf8Tails : ℕ → ℕ → ℕ → ℕ → List UInt8 → Option ℕ × List UInt8
  | 0, _, _, v, bs => (some v, bs)
  | _ + 1, _, _, _, [] => (none, [])
  | n + 1, lo, hi, v, b :: bs =>
    if lo ≤ b.toNat ∧ b.toNat ≤ hi then utf8Tails n 0x80 0xBF (v * 64 + b.toNat % 64) bs
    else (none, b :: bs)

/-- The next character, and what follows it. -/
def utf8Next (b : UInt8) (bs : List UInt8) : Char × List UInt8 :=
  match utf8First b.toNat with
  | none => (replacementCharacter, bs)
  | some (n, lo, hi, v) =>
    match utf8Tails n lo hi v bs with
    | (some v, rest) => (Char.ofNat v, rest)
    | (none, rest) => (replacementCharacter, rest)

/-- At most `fuel` characters of a byte string. -/
def fromUtf8LossyFuel : ℕ → List UInt8 → List Char
  | 0, _ => []
  | _ + 1, [] => []
  | fuel + 1, b :: bs => (utf8Next b bs).1 :: fromUtf8LossyFuel fuel (utf8Next b bs).2

/-- `String::from_utf8_lossy`. -/
def fromUtf8Lossy (bs : List UInt8) : List Char := fromUtf8LossyFuel bs.length bs

/-! ### Encoded characters -/

/-- A byte that fits is taken. -/
theorem utf8Tails_cons {n lo hi v t : ℕ} (hlo : lo ≤ t) (hhi : t ≤ hi) (hbyte : t < 256)
    (bs : List UInt8) :
    utf8Tails (n + 1) lo hi v (UInt8.ofNat t :: bs) = utf8Tails n 0x80 0xBF (v * 64 + t % 64) bs := by
  have hval : (UInt8.ofNat t).toNat = t := by
    rw [UInt8.toNat_ofNat', Nat.mod_eq_of_lt hbyte]
  rw [utf8Tails, hval, if_pos ⟨hlo, hhi⟩]

theorem utf8Next_of_tails {b n lo hi v v' : ℕ} {bs rest : List UInt8} (hbyte : b < 256)
    (hfirst : utf8First b = some (n, lo, hi, v)) (htails : utf8Tails n lo hi v bs = (some v', rest)) :
    utf8Next (UInt8.ofNat b) bs = (Char.ofNat v', rest) := by
  have hval : (UInt8.ofNat b).toNat = b := by
    rw [UInt8.toNat_ofNat', Nat.mod_eq_of_lt hbyte]
  simp only [utf8Next, hval, hfirst, htails]

theorem utf8Next_two {v : ℕ} (hlo : 0x7f < v) (hhi : v ≤ 0x7ff) (rest : List UInt8) :
    utf8Next (UInt8.ofNat (v / 64 % 0x20 + 0xc0)) (UInt8.ofNat (v % 0x40 + 0x80) :: rest) =
      (Char.ofNat v, rest) := by
  have hfirst : utf8First (v / 64 % 0x20 + 0xc0) = some (1, 0x80, 0xBF, v / 64) := by
    rw [utf8First, if_neg (by omega), if_pos (by omega)]
    congr 4
    omega
  refine utf8Next_of_tails (by omega) hfirst ?_
  rw [utf8Tails_cons (by omega) (by omega) (by omega), utf8Tails]
  congr 2
  omega

/-- The first bytes E0 and ED narrow the range of the second byte. -/
theorem utf8First_three {v : ℕ} (hlo : 0x7ff < v) (hhi : v ≤ 0xffff) (hvalid : v < 0xD800 ∨ 0xDFFF < v) :
    ∃ lo hi, utf8First (v / 4096 % 0x10 + 0xe0) = some (2, lo, hi, v / 4096) ∧
      lo ≤ v / 64 % 0x40 + 0x80 ∧ v / 64 % 0x40 + 0x80 ≤ hi := by
  have hbits : (v / 4096 % 0x10 + 0xe0) % 0x10 = v / 4096 := by omega
  rw [utf8First, if_neg (by omega), if_neg (by omega), hbits]
  split_ifs
  · exact ⟨_, _, rfl, by omega, by omega⟩
  · exact ⟨_, _, rfl, by omega, by omega⟩
  · exact ⟨_, _, rfl, by omega, by omega⟩
  all_goals omega

theorem utf8Next_three {v : ℕ} (hlo : 0x7ff < v) (hhi : v ≤ 0xffff) (hvalid : v < 0xD800 ∨ 0xDFFF < v)
    (rest : List UInt8) :
    utf8Next (UInt8.ofNat (v / 4096 % 0x10 + 0xe0))
      (UInt8.ofNat (v / 64 % 0x40 + 0x80) :: UInt8.ofNat (v % 0x40 + 0x80) :: rest) =
      (Char.ofNat v, rest) := by
  obtain ⟨lo, hi, hfirst, hl, hh⟩ := utf8First_three hlo hhi hvalid
  refine utf8Next_of_tails (by omega) hfirst ?_
  rw [utf8Tails_cons hl hh (by omega), utf8Tails_cons (by omega) (by omega) (by omega), utf8Tails]
  congr 2
  omega

/-- So do F0 and F4. -/
theorem utf8First_four {v : ℕ} (hlo : 0xffff < v) (hhi : v < 0x110000) :
    ∃ lo hi, utf8First (v / 262144 % 0x08 + 0xf0) = some (3, lo, hi, v / 262144) ∧
      lo ≤ v / 4096 % 0x40 + 0x80 ∧ v / 4096 % 0x40 + 0x80 ≤ hi := by
  have hbits : (v / 262144 % 0x08 + 0xf0) % 0x08 = v / 262144 := by omega
  rw [utf8First, if_neg (by omega), if_neg (by omega), if_neg (by omega), if_neg (by omega),
    if_neg (by omega), hbits]
  split_ifs
  · exact ⟨_, _, rfl, by omega, by omega⟩
  · exact ⟨_, _, rfl, by omega, by omega⟩
  · exact ⟨_, _, rfl, by omega, by omega⟩
  all_goals omega

theorem utf8Next_four {v : ℕ} (hlo : 0xffff < v) (hhi : v < 0x110000) (rest : List UInt8) :
    utf8Next (UInt8.ofNat (v / 262144 % 0x08 + 0xf0))
      (UInt8.ofNat (v / 4096 % 0x40 + 0x80) :: UInt8.ofNat (v / 64 % 0x40 + 0x80) ::
        UInt8.ofNat (v % 0x40 + 0x80) :: rest) =
      (Char.ofNat v, rest) := by
  obtain ⟨lo, hi, hfirst, hl, hh⟩ := utf8First_four hlo hhi
  refine utf8Next_of_tails (by omega) hfirst ?_
  rw [utf8Tails_cons hl hh (by omega), utf8Tails_cons (by omega) (by omega) (by omega),
    utf8Tails_cons (by omega) (by omega) (by omega), utf8Tails]
  congr 2
  omega

/-- **An encoded character is decoded**, whatever follows it. -/
theorem utf8Next_encode (c : Char) : ∃ b tl, String.utf8EncodeChar c = b :: tl ∧
    ∀ rest, utf8Next b (tl ++ rest) = (c, rest) := by
  have hmax := toNat_lt_unicode c
  have hvalid : c.toNat < 0xD800 ∨ 0xDFFF < c.toNat := by
    have h : c.toNat.isValidChar := c.valid
    rcases h with h | h
    · exact .inl h
    · exact .inr h.1
  have hback : Char.ofNat c.toNat = c := Char.ofNat_toNat c
  have hv : c.val.toNat = c.toNat := rfl
  rw [String.utf8EncodeChar]
  simp only [hv]
  generalize c.toNat = v at hmax hvalid hback ⊢
  rw [← hback]
  split_ifs with h₁ h₂ h₃
  · have hfirst : utf8First v = some (0, 0x80, 0xBF, v) := by rw [utf8First, if_pos (by omega)]
    exact ⟨_, _, rfl, fun rest => utf8Next_of_tails (by omega) hfirst rfl⟩
  · exact ⟨_, _, rfl, utf8Next_two (by omega) (by omega)⟩
  · exact ⟨_, _, rfl, utf8Next_three (by omega) (by omega) hvalid⟩
  · exact ⟨_, _, rfl, utf8Next_four (by omega) hmax⟩

/-- **On UTF-8 nothing is replaced.** -/
theorem fromUtf8Lossy_encode (s : List Char) : fromUtf8Lossy (s.flatMap String.utf8EncodeChar) = s := by
  have hfuel : ∀ fuel, (s.flatMap String.utf8EncodeChar).length ≤ fuel →
      fromUtf8LossyFuel fuel (s.flatMap String.utf8EncodeChar) = s := by
    induction s with
    | nil =>
      intro fuel _
      cases fuel <;> rfl
    | cons c s ih =>
      intro fuel hlen
      obtain ⟨b, tl, hc, hnext⟩ := utf8Next_encode c
      rw [List.flatMap_cons, hc, List.cons_append] at hlen ⊢
      rw [List.length_cons, List.length_append] at hlen
      cases fuel with
      | zero => omega
      | succ fuel =>
        rw [fromUtf8LossyFuel, hnext, ih fuel (by omega)]
  exact hfuel _ le_rfl

/-- `String::from_utf8`: decoding that replaces nothing. -/
def fromUtf8 (bs : List UInt8) : Option (List Char) :=
  if (fromUtf8Lossy bs).flatMap String.utf8EncodeChar = bs then some (fromUtf8Lossy bs) else none

/-- **What is decoded is what was encoded.** -/
theorem fromUtf8_eq_some_iff {bs : List UInt8} {s : List Char} :
    fromUtf8 bs = some s ↔ s.flatMap String.utf8EncodeChar = bs := by
  constructor
  · intro h
    obtain ⟨heq, hs⟩ := Option.ite_none_right_eq_some.mp h
    rw [← Option.some.inj hs]
    exact heq
  · rintro rfl
    rw [fromUtf8, fromUtf8Lossy_encode, if_pos rfl]

/-! ### Texts -/

/-- The bytes of a text. -/
def asBytes (s : String) : List UInt8 := s.toList.flatMap String.utf8EncodeChar

/-- `fromUtf8` as a text. -/
def textFromUtf8 (bs : List UInt8) : Option String := (fromUtf8 bs).map String.ofList

theorem textFromUtf8_eq_some_iff {bs : List UInt8} {s : String} : textFromUtf8 bs = some s ↔ asBytes s = bs := by
  rw [textFromUtf8, Option.map_eq_some_iff]
  constructor
  · rintro ⟨cs, hcs, rfl⟩
    rw [asBytes, String.toList_ofList]
    exact fromUtf8_eq_some_iff.mp hcs
  · intro h
    exact ⟨s.toList, fromUtf8_eq_some_iff.mpr h, String.ofList_toList⟩

end KernelSU.Lib
