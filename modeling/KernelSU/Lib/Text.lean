import Mathlib.Data.List.Basic
import Mathlib.Data.List.DropRight
import Mathlib.Tactic.Ring

/-!
# Searching and splitting text

* `findPattern_eq_some_iff`, `findPattern_eq_none_iff` — **PROVED**: where a pattern is first found;
* `findPattern_take` — **PROVED**: cutting the text keeps what is found in front of the cut;
* `words_append` — **PROVED**: the first word of a text;
* `rsplitOnce_append` — **PROVED**: a text is cut at the last of a character;
* `hexDigitsValue_hexText` — **PROVED**: hexadecimal digits read back;
* `parseUnsigned_toDigits` — **PROVED**: so do the decimal digits of a number that fits.
-/

namespace KernelSU.Lib

variable {α : Type*}

/-! ### Patterns -/

section Pattern

variable {pattern : List α}

/-- What stands in front of a cut stood there before. -/
theorem prefix_drop_take_iff {s : List α} {n i : ℕ} :
    pattern <+: (s.take n).drop i ↔ pattern <+: s.drop i ∧ pattern.length ≤ n - i := by
  rw [List.drop_take, List.prefix_take_iff]

/-- A token inside a pattern's place is one of the pattern's. -/
theorem mem_of_prefix_drop {s : List α} {i j : ℕ} {c : α} (hpattern : pattern <+: s.drop i) (hc : [c] <+: s.drop j)
    (hij : i ≤ j) (hj : j < i + pattern.length) : c ∈ pattern := by
  have hlt : j - i < pattern.length := by omega
  have hthere : s[j]? = some c := by
    have hhead := List.prefix_iff_getElem?.mp hc 0 (by simp)
    rw [List.getElem?_drop, Nat.add_zero] at hhead
    exact hhead
  have hsame := List.prefix_iff_getElem?.mp hpattern (j - i) hlt
  rw [List.getElem?_drop, Nat.add_sub_cancel' hij, hthere] at hsame
  rw [Option.some.inj hsame]
  exact List.getElem_mem hlt

variable [DecidableEq α]

/-- The first position at which the text goes on with the pattern. -/
def findPattern (pattern : List α) : List α → Option ℕ
  | [] => if pattern = [] then some 0 else none
  | c :: cs => if pattern <+: c :: cs then some 0 else (findPattern pattern cs).map (· + 1)

theorem findPattern_eq_none_iff (hpattern : pattern ≠ []) (s : List α) :
    findPattern pattern s = none ↔ ∀ i, ¬pattern <+: s.drop i := by
  induction s with
  | nil =>
    refine ⟨fun _ i h => hpattern ?_, fun _ => if_neg hpattern⟩
    rw [List.drop_nil] at h
    exact List.prefix_nil.mp h
  | cons c cs ih =>
    unfold findPattern
    split
    · rename_i hhere
      exact ⟨fun h => absurd h (Option.some_ne_none 0), fun h => absurd hhere (h 0)⟩
    · rename_i hhere
      rw [Option.map_eq_none_iff, ih]
      constructor
      · intro h i
        cases i with
        | zero => exact hhere
        | succ i => exact h i
      · exact fun h i => h (i + 1)

theorem findPattern_eq_some_iff (hpattern : pattern ≠ []) (s : List α) (i : ℕ) :
    findPattern pattern s = some i ↔ pattern <+: s.drop i ∧ ∀ j < i, ¬pattern <+: s.drop j := by
  induction s generalizing i with
  | nil =>
    refine ⟨fun h => ?_, fun h => absurd h.1 ?_⟩
    · rw [findPattern, if_neg hpattern] at h
      cases h
    · rw [List.drop_nil]
      exact fun hnil => hpattern (List.prefix_nil.mp hnil)
  | cons c cs ih =>
    unfold findPattern
    split
    · rename_i hhere
      constructor
      · rintro ⟨⟩
        exact ⟨hhere, fun j hj => absurd hj (Nat.not_lt_zero j)⟩
      · rintro ⟨-, hfirst⟩
        cases i with
        | zero => rfl
        | succ i => exact absurd hhere (hfirst 0 (Nat.succ_pos i))
    · rename_i hhere
      cases i with
      | zero => simp [hhere]
      | succ i =>
        rw [Option.map_eq_some_iff]
        constructor
        · rintro ⟨j, hj, hji⟩
          obtain rfl := Nat.succ.inj hji
          obtain ⟨hfound, hfirst⟩ := (ih j).mp hj
          refine ⟨hfound, fun k hk => ?_⟩
          cases k with
          | zero => exact hhere
          | succ k => exact hfirst k (Nat.lt_of_succ_lt_succ hk)
        · rintro ⟨hfound, hfirst⟩
          exact ⟨i, (ih i).mpr ⟨hfound, fun k hk => hfirst (k + 1) (Nat.succ_lt_succ hk)⟩, rfl⟩

/-- **Cutting the text** keeps what is found in front of the cut. -/
theorem findPattern_take (hpattern : pattern ≠ []) {s : List α} {i n : ℕ}
    (h : findPattern pattern s = some i) (hn : i + pattern.length ≤ n) :
    findPattern pattern (s.take n) = some i := by
  rw [findPattern_eq_some_iff hpattern] at h ⊢
  refine ⟨prefix_drop_take_iff.mpr ⟨h.1, by omega⟩, fun j hj hfound => ?_⟩
  exact h.2 j hj (prefix_drop_take_iff.mp hfound).1

/-- In front of the place where it is first found there is no pattern. -/
theorem findPattern_take_eq_none (hpattern : pattern ≠ []) {s : List α} {n : ℕ}
    (h : ∀ i, i + pattern.length ≤ n → ¬pattern <+: s.drop i) : findPattern pattern (s.take n) = none := by
  rw [findPattern_eq_none_iff hpattern]
  intro i hfound
  rcases Nat.lt_or_ge n i with hi | hi
  · have hnil : (s.take n).drop i = [] :=
      List.drop_eq_nil_of_le (Nat.le_of_lt (Nat.lt_of_le_of_lt (List.length_take_le n s) hi))
    rw [hnil] at hfound
    exact hpattern (List.prefix_nil.mp hfound)
  · have hlength := List.length_pos_iff.mpr hpattern
    obtain ⟨hthere, hle⟩ := prefix_drop_take_iff.mp hfound
    exact h i (by omega) hthere

end Pattern

/-! ### Words -/

/-- The words between separators. -/
def words (p : α → Bool) (s : List α) : List (List α) := (s.splitOnP p).filter fun w => !w.isEmpty

theorem words_append {p : α → Bool} {w : List α} (hw : ∀ c ∈ w, p c = false) (hne : w ≠ []) {c : α}
    (hc : p c = true) (rest : List α) : words p (w ++ c :: rest) = w :: words p rest := by
  unfold words
  rw [List.splitOnP_append_cons_of_forall_mem hw c hc, List.filter_cons_of_pos]
  cases w with
  | nil => exact absurd rfl hne
  | cons c cs => rfl

theorem words_singleton {p : α → Bool} {w : List α} (hw : ∀ c ∈ w, p c = false) (hne : w ≠ []) :
    words p w = [w] := by
  unfold words
  rw [List.splitOnP_eq_singleton hw]
  cases w with
  | nil => exact absurd rfl hne
  | cons c cs => rfl

/-- Separators in front make no word. -/
theorem words_skip {p : α → Bool} {sep : List α} (h : ∀ c ∈ sep, p c = true) (rest : List α) :
    words p (sep ++ rest) = words p rest := by
  induction sep with
  | nil => rfl
  | cons c sep ih =>
    have hfirst : words p (c :: (sep ++ rest)) = words p (sep ++ rest) := by
      unfold words
      rw [List.splitOnP_cons_eq_if_modifyHead, if_pos (h c List.mem_cons_self)]
      rfl
    rw [List.cons_append, hfirst]
    exact ih fun c' hc' => h c' (List.mem_cons_of_mem c hc')

/-- A word and the separators behind it. -/
theorem words_gap {p : α → Bool} {w gap : List α} (hw : ∀ c ∈ w, p c = false) (hne : w ≠ [])
    (hgap : ∀ c ∈ gap, p c = true) (hgapNe : gap ≠ []) (rest : List α) :
    words p (w ++ (gap ++ rest)) = w :: words p rest := by
  cases gap with
  | nil => exact absurd rfl hgapNe
  | cons c gap =>
    rw [List.cons_append, words_append hw hne (hgap c List.mem_cons_self),
      words_skip fun c' hc' => hgap c' (List.mem_cons_of_mem c hc')]

/-- A last word. -/
theorem words_last {p : α → Bool} {w trail : List α} (hw : ∀ c ∈ w, p c = false) (hne : w ≠ [])
    (htrail : ∀ c ∈ trail, p c = true) : words p (w ++ trail) = [w] := by
  by_cases hnil : trail = []
  · rw [hnil, List.append_nil, words_singleton hw hne]
  · have hgap := words_gap hw hne htrail hnil []
    rw [List.append_nil] at hgap
    exact hgap

/-! ### White space -/

/-- The white space of Unicode. -/
def isWhitespace (c : Char) : Bool :=
  (0x09 ≤ c.toNat && c.toNat ≤ 0x0d) || c.toNat == 0x20 || c.toNat == 0x85 || c.toNat == 0xa0 || c.toNat == 0x1680 ||
    (0x2000 ≤ c.toNat && c.toNat ≤ 0x200a) || c.toNat == 0x2028 || c.toNat == 0x2029 || c.toNat == 0x202f ||
    c.toNat == 0x205f || c.toNat == 0x3000

/-- A text without the white space at its ends. -/
def trim (s : List Char) : List Char := (s.dropWhile isWhitespace).rdropWhile isWhitespace

/-! ### The last of a character -/

/-- `str::rsplit_once`: what stands in front of the last `c`, and what behind it. -/
def rsplitOnce [DecidableEq α] (c : α) (s : List α) : Option (List α × List α) :=
  if c ∈ s then
    some ((s.reverse.dropWhile (· ≠ c)).tail.reverse, (s.reverse.takeWhile (· ≠ c)).reverse)
  else none

theorem rsplitOnce_append [DecidableEq α] {c : α} {behind : List α} (hbehind : c ∉ behind) (front : List α) :
    rsplitOnce c (front ++ c :: behind) = some (front, behind) := by
  have hreverse : (front ++ c :: behind).reverse = behind.reverse ++ c :: front.reverse := by
    rw [List.reverse_append, List.reverse_cons, List.append_assoc, List.singleton_append]
  have hne : ∀ a ∈ behind.reverse, decide (a ≠ c) = true := by
    intro a ha
    rw [decide_eq_true_iff]
    exact fun h => hbehind (h ▸ List.mem_reverse.mp ha)
  have hc : decide (c ≠ c) = false := decide_eq_false fun h => h rfl
  rw [rsplitOnce, if_pos (List.mem_append_right _ List.mem_cons_self), hreverse,
    List.dropWhile_append_of_pos hne, List.takeWhile_append_of_pos hne, List.dropWhile_cons, List.takeWhile_cons,
    hc]
  simp only [Bool.false_eq_true, if_false, List.tail_cons, List.reverse_reverse, List.append_nil]

/-! ### Hexadecimal numbers -/

/-- The value of a hexadecimal digit. -/
def hexDigitValue (c : Char) : Option ℕ :=
  if '0' ≤ c ∧ c ≤ '9' then some (c.toNat - '0'.toNat)
  else if 'a' ≤ c ∧ c ≤ 'f' then some (c.toNat - 'a'.toNat + 10)
  else if 'A' ≤ c ∧ c ≤ 'F' then some (c.toNat - 'A'.toNat + 10)
  else none

/-- The number that the digits spell. -/
def hexDigitsValue (digits : List Char) : Option ℕ :=
  digits.foldlM (fun acc c => (hexDigitValue c).map fun d => acc * 16 + d) 0

/-- The last `k` hexadecimal digits of `n`. -/
def hexText : ℕ → ℕ → List Char
  | 0, _ => []
  | k + 1, n => hexText k (n / 16) ++ [Nat.digitChar (n % 16)]

@[simp] theorem hexText_length (k n : ℕ) : (hexText k n).length = k := by
  induction k generalizing n with
  | zero => rfl
  | succ k ih => rw [hexText, List.length_append, ih, List.length_singleton]

theorem hexDigitValue_digitChar {d : ℕ} (hd : d < 16) : hexDigitValue (Nat.digitChar d) = some d := by
  exact (by decide : ∀ d < 16, hexDigitValue (Nat.digitChar d) = some d) d hd

theorem digitChar_of_mem_hexText {k n : ℕ} {c : Char} (hc : c ∈ hexText k n) :
    ∃ d < 16, c = Nat.digitChar d := by
  induction k generalizing n with
  | zero => exact absurd hc List.not_mem_nil
  | succ k ih =>
    rcases List.mem_append.mp hc with hc | hc
    · exact ih hc
    · exact ⟨n % 16, Nat.mod_lt n (by decide), List.mem_singleton.mp hc⟩

/-- **Digits read back.** -/
theorem hexDigitsValue_hexText (k n : ℕ) : hexDigitsValue (hexText k n) = some (n % 16 ^ k) := by
  induction k generalizing n with
  | zero => rw [Nat.pow_zero, Nat.mod_one]; rfl
  | succ k ih =>
    have hstep : hexDigitsValue (hexText k (n / 16) ++ [Nat.digitChar (n % 16)]) =
        (hexDigitsValue (hexText k (n / 16))).bind fun acc =>
          (hexDigitValue (Nat.digitChar (n % 16))).map fun d => acc * 16 + d := by
      unfold hexDigitsValue
      rw [List.foldlM_append]
      simp only [List.foldlM_cons, List.foldlM_nil, Option.bind_eq_bind, Option.pure_def, Option.bind_fun_some]
    rw [hexText, hstep, ih, Option.bind_some, hexDigitValue_digitChar (Nat.mod_lt n (by decide)), Option.map_some]
    congr 1
    rw [Nat.pow_succ', Nat.mod_mul]
    omega

/-! ### Decimal numbers -/

/-- `str::parse` of an unsigned number of `bits` bits. -/
def parseUnsigned (bits : ℕ) (s : List Char) : Option ℕ :=
  let digits := if s.head? = some '+' then s.tail else s
  if digits ≠ [] ∧ digits.all Char.isDigit = true ∧ Nat.ofDigitChars 10 digits 0 < 2 ^ bits then
    some (Nat.ofDigitChars 10 digits 0)
  else none

theorem isDigit_toDigits {n : ℕ} : (Nat.toDigits 10 n).all Char.isDigit = true :=
  List.all_eq_true.mpr fun _ hc => Nat.isDigit_of_mem_toDigits (by decide) (by decide) hc

/-- **A number reads back.** -/
theorem parseUnsigned_toDigits {bits n : ℕ} (hn : n < 2 ^ bits) : parseUnsigned bits (Nat.toDigits 10 n) = some n := by
  have hsign : (Nat.toDigits 10 n).head? ≠ some '+' := by
    intro h
    have hdigit := List.all_eq_true.mp isDigit_toDigits '+' (List.mem_of_mem_head? (Option.mem_def.mpr h))
    cases hdigit
  show (if _ then _ else _) = _
  rw [if_neg hsign, Nat.ofDigitChars_ten_toDigits, if_pos ⟨Nat.toDigits_ne_nil, isDigit_toDigits, hn⟩]

end KernelSU.Lib
