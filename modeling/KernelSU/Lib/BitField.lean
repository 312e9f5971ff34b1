import Mathlib.Data.Nat.Bitwise
import Mathlib.Tactic.Ring

/-!
# Fields of machine words

* `field` — some bits of a word as a number;
* `and_mask`, `shiftLeft_or_of_lt` — **PROVED**: a mask selects a field, and a disjunction puts two fields together;
* `Keeps` — the bits outside of some fields are the same in two words; `keeps_masked`, `field_masked` — **PROVED**:
  what clearing some fields and setting them does;
* `bmod_emod_eq` — **PROVED**: a number that fits a signed field is read back from it.
-/

namespace KernelSU.Lib

/-- The bits of a word from `lo` on, `width` of them. -/
def field (word lo width : ℕ) : ℕ := word / 2 ^ lo % 2 ^ width

@[simp] theorem testBit_field (word lo width i : ℕ) :
    (field word lo width).testBit i = (decide (i < width) && word.testBit (lo + i)) := by
  rw [field, Nat.testBit_mod_two_pow, Nat.testBit_div_two_pow, Nat.add_comm]

/-- A mask selects a field. -/
theorem and_mask (word lo width : ℕ) : word &&& (2 ^ width - 1) <<< lo = field word lo width <<< lo := by
  refine Nat.eq_of_testBit_eq fun i => ?_
  rw [Nat.testBit_and, Nat.testBit_shiftLeft, Nat.testBit_shiftLeft, Nat.testBit_two_pow_sub_one, testBit_field]
  by_cases hlo : lo ≤ i
  · rw [decide_eq_true hlo, Bool.true_and, Bool.true_and, Nat.add_sub_cancel' hlo, Bool.and_comm]
  · rw [decide_eq_false hlo, Bool.false_and, Bool.false_and, Bool.and_false]

/-- A disjunction of a field and what is below it. -/
theorem shiftLeft_or_of_lt {v low lo : ℕ} (h : low < 2 ^ lo) : v <<< lo ||| low = v * 2 ^ lo + low := by
  rw [← Nat.shiftLeft_add_eq_or_of_lt h, Nat.shiftLeft_eq]

/-- The bits outside of some fields, given by their lowest bit and their width, are the same. -/
def Keeps (fields : List (ℕ × ℕ)) (word word' : ℕ) : Prop :=
  ∀ i, (∀ f ∈ fields, ¬(f.1 ≤ i ∧ i < f.1 + f.2)) → word'.testBit i = word.testBit i

/-- **A mask and a disjunction** keep the bits that the mask keeps and the other word does not set. -/
theorem keeps_masked {fields : List (ℕ × ℕ)} {word mask v n : ℕ} (hword : word < 2 ^ n)
    (hmask : ∀ i < n, (∀ f ∈ fields, ¬(f.1 ≤ i ∧ i < f.1 + f.2)) → mask.testBit i = true)
    (hv : ∀ i, (∀ f ∈ fields, ¬(f.1 ≤ i ∧ i < f.1 + f.2)) → v.testBit i = false) :
    Keeps fields word (word &&& mask ||| v) := by
  intro i hi
  rw [Nat.testBit_or, Nat.testBit_and, hv i hi, Bool.or_false]
  by_cases hin : i < n
  · rw [hmask i hin hi, Bool.and_true]
  · have hpow : word < 2 ^ i := hword.trans_le (Nat.pow_le_pow_right (by decide) (Nat.not_lt.mp hin))
    rw [Nat.testBit_lt_two_pow hpow, Bool.false_and]

/-- A field that the mask clears is the other word's. -/
theorem field_masked {word mask v lo width : ℕ} (hmask : ∀ i < width, mask.testBit (lo + i) = false) :
    field (word &&& mask ||| v) lo width = field v lo width := by
  refine Nat.eq_of_testBit_eq fun i => ?_
  rw [testBit_field, testBit_field, Nat.testBit_or, Nat.testBit_and]
  by_cases hi : i < width
  · rw [hmask i hi, Bool.and_false, Bool.false_or]
  · rw [decide_eq_false hi, Bool.false_and, Bool.false_and]

/-- Bits of a field that was shifted to its place. -/
theorem testBit_shiftLeft_of_lt {v lo width i : ℕ} (hv : v < 2 ^ width) (hi : ¬(lo ≤ i ∧ i < lo + width)) :
    (v <<< lo).testBit i = false := by
  rw [Nat.testBit_shiftLeft]
  by_cases hlo : lo ≤ i
  · have hpow : v < 2 ^ (i - lo) := hv.trans_le (Nat.pow_le_pow_right (by decide) (by omega))
    rw [Nat.testBit_lt_two_pow hpow, Bool.and_false]
  · rw [decide_eq_false hlo, Bool.false_and]

/-- **Sign extension** of what was cut to a field that it fits. -/
theorem bmod_emod_eq {x : ℤ} {width : ℕ} (hlow : -2 ^ width ≤ x) (hhigh : x < 2 ^ width) :
    Int.bmod (x % 2 ^ (width + 1)).toNat (2 ^ (width + 1)) = x := by
  have hpos : (0 : ℤ) < 2 ^ (width + 1) := Int.pow_pos (by decide)
  have hdouble : (2 : ℤ) ^ (width + 1) = 2 * 2 ^ width := by ring
  rw [Int.toNat_of_nonneg (Int.emod_nonneg x hpos.ne')]
  have hcast : ((2 ^ (width + 1) : ℕ) : ℤ) = 2 ^ (width + 1) := by push_cast; rfl
  rw [← hcast, Int.emod_bmod]
  refine Int.bmod_eq_of_le ?_ ?_
  · rw [hcast, hdouble]
    omega
  · rw [hcast, hdouble]
    omega

end KernelSU.Lib
