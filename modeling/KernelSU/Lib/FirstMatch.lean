import Mathlib.Data.List.Basic

/-!
# Rule chains read by first match

A chain is a list of rules.  Each rule covers some keys and carries a value, and a key gets the value of
the first rule that covers it.  Tables of this kind are edited in place, one rule at a time, and the
question is always which keys see the edit:

* `decider` — the position of the rule that answers a key;
* `firstMatch_modify_value` — a new value at one position reaches exactly the keys decided there;
* `firstMatch_of_decider` — the answer is the value at the decider.
-/

namespace KernelSU.Lib.FirstMatch

variable {ρ κ ν : Type*} (covers : ρ → κ → Bool) (value : ρ → ν)

/-- The position of the first rule that covers `k`. -/
def decider (l : List ρ) (k : κ) : Option ℕ := l.findIdx? fun r => covers r k

/-- The value of the first rule that covers `k`. -/
def firstMatch (l : List ρ) (k : κ) : Option ν := (l.find? fun r => covers r k).map value

variable {covers value}

@[simp] theorem firstMatch_nil (k : κ) : firstMatch covers value [] k = none := rfl

theorem firstMatch_cons (r : ρ) (l : List ρ) (k : κ) :
    firstMatch covers value (r :: l) k =
      if covers r k then some (value r) else firstMatch covers value l k := by
  rw [firstMatch, List.find?_cons]
  cases covers r k <;> rfl

theorem decider_cons (r : ρ) (l : List ρ) (k : κ) :
    decider covers (r :: l) k =
      if covers r k then some 0 else (decider covers l k).map (· + 1) := by
  rw [decider, List.findIdx?_cons]
  rfl

variable (value) in
/-- **The answer is the value at the decider.** -/
theorem firstMatch_of_decider {l : List ρ} {k : κ} {i : ℕ} (h : decider covers l k = some i) :
    ∃ r, l[i]? = some r ∧ covers r k = true ∧ firstMatch covers value l k = some (value r) := by
  induction l generalizing i with
  | nil => cases h
  | cons r l ih =>
    rw [decider_cons] at h
    by_cases hr : covers r k = true
    · rw [if_pos hr] at h
      cases h
      exact ⟨r, rfl, hr, by rw [firstMatch_cons, if_pos hr]⟩
    · rw [if_neg hr] at h
      obtain ⟨j, hj, rfl⟩ := Option.map_eq_some_iff.mp h
      obtain ⟨r', hr', hc, hv⟩ := ih hj
      exact ⟨r', hr', hc, by rw [firstMatch_cons, if_neg hr, hv]⟩

/-- A rule that covers `k` decides it when no earlier rule covers it. -/
theorem decider_eq_of_first {l : List ρ} {k : κ} {i : ℕ} {r : ρ} (hi : l[i]? = some r)
    (hc : covers r k = true) (hf : ∀ j < i, ∀ r', l[j]? = some r' → covers r' k = false) :
    decider covers l k = some i := by
  induction l generalizing i with
  | nil => simp at hi
  | cons a l ih =>
    rw [decider_cons]
    cases i with
    | zero =>
      simp only [List.getElem?_cons_zero, Option.some.injEq] at hi
      rw [hi, if_pos hc]
    | succ i =>
      have ha : covers a k = false := hf 0 (Nat.succ_pos i) a rfl
      have htail := ih hi fun j hj r' hr' => hf (j + 1) (Nat.succ_lt_succ hj) r' hr'
      rw [ha, htail]
      rfl

/-- An edit at one position that `k` cannot see there does not change its answer. -/
theorem firstMatch_set_congr {l : List ρ} {k : κ} {i : ℕ} {r r' : ρ} (hi : l[i]? = some r)
    (hc : covers r k = covers r' k) (hv : value r = value r') :
    firstMatch covers value (l.set i r') k = firstMatch covers value l k := by
  induction l generalizing i with
  | nil => simp at hi
  | cons a l ih =>
    cases i with
    | zero =>
      simp only [List.getElem?_cons_zero, Option.some.injEq] at hi
      rw [List.set_cons_zero, firstMatch_cons, firstMatch_cons, hi, hc, hv]
    | succ i => rw [List.set_cons_succ, firstMatch_cons, firstMatch_cons, ih hi]

/-- **A new value at one position reaches exactly the keys decided there.** -/
theorem firstMatch_modify_value {l : List ρ} {k : κ} {i : ℕ} {f : ρ → ρ} {v : ν}
    (hf : ∀ r, covers (f r) k = covers r k) (hv : ∀ r, value (f r) = v) :
    firstMatch covers value (l.modify i f) k =
      if decider covers l k = some i then some v else firstMatch covers value l k := by
  induction l generalizing i with
  | nil => simp [decider]
  | cons a l ih =>
    rw [decider_cons, firstMatch_cons]
    cases i with
    | zero =>
      rw [List.modify_zero_cons, firstMatch_cons, hf, hv]
      by_cases ha : covers a k = true <;> simp [ha]
    | succ i =>
      rw [List.modify_succ_cons, firstMatch_cons, ih]
      by_cases ha : covers a k = true <;> simp [ha]

end KernelSU.Lib.FirstMatch
