import Mathlib.Data.List.AList

/-!
# Folds over the entries of a map

A loop over the entries of a map, each of whose turns changes what a state says about the entry's own key only:
what it leaves at a key is decided by that key's entry alone, whatever the order.

* `foldl_keyed` — **PROVED**: what such a loop leaves at a key.
-/

namespace KernelSU.Lib

variable {K V M γ : Type*}

section Loop

variable (get : M → K → γ) (step : M → (Σ _ : K, V) → M) (update : K → V → γ → γ)
  (hsame : ∀ m k v, get (step m ⟨k, v⟩) k = update k v (get m k))
  (hother : ∀ m k v k', k' ≠ k → get (step m ⟨k, v⟩) k' = get m k')

include hother in
/-- A key without an entry is left alone. -/
theorem foldl_keyed_of_notMem (l : List (Σ _ : K, V)) (m : M) {k : K} (hk : k ∉ l.keys) :
    get (l.foldl step m) k = get m k := by
  induction l generalizing m with
  | nil => rfl
  | cons e l ih =>
    rw [List.keys_cons, List.mem_cons, not_or] at hk
    rw [List.foldl_cons, ih _ hk.2, hother m e.1 e.2 k hk.1]

include hsame hother in
/-- **A key's own turn is the only one that matters to it.** -/
theorem foldl_keyed [DecidableEq K] (d : AList fun _ : K => V) (m : M) (k : K) :
    get (d.entries.foldl step m) k = (d.lookup k).elim (get m k) fun v => update k v (get m k) := by
  obtain ⟨l, hnodup⟩ := d
  show get (l.foldl step m) k = (l.dlookup k).elim (get m k) fun v => update k v (get m k)
  induction l generalizing m with
  | nil => rfl
  | cons e l ih =>
    obtain ⟨hfresh, hrest⟩ := List.nodupKeys_cons.mp hnodup
    rw [List.foldl_cons]
    by_cases hk : e.1 = k
    · subst hk
      rw [foldl_keyed_of_notMem get step hother l _ hfresh, hsame, List.dlookup_cons_eq]
      rfl
    · rw [ih _ hrest, hother m e.1 e.2 k (Ne.symm hk), List.dlookup_cons_ne _ _ (Ne.symm hk)]

end Loop

end KernelSU.Lib
