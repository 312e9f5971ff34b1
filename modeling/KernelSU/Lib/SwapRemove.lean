import Mathlib.Data.List.Perm.Basic

/-!
# Arrays with a count

A bounded array of which the first `count` entries are in use.  An entry is removed by moving the last one into its
place.

* `swapRemove_perm` — **PROVED**: what is left are the other entries.
-/

namespace KernelSU.Lib

variable {α : Type*}

/-- `xs[i] = xs[--count]`. -/
def swapRemove (xs : List α) (i : ℕ) : List α :=
  match xs.getLast? with
  | none => xs
  | some last => (xs.set i last).dropLast

theorem set_perm_eraseIdx {xs : List α} {i : ℕ} (h : i < xs.length) (x : α) :
    (xs.set i x).Perm (x :: xs.eraseIdx i) := by
  rw [List.set_eq_take_append_cons_drop, if_pos h, List.eraseIdx_eq_take_drop_succ]
  exact List.perm_middle

/-- **Removal** leaves the other entries. -/
theorem swapRemove_perm {xs : List α} {i : ℕ} (h : i < xs.length) : xs.Perm (xs[i] :: swapRemove xs i) := by
  obtain ⟨ys, last, rfl⟩ : ∃ ys last, xs = ys ++ [last] :=
    ⟨_, _, (List.dropLast_append_getLast (List.ne_nil_of_length_pos (Nat.zero_lt_of_lt h))).symm⟩
  rw [swapRemove, List.getLast?_concat]
  dsimp only
  rw [List.length_append, List.length_singleton] at h
  by_cases hi : i < ys.length
  · rw [List.set_append_left _ _ hi, List.dropLast_concat, List.getElem_append_left hi]
    have hfront : (ys ++ [last]).Perm (last :: ys) := List.perm_append_singleton last ys
    have hsplit : (last :: ys).Perm (last :: ys[i] :: ys.eraseIdx i) :=
      (List.getElem_cons_eraseIdx_perm hi).symm.cons last
    have hset : (last :: ys.eraseIdx i).Perm (ys.set i last) := (set_perm_eraseIdx hi last).symm
    exact ((hfront.trans hsplit).trans (List.Perm.swap _ _ _)).trans (hset.cons ys[i])
  · obtain rfl : i = ys.length := by omega
    rw [List.set_append_right _ _ (Nat.le_refl _), Nat.sub_self, List.set_cons_zero, List.dropLast_concat,
      List.getElem_concat_length]
    · exact List.perm_append_singleton last ys
    · rfl

/-- Removal of what a search finds. -/
theorem exists_swapRemove_perm {xs : List α} {p : α → Bool} {i : ℕ} (h : xs.findIdx? p = some i) :
    ∃ x, xs[i]? = some x ∧ p x = true ∧ xs.Perm (x :: swapRemove xs i) := by
  obtain ⟨hi, hp, -⟩ := List.findIdx?_eq_some_iff_getElem.mp h
  exact ⟨xs[i], List.getElem?_eq_getElem hi, hp, swapRemove_perm hi⟩

end KernelSU.Lib
