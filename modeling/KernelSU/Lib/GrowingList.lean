import Mathlib.Algebra.Order.BigOperators.Group.List
import Mathlib.Algebra.Order.Ring.Nat

/-!
# Lists that grow while they are walked

A walk takes the elements of a list from its front; what a visit adds goes to the back.  The next element is looked up
before the visit, so that a walk ends with the element that was the last when it was looked up, even if that one added
others: these wait for the next walk.

* `forEachSafe_spec` — **PROVED**: where what is added has a lower level, a walk ends and lowers the levels;
* `forPasses_spec` — **PROVED**: as many walks as there are levels leave nothing, and an invariant;
* `forPasses_related` — **PROVED**: related visits have related walks.
-/

namespace KernelSU.Lib

variable {α σ τ : Type*}

/-- `list_for_each_entry_safe` with a body that appends to the list and deletes its element. -/
def forEachSafe (visit : α → σ → List α × σ) : ℕ → List α → σ → Option (List α × σ)
  | 0, _, _ => none
  | _ + 1, [], s => some ([], s)
  | fuel + 1, pos :: rest, s =>
    if rest.isEmpty then some (visit pos s)
    else forEachSafe visit fuel (rest ++ (visit pos s).1) (visit pos s).2

/-- So many walks. -/
def forPasses (visit : α → σ → List α × σ) (fuel : ℕ) : ℕ → List α → σ → Option (List α × σ)
  | 0, list, s => some (list, s)
  | passes + 1, list, s => match forEachSafe visit fuel list s with
    | none => none
    | some r => forPasses visit fuel passes r.1 r.2

section Ends

variable {visit : α → σ → List α × σ} {level size : α → ℕ} {I : List α → σ → Prop}

/-- **A walk** ends, and leaves elements of lower levels. -/
theorem forEachSafe_spec (hlevel : ∀ pos s, ∀ a ∈ (visit pos s).1, level a < level pos)
    (hsize : ∀ pos s, ((visit pos s).1.map size).sum < size pos)
    (hI : ∀ pos rest s, I (pos :: rest) s → I (rest ++ (visit pos s).1) (visit pos s).2)
    {fuel : ℕ} {list : List α} {s : σ} {n : ℕ} (hfuel : (list.map size).sum < fuel) (hle : ∀ a ∈ list, level a ≤ n)
    (h : I list s) :
    ∃ list' s', forEachSafe visit fuel list s = some (list', s') ∧ I list' s' ∧ (∀ a ∈ list', level a < n) ∧
      (list'.map size).sum ≤ (list.map size).sum := by
  induction fuel generalizing list s with
  | zero => exact absurd hfuel (Nat.not_lt_zero _)
  | succ fuel ih =>
    cases list with
    | nil => exact ⟨[], s, rfl, h, fun a ha => absurd ha List.not_mem_nil, Nat.le_refl _⟩
    | cons pos rest =>
      have hpos := hle pos List.mem_cons_self
      have hsmaller := hsize pos s
      rw [List.map_cons, List.sum_cons] at hfuel ⊢
      rw [forEachSafe]
      by_cases hrest : rest = []
      · subst hrest
        refine ⟨_, _, rfl, hI pos [] s h, fun a ha => Nat.lt_of_lt_of_le (hlevel pos s a ha) hpos, ?_⟩
        rw [List.map_nil, List.sum_nil]
        omega
      · have hmore : rest.isEmpty = false := List.isEmpty_eq_false_iff.mpr hrest
        have hsum : ((rest ++ (visit pos s).1).map size).sum = (rest.map size).sum + ((visit pos s).1.map size).sum := by
          rw [List.map_append, List.sum_append]
        have hlow : ∀ a ∈ rest ++ (visit pos s).1, level a ≤ n := by
          intro a ha
          obtain ha | ha := List.mem_append.mp ha
          · exact hle a (List.mem_cons_of_mem _ ha)
          · exact Nat.le_trans (Nat.le_of_lt (hlevel pos s a ha)) hpos
        rw [hmore, if_neg Bool.false_ne_true]
        obtain ⟨list', s', hrun, hinv, hdone, hless⟩ := ih (by omega) hlow (hI pos rest s h)
        exact ⟨list', s', hrun, hinv, hdone, by omega⟩

/-- **As many walks as levels** leave nothing. -/
theorem forPasses_spec (hlevel : ∀ pos s, ∀ a ∈ (visit pos s).1, level a < level pos)
    (hsize : ∀ pos s, ((visit pos s).1.map size).sum < size pos)
    (hI : ∀ pos rest s, I (pos :: rest) s → I (rest ++ (visit pos s).1) (visit pos s).2)
    {fuel passes : ℕ} {list : List α} {s : σ} (hfuel : (list.map size).sum < fuel)
    (hlt : ∀ a ∈ list, level a < passes) (h : I list s) :
    ∃ s', forPasses visit fuel passes list s = some ([], s') ∧ I [] s' := by
  induction passes generalizing list s with
  | zero =>
    have hnil : list = [] := List.eq_nil_iff_forall_not_mem.mpr fun a ha => Nat.not_lt_zero _ (hlt a ha)
    rw [hnil] at h ⊢
    exact ⟨s, rfl, h⟩
  | succ passes ih =>
    obtain ⟨list', s', hrun, hinv, hlow, hless⟩ :=
      forEachSafe_spec hlevel hsize hI hfuel (fun a ha => Nat.le_of_lt_succ (hlt a ha)) h
    rw [forPasses, hrun]
    exact ih (Nat.lt_of_le_of_lt hless hfuel) hlow hinv

end Ends

section Related

variable {visit : α → σ → List α × σ} {visit' : α → τ → List α × τ} {R : σ → τ → Prop}

theorem forEachSafe_related
    (hvisit : ∀ pos s u, R s u → (visit pos s).1 = (visit' pos u).1 ∧ R (visit pos s).2 (visit' pos u).2)
    {fuel : ℕ} {list list' : List α} {s s' : σ} {u : τ} (h : R s u)
    (hrun : forEachSafe visit fuel list s = some (list', s')) :
    ∃ u', forEachSafe visit' fuel list u = some (list', u') ∧ R s' u' := by
  induction fuel generalizing list s u with
  | zero => cases hrun
  | succ fuel ih =>
    cases list with
    | nil =>
      cases hrun
      exact ⟨u, rfl, h⟩
    | cons pos rest =>
      obtain ⟨hsame, hnext⟩ := hvisit pos s u h
      rw [forEachSafe] at hrun ⊢
      split_ifs at hrun ⊢ with hrest
      · rw [Option.some.injEq] at hrun
        rw [hrun] at hsame hnext
        exact ⟨_, congrArg some (Prod.ext hsame.symm rfl), hnext⟩
      · rw [← hsame]
        exact ih hnext hrun

/-- **Related visits** have related walks. -/
theorem forPasses_related
    (hvisit : ∀ pos s u, R s u → (visit pos s).1 = (visit' pos u).1 ∧ R (visit pos s).2 (visit' pos u).2)
    {fuel passes : ℕ} {list list' : List α} {s s' : σ} {u : τ} (h : R s u)
    (hrun : forPasses visit fuel passes list s = some (list', s')) :
    ∃ u', forPasses visit' fuel passes list u = some (list', u') ∧ R s' u' := by
  induction passes generalizing list s u with
  | zero =>
    cases hrun
    exact ⟨u, rfl, h⟩
  | succ passes ih =>
    rw [forPasses] at hrun ⊢
    cases hone : forEachSafe visit fuel list s with
    | none =>
      rw [hone] at hrun
      cases hrun
    | some r =>
      rw [hone] at hrun
      obtain ⟨u₁, hone', hnext⟩ := forEachSafe_related hvisit h hone
      rw [hone']
      exact ih hnext hrun

end Related

end KernelSU.Lib
