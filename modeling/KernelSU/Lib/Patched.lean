import Mathlib.Logic.Function.Basic

/-!
# Patched tables

A table whose places hold values, and patches of which each may hold one place.

* `install`, `remove` — **PROVED**: a patch takes a place that is free, and gives back what stood there;
* `restored` — **PROVED**: without patches the table is as it was, in whatever order they went.
-/

namespace KernelSU.Lib

variable {ι π ν : Type*}

/-- What a table holds, of which each patch that is there has a place for its own. -/
structure Patched (initial : π → ν) (patch : ι → π → ν) (held : ι → Option π) (current : π → ν) : Prop where
  apart : ∀ {d e p}, held d = some p → held e = some p → d = e
  patched : ∀ {d p}, held d = some p → current p = patch d p
  untouched : ∀ {p}, (∀ d, held d ≠ some p) → current p = initial p

namespace Patched

variable {initial current : π → ν} {patch : ι → π → ν} {held : ι → Option π}

/-- A table without patches. -/
theorem init (initial : π → ν) (patch : ι → π → ν) : Patched initial patch (fun _ => none) initial where
  apart := fun h => absurd h.symm (Option.some_ne_none _)
  patched := fun h => absurd h.symm (Option.some_ne_none _)
  untouched := fun _ => rfl

/-- A place is as it was, or has its patch. -/
theorem cases (h : Patched initial patch held current) (p : π) :
    current p = initial p ∨ ∃ d, held d = some p ∧ current p = patch d p := by
  by_cases hp : ∃ d, held d = some p
  · obtain ⟨d, hd⟩ := hp
    exact .inr ⟨d, hd, h.patched hd⟩
  · exact .inl (h.untouched (not_exists.mp hp))

/-- **Without patches** the table is as it was. -/
theorem restored (h : Patched initial patch held current) (hnone : ∀ d, held d = none) : current = initial := by
  funext p
  exact h.untouched fun d hd => Option.some_ne_none p (hd.symm.trans (hnone d))

variable [DecidableEq ι] [DecidableEq π]

/-- **A patch** takes a place that no other has. -/
theorem install (h : Patched initial patch held current) {d : ι} {p : π} (hnone : held d = none)
    (hfree : ∀ e, held e ≠ some p) :
    Patched initial patch (Function.update held d (some p)) (Function.update current p (patch d p)) where
  apart := by
    intro e e' q he he'
    by_cases hd : e = d <;> by_cases hd' : e' = d
    · rw [hd, hd']
    · rw [hd, Function.update_self, Option.some.injEq] at he
      rw [Function.update_of_ne hd', ← he] at he'
      exact absurd he' (hfree e')
    · rw [hd', Function.update_self, Option.some.injEq] at he'
      rw [Function.update_of_ne hd, ← he'] at he
      exact absurd he (hfree e)
    · rw [Function.update_of_ne hd] at he
      rw [Function.update_of_ne hd'] at he'
      exact h.apart he he'
  patched := by
    intro e q he
    by_cases hd : e = d
    · rw [hd, Function.update_self, Option.some.injEq] at he
      rw [hd, ← he, Function.update_self]
    · rw [Function.update_of_ne hd] at he
      have hq : q ≠ p := fun hq => hfree e (hq ▸ he)
      rw [Function.update_of_ne hq, h.patched he]
  untouched := by
    intro q hq
    have hp : q ≠ p := fun hp => hq d (by rw [Function.update_self, hp])
    rw [Function.update_of_ne hp]
    apply h.untouched
    intro e he
    have hd : e ≠ d := fun hd => Option.some_ne_none q (he.symm.trans (hd ▸ hnone))
    exact hq e (by rw [Function.update_of_ne hd, he])

/-- **A patch** that goes gives back what stood in its place. -/
theorem remove (h : Patched initial patch held current) {d : ι} {p : π} (hd : held d = some p) :
    Patched initial patch (Function.update held d none) (Function.update current p (initial p)) where
  apart := by
    intro e e' q he he'
    have hed : e ≠ d := fun hed => by rw [hed, Function.update_self] at he; cases he
    have hed' : e' ≠ d := fun hed => by rw [hed, Function.update_self] at he'; cases he'
    rw [Function.update_of_ne hed] at he
    rw [Function.update_of_ne hed'] at he'
    exact h.apart he he'
  patched := by
    intro e q he
    have hed : e ≠ d := fun hed => by rw [hed, Function.update_self] at he; cases he
    rw [Function.update_of_ne hed] at he
    have hq : q ≠ p := fun hq => hed (h.apart he (hq ▸ hd))
    rw [Function.update_of_ne hq, h.patched he]
  untouched := by
    intro q hq
    by_cases hp : q = p
    · rw [hp, Function.update_self]
    · rw [Function.update_of_ne hp]
      apply h.untouched
      intro e he
      by_cases hed : e = d
      · rw [hed, hd, Option.some.injEq] at he
        exact hp he.symm
      · exact hq e (by rw [Function.update_of_ne hed, he])

end Patched

end KernelSU.Lib
