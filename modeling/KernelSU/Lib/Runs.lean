import Mathlib.Data.List.Basic

/-!
# Labelled runs

A machine takes steps that an action chooses and that leave a label behind.  `Reaches` collects what
every interleaving of actions reaches, with the labels in the order in which the steps were taken.

* `Reaches.invariant` — **PROVED**: what holds at the start and survives each step holds of every run;
* `Reaches.split` — **PROVED**: each label of a run is that of a step from where the labels before it lead;
* `Reaches.of_run` — **PROVED**: running a list of actions is one of the runs;
* `Reaches.iterate_from`, `Reaches.iterate` — **PROVED**: a family of states in which each steps to the
  next is a run.
-/

namespace KernelSU.Lib

variable {σ α ε : Type*}

/-- A machine with labelled, deterministic steps; `none` where the action is not enabled. -/
structure Machine (σ α ε : Type*) where
  init : σ
  step : σ → α → Option (σ × ε)

namespace Machine

/-- The states a run reaches, with the labels of its steps. -/
inductive Reaches (m : Machine σ α ε) : List ε → σ → Prop where
  | init : Reaches m [] m.init
  | step {trace s a s' e} : Reaches m trace s → m.step s a = some (s', e) →
      Reaches m (trace ++ [e]) s'

/-- Run a list of actions from a state, collecting the labels. -/
def runFrom (m : Machine σ α ε) : σ → List α → Option (List ε × σ)
  | s, [] => some ([], s)
  | s, a :: as => do
    let (s', e) ← m.step s a
    let (trace, s'') ← runFrom m s' as
    some (e :: trace, s'')

namespace Reaches

variable {m : Machine σ α ε} {trace : List ε} {s : σ}

/-- **Induction over runs.**  What holds at the start and is preserved by every step that a run can take
holds wherever a run arrives. -/
theorem invariant (P : List ε → σ → Prop) (h0 : P [] m.init)
    (hstep : ∀ (trace : List ε) (s : σ) (a : α) (s' : σ) (e : ε), P trace s →
      m.step s a = some (s', e) → P (trace ++ [e]) s')
    (h : m.Reaches trace s) : P trace s := by
  induction h with
  | init => exact h0
  | step _ hs ih => exact hstep _ _ _ _ _ ih hs

/-- **A label in a run** is that of a step, from a state that the labels before it reach. -/
theorem split (h : m.Reaches trace s) :
    ∀ {before after : List ε} {e : ε}, trace = before ++ e :: after →
      ∃ s₀ a s₁, m.Reaches before s₀ ∧ m.step s₀ a = some (s₁, e) := by
  induction h with
  | init =>
    intro before after e heq
    exact absurd heq (by simp)
  | @step trace s a s' e' hreaches hstep ih =>
    intro before after e heq
    rcases List.eq_nil_or_concat after with rfl | ⟨after', last, rfl⟩
    · obtain ⟨rfl, he⟩ := List.append_inj' heq rfl
      obtain rfl := List.singleton_inj.mp he
      exact ⟨s, a, s', hreaches, hstep⟩
    · rw [List.concat_eq_append, ← List.cons_append, ← List.append_assoc] at heq
      exact ih (List.append_inj' heq rfl).1

theorem append_runFrom (h : m.Reaches trace s) :
    ∀ {as : List α} {t : List ε} {s' : σ}, m.runFrom s as = some (t, s') →
      m.Reaches (trace ++ t) s' := by
  intro as
  induction as generalizing trace s with
  | nil =>
    rintro t s' ⟨rfl, rfl⟩
    rw [List.append_nil]
    exact h
  | cons a as ih =>
    intro t s' hr
    simp only [runFrom, Option.bind_eq_bind, Option.bind_eq_some_iff, Prod.exists] at hr
    obtain ⟨s₁, e, hs, t₁, s₂, hr₁, he⟩ := hr
    obtain ⟨rfl, rfl⟩ := Prod.mk.inj (Option.some.inj he)
    rw [List.append_cons]
    exact ih (h.step hs) hr₁

/-- **An executed list of actions is a run.** -/
theorem of_run {as : List α} (h : m.runFrom m.init as = some (trace, s)) : m.Reaches trace s :=
  (init : m.Reaches [] m.init).append_runFrom h

/-- **An indexed family of steps is a run**, from wherever it begins and as far as it steps. -/
theorem iterate_from {state : ℕ → σ} {act : ℕ → α} {label : ℕ → ε} (h : m.Reaches trace (state 0)) {N : ℕ}
    (hstep : ∀ n < N, m.step (state n) (act n) = some (state (n + 1), label n)) :
    ∀ n ≤ N, m.Reaches (trace ++ (List.range n).map label) (state n) := by
  intro n
  induction n with
  | zero =>
    intro _
    rw [List.range_zero, List.map_nil, List.append_nil]
    exact h
  | succ n ih =>
    intro hn
    rw [List.range_succ, List.map_append, ← List.append_assoc]
    exact (ih (Nat.le_of_succ_le hn)).step (hstep n hn)

/-- An indexed family of steps from the start. -/
theorem iterate (state : ℕ → σ) (act : ℕ → α) (label : ℕ → ε) (h0 : state 0 = m.init)
    (hstep : ∀ n, m.step (state n) (act n) = some (state (n + 1), label n)) (n : ℕ) :
    m.Reaches ((List.range n).map label) (state n) := by
  have hstart : m.Reaches [] (state 0) := h0 ▸ init
  exact hstart.iterate_from (fun k _ => hstep k) n (Nat.le_refl n)

end Reaches

end Machine

end KernelSU.Lib
