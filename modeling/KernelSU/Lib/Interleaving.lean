import Mathlib.Data.List.Basic

/-!
# Programs that interleave

A program is a tree of atomic actions; a system runs any number of them over one state, in any order,
with an environment that moves in between.  A proof outline gives each program local knowledge that its
own actions carry along and that nobody else's action can take away.

* `Prog.wp_bind`, `Prog.wp_forM` — **PROVED**: outlines compose along `bind` and around a loop;
* `Outline.invariant` — **PROVED**: in every interleaving each program stands where its outline says;
* `Outline.forall_mem_trace` — **PROVED**: so every action was taken with the knowledge that it asks for;
* `Threads.run_follow` — **PROVED**: a schedule that can be followed is one of the runs.
-/

namespace KernelSU.Lib

variable {ι : Type} {ρ : ι → Type} {α β σ κ K : Type}

/-- A sequential program: it ends, or takes an action and goes on from what the action returns. -/
inductive Prog (ι : Type) (ρ : ι → Type) (α : Type) where
  | ret (a : α)
  | act (i : ι) (next : ρ i → Prog ι ρ α)

namespace Prog

def bind : Prog ι ρ α → (α → Prog ι ρ β) → Prog ι ρ β
  | ret a, f => f a
  | act i next, f => act i fun r => (next r).bind f

instance : Monad (Prog ι ρ) where
  pure := ret
  bind := bind

/-- One action. -/
def perform (i : ι) : Prog ι ρ (ρ i) := act i ret

/-- Only if `c` holds. -/
def onlyIf (c : Prop) [Decidable c] (p : Prog ι ρ Unit) : Prog ι ρ Unit := if c then p else ret ()

@[simp] theorem pure_eq (a : α) : (pure a : Prog ι ρ α) = ret a := rfl

@[simp] theorem bind_eq (p : Prog ι ρ α) (f : α → Prog ι ρ β) : p >>= f = p.bind f := rfl

/-! ### What a program asks for -/

/-- The weakest knowledge from which the program ends with `Q`, where `post k i R` says that the action
`i` may be taken with knowledge `k` and then gives `R`. -/
def wp (post : K → (i : ι) → (ρ i → K → Prop) → Prop) : Prog ι ρ α → (α → K → Prop) → K → Prop
  | ret a, Q, k => Q a k
  | act i next, Q, k => post k i fun r k' => (next r).wp post Q k'

variable {post : K → (i : ι) → (ρ i → K → Prop) → Prop}

@[simp] theorem wp_ret (a : α) (Q : α → K → Prop) (k : K) : (ret a : Prog ι ρ α).wp post Q k ↔ Q a k :=
  Iff.rfl

@[simp] theorem wp_perform (i : ι) (Q : ρ i → K → Prop) (k : K) :
    (perform i : Prog ι ρ (ρ i)).wp post Q k ↔ post k i Q := Iff.rfl

theorem wp_bind (p : Prog ι ρ α) (f : α → Prog ι ρ β) (Q : β → K → Prop) (k : K) :
    (p.bind f).wp post Q k ↔ p.wp post (fun a k' => (f a).wp post Q k') k := by
  induction p generalizing k with
  | ret a => rfl
  | act i next ih =>
    have hnext : (fun r k' => ((next r).bind f).wp post Q k') =
        fun r k' => (next r).wp post (fun a k'' => (f a).wp post Q k'') k' := by
      funext r k'
      exact propext (ih r k')
    show post k i _ ↔ post k i _
    rw [hnext]

theorem wp_onlyIf {c : Prop} [Decidable c] {p : Prog ι ρ Unit} {Q : Unit → K → Prop} {k : K}
    (hpos : c → p.wp post Q k) (hneg : ¬c → Q () k) : (onlyIf c p).wp post Q k := by
  unfold onlyIf
  split
  · exact hpos (by assumption)
  · exact hneg (by assumption)

/-- Whoever asks for less is content with as much. -/
def Monotone (post : K → (i : ι) → (ρ i → K → Prop) → Prop) : Prop :=
  ∀ ⦃k i⦄ ⦃R R' : ρ i → K → Prop⦄, (∀ r k', R r k' → R' r k') → post k i R → post k i R'

theorem wp_mono (hpost : Monotone post) {Q Q' : α → K → Prop} (h : ∀ a k, Q a k → Q' a k)
    (p : Prog ι ρ α) (k : K) (hp : p.wp post Q k) : p.wp post Q' k := by
  induction p generalizing k with
  | ret a => exact h a k hp
  | act i next ih => exact hpost (fun r k' => ih r k') hp

/-- **The loop rule.**  What each turn keeps, the loop keeps. -/
theorem wp_forM {γ : Type} (hpost : Monotone post) (I : K → Prop) (f : γ → Prog ι ρ Unit) :
    ∀ (xs : List γ), (∀ x ∈ xs, ∀ k, I k → (f x).wp post (fun _ => I) k) →
      ∀ k, I k → (xs.forM f).wp post (fun _ => I) k := by
  intro xs
  induction xs with
  | nil => exact fun _ _ hk => hk
  | cons x xs ih =>
    intro hf k hk
    show ((f x).bind fun _ => xs.forM f).wp post (fun _ => I) k
    rw [wp_bind]
    have hx := hf x List.mem_cons_self k hk
    have hrest := ih fun y hy => hf y (List.mem_cons_of_mem x hy)
    exact wp_mono hpost (fun _ k' => hrest k') (f x) k hx

end Prog

/-! ### Interleavings -/

/-- What runs: the program of each request, what an action of a thread does to the state (`none` where it
has to wait), and what everyone else may do. -/
structure Threads (ι : Type) (ρ : ι → Type) (α σ κ : Type) where
  code : κ → Prog ι ρ α
  exec : ℕ → (i : ι) → σ → Option (ρ i × σ)
  env : σ → σ → Prop

namespace Threads

/-- The state, and the threads in the order in which they were started. -/
structure Config (ι : Type) (ρ : ι → Type) (α σ κ : Type) where
  state : σ
  threads : List (κ × Prog ι ρ α)

/-- What a step is. -/
inductive Event (ι κ : Type) where
  | start (o : κ)
  | act (n : ℕ) (o : κ) (i : ι)
  | env

/-- A step of a run, with the states around it. -/
structure Transition (ι σ κ : Type) where
  before : σ
  event : Event ι κ
  after : σ

variable (sys : Threads ι ρ α σ κ)

inductive Step : Config ι ρ α σ κ → Event ι κ → Config ι ρ α σ κ → Prop
  | start {c} (o : κ) : Step c (.start o) { c with threads := c.threads ++ [(o, sys.code o)] }
  | act {c n o i next r s'} (hthread : c.threads[n]? = some (o, .act i next))
      (hexec : sys.exec n i c.state = some (r, s')) :
      Step c (.act n o i) ⟨s', c.threads.set n (o, next r)⟩
  | env {c s'} (henv : sys.env c.state s') : Step c .env { c with state := s' }

/-- The runs from an initial state, with their steps. -/
inductive Run (init : σ → Prop) : List (Transition ι σ κ) → Config ι ρ α σ κ → Prop
  | init {s} (hs : init s) : Run init [] ⟨s, []⟩
  | step {trace c e c'} (hrun : Run init trace c) (hstep : sys.Step c e c') :
      Run init (trace ++ [⟨c.state, e, c'.state⟩]) c'

/-! ### Schedules -/

/-- Who moves next, the environment apart. -/
inductive Choice (κ : Type) where
  | start (o : κ)
  | act (n : ℕ)

/-- Take one chosen step. -/
def choose (c : Config ι ρ α σ κ) : Choice κ → Option (Event ι κ × Config ι ρ α σ κ)
  | .start o => some (.start o, { c with threads := c.threads ++ [(o, sys.code o)] })
  | .act n =>
    match c.threads[n]? with
    | some (o, .act i next) =>
      (sys.exec n i c.state).map fun x => (.act n o i, ⟨x.2, c.threads.set n (o, next x.1)⟩)
    | _ => none

/-- Follow a schedule. -/
def follow : Config ι ρ α σ κ → List (Choice κ) → Option (List (Transition ι σ κ) × Config ι ρ α σ κ)
  | c, [] => some ([], c)
  | c, x :: xs => do
    let (e, c') ← sys.choose c x
    let (trace, c'') ← follow c' xs
    some (⟨c.state, e, c'.state⟩ :: trace, c'')

variable {sys}

theorem step_of_choose {c c' : Config ι ρ α σ κ} {x : Choice κ} {e : Event ι κ}
    (h : sys.choose c x = some (e, c')) : sys.Step c e c' := by
  cases x with
  | start o =>
    obtain ⟨rfl, rfl⟩ := Prod.mk.inj (Option.some.inj h)
    exact Step.start o
  | act n =>
    simp only [choose] at h
    split at h
    · rename_i o i next hthread
      obtain ⟨⟨r, s'⟩, hexec, heq⟩ := Option.map_eq_some_iff.mp h
      obtain ⟨rfl, rfl⟩ := Prod.mk.inj heq
      exact Step.act hthread hexec
    · cases h

/-- **A schedule that can be followed is a run.** -/
theorem run_follow {init : σ → Prop} {trace : List (Transition ι σ κ)} {c : Config ι ρ α σ κ}
    (hrun : sys.Run init trace c) :
    ∀ {xs : List (Choice κ)} {t : List (Transition ι σ κ)} {c' : Config ι ρ α σ κ},
      sys.follow c xs = some (t, c') → sys.Run init (trace ++ t) c' := by
  intro xs
  induction xs generalizing trace c with
  | nil =>
    intro t c' h
    obtain ⟨rfl, rfl⟩ := Prod.mk.inj (Option.some.inj h)
    rw [List.append_nil]
    exact hrun
  | cons x xs ih =>
    intro t c' h
    simp only [follow, Option.bind_eq_bind, Option.bind_eq_some_iff, Prod.exists] at h
    obtain ⟨e, c₁, hx, t₁, c₂, hxs, heq⟩ := h
    obtain ⟨rfl, rfl⟩ := Prod.mk.inj (Option.some.inj heq)
    rw [List.append_cons]
    exact ih (hrun.step (step_of_choose hx)) hxs

end Threads

/-! ### Proof outlines -/

open Threads

/-- **A proof outline**: what a thread can know, when that is so, and what each action asks for and
gives.  The last three fields say that a thread's own action does what `post` promises, and that neither
another thread's action nor the environment takes its knowledge away. -/
structure Outline (sys : Threads ι ρ α σ κ) (K : Type) where
  start : K
  knows : ℕ → K → σ → Prop
  post : κ → K → (i : ι) → (ρ i → K → Prop) → Prop
  own : ∀ {n k o i R s r s'}, knows n k s → post o k i R → sys.exec n i s = some (r, s') →
    ∃ k', knows n k' s' ∧ R r k'
  others : ∀ {m n km kn o i R s r s'}, m ≠ n → knows n kn s → knows m km s → post o km i R →
    sys.exec m i s = some (r, s') → knows n kn s'
  env : ∀ {n k s s'}, knows n k s → sys.env s s' → knows n k s'

namespace Outline

variable {sys : Threads ι ρ α σ κ} (O : Outline sys K)

/-- Thread `n` stands where its outline says; a thread that is not there yet knows what it will start
with. -/
def Stands (c : Config ι ρ α σ κ) (n : ℕ) : Prop :=
  match c.threads[n]? with
  | none => O.knows n O.start c.state
  | some (o, p) => ∃ k, O.knows n k c.state ∧ p.wp (O.post o) (fun _ _ => True) k

variable {O}

theorem Stands.knows {c : Config ι ρ α σ κ} {n : ℕ} (h : O.Stands c n) : ∃ k, O.knows n k c.state := by
  unfold Stands at h
  split at h
  · exact ⟨O.start, h⟩
  · obtain ⟨k, hk, -⟩ := h
    exact ⟨k, hk⟩

/-- A thread whose place nobody moved keeps standing there if its knowledge survives. -/
theorem Stands.frame {c c' : Config ι ρ α σ κ} {n : ℕ} (h : O.Stands c n)
    (hthread : c'.threads[n]? = c.threads[n]?)
    (hknows : ∀ k, O.knows n k c.state → O.knows n k c'.state) : O.Stands c' n := by
  unfold Stands at h ⊢
  rw [hthread]
  split at h
  · exact hknows _ h
  · obtain ⟨k, hk, hp⟩ := h
    exact ⟨k, hknows k hk, hp⟩

theorem stands_step (hcode : ∀ o, (sys.code o).wp (O.post o) (fun _ _ => True) O.start)
    {c c' : Config ι ρ α σ κ} {e : Event ι κ} (hstep : sys.Step c e c') (h : ∀ n, O.Stands c n) (n : ℕ) :
    O.Stands c' n := by
  cases hstep with
  | start o =>
    rcases Nat.lt_trichotomy n c.threads.length with hn | hn | hn
    · exact (h n).frame (List.getElem?_append_left hn) fun k hk => hk
    · -- the new thread: it begins with what every thread yet to come knows
      have hnone : c.threads[n]? = none := List.getElem?_eq_none (Nat.le_of_eq hn.symm)
      have hstart : O.knows n O.start c.state := by
        have hn' := h n
        unfold Stands at hn'
        rw [hnone] at hn'
        exact hn'
      unfold Stands
      have hnew : (c.threads ++ [(o, sys.code o)])[n]? = some (o, sys.code o) := by
        rw [hn, List.getElem?_append_right (Nat.le_refl _), Nat.sub_self]
        rfl
      rw [hnew]
      exact ⟨O.start, hstart, hcode o⟩
    · refine (h n).frame ?_ fun k hk => hk
      show (c.threads ++ [(o, sys.code o)])[n]? = c.threads[n]?
      rw [List.getElem?_eq_none (by rw [List.length_append, List.length_singleton]; omega),
        List.getElem?_eq_none (by omega)]
  | @act m o i next r s' hthread hexec =>
    have hm := h m
    unfold Stands at hm
    rw [hthread] at hm
    obtain ⟨k, hk, hp⟩ := hm
    by_cases hmn : m = n
    · subst hmn
      obtain ⟨k', hk', hnext⟩ := O.own hk hp hexec
      have hlt : m < c.threads.length := (List.getElem?_eq_some_iff.mp hthread).1
      unfold Stands
      have hset : (c.threads.set m (o, next r))[m]? = some (o, next r) := by
        rw [List.getElem?_set_self hlt]
      rw [hset]
      exact ⟨k', hk', hnext⟩
    · exact (h n).frame (List.getElem?_set_ne hmn) fun kn hkn => O.others hmn hkn hk hp hexec
  | env henv => exact (h n).frame rfl fun k hk => O.env hk henv

/-- **The outline holds in every interleaving.** -/
theorem invariant (hcode : ∀ o, (sys.code o).wp (O.post o) (fun _ _ => True) O.start) {init : σ → Prop}
    (hinit : ∀ s, init s → ∀ n, O.knows n O.start s) {trace : List (Transition ι σ κ)}
    {c : Config ι ρ α σ κ} (hrun : sys.Run init trace c) : ∀ n, O.Stands c n := by
  induction hrun with
  | init hs => exact fun n => hinit _ hs n
  | step _ hstep ih => exact stands_step hcode hstep ih

/-- **Every action was taken with the knowledge it asks for.** -/
theorem forall_mem_trace (hcode : ∀ o, (sys.code o).wp (O.post o) (fun _ _ => True) O.start)
    {init : σ → Prop} (hinit : ∀ s, init s → ∀ n, O.knows n O.start s)
    {trace : List (Transition ι σ κ)} {c : Config ι ρ α σ κ} (hrun : sys.Run init trace c) :
    ∀ x ∈ trace, ∀ n o i, x.event = .act n o i →
      (∃ k R, O.knows n k x.before ∧ O.post o k i R) ∧
        ∃ r, sys.exec n i x.before = some (r, x.after) := by
  induction hrun with
  | init _ => exact fun x hx => absurd hx List.not_mem_nil
  | @step trace c e c' hrun hstep ih =>
    intro x hx n o i he
    rcases List.mem_append.mp hx with hx | hx
    · exact ih x hx n o i he
    · obtain rfl := List.mem_singleton.mp hx
      cases hstep with
      | start o => cases he
      | env henv => cases he
      | @act m o' i' next r s' hthread hexec =>
        obtain ⟨rfl, rfl, rfl⟩ := Event.act.inj he
        have hn := invariant hcode hinit hrun m
        unfold Stands at hn
        rw [hthread] at hn
        obtain ⟨k, hk, hp⟩ := hn
        exact ⟨⟨k, _, hk, hp⟩, _, hexec⟩

end Outline

end KernelSU.Lib
