import Mathlib.Data.List.Basic

/-!
# The last writer wins

A list of items is applied to a state one after another.  An item says what the state is to hold at some places and
nothing about the others; what it says may depend on the state it meets.

* `foldl_lastDecision` — **PROVED**: what is held at a place afterwards is what the last item says that says anything
  about it, and else what was held before.
-/

namespace KernelSU.Lib

variable {σ α κ γ : Type*}

/-- What the last item that says something about a place says. -/
def lastDecision (apply : σ → α → σ) (decides : σ → α → κ → Option γ) : List α → σ → κ → Option γ
  | [], _, _ => none
  | a :: as, s, k => (lastDecision apply decides as (apply s a) k).or (decides s a k)

section Loop

variable {apply : σ → α → σ} (decides : σ → α → κ → Option γ) (get : σ → κ → γ) {P : σ → Prop} {as : List α}

/-- **The last writer wins.** -/
theorem foldl_lastDecision (hkeep : ∀ s, P s → ∀ a ∈ as, P (apply s a))
    (hget : ∀ s, P s → ∀ a ∈ as, ∀ k, get (apply s a) k = (decides s a k).getD (get s k)) {s : σ} (hs : P s) (k : κ) :
    get (as.foldl apply s) k = (lastDecision apply decides as s k).getD (get s k) := by
  induction as generalizing s with
  | nil => rfl
  | cons a as ih =>
    have hrest := ih (fun s hs b hb => hkeep s hs b (List.mem_cons_of_mem a hb))
      (fun s hs b hb => hget s hs b (List.mem_cons_of_mem a hb)) (hkeep s hs a List.mem_cons_self)
    rw [List.foldl_cons, hrest, hget s hs a List.mem_cons_self, lastDecision]
    cases lastDecision apply decides as (apply s a) k with
    | some v => rfl
    | none => rfl

end Loop

end KernelSU.Lib
