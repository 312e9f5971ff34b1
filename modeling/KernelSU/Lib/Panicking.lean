import KernelSU.Lib.Bytes

/-!
# Computations that may panic

A program that checks its arithmetic and its indices ends in one of three ways: with a value, with an error that
it reports, or with a panic.  The operations that panic are those that nothing guards: an addition past the end of
the machine word, an index or a slice outside of the data, a division by zero.

* `usizeAdd_of_lt`, `indexAt_of_lt`, `subslice_of_le`, `usizeRem_of_pos` — **PROVED**: when they do not panic;
* `reported_bind`, `reported_ite`, `foldlM_reported`, `mapM_reported` — **PROVED**: a computation whose parts only
  report errors only reports errors;
* `Safe` — a computation that does not panic, and what holds of its value; `safe_bind`, `safe_foldlM` — **PROVED**: it
  composes along sequences and loops.
-/

namespace KernelSU.Lib

open Bytes

/-- How a computation ends without a value. -/
inductive Stop (ε : Type) where
  | error (e : ε)
  | panic
  deriving DecidableEq, Repr

/-- A computation that may report an error and may panic. -/
abbrev Panicking (ε α : Type) := Except (Stop ε) α

section Operations

variable {ε α : Type}

/-- A computation that reports its errors. -/
def reported (x : Except ε α) : Panicking ε α := x.mapError .error

/-- `a + b`. -/
def usizeAdd (a b : ℕ) : Panicking ε ℕ := if a + b < 2 ^ 64 then .ok (a + b) else .error .panic

/-- `a * b`. -/
def usizeMul (a b : ℕ) : Panicking ε ℕ := if a * b < 2 ^ 64 then .ok (a * b) else .error .panic

/-- `a - b`. -/
def usizeSub (a b : ℕ) : Panicking ε ℕ := if b ≤ a then .ok (a - b) else .error .panic

/-- `a / b`. -/
def usizeDiv (a b : ℕ) : Panicking ε ℕ := if 0 < b then .ok (a / b) else .error .panic

/-- `a % b`. -/
def usizeRem (a b : ℕ) : Panicking ε ℕ := if 0 < b then .ok (a % b) else .error .panic

/-- `xs[i]`. -/
def indexAt (xs : List α) (i : ℕ) : Panicking ε α :=
  match xs[i]? with
  | some x => .ok x
  | none => .error .panic

/-- `&data[start..stop]`. -/
def subslice (data : List UInt8) (start stop : ℕ) : Panicking ε (List UInt8) :=
  if start ≤ stop ∧ stop ≤ data.length then .ok (slice data start (stop - start)) else .error .panic

theorem usizeAdd_of_lt {a b : ℕ} (h : a + b < 2 ^ 64) : (usizeAdd a b : Panicking ε ℕ) = .ok (a + b) := if_pos h

theorem usizeMul_of_lt {a b : ℕ} (h : a * b < 2 ^ 64) : (usizeMul a b : Panicking ε ℕ) = .ok (a * b) := if_pos h

theorem usizeDiv_of_pos {a b : ℕ} (h : 0 < b) : (usizeDiv a b : Panicking ε ℕ) = .ok (a / b) := if_pos h

theorem usizeRem_of_pos {a b : ℕ} (h : 0 < b) : (usizeRem a b : Panicking ε ℕ) = .ok (a % b) := if_pos h

theorem indexAt_of_getElem? {xs : List α} {i : ℕ} {x : α} (h : xs[i]? = some x) :
    (indexAt xs i : Panicking ε α) = .ok x := by rw [indexAt, h]

theorem indexAt_of_lt {xs : List α} {i : ℕ} (h : i < xs.length) : (indexAt xs i : Panicking ε α) = .ok xs[i] :=
  indexAt_of_getElem? (List.getElem?_eq_getElem h)

theorem subslice_of_le {data : List UInt8} {start stop : ℕ} (h : start ≤ stop) (h' : stop ≤ data.length) :
    (subslice data start stop : Panicking ε _) = .ok (slice data start (stop - start)) := if_pos ⟨h, h'⟩

end Operations

/-! ### Errors that are reported -/

section Reported

variable {ε α β σ : Type}

@[simp] theorem reported_ok (a : α) : reported (.ok a : Except ε α) = .ok a := rfl

@[simp] theorem reported_error (e : ε) : reported (.error e : Except ε α) = .error (.error e) := rfl

@[simp] theorem ok_bind (a : α) (f : α → Panicking ε β) : (.ok a >>= f : Panicking ε β) = f a := rfl

@[simp] theorem error_bind (s : Stop ε) (f : α → Panicking ε β) : (.error s >>= f : Panicking ε β) = .error s := rfl

/-- **A computation that only reports errors does not panic.** -/
theorem reported_ne_panic (x : Except ε α) : reported x ≠ .error .panic := by
  intro h
  cases x with
  | ok a => cases h
  | error e => cases h

theorem reported_eq_ok {x : Except ε α} {a : α} : reported x = .ok a ↔ x = .ok a := by
  cases x with
  | ok a' => rw [reported_ok, Except.ok.injEq, Except.ok.injEq]
  | error e => simp

theorem reported_bind (x : Except ε α) (f : α → Except ε β) :
    reported (x >>= f) = reported x >>= fun a => reported (f a) := by
  cases x with
  | ok a => rfl
  | error e => rfl

theorem reported_ite (c : Prop) [Decidable c] (x y : Except ε α) :
    reported (if c then x else y) = if c then reported x else reported y := apply_ite reported c x y

/-- A sequence, from what its second part does after the first. -/
theorem reported_bind_congr {x : Except ε α} {f : α → Except ε β} {g : α → Panicking ε β}
    (h : ∀ a, x = .ok a → g a = reported (f a)) : reported x >>= g = reported (x >>= f) := by
  cases x with
  | ok a => exact h a rfl
  | error e => rfl

theorem foldlM_reported {f : σ → α → Except ε σ} {g : σ → α → Panicking ε σ} {xs : List α}
    (h : ∀ s, ∀ x ∈ xs, g s x = reported (f s x)) (s : σ) : xs.foldlM g s = reported (xs.foldlM f s) := by
  induction xs generalizing s with
  | nil => rfl
  | cons x xs ih =>
    rw [List.foldlM_cons, List.foldlM_cons, h s x List.mem_cons_self]
    exact reported_bind_congr fun a _ => ih (fun s y hy => h s y (List.mem_cons_of_mem x hy)) a

theorem mapM_reported {f : α → Except ε β} {g : α → Panicking ε β} {xs : List α}
    (h : ∀ x ∈ xs, g x = reported (f x)) : xs.mapM g = reported (xs.mapM f) := by
  induction xs with
  | nil => rfl
  | cons x xs ih =>
    rw [List.mapM_cons, List.mapM_cons, h x List.mem_cons_self]
    refine reported_bind_congr fun b _ => ?_
    rw [ih fun y hy => h y (List.mem_cons_of_mem x hy)]
    exact reported_bind_congr fun bs _ => rfl

end Reported

/-! ### Computations that do not panic -/

/-- `x` does not panic, and `Q` holds of its value. -/
structure Safe {ε α : Type} (x : Panicking ε α) (Q : α → Prop) : Prop where
  noPanic : x ≠ .error .panic
  post : ∀ a, x = .ok a → Q a

section Safe

variable {ε α β σ : Type}

theorem safe_ok {a : α} {Q : α → Prop} (h : Q a) : Safe (.ok a : Panicking ε α) Q := by
  constructor
  · intro hpanic
    cases hpanic
  · intro b hb
    cases hb
    exact h

theorem safe_reported {x : Except ε α} {Q : α → Prop} (h : ∀ a, x = .ok a → Q a) : Safe (reported x) Q :=
  ⟨reported_ne_panic x, fun a ha => h a (reported_eq_ok.mp ha)⟩

/-- **A sequence.** -/
theorem safe_bind {x : Panicking ε α} {f : α → Panicking ε β} {Q : α → Prop} {R : β → Prop} (hx : Safe x Q)
    (hf : ∀ a, Q a → Safe (f a) R) : Safe (x >>= f) R := by
  cases hresult : x with
  | ok a => exact hf a (hx.post a hresult)
  | error s =>
    refine ⟨fun hpanic => hx.noPanic ?_, fun b hb => ?_⟩
    · rw [hresult]
      exact congrArg Except.error (Except.error.inj hpanic)
    · cases hb

/-- **A loop**, with what holds depending on the elements that are done. -/
theorem safe_foldlM {P : List α → σ → Prop} {f : σ → α → Panicking ε σ} {xs : List α} {s : σ} (hs : P [] s)
    (hstep : ∀ done x s, done ++ [x] <+: xs → P done s → Safe (f s x) (P (done ++ [x]))) :
    Safe (xs.foldlM f s) (P xs) := by
  have hgeneral : ∀ (rest done : List α) (s : σ), done ++ rest = xs → P done s →
      Safe (rest.foldlM f s) (P (done ++ rest)) := by
    intro rest
    induction rest with
    | nil =>
      intro done s _ hs
      rw [List.append_nil]
      exact safe_ok hs
    | cons x rest ih =>
      intro done s hdone hs
      have hsplit : done ++ [x] ++ rest = xs := by rw [List.append_assoc]; exact hdone
      rw [List.foldlM_cons, show done ++ x :: rest = done ++ [x] ++ rest by simp]
      exact safe_bind (hstep done x s ⟨rest, hsplit⟩ hs) fun s' hs' => ih (done ++ [x]) s' hsplit hs'
  exact hgeneral xs [] s rfl hs

end Safe

end KernelSU.Lib
