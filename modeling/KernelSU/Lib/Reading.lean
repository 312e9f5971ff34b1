import Mathlib.Data.List.Basic
import Mathlib.Data.Int.Basic
import Mathlib.Tactic.Linarith

/-!
# Fallible readers that log what they read

A parser of untrusted bytes has to be right twice: its answer must be right, and every access it makes
on the way to that answer, failed attempts included, must stay inside the buffer.  `Reading ε α` is a
computation that either fails with an `ε` or returns an `α`, together with the list of the spans it
has read so far.  A failure keeps the log.

* `bind_result_ok`, `bind_result_error` — a sequence succeeds exactly when both parts do;
* `Within lo hi` — every logged span lies in `[lo, hi]`; it is preserved by `pure`, `fail` and `bind`
  (`within_pure`, `within_fail`, `within_bind`), so a parser stays in bounds when each of its reads does;
* `Never e` — a computation does not fail with `e`, which composes in the same way (`never_bind`);
* `value` — what a computation returns, its log put aside (`value_bind`);
* `isSomeAnd`, `andAlso`, `all` — questions whose reads may fail, and when their answer is yes;
* `read` — the one primitive: it logs the span and returns the bytes.
-/

namespace KernelSU.Lib

/-- The cells `offset, …, offset + size - 1`.  Offsets are integers: a position computed by
subtraction may be negative. -/
structure Span where
  offset : ℤ
  size : ℕ
  deriving DecidableEq, Repr

/-- A fallible computation with the log of the spans it has read. -/
structure Reading (ε α : Type*) where
  result : Except ε α
  reads : List Span
  deriving Repr

namespace Reading

universe u v

variable {ε : Type u} {α β : Type v}

/-- Log one span and return what was read. -/
def read (s : Span) (a : α) : Reading ε α := ⟨.ok a, [s]⟩

/-- Fail without reading anything. -/
def fail (e : ε) : Reading ε α := ⟨.error e, []⟩

/-- Run `x`, then `f` on its result.  The second log is appended to the first. -/
def andThen (x : Reading ε α) (f : α → Reading ε β) : Reading ε β :=
  match x.result with
  | .ok a => ⟨(f a).result, x.reads ++ (f a).reads⟩
  | .error e => ⟨.error e, x.reads⟩

instance : Monad (Reading ε) where
  pure a := ⟨.ok a, []⟩
  bind := andThen

/-- Fail with `e` unless the check passes. -/
def ensure (c : Prop) [Decidable c] (e : ε) : Reading ε Unit :=
  if c then pure () else fail e

/-- Whether `x` succeeds.  The log is kept. -/
def succeeds {ε' : Type*} (x : Reading ε α) : Reading ε' Bool := ⟨.ok x.result.isOk, x.reads⟩

/-- A value that may be missing. -/
def ofOption (o : Option α) (e : ε) : Reading ε α :=
  match o with
  | some a => pure a
  | none => fail e

/-- What `x` returns, if it does not fail. -/
def value (x : Reading ε α) : Option α := x.result.toOption

/-- `Option::is_some_and`: where `x` fails, the answer is no. -/
def isSomeAnd {ε' : Type*} (x : Reading ε α) (p : α → Reading ε' Bool) : Reading ε' Bool :=
  match x.result with
  | .ok a => ⟨(p a).result, x.reads ++ (p a).reads⟩
  | .error _ => ⟨.ok false, x.reads⟩

/-- `&&`: after a no, `y` is not asked. -/
def andAlso (x y : Reading ε Bool) : Reading ε Bool :=
  isSomeAnd x fun b => if b then y else pure false

/-- `Iterator::all`: after a no, the rest is not asked. -/
def all {α : Type*} (p : α → Reading ε Bool) : List α → Reading ε Bool
  | [] => pure true
  | a :: as => andAlso (p a) (all p as)

@[simp] theorem pure_result (a : α) : (pure a : Reading ε α).result = .ok a := rfl

@[simp] theorem pure_reads (a : α) : (pure a : Reading ε α).reads = [] := rfl

@[simp] theorem fail_result (e : ε) : (fail e : Reading ε α).result = .error e := rfl

@[simp] theorem fail_reads (e : ε) : (fail e : Reading ε α).reads = [] := rfl

@[simp] theorem read_result (s : Span) (a : α) : (read s a : Reading ε α).result = .ok a := rfl

@[simp] theorem read_reads (s : Span) (a : α) : (read s a : Reading ε α).reads = [s] := rfl

theorem bind_of_ok {x : Reading ε α} {a : α} (h : x.result = .ok a) (f : α → Reading ε β) :
    x >>= f = ⟨(f a).result, x.reads ++ (f a).reads⟩ := by
  show andThen x f = _
  rw [andThen, h]

theorem bind_of_error {x : Reading ε α} {e : ε} (h : x.result = .error e) (f : α → Reading ε β) :
    x >>= f = ⟨.error e, x.reads⟩ := by
  show andThen x f = _
  rw [andThen, h]

@[simp] theorem pure_bind (a : α) (f : α → Reading ε β) : (pure a >>= f) = f a := by
  rw [bind_of_ok (pure_result a), pure_reads, List.nil_append]

@[simp] theorem fail_bind (e : ε) (f : α → Reading ε β) : (fail e >>= f) = fail e :=
  bind_of_error (fail_result e) f

@[simp] theorem read_bind_result (s : Span) (a : α) (f : α → Reading ε β) :
    (read s a >>= f).result = (f a).result := by
  rw [bind_of_ok (read_result s a)]

theorem bind_assoc {δ : Type v} (x : Reading ε α) (f : α → Reading ε β) (g : β → Reading ε δ) :
    x >>= f >>= g = x >>= fun a => f a >>= g := by
  cases hx : x.result with
  | error e => rw [bind_of_error hx, bind_of_error hx, bind_of_error rfl]
  | ok a =>
    rw [bind_of_ok hx, bind_of_ok hx]
    cases hf : (f a).result with
    | error e => rw [bind_of_error rfl, bind_of_error hf]
    | ok b => rw [bind_of_ok rfl, bind_of_ok hf, List.append_assoc]

/-- **A sequence succeeds exactly when both parts do.** -/
theorem bind_result_ok {x : Reading ε α} {f : α → Reading ε β} {b : β} :
    (x >>= f).result = .ok b ↔ ∃ a, x.result = .ok a ∧ (f a).result = .ok b := by
  cases hx : x.result with
  | ok a =>
    rw [bind_of_ok hx]
    constructor
    · intro h
      exact ⟨a, rfl, h⟩
    · rintro ⟨a', ha, h⟩
      cases ha
      exact h
  | error e =>
    rw [bind_of_error hx]
    constructor
    · intro h
      cases h
    · rintro ⟨a', ha, -⟩
      cases ha

/-- A sequence fails when its first part fails, or when its second part fails after it. -/
theorem bind_result_error {x : Reading ε α} {f : α → Reading ε β} {e : ε} :
    (x >>= f).result = .error e ↔
      x.result = .error e ∨ ∃ a, x.result = .ok a ∧ (f a).result = .error e := by
  cases hx : x.result with
  | ok a =>
    rw [bind_of_ok hx]
    constructor
    · intro h
      exact Or.inr ⟨a, rfl, h⟩
    · rintro (h | ⟨a', ha, h⟩)
      · cases h
      · cases ha
        exact h
  | error e' =>
    rw [bind_of_error hx]
    constructor
    · intro h
      cases h
      exact Or.inl rfl
    · rintro (h | ⟨a', ha, -⟩)
      · cases h
        rfl
      · cases ha

@[simp] theorem ensure_result_ok {c : Prop} [Decidable c] {e : ε} {u : Unit} :
    (ensure c e : Reading ε Unit).result = .ok u ↔ c := by
  by_cases hc : c
  · rw [ensure, if_pos hc]
    exact iff_of_true rfl hc
  · rw [ensure, if_neg hc]
    exact iff_of_false (fun h => nomatch h) hc

@[simp] theorem succeeds_result {ε' : Type*} (x : Reading ε α) :
    (succeeds x : Reading ε' Bool).result = .ok x.result.isOk := rfl

/-! ### What is returned -/

theorem value_eq_some {x : Reading ε α} {a : α} : x.value = some a ↔ x.result = .ok a := by
  rw [value]
  cases x.result <;> simp [Except.toOption]

@[simp] theorem value_pure (a : α) : (pure a : Reading ε α).value = some a := rfl

@[simp] theorem value_fail (e : ε) : (fail e : Reading ε α).value = none := rfl

@[simp] theorem value_read (s : Span) (a : α) : (read s a : Reading ε α).value = some a := rfl

@[simp] theorem value_ofOption (o : Option α) (e : ε) : (ofOption o e).value = o := by
  cases o <;> rfl

@[simp] theorem value_bind (x : Reading ε α) (f : α → Reading ε β) :
    (x >>= f).value = x.value.bind fun a => (f a).value := by
  cases hx : x.result with
  | ok a =>
    rw [bind_of_ok hx, value_eq_some.mpr hx]
    rfl
  | error e =>
    rw [bind_of_error hx, value, value, hx]
    rfl

theorem value_ensure_bind {β : Type} {c : Prop} [Decidable c] {e : ε} {f : Unit → Reading ε β} {b : β} :
    (ensure c e >>= f).value = some b ↔ c ∧ (f ()).value = some b := by
  by_cases hc : c
  · rw [ensure, if_pos hc, pure_bind]
    exact (and_iff_right hc).symm
  · rw [ensure, if_neg hc, fail_bind, value_fail]
    exact iff_of_false (fun h => nomatch h) fun h => hc h.1

/-- The answer is yes. -/
def Holds (x : Reading ε Bool) : Prop := x.value = some true

@[simp] theorem holds_pure (b : Bool) : Holds (pure b : Reading ε Bool) ↔ b = true := by
  rw [Holds, value_pure, Option.some.injEq]

theorem holds_succeeds {ε' : Type*} (x : Reading ε α) : Holds (succeeds x : Reading ε' Bool) ↔ ∃ a, x.value = some a := by
  rw [Holds, value_eq_some, succeeds_result, Except.ok.injEq, value]
  cases x.result <;> simp [Except.isOk, Except.toBool, Except.toOption]

theorem holds_isSomeAnd {ε' : Type*} {x : Reading ε α} {p : α → Reading ε' Bool} :
    Holds (isSomeAnd x p) ↔ ∃ a, x.value = some a ∧ Holds (p a) := by
  simp only [value_eq_some, Holds, isSomeAnd]
  cases x.result with
  | ok a => simp
  | error e => simp

@[simp] theorem holds_andAlso {x y : Reading ε Bool} : Holds (andAlso x y) ↔ Holds x ∧ Holds y := by
  rw [andAlso, holds_isSomeAnd]
  constructor
  · rintro ⟨b, hb, hy⟩
    cases b with
    | true => exact ⟨hb, hy⟩
    | false => exact absurd hy (by simp)
  · rintro ⟨hx, hy⟩
    exact ⟨true, hx, hy⟩

/-- **All answers are yes.** -/
theorem holds_all {α : Type*} {p : α → Reading ε Bool} {as : List α} : Holds (all p as) ↔ ∀ a ∈ as, Holds (p a) := by
  induction as with
  | nil => simp [all]
  | cons a as ih => rw [all, holds_andAlso, ih, List.forall_mem_cons]

/-! ### Failures that do not happen -/

/-- `x` does not fail with `e`. -/
def Never (e : ε) (x : Reading ε α) : Prop := x.result ≠ .error e

theorem never_pure (e : ε) (a : α) : Never e (pure a : Reading ε α) := fun h => nomatch h

theorem never_succeeds {ε' : Type*} (e : ε') (x : Reading ε α) : Never e (succeeds x : Reading ε' Bool) :=
  fun h => nomatch h

theorem never_read (e : ε) (s : Span) (a : α) : Never e (read s a : Reading ε α) := fun h => nomatch h

theorem never_fail {e e' : ε} (h : e' ≠ e) : Never e (fail e' : Reading ε α) := by
  intro heq
  exact h (Except.error.inj heq)

theorem never_ensure {e e' : ε} (h : e' ≠ e) (c : Prop) [Decidable c] :
    Never e (ensure c e' : Reading ε Unit) := by
  rw [ensure]
  split
  · exact never_pure e ()
  · exact never_fail h

theorem never_bind {e : ε} {x : Reading ε α} {f : α → Reading ε β} (hx : Never e x)
    (hf : ∀ a, x.result = .ok a → Never e (f a)) : Never e (x >>= f) := by
  intro h
  rcases bind_result_error.mp h with h | ⟨a, ha, h⟩
  · exact hx h
  · exact hf a ha h

/-! ### Staying in bounds -/

/-- Every span read so far lies in `[lo, hi]`. -/
def Within (lo hi : ℤ) (x : Reading ε α) : Prop :=
  ∀ s ∈ x.reads, lo ≤ s.offset ∧ s.offset + s.size ≤ hi

theorem within_pure (lo hi : ℤ) (a : α) : Within lo hi (pure a : Reading ε α) := by
  intro s hs
  cases hs

theorem within_fail (lo hi : ℤ) (e : ε) : Within lo hi (fail e : Reading ε α) := by
  intro s hs
  cases hs

theorem within_read {lo hi : ℤ} {s : Span} (a : α) (h₁ : lo ≤ s.offset)
    (h₂ : s.offset + s.size ≤ hi) : Within lo hi (read s a : Reading ε α) := by
  intro s' hs
  rw [read_reads, List.mem_singleton] at hs
  rw [hs]
  exact ⟨h₁, h₂⟩

theorem within_succeeds {ε' : Type*} {lo hi : ℤ} {x : Reading ε α} (hx : Within lo hi x) :
    Within lo hi (succeeds x : Reading ε' Bool) := hx

theorem within_ensure (lo hi : ℤ) (c : Prop) [Decidable c] (e : ε) :
    Within lo hi (ensure c e : Reading ε Unit) := by
  rw [ensure]
  split
  · exact within_pure lo hi ()
  · exact within_fail lo hi e

/-- **Bounds compose.**  A sequence stays in bounds when its first part does and, after each result
of the first part, its second part does. -/
theorem within_bind {lo hi : ℤ} {x : Reading ε α} {f : α → Reading ε β} (hx : Within lo hi x)
    (hf : ∀ a, x.result = .ok a → Within lo hi (f a)) : Within lo hi (x >>= f) := by
  cases hr : x.result with
  | ok a =>
    rw [bind_of_ok hr]
    intro s hs
    rcases List.mem_append.mp hs with h | h
    · exact hx s h
    · exact hf a hr s h
  | error e =>
    rw [bind_of_error hr]
    exact hx

theorem within_ofOption (lo hi : ℤ) (o : Option α) (e : ε) : Within lo hi (ofOption o e) := by
  cases o with
  | none => exact within_fail lo hi e
  | some a => exact within_pure lo hi a

theorem within_isSomeAnd {ε' : Type*} {lo hi : ℤ} {x : Reading ε α} {p : α → Reading ε' Bool} (hx : Within lo hi x)
    (hp : ∀ a, Within lo hi (p a)) : Within lo hi (isSomeAnd x p) := by
  rw [isSomeAnd]
  split
  · intro s hs
    rcases List.mem_append.mp hs with h | h
    · exact hx s h
    · exact hp _ s h
  · exact hx

theorem within_andAlso {lo hi : ℤ} {x y : Reading ε Bool} (hx : Within lo hi x) (hy : Within lo hi y) :
    Within lo hi (andAlso x y) := by
  refine within_isSomeAnd hx fun b => ?_
  cases b with
  | true => exact hy
  | false => exact within_pure lo hi false

theorem within_all {α : Type*} {lo hi : ℤ} {p : α → Reading ε Bool} (hp : ∀ a, Within lo hi (p a)) (as : List α) :
    Within lo hi (all p as) := by
  induction as with
  | nil => exact within_pure lo hi true
  | cons a as ih => exact within_andAlso (hp a) ih

end Reading

end KernelSU.Lib
