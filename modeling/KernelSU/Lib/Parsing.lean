import Mathlib.Data.List.Infix
import Mathlib.Data.List.TakeWhile

/-!
# Parsers that backtrack, and what they read

A parser takes a list of tokens and returns a value and the tokens left over, or fails; an alternative runs its
parsers in order on the same input.

* `splitOnP_or` — **PROVED**: cutting at two kinds of separators at once is cutting twice;
* `alt_run` — **PROVED**: alternatives of which at most one succeeds may stand in any order;
* `Reads` — a parser reads a language: a relation of what is spelled, what follows it and the value;
* `Reads.spaced`, `Reads.last`, `Reads.lastOr` — **PROVED**: objects with blanks between them, the last of which may
  be left out at the end of the input.
-/

namespace KernelSU.Lib

variable {τ α β : Type}

/-- A parser: the value and the rest of the input, or `none`. -/
abbrev Parser (τ α : Type) := StateT (List τ) Option α

/-! ### Cutting -/

theorem modifyHead_append (f : α → α) {xs : List α} (h : xs ≠ []) (ys : List α) :
    (xs ++ ys).modifyHead f = xs.modifyHead f ++ ys := by
  cases xs with
  | nil => exact absurd rfl h
  | cons x xs => rfl

/-- Cutting at two kinds of separators is cutting at one and then at the other. -/
theorem splitOnP_or (p q : α → Bool) (xs : List α) :
    xs.splitOnP (fun c => p c || q c) = (xs.splitOnP p).flatMap (List.splitOnP q) := by
  induction xs with
  | nil => simp
  | cons x xs ih =>
    obtain ⟨first, others, hsplit⟩ := List.exists_cons_of_ne_nil (List.splitOnP_ne_nil p xs)
    rw [List.splitOnP_cons_eq_if_modifyHead, List.splitOnP_cons_eq_if_modifyHead, ih, hsplit]
    cases hp : p x with
    | true => simp
    | false =>
      rw [if_neg Bool.false_ne_true, Bool.false_or, List.modifyHead_cons, List.flatMap_cons, List.flatMap_cons,
        List.splitOnP_cons_eq_if_modifyHead]
      cases hq : q x with
      | true => simp
      | false =>
        rw [if_neg Bool.false_ne_true, if_neg Bool.false_ne_true,
          modifyHead_append _ (List.splitOnP_ne_nil q first)]

theorem of_mem_splitOnP {p : α → Bool} {xs piece : List α} (h : piece ∈ xs.splitOnP p) {c : α} (hc : c ∈ piece) :
    c ∈ xs ∧ p c = false := by
  induction xs generalizing piece with
  | nil =>
    obtain rfl := List.mem_singleton.mp h
    exact absurd hc List.not_mem_nil
  | cons x xs ih =>
    rw [List.splitOnP_cons_eq_if_modifyHead] at h
    have hrest : ∀ {piece}, piece ∈ xs.splitOnP p → c ∈ piece → c ∈ x :: xs ∧ p c = false :=
      fun h hc => ⟨List.mem_cons_of_mem x (ih h hc).1, (ih h hc).2⟩
    split_ifs at h with hp
    · rcases List.mem_cons.mp h with rfl | h
      · exact absurd hc List.not_mem_nil
      · exact hrest h hc
    · obtain ⟨first, others, hsplit⟩ := List.exists_cons_of_ne_nil (List.splitOnP_ne_nil p xs)
      rw [hsplit] at h hrest
      rw [List.modifyHead_cons, List.mem_cons] at h
      rcases h with rfl | h
      · rcases List.mem_cons.mp hc with rfl | hc
        · exact ⟨List.mem_cons_self, by simpa using hp⟩
        · exact hrest List.mem_cons_self hc
      · exact hrest (List.mem_cons_of_mem first h) hc

namespace Parser

variable {input rest : List τ}

theorem run_bind {p : Parser τ α} {f : α → Parser τ β} {b : β} :
    (p >>= f).run input = some (b, rest) ↔
      ∃ a mid, p.run input = some (a, mid) ∧ (f a).run mid = some (b, rest) := by
  simp [StateT.run_bind, Option.bind_eq_some_iff]

theorem run_return {a b : α} : (pure a : Parser τ α).run input = some (b, rest) ↔ b = a ∧ rest = input := by
  simp [StateT.run_pure, eq_comm]

theorem run_map {p : Parser τ α} {f : α → β} {b : β} :
    (f <$> p).run input = some (b, rest) ↔ ∃ a, p.run input = some (a, rest) ∧ f a = b := by
  simp [StateT.run_map]

/-! ### Primitives -/

/-- The tokens `t`. -/
def tag [DecidableEq τ] (t : List τ) : Parser τ (List τ) := fun input =>
  if t <+: input then some (t, input.drop t.length) else none

/-- The longest run of tokens, perhaps empty. -/
def takeWhile (p : τ → Bool) : Parser τ (List τ) := fun input => some (input.takeWhile p, input.dropWhile p)

/-- The longest run of tokens, not empty. -/
def takeWhile1 (p : τ → Bool) : Parser τ (List τ) := fun input =>
  if input.takeWhile p = [] then none else some (input.takeWhile p, input.dropWhile p)

/-- The longest run of at most `n` tokens, of at least `m`. -/
def takeWhileMN (m n : ℕ) (p : τ → Bool) : Parser τ (List τ) := fun input =>
  let run := (input.take n).takeWhile p
  if run.length < m then none else some (run, input.drop run.length)

/-- The first parser of a list that succeeds. -/
def alt (ps : List (Parser τ α)) : Parser τ α := fun input => ps.findSome? fun p => p.run input

theorem tag_run [DecidableEq τ] {t a : List τ} :
    (tag t).run input = some (a, rest) ↔ a = t ∧ input = t ++ rest := by
  show (if t <+: input then some (t, input.drop t.length) else none) = some (a, rest) ↔ _
  constructor
  · intro h
    split_ifs at h with hpre
    obtain ⟨tail, rfl⟩ := hpre
    rw [List.drop_left, Option.some.injEq, Prod.mk.injEq] at h
    exact ⟨h.1.symm, by rw [h.2]⟩
  · rintro ⟨rfl, rfl⟩
    rw [if_pos (List.prefix_append _ _), List.drop_left]

/-- The token list does not begin with a token of `p`. -/
def Stops (p : τ → Bool) (rest : List τ) : Prop := ∀ c ∈ rest.head?, p c = false

@[simp] theorem stops_nil (p : τ → Bool) : Stops p [] := nofun

@[simp] theorem stops_cons {p : τ → Bool} {c : τ} : Stops p (c :: rest) ↔ p c = false := by
  simp [Stops]

/-- A run and what stops it. -/
theorem takeWhile_eq_iff {p : τ → Bool} {a : List τ} :
    (input.takeWhile p = a ∧ input.dropWhile p = rest) ↔ input = a ++ rest ∧ (∀ c ∈ a, p c = true) ∧ Stops p rest := by
  constructor
  · rintro ⟨rfl, rfl⟩
    refine ⟨List.takeWhile_append_dropWhile.symm, fun c hc => List.mem_takeWhile_imp hc, ?_⟩
    intro c hc
    have hhead := List.head?_dropWhile_not p input
    rw [Option.mem_def] at hc
    rw [hc] at hhead
    simpa using hhead
  · rintro ⟨rfl, hall, hstops⟩
    rw [List.takeWhile_append_of_pos hall, List.dropWhile_append_of_pos hall]
    cases rest with
    | nil => simp
    | cons c rest => simp [stops_cons.mp hstops]

theorem takeWhile1_run {p : τ → Bool} {a : List τ} :
    (takeWhile1 p).run input = some (a, rest) ↔
      input = a ++ rest ∧ a ≠ [] ∧ (∀ c ∈ a, p c = true) ∧ Stops p rest := by
  show (if input.takeWhile p = [] then none else some (input.takeWhile p, input.dropWhile p)) = some (a, rest) ↔ _
  constructor
  · intro h
    split_ifs at h with hempty
    obtain ⟨hrun, hrest⟩ := Prod.mk.inj (Option.some.inj h)
    have hparts := takeWhile_eq_iff.mp ⟨hrun, hrest⟩
    exact ⟨hparts.1, hrun ▸ hempty, hparts.2⟩
  · rintro ⟨hinput, hne, hparts⟩
    obtain ⟨hrun, hrest⟩ := takeWhile_eq_iff.mpr ⟨hinput, hparts⟩
    rw [hrun, hrest, if_neg hne]

/-- A bounded run before a token that is not part of it. -/
theorem takeWhileMN_run {p : τ → Bool} {m n : ℕ} {a : List τ} {c : τ} (hc : p c = false) :
    (takeWhileMN m n p).run input = some (a, c :: rest) ↔
      input = a ++ c :: rest ∧ m ≤ a.length ∧ a.length ≤ n ∧ ∀ c ∈ a, p c = true := by
  show (if ((input.take n).takeWhile p).length < m then none
    else some ((input.take n).takeWhile p, input.drop ((input.take n).takeWhile p).length)) = some (a, c :: rest) ↔ _
  constructor
  · intro h
    split_ifs at h with hshort
    obtain ⟨rfl, hrest⟩ := Prod.mk.inj (Option.some.inj h)
    refine ⟨?_, Nat.not_lt.mp hshort, ?_, fun c hc => List.mem_takeWhile_imp hc⟩
    · have hpre : (input.take n).takeWhile p <+: input :=
        (List.takeWhile_prefix p).trans (List.take_prefix n input)
      rw [← hrest]
      exact (List.prefix_iff_eq_append.mp hpre).symm
    · exact (List.takeWhile_prefix p).length_le.trans (List.length_take_le n input)
  · rintro ⟨rfl, hm, hn, hall⟩
    have hrun : ((a ++ c :: rest).take n).takeWhile p = a := by
      rw [List.take_append, List.take_of_length_le hn, List.takeWhile_append_of_pos hall]
      cases n - a.length with
      | zero => simp
      | succ k => simp [hc]
    rw [hrun, if_neg (Nat.not_lt.mpr hm), List.drop_left]

/-- **Alternatives.**  Where at most one of the parsers succeeds, their order does not matter. -/
theorem alt_run {ps : List (Parser τ α)} {r : α × List τ}
    (hone : ps.Pairwise fun p q => (p.run input).isSome → (q.run input).isSome → False) :
    (alt ps).run input = some r ↔ ∃ p ∈ ps, p.run input = some r := by
  show ps.findSome? (fun p => p.run input) = some r ↔ _
  induction hone with
  | nil => simp
  | @cons p ps hp _ ih =>
    rw [List.findSome?_cons]
    cases hrun : p.run input with
    | none => simp [hrun, ih]
    | some r' =>
      have hrest : ∀ q ∈ ps, q.run input ≠ some r := by
        intro q hq hqr
        exact hp q hq (by rw [hrun]; rfl) (by rw [hqr]; rfl)
      simp only [List.exists_mem_cons_iff, hrun]
      constructor
      · exact Or.inl
      · rintro (h | ⟨q, hq, hqr⟩)
        · exact h
        · exact absurd hqr (hrest q hq)

/-! ### Languages -/

/-- Tokens of a kind, at least one. -/
def Run (q : τ → Bool) (s : List τ) : Prop := s ≠ [] ∧ ∀ c ∈ s, q c = true

/-- The longest run as a language: what is spelled, what follows, the value. -/
def Longest (q : τ → Bool) (s rest : List τ) (a : List τ) : Prop := a = s ∧ Run q s ∧ Stops q rest

theorem Run.stops {q r : τ → Bool} {s : List τ} (h : Run q s) (hqr : ∀ c, q c = true → r c = false) : Stops r s := by
  intro c hc
  exact hqr c (h.2 c (List.mem_of_head? hc))

theorem stops_append {q : τ → Bool} {s : List τ} (hne : s ≠ []) : Stops q (s ++ rest) ↔ Stops q s := by
  cases s with
  | nil => exact absurd rfl hne
  | cons c s => simp

section Languages

variable (blank : τ → Bool)

/-- A parser reads a language: it succeeds on exactly the inputs that begin with a spelling of the value that fits
what follows.  Spellings are not empty and begin with no blank. -/
structure Reads (p : Parser τ α) (L : List τ → List τ → α → Prop) : Prop where
  run_iff : ∀ input a rest, p.run input = some (a, rest) ↔ ∃ s, input = s ++ rest ∧ L s rest a
  solid : ∀ {s rest a}, L s rest a → s ≠ [] ∧ Stops blank s

/-- A spelling, blanks, and what comes after them for its value. -/
def Spaced (L : List τ → List τ → α → Prop) (M : α → List τ → List τ → β → Prop) (s rest : List τ) (r : β) : Prop :=
  ∃ s₁ a b s₂, s = s₁ ++ b ++ s₂ ∧ L s₁ (b ++ s₂ ++ rest) a ∧ Run blank b ∧ M a s₂ rest r

/-- A last spelling and what its value makes. -/
def Last (L : List τ → List τ → α → Prop) (f : α → β) (s rest : List τ) (r : β) : Prop := ∃ a, L s rest a ∧ r = f a

/-- A spelling that is the end of the input, or one that something follows. -/
def LastOr (L : List τ → List τ → α → Prop) (f : α → β) (M : α → List τ → List τ → β → Prop) (s rest : List τ)
    (r : β) : Prop :=
  rest = [] ∧ Last L f s [] r ∨ Spaced blank L M s rest r

variable {blank} {p : Parser τ α} {L : List τ → List τ → α → Prop} {q : α → Parser τ β}
  {M : α → List τ → List τ → β → Prop}

theorem reads_takeWhile1 {c : τ → Bool} (h : ∀ x, c x = true → blank x = false) :
    Reads blank (takeWhile1 c) (Longest c) := by
  constructor
  · intro input a rest
    rw [takeWhile1_run]
    constructor
    · rintro ⟨rfl, hne, hall, hstops⟩
      exact ⟨a, rfl, rfl, ⟨hne, hall⟩, hstops⟩
    · rintro ⟨s, rfl, rfl, ⟨hne, hall⟩, hstops⟩
      exact ⟨rfl, hne, hall, hstops⟩
  · rintro s rest a ⟨-, hrun, -⟩
    exact ⟨hrun.1, hrun.stops h⟩

/-- Blanks and the next object. -/
theorem Reads.blanks_run {q : Parser τ β} {M : List τ → List τ → β → Prop} {r : β} (hq : Reads blank q M) :
    (do let _ ← takeWhile1 blank; q).run input = some (r, rest) ↔
      ∃ b s, input = b ++ s ++ rest ∧ Run blank b ∧ M s rest r := by
  constructor
  · intro h
    obtain ⟨b, mid, hblanks, hrun⟩ := run_bind.mp h
    obtain ⟨rfl, hne, hall, -⟩ := takeWhile1_run.mp hblanks
    obtain ⟨s, rfl, hs⟩ := (hq.run_iff _ _ _).mp hrun
    exact ⟨b, s, (List.append_assoc _ _ _).symm, ⟨hne, hall⟩, hs⟩
  · rintro ⟨b, s, rfl, ⟨hne, hall⟩, hs⟩
    obtain ⟨hsolid, hstops⟩ := hq.solid hs
    refine run_bind.mpr ⟨b, s ++ rest, takeWhile1_run.mpr ⟨List.append_assoc _ _ _, hne, hall, ?_⟩, ?_⟩
    · exact (stops_append hsolid).mpr hstops
    · exact (hq.run_iff _ _ _).mpr ⟨s, rfl, hs⟩

theorem Reads.spaced_solid (hp : Reads blank p L) {s : List τ} {r : β} (h : Spaced blank L M s rest r) :
    s ≠ [] ∧ Stops blank s := by
  obtain ⟨s₁, a, b, s₂, rfl, hs₁, -, -⟩ := h
  obtain ⟨hne, hstops⟩ := hp.solid hs₁
  exact ⟨by simp [hne], by rw [List.append_assoc]; exact (stops_append hne).mpr hstops⟩

/-- **Objects with blanks between them.** -/
theorem Reads.spaced (hp : Reads blank p L) (hq : ∀ a, Reads blank (q a) (M a)) :
    Reads blank (do let a ← p; let _ ← takeWhile1 blank; q a) (Spaced blank L M) := by
  refine ⟨fun input r rest => ?_, hp.spaced_solid⟩
  constructor
  · intro h
    obtain ⟨a, mid, hrun, hnext⟩ := run_bind.mp h
    obtain ⟨b, s₂, rfl, hb, hs₂⟩ := (hq a).blanks_run.mp hnext
    obtain ⟨s₁, rfl, hs₁⟩ := (hp.run_iff _ _ _).mp hrun
    exact ⟨s₁ ++ b ++ s₂, by simp, s₁, a, b, s₂, rfl, hs₁, hb, hs₂⟩
  · rintro ⟨s, rfl, s₁, a, b, s₂, rfl, hs₁, hb, hs₂⟩
    exact run_bind.mpr ⟨a, b ++ s₂ ++ rest, (hp.run_iff _ _ _).mpr ⟨s₁, by simp, hs₁⟩,
      (hq a).blanks_run.mpr ⟨b, s₂, rfl, hb, hs₂⟩⟩

/-- The last object. -/
theorem Reads.last (hp : Reads blank p L) (f : α → β) : Reads blank (do let a ← p; return f a) (Last L f) := by
  constructor
  · intro input r rest
    constructor
    · intro h
      obtain ⟨a, mid, hrun, hreturn⟩ := run_bind.mp h
      obtain ⟨rfl, rfl⟩ := run_return.mp hreturn
      obtain ⟨s, hinput, hs⟩ := (hp.run_iff _ _ _).mp hrun
      exact ⟨s, hinput, a, hs, rfl⟩
    · rintro ⟨s, hinput, a, hs, rfl⟩
      exact run_bind.mpr ⟨a, rest, (hp.run_iff _ _ _).mpr ⟨s, hinput, hs⟩, run_return.mpr ⟨rfl, rfl⟩⟩
  · rintro s rest r ⟨a, hs, -⟩
    exact hp.solid hs

/-- The last object, or one more if the input goes on. -/
theorem Reads.lastOr [DecidableEq τ] (hp : Reads blank p L) (f : α → β) (hq : ∀ a, Reads blank (q a) (M a)) :
    Reads blank (do
        let a ← p
        let input ← get
        if input = [] then return f a else do let _ ← takeWhile1 blank; q a)
      (LastOr blank L f M) := by
  constructor
  · intro input r rest
    constructor
    · intro h
      obtain ⟨a, mid, hrun, hnext⟩ := run_bind.mp h
      obtain ⟨mid', mid'', hget, hnext⟩ := run_bind.mp hnext
      obtain ⟨rfl, rfl⟩ := Prod.mk.inj (Option.some.inj hget)
      obtain ⟨s, rfl, hs⟩ := (hp.run_iff _ _ _).mp hrun
      by_cases hend : mid = []
      · rw [if_pos hend] at hnext
        obtain ⟨rfl, rfl⟩ := run_return.mp hnext
        exact ⟨s, rfl, Or.inl ⟨hend, a, hend ▸ hs, rfl⟩⟩
      · rw [if_neg hend] at hnext
        obtain ⟨b, s₂, rfl, hb, hs₂⟩ := (hq a).blanks_run.mp hnext
        exact ⟨s ++ b ++ s₂, by simp, Or.inr ⟨s, a, b, s₂, rfl, hs, hb, hs₂⟩⟩
    · rintro ⟨s, rfl, ⟨rfl, a, hs, rfl⟩ | ⟨s₁, a, b, s₂, rfl, hs₁, hb, hs₂⟩⟩
      · refine run_bind.mpr ⟨a, [], (hp.run_iff _ _ _).mpr ⟨s, rfl, hs⟩, run_bind.mpr ⟨[], [], rfl, ?_⟩⟩
        rw [if_pos rfl]
        exact run_return.mpr ⟨rfl, rfl⟩
      · have hmore : b ++ s₂ ++ rest ≠ [] := by simp [hb.1]
        refine run_bind.mpr ⟨a, b ++ s₂ ++ rest, (hp.run_iff _ _ _).mpr ⟨s₁, by simp, hs₁⟩,
          run_bind.mpr ⟨_, _, rfl, ?_⟩⟩
        rw [if_neg hmore]
        exact (hq a).blanks_run.mpr ⟨b, s₂, rfl, hb, hs₂⟩
  · rintro s rest r (⟨rfl, a, hs, -⟩ | hspaced)
    · exact hp.solid hs
    · exact hp.spaced_solid hspaced

end Languages

end Parser

end KernelSU.Lib
