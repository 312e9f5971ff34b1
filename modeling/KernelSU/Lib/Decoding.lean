import KernelSU.Lib.Reading

/-!
# Exact decoders

A decoder reads a value at a cursor and returns the cursor behind it.  `Decodes` says that it does so
*exactly* for a wire format: it accepts the encodings of the good values and nothing else, what it
refuses is what the format calls malformed, and it reads inside the buffer whatever the buffer holds.

A format is given by three things: how a value is written (`enc`), which values may be written (`good`),
and which byte strings do not start with a good value (`bad`).  Formats compose, and exactness with
them:

* `Decodes.seq` — one value after another, where the second format may depend on the first value;
* `decodes_repeat` — a given number of values in a row.

The cursor type is a parameter: `place n` is the cursor at position `n`.
-/

namespace KernelSU.Lib

open Reading

variable {γ ε κ α β : Type}

/-- `p` reads exactly the format (`enc`, `good`, `bad`) from the buffer `buf`. -/
structure Decodes (buf : List γ) (place : ℕ → κ) (enc : α → List γ) (good : α → Prop)
    (bad : List γ → Prop) (p : κ → Reading ε (α × κ)) : Prop where
  /-- An encoded good value is read. -/
  complete : ∀ {cur a rest}, cur ≤ buf.length → good a → buf.drop cur = enc a ++ rest →
    (p (place cur)).result = .ok (a, place (cur + (enc a).length))
  /-- What is read is an encoded good value. -/
  sound : ∀ {cur a k}, cur ≤ buf.length → (p (place cur)).result = .ok (a, k) →
    good a ∧ k = place (cur + (enc a).length) ∧ ∃ rest, buf.drop cur = enc a ++ rest
  /-- What is refused is malformed. -/
  malformed : ∀ {cur e}, cur ≤ buf.length → (p (place cur)).result = .error e → bad (buf.drop cur)
  /-- What is malformed is refused. -/
  refuses : ∀ {cur}, cur ≤ buf.length → bad (buf.drop cur) → ∃ e, (p (place cur)).result = .error e
  /-- Every read is inside the buffer. -/
  within : ∀ {cur}, cur ≤ buf.length → Within 0 buf.length (p (place cur))

variable {buf : List γ} {place : ℕ → κ}

/-- The rest after a value: its position is in the buffer, and it is what stands there. -/
theorem drop_after {cur : ℕ} {w rest : List γ} (hcur : cur ≤ buf.length)
    (h : buf.drop cur = w ++ rest) :
    cur + w.length ≤ buf.length ∧ buf.drop (cur + w.length) = rest := by
  have hlen := congrArg List.length h
  rw [List.length_drop, List.length_append] at hlen
  refine ⟨by omega, ?_⟩
  rw [← List.drop_drop, h, List.drop_left]

namespace Decodes

variable {enc : α → List γ} {good : α → Prop} {bad : List γ → Prop}
  {p : κ → Reading ε (α × κ)} {enc' : α → β → List γ} {good' : α → β → Prop}
  {bad' : α → List γ → Prop} {q : α → κ → Reading ε (β × κ)}

/-- **One value after another.**  The pair is malformed when its first part is, or when its second
part is after a good first one. -/
theorem seq (hp : Decodes buf place enc good bad p)
    (hq : ∀ a, good a → Decodes buf place (enc' a) (good' a) (bad' a) (q a)) :
    Decodes buf place (fun r : α × β => enc r.1 ++ enc' r.1 r.2)
      (fun r => good r.1 ∧ good' r.1 r.2)
      (fun rest => bad rest ∨ ∃ a rest', good a ∧ rest = enc a ++ rest' ∧ bad' a rest')
      (fun k => do
        let r ← p k
        let s ← q r.1 r.2
        return ((r.1, s.1), s.2)) where
  complete := by
    rintro cur ⟨a, b⟩ rest hcur ⟨hga, hgb⟩ hdrop
    rw [List.append_assoc] at hdrop
    have hfirst := hp.complete hcur hga hdrop
    obtain ⟨hle, hrest⟩ := drop_after hcur hdrop
    have hsecond := (hq a hga).complete hle hgb hrest
    rw [bind_of_ok hfirst, bind_of_ok hsecond, List.length_append, ← Nat.add_assoc]
    rfl
  sound := by
    rintro cur ⟨a, b⟩ k hcur h
    obtain ⟨⟨a', k'⟩, hfirst, h⟩ := bind_result_ok.mp h
    obtain ⟨hga, rfl, rest, hdrop⟩ := hp.sound hcur hfirst
    obtain ⟨hle, hrest⟩ := drop_after hcur hdrop
    obtain ⟨⟨b', k''⟩, hsecond, h⟩ := bind_result_ok.mp h
    obtain ⟨hgb, rfl, rest', hdrop'⟩ := (hq a' hga).sound hle hsecond
    cases h
    refine ⟨⟨hga, hgb⟩, ?_, rest', ?_⟩
    · rw [List.length_append, ← Nat.add_assoc]
    · rw [hdrop, ← hrest, hdrop', List.append_assoc]
  malformed := by
    intro cur e hcur h
    rcases bind_result_error.mp h with hfirst | ⟨⟨a, k⟩, hfirst, h⟩
    · exact Or.inl (hp.malformed hcur hfirst)
    · obtain ⟨hga, rfl, rest, hdrop⟩ := hp.sound hcur hfirst
      obtain ⟨hle, hrest⟩ := drop_after hcur hdrop
      rcases bind_result_error.mp h with hsecond | ⟨s, -, h⟩
      · have hbad := (hq a hga).malformed hle hsecond
        rw [hrest] at hbad
        exact Or.inr ⟨a, rest, hga, hdrop, hbad⟩
      · cases h
  refuses := by
    rintro cur hcur (hbad | ⟨a, rest, hga, hdrop, hbad⟩)
    · obtain ⟨e, he⟩ := hp.refuses hcur hbad
      exact ⟨e, bind_result_error.mpr (Or.inl he)⟩
    · obtain ⟨hle, hrest⟩ := drop_after hcur hdrop
      have hfirst := hp.complete hcur hga hdrop
      rw [← hrest] at hbad
      obtain ⟨e, he⟩ := (hq a hga).refuses hle hbad
      exact ⟨e, bind_result_error.mpr
        (Or.inr ⟨_, hfirst, bind_result_error.mpr (Or.inl he)⟩)⟩
  within := by
    intro cur hcur
    refine within_bind (hp.within hcur) fun r hr => ?_
    obtain ⟨hga, hk, rest, hdrop⟩ := hp.sound hcur hr
    obtain ⟨hle, -⟩ := drop_after hcur hdrop
    rw [hk]
    exact within_bind ((hq r.1 hga).within hle) fun s _ => within_pure _ _ _

/-- **The values under another name.** -/
theorem map (hp : Decodes buf place enc good bad p) (f : α → β) {enc₂ : β → List γ}
    {good₂ : β → Prop} (henc : ∀ a, enc₂ (f a) = enc a)
    (hgood : ∀ b, good₂ b ↔ ∃ a, good a ∧ f a = b) :
    Decodes buf place enc₂ good₂ bad (fun k => do
      let r ← p k
      return (f r.1, r.2)) where
  complete := by
    intro cur b rest hcur hb hdrop
    obtain ⟨a, hga, rfl⟩ := (hgood b).mp hb
    rw [henc] at hdrop ⊢
    rw [bind_of_ok (hp.complete hcur hga hdrop)]
    rfl
  sound := by
    intro cur b k hcur h
    obtain ⟨⟨a, k'⟩, hr, h⟩ := bind_result_ok.mp h
    obtain ⟨hga, rfl, rest, hdrop⟩ := hp.sound hcur hr
    cases h
    refine ⟨(hgood _).mpr ⟨a, hga, rfl⟩, by rw [henc], rest, by rw [henc]; exact hdrop⟩
  malformed := by
    intro cur e hcur h
    rcases bind_result_error.mp h with hr | ⟨r, -, h⟩
    · exact hp.malformed hcur hr
    · cases h
  refuses := by
    intro cur hcur hbad
    obtain ⟨e, he⟩ := hp.refuses hcur hbad
    exact ⟨e, bind_result_error.mpr (Or.inl he)⟩
  within := fun hcur => within_bind (hp.within hcur) fun _ _ => within_pure _ _ _

/-- What is malformed may be described in other words. -/
theorem congr_bad (hp : Decodes buf place enc good bad p) {bad₂ : List γ → Prop}
    (hbad : ∀ rest, bad₂ rest ↔ bad rest) : Decodes buf place enc good bad₂ p := by
  have h : bad₂ = bad := funext fun rest => propext (hbad rest)
  rw [h]
  exact hp

/-- A format that is decoded exactly is prefix-free: a good value at the head of a buffer is the only
one there. -/
theorem unique {a a' : α} {rest rest' : List γ}
    (hp : Decodes (enc a ++ rest) place enc good bad p) (ha : good a) (ha' : good a')
    (h : enc a ++ rest = enc a' ++ rest') : a = a' ∧ rest = rest' := by
  have h₁ := hp.complete (Nat.zero_le _) ha rfl
  have h₂ := hp.complete (Nat.zero_le _) ha' h
  rw [h₁] at h₂
  have haa : a = a' := (Prod.mk.inj (Except.ok.inj h₂)).1
  subst haa
  exact ⟨rfl, List.append_cancel_left h⟩

/-- What starts with a good value is not malformed. -/
theorem not_bad {a : α} {rest : List γ} (hp : Decodes (enc a ++ rest) place enc good bad p)
    (ha : good a) : ¬ bad (enc a ++ rest) := by
  intro hbad
  obtain ⟨e, he⟩ := hp.refuses (Nat.zero_le _) hbad
  rw [hp.complete (Nat.zero_le _) ha rfl] at he
  cases he

end Decodes

/-- `n` values in a row. -/
def decodeRepeat (p : κ → Reading ε (α × κ)) : ℕ → κ → Reading ε (List α × κ)
  | 0, k => pure ([], k)
  | n + 1, k => do
    let r ← p k
    let s ← decodeRepeat p n r.2
    return (r.1 :: s.1, s.2)

/-- What is malformed for `n` values in a row: after fewer than `n` good ones, the next is
malformed. -/
def BadRepeat (enc : α → List γ) (good : α → Prop) (bad : List γ → Prop) (n : ℕ)
    (rest : List γ) : Prop :=
  ∃ (as : List α) (rest' : List γ),
    as.length < n ∧ (∀ a ∈ as, good a) ∧ rest = as.flatMap enc ++ rest' ∧ bad rest'

theorem badRepeat_succ {enc : α → List γ} {good : α → Prop} {bad : List γ → Prop} {n : ℕ}
    {rest : List γ} :
    BadRepeat enc good bad (n + 1) rest ↔
      bad rest ∨ ∃ a rest', good a ∧ rest = enc a ++ rest' ∧ BadRepeat enc good bad n rest' := by
  constructor
  · rintro ⟨as, rest', hlen, hgood, hrest, hbad⟩
    cases as with
    | nil => exact Or.inl (by rw [hrest]; exact hbad)
    | cons a as =>
      refine Or.inr ⟨a, as.flatMap enc ++ rest', hgood a List.mem_cons_self, ?_, as, rest', ?_,
        fun b hb => hgood b (List.mem_cons_of_mem a hb), rfl, hbad⟩
      · rw [hrest, List.flatMap_cons, List.append_assoc]
      · rw [List.length_cons] at hlen
        omega
  · rintro (hbad | ⟨a, rest', hga, hrest, as, rest'', hlen, hgood, hrest', hbad⟩)
    · exact ⟨[], rest, Nat.succ_pos n, List.forall_mem_nil _, rfl, hbad⟩
    · refine ⟨a :: as, rest'', by rw [List.length_cons]; omega, ?_, ?_, hbad⟩
      · intro b hb
        rcases List.mem_cons.mp hb with rfl | hb
        · exact hga
        · exact hgood b hb
      · rw [hrest, hrest', List.flatMap_cons, List.append_assoc]

/-- **A given number of values in a row.** -/
theorem decodes_repeat {enc : α → List γ} {good : α → Prop} {bad : List γ → Prop}
    {p : κ → Reading ε (α × κ)} (hp : Decodes buf place enc good bad p) (n : ℕ) :
    Decodes buf place (fun as : List α => as.flatMap enc)
      (fun as => as.length = n ∧ ∀ a ∈ as, good a) (BadRepeat enc good bad n)
      (decodeRepeat p n) := by
  induction n with
  | zero =>
    refine ⟨?_, ?_, ?_, ?_, ?_⟩
    · rintro cur as rest - ⟨hlen, -⟩ -
      rw [List.length_eq_zero_iff.mp hlen]
      rfl
    · intro cur as k _ h
      cases h
      exact ⟨⟨rfl, List.forall_mem_nil _⟩, rfl, buf.drop cur, rfl⟩
    · intro cur e _ h
      cases h
    · rintro cur - ⟨as, rest', hlen, -⟩
      exact absurd hlen (Nat.not_lt_zero _)
    · intro cur _
      exact within_pure _ _ _
  | succ n ih =>
    have hstep : decodeRepeat p (n + 1) = fun k => do
        let r ← (do
          let r ← p k
          let s ← decodeRepeat p n r.2
          return ((r.1, s.1), s.2))
        return (r.1.1 :: r.1.2, r.2) := by
      funext k
      simp only [decodeRepeat, bind_assoc, pure_bind]
    rw [hstep]
    refine ((hp.seq fun _ _ => ih).map (fun r => r.1 :: r.2) (fun _ => rfl) ?_).congr_bad
      fun _ => badRepeat_succ
    intro as
    constructor
    · rintro ⟨hlen, hgood⟩
      cases as with
      | nil => cases hlen
      | cons a as =>
        exact ⟨(a, as), ⟨hgood a List.mem_cons_self, Nat.succ.inj hlen,
          fun b hb => hgood b (List.mem_cons_of_mem a hb)⟩, rfl⟩
    · rintro ⟨⟨a, as⟩, ⟨hga, hlen, hgood⟩, rfl⟩
      exact ⟨congrArg Nat.succ hlen, List.forall_mem_cons.mpr ⟨hga, hgood⟩⟩

end KernelSU.Lib
