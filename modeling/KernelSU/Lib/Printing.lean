import KernelSU.Lib.Parsing
import Mathlib.Data.List.Count

/-!
# Texts that a parser reads back

A text is written as tokens with blanks between them, and a parser either makes of it what it was written for or
fails.  Some objects have brackets around them; a text that ends inside of a pair of brackets is not read at all.

* `Printed` — a text, what it was written for, and the condition under which the parser makes that of it;
* `Printed.step` — **PROVED**: an object, blanks and a printed text are a printed text;
* `Printed.spaced`, `Printed.last`, `Printed.lastOr`, `Printed.lastEnd` — **PROVED**: its instances.
-/

namespace KernelSU.Lib.Parser

variable {τ α β : Type}

/-- Blanks follow, or nothing. -/
def Ends (blank : τ → Bool) (rest : List τ) : Prop := Stops (fun c => !blank c) rest

theorem ends_append {blank : τ → Bool} {b : List τ} (hb : Run blank b) (rest : List τ) : Ends blank (b ++ rest) :=
  (stops_append hb.1).mpr (hb.stops fun c hc => by rw [hc]; rfl)

/-- A first object and the objects after it, with the blanks before each of these. -/
def written : List τ → List (List τ × List τ) → List τ
  | s, [] => s
  | s, (b, t) :: objs => s ++ b ++ written t objs

/-- A beginning of two texts is one of the first, or the first and a beginning of the second. -/
theorem prefix_append_or {z s t : List τ} (h : z <+: s ++ t) : z <+: s ∨ ∃ z', z = s ++ z' ∧ z' <+: t := by
  rcases List.prefix_or_prefix_of_prefix h (List.prefix_append s t) with hz | ⟨z', rfl⟩
  · exact Or.inl hz
  · exact Or.inr ⟨z', rfl, (List.prefix_append_right_inj s).mp h⟩

/-- So is a beginning with its last token. -/
theorem concat_prefix_append_or {z s t : List τ} {c : τ} (h : z ++ [c] <+: s ++ t) :
    z ++ [c] <+: s ∨ ∃ z', z = s ++ z' ∧ z' ++ [c] <+: t := by
  rcases prefix_append_or h with hs | ⟨w, heq, hw⟩
  · exact Or.inl hs
  · rcases List.eq_nil_or_concat w with rfl | ⟨z', c', rfl⟩
    · rw [List.append_nil] at heq
      exact Or.inl (heq ▸ List.prefix_refl _)
    · rw [List.concat_eq_append, ← List.append_assoc] at heq
      obtain ⟨rfl, hc⟩ := List.append_inj' heq rfl
      obtain rfl := List.singleton_inj.mp hc
      exact Or.inr ⟨z', rfl, List.concat_eq_append ▸ hw⟩

/-- A beginning that is not empty starts as the whole does. -/
theorem stops_of_start {q : τ → Bool} {z s : List τ} (h : z <+: s) (hs : Stops q s) : Stops q z := by
  obtain ⟨tail, rfl⟩ := h
  cases z with
  | nil => exact stops_nil q
  | cons c z => exact hs

section Bind

variable {p : Parser τ α} {c : α → Parser τ β} {input rest : List τ} {a : α}

theorem bind_run_none (h : p.run input = none) : (p >>= c).run input = none := by
  rw [StateT.run_bind, h]
  rfl

theorem bind_run_some (h : p.run input = some (a, rest)) :
    (p >>= c).run input = (c a).run rest := by
  rw [StateT.run_bind, h]
  rfl

theorem blanks_run {blank : τ → Bool} {q : Parser τ β} {b s : List τ} (hb : Run blank b) (hs : Stops blank s) :
    (do let _ ← takeWhile1 blank; q).run (b ++ s) = q.run s :=
  bind_run_some (takeWhile1_run.mpr ⟨rfl, hb.1, hb.2, hs⟩)

end Bind

section Printing

variable [DecidableEq τ] (blank : τ → Bool) (l r : τ)

/-- More opening than closing brackets. -/
def Open (z : List τ) : Prop := z.count r < z.count l

/-- The text was written for `a`, and before what `E` admits the parser makes `a` of it exactly if it fits. -/
structure Printed (E : List τ → Prop) (p : Parser τ α) (text : List τ) (a : α) (fits : Prop) : Prop where
  fit : fits → ∀ rest, E rest → p.run (text ++ rest) = some (a, rest)
  misfit : ¬fits → ∀ rest, p.run (text ++ rest) = none
  cut : ∀ z, z <+: text → Open l r z → p.run z = none
  solid : text ≠ [] ∧ Stops blank text
  closed : text.count l = text.count r

variable {blank l r} {E : List τ → Prop} {p : Parser τ α} {text : List τ} {a : α} {fits : Prop}

theorem not_open_of_not_mem {z : List τ} (h : l ∉ z) : ¬Open l r z := by
  rw [Open, List.count_eq_zero_of_not_mem h]
  exact Nat.not_lt_zero _

/-- A cut behind a closed text is one of what follows. -/
theorem open_append {s z : List τ} (h : s.count l = s.count r) : Open l r (s ++ z) ↔ Open l r z := by
  rw [Open, Open, List.count_append, List.count_append, h, Nat.add_lt_add_iff_left]

/-- A text without brackets that the parser reads whatever comes. -/
theorem Reads.printed {L : List τ → List τ → α → Prop} (hp : Reads blank p L) (hL : ∀ rest, E rest → L text rest a)
    (hE : ∃ rest, E rest) (hl : l ∉ text) (hr : r ∉ text) : Printed blank l r E p text a True := by
  refine ⟨fun _ rest hrest => ?_, fun h => absurd trivial h, fun z hz hopen => ?_, ?_, ?_⟩
  · exact (hp.run_iff _ _ _).mpr ⟨text, rfl, hL rest hrest⟩
  · exact absurd hopen (not_open_of_not_mem fun hmem => hl (hz.subset hmem))
  · obtain ⟨rest, hrest⟩ := hE
    exact hp.solid (hL rest hrest)
  · rw [List.count_eq_zero_of_not_mem hl, List.count_eq_zero_of_not_mem hr]

/-- What is read is what was written. -/
theorem Printed.run_iff (h : Printed blank l r E p text a fits) {rest : List τ} (hrest : E rest) {v : α × List τ} :
    p.run (text ++ rest) = some v ↔ fits ∧ v = (a, rest) := by
  by_cases hfits : fits
  · rw [h.fit hfits rest hrest, Option.some.injEq, eq_comm]
    exact (and_iff_right hfits).symm
  · rw [h.misfit hfits rest]
    constructor
    · intro hnone
      cases hnone
    · rintro ⟨hyes, -⟩
      exact absurd hyes hfits

theorem Printed.mono {E' : List τ → Prop} (h : Printed blank l r E p text a fits) (hE : ∀ rest, E' rest → E rest) :
    Printed blank l r E' p text a fits :=
  ⟨fun hfits rest hrest => h.fit hfits rest (hE rest hrest), h.misfit, h.cut, h.solid, h.closed⟩

theorem Printed.fits_congr {fits' : Prop} (h : Printed blank l r E p text a fits) (hiff : fits' ↔ fits) :
    Printed blank l r E p text a fits' := by
  rwa [propext hiff]

theorem Printed.map (h : Printed blank l r E p text a fits) (f : α → β) :
    Printed blank l r E (f <$> p) text (f a) fits := by
  refine ⟨fun hfits rest hrest => ?_, fun hfits rest => ?_, fun z hz hopen => ?_, h.solid, h.closed⟩
  · rw [StateT.run_map, h.fit hfits rest hrest]
    rfl
  · rw [StateT.run_map, h.misfit hfits rest]
    rfl
  · rw [StateT.run_map, h.cut z hz hopen]
    rfl

section Step

variable {c : α → Parser τ β} {q : Parser τ β} {b text' : List τ} {v : β} {fits' : Prop}

/-- **An object, blanks and a printed text.**  What reads on after the object need only be the blanks and a parser of
the text where the input goes on. -/
theorem Printed.step (h : Printed blank l r (Ends blank) p text a fits)
    (hc : ∀ input, input ≠ [] → (c a).run input = (do let _ ← takeWhile1 blank; q).run input)
    (hb : Run blank b) (hl : blank l = false) (hr : blank r = false) (h' : Printed blank l r E q text' v fits') :
    Printed blank l r E (p >>= c) (text ++ b ++ text') v (fits ∧ fits') := by
  have hbl : l ∉ b := fun hmem => Bool.false_ne_true (hl.symm.trans (hb.2 l hmem))
  have hbr : r ∉ b := fun hmem => Bool.false_ne_true (hr.symm.trans (hb.2 r hmem))
  have hbclosed : b.count l = b.count r := by
    rw [List.count_eq_zero_of_not_mem hbl, List.count_eq_zero_of_not_mem hbr]
  -- the object is read whenever it fits, and then the blanks
  have hread : fits → ∀ s, Stops blank s → (p >>= c).run (text ++ b ++ s) = q.run s := by
    intro hfits s hs
    have hne : b ++ s ≠ [] := by simp [hb.1]
    rw [List.append_assoc, bind_run_some (h.fit hfits _ (ends_append hb s)), hc _ hne, blanks_run hb hs]
  have hfail : ¬fits → ∀ s, (p >>= c).run (text ++ s) = none := fun hfits s => bind_run_none (h.misfit hfits s)
  have hsolid : ∀ rest, Stops blank (text' ++ rest) := fun rest => (stops_append h'.solid.1).mpr h'.solid.2
  refine ⟨?_, ?_, ?_, ?_, ?_⟩
  · rintro ⟨hfits, hfits'⟩ rest hrest
    rw [List.append_assoc (text ++ b), hread hfits _ (hsolid rest)]
    exact h'.fit hfits' rest hrest
  · intro hnot rest
    by_cases hfits : fits
    · rw [List.append_assoc (text ++ b), hread hfits _ (hsolid rest)]
      exact h'.misfit (fun hfits' => hnot ⟨hfits, hfits'⟩) rest
    · rw [List.append_assoc, List.append_assoc]
      exact hfail hfits _
  · intro z hz hopen
    rw [List.append_assoc] at hz
    rcases prefix_append_or hz with hz | ⟨z', rfl, hz'⟩
    · exact bind_run_none (h.cut z hz hopen)
    rw [open_append h.closed] at hopen
    rcases prefix_append_or hz' with hz' | ⟨z'', rfl, hz''⟩
    · exact absurd hopen (not_open_of_not_mem fun hmem => hbl (hz'.subset hmem))
    rw [open_append hbclosed] at hopen
    by_cases hfits : fits
    · rw [← List.append_assoc, hread hfits _ (stops_of_start hz'' h'.solid.2)]
      exact h'.cut z'' hz'' hopen
    · exact hfail hfits _
  · refine ⟨by simp [h.solid.1], ?_⟩
    rw [List.append_assoc]
    exact (stops_append h.solid.1).mpr h.solid.2
  · rw [List.count_append, List.count_append, List.count_append, List.count_append, h.closed, hbclosed, h'.closed]

/-- **Objects with blanks between them.** -/
theorem Printed.spaced (h : Printed blank l r (Ends blank) p text a fits) {q : α → Parser τ β} (hb : Run blank b)
    (hl : blank l = false) (hr : blank r = false) (h' : Printed blank l r E (q a) text' v fits') :
    Printed blank l r E (do let a ← p; let _ ← takeWhile1 blank; q a) (text ++ b ++ text') v (fits ∧ fits') :=
  h.step (fun _ _ => rfl) hb hl hr h'

/-- One more object where the input goes on. -/
theorem Printed.lastOr (h : Printed blank l r (Ends blank) p text a fits) {q : α → Parser τ β} (f : α → β)
    (hb : Run blank b) (hl : blank l = false) (hr : blank r = false) (h' : Printed blank l r E (q a) text' v fits') :
    Printed blank l r E
      (do
        let a ← p
        let input ← get
        if input = [] then return f a else do let _ ← takeWhile1 blank; q a)
      (text ++ b ++ text') v (fits ∧ fits') := by
  refine h.step (fun input hne => ?_) hb hl hr h'
  show (if input = [] then (return f a : Parser τ β) else do let _ ← takeWhile1 blank; q a).run input = _
  rw [if_neg hne]

end Step

/-- The last object. -/
theorem Printed.last (h : Printed blank l r E p text a fits) (f : α → β) :
    Printed blank l r E (do let a ← p; return f a) text (f a) fits := by
  refine ⟨fun hfits rest hrest => ?_, fun hfits rest => ?_, fun z hz hopen => ?_, h.solid, h.closed⟩
  · exact bind_run_some (h.fit hfits rest hrest)
  · exact bind_run_none (h.misfit hfits rest)
  · exact bind_run_none (h.cut z hz hopen)

/-- The last object, at the end of the input. -/
theorem Printed.lastEnd (h : Printed blank l r (Ends blank) p text a fits) (f : α → β) (q : α → Parser τ β) :
    Printed blank l r (· = [])
      (do
        let a ← p
        let input ← get
        if input = [] then return f a else do let _ ← takeWhile1 blank; q a)
      text (f a) fits := by
  refine ⟨?_, fun hfits rest => ?_, fun z hz hopen => ?_, h.solid, h.closed⟩
  · rintro hfits rest rfl
    exact bind_run_some (h.fit hfits [] (stops_nil _))
  · exact bind_run_none (h.misfit hfits rest)
  · exact bind_run_none (h.cut z hz hopen)

end Printing

end KernelSU.Lib.Parser
