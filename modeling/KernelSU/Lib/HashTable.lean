import Mathlib.Data.List.FinRange
import Mathlib.Data.List.Nodup
import Mathlib.Logic.Function.Basic

/-!
# Chained hash tables

A fixed number of buckets, each a list; an entry belongs to the bucket of its key's hash.  Entries are
added at the head of their bucket, replaced in place and removed in a walk over the whole table.  The hash
is any function.

* `HashTable.WellFormed` — each entry is in its own bucket, and no bucket has two entries of one key;
* `find?_add`, `find?_replace`, `find?_keep` — **PROVED**: each operation is the expected edit of the
  map from keys to entries;
* `entries_add`, `length_entries_replace`, `entries_keep` — **PROVED**: what it does to the walk;
* `WellFormed.find?_eq_some_iff`, `WellFormed.find?_entries`, `WellFormed.nodup_keys` — **PROVED**: in a well-formed table the walk
  meets exactly the entries that look-ups find, each key once.
-/

namespace KernelSU.Lib

variable {n : ℕ} {κ α : Type*}

/-- A table of `n` buckets. -/
abbrev HashTable (n : ℕ) (α : Type*) : Type _ := Fin n → List α

namespace HashTable

/-- The table without entries. -/
def empty : HashTable n α := fun _ => []

/-- The entries in the order in which a walk over the table meets them. -/
def entries (t : HashTable n α) : List α := (List.finRange n).flatMap t

section Edits

variable (hash : κ → Fin n) (key : α → κ)

/-- Add an entry at the head of its bucket. -/
def add (t : HashTable n α) (a : α) : HashTable n α :=
  Function.update t (hash (key a)) (a :: t (hash (key a)))

variable [DecidableEq κ]

/-- The first entry of the key's bucket that has this key. -/
def find? (t : HashTable n α) (k : κ) : Option α := (t (hash k)).find? fun a => key a = k

/-- Put `a` in the place of the first entry of its key. -/
def replaceFirst (a : α) : List α → List α
  | [] => []
  | b :: bs => if key b = key a then a :: bs else b :: replaceFirst a bs

/-- Replace the entry of `a`'s key in place. -/
def replace (t : HashTable n α) (a : α) : HashTable n α :=
  Function.update t (hash (key a)) (replaceFirst key a (t (hash (key a))))

end Edits

/-- Remove every entry that `p` does not hold of. -/
def keep (t : HashTable n α) (p : α → Bool) : HashTable n α := fun i => (t i).filter p

/-! ### Lists with distinct keys -/

section Lists

variable [DecidableEq κ] {key : α → κ}

theorem find?_cons_eq {b : α} {k : κ} (hk : key b = k) (bs : List α) :
    (b :: bs).find? (fun c => key c = k) = some b :=
  List.find?_cons_of_pos (by simpa using hk)

theorem find?_cons_ne {b : α} {k : κ} (hk : key b ≠ k) (bs : List α) :
    (b :: bs).find? (fun c => key c = k) = bs.find? fun c => key c = k :=
  List.find?_cons_of_neg (by simpa using hk)

theorem find?_eq_some_of_nodup {l : List α} (hl : (l.map key).Nodup) {a : α} (ha : a ∈ l) :
    l.find? (fun b => key b = key a) = some a := by
  induction l with
  | nil => cases ha
  | cons b bs ih =>
    rw [List.map_cons, List.nodup_cons] at hl
    rcases List.mem_cons.mp ha with rfl | ha
    · exact find?_cons_eq rfl bs
    · have hne : key b ≠ key a := fun h => hl.1 (h ▸ List.mem_map_of_mem ha)
      rw [find?_cons_ne hne]
      exact ih hl.2 ha

theorem find?_filter_of_nodup {l : List α} (hl : (l.map key).Nodup) (p : α → Bool) (k : κ) :
    (l.filter p).find? (fun b => key b = k) = (l.find? fun b => key b = k).filter p := by
  induction l with
  | nil => rfl
  | cons b bs ih =>
    rw [List.map_cons, List.nodup_cons] at hl
    by_cases hk : key b = k
    · rw [find?_cons_eq hk]
      by_cases hp : p b = true
      · rw [List.filter_cons_of_pos hp, find?_cons_eq hk, Option.filter_some, if_pos hp]
      · rw [List.filter_cons_of_neg hp, Option.filter_some, if_neg hp, List.find?_eq_none]
        intro c hc hkc
        have hkey : key c = key b := (of_decide_eq_true hkc).trans hk.symm
        exact hl.1 (hkey ▸ List.mem_map_of_mem (List.mem_of_mem_filter hc))
    · rw [find?_cons_ne hk, ← ih hl.2]
      by_cases hp : p b = true
      · rw [List.filter_cons_of_pos hp, find?_cons_ne hk]
      · rw [List.filter_cons_of_neg hp]

@[simp] theorem length_replaceFirst (a : α) (l : List α) :
    (replaceFirst key a l).length = l.length := by
  induction l with
  | nil => rfl
  | cons b bs ih =>
    rw [replaceFirst]
    split
    · rfl
    · rw [List.length_cons, List.length_cons, ih]

@[simp] theorem map_replaceFirst (a : α) (l : List α) :
    (replaceFirst key a l).map key = l.map key := by
  induction l with
  | nil => rfl
  | cons b bs ih =>
    rw [replaceFirst]
    split
    case isTrue h => rw [List.map_cons, List.map_cons, h]
    case isFalse => rw [List.map_cons, List.map_cons, ih]

theorem find?_replaceFirst_self {a : α} {l : List α} (h : (l.find? fun b => key b = key a).isSome) :
    (replaceFirst key a l).find? (fun b => key b = key a) = some a := by
  induction l with
  | nil => cases h
  | cons b bs ih =>
    rw [replaceFirst]
    split
    · exact find?_cons_eq rfl bs
    case isFalse hne =>
      rw [find?_cons_ne hne] at h ⊢
      exact ih h

theorem find?_replaceFirst_of_ne {a : α} {k : κ} (hk : key a ≠ k) (l : List α) :
    (replaceFirst key a l).find? (fun b => key b = k) = l.find? fun b => key b = k := by
  induction l with
  | nil => rfl
  | cons b bs ih =>
    rw [replaceFirst]
    split
    case isTrue h =>
      rw [find?_cons_ne hk, find?_cons_ne (h ▸ hk)]
    case isFalse =>
      rw [List.find?_cons, List.find?_cons, ih]

theorem mem_replaceFirst {a b : α} {l : List α} (h : b ∈ replaceFirst key a l) : b = a ∨ b ∈ l := by
  induction l with
  | nil => cases h
  | cons c cs ih =>
    rw [replaceFirst] at h
    split at h
    · exact (List.mem_cons.mp h).imp_right (List.mem_cons_of_mem c)
    · rcases List.mem_cons.mp h with rfl | h
      · exact .inr (List.mem_cons_self)
      · exact (ih h).imp_right (List.mem_cons_of_mem c)

end Lists

/-! ### The map from keys to entries -/

section Lookup

variable [DecidableEq κ] {hash : κ → Fin n} {key : α → κ}

@[simp] theorem find?_empty (k : κ) : (empty : HashTable n α).find? hash key k = none := rfl

theorem find?_key {t : HashTable n α} {k : κ} {a : α} (h : t.find? hash key k = some a) : key a = k :=
  of_decide_eq_true (List.find?_some (p := fun b => decide (key b = k)) h)

/-- Adding an entry edits the map at its key. -/
theorem find?_add (t : HashTable n α) (a : α) (k : κ) :
    (t.add hash key a).find? hash key k = if key a = k then some a else t.find? hash key k := by
  rw [find?, add]
  by_cases hb : hash k = hash (key a)
  · rw [hb, Function.update_self]
    by_cases hk : key a = k
    · rw [if_pos hk, find?_cons_eq hk]
    · rw [if_neg hk, find?_cons_ne hk, find?, hb]
  · have hk : key a ≠ k := fun h => hb (congrArg hash h.symm)
    rw [Function.update_of_ne hb, if_neg hk, find?]

/-- Replacing the entry of a key that is present edits the map at that key. -/
theorem find?_replace {t : HashTable n α} {a : α} (h : (t.find? hash key (key a)).isSome) (k : κ) :
    (t.replace hash key a).find? hash key k = if key a = k then some a else t.find? hash key k := by
  rw [find?, replace]
  by_cases hk : key a = k
  · subst hk
    rw [Function.update_self, if_pos rfl, find?_replaceFirst_self h]
  · rw [if_neg hk]
    by_cases hb : hash k = hash (key a)
    · rw [hb, Function.update_self, find?_replaceFirst_of_ne hk, find?, hb]
    · rw [Function.update_of_ne hb, find?]

end Lookup

/-! ### The walk -/

theorem mem_entries {t : HashTable n α} {a : α} : a ∈ t.entries ↔ ∃ i, a ∈ t i := by
  simp only [entries, List.mem_flatMap, List.mem_finRange, true_and]

@[simp] theorem entries_empty : (empty : HashTable n α).entries = [] :=
  List.flatMap_eq_nil_iff.mpr fun _ _ => rfl

/-- An edit of one bucket edits one stretch of the walk. -/
theorem entries_update (t : HashTable n α) (i : Fin n) :
    ∃ before after : List α, ∀ l : List α,
      entries (Function.update t i l) = before ++ l ++ after := by
  obtain ⟨l₁, l₂, hsplit⟩ := List.append_of_mem (List.mem_finRange i)
  have hnodup := List.nodup_finRange n
  rw [hsplit, List.nodup_middle, List.nodup_cons, List.mem_append, not_or] at hnodup
  refine ⟨l₁.flatMap t, l₂.flatMap t, ?_⟩
  intro l
  have houtside : ∀ l' : List (Fin n), i ∉ l' → l'.flatMap (Function.update t i l) = l'.flatMap t := by
    intro l' hi
    refine List.flatMap_congr ?_
    intro j hj
    have hne : j ≠ i := by
      rintro rfl
      exact hi hj
    exact Function.update_of_ne hne _ _
  rw [entries, hsplit, List.flatMap_append, List.flatMap_cons, Function.update_self,
    houtside l₁ hnodup.1.1, houtside l₂ hnodup.1.2, List.append_assoc]

theorem entries_split (t : HashTable n α) (i : Fin n) :
    ∃ before after : List α, t.entries = before ++ t i ++ after ∧
      ∀ l : List α, entries (Function.update t i l) = before ++ l ++ after := by
  obtain ⟨before, after, h⟩ := t.entries_update i
  refine ⟨before, after, ?_, h⟩
  have hself := h (t i)
  rwa [Function.update_eq_self] at hself

theorem entries_keep (t : HashTable n α) (p : α → Bool) : (t.keep p).entries = t.entries.filter p := by
  rw [entries, entries, List.filter_flatMap]
  rfl

section Walk

variable {hash : κ → Fin n} {key : α → κ}

theorem entries_add (t : HashTable n α) (a : α) :
    (t.add hash key a).entries.Perm (a :: t.entries) := by
  obtain ⟨before, after, hentries, hupdate⟩ := t.entries_split (hash (key a))
  rw [add, hupdate, hentries, List.append_assoc, List.append_assoc, List.cons_append]
  exact List.perm_middle

theorem length_entries_replace [DecidableEq κ] (t : HashTable n α) (a : α) :
    (t.replace hash key a).entries.length = t.entries.length := by
  obtain ⟨before, after, hentries, hupdate⟩ := t.entries_split (hash (key a))
  rw [replace, hupdate, hentries]
  simp only [List.length_append, length_replaceFirst]

end Walk

/-! ### Well-formed tables -/

/-- Each entry is in the bucket of its key, and the keys of a bucket are distinct. -/
structure WellFormed (hash : κ → Fin n) (key : α → κ) (t : HashTable n α) : Prop where
  home : ∀ i, ∀ a ∈ t i, hash (key a) = i
  distinct : ∀ i, ((t i).map key).Nodup

namespace WellFormed

variable {hash : κ → Fin n} {key : α → κ} {t : HashTable n α}

theorem empty : WellFormed hash key (HashTable.empty : HashTable n α) :=
  ⟨fun _ _ h => (List.not_mem_nil h).elim, fun _ => List.nodup_nil⟩

/-- The walk meets each key once. -/
theorem nodup_keys (h : WellFormed hash key t) : (t.entries.map key).Nodup := by
  rw [entries, List.map_flatMap, List.nodup_flatMap]
  refine ⟨fun i _ => h.distinct i, (List.nodup_finRange n).imp ?_⟩
  intro i j hij
  show List.Disjoint ((t i).map key) ((t j).map key)
  rw [List.disjoint_left]
  intro k hki hkj
  obtain ⟨a, ha, rfl⟩ := List.mem_map.mp hki
  obtain ⟨b, hb, hkey⟩ := List.mem_map.mp hkj
  have hi := h.home i a ha
  have hj := h.home j b hb
  rw [hkey] at hj
  exact hij (hi.symm.trans hj)

theorem keep (h : WellFormed hash key t) (p : α → Bool) : WellFormed hash key (t.keep p) :=
  ⟨fun i a ha => h.home i a (List.mem_of_mem_filter ha),
    fun i => (h.distinct i).sublist (List.filter_sublist.map key)⟩

variable [DecidableEq κ]

/-- **Look-up and walk agree.** -/
theorem find?_eq_some_iff (h : WellFormed hash key t) {k : κ} {a : α} :
    t.find? hash key k = some a ↔ a ∈ t.entries ∧ key a = k := by
  constructor
  · intro hf
    exact ⟨mem_entries.mpr ⟨_, List.mem_of_find?_eq_some hf⟩, find?_key hf⟩
  · rintro ⟨ha, rfl⟩
    obtain ⟨i, hi⟩ := mem_entries.mp ha
    have hhome := h.home i a hi
    rw [find?, hhome]
    exact find?_eq_some_of_nodup (h.distinct i) hi

/-- Looking in the walk is looking in the table. -/
theorem find?_entries (h : WellFormed hash key t) (k : κ) :
    t.entries.find? (fun a => key a = k) = t.find? hash key k := by
  cases hfound : t.find? hash key k with
  | none =>
    rw [List.find?_eq_none]
    intro a ha hk
    have hsome := h.find?_eq_some_iff.mpr ⟨ha, of_decide_eq_true hk⟩
    rw [hfound] at hsome
    cases hsome
  | some a =>
    obtain ⟨ha, rfl⟩ := h.find?_eq_some_iff.mp hfound
    exact find?_eq_some_of_nodup h.nodup_keys ha

/-- Removing entries restricts the map. -/
theorem find?_keep (h : WellFormed hash key t) (p : α → Bool) (k : κ) :
    (t.keep p).find? hash key k = (t.find? hash key k).filter p :=
  find?_filter_of_nodup (h.distinct (hash k)) p k

theorem add (h : WellFormed hash key t) {a : α} (hnew : t.find? hash key (key a) = none) :
    WellFormed hash key (t.add hash key a) := by
  constructor
  · intro i b hb
    by_cases hi : i = hash (key a)
    · subst hi
      rw [HashTable.add, Function.update_self] at hb
      rcases List.mem_cons.mp hb with rfl | hb
      · rfl
      · exact h.home _ b hb
    · rw [HashTable.add, Function.update_of_ne hi] at hb
      exact h.home i b hb
  · intro i
    by_cases hi : i = hash (key a)
    · subst hi
      rw [HashTable.add, Function.update_self, List.map_cons, List.nodup_cons]
      refine ⟨?_, h.distinct _⟩
      intro hmem
      obtain ⟨b, hb, hkey⟩ := List.mem_map.mp hmem
      have hnone := List.find?_eq_none.mp hnew b hb
      exact hnone (decide_eq_true hkey)
    · rw [HashTable.add, Function.update_of_ne hi]
      exact h.distinct i

theorem replace (h : WellFormed hash key t) (a : α) : WellFormed hash key (t.replace hash key a) := by
  constructor
  · intro i b hb
    by_cases hi : i = hash (key a)
    · subst hi
      rw [HashTable.replace, Function.update_self] at hb
      rcases mem_replaceFirst hb with rfl | hb
      · rfl
      · exact h.home _ b hb
    · rw [HashTable.replace, Function.update_of_ne hi] at hb
      exact h.home i b hb
  · intro i
    by_cases hi : i = hash (key a)
    · subst hi
      rw [HashTable.replace, Function.update_self, map_replaceFirst]
      exact h.distinct _
    · rw [HashTable.replace, Function.update_of_ne hi]
      exact h.distinct i

end WellFormed

end HashTable

end KernelSU.Lib
