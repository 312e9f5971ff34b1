import Mathlib.Data.List.Basic

/-!
# Sorted maps

A map from numbers as the list of its entries, in the order of the keys.

* `insertEntry` — a new entry, or a new value for a key;
* `insertEntry_sorted`, `mem_insertEntry_iff` — **PROVED**: the order is kept, and the other entries are.
-/

namespace KernelSU.Lib

variable {β : Type*}

/-- The keys increase. -/
def SortedKeys (entries : List (ℕ × β)) : Prop := entries.Pairwise fun a b => a.1 < b.1

/-- `BTreeMap::insert`. -/
def insertEntry (key : ℕ) (value : β) : List (ℕ × β) → List (ℕ × β)
  | [] => [(key, value)]
  | entry :: entries =>
    if key < entry.1 then (key, value) :: entry :: entries
    else if key = entry.1 then (key, value) :: entries
    else entry :: insertEntry key value entries

variable {key : ℕ} {value : β} {entries : List (ℕ × β)}

/-- **The entries after an insertion.** -/
theorem mem_insertEntry_iff (h : SortedKeys entries) {e : ℕ × β} :
    e ∈ insertEntry key value entries ↔ e = (key, value) ∨ e.1 ≠ key ∧ e ∈ entries := by
  induction entries with
  | nil => simp [insertEntry]
  | cons entry entries ih =>
    obtain ⟨hhead, htail⟩ := List.pairwise_cons.mp h
    rw [insertEntry]
    split_ifs with hlt heq
    · have hne : ∀ e ∈ entry :: entries, e.1 ≠ key := by
        refine List.forall_mem_cons.mpr ⟨by omega, fun e he => ?_⟩
        have hbig := hhead e he
        omega
      rw [List.mem_cons]
      exact or_congr_right ⟨fun he => ⟨hne e he, he⟩, fun he => he.2⟩
    · have hne : ∀ e ∈ entries, e.1 ≠ key := fun e he => by
        have hbig := hhead e he
        omega
      rw [List.mem_cons, List.mem_cons]
      refine or_congr_right ⟨fun he => ⟨hne e he, .inr he⟩, fun he => he.2.resolve_left ?_⟩
      rintro rfl
      exact he.1 heq.symm
    · rw [List.mem_cons, List.mem_cons, ih htail]
      constructor
      · rintro (rfl | rfl | he)
        · exact .inr ⟨fun h => heq h.symm, .inl rfl⟩
        · exact .inl rfl
        · exact .inr ⟨he.1, .inr he.2⟩
      · rintro (rfl | ⟨hne, rfl | he⟩)
        · exact .inr (.inl rfl)
        · exact .inl rfl
        · exact .inr (.inr ⟨hne, he⟩)

/-- **The order** is kept. -/
theorem insertEntry_sorted (h : SortedKeys entries) : SortedKeys (insertEntry key value entries) := by
  induction entries with
  | nil => exact List.pairwise_singleton _ _
  | cons entry entries ih =>
    obtain ⟨hhead, htail⟩ := List.pairwise_cons.mp h
    rw [insertEntry]
    split_ifs with hlt heq
    · refine List.pairwise_cons.mpr ⟨List.forall_mem_cons.mpr ⟨hlt, fun e he => ?_⟩, h⟩
      exact Nat.lt_trans hlt (hhead e he)
    · exact List.pairwise_cons.mpr ⟨fun e he => heq ▸ hhead e he, htail⟩
    · refine List.pairwise_cons.mpr ⟨fun e he => ?_, ih htail⟩
      rcases (mem_insertEntry_iff htail).mp he with rfl | he
      · change entry.1 < key
        omega
      · exact hhead e he.2

end KernelSU.Lib
