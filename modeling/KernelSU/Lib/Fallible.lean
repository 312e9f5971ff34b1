import KernelSU.Lib.Bytes

/-!
# Computations that may fail

* `except_bind_ok`, `forM_ok` — **PROVED**: a sequence succeeds when all its parts do;
* `mapM_eq_some` — **PROVED**: what a map over a list gives that may fail at an element;
* `foldlM_invariant`, `foldlM_invariant_done` — **PROVED**: what every step preserves holds at the end of a loop
  that does not fail;
* `storeAll` — stores into a buffer that fail outside of it; `slice_storeAll` — **PROVED**: stores that do not
  meet are all read back.
-/

namespace KernelSU.Lib

open Bytes

theorem except_bind_ok {ε α β : Type} {x : Except ε α} {f : α → Except ε β} {b : β} :
    (x >>= f) = .ok b ↔ ∃ a, x = .ok a ∧ f a = .ok b := by
  cases x with
  | error e => exact ⟨fun h => (nomatch h), fun ⟨_, h, _⟩ => (nomatch h)⟩
  | ok a =>
    constructor
    · intro h
      exact ⟨a, rfl, h⟩
    · rintro ⟨a', ha, h⟩
      cases ha
      exact h

theorem except_check_ok {ε β : Type} {x : Except ε Unit} {y : Except ε β} {b : β} :
    (x >>= fun _ => y) = .ok b ↔ x = .ok () ∧ y = .ok b := by
  rw [except_bind_ok]
  exact ⟨fun ⟨(), hx, hy⟩ => ⟨hx, hy⟩, fun ⟨hx, hy⟩ => ⟨(), hx, hy⟩⟩

theorem mapError_ok {ε ε' α : Type} {f : ε → ε'} {x : Except ε α} {a : α} :
    x.mapError f = .ok a ↔ x = .ok a := by
  cases x <;> simp [Except.mapError]

/-- Checks in turn succeed when each does. -/
theorem forM_ok {ε α : Type} {f : α → Except ε Unit} {xs : List α} :
    xs.forM f = .ok () ↔ ∀ x ∈ xs, f x = .ok () := by
  induction xs with
  | nil => exact ⟨fun _ => List.forall_mem_nil _, fun _ => rfl⟩
  | cons x xs ih =>
    rw [List.forall_mem_cons, ← ih]
    exact except_check_ok

/-- A map over a list that may fail. -/
theorem mapM_eq_some {α β : Type} {f : α → Option β} {xs : List α} {ys : List β} :
    xs.mapM f = some ys ↔ xs.map f = ys.map some := by
  induction xs generalizing ys with
  | nil => cases ys <;> simp
  | cons x xs ih =>
    rw [List.mapM_cons, List.map_cons, Option.bind_eq_bind, Option.bind_eq_some_iff]
    constructor
    · rintro ⟨y, hx, hrest⟩
      obtain ⟨zs, hxs, heq⟩ := Option.bind_eq_some_iff.mp hrest
      obtain rfl := Option.some.inj heq
      rw [hx, ih.mp hxs, List.map_cons]
    · intro h
      cases ys with
      | nil => cases h
      | cons y ys =>
        obtain ⟨hx, hxs⟩ := List.cons.inj h
        exact ⟨y, hx, Option.bind_eq_some_iff.mpr ⟨ys, ih.mpr hxs, rfl⟩⟩

/-- A map over the indices of a list. -/
theorem mapM_range {α β : Type} {f : ℕ → Option β} {g : α → Option β} {xs : List α}
    (h : ∀ i (hi : i < xs.length), f i = g xs[i]) : (List.range xs.length).mapM f = xs.mapM g := by
  refine Option.ext fun ys => ?_
  rw [mapM_eq_some, mapM_eq_some]
  have hmap : (List.range xs.length).map f = xs.map g := by
    refine List.ext_getElem (by simp) fun i hi _ => ?_
    rw [List.length_map, List.length_range] at hi
    rw [List.getElem_map, List.getElem_map, List.getElem_range, h i hi]
  rw [hmap]

/-- **A loop.**  What holds at the start and is preserved by every turn that succeeds holds at the end. -/
theorem foldlM_invariant {ε α σ : Type} (P : σ → Prop) {f : σ → α → Except ε σ} {xs : List α}
    (hstep : ∀ s, ∀ x ∈ xs, ∀ s', P s → f s x = .ok s' → P s') {s s' : σ} (hs : P s)
    (h : xs.foldlM f s = .ok s') : P s' := by
  induction xs generalizing s with
  | nil =>
    cases h
    exact hs
  | cons x xs ih =>
    rw [List.foldlM_cons] at h
    obtain ⟨s₁, hx, hrest⟩ := except_bind_ok.mp h
    exact ih (fun t y hy => hstep t y (List.mem_cons_of_mem x hy)) (hstep s x List.mem_cons_self s₁ hs hx) hrest

/-- A loop, with what holds depending on the elements that are done. -/
theorem foldlM_invariant_done {ε α σ : Type} (P : List α → σ → Prop) {f : σ → α → Except ε σ} {xs : List α}
    (hstep : ∀ done, ∀ x ∈ xs, ∀ s s', P done s → f s x = .ok s' → P (done ++ [x]) s') {s s' : σ} (hs : P [] s)
    (h : xs.foldlM f s = .ok s') : P xs s' := by
  have hgeneral : ∀ (rest done : List α) (s : σ), (∀ x ∈ rest, x ∈ xs) → P done s → rest.foldlM f s = .ok s' →
      P (done ++ rest) s' := by
    intro rest
    induction rest with
    | nil =>
      intro done s _ hs h
      cases h
      rwa [List.append_nil]
    | cons x rest ih =>
      intro done s hsub hs h
      rw [List.foldlM_cons] at h
      obtain ⟨s₁, hx, hrest⟩ := except_bind_ok.mp h
      have hnext := ih (done ++ [x]) s₁ (fun y hy => hsub y (List.mem_cons_of_mem x hy))
        (hstep done x (hsub x List.mem_cons_self) s s₁ hs hx) hrest
      rwa [List.append_assoc] at hnext
  exact hgeneral xs [] s (fun x hx => hx) hs h

/-- What a map over a list gives that did not fail. -/
theorem exists_of_mem_mapM {ε α β : Type} {f : α → Except ε β} {xs : List α} {ys : List β}
    (h : xs.mapM f = .ok ys) : ∀ y ∈ ys, ∃ x ∈ xs, f x = .ok y := by
  induction xs generalizing ys with
  | nil =>
    cases h
    exact List.forall_mem_nil _
  | cons x xs ih =>
    rw [List.mapM_cons] at h
    obtain ⟨y, hy, hrest⟩ := except_bind_ok.mp h
    obtain ⟨zs, hzs, heq⟩ := except_bind_ok.mp hrest
    cases heq
    refine List.forall_mem_cons.mpr ⟨⟨x, List.mem_cons_self, hy⟩, fun z hz => ?_⟩
    obtain ⟨x', hx', hf⟩ := ih hzs z hz
    exact ⟨x', List.mem_cons_of_mem x hx', hf⟩

/-! ### Stores into a buffer -/

/-- Stores in turn, each of which must lie in the buffer. -/
def storeAll (outside : String) : List (ℕ × List UInt8) → List UInt8 → Except String (List UInt8)
  | [], data => .ok data
  | (o, w) :: rest, data =>
    if o + w.length ≤ data.length then storeAll outside rest (patch data o w) else .error outside

/-- Two stores that do not meet. -/
def StoresApart (s t : ℕ × List UInt8) : Prop := s.1 + s.2.length ≤ t.1 ∨ t.1 + t.2.length ≤ s.1

instance (s t : ℕ × List UInt8) : Decidable (StoresApart s t) := inferInstanceAs (Decidable (_ ∨ _))

section StoreAll

variable {outside : String}

theorem storeAll_inside {stores : List (ℕ × List UInt8)} {data data' : List UInt8}
    (h : storeAll outside stores data = .ok data') :
    data'.length = data.length ∧ ∀ s ∈ stores, s.1 + s.2.length ≤ data.length := by
  induction stores generalizing data with
  | nil =>
    cases h
    exact ⟨rfl, List.forall_mem_nil _⟩
  | cons s stores ih =>
    obtain ⟨o, w⟩ := s
    rw [storeAll] at h
    split at h
    · next hin =>
      obtain ⟨hlength, hinside⟩ := ih h
      rw [patch_length hin] at hlength hinside
      exact ⟨hlength, List.forall_mem_cons.mpr ⟨hin, hinside⟩⟩
    · cases h

/-- Bytes that no store meets are as before. -/
theorem slice_storeAll_apart {stores : List (ℕ × List UInt8)} {data data' : List UInt8} {o n : ℕ}
    (h : storeAll outside stores data = .ok data')
    (hapart : ∀ s ∈ stores, o + n ≤ s.1 ∨ s.1 + s.2.length ≤ o) : slice data' o n = slice data o n := by
  induction stores generalizing data with
  | nil =>
    cases h
    rfl
  | cons s stores ih =>
    obtain ⟨o', w⟩ := s
    rw [storeAll] at h
    split at h
    · next hin =>
      obtain ⟨hhead, htail⟩ := List.forall_mem_cons.mp hapart
      rw [ih h htail, slice_patch_disjoint hin hhead]
    · cases h

/-- **Every store is read back**, when no two of them meet. -/
theorem slice_storeAll {stores : List (ℕ × List UInt8)} {data data' : List UInt8}
    (h : storeAll outside stores data = .ok data') (hapart : stores.Pairwise StoresApart) {o : ℕ} {w : List UInt8}
    (hmem : (o, w) ∈ stores) : slice data' o w.length = w := by
  induction stores generalizing data with
  | nil => cases hmem
  | cons s stores ih =>
    obtain ⟨o', w'⟩ := s
    obtain ⟨hhead, htail⟩ := List.pairwise_cons.mp hapart
    rw [storeAll] at h
    split at h
    · next hin =>
      rcases List.mem_cons.mp hmem with heq | hmem
      · obtain ⟨rfl, rfl⟩ := Prod.mk.inj heq
        rw [slice_storeAll_apart h hhead, slice_patch_same hin]
      · exact ih h htail hmem
    · cases h

end StoreAll

end KernelSU.Lib
