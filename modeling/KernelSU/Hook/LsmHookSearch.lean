import KernelSU.Hook.LsmHook
import KernelSU.Lib.Patched

/-!
# Where the LSM hooks are

The places are the functions of the table and the lists of its empty heads.  As long as each hook is installed where its
name and offset lead in the table without patches, and no two at one place, the lists are a patched table.

* `searchHeads_entry` — **PROVED**: a tracked replacement is looked through, so that the search ends as it would there;
* `selectSlot_free` — **PROVED**: and so does the selection, unless another hook is there.
-/

namespace KernelSU.Hook

open KernelSU.Lib

variable {ι : Type} [DecidableEq ι] (desc : ι → LsmHook) (t : SecurityHookHeads)

/-! ### The lists as a table of places -/

/-- What stands at a place. -/
inductive Content (ι : Type) where
  | fn (fn : ℕ)
  | list (entries : Option (List (HookEntry ι)))

/-- What stands at a place now. -/
def LsmHooks.content (s : LsmHooks ι) : HookPlace → Content ι
  | .slot head index => .fn (s.hookOf (.table head index))
  | .head head => .list s.heads[head]?

/-- What a hook puts there. -/
def hookContent (d : ι) : HookPlace → Content ι
  | .slot _ _ => .fn (desc d).replacement
  | .head _ => .list (some [.own d])

/-- The function that a hook saves there. -/
def SecurityHookHeads.savedAt : HookPlace → ℕ
  | .slot head index => t.fnOf (.table head index : HookEntry Unit)
  | .head _ => 0

/-- The place of an entry that a descriptor has. -/
def entryPlace (d : ι) (listHead : ℕ) : HookEntry ι → Option HookPlace
  | .table head index => some (.slot head index)
  | .own e => if e = d then some (.head listHead) else none

/-- The place where a hook is installed. -/
def LsmHooks.held (s : LsmHooks ι) (d : ι) : Option HookPlace := (s.entry d).bind (entryPlace d (s.listHead d))

/-- The function that the name of a hook stands for. -/
def targetOf (kernel : KernelSymbols) (d : ι) : ℕ := ((desc d).targetName.map kernel.resolve).getD 0

/-- The replacements are functions of their own. -/
structure Replacements : Prop where
  distinct : ∀ d e, (desc d).replacement = (desc e).replacement → d = e
  foreign : ∀ d, ∀ fns ∈ t.heads, (desc d).replacement ∉ fns

/-- **The lists with hooks.** -/
structure Installed (kernel : KernelSymbols) (s : LsmHooks ι) : Prop where
  table : Patched (t.start ι).content (hookContent desc) s.held s.content
  heads_length : s.heads.length = t.heads.length
  tracked : ∀ d, d ∈ s.tracked ↔ s.entry d ≠ none
  nodup : s.tracked.Nodup
  own : ∀ {d e}, s.entry d = some (.own e) → e = d
  ownHook : ∀ {d head}, s.held d = some (.head head) → s.hookOf (.own d) = (desc d).replacement
  nonzero : ∀ {d}, s.entry d ≠ none → (desc d).replacement ≠ 0
  place : ∀ {d p}, s.held d = some p →
    t.placeOf (targetOf desc kernel d) (desc d).offset = some p ∧ s.original d = t.savedAt p

/-- No call yet. -/
theorem Installed.start (kernel : KernelSymbols) : Installed desc t kernel (t.start ι) where
  table := Patched.init _ _
  heads_length := List.length_mapIdx
  tracked := fun _ => ⟨fun h => absurd h List.not_mem_nil, fun h => absurd rfl h⟩
  nodup := List.nodup_nil
  own := fun h => absurd h.symm (Option.some_ne_none _)
  ownHook := fun h => absurd h.symm (Option.some_ne_none _)
  nonzero := fun h => absurd rfl h
  place := fun h => absurd h.symm (Option.some_ne_none _)

/-! ### Where hooks are -/

section Held

variable {desc t} {s : LsmHooks ι} {d : ι}

theorem held_of_table {head index : ℕ} (h : s.entry d = some (.table head index)) :
    s.held d = some (.slot head index) := by
  rw [LsmHooks.held, h]
  rfl

theorem held_of_own (h : s.entry d = some (.own d)) : s.held d = some (.head (s.listHead d)) := by
  rw [LsmHooks.held, h]
  exact if_pos rfl

theorem entry_of_held {p : HookPlace} (h : s.held d = some p) : s.entry d ≠ none := by
  intro hnone
  rw [LsmHooks.held, hnone] at h
  exact Option.some_ne_none p h.symm

end Held

/-! ### Places of the table -/

section Places

variable {t}

theorem findTarget_some {target : ℕ} {found : ℕ × ℕ} {lists : List (List ℕ)} {k : ℕ}
    (h : findTarget target k lists = some found) :
    ∃ j fns, found.1 = k + j ∧ lists[j]? = some fns ∧ fns[found.2]? = some target := by
  induction lists generalizing k with
  | nil => exact absurd h.symm (Option.some_ne_none _)
  | cons fns rest ih =>
    rw [findTarget] at h
    cases hfind : fns.findIdx? (· == target) with
    | some i =>
      rw [hfind, Option.some.injEq] at h
      obtain ⟨hi, hfn, _⟩ := List.findIdx?_eq_some_iff_getElem.mp hfind
      rw [← h]
      exact ⟨0, fns, rfl, rfl, by rw [List.getElem?_eq_getElem hi, beq_iff_eq.mp hfn]⟩
    | none =>
      rw [hfind] at h
      obtain ⟨j, fns', hhead, hlist, hfn⟩ := ih h
      exact ⟨j + 1, fns', by omega, hlist, hfn⟩

/-- A place is the list of an empty head, or an entry. -/
theorem placeAt_cases {head : ℤ} {p : HookPlace} (h : t.placeAt head = some p) :
    (∃ k, p = .head k ∧ t.heads[k]? = some []) ∨
      ∃ k index fns fn, p = .slot k index ∧ t.heads[k]? = some fns ∧ fns[index]? = some fn := by
  rw [SecurityHookHeads.placeAt] at h
  split_ifs at h
  cases hlist : t.heads[head.toNat]? with
  | none =>
    rw [hlist] at h
    exact absurd h.symm (Option.some_ne_none _)
  | some fns =>
    rw [hlist] at h
    cases fns with
    | nil => exact .inl ⟨_, (Option.some.inj h).symm, hlist⟩
    | cons fn fns => exact .inr ⟨_, 0, _, fn, (Option.some.inj h).symm, hlist, rfl⟩

theorem placeOf_cases {target : ℕ} {offset : ℤ} {p : HookPlace} (h : t.placeOf target offset = some p) :
    (∃ k, p = .head k ∧ t.heads[k]? = some []) ∨
      ∃ k index fns fn, p = .slot k index ∧ t.heads[k]? = some fns ∧ fns[index]? = some fn := by
  rw [SecurityHookHeads.placeOf] at h
  cases hfind : findTarget target 0 t.heads with
  | none =>
    rw [hfind] at h
    exact absurd h.symm (Option.some_ne_none _)
  | some found =>
    rw [hfind] at h
    dsimp only at h
    split_ifs at h with hoffset
    · obtain ⟨k, fns, hhead, hlist, hfn⟩ := findTarget_some hfind
      rw [Nat.zero_add] at hhead
      exact .inr ⟨_, _, fns, target, (Option.some.inj h).symm, by rw [hhead, hlist], hfn⟩
    · exact placeAt_cases h

theorem placeOf_slot {target head index : ℕ} {offset : ℤ} (h : t.placeOf target offset = some (.slot head index)) :
    ∃ fns fn, t.heads[head]? = some fns ∧ fns[index]? = some fn := by
  obtain ⟨k, hp, _⟩ | ⟨k, i, fns, fn, hp, hlist, hfn⟩ := placeOf_cases h
  · cases hp
  · cases hp
    exact ⟨fns, fn, hlist, hfn⟩

theorem placeOf_head {target head : ℕ} {offset : ℤ} (h : t.placeOf target offset = some (.head head)) :
    t.heads[head]? = some [] := by
  obtain ⟨k, hp, hlist⟩ | ⟨k, i, fns, fn, hp, _⟩ := placeOf_cases h
  · cases hp
    exact hlist
  · cases hp

omit [DecidableEq ι] in
theorem fnOf_table {head index fn : ℕ} {fns : List ℕ} (hlist : t.heads[head]? = some fns)
    (hfn : fns[index]? = some fn) : t.fnOf (.table head index : HookEntry ι) = fn := by
  rw [SecurityHookHeads.fnOf, hlist, Option.getD_some, hfn]
  rfl

end Places

/-! ### The search -/

section Search

variable {desc t} {kernel : KernelSymbols} {s : LsmHooks ι}

/-- A replacement is looked through. -/
theorem currentOrigin_replaced (h : Installed desc t kernel s) (hdesc : Replacements desc t) {d : ι}
    {n : HookEntry ι} (hd : s.entry d ≠ none) (hn : s.hookOf n = (desc d).replacement) :
    currentOrigin desc s n = s.original d := by
  have hmem := (h.tracked d).mpr hd
  rw [currentOrigin]
  cases hfind : s.tracked.find? fun e => (desc e).replacement == s.hookOf n with
  | none => exact absurd (beq_iff_eq.mpr hn.symm) (List.find?_eq_none.mp hfind d hmem)
  | some e =>
    have he := List.find?_some hfind
    rw [beq_iff_eq, hn] at he
    exact congrArg s.original (hdesc.distinct e d he)

/-- An entry of the table looks as without patches. -/
theorem currentOrigin_table (h : Installed desc t kernel s) (hdesc : Replacements desc t)
    {head index fn : ℕ} {fns : List ℕ} (hlist : t.heads[head]? = some fns) (hfn : fns[index]? = some fn) :
    currentOrigin desc s (.table head index) = fn := by
  obtain hsame | ⟨d, hd, hpatch⟩ := h.table.cases (.slot head index)
  · have hinitial : t.fnOf (.table head index : HookEntry ι) = fn := fnOf_table hlist hfn
    have hhook : s.hookOf (.table head index) = fn := Eq.trans (Content.fn.inj hsame) hinitial
    rw [currentOrigin, List.find?_eq_none.mpr, hhook]
    intro e _ he
    rw [beq_iff_eq, hhook] at he
    exact hdesc.foreign e fns (List.mem_of_getElem? hlist) (he ▸ List.mem_of_getElem? hfn)
  · rw [currentOrigin_replaced h hdesc (entry_of_held hd) (Content.fn.inj hpatch), (h.place hd).2]
    show t.fnOf (.table head index : HookEntry Unit) = fn
    exact fnOf_table hlist hfn

/-- So an own entry looks empty. -/
theorem currentOrigin_own (h : Installed desc t kernel s) (hdesc : Replacements desc t) {d : ι}
    {head : ℕ} (hd : s.held d = some (.head head)) :
    currentOrigin desc s (.own d) = 0 := by
  rw [currentOrigin_replaced h hdesc (entry_of_held hd) (h.ownHook hd), (h.place hd).2]
  rfl

/-- The list of a head has the entries of the table, or the own entry of the hook that has the head. -/
theorem heads_cases (h : Installed desc t kernel s) {head : ℕ} {fns : List ℕ} (hlist : t.heads[head]? = some fns) :
    s.heads[head]? = some (fns.mapIdx fun index _ => .table head index) ∨
      fns = [] ∧ ∃ d, s.held d = some (.head head) ∧ s.heads[head]? = some [.own d] := by
  obtain hsame | ⟨d, hd, hpatch⟩ := h.table.cases (.head head)
  · refine .inl ((Content.list.inj hsame).trans ?_)
    show (t.entries ι)[head]? = _
    rw [SecurityHookHeads.entries, List.getElem?_mapIdx, hlist]
    rfl
  · have hempty := placeOf_head (h.place hd).1
    rw [hlist, Option.some.injEq] at hempty
    exact .inr ⟨hempty, d, hd, Content.list.inj hpatch⟩

omit [DecidableEq ι] in
/-- The search in a list of the table. -/
theorem searchList_table {d : ι} {target head : ℕ} {fns : List ℕ} {k : ℕ}
    (hfns : ∀ i fn, fns[i]? = some fn → currentOrigin desc s (.table head (k + i)) = fn ∧ fn ≠ (desc d).replacement) :
    searchList desc s d target head (fns.mapIdx fun index _ => .table head (k + index)) =
      (fns.findIdx? (· == target)).elim .nothing fun i => .entry head (.table head (k + i)) target := by
  induction fns generalizing k with
  | nil => rfl
  | cons fn fns ih =>
    obtain ⟨horigin, hother⟩ := hfns 0 fn rfl
    rw [Nat.add_zero] at horigin
    rw [List.mapIdx_cons, searchList, Nat.add_zero, horigin, if_neg hother, List.findIdx?_cons]
    by_cases hfn : fn = target
    · rw [if_pos hfn, beq_iff_eq.mpr hfn, hfn]
      rfl
    · have hrest := ih (k := k + 1) fun i fn' hi => by
        have hat := hfns (i + 1) fn' hi
        rwa [Nat.add_comm i 1, ← Nat.add_assoc] at hat
      have hshift : (fns.mapIdx fun index _ => HookEntry.table (ι := ι) head (k + (index + 1))) =
          fns.mapIdx fun index _ => .table head (k + 1 + index) := by
        simp only [Nat.add_comm, Nat.add_left_comm]
      rw [if_neg hfn, if_neg (by rwa [beq_iff_eq]), hshift, hrest]
      cases fns.findIdx? (· == target) with
      | none => rfl
      | some i => rw [Option.map_some, Option.elim_some, Option.elim_some, Nat.add_comm i 1, Nat.add_assoc]

omit [DecidableEq ι] in
/-- The search in the lists from a head on. -/
theorem searchHeads_table {d : ι} {target k : ℕ} {lists : List (List ℕ)} {heads : List (List (HookEntry ι))}
    (hlen : heads.length = lists.length) (hlists : ∀ j fns, lists[j]? = some fns → ∃ ns, heads[j]? = some ns ∧
      searchList desc s d target (k + j) ns =
        (fns.findIdx? (· == target)).elim .nothing fun i => .entry (k + j) (.table (k + j) i) target) :
    searchHeads desc s d target k heads =
      (findTarget target k lists).elim .nothing fun at_ => .entry at_.1 (.table at_.1 at_.2) target := by
  induction lists generalizing k heads with
  | nil =>
    rw [List.eq_nil_of_length_eq_zero hlen]
    rfl
  | cons fns rest ih =>
    cases heads with
    | nil => cases hlen
    | cons ns heads =>
      obtain ⟨ns', hns, hhere⟩ := hlists 0 fns rfl
      rw [List.getElem?_cons_zero, Option.some.injEq] at hns
      rw [← hns, Nat.add_zero] at hhere
      have hrest := ih (k := k + 1) (Nat.succ.inj hlen) fun j fns' hj => by
        have hat := hlists (j + 1) fns' hj
        rwa [Nat.add_comm j 1, ← Nat.add_assoc, Nat.add_comm 1 j] at hat
      rw [searchHeads, hhere, findTarget]
      cases fns.findIdx? (· == target) with
      | none => exact hrest
      | some i => rfl

/-- **The search** ends as in the table without patches. -/
theorem searchHeads_entry (h : Installed desc t kernel s) (hdesc : Replacements desc t) {d : ι} {target : ℕ}
    (htarget : target ≠ 0) (hrepl : (desc d).replacement ≠ 0) :
    searchHeads desc s d target 0 s.heads =
      (findTarget target 0 t.heads).elim .nothing fun at_ => .entry at_.1 (.table at_.1 at_.2) target := by
  apply searchHeads_table h.heads_length
  intro j fns hlist
  rw [Nat.zero_add]
  obtain hns | ⟨hempty, e, he, hns⟩ := heads_cases h hlist
  · refine ⟨_, hns, ?_⟩
    have hsearch : searchList desc s d target j (fns.mapIdx fun index _ => .table j (0 + index)) = _ :=
      searchList_table fun i fn hi => by
        rw [Nat.zero_add]
        refine ⟨currentOrigin_table h hdesc hlist hi, fun hfn => ?_⟩
        exact hdesc.foreign d fns (List.mem_of_getElem? hlist) (hfn ▸ List.mem_of_getElem? hi)
    simp only [Nat.zero_add] at hsearch
    exact hsearch
  · refine ⟨_, hns, ?_⟩
    rw [searchList, currentOrigin_own h hdesc he, if_neg hrepl.symm, if_neg htarget.symm, hempty]
    rfl

/-- What is selected at a place. -/
def selectedAt (t : SecurityHookHeads) : HookPlace → Selected ι
  | .slot head index => .slot (.table head index) (t.fnOf (.table head index : HookEntry ι))
  | .head head => .head head

/-- What the selection of a place leaves. -/
def preparedAt (desc : ι → LsmHook) (d : ι) (s : LsmHooks ι) : HookPlace → LsmHooks ι
  | .slot _ _ => s
  | .head head => ownList desc d head s

/-- The offset leads where it leads in the table without patches. -/
theorem selectOffset_free (h : Installed desc t kernel s) {d : ι} {head : ℕ} {r : Selected ι × LsmHooks ι}
    (hsel : selectOffset desc d head s = .ok r) :
    ∃ p, t.placeAt (head + (desc d).offset) = some p ∧
      ((∀ e, s.held e ≠ some p) → r = (selectedAt t p, preparedAt desc d s p)) := by
  rw [selectOffset] at hsel
  rw [SecurityHookHeads.placeAt]
  split_ifs at hsel ⊢ with hneg
  generalize ((head : ℤ) + (desc d).offset).toNat = k at hsel ⊢
  cases hlist : t.heads[k]? with
  | none =>
    rw [List.getElem?_eq_none (by rw [h.heads_length]; exact List.getElem?_eq_none_iff.mp hlist)] at hsel
    cases hsel
  | some fns =>
    obtain hns | ⟨hempty, e, he, _⟩ := heads_cases h hlist
    · rw [hns] at hsel
      dsimp only at hsel
      split_ifs at hsel
      cases fns with
      | nil =>
        refine ⟨_, rfl, fun _ => ?_⟩
        exact (Except.ok.inj hsel).symm
      | cons fn fns =>
        refine ⟨_, rfl, fun hfree => ?_⟩
        have hsame : s.hookOf (.table k 0) = t.fnOf (.table k 0 : HookEntry ι) :=
          Content.fn.inj (h.table.untouched hfree)
        rw [List.mapIdx_cons] at hsel
        rw [selectedAt, ← hsame]
        exact (Except.ok.inj hsel).symm
    · rw [hempty]
      exact ⟨_, rfl, fun hfree => absurd he (hfree e)⟩

/-- **The selection** is the one in the table without patches, if no hook is there. -/
theorem selectSlot_free (h : Installed desc t kernel s) (hdesc : Replacements desc t) {d : ι} {target : ℕ}
    (htarget : target ≠ 0) (hrepl : (desc d).replacement ≠ 0) {r : Selected ι × LsmHooks ι}
    (hsel : selectSlot desc d target s = .ok r) :
    ∃ p, t.placeOf target (desc d).offset = some p ∧
      ((∀ e, s.held e ≠ some p) → r = (selectedAt t p, preparedAt desc d s p)) := by
  rw [selectSlot, searchHeads_entry h hdesc htarget hrepl] at hsel
  rw [SecurityHookHeads.placeOf]
  cases hfind : findTarget target 0 t.heads with
  | none =>
    rw [hfind] at hsel
    cases hsel
  | some found =>
    rw [hfind, Option.elim_some] at hsel
    dsimp only at hsel ⊢
    split_ifs at hsel ⊢ with hoffset
    · refine ⟨_, rfl, fun _ => ?_⟩
      obtain ⟨j, fns, hhead, hlist, hfn⟩ := findTarget_some hfind
      rw [Nat.zero_add] at hhead
      have hinitial : t.fnOf (.table found.1 found.2 : HookEntry ι) = target := fnOf_table (hhead ▸ hlist) hfn
      rw [selectedAt, hinitial]
      exact (Except.ok.inj hsel).symm
    · exact selectOffset_free h hsel

/-- Whatever is selected, only the own entry can have been prepared. -/
theorem selectSlot_prepared {d : ι} {target : ℕ} {r : Selected ι × LsmHooks ι}
    (hsel : selectSlot desc d target s = .ok r) : r.2 = s ∨ ∃ head, r.2 = ownList desc d head s := by
  rw [selectSlot] at hsel
  split at hsel
  · cases hsel
  · cases hsel
  · split_ifs at hsel
    · exact .inl (congrArg Prod.snd (Except.ok.inj hsel)).symm
    · rw [selectOffset] at hsel
      split_ifs at hsel
      split at hsel
      · cases hsel
      · split_ifs at hsel
        split at hsel
        · exact .inl (congrArg Prod.snd (Except.ok.inj hsel)).symm
        · exact .inr ⟨_, (congrArg Prod.snd (Except.ok.inj hsel)).symm⟩

end Search

end KernelSU.Hook
