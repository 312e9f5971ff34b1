import Mathlib.Data.List.Nodup
import KernelSU.Hook.LsmHookSearch

/-!
# What the LSM hooks take back

* `Installed.hook`, `Installed.unhook`, `Installed.exit` — **PROVED**: a call keeps the lists a patched table;
* `lsmCalls_coherent` — **PROVED**: so they are after any calls that meet a condition, and a hook comes back to its place;
* `lsmCalls_offsetAgain` — **PROVED**: a hook with an offset does not: the second time it is looked for where it was.
-/

namespace KernelSU.Hook

open KernelSU.Lib

variable {ι : Type} [DecidableEq ι] (desc : ι → LsmHook) (t : SecurityHookHeads)

/-! ### The calls -/

/-- The condition on a call: one that patches the table for a hook finds its target where the name of the hook leads, and
no hook there. -/
def LsmCall.Meets (kernel : KernelSymbols) (s : LsmHooks ι) : LsmCall ι → Prop
  | .hook d patched => patched = true → (desc d).replacement ≠ 0 → kernel.headsFound = true → s.entry d = none →
      s.tracked.length < LSM_HOOK_ENTRIES_SIZE → ∀ name p, (desc d).targetName = some name →
        t.placeOf (searchTarget kernel name d s) (desc d).offset = some p →
          t.placeOf (kernel.resolve name) (desc d).offset = some p ∧ ∀ e, s.held e ≠ some p
  | .unhook _ _ => True
  | .exit _ => True

section Contents

variable {s s' : LsmHooks ι}

theorem content_slot {head index fn : ℕ} (hhook : s'.hookOf = Function.update s.hookOf (.table head index) fn)
    (hheads : s'.heads = s.heads) : s'.content = Function.update s.content (.slot head index) (.fn fn) := by
  funext q
  cases q with
  | slot head' index' =>
    rw [LsmHooks.content, hhook]
    by_cases hq : HookPlace.slot head' index' = .slot head index
    · rw [HookPlace.slot.injEq] at hq
      rw [hq.1, hq.2, Function.update_self, Function.update_self]
    · rw [Function.update_of_ne hq, Function.update_of_ne fun hsame => hq (by cases hsame; rfl)]
      rfl
  | head k =>
    rw [Function.update_of_ne (by simp), LsmHooks.content, hheads]
    rfl

omit [DecidableEq ι] in
theorem content_head {k : ℕ} {ns : List (HookEntry ι)} (hk : k < s.heads.length) (hheads : s'.heads = s.heads.set k ns)
    (hhook : ∀ head index, s'.hookOf (.table head index) = s.hookOf (.table head index)) :
    s'.content = Function.update s.content (.head k) (.list (some ns)) := by
  funext q
  cases q with
  | slot head index =>
    rw [Function.update_of_ne (by simp), LsmHooks.content, hhook]
    rfl
  | head k' =>
    rw [LsmHooks.content, hheads]
    by_cases hq : k' = k
    · rw [hq, Function.update_self, List.getElem?_set_self hk]
    · rw [Function.update_of_ne (by simpa using hq), List.getElem?_set_ne (Ne.symm hq)]
      rfl

end Contents

theorem hookOf_ownList {s : LsmHooks ι} {d : ι} {n : HookEntry ι} (hn : n ≠ .own d) (head : ℕ) :
    (ownList desc d head s).hookOf n = s.hookOf n := Function.update_of_ne hn _ _

namespace Installed

variable {desc t} {kernel : KernelSymbols} {s : LsmHooks ι}

/-- Only who is tracked matters, not the order. -/
theorem retrack (h : Installed desc t kernel s) {tracked : List ι} (hmem : ∀ d, d ∈ tracked ↔ d ∈ s.tracked)
    (hnodup : tracked.Nodup) : Installed desc t kernel { s with tracked := tracked } where
  table := h.table
  heads_length := h.heads_length
  tracked := fun d => (hmem d).trans (h.tracked d)
  nodup := hnodup
  own := h.own
  ownHook := h.ownHook
  nonzero := h.nonzero
  place := h.place

/-- The own entry of a hook that is not installed is in no list. -/
theorem ownList (h : Installed desc t kernel s) {d : ι} (hd : s.entry d = none) (head : ℕ) :
    Installed desc t kernel (ownList desc d head s) := by
  have hheld : (Hook.ownList desc d head s).held = s.held := by
    funext e
    by_cases he : e = d
    · rw [LsmHooks.held, LsmHooks.held, he]
      show (s.entry d).bind _ = (s.entry d).bind _
      rw [hd]
      rfl
    · show (s.entry e).bind (entryPlace e (Function.update s.listHead d head e)) = _
      rw [Function.update_of_ne he]
      rfl
  have hcontent : (Hook.ownList desc d head s).content = s.content := by
    funext p
    cases p with
    | slot head index => rfl
    | head head => rfl
  refine ⟨?_, h.heads_length, h.tracked, h.nodup, h.own, ?_, h.nonzero, ?_⟩
  · rw [hheld, hcontent]
    exact h.table
  · intro e k he
    rw [hheld] at he
    have hne : e ≠ d := fun hed => entry_of_held he (hed ▸ hd)
    rw [hookOf_ownList desc (fun hown => hne (HookEntry.own.inj hown)), h.ownHook he]
  · rw [hheld]
    exact h.place

end Installed

/-- The entry of a hook at a place. -/
def entryAt (d : ι) : HookPlace → HookEntry ι
  | .slot head index => .table head index
  | .head _ => .own d

theorem entry_install (t : SecurityHookHeads) (s : LsmHooks ι) (d : ι) (p : HookPlace) :
    (install desc d (selectedAt t p) (preparedAt desc d s p)).entry = Function.update s.entry d (some (entryAt d p)) := by
  cases p with
  | slot head index => rfl
  | head head => rfl

theorem original_install (t : SecurityHookHeads) (s : LsmHooks ι) (d : ι) (p : HookPlace) :
    (install desc d (selectedAt t p) (preparedAt desc d s p)).original =
      Function.update s.original d (t.savedAt p) := by
  cases p with
  | slot head index => rfl
  | head head => rfl

/-- The lists with a hook more. -/
theorem held_install (t : SecurityHookHeads) (s : LsmHooks ι) (d : ι) (p : HookPlace) :
    (install desc d (selectedAt t p) (preparedAt desc d s p)).held = Function.update s.held d (some p) := by
  funext e
  by_cases he : e = d
  · rw [he, Function.update_self]
    cases p with
    | slot head index => exact held_of_table (Function.update_self _ _ _)
    | head head =>
      rw [held_of_own (Function.update_self _ _ _)]
      exact congrArg (some ∘ HookPlace.head) (Function.update_self _ _ _)
  · rw [Function.update_of_ne he]
    cases p with
    | slot head index =>
      show (Function.update s.entry d _ e).bind (entryPlace e (s.listHead e)) = _
      rw [Function.update_of_ne he]
      rfl
    | head head =>
      show (Function.update s.entry d _ e).bind (entryPlace e (Function.update s.listHead d head e)) = _
      rw [Function.update_of_ne he, Function.update_of_ne he]
      rfl

theorem content_install {t : SecurityHookHeads} {s : LsmHooks ι} {p : HookPlace} (d : ι)
    (hslot : ∀ head index, p = .slot head index → t.fnOf (.table head index : HookEntry ι) ≠ 0)
    (hhead : ∀ head, p = .head head → head < s.heads.length) :
    (install desc d (selectedAt t p) (preparedAt desc d s p)).content =
      Function.update s.content p (hookContent desc d p) := by
  cases p with
  | slot head index =>
    have hhook : (install desc d (selectedAt t (.slot head index)) (preparedAt desc d s (.slot head index))).hookOf =
        Function.update s.hookOf (.table head index) (desc d).replacement :=
      congrArg (Function.update s.hookOf _) (if_pos (hslot head index rfl))
    exact content_slot hhook rfl
  | head head => exact content_head (hhead head rfl) rfl fun _ _ => rfl

namespace Installed

variable {desc t} {kernel : KernelSymbols} {s : LsmHooks ι}

/-- **A hook** is installed where it belongs, if no other is there. -/
theorem install (h : Installed desc t kernel s) {d : ι} {p : HookPlace} (hd : s.entry d = none)
    (hrepl : (desc d).replacement ≠ 0) (hplace : t.placeOf (targetOf desc kernel d) (desc d).offset = some p)
    (hfree : ∀ e, s.held e ≠ some p) (tracked : List ι) (hmem : ∀ e, e ∈ tracked ↔ e ∈ s.tracked ∨ e = d)
    (hnodup : tracked.Nodup) :
    Installed desc t kernel
      { Hook.install desc d (selectedAt t p) (Hook.preparedAt desc d s p) with tracked := tracked } := by
  have hnone : s.held d = none := by
    rw [LsmHooks.held, hd]
    rfl
  have hentry := entry_install desc t s d p
  have horiginal := original_install desc t s d p
  constructor
  case table =>
    show Patched _ _ (Hook.install desc d (selectedAt t p) (Hook.preparedAt desc d s p)).held
      (Hook.install desc d (selectedAt t p) (Hook.preparedAt desc d s p)).content
    rw [held_install, content_install]
    · exact h.table.install hnone hfree
    · intro head index hp
      obtain ⟨fns, fn, hlist, hfn⟩ := placeOf_slot (hp ▸ hplace)
      rw [fnOf_table hlist hfn]
      exact t.nonnull fns (List.mem_of_getElem? hlist) fn (List.mem_of_getElem? hfn)
    · intro head hp
      have hlist := placeOf_head (hp ▸ hplace)
      rw [h.heads_length]
      exact (List.getElem?_eq_some_iff.mp hlist).1
  case heads_length =>
    cases p with
    | slot head index => exact h.heads_length
    | head head => exact Eq.trans List.length_set h.heads_length
  case tracked =>
    intro e
    rw [hmem, h.tracked]
    show _ ↔ (Hook.install desc d (selectedAt t p) (Hook.preparedAt desc d s p)).entry e ≠ none
    rw [hentry]
    by_cases he : e = d
    · rw [he, Function.update_self]
      exact ⟨fun _ => Option.some_ne_none _, fun _ => .inr rfl⟩
    · rw [Function.update_of_ne he, or_iff_left he]
  case nodup => exact hnodup
  case own =>
    intro e e' he
    have he' : (Hook.install desc d (selectedAt t p) (Hook.preparedAt desc d s p)).entry e = some (.own e') := he
    rw [hentry] at he'
    by_cases hed : e = d
    · rw [hed, Function.update_self, Option.some.injEq] at he'
      cases p with
      | slot head index => cases he'
      | head head => exact (HookEntry.own.inj he').symm.trans hed.symm
    · rw [Function.update_of_ne hed] at he'
      exact h.own he'
  case ownHook =>
    intro e head he
    have he' : (Hook.install desc d (selectedAt t p) (Hook.preparedAt desc d s p)).held e = some (.head head) := he
    rw [held_install] at he'
    show (Hook.install desc d (selectedAt t p) (Hook.preparedAt desc d s p)).hookOf (.own e) = _
    by_cases hed : e = d
    · rw [hed, Function.update_self, Option.some.injEq] at he'
      rw [he', hed]
      exact Function.update_self _ _ _
    · rw [Function.update_of_ne hed] at he'
      have hown : HookEntry.own e ≠ .own d := fun hown => hed (HookEntry.own.inj hown)
      cases p with
      | slot head' index => exact h.ownHook he'
      | head head' => exact (hookOf_ownList desc hown head').trans (h.ownHook he')
  case nonzero =>
    intro e he
    have he' : (Hook.install desc d (selectedAt t p) (Hook.preparedAt desc d s p)).entry e ≠ none := he
    by_cases hed : e = d
    · exact hed ▸ hrepl
    · rw [hentry, Function.update_of_ne hed] at he'
      exact h.nonzero he'
  case place =>
    intro e q he
    have he' : (Hook.install desc d (selectedAt t p) (Hook.preparedAt desc d s p)).held e = some q := he
    rw [held_install] at he'
    show _ ∧ (Hook.install desc d (selectedAt t p) (Hook.preparedAt desc d s p)).original e = _
    rw [horiginal]
    by_cases hed : e = d
    · rw [hed, Function.update_self, Option.some.injEq] at he'
      rw [hed, Function.update_self, ← he']
      exact ⟨hplace, rfl⟩
    · rw [Function.update_of_ne hed] at he' ⊢
      exact h.place he'

theorem untrack_spec (hnodup : s.tracked.Nodup) {d : ι} (hd : d ∈ s.tracked) :
    ∃ tracked, ksuLsmHookUntrack d s = { s with tracked := tracked } ∧ tracked.Nodup ∧
      ∀ e, e ∈ tracked ↔ e ∈ s.tracked ∧ e ≠ d := by
  cases hfind : s.tracked.findIdx? (· == d) with
  | none => exact absurd (beq_self_eq_true d) (by simpa using List.findIdx?_eq_none_iff.mp hfind d hd)
  | some i =>
    obtain ⟨x, _, hx, hperm⟩ := exists_swapRemove_perm hfind
    rw [beq_iff_eq] at hx
    subst hx
    have hall := List.nodup_cons.mp (hperm.nodup_iff.mp hnodup)
    refine ⟨swapRemove s.tracked i, by rw [ksuLsmHookUntrack, hfind], hall.2, fun e => ?_⟩
    rw [hperm.mem_iff, List.mem_cons]
    by_cases he : e = x
    · rw [he]
      exact ⟨fun hmem => absurd hmem hall.1, fun hmem => absurd rfl hmem.2⟩
    · rw [or_iff_right he, and_iff_left he]

/-- **A call of `ksu_lsm_hook`**. -/
theorem hook (h : Installed desc t kernel s) (hdesc : Replacements desc t) {d : ι} {patched : Bool}
    (hmeets : (LsmCall.hook d patched).Meets desc t kernel s) :
    Installed desc t kernel (ksuLsmHook desc kernel d patched s).2 := by
  rw [ksuLsmHook]
  by_cases hrepl : (desc d).replacement = 0
  · rw [if_pos hrepl]
    exact h
  rw [if_neg hrepl]
  by_cases hentry : (s.entry d).isSome
  · rw [if_pos hentry]
    exact h
  rw [if_neg hentry]
  have hd : s.entry d = none := Option.not_isSome_iff_eq_none.mp hentry
  cases hname : (desc d).targetName with
  | none => exact h
  | some name =>
    dsimp only
    by_cases htarget : searchTarget kernel name d s = 0
    · rw [if_pos htarget]
      exact h
    rw [if_neg htarget]
    by_cases hfound : kernel.headsFound = false
    · rw [if_pos hfound]
      exact h
    rw [if_neg hfound]
    cases hsel : selectSlot desc d (searchTarget kernel name d s) s with
    | error e => exact h
    | ok r =>
      obtain ⟨selected, s'⟩ := r
      dsimp only
      have hprepared : Installed desc t kernel s' ∧ s'.tracked = s.tracked := by
        obtain hsame | ⟨head, hown⟩ := selectSlot_prepared hsel
        · rw [show s' = s from hsame]
          exact ⟨h, rfl⟩
        · rw [show s' = Hook.ownList desc d head s from hown]
          exact ⟨h.ownList hd head, rfl⟩
      have huntracked : d ∉ s'.tracked := by
        rw [hprepared.2, h.tracked, hd]
        exact fun hne => hne rfl
      rw [ksuLsmHookTrack, if_neg huntracked]
      by_cases hfull : LSM_HOOK_ENTRIES_SIZE ≤ s'.tracked.length
      · rw [if_pos hfull]
        exact hprepared.1
      · rw [if_neg hfull]
        dsimp only
        have hmem : ∀ e, e ∈ s'.tracked ++ [d] ↔ e ∈ s'.tracked ∨ e = d := by
          intro e
          rw [List.mem_append, List.mem_singleton]
        have hnodup : (s'.tracked ++ [d]).Nodup := by
          rw [List.nodup_append_comm]
          exact List.nodup_cons.mpr ⟨huntracked, hprepared.1.nodup⟩
        cases patched with
        | false =>
          obtain ⟨tracked, hrun, hnodup', hmem'⟩ :=
            untrack_spec (s := { s' with tracked := s'.tracked ++ [d] }) hnodup ((hmem d).mpr (.inr rfl))
          rw [if_neg Bool.false_ne_true, hrun]
          refine hprepared.1.retrack (fun e => ?_) hnodup'
          rw [hmem', hmem]
          by_cases he : e = d
          · rw [he]
            exact ⟨fun hboth => absurd rfl hboth.2, fun hin => absurd hin huntracked⟩
          · rw [or_iff_left he, and_iff_left he]
        | true =>
          obtain ⟨p, hplace, hsel'⟩ := selectSlot_free h hdesc htarget hrepl hsel
          obtain ⟨hplace', hfree⟩ := hmeets rfl hrepl (Bool.not_eq_false _ ▸ hfound) hd
            (hprepared.2 ▸ Nat.lt_of_not_le hfull) name p hname hplace
          obtain ⟨hselected, hs'⟩ := Prod.mk.inj (hsel' hfree)
          have hplaced : t.placeOf (targetOf desc kernel d) (desc d).offset = some p := by
            rw [targetOf, hname]
            exact hplace'
          rw [if_pos rfl]
          have hinstalled := h.install hd hrepl hplaced hfree (s'.tracked ++ [d]) (hprepared.2 ▸ hmem) hnodup
          rw [← hselected, ← hs'] at hinstalled
          cases selected with
          | slot n origin => exact hinstalled
          | head head => exact hinstalled

/-- Another hook less. -/
theorem remove (h : Installed desc t kernel s) {d : ι} {p : HookPlace} {s' : LsmHooks ι} (hd : s.held d = some p)
    (hcontent : s'.content = Function.update s.content p ((t.start ι).content p))
    (hlength : s'.heads.length = s.heads.length) (hentry : s'.entry = Function.update s.entry d none)
    (hlist : s'.listHead = s.listHead) (horiginal : s'.original = s.original)
    (hown : ∀ e, s'.hookOf (.own e) = s.hookOf (.own e)) (hnodup : s'.tracked.Nodup)
    (hmem : ∀ e, e ∈ s'.tracked ↔ e ∈ s.tracked ∧ e ≠ d) : Installed desc t kernel s' := by
  have hheld : s'.held = Function.update s.held d none := by
    funext e
    rw [LsmHooks.held, hentry, hlist]
    by_cases he : e = d
    · rw [he, Function.update_self, Function.update_self]
      rfl
    · rw [Function.update_of_ne he, Function.update_of_ne he]
      rfl
  have hother : ∀ {e q}, s'.held e = some q → s.held e = some q := by
    intro e q he
    rw [hheld] at he
    by_cases hed : e = d
    · rw [hed, Function.update_self] at he
      cases he
    · rwa [Function.update_of_ne hed] at he
  have hentries : ∀ {e}, s'.entry e ≠ none ↔ s.entry e ≠ none ∧ e ≠ d := by
    intro e
    rw [hentry]
    by_cases hed : e = d
    · rw [hed, Function.update_self]
      exact ⟨fun hne => absurd rfl hne, fun hne => absurd rfl hne.2⟩
    · rw [Function.update_of_ne hed, and_iff_left hed]
  constructor
  case table =>
    rw [hheld, hcontent]
    exact h.table.remove hd
  case heads_length => rw [hlength, h.heads_length]
  case tracked =>
    intro e
    rw [hmem, h.tracked, hentries]
  case nodup => exact hnodup
  case own =>
    intro e e' he
    apply h.own
    rw [hentry] at he
    by_cases hed : e = d
    · rw [hed, Function.update_self] at he
      cases he
    · rwa [Function.update_of_ne hed] at he
  case ownHook =>
    intro e head he
    rw [hown, h.ownHook (hother he)]
  case nonzero => exact fun he => h.nonzero (hentries.mp he).1
  case place =>
    intro e q he
    rw [horiginal]
    exact h.place (hother he)

/-- **A call of `ksu_lsm_unhook`**. -/
theorem unhook (h : Installed desc t kernel s) (d : ι) (patched : Bool) :
    Installed desc t kernel (ksuLsmUnhook d patched s) := by
  rw [ksuLsmUnhook]
  cases hentry : s.entry d with
  | none => exact h
  | some n =>
    cases patched with
    | false => exact h
    | true =>
      dsimp only
      rw [if_pos rfl]
      have hd : d ∈ s.tracked := (h.tracked d).mpr (by rw [hentry]; exact Option.some_ne_none n)
      cases n with
      | own e =>
        obtain rfl := h.own hentry
        have hheld := held_of_own hentry
        rw [if_pos rfl]
        obtain ⟨tracked, hrun, hnodup, hmem⟩ :=
          untrack_spec (s := { s with heads := s.heads.set (s.listHead e) [] }) h.nodup hd
        rw [hrun]
        have hempty := placeOf_head (h.place hheld).1
        have hinitial : (t.start ι).content (.head (s.listHead e)) = .list (some []) := by
          show Content.list (t.entries ι)[s.listHead e]? = _
          rw [SecurityHookHeads.entries, List.getElem?_mapIdx, hempty]
          rfl
        refine h.remove hheld ?_ List.length_set rfl rfl rfl (fun _ => rfl) hnodup hmem
        rw [hinitial]
        refine content_head ?_ rfl fun _ _ => rfl
        rw [h.heads_length]
        exact (List.getElem?_eq_some_iff.mp hempty).1
      | table head index =>
        have hheld := held_of_table hentry
        rw [if_neg (by simp)]
        obtain ⟨tracked, hrun, hnodup, hmem⟩ :=
          untrack_spec (s := { s with hookOf := Function.update s.hookOf (.table head index) (s.original d) }) h.nodup hd
        rw [hrun]
        refine h.remove hheld ?_ rfl rfl rfl rfl (fun _ => rfl) hnodup hmem
        have horiginal : s.original d = t.fnOf (.table head index : HookEntry ι) := (h.place hheld).2
        exact content_slot (congrArg (Function.update s.hookOf _) horiginal) rfl

/-- **The exit**. -/
theorem exit (h : Installed desc t kernel s) (patched : ι → Bool) :
    Installed desc t kernel (ksuLsmHookExit patched s) := by
  rw [ksuLsmHookExit]
  generalize s.tracked.reverse = hooks
  induction hooks generalizing s with
  | nil => exact h
  | cons d hooks ih => exact ih (h.unhook d (patched d))

end Installed

/-! ### Runs -/

/-- The state behind calls. -/
def lsmCalls (kernel : KernelSymbols) (calls : List (LsmCall ι)) : LsmHooks ι :=
  calls.foldl (LsmCall.run desc kernel) (t.start ι)

/-- Every call meets the condition. -/
def AllMeet (kernel : KernelSymbols) : LsmHooks ι → List (LsmCall ι) → Prop
  | _, [] => True
  | s, call :: calls => call.Meets desc t kernel s ∧ AllMeet kernel (call.run desc kernel s) calls

/-- **The lists are in order.**  The hooks with an entry are tracked, their entries have their replacements, the own ones
in the heads, and without hooks all is as before the first call. -/
structure Coherent (s : LsmHooks ι) : Prop where
  tracked : ∀ d, d ∈ s.tracked ↔ s.entry d ≠ none
  holds : ∀ d n, s.entry d = some n →
    s.hookOf n = (desc d).replacement ∧ (n = .own d → s.heads[s.listHead d]? = some [.own d])
  restored : s.tracked = [] →
    s.heads = t.entries ι ∧ ∀ head index, s.hookOf (.table head index) = t.fnOf (.table head index : HookEntry ι)

/-- The hooks that are installed in both states are in the same slots. -/
def SamePlace (s s' : LsmHooks ι) : Prop :=
  ∀ d n n', s.entry d = some n → s'.entry d = some n' → n = n' ∧ (n = .own d → s.listHead d = s'.listHead d)

namespace Installed

variable {desc t} {kernel : KernelSymbols} {s s' : LsmHooks ι}

theorem coherent (h : Installed desc t kernel s) : Coherent desc t s where
  tracked := h.tracked
  holds := by
    intro d n hn
    cases n with
    | table head index =>
      exact ⟨Content.fn.inj (h.table.patched (held_of_table hn)), fun hown => by cases hown⟩
    | own e =>
      obtain rfl := h.own hn
      have hheld := held_of_own hn
      exact ⟨h.ownHook hheld, fun _ => Content.list.inj (h.table.patched hheld)⟩
  restored := by
    intro hnone
    have hcontent := h.table.restored fun d => by
      rw [LsmHooks.held, not_not.mp (mt (h.tracked d).mpr (hnone ▸ List.not_mem_nil))]
      rfl
    refine ⟨List.ext_getElem? fun k => ?_, fun head index => ?_⟩
    · exact Content.list.inj (congrFun hcontent (.head k))
    · exact Content.fn.inj (congrFun hcontent (.slot head index))

/-- A hook has one place. -/
theorem samePlace (h : Installed desc t kernel s) (h' : Installed desc t kernel s') : SamePlace s s' := by
  intro d n n' hn hn'
  have hsame : ∀ p p', s.held d = some p → s'.held d = some p' → p = p' := by
    intro p p' hp hp'
    exact Option.some.inj ((h.place hp).1.symm.trans (h'.place hp').1)
  cases n with
  | table head index =>
    cases n' with
    | table head' index' =>
      have hp := hsame _ _ (held_of_table hn) (held_of_table hn')
      rw [HookPlace.slot.injEq] at hp
      exact ⟨by rw [hp.1, hp.2], fun hown => by cases hown⟩
    | own e =>
      obtain rfl := h'.own hn'
      exact absurd (hsame _ _ (held_of_table hn) (held_of_own hn')) (by simp)
  | own e =>
    obtain rfl := h.own hn
    cases n' with
    | table head' index' => exact absurd (hsame _ _ (held_of_own hn) (held_of_table hn')) (by simp)
    | own e' =>
      obtain rfl := h'.own hn'
      exact ⟨rfl, fun _ => HookPlace.head.inj (hsame _ _ (held_of_own hn) (held_of_own hn'))⟩

/-- **A call** that meets the condition. -/
theorem step (h : Installed desc t kernel s) (hdesc : Replacements desc t) {call : LsmCall ι}
    (hmeets : call.Meets desc t kernel s) : Installed desc t kernel (call.run desc kernel s) := by
  cases call with
  | hook d patched => exact h.hook hdesc hmeets
  | unhook d patched => exact h.unhook d patched
  | exit patched => exact h.exit patched

/-- **A run**, with every state on its way. -/
theorem run (h : Installed desc t kernel s) (hdesc : Replacements desc t) (earlier later : List (LsmCall ι))
    (hmeet : AllMeet desc t kernel s (earlier ++ later)) :
    Installed desc t kernel (earlier.foldl (LsmCall.run desc kernel) s) ∧
      AllMeet desc t kernel (earlier.foldl (LsmCall.run desc kernel) s) later := by
  induction earlier generalizing s with
  | nil => exact ⟨h, hmeet⟩
  | cons call earlier ih => exact ih (h.step hdesc hmeet.1) hmeet.2

end Installed

/-- **The hooks are in order** in every state of a run whose calls meet the condition, and a hook that is installed again
is where it was. -/
theorem lsmCalls_coherent (kernel : KernelSymbols) (hdesc : Replacements desc t) (earlier later : List (LsmCall ι))
    (hmeet : AllMeet desc t kernel (t.start ι) (earlier ++ later)) :
    Coherent desc t (lsmCalls desc t kernel (earlier ++ later)) ∧
      SamePlace (lsmCalls desc t kernel earlier) (lsmCalls desc t kernel (earlier ++ later)) := by
  obtain ⟨hearlier, hlater⟩ := (Installed.start desc t kernel).run hdesc earlier later hmeet
  rw [← List.append_nil later] at hlater
  obtain ⟨hall, _⟩ := hearlier.run hdesc later [] hlater
  rw [lsmCalls, List.foldl_append]
  exact ⟨hall.coherent, hearlier.samePlace hall⟩

/-- One hook for the empty head behind its target, taken back and installed again. -/
theorem lsmCalls_coherent_head :
    Coherent (fun _ : Unit => ⟨9, some "target", 1, 77⟩) ⟨[[1], []], by decide⟩
        (lsmCalls (fun _ : Unit => ⟨9, some "target", 1, 77⟩) ⟨[[1], []], by decide⟩ ⟨fun _ => 1, true⟩
          ([.hook () true] ++ [.unhook () true, .hook () true])) ∧
      SamePlace
        (lsmCalls (fun _ : Unit => ⟨9, some "target", 1, 77⟩) ⟨[[1], []], by decide⟩ ⟨fun _ => 1, true⟩ [.hook () true])
        (lsmCalls (fun _ : Unit => ⟨9, some "target", 1, 77⟩) ⟨[[1], []], by decide⟩ ⟨fun _ => 1, true⟩
          ([.hook () true] ++ [.unhook () true, .hook () true])) := by
  refine lsmCalls_coherent _ _ _ ⟨fun _ _ _ => rfl, fun _ => by decide⟩ _ _ ⟨?_, trivial, ?_, trivial⟩
  · intro _ _ _ _ _ name p hname hp
    cases hname
    cases hp
    exact ⟨rfl, fun _ => Option.some_ne_none _ ∘ Eq.symm⟩
  · intro _ _ _ _ _ name p hname hp
    cases hname
    cases hp
    exact ⟨rfl, fun _ => Option.some_ne_none _ ∘ Eq.symm⟩

/-- **Not always**: a hook with an offset that is taken back and installed again is one head further, and of two hooks
with one target the first is not in its slot. -/
theorem lsmCalls_offsetAgain :
    ¬ SamePlace
        (lsmCalls (fun _ : Unit => ⟨9, some "target", 1, 77⟩) ⟨[[1], [2], [3]], by decide⟩ ⟨fun _ => 1, true⟩
          [.hook () true])
        (lsmCalls (fun _ : Unit => ⟨9, some "target", 1, 77⟩) ⟨[[1], [2], [3]], by decide⟩ ⟨fun _ => 1, true⟩
          [.hook () true, .unhook () true, .hook () true]) ∧
      ¬ Coherent (fun first : Bool => ⟨if first then 8 else 9, some "target", 0, 77⟩) ⟨[[1]], by decide⟩
        (lsmCalls (fun first : Bool => ⟨if first then 8 else 9, some "target", 0, 77⟩) ⟨[[1]], by decide⟩
          ⟨fun _ => 1, true⟩ [.hook true true, .hook false true]) := by
  constructor
  · intro hsame
    have hentries := (hsame () (.table 1 0) (.table 2 0) rfl rfl).1
    exact absurd hentries (by decide)
  · intro hcoherent
    have hfirst := (hcoherent.holds true (.table 0 0) rfl).1
    exact absurd hfirst (by decide)

end KernelSU.Hook
