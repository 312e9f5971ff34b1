import Mathlib.Data.Fin.Basic
import Mathlib.Logic.Function.Basic
import KernelSU.Lib.Errno
import KernelSU.Lib.Memory
import KernelSU.Lib.SwapRemove

/-!
# `kernel/hook/arm64/syscall_hook.c` and `kernel/hook/x86_64/syscall_hook.c`: the syscall table

The two files share the functions that patch the table; `size` is `__NR_syscalls` and `Fn` the type of its entries.
On x86_64 the exit also takes back the patches of `x64_sys_call` and `do_syscall_64`.

* `SyscallHooks.Restorable` — what is remembered suffices to restore the table;
* `SyscallHooks.Restorable.unhooked` — **PROVED**: an unhook restores its slot and forgets it;
* `tableHooks_restore` — **PROVED**: so it is after any calls, and the exit restores the table.
-/

namespace KernelSU.Hook

open KernelSU.Lib

/-- `struct syscall_hook_entry`. -/
structure SyscallHookEntry (Fn : Type) where
  nr : ℤ
  orig : Fn

/-- `ARRAY_SIZE(hooked_entries)`. -/
def HOOKED_ENTRIES_SIZE : ℕ := 16

/-- `ksu_syscall_table`, the first `hooked_count` of `hooked_entries`, `syscall_hooks` and `ksu_dispatcher_nr`. -/
structure SyscallHooks (Fn : Type) (size : ℕ) where
  syscallTable : Option (Fin size → Fn)
  hookedEntries : List (SyscallHookEntry Fn)
  syscallHooks : Fin size → Option Fn
  dispatcherNr : ℤ

variable {Fn : Type} {size : ℕ}

/-- The slot of a number, unless it is outside of the table. -/
def slot? (size : ℕ) (nr : ℤ) : Option (Fin size) :=
  if h : 0 ≤ nr ∧ nr < size then some ⟨nr.toNat, by omega⟩ else none

namespace SyscallHooks

/-- `patch_syscall_table`; `patched` tells whether `ksu_patch_text` succeeds. -/
def patchSyscallTable (s : SyscallHooks Fn size) (nr : ℤ) (fn : Fn) (patched : Bool) :
    Except Errno (SyscallHooks Fn size) :=
  match s.syscallTable with
  | none => .error Errno.ENOENT
  | some table =>
    match slot? size nr with
    | none => .error Errno.EINVAL
    | some i =>
      if patched then .ok { s with syscallTable := some (Function.update table i fn) } else .error Errno.EIO

/-- A call of `patch_syscall_table` whose result is not looked at. -/
def patch (s : SyscallHooks Fn size) (nr : ℤ) (fn : Fn) (patched : Bool) : SyscallHooks Fn size :=
  match s.patchSyscallTable nr fn patched with
  | .ok s' => s'
  | .error _ => s

/-- `ksu_syscall_table_hook`: what `*old` becomes, if it is set, and the state. -/
def ksuSyscallTableHook (s : SyscallHooks Fn size) (nr : ℤ) (fn : Fn) (patched : Bool) :
    Option Fn × SyscallHooks Fn size :=
  match s.syscallTable, slot? size nr with
  | some table, some i =>
    let orig := table i
    let tracked :=
      if s.hookedEntries.any (·.nr == nr) then s
      else if s.hookedEntries.length < HOOKED_ENTRIES_SIZE then
        { s with hookedEntries := s.hookedEntries ++ [⟨nr, orig⟩] }
      else s
    (some orig, tracked.patch nr fn patched)
  | _, _ => (none, s)

/-- `ksu_syscall_table_unhook`. -/
def ksuSyscallTableUnhook (s : SyscallHooks Fn size) (nr : ℤ) (patched : Bool) : SyscallHooks Fn size :=
  match s.syscallTable, slot? size nr with
  | some _, some _ =>
    match s.hookedEntries.findIdx? (·.nr == nr) with
    | none => s
    | some i =>
      match s.hookedEntries[i]? with
      | none => s
      | some entry =>
        { s.patch nr entry.orig patched with hookedEntries := swapRemove s.hookedEntries i }
  | _, _ => s

/-- The loop of `ksu_syscall_hook_exit`, which patches the table without another check. -/
def restoreEntries (patched : ℤ → Bool) (table : Fin size → Fn) : List (SyscallHookEntry Fn) → Fin size → Fn
  | [] => table
  | entry :: entries =>
    let table :=
      match slot? size entry.nr with
      | some i => if patched entry.nr then Function.update table i entry.orig else table
      | none => table
    restoreEntries patched table entries

/-- `ksu_syscall_hook_exit`. -/
def ksuSyscallHookExit (s : SyscallHooks Fn size) (patched : ℤ → Bool) : SyscallHooks Fn size :=
  let s :=
    match s.syscallTable with
    | none => s
    | some table => { s with syscallTable := some (restoreEntries patched table s.hookedEntries), hookedEntries := [] }
  { s with syscallHooks := fun _ => none, dispatcherNr := -1 }

/-- A call from the rest of the module. -/
inductive Call (Fn : Type) where
  | hook (nr : ℤ) (fn : Fn) (patched : Bool)
  | unhook (nr : ℤ) (patched : Bool)

def call (s : SyscallHooks Fn size) : Call Fn → SyscallHooks Fn size
  | .hook nr fn patched => (s.ksuSyscallTableHook nr fn patched).2
  | .unhook nr patched => s.ksuSyscallTableUnhook nr patched

/-- The state once `ksu_syscall_hook_init` has found the table. -/
def loaded (table : Fin size → Fn) : SyscallHooks Fn size := ⟨some table, [], fun _ => none, -1⟩

/-- A number that is new has room in `hooked_entries`, and a slot can be patched back. -/
def Fits (s : SyscallHooks Fn size) : Call Fn → Prop
  | .hook nr _ _ =>
    slot? size nr = none ∨ (∃ e ∈ s.hookedEntries, e.nr = nr) ∨ s.hookedEntries.length < HOOKED_ENTRIES_SIZE
  | .unhook _ patched => patched = true

/-- Every call of a sequence fits where it is made. -/
def FitsFrom : SyscallHooks Fn size → List (Call Fn) → Prop
  | _, [] => True
  | s, c :: cs => s.Fits c ∧ FitsFrom (s.call c) cs

end SyscallHooks

/-! ### x86_64 -/

/-- The address at which a function was patched, if it was, and the bytes that were there. -/
structure CodePatch where
  addr : Option ℕ
  origInsn : List UInt8

/-- Restore the bytes. -/
def CodePatch.restore (p : CodePatch) (patched : Bool) (text : Memory) : Memory :=
  match p.addr with
  | none => text
  | some addr => if patched then text.store addr p.origInsn else text

/-- The state of `x86_64/syscall_hook.c`. -/
structure SyscallHooksX86 (Fn : Type) (size : ℕ) where
  hooks : SyscallHooks Fn size
  x64SysCall : CodePatch
  doSyscall64 : CodePatch
  text : Memory

namespace SyscallHooksX86

def call (x : SyscallHooksX86 Fn size) (c : SyscallHooks.Call Fn) : SyscallHooksX86 Fn size :=
  { x with hooks := x.hooks.call c }

/-- `ksu_syscall_hook_exit`; `patchDispatcher` is `CONFIG_KSU_X86_PATCH_SYSCALL_DISPATCHER` and `old` a kernel before
5.16. -/
def ksuSyscallHookExit (x : SyscallHooksX86 Fn size) (patchDispatcher old : Bool) (textPatched : Bool)
    (patched : ℤ → Bool) : SyscallHooksX86 Fn size :=
  let text :=
    if patchDispatcher then
      let text := x.x64SysCall.restore textPatched x.text
      if old then x.doSyscall64.restore textPatched text else text
    else x.text
  { x with text := text, hooks := x.hooks.ksuSyscallHookExit patched }

end SyscallHooksX86

/-! ### What is remembered -/

theorem slot?_eq_some {nr : ℤ} {i : Fin size} : slot? size nr = some i ↔ nr = i.val := by
  rw [slot?]
  by_cases h : 0 ≤ nr ∧ nr < size
  · rw [dif_pos h, Option.some.injEq, Fin.ext_iff]
    change nr.toNat = i.val ↔ _
    omega
  · rw [dif_neg h]
    refine iff_of_false (fun hne => absurd hne.symm (Option.some_ne_none i)) fun heq => h ?_
    have hlt := i.isLt
    omega

namespace SyscallHooks

/-- The numbers are distinct, each original is from the initial table, and so is what no number names. -/
structure Restorable (initial : Fin size → Fn) (s : SyscallHooks Fn size) : Prop where
  bounded : s.hookedEntries.length ≤ HOOKED_ENTRIES_SIZE
  distinct : (s.hookedEntries.map (·.nr)).Nodup
  original : ∀ e ∈ s.hookedEntries, ∃ i : Fin size, e.nr = i.val ∧ e.orig = initial i
  untouched : ∃ table, s.syscallTable = some table ∧
    ∀ i : Fin size, (∀ e ∈ s.hookedEntries, e.nr ≠ i.val) → table i = initial i

variable {initial : Fin size → Fn} {s : SyscallHooks Fn size} {nr : ℤ} {fn : Fn} {patched : Bool}

theorem patch_eq {table : Fin size → Fn} {i : Fin size} (htable : s.syscallTable = some table)
    (hi : slot? size nr = some i) :
    s.patch nr fn patched =
      { s with syscallTable := some (if patched then Function.update table i fn else table) } := by
  rw [patch, patchSyscallTable, htable]
  dsimp only
  rw [hi]
  dsimp only
  cases patched with
  | true => rfl
  | false =>
    cases s
    cases htable
    rfl

/-- A patch changes the table alone. -/
theorem patch_same (s : SyscallHooks Fn size) (nr : ℤ) (fn : Fn) (patched : Bool) :
    (s.patch nr fn patched).hookedEntries = s.hookedEntries ∧ (s.patch nr fn patched).syscallHooks = s.syscallHooks ∧
      (s.patch nr fn patched).dispatcherNr = s.dispatcherNr := by
  rw [patch, patchSyscallTable]
  cases s.syscallTable with
  | none => exact ⟨rfl, rfl, rfl⟩
  | some table =>
    cases slot? size nr with
    | none => exact ⟨rfl, rfl, rfl⟩
    | some i => cases patched <;> exact ⟨rfl, rfl, rfl⟩

theorem hook_none (hi : slot? size nr = none) : s.ksuSyscallTableHook nr fn patched = (none, s) := by
  rw [ksuSyscallTableHook, hi]
  split
  case h_1 heq => exact absurd heq (by simp)
  case h_2 => rfl

/-- **A hook** gives the old function, and stands in the table. -/
theorem table_hook {table : Fin size → Fn} {i : Fin size} (htable : s.syscallTable = some table)
    (hi : slot? size nr = some i) : (s.ksuSyscallTableHook nr fn true).1 = some (table i) ∧
      (s.ksuSyscallTableHook nr fn true).2.syscallTable = some (Function.update table i fn) := by
  simp only [ksuSyscallTableHook, htable, hi]
  refine ⟨trivial, ?_⟩
  split_ifs
  · exact congrArg SyscallHooks.syscallTable (patch_eq htable hi)
  · exact congrArg SyscallHooks.syscallTable (patch_eq rfl hi)
  · exact congrArg SyscallHooks.syscallTable (patch_eq htable hi)

/-- A hook leaves the dispatcher and its hooks alone, and takes a place in the list at most. -/
theorem hook_same (s : SyscallHooks Fn size) (nr : ℤ) (fn : Fn) (patched : Bool) :
    (s.ksuSyscallTableHook nr fn patched).2.syscallHooks = s.syscallHooks ∧
      (s.ksuSyscallTableHook nr fn patched).2.dispatcherNr = s.dispatcherNr ∧
      (s.ksuSyscallTableHook nr fn patched).2.hookedEntries.length ≤ s.hookedEntries.length + 1 := by
  rw [ksuSyscallTableHook]
  split
  · dsimp only
    obtain ⟨hentries, hhooks, hdispatcher⟩ := patch_same
      (if s.hookedEntries.any (·.nr == nr) then s
        else if s.hookedEntries.length < HOOKED_ENTRIES_SIZE then
          { s with hookedEntries := s.hookedEntries ++ [⟨nr, _⟩] }
        else s) nr fn patched
    rw [hentries, hhooks, hdispatcher]
    split_ifs
    · exact ⟨rfl, rfl, Nat.le_succ _⟩
    · exact ⟨rfl, rfl, by rw [List.length_append, List.length_singleton]⟩
    · exact ⟨rfl, rfl, Nat.le_succ _⟩
  · exact ⟨rfl, rfl, Nat.le_succ _⟩

theorem unhook_none (hi : slot? size nr = none) : s.ksuSyscallTableUnhook nr patched = s := by
  rw [ksuSyscallTableUnhook, hi]
  split
  case h_1 heq => exact absurd heq (by simp)
  case h_2 => rfl

theorem unhook_same (s : SyscallHooks Fn size) (nr : ℤ) (patched : Bool) :
    (s.ksuSyscallTableUnhook nr patched).syscallHooks = s.syscallHooks ∧
      (s.ksuSyscallTableUnhook nr patched).dispatcherNr = s.dispatcherNr := by
  rw [ksuSyscallTableUnhook]
  split
  · split
    · exact ⟨rfl, rfl⟩
    · split
      · exact ⟨rfl, rfl⟩
      · exact (patch_same s nr _ patched).2
  · exact ⟨rfl, rfl⟩

/-- The table after a patch, away from the slot. -/
theorem patched_ne {table : Fin size → Fn} {i j : Fin size} (h : j ≠ i) :
    (if patched then Function.update table i fn else table) j = table j := by
  cases patched with
  | true => exact Function.update_of_ne h fn table
  | false => rfl

/-- A patch of a slot whose number is in the list. -/
theorem Restorable.patch (h : s.Restorable initial) {i : Fin size} (hi : slot? size nr = some i)
    (htracked : ∃ e ∈ s.hookedEntries, e.nr = nr) : (s.patch nr fn patched).Restorable initial := by
  obtain ⟨table, htable, huntouched⟩ := h.untouched
  rw [patch_eq htable hi]
  refine ⟨h.bounded, h.distinct, h.original, _, rfl, fun j hj => ?_⟩
  have hne : j ≠ i := by
    rintro rfl
    obtain ⟨e, he, hnr⟩ := htracked
    exact hj e he (hnr.trans (slot?_eq_some.mp hi))
  rw [patched_ne hne]
  exact huntouched j hj

/-- A new number, with what its slot holds. -/
theorem Restorable.track (h : s.Restorable initial) {table : Fin size → Fn} {i : Fin size}
    (htable : s.syscallTable = some table) (hi : slot? size nr = some i)
    (hnew : ∀ e ∈ s.hookedEntries, e.nr ≠ nr) (hroom : s.hookedEntries.length < HOOKED_ENTRIES_SIZE) :
    (⟨some table, s.hookedEntries ++ [⟨nr, table i⟩], s.syscallHooks, s.dispatcherNr⟩ :
      SyscallHooks Fn size).Restorable initial := by
  obtain ⟨table', htable', huntouched⟩ := h.untouched
  obtain rfl := Option.some.inj (htable.symm.trans htable')
  have hnr := slot?_eq_some.mp hi
  constructor
  case bounded =>
    change (s.hookedEntries ++ _).length ≤ _
    rw [List.length_append, List.length_singleton]
    exact hroom
  case distinct =>
    change ((s.hookedEntries ++ _).map _).Nodup
    rw [List.map_append, List.map_singleton]
    refine List.nodup_append.mpr ⟨h.distinct, List.pairwise_singleton _ _, ?_⟩
    intro a ha b hb
    obtain ⟨e, he, rfl⟩ := List.mem_map.mp ha
    rw [List.mem_singleton.mp hb]
    exact hnew e he
  case original =>
    refine List.forall_mem_append.mpr ⟨h.original, List.forall_mem_singleton.mpr ⟨i, hnr, ?_⟩⟩
    exact huntouched i fun e he => hnr ▸ hnew e he
  case untouched =>
    exact ⟨table, rfl, fun j hj => huntouched j fun e he => hj e (List.mem_append_left _ he)⟩

theorem Restorable.hook (h : s.Restorable initial)
    (hroom : ∀ i, slot? size nr = some i → (∀ e ∈ s.hookedEntries, e.nr ≠ nr) →
      s.hookedEntries.length < HOOKED_ENTRIES_SIZE) :
    (s.ksuSyscallTableHook nr fn patched).2.Restorable initial := by
  obtain ⟨table, htable, -⟩ := h.untouched
  rw [ksuSyscallTableHook, htable]
  cases hi : slot? size nr with
  | none => exact h
  | some i =>
    dsimp only
    split_ifs with hfound hsize
    · obtain ⟨e, he, hnr⟩ := List.any_eq_true.mp hfound
      exact h.patch hi ⟨e, he, eq_of_beq hnr⟩
    · have hnew : ∀ e ∈ s.hookedEntries, e.nr ≠ nr := fun e he heq =>
        hfound (List.any_eq_true.mpr ⟨e, he, beq_iff_eq.mpr heq⟩)
      exact (h.track htable hi hnew hsize).patch hi
        ⟨_, List.mem_append_right _ (List.mem_singleton.mpr rfl), rfl⟩
    · have hnew : ∀ e ∈ s.hookedEntries, e.nr ≠ nr := fun e he heq =>
        hfound (List.any_eq_true.mpr ⟨e, he, beq_iff_eq.mpr heq⟩)
      exact absurd (hroom i hi hnew) hsize

theorem Restorable.unhook (h : s.Restorable initial) : (s.ksuSyscallTableUnhook nr true).Restorable initial := by
  obtain ⟨table, htable, huntouched⟩ := h.untouched
  rw [ksuSyscallTableUnhook, htable]
  cases hi : slot? size nr with
  | none => exact h
  | some i =>
    dsimp only
    cases hfind : s.hookedEntries.findIdx? (·.nr == nr) with
    | none => exact h
    | some k =>
      obtain ⟨entry, hentry, hnr, hperm⟩ := exists_swapRemove_perm hfind
      dsimp only
      rw [hentry]
      dsimp only
      rw [patch_eq htable hi]
      have hnr := eq_of_beq hnr
      have hslot := slot?_eq_some.mp hi
      have hnodup := (hperm.map (·.nr)).nodup_iff.mp h.distinct
      rw [List.map_cons, List.nodup_cons] at hnodup
      have hsub : ∀ e ∈ swapRemove s.hookedEntries k, e ∈ s.hookedEntries := fun e he =>
        hperm.mem_iff.mpr (List.mem_cons_of_mem _ he)
      constructor
      case bounded =>
        have hlength := hperm.length_eq
        rw [List.length_cons] at hlength
        have hbounded := h.bounded
        change (swapRemove _ _).length ≤ _
        omega
      case distinct => exact hnodup.2
      case original => exact fun e he => h.original e (hsub e he)
      case untouched =>
        refine ⟨_, rfl, fun j hj => ?_⟩
        by_cases hji : j = i
        · subst hji
          obtain ⟨i', hi', horig⟩ := h.original entry (hperm.mem_iff.mpr List.mem_cons_self)
          have hsame : i' = j := Fin.ext (by omega)
          rw [if_pos rfl, Function.update_self, horig, hsame]
        · rw [patched_ne hji]
          refine huntouched j fun e he heq => ?_
          rcases List.mem_cons.mp (hperm.mem_iff.mp he) with rfl | he
          · exact hji (Fin.ext (by omega))
          · exact hj e he heq

/-- **An unhook** gives the slot its original back. -/
theorem Restorable.table_unhook (h : s.Restorable initial) {table : Fin size → Fn} {i : Fin size}
    (htable : s.syscallTable = some table) (hi : slot? size nr = some i) :
    (s.ksuSyscallTableUnhook nr true).syscallTable = some (Function.update table i (initial i)) := by
  obtain ⟨table', htable', huntouched⟩ := h.untouched
  obtain rfl := Option.some.inj (htable.symm.trans htable')
  have hslot := slot?_eq_some.mp hi
  simp only [ksuSyscallTableUnhook, htable, hi]
  cases hfind : s.hookedEntries.findIdx? (·.nr == nr) with
  | none =>
    have hnone : ∀ e ∈ s.hookedEntries, e.nr ≠ i.val := fun e he heq => by
      have hne := List.findIdx?_eq_none_iff.mp hfind e he
      rw [heq, hslot] at hne
      simp at hne
    rw [htable, ← huntouched i hnone, Function.update_eq_self]
  | some j =>
    obtain ⟨entry, hentry, hnr, hperm⟩ := exists_swapRemove_perm hfind
    obtain ⟨i', hi', horig⟩ := h.original entry (hperm.mem_iff.mpr List.mem_cons_self)
    have hnr := eq_of_beq hnr
    have hsame : i' = i := Fin.ext (by omega)
    simp only [hentry, patch_eq htable hi, if_true, horig, hsame]

/-- **What an unhook leaves**: the number is no longer tracked, and its slot has its original. -/
theorem Restorable.unhooked (h : s.Restorable initial) (nr : ℤ) :
    (∀ e ∈ (s.ksuSyscallTableUnhook nr true).hookedEntries, e.nr ≠ nr) ∧
      ∀ i, slot? size nr = some i →
        ∃ table, (s.ksuSyscallTableUnhook nr true).syscallTable = some table ∧ table i = initial i := by
  obtain ⟨table, htable, -⟩ := h.untouched
  constructor
  · rw [ksuSyscallTableUnhook, htable]
    cases hi : slot? size nr with
    | none =>
      intro e he heq
      obtain ⟨i, hnr, -⟩ := h.original e he
      rw [← heq, slot?_eq_some.mpr hnr] at hi
      cases hi
    | some i =>
      dsimp only
      cases hfind : s.hookedEntries.findIdx? (·.nr == nr) with
      | none =>
        intro e he heq
        have hne := List.findIdx?_eq_none_iff.mp hfind e he
        rw [heq] at hne
        simp at hne
      | some j =>
        obtain ⟨entry, hentry, hnr, hperm⟩ := exists_swapRemove_perm hfind
        have hnodup := (hperm.map (·.nr)).nodup_iff.mp h.distinct
        rw [List.map_cons, List.nodup_cons, eq_of_beq hnr] at hnodup
        dsimp only
        rw [hentry]
        exact fun e he heq => hnodup.1 (List.mem_map.mpr ⟨e, he, heq⟩)
  · intro i hi
    exact ⟨_, h.table_unhook htable hi, Function.update_self _ _ _⟩

/-- The loop of the exit restores what is in the list. -/
theorem restoreEntries_eq {entries : List (SyscallHookEntry Fn)}
    (horiginal : ∀ e ∈ entries, ∃ i : Fin size, e.nr = i.val ∧ e.orig = initial i) (table : Fin size → Fn)
    (huntouched : ∀ i : Fin size, (∀ e ∈ entries, e.nr ≠ i.val) → table i = initial i) :
    restoreEntries (fun _ => true) table entries = initial := by
  induction entries generalizing table with
  | nil =>
    funext i
    exact huntouched i (List.forall_mem_nil _)
  | cons e entries ih =>
    obtain ⟨⟨i, hnr, horig⟩, hrest⟩ := List.forall_mem_cons.mp horiginal
    rw [restoreEntries, slot?_eq_some.mpr hnr]
    refine ih hrest _ fun j hj => ?_
    dsimp only
    by_cases hji : j = i
    · rw [if_pos rfl, hji, Function.update_self, horig]
    · rw [if_pos rfl, Function.update_of_ne hji]
      refine huntouched j (List.forall_mem_cons.mpr ⟨fun heq => hji (Fin.ext (by omega)), hj⟩)

theorem Restorable.exit (h : s.Restorable initial) :
    (s.ksuSyscallHookExit fun _ => true).syscallTable = some initial := by
  obtain ⟨table, htable, huntouched⟩ := h.untouched
  rw [ksuSyscallHookExit, htable]
  exact congrArg some (restoreEntries_eq h.original table huntouched)

theorem Restorable.call (h : s.Restorable initial) {c : Call Fn} (hfits : s.Fits c) : (s.call c).Restorable initial := by
  cases c with
  | hook nr fn patched =>
    refine h.hook fun i hi hnew => ?_
    rcases hfits with hnone | ⟨e, he, hnr⟩ | hroom
    · rw [hi] at hnone
      cases hnone
    · exact absurd hnr (hnew e he)
    · exact hroom
  | unhook nr patched =>
    obtain rfl : patched = true := hfits
    exact h.unhook

theorem Restorable.calls (h : s.Restorable initial) {calls : List (Call Fn)} (hfits : s.FitsFrom calls) :
    (calls.foldl SyscallHooks.call s).Restorable initial := by
  induction calls generalizing s with
  | nil => exact h
  | cons c calls ih =>
    obtain ⟨hfirst, hrest⟩ := hfits
    exact ih (h.call hfirst) hrest

/-- The dispatcher and its hooks do not matter. -/
theorem Restorable.congr {s' : SyscallHooks Fn size} (h : s.Restorable initial) (htable : s'.syscallTable = s.syscallTable)
    (hentries : s'.hookedEntries = s.hookedEntries) : s'.Restorable initial := by
  constructor
  · rw [hentries]
    exact h.bounded
  · rw [hentries]
    exact h.distinct
  · rw [hentries]
    exact h.original
  · rw [hentries, htable]
    exact h.untouched

theorem loaded_restorable (initial : Fin size → Fn) : (loaded initial).Restorable initial where
  bounded := Nat.zero_le _
  distinct := List.Pairwise.nil
  original := List.forall_mem_nil _
  untouched := ⟨initial, rfl, fun _ _ => rfl⟩

end SyscallHooks

/-- The calls on x86_64 are those on arm64. -/
theorem SyscallHooksX86.calls_hooks (x : SyscallHooksX86 Fn size) (calls : List (SyscallHooks.Call Fn)) :
    (calls.foldl SyscallHooksX86.call x).hooks = calls.foldl SyscallHooks.call x.hooks := by
  induction calls generalizing x with
  | nil => rfl
  | cons c calls ih => exact ih (x.call c)

/-- **The table is restored**, on both architectures. -/
theorem tableHooks_restore (initial : Fin size → Fn) (calls : List (SyscallHooks.Call Fn))
    (hfits : (SyscallHooks.loaded initial).FitsFrom calls) :
    let s := calls.foldl SyscallHooks.call (SyscallHooks.loaded initial)
    (s.hookedEntries.map (·.nr)).Nodup ∧
    (∀ e ∈ s.hookedEntries, ∃ i : Fin size, e.nr = i.val ∧ e.orig = initial i) ∧
    (∃ table, s.syscallTable = some table ∧
      ∀ i : Fin size, (∀ e ∈ s.hookedEntries, e.nr ≠ i.val) → table i = initial i) ∧
    (∀ nr, (∀ e ∈ (s.ksuSyscallTableUnhook nr true).hookedEntries, e.nr ≠ nr) ∧
      ∀ i, slot? size nr = some i →
        ∃ table, (s.ksuSyscallTableUnhook nr true).syscallTable = some table ∧ table i = initial i) ∧
    (s.ksuSyscallHookExit fun _ => true).syscallTable = some initial ∧
    ∀ x : SyscallHooksX86 Fn size, x.hooks = SyscallHooks.loaded initial →
      (calls.foldl SyscallHooksX86.call x).hooks = s ∧
      ∀ patchDispatcher old textPatched patched,
        ((calls.foldl SyscallHooksX86.call x).ksuSyscallHookExit patchDispatcher old textPatched patched).hooks =
          s.ksuSyscallHookExit patched := by
  intro s
  have hs : s.Restorable initial := (SyscallHooks.loaded_restorable initial).calls hfits
  refine ⟨hs.distinct, hs.original, hs.untouched, hs.unhooked, hs.exit, fun x hx => ?_⟩
  have hsame : (calls.foldl SyscallHooksX86.call x).hooks = s := by rw [SyscallHooksX86.calls_hooks, hx]
  refine ⟨hsame, fun patchDispatcher old textPatched patched => ?_⟩
  exact congrArg (SyscallHooks.ksuSyscallHookExit · patched) hsame

/-- One number hooked twice and another one unhooked in between. -/
theorem tableHooks_restore_twice :
    (([.hook 0 7 true, .hook 1 8 true, .hook 0 9 true, .unhook 1 true].foldl SyscallHooks.call
      (SyscallHooks.loaded fun i : Fin 2 => i.val)).ksuSyscallHookExit fun _ => true).syscallTable =
        some fun i => i.val :=
  (tableHooks_restore (fun i : Fin 2 => i.val) [.hook 0 7 true, .hook 1 8 true, .hook 0 9 true, .unhook 1 true]
    ⟨.inr (.inr (by decide)), .inr (.inr (by decide)), .inr (.inl ⟨_, List.mem_cons_self, rfl⟩), rfl, trivial⟩).2.2.2.2.1

end KernelSU.Hook
