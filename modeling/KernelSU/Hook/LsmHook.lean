import Mathlib.Logic.Function.Basic
import KernelSU.Lib.Errno
import KernelSU.Lib.SwapRemove

/-!
# `kernel/hook/lsm_hook.c` before 6.12: patches of the hook lists

`security_hook_heads` is an array of lists, each of whose entries has a function.  The functions are members of a union,
so `hook_offset` is the same for all; `head_name`, `head_offset` and the texts that are printed are left out.  A
descriptor has an entry of its own, which becomes the list of a head that has none.

* `ksuLsmHook`, `ksuLsmUnhook`, `ksuLsmHookExit` — the calls, and `LsmCall.run` a call with its outcome;
* `SecurityHookHeads.placeOf` — where a target and an offset lead in a table without patches.
-/

namespace KernelSU.Hook

open KernelSU.Lib

/-- An entry of a list: of the table, or the one of a descriptor. -/
inductive HookEntry (ι : Type) where
  | table (head index : ℕ)
  | own (hook : ι)
  deriving DecidableEq

/-- What is fixed in a `struct ksu_lsm_hook`; `list` is the address of its own entry. -/
structure LsmHook where
  replacement : ℕ
  targetName : Option String
  offset : ℤ
  list : ℕ

/-- The functions of the lists before the first call. -/
structure SecurityHookHeads where
  heads : List (List ℕ)
  nonnull : ∀ fns ∈ heads, ∀ fn ∈ fns, fn ≠ 0

/-- What the symbol lookups give: `ksu_resolve_symbol_for_functable_hook`, and whether `security_hook_heads` is found. -/
structure KernelSymbols where
  resolve : String → ℕ
  headsFound : Bool

/-- The lists, what each entry has in it, the fields of the descriptors that calls set, and the first
`ksu_lsm_hook_count` of `ksu_lsm_hook_entries`. -/
structure LsmHooks (ι : Type) where
  heads : List (List (HookEntry ι))
  hookOf : HookEntry ι → ℕ
  original : ι → ℕ
  entry : ι → Option (HookEntry ι)
  listHead : ι → ℕ
  tracked : List ι

/-- `ARRAY_SIZE(ksu_lsm_hook_entries)`. -/
def LSM_HOOK_ENTRIES_SIZE : ℕ := 16

variable {ι : Type}

namespace SecurityHookHeads

/-- The function of an entry. -/
def fnOf (t : SecurityHookHeads) : HookEntry ι → ℕ
  | .table head index => ((t.heads[head]?.getD [])[index]?).getD 0
  | .own _ => 0

/-- The entries of the lists. -/
def entries (t : SecurityHookHeads) (ι : Type) : List (List (HookEntry ι)) :=
  t.heads.mapIdx fun head fns => fns.mapIdx fun index _ => .table head index

/-- Nothing is hooked. -/
def start (t : SecurityHookHeads) (ι : Type) : LsmHooks ι where
  heads := t.entries ι
  hookOf := t.fnOf
  original := fun _ => 0
  entry := fun _ => none
  listHead := fun _ => 0
  tracked := []

end SecurityHookHeads

section Calls

variable [DecidableEq ι] (desc : ι → LsmHook)

/-- `ksu_lsm_hook_track`. -/
def ksuLsmHookTrack (d : ι) (s : LsmHooks ι) : Except Errno (LsmHooks ι) :=
  if d ∈ s.tracked then .ok s
  else if LSM_HOOK_ENTRIES_SIZE ≤ s.tracked.length then .error Errno.ENOSPC
  else .ok { s with tracked := s.tracked ++ [d] }

/-- `ksu_lsm_hook_untrack`. -/
def ksuLsmHookUntrack (d : ι) (s : LsmHooks ι) : LsmHooks ι :=
  match s.tracked.findIdx? (· == d) with
  | none => s
  | some i => { s with tracked := swapRemove s.tracked i }

/-- `current_origin`: the function of an entry, or what a tracked hook has replaced it for. -/
def currentOrigin (s : LsmHooks ι) (n : HookEntry ι) : ℕ :=
  match s.tracked.find? fun e => (desc e).replacement == s.hookOf n with
  | some e => s.original e
  | none => s.hookOf n

/-- What the search for the target ends with. -/
inductive Search (ι : Type) where
  | already
  | entry (head : ℕ) (n : HookEntry ι) (origin : ℕ)
  | nothing

/-- The search in one list. -/
def searchList (s : LsmHooks ι) (d : ι) (target head : ℕ) : List (HookEntry ι) → Search ι
  | [] => .nothing
  | n :: ns =>
    if currentOrigin desc s n = (desc d).replacement then .already
    else if currentOrigin desc s n = target then .entry head n (currentOrigin desc s n)
    else searchList s d target head ns

/-- The search from a head on. -/
def searchHeads (s : LsmHooks ι) (d : ι) (target : ℕ) : ℕ → List (List (HookEntry ι)) → Search ι
  | _, [] => .nothing
  | head, ns :: rest => match searchList desc s d target head ns with
    | .nothing => searchHeads s d target (head + 1) rest
    | .already => .already
    | .entry head n origin => .entry head n origin

/-- `selected_entry`, `selected_slot` and `selected_origin`: an entry of a list, or the own one for a head. -/
inductive Selected (ι : Type) where
  | slot (n : HookEntry ι) (origin : ℕ)
  | head (head : ℕ)

/-- What `hook->list` is made for a head. -/
def ownList (d : ι) (head : ℕ) (s : LsmHooks ι) : LsmHooks ι :=
  { s with
    listHead := Function.update s.listHead d head
    hookOf := Function.update s.hookOf (.own d) (desc d).replacement }

/-- Where the offset leads from the head with the target. -/
def selectOffset (d : ι) (head : ℕ) (s : LsmHooks ι) : Except Errno (Selected ι × LsmHooks ι) :=
  if (head : ℤ) + (desc d).offset < 0 then .error Errno.EINVAL
  else match s.heads[((head : ℤ) + (desc d).offset).toNat]? with
    | none => .error Errno.EINVAL
    | some ns =>
      if ns.any fun n => s.hookOf n == (desc d).replacement then .error Errno.EALREADY
      else match ns with
        | n :: _ => .ok (.slot n (s.hookOf n), s)
        | [] => .ok (.head ((head : ℤ) + (desc d).offset).toNat,
            ownList desc d ((head : ℤ) + (desc d).offset).toNat s)

/-- The selection of a slot. -/
def selectSlot (d : ι) (target : ℕ) (s : LsmHooks ι) : Except Errno (Selected ι × LsmHooks ι) :=
  match searchHeads desc s d target 0 s.heads with
  | .already => .error Errno.EALREADY
  | .nothing => .error Errno.ENOENT
  | .entry head n origin =>
    if (desc d).offset = 0 then .ok (.slot n origin, s) else selectOffset desc d head s

/-- The patch of the selected slot, and what the descriptor saves.  A head gets the own entry, whose `next` is `NULL`;
so does a slot with `NULL` in it get its address. -/
def install (d : ι) (selected : Selected ι) (s : LsmHooks ι) : LsmHooks ι :=
  match selected with
  | .slot n origin =>
    { s with
      hookOf := Function.update s.hookOf n (if origin ≠ 0 then (desc d).replacement else (desc d).list)
      entry := Function.update s.entry d (some n)
      original := Function.update s.original d origin }
  | .head head =>
    { s with
      heads := s.heads.set head [.own d]
      entry := Function.update s.entry d (some (.own d))
      original := Function.update s.original d 0 }

/-- What is searched for: the saved function, else the one of the name. -/
def searchTarget (kernel : KernelSymbols) (name : String) (d : ι) (s : LsmHooks ι) : ℕ :=
  if s.original d ≠ 0 then s.original d else kernel.resolve name

/-- `ksu_lsm_hook`; `patched` tells whether `ksu_patch_text` succeeds. -/
def ksuLsmHook (kernel : KernelSymbols) (d : ι) (patched : Bool) (s : LsmHooks ι) : ℤ × LsmHooks ι :=
  if (desc d).replacement = 0 then (Errno.EINVAL.val, s)
  else if (s.entry d).isSome then (Errno.EALREADY.val, s)
  else match (desc d).targetName with
    | none => (Errno.EINVAL.val, s)
    | some name =>
      if searchTarget kernel name d s = 0 then (Errno.ENOENT.val, s)
      else if kernel.headsFound = false then (Errno.ENOENT.val, s)
      else match selectSlot desc d (searchTarget kernel name d s) s with
        | .error e => (e.val, s)
        | .ok (selected, s) => match ksuLsmHookTrack d s with
          | .error e => (e.val, s)
          | .ok s => if patched then (0, install desc d selected s) else (Errno.EFAULT.val, ksuLsmHookUntrack d s)

/-- `ksu_lsm_unhook`.  The own entry is only ever installed with a saved `NULL`, so that its head becomes empty. -/
def ksuLsmUnhook (d : ι) (patched : Bool) (s : LsmHooks ι) : LsmHooks ι :=
  match s.entry d with
  | none => s
  | some n =>
    if patched then
      let s := if n = .own d then { s with heads := s.heads.set (s.listHead d) [] }
        else { s with hookOf := Function.update s.hookOf n (s.original d) }
      let s := ksuLsmHookUntrack d s
      { s with entry := Function.update s.entry d none }
    else s

/-- `ksu_lsm_hook_exit`. -/
def ksuLsmHookExit (patched : ι → Bool) (s : LsmHooks ι) : LsmHooks ι :=
  s.tracked.reverse.foldl (fun s d => ksuLsmUnhook d (patched d) s) s

/-- A call, and whether its patches succeed. -/
inductive LsmCall (ι : Type) where
  | hook (d : ι) (patched : Bool)
  | unhook (d : ι) (patched : Bool)
  | exit (patched : ι → Bool)

/-- The state behind a call. -/
def LsmCall.run (kernel : KernelSymbols) (s : LsmHooks ι) : LsmCall ι → LsmHooks ι
  | .hook d patched => (ksuLsmHook desc kernel d patched s).2
  | .unhook d patched => ksuLsmUnhook d patched s
  | .exit patched => ksuLsmHookExit patched s

end Calls

/-! ### Places -/

/-- What a patch replaces: the function of an entry of the table, or the list of a head. -/
inductive HookPlace where
  | slot (head index : ℕ)
  | head (head : ℕ)
  deriving DecidableEq

/-- The first entry with a function. -/
def findTarget (target : ℕ) : ℕ → List (List ℕ) → Option (ℕ × ℕ)
  | _, [] => none
  | head, fns :: rest => match fns.findIdx? (· == target) with
    | some index => some (head, index)
    | none => findTarget target (head + 1) rest

/-- Where an offset leads from a head. -/
def SecurityHookHeads.placeAt (t : SecurityHookHeads) (head : ℤ) : Option HookPlace :=
  if head < 0 then none
  else match t.heads[head.toNat]? with
    | none => none
    | some [] => some (.head head.toNat)
    | some (_ :: _) => some (.slot head.toNat 0)

/-- Where a target and an offset lead. -/
def SecurityHookHeads.placeOf (t : SecurityHookHeads) (target : ℕ) (offset : ℤ) : Option HookPlace :=
  match findTarget target 0 t.heads with
  | none => none
  | some (head, index) => if offset = 0 then some (.slot head index) else t.placeAt (head + offset)

end KernelSU.Hook
