import KernelSU.Feature.Sucompat
import KernelSU.Hook.SyscallTable
import Mathlib.Data.List.Infix

/-!
# `kernel/hook/syscall_hook_manager.c` and `kernel/hook/syscall_event_bridge.c`

A marked task that makes one of four system calls is sent to the dispatcher, which stands in a free slot of the system
call table, and from there to the hook of the call.  Two more calls of every task are hooked in the table itself, until
`init` has begun to read `init.rc`.

* `Routine` — the functions in the table and among the hooks;
* `Bridge` — the variables of the module that a hook reads;
* `Bridge.syscall` — a system call of a task, from its entry on.
-/

namespace KernelSU.Hook

open KernelSU.Lib KernelSU.Lib.Errno KernelSU.Policy KernelSU.Feature KernelSU.Supercall

/-- A function of the kernel, or one of the module. -/
inductive Routine (κ : Type) where
  | kernel (f : κ)
  | ksuSyscallDispatcher
  | ksuHookSetresuid
  | ksuHookExecve
  | ksuHookNewfstatat
  | ksuHookFaccessat
  | ksuSysRead
  | ksuSysFstat
  deriving DecidableEq

/-- The numbers of the system calls. -/
structure SyscallNumbers where
  setresuid : ℤ
  execve : ℤ
  newfstatat : ℤ
  faccessat : ℤ
  execveat : ℤ
  read : ℤ
  fstat : ℤ

def SyscallNumbers.arm64 : SyscallNumbers := ⟨147, 221, 79, 48, 281, 63, 80⟩

def SyscallNumbers.x86_64 : SyscallNumbers := ⟨117, 59, 262, 269, 322, 0, 5⟩

/-! ### The dispatcher's slot and its hooks -/

namespace SyscallHooks

variable {κ : Type} [DecidableEq κ] {size : ℕ}

/-- `ksu_find_ni_syscall_slots`; `ni` is `sys_ni_syscall`, if its symbol is found. -/
def ksuFindNiSyscallSlots (table : Fin size → Routine κ) (ni : Option κ) (maxSlots : ℕ) : List (Fin size) :=
  match ni with
  | none => []
  | some ni => ((List.finRange size).filter fun i => table i = .kernel ni).take maxSlots

/-- `ksu_syscall_hook_init`; `patched` tells whether `ksu_patch_text` succeeds. -/
def ksuSyscallHookInit (table : Option (Fin size → Routine κ)) (ni : Option κ) (patched : Bool) :
    SyscallHooks (Routine κ) size :=
  match table with
  | none => ⟨none, [], fun _ => none, -1⟩
  | some table =>
    match ksuFindNiSyscallSlots table ni 1 with
    | [] => loaded table
    | niSlot :: _ =>
      (ksuSyscallTableHook { loaded table with dispatcherNr := (niSlot.val : ℤ) } niSlot .ksuSyscallDispatcher patched).2

/-- `ksu_register_syscall_hook`. -/
def ksuRegisterSyscallHook (s : SyscallHooks (Routine κ) size) (nr : ℤ) (fn : Routine κ) :
    Option Errno × SyscallHooks (Routine κ) size :=
  match slot? size nr with
  | none => (some EINVAL, s)
  | some i =>
    if (s.syscallHooks i).isSome then (some EEXIST, s)
    else (none, { s with syscallHooks := Function.update s.syscallHooks i (some fn) })

/-- The hooks that `ksu_syscall_hook_manager_init` registers, in its order. -/
def managerHooks (nr : SyscallNumbers) : List (ℤ × Routine κ) :=
  [(nr.setresuid, .ksuHookSetresuid), (nr.execve, .ksuHookExecve), (nr.newfstatat, .ksuHookNewfstatat),
    (nr.faccessat, .ksuHookFaccessat)]

/-- The registrations of `ksu_syscall_hook_manager_init`. -/
def ksuSyscallHookManagerInit (nr : SyscallNumbers) (s : SyscallHooks (Routine κ) size) :
    SyscallHooks (Routine κ) size :=
  (managerHooks nr).foldl (fun s hook => (ksuRegisterSyscallHook s hook.1 hook.2).2) s

/-- The table hooks of `ksu_ksud_init`, with what `orig_sys_read` and `orig_sys_fstat` become. -/
def ksuKsudInit (nr : SyscallNumbers) (s : SyscallHooks (Routine κ) size) :
    Option (Routine κ) × Option (Routine κ) × SyscallHooks (Routine κ) size :=
  let read := s.ksuSyscallTableHook nr.read .ksuSysRead true
  let fstat := read.2.ksuSyscallTableHook nr.fstat .ksuSysFstat true
  (read.1, fstat.1, fstat.2)

/-- `stop_init_rc_hook`. -/
def stopInitRcHook (nr : SyscallNumbers) (s : SyscallHooks (Routine κ) size) : SyscallHooks (Routine κ) size :=
  (s.ksuSyscallTableUnhook nr.read true).ksuSyscallTableUnhook nr.fstat true

end SyscallHooks

/-! ### The hooks -/

/-- `KERNEL_SU_CONTEXT`. -/
def KERNEL_SU_CONTEXT : List UInt8 := "u:r:ksu:s0".toUTF8.data.toList

section Init

variable {κ σ φ : Type} (k : Kernel κ σ φ)

/-- `escape_to_root_for_init`. -/
def escapeToRootForInit (w : World σ φ) : World σ φ :=
  if !k.prepareCreds w.rest then w else w.withCred (setupSelinux (k.escape w.rest) KERNEL_SU_CONTEXT w.task.cred)

/-- The parts of a path that keep the mark of a task of `init` which executes it. -/
def keptMarked : List (List UInt8) :=
  ["/app_process".toUTF8.data.toList, "/adbd".toUTF8.data.toList, "/stub_zygote".toUTF8.data.toList]

/-- `ksu_handle_init_mark_tracker`. -/
def ksuHandleInitMarkTracker (w : World σ φ) : World σ φ :=
  let copied := copyString 0 (w.mem.seen (k.untaggedAddr w.regs.parm1)) 64
  if copied.1 = none then w
  else
    let path := Bytes.cString (copied.2.set 63 0)
    if path = KSUD_PATH then escapeToRootForInit k w
    else if keptMarked.all fun part => ¬part <:+: path then clearTaskTracepointFlagIfNeeded k w
    else w

/-- `is_init_rc`. -/
def isInitRc (w : World σ φ) (file : φ) : Bool :=
  w.comm = "init".toUTF8.data.toList && k.dIsReg file && k.dName file = "init.rc".toUTF8.data.toList &&
    k.dPath w.rest file = some "/system/etc/init/hw/init.rc".toUTF8.data.toList

/-- `fget`, of the descriptor that a system call names first. -/
def World.fget (w : World σ φ) : Option φ := w.files w.regs.parm1.toUInt32.toNat

/-- `offsetof(struct stat, st_size)`. -/
def ST_SIZE : UInt64 := 48

/-- What `ksu_sys_fstat` adds to the size of `init.rc`. -/
def addRcLen (extra : UInt64) (statbuf : UInt64) (mem : ProcessMem) : ProcessMem :=
  match (List.range 8).mapM (mem.seenNofault (statbuf + ST_SIZE)) with
  | none => mem
  | some size =>
    mem.copyToUserNofault (statbuf + ST_SIZE) (Bytes.encodeLE 8 (UInt64.ofNat (Bytes.decodeLE size) + extra).toNat)

end Init

/-- What the hooks read of the module. -/
structure Bridge (κ : Type) (size : ℕ) where
  boot : Boot
  /-- the driver, for `execve` once `ksu_execve_hook_ksud` is through -/
  driver : Driver
  hooks : SyscallHooks (Routine κ) size
  nr : SyscallNumbers
  /-- `ksud_execve_key` -/
  ksudExecveKey : Bool
  origSysRead : Option (Routine κ)
  origSysFstat : Option (Routine κ)
  /-- `rc_hooked` -/
  rcHooked : Bool
  /-- `ksu_rc_len + module_rc_len`, once `load_module_rc_once` is through -/
  rcLen : UInt64

namespace Bridge

variable {κ σ φ : Type} [DecidableEq κ] {size : ℕ} (b : Bridge κ size) (k : Kernel κ σ φ)

/-- `ksu_syscall_table[nr]`. -/
def entry (nr : ℤ) : Option (Routine κ) :=
  (slot? size nr).bind fun i => b.hooks.syscallTable.map fun table => table i

/-- A function of the kernel is called. -/
def callKernel (fn : Option (Routine κ)) (w : World σ φ) : ℤ × World σ φ :=
  match fn with
  | some (.kernel f) => k.call f w
  | _ => (ENOSYS.val, w)

/-- `ksu_syscall_table[nr]`, called by a hook.  Of the functions of the module only the dispatcher stands in the table at a
number that has a hook, and a number that it has restored makes it fail. -/
def table (nr : ℤ) (w : World σ φ) : ℤ × World σ φ := callKernel k (b.entry nr) w

/-- `ksu_hook_newfstatat`. -/
def ksuHookNewfstatat (origNr : ℤ) (w : World σ φ) : Outcome σ φ :=
  if !b.driver.features.suCompatEnabled then .of (b.table k origNr w) []
  else .of (ksuHandleStatSucompat k b.boot b.driver (b.table k origNr) w) []

/-- `ksu_hook_faccessat`. -/
def ksuHookFaccessat (origNr : ℤ) (w : World σ φ) : Outcome σ φ :=
  if !b.driver.features.suCompatEnabled then .of (b.table k origNr w) []
  else .of (ksuHandleFaccessatSucompat k b.boot b.driver (b.table k origNr) w) []

/-- What `ksu_hook_execve` does first. -/
def beforeExecve (w : World σ φ) : List HookCall :=
  (if b.ksudExecveKey then [.ksuExecveHookKsud] else []) ++
    if w.task.cred.euid = 0 then [.sulogCaptureRootExecve w.regs.parm1 w.regs.parm2] else []

/-- What it does last: the event it has captured is sent. -/
def afterExecve (w : World σ φ) (ret : ℤ) : List HookCall :=
  if w.task.cred.euid = 0 then [.sulogEmitPending ret] else []

/-- `current->pid != 1 && current_is_init`. -/
def execvesForInit (w : World σ φ) : Bool := w.pid ≠ 1 && k.isInit w.task.cred.sid

/-- `ksu_hook_execve`. -/
def ksuHookExecve (origNr : ℤ) (w : World σ φ) : Outcome σ φ :=
  if execvesForInit k w then
    let r := b.table k origNr (k.adbRootHandleExecve (ksuHandleInitMarkTracker k w))
    .of r (b.beforeExecve w ++ afterExecve w r.1)
  else if b.driver.features.suCompatEnabled then
    let r := ksuHandleExecveSucompat k b.boot b.driver (b.table k origNr) (b.table k b.nr.execveat) w
    { r with calls := b.beforeExecve w ++ r.calls ++ afterExecve w r.ret }
  else
    let r := b.table k origNr w
    .of r (b.beforeExecve w ++ afterExecve w r.1)

/-- `ksu_hook_setresuid`. -/
def ksuHookSetresuid (origNr : ℤ) (w : World σ φ) : Outcome σ φ :=
  let r := b.table k origNr w
  .of (r.1, afterSetresuid k b.boot b.driver r.1 r.2) []

/-- The file is `init.rc`, and `init` asks for it. -/
def fgetInitRc (w : World σ φ) : Option φ := w.fget.filter (isInitRc k w)

/-- `ksu_sys_read`.  The first read of `init.rc` loads the modules' part of it, takes the two hooks out of the table, and
has the proxies stand in for the file's own operations. -/
def ksuSysRead (w : World σ φ) : Outcome σ φ :=
  match fgetInitRc k w with
  | some file =>
    if b.rcHooked then .of (callKernel k b.origSysRead w) []
    else
      .of (callKernel k b.origSysRead (w.setFile w.regs.parm1.toUInt32.toNat (some (k.fopsProxy file))))
        [.ksuInstallRcHook]
  | none => .of (callKernel k b.origSysRead w) []

/-- `ksu_sys_fstat`. -/
def ksuSysFstat (w : World σ φ) : Outcome σ φ :=
  let r := callKernel k b.origSysFstat w
  match fgetInitRc k w with
  | some _ => .of (r.1, { r.2 with mem := addRcLen b.rcLen w.regs.parm2 r.2.mem }) [.loadModuleRcOnce]
  | none => .of r []

/-- A function of the module is called, for the number in the registers. -/
def runHook (fn : Routine κ) (origNr : ℤ) (w : World σ φ) : Outcome σ φ :=
  match fn with
  | .ksuHookSetresuid => b.ksuHookSetresuid k origNr w
  | .ksuHookExecve => b.ksuHookExecve k origNr w
  | .ksuHookNewfstatat => b.ksuHookNewfstatat k origNr w
  | .ksuHookFaccessat => b.ksuHookFaccessat k origNr w
  | .ksuSysRead => b.ksuSysRead k w
  | .ksuSysFstat => b.ksuSysFstat k w
  | _ => ⟨ENOSYS.val, w, []⟩

/-- `ksu_syscall_dispatcher`. -/
def ksuSyscallDispatcher (w : World σ φ) : Outcome σ φ :=
  if w.regs.syscallno ≠ b.hooks.dispatcherNr then ⟨ENOSYS.val, w, []⟩
  else
    let origNr := w.regs.origSyscall
    if w.regs.syscallno = origNr then ⟨ENOSYS.val, w, []⟩
    else
      let w := { w with regs := { w.regs with syscallno := origNr } }
      match (slot? size origNr).bind b.hooks.syscallHooks with
      | some fn => b.runHook k fn origNr w
      | none => ⟨ENOSYS.val, w, []⟩

end Bridge

end KernelSU.Hook
