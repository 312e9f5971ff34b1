import KernelSU.Lib.Errno
import KernelSU.Lib.Runs

/-!
# `kernel/feature/selinux_hide.c`: hiding from SELinux queries

The feature patches four function pointers of the kernel: two entries of `write_op`, the open operation of
`sel_handle_status_ops` and the `setprocattr` slot of the security hooks (through `kernel/hook/lsm_hook.c`).
`ksu_patch_text` succeeds.

An error that a function returns is `some` error number.  Which symbols the kernel has, whether there is a backup policy and whether the tracking table has room may differ
from call to call and are arguments.
-/

namespace KernelSU.Feature

open KernelSU.Lib Errno

/-- A function pointer: null, a function of the kernel or one of this module. -/
inductive Fn
  | null
  | kernel (address : ℕ)
  | myWriteContext
  | myWriteAccess
  | mySelOpenHandleStatus
  | mySetprocattr
  deriving DecidableEq, Repr

/-- The patched slots of the kernel and the variables of the module. -/
structure SelinuxHide where
  /-- `write_op[SEL_CONTEXT]`, `write_op[SEL_ACCESS]`, `sel_handle_status_ops.open` and the slot of
  `selinux_setprocattr`. -/
  contextWrite : Fn
  accessWrite : Fn
  selOpenHandleStatus : Fn
  setprocattr : Fn
  origContextWrite : Fn
  origAccessWrite : Fn
  origSelOpenHandleStatus : Fn
  /-- Whether `sel_open_handle_status_slot` has been found. -/
  selOpenHandleStatusSlot : Bool
  /-- `entry` and `original` of `selinux_setprocattr_hook`. -/
  hookEntry : Bool
  hookOriginal : Fn
  enabled : Bool
  running : Bool
  deriving DecidableEq, Repr

/-- What a call finds. -/
structure Found where
  backupSepolicy : Bool
  writeOp : Bool
  selHandleStatusOps : Bool
  /-- What `selinux_setprocattr` resolves to. -/
  selinuxSetprocattr : Fn
  securityHooks : Bool
  trackingRoom : Bool
  deriving DecidableEq, Repr

/-! ### `hook/lsm_hook.c` -/

/-- `ksu_lsm_hook` on `selinux_setprocattr_hook`. -/
def ksuLsmHook (found : Found) (s : SelinuxHide) : Option Errno × SelinuxHide :=
  let target := if s.hookOriginal = .null then found.selinuxSetprocattr else s.hookOriginal
  if s.hookEntry then (some EALREADY, s)
  else if target = .null then (some ENOENT, s)
  else if !found.securityHooks then (some ENOENT, s)
  else if s.setprocattr = .mySetprocattr then (some EALREADY, s)
  else if s.setprocattr ≠ target then (some ENOENT, s)
  else if !found.trackingRoom then (some ENOSPC, s)
  else (none, { s with setprocattr := .mySetprocattr, hookEntry := true, hookOriginal := s.setprocattr })

/-- `ksu_lsm_unhook`. -/
def ksuLsmUnhook (s : SelinuxHide) : SelinuxHide :=
  if !s.hookEntry then s else { s with setprocattr := s.hookOriginal, hookEntry := false }

/-! ### `feature/selinux_hide.c` -/

/-- `hook_selinux_status_open`. -/
def hookSelinuxStatusOpen (selHandleStatusOps : Bool) (s : SelinuxHide) : SelinuxHide :=
  if s.origSelOpenHandleStatus ≠ .null then s
  else if !s.selOpenHandleStatusSlot && !selHandleStatusOps then s
  else
    { s with
      selOpenHandleStatusSlot := true
      origSelOpenHandleStatus := s.selOpenHandleStatus
      selOpenHandleStatus := .mySelOpenHandleStatus }

/-- The first part of `ksu_selinux_hide_unhook`. -/
def restoreContextWrite (s : SelinuxHide) : SelinuxHide :=
  if s.origContextWrite = .null then s
  else { s with contextWrite := s.origContextWrite, origContextWrite := .null }

def restoreAccessWrite (s : SelinuxHide) : SelinuxHide :=
  if s.origAccessWrite = .null then s
  else { s with accessWrite := s.origAccessWrite, origAccessWrite := .null }

def restoreSelinuxStatusOpen (s : SelinuxHide) : SelinuxHide :=
  if s.selOpenHandleStatusSlot && s.origSelOpenHandleStatus ≠ .null then
    { s with selOpenHandleStatus := s.origSelOpenHandleStatus, origSelOpenHandleStatus := .null }
  else s

/-- `ksu_selinux_hide_unhook`, which `ksu_selinux_hide_disable` calls. -/
def ksuSelinuxHideUnhook (s : SelinuxHide) : SelinuxHide :=
  ksuLsmUnhook (restoreSelinuxStatusOpen (restoreAccessWrite (restoreContextWrite s)))

/-- The two patches of `write_op`. -/
def patchWriteOp (s : SelinuxHide) : SelinuxHide :=
  { s with
    origContextWrite := s.contextWrite
    contextWrite := .myWriteContext
    origAccessWrite := s.accessWrite
    accessWrite := .myWriteAccess }

/-- `ksu_selinux_hide_enable`. -/
def ksuSelinuxHideEnable (found : Found) (s : SelinuxHide) : Option Errno × SelinuxHide :=
  if !found.backupSepolicy then (some EAGAIN, s)
  else if !found.writeOp then (some ENOSYS, s)
  else
    let (ret, s) := ksuLsmHook found (patchWriteOp (hookSelinuxStatusOpen found.selHandleStatusOps s))
    if ret.isSome then (some ENOSYS, ksuSelinuxHideUnhook s) else (none, s)

/-- `selinux_hide_feature_set`. -/
def selinuxHideFeatureSet (found : Found) (value : ℕ) (s : SelinuxHide) : Option Errno × SelinuxHide :=
  let s := { s with enabled := value ≠ 0 }
  if value ≠ 0 then
    if s.running then (none, s)
    else
      let (ret, s) := ksuSelinuxHideEnable found s
      if ret.isNone then (ret, { s with running := true }) else (ret, s)
  else if s.running then (none, { ksuSelinuxHideUnhook s with running := false })
  else (none, s)

/-- `ksu_selinux_hide_init`. -/
def ksuSelinuxHideInit (selHandleStatusOps : Bool) (s : SelinuxHide) : SelinuxHide :=
  hookSelinuxStatusOpen selHandleStatusOps s

/-- `ksu_selinux_hide_exit`. -/
def ksuSelinuxHideExit (s : SelinuxHide) : SelinuxHide :=
  if s.running then { ksuSelinuxHideUnhook s with running := false } else s

/-! ### Runs -/

/-- The kernel's functions in the four slots. -/
structure Stock where
  contextWrite : ℕ
  accessWrite : ℕ
  selOpenHandleStatus : ℕ
  setprocattr : ℕ

/-- The module when it is loaded: nothing is patched. -/
def Stock.loaded (stock : Stock) : SelinuxHide where
  contextWrite := .kernel stock.contextWrite
  accessWrite := .kernel stock.accessWrite
  selOpenHandleStatus := .kernel stock.selOpenHandleStatus
  setprocattr := .kernel stock.setprocattr
  origContextWrite := .null
  origAccessWrite := .null
  origSelOpenHandleStatus := .null
  selOpenHandleStatusSlot := false
  hookEntry := false
  hookOriginal := .null
  enabled := false
  running := false

/-- A call of `selinux_hide_feature_set`. -/
structure SetCall where
  value : ℕ
  found : Found
  deriving DecidableEq, Repr

/-- The module from `ksu_selinux_hide_init` on; each step is a call, with what it returned as the label. -/
def hideMachine (stock : Stock) (selHandleStatusOps : Bool) : Machine SelinuxHide SetCall (SetCall × Option Errno) where
  init := ksuSelinuxHideInit selHandleStatusOps stock.loaded
  step s call :=
    let r := selinuxHideFeatureSet call.found call.value s
    some (r.2, call, r.1)

end KernelSU.Feature
