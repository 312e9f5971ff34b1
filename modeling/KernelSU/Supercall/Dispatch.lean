import KernelSU.Feature.FeatureHandlers
import KernelSU.Policy.EscapeRoot
import KernelSU.Policy.RootGrant
import KernelSU.Supercall.MountList

/-!
# `kernel/supercall/dispatch.c`: the requests of the driver

A process that holds the driver's file asks with `ioctl`.  `ksuSupercallHandleIoctl` looks the number up in
`ksuIoctlHandlers`, asks the permission check of the entry, and calls its handler.  No lock is held in between, so that
the handler may find the driver changed.

The driver's state is what the handlers keep in variables of the kernel.  What they ask other subsystems for is told by
`KernelCall`s and answered by `Answers`.  The build is the one with policies and a manager; log messages are left out.
-/

namespace KernelSU.Supercall

open KernelSU.Lib KernelSU.Lib.Bytes KernelSU.Lib.Errno KernelSU.Sulog KernelSU.Infra KernelSU.Policy KernelSU.Feature

/-! ### State -/

/-- What is fixed when the kernel has started. -/
structure Boot where
  hash : UInt32 → Fin 256
  version : UInt32
  allowShell : Bool
  lateLoaded : Bool
  isModule : Bool
  prBuild : Bool
  sulogEvents : Bool

/-- What decides about safe mode: how often volume-down was pressed while the input hook was there. -/
structure SafeMode where
  /-- `safe_mode` of `ksu_is_safe_mode` -/
  detected : Bool
  volumedownPressedCount : UInt32
  inputHookStopped : Bool
  /-- `input_event_kp` is registered. -/
  inputHook : Bool
  deriving DecidableEq

/-- The variables behind the requests. -/
structure Driver where
  allowlist : AllowlistState
  managerAppid : UInt32
  features : KernelFeatures
  mountList : List MountEntry
  /-- `post_fs_data_lock` and `boot_complete_lock` of `do_report_event`. -/
  postFsDataLock : Bool
  bootCompleteLock : Bool
  /-- `done` of `on_post_fs_data`. -/
  postFsDataDone : Bool
  moduleMounted : Bool
  bootCompleted : Bool
  safeMode : SafeMode

/-- The driver after `kernelsu_init`. -/
def Driver.init (features : KernelFeatures) : Driver where
  allowlist := .init
  managerAppid := KSU_INVALID_APPID
  features := features
  mountList := []
  postFsDataLock := false
  bootCompleteLock := false
  postFsDataDone := false
  moduleMounted := false
  bootCompleted := false
  safeMode := ⟨false, 0, false, false⟩

/-- The process that asks. -/
structure Caller where
  task : EscapeTask
  /-- `is_ksu_domain()`. -/
  ksuDomain : Bool

/-- What a request finds in other subsystems. -/
structure Answers where
  escape : Escape
  /-- what the variable `supported` of `do_get_feature` holds -/
  stack : Bool
  kmalloc : Bool
  kstrdup : Bool
  found : Found
  /-- the string that a pointer in the argument points at -/
  string : UserStr
  allowlistFile : Option (List UInt8)
  load : AllowlistState.LoadEnv
  ksuFileSid : Bool
  handleSepolicy : ℤ
  installFileWrapper : ℤ
  getTaskMark : ℤ
  setTaskMark : ℤ
  nukeExt4Sysfs : ℤ
  installSulogFd : ℤ
  /-- the caller's session is that of `init` -/
  initSession : Bool

/-- What a request has other subsystems do. -/
inductive KernelCall
  | sulogEmitGrantRoot (ret : ℤ) (uid euid : UInt32)
  | loadAllowList
  | observerInit
  /-- `schedule_work` for `do_stop_input_hook`. -/
  | scheduleStopInputHook
  | selinuxHideHandlePostFsData
  | trackThrone (pruneOnly : Bool)
  | selinuxHideDropBackupIfUnused
  | handleSepolicy (data len : ℕ)
  | persistentAllowList
  | markRunningProcess
  | markAllProcess
  | unmarkAllProcess
  | getTaskMark (pid : ℕ)
  | setTaskMark (pid : ℕ) (mark : Bool)
  | installFileWrapper (fd : ℕ)
  | nukeExt4Sysfs (mnt : List UInt8)
  | setInitPgrp
  | installSulogFd
  deriving DecidableEq

/-- A request, and the driver as it finds it. -/
structure Ctx where
  boot : Boot
  answers : Answers
  caller : Caller
  mem : UserMem
  driver : Driver

/-- The same request to another driver. -/
def Ctx.at (c : Ctx) (d : Driver) : Ctx := { c with driver := d }

/-- A request after it was handled: what it returns, and what it leaves. -/
structure Reply where
  ret : ℤ
  mem : UserMem
  task : EscapeTask
  calls : List KernelCall
  driver : Driver

namespace Ctx

variable (c : Ctx)

/-- `current_uid().val`. -/
def uid : UInt32 := c.caller.task.cred.uid

/-- The request ends with a number and nothing else. -/
def done (ret : ℤ) : Reply := ⟨ret, c.mem, c.caller.task, [], c.driver⟩

/-- The request has other subsystems do something. -/
def calling (calls : List KernelCall) (ret : ℤ) : Reply := ⟨ret, c.mem, c.caller.task, calls, c.driver⟩

/-- The request changes the driver. -/
def leaving (driver : Driver) (calls : List KernelCall) (ret : ℤ) : Reply :=
  ⟨ret, c.mem, c.caller.task, calls, driver⟩

/-- `copy_to_user`, and what follows where it succeeds. -/
def copyOut (o : ℕ) (bs : List UInt8) (calls : List KernelCall) (next : UserMem → Reply) : Reply :=
  if (c.mem.copyToUser o bs).1 then next (c.mem.copyToUser o bs).2
  else ⟨EFAULT.val, (c.mem.copyToUser o bs).2, c.caller.task, calls, c.driver⟩

/-- A handler that ends with a copy to the user. -/
def replyWith (o : ℕ) (bs : List UInt8) (calls : List KernelCall) : Reply :=
  c.copyOut o bs calls fun mem => ⟨0, mem, c.caller.task, calls, c.driver⟩

/-- `copy_from_user` of the argument, and what follows where it succeeds. -/
def withArg (o n : ℕ) (next : List UInt8 → Reply) : Reply :=
  match c.mem.copyFromUser o n with
  | none => c.done EFAULT.val
  | some cmd => next cmd

/-! ### Who asks -/

/-- `is_manager`. -/
def isManager : Bool := isUidManager c.driver.managerAppid c.uid

/-- `ksu_is_allow_uid_for_current`. -/
def isAllowUidForCurrent (uid : UInt32) : Bool :=
  if uid = 0 then c.caller.ksuDomain
  else c.driver.allowlist.isAllowUid c.boot.hash c.driver.managerAppid c.boot.allowShell uid

def onlyManager : Bool := c.isManager

def onlyRoot : Bool := c.uid = 0

def managerOrRoot : Bool := c.uid = 0 || c.isManager

def alwaysAllow (_ : Ctx) : Bool := true

def allowedForSu : Bool := c.isManager || c.isAllowUidForCurrent c.uid

end Ctx

/-! ### `ksu_get_root_profile` -/

/-- `default_root_profile`. -/
def defaultRootProfile : AppProfile.RootProfile where
  uid := 0
  gid := 0
  groupsCount := 1
  groups := List.replicate KSU_MAX_GROUPS 0
  capEffective := 2 ^ 41 - 1
  capPermitted := 0
  capInheritable := 0
  selinuxDomain := KSU_DEFAULT_SELINUX_DOMAIN ++
    List.replicate (KSU_SELINUX_DOMAIN - KSU_DEFAULT_SELINUX_DOMAIN.length) 0
  namespaces := 0
  flags := 0

/-- `ksu_get_root_profile`. -/
def getRootProfile (boot : Boot) (d : Driver) (uid : UInt32) : AppProfile.RootProfile :=
  if isUidManager d.managerAppid uid then defaultRootProfile
  else if boot.allowShell && uid = SHELL_UID then defaultRootProfile
  else match (d.allowlist.allowList (boot.hash uid)).find? fun p => uid = p.currUid && p.allowSu with
  | none => defaultRootProfile
  | some p => if p.rpUseDefault then defaultRootProfile else p.rootProfile

/-! ### Handlers -/

section Handlers

variable (c : Ctx)

def doGrantRoot : Reply :=
  let r := escapeWithRootProfile { c.answers.escape with ksuGetRootProfile := getRootProfile c.boot c.driver }
    c.caller.task
  ⟨r.ret, c.mem, r.task, [.sulogEmitGrantRoot r.ret c.uid c.caller.task.cred.euid], c.driver⟩

def KSU_GET_INFO_FLAG_LKM : ℕ := 1
def KSU_GET_INFO_FLAG_MANAGER : ℕ := 2
def KSU_GET_INFO_FLAG_LATE_LOAD : ℕ := 4
def KSU_GET_INFO_FLAG_PR_BUILD : ℕ := 8
def KERNEL_SU_UAPI_VERSION : ℕ := 2

/-- The members that both requests for information fill in. -/
def infoBytes : List UInt8 :=
  encodeLE 4 c.boot.version.toNat ++
    encodeLE 4 ((if c.boot.isModule then KSU_GET_INFO_FLAG_LKM else 0) |||
      (if c.isManager then KSU_GET_INFO_FLAG_MANAGER else 0) |||
      (if c.boot.lateLoaded then KSU_GET_INFO_FLAG_LATE_LOAD else 0) |||
      (if c.boot.prBuild then KSU_GET_INFO_FLAG_PR_BUILD else 0)) ++
    encodeLE 4 KSU_FEATURE_MAX.toNat

def doGetInfo : Reply := c.replyWith 0 (infoBytes c ++ encodeLE 4 KERNEL_SU_UAPI_VERSION) []

def doGetInfoLegacy : Reply := c.replyWith 0 (infoBytes c) []

/-- `ksu_stop_input_hook_runtime`. -/
def ksuStopInputHookRuntime (s : SafeMode) : SafeMode × List KernelCall :=
  if s.inputHookStopped then (s, []) else ({ s with inputHookStopped := true }, [.scheduleStopInputHook])

def isVolumedownEnough (count : UInt32) : Bool := 3 ≤ count

/-- `ksu_is_safe_mode`. -/
def ksuIsSafeMode (boot : Boot) (s : SafeMode) : Bool × SafeMode × List KernelCall :=
  if s.detected then (true, s, [])
  else if boot.lateLoaded then (false, s, [])
  else
    -- the hook is stopped first
    let stopped := ksuStopInputHookRuntime s
    if isVolumedownEnough stopped.1.volumedownPressedCount then
      (true, { stopped.1 with detected := true }, stopped.2)
    else (false, stopped)

def EV_KEY : UInt32 := 1
def KEY_VOLUMEDOWN : UInt32 := 114

/-- `ksu_handle_input_handle_event`. -/
def ksuHandleInputHandleEvent (type code : UInt32) (value : ℤ) (s : SafeMode) : SafeMode × List KernelCall :=
  if type = EV_KEY ∧ code = KEY_VOLUMEDOWN ∧ value ≠ 0 then
    let pressed := { s with volumedownPressedCount := s.volumedownPressedCount + 1 }
    if isVolumedownEnough pressed.volumedownPressedCount then ksuStopInputHookRuntime pressed else (pressed, [])
  else (s, [])

/-- `on_post_fs_data`. -/
def onPostFsData (boot : Boot) (answers : Answers) (d : Driver) : Driver × List KernelCall :=
  if d.postFsDataDone then (d, [])
  else
    let stopped := ksuStopInputHookRuntime d.safeMode
    ({ d with
        postFsDataDone := true
        allowlist := (AllowlistState.loadAllowList boot.hash answers.allowlistFile answers.load d.allowlist).1
        safeMode := stopped.1 },
      [.loadAllowList, .observerInit] ++ stopped.2 ++ [.selinuxHideHandlePostFsData])

/-- `on_boot_completed`. -/
def onBootCompleted (d : Driver) : Driver × List KernelCall :=
  ({ d with bootCompleted := true }, [.trackThrone true, .selinuxHideDropBackupIfUnused])

/-- `on_module_mounted`. -/
def onModuleMounted (d : Driver) : Driver := { d with moduleMounted := true }

def EVENT_POST_FS_DATA : ℕ := 1
def EVENT_BOOT_COMPLETED : ℕ := 2
def EVENT_MODULE_MOUNTED : ℕ := 3

/-- What an event does. -/
def reportedEvent (boot : Boot) (answers : Answers) (event : ℕ) (d : Driver) : Driver × List KernelCall :=
  if event = EVENT_POST_FS_DATA then
    if d.postFsDataLock then (d, [])
    else if boot.lateLoaded then ({ d with postFsDataLock := true }, [])
    else onPostFsData boot answers { d with postFsDataLock := true }
  else if event = EVENT_BOOT_COMPLETED then
    if d.bootCompleteLock then (d, [])
    else if boot.lateLoaded then ({ d with bootCompleteLock := true }, [])
    else onBootCompleted { d with bootCompleteLock := true }
  else if event = EVENT_MODULE_MOUNTED then (onModuleMounted d, [])
  else (d, [])

def doReportEvent : Reply := c.withArg 0 4 fun cmd =>
  let r := reportedEvent c.boot c.answers (decodeLE cmd) c.driver
  c.leaving r.1 r.2 0

def doSetSepolicy : Reply := c.withArg 0 16 fun cmd =>
  c.calling [.handleSepolicy (decodeLE (slice cmd 8 8)) (decodeLE (slice cmd 0 8))] c.answers.handleSepolicy

/-- A `__u8` that holds a `bool`. -/
def boolByte (b : Bool) : UInt8 := if b then 1 else 0

def doCheckSafemode : Reply :=
  let r := ksuIsSafeMode c.boot c.driver.safeMode
  (c.at { c.driver with safeMode := r.2.1 }).replyWith 0 [boolByte r.1] r.2.2

/-- The copy of an array of uids. -/
def uidBytes (uids : List UInt32) : List UInt8 := uids.flatMap fun uid => encodeLE 4 uid.toNat

def doNewGetAllowListCommon (allow : Bool) : Reply := c.withArg 0 4 fun cmd =>
  let count := UInt16.ofNat (decodeLE (slice cmd 0 2))
  if count ≠ 0 ∧ c.answers.kmalloc = false then c.done ENOMEM.val
  else
    let scan := c.driver.allowlist.getAllowList c.driver.managerAppid count allow
    c.copyOut 0 (encodeLE 2 scan.j.toNat ++ encodeLE 2 scan.i.toNat) [] fun mem =>
      if scan.j ≠ 0 then Ctx.replyWith { c with mem := mem } 4 (uidBytes scan.array) []
      else ⟨0, mem, c.caller.task, [], c.driver⟩

def doNewGetDenyList : Reply := doNewGetAllowListCommon c false
def doNewGetAllowList : Reply := doNewGetAllowListCommon c true

def doGetAllowListCommon (allow : Bool) : Reply :=
  if c.answers.kmalloc = false then c.done ENOMEM.val
  else
    let scan := c.driver.allowlist.getAllowList c.driver.managerAppid 128 allow
    c.copyOut 512 (encodeLE 4 scan.j.toNat) [] fun mem =>
      Ctx.replyWith { c with mem := mem } 0 (uidBytes scan.array) []

def doGetDenyList : Reply := doGetAllowListCommon c false
def doGetAllowList : Reply := doGetAllowListCommon c true

/-- The two requests about a uid: the answer is the fifth byte of the argument. -/
def answerAboutUid (answer : UInt32 → Bool) : Reply := c.withArg 0 8 fun cmd =>
  c.replyWith 0 (cmd.set 4 (boolByte (answer (UInt32.ofNat (decodeLE (slice cmd 0 4)))))) []

def doUidGrantedRoot : Reply := answerAboutUid c c.isAllowUidForCurrent

def doUidShouldUmount : Reply :=
  answerAboutUid c (c.driver.allowlist.uidShouldUmount c.boot.hash c.driver.managerAppid)

def doGetManagerAppid : Reply := c.replyWith 0 (encodeLE 4 c.driver.managerAppid.toNat) []

def doGetAppProfile : Reply := c.withArg 260 4 fun cmd =>
  match c.driver.allowlist.getAppProfile c.boot.hash (UInt32.ofNat (decodeLE cmd)) with
  | none => c.done ENOENT.val
  | some profile => c.replyWith 0 profile.bytes []

/-- The profile in the argument. -/
def profileArg (cmd : List UInt8) : Option AppProfile := if h : cmd.length = 784 then some ⟨cmd, h⟩ else none

def doSetAppProfile : Reply := c.withArg 0 784 fun cmd =>
  let r := c.driver.allowlist.setAppProfile c.boot.hash (profileArg cmd) c.answers.kmalloc
  match r.2 with
  | .error e => c.done e.val
  | .ok () => c.leaving { c.driver with allowlist := r.1 } [.persistentAllowList, .markRunningProcess] 0

/-- What is returned for an error number or none. -/
def errnoVal (e : Option Errno) : ℤ := e.elim 0 Errno.val

def doGetFeature : Reply := c.withArg 0 24 fun cmd =>
  let got := Policy.doGetFeature (registered c.boot.sulogEvents) c.answers.stack
    (some ⟨UInt32.ofNat (decodeLE (slice cmd 0 4)), UInt64.ofNat (decodeLE (slice cmd 8 8)), 0⟩) true c.driver.features
  match got.2 with
  | none => c.done (errnoVal got.1)
  | some out => c.replyWith 0 ((patch cmd 8 (encodeLE 8 out.value.toNat)).set 16 out.supported) []

def doSetFeature : Reply := c.withArg 0 16 fun cmd =>
  let r := Policy.doSetFeature (registered c.boot.sulogEvents) c.answers.found
    (some ⟨UInt32.ofNat (decodeLE (slice cmd 0 4)), UInt64.ofNat (decodeLE (slice cmd 8 8))⟩) c.driver.features
  c.leaving { c.driver with features := r.2 } [] (errnoVal r.1)

def doGetWrapperFd : Reply :=
  if c.answers.ksuFileSid = false then c.done EINVAL.val
  else c.withArg 0 8 fun cmd =>
    c.calling [.installFileWrapper (decodeLE (slice cmd 0 4))] c.answers.installFileWrapper

def KSU_MARK_GET : ℕ := 1
def KSU_MARK_MARK : ℕ := 2
def KSU_MARK_UNMARK : ℕ := 3
def KSU_MARK_REFRESH : ℕ := 4

/-- A mark is set or cleared, on one process or on all. -/
def manageMark (cmd : List UInt8) (pid : ℕ) (mark : Bool) : Reply :=
  if pid = 0 then c.replyWith 0 cmd [if mark then .markAllProcess else .unmarkAllProcess]
  else if c.answers.setTaskMark < 0 then c.calling [.setTaskMark pid mark] c.answers.setTaskMark
  else c.replyWith 0 cmd [.setTaskMark pid mark]

def doManageMark : Reply := c.withArg 0 12 fun cmd =>
  let operation := decodeLE (slice cmd 0 4)
  let pid := decodeLE (slice cmd 4 4)
  if operation = KSU_MARK_GET then
    if c.answers.getTaskMark < 0 then c.calling [.getTaskMark pid] c.answers.getTaskMark
    else c.replyWith 0 (patch cmd 8 (encodeLE 4 c.answers.getTaskMark.toNat)) [.getTaskMark pid]
  else if operation = KSU_MARK_MARK then manageMark c cmd pid true
  else if operation = KSU_MARK_UNMARK then manageMark c cmd pid false
  else if operation = KSU_MARK_REFRESH then c.replyWith 0 cmd [.markRunningProcess]
  else c.done EINVAL.val

def doNukeExt4Sysfs : Reply := c.withArg 0 8 fun cmd =>
  if decodeLE cmd = 0 then c.done EINVAL.val
  else
    let copied := strncpyFromUser c.answers.string 256
    if copied.1 < 0 then c.done EFAULT.val
    else if copied.1 = 256 then c.done ENAMETOOLONG.val
    else c.calling [.nukeExt4Sysfs (cString (bufferAfter 256 copied.2))] c.answers.nukeExt4Sysfs

/-- The request in the argument of `add_try_umount`. -/
def umountRequest (cmd : List UInt8) : UmountRequest where
  string := c.answers.string
  flags := UInt32.ofNat (decodeLE (slice cmd 8 4))
  mode := UInt8.ofNat (decodeLE (slice cmd 12 1))
  kzalloc := c.answers.kmalloc
  kstrdup := c.answers.kstrdup

def doAddTryUmount : Reply := c.withArg 0 16 fun cmd =>
  let r := addTryUmount (umountRequest c cmd) c.driver.mountList
  c.leaving { c.driver with mountList := r.2 } [] (errnoVal r.1)

def doSetInitPgrp : Reply :=
  if c.answers.initSession = false then c.done EPERM.val else c.calling [.setInitPgrp] 0

def doGetSulogFd : Reply := c.withArg 0 4 fun cmd =>
  if decodeLE cmd ≠ 0 then c.done EINVAL.val else c.calling [.installSulogFd] c.answers.installSulogFd

def doDisableEscapeToRoot : Reply := ⟨0, c.mem, { c.caller.task with disableEscape := true }, [], c.driver⟩

end Handlers

/-! ### The table -/

def IOC_NONE : ℕ := 0
def IOC_WRITE : ℕ := 1
def IOC_READ : ℕ := 2

/-- `_IOC` with type `'K'`. -/
def ioc (dir nr size : ℕ) : UInt32 := UInt32.ofNat (dir <<< 30 ||| size <<< 16 ||| 0x4b <<< 8 ||| nr)

def KSU_IOCTL_GRANT_ROOT : UInt32 := ioc IOC_NONE 1 0
def KSU_IOCTL_GET_INFO : UInt32 := ioc IOC_READ 2 16
def KSU_IOCTL_GET_INFO_LEGACY : UInt32 := ioc IOC_READ 2 0
def KSU_IOCTL_REPORT_EVENT : UInt32 := ioc IOC_WRITE 3 0
def KSU_IOCTL_SET_SEPOLICY : UInt32 := ioc (IOC_READ ||| IOC_WRITE) 4 0
def KSU_IOCTL_CHECK_SAFEMODE : UInt32 := ioc IOC_READ 5 0
def KSU_IOCTL_GET_ALLOW_LIST : UInt32 := ioc (IOC_READ ||| IOC_WRITE) 6 0
def KSU_IOCTL_GET_DENY_LIST : UInt32 := ioc (IOC_READ ||| IOC_WRITE) 7 0
def KSU_IOCTL_NEW_GET_ALLOW_LIST : UInt32 := ioc (IOC_READ ||| IOC_WRITE) 6 4
def KSU_IOCTL_NEW_GET_DENY_LIST : UInt32 := ioc (IOC_READ ||| IOC_WRITE) 7 4
def KSU_IOCTL_UID_GRANTED_ROOT : UInt32 := ioc (IOC_READ ||| IOC_WRITE) 8 0
def KSU_IOCTL_UID_SHOULD_UMOUNT : UInt32 := ioc (IOC_READ ||| IOC_WRITE) 9 0
def KSU_IOCTL_GET_MANAGER_APPID : UInt32 := ioc IOC_READ 10 0
def KSU_IOCTL_GET_APP_PROFILE : UInt32 := ioc (IOC_READ ||| IOC_WRITE) 11 0
def KSU_IOCTL_SET_APP_PROFILE : UInt32 := ioc IOC_WRITE 12 0
def KSU_IOCTL_GET_FEATURE : UInt32 := ioc (IOC_READ ||| IOC_WRITE) 13 0
def KSU_IOCTL_SET_FEATURE : UInt32 := ioc IOC_WRITE 14 0
def KSU_IOCTL_GET_WRAPPER_FD : UInt32 := ioc IOC_WRITE 15 0
def KSU_IOCTL_MANAGE_MARK : UInt32 := ioc (IOC_READ ||| IOC_WRITE) 16 0
def KSU_IOCTL_NUKE_EXT4_SYSFS : UInt32 := ioc IOC_WRITE 17 0
def KSU_IOCTL_ADD_TRY_UMOUNT : UInt32 := ioc IOC_WRITE 18 0
def KSU_IOCTL_SET_INIT_PGRP : UInt32 := ioc IOC_NONE 19 0
def KSU_IOCTL_GET_SULOG_FD : UInt32 := ioc IOC_WRITE 20 4
def KSU_IOCTL_DISABLE_ESCAPE_TO_ROOT : UInt32 := ioc IOC_NONE 21 0

/-- `struct ksu_ioctl_cmd_map`, without the name, which is only logged. -/
structure IoctlCmdMap where
  cmd : UInt32
  handler : Ctx → Reply
  permCheck : Ctx → Bool

def ksuIoctlHandlers : List IoctlCmdMap := [
  ⟨KSU_IOCTL_GRANT_ROOT, doGrantRoot, Ctx.allowedForSu⟩,
  ⟨KSU_IOCTL_GET_INFO, doGetInfo, Ctx.alwaysAllow⟩,
  ⟨KSU_IOCTL_GET_INFO_LEGACY, doGetInfoLegacy, Ctx.alwaysAllow⟩,
  ⟨KSU_IOCTL_REPORT_EVENT, doReportEvent, Ctx.onlyRoot⟩,
  ⟨KSU_IOCTL_SET_SEPOLICY, doSetSepolicy, Ctx.onlyRoot⟩,
  ⟨KSU_IOCTL_CHECK_SAFEMODE, doCheckSafemode, Ctx.alwaysAllow⟩,
  ⟨KSU_IOCTL_GET_ALLOW_LIST, doGetAllowList, Ctx.managerOrRoot⟩,
  ⟨KSU_IOCTL_GET_DENY_LIST, doGetDenyList, Ctx.managerOrRoot⟩,
  ⟨KSU_IOCTL_NEW_GET_ALLOW_LIST, doNewGetAllowList, Ctx.managerOrRoot⟩,
  ⟨KSU_IOCTL_NEW_GET_DENY_LIST, doNewGetDenyList, Ctx.managerOrRoot⟩,
  ⟨KSU_IOCTL_UID_GRANTED_ROOT, doUidGrantedRoot, Ctx.managerOrRoot⟩,
  ⟨KSU_IOCTL_UID_SHOULD_UMOUNT, doUidShouldUmount, Ctx.managerOrRoot⟩,
  ⟨KSU_IOCTL_GET_MANAGER_APPID, doGetManagerAppid, Ctx.managerOrRoot⟩,
  ⟨KSU_IOCTL_GET_APP_PROFILE, doGetAppProfile, Ctx.onlyManager⟩,
  ⟨KSU_IOCTL_SET_APP_PROFILE, doSetAppProfile, Ctx.onlyManager⟩,
  ⟨KSU_IOCTL_GET_FEATURE, doGetFeature, Ctx.managerOrRoot⟩,
  ⟨KSU_IOCTL_SET_FEATURE, doSetFeature, Ctx.managerOrRoot⟩,
  ⟨KSU_IOCTL_GET_WRAPPER_FD, doGetWrapperFd, Ctx.managerOrRoot⟩,
  ⟨KSU_IOCTL_MANAGE_MARK, doManageMark, Ctx.managerOrRoot⟩,
  ⟨KSU_IOCTL_NUKE_EXT4_SYSFS, doNukeExt4Sysfs, Ctx.managerOrRoot⟩,
  ⟨KSU_IOCTL_ADD_TRY_UMOUNT, doAddTryUmount, Ctx.managerOrRoot⟩,
  ⟨KSU_IOCTL_SET_INIT_PGRP, doSetInitPgrp, Ctx.onlyRoot⟩,
  ⟨KSU_IOCTL_GET_SULOG_FD, doGetSulogFd, Ctx.onlyRoot⟩,
  ⟨KSU_IOCTL_DISABLE_ESCAPE_TO_ROOT, doDisableEscapeToRoot, Ctx.onlyRoot⟩]

/-- `ksu_supercall_handle_ioctl`; `asked` is the driver as the permission check finds it, `c` is as the handler does. -/
def ksuSupercallHandleIoctl (asked : Driver) (c : Ctx) (cmd : UInt32) : Reply :=
  match ksuIoctlHandlers.find? fun entry => cmd = entry.cmd with
  | none => c.done ENOTTY.val
  | some entry => if entry.permCheck (c.at asked) then entry.handler c else c.done EPERM.val

end KernelSU.Supercall
