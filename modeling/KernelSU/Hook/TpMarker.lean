import Mathlib.Logic.Function.Basic
import KernelSU.Lib.Errno
import KernelSU.Lib.Interleaving

/-!
# `kernel/hook/tp_marker.c`: which tasks carry the syscall-tracepoint flag

The flag makes a task's system calls go through the `sys_enter` tracepoint.  It belongs to whoever uses
the tracepoint: KernelSU keeps it on the tasks it hooks, and a tracer wants it on every task.
`tracepoint_reg_count` says how many use it, and `tracepoint_reg_lock` guards the count.

Each function below is the program the source gives, one action for each access to what is shared: the
lock, the count, the task list under `tasklist_lock`, a task's credentials and its flag.  The kretprobe
handlers of `kernel/hook/syscall_hook_manager.c` and the request of `kernel/supercall/dispatch.c` that
call them are here too.
-/

namespace KernelSU.Hook

open KernelSU.Lib

/-- What the walk reads of a `struct task_struct`: `ksuDomain` and `zygote` are `is_task_ksu_domain` and
`is_zygote` of its credentials, `tracepoint` is the flag. -/
structure TaskStruct where
  pid : Int32
  mm : Bool
  uid : UInt32
  ksuDomain : Bool
  zygote : Bool
  tracepoint : Bool
  deriving DecidableEq, Repr

/-- The shared state.  Tasks have addresses; `findTaskByVpid` looks in the caller's pid namespace. -/
structure TpState where
  regCount : ℤ
  regLock : Option ℕ
  tasklistReaders : ℕ
  tasklist : List ℕ
  task : ℕ → Option TaskStruct
  findTaskByVpid : Int32 → Option ℕ
  isAllowUid : UInt32 → Bool

/-- The accesses to the shared state. -/
inductive Action where
  | lock
  | unlock
  | regCount
  | incRegCount
  | decRegCount
  | readLockTasklist
  | readUnlockTasklist
  | readTask (t : ℕ)
  | isAllowUid (uid : UInt32)
  | findTaskByVpid (pid : Int32)
  | testFlag (t : ℕ)
  | setFlag (t : ℕ)
  | clearFlag (t : ℕ)
  deriving DecidableEq, Repr

namespace Action

/-- What an access returns. -/
abbrev Ret : Action → Type
  | regCount => ℤ
  | readLockTasklist => List ℕ
  | readTask _ => Option TaskStruct
  | isAllowUid _ => Bool
  | findTaskByVpid _ => Option ℕ
  | testFlag _ => Bool
  | _ => Unit

end Action

namespace TpState

/-- The flag of the task at `t`. -/
def tracepoint (s : TpState) (t : ℕ) : Bool := (s.task t).any (·.tracepoint)

/-- `ksu_set_task_tracepoint_flag` and `ksu_clear_task_tracepoint_flag`. -/
def putFlag (s : TpState) (t : ℕ) (flag : Bool) : TpState :=
  { s with task := Function.update s.task t ((s.task t).map fun x => { x with tracepoint := flag }) }

/-- An access by thread `n`; the lock has to be free to be taken. -/
def exec (n : ℕ) : (i : Action) → TpState → Option (i.Ret × TpState)
  | .lock, s => if s.regLock = none then some ((), { s with regLock := some n }) else none
  | .unlock, s => some ((), { s with regLock := none })
  | .regCount, s => some (s.regCount, s)
  | .incRegCount, s => some ((), { s with regCount := s.regCount + 1 })
  | .decRegCount, s => some ((), { s with regCount := s.regCount - 1 })
  | .readLockTasklist, s => some (s.tasklist, { s with tasklistReaders := s.tasklistReaders + 1 })
  | .readUnlockTasklist, s => some ((), { s with tasklistReaders := s.tasklistReaders - 1 })
  | .readTask t, s => some (s.task t, s)
  | .isAllowUid uid, s => some (s.isAllowUid uid, s)
  | .findTaskByVpid pid, s => some (s.findTaskByVpid pid, s)
  | .testFlag t, s => some (s.tracepoint t, s)
  | .setFlag t, s => some ((), s.putFlag t true)
  | .clearFlag t, s => some ((), s.putFlag t false)

/-- What the rest of the kernel may do: tasks come, go, and change credentials, the allow list changes,
and tracers set and clear flags.  The task list stands still while somebody reads it. -/
structure Env (s s' : TpState) : Prop where
  regCount : s'.regCount = s.regCount
  regLock : s'.regLock = s.regLock
  tasklistReaders : s'.tasklistReaders = s.tasklistReaders
  tasklist : 0 < s.tasklistReaders → s'.tasklist = s.tasklist

end TpState

/-! ### The functions of `tp_marker.c` -/

/-- A KernelSU function. -/
abbrev TpProg (α : Type) := Prog Action Action.Ret α

/-- An access. -/
def access (i : Action) : TpProg i.Ret := Prog.perform i

/-- What stands between taking `tracepoint_reg_lock` and giving it back. -/
def withRegLock (body : TpProg Unit) : TpProg Unit := do
  access .lock
  body
  access .unlock

/-- `ksu_clear_task_tracepoint_flag_if_needed`. -/
def ksuClearTaskTracepointFlagIfNeeded (t : ℕ) : TpProg Unit := withRegLock do
  let count ← access .regCount
  Prog.onlyIf (count ≤ 1) (access (.clearFlag t))

/-- `handle_process_mark`. -/
def handleProcessMark (mark : Bool) : TpProg Unit := do
  let tasks ← access .readLockTasklist
  tasks.forM fun t => if mark then access (.setFlag t) else access (.clearFlag t)
  access .readUnlockTasklist

/-- `ksu_mark_all_process`. -/
def ksuMarkAllProcess : TpProg Unit := handleProcessMark true

/-- `ksu_unmark_all_process`. -/
def ksuUnmarkAllProcess : TpProg Unit := handleProcessMark false

/-- One turn of `ksu_mark_running_process_locked`. -/
def markRunningTask (t : ℕ) : TpProg Unit := do
  match ← access (.readTask t) with
  | none => pure () -- not while the list is locked
  | some task =>
    if task.pid ≠ 1 ∧ task.mm = false then pure () -- a kernel thread
    else
      let allowed ← access (.isAllowUid task.uid)
      if (task.uid = 0 ∧ task.ksuDomain) ∨ task.zygote ∨ task.uid = 2000 ∨ task.pid = 1 ∨ allowed then
        access (.setFlag t)
      else
        access (.clearFlag t)

/-- `ksu_mark_running_process_locked`. -/
def ksuMarkRunningProcessLocked : TpProg Unit := do
  let tasks ← access .readLockTasklist
  tasks.forM markRunningTask
  access .readUnlockTasklist

/-- `ksu_mark_running_process`. -/
def ksuMarkRunningProcess : TpProg Unit := withRegLock do
  let count ← access .regCount
  Prog.onlyIf (count ≤ 1) ksuMarkRunningProcessLocked

/-- `ksu_get_task_mark`. -/
def ksuGetTaskMark (pid : Int32) : TpProg (Except Errno UInt32) := do
  match ← access (.findTaskByVpid pid) with
  | none => pure (.error .ESRCH)
  | some task =>
    let flag ← access (.testFlag task)
    pure (.ok (if flag then 1 else 0))

/-- `ksu_set_task_mark`. -/
def ksuSetTaskMark (pid : Int32) (mark : Bool) : TpProg (Except Errno Unit) := do
  match ← access (.findTaskByVpid pid) with
  | none => pure (.error .ESRCH)
  | some task =>
    (if mark then access (.setFlag task) else access (.clearFlag task))
    pure (.ok ())

/-! ### The kretprobe handlers -/

/-- `syscall_regfunc_handler`. -/
def syscallRegfuncHandler : TpProg Unit := withRegLock do
  let count ← access .regCount
  (if count < 1 then ksuMarkRunningProcessLocked
    else do
      let count ← access .regCount
      Prog.onlyIf (count = 1) ksuMarkAllProcess)
  access .incRegCount

/-- `syscall_unregfunc_handler`. -/
def syscallUnregfuncHandler : TpProg Unit := withRegLock do
  access .decRegCount
  let count ← access .regCount
  if count ≤ 0 then ksuUnmarkAllProcess
  else
    let count ← access .regCount
    Prog.onlyIf (count = 1) ksuMarkRunningProcessLocked

/-! ### The request -/

/-- `KSU_MARK_GET`. -/
def KSU_MARK_GET : UInt32 := 1

/-- `KSU_MARK_MARK`. -/
def KSU_MARK_MARK : UInt32 := 2

/-- `KSU_MARK_UNMARK`. -/
def KSU_MARK_UNMARK : UInt32 := 3

/-- `KSU_MARK_REFRESH`. -/
def KSU_MARK_REFRESH : UInt32 := 4

/-- `struct ksu_manage_mark_cmd`. -/
structure ManageMarkCmd where
  operation : UInt32
  pid : Int32
  result : UInt32
  deriving DecidableEq, Repr

/-- The switch of `do_manage_mark`. -/
def manageMark (cmd : ManageMarkCmd) : TpProg (Except Errno ManageMarkCmd) := do
  if cmd.operation = KSU_MARK_GET then
    match ← ksuGetTaskMark cmd.pid with
    | .error e => pure (.error e)
    | .ok ret => pure (.ok { cmd with result := ret })
  else if cmd.operation = KSU_MARK_MARK then
    if cmd.pid = 0 then
      ksuMarkAllProcess
      pure (.ok cmd)
    else
      let ret ← ksuSetTaskMark cmd.pid true
      pure (ret.map fun _ => cmd)
  else if cmd.operation = KSU_MARK_UNMARK then
    if cmd.pid = 0 then
      ksuUnmarkAllProcess
      pure (.ok cmd)
    else
      let ret ← ksuSetTaskMark cmd.pid false
      pure (ret.map fun _ => cmd)
  else if cmd.operation = KSU_MARK_REFRESH then
    ksuMarkRunningProcess
    pure (.ok cmd)
  else pure (.error .EINVAL)

/-- `do_manage_mark`: `arg` is what `copy_from_user` brings, `none` where it faults, and `copied` says
whether `copy_to_user` does not fault. -/
def doManageMark (arg : Option ManageMarkCmd) (copied : Bool) : TpProg (Except Errno ManageMarkCmd) := do
  match arg with
  | none => pure (.error .EFAULT)
  | some cmd =>
    match ← manageMark cmd with
    | .error e => pure (.error e)
    | .ok cmd => pure (if copied then .ok cmd else .error .EFAULT)

/-! ### The system -/

/-- Where KernelSU's functions are entered: the kretprobes, the request, the refresh after a profile was
set, and the hooks that set or clear the flag of one task. -/
inductive Entry where
  | syscallRegfunc
  | syscallUnregfunc
  | manageMark (arg : Option ManageMarkCmd) (copied : Bool)
  | setAppProfile
  | setTask (t : ℕ)
  | clearTaskIfNeeded (t : ℕ)

namespace Entry

def code : Entry → TpProg Unit
  | syscallRegfunc => syscallRegfuncHandler
  | syscallUnregfunc => syscallUnregfuncHandler
  | manageMark arg copied => do
    let _ ← doManageMark arg copied
    pure ()
  | setAppProfile => ksuMarkRunningProcess
  | setTask t => access (.setFlag t)
  | clearTaskIfNeeded t => ksuClearTaskTracepointFlagIfNeeded t

/-- A request to unmark, one task or all of them. -/
def isUnmark : Entry → Bool
  | manageMark (some cmd) _ => cmd.operation = KSU_MARK_UNMARK
  | _ => false

end Entry

/-- KernelSU's functions, entered by any number of threads at any time, next to the rest of the kernel. -/
def tpMarker : Threads Action Action.Ret Unit TpState Entry where
  code := Entry.code
  exec := TpState.exec
  env := TpState.Env

/-- The module is loaded: nobody registered yet, the lock free. -/
structure TpState.Initial (s : TpState) : Prop where
  regCount : s.regCount = 0
  regLock : s.regLock = none

end KernelSU.Hook
