import KernelSU.Lib.Bytes
import KernelSU.Lib.Decoding
import KernelSU.Lib.Errno
import KernelSU.Selinux.Sepolicy

/-!
# `kernel/selinux/rules.c`: the sepolicy batch ioctl

A batch is a byte string of commands.  `handle_sepolicy` duplicates the active policy, moves a cursor
over the batch, applies every command it decodes to the duplicate, and publishes the duplicate only
when the cursor reaches the end.

The decoder is a `Reading`: it logs every span of the payload it looks at.  `memchr` may stop before the
end of the string it is given; its whole span is logged.  The cursor loop is generic in what applying a
command means, takes a bound on the number of its rounds, and is `none` when the bound is too small.

Linux's `policydb_write` and `policydb_read` are parameters (`LinuxPolicydb`).
-/

namespace KernelSU.Selinux

open KernelSU.Lib KernelSU.Lib.Bytes KernelSU.Lib.Errno Reading

/-! ### Command numbers (`uapi/selinux.h`) -/

def KSU_SEPOLICY_CMD_NORMAL_PERM : UInt32 := 1
def KSU_SEPOLICY_CMD_XPERM : UInt32 := 2
def KSU_SEPOLICY_CMD_TYPE_STATE : UInt32 := 3
def KSU_SEPOLICY_CMD_TYPE : UInt32 := 4
def KSU_SEPOLICY_CMD_TYPE_ATTR : UInt32 := 5
def KSU_SEPOLICY_CMD_ATTR : UInt32 := 6
def KSU_SEPOLICY_CMD_TYPE_TRANSITION : UInt32 := 7
def KSU_SEPOLICY_CMD_TYPE_CHANGE : UInt32 := 8
def KSU_SEPOLICY_CMD_GENFSCON : UInt32 := 9

def KSU_SEPOLICY_SUBCMD_NORMAL_PERM_ALLOW : UInt32 := 1
def KSU_SEPOLICY_SUBCMD_NORMAL_PERM_DENY : UInt32 := 2
def KSU_SEPOLICY_SUBCMD_NORMAL_PERM_AUDITALLOW : UInt32 := 3
def KSU_SEPOLICY_SUBCMD_NORMAL_PERM_DONTAUDIT : UInt32 := 4
def KSU_SEPOLICY_SUBCMD_XPERM_ALLOW : UInt32 := 1
def KSU_SEPOLICY_SUBCMD_XPERM_AUDITALLOW : UInt32 := 2
def KSU_SEPOLICY_SUBCMD_XPERM_DONTAUDIT : UInt32 := 3
def KSU_SEPOLICY_SUBCMD_TYPE_STATE_PERMISSIVE : UInt32 := 1
def KSU_SEPOLICY_SUBCMD_TYPE_STATE_ENFORCE : UInt32 := 2
def KSU_SEPOLICY_SUBCMD_TYPE_CHANGE_CHANGE : UInt32 := 1
def KSU_SEPOLICY_SUBCMD_TYPE_CHANGE_MEMBER : UInt32 := 2

def KSU_SEPOLICY_MAX_BATCH_SIZE : ℕ := 8 * 1024 * 1024
def KSU_SEPOLICY_MAX_ARGS : ℕ := 5

/-! ### The cursor -/

/-- `struct sepol_data`. -/
structure SepolData where
  cmd : UInt32
  subcmd : UInt32
  deriving DecidableEq, Repr

/-- `sizeof(struct sepol_data)`. -/
def sizeofSepolData : ℕ := 8

/-- `struct sepol_batch_cursor`: positions in the payload. -/
structure SepolBatchCursor where
  cur : ℕ
  stop : ℕ
  deriving DecidableEq, Repr

/-- `sepol_remaining`. -/
def sepolRemaining (cursor : SepolBatchCursor) : ℕ := cursor.stop - cursor.cur

/-- A decoded command: its header and its arguments, `none` for the wildcard `ALL`. -/
abbrev SepolCmd := SepolData × List (Option Name)

/-- Look at `n` bytes of the payload. -/
def readBytes (payload : List UInt8) (o n : ℕ) : Reading Errno (List UInt8) :=
  read ⟨o, n⟩ (slice payload o n)

/-- `sepol_read_cmd_header`. -/
def sepolReadCmdHeader (payload : List UInt8) (cursor : SepolBatchCursor) :
    Reading Errno (SepolData × SepolBatchCursor) :=
  if sepolRemaining cursor < sizeofSepolData then fail EINVAL
  else do
    let header ← readBytes payload cursor.cur sizeofSepolData
    return (⟨UInt32.ofNat (decodeLE (slice header 0 4)), UInt32.ofNat (decodeLE (slice header 4 4))⟩,
      { cursor with cur := cursor.cur + sizeofSepolData })

/-- `sepol_read_string`. -/
def sepolReadString (payload : List UInt8) (cursor : SepolBatchCursor) :
    Reading Errno (Option Name × SepolBatchCursor) :=
  if sepolRemaining cursor < 4 then fail EINVAL
  else do
    let word ← readBytes payload cursor.cur 4
    let len := decodeLE word
    let cursor := { cursor with cur := cursor.cur + 4 }
    if sepolRemaining cursor ≤ len then fail EINVAL
    else do
      let str ← readBytes payload cursor.cur len
      if 0 ∈ str then fail EINVAL
      else do
        let terminator ← readBytes payload (cursor.cur + len) 1
        if terminator ≠ [0] then fail EINVAL
        else
          return (if len = 0 then none else some str, { cursor with cur := cursor.cur + (len + 1) })

/-- `sepol_expected_argc`. -/
def sepolExpectedArgc (cmd : UInt32) : Except Errno ℕ :=
  if cmd = KSU_SEPOLICY_CMD_NORMAL_PERM then .ok 4
  else if cmd = KSU_SEPOLICY_CMD_XPERM then .ok 5
  else if cmd = KSU_SEPOLICY_CMD_TYPE_STATE then .ok 1
  else if cmd = KSU_SEPOLICY_CMD_TYPE ∨ cmd = KSU_SEPOLICY_CMD_TYPE_ATTR then .ok 2
  else if cmd = KSU_SEPOLICY_CMD_ATTR then .ok 1
  else if cmd = KSU_SEPOLICY_CMD_TYPE_TRANSITION then .ok 5
  else if cmd = KSU_SEPOLICY_CMD_TYPE_CHANGE then .ok 4
  else if cmd = KSU_SEPOLICY_CMD_GENFSCON then .ok 3
  else .error EINVAL

/-- The arguments of a command, once its header has been read. -/
def sepolReadArgs (payload : List UInt8) (header : SepolData) (cursor : SepolBatchCursor) :
    Reading Errno (List (Option Name) × SepolBatchCursor) :=
  match sepolExpectedArgc header.cmd with
  | .error _ => fail EINVAL
  | .ok argc =>
    if KSU_SEPOLICY_MAX_ARGS < argc then fail EINVAL
    else decodeRepeat (sepolReadString payload) argc cursor

/-- One command: the first half of the loop body of `handle_sepolicy`. -/
def sepolReadCmd (payload : List UInt8) (cursor : SepolBatchCursor) :
    Reading Errno (SepolCmd × SepolBatchCursor) := do
  let header ← sepolReadCmdHeader payload cursor
  let args ← sepolReadArgs payload header.1 header.2
  return ((header.1, args.1), args.2)

/-! ### Applying a command -/

/-- `args[i]` of an array that starts out as `NULL`s. -/
def argAt (args : List (Option Name)) (i : ℕ) : Option Name := (args[i]?).join

/-- `sepol_require_not_all`: the argument, when it is not the wildcard. -/
def sepolRequireNotAll (value : Option Name) : Except Errno Name :=
  match value with
  | some v => .ok v
  | none => .error EINVAL

/-- `return success ? 0 : -EINVAL`. -/
def successRet (success : Bool) : ℤ := if success then 0 else EINVAL.val

/-- Run the rest of a command with an argument that must not be the wildcard. -/
def withNotAll (value : Option Name) (rest : Name → PolicyM ℤ) : PolicyM ℤ :=
  match sepolRequireNotAll value with
  | .ok v => rest v
  | .error e => return e.val

/-- `apply_one_sepolicy_cmd`. -/
def applyOneSepolicyCmd (header : SepolData) (args : List (Option Name)) : PolicyM ℤ :=
  let arg := argAt args
  if header.cmd = KSU_SEPOLICY_CMD_NORMAL_PERM then do
    if header.subcmd = KSU_SEPOLICY_SUBCMD_NORMAL_PERM_ALLOW then
      return successRet (← ksuAllow (arg 0) (arg 1) (arg 2) (arg 3))
    else if header.subcmd = KSU_SEPOLICY_SUBCMD_NORMAL_PERM_DENY then
      return successRet (← ksuDeny (arg 0) (arg 1) (arg 2) (arg 3))
    else if header.subcmd = KSU_SEPOLICY_SUBCMD_NORMAL_PERM_AUDITALLOW then
      return successRet (← ksuAuditallow (arg 0) (arg 1) (arg 2) (arg 3))
    else if header.subcmd = KSU_SEPOLICY_SUBCMD_NORMAL_PERM_DONTAUDIT then
      return successRet (← ksuDontaudit (arg 0) (arg 1) (arg 2) (arg 3))
    else return EINVAL.val
  else if header.cmd = KSU_SEPOLICY_CMD_XPERM then
    withNotAll (arg 3) fun _operation => withNotAll (arg 4) fun permSet => do
      if header.subcmd = KSU_SEPOLICY_SUBCMD_XPERM_ALLOW then
        return successRet (← ksuAllowxperm (arg 0) (arg 1) (arg 2) (some permSet))
      else if header.subcmd = KSU_SEPOLICY_SUBCMD_XPERM_AUDITALLOW then
        return successRet (← ksuAuditallowxperm (arg 0) (arg 1) (arg 2) (some permSet))
      else if header.subcmd = KSU_SEPOLICY_SUBCMD_XPERM_DONTAUDIT then
        return successRet (← ksuDontauditxperm (arg 0) (arg 1) (arg 2) (some permSet))
      else return EINVAL.val
  else if header.cmd = KSU_SEPOLICY_CMD_TYPE_STATE then
    withNotAll (arg 0) fun type => do
      if header.subcmd = KSU_SEPOLICY_SUBCMD_TYPE_STATE_PERMISSIVE then
        return successRet (← ksuPermissive type)
      else if header.subcmd = KSU_SEPOLICY_SUBCMD_TYPE_STATE_ENFORCE then
        return successRet (← ksuEnforce type)
      else return EINVAL.val
  else if header.cmd = KSU_SEPOLICY_CMD_TYPE ∨ header.cmd = KSU_SEPOLICY_CMD_TYPE_ATTR then
    withNotAll (arg 0) fun type => withNotAll (arg 1) fun attr => do
      if header.cmd = KSU_SEPOLICY_CMD_TYPE then
        return successRet (← ksuType type attr)
      else return successRet (← ksuTypeattribute type attr)
  else if header.cmd = KSU_SEPOLICY_CMD_ATTR then
    withNotAll (arg 0) fun attr => do return successRet (← ksuAttribute attr)
  else if header.cmd = KSU_SEPOLICY_CMD_TYPE_TRANSITION then
    withNotAll (arg 0) fun src => withNotAll (arg 1) fun tgt => withNotAll (arg 2) fun cls =>
      withNotAll (arg 3) fun defaultType => do
        return successRet (← ksuTypeTransition src tgt cls defaultType (arg 4))
  else if header.cmd = KSU_SEPOLICY_CMD_TYPE_CHANGE then
    withNotAll (arg 0) fun src => withNotAll (arg 1) fun tgt => withNotAll (arg 2) fun cls =>
      withNotAll (arg 3) fun defaultType => do
        if header.subcmd = KSU_SEPOLICY_SUBCMD_TYPE_CHANGE_CHANGE then
          return successRet (← ksuTypeChange src tgt cls defaultType)
        else if header.subcmd = KSU_SEPOLICY_SUBCMD_TYPE_CHANGE_MEMBER then
          return successRet (← ksuTypeMember src tgt cls defaultType)
        else return EINVAL.val
  else if header.cmd = KSU_SEPOLICY_CMD_GENFSCON then
    withNotAll (arg 0) fun name => withNotAll (arg 1) fun path => withNotAll (arg 2) fun context => do
      return successRet (← ksuGenfscon name path context)
  else return EINVAL.val

/-! ### The batch -/

/-- How a run of the cursor loop ends: the count of the commands that succeeded or the error, the
cursor, the state the commands have made, and every span read. -/
structure BatchRun (σ : Type) where
  result : Except Errno ℕ
  cursor : SepolBatchCursor
  state : σ
  reads : List Span

/-- The cursor loop of `handle_sepolicy`, for any meaning of a command. -/
def sepolBatchLoop {σ : Type} (apply : SepolData → List (Option Name) → σ → ℤ × σ)
    (payload : List UInt8) : ℕ → SepolBatchCursor → ℕ → σ → Option (BatchRun σ)
  | 0, _, _, _ => none
  | fuel + 1, cursor, count, s =>
    if cursor.cur < cursor.stop then
      let cmd := sepolReadCmd payload cursor
      match cmd.result with
      | .error e => some ⟨.error e, cursor, s, cmd.reads⟩
      | .ok ((header, args), cursor') =>
        let (ret, s') := apply header args s
        let count' := if ret < 0 then count else count + 1
        (sepolBatchLoop apply payload fuel cursor' count' s').map fun r =>
          { r with reads := cmd.reads ++ r.reads }
    else some ⟨.ok count, cursor, s, []⟩

/-- What a call of `handle_sepolicy` returns, the state it leaves, and every span it read. -/
structure BatchOutcome where
  ret : ℤ
  mem : PolicyMem
  reads : List Span

/-- `handle_sepolicy`; the database of the state is the active policy.  `userData` is `none` for a
`NULL` pointer and else the bytes it points to; `copyFault` is the outcome of `copy_from_user`. -/
def handleSepolicy (linux : LinuxPolicydb) (copyFault : Bool) (fuel : ℕ)
    (userData : Option (List UInt8)) (m : PolicyMem) : Option BatchOutcome :=
  match userData with
  | none => some ⟨EINVAL.val, m, []⟩
  | some payload =>
    if payload.length = 0 then some ⟨EINVAL.val, m, []⟩
    else if KSU_SEPOLICY_MAX_BATCH_SIZE < payload.length then some ⟨E2BIG.val, m, []⟩
    else
      let (payloadAllocated, m) := kalloc.run m
      if !payloadAllocated then some ⟨ENOMEM.val, m, []⟩
      else if copyFault then some ⟨EFAULT.val, m, []⟩
      else
        let oldPol := m.db
        match (ksuDupSepolicy linux).run m with
        | (.error e, m) => some ⟨e.val, m, []⟩
        | (.ok pol, m) =>
          let dup := { m with db := pol }
          let apply := fun header args m => (applyOneSepolicyCmd header args).run m
          (sepolBatchLoop apply payload fuel ⟨0, payload.length⟩ 0 dup).map fun r =>
            match r.result with
            -- `out_drop_new_policy`: the duplicate is destroyed
            | .error e => ⟨e.val, { r.state with db := oldPol }, r.reads⟩
            | .ok count => ⟨count, r.state, r.reads⟩

end KernelSU.Selinux
