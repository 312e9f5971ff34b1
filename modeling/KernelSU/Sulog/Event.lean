import Mathlib.Data.Vector.Basic
import KernelSU.Lib.Bytes
import KernelSU.Lib.Errno

/-!
# `kernel/sulog/event.c`: capturing an event

* A payload is the `struct ksu_sulog_event` at its head and the bytes behind it, as `kzalloc` leaves them
  until the two strings are copied in.
* User memory is given by what each read of it finds: a string, or a fault.  Two reads never meet the same
  pointer, so nothing is assumed about what other threads write meanwhile.
* The lengths are `u32` in the source; none of them exceeds the size of a payload, and they are naturals
  here.
-/

namespace KernelSU.Sulog

open Lib Lib.Bytes

def KSU_SULOG_MAX_QUEUED : UInt32 := 256
def KSU_SULOG_MAX_PAYLOAD_LEN : ℕ := 2048
def KSU_SULOG_MAX_ARG_STRINGS : ℕ := 0x7FFFFFFF
def KSU_SULOG_MAX_ARG_CHUNK : ℕ := 256
def KSU_SULOG_MAX_FILENAME_LEN : ℕ := 256
def KSU_SULOG_EVENT_VERSION : UInt16 := 1
def KSU_SULOG_EVENT_ROOT_EXECVE : UInt16 := 1
def KSU_SULOG_EVENT_SUCOMPAT : UInt16 := 2
def KSU_SULOG_EVENT_IOCTL_GRANT_ROOT : UInt16 := 3
def TASK_COMM_LEN : ℕ := 16

/-- `struct ksu_sulog_event`. -/
structure Event where
  version : UInt16
  eventType : UInt16
  retval : Int32
  pid : UInt32
  tgid : UInt32
  ppid : UInt32
  uid : UInt32
  euid : UInt32
  comm : List.Vector UInt8 TASK_COMM_LEN
  filenameLen : UInt32
  argvLen : UInt32

/-- `sizeof(struct ksu_sulog_event)`; the struct is packed. -/
def sizeofEvent : ℕ := 52

/-- The bytes of the struct. -/
def Event.bytes (e : Event) : List UInt8 :=
  encodeLE 2 e.version.toNat ++ (encodeLE 2 e.eventType.toNat ++ (encodeLE 4 e.retval.toUInt32.toNat ++
    (encodeLE 4 e.pid.toNat ++ (encodeLE 4 e.tgid.toNat ++ (encodeLE 4 e.ppid.toNat ++
      (encodeLE 4 e.uid.toNat ++ (encodeLE 4 e.euid.toNat ++ (e.comm.toList ++
        (encodeLE 4 e.filenameLen.toNat ++ encodeLE 4 e.argvLen.toNat)))))))))

/-- What the task structure says about `current`. -/
structure Task where
  pid : UInt32
  tgid : UInt32
  ppid : UInt32
  uid : UInt32
  euid : UInt32
  comm : List.Vector UInt8 TASK_COMM_LEN

/-- `struct ksu_sulog_identity`. -/
structure Identity where
  uid : UInt32
  euid : UInt32

/-- `ksu_sulog_fill_task_info`, in an event that was all zero. -/
def fillTaskInfo (current : Task) (eventType : UInt16) (retval : Int32) : Event where
  version := KSU_SULOG_EVENT_VERSION
  eventType := eventType
  retval := retval
  pid := current.pid
  tgid := current.tgid
  ppid := current.ppid
  uid := current.uid
  euid := current.euid
  comm := current.comm
  filenameLen := 0
  argvLen := 0

/-- `ksu_sulog_set_identity`. -/
def setIdentity (event : Event) : Option Identity → Event
  | none => event
  | some identity => { event with uid := identity.uid, euid := identity.euid }

/-! ### User memory -/

/-- What the copy of a string from user memory finds there: a string, given by its bytes before the NUL,
or a page that is not there, after some bytes. -/
inductive UserStr where
  | str (bytes : List UInt8) (noNul : 0 ∉ bytes)
  | fault (copied : List UInt8)

/-- What `ksu_sulog_get_user_arg_ptr` finds in a slot of `argv`. -/
inductive UserArg where
  | null
  | fault
  | ptr (s : UserStr)

-- whether the kernel counts the NUL of an empty string, as it does from 6.16 on
variable (countsEmpty : Bool)

/-- `strncpy_from_user_nofault`: what it returns and what it has written.  The length it returns counts
the NUL, and is `count` where the string did not fit. -/
def strncpyFromUserNofault (s : UserStr) (count : ℕ) : ℤ × List UInt8 :=
  match s with
  | .str bytes _ =>
    if bytes = [] ∧ countsEmpty = false then (0, [0])
    else if bytes.length < count then (bytes.length + 1, bytes ++ [0])
    else (count, bytes.take (count - 1) ++ [0])
  | .fault copied => (Errno.EFAULT.val, copied.take count)

/-- `strnlen`. -/
def strnlen (s : List UInt8) (maxlen : ℕ) : ℕ := (cString (s.take maxlen)).length

/-- `ksu_sulog_copy_empty_string`. -/
def copyEmptyString (dst : List UInt8) : ℕ × List UInt8 := (1, dst.set 0 0)

/-- `ksu_sulog_copy_filename`: the length and the buffer after it. -/
def copyFilename (filenameUser : Option UserStr) (dst : List UInt8) (dstLen : ℕ) : ℕ × List UInt8 :=
  if dstLen = 0 then (0, dst)
  else match filenameUser with
    | none => copyEmptyString dst
    | some s =>
      let (ret, written) := strncpyFromUserNofault countsEmpty s dstLen
      let dst := patch dst 0 written
      if ret ≤ 0 then copyEmptyString dst
      else if dstLen ≤ ret then (dstLen, dst.set (dstLen - 1) 0)
      else (ret.toNat + 1, dst)

/-! ### The arguments -/

/-- One argument copied to the stack: the bytes before its NUL, `none` where the copy fails. -/
def fetchArg (s : UserStr) : Option (List UInt8) :=
  let (copied, arg) := strncpyFromUserNofault countsEmpty s KSU_SULOG_MAX_ARG_CHUNK
  if copied ≤ 0 then none
  else
    let arg := if KSU_SULOG_MAX_ARG_CHUNK ≤ copied then arg.set (KSU_SULOG_MAX_ARG_CHUNK - 1) 0 else arg
    some (arg.take (strnlen arg KSU_SULOG_MAX_ARG_CHUNK))

/-- The space before an argument that is not the first. -/
def putSpace (dstLen used : ℕ) (dst : List UInt8) : ℕ × List UInt8 :=
  if used ≠ 0 ∧ used < dstLen - 1 then (used + 1, dst.set used 0x20) else (used, dst)

/-- The part of an argument that fits. -/
def putArg (dstLen : ℕ) (arg : List UInt8) (used : ℕ) (dst : List UInt8) : ℕ × List UInt8 :=
  (used + min arg.length (dstLen - used - 1), patch dst used (arg.take (min arg.length (dstLen - used - 1))))

/-- The end of `ksu_sulog_flatten_argv`. -/
def endArgv (used : ℕ) (dst : List UInt8) : ℕ × List UInt8 := (used + 1, dst.set used 0)

/-- The loop of `ksu_sulog_flatten_argv`, with `n` more turns to take; `used` bytes of `dst` are taken. -/
def flattenLoop (argv : ℕ → UserArg) (fatalSignalPending : ℕ → Bool) (dstLen : ℕ) :
    ℕ → ℕ → ℕ → List UInt8 → ℕ × List UInt8
  | 0, _, used, dst => endArgv used dst
  | n + 1, i, used, dst =>
    if fatalSignalPending i then endArgv used dst
    else match argv i with
      | .null => endArgv used dst
      | .fault => copyEmptyString dst
      | .ptr s =>
        match fetchArg countsEmpty s with
        | none => copyEmptyString dst
        | some arg =>
          if arg.length = 0 then flattenLoop argv fatalSignalPending dstLen n (i + 1) used dst
          else if dstLen - 1 ≤ (putSpace dstLen used dst).1 then
            endArgv (putSpace dstLen used dst).1 (putSpace dstLen used dst).2
          else if dstLen - 1 ≤
              (putArg dstLen arg (putSpace dstLen used dst).1 (putSpace dstLen used dst).2).1 then
            endArgv (putArg dstLen arg (putSpace dstLen used dst).1 (putSpace dstLen used dst).2).1
              (putArg dstLen arg (putSpace dstLen used dst).1 (putSpace dstLen used dst).2).2
          else
            flattenLoop argv fatalSignalPending dstLen n (i + 1)
              (putArg dstLen arg (putSpace dstLen used dst).1 (putSpace dstLen used dst).2).1
              (putArg dstLen arg (putSpace dstLen used dst).1 (putSpace dstLen used dst).2).2

/-- `ksu_sulog_flatten_argv`; `fatalSignalPending i` is what its turn `i` finds. -/
def flattenArgv (argvUser : Option (ℕ → UserArg)) (fatalSignalPending : ℕ → Bool) (dst : List UInt8)
    (dstLen : ℕ) : ℕ × List UInt8 :=
  if dstLen = 0 then (0, dst)
  else match argvUser with
    | none => copyEmptyString dst
    | some argv => flattenLoop countsEmpty argv fatalSignalPending dstLen KSU_SULOG_MAX_ARG_STRINGS 0 0 dst

/-! ### Capturing -/

/-- `struct ksu_sulog_pending_event`: the payload is the struct at its head and the rest behind it. -/
structure PendingEvent where
  eventType : UInt16
  event : Event
  strings : List UInt8
  payloadLen : ℕ

/-- How `ksu_sulog_capture` ends: the log is off, a drop is noted, or an event is captured. -/
inductive Capture where
  | disabled
  | dropped
  | captured (pending : PendingEvent)

/-- `ksu_sulog_capture`; `pendingAlloc` and `payloadAlloc` tell whether `kzalloc` gave the two blocks. -/
def capture (isEnabled pendingAlloc payloadAlloc : Bool) (current : Task) (eventType : UInt16)
    (filenameUser : Option UserStr) (argvUser : Option (ℕ → UserArg)) (fatalSignalPending : ℕ → Bool) :
    Capture :=
  if !isEnabled then .disabled
  else if !pendingAlloc then .dropped
  else if !payloadAlloc then .dropped
  else
    let event := fillTaskInfo current eventType 0
    let remaining := KSU_SULOG_MAX_PAYLOAD_LEN - sizeofEvent
    let strings := List.replicate remaining 0
    let (filenameLen, strings) :=
      copyFilename countsEmpty filenameUser strings (min remaining KSU_SULOG_MAX_FILENAME_LEN)
    if filenameLen = 0 then .dropped
    else
      let remaining := remaining - filenameLen
      let (argvLen, argv) := flattenArgv countsEmpty argvUser fatalSignalPending (strings.drop filenameLen) remaining
      if argvLen = 0 then .dropped
      else if 2 ^ 32 ≤ sizeofEvent + filenameLen ∨ 2 ^ 32 ≤ sizeofEvent + filenameLen + argvLen then .dropped
      else .captured {
        eventType := eventType
        event := { event with
          filenameLen := UInt32.ofNat filenameLen
          argvLen := UInt32.ofNat argvLen }
        strings := strings.take filenameLen ++ argv
        payloadLen := sizeofEvent + filenameLen + argvLen }

/-- `ksu_sulog_capture_grant_root`. -/
def captureGrantRoot (isEnabled pendingAlloc payloadAlloc : Bool) (current : Task) (identity : Identity)
    (fatalSignalPending : ℕ → Bool) : Capture :=
  match capture countsEmpty isEnabled pendingAlloc payloadAlloc current KSU_SULOG_EVENT_IOCTL_GRANT_ROOT none none
    fatalSignalPending with
  | .captured pending =>
    .captured { pending with event := setIdentity pending.event (some identity) }
  | .disabled => .disabled
  | .dropped => .dropped

/-- The bytes that `ksu_sulog_emit_pending` pushes. -/
def PendingEvent.emit (pending : PendingEvent) (retval : Int32) : List UInt8 :=
  ({ pending.event with retval := retval }.bytes ++ pending.strings).take pending.payloadLen

end KernelSU.Sulog
