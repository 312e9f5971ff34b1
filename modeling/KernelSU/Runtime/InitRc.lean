import KernelSU.Lib.Bytes
import KernelSU.Lib.Errno

/-!
# `kernel/runtime/ksud_integration.c`: the spliced `init.rc`

The first `read` of `init.rc` by init replaces the file's operations by proxies.  A proxy reads the file
first and, when it has reached the end, goes on with a static text and then with the module rc that was
loaded from `/metadata`.  Until that first `read`, a hook adds the two extra lengths to the `st_size`
that `fstat` reports; installing the proxies removes it.

The functions here are those of the source.  `ReadEnv` carries what a call's surroundings decide: how
much the file's own method returns, and whether a copy to user space faults.  What a call delivers is
the list of bytes it counts in its result.
-/

namespace KernelSU.Runtime

open KernelSU.Lib KernelSU.Lib.Bytes

/-- `KERNEL_SU_RC`. -/
def KERNEL_SU_RC : List UInt8 :=
  ("\n" ++
    "on post-fs-data\n" ++
    "    start logd\n" ++
    "    exec u:r:ksu:s0 root -- /data/adb/ksud post-fs-data\n" ++
    "\n" ++
    "on nonencrypted\n" ++
    "    exec u:r:ksu:s0 root -- /data/adb/ksud services\n" ++
    "\n" ++
    "on property:vold.decrypt=trigger_restart_framework\n" ++
    "    exec u:r:ksu:s0 root -- /data/adb/ksud services\n" ++
    "\n" ++
    "on property:sys.boot_completed=1\n" ++
    "    exec u:r:ksu:s0 root -- /data/adb/ksud boot-completed\n" ++
    "\n" ++
    "\n").toUTF8.data.toList

/-- `ksu_rc_len`. -/
def ksuRcLen : ℕ := KERNEL_SU_RC.length

/-! ### The module rc -/

/-- A file `open_module_rc` may find, and what `kernel_read` returns for it. -/
structure RcFile where
  isReg : Bool
  content : List UInt8
  read : Except Errno ℕ
  read_le : ∀ r, read = .ok r → r ≤ content.length

/-- What `load_module_rc_once` depends on. -/
structure RcEnv where
  ksuNoCustomRc : Bool
  /-- `/metadata/watchdog/ksu/modules.rc`, when it opens. -/
  watchdog : Option RcFile
  /-- `/metadata/ksu/modules.rc`, when it opens. -/
  default : Option RcFile
  allocSucceeds : Bool

/-- The static variables of the file, the position of the open `init.rc`, and whether its operations
have been replaced. -/
structure RcState where
  filePos : ℕ
  ksuRcPos : ℕ
  moduleRcBuf : List UInt8
  moduleRcLen : ℕ
  moduleRcPos : ℕ
  loaded : Bool
  rcHooked : Bool
  deriving DecidableEq, Repr

/-- The state at boot. -/
def RcState.init : RcState := ⟨0, 0, [], 0, 0, false, false⟩

/-- `open_module_rc`. -/
def openModuleRc (env : RcEnv) : Option RcFile := env.watchdog.orElse fun _ => env.default

/-- `load_module_rc_once`. -/
def loadModuleRcOnce (env : RcEnv) (s : RcState) : RcState :=
  if s.loaded then s
  else
    let s := { s with loaded := true }
    if env.ksuNoCustomRc then s
    else
      match openModuleRc env with
      | none => s
      | some f =>
        if !f.isReg then s
        else if f.content.length = 0 then s
        else if !env.allocSucceeds then s
        else
          match f.read with
          | .error _ => s
          | .ok r =>
            if r = 0 then s
            else { s with moduleRcBuf := f.content.take r, moduleRcLen := r }

/-- `free_module_rc`. -/
def freeModuleRc (s : RcState) : RcState := { s with moduleRcBuf := [], moduleRcLen := 0 }

/-! ### The proxies -/

/-- The surroundings of one call: what the file's own method returns, and how many bytes of the static
text and of the module rc can be copied before a fault (`none` is no fault). -/
structure ReadEnv where
  orig : Except Errno ℕ
  ksuLimit : Option ℕ
  moduleLimit : Option ℕ
  deriving DecidableEq

/-- Whether `copy_to_user` of `n` bytes leaves some uncopied. -/
def copyFaults (limit : Option ℕ) (n : ℕ) : Bool :=
  match limit with
  | none => false
  | some k => decide (k < n)

/-- `copy_to_iter`: how many of `n` bytes are copied into an iterator with `room` bytes left. -/
def copyToIter (limit : Option ℕ) (n room : ℕ) : ℕ :=
  match limit with
  | none => min n room
  | some k => min k (min n room)

/-- Result of a call: the bytes delivered, or an error of the file's own method. -/
abbrev ReadResult := Except Errno (List UInt8) × RcState

/-- `append_module_rc:` in `read_proxy`. -/
def readAppendModuleRc (count : ℕ) (env : ReadEnv) (ret : List UInt8) (s : RcState) : ReadResult :=
  if s.moduleRcPos < s.moduleRcLen ∧ ret.length < count then
    let appendCount := min (s.moduleRcLen - s.moduleRcPos) (count - ret.length)
    if copyFaults env.moduleLimit appendCount then (.ok ret, s)
    else
      let ret := ret ++ slice s.moduleRcBuf s.moduleRcPos appendCount
      let s := { s with moduleRcPos := s.moduleRcPos + appendCount }
      (.ok ret, if s.moduleRcPos = s.moduleRcLen then freeModuleRc s else s)
  else (.ok ret, s)

/-- `append_ksu_rc:` in `read_proxy`. -/
def readAppendKsuRc (count : ℕ) (env : ReadEnv) (ret : List UInt8) (s : RcState) : ReadResult :=
  if s.ksuRcPos < ksuRcLen then
    let appendCount := min (ksuRcLen - s.ksuRcPos) (count - ret.length)
    if copyFaults env.ksuLimit appendCount then (.ok ret, s)
    else
      readAppendModuleRc count env (ret ++ slice KERNEL_SU_RC s.ksuRcPos appendCount)
        { s with ksuRcPos := s.ksuRcPos + appendCount }
  else readAppendModuleRc count env ret s

/-- `append_module_rc:` in `read_iter_proxy`. -/
def iterAppendModuleRc (count : ℕ) (env : ReadEnv) (ret : List UInt8) (s : RcState) : ReadResult :=
  if s.moduleRcPos < s.moduleRcLen then
    let appendCount :=
      copyToIter env.moduleLimit (s.moduleRcLen - s.moduleRcPos) (count - ret.length)
    if appendCount = 0 then (.ok ret, s)
    else
      let ret := ret ++ slice s.moduleRcBuf s.moduleRcPos appendCount
      let s := { s with moduleRcPos := s.moduleRcPos + appendCount }
      (.ok ret, if s.moduleRcPos = s.moduleRcLen then freeModuleRc s else s)
  else (.ok ret, s)

/-- `append_ksu_rc:` in `read_iter_proxy`. -/
def iterAppendKsuRc (count : ℕ) (env : ReadEnv) (ret : List UInt8) (s : RcState) : ReadResult :=
  if s.ksuRcPos < ksuRcLen then
    let appendCount := copyToIter env.ksuLimit (ksuRcLen - s.ksuRcPos) (count - ret.length)
    if appendCount = 0 then (.ok ret, s)
    else
      iterAppendModuleRc count env (ret ++ slice KERNEL_SU_RC s.ksuRcPos appendCount)
        { s with ksuRcPos := s.ksuRcPos + appendCount }
  else iterAppendModuleRc count env ret s

/-- The part that `read_proxy` and `read_iter_proxy` share: where to start, and the file's own method. -/
def proxy (appendKsuRc appendModuleRc : List UInt8 → RcState → ReadResult) (original : List UInt8)
    (env : ReadEnv) (s : RcState) : ReadResult :=
  if s.ksuRcPos ≠ 0 ∧ s.ksuRcPos < ksuRcLen then appendKsuRc [] s
  else if ksuRcLen ≤ s.ksuRcPos ∧ s.moduleRcPos < s.moduleRcLen then appendModuleRc [] s
  else
    match env.orig with
    | .error e => (.error e, s)
    | .ok n =>
      if n ≠ 0 then (.ok (slice original s.filePos n), { s with filePos := s.filePos + n })
      else if ksuRcLen ≤ s.ksuRcPos ∧ s.moduleRcLen ≤ s.moduleRcPos then (.ok [], s)
      else appendKsuRc [] s

/-- `read_proxy`. -/
def readProxy (original : List UInt8) (count : ℕ) (env : ReadEnv) (s : RcState) : ReadResult :=
  proxy (readAppendKsuRc count env) (readAppendModuleRc count env) original env s

/-- `read_iter_proxy`: `count` is the room of the iterator. -/
def readIterProxy (original : List UInt8) (count : ℕ) (env : ReadEnv) (s : RcState) : ReadResult :=
  proxy (iterAppendKsuRc count env) (iterAppendModuleRc count env) original env s

/-! ### The hooks -/

/-- `ksu_install_rc_hook`, from `ksu_sys_read` on `init.rc`: the first call loads the module rc, takes
the hooks of `read` and `fstat` out, and installs the proxies. -/
def ksuInstallRcHook (env : RcEnv) (s : RcState) : RcState :=
  if s.rcHooked then s else loadModuleRcOnce env { s with rcHooked := true }

/-- `ksu_sys_fstat` on `init.rc`, while its hook is in: the `st_size` it leaves. -/
def ksuSysFstat (env : RcEnv) (size : ℕ) (s : RcState) : ℕ × RcState :=
  let s := loadModuleRcOnce env s
  (size + (ksuRcLen + s.moduleRcLen), s)

/-- What init does with the open file. -/
inductive RcCall where
  | read (count : ℕ) (env : ReadEnv)
  | readIter (count : ℕ) (env : ReadEnv)
  | fstat
  deriving DecidableEq

/-- What it gets: the result of a read, the size from the hook, or the size without it. -/
inductive RcReply where
  | data (result : Except Errno (List UInt8))
  | hookedSize (size : ℕ)
  | plainSize (size : ℕ)

/-- One call. -/
def RcState.call (original : List UInt8) (env : RcEnv) (s : RcState) : RcCall → RcReply × RcState
  | .read count e =>
    let (result, s) := readProxy original count e (ksuInstallRcHook env s)
    (.data result, s)
  | .readIter count e =>
    let (result, s) := readIterProxy original count e (ksuInstallRcHook env s)
    (.data result, s)
  | .fstat =>
    if s.rcHooked then (.plainSize original.length, s)
    else
      let (size, s) := ksuSysFstat env original.length s
      (.hookedSize size, s)

/-- The bytes a reply delivers. -/
def RcReply.bytes : RcReply → List UInt8
  | .data (.ok bytes) => bytes
  | _ => []

end KernelSU.Runtime
