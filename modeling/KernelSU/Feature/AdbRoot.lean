import KernelSU.Lib.Errno
import KernelSU.Lib.Memory
import KernelSU.Lib.Utf8

/-!
# `kernel/feature/adb_root.c`: the environment of `adbd`

`setup_ld_preload` puts two strings below the stack pointer of a task that executes `adbd`, reads its environment in
batches of sixteen pointers, and writes a longer one below the strings.

An unsigned long has 64 bits.  What the allocations and the user accesses of one call do is an argument; a copy never
goes past the end of the user addresses, and moves the bytes in front of the one it stops at.  The two loops and the
writes to the pointer buffer are checked: a run out of fuel and a write outside the buffer are results of their own.

* `copyToUser_full`, `copyFromUser_spec` — **PROVED**: what a copy leaves;
* `scanEnv_of_zero`, `scanEnv_of_nonzero` — **PROVED**: the first zero of a batch.
-/

namespace KernelSU.Feature

open KernelSU.Lib KernelSU.Lib.Bytes

/-! ### User memory -/

/-- What the allocations and copies of one call do.  `krealloc` tells which allocations succeed and `fresh` what the new
memory holds; each copy moves no more bytes than its number says. -/
structure Accesses where
  limit : ℕ
  limit_le : limit ≤ 2 ^ 63
  krealloc : ℕ → Bool
  fresh : ℕ → ℕ → UInt8
  preloadCopied : ℕ
  libraryPathCopied : ℕ
  batchCopied : ℕ → ℕ
  envCopied : ℕ

/-- `copy_to_user`: the number of bytes that were not copied, and the memory. -/
def copyToUser (limit : ℕ) (mem : Memory) (dst : ℕ) (bytes : List UInt8) (copied : ℕ) : ℕ × Memory :=
  if dst + bytes.length ≤ limit then
    (bytes.length - min copied bytes.length, mem.store dst (bytes.take copied))
  else (bytes.length, mem)

/-- `copy_from_user`: the number of bytes that were not copied, and the destination, where these are zero. -/
def copyFromUser (limit : ℕ) (mem : Memory) (src n copied : ℕ) : ℕ × List UInt8 :=
  if src + n ≤ limit then
    (n - min copied n, mem.bytesAt src (min copied n) ++ List.replicate (n - min copied n) 0)
  else (n, List.replicate n 0)

/-- **A full copy** stores the bytes. -/
theorem copyToUser_full {limit : ℕ} {mem : Memory} {dst copied : ℕ} {bytes : List UInt8} (hbytes : 0 < bytes.length)
    (h : (copyToUser limit mem dst bytes copied).1 = 0) :
    dst + bytes.length ≤ limit ∧ (copyToUser limit mem dst bytes copied).2 = mem.store dst bytes := by
  rw [copyToUser] at h ⊢
  split_ifs at h ⊢ with hlimit
  · have hcopied : bytes.length ≤ copied := by
      dsimp only at h
      omega
    exact ⟨hlimit, by rw [List.take_of_length_le hcopied]⟩
  · exact absurd h hbytes.ne'

/-- A copy from user memory fills the destination, as far as it goes with what the memory holds. -/
theorem copyFromUser_spec (limit : ℕ) (mem : Memory) (src n copied : ℕ) :
    (copyFromUser limit mem src n copied).2.length = n ∧
      ∃ k, k ≤ n ∧ (copyFromUser limit mem src n copied).1 = n - k ∧ (0 < k → src + n ≤ limit) ∧
        (copyFromUser limit mem src n copied).2.take k = mem.bytesAt src k := by
  rw [copyFromUser]
  split_ifs with hlimit
  · refine ⟨?_, min copied n, Nat.min_le_right _ _, rfl, fun _ => hlimit, ?_⟩
    · rw [List.length_append, Memory.bytesAt_length, List.length_replicate]
      omega
    · exact List.take_left' (Memory.bytesAt_length _ _ _)
  · refine ⟨List.length_replicate, 0, Nat.zero_le n, rfl, fun h => absurd h (Nat.lt_irrefl 0), rfl⟩

/-! ### The pointer buffer -/

/-- How a call ends that does not return. -/
inductive Stuck where
  | outOfFuel
  | overrun
  deriving DecidableEq, Repr

/-- `kReadEnvBatch`. -/
def kReadEnvBatch : ℕ := 16

/-- `kPtrSize`. -/
def kPtrSize : ℕ := 8

/-- `krealloc`, where it succeeds: the buffer of `size` bytes begins with the old one. -/
def krealloc (fresh : ℕ → UInt8) (buf : List UInt8) (size : ℕ) : List UInt8 :=
  buf.take size ++ (List.range (size - buf.length)).map fresh

theorem krealloc_length (fresh : ℕ → UInt8) (buf : List UInt8) (size : ℕ) : (krealloc fresh buf size).length = size := by
  rw [krealloc, List.length_append, List.length_take, List.length_map, List.length_range]
  omega

/-- A write to the buffer. -/
def writeAt (buf : List UInt8) (offset : ℕ) (bytes : List UInt8) : Except Stuck (List UInt8) :=
  if offset + bytes.length ≤ buf.length then .ok (patch buf offset bytes) else .error .overrun

/-- `tmp_env_p[index]`. -/
def slot (buf : List UInt8) (index : ℕ) : ℕ := decodeLE (slice buf (index * kPtrSize) kPtrSize)

/-- The inner loop: how many of at most `remaining` more pointers stand in front of a zero, and whether there is one. -/
def scanEnv (buf : List UInt8) (envCount : ℕ) : ℕ → ℕ → ℕ × Bool
  | 0, newEnvCount => (newEnvCount, false)
  | remaining + 1, newEnvCount =>
    if slot buf (newEnvCount + envCount) = 0 then (newEnvCount, true)
    else scanEnv buf envCount remaining (newEnvCount + 1)

/-- **The first zero** of a batch. -/
theorem scanEnv_of_zero {buf : List UInt8} {envCount stop : ℕ} (hstop : slot buf (stop + envCount) = 0)
    (hfirst : ∀ i < stop, slot buf (i + envCount) ≠ 0) {remaining start : ℕ} (hstart : start ≤ stop)
    (hremaining : stop < start + remaining) : scanEnv buf envCount remaining start = (stop, true) := by
  induction remaining generalizing start with
  | zero => omega
  | succ remaining ih =>
    rw [scanEnv]
    by_cases hhere : start = stop
    · rw [hhere, if_pos hstop]
    · rw [if_neg (hfirst start (by omega))]
      exact ih (by omega) (by omega)

/-- A batch without a zero. -/
theorem scanEnv_of_nonzero {buf : List UInt8} {envCount remaining start : ℕ}
    (h : ∀ i, start ≤ i → i < start + remaining → slot buf (i + envCount) ≠ 0) :
    scanEnv buf envCount remaining start = (start + remaining, false) := by
  induction remaining generalizing start with
  | zero => rfl
  | succ remaining ih =>
    rw [scanEnv, if_neg (h start (Nat.le_refl _) (by omega)), ih fun i hi hlt => h i (by omega) (by omega),
      Nat.add_right_comm]
    rfl

/-! ### `setup_ld_preload` -/

/-- The registers that are read: the stack pointer and the third argument, `envp`. -/
structure PtRegs where
  sp : UInt64
  parm3 : UInt64
  deriving DecidableEq, Repr

/-- `kLdPreload`, with its NUL. -/
def kLdPreload : List UInt8 := asBytes "LD_PRELOAD=/data/adb/ksu/lib/libadbroot.so\x00"

/-- `kLdLibraryPath`, with its NUL. -/
def kLdLibraryPath : List UInt8 := asBytes "LD_LIBRARY_PATH=/data/adb/ksu/lib\x00"

/-- `a - b` of unsigned longs. -/
def ulongSub (a b : ℕ) : ℕ := (a + 2 ^ 64 - b) % 2 ^ 64

/-- `ALIGN_DOWN(stackp - size, 8)`. -/
def pushDown (stackp size : ℕ) : ℕ := ulongSub stackp size - ulongSub stackp size % 8

/-- The loop that reads the environment: the buffer and the number of pointers in front of the zero. -/
def readEnv (acc : Accesses) (mem : Memory) (envp : ℕ) :
    ℕ → ℕ → List UInt8 → ℕ → Except Stuck (Except Errno (List UInt8 × ℕ))
  | 0, _, _, _ => .error .outOfFuel
  | fuel + 1, batch, tmpEnv, envCount =>
    if acc.krealloc batch = false then .ok (.error .ENOMEM)
    else
      let tmpEnv := krealloc (acc.fresh batch) tmpEnv ((envCount + kReadEnvBatch + 2) * kPtrSize % 2 ^ 64)
      let copy := copyFromUser acc.limit mem ((envp + envCount * kPtrSize) % 2 ^ 64) (kReadEnvBatch * kPtrSize)
        (acc.batchCopied batch)
      match writeAt tmpEnv (envCount * kPtrSize) copy.2 with
      | .error stuck => .error stuck
      | .ok tmpEnv =>
        let readCount := kReadEnvBatch * kPtrSize - copy.1
        let scan := scanEnv tmpEnv envCount (readCount / kPtrSize) 0
        if scan.2 then .ok (.ok (tmpEnv, envCount + scan.1))
        else if readCount % kPtrSize ≠ 0 then .ok (.error .EFAULT)
        else if copy.1 ≠ 0 then .ok (.error .EFAULT)
        else readEnv acc mem envp fuel (batch + 1) tmpEnv (envCount + scan.1)

/-- The three pointers behind the old ones. -/
def appendPointers (buf : List UInt8) (envCount ldPreloadP ldLibraryPathP : ℕ) : Except Stuck (List UInt8) := do
  let buf ← writeAt buf (envCount * kPtrSize) (encodeLE 8 ldPreloadP)
  let buf ← writeAt buf ((envCount + 1) * kPtrSize) (encodeLE 8 ldLibraryPathP)
  writeAt buf ((envCount + 2) * kPtrSize) (encodeLE 8 0)

/-- `setup_ld_preload`: its result, the registers and the user memory. -/
def setupLdPreload (untaggedAddr : UInt64 → UInt64) (acc : Accesses) (fuel : ℕ) (regs : PtRegs) (mem : Memory) :
    Except Stuck (ℤ × PtRegs × Memory) :=
  let ldPreloadP := pushDown regs.sp.toNat kLdPreload.length
  let preload := copyToUser acc.limit mem ldPreloadP kLdPreload acc.preloadCopied
  if preload.1 ≠ 0 then .ok (Errno.EFAULT.val, regs, preload.2)
  else
    let ldLibraryPathP := pushDown ldPreloadP kLdLibraryPath.length
    let libraryPath := copyToUser acc.limit preload.2 ldLibraryPathP kLdLibraryPath acc.libraryPathCopied
    if libraryPath.1 ≠ 0 then .ok (Errno.EFAULT.val, regs, libraryPath.2)
    else match readEnv acc libraryPath.2 (untaggedAddr regs.parm3).toNat fuel 0 [] 0 with
      | .error stuck => .error stuck
      | .ok (.error e) => .ok (e.val, regs, libraryPath.2)
      | .ok (.ok (tmpEnv, envCount)) => match appendPointers tmpEnv envCount ldPreloadP ldLibraryPathP with
        | .error stuck => .error stuck
        | .ok tmpEnv =>
          let totalSize := (envCount + 3) * kPtrSize % 2 ^ 64
          let stackp := ulongSub ldLibraryPathP totalSize
          let env := copyToUser acc.limit libraryPath.2 stackp (tmpEnv.take totalSize) acc.envCopied
          if env.1 ≠ 0 then .ok (Errno.EFAULT.val, regs, env.2)
          else .ok (0, { regs with parm3 := UInt64.ofNat stackp }, env.2)

/-- What `do_ksu_adb_root_handle_execve` leaves; `escaped` is the call of `escape_to_root_for_adb_root`. -/
structure HandleExecve where
  ret : ℤ
  regs : PtRegs
  mem : Memory
  escaped : Bool

/-- `do_ksu_adb_root_handle_execve`, with the results of `is_exec_adbd` and `is_libadbroot_ok`. -/
def doKsuAdbRootHandleExecve (isExecAdbd isLibadbrootOk : ℤ) (untaggedAddr : UInt64 → UInt64) (acc : Accesses)
    (fuel : ℕ) (regs : PtRegs) (mem : Memory) : Except Stuck HandleExecve :=
  if isExecAdbd ≠ 1 then .ok ⟨0, regs, mem, false⟩
  else if isLibadbrootOk ≠ 1 then .ok ⟨0, regs, mem, false⟩
  else match setupLdPreload untaggedAddr acc fuel regs mem with
    | .error stuck => .error stuck
    | .ok (ret, regs, mem) => if ret ≠ 0 then .ok ⟨ret, regs, mem, false⟩ else .ok ⟨0, regs, mem, true⟩

end KernelSU.Feature
