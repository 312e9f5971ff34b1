import KernelSU.Ksud.BootPatch
import KernelSU.Lib.Runs

/-!
# Patching and restoring a ramdisk

Runs of installing patches and of taking KernelSU out, from a stock ramdisk that has none of KernelSU's names.

* `Kept.patch` — **PROVED**: an installing patch keeps the stock `init` aside;
* `Kept.restored_iff` — **PROVED**: when taking KernelSU out gives the stock ramdisk back;
* `ramdisk_restored_iff` — **PROVED**: a run loses nothing of the stock ramdisk exactly when each patched ramdisk
  that KernelSU is taken out of has its `init` set aside and no option file.
-/

namespace KernelSU.Ksud

open KernelSU.Lib

/-! ### Runs -/

inductive BootStep where
  | patch (args : PatchArgs)
  | restore

/-- A ramdisk, and the `init` that the last installing patch gave it. -/
structure Ramdisk where
  cpio : Cpio
  ksuInit : Option CpioEntry

structure RamdiskEvent where
  before : Ramdisk
  step : BootStep
  after : Ramdisk

/-- One step; `none` where it ends in an error and writes no image. -/
def bootStep (isMagiskPatched : Cpio → Bool) (r : Ramdisk) : BootStep → Option Ramdisk
  | .patch args =>
    match patchRamdisk isMagiskPatched false args r.cpio with
    | .ok cpio => some ⟨cpio, some (.regular 0o755 args.ksuInit)⟩
    | .error _ => none
  | .restore =>
    match rebuildWithoutKsu r.cpio with
    | .ok cpio => some ⟨cpio, r.ksuInit⟩
    | .error _ => none

def ramdiskMachine (isMagiskPatched : Cpio → Bool) (stock : Cpio) : Machine Ramdisk BootStep RamdiskEvent where
  init := ⟨stock, none⟩
  step r s := (bootStep isMagiskPatched r s).map fun r' => (r', ⟨r, s, r'⟩)

/-- What a step leaves is sound: `init.real` is the stock `init`, a patched ramdisk starts KernelSU's `init`, and
taking KernelSU out has given the stock ramdisk back. -/
structure Sound (stock : Cpio) (e : RamdiskEvent) : Prop where
  initReal : e.after.cpio.exists "init.real" → e.after.cpio "init.real" = stock "init"
  init : e.after.cpio.exists "kernelsu.ko" → e.after.cpio "init" = e.after.ksuInit
  restored : e.step = .restore → e.after.cpio = stock

/-- The files besides KernelSU's module that a patch may leave. -/
def optionFiles : List String := ["ksu_config", "force_debuggable", "adb_debug.prop", backupFilename]

/-- If the ramdisk is patched, its `init` is set aside and it has no option file. -/
def Restorable (cpio : Cpio) : Prop :=
  cpio.exists "kernelsu.ko" → cpio.exists "init.real" ∧ ∀ n ∈ optionFiles, cpio.exists n = false

/-! ### What runs keep -/

theorem Cpio.exists_eq_false {cpio : Cpio} {n : String} : cpio.exists n = false ↔ cpio n = none := by
  rw [Cpio.exists, Cpio.entryByName, Option.isSome_eq_false_iff, Option.isNone_iff_eq_none]

theorem Cpio.exists_of_eq_some {cpio : Cpio} {n : String} {entry : CpioEntry} (h : cpio n = some entry) :
    cpio.exists n = true := by
  rw [Cpio.exists, Cpio.entryByName, h]
  rfl

/-- The ramdisk is patched and has the stock one inside. -/
structure KsuPatched (stock : Cpio) (r : Ramdisk) : Prop where
  kernelsuKo : r.cpio.exists "kernelsu.ko" = true
  init : r.cpio "init" = r.ksuInit
  ksuInit : r.ksuInit ≠ none
  initReal : r.cpio "init.real" = stock "init"
  allowShell : r.cpio "allow_shell" = none
  other : ∀ n, n ∉ ksuNames → n ≠ "init" → r.cpio n = stock n

/-- The stock ramdisk, or a patched one with the stock one inside. -/
def Kept (stock : Cpio) (r : Ramdisk) : Prop := r.cpio = stock ∨ KsuPatched stock r

section Steps

variable {stock : Cpio} (hnames : ∀ n ∈ ksuNames, stock n = none)

include hnames

/-- **An installing patch keeps the stock `init` aside.** -/
theorem Kept.patch {r : Ramdisk} {args : PatchArgs} {c' : Cpio} (h : Kept stock r)
    (hpatch : Installed args r.cpio c') : KsuPatched stock ⟨c', some (.regular 0o755 args.ksuInit)⟩ := by
  refine ⟨Cpio.exists_of_eq_some hpatch.kernelsuKo, hpatch.init, Option.some_ne_none _, ?_, hpatch.allowShell, ?_⟩
  · show c' "init.real" = stock "init"
    rcases h with hstock | hpatched
    · have hko : r.cpio.exists "kernelsu.ko" = false := by
        rw [hstock, Cpio.exists_eq_false]
        exact hnames _ (by decide)
      rw [hpatch.initReal, hko, if_neg Bool.false_ne_true, hstock, hnames "init.real" (by decide), Option.or_none]
    · rw [hpatch.initReal, hpatched.kernelsuKo, if_pos rfl]
      exact hpatched.initReal
  · intro n hn hinit
    show c' n = stock n
    rw [hpatch.other n hn hinit]
    rcases h with hstock | hpatched
    · rw [hstock]
    · exact hpatched.other n hn hinit

/-- Taking KernelSU out of the stock ramdisk changes nothing. -/
theorem removed_stock {c' : Cpio} (hremoved : Removed stock c') : c' = stock := by
  funext n
  by_cases hinit : n = "init"
  · rw [hinit, hremoved.init, hnames "init.real" (by decide), Option.none_or]
  by_cases hko : n = "kernelsu.ko"
  · rw [hko, hremoved.kernelsuKo, hnames "kernelsu.ko" (by decide)]
  by_cases hreal : n = "init.real"
  · rw [hreal, hremoved.initReal, hnames "init.real" (by decide)]
  · exact hremoved.other n hinit hko hreal

/-- **When taking KernelSU out gives the stock ramdisk back.** -/
theorem Kept.restored_iff {r : Ramdisk} {c' : Cpio} (h : Kept stock r) (hremoved : Removed r.cpio c') :
    c' = stock ↔ Restorable r.cpio := by
  have hoption : ∀ n ∈ optionFiles, c' n = r.cpio n ∧ stock n = none := by
    intro n hn
    have hne : n ≠ "init" ∧ n ≠ "kernelsu.ko" ∧ n ≠ "init.real" ∧ n ∈ ksuNames := by
      simp only [optionFiles, List.mem_cons, List.not_mem_nil, or_false] at hn
      rcases hn with rfl | rfl | rfl | rfl <;> decide
    exact ⟨hremoved.other n hne.1 hne.2.1 hne.2.2.1, hnames n hne.2.2.2⟩
  constructor
  · rintro rfl hko
    rcases h with hstock | hpatched
    · rw [hstock, Cpio.exists, Cpio.entryByName, hnames "kernelsu.ko" (by decide)] at hko
      cases hko
    · refine ⟨?_, ?_⟩
      · -- without a stock `init` nothing is set aside, and KernelSU's stays behind
        cases hreal : r.cpio "init.real" with
        | some entry => exact Cpio.exists_of_eq_some hreal
        | none =>
          refine absurd ?_ hpatched.ksuInit
          rw [← hpatched.init, ← Option.none_or (o := r.cpio "init"), ← hreal, ← hremoved.init, ← hpatched.initReal,
            hreal]
      · intro n hn
        rw [Cpio.exists_eq_false, ← (hoption n hn).1]
        exact (hoption n hn).2
  · intro hrestorable
    rcases h with hstock | hpatched
    · rw [hstock] at hremoved
      exact removed_stock hnames hremoved
    · obtain ⟨hreal, hfiles⟩ := hrestorable hpatched.kernelsuKo
      funext n
      by_cases hinit : n = "init"
      · rw [hinit, hremoved.init, ← hpatched.initReal]
        exact Option.or_of_isSome hreal
      by_cases hko : n = "kernelsu.ko"
      · rw [hko, hremoved.kernelsuKo, hnames "kernelsu.ko" (by decide)]
      by_cases hn : n = "init.real"
      · rw [hn, hremoved.initReal, hnames "init.real" (by decide)]
      rw [hremoved.other n hinit hko hn]
      by_cases hfile : n ∈ optionFiles
      · rw [Cpio.exists_eq_false.mp (hfiles n hfile), (hoption n hfile).2]
      by_cases hshell : n = "allow_shell"
      · rw [hshell, hpatched.allowShell, hnames "allow_shell" (by decide)]
      refine hpatched.other n ?_ hinit
      simp only [optionFiles, List.mem_cons, List.not_mem_nil, or_false, not_or] at hfile
      simp only [ksuNames, List.mem_cons, List.not_mem_nil, or_false, not_or]
      exact ⟨hko, hn, hfile.1, hshell, hfile.2⟩

/-- The options after which a newly patched ramdisk can be restored: the stock one has an `init`, and the patch adds
neither options nor a backup. -/
theorem restorable_installed_iff {args : PatchArgs} {c' : Cpio} (hpatch : Installed args stock c') :
    Restorable c' ↔ stock.exists "init" = true ∧ (args.noCustomRc = false ∧ args.allowShell = false) ∧
      (args.enableAdbd || args.adbDebugProp.isSome) = false ∧ ((args.backup || args.flash) && args.sha1.isSome) = false := by
  have hko : stock.exists "kernelsu.ko" = false := Cpio.exists_eq_false.mpr (hnames _ (by decide))
  have hreal : c' "init.real" = stock "init" := by
    rw [hpatch.initReal, hko, if_neg Bool.false_ne_true, hnames "init.real" (by decide), Option.or_none]
  have hconfig : c' "ksu_config" = none ↔ args.noCustomRc = false ∧ args.allowShell = false := by
    have hempty : ksuConfig stock = [] := by
      rw [ksuConfig, Cpio.entryByName, hnames "ksu_config" (by decide)]
      rfl
    rw [hpatch.ksuConfig]
    simp only [setKsuConfig, hempty]
    cases args.noCustomRc <;> cases args.allowShell <;>
      simp [applyConfig, Cpio.rm_apply, Cpio.add_apply]
  have hforce : c' "force_debuggable" = none ↔ (args.enableAdbd || args.adbDebugProp.isSome) = false := by
    rw [hpatch.forceDebuggable]
    cases args.enableAdbd || args.adbDebugProp.isSome <;> simp
  have hprop : c' "adb_debug.prop" = none ↔ (args.enableAdbd || args.adbDebugProp.isSome) = false := by
    rw [hpatch.adbDebugProp]
    cases args.enableAdbd || args.adbDebugProp.isSome <;> simp
  have hbackup : c' backupFilename = none ↔ ((args.backup || args.flash) && args.sha1.isSome) = false := by
    rw [hpatch.backup, hko, Bool.not_false, Bool.true_and, hnames backupFilename (by decide), Option.or_none]
    cases args.backup || args.flash <;> cases args.sha1 <;> simp
  have hpatched : c'.exists "kernelsu.ko" = true := Cpio.exists_of_eq_some hpatch.kernelsuKo
  rw [Restorable, hpatched, Cpio.exists, Cpio.entryByName, hreal]
  simp only [optionFiles, List.forall_mem_cons, Cpio.exists_eq_false, hconfig, hforce, hprop, hbackup]
  simp [Cpio.exists, Cpio.entryByName]

/-- What a step does to a ramdisk that has kept the stock one. -/
theorem Kept.step {isMagiskPatched : Cpio → Bool} {r r' : Ramdisk} {s : BootStep} (h : Kept stock r)
    (hstep : bootStep isMagiskPatched r s = some r') :
    (Sound stock ⟨r, s, r'⟩ ↔ (s = .restore → Restorable r.cpio)) ∧
      ((s = .restore → Restorable r.cpio) → Kept stock r') := by
  cases s with
  | patch args =>
    simp only [bootStep] at hstep
    split at hstep
    · rename_i c' hpatch
      obtain rfl := Option.some.inj hstep
      have hpatched := h.patch hnames (patchRamdisk_installed hpatch)
      refine ⟨⟨?_, fun _ => ⟨fun _ => hpatched.initReal, fun _ => hpatched.init, ?_⟩⟩, fun _ => Or.inr hpatched⟩
      · intro _ hs
        cases hs
      · intro hs
        cases hs
    · cases hstep
  | restore =>
    obtain ⟨c', hrebuild, hremoved⟩ := rebuildWithoutKsu_removed r.cpio
    simp only [bootStep, hrebuild] at hstep
    obtain rfl := Option.some.inj hstep
    have hiff := h.restored_iff hnames hremoved
    refine ⟨⟨fun hsound _ => hiff.mp (hsound.restored rfl), ?_⟩, fun hs => Or.inl (hiff.mpr (hs rfl))⟩
    intro hs
    refine ⟨?_, ?_, fun _ => hiff.mpr (hs rfl)⟩
    · intro hreal
      rw [Cpio.exists_eq_false.mpr hremoved.initReal] at hreal
      cases hreal
    · intro hko
      rw [Cpio.exists_eq_false.mpr hremoved.kernelsuKo] at hko
      cases hko

/-- **A run loses nothing of the stock ramdisk** exactly when each patched ramdisk that KernelSU is taken out of has
its `init` set aside and no option file. -/
theorem ramdisk_restored_iff {isMagiskPatched : Cpio → Bool} {trace : List RamdiskEvent} {r : Ramdisk}
    (h : (ramdiskMachine isMagiskPatched stock).Reaches trace r) :
    (∀ e ∈ trace, Sound stock e) ↔ ∀ e ∈ trace, e.step = .restore → Restorable e.before.cpio := by
  -- a run that has met the condition so far has kept the stock ramdisk
  suffices hrun : ((∀ e ∈ trace, Sound stock e) ↔ ∀ e ∈ trace, e.step = .restore → Restorable e.before.cpio) ∧
      ((∀ e ∈ trace, e.step = .restore → Restorable e.before.cpio) → Kept stock r) from hrun.1
  induction h with
  | init => exact ⟨⟨fun _ _ he => absurd he List.not_mem_nil, fun _ _ he => absurd he List.not_mem_nil⟩,
      fun _ => Or.inl rfl⟩
  | step _ hstep ih =>
    obtain ⟨hsound, hkept⟩ := ih
    obtain ⟨r', hboot, heq⟩ := Option.map_eq_some_iff.mp hstep
    obtain ⟨rfl, rfl⟩ := Prod.mk.inj heq
    simp only [List.mem_append, List.mem_singleton, or_imp, forall_and, forall_eq]
    refine ⟨⟨?_, ?_⟩, ?_⟩
    · rintro ⟨hbefore, hlast⟩
      have hconds := hsound.mp hbefore
      exact ⟨hconds, ((hkept hconds).step hnames hboot).1.mp hlast⟩
    · rintro ⟨hconds, hlast⟩
      exact ⟨hsound.mpr hconds, ((hkept hconds).step hnames hboot).1.mpr hlast⟩
    · rintro ⟨hconds, hlast⟩
      exact ((hkept hconds).step hnames hboot).2 hlast

end Steps

/-- A ramdisk of one entry. -/
def ramdiskOf (name : String) : Cpio := fun n => if n = name then some (.regular 0o750 [1]) else none

/-- A patch without options. -/
def plainArgs : PatchArgs where
  ksuInit := [2]
  kernelsuKo := [3]
  noCustomRc := false
  allowShell := false
  enableAdbd := false
  adbDebugProp := none
  backup := false
  flash := false
  sha1 := none

theorem ramdisk_restored_iff_plain : ∃ trace r,
    (ramdiskMachine (fun _ => false) (ramdiskOf "init")).Reaches trace r ∧
      trace.map RamdiskEvent.step = [.patch plainArgs, .restore] ∧ ∀ e ∈ trace, Sound (ramdiskOf "init") e := by
  have hnames : ∀ n ∈ ksuNames, ramdiskOf "init" n = none := by
    simp only [ksuNames, List.forall_mem_cons]
    refine ⟨?_, ?_, ?_, ?_, ?_, ?_, ?_, fun _ hn => absurd hn List.not_mem_nil⟩ <;> decide
  obtain ⟨c₁, hpatch⟩ : ∃ c', patchRamdisk (fun _ => false) false plainArgs (ramdiskOf "init") = .ok c' :=
    patchRamdisk_isOk plainArgs rfl
  obtain ⟨c₂, hrestore, -⟩ := rebuildWithoutKsu_removed c₁
  have hreach := ((Machine.Reaches.init (m := ramdiskMachine (fun _ => false) (ramdiskOf "init"))).step (a := .patch plainArgs)
      (by simp only [ramdiskMachine, bootStep, hpatch]; rfl)).step (a := .restore)
      (by simp only [ramdiskMachine, bootStep, hrestore]; rfl)
  refine ⟨_, _, hreach, rfl, (ramdisk_restored_iff hnames hreach).mpr ?_⟩
  simp only [List.nil_append, List.mem_append, List.mem_singleton, or_imp, forall_and, forall_eq]
  refine ⟨?_, fun _ => ?_⟩
  · intro h
    cases h
  · exact (restorable_installed_iff hnames (patchRamdisk_installed hpatch)).mpr
      ⟨rfl, ⟨rfl, rfl⟩, rfl, rfl⟩

/-- A stock ramdisk without `init`: KernelSU's stays behind when KernelSU is taken out, and the next patch sets it
aside as if it were the stock one. -/
theorem restored_without_init : ∃ trace r,
    (ramdiskMachine (fun _ => false) (ramdiskOf "fstab")).Reaches trace r ∧
      trace.map RamdiskEvent.step = [.patch plainArgs, .restore, .patch plainArgs] ∧
      r.cpio "init.real" = some (.regular 0o755 plainArgs.ksuInit) ∧ ¬∀ e ∈ trace, Sound (ramdiskOf "fstab") e := by
  obtain ⟨c₁, hpatch₁⟩ : ∃ c', patchRamdisk (fun _ => false) false plainArgs (ramdiskOf "fstab") = .ok c' :=
    patchRamdisk_isOk plainArgs rfl
  obtain ⟨c₂, hrestore, hremoved⟩ := rebuildWithoutKsu_removed c₁
  obtain ⟨c₃, hpatch₃⟩ : ∃ c', patchRamdisk (fun _ => false) false plainArgs c₂ = .ok c' :=
    patchRamdisk_isOk plainArgs rfl
  have hinstalled₁ := patchRamdisk_installed hpatch₁
  have hinstalled₃ := patchRamdisk_installed hpatch₃
  have hreach := (((Machine.Reaches.init (m := ramdiskMachine (fun _ => false) (ramdiskOf "fstab"))).step
      (a := .patch plainArgs) (by simp only [ramdiskMachine, bootStep, hpatch₁]; rfl)).step (a := .restore)
      (by simp only [ramdiskMachine, bootStep, hrestore]; rfl)).step (a := .patch plainArgs)
      (by simp only [ramdiskMachine, bootStep, hpatch₃]; rfl)
  have hreal₁ : c₁ "init.real" = none := hinstalled₁.initReal
  have hinit₂ : c₂ "init" = some (.regular 0o755 plainArgs.ksuInit) := by
    rw [hremoved.init, hreal₁, Option.none_or, hinstalled₁.init]
  have hko₂ : c₂.exists "kernelsu.ko" = false := Cpio.exists_eq_false.mpr hremoved.kernelsuKo
  have hreal₃ : c₃ "init.real" = some (.regular 0o755 plainArgs.ksuInit) := by
    rw [hinstalled₃.initReal, hko₂, if_neg Bool.false_ne_true, hinit₂]
    rfl
  refine ⟨_, _, hreach, rfl, hreal₃, ?_⟩
  intro hsound
  have hlast : c₃ "init.real" = ramdiskOf "fstab" "init" :=
    (hsound _ List.mem_concat_self).initReal (Cpio.exists_of_eq_some hreal₃)
  rw [hreal₃] at hlast
  cases hlast

end KernelSU.Ksud
