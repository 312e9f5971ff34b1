import KernelSU.Lib.Utf8
import Mathlib.Logic.Function.Basic

/-!
# KernelSU in a ramdisk

What the patcher does to the entries of a ramdisk, and how it takes KernelSU out again.  A ramdisk is a map from
names to entries.

* `patchRamdisk` — the ramdisk part of `patch`;
* `rebuildWithoutKsu` — `rebuild_without_ksu`;
* `patchRamdisk_installed` — **PROVED**: which entries an installing patch leaves, name by name;
* `rebuildWithoutKsu_removed` — **PROVED**: which entries taking KernelSU out leaves.
-/

namespace KernelSU.Ksud

open KernelSU.Lib

/-! ### Ramdisks -/

structure CpioEntry where
  mode : ℕ
  data : Option (List UInt8)
deriving DecidableEq

def CpioEntry.regular (mode : ℕ) (data : List UInt8) : CpioEntry := ⟨mode, some data⟩

/-- The entries of a ramdisk by name. -/
abbrev Cpio := String → Option CpioEntry

namespace Cpio

def entryByName (cpio : Cpio) (name : String) : Option CpioEntry := cpio name

def add (cpio : Cpio) (name : String) (entry : CpioEntry) : Cpio := Function.update cpio name (some entry)

def rm (cpio : Cpio) (name : String) : Cpio := Function.update cpio name none

end Cpio

def Cpio.exists (cpio : Cpio) (name : String) : Bool := (cpio.entryByName name).isSome

def Cpio.mv (cpio : Cpio) (src dst : String) : Except String Cpio :=
  match cpio.entryByName src with
  | none => .error "no such entry"
  | some entry => .ok ((cpio.rm src).add dst entry)

/-! ### Patching -/

/-- The options of `patch` that reach the ramdisk, the files it installs and what `do_backup` finds out. -/
structure PatchArgs where
  ksuInit : List UInt8
  kernelsuKo : List UInt8
  noCustomRc : Bool
  allowShell : Bool
  enableAdbd : Bool
  adbDebugProp : Option String
  backup : Bool
  flash : Bool
  /-- the checksum of the stock image, if the backup works -/
  sha1 : Option (List UInt8)

def backupFilename : String := "stock_image.sha1"

/-- `do_backup`; a failure is printed and no more. -/
def doBackup (args : PatchArgs) (cpio : Cpio) : Cpio :=
  match args.sha1 with
  | none => cpio
  | some sha1 => cpio.add backupFilename (.regular 0o755 sha1)

/-- Keeping the stock `init`, unless KernelSU is there already. -/
def setInitAside (isKernelsuPatched : Bool) (cpio : Cpio) : Except String Cpio :=
  if !isKernelsuPatched && cpio.exists "init" then cpio.mv "init" "init.real" else .ok cpio

/-- The files that KernelSU adds, and the backup. -/
def addKernelSU (args : PatchArgs) (isKernelsuPatched : Bool) (cpio : Cpio) : Cpio :=
  let cpio := cpio.add "init" (.regular 0o755 args.ksuInit)
  let cpio := cpio.add "kernelsu.ko" (.regular 0o755 args.kernelsuKo)
  if args.backup || (!isKernelsuPatched && args.flash) then doBackup args cpio else cpio

/-- The part of `patch` that installs. -/
def install (isMagiskPatched : Cpio → Bool) (args : PatchArgs) (cpio : Cpio) : Except String Cpio :=
  if isMagiskPatched cpio then .error "Cannot work with Magisk patched image"
  else (setInitAside (cpio.exists "kernelsu.ko") cpio).map (addKernelSU args (cpio.exists "kernelsu.ko"))

/-- The words of `ksu_config`. -/
def ksuConfig (cpio : Cpio) : List (List Char) :=
  match ((cpio.entryByName "ksu_config").bind CpioEntry.data).bind fromUtf8 with
  | some v => v.splitOn ' '
  | none => []

/-- `apply_config`. -/
def applyConfig (value : String) (add : Bool) (config : List (List Char)) : List (List Char) :=
  let hasValue := config.any (· == value.toList)
  if add then
    if hasValue then config else config ++ [value.toList]
  else
    if hasValue then config.filter (· != value.toList) else config

def setKsuConfig (args : PatchArgs) (cpio : Cpio) : Cpio :=
  let config := applyConfig "allow_shell=1" args.allowShell
    (applyConfig "norc=1" args.noCustomRc (ksuConfig cpio))
  let cpio :=
    if config.isEmpty then cpio.rm "ksu_config"
    else cpio.add "ksu_config"
      (.regular 0o644 (([' '].intercalate config).flatMap String.utf8EncodeChar))
  -- the configuration file of older versions
  cpio.rm "allow_shell"

/-- `adb_debug.prop`. -/
def adbProps (args : PatchArgs) : List UInt8 :=
  ((if args.enableAdbd then "ro.debuggable=1\nro.force.debuggable=1\nro.adb.secure=0\n" else "")
    ++ args.adbDebugProp.getD "").toList.flatMap String.utf8EncodeChar

def setAdbProps (args : PatchArgs) (cpio : Cpio) : Cpio :=
  if args.enableAdbd || args.adbDebugProp.isSome then
    (cpio.add "force_debuggable" (.regular 0o644 [])).add "adb_debug.prop" (.regular 0o644 (adbProps args))
  else
    let cpio := if cpio.exists "force_debuggable" then cpio.rm "force_debuggable" else cpio
    if cpio.exists "adb_debug.prop" then cpio.rm "adb_debug.prop" else cpio

/-- The ramdisk part of `patch`. -/
def patchRamdisk (isMagiskPatched : Cpio → Bool) (noInstall : Bool) (args : PatchArgs) (cpio : Cpio) :
    Except String Cpio :=
  (if noInstall then .ok cpio else install isMagiskPatched args cpio).map
    fun cpio => setAdbProps args (setKsuConfig args cpio)

/-- The ramdisk part of `rebuild_without_ksu`. -/
def rebuildWithoutKsu (cpio : Cpio) : Except String Cpio :=
  let cpio := cpio.rm "kernelsu.ko"
  if cpio.exists "init.real" then cpio.mv "init.real" "init" else .ok cpio

/-! ### What the steps leave -/

/-- The names that KernelSU puts into a ramdisk besides `init`. -/
def ksuNames : List String :=
  ["kernelsu.ko", "init.real", "ksu_config", "allow_shell", "force_debuggable", "adb_debug.prop", backupFilename]

/-- The ramdisk `c'` is what an installing patch makes of `c`. -/
structure Installed (args : PatchArgs) (c c' : Cpio) : Prop where
  init : c' "init" = some (.regular 0o755 args.ksuInit)
  kernelsuKo : c' "kernelsu.ko" = some (.regular 0o755 args.kernelsuKo)
  initReal : c' "init.real" = if c.exists "kernelsu.ko" then c "init.real" else (c "init").or (c "init.real")
  backup : c' backupFilename =
    if args.backup || (!c.exists "kernelsu.ko" && args.flash) then
      (args.sha1.map (CpioEntry.regular 0o755)).or (c backupFilename)
    else c backupFilename
  ksuConfig : c' "ksu_config" = setKsuConfig args c "ksu_config"
  allowShell : c' "allow_shell" = none
  forceDebuggable : c' "force_debuggable" =
    if args.enableAdbd || args.adbDebugProp.isSome then some (.regular 0o644 []) else none
  adbDebugProp : c' "adb_debug.prop" =
    if args.enableAdbd || args.adbDebugProp.isSome then some (.regular 0o644 (adbProps args)) else none
  other : ∀ n, n ∉ ksuNames → n ≠ "init" → c' n = c n

/-- The ramdisk `c'` is what taking KernelSU out makes of `c`. -/
structure Removed (c c' : Cpio) : Prop where
  init : c' "init" = (c "init.real").or (c "init")
  kernelsuKo : c' "kernelsu.ko" = none
  initReal : c' "init.real" = none
  other : ∀ n, n ≠ "init" → n ≠ "kernelsu.ko" → n ≠ "init.real" → c' n = c n

namespace Cpio

theorem add_apply (cpio : Cpio) (name : String) (entry : CpioEntry) (n : String) :
    cpio.add name entry n = if n = name then some entry else cpio n := by
  rw [add, Function.update_apply]

theorem rm_apply (cpio : Cpio) (name n : String) : cpio.rm name n = if n = name then none else cpio n := by
  rw [rm, Function.update_apply]

end Cpio

theorem doBackup_apply (args : PatchArgs) (cpio : Cpio) (n : String) :
    doBackup args cpio n =
      if n = backupFilename then (args.sha1.map (CpioEntry.regular 0o755)).or (cpio n) else cpio n := by
  cases hsha : args.sha1 with
  | none => simp [doBackup, hsha]
  | some sha1 => simp [doBackup, hsha, Cpio.add_apply]

theorem setKsuConfig_apply (args : PatchArgs) (cpio : Cpio) {n : String} (hconfig : n ≠ "ksu_config")
    (hshell : n ≠ "allow_shell") : setKsuConfig args cpio n = cpio n := by
  simp only [setKsuConfig]
  split_ifs
  · simp [Cpio.rm_apply, hconfig, hshell]
  · simp [Cpio.rm_apply, Cpio.add_apply, hconfig, hshell]

theorem setAdbProps_apply (args : PatchArgs) (cpio : Cpio) {n : String} (hforce : n ≠ "force_debuggable")
    (hprop : n ≠ "adb_debug.prop") : setAdbProps args cpio n = cpio n := by
  simp only [setAdbProps]
  split_ifs <;> simp [Cpio.rm_apply, Cpio.add_apply, hforce, hprop]

theorem setAdbProps_forceDebuggable (args : PatchArgs) (cpio : Cpio) :
    setAdbProps args cpio "force_debuggable" =
      if args.enableAdbd || args.adbDebugProp.isSome then some (.regular 0o644 []) else none := by
  simp only [setAdbProps]
  split_ifs <;> simp_all [Cpio.rm_apply, Cpio.add_apply, Cpio.exists, Cpio.entryByName]

theorem setAdbProps_adbDebugProp (args : PatchArgs) (cpio : Cpio) :
    setAdbProps args cpio "adb_debug.prop" =
      if args.enableAdbd || args.adbDebugProp.isSome then some (.regular 0o644 (adbProps args)) else none := by
  simp only [setAdbProps]
  split_ifs <;> simp_all [Cpio.rm_apply, Cpio.add_apply, Cpio.exists, Cpio.entryByName]

theorem setInitAside_ok {cpio c' : Cpio} {patched : Bool} (h : setInitAside patched cpio = .ok c') :
    c' "init.real" = (if patched then cpio "init.real" else (cpio "init").or (cpio "init.real")) ∧
      ∀ n, n ≠ "init" → n ≠ "init.real" → c' n = cpio n := by
  unfold setInitAside at h
  cases hinit : cpio "init" with
  | none =>
    have hexists : cpio.exists "init" = false := by rw [Cpio.exists, Cpio.entryByName, hinit]; rfl
    rw [hexists, Bool.and_false, if_neg Bool.false_ne_true] at h
    obtain rfl := Except.ok.inj h
    simp
  | some entry =>
    have hexists : cpio.exists "init" = true := by rw [Cpio.exists, Cpio.entryByName, hinit]; rfl
    cases patched with
    | true =>
      obtain rfl := Except.ok.inj h
      simp
    | false =>
      rw [hexists, Bool.not_false, Bool.true_and, if_pos rfl, Cpio.mv, Cpio.entryByName, hinit] at h
      obtain rfl := Except.ok.inj h
      refine ⟨by simp [Cpio.add_apply], ?_⟩
      intro n hn hreal
      simp [Cpio.add_apply, Cpio.rm_apply, hn, hreal]

theorem addKernelSU_apply (args : PatchArgs) (patched : Bool) (cpio : Cpio) {n : String}
    (hbackup : n ≠ backupFilename) :
    addKernelSU args patched cpio n =
      if n = "kernelsu.ko" then some (.regular 0o755 args.kernelsuKo)
      else if n = "init" then some (.regular 0o755 args.ksuInit)
      else cpio n := by
  simp only [addKernelSU]
  split_ifs <;> simp_all [doBackup_apply, Cpio.add_apply]

theorem addKernelSU_backup (args : PatchArgs) (patched : Bool) (cpio : Cpio) :
    addKernelSU args patched cpio backupFilename =
      if args.backup || (!patched && args.flash) then (args.sha1.map (CpioEntry.regular 0o755)).or (cpio backupFilename)
      else cpio backupFilename := by
  have hko : backupFilename ≠ "kernelsu.ko" := by decide
  have hinit : backupFilename ≠ "init" := by decide
  simp only [addKernelSU]
  split_ifs <;> simp [doBackup_apply, Cpio.add_apply, hko, hinit]

theorem setKsuConfig_congr (args : PatchArgs) {c d : Cpio} (h : c "ksu_config" = d "ksu_config") :
    setKsuConfig args c "ksu_config" = setKsuConfig args d "ksu_config" := by
  have hconfig : ksuConfig c = ksuConfig d := by rw [ksuConfig, ksuConfig, Cpio.entryByName, Cpio.entryByName, h]
  simp only [setKsuConfig, hconfig]
  split_ifs <;> simp [Cpio.rm_apply, Cpio.add_apply]

theorem setKsuConfig_allowShell (args : PatchArgs) (cpio : Cpio) : setKsuConfig args cpio "allow_shell" = none :=
  (Cpio.rm_apply _ _ _).trans (if_pos rfl)

/-- A successful patch is the three parts one after the other. -/
theorem patchRamdisk_ok {isMagiskPatched : Cpio → Bool} {args : PatchArgs} {c c' : Cpio}
    (h : patchRamdisk isMagiskPatched false args c = .ok c') :
    ∃ aside, setInitAside (c.exists "kernelsu.ko") c = .ok aside ∧
      c' = setAdbProps args (setKsuConfig args (addKernelSU args (c.exists "kernelsu.ko") aside)) := by
  simp only [patchRamdisk, Bool.false_eq_true, if_false, install] at h
  split_ifs at h
  · cases h
  · cases haside : setInitAside (c.exists "kernelsu.ko") c with
    | error e =>
      rw [haside] at h
      cases h
    | ok aside =>
      rw [haside] at h
      exact ⟨aside, rfl, (Except.ok.inj h).symm⟩

/-- **What an installing patch leaves.** -/
theorem patchRamdisk_installed {isMagiskPatched : Cpio → Bool} {args : PatchArgs} {c c' : Cpio}
    (h : patchRamdisk isMagiskPatched false args c = .ok c') : Installed args c c' := by
  obtain ⟨aside, haside, rfl⟩ := patchRamdisk_ok h
  obtain ⟨hreal, hother⟩ := setInitAside_ok haside
  have hkeep : ∀ n, n ≠ "ksu_config" → n ≠ "allow_shell" → n ≠ "force_debuggable" → n ≠ "adb_debug.prop" →
      setAdbProps args (setKsuConfig args (addKernelSU args (c.exists "kernelsu.ko") aside)) n
        = addKernelSU args (c.exists "kernelsu.ko") aside n := by
    intro n hconfig hshell hforce hprop
    rw [setAdbProps_apply _ _ hforce hprop, setKsuConfig_apply _ _ hconfig hshell]
  constructor
  · rw [hkeep _ (by decide) (by decide) (by decide) (by decide), addKernelSU_apply _ _ _ (by decide)]
    rfl
  · rw [hkeep _ (by decide) (by decide) (by decide) (by decide), addKernelSU_apply _ _ _ (by decide)]
    rfl
  · rw [hkeep _ (by decide) (by decide) (by decide) (by decide), addKernelSU_apply _ _ _ (by decide)]
    exact hreal
  · rw [hkeep _ (by decide) (by decide) (by decide) (by decide), addKernelSU_backup,
      hother _ (by decide) (by decide)]
  · rw [setAdbProps_apply _ _ (by decide) (by decide)]
    refine setKsuConfig_congr args ?_
    rw [addKernelSU_apply _ _ _ (by decide)]
    exact hother _ (by decide) (by decide)
  · rw [setAdbProps_apply _ _ (by decide) (by decide), setKsuConfig_allowShell]
  · exact setAdbProps_forceDebuggable _ _
  · exact setAdbProps_adbDebugProp _ _
  · intro n hn hinit
    simp only [ksuNames, List.mem_cons, List.not_mem_nil, or_false, not_or] at hn
    obtain ⟨hko, hreal', hconfig, hshell, hforce, hprop, hbackup⟩ := hn
    rw [hkeep n hconfig hshell hforce hprop, addKernelSU_apply _ _ _ hbackup, if_neg hko, if_neg hinit,
      hother n hinit hreal']

/-- Only Magisk's image is refused. -/
theorem patchRamdisk_isOk {isMagiskPatched : Cpio → Bool} (args : PatchArgs) {c : Cpio}
    (h : isMagiskPatched c = false) : ∃ c', patchRamdisk isMagiskPatched false args c = .ok c' := by
  have haside : ∃ aside, setInitAside (c.exists "kernelsu.ko") c = .ok aside := by
    unfold setInitAside
    split_ifs with hmove
    · obtain ⟨entry, hentry⟩ := Option.isSome_iff_exists.mp ((Bool.and_eq_true _ _).mp hmove).2
      rw [Cpio.mv, hentry]
      exact ⟨_, rfl⟩
    · exact ⟨c, rfl⟩
  obtain ⟨aside, haside⟩ := haside
  simp only [patchRamdisk, install, h, haside]
  exact ⟨_, rfl⟩

/-- **What taking KernelSU out leaves.**  It does not fail. -/
theorem rebuildWithoutKsu_removed (c : Cpio) : ∃ c', rebuildWithoutKsu c = .ok c' ∧ Removed c c' := by
  have hentry : (c.rm "kernelsu.ko") "init.real" = c "init.real" := by simp [Cpio.rm_apply]
  cases hreal : c "init.real" with
  | none =>
    have hexists : (c.rm "kernelsu.ko").exists "init.real" = false := by
      rw [Cpio.exists, Cpio.entryByName, hentry, hreal]
      rfl
    refine ⟨c.rm "kernelsu.ko", by simp only [rebuildWithoutKsu, hexists]; rfl, ?_, ?_, ?_, ?_⟩
    · simp [Cpio.rm_apply, hreal]
    · simp [Cpio.rm_apply]
    · rw [hentry, hreal]
    · intro n hinit hko hn
      simp [Cpio.rm_apply, hko]
  | some entry =>
    have hexists : (c.rm "kernelsu.ko").exists "init.real" = true := by
      rw [Cpio.exists, Cpio.entryByName, hentry, hreal]
      rfl
    have hmv : (c.rm "kernelsu.ko").mv "init.real" "init"
        = .ok (((c.rm "kernelsu.ko").rm "init.real").add "init" entry) := by
      rw [Cpio.mv, Cpio.entryByName, hentry, hreal]
    refine ⟨_, by simp only [rebuildWithoutKsu, hexists, hmv]; rfl, ?_, ?_, ?_, ?_⟩
    · simp [Cpio.add_apply, hreal]
    · simp [Cpio.add_apply, Cpio.rm_apply]
    · simp [Cpio.add_apply, Cpio.rm_apply]
    · intro n hinit hko hn
      simp [Cpio.add_apply, Cpio.rm_apply, hinit, hko, hn]

end KernelSU.Ksud
