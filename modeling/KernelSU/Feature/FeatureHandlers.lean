import KernelSU.Feature.SelinuxHide
import KernelSU.Policy.FeatureRegistry

/-!
# The features of the kernel

The handlers that `kernel/feature/` registers: four flags, and the hiding of SELinux, which has more to do when it is
set and may fail.

* `ksuGetFeature_enabled` — **PROVED**: reading a feature tells whether it is on;
* `enabled_ksuSetFeature` — **PROVED**: setting a feature turns it on or off, whatever it returns, and no other;
* `ksuSetFeature_unsupported` — **PROVED**: setting a feature that the kernel does not have changes nothing.
-/

namespace KernelSU.Feature

open KernelSU.Lib KernelSU.Policy Errno

/-- The state behind the features. -/
structure KernelFeatures where
  suCompatEnabled : Bool
  kernelUmountEnabled : Bool
  sulogEnabled : Bool
  adbRoot : Bool
  selinuxHide : SelinuxHide
  deriving DecidableEq

/-- The handlers of a flag. -/
def flagHandler (featureId : UInt32) (name : String) (get : KernelFeatures → Bool)
    (set : Bool → KernelFeatures → KernelFeatures) : FeatureHandler Found KernelFeatures where
  featureId := featureId
  name := name
  getHandler := some fun s => .ok (if get s then 1 else 0)
  setHandler := some fun _ value s => (none, set (value ≠ 0) s)

/-- `su_compat_handler`. -/
def suCompatHandler : FeatureHandler Found KernelFeatures :=
  flagHandler KSU_FEATURE_SU_COMPAT "su_compat" (·.suCompatEnabled) fun enable s => { s with suCompatEnabled := enable }

/-- `kernel_umount_handler`. -/
def kernelUmountHandler : FeatureHandler Found KernelFeatures :=
  flagHandler KSU_FEATURE_KERNEL_UMOUNT "kernel_umount" (·.kernelUmountEnabled)
    fun enable s => { s with kernelUmountEnabled := enable }

/-- `sulog_handler`. -/
def sulogHandler : FeatureHandler Found KernelFeatures :=
  flagHandler KSU_FEATURE_SULOG "sulog" (·.sulogEnabled) fun enable s => { s with sulogEnabled := enable }

/-- `ksu_adb_root_handler`. -/
def ksuAdbRootHandler : FeatureHandler Found KernelFeatures :=
  flagHandler KSU_FEATURE_ADB_ROOT "adb_root" (·.adbRoot) fun enable s => { s with adbRoot := enable }

/-- `selinux_hide_handler`. -/
def selinuxHideHandler : FeatureHandler Found KernelFeatures where
  featureId := KSU_FEATURE_SELINUX_HIDE
  name := "selinux_hide"
  getHandler := some fun s => .ok (if s.selinuxHide.enabled then 1 else 0)
  setHandler := some fun found value s =>
    let set := selinuxHideFeatureSet found value.toNat s.selinuxHide
    (set.1, { s with selinuxHide := set.2 })

/-- The registry after `kernelsu_init`; `sulogEvents` says whether `ksu_sulog_events_init` succeeds. -/
def registered (sulogEvents : Bool) : FeatureHandlers Found KernelFeatures :=
  let handlers := (ksuRegisterFeatureHandler (some sulogHandler) ksuFeatureInit).2
  let handlers := if sulogEvents then handlers else (ksuUnregisterFeatureHandler KSU_FEATURE_SULOG handlers).2
  [ksuAdbRootHandler, selinuxHideHandler, kernelUmountHandler, suCompatHandler].foldl
    (fun handlers handler => (ksuRegisterFeatureHandler (some handler) handlers).2) handlers

/-! ### Which features there are -/

/-- The kernel has the feature. -/
def supported (sulogEvents : Bool) (featureId : UInt32) : Bool :=
  featureId < KSU_FEATURE_MAX && (featureId != KSU_FEATURE_SULOG || sulogEvents)

/-- The feature is on. -/
def KernelFeatures.enabled (s : KernelFeatures) (featureId : UInt32) : Bool :=
  if featureId = KSU_FEATURE_SU_COMPAT then s.suCompatEnabled
  else if featureId = KSU_FEATURE_KERNEL_UMOUNT then s.kernelUmountEnabled
  else if featureId = KSU_FEATURE_SULOG then s.sulogEnabled
  else if featureId = KSU_FEATURE_ADB_ROOT then s.adbRoot
  else s.selinuxHide.enabled

variable {sulogEvents : Bool} {featureId : UInt32}

theorem featureId_cases (h : featureId < KSU_FEATURE_MAX) : featureId = KSU_FEATURE_SU_COMPAT ∨
    featureId = KSU_FEATURE_KERNEL_UMOUNT ∨ featureId = KSU_FEATURE_SULOG ∨ featureId = KSU_FEATURE_ADB_ROOT ∨
    featureId = KSU_FEATURE_SELINUX_HIDE := by
  have hlt : featureId.toNat < 5 := UInt32.lt_iff_toNat_lt.mp h
  simp only [← UInt32.toNat_inj]
  have hvals : KSU_FEATURE_SU_COMPAT.toNat = 0 ∧ KSU_FEATURE_KERNEL_UMOUNT.toNat = 1 ∧
    KSU_FEATURE_SULOG.toNat = 2 ∧ KSU_FEATURE_ADB_ROOT.toNat = 3 ∧ KSU_FEATURE_SELINUX_HIDE.toNat = 4 := by decide
  omega

theorem ksuRegisterFeatureHandler_of_lt {handler : FeatureHandler Found KernelFeatures}
    (hid : handler.featureId < KSU_FEATURE_MAX) (hget : handler.getHandler.isNone = false)
    (handlers : FeatureHandlers Found KernelFeatures) :
    (ksuRegisterFeatureHandler (some handler) handlers).2 = Function.update handlers handler.featureId (some handler) := by
  have hnone : ¬(handler.getHandler.isNone ∧ handler.setHandler.isNone) := by
    rw [hget]
    exact fun h => Bool.false_ne_true h.1
  rw [ksuRegisterFeatureHandler, if_neg (UInt32.not_le.mpr hid), if_neg hnone]

/-- The registry before the last four handlers. -/
theorem registered_sulog (sulogEvents : Bool) :
    (if sulogEvents then (ksuRegisterFeatureHandler (some sulogHandler) ksuFeatureInit).2
      else (ksuUnregisterFeatureHandler KSU_FEATURE_SULOG
        (ksuRegisterFeatureHandler (some sulogHandler) ksuFeatureInit).2).2)
      = Function.update ksuFeatureInit KSU_FEATURE_SULOG (if sulogEvents then some sulogHandler else none) := by
  have hsulog : (ksuRegisterFeatureHandler (some sulogHandler) ksuFeatureInit).2
      = Function.update ksuFeatureInit KSU_FEATURE_SULOG (some sulogHandler) :=
    ksuRegisterFeatureHandler_of_lt (by decide) rfl _
  rw [hsulog]
  cases sulogEvents with
  | true => rfl
  | false =>
    have hthere : ¬(Function.update ksuFeatureInit KSU_FEATURE_SULOG (some sulogHandler) KSU_FEATURE_SULOG).isNone := by
      rw [Function.update_self]
      exact Bool.false_ne_true
    rw [if_neg Bool.false_ne_true, ksuUnregisterFeatureHandler, if_neg (by decide), if_neg hthere,
      Function.update_idem]
    rfl

/-- The registry entry by entry. -/
theorem registered_eq (sulogEvents : Bool) (featureId : UInt32) : registered sulogEvents featureId =
    if featureId = KSU_FEATURE_SU_COMPAT then some suCompatHandler
    else if featureId = KSU_FEATURE_KERNEL_UMOUNT then some kernelUmountHandler
    else if featureId = KSU_FEATURE_SELINUX_HIDE then some selinuxHideHandler
    else if featureId = KSU_FEATURE_ADB_ROOT then some ksuAdbRootHandler
    else if featureId = KSU_FEATURE_SULOG then (if sulogEvents then some sulogHandler else none)
    else none := by
  rw [registered, registered_sulog, List.foldl_cons, List.foldl_cons, List.foldl_cons, List.foldl_cons, List.foldl_nil]
  rw [ksuRegisterFeatureHandler_of_lt (by decide) rfl, ksuRegisterFeatureHandler_of_lt (by decide) rfl,
    ksuRegisterFeatureHandler_of_lt (by decide) rfl, ksuRegisterFeatureHandler_of_lt (by decide) rfl]
  rw [Function.update_apply, Function.update_apply, Function.update_apply, Function.update_apply, Function.update_apply]
  rfl

/-! ### Reading a feature -/

/-- The value of a flag. -/
def flagValue (enabled : Bool) : UInt64 := if enabled then 1 else 0

/-- **Reading** a feature tells whether it is on. -/
theorem ksuGetFeature_enabled (h : supported sulogEvents featureId = true) (s : KernelFeatures) :
    ksuGetFeature (registered sulogEvents) s featureId = ⟨none, some (flagValue (s.enabled featureId)), some true⟩ := by
  rw [supported, Bool.and_eq_true, Bool.or_eq_true, decide_eq_true_eq] at h
  obtain ⟨hlt, hsulog⟩ := h
  rw [ksuGetFeature, if_neg (UInt32.not_le.mpr hlt), registered_eq]
  rcases featureId_cases hlt with rfl | rfl | rfl | rfl | rfl
  · rfl
  · rfl
  · obtain rfl : sulogEvents = true := hsulog.resolve_left (by decide)
    rfl
  · rfl
  · rfl

/-- A feature that the kernel does not have reads as off and not supported. -/
theorem ksuGetFeature_unsupported (hlt : featureId < KSU_FEATURE_MAX) (h : supported sulogEvents featureId = false)
    (s : KernelFeatures) : ksuGetFeature (registered sulogEvents) s featureId = ⟨none, some 0, some false⟩ := by
  rw [supported, decide_eq_true hlt, Bool.true_and, Bool.or_eq_false_iff] at h
  obtain rfl : featureId = KSU_FEATURE_SULOG := by
    by_contra hne
    rw [bne_iff_ne.mpr hne] at h
    exact Bool.false_ne_true h.1.symm
  rw [ksuGetFeature, if_neg (by decide), registered_eq, h.2]
  rfl

/-! ### Setting a feature -/

theorem enabled_ksuSelinuxHideUnhook (s : SelinuxHide) : (ksuSelinuxHideUnhook s).enabled = s.enabled := by
  have hcontext : ∀ s, (restoreContextWrite s).enabled = s.enabled := by
    intro s
    rw [restoreContextWrite, apply_ite SelinuxHide.enabled, ite_self]
  have haccess : ∀ s, (restoreAccessWrite s).enabled = s.enabled := by
    intro s
    rw [restoreAccessWrite, apply_ite SelinuxHide.enabled, ite_self]
  have hopen : ∀ s, (restoreSelinuxStatusOpen s).enabled = s.enabled := by
    intro s
    rw [restoreSelinuxStatusOpen, apply_ite SelinuxHide.enabled, ite_self]
  have hlsm : ∀ s, (ksuLsmUnhook s).enabled = s.enabled := by
    intro s
    rw [ksuLsmUnhook, apply_ite SelinuxHide.enabled, ite_self]
  rw [ksuSelinuxHideUnhook, hlsm, hopen, haccess, hcontext]

theorem enabled_ksuSelinuxHideEnable (found : Found) (s : SelinuxHide) :
    (ksuSelinuxHideEnable found s).2.enabled = s.enabled := by
  have hhook : ∀ s, (ksuLsmHook found s).2.enabled = s.enabled := by
    intro s
    unfold ksuLsmHook
    dsimp only
    split_ifs <;> rfl
  have hopen : ∀ b s, (hookSelinuxStatusOpen b s).enabled = s.enabled := by
    intro b s
    unfold hookSelinuxStatusOpen
    split_ifs <;> rfl
  have hpatched : (ksuLsmHook found (patchWriteOp (hookSelinuxStatusOpen found.selHandleStatusOps s))).2.enabled
      = s.enabled := (hhook _).trans (hopen _ s)
  unfold ksuSelinuxHideEnable
  dsimp only
  split_ifs
  · rfl
  · rfl
  · rw [enabled_ksuSelinuxHideUnhook, hpatched]
  · exact hpatched

theorem enabled_selinuxHideFeatureSet (found : Found) (value : ℕ) (s : SelinuxHide) :
    (selinuxHideFeatureSet found value s).2.enabled = decide (value ≠ 0) := by
  unfold selinuxHideFeatureSet
  dsimp only
  split_ifs
  · rfl
  · exact enabled_ksuSelinuxHideEnable found _
  · exact enabled_ksuSelinuxHideEnable found _
  · exact enabled_ksuSelinuxHideUnhook _
  · rfl

/-- **Setting** a feature turns it on or off, whatever it returns. -/
theorem enabled_ksuSetFeature (h : supported sulogEvents featureId = true) (found : Found) (value : UInt64)
    (s : KernelFeatures) :
    (ksuSetFeature (registered sulogEvents) found featureId value s).2.enabled featureId = decide (value ≠ 0) := by
  rw [supported, Bool.and_eq_true, Bool.or_eq_true, decide_eq_true_eq] at h
  obtain ⟨hlt, hsulog⟩ := h
  rw [ksuSetFeature, if_neg (UInt32.not_le.mpr hlt), registered_eq]
  rcases featureId_cases hlt with rfl | rfl | rfl | rfl | rfl
  · rfl
  · rfl
  · obtain rfl : sulogEvents = true := hsulog.resolve_left (by decide)
    rfl
  · rfl
  · have hset := enabled_selinuxHideFeatureSet found value.toNat s.selinuxHide
    have hzero : value.toNat ≠ 0 ↔ value ≠ 0 := not_congr (UInt64.toNat_inj (b := 0))
    rw [decide_eq_decide.mpr hzero] at hset
    exact hset

/-- Setting a feature leaves the others. -/
theorem enabled_ksuSetFeature_of_ne {other : UInt32} (hother : other < KSU_FEATURE_MAX) (hne : other ≠ featureId)
    (found : Found) (value : UInt64) (s : KernelFeatures) :
    (ksuSetFeature (registered sulogEvents) found featureId value s).2.enabled other = s.enabled other := by
  by_cases hlt : featureId < KSU_FEATURE_MAX
  · rw [ksuSetFeature, if_neg (UInt32.not_le.mpr hlt), registered_eq]
    rcases featureId_cases hlt with rfl | rfl | rfl | rfl | rfl <;>
      rcases featureId_cases hother with rfl | rfl | rfl | rfl | rfl <;>
      first
        | exact absurd rfl hne
        | rfl
        | (cases sulogEvents <;> rfl)
  · rw [ksuSetFeature, if_pos (UInt32.not_lt.mp hlt)]

/-- A feature that the kernel does not have cannot be set. -/
theorem ksuSetFeature_unsupported (h : supported sulogEvents featureId = false) (found : Found) (value : UInt64)
    (s : KernelFeatures) : (ksuSetFeature (registered sulogEvents) found featureId value s).2 = s := by
  by_cases hlt : featureId < KSU_FEATURE_MAX
  · rw [supported, decide_eq_true hlt, Bool.true_and, Bool.or_eq_false_iff] at h
    obtain rfl : featureId = KSU_FEATURE_SULOG := by
      by_contra hne
      rw [bne_iff_ne.mpr hne] at h
      exact Bool.false_ne_true h.1.symm
    rw [ksuSetFeature, if_neg (by decide), registered_eq, h.2]
    rfl
  · rw [ksuSetFeature, if_pos (UInt32.not_lt.mp hlt)]

end KernelSU.Feature
