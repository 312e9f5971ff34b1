import Mathlib.Logic.Function.Basic
import KernelSU.Lib.Errno

/-!
# `kernel/policy/feature.c`: the registry of features

A feature is an id below `KSU_FEATURE_MAX` with a handler that reads it and one that sets it.  Here are also the two
requests of `kernel/supercall/dispatch.c` that reach the handlers.  What a handler finds around it when it is called is
its first argument.
-/

namespace KernelSU.Policy

open KernelSU.Lib Errno

def KSU_FEATURE_SU_COMPAT : UInt32 := 0
def KSU_FEATURE_KERNEL_UMOUNT : UInt32 := 1
def KSU_FEATURE_SULOG : UInt32 := 2
def KSU_FEATURE_ADB_ROOT : UInt32 := 3
def KSU_FEATURE_SELINUX_HIDE : UInt32 := 4
def KSU_FEATURE_MAX : UInt32 := 5

variable {ε σ : Type}

/-- `struct ksu_feature_handler`; the handlers return an error number or nothing. -/
structure FeatureHandler (ε σ : Type) where
  featureId : UInt32
  name : String
  getHandler : Option (σ → Except Errno UInt64)
  setHandler : Option (ε → UInt64 → σ → Option Errno × σ)

/-- `feature_handlers`, of which the entries below `KSU_FEATURE_MAX` are used. -/
abbrev FeatureHandlers (ε σ : Type) := UInt32 → Option (FeatureHandler ε σ)

/-- `ksu_feature_init` and `ksu_feature_exit`. -/
def ksuFeatureInit : FeatureHandlers ε σ := fun _ => none

/-- `ksu_register_feature_handler`. -/
def ksuRegisterFeatureHandler (handler : Option (FeatureHandler ε σ)) (handlers : FeatureHandlers ε σ) :
    Option Errno × FeatureHandlers ε σ :=
  match handler with
  | none => (some EINVAL, handlers)
  | some h =>
    if KSU_FEATURE_MAX ≤ h.featureId then (some EINVAL, handlers)
    else if h.getHandler.isNone ∧ h.setHandler.isNone then (some EINVAL, handlers)
    else (none, Function.update handlers h.featureId (some h))

/-- `ksu_unregister_feature_handler`. -/
def ksuUnregisterFeatureHandler (featureId : UInt32) (handlers : FeatureHandlers ε σ) :
    Option Errno × FeatureHandlers ε σ :=
  if KSU_FEATURE_MAX ≤ featureId then (some EINVAL, handlers)
  else if (handlers featureId).isNone then (some ENOENT, handlers)
  else (none, Function.update handlers featureId none)

/-- What `ksu_get_feature` returns, and what it stores in `*value` and `*supported` if it stores anything. -/
structure GotFeature where
  ret : Option Errno
  value : Option UInt64
  supported : Option Bool

/-- `ksu_get_feature`. -/
def ksuGetFeature (handlers : FeatureHandlers ε σ) (s : σ) (featureId : UInt32) : GotFeature :=
  if KSU_FEATURE_MAX ≤ featureId then ⟨some EINVAL, none, none⟩
  else match handlers featureId with
  | none => ⟨none, some 0, some false⟩
  | some handler =>
    match handler.getHandler with
    | none => ⟨some EOPNOTSUPP, none, some true⟩
    | some get =>
      match get s with
      | .error e => ⟨some e, none, some true⟩
      | .ok value => ⟨none, some value, some true⟩

/-- `ksu_set_feature`. -/
def ksuSetFeature (handlers : FeatureHandlers ε σ) (env : ε) (featureId : UInt32) (value : UInt64) (s : σ) :
    Option Errno × σ :=
  if KSU_FEATURE_MAX ≤ featureId then (some EINVAL, s)
  else match handlers featureId with
  | none => (some EOPNOTSUPP, s)
  | some handler =>
    match handler.setHandler with
    | none => (some EOPNOTSUPP, s)
    | some set => set env value s

/-! ### The requests -/

/-- `struct ksu_get_feature_cmd`. -/
structure GetFeatureCmd where
  featureId : UInt32
  value : UInt64
  supported : UInt8
  deriving DecidableEq

/-- `struct ksu_set_feature_cmd`. -/
structure SetFeatureCmd where
  featureId : UInt32
  value : UInt64
  deriving DecidableEq

/-- `do_get_feature`: the result and what is copied out.  `none` stands for an argument that cannot be read, `stack`
for what the variable `supported` holds before it is set. -/
def doGetFeature (handlers : FeatureHandlers ε σ) (stack : Bool) (arg : Option GetFeatureCmd) (copyToUser : Bool)
    (s : σ) : Option Errno × Option GetFeatureCmd :=
  match arg with
  | none => (some EFAULT, none)
  | some cmd =>
    let got := ksuGetFeature handlers s cmd.featureId
    let supported := got.supported.getD stack
    if got.ret.isSome ∧ supported then (got.ret, none)
    else if copyToUser then (none, some ⟨cmd.featureId, got.value.getD cmd.value, if supported then 1 else 0⟩)
    else (some EFAULT, none)

/-- `do_set_feature`. -/
def doSetFeature (handlers : FeatureHandlers ε σ) (env : ε) (arg : Option SetFeatureCmd) (s : σ) : Option Errno × σ :=
  match arg with
  | none => (some EFAULT, s)
  | some cmd => ksuSetFeature handlers env cmd.featureId cmd.value s

end KernelSU.Policy
