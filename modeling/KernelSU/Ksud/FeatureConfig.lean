import KernelSU.Feature.FeatureHandlers
import KernelSU.Ksud.ModuleConfig
import KernelSU.Ksud.Modules
import KernelSU.Lib.ByteReader
import KernelSU.Lib.MapOrder
import KernelSU.Lib.Text

/-!
# `userspace/ksud/src/feature.rs`: the features of the kernel and their file

* `loadBinaryConfig`, `saveBinaryConfig` — the file, both ways;
* `saveConfig`, `loadConfigAndApply`, `initFeatures`, `setFeature` — the commands;
* `getManagedFeatures` — `module.rs`: the features that active modules keep to themselves.

`ksud` reaches the driver and is root, and its arguments are in memory, so that a request gets to its handler.
-/

namespace KernelSU.Ksud.FeatureConfig

open KernelSU.Lib KernelSU.Lib.Bytes KernelSU.Lib.ByteReader KernelSU.Policy KernelSU.Feature

/-! ### Features -/

def FEATURE_MAGIC : ℕ := 0x7f4b5355
def FEATURE_VERSION : ℕ := 1

/-- `enum FeatureId`. -/
inductive FeatureId where
  | suCompat
  | kernelUmount
  | sulog
  | adbRoot
  | selinuxHide
deriving DecidableEq

def FeatureId.toU32 : FeatureId → UInt32
  | .suCompat => 0
  | .kernelUmount => 1
  | .sulog => 2
  | .adbRoot => 3
  | .selinuxHide => 4

/-- `from_u32`. -/
def FeatureId.fromU32 (id : UInt32) : Option FeatureId :=
  if id = 0 then some .suCompat
  else if id = 1 then some .kernelUmount
  else if id = 2 then some .sulog
  else if id = 3 then some .adbRoot
  else if id = 4 then some .selinuxHide
  else none

def FeatureId.name : FeatureId → String
  | .suCompat => "su_compat"
  | .kernelUmount => "kernel_umount"
  | .sulog => "sulog"
  | .adbRoot => "adb_root"
  | .selinuxHide => "selinux_hide"

/-- `parse_feature_id`. -/
def parseFeatureId (name : String) : Except String FeatureId :=
  if name = "su_compat" ∨ name = "0" then .ok .suCompat
  else if name = "kernel_umount" ∨ name = "1" then .ok .kernelUmount
  else if name = "sulog" ∨ name = "2" then .ok .sulog
  else if name = "adb_root" ∨ name = "3" then .ok .adbRoot
  else if name = "selinux_hide" ∨ name = "4" then .ok .selinuxHide
  else .error ("Unknown feature: " ++ name)

/-- `all_features`. -/
def allFeatures : List FeatureId := [.suCompat, .kernelUmount, .sulog, .adbRoot, .selinuxHide]

/-- The features of a configuration and their values. -/
abbrev Features := Finmap fun _ : UInt32 => UInt64

/-! ### The file -/

/-- The check of the magic number. -/
def checkMagic (magic : ℕ) : ByteReader String Unit :=
  if magic = FEATURE_MAGIC then pure ()
  else throw ("Invalid feature config magic: expected 0x" ++ hex8 FEATURE_MAGIC ++ ", got 0x" ++ hex8 magic)

/-- The entries. -/
def readFeatures : ℕ → Features → ByteReader String Features
  | 0, features => pure features
  | n + 1, features => do
    let id ← takeLE 4 "Failed to read feature id"
    let value ← takeLE 8 "Failed to read feature value"
    readFeatures n (features.insert (UInt32.ofNat id) (UInt64.ofNat value))

def readBinaryConfig : ByteReader String Features := do
  let magic ← takeLE 4 "Failed to read magic"
  checkMagic magic
  -- another version is only logged
  let _ ← takeLE 4 "Failed to read version"
  let count ← takeLE 4 "Failed to read count"
  readFeatures count ∅

/-- `load_binary_config`. -/
def loadBinaryConfig (config : Option (List UInt8)) : Except String Features :=
  match config with
  | none => .ok ∅
  | some bytes => readBinaryConfig.run' bytes

/-- The bytes of an entry. -/
def entryBytes (e : Σ _ : UInt32, UInt64) : List UInt8 := encodeLE 4 e.1.toNat ++ encodeLE 8 e.2.toNat

/-- `save_binary_config`: what it leaves in the file. -/
def saveBinaryConfig (order : MapOrder UInt32 UInt64) (features : Features) : List UInt8 :=
  encodeLE 4 FEATURE_MAGIC ++ (encodeLE 4 FEATURE_VERSION ++ (encodeLE 4 (features.keys.card % 2 ^ 32) ++
    (order.entries features).flatMap entryBytes))

/-! ### Requests to the kernel -/

/-- A kernel and the file. -/
structure FeatureDevice where
  /-- whether the kernel has started its event log, and with it the feature for it -/
  sulogEvents : Bool
  kernel : KernelFeatures
  config : Option (List UInt8)

section Kernel

variable (sulogEvents : Bool)

/-- `ksucalls::get_feature`. -/
def getKernelFeature (stack : Bool) (id : UInt32) (s : KernelFeatures) : Except Errno (UInt64 × Bool) :=
  let cmd : GetFeatureCmd := ⟨id, 0, 0⟩
  let r := doGetFeature (registered sulogEvents) stack (some cmd) true s
  match r.1 with
  | some e => .error e
  | none => .ok ((r.2.getD cmd).value, (r.2.getD cmd).supported ≠ 0)

/-- `ksucalls::set_feature`. -/
def ksucallsSetFeature (found : Found) (id : UInt32) (value : UInt64) (s : KernelFeatures) :
    Option Errno × KernelFeatures :=
  doSetFeature (registered sulogEvents) found (some ⟨id, value⟩) s

/-- `set_kernel_feature`. -/
def setKernelFeature (found : Found) (featureId : FeatureId) (value : UInt64) (s : KernelFeatures) :
    Except String Unit × KernelFeatures :=
  let r := ksucallsSetFeature sulogEvents found featureId.toU32 value s
  (if r.1.isSome then .error ("Failed to set feature " ++ featureId.name ++ " to " ++ toString value) else .ok (), r.2)

/-- The turn of `apply_config` for a feature; a failure is only logged. -/
def applyFeature (found : Found) (s : KernelFeatures) (e : Σ _ : UInt32, UInt64) : KernelFeatures :=
  match FeatureId.fromU32 e.1 with
  | some featureId => (setKernelFeature sulogEvents found featureId e.2 s).2
  | none => (ksucallsSetFeature sulogEvents found e.1 e.2 s).2

/-- `apply_config`. -/
def applyConfig (order : MapOrder UInt32 UInt64) (found : Found) (features : Features) (s : KernelFeatures) :
    KernelFeatures :=
  (order.entries features).foldl (applyFeature sulogEvents found) s

/-- The turn of `save_config` for a feature. -/
def collectFeature (stack : Bool) (s : KernelFeatures) (features : Features) (featureId : FeatureId) : Features :=
  match getKernelFeature sulogEvents stack featureId.toU32 s with
  | .error _ => features
  | .ok (value, isSupported) => if isSupported then features.insert featureId.toU32 value else features

end Kernel

/-! ### Features that modules manage -/

/-- The features that modules manage, by module. -/
abbrev ManagedFeatures := List (String × List String)

/-- `str::strip_prefix`. -/
def stripPrefix (pre text : String) : Option String :=
  if pre.toList.isPrefixOf text.toList then some (String.ofList (text.toList.drop pre.toList.length)) else none

/-- `parse_bool_config`. -/
def parseBoolConfig (value : String) : Bool :=
  (trim value.toList).map Char.toLower = "true".toList || trim value.toList = ['1']

/-- The feature that an entry of a module's configuration claims. -/
def managedEntry (e : Σ _ : String, String) : Option String :=
  (stripPrefix "manage." e.1).filter fun _ => parseBoolConfig e.2

/-- The features of an active module, if it has any. -/
def managedByModule (order : Iteration) (files : FileSystem) (moduleId : String) : Option (String × List String) :=
  match mergeConfigs order files moduleId with
  | .error _ => none
  | .ok config =>
    if ((order.entries config).filterMap managedEntry).isEmpty then none
    else some (moduleId, (order.entries config).filterMap managedEntry)

/-- `get_managed_features`, of a directory of modules that can be read. -/
def getManagedFeatures {α : Type} (order : Iteration) (files : FileSystem) (modules : ModuleDirs α) : ManagedFeatures :=
  modules.entries.filterMap fun e => if e.2.isActive then managedByModule order files e.1 else none

/-- A managed feature is dropped from the configuration. -/
def removeFeature (features : Features) (featureName : String) : Features :=
  match parseFeatureId featureName with
  | .ok featureId => features.erase featureId.toU32
  | .error _ => features

/-- The loop of `init_features` over the managed features. -/
def removeManaged (managed : ManagedFeatures) (features : Features) : Features :=
  managed.foldl (fun features m => m.2.foldl removeFeature features) features

/-! ### The commands -/

/-- `save_config`. -/
def saveConfig (order : MapOrder UInt32 UInt64) (stack : Bool) (d : FeatureDevice) : FeatureDevice :=
  { d with config := some (saveBinaryConfig order
      (allFeatures.foldl (collectFeature d.sulogEvents stack d.kernel) ∅)) }

/-- `load_config_and_apply`. -/
def loadConfigAndApply (order : MapOrder UInt32 UInt64) (found : Found) (d : FeatureDevice) :
    Except String Unit × FeatureDevice :=
  match loadBinaryConfig d.config with
  | .error e => (.error e, d)
  | .ok features =>
    if features = ∅ then (.ok (), d)
    else (.ok (), { d with kernel := applyConfig d.sulogEvents order found features d.kernel })

/-- `init_features`; `managed` is `none` where `get_managed_features` fails. -/
def initFeatures (order : MapOrder UInt32 UInt64) (found : Found) (managed : Option ManagedFeatures)
    (d : FeatureDevice) : Except String Unit × FeatureDevice :=
  match loadBinaryConfig d.config with
  | .error e => (.error e, d)
  | .ok features =>
    let features := removeManaged (managed.getD []) features
    if features = ∅ then (.ok (), d)
    else (.ok (), { d with
      kernel := applyConfig d.sulogEvents order found features d.kernel
      config := some (saveBinaryConfig order features) })

/-- `set_feature`, called from a script of `callerModule`, or of no module if this is empty. -/
def setFeature (managed : Option ManagedFeatures) (found : Found) (id : String) (value : UInt64) (callerModule : String)
    (d : FeatureDevice) : Except String Unit × FeatureDevice :=
  match parseFeatureId id with
  | .error e => (.error e, d)
  | .ok featureId =>
    let managingModules := ((managed.getD []).filter fun m => featureId.name ∈ m.2).map Prod.fst
    if managingModules ≠ [] ∧ (callerModule = "" ∨ callerModule ∉ managingModules) then
      (.error ("Feature '" ++ featureId.name ++ "' is managed by module(s): " ++ ", ".intercalate managingModules ++
        ". Direct modification is not allowed."), d)
    else
      let r := setKernelFeature d.sulogEvents found featureId value d.kernel
      (r.1, { d with kernel := r.2 })

end KernelSU.Ksud.FeatureConfig
