import KernelSU.Ksud.FeatureConfigKept
import KernelSU.Ksud.ModuleConfigStore

/-!
# Features that modules manage

A module claims a feature by an entry `manage.<feature>` of its configuration.

* `managed_getManagedFeatures` — **PROVED**: a boot leaves a feature alone that an active module claims by its name or
  its number;
* `setFeature_managed` — **PROVED**: a feature that is claimed by its name is set from the scripts of the modules that
  claim it, and from nowhere else;
* `managedFeatures_guarded` — **PROVED**: the two together.
-/

namespace KernelSU.Ksud.FeatureConfig

open KernelSU.Lib KernelSU.Policy KernelSU.Feature

/-! ### Claims -/

theorem stripPrefix_eq_some {pre text rest : String} : stripPrefix pre text = some rest ↔ text = pre ++ rest := by
  rw [stripPrefix]
  constructor
  · intro h
    split_ifs at h with hpre
    obtain ⟨tail, htail⟩ := List.isPrefixOf_iff_prefix.mp hpre
    obtain rfl := Option.some.inj h
    apply String.toList_inj.mp
    rw [String.toList_append, String.toList_ofList, ← htail, List.drop_left]
  · rintro rfl
    rw [String.toList_append, if_pos (List.isPrefixOf_iff_prefix.mpr (List.prefix_append _ _)), List.drop_left,
      String.ofList_toList]

theorem managedEntry_eq_some {e : Σ _ : String, String} {name : String} :
    managedEntry e = some name ↔ e.1 = "manage." ++ name ∧ parseBoolConfig e.2 = true := by
  rw [managedEntry, Option.filter_eq_some_iff, stripPrefix_eq_some]

section Modules

variable {α : Type} (order : Iteration) (files : FileSystem) (modules : ModuleDirs α)

/-- An active module claims a feature under a name. -/
def Claims (moduleId name : String) : Prop :=
  ∃ m config value, modules.lookup moduleId = some m ∧ m.isActive = true ∧
    mergeConfigs order files moduleId = .ok config ∧ config.lookup ("manage." ++ name) = some value ∧
    parseBoolConfig value = true

variable {order files modules}

theorem mem_filterMap_managedEntry {config : Config} {name : String} :
    name ∈ (order.entries config).filterMap managedEntry ↔
      ∃ value, config.lookup ("manage." ++ name) = some value ∧ parseBoolConfig value = true := by
  rw [List.mem_filterMap]
  constructor
  · rintro ⟨⟨key, value⟩, hmem, h⟩
    obtain ⟨rfl, hvalue⟩ := managedEntry_eq_some.mp h
    exact ⟨value, order.mem_entries.mp hmem, hvalue⟩
  · rintro ⟨value, hlookup, hvalue⟩
    exact ⟨⟨_, value⟩, order.mem_entries.mpr hlookup, managedEntry_eq_some.mpr ⟨rfl, hvalue⟩⟩

theorem mem_managedByModule {moduleId name : String} {m : String × List String}
    (h : managedByModule order files moduleId = some m) :
    m.1 = moduleId ∧ (name ∈ m.2 ↔ ∃ config value, mergeConfigs order files moduleId = .ok config ∧
      config.lookup ("manage." ++ name) = some value ∧ parseBoolConfig value = true) := by
  rw [managedByModule] at h
  cases hconfig : mergeConfigs order files moduleId with
  | error e =>
    rw [hconfig] at h
    cases h
  | ok config =>
    rw [hconfig] at h
    dsimp only at h
    split_ifs at h
    obtain rfl := Option.some.inj h
    refine ⟨rfl, mem_filterMap_managedEntry.trans ?_⟩
    constructor
    · rintro ⟨value, hlookup, hvalue⟩
      exact ⟨config, value, rfl, hlookup, hvalue⟩
    · rintro ⟨config', value, hok, hlookup, hvalue⟩
      obtain rfl := Except.ok.inj hok
      exact ⟨value, hlookup, hvalue⟩

/-- **The map lists the claims** of the active modules. -/
theorem claims_iff {moduleId name : String} :
    (∃ m ∈ getManagedFeatures order files modules, m.1 = moduleId ∧ name ∈ m.2) ↔
      Claims order files modules moduleId name := by
  rw [getManagedFeatures, Claims]
  constructor
  · rintro ⟨m, hm, rfl, hname⟩
    obtain ⟨e, he, h⟩ := List.mem_filterMap.mp hm
    split_ifs at h with hactive
    obtain ⟨hid, hiff⟩ := mem_managedByModule h
    obtain ⟨config, value, hconfig, hlookup, hvalue⟩ := hiff.mp hname
    rw [hid]
    exact ⟨e.2, config, value, AList.mem_lookup_iff.mpr he, hactive, hconfig, hlookup, hvalue⟩
  · rintro ⟨m, config, value, hlookup, hactive, hconfig, hentry, hvalue⟩
    have hmem : name ∈ (order.entries config).filterMap managedEntry := mem_filterMap_managedEntry.mpr ⟨value, hentry, hvalue⟩
    have hsome : managedByModule order files moduleId = some (moduleId, (order.entries config).filterMap managedEntry) := by
      rw [managedByModule, hconfig]
      exact if_neg fun hempty => List.ne_nil_of_mem hmem (List.isEmpty_iff.mp hempty)
    refine ⟨(moduleId, (order.entries config).filterMap managedEntry), List.mem_filterMap.mpr ⟨⟨moduleId, m⟩, AList.mem_lookup_iff.mp hlookup, ?_⟩, rfl, hmem⟩
    rw [if_pos hactive]
    exact hsome

/-! ### What claims do -/

/-- The number of a feature. -/
def FeatureId.number (featureId : FeatureId) : String := toString featureId.toU32.toNat

theorem parseFeatureId_ok {name : String} {featureId : FeatureId} :
    parseFeatureId name = .ok featureId ↔ name = featureId.name ∨ name = featureId.number := by
  constructor
  · intro h
    rw [parseFeatureId] at h
    split_ifs at h with h0 h1 h2 h3 h4 <;> obtain rfl := Except.ok.inj h <;> assumption
  · intro h
    cases featureId <;> rcases h with rfl | rfl <;> decide

theorem toU32_inj {f f' : FeatureId} (h : f.toU32 = f'.toU32) : f = f' := by
  revert h
  cases f <;> cases f' <;> decide

/-- **A boot** leaves the features alone that active modules claim by name or number. -/
theorem managed_getManagedFeatures (featureId : FeatureId) :
    Managed (getManagedFeatures order files modules) featureId.toU32 ↔
      ∃ moduleId, Claims order files modules moduleId featureId.name ∨
        Claims order files modules moduleId featureId.number := by
  constructor
  · rintro ⟨m, hm, name, hname, f, hparse, hid⟩
    obtain rfl := toU32_inj hid
    have hclaims := claims_iff.mp ⟨m, hm, rfl, hname⟩
    rcases parseFeatureId_ok.mp hparse with rfl | rfl
    · exact ⟨m.1, Or.inl hclaims⟩
    · exact ⟨m.1, Or.inr hclaims⟩
  · rintro ⟨moduleId, h⟩
    rcases h with h | h
    · obtain ⟨m, hm, -, hname⟩ := claims_iff.mpr h
      exact ⟨m, hm, _, hname, featureId, parseFeatureId_ok.mpr (Or.inl rfl), rfl⟩
    · obtain ⟨m, hm, -, hname⟩ := claims_iff.mpr h
      exact ⟨m, hm, _, hname, featureId, parseFeatureId_ok.mpr (Or.inr rfl), rfl⟩

theorem mem_managingModules {moduleId name : String} :
    moduleId ∈ ((getManagedFeatures order files modules).filter fun m => name ∈ m.2).map Prod.fst ↔
      Claims order files modules moduleId name := by
  rw [← claims_iff, List.mem_map]
  constructor
  · rintro ⟨m, hm, hid⟩
    obtain ⟨hmem, hname⟩ := List.mem_filter.mp hm
    exact ⟨m, hmem, hid, of_decide_eq_true hname⟩
  · rintro ⟨m, hmem, hid, hname⟩
    exact ⟨m, List.mem_filter.mpr ⟨hmem, decide_eq_true hname⟩, hid⟩

/-- The caller may not set the feature: a module claims it by name, and the caller is no such module. -/
def Barred (order : Iteration) (files : FileSystem) (modules : ModuleDirs α) (featureId : FeatureId)
    (callerModule : String) : Prop :=
  (∃ moduleId, Claims order files modules moduleId featureId.name) ∧
    (callerModule = "" ∨ ¬Claims order files modules callerModule featureId.name)

/-- **A claimed feature** is set by the modules that claim it, and by nobody else: the command is refused and changes
nothing where the caller is barred, and otherwise does what the kernel does. -/
theorem setFeature_managed {id : String} {featureId : FeatureId} (hid : parseFeatureId id = .ok featureId)
    (found : Found) (value : UInt64) (callerModule : String) (d : FeatureDevice) :
    (Barred order files modules featureId callerModule → ∃ e,
      setFeature (some (getManagedFeatures order files modules)) found id value callerModule d = (.error e, d)) ∧
    (¬Barred order files modules featureId callerModule →
      setFeature (some (getManagedFeatures order files modules)) found id value callerModule d =
        ((setKernelFeature d.sulogEvents found featureId value d.kernel).1,
          { d with kernel := (setKernelFeature d.sulogEvents found featureId value d.kernel).2 })) := by
  have hbarred : Barred order files modules featureId callerModule ↔
      ((getManagedFeatures order files modules).filter fun m => featureId.name ∈ m.2).map Prod.fst ≠ [] ∧
        (callerModule = "" ∨ callerModule ∉
          ((getManagedFeatures order files modules).filter fun m => featureId.name ∈ m.2).map Prod.fst) := by
    have hsome : ∀ l : List String, l ≠ [] ↔ ∃ moduleId, moduleId ∈ l := fun l => by
      rw [Ne, List.eq_nil_iff_forall_not_mem, not_forall_not]
    rw [Barred, hsome]
    simp only [mem_managingModules]
  rw [setFeature, hid]
  dsimp only [Option.getD_some]
  constructor
  · intro h
    rw [if_pos (hbarred.mp h)]
    exact ⟨_, rfl⟩
  · intro h
    rw [if_neg (mt hbarred.mpr h)]

/-- A boot does not touch a managed feature, whatever the file holds. -/
theorem enabled_initFeatures_managed {managed : ManagedFeatures} {id : UInt32} (h : Managed managed id)
    {d : FeatureDevice} (hid : supported d.sulogEvents id = true) (order : MapOrder UInt32 UInt64) (found : Found) :
    (initFeatures order found (some managed) d).2.kernel.enabled id = d.kernel.enabled id := by
  cases hload : loadBinaryConfig d.config with
  | error e => rw [initFeatures, hload]
  | ok features =>
    rw [enabled_initFeatures hload hid, Option.getD_some, (dropped_removeManaged managed features id).gone h]
    rfl

/-- **What modules claim is theirs.**  A boot leaves every feature alone that an active module claims by its name or
its number, and the command sets a feature that is claimed by its name only for a module that claims it. -/
theorem managedFeatures_guarded (order : Iteration) (files : FileSystem) (modules : ModuleDirs α)
    (featureId : FeatureId) (d : FeatureDevice) :
    (∀ moduleId order' found, supported d.sulogEvents featureId.toU32 = true →
      Claims order files modules moduleId featureId.name ∨ Claims order files modules moduleId featureId.number →
      (initFeatures order' found (some (getManagedFeatures order files modules)) d).2.kernel.enabled featureId.toU32
        = d.kernel.enabled featureId.toU32) ∧
    ∀ id found value callerModule, parseFeatureId id = .ok featureId →
      (Barred order files modules featureId callerModule → ∃ e,
        setFeature (some (getManagedFeatures order files modules)) found id value callerModule d = (.error e, d)) ∧
      (¬Barred order files modules featureId callerModule →
        setFeature (some (getManagedFeatures order files modules)) found id value callerModule d =
          ((setKernelFeature d.sulogEvents found featureId value d.kernel).1,
            { d with kernel := (setKernelFeature d.sulogEvents found featureId value d.kernel).2 })) := by
  constructor
  · intro moduleId order' found hid hclaims
    exact enabled_initFeatures_managed (managed_getManagedFeatures featureId |>.mpr ⟨moduleId, hclaims⟩) hid order' found
  · intro id found value callerModule hparse
    exact setFeature_managed hparse found value callerModule d

end Modules

/-- One active module. -/
def adbModules : ModuleDirs Unit := AList.singleton "adb_module" ⟨false, false, ()⟩

/-- Its configuration claims `adb_root`. -/
noncomputable def adbFiles : FileSystem :=
  (setConfigValue default (fun _ => none) "adb_module" "manage.adb_root" "true" .persist).2

/-- The maps that the files store. -/
def adbLayers : Layers :=
  Layers.update (fun _ _ => ∅) "adb_module" .persist ((∅ : Config).insert "manage.adb_root" "true")

theorem stores_adbFiles : Stores adbFiles adbLayers := by
  have happly : ConfigOp.apply ∅ (.set "adb_module" "manage.adb_root" "true" .persist) =
      some ((∅ : Config).insert "manage.adb_root" "true") := by
    rw [ConfigOp.apply]
    exact if_pos (by decide)
  have hid : isIdentifier "adb_module" = true := by decide
  have hstores := (stores_empty.runSet default "manage.adb_root" "true" .persist hid).2
  rw [Layers.runOp_of_some happly] at hstores
  exact hstores

theorem claims_adbRoot : Claims default adbFiles adbModules "adb_module" FeatureId.adbRoot.name := by
  have hmerge := stores_adbFiles.mergeConfigs default (by decide : isIdentifier "adb_module" = true)
  have htemp : adbLayers "adb_module" .temp = ∅ := by
    rw [adbLayers, Layers.update]
    exact if_neg (by decide)
  have hpersist : adbLayers "adb_module" .persist = (∅ : Config).insert "manage.adb_root" "true" := by
    rw [adbLayers, Layers.update]
    exact if_pos ⟨rfl, rfl⟩
  rw [htemp, hpersist, Finmap.empty_union] at hmerge
  exact ⟨⟨false, false, ()⟩, _, "true", rfl, rfl, hmerge, Finmap.lookup_insert _, by decide⟩

/-- A device with `adb_root` on, whose file says that it is off. -/
noncomputable def adbDevice : FeatureDevice where
  sulogEvents := true
  kernel := { bootKernel with adbRoot := true }
  config := some (saveBinaryConfig default ((∅ : Features).insert 3 0))

/-- A boot leaves the feature on, a command of no module is refused, and one of the module turns it off. -/
theorem managedFeatures_guarded_adbRoot :
    (initFeatures default foundNothing (some (getManagedFeatures default adbFiles adbModules)) adbDevice).2.kernel.adbRoot
        = true ∧
      (∃ e, setFeature (some (getManagedFeatures default adbFiles adbModules)) foundNothing "adb_root" 0 "" adbDevice =
        (.error e, adbDevice)) ∧
      (setFeature (some (getManagedFeatures default adbFiles adbModules)) foundNothing "3" 0 "adb_module"
        adbDevice).2.kernel.adbRoot = false := by
  obtain ⟨hboot, hset⟩ := managedFeatures_guarded default adbFiles adbModules .adbRoot adbDevice
  refine ⟨hboot "adb_module" default foundNothing (by decide) (.inl claims_adbRoot), ?refused, ?turned⟩
  case refused => exact (hset "adb_root" foundNothing 0 "" (by decide)).1 ⟨⟨_, claims_adbRoot⟩, .inl rfl⟩
  case turned =>
    have hfree : ¬Barred default adbFiles adbModules .adbRoot "adb_module" := by
      intro hbarred
      rcases hbarred.2 with hempty | hnot
      · exact absurd hempty (by decide)
      · exact hnot claims_adbRoot
    rw [(hset "3" foundNothing 0 "adb_module" (by decide)).2 hfree]
    rfl

end KernelSU.Ksud.FeatureConfig
