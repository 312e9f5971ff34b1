import KernelSU.Ksud.FeatureConfigFile
import KernelSU.Lib.Runs

/-!
# The features over saves, boots and changes

* `enabled_applyConfig` — **PROVED**: applying a configuration sets its features and leaves the others;
* `reaches_fileKept` — **PROVED**: in every run the file holds what the kernel had when the features were last saved,
  less what modules have managed at a boot since;
* `initFeatures_restores` — **PROVED**: so a boot restores a feature that was saved and is not managed;
* `binaryConfig_allOrNothing` — **PROVED**: a file is applied as a whole or not at all.
-/

namespace KernelSU.Ksud.FeatureConfig

open KernelSU.Lib KernelSU.Lib.Bytes KernelSU.Policy KernelSU.Feature

section Kernel

variable {sulogEvents : Bool} {id : UInt32}

/-! ### Applying a configuration -/

theorem supported_lt (h : supported sulogEvents id = true) : id < KSU_FEATURE_MAX := by
  rw [supported, Bool.and_eq_true, decide_eq_true_eq] at h
  exact h.1

theorem toU32_of_fromU32 {featureId : FeatureId} (h : FeatureId.fromU32 id = some featureId) :
    featureId.toU32 = id := by
  rw [FeatureId.fromU32] at h
  split_ifs at h with h0 h1 h2 h3 h4 <;> obtain rfl := Option.some.inj h <;> exact Eq.symm ‹id = _›

/-- The two arms of the match set the same feature. -/
theorem applyFeature_eq (found : Found) (s : KernelFeatures) (e : Σ _ : UInt32, UInt64) :
    applyFeature sulogEvents found s e = (ksuSetFeature (registered sulogEvents) found e.1 e.2 s).2 := by
  rw [applyFeature]
  cases hid : FeatureId.fromU32 e.1 with
  | none => rfl
  | some featureId =>
    show (ksuSetFeature (registered sulogEvents) found featureId.toU32 e.2 s).2 = _
    rw [toU32_of_fromU32 hid]

/-- **Applying a configuration** sets its features, in whatever order, and leaves the others. -/
theorem enabled_applyConfig (h : supported sulogEvents id = true) (order : MapOrder UInt32 UInt64) (found : Found)
    (features : Features) (s : KernelFeatures) : (applyConfig sulogEvents order found features s).enabled id =
      (features.lookup id).elim (s.enabled id) fun value => decide (value ≠ 0) := by
  have hfold := order.foldl_entries features
    (fun (s : KernelFeatures) id => supported sulogEvents id && s.enabled id) (applyFeature sulogEvents found)
    (fun id value _ => supported sulogEvents id && decide (value ≠ 0)) ?_ ?_ s id
  · simp only [h, Bool.true_and] at hfold
    exact hfold
  · intro s id value
    show (supported sulogEvents id && _) = _
    cases hid : supported sulogEvents id with
    | false => rfl
    | true => rw [applyFeature_eq, enabled_ksuSetFeature hid]
  · intro s id value id' hne
    show (supported sulogEvents id' && _) = (supported sulogEvents id' && _)
    cases hid : supported sulogEvents id' with
    | false => rfl
    | true => rw [applyFeature_eq, enabled_ksuSetFeature_of_ne (supported_lt hid) hne]

/-! ### Saving -/

/-- `save_config` takes the features that the kernel has. -/
theorem collectFeature_eq (stack : Bool) (s : KernelFeatures) (features : Features) (featureId : FeatureId) :
    collectFeature sulogEvents stack s features featureId =
      if supported sulogEvents featureId.toU32 then
        features.insert featureId.toU32 (flagValue (s.enabled featureId.toU32))
      else features := by
  have hlt : featureId.toU32 < KSU_FEATURE_MAX := by
    cases featureId <;> decide
  cases hid : supported sulogEvents featureId.toU32 with
  | true =>
    rw [collectFeature, getKernelFeature, doGetFeature, ksuGetFeature_enabled hid]
    rfl
  | false =>
    rw [collectFeature, getKernelFeature, doGetFeature, ksuGetFeature_unsupported hlt hid]
    rfl

/-- What `save_config` has collected. -/
theorem lookup_collect (stack : Bool) (s : KernelFeatures) (l : List FeatureId) (features : Features) (id : UInt32) :
    (l.foldl (collectFeature sulogEvents stack s) features).lookup id =
      if supported sulogEvents id ∧ ∃ featureId ∈ l, featureId.toU32 = id then some (flagValue (s.enabled id))
      else features.lookup id := by
  induction l generalizing features with
  | nil =>
    rw [if_neg]
    · rfl
    · rintro ⟨-, _, h, -⟩
      exact List.not_mem_nil h
  | cons featureId l ih =>
    rw [List.foldl_cons, ih, collectFeature_eq]
    by_cases hlater : supported sulogEvents id ∧ ∃ featureId ∈ l, featureId.toU32 = id
    · obtain ⟨hid, featureId', hmem, heq⟩ := hlater
      rw [if_pos ⟨hid, featureId', hmem, heq⟩, if_pos ⟨hid, featureId', List.mem_cons_of_mem _ hmem, heq⟩]
    · rw [if_neg hlater]
      by_cases hnow : featureId.toU32 = id
      · subst hnow
        by_cases hid : supported sulogEvents featureId.toU32
        · rw [if_pos hid, if_pos ⟨hid, featureId, List.mem_cons_self, rfl⟩, Finmap.lookup_insert]
        · rw [if_neg hid, if_neg fun h => hid h.1]
      · have hnot : ¬(supported sulogEvents id ∧ ∃ featureId' ∈ featureId :: l, featureId'.toU32 = id) := by
          rintro ⟨hid, featureId', hmem, heq⟩
          rcases List.mem_cons.mp hmem with rfl | hmem
          · exact hnow heq
          · exact hlater ⟨hid, featureId', hmem, heq⟩
        rw [if_neg hnot, apply_ite (Finmap.lookup id), Finmap.lookup_insert_of_ne _ (Ne.symm hnow), ite_self]

theorem exists_mem_allFeatures (h : id < KSU_FEATURE_MAX) : ∃ featureId ∈ allFeatures, featureId.toU32 = id := by
  rcases featureId_cases h with rfl | rfl | rfl | rfl | rfl
  · exact ⟨.suCompat, by decide, rfl⟩
  · exact ⟨.kernelUmount, by decide, rfl⟩
  · exact ⟨.sulog, by decide, rfl⟩
  · exact ⟨.adbRoot, by decide, rfl⟩
  · exact ⟨.selinuxHide, by decide, rfl⟩

end Kernel

/-! ### What the file holds -/

/-- The last save: the kernel as it was, and the modules that managed features at the boots since. -/
structure LastSave where
  sulogEvents : Bool
  kernel : KernelFeatures
  inits : List ManagedFeatures

/-- The modules of no boot since have managed the feature. -/
def LastSave.Unmanaged (l : LastSave) (id : UInt32) : Prop := ∀ managed ∈ l.inits, ¬Managed managed id

/-- The configuration holds values of the last save, and those of the features that were not managed. -/
structure Kept (l : LastSave) (features : Features) : Prop where
  saved : ∀ id value, features.lookup id = some value →
    supported l.sulogEvents id = true ∧ value = flagValue (l.kernel.enabled id)
  present : ∀ id, supported l.sulogEvents id = true → l.Unmanaged id →
    features.lookup id = some (flagValue (l.kernel.enabled id))

/-- A kept configuration is small. -/
theorem Kept.card_lt {l : LastSave} {features : Features} (h : Kept l features) : features.keys.card < 2 ^ 32 := by
  have hsub : features.keys ⊆ (allFeatures.map FeatureId.toU32).toFinset := by
    intro id hid
    obtain ⟨value, hvalue⟩ := Finmap.mem_iff.mp (Finmap.mem_keys.mp hid)
    obtain ⟨featureId, hmem, heq⟩ := exists_mem_allFeatures (supported_lt (h.saved id value hvalue).1)
    exact List.mem_toFinset.mpr (List.mem_map.mpr ⟨featureId, hmem, heq⟩)
  have hcard : ((allFeatures.map FeatureId.toU32).toFinset).card = 5 := by decide
  have hle := Finset.card_le_card hsub
  omega

/-- What was just saved. -/
theorem kept_collect (d : FeatureDevice) (stack : Bool) :
    Kept ⟨d.sulogEvents, d.kernel, []⟩ (allFeatures.foldl (collectFeature d.sulogEvents stack d.kernel) ∅) := by
  constructor
  · intro id value hvalue
    rw [lookup_collect] at hvalue
    split_ifs at hvalue with hid
    · exact ⟨hid.1, (Option.some.inj hvalue).symm⟩
    · rw [Finmap.lookup_empty] at hvalue
      cases hvalue
  · intro id hid _
    rw [lookup_collect, if_pos ⟨hid, exists_mem_allFeatures (supported_lt hid)⟩]

/-- A boot drops what modules manage. -/
theorem Kept.afterInit {l : LastSave} {features : Features} (h : Kept l features) (managed : ManagedFeatures) :
    Kept { l with inits := l.inits ++ [managed] } (removeManaged managed features) := by
  constructor
  · intro id value hvalue
    have hdropped := dropped_removeManaged managed features id
    by_cases hid : Managed managed id
    · rw [hdropped.gone hid] at hvalue
      cases hvalue
    · rw [hdropped.left hid] at hvalue
      exact h.saved id value hvalue
  · intro id hid hun
    obtain ⟨hearlier, hnow⟩ := List.forall_mem_append.mp hun
    rw [(dropped_removeManaged managed features id).left (hnow managed (List.mem_singleton_self managed))]
    exact h.present id hid hearlier

theorem Kept.more {l : LastSave} {features : Features} (h : Kept l features) (managed : ManagedFeatures) :
    Kept { l with inits := l.inits ++ [managed] } features :=
  ⟨h.saved, fun id hid hun => h.present id hid (List.forall_mem_append.mp hun).1⟩

/-! ### Runs -/

/-- What may happen to the features: the commands, requests of the manager, and boots. -/
inductive FeatureAction
  | save (order : MapOrder UInt32 UInt64) (stack : Bool)
  | load (order : MapOrder UInt32 UInt64) (found : Found)
  | init (order : MapOrder UInt32 UInt64) (found : Found) (managed : Option ManagedFeatures)
  | set (managed : Option ManagedFeatures) (found : Found) (id : String) (value : UInt64) (callerModule : String)
  | ioctl (found : Found) (id : UInt32) (value : UInt64)
  | boot (sulogEvents : Bool) (kernel : KernelFeatures)

/-- What is told of a step. -/
inductive FeatureLabel
  | saved (sulogEvents : Bool) (kernel : KernelFeatures)
  | started (managed : ManagedFeatures)
  | other

/-- One step. -/
def featureStep (d : FeatureDevice) : FeatureAction → FeatureDevice × FeatureLabel
  | .save order stack => (saveConfig order stack d, .saved d.sulogEvents d.kernel)
  | .load order found => ((loadConfigAndApply order found d).2, .other)
  | .init order found managed => ((initFeatures order found managed d).2, .started (managed.getD []))
  | .set managed found id value callerModule => ((setFeature managed found id value callerModule d).2, .other)
  | .ioctl found id value => ({ d with kernel := (ksucallsSetFeature d.sulogEvents found id value d.kernel).2 }, .other)
  | .boot sulogEvents kernel => ({ d with sulogEvents := sulogEvents, kernel := kernel }, .other)

/-- Any sequence of steps, from a device without a file. -/
def featureMachine (sulogEvents : Bool) (kernel : KernelFeatures) :
    Machine FeatureDevice FeatureAction FeatureLabel where
  init := ⟨sulogEvents, kernel, none⟩
  step := fun d a => some (featureStep d a)

/-- The last save after one more step. -/
def noteLabel (l : Option LastSave) : FeatureLabel → Option LastSave
  | .saved sulogEvents kernel => some ⟨sulogEvents, kernel, []⟩
  | .started managed => l.map fun l => { l with inits := l.inits ++ [managed] }
  | .other => l

/-- The last save of a run. -/
def lastSave (trace : List FeatureLabel) : Option LastSave := trace.foldl noteLabel none

theorem lastSave_append (trace : List FeatureLabel) (label : FeatureLabel) :
    lastSave (trace ++ [label]) = noteLabel (lastSave trace) label := by
  rw [lastSave, lastSave, List.foldl_append]
  rfl

/-- The file holds what is left of the last save. -/
structure FileKept (l : Option LastSave) (d : FeatureDevice) : Prop where
  never : l = none → d.config = none
  kept : ∀ l', l = some l' → ∃ features, loadBinaryConfig d.config = .ok features ∧ Kept l' features

/-- A step that leaves the file. -/
theorem FileKept.congr {l : Option LastSave} {d d' : FeatureDevice} (h : FileKept l d) (hconfig : d'.config = d.config) :
    FileKept l d' :=
  ⟨fun hl => hconfig.trans (h.never hl), fun l' hl => hconfig ▸ h.kept l' hl⟩

theorem config_loadConfigAndApply (order : MapOrder UInt32 UInt64) (found : Found) (d : FeatureDevice) :
    (loadConfigAndApply order found d).2.config = d.config := by
  rw [loadConfigAndApply]
  cases loadBinaryConfig d.config with
  | error e => rfl
  | ok features =>
    dsimp only
    split_ifs <;> rfl

theorem config_setFeature (managed : Option ManagedFeatures) (found : Found) (id : String) (value : UInt64)
    (callerModule : String) (d : FeatureDevice) :
    (setFeature managed found id value callerModule d).2.config = d.config := by
  rw [setFeature]
  cases parseFeatureId id with
  | error e => rfl
  | ok featureId =>
    dsimp only
    split_ifs <;> rfl

theorem initFeatures_ok {order : MapOrder UInt32 UInt64} {found : Found} {managed : Option ManagedFeatures}
    {d : FeatureDevice} {features : Features} (h : loadBinaryConfig d.config = .ok features) :
    initFeatures order found managed d = (.ok (),
      if removeManaged (managed.getD []) features = ∅ then d
      else { d with
        kernel := applyConfig d.sulogEvents order found (removeManaged (managed.getD []) features) d.kernel
        config := some (saveBinaryConfig order (removeManaged (managed.getD []) features)) }) := by
  rw [initFeatures, h]
  dsimp only
  split_ifs <;> rfl

theorem removeManaged_empty (managed : ManagedFeatures) : removeManaged managed ∅ = ∅ := by
  refine Finmap.ext_lookup fun id => ?_
  by_cases hid : Managed managed id
  · rw [(dropped_removeManaged managed ∅ id).gone hid, Finmap.lookup_empty]
  · exact (dropped_removeManaged managed ∅ id).left hid

/-- A boot without a file does nothing. -/
theorem initFeatures_unsaved {order : MapOrder UInt32 UInt64} {found : Found} {managed : Option ManagedFeatures}
    {d : FeatureDevice} (h : d.config = none) : initFeatures order found managed d = (.ok (), d) := by
  have hload : loadBinaryConfig d.config = .ok ∅ := by
    rw [h]
    rfl
  rw [initFeatures_ok hload, removeManaged_empty, if_pos rfl]

/-- **What a boot makes of a feature**: the value in the file, unless the feature is managed or not there. -/
theorem enabled_initFeatures {order : MapOrder UInt32 UInt64} {found : Found} {managed : Option ManagedFeatures}
    {d : FeatureDevice} {features : Features} (h : loadBinaryConfig d.config = .ok features) {id : UInt32}
    (hid : supported d.sulogEvents id = true) : (initFeatures order found managed d).2.kernel.enabled id =
      ((removeManaged (managed.getD []) features).lookup id).elim (d.kernel.enabled id) fun value =>
        decide (value ≠ 0) := by
  rw [initFeatures_ok h]
  by_cases hempty : removeManaged (managed.getD []) features = ∅
  · rw [if_pos hempty, hempty, Finmap.lookup_empty]
    rfl
  · rw [if_neg hempty]
    exact enabled_applyConfig hid order found _ d.kernel

/-- A boot keeps what the file should hold. -/
theorem FileKept.init {l : Option LastSave} {d : FeatureDevice} (h : FileKept l d) (order : MapOrder UInt32 UInt64)
    (found : Found) (managed : Option ManagedFeatures) :
    FileKept (noteLabel l (.started (managed.getD []))) (initFeatures order found managed d).2 := by
  cases l with
  | none =>
    rw [initFeatures_unsaved (h.never rfl)]
    exact h
  | some l' =>
    obtain ⟨features, hload, hkept⟩ := h.kept l' rfl
    rw [initFeatures_ok hload]
    refine ⟨fun hl => absurd hl (Option.some_ne_none _), fun l'' hl => ?_⟩
    obtain rfl := Option.some.inj hl
    by_cases hempty : removeManaged (managed.getD []) features = ∅
    · rw [if_pos hempty]
      exact ⟨features, hload, hkept.more _⟩
    · rw [if_neg hempty]
      have hkept' := hkept.afterInit (managed.getD [])
      exact ⟨_, loadBinaryConfig_saveBinaryConfig order hkept'.card_lt, hkept'⟩

/-- **One step** keeps what the file should hold. -/
theorem FileKept.step {l : Option LastSave} {d : FeatureDevice} (h : FileKept l d) (a : FeatureAction) :
    FileKept (noteLabel l (featureStep d a).2) (featureStep d a).1 := by
  cases a with
  | save order stack =>
    refine ⟨fun hl => absurd hl (Option.some_ne_none _), fun l' hl => ?_⟩
    obtain rfl := Option.some.inj hl
    have hkept := kept_collect d stack
    exact ⟨_, loadBinaryConfig_saveBinaryConfig order hkept.card_lt, hkept⟩
  | load order found => exact h.congr (config_loadConfigAndApply order found d)
  | init order found managed => exact h.init order found managed
  | set managed found id value callerModule => exact h.congr (config_setFeature managed found id value callerModule d)
  | ioctl found id value => exact h.congr rfl
  | boot sulogEvents kernel => exact h.congr rfl

/-- **In every run** the file holds what is left of the last save. -/
theorem reaches_fileKept {sulogEvents : Bool} {kernel : KernelFeatures} {trace : List FeatureLabel} {d : FeatureDevice}
    (h : (featureMachine sulogEvents kernel).Reaches trace d) : FileKept (lastSave trace) d := by
  refine h.invariant (fun trace d => FileKept (lastSave trace) d) ?_ ?_
  · exact ⟨fun _ => rfl, fun l' hl => absurd hl.symm (Option.some_ne_none _)⟩
  · intro trace d a d' label ih hstep
    obtain ⟨rfl, rfl⟩ := Prod.mk.inj (Option.some.inj hstep)
    rw [lastSave_append]
    exact ih.step a

/-! ### What a boot makes of it -/

/-- What a boot with managed features `ms` does to the kernel's features. -/
structure Restored (l : Option LastSave) (ms : ManagedFeatures) (d d' : FeatureDevice) : Prop where
  /-- A managed feature is left to its modules. -/
  managed : ∀ id, supported d.sulogEvents id = true → Managed ms id → d'.kernel.enabled id = d.kernel.enabled id
  /-- Nothing happens before the first save. -/
  unsaved : l = none → d' = d
  /-- A feature that was saved, and not managed since, has the value that was saved. -/
  restored : ∀ l', l = some l' → ∀ id, supported d.sulogEvents id = true → supported l'.sulogEvents id = true →
    l'.Unmanaged id → ¬Managed ms id → d'.kernel.enabled id = l'.kernel.enabled id
  /-- No feature gets a value that it did not have now or at the last save. -/
  known : ∀ id, supported d.sulogEvents id = true → d'.kernel.enabled id = d.kernel.enabled id ∨
    ∃ l', l = some l' ∧ d'.kernel.enabled id = l'.kernel.enabled id

theorem flagValue_ne_zero (b : Bool) : decide (flagValue b ≠ 0) = b := by
  cases b with
  | false => rfl
  | true => rfl

/-- The boot after the last save. -/
theorem Kept.restored {l : LastSave} {features : Features} (h : Kept l features) {d : FeatureDevice}
    (hload : loadBinaryConfig d.config = .ok features) (order : MapOrder UInt32 UInt64) (found : Found)
    (managed : Option ManagedFeatures) :
    Restored (some l) (managed.getD []) d (initFeatures order found managed d).2 := by
  have hdropped := dropped_removeManaged (managed.getD []) features
  refine ⟨fun id hid hmanaged => ?_, fun hl => absurd hl (Option.some_ne_none _), fun l' hl id hid hid' hun hnot => ?_,
    fun id hid => ?_⟩
  · rw [enabled_initFeatures hload hid, (hdropped id).gone hmanaged]
    rfl
  · obtain rfl := Option.some.inj hl
    rw [enabled_initFeatures hload hid, (hdropped id).left hnot, h.present id hid' hun]
    exact flagValue_ne_zero _
  · rw [enabled_initFeatures hload hid]
    cases hvalue : (removeManaged (managed.getD []) features).lookup id with
    | none => exact Or.inl rfl
    | some value =>
      refine Or.inr ⟨l, rfl, ?_⟩
      rw [((h.afterInit (managed.getD [])).saved id value hvalue).2]
      exact flagValue_ne_zero _

/-- **A boot restores the features.**  Whatever has happened since the features were last saved, the boot succeeds, and
a feature that no module has managed since comes back as it was saved. -/
theorem initFeatures_restores {sulogEvents : Bool} {kernel : KernelFeatures} {trace : List FeatureLabel}
    {d : FeatureDevice} (h : (featureMachine sulogEvents kernel).Reaches trace d) (order : MapOrder UInt32 UInt64)
    (found : Found) (managed : Option ManagedFeatures) : (initFeatures order found managed d).1 = .ok () ∧
      Restored (lastSave trace) (managed.getD []) d (initFeatures order found managed d).2 := by
  have hfile := reaches_fileKept h
  cases hl : lastSave trace with
  | none =>
    rw [initFeatures_unsaved (hfile.never hl)]
    exact ⟨rfl, fun _ _ _ => rfl, fun _ => rfl, fun l' hl => absurd hl.symm (Option.some_ne_none _),
      fun _ _ => Or.inl rfl⟩
  | some l =>
    obtain ⟨features, hload, hkept⟩ := hfile.kept l hl
    refine ⟨?_, hkept.restored hload order found managed⟩
    rw [initFeatures_ok hload]

/-- A kernel as it starts. -/
def bootKernel : KernelFeatures where
  suCompatEnabled := true
  kernelUmountEnabled := true
  sulogEnabled := false
  adbRoot := false
  selinuxHide := ⟨.kernel 1, .kernel 2, .kernel 3, .kernel 4, .null, .null, .null, false, false, .null, false, false⟩

/-- Nothing that selinux hiding needs is there. -/
def foundNothing : Found := ⟨false, false, false, .null, false, false⟩

/-- The features are saved with `adb_root` on, and the next boot turns it on again. -/
theorem initFeatures_restores_adbRoot : ∃ trace d,
    (featureMachine true { bootKernel with adbRoot := true }).Reaches trace d ∧ d.kernel.adbRoot = false ∧
      (initFeatures default foundNothing (some []) d).2.kernel.adbRoot = true := by
  have hsaved : (featureMachine true { bootKernel with adbRoot := true }).Reaches
      [.saved true { bootKernel with adbRoot := true }, .other] _ :=
    (Machine.Reaches.init.step (a := .save default false) rfl).step (a := .boot true bootKernel) rfl
  refine ⟨_, _, hsaved, rfl, ?_⟩
  have hboot := (initFeatures_restores hsaved default foundNothing (some [])).2
  have hnot : ¬Managed [] KSU_FEATURE_ADB_ROOT := fun ⟨_, h, _⟩ => absurd h List.not_mem_nil
  exact hboot.restored ⟨true, { bootKernel with adbRoot := true }, []⟩ rfl KSU_FEATURE_ADB_ROOT (by decide) (by decide)
    (List.forall_mem_nil _) hnot

/-! ### Torn files -/

/-- **All of a file or nothing.**  A saved configuration is loaded; of a file that ends too early the commands apply
nothing, and they leave it. -/
theorem binaryConfig_allOrNothing (order : MapOrder UInt32 UInt64) {features : Features}
    (hlen : features.keys.card < 2 ^ 32) (d : FeatureDevice) {t : List UInt8}
    (ht : t <+: saveBinaryConfig order features) (hfile : d.config = some t) :
    (t = saveBinaryConfig order features → loadBinaryConfig d.config = .ok features) ∧
      (t ≠ saveBinaryConfig order features → ∃ e,
        (∀ order' found managed, initFeatures order' found managed d = (.error e, d)) ∧
          ∀ order' found, loadConfigAndApply order' found d = (.error e, d)) := by
  constructor
  · rintro rfl
    rw [hfile]
    exact loadBinaryConfig_saveBinaryConfig order hlen
  · intro hne
    obtain ⟨e, he⟩ := loadBinaryConfig_torn order hlen ht hne
    refine ⟨e, fun order' found managed => ?_, fun order' found => ?_⟩
    · rw [initFeatures, hfile, he]
    · rw [loadConfigAndApply, hfile, he]

/-- A file that ends behind its magic number, with one feature to come. -/
theorem binaryConfig_allOrNothing_magic : ∃ e, ∀ order found managed,
    initFeatures order found managed ⟨true, bootKernel, some (encodeLE 4 FEATURE_MAGIC)⟩ =
      (.error e, ⟨true, bootKernel, some (encodeLE 4 FEATURE_MAGIC)⟩) := by
  have hlen : (Finmap.singleton 3 1 : Features).keys.card < 2 ^ 32 := by decide
  have hpre : encodeLE 4 FEATURE_MAGIC <+: saveBinaryConfig default (Finmap.singleton 3 1) := List.prefix_append _ _
  have hne : encodeLE 4 FEATURE_MAGIC ≠ saveBinaryConfig default (Finmap.singleton 3 1) := by
    intro heq
    have hlength := congrArg List.length heq
    rw [saveBinaryConfig, List.length_append, List.length_append, encodeLE_length, encodeLE_length] at hlength
    omega
  obtain ⟨e, he, -⟩ := (binaryConfig_allOrNothing default hlen ⟨true, bootKernel, _⟩ hpre rfl).2 hne
  exact ⟨e, he⟩

end KernelSU.Ksud.FeatureConfig
