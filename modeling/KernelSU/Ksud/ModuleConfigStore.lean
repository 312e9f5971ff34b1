import KernelSU.Ksud.ModuleConfigFile

/-!
# The configurations as layered maps

What the files are for: each module has two maps, and an operation changes one of them or fails.

* `ConfigOp.apply` — an operation on a map;
* `Stores.runOp` — **PROVED**: an operation on the files is the operation on the maps;
* `configStore_layered` — **PROVED**: so is every run of operations, and merging lays the temporary map over the
  persistent one.
-/

namespace KernelSU.Ksud

open KernelSU.Lib

/-! ### Maps -/

inductive ConfigOp where
  | set (moduleId key value : String) (configType : ConfigType)
  | delete (moduleId key : String) (configType : ConfigType)
  | clear (moduleId : String) (configType : ConfigType)

def ConfigOp.moduleId : ConfigOp → String
  | .set moduleId _ _ _ => moduleId
  | .delete moduleId _ _ => moduleId
  | .clear moduleId _ => moduleId

def ConfigOp.configType : ConfigOp → ConfigType
  | .set _ _ _ configType => configType
  | .delete _ _ configType => configType
  | .clear _ configType => configType

/-- What an operation makes of its map; `none` if it fails. -/
def ConfigOp.apply (config : Config) : ConfigOp → Option Config
  | .set _ key value _ =>
    if (validateConfigKey key).isOk && (validateConfigValue value).isOk &&
      Config.len (config.insert key value) ≤ maxConfigCount then some (config.insert key value)
    else none
  | .delete _ key _ => if key ∈ config then some (config.erase key) else none
  | .clear _ _ => some ∅

/-- The maps of all modules. -/
abbrev Layers := String → ConfigType → Config

def Layers.update (layers : Layers) (moduleId : String) (configType : ConfigType) (config : Config) : Layers :=
  fun m t => if m = moduleId ∧ t = configType then config else layers m t

/-- An operation, and whether it succeeds. -/
def Layers.runOp (layers : Layers) (op : ConfigOp) : Bool × Layers :=
  match op.apply (layers op.moduleId op.configType) with
  | some config => (true, layers.update op.moduleId op.configType config)
  | none => (false, layers)

def Layers.run : Layers → List ConfigOp → List Bool × Layers
  | layers, [] => ([], layers)
  | layers, op :: ops =>
    let r := layers.runOp op
    let s := r.2.run ops
    (r.1 :: s.1, s.2)

/-! ### Files -/

def runConfigOp (order : Iteration) (files : FileSystem) : ConfigOp → Except ConfigError Unit × FileSystem
  | .set moduleId key value configType => setConfigValue order files moduleId key value configType
  | .delete moduleId key configType => deleteConfigValue order files moduleId key configType
  | .clear moduleId configType => clearConfig files moduleId configType

/-- Operations in turn; each lists the entries of its map in its own order. -/
def runConfigOps : FileSystem → List (Iteration × ConfigOp) → List (Except ConfigError Unit) × FileSystem
  | files, [] => ([], files)
  | files, (order, op) :: ops =>
    let r := runConfigOp order files op
    let s := runConfigOps r.2 ops
    (r.1 :: s.1, s.2)

/-- The files store the maps. -/
structure Stores (files : FileSystem) (layers : Layers) : Prop where
  load : ∀ {m}, isIdentifier m = true → ∀ t, loadConfig files m t = .ok (layers m t)
  limits : ∀ {m}, isIdentifier m = true → ∀ t, WithinLimits (layers m t)

theorem withinLimits_empty : WithinLimits ∅ := by
  refine ⟨Nat.zero_le _, ?_, ?_⟩
  · intro key value h
    cases h
  · intro key value h
    cases h

/-- No file at all stores empty maps. -/
theorem stores_empty : Stores (fun _ => none) fun _ _ => ∅ where
  load := fun h t => loadConfig_eq h t
  limits := fun _ _ => withinLimits_empty

/-! ### One operation -/

theorem len_erase_le (config : Config) (key : String) : Config.len (config.erase key) ≤ config.len := by
  rw [len_eq_card_keys, len_eq_card_keys, Finmap.keys_erase]
  exact Finset.card_erase_le

theorem WithinLimits.erase {config : Config} (h : WithinLimits config) (key : String) :
    WithinLimits (config.erase key) := by
  have hkeep : ∀ {k v}, (config.erase key).lookup k = some v → config.lookup k = some v := by
    intro k v hlookup
    by_cases hk : k = key
    · rw [hk, Finmap.lookup_erase] at hlookup
      cases hlookup
    · rwa [Finmap.lookup_erase_ne hk] at hlookup
  exact ⟨Nat.le_trans (len_erase_le config key) h.count, fun hl => h.key (hkeep hl), fun hl => h.value (hkeep hl)⟩

theorem WithinLimits.insert_iff {config : Config} (h : WithinLimits config) (key value : String) :
    WithinLimits (config.insert key value) ↔
      validateConfigKey key = .ok () ∧ validateConfigValue value = .ok () ∧
        Config.len (config.insert key value) ≤ maxConfigCount := by
  constructor
  · intro hnew
    exact ⟨hnew.key (Finmap.lookup_insert config), hnew.value (Finmap.lookup_insert config), hnew.count⟩
  · rintro ⟨hkey, hvalue, hcount⟩
    have hcases : ∀ {k v}, (config.insert key value).lookup k = some v →
        k = key ∧ v = value ∨ config.lookup k = some v := by
      intro k v hlookup
      by_cases hk : k = key
      · rw [hk, Finmap.lookup_insert] at hlookup
        exact Or.inl ⟨hk, (Option.some.inj hlookup).symm⟩
      · rw [Finmap.lookup_insert_of_ne config hk] at hlookup
        exact Or.inr hlookup
    refine ⟨hcount, ?_, ?_⟩
    · intro k v hlookup
      rcases hcases hlookup with ⟨rfl, rfl⟩ | hold
      · exact hkey
      · exact h.key hold
    · intro k v hlookup
      rcases hcases hlookup with ⟨rfl, rfl⟩ | hold
      · exact hvalue
      · exact h.value hold

theorem isOk_iff {x : Except ConfigError Unit} : x.isOk = true ↔ x = .ok () := by
  cases x <;> simp [Except.isOk, Except.toBool]

section Operation

variable {files : FileSystem} {layers : Layers} (h : Stores files layers) {moduleId : String}
  (hid : isIdentifier moduleId = true) (t : ConfigType) (order : Iteration)

include h hid

/-- **Saving** a configuration within the limits stores it in the place of the old one. -/
theorem Stores.saveConfig {config : Config} (hlimits : WithinLimits config) :
    (saveConfig order files moduleId t config).1 = .ok () ∧
      Stores (Ksud.saveConfig order files moduleId t config).2 (layers.update moduleId t config) := by
  refine ⟨?_, ?_, ?_⟩
  · rw [saveConfig_of_ok (validateConfig_ok.mpr ⟨hid, hlimits⟩)]
  · intro m hm t'
    by_cases hsame : m = moduleId ∧ t' = t
    · obtain ⟨rfl, rfl⟩ := hsame
      rw [loadConfig_saveConfig hm hlimits, Layers.update, if_pos ⟨rfl, rfl⟩]
    · rw [Layers.update, if_neg hsame, ← h.load hm t', loadConfig_eq hm, loadConfig_eq hm,
        saveConfig_apply hid hlimits hm, if_neg hsame]
  · intro m hm t'
    rw [Layers.update]
    split_ifs
    · exact hlimits
    · exact h.limits hm t'

/-- **Clearing** leaves the empty map. -/
theorem Stores.clearConfig : (clearConfig files moduleId t).1 = .ok () ∧
    Stores (Ksud.clearConfig files moduleId t).2 (layers.update moduleId t ∅) := by
  refine ⟨?_, ?_, ?_⟩
  · rw [Ksud.clearConfig]
    split_ifs <;> rfl
  · intro m hm t'
    rw [Layers.update, loadConfig_eq hm, clearConfig_apply hid hm]
    split_ifs with hsame
    · rfl
    · rw [← h.load hm t', loadConfig_eq hm]
  · intro m hm t'
    rw [Layers.update]
    split_ifs
    · exact withinLimits_empty
    · exact h.limits hm t'

/-- Setting a valid value. -/
theorem Stores.setConfigValue_valid {key value : String} (hkey : validateConfigKey key = .ok ())
    (hvalue : validateConfigValue value = .ok ()) :
    setConfigValue order files moduleId key value t =
      Ksud.saveConfig order files moduleId t ((layers moduleId t).insert key value) := by
  rw [setConfigValue, hkey, hvalue, h.load hid t]
  rfl

end Operation

/-- What a failed check leaves. -/
theorem setConfigValue_invalid (order : Iteration) (files : FileSystem) (moduleId : String) (t : ConfigType)
    {key value : String} (hinvalid : ¬(validateConfigKey key = .ok () ∧ validateConfigValue value = .ok ())) :
    (setConfigValue order files moduleId key value t).1.isOk = false ∧
      (setConfigValue order files moduleId key value t).2 = files := by
  rw [setConfigValue]
  cases hkey : validateConfigKey key with
  | error e => exact ⟨rfl, rfl⟩
  | ok _ =>
    cases hvalue : validateConfigValue value with
    | error e => exact ⟨rfl, rfl⟩
    | ok _ => exact absurd ⟨hkey, hvalue⟩ hinvalid

theorem saveConfig_invalid (order : Iteration) (files : FileSystem) (moduleId : String) (t : ConfigType)
    {config : Config} (hinvalid : ¬WithinLimits config) :
    (saveConfig order files moduleId t config).1.isOk = false ∧
      (saveConfig order files moduleId t config).2 = files := by
  cases hvalidate : validateConfig order moduleId config with
  | error e =>
    rw [saveConfig, hvalidate]
    exact ⟨rfl, rfl⟩
  | ok _ => exact absurd (validateConfig_ok.mp hvalidate).2 hinvalid

theorem Layers.runOp_of_some {layers : Layers} {op : ConfigOp} {config : Config}
    (h : op.apply (layers op.moduleId op.configType) = some config) :
    layers.runOp op = (true, layers.update op.moduleId op.configType config) := by
  rw [Layers.runOp, h]

theorem Layers.runOp_of_none {layers : Layers} {op : ConfigOp}
    (h : op.apply (layers op.moduleId op.configType) = none) : layers.runOp op = (false, layers) := by
  rw [Layers.runOp, h]

section Run

variable {files : FileSystem} {layers : Layers} (h : Stores files layers)

include h

theorem Stores.runSet (order : Iteration) {moduleId : String} (key value : String) (t : ConfigType)
    (hid : isIdentifier moduleId = true) :
    (setConfigValue order files moduleId key value t).1.isOk = (layers.runOp (.set moduleId key value t)).1 ∧
      Stores (setConfigValue order files moduleId key value t).2 (layers.runOp (.set moduleId key value t)).2 := by
  have hiff := (h.limits hid t).insert_iff key value
  by_cases hset : WithinLimits ((layers moduleId t).insert key value)
  · obtain ⟨hkey, hvalue, hcount⟩ := hiff.mp hset
    have happly : ConfigOp.apply (layers moduleId t) (.set moduleId key value t)
        = some ((layers moduleId t).insert key value) := by
      rw [ConfigOp.apply, isOk_iff.mpr hkey, isOk_iff.mpr hvalue, decide_eq_true hcount]
      rfl
    obtain ⟨hok, hstores⟩ := h.saveConfig hid t order hset
    rw [Layers.runOp_of_some happly, h.setConfigValue_valid hid t order hkey hvalue, hok]
    exact ⟨rfl, hstores⟩
  · have happly : ConfigOp.apply (layers moduleId t) (.set moduleId key value t) = none := by
      rw [ConfigOp.apply, if_neg]
      rintro hchecks
      rw [Bool.and_eq_true, Bool.and_eq_true, isOk_iff, isOk_iff, decide_eq_true_iff] at hchecks
      exact hset (hiff.mpr ⟨hchecks.1.1, hchecks.1.2, hchecks.2⟩)
    rw [Layers.runOp_of_none happly]
    by_cases hvalid : validateConfigKey key = .ok () ∧ validateConfigValue value = .ok ()
    · obtain ⟨herror, hfiles⟩ := saveConfig_invalid order files moduleId t hset
      rw [h.setConfigValue_valid hid t order hvalid.1 hvalid.2, hfiles]
      exact ⟨herror, h⟩
    · obtain ⟨herror, hfiles⟩ := setConfigValue_invalid order files moduleId t hvalid
      rw [hfiles]
      exact ⟨herror, h⟩

theorem Stores.runDelete (order : Iteration) {moduleId : String} (key : String) (t : ConfigType)
    (hid : isIdentifier moduleId = true) :
    (deleteConfigValue order files moduleId key t).1.isOk = (layers.runOp (.delete moduleId key t)).1 ∧
      Stores (deleteConfigValue order files moduleId key t).2 (layers.runOp (.delete moduleId key t)).2 := by
  rw [deleteConfigValue, h.load hid t]
  by_cases hkey : key ∈ layers moduleId t
  · have happly : ConfigOp.apply (layers moduleId t) (.delete moduleId key t) = some ((layers moduleId t).erase key) := by
      rw [ConfigOp.apply, if_pos hkey]
    obtain ⟨hok, hstores⟩ := h.saveConfig hid t order ((h.limits hid t).erase key)
    rw [Layers.runOp_of_some happly]
    simp only [if_pos hkey, hok]
    exact ⟨rfl, hstores⟩
  · have happly : ConfigOp.apply (layers moduleId t) (.delete moduleId key t) = none := by
      rw [ConfigOp.apply, if_neg hkey]
    rw [Layers.runOp_of_none happly]
    simp only [if_neg hkey]
    exact ⟨rfl, h⟩

/-- **An operation on the files is the operation on the maps.** -/
theorem Stores.runOp (order : Iteration) (op : ConfigOp) (hid : isIdentifier op.moduleId = true) :
    (runConfigOp order files op).1.isOk = (layers.runOp op).1 ∧
      Stores (runConfigOp order files op).2 (layers.runOp op).2 := by
  cases op with
  | set moduleId key value t => exact h.runSet order key value t hid
  | delete moduleId key t => exact h.runDelete order key t hid
  | clear moduleId t =>
    change isIdentifier moduleId = true at hid
    obtain ⟨hok, hstores⟩ := h.clearConfig hid t
    refine ⟨?_, hstores⟩
    rw [runConfigOp, hok]
    rfl

end Run

/-- So is a run of operations. -/
theorem Stores.runOps {files : FileSystem} {layers : Layers} (h : Stores files layers)
    (ops : List (Iteration × ConfigOp)) (hvalid : ∀ o ∈ ops, isIdentifier o.2.moduleId = true) :
    (runConfigOps files ops).1.map Except.isOk = (layers.run (ops.map Prod.snd)).1 ∧
      Stores (runConfigOps files ops).2 (layers.run (ops.map Prod.snd)).2 := by
  induction ops generalizing files layers with
  | nil => exact ⟨rfl, h⟩
  | cons o ops ih =>
    obtain ⟨order, op⟩ := o
    obtain ⟨hop, hops⟩ := List.forall_mem_cons.mp hvalid
    obtain ⟨hok, hstores⟩ := h.runOp order op hop
    obtain ⟨hoks, hrest⟩ := ih hstores hops
    exact ⟨congrArg₂ List.cons hok hoks, hrest⟩

/-- **Merging** lays the temporary map over the persistent one. -/
theorem Stores.mergeConfigs {files : FileSystem} {layers : Layers} (h : Stores files layers) (order : Iteration)
    {moduleId : String} (hid : isIdentifier moduleId = true) :
    mergeConfigs order files moduleId = .ok (layers moduleId .temp ∪ layers moduleId .persist) := by
  rw [Ksud.mergeConfigs, validateModuleId_ok.mpr hid, h.load hid, h.load hid]
  show Except.ok ((order.entries _).foldl _ _) = _
  rw [order.foldl_insert_entries]

/-! ### Failures and other files -/

section Failures

variable {order : Iteration} {files : FileSystem} {e : ConfigError}

theorem saveConfig_error {moduleId : String} {t : ConfigType} {config : Config}
    (h : (saveConfig order files moduleId t config).1 = .error e) :
    (saveConfig order files moduleId t config).2 = files := by
  unfold saveConfig at h ⊢
  split at h
  · rfl
  · cases h

theorem saveConfig_other {moduleId : String} {t : ConfigType} {config : Config} (hid : isIdentifier moduleId = true)
    {m : String} (hm : isIdentifier m = true) {t' : ConfigType} (hother : ¬(m = moduleId ∧ t' = t)) :
    (saveConfig order files moduleId t config).2 (getConfigPath m t') = files (getConfigPath m t') := by
  cases hsave : (saveConfig order files moduleId t config).1 with
  | error e => rw [saveConfig_error hsave]
  | ok _ =>
    cases hvalidate : validateConfig order moduleId config with
    | error e =>
      rw [saveConfig, hvalidate] at hsave
      cases hsave
    | ok _ =>
      rw [saveConfig_apply hid (validateConfig_ok.mp hvalidate).2 hm, if_neg hother]

/-- **An operation that fails changes no file.** -/
theorem runConfigOp_error {op : ConfigOp} (h : (runConfigOp order files op).1 = .error e) :
    (runConfigOp order files op).2 = files := by
  cases op with
  | set moduleId key value t =>
    simp only [runConfigOp, setConfigValue] at h ⊢
    split at h
    · rfl
    · exact saveConfig_error h
  | delete moduleId key t =>
    simp only [runConfigOp, deleteConfigValue] at h ⊢
    split at h
    · rfl
    · split_ifs at h ⊢
      · exact saveConfig_error h
      · rfl
  | clear moduleId t =>
    simp only [runConfigOp, clearConfig] at h
    split_ifs at h

/-- **An operation changes no other module's file** and no other type's. -/
theorem runConfigOp_other {op : ConfigOp} (hid : isIdentifier op.moduleId = true) {m : String}
    (hm : isIdentifier m = true) {t : ConfigType} (hother : ¬(m = op.moduleId ∧ t = op.configType)) :
    (runConfigOp order files op).2 (getConfigPath m t) = files (getConfigPath m t) := by
  cases op with
  | set moduleId key value t' =>
    simp only [runConfigOp, setConfigValue]
    split
    · rfl
    · exact saveConfig_other hid hm hother
  | delete moduleId key t' =>
    simp only [runConfigOp, deleteConfigValue]
    split
    · rfl
    · split_ifs
      · exact saveConfig_other hid hm hother
      · rfl
  | clear moduleId t' => exact (clearConfig_apply hid hm t).trans (if_neg hother)

end Failures

/-- **The files are a layered map.**  A run of operations on files that store maps succeeds where it does on the maps
and stores what it makes of them; merging lays the temporary map over the persistent one; an operation that fails
changes no file, and no operation changes another module's or type's; and what is saved within the limits is what
loads. -/
theorem configStore_layered {files : FileSystem} {layers : Layers} (h : Stores files layers)
    (ops : List (Iteration × ConfigOp)) (hvalid : ∀ o ∈ ops, isIdentifier o.2.moduleId = true) :
    ((runConfigOps files ops).1.map Except.isOk = (layers.run (ops.map Prod.snd)).1 ∧
      ∀ {m}, isIdentifier m = true →
        (∀ t, loadConfig (runConfigOps files ops).2 m t = .ok ((layers.run (ops.map Prod.snd)).2 m t)) ∧
        ∀ order, mergeConfigs order (runConfigOps files ops).2 m =
          .ok ((layers.run (ops.map Prod.snd)).2 m .temp ∪ (layers.run (ops.map Prod.snd)).2 m .persist)) ∧
      (∀ order files op e, (runConfigOp order files op).1 = .error e → (runConfigOp order files op).2 = files) ∧
      (∀ order files op m t, isIdentifier op.moduleId = true → isIdentifier m = true →
        ¬(m = op.moduleId ∧ t = op.configType) →
        (runConfigOp order files op).2 (getConfigPath m t) = files (getConfigPath m t)) ∧
      ∀ order files m t config, isIdentifier m = true → WithinLimits config →
        loadConfig (saveConfig order files m t config).2 m t = .ok config := by
  obtain ⟨hoks, hstores⟩ := h.runOps ops hvalid
  refine ⟨⟨hoks, ?_⟩, ?_, ?_, ?_⟩
  · intro m hm
    exact ⟨hstores.load hm, fun order => hstores.mergeConfigs order hm⟩
  · intro order files op e herror
    exact runConfigOp_error herror
  · intro order files op m t hid hm hother
    exact runConfigOp_other hid hm hother
  · intro order files m t config hm hlimits
    exact loadConfig_saveConfig hm hlimits

/-- One module with the same key in both maps, and a key that is not there. -/
theorem configStore_layered_twoTypes :
    ((runConfigOps (fun _ => none) [(default, .set "mod" "key" "a" .persist), (default, .set "mod" "key" "b" .temp),
      (default, .delete "mod" "other" .temp)]).1.map Except.isOk) = [true, true, false] :=
  (configStore_layered stores_empty _ (by decide)).1.1.trans (by decide)

end KernelSU.Ksud
