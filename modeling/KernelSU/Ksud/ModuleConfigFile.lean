import KernelSU.Ksud.ModuleConfig
import KernelSU.Lib.Fallible

/-!
# A configuration file is read back

* `readConfig_writeConfig` — **PROVED**: what is written is read back, whatever the order of the entries;
* `loadConfig_saveConfig` — **PROVED**: a saved configuration is the one that loads;
* `saveConfig_apply`, `clearConfig_apply` — **PROVED**: saving and clearing change their own file and no other.
-/

namespace KernelSU.Ksud

open KernelSU.Lib KernelSU.Lib.Bytes KernelSU.Lib.ByteReader

/-! ### The format -/

theorem len_eq_card_keys (config : Config) : config.len = config.keys.card :=
  (Multiset.card_map Sigma.fst config.entries).symm

theorem exact_readText {text : String} (hlen : (asBytes text).length < 2 ^ 32) (what : String) (entry : ℕ) :
    Exact (readText what entry) (writeText text) text := by
  have hread : Exact (readText what entry) (encodeLE 4 (asBytes text).length ++ (asBytes text ++ [])) text := by
    refine (Exact.takeLE hlen _).bind ((Exact.takeBytes _).bind ?_)
    rw [textFromUtf8_eq_some_iff.mpr rfl]
    exact Exact.pure text
  rwa [List.append_nil] at hread

/-- The entry fits the lengths of the format. -/
def Storable (e : Σ _ : String, String) : Prop := (asBytes e.1).length < 2 ^ 32 ∧ (asBytes e.2).length < 2 ^ 32

/-- The entries, one after the other. -/
theorem exact_readEntries (l : List (Σ _ : String, String)) (hl : ∀ e ∈ l, Storable e) (i : ℕ) (config : Config) :
    Exact (readEntries l.length i config) (l.flatMap fun e => writeText e.1 ++ writeText e.2)
      (l.foldl (fun config e => config.insert e.1 e.2) config) := by
  induction l generalizing i config with
  | nil => exact Exact.pure config
  | cons e l ih =>
    obtain ⟨⟨hkey, hvalue⟩, hrest⟩ := List.forall_mem_cons.mp hl
    rw [List.length_cons, readEntries, List.flatMap_cons, List.append_assoc, List.foldl_cons]
    exact (exact_readText hkey _ _).bind ((exact_readText hvalue _ _).bind (ih hrest _ _))

/-- **What is written is read back**, whatever the order of the entries. -/
theorem readConfig_writeConfig (order : Iteration) {config : Config} (hlen : config.len < 2 ^ 32)
    (hentries : ∀ e ∈ order.entries config, Storable e) :
    Exact readConfig (writeConfig config.len (order.entries config)) config := by
  have hread := exact_readEntries (order.entries config) hentries 0 ∅
  rw [order.length_entries, order.foldl_insert_entries, Finmap.union_empty, ← len_eq_card_keys] at hread
  rw [writeConfig, List.append_assoc, List.append_assoc]
  refine (Exact.takeLE (by decide) _).bind ?_
  show Exact (takeLE 4 (ConfigError.failedToRead "version") >>= _) _ _
  refine (Exact.takeLE (by decide) _).bind ?_
  show Exact (takeLE 4 (ConfigError.failedToRead "count") >>= _) _ _
  exact (Exact.takeLE hlen _).bind hread

/-! ### Limits -/

/-- The configuration is one that `save_config` writes. -/
structure WithinLimits (config : Config) : Prop where
  count : config.len ≤ maxConfigCount
  key : ∀ {key value}, config.lookup key = some value → validateConfigKey key = .ok ()
  value : ∀ {key value}, config.lookup key = some value → validateConfigValue value = .ok ()

theorem validateConfigKey_ok {key : String} (h : validateConfigKey key = .ok ()) :
    (asBytes key).length ≤ maxConfigKeyLen := by
  unfold validateConfigKey at h
  split_ifs at h
  omega

theorem validateConfigValue_ok {value : String} (h : validateConfigValue value = .ok ()) :
    (asBytes value).length ≤ maxConfigValueLen := by
  unfold validateConfigValue at h
  split_ifs at h
  omega

theorem WithinLimits.storable {config : Config} (h : WithinLimits config) (order : Iteration) :
    ∀ e ∈ order.entries config, Storable e := by
  intro e he
  have hlookup := order.mem_entries.mp he
  have hkey := validateConfigKey_ok (h.key hlookup)
  have hvalue := validateConfigValue_ok (h.value hlookup)
  simp only [maxConfigKeyLen, maxConfigValueLen] at hkey hvalue
  exact ⟨by omega, by omega⟩

theorem validateEntry_ok {e : Σ _ : String, String} :
    validateEntry e = .ok () ↔ validateConfigKey e.1 = .ok () ∧ validateConfigValue e.2 = .ok () := by
  rw [validateEntry, except_check_ok, mapError_ok, mapError_ok]

theorem validateModuleId_ok {moduleId : String} :
    validateModuleId moduleId = .ok () ↔ isIdentifier moduleId = true := by
  unfold validateModuleId
  split_ifs with h <;> simp [h]

theorem validateConfigCount_ok {config : Config} :
    validateConfigCount config = .ok () ↔ config.len ≤ maxConfigCount := by
  unfold validateConfigCount
  split_ifs with h
  · exact iff_of_false (fun h => by cases h) (Nat.not_le.mpr h)
  · exact iff_of_true rfl (Nat.not_lt.mp h)

/-- **What `save_config` checks**: the id and the limits, in whatever order it goes through the entries. -/
theorem validateConfig_ok {order : Iteration} {moduleId : String} {config : Config} :
    validateConfig order moduleId config = .ok () ↔ isIdentifier moduleId = true ∧ WithinLimits config := by
  rw [validateConfig, except_check_ok, except_check_ok, validateModuleId_ok, validateConfigCount_ok, forM_ok]
  refine and_congr_right fun _ => ⟨?_, ?_⟩
  · rintro ⟨hcount, hentries⟩
    refine ⟨hcount, ?_, ?_⟩
    · intro key value hlookup
      exact (validateEntry_ok.mp (hentries ⟨key, value⟩ (order.mem_entries.mpr hlookup))).1
    · intro key value hlookup
      exact (validateEntry_ok.mp (hentries ⟨key, value⟩ (order.mem_entries.mpr hlookup))).2
  · intro hlimits
    refine ⟨hlimits.count, fun e he => validateEntry_ok.mpr ?_⟩
    have hlookup := order.mem_entries.mp he
    exact ⟨hlimits.key hlookup, hlimits.value hlookup⟩

/-! ### Paths -/

/-- A file in the directory of a module. -/
def configFile (moduleId name : String) : String := moduleConfigDir ++ moduleId ++ "/" ++ name

/-- The name of the file that `save_config` writes first. -/
def ConfigType.tempname : ConfigType → String
  | .persist => "persist.tmp"
  | .temp => "tmp.tmp"

theorem not_mem_slash {moduleId : String} (h : isIdentifier moduleId = true) : '/' ∉ moduleId.toList := by
  intro hmem
  unfold isIdentifier at h
  split at h
  · cases h
  · rename_i c cs hid
    rw [hid] at hmem
    rw [Bool.and_eq_true, Bool.and_eq_true, List.all_eq_true] at h
    rcases List.mem_cons.mp hmem with hc | hcs
    · rw [← hc] at h
      exact absurd h.1.1 (by decide)
    · exact absurd (h.2 _ hcs) (by decide)

/-- The parts of a text before its first separator. -/
theorem append_cons_inj_left {α : Type} [DecidableEq α] {x x' z z' : List α} {a : α} (hx : a ∉ x) (hx' : a ∉ x')
    (h : x ++ a :: z = x' ++ a :: z') : x = x' ∧ z = z' := by
  have hbefore : ∀ {x z}, a ∉ x → (x ++ a :: z).takeWhile (· ≠ a) = x := by
    intro x z hx
    rw [List.takeWhile_append_of_pos, List.takeWhile_cons_of_neg (by simp), List.append_nil]
    intro b hb
    exact decide_eq_true fun heq => hx (heq ▸ hb)
  have hxx : x = x' := by rw [← hbefore hx, h, hbefore hx']
  subst hxx
  exact ⟨rfl, List.tail_eq_of_cons_eq (List.append_cancel_left h)⟩

/-- **Files of different modules are different**, and so are files of one module with different names. -/
theorem configFile_inj {m m' name name' : String} (hm : isIdentifier m = true) (hm' : isIdentifier m' = true) :
    configFile m name = configFile m' name' ↔ m = m' ∧ name = name' := by
  constructor
  · intro h
    have hlist := congrArg String.toList h
    simp only [configFile, String.toList_append, List.append_assoc] at hlist
    obtain ⟨hid, hname⟩ := append_cons_inj_left (not_mem_slash hm) (not_mem_slash hm')
      (List.append_cancel_left hlist)
    exact ⟨String.toList_inj.mp hid, String.toList_inj.mp hname⟩
  · rintro ⟨rfl, rfl⟩
    rfl

theorem getConfigPath_eq (moduleId : String) (t : ConfigType) :
    getConfigPath moduleId t = configFile moduleId t.filename := rfl

/-- **Each module and type has a file of its own.** -/
theorem getConfigPath_inj {m m' : String} (hm : isIdentifier m = true) (hm' : isIdentifier m' = true)
    (t t' : ConfigType) : getConfigPath m t = getConfigPath m' t' ↔ m = m' ∧ t = t' := by
  rw [getConfigPath_eq, getConfigPath_eq, configFile_inj hm hm']
  refine and_congr_right fun _ => ?_
  cases t <;> cases t' <;> decide

/-- A new extension in the place of the old one. -/
theorem withExtension_append {extension : String} (h : '.' ∉ extension.toList) (stem new : String) :
    withExtension (stem ++ "." ++ extension) new = stem ++ "." ++ new := by
  have hpos : ∀ c ∈ extension.toList.reverse, decide (c ≠ '.') = true := by
    intro c hc
    exact decide_eq_true fun heq => h (heq ▸ List.mem_reverse.mp hc)
  have hdrop : ((stem ++ "." ++ extension).toList.reverse.dropWhile (· ≠ '.')) = '.' :: stem.toList.reverse := by
    have hdot : ".".toList = ['.'] := rfl
    rw [String.toList_append, String.toList_append, List.reverse_append, List.dropWhile_append_of_pos hpos,
      List.reverse_append, hdot, List.reverse_singleton, List.singleton_append,
      List.dropWhile_cons_of_neg (by simp)]
  apply String.toList_inj.mp
  rw [withExtension, hdrop, List.reverse_cons, List.reverse_reverse, String.toList_ofList, String.toList_append,
    String.toList_append]
  rfl

theorem withExtension_getConfigPath (moduleId : String) (t : ConfigType) :
    withExtension (getConfigPath moduleId t) "tmp" = configFile moduleId t.tempname := by
  have hconfig : '.' ∉ "config".toList := by decide
  rw [getConfigPath_eq, configFile, configFile]
  cases t with
  | persist =>
    have hname : ConfigType.persist.filename = "persist" ++ "." ++ "config" := by decide
    have htemp : ConfigType.persist.tempname = "persist" ++ "." ++ "tmp" := by decide
    rw [hname, htemp, ← String.append_assoc, ← String.append_assoc, withExtension_append hconfig,
      ← String.append_assoc, ← String.append_assoc]
  | temp =>
    have hname : ConfigType.temp.filename = "tmp" ++ "." ++ "config" := by decide
    have htemp : ConfigType.temp.tempname = "tmp" ++ "." ++ "tmp" := by decide
    rw [hname, htemp, ← String.append_assoc, ← String.append_assoc, withExtension_append hconfig,
      ← String.append_assoc, ← String.append_assoc]

/-! ### Saving and loading -/

theorem loadConfig_eq {files : FileSystem} {moduleId : String} (h : isIdentifier moduleId = true) (t : ConfigType) :
    loadConfig files moduleId t =
      match files (getConfigPath moduleId t) with
      | none => pure ∅
      | some bytes => readConfig.run' bytes := by
  rw [loadConfig, validateModuleId_ok.mpr h]
  rfl

theorem saveConfig_of_ok {order : Iteration} {files : FileSystem} {moduleId : String} {t : ConfigType}
    {config : Config} (h : validateConfig order moduleId config = .ok ()) :
    saveConfig order files moduleId t config =
      (.ok (), Function.update (Function.update (Function.update files (configFile moduleId t.tempname)
        (some (writeConfig config.len (order.entries config)))) (getConfigPath moduleId t)
        (some (writeConfig config.len (order.entries config)))) (configFile moduleId t.tempname) none) := by
  simp only [saveConfig, h, withExtension_getConfigPath, Function.update_self]

/-- The configuration files that a saved configuration leaves. -/
theorem saveConfig_apply {order : Iteration} {files : FileSystem} {moduleId : String} {t : ConfigType}
    {config : Config} (hid : isIdentifier moduleId = true) (hlimits : WithinLimits config)
    {m : String} (hm : isIdentifier m = true) (t' : ConfigType) :
    (saveConfig order files moduleId t config).2 (getConfigPath m t') =
      if m = moduleId ∧ t' = t then some (writeConfig config.len (order.entries config))
      else files (getConfigPath m t') := by
  have htemp : getConfigPath m t' ≠ configFile moduleId t.tempname := by
    rw [getConfigPath_eq, Ne, configFile_inj hm hid]
    rintro ⟨-, hname⟩
    cases t <;> cases t' <;> exact absurd hname (by decide)
  rw [saveConfig_of_ok (validateConfig_ok.mpr ⟨hid, hlimits⟩)]
  show Function.update _ _ _ (getConfigPath m t') = _
  rw [Function.update_of_ne htemp, Function.update_apply, Function.update_of_ne htemp]
  simp only [getConfigPath_inj hm hid]

/-- The configuration files that clearing leaves. -/
theorem clearConfig_apply {files : FileSystem} {moduleId : String} {t : ConfigType} (hid : isIdentifier moduleId = true)
    {m : String} (hm : isIdentifier m = true) (t' : ConfigType) :
    (clearConfig files moduleId t).2 (getConfigPath m t') =
      if m = moduleId ∧ t' = t then none else files (getConfigPath m t') := by
  rw [clearConfig]
  split_ifs with hfile hsame hsame
  · rw [(getConfigPath_inj hm hid t' t).mpr hsame]
    exact Function.update_self _ _ _
  · exact Function.update_of_ne (fun heq => hsame ((getConfigPath_inj hm hid t' t).mp heq)) _ _
  · rw [(getConfigPath_inj hm hid t' t).mpr hsame]
    exact Option.not_isSome_iff_eq_none.mp hfile
  · rfl

/-- **A saved configuration is the one that loads.** -/
theorem loadConfig_saveConfig {order : Iteration} {files : FileSystem} {moduleId : String} {t : ConfigType}
    {config : Config} (hid : isIdentifier moduleId = true) (hlimits : WithinLimits config) :
    loadConfig (saveConfig order files moduleId t config).2 moduleId t = .ok config := by
  have hlen : config.len < 2 ^ 32 := Nat.lt_of_le_of_lt hlimits.count (by decide)
  have hread := (readConfig_writeConfig order hlen (hlimits.storable order)).reads_all
  rw [loadConfig_eq hid, saveConfig_apply hid hlimits hid, if_pos ⟨rfl, rfl⟩]
  show (readConfig (writeConfig config.len (order.entries config))).map Prod.fst = _
  rw [hread]
  rfl

end KernelSU.Ksud
