import KernelSU.Lib.ByteReader
import KernelSU.Lib.MapOrder
import KernelSU.Lib.Utf8

/-!
# The configurations of modules

Each module has a persistent and a temporary configuration, a map from keys to values in a binary file of its own.

* `saveConfig`, `loadConfig` — the file format, both ways;
* `setConfigValue`, `deleteConfigValue`, `clearConfig`, `mergeConfigs` — the operations.

A hash map lists its entries in any order; an `Iteration` says in which.
-/

namespace KernelSU.Ksud

open KernelSU.Lib KernelSU.Lib.Bytes KernelSU.Lib.ByteReader

/-! ### Limits -/

def moduleConfigMagic : ℕ := 0x4b53554d
def moduleConfigVersion : ℕ := 1
def maxConfigKeyLen : ℕ := 256
def maxConfigValueLen : ℕ := 1024 * 1024
def maxConfigCount : ℕ := 32

inductive ConfigType where
  | persist
  | temp
deriving DecidableEq

def ConfigType.filename : ConfigType → String
  | .persist => "persist.config"
  | .temp => "tmp.config"

/-- A configuration. -/
abbrev Config := Finmap fun _ : String => String

/-- An order in which the entries of hash maps are listed. -/
abbrev Iteration := MapOrder String String

/-- What an operation fails with. -/
inductive ConfigError where
  | emptyKey
  | keyTooLong (len : ℕ)
  | invalidKey (key : String)
  | valueTooLong (len : ℕ)
  | tooManyEntries (len : ℕ)
  | invalidModuleId (moduleId : String)
  | invalidEntryKey (key : String) (cause : ConfigError)
  | invalidEntryValue (key : String) (cause : ConfigError)
  | failedToRead (what : String)
  | invalidMagic (magic : ℕ)
  | unsupportedVersion (version : ℕ)
  | invalidUtf8 (what : String)
  | keyNotFound (key : String)

/-- `{:08x}`. -/
def hex8 (n : ℕ) : String :=
  let digits := Nat.toDigits 16 n
  String.ofList (List.replicate (8 - digits.length) '0' ++ digits)

def ConfigError.message : ConfigError → String
  | .emptyKey => "Config key cannot be empty"
  | .keyTooLong len => "Config key too long: " ++ toString len ++ " bytes (max: " ++ toString maxConfigKeyLen ++ ")"
  | .invalidKey key => "Invalid config key: '" ++ key ++ "'. Must match /^[a-zA-Z][a-zA-Z0-9._-]+$/"
  | .valueTooLong len =>
    "Config value too long: " ++ toString len ++ " bytes (max: " ++ toString maxConfigValueLen ++ ")"
  | .tooManyEntries len => "Too many config entries: " ++ toString len ++ " (max: " ++ toString maxConfigCount ++ ")"
  | .invalidModuleId moduleId => "Invalid module ID: '" ++ moduleId ++ "'. Must match /^[a-zA-Z][a-zA-Z0-9._-]+$/"
  | .invalidEntryKey key _ => "Invalid config key: '" ++ key ++ "'"
  | .invalidEntryValue key _ => "Invalid config value for key '" ++ key ++ "'"
  | .failedToRead what => "Failed to read " ++ what
  | .invalidMagic magic =>
    "Invalid config magic: expected 0x" ++ hex8 moduleConfigMagic ++ ", got 0x" ++ hex8 magic
  | .unsupportedVersion version =>
    "Unsupported config version: expected " ++ toString moduleConfigVersion ++ ", got " ++ toString version
  | .invalidUtf8 what => "Invalid UTF-8 in " ++ what
  | .keyNotFound key => "Key '" ++ key ++ "' not found in config"

/-- A match of `^[a-zA-Z][a-zA-Z0-9._-]+$`. -/
def isIdentifier (s : String) : Bool :=
  match s.toList with
  | [] => false
  | c :: cs => c.isAlpha && !cs.isEmpty && cs.all fun c => c.isAlphanum || c == '.' || c == '_' || c == '-'

def validateModuleId (moduleId : String) : Except ConfigError Unit :=
  if isIdentifier moduleId then .ok () else .error (.invalidModuleId moduleId)

def validateConfigKey (key : String) : Except ConfigError Unit :=
  if (asBytes key).isEmpty then .error .emptyKey
  else if (asBytes key).length > maxConfigKeyLen then .error (.keyTooLong (asBytes key).length)
  else if isIdentifier key then .ok ()
  else .error (.invalidKey key)

def validateConfigValue (value : String) : Except ConfigError Unit :=
  if (asBytes value).length > maxConfigValueLen then .error (.valueTooLong (asBytes value).length) else .ok ()

def Config.len (config : Config) : ℕ := Multiset.card config.entries

def validateConfigCount (config : Config) : Except ConfigError Unit :=
  if config.len > maxConfigCount then .error (.tooManyEntries config.len) else .ok ()

/-! ### Files -/

/-- The files by their paths. -/
abbrev FileSystem := String → Option (List UInt8)

def moduleConfigDir : String := "/data/adb/ksu/module_configs/"

def getConfigPath (moduleId : String) (configType : ConfigType) : String :=
  moduleConfigDir ++ moduleId ++ "/" ++ configType.filename

/-- `Path::with_extension` on a path whose last component has an extension. -/
def withExtension (path extension : String) : String :=
  String.ofList ((path.toList.reverse.dropWhile (· ≠ '.')).reverse ++ extension.toList)

/-! ### Loading -/

/-- Reading from the front of a file. -/
abbrev FileReader := ByteReader ConfigError

/-- A length and as many bytes of text. -/
def readText (what : String) (entry : ℕ) : FileReader String := do
  let len ← takeLE 4 (.failedToRead (what ++ " length for entry " ++ toString entry))
  let bytes ← takeBytes len (.failedToRead (what ++ " data for entry " ++ toString entry))
  match textFromUtf8 bytes with
  | some text => pure text
  | none => throw (.invalidUtf8 (what ++ " for entry " ++ toString entry))

/-- `n` entries from number `i` on. -/
def readEntries : ℕ → ℕ → Config → FileReader Config
  | 0, _, config => pure config
  | n + 1, i, config => do
    let key ← readText "key" i
    let value ← readText "value" i
    readEntries n (i + 1) (config.insert key value)

def readConfig : FileReader Config := do
  let magic ← takeLE 4 (.failedToRead "magic")
  if magic ≠ moduleConfigMagic then throw (.invalidMagic magic)
  let version ← takeLE 4 (.failedToRead "version")
  if version ≠ moduleConfigVersion then throw (.unsupportedVersion version)
  let count ← takeLE 4 (.failedToRead "count")
  readEntries count 0 ∅

def loadConfig (files : FileSystem) (moduleId : String) (configType : ConfigType) : Except ConfigError Config := do
  validateModuleId moduleId
  match files (getConfigPath moduleId configType) with
  | none => pure ∅
  | some bytes => readConfig.run' bytes

/-! ### Saving -/

def writeText (text : String) : List UInt8 := encodeLE 4 (asBytes text).length ++ asBytes text

/-- The bytes of a configuration file. -/
def writeConfig (count : ℕ) (entries : List (Σ _ : String, String)) : List UInt8 :=
  encodeLE 4 moduleConfigMagic ++ encodeLE 4 moduleConfigVersion ++ encodeLE 4 count ++
    entries.flatMap fun e => writeText e.1 ++ writeText e.2

def validateEntry (e : Σ _ : String, String) : Except ConfigError Unit := do
  (validateConfigKey e.1).mapError (.invalidEntryKey e.1)
  (validateConfigValue e.2).mapError (.invalidEntryValue e.1)

/-- What `save_config` checks before it writes. -/
def validateConfig (order : Iteration) (moduleId : String) (config : Config) : Except ConfigError Unit := do
  validateModuleId moduleId
  validateConfigCount config
  (order.entries config).forM validateEntry

/-- The configuration is written to a temporary file, which then takes the place of the old one. -/
def saveConfig (order : Iteration) (files : FileSystem) (moduleId : String) (configType : ConfigType)
    (config : Config) : Except ConfigError Unit × FileSystem :=
  match validateConfig order moduleId config with
  | .error e => (.error e, files)
  | .ok () =>
    let configPath := getConfigPath moduleId configType
    let tempPath := withExtension configPath "tmp"
    let files := Function.update files tempPath (some (writeConfig config.len (order.entries config)))
    (.ok (), Function.update (Function.update files configPath (files tempPath)) tempPath none)

/-! ### Operations -/

def getConfigValue (files : FileSystem) (moduleId key : String) (configType : ConfigType) :
    Except ConfigError (Option String) :=
  (loadConfig files moduleId configType).map (Finmap.lookup key)

def setConfigValue (order : Iteration) (files : FileSystem) (moduleId key value : String) (configType : ConfigType) :
    Except ConfigError Unit × FileSystem :=
  match (do
    validateConfigKey key
    validateConfigValue value
    loadConfig files moduleId configType) with
  | .error e => (.error e, files)
  | .ok config => saveConfig order files moduleId configType (config.insert key value)

def deleteConfigValue (order : Iteration) (files : FileSystem) (moduleId key : String) (configType : ConfigType) :
    Except ConfigError Unit × FileSystem :=
  match loadConfig files moduleId configType with
  | .error e => (.error e, files)
  | .ok config =>
    if key ∈ config then saveConfig order files moduleId configType (config.erase key)
    else (.error (.keyNotFound key), files)

def clearConfig (files : FileSystem) (moduleId : String) (configType : ConfigType) :
    Except ConfigError Unit × FileSystem :=
  let configPath := getConfigPath moduleId configType
  if (files configPath).isSome then (.ok (), Function.update files configPath none) else (.ok (), files)

/-- The temporary configuration over the persistent one; what does not load counts as empty. -/
def mergeConfigs (order : Iteration) (files : FileSystem) (moduleId : String) : Except ConfigError Config := do
  validateModuleId moduleId
  let merged := match loadConfig files moduleId .persist with
    | .ok config => config
    | .error _ => ∅
  let temp := match loadConfig files moduleId .temp with
    | .ok config => config
    | .error _ => ∅
  pure ((order.entries temp).foldl (fun merged e => merged.insert e.1 e.2) merged)

end KernelSU.Ksud
