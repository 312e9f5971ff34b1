import KernelSU.Lib.GrowingList
import KernelSU.Lib.Utf8
import KernelSU.Manager.ThroneTracker

/-!
# `kernel/manager/throne_tracker.c`: the search for the manager

`search_manager` walks the directories below a path, down to a depth, and crowns the first APK that is the manager's.
The hashes of the paths of APKs that are not are kept from one search to the next.

A path is its bytes, without a NUL.  What a search finds around it is a `Search`: the directories as they are then, and
which allocations succeed.  `full_name_hash` and the verdict of `is_manager_apk` on a path are arguments.  What is done
with a `base.apk` is an argument of the walk, so that the search without the cache is the same walk.
-/

namespace KernelSU.Manager

open KernelSU.Lib KernelSU.Lib.Bytes KernelSU.Policy

/-- A path. -/
abbrev Path := List UInt8

def SLASH : UInt8 := 47

def HYPHEN : UInt8 := 45

/-! ### `crown_manager` -/

/-- The last slash among the first `n` bytes. -/
def lastSlash (path : Path) (n : ℕ) : Option ℕ := (List.range n).reverse.find? fun i => path[i]? = some SLASH

/-- `get_pkg_from_apk_path`. -/
def getPkgFromApkPath (path : Path) : Option (List UInt8) :=
  if KSU_MAX_PACKAGE_NAME ≤ path.length ∨ path.length < 1 then none
  else match lastSlash path path.length with
    | none => none
    | some last => match lastSlash path last with
      | none => none
      | some second => match (path.drop second).findIdx? (· == HYPHEN) with
        | none => none
        | some hyphen =>
          if last < second + hyphen ∨ KSU_MAX_PACKAGE_NAME ≤ hyphen - 1 ∨ hyphen - 1 = 0 then none
          else some ((path.drop (second + 1)).take (hyphen - 1))

/-- `crown_manager`: the appid of the manager behind it. -/
def crownManager (apk : Path) (uidData : List UidData) (managerAppid : UInt32) : UInt32 :=
  match getPkgFromApkPath apk with
  | none => managerAppid
  | some pkg => match uidData.find? fun np => strncmpEq np.package pkg KSU_MAX_PACKAGE_NAME with
    | none => managerAppid
    | some np => np.uid

/-! ### What a search meets -/

/-- What a directory lists under a name. -/
structure DirEntry where
  name : List UInt8
  isDir : Bool

/-- A directory: `s_magic` of its file system and its entries. -/
structure Directory where
  magic : UInt64
  entries : List DirEntry
  distinct : (entries.map (·.name)).Nodup
  plain : ∀ e ∈ entries, SLASH ∉ e.name

/-- A search: its arguments, the manager's appid before it, what `filp_open` opens, and which allocations succeed: that
of a `data_path` by its number, that of an `apk_path_hash` by its path. -/
structure Search where
  path : Path
  depth : ℕ
  uidData : List UidData
  managerAppid : UInt32
  filpOpen : Path → Option Directory
  dataKzalloc : ℕ → Bool
  apkKzalloc : Path → Bool

def DATA_PATH_LEN : ℕ := 384

/-- `struct data_path`; `node` numbers the allocated ones. -/
structure DataPath where
  dirpath : Path
  depth : ℕ
  node : Option ℕ

/-- `struct apk_path_hash`. -/
structure ApkPathHash where
  hash : UInt32
  present : Bool

/-- The state of a search: the cache, `stop`, `data_app_magic`, the manager's appid and the APK that was crowned; how
many allocations of a `data_path` were tried and succeeded, which of these were freed, and what was opened. -/
structure SearchState where
  apkPathHashList : List ApkPathHash
  stop : Bool
  dataAppMagic : UInt64
  managerAppid : UInt32
  crowned : Option Path
  tried : ℕ
  allocated : ℕ
  freed : List ℕ
  opened : List Path

/-! ### `base.apk` -/

section BaseApk

variable (fullNameHash : Path → UInt32) (isManagerApk : Path → Bool) (search : Search)

/-- `pos->exists = true` for the first entry with the hash. -/
def markPresent (hash : UInt32) : List ApkPathHash → List ApkPathHash
  | [] => []
  | pos :: rest => if hash = pos.hash then { pos with present := true } :: rest else pos :: markPresent hash rest

/-- The manager is found. -/
def crown (dirpath : Path) (s : SearchState) : SearchState :=
  { s with
    managerAppid := crownManager dirpath search.uidData s.managerAppid
    crowned := some dirpath
    stop := true }

/-- What `my_actor` does with a `base.apk`. -/
def baseApk (dirpath : Path) (s : SearchState) : SearchState :=
  if s.apkPathHashList.any (fullNameHash dirpath == ·.hash) then
    { s with apkPathHashList := markPresent (fullNameHash dirpath) s.apkPathHashList }
  else if isManagerApk dirpath then { crown search dirpath s with apkPathHashList := [] }
  else if search.apkKzalloc dirpath then
    { s with apkPathHashList := s.apkPathHashList ++ [⟨fullNameHash dirpath, true⟩] }
  else s

/-- The same without the cache. -/
def baseApkUncached (dirpath : Path) (s : SearchState) : SearchState :=
  if isManagerApk dirpath then crown search dirpath s else s

end BaseApk

/-! ### The walk -/

section Walk

variable (search : Search) (onApk : Path → SearchState → SearchState)

/-- `"%s/%.*s"` of a directory and a name. -/
def child (parentDir : Path) (name : List UInt8) : Path := parentDir ++ SLASH :: name

/-- `my_actor`: whether to go on, what is appended to the list, and the state. -/
def myActor (pos : DataPath) (e : DirEntry) (s : SearchState) : Bool × List DataPath × SearchState :=
  if s.stop then (false, [], s)
  else if strncmpEq e.name (asBytes "..") e.name.length ∨ strncmpEq e.name (asBytes ".") e.name.length then (true, [], s)
  else if e.isDir ∧ 8 ≤ e.name.length ∧ strncmpEq e.name (asBytes "vmdl") 4 ∧
      strncmpEq (e.name.drop (e.name.length - 4)) (asBytes ".tmp") 4 then (true, [], s)
  else if DATA_PATH_LEN ≤ (child pos.dirpath e.name).length then (true, [], s)
  else if e.isDir ∧ 0 < pos.depth then
    if search.dataKzalloc s.tried then
      (true, [⟨child pos.dirpath e.name, pos.depth - 1, some s.allocated⟩],
        { s with tried := s.tried + 1, allocated := s.allocated + 1 })
    else (true, [], { s with tried := s.tried + 1 })
  else if e.name = asBytes "base.apk" then (true, [], onApk (child pos.dirpath e.name) s)
  else (true, [], s)

/-- `iterate_dir`. -/
def iterateDir (pos : DataPath) : List DirEntry → SearchState → List DataPath × SearchState
  | [], s => ([], s)
  | e :: es, s =>
    let r := myActor search onApk pos e s
    if r.1 then
      let rest := iterateDir pos es r.2.2
      (r.2.1 ++ rest.1, rest.2)
    else r.2

/-- A directory of the list that is opened: the first one with a magic fixes `data_app_magic`. -/
def openDirectory (pos : DataPath) (dir : Directory) (s : SearchState) : List DataPath × SearchState :=
  if s.dataAppMagic = 0 ∧ dir.magic = 0 then ([], s)
  else
    let s := if s.dataAppMagic = 0 then { s with dataAppMagic := dir.magic } else s
    if dir.magic ≠ s.dataAppMagic then ([], s) else iterateDir search onApk pos dir.entries s

/-- The body of the loop over the list, up to the label `skip_iterate`. -/
def iteratePath (pos : DataPath) (s : SearchState) : List DataPath × SearchState :=
  if s.stop then ([], s)
  else match search.filpOpen pos.dirpath with
    | none => ([], { s with opened := s.opened ++ [pos.dirpath] })
    | some dir => openDirectory search onApk pos dir { s with opened := s.opened ++ [pos.dirpath] }

/-- The body of the loop; the first entry of the list is not an allocated one. -/
def visitPath (pos : DataPath) (s : SearchState) : List DataPath × SearchState :=
  let r := iteratePath search onApk pos s
  match pos.node with
  | none => r
  | some node => (r.1, { r.2 with freed := r.2.freed ++ [node] })

/-- `search_manager`: the list and the state at its end; the cache is what earlier searches left. -/
def searchManager (fuel : ℕ) (cache : List ApkPathHash) : Option (List DataPath × SearchState) :=
  let start : SearchState :=
    { apkPathHashList := cache.map fun pos => { pos with present := false }
      stop := false
      dataAppMagic := 0
      managerAppid := search.managerAppid
      crowned := none
      tried := 0
      allocated := 0
      freed := []
      opened := [] }
  match forPasses (visitPath search onApk) fuel (search.depth + 1)
      [⟨search.path.take (DATA_PATH_LEN - 1), search.depth, none⟩] start with
  | none => none
  | some r => some (r.1, { r.2 with apkPathHashList := r.2.apkPathHashList.filter (·.present) })

end Walk

/-- The cache behind searches. -/
def cacheAfter (fullNameHash : Path → UInt32) (isManagerApk : Path → Bool) (fuel : ℕ) :
    List Search → List ApkPathHash → Option (List ApkPathHash)
  | [], cache => some cache
  | search :: searches, cache =>
    match searchManager search (baseApk fullNameHash isManagerApk search) fuel cache with
    | none => none
    | some r => cacheAfter fullNameHash isManagerApk fuel searches r.2.apkPathHashList

end KernelSU.Manager
