import KernelSU.Lib.Errno
import KernelSU.Lib.HashTable
import KernelSU.Lib.Runs
import KernelSU.Policy.AppProfile

/-!
# `kernel/policy/allowlist.c`: the table of profiles

The table, its counter and the cached default for profiles without root, with the calls that change
them: setting a profile, loading the allowlist file and pruning.  The build is the one with policies and
a manager.  `hash` is the kernel's hash of a uid; nothing depends on which function it is.

What the surroundings decide is an argument: whether an allocation succeeds, what the kernel stack holds
where a profile is read to, and which uids are valid.
-/

namespace KernelSU.Policy

open KernelSU.Lib KernelSU.Lib.Bytes AppProfile

/-- `KSU_APP_PROFILE_PRESERVE_UID`. -/
def KSU_APP_PROFILE_PRESERVE_UID : UInt32 := 9999

/-- `FILE_MAGIC`. -/
def FILE_MAGIC : ℕ := 0x7f4b5355

/-- `FILE_FORMAT_VERSION`. -/
def FILE_FORMAT_VERSION : ℕ := 4

/-- `KSU_PER_USER_RANGE`. -/
def KSU_PER_USER_RANGE : UInt32 := 100000

/-- `is_uid_manager`. -/
def isUidManager (managerAppid uid : UInt32) : Bool := managerAppid = uid % KSU_PER_USER_RANGE

/-- `allow_list`, `allow_list_count` and `default_non_root_profile`. -/
structure AllowlistState where
  allowList : HashTable 256 AppProfile
  allowListCount : UInt16
  umountModules : Bool

namespace AllowlistState

/-- The state after `init_default_profiles`. -/
def init : AllowlistState := ⟨HashTable.empty, 0, true⟩

variable (hash : UInt32 → Fin 256)

/-- The profile that `ksu_get_app_profile` finds. -/
def getAppProfile (s : AllowlistState) (uid : UInt32) : Option AppProfile :=
  s.allowList.find? hash currUid uid

/-! ### `ksu_set_app_profile` -/

/-- What follows the label `out`. -/
def setDefault (s : AllowlistState) (profile : AppProfile) : AllowlistState :=
  if profile.currUid = KSU_APP_PROFILE_PRESERVE_UID then
    { s with umountModules := profile.nrpUmountModules }
  else s

/-- `ksu_set_app_profile`. -/
def setAppProfile (s : AllowlistState) (profile : Option AppProfile) (allocSucceeds : Bool) :
    AllowlistState × Except Errno Unit :=
  match profile with
  | none => (s, .error .EINVAL)
  | some p =>
    if p.valid = false then (s, .error .EINVAL)
    else if p.currUid = KSU_APP_PROFILE_PRESERVE_UID ∧ cString p.key ≠ "$".toUTF8.data.toList then
      (s, .error .EINVAL)
    else match s.allowList.find? hash currUid p.currUid with
      | some _ =>
        if allocSucceeds then
          ({ s with allowList := s.allowList.replace hash currUid p }.setDefault p, .ok ())
        else (s, .error .ENOMEM)
      | none =>
        if s.allowListCount = 65535 then (s, .error .E2BIG)
        else if allocSucceeds then
          ({ s with
            allowList := s.allowList.add hash currUid p
            allowListCount := s.allowListCount + 1 }.setDefault p, .ok ())
        else (s, .error .ENOMEM)

/-! ### `ksu_get_allow_list` -/

/-- The local variables of the walk: what was copied to `array`, how many, and how many matched. -/
structure Scan where
  array : List UInt32
  j : UInt16
  i : UInt16

/-- The body of the walk. -/
def scanEntry (managerAppid : UInt32) (length : UInt16) (allow : Bool) (acc : Scan) (p : AppProfile) :
    Scan :=
  if p.allowSu = allow ∧ isUidManager managerAppid p.currUid = false then
    if acc.j < length then ⟨acc.array ++ [p.currUid], acc.j + 1, acc.i + 1⟩
    else { acc with i := acc.i + 1 }
  else acc

/-- `ksu_get_allow_list`; the result's `j` and `i` are `*out_length` and `*out_total`. -/
def getAllowList (s : AllowlistState) (managerAppid : UInt32) (length : UInt16) (allow : Bool) : Scan :=
  s.allowList.entries.foldl (scanEntry managerAppid length allow) ⟨[], 0, 0⟩

/-! ### `ksu_load_allow_list` and `do_persistent_allow_list` -/

/-- What a call of `ksu_load_allow_list` finds around it: what the variable `profile` holds before the
`k`-th read, and whether the `k`-th `ksu_set_app_profile` can allocate. -/
structure LoadEnv where
  stack : ℕ → AppProfile
  allocSucceeds : ℕ → Bool

/-- `kernel_read` on a regular file: the bytes it puts into the buffer. -/
def kernelRead (file : List UInt8) (count off : ℕ) : List UInt8 := slice file off count

/-- `app_profile_size`. -/
def appProfileSize (version : ℕ) : ℕ := if version < KSU_APP_PROFILE_VER then 776 else 784

theorem appProfileSize_le (version : ℕ) : appProfileSize version ≤ 784 := by
  rw [appProfileSize]
  split <;> decide

theorem appProfileSize_pos (version : ℕ) : 0 < appProfileSize version := by
  rw [appProfileSize]
  split <;> decide

/-- The variable `profile` after a complete read of `record` over what it held. -/
def readProfile (version : ℕ) (stack : AppProfile) (record : List UInt8)
    (h : record.length = appProfileSize version) : AppProfile :=
  stack.write 0 record (by rw [h, Nat.zero_add]; exact appProfileSize_le version)

/-- The calls of `ksu_set_app_profile` that a load has made so far, with what they returned, and the state
they have led to. -/
abbrev Loading : Type := AllowlistState × List (AppProfile × Except Errno Unit)

/-- A turn of the loop of `ksu_load_allow_list` hands a profile to `ksu_set_app_profile`. -/
def loadProfile (profile : AppProfile) (allocSucceeds : Bool) (acc : Loading) : Loading :=
  let set := acc.1.setAppProfile hash (some profile) allocSucceeds
  (set.1, acc.2 ++ [(profile, set.2)])

/-- The loop of `ksu_load_allow_list` from offset `off` on, which ends at the first short read. -/
def loadRecords (file : List UInt8) (version : ℕ) (env : LoadEnv) (off k : ℕ) (acc : Loading) :
    Loading :=
  if h : (kernelRead file (appProfileSize version) off).length = appProfileSize version then
    loadRecords file version env (off + appProfileSize version) (k + 1)
      (loadProfile hash (migrateProfile version (readProfile version (env.stack k) _ h))
        (env.allocSucceeds k) acc)
  else acc
termination_by file.length - off
decreasing_by
  have hpos := appProfileSize_pos version
  rw [kernelRead, slice_length] at h
  omega

/-- `ksu_load_allow_list`, of a file that may be missing. -/
def loadAllowList (file : Option (List UInt8)) (env : LoadEnv) (s : AllowlistState) : Loading :=
  match file with
  | none => (s, [])
  | some file =>
    let magic := kernelRead file 4 0
    if magic.length ≠ 4 ∨ decodeLE magic ≠ FILE_MAGIC then (s, [])
    else
      let version := kernelRead file 4 4
      if version.length ≠ 4 then (s, [])
      else if decodeLE version < 2 ∨ KSU_APP_PROFILE_VER < decodeLE version then (s, [])
      else loadRecords hash file (decodeLE version) env 8 0 (s, [])

/-- What `do_persistent_allow_list` leaves in the file, its writes succeeding. -/
def doPersistentAllowList (s : AllowlistState) : List UInt8 :=
  encodeLE 4 FILE_MAGIC ++ encodeLE 4 FILE_FORMAT_VERSION ++
    s.allowList.entries.flatMap Block.bytes

/-! ### `ksu_prune_allowlist` -/

/-- The condition under which the walk leaves an entry in the table. -/
def kept (isUidValid : UInt32 → List UInt8 → Bool) (np : AppProfile) : Bool :=
  np.currUid = KSU_APP_PROFILE_PRESERVE_UID || isUidValid np.currUid np.key

/-- `ksu_prune_allowlist`. -/
def pruneAllowlist (s : AllowlistState) (bootCompleted : Bool)
    (isUidValid : UInt32 → List UInt8 → Bool) : AllowlistState :=
  if bootCompleted then
    { s with
      allowList := s.allowList.keep (kept isUidValid)
      allowListCount := s.allowList.entries.foldl
        (fun count np => if kept isUidValid np then count else count - 1) s.allowListCount }
  else s

end AllowlistState

/-! ### Sequences of calls -/

/-- A call that may change the table. -/
inductive AllowlistCall
  | setAppProfile (profile : Option AppProfile) (allocSucceeds : Bool)
  | loadAllowList (file : Option (List UInt8)) (env : AllowlistState.LoadEnv)
  | pruneAllowlist (bootCompleted : Bool) (isUidValid : UInt32 → List UInt8 → Bool)

/-- What a call did: the profiles it offered for setting and what became of them, or the predicate it
pruned by. -/
inductive AllowlistLabel
  | sets (calls : List (AppProfile × Except Errno Unit))
  | pruned (isUidValid : UInt32 → List UInt8 → Bool)

/-- One call. -/
def allowlistStep (hash : UInt32 → Fin 256) (s : AllowlistState) :
    AllowlistCall → AllowlistState × AllowlistLabel
  | .setAppProfile profile allocSucceeds =>
    let set := s.setAppProfile hash profile allocSucceeds
    (set.1, .sets (profile.toList.map fun p => (p, set.2)))
  | .loadAllowList file env =>
    let loaded := AllowlistState.loadAllowList hash file env s
    (loaded.1, .sets loaded.2)
  | .pruneAllowlist bootCompleted isUidValid =>
    (s.pruneAllowlist bootCompleted isUidValid,
      if bootCompleted then .pruned isUidValid else .sets [])

/-- Any sequence of calls, from the state at boot. -/
def allowlist (hash : UInt32 → Fin 256) : Machine AllowlistState AllowlistCall AllowlistLabel where
  init := .init
  step := fun s call => some (allowlistStep hash s call)

end KernelSU.Policy
