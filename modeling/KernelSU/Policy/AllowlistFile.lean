import Mathlib.Data.Vector.Basic
import Mathlib.Tactic.NormNum
import KernelSU.Policy.AllowlistInvariant

/-!
# The allowlist file

What `do_persistent_allow_list` writes, `ksu_load_allow_list` reads, in this version of the format and in
the two before it, whose records are eight bytes shorter.

* `loadAllowList_fileOf` — **PROVED**: loading a file of complete records sets the migrated profiles in
  order;
* `loadAllowList_take` — **PROVED**: of a file that is cut short, the complete records are loaded;
* `setRecords_entries` — **PROVED**: setting the entries of a table again, in any reachable state's order,
  makes the same map from uids to profiles;
* `allowlistFile_roundTrip` — **PROVED**: writing and loading is the identity on every reachable state,
  and the old formats load as their migration.
-/

namespace KernelSU.Policy

open KernelSU.Lib KernelSU.Lib.Bytes AppProfile AllowlistState

variable {hash : UInt32 → Fin 256}

/-! ### Files of complete records -/

/-- A record of a file of this version. -/
abbrev Record (version : ℕ) : Type := List.Vector UInt8 (appProfileSize version)

/-- The bytes of records, one after the other. -/
def recordBytes {version : ℕ} (records : List (Record version)) : List UInt8 :=
  records.flatMap List.Vector.toList

/-- A file of this version with these records. -/
def fileOf (version : ℕ) (records : List (Record version)) : List UInt8 :=
  encodeLE 4 FILE_MAGIC ++ encodeLE 4 version ++ recordBytes records

/-- The profile that the loop hands to `ksu_set_app_profile` for a record. -/
def loadedProfile (version : ℕ) (stack : AppProfile) (record : Record version) : AppProfile :=
  migrateProfile version (readProfile version stack record.toList record.toList_length)

/-- The loop on complete records. -/
def setRecords (hash : UInt32 → Fin 256) (version : ℕ) (env : LoadEnv) :
    ℕ → List (Record version) → Loading → Loading
  | _, [], acc => acc
  | k, r :: rs, acc =>
    setRecords hash version env (k + 1) rs
      (loadProfile hash (loadedProfile version (env.stack k) r) (env.allocSucceeds k) acc)

theorem recordBytes_cons {version : ℕ} (r : Record version) (rs : List (Record version)) :
    recordBytes (r :: rs) = r.toList ++ recordBytes rs := List.flatMap_cons

/-- A record is what a read at its start gives. -/
theorem kernelRead_record {version : ℕ} {file : List UInt8} {off : ℕ} (r : Record version)
    {rest : List UInt8} (hfile : file.drop off = r.toList ++ rest) :
    kernelRead file (appProfileSize version) off = r.toList := by
  rw [kernelRead, slice, hfile]
  exact List.take_left' r.toList_length

/-- **The loop sets the complete records** and stops at what is left, too short for a record. -/
theorem loadRecords_eq {version : ℕ} (env : LoadEnv) (file : List UInt8) (tail : List UInt8)
    (htail : tail.length < appProfileSize version) :
    ∀ (records : List (Record version)) (off k : ℕ) (acc : Loading),
      file.drop off = recordBytes records ++ tail →
        loadRecords hash file version env off k acc = setRecords hash version env k records acc := by
  intro records
  induction records with
  | nil =>
    intro off k acc hfile
    have hshort : ¬(kernelRead file (appProfileSize version) off).length = appProfileSize version := by
      rw [kernelRead, slice, hfile, recordBytes, List.flatMap_nil, List.nil_append, List.length_take]
      omega
    rw [loadRecords, dif_neg hshort, setRecords]
  | cons r rs ih =>
    intro off k acc hfile
    rw [recordBytes_cons, List.append_assoc] at hfile
    have hread := kernelRead_record r hfile
    have hnext : file.drop (off + appProfileSize version) = recordBytes rs ++ tail := by
      rw [← List.drop_drop, hfile]
      exact List.drop_left' r.toList_length
    rw [loadRecords, dif_pos (hread.symm ▸ r.toList_length), setRecords, ih _ _ _ hnext]
    simp only [loadedProfile, hread]

/-- The header checks pass for the three versions that there have been. -/
theorem loadAllowList_header {version : ℕ} (hlow : 2 ≤ version) (hhigh : version ≤ 4)
    (body : List UInt8) (env : LoadEnv) (s : AllowlistState) :
    loadAllowList hash (some (encodeLE 4 FILE_MAGIC ++ encodeLE 4 version ++ body)) env s =
      loadRecords hash (encodeLE 4 FILE_MAGIC ++ encodeLE 4 version ++ body) version env 8 0 (s, []) := by
  have hmagic : kernelRead (encodeLE 4 FILE_MAGIC ++ encodeLE 4 version ++ body) 4 0
      = encodeLE 4 FILE_MAGIC := by
    rw [kernelRead, slice, List.drop_zero, List.append_assoc]
    exact List.take_left' (encodeLE_length 4 FILE_MAGIC)
  have hversion : kernelRead (encodeLE 4 FILE_MAGIC ++ encodeLE 4 version ++ body) 4 4
      = encodeLE 4 version := by
    rw [kernelRead, List.append_assoc]
    exact slice_append_exact (encodeLE 4 FILE_MAGIC) (encodeLE 4 version) body
      (encodeLE_length 4 FILE_MAGIC) (encodeLE_length 4 version)
  have hdecode : decodeLE (encodeLE 4 version) = version :=
    decodeLE_encodeLE_of_lt 4 version (Nat.lt_of_le_of_lt hhigh (by norm_num))
  have hdecode' : decodeLE (encodeLE 4 FILE_MAGIC) = FILE_MAGIC :=
    decodeLE_encodeLE_of_lt 4 FILE_MAGIC (by norm_num [FILE_MAGIC])
  have hrange : ¬(version < 2 ∨ KSU_APP_PROFILE_VER < version) := by
    rw [KSU_APP_PROFILE_VER]
    omega
  simp only [loadAllowList, hmagic, hversion, hdecode, hdecode', encodeLE_length, ne_eq, not_true,
    or_self, if_false, if_neg hrange]

theorem drop_header (version : ℕ) (body : List UInt8) :
    (encodeLE 4 FILE_MAGIC ++ encodeLE 4 version ++ body).drop 8 = body :=
  List.drop_left' (by rw [List.length_append, encodeLE_length, encodeLE_length])

/-- **Loading complete records** with a piece of another at the end. -/
theorem loadAllowList_fileOf_append {version : ℕ} (hlow : 2 ≤ version) (hhigh : version ≤ 4)
    (records : List (Record version)) {tail : List UInt8}
    (htail : tail.length < appProfileSize version) (env : LoadEnv) (s : AllowlistState) :
    loadAllowList hash (some (fileOf version records ++ tail)) env s =
      setRecords hash version env 0 records (s, []) := by
  rw [fileOf, List.append_assoc _ (recordBytes records), loadAllowList_header hlow hhigh]
  exact loadRecords_eq env _ tail htail records 8 0 (s, []) (drop_header version _)

/-- **Loading a file of complete records.** -/
theorem loadAllowList_fileOf {version : ℕ} (hlow : 2 ≤ version) (hhigh : version ≤ 4)
    (records : List (Record version)) (env : LoadEnv) (s : AllowlistState) :
    loadAllowList hash (some (fileOf version records)) env s =
      setRecords hash version env 0 records (s, []) := by
  have htail : ([] : List UInt8).length < appProfileSize version := appProfileSize_pos version
  have hload : loadAllowList hash (some (fileOf version records ++ [])) env s = _ :=
    loadAllowList_fileOf_append hlow hhigh records htail env s
  rwa [List.append_nil] at hload

/-! ### Files that are cut short -/

/-- Cutting records short leaves complete ones and a piece of one more. -/
theorem recordBytes_take {version : ℕ} :
    ∀ (records : List (Record version)) (m : ℕ), ∃ tail : List UInt8,
      tail.length < appProfileSize version ∧
        (recordBytes records).take m =
          recordBytes (records.take (m / appProfileSize version)) ++ tail := by
  have hpos := appProfileSize_pos version
  intro records
  induction records with
  | nil =>
    intro m
    refine ⟨[], hpos, ?_⟩
    simp only [recordBytes, List.take_nil, List.flatMap_nil, List.append_nil]
  | cons r rs ih =>
    intro m
    rw [recordBytes_cons]
    rcases Nat.lt_or_ge m (appProfileSize version) with hlt | hge
    · refine ⟨r.toList.take m, ?_, ?_⟩
      · rw [List.length_take]
        omega
      · rw [Nat.div_eq_of_lt hlt, List.take_zero, List.take_append_of_le_length
          (by rw [r.toList_length]; omega)]
        rfl
    · obtain ⟨tail, htail, hrest⟩ := ih (m - appProfileSize version)
      refine ⟨tail, htail, ?_⟩
      have hdiv := Nat.div_eq_sub_div hpos hge
      rw [hdiv, List.take_succ_cons, recordBytes_cons, List.append_assoc, ← hrest, List.take_append,
        r.toList_length, List.take_of_length_le (by rw [r.toList_length]; exact hge)]

/-- **A file cut short loads as its complete records.** -/
theorem loadAllowList_take {version : ℕ} (hlow : 2 ≤ version) (hhigh : version ≤ 4)
    (records : List (Record version)) (n : ℕ) (env : LoadEnv) (s : AllowlistState) :
    loadAllowList hash (some ((fileOf version records).take n)) env s =
      loadAllowList hash
        (some (fileOf version (records.take ((n - 8) / appProfileSize version)))) env s := by
  rw [loadAllowList_fileOf hlow hhigh]
  have hheader : (encodeLE 4 FILE_MAGIC ++ encodeLE 4 version).length = 8 := by
    rw [List.length_append, encodeLE_length, encodeLE_length]
  rcases Nat.lt_or_ge n 8 with hlt | hge
  · -- the header itself is incomplete, and no record is
    have hnone : (n - 8) / appProfileSize version = 0 := by
      rw [Nat.sub_eq_zero_of_le (Nat.le_of_lt hlt), Nat.zero_div]
    have hlen : ((fileOf version records).take n).length ≤ n := List.length_take_le _ _
    rw [hnone, List.take_zero, setRecords]
    simp only [loadAllowList]
    split
    · rfl
    · rw [if_pos]
      rw [kernelRead, slice_length]
      omega
  · obtain ⟨tail, htail, hbytes⟩ := recordBytes_take records (n - 8)
    have hsplit : (fileOf version records).take n
        = fileOf version (records.take ((n - 8) / appProfileSize version)) ++ tail := by
      rw [fileOf, fileOf, List.append_assoc _ (recordBytes (records.take _)), ← hbytes, List.take_append,
        hheader, List.take_of_length_le (by rw [hheader]; exact hge)]
    rw [hsplit]
    exact loadAllowList_fileOf_append hlow hhigh _ htail env s

/-! ### Setting profiles that can be set -/

/-- The calls of `ksu_set_app_profile` on these profiles in order, with memory at hand. -/
def setAll (hash : UInt32 → Fin 256) (profiles : List AppProfile) (s : AllowlistState) : AllowlistState :=
  profiles.foldl (fun s p => (s.setAppProfile hash (some p) true).1) s

/-- With room in the table and memory at hand, a profile that passes the checks is set. -/
theorem setTo_of_settable {s : AllowlistState} {p : AppProfile} (hp : Settable p)
    (hroom : s.allowListCount ≠ 65535) : SetTo hash s p (s.setAppProfile hash (some p) true).1 := by
  obtain ⟨e, he⟩ | ⟨q, s', hq, hok, hset⟩ := setAppProfile_cases hash s (some p) true
  · -- none of the checks can have failed
    have hkey : ¬(p.currUid = KSU_APP_PROFILE_PRESERVE_UID ∧ cString p.key ≠ "$".toUTF8.data.toList) :=
      fun h => h.2 (hp.preserved h.1)
    simp only [setAppProfile, hp.valid, Bool.true_eq_false, if_false, if_neg hkey, if_neg hroom,
      if_true] at he
    split at he <;> cases congrArg Prod.snd he
  · cases hq
    rw [hok]
    exact hset

/-- **Profiles of distinct uids are all found afterwards**, and nothing else has changed. -/
theorem getAppProfile_setAll :
    ∀ (profiles : List AppProfile) (s : AllowlistState) (m : UInt32 → Option AppProfile),
      AllowlistInv hash s m → (∀ p ∈ profiles, Settable p) → (profiles.map currUid).Nodup →
      s.allowList.entries.length + profiles.length ≤ 65535 →
      ∀ uid, (setAll hash profiles s).getAppProfile hash uid =
        (profiles.find? fun p => p.currUid = uid).or (s.getAppProfile hash uid) := by
  intro profiles
  induction profiles with
  | nil =>
    intro s m _ _ _ _ uid
    rfl
  | cons p ps ih =>
    intro s m hinv hset hnodup hlen uid
    rw [List.map_cons, List.nodup_cons] at hnodup
    rw [List.length_cons] at hlen
    have hroom : s.allowListCount ≠ 65535 := by
      intro hfull
      have hcount := hinv.count
      rw [hfull] at hcount
      have h65535 : (65535 : UInt16).toNat = 65535 := rfl
      omega
    have hto : SetTo hash s p (s.setAppProfile hash (some p) true).1 :=
      setTo_of_settable (hset p List.mem_cons_self) hroom
    have hinv' := hinv.setTo hto
    have hgrow : (s.setAppProfile hash (some p) true).1.allowList.entries.length
        ≤ s.allowList.entries.length + 1 := by
      obtain ⟨-, hlist, -⟩ | ⟨-, -, hlist, -⟩ := hto.edited
      · rw [hlist, HashTable.length_entries_replace]
        exact Nat.le_succ _
      · rw [hlist, (HashTable.entries_add s.allowList p).length_eq, List.length_cons]
    have hrest := ih _ _ hinv' (fun q hq => hset q (List.mem_cons_of_mem p hq)) hnodup.2 (by omega) uid
    show (setAll hash ps (s.setAppProfile hash (some p) true).1).getAppProfile hash uid = _
    rw [hrest, hto.getAppProfile]
    by_cases huid : p.currUid = uid
    · have hnone : ps.find? (fun q => q.currUid = uid) = none := by
        rw [List.find?_eq_none]
        intro q hq hquid
        have hmem := List.mem_map_of_mem (f := currUid) hq
        rw [of_decide_eq_true hquid, ← huid] at hmem
        exact hnodup.1 hmem
      rw [hnone, if_pos huid, HashTable.find?_cons_eq huid]
      rfl
    · rw [if_neg huid, HashTable.find?_cons_ne huid]

/-- **The entries of a table make it again.** -/
theorem getAppProfile_setAll_entries {s : AllowlistState} {m : UInt32 → Option AppProfile}
    (h : AllowlistInv hash s m) (uid : UInt32) :
    (setAll hash s.allowList.entries .init).getAppProfile hash uid = s.getAppProfile hash uid := by
  have hcount := h.count
  have hlim := s.allowListCount.toNat_lt
  have hset : ∀ p ∈ s.allowList.entries, Settable p := fun p hp =>
    h.settable p.currUid p (h.wellFormed.find?_eq_some_iff.mpr ⟨hp, rfl⟩)
  have hlen : (HashTable.entries (AllowlistState.init).allowList).length
      + s.allowList.entries.length ≤ 65535 := by
    rw [AllowlistState.init, HashTable.entries_empty, List.length_nil]
    omega
  rw [getAppProfile_setAll _ _ _ AllowlistInv.init hset h.wellFormed.nodup_keys hlen uid,
    h.wellFormed.find?_entries]
  exact Option.or_none

/-! ### Writing and loading -/

/-- With memory at hand the loop sets the profiles of its records. -/
theorem setRecords_fst {version : ℕ} {env : LoadEnv} (halloc : ∀ k, env.allocSucceeds k = true) :
    ∀ (records : List (Record version)) (k : ℕ) (acc : Loading),
      (setRecords hash version env k records acc).1 = setAll hash
        ((records.zipIdx k).map fun r => loadedProfile version (env.stack r.2) r.1) acc.1 := by
  intro records
  induction records with
  | nil =>
    intro k acc
    rfl
  | cons r rs ih =>
    intro k acc
    rw [setRecords, ih, loadProfile, halloc]
    rfl

/-- A profile as a record of the current version. -/
def toRecord (p : AppProfile) : Record 4 := ⟨p.bytes, p.length_bytes⟩

theorem doPersistentAllowList_eq (s : AllowlistState) :
    s.doPersistentAllowList = fileOf 4 (s.allowList.entries.map toRecord) := by
  rw [doPersistentAllowList, fileOf, recordBytes, List.flatMap_map]
  rfl

theorem version_of_valid {p : AppProfile} (h : p.valid = true) : p.version = KSU_APP_PROFILE_VER := by
  by_contra hne
  rw [AppProfile.valid, if_pos hne, ite_self] at h
  cases h

/-- **A record of the current version is the profile itself**: it covers the whole variable, and the
migration stores the version that is there. -/
theorem loadedProfile_toRecord (stack : AppProfile) {p : AppProfile} (h : p.valid = true) :
    loadedProfile 4 stack (toRecord p) = p := by
  have hread : readProfile 4 stack (toRecord p).toList (toRecord p).toList_length = p := by
    apply Block.ext
    show patch stack.bytes 0 p.bytes = p.bytes
    rw [patch, List.take_zero, List.nil_append, List.drop_of_length_le, List.append_nil]
    rw [stack.length_bytes, p.length_bytes]
  have hfield : encodeLE 4 KSU_APP_PROFILE_VER = p.field 0 4 := by
    rw [← version_of_valid h]
    exact (encodeLE_of_decodeLE (p.field_length (by decide : 0 + 4 ≤ 784)) rfl).symm
  rw [loadedProfile, hread, migrateProfile, if_neg (by decide), if_neg (by decide)]
  apply Block.ext
  show patch p.bytes 0 (encodeLE 4 KSU_APP_PROFILE_VER) = p.bytes
  rw [hfield]
  exact patch_slice_self (by rw [p.length_bytes]; decide)

/-- The records of valid profiles load as these profiles. -/
theorem map_loadedProfile_toRecord (stack : ℕ → AppProfile) :
    ∀ (ps : List AppProfile) (k : ℕ), (∀ p ∈ ps, p.valid = true) →
      ((ps.map toRecord).zipIdx k).map (fun r => loadedProfile 4 (stack r.2) r.1) = ps := by
  intro ps
  induction ps with
  | nil =>
    intro k _
    rfl
  | cons p ps ih =>
    intro k hvalid
    rw [List.map_cons, List.zipIdx_cons, List.map_cons, ih (k + 1) fun q hq =>
      hvalid q (List.mem_cons_of_mem p hq), loadedProfile_toRecord _ (hvalid p List.mem_cons_self)]

/-- Two states hold the same map from uids to profiles and the same default. -/
structure SameTable (hash : UInt32 → Fin 256) (s s' : AllowlistState) : Prop where
  lookup : ∀ uid, s.getAppProfile hash uid = s'.getAppProfile hash uid
  default : s.umountModules = s'.umountModules

/-- Loading into the table at boot is one of the runs. -/
theorem reaches_load (file : List UInt8) (env : LoadEnv) : ∃ trace,
    (allowlist hash).Reaches trace (loadAllowList hash (some file) env .init).1 :=
  ⟨_, Machine.Reaches.step Machine.Reaches.init
    (rfl : (allowlist hash).step AllowlistState.init (.loadAllowList (some file) env) = some (_, _))⟩

/-- **Writing and loading is the identity** on every state that calls reach. -/
theorem load_persistent {trace : List AllowlistLabel} {s : AllowlistState}
    (h : (allowlist hash).Reaches trace s) {env : LoadEnv} (halloc : ∀ k, env.allocSucceeds k = true) :
    SameTable hash (loadAllowList hash (some s.doPersistentAllowList) env .init).1 s := by
  have hinv := reaches_inv h
  obtain ⟨trace', h'⟩ := reaches_load s.doPersistentAllowList env
  have hinv' := reaches_inv h'
  have hvalid : ∀ p ∈ s.allowList.entries, p.valid = true := fun p hp =>
    (hinv.settable p.currUid p (hinv.wellFormed.find?_eq_some_iff.mpr ⟨hp, rfl⟩)).valid
  have hload : (loadAllowList hash (some s.doPersistentAllowList) env .init).1
      = setAll hash s.allowList.entries .init := by
    rw [doPersistentAllowList_eq, loadAllowList_fileOf (by decide) (by decide), setRecords_fst halloc,
      map_loadedProfile_toRecord _ _ _ hvalid]
  have hlookup : ∀ uid, (loadAllowList hash (some s.doPersistentAllowList) env .init).1.getAppProfile
      hash uid = s.getAppProfile hash uid := by
    rw [hload]
    exact getAppProfile_setAll_entries hinv
  refine ⟨hlookup, ?_⟩
  rw [hinv'.default, hlookup, hinv.default]

/-! ### The old formats -/

/-- The members that an old record has are read from the record. -/
theorem field_readProfile {version : ℕ} (stack : AppProfile) (r : Record version) {o k : ℕ}
    (hk : o + k ≤ appProfileSize version) :
    (readProfile version stack r.toList r.toList_length).field o k = slice r.toList o k := by
  show slice (patch stack.bytes 0 r.toList) o k = _
  rw [patch, List.take_zero, List.nil_append]
  exact slice_append_left _ _ (by rw [r.toList_length]; exact hk)

/-- **An old record loads as its migration**, and nothing that the variable held before the read is in
any member of it. -/
theorem view_loadedProfile {version : ℕ} (hv : version = 2 ∨ version = 3) (stack stack' : AppProfile)
    (r : Record version) : (loadedProfile version stack r).view =
      (readProfile version stack' r.toList r.toList_length).view.migrated version := by
  have hsize : appProfileSize version = 776 := by
    rcases hv with rfl | rfl <;> rfl
  rw [loadedProfile, view_migrateProfile hv]
  refine migrated_view_congr version ?_
  intro o k hk
  rw [field_readProfile stack r (hsize.symm ▸ hk), field_readProfile stack' r (hsize.symm ▸ hk)]

/-! ### Round trip, migration and short files -/

/-- What the file format promises, for a kernel with memory at hand. -/
structure FileFormat (hash : UInt32 → Fin 256) (env : LoadEnv) : Prop where
  /-- Writing a reachable state and loading it at boot is the identity. -/
  roundTrip : ∀ (trace : List AllowlistLabel) (s : AllowlistState),
    (allowlist hash).Reaches trace s →
      SameTable hash (loadAllowList hash (some s.doPersistentAllowList) env .init).1 s
  /-- A file of an old version loads as the table made by setting its migrated records in order. -/
  migration : ∀ version, version = 2 ∨ version = 3 → ∀ records : List (Record version),
    (loadAllowList hash (some (fileOf version records)) env .init).1 = setAll hash
      (records.zipIdx.map fun r => loadedProfile version (env.stack r.2) r.1) .init
  /-- The members of a migrated record are those of the record, migrated. -/
  migrated : ∀ version, version = 2 ∨ version = 3 → ∀ (stack stack' : AppProfile)
    (r : Record version), (loadedProfile version stack r).view =
      (readProfile version stack' r.toList r.toList_length).view.migrated version
  /-- Writing and loading the table of such a file is the identity. -/
  again : ∀ version, version = 2 ∨ version = 3 → ∀ records : List (Record version),
    let loaded := (loadAllowList hash (some (fileOf version records)) env .init).1
    SameTable hash (loadAllowList hash (some loaded.doPersistentAllowList) env .init).1 loaded
  /-- A file cut short after `n` bytes loads as its complete records. -/
  short : ∀ version, 2 ≤ version → version ≤ 4 → ∀ (records : List (Record version)) (n : ℕ),
    (loadAllowList hash (some ((fileOf version records).take n)) env .init).1 =
      (loadAllowList hash
        (some (fileOf version (records.take ((n - 8) / appProfileSize version)))) env .init).1

/-- **The allowlist file** survives a reboot, a migration and a truncation. -/
theorem allowlistFile_roundTrip {env : LoadEnv} (halloc : ∀ k, env.allocSucceeds k = true) :
    FileFormat hash env where
  roundTrip := fun _ _ h => load_persistent h halloc
  migration := by
    intro version hv records
    rw [loadAllowList_fileOf (by omega) (by omega), setRecords_fst halloc]
  migrated := fun _ hv stack stack' r => view_loadedProfile hv stack stack' r
  again := by
    intro version hv records
    obtain ⟨trace, h⟩ := reaches_load (fileOf version records) env
    exact load_persistent h halloc
  short := by
    intro version hlow hhigh records n
    rw [loadAllowList_take hlow hhigh]

/-- With one and the same profile on the stack at each read, and for the table of two sets and a prune. -/
theorem allowlistFile_roundTrip_setAndPrune :
    FileFormat hash32 ⟨fun _ => plainProfile 0, fun _ => true⟩ ∧
    ∃ trace s, (allowlist hash32).runFrom AllowlistState.init setAndPrune = some (trace, s) ∧
      SameTable hash32 (loadAllowList hash32 (some s.doPersistentAllowList)
        ⟨fun _ => plainProfile 0, fun _ => true⟩ .init).1 s := by
  have hformat : FileFormat hash32 ⟨fun _ => plainProfile 0, fun _ => true⟩ :=
    allowlistFile_roundTrip fun _ => rfl
  obtain ⟨⟨trace, s⟩, hrun⟩ : ∃ r, (allowlist hash32).runFrom AllowlistState.init setAndPrune = some r :=
    Option.isSome_iff_exists.mp (by decide +kernel)
  exact ⟨hformat, trace, s, hrun, hformat.roundTrip trace s (.of_run hrun)⟩

end KernelSU.Policy
