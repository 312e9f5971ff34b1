import KernelSU.Policy.Allowlist

/-!
# The table of profiles over whole runs

* `setAppProfile_cases` — **PROVED**: a call that fails changes nothing, one that succeeds edits the
  table, the counter and the default in the one way;
* `AllowlistInv` — the invariant: the table is well formed, the counter counts it, and look-ups give what
  the calls so far say;
* `getAllowList_eq` — **PROVED**: the walk of `ksu_get_allow_list` copies the first matches and counts
  them all;
* `allowlist_sound` — **PROVED**: all of this in every state that calls reach from the state at boot.
-/

namespace KernelSU.Policy

open KernelSU.Lib KernelSU.Lib.Bytes AppProfile AllowlistState

variable {hash : UInt32 → Fin 256}

/-! ### What the calls say -/

/-- The map from uids to the profiles last set, after one more call of `ksu_set_app_profile`. -/
def noteSet (lastSet : UInt32 → Option AppProfile) :
    AppProfile × Except Errno Unit → UInt32 → Option AppProfile
  | (p, .ok ()) => fun uid => if p.currUid = uid then some p else lastSet uid
  | (_, .error _) => lastSet

/-- The map after one more label: later profiles stand for earlier ones, and pruning forgets those of
uids that are not valid. -/
def noteLabel (lastSet : UInt32 → Option AppProfile) : AllowlistLabel → UInt32 → Option AppProfile
  | .sets calls => calls.foldl noteSet lastSet
  | .pruned isUidValid => fun uid =>
    (lastSet uid).filter fun p => uid = KSU_APP_PROFILE_PRESERVE_UID || isUidValid uid p.key

/-- For each uid the profile of the last successful set that was not pruned since. -/
def lastSet (trace : List AllowlistLabel) : UInt32 → Option AppProfile :=
  trace.foldl noteLabel fun _ => none

/-! ### One call of `ksu_set_app_profile` -/

/-- The checks of `ksu_set_app_profile` on the profile alone. -/
structure Settable (p : AppProfile) : Prop where
  valid : p.valid = true
  preserved : p.currUid = KSU_APP_PROFILE_PRESERVE_UID → cString p.key = "$".toUTF8.data.toList

/-- What a successful call leaves. -/
structure SetTo (hash : UInt32 → Fin 256) (s : AllowlistState) (p : AppProfile) (s' : AllowlistState) :
    Prop where
  settable : Settable p
  edited : ((s.getAppProfile hash p.currUid).isSome ∧
      s'.allowList = s.allowList.replace hash currUid p ∧ s'.allowListCount = s.allowListCount) ∨
    (s.getAppProfile hash p.currUid = none ∧ s.allowListCount ≠ 65535 ∧
      s'.allowList = s.allowList.add hash currUid p ∧ s'.allowListCount = s.allowListCount + 1)
  default : s'.umountModules =
    if p.currUid = KSU_APP_PROFILE_PRESERVE_UID then p.nrpUmountModules else s.umountModules

/-- What follows the label `out` does to each part of the state. -/
theorem setTo_setDefault {s s' : AllowlistState} {p : AppProfile} (hset : Settable p)
    (hdefault : s'.umountModules = s.umountModules)
    (hedit : ((s.getAppProfile hash p.currUid).isSome ∧
        s'.allowList = s.allowList.replace hash currUid p ∧ s'.allowListCount = s.allowListCount) ∨
      (s.getAppProfile hash p.currUid = none ∧ s.allowListCount ≠ 65535 ∧
        s'.allowList = s.allowList.add hash currUid p ∧ s'.allowListCount = s.allowListCount + 1)) :
    SetTo hash s p (s'.setDefault p) := by
  rw [setDefault]
  split
  case isTrue huid => exact ⟨hset, hedit, (if_pos huid).symm⟩
  case isFalse huid => exact ⟨hset, hedit, hdefault.trans (if_neg huid).symm⟩

/-- **A call fails and changes nothing, or succeeds and leaves the expected state.** -/
theorem setAppProfile_cases (hash : UInt32 → Fin 256) (s : AllowlistState)
    (profile : Option AppProfile) (allocSucceeds : Bool) :
    (∃ e, s.setAppProfile hash profile allocSucceeds = (s, .error e)) ∨
    (∃ p s', profile = some p ∧ s.setAppProfile hash profile allocSucceeds = (s', .ok ()) ∧
      SetTo hash s p s') := by
  cases profile with
  | none => exact .inl ⟨_, rfl⟩
  | some p =>
    simp only [setAppProfile]
    split
    · exact .inl ⟨_, rfl⟩
    case isFalse hvalid =>
      split
      · exact .inl ⟨_, rfl⟩
      case isFalse hkey =>
        have hset : Settable p := by
          refine ⟨by simpa using hvalid, ?_⟩
          intro huid
          by_contra hne
          exact hkey ⟨huid, hne⟩
        split
        case h_1 old hfound =>
          split
          · refine .inr ⟨p, _, rfl, rfl, setTo_setDefault hset rfl (.inl ⟨?_, rfl, rfl⟩)⟩
            rw [getAppProfile, hfound]
            rfl
          · exact .inl ⟨_, rfl⟩
        case h_2 hnone =>
          split
          · exact .inl ⟨_, rfl⟩
          case isFalse hfull =>
            split
            · exact .inr ⟨p, _, rfl, rfl, setTo_setDefault hset rfl (.inr ⟨hnone, hfull, rfl, rfl⟩)⟩
            · exact .inl ⟨_, rfl⟩

theorem setAppProfile_error {s : AllowlistState} {profile : Option AppProfile} {allocSucceeds : Bool}
    {e : Errno} (h : (s.setAppProfile hash profile allocSucceeds).2 = .error e) :
    (s.setAppProfile hash profile allocSucceeds).1 = s := by
  obtain ⟨e', he⟩ | ⟨p, s', -, hok, -⟩ := setAppProfile_cases hash s profile allocSucceeds
  · rw [he]
  · rw [hok] at h
    cases h

/-- A successful call edits the map at one uid. -/
theorem SetTo.getAppProfile {s s' : AllowlistState} {p : AppProfile} (h : SetTo hash s p s')
    (uid : UInt32) :
    s'.getAppProfile hash uid = if p.currUid = uid then some p else s.getAppProfile hash uid := by
  obtain ⟨hfound, hlist, -⟩ | ⟨-, -, hlist, -⟩ := h.edited
  · rw [AllowlistState.getAppProfile, hlist, HashTable.find?_replace hfound]
    rfl
  · rw [AllowlistState.getAppProfile, hlist, HashTable.find?_add]
    rfl

/-! ### The invariant -/

/-- The table is well formed, the counter counts it, each entry could be set again, look-ups give `m`,
and the default is that of the reserved entry. -/
structure AllowlistInv (hash : UInt32 → Fin 256) (s : AllowlistState)
    (m : UInt32 → Option AppProfile) : Prop where
  wellFormed : s.allowList.WellFormed hash currUid
  count : s.allowListCount.toNat = s.allowList.entries.length
  settable : ∀ uid p, s.getAppProfile hash uid = some p → Settable p
  lookup : ∀ uid, s.getAppProfile hash uid = m uid
  default : s.umountModules =
    ((s.getAppProfile hash KSU_APP_PROFILE_PRESERVE_UID).map nrpUmountModules).getD true

namespace AllowlistInv

variable {s : AllowlistState} {m : UInt32 → Option AppProfile}

theorem init : AllowlistInv hash .init fun _ => none where
  wellFormed := HashTable.WellFormed.empty
  count := by
    rw [AllowlistState.init, HashTable.entries_empty]
    rfl
  settable := fun _ _ h => by cases h
  lookup := fun _ => rfl
  default := rfl

theorem setTo (h : AllowlistInv hash s m) {s' : AllowlistState} {p : AppProfile}
    (hset : SetTo hash s p s') : AllowlistInv hash s' (noteSet m (p, .ok ())) := by
  have hlookup := hset.getAppProfile
  refine ⟨?_, ?_, ?_, ?_, ?_⟩
  · obtain ⟨-, hlist, -⟩ | ⟨hnone, -, hlist, -⟩ := hset.edited
    · rw [hlist]
      exact h.wellFormed.replace p
    · rw [hlist]
      exact h.wellFormed.add hnone
  · obtain ⟨-, hlist, hcount⟩ | ⟨-, hfull, hlist, hcount⟩ := hset.edited
    · rw [hlist, hcount, HashTable.length_entries_replace, h.count]
    · -- the guard on the counter keeps the increment from wrapping
      have hlt : s.allowListCount.toNat < 65535 := by
        have hle := s.allowListCount.toNat_lt
        have hne : s.allowListCount.toNat ≠ 65535 := fun heq => hfull (UInt16.toNat_inj.mp heq)
        omega
      rw [hlist, hcount, (HashTable.entries_add s.allowList p).length_eq, List.length_cons, ← h.count,
        UInt16.toNat_add]
      exact Nat.mod_eq_of_lt (show s.allowListCount.toNat + 1 < 2 ^ 16 by omega)
  · intro uid q hq
    rw [hlookup] at hq
    split at hq
    · cases hq
      exact hset.settable
    · exact h.settable uid q hq
  · intro uid
    rw [hlookup, h.lookup]
    rfl
  · rw [hset.default, hlookup]
    split
    · rfl
    · exact h.default

/-- One call of `ksu_set_app_profile`. -/
theorem set (h : AllowlistInv hash s m) (profile : Option AppProfile) (allocSucceeds : Bool) :
    AllowlistInv hash (s.setAppProfile hash profile allocSucceeds).1
      ((profile.toList.map fun p => (p, (s.setAppProfile hash profile allocSucceeds).2)).foldl noteSet
        m) := by
  obtain ⟨e, he⟩ | ⟨p, s', rfl, hok, hset⟩ := setAppProfile_cases hash s profile allocSucceeds
  · rw [he]
    cases profile <;> exact h
  · rw [hok]
    exact h.setTo hset

/-- The loop of `ksu_load_allow_list` is a sequence of such calls. -/
theorem loadRecords (file : List UInt8) (version : ℕ) (env : LoadEnv) (off k : ℕ) (acc : Loading)
    (h : AllowlistInv hash acc.1 (acc.2.foldl noteSet m)) :
    AllowlistInv hash (AllowlistState.loadRecords hash file version env off k acc).1
      ((AllowlistState.loadRecords hash file version env off k acc).2.foldl noteSet m) := by
  induction off, k, acc using AllowlistState.loadRecords.induct hash file version env with
  | case1 off k acc hlen ih =>
    rw [AllowlistState.loadRecords, dif_pos hlen]
    refine ih ?_
    rw [loadProfile, List.foldl_append]
    exact h.set _ _
  | case2 off k acc hlen =>
    rw [AllowlistState.loadRecords, dif_neg hlen]
    exact h

theorem load (h : AllowlistInv hash s m) (file : Option (List UInt8)) (env : LoadEnv) :
    AllowlistInv hash (AllowlistState.loadAllowList hash file env s).1
      ((AllowlistState.loadAllowList hash file env s).2.foldl noteSet m) := by
  cases file with
  | none => exact h
  | some file =>
    simp only [AllowlistState.loadAllowList]
    split
    · exact h
    · split
      · exact h
      · split
        · exact h
        · exact loadRecords file _ env 8 0 (s, []) h

/-- The counter goes down once for each entry removed. -/
theorem foldl_count (p : AppProfile → Bool) :
    ∀ (l : List AppProfile) (n : ℕ) (count : UInt16), count.toNat = n + l.length →
      (l.foldl (fun count np => if p np then count else count - 1) count).toNat
        = n + (l.filter p).length := by
  intro l
  induction l with
  | nil =>
    intro n count h
    exact h
  | cons a as ih =>
    intro n count h
    rw [List.length_cons] at h
    rw [List.foldl_cons]
    by_cases hp : p a = true
    · rw [if_pos hp, List.filter_cons_of_pos hp, List.length_cons, ih (n + 1) count (by omega)]
      omega
    · rw [if_neg hp, List.filter_cons_of_neg hp]
      refine ih n _ ?_
      have hone : (1 : UInt16) ≤ count := UInt16.le_iff_toNat_le.mpr (by rw [h]; exact Nat.le_add_left _ _)
      rw [UInt16.toNat_sub_of_le _ _ hone, h]
      rfl

theorem prune (h : AllowlistInv hash s m) (isUidValid : UInt32 → List UInt8 → Bool) :
    AllowlistInv hash (s.pruneAllowlist true isUidValid) (noteLabel m (.pruned isUidValid)) := by
  have hlookup : ∀ uid, (s.pruneAllowlist true isUidValid).getAppProfile hash uid
      = (s.getAppProfile hash uid).filter (kept isUidValid) :=
    fun uid => h.wellFormed.find?_keep _ uid
  refine ⟨h.wellFormed.keep _, ?_, ?_, ?_, ?_⟩
  · simp only [pruneAllowlist, if_true, HashTable.entries_keep]
    rw [foldl_count _ _ 0 _ (by rw [h.count, Nat.zero_add]), Nat.zero_add]
  · intro uid p hp
    rw [hlookup, Option.filter_eq_some_iff] at hp
    exact h.settable uid p hp.1
  · intro uid
    rw [hlookup]
    show _ = (m uid).filter _
    rw [← h.lookup]
    cases hfound : s.getAppProfile hash uid with
    | none => rfl
    | some p => rw [Option.filter_some, Option.filter_some, kept, HashTable.find?_key hfound]
  · rw [hlookup]
    have hdefault := h.default
    cases hfound : s.getAppProfile hash KSU_APP_PROFILE_PRESERVE_UID with
    | none =>
      rw [hfound] at hdefault
      exact hdefault
    | some p =>
      -- the reserved entry stays
      have hkept : kept isUidValid p = true := by
        rw [kept, HashTable.find?_key hfound]
        rfl
      rw [hfound] at hdefault
      rw [Option.filter_some, if_pos hkept]
      exact hdefault

/-- **One call keeps the invariant.** -/
theorem step (h : AllowlistInv hash s m) (call : AllowlistCall) :
    AllowlistInv hash (allowlistStep hash s call).1 (noteLabel m (allowlistStep hash s call).2) := by
  cases call with
  | setAppProfile profile allocSucceeds => exact h.set profile allocSucceeds
  | loadAllowList file env => exact h.load file env
  | pruneAllowlist bootCompleted isUidValid =>
    cases bootCompleted with
    | false => exact h
    | true => exact h.prune isUidValid

end AllowlistInv

/-- Every run keeps the invariant. -/
theorem reaches_inv {trace : List AllowlistLabel} {s : AllowlistState}
    (h : (allowlist hash).Reaches trace s) : AllowlistInv hash s (lastSet trace) := by
  refine h.invariant (fun trace s => AllowlistInv hash s (lastSet trace)) AllowlistInv.init ?_
  intro trace s call s' label ih hstep
  obtain ⟨rfl, rfl⟩ := Prod.mk.inj (Option.some.inj hstep)
  rw [lastSet, List.foldl_append]
  exact ih.step call

/-! ### What `ksu_get_allow_list` reports -/

/-- The entries that `ksu_get_allow_list` looks for. -/
def matching (managerAppid : UInt32) (allow : Bool) (p : AppProfile) : Bool :=
  p.allowSu = allow ∧ isUidManager managerAppid p.currUid = false

/-- The walk over `l`, from what an earlier part of it left. -/
theorem foldl_scanEntry (managerAppid : UInt32) (length : UInt16) (allow : Bool) :
    ∀ (l : List AppProfile) (acc : Scan), acc.j.toNat = acc.array.length → acc.j ≤ length →
      acc.i.toNat + l.length < 2 ^ 16 →
      let found := l.filter (matching managerAppid allow)
      let r := l.foldl (scanEntry managerAppid length allow) acc
      r.array = acc.array ++ (found.take (length.toNat - acc.array.length)).map currUid ∧
        r.j.toNat = r.array.length ∧ r.i.toNat = acc.i.toNat + found.length := by
  intro l
  induction l with
  | nil =>
    intro acc hj _ _
    simp only [List.filter_nil, List.take_nil, List.map_nil, List.append_nil, List.foldl_nil,
      List.length_nil, Nat.add_zero, true_and, and_true]
    exact hj
  | cons p ps ih =>
    intro acc hj hle hlen
    rw [List.length_cons] at hlen
    have hi : (acc.i + 1).toNat = acc.i.toNat + 1 := by
      rw [UInt16.toNat_add]
      exact Nat.mod_eq_of_lt (show acc.i.toNat + 1 < 2 ^ 16 by omega)
    simp only [List.foldl_cons]
    by_cases hp : matching managerAppid allow p = true
    · have hcond := of_decide_eq_true hp
      rw [List.filter_cons_of_pos hp]
      by_cases hroom : acc.j < length
      · have hlt := UInt16.lt_iff_toNat_lt.mp hroom
        have hlim := length.toNat_lt
        have hj' : (acc.j + 1).toNat = acc.array.length + 1 := by
          rw [UInt16.toNat_add, hj]
          exact Nat.mod_eq_of_lt (show acc.array.length + 1 < 2 ^ 16 by omega)
        have hstep : scanEntry managerAppid length allow acc p
            = ⟨acc.array ++ [p.currUid], acc.j + 1, acc.i + 1⟩ := by
          rw [scanEntry, if_pos hcond, if_pos hroom]
        obtain ⟨ih₁, ih₂, ih₃⟩ := ih ⟨acc.array ++ [p.currUid], acc.j + 1, acc.i + 1⟩
          (by rw [hj', List.length_append, List.length_singleton])
          (UInt16.le_iff_toNat_le.mpr (show (acc.j + 1).toNat ≤ _ by omega))
          (show (acc.i + 1).toNat + _ < _ by omega)
        rw [hstep]
        refine ⟨?_, ih₂, ?_⟩
        · have htake : length.toNat - acc.array.length
              = (length.toNat - (acc.array ++ [p.currUid]).length) + 1 := by
            rw [List.length_append, List.length_singleton]
            omega
          rw [ih₁, htake, List.take_succ_cons, List.map_cons, List.append_assoc,
            List.singleton_append]
        · rw [ih₃, List.length_cons]
          show (acc.i + 1).toNat + _ = _
          omega
      · have hge : length.toNat ≤ acc.array.length := by
          have hnot := mt UInt16.lt_iff_toNat_lt.mpr hroom
          omega
        have hstep : scanEntry managerAppid length allow acc p = { acc with i := acc.i + 1 } := by
          rw [scanEntry, if_pos hcond, if_neg hroom]
        obtain ⟨ih₁, ih₂, ih₃⟩ := ih { acc with i := acc.i + 1 } hj hle
          (show (acc.i + 1).toNat + _ < _ by omega)
        rw [hstep]
        refine ⟨?_, ih₂, ?_⟩
        · have htake : length.toNat - acc.array.length = 0 := by omega
          rw [ih₁]
          simp only [htake, List.take_zero]
        · rw [ih₃, List.length_cons]
          show (acc.i + 1).toNat + _ = _
          omega
    · have hcond : ¬(p.allowSu = allow ∧ isUidManager managerAppid p.currUid = false) :=
        fun h => hp (decide_eq_true h)
      have hstep : scanEntry managerAppid length allow acc p = acc := by
        rw [scanEntry, if_neg hcond]
      rw [List.filter_cons_of_neg hp, hstep]
      exact ih acc hj hle (by omega)

/-- **`ksu_get_allow_list` is exact** on a table of at most 65535 entries: it copies the first matches as
far as there is room, and reports how many it copied and how many there are. -/
theorem getAllowList_eq {s : AllowlistState} (hlen : s.allowList.entries.length < 2 ^ 16)
    (managerAppid : UInt32) (length : UInt16) (allow : Bool) :
    let found := s.allowList.entries.filter (matching managerAppid allow)
    let r := s.getAllowList managerAppid length allow
    r.array = (found.take length.toNat).map currUid ∧ r.j.toNat = r.array.length ∧
      r.i.toNat = found.length := by
  have h := foldl_scanEntry managerAppid length allow s.allowList.entries ⟨[], 0, 0⟩ rfl
    (UInt16.le_iff_toNat_le.mpr (Nat.zero_le _)) (by rw [UInt16.toNat_zero, Nat.zero_add]; exact hlen)
  simpa only [AllowlistState.getAllowList, List.nil_append, List.length_nil, Nat.sub_zero,
    UInt16.toNat_zero, Nat.zero_add] using h

/-! ### Whole runs -/

/-- What holds of the table and the counter after the calls that `m` remembers. -/
structure AllowlistSound (hash : UInt32 → Fin 256) (s : AllowlistState)
    (m : UInt32 → Option AppProfile) : Prop where
  distinct : (s.allowList.entries.map currUid).Nodup
  count : s.allowListCount.toNat = s.allowList.entries.length
  getAllowList : ∀ (managerAppid : UInt32) (length : UInt16) (allow : Bool),
    let found := s.allowList.entries.filter (matching managerAppid allow)
    let r := s.getAllowList managerAppid length allow
    r.array = (found.take length.toNat).map currUid ∧ r.j.toNat = r.array.length ∧
      r.array.length ≤ length.toNat ∧ r.i.toNat = found.length
  lookup : ∀ uid, s.getAppProfile hash uid = m uid
  default : ∀ p, s.getAppProfile hash KSU_APP_PROFILE_PRESERVE_UID = some p →
    s.umountModules = p.nrpUmountModules
  /-- A call that reports failure leaves the state as it is. -/
  failed : ∀ (profile : Option AppProfile) (allocSucceeds : Bool) (e : Errno),
    (s.setAppProfile hash profile allocSucceeds).2 = .error e →
      (s.setAppProfile hash profile allocSucceeds).1 = s

/-- **The table is sound in every reachable state.** -/
theorem allowlist_sound {trace : List AllowlistLabel} {s : AllowlistState}
    (h : (allowlist hash).Reaches trace s) : AllowlistSound hash s (lastSet trace) := by
  have hinv := reaches_inv h
  have hlen : s.allowList.entries.length < 2 ^ 16 := hinv.count ▸ s.allowListCount.toNat_lt
  refine ⟨hinv.wellFormed.nodup_keys, hinv.count, ?_, hinv.lookup, ?_, ?_⟩
  · intro managerAppid length allow
    obtain ⟨harray, hj, hi⟩ := getAllowList_eq hlen managerAppid length allow
    refine ⟨harray, hj, ?_, hi⟩
    rw [harray, List.length_map, List.length_take]
    exact Nat.min_le_left _ _
  · intro p hp
    rw [hinv.default, hp]
    rfl
  · intro profile allocSucceeds e he
    exact setAppProfile_error he

/-- The kernel's `hash_32` for a table of 256 buckets. -/
def hash32 (uid : UInt32) : Fin 256 := Fin.ofNat 256 ((uid * 0x61C88647) >>> 24).toNat

/-- A profile without root for `uid`, of the package `"a"`, whose modules are unmounted. -/
def plainProfile (uid : ℕ) : AppProfile where
  bytes := encodeLE 4 4 ++ 97 :: List.replicate 255 0 ++ encodeLE 4 uid ++ List.replicate 9 0 ++ [1] ++
    List.replicate 510 0
  length_bytes := by
    simp only [List.length_append, List.length_cons, List.length_replicate, encodeLE_length,
      List.length_nil]

/-- Two profiles are set, a third cannot be allocated, a null pointer is refused, and one of the two is
pruned. -/
def setAndPrune : List AllowlistCall :=
  [.setAppProfile (some (plainProfile 10123)) true, .setAppProfile (some (plainProfile 10124)) true,
    .setAppProfile (some (plainProfile 10125)) false, .setAppProfile none true,
    .pruneAllowlist true fun uid _ => uid = 10123]

theorem allowlist_sound_setAndPrune :
    ∃ trace s, (allowlist hash32).runFrom AllowlistState.init setAndPrune = some (trace, s) ∧
      s.getAppProfile hash32 10123 = some (plainProfile 10123) ∧
      s.getAppProfile hash32 10124 = none ∧ s.getAppProfile hash32 10125 = none ∧
      AllowlistSound hash32 s (lastSet trace) := by
  obtain ⟨⟨trace, s⟩, hrun⟩ : ∃ r, (allowlist hash32).runFrom AllowlistState.init setAndPrune = some r :=
    Option.isSome_iff_exists.mp (by decide +kernel)
  have hfound : ((allowlist hash32).runFrom AllowlistState.init setAndPrune).map (fun r =>
      (r.2.getAppProfile hash32 10123, r.2.getAppProfile hash32 10124,
        r.2.getAppProfile hash32 10125)) = some (some (plainProfile 10123), none, none) := by
    decide +kernel
  rw [hrun, Option.map_some, Option.some_inj] at hfound
  simp only [Prod.mk.injEq] at hfound
  obtain ⟨hkept, hpruned, hfailed⟩ := hfound
  refine ⟨trace, s, hrun, hkept, hpruned, hfailed, ?_⟩
  exact allowlist_sound (.of_run hrun)

end KernelSU.Policy
