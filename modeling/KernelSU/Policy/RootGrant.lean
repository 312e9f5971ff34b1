import KernelSU.Policy.AllowlistInvariant

/-!
# Who is granted root

The table of profiles is asked in three ways: whether a uid may have su, whether modules are to be
unmounted for it, and which uids a manager lists as allowed.  Each goes over the table on its own.

* `isAllowUid_iff` — **PROVED**: away from the manager and the shell, su is granted to the uids whose
  profile allows it, system uids excepted;
* `mem_getAllowList_iff` — **PROVED**: the list of allowed uids, given room, is the uids whose profile
  allows su;
* `grants_agree` — **PROVED**: so the three answers agree but for the system uids;
* `grants_disagree` — **PROVED**: a system uid can be listed without being granted su, and the reserved
  uid can be granted su.
-/

namespace KernelSU.Policy

open KernelSU.Lib KernelSU.Lib.Bytes AppProfile AllowlistState

/-- `SHELL_UID`. -/
def SHELL_UID : UInt32 := 2000

/-- `SYSTEM_UID`. -/
def SYSTEM_UID : UInt32 := 1000

/-- `WEBVIEW_ZYGOTE_UID`. -/
def WEBVIEW_ZYGOTE_UID : UInt32 := 1053

/-- `KSU_INVALID_APPID`, as a `uid_t`. -/
def KSU_INVALID_APPID : UInt32 := 0xFFFFFFFF

/-- `forbid_system_uid`. -/
def forbidSystemUid (uid : UInt32) : Bool := uid < SHELL_UID && uid != SYSTEM_UID

/-- `ksu_is_manager_appid_valid`. -/
def isManagerAppidValid (managerAppid : UInt32) : Bool := managerAppid != KSU_INVALID_APPID

namespace AllowlistState

variable (hash : UInt32 → Fin 256) (managerAppid : UInt32) (allowShell : Bool)

/-- `__ksu_is_allow_uid`. -/
def isAllowUid (s : AllowlistState) (uid : UInt32) : Bool :=
  if forbidSystemUid uid then false
  else if isUidManager managerAppid uid then true
  else if allowShell && uid = SHELL_UID then true
  else (s.allowList (hash uid)).any fun p => uid = p.currUid && p.allowSu

/-- `ksu_uid_should_umount`. -/
def uidShouldUmount (s : AllowlistState) (uid : UInt32) : Bool :=
  if isManagerAppidValid managerAppid && isUidManager managerAppid uid then false
  else if uid = WEBVIEW_ZYGOTE_UID then false
  else match s.getAppProfile hash uid with
    | none => s.umountModules
    | some profile =>
      if profile.allowSu then false
      else if profile.nrpUseDefault then s.umountModules
      else profile.nrpUmountModules

end AllowlistState

variable {hash : UInt32 → Fin 256} {managerAppid : UInt32} {allowShell : Bool} {s : AllowlistState}
  {m : UInt32 → Option AppProfile}

/-! ### The three answers -/

/-- The walk over a uid's bucket finds a profile that allows su iff the uid's profile does. -/
theorem any_allowSu_iff (h : AllowlistInv hash s m) (uid : UInt32) :
    ((s.allowList (hash uid)).any fun p => uid = p.currUid && p.allowSu) = true ↔
      ∃ p, s.getAppProfile hash uid = some p ∧ p.allowSu = true := by
  rw [List.any_eq_true]
  constructor
  · rintro ⟨p, hp, hcond⟩
    rw [Bool.and_eq_true, decide_eq_true_eq] at hcond
    refine ⟨p, ?_, hcond.2⟩
    exact h.wellFormed.find?_eq_some_iff.mpr ⟨HashTable.mem_entries.mpr ⟨_, hp⟩, hcond.1.symm⟩
  · rintro ⟨p, hp, hsu⟩
    refine ⟨p, List.mem_of_find?_eq_some hp, ?_⟩
    rw [Bool.and_eq_true, decide_eq_true_eq]
    exact ⟨(HashTable.find?_key hp).symm, hsu⟩

theorem isAllowUid_iff (h : AllowlistInv hash s m) {uid : UInt32}
    (hmanager : isUidManager managerAppid uid = false)
    (hshell : ¬(allowShell = true ∧ uid = SHELL_UID)) :
    s.isAllowUid hash managerAppid allowShell uid = true ↔
      forbidSystemUid uid = false ∧ ∃ p, s.getAppProfile hash uid = some p ∧ p.allowSu = true := by
  have hnot : ¬(allowShell && decide (uid = SHELL_UID)) = true := by
    rw [Bool.and_eq_true, decide_eq_true_eq]
    exact hshell
  rw [← any_allowSu_iff h, isAllowUid]
  cases hforbid : forbidSystemUid uid with
  | true => simp
  | false =>
    rw [if_neg Bool.false_ne_true, hmanager, if_neg Bool.false_ne_true, if_neg hnot]
    simp only [true_and]

theorem mem_getAllowList_iff (h : AllowlistInv hash s m) {uid : UInt32}
    (hmanager : isUidManager managerAppid uid = false) {length : UInt16}
    (hroom : (s.getAllowList managerAppid length true).i ≤ length) :
    uid ∈ (s.getAllowList managerAppid length true).array ↔
      ∃ p, s.getAppProfile hash uid = some p ∧ p.allowSu = true := by
  have hlen : s.allowList.entries.length < 2 ^ 16 := h.count ▸ s.allowListCount.toNat_lt
  obtain ⟨harray, -, hi⟩ := getAllowList_eq hlen managerAppid length true
  have hall : (s.allowList.entries.filter (matching managerAppid true)).length ≤ length.toNat :=
    hi ▸ UInt16.le_iff_toNat_le.mp hroom
  rw [harray, List.take_of_length_le hall, List.mem_map]
  constructor
  · rintro ⟨p, hp, rfl⟩
    rw [List.mem_filter, matching, decide_eq_true_eq] at hp
    exact ⟨p, h.wellFormed.find?_eq_some_iff.mpr ⟨hp.1, rfl⟩, hp.2.1⟩
  · rintro ⟨p, hp, hsu⟩
    obtain ⟨hmem, rfl⟩ := h.wellFormed.find?_eq_some_iff.mp hp
    refine ⟨p, ?_, rfl⟩
    rw [List.mem_filter, matching, decide_eq_true_eq]
    exact ⟨hmem, hsu, hmanager⟩

/-! ### Agreement -/

/-- The answers about `uid` agree. -/
structure GrantsAgree (hash : UInt32 → Fin 256) (managerAppid : UInt32) (allowShell : Bool)
    (s : AllowlistState) (uid : UInt32) : Prop where
  /-- Su is granted to the listed uids that are not forbidden as system uids. -/
  listed : ∀ length : UInt16, (s.getAllowList managerAppid length true).i ≤ length →
    (s.isAllowUid hash managerAppid allowShell uid = true ↔
      uid ∈ (s.getAllowList managerAppid length true).array ∧ forbidSystemUid uid = false)
  /-- Modules are not unmounted for a uid that is granted su. -/
  umount : s.isAllowUid hash managerAppid allowShell uid = true →
    s.uidShouldUmount hash managerAppid uid = false

/-- **The answers agree** in every reachable state, for every uid but the manager's and, where it is
allowed as such, the shell's. -/
theorem grants_agree {trace : List AllowlistLabel} (h : (allowlist hash).Reaches trace s) {uid : UInt32}
    (hmanager : isUidManager managerAppid uid = false)
    (hshell : ¬(allowShell = true ∧ uid = SHELL_UID)) :
    GrantsAgree hash managerAppid allowShell s uid := by
  have hinv := reaches_inv h
  have hallow := isAllowUid_iff hinv hmanager hshell
  constructor
  · intro length hroom
    rw [hallow, mem_getAllowList_iff hinv hmanager hroom, and_comm]
  · intro hgrant
    obtain ⟨-, p, hp, hsu⟩ := hallow.mp hgrant
    rw [uidShouldUmount, hmanager, Bool.and_false, if_neg Bool.false_ne_true, hp]
    simp only [hsu, if_true, ite_self]

/-- A profile with su for `uid`, of the package with the one-letter name `key`. -/
def rootedProfile (key : UInt8) (uid : ℕ) : AppProfile where
  bytes := encodeLE 4 4 ++ key :: List.replicate 255 0 ++ encodeLE 4 uid ++
    (1 :: List.replicate 7 0) ++ (1 :: List.replicate 431 0) ++
    (KSU_DEFAULT_SELINUX_DOMAIN ++ List.replicate 54 0) ++ List.replicate 16 0
  length_bytes := by
    simp only [List.length_append, List.length_cons, List.length_replicate, encodeLE_length,
      KSU_DEFAULT_SELINUX_DOMAIN_length]

/-- An app is granted su and listed. -/
theorem grants_agree_app : ∃ trace s,
    (allowlist hash32).runFrom AllowlistState.init [.setAppProfile (some (rootedProfile 97 10200)) true]
      = some (trace, s) ∧ s.isAllowUid hash32 10123 false 10200 = true ∧
    GrantsAgree hash32 10123 false s 10200 := by
  obtain ⟨⟨trace, s⟩, hrun⟩ : ∃ r, (allowlist hash32).runFrom AllowlistState.init
      [.setAppProfile (some (rootedProfile 97 10200)) true] = some r :=
    Option.isSome_iff_exists.mp (by decide +kernel)
  have hgrant : ((allowlist hash32).runFrom AllowlistState.init
      [.setAppProfile (some (rootedProfile 97 10200)) true]).map
        (fun r => r.2.isAllowUid hash32 10123 false 10200) = some true := by decide +kernel
  rw [hrun, Option.map_some, Option.some_inj] at hgrant
  exact ⟨trace, s, hrun, hgrant, grants_agree (.of_run hrun) (by decide) (by decide)⟩

/-- **Where they differ.**  After profiles with su were set for the system uid 1001 and, under its key
`$`, for the reserved uid: 1001 is listed but not granted su, and the reserved entry grants su. -/
theorem grants_disagree : ∃ trace s, (allowlist hash32).Reaches trace s ∧
    (s.getAllowList 10123 2 true).i ≤ 2 ∧ 1001 ∈ (s.getAllowList 10123 2 true).array ∧
    s.isAllowUid hash32 10123 false 1001 = false ∧
    s.isAllowUid hash32 10123 false KSU_APP_PROFILE_PRESERVE_UID = true := by
  obtain ⟨⟨trace, s⟩, hrun⟩ : ∃ r, (allowlist hash32).runFrom AllowlistState.init
      [.setAppProfile (some (rootedProfile 97 1001)) true,
        .setAppProfile (some (rootedProfile 36 9999)) true] = some r :=
    Option.isSome_iff_exists.mp (by decide +kernel)
  have hanswers : ((allowlist hash32).runFrom AllowlistState.init
      [.setAppProfile (some (rootedProfile 97 1001)) true,
        .setAppProfile (some (rootedProfile 36 9999)) true]).map (fun r =>
        (decide ((r.2.getAllowList 10123 2 true).i ≤ 2),
          decide ((1001 : UInt32) ∈ (r.2.getAllowList 10123 2 true).array),
          r.2.isAllowUid hash32 10123 false 1001,
          r.2.isAllowUid hash32 10123 false KSU_APP_PROFILE_PRESERVE_UID))
      = some (true, true, false, true) := by decide +kernel
  rw [hrun, Option.map_some, Option.some_inj] at hanswers
  simp only [Prod.mk.injEq, decide_eq_true_eq] at hanswers
  exact ⟨trace, s, .of_run hrun, hanswers⟩

end KernelSU.Policy
