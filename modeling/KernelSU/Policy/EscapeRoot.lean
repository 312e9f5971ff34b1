import Mathlib.Data.List.Perm.Basic
import KernelSU.Lib.Errno
import KernelSU.Policy.AppProfile

/-!
# `kernel/policy/app_profile.c`: giving a task root

`escape_with_root_profile` builds new credentials in several steps that can fail, commits them, and then
lifts what else held the task back.  What each step that can fail finds is part of `Escape`; the rest of the
kernel is not in the model.

* `setupGroups_groups` — **PROVED**: which supplementary groups the credentials end up with;
* `escapeWithRootProfile_grants` — **PROVED**: what a call that reports success leaves;
* `escapeWithRootProfile_unchanged` — **PROVED**: a call that reports an error or refuses leaves the task as
  it was;
* `grantRoot_allOrNothing` — **PROVED**: a call grants what the profile asks for, up to groups and seccomp
  that could not be had, or nothing.
-/

namespace KernelSU.Policy

open KernelSU.Lib KernelSU.Lib.Bytes AppProfile

/-- `struct cred`; capability sets are given by their 64 bits, `user` and `ucounts` by the uid they stand
for. -/
structure Cred where
  uid : UInt32
  suid : UInt32
  euid : UInt32
  fsuid : UInt32
  gid : UInt32
  sgid : UInt32
  egid : UInt32
  fsgid : UInt32
  securebits : UInt32
  capInheritable : ℕ
  capPermitted : ℕ
  capEffective : ℕ
  capBset : ℕ
  capAmbient : ℕ
  user : UInt32
  ucounts : UInt32
  groupInfo : List UInt32
  sid : ℕ
  deriving DecidableEq

/-- `struct seccomp` of a task, and the flag that sends its system calls there. -/
structure Seccomp where
  mode : ℕ
  filter : Option ℕ
  filterCount : ℕ
  work : Bool
  deriving DecidableEq

/-- The task, as far as the call looks at it or changes it. -/
structure EscapeTask where
  cred : Cred
  seccomp : Seccomp
  /-- `TIF_KSU_DISABLE_ESCAPE_WITH_ROOT`. -/
  disableEscape : Bool
  /-- The tracepoint flags of its threads. -/
  tracepoint : List Bool
  /-- What `setup_mount_ns` was last called with. -/
  mountNs : Option ℕ
  deriving DecidableEq

/-- What the steps that can fail find: whether they are granted, what `ksu_get_root_profile` gives for a uid,
how the user namespace maps gids, and the sid of the profile's domain unless it has none. -/
structure Escape where
  prepareCreds : Bool
  ksuGetRootProfile : UInt32 → RootProfile
  allocUid : Bool
  setCredUcounts : Bool
  groupsAlloc : Bool
  makeKgid : UInt32 → UInt32
  transiveToDomain : List UInt8 → Option ℕ
  allocFake : Bool

/-- What the call does with the profile it is handed. -/
inductive ProfileUse
  | get
  | put
  deriving DecidableEq, Repr

/-- How the call ends. -/
structure Escaped where
  ret : ℤ
  task : EscapeTask
  uses : List ProfileUse

/-! ### Groups -/

/-- `gid_valid`. -/
def gidValid (kgid : UInt32) : Bool := kgid != 0xFFFFFFFF

/-- `root_groups`: a `group_info` that names its usage and no gid. -/
def rootGroups : List UInt32 := []

/-- The loop of `setup_groups` over the gids; `none` is an invalid one. -/
def fillGroups (makeKgid : UInt32 → UInt32) : List ℕ → Option (List UInt32)
  | [] => some []
  | gid :: rest =>
    if gidValid (makeKgid (UInt32.ofNat gid)) then
      (fillGroups makeKgid rest).map fun gids => makeKgid (UInt32.ofNat gid) :: gids
    else none

/-- `groups_sort`. -/
def groupsSort (gids : List UInt32) : List UInt32 := gids.mergeSort fun a b => decide (a ≤ b)

/-- `setup_groups`. -/
def setupGroups (env : Escape) (profile : RootProfile) (cred : Cred) : Cred :=
  if KSU_MAX_GROUPS < profile.groupsCount then cred
  else if profile.groupsCount = 1 ∧ profile.groups[0]? = some 0 then { cred with groupInfo := rootGroups }
  else if !env.groupsAlloc then cred
  else match fillGroups env.makeKgid (profile.groups.take profile.groupsCount) with
    | none => cred
    | some gids => { cred with groupInfo := groupsSort gids }

/-! ### The call -/

/-- `setup_selinux`. -/
def setupSelinux (env : Escape) (domain : List UInt8) (cred : Cred) : Cred :=
  match env.transiveToDomain (Bytes.cString domain) with
  | none => cred
  | some sid => { cred with sid := sid }

/-- `disable_seccomp`. -/
def disableSeccomp (env : Escape) (task : EscapeTask) : EscapeTask :=
  if !env.allocFake then task else { task with seccomp := ⟨0, none, 0, false⟩ }

/-- The stores of the ids into the new credentials. -/
def setIds (profile : RootProfile) (cred : Cred) : Cred :=
  let uid := UInt32.ofNat profile.uid
  let gid := UInt32.ofNat profile.gid
  { cred with
    uid := uid, suid := uid, euid := uid, fsuid := uid
    gid := gid, fsgid := gid, sgid := gid, egid := gid
    securebits := 0 }

/-- The copies of the capability set. -/
def setCaps (profile : RootProfile) (cred : Cred) : Cred :=
  { cred with
    capEffective := profile.capEffective
    capPermitted := profile.capEffective
    capBset := profile.capEffective }

/-- What follows `commit_creds`. -/
def afterCommit (env : Escape) (profile : RootProfile) (task : EscapeTask) : EscapeTask :=
  let task := disableSeccomp env task
  let task :=
    if profile.flags &&& FLAG_KSU_NO_NEW_PRIVS ≠ 0 then { task with disableEscape := true } else task
  let task := { task with tracepoint := task.tracepoint.map fun _ => true }
  { task with mountNs := some profile.namespaces }

/-- `escape_with_root_profile`. -/
def escapeWithRootProfile (env : Escape) (task : EscapeTask) : Escaped :=
  if !env.prepareCreds then ⟨Errno.ENOMEM.val, task, []⟩
  else if task.cred.euid = 0 then ⟨0, task, []⟩
  else if task.disableEscape then ⟨0, task, []⟩
  else
    let profile := env.ksuGetRootProfile task.cred.uid
    let cred := setIds profile task.cred
    if !env.allocUid then ⟨Errno.ENOMEM.val, task, [.get, .put]⟩
    -- `ret` is still 0
    else if !env.setCredUcounts then ⟨0, task, [.get, .put]⟩
    else
      let cred := { cred with user := cred.uid, ucounts := cred.uid }
      let cred := setupSelinux env profile.selinuxDomain (setupGroups env profile (setCaps profile cred))
      ⟨0, afterCommit env profile { task with cred := cred }, [.get, .put]⟩

/-! ### What a grant is -/

/-- The supplementary groups that a profile names. -/
def profileGroups (env : Escape) (profile : RootProfile) : List UInt32 :=
  (profile.groups.take profile.groupsCount).map fun gid => env.makeKgid (UInt32.ofNat gid)

/-- The profile names the group 0 and no other. -/
def OnlyRootGroup (profile : RootProfile) : Prop :=
  profile.groupsCount = 1 ∧ profile.groups[0]? = some 0

/-- A list of the profile's groups can be built. -/
def GroupsReady (env : Escape) (profile : RootProfile) : Prop :=
  env.groupsAlloc = true ∧ ∀ kgid ∈ profileGroups env profile, gidValid kgid = true

/-- The ids and the capability set are the profile's, and it is barred from a second call if it asks to be. -/
structure IdsGranted (profile : RootProfile) (task : EscapeTask) : Prop where
  uid : task.cred.uid = UInt32.ofNat profile.uid ∧ task.cred.suid = UInt32.ofNat profile.uid ∧
    task.cred.euid = UInt32.ofNat profile.uid ∧ task.cred.fsuid = UInt32.ofNat profile.uid
  gid : task.cred.gid = UInt32.ofNat profile.gid ∧ task.cred.sgid = UInt32.ofNat profile.gid ∧
    task.cred.egid = UInt32.ofNat profile.gid ∧ task.cred.fsgid = UInt32.ofNat profile.gid
  capabilities : task.cred.capEffective = profile.capEffective ∧
    task.cred.capPermitted = profile.capEffective ∧ task.cred.capBset = profile.capEffective
  noNewPrivs : profile.flags &&& FLAG_KSU_NO_NEW_PRIVS ≠ 0 → task.disableEscape = true

/-- Seccomp does not hold the task back. -/
def Seccomp.Lifted (s : Seccomp) : Prop := s = ⟨0, none, 0, false⟩

/-- The task has exactly what the profile names. -/
structure Granted (env : Escape) (profile : RootProfile) (task : EscapeTask) : Prop where
  ids : IdsGranted profile task
  groups : task.cred.groupInfo.Perm (profileGroups env profile)
  seccomp : task.seccomp.Lifted

/-- The task has what could be had of the profile: the group 0 alone stands for the groups of `init`, and
what cannot be built stays as it was in `old`. -/
structure GrantedAsFar (env : Escape) (profile : RootProfile) (old task : EscapeTask) : Prop where
  ids : IdsGranted profile task
  rootGroup : OnlyRootGroup profile → task.cred.groupInfo = rootGroups
  groups : ¬OnlyRootGroup profile → GroupsReady env profile →
    task.cred.groupInfo.Perm (profileGroups env profile)
  groupsKept : ¬OnlyRootGroup profile → ¬GroupsReady env profile →
    task.cred.groupInfo = old.cred.groupInfo
  seccomp : env.allocFake = true → task.seccomp.Lifted
  seccompKept : env.allocFake = false → task.seccomp = old.seccomp

/-- The task was already root, or is barred. -/
def Refused (task : EscapeTask) : Prop := task.cred.euid = 0 ∨ task.disableEscape = true

/-- A call that grants exactly the profile or changes nothing, and drops the reference that it took. -/
structure AllOrNothing (env : Escape) (task : EscapeTask) (r : Escaped) : Prop where
  granted : r.ret = 0 → ¬Refused task → Granted env (env.ksuGetRootProfile task.cred.uid) r.task
  unchanged : r.ret < 0 ∨ (r.ret = 0 ∧ Refused task) → r.task = task
  uses : r.uses = [] ∨ r.uses = [.get, .put]

/-- The same of a call that grants what could be had.  Nothing is said of one that reports success although
`set_cred_ucounts` failed. -/
structure GrantsOrNothing (env : Escape) (task : EscapeTask) (r : Escaped) : Prop where
  granted : r.ret = 0 → ¬Refused task → env.setCredUcounts = true →
    GrantedAsFar env (env.ksuGetRootProfile task.cred.uid) task r.task
  unchanged : r.ret < 0 ∨ (r.ret = 0 ∧ Refused task) → r.task = task
  uses : r.uses = [] ∨ r.uses = [.get, .put]

/-! ### The groups -/

theorem fillGroups_eq_some (makeKgid : UInt32 → UInt32) (gids : List ℕ)
    (h : ∀ kgid ∈ gids.map (fun gid => makeKgid (UInt32.ofNat gid)), gidValid kgid = true) :
    fillGroups makeKgid gids = some (gids.map fun gid => makeKgid (UInt32.ofNat gid)) := by
  induction gids with
  | nil => rfl
  | cons gid rest ih =>
    have hhead : gidValid (makeKgid (UInt32.ofNat gid)) = true := h _ (by simp)
    have htail := ih fun kgid hk => h kgid (by simp only [List.map_cons, List.mem_cons, hk, or_true])
    rw [fillGroups, if_pos hhead, htail, Option.map_some, List.map_cons]

theorem fillGroups_eq_none (makeKgid : UInt32 → UInt32) (gids : List ℕ)
    (h : ¬∀ kgid ∈ gids.map (fun gid => makeKgid (UInt32.ofNat gid)), gidValid kgid = true) :
    fillGroups makeKgid gids = none := by
  induction gids with
  | nil => simp at h
  | cons gid rest ih =>
    by_cases hhead : gidValid (makeKgid (UInt32.ofNat gid)) = true
    · have htail := ih fun hrest => h (by simpa [hhead] using hrest)
      rw [fillGroups, if_pos hhead, htail, Option.map_none]
    · rw [fillGroups, if_neg hhead]

theorem groupsSort_perm (gids : List UInt32) : (groupsSort gids).Perm gids :=
  List.mergeSort_perm gids _

section Groups

variable (env : Escape) {profile : RootProfile} (cred : Cred)

theorem setupGroups_rootGroup (hcount : profile.groupsCount ≤ KSU_MAX_GROUPS)
    (honly : OnlyRootGroup profile) : (setupGroups env profile cred).groupInfo = rootGroups := by
  unfold OnlyRootGroup at honly
  rw [setupGroups, if_neg (Nat.not_lt.mpr hcount), if_pos honly]

theorem setupGroups_groups (hcount : profile.groupsCount ≤ KSU_MAX_GROUPS)
    (honly : ¬OnlyRootGroup profile) (hready : GroupsReady env profile) :
    (setupGroups env profile cred).groupInfo.Perm (profileGroups env profile) := by
  obtain ⟨halloc, hvalid⟩ := hready
  unfold OnlyRootGroup at honly
  have hfill := fillGroups_eq_some env.makeKgid _ hvalid
  simp only [setupGroups, if_neg (Nat.not_lt.mpr hcount), if_neg honly, halloc, Bool.not_true,
    Bool.false_eq_true, if_false, hfill]
  exact groupsSort_perm _

theorem setupGroups_kept (honly : ¬OnlyRootGroup profile) (hready : ¬GroupsReady env profile) :
    setupGroups env profile cred = cred := by
  unfold OnlyRootGroup at honly
  unfold setupGroups
  split
  · rfl
  · by_cases halloc : env.groupsAlloc = true
    · have hnone := fillGroups_eq_none env.makeKgid (profile.groups.take profile.groupsCount)
        fun hvalid => hready ⟨halloc, hvalid⟩
      simp only [halloc, Bool.not_true, Bool.false_eq_true, if_false, hnone]
    · rw [if_pos (by simpa using halloc)]

/-- `setup_groups` stores nothing but the groups. -/
theorem setupGroups_eq (profile : RootProfile) :
    ∃ groups, setupGroups env profile cred = { cred with groupInfo := groups } := by
  unfold setupGroups
  split
  · exact ⟨cred.groupInfo, rfl⟩
  · split
    · exact ⟨rootGroups, rfl⟩
    · split
      · exact ⟨cred.groupInfo, rfl⟩
      · split
        · exact ⟨cred.groupInfo, rfl⟩
        · exact ⟨_, rfl⟩

end Groups

theorem setupSelinux_eq (env : Escape) (domain : List UInt8) (cred : Cred) :
    ∃ sid, setupSelinux env domain cred = { cred with sid := sid } := by
  unfold setupSelinux
  split
  · exact ⟨cred.sid, rfl⟩
  · exact ⟨_, rfl⟩

/-! ### The call -/

section Call

variable (env : Escape) (task : EscapeTask)

/-- The new credentials before `setup_groups`. -/
def prepared : Cred :=
  let profile := env.ksuGetRootProfile task.cred.uid
  let ids := setIds profile task.cred
  setCaps profile { ids with user := ids.uid, ucounts := ids.uid }

/-- The credentials that are committed. -/
def committed : Cred :=
  let profile := env.ksuGetRootProfile task.cred.uid
  setupSelinux env profile.selinuxDomain (setupGroups env profile (prepared env task))

/-- A call that returns 0 to a task that it does not refuse has committed, unless `set_cred_ucounts`
failed. -/
theorem escapeWithRootProfile_task (hret : (escapeWithRootProfile env task).ret = 0)
    (hrefused : ¬Refused task) (hucounts : env.setCredUcounts = true) :
    (escapeWithRootProfile env task).task = afterCommit env (env.ksuGetRootProfile task.cred.uid)
      { task with cred := committed env task } := by
  obtain ⟨heuid, hbarred⟩ := not_or.mp hrefused
  by_cases hprepare : env.prepareCreds = true
  · by_cases halloc : env.allocUid = true
    · simp only [escapeWithRootProfile, hprepare, heuid, hbarred, halloc, hucounts, Bool.not_true,
        Bool.false_eq_true, if_false, committed, prepared]
    · have hnomem : (escapeWithRootProfile env task).ret = Errno.ENOMEM.val := by
        simp [escapeWithRootProfile, hprepare, heuid, hbarred, halloc]
      exact absurd (hnomem.symm.trans hret) (by decide)
  · have hnomem : (escapeWithRootProfile env task).ret = Errno.ENOMEM.val := by
      simp [escapeWithRootProfile, hprepare]
    exact absurd (hnomem.symm.trans hret) (by decide)

/-- **The missed error.**  When `set_cred_ucounts` fails, success is reported and nothing is granted. -/
theorem escapeWithRootProfile_ucounts (hprepare : env.prepareCreds = true) (hrefused : ¬Refused task)
    (halloc : env.allocUid = true) (hucounts : env.setCredUcounts = false) :
    (escapeWithRootProfile env task).ret = 0 ∧ (escapeWithRootProfile env task).task = task := by
  obtain ⟨heuid, hbarred⟩ := not_or.mp hrefused
  simp [escapeWithRootProfile, hprepare, heuid, hbarred, halloc, hucounts]

theorem escapeWithRootProfile_unchanged (h : (escapeWithRootProfile env task).ret < 0 ∨
    ((escapeWithRootProfile env task).ret = 0 ∧ Refused task)) :
    (escapeWithRootProfile env task).task = task := by
  unfold escapeWithRootProfile Refused at *
  split_ifs at * <;> simp_all

theorem escapeWithRootProfile_uses : (escapeWithRootProfile env task).uses = [] ∨
    (escapeWithRootProfile env task).uses = [.get, .put] := by
  unfold escapeWithRootProfile
  split_ifs <;> simp

/-- `setup_groups` and `setup_selinux` leave the rest of the new credentials alone. -/
theorem committed_eq : ∃ groups sid,
    committed env task = { prepared env task with groupInfo := groups, sid := sid } := by
  obtain ⟨groups, hgroups⟩ := setupGroups_eq env (prepared env task) (env.ksuGetRootProfile task.cred.uid)
  obtain ⟨sid, hsid⟩ := setupSelinux_eq env (env.ksuGetRootProfile task.cred.uid).selinuxDomain
    { prepared env task with groupInfo := groups }
  refine ⟨groups, sid, ?_⟩
  rw [committed, hgroups, hsid]

theorem committed_groupInfo : (committed env task).groupInfo =
    (setupGroups env (env.ksuGetRootProfile task.cred.uid) (prepared env task)).groupInfo := by
  obtain ⟨sid, hsid⟩ := setupSelinux_eq env (env.ksuGetRootProfile task.cred.uid).selinuxDomain
    (setupGroups env (env.ksuGetRootProfile task.cred.uid) (prepared env task))
  rw [committed, hsid]

theorem prepared_groupInfo : (prepared env task).groupInfo = task.cred.groupInfo := rfl

theorem afterCommit_cred (profile : RootProfile) : (afterCommit env profile task).cred = task.cred := by
  simp only [afterCommit, disableSeccomp]
  split_ifs <;> rfl

theorem afterCommit_seccomp (profile : RootProfile) :
    (afterCommit env profile task).seccomp = (disableSeccomp env task).seccomp := by
  simp only [afterCommit]
  split_ifs <;> rfl

theorem afterCommit_disableEscape {profile : RootProfile}
    (hflag : profile.flags &&& FLAG_KSU_NO_NEW_PRIVS ≠ 0) :
    (afterCommit env profile task).disableEscape = true := by
  simp only [afterCommit, if_pos hflag]

/-- What is committed carries the ids and the capability set of the profile. -/
theorem idsGranted_afterCommit : IdsGranted (env.ksuGetRootProfile task.cred.uid)
    (afterCommit env (env.ksuGetRootProfile task.cred.uid)
      { task with cred := committed env task }) := by
  obtain ⟨groups, sid, hcommitted⟩ := committed_eq env task
  refine ⟨?_, ?_, ?_, fun hflag => afterCommit_disableEscape env _ hflag⟩ <;>
    rw [afterCommit_cred, hcommitted] <;> exact ⟨rfl, rfl, by trivial⟩

/-- A call that reports success has granted what could be had. -/
theorem escapeWithRootProfile_grants
    (hcount : (env.ksuGetRootProfile task.cred.uid).groupsCount ≤ KSU_MAX_GROUPS)
    (hret : (escapeWithRootProfile env task).ret = 0) (hrefused : ¬Refused task)
    (hucounts : env.setCredUcounts = true) :
    GrantedAsFar env (env.ksuGetRootProfile task.cred.uid) task (escapeWithRootProfile env task).task := by
  rw [escapeWithRootProfile_task env task hret hrefused hucounts]
  refine ⟨idsGranted_afterCommit env task, ?_, ?_, ?_, ?_, ?_⟩
  · intro honly
    rw [afterCommit_cred, committed_groupInfo]
    exact setupGroups_rootGroup env _ hcount honly
  · intro honly hready
    rw [afterCommit_cred, committed_groupInfo]
    exact setupGroups_groups env _ hcount honly hready
  · intro honly hready
    rw [afterCommit_cred, committed_groupInfo, setupGroups_kept env _ honly hready, prepared_groupInfo]
  · intro hfake
    rw [afterCommit_seccomp, disableSeccomp, hfake]
    rfl
  · intro hfake
    rw [afterCommit_seccomp, disableSeccomp, hfake]
    rfl

/-- The profile that the call finds has passed `profile_valid`. -/
def ProfileValid : Prop :=
  ∃ p : AppProfile, p.valid = true ∧ p.allowSu = true ∧
    p.rootProfile = env.ksuGetRootProfile task.cred.uid

theorem ProfileValid.groupsCount_le (h : ProfileValid env task) :
    (env.ksuGetRootProfile task.cred.uid).groupsCount ≤ KSU_MAX_GROUPS := by
  obtain ⟨p, hvalid, hsu, hprofile⟩ := h
  have hcount : p.rpGroupsCount ≤ KSU_MAX_GROUPS := by
    by_contra hover
    simp [valid, hsu, Nat.not_le.mp hover] at hvalid
  rw [← hprofile]
  exact hcount

/-- **Root is granted as far as it could be had, or nothing is changed.** -/
theorem grantRoot_allOrNothing (hvalid : ProfileValid env task) :
    GrantsOrNothing env task (escapeWithRootProfile env task) where
  granted hret hrefused hucounts :=
    escapeWithRootProfile_grants env task hvalid.groupsCount_le hret hrefused hucounts
  unchanged := escapeWithRootProfile_unchanged env task
  uses := escapeWithRootProfile_uses env task

end Call

/-- A profile with su for uid 10200, of a package with a one-letter name, whose root profile names
`groupsCount` groups, all of them 0. -/
def grantProfile (groupsCount : ℕ) : AppProfile where
  bytes := encodeLE 4 4 ++ 97 :: List.replicate 255 0 ++ encodeLE 4 10200 ++
    (1 :: List.replicate 7 0) ++ List.replicate 272 0 ++ encodeLE 4 groupsCount ++
    List.replicate 156 0 ++ (KSU_DEFAULT_SELINUX_DOMAIN ++ List.replicate 54 0) ++ List.replicate 16 0
  length_bytes := by
    simp only [List.length_append, List.length_cons, List.length_replicate, encodeLE_length,
      KSU_DEFAULT_SELINUX_DOMAIN_length]

/-- Every step is granted, and every uid gets `profile`. -/
def grantEverything (profile : RootProfile) : Escape where
  prepareCreds := true
  ksuGetRootProfile _ := profile
  allocUid := true
  setCredUcounts := true
  groupsAlloc := true
  makeKgid gid := gid
  transiveToDomain _ := some 1
  allocFake := true

/-- An app with two groups under seccomp. -/
def appTask : EscapeTask where
  cred := ⟨10200, 10200, 10200, 10200, 10200, 10200, 10200, 10200, 0, 0, 0, 0, 0, 0, 10200, 10200,
    [3003, 9997], 7⟩
  seccomp := ⟨2, some 1, 1, true⟩
  disableEscape := false
  tracepoint := [false]
  mountNs := none

/-- A task that asks for the groups 0 and 0 gets them. -/
theorem grantRoot_allOrNothing_app :
    ProfileValid (grantEverything (grantProfile 2).rootProfile) appTask ∧
      GrantsOrNothing (grantEverything (grantProfile 2).rootProfile) appTask
        (escapeWithRootProfile (grantEverything (grantProfile 2).rootProfile) appTask) := by
  have hvalid : ProfileValid (grantEverything (grantProfile 2).rootProfile) appTask :=
    ⟨grantProfile 2, by decide +kernel, by decide +kernel, rfl⟩
  exact ⟨hvalid, grantRoot_allOrNothing _ _ hvalid⟩

/-- **Where a grant is not exact.**  A profile that names the group 0 alone gives no group at all. -/
theorem grantRoot_rootGroup : ∃ env task, ProfileValid env task ∧
    ¬AllOrNothing env task (escapeWithRootProfile env task) := by
  refine ⟨grantEverything (grantProfile 1).rootProfile, appTask,
    ⟨grantProfile 1, by decide +kernel, by decide +kernel, rfl⟩, ?_⟩
  intro h
  have hperm := (h.granted (by decide +kernel) (by simp [Refused, appTask])).groups
  have hlength := hperm.length_eq
  revert hlength
  decide +kernel

end KernelSU.Policy
