import KernelSU.Lib.Block

/-!
# `uapi/app_profile.h` and the checks of a profile

`struct app_profile` is handed around as a whole: it is copied from user space, into the table, into the
allowlist file and back.  It is modelled by its 784 bytes, with its members as stretches of them at the
offsets that the alignment of the members gives:

* `version` 0, `key` 4, `curr_uid` 260, `allow_su` 264, and the union at 272;
* `rp_config`: `use_default` 272, `template_name` 273, `profile` 536, in it `uid` 536, `gid` 540,
  `groups_count` 544, `groups` 548, `capabilities` 680, `selinux_domain` 704, `namespaces` 768, `flags` 776;
* `nrp_config`: `use_default` 272, `profile.umount_modules` 273.

`AppProfile.view` reads the members of the arm that `allow_su` selects; `view_migrateProfile` says what
`migrate_profile` does to them.
-/

namespace KernelSU.Policy

open KernelSU.Lib KernelSU.Lib.Bytes

/-- `KSU_APP_PROFILE_VER`. -/
def KSU_APP_PROFILE_VER : ℕ := 4

/-- `KSU_MAX_PACKAGE_NAME`. -/
def KSU_MAX_PACKAGE_NAME : ℕ := 256

/-- `KSU_MAX_GROUPS`. -/
def KSU_MAX_GROUPS : ℕ := 32

/-- `KSU_SELINUX_DOMAIN`. -/
def KSU_SELINUX_DOMAIN : ℕ := 64

/-- `FLAG_KSU_NO_NEW_PRIVS`. -/
def FLAG_KSU_NO_NEW_PRIVS : ℕ := 1

/-- `KSU_DEFAULT_SELINUX_DOMAIN`. -/
def KSU_DEFAULT_SELINUX_DOMAIN : List UInt8 := "u:r:ksu:s0".toUTF8.data.toList

theorem KSU_DEFAULT_SELINUX_DOMAIN_length : KSU_DEFAULT_SELINUX_DOMAIN.length = 10 := by decide +kernel

/-- `struct app_profile`. -/
abbrev AppProfile : Type := Block 784

namespace AppProfile

def version (p : AppProfile) : ℕ := p.word 0 4
def key (p : AppProfile) : List UInt8 := p.field 4 KSU_MAX_PACKAGE_NAME
/-- `curr_uid`, which every use converts to `uid_t`. -/
def currUid (p : AppProfile) : UInt32 := UInt32.ofNat (p.word 260 4)
def allowSu (p : AppProfile) : Bool := p.flag 264
def rpUseDefault (p : AppProfile) : Bool := p.flag 272
def rpTemplateName (p : AppProfile) : List UInt8 := p.field 273 KSU_MAX_PACKAGE_NAME
def rpUid (p : AppProfile) : ℕ := p.word 536 4
def rpGid (p : AppProfile) : ℕ := p.word 540 4
def rpGroupsCount (p : AppProfile) : ℕ := p.word 544 4
def rpGroups (p : AppProfile) : List ℕ :=
  (List.range KSU_MAX_GROUPS).map fun i => decodeLE (slice (p.field 548 128) (4 * i) 4)
def rpCapEffective (p : AppProfile) : ℕ := p.word 680 8
def rpCapPermitted (p : AppProfile) : ℕ := p.word 688 8
def rpCapInheritable (p : AppProfile) : ℕ := p.word 696 8
def rpSelinuxDomain (p : AppProfile) : List UInt8 := p.field 704 KSU_SELINUX_DOMAIN
def rpNamespaces (p : AppProfile) : ℕ := p.word 768 4
def rpFlags (p : AppProfile) : ℕ := p.word 776 8
def nrpUseDefault (p : AppProfile) : Bool := p.flag 272
def nrpUmountModules (p : AppProfile) : Bool := p.flag 273

/-! ### `profile_valid` -/

/-- `profile_valid`, of a pointer that is not null. -/
def valid (p : AppProfile) : Bool :=
  if KSU_MAX_PACKAGE_NAME ≤ (cString p.key).length then false
  else if p.version ≠ KSU_APP_PROFILE_VER then false
  else if p.allowSu then
    if KSU_MAX_GROUPS < p.rpGroupsCount then false
    else
      let len := (cString p.rpSelinuxDomain).length
      !(len = 0 ∨ KSU_SELINUX_DOMAIN ≤ len)
  else true

/-! ### `migrate_profile` -/

/-- `strscpy_pad(selinux_domain, KSU_DEFAULT_SELINUX_DOMAIN, sizeof(selinux_domain))`. -/
def setDefaultDomain (p : AppProfile) : AppProfile :=
  p.write 704 (KSU_DEFAULT_SELINUX_DOMAIN ++
    List.replicate (KSU_SELINUX_DOMAIN - KSU_DEFAULT_SELINUX_DOMAIN.length) 0) (by decide +kernel)

def setFlags (p : AppProfile) (flags : ℕ) : AppProfile := p.write 776 (encodeLE 8 flags) (by simp)

def setVersion (p : AppProfile) (version : ℕ) : AppProfile := p.write 0 (encodeLE 4 version) (by simp)

/-- The part of `migrate_profile` under `case 2`. -/
def migrateDomain (p : AppProfile) : AppProfile :=
  if p.allowSu ∧ cString p.rpSelinuxDomain = "u:r:su:s0".toUTF8.data.toList then p.setDefaultDomain
  else p

/-- The part of `migrate_profile` under `case 3`. -/
def migrateFlags (p : AppProfile) : AppProfile :=
  if p.allowSu then p.setFlags FLAG_KSU_NO_NEW_PRIVS else p

/-- `migrate_profile`. -/
def migrateProfile (version : ℕ) (p : AppProfile) : AppProfile :=
  if version = 2 then p.migrateDomain.migrateFlags.setVersion KSU_APP_PROFILE_VER
  else if version = 3 then p.migrateFlags.setVersion KSU_APP_PROFILE_VER
  else p.setVersion KSU_APP_PROFILE_VER

/-! ### The members that `allow_su` selects -/

/-- The members of `struct root_profile`, the signed ones by their bits. -/
structure RootProfile where
  uid : ℕ
  gid : ℕ
  groupsCount : ℕ
  groups : List ℕ
  capEffective : ℕ
  capPermitted : ℕ
  capInheritable : ℕ
  selinuxDomain : List UInt8
  namespaces : ℕ
  flags : ℕ
  deriving DecidableEq

/-- The arm of the union that is in use. -/
inductive Config
  | root (useDefault : Bool) (templateName : List UInt8) (profile : RootProfile)
  | nonRoot (useDefault umountModules : Bool)
  deriving DecidableEq

/-- The members of a profile, those of the union's other arm left out. -/
structure View where
  version : ℕ
  key : List UInt8
  currUid : UInt32
  config : Config
  deriving DecidableEq

def rootProfile (p : AppProfile) : RootProfile where
  uid := p.rpUid
  gid := p.rpGid
  groupsCount := p.rpGroupsCount
  groups := p.rpGroups
  capEffective := p.rpCapEffective
  capPermitted := p.rpCapPermitted
  capInheritable := p.rpCapInheritable
  selinuxDomain := p.rpSelinuxDomain
  namespaces := p.rpNamespaces
  flags := p.rpFlags

/-- The members of `p`. -/
def view (p : AppProfile) : View where
  version := p.version
  key := p.key
  currUid := p.currUid
  config :=
    if p.allowSu then .root p.rpUseDefault p.rpTemplateName p.rootProfile
    else .nonRoot p.nrpUseDefault p.nrpUmountModules

/-- What a migration from `version` is meant to do: a root profile gets the flag, in version 2 the old
domain becomes the KernelSU domain, and all else is kept. -/
def View.migrated (version : ℕ) (v : View) : View where
  version := KSU_APP_PROFILE_VER
  key := v.key
  currUid := v.currUid
  config := match v.config with
    | .root useDefault templateName profile => .root useDefault templateName
      { profile with
        flags := FLAG_KSU_NO_NEW_PRIVS
        selinuxDomain :=
          if version = 2 ∧ cString profile.selinuxDomain = "u:r:su:s0".toUTF8.data.toList then
            KSU_DEFAULT_SELINUX_DOMAIN ++
              List.replicate (KSU_SELINUX_DOMAIN - KSU_DEFAULT_SELINUX_DOMAIN.length) 0
          else profile.selinuxDomain }
    | .nonRoot useDefault umountModules => .nonRoot useDefault umountModules

section Stores

variable (p : AppProfile) {o k : ℕ}

theorem field_setVersion (version : ℕ) (ho : 4 ≤ o) : (p.setVersion version).field o k = p.field o k :=
  p.field_write_disjoint _ (.inr (by rw [encodeLE_length]; omega))

theorem field_setFlags (flags : ℕ) (ho : o + k ≤ 776) : (p.setFlags flags).field o k = p.field o k :=
  p.field_write_disjoint _ (.inl ho)

theorem field_setDefaultDomain (ho : o + k ≤ 704 ∨ 768 ≤ o) :
    p.setDefaultDomain.field o k = p.field o k := by
  have hlen : (KSU_DEFAULT_SELINUX_DOMAIN ++ List.replicate
      (KSU_SELINUX_DOMAIN - KSU_DEFAULT_SELINUX_DOMAIN.length) (0 : UInt8)).length = 64 := by
    decide +kernel
  refine p.field_write_disjoint _ (ho.imp_right ?_)
  intro ho
  rw [hlen]
  omega

theorem version_setVersion {version : ℕ} (hv : version < 256 ^ 4) :
    (p.setVersion version).version = version :=
  p.word_write_same _ hv

theorem rpFlags_setFlags {flags : ℕ} (hf : flags < 256 ^ 8) : (p.setFlags flags).rpFlags = flags :=
  p.word_write_same _ hf

theorem rpSelinuxDomain_setDefaultDomain :
    p.setDefaultDomain.rpSelinuxDomain = KSU_DEFAULT_SELINUX_DOMAIN ++
      List.replicate (KSU_SELINUX_DOMAIN - KSU_DEFAULT_SELINUX_DOMAIN.length) 0 :=
  p.field_write_same _

end Stores

theorem view_of_allowSu {p : AppProfile} (h : p.allowSu = true) :
    p.view = ⟨p.version, p.key, p.currUid, .root p.rpUseDefault p.rpTemplateName p.rootProfile⟩ := by
  rw [view, if_pos h]

theorem view_of_not_allowSu {p : AppProfile} (h : ¬p.allowSu = true) :
    p.view = ⟨p.version, p.key, p.currUid, .nonRoot p.nrpUseDefault p.nrpUmountModules⟩ := by
  rw [view, if_neg h]

/-! ### What each store leaves alone -/

theorem allowSu_setVersion (p : AppProfile) (version : ℕ) : (p.setVersion version).allowSu = p.allowSu := by
  rw [allowSu, allowSu, Block.flag, Block.flag, Block.word, Block.word,
    p.field_setVersion version (by decide)]

theorem allowSu_setFlags (p : AppProfile) (flags : ℕ) : (p.setFlags flags).allowSu = p.allowSu := by
  rw [allowSu, allowSu, Block.flag, Block.flag, Block.word, Block.word,
    p.field_setFlags flags (by decide)]

theorem allowSu_setDefaultDomain (p : AppProfile) : p.setDefaultDomain.allowSu = p.allowSu := by
  rw [allowSu, allowSu, Block.flag, Block.flag, Block.word, Block.word,
    p.field_setDefaultDomain (by decide)]

/-- The version is in no arm. -/
theorem view_setVersion (p : AppProfile) {version : ℕ} (hv : version < 256 ^ 4) :
    (p.setVersion version).view = { p.view with version := version } := by
  have hf : ∀ o k, 4 ≤ o → (p.setVersion version).field o k = p.field o k :=
    fun _ _ ho => p.field_setVersion version ho
  by_cases hsu : p.allowSu = true
  · have hsu' : (p.setVersion version).allowSu = true := (p.allowSu_setVersion version).trans hsu
    rw [view_of_allowSu hsu, view_of_allowSu hsu']
    simp (disch := decide) only [rootProfile, key, currUid, rpUseDefault, rpTemplateName,
      rpUid, rpGid, rpGroupsCount, rpGroups, rpCapEffective, rpCapPermitted, rpCapInheritable,
      rpSelinuxDomain, rpNamespaces, rpFlags, Block.flag, Block.word, hf, p.version_setVersion hv]
  · have hsu' : ¬(p.setVersion version).allowSu = true := by
      rw [p.allowSu_setVersion version]
      exact hsu
    rw [view_of_not_allowSu hsu, view_of_not_allowSu hsu']
    simp (disch := decide) only [key, currUid, nrpUseDefault, nrpUmountModules, Block.flag, Block.word,
      hf, p.version_setVersion hv]

/-- The flags are a member of the root profile. -/
theorem view_setFlags {p : AppProfile} (hsu : p.allowSu = true) {flags : ℕ} (hv : flags < 256 ^ 8) :
    (p.setFlags flags).view = ⟨p.version, p.key, p.currUid,
      .root p.rpUseDefault p.rpTemplateName { p.rootProfile with flags := flags }⟩ := by
  have hf : ∀ o k, o + k ≤ 776 → (p.setFlags flags).field o k = p.field o k :=
    fun _ _ ho => p.field_setFlags flags ho
  rw [view_of_allowSu ((p.allowSu_setFlags flags).trans hsu)]
  simp (disch := decide) only [rootProfile, version, key, currUid, rpUseDefault, rpTemplateName, rpUid,
    rpGid, rpGroupsCount, rpGroups, rpCapEffective, rpCapPermitted, rpCapInheritable, rpSelinuxDomain,
    rpNamespaces, Block.flag, Block.word, hf, p.rpFlags_setFlags hv]

/-- The domain is a member of the root profile. -/
theorem view_setDefaultDomain {p : AppProfile} (hsu : p.allowSu = true) :
    p.setDefaultDomain.view = ⟨p.version, p.key, p.currUid,
      .root p.rpUseDefault p.rpTemplateName { p.rootProfile with
        selinuxDomain := KSU_DEFAULT_SELINUX_DOMAIN ++
          List.replicate (KSU_SELINUX_DOMAIN - KSU_DEFAULT_SELINUX_DOMAIN.length) 0 }⟩ := by
  have hf : ∀ o k, o + k ≤ 704 ∨ 768 ≤ o → p.setDefaultDomain.field o k = p.field o k :=
    fun _ _ ho => p.field_setDefaultDomain ho
  rw [view_of_allowSu (p.allowSu_setDefaultDomain.trans hsu)]
  simp (disch := decide) only [rootProfile, version, key, currUid, rpUseDefault, rpTemplateName, rpUid,
    rpGid, rpGroupsCount, rpGroups, rpCapEffective, rpCapPermitted, rpCapInheritable, rpNamespaces,
    rpFlags, Block.flag, Block.word, hf, p.rpSelinuxDomain_setDefaultDomain]

/-! ### What the migration does -/

theorem allowSu_migrateDomain (p : AppProfile) : p.migrateDomain.allowSu = p.allowSu := by
  rw [migrateDomain]
  split
  · exact p.allowSu_setDefaultDomain
  · rfl

/-- The members after both parts of the migration, for a root profile. -/
theorem view_migrateFlags {p : AppProfile} (hsu : p.allowSu = true) {v k u d t r}
    (hview : p.view = ⟨v, k, u, .root d t r⟩) :
    p.migrateFlags.view = ⟨v, k, u, .root d t { r with flags := FLAG_KSU_NO_NEW_PRIVS }⟩ := by
  rw [view_of_allowSu hsu] at hview
  rw [migrateFlags, if_pos hsu, view_setFlags hsu (by decide)]
  simp only [View.mk.injEq, Config.root.injEq] at hview
  obtain ⟨rfl, rfl, rfl, rfl, rfl, rfl⟩ := hview
  rfl

/-- **What `migrate_profile` does to the members**, for both old versions. -/
theorem view_migrateProfile {version : ℕ} (hv : version = 2 ∨ version = 3) (p : AppProfile) :
    (migrateProfile version p).view = p.view.migrated version := by
  by_cases hsu : p.allowSu = true
  · rcases hv with rfl | rfl
    · rw [migrateProfile, if_pos rfl, view_setVersion _ (by decide), View.migrated, view_of_allowSu hsu]
      by_cases hd : cString p.rpSelinuxDomain = "u:r:su:s0".toUTF8.data.toList
      · have hdom : p.migrateDomain = p.setDefaultDomain := if_pos ⟨hsu, hd⟩
        rw [view_migrateFlags (p.allowSu_migrateDomain.trans hsu) (hdom ▸ view_setDefaultDomain hsu)]
        simp only [rootProfile, hd, and_self, if_true]
      · have hdom : p.migrateDomain = p := if_neg fun h => hd h.2
        rw [hdom, view_migrateFlags hsu (view_of_allowSu hsu)]
        simp only [rootProfile, hd, and_false, if_false]
    · rw [migrateProfile, if_neg (by decide), if_pos rfl, view_setVersion _ (by decide), View.migrated,
        view_migrateFlags hsu (view_of_allowSu hsu), view_of_allowSu hsu]
      simp only [rootProfile, Nat.reduceEqDiff, false_and, if_false]
  · have hdom : p.migrateDomain = p := if_neg fun h => hsu h.1
    have hflags : p.migrateFlags = p := if_neg hsu
    have hmigrate : migrateProfile version p = p.setVersion KSU_APP_PROFILE_VER := by
      rcases hv with rfl | rfl
      · rw [migrateProfile, if_pos rfl, hdom, hflags]
      · rw [migrateProfile, if_neg (by decide), if_pos rfl, hflags]
    rw [hmigrate, view_setVersion _ (by decide), View.migrated, view_of_not_allowSu hsu]

/-- The last eight bytes hold the flags, which the migration overwrites. -/
theorem migrated_view_congr (version : ℕ) {p q : AppProfile}
    (h : ∀ o k, o + k ≤ 776 → p.field o k = q.field o k) :
    p.view.migrated version = q.view.migrated version := by
  have hallow : p.allowSu = q.allowSu := by
    rw [allowSu, allowSu, Block.flag, Block.flag, Block.word, Block.word, h 264 1 (by decide)]
  have hcommon : p.key = q.key ∧ p.currUid = q.currUid := by
    simp (disch := decide) only [key, currUid, Block.word, h, and_self]
  by_cases hsu : q.allowSu = true
  · have hroot : p.rootProfile = { q.rootProfile with flags := p.rpFlags } := by
      simp (disch := decide) only [rootProfile, rpUid, rpGid, rpGroupsCount, rpGroups, rpCapEffective,
        rpCapPermitted, rpCapInheritable, rpSelinuxDomain, rpNamespaces, Block.word, h]
    have hrest : p.rpUseDefault = q.rpUseDefault ∧ p.rpTemplateName = q.rpTemplateName := by
      simp (disch := decide) only [rpUseDefault, rpTemplateName, Block.flag, Block.word, h, and_self]
    rw [view_of_allowSu hsu, view_of_allowSu (hallow.trans hsu), hcommon.1, hcommon.2, hrest.1, hrest.2,
      hroot]
    rfl
  · rw [view_of_not_allowSu hsu, view_of_not_allowSu (hallow.symm ▸ hsu)]
    simp (disch := decide) only [View.migrated, hcommon, nrpUseDefault, nrpUmountModules, Block.flag,
      Block.word, h]

end AppProfile

end KernelSU.Policy
