import KernelSU.Selinux.Rules

/-!
# The shape that `apply_one_sepolicy_cmd` wants

Before it touches the policy, `apply_one_sepolicy_cmd` looks up the command and the subcommand and refuses the
wildcard in some arguments.

* `applyOneSepolicyCmd_wellShaped` — **PROVED**: a command of the right shape is handed to one of the policy
  operations;
* `applyOneSepolicyCmd_refused` — **PROVED**: any other is answered with `-EINVAL` and nothing else.
-/

namespace KernelSU.Selinux

open KernelSU.Lib

/-- The commands and subcommands that are known. -/
def knownCmd (header : SepolData) : Prop :=
  header.cmd = KSU_SEPOLICY_CMD_NORMAL_PERM ∧
      (header.subcmd = KSU_SEPOLICY_SUBCMD_NORMAL_PERM_ALLOW ∨ header.subcmd = KSU_SEPOLICY_SUBCMD_NORMAL_PERM_DENY ∨
        header.subcmd = KSU_SEPOLICY_SUBCMD_NORMAL_PERM_AUDITALLOW ∨
        header.subcmd = KSU_SEPOLICY_SUBCMD_NORMAL_PERM_DONTAUDIT) ∨
    header.cmd = KSU_SEPOLICY_CMD_XPERM ∧
      (header.subcmd = KSU_SEPOLICY_SUBCMD_XPERM_ALLOW ∨ header.subcmd = KSU_SEPOLICY_SUBCMD_XPERM_AUDITALLOW ∨
        header.subcmd = KSU_SEPOLICY_SUBCMD_XPERM_DONTAUDIT) ∨
    header.cmd = KSU_SEPOLICY_CMD_TYPE_STATE ∧
      (header.subcmd = KSU_SEPOLICY_SUBCMD_TYPE_STATE_PERMISSIVE ∨
        header.subcmd = KSU_SEPOLICY_SUBCMD_TYPE_STATE_ENFORCE) ∨
    header.cmd = KSU_SEPOLICY_CMD_TYPE ∨ header.cmd = KSU_SEPOLICY_CMD_TYPE_ATTR ∨
    header.cmd = KSU_SEPOLICY_CMD_ATTR ∨ header.cmd = KSU_SEPOLICY_CMD_TYPE_TRANSITION ∨
    header.cmd = KSU_SEPOLICY_CMD_TYPE_CHANGE ∧
      (header.subcmd = KSU_SEPOLICY_SUBCMD_TYPE_CHANGE_CHANGE ∨
        header.subcmd = KSU_SEPOLICY_SUBCMD_TYPE_CHANGE_MEMBER) ∨
    header.cmd = KSU_SEPOLICY_CMD_GENFSCON

/-- The positions of the arguments that go through `sepol_require_not_all`. -/
def requiredArgs (cmd : UInt32) : List ℕ :=
  if cmd = KSU_SEPOLICY_CMD_XPERM then [3, 4]
  else if cmd = KSU_SEPOLICY_CMD_TYPE_STATE ∨ cmd = KSU_SEPOLICY_CMD_ATTR then [0]
  else if cmd = KSU_SEPOLICY_CMD_TYPE ∨ cmd = KSU_SEPOLICY_CMD_TYPE_ATTR then [0, 1]
  else if cmd = KSU_SEPOLICY_CMD_TYPE_TRANSITION ∨ cmd = KSU_SEPOLICY_CMD_TYPE_CHANGE then [0, 1, 2, 3]
  else if cmd = KSU_SEPOLICY_CMD_GENFSCON then [0, 1, 2]
  else []

/-- A command that `apply_one_sepolicy_cmd` does not refuse for its shape. -/
structure WellShaped (header : SepolData) (args : List (Option Name)) : Prop where
  known : knownCmd header
  concrete : ∀ i ∈ requiredArgs header.cmd, (argAt args i).isSome

/-- The operations on the policy. -/
inductive PolicyOperation : PolicyM Bool → Prop
  | allow (src tgt cls perm) : PolicyOperation (ksuAllow src tgt cls perm)
  | deny (src tgt cls perm) : PolicyOperation (ksuDeny src tgt cls perm)
  | auditallow (src tgt cls perm) : PolicyOperation (ksuAuditallow src tgt cls perm)
  | dontaudit (src tgt cls perm) : PolicyOperation (ksuDontaudit src tgt cls perm)
  | allowxperm (src tgt cls range) : PolicyOperation (ksuAllowxperm src tgt cls range)
  | auditallowxperm (src tgt cls range) : PolicyOperation (ksuAuditallowxperm src tgt cls range)
  | dontauditxperm (src tgt cls range) : PolicyOperation (ksuDontauditxperm src tgt cls range)
  | permissive (type) : PolicyOperation (ksuPermissive type)
  | enforce (type) : PolicyOperation (ksuEnforce type)
  | type (name attr) : PolicyOperation (ksuType name attr)
  | typeattribute (type attr) : PolicyOperation (ksuTypeattribute type attr)
  | attr (name) : PolicyOperation (ksuAttribute name)
  | typeTransition (src tgt cls dflt obj) : PolicyOperation (ksuTypeTransition src tgt cls dflt obj)
  | typeChange (src tgt cls dflt) : PolicyOperation (ksuTypeChange src tgt cls dflt)
  | typeMember (src tgt cls dflt) : PolicyOperation (ksuTypeMember src tgt cls dflt)
  | genfscon (name path context) : PolicyOperation (ksuGenfscon name path context)

/-- The command is answered by what an operation on the policy returns. -/
def Dispatched (header : SepolData) (args : List (Option Name)) : Prop :=
  ∃ op, PolicyOperation op ∧ applyOneSepolicyCmd header args = do return successRet (← op)

theorem withNotAll_get {value : Option Name} {rest : Name → PolicyM ℤ} (h : value.isSome) :
    withNotAll value rest = rest (value.get h) := by
  obtain ⟨v, rfl⟩ := Option.isSome_iff_exists.mp h
  rfl

theorem withNotAll_refused {value : Option Name} {rest : Name → PolicyM ℤ}
    (h : ∀ v, value = some v → rest v = return Errno.EINVAL.val) : withNotAll value rest = return Errno.EINVAL.val := by
  cases value with
  | none => rfl
  | some v => exact h v rfl

section Shape

variable {subcmd : UInt32} {header : SepolData} {args : List (Option Name)}

/-! ### The shape of each command -/

theorem wellShaped_iff : WellShaped header args ↔
    knownCmd header ∧ ∀ i ∈ requiredArgs header.cmd, (argAt args i).isSome :=
  ⟨fun h => ⟨h.known, h.concrete⟩, fun h => ⟨h.1, h.2⟩⟩

theorem wellShaped_normalPerm : WellShaped ⟨KSU_SEPOLICY_CMD_NORMAL_PERM, subcmd⟩ args ↔
    subcmd = KSU_SEPOLICY_SUBCMD_NORMAL_PERM_ALLOW ∨ subcmd = KSU_SEPOLICY_SUBCMD_NORMAL_PERM_DENY ∨
      subcmd = KSU_SEPOLICY_SUBCMD_NORMAL_PERM_AUDITALLOW ∨ subcmd = KSU_SEPOLICY_SUBCMD_NORMAL_PERM_DONTAUDIT := by
  simp +decide [wellShaped_iff, knownCmd, requiredArgs]

theorem wellShaped_xperm : WellShaped ⟨KSU_SEPOLICY_CMD_XPERM, subcmd⟩ args ↔
    (subcmd = KSU_SEPOLICY_SUBCMD_XPERM_ALLOW ∨ subcmd = KSU_SEPOLICY_SUBCMD_XPERM_AUDITALLOW ∨
      subcmd = KSU_SEPOLICY_SUBCMD_XPERM_DONTAUDIT) ∧ (argAt args 3).isSome ∧ (argAt args 4).isSome := by
  simp +decide [wellShaped_iff, knownCmd, requiredArgs]

theorem wellShaped_typeState : WellShaped ⟨KSU_SEPOLICY_CMD_TYPE_STATE, subcmd⟩ args ↔
    (subcmd = KSU_SEPOLICY_SUBCMD_TYPE_STATE_PERMISSIVE ∨ subcmd = KSU_SEPOLICY_SUBCMD_TYPE_STATE_ENFORCE) ∧
      (argAt args 0).isSome := by
  simp +decide [wellShaped_iff, knownCmd, requiredArgs]

theorem wellShaped_type :
    WellShaped ⟨KSU_SEPOLICY_CMD_TYPE, subcmd⟩ args ↔ (argAt args 0).isSome ∧ (argAt args 1).isSome := by
  simp +decide [wellShaped_iff, knownCmd, requiredArgs]

theorem wellShaped_typeAttr :
    WellShaped ⟨KSU_SEPOLICY_CMD_TYPE_ATTR, subcmd⟩ args ↔ (argAt args 0).isSome ∧ (argAt args 1).isSome := by
  simp +decide [wellShaped_iff, knownCmd, requiredArgs]

theorem wellShaped_attr : WellShaped ⟨KSU_SEPOLICY_CMD_ATTR, subcmd⟩ args ↔ (argAt args 0).isSome := by
  simp +decide [wellShaped_iff, knownCmd, requiredArgs]

theorem wellShaped_typeTransition : WellShaped ⟨KSU_SEPOLICY_CMD_TYPE_TRANSITION, subcmd⟩ args ↔
    (argAt args 0).isSome ∧ (argAt args 1).isSome ∧ (argAt args 2).isSome ∧ (argAt args 3).isSome := by
  simp +decide [wellShaped_iff, knownCmd, requiredArgs]

theorem wellShaped_typeChange : WellShaped ⟨KSU_SEPOLICY_CMD_TYPE_CHANGE, subcmd⟩ args ↔
    (subcmd = KSU_SEPOLICY_SUBCMD_TYPE_CHANGE_CHANGE ∨ subcmd = KSU_SEPOLICY_SUBCMD_TYPE_CHANGE_MEMBER) ∧
      (argAt args 0).isSome ∧ (argAt args 1).isSome ∧ (argAt args 2).isSome ∧ (argAt args 3).isSome := by
  simp +decide [wellShaped_iff, knownCmd, requiredArgs]

theorem wellShaped_genfscon : WellShaped ⟨KSU_SEPOLICY_CMD_GENFSCON, subcmd⟩ args ↔
    (argAt args 0).isSome ∧ (argAt args 1).isSome ∧ (argAt args 2).isSome := by
  simp +decide [wellShaped_iff, knownCmd, requiredArgs]

/-! ### One lemma for each command -/

theorem dispatched_normalPerm (hsub : subcmd = KSU_SEPOLICY_SUBCMD_NORMAL_PERM_ALLOW ∨
    subcmd = KSU_SEPOLICY_SUBCMD_NORMAL_PERM_DENY ∨ subcmd = KSU_SEPOLICY_SUBCMD_NORMAL_PERM_AUDITALLOW ∨
    subcmd = KSU_SEPOLICY_SUBCMD_NORMAL_PERM_DONTAUDIT) : Dispatched ⟨KSU_SEPOLICY_CMD_NORMAL_PERM, subcmd⟩ args := by
  rcases hsub with rfl | rfl | rfl | rfl
  · exact ⟨_, .allow _ _ _ _, rfl⟩
  · exact ⟨_, .deny _ _ _ _, rfl⟩
  · exact ⟨_, .auditallow _ _ _ _, rfl⟩
  · exact ⟨_, .dontaudit _ _ _ _, rfl⟩

theorem dispatched_xperm (hsub : subcmd = KSU_SEPOLICY_SUBCMD_XPERM_ALLOW ∨
    subcmd = KSU_SEPOLICY_SUBCMD_XPERM_AUDITALLOW ∨ subcmd = KSU_SEPOLICY_SUBCMD_XPERM_DONTAUDIT)
    (h3 : (argAt args 3).isSome) (h4 : (argAt args 4).isSome) : Dispatched ⟨KSU_SEPOLICY_CMD_XPERM, subcmd⟩ args := by
  rcases hsub with rfl | rfl | rfl
  · exact ⟨_, .allowxperm _ _ _ _, (withNotAll_get h3).trans (withNotAll_get h4)⟩
  · exact ⟨_, .auditallowxperm _ _ _ _, (withNotAll_get h3).trans (withNotAll_get h4)⟩
  · exact ⟨_, .dontauditxperm _ _ _ _, (withNotAll_get h3).trans (withNotAll_get h4)⟩

theorem dispatched_typeState (hsub : subcmd = KSU_SEPOLICY_SUBCMD_TYPE_STATE_PERMISSIVE ∨
    subcmd = KSU_SEPOLICY_SUBCMD_TYPE_STATE_ENFORCE) (h0 : (argAt args 0).isSome) :
    Dispatched ⟨KSU_SEPOLICY_CMD_TYPE_STATE, subcmd⟩ args := by
  rcases hsub with rfl | rfl
  · exact ⟨_, .permissive _, withNotAll_get h0⟩
  · exact ⟨_, .enforce _, withNotAll_get h0⟩

theorem dispatched_type (h0 : (argAt args 0).isSome) (h1 : (argAt args 1).isSome) :
    Dispatched ⟨KSU_SEPOLICY_CMD_TYPE, subcmd⟩ args :=
  ⟨_, .type _ _, (withNotAll_get h0).trans (withNotAll_get h1)⟩

theorem dispatched_typeAttr (h0 : (argAt args 0).isSome) (h1 : (argAt args 1).isSome) :
    Dispatched ⟨KSU_SEPOLICY_CMD_TYPE_ATTR, subcmd⟩ args :=
  ⟨_, .typeattribute _ _, (withNotAll_get h0).trans (withNotAll_get h1)⟩

theorem dispatched_attr (h0 : (argAt args 0).isSome) : Dispatched ⟨KSU_SEPOLICY_CMD_ATTR, subcmd⟩ args :=
  ⟨_, .attr _, withNotAll_get h0⟩

theorem dispatched_typeTransition (h0 : (argAt args 0).isSome) (h1 : (argAt args 1).isSome)
    (h2 : (argAt args 2).isSome) (h3 : (argAt args 3).isSome) :
    Dispatched ⟨KSU_SEPOLICY_CMD_TYPE_TRANSITION, subcmd⟩ args :=
  ⟨_, .typeTransition _ _ _ _ _,
    (withNotAll_get h0).trans ((withNotAll_get h1).trans ((withNotAll_get h2).trans (withNotAll_get h3)))⟩

theorem dispatched_typeChange (hsub : subcmd = KSU_SEPOLICY_SUBCMD_TYPE_CHANGE_CHANGE ∨
    subcmd = KSU_SEPOLICY_SUBCMD_TYPE_CHANGE_MEMBER) (h0 : (argAt args 0).isSome) (h1 : (argAt args 1).isSome)
    (h2 : (argAt args 2).isSome) (h3 : (argAt args 3).isSome) :
    Dispatched ⟨KSU_SEPOLICY_CMD_TYPE_CHANGE, subcmd⟩ args := by
  rcases hsub with rfl | rfl
  · exact ⟨_, .typeChange _ _ _ _,
      (withNotAll_get h0).trans ((withNotAll_get h1).trans ((withNotAll_get h2).trans (withNotAll_get h3)))⟩
  · exact ⟨_, .typeMember _ _ _ _,
      (withNotAll_get h0).trans ((withNotAll_get h1).trans ((withNotAll_get h2).trans (withNotAll_get h3)))⟩

theorem dispatched_genfscon (h0 : (argAt args 0).isSome) (h1 : (argAt args 1).isSome) (h2 : (argAt args 2).isSome) :
    Dispatched ⟨KSU_SEPOLICY_CMD_GENFSCON, subcmd⟩ args :=
  ⟨_, .genfscon _ _ _, (withNotAll_get h0).trans ((withNotAll_get h1).trans (withNotAll_get h2))⟩

/-- **A command of the right shape reaches the policy.** -/
theorem applyOneSepolicyCmd_wellShaped (h : WellShaped header args) : Dispatched header args := by
  obtain ⟨cmd, subcmd⟩ := header
  obtain ⟨hknown, hconcrete⟩ := h
  dsimp only [knownCmd] at hknown hconcrete
  rcases hknown with ⟨rfl, hsub⟩ | ⟨rfl, hsub⟩ | ⟨rfl, hsub⟩ | rfl | rfl | rfl | rfl | ⟨rfl, hsub⟩ | rfl
  · exact dispatched_normalPerm hsub
  · exact dispatched_xperm hsub (hconcrete 3 (by decide)) (hconcrete 4 (by decide))
  · exact dispatched_typeState hsub (hconcrete 0 (by decide))
  · exact dispatched_type (hconcrete 0 (by decide)) (hconcrete 1 (by decide))
  · exact dispatched_typeAttr (hconcrete 0 (by decide)) (hconcrete 1 (by decide))
  · exact dispatched_attr (hconcrete 0 (by decide))
  · exact dispatched_typeTransition (hconcrete 0 (by decide)) (hconcrete 1 (by decide)) (hconcrete 2 (by decide))
      (hconcrete 3 (by decide))
  · exact dispatched_typeChange hsub (hconcrete 0 (by decide)) (hconcrete 1 (by decide)) (hconcrete 2 (by decide))
      (hconcrete 3 (by decide))
  · exact dispatched_genfscon (hconcrete 0 (by decide)) (hconcrete 1 (by decide)) (hconcrete 2 (by decide))

/-! ### Refusals -/

theorem isSome_of_eq {value : Option Name} {v : Name} (h : value = some v) : value.isSome := by
  rw [h]
  rfl

theorem refused_xperm (h : ¬WellShaped ⟨KSU_SEPOLICY_CMD_XPERM, subcmd⟩ args) :
    applyOneSepolicyCmd ⟨KSU_SEPOLICY_CMD_XPERM, subcmd⟩ args = return Errno.EINVAL.val := by
  refine withNotAll_refused fun v3 h3 => withNotAll_refused fun v4 h4 => ?_
  have hsub := fun hsub => h (wellShaped_xperm.mpr ⟨hsub, isSome_of_eq h3, isSome_of_eq h4⟩)
  rw [if_neg fun h => hsub (Or.inl h), if_neg fun h => hsub (Or.inr (Or.inl h)),
    if_neg fun h => hsub (Or.inr (Or.inr h))]

theorem refused_typeState (h : ¬WellShaped ⟨KSU_SEPOLICY_CMD_TYPE_STATE, subcmd⟩ args) :
    applyOneSepolicyCmd ⟨KSU_SEPOLICY_CMD_TYPE_STATE, subcmd⟩ args = return Errno.EINVAL.val := by
  refine withNotAll_refused fun v0 h0 => ?_
  have hsub := fun hsub => h (wellShaped_typeState.mpr ⟨hsub, isSome_of_eq h0⟩)
  rw [if_neg fun h => hsub (Or.inl h), if_neg fun h => hsub (Or.inr h)]

theorem refused_typeChange (h : ¬WellShaped ⟨KSU_SEPOLICY_CMD_TYPE_CHANGE, subcmd⟩ args) :
    applyOneSepolicyCmd ⟨KSU_SEPOLICY_CMD_TYPE_CHANGE, subcmd⟩ args = return Errno.EINVAL.val := by
  refine withNotAll_refused fun v0 h0 => withNotAll_refused fun v1 h1 => withNotAll_refused fun v2 h2 =>
    withNotAll_refused fun v3 h3 => ?_
  have hsub := fun hsub => h (wellShaped_typeChange.mpr
    ⟨hsub, isSome_of_eq h0, isSome_of_eq h1, isSome_of_eq h2, isSome_of_eq h3⟩)
  rw [if_neg fun h => hsub (Or.inl h), if_neg fun h => hsub (Or.inr h)]

/-- **Any other command is refused.** -/
theorem applyOneSepolicyCmd_refused (h : ¬WellShaped header args) :
    applyOneSepolicyCmd header args = return Errno.EINVAL.val := by
  obtain ⟨cmd, subcmd⟩ := header
  by_cases hnormalPerm : cmd = KSU_SEPOLICY_CMD_NORMAL_PERM
  · subst hnormalPerm
    rw [wellShaped_normalPerm, not_or, not_or, not_or] at h
    simp only [applyOneSepolicyCmd, if_true, if_neg h.1, if_neg h.2.1, if_neg h.2.2.1, if_neg h.2.2.2]
  by_cases hxperm : cmd = KSU_SEPOLICY_CMD_XPERM
  · subst hxperm
    exact refused_xperm h
  by_cases htypeState : cmd = KSU_SEPOLICY_CMD_TYPE_STATE
  · subst htypeState
    exact refused_typeState h
  by_cases htype : cmd = KSU_SEPOLICY_CMD_TYPE
  · subst htype
    exact withNotAll_refused fun v0 h0 => withNotAll_refused fun v1 h1 =>
      absurd (wellShaped_type.mpr ⟨isSome_of_eq h0, isSome_of_eq h1⟩) h
  by_cases htypeAttr : cmd = KSU_SEPOLICY_CMD_TYPE_ATTR
  · subst htypeAttr
    exact withNotAll_refused fun v0 h0 => withNotAll_refused fun v1 h1 =>
      absurd (wellShaped_typeAttr.mpr ⟨isSome_of_eq h0, isSome_of_eq h1⟩) h
  by_cases hattr : cmd = KSU_SEPOLICY_CMD_ATTR
  · subst hattr
    exact withNotAll_refused fun v0 h0 => absurd (wellShaped_attr.mpr (isSome_of_eq h0)) h
  by_cases htypeTransition : cmd = KSU_SEPOLICY_CMD_TYPE_TRANSITION
  · subst htypeTransition
    exact withNotAll_refused fun v0 h0 => withNotAll_refused fun v1 h1 => withNotAll_refused fun v2 h2 =>
      withNotAll_refused fun v3 h3 => absurd
        (wellShaped_typeTransition.mpr ⟨isSome_of_eq h0, isSome_of_eq h1, isSome_of_eq h2, isSome_of_eq h3⟩) h
  by_cases htypeChange : cmd = KSU_SEPOLICY_CMD_TYPE_CHANGE
  · subst htypeChange
    exact refused_typeChange h
  by_cases hgenfscon : cmd = KSU_SEPOLICY_CMD_GENFSCON
  · subst hgenfscon
    exact withNotAll_refused fun v0 h0 => withNotAll_refused fun v1 h1 => withNotAll_refused fun v2 h2 =>
      absurd (wellShaped_genfscon.mpr ⟨isSome_of_eq h0, isSome_of_eq h1, isSome_of_eq h2⟩) h
  simp only [applyOneSepolicyCmd, if_neg hnormalPerm, if_neg hxperm, if_neg htypeState, htype, htypeAttr, or_self,
    if_false, if_neg hattr, if_neg htypeTransition, if_neg htypeChange, if_neg hgenfscon]

end Shape

end KernelSU.Selinux
