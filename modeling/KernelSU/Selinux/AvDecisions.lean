import KernelSU.Lib.LastWriter
import KernelSU.Selinux.AvFrame
import KernelSU.Selinux.SepolicyBatch

/-!
# What a batch does to the access vectors

* `ksuAv_decides` — **PROVED**: an access-vector rule sets or clears the bits it reaches, and no others;
* `applyCmd_keeps` — **PROVED**: any other command leaves all bits alone;
* `handleSepolicy_batch`, `handleSepolicy_refused` — **PROVED**: a batch of commands ends with the fold of the
  commands over the duplicate, or leaves the active policy alone.
-/

namespace KernelSU.Selinux

open KernelSU.Lib KernelSU.Lib.Errno

/-! ### Bits -/

/-- One bit of an access vector: an access-vector key and a permission bit. -/
structure AvBit where
  key : AvtabKey
  bit : Fin 32
  isAv : IsAvEffect key.specified

/-- What the table says about the bit. -/
def AvBit.value (b : AvBit) (db : Policydb) : Bool := (effectiveVector db.teAvtab b.key).getLsbD b.bit

/-- A well-formed table and memory to spare. -/
structure Roomy (m : PolicyMem) : Prop where
  allocs : m.AllocsSucceed
  wellFormed : AvtabWellFormed m.db

namespace AvKind

def subcmd : AvKind → UInt32
  | allow => KSU_SEPOLICY_SUBCMD_NORMAL_PERM_ALLOW
  | deny => KSU_SEPOLICY_SUBCMD_NORMAL_PERM_DENY
  | auditallow => KSU_SEPOLICY_SUBCMD_NORMAL_PERM_AUDITALLOW
  | dontaudit => KSU_SEPOLICY_SUBCMD_NORMAL_PERM_DONTAUDIT

/-- Whether a rule reaches a bit: its names exist, the key is one of its targets and the bit is named. -/
def reaches (kind : AvKind) (db : Policydb) (src tgt cls perm : Option Name) (b : AvBit) : Bool :=
  match lookupOrAll db.pTypes src, lookupOrAll db.pTypes tgt, lookupOrAll db.pClasses cls with
  | some s, some t, some c =>
    match lookupPerm c perm with
    | some p => decide (b.key ∈ kind.targets db s t c) && namesBit p b.bit
    | none => false
  | _, _, _ => false

/-- What a rule reaches is told by the symbols. -/
theorem reaches_congr (kind : AvKind) {db db' : Policydb} (htypes : db'.pTypes = db.pTypes)
    (hclasses : db'.pClasses = db.pClasses) (src tgt cls perm : Option Name) (b : AvBit) :
    kind.reaches db' src tgt cls perm b = kind.reaches db src tgt cls perm b := by
  have htargets : ∀ s t c, kind.targets db' s t c = kind.targets db s t c := by
    intro s t c
    have hexpand : ∀ t, kind.expandType db' t = kind.expandType db t := by
      intro t
      cases t with
      | none => cases kind <;> simp only [expandType, htypes]
      | some t => rfl
    have hcls : targetClasses db' c = targetClasses db c := by
      cases c with
      | none => simp only [targetClasses, hclasses]
      | some c => rfl
    simp only [targets, hexpand, hcls]
  simp only [reaches, htypes, hclasses, htargets]

end AvKind

/-! ### One rule -/

/-- What an access-vector rule leaves. -/
structure RuleApplied (kind : AvKind) (src tgt cls perm : Option Name) (m m' : PolicyMem) : Prop where
  roomy : Roomy m'
  types : m'.db.pTypes = m.db.pTypes
  classes : m'.db.pClasses = m.db.pClasses
  value : ∀ b : AvBit, b.value m'.db = if kind.reaches m.db src tgt cls perm b then kind.sets else b.value m.db

/-- A rule that names something unknown changes nothing. -/
theorem RuleApplied.of_unknown {kind : AvKind} {src tgt cls perm : Option Name} {m : PolicyMem} (hm : Roomy m)
    (hnone : ∀ b, kind.reaches m.db src tgt cls perm b = false) : RuleApplied kind src tgt cls perm m m where
  roomy := hm
  types := rfl
  classes := rfl
  value b := by rw [hnone b, if_neg Bool.false_ne_true]

/-- **What an access-vector rule does.** -/
theorem ksuAv_decides (kind : AvKind) (src tgt cls perm : Option Name) {m : PolicyMem} (hm : Roomy m) :
    RuleApplied kind src tgt cls perm m ((ksuAv kind src tgt cls perm).run m).2 := by
  cases hs : lookupOrAll m.db.pTypes src with
  | none =>
    have hrun : ((ksuAv kind src tgt cls perm).run m).2 = m := by simp [ksuAv_eq, addRule, hs]
    rw [hrun]
    exact .of_unknown hm fun b => by simp only [AvKind.reaches, hs]
  | some s =>
  cases ht : lookupOrAll m.db.pTypes tgt with
  | none =>
    have hrun : ((ksuAv kind src tgt cls perm).run m).2 = m := by simp [ksuAv_eq, addRule, hs, ht]
    rw [hrun]
    exact .of_unknown hm fun b => by simp only [AvKind.reaches, hs, ht]
  | some t =>
  cases hc : lookupOrAll m.db.pClasses cls with
  | none =>
    have hrun : ((ksuAv kind src tgt cls perm).run m).2 = m := by simp [ksuAv_eq, addRule, hs, ht, hc]
    rw [hrun]
    exact .of_unknown hm fun b => by simp only [AvKind.reaches, hs, ht, hc]
  | some c =>
  cases hp : lookupPerm c perm with
  | none =>
    have hrun : ((ksuAv kind src tgt cls perm).run m).2 = m := by simp [ksuAv_eq, addRule, hs, ht, hc, hp]
    rw [hrun]
    exact .of_unknown hm fun b => by simp only [AvKind.reaches, hs, ht, hc, hp]
  | some p =>
    have hstep := ksuAv_avStep kind hm.allocs hm.wellFormed hs ht hc hp
    refine ⟨⟨hstep.allocs, hstep.wellFormed⟩, hstep.types, hstep.classes, fun b => ?_⟩
    have hreaches : kind.reaches m.db src tgt cls perm b =
        (decide (b.key ∈ kind.targets m.db s t c) && namesBit p b.bit) := by
      simp only [AvKind.reaches, hs, ht, hc, hp]
    rw [hreaches]
    by_cases hkey : b.key ∈ kind.targets m.db s t c
    · rw [decide_eq_true hkey, Bool.true_and, AvBit.value, hstep.vectors b.key hkey,
        getLsbD_ruleUpdate p kind.invert _ b.bit.isLt, kind.sets_eq]
      rfl
    · rw [decide_eq_false hkey, Bool.false_and, if_neg Bool.false_ne_true, AvBit.value, AvBit.value, effectiveVector,
        effectiveVector, hstep.frame b.key b.isAv hkey]

/-! ### Commands -/

/-- The state after a command. -/
def applyCmd (m : PolicyMem) (cmd : SepolCmd) : PolicyMem := (applyToPolicy cmd.1 cmd.2 m).2

/-- The command of an access-vector rule. -/
def AvKind.cmd (kind : AvKind) (src tgt cls perm : Option Name) : SepolCmd :=
  (⟨KSU_SEPOLICY_CMD_NORMAL_PERM, kind.subcmd⟩, [src, tgt, cls, perm])

theorem applyCmd_rule (kind : AvKind) (src tgt cls perm : Option Name) (m : PolicyMem) :
    applyCmd m (kind.cmd src tgt cls perm) = ((ksuAv kind src tgt cls perm).run m).2 := by
  cases kind <;> rfl

/-- **Any other command leaves the bits alone.** -/
theorem applyCmd_keeps {cmd : SepolCmd} (hcmd : cmd.1.cmd ≠ KSU_SEPOLICY_CMD_NORMAL_PERM) {m : PolicyMem}
    (hm : Roomy m) : Roomy (applyCmd m cmd) ∧ ∀ b : AvBit, b.value (applyCmd m cmd).db = b.value m.db := by
  have hkept := applyOneSepolicyCmd_keepsAv hcmd cmd.2 m
  refine ⟨⟨hkept.allocs hm.allocs, hkept.wellFormed hm.wellFormed⟩, fun b => ?_⟩
  have hentries := hkept.entries hm.wellFormed b.key b.isAv
  show (effectiveVector ((applyOneSepolicyCmd cmd.1 cmd.2).run m).2.db.teAvtab b.key).getLsbD b.bit = _
  rw [effectiveVector, hentries]
  rfl

/-! ### Batches -/

/-- What the ioctl does after the copy. -/
def afterCopy (linux : LinuxPolicydb) (fuel : ℕ) (payload : List UInt8) (m : PolicyMem) : Option BatchOutcome :=
  match (ksuDupSepolicy linux).run m with
  | (.error e, m) => some ⟨e.val, m, []⟩
  | (.ok pol, m') =>
    (sepolBatchLoop applyToPolicy payload fuel ⟨0, payload.length⟩ 0 { m' with db := pol }).map fun r =>
      match r.result with
      | .error e => ⟨e.val, { r.state with db := m.db }, r.reads⟩
      | .ok count => ⟨count, r.state, r.reads⟩

section Ioctl

variable (linux : LinuxPolicydb) {payload : List UInt8} {m : PolicyMem} {fuel : ℕ}

theorem handleSepolicy_of_length (copyFault : Bool) (hpos : 1 ≤ payload.length)
    (hmax : payload.length ≤ KSU_SEPOLICY_MAX_BATCH_SIZE) :
    handleSepolicy linux copyFault fuel (some payload) m =
      if !(kalloc.run m).1 then some ⟨ENOMEM.val, (kalloc.run m).2, []⟩
      else if copyFault then some ⟨EFAULT.val, (kalloc.run m).2, []⟩
      else afterCopy linux fuel payload (kalloc.run m).2 := by
  simp only [handleSepolicy, if_neg (Nat.one_le_iff_ne_zero.mp hpos), if_neg (Nat.not_lt.mpr hmax)]
  rfl

/-- **A batch that is let in** makes the new policy the fold of its commands over the duplicate. -/
theorem handleSepolicy_batch {copyFault : Bool} {dup : PolicyMem} {cmds : List SepolCmd}
    (hdup : batchDuplicate linux copyFault m = some dup) (hbatch : IsBatch payload cmds) (hpos : 1 ≤ payload.length)
    (hmax : payload.length ≤ KSU_SEPOLICY_MAX_BATCH_SIZE) (hfuel : payload.length < fuel) :
    ∃ out, handleSepolicy linux copyFault fuel (some payload) m = some out ∧
      out.ret = succeeded applyToPolicy cmds dup ∧ out.mem = cmds.foldl applyCmd dup := by
  rw [handleSepolicy_of_length linux copyFault hpos hmax]
  rw [batchDuplicate] at hdup
  split at hdup
  · next hgot =>
    obtain ⟨halloc, rfl⟩ := hgot
    rw [halloc, Bool.not_true, if_neg Bool.false_ne_true, if_neg Bool.false_ne_true, afterCopy]
    split at hdup
    · next pol m' hrun =>
      rw [hrun]
      obtain ⟨r, hr, -, hres⟩ := sepolBatchLoop_spec applyToPolicy payload (Nat.zero_le payload.length)
        (by simpa using hfuel) 0 { m' with db := pol }
      have hloop : sepolBatchLoop applyToPolicy payload fuel ⟨0, payload.length⟩ 0 { m' with db := pol } = some r := hr
      rw [List.drop_zero] at hres
      simp only [hloop, Option.map_some]
      cases hrr : r.result with
      | error e =>
        rw [hrr] at hres
        exact absurd hres (isBatch_not_framingError hbatch)
      | ok n =>
        rw [hrr] at hres
        obtain ⟨cmds', hcmds', hn, hstate, -⟩ := hres
        obtain rfl := isBatch_unique hcmds' hbatch
        obtain rfl := Option.some.inj hdup
        refine ⟨_, rfl, ?_, hstate⟩
        rw [hn, Nat.zero_add]
    · cases hdup
  · cases hdup

/-- **A batch that is not let in** leaves the active policy alone. -/
theorem handleSepolicy_refused {copyFault : Bool} (hpos : 1 ≤ payload.length)
    (hrefused : KSU_SEPOLICY_MAX_BATCH_SIZE < payload.length ∨ batchDuplicate linux copyFault m = none) :
    ∃ out, handleSepolicy linux copyFault fuel (some payload) m = some out ∧ out.ret < 0 ∧ out.mem.db = m.db := by
  by_cases hmax : KSU_SEPOLICY_MAX_BATCH_SIZE < payload.length
  · refine ⟨⟨E2BIG.val, m, []⟩, ?_, E2BIG.range.2, rfl⟩
    simp only [handleSepolicy, if_neg (Nat.one_le_iff_ne_zero.mp hpos), if_pos hmax]
  · have hnone := hrefused.resolve_left hmax
    have hdb := kalloc_db m
    rw [handleSepolicy_of_length linux copyFault hpos (Nat.not_lt.mp hmax)]
    cases halloc : (kalloc.run m).1 with
    | false => exact ⟨_, rfl, ENOMEM.range.2, hdb⟩
    | true =>
      rw [Bool.not_true, if_neg Bool.false_ne_true]
      cases copyFault with
      | true => exact ⟨_, rfl, EFAULT.range.2, hdb⟩
      | false =>
        rw [if_neg Bool.false_ne_true, afterCopy]
        have hdup := (ksuDupSepolicy_db linux (kalloc.run m).2).trans hdb
        rw [batchDuplicate, if_pos ⟨halloc, rfl⟩] at hnone
        rcases hrun : (ksuDupSepolicy linux).run (kalloc.run m).2 with ⟨e | pol, m'⟩
        · rw [hrun] at hdup
          exact ⟨_, rfl, e.range.2, hdup⟩
        · rw [hrun] at hnone
          cases hnone

end Ioctl

end KernelSU.Selinux
