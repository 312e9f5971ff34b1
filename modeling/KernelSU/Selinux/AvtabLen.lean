import Mathlib.Data.List.Perm.Basic
import KernelSU.Selinux.AddType
import KernelSU.Selinux.PolicySize

/-!
# `policydb.len` and the access-vector table

An inserted entry adds 16 bytes to `len`, or 50 with extended permissions; a removed one takes 16 away.

* `AvtabStep` — what an operation on the table does to `len` and to the numbers of entries;
* `addRuleRaw_stepsFrom` — **PROVED**: an access-vector rule loses at most the entries that it empties;
* `addXpermRuleRaw_stepsFrom` — **PROVED**: an extended-permission rule loses none.
-/

namespace KernelSU.Selinux

open KernelSU.Lib

/-! ### The access-vector table -/

/-- What an operation on the table does: the rest of the policy is as before, `len` moves with the numbers of
entries, and entries are lost only among those that `E` marks. -/
structure AvtabStep (E : AvtabNode → Bool) (db db' : Policydb) : Prop where
  same : db' = { db with teAvtab := db'.teAvtab, teAvtabNel := db'.teAvtabNel, len := db'.len }
  len : db.len + 16 * avCount db'.teAvtab + 50 * xpermCount db'.teAvtab ≤
    db'.len + 16 * avCount db.teAvtab + 50 * xpermCount db.teAvtab
  xperms : xpermCount db.teAvtab ≤ xpermCount db'.teAvtab
  kept : avCount db.teAvtab + db'.teAvtab.countP E ≤ avCount db'.teAvtab + db.teAvtab.countP E

namespace AvtabStep

variable {E : AvtabNode → Bool} {db db₁ db₂ : Policydb}

theorem refl (E : AvtabNode → Bool) (db : Policydb) : AvtabStep E db db :=
  ⟨rfl, le_rfl, le_rfl, le_rfl⟩

theorem trans (h₁ : AvtabStep E db db₁) (h₂ : AvtabStep E db₁ db₂) : AvtabStep E db db₂ where
  same := by rw [h₂.same, h₁.same]
  len := by
    have hfirst := h₁.len
    have hsecond := h₂.len
    omega
  xperms := h₁.xperms.trans h₂.xperms
  kept := by
    have hfirst := h₁.kept
    have hsecond := h₂.kept
    omega

theorem pTypes (h : AvtabStep E db db₁) : db₁.pTypes = db.pTypes := by rw [h.same]

theorem pClasses (h : AvtabStep E db db₁) : db₁.pClasses = db.pClasses := by rw [h.same]

theorem of_eq (h : db₁ = db) : AvtabStep E db db₁ := h ▸ .refl E db₁

end AvtabStep

@[simp] theorem kalloc_run_db (m : PolicyMem) : (kalloc.run m).2.db = m.db := PolicyMem.request_db m

/-! ### Inserting -/

theorem avtabInsertNonunique_perm (nodes : List AvtabNode) (n : AvtabNode) :
    (avtabInsertNonunique nodes n).2.Perm (n :: nodes) ∧
      (avtabInsertNonunique nodes n).2[(avtabInsertNonunique nodes n).1]? = some n := by
  have hle : (avtabSearchNode nodes n.key).getD nodes.length ≤ nodes.length := by
    cases h : avtabSearchNode nodes n.key with
    | none => exact le_rfl
    | some i => exact (List.findIdx?_eq_some_iff_getElem.mp h).1.le
  exact ⟨List.perm_insertIdx n nodes hle, by simp [avtabInsertNonunique, List.getElem?_insertIdx_self, hle]⟩

theorem freshNode_key (key : AvtabKey) (x : AvtabExtendedPerms) : (freshNode key x).key = key := by
  rw [freshNode]
  split <;> rfl

/-- The policy with a fresh node of `key`. -/
def withFreshNode (db : Policydb) (key : AvtabKey) (x : AvtabExtendedPerms) : Policydb :=
  { db with
    teAvtab := (avtabInsertNonunique db.teAvtab (freshNode key x)).2
    teAvtabNel := db.teAvtabNel + 1
    len := db.len + (sizeofAvtabKey + sizeofAvtabDatum + if key.isXperms then xpermsSize else 0) }

section Steps

variable {E : AvtabNode → Bool} (hE : ∀ n, E n = true → n.key.isXperms = false)

include hE in
/-- The step of inserting a node of `key`. -/
theorem avtabStep_insert (db : Policydb) (key : AvtabKey) (x : AvtabExtendedPerms) :
    AvtabStep E db (withFreshNode db key x) := by
  obtain ⟨hperm, -⟩ := avtabInsertNonunique_perm db.teAvtab (freshNode key x)
  have hkind := hE (freshNode key x)
  rw [freshNode_key] at hkind
  refine ⟨rfl, ?_, ?_, ?_⟩
  · simp only [withFreshNode, avCount, xpermCount, hperm.countP_eq, List.countP_cons, freshNode_key,
      sizeofAvtabKey, sizeofAvtabDatum, xpermsSize]
    cases key.isXperms <;> simp <;> omega
  · simp only [withFreshNode, xpermCount, hperm.countP_eq, List.countP_cons]
    omega
  · simp only [withFreshNode, avCount, hperm.countP_eq, List.countP_cons, freshNode_key]
    cases hfresh : E (freshNode key x) with
    | false => simp
    | true => simp [hkind hfresh]; omega

include hE in
/-- `get_avtab_node`: at most an insertion, and the node it gives has a key that meets the wanted one. -/
theorem getAvtabNode_avtabStep {key : AvtabKey} (hself : key.meets key = true) (x : AvtabExtendedPerms)
    (m : PolicyMem) :
    AvtabStep E m.db ((getAvtabNode key x).run m).2.db ∧
      ∀ i, ((getAvtabNode key x).run m).1 = some i →
        ∃ n, ((getAvtabNode key x).run m).2.db.teAvtab[i]? = some n ∧ key.meets n.key = true := by
  cases hfind : m.db.teAvtab.findIdx? (isAvtabNode key x) with
  | some i =>
    have hrun : (getAvtabNode key x).run m = (some i, m) := by simp [getAvtabNode, hfind]
    rw [hrun]
    refine ⟨.refl E m.db, ?_⟩
    intro j hj
    obtain rfl : i = j := Option.some.inj hj
    obtain ⟨hlt, hnode, -⟩ := List.findIdx?_eq_some_iff_getElem.mp hfind
    refine ⟨m.db.teAvtab[i], List.getElem?_eq_getElem hlt, ?_⟩
    rw [isAvtabNode, Bool.and_eq_true] at hnode
    exact hnode.1
  | none =>
    have hinserted : ∀ m' : PolicyMem, m'.db = m.db →
        (getAvtabNode key x).run m = (some (avtabInsertNonunique m.db.teAvtab (freshNode key x)).1,
          { m' with db := withFreshNode m.db key x }) →
        AvtabStep E m.db ((getAvtabNode key x).run m).2.db ∧
          ∀ i, ((getAvtabNode key x).run m).1 = some i →
            ∃ n, ((getAvtabNode key x).run m).2.db.teAvtab[i]? = some n ∧ key.meets n.key = true := by
      intro m' hdb hrun
      rw [hrun]
      refine ⟨avtabStep_insert hE m.db key x, ?_⟩
      intro i hi
      obtain rfl := Option.some.inj hi
      refine ⟨freshNode key x, (avtabInsertNonunique_perm m.db.teAvtab (freshNode key x)).2, ?_⟩
      rw [freshNode_key]
      exact hself
    have hfailed : ∀ m' : PolicyMem, m'.db = m.db → (getAvtabNode key x).run m = (none, m') →
        AvtabStep E m.db ((getAvtabNode key x).run m).2.db ∧
          ∀ i, ((getAvtabNode key x).run m).1 = some i →
            ∃ n, ((getAvtabNode key x).run m).2.db.teAvtab[i]? = some n ∧ key.meets n.key = true := by
      intro m' hdb hrun
      rw [hrun]
      exact ⟨.of_eq hdb, fun i hi => absurd hi (by simp)⟩
    rcases h₁ : kalloc.run m with ⟨b₁, m₁⟩
    have hdb₁ : m₁.db = m.db := by rw [← kalloc_run_db m, h₁]
    cases b₁ with
    | false => exact hfailed m₁ hdb₁ (by simp [getAvtabNode, hfind, h₁])
    | true =>
      cases hx : key.isXperms with
      | false => exact hinserted m₁ hdb₁ (by simp [getAvtabNode, hfind, h₁, hx, hdb₁, withFreshNode])
      | true =>
        rcases h₂ : kalloc.run m₁ with ⟨b₂, m₂⟩
        have hdb₂ : m₂.db = m.db := by rw [← hdb₁, ← kalloc_run_db m₁, h₂]
        cases b₂ with
        | false => exact hfailed m₂ hdb₂ (by simp [getAvtabNode, hfind, h₁, h₂, hx])
        | true =>
          exact hinserted m₂ hdb₂ (by simp [getAvtabNode, hfind, h₁, h₂, hx, hdb₂, withFreshNode])

/-! ### Changing and removing -/

theorem map_modify_eq {α β : Type} {g : α → β} {f : α → α} (h : ∀ a, g (f a) = g a) (l : List α) (i : ℕ) :
    (l.modify i f).map g = l.map g := by
  induction l generalizing i with
  | nil => simp
  | cons a l ih =>
    cases i with
    | zero => simp [h]
    | succ i => simp [ih]

theorem countP_modify {α : Type} {p : α → Bool} {f : α → α} (h : ∀ a, p (f a) = p a) (l : List α) (i : ℕ) :
    (l.modify i f).countP p = l.countP p := by
  have hmap := congrArg (List.countP id) (map_modify_eq h l i)
  simpa only [List.countP_map, Function.id_comp] using hmap

@[simp] theorem AvtabNode.setData_key (n : AvtabNode) (f : BitVec 32 → BitVec 32) : (n.setData f).key = n.key := by
  unfold AvtabNode.setData
  split <;> rfl

/-- Stores to permissions change no count, as long as they do not change what `E` marks. -/
theorem avtabStep_modify {f : BitVec 32 → BitVec 32} (hf : ∀ n, E (n.setData f) = E n) (db : Policydb)
    (i : ℕ) : AvtabStep E db { db with teAvtab := db.teAvtab.modify i (·.setData f) } := by
  have hav : avCount (db.teAvtab.modify i (·.setData f)) = avCount db.teAvtab :=
    countP_modify (fun n => by rw [AvtabNode.setData_key]) _ _
  have hxperms : xpermCount (db.teAvtab.modify i (·.setData f)) = xpermCount db.teAvtab :=
    countP_modify (fun n => by rw [AvtabNode.setData_key]) _ _
  have hmarked : (db.teAvtab.modify i (·.setData f)).countP E = db.teAvtab.countP E := countP_modify hf _ _
  refine ⟨rfl, ?_, ?_, ?_⟩
  · rw [hav, hxperms]
  · rw [hxperms]
  · rw [hav, hmarked]

include hE in
/-- `remove_avtab_node`, of a node that `E` marks. -/
theorem removeAvtabNode_avtabStep {m : PolicyMem} {i : ℕ} {n : AvtabNode} (hn : m.db.teAvtab[i]? = some n)
    (hmark : E n = true) : AvtabStep E m.db ((removeAvtabNode i).run m).2.db := by
  rcases h₁ : kalloc.run m with ⟨b₁, m₁⟩
  have hdb₁ : m₁.db = m.db := by rw [← kalloc_run_db m, h₁]
  cases b₁ with
  | false =>
    have hrun : (removeAvtabNode i).run m = (false, m₁) := by simp [removeAvtabNode, h₁]
    rw [hrun]
    exact .of_eq hdb₁
  | true =>
    obtain ⟨hlt, hget⟩ := List.getElem?_eq_some_iff.mp hn
    have hperm : (n :: m.db.teAvtab.eraseIdx i).Perm m.db.teAvtab := by
      have herase := List.getElem_cons_eraseIdx_perm hlt
      rwa [hget] at herase
    have hkind : n.key.isXperms = false := hE n hmark
    have hrun : ((removeAvtabNode i).run m).2.db =
        { m.db with
          teAvtab := m.db.teAvtab.eraseIdx i
          teAvtabNel := if 0 < m.db.teAvtabNel then m.db.teAvtabNel - 1 else m.db.teAvtabNel
          len := if 16 ≤ m.db.len then m.db.len - 16 else m.db.len } := by
      simp [removeAvtabNode, h₁, hdb₁, hn, hkind, sizeofAvtabKey, sizeofAvtabDatum]
    rw [hrun]
    refine ⟨rfl, ?_, ?_, ?_⟩
    · simp only [avCount, xpermCount, ← hperm.countP_eq, List.countP_cons, hkind]
      simp only [Bool.not_false, if_true, Bool.false_eq_true, if_false]
      split <;> omega
    · simp only [xpermCount, ← hperm.countP_eq, List.countP_cons, hkind]
      simp
    · simp only [avCount, ← hperm.countP_eq, List.countP_cons, hkind, hmark]
      simp
      omega

end Steps

/-! ### Access-vector rules -/

theorem AvtabNode.setData_setData (n : AvtabNode) {f : BitVec 32 → BitVec 32} (hf : ∀ d, f (f d) = f d) :
    (n.setData f).setData f = n.setData f := by
  obtain ⟨key, datum, typed⟩ := n
  cases datum with
  | data d => simp [AvtabNode.setData, hf]
  | xperms x => simp [AvtabNode.setData]

theorem ruleUpdate_idem (perm : Option PermDatum) (invert : Bool) (d : BitVec 32) :
    ruleUpdate perm invert (ruleUpdate perm invert d) = ruleUpdate perm invert d := by
  cases perm with
  | none => cases invert <;> rfl
  | some p =>
    cases invert with
    | false => simp only [ruleUpdate, BitVec.or_assoc, BitVec.or_self]
    | true => simp only [ruleUpdate, BitVec.and_assoc, BitVec.and_self]

theorem isRedundant_not_xperms {n : AvtabNode} (h : isRedundantAvtabNode n = true) :
    n.key.isXperms = false := by
  rw [isRedundantAvtabNode] at h
  split at h
  · exact absurd h (by simp)
  · next d hd => rw [← n.typed, hd]; rfl

section Rule

variable (keys : List AvtabKey) (perm : Option PermDatum) (invert : Bool)

theorem emptiedBy_not_xperms (n : AvtabNode) (h : emptiedBy keys (ruleUpdate perm invert) n = true) :
    n.key.isXperms = false := by
  rw [emptiedBy, Bool.and_eq_true] at h
  simpa using isRedundant_not_xperms h.2

theorem emptiedBy_setData (n : AvtabNode) :
    emptiedBy keys (ruleUpdate perm invert) (n.setData (ruleUpdate perm invert)) =
      emptiedBy keys (ruleUpdate perm invert) n := by
  rw [emptiedBy, emptiedBy, n.setData_setData (ruleUpdate_idem perm invert), AvtabNode.setData_key]

/-- The stores and the removal at the end of `add_rule_raw`. -/
def updateAvtabNode (i : ℕ) : PolicyM Bool := do
  modifyDb fun db => { db with teAvtab := db.teAvtab.modify i (·.setData (ruleUpdate perm invert)) }
  match (← readDb (·.teAvtab))[i]? with
  | some n => if isRedundantAvtabNode n then removeAvtabNode i else return true
  | none => return true

theorem updateAvtabNode_avtabStep {key : AvtabKey} (hkey : key ∈ keys) {m : PolicyMem} {i : ℕ}
    {n : AvtabNode} (hn : m.db.teAvtab[i]? = some n) (hmeets : key.meets n.key = true) :
    AvtabStep (emptiedBy keys (ruleUpdate perm invert)) m.db ((updateAvtabNode perm invert i).run m).2.db := by
  have hmodify := avtabStep_modify (E := emptiedBy keys (ruleUpdate perm invert))
    (emptiedBy_setData keys perm invert) m.db i
  have hget : ({ m with db := { m.db with
      teAvtab := m.db.teAvtab.modify i (·.setData (ruleUpdate perm invert)) } } : PolicyMem).db.teAvtab[i]? =
      some (n.setData (ruleUpdate perm invert)) := by
    rw [List.getElem?_modify_eq, hn]
    rfl
  simp only [updateAvtabNode, run_bind, run_modifyDb, run_readDb, hget]
  by_cases hredundant : isRedundantAvtabNode (n.setData (ruleUpdate perm invert)) = true
  · have hmark : emptiedBy keys (ruleUpdate perm invert) (n.setData (ruleUpdate perm invert)) = true := by
      rw [emptiedBy_setData, emptiedBy, hredundant, Bool.and_true, List.any_eq_true]
      exact ⟨key, hkey, hmeets⟩
    rw [if_pos hredundant]
    exact hmodify.trans (removeAvtabNode_avtabStep (emptiedBy_not_xperms keys perm invert) hget hmark)
  · rw [if_neg hredundant]
    exact hmodify

/-- The effects of the access-vector rules. -/
def IsAvEffect (effect : UInt16) : Prop :=
  effect = AVTAB_ALLOWED ∨ effect = AVTAB_AUDITALLOW ∨ effect = AVTAB_AUDITDENY

theorem IsAvEffect.bits {effect : UInt16} (he : IsAvEffect effect) :
    effect &&& ~~~AVTAB_ENABLED &&& effect ≠ 0 := by
  rcases he with rfl | rfl | rfl <;> decide

theorem ruleKey_meets_self {effect : UInt16} (hbits : effect &&& ~~~AVTAB_ENABLED &&& effect ≠ 0)
    (src tgt : TypeDatum) (cls : ClassDatum) :
    (ruleKey src tgt cls effect).meets (ruleKey src tgt cls effect) = true := by
  simp [AvtabKey.meets, ruleKey, hbits]

variable {effect : UInt16} (he : IsAvEffect effect)

theorem addRuleRawLeaf_eq (src tgt : TypeDatum) (cls : ClassDatum) :
    addRuleRawLeaf perm effect invert src tgt cls = (do
      let node ←
        if invert && decide (effect ≠ AVTAB_AUDITDENY) then
          match avtabSearchNode (← readDb (·.teAvtab)) (ruleKey src tgt cls effect) with
          | some i => pure (some i)
          | none => return true
        else getAvtabNode (ruleKey src tgt cls effect) noXperms
      match node with
      | none => return false
      | some i => updateAvtabNode perm invert i) := by
  cases perm <;> cases invert <;> rfl

include he in
theorem addRuleRawLeaf_avtabStep {src tgt : TypeDatum} {cls : ClassDatum}
    (hkey : ruleKey src tgt cls effect ∈ keys) (m : PolicyMem) :
    AvtabStep (emptiedBy keys (ruleUpdate perm invert)) m.db
      ((addRuleRawLeaf perm effect invert src tgt cls).run m).2.db := by
  rw [addRuleRawLeaf_eq]
  by_cases hsearch : (invert && decide (effect ≠ AVTAB_AUDITDENY)) = true
  · cases hfind : avtabSearchNode m.db.teAvtab (ruleKey src tgt cls effect) with
    | none =>
      simp only [hsearch, if_true, run_bind, run_readDb, hfind]
      exact .refl _ m.db
    | some i =>
      obtain ⟨hlt, hmeets, -⟩ := List.findIdx?_eq_some_iff_getElem.mp hfind
      simp only [hsearch, if_true, run_bind, run_readDb, hfind]
      exact updateAvtabNode_avtabStep keys perm invert hkey (List.getElem?_eq_getElem hlt) hmeets
  · obtain ⟨hget, hnode⟩ := getAvtabNode_avtabStep (emptiedBy_not_xperms keys perm invert)
      (ruleKey_meets_self he.bits src tgt cls) noXperms m
    simp only [hsearch, Bool.false_eq_true, if_false, run_bind]
    cases hnone : ((getAvtabNode (ruleKey src tgt cls effect) noXperms).run m).1 with
    | none => exact hget
    | some i =>
      obtain ⟨n, hn, hmeets⟩ := hnode i hnone
      simp only
      exact hget.trans (updateAvtabNode_avtabStep keys perm invert hkey hn hmeets)

end Rule

/-! ### Walks over the symbols -/

/-- The operation keeps the books in every state with the symbols of `db`. -/
def StepsFrom {α : Type} (E : AvtabNode → Bool) (db : Policydb) (x : PolicyM α) : Prop :=
  ∀ m, m.db.pTypes = db.pTypes → m.db.pClasses = db.pClasses → AvtabStep E m.db (x.run m).2.db

section Walks

variable {E : AvtabNode → Bool} {db : Policydb} {δ : Type}

theorem forAllDatums_stepsFrom {f : δ → PolicyM Bool} {ds : List δ} (hf : ∀ d ∈ ds, StepsFrom E db (f d)) :
    StepsFrom E db (forAllDatums f ds) := by
  induction ds with
  | nil => exact fun m _ _ => .refl E m.db
  | cons d ds ih =>
    intro m htypes hclasses
    have hstep := hf d List.mem_cons_self m htypes hclasses
    have hrest := ih (fun d' hd' => hf d' (List.mem_cons_of_mem d hd')) ((f d).run m).2
      (hstep.pTypes.trans htypes) (hstep.pClasses.trans hclasses)
    exact hstep.trans hrest

theorem forEachDatum_stepsFrom {f : δ → PolicyM Unit} {ds : List δ} (hf : ∀ d ∈ ds, StepsFrom E db (f d)) :
    StepsFrom E db (forEachDatum f ds) := by
  induction ds with
  | nil => exact fun m _ _ => .refl E m.db
  | cons d ds ih =>
    intro m htypes hclasses
    have hstep := hf d List.mem_cons_self m htypes hclasses
    have hrest := ih (fun d' hd' => hf d' (List.mem_cons_of_mem d hd')) ((f d).run m).2
      (hstep.pTypes.trans htypes) (hstep.pClasses.trans hclasses)
    exact hstep.trans hrest

end Walks

section AvRule

variable {effect : UInt16} (he : IsAvEffect effect) (keys : List AvtabKey) (perm : Option PermDatum)
  (invert : Bool) (db : Policydb)

include he

theorem addRuleRawCls_stepsFrom {cls : Option ClassDatum} {src tgt : TypeDatum}
    (hkeys : ∀ c ∈ targetClasses db cls, ruleKey src tgt c effect ∈ keys) :
    StepsFrom (emptiedBy keys (ruleUpdate perm invert)) db (addRuleRawCls cls perm effect invert src tgt) := by
  cases cls with
  | some c =>
    exact fun m _ _ => addRuleRawLeaf_avtabStep keys perm invert he (hkeys c List.mem_cons_self) m
  | none =>
    have hwalk : StepsFrom (emptiedBy keys (ruleUpdate perm invert)) db
        (forAllDatums (addRuleRawLeaf perm effect invert src tgt) db.pClasses.datums) :=
      forAllDatums_stepsFrom fun c hc m _ _ =>
        addRuleRawLeaf_avtabStep keys perm invert he (hkeys c hc) m
    intro m htypes hclasses
    have hdatums : m.db.pClasses.datums = db.pClasses.datums := by rw [hclasses]
    simp only [addRuleRawCls, run_bind, run_readDb, hdatums]
    exact hwalk m htypes hclasses

theorem addRuleRawTgt_stepsFrom {tgt : Option TypeDatum} {cls : Option ClassDatum} {src : TypeDatum}
    (hkeys : ∀ t ∈ avTypes (stripAv effect invert) db tgt, ∀ c ∈ targetClasses db cls,
      ruleKey src t c effect ∈ keys) :
    StepsFrom (emptiedBy keys (ruleUpdate perm invert)) db
      (addRuleRawTgt tgt cls perm effect invert src) := by
  cases tgt with
  | some t => exact addRuleRawCls_stepsFrom he keys perm invert db (hkeys t List.mem_cons_self)
  | none =>
    have hwalk := forAllDatums_stepsFrom fun t ht =>
      addRuleRawCls_stepsFrom he keys perm invert db (hkeys t ht)
    intro m htypes hclasses
    have htargets : wildcardTypes (stripAv effect invert) m.db = wildcardTypes (stripAv effect invert) db := by
      rw [wildcardTypes, wildcardTypes, htypes]
    simp only [addRuleRawTgt, run_bind, run_readDb, htargets]
    exact hwalk m htypes hclasses

theorem addRuleRaw_stepsFrom (src tgt : Option TypeDatum) (cls : Option ClassDatum) :
    StepsFrom (emptiedBy (avKeys db src tgt cls effect invert) (ruleUpdate perm invert)) db
      (addRuleRaw src tgt cls perm effect invert) := by
  have hkeys : ∀ s ∈ avTypes (stripAv effect invert) db src, ∀ t ∈ avTypes (stripAv effect invert) db tgt,
      ∀ c ∈ targetClasses db cls, ruleKey s t c effect ∈ avKeys db src tgt cls effect invert := by
    intro s hs t ht c hc
    exact List.mem_flatMap.mpr ⟨s, hs, List.mem_flatMap.mpr ⟨t, ht, List.mem_map_of_mem hc⟩⟩
  cases src with
  | some s => exact addRuleRawTgt_stepsFrom he _ perm invert db (hkeys s List.mem_cons_self)
  | none =>
    have hwalk := forAllDatums_stepsFrom fun s hs =>
      addRuleRawTgt_stepsFrom he (avKeys db none tgt cls effect invert) perm invert db (hkeys s hs)
    intro m htypes hclasses
    have hsources : wildcardTypes (stripAv effect invert) m.db = wildcardTypes (stripAv effect invert) db := by
      rw [wildcardTypes, wildcardTypes, htypes]
    simp only [addRuleRaw, run_bind, run_readDb, hsources]
    exact hwalk m htypes hclasses

end AvRule

/-! ### Extended-permission rules -/

section NoLoss

variable (low high : ℕ) {effect : UInt16} (hbits : effect &&& ~~~AVTAB_ENABLED &&& effect ≠ 0)

include hbits

theorem addXpermRuleRawLeaf_stepsFrom (src tgt : TypeDatum) (cls : ClassDatum) (db : Policydb) :
    StepsFrom (fun _ => false) db (addXpermRuleRawLeaf low high effect false src tgt cls) :=
  fun m _ _ => (getAvtabNode_avtabStep (fun _ h => absurd h Bool.false_ne_true)
    (ruleKey_meets_self hbits src tgt cls) (rangeXperms low high false) m).1

theorem addXpermRuleRawCls_stepsFrom (cls : Option ClassDatum) (src tgt : TypeDatum) (db : Policydb) :
    StepsFrom (fun _ => false) db (addXpermRuleRawCls cls low high effect false src tgt) := by
  cases cls with
  | some c => exact addXpermRuleRawLeaf_stepsFrom low high hbits src tgt c db
  | none =>
    intro m htypes hclasses
    exact forEachDatum_stepsFrom
      (fun c _ => addXpermRuleRawLeaf_stepsFrom low high hbits src tgt c db) m htypes hclasses

theorem addXpermRuleRawTgt_stepsFrom (tgt : Option TypeDatum) (cls : Option ClassDatum) (src : TypeDatum)
    (db : Policydb) :
    StepsFrom (fun _ => false) db (addXpermRuleRawTgt tgt cls low high effect false src) := by
  cases tgt with
  | some t => exact addXpermRuleRawCls_stepsFrom low high hbits cls src t db
  | none =>
    intro m htypes hclasses
    exact forEachDatum_stepsFrom
      (fun t _ => addXpermRuleRawCls_stepsFrom low high hbits cls src t db) m htypes hclasses

theorem addXpermRuleRaw_stepsFrom (src tgt : Option TypeDatum) (cls : Option ClassDatum) (db : Policydb) :
    StepsFrom (fun _ => false) db (addXpermRuleRaw src tgt cls low high effect false) := by
  cases src with
  | some s => exact addXpermRuleRawTgt_stepsFrom low high hbits tgt cls s db
  | none =>
    intro m htypes hclasses
    exact forEachDatum_stepsFrom
      (fun s _ => addXpermRuleRawTgt_stepsFrom low high hbits tgt cls s db) m htypes hclasses

end NoLoss

end KernelSU.Selinux
