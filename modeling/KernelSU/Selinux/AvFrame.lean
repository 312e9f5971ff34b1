import KernelSU.Selinux.AvRules
import KernelSU.Selinux.RulesShape

/-!
# What the other commands leave alone

Only `allow`, `deny`, `auditallow` and `dontaudit` are about access vectors.

* `getAvtabNode_keeps` — **PROVED**: an entry of another kind is added without touching an access vector;
* `PolicyOperation.keeps` — **PROVED**: every other operation of the policy keeps the access vectors, succeed or not;
* `applyOneSepolicyCmd_keeps` — **PROVED**: so does every command with another number.
-/

namespace KernelSU.Selinux

open KernelSU.Lib

/-! ### Operations that keep the access vectors -/

/-- What is left is a well-formed table with the access-vector entries there were. -/
structure AvKept (m m' : PolicyMem) : Prop where
  allocs : m.AllocsSucceed → m'.AllocsSucceed
  wellFormed : AvtabWellFormed m.db → AvtabWellFormed m'.db
  entries : AvtabWellFormed m.db → ∀ key, IsAvEffect key.specified →
    entries m'.db.teAvtab key = entries m.db.teAvtab key

namespace AvKept

theorem refl (m : PolicyMem) : AvKept m m := ⟨id, id, fun _ _ _ => rfl⟩

theorem trans {m m₁ m₂ : PolicyMem} (h : AvKept m m₁) (h' : AvKept m₁ m₂) : AvKept m m₂ where
  allocs hm := h'.allocs (h.allocs hm)
  wellFormed hwf := h'.wellFormed (h.wellFormed hwf)
  entries hwf key he := (h'.entries (h.wellFormed hwf) key he).trans (h.entries hwf key he)

/-- The same table. -/
theorem of_table {m m' : PolicyMem} (hallocs : m.AllocsSucceed → m'.AllocsSucceed)
    (htable : m'.db.teAvtab = m.db.teAvtab) (hnel : m'.db.teAvtabNel = m.db.teAvtabNel) : AvKept m m' where
  allocs := hallocs
  wellFormed hwf := by
    refine ⟨?_, ?_, ?_⟩
    · rw [htable]
      exact hwf.kinds
    · rw [htable]
      exact hwf.unique
    · rw [htable, hnel]
      exact hwf.nel
  entries _ key _ := by rw [htable]

end AvKept

/-- The operation keeps the access vectors, whatever it returns. -/
def KeepsAv {α : Type} (x : PolicyM α) : Prop := ∀ m, AvKept m (x.run m).2

theorem keepsAv_pure {α : Type} (a : α) : KeepsAv (pure a : PolicyM α) := fun m => .refl m

theorem keepsAv_readDb {α : Type} (f : Policydb → α) : KeepsAv (readDb f) := fun m => .refl m

theorem keepsAv_kalloc : KeepsAv kalloc := fun m =>
  .of_table (fun hm => (PolicyMem.request_of_succeed hm).2) (by rw [kalloc_run_db]) (by rw [kalloc_run_db])

theorem keepsAv_modifyDb {f : Policydb → Policydb} (htable : ∀ db, (f db).teAvtab = db.teAvtab)
    (hnel : ∀ db, (f db).teAvtabNel = db.teAvtabNel) : KeepsAv (modifyDb f) := fun m =>
  .of_table id (htable m.db) (hnel m.db)

theorem keepsAv_moveBlock (addr : ℕ) : KeepsAv (moveBlock addr) := fun _ => .of_table id rfl rfl

theorem keepsAv_takeUninit : KeepsAv takeUninit := by
  intro m
  refine .of_table ?_ (by rw [takeUninit_run_db]) (by rw [takeUninit_run_db])
  intro hm
  rcases m with ⟨db, allocs, _ | ⟨u, us⟩, freed, next⟩ <;> exact hm

section Sequences

variable {α β : Type}

theorem KeepsAv.bind {x : PolicyM α} {f : α → PolicyM β} (hx : KeepsAv x) (hf : ∀ a, KeepsAv (f a)) :
    KeepsAv (x >>= f) := fun m => (hx m).trans (hf _ _)

theorem KeepsAv.ite {p : Prop} [Decidable p] {x y : PolicyM α} (hx : KeepsAv x) (hy : KeepsAv y) :
    KeepsAv (if p then x else y) := by
  split
  · exact hx
  · exact hy

theorem KeepsAv.mapM {f : α → PolicyM β} (hf : ∀ a, KeepsAv (f a)) (l : List α) : KeepsAv (l.mapM f) := by
  induction l with
  | nil => exact keepsAv_pure []
  | cons a l ih =>
    rw [List.mapM_cons]
    exact (hf a).bind fun b => ih.bind fun bs => keepsAv_pure (b :: bs)

theorem KeepsAv.forEachDatum {f : α → PolicyM Unit} (hf : ∀ a, KeepsAv (f a)) (l : List α) :
    KeepsAv (forEachDatum f l) := by
  induction l with
  | nil => exact keepsAv_pure ()
  | cons a l ih => exact (hf a).bind fun _ => ih

end Sequences

/-! ### Entries of the other kinds -/

/-- The kinds that are no access vectors. -/
def otherKinds : List UInt16 :=
  [AVTAB_TRANSITION, AVTAB_MEMBER, AVTAB_CHANGE, AVTAB_XPERMS_ALLOWED, AVTAB_XPERMS_AUDITALLOW,
    AVTAB_XPERMS_DONTAUDIT]

/-- An entry that is not selected changes no selection. -/
theorem filter_insertIdx_of_false {p : AvtabNode → Bool} {n : AvtabNode} (hn : p n = false) (l : List AvtabNode)
    (i : ℕ) : (l.insertIdx i n).filter p = l.filter p := by
  induction l generalizing i with
  | nil =>
    cases i with
    | zero => rw [List.insertIdx_zero, List.filter_cons_of_neg (by simp [hn])]
    | succ i => rfl
  | cons a l ih =>
    cases i with
    | zero => rw [List.insertIdx_zero, List.filter_cons_of_neg (by simp [hn])]
    | succ i =>
      rw [List.insertIdx_succ_cons, List.filter_cons, List.filter_cons, ih]

/-- Storing into an entry that is not selected, and is not afterwards. -/
theorem filter_modify_of_false {p : AvtabNode → Bool} {f : AvtabNode → AvtabNode} {l : List AvtabNode} {i : ℕ}
    {n : AvtabNode} (hn : l[i]? = some n) (hold : p n = false) (hnew : p (f n) = false) :
    (l.modify i f).filter p = l.filter p := by
  induction l generalizing i with
  | nil => exact absurd hn (by simp)
  | cons a l ih =>
    cases i with
    | zero =>
      obtain rfl := Option.some.inj hn
      rw [List.modify_zero_cons, List.filter_cons_of_neg (by simp [hnew]), List.filter_cons_of_neg (by simp [hold])]
    | succ i =>
      rw [List.modify_succ_cons, List.filter_cons, List.filter_cons, ih hn]

section OtherKind

variable {key : AvtabKey} (hk : key.specified ∈ otherKinds)
include hk

theorem hasKind_of_otherKinds : key.HasKind := by
  have hall : (otherKinds.all fun k => decide (k &&& ~~~AVTAB_ENABLED ∈ avtabKinds)) = true := by decide
  have hmem : key.specified &&& ~~~AVTAB_ENABLED ∈ avtabKinds := of_decide_eq_true (List.all_eq_true.mp hall _ hk)
  exact hmem

theorem meets_self_of_otherKinds : key.meets key = true := by
  have hall : (otherKinds.all fun k => decide (k &&& ~~~AVTAB_ENABLED &&& k ≠ 0)) = true := by decide
  have hbits := of_decide_eq_true (List.all_eq_true.mp hall _ hk)
  simp [AvtabKey.meets, hbits]

/-- An entry that a key of another kind meets is no access vector. -/
theorem not_meets_of_otherKinds {n av : AvtabKey} (hn : n.HasKind) (hmeets : key.meets n = true)
    (he : IsAvEffect av.specified) : av.meets n = false := by
  refine Bool.eq_false_iff.mpr fun hav => ?_
  have hkind := ((AvtabKey.meets_iff_of_hasKind he hn).mp hav).2
  have hshared : key.specified &&& ~~~AVTAB_ENABLED &&& n.specified ≠ 0 := by
    simp only [AvtabKey.meets, Bool.and_eq_true, decide_eq_true_eq] at hmeets
    exact hmeets.2
  rw [UInt16.and_assoc, UInt16.and_comm (~~~AVTAB_ENABLED) n.specified, hkind] at hshared
  have hall : (otherKinds.all fun k => decide (k &&& AVTAB_ALLOWED = 0 ∧ k &&& AVTAB_AUDITALLOW = 0 ∧
      k &&& AVTAB_AUDITDENY = 0)) = true := by decide
  have hnone := of_decide_eq_true (List.all_eq_true.mp hall _ hk)
  rcases he with h | h | h
  · exact hshared (by rw [h]; exact hnone.1)
  · exact hshared (by rw [h]; exact hnone.2.1)
  · exact hshared (by rw [h]; exact hnone.2.2)

/-- The table with one more entry of the key. -/
theorem avKept_withFreshNode {m m' : PolicyMem} (x : AvtabExtendedPerms)
    (hallocs : m.AllocsSucceed → m'.AllocsSucceed) (hdb : m'.db = withFreshNode m.db key x) : AvKept m m' := by
  have hkeyed := freshNode_key key x
  obtain ⟨hperm, -⟩ := avtabInsertNonunique_perm m.db.teAvtab (freshNode key x)
  have hkinds : AvtabWellFormed m.db → ∀ n ∈ m'.db.teAvtab, n.key.HasKind := by
    intro hwf n hn
    rw [hdb] at hn
    rcases List.mem_cons.mp (hperm.mem_iff.mp hn) with rfl | hold
    · rw [hkeyed]
      exact hasKind_of_otherKinds hk
    · exact hwf.kinds n hold
  have hentries : ∀ av, IsAvEffect av.specified → entries m'.db.teAvtab av = entries m.db.teAvtab av := by
    intro av he
    have hnot : av.meets (freshNode key x).key = false := by
      rw [hkeyed]
      exact not_meets_of_otherKinds hk (hasKind_of_otherKinds hk) (meets_self_of_otherKinds hk) he
    show (m'.db.teAvtab.filter fun n => av.meets n.key) = _
    rw [hdb]
    show ((m.db.teAvtab.insertIdx _ (freshNode key x)).filter fun n => av.meets n.key) = _
    exact filter_insertIdx_of_false hnot _ _
  refine ⟨hallocs, fun hwf => ⟨hkinds hwf, fun av he => ?_, ?_⟩, fun _ => hentries⟩
  · rw [hentries av he]
    exact hwf.unique av he
  · rw [hdb]
    show m.db.teAvtabNel + 1 = (avtabInsertNonunique m.db.teAvtab (freshNode key x)).2.length
    rw [hperm.length_eq, List.length_cons, hwf.nel]

/-- **`get_avtab_node` of another kind.** -/
theorem getAvtabNode_keepsAv (x : AvtabExtendedPerms) : KeepsAv (getAvtabNode key x) := by
  have hinsert : KeepsAv (do
      let inserted := avtabInsertNonunique (← readDb (·.teAvtab)) (freshNode key x)
      let growSize := sizeofAvtabKey + sizeofAvtabDatum + (if key.isXperms then xpermsSize else 0)
      modifyDb fun db =>
        { db with teAvtab := inserted.2, teAvtabNel := db.teAvtabNel + 1, len := db.len + growSize }
      return some inserted.1) := fun m => avKept_withFreshNode hk x id rfl
  rw [getAvtabNode]
  refine (keepsAv_readDb _).bind fun nodes => ?_
  split
  · exact keepsAv_pure _
  · refine keepsAv_kalloc.bind fun b => ?_
    refine KeepsAv.ite (keepsAv_pure _) ?_
    refine KeepsAv.ite (keepsAv_kalloc.bind fun b => ?_) hinsert
    exact KeepsAv.ite (keepsAv_pure _) hinsert

/-- Storing into an entry that the key meets. -/
theorem avKept_setData {m : PolicyMem} {i : ℕ} {n : AvtabNode} (hn : m.db.teAvtab[i]? = some n)
    (hmeets : key.meets n.key = true) (f : BitVec 32 → BitVec 32) :
    AvKept m { m with db := { m.db with teAvtab := m.db.teAvtab.modify i (·.setData f) } } := by
  have hentries : AvtabWellFormed m.db → ∀ av, IsAvEffect av.specified →
      entries (m.db.teAvtab.modify i (·.setData f)) av = entries m.db.teAvtab av := by
    intro hwf av he
    have hkind := hwf.kinds n (List.mem_of_getElem? hn)
    exact filter_modify_of_false hn (not_meets_of_otherKinds hk hkind hmeets he)
      (by rw [AvtabNode.setData_key]; exact not_meets_of_otherKinds hk hkind hmeets he)
  refine ⟨id, fun hwf => ⟨fun n' hn' => ?_, fun av he => ?_, ?_⟩, hentries⟩
  · obtain ⟨j, hj⟩ := List.mem_iff_getElem?.mp hn'
    rw [List.getElem?_modify] at hj
    cases hold : m.db.teAvtab[j]? with
    | none => simp [hold] at hj
    | some old =>
      have hkey : n'.key = old.key := by
        rw [hold] at hj
        obtain rfl := Option.some.inj hj
        split
        · exact AvtabNode.setData_key old f
        · rfl
      rw [hkey]
      exact hwf.kinds old (List.mem_of_getElem? hold)
  · rw [hentries hwf av he]
    exact hwf.unique av he
  · show m.db.teAvtabNel = (m.db.teAvtab.modify i (·.setData f)).length
    rw [List.length_modify, hwf.nel]

end OtherKind

/-! ### The operations -/

theorem addTypeRule_keepsAv (s t c d : Name) {effect : UInt16} (he : effect ∈ otherKinds) :
    KeepsAv (addTypeRule s t c d effect) := by
  rw [addTypeRule]
  refine (keepsAv_readDb _).bind fun types => ?_
  split
  · exact keepsAv_pure _
  · next src _ =>
    refine (keepsAv_readDb _).bind fun types => ?_
    split
    · exact keepsAv_pure _
    · next tgt _ =>
      refine (keepsAv_readDb _).bind fun classes => ?_
      split
      · exact keepsAv_pure _
      · next cls _ =>
        refine (keepsAv_readDb _).bind fun types => ?_
        split
        · exact keepsAv_pure _
        · next dflt _ =>
          have hk : (ruleKey src tgt cls effect).specified ∈ otherKinds := he
          intro m
          have hgot := getAvtabNode_keepsAv hk noXperms m
          have hnode := (getAvtabNode_avtabStep (E := fun _ => false) (fun _ h => absurd h Bool.false_ne_true)
            (meets_self_of_otherKinds hk) noXperms m).2
          rw [run_bind]
          refine hgot.trans ?_
          cases hfound : ((getAvtabNode (ruleKey src tgt cls effect) noXperms).run m).1 with
          | none => exact AvKept.refl _
          | some i =>
            obtain ⟨n, hn, hmeets⟩ := hnode i hfound
            exact avKept_setData hk hn hmeets _

section Xperm

variable (low high : ℕ) {effect : UInt16} (he : effect ∈ otherKinds)
include he

theorem addXpermRuleRawLeaf_keepsAv (invert : Bool) (src tgt : TypeDatum) (cls : ClassDatum) :
    KeepsAv (addXpermRuleRawLeaf low high effect invert src tgt cls) := by
  have hk : (ruleKey src tgt cls effect).specified ∈ otherKinds := he
  exact (getAvtabNode_keepsAv hk _).bind fun _ => keepsAv_pure ()

theorem addXpermRuleRawCls_keepsAv (cls : Option ClassDatum) (invert : Bool) (src tgt : TypeDatum) :
    KeepsAv (addXpermRuleRawCls cls low high effect invert src tgt) := by
  cases cls with
  | some c => exact addXpermRuleRawLeaf_keepsAv low high he invert src tgt c
  | none =>
    refine (keepsAv_readDb _).bind fun classes => ?_
    exact KeepsAv.forEachDatum (fun c => addXpermRuleRawLeaf_keepsAv low high he invert src tgt c) _

theorem addXpermRuleRawTgt_keepsAv (tgt : Option TypeDatum) (cls : Option ClassDatum) (invert : Bool)
    (src : TypeDatum) : KeepsAv (addXpermRuleRawTgt tgt cls low high effect invert src) := by
  cases tgt with
  | some t => exact addXpermRuleRawCls_keepsAv low high he cls invert src t
  | none =>
    refine (keepsAv_readDb _).bind fun types => ?_
    exact KeepsAv.forEachDatum (fun t => addXpermRuleRawCls_keepsAv low high he cls invert src t) _

theorem addXpermRuleRaw_keepsAv (src tgt : Option TypeDatum) (cls : Option ClassDatum) (invert : Bool) :
    KeepsAv (addXpermRuleRaw src tgt cls low high effect invert) := by
  cases src with
  | some s => exact addXpermRuleRawTgt_keepsAv low high he tgt cls invert s
  | none =>
    refine (keepsAv_readDb _).bind fun types => ?_
    exact KeepsAv.forEachDatum (fun s => addXpermRuleRawTgt_keepsAv low high he tgt cls invert s) _

end Xperm

theorem addXpermRule_keepsAv (s t c range : Option Name) (invert : Bool) {effect : UInt16}
    (he : effect ∈ otherKinds) : KeepsAv (addXpermRule s t c range effect invert) := by
  rw [addXpermRule]
  refine (keepsAv_readDb _).bind fun types => ?_
  split
  · exact keepsAv_pure _
  · refine (keepsAv_readDb _).bind fun types => ?_
    split
    · exact keepsAv_pure _
    · refine (keepsAv_readDb _).bind fun classes => ?_
      split
      · exact keepsAv_pure _
      · refine keepsAv_takeUninit.bind fun uninit => ?_
        exact (addXpermRuleRaw_keepsAv _ _ he _ _ _ invert).bind fun _ => keepsAv_pure true

/-! ### Operations outside the table -/

theorem keepsAv_ebitmapSetBit (e : Ebitmap) (bit : ℕ) (value : Bool) : KeepsAv (ebitmapSetBit e bit value) := by
  rw [ebitmapSetBit]
  refine KeepsAv.ite (KeepsAv.ite (keepsAv_pure _) ?_) (keepsAv_pure _)
  exact keepsAv_kalloc.bind fun b => KeepsAv.ite (keepsAv_pure _) (keepsAv_pure _)

theorem keepsAv_ebitmapSetBitIgnore (e : Ebitmap) (bit : ℕ) : KeepsAv (ebitmapSetBitIgnore e bit) :=
  (keepsAv_ebitmapSetBit e bit true).bind fun _ => keepsAv_pure _

theorem setChain_keepsAv (key : FilenameTransKey) (chain : List FilenameTransDatum) : KeepsAv (setChain key chain) :=
  keepsAv_modifyDb (fun _ => rfl) fun _ => rfl

theorem addSource_keepsAv (key : FilenameTransKey) (chain : List FilenameTransDatum) (i bit : ℕ) :
    KeepsAv (addSource key chain i bit) := by
  rw [addSource]
  refine KeepsAv.bind (keepsAv_modifyDb (fun _ => rfl) fun _ => rfl) fun _ => ?_
  split
  · exact keepsAv_pure _
  · refine (keepsAv_ebitmapSetBit _ _ _).bind fun stypes => ?_
    split
    · exact keepsAv_pure _
    · exact (setChain_keepsAv _ _).bind fun _ => keepsAv_pure true

theorem filenameTransInsert_keepsAv (key : FilenameTransKey) (chain : List FilenameTransDatum) :
    KeepsAv (filenameTransInsert key chain) := by
  rw [filenameTransInsert]
  refine (keepsAv_readDb _).bind fun table => KeepsAv.ite (keepsAv_pure _) ?_
  refine keepsAv_kalloc.bind fun b => KeepsAv.ite (keepsAv_pure _) ?_
  exact KeepsAv.bind (keepsAv_modifyDb (fun _ => rfl) fun _ => rfl) fun _ => keepsAv_pure true

theorem addFilenameTrans_keepsAv (s t c d o : Name) : KeepsAv (addFilenameTrans s t c d o) := by
  rw [addFilenameTrans]
  refine (keepsAv_readDb _).bind fun types => ?_
  split
  · exact keepsAv_pure _
  · refine (keepsAv_readDb _).bind fun types => ?_
    split
    · exact keepsAv_pure _
    · refine (keepsAv_readDb _).bind fun classes => ?_
      split
      · exact keepsAv_pure _
      · refine (keepsAv_readDb _).bind fun types => ?_
        split
        · exact keepsAv_pure _
        · refine (keepsAv_readDb _).bind fun table => ?_
          dsimp only
          split
          · exact (setChain_keepsAv _ _).bind fun _ => keepsAv_pure true
          · exact addSource_keepsAv _ _ _ _
          · -- the key, the datum and the node of the table
            refine keepsAv_kalloc.bind fun b => KeepsAv.ite (keepsAv_pure _) ?_
            refine keepsAv_kalloc.bind fun b => KeepsAv.ite (keepsAv_pure _) ?_
            refine keepsAv_kalloc.bind fun b => KeepsAv.ite (keepsAv_pure _) ?_
            refine (filenameTransInsert_keepsAv _ _).bind fun inserted => ?_
            exact KeepsAv.ite (addSource_keepsAv _ _ _ _) (keepsAv_pure _)

theorem ksuKvrealloc_keepsAv {α : Type} (a : KArray α) (newSize oldSize : ℕ) :
    KeepsAv (ksuKvrealloc a newSize oldSize) := by
  rw [ksuKvrealloc]
  refine keepsAv_kalloc.bind fun b => KeepsAv.ite ?_ (keepsAv_pure _)
  exact (keepsAv_moveBlock _).bind fun _ => keepsAv_pure _

theorem typesInsert_keepsAv (key : Name) (type : TypeDatum) : KeepsAv (typesInsert key type) := by
  rw [typesInsert]
  refine (keepsAv_readDb _).bind fun table => KeepsAv.ite (keepsAv_pure _) ?_
  refine keepsAv_kalloc.bind fun b => KeepsAv.ite (keepsAv_pure _) ?_
  exact KeepsAv.bind (keepsAv_modifyDb (fun _ => rfl) fun _ => rfl) fun _ => keepsAv_pure true

theorem addType_keepsAv (name : Name) (attr : Bool) : KeepsAv (addType name attr) := by
  rw [addType]
  refine (keepsAv_readDb _).bind fun types => ?_
  split
  · exact keepsAv_pure _
  refine (keepsAv_readDb _).bind fun nprim => ?_
  refine KeepsAv.bind (keepsAv_modifyDb (fun _ => rfl) fun _ => rfl) fun _ => ?_
  refine keepsAv_kalloc.bind fun b => KeepsAv.ite (keepsAv_pure _) ?_
  refine keepsAv_kalloc.bind fun b => KeepsAv.ite (keepsAv_pure _) ?_
  refine (typesInsert_keepsAv _ _).bind fun inserted => KeepsAv.ite (keepsAv_pure _) ?_
  refine (keepsAv_readDb _).bind fun array => (ksuKvrealloc_keepsAv _ _ _).bind fun grown => ?_
  split
  · exact keepsAv_pure _
  refine (keepsAv_readDb _).bind fun array => (ksuKvrealloc_keepsAv _ _ _).bind fun grown => ?_
  split
  · exact keepsAv_pure _
  refine (keepsAv_readDb _).bind fun array => (ksuKvrealloc_keepsAv _ _ _).bind fun grown => ?_
  split
  · exact keepsAv_pure _
  refine (keepsAv_ebitmapSetBitIgnore _ _).bind fun own => ?_
  refine KeepsAv.bind (keepsAv_modifyDb (fun _ => rfl) fun _ => rfl) fun _ => ?_
  refine (keepsAv_readDb _).bind fun roles => ?_
  refine (KeepsAv.mapM (fun r => (keepsAv_ebitmapSetBitIgnore _ _).bind fun _ => keepsAv_pure _) _).bind fun roles => ?_
  exact KeepsAv.bind (keepsAv_modifyDb (fun _ => rfl) fun _ => rfl) fun _ => keepsAv_pure true

theorem setPermissiveBit_keepsAv (value : UInt32) (permissive : Bool) :
    KeepsAv (setPermissiveBit value permissive) := by
  rw [setPermissiveBit]
  refine (keepsAv_readDb _).bind fun map => (keepsAv_ebitmapSetBit _ _ _).bind fun map => ?_
  split
  · exact keepsAv_pure _
  · exact KeepsAv.bind (keepsAv_modifyDb (fun _ => rfl) fun _ => rfl) fun _ => keepsAv_pure true

theorem setTypeState_keepsAv (typeName : Option Name) (permissive : Bool) :
    KeepsAv (setTypeState typeName permissive) := by
  cases typeName with
  | none =>
    refine KeepsAv.bind (keepsAv_readDb _) fun types => ?_
    refine (KeepsAv.forEachDatum (fun t => ?_) _).bind fun _ => keepsAv_pure true
    exact (setPermissiveBit_keepsAv _ _).bind fun _ => keepsAv_pure ()
  | some name =>
    refine KeepsAv.bind (keepsAv_readDb _) fun types => ?_
    split
    · exact keepsAv_pure _
    · exact setPermissiveBit_keepsAv _ _

theorem constrainedClasses_keepsAv (type attr : TypeDatum) (e : Σ _ : Name, ClassDatum) :
    KeepsAv (constrainedClasses type attr e) := by
  refine KeepsAv.bind (KeepsAv.mapM (fun n => ?_) _) fun _ => keepsAv_pure _
  refine KeepsAv.bind (KeepsAv.mapM (fun x => ?_) _) fun _ => keepsAv_pure _
  rw [constraintExprAdd]
  exact KeepsAv.ite ((keepsAv_ebitmapSetBitIgnore _ _).bind fun _ => keepsAv_pure _) (keepsAv_pure _)

theorem addTypeattributeRaw_keepsAv (type attr : TypeDatum) : KeepsAv (addTypeattributeRaw type attr) := by
  have hclasses : KeepsAv (do
      let classes ← (← readDb (·.pClasses.table.entries)).mapM (constrainedClasses type attr)
      modifyDb fun db => { db with
        pClasses := { db.pClasses with table := classes.foldl (fun t e => t.replace e.1 e.2) db.pClasses.table } }) := by
    refine (keepsAv_readDb _).bind fun entries => ?_
    refine (KeepsAv.mapM (constrainedClasses_keepsAv type attr) _).bind fun classes => ?_
    exact keepsAv_modifyDb (fun _ => rfl) fun _ => rfl
  rw [addTypeattributeRaw]
  refine (keepsAv_readDb _).bind fun cells => ?_
  split
  · refine (keepsAv_ebitmapSetBitIgnore _ _).bind fun sattr => ?_
    exact KeepsAv.bind (keepsAv_modifyDb (fun _ => rfl) fun _ => rfl) fun _ => hclasses
  · exact keepsAv_pure _

theorem addTypeattribute_keepsAv (type attr : Name) : KeepsAv (addTypeattribute type attr) := by
  rw [addTypeattribute]
  refine (keepsAv_readDb _).bind fun types => ?_
  split
  · exact keepsAv_pure _
  · refine KeepsAv.ite (keepsAv_pure _) ((keepsAv_readDb _).bind fun types => ?_)
    split
    · exact keepsAv_pure _
    · refine KeepsAv.ite (keepsAv_pure _) ?_
      exact (addTypeattributeRaw_keepsAv _ _).bind fun _ => keepsAv_pure true

/-! ### Commands -/

theorem keepsAv_withNotAll {value : Option Name} {rest : Name → PolicyM ℤ} (h : ∀ v, KeepsAv (rest v)) :
    KeepsAv (withNotAll value rest) := by
  cases value with
  | none => exact keepsAv_pure _
  | some v => exact h v

/-- What a command answers for an operation. -/
theorem KeepsAv.answer {op : PolicyM Bool} (h : KeepsAv op) : KeepsAv (do return successRet (← op)) :=
  h.bind fun _ => keepsAv_pure _

/-- **Every command but the access-vector rules** keeps the access vectors. -/
theorem applyOneSepolicyCmd_keepsAv {header : SepolData} (hcmd : header.cmd ≠ KSU_SEPOLICY_CMD_NORMAL_PERM)
    (args : List (Option Name)) : KeepsAv (applyOneSepolicyCmd header args) := by
  have hxperm : ∀ effect ∈ [AVTAB_XPERMS_ALLOWED, AVTAB_XPERMS_AUDITALLOW, AVTAB_XPERMS_DONTAUDIT],
      effect ∈ otherKinds := by simp [otherKinds]
  have htype : ∀ effect ∈ [AVTAB_TRANSITION, AVTAB_CHANGE, AVTAB_MEMBER], effect ∈ otherKinds := by
    simp [otherKinds]
  simp only [applyOneSepolicyCmd, if_neg hcmd]
  split
  · refine keepsAv_withNotAll fun operation => keepsAv_withNotAll fun permSet => ?_
    refine KeepsAv.ite (KeepsAv.answer ?_) (KeepsAv.ite (KeepsAv.answer ?_) (KeepsAv.ite (KeepsAv.answer ?_)
      (keepsAv_pure _)))
    · exact addXpermRule_keepsAv _ _ _ _ _ (hxperm _ (by simp))
    · exact addXpermRule_keepsAv _ _ _ _ _ (hxperm _ (by simp))
    · exact addXpermRule_keepsAv _ _ _ _ _ (hxperm _ (by simp))
  split
  · refine keepsAv_withNotAll fun type => ?_
    refine KeepsAv.ite (KeepsAv.answer ?_) (KeepsAv.ite (KeepsAv.answer ?_) (keepsAv_pure _))
    · exact setTypeState_keepsAv _ _
    · exact setTypeState_keepsAv _ _
  split
  · refine keepsAv_withNotAll fun type => keepsAv_withNotAll fun attr => ?_
    refine KeepsAv.ite (KeepsAv.answer ?_) (KeepsAv.answer (addTypeattribute_keepsAv _ _))
    exact (addType_keepsAv _ _).bind fun b => KeepsAv.ite (addTypeattribute_keepsAv _ _) (keepsAv_pure _)
  split
  · exact keepsAv_withNotAll fun attr => KeepsAv.answer (addType_keepsAv _ _)
  split
  · refine keepsAv_withNotAll fun src => keepsAv_withNotAll fun tgt => keepsAv_withNotAll fun cls =>
      keepsAv_withNotAll fun defaultType => KeepsAv.answer ?_
    cases argAt args 4 with
    | none => exact addTypeRule_keepsAv _ _ _ _ (htype _ (by simp))
    | some o => exact addFilenameTrans_keepsAv _ _ _ _ _
  split
  · refine keepsAv_withNotAll fun src => keepsAv_withNotAll fun tgt => keepsAv_withNotAll fun cls =>
      keepsAv_withNotAll fun defaultType => ?_
    refine KeepsAv.ite (KeepsAv.answer ?_) (KeepsAv.ite (KeepsAv.answer ?_) (keepsAv_pure _))
    · exact addTypeRule_keepsAv _ _ _ _ (htype _ (by simp))
    · exact addTypeRule_keepsAv _ _ _ _ (htype _ (by simp))
  split
  · refine keepsAv_withNotAll fun name => keepsAv_withNotAll fun path => keepsAv_withNotAll fun context => ?_
    exact KeepsAv.answer (keepsAv_pure false)
  · exact keepsAv_pure _

end KernelSU.Selinux
