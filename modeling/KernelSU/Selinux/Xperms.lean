import KernelSU.Selinux.Sepolicy

/-!
# Extended-permission rules: when they accumulate

`allowxperm`, `auditallowxperm` and `dontauditxperm` name a range of ioctl numbers.  A range inside one
driver byte becomes an `IOCTLFUNCTION` node of that driver, a range that crosses drivers an
`IOCTLDRIVER` node, and a node covers an ioctl number by its bit in the 256-bit map (`covered`).

`add_xperm_rule_raw` asks `get_avtab_node` for the node of its key, kind and driver.  When there is
none, the new node carries the range.  When there is one, nothing is done to it: its map is filled only
if it is missing, which it never is.  So

* one call leaves the table as it was or adds one node (`withNode`), and nothing that was covered is
  lost (`covered_foldl_withNode`);
* the range is covered afterwards exactly when no targeted key has a node of that kind and driver, or
  the key covers the range already (`accumulates_iff`);
* over a run of rules the accumulation holds step by step exactly when every rule meets that condition
  in the state it finds (`runXperms_accumulates_iff`).
-/

namespace KernelSU.Selinux

/-! ### Coverage -/

/-- Whether extended permissions cover an ioctl number. -/
def AvtabExtendedPerms.covers (x : AvtabExtendedPerms) (n : ℕ) : Bool :=
  (x.specified == AVTAB_XPERMS_IOCTLFUNCTION && x.driver.toNat == ioctlDriver n &&
      xpermTest (ioctlFunc n) x.perms) ||
    (x.specified == AVTAB_XPERMS_IOCTLDRIVER && xpermTest (ioctlDriver n) x.perms)

/-- Whether a node covers an ioctl number. -/
def AvtabNode.covers (node : AvtabNode) (n : ℕ) : Bool :=
  match node.datum with
  | .xperms x => x.covers n
  | .data _ => false

/-- Whether some node of the key covers an ioctl number. -/
def covered (nodes : List AvtabNode) (key : AvtabKey) (n : ℕ) : Bool :=
  nodes.any fun node => key.meets node.key && node.covers n

/-- Whether the table has the node `get_avtab_node` looks for. -/
def hasNode (x : AvtabExtendedPerms) (nodes : List AvtabNode) (key : AvtabKey) : Bool :=
  nodes.any (isAvtabNode key x)

/-- The table after `get_avtab_node`. -/
def withNode (x : AvtabExtendedPerms) (nodes : List AvtabNode) (key : AvtabKey) : List AvtabNode :=
  if hasNode x nodes key then nodes else (avtabInsertNonunique nodes (freshNode key x)).2

/-! ### The map of a range -/

theorem xpermTest_loop {lo hi : ℕ} (hhi : hi < 256) (p : Fin 8 → BitVec 32) (y : ℕ) :
    xpermTest y (xpermLoop xpermSet lo hi p) = (decide (lo ≤ y ∧ y ≤ hi) || xpermTest y p) := by
  have key : ∀ (len lo : ℕ) (p : Fin 8 → BitVec 32), lo + len ≤ 256 →
      xpermTest y ((List.range' lo len).foldl (fun p i => xpermSet i p) p) =
        (decide (lo ≤ y ∧ y < lo + len) || xpermTest y p) := by
    intro len
    induction len with
    | zero =>
      intro lo p _
      have hnot : ¬ (lo ≤ y ∧ y < lo + 0) := by omega
      rw [List.range'_zero, List.foldl_nil, decide_eq_false hnot, Bool.false_or]
    | succ len ih =>
      intro lo p hle
      rw [List.range'_succ, List.foldl_cons, ih (lo + 1) _ (by omega),
        xpermTest_xpermSet (by omega : lo < 256), ← Bool.or_assoc, ← Bool.decide_or]
      congr 1
      rw [decide_eq_decide]
      omega
  rw [xpermLoop]
  by_cases hle : lo ≤ hi + 1
  · rw [key (hi + 1 - lo) lo p (by omega)]
    congr 1
    rw [decide_eq_decide]
    omega
  · have hzero : hi + 1 - lo = 0 := by omega
    have hnot : ¬ (lo ≤ y ∧ y ≤ hi) := by omega
    rw [hzero, List.range'_zero, List.foldl_nil, decide_eq_false hnot, Bool.false_or]

theorem ioctlDriver_eq (n : ℕ) : ioctlDriver n = n / 256 % 256 := by
  rw [ioctlDriver, Nat.shiftRight_eq_div_pow]
  exact Nat.and_two_pow_sub_one_eq_mod (n / 256) 8

theorem ioctlFunc_eq (n : ℕ) : ioctlFunc n = n % 256 :=
  Nat.and_two_pow_sub_one_eq_mod n 8

/-- **A range covers its numbers.** -/
theorem rangeXperms_covers {low high n : ℕ} (hhigh : high < 2 ^ 16) (hlow : low ≤ n)
    (hn : n ≤ high) : (rangeXperms low high false).covers n = true := by
  rw [rangeXperms]
  by_cases hdriver : ioctlDriver low = ioctlDriver high
  · have hn' : ioctlDriver n = ioctlDriver low := by
      rw [ioctlDriver_eq, ioctlDriver_eq] at *
      omega
    have hbyte : (UInt8.ofNat (ioctlDriver low)).toNat = ioctlDriver n := by
      rw [hn', ioctlDriver_eq, UInt8.toNat_ofNat', Nat.mod_mod]
    have hfunc : ioctlFunc high < 256 := by
      rw [ioctlFunc_eq]
      omega
    have hin : ioctlFunc low ≤ ioctlFunc n ∧ ioctlFunc n ≤ ioctlFunc high := by
      rw [ioctlFunc_eq, ioctlFunc_eq, ioctlFunc_eq]
      rw [ioctlDriver_eq, ioctlDriver_eq] at hdriver
      omega
    simp only [hdriver, ne_eq, not_true_eq_false, if_false, Bool.false_eq_true]
    rw [hdriver] at hbyte
    simp [AvtabExtendedPerms.covers, hbyte, xpermTest_loop hfunc, hin]
  · have hfunc : ioctlDriver high < 256 := by
      rw [ioctlDriver_eq]
      omega
    have hin : ioctlDriver low ≤ ioctlDriver n ∧ ioctlDriver n ≤ ioctlDriver high := by
      rw [ioctlDriver_eq, ioctlDriver_eq, ioctlDriver_eq]
      omega
    simp [AvtabExtendedPerms.covers, hdriver, xpermTest_loop hfunc, hin]

/-! ### One key -/

/-- The effects of the three extended-permission rules. -/
def IsXpermEffect (effect : UInt16) : Prop :=
  effect = AVTAB_XPERMS_ALLOWED ∨ effect = AVTAB_XPERMS_AUDITALLOW ∨
    effect = AVTAB_XPERMS_DONTAUDIT

/-- Two keys of one kind meet exactly when they are equal. -/
theorem AvtabKey.meets_iff_eq {key key' : AvtabKey} {effect : UInt16} (he : IsXpermEffect effect)
    (hkey : key.specified = effect) (hkey' : key'.specified = effect) : key.meets key' = true ↔ key = key' := by
  obtain ⟨s, t, c, e⟩ := key
  obtain ⟨s', t', c', e'⟩ := key'
  have hs : e = effect := hkey
  have hs' : e' = effect := hkey'
  have hbits : effect &&& ~~~AVTAB_ENABLED &&& effect ≠ 0 := by
    rcases he with rfl | rfl | rfl <;> decide
  simp [AvtabKey.meets, hs, hs', hbits, and_assoc]

theorem AvtabKey.isXperms_of_specified {key : AvtabKey} {effect : UInt16} (he : IsXpermEffect effect)
    (hkey : key.specified = effect) : key.isXperms = true := by
  have hs : key.specified = effect := hkey
  rw [AvtabKey.isXperms, hs]
  rcases he with rfl | rfl | rfl <;> decide

theorem mem_avtabInsertNonunique {nodes : List AvtabNode} {n node : AvtabNode} :
    node ∈ (avtabInsertNonunique nodes n).2 ↔ node = n ∨ node ∈ nodes := by
  refine List.mem_insertIdx ?_
  cases h : avtabSearchNode nodes n.key with
  | none => exact le_rfl
  | some i => exact (List.findIdx?_eq_some_iff_getElem.mp h).1.le

/-- `any` over the table with one more node. -/
theorem any_avtabInsertNonunique (p : AvtabNode → Bool) (nodes : List AvtabNode) (n : AvtabNode) :
    (avtabInsertNonunique nodes n).2.any p = (nodes.any p || p n) := by
  rw [Bool.eq_iff_iff, Bool.or_eq_true, List.any_eq_true, List.any_eq_true]
  simp only [mem_avtabInsertNonunique]
  constructor
  · rintro ⟨node, rfl | hmem, hp⟩
    · exact Or.inr hp
    · exact Or.inl ⟨node, hmem, hp⟩
  · rintro (⟨node, hmem, hp⟩ | hp)
    · exact ⟨node, Or.inr hmem, hp⟩
    · exact ⟨n, Or.inl rfl, hp⟩

section OneKey

variable {effect : UInt16} {key key' : AvtabKey} {x : AvtabExtendedPerms}

theorem freshNode_of_isXperms (hx : key.isXperms = true) :
    freshNode key x = ⟨key, .xperms x, hx.symm⟩ := by
  rw [freshNode, dif_pos hx]

theorem freshNode_covers (hx : key'.isXperms = true) (n : ℕ) :
    (key.meets (freshNode key' x).key && (freshNode key' x).covers n) =
      (key.meets key' && x.covers n) := by
  rw [freshNode_of_isXperms hx]
  rfl

theorem isAvtabNode_freshNode (hx : key'.isXperms = true) :
    isAvtabNode key x (freshNode key' x) = key.meets key' := by
  rw [freshNode_of_isXperms hx]
  simp [isAvtabNode]

/-- **What one key covers after the call:** what it covered, and the new permissions where the call
made a node. -/
theorem covered_withNode (hx : key'.isXperms = true) (nodes : List AvtabNode) (n : ℕ) :
    covered (withNode x nodes key') key n =
      (covered nodes key n || (key.meets key' && !hasNode x nodes key' && x.covers n)) := by
  rw [withNode]
  cases hhas : hasNode x nodes key' with
  | true => simp
  | false =>
    rw [if_neg Bool.false_ne_true, covered, any_avtabInsertNonunique, freshNode_covers hx]
    simp [covered]

theorem hasNode_withNode (hx : key'.isXperms = true) (nodes : List AvtabNode) :
    hasNode x (withNode x nodes key') key =
      (hasNode x nodes key || (key.meets key' && !hasNode x nodes key')) := by
  rw [withNode]
  cases hhas : hasNode x nodes key' with
  | true => simp
  | false =>
    rw [if_neg Bool.false_ne_true, hasNode, any_avtabInsertNonunique, isAvtabNode_freshNode hx]
    simp [hasNode]

end OneKey

/-! ### All keys of a rule -/

/-- **What a key covers after a rule:** what it covered, and the rule's permissions where one of the
rule's keys had no node of their kind and driver. -/
theorem covered_foldl_withNode {effect : UInt16} (he : IsXpermEffect effect)
    (x : AvtabExtendedPerms) {keys : List AvtabKey} (hkeys : ∀ k ∈ keys, k.specified = effect)
    (nodes : List AvtabNode) (key : AvtabKey) (n : ℕ) :
    covered (keys.foldl (withNode x) nodes) key n = true ↔
      covered nodes key n = true ∨
        (∃ k ∈ keys, key.meets k = true ∧ hasNode x nodes k = false) ∧ x.covers n = true := by
  induction keys generalizing nodes with
  | nil => simp
  | cons k₀ ks ih =>
    have hk₀ : k₀.specified = effect := hkeys k₀ List.mem_cons_self
    have hks : ∀ k ∈ ks, k.specified = effect := fun k hk => hkeys k (List.mem_cons_of_mem k₀ hk)
    have hx₀ := AvtabKey.isXperms_of_specified he hk₀
    rw [List.foldl_cons, ih hks, covered_withNode hx₀]
    simp only [hasNode_withNode hx₀, Bool.or_eq_true, Bool.and_eq_true, Bool.not_eq_true',
      Bool.or_eq_false_iff]
    constructor
    · rintro ((hold | ⟨⟨hmeet, hno⟩, hcov⟩) | ⟨⟨k, hk, hmeet, hno, -⟩, hcov⟩)
      · exact Or.inl hold
      · exact Or.inr ⟨⟨k₀, List.mem_cons_self, hmeet, hno⟩, hcov⟩
      · exact Or.inr ⟨⟨k, List.mem_cons_of_mem k₀ hk, hmeet, hno⟩, hcov⟩
    · rintro (hold | ⟨⟨k, hk, hmeet, hno⟩, hcov⟩)
      · exact Or.inl (Or.inl hold)
      · rcases List.mem_cons.mp hk with rfl | hk
        · exact Or.inl (Or.inr ⟨⟨hmeet, hno⟩, hcov⟩)
        · -- an equal key at the head took the node already
          by_cases heq : k = k₀
          · exact Or.inl (Or.inr ⟨⟨heq ▸ hmeet, heq ▸ hno⟩, hcov⟩)
          · have hne : k.meets k₀ = false :=
              Bool.eq_false_iff.mpr fun h =>
                heq ((AvtabKey.meets_iff_eq he (hks k hk) hk₀).mp h)
            refine Or.inr ⟨⟨k, hk, hmeet, hno, ?_⟩, hcov⟩
            rw [hne, Bool.false_and]

/-! ### The rule operations -/

/-- What a rule call leaves: allocations still succeed, the symbols are as before, and every key of
the call has been through `withNode`. -/
structure XpermStep (x : AvtabExtendedPerms) (m m' : PolicyMem) (keys : List AvtabKey) : Prop where
  allocs : m'.AllocsSucceed
  types : m'.db.pTypes = m.db.pTypes
  classes : m'.db.pClasses = m.db.pClasses
  table : m'.db.teAvtab = keys.foldl (withNode x) m.db.teAvtab

namespace XpermStep

variable {x : AvtabExtendedPerms} {m m₁ m₂ : PolicyMem} {ks₁ ks₂ : List AvtabKey}

theorem refl (hm : m.AllocsSucceed) : XpermStep x m m [] := ⟨hm, rfl, rfl, rfl⟩

theorem append (h₁ : XpermStep x m m₁ ks₁) (h₂ : XpermStep x m₁ m₂ ks₂) :
    XpermStep x m m₂ (ks₁ ++ ks₂) where
  allocs := h₂.allocs
  types := h₂.types.trans h₁.types
  classes := h₂.classes.trans h₁.classes
  table := by rw [h₂.table, h₁.table, List.foldl_append]

end XpermStep

/-- `get_avtab_node` for an extended-permission key. -/
theorem getAvtabNode_step (x : AvtabExtendedPerms) {key : AvtabKey} (hx : key.isXperms = true)
    {m : PolicyMem} (hm : m.AllocsSucceed) :
    XpermStep x m ((getAvtabNode key x).run m).2 [key] := by
  cases hfind : m.db.teAvtab.findIdx? (isAvtabNode key x) with
  | some i =>
    have hhas : hasNode x m.db.teAvtab key = true := by
      rw [hasNode, ← List.findIdx?_isSome, hfind]
      rfl
    have hrun : (getAvtabNode key x).run m = (some i, m) := by simp [getAvtabNode, hfind]
    rw [hrun]
    exact ⟨hm, rfl, rfl, by rw [List.foldl_cons, List.foldl_nil, withNode, if_pos hhas]⟩
  | none =>
    have hhas : hasNode x m.db.teAvtab key = false := by
      rw [hasNode, ← List.findIdx?_isSome, hfind]
      rfl
    obtain ⟨m₁, hrun₁, hdb₁, hm₁⟩ := run_kalloc_of_succeed hm
    obtain ⟨m₂, hrun₂, hdb₂, hm₂⟩ := run_kalloc_of_succeed hm₁
    have hdb : m₂.db = m.db := hdb₂.trans hdb₁
    have htable : withNode x m.db.teAvtab key =
        (avtabInsertNonunique m₂.db.teAvtab (freshNode key x)).2 := by
      rw [withNode, hhas, hdb]
      rfl
    simp only [getAvtabNode, run_bind, run_readDb, hfind, hrun₁, hrun₂, hx, Bool.not_true,
      Bool.false_eq_true, if_false, if_true, run_modifyDb, run_pure]
    refine ⟨hm₂, ?_, ?_, ?_⟩
    · rw [← hdb]
    · rw [← hdb]
    · exact htable.symm

/-- A loop over datums, from what one iteration does; the symbols it reads stay the same. -/
theorem forEachDatum_step {δ : Type} {x : AvtabExtendedPerms} {types : Symtab TypeDatum}
    {classes : Symtab ClassDatum} {f : δ → PolicyM Unit} {keysOf : δ → List AvtabKey}
    (hf : ∀ d m, m.AllocsSucceed → m.db.pTypes = types → m.db.pClasses = classes →
      XpermStep x m ((f d).run m).2 (keysOf d))
    (ds : List δ) {m : PolicyMem} (hm : m.AllocsSucceed) (ht : m.db.pTypes = types)
    (hc : m.db.pClasses = classes) :
    XpermStep x m ((forEachDatum f ds).run m).2 (ds.flatMap keysOf) := by
  induction ds generalizing m with
  | nil => exact XpermStep.refl hm
  | cons d ds ih =>
    have hstep := hf d m hm ht hc
    rw [List.flatMap_cons]
    exact hstep.append
      (ih hstep.allocs (hstep.types.trans ht) (hstep.classes.trans hc))

/-- The types a given or missing source or target stands for. -/
def targetTypes (db : Policydb) (t : Option TypeDatum) : List TypeDatum :=
  match t with
  | some t => [t]
  | none => wildcardTypes false db

/-- The classes a given or missing class stands for. -/
def targetClasses (db : Policydb) (c : Option ClassDatum) : List ClassDatum :=
  match c with
  | some c => [c]
  | none => db.pClasses.datums

/-- The keys a rule is about. -/
def targetKeys (db : Policydb) (src tgt : Option TypeDatum) (cls : Option ClassDatum)
    (effect : UInt16) : List AvtabKey :=
  (targetTypes db src).flatMap fun s => (targetTypes db tgt).flatMap fun t =>
    (targetClasses db cls).flatMap fun c => [ruleKey s t c effect]

theorem targetKeys_specified {db : Policydb} {src tgt : Option TypeDatum} {cls : Option ClassDatum}
    {effect : UInt16} : ∀ k ∈ targetKeys db src tgt cls effect, k.specified = effect := by
  intro k hk
  simp only [targetKeys, List.mem_flatMap, List.mem_singleton] at hk
  obtain ⟨s, -, t, -, c, -, rfl⟩ := hk
  rfl

section Rule

variable {effect : UInt16} (he : IsXpermEffect effect) (low high : ℕ)
include he

theorem addXpermRuleRawLeaf_step (src tgt : TypeDatum) (cls : ClassDatum) {m : PolicyMem}
    (hm : m.AllocsSucceed) :
    XpermStep (rangeXperms low high false) m
      ((addXpermRuleRawLeaf low high effect false src tgt cls).run m).2
      [ruleKey src tgt cls effect] :=
  getAvtabNode_step _ (AvtabKey.isXperms_of_specified he rfl) hm

theorem addXpermRuleRawCls_step (cls : Option ClassDatum) (src tgt : TypeDatum) {m : PolicyMem}
    (hm : m.AllocsSucceed) :
    XpermStep (rangeXperms low high false) m
      ((addXpermRuleRawCls cls low high effect false src tgt).run m).2
      ((targetClasses m.db cls).flatMap fun c => [ruleKey src tgt c effect]) := by
  cases cls with
  | some c => exact addXpermRuleRawLeaf_step he low high src tgt c hm
  | none =>
    exact forEachDatum_step
      (fun c m hm _ _ => addXpermRuleRawLeaf_step he low high src tgt c hm) _ hm rfl rfl

theorem addXpermRuleRawTgt_step (tgt : Option TypeDatum) (cls : Option ClassDatum) (src : TypeDatum)
    {m : PolicyMem} (hm : m.AllocsSucceed) :
    XpermStep (rangeXperms low high false) m
      ((addXpermRuleRawTgt tgt cls low high effect false src).run m).2
      ((targetTypes m.db tgt).flatMap fun t =>
        (targetClasses m.db cls).flatMap fun c => [ruleKey src t c effect]) := by
  cases tgt with
  | some t =>
    rw [targetTypes, List.flatMap_singleton]
    exact addXpermRuleRawCls_step he low high cls src t hm
  | none =>
    refine forEachDatum_step (fun t m' hm' _ hc => ?_) _ hm rfl rfl
    have hclasses : targetClasses m.db cls = targetClasses m'.db cls := by
      cases cls <;> simp [targetClasses, hc]
    rw [hclasses]
    exact addXpermRuleRawCls_step he low high cls src t hm'

/-- **`add_xperm_rule_raw` visits the keys the rule is about.** -/
theorem addXpermRuleRaw_step (src tgt : Option TypeDatum) (cls : Option ClassDatum) {m : PolicyMem}
    (hm : m.AllocsSucceed) :
    XpermStep (rangeXperms low high false) m
      ((addXpermRuleRaw src tgt cls low high effect false).run m).2
      (targetKeys m.db src tgt cls effect) := by
  cases src with
  | some s =>
    rw [targetKeys, targetTypes, List.flatMap_singleton]
    exact addXpermRuleRawTgt_step he low high tgt cls s hm
  | none =>
    refine forEachDatum_step (fun s m' hm' ht hc => ?_) _ hm rfl rfl
    have htypes : targetTypes m.db tgt = targetTypes m'.db tgt := by
      cases tgt <;> simp [targetTypes, wildcardTypes, ht]
    have hclasses : targetClasses m.db cls = targetClasses m'.db cls := by
      cases cls <;> simp [targetClasses, hc]
    rw [htypes, hclasses]
    exact addXpermRuleRawTgt_step he low high tgt cls s hm'

end Rule

/-! ### Runs of rules -/

/-- The three extended-permission rules. -/
inductive XpermKind where
  | allowxperm
  | auditallowxperm
  | dontauditxperm
  deriving DecidableEq, Repr

/-- The kind of key a rule makes. -/
def XpermKind.effect : XpermKind → UInt16
  | .allowxperm => AVTAB_XPERMS_ALLOWED
  | .auditallowxperm => AVTAB_XPERMS_AUDITALLOW
  | .dontauditxperm => AVTAB_XPERMS_DONTAUDIT

theorem XpermKind.isXpermEffect (k : XpermKind) : IsXpermEffect k.effect := by
  cases k with
  | allowxperm => exact Or.inl rfl
  | auditallowxperm => exact Or.inr (Or.inl rfl)
  | dontauditxperm => exact Or.inr (Or.inr rfl)

/-- One rule: its kind and its arguments, of which any may be a wildcard. -/
structure XpermOp where
  kind : XpermKind
  src : Option Name
  tgt : Option Name
  cls : Option Name
  range : Option Name
  deriving DecidableEq, Repr

/-- The operation of a rule. -/
def XpermOp.exec (op : XpermOp) : PolicyM Bool :=
  match op.kind with
  | .allowxperm => ksuAllowxperm op.src op.tgt op.cls op.range
  | .auditallowxperm => ksuAuditallowxperm op.src op.tgt op.cls op.range
  | .dontauditxperm => ksuDontauditxperm op.src op.tgt op.cls op.range

theorem XpermOp.exec_eq (op : XpermOp) :
    op.exec = addXpermRule op.src op.tgt op.cls op.range op.kind.effect false := by
  rcases op with ⟨_ | _ | _, _, _, _, _⟩ <;> rfl

/-- The state after one rule. -/
def XpermOp.step (m : PolicyMem) (op : XpermOp) : PolicyMem := (op.exec.run m).2

/-- The state after a run of rules. -/
def runXperms (ops : List XpermOp) (m : PolicyMem) : PolicyMem := ops.foldl XpermOp.step m

/-- The range of a rule, as its call parses it. -/
def XpermOp.bounds (m : PolicyMem) (op : XpermOp) : ℕ × ℕ :=
  parseXpermRange op.range (takeUninit.run m).1

/-- The keys a rule is about: none when one of its names does not exist. -/
def XpermOp.keys (m : PolicyMem) (op : XpermOp) : List AvtabKey :=
  match lookupOrAll m.db.pTypes op.src, lookupOrAll m.db.pTypes op.tgt,
    lookupOrAll m.db.pClasses op.cls with
  | some src, some tgt, some cls => targetKeys m.db src tgt cls op.kind.effect
  | _, _, _ => []

theorem XpermOp.keys_specified (m : PolicyMem) (op : XpermOp) :
    ∀ k ∈ op.keys m, k.specified = op.kind.effect := by
  intro k hk
  rw [XpermOp.keys] at hk
  split at hk
  · exact targetKeys_specified k hk
  · cases hk

/-- **What a rule does to the state.** -/
theorem XpermOp.step_spec (op : XpermOp) {m : PolicyMem} (hm : m.AllocsSucceed) :
    XpermStep (rangeXperms (op.bounds m).1 (op.bounds m).2 false) m (op.step m) (op.keys m) := by
  rw [XpermOp.step, XpermOp.exec_eq, XpermOp.keys]
  cases hs : lookupOrAll m.db.pTypes op.src with
  | none => simpa [addXpermRule, hs] using XpermStep.refl hm
  | some src =>
  cases ht : lookupOrAll m.db.pTypes op.tgt with
  | none => simpa [addXpermRule, hs, ht] using XpermStep.refl hm
  | some tgt =>
  cases hc : lookupOrAll m.db.pClasses op.cls with
  | none => simpa [addXpermRule, hs, ht, hc] using XpermStep.refl hm
  | some cls =>
    have huninit : (takeUninit.run m).2.db = m.db ∧ (takeUninit.run m).2.AllocsSucceed := by
      rcases m with ⟨db, allocs, _ | ⟨u, us⟩, freed, next⟩ <;> exact ⟨rfl, hm⟩
    obtain ⟨hallocs, htypes, hclasses, htable⟩ := addXpermRuleRaw_step op.kind.isXpermEffect
      (op.bounds m).1 (op.bounds m).2 src tgt cls huninit.2
    rw [huninit.1] at htypes hclasses htable
    simp only [addXpermRule, run_bind, run_readDb, hs, ht, hc, run_pure]
    exact ⟨hallocs, htypes, hclasses, htable⟩

theorem scanHx_lt {s rest : List UInt8} {v : ℕ} (h : scanHx s = some (v, rest)) : v < 2 ^ 16 := by
  rw [scanHx] at h
  split at h
  · cases h
  · split at h
    · cases h
      exact Nat.mod_lt _ (by decide)
    · cases h

/-- Both ends of a range are 16-bit numbers. -/
theorem parseXpermRange_lt (range : Option Name) {u : ℕ × ℕ} (h₁ : u.1 < 2 ^ 16)
    (h₂ : u.2 < 2 ^ 16) :
    (parseXpermRange range u).1 < 2 ^ 16 ∧ (parseXpermRange range u).2 < 2 ^ 16 := by
  cases range with
  | none => exact ⟨(by decide : 0 < 2 ^ 16), (by decide : 0xffff < 2 ^ 16)⟩
  | some s =>
    rw [parseXpermRange]
    split
    · split
      · exact ⟨h₁, h₂⟩
      · next heq =>
        split
        · exact ⟨scanHx_lt heq, h₂⟩
        · next heq' => exact ⟨scanHx_lt heq, scanHx_lt heq'⟩
      · next heq => exact ⟨scanHx_lt heq, h₂⟩
    · split
      · exact ⟨h₁, h₁⟩
      · next heq => exact ⟨scanHx_lt heq, scanHx_lt heq⟩

theorem XpermOp.bounds_lt (m : PolicyMem) (op : XpermOp) : (op.bounds m).2 < 2 ^ 16 := by
  have hu : (takeUninit.run m).1.1 < 2 ^ 16 ∧ (takeUninit.run m).1.2 < 2 ^ 16 := by
    rcases m with ⟨db, allocs, _ | ⟨u, us⟩, freed, next⟩
    · exact ⟨(by decide : 0 < 2 ^ 16), (by decide : 0 < 2 ^ 16)⟩
    · exact ⟨Nat.mod_lt _ (by decide), Nat.mod_lt _ (by decide)⟩
  exact (parseXpermRange_lt op.range hu.1 hu.2).2

/-- **What a rule is for:** its range is covered for each of its keys, and nothing that was covered
for any key is lost. -/
structure Accumulates (m : PolicyMem) (op : XpermOp) : Prop where
  range : (op.bounds m).1 ≤ (op.bounds m).2 → ∀ key ∈ op.keys m,
    ∀ n, (op.bounds m).1 ≤ n → n ≤ (op.bounds m).2 →
      covered (op.step m).db.teAvtab key n = true
  kept : ∀ key n, covered m.db.teAvtab key n = true →
    covered (op.step m).db.teAvtab key n = true

/-- **The states a rule fits.**  Each of its keys has no node of the range's kind and driver, or covers
the range already. -/
def RangeFits (m : PolicyMem) (op : XpermOp) : Prop :=
  (op.bounds m).1 ≤ (op.bounds m).2 → ∀ key ∈ op.keys m,
    hasNode (rangeXperms (op.bounds m).1 (op.bounds m).2 false) m.db.teAvtab key = false ∨
      ∀ n, (op.bounds m).1 ≤ n → n ≤ (op.bounds m).2 → covered m.db.teAvtab key n = true

/-- What a key covers after a rule. -/
theorem XpermOp.covered_step (op : XpermOp) {m : PolicyMem} (hm : m.AllocsSucceed) (key : AvtabKey)
    (n : ℕ) :
    covered (op.step m).db.teAvtab key n = true ↔
      covered m.db.teAvtab key n = true ∨
        (∃ k ∈ op.keys m, key.meets k = true ∧
          hasNode (rangeXperms (op.bounds m).1 (op.bounds m).2 false) m.db.teAvtab k = false) ∧
        (rangeXperms (op.bounds m).1 (op.bounds m).2 false).covers n = true := by
  rw [(op.step_spec hm).table]
  exact covered_foldl_withNode op.kind.isXpermEffect _ (op.keys_specified m) _ _ _

/-- **One rule accumulates exactly in the states it fits.** -/
theorem accumulates_iff (op : XpermOp) {m : PolicyMem} (hm : m.AllocsSucceed) :
    Accumulates m op ↔ RangeFits m op := by
  have he := op.kind.isXpermEffect
  constructor
  · intro h hle key hkey
    cases hhas : hasNode (rangeXperms (op.bounds m).1 (op.bounds m).2 false) m.db.teAvtab key with
    | false => exact Or.inl rfl
    | true =>
      refine Or.inr fun n hlow hhigh => ?_
      rcases (op.covered_step hm key n).mp (h.range hle key hkey n hlow hhigh) with
        hold | ⟨⟨k, hk, hmeet, hno⟩, -⟩
      · exact hold
      · have heq := (AvtabKey.meets_iff_eq he (op.keys_specified m key hkey)
          (op.keys_specified m k hk)).mp hmeet
        rw [← heq, hhas] at hno
        cases hno
  · intro h
    refine ⟨fun hle key hkey n hlow hhigh => (op.covered_step hm key n).mpr ?_,
      fun key n hold => (op.covered_step hm key n).mpr (Or.inl hold)⟩
    rcases h hle key hkey with hno | hold
    · have hspec := op.keys_specified m key hkey
      exact Or.inr ⟨⟨key, hkey, (AvtabKey.meets_iff_eq he hspec hspec).mpr rfl, hno⟩,
        rangeXperms_covers (op.bounds_lt m) hlow hhigh⟩
    · exact Or.inl (hold n hlow hhigh)

/-- A property of every step of a run. -/
def EachStep (P : PolicyMem → XpermOp → Prop) : List XpermOp → PolicyMem → Prop
  | [], _ => True
  | op :: ops, m => P m op ∧ EachStep P ops (op.step m)

/-- **Over a run, extended permissions accumulate at every step exactly when every rule fits the state
it finds.** -/
theorem runXperms_accumulates_iff (ops : List XpermOp) {m : PolicyMem} (hm : m.AllocsSucceed) :
    EachStep Accumulates ops m ↔ EachStep RangeFits ops m := by
  induction ops generalizing m with
  | nil => exact Iff.rfl
  | cons op ops ih =>
    exact and_congr (accumulates_iff op hm) (ih (op.step_spec hm).allocs)

/-! ### Two ranges of one driver -/

/-- A domain, an object type and a class, and no rules. -/
def ioctlMem : PolicyMem :=
  PolicyMem.ofDb (Policydb.ofSymbols [([1], ⟨1, true, false⟩), ([2], ⟨2, true, false⟩)]
    [([6], ⟨1, Symtab.ofList [], none, []⟩)])

/-- `allowxperm` on them, with a range in hexadecimal. -/
def ioctlRule (range : Name) : XpermOp := ⟨.allowxperm, some [1], some [2], some [6], some range⟩

/-- Ranges of two drivers, `8910` and `5401-5402`, accumulate. -/
theorem runXperms_accumulates_twoDrivers :
    EachStep Accumulates
      [ioctlRule [0x38, 0x39, 0x31, 0x30],
        ioctlRule [0x35, 0x34, 0x30, 0x31, 0x2d, 0x35, 0x34, 0x30, 0x32]] ioctlMem := by
  refine (runXperms_accumulates_iff _ (by decide)).mpr ⟨fun _ key hkey => Or.inl ?_,
    fun _ key hkey => Or.inl ?_, trivial⟩
  · revert key
    decide
  · revert key
    decide

/-- **The second of two ranges of one driver, `8910` and then `8920`, is lost.** -/
theorem runXperms_not_accumulates_oneDriver :
    ¬ EachStep Accumulates
      [ioctlRule [0x38, 0x39, 0x31, 0x30], ioctlRule [0x38, 0x39, 0x32, 0x30]] ioctlMem := by
  rintro ⟨-, hsecond, -⟩
  have hlost := hsecond.range (by decide) ⟨1, 2, 1, AVTAB_XPERMS_ALLOWED⟩ (by decide) 0x8920
    (by decide) (by decide)
  revert hlost
  decide

/-- Nothing covered at the start of a run is lost in it. -/
theorem covered_runXperms (ops : List XpermOp) {m : PolicyMem} (hm : m.AllocsSucceed)
    {key : AvtabKey} {n : ℕ} (h : covered m.db.teAvtab key n = true) :
    covered (runXperms ops m).db.teAvtab key n = true := by
  induction ops generalizing m with
  | nil => exact h
  | cons op ops ih =>
    exact ih (op.step_spec hm).allocs ((op.covered_step hm key n).mpr (Or.inl h))

end KernelSU.Selinux
