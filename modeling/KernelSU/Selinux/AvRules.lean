import KernelSU.Selinux.PolicyLen

/-!
# Access-vector rules: what they change

`allow`, `deny`, `auditallow` and `dontaudit` change the entries of the keys that their arguments expand to.
Linux accepts a table only if every key has one kind and an access-vector key has one entry at most
(`AvtabWellFormed`), and in such a table

* `AvStep` — one key after another gets its vector updated, loses its entry if that says nothing any more,
  and leaves the entries of all other keys alone;
* `addRuleRaw_avStep` — **PROVED**: a rule is such a step for the keys it is about;
* `ksuAv_changesTargets` — **PROVED**: a rule changes exactly its targets;
* `ksuAv_wellFormed` — **PROVED**: the table stays one that Linux accepts.
-/

namespace KernelSU.Selinux

/-! ### Entries and vectors -/

/-- The kinds of entries. -/
def avtabKinds : List UInt16 :=
  [AVTAB_ALLOWED, AVTAB_AUDITALLOW, AVTAB_AUDITDENY, AVTAB_TRANSITION, AVTAB_MEMBER, AVTAB_CHANGE,
    AVTAB_XPERMS_ALLOWED, AVTAB_XPERMS_AUDITALLOW, AVTAB_XPERMS_DONTAUDIT]

/-- The key has exactly one kind, whether or not it is marked as enabled. -/
def AvtabKey.HasKind (key : AvtabKey) : Prop := key.specified &&& ~~~AVTAB_ENABLED ∈ avtabKinds

/-- The entries that a search for the key finds, one after the other. -/
def entries (nodes : List AvtabNode) (key : AvtabKey) : List AvtabNode :=
  nodes.filter fun n => key.meets n.key

/-- **The tables that Linux accepts**: an access-vector key is entered once. -/
structure AvtabWellFormed (db : Policydb) : Prop where
  kinds : ∀ n ∈ db.teAvtab, n.key.HasKind
  unique : ∀ key, IsAvEffect key.specified → (entries db.teAvtab key).length ≤ 1
  nel : db.teAvtabNel = db.teAvtab.length

/-- The access vector of an entry. -/
def AvtabNode.vector (n : AvtabNode) : BitVec 32 :=
  match n.datum with
  | .data d => d
  | .xperms _ => 0

/-- What no entry means: all bits for dontaudit, and none for the others. -/
def absentVector (kind : UInt16) : BitVec 32 := if kind = AVTAB_AUDITDENY then BitVec.allOnes 32 else 0

/-- The vector of a key, as an access decision puts it together. -/
def effectiveVector (nodes : List AvtabNode) (key : AvtabKey) : BitVec 32 :=
  (entries nodes key).foldl
    (fun v n => if key.specified = AVTAB_AUDITDENY then v &&& n.vector else v ||| n.vector)
    (absentVector key.specified)

theorem effectiveVector_of_nil {nodes : List AvtabNode} {key : AvtabKey} (h : entries nodes key = []) :
    effectiveVector nodes key = absentVector key.specified := by
  rw [effectiveVector, h, List.foldl_nil]

theorem effectiveVector_of_singleton {nodes : List AvtabNode} {key : AvtabKey} {n : AvtabNode}
    (h : entries nodes key = [n]) : effectiveVector nodes key = n.vector := by
  rw [effectiveVector, h, List.foldl_cons, List.foldl_nil, absentVector]
  split
  · exact BitVec.allOnes_and
  · exact BitVec.zero_or

/-! ### Keys of access vectors -/

section AvKey

variable {key key' : AvtabKey} (he : IsAvEffect key.specified)
include he

/-- An access-vector key meets the keys of its types, class and kind. -/
theorem AvtabKey.meets_iff_of_hasKind (hk : key'.HasKind) :
    key.meets key' = true ↔ (key.sourceType = key'.sourceType ∧ key.targetType = key'.targetType ∧
      key.targetClass = key'.targetClass) ∧ key'.specified &&& ~~~AVTAB_ENABLED = key.specified := by
  have hkind : key.specified &&& ~~~AVTAB_ENABLED &&& key'.specified ≠ 0 ↔
      key'.specified &&& ~~~AVTAB_ENABLED = key.specified := by
    rw [UInt16.and_assoc, UInt16.and_comm (~~~AVTAB_ENABLED) key'.specified]
    have hall : (avtabKinds.all fun k => decide (key.specified &&& k ≠ 0 ↔ k = key.specified)) = true := by
      rcases he with h | h | h <;> rw [h] <;> decide
    exact of_decide_eq_true (List.all_eq_true.mp hall _ hk)
  simp only [AvtabKey.meets, Bool.and_eq_true, beq_iff_eq, decide_eq_true_eq, hkind, and_assoc]

/-- An entry belongs to one access-vector key at most. -/
theorem AvtabKey.eq_of_meets {n : AvtabKey} (he' : IsAvEffect key'.specified) (hk : n.HasKind)
    (h : key.meets n = true) (h' : key'.meets n = true) : key = key' := by
  obtain ⟨⟨hs, ht, hc⟩, hspec⟩ := (AvtabKey.meets_iff_of_hasKind he hk).mp h
  obtain ⟨⟨hs', ht', hc'⟩, hspec'⟩ := (AvtabKey.meets_iff_of_hasKind he' hk).mp h'
  obtain ⟨s, t, c, e⟩ := key
  obtain ⟨s', t', c', e'⟩ := key'
  simp_all

theorem AvtabKey.isXperms_of_isAvEffect : key.isXperms = false := by
  rw [AvtabKey.isXperms]
  rcases he with h | h | h <;> rw [h] <;> decide

theorem AvtabKey.meets_self_of_isAvEffect : key.meets key = true := by
  simp [AvtabKey.meets, he.bits]

/-- What the kind of an access-vector entry says. -/
theorem AvtabKey.kind_of_meets {n : AvtabKey} (hk : n.HasKind) (h : key.meets n = true) :
    n.isXperms = false ∧ n.specified &&& AVTAB_AV ≠ 0 ∧
      (n.specified &&& AVTAB_AUDITDENY ≠ 0 ↔ key.specified = AVTAB_AUDITDENY) := by
  obtain ⟨-, hspec⟩ := (AvtabKey.meets_iff_of_hasKind he hk).mp h
  have hbits : ∀ mask, ~~~AVTAB_ENABLED &&& mask = mask → n.specified &&& mask = key.specified &&& mask := by
    intro mask hmask
    rw [← hspec, UInt16.and_assoc, hmask]
  rw [AvtabKey.isXperms, hbits AVTAB_XPERMS (by decide), hbits AVTAB_AV (by decide),
    hbits AVTAB_AUDITDENY (by decide)]
  rcases he with h | h | h <;> rw [h] <;> decide

/-- An access-vector entry is redundant when it says what no entry says. -/
theorem isRedundantAvtabNode_iff {n : AvtabNode} (hk : n.key.HasKind) (h : key.meets n.key = true) :
    isRedundantAvtabNode n = true ↔ n.vector = absentVector key.specified := by
  obtain ⟨hx, hav, hdeny⟩ := AvtabKey.kind_of_meets he hk h
  obtain ⟨k, datum, typed⟩ := n
  cases datum with
  | xperms x => exact absurd (typed.trans hx) (by simp [AvtabDatum.isXperms])
  | data d =>
    simp only [isRedundantAvtabNode, AvtabNode.vector, absentVector, if_neg hav]
    by_cases hkind : key.specified = AVTAB_AUDITDENY
    · rw [if_pos (hdeny.mpr hkind), if_pos hkind, beq_iff_eq]
    · rw [if_neg (fun hbit => hkind (hdeny.mp hbit)), if_neg hkind, beq_iff_eq]

/-- A store to an access-vector entry. -/
theorem AvtabNode.setData_vector {n : AvtabNode} (hk : n.key.HasKind) (h : key.meets n.key = true)
    (f : BitVec 32 → BitVec 32) : (n.setData f).vector = f n.vector := by
  obtain ⟨hx, -, -⟩ := AvtabKey.kind_of_meets he hk h
  obtain ⟨k, datum, typed⟩ := n
  cases datum with
  | xperms x => exact absurd (typed.trans hx) (by simp [AvtabDatum.isXperms])
  | data d => rfl

end AvKey

/-! ### Replacing the entry of a key -/

/-- The table after the entries `old` of the key have given way to `new`. -/
structure Replaces (key : AvtabKey) (old new nodes nodes' : List AvtabNode) : Prop where
  split : ∃ front back, nodes = front ++ old ++ back ∧ nodes' = front ++ new ++ back ∧
    ∀ n ∈ front ++ back, key.meets n.key = false
  old : ∀ n ∈ old, key.meets n.key = true
  new : ∀ n ∈ new, key.meets n.key = true ∧ n.key.HasKind

theorem filter_of_false {p : AvtabNode → Bool} {l : List AvtabNode} (h : ∀ n ∈ l, p n = false) :
    l.filter p = [] :=
  List.filter_eq_nil_iff.mpr fun n hn => by rw [h n hn]; exact Bool.false_ne_true

/-- The entries of a key, from where they are. -/
theorem entries_append {key : AvtabKey} {front mid back : List AvtabNode}
    (hothers : ∀ n ∈ front ++ back, key.meets n.key = false) (hmid : ∀ n ∈ mid, key.meets n.key = true) :
    entries (front ++ mid ++ back) key = mid := by
  rw [entries, List.filter_append, List.filter_append, List.filter_eq_self.mpr hmid,
    filter_of_false fun n hn => hothers n (List.mem_append_left _ hn),
    filter_of_false fun n hn => hothers n (List.mem_append_right _ hn), List.nil_append, List.append_nil]

namespace Replaces

variable {key : AvtabKey} {old new nodes nodes' : List AvtabNode} (h : Replaces key old new nodes nodes')
include h

theorem entries_before : entries nodes key = old := by
  obtain ⟨front, back, rfl, -, hothers⟩ := h.split
  exact entries_append hothers h.old

theorem entries_after : entries nodes' key = new := by
  obtain ⟨front, back, -, rfl, hothers⟩ := h.split
  exact entries_append hothers fun n hn => (h.new n hn).1

/-- A selection that takes none of the replaced entries is as before. -/
theorem filter_eq {p : AvtabNode → Bool} (hold : ∀ n ∈ old, p n = false) (hnew : ∀ n ∈ new, p n = false) :
    nodes'.filter p = nodes.filter p := by
  obtain ⟨front, back, rfl, rfl, -⟩ := h.split
  simp only [List.filter_append, filter_of_false hold, filter_of_false hnew]

theorem length_eq : nodes'.length + old.length = nodes.length + new.length := by
  obtain ⟨front, back, rfl, rfl, -⟩ := h.split
  simp only [List.length_append]
  omega

theorem mem_of_old {n : AvtabNode} (hn : n ∈ old) : n ∈ nodes := by
  obtain ⟨front, back, rfl, -, -⟩ := h.split
  exact List.mem_append_left _ (List.mem_append_right _ hn)

theorem hasKind (hkinds : ∀ n ∈ nodes, n.key.HasKind) : ∀ n ∈ nodes', n.key.HasKind := by
  obtain ⟨front, back, rfl, rfl, -⟩ := h.split
  intro n hn
  simp only [List.mem_append] at hn hkinds
  rcases hn with (hn | hn) | hn
  · exact hkinds n (.inl (.inl hn))
  · exact (h.new n hn).2
  · exact hkinds n (.inr hn)

end Replaces

/-! ### What a rule does to the table -/

/-- Whether an entry is an access vector. -/
def AvtabNode.isAv (n : AvtabNode) : Bool := decide (n.key.specified &&& AVTAB_AV ≠ 0)

/-- The step of a rule that is about `keys`: their vectors are updated, and none of them keeps an entry that says
nothing; all other entries are as before. -/
structure AvStep (update : BitVec 32 → BitVec 32) (keys : List AvtabKey) (m m' : PolicyMem) : Prop where
  allocs : m'.AllocsSucceed
  types : m'.db.pTypes = m.db.pTypes
  classes : m'.db.pClasses = m.db.pClasses
  wellFormed : AvtabWellFormed m'.db
  avEffect : ∀ key ∈ keys, IsAvEffect key.specified
  vectors : ∀ key ∈ keys, effectiveVector m'.db.teAvtab key = update (effectiveVector m.db.teAvtab key)
  informative : ∀ key ∈ keys, ∀ n ∈ entries m'.db.teAvtab key, n.vector ≠ absentVector key.specified
  frame : ∀ key, IsAvEffect key.specified → key ∉ keys → entries m'.db.teAvtab key = entries m.db.teAvtab key
  others : (m'.db.teAvtab.filter fun n => !n.isAv) = m.db.teAvtab.filter fun n => !n.isAv

namespace AvStep

variable {update : BitVec 32 → BitVec 32} {m m₁ m₂ : PolicyMem} {ks₁ ks₂ : List AvtabKey}

theorem refl (hm : m.AllocsSucceed) (hwf : AvtabWellFormed m.db) : AvStep update [] m m where
  allocs := hm
  types := rfl
  classes := rfl
  wellFormed := hwf
  avEffect _ h := absurd h List.not_mem_nil
  vectors _ h := absurd h List.not_mem_nil
  informative _ h := absurd h List.not_mem_nil
  frame _ _ _ := rfl
  others := rfl

/-- One part of a rule after the other.  A key of both parts is updated twice, which is as good as once. -/
theorem append (hidem : ∀ d, update (update d) = update d) (h₁ : AvStep update ks₁ m m₁)
    (h₂ : AvStep update ks₂ m₁ m₂) : AvStep update (ks₁ ++ ks₂) m m₂ where
  allocs := h₂.allocs
  types := h₂.types.trans h₁.types
  classes := h₂.classes.trans h₁.classes
  wellFormed := h₂.wellFormed
  avEffect key hkey := (List.mem_append.mp hkey).elim (h₁.avEffect key) (h₂.avEffect key)
  vectors key hkey := by
    by_cases hin₂ : key ∈ ks₂
    · rw [h₂.vectors key hin₂]
      by_cases hin₁ : key ∈ ks₁
      · rw [h₁.vectors key hin₁, hidem]
      · rw [effectiveVector, effectiveVector, h₁.frame key (h₂.avEffect key hin₂) hin₁]
    · have hin₁ := (List.mem_append.mp hkey).resolve_right hin₂
      rw [← h₁.vectors key hin₁, effectiveVector, effectiveVector, h₂.frame key (h₁.avEffect key hin₁) hin₂]
  informative key hkey := by
    by_cases hin₂ : key ∈ ks₂
    · exact h₂.informative key hin₂
    · have hin₁ := (List.mem_append.mp hkey).resolve_right hin₂
      rw [h₂.frame key (h₁.avEffect key hin₁) hin₂]
      exact h₁.informative key hin₁
  frame key he hkey := by
    rw [h₂.frame key he fun h => hkey (List.mem_append_right _ h),
      h₁.frame key he fun h => hkey (List.mem_append_left _ h)]
  others := h₂.others.trans h₁.others

end AvStep

/-! ### One key -/

/-- A vector that is not what no entry says. -/
def keptIf (kind : UInt16) (n : AvtabNode) : List AvtabNode := if n.vector = absentVector kind then [] else [n]

/-- Updating the entry of one key is a step for that key. -/
theorem AvStep.of_replaces {update : BitVec 32 → BitVec 32} {key : AvtabKey} (he : IsAvEffect key.specified)
    {m m' : PolicyMem} (hwf : AvtabWellFormed m.db) {old : List AvtabNode} {n : AvtabNode}
    (hrep : Replaces key old (keptIf key.specified n) m.db.teAvtab m'.db.teAvtab)
    (hn : n.vector = update (effectiveVector m.db.teAvtab key)) (hallocs : m'.AllocsSucceed)
    (htypes : m'.db.pTypes = m.db.pTypes) (hclasses : m'.db.pClasses = m.db.pClasses)
    (hnel : m'.db.teAvtabNel + old.length = m.db.teAvtabNel + (keptIf key.specified n).length) :
    AvStep update [key] m m' := by
  have hkept : ∀ n' ∈ keptIf key.specified n, n' = n ∧ n'.vector ≠ absentVector key.specified := by
    intro n' hn'
    rw [keptIf] at hn'
    split at hn'
    · exact absurd hn' List.not_mem_nil
    · next hne =>
      obtain rfl := List.mem_singleton.mp hn'
      exact ⟨rfl, hne⟩
  have hlen : (keptIf key.specified n).length ≤ 1 := by
    rw [keptIf]
    split <;> simp
  have hkinds := hrep.hasKind hwf.kinds
  have hframe : ∀ key', IsAvEffect key'.specified → key' ∉ [key] →
      entries m'.db.teAvtab key' = entries m.db.teAvtab key' := by
    intro key' he' hne
    have hother : ∀ n' : AvtabNode, n'.key.HasKind → key.meets n'.key = true → key'.meets n'.key = false := by
      intro n' hk hmeets
      refine Bool.eq_false_iff.mpr fun hmeets' => hne (List.mem_singleton.mpr ?_)
      exact AvtabKey.eq_of_meets he' he hk hmeets' hmeets
    exact hrep.filter_eq (fun n' hn' => hother n' (hwf.kinds n' (hrep.mem_of_old hn')) (hrep.old n' hn'))
      fun n' hn' => hother n' (hrep.new n' hn').2 (hrep.new n' hn').1
  have hav : ∀ n' : AvtabNode, n'.key.HasKind → key.meets n'.key = true → (!n'.isAv) = false := by
    intro n' hk hmeets
    rw [AvtabNode.isAv, decide_eq_true (AvtabKey.kind_of_meets he hk hmeets).2.1]
    rfl
  refine ⟨hallocs, htypes, hclasses, ⟨hkinds, ?_, ?_⟩, ?_, ?_, ?_, hframe, ?_⟩
  · intro key' he'
    by_cases heq : key' = key
    · rw [heq, hrep.entries_after]
      exact hlen
    · rw [hframe key' he' fun h => heq (List.mem_singleton.mp h)]
      exact hwf.unique key' he'
  · have hlength := hrep.length_eq
    have hbefore := hwf.nel
    omega
  · intro key' hkey'
    rw [List.mem_singleton.mp hkey']
    exact he
  · intro key' hkey'
    rw [List.mem_singleton.mp hkey', ← hn]
    by_cases hsame : n.vector = absentVector key.specified
    · rw [hsame]
      exact effectiveVector_of_nil (by rw [hrep.entries_after, keptIf, if_pos hsame])
    · exact effectiveVector_of_singleton (by rw [hrep.entries_after, keptIf, if_neg hsame])
  · intro key' hkey' n' hn'
    rw [List.mem_singleton.mp hkey'] at hn' ⊢
    rw [hrep.entries_after] at hn'
    exact (hkept n' hn').2
  · exact hrep.filter_eq (fun n' hn' => hav n' (hwf.kinds n' (hrep.mem_of_old hn')) (hrep.old n' hn'))
      fun n' hn' => hav n' (hrep.new n' hn').2 (hrep.new n' hn').1

/-- The entry that a search finds is the only one. -/
theorem split_of_search {key : AvtabKey} {nodes : List AvtabNode} (hunique : (entries nodes key).length ≤ 1) {i : ℕ}
    (hfind : avtabSearchNode nodes key = some i) :
    ∃ front n back, nodes = front ++ n :: back ∧ front.length = i ∧ key.meets n.key = true ∧
      ∀ n' ∈ front ++ back, key.meets n'.key = false := by
  obtain ⟨hlt, hmeets, hbefore⟩ := List.findIdx?_eq_some_iff_getElem.mp hfind
  have hsplit : nodes = nodes.take i ++ nodes[i] :: nodes.drop (i + 1) := by
    rw [← List.drop_eq_getElem_cons hlt, List.take_append_drop]
  refine ⟨nodes.take i, nodes[i], nodes.drop (i + 1), hsplit, List.length_take_of_le hlt.le, hmeets, ?_⟩
  have hlen : ((nodes.take i).filter fun n => key.meets n.key).length +
      ((nodes.drop (i + 1)).filter fun n => key.meets n.key).length = 0 := by
    rw [entries, hsplit, List.filter_append, List.filter_cons, if_pos hmeets, List.length_append,
      List.length_cons] at hunique
    omega
  intro n' hn'
  refine Bool.eq_false_iff.mpr fun hmeets' => ?_
  have hpos : ∀ l : List AvtabNode, n' ∈ l → 0 < (l.filter fun n => key.meets n.key).length := fun l hl =>
    List.length_pos_of_mem (List.mem_filter.mpr ⟨hl, hmeets'⟩)
  rcases List.mem_append.mp hn' with hfront | hback
  · have := hpos _ hfront
    omega
  · have := hpos _ hback
    omega

/-- What is left when, behind `front`, the entries `old` have given way to `new`. -/
structure Updated (front old new back : List AvtabNode) (m m' : PolicyMem) : Prop where
  allocs : m'.AllocsSucceed
  types : m'.db.pTypes = m.db.pTypes
  classes : m'.db.pClasses = m.db.pClasses
  table : m'.db.teAvtab = front ++ new ++ back
  nel : m'.db.teAvtabNel + old.length = m.db.teAvtabNel + new.length

theorem Updated.trans {front back old mid new : List AvtabNode} {m m₁ m₂ : PolicyMem}
    (h₁ : Updated front old mid back m m₁) (h₂ : Updated front mid new back m₁ m₂) :
    Updated front old new back m m₂ where
  allocs := h₂.allocs
  types := h₂.types.trans h₁.types
  classes := h₂.classes.trans h₁.classes
  table := h₂.table
  nel := by
    have hfirst := h₁.nel
    have hsecond := h₂.nel
    omega

section Leaf

variable (perm : Option PermDatum) (invert : Bool) {key : AvtabKey} (he : IsAvEffect key.specified)
include he

/-- The end of `add_rule_raw`. -/
theorem updateAvtabNode_updated {m : PolicyMem} (hm : m.AllocsSucceed) {front back : List AvtabNode}
    {n : AvtabNode} (htable : m.db.teAvtab = front ++ n :: back) (hnel : 0 < m.db.teAvtabNel)
    (hk : n.key.HasKind) (hmeets : key.meets n.key = true) :
    Updated front [n] (keptIf key.specified (n.setData (ruleUpdate perm invert))) back m
      ((updateAvtabNode perm invert front.length).run m).2 := by
  have hmodify : (front ++ n :: back).modify front.length (·.setData (ruleUpdate perm invert)) =
      front ++ n.setData (ruleUpdate perm invert) :: back := by
    rw [List.modify_eq_take_cons_drop (by simp)]
    simp
  have hget : (front ++ n.setData (ruleUpdate perm invert) :: back)[front.length]? =
      some (n.setData (ruleUpdate perm invert)) := by simp
  have hredundant := isRedundantAvtabNode_iff he (n := n.setData (ruleUpdate perm invert))
    (by rwa [AvtabNode.setData_key]) (by rwa [AvtabNode.setData_key])
  simp only [updateAvtabNode, run_bind, run_modifyDb, run_readDb, htable, hmodify, hget]
  by_cases hsame : (n.setData (ruleUpdate perm invert)).vector = absentVector key.specified
  · have hrun₀ : PolicyMem.AllocsSucceed { m with
        db := { m.db with teAvtab := front ++ n.setData (ruleUpdate perm invert) :: back } } := hm
    obtain ⟨m', hrun, hdb, hallocs⟩ := run_kalloc_of_succeed hrun₀
    have herase : (front ++ n.setData (ruleUpdate perm invert) :: back).eraseIdx front.length = front ++ back := by
      rw [List.eraseIdx_append_of_length_le (Nat.le_refl _), Nat.sub_self]
      rfl
    rw [if_pos (hredundant.mpr hsame)]
    simp only [removeAvtabNode, run_bind, hrun, Bool.not_true, Bool.false_eq_true, if_false, run_readDb, hdb,
      hget, run_modifyDb, run_pure, herase]
    refine ⟨hallocs, rfl, rfl, ?_, ?_⟩
    · rw [keptIf, if_pos hsame, List.append_nil]
    · rw [keptIf, if_pos hsame, if_pos hnel, List.length_nil]
      show m.db.teAvtabNel - 1 + 1 = m.db.teAvtabNel + 0
      exact Nat.sub_add_cancel hnel
  · rw [if_neg fun h => hsame (hredundant.mp h)]
    refine ⟨hm, rfl, rfl, ?_, ?_⟩
    · rw [keptIf, if_neg hsame, List.append_assoc]
      rfl
    · rw [keptIf, if_neg hsame, List.length_singleton]
      rfl

/-- In an access-vector search, the node looked for is the first that the key meets. -/
theorem isAvtabNode_of_isAvEffect (x : AvtabExtendedPerms) : isAvtabNode key x = fun n => key.meets n.key := by
  funext n
  have hx := AvtabKey.isXperms_of_isAvEffect he
  rw [isAvtabNode, hx]
  cases n.datum with
  | data d => exact Bool.and_true _
  | xperms x' => exact Bool.and_true _

theorem hasKind_of_isAvEffect : key.HasKind := by
  rw [AvtabKey.HasKind]
  rcases he with h | h | h <;> rw [h] <;> decide

theorem freshNode_vector (x : AvtabExtendedPerms) : (freshNode key x).vector = absentVector key.specified := by
  have hx := AvtabKey.isXperms_of_isAvEffect he
  rw [freshNode, dif_neg (by rw [hx]; exact Bool.false_ne_true)]
  rfl

/-- `get_avtab_node` of a key without an entry: the new node is the last. -/
theorem getAvtabNode_of_absent (x : AvtabExtendedPerms) {m : PolicyMem} (hm : m.AllocsSucceed)
    (habsent : avtabSearchNode m.db.teAvtab key = none) :
    ∃ m', (getAvtabNode key x).run m = (some m.db.teAvtab.length, m') ∧
      Updated m.db.teAvtab [] [freshNode key x] [] m m' := by
  have hx := AvtabKey.isXperms_of_isAvEffect he
  have hfind : m.db.teAvtab.findIdx? (isAvtabNode key x) = none := by
    rw [isAvtabNode_of_isAvEffect he]
    exact habsent
  have hinsert : avtabInsertNonunique m.db.teAvtab (freshNode key x) =
      (m.db.teAvtab.length, m.db.teAvtab ++ [freshNode key x]) := by
    rw [avtabInsertNonunique, freshNode_key, habsent, Option.getD_none, List.insertIdx_length_self]
  obtain ⟨m', hrun, hdb, hallocs⟩ := run_kalloc_of_succeed hm
  refine ⟨{ m' with db := { m'.db with teAvtab := m.db.teAvtab ++ [freshNode key x]
                                       teAvtabNel := m.db.teAvtabNel + 1
                                       len := m.db.len + (sizeofAvtabKey + sizeofAvtabDatum) } }, ?_, ?_⟩
  · simp [getAvtabNode, hfind, hrun, hx, hdb, hinsert]
  · exact ⟨hallocs, by rw [← hdb], by rw [← hdb], (List.append_nil _).symm, rfl⟩

end Leaf

/-- **`add_rule_raw` of one key** is a step for that key. -/
theorem addRuleRawLeaf_avStep (perm : Option PermDatum) (invert : Bool) {effect : UInt16} (he : IsAvEffect effect)
    (src tgt : TypeDatum) (cls : ClassDatum) {m : PolicyMem} (hm : m.AllocsSucceed)
    (hwf : AvtabWellFormed m.db) :
    AvStep (ruleUpdate perm invert) [ruleKey src tgt cls effect] m
      ((addRuleRawLeaf perm effect invert src tgt cls).run m).2 := by
  have hspec : (ruleKey src tgt cls effect).specified = effect := rfl
  rw [addRuleRawLeaf_eq]
  generalize ruleKey src tgt cls effect = key at hspec ⊢
  subst hspec
  have hfresh := freshNode_vector he noXperms
  have hfreshKind : (freshNode key noXperms).key.HasKind := by
    rw [freshNode_key]
    exact hasKind_of_isAvEffect he
  have hfreshMeets : key.meets (freshNode key noXperms).key = true := by
    rw [freshNode_key]
    exact AvtabKey.meets_self_of_isAvEffect he
  -- the entry that is left, if any, has the key of the one that was found or made
  have hkept : ∀ n : AvtabNode, n.key.HasKind → key.meets n.key = true →
      ∀ n' ∈ keptIf key.specified (n.setData (ruleUpdate perm invert)),
        key.meets n'.key = true ∧ n'.key.HasKind := by
    intro n hk hmeets n' hn'
    rw [keptIf] at hn'
    split at hn'
    · exact absurd hn' List.not_mem_nil
    · rw [List.mem_singleton.mp hn', AvtabNode.setData_key]
      exact ⟨hmeets, hk⟩
  cases hfind : avtabSearchNode m.db.teAvtab key with
  | some i =>
    obtain ⟨front, n, back, htable, rfl, hmeets, hothers⟩ := split_of_search (hwf.unique key he) hfind
    have hk : n.key.HasKind := hwf.kinds n (by rw [htable]; simp)
    have hnel : 0 < m.db.teAvtabNel := by
      rw [hwf.nel, htable]
      simp
    have hupdated := updateAvtabNode_updated perm invert he hm htable hnel hk hmeets
    have hrep : Replaces key [n] (keptIf key.specified (n.setData (ruleUpdate perm invert))) m.db.teAvtab
        ((updateAvtabNode perm invert front.length).run m).2.db.teAvtab :=
      ⟨⟨front, back, by rw [htable, List.append_assoc]; rfl, hupdated.table, hothers⟩,
        fun n' hn' => by rw [List.mem_singleton.mp hn']; exact hmeets, hkept n hk hmeets⟩
    have hvector : (n.setData (ruleUpdate perm invert)).vector =
        ruleUpdate perm invert (effectiveVector m.db.teAvtab key) := by
      rw [AvtabNode.setData_vector he hk hmeets, effectiveVector_of_singleton hrep.entries_before]
    have hstep := AvStep.of_replaces he hwf hrep hvector hupdated.allocs hupdated.types hupdated.classes
      hupdated.nel
    cases hstrip : invert && decide (key.specified ≠ AVTAB_AUDITDENY) with
    | false =>
      have hfound : m.db.teAvtab.findIdx? (isAvtabNode key noXperms) = some front.length := by
        rw [isAvtabNode_of_isAvEffect he]
        exact hfind
      have hget : (getAvtabNode key noXperms).run m = (some front.length, m) := by simp [getAvtabNode, hfound]
      simp only [Bool.false_eq_true, if_false, run_bind, hget]
      exact hstep
    | true =>
      simp only [if_true, run_bind, run_readDb, hfind, run_pure]
      exact hstep
  | none =>
    have hnone : ∀ n' ∈ m.db.teAvtab ++ [], key.meets n'.key = false := by
      rw [List.append_nil]
      exact List.findIdx?_eq_none_iff.mp hfind
    have habsent : effectiveVector m.db.teAvtab key = absentVector key.specified :=
      effectiveVector_of_nil (filter_of_false (List.findIdx?_eq_none_iff.mp hfind))
    cases hstrip : invert && decide (key.specified ≠ AVTAB_AUDITDENY) with
    | true =>
      -- nothing is there to be cleared
      rw [Bool.and_eq_true, decide_eq_true_eq] at hstrip
      simp only [if_true, run_bind, run_readDb, hfind, run_pure]
      have hrep : Replaces key [] (keptIf key.specified (freshNode key noXperms)) m.db.teAvtab m.db.teAvtab := by
        rw [keptIf, if_pos hfresh]
        exact ⟨⟨m.db.teAvtab, [], by simp, by simp, hnone⟩, fun n hn => absurd hn List.not_mem_nil,
          fun n hn => absurd hn List.not_mem_nil⟩
      refine AvStep.of_replaces he hwf hrep ?_ hm rfl rfl (by rw [keptIf, if_pos hfresh])
      rw [hfresh, habsent, hstrip.1, absentVector, if_neg hstrip.2]
      cases perm with
      | none => rfl
      | some p => exact BitVec.zero_and.symm
    | false =>
      obtain ⟨m₁, hget, hinserted⟩ := getAvtabNode_of_absent he noXperms hm hfind
      have hnel : 0 < m₁.db.teAvtabNel := by
        have hgrown := hinserted.nel
        simp only [List.length_nil, List.length_singleton] at hgrown
        omega
      have hupdated := hinserted.trans (updateAvtabNode_updated perm invert he hinserted.allocs
        (by rw [hinserted.table, List.append_assoc]; rfl) hnel hfreshKind hfreshMeets)
      have hrep : Replaces key [] (keptIf key.specified ((freshNode key noXperms).setData (ruleUpdate perm invert)))
          m.db.teAvtab ((updateAvtabNode perm invert m.db.teAvtab.length).run m₁).2.db.teAvtab :=
        ⟨⟨m.db.teAvtab, [], by simp, hupdated.table, hnone⟩, fun n hn => absurd hn List.not_mem_nil,
          hkept _ hfreshKind hfreshMeets⟩
      simp only [Bool.false_eq_true, if_false, run_bind, hget]
      refine AvStep.of_replaces he hwf hrep ?_ hupdated.allocs hupdated.types hupdated.classes hupdated.nel
      rw [AvtabNode.setData_vector he hfreshKind hfreshMeets, hfresh, habsent]

/-! ### All keys of a rule -/

/-- The operation is a step for `keys` in every state with the symbols of `db`. -/
def AvStepsFrom {α : Type} (update : BitVec 32 → BitVec 32) (keys : List AvtabKey) (db : Policydb)
    (x : PolicyM α) : Prop :=
  ∀ m, m.AllocsSucceed → AvtabWellFormed m.db → m.db.pTypes = db.pTypes → m.db.pClasses = db.pClasses →
    AvStep update keys m (x.run m).2

theorem forAllDatums_avStepsFrom {update : BitVec 32 → BitVec 32} (hidem : ∀ d, update (update d) = update d)
    {db : Policydb} {δ : Type} {f : δ → PolicyM Bool} {keysOf : δ → List AvtabKey} {ds : List δ}
    (hf : ∀ d ∈ ds, AvStepsFrom update (keysOf d) db (f d)) :
    AvStepsFrom update (ds.flatMap keysOf) db (forAllDatums f ds) := by
  induction ds with
  | nil => exact fun m hm hwf _ _ => AvStep.refl hm hwf
  | cons d ds ih =>
    intro m hm hwf htypes hclasses
    have hstep := hf d List.mem_cons_self m hm hwf htypes hclasses
    have hrest := ih (fun d' hd' => hf d' (List.mem_cons_of_mem d hd')) ((f d).run m).2 hstep.allocs
      hstep.wellFormed (hstep.types.trans htypes) (hstep.classes.trans hclasses)
    rw [List.flatMap_cons]
    exact hstep.append hidem hrest

section Rule

variable (perm : Option PermDatum) (invert : Bool) {effect : UInt16} (he : IsAvEffect effect) (db : Policydb)
include he

theorem addRuleRawCls_avStepsFrom (cls : Option ClassDatum) (src tgt : TypeDatum) :
    AvStepsFrom (ruleUpdate perm invert) ((targetClasses db cls).map fun c => ruleKey src tgt c effect) db
      (addRuleRawCls cls perm effect invert src tgt) := by
  cases cls with
  | some c => exact fun m hm hwf _ _ => addRuleRawLeaf_avStep perm invert he src tgt c hm hwf
  | none =>
    have hwalk : AvStepsFrom (ruleUpdate perm invert)
        (db.pClasses.datums.flatMap fun c => [ruleKey src tgt c effect]) db
        (forAllDatums (addRuleRawLeaf perm effect invert src tgt) db.pClasses.datums) :=
      forAllDatums_avStepsFrom (ruleUpdate_idem perm invert) fun c _ m hm hwf _ _ =>
        addRuleRawLeaf_avStep perm invert he src tgt c hm hwf
    intro m hm hwf htypes hclasses
    have hdatums : m.db.pClasses.datums = db.pClasses.datums := by rw [hclasses]
    rw [← List.flatMap_pure_eq_map]
    simp only [addRuleRawCls, run_bind, run_readDb, hdatums]
    exact hwalk m hm hwf htypes hclasses

theorem addRuleRawTgt_avStepsFrom (tgt : Option TypeDatum) (cls : Option ClassDatum) (src : TypeDatum) :
    AvStepsFrom (ruleUpdate perm invert)
      ((avTypes (stripAv effect invert) db tgt).flatMap fun t =>
        (targetClasses db cls).map fun c => ruleKey src t c effect) db
      (addRuleRawTgt tgt cls perm effect invert src) := by
  cases tgt with
  | some t =>
    rw [avTypes, List.flatMap_singleton]
    exact addRuleRawCls_avStepsFrom perm invert he db cls src t
  | none =>
    have hwalk := forAllDatums_avStepsFrom (ruleUpdate_idem perm invert)
      fun t (_ : t ∈ wildcardTypes (stripAv effect invert) db) =>
        addRuleRawCls_avStepsFrom perm invert he db cls src t
    intro m hm hwf htypes hclasses
    have htargets : wildcardTypes (stripAv effect invert) m.db = wildcardTypes (stripAv effect invert) db := by
      rw [wildcardTypes, wildcardTypes, htypes]
    simp only [addRuleRawTgt, run_bind, run_readDb, htargets]
    exact hwalk m hm hwf htypes hclasses

/-- **`add_rule_raw` is a step for the keys that the rule is about.** -/
theorem addRuleRaw_avStep (src tgt : Option TypeDatum) (cls : Option ClassDatum) :
    AvStepsFrom (ruleUpdate perm invert) (avKeys db src tgt cls effect invert) db
      (addRuleRaw src tgt cls perm effect invert) := by
  cases src with
  | some s =>
    rw [avKeys, avTypes, List.flatMap_singleton]
    exact addRuleRawTgt_avStepsFrom perm invert he db tgt cls s
  | none =>
    have hwalk := forAllDatums_avStepsFrom (ruleUpdate_idem perm invert)
      fun s (_ : s ∈ wildcardTypes (stripAv effect invert) db) =>
        addRuleRawTgt_avStepsFrom perm invert he db tgt cls s
    intro m hm hwf htypes hclasses
    have hsources : wildcardTypes (stripAv effect invert) m.db = wildcardTypes (stripAv effect invert) db := by
      rw [wildcardTypes, wildcardTypes, htypes]
    simp only [addRuleRaw, run_bind, run_readDb, hsources]
    exact hwalk m hm hwf htypes hclasses

end Rule

/-! ### Rules -/

/-- Whether a permission argument names the bit: a wildcard names them all. -/
def namesBit (perm : Option PermDatum) (j : ℕ) : Bool :=
  match perm with
  | none => true
  | some p => decide (j = valueBit p.value)

theorem getLsbD_ruleUpdate (perm : Option PermDatum) (invert : Bool) (d : BitVec 32) {j : ℕ} (hj : j < 32) :
    (ruleUpdate perm invert d).getLsbD j = if namesBit perm j then !invert else d.getLsbD j := by
  have hbit : ∀ p : PermDatum, (permBit p).getLsbD j = decide (j = valueBit p.value) := by
    intro p
    rw [permBit, BitVec.getLsbD_shiftLeft, valueBit]
    by_cases heq : j = (p.value - 1).toNat
    · simp [← heq, hj]
    · by_cases hlt : j < (p.value - 1).toNat
      · simp [hlt, heq]
      · have hpos : j - (p.value - 1).toNat ≠ 0 := by omega
        simp [hlt, heq, hpos]
  cases perm with
  | none =>
    cases invert with
    | false => exact BitVec.getLsbD_allOnes.trans (decide_eq_true hj)
    | true => exact BitVec.getLsbD_zero
  | some p =>
    cases invert with
    | false =>
      rw [ruleUpdate, BitVec.getLsbD_or, hbit, namesBit]
      cases decide (j = valueBit p.value) <;> simp
    | true =>
      rw [ruleUpdate, BitVec.getLsbD_and, BitVec.getLsbD_not, hbit, namesBit, decide_eq_true hj]
      cases decide (j = valueBit p.value) <;> simp

namespace AvKind

/-- Whether a rule sets bits or clears them. -/
def sets : AvKind → Bool
  | allow => true
  | deny => false
  | auditallow => true
  | dontaudit => false

/-- The types an argument expands to: a wildcard stands for all attributes, or for all types and attributes
when something is taken away. -/
def expandType (kind : AvKind) (db : Policydb) : Option TypeDatum → List TypeDatum
  | some t => [t]
  | none =>
    match kind with
    | deny => db.pTypes.datums
    | _ => db.pTypes.datums.filter (·.isAttribute)

/-- The keys that the arguments of a rule expand to. -/
def targets (kind : AvKind) (db : Policydb) (src tgt : Option TypeDatum) (cls : Option ClassDatum) :
    List AvtabKey :=
  (kind.expandType db src).flatMap fun s => (kind.expandType db tgt).flatMap fun t =>
    (targetClasses db cls).map fun c => ruleKey s t c kind.effect

theorem sets_eq (kind : AvKind) : kind.sets = !kind.invert := by cases kind <;> rfl

theorem targets_eq (kind : AvKind) (db : Policydb) (src tgt : Option TypeDatum) (cls : Option ClassDatum) :
    kind.targets db src tgt cls = avKeys db src tgt cls kind.effect kind.invert := by
  have htypes : ∀ t, kind.expandType db t = avTypes (stripAv kind.effect kind.invert) db t := by
    intro t
    cases t with
    | some t => rfl
    | none => cases kind <;> rfl
  rw [targets, avKeys, htypes src, htypes tgt]

end AvKind

/-- **What a rule is to do**: the named bits of its targets are set or cleared, and nothing else changes. -/
structure ChangesTargets (kind : AvKind) (perm : Option PermDatum) (keys : List AvtabKey)
    (db db' : Policydb) : Prop where
  vectors : ∀ key ∈ keys, ∀ j < 32, (effectiveVector db'.teAvtab key).getLsbD j =
    if namesBit perm j then kind.sets else (effectiveVector db.teAvtab key).getLsbD j
  frame : ∀ key, IsAvEffect key.specified → key ∉ keys →
    effectiveVector db'.teAvtab key = effectiveVector db.teAvtab key
  others : (db'.teAvtab.filter fun n => !n.isAv) = db.teAvtab.filter fun n => !n.isAv
  nel : db'.teAvtabNel + db.teAvtab.length = db.teAvtabNel + db'.teAvtab.length
  informative : ∀ key ∈ keys, ∀ n ∈ entries db'.teAvtab key, n.vector ≠ absentVector key.specified

section KsuAv

variable (kind : AvKind) {m : PolicyMem} (hm : m.AllocsSucceed) (hwf : AvtabWellFormed m.db)
  {src tgt cls perm : Option Name} {s t : Option TypeDatum} {c : Option ClassDatum} {p : Option PermDatum}
  (hs : lookupOrAll m.db.pTypes src = some s) (ht : lookupOrAll m.db.pTypes tgt = some t)
  (hc : lookupOrAll m.db.pClasses cls = some c) (hp : lookupPerm c perm = some p)
include hm hwf hs ht hc hp

theorem ksuAv_avStep :
    AvStep (ruleUpdate p kind.invert) (kind.targets m.db s t c) m ((ksuAv kind src tgt cls perm).run m).2 := by
  rw [ksuAv_eq, kind.targets_eq]
  simp only [addRule, run_bind, run_readDb, hs, ht, hc, hp]
  exact addRuleRaw_avStep p kind.invert kind.isAvEffect m.db s t c m hm hwf rfl rfl

/-- **Access-vector rules change exactly their targets.** -/
theorem ksuAv_changesTargets :
    ChangesTargets kind p (kind.targets m.db s t c) m.db ((ksuAv kind src tgt cls perm).run m).2.db := by
  have hstep := ksuAv_avStep kind hm hwf hs ht hc hp
  refine ⟨?_, ?_, hstep.others, ?_, hstep.informative⟩
  · intro key hkey j hj
    rw [hstep.vectors key hkey, getLsbD_ruleUpdate p kind.invert _ hj, kind.sets_eq]
  · intro key he hkey
    rw [effectiveVector, effectiveVector, hstep.frame key he hkey]
  · rw [hstep.wellFormed.nel, hwf.nel, Nat.add_comm]

end KsuAv

/-- A domain that may do everything to an object type. -/
def allowedMem : PolicyMem :=
  PolicyMem.ofDb { ioctlMem.db with
    teAvtab := [⟨⟨1, 2, 1, AVTAB_ALLOWED⟩, .data (BitVec.allOnes 32), rfl⟩]
    teAvtabNel := 1 }

/-- `deny * * * *` on it. -/
theorem ksuAv_changesTargets_denyAll :
    ChangesTargets .deny none (AvKind.deny.targets allowedMem.db none none none) allowedMem.db
      ((ksuDeny none none none none).run allowedMem).2.db := by
  have hwf : AvtabWellFormed allowedMem.db := by
    refine ⟨?_, fun key _ => List.length_filter_le _ _, rfl⟩
    intro n hn
    rw [List.mem_singleton.mp hn]
    exact hasKind_of_isAvEffect (.inl rfl)
  exact ksuAv_changesTargets .deny (by decide) hwf rfl rfl rfl rfl

/-- The table stays one that Linux accepts, whatever the arguments are. -/
theorem ksuAv_wellFormed (kind : AvKind) (src tgt cls perm : Option Name) {m : PolicyMem}
    (hm : m.AllocsSucceed) (hwf : AvtabWellFormed m.db) :
    AvtabWellFormed ((ksuAv kind src tgt cls perm).run m).2.db := by
  cases hs : lookupOrAll m.db.pTypes src with
  | none => simpa [ksuAv_eq, addRule, hs] using hwf
  | some s =>
  cases ht : lookupOrAll m.db.pTypes tgt with
  | none => simpa [ksuAv_eq, addRule, hs, ht] using hwf
  | some t =>
  cases hc : lookupOrAll m.db.pClasses cls with
  | none => simpa [ksuAv_eq, addRule, hs, ht, hc] using hwf
  | some c =>
  cases hp : lookupPerm c perm with
  | none => simpa [ksuAv_eq, addRule, hs, ht, hc, hp] using hwf
  | some p => exact (ksuAv_avStep kind hm hwf hs ht hc hp).wellFormed

end KernelSU.Selinux
