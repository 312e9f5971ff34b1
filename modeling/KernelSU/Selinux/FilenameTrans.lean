import KernelSU.Lib.FirstMatch
import KernelSU.Selinux.Sepolicy

/-!
# Filename transitions: which lookups a `type_transition` rule with an object name changes

A filename transition table maps (target type, class, object name) to a chain of datums, and a source
gets the output type of the first datum whose set contains it (`filenameType`, the lookup of
`filename_compute_type`).  A rule `type_transition S T C D O` should make `(S, T, C, O)` answer `D` and
leave every other answer alone.

`add_filename_trans` walks the chain and stops at the first datum that has the source or the wanted
output type (`walkChain_spec`).  What it then does depends on where it stopped:

* at a datum with the source, it overwrites that datum's output type, for all the sources the datum
  answers;
* at a datum with the output type, it adds the source to it;
* past the end, it makes a new datum and inserts it under the key with `hashtab_insert`, which refuses
  the key when the chain is there already.

So the rule does what it should exactly on the chains `ChainAdmits` describes
(`ksuTypeTransition_setsOnlyOwnKey_iff`), and on every other chain it fails or changes the answer of
another source.
-/

namespace KernelSU.Selinux

open KernelSU.Lib.FirstMatch

/-- Whether a datum has a source, by the source's bit. -/
def FilenameTransDatum.covers (d : FilenameTransDatum) (bit : ℕ) : Bool :=
  ebitmapGetBit d.stypes bit

/-- The position of the datum that answers a bit. -/
abbrev chainDecider (chain : List FilenameTransDatum) (bit : ℕ) : Option ℕ :=
  decider FilenameTransDatum.covers chain bit

/-- The answer of a chain to a bit. -/
abbrev chainType (chain : List FilenameTransDatum) (bit : ℕ) : Option UInt32 :=
  firstMatch FilenameTransDatum.covers FilenameTransDatum.otype chain bit

/-- The table of filename transitions of a database. -/
abbrev FilenameTable := AList fun _ : FilenameTransKey => List FilenameTransDatum

/-- The chain under a key; a missing key has none. -/
def chainOf (table : FilenameTable) (key : FilenameTransKey) : List FilenameTransDatum :=
  (table.lookup key).getD []

/-- The lookup: the type an object gets when `stype` creates it. -/
def filenameType (table : FilenameTable) (stype ttype : UInt32) (tclass : UInt16) (name : Name) :
    Option UInt32 :=
  chainType (chainOf table ⟨ttype, tclass, name⟩) (valueBit stype)

/-! ### The walk -/

/-- What the end of the walk says about the chain. -/
def StopMeans (bit : ℕ) (otype : UInt32) (chain : List FilenameTransDatum) : ChainStop → Prop
  | .hasSource i => chainDecider chain bit = some i ∧
      ∀ j < i, ∀ d, chain[j]? = some d → d.otype ≠ otype
  | .hasType i => (∃ d, chain[i]? = some d ∧ d.otype = otype) ∧
      ∀ j ≤ i, ∀ d, chain[j]? = some d → bit ∉ d.stypes
  | .exhausted => ∀ d ∈ chain, bit ∉ d.stypes ∧ d.otype ≠ otype

/-- Shift the position the walk reports. -/
def ChainStop.shift (k : ℕ) : ChainStop → ChainStop
  | .hasSource i => .hasSource (k + i)
  | .hasType i => .hasType (k + i)
  | .exhausted => .exhausted

theorem walkChain_shift (bit : ℕ) (otype : UInt32) (k : ℕ) (chain : List FilenameTransDatum) :
    walkChain bit otype k chain = (walkChain bit otype 0 chain).shift k := by
  have key : ∀ chain k j,
      walkChain bit otype (k + j) chain = (walkChain bit otype j chain).shift k := by
    intro chain
    induction chain with
    | nil => intro k j; rfl
    | cons d ds ih =>
      intro k j
      simp only [walkChain]
      split
      · rfl
      · split
        · rfl
        · rw [Nat.add_assoc, ih]
  exact key chain k 0

/-- **The walk stops where it says.** -/
theorem walkChain_spec (bit : ℕ) (otype : UInt32) (chain : List FilenameTransDatum) :
    StopMeans bit otype chain (walkChain bit otype 0 chain) := by
  induction chain with
  | nil => intro d hd; cases hd
  | cons d ds ih =>
    rw [walkChain]
    by_cases hb : ebitmapGetBit d.stypes bit = true
    · have hcov : d.covers bit = true := hb
      rw [if_pos hb]
      refine ⟨?_, fun j hj => absurd hj (Nat.not_lt_zero j)⟩
      rw [chainDecider, decider_cons, if_pos hcov]
    · have hnot : bit ∉ d.stypes := fun h => hb (ebitmapGetBit_eq_true.mpr h)
      have hcov : ¬ d.covers bit = true := hb
      rw [if_neg hb]
      by_cases ho : d.otype = otype
      · rw [if_pos ho]
        refine ⟨⟨d, rfl, ho⟩, ?_⟩
        intro j hj d' hd'
        obtain rfl : j = 0 := Nat.le_zero.mp hj
        simp only [List.getElem?_cons_zero, Option.some.injEq] at hd'
        rw [← hd']
        exact hnot
      · rw [if_neg ho, walkChain_shift]
        cases hw : walkChain bit otype 0 ds with
        | hasSource i =>
          rw [hw] at ih
          refine ⟨?_, ?_⟩
          · rw [chainDecider, decider_cons, if_neg hcov]
            show Option.map _ (chainDecider ds bit) = _
            rw [ih.1, Option.map_some, Nat.add_comm]
          · intro j hj d' hd'
            cases j with
            | zero =>
              simp only [List.getElem?_cons_zero, Option.some.injEq] at hd'
              rw [← hd']
              exact ho
            | succ j => exact ih.2 j (by omega) d' hd'
        | hasType i =>
          rw [hw] at ih
          obtain ⟨⟨d₁, hd₁, ho₁⟩, hbefore⟩ := ih
          refine ⟨⟨d₁, ?_, ho₁⟩, ?_⟩
          · rw [Nat.add_comm, List.getElem?_cons_succ]
            exact hd₁
          · intro j hj d' hd'
            cases j with
            | zero =>
              simp only [List.getElem?_cons_zero, Option.some.injEq] at hd'
              rw [← hd']
              exact hnot
            | succ j => exact hbefore j (by omega) d' hd'
        | exhausted =>
          rw [hw] at ih
          intro d' hd'
          rcases List.mem_cons.mp hd' with rfl | hmem
          · exact ⟨hnot, ho⟩
          · exact ih d' hmem

/-! ### What the rule does to the table -/

/-- The chain after the source joined the datum at `i`. -/
def joinChain (chain : List FilenameTransDatum) (i bit : ℕ) : List FilenameTransDatum :=
  chain.modify i fun d => { d with stypes := insert bit d.stypes }

/-- The chain after the datum at `i` got a new output type. -/
def retypeChain (chain : List FilenameTransDatum) (i : ℕ) (otype : UInt32) :
    List FilenameTransDatum :=
  chain.modify i fun d => { d with otype := otype }

/-- The result of the rule: whether it reports success, and the table it leaves. -/
def ruleEffect (table : FilenameTable) (key : FilenameTransKey) (bit : ℕ) (otype : UInt32) :
    Bool × FilenameTable :=
  match walkChain bit otype 0 (chainOf table key) with
  | .hasSource i => (true, table.replace key (retypeChain (chainOf table key) i otype))
  | .hasType i => (true, table.replace key (joinChain (chainOf table key) i bit))
  | .exhausted =>
    if key ∈ table then (false, table) else (true, table.insert key [⟨{bit}, otype⟩])

/-- Adding the source to the datum at `i` of the chain under `key`. -/
theorem addSource_run (key : FilenameTransKey) (chain : List FilenameTransDatum) (i bit : ℕ)
    {d : FilenameTransDatum} (hd : chain[i]? = some d) {m : PolicyMem} (hm : m.AllocsSucceed) :
    ((addSource key chain i bit).run m).1 = true ∧
      ((addSource key chain i bit).run m).2.db.filenameTrans =
        m.db.filenameTrans.replace key (joinChain chain i bit) := by
  obtain ⟨m', hrun, hdb, -⟩ := ebitmapSetBit_true_of_succeed d.stypes bit
    (m := { m with db :=
      { m.db with compatFilenameTransCount := m.db.compatFilenameTransCount + 1 } }) hm
  have hjoin : joinChain chain i bit = chain.set i { d with stypes := insert bit d.stypes } := by
    rw [joinChain, List.modify_eq_set_getElem?, hd]
    rfl
  have hrun' : (addSource key chain i bit).run m =
      (true, { m' with db :=
        { m'.db with filenameTrans := m'.db.filenameTrans.replace key (joinChain chain i bit) } }) := by
    simp only [addSource, run_bind, run_modifyDb, hd, hrun, setChain, run_pure, hjoin]
  rw [hrun']
  refine ⟨rfl, ?_⟩
  show m'.db.filenameTrans.replace key (joinChain chain i bit) = _
  rw [hdb]

/-- With allocations succeeding, an absent key is inserted and a present one is refused. -/
theorem filenameTransInsert_run (key : FilenameTransKey) (chain : List FilenameTransDatum)
    {m : PolicyMem} (hm : m.AllocsSucceed) :
    (key ∈ m.db.filenameTrans → (filenameTransInsert key chain).run m = (false, m)) ∧
      (key ∉ m.db.filenameTrans → ∃ m', (filenameTransInsert key chain).run m = (true, m') ∧
        m'.db.filenameTrans = m.db.filenameTrans.insert key chain ∧ m'.AllocsSucceed) := by
  constructor
  · intro hk
    simp [filenameTransInsert, hk]
  · intro hk
    obtain ⟨m', hrun, hdb, hs⟩ := run_kalloc_of_succeed hm
    refine ⟨{ m' with db := { m'.db with filenameTrans := m'.db.filenameTrans.insert key chain } },
      ?_, ?_, hs⟩
    · simp [filenameTransInsert, hk, hrun]
    · show m'.db.filenameTrans.insert key chain = _
      rw [hdb]

section Run

variable {m : PolicyMem} {s t c d o : Name} {src tgt dflt : TypeDatum} {cls : ClassDatum}

/-- The key of a rule. -/
def transKey (tgt : TypeDatum) (cls : ClassDatum) (o : Name) : FilenameTransKey :=
  ⟨tgt.value, cls.value.toUInt16, o⟩

/-- **`add_filename_trans` does what `ruleEffect` says**, with its four names there and allocations
succeeding. -/
theorem addFilenameTrans_run (hm : m.AllocsSucceed) (hs : symtabSearch m.db.pTypes s = some src)
    (ht : symtabSearch m.db.pTypes t = some tgt) (hc : symtabSearch m.db.pClasses c = some cls)
    (hd : symtabSearch m.db.pTypes d = some dflt) :
    (((addFilenameTrans s t c d o).run m).1,
        ((addFilenameTrans s t c d o).run m).2.db.filenameTrans) =
      ruleEffect m.db.filenameTrans (transKey tgt cls o) (valueBit src.value) dflt.value := by
  have hspec := walkChain_spec (valueBit src.value) dflt.value
    (chainOf m.db.filenameTrans (transKey tgt cls o))
  rw [ruleEffect]
  cases hw : walkChain (valueBit src.value) dflt.value 0
      (chainOf m.db.filenameTrans (transKey tgt cls o)) with
  | hasSource i =>
    rw [chainOf, transKey] at hw
    simp only [addFilenameTrans, run_bind, run_readDb, hs, ht, hc, hd, hw, setChain, run_modifyDb,
      run_pure]
    rfl
  | hasType i =>
    rw [hw] at hspec
    obtain ⟨⟨e, he, -⟩, -⟩ := hspec
    obtain ⟨h₁, h₂⟩ := addSource_run (transKey tgt cls o) _ i (valueBit src.value) he hm
    rw [chainOf, transKey] at hw h₁ h₂
    simp only [addFilenameTrans, run_bind, run_readDb, hs, ht, hc, hd, hw]
    exact Prod.ext h₁ h₂
  | exhausted =>
    rw [chainOf, transKey] at hw
    obtain ⟨m₁, hrun₁, hdb₁, hm₁⟩ := run_kalloc_of_succeed hm
    obtain ⟨m₂, hrun₂, hdb₂, hm₂⟩ := run_kalloc_of_succeed hm₁
    obtain ⟨m₃, hrun₃, hdb₃, hm₃⟩ := run_kalloc_of_succeed hm₂
    have hdb : m₃.db = m.db := hdb₃.trans (hdb₂.trans hdb₁)
    simp only [addFilenameTrans, run_bind, run_readDb, hs, ht, hc, hd, hw, hrun₁, hrun₂, hrun₃,
      Bool.not_true, Bool.false_eq_true, if_false]
    by_cases hk : transKey tgt cls o ∈ m.db.filenameTrans
    · rw [if_pos hk]
      have hins := (filenameTransInsert_run (transKey tgt cls o) (⟨∅, dflt.value⟩ ::
        (chainOf m.db.filenameTrans (transKey tgt cls o)).getLast?.toList) hm₃).1 (hdb ▸ hk)
      rw [chainOf, transKey] at hins
      rw [hins]
      show (false, m₃.db.filenameTrans) = _
      rw [hdb]
    · rw [if_neg hk]
      have hnil : m.db.filenameTrans.lookup (transKey tgt cls o) = none :=
        AList.lookup_eq_none.mpr hk
      obtain ⟨m₄, hins, htab, hm₄⟩ := (filenameTransInsert_run (transKey tgt cls o)
        [⟨∅, dflt.value⟩] hm₃).2 (hdb ▸ hk)
      obtain ⟨h₁, h₂⟩ := addSource_run (transKey tgt cls o) [⟨∅, dflt.value⟩] 0
        (valueBit src.value) rfl hm₄
      rw [htab, hdb, replace_insert] at h₂
      rw [transKey] at hnil hins h₁ h₂
      rw [hnil]
      simp only [Option.getD_none, List.getLast?_nil, Option.toList_none, hins, if_true]
      exact Prod.ext h₁ h₂

end Run

/-! ### Which answers the rule changes -/

/-- **What the rule is for:** its own key and source answer `otype`, and every other source and key
answers what it did. -/
structure OnlyOwnAnswer (before after : FilenameTable) (stype : UInt32) (key : FilenameTransKey)
    (otype : UInt32) : Prop where
  own : filenameType after stype key.ttype key.tclass key.name = some otype
  others : ∀ stype' key', (stype', key') ≠ (stype, key) →
    filenameType after stype' key'.ttype key'.tclass key'.name =
      filenameType before stype' key'.ttype key'.tclass key'.name

/-- **The tables the rule fits.**  The key is new; or a datum with the output type comes before every
datum with the source; or the source has that answer already; or no other source shares the datum that
answers it. -/
def RuleFits (table : FilenameTable) (stype : UInt32) (key : FilenameTransKey) (otype : UInt32) :
    Prop :=
  key ∉ table ∨
    (∃ i : ℕ, ∃ d : FilenameTransDatum, (chainOf table key)[i]? = some d ∧ d.otype = otype ∧
      ∀ j ≤ i, ∀ d' : FilenameTransDatum, (chainOf table key)[j]? = some d' →
        valueBit stype ∉ d'.stypes) ∨
    chainType (chainOf table key) (valueBit stype) = some otype ∨
    ∃ i, chainDecider (chainOf table key) (valueBit stype) = some i ∧
      ∀ stype' ≠ stype, chainDecider (chainOf table key) (valueBit stype') ≠ some i

theorem chainOf_replace (table : FilenameTable) (key key' : FilenameTransKey)
    (chain : List FilenameTransDatum) (hk : key ∈ table) :
    chainOf (table.replace key chain) key' = if key' = key then chain else chainOf table key' := by
  rw [chainOf, lookup_replace]
  by_cases h : key' = key
  · obtain ⟨old, hold⟩ := Option.isSome_iff_exists.mp (AList.lookup_isSome.mpr hk)
    rw [if_pos h, if_pos h, hold]
    rfl
  · rw [if_neg h, if_neg h, chainOf]

theorem chainOf_insert (table : FilenameTable) (key key' : FilenameTransKey)
    (chain : List FilenameTransDatum) :
    chainOf (table.insert key chain) key' = if key' = key then chain else chainOf table key' := by
  by_cases h : key' = key
  · rw [if_pos h, h, chainOf, AList.lookup_insert]
    rfl
  · rw [if_neg h, chainOf, AList.lookup_insert_ne h, chainOf]

/-- A key whose chain has a datum is in the table. -/
theorem mem_of_chainOf {table : FilenameTable} {key : FilenameTransKey} {i : ℕ}
    {d : FilenameTransDatum} (h : (chainOf table key)[i]? = some d) : key ∈ table := by
  by_contra hk
  rw [chainOf, AList.lookup_eq_none.mpr hk] at h
  cases h

/-- A table that differs from another only in the chain of `key` answers the rule's purpose when that
chain does. -/
theorem onlyOwnAnswer_iff {before after : FilenameTable} {key : FilenameTransKey}
    {chain : List FilenameTransDatum} {stype otype : UInt32}
    (h : ∀ key', chainOf after key' = if key' = key then chain else chainOf before key') :
    OnlyOwnAnswer before after stype key otype ↔
      chainType chain (valueBit stype) = some otype ∧
        ∀ stype' ≠ stype, chainType chain (valueBit stype') =
          chainType (chainOf before key) (valueBit stype') := by
  have hkey : chainOf after key = chain := by rw [h key, if_pos rfl]
  constructor
  · rintro ⟨hown, hothers⟩
    refine ⟨?_, fun stype' hne => ?_⟩
    · rw [← hkey]
      exact hown
    · rw [← hkey]
      exact hothers stype' key fun heq => hne (Prod.mk.inj heq).1
  · rintro ⟨hown, hothers⟩
    refine ⟨?_, fun stype' key' hne => ?_⟩
    · show chainType (chainOf after key) (valueBit stype) = some otype
      rw [hkey]
      exact hown
    · show chainType (chainOf after key') (valueBit stype') =
        chainType (chainOf before key') (valueBit stype')
      by_cases hk : key' = key
      · rw [hk, hkey]
        exact hothers stype' fun hs => hne (by rw [hs, hk])
      · rw [h key', if_neg hk]

/-- A source that joins a datum before any datum with it gets that datum's answer, alone. -/
theorem chainType_joinChain {chain : List FilenameTransDatum} {i bit : ℕ} {d : FilenameTransDatum}
    (hi : chain[i]? = some d) (hfirst : ∀ j ≤ i, ∀ d', chain[j]? = some d' → bit ∉ d'.stypes)
    (bit' : ℕ) :
    chainType (joinChain chain i bit) bit' =
      if bit' = bit then some d.otype else chainType chain bit' := by
  have hjoin : joinChain chain i bit = chain.set i { d with stypes := insert bit d.stypes } := by
    rw [joinChain, List.modify_eq_set_getElem?, hi]
    rfl
  by_cases hb : bit' = bit
  · rw [if_pos hb, hb]
    have hget : (joinChain chain i bit)[i]? = some { d with stypes := insert bit d.stypes } := by
      rw [joinChain, List.getElem?_modify_eq, hi]
      rfl
    have hdec : chainDecider (joinChain chain i bit) bit = some i := by
      refine decider_eq_of_first hget (ebitmapGetBit_eq_true.mpr (Finset.mem_insert_self _ _)) ?_
      intro j hj d' hd'
      rw [joinChain, List.getElem?_modify_ne _ _ (Nat.ne_of_gt hj)] at hd'
      exact Bool.eq_false_iff.mpr fun h => hfirst j (by omega) d' hd' (ebitmapGetBit_eq_true.mp h)
    obtain ⟨r, hr, -, hv⟩ := firstMatch_of_decider FilenameTransDatum.otype hdec
    rw [hget] at hr
    cases hr
    exact hv
  · rw [if_neg hb, hjoin]
    refine firstMatch_set_congr hi ?_ rfl
    show decide (bit' ∈ d.stypes) = decide (bit' ∈ insert bit d.stypes)
    rw [decide_eq_decide, Finset.mem_insert]
    exact ⟨Or.inr, fun h => h.resolve_left hb⟩

/-- A new output type at one datum is the answer of every source that datum decides. -/
theorem chainType_retypeChain (chain : List FilenameTransDatum) (i : ℕ) (otype : UInt32) (bit : ℕ) :
    chainType (retypeChain chain i otype) bit =
      if chainDecider chain bit = some i then some otype else chainType chain bit :=
  firstMatch_modify_value (fun _ => rfl) fun _ => rfl

/-- **The effect is the purpose exactly on the tables the rule fits.** -/
theorem ruleEffect_onlyOwnAnswer_iff (table : FilenameTable) (stype : UInt32)
    (key : FilenameTransKey) (otype : UInt32) :
    ((ruleEffect table key (valueBit stype) otype).1 = true ∧
      OnlyOwnAnswer table (ruleEffect table key (valueBit stype) otype).2 stype key otype) ↔
      RuleFits table stype key otype := by
  have hspec := walkChain_spec (valueBit stype) otype (chainOf table key)
  rw [ruleEffect]
  cases hw : walkChain (valueBit stype) otype 0 (chainOf table key) with
  | hasSource i =>
    rw [hw] at hspec
    obtain ⟨hdec, hbefore⟩ := hspec
    obtain ⟨d, hd, hcov, htype⟩ :=
      firstMatch_of_decider FilenameTransDatum.otype hdec
    have hmem : key ∈ table := mem_of_chainOf hd
    have hin : valueBit stype ∈ d.stypes := ebitmapGetBit_eq_true.mp hcov
    rw [onlyOwnAnswer_iff fun key' => chainOf_replace table key key' _ hmem]
    simp only [true_and, chainType_retypeChain, hdec, if_true]
    constructor
    · intro hothers
      by_cases hd' : d.otype = otype
      · exact Or.inr (Or.inr (Or.inl (by rw [← hd']; exact htype)))
      · refine Or.inr (Or.inr (Or.inr ⟨i, hdec, fun stype' hne hdec' => hd' ?_⟩))
        -- the sibling keeps its answer only if the datum's type does not change
        have hsib := hothers stype' hne
        obtain ⟨d₁, hd₁, -, htype₁⟩ :=
          firstMatch_of_decider FilenameTransDatum.otype hdec'
        rw [if_pos hdec'] at hsib
        rw [hd] at hd₁
        cases hd₁
        exact (Option.some.inj (hsib.trans htype₁)).symm
    · rintro (hno | ⟨i', d', hi', ho', hfirst⟩ | hhas | ⟨i', hdec', halone⟩) stype' hne
      · exact absurd hmem hno
      · rcases Nat.lt_or_ge i' i with hlt | hge
        · exact absurd ho' (hbefore i' hlt d' hi')
        · exact absurd hin (hfirst i hge d hd)
      · by_cases hsib : chainDecider (chainOf table key) (valueBit stype') = some i
        · obtain ⟨d₁, hd₁, -, htype₁⟩ :=
            firstMatch_of_decider FilenameTransDatum.otype hsib
          rw [hd] at hd₁
          cases hd₁
          rw [if_pos hsib]
          exact hhas.symm.trans (htype.trans htype₁.symm)
        · rw [if_neg hsib]
      · rw [hdec] at hdec'
        cases hdec'
        rw [if_neg (halone stype' hne)]
  | hasType i =>
    rw [hw] at hspec
    obtain ⟨⟨d, hd, ho⟩, hfirst⟩ := hspec
    have hmem : key ∈ table := mem_of_chainOf hd
    rw [onlyOwnAnswer_iff fun key' => chainOf_replace table key key' _ hmem]
    refine ⟨fun _ => Or.inr (Or.inl ⟨i, d, hd, ho, hfirst⟩), fun _ => ⟨rfl, ?_, ?_⟩⟩
    · rw [chainType_joinChain hd hfirst, if_pos rfl, ho]
    · intro stype' hne
      rw [chainType_joinChain hd hfirst, if_neg fun h => hne (valueBit_injective h)]
  | exhausted =>
    rw [hw] at hspec
    have hnone : ∀ i, chainDecider (chainOf table key) (valueBit stype) ≠ some i := by
      intro i hdec
      obtain ⟨d, hd, hcov, -⟩ := firstMatch_of_decider FilenameTransDatum.otype hdec
      exact (hspec d (List.mem_of_getElem? hd)).1 (ebitmapGetBit_eq_true.mp hcov)
    by_cases hmem : key ∈ table
    · simp only [if_pos hmem, Bool.false_eq_true, false_and, false_iff]
      rintro (hno | ⟨i, d, hd, ho, -⟩ | hhas | ⟨i, hdec, -⟩)
      · exact hno hmem
      · exact (hspec d (List.mem_of_getElem? hd)).2 ho
      · obtain ⟨d, hfind, -⟩ := Option.map_eq_some_iff.mp hhas
        have hcov : d.covers (valueBit stype) = true := by simpa using List.find?_some hfind
        exact (hspec d (List.mem_of_find?_eq_some hfind)).1 (ebitmapGetBit_eq_true.mp hcov)
      · exact hnone i hdec
    · have hempty : chainOf table key = [] := by
        rw [chainOf, AList.lookup_eq_none.mpr hmem]
        rfl
      rw [if_neg hmem, onlyOwnAnswer_iff fun key' => chainOf_insert table key key' _]
      refine ⟨fun _ => Or.inl hmem, fun _ => ⟨rfl, ?_, fun stype' hne => ?_⟩⟩
      · rw [chainType, firstMatch_cons, if_pos]
        exact ebitmapGetBit_eq_true.mpr (Finset.mem_singleton_self _)
      · rw [hempty, chainType, firstMatch_cons, if_neg]
        intro h
        exact hne (valueBit_injective (Finset.mem_singleton.mp (ebitmapGetBit_eq_true.mp h)))

/-- **A rule with an object name changes its own answer and no other exactly on the tables it fits**,
with its four names there and allocations succeeding. -/
theorem ksuTypeTransition_onlyOwnAnswer_iff {m : PolicyMem} {s t c d : Name} (o : Name)
    {src tgt dflt : TypeDatum} {cls : ClassDatum} (hm : m.AllocsSucceed)
    (hs : symtabSearch m.db.pTypes s = some src) (ht : symtabSearch m.db.pTypes t = some tgt)
    (hc : symtabSearch m.db.pClasses c = some cls) (hd : symtabSearch m.db.pTypes d = some dflt) :
    (((ksuTypeTransition s t c d (some o)).run m).1 = true ∧
      OnlyOwnAnswer m.db.filenameTrans
        ((ksuTypeTransition s t c d (some o)).run m).2.db.filenameTrans
        src.value (transKey tgt cls o) dflt.value) ↔
      RuleFits m.db.filenameTrans src.value (transKey tgt cls o) dflt.value := by
  have hrun := addFilenameTrans_run (o := o) hm hs ht hc hd
  rw [← ruleEffect_onlyOwnAnswer_iff, ← hrun]
  rfl

/-! ### Two sources in one datum -/

/-- Two domains, an executable type and two output types. -/
def twoDomainTypes : List (Name × TypeDatum) :=
  [([1], ⟨1, true, false⟩), ([2], ⟨2, true, false⟩), ([3], ⟨3, true, false⟩),
    ([4], ⟨4, true, false⟩), ([5], ⟨5, true, false⟩)]

/-- The class `file`, without permissions. -/
def fileClass : ClassDatum := ⟨1, Symtab.ofList [], none, []⟩

/-- A policy in which the domains of `stypes` get type 4 for the name `[9]`. -/
def oneDatumMem (stypes : Ebitmap) : PolicyMem :=
  PolicyMem.ofDb
    { Policydb.ofSymbols twoDomainTypes [([6], fileClass)] with
      filenameTrans := AList.singleton ⟨3, 1, [9]⟩ [⟨stypes, 4⟩] }

/-- On a table the rule fits (the key has no chain yet), it does what it is for. -/
theorem ksuTypeTransition_onlyOwnAnswer_newName :
    ((ksuTypeTransition [1] [3] [6] [5] (some [8])).run (oneDatumMem {0, 1})).1 = true ∧
      OnlyOwnAnswer (oneDatumMem {0, 1}).db.filenameTrans
        ((ksuTypeTransition [1] [3] [6] [5] (some [8])).run
          (oneDatumMem {0, 1})).2.db.filenameTrans
        1 ⟨3, 1, [8]⟩ 5 :=
  (ksuTypeTransition_onlyOwnAnswer_iff [8] (by decide : (oneDatumMem {0, 1}).AllocsSucceed)
    (rfl : symtabSearch _ [1] = some ⟨1, true, false⟩)
    (rfl : symtabSearch _ [3] = some ⟨3, true, false⟩) (rfl : symtabSearch _ [6] = some fileClass)
    (rfl : symtabSearch _ [5] = some ⟨5, true, false⟩)).mpr (Or.inl (by decide))

/-- **A new type for one domain relabels the other one.**  Domains 1 and 2 share a datum, a rule for
domain 1 overwrites its type, and domain 2 gets the new type too.  Where only domain 2 has the datum,
the rule for domain 1 is refused, because the key is there. -/
theorem ksuTypeTransition_relabels_sibling :
    (∀ stypes : Ebitmap, (oneDatumMem stypes).AllocsSucceed ∧
      symtabSearch (oneDatumMem stypes).db.pTypes [1] = some ⟨1, true, false⟩ ∧
      symtabSearch (oneDatumMem stypes).db.pTypes [3] = some ⟨3, true, false⟩ ∧
      symtabSearch (oneDatumMem stypes).db.pClasses [6] = some fileClass ∧
      symtabSearch (oneDatumMem stypes).db.pTypes [5] = some ⟨5, true, false⟩) ∧
    ¬ OnlyOwnAnswer (oneDatumMem {0, 1}).db.filenameTrans
      ((ksuTypeTransition [1] [3] [6] [5] (some [9])).run (oneDatumMem {0, 1})).2.db.filenameTrans
      1 ⟨3, 1, [9]⟩ 5 ∧
    ((ksuTypeTransition [1] [3] [6] [5] (some [9])).run (oneDatumMem {1})).1 = false := by
  refine ⟨fun stypes => ⟨List.forall_mem_nil _, rfl, rfl, rfl, rfl⟩, fun h => ?_,
    by decide⟩
  -- domain 2 answered 4 before the rule and answers 5 after it
  have hsib := h.others 2 ⟨3, 1, [9]⟩ (by decide)
  revert hsib
  decide

end KernelSU.Selinux
