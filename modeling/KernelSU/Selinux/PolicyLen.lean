import KernelSU.Selinux.AvtabLen

/-!
# `policydb.len` against what `policydb_write` emits

What is emitted for an access-vector entry is 12 bytes, or 42 with extended permissions: an insertion leaves
`len` on the safe side, and a removal takes the surplus back.  Nothing else that an operation adds is counted.

* `RuleOp.exec_books`, `runRules_books` — **PROVED**: a harmless operation keeps the books, and so does a
  sequence of them;
* `policyLen_suffices` — **PROVED**: the buffer is large enough after every sequence of harmless operations;
* `policyLen_deny` — **PROVED**: it is too small after a loaded rule was denied.
-/

namespace KernelSU.Selinux

open KernelSU.Lib

/-! ### What an operation costs -/

/-- The books of one operation: `len` moves with the numbers of entries, at most `lost` access-vector entries
are lost, and nothing is added outside the table. -/
structure Books (fmt : BinaryFormat) (lost : ℕ) (db db' : Policydb) : Prop where
  len : db.len + 16 * avCount db'.teAvtab + 50 * xpermCount db'.teAvtab ≤
    db'.len + 16 * avCount db.teAvtab + 50 * xpermCount db.teAvtab
  xperms : xpermCount db.teAvtab ≤ xpermCount db'.teAvtab
  kept : avCount db.teAvtab ≤ avCount db'.teAvtab + lost
  rest : restBytes fmt db' ≤ restBytes fmt db

theorem AvtabStep.books {E : AvtabNode → Bool} {db db' : Policydb} (h : AvtabStep E db db')
    (fmt : BinaryFormat) : Books fmt (db.teAvtab.countP E) db db' where
  len := h.len
  xperms := h.xperms
  kept := by
    have hkept := h.kept
    omega
  rest := by rw [h.same]; rfl

/-- An operation that marks no entry loses none. -/
theorem AvtabStep.books_noLoss {db db' : Policydb} (h : AvtabStep (fun _ => false) db db')
    (fmt : BinaryFormat) : Books fmt 0 db db' := by
  have hbooks := h.books fmt
  rwa [List.countP_false] at hbooks

theorem AvKind.isAvEffect (kind : AvKind) : IsAvEffect kind.effect := by
  cases kind with
  | allow => exact .inl rfl
  | deny => exact .inl rfl
  | auditallow => exact .inr (.inl rfl)
  | dontaudit => exact .inr (.inr rfl)

theorem ksuAv_eq (kind : AvKind) (src tgt cls perm : Option Name) :
    ksuAv kind src tgt cls perm = addRule src tgt cls perm kind.effect kind.invert := by
  cases kind <;> rfl

theorem ksuAv_books (fmt : BinaryFormat) (kind : AvKind) (src tgt cls perm : Option Name) (m : PolicyMem) :
    Books fmt (emptied kind src tgt cls perm m.db) m.db ((ksuAv kind src tgt cls perm).run m).2.db := by
  have hnone : Books fmt 0 m.db m.db := (AvtabStep.refl (fun _ => false) m.db).books_noLoss fmt
  rw [ksuAv_eq, emptied]
  cases hs : lookupOrAll m.db.pTypes src with
  | none => simpa [addRule, hs] using hnone
  | some s =>
  cases ht : lookupOrAll m.db.pTypes tgt with
  | none => simpa [addRule, hs, ht] using hnone
  | some t =>
  cases hc : lookupOrAll m.db.pClasses cls with
  | none => simpa [addRule, hs, ht, hc] using hnone
  | some c =>
  cases hp : lookupPerm c perm with
  | none => simpa [addRule, hs, ht, hc, hp] using hnone
  | some p =>
    simp only [addRule, run_bind, run_readDb, hs, ht, hc, hp]
    exact (addRuleRaw_stepsFrom kind.isAvEffect p kind.invert m.db s t c m rfl rfl).books fmt

/-! ### Extended permissions and type rules -/

theorem takeUninit_run_db (m : PolicyMem) : (takeUninit.run m).2.db = m.db := by
  rcases m with ⟨db, allocs, _ | ⟨u, us⟩, freed, next⟩ <;> rfl

theorem XpermOp.exec_books (fmt : BinaryFormat) (op : XpermOp) (m : PolicyMem) :
    Books fmt 0 m.db (op.exec.run m).2.db := by
  have hnone : Books fmt 0 m.db m.db := (AvtabStep.refl (fun _ => false) m.db).books_noLoss fmt
  have hbits : op.kind.effect &&& ~~~AVTAB_ENABLED &&& op.kind.effect ≠ 0 := by
    rcases op.kind.isXpermEffect with h | h | h <;> rw [h] <;> decide
  rw [XpermOp.exec_eq]
  cases hs : lookupOrAll m.db.pTypes op.src with
  | none => simpa [addXpermRule, hs] using hnone
  | some s =>
  cases ht : lookupOrAll m.db.pTypes op.tgt with
  | none => simpa [addXpermRule, hs, ht] using hnone
  | some t =>
  cases hc : lookupOrAll m.db.pClasses op.cls with
  | none => simpa [addXpermRule, hs, ht, hc] using hnone
  | some c =>
    have hstep := addXpermRuleRaw_stepsFrom (parseXpermRange op.range (takeUninit.run m).1).1
      (parseXpermRange op.range (takeUninit.run m).1).2 hbits s t c (takeUninit.run m).2.db
      (takeUninit.run m).2 rfl rfl
    rw [takeUninit_run_db] at hstep
    simp only [addXpermRule, run_bind, run_readDb, hs, ht, hc, run_pure]
    exact hstep.books_noLoss fmt

/-- `add_type_rule`. -/
theorem addTypeRule_books (fmt : BinaryFormat) (src tgt cls dflt : Name) {effect : UInt16}
    (hbits : effect &&& ~~~AVTAB_ENABLED &&& effect ≠ 0) (m : PolicyMem) :
    Books fmt 0 m.db ((addTypeRule src tgt cls dflt effect).run m).2.db := by
  have hnone : Books fmt 0 m.db m.db := (AvtabStep.refl (fun _ => false) m.db).books_noLoss fmt
  cases hs : symtabSearch m.db.pTypes src with
  | none => simpa [addTypeRule, hs] using hnone
  | some s =>
  cases ht : symtabSearch m.db.pTypes tgt with
  | none => simpa [addTypeRule, hs, ht] using hnone
  | some t =>
  cases hc : symtabSearch m.db.pClasses cls with
  | none => simpa [addTypeRule, hs, ht, hc] using hnone
  | some c =>
  cases hd : symtabSearch m.db.pTypes dflt with
  | none => simpa [addTypeRule, hs, ht, hc, hd] using hnone
  | some d =>
    obtain ⟨hget, -⟩ := getAvtabNode_avtabStep (E := fun _ => false) (fun _ h => absurd h Bool.false_ne_true)
      (ruleKey_meets_self hbits s t c) noXperms m
    simp only [addTypeRule, run_bind, run_readDb, hs, ht, hc, hd]
    cases hnode : ((getAvtabNode (ruleKey s t c effect) noXperms).run m).1 with
    | none => exact hget.books_noLoss fmt
    | some i =>
      have hstore := avtabStep_modify (E := fun _ => false) (f := fun _ => d.value.toBitVec) (fun _ => rfl)
        ((getAvtabNode (ruleKey s t c effect) noXperms).run m).2.db i
      exact (hget.trans hstore).books_noLoss fmt

/-! ### Bitmaps and tables -/

theorem ebitmapBytes_insert {e : Ebitmap} {bit : ℕ} (h : HasWord e bit) :
    ebitmapBytes (insert bit e) = ebitmapBytes e := by
  have hwords : ebitmapWords (insert bit e) = ebitmapWords e := by
    rw [ebitmapWords, Finset.image_insert]
    exact Finset.insert_eq_of_mem h
  rw [ebitmapBytes, hwords, ebitmapBytes]

theorem ebitmapBytes_erase (e : Ebitmap) (bit : ℕ) : ebitmapBytes (e.erase bit) ≤ ebitmapBytes e := by
  have hle : (ebitmapWords (e.erase bit)).card ≤ (ebitmapWords e).card :=
    Finset.card_le_card (Finset.image_subset_image (Finset.erase_subset bit e))
  rw [ebitmapBytes, ebitmapBytes]
  omega

theorem ebitmapSetBit_bytes {e e' : Ebitmap} {bit : ℕ} (h : HasWord e bit) {m : PolicyMem}
    (hrun : ((ebitmapSetBit e bit true).run m).1 = some e') : ebitmapBytes e' = ebitmapBytes e := by
  by_cases hbit : bit ∈ e
  · obtain rfl : e = e' := by simpa [ebitmapSetBit, hbit] using hrun
    rfl
  · have hinsert : insert bit e = e' := by
      cases hk : (kalloc.run m).1 <;> simp [ebitmapSetBit, hbit, hk] at hrun
      exact hrun
    rw [← hinsert, ebitmapBytes_insert h]

theorem ebitmapSetBitIgnore_bytes {e : Ebitmap} {bit : ℕ} (h : HasWord e bit) (m : PolicyMem) :
    ebitmapBytes ((ebitmapSetBitIgnore e bit).run m).1 = ebitmapBytes e := by
  cases hset : ((ebitmapSetBit e bit true).run m).1 with
  | none => simp [ebitmapSetBitIgnore, hset]
  | some e' => simpa [ebitmapSetBitIgnore, hset] using ebitmapSetBit_bytes h hset

/-- Changing every element to one that looks the same. -/
theorem mapM_map_eq {α β : Type} {f : α → PolicyM α} {g : α → β} {l : List α}
    (h : ∀ a ∈ l, ∀ m, g ((f a).run m).1 = g a) (m : PolicyMem) :
    ((l.mapM f).run m).1.map g = l.map g := by
  induction l generalizing m with
  | nil => rfl
  | cons a l ih =>
    have htail := ih (fun b hb => h b (List.mem_cons_of_mem a hb)) ((f a).run m).2
    rw [List.mapM_cons]
    simp only [run_bind, run_pure, List.map_cons, h a List.mem_cons_self m, htail]

theorem map_set_eq {α β : Type} {g : α → β} {l : List α} {i : ℕ} {a b : α} (ha : l[i]? = some a)
    (hb : g b = g a) : (l.set i b).map g = l.map g := by
  induction l generalizing i with
  | nil => simp at ha
  | cons c l ih =>
    cases i with
    | zero =>
      obtain rfl : c = a := by simpa using ha
      simpa using hb
    | succ i =>
      have htail := ih (by simpa using ha)
      simpa using htail

section Tables

variable {κ ν β : Type} [DecidableEq κ] {g : κ → ν → β}

theorem map_kreplace_eq {l : List (Σ _ : κ, ν)} (hnodup : l.NodupKeys) {k : κ} {w : ν}
    (hw : (k, g k w) ∈ l.map fun e => (e.1, g e.1 e.2)) :
    (l.kreplace k w).map (fun e => (e.1, g e.1 e.2)) = l.map fun e => (e.1, g e.1 e.2) := by
  induction l with
  | nil => rfl
  | cons e l ih =>
    obtain ⟨x, u⟩ := e
    obtain ⟨hnotin, hrest⟩ := List.nodupKeys_cons.mp hnodup
    rw [List.map_cons, List.mem_cons] at hw
    by_cases hx : k = x
    · subst hx
      have hhead : List.kreplace k w (⟨k, u⟩ :: l) = ⟨k, w⟩ :: l := List.lookmap_cons_some _ _ (by simp)
      have hsame : g k w = g k u := by
        rcases hw with heq | hmem
        · exact (Prod.mk.inj heq).2
        · obtain ⟨e, he, hkey⟩ := List.mem_map.mp hmem
          have hin : e.1 ∈ l.keys := List.mem_keys_of_mem he
          rw [(Prod.mk.inj hkey).1] at hin
          exact absurd hin hnotin
      rw [hhead, List.map_cons, List.map_cons, hsame]
    · have htail : List.kreplace k w (⟨x, u⟩ :: l) = ⟨x, u⟩ :: l.kreplace k w :=
        List.lookmap_cons_none _ _ (by simp [hx])
      have hmem : (k, g k w) ∈ l.map fun e => (e.1, g e.1 e.2) := by
        rcases hw with heq | hmem
        · exact absurd (Prod.mk.inj heq).1 hx
        · exact hmem
      rw [htail, List.map_cons, List.map_cons, ih hrest hmem]

/-- Replacing values by ones that look the same. -/
theorem map_foldl_replace_eq (es : List (Σ _ : κ, ν)) (t : AList fun _ : κ => ν)
    (h : ∀ e ∈ es, (e.1, g e.1 e.2) ∈ t.entries.map fun e => (e.1, g e.1 e.2)) :
    (es.foldl (fun t e => t.replace e.1 e.2) t).entries.map (fun e => (e.1, g e.1 e.2)) =
      t.entries.map fun e => (e.1, g e.1 e.2) := by
  induction es generalizing t with
  | nil => rfl
  | cons e es ih =>
    have hhead : (t.replace e.1 e.2).entries.map (fun e => (e.1, g e.1 e.2)) =
        t.entries.map fun e => (e.1, g e.1 e.2) := map_kreplace_eq t.nodupKeys (h e List.mem_cons_self)
    rw [List.foldl_cons, ih, hhead]
    intro e' he'
    rw [hhead]
    exact h e' (List.mem_cons_of_mem e he')

end Tables

/-! ### Types, attributes and permissive types -/

section Rest

variable (fmt : BinaryFormat)

theorem Books.of_rest {db db' : Policydb} (hav : db'.teAvtab = db.teAvtab) (hlen : db'.len = db.len)
    (hrest : restBytes fmt db' ≤ restBytes fmt db) : Books fmt 0 db db' where
  len := by rw [hav, hlen]
  xperms := by rw [hav]
  kept := by rw [hav, Nat.add_zero]
  rest := hrest

theorem Books.trans {fmt : BinaryFormat} {k l : ℕ} {db db₁ db₂ : Policydb} (h₁ : Books fmt k db db₁)
    (h₂ : Books fmt l db₁ db₂) : Books fmt (k + l) db db₂ where
  len := by
    have hfirst := h₁.len
    have hsecond := h₂.len
    omega
  xperms := h₁.xperms.trans h₂.xperms
  kept := by
    have hfirst := h₁.kept
    have hsecond := h₂.kept
    omega
  rest := h₂.rest.trans h₁.rest

theorem Books.of_eq {db db' : Policydb} (h : db' = db) : Books fmt 0 db db' :=
  .of_rest fmt (by rw [h]) (by rw [h]) (by rw [h])

theorem setPermissiveBit_books {value : UInt32} {permissive : Bool} {m : PolicyMem}
    (h : permissive = true → HasWord m.db.permissiveMap value.toNat) :
    Books fmt 0 m.db ((setPermissiveBit value permissive).run m).2.db := by
  have hdb := (quiet_ebitmapSetBit m.db.permissiveMap value.toNat permissive m).db
  cases hset : ((ebitmapSetBit m.db.permissiveMap value.toNat permissive).run m).1 with
  | none =>
    simp only [setPermissiveBit, run_bind, run_readDb, hset, run_pure]
    exact .of_eq fmt hdb
  | some map =>
    have hbytes : ebitmapBytes map ≤ ebitmapBytes m.db.permissiveMap := by
      cases permissive with
      | true => exact (ebitmapSetBit_bytes (h rfl) hset).le
      | false =>
        obtain rfl : m.db.permissiveMap.erase value.toNat = map := by simpa [ebitmapSetBit] using hset
        exact ebitmapBytes_erase _ _
    simp only [setPermissiveBit, run_bind, run_readDb, hset, run_modifyDb, run_pure, hdb]
    refine .of_rest fmt rfl rfl ?_
    simp only [restBytes]
    omega

theorem setTypeState_books {type : Name} {permissive : Bool} {m : PolicyMem}
    (h : permissive = true → PermissiveHarmless type m.db) :
    Books fmt 0 m.db ((setTypeState (some type) permissive).run m).2.db := by
  cases hs : symtabSearch m.db.pTypes type with
  | none =>
    simp only [setTypeState, run_bind, run_readDb, hs, run_pure]
    exact .of_eq fmt rfl
  | some t =>
    simp only [setTypeState, run_bind, run_readDb, hs]
    exact setPermissiveBit_books fmt fun hp => h hp t hs

/-- Words that are there already: the name set of an expression keeps its size. -/
theorem constraintExprAdd_bytes {type attr : TypeDatum} {e : ConstraintExpr}
    (h : e.exprType = CEXPR_NAMES → valueBit attr.value ∈ e.typeNames → HasWord e.names (valueBit type.value))
    (m : PolicyMem) :
    constraintExprBytes ((constraintExprAdd type attr e).run m).1 = constraintExprBytes e := by
  by_cases hadd : e.exprType = CEXPR_NAMES ∧ ebitmapGetBit e.typeNames (valueBit attr.value) = true
  · have hword := h hadd.1 (ebitmapGetBit_eq_true.mp hadd.2)
    simp only [constraintExprAdd, if_pos hadd, run_bind, run_pure, constraintExprBytes,
      ebitmapSetBitIgnore_bytes hword]
  · simp only [constraintExprAdd, if_neg hadd, run_pure]

/-- The classes that `add_typeattribute_raw` stores back. -/
def constrainedClasses (type attr : TypeDatum) (e : Σ _ : Name, ClassDatum) :
    PolicyM (Σ _ : Name, ClassDatum) := do
  let constraints ← e.2.constraints.mapM fun n => do
    return { n with expr := ← n.expr.mapM (constraintExprAdd type attr) }
  return ⟨e.1, { e.2 with constraints := constraints }⟩

theorem constrainedClasses_bytes {type attr : TypeDatum} {e : Σ _ : Name, ClassDatum}
    (h : ∀ n ∈ e.2.constraints, ∀ x ∈ n.expr, x.exprType = CEXPR_NAMES →
      valueBit attr.value ∈ x.typeNames → HasWord x.names (valueBit type.value)) (m : PolicyMem) :
    (((constrainedClasses type attr e).run m).1.1, classBytes ((constrainedClasses type attr e).run m).1.2) =
      (e.1, classBytes e.2) := by
  have hnodes : ∀ n ∈ e.2.constraints, ∀ m : PolicyMem,
      constraintNodeBytes ((do
        return { n with expr := ← n.expr.mapM (constraintExprAdd type attr) } : PolicyM ConstraintNode).run m).1 =
        constraintNodeBytes n := by
    intro n hn m'
    have hexprs := mapM_map_eq (fun x hx => constraintExprAdd_bytes (h n hn x hx)) m'
    simp only [run_bind, run_pure, constraintNodeBytes, hexprs]
  have hconstraints := mapM_map_eq hnodes m
  simp only [constrainedClasses, run_bind, run_pure, classBytes] at hconstraints ⊢
  rw [hconstraints]

theorem quiet_constrainedClasses (type attr : TypeDatum) (e : Σ _ : Name, ClassDatum) :
    Quiet (constrainedClasses type attr e) := by
  refine Quiet.bind (Quiet.mapM (fun n => ?_) _) fun _ => quiet_pure _
  refine Quiet.bind (Quiet.mapM (fun x => ?_) _) fun _ => quiet_pure _
  rw [constraintExprAdd]
  split
  · exact (quiet_ebitmapSetBitIgnore _ _).bind fun _ => quiet_pure _
  · exact quiet_pure _

/-- The bits of one type in the attribute maps and in the constraints. -/
def withTypeattribute (db : Policydb) (i : ℕ) (sattr : Ebitmap) (classes : List (Σ _ : Name, ClassDatum)) :
    Policydb :=
  { db with
    typeAttrMapArray := { db.typeAttrMapArray with cells := db.typeAttrMapArray.cells.set i (some sattr) }
    pClasses := { db.pClasses with table := classes.foldl (fun t e => t.replace e.1 e.2) db.pClasses.table } }

theorem addTypeattributeRaw_run (type attr : TypeDatum) {sattr : Ebitmap} {m : PolicyMem}
    (hcell : m.db.typeAttrMapArray.cells[valueBit type.value]? = some (some sattr)) :
    ∃ m₁ m₂ : PolicyMem, ((addTypeattributeRaw type attr).run m).2.db =
      withTypeattribute m.db (valueBit type.value)
        ((ebitmapSetBitIgnore sattr (valueBit attr.value)).run m₁).1
        ((m.db.pClasses.table.entries.mapM (constrainedClasses type attr)).run m₂).1 := by
  have hset := (quiet_ebitmapSetBitIgnore sattr (valueBit attr.value) m).db
  have hmap := Quiet.mapM (quiet_constrainedClasses type attr) m.db.pClasses.table.entries
  refine ⟨m, { ((ebitmapSetBitIgnore sattr (valueBit attr.value)).run m).2 with
    db := { m.db with typeAttrMapArray := { m.db.typeAttrMapArray with
      cells := m.db.typeAttrMapArray.cells.set (valueBit type.value)
        (some ((ebitmapSetBitIgnore sattr (valueBit attr.value)).run m).1) } } }, ?_⟩
  have hloop : (fun e : Σ _ : Name, ClassDatum => (do
      let constraints ← e.2.constraints.mapM fun n => do
        return { n with expr := ← n.expr.mapM (constraintExprAdd type attr) }
      return ⟨e.1, { e.2 with constraints := constraints }⟩ : PolicyM (Σ _ : Name, ClassDatum)))
        = constrainedClasses type attr := rfl
  rw [addTypeattributeRaw]
  simp only [hloop, run_bind, run_readDb, hcell, run_modifyDb, hset]
  rw [(hmap _).db]
  rfl

theorem addTypeattributeRaw_books {type attr : TypeDatum} {m : PolicyMem}
    (hmap : ∀ e, m.db.typeAttrMapArray.cells[valueBit type.value]? = some (some e) →
      HasWord e (valueBit attr.value))
    (hclasses : ∀ c ∈ m.db.pClasses.datums, ∀ n ∈ c.constraints, ∀ e ∈ n.expr, e.exprType = CEXPR_NAMES →
      valueBit attr.value ∈ e.typeNames → HasWord e.names (valueBit type.value)) :
    Books fmt 0 m.db ((addTypeattributeRaw type attr).run m).2.db := by
  rcases hcell : m.db.typeAttrMapArray.cells[valueBit type.value]? with _ | _ | sattr
  · refine .of_eq fmt ?_
    simp [addTypeattributeRaw, hcell]
  · refine .of_eq fmt ?_
    simp [addTypeattributeRaw, hcell]
  · obtain ⟨m₁, m₂, hrun⟩ := addTypeattributeRaw_run type attr hcell
    have hcells : (m.db.typeAttrMapArray.cells.set (valueBit type.value)
        (some ((ebitmapSetBitIgnore sattr (valueBit attr.value)).run m₁).1)).map attrMapBytes =
        m.db.typeAttrMapArray.cells.map attrMapBytes :=
      map_set_eq hcell (ebitmapSetBitIgnore_bytes (hmap sattr hcell) m₁)
    have hbytes : ((m.db.pClasses.table.entries.mapM (constrainedClasses type attr)).run m₂).1.map
        (fun e => (e.1, classBytes e.2)) = m.db.pClasses.table.entries.map fun e => (e.1, classBytes e.2) :=
      mapM_map_eq (fun e he => constrainedClasses_bytes (hclasses e.2 (List.mem_map_of_mem he))) m₂
    have htable := map_foldl_replace_eq (g := fun _ c => classBytes c)
      ((m.db.pClasses.table.entries.mapM (constrainedClasses type attr)).run m₂).1 m.db.pClasses.table
      (fun e he => hbytes ▸ List.mem_map_of_mem he)
    have hsum := congrArg (fun l => (l.map Prod.snd).sum) htable
    simp only [List.map_map, Function.comp_def] at hsum
    rw [hrun]
    refine .of_rest fmt rfl rfl ?_
    simp only [withTypeattribute, restBytes, hcells, hsum]
    exact le_rfl

theorem addTypeattribute_books {type attr : Name} {m : PolicyMem} (h : TypeattributeHarmless type attr m.db) :
    Books fmt 0 m.db ((addTypeattribute type attr).run m).2.db := by
  have hnone : Books fmt 0 m.db m.db := .of_eq fmt rfl
  cases ht : symtabSearch m.db.pTypes type with
  | none => simpa [addTypeattribute, ht] using hnone
  | some t =>
  cases htype : t.isAttribute with
  | true => simpa [addTypeattribute, ht, htype] using hnone
  | false =>
  cases ha : symtabSearch m.db.pTypes attr with
  | none => simpa [addTypeattribute, ht, htype, ha] using hnone
  | some a =>
  cases hattr : a.isAttribute with
  | false => simpa [addTypeattribute, ht, htype, ha, hattr] using hnone
  | true =>
    obtain ⟨hmap, hclasses⟩ := h t a ht ha htype hattr
    simp only [addTypeattribute, run_bind, run_readDb, ht, htype, ha, hattr, Bool.false_eq_true, if_false,
      Bool.not_true, run_pure]
    exact addTypeattributeRaw_books fmt hmap hclasses

theorem ksuAttribute_books {name : Name} {m : PolicyMem} (h : name ∈ m.db.pTypes.table) :
    Books fmt 0 m.db ((ksuAttribute name).run m).2.db := by
  obtain ⟨t, ht⟩ := Option.isSome_iff_exists.mp (AList.lookup_isSome.mpr h)
  rw [ksuAttribute, addType_existing true ht]
  exact .of_eq fmt rfl

theorem ksuType_books {name attr : Name} {m : PolicyMem} (h : name ∈ m.db.pTypes.table)
    (hattr : TypeattributeHarmless name attr m.db) :
    Books fmt 0 m.db ((ksuType name attr).run m).2.db := by
  obtain ⟨t, ht⟩ := Option.isSome_iff_exists.mp (AList.lookup_isSome.mpr h)
  simp only [ksuType, run_bind, addType_existing false ht, if_true]
  exact addTypeattribute_books fmt hattr

/-! ### Filename transitions -/

/-- A chain under its key, replaced by one that is written in as many bytes. -/
theorem setChain_books {key : FilenameTransKey} {chain chain' : List FilenameTransDatum} {m : PolicyMem}
    (hlookup : m.db.filenameTrans.lookup key = some chain)
    (hbytes : chain'.map (filenameTransDatumBytes fmt key.name) =
      chain.map (filenameTransDatumBytes fmt key.name)) :
    Books fmt 0 m.db ((setChain key chain').run m).2.db := by
  have hsame : filenameTransBytes fmt key chain' = filenameTransBytes fmt key chain := by
    rw [filenameTransBytes, filenameTransBytes, hbytes]
  have hmem : (key, filenameTransBytes fmt key chain') ∈
      m.db.filenameTrans.entries.map fun e => (e.1, filenameTransBytes fmt e.1 e.2) := by
    rw [hsame]
    exact List.mem_map_of_mem (AList.mem_lookup_iff.mp hlookup)
  have htable := map_kreplace_eq m.db.filenameTrans.nodupKeys hmem
  have hsum := congrArg (fun l => (l.map Prod.snd).sum) htable
  simp only [List.map_map, Function.comp_def] at hsum
  refine .of_rest fmt rfl rfl ?_
  simp only [setChain, run_modifyDb, restBytes]
  exact le_of_eq (by rw [← hsum]; rfl)

theorem addSource_books (hcomp : fmt.compFtrans = true) {key : FilenameTransKey}
    {chain : List FilenameTransDatum} {i bit : ℕ} {m : PolicyMem}
    (hlookup : m.db.filenameTrans.lookup key = some chain)
    (hword : ∀ x, chain[i]? = some x → HasWord x.stypes bit) :
    Books fmt 0 m.db ((addSource key chain i bit).run m).2.db := by
  have hcount : Books fmt 0 m.db
      { m.db with compatFilenameTransCount := m.db.compatFilenameTransCount + 1 } :=
    .of_rest fmt rfl rfl le_rfl
  cases hd : chain[i]? with
  | none =>
    simp only [addSource, run_bind, run_modifyDb, hd, run_pure]
    exact hcount
  | some d =>
    rcases hset : (ebitmapSetBit d.stypes bit true).run { m with db :=
      { m.db with compatFilenameTransCount := m.db.compatFilenameTransCount + 1 } } with ⟨_ | stypes, m'⟩
    · have hdb := ((quiet_ebitmapSetBit d.stypes bit true).of_run hset).db
      simp only [addSource, run_bind, run_modifyDb, hd, hset, run_pure, hdb]
      exact hcount
    · have hdb := ((quiet_ebitmapSetBit d.stypes bit true).of_run hset).db
      have hbytes : ebitmapBytes stypes = ebitmapBytes d.stypes :=
        ebitmapSetBit_bytes (hword d hd) (by rw [hset])
      have hchain : (chain.set i { d with stypes := stypes }).map (filenameTransDatumBytes fmt key.name) =
          chain.map (filenameTransDatumBytes fmt key.name) :=
        map_set_eq hd (by simp only [filenameTransDatumBytes, hcomp, if_true, hbytes])
      have hstore := setChain_books fmt (m := m') (by rw [hdb]; exact hlookup) hchain
      simp only [addSource, run_bind, run_modifyDb, hd, hset, run_pure]
      rw [hdb] at hstore
      exact hcount.trans hstore

theorem addFilenameTrans_books {src tgt cls dflt obj : Name} {m : PolicyMem}
    (h : FilenameTransHarmless fmt src tgt cls dflt obj m.db) :
    Books fmt 0 m.db ((addFilenameTrans src tgt cls dflt obj).run m).2.db := by
  have hnone : Books fmt 0 m.db m.db := .of_eq fmt rfl
  cases hs : symtabSearch m.db.pTypes src with
  | none => simpa [addFilenameTrans, hs] using hnone
  | some s =>
  cases ht : symtabSearch m.db.pTypes tgt with
  | none => simpa [addFilenameTrans, hs, ht] using hnone
  | some t =>
  cases hc : symtabSearch m.db.pClasses cls with
  | none => simpa [addFilenameTrans, hs, ht, hc] using hnone
  | some c =>
  cases hd : symtabSearch m.db.pTypes dflt with
  | none => simpa [addFilenameTrans, hs, ht, hc, hd] using hnone
  | some d =>
    have hwalk := h s t c d hs ht hc hd
    cases hlookup : m.db.filenameTrans.lookup ⟨t.value, c.value.toUInt16, obj⟩ with
    | none => simp [hlookup, walkChain] at hwalk
    | some chain =>
      simp only [hlookup, Option.getD_some] at hwalk
      simp only [addFilenameTrans, run_bind, run_readDb, hs, ht, hc, hd, hlookup, Option.getD_some]
      cases hstop : walkChain (valueBit s.value) d.value 0 chain with
      | hasSource i =>
        exact setChain_books fmt hlookup
          (map_modify_eq (fun x => by simp only [filenameTransDatumBytes]) chain i)
      | hasType i =>
        rw [hstop] at hwalk
        exact addSource_books fmt hwalk.1 hlookup hwalk.2
      | exhausted =>
        rw [hstop] at hwalk
        exact hwalk.elim

end Rest

/-! ### The buffer of the next duplication -/

/-- How many entries an operation may lose. -/
def RuleOp.lost (db : Policydb) : RuleOp → ℕ
  | .av kind src tgt cls perm => emptied kind src tgt cls perm db
  | .xperm _ | .addType _ _ | .addAttribute _ | .addTypeattribute _ _ | .permissive _ | .enforce _
  | .typeTransition _ _ _ _ _ | .typeChange _ _ _ _ | .typeMember _ _ _ _ => 0

/-- **One operation keeps the books.** -/
theorem RuleOp.exec_books {fmt : BinaryFormat} {base : Policydb} {m : PolicyMem} {op : RuleOp}
    (h : Harmless fmt base m.db op) : Books fmt (op.lost m.db) m.db (op.exec.run m).2.db := by
  cases op with
  | av kind src tgt cls perm => exact ksuAv_books fmt kind src tgt cls perm m
  | xperm op => exact op.exec_books fmt m
  | addType name attr => exact ksuType_books fmt h.1 h.2
  | addAttribute name => exact ksuAttribute_books fmt h
  | addTypeattribute type attr => exact addTypeattribute_books fmt h
  | permissive type => exact setTypeState_books fmt fun _ => h
  | enforce type => exact setTypeState_books fmt fun hp => absurd hp Bool.false_ne_true
  | typeTransition src tgt cls dflt obj =>
    cases obj with
    | some obj => exact addFilenameTrans_books fmt h
    | none => exact addTypeRule_books fmt src tgt cls dflt (by decide) m
  | typeChange src tgt cls dflt => exact addTypeRule_books fmt src tgt cls dflt (by decide) m
  | typeMember src tgt cls dflt => exact addTypeRule_books fmt src tgt cls dflt (by decide) m

/-- The books since the policy was loaded, as long as operations lose no more entries than were gained. -/
theorem Books.since {fmt : BinaryFormat} {base : Policydb} {m : PolicyMem} {op : RuleOp}
    (hbooks : Books fmt 0 base m.db) (h : Harmless fmt base m.db op) :
    Books fmt 0 base (op.exec.run m).2.db := by
  have hstep := RuleOp.exec_books h
  have hlost : op.lost m.db + avCount base.teAvtab ≤ avCount m.db.teAvtab := by
    have hkept := hbooks.kept
    cases op with
    | av kind src tgt cls perm => exact h
    | _ => simpa only [RuleOp.lost, Nat.zero_add, Nat.add_zero] using hkept
  have hsince := hbooks.trans hstep
  refine ⟨hsince.len, hsince.xperms, ?_, hsince.rest⟩
  have hkept := hstep.kept
  omega

theorem avtabBytes_eq (nodes : List AvtabNode) :
    (nodes.map avtabNodeBytes).sum = 12 * avCount nodes + 42 * xpermCount nodes := by
  induction nodes with
  | nil => rfl
  | cons n nodes ih =>
    rw [List.map_cons, List.sum_cons, ih]
    simp only [avCount, xpermCount, List.countP_cons, avtabNodeBytes]
    cases n.key.isXperms <;> simp <;> omega

/-- Books that balance leave a buffer that is large enough. -/
theorem Books.lenSuffices {fmt : BinaryFormat} {base db : Policydb} (h : Books fmt 0 base db)
    (hlen : base.len = policydbWriteBytes fmt base) : LenSuffices fmt db := by
  have hbase : base.len = restBytes fmt base + (12 * avCount base.teAvtab + 42 * xpermCount base.teAvtab) := by
    rw [hlen, policydbWriteBytes, avtabBytes_eq]
  obtain ⟨hbooks, hxperms, hkept, hrest⟩ := h
  rw [LenSuffices, policydbWriteBytes, avtabBytes_eq]
  omega

/-- The run lemma: harmless operations keep the books. -/
theorem runRules_books {fmt : BinaryFormat} {base : Policydb} {ops : List RuleOp} {m : PolicyMem}
    (hbooks : Books fmt 0 base m.db) (h : EachHarmless fmt base ops m) :
    Books fmt 0 base (runRules ops m).db := by
  induction ops generalizing m with
  | nil => exact hbooks
  | cons op ops ih => exact ih (hbooks.since h.1) h.2

/-- A buffer that is large enough can be duplicated. -/
theorem ksuDupSepolicy_of_lenSuffices {fmt : BinaryFormat} {linux : LinuxPolicydb}
    (hlinux : linux.Conforms fmt) {m : PolicyMem} (hm : m.AllocsSucceed) (h : LenSuffices fmt m.db) :
    ∃ db, ((ksuDupSepolicy linux).run m).1 = .ok db := by
  obtain ⟨m₁, hrun₁, hdb₁, hm₁⟩ := run_kalloc_of_succeed hm
  obtain ⟨m₂, hrun₂, -, -⟩ := run_kalloc_of_succeed hm₁
  obtain ⟨data, hwrite⟩ := hlinux.write m.db m.db.len h
  obtain ⟨db, hread⟩ := hlinux.read m.db m.db.len data hwrite
  refine ⟨{ db with len := m.db.len }, ?_⟩
  simp [ksuDupSepolicy, hrun₁, hrun₂, hwrite, hread]

/-- **The recorded length suffices.**  From a policy whose `len` is what is emitted for it, after every
sequence of harmless operations, `len` is at least what is emitted, and the next duplication succeeds. -/
theorem policyLen_suffices {fmt : BinaryFormat} {m : PolicyMem} (hlen : m.db.len = policydbWriteBytes fmt m.db)
    {ops : List RuleOp} (h : EachHarmless fmt m.db ops m) :
    LenSuffices fmt (runRules ops m).db ∧
      ∀ linux : LinuxPolicydb, linux.Conforms fmt → (runRules ops m).AllocsSucceed →
        ∃ db, ((ksuDupSepolicy linux).run (runRules ops m)).1 = .ok db := by
  have hsuffices := (runRules_books (.of_eq fmt rfl) h).lenSuffices hlen
  exact ⟨hsuffices, fun _ hlinux hm => ksuDupSepolicy_of_lenSuffices hlinux hm hsuffices⟩

/-- A policy as it is loaded: its `len` is what is emitted for it. -/
def loaded (fmt : BinaryFormat) (db : Policydb) : PolicyMem := .ofDb { db with len := policydbWriteBytes fmt db }

/-- A type `a` that is allowed the permission `p` of the class `c` on itself. -/
def oneRule : Policydb :=
  { Policydb.ofSymbols [([97], ⟨1, true, false⟩)] [([99], ⟨1, .ofList [([112], ⟨1⟩)], none, []⟩)] with
    teAvtab := [⟨⟨1, 1, 1, AVTAB_ALLOWED⟩, .data 1, rfl⟩] }

def denyRule : RuleOp := .av .deny (some [97]) (some [97]) (some [99]) (some [112])

/-- The rule is denied after a type change was added. -/
theorem policyLen_suffices_denyAdded :
    LenSuffices ⟨100, true⟩ (runRules [.typeChange [97] [97] [99] [97], denyRule] (loaded ⟨100, true⟩ oneRule)).db := by
  have hdeny : emptied .deny (some [97]) (some [97]) (some [99]) (some [112])
      ((RuleOp.typeChange [97] [97] [99] [97]).exec.run (loaded ⟨100, true⟩ oneRule)).2.db +
        avCount (loaded ⟨100, true⟩ oneRule).db.teAvtab ≤
      avCount ((RuleOp.typeChange [97] [97] [99] [97]).exec.run
        (loaded ⟨100, true⟩ oneRule)).2.db.teAvtab := by decide +kernel
  have hharmless : EachHarmless ⟨100, true⟩ (loaded ⟨100, true⟩ oneRule).db
      [.typeChange [97] [97] [99] [97], denyRule] (loaded ⟨100, true⟩ oneRule) := ⟨trivial, hdeny, trivial⟩
  exact (policyLen_suffices rfl hharmless).1

/-- **Where the buffer is too small.**  After a rule of the loaded policy was denied, `len` has fallen by 16
and what is emitted by 12. -/
theorem policyLen_deny : ∃ fmt m ops, m.db.len = policydbWriteBytes fmt m.db ∧
    ¬LenSuffices fmt (runRules ops m).db :=
  ⟨⟨100, true⟩, loaded ⟨100, true⟩ oneRule, [denyRule], rfl, by decide +kernel⟩

end KernelSU.Selinux
