import KernelSU.Selinux.PolicyLen

/-!
# What the type commands do when they succeed

`ksu_type`, `ksu_attribute` and `ksu_typeattribute` report success also when the name exists already, and when
a bit could not be set for want of memory.

* `Fills` — an operation that sets bits: it asks for memory a known number of times, and does its whole work
  exactly if every request is granted;
* `addTypeattributeRaw_attributed`, `addType_extended` — **PROVED**: the maps, the constraints and the requests
  behind them;
* `TypeCommand.means_iff` — **PROVED**: a command that succeeds means what it says exactly in the states that it
  fits;
* `TypeCommand.not_means_newAttribute` — **PROVED**: an attribute that is a plain type.
-/

namespace KernelSU.Selinux

/-! ### Requests that are granted -/

namespace PolicyMem

/-- The environment after `n` more requests. -/
def asked (m : PolicyMem) (n : ℕ) : PolicyMem := { m with allocs := m.allocs.drop n }

/-- The outcome of the request after the next `i`. -/
def grants (m : PolicyMem) (i : ℕ) : Bool := (m.allocs[i]?).getD true

@[simp] theorem asked_zero (m : PolicyMem) : m.asked 0 = m := rfl

@[simp] theorem asked_asked (m : PolicyMem) (n k : ℕ) : (m.asked n).asked k = m.asked (n + k) := by
  rw [asked, asked, asked, List.drop_drop]

@[simp] theorem asked_db (m : PolicyMem) (n : ℕ) : (m.asked n).db = m.db := rfl

@[simp] theorem grants_asked (m : PolicyMem) (n i : ℕ) : (m.asked n).grants i = m.grants (n + i) := by
  rw [grants, grants, asked, List.getElem?_drop]

end PolicyMem

theorem granted_iff_grants {n : ℕ} {m : PolicyMem} : Granted n m ↔ ∀ i < n, m.grants i = true := by
  constructor
  · intro h i hi
    rw [PolicyMem.grants]
    cases hget : m.allocs[i]? with
    | none => rfl
    | some b =>
      refine h b (List.mem_iff_getElem?.mpr ⟨i, ?_⟩)
      rw [List.getElem?_take_of_lt hi, hget]
  · intro h b hb
    obtain ⟨i, hget⟩ := List.mem_iff_getElem?.mp hb
    obtain ⟨hlt, -⟩ := List.getElem?_eq_some_iff.mp hget
    rw [List.length_take] at hlt
    have hi := h i (by omega)
    rw [List.getElem?_take_of_lt (by omega)] at hget
    rwa [PolicyMem.grants, hget] at hi

theorem granted_add {n k : ℕ} {m : PolicyMem} : Granted (n + k) m ↔ Granted n m ∧ Granted k (m.asked n) := by
  simp only [granted_iff_grants, PolicyMem.grants_asked]
  constructor
  · intro h
    exact ⟨fun i hi => h i (by omega), fun i hi => h (n + i) (by omega)⟩
  · rintro ⟨hfirst, hsecond⟩ i hi
    rcases Nat.lt_or_ge i n with hlt | hge
    · exact hfirst i hlt
    · obtain ⟨j, rfl⟩ := Nat.exists_eq_add_of_le hge
      exact hsecond j (by omega)

theorem granted_one {m : PolicyMem} : Granted 1 m ↔ m.grants 0 = true := by
  rw [granted_iff_grants]
  exact ⟨fun h => h 0 Nat.one_pos, fun h i hi => by rwa [Nat.lt_one_iff.mp hi]⟩

theorem kalloc_run_eq (m : PolicyMem) : kalloc.run m = (m.grants 0, m.asked 1) := by
  rcases m with ⟨db, _ | ⟨b, bs⟩, u, f, n⟩ <;> rfl

/-! ### Setting bits -/

/-- The operation asks `n` times for memory, changes nothing but that, and gives `full` exactly if all requests
are granted. -/
def Fills {α : Type} (x : PolicyM α) (full : α) (n : ℕ) : Prop :=
  ∀ m, (x.run m).2 = m.asked n ∧ ((x.run m).1 = full ↔ Granted n m)

/-- How many requests it takes to set a bit. -/
def missing (e : Ebitmap) (bit : ℕ) : ℕ := if bit ∈ e then 0 else 1

theorem ebitmapSetBitIgnore_run (e : Ebitmap) (bit : ℕ) (m : PolicyMem) :
    (ebitmapSetBitIgnore e bit).run m =
      (if bit ∉ e ∧ m.grants 0 = false then e else insert bit e, m.asked (missing e bit)) := by
  by_cases hbit : bit ∈ e
  · simp [ebitmapSetBitIgnore, ebitmapSetBit, hbit, missing]
  · cases hgrant : m.grants 0 <;>
      simp [ebitmapSetBitIgnore, ebitmapSetBit, hbit, missing, kalloc_run_eq, hgrant]

theorem fills_ebitmapSetBitIgnore (e : Ebitmap) (bit : ℕ) :
    Fills (ebitmapSetBitIgnore e bit) (insert bit e) (missing e bit) := by
  intro m
  rw [ebitmapSetBitIgnore_run]
  refine ⟨rfl, ?_⟩
  by_cases hbit : bit ∈ e
  · simp [hbit, missing]
  · have hne : e ≠ insert bit e := fun h => hbit (h ▸ Finset.mem_insert_self bit e)
    rw [missing, if_neg hbit, granted_one]
    cases m.grants 0 <;> simp [hbit, hne]

section Fills

variable {α β : Type}

theorem fills_pure (a : α) : Fills (pure a : PolicyM α) a 0 := fun m => by simp

/-- A result that is stored in a record. -/
theorem Fills.map {x : PolicyM α} {full : α} {n : ℕ} (h : Fills x full n) {g : α → β}
    (hg : Function.Injective g) : Fills (do return g (← x)) (g full) n := by
  intro m
  obtain ⟨hrest, hfull⟩ := h m
  simp only [run_bind, run_pure]
  exact ⟨hrest, hg.eq_iff.trans hfull⟩

theorem Fills.mapM {f : α → PolicyM β} {full : α → β} {n : α → ℕ} {l : List α}
    (h : ∀ a ∈ l, Fills (f a) (full a) (n a)) : Fills (l.mapM f) (l.map full) (l.map n).sum := by
  induction l with
  | nil => exact fills_pure []
  | cons a l ih =>
    intro m
    obtain ⟨hrest, hhead⟩ := h a List.mem_cons_self m
    obtain ⟨hrest', htail⟩ := ih (fun b hb => h b (List.mem_cons_of_mem a hb)) (m.asked (n a))
    rw [List.mapM_cons]
    simp only [run_bind, run_pure, hrest, hrest', List.map_cons, List.sum_cons, PolicyMem.asked_asked,
      List.cons.injEq, hhead, htail, granted_add, and_self]

end Fills

/-! ### The constraints -/

section Constraints

variable (type attr : TypeDatum)

/-- The expression is over names, and the attribute is in its type set. -/
def ConstraintExpr.ListsAttr (e : ConstraintExpr) : Prop :=
  e.exprType = CEXPR_NAMES ∧ valueBit attr.value ∈ e.typeNames

instance (e : ConstraintExpr) : Decidable (e.ListsAttr attr) :=
  inferInstanceAs (Decidable (_ ∧ _))

/-- The expression with the type in its names, if it is one of the attribute. -/
def ConstraintExpr.withType (e : ConstraintExpr) : ConstraintExpr :=
  if e.ListsAttr attr then { e with names := insert (valueBit type.value) e.names } else e

/-- The class with the type in all expressions of the attribute. -/
def ClassDatum.withType (c : ClassDatum) : ClassDatum :=
  { c with constraints := c.constraints.map fun n => { n with expr := n.expr.map (·.withType type attr) } }

/-- How many requests the expression takes. -/
def ConstraintExpr.unlisted (e : ConstraintExpr) : ℕ :=
  if e.ListsAttr attr then missing e.names (valueBit type.value) else 0

/-- How many requests the constraints of all classes take. -/
def unlisted (db : Policydb) : ℕ :=
  (db.pClasses.table.entries.map fun e =>
    (e.2.constraints.map fun n => (n.expr.map fun x => x.unlisted type attr).sum).sum).sum

theorem fills_constraintExprAdd (e : ConstraintExpr) :
    Fills (constraintExprAdd type attr e) (e.withType type attr) (e.unlisted type attr) := by
  have hcond : (e.exprType = CEXPR_NAMES ∧ ebitmapGetBit e.typeNames (valueBit attr.value) = true) ↔
      e.ListsAttr attr := by rw [ebitmapGetBit_eq_true]; rfl
  rw [constraintExprAdd, ConstraintExpr.withType, ConstraintExpr.unlisted]
  by_cases hlists : e.ListsAttr attr
  · rw [if_pos (hcond.mpr hlists), if_pos hlists, if_pos hlists]
    exact (fills_ebitmapSetBitIgnore e.names (valueBit type.value)).map
      (g := fun names => { e with names := names }) fun a b h => congrArg ConstraintExpr.names h
  · rw [if_neg fun h => hlists (hcond.mp h), if_neg hlists, if_neg hlists]
    exact fills_pure e

theorem fills_constrainedClasses (e : Σ _ : Name, ClassDatum) :
    Fills (constrainedClasses type attr e) ⟨e.1, e.2.withType type attr⟩
      (e.2.constraints.map fun n => (n.expr.map fun x => x.unlisted type attr).sum).sum := by
  have hnode : ∀ n ∈ e.2.constraints, Fills (do
      return { n with expr := ← n.expr.mapM (constraintExprAdd type attr) } : PolicyM ConstraintNode)
      { n with expr := n.expr.map (·.withType type attr) } (n.expr.map fun x => x.unlisted type attr).sum :=
    fun n _ => (Fills.mapM fun x _ => fills_constraintExprAdd type attr x).map fun a b h =>
      congrArg ConstraintNode.expr h
  have hinj : Function.Injective fun constraints : List ConstraintNode =>
      (⟨e.1, { e.2 with constraints := constraints }⟩ : Σ _ : Name, ClassDatum) := by
    intro a b h
    simpa using h
  exact (Fills.mapM hnode).map hinj

end Constraints

/-! ### Storing the classes back -/

section Replace

variable {κ ν : Type} [DecidableEq κ]

theorem kreplace_append {done todo : List (Σ _ : κ, ν)} {k : κ} (hk : k ∉ done.keys) (v w : ν) :
    (done ++ ⟨k, v⟩ :: todo).kreplace k w = done ++ ⟨k, w⟩ :: todo := by
  induction done with
  | nil => exact List.lookmap_cons_some _ _ (by simp)
  | cons e done ih =>
    rw [List.keys_cons, List.mem_cons, not_or] at hk
    have hhead : List.kreplace k w (e :: (done ++ ⟨k, v⟩ :: todo)) =
        e :: (done ++ ⟨k, v⟩ :: todo).kreplace k w := List.lookmap_cons_none _ _ (by simp [hk.1])
    rw [List.cons_append, hhead, ih hk.2]
    rfl

/-- Replacing every value, in order. -/
theorem foldl_kreplace_append (es done todo : List (Σ _ : κ, ν)) (hkeys : es.keys = todo.keys)
    (hnodup : (done ++ todo).NodupKeys) :
    es.foldl (fun l e => l.kreplace e.1 e.2) (done ++ todo) = done ++ es := by
  induction es generalizing done todo with
  | nil =>
    obtain rfl : todo = [] := List.map_eq_nil_iff.mp hkeys.symm
    rfl
  | cons e es ih =>
    cases todo with
    | nil => exact absurd hkeys (by simp)
    | cons x todo =>
      obtain ⟨k, w⟩ := e
      obtain ⟨k', v⟩ := x
      simp only [List.keys_cons, List.cons.injEq] at hkeys
      obtain ⟨rfl, hrest⟩ := hkeys
      have hk : k ∉ done.keys := by
        intro hin
        rw [List.NodupKeys, List.keys_append, List.nodup_append] at hnodup
        exact hnodup.2.2 k hin k (by simp) rfl
      have hsame : (done ++ ⟨k, w⟩ :: todo).keys = (done ++ ⟨k, v⟩ :: todo).keys := by
        rw [List.keys_append, List.keys_append, List.keys_cons, List.keys_cons]
      have htail := ih (done ++ [⟨k, w⟩]) todo hrest (by
        rw [List.append_assoc, List.NodupKeys, List.singleton_append, hsame]
        exact hnodup)
      rw [List.foldl_cons, kreplace_append hk v w]
      simpa using htail

theorem entries_foldl_replace (es : List (Σ _ : κ, ν)) (t : AList fun _ : κ => ν)
    (hkeys : es.keys = t.entries.keys) :
    (es.foldl (fun t e => t.replace e.1 e.2) t).entries = es := by
  have hentries : ∀ (es : List (Σ _ : κ, ν)) (t : AList fun _ : κ => ν),
      (es.foldl (fun t e => t.replace e.1 e.2) t).entries =
        es.foldl (fun l e => l.kreplace e.1 e.2) t.entries := by
    intro es
    induction es with
    | nil => exact fun t => rfl
    | cons e es ih => exact fun t => ih (t.replace e.1 e.2)
  rw [hentries]
  exact foldl_kreplace_append es [] t.entries hkeys t.nodupKeys

end Replace

/-! ### `add_typeattribute` -/

/-- The attribute map of a type. -/
def attrMap (db : Policydb) (type : TypeDatum) : Option Ebitmap :=
  (db.typeAttrMapArray.cells[valueBit type.value]?).join

section Typeattribute

variable {type attr : TypeDatum} {m : PolicyMem}

/-- A type without a map gets nothing. -/
theorem addTypeattributeRaw_run_none (hmap : attrMap m.db type = none) :
    (addTypeattributeRaw type attr).run m = ((), m) := by
  rw [attrMap] at hmap
  rcases hcell : m.db.typeAttrMapArray.cells[valueBit type.value]? with _ | _ | sattr
  · simp [addTypeattributeRaw, hcell]
  · simp [addTypeattributeRaw, hcell]
  · rw [hcell] at hmap
    exact absurd hmap (Option.some_ne_none _)

/-- What `add_typeattribute_raw` leaves. -/
structure Attributed (type attr : TypeDatum) (sattr : Ebitmap) (m m' : PolicyMem) : Prop where
  types : m'.db.pTypes = m.db.pTypes
  cells : m'.db.typeAttrMapArray.cells = m.db.typeAttrMapArray.cells.set (valueBit type.value)
    (some (if valueBit attr.value ∉ sattr ∧ m.grants 0 = false then sattr else insert (valueBit attr.value) sattr))
  classes : m'.db.pClasses.table.entries =
      (m.db.pClasses.table.entries.map fun e => ⟨e.1, e.2.withType type attr⟩) ↔
    Granted (unlisted type attr m.db) (m.asked (missing sattr (valueBit attr.value)))

theorem addTypeattributeRaw_attributed {sattr : Ebitmap} (hmap : attrMap m.db type = some sattr) :
    Attributed type attr sattr m ((addTypeattributeRaw type attr).run m).2 := by
  have hcell : m.db.typeAttrMapArray.cells[valueBit type.value]? = some (some sattr) :=
    Option.join_eq_some_iff.mp hmap
  have hloop : (fun e : Σ _ : Name, ClassDatum => (do
      let constraints ← e.2.constraints.mapM fun n => do
        return { n with expr := ← n.expr.mapM (constraintExprAdd type attr) }
      return ⟨e.1, { e.2 with constraints := constraints }⟩ : PolicyM (Σ _ : Name, ClassDatum)))
        = constrainedClasses type attr := rfl
  have hfills := Fills.mapM (l := m.db.pClasses.table.entries) fun e _ => fills_constrainedClasses type attr e
  have hkeys : ∀ m' : PolicyMem, ((m.db.pClasses.table.entries.mapM (constrainedClasses type attr)).run m').1.keys =
      m.db.pClasses.table.entries.keys := fun m' => mapM_map_eq (fun e _ m => rfl) m'
  rw [addTypeattributeRaw]
  simp only [hloop, run_bind, run_readDb, hcell, run_modifyDb, ebitmapSetBitIgnore_run, PolicyMem.asked_db]
  refine ⟨?_, ?_, ?_⟩
  · rw [(hfills _).1]
    rfl
  · rw [(hfills _).1]
    rfl
  · rw [(hfills _).1]
    have hentries := entries_foldl_replace _ m.db.pClasses.table (hkeys { m.asked (missing sattr
      (valueBit attr.value)) with db := { m.db with typeAttrMapArray := { m.db.typeAttrMapArray with
        cells := m.db.typeAttrMapArray.cells.set (valueBit type.value) (some
          (if valueBit attr.value ∉ sattr ∧ m.grants 0 = false then sattr
            else insert (valueBit attr.value) sattr)) } } })
    exact (iff_of_eq (congrArg (· = _) hentries)).trans (hfills _).2

end Typeattribute

/-! ### `add_type` -/

/-- How many requests it takes to give the new type to every role. -/
def rolesMissing (db : Policydb) (bit : ℕ) : ℕ := (db.roleValToStruct.map fun r => missing r.types bit).sum

/-- The map of a type that `add_type` has made, and the requests it took. -/
structure Extended (value : UInt32) (m m' : PolicyMem) : Prop where
  allocs : m'.allocs = (m.asked (7 + rolesMissing m.db (valueBit value))).allocs
  cells : m'.db.typeAttrMapArray.cells =
    (grownCells m.db.typeAttrMapArray value.toNat (value - 1).toNat).set (valueBit value)
      (some (if m.grants 6 = false then ∅ else {valueBit value}))

theorem addType_extended {name : Name} (attr : Bool) {m : PolicyMem}
    (hname : symtabSearch m.db.pTypes name = none) (hgranted : Granted 6 m) :
    Extended (m.db.pTypes.nprim + 1) m ((addType name attr).run m).2 := by
  have hg : ∀ i < 6, (m.allocs[i]?).getD true = true := granted_iff_grants.mp hgranted
  have hkey : name ∉ m.db.pTypes.table := AList.lookup_eq_none.mp hname
  have hroles := Fills.mapM (l := m.db.roleValToStruct) fun r _ =>
    (fills_ebitmapSetBitIgnore r.types (valueBit (m.db.pTypes.nprim + 1))).map (g := RoleDatum.mk)
      fun a b h => congrArg RoleDatum.types h
  simp only [addType, typesInsert, ksuKvrealloc, moveBlock, run_bind, run_readDb, hname, run_modifyDb, kalloc_run_eq,
    PolicyMem.grants, PolicyMem.asked, List.getElem?_drop, List.drop_drop, hg, Nat.reduceAdd, Nat.reduceLT, Bool.not_true,
    Bool.false_eq_true, if_false, if_true, run_pure, hkey, ebitmapSetBitIgnore_run]
  have hone : missing ∅ (valueBit (m.db.pTypes.nprim + 1)) = 1 := if_neg (Finset.notMem_empty _)
  constructor
  · rw [(hroles _).1]
    show List.drop _ (List.drop _ m.allocs) = List.drop _ m.allocs
    rw [List.drop_drop, hone]
    rfl
  · rw [(hroles _).1]
    show List.set _ _ (some (if _ ∉ (∅ : Ebitmap) ∧ m.grants 6 = false then _ else _)) = _
    simp only [Finset.notMem_empty, not_false_eq_true, true_and, insert_empty_eq]
    rfl

/-- The new type's map, unless its value wraps. -/
theorem Extended.attrMap {m m' : PolicyMem} {type : TypeDatum} (hvalue : type.value = m.db.pTypes.nprim + 1)
    (h : Extended (m.db.pTypes.nprim + 1) m m') :
    Selinux.attrMap m'.db type = if m.db.pTypes.nprim.toNat + 1 < 2 ^ 32 then
      some (if m.grants 6 = false then ∅ else {m.db.pTypes.nprim.toNat}) else none := by
  have hbit : valueBit (m.db.pTypes.nprim + 1) = m.db.pTypes.nprim.toNat := by
    rw [valueBit, UInt32.add_sub_cancel]
  have hnat : (m.db.pTypes.nprim + 1).toNat = (m.db.pTypes.nprim.toNat + 1) % 2 ^ 32 := UInt32.toNat_add _ _
  have hlt := m.db.pTypes.nprim.toNat_lt
  rw [Selinux.attrMap, h.cells, hvalue, hbit, UInt32.add_sub_cancel]
  by_cases hwrap : m.db.pTypes.nprim.toNat + 1 < 2 ^ 32
  · have hlen : m.db.pTypes.nprim.toNat <
        (grownCells m.db.typeAttrMapArray (m.db.pTypes.nprim + 1).toNat m.db.pTypes.nprim.toNat).length := by
      rw [hnat, Nat.mod_eq_of_lt hwrap, grownCells]
      simp only [List.length_append, List.length_take, List.length_replicate]
      omega
    rw [if_pos hwrap, List.getElem?_set_self hlen]
    rfl
  · have hlen : (grownCells m.db.typeAttrMapArray (m.db.pTypes.nprim + 1).toNat m.db.pTypes.nprim.toNat).length ≤
        m.db.pTypes.nprim.toNat := by
      have hzero : (m.db.pTypes.nprim.toNat + 1) % 2 ^ 32 = 0 := by omega
      rw [hnat, hzero, grownCells]
      simp only [List.length_append, List.length_take, List.length_replicate]
      omega
    rw [if_neg hwrap, List.getElem?_eq_none (by rwa [List.length_set])]
    rfl

/-! ### The commands -/

/-- The commands on types and attributes. -/
inductive TypeCommand
  | newType (name attr : Name)
  | newAttribute (name : Name)
  | typeattribute (type attr : Name)
  deriving DecidableEq, Repr

namespace TypeCommand

def exec : TypeCommand → PolicyM Bool
  | newType name attr => ksuType name attr
  | newAttribute name => ksuAttribute name
  | typeattribute type attr => ksuTypeattribute type attr

/-- The names denote a type that is no attribute, and an attribute. -/
structure Denote (db : Policydb) (type attr : Name) (t a : TypeDatum) : Prop where
  type : symtabSearch db.pTypes type = some t
  plain : t.isAttribute = false
  attr : symtabSearch db.pTypes attr = some a
  isAttribute : a.isAttribute = true

/-- What `typeattribute` says: the type has the attribute, and so have the constraints; nothing else changes in
the attribute maps and in the constraints. -/
structure GotAttribute (t a : TypeDatum) (db db' : Policydb) : Prop where
  map : ∃ e, attrMap db' t = some e ∧ valueBit a.value ∈ e ∧ valueBit t.value ∈ e
  others : ∀ i, i ≠ valueBit t.value → db'.typeAttrMapArray.cells[i]? = db.typeAttrMapArray.cells[i]?
  constraints : db'.pClasses.table.entries = db.pClasses.table.entries.map fun e => ⟨e.1, e.2.withType t a⟩

/-- What a command says. -/
def Says (db db' : Policydb) : TypeCommand → Prop
  | newType name attr => ∃ t a, Denote db' name attr t a ∧ ∃ e, attrMap db' t = some e ∧ valueBit a.value ∈ e
  | newAttribute name => ∃ t, symtabSearch db'.pTypes name = some t ∧ t.isAttribute = true
  | typeattribute type attr => ∃ t a, Denote db type attr t a ∧ GotAttribute t a db db'

/-- The command, if it succeeds, means what it says. -/
def Means (c : TypeCommand) (m : PolicyMem) : Prop :=
  (c.exec.run m).1 = true → c.Says m.db (c.exec.run m).2.db

/-- **The states that a command fits.**  A name for an attribute is new or one already; a type has a map, with its
own bit in it; and the requests for the bits are granted. -/
def Fits (m : PolicyMem) : TypeCommand → Prop
  | newType name attr =>
    match symtabSearch m.db.pTypes name with
    | some _ => ∀ t a, Denote m.db name attr t a →
      ∃ e, attrMap m.db t = some e ∧ (valueBit a.value ∈ e ∨ m.grants 0 = true)
    | none => Granted 6 m → ∀ a, symtabSearch m.db.pTypes attr = some a → a.isAttribute = true →
      m.db.pTypes.nprim.toNat + 1 < 2 ^ 32 ∧
        (valueBit a.value = m.db.pTypes.nprim.toNat ∧ m.grants 6 = true ∨
          m.grants (7 + rolesMissing m.db (valueBit (m.db.pTypes.nprim + 1))) = true)
  | newAttribute name => ∀ t, symtabSearch m.db.pTypes name = some t → t.isAttribute = true
  | typeattribute type attr => ∀ t a, Denote m.db type attr t a →
      ∃ e, attrMap m.db t = some e ∧ valueBit t.value ∈ insert (valueBit a.value) e ∧
        Granted (missing e (valueBit a.value) + unlisted t a m.db) m

/-! ### When they mean what they say -/

theorem Denote.unique {db : Policydb} {type attr : Name} {t a t' a' : TypeDatum} (h : Denote db type attr t a)
    (h' : Denote db type attr t' a') : t = t' ∧ a = a' :=
  ⟨Option.some.inj (h.type.symm.trans h'.type), Option.some.inj (h.attr.symm.trans h'.attr)⟩

theorem Denote.run {type attr : Name} {t a : TypeDatum} {m : PolicyMem} (h : Denote m.db type attr t a) :
    (addTypeattribute type attr).run m = (true, ((addTypeattributeRaw t a).run m).2) := by
  simp only [addTypeattribute, run_bind, run_readDb, h.type, h.plain, h.attr, h.isAttribute, Bool.false_eq_true,
    if_false, Bool.not_true, run_pure]

theorem exists_denote {type attr : Name} {m : PolicyMem} (h : ((addTypeattribute type attr).run m).1 = true) :
    ∃ t a, Denote m.db type attr t a := by
  cases ht : symtabSearch m.db.pTypes type with
  | none => simp [addTypeattribute, ht] at h
  | some t =>
  cases hplain : t.isAttribute with
  | true => simp [addTypeattribute, ht, hplain] at h
  | false =>
  cases ha : symtabSearch m.db.pTypes attr with
  | none => simp [addTypeattribute, ht, hplain, ha] at h
  | some a =>
  cases hattr : a.isAttribute with
  | false => simp [addTypeattribute, ht, hplain, ha, hattr] at h
  | true => exact ⟨t, a, ht, hplain, ha, hattr⟩

/-- The attribute map of the type after `add_typeattribute_raw`. -/
theorem attrMap_addTypeattributeRaw (t a : TypeDatum) (m : PolicyMem) :
    attrMap ((addTypeattributeRaw t a).run m).2.db t = (attrMap m.db t).map fun e =>
      if valueBit a.value ∉ e ∧ m.grants 0 = false then e else insert (valueBit a.value) e := by
  cases hmap : attrMap m.db t with
  | none =>
    rw [addTypeattributeRaw_run_none hmap, hmap]
    rfl
  | some e =>
    have hcell : m.db.typeAttrMapArray.cells[valueBit t.value]? = some (some e) := Option.join_eq_some_iff.mp hmap
    obtain ⟨hlt, -⟩ := List.getElem?_eq_some_iff.mp hcell
    rw [attrMap, (addTypeattributeRaw_attributed hmap).cells, List.getElem?_set_self hlt]
    rfl

/-- The type has the attribute afterwards if it had it or the request for the bit is granted. -/
theorem hasAttr_iff (t a : TypeDatum) (m : PolicyMem) :
    (∃ e, attrMap ((addTypeattributeRaw t a).run m).2.db t = some e ∧ valueBit a.value ∈ e) ↔
      ∃ e, attrMap m.db t = some e ∧ (valueBit a.value ∈ e ∨ m.grants 0 = true) := by
  rw [attrMap_addTypeattributeRaw]
  cases attrMap m.db t with
  | none => simp
  | some e =>
    simp only [Option.map_some, Option.some.injEq, exists_eq_left']
    by_cases hin : valueBit a.value ∈ e
    · simp [hin]
    · cases m.grants 0 <;> simp [hin]

theorem typeattribute_means_iff (type attr : Name) (m : PolicyMem) :
    (typeattribute type attr).Means m ↔ (typeattribute type attr).Fits m := by
  have hexec : (typeattribute type attr).exec = addTypeattribute type attr := rfl
  rw [Means, hexec]
  constructor
  · intro h t a hdenote
    rw [hdenote.run] at h
    obtain ⟨t', a', hdenote', hgot⟩ := h rfl
    obtain ⟨rfl, rfl⟩ := hdenote.unique hdenote'
    obtain ⟨e', hmap', hattr, htype⟩ := hgot.map
    rw [attrMap_addTypeattributeRaw] at hmap'
    obtain ⟨e, hmap, rfl⟩ := Option.map_eq_some_iff.mp hmap'
    have hraw : Attributed t a e m ((addTypeattributeRaw t a).run m).2 := addTypeattributeRaw_attributed hmap
    refine ⟨e, hmap, ?_, ?_⟩
    · split at htype
      · exact Finset.mem_insert_of_mem htype
      · exact htype
    · rw [granted_add, ← hraw.classes]
      refine ⟨?_, hgot.constraints⟩
      rw [missing]
      split
      · exact granted_zero m
      · next hin =>
        rw [granted_one]
        by_contra hno
        rw [if_pos ⟨hin, Bool.eq_false_iff.mpr hno⟩] at hattr
        exact hin hattr
  · intro h hsuccess
    obtain ⟨t, a, hdenote⟩ := exists_denote hsuccess
    obtain ⟨e, hmap, htype, hgranted⟩ := h t a hdenote
    rw [hdenote.run]
    have hraw : Attributed t a e m ((addTypeattributeRaw t a).run m).2 := addTypeattributeRaw_attributed hmap
    obtain ⟨hbit, hrest⟩ := granted_add.mp hgranted
    have hset : ¬(valueBit a.value ∉ e ∧ m.grants 0 = false) := by
      rintro ⟨hin, hno⟩
      rw [missing, if_neg hin, granted_one, hno] at hbit
      exact absurd hbit Bool.false_ne_true
    refine ⟨t, a, hdenote, ?_, ?_, hraw.classes.mpr hrest⟩
    · refine ⟨insert (valueBit a.value) e, ?_, Finset.mem_insert_self _ _, htype⟩
      rw [attrMap_addTypeattributeRaw, hmap, Option.map_some, if_neg hset]
    · intro i hi
      show (((addTypeattributeRaw t a).run m).2.db.typeAttrMapArray.cells)[i]? = _
      rw [hraw.cells, List.getElem?_set_ne (Ne.symm hi)]

theorem newAttribute_means_iff (name : Name) (m : PolicyMem) :
    (newAttribute name).Means m ↔ (newAttribute name).Fits m := by
  have hexec : (newAttribute name).exec = addType name true := rfl
  rw [Means, hexec]
  cases hname : symtabSearch m.db.pTypes name with
  | some t =>
    rw [addType_existing true hname]
    constructor
    · intro h t' ht'
      obtain ⟨t'', ht'', hattr⟩ := h rfl
      obtain rfl := Option.some.inj (ht'.symm.trans ht'')
      exact hattr
    · exact fun h _ => ⟨t, hname, h t hname⟩
  | none =>
    refine ⟨fun _ t ht => absurd (hname.symm.trans ht) (Option.some_ne_none t).symm, fun _ => ?_⟩
    generalize hrun : (addType name true).run m = r
    have hend := addType_new true hname
    rw [hrun] at hend
    cases hend with
    | created _ hcreated =>
      intro _
      exact ⟨_, (hcreated.search name).trans (if_pos rfl), rfl⟩
    | left _ _ => exact fun h => absurd h Bool.false_ne_true

theorem addTypeattributeRaw_pTypes (t a : TypeDatum) (m : PolicyMem) :
    ((addTypeattributeRaw t a).run m).2.db.pTypes = m.db.pTypes := by
  cases hmap : attrMap m.db t with
  | none => rw [addTypeattributeRaw_run_none hmap]
  | some e => exact (addTypeattributeRaw_attributed hmap).types

/-- What the second half of `ksu_type` has to find. -/
theorem Denote.says_newType_iff {name attr : Name} {t a : TypeDatum} {m : PolicyMem} (h : Denote m.db name attr t a)
    (db : Policydb) :
    (newType name attr).Says db ((addTypeattribute name attr).run m).2.db ↔
      ∃ e, attrMap m.db t = some e ∧ (valueBit a.value ∈ e ∨ m.grants 0 = true) := by
  have hpTypes := addTypeattributeRaw_pTypes t a m
  have hafter : Denote ((addTypeattributeRaw t a).run m).2.db name attr t a := by
    refine ⟨?_, h.plain, ?_, h.isAttribute⟩
    · rw [hpTypes]
      exact h.type
    · rw [hpTypes]
      exact h.attr
  rw [h.run, ← hasAttr_iff]
  constructor
  · rintro ⟨t', a', hdenote', hhas⟩
    obtain ⟨rfl, rfl⟩ := hafter.unique hdenote'
    exact hhas
  · exact fun hhas => ⟨t, a, hafter, hhas⟩

/-- What the names denote after `add_type` made the first. -/
theorem denote_created_iff {name attr : Name} {m m' : PolicyMem} (h : Created name false m m')
    (hname : symtabSearch m.db.pTypes name = none) (t a : TypeDatum) :
    Denote m'.db name attr t a ↔
      t = ⟨m.db.pTypes.nprim + 1, true, false⟩ ∧ symtabSearch m.db.pTypes attr = some a ∧ a.isAttribute = true := by
  have hself := (h.search name).trans (if_pos rfl)
  constructor
  · intro hdenote
    refine ⟨Option.some.inj (hdenote.type.symm.trans hself), ?_, hdenote.isAttribute⟩
    have hattr := hdenote.attr
    rw [h.search] at hattr
    split at hattr
    · -- the new type is no attribute
      obtain rfl := Option.some.inj hattr
      exact absurd hdenote.isAttribute Bool.false_ne_true
    · exact hattr
  · rintro ⟨rfl, hattr, hisAttribute⟩
    have hne : attr ≠ name := by
      rintro rfl
      exact absurd (hname.symm.trans hattr) (Option.some_ne_none a).symm
    exact ⟨hself, rfl, (h.search attr).trans ((if_neg hne).trans hattr), hisAttribute⟩

theorem newType_means_iff (name attr : Name) (m : PolicyMem) :
    (newType name attr).Means m ↔ (newType name attr).Fits m := by
  have hexec : (newType name attr).exec = ksuType name attr := rfl
  rw [Means, hexec, ksuType, Fits]
  simp only [run_bind]
  cases hname : symtabSearch m.db.pTypes name with
  | some t =>
    rw [addType_existing false hname]
    simp only [if_true]
    constructor
    · intro h t' a hdenote
      exact (hdenote.says_newType_iff m.db).mp (h (by rw [hdenote.run]))
    · intro h hsuccess
      obtain ⟨t', a, hdenote⟩ := exists_denote hsuccess
      exact (hdenote.says_newType_iff m.db).mpr (h t' a hdenote)
  | none =>
    have hextended := addType_extended false hname
    generalize hrun : (addType name false).run m = r at hextended
    have hend := addType_new false hname
    rw [hrun] at hend
    cases hend with
    | left hrefused _ =>
      simp only [Bool.false_eq_true, if_false, run_pure, false_implies, true_iff]
      exact fun h => absurd h hrefused
    | @created m' hgranted hcreated =>
      have hbits := hextended hgranted
      have hgrants : m'.grants 0 = m.grants (7 + rolesMissing m.db (valueBit (m.db.pTypes.nprim + 1))) := by
        rw [PolicyMem.grants, hbits.allocs]
        exact PolicyMem.grants_asked m _ 0
      have hhas : ∀ a : TypeDatum,
          (∃ e, attrMap m'.db ⟨m.db.pTypes.nprim + 1, true, false⟩ = some e ∧
            (valueBit a.value ∈ e ∨ m'.grants 0 = true)) ↔
          m.db.pTypes.nprim.toNat + 1 < 2 ^ 32 ∧
            (valueBit a.value = m.db.pTypes.nprim.toNat ∧ m.grants 6 = true ∨
              m.grants (7 + rolesMissing m.db (valueBit (m.db.pTypes.nprim + 1))) = true) := by
        intro a
        rw [hbits.attrMap rfl, hgrants]
        by_cases hwrap : m.db.pTypes.nprim.toNat + 1 < 2 ^ 32
        · rw [if_pos hwrap, and_iff_right hwrap]
          cases m.grants 6 <;> simp
        · rw [if_neg hwrap]
          exact ⟨fun h => absurd h.choose_spec.1.symm (Option.some_ne_none _), fun h => absurd h.1 hwrap⟩
      simp only [if_true, hgranted, forall_true_left]
      constructor
      · intro h a ha hattr
        have hdenote := (denote_created_iff hcreated hname _ a).mpr ⟨rfl, ha, hattr⟩
        exact (hhas a).mp ((hdenote.says_newType_iff m.db).mp (h (by rw [hdenote.run])))
      · intro h hsuccess
        obtain ⟨t, a, hdenote⟩ := exists_denote hsuccess
        obtain ⟨rfl, ha, hattr⟩ := (denote_created_iff hcreated hname t a).mp hdenote
        exact (hdenote.says_newType_iff m.db).mpr ((hhas a).mpr (h a ha hattr))

/-- **A command that succeeds means what it says exactly in the states that it fits.** -/
theorem means_iff (c : TypeCommand) (m : PolicyMem) : c.Means m ↔ c.Fits m := by
  cases c with
  | newType name attr => exact newType_means_iff name attr m
  | newAttribute name => exact newAttribute_means_iff name m
  | typeattribute type attr => exact typeattribute_means_iff type attr m

/-- **An existing type that is no attribute**: `attribute` succeeds and leaves it a plain type. -/
theorem not_means_newAttribute : ¬ (newAttribute [1]).Means ioctlMem := by
  intro h
  obtain ⟨t, ht, hattr⟩ := h rfl
  obtain rfl : ⟨1, true, false⟩ = t := Option.some.inj ht
  exact absurd hattr Bool.false_ne_true

end TypeCommand

end KernelSU.Selinux
