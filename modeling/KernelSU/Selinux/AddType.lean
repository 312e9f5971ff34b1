import KernelSU.Selinux.Sepolicy

/-!
# Creating a type when an allocation fails

* `addType_new` — **PROVED**: with its six allocation requests granted, `add_type` creates the type; with
  one refused it fails and leaves the count of types one too high;
* `Created.consistent`, `Left.inconsistent` — **PROVED**: the one keeps the type tables consistent, the
  other breaks them;
* `typeCreation_atomic_iff` — **PROVED**: exactly when a failing `ksu_attribute` or `ksu_type` leaves
  the tables consistent.
-/

namespace KernelSU.Selinux

/-! ### Consistent type tables -/

/-- An array of `n` initialised slots. -/
def KArray.Full {α : Type} (a : KArray α) (n : ℕ) : Prop :=
  a.cells.length = n ∧ ∀ i < n, ∃ x, a.cells[i]? = some (some x)

/-- Every type value has a symbol and a slot in each of the three arrays, there is no other symbol, and no
array in use is a freed block.  The allocator hands out new addresses. -/
structure TypesConsistent (m : PolicyMem) : Prop where
  named : ∀ v, 0 < v → v ≤ m.db.pTypes.nprim.toNat → ∃ t ∈ m.db.pTypes.datums, t.value.toNat = v
  bounded : ∀ t ∈ m.db.pTypes.datums, t.value.toNat ≤ m.db.pTypes.nprim.toNat
  typeAttrMapArray : m.db.typeAttrMapArray.Full m.db.pTypes.nprim.toNat
  typeValToStruct : m.db.typeValToStruct.Full m.db.pTypes.nprim.toNat
  symValToNameTypes : m.db.symValToNameTypes.Full m.db.pTypes.nprim.toNat
  live : m.db.typeAttrMapArray.addr ∉ m.freed ∧ m.db.typeValToStruct.addr ∉ m.freed ∧
    m.db.symValToNameTypes.addr ∉ m.freed
  fresh : (∀ a ∈ m.freed, a < m.nextAddr) ∧ m.db.typeAttrMapArray.addr < m.nextAddr ∧
    m.db.typeValToStruct.addr < m.nextAddr ∧ m.db.symValToNameTypes.addr < m.nextAddr

/-! ### Requests -/

/-- The next `k` allocation requests are granted. -/
def Granted (k : ℕ) (m : PolicyMem) : Prop := ∀ b ∈ m.allocs.take k, b = true

instance (k : ℕ) (m : PolicyMem) : Decidable (Granted k m) :=
  inferInstanceAs (Decidable (∀ b ∈ m.allocs.take k, b = true))

@[simp] theorem granted_zero (m : PolicyMem) : Granted 0 m := by simp [Granted]

/-- Everything but the coming outcomes is as before. -/
structure SameButAllocs (m m' : PolicyMem) : Prop where
  db : m'.db = m.db
  freed : m'.freed = m.freed
  nextAddr : m'.nextAddr = m.nextAddr

namespace SameButAllocs

theorem refl (m : PolicyMem) : SameButAllocs m m := ⟨rfl, rfl, rfl⟩

theorem trans {m₁ m₂ m₃ : PolicyMem} (h : SameButAllocs m₁ m₂) (h' : SameButAllocs m₂ m₃) :
    SameButAllocs m₁ m₃ :=
  ⟨h'.db.trans h.db, h'.freed.trans h.freed, h'.nextAddr.trans h.nextAddr⟩

end SameButAllocs

/-- One request takes one outcome. -/
theorem kalloc_run {m m' : PolicyMem} {b : Bool} (h : kalloc.run m = (b, m')) :
    SameButAllocs m m' ∧ ∀ k, Granted (k + 1) m ↔ b = true ∧ Granted k m' := by
  rcases m with ⟨db, _ | ⟨b', bs⟩, u, f, n⟩
  · obtain ⟨rfl, rfl⟩ := Prod.mk.inj h
    exact ⟨.refl _, fun k => by simp [Granted]⟩
  · obtain ⟨rfl, rfl⟩ := Prod.mk.inj h
    exact ⟨⟨rfl, rfl, rfl⟩, fun k => by simp [Granted]⟩

/-- An operation that only asks for memory. -/
def Quiet {α : Type} (x : PolicyM α) : Prop := ∀ m, SameButAllocs m (x.run m).2

theorem Quiet.of_run {α : Type} {x : PolicyM α} {m m' : PolicyMem} {a : α} (hx : Quiet x)
    (h : x.run m = (a, m')) : SameButAllocs m m' := by
  have hrun := hx m
  rwa [h] at hrun

theorem quiet_pure {α : Type} (a : α) : Quiet (pure a : PolicyM α) := fun m => .refl m

theorem quiet_kalloc : Quiet kalloc := fun _ => (kalloc_run rfl).1

theorem Quiet.bind {α β : Type} {x : PolicyM α} {f : α → PolicyM β} (hx : Quiet x)
    (hf : ∀ a, Quiet (f a)) : Quiet (x >>= f) := fun m => (hx m).trans (hf _ _)

theorem Quiet.mapM {α β : Type} {f : α → PolicyM β} (hf : ∀ a, Quiet (f a)) (l : List α) :
    Quiet (l.mapM f) := by
  induction l with
  | nil => exact quiet_pure []
  | cons a l ih =>
    rw [List.mapM_cons]
    exact (hf a).bind fun b => ih.bind fun bs => quiet_pure (b :: bs)

theorem quiet_ebitmapSetBit (e : Ebitmap) (bit : ℕ) (value : Bool) : Quiet (ebitmapSetBit e bit value) := by
  rw [ebitmapSetBit]
  split
  · split
    · exact quiet_pure _
    · refine quiet_kalloc.bind fun b => ?_
      split
      · exact quiet_pure _
      · exact quiet_pure _
  · exact quiet_pure _

theorem quiet_ebitmapSetBitIgnore (e : Ebitmap) (bit : ℕ) : Quiet (ebitmapSetBitIgnore e bit) :=
  (quiet_ebitmapSetBit e bit true).bind fun _ => quiet_pure _

/-! ### Creating a type -/

/-- The cells of a reallocated array. -/
def grownCells {α : Type} (a : KArray α) (newSize oldSize : ℕ) : List (Option α) :=
  a.cells.take oldSize ++ List.replicate (newSize - (a.cells.take oldSize).length) none

/-- A new name is entered when its node is granted. -/
theorem typesInsert_run {key : Name} {type : TypeDatum} {m m' : PolicyMem} {b : Bool}
    (hkey : key ∉ m.db.pTypes.table) (h : (typesInsert key type).run m = (b, m')) :
    m'.db.pTypes.nprim = m.db.pTypes.nprim ∧
      (b = true → m'.db.pTypes.table = m.db.pTypes.table.insert key type) ∧
      m'.db.typeAttrMapArray = m.db.typeAttrMapArray ∧
      m'.db.typeValToStruct = m.db.typeValToStruct ∧
      m'.db.symValToNameTypes = m.db.symValToNameTypes ∧
      m'.freed = m.freed ∧ m'.nextAddr = m.nextAddr ∧
      ∀ k, Granted (k + 1) m ↔ b = true ∧ Granted k m' := by
  rcases hk : kalloc.run m with ⟨c, n⟩
  obtain ⟨hsame, hgranted⟩ := kalloc_run hk
  cases c with
  | false =>
    have hrun : (typesInsert key type).run m = (false, n) := by simp [typesInsert, hkey, hk]
    obtain ⟨rfl, rfl⟩ := Prod.mk.inj (hrun.symm.trans h)
    simp [hsame.db, hsame.freed, hsame.nextAddr, hgranted]
  | true =>
    have hrun : (typesInsert key type).run m =
        (true, { n with db := { n.db with pTypes :=
          { n.db.pTypes with table := n.db.pTypes.table.insert key type } } }) := by
      simp [typesInsert, hkey, hk]
    obtain ⟨rfl, rfl⟩ := Prod.mk.inj (hrun.symm.trans h)
    rw [← hsame.db]
    exact ⟨rfl, fun _ => rfl, rfl, rfl, rfl, hsame.freed, hsame.nextAddr, hgranted⟩

/-- A reallocation moves the old block to a fresh one, or changes nothing. -/
theorem ksuKvrealloc_run {α : Type} {a : KArray α} {newSize oldSize : ℕ} {m m' : PolicyMem}
    {r : Option (KArray α)} (h : (ksuKvrealloc a newSize oldSize).run m = (r, m')) :
    m'.db = m.db ∧ (∀ k, Granted (k + 1) m ↔ r.isSome = true ∧ Granted k m') ∧
      ∀ a', r = some a' → a' = ⟨m.nextAddr, grownCells a newSize oldSize⟩ ∧
        m'.freed = a.addr :: m.freed ∧ m'.nextAddr = m.nextAddr + 1 := by
  rcases hk : kalloc.run m with ⟨c, n⟩
  obtain ⟨hsame, hgranted⟩ := kalloc_run hk
  cases c with
  | false =>
    have hrun : (ksuKvrealloc a newSize oldSize).run m = (none, n) := by simp [ksuKvrealloc, hk]
    obtain ⟨rfl, rfl⟩ := Prod.mk.inj (hrun.symm.trans h)
    simp [hsame.db, hgranted]
  | true =>
    have hrun : (ksuKvrealloc a newSize oldSize).run m =
        (some ⟨n.nextAddr, grownCells a newSize oldSize⟩,
          { n with freed := a.addr :: n.freed, nextAddr := n.nextAddr + 1 }) := by
      simp [ksuKvrealloc, hk, moveBlock, grownCells]
    obtain ⟨rfl, rfl⟩ := Prod.mk.inj (hrun.symm.trans h)
    refine ⟨hsame.db, hgranted, ?_⟩
    rintro a' h'
    obtain rfl := Option.some.inj h'
    exact ⟨by rw [hsame.nextAddr], by rw [hsame.freed], by rw [hsame.nextAddr]⟩

/-- What a type created under a new name leaves behind. -/
structure Created (name : Name) (attr : Bool) (m m' : PolicyMem) : Prop where
  pTypes : m'.db.pTypes =
    ⟨m.db.pTypes.table.insert name ⟨m.db.pTypes.nprim + 1, true, attr⟩, m.db.pTypes.nprim + 1⟩
  typeAttrMapArray : ∃ own, m'.db.typeAttrMapArray =
    ⟨m.nextAddr, (grownCells m.db.typeAttrMapArray (m.db.pTypes.nprim + 1).toNat
      (m.db.pTypes.nprim + 1 - 1).toNat).set (valueBit (m.db.pTypes.nprim + 1)) (some own)⟩
  typeValToStruct : ∃ type, m'.db.typeValToStruct =
    ⟨m.nextAddr + 1, (grownCells m.db.typeValToStruct (m.db.pTypes.nprim + 1).toNat
      (m.db.pTypes.nprim + 1 - 1).toNat).set (valueBit (m.db.pTypes.nprim + 1)) (some type)⟩
  symValToNameTypes : ∃ key, m'.db.symValToNameTypes =
    ⟨m.nextAddr + 2, (grownCells m.db.symValToNameTypes (m.db.pTypes.nprim + 1).toNat
      (m.db.pTypes.nprim + 1 - 1).toNat).set (valueBit (m.db.pTypes.nprim + 1)) (some key)⟩
  freed : m'.freed = m.db.symValToNameTypes.addr :: m.db.typeValToStruct.addr ::
    m.db.typeAttrMapArray.addr :: m.freed
  nextAddr : m'.nextAddr = m.nextAddr + 3

/-- The roles are no part of it. -/
theorem Created.withRoles {name : Name} {attr : Bool} {m m₁ m₂ : PolicyMem} (roles : List RoleDatum)
    (h : Created name attr m m₁) (hsame : SameButAllocs m₁ m₂) :
    Created name attr m { m₂ with db := { m₂.db with roleValToStruct := roles } } := by
  rcases h with ⟨hp, ha, hv, hy, hf, hn⟩
  rw [← hsame.db] at hp ha hv hy
  exact ⟨hp, ha, hv, hy, hsame.freed.trans hf, hsame.nextAddr.trans hn⟩

/-- What a failed creation leaves behind: the count has gone up, the arrays have not. -/
structure Left (m m' : PolicyMem) : Prop where
  nprim : m'.db.pTypes.nprim = m.db.pTypes.nprim + 1
  typeAttrMapArray : m'.db.typeAttrMapArray = m.db.typeAttrMapArray

/-- How `add_type` ends under a new name. -/
inductive AddTypeEnd (name : Name) (attr : Bool) (m : PolicyMem) : Bool × PolicyMem → Prop where
  | created {m' : PolicyMem} : Granted 6 m → Created name attr m m' → AddTypeEnd name attr m (true, m')
  | left {m' : PolicyMem} : ¬ Granted 6 m → Left m m' → AddTypeEnd name attr m (false, m')

/-- **PROVED.**  Under a new name `add_type` makes six requests: with all granted the type is created, with
one refused the count of types stays one too high. -/
theorem addType_new {name : Name} (attr : Bool) {m : PolicyMem}
    (hname : symtabSearch m.db.pTypes name = none) :
    AddTypeEnd name attr m ((addType name attr).run m) := by
  have hkey : name ∉ m.db.pTypes.table := AList.lookup_eq_none.mp hname
  rw [addType]
  simp only [run_bind, run_readDb, hname, run_modifyDb]
  -- the datum and the copy of its name
  rcases h₁ : kalloc.run { m with db := { m.db with pTypes :=
      { m.db.pTypes with nprim := m.db.pTypes.nprim + 1 } } } with ⟨b₁, m₁⟩
  obtain ⟨s₁, g₁⟩ := kalloc_run h₁
  have g₁ : Granted 6 m ↔ b₁ = true ∧ Granted 5 m₁ := g₁ 5
  have p₁ : m₁.db.pTypes.nprim = m.db.pTypes.nprim + 1 := by rw [s₁.db]
  have a₁ : m₁.db.typeAttrMapArray = m.db.typeAttrMapArray := by rw [s₁.db]
  cases b₁ with
  | false => exact .left (by simp [g₁]) ⟨p₁, a₁⟩
  | true =>
  simp only [Bool.not_true, Bool.false_eq_true, if_false, run_bind]
  rcases h₂ : kalloc.run m₁ with ⟨b₂, m₂⟩
  obtain ⟨s₂, g₂⟩ := kalloc_run h₂
  cases b₂ with
  | false => exact .left (by simp [g₁, g₂]) ⟨by rw [s₂.db, p₁], by rw [s₂.db, a₁]⟩
  | true =>
  simp only [Bool.not_true, Bool.false_eq_true, if_false, run_bind]
  -- its entry in the symbol table
  rcases h₃ : (typesInsert name ⟨m.db.pTypes.nprim + 1, true, attr⟩).run m₂ with ⟨b₃, m₃⟩
  have hkey₂ : name ∉ m₂.db.pTypes.table := by rw [s₂.db, s₁.db]; exact hkey
  obtain ⟨p₃, t₃, a₃, v₃, y₃, f₃, n₃, g₃⟩ := typesInsert_run hkey₂ h₃
  have p₃ : m₃.db.pTypes.nprim = m.db.pTypes.nprim + 1 := by rw [p₃, s₂.db, p₁]
  have a₃ : m₃.db.typeAttrMapArray = m.db.typeAttrMapArray := by rw [a₃, s₂.db, a₁]
  cases b₃ with
  | false => exact .left (by simp [g₁, g₂, g₃]) ⟨p₃, a₃⟩
  | true =>
  simp only [Bool.not_true, Bool.false_eq_true, if_false, run_bind, run_readDb]
  -- the three arrays
  rcases h₄ : (ksuKvrealloc m₃.db.typeAttrMapArray (m.db.pTypes.nprim + 1).toNat
    (m.db.pTypes.nprim + 1 - 1).toNat).run m₃ with ⟨r₄, m₄⟩
  obtain ⟨d₄, g₄, e₄⟩ := ksuKvrealloc_run h₄
  cases r₄ with
  | none => exact .left (by simp [g₁, g₂, g₃, g₄]) ⟨by rw [d₄, p₃], by rw [d₄, a₃]⟩
  | some newTypeAttrMapArray =>
  simp only [run_bind, run_readDb]
  rcases h₅ : (ksuKvrealloc m₄.db.typeValToStruct (m.db.pTypes.nprim + 1).toNat
    (m.db.pTypes.nprim + 1 - 1).toNat).run m₄ with ⟨r₅, m₅⟩
  obtain ⟨d₅, g₅, e₅⟩ := ksuKvrealloc_run h₅
  cases r₅ with
  | none => exact .left (by simp [g₁, g₂, g₃, g₄, g₅]) ⟨by rw [d₅, d₄, p₃], by rw [d₅, d₄, a₃]⟩
  | some newTypeValToStruct =>
  simp only [run_bind, run_readDb]
  rcases h₆ : (ksuKvrealloc m₅.db.symValToNameTypes (m.db.pTypes.nprim + 1).toNat
    (m.db.pTypes.nprim + 1 - 1).toNat).run m₅ with ⟨r₆, m₆⟩
  obtain ⟨d₆, g₆, e₆⟩ := ksuKvrealloc_run h₆
  cases r₆ with
  | none =>
    exact .left (by simp [g₁, g₂, g₃, g₄, g₅, g₆])
      ⟨by rw [d₆, d₅, d₄, p₃], by rw [d₆, d₅, d₄, a₃]⟩
  | some newValToNameTypes =>
  refine .created (by simp [g₁, g₂, g₃, g₄, g₅, g₆]) ?_
  obtain ⟨rfl, f₄, n₄⟩ := e₄ _ rfl
  obtain ⟨rfl, f₅, n₅⟩ := e₅ _ rfl
  obtain ⟨rfl, f₆, n₆⟩ := e₆ _ rfl
  -- the bits are set without regard to failure
  rcases h₇ : (ebitmapSetBitIgnore ∅ (valueBit (m.db.pTypes.nprim + 1))).run m₆ with ⟨own, m₇⟩
  obtain ⟨d₇, f₇, n₇⟩ := (quiet_ebitmapSetBitIgnore _ _).of_run h₇
  simp only [run_modifyDb, run_readDb]
  refine Created.withRoles _ ?_ (Quiet.mapM ?_ m₇.db.roleValToStruct _)
  have t₇ : m₇.db.pTypes =
      ⟨m.db.pTypes.table.insert name ⟨m.db.pTypes.nprim + 1, true, attr⟩, m.db.pTypes.nprim + 1⟩ := by
    have htable : m₃.db.pTypes.table =
        m.db.pTypes.table.insert name ⟨m.db.pTypes.nprim + 1, true, attr⟩ := by
      rw [t₃ rfl, s₂.db, s₁.db]
    rw [d₇, d₆, d₅, d₄, ← htable, ← p₃]
  refine ⟨t₇, ⟨own, ?_⟩, ⟨⟨m.db.pTypes.nprim + 1, true, attr⟩, ?_⟩, ⟨name, ?_⟩, ?_, ?_⟩
  · rw [n₃, s₂.nextAddr, s₁.nextAddr, a₃]
  · rw [n₄, n₃, s₂.nextAddr, s₁.nextAddr, d₄, v₃, s₂.db, s₁.db]
  · rw [n₅, n₄, n₃, s₂.nextAddr, s₁.nextAddr, d₅, d₄, y₃, s₂.db, s₁.db]
  · show m₇.freed = _
    rw [f₇, f₆, f₅, f₄, d₅, d₄, v₃, y₃, a₃, f₃, s₂.freed, s₁.freed, s₂.db, s₁.db]
  · show m₇.nextAddr = _
    rw [n₇, n₆, n₅, n₄, n₃, s₂.nextAddr, s₁.nextAddr]
  · exact fun r => (quiet_ebitmapSetBitIgnore r.types _).bind fun types =>
      quiet_pure (RoleDatum.mk types)

/-! ### Consistency after it -/

/-- The grown array with its last cell written has no cell left unwritten. -/
theorem full_grown {α : Type} {a : KArray α} {n : ℕ} (h : a.Full n) (addr : ℕ) (x : α) :
    KArray.Full ⟨addr, (grownCells a (n + 1) n).set n (some x)⟩ (n + 1) := by
  obtain ⟨hlen, hcells⟩ := h
  have htake : a.cells.take n = a.cells := List.take_of_length_le hlen.le
  have hcopy : grownCells a (n + 1) n = a.cells ++ [none] := by
    rw [grownCells, htake, hlen, Nat.add_sub_cancel_left]
    rfl
  rw [hcopy, List.set_append_right n (some x) hlen.le, hlen, Nat.sub_self]
  refine ⟨by simp [hlen], fun i hi => ?_⟩
  show ∃ y, (a.cells ++ [some x])[i]? = some (some y)
  rcases Nat.lt_succ_iff_lt_or_eq.mp hi with hi | rfl
  · rw [List.getElem?_append_left (hlen.symm ▸ hi)]
    exact hcells i hi
  · exact ⟨x, by rw [← hlen]; simp⟩

/-- The datums after a new entry. -/
theorem mem_datums_insert {table : AList fun _ : Name => TypeDatum} {name : Name} (hname : name ∉ table)
    (type t : TypeDatum) (n n' : UInt32) :
    t ∈ (⟨table.insert name type, n⟩ : Symtab TypeDatum).datums ↔
      t = type ∨ t ∈ (⟨table, n'⟩ : Symtab TypeDatum).datums := by
  rw [Symtab.datums, AList.entries_insert_of_notMem hname]
  simp [Symtab.datums]

/-- **PROVED.**  A type created leaves the tables consistent. -/
theorem Created.consistent {name : Name} {attr : Bool} {m m' : PolicyMem} (hm : TypesConsistent m)
    (hname : symtabSearch m.db.pTypes name = none) (hmax : m.db.pTypes.nprim.toNat + 1 < 2 ^ 32)
    (h : Created name attr m m') : TypesConsistent m' := by
  have hkey : name ∉ m.db.pTypes.table := AList.lookup_eq_none.mp hname
  have hvalue : (m.db.pTypes.nprim + 1).toNat = m.db.pTypes.nprim.toNat + 1 := by
    rw [UInt32.toNat_add]
    exact Nat.mod_eq_of_lt hmax
  have hold : (m.db.pTypes.nprim + 1 - 1).toNat = m.db.pTypes.nprim.toNat := by
    rw [UInt32.add_sub_cancel]
  have hbit : valueBit (m.db.pTypes.nprim + 1) = m.db.pTypes.nprim.toNat := hold
  obtain ⟨hp, ⟨own, ha⟩, ⟨type, hv⟩, ⟨key, hy⟩, hf, hn⟩ := h
  rw [hvalue, hold, hbit] at ha hv hy
  have hdatums : ∀ t, t ∈ m'.db.pTypes.datums ↔
      t = ⟨m.db.pTypes.nprim + 1, true, attr⟩ ∨ t ∈ m.db.pTypes.datums := by
    intro t
    rw [hp]
    exact mem_datums_insert hkey _ t _ m.db.pTypes.nprim
  have hnprim : m'.db.pTypes.nprim.toNat = m.db.pTypes.nprim.toNat + 1 := by rw [hp, hvalue]
  obtain ⟨hfreed, hfa, hfv, hfy⟩ := hm.fresh
  refine ⟨?_, ?_, ?_, ?_, ?_, ?_, ?_⟩
  · intro v hpos hle
    rw [hnprim] at hle
    rcases Nat.le_succ_iff.mp hle with hle | rfl
    · obtain ⟨t, ht, hval⟩ := hm.named v hpos hle
      exact ⟨t, (hdatums t).mpr (.inr ht), hval⟩
    · exact ⟨_, (hdatums _).mpr (.inl rfl), hvalue⟩
  · intro t ht
    rw [hnprim]
    rcases (hdatums t).mp ht with rfl | ht
    · exact hvalue.le
    · exact (hm.bounded t ht).trans (Nat.le_succ _)
  · rw [ha, hnprim]
    exact full_grown hm.typeAttrMapArray _ own
  · rw [hv, hnprim]
    exact full_grown hm.typeValToStruct _ type
  · rw [hy, hnprim]
    exact full_grown hm.symValToNameTypes _ key
  · -- the blocks given back are older than the new arrays
    have hfresh : ∀ k, m.nextAddr + k ∉ m'.freed := by
      intro k hk
      rw [hf] at hk
      simp only [List.mem_cons] at hk
      rcases hk with hk | hk | hk | hk
      · omega
      · omega
      · omega
      · exact absurd (hfreed _ hk) (by omega)
    rw [ha, hv, hy]
    exact ⟨hfresh 0, hfresh 1, hfresh 2⟩
  · rw [ha, hv, hy, hf, hn]
    refine ⟨fun a ha => ?_, Nat.lt_add_of_pos_right (by decide),
      Nat.add_lt_add_left (by decide) _, Nat.add_lt_add_left (by decide) _⟩
    simp only [List.mem_cons] at ha
    rcases ha with rfl | rfl | rfl | ha
    · omega
    · omega
    · omega
    · exact (hfreed a ha).trans (Nat.lt_add_of_pos_right (by decide))

/-- **PROVED.**  A creation that failed leaves them inconsistent: no array has a slot for the value it
counted. -/
theorem Left.inconsistent {m m' : PolicyMem} (hm : TypesConsistent m) (h : Left m m') :
    ¬ TypesConsistent m' := by
  intro hm'
  have hlen : m.db.pTypes.nprim.toNat = m'.db.pTypes.nprim.toNat := by
    rw [← hm.typeAttrMapArray.1, ← hm'.typeAttrMapArray.1, h.typeAttrMapArray]
  rw [h.nprim] at hlen
  have hne : m.db.pTypes.nprim + 1 = m.db.pTypes.nprim := (UInt32.toNat_inj.mp hlen).symm
  simp at hne

/-! ### The operations -/

/-- The name of an attribute. -/
def IsAttribute (db : Policydb) (attr : Name) : Prop :=
  ∃ d, symtabSearch db.pTypes attr = some d ∧ d.isAttribute = true

/-- `add_typeattribute` fails before it changes anything. -/
theorem addTypeattribute_failed {type attr : Name} {m : PolicyMem}
    (h : ((addTypeattribute type attr).run m).1 = false) :
    (addTypeattribute type attr).run m = (false, m) := by
  rw [addTypeattribute] at h ⊢
  simp only [run_bind, run_readDb] at h ⊢
  rcases htype : symtabSearch m.db.pTypes type with _ | t
  · rfl
  · cases ht : t.isAttribute with
    | true => simp [ht]
    | false =>
      simp only [htype, ht, Bool.false_eq_true, if_false, run_bind, run_readDb] at h ⊢
      rcases hattr : symtabSearch m.db.pTypes attr with _ | d
      · rfl
      · cases hd : d.isAttribute with
        | false => simp [hd]
        | true => simp [hattr, hd] at h

/-- It succeeds for a type that is no attribute and an attribute. -/
theorem addTypeattribute_iff {type attr : Name} {m : PolicyMem} {t : TypeDatum}
    (ht : symtabSearch m.db.pTypes type = some t) (hplain : t.isAttribute = false) :
    ((addTypeattribute type attr).run m).1 = true ↔ IsAttribute m.db attr := by
  rw [addTypeattribute, IsAttribute]
  simp only [run_bind, run_readDb, ht, hplain, Bool.false_eq_true, if_false]
  rcases hattr : symtabSearch m.db.pTypes attr with _ | d
  · simp
  · cases hd : d.isAttribute with
    | false => simp [hd]
    | true => simp [hd]

/-- What the new table says about names. -/
theorem Created.search {name : Name} {attr : Bool} {m m' : PolicyMem} (h : Created name attr m m')
    (key : Name) :
    symtabSearch m'.db.pTypes key =
      if key = name then some ⟨m.db.pTypes.nprim + 1, true, attr⟩
      else symtabSearch m.db.pTypes key := by
  rw [symtabSearch, h.pTypes]
  split
  · next hkey => rw [hkey, AList.lookup_insert]
  · next hkey => exact AList.lookup_insert_ne hkey

/-- Under a new plain type the attributes are the ones there were. -/
theorem Created.isAttribute_iff {name : Name} {m m' : PolicyMem} (h : Created name false m m')
    (hname : symtabSearch m.db.pTypes name = none) (attr : Name) :
    IsAttribute m'.db attr ↔ IsAttribute m.db attr := by
  rw [IsAttribute, IsAttribute, h.search]
  by_cases hattr : attr = name
  · simp [hattr, hname]
  · rw [if_neg hattr]

/-- When the count of types wraps, the tables are inconsistent. -/
theorem Created.wrapped {name : Name} {attr : Bool} {m m' : PolicyMem} (hm : TypesConsistent m)
    (hname : symtabSearch m.db.pTypes name = none) (hmax : ¬ m.db.pTypes.nprim.toNat + 1 < 2 ^ 32)
    (h : Created name attr m m') : ¬ TypesConsistent m' := by
  intro hm'
  have hlt := m.db.pTypes.nprim.toNat_lt
  have hzero : m'.db.pTypes.nprim.toNat = 0 := by
    rw [h.pTypes]
    show (m.db.pTypes.nprim + 1).toNat = 0
    rw [UInt32.toNat_add]
    show (m.db.pTypes.nprim.toNat + 1) % 2 ^ 32 = 0
    omega
  obtain ⟨t, ht, hval⟩ := hm.named 1 (by decide) (by omega)
  have ht' : t ∈ m'.db.pTypes.datums := by
    rw [h.pTypes]
    exact (mem_datums_insert (AList.lookup_eq_none.mp hname) _ t _ m.db.pTypes.nprim).mpr (.inr ht)
  have hle := hm'.bounded t ht'
  omega

/-- An existing name is left alone. -/
theorem addType_existing {name : Name} {m : PolicyMem} {t : TypeDatum} (attr : Bool)
    (hname : symtabSearch m.db.pTypes name = some t) : (addType name attr).run m = (true, m) := by
  rw [addType]
  simp only [run_bind, run_readDb, hname, run_pure]

/-- **PROVED.**  A failing `ksu_attribute` keeps the type tables consistent exactly when the name exists or
the six requests of `add_type` are granted; a failing `ksu_type` exactly when the name exists, or they
are granted and, should the value wrap, its second half does not fail. -/
theorem typeCreation_atomic_iff {m : PolicyMem} (hm : TypesConsistent m) (name attr : Name) :
    ((((ksuAttribute name).run m).1 = false → TypesConsistent ((ksuAttribute name).run m).2) ↔
      (symtabSearch m.db.pTypes name).isSome = true ∨ Granted 6 m) ∧
    ((((ksuType name attr).run m).1 = false → TypesConsistent ((ksuType name attr).run m).2) ↔
      (symtabSearch m.db.pTypes name).isSome = true ∨
        Granted 6 m ∧ (m.db.pTypes.nprim.toNat + 1 < 2 ^ 32 ∨ IsAttribute m.db attr)) := by
  rw [ksuAttribute, ksuType]
  simp only [run_bind]
  rcases hname : symtabSearch m.db.pTypes name with _ | t
  · constructor
    · generalize hrun : (addType name true).run m = r
      have hend := addType_new true hname
      rw [hrun] at hend
      cases hend with
      | created hgranted _ => simp [hgranted]
      | left hrefused hleft => simp [hrefused, hleft.inconsistent hm]
    · generalize hrun : (addType name false).run m = r
      have hend := addType_new false hname
      rw [hrun] at hend
      cases hend with
      | left hrefused hleft => simp [hrefused, hleft.inconsistent hm]
      | @created m' hgranted hcreated =>
        have hself := (hcreated.search name).trans (if_pos rfl)
        have hiff : ((addTypeattribute name attr).run m').1 = true ↔ IsAttribute m.db attr :=
          (addTypeattribute_iff hself rfl).trans (hcreated.isAttribute_iff hname attr)
        simp only [if_true, Option.isSome_none, Bool.false_eq_true, false_or, hgranted, true_and]
        rw [← hiff]
        cases hfst : ((addTypeattribute name attr).run m').1 with
        | true => simp
        | false =>
          rw [addTypeattribute_failed hfst]
          simp only [forall_true_left, Bool.false_eq_true, or_false]
          exact ⟨fun hm' => not_not.mp fun hmax => hcreated.wrapped hm hname hmax hm',
            fun hmax => hcreated.consistent hm hname hmax⟩
  · have hkept : ((addTypeattribute name attr).run m).1 = false →
        TypesConsistent ((addTypeattribute name attr).run m).2 := fun hfail => by
      rw [addTypeattribute_failed hfail]
      exact hm
    simp only [addType_existing _ hname, if_true, Option.isSome_some, true_or, iff_true,
      Bool.true_eq_false, false_implies, true_and]
    exact hkept

/-- One type, and no memory for another. -/
def oneType (allocs : List Bool) : PolicyMem :=
  { PolicyMem.ofDb (Policydb.ofSymbols [([0x61], ⟨1, true, false⟩)] []) with allocs := allocs }

theorem oneType_consistent (allocs : List Bool) : TypesConsistent (oneType allocs) := by
  have hfull : ∀ {α : Type} (addr : ℕ) (x : α), KArray.Full ⟨addr, [some x]⟩ 1 := fun addr x =>
    ⟨rfl, fun i hi => ⟨x, by rw [Nat.lt_one_iff.mp hi]; rfl⟩⟩
  have hdatums : (oneType allocs).db.pTypes.datums = [⟨1, true, false⟩] := rfl
  refine ⟨fun v hpos hle => ?_, fun t ht => ?_, hfull 1 _, hfull 2 _, hfull 3 _, ?_, ?_⟩
  · have hv : v ≤ 1 := hle
    exact ⟨⟨1, true, false⟩, by rw [hdatums]; exact List.mem_singleton_self _, by
      rw [le_antisymm hv hpos]; rfl⟩
  · rw [hdatums, List.mem_singleton] at ht
    rw [ht]
    exact le_refl 1
  · exact ⟨List.not_mem_nil, List.not_mem_nil, List.not_mem_nil⟩
  · refine ⟨fun a ha => absurd ha List.not_mem_nil, ?_, ?_, ?_⟩
    · show 1 < 4
      decide
    · show 2 < 4
      decide
    · show 3 < 4
      decide

/-- With the requests granted, a command that still fails (there is no such attribute) leaves the tables
consistent. -/
theorem typeCreation_atomic_granted :
    TypesConsistent ((ksuType [0x62] [0x63]).run (oneType [])).2 :=
  ((typeCreation_atomic_iff (oneType_consistent []) [0x62] [0x63]).2.mpr
    (.inr ⟨by decide, .inl (by decide)⟩)) (by decide)

/-- The first request of `add_type` is refused: the database is kept with two types counted and slots for
one. -/
theorem ksuAttribute_notAtomic :
    TypesConsistent (oneType [false]) ∧
      ((ksuAttribute [0x62]).run (oneType [false])).1 = false ∧
      ¬ TypesConsistent ((ksuAttribute [0x62]).run (oneType [false])).2 := by
  refine ⟨oneType_consistent _, rfl, fun h => ?_⟩
  have hlen : 1 = 2 := h.typeAttrMapArray.1
  exact absurd hlen (by decide)

end KernelSU.Selinux
