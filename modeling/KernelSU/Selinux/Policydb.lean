import Mathlib.Data.Finset.Basic
import Mathlib.Data.Finset.Insert
import Mathlib.Data.Fintype.Basic
import Mathlib.Data.List.AList

/-!
# The policy database the rule operations work on

The data model of `security/selinux/ss` as far as `kernel/selinux/sepolicy.c` reads or writes it, and
the Linux primitives that file calls: symbol-table search and insertion, extensible bitmaps, the
access-vector table and the allocator.

* A `hashtab` refuses a second entry under an equal key, so it is an `AList`: keys are distinct by
  construction, and the walk order of `ksu_hashtab_for_each` is the order of its entries.
* An `ebitmap` is the finite set of its bits.
* The access-vector table is one list.  Only nodes of one (source, target, class) are ever compared
  with each other; in the kernel these sit in one slot, contiguously, in the order this list keeps.
* `PolicyMem` is the database together with the environment of a run: the outcomes of the coming
  allocation requests, the values uninitialised locals happen to hold, and the heap blocks freed so
  far.  `PolicyM` threads it.
-/

namespace KernelSU.Selinux

/-- A C string: its bytes, without the terminator. -/
abbrev Name := List UInt8

/-- `struct ebitmap`, as the set of its bits. -/
abbrev Ebitmap := Finset ℕ

/-- `struct type_datum`.  Attributes are type datums with the flag `attribute` set. -/
structure TypeDatum where
  value : UInt32
  primary : Bool
  isAttribute : Bool
  deriving DecidableEq, Repr

/-- `struct perm_datum`. -/
structure PermDatum where
  value : UInt32
  deriving DecidableEq, Repr

/-- `struct symtab`: the table and the largest primary value handed out. -/
structure Symtab (δ : Type) where
  table : AList fun _ : Name => δ
  nprim : UInt32

/-- `symtab_search`. -/
def symtabSearch {δ : Type} (s : Symtab δ) (name : Name) : Option δ := s.table.lookup name

/-- The datums of a symbol table, in the order `ksu_hashtab_for_each` visits them. -/
def Symtab.datums {δ : Type} (s : Symtab δ) : List δ := s.table.entries.map Sigma.snd

/-- `CEXPR_NAMES`: a constraint expression over names. -/
def CEXPR_NAMES : UInt32 := 5

/-- `struct constraint_expr`: its kind, the evaluated name set and the type set it came from. -/
structure ConstraintExpr where
  exprType : UInt32
  names : Ebitmap
  typeNames : Ebitmap
  deriving DecidableEq

/-- `struct constraint_node`. -/
structure ConstraintNode where
  expr : List ConstraintExpr
  deriving DecidableEq

/-- `struct common_datum`. -/
structure CommonDatum where
  permissions : Symtab PermDatum

/-- `struct class_datum`. -/
structure ClassDatum where
  value : UInt32
  permissions : Symtab PermDatum
  comdatum : Option CommonDatum
  constraints : List ConstraintNode

/-- `struct role_datum`. -/
structure RoleDatum where
  types : Ebitmap
  deriving DecidableEq

/-! ### Replacing under a key -/

section Replace

variable {κ ν : Type} [DecidableEq κ]

theorem dlookup_kreplace (a : κ) (b : ν) (l : List (Σ _ : κ, ν)) (k : κ) :
    (l.kreplace a b).dlookup k =
      if k = a then (l.dlookup a).map fun _ => b else l.dlookup k := by
  induction l with
  | nil => simp [List.kreplace]
  | cons e l ih =>
    obtain ⟨x, v⟩ := e
    by_cases hx : a = x
    · subst hx
      have hhead : List.kreplace a b (⟨a, v⟩ :: l) = ⟨a, b⟩ :: l :=
        List.lookmap_cons_some _ _ (by simp)
      rw [hhead]
      by_cases hk : k = a
      · subst hk; simp
      · rw [if_neg hk, List.dlookup_cons_ne l ⟨a, b⟩ hk, List.dlookup_cons_ne l ⟨a, v⟩ hk]
    · have htail : List.kreplace a b (⟨x, v⟩ :: l) = ⟨x, v⟩ :: l.kreplace a b :=
        List.lookmap_cons_none _ _ (by simp [hx])
      rw [htail, List.dlookup_cons_ne l ⟨x, v⟩ hx]
      by_cases hk : k = x
      · subst hk
        rw [if_neg (Ne.symm hx), List.dlookup_cons_eq, List.dlookup_cons_eq]
      · rw [List.dlookup_cons_ne (l.kreplace a b) ⟨x, v⟩ hk, ih,
          List.dlookup_cons_ne l ⟨x, v⟩ hk]

/-- A replaced value is seen under its own key, and only when the key was there. -/
theorem lookup_replace (t : AList fun _ : κ => ν) (a : κ) (b : ν) (k : κ) :
    (t.replace a b).lookup k = if k = a then (t.lookup a).map fun _ => b else t.lookup k :=
  dlookup_kreplace a b t.entries k

theorem replace_insert (t : AList fun _ : κ => ν) (a : κ) (b b' : ν) :
    (t.insert a b).replace a b' = t.insert a b' := by
  apply AList.ext
  show (t.insert a b).entries.kreplace a b' = (t.insert a b').entries
  rw [AList.entries_insert, AList.entries_insert]
  exact List.lookmap_cons_some _ _ (by simp)

end Replace

/-! ### The access-vector table -/

def AVTAB_ALLOWED : UInt16 := 0x0001
def AVTAB_AUDITALLOW : UInt16 := 0x0002
def AVTAB_AUDITDENY : UInt16 := 0x0004
def AVTAB_AV : UInt16 := 0x0007
def AVTAB_TRANSITION : UInt16 := 0x0010
def AVTAB_MEMBER : UInt16 := 0x0020
def AVTAB_CHANGE : UInt16 := 0x0040
def AVTAB_XPERMS_ALLOWED : UInt16 := 0x0100
def AVTAB_XPERMS_AUDITALLOW : UInt16 := 0x0200
def AVTAB_XPERMS_DONTAUDIT : UInt16 := 0x0400
def AVTAB_XPERMS : UInt16 := 0x0700
def AVTAB_ENABLED : UInt16 := 0x8000
def AVTAB_XPERMS_IOCTLFUNCTION : UInt8 := 0x01
def AVTAB_XPERMS_IOCTLDRIVER : UInt8 := 0x02

/-- `struct avtab_key`. -/
structure AvtabKey where
  sourceType : UInt16
  targetType : UInt16
  targetClass : UInt16
  specified : UInt16
  deriving DecidableEq, Repr

/-- Whether the entry carries extended permissions. -/
def AvtabKey.isXperms (k : AvtabKey) : Bool := decide (k.specified &&& AVTAB_XPERMS ≠ 0)

/-- `struct avtab_extended_perms`: `perms` is the array `u32 p[8]`. -/
structure AvtabExtendedPerms where
  specified : UInt8
  driver : UInt8
  perms : Fin 8 → BitVec 32
  deriving DecidableEq

/-- `struct avtab_datum`: a union whose arm the key's kind selects. -/
inductive AvtabDatum where
  | data : BitVec 32 → AvtabDatum
  | xperms : AvtabExtendedPerms → AvtabDatum
  deriving DecidableEq

def AvtabDatum.isXperms : AvtabDatum → Bool
  | .data _ => false
  | .xperms _ => true

/-- `struct avtab_node`.  The key's kind and the union's arm agree. -/
structure AvtabNode where
  key : AvtabKey
  datum : AvtabDatum
  typed : datum.isXperms = key.isXperms
  deriving DecidableEq

/-- The comparison of `avtab_search_node`: same types and class, and a common kind bit. -/
def AvtabKey.meets (key cur : AvtabKey) : Bool :=
  key.sourceType == cur.sourceType && key.targetType == cur.targetType &&
    key.targetClass == cur.targetClass &&
    decide (key.specified &&& ~~~AVTAB_ENABLED &&& cur.specified ≠ 0)

/-- `avtab_search_node`: the position of the first node the key meets. -/
def avtabSearchNode (nodes : List AvtabNode) (key : AvtabKey) : Option ℕ :=
  nodes.findIdx? fun n => key.meets n.key

/-! ### Filename transitions -/

/-- `struct filename_trans_key`. -/
structure FilenameTransKey where
  ttype : UInt32
  tclass : UInt16
  name : Name
  deriving DecidableEq, Repr

/-- `struct filename_trans_datum`: the sources and the type they get. -/
structure FilenameTransDatum where
  stypes : Ebitmap
  otype : UInt32
  deriving DecidableEq

/-! ### The database -/

/-- A heap array: its address and its cells; `none` is a cell never written. -/
structure KArray (α : Type) where
  addr : ℕ
  cells : List (Option α)
  deriving DecidableEq

/-- `struct policydb`. -/
structure Policydb where
  pTypes : Symtab TypeDatum
  pClasses : Symtab ClassDatum
  teAvtab : List AvtabNode
  /-- `te_avtab.nel`. -/
  teAvtabNel : ℕ
  filenameTrans : AList fun _ : FilenameTransKey => List FilenameTransDatum
  compatFilenameTransCount : UInt32
  typeAttrMapArray : KArray Ebitmap
  typeValToStruct : KArray TypeDatum
  symValToNameTypes : KArray Name
  roleValToStruct : List RoleDatum
  permissiveMap : Ebitmap
  androidNetlinkRoute : Bool
  androidNetlinkGetneigh : Bool
  len : ℕ

/-- The database in its environment. -/
structure PolicyMem where
  db : Policydb
  /-- Outcomes of the coming allocation requests; when they run out, requests succeed. -/
  allocs : List Bool
  /-- What the uninitialised locals `low`, `high` of the coming calls hold. -/
  uninit : List (ℕ × ℕ)
  /-- Addresses of the blocks freed so far. -/
  freed : List ℕ
  /-- The next fresh address. -/
  nextAddr : ℕ

/-- A symbol table with the given entries, the first of a repeated name winning. -/
def Symtab.ofList {δ : Type} (entries : List (Name × δ)) : Symtab δ :=
  ⟨(entries.map fun e => (⟨e.1, e.2⟩ : Σ _ : Name, δ)).toAList, UInt32.ofNat entries.length⟩

/-- A database with the given types and classes and no rules. -/
def Policydb.ofSymbols (types : List (Name × TypeDatum)) (classes : List (Name × ClassDatum)) :
    Policydb where
  pTypes := Symtab.ofList types
  pClasses := Symtab.ofList classes
  teAvtab := []
  teAvtabNel := 0
  filenameTrans := ∅
  compatFilenameTransCount := 0
  typeAttrMapArray := ⟨1, types.map fun t => some {(t.2.value - 1).toNat}⟩
  typeValToStruct := ⟨2, types.map fun t => some t.2⟩
  symValToNameTypes := ⟨3, types.map fun t => some t.1⟩
  roleValToStruct := []
  permissiveMap := ∅
  androidNetlinkRoute := false
  androidNetlinkGetneigh := false
  len := 0

/-- A database before any operation, with memory to spare. -/
def PolicyMem.ofDb (db : Policydb) : PolicyMem := ⟨db, [], [], [], 4⟩

/-- A rule operation: it reads and changes the database in its environment. -/
structure PolicyM (α : Type) where
  run : PolicyMem → α × PolicyMem

instance : Monad PolicyM where
  pure a := ⟨fun m => (a, m)⟩
  bind x f := ⟨fun m => (f (x.run m).1).run (x.run m).2⟩

instance : LawfulMonad PolicyM :=
  LawfulMonad.mk' PolicyM (fun _ => rfl) (fun _ _ => rfl) (fun _ _ _ => rfl)

namespace PolicyMem

/-- No coming allocation request fails. -/
def AllocsSucceed (m : PolicyMem) : Prop := ∀ b ∈ m.allocs, b = true

instance (m : PolicyMem) : Decidable m.AllocsSucceed :=
  inferInstanceAs (Decidable (∀ b ∈ m.allocs, b = true))

/-- One allocation request: its outcome and the environment after it. -/
def request (m : PolicyMem) : Bool × PolicyMem :=
  match m.allocs with
  | [] => (true, m)
  | b :: bs => (b, { m with allocs := bs })

theorem request_db (m : PolicyMem) : m.request.2.db = m.db := by
  rcases m with ⟨db, _ | ⟨b, bs⟩, _, _, _⟩ <;> rfl

theorem request_of_succeed {m : PolicyMem} (h : m.AllocsSucceed) :
    m.request.1 = true ∧ m.request.2.AllocsSucceed := by
  rcases m with ⟨db, _ | ⟨b, bs⟩, u, f, n⟩
  · exact ⟨rfl, h⟩
  · exact ⟨h b List.mem_cons_self, fun c hc => h c (List.mem_cons_of_mem b hc)⟩

end PolicyMem

/-- `kzalloc` and its relatives: whether the request was granted. -/
def kalloc : PolicyM Bool := ⟨fun m => m.request⟩

/-- Change the database, leaving the environment alone. -/
def modifyDb (f : Policydb → Policydb) : PolicyM Unit := ⟨fun m => ((), { m with db := f m.db })⟩

/-- Read from the database. -/
def readDb {α : Type} (f : Policydb → α) : PolicyM α := ⟨fun m => (f m.db, m)⟩

/-! ### Running an operation -/

@[simp] theorem run_bind {α β : Type} (x : PolicyM α) (f : α → PolicyM β) (m : PolicyMem) :
    (x >>= f).run m = (f (x.run m).1).run (x.run m).2 := rfl

@[simp] theorem run_pure {α : Type} (a : α) (m : PolicyMem) :
    (pure a : PolicyM α).run m = (a, m) := rfl

@[simp] theorem run_map {α β : Type} (f : α → β) (x : PolicyM α) (m : PolicyMem) :
    (f <$> x).run m = (f (x.run m).1, (x.run m).2) := rfl

@[simp] theorem run_readDb {α : Type} (f : Policydb → α) (m : PolicyMem) :
    (readDb f).run m = (f m.db, m) := rfl

@[simp] theorem run_modifyDb (f : Policydb → Policydb) (m : PolicyMem) :
    (modifyDb f).run m = ((), { m with db := f m.db }) := rfl

/-- With allocations succeeding, a request is granted and the database is as before. -/
theorem run_kalloc_of_succeed {m : PolicyMem} (h : m.AllocsSucceed) :
    ∃ m', kalloc.run m = (true, m') ∧ m'.db = m.db ∧ m'.AllocsSucceed := by
  obtain ⟨h₁, h₂⟩ := PolicyMem.request_of_succeed h
  refine ⟨m.request.2, ?_, PolicyMem.request_db m, h₂⟩
  rw [← h₁]
  rfl

/-! ### Bitmaps -/

/-- `ebitmap_get_bit`. -/
def ebitmapGetBit (e : Ebitmap) (bit : ℕ) : Bool := decide (bit ∈ e)

/-- `ebitmap_set_bit`: setting a new bit may need a node; `none` is `-ENOMEM`. -/
def ebitmapSetBit (e : Ebitmap) (bit : ℕ) (value : Bool) : PolicyM (Option Ebitmap) := do
  if value then
    if ebitmapGetBit e bit then return some e
    else if ← kalloc then return some (insert bit e)
    else return none
  else return some (e.erase bit)

@[simp] theorem ebitmapGetBit_eq_true {e : Ebitmap} {bit : ℕ} :
    ebitmapGetBit e bit = true ↔ bit ∈ e := by
  rw [ebitmapGetBit, decide_eq_true_iff]

/-- With allocations succeeding, setting a bit adds it and touches nothing but the allocator. -/
theorem ebitmapSetBit_true_of_succeed (e : Ebitmap) (bit : ℕ) {m : PolicyMem}
    (h : m.AllocsSucceed) :
    ∃ m', (ebitmapSetBit e bit true).run m = (some (insert bit e), m') ∧ m'.db = m.db ∧
      m'.AllocsSucceed := by
  by_cases hb : bit ∈ e
  · refine ⟨m, ?_, rfl, h⟩
    rw [Finset.insert_eq_of_mem hb]
    simp [ebitmapSetBit, hb]
  · obtain ⟨m', hrun, hdb, hs⟩ := run_kalloc_of_succeed h
    refine ⟨m', ?_, hdb, hs⟩
    simp [ebitmapSetBit, hb, hrun]

/-! ### Extended permissions: the 256-bit map -/

/-- `xperm_set(x, p)`: `p[x >> 5] |= 1 << (x & 0x1f)`. -/
def xpermSet (x : ℕ) (p : Fin 8 → BitVec 32) : Fin 8 → BitVec 32 :=
  fun i => if i.val = x >>> 5 then p i ||| (1#32 <<< (x &&& 0x1f)) else p i

/-- `xperm_clear(x, p)`: `p[x >> 5] &= ~(1 << (x & 0x1f))`. -/
def xpermClear (x : ℕ) (p : Fin 8 → BitVec 32) : Fin 8 → BitVec 32 :=
  fun i => if i.val = x >>> 5 then p i &&& ~~~(1#32 <<< (x &&& 0x1f)) else p i

/-- `xperm_test(x, p)`: `1 & (p[x >> 5] >> (x & 0x1f))`, for an index below 256. -/
def xpermTest (x : ℕ) (p : Fin 8 → BitVec 32) : Bool :=
  if h : x >>> 5 < 8 then (p ⟨x >>> 5, h⟩).getLsbD (x &&& 0x1f) else false

/-- A bit set is set, and the other bits are as before. -/
theorem xpermTest_xpermSet {x y : ℕ} (hx : x < 256) (p : Fin 8 → BitVec 32) :
    xpermTest y (xpermSet x p) = (decide (y = x) || xpermTest y p) := by
  have hmod : ∀ z : ℕ, z &&& 0x1f = z % 32 := fun z => Nat.and_two_pow_sub_one_eq_mod z 5
  have hdiv : ∀ z : ℕ, z >>> 5 = z / 32 := fun z => Nat.shiftRight_eq_div_pow z 5
  simp only [xpermTest, xpermSet, hmod, hdiv]
  by_cases hy : y / 32 < 8
  · rw [dif_pos hy, dif_pos hy]
    by_cases hslot : y / 32 = x / 32
    · have hbit : decide (y % 32 = x % 32) = decide (y = x) := by
        rw [decide_eq_decide]
        omega
      have hlt : y % 32 < 32 := Nat.mod_lt y (by decide)
      rw [if_pos hslot, BitVec.getLsbD_or, BitVec.getLsbD_shiftLeft, ← hbit, Bool.or_comm]
      congr 1
      by_cases he : y % 32 = x % 32
      · simp [he, he ▸ hlt]
      · have : y % 32 < x % 32 ∨ y % 32 - x % 32 ≠ 0 := by omega
        rcases this with h | h
        · simp [he, h]
        · simp [he, h, hlt]
    · have hne : y ≠ x := fun h => hslot (by rw [h])
      rw [if_neg hslot]
      simp [hne]
  · have hne : y ≠ x := by omega
    rw [dif_neg hy, dif_neg hy]
    simp [hne]

end KernelSU.Selinux
