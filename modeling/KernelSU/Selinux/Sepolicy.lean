import KernelSU.Lib.Bytes
import KernelSU.Lib.Errno
import KernelSU.Selinux.Policydb

/-!
# `kernel/selinux/sepolicy.c`: the rule operations

Each function of the file under its own name, on `PolicyM`.  A C function that takes `NULL` for a
wildcard takes an `Option` here.  A pointer to an avtab node is its position in the table: the
position stays valid until the caller is done with it, because nothing is inserted or removed between.

`add_rule_raw` and `add_xperm_rule_raw` call themselves once per missing argument, source first, then
target, then class; the three levels of that recursion are three definitions each.
-/

namespace KernelSU.Selinux

open KernelSU.Lib KernelSU.Lib.Bytes

/-- The bit, or the array slot, of a value: `value - 1`. -/
def valueBit (value : UInt32) : ℕ := (value - 1).toNat

theorem valueBit_injective : Function.Injective valueBit := by
  intro a b h
  have hsub : a - 1 = b - 1 := UInt32.toNat_inj.mp h
  rw [← UInt32.sub_add_cancel a 1, hsub, UInt32.sub_add_cancel]

/-! ### Access-vector nodes -/

/-- `sizeof(struct avtab_key)`. -/
def sizeofAvtabKey : ℕ := 8

/-- `sizeof(struct avtab_datum)` on a 64-bit kernel. -/
def sizeofAvtabDatum : ℕ := 8

/-- What an xperm entry adds: two bytes and the map. -/
def xpermsSize : ℕ := 1 + 1 + 4 * 8

/-- The node `get_avtab_node` inserts when it finds none: the given permissions, or all bits for
dontaudit and none for the others. -/
def freshNode (key : AvtabKey) (xperms : AvtabExtendedPerms) : AvtabNode :=
  if h : key.isXperms = true then
    { key := key, datum := .xperms xperms, typed := h.symm }
  else
    { key := key
      datum := .data (if key.specified = AVTAB_AUDITDENY then BitVec.allOnes 32 else 0)
      typed := (Bool.eq_false_iff.mpr h).symm }

/-- Whether a node is the one `get_avtab_node` looks for.  Extended-permission entries are not unique,
so kind and driver have to agree too. -/
def isAvtabNode (key : AvtabKey) (xperms : AvtabExtendedPerms) (n : AvtabNode) : Bool :=
  key.meets n.key &&
    match n.datum with
    | .xperms x => !key.isXperms || (x.specified == xperms.specified && x.driver == xperms.driver)
    | .data _ => !key.isXperms

/-- `avtab_insert_nonunique`: a copy of the node goes before the first one its key meets. -/
def avtabInsertNonunique (nodes : List AvtabNode) (n : AvtabNode) : ℕ × List AvtabNode :=
  let at' := (avtabSearchNode nodes n.key).getD nodes.length
  (at', nodes.insertIdx at' n)

/-- `get_avtab_node`. -/
def getAvtabNode (key : AvtabKey) (xperms : AvtabExtendedPerms) : PolicyM (Option ℕ) := do
  match (← readDb (·.teAvtab)).findIdx? (isAvtabNode key xperms) with
  | some i => return some i
  | none =>
    -- the node, and for an xperm entry its copy of the permissions
    if !(← kalloc) then return none
    if key.isXperms then
      if !(← kalloc) then return none
    let (i, nodes) := avtabInsertNonunique (← readDb (·.teAvtab)) (freshNode key xperms)
    let growSize := sizeofAvtabKey + sizeofAvtabDatum + (if key.isXperms then xpermsSize else 0)
    modifyDb fun db =>
      { db with teAvtab := nodes, teAvtabNel := db.teAvtabNel + 1, len := db.len + growSize }
    return some i

/-- `is_redundant_avtab_node`. -/
def isRedundantAvtabNode (n : AvtabNode) : Bool :=
  match n.datum with
  | .xperms _ => false
  | .data d =>
    if n.key.specified &&& AVTAB_AV = 0 then false
    else if n.key.specified &&& AVTAB_AUDITDENY ≠ 0 then d == BitVec.allOnes 32
    else d == 0

/-- `remove_avtab_node`, at the node's position. -/
def removeAvtabNode (i : ℕ) : PolicyM Bool := do
  -- the one-slot table the node is freed with
  if !(← kalloc) then return false
  match (← readDb (·.teAvtab))[i]? with
  | none => return false
  | some n =>
    let shrinkSize := sizeofAvtabKey + sizeofAvtabDatum + (if n.key.isXperms then xpermsSize else 0)
    modifyDb fun db =>
      { db with
        teAvtab := db.teAvtab.eraseIdx i
        teAvtabNel := if 0 < db.teAvtabNel then db.teAvtabNel - 1 else db.teAvtabNel
        len := if shrinkSize ≤ db.len then db.len - shrinkSize else db.len }
    return true

/-- Overwrite `datum.u.data` of a node. -/
def AvtabNode.setData (n : AvtabNode) (f : BitVec 32 → BitVec 32) : AvtabNode :=
  match h : n.datum with
  | .data d => { n with datum := .data (f d), typed := by rw [← n.typed, h]; rfl }
  | .xperms _ => n

/-- The xperms argument of a call that passes `NULL`. -/
def noXperms : AvtabExtendedPerms := ⟨0, 0, fun _ => 0⟩

/-! ### Access-vector rules -/

/-- `strip_av(effect, invert)`: whether the rule takes something away. -/
def stripAv (effect : UInt16) (invert : Bool) : Bool := decide (effect = AVTAB_AUDITDENY) == !invert

/-- The key of a rule: its fields are the low halves of the values. -/
def ruleKey (src tgt : TypeDatum) (cls : ClassDatum) (effect : UInt16) : AvtabKey :=
  ⟨src.value.toUInt16, tgt.value.toUInt16, cls.value.toUInt16, effect⟩

/-- The bit of a permission: `1U << (perm->value - 1)`. -/
def permBit (perm : PermDatum) : BitVec 32 := 1#32 <<< (perm.value - 1).toNat

/-- `add_rule_raw` with source, target and class given. -/
def addRuleRawLeaf (perm : Option PermDatum) (effect : UInt16) (invert : Bool) (src tgt : TypeDatum)
    (cls : ClassDatum) : PolicyM Bool := do
  let key := ruleKey src tgt cls effect
  let node ←
    if invert && decide (effect ≠ AVTAB_AUDITDENY) then
      match avtabSearchNode (← readDb (·.teAvtab)) key with
      | some i => pure (some i)
      | none => return true
    else getAvtabNode key noXperms
  match node with
  | none => return false
  | some i =>
    let update : BitVec 32 → BitVec 32 :=
      match perm, invert with
      | some p, true => fun d => d &&& ~~~(permBit p)
      | none, true => fun _ => 0
      | some p, false => fun d => d ||| permBit p
      | none, false => fun _ => BitVec.allOnes 32
    modifyDb fun db => { db with teAvtab := db.teAvtab.modify i (·.setData update) }
    match (← readDb (·.teAvtab))[i]? with
    | some n => if isRedundantAvtabNode n then removeAvtabNode i else return true
    | none => return true

/-- `success &= f(x)` over a list: every call is made. -/
def forAllDatums {δ : Type} (f : δ → PolicyM Bool) : List δ → PolicyM Bool
  | [] => return true
  | x :: xs => do
    let b ← f x
    let bs ← forAllDatums f xs
    return b && bs

/-- The types a missing source or target stands for: all of them when the rule takes something away,
the attributes otherwise. -/
def wildcardTypes (strip : Bool) (db : Policydb) : List TypeDatum :=
  if strip then db.pTypes.datums else db.pTypes.datums.filter (·.isAttribute)

/-- `add_rule_raw` with source and target given. -/
def addRuleRawCls (cls : Option ClassDatum) (perm : Option PermDatum) (effect : UInt16) (invert : Bool)
    (src tgt : TypeDatum) : PolicyM Bool := do
  match cls with
  | some c => addRuleRawLeaf perm effect invert src tgt c
  | none => forAllDatums (addRuleRawLeaf perm effect invert src tgt) (← readDb (·.pClasses.datums))

/-- `add_rule_raw` with the source given. -/
def addRuleRawTgt (tgt : Option TypeDatum) (cls : Option ClassDatum) (perm : Option PermDatum)
    (effect : UInt16) (invert : Bool) (src : TypeDatum) : PolicyM Bool := do
  match tgt with
  | some t => addRuleRawCls cls perm effect invert src t
  | none =>
    forAllDatums (addRuleRawCls cls perm effect invert src)
      (← readDb (wildcardTypes (stripAv effect invert)))

/-- `add_rule_raw`. -/
def addRuleRaw (src tgt : Option TypeDatum) (cls : Option ClassDatum) (perm : Option PermDatum)
    (effect : UInt16) (invert : Bool) : PolicyM Bool := do
  match src with
  | some s => addRuleRawTgt tgt cls perm effect invert s
  | none =>
    forAllDatums (addRuleRawTgt tgt cls perm effect invert)
      (← readDb (wildcardTypes (stripAv effect invert)))

/-- Look up a name that may be a wildcard: `none` when a name is given and does not exist. -/
def lookupOrAll {δ : Type} (s : Symtab δ) : Option Name → Option (Option δ)
  | none => some none
  | some name => (symtabSearch s name).map some

/-- The permission of `add_rule`: it needs a class, whose common is the second place to look. -/
def lookupPerm (cls : Option ClassDatum) : Option Name → Option (Option PermDatum)
  | none => some none
  | some p =>
    match cls with
    | none => none
    | some c =>
      match symtabSearch c.permissions p with
      | some d => some (some d)
      | none => (c.comdatum.bind fun com => symtabSearch com.permissions p).map some

/-- `add_rule`. -/
def addRule (s t c p : Option Name) (effect : UInt16) (invert : Bool) : PolicyM Bool := do
  match lookupOrAll (← readDb (·.pTypes)) s with
  | none => return false
  | some src =>
  match lookupOrAll (← readDb (·.pTypes)) t with
  | none => return false
  | some tgt =>
  match lookupOrAll (← readDb (·.pClasses)) c with
  | none => return false
  | some cls =>
  match lookupPerm cls p with
  | none => return false
  | some perm => addRuleRaw src tgt cls perm effect invert

/-! ### Extended-permission rules -/

/-- `ioctl_driver(x)`. -/
def ioctlDriver (x : ℕ) : ℕ := (x >>> 8) &&& 0xff

/-- `ioctl_func(x)`. -/
def ioctlFunc (x : ℕ) : ℕ := x &&& 0xff

/-- `for (i = lo; i <= hi; ++i) f(i, p)`. -/
def xpermLoop (f : ℕ → (Fin 8 → BitVec 32) → Fin 8 → BitVec 32) (lo hi : ℕ)
    (p : Fin 8 → BitVec 32) : Fin 8 → BitVec 32 :=
  (List.range' lo (hi + 1 - lo)).foldl (fun p i => f i p) p

/-- The permissions `add_xperm_rule_raw` builds for a range: a range that crosses drivers names whole
drivers, any other one names functions of its driver. -/
def rangeXperms (low high : ℕ) (invert : Bool) : AvtabExtendedPerms :=
  let f := if invert then xpermClear else xpermSet
  if ioctlDriver low ≠ ioctlDriver high then
    ⟨AVTAB_XPERMS_IOCTLDRIVER, 0, xpermLoop f (ioctlDriver low) (ioctlDriver high) fun _ => 0⟩
  else
    ⟨AVTAB_XPERMS_IOCTLFUNCTION, UInt8.ofNat (ioctlDriver low),
      xpermLoop f (ioctlFunc low) (ioctlFunc high) fun _ => 0⟩

/-- `add_xperm_rule_raw` with source, target and class given.  The node found or made has its
permissions already, so the branch that fills a `NULL` one is never taken. -/
def addXpermRuleRawLeaf (low high : ℕ) (effect : UInt16) (invert : Bool) (src tgt : TypeDatum)
    (cls : ClassDatum) : PolicyM Unit := do
  let _ ← getAvtabNode (ruleKey src tgt cls effect) (rangeXperms low high invert)

/-- Run a call for every datum of a list. -/
def forEachDatum {δ : Type} (f : δ → PolicyM Unit) : List δ → PolicyM Unit
  | [] => return ()
  | x :: xs => do
    f x
    forEachDatum f xs

/-- `add_xperm_rule_raw` with source and target given. -/
def addXpermRuleRawCls (cls : Option ClassDatum) (low high : ℕ) (effect : UInt16) (invert : Bool)
    (src tgt : TypeDatum) : PolicyM Unit := do
  match cls with
  | some c => addXpermRuleRawLeaf low high effect invert src tgt c
  | none =>
    forEachDatum (addXpermRuleRawLeaf low high effect invert src tgt)
      (← readDb (·.pClasses.datums))

/-- `add_xperm_rule_raw` with the source given. -/
def addXpermRuleRawTgt (tgt : Option TypeDatum) (cls : Option ClassDatum) (low high : ℕ) (effect : UInt16)
    (invert : Bool) (src : TypeDatum) : PolicyM Unit := do
  match tgt with
  | some t => addXpermRuleRawCls cls low high effect invert src t
  | none =>
    forEachDatum (addXpermRuleRawCls cls low high effect invert src)
      (← readDb (wildcardTypes false))

/-- `add_xperm_rule_raw`. -/
def addXpermRuleRaw (src tgt : Option TypeDatum) (cls : Option ClassDatum) (low high : ℕ) (effect : UInt16)
    (invert : Bool) : PolicyM Unit := do
  match src with
  | some s => addXpermRuleRawTgt tgt cls low high effect invert s
  | none =>
    forEachDatum (addXpermRuleRawTgt tgt cls low high effect invert)
      (← readDb (wildcardTypes false))

/-- `isspace`. -/
def isSpace (c : UInt8) : Bool := c == 0x20 || (0x09 ≤ c && c ≤ 0x0d) || c == 0xa0

/-- The value of a hexadecimal digit. -/
def hexDigit (c : UInt8) : Option ℕ :=
  if 0x30 ≤ c ∧ c ≤ 0x39 then some (c.toNat - 0x30)
  else if 0x61 ≤ c ∧ c ≤ 0x66 then some (c.toNat - 0x61 + 10)
  else if 0x41 ≤ c ∧ c ≤ 0x46 then some (c.toNat - 0x41 + 10)
  else none

/-- The digits of a hexadecimal number, accumulated in a `u64`. -/
def scanHexDigits (acc : ℕ) : List UInt8 → ℕ × List UInt8
  | [] => (acc, [])
  | c :: cs =>
    match hexDigit c with
    | some d => scanHexDigits ((acc * 16 + d) % 2 ^ 64) cs
    | none => (acc, c :: cs)

/-- `0x` and `0X` are skipped before the digits. -/
def skipHexPrefix : List UInt8 → List UInt8
  | 0x30 :: 0x78 :: cs => cs
  | 0x30 :: 0x58 :: cs => cs
  | cs => cs

/-- One `%hx` conversion of the kernel's `sscanf`: white space, then at least one digit; the low 16
bits are stored.  `none` leaves the target unassigned and ends the scan. -/
def scanHx (s : List UInt8) : Option (ℕ × List UInt8) :=
  match s.dropWhile isSpace with
  | [] => none
  | c :: cs =>
    if (hexDigit c).isSome then
      let (v, rest) := scanHexDigits 0 (skipHexPrefix (c :: cs))
      some (v % 2 ^ 16, rest)
    else none

/-- What `low` and `high` hold after `add_xperm_rule` has parsed its range argument, from what they
held before. -/
def parseXpermRange (range : Option Name) (uninit : ℕ × ℕ) : ℕ × ℕ :=
  match range with
  | none => (0, 0xffff)
  | some s =>
    if s.contains 0x2d then
      match scanHx s with
      | none => uninit
      | some (low, 0x2d :: rest) =>
        match scanHx rest with
        | none => (low, uninit.2)
        | some (high, _) => (low, high)
      | some (low, _) => (low, uninit.2)
    else
      match scanHx s with
      | none => (uninit.1, uninit.1)
      | some (low, _) => (low, low)

/-- What the locals `low` and `high` of this call hold before they are assigned. -/
def takeUninit : PolicyM (ℕ × ℕ) :=
  ⟨fun m =>
    match m.uninit with
    | [] => ((0, 0), m)
    | u :: us => ((u.1 % 2 ^ 16, u.2 % 2 ^ 16), { m with uninit := us })⟩

/-- `add_xperm_rule`. -/
def addXpermRule (s t c range : Option Name) (effect : UInt16) (invert : Bool) : PolicyM Bool := do
  match lookupOrAll (← readDb (·.pTypes)) s with
  | none => return false
  | some src =>
  match lookupOrAll (← readDb (·.pTypes)) t with
  | none => return false
  | some tgt =>
  match lookupOrAll (← readDb (·.pClasses)) c with
  | none => return false
  | some cls =>
    let (low, high) := parseXpermRange range (← takeUninit)
    addXpermRuleRaw src tgt cls low high effect invert
    return true

/-! ### Type rules -/

/-- `add_type_rule`. -/
def addTypeRule (s t c d : Name) (effect : UInt16) : PolicyM Bool := do
  match symtabSearch (← readDb (·.pTypes)) s with
  | none => return false
  | some src =>
  match symtabSearch (← readDb (·.pTypes)) t with
  | none => return false
  | some tgt =>
  match symtabSearch (← readDb (·.pClasses)) c with
  | none => return false
  | some cls =>
  match symtabSearch (← readDb (·.pTypes)) d with
  | none => return false
  | some dflt =>
    match ← getAvtabNode (ruleKey src tgt cls effect) noXperms with
    | none => return false
    | some i =>
      modifyDb fun db =>
        { db with teAvtab := db.teAvtab.modify i (·.setData fun _ => dflt.value.toBitVec) }
      return true

/-! ### Filename transitions -/

/-- How the walk of `add_filename_trans` over a chain ends: at a datum that already has the source, at
a datum with the wanted output type, or past the last datum. -/
inductive ChainStop where
  | hasSource (i : ℕ)
  | hasType (i : ℕ)
  | exhausted
  deriving DecidableEq

/-- The walk; `i` is the position of the head of the rest. -/
def walkChain (bit : ℕ) (otype : UInt32) (i : ℕ) : List FilenameTransDatum → ChainStop
  | [] => .exhausted
  | d :: ds =>
    if ebitmapGetBit d.stypes bit then .hasSource i
    else if d.otype = otype then .hasType i
    else walkChain bit otype (i + 1) ds

/-- `hashtab_insert`: an equal key is refused with `-EEXIST`. -/
def filenameTransInsert (key : FilenameTransKey) (chain : List FilenameTransDatum) :
    PolicyM Bool := do
  if key ∈ (← readDb (·.filenameTrans)) then return false
  else if !(← kalloc) then return false
  else
    modifyDb fun db => { db with filenameTrans := db.filenameTrans.insert key chain }
    return true

/-- Store a chain under a key that is in the table (the chain's nodes are changed in place). -/
def setChain (key : FilenameTransKey) (chain : List FilenameTransDatum) : PolicyM Unit :=
  modifyDb fun db => { db with filenameTrans := db.filenameTrans.replace key chain }

/-- The last step of `add_filename_trans`: count the rule and add the source to the datum. -/
def addSource (key : FilenameTransKey) (chain : List FilenameTransDatum) (i bit : ℕ) :
    PolicyM Bool := do
  modifyDb fun db =>
    { db with compatFilenameTransCount := db.compatFilenameTransCount + 1 }
  match chain[i]? with
  | none => return false
  | some d =>
    match ← ebitmapSetBit d.stypes bit true with
    | none => return false
    | some stypes =>
      setChain key (chain.set i { d with stypes := stypes })
      return true

/-- `add_filename_trans`. -/
def addFilenameTrans (s t c d o : Name) : PolicyM Bool := do
  match symtabSearch (← readDb (·.pTypes)) s with
  | none => return false
  | some src =>
  match symtabSearch (← readDb (·.pTypes)) t with
  | none => return false
  | some tgt =>
  match symtabSearch (← readDb (·.pClasses)) c with
  | none => return false
  | some cls =>
  match symtabSearch (← readDb (·.pTypes)) d with
  | none => return false
  | some dflt =>
    let key : FilenameTransKey := ⟨tgt.value, cls.value.toUInt16, o⟩
    let bit := valueBit src.value
    let chain := ((← readDb (·.filenameTrans)).lookup key).getD []
    match walkChain bit dflt.value 0 chain with
    | .hasSource i =>
      -- "Duplicate, overwrite existing data and return"
      setChain key (chain.modify i fun x => { x with otype := dflt.value })
      return true
    | .hasType i => addSource key chain i bit
    | .exhausted =>
      if !(← kalloc) then return false
      if !(← kalloc) then return false
      if !(← kalloc) then return false
      -- `trans->next = last`, the last datum the walk has seen
      let chain' := ⟨∅, dflt.value⟩ :: chain.getLast?.toList
      if ← filenameTransInsert key chain' then addSource key chain' 0 bit
      else return false

/-! ### Types and attributes -/

/-- Free a block whose contents move to a fresh one; the address of the fresh one. -/
def moveBlock (addr : ℕ) : PolicyM ℕ :=
  ⟨fun m => (m.nextAddr, { m with freed := addr :: m.freed, nextAddr := m.nextAddr + 1 })⟩

/-- `ksu_kvrealloc`: a fresh array with the old cells copied and the rest unwritten; the old block is
freed.  `none` leaves the old block alone. -/
def ksuKvrealloc {α : Type} (a : KArray α) (newSize oldSize : ℕ) : PolicyM (Option (KArray α)) := do
  if ← kalloc then
    let addr ← moveBlock a.addr
    let old := a.cells.take oldSize
    return some ⟨addr, old ++ List.replicate (newSize - old.length) none⟩
  else return none

/-- `symtab_insert`: an equal name is refused, and the node has to be allocated. -/
def typesInsert (key : Name) (type : TypeDatum) : PolicyM Bool := do
  if key ∈ (← readDb (·.pTypes.table)) then return false
  else if !(← kalloc) then return false
  else
    modifyDb fun db =>
      { db with pTypes := { db.pTypes with table := db.pTypes.table.insert key type } }
    return true

/-- Set a bit, ignoring a failure. -/
def ebitmapSetBitIgnore (e : Ebitmap) (bit : ℕ) : PolicyM Ebitmap := do
  return (← ebitmapSetBit e bit true).getD e

/-- `add_type`. -/
def addType (typeName : Name) (attr : Bool) : PolicyM Bool := do
  match symtabSearch (← readDb (·.pTypes)) typeName with
  | some _ => return true
  | none =>
    let value := (← readDb (·.pTypes.nprim)) + 1
    modifyDb fun db => { db with pTypes := { db.pTypes with nprim := value } }
    if !(← kalloc) then return false
    let type : TypeDatum := ⟨value, true, attr⟩
    if !(← kalloc) then return false
    if !(← typesInsert typeName type) then return false
    match ← ksuKvrealloc (← readDb (·.typeAttrMapArray)) value.toNat (value - 1).toNat with
    | none => return false
    | some newTypeAttrMapArray =>
    match ← ksuKvrealloc (← readDb (·.typeValToStruct)) value.toNat (value - 1).toNat with
    | none => return false
    | some newTypeValToStruct =>
    match ← ksuKvrealloc (← readDb (·.symValToNameTypes)) value.toNat (value - 1).toNat with
    | none => return false
    | some newValToNameTypes =>
      let own ← ebitmapSetBitIgnore ∅ (valueBit value)
      modifyDb fun db =>
        { db with
          typeAttrMapArray :=
            { newTypeAttrMapArray with
              cells := newTypeAttrMapArray.cells.set (valueBit value) (some own) }
          typeValToStruct :=
            { newTypeValToStruct with
              cells := newTypeValToStruct.cells.set (valueBit value) (some type) }
          symValToNameTypes :=
            { newValToNameTypes with
              cells := newValToNameTypes.cells.set (valueBit value) (some typeName) } }
      let roles ← (← readDb (·.roleValToStruct)).mapM fun r => do
        return { r with types := ← ebitmapSetBitIgnore r.types (valueBit value) }
      modifyDb fun db => { db with roleValToStruct := roles }
      return true

/-- `ebitmap_set_bit(&db->permissive_map, type->value, permissive)`. -/
def setPermissiveBit (value : UInt32) (permissive : Bool) : PolicyM Bool := do
  match ← ebitmapSetBit (← readDb (·.permissiveMap)) value.toNat permissive with
  | none => return false
  | some map =>
    modifyDb fun db => { db with permissiveMap := map }
    return true

/-- `set_type_state`. -/
def setTypeState (typeName : Option Name) (permissive : Bool) : PolicyM Bool := do
  match typeName with
  | none =>
    -- a failure for one type is logged and the walk goes on
    forEachDatum (fun t => do let _ ← setPermissiveBit t.value permissive)
      (← readDb (·.pTypes.datums))
    return true
  | some name =>
    match symtabSearch (← readDb (·.pTypes)) name with
    | none => return false
    | some type => setPermissiveBit type.value permissive

/-- The name set of a constraint expression after `type` got `attr`. -/
def constraintExprAdd (type attr : TypeDatum) (e : ConstraintExpr) : PolicyM ConstraintExpr := do
  if e.exprType = CEXPR_NAMES ∧ ebitmapGetBit e.typeNames (valueBit attr.value) = true then
    return { e with names := ← ebitmapSetBitIgnore e.names (valueBit type.value) }
  else return e

/-- `add_typeattribute_raw`. -/
def addTypeattributeRaw (type attr : TypeDatum) : PolicyM Unit := do
  let i := valueBit type.value
  match (← readDb (·.typeAttrMapArray.cells))[i]? with
  | some (some sattr) =>
    let sattr ← ebitmapSetBitIgnore sattr (valueBit attr.value)
    modifyDb fun db =>
      { db with
        typeAttrMapArray :=
          { db.typeAttrMapArray with cells := db.typeAttrMapArray.cells.set i (some sattr) } }
  | _ => return ()
  let classes ← (← readDb (·.pClasses.table.entries)).mapM fun e => do
    let constraints ← e.2.constraints.mapM fun n => do
      return { n with expr := ← n.expr.mapM (constraintExprAdd type attr) }
    return (⟨e.1, { e.2 with constraints := constraints }⟩ : Σ _ : Name, ClassDatum)
  modifyDb fun db =>
    { db with
      pClasses :=
        { db.pClasses with
          table := classes.foldl (fun t e => t.replace e.1 e.2) db.pClasses.table } }

/-- `add_typeattribute`. -/
def addTypeattribute (type attr : Name) : PolicyM Bool := do
  match symtabSearch (← readDb (·.pTypes)) type with
  | none => return false
  | some typeD =>
    if typeD.isAttribute then return false
    match symtabSearch (← readDb (·.pTypes)) attr with
    | none => return false
    | some attrD =>
      if !attrD.isAttribute then return false
      addTypeattributeRaw typeD attrD
      return true

/-! ### The operations -/

def ksuType (name attr : Name) : PolicyM Bool := do
  if ← addType name false then addTypeattribute name attr else return false

def ksuAttribute (name : Name) : PolicyM Bool := addType name true

def ksuPermissive (type : Name) : PolicyM Bool := setTypeState (some type) true

def ksuEnforce (type : Name) : PolicyM Bool := setTypeState (some type) false

def ksuTypeattribute (type attr : Name) : PolicyM Bool := addTypeattribute type attr

def ksuAllow (src tgt cls perm : Option Name) : PolicyM Bool :=
  addRule src tgt cls perm AVTAB_ALLOWED false

def ksuDeny (src tgt cls perm : Option Name) : PolicyM Bool :=
  addRule src tgt cls perm AVTAB_ALLOWED true

def ksuAuditallow (src tgt cls perm : Option Name) : PolicyM Bool :=
  addRule src tgt cls perm AVTAB_AUDITALLOW false

def ksuDontaudit (src tgt cls perm : Option Name) : PolicyM Bool :=
  addRule src tgt cls perm AVTAB_AUDITDENY true

def ksuAllowxperm (src tgt cls range : Option Name) : PolicyM Bool :=
  addXpermRule src tgt cls range AVTAB_XPERMS_ALLOWED false

def ksuAuditallowxperm (src tgt cls range : Option Name) : PolicyM Bool :=
  addXpermRule src tgt cls range AVTAB_XPERMS_AUDITALLOW false

def ksuDontauditxperm (src tgt cls range : Option Name) : PolicyM Bool :=
  addXpermRule src tgt cls range AVTAB_XPERMS_DONTAUDIT false

def ksuTypeTransition (src tgt cls dflt : Name) (obj : Option Name) : PolicyM Bool :=
  match obj with
  | some o => addFilenameTrans src tgt cls dflt o
  | none => addTypeRule src tgt cls dflt AVTAB_TRANSITION

def ksuTypeChange (src tgt cls dflt : Name) : PolicyM Bool :=
  addTypeRule src tgt cls dflt AVTAB_CHANGE

def ksuTypeMember (src tgt cls dflt : Name) : PolicyM Bool :=
  addTypeRule src tgt cls dflt AVTAB_MEMBER

/-- `add_genfscon` is not implemented: it refuses every call. -/
def ksuGenfscon (_fsName _path _ctx : Name) : PolicyM Bool := return false

/-! ### Duplicating a policy -/

/-- Linux's serialiser and parser of a policy database.  `write db len` fills a buffer of `len`
bytes. -/
structure LinuxPolicydb where
  write : Policydb → ℕ → Except Errno (List UInt8)
  read : List UInt8 → Except Errno Policydb

def POLICYDB_CONFIG_ANDROID_NETLINK_ROUTE : BitVec 32 := 1#32 <<< 31
def POLICYDB_CONFIG_ANDROID_NETLINK_GETNEIGH : BitVec 32 := 1#32 <<< 30

/-- Offset of the config word in a serialised policy. -/
def kConfigOff : ℕ := 20

/-- The config fix-up of `ksu_dup_sepolicy`: `policydb_write` does not write the netlink flags. -/
def fixupConfig (db : Policydb) (data : List UInt8) : List UInt8 :=
  if kConfigOff + 4 ≤ data.length then
    let config := BitVec.ofNat 32 (decodeLE (slice data kConfigOff 4))
    let config :=
      if db.androidNetlinkRoute then config ||| POLICYDB_CONFIG_ANDROID_NETLINK_ROUTE else config
    let config :=
      if db.androidNetlinkGetneigh then config ||| POLICYDB_CONFIG_ANDROID_NETLINK_GETNEIGH
      else config
    patch data kConfigOff (encodeLE 4 config.toNat)
  else data

/-- `ksu_dup_sepolicy`. -/
def ksuDupSepolicy (linux : LinuxPolicydb) : PolicyM (Except Errno Policydb) := do
  let oldDb ← readDb id
  if !(← kalloc) then return .error Errno.ENOMEM
  match linux.write oldDb oldDb.len with
  | .error e => return .error e
  | .ok data =>
    if !(← kalloc) then return .error Errno.ENOMEM
    match linux.read (fixupConfig oldDb data) with
    | .error e => return .error e
    | .ok db => return .ok { db with len := oldDb.len }

end KernelSU.Selinux
