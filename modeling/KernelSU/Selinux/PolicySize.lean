import Mathlib.Data.Finset.Card
import KernelSU.Selinux.Xperms

/-!
# How many bytes `policydb_write` emits

`ksu_dup_sepolicy` writes a policy into a buffer of `policydb.len` bytes.  This file counts what Linux writes
for the parts of a policy that the rule operations can change; whatever else a policy holds is a constant.

* an access-vector entry is its key of 8 bytes and a datum of 4, or of 34 for extended permissions;
* a type is four words and its name, an attribute is a type;
* a bitmap is three words, and 12 bytes for each of its 64-bit words that is not zero;
* a filename transition is written per name or, before policy version 33, per name and source type.
-/

namespace KernelSU.Selinux

/-! ### The format -/

/-- What the binary format depends on: the bytes of the parts that no rule operation changes, and whether
filename transitions are written per name. -/
structure BinaryFormat where
  fixed : ℕ
  compFtrans : Bool

/-- The 64-bit words of a bitmap that are not zero. -/
def ebitmapWords (e : Ebitmap) : Finset ℕ := e.image (· / 64)

/-- `ebitmap_write`. -/
def ebitmapBytes (e : Ebitmap) : ℕ := 12 + 12 * (ebitmapWords e).card

/-- `avtab_write_item`. -/
def avtabNodeBytes (n : AvtabNode) : ℕ := 8 + if n.key.isXperms then 34 else 4

/-- `type_write`. -/
def typeBytes (name : Name) : ℕ := 16 + name.length

/-- The part of `constraint` expressions that can change: the name set of a `CEXPR_NAMES`. -/
def constraintExprBytes (e : ConstraintExpr) : ℕ :=
  if e.exprType = CEXPR_NAMES then ebitmapBytes e.names else 0

def constraintNodeBytes (n : ConstraintNode) : ℕ := (n.expr.map constraintExprBytes).sum

def classBytes (c : ClassDatum) : ℕ := (c.constraints.map constraintNodeBytes).sum

/-- `filename_write_helper` and `filename_write_helper_compat`, for one datum. -/
def filenameTransDatumBytes (fmt : BinaryFormat) (name : Name) (d : FilenameTransDatum) : ℕ :=
  if fmt.compFtrans then ebitmapBytes d.stypes + 4 else (20 + name.length) * d.stypes.card

/-- The same for a chain under its key. -/
def filenameTransBytes (fmt : BinaryFormat) (key : FilenameTransKey) (chain : List FilenameTransDatum) : ℕ :=
  (if fmt.compFtrans then 16 + key.name.length else 0) +
    (chain.map (filenameTransDatumBytes fmt key.name)).sum

/-- A slot of `type_attr_map_array`. -/
def attrMapBytes : Option Ebitmap → ℕ
  | some e => ebitmapBytes e
  | none => 0

/-- What is emitted besides the access-vector table. -/
def restBytes (fmt : BinaryFormat) (db : Policydb) : ℕ :=
  fmt.fixed + (db.pTypes.table.entries.map fun e => typeBytes e.1).sum +
    (db.pClasses.table.entries.map fun e => classBytes e.2).sum +
    (db.roleValToStruct.map fun r => ebitmapBytes r.types).sum +
    (db.filenameTrans.entries.map fun e => filenameTransBytes fmt e.1 e.2).sum +
    (db.typeAttrMapArray.cells.map attrMapBytes).sum + ebitmapBytes db.permissiveMap

/-- The number of bytes that `policydb_write` emits. -/
def policydbWriteBytes (fmt : BinaryFormat) (db : Policydb) : ℕ :=
  restBytes fmt db + (db.teAvtab.map avtabNodeBytes).sum

/-- The buffer of the next duplication is large enough. -/
def LenSuffices (fmt : BinaryFormat) (db : Policydb) : Prop := policydbWriteBytes fmt db ≤ db.len

instance (fmt : BinaryFormat) (db : Policydb) : Decidable (LenSuffices fmt db) :=
  inferInstanceAs (Decidable (_ ≤ _))

/-- What a duplication relies on: a buffer that is large enough is filled, and what was written is read
back. -/
structure LinuxPolicydb.Conforms (linux : LinuxPolicydb) (fmt : BinaryFormat) : Prop where
  write : ∀ db n, policydbWriteBytes fmt db ≤ n → ∃ data, linux.write db n = .ok data
  read : ∀ db n data, linux.write db n = .ok data → ∃ db', linux.read (fixupConfig db data) = .ok db'

/-! ### Sequences of operations -/

/-- The access-vector rules. -/
inductive AvKind
  | allow
  | deny
  | auditallow
  | dontaudit
  deriving DecidableEq, Repr

namespace AvKind

def effect : AvKind → UInt16
  | allow => AVTAB_ALLOWED
  | deny => AVTAB_ALLOWED
  | auditallow => AVTAB_AUDITALLOW
  | dontaudit => AVTAB_AUDITDENY

def invert : AvKind → Bool
  | allow => false
  | deny => true
  | auditallow => false
  | dontaudit => true

end AvKind

/-- The rule operations. -/
inductive RuleOp
  | av (kind : AvKind) (src tgt cls perm : Option Name)
  | xperm (op : XpermOp)
  | addType (name attr : Name)
  | addAttribute (name : Name)
  | addTypeattribute (type attr : Name)
  | permissive (type : Name)
  | enforce (type : Name)
  | typeTransition (src tgt cls dflt : Name) (obj : Option Name)
  | typeChange (src tgt cls dflt : Name)
  | typeMember (src tgt cls dflt : Name)

/-- The access-vector rule that a kind stands for. -/
def ksuAv : AvKind → Option Name → Option Name → Option Name → Option Name → PolicyM Bool
  | .allow => ksuAllow
  | .deny => ksuDeny
  | .auditallow => ksuAuditallow
  | .dontaudit => ksuDontaudit

def RuleOp.exec : RuleOp → PolicyM Bool
  | .av kind src tgt cls perm => ksuAv kind src tgt cls perm
  | .xperm op => op.exec
  | .addType name attr => ksuType name attr
  | .addAttribute name => ksuAttribute name
  | .addTypeattribute type attr => ksuTypeattribute type attr
  | .permissive type => ksuPermissive type
  | .enforce type => ksuEnforce type
  | .typeTransition src tgt cls dflt obj => ksuTypeTransition src tgt cls dflt obj
  | .typeChange src tgt cls dflt => ksuTypeChange src tgt cls dflt
  | .typeMember src tgt cls dflt => ksuTypeMember src tgt cls dflt

/-- A sequence of operations, whatever each of them returns. -/
def runRules : List RuleOp → PolicyMem → PolicyMem
  | [], m => m
  | op :: ops, m => runRules ops (op.exec.run m).2

/-! ### Operations that cost nothing -/

/-- The access-vector entries without extended permissions. -/
def avCount (nodes : List AvtabNode) : ℕ := nodes.countP fun n => !n.key.isXperms

/-- The entries with extended permissions. -/
def xpermCount (nodes : List AvtabNode) : ℕ := nodes.countP fun n => n.key.isXperms

/-- What an access-vector rule makes of the permissions of an entry. -/
def ruleUpdate (perm : Option PermDatum) (invert : Bool) : BitVec 32 → BitVec 32 :=
  match perm, invert with
  | some p, true => fun d => d &&& ~~~(permBit p)
  | none, true => fun _ => 0
  | some p, false => fun d => d ||| permBit p
  | none, false => fun _ => BitVec.allOnes 32

/-- The types a given or missing source or target stands for. -/
def avTypes (strip : Bool) (db : Policydb) (t : Option TypeDatum) : List TypeDatum :=
  match t with
  | some t => [t]
  | none => wildcardTypes strip db

/-- The keys an access-vector rule is about. -/
def avKeys (db : Policydb) (src tgt : Option TypeDatum) (cls : Option ClassDatum) (effect : UInt16)
    (invert : Bool) : List AvtabKey :=
  (avTypes (stripAv effect invert) db src).flatMap fun s =>
    (avTypes (stripAv effect invert) db tgt).flatMap fun t =>
      (targetClasses db cls).map fun c => ruleKey s t c effect

/-- Whether a rule with these keys would leave the entry redundant. -/
def emptiedBy (keys : List AvtabKey) (update : BitVec 32 → BitVec 32) (n : AvtabNode) : Bool :=
  keys.any (fun k => k.meets n.key) && isRedundantAvtabNode (n.setData update)

/-- How many entries an access-vector rule would leave redundant. -/
def emptied (kind : AvKind) (src tgt cls perm : Option Name) (db : Policydb) : ℕ :=
  match lookupOrAll db.pTypes src, lookupOrAll db.pTypes tgt, lookupOrAll db.pClasses cls with
  | some s, some t, some c =>
    match lookupPerm c perm with
    | some p =>
      db.teAvtab.countP
        (emptiedBy (avKeys db s t c kind.effect kind.invert) (ruleUpdate p kind.invert))
    | none => 0
  | _, _, _ => 0

/-- A bit whose 64-bit word is there already. -/
def HasWord (e : Ebitmap) (bit : ℕ) : Prop := bit / 64 ∈ ebitmapWords e

instance (e : Ebitmap) (bit : ℕ) : Decidable (HasWord e bit) := inferInstanceAs (Decidable (_ ∈ _))

/-- The bits that `add_typeattribute` sets need no new word. -/
def TypeattributeHarmless (type attr : Name) (db : Policydb) : Prop :=
  ∀ t a, symtabSearch db.pTypes type = some t → symtabSearch db.pTypes attr = some a →
    t.isAttribute = false → a.isAttribute = true →
    (∀ e, db.typeAttrMapArray.cells[valueBit t.value]? = some (some e) →
      HasWord e (valueBit a.value)) ∧
    ∀ c ∈ db.pClasses.datums, ∀ n ∈ c.constraints, ∀ e ∈ n.expr, e.exprType = CEXPR_NAMES →
      valueBit a.value ∈ e.typeNames → HasWord e.names (valueBit t.value)

/-- The bit that `set_type_state` sets needs no new word. -/
def PermissiveHarmless (type : Name) (db : Policydb) : Prop :=
  ∀ t, symtabSearch db.pTypes type = some t → HasWord db.permissiveMap t.value.toNat

/-- The chain walk of `add_filename_trans` stops at a datum that has the source or, where transitions are
written per name, at one that takes it into a word it has. -/
def FilenameTransHarmless (fmt : BinaryFormat) (src tgt cls dflt obj : Name) (db : Policydb) : Prop :=
  ∀ s t c d, symtabSearch db.pTypes src = some s → symtabSearch db.pTypes tgt = some t →
    symtabSearch db.pClasses cls = some c → symtabSearch db.pTypes dflt = some d →
    let chain := (db.filenameTrans.lookup ⟨t.value, c.value.toUInt16, obj⟩).getD []
    match walkChain (valueBit s.value) d.value 0 chain with
    | .hasSource _ => True
    | .hasType i => fmt.compFtrans = true ∧ ∀ x, chain[i]? = some x → HasWord x.stypes (valueBit s.value)
    | .exhausted => False

/-- What an operation is asked for when the policy was loaded as `base` and is now `db`: it empties no more
access-vector entries than there are beyond those loaded, and adds nothing outside the table. -/
def Harmless (fmt : BinaryFormat) (base db : Policydb) : RuleOp → Prop
  | .av kind src tgt cls perm =>
    emptied kind src tgt cls perm db + avCount base.teAvtab ≤ avCount db.teAvtab
  | .xperm _ => True
  | .addType name attr => name ∈ db.pTypes.table ∧ TypeattributeHarmless name attr db
  | .addAttribute name => name ∈ db.pTypes.table
  | .addTypeattribute type attr => TypeattributeHarmless type attr db
  | .permissive type => PermissiveHarmless type db
  | .enforce _ => True
  | .typeTransition src tgt cls dflt (some obj) => FilenameTransHarmless fmt src tgt cls dflt obj db
  | .typeTransition _ _ _ _ none => True
  | .typeChange _ _ _ _ => True
  | .typeMember _ _ _ _ => True

/-- Every operation of the sequence is, in the state it meets. -/
def EachHarmless (fmt : BinaryFormat) (base : Policydb) : List RuleOp → PolicyMem → Prop
  | [], _ => True
  | op :: ops, m => Harmless fmt base m.db op ∧ EachHarmless fmt base ops (op.exec.run m).2

end KernelSU.Selinux
