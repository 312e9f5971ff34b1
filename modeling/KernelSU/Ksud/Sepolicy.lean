import KernelSU.Selinux.Rules

/-!
# `userspace/ksud/src/sepolicy.rs`: statements, their expansion and the batch encoder

A parsed statement lists objects, and expands to one atomic statement for every combination of them.
An atomic statement has seven slots.  The encoder writes as many of them as its command has arguments,
each as a length word, the bytes and a NUL, with no bytes for `All` and `None`.

A `&str` is its list of characters.  The words `to_ne_bytes` writes are little-endian, as on every
machine ksud runs on.  The error of a `Result` is its message.
-/

namespace KernelSU.Ksud

open KernelSU.Lib.Bytes KernelSU.Selinux

/-- A `&str`. -/
abbrev Str := List Char

/-- `str::as_bytes`. -/
def asBytes (s : Str) : List UInt8 := s.flatMap String.utf8EncodeChar

/-- `type SeObject<'a> = Vec<&'a str>`. -/
abbrev SeObject := List Str

/-! ### Parsed statements -/

structure NormalPerm where
  op : String
  source : SeObject
  target : SeObject
  tclass : SeObject
  perm : SeObject
  deriving DecidableEq, Repr

structure XPerm where
  op : String
  source : SeObject
  target : SeObject
  tclass : SeObject
  operation : Str
  permSet : SeObject
  deriving DecidableEq, Repr

structure TypeState where
  op : String
  stype : SeObject
  deriving DecidableEq, Repr

structure TypeAttr where
  stype : SeObject
  sattr : SeObject
  deriving DecidableEq, Repr

/-- `struct Type`. -/
structure TypeDecl where
  name : Str
  attrs : SeObject
  deriving DecidableEq, Repr

structure Attr where
  name : Str
  deriving DecidableEq, Repr

structure TypeTransition where
  source : Str
  target : Str
  tclass : Str
  defaultType : Str
  objectName : Option Str
  deriving DecidableEq, Repr

structure TypeChange where
  op : String
  source : Str
  target : Str
  tclass : Str
  defaultType : Str
  deriving DecidableEq, Repr

structure GenFsCon where
  fsName : Str
  partialPath : Str
  fsContext : Str
  deriving DecidableEq, Repr

inductive PolicyStatement where
  | normalPerm (perm : NormalPerm)
  | xPerm (perm : XPerm)
  | typeState (perm : TypeState)
  | type (perm : TypeDecl)
  | typeAttr (perm : TypeAttr)
  | attr (perm : Attr)
  | typeTransition (perm : TypeTransition)
  | typeChange (perm : TypeChange)
  | genFsCon (perm : GenFsCon)
  deriving DecidableEq, Repr

/-! ### Atomic statements -/

inductive PolicyObject where
  | all
  | one (value : List UInt8)
  | none
  deriving DecidableEq, Repr

/-- `PolicyObject::try_from`. -/
def PolicyObject.tryFrom (s : Str) : Except String PolicyObject :=
  if 0 ∈ asBytes s then .error "policy object contains NUL"
  else if s = ['*'] then .ok .all
  else .ok (.one (asBytes s))

open PolicyObject (tryFrom)

structure AtomicStatement where
  cmd : UInt32
  subcmd : UInt32
  sepol1 : PolicyObject
  sepol2 : PolicyObject
  sepol3 : PolicyObject
  sepol4 : PolicyObject
  sepol5 : PolicyObject
  sepol6 : PolicyObject
  sepol7 : PolicyObject
  deriving DecidableEq, Repr

/-- The slots of a statement, in order. -/
def AtomicStatement.slots (st : AtomicStatement) : List PolicyObject :=
  [st.sepol1, st.sepol2, st.sepol3, st.sepol4, st.sepol5, st.sepol6, st.sepol7]

/-- A `for` loop whose body pushes statements and may return an error. -/
def forEach {α : Type} (xs : List α) (f : α → Except String (List AtomicStatement)) :
    Except String (List AtomicStatement) :=
  match xs with
  | [] => .ok []
  | x :: xs => do
    let first ← f x
    let rest ← forEach xs f
    return first ++ rest

def NormalPerm.tryInto (perm : NormalPerm) : Except String (List AtomicStatement) :=
  let subcmd :=
    if perm.op = "allow" then KSU_SEPOLICY_SUBCMD_NORMAL_PERM_ALLOW
    else if perm.op = "deny" then KSU_SEPOLICY_SUBCMD_NORMAL_PERM_DENY
    else if perm.op = "auditallow" then KSU_SEPOLICY_SUBCMD_NORMAL_PERM_AUDITALLOW
    else if perm.op = "dontaudit" then KSU_SEPOLICY_SUBCMD_NORMAL_PERM_DONTAUDIT
    else 0
  forEach perm.source fun s => forEach perm.target fun t => forEach perm.tclass fun c =>
    forEach perm.perm fun p => do
      return [⟨KSU_SEPOLICY_CMD_NORMAL_PERM, subcmd, ← tryFrom s, ← tryFrom t, ← tryFrom c,
        ← tryFrom p, .none, .none, .none⟩]

def XPerm.tryInto (perm : XPerm) : Except String (List AtomicStatement) :=
  let subcmd :=
    if perm.op = "allowxperm" then KSU_SEPOLICY_SUBCMD_XPERM_ALLOW
    else if perm.op = "auditallowxperm" then KSU_SEPOLICY_SUBCMD_XPERM_AUDITALLOW
    else if perm.op = "dontauditxperm" then KSU_SEPOLICY_SUBCMD_XPERM_DONTAUDIT
    else 0
  forEach perm.source fun s => forEach perm.target fun t => forEach perm.tclass fun c =>
    forEach perm.permSet fun r => do
      return [⟨KSU_SEPOLICY_CMD_XPERM, subcmd, ← tryFrom s, ← tryFrom t, ← tryFrom c,
        ← tryFrom perm.operation, ← tryFrom r, .none, .none⟩]

def TypeState.tryInto (perm : TypeState) : Except String (List AtomicStatement) :=
  let subcmd :=
    if perm.op = "permissive" then KSU_SEPOLICY_SUBCMD_TYPE_STATE_PERMISSIVE
    else if perm.op = "enforce" then KSU_SEPOLICY_SUBCMD_TYPE_STATE_ENFORCE
    else 0
  forEach perm.stype fun t => do
    return [⟨KSU_SEPOLICY_CMD_TYPE_STATE, subcmd, ← tryFrom t, .none, .none, .none, .none, .none,
      .none⟩]

def TypeDecl.tryInto (perm : TypeDecl) : Except String (List AtomicStatement) :=
  forEach perm.attrs fun attr => do
    return [⟨KSU_SEPOLICY_CMD_TYPE, 0, ← tryFrom perm.name, ← tryFrom attr, .none, .none, .none,
      .none, .none⟩]

def TypeAttr.tryInto (perm : TypeAttr) : Except String (List AtomicStatement) :=
  forEach perm.stype fun t => forEach perm.sattr fun attr => do
    return [⟨KSU_SEPOLICY_CMD_TYPE_ATTR, 0, ← tryFrom t, ← tryFrom attr, .none, .none, .none,
      .none, .none⟩]

def Attr.tryInto (perm : Attr) : Except String (List AtomicStatement) := do
  return [⟨KSU_SEPOLICY_CMD_ATTR, 0, ← tryFrom perm.name, .none, .none, .none, .none, .none, .none⟩]

def TypeTransition.tryInto (perm : TypeTransition) : Except String (List AtomicStatement) := do
  let obj ← (match perm.objectName with
    | some obj => tryFrom obj
    | none => .ok PolicyObject.none)
  return [⟨KSU_SEPOLICY_CMD_TYPE_TRANSITION, 0, ← tryFrom perm.source, ← tryFrom perm.target,
    ← tryFrom perm.tclass, ← tryFrom perm.defaultType, obj, .none, .none⟩]

def TypeChange.tryInto (perm : TypeChange) : Except String (List AtomicStatement) := do
  let subcmd :=
    if perm.op = "type_change" then KSU_SEPOLICY_SUBCMD_TYPE_CHANGE_CHANGE
    else if perm.op = "type_member" then KSU_SEPOLICY_SUBCMD_TYPE_CHANGE_MEMBER
    else 0
  return [⟨KSU_SEPOLICY_CMD_TYPE_CHANGE, subcmd, ← tryFrom perm.source, ← tryFrom perm.target,
    ← tryFrom perm.tclass, ← tryFrom perm.defaultType, .none, .none, .none⟩]

def GenFsCon.tryInto (perm : GenFsCon) : Except String (List AtomicStatement) := do
  return [⟨KSU_SEPOLICY_CMD_GENFSCON, 0, ← tryFrom perm.fsName, ← tryFrom perm.partialPath,
    ← tryFrom perm.fsContext, .none, .none, .none, .none⟩]

def PolicyStatement.tryInto : PolicyStatement → Except String (List AtomicStatement)
  | .normalPerm perm => perm.tryInto
  | .xPerm perm => perm.tryInto
  | .typeState perm => perm.tryInto
  | .type perm => perm.tryInto
  | .typeAttr perm => perm.tryInto
  | .attr perm => perm.tryInto
  | .typeTransition perm => perm.tryInto
  | .typeChange perm => perm.tryInto
  | .genFsCon perm => perm.tryInto

/-- `flatten_atomic_statements`. -/
def flattenAtomicStatements (statements : List PolicyStatement) :
    Except String (List AtomicStatement) :=
  forEach statements PolicyStatement.tryInto

/-! ### The encoder -/

/-- `cmd_expected_argc`. -/
def cmdExpectedArgc (cmd : UInt32) : Option ℕ :=
  if cmd = KSU_SEPOLICY_CMD_NORMAL_PERM ∨ cmd = KSU_SEPOLICY_CMD_TYPE_CHANGE then some 4
  else if cmd = KSU_SEPOLICY_CMD_XPERM ∨ cmd = KSU_SEPOLICY_CMD_TYPE_TRANSITION then some 5
  else if cmd = KSU_SEPOLICY_CMD_TYPE_STATE ∨ cmd = KSU_SEPOLICY_CMD_ATTR then some 1
  else if cmd = KSU_SEPOLICY_CMD_TYPE ∨ cmd = KSU_SEPOLICY_CMD_TYPE_ATTR then some 2
  else if cmd = KSU_SEPOLICY_CMD_GENFSCON then some 3
  else none

/-- The bytes of an object: none for `None` and `All`. -/
def PolicyObject.bytes : PolicyObject → List UInt8
  | .none | .all => []
  | .one value => value

/-- `encode_policy_object`. -/
def encodePolicyObject (payload : List UInt8) (object : PolicyObject) : Except String (List UInt8) :=
  let bytes := object.bytes
  if bytes.length < 2 ^ 32 then .ok (payload ++ encodeLE 4 bytes.length ++ bytes ++ [0])
  else .error "policy object too long to encode"

/-- `append_atomic_statement`. -/
def appendAtomicStatement (payload : List UInt8) (statement : AtomicStatement) :
    Except String (List UInt8) :=
  match cmdExpectedArgc statement.cmd with
  | none =>
    let cmd := statement.cmd
    .error s!"unknown sepolicy cmd {cmd}"
  | some expectedArgc =>
    (statement.slots.take expectedArgc).foldlM encodePolicyObject
      (payload ++ encodeLE 4 statement.cmd.toNat ++ encodeLE 4 statement.subcmd.toNat)

/-- `serialize_atomic_statements`. -/
def serializeAtomicStatements (statements : List AtomicStatement) : Except String (List UInt8) :=
  statements.foldlM appendAtomicStatement []

end KernelSU.Ksud
