import KernelSU.Ksud.Sepolicy
import KernelSU.Lib.Parsing
import KernelSU.Lib.Text

/-!
# `userspace/ksud/src/sepolicy.rs`: the parser

A text is cut at newlines and semicolons.  Every piece that is not blank and does not begin with `#` goes to the
statement parsers in order, and what the one that succeeds leaves over is dropped.

An `IResult` is its value and the rest of the input; no parser here returns a failure or asks for more input.  The
blanks of `trim` and `split_whitespace` are those of Unicode, the blanks between objects are spaces and tabs.
-/

namespace KernelSU.Ksud

open KernelSU.Lib KernelSU.Lib.Parser

/-! ### Characters -/

/-- `is_sepolicy_char`. -/
def isSepolicyChar (c : Char) : Bool := c.isAlphanum || c == '_' || c == '-'

/-- The blanks of `space0` and `space1`. -/
def isBlank (c : Char) : Bool := c == ' ' || c == '\t'

/-- `str::split_whitespace`. -/
def splitWhitespace (s : Str) : List Str := (s.splitOnP isWhitespace).filter (· ≠ [])

/-! ### Objects -/

def space0 : Parser Char Str := takeWhile isBlank

def space1 : Parser Char Str := takeWhile1 isBlank

/-- `tag` of a keyword. -/
def keyword (t : String) : Parser Char String := do
  let _ ← tag t.toList
  return t

/-- `parse_single_word`. -/
def parseSingleWord : Parser Char Str := takeWhile1 isSepolicyChar

/-- `parse_bracket_objs`. -/
def parseBracketObjs : Parser Char SeObject := do
  let _ ← tag ['{']
  let words ← takeWhileMN 1 100 fun c => isSepolicyChar c || isWhitespace c
  let _ ← tag ['}']
  let objs := splitWhitespace words
  if objs = [] then failure else return objs

/-- `parse_single_obj`. -/
def parseSingleObj : Parser Char SeObject := do
  let word ← takeWhile1 isSepolicyChar
  return [word]

/-- `parse_star`. -/
def parseStar : Parser Char SeObject := do
  let _ ← tag ['*']
  return [['*']]

/-- `parse_seobj`. -/
def parseSeobj : Parser Char SeObject := alt [parseSingleObj, parseBracketObjs, parseStar]

/-- `parse_seobj_no_star`. -/
def parseSeobjNoStar : Parser Char SeObject := alt [parseSingleObj, parseBracketObjs]

/-! ### Statements -/

def NormalPerm.parse : Parser Char NormalPerm := do
  let op ← alt [keyword "allow", keyword "deny", keyword "auditallow", keyword "dontaudit"]
  let _ ← space1
  let source ← parseSeobj
  let _ ← space1
  let target ← parseSeobj
  let _ ← space1
  let tclass ← parseSeobj
  let _ ← space1
  let perm ← parseSeobj
  return ⟨op, source, target, tclass, perm⟩

def XPerm.parse : Parser Char XPerm := do
  let op ← alt [keyword "allowxperm", keyword "auditallowxperm", keyword "dontauditxperm"]
  let _ ← space1
  let source ← parseSeobj
  let _ ← space1
  let target ← parseSeobj
  let _ ← space1
  let tclass ← parseSeobj
  let _ ← space1
  let operation ← parseSingleWord
  let _ ← space1
  let permSet ← parseSeobj
  return ⟨op, source, target, tclass, operation, permSet⟩

def TypeState.parse : Parser Char TypeState := do
  let op ← alt [keyword "permissive", keyword "enforce"]
  let _ ← space1
  let stype ← parseSeobjNoStar
  return ⟨op, stype⟩

/-- `Type::parse`; a type without attributes gets `domain`. -/
def TypeDecl.parse : Parser Char TypeDecl := do
  let _ ← keyword "type"
  let _ ← space1
  let name ← parseSingleWord
  let input ← get
  if input = [] then return ⟨name, ["domain".toList]⟩
  else do
    let _ ← space1
    let attrs ← parseSeobjNoStar
    return ⟨name, attrs⟩

def TypeAttr.parse : Parser Char TypeAttr := do
  let _ ← alt [keyword "typeattribute", keyword "attradd"]
  let _ ← space1
  let stype ← parseSeobjNoStar
  let _ ← space1
  let attr ← parseSeobjNoStar
  return ⟨stype, attr⟩

def Attr.parse : Parser Char Attr := do
  let _ ← keyword "attribute"
  let _ ← space1
  let attr ← parseSingleWord
  return ⟨attr⟩

def TypeTransition.parse : Parser Char TypeTransition := do
  let _ ← alt [keyword "type_transition", keyword "name_transition"]
  let _ ← space1
  let source ← parseSingleWord
  let _ ← space1
  let target ← parseSingleWord
  let _ ← space1
  let tclass ← parseSingleWord
  let _ ← space1
  let default ← parseSingleWord
  let input ← get
  if input = [] then return ⟨source, target, tclass, default, none⟩
  else do
    let _ ← space1
    let object ← parseSingleWord
    return ⟨source, target, tclass, default, some object⟩

def TypeChange.parse : Parser Char TypeChange := do
  let op ← alt [keyword "type_change", keyword "type_member"]
  let _ ← space1
  let source ← parseSingleWord
  let _ ← space1
  let target ← parseSingleWord
  let _ ← space1
  let tclass ← parseSingleWord
  let _ ← space1
  let default ← parseSingleWord
  return ⟨op, source, target, tclass, default⟩

def GenFsCon.parse : Parser Char GenFsCon := do
  let _ ← keyword "genfscon"
  let _ ← space1
  let fs ← parseSingleWord
  let _ ← space1
  let path ← parseSingleWord
  let _ ← space1
  let context ← parseSingleWord
  return ⟨fs, path, context⟩

/-- The parsers of `PolicyStatement::parse`, in order. -/
def PolicyStatement.parsers : List (Parser Char PolicyStatement) :=
  [.normalPerm <$> NormalPerm.parse, .xPerm <$> XPerm.parse, .typeState <$> TypeState.parse, .type <$> TypeDecl.parse,
    .typeAttr <$> TypeAttr.parse, .attr <$> Attr.parse, .typeTransition <$> TypeTransition.parse,
    .typeChange <$> TypeChange.parse, .genFsCon <$> GenFsCon.parse]

def PolicyStatement.parse : Parser Char PolicyStatement := do
  let _ ← space0
  let statement ← alt PolicyStatement.parsers
  let _ ← space0
  let _ ← takeWhile (· == ';')
  let _ ← space0
  return statement

/-! ### Texts -/

/-- The loop of `parse_sepolicy`. -/
def parseLines (strict : Bool) : List Str → Except String (List PolicyStatement)
  | [] => .ok []
  | line :: lines =>
    let trimmedLine := trim line
    if trimmedLine = [] ∨ trimmedLine.head? = some '#' then parseLines strict lines
    else
      match (PolicyStatement.parse.run trimmedLine).map Prod.fst with
      | some statement => (parseLines strict lines).map (statement :: ·)
      | none =>
        if strict then
          let line := String.ofList line
          .error s!"Failed to parse policy statement: {line}"
        else parseLines strict lines

/-- `parse_sepolicy`. -/
def parseSepolicy (input : Str) (strict : Bool) : Except String (List PolicyStatement) :=
  parseLines strict (input.splitOnP fun c => c == '\n' || c == ';')

end KernelSU.Ksud
