import KernelSU.Ksud.SepolicyGrammar
import KernelSU.Lib.Printing

/-!
# How policy statements are written

The syntax of the nine kinds of statements in `userspace/ksud/src/sepolicy.rs`, as its comments give it: the keyword,
then words, names in braces or `*`, with spaces or tabs between them and any white space inside of braces.

* `StatementForm` — a statement as it is written: its tokens and all of its blanks;
* `StatementForm.text`, `StatementForm.statement` — the characters, and the statement they stand for;
* `exists_statementForm` — **PROVED**: every statement over names has a form.
-/

namespace KernelSU.Ksud

open KernelSU.Lib KernelSU.Lib.Parser

/-! ### Kinds -/

inductive StatementKind where
  | normalPerm
  | xPerm
  | typeState
  | type
  | typeAttr
  | attr
  | typeTransition
  | typeChange
  | genFsCon
  deriving DecidableEq, Repr

def PolicyStatement.kind : PolicyStatement → StatementKind
  | .normalPerm _ => .normalPerm
  | .xPerm _ => .xPerm
  | .typeState _ => .typeState
  | .type _ => .type
  | .typeAttr _ => .typeAttr
  | .attr _ => .attr
  | .typeTransition _ => .typeTransition
  | .typeChange _ => .typeChange
  | .genFsCon _ => .genFsCon

/-! ### Tokens and blanks -/

/-- A name over letters, digits, `_` and `-`. -/
abbrev NameText := {w : Str // Run isSepolicyChar w}

/-- Spaces and tabs between tokens. -/
abbrev Blanks := {b : Str // Run isBlank b}

/-- White space in braces, perhaps none. -/
abbrev White := {ws : Str // ∀ c ∈ ws, isWhitespace c = true}

/-- White space between two names in braces. -/
abbrev Gap := {ws : Str // Run isWhitespace ws}

/-- One of some keywords. -/
abbrev Keyword (ks : List String) := {op : String // op ∈ ks}

/-! ### Objects -/

/-- Names in braces. -/
structure BraceForm where
  lead : White
  first : NameText
  others : List (Gap × NameText)
  trail : White

/-- What is written between the braces. -/
def BraceForm.inner (f : BraceForm) : Str :=
  f.lead.1 ++ f.first.1 ++ f.others.flatMap (fun o => o.1.1 ++ o.2.1) ++ f.trail.1

def BraceForm.names (f : BraceForm) : SeObject := f.first.1 :: f.others.map fun o => o.2.1

/-- An object without the wildcard. -/
inductive ObjectForm where
  | single (w : NameText)
  | braces (f : BraceForm)

def ObjectForm.text : ObjectForm → Str
  | .single w => w.1
  | .braces f => '{' :: f.inner ++ ['}']

def ObjectForm.names : ObjectForm → SeObject
  | .single w => [w.1]
  | .braces f => f.names

/-- An object or the wildcard. -/
inductive ObjectOrStarForm where
  | object (o : ObjectForm)
  | star

def ObjectOrStarForm.text : ObjectOrStarForm → Str
  | .object o => o.text
  | .star => ['*']

def ObjectOrStarForm.names : ObjectOrStarForm → SeObject
  | .object o => o.names
  | .star => [['*']]

/-! ### Statements -/

/-- A statement with the blanks before every object. -/
inductive StatementForm where
  | normalPerm (op : Keyword ["allow", "deny", "auditallow", "dontaudit"])
      (source target tclass perm : Blanks × ObjectOrStarForm)
  | xPerm (op : Keyword ["allowxperm", "auditallowxperm", "dontauditxperm"])
      (source target tclass : Blanks × ObjectOrStarForm) (operation : Blanks × NameText)
      (permSet : Blanks × ObjectOrStarForm)
  | typeState (op : Keyword ["permissive", "enforce"]) (stype : Blanks × ObjectForm)
  | type (name : Blanks × NameText) (attrs : Option (Blanks × ObjectForm))
  | typeAttr (op : Keyword ["typeattribute", "attradd"]) (stype sattr : Blanks × ObjectForm)
  | attr (name : Blanks × NameText)
  | typeTransition (op : Keyword ["type_transition", "name_transition"])
      (source target tclass defaultType : Blanks × NameText) (objectName : Option (Blanks × NameText))
  | typeChange (op : Keyword ["type_change", "type_member"]) (source target tclass defaultType : Blanks × NameText)
  | genFsCon (fsName partialPath fsContext : Blanks × NameText)

/-- The statement that is written. -/
def StatementForm.statement : StatementForm → PolicyStatement
  | .normalPerm op source target tclass perm =>
    .normalPerm ⟨op.1, source.2.names, target.2.names, tclass.2.names, perm.2.names⟩
  | .xPerm op source target tclass operation permSet =>
    .xPerm ⟨op.1, source.2.names, target.2.names, tclass.2.names, operation.2.1, permSet.2.names⟩
  | .typeState op stype => .typeState ⟨op.1, stype.2.names⟩
  | .type name none => .type ⟨name.2.1, ["domain".toList]⟩
  | .type name (some attrs) => .type ⟨name.2.1, attrs.2.names⟩
  | .typeAttr _ stype sattr => .typeAttr ⟨stype.2.names, sattr.2.names⟩
  | .attr name => .attr ⟨name.2.1⟩
  | .typeTransition _ source target tclass defaultType objectName =>
    .typeTransition ⟨source.2.1, target.2.1, tclass.2.1, defaultType.2.1, objectName.map fun o => o.2.1⟩
  | .typeChange op source target tclass defaultType =>
    .typeChange ⟨op.1, source.2.1, target.2.1, tclass.2.1, defaultType.2.1⟩
  | .genFsCon fsName partialPath fsContext => .genFsCon ⟨fsName.2.1, partialPath.2.1, fsContext.2.1⟩

/-- The blanks before an object and its characters. -/
abbrev spelled (text : α → Str) (o : Blanks × α) : Str × Str := (o.1.1, text o.2)

/-- The characters of the statement. -/
def StatementForm.text : StatementForm → Str
  | .normalPerm op source target tclass perm =>
    written op.1.toList [spelled ObjectOrStarForm.text source, spelled ObjectOrStarForm.text target,
      spelled ObjectOrStarForm.text tclass, spelled ObjectOrStarForm.text perm]
  | .xPerm op source target tclass operation permSet =>
    written op.1.toList [spelled ObjectOrStarForm.text source, spelled ObjectOrStarForm.text target,
      spelled ObjectOrStarForm.text tclass, spelled Subtype.val operation, spelled ObjectOrStarForm.text permSet]
  | .typeState op stype => written op.1.toList [spelled ObjectForm.text stype]
  | .type name none => written "type".toList [spelled Subtype.val name]
  | .type name (some attrs) => written "type".toList [spelled Subtype.val name, spelled ObjectForm.text attrs]
  | .typeAttr op stype sattr =>
    written op.1.toList [spelled ObjectForm.text stype, spelled ObjectForm.text sattr]
  | .attr name => written "attribute".toList [spelled Subtype.val name]
  | .typeTransition op source target tclass defaultType none =>
    written op.1.toList [spelled Subtype.val source, spelled Subtype.val target, spelled Subtype.val tclass,
      spelled Subtype.val defaultType]
  | .typeTransition op source target tclass defaultType (some objectName) =>
    written op.1.toList [spelled Subtype.val source, spelled Subtype.val target, spelled Subtype.val tclass,
      spelled Subtype.val defaultType, spelled Subtype.val objectName]
  | .typeChange op source target tclass defaultType =>
    written op.1.toList [spelled Subtype.val source, spelled Subtype.val target, spelled Subtype.val tclass,
      spelled Subtype.val defaultType]
  | .genFsCon fsName partialPath fsContext =>
    written "genfscon".toList [spelled Subtype.val fsName, spelled Subtype.val partialPath,
      spelled Subtype.val fsContext]

/-! ### What fits -/

/-- The inside of the braces has at most a hundred characters. -/
def BraceForm.Fits (f : BraceForm) : Prop := f.inner.length ≤ 100

def ObjectForm.Fits : ObjectForm → Prop
  | .single _ => True
  | .braces f => f.Fits

def ObjectOrStarForm.Fits : ObjectOrStarForm → Prop
  | .object o => o.Fits
  | .star => True

/-- All braces of the statement fit. -/
def StatementForm.Fits : StatementForm → Prop
  | .normalPerm _ source target tclass perm => source.2.Fits ∧ target.2.Fits ∧ tclass.2.Fits ∧ perm.2.Fits
  | .xPerm _ source target tclass _ permSet => source.2.Fits ∧ target.2.Fits ∧ tclass.2.Fits ∧ permSet.2.Fits
  | .typeState _ stype => stype.2.Fits
  | .type _ attrs => ∀ o ∈ attrs, o.2.Fits
  | .typeAttr _ stype sattr => stype.2.Fits ∧ sattr.2.Fits
  | .attr _ => True
  | .typeTransition .. => True
  | .typeChange .. => True
  | .genFsCon .. => True

/-! ### Statements over names -/

/-- Names, at least one. -/
def Named (o : SeObject) : Prop := o ≠ [] ∧ ∀ w ∈ o, Run isSepolicyChar w

/-- Names or the wildcard. -/
def NamedOrStar (o : SeObject) : Prop := o = [['*']] ∨ Named o

/-- The keyword is one of the statement's kind, and names stand where the syntax has them. -/
def PolicyStatement.WellNamed : PolicyStatement → Prop
  | .normalPerm perm =>
    perm.op ∈ ["allow", "deny", "auditallow", "dontaudit"] ∧ NamedOrStar perm.source ∧ NamedOrStar perm.target ∧
      NamedOrStar perm.tclass ∧ NamedOrStar perm.perm
  | .xPerm perm =>
    perm.op ∈ ["allowxperm", "auditallowxperm", "dontauditxperm"] ∧ NamedOrStar perm.source ∧
      NamedOrStar perm.target ∧ NamedOrStar perm.tclass ∧ Run isSepolicyChar perm.operation ∧ NamedOrStar perm.permSet
  | .typeState perm => perm.op ∈ ["permissive", "enforce"] ∧ Named perm.stype
  | .type perm => Run isSepolicyChar perm.name ∧ Named perm.attrs
  | .typeAttr perm => Named perm.stype ∧ Named perm.sattr
  | .attr perm => Run isSepolicyChar perm.name
  | .typeTransition perm =>
    Run isSepolicyChar perm.source ∧ Run isSepolicyChar perm.target ∧ Run isSepolicyChar perm.tclass ∧
      Run isSepolicyChar perm.defaultType ∧ ∀ o ∈ perm.objectName, Run isSepolicyChar o
  | .typeChange perm =>
    perm.op ∈ ["type_change", "type_member"] ∧ Run isSepolicyChar perm.source ∧ Run isSepolicyChar perm.target ∧
      Run isSepolicyChar perm.tclass ∧ Run isSepolicyChar perm.defaultType
  | .genFsCon perm =>
    Run isSepolicyChar perm.fsName ∧ Run isSepolicyChar perm.partialPath ∧ Run isSepolicyChar perm.fsContext

/-- One space. -/
def oneBlank : Blanks := ⟨[' '], List.cons_ne_nil _ _, List.all_eq_true.mp rfl⟩

/-- One space in braces. -/
def oneGap : Gap := ⟨[' '], List.cons_ne_nil _ _, List.all_eq_true.mp rfl⟩

def noWhite : White := ⟨[], nofun⟩

theorem exists_nameForms {ws : List Str} (h : ∀ w ∈ ws, Run isSepolicyChar w) :
    ∃ others : List (Gap × NameText), (others.map fun o => o.2.1) = ws := by
  induction ws with
  | nil => exact ⟨[], rfl⟩
  | cons w ws ih =>
    obtain ⟨others, hothers⟩ := ih fun w' hw' => h w' (List.mem_cons_of_mem w hw')
    exact ⟨(oneGap, ⟨w, h w List.mem_cons_self⟩) :: others, by rw [List.map_cons, hothers]⟩

theorem exists_objectForm {o : SeObject} (h : Named o) : ∃ f : Blanks × ObjectForm, f.2.names = o := by
  obtain ⟨hne, hall⟩ := h
  cases o with
  | nil => exact absurd rfl hne
  | cons w ws =>
    obtain ⟨others, hothers⟩ := exists_nameForms fun w' hw' => hall w' (List.mem_cons_of_mem w hw')
    refine ⟨(oneBlank, .braces ⟨noWhite, ⟨w, hall w List.mem_cons_self⟩, others, noWhite⟩), ?_⟩
    show w :: others.map (fun o => o.2.1) = w :: ws
    rw [hothers]

theorem exists_objectOrStarForm {o : SeObject} (h : NamedOrStar o) : ∃ f : Blanks × ObjectOrStarForm, f.2.names = o := by
  rcases h with rfl | h
  · exact ⟨(oneBlank, .star), rfl⟩
  · obtain ⟨f, hf⟩ := exists_objectForm h
    exact ⟨(oneBlank, .object f.2), hf⟩

/-- A name behind one space. -/
def spacedName (w : Str) (h : Run isSepolicyChar w) : Blanks × NameText := (oneBlank, ⟨w, h⟩)

/-- **Every statement over names can be written.** -/
theorem exists_statementForm {st : PolicyStatement} (h : st.WellNamed) : ∃ f : StatementForm, f.statement = st := by
  cases st with
  | normalPerm perm =>
    obtain ⟨hop, hsource, htarget, htclass, hperm⟩ := h
    obtain ⟨source, hsource⟩ := exists_objectOrStarForm hsource
    obtain ⟨target, htarget⟩ := exists_objectOrStarForm htarget
    obtain ⟨tclass, htclass⟩ := exists_objectOrStarForm htclass
    obtain ⟨permForm, hperm⟩ := exists_objectOrStarForm hperm
    refine ⟨.normalPerm ⟨perm.op, hop⟩ source target tclass permForm, ?_⟩
    rw [StatementForm.statement, hsource, htarget, htclass, hperm]
  | xPerm perm =>
    obtain ⟨hop, hsource, htarget, htclass, hoperation, hpermSet⟩ := h
    obtain ⟨source, hsource⟩ := exists_objectOrStarForm hsource
    obtain ⟨target, htarget⟩ := exists_objectOrStarForm htarget
    obtain ⟨tclass, htclass⟩ := exists_objectOrStarForm htclass
    obtain ⟨permSet, hpermSet⟩ := exists_objectOrStarForm hpermSet
    refine ⟨.xPerm ⟨perm.op, hop⟩ source target tclass (spacedName perm.operation hoperation) permSet, ?_⟩
    rw [StatementForm.statement, hsource, htarget, htclass, hpermSet]
    rfl
  | typeState perm =>
    obtain ⟨hop, hstype⟩ := h
    obtain ⟨stype, hstype⟩ := exists_objectForm hstype
    exact ⟨.typeState ⟨perm.op, hop⟩ stype, by rw [StatementForm.statement, hstype]⟩
  | type perm =>
    obtain ⟨hname, hattrs⟩ := h
    obtain ⟨attrs, hattrs⟩ := exists_objectForm hattrs
    refine ⟨.type (spacedName perm.name hname) (some attrs), ?_⟩
    rw [StatementForm.statement, hattrs]
    rfl
  | typeAttr perm =>
    obtain ⟨hstype, hsattr⟩ := h
    obtain ⟨stype, hstype⟩ := exists_objectForm hstype
    obtain ⟨sattr, hsattr⟩ := exists_objectForm hsattr
    exact ⟨.typeAttr ⟨"typeattribute", by simp⟩ stype sattr, by rw [StatementForm.statement, hstype, hsattr]⟩
  | attr perm => exact ⟨.attr (spacedName perm.name h), rfl⟩
  | typeTransition perm =>
    obtain ⟨source, target, tclass, defaultType, objectName⟩ := perm
    obtain ⟨hsource, htarget, htclass, hdefault, hobject⟩ := h
    cases objectName with
    | none =>
      exact ⟨.typeTransition ⟨"type_transition", by simp⟩ (spacedName source hsource) (spacedName target htarget)
        (spacedName tclass htclass) (spacedName defaultType hdefault) none, rfl⟩
    | some objectName =>
      exact ⟨.typeTransition ⟨"type_transition", by simp⟩ (spacedName source hsource) (spacedName target htarget)
        (spacedName tclass htclass) (spacedName defaultType hdefault)
        (some (spacedName objectName (hobject objectName rfl))), rfl⟩
  | typeChange perm =>
    obtain ⟨hop, hsource, htarget, htclass, hdefault⟩ := h
    exact ⟨.typeChange ⟨perm.op, hop⟩ (spacedName perm.source hsource) (spacedName perm.target htarget)
      (spacedName perm.tclass htclass) (spacedName perm.defaultType hdefault), rfl⟩
  | genFsCon perm =>
    obtain ⟨hfsName, hpartialPath, hfsContext⟩ := h
    exact ⟨.genFsCon (spacedName perm.fsName hfsName) (spacedName perm.partialPath hpartialPath)
      (spacedName perm.fsContext hfsContext), rfl⟩

end KernelSU.Ksud
