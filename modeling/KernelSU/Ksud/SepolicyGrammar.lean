import KernelSU.Ksud.SepolicyParse

/-!
# The grammar of policy statements

What each statement parser accepts, as a relation of what is spelled, what follows it and the statement.  A word
ends where no word character follows; a statement whose last object may be left out does so only at the end.

* `PolicyStatement.alt_run_iff` — **PROVED**: the statement parsers together read the grammar, so their order is
  immaterial;
* `PolicyStatement.parse_iff` — **PROVED**: on a piece that begins with no blank, `PolicyStatement::parse` accepts
  exactly the pieces that begin with a statement.
-/

namespace KernelSU.Ksud

open KernelSU.Lib KernelSU.Lib.Parser

/-! ### Objects -/

/-- A word. -/
abbrev Word : Str → Str → Str → Prop := Longest isSepolicyChar

/-- The inside of a pair of brackets. -/
structure Bracketed (inner : Str) : Prop where
  short : inner.length ≤ 100
  chars : ∀ c ∈ inner, isSepolicyChar c = true ∨ isWhitespace c = true
  objs : splitWhitespace inner ≠ []

/-- A word, or words in brackets. -/
inductive Object : Str → Str → SeObject → Prop
  | single {s rest w} : Word s rest w → Object s rest [w]
  | bracket {inner rest} : Bracketed inner → Object ('{' :: inner ++ ['}']) rest (splitWhitespace inner)

/-- An object or the wildcard. -/
inductive ObjectOrStar : Str → Str → SeObject → Prop
  | object {s rest o} : Object s rest o → ObjectOrStar s rest o
  | star {rest} : ObjectOrStar ['*'] rest [['*']]

/-- One of some keywords. -/
def OneOf (ks : List String) (s _rest : Str) (op : String) : Prop := op ∈ ks ∧ s = op.toList

/-! ### Statements -/

/-- Objects with blanks between them. -/
abbrev Then (L : Str → Str → α → Prop) (M : α → Str → Str → β → Prop) : Str → Str → β → Prop := Spaced isBlank L M

def NormalPerm.Spells : Str → Str → NormalPerm → Prop :=
  Then (OneOf ["allow", "deny", "auditallow", "dontaudit"]) fun op => Then ObjectOrStar fun source =>
    Then ObjectOrStar fun target => Then ObjectOrStar fun tclass => Last ObjectOrStar fun perm =>
      ⟨op, source, target, tclass, perm⟩

def XPerm.Spells : Str → Str → XPerm → Prop :=
  Then (OneOf ["allowxperm", "auditallowxperm", "dontauditxperm"]) fun op => Then ObjectOrStar fun source =>
    Then ObjectOrStar fun target => Then ObjectOrStar fun tclass => Then Word fun operation =>
      Last ObjectOrStar fun permSet => ⟨op, source, target, tclass, operation, permSet⟩

def TypeState.Spells : Str → Str → TypeState → Prop :=
  Then (OneOf ["permissive", "enforce"]) fun op => Last Object fun stype => ⟨op, stype⟩

def TypeDecl.Spells : Str → Str → TypeDecl → Prop :=
  Then (OneOf ["type"]) fun _ => LastOr isBlank Word (fun name => ⟨name, ["domain".toList]⟩) fun name =>
    Last Object fun attrs => ⟨name, attrs⟩

def TypeAttr.Spells : Str → Str → TypeAttr → Prop :=
  Then (OneOf ["typeattribute", "attradd"]) fun _ => Then Object fun stype => Last Object fun attr => ⟨stype, attr⟩

def Attr.Spells : Str → Str → Attr → Prop := Then (OneOf ["attribute"]) fun _ => Last Word fun attr => ⟨attr⟩

def TypeTransition.Spells : Str → Str → TypeTransition → Prop :=
  Then (OneOf ["type_transition", "name_transition"]) fun _ => Then Word fun source => Then Word fun target =>
    Then Word fun tclass => LastOr isBlank Word (fun default => ⟨source, target, tclass, default, none⟩) fun default =>
      Last Word fun object => ⟨source, target, tclass, default, some object⟩

def TypeChange.Spells : Str → Str → TypeChange → Prop :=
  Then (OneOf ["type_change", "type_member"]) fun op => Then Word fun source => Then Word fun target =>
    Then Word fun tclass => Last Word fun default => ⟨op, source, target, tclass, default⟩

def GenFsCon.Spells : Str → Str → GenFsCon → Prop :=
  Then (OneOf ["genfscon"]) fun _ => Then Word fun fs => Then Word fun path => Last Word fun context =>
    ⟨fs, path, context⟩

/-- `s`, followed by `rest`, spells the statement. -/
def PolicyStatement.Spells (s rest : Str) : PolicyStatement → Prop
  | .normalPerm perm => perm.Spells s rest
  | .xPerm perm => perm.Spells s rest
  | .typeState perm => perm.Spells s rest
  | .type perm => perm.Spells s rest
  | .typeAttr perm => perm.Spells s rest
  | .attr perm => perm.Spells s rest
  | .typeTransition perm => perm.Spells s rest
  | .typeChange perm => perm.Spells s rest
  | .genFsCon perm => perm.Spells s rest

/-! ### Reading objects -/

theorem isSepolicyChar_of_isBlank {c : Char} (h : isBlank c = true) : isSepolicyChar c = false := by
  simp only [isBlank, Bool.or_eq_true, beq_iff_eq] at h
  rcases h with rfl | rfl
  · decide
  · decide

theorem isBlank_of_isSepolicyChar {c : Char} (h : isSepolicyChar c = true) : isBlank c = false := by
  by_contra hblank
  rw [Bool.not_eq_false] at hblank
  exact Bool.false_ne_true ((isSepolicyChar_of_isBlank hblank).symm.trans h)

theorem reads_word : Reads isBlank parseSingleWord Word := reads_takeWhile1 fun _ => isBlank_of_isSepolicyChar

section Objects

variable {input rest : Str} {o : SeObject}

theorem parseSingleObj_run :
    parseSingleObj.run input = some (o, rest) ↔ ∃ s, input = s ++ rest ∧ Last Word (fun w => [w]) s rest o :=
  (reads_word.last fun w => [w]).run_iff input o rest

theorem parseStar_run : parseStar.run input = some (o, rest) ↔ input = '*' :: rest ∧ o = [['*']] := by
  rw [parseStar, run_bind]
  constructor
  · rintro ⟨t, mid, htag, hreturn⟩
    obtain ⟨rfl, rfl⟩ := run_return.mp hreturn
    exact ⟨(tag_run.mp htag).2, rfl⟩
  · rintro ⟨rfl, rfl⟩
    exact ⟨['*'], rest, tag_run.mpr ⟨rfl, rfl⟩, run_return.mpr ⟨rfl, rfl⟩⟩

theorem splitWhitespace_nil : splitWhitespace [] = [] := by
  simp [splitWhitespace]

theorem parseBracketObjs_run : parseBracketObjs.run input = some (o, rest) ↔
    ∃ inner, input = '{' :: inner ++ '}' :: rest ∧ Bracketed inner ∧ o = splitWhitespace inner := by
  rw [parseBracketObjs, run_bind]
  constructor
  · rintro ⟨t, mid, hopen, hrest⟩
    obtain ⟨-, rfl⟩ := tag_run.mp hopen
    obtain ⟨inner, mid', hinner, hafter⟩ := run_bind.mp hrest
    obtain ⟨t', mid'', hclose, hreturn⟩ := run_bind.mp hafter
    obtain ⟨-, rfl⟩ := tag_run.mp hclose
    dsimp only at hreturn
    obtain ⟨rfl, -, hshort, hchars⟩ := (takeWhileMN_run (by decide)).mp hinner
    by_cases hobjs : splitWhitespace inner = []
    · rw [if_pos hobjs] at hreturn
      cases hreturn
    · rw [if_neg hobjs] at hreturn
      obtain ⟨rfl, rfl⟩ := run_return.mp hreturn
      exact ⟨inner, rfl, ⟨hshort, fun c hc => by simpa using hchars c hc, hobjs⟩, rfl⟩
  · rintro ⟨inner, rfl, hinner, rfl⟩
    have hpos : 1 ≤ inner.length := by
      by_contra hempty
      have hnil : inner = [] := List.length_eq_zero_iff.mp (by omega)
      exact hinner.objs (by rw [hnil, splitWhitespace_nil])
    refine ⟨['{'], inner ++ '}' :: rest, tag_run.mpr ⟨rfl, rfl⟩, ?_⟩
    refine run_bind.mpr ⟨inner, '}' :: rest, (takeWhileMN_run (by decide)).mpr ⟨rfl, hpos, hinner.short, ?_⟩, ?_⟩
    · intro c hc
      simpa using hinner.chars c hc
    · refine run_bind.mpr ⟨['}'], rest, tag_run.mpr ⟨rfl, rfl⟩, ?_⟩
      rw [if_neg hinner.objs]
      exact run_return.mpr ⟨rfl, rfl⟩

/-- What the three kinds of objects begin with. -/
theorem parseSingleObj_head (h : (parseSingleObj.run input).isSome) : ∃ c ∈ input.head?, isSepolicyChar c = true := by
  obtain ⟨⟨o, rest⟩, hrun⟩ := Option.isSome_iff_exists.mp h
  obtain ⟨s, rfl, w, ⟨-, hs, -⟩, -⟩ := parseSingleObj_run.mp hrun
  cases s with
  | nil => exact absurd rfl hs.1
  | cons c s => exact ⟨c, rfl, hs.2 c List.mem_cons_self⟩

theorem parseBracketObjs_head (h : (parseBracketObjs.run input).isSome) : input.head? = some '{' := by
  obtain ⟨⟨o, rest⟩, hrun⟩ := Option.isSome_iff_exists.mp h
  obtain ⟨inner, rfl, -⟩ := parseBracketObjs_run.mp hrun
  rfl

theorem parseStar_head (h : (parseStar.run input).isSome) : input.head? = some '*' := by
  obtain ⟨⟨o, rest⟩, hrun⟩ := Option.isSome_iff_exists.mp h
  obtain ⟨rfl, -⟩ := parseStar_run.mp hrun
  rfl

theorem parseSingleObj_not_other {c : Char} (hsingle : (parseSingleObj.run input).isSome) (hother : input.head? = some c)
    (hc : isSepolicyChar c = false) : False := by
  obtain ⟨c', hhead, hword⟩ := parseSingleObj_head hsingle
  rw [Option.mem_def, hother, Option.some.injEq] at hhead
  subst hhead
  exact Bool.false_ne_true (hc.symm.trans hword)

theorem parseSeobjNoStar_run :
    parseSeobjNoStar.run input = some (o, rest) ↔ ∃ s, input = s ++ rest ∧ Object s rest o := by
  rw [parseSeobjNoStar, alt_run]
  · simp only [List.exists_mem_cons_iff, List.not_mem_nil, false_and, exists_false, or_false, parseSingleObj_run,
      parseBracketObjs_run]
    constructor
    · rintro (⟨s, rfl, w, hw, rfl⟩ | ⟨inner, rfl, hinner, rfl⟩)
      · exact ⟨s, rfl, .single hw⟩
      · exact ⟨'{' :: inner ++ ['}'], by simp, .bracket hinner⟩
    · rintro ⟨s, rfl, hs⟩
      cases hs with
      | single hw => exact Or.inl ⟨s, rfl, _, hw, rfl⟩
      | bracket hinner => exact Or.inr ⟨_, by simp, hinner, rfl⟩
  · simp only [List.pairwise_cons, List.mem_singleton, forall_eq, List.not_mem_nil, false_implies, implies_true,
      List.Pairwise.nil, and_true]
    intro hsingle hbracket
    exact parseSingleObj_not_other hsingle (parseBracketObjs_head hbracket) (by decide)

theorem parseSeobj_run : parseSeobj.run input = some (o, rest) ↔ ∃ s, input = s ++ rest ∧ ObjectOrStar s rest o := by
  have hone : [parseSingleObj, parseBracketObjs, parseStar].Pairwise
      fun p q => (p.run input).isSome → (q.run input).isSome → False := by
    simp only [List.pairwise_cons, List.mem_cons, List.not_mem_nil, or_false, forall_eq_or_imp, forall_eq,
      false_implies, implies_true, List.Pairwise.nil, and_true]
    refine ⟨⟨fun hsingle hbracket => ?_, fun hsingle hstar => ?_⟩, fun hbracket hstar => ?_⟩
    · exact parseSingleObj_not_other hsingle (parseBracketObjs_head hbracket) (by decide)
    · exact parseSingleObj_not_other hsingle (parseStar_head hstar) (by decide)
    · have hheads := (parseBracketObjs_head hbracket).symm.trans (parseStar_head hstar)
      exact absurd hheads (by decide)
  have hnoStar : (∃ p ∈ [parseSingleObj, parseBracketObjs], p.run input = some (o, rest)) ↔
      ∃ s, input = s ++ rest ∧ Object s rest o := by
    rw [← parseSeobjNoStar_run, parseSeobjNoStar, alt_run (hone.sublist (by simp))]
  rw [parseSeobj, alt_run hone]
  have hsplit : (∃ p ∈ [parseSingleObj, parseBracketObjs, parseStar], p.run input = some (o, rest)) ↔
      (∃ p ∈ [parseSingleObj, parseBracketObjs], p.run input = some (o, rest)) ∨ parseStar.run input = some (o, rest) := by
    simp [or_assoc]
  rw [hsplit, hnoStar, parseStar_run]
  constructor
  · rintro (⟨s, rfl, hs⟩ | ⟨rfl, rfl⟩)
    · exact ⟨s, rfl, .object hs⟩
    · exact ⟨['*'], rfl, .star⟩
  · rintro ⟨s, rfl, hs⟩
    cases hs with
    | object h => exact Or.inl ⟨s, rfl, h⟩
    | star => exact Or.inr ⟨rfl, rfl⟩

end Objects

theorem object_solid {s rest : Str} {o : SeObject} (h : Object s rest o) : s ≠ [] ∧ Stops isBlank s := by
  cases h with
  | single hw => exact reads_word.solid hw
  | bracket _ => exact ⟨by simp, by simp [isBlank]⟩

theorem reads_objectNoStar : Reads isBlank parseSeobjNoStar Object :=
  ⟨fun _ _ _ => parseSeobjNoStar_run, object_solid⟩

theorem reads_object : Reads isBlank parseSeobj ObjectOrStar := by
  refine ⟨fun _ _ _ => parseSeobj_run, fun h => ?_⟩
  cases h with
  | object h => exact object_solid h
  | star => exact ⟨by simp, by simp [isBlank]⟩

/-! ### Reading keywords -/

/-- No keyword begins another. -/
def prefixFree : List String → Bool
  | [] => true
  | t :: ks => ks.all (fun u => !t.toList.isPrefixOf u.toList && !u.toList.isPrefixOf t.toList) && prefixFree ks

/-- Keywords are not empty and have no blanks. -/
def solids (ks : List String) : Bool := ks.all fun t => !t.toList.isEmpty && t.toList.all fun c => !isBlank c

theorem prefixFree_pairwise {ks : List String} (h : prefixFree ks = true) :
    ks.Pairwise fun t u => ¬t.toList <+: u.toList ∧ ¬u.toList <+: t.toList := by
  induction ks with
  | nil => exact .nil
  | cons t ks ih =>
    rw [prefixFree, Bool.and_eq_true] at h
    refine .cons (fun u hu => ?_) (ih h.2)
    have hu := List.all_eq_true.mp h.1 u hu
    simp only [Bool.and_eq_true, Bool.not_eq_true', ← Bool.not_eq_true, List.isPrefixOf_iff_prefix] at hu
    exact hu

theorem solid_of_solids {ks : List String} (h : solids ks = true) {t : String} (ht : t ∈ ks) :
    t.toList ≠ [] ∧ ∀ c ∈ t.toList, isBlank c = false := by
  simpa using List.all_eq_true.mp h t ht

theorem keyword_run {t op : String} {input rest : Str} :
    (keyword t).run input = some (op, rest) ↔ op = t ∧ input = t.toList ++ rest := by
  rw [keyword, run_bind]
  constructor
  · rintro ⟨a, mid, htag, hreturn⟩
    obtain ⟨rfl, rfl⟩ := run_return.mp hreturn
    exact ⟨rfl, (tag_run.mp htag).2⟩
  · rintro ⟨rfl, rfl⟩
    exact ⟨op.toList, rest, tag_run.mpr ⟨rfl, rfl⟩, run_return.mpr ⟨rfl, rfl⟩⟩

theorem oneOf_solid {ks : List String} (hsolid : solids ks = true) {s rest : Str} {op : String} (h : OneOf ks s rest op) :
    s ≠ [] ∧ Stops isBlank s := by
  obtain ⟨hmem, rfl⟩ := h
  obtain ⟨hne, hblank⟩ := solid_of_solids hsolid hmem
  exact ⟨hne, fun c hc => hblank c (List.mem_of_head? hc)⟩

theorem reads_keywords (ks : List String) (hfree : prefixFree ks = true) (hsolid : solids ks = true) :
    Reads isBlank (alt (ks.map keyword)) (OneOf ks) := by
  refine ⟨fun input op rest => ?_, oneOf_solid hsolid⟩
  rw [alt_run]
  · constructor
    · rintro ⟨p, hp, hrun⟩
      obtain ⟨t, ht, rfl⟩ := List.mem_map.mp hp
      obtain ⟨rfl, rfl⟩ := keyword_run.mp hrun
      exact ⟨op.toList, rfl, ht, rfl⟩
    · rintro ⟨s, rfl, hmem, rfl⟩
      exact ⟨keyword op, List.mem_map_of_mem hmem, keyword_run.mpr ⟨rfl, rfl⟩⟩
  · rw [List.pairwise_map]
    refine (prefixFree_pairwise hfree).imp fun {t u} hboth ht hu => ?_
    obtain ⟨r, hr⟩ := Option.isSome_iff_exists.mp ht
    obtain ⟨r', hr'⟩ := Option.isSome_iff_exists.mp hu
    have htprefix : t.toList <+: input := ⟨r.2, (keyword_run.mp hr).2.symm⟩
    have huprefix : u.toList <+: input := ⟨r'.2, (keyword_run.mp hr').2.symm⟩
    rcases List.prefix_or_prefix_of_prefix htprefix huprefix with h | h
    · exact hboth.1 h
    · exact hboth.2 h

theorem reads_keyword (t : String) (hsolid : solids [t] = true) : Reads isBlank (keyword t) (OneOf [t]) := by
  refine ⟨fun input op rest => ?_, oneOf_solid hsolid⟩
  rw [keyword_run]
  constructor
  · rintro ⟨rfl, rfl⟩
    exact ⟨op.toList, rfl, List.mem_singleton_self op, rfl⟩
  · rintro ⟨s, rfl, hmem, rfl⟩
    obtain rfl := List.mem_singleton.mp hmem
    exact ⟨rfl, rfl⟩

/-! ### Reading statements -/

theorem NormalPerm.reads : Reads isBlank NormalPerm.parse NormalPerm.Spells :=
  (reads_keywords ["allow", "deny", "auditallow", "dontaudit"] rfl rfl).spaced fun _ => reads_object.spaced fun _ => reads_object.spaced fun _ =>
    reads_object.spaced fun _ => reads_object.last _

theorem XPerm.reads : Reads isBlank XPerm.parse XPerm.Spells :=
  (reads_keywords ["allowxperm", "auditallowxperm", "dontauditxperm"] rfl rfl).spaced fun _ => reads_object.spaced fun _ => reads_object.spaced fun _ =>
    reads_object.spaced fun _ => reads_word.spaced fun _ => reads_object.last _

theorem TypeState.reads : Reads isBlank TypeState.parse TypeState.Spells :=
  (reads_keywords ["permissive", "enforce"] rfl rfl).spaced fun _ => reads_objectNoStar.last _

theorem TypeDecl.reads : Reads isBlank TypeDecl.parse TypeDecl.Spells :=
  (reads_keyword "type" rfl).spaced fun _ => reads_word.lastOr _ fun _ => reads_objectNoStar.last _

theorem TypeAttr.reads : Reads isBlank TypeAttr.parse TypeAttr.Spells :=
  (reads_keywords ["typeattribute", "attradd"] rfl rfl).spaced fun _ => reads_objectNoStar.spaced fun _ => reads_objectNoStar.last _

theorem Attr.reads : Reads isBlank Attr.parse Attr.Spells :=
  (reads_keyword "attribute" rfl).spaced fun _ => reads_word.last _

theorem TypeTransition.reads : Reads isBlank TypeTransition.parse TypeTransition.Spells :=
  (reads_keywords ["type_transition", "name_transition"] rfl rfl).spaced fun _ => reads_word.spaced fun _ => reads_word.spaced fun _ =>
    reads_word.spaced fun _ => reads_word.lastOr _ fun _ => reads_word.last _

theorem TypeChange.reads : Reads isBlank TypeChange.parse TypeChange.Spells :=
  (reads_keywords ["type_change", "type_member"] rfl rfl).spaced fun _ => reads_word.spaced fun _ => reads_word.spaced fun _ =>
    reads_word.spaced fun _ => reads_word.last _

theorem GenFsCon.reads : Reads isBlank GenFsCon.parse GenFsCon.Spells :=
  (reads_keyword "genfscon" rfl).spaced fun _ => reads_word.spaced fun _ => reads_word.spaced fun _ => reads_word.last _

/-! ### One kind of statement at most -/

/-- The keywords of each kind of statement, in the order of `PolicyStatement.parsers`. -/
def statementKeywords : List (List String) :=
  [["allow", "deny", "auditallow", "dontaudit"], ["allowxperm", "auditallowxperm", "dontauditxperm"],
    ["permissive", "enforce"], ["type"], ["typeattribute", "attradd"], ["attribute"],
    ["type_transition", "name_transition"], ["type_change", "type_member"], ["genfscon"]]

/-- What the parser accepts begins with one of the keywords and a blank. -/
def Headed (ks : List String) (p : Parser Char PolicyStatement) : Prop :=
  ∀ input r, p.run input = some r → ∃ k ∈ ks, input.takeWhile (fun c => !isBlank c) = k.toList

theorem headed_of_reads {ks : List String} (hsolid : solids ks = true) {p : Parser Char α}
    {M : String → Str → Str → α → Prop} (hp : Reads isBlank p (Then (OneOf ks) M)) (f : α → PolicyStatement) :
    Headed ks (f <$> p) := by
  intro input r hrun
  obtain ⟨a, hrun, -⟩ := run_map.mp (show (f <$> p).run input = some (r.1, r.2) from hrun)
  obtain ⟨s, rfl, s₁, op, b, s₂, rfl, ⟨hop, rfl⟩, hb, -⟩ := (hp.run_iff _ _ _).mp hrun
  refine ⟨op, hop, ?_⟩
  have hsolidOp := (solid_of_solids hsolid hop).2
  cases b with
  | nil => exact absurd rfl hb.1
  | cons c b =>
    rw [List.append_assoc, List.append_assoc, List.takeWhile_append_of_pos fun c hc => by simp [hsolidOp c hc],
      List.cons_append, List.takeWhile_cons_of_neg (by simp [hb.2 c List.mem_cons_self]), List.append_nil]

theorem parsers_headed : List.Forall₂ Headed statementKeywords PolicyStatement.parsers :=
  .cons (headed_of_reads rfl NormalPerm.reads _) <| .cons (headed_of_reads rfl XPerm.reads _) <|
    .cons (headed_of_reads rfl TypeState.reads _) <| .cons (headed_of_reads rfl TypeDecl.reads _) <|
    .cons (headed_of_reads rfl TypeAttr.reads _) <| .cons (headed_of_reads rfl Attr.reads _) <|
    .cons (headed_of_reads rfl TypeTransition.reads _) <| .cons (headed_of_reads rfl TypeChange.reads _) <|
    .cons (headed_of_reads rfl GenFsCon.reads _) .nil

theorem exclusive_of_headed {kss : List (List String)} {ps : List (Parser Char PolicyStatement)}
    (h : List.Forall₂ Headed kss ps) (hdisjoint : kss.Pairwise List.Disjoint) (input : Str) :
    ps.Pairwise fun p q => (p.run input).isSome → (q.run input).isSome → False := by
  induction h with
  | nil => exact .nil
  | @cons ks p kss ps hp hps ih =>
    obtain ⟨hfirst, hrest⟩ := List.pairwise_cons.mp hdisjoint
    refine .cons (fun q hq hrun hrun' => ?_) (ih hrest)
    obtain ⟨i, hi, rfl⟩ := List.getElem_of_mem hq
    have hi' : i < kss.length := hps.length_eq ▸ hi
    have hheaded : Headed kss[i] ps[i] := hps.get hi' hi
    obtain ⟨r, hr⟩ := Option.isSome_iff_exists.mp hrun
    obtain ⟨r', hr'⟩ := Option.isSome_iff_exists.mp hrun'
    obtain ⟨k, hk, hword⟩ := hp input r hr
    obtain ⟨k', hk', hword'⟩ := hheaded input r' hr'
    obtain rfl : k = k' := String.toList_inj.mp (hword.symm.trans hword')
    exact hfirst kss[i] (List.getElem_mem hi') hk hk'

theorem alt_headed {input : Str} {r : PolicyStatement × Str} (h : (alt PolicyStatement.parsers).run input = some r) :
    ∃ ks ∈ statementKeywords, ∃ k ∈ ks, input.takeWhile (fun c => !isBlank c) = k.toList := by
  obtain ⟨p, hp, hrun⟩ := List.exists_of_findSome?_eq_some h
  obtain ⟨i, hi, rfl⟩ := List.getElem_of_mem hp
  have hi' : i < statementKeywords.length := parsers_headed.length_eq ▸ hi
  have hheaded : Headed statementKeywords[i] PolicyStatement.parsers[i] := parsers_headed.get hi' hi
  exact ⟨statementKeywords[i], List.getElem_mem hi', hheaded input r hrun⟩

theorem statementKeywords_disjoint : statementKeywords.Pairwise List.Disjoint :=
  (List.nodup_flatten.mp (by decide : statementKeywords.flatten.Nodup)).2

/-- **The statement parsers read the grammar.** -/
theorem PolicyStatement.alt_run_iff {input rest : Str} {st : PolicyStatement} :
    (alt PolicyStatement.parsers).run input = some (st, rest) ↔ ∃ s, input = s ++ rest ∧ st.Spells s rest := by
  rw [alt_run (exclusive_of_headed parsers_headed statementKeywords_disjoint input)]
  simp only [PolicyStatement.parsers, List.exists_mem_cons_iff, List.not_mem_nil, false_and, exists_false, or_false,
    run_map, NormalPerm.reads.run_iff, XPerm.reads.run_iff, TypeState.reads.run_iff, TypeDecl.reads.run_iff,
    TypeAttr.reads.run_iff, Attr.reads.run_iff, TypeTransition.reads.run_iff, TypeChange.reads.run_iff,
    GenFsCon.reads.run_iff]
  cases st with
  | normalPerm perm => simp [PolicyStatement.Spells]
  | xPerm perm => simp [PolicyStatement.Spells]
  | typeState perm => simp [PolicyStatement.Spells]
  | type perm => simp [PolicyStatement.Spells]
  | typeAttr perm => simp [PolicyStatement.Spells]
  | attr perm => simp [PolicyStatement.Spells]
  | typeTransition perm => simp [PolicyStatement.Spells]
  | typeChange perm => simp [PolicyStatement.Spells]
  | genFsCon perm => simp [PolicyStatement.Spells]

/-- **What `PolicyStatement::parse` accepts.** -/
theorem PolicyStatement.parse_iff {input : Str} {st : PolicyStatement} (hinput : Stops isBlank input) :
    (PolicyStatement.parse.run input).map Prod.fst = some st ↔ ∃ s rest, input = s ++ rest ∧ st.Spells s rest := by
  have hdrop : input.dropWhile isBlank = input := by
    cases input with
    | nil => rfl
    | cons c input => exact List.dropWhile_cons_of_neg (Bool.not_eq_true _ ▸ stops_cons.mp hinput)
  have hparse : (∃ rest, PolicyStatement.parse.run input = some (st, rest)) ↔
      ∃ rest, (alt PolicyStatement.parsers).run input = some (st, rest) := by
    constructor
    · rintro ⟨rest, hrun⟩
      obtain ⟨b, mid, hspace, hrun⟩ := run_bind.mp hrun
      obtain ⟨-, rfl⟩ := Prod.mk.inj (Option.some.inj hspace)
      obtain ⟨st', mid', halt, hrun⟩ := run_bind.mp hrun
      obtain ⟨_, _, -, hrun⟩ := run_bind.mp hrun
      obtain ⟨_, _, -, hrun⟩ := run_bind.mp hrun
      obtain ⟨_, _, -, hrun⟩ := run_bind.mp hrun
      obtain ⟨rfl, -⟩ := run_return.mp hrun
      exact ⟨mid', hdrop ▸ halt⟩
    · rintro ⟨mid, halt⟩
      refine ⟨((mid.dropWhile isBlank).dropWhile (· == ';')).dropWhile isBlank, ?_⟩
      refine run_bind.mpr ⟨_, _, rfl, run_bind.mpr ⟨st, mid, ?_, ?_⟩⟩
      · rw [hdrop]
        exact halt
      · exact run_bind.mpr ⟨_, _, rfl, run_bind.mpr ⟨_, _, rfl, run_bind.mpr ⟨_, _, rfl, rfl⟩⟩⟩
  have hmap : (PolicyStatement.parse.run input).map Prod.fst = some st ↔
      ∃ rest, PolicyStatement.parse.run input = some (st, rest) := by
    simp [Option.map_eq_some_iff]
  rw [hmap, hparse]
  simp only [PolicyStatement.alt_run_iff]
  exact exists_comm

end KernelSU.Ksud
