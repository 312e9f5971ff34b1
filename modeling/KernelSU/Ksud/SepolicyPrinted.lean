import KernelSU.Ksud.SepolicyPrint
import KernelSU.Lib.Text

/-!
# What the parsers make of a written statement

* `BraceForm.splitWhitespace_inner` — **PROVED**: the names in braces come apart again;
* `BraceForm.printed` — **PROVED**: braces are read exactly if at most a hundred characters stand between them;
* `StatementForm.printed` — **PROVED**: the parser of its own kind makes of a written statement what was written, or
  fails where some braces do not fit, and fails on a text that ends inside of braces.
-/

namespace KernelSU.Ksud

open KernelSU.Lib KernelSU.Lib.Parser

/-! ### Characters -/

theorem isSepolicyChar_toNat {c : Char} (h : isSepolicyChar c = true) :
    (65 ≤ c.toNat ∧ c.toNat ≤ 90) ∨ (97 ≤ c.toNat ∧ c.toNat ≤ 122) ∨ (48 ≤ c.toNat ∧ c.toNat ≤ 57) ∨ c.toNat = 95 ∨
      c.toNat = 45 := by
  change (decide ('A'.val ≤ c.val ∧ c.val ≤ 'Z'.val) || (decide ('a'.val ≤ c.val) && decide (c.val ≤ 'z'.val)) ||
    (decide ('0'.val ≤ c.val) && decide (c.val ≤ '9'.val)) || c == '_' || c == '-') = true at h
  simp only [Bool.or_eq_true, Bool.and_eq_true, decide_eq_true_eq, UInt32.le_iff_toNat_le, beq_iff_eq] at h
  rcases h with (((h | h) | h) | rfl) | rfl
  · exact Or.inl h
  · exact Or.inr (Or.inl h)
  · exact Or.inr (Or.inr (Or.inl h))
  · decide
  · decide

theorem isWhitespace_of_isSepolicyChar {c : Char} (h : isSepolicyChar c = true) : isWhitespace c = false := by
  have hrange := isSepolicyChar_toNat h
  simp only [isWhitespace, Bool.or_eq_false_iff, Bool.and_eq_false_iff, decide_eq_false_iff_not, beq_eq_false_iff_ne]
  omega

theorem splitWhitespace_eq_words (s : Str) : splitWhitespace s = words isWhitespace s := by
  refine List.filter_congr fun w _ => ?_
  cases w with
  | nil => rfl
  | cons c w => rfl

/-! ### Names in braces -/

theorem BraceForm.inner_chars (f : BraceForm) : ∀ c ∈ f.inner, isSepolicyChar c = true ∨ isWhitespace c = true := by
  intro c hc
  simp only [BraceForm.inner, List.mem_append, List.mem_flatMap] at hc
  rcases hc with ((hc | hc) | ⟨o, -, hc | hc⟩) | hc
  · exact Or.inr (f.lead.2 c hc)
  · exact Or.inl (f.first.2.2 c hc)
  · exact Or.inr (o.1.2.2 c hc)
  · exact Or.inl (o.2.2.2 c hc)
  · exact Or.inr (f.trail.2 c hc)

theorem words_names (others : List (Gap × NameText)) (first : NameText) (trail : White) :
    words isWhitespace (first.1 ++ (others.flatMap (fun o => o.1.1 ++ o.2.1) ++ trail.1))
      = first.1 :: others.map fun o => o.2.1 := by
  have hname : ∀ w : NameText, ∀ c ∈ w.1, isWhitespace c = false :=
    fun w c hc => isWhitespace_of_isSepolicyChar (w.2.2 c hc)
  induction others generalizing first with
  | nil => exact words_last (hname first) first.2.1 trail.2
  | cons o others ih =>
    rw [List.flatMap_cons, List.append_assoc, List.append_assoc,
      words_gap (hname first) first.2.1 o.1.2.2 o.1.2.1, ih o.2]
    rfl

theorem BraceForm.splitWhitespace_inner (f : BraceForm) : splitWhitespace f.inner = f.names := by
  rw [splitWhitespace_eq_words, BraceForm.inner, List.append_assoc, List.append_assoc, words_skip f.lead.2,
    words_names]
  rfl

theorem not_mem_inner {c : Char} {inner : Str} (hword : isSepolicyChar c = false) (hwhite : isWhitespace c = false)
    (h : ∀ c ∈ inner, isSepolicyChar c = true ∨ isWhitespace c = true) : c ∉ inner := by
  intro hc
  rcases h c hc with hc | hc
  · exact Bool.false_ne_true (hword.symm.trans hc)
  · exact Bool.false_ne_true (hwhite.symm.trans hc)

/-- A brace closes at the first closing brace. -/
theorem inner_unique {inner inner' rest rest' : Str} (hinner : '}' ∉ inner) (hinner' : '}' ∉ inner')
    (h : inner ++ '}' :: rest = inner' ++ '}' :: rest') : inner = inner' ∧ rest = rest' := by
  have hsplit := List.append_eq_append_iff.mp h
  rcases hsplit with ⟨mid, hmid, hrest⟩ | ⟨mid, hmid, hrest⟩
  · cases mid with
    | nil => exact ⟨by simpa using hmid.symm, by simpa using hrest⟩
    | cons c mid =>
      obtain ⟨rfl, -⟩ := List.cons_eq_cons.mp hrest
      exact absurd (hmid ▸ List.mem_append_right _ List.mem_cons_self) hinner'
  · cases mid with
    | nil => exact ⟨by simpa using hmid, by simpa using hrest.symm⟩
    | cons c mid =>
      obtain ⟨rfl, -⟩ := List.cons_eq_cons.mp hrest
      exact absurd (hmid ▸ List.mem_append_right _ List.mem_cons_self) hinner

/-! ### Objects -/

/-- A text of which the parser makes `a` before blanks or the end, if it fits. -/
abbrev Writes (p : Parser Char α) (text : Str) (a : α) (fits : Prop) : Prop :=
  Printed isBlank '{' '}' (Ends isBlank) p text a fits

theorem stops_of_ends {rest : Str} (h : Ends isBlank rest) : Stops isSepolicyChar rest := by
  intro c hc
  exact isSepolicyChar_of_isBlank (by simpa using h c hc)

theorem word_of_nameText (w : NameText) {rest : Str} (h : Ends isBlank rest) : Word w.1 rest w.1 :=
  ⟨rfl, w.2, stops_of_ends h⟩

theorem nameText_not_mem (w : NameText) {c : Char} (hc : isSepolicyChar c = false) : c ∉ w.1 :=
  fun hmem => Bool.false_ne_true (hc.symm.trans (w.2.2 c hmem))

theorem exists_ends : ∃ rest : Str, Ends isBlank rest := ⟨[], stops_nil _⟩

theorem NameText.printed (w : NameText) : Writes parseSingleWord w.1 w.1 True :=
  reads_word.printed (fun _ h => word_of_nameText w h) exists_ends (nameText_not_mem w (by decide))
    (nameText_not_mem w (by decide))

/-- An object that begins with a brace. -/
theorem object_of_brace {s rest tail : Str} {o : SeObject} (h : Object s rest o) (hs : '{' :: tail = s ++ rest) :
    ∃ inner, Bracketed inner ∧ tail = inner ++ '}' :: rest ∧ o = splitWhitespace inner := by
  cases h with
  | single hw =>
    obtain ⟨-, hrun, -⟩ := hw
    cases s with
    | nil => exact absurd rfl hrun.1
    | cons c s =>
      obtain ⟨rfl, -⟩ := List.cons_eq_cons.mp hs
      exact absurd (hrun.2 '{' List.mem_cons_self) (by decide)
  | @bracket inner _ hinner =>
    refine ⟨inner, hinner, ?_, rfl⟩
    simpa using hs

theorem BraceForm.bracketed_iff (f : BraceForm) : Bracketed f.inner ↔ f.Fits := by
  constructor
  · intro h
    exact h.short
  · intro h
    refine ⟨h, f.inner_chars, ?_⟩
    rw [f.splitWhitespace_inner]
    exact List.cons_ne_nil _ _

theorem BraceForm.not_mem_inner (f : BraceForm) : '{' ∉ f.inner ∧ '}' ∉ f.inner :=
  ⟨KernelSU.Ksud.not_mem_inner (by decide) (by decide) f.inner_chars,
    KernelSU.Ksud.not_mem_inner (by decide) (by decide) f.inner_chars⟩

theorem BraceForm.printed (f : BraceForm) :
    Writes parseSeobjNoStar ('{' :: f.inner ++ ['}']) f.names f.Fits := by
  obtain ⟨hopen, hclose⟩ := f.not_mem_inner
  have hcount : ('{' :: f.inner ++ ['}']).count '{' = 1 := by
    simp [List.count_append, List.count_eq_zero_of_not_mem hopen]
  refine ⟨fun hfits rest _ => ?_, fun hfits rest => ?_, fun z hz hcut => ?_, ⟨by simp, by simp [isBlank]⟩, ?_⟩
  · refine parseSeobjNoStar_run.mpr ⟨_, rfl, ?_⟩
    rw [← f.splitWhitespace_inner]
    exact .bracket (f.bracketed_iff.mpr hfits)
  · refine Option.eq_none_iff_forall_ne_some.mpr fun v hv => hfits ?_
    obtain ⟨s, hs, hobject⟩ := parseSeobjNoStar_run.mp (show _ = some (v.1, v.2) from hv)
    have hbrace : '{' :: (f.inner ++ '}' :: rest) = s ++ v.2 := by simpa using hs
    obtain ⟨inner, hinner, htail, -⟩ := object_of_brace hobject hbrace
    have hinnerClose : '}' ∉ inner := KernelSU.Ksud.not_mem_inner (by decide) (by decide) hinner.chars
    obtain ⟨hsame, -⟩ := inner_unique hclose hinnerClose htail
    exact f.bracketed_iff.mp (hsame ▸ hinner)
  · -- a cut begins with the brace and has no other one
    refine Option.eq_none_iff_forall_ne_some.mpr fun v hv => ?_
    obtain ⟨s, hs, hobject⟩ := parseSeobjNoStar_run.mp (show _ = some (v.1, v.2) from hv)
    have hone : z.count '{' ≤ 1 := hcount ▸ hz.sublist.count_le '{'
    cases z with
    | nil => exact absurd hcut (Nat.lt_irrefl 0)
    | cons c z =>
      obtain ⟨tail, htail⟩ := hz
      obtain ⟨rfl, -⟩ := List.cons_eq_cons.mp htail
      obtain ⟨inner, -, rfl, -⟩ := object_of_brace hobject hs
      have hmem : '}' ∈ '{' :: (inner ++ '}' :: v.2) := by simp
      have hpos := List.count_pos_iff.mpr hmem
      have hlt : ('{' :: (inner ++ '}' :: v.2)).count '}' < ('{' :: (inner ++ '}' :: v.2)).count '{' := hcut
      omega
  · rw [hcount]
    simp [List.count_append, List.count_eq_zero_of_not_mem hclose]

theorem ObjectForm.printed : ∀ o : ObjectForm, Writes parseSeobjNoStar o.text o.names o.Fits
  | .single w => by
    have hreads : ∀ rest, Ends isBlank rest → Object w.1 rest [w.1] :=
      fun _ h => .single (word_of_nameText w h)
    exact reads_objectNoStar.printed hreads exists_ends (nameText_not_mem w (by decide))
      (nameText_not_mem w (by decide))
  | .braces f => f.printed

/-- The star makes a difference only where it stands. -/
theorem parseSeobj_eq {input : Str} (h : input.head? ≠ some '*') : parseSeobj.run input = parseSeobjNoStar.run input := by
  refine Option.ext fun v => ?_
  obtain ⟨o, rest⟩ := v
  rw [parseSeobj_run, parseSeobjNoStar_run]
  constructor
  · rintro ⟨s, rfl, hs⟩
    cases hs with
    | object hs => exact ⟨s, rfl, hs⟩
    | star => exact absurd rfl h
  · rintro ⟨s, rfl, hs⟩
    exact ⟨s, rfl, .object hs⟩

theorem ObjectForm.head?_ne_star (o : ObjectForm) : ∃ c tail, o.text = c :: tail ∧ c ≠ '*' := by
  cases o with
  | single w =>
    obtain ⟨w, hne, hall⟩ := w
    cases w with
    | nil => exact absurd rfl hne
    | cons c w =>
      refine ⟨c, w, rfl, ?_⟩
      rintro rfl
      exact absurd (hall '*' List.mem_cons_self) (by decide)
  | braces f => exact ⟨'{', f.inner ++ ['}'], rfl, by decide⟩

theorem ObjectOrStarForm.printed : ∀ o : ObjectOrStarForm, Writes parseSeobj o.text o.names o.Fits
  | .object o => by
    have h := o.printed
    obtain ⟨c, tail, htext, hc⟩ := o.head?_ne_star
    have hsame : ∀ rest, parseSeobj.run (o.text ++ rest) = parseSeobjNoStar.run (o.text ++ rest) := by
      intro rest
      refine parseSeobj_eq ?_
      rw [htext, List.cons_append, List.head?_cons]
      exact fun heq => hc (Option.some.inj heq)
    refine ⟨fun hfits rest hrest => ?_, fun hfits rest => ?_, fun z hz hcut => ?_, h.solid, h.closed⟩
    · exact (hsame rest).trans (h.fit hfits rest hrest)
    · exact (hsame rest).trans (h.misfit hfits rest)
    · refine (parseSeobj_eq fun hstar => hc ?_).trans (h.cut z hz hcut)
      obtain ⟨tail', htail'⟩ := hz
      cases z with
      | nil => cases hstar
      | cons c' z =>
        have hfirst := congrArg List.head? (htail'.trans htext)
        rw [List.cons_append, List.head?_cons, List.head?_cons, Option.some.injEq] at hfirst
        rw [← hfirst]
        exact Option.some.inj hstar
  | .star =>
    reads_object.printed (fun _ _ => .star) exists_ends (by decide) (by decide)

/-! ### Keywords -/

/-- No keyword has a brace. -/
def braceless (ks : List String) : Bool := ks.all fun t => t.toList.all fun c => c != '{' && c != '}'

theorem not_mem_of_braceless {ks : List String} (h : braceless ks = true) {t : String} (ht : t ∈ ks) :
    '{' ∉ t.toList ∧ '}' ∉ t.toList := by
  have hall := List.all_eq_true.mp (List.all_eq_true.mp h t ht)
  constructor
  · intro hmem
    exact absurd (hall _ hmem) (by decide)
  · intro hmem
    exact absurd (hall _ hmem) (by decide)

theorem printed_of_oneOf {ks : List String} {p : Parser Char String} (hp : Reads isBlank p (OneOf ks))
    (hbrace : braceless ks = true) (op : Keyword ks) : Writes p op.1.toList op.1 True :=
  hp.printed (fun _ _ => ⟨op.2, rfl⟩) exists_ends (not_mem_of_braceless hbrace op.2).1
    (not_mem_of_braceless hbrace op.2).2

theorem printed_keyword (t : String) (hsolid : solids [t] = true) (hbrace : braceless [t] = true) :
    Writes (keyword t) t.toList t True :=
  printed_of_oneOf (reads_keyword t hsolid) hbrace ⟨t, List.mem_singleton_self t⟩

/-! ### Statements -/

/-- The parser of a kind of statement. -/
def StatementKind.parser : StatementKind → Parser Char PolicyStatement
  | .normalPerm => .normalPerm <$> NormalPerm.parse
  | .xPerm => .xPerm <$> XPerm.parse
  | .typeState => .typeState <$> TypeState.parse
  | .type => .type <$> TypeDecl.parse
  | .typeAttr => .typeAttr <$> TypeAttr.parse
  | .attr => .attr <$> Attr.parse
  | .typeTransition => .typeTransition <$> TypeTransition.parse
  | .typeChange => .typeChange <$> TypeChange.parse
  | .genFsCon => .genFsCon <$> GenFsCon.parse

/-- What the parser of its own kind makes of a written statement. -/
abbrev StatementForm.Prints (f : StatementForm) : Prop :=
  Printed isBlank '{' '}' (· = []) f.statement.kind.parser f.text f.statement f.Fits

theorem Writes.whole {p : Parser Char α} {text : Str} {a : α} {fits : Prop} (h : Writes p text a fits) :
    Printed isBlank '{' '}' (· = []) p text a fits :=
  h.mono fun _ hnil => hnil ▸ stops_nil _

section Statements

variable {ε : List Char → Prop} {p : Parser Char α} {q : α → Parser Char β} {text text' : Str} {a : α} {v : β}
  {fits fits' : Prop}

/-- An object and the next one, behind its blanks. -/
theorem Writes.spaced (h : Writes p text a fits) (b : Blanks)
    (h' : Printed isBlank '{' '}' ε (q a) text' v fits') :
    Printed isBlank '{' '}' ε (do let a ← p; let _ ← space1; q a) (text ++ b.1 ++ text') v (fits ∧ fits') :=
  Printed.spaced h b.2 rfl rfl h'

end Statements

theorem NormalPerm.printed (op : Keyword ["allow", "deny", "auditallow", "dontaudit"])
    (source target tclass perm : Blanks × ObjectOrStarForm) :
    (StatementForm.normalPerm op source target tclass perm).Prints := by
  have hop := printed_of_oneOf (reads_keywords ["allow", "deny", "auditallow", "dontaudit"] rfl rfl) rfl op
  have h : Writes NormalPerm.parse (StatementForm.normalPerm op source target tclass perm).text
      ⟨op.1, source.2.names, target.2.names, tclass.2.names, perm.2.names⟩
      (True ∧ source.2.Fits ∧ target.2.Fits ∧ tclass.2.Fits ∧ perm.2.Fits) :=
    hop.spaced source.1 <| source.2.printed.spaced target.1 <| target.2.printed.spaced tclass.1 <|
      tclass.2.printed.spaced perm.1 <| perm.2.printed.last _
  exact (h.whole.map PolicyStatement.normalPerm).fits_congr (by simp [StatementForm.Fits])

theorem XPerm.printed (op : Keyword ["allowxperm", "auditallowxperm", "dontauditxperm"])
    (source target tclass : Blanks × ObjectOrStarForm) (operation : Blanks × NameText)
    (permSet : Blanks × ObjectOrStarForm) :
    (StatementForm.xPerm op source target tclass operation permSet).Prints := by
  have hop := printed_of_oneOf (reads_keywords ["allowxperm", "auditallowxperm", "dontauditxperm"] rfl rfl) rfl op
  have h : Writes XPerm.parse (StatementForm.xPerm op source target tclass operation permSet).text
      ⟨op.1, source.2.names, target.2.names, tclass.2.names, operation.2.1, permSet.2.names⟩
      (True ∧ source.2.Fits ∧ target.2.Fits ∧ tclass.2.Fits ∧ True ∧ permSet.2.Fits) :=
    hop.spaced source.1 <| source.2.printed.spaced target.1 <| target.2.printed.spaced tclass.1 <|
      tclass.2.printed.spaced operation.1 <| (NameText.printed operation.2).spaced permSet.1 <|
      permSet.2.printed.last _
  exact (h.whole.map PolicyStatement.xPerm).fits_congr (by simp [StatementForm.Fits])

theorem TypeState.printed (op : Keyword ["permissive", "enforce"]) (stype : Blanks × ObjectForm) :
    (StatementForm.typeState op stype).Prints := by
  have hop := printed_of_oneOf (reads_keywords ["permissive", "enforce"] rfl rfl) rfl op
  have h : Writes TypeState.parse (StatementForm.typeState op stype).text ⟨op.1, stype.2.names⟩
      (True ∧ stype.2.Fits) :=
    hop.spaced stype.1 <| stype.2.printed.last _
  exact (h.whole.map PolicyStatement.typeState).fits_congr (by simp [StatementForm.Fits])

/-- A type without attributes is written up to the end. -/
theorem TypeDecl.printed (name : Blanks × NameText) (attrs : Option (Blanks × ObjectForm)) :
    (StatementForm.type name attrs).Prints := by
  have hop := printed_keyword "type" rfl rfl
  cases attrs with
  | none =>
    have h : Printed isBlank '{' '}' (· = []) TypeDecl.parse (StatementForm.type name none).text
        ⟨name.2.1, ["domain".toList]⟩ (True ∧ True) :=
      hop.spaced name.1 <| (NameText.printed name.2).lastEnd _ _
    exact (h.map PolicyStatement.type).fits_congr (by simp [StatementForm.Fits])
  | some attrs =>
    have h : Writes TypeDecl.parse (StatementForm.type name (some attrs)).text ⟨name.2.1, attrs.2.names⟩
        (True ∧ True ∧ attrs.2.Fits) :=
      hop.spaced name.1 <| (NameText.printed name.2).lastOr _ attrs.1.2 rfl rfl <| attrs.2.printed.last _
    exact (h.whole.map PolicyStatement.type).fits_congr (by simp [StatementForm.Fits])

theorem TypeAttr.printed (op : Keyword ["typeattribute", "attradd"]) (stype sattr : Blanks × ObjectForm) :
    (StatementForm.typeAttr op stype sattr).Prints := by
  have hop := printed_of_oneOf (reads_keywords ["typeattribute", "attradd"] rfl rfl) rfl op
  have h : Writes TypeAttr.parse (StatementForm.typeAttr op stype sattr).text ⟨stype.2.names, sattr.2.names⟩
      (True ∧ stype.2.Fits ∧ sattr.2.Fits) :=
    hop.spaced stype.1 <| stype.2.printed.spaced sattr.1 <| sattr.2.printed.last _
  exact (h.whole.map PolicyStatement.typeAttr).fits_congr (by simp [StatementForm.Fits])

theorem Attr.printed (name : Blanks × NameText) : (StatementForm.attr name).Prints := by
  have h : Writes Attr.parse (StatementForm.attr name).text ⟨name.2.1⟩ (True ∧ True) :=
    (printed_keyword "attribute" rfl rfl).spaced name.1 <| (NameText.printed name.2).last _
  exact (h.whole.map PolicyStatement.attr).fits_congr (by simp [StatementForm.Fits])

/-- So is a transition without an object name. -/
theorem TypeTransition.printed (op : Keyword ["type_transition", "name_transition"])
    (source target tclass defaultType : Blanks × NameText) (objectName : Option (Blanks × NameText)) :
    (StatementForm.typeTransition op source target tclass defaultType objectName).Prints := by
  have hop := printed_of_oneOf (reads_keywords ["type_transition", "name_transition"] rfl rfl) rfl op
  cases objectName with
  | none =>
    have h : Printed isBlank '{' '}' (· = []) TypeTransition.parse
        (StatementForm.typeTransition op source target tclass defaultType none).text
        ⟨source.2.1, target.2.1, tclass.2.1, defaultType.2.1, none⟩ (True ∧ True ∧ True ∧ True ∧ True) :=
      hop.spaced source.1 <| (NameText.printed source.2).spaced target.1 <|
        (NameText.printed target.2).spaced tclass.1 <| (NameText.printed tclass.2).spaced defaultType.1 <|
        (NameText.printed defaultType.2).lastEnd _ _
    exact (h.map PolicyStatement.typeTransition).fits_congr (by simp [StatementForm.Fits])
  | some objectName =>
    have h : Writes TypeTransition.parse
        (StatementForm.typeTransition op source target tclass defaultType (some objectName)).text
        ⟨source.2.1, target.2.1, tclass.2.1, defaultType.2.1, some objectName.2.1⟩
        (True ∧ True ∧ True ∧ True ∧ True ∧ True) :=
      hop.spaced source.1 <| (NameText.printed source.2).spaced target.1 <|
        (NameText.printed target.2).spaced tclass.1 <| (NameText.printed tclass.2).spaced defaultType.1 <|
        (NameText.printed defaultType.2).lastOr _ objectName.1.2 rfl rfl <| (NameText.printed objectName.2).last _
    exact (h.whole.map PolicyStatement.typeTransition).fits_congr (by simp [StatementForm.Fits])

theorem TypeChange.printed (op : Keyword ["type_change", "type_member"])
    (source target tclass defaultType : Blanks × NameText) :
    (StatementForm.typeChange op source target tclass defaultType).Prints := by
  have hop := printed_of_oneOf (reads_keywords ["type_change", "type_member"] rfl rfl) rfl op
  have h : Writes TypeChange.parse (StatementForm.typeChange op source target tclass defaultType).text
      ⟨op.1, source.2.1, target.2.1, tclass.2.1, defaultType.2.1⟩ (True ∧ True ∧ True ∧ True ∧ True) :=
    hop.spaced source.1 <| (NameText.printed source.2).spaced target.1 <|
      (NameText.printed target.2).spaced tclass.1 <| (NameText.printed tclass.2).spaced defaultType.1 <|
      (NameText.printed defaultType.2).last _
  exact (h.whole.map PolicyStatement.typeChange).fits_congr (by simp [StatementForm.Fits])

theorem GenFsCon.printed (fsName partialPath fsContext : Blanks × NameText) :
    (StatementForm.genFsCon fsName partialPath fsContext).Prints := by
  have h : Writes GenFsCon.parse (StatementForm.genFsCon fsName partialPath fsContext).text
      ⟨fsName.2.1, partialPath.2.1, fsContext.2.1⟩ (True ∧ True ∧ True ∧ True) :=
    (printed_keyword "genfscon" rfl rfl).spaced fsName.1 <| (NameText.printed fsName.2).spaced partialPath.1 <|
      (NameText.printed partialPath.2).spaced fsContext.1 <| (NameText.printed fsContext.2).last _
  exact (h.whole.map PolicyStatement.genFsCon).fits_congr (by simp [StatementForm.Fits])

/-- **What its own parser makes of a written statement.** -/
theorem StatementForm.printed (f : StatementForm) : f.Prints := by
  cases f with
  | normalPerm op source target tclass perm => exact NormalPerm.printed op source target tclass perm
  | xPerm op source target tclass operation permSet => exact XPerm.printed op source target tclass operation permSet
  | typeState op stype => exact TypeState.printed op stype
  | type name attrs => exact TypeDecl.printed name attrs
  | typeAttr op stype sattr => exact TypeAttr.printed op stype sattr
  | attr name => exact Attr.printed name
  | typeTransition op source target tclass defaultType objectName =>
    exact TypeTransition.printed op source target tclass defaultType objectName
  | typeChange op source target tclass defaultType => exact TypeChange.printed op source target tclass defaultType
  | genFsCon fsName partialPath fsContext => exact GenFsCon.printed fsName partialPath fsContext

end KernelSU.Ksud
