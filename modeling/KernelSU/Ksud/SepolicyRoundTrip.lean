import KernelSU.Ksud.SepolicyPrinted
import KernelSU.Ksud.SepolicyText

/-!
# Written statements read back

A statement that is written comes back unless a pair of braces holds more than a hundred characters; the parsers of the
other kinds never read it.  A newline inside of braces cuts the piece short before the parser sees it.

* `StatementKind.alt_run` — **PROVED**: only the parser of the keyword's kind is of interest;
* `StatementForm.roundTrip_iff` — **PROVED**: a written statement comes back exactly if its braces fit, from a text
  exactly if moreover it is one line, and never as a statement of another kind.
-/

namespace KernelSU.Ksud

open KernelSU.Lib KernelSU.Lib.Parser

/-! ### One kind -/

def StatementKind.keywords : StatementKind → List String
  | .normalPerm => ["allow", "deny", "auditallow", "dontaudit"]
  | .xPerm => ["allowxperm", "auditallowxperm", "dontauditxperm"]
  | .typeState => ["permissive", "enforce"]
  | .type => ["type"]
  | .typeAttr => ["typeattribute", "attradd"]
  | .attr => ["attribute"]
  | .typeTransition => ["type_transition", "name_transition"]
  | .typeChange => ["type_change", "type_member"]
  | .genFsCon => ["genfscon"]

/-- The kinds in the order of `PolicyStatement::parse`. -/
def statementKinds : List StatementKind :=
  [.normalPerm, .xPerm, .typeState, .type, .typeAttr, .attr, .typeTransition, .typeChange, .genFsCon]

theorem mem_statementKinds (kind : StatementKind) : kind ∈ statementKinds := by
  cases kind <;> decide

theorem parsers_eq : PolicyStatement.parsers = statementKinds.map StatementKind.parser := rfl

theorem StatementKind.headed (kind : StatementKind) : Headed kind.keywords kind.parser := by
  cases kind with
  | normalPerm => exact headed_of_reads rfl NormalPerm.reads _
  | xPerm => exact headed_of_reads rfl XPerm.reads _
  | typeState => exact headed_of_reads rfl TypeState.reads _
  | type => exact headed_of_reads rfl TypeDecl.reads _
  | typeAttr => exact headed_of_reads rfl TypeAttr.reads _
  | attr => exact headed_of_reads rfl Attr.reads _
  | typeTransition => exact headed_of_reads rfl TypeTransition.reads _
  | typeChange => exact headed_of_reads rfl TypeChange.reads _
  | genFsCon => exact headed_of_reads rfl GenFsCon.reads _

/-- A keyword belongs to one kind. -/
theorem StatementKind.eq_of_keyword {kind kind' : StatementKind} {k : String} (h : k ∈ kind.keywords)
    (h' : k ∈ kind'.keywords) : kind = kind' := by
  have hdisjoint : statementKinds.Pairwise fun a b => a.keywords.Disjoint b.keywords :=
    List.pairwise_map.mp statementKeywords_disjoint
  by_contra hne
  have : Std.Symm fun a b : StatementKind => a.keywords.Disjoint b.keywords := ⟨fun _ _ hab => hab.symm⟩
  exact hdisjoint.forall (mem_statementKinds kind) (mem_statementKinds kind') hne h h'

/-! ### Newlines in braces -/

/-- A text in which semicolons do not occur, newlines occur in braces only, and the last character is not blank. -/
structure Enclosed (s : Str) : Prop where
  nonempty : s ≠ []
  plain : ';' ∉ s
  last : ∀ c ∈ s.getLast?, isWhitespace c = false
  closed : s.count '{' = s.count '}'
  inside : ∀ pre, pre ++ ['\n'] <+: s → Open '{' '}' pre

theorem enclosed_of_plain {s : Str} (hne : s ≠ []) (h : ∀ c ∈ s, c ∉ [';', '{', '}'] ∧ isWhitespace c = false) :
    Enclosed s := by
  have hnot : ∀ c ∈ [';', '{', '}'], c ∉ s := fun c hc hmem => (h c hmem).1 hc
  refine ⟨hne, hnot ';' (by simp), fun c hc => (h c (List.mem_of_getLast? hc)).2, ?_, fun pre hpre => ?_⟩
  · rw [List.count_eq_zero_of_not_mem (hnot '{' (by simp)), List.count_eq_zero_of_not_mem (hnot '}' (by simp))]
  · have hnewline : '\n' ∈ s := hpre.subset (by simp)
    exact absurd (h _ hnewline).2 (by decide)

theorem NameText.enclosed (w : NameText) : Enclosed w.1 := by
  refine enclosed_of_plain w.2.1 fun c hc => ⟨fun hmem => ?_, isWhitespace_of_isSepolicyChar (w.2.2 c hc)⟩
  have hnot : ([';', '{', '}'].all fun c => !isSepolicyChar c) = true := by decide
  have hchar := List.all_eq_true.mp hnot c hmem
  rw [w.2.2 c hc] at hchar
  exact absurd hchar (by decide)

theorem BraceForm.enclosed (f : BraceForm) : Enclosed ('{' :: f.inner ++ ['}']) := by
  obtain ⟨hopen, hclose⟩ := f.not_mem_inner
  have hsemi : ';' ∉ f.inner := KernelSU.Ksud.not_mem_inner (by decide) (by decide) f.inner_chars
  refine ⟨by simp, by simp [hsemi], ?_, ?_, fun pre hpre => ?_⟩
  · intro c hc
    rw [List.getLast?_append] at hc
    obtain rfl : '}' = c := by simpa using hc
    decide
  · simp [List.count_append, List.count_eq_zero_of_not_mem hopen, List.count_eq_zero_of_not_mem hclose]
  · rcases concat_prefix_append_or hpre with hbraces | ⟨z, -, hz⟩
    · cases pre with
      | nil =>
        obtain ⟨tail, htail⟩ := hbraces
        exact absurd (List.cons_eq_cons.mp htail).1 (by decide)
      | cons c pre =>
        -- the brace is open where the newline stands
        obtain ⟨rfl, hinner⟩ := List.cons_prefix_cons.mp hbraces
        have hnot : '}' ∉ pre := fun hmem => hclose (hinner.subset (List.mem_append_left _ hmem))
        rw [Open, List.count_cons, List.count_cons, List.count_eq_zero_of_not_mem hnot]
        simp
    · have hnewline : '\n' ∈ ['}'] := hz.subset (by simp)
      exact absurd hnewline (by decide)

theorem ObjectForm.enclosed : ∀ o : ObjectForm, Enclosed o.text
  | .single w => NameText.enclosed w
  | .braces f => f.enclosed

theorem ObjectOrStarForm.enclosed : ∀ o : ObjectOrStarForm, Enclosed o.text
  | .object o => o.enclosed
  | .star => enclosed_of_plain (List.cons_ne_nil _ _) fun c hc => by
    obtain rfl := List.mem_singleton.mp hc
    decide

theorem keyword_enclosed {kind : StatementKind} {k : String} (hk : k ∈ kind.keywords) : Enclosed k.toList := by
  have hall : (kind.keywords.all fun k => !k.toList.isEmpty && k.toList.all isSepolicyChar) = true := by
    cases kind <;> decide
  have hchars := List.all_eq_true.mp hall k hk
  rw [Bool.and_eq_true, Bool.not_eq_true', List.isEmpty_eq_false_iff] at hchars
  exact NameText.enclosed ⟨k.toList, hchars.1, List.all_eq_true.mp hchars.2⟩

/-- Objects behind their blanks. -/
theorem Enclosed.append {s b t : Str} (hs : Enclosed s) (hb : Run isBlank b) (ht : Enclosed t) :
    Enclosed (s ++ b ++ t) := by
  have hblank : ∀ c, isBlank c = false → c ∉ b := by
    intro c hc hmem
    exact Bool.false_ne_true (hc.symm.trans (hb.2 c hmem))
  have hbclosed : b.count '{' = b.count '}' := by
    rw [List.count_eq_zero_of_not_mem (hblank '{' rfl), List.count_eq_zero_of_not_mem (hblank '}' rfl)]
  refine ⟨by simp [hs.nonempty], ?_, ?_, ?_, fun pre hpre => ?_⟩
  · simp [hs.plain, ht.plain, hblank ';' rfl]
  · intro c hc
    rw [List.getLast?_append_of_ne_nil _ ht.nonempty] at hc
    exact ht.last c hc
  · rw [List.count_append, List.count_append, List.count_append, List.count_append, hs.closed, ht.closed, hbclosed]
  · rw [List.append_assoc] at hpre
    rcases concat_prefix_append_or hpre with hpre | ⟨mid, rfl, hmid⟩
    · exact hs.inside pre hpre
    rw [open_append hs.closed]
    rcases concat_prefix_append_or hmid with hmid | ⟨last, rfl, hlast⟩
    · exact absurd (hmid.subset (by simp)) (hblank '\n' rfl)
    · rw [open_append hbclosed]
      exact ht.inside last hlast

theorem written_enclosed {s : Str} {objs : List (Str × Str)} (hs : Enclosed s)
    (hobjs : ∀ o ∈ objs, Run isBlank o.1 ∧ Enclosed o.2) : Enclosed (written s objs) := by
  induction objs generalizing s with
  | nil => exact hs
  | cons o objs ih =>
    obtain ⟨⟨hb, ht⟩, hobjs⟩ := List.forall_mem_cons.mp hobjs
    exact hs.append hb (ih ht hobjs)

/-! ### First words -/

/-- The characters up to the first blank. -/
abbrev firstWord (input : Str) : Str := input.takeWhile fun c => !isBlank c

/-- **Only the keyword's own parser reads.** -/
theorem StatementKind.alt_run {kind : StatementKind} {k : String} (hk : k ∈ kind.keywords) {input : Str}
    (hword : firstWord input = k.toList) :
    (alt PolicyStatement.parsers).run input = kind.parser.run input := by
  refine Option.ext fun v => ?_
  rw [Parser.alt_run (exclusive_of_headed parsers_headed statementKeywords_disjoint input), parsers_eq]
  constructor
  · rintro ⟨p, hp, hrun⟩
    obtain ⟨kind', -, rfl⟩ := List.mem_map.mp hp
    obtain ⟨k', hk', hword'⟩ := kind'.headed input v hrun
    obtain rfl : k = k' := String.toList_inj.mp (hword.symm.trans hword')
    obtain rfl := StatementKind.eq_of_keyword hk hk'
    exact hrun
  · intro hrun
    exact ⟨kind.parser, List.mem_map_of_mem (mem_statementKinds kind), hrun⟩

theorem firstWord_append {k b : Str} (hk : ∀ c ∈ k, isBlank c = false) (hb : Run isBlank b) (rest : Str) :
    firstWord (k ++ (b ++ rest)) = k := by
  cases b with
  | nil => exact absurd rfl hb.1
  | cons c b =>
    rw [firstWord, List.takeWhile_append_of_pos fun c hc => by simp [hk c hc], List.cons_append,
      List.takeWhile_cons_of_neg (by simp [hb.2 c List.mem_cons_self]), List.append_nil]

/-- A written statement is a keyword of its kind and the objects behind their blanks. -/
theorem StatementForm.text_written (f : StatementForm) :
    ∃ k ∈ f.statement.kind.keywords, ∃ b t objs, f.text = written k.toList ((b, t) :: objs) ∧
      ∀ o ∈ (b, t) :: objs, Run isBlank o.1 ∧ Enclosed o.2 := by
  have hname : ∀ o : Blanks × NameText, Run isBlank o.1.1 ∧ Enclosed o.2.1 :=
    fun o => ⟨o.1.2, NameText.enclosed o.2⟩
  have hobject : ∀ o : Blanks × ObjectForm, Run isBlank o.1.1 ∧ Enclosed o.2.text := fun o => ⟨o.1.2, o.2.enclosed⟩
  have hstar : ∀ o : Blanks × ObjectOrStarForm, Run isBlank o.1.1 ∧ Enclosed o.2.text := fun o => ⟨o.1.2, o.2.enclosed⟩
  cases f with
  | normalPerm op source target tclass perm => exact ⟨op.1, op.2, _, _, _, rfl, by simp [hstar]⟩
  | xPerm op source target tclass operation permSet => exact ⟨op.1, op.2, _, _, _, rfl, by simp [hstar, hname]⟩
  | typeState op stype => exact ⟨op.1, op.2, _, _, _, rfl, by simp [hobject]⟩
  | type name attrs =>
    cases attrs with
    | none => exact ⟨"type", List.mem_singleton_self _, _, _, _, rfl, by simp [hname]⟩
    | some attrs => exact ⟨"type", List.mem_singleton_self _, _, _, _, rfl, by simp [hname, hobject]⟩
  | typeAttr op stype sattr => exact ⟨op.1, op.2, _, _, _, rfl, by simp [hobject]⟩
  | attr name => exact ⟨"attribute", List.mem_singleton_self _, _, _, _, rfl, by simp [hname]⟩
  | typeTransition op source target tclass defaultType objectName =>
    cases objectName with
    | none => exact ⟨op.1, op.2, _, _, _, rfl, by simp [hname]⟩
    | some objectName => exact ⟨op.1, op.2, _, _, _, rfl, by simp [hname]⟩
  | typeChange op source target tclass defaultType => exact ⟨op.1, op.2, _, _, _, rfl, by simp [hname]⟩
  | genFsCon fsName partialPath fsContext =>
    exact ⟨"genfscon", List.mem_singleton_self _, _, _, _, rfl, by simp [hname]⟩

theorem StatementKind.keywords_solid (kind : StatementKind) : solids kind.keywords = true := by
  cases kind <;> rfl

theorem StatementKind.keywords_braceless (kind : StatementKind) : braceless kind.keywords = true := by
  cases kind <;> rfl

/-- So does a beginning of it that ends inside of braces. -/
theorem StatementForm.alt_run_prefix (f : StatementForm) {z : Str} (hz : z <+: f.text)
    (hlong : z = f.text ∨ Open '{' '}' z) :
    (alt PolicyStatement.parsers).run z = f.statement.kind.parser.run z := by
  obtain ⟨k, hk, b, t, objs, htext, hobjs⟩ := f.text_written
  have hb := (hobjs _ List.mem_cons_self).1
  rw [written, List.append_assoc] at htext
  have hblank := (solid_of_solids (f.statement.kind.keywords_solid) hk).2
  have hwhole : ∃ tail, z = k.toList ++ (b ++ tail) := by
    rcases hlong with rfl | hopen
    · exact ⟨_, htext⟩
    rw [htext] at hz
    rcases prefix_append_or hz with hz | ⟨z', rfl, hz'⟩
    · have hbrace := (not_mem_of_braceless f.statement.kind.keywords_braceless hk).1
      exact absurd hopen (not_open_of_not_mem fun hmem => hbrace (hz.subset hmem))
    rcases prefix_append_or hz' with hz' | ⟨z'', rfl, -⟩
    · refine absurd hopen (not_open_of_not_mem fun hmem => ?_)
      rcases List.mem_append.mp hmem with hmem | hmem
      · exact (not_mem_of_braceless f.statement.kind.keywords_braceless hk).1 hmem
      · exact absurd (hb.2 _ (hz'.subset hmem)) (by decide)
    · exact ⟨z'', rfl⟩
  obtain ⟨tail, rfl⟩ := hwhole
  exact StatementKind.alt_run hk (firstWord_append hblank hb tail)

/-! ### `PolicyStatement::parse` -/

theorem dropWhile_of_stops {q : Char → Bool} {input : Str} (h : Stops q input) : input.dropWhile q = input := by
  cases input with
  | nil => rfl
  | cons c input => exact List.dropWhile_cons_of_neg (Bool.not_eq_true _ ▸ stops_cons.mp h)

theorem space0_run {input : Str} (h : Stops isBlank input) : ∃ b, space0.run input = some (b, input) :=
  ⟨input.takeWhile isBlank, congrArg (fun rest => some (input.takeWhile isBlank, rest)) (dropWhile_of_stops h)⟩

theorem parse_run_none {input : Str} (h : Stops isBlank input) (halt : (alt PolicyStatement.parsers).run input = none) :
    PolicyStatement.parse.run input = none := by
  obtain ⟨b, hspace⟩ := space0_run h
  rw [PolicyStatement.parse, bind_run_some hspace]
  exact bind_run_none halt

theorem parse_run_some {input : Str} {st : PolicyStatement} (h : Stops isBlank input)
    (halt : (alt PolicyStatement.parsers).run input = some (st, [])) :
    PolicyStatement.parse.run input = some (st, []) := by
  obtain ⟨b, hspace⟩ := space0_run h
  rw [PolicyStatement.parse, bind_run_some hspace, bind_run_some halt]
  rfl

/-- **What `PolicyStatement::parse` makes of a written statement.** -/
theorem StatementForm.parse_run_iff (f : StatementForm) {v : PolicyStatement × Str} :
    PolicyStatement.parse.run f.text = some v ↔ f.Fits ∧ v = (f.statement, []) := by
  have hown : _ ↔ f.Fits ∧ v = (f.statement, ([] : Str)) := f.printed.run_iff rfl
  have halt := f.alt_run_prefix (List.prefix_refl f.text) (Or.inl rfl)
  rw [List.append_nil, ← halt] at hown
  rw [← hown]
  by_cases hfits : f.Fits
  · have hsome := f.printed.fit hfits [] rfl
    rw [List.append_nil, ← halt] at hsome
    rw [hsome, parse_run_some f.printed.solid.2 hsome]
  · have hnone := f.printed.misfit hfits []
    rw [List.append_nil, ← halt] at hnone
    rw [hnone, parse_run_none f.printed.solid.2 hnone]

/-- A beginning that ends inside of braces is no statement. -/
theorem StatementForm.parse_run_cut (f : StatementForm) {z : Str} (hz : z <+: f.text) (hopen : Open '{' '}' z) :
    PolicyStatement.parse.run z = none := by
  refine parse_run_none (stops_of_start hz f.printed.solid.2) ?_
  rw [f.alt_run_prefix hz (Or.inr hopen)]
  exact f.printed.cut z hz hopen

/-- **A written statement has newlines in braces only.** -/
theorem StatementForm.enclosed (f : StatementForm) : Enclosed f.text := by
  obtain ⟨k, hk, b, t, objs, htext, hobjs⟩ := f.text_written
  rw [htext]
  exact written_enclosed (keyword_enclosed hk) hobjs

/-! ### Texts -/

/-- Its first character is a letter. -/
theorem StatementForm.head_isSepolicyChar (f : StatementForm) : ∃ c ∈ f.text.head?, isSepolicyChar c = true := by
  obtain ⟨k, hk, b, t, objs, htext, -⟩ := f.text_written
  have hhead : (f.statement.kind.keywords.all fun k => k.toList.head?.any isSepolicyChar) = true := by
    cases f.statement.kind <;> decide
  have hfirst := List.all_eq_true.mp hhead k hk
  rw [htext, written, List.append_assoc, List.head?_append]
  cases hchar : k.toList.head? with
  | none => simp [hchar] at hfirst
  | some c =>
    rw [hchar] at hfirst
    exact ⟨c, rfl, by simpa using hfirst⟩

/-- A beginning of a statement loses blanks at its end only. -/
theorem StatementForm.trim_prefix (f : StatementForm) {z : Str} (hz : z <+: f.text) :
    trim z = z.rdropWhile isWhitespace := by
  have hstops : Stops isWhitespace f.text := by
    obtain ⟨c, hc, hchar⟩ := f.head_isSepolicyChar
    intro c' hc'
    obtain rfl : c = c' := Option.mem_unique hc hc'
    exact isWhitespace_of_isSepolicyChar hchar
  rw [trim, dropWhile_of_stops (stops_of_start hz hstops)]

theorem StatementForm.trim_text (f : StatementForm) : trim f.text = f.text := by
  rw [f.trim_prefix (List.prefix_refl _), List.rdropWhile_eq_self_iff]
  intro hne
  rw [f.enclosed.last _ (List.getLast?_eq_some_getLast hne)]
  exact Bool.false_ne_true

/-- A beginning that ends inside of braces does so without its last blanks. -/
theorem open_rdropWhile {z : Str} (h : Open '{' '}' z) : Open '{' '}' (z.rdropWhile isWhitespace) := by
  have hparts := List.rdropWhile_append_rtakeWhile (p := isWhitespace) (l := z)
  have hnot : ∀ c, isWhitespace c = false → c ∉ z.rtakeWhile isWhitespace := by
    intro c hc hmem
    exact Bool.false_ne_true (hc.symm.trans (List.mem_rtakeWhile_imp hmem))
  rw [← hparts, Open, List.count_append, List.count_append, List.count_eq_zero_of_not_mem (hnot '}' (by decide)),
    List.count_eq_zero_of_not_mem (hnot '{' (by decide))] at h
  exact h

/-- A statement on one line is one piece. -/
theorem StatementForm.parseSepolicy_oneLine (f : StatementForm) (hline : '\n' ∉ f.text) (strict : Bool) :
    parseSepolicy f.text strict = .ok [f.statement] ↔ f.Fits := by
  have hpieces : (f.text.splitOnP fun c => c == '\n' || c == ';') = [f.text] := by
    refine List.splitOnP_eq_singleton fun c hc => ?_
    rw [Bool.or_eq_false_iff, beq_eq_false_iff_ne, beq_eq_false_iff_ne]
    exact ⟨fun h => hline (h ▸ hc), fun h => f.enclosed.plain (h ▸ hc)⟩
  have hskip : ¬Skipped f.text := not_skipped_of_head (by rw [f.trim_text]; exact f.head_isSepolicyChar)
  have hstatement : statementOf f.text = (PolicyStatement.parse.run f.text).map Prod.fst := by
    rw [statementOf, if_neg hskip, f.trim_text]
  rw [parseSepolicy, hpieces, parseLines_ok_iff]
  by_cases hfits : f.Fits
  · have hrun := f.parse_run_iff.mpr ⟨hfits, rfl⟩
    rw [hrun] at hstatement
    simp [hstatement, hfits]
  · have hrun : PolicyStatement.parse.run f.text = none :=
      Option.eq_none_iff_forall_ne_some.mpr fun v hv => hfits (f.parse_run_iff.mp hv).1
    rw [hrun] at hstatement
    simp [hstatement, hfits]

/-- A newline in braces leaves a first piece that strict parsing refuses. -/
theorem StatementForm.parseSepolicy_newline (f : StatementForm) (hline : '\n' ∈ f.text) (sts : List PolicyStatement) :
    parseSepolicy f.text true ≠ .ok sts := by
  obtain ⟨pre, post, htext, hpre⟩ := List.eq_append_cons_of_mem hline
  have hbefore : pre <+: f.text := ⟨_, htext.symm⟩
  have hopen : Open '{' '}' pre := f.enclosed.inside pre ⟨post, by rw [htext]; simp⟩
  have htrim := f.trim_prefix hbefore
  have hcut : trim pre <+: f.text := by
    rw [htrim]
    exact (List.rdropWhile_prefix isWhitespace pre).trans hbefore
  have hcutOpen : Open '{' '}' (trim pre) := by
    rw [htrim]
    exact open_rdropWhile hopen
  have hhead : ∃ c ∈ (trim pre).head?, isSepolicyChar c = true := by
    obtain ⟨tail, htail⟩ := hcut
    obtain ⟨c, hc, hchar⟩ := f.head_isSepolicyChar
    refine ⟨c, ?_, hchar⟩
    rw [← htail] at hc
    cases hnil : trim pre with
    | nil =>
      rw [hnil] at hcutOpen
      exact absurd hcutOpen (Nat.lt_irrefl 0)
    | cons c' z =>
      rw [hnil] at hc
      exact hc
  have hnone : statementOf pre = none := by
    rw [statementOf, if_neg (not_skipped_of_head hhead), f.parse_run_cut hcut hcutOpen]
    rfl
  -- the piece up to the newline is the first one
  have hpieces : pre ∈ f.text.splitOnP fun c => c == '\n' || c == ';' := by
    rw [htext, List.splitOnP_append_cons_of_forall_mem _ _ rfl]
    · exact List.mem_cons_self
    · intro c hc
      rw [Bool.or_eq_false_iff, beq_eq_false_iff_ne, beq_eq_false_iff_ne]
      exact ⟨fun h => hpre (h ▸ hc), fun h => f.enclosed.plain (h ▸ hbefore.subset hc)⟩
  intro hok
  rw [parseSepolicy, parseLines_ok_iff] at hok
  rcases hok.2 rfl pre hpieces with hskip | hsome
  · exact not_skipped_of_head hhead hskip
  · rw [hnone] at hsome
    exact Bool.false_ne_true hsome

/-! ### The round trip -/

/-- Parsing what was written gives back the statement, and nothing of another kind. -/
structure StatementForm.RoundTrips (f : StatementForm) : Prop where
  statement : PolicyStatement.parse.run f.text = some (f.statement, [])
  kind : ∀ st rest, PolicyStatement.parse.run f.text = some (st, rest) → st.kind = f.statement.kind

/-- A text of it alone gives back the statement, strictly and loosely. -/
def StatementForm.TextRoundTrips (f : StatementForm) : Prop := ∀ strict, parseSepolicy f.text strict = .ok [f.statement]

/-- **What comes back.**  A written statement comes back exactly if no braces hold more than a hundred characters, from
a text exactly if moreover it has no newline.  It is never read as a statement of another kind. -/
theorem StatementForm.roundTrip_iff (f : StatementForm) :
    (f.RoundTrips ↔ f.Fits) ∧ (f.TextRoundTrips ↔ f.Fits ∧ '\n' ∉ f.text) ∧
      ∀ st rest, PolicyStatement.parse.run f.text = some (st, rest) → st.kind = f.statement.kind := by
  have hkind : ∀ st rest, PolicyStatement.parse.run f.text = some (st, rest) → st.kind = f.statement.kind := by
    intro st rest hrun
    obtain ⟨-, hv⟩ := f.parse_run_iff.mp hrun
    rw [(Prod.mk.inj hv).1]
  refine ⟨⟨fun h => (f.parse_run_iff.mp h.statement).1, fun h => ⟨f.parse_run_iff.mpr ⟨h, rfl⟩, hkind⟩⟩, ?_, hkind⟩
  constructor
  · intro h
    have hline : '\n' ∉ f.text := fun hmem => f.parseSepolicy_newline hmem _ (h true)
    exact ⟨(f.parseSepolicy_oneLine hline true).mp (h true), hline⟩
  · rintro ⟨hfits, hline⟩ strict
    exact (f.parseSepolicy_oneLine hline strict).mpr hfits

/-- A name as a literal. -/
def nameText (s : String) (h : (!s.toList.isEmpty && s.toList.all isSepolicyChar) = true) : NameText :=
  ⟨s.toList, by
    rw [Bool.and_eq_true, Bool.not_eq_true', List.isEmpty_eq_false_iff] at h
    exact ⟨h.1, List.all_eq_true.mp h.2⟩⟩

/-- The permissions of a rule for files. -/
def filePerms : BraceForm :=
  ⟨noWhite, nameText "create" rfl,
    [nameText "open" rfl, nameText "read" rfl, nameText "write" rfl, nameText "append" rfl, nameText "getattr" rfl,
      nameText "setattr" rfl, nameText "lock" rfl, nameText "ioctl" rfl, nameText "rename" rfl, nameText "unlink" rfl,
      nameText "link" rfl, nameText "map" rfl, nameText "execute" rfl, nameText "relabelfrom" rfl,
      nameText "relabelto" rfl].map fun w => (oneGap, w), noWhite⟩

/-- Sixteen permissions are too many for a pair of braces. -/
theorem StatementForm.roundTrip_filePerms : ¬∀ f : StatementForm, f.RoundTrips := by
  intro h
  have hrun := (h (.normalPerm ⟨"allow", List.mem_cons_self⟩ (oneBlank, .object (.single (nameText "su" rfl)))
    (oneBlank, .star) (oneBlank, .object (.single (nameText "file" rfl)))
    (oneBlank, .object (.braces filePerms)))).statement
  obtain ⟨⟨-, -, -, hperm⟩, -⟩ := (StatementForm.parse_run_iff _).mp hrun
  have hshort : filePerms.inner.length ≤ 100 := hperm
  exact absurd hshort (by decide)

end KernelSU.Ksud
