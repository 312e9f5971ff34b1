import KernelSU.Ksud.SepolicyGrammar
import Mathlib.Data.List.Flatten

/-!
# What a policy text says and what ksud reads

* `parseLines_ok_iff` — **PROVED**: the statements of a text are those of its pieces, and strict parsing wants one
  from every piece that is not skipped;
* `readsWhole_iff` — **PROVED**: the texts whose comment lines say nothing and whose other pieces are statements from
  end to end.
-/

namespace KernelSU.Ksud

open KernelSU.Lib KernelSU.Lib.Parser

/-! ### Pieces -/

/-- A piece that `parse_sepolicy` passes over. -/
abbrev Skipped (line : Str) : Prop := trim line = [] ∨ (trim line).head? = some '#'

/-- The statement of a piece. -/
def statementOf (line : Str) : Option PolicyStatement :=
  if Skipped line then none else (PolicyStatement.parse.run (trim line)).map Prod.fst

theorem parseLines_ok_iff {strict : Bool} {lines : List Str} {sts : List PolicyStatement} :
    parseLines strict lines = .ok sts ↔
      sts = lines.filterMap statementOf ∧ (strict = true → ∀ line ∈ lines, Skipped line ∨ (statementOf line).isSome) := by
  induction lines generalizing sts with
  | nil =>
    rw [parseLines, Except.ok.injEq]
    constructor
    · rintro rfl
      exact ⟨rfl, fun _ line hline => absurd hline List.not_mem_nil⟩
    · rintro ⟨rfl, -⟩
      rfl
  | cons line lines ih =>
    rw [parseLines]
    by_cases hskip : Skipped line
    · have hnone : statementOf line = none := if_pos hskip
      rw [if_pos hskip, ih]
      simp [hnone, hskip]
    · have hstatement : statementOf line = (PolicyStatement.parse.run (trim line)).map Prod.fst := if_neg hskip
      rw [if_neg hskip, ← hstatement]
      cases hline : statementOf line with
      | some statement =>
        cases hrest : parseLines strict lines with
        | ok sts' =>
          obtain ⟨rfl, hstrict⟩ := ih.mp hrest
          simp only [Except.map, Except.ok.injEq, List.filterMap_cons, hline, List.forall_mem_cons, Option.isSome_some,
            or_true, true_and]
          exact ⟨fun h => ⟨h.symm, hstrict⟩, fun h => h.1.symm⟩
        | error e =>
          simp only [Except.map, reduceCtorEq, false_iff, not_and]
          rintro - hstrict
          have hok := ih.mpr ⟨rfl, fun h line hl => hstrict h line (List.mem_cons_of_mem _ hl)⟩
          rw [hrest] at hok
          cases hok
      | none =>
        cases strict with
        | true => simp [hline, hskip]
        | false =>
          simp only [Bool.false_eq_true, if_false, false_implies, and_true, List.filterMap_cons, hline]
          rw [ih]
          simp

/-! ### Lines -/

/-- The lines of a text. -/
def linesOf (text : Str) : List Str := text.splitOn '\n'

/-- The pieces of a line between semicolons. -/
def piecesOf (line : Str) : List Str := line.splitOn ';'

/-- A line whose first character that is not blank is `#`. -/
abbrev Comment (line : Str) : Prop := (line.dropWhile isWhitespace).head? = some '#'

/-- The text without its comment lines. -/
def withoutComments (text : Str) : Str := ['\n'].intercalate ((linesOf text).filter fun line => ¬Comment line)

theorem parseSepolicy_eq (text : Str) (strict : Bool) :
    parseSepolicy text strict = parseLines strict ((linesOf text).flatMap piecesOf) := by
  rw [parseSepolicy, splitOnP_or]
  simp only [linesOf, List.splitOn_eq_splitOnP]
  rfl

theorem not_mem_of_mem_splitOn {sep : Char} {text line : Str} (h : line ∈ text.splitOn sep) : sep ∉ line := by
  rw [List.splitOn_eq_splitOnP] at h
  exact fun hsep => absurd (of_mem_splitOnP h hsep).2 (by simp)

/-- The lines that are not comments; one empty line if there is none. -/
theorem linesOf_withoutComments (text : Str) :
    (linesOf (withoutComments text)).flatMap piecesOf
      = if (linesOf text).filter (fun line => ¬Comment line) = [] then [[]]
        else ((linesOf text).filter fun line => ¬Comment line).flatMap piecesOf := by
  have hlines : ∀ line ∈ (linesOf text).filter (fun line => ¬Comment line), '\n' ∉ line :=
    fun line hline => not_mem_of_mem_splitOn (List.mem_of_mem_filter hline)
  split_ifs with hempty
  · rw [withoutComments, hempty]
    simp [linesOf, piecesOf]
  · rw [withoutComments, linesOf, List.splitOn_intercalate '\n' hlines hempty]

/-! ### Statements from end to end -/

/-- The piece is one statement. -/
def IsStatement (piece : Str) : Prop := ∃ st : PolicyStatement, st.Spells piece []

/-- The piece is a statement and at least one more character, which is no part of the statement's last object. -/
def Overlong (piece : Str) : Prop :=
  ∃ (st : PolicyStatement) (s : Str) (c : Char) (rest : Str), piece = s ++ c :: rest ∧ st.Spells s (c :: rest)

/-- The piece begins with a statement. -/
def BeginsStatement (piece : Str) : Prop := IsStatement piece ∨ Overlong piece

theorem beginsStatement_iff {piece : Str} :
    BeginsStatement piece ↔ ∃ (st : PolicyStatement) (s rest : Str), piece = s ++ rest ∧ st.Spells s rest := by
  constructor
  · rintro (⟨st, hst⟩ | ⟨st, s, c, rest, rfl, hst⟩)
    · exact ⟨st, piece, [], (List.append_nil piece).symm, hst⟩
    · exact ⟨st, s, c :: rest, rfl, hst⟩
  · rintro ⟨st, s, rest, rfl, hst⟩
    cases rest with
    | nil => exact Or.inl ⟨st, by rwa [List.append_nil]⟩
    | cons c rest => exact Or.inr ⟨st, s, c, rest, rfl, hst⟩

/-- A statement has one end only. -/
theorem not_overlong_of_isStatement {piece : Str} (h : IsStatement piece) : ¬Overlong piece := by
  rintro ⟨st', s, c, rest, rfl, hst'⟩
  obtain ⟨st, hst⟩ := h
  have hwhole := PolicyStatement.alt_run_iff.mpr ⟨s ++ c :: rest, (List.append_nil _).symm, hst⟩
  have hpart := PolicyStatement.alt_run_iff.mpr ⟨s, rfl, hst'⟩
  have hends := congrArg Prod.snd (Option.some.inj (hwhole.symm.trans hpart))
  exact absurd hends (List.cons_ne_nil c rest).symm

/-- The first characters of the keywords are letters. -/
theorem statementKeywords_head {ks : List String} {k : String} (hks : ks ∈ statementKeywords) (hk : k ∈ ks) :
    ∃ c ∈ k.toList.head?, isSepolicyChar c = true := by
  have hall : (statementKeywords.all fun ks => ks.all fun k => k.toList.head?.any isSepolicyChar) = true := by decide
  have hhead := List.all_eq_true.mp (List.all_eq_true.mp hall ks hks) k hk
  cases hfirst : k.toList.head? with
  | none => simp [hfirst] at hhead
  | some c =>
    rw [hfirst] at hhead
    exact ⟨c, rfl, by simpa using hhead⟩

theorem beginsStatement_head {piece : Str} (h : BeginsStatement piece) : ∃ c ∈ piece.head?, isSepolicyChar c = true := by
  obtain ⟨st, s, rest, hpiece, hst⟩ := beginsStatement_iff.mp h
  obtain ⟨ks, hks, k, hk, hword⟩ := alt_headed (PolicyStatement.alt_run_iff.mpr ⟨s, hpiece, hst⟩)
  obtain ⟨c, hc, hchar⟩ := statementKeywords_head hks hk
  refine ⟨c, ?_, hchar⟩
  rw [← hword] at hc
  cases piece with
  | nil => cases hc
  | cons c' piece =>
    rw [List.takeWhile_cons] at hc
    split_ifs at hc
    · exact hc
    · cases hc

/-! ### Texts -/

theorem stops_trim (line : Str) : Stops isBlank (trim line) := by
  intro c hc
  have hpre : trim line <+: line.dropWhile isWhitespace := List.rdropWhile_prefix isWhitespace _
  obtain ⟨tail, htail⟩ := hpre
  have hhead : (line.dropWhile isWhitespace).head? = some c := by
    rw [← htail, List.head?_append]
    rw [Option.mem_def] at hc
    rw [hc]
    rfl
  have hnot := List.head?_dropWhile_not isWhitespace line
  rw [hhead] at hnot
  by_contra hblank
  simp only [Bool.not_eq_false, isBlank, Bool.or_eq_true, beq_iff_eq] at hblank
  rcases hblank with rfl | rfl
  · exact absurd hnot (by decide)
  · exact absurd hnot (by decide)

theorem not_skipped_of_head {line : Str} (h : ∃ c ∈ (trim line).head?, isSepolicyChar c = true) : ¬Skipped line := by
  obtain ⟨c, hc, hchar⟩ := h
  rintro (hnil | hhash)
  · rw [hnil] at hc
    cases hc
  · obtain rfl : c = '#' := Option.some.inj ((Option.mem_def.mp hc).symm.trans hhash)
    exact absurd hchar (by decide)

theorem not_skipped_of_beginsStatement {line : Str} (h : BeginsStatement (trim line)) : ¬Skipped line :=
  not_skipped_of_head (beginsStatement_head h)

theorem statementOf_eq_some_iff {line : Str} {st : PolicyStatement} :
    statementOf line = some st ↔ ∃ s rest, trim line = s ++ rest ∧ st.Spells s rest := by
  constructor
  · intro hst
    rw [statementOf] at hst
    split_ifs at hst
    exact (PolicyStatement.parse_iff (stops_trim line)).mp hst
  · rintro ⟨s, rest, hline, hspells⟩
    have hskip := not_skipped_of_beginsStatement (beginsStatement_iff.mpr ⟨st, s, rest, hline, hspells⟩)
    rw [statementOf, if_neg hskip]
    exact (PolicyStatement.parse_iff (stops_trim line)).mpr ⟨s, rest, hline, hspells⟩

theorem statementOf_isSome_iff {line : Str} : (statementOf line).isSome ↔ BeginsStatement (trim line) := by
  simp only [beginsStatement_iff, Option.isSome_iff_exists, statementOf_eq_some_iff]

/-- What a comment line contributes, and what strict parsing wants of the other pieces. -/
structure ReadsWhole (text : Str) : Prop where
  comments : ∀ strict sts, parseSepolicy text strict = .ok sts → parseSepolicy (withoutComments text) strict = .ok sts
  whole : ∀ sts, parseSepolicy text true = .ok sts → ∀ line ∈ linesOf text, ¬Comment line →
    ∀ piece ∈ piecesOf line, trim piece ≠ [] → IsStatement (trim piece)

/-- The comment lines hide no statement behind a semicolon. -/
def CommentsHideNothing (text : Str) : Prop :=
  ∀ line ∈ linesOf text, Comment line → ∀ piece ∈ piecesOf line, ¬BeginsStatement (trim piece)

/-- The other lines have no statement that something follows and no comment behind a semicolon. -/
def NothingFollows (text : Str) : Prop :=
  ∀ line ∈ linesOf text, ¬Comment line → ∀ piece ∈ piecesOf line,
    ¬Overlong (trim piece) ∧ (trim piece).head? ≠ some '#'

/-- Some piece is no statement. -/
def HasNonStatement (text : Str) : Prop :=
  ∃ line ∈ linesOf text, ∃ piece ∈ piecesOf line, ¬Skipped piece ∧ ¬BeginsStatement (trim piece)

/-! ### Comment lines -/

/-- The statements of a line. -/
def statementsOf (line : Str) : List PolicyStatement := (piecesOf line).filterMap statementOf

theorem statementsOf_eq_nil {line : Str} :
    statementsOf line = [] ↔ ∀ piece ∈ piecesOf line, ¬BeginsStatement (trim piece) := by
  simp only [statementsOf, List.filterMap_eq_nil_iff, ← statementOf_isSome_iff, Option.not_isSome_iff_eq_none]

theorem statements_flatMap (lines : List Str) :
    (lines.flatMap piecesOf).filterMap statementOf = lines.flatMap statementsOf := by
  induction lines with
  | nil => rfl
  | cons line lines ih => rw [List.flatMap_cons, List.filterMap_append, ih, List.flatMap_cons, statementsOf]

theorem statementOf_nil : statementOf [] = none := if_pos (Or.inl rfl)

theorem statements_withoutComments (text : Str) :
    ((linesOf (withoutComments text)).flatMap piecesOf).filterMap statementOf
      = ((linesOf text).filter fun line => ¬Comment line).flatMap statementsOf := by
  rw [linesOf_withoutComments]
  split_ifs with hempty
  · rw [hempty]
    simp [statementOf_nil]
  · exact statements_flatMap _

/-- Dropping the lines that fail a test drops nothing exactly if they contribute nothing. -/
theorem flatMap_filter_eq_iff (keep : Str → Bool) (f : Str → List α) (lines : List Str) :
    (lines.filter keep).flatMap f = lines.flatMap f ↔ ∀ line ∈ lines, keep line = false → f line = [] := by
  induction lines with
  | nil => simp
  | cons line lines ih =>
    have hle : ((lines.filter keep).flatMap f).length ≤ (lines.flatMap f).length :=
      (List.filter_sublist.flatMap f).length_le
    rw [List.forall_mem_cons, ← ih, List.flatMap_cons]
    cases hkeep : keep line with
    | true => simp [hkeep]
    | false =>
      rw [List.filter_cons_of_neg (by simp [hkeep])]
      simp only [true_implies]
      constructor
      · intro h
        have hlength := congrArg List.length h
        rw [List.length_append] at hlength
        have hnil : f line = [] := List.length_eq_zero_iff.mp (by omega)
        rw [hnil, List.nil_append] at h
        exact ⟨hnil, h⟩
      · rintro ⟨hnil, h⟩
        rw [hnil, h, List.nil_append]

theorem comments_iff (text : Str) :
    (∀ strict sts, parseSepolicy text strict = .ok sts → parseSepolicy (withoutComments text) strict = .ok sts)
      ↔ CommentsHideNothing text := by
  have hhide : CommentsHideNothing text ↔
      ((linesOf text).filter fun line => ¬Comment line).flatMap statementsOf = (linesOf text).flatMap statementsOf := by
    rw [flatMap_filter_eq_iff]
    simp only [CommentsHideNothing, statementsOf_eq_nil, decide_eq_false_iff_not, not_not]
  rw [hhide]
  constructor
  · intro h
    have hall := h false _ ((parseSepolicy_eq text false).trans (parseLines_ok_iff.mpr ⟨rfl, nofun⟩))
    rw [parseSepolicy_eq, parseLines_ok_iff, statements_withoutComments, statements_flatMap] at hall
    exact hall.1.symm
  · intro hsame strict sts hparse
    rw [parseSepolicy_eq, parseLines_ok_iff, statements_flatMap] at hparse
    rw [parseSepolicy_eq, parseLines_ok_iff, statements_withoutComments, hsame]
    refine ⟨hparse.1, fun hstrict piece hpiece => ?_⟩
    rw [linesOf_withoutComments] at hpiece
    split_ifs at hpiece with hempty
    · obtain rfl := List.mem_singleton.mp hpiece
      exact Or.inl (Or.inl rfl)
    · obtain ⟨line, hline, hpiece⟩ := List.mem_flatMap.mp hpiece
      exact hparse.2 hstrict piece (List.mem_flatMap_of_mem (List.mem_of_mem_filter hline) hpiece)

/-! ### The other lines -/

theorem parseSepolicy_strict {text : Str} {sts : List PolicyStatement} (h : parseSepolicy text true = .ok sts)
    {line piece : Str} (hline : line ∈ linesOf text) (hpiece : piece ∈ piecesOf line) :
    Skipped piece ∨ BeginsStatement (trim piece) := by
  rw [parseSepolicy_eq, parseLines_ok_iff] at h
  rw [← statementOf_isSome_iff]
  exact h.2 rfl piece (List.mem_flatMap_of_mem hline hpiece)

theorem parseSepolicy_accepts {text : Str} (h : ¬HasNonStatement text) : ∃ sts, parseSepolicy text true = .ok sts := by
  refine ⟨_, (parseSepolicy_eq text true).trans (parseLines_ok_iff.mpr ⟨rfl, fun _ piece hpiece => ?_⟩)⟩
  obtain ⟨line, hline, hpiece⟩ := List.mem_flatMap.mp hpiece
  by_contra hnot
  rw [not_or, statementOf_isSome_iff] at hnot
  exact h ⟨line, hline, piece, hpiece, hnot⟩

theorem whole_iff (text : Str) :
    (∀ sts, parseSepolicy text true = .ok sts → ∀ line ∈ linesOf text, ¬Comment line →
      ∀ piece ∈ piecesOf line, trim piece ≠ [] → IsStatement (trim piece))
      ↔ HasNonStatement text ∨ NothingFollows text := by
  constructor
  · intro h
    rw [or_iff_not_imp_left]
    intro hall line hline hcomment piece hpiece
    obtain ⟨sts, hparse⟩ := parseSepolicy_accepts hall
    have hwhole := h sts hparse line hline hcomment piece hpiece
    refine ⟨fun hlong => ?_, fun hhash => ?_⟩
    · have hskip := not_skipped_of_beginsStatement (Or.inr hlong)
      exact not_overlong_of_isStatement (hwhole fun hnil => hskip (Or.inl hnil)) hlong
    · have hne : trim piece ≠ [] := by
        rintro hnil
        rw [hnil] at hhash
        cases hhash
      exact not_skipped_of_beginsStatement (Or.inl (hwhole hne)) (Or.inr hhash)
  · rintro (⟨line, hline, piece, hpiece, hskip, hbegins⟩ | hnothing) sts hparse
    · rcases parseSepolicy_strict hparse hline hpiece with h | h
      · exact absurd h hskip
      · exact absurd h hbegins
    · intro line hline hcomment piece hpiece hne
      obtain ⟨hlong, hhash⟩ := hnothing line hline hcomment piece hpiece
      rcases parseSepolicy_strict hparse hline hpiece with (h | h) | (h | h)
      · exact absurd h hne
      · exact absurd h hhash
      · exact h
      · exact absurd h hlong

/-- **When a text is read line by line, whole.**  Exactly if no comment line has, behind a semicolon, a piece that
begins with a statement, and, unless the text has a piece that is no statement, no other line has a piece in which
something follows the statement or a piece that begins with `#` behind a semicolon. -/
theorem readsWhole_iff (text : Str) :
    ReadsWhole text ↔ CommentsHideNothing text ∧ (HasNonStatement text ∨ NothingFollows text) := by
  rw [← comments_iff, ← whole_iff]
  constructor
  · rintro ⟨hcomments, hwhole⟩
    exact ⟨hcomments, hwhole⟩
  · rintro ⟨hcomments, hwhole⟩
    exact ⟨hcomments, hwhole⟩

/-- A commented statement behind a semicolon is applied, and the end of `d.e` is dropped. -/
theorem readsWhole_fails :
    ¬ReadsWhole "# off; allow a b c d".toList ∧ ¬ReadsWhole "allow a b c d.e".toList := by
  constructor
  · rintro ⟨hcomments, -⟩
    exact absurd (hcomments true [.normalPerm ⟨"allow", [['a']], [['b']], [['c']], [['d']]⟩] (by decide)) (by decide)
  · rintro ⟨-, hwhole⟩
    have hparse : parseSepolicy "allow a b c d.e".toList true
        = .ok [.normalPerm ⟨"allow", [['a']], [['b']], [['c']], [['d']]⟩] := by decide
    obtain ⟨st, hst⟩ := hwhole _ hparse "allow a b c d.e".toList (by decide) (by decide) "allow a b c d.e".toList
      (by decide) (by decide)
    have hrun := PolicyStatement.alt_run_iff.mpr ⟨_, (List.append_nil _).symm, hst⟩
    have hrest : ((alt PolicyStatement.parsers).run (trim "allow a b c d.e".toList)).map Prod.snd = some ['.', 'e'] := by
      decide
    rw [hrun] at hrest
    cases hrest

end KernelSU.Ksud
