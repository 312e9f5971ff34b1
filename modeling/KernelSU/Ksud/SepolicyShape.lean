import KernelSU.Ksud.SepolicyText
import KernelSU.Ksud.SepolicyWire
import KernelSU.Selinux.RulesShape

/-!
# The shape of what ksud's checker accepts

The parsers and the kernel each say where the wildcard may stand.

* `spells_expands` — **PROVED**: what a spelled statement expands to has the shape the kernel wants, except that a
  wildcard set of extended permissions never has it;
* `accepted_wellShaped_iff` — **PROVED**: so an accepted text is refused for its shape exactly if it has such a set.
-/

namespace KernelSU.Ksud

open KernelSU.Lib KernelSU.Lib.Parser KernelSU.Selinux

/-! ### What the kernel receives -/

/-- An object as it arrives: without bytes it is the wildcard. -/
def PolicyObject.arrives (o : PolicyObject) : Option Name := if o.bytes = [] then Option.none else some o.bytes

/-- The command that arrives for a statement. -/
def AtomicStatement.received (st : AtomicStatement) : SepolCmd :=
  (⟨st.cmd, st.subcmd⟩, (st.slots.take st.argc).map PolicyObject.arrives)

/-- The statement is not refused for its shape. -/
def Accepted (st : AtomicStatement) : Prop := WellShaped st.received.1 st.received.2

/-! ### Words and objects -/

theorem isSepolicyChar_ascii {c : Char} (h : isSepolicyChar c = true) : 0 < c.val.toNat ∧ c.val.toNat ≤ 127 := by
  change (decide ('A'.val ≤ c.val ∧ c.val ≤ 'Z'.val) || (decide ('a'.val ≤ c.val) && decide (c.val ≤ 'z'.val)) ||
    (decide ('0'.val ≤ c.val) && decide (c.val ≤ '9'.val)) || c == '_' || c == '-') = true at h
  simp only [Bool.or_eq_true, Bool.and_eq_true, decide_eq_true_eq, UInt32.le_iff_toNat_le, beq_iff_eq] at h
  rcases h with (((h | h) | h) | rfl) | rfl
  · exact ⟨Nat.lt_of_lt_of_le (by decide) h.1, h.2.trans (by decide)⟩
  · exact ⟨Nat.lt_of_lt_of_le (by decide) h.1, h.2.trans (by decide)⟩
  · exact ⟨Nat.lt_of_lt_of_le (by decide) h.1, h.2.trans (by decide)⟩
  · decide
  · decide

theorem utf8EncodeChar_word {c : Char} (h : isSepolicyChar c = true) :
    String.utf8EncodeChar c = [c.val.toUInt8] ∧ c.val.toUInt8 ≠ 0 := by
  obtain ⟨hpos, hascii⟩ := isSepolicyChar_ascii h
  refine ⟨String.utf8EncodeChar_eq_singleton (Char.utf8Size_eq_one_iff.mpr ?_), fun hzero => ?_⟩
  · exact UInt32.le_iff_toNat_le.mpr hascii
  · have hbyte := congrArg UInt8.toNat hzero
    rw [UInt32.toNat_toUInt8, UInt8.toNat_zero] at hbyte
    omega

theorem tryFrom_word {w : Str} (h : Run isSepolicyChar w) :
    PolicyObject.tryFrom w = .ok (.one (asBytes w)) ∧ asBytes w ≠ [] := by
  have hnul : 0 ∉ asBytes w := by
    intro hmem
    obtain ⟨c, hc, hbyte⟩ := List.mem_flatMap.mp hmem
    obtain ⟨hencode, hne⟩ := utf8EncodeChar_word (h.2 c hc)
    rw [hencode, List.mem_singleton] at hbyte
    exact hne hbyte.symm
  have hstar : w ≠ ['*'] := by
    rintro rfl
    exact absurd (h.2 '*' List.mem_cons_self) (by decide)
  refine ⟨by rw [PolicyObject.tryFrom, if_neg hnul, if_neg hstar], ?_⟩
  cases w with
  | nil => exact absurd rfl h.1
  | cons c w =>
    rw [asBytes, List.flatMap_cons, (utf8EncodeChar_word (h.2 c List.mem_cons_self)).1]
    exact List.cons_ne_nil _ _

theorem object_words {s rest : Str} {o : SeObject} (h : Object s rest o) :
    o ≠ [] ∧ ∀ w ∈ o, Run isSepolicyChar w := by
  cases h with
  | single hw =>
    refine ⟨List.cons_ne_nil _ _, fun w hmem => ?_⟩
    obtain rfl := List.mem_singleton.mp hmem
    obtain ⟨rfl, hrun, -⟩ := hw
    exact hrun
  | @bracket inner _ hinner =>
    refine ⟨hinner.objs, fun w hmem => ?_⟩
    obtain ⟨hsplit, hne⟩ := List.mem_filter.mp hmem
    refine ⟨by simpa using hne, fun c hc => ?_⟩
    obtain ⟨hmem, hspace⟩ := of_mem_splitOnP hsplit hc
    exact (hinner.chars c hmem).resolve_right (by rw [hspace]; exact Bool.false_ne_true)

theorem objectOrStar_words {s rest : Str} {o : SeObject} (h : ObjectOrStar s rest o) :
    o ≠ [] ∧ (o = [['*']] ∨ ∀ w ∈ o, Run isSepolicyChar w) := by
  cases h with
  | object h => exact ⟨(object_words h).1, Or.inr (object_words h).2⟩
  | star => exact ⟨List.cons_ne_nil _ _, Or.inl rfl⟩

theorem tryFrom_star : PolicyObject.tryFrom ['*'] = .ok .all := by
  decide

/-- Every word of an object is converted. -/
theorem objectOrStar_tryFrom {s rest : Str} {o : SeObject} (h : ObjectOrStar s rest o) {w : Str} (hw : w ∈ o) :
    ∃ p, PolicyObject.tryFrom w = .ok p := by
  rcases (objectOrStar_words h).2 with rfl | hwords
  · obtain rfl := List.mem_singleton.mp hw
    exact ⟨_, tryFrom_star⟩
  · exact ⟨_, (tryFrom_word (hwords w hw)).1⟩

/-! ### Expansions -/

/-- The expansion succeeds with at least one statement, and with none that fails a test. -/
def Expands (r : Except String (List AtomicStatement)) (P : AtomicStatement → Prop) : Prop :=
  ∃ sts, r = .ok sts ∧ sts ≠ [] ∧ ∀ st ∈ sts, P st

section Expansion

variable {P : AtomicStatement → Prop}

theorem expands_one {st : AtomicStatement} (h : P st) : Expands (.ok [st]) P := by
  refine ⟨[st], rfl, List.cons_ne_nil _ _, fun st' hst' => ?_⟩
  rwa [List.mem_singleton.mp hst']

theorem expands_forEach {α : Type} {xs : List α} {f : α → Except String (List AtomicStatement)} (hne : xs ≠ [])
    (h : ∀ x ∈ xs, Expands (f x) P) : Expands (forEach xs f) P := by
  induction xs with
  | nil => exact absurd rfl hne
  | cons x xs ih =>
    obtain ⟨first, hfirst, hfirstNe, hfirstAll⟩ := h x List.mem_cons_self
    cases xs with
    | nil =>
      refine ⟨first, ?_, hfirstNe, hfirstAll⟩
      simp only [forEach, hfirst]
      exact congrArg Except.ok (List.append_nil first)
    | cons y xs =>
      obtain ⟨rest, hrest, -, hrestAll⟩ := ih (List.cons_ne_nil _ _) fun z hz => h z (List.mem_cons_of_mem x hz)
      refine ⟨first ++ rest, ?_, by simp [hfirstNe], ?_⟩
      · rw [forEach, hfirst, hrest]
        rfl
      · intro st hst
        exact (List.mem_append.mp hst).elim (hfirstAll st) (hrestAll st)

/-- What a loop returns contains what each turn returns. -/
theorem mem_forEach {α : Type} {xs : List α} {f : α → Except String (List AtomicStatement)} {sts : List AtomicStatement}
    (h : forEach xs f = .ok sts) {x : α} (hx : x ∈ xs) : ∃ part, f x = .ok part ∧ part ⊆ sts := by
  induction xs generalizing sts with
  | nil => cases hx
  | cons y xs ih =>
    rw [forEach] at h
    cases hfirst : f y with
    | error e =>
      rw [hfirst] at h
      cases h
    | ok first =>
      cases hrest : forEach xs f with
      | error e =>
        rw [hfirst, hrest] at h
        cases h
      | ok rest =>
        rw [hfirst, hrest] at h
        obtain rfl : first ++ rest = sts := Except.ok.inj h
        rcases List.mem_cons.mp hx with rfl | hx
        · exact ⟨first, hfirst, List.subset_append_left first rest⟩
        · obtain ⟨part, hpart, hsub⟩ := ih hrest hx
          exact ⟨part, hpart, List.Subset.trans hsub (List.subset_append_right first rest)⟩

end Expansion

/-! ### Each kind of statement -/

theorem arrives_one {v : List UInt8} (h : v ≠ []) : (PolicyObject.one v).arrives.isSome := by
  rw [PolicyObject.arrives, if_neg (show (PolicyObject.one v).bytes ≠ [] from h)]
  rfl

section Statements

variable {s rest : Str}

theorem normalPerm_expands {perm : NormalPerm} (h : NormalPerm.Spells s rest perm) : Expands perm.tryInto Accepted := by
  obtain ⟨_, op, _, _, rfl, ⟨hop, -⟩, -, _, source, _, _, rfl, hsource, -, _, target, _, _, rfl, htarget, -, _, tclass, _,
    _, rfl, hclass, -, perms, hperm, rfl⟩ := h
  refine expands_forEach (objectOrStar_words hsource).1 fun s hs => ?_
  refine expands_forEach (objectOrStar_words htarget).1 fun t ht => ?_
  refine expands_forEach (objectOrStar_words hclass).1 fun c hc => ?_
  refine expands_forEach (objectOrStar_words hperm).1 fun p hp => ?_
  obtain ⟨s', hs'⟩ := objectOrStar_tryFrom hsource hs
  obtain ⟨t', ht'⟩ := objectOrStar_tryFrom htarget ht
  obtain ⟨c', hc'⟩ := objectOrStar_tryFrom hclass hc
  obtain ⟨p', hp'⟩ := objectOrStar_tryFrom hperm hp
  rw [hs', ht', hc', hp']
  refine expands_one (wellShaped_normalPerm.mpr ?_)
  simp only [List.mem_cons, List.not_mem_nil, or_false] at hop
  rcases hop with rfl | rfl | rfl | rfl
  · exact Or.inl rfl
  · exact Or.inr (Or.inl rfl)
  · exact Or.inr (Or.inr (Or.inl rfl))
  · exact Or.inr (Or.inr (Or.inr rfl))

/-- A set of extended permissions that is not the wildcard. -/
theorem xPerm_expands {perm : XPerm} (h : XPerm.Spells s rest perm) (hset : perm.permSet ≠ [['*']]) :
    Expands perm.tryInto Accepted := by
  obtain ⟨_, op, _, _, rfl, ⟨hop, -⟩, -, _, source, _, _, rfl, hsource, -, _, target, _, _, rfl, htarget, -, _, tclass, _,
    _, rfl, hclass, -, _, operation, _, _, rfl, ⟨rfl, hoperation, -⟩, -, permSet, hpermSet, rfl⟩ := h
  refine expands_forEach (objectOrStar_words hsource).1 fun s hs => ?_
  refine expands_forEach (objectOrStar_words htarget).1 fun t ht => ?_
  refine expands_forEach (objectOrStar_words hclass).1 fun c hc => ?_
  refine expands_forEach (objectOrStar_words hpermSet).1 fun r hr => ?_
  obtain ⟨s', hs'⟩ := objectOrStar_tryFrom hsource hs
  obtain ⟨t', ht'⟩ := objectOrStar_tryFrom htarget ht
  obtain ⟨c', hc'⟩ := objectOrStar_tryFrom hclass hc
  obtain ⟨hoperation', hoperationNe⟩ := tryFrom_word hoperation
  obtain ⟨hr', hrNe⟩ := tryFrom_word ((objectOrStar_words hpermSet).2.resolve_left hset r hr)
  rw [hs', ht', hc', hoperation', hr']
  refine expands_one (wellShaped_xperm.mpr ⟨?_, arrives_one hoperationNe, arrives_one hrNe⟩)
  simp only [List.mem_cons, List.not_mem_nil, or_false] at hop
  rcases hop with rfl | rfl | rfl
  · exact Or.inl rfl
  · exact Or.inr (Or.inl rfl)
  · exact Or.inr (Or.inr rfl)

/-- A wildcard set of extended permissions. -/
theorem xPerm_expands_star {perm : XPerm} (h : XPerm.Spells s rest perm) (hset : perm.permSet = [['*']]) :
    Expands perm.tryInto fun st => ¬Accepted st := by
  obtain ⟨_, op, _, _, rfl, ⟨hop, -⟩, -, _, source, _, _, rfl, hsource, -, _, target, _, _, rfl, htarget, -, _, tclass, _,
    _, rfl, hclass, -, _, operation, _, _, rfl, ⟨rfl, hoperation, -⟩, -, permSet, hpermSet, rfl⟩ := h
  obtain rfl : permSet = [['*']] := hset
  refine expands_forEach (objectOrStar_words hsource).1 fun s hs => ?_
  refine expands_forEach (objectOrStar_words htarget).1 fun t ht => ?_
  refine expands_forEach (objectOrStar_words hclass).1 fun c hc => ?_
  refine expands_forEach (List.cons_ne_nil _ _) fun r hr => ?_
  obtain rfl := List.mem_singleton.mp hr
  obtain ⟨s', hs'⟩ := objectOrStar_tryFrom hsource hs
  obtain ⟨t', ht'⟩ := objectOrStar_tryFrom htarget ht
  obtain ⟨c', hc'⟩ := objectOrStar_tryFrom hclass hc
  rw [hs', ht', hc', (tryFrom_word hoperation).1, tryFrom_star]
  refine expands_one fun haccepted => ?_
  exact Bool.false_ne_true (wellShaped_xperm.mp haccepted).2.2

theorem typeState_expands {perm : TypeState} (h : TypeState.Spells s rest perm) : Expands perm.tryInto Accepted := by
  obtain ⟨_, op, _, _, rfl, ⟨hop, -⟩, -, stype, hstype, rfl⟩ := h
  refine expands_forEach (object_words hstype).1 fun t ht => ?_
  obtain ⟨ht', htNe⟩ := tryFrom_word ((object_words hstype).2 t ht)
  rw [ht']
  refine expands_one (wellShaped_typeState.mpr ⟨?_, arrives_one htNe⟩)
  simp only [List.mem_cons, List.not_mem_nil, or_false] at hop
  rcases hop with rfl | rfl
  · exact Or.inl rfl
  · exact Or.inr rfl

theorem typeDecl_tryInto {name : Str} {attrs : SeObject} (hname : Run isSepolicyChar name) (hne : attrs ≠ [])
    (hattrs : ∀ attr ∈ attrs, Run isSepolicyChar attr) : Expands (TypeDecl.tryInto ⟨name, attrs⟩) Accepted := by
  refine expands_forEach hne fun attr hattr => ?_
  obtain ⟨hname', hnameNe⟩ := tryFrom_word hname
  obtain ⟨hattr', hattrNe⟩ := tryFrom_word (hattrs attr hattr)
  rw [hname', hattr']
  exact expands_one (wellShaped_type.mpr ⟨arrives_one hnameNe, arrives_one hattrNe⟩)

theorem typeDecl_expands {perm : TypeDecl} (h : TypeDecl.Spells s rest perm) : Expands perm.tryInto Accepted := by
  obtain ⟨_, _, _, _, rfl, -, -, ⟨-, name, ⟨rfl, hname, -⟩, rfl⟩ |
    ⟨_, name, _, _, rfl, ⟨rfl, hname, -⟩, -, attrs, hattrs, rfl⟩⟩ := h
  · refine typeDecl_tryInto hname (List.cons_ne_nil _ _) fun attr hattr => ?_
    obtain rfl := List.mem_singleton.mp hattr
    exact ⟨by decide, List.all_eq_true.mp (by decide)⟩
  · exact typeDecl_tryInto hname (object_words hattrs).1 (object_words hattrs).2

theorem typeAttr_expands {perm : TypeAttr} (h : TypeAttr.Spells s rest perm) : Expands perm.tryInto Accepted := by
  obtain ⟨_, _, _, _, rfl, -, -, _, stype, _, _, rfl, hstype, -, sattr, hsattr, rfl⟩ := h
  refine expands_forEach (object_words hstype).1 fun t ht => ?_
  refine expands_forEach (object_words hsattr).1 fun attr hattr => ?_
  obtain ⟨ht', htNe⟩ := tryFrom_word ((object_words hstype).2 t ht)
  obtain ⟨hattr', hattrNe⟩ := tryFrom_word ((object_words hsattr).2 attr hattr)
  rw [ht', hattr']
  exact expands_one (wellShaped_typeAttr.mpr ⟨arrives_one htNe, arrives_one hattrNe⟩)

theorem attr_expands {perm : Attr} (h : Attr.Spells s rest perm) : Expands perm.tryInto Accepted := by
  obtain ⟨_, _, _, _, rfl, -, -, name, ⟨rfl, hname, -⟩, rfl⟩ := h
  obtain ⟨hname', hnameNe⟩ := tryFrom_word hname
  rw [Attr.tryInto, hname']
  exact expands_one (wellShaped_attr.mpr (arrives_one hnameNe))

theorem typeTransition_expands {perm : TypeTransition} (h : TypeTransition.Spells s rest perm) :
    Expands perm.tryInto Accepted := by
  obtain ⟨_, _, _, _, rfl, -, -, _, source, _, _, rfl, ⟨rfl, hsource, -⟩, -, _, target, _, _, rfl, ⟨rfl, htarget, -⟩, -,
    _, tclass, _, _, rfl, ⟨rfl, hclass, -⟩, -, hlast⟩ := h
  obtain ⟨hsource', hsourceNe⟩ := tryFrom_word hsource
  obtain ⟨htarget', htargetNe⟩ := tryFrom_word htarget
  obtain ⟨hclass', hclassNe⟩ := tryFrom_word hclass
  rcases hlast with ⟨-, default, ⟨rfl, hdefault, -⟩, rfl⟩ |
    ⟨_, default, _, _, rfl, ⟨rfl, hdefault, -⟩, -, object, ⟨rfl, hobject, -⟩, rfl⟩
  · obtain ⟨hdefault', hdefaultNe⟩ := tryFrom_word hdefault
    rw [TypeTransition.tryInto, hsource', htarget', hclass', hdefault']
    exact expands_one (wellShaped_typeTransition.mpr
      ⟨arrives_one hsourceNe, arrives_one htargetNe, arrives_one hclassNe, arrives_one hdefaultNe⟩)
  · obtain ⟨hdefault', hdefaultNe⟩ := tryFrom_word hdefault
    rw [TypeTransition.tryInto, hsource', htarget', hclass', hdefault']
    dsimp only
    rw [(tryFrom_word hobject).1]
    exact expands_one (wellShaped_typeTransition.mpr
      ⟨arrives_one hsourceNe, arrives_one htargetNe, arrives_one hclassNe, arrives_one hdefaultNe⟩)

theorem typeChange_expands {perm : TypeChange} (h : TypeChange.Spells s rest perm) :
    Expands perm.tryInto Accepted := by
  obtain ⟨_, op, _, _, rfl, ⟨hop, -⟩, -, _, source, _, _, rfl, ⟨rfl, hsource, -⟩, -, _, target, _, _, rfl,
    ⟨rfl, htarget, -⟩, -, _, tclass, _, _, rfl, ⟨rfl, hclass, -⟩, -, default, ⟨rfl, hdefault, -⟩, rfl⟩ := h
  obtain ⟨hsource', hsourceNe⟩ := tryFrom_word hsource
  obtain ⟨htarget', htargetNe⟩ := tryFrom_word htarget
  obtain ⟨hclass', hclassNe⟩ := tryFrom_word hclass
  obtain ⟨hdefault', hdefaultNe⟩ := tryFrom_word hdefault
  rw [TypeChange.tryInto, hsource', htarget', hclass', hdefault']
  refine expands_one (wellShaped_typeChange.mpr
    ⟨?_, arrives_one hsourceNe, arrives_one htargetNe, arrives_one hclassNe, arrives_one hdefaultNe⟩)
  simp only [List.mem_cons, List.not_mem_nil, or_false] at hop
  rcases hop with rfl | rfl
  · exact Or.inl rfl
  · exact Or.inr rfl

theorem genFsCon_expands {perm : GenFsCon} (h : GenFsCon.Spells s rest perm) : Expands perm.tryInto Accepted := by
  obtain ⟨_, _, _, _, rfl, -, -, _, fs, _, _, rfl, ⟨rfl, hfs, -⟩, -, _, path, _, _, rfl, ⟨rfl, hpath, -⟩, -, context,
    ⟨rfl, hcontext, -⟩, rfl⟩ := h
  obtain ⟨hfs', hfsNe⟩ := tryFrom_word hfs
  obtain ⟨hpath', hpathNe⟩ := tryFrom_word hpath
  obtain ⟨hcontext', hcontextNe⟩ := tryFrom_word hcontext
  rw [GenFsCon.tryInto, hfs', hpath', hcontext']
  exact expands_one (wellShaped_genfscon.mpr ⟨arrives_one hfsNe, arrives_one hpathNe, arrives_one hcontextNe⟩)

end Statements

/-- An extended permission statement whose set is the wildcard. -/
def StarSet (st : PolicyStatement) : Prop := ∃ perm : XPerm, st = .xPerm perm ∧ perm.permSet = [['*']]

theorem not_starSet_xPerm {perm : XPerm} (h : ¬StarSet (.xPerm perm)) : perm.permSet ≠ [['*']] :=
  fun hset => h ⟨perm, rfl, hset⟩

/-- **What a spelled statement expands to.** -/
theorem spells_expands {s rest : Str} {st : PolicyStatement} (h : st.Spells s rest) (hset : ¬StarSet st) :
    Expands st.tryInto Accepted := by
  cases st with
  | normalPerm perm => exact normalPerm_expands h
  | xPerm perm => exact xPerm_expands h (not_starSet_xPerm hset)
  | typeState perm => exact typeState_expands h
  | type perm => exact typeDecl_expands h
  | typeAttr perm => exact typeAttr_expands h
  | attr perm => exact attr_expands h
  | typeTransition perm => exact typeTransition_expands h
  | typeChange perm => exact typeChange_expands h
  | genFsCon perm => exact genFsCon_expands h

/-! ### Accepted texts -/

/-- The piece begins with an extended permission statement whose set is spelled `*`. -/
def StarPermSet (piece : Str) : Prop :=
  ∃ (s rest : Str) (perm : XPerm), piece = s ++ rest ∧ XPerm.Spells s rest perm ∧ perm.permSet = [['*']]

section Texts

variable {text : Str} {stmts : List PolicyStatement}

theorem mem_parseSepolicy (h : parseSepolicy text true = .ok stmts) {st : PolicyStatement} :
    st ∈ stmts ↔ ∃ line ∈ linesOf text, ∃ piece ∈ piecesOf line, ∃ s rest, trim piece = s ++ rest ∧ st.Spells s rest := by
  rw [parseSepolicy_eq, parseLines_ok_iff] at h
  rw [h.1]
  simp only [List.mem_filterMap, List.mem_flatMap, statementOf_eq_some_iff]
  constructor
  · rintro ⟨piece, ⟨line, hline, hpiece⟩, hst⟩
    exact ⟨line, hline, piece, hpiece, hst⟩
  · rintro ⟨line, hline, piece, hpiece, hst⟩
    exact ⟨piece, ⟨line, hline, hpiece⟩, hst⟩

/-- **When the kernel refuses nothing for its shape.**  Every statement that an accepted text expands to reaches an
operation on the policy exactly if no piece of the text is an extended permission statement with the set `*`. -/
theorem accepted_wellShaped_iff (h : parseSepolicy text true = .ok stmts) :
    (∃ sts, flattenAtomicStatements stmts = .ok sts ∧
      ∀ st ∈ sts, WellShaped st.received.1 st.received.2 ∧ Dispatched st.received.1 st.received.2)
      ↔ ∀ line ∈ linesOf text, ∀ piece ∈ piecesOf line, ¬StarPermSet (trim piece) := by
  constructor
  · rintro ⟨sts, hflat, hall⟩ line hline piece hpiece ⟨s, rest, perm, htrim, hspells, hset⟩
    have hmem : .xPerm perm ∈ stmts := (mem_parseSepolicy h).mpr ⟨line, hline, piece, hpiece, s, rest, htrim, hspells⟩
    obtain ⟨part, hpart, hsub⟩ := mem_forEach hflat hmem
    obtain ⟨part', hpart', hne, hbad⟩ := xPerm_expands_star hspells hset
    rw [PolicyStatement.tryInto, hpart'] at hpart
    obtain rfl := Except.ok.inj hpart
    obtain ⟨st, hst⟩ := List.exists_mem_of_ne_nil part' hne
    exact hbad st hst (hall st (hsub hst)).1
  · intro hpieces
    have hexpands : ∀ st ∈ stmts, Expands st.tryInto Accepted := by
      intro st hst
      obtain ⟨line, hline, piece, hpiece, s, rest, htrim, hspells⟩ := (mem_parseSepolicy h).mp hst
      refine spells_expands hspells ?_
      rintro ⟨perm, rfl, hset⟩
      exact hpieces line hline piece hpiece ⟨s, rest, perm, htrim, hspells, hset⟩
    cases stmts with
    | nil => exact ⟨[], rfl, fun st hst => absurd hst List.not_mem_nil⟩
    | cons first others =>
      obtain ⟨sts, hflat, -, hall⟩ := expands_forEach (List.cons_ne_nil _ _) hexpands
      refine ⟨sts, hflat, fun st hst => ?_⟩
      have hshape : WellShaped st.received.1 st.received.2 := hall st hst
      exact ⟨hshape, applyOneSepolicyCmd_wellShaped hshape⟩

end Texts

/-- An ordinary rule. -/
theorem accepted_wellShaped_allow :
    (∃ sts, flattenAtomicStatements [.normalPerm ⟨"allow", [['a']], [['*']], [['c']], [['d']]⟩] = .ok sts ∧
      ∀ st ∈ sts, WellShaped st.received.1 st.received.2 ∧ Dispatched st.received.1 st.received.2)
      ↔ ∀ line ∈ linesOf "allow a * c d".toList, ∀ piece ∈ piecesOf line, ¬StarPermSet (trim piece) :=
  accepted_wellShaped_iff (by decide)

/-- What `allowxperm a b c i *` expands to. -/
def starStatement : AtomicStatement :=
  ⟨KSU_SEPOLICY_CMD_XPERM, KSU_SEPOLICY_SUBCMD_XPERM_ALLOW, .one [0x61], .one [0x62], .one [0x63], .one [0x69], .all,
    .none, .none⟩

/-- `allowxperm a b c i *` is accepted, expands, and is refused. -/
theorem accepted_refused : ∃ stmts sts, parseSepolicy "allowxperm a b c i *".toList true = .ok stmts ∧
    flattenAtomicStatements stmts = .ok sts ∧ starStatement ∈ sts ∧
    ¬WellShaped starStatement.received.1 starStatement.received.2 ∧
    applyOneSepolicyCmd starStatement.received.1 starStatement.received.2 = return Errno.EINVAL.val := by
  have hshape : ¬WellShaped starStatement.received.1 starStatement.received.2 :=
    fun h => Bool.false_ne_true (wellShaped_xperm.mp h).2.2
  exact ⟨[.xPerm ⟨"allowxperm", [['a']], [['b']], [['c']], ['i'], [['*']]⟩], [starStatement], by decide, by decide,
    List.mem_cons_self, hshape, applyOneSepolicyCmd_refused hshape⟩

end KernelSU.Ksud
