import KernelSU.Selinux.AvtabLen

/-!
# What a range of ioctl numbers may be

The range of an extended-permission rule is a string: one hexadecimal number, or two with a `-` between
them.  `add_xperm_rule` scans it without looking at what the scan says, into two locals that nothing was
stored in before.

* `Denotes` — the strings that are ranges, and their bounds;
* `parseXpermRange_of_denotes` — **PROVED**: the scan of a range gives its bounds;
* `Sequential` — properties that a rule has if its table accesses do, and two of them: the locals are
  ignored, and the table comes to cover no more than the permissions do;
* `addXpermRule_validates_iff` — **PROVED**: a rule with existing names is validated iff its string is a range;
* `addXpermRule_unvalidated` — **PROVED**: a string that is none.
-/

namespace KernelSU.Selinux

open KernelSU.Lib

/-! ### Ranges -/

/-- The number that the digits spell, behind those that spell `acc`. -/
def hexDigitsFrom (acc : ℕ) : List UInt8 → ℕ
  | [] => acc
  | c :: cs => hexDigitsFrom (acc * 16 + (hexDigit c).getD 0) cs

/-- What may stand in front of the digits. -/
def IsHexPrefix (front : List UInt8) : Prop := front = [] ∨ front = [0x30, 0x78] ∨ front = [0x30, 0x58]

/-- A hexadecimal number of at most 16 bits. -/
structure HexNumber (text : Name) (value : ℕ) : Prop where
  spelled : ∃ front digits, text = front ++ digits ∧ IsHexPrefix front ∧ digits ≠ [] ∧
    (∀ c ∈ digits, (hexDigit c).isSome = true) ∧ hexDigitsFrom 0 digits = value
  fits : value ≤ 0xffff

/-- The string is a number, or two with a `-` between them in order. -/
inductive Denotes : Name → ℕ → ℕ → Prop
  | one {text : Name} {value : ℕ} (h : HexNumber text value) : Denotes text value value
  | two {left right : Name} {low high : ℕ} (hlow : HexNumber left low) (hhigh : HexNumber right high)
      (hle : low ≤ high) : Denotes (left ++ 0x2d :: right) low high

/-! ### Scanning a range -/

theorem hexDigit_isSome_iff (c : UInt8) :
    (hexDigit c).isSome = true ↔ 0x30 ≤ c ∧ c ≤ 0x39 ∨ 0x61 ≤ c ∧ c ≤ 0x66 ∨ 0x41 ≤ c ∧ c ≤ 0x46 := by
  unfold hexDigit
  split_ifs <;> simp_all

theorem isSpace_of_hexDigit {c : UInt8} (h : (hexDigit c).isSome = true) : isSpace c = false := by
  rw [hexDigit_isSome_iff] at h
  simp only [UInt8.le_iff_toNat_le] at h
  have hne : c ≠ 0x20 ∧ c ≠ 0xa0 := ⟨by rintro rfl; simp at h, by rintro rfl; simp at h⟩
  have hrange : ¬(0x09 ≤ c ∧ c ≤ 0x0d) := by
    simp only [UInt8.le_iff_toNat_le]
    simp at h ⊢
    omega
  simp only [isSpace, Bool.or_eq_false_iff, beq_eq_false_iff_ne, Bool.and_eq_false_iff, decide_eq_false_iff_not]
  exact ⟨⟨hne.1, by tauto⟩, hne.2⟩

theorem le_hexDigitsFrom (acc : ℕ) (digits : List UInt8) : acc ≤ hexDigitsFrom acc digits := by
  induction digits generalizing acc with
  | nil => exact Nat.le_refl acc
  | cons c cs ih =>
    have hstep := ih (acc * 16 + (hexDigit c).getD 0)
    rw [hexDigitsFrom]
    omega

/-- What may follow a number in a range. -/
def EndsNumber (rest : List UInt8) : Prop := rest = [] ∨ ∃ r, rest = 0x2d :: r

/-- Digits that spell a number of 64 bits are accumulated as they should be. -/
theorem scanHexDigits_append {digits rest : List UInt8} (hdigits : ∀ c ∈ digits, (hexDigit c).isSome = true)
    (hrest : EndsNumber rest) {acc : ℕ} (hfits : hexDigitsFrom acc digits < 2 ^ 64) :
    scanHexDigits acc (digits ++ rest) = (hexDigitsFrom acc digits, rest) := by
  induction digits generalizing acc with
  | nil =>
    rcases hrest with rfl | ⟨r, rfl⟩
    · rfl
    · rfl
  | cons c cs ih =>
    obtain ⟨d, hd⟩ := Option.isSome_iff_exists.mp (hdigits c List.mem_cons_self)
    have hnext : hexDigitsFrom acc (c :: cs) = hexDigitsFrom (acc * 16 + d) cs := by
      rw [hexDigitsFrom, hd, Option.getD_some]
    rw [hnext] at hfits ⊢
    have hle := le_hexDigitsFrom (acc * 16 + d) cs
    rw [List.cons_append, scanHexDigits, hd]
    dsimp only
    rw [Nat.mod_eq_of_lt (by omega)]
    exact ih (fun c hc => hdigits c (List.mem_cons_of_mem _ hc)) hfits

/-- A prefix is skipped, and only a prefix. -/
theorem skipHexPrefix_append {front digits rest : List UInt8} (hfront : IsHexPrefix front) (hne : digits ≠ [])
    (hdigits : ∀ c ∈ digits, (hexDigit c).isSome = true) (hrest : EndsNumber rest) :
    skipHexPrefix (front ++ digits ++ rest) = digits ++ rest := by
  rcases hfront with rfl | rfl | rfl
  · -- the second character of a number without a prefix is a digit or a `-`
    have hsecond : ∀ b c r, digits ++ rest = b :: c :: r → c ≠ 0x78 ∧ c ≠ 0x58 := by
      intro b c r h
      cases digits with
      | nil => exact absurd rfl hne
      | cons d ds =>
        cases ds with
        | nil =>
          rcases hrest with rfl | ⟨r', rfl⟩
          · exact absurd (congrArg List.length h) (by simp)
          · simp only [List.cons_append, List.nil_append, List.cons.injEq] at h
            rw [← h.2.1]
            decide
        | cons d' ds =>
          simp only [List.cons_append, List.cons.injEq] at h
          have hdigit := hdigits d' (by simp)
          rw [h.2.1] at hdigit
          exact ⟨by rintro rfl; exact absurd hdigit (by decide), by rintro rfl; exact absurd hdigit (by decide)⟩
    rw [List.nil_append]
    unfold skipHexPrefix
    split
    · rename_i cs h
      exact absurd rfl (hsecond _ _ _ h).1
    · rename_i cs h
      exact absurd rfl (hsecond _ _ _ h).2
    · rfl
  · rfl
  · rfl

/-- **The scan of a number** gives the number, and stops behind it. -/
theorem scanHx_append {text rest : Name} {value : ℕ} (h : HexNumber text value) (hrest : EndsNumber rest) :
    scanHx (text ++ rest) = some (value, rest) := by
  obtain ⟨⟨front, digits, rfl, hfront, hne, hdigits, hvalue⟩, hfits⟩ := h
  obtain ⟨c, cs, hhead, hc⟩ : ∃ c cs, front ++ digits ++ rest = c :: cs ∧ (hexDigit c).isSome = true := by
    rcases hfront with rfl | rfl | rfl
    · cases digits with
      | nil => exact absurd rfl hne
      | cons d ds => exact ⟨d, ds ++ rest, rfl, hdigits d List.mem_cons_self⟩
    · exact ⟨0x30, _, rfl, by decide⟩
    · exact ⟨0x30, _, rfl, by decide⟩
  have hskip := skipHexPrefix_append hfront hne hdigits hrest
  have hspace : (front ++ digits ++ rest).dropWhile isSpace = c :: cs := by
    rw [hhead, List.dropWhile_cons_of_neg (by rw [isSpace_of_hexDigit hc]; exact Bool.false_ne_true)]
  rw [hhead] at hskip
  unfold scanHx
  rw [hspace]
  dsimp only
  rw [if_pos hc, hskip, scanHexDigits_append hdigits hrest (by omega), hvalue]
  dsimp only
  rw [Nat.mod_eq_of_lt (by omega)]

theorem notMem_of_hexNumber {text : Name} {value : ℕ} (h : HexNumber text value) : 0x2d ∉ text := by
  obtain ⟨⟨front, digits, rfl, hfront, -, hdigits, -⟩, -⟩ := h
  intro hmem
  rcases List.mem_append.mp hmem with hmem | hmem
  · rcases hfront with rfl | rfl | rfl
    · exact List.not_mem_nil hmem
    · exact absurd hmem (by decide)
    · exact absurd hmem (by decide)
  · exact absurd (hdigits _ hmem) (by decide)

/-- **The scan of a range gives its bounds**, whatever the locals held before. -/
theorem parseXpermRange_of_denotes {range : Name} {low high : ℕ} (h : Denotes range low high) (u : ℕ × ℕ) :
    parseXpermRange (some range) u = (low, high) := by
  cases h with
  | one h =>
    have hscan : scanHx (range ++ []) = some (low, []) := scanHx_append h (.inl rfl)
    rw [List.append_nil] at hscan
    have hno : range.contains 0x2d = false := by
      rw [← Bool.not_eq_true, List.contains_iff_mem]
      exact notMem_of_hexNumber h
    simp only [parseXpermRange, hno, Bool.false_eq_true, if_false, hscan]
  | @two left right _ _ hlow hhigh hle =>
    have hleft : scanHx (left ++ 0x2d :: right) = some (low, 0x2d :: right) :=
      scanHx_append hlow (.inr ⟨right, rfl⟩)
    have hright : scanHx (right ++ []) = some (high, []) := scanHx_append hhigh (.inl rfl)
    rw [List.append_nil] at hright
    have hyes : (left ++ 0x2d :: right).contains 0x2d = true := by
      rw [List.contains_iff_mem]
      simp
    simp only [parseXpermRange, hyes, if_true, hleft, hright]

/-! ### Properties of the rule's calls -/

/-- A property of operations that reading and sequencing keep. -/
structure Sequential (P : ∀ {α : Type}, PolicyM α → Prop) : Prop where
  pure : ∀ {α : Type} (a : α), P (pure a : PolicyM α)
  readDb : ∀ {α : Type} (f : Policydb → α), P (readDb f)
  bind : ∀ {α β : Type} {x : PolicyM α} {f : α → PolicyM β}, P x → (∀ a, P (f a)) → P (x >>= f)

namespace Sequential

variable {P : ∀ {α : Type}, PolicyM α → Prop} (hP : Sequential P)
include hP

theorem forEachDatum {δ : Type} {f : δ → PolicyM Unit} (hf : ∀ d, P (f d)) (ds : List δ) :
    P (forEachDatum f ds) := by
  induction ds with
  | nil => exact hP.pure ()
  | cons d ds ih => exact hP.bind (hf d) fun _ => ih

/-- What every `get_avtab_node` of the rule has, the rule has. -/
theorem addXpermRuleRaw {low high : ℕ} {invert : Bool}
    (hget : ∀ key, P (getAvtabNode key (rangeXperms low high invert))) (src tgt : Option TypeDatum)
    (cls : Option ClassDatum) (effect : UInt16) : P (addXpermRuleRaw src tgt cls low high effect invert) := by
  have hleaf : ∀ s t c, P (addXpermRuleRawLeaf low high effect invert s t c) := fun s t c =>
    hP.bind (hget _) fun _ => hP.pure ()
  have hcls : ∀ s t, P (addXpermRuleRawCls cls low high effect invert s t) := by
    intro s t
    cases cls with
    | some c => exact hleaf s t c
    | none => exact hP.bind (hP.readDb _) fun ds => hP.forEachDatum (hleaf s t) ds
  have htgt : ∀ s, P (addXpermRuleRawTgt tgt cls low high effect invert s) := by
    intro s
    cases tgt with
    | some t => exact hcls s t
    | none => exact hP.bind (hP.readDb _) fun ds => hP.forEachDatum (hcls s) ds
  cases src with
  | some s => exact htgt s
  | none => exact hP.bind (hP.readDb _) fun ds => hP.forEachDatum htgt ds

end Sequential

/-! ### What the locals held before -/

/-- What the coming locals hold neither matters to the operation nor is touched by it. -/
def IgnoresUninit {α : Type} (x : PolicyM α) : Prop :=
  ∀ (m : PolicyMem) (uninit : List (ℕ × ℕ)),
    x.run { m with uninit := uninit } = ((x.run m).1, { (x.run m).2 with uninit := uninit })

theorem sequential_ignoresUninit : Sequential IgnoresUninit where
  pure _ := fun _ _ => rfl
  readDb _ := fun _ _ => rfl
  bind hx hf := by
    intro m uninit
    rw [run_bind, hx m uninit, run_bind]
    exact hf _ _ uninit

theorem ignoresUninit_kalloc : IgnoresUninit kalloc := by
  rintro ⟨db, _ | ⟨b, bs⟩, u, freed, next⟩ uninit <;> rfl

theorem ignoresUninit_modifyDb (f : Policydb → Policydb) : IgnoresUninit (modifyDb f) := fun _ _ => rfl

theorem ignoresUninit_getAvtabNode (key : AvtabKey) (x : AvtabExtendedPerms) :
    IgnoresUninit (getAvtabNode key x) := by
  have hseq := sequential_ignoresUninit
  have hinsert : ∀ grow : ℕ, IgnoresUninit (do
      let inserted := avtabInsertNonunique (← readDb (·.teAvtab)) (freshNode key x)
      modifyDb fun db =>
        { db with teAvtab := inserted.2, teAvtabNel := db.teAvtabNel + 1, len := db.len + grow }
      return some inserted.1 : PolicyM (Option ℕ)) := fun _ =>
    hseq.bind (hseq.readDb _) fun _ => hseq.bind (ignoresUninit_modifyDb _) fun _ => hseq.pure _
  refine hseq.bind (hseq.readDb _) fun nodes => ?_
  cases nodes.findIdx? (isAvtabNode key x) with
  | some i => exact hseq.pure _
  | none =>
    refine hseq.bind ignoresUninit_kalloc fun b => ?_
    cases b with
    | false => exact hseq.pure _
    | true =>
      cases key.isXperms with
      | false => exact hinsert _
      | true =>
        refine hseq.bind ignoresUninit_kalloc fun b => ?_
        cases b with
        | false => exact hseq.pure _
        | true => exact hinsert _


/-! ### What the rule covers -/

/-- The operation adds no entry that covers more than `x` does. -/
def CoversWithin (x : AvtabExtendedPerms) {α : Type} (y : PolicyM α) : Prop :=
  ∀ m, ∀ node ∈ (y.run m).2.db.teAvtab, node ∈ m.db.teAvtab ∨ ∀ n, node.covers n = true → x.covers n = true

theorem sequential_coversWithin (x : AvtabExtendedPerms) : Sequential (CoversWithin x) where
  pure _ := fun _ _ h => .inl h
  readDb _ := fun _ _ h => .inl h
  bind hx hf := by
    intro m node hnode
    rcases hf _ _ node hnode with hmid | hnew
    · exact hx m node hmid
    · exact .inr hnew

/-- `get_avtab_node` leaves the table alone, or adds a fresh node. -/
theorem getAvtabNode_teAvtab (key : AvtabKey) (x : AvtabExtendedPerms) (m : PolicyMem) :
    ((getAvtabNode key x).run m).2.db.teAvtab = m.db.teAvtab ∨
      ((getAvtabNode key x).run m).2.db.teAvtab = (avtabInsertNonunique m.db.teAvtab (freshNode key x)).2 := by
  cases hfind : m.db.teAvtab.findIdx? (isAvtabNode key x) with
  | some i => exact .inl (by simp [getAvtabNode, hfind])
  | none =>
    rcases h₁ : kalloc.run m with ⟨b₁, m₁⟩
    have hdb₁ : m₁.db = m.db := by rw [← kalloc_run_db m, h₁]
    cases b₁ with
    | false => exact .inl (by simp [getAvtabNode, hfind, h₁, hdb₁])
    | true =>
      cases hx : key.isXperms with
      | false => exact .inr (by simp [getAvtabNode, hfind, h₁, hx, hdb₁])
      | true =>
        rcases h₂ : kalloc.run m₁ with ⟨b₂, m₂⟩
        have hdb₂ : m₂.db = m.db := by rw [← hdb₁, ← kalloc_run_db m₁, h₂]
        cases b₂ with
        | false => exact .inl (by simp [getAvtabNode, hfind, h₁, h₂, hx, hdb₂])
        | true => exact .inr (by simp [getAvtabNode, hfind, h₁, h₂, hx, hdb₂])

theorem covers_of_freshNode {key : AvtabKey} {x : AvtabExtendedPerms} {n : ℕ}
    (h : (freshNode key x).covers n = true) : x.covers n = true := by
  rw [freshNode] at h
  split at h
  · exact h
  · exact absurd h Bool.false_ne_true

theorem coversWithin_getAvtabNode (key : AvtabKey) (x : AvtabExtendedPerms) :
    CoversWithin x (getAvtabNode key x) := by
  intro m node hnode
  rcases getAvtabNode_teAvtab key x m with h | h
  · exact .inl (h ▸ hnode)
  · rw [h, mem_avtabInsertNonunique] at hnode
    rcases hnode with rfl | hold
    · exact .inr fun n => covers_of_freshNode
    · exact .inl hold

/-- What a call that adds no more than `x` makes covered, `x` covers. -/
theorem CoversWithin.covered {x : AvtabExtendedPerms} {α : Type} {y : PolicyM α} (h : CoversWithin x y)
    {m : PolicyMem} {key : AvtabKey} {n : ℕ} (hcov : covered (y.run m).2.db.teAvtab key n = true) :
    covered m.db.teAvtab key n = true ∨ x.covers n = true := by
  rw [Selinux.covered, List.any_eq_true] at hcov
  obtain ⟨node, hnode, hboth⟩ := hcov
  rw [Bool.and_eq_true] at hboth
  rcases h m node hnode with hold | hnew
  · exact .inl (List.any_eq_true.mpr ⟨node, hold, by rw [hboth.1, hboth.2]; rfl⟩)
  · exact .inr (hnew n hboth.2)

/-- The numbers an interval stands for: its own, or all those of its drivers if it crosses drivers. -/
def InInterval (low high n : ℕ) : Prop :=
  if ioctlDriver low = ioctlDriver high then low ≤ n ∧ n ≤ high
  else ioctlDriver low ≤ ioctlDriver n ∧ ioctlDriver n ≤ ioctlDriver high

theorem xpermLoop_xpermClear (lo hi : ℕ) : xpermLoop xpermClear lo hi (fun _ => 0) = fun _ => 0 := by
  have hstep : ∀ i, xpermClear i (fun _ => 0) = fun _ => 0 := by
    intro i
    funext j
    simp [xpermClear]
  rw [xpermLoop]
  induction List.range' lo (hi + 1 - lo) with
  | nil => rfl
  | cons i is ih => rw [List.foldl_cons, hstep, ih]

theorem xpermTest_zero (n : ℕ) : xpermTest n (fun _ => 0#32) = false := by
  unfold xpermTest
  split <;> simp

/-- The permissions of a range cover no more than the range stands for. -/
theorem inInterval_of_covers {low high n : ℕ} {invert : Bool} (hlow : low < 2 ^ 16) (hhigh : high < 2 ^ 16)
    (hn : n < 2 ^ 16) (h : (rangeXperms low high invert).covers n = true) : InInterval low high n := by
  cases invert with
  | true =>
    simp only [rangeXperms, if_true, xpermLoop_xpermClear] at h
    split at h <;> simp [AvtabExtendedPerms.covers, xpermTest_zero] at h
  | false =>
    have hdriver := ioctlDriver_eq
    have hfunc := ioctlFunc_eq
    by_cases hsame : ioctlDriver low = ioctlDriver high
    · have hlt : ioctlFunc high < 256 := by
        rw [hfunc]
        omega
      have hbyte : (UInt8.ofNat (ioctlDriver high)).toNat = ioctlDriver high := by
        rw [hdriver, UInt8.toNat_ofNat', Nat.mod_mod]
      simp [rangeXperms, hsame, AvtabExtendedPerms.covers, hbyte, xpermTest_loop hlt, xpermTest_zero,
        AVTAB_XPERMS_IOCTLFUNCTION, AVTAB_XPERMS_IOCTLDRIVER] at h
      rw [InInterval, if_pos hsame]
      rw [hdriver, hdriver] at hsame
      rw [hdriver, hdriver, hfunc, hfunc, hfunc] at h
      omega
    · have hlt : ioctlDriver high < 256 := by
        rw [hdriver]
        omega
      simp [rangeXperms, hsame, AvtabExtendedPerms.covers, xpermTest_loop hlt, xpermTest_zero,
        AVTAB_XPERMS_IOCTLFUNCTION, AVTAB_XPERMS_IOCTLDRIVER] at h
      rw [InInterval, if_neg hsame]
      exact h

/-! ### Rules that are validated -/

section Validated

variable (m : PolicyMem) (effect : UInt16) (invert : Bool) (s t c : Option Name) (range : Name)

/-- The policy after the rule. -/
def afterXpermRule : Policydb := ((addXpermRule s t c (some range) effect invert).run m).2.db

/-- What the rule does is determined by the interval `low` to `high`. -/
structure DeterminedBy (low high : ℕ) : Prop where
  rule : ∀ src tgt cls, lookupOrAll m.db.pTypes s = some src → lookupOrAll m.db.pTypes t = some tgt →
    lookupOrAll m.db.pClasses c = some cls →
    afterXpermRule m effect invert s t c range =
      ((addXpermRuleRaw src tgt cls low high effect invert).run m).2.db
  locals : ∀ uninit, afterXpermRule { m with uninit := uninit } effect invert s t c range =
    afterXpermRule m effect invert s t c range
  covers : ∀ key n, n < 2 ^ 16 →
    covered (afterXpermRule m effect invert s t c range).teAvtab key n = true →
    covered m.db.teAvtab key n = true ∨ InInterval low high n

/-- **What validation means**: the rule is refused and nothing is changed, or its string is a range and what
the rule does is determined by it. -/
def ValidatesRange : Prop :=
  (((addXpermRule s t c (some range) effect invert).run m).1 = false ∧
      afterXpermRule m effect invert s t c range = m.db) ∨
    ∃ low high, Denotes range low high ∧ DeterminedBy m effect invert s t c range low high

theorem Denotes.bounds {range : Name} {low high : ℕ} (h : Denotes range low high) :
    low ≤ high ∧ high ≤ 0xffff := by
  cases h with
  | one h => exact ⟨Nat.le_refl _, h.fits⟩
  | two _ hhigh hle => exact ⟨hle, hhigh.fits⟩

/-- The rest of the state after the locals are taken. -/
theorem takeUninit_run : ∃ uninit, (takeUninit.run m).2 = { m with uninit := uninit } := by
  rcases m with ⟨db, allocs, _ | ⟨u, us⟩, freed, next⟩
  · exact ⟨[], rfl⟩
  · exact ⟨us, rfl⟩

variable {s t c} {src tgt : Option TypeDatum} {cls : Option ClassDatum}
  (hs : lookupOrAll m.db.pTypes s = some src) (ht : lookupOrAll m.db.pTypes t = some tgt)
  (hc : lookupOrAll m.db.pClasses c = some cls)

include hs ht hc

/-- A rule with existing names is never refused. -/
theorem addXpermRule_run :
    (addXpermRule s t c (some range) effect invert).run m =
      (true, ((addXpermRuleRaw src tgt cls (parseXpermRange (some range) (takeUninit.run m).1).1
        (parseXpermRange (some range) (takeUninit.run m).1).2 effect invert).run (takeUninit.run m).2).2) := by
  simp only [addXpermRule, run_bind, run_readDb, hs, ht, hc, run_pure]

theorem afterXpermRule_of_denotes {low high : ℕ} (h : Denotes range low high) :
    afterXpermRule m effect invert s t c range =
      ((addXpermRuleRaw src tgt cls low high effect invert).run m).2.db := by
  obtain ⟨uninit, hrest⟩ := takeUninit_run m
  have hignores := sequential_ignoresUninit.addXpermRuleRaw
    (fun key => ignoresUninit_getAvtabNode key (rangeXperms low high invert)) src tgt cls effect
  rw [afterXpermRule, addXpermRule_run m effect invert range hs ht hc, parseXpermRange_of_denotes h, hrest,
    hignores m uninit]

end Validated

/-- **A rule with existing names is validated exactly if its string is a range.** -/
theorem addXpermRule_validates_iff {m : PolicyMem} {s t c : Option Name}
    (hs : (lookupOrAll m.db.pTypes s).isSome = true) (ht : (lookupOrAll m.db.pTypes t).isSome = true)
    (hc : (lookupOrAll m.db.pClasses c).isSome = true) (effect : UInt16) (invert : Bool) (range : Name) :
    ValidatesRange m effect invert s t c range ↔ ∃ low high, Denotes range low high := by
  obtain ⟨src, hs⟩ := Option.isSome_iff_exists.mp hs
  obtain ⟨tgt, ht⟩ := Option.isSome_iff_exists.mp ht
  obtain ⟨cls, hc⟩ := Option.isSome_iff_exists.mp hc
  constructor
  · rintro (⟨hrefused, -⟩ | ⟨low, high, h, -⟩)
    · rw [addXpermRule_run m effect invert range hs ht hc] at hrefused
      exact absurd hrefused Bool.true_eq_false_eq_False
    · exact ⟨low, high, h⟩
  · rintro ⟨low, high, h⟩
    have hafter := afterXpermRule_of_denotes m effect invert range hs ht hc h
    obtain ⟨hle, hfits⟩ := h.bounds
    refine .inr ⟨low, high, h, ?_, ?_, ?_⟩
    · intro src' tgt' cls' hs' ht' hc'
      exact afterXpermRule_of_denotes m effect invert range hs' ht' hc' h
    · intro uninit
      have hignores := sequential_ignoresUninit.addXpermRuleRaw
        (fun key => ignoresUninit_getAvtabNode key (rangeXperms low high invert)) src tgt cls effect
      rw [hafter, afterXpermRule_of_denotes { m with uninit := uninit } effect invert range hs ht hc h,
        hignores m uninit]
    · intro key n hn hcov
      rw [hafter] at hcov
      have hwithin := (sequential_coversWithin (rangeXperms low high invert)).addXpermRuleRaw
        (fun key => coversWithin_getAvtabNode key _) src tgt cls effect
      exact (hwithin.covered hcov).imp_right fun hx =>
        inInterval_of_covers (by omega) (by omega) hn hx

/-- Range `8910`. -/
theorem addXpermRule_validates_8910 :
    ValidatesRange ioctlMem AVTAB_XPERMS_ALLOWED false (some [1]) (some [2]) (some [6])
      [0x38, 0x39, 0x31, 0x30] :=
  (addXpermRule_validates_iff (by decide) (by decide) (by decide) AVTAB_XPERMS_ALLOWED false
    [0x38, 0x39, 0x31, 0x30]).mpr
    ⟨0x8910, 0x8910, .one ⟨⟨[], [0x38, 0x39, 0x31, 0x30], rfl, .inl rfl, List.cons_ne_nil _ _,
      List.all_eq_true.mp (by decide), by decide⟩, by decide⟩⟩

/-- **A string that is no range, `zz`, grants what the locals happen to hold:** with `5401` in them, that
number becomes covered, and with `0` it does not. -/
theorem addXpermRule_unvalidated :
    ¬ ValidatesRange ioctlMem AVTAB_XPERMS_ALLOWED false (some [1]) (some [2]) (some [6]) [0x7a, 0x7a] := by
  have hgranted : covered (afterXpermRule { ioctlMem with uninit := [(0x5401, 0)] } AVTAB_XPERMS_ALLOWED false
      (some [1]) (some [2]) (some [6]) [0x7a, 0x7a]).teAvtab ⟨1, 2, 1, AVTAB_XPERMS_ALLOWED⟩ 0x5401 = true := by
    decide
  have hnot : covered (afterXpermRule ioctlMem AVTAB_XPERMS_ALLOWED false
      (some [1]) (some [2]) (some [6]) [0x7a, 0x7a]).teAvtab ⟨1, 2, 1, AVTAB_XPERMS_ALLOWED⟩ 0x5401 = false := by
    decide
  rintro (⟨hrefused, -⟩ | ⟨low, high, -, hdet⟩)
  · exact absurd hrefused (by decide)
  · rw [hdet.locals [(0x5401, 0)], hnot] at hgranted
    exact absurd hgranted Bool.false_ne_true

end KernelSU.Selinux
