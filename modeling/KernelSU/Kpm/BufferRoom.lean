import KernelSU.Kpm.InlineHooked

/-!
# The room in the buffer

* `length_flatten_of_relocate` — **PROVED**: the words that are written, by the table;
* `hookPrepare_overrun_iff` — **PROVED**: when `hook_prepare` writes behind `relo_insts`.
-/

namespace KernelSU.Kpm

open KernelSU.Lib KernelSU.Lib.Arm64

variable {text : Text} {h : Hook}

theorem reloLen_cases (w : Word) : reloLen w = 2 ∨ reloLen w = 4 ∨ reloLen w = 6 ∨ reloLen w = 8 := by
  obtain ⟨k, hk, hcase⟩ := classOf_cases w
  have hall : ∀ k ∈ classes, k.reloLen = 2 ∨ k.reloLen = 4 ∨ k.reloLen = 6 ∨ k.reloLen = 8 := by
    simp [classes]
  rw [reloLen, hk, Option.elim_some]
  exact hall k (List.mem_of_find?_eq_some hk)

/-- The words that are written. -/
theorem length_flatten_of_relocate {blocks : List (List Word)} (hb : relocate h = some blocks) :
    blocks.flatten.length = ((List.range h.trampInsts.length).map fun i => reloLen (h.originInsts.getD i 0)).sum := by
  have hlengths : blocks.map List.length =
      (List.range h.trampInsts.length).map fun i => reloLen (h.originInsts.getD i 0) := by
    refine List.ext_getElem (by simp [length_of_relocate hb]) fun i hi hi' => ?_
    obtain ⟨block, hblock, hmoved⟩ := exists_block hb (show i < h.trampInsts.length by simpa using hi')
    obtain ⟨_, hget⟩ := List.getElem?_eq_some_iff.mp hblock
    rw [List.getElem_map, List.getElem_map, List.getElem_range, hget, relocateInst_length hmoved, reloLen]
  rw [List.length_flatten, hlengths]

/-- `is_bad_address` of one of the four. -/
def hasBadAddress (h : Hook) : Bool :=
  isBadAddress h.funcAddr || isBadAddress h.originAddr || isBadAddress h.replaceAddr || isBadAddress h.reloAddr

/-- The first instructions that the jump is written over. -/
def Hook.over (h : Hook) (insts : List Word) : Hook := { h with originInsts := insts, trampInsts := trampoline h insts }

theorem exists_six {l : List Word} (hl : l.length = 6) : ∃ a b c d e f, l = [a, b, c, d, e, f] := by
  rcases l with _ | ⟨a, _ | ⟨b, _ | ⟨c, _ | ⟨d, _ | ⟨e, _ | ⟨f, _ | ⟨g, l⟩⟩⟩⟩⟩⟩⟩
  case cons.cons.cons.cons.cons.cons.nil => exact ⟨a, b, c, d, e, f, rfl⟩
  all_goals simp at hl

/-- Behind PACIASP or PACIBSP there is room for a landing pad, so that five instructions are moved. -/
theorem length_flatten_of_pac {pac a b c d e : Word} {blocks : List (List Word)}
    (hb : relocate (h.over [pac, a, b, c, d, e]) = some blocks) (hpac : pac = ARM64_PACIASP ∨ pac = ARM64_PACIBSP) :
    blocks.flatten.length = 2 + (reloLen a + reloLen b + reloLen c + reloLen d) := by
  have htramp : (h.over [pac, a, b, c, d, e]).trampInsts = ARM64_BTI_JC :: branchFromTo h.replaceAddr := by
    simp [Hook.over, trampoline, hpac]
  have hfirst : reloLen pac = 2 := by
    obtain rfl | rfl := hpac
    · decide
    · decide
  have hfive : (h.over [pac, a, b, c, d, e]).trampInsts.length = 5 := by
    simp [htramp, branchFromTo, retAbsolute, words]
  rw [length_flatten_of_relocate hb, hfive]
  simp [Hook.over, List.range_succ, hfirst]
  omega

/-- The words do not fit. -/
theorem room_lt_iff {pac a b c d e : Word} {blocks : List (List Word)}
    (hb : relocate (h.over [pac, a, b, c, d, e]) = some blocks) (back : Addr) :
    RELOCATE_INST_NUM < (blocks.flatten ++ branchFromTo back).length ↔
      (pac = ARM64_PACIASP ∨ pac = ARM64_PACIBSP) ∧ ∀ w ∈ [a, b, c, d], reloLen w = 8 := by
  have hlength : (blocks.flatten ++ branchFromTo back).length = blocks.flatten.length + 4 := by
    simp [branchFromTo, retAbsolute, words]
  have ha := reloLen_cases a
  have hb' := reloLen_cases b
  have hc := reloLen_cases c
  have hd := reloLen_cases d
  rw [hlength]
  by_cases hpac : pac = ARM64_PACIASP ∨ pac = ARM64_PACIBSP
  · rw [length_flatten_of_pac hb hpac]
    simp [hpac, RELOCATE_INST_NUM]
    omega
  · have htramp : (h.over [pac, a, b, c, d, e]).trampInsts = branchFromTo h.replaceAddr := by
      simp [Hook.over, trampoline, hpac]
    have hfirst := reloLen_cases pac
    have hfour : (h.over [pac, a, b, c, d, e]).trampInsts.length = 4 := by
      simp [htramp, branchFromTo, retAbsolute, words]
    rw [length_flatten_of_relocate hb, hfour]
    simp [Hook.over, List.range_succ, hpac, RELOCATE_INST_NUM]
    omega

/-- **When `hook_prepare` writes behind `relo_insts`**: the function begins with PACIASP or PACIBSP, and each of the four
instructions behind it takes eight words.  Of the 36 words there are, these take 34, and the jump back takes four more;
`relo_insts_num` is zero before, as `hook_mem_zalloc` has left it. -/
theorem hookPrepare_overrun_iff (text : Text) (h : Hook) :
    hookPrepare text h = .error .overrun ↔ hasBadAddress h = false ∧ ∃ pac a b c d e,
      ((List.range TRAMPOLINE_MAX_NUM).mapM fun i => text (instAddr h.originAddr i)) = some [pac, a, b, c, d, e] ∧
      (pac = ARM64_PACIASP ∨ pac = ARM64_PACIBSP) ∧ (∀ w ∈ [a, b, c, d], reloLen w = 8) ∧
      ∃ blocks, relocate (h.over [pac, a, b, c, d, e]) = some blocks ∧ blocks.flatten.length = 34 ∧
        ∀ back, (blocks.flatten ++ branchFromTo back).length = 38 := by
  have hbad : (isBadAddress h.funcAddr ∨ isBadAddress h.originAddr ∨ isBadAddress h.replaceAddr ∨
      isBadAddress h.reloAddr) ↔ hasBadAddress h = true := by
    simp [hasBadAddress, or_assoc]
  constructor
  · intro hover
    unfold hookPrepare at hover
    split_ifs at hover with hany
    · simp at hover
    · refine ⟨by rwa [hbad, Bool.not_eq_true] at hany, ?_⟩
      cases hread : (List.range TRAMPOLINE_MAX_NUM).mapM fun i => text (instAddr h.originAddr i) with
      | none => simp [hread] at hover
      | some insts =>
        have hmap := congrArg List.length (mapM_eq_some.mp hread)
        obtain ⟨pac, a, b, c, d, e, rfl⟩ := exists_six (l := insts) (by simpa [TRAMPOLINE_MAX_NUM] using hmap.symm)
        cases hblocks : relocate (h.over [pac, a, b, c, d, e]) with
        | none =>
          have hnone := hblocks
          unfold Hook.over at hnone
          simp [hread, hnone] at hover
        | some blocks =>
          have hsome := hblocks
          unfold Hook.over at hsome
          simp only [hread, Option.elim_some, hsome] at hover
          split_ifs at hover with hroom
          obtain ⟨hpac, hlong⟩ := (room_lt_iff hblocks _).mp hroom
          have hwords : blocks.flatten.length = 34 := by
            simp only [List.forall_mem_cons, List.not_mem_nil, false_imp_iff, implies_true, and_true] at hlong
            rw [length_flatten_of_pac hblocks hpac]
            omega
          refine ⟨pac, a, b, c, d, e, rfl, hpac, hlong, blocks, hblocks, hwords, fun back => ?_⟩
          rw [List.length_append, hwords]
          rfl
  · intro hcase
    obtain ⟨hgood, pac, a, b, c, d, e, hread, hpac, hlong, blocks, hblocks, -⟩ := hcase
    have hroom := fun back => (room_lt_iff hblocks back).mpr ⟨hpac, hlong⟩
    have hsome := hblocks
    unfold Hook.over at hsome
    have hany : ¬(isBadAddress h.funcAddr ∨ isBadAddress h.originAddr ∨ isBadAddress h.replaceAddr ∨
        isBadAddress h.reloAddr) := by
      rw [hbad, hgood]
      simp
    rw [hookPrepare, if_neg hany, hread, Option.elim_some]
    simp only [hsome, Option.elim_some]
    rw [if_pos (hroom _)]

/-- PACIASP, and four calls. -/
example : hookPrepare
    (poke (fun _ => none) 0xffffffc008010040
      [0xd503233f, 0x94000400, 0x94000400, 0x94000400, 0x94000400, 0xD65F03C0])
    ⟨0xffffffc008010040, 0xffffffc008010040, 0xffffffc010000000, 0xffffffc020000000, [], [], []⟩ =
      .error .overrun := by rfl

end KernelSU.Kpm
