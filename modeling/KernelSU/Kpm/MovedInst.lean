import KernelSU.Kpm.InstForms
import KernelSU.Lib.BitField

/-!
# What becomes of an instruction

* `classOf_cases` — **PROVED**: the entry that an instruction matches;
* `Moved` — the words of the buffer, by what the instruction is;
* `moved` — **PROVED**: they are those of `relocate_inst`.
-/

namespace KernelSU.Kpm

open KernelSU.Lib KernelSU.Lib.Arm64

/-! ### The table -/

/-- The entries in front of the last. -/
def formClasses : List InstClass := classes.dropLast

/-- The last entry. -/
def ignoreClass : InstClass := ⟨.IGNORE, 0, 0, 2⟩

/-- **The entry that an instruction matches**: one in front of the last, or the last where no other does. -/
theorem classOf_cases (w : Word) : ∃ k, classOf w = some k ∧
    ((k ∈ formClasses ∧ w &&& k.mask = k.inst) ∨ (k = ignoreClass ∧ ∀ k ∈ formClasses, w &&& k.mask ≠ k.inst)) := by
  have hsplit : classes = formClasses ++ [ignoreClass] := rfl
  rw [classOf, hsplit, List.find?_append]
  cases hfound : formClasses.find? fun k => decide (w &&& k.mask = k.inst) with
  | some k =>
    have hmatch := List.find?_some hfound
    exact ⟨k, rfl, .inl ⟨List.mem_of_find?_eq_some hfound, by simpa using hmatch⟩⟩
  | none =>
    refine ⟨ignoreClass, ?_, .inr ⟨rfl, ?_⟩⟩
    · simp [ignoreClass]
    · simpa using List.find?_eq_none.mp hfound

/-- The loads relative to the program counter. -/
def literalTypes : List InstType :=
  [.LDR_32, .LDR_64, .LDRSW_LIT, .PRFM_LIT, .LDR_SIMD_32, .LDR_SIMD_64, .LDR_SIMD_128]

def isLiteral (w : Word) : Bool := (classOf w).any fun k => k.type ∈ literalTypes

/-! ### The words -/


/-- The instruction names an address by its distance. -/
def isRelative : Inst → Bool
  | .b _ | .bl _ | .branchIf _ _ | .adr _ _ | .adrp _ _ | .ldrX _ _ => true
  | .br _ | .blr _ | .addImm _ _ _ | .nop | .other => false

/-- **The words of the buffer** for an instruction that stood at `pc`. -/
inductive Moved (h : Hook) (pc : Addr) (w : Word) : List Word → Prop
  | b (o : Addr) : decode w = .b o →
      Moved h pc w ([0x58000051, 0x14000003] ++ words (reloInTramp h (pc + o)) ++ [0xD65F0220, ARM64_NOP])
  | bl (o : Addr) : decode w = .bl o →
      Moved h pc w ([0x58000051, 0x14000003] ++ words (reloInTramp h (pc + o)) ++
        [0x1000001E, 0x910033DE, 0xD65F0220, ARM64_NOP])
  | cond (t : Test) (o : Addr) (kept : Word) : decode w = .branchIf t o → decode kept = .branchIf t 8 →
      Moved h pc w ([kept, 0x14000006, 0x58000051, 0x14000003] ++ words (reloInTramp h (pc + o)) ++
        [0xD65F0220, ARM64_NOP])
  | compare (t : Test) (o : Addr) (kept leave : Word) : decode w = .branchIf t o → decode kept = .branchIf t 8 →
      decode leave = .br 17 →
      Moved h pc w ([kept, 0x14000005, 0x58000051, leave] ++ words (reloInTramp h (pc + o)) ++ [])
  | adr (d : Reg) (o : Addr) (load : Word) : decode w = .adr d o → decode load = .ldrX d 8 →
      Moved h pc w ([load, 0x14000003] ++ words (pc + o) ++ [])
  | adrp (d : Reg) (o : Addr) (load : Word) : decode w = .adrp d o → decode load = .ldrX d 8 →
      Moved h pc w ([load, 0x14000003] ++ words ((pc &&& 0xFFFFFFFFFFFFF000) + o) ++ [])
  | same : isRelative (decode w) = false → Moved h pc w [w, ARM64_NOP]

/-- The page of an address. -/
theorem page_add (pc : Addr) (w : Word) :
    (pc + adrpOffset w) &&& 0xFFFFFFFFFFFFF000 = (pc &&& 0xFFFFFFFFFFFFF000) + adrpOffset w := by
  have hlow : (adrpOffset w).toNat % 4096 = 0 := by
    have hwidth : (adrpOffset w).setWidth 12 = 0 := by
      ext i hi
      have hin : i < 33 := by omega
      have hzeros : ∀ x : BitVec 21, (x ++ (0 : BitVec 12)).getLsbD i = false := by
        intro x
        rw [BitVec.getLsbD_append, if_pos hi]
        simp
      have hbit := hzeros (w.extractLsb' 5 19 ++ w.extractLsb' 29 2)
      rw [BitVec.getElem_setWidth, adrpOffset, BitVec.getLsbD_signExtend, if_pos hin, hbit]
      simp
    have hnat := congrArg BitVec.toNat hwidth
    simpa using hnat
  have hmask : (0xFFFFFFFFFFFFF000 : ℕ) = (2 ^ 52 - 1) <<< 12 := by decide
  apply BitVec.eq_of_toNat_eq
  have hpage : ∀ x : Addr, (x &&& 0xFFFFFFFFFFFFF000).toNat = x.toNat / 4096 * 4096 := by
    intro x
    have hx := x.isLt
    rw [BitVec.toNat_and, show (0xFFFFFFFFFFFFF000 : Addr).toNat = 0xFFFFFFFFFFFFF000 from rfl, hmask, and_mask, field,
      Nat.shiftLeft_eq]
    omega
  rw [hpage, BitVec.toNat_add, BitVec.toNat_add, hpage]
  omega

/-- One more fixed bit. -/
theorem fixed_or_set {w t : Word} (h : w &&& 0x7E000000 = t) :
    w &&& 0x7F000000 = t ∨ w &&& 0x7F000000 = t ||| 0x01000000 := by
  have hsplit : w &&& 0x7F000000 = t ||| (w &&& BitVec.twoPow 32 24) := by
    rw [← h, ← BitVec.and_or_distrib_left]
    rfl
  rw [hsplit, BitVec.and_twoPow]
  split_ifs
  · exact .inr rfl
  · exact .inl (BitVec.or_zero)

/-- An instruction that matches no entry but the last names no address. -/
theorem isRelative_of_ignored {w : Word} (h : ∀ k ∈ formClasses, w &&& k.mask ≠ k.inst) :
    isRelative (decode w) = false := by
  simp only [formClasses, classes, List.dropLast, List.forall_mem_cons, List.not_mem_nil, false_imp_iff,
    implies_true, and_true] at h
  obtain ⟨hb, hcond, hbl, hadr, hadrp, -, hldr, -, -, -, -, -, hcbz, hcbnz, htbz, htbnz⟩ := h
  have hzero : w &&& 0x7E000000 ≠ 0x34000000 := fun h => (fixed_or_set h).elim hcbz hcbnz
  have hbit : w &&& 0x7E000000 ≠ 0x36000000 := fun h => (fixed_or_set h).elim htbz htbnz
  rw [decode, if_neg hb, if_neg hcond, if_neg hbl, if_neg hadr, if_neg hadrp, if_neg hldr, if_neg hzero, if_neg hbit]
  split_ifs <;> rfl

theorem formClasses_cases {k : InstClass} (hk : k ∈ formClasses) :
    k = ⟨.B, 0xFC000000, 0x14000000, 6⟩ ∨ k = ⟨.BC, 0xFF000010, 0x54000000, 8⟩ ∨ k = ⟨.BL, 0xFC000000, 0x94000000, 8⟩ ∨
      k = ⟨.ADR, 0x9F000000, 0x10000000, 4⟩ ∨ k = ⟨.ADRP, 0x9F000000, 0x90000000, 4⟩ ∨ k.type ∈ literalTypes ∨
      k = ⟨.CBZ, 0x7F000000, 0x34000000, 6⟩ ∨ k = ⟨.CBNZ, 0x7F000000, 0x35000000, 6⟩ ∨
      k = ⟨.TBZ, 0x7F000000, 0x36000000, 6⟩ ∨ k = ⟨.TBNZ, 0x7F000000, 0x37000000, 6⟩ := by
  simp only [formClasses, classes, List.dropLast, List.mem_cons, List.not_mem_nil, or_false] at hk
  obtain rfl | rfl | rfl | rfl | rfl | rfl | rfl | rfl | rfl | rfl | rfl | rfl | rfl | rfl | rfl | rfl := hk <;>
    simp [literalTypes]

/-- **What becomes of an instruction.** -/
theorem moved {h : Hook} {pc : Addr} {w : Word} {block : List Word} (hw : isLiteral w = false)
    (hmoved : relocateInst h pc w = some block) : Moved h pc w block := by
  obtain ⟨k, hk, hcase⟩ := classOf_cases w
  simp only [isLiteral, hk, Option.any_some, decide_eq_false_iff_not] at hw
  simp only [relocateInst, hk, Option.elim_some] at hmoved
  obtain ⟨hmem, hmatch⟩ | ⟨rfl, hnone⟩ := hcase
  · obtain rfl | rfl | rfl | rfl | rfl | hload | rfl | rfl | rfl | rfl := formClasses_cases hmem
    · obtain rfl := Option.some.inj hmoved
      simpa [reloB, offset_b] using Moved.b (h := h) _ (decode_b hmatch)
    · obtain rfl := Option.some.inj hmoved
      simpa [reloB, offset_cb] using Moved.cond (h := h) _ _ _ (decode_branchCond hmatch) (decode_keptCond hmatch)
    · obtain rfl := Option.some.inj hmoved
      simpa [reloB, offset_b] using Moved.bl (h := h) _ (decode_bl hmatch)
    · obtain rfl := Option.some.inj hmoved
      simpa [adrOffset_eq] using Moved.adr (h := h) _ _ _ (decode_adr hmatch) (decode_movedAdr w)
    · simp only [reloAdr, adrpOffset_eq, page_add] at hmoved
      simp at hmoved
      obtain ⟨-, rfl⟩ := hmoved
      simpa using Moved.adrp (h := h) _ _ _ (decode_adrp hmatch) (decode_movedAdr w)
    · exact absurd hload hw
    · have hzero : w &&& 0x7E000000 = 0x34000000 := and_fixed hmatch (by decide)
      obtain rfl := Option.some.inj hmoved
      simpa [reloCb, offset_cb] using
        Moved.compare (h := h) _ _ _ _ (decode_branchZero hzero) (decode_keptZero hzero) decode_ret17
    · have hzero : w &&& 0x7E000000 = 0x34000000 := and_fixed hmatch (by decide)
      obtain rfl := Option.some.inj hmoved
      simpa [reloCb, offset_cb] using
        Moved.compare (h := h) _ _ _ _ (decode_branchZero hzero) (decode_keptZero hzero) decode_ret17
    · have hbit : w &&& 0x7E000000 = 0x36000000 := and_fixed hmatch (by decide)
      obtain rfl := Option.some.inj hmoved
      simpa [reloTb, offset_tb] using
        Moved.compare (h := h) _ _ _ _ (decode_branchBit hbit) (decode_keptBit hbit) decode_br17
    · have hbit : w &&& 0x7E000000 = 0x36000000 := and_fixed hmatch (by decide)
      obtain rfl := Option.some.inj hmoved
      simpa [reloTb, offset_tb] using
        Moved.compare (h := h) _ _ _ _ (decode_branchBit hbit) (decode_keptBit hbit) decode_br17
  · obtain rfl : [w, ARM64_NOP] = block := by simpa [ignoreClass, reloIgnore] using hmoved
    exact .same (isRelative_of_ignored hnone)

end KernelSU.Kpm
