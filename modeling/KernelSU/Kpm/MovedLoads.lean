import KernelSU.Kpm.InlineHooked

/-!
# Loads relative to the program counter

The words that such a load becomes take the address from one word too early.

* `movedLoad_misreads` — **PROVED**: what they take for the address, and when it is the address.
-/

namespace KernelSU.Kpm

open KernelSU.Lib KernelSU.Lib.Arm64

variable {ρ : Type} {isa : Isa ρ} {T : Text} {h : Hook} {pc a addr : Addr} {w : Word} {block : List Word}

/-- The NOP in front of an address, and the low half of the address. -/
def misread (addr : Addr) : Addr := (addr &&& 0xFFFFFFFF).setWidth 32 ++ ARM64_NOP

/-- It is the address for one address only. -/
theorem misread_eq_iff : misread addr = addr ↔ addr = 0xd503201fd503201f := by
  have hat : At (poke (fun _ => none) 0 (words addr)) 0 (words addr) := poke_at (by simp [words])
  have hhalves : (addr >>> 32).setWidth 32 ++ (addr &&& 0xFFFFFFFF).setWidth 32 = addr := by
    have hword := word64_words hat
    obtain ⟨hlo, hhi, -⟩ := hat
    rw [Text.word64, hlo, Option.bind_some, hhi, Option.map_some] at hword
    exact Option.some.inj hword
  constructor
  · intro heq
    have happend := heq.trans hhalves.symm
    have hlow := congrArg (·.setWidth 32) happend
    have hhigh := congrArg (·.extractLsb' 32 32) happend
    simp only [misread, BitVec.setWidth_append_eq_right, BitVec.extractLsb'_append_eq_left] at hlow hhigh
    rw [← hhalves, ← hhigh, ← hlow]
    rfl
  · intro heq
    rw [heq]
    rfl

/-- A load of the address, one word too early. -/
theorem steps_misread {k : ℕ} {load : Word} {r : Reg} (m : ℕ) (hload : decode load = .ldrX r (BitVec.ofNat 64 (4 * m)))
    (hat : At T a block) (hk : block[k]? = some load) (hnop : block[k + m]? = some ARM64_NOP)
    (hlow : block[k + m + 1]? = some ((addr &&& 0xFFFFFFFF).setWidth 32)) (c : Core ρ) :
    Steps isa T ⟨instAddr a k, c⟩ ⟨instAddr a (k + 1), c.set r (misread addr)⟩ := by
  have hword : T.word64 (instAddr a (k + m)) = some (misread addr) := by
    rw [Text.word64, hat.get hnop, Option.bind_some, instAddr_succ, hat.get hlow, Option.map_some, misread]
  exact block_ldrX (hat.get hk) m hload hword

/-- LDR Xt, #12. -/
theorem decode_movedLdr (w : Word) : decode (0x58000060 ||| bits32 w 4 0) = .ldrX (reg w 0) 12 := by
  rw [bits32_reg, BitVec.or_comm]
  have hkept : ((w &&& 0x1F) ||| 0x58000060) &&& 0xFF000000 = 0x58000000 := by
    rw [masked_and]
    simp
  rw [decode_ldrX hkept]
  simp [offset, reg, BitVec.extractLsb'_or, BitVec.extractLsb'_and, and_ones5]

theorem decode_ldr17_16 : decode 0x58000091 = .ldrX 17 16 := by decide

theorem literal_cases {k : InstClass} (hlit : k.type ∈ literalTypes) :
    (k.type = .LDR_32 ∨ k.type = .LDR_64 ∨ k.type = .LDRSW_LIT) ∨
      (k.type = .PRFM_LIT ∨ k.type = .LDR_SIMD_32 ∨ k.type = .LDR_SIMD_64 ∨ k.type = .LDR_SIMD_128) := by
  simpa [literalTypes, or_assoc] using hlit

/-- **The moved loads** take the NOP for the low half of the address: the load of the address is the first word, to the
register that is loaded, or the second, to register 17. -/
theorem movedLoad_misreads (hw : isLiteral w = true) (hmoved : relocateInst h pc w = some block) (hat : At T a block) :
    ∃ k r, (k = 0 ∧ r = reg w 0 ∨ k = 1 ∧ r = 17) ∧
      (∀ c, Steps isa T ⟨instAddr a k, c⟩
        ⟨instAddr a (k + 1), c.set r (misread (reloInTramp h (pc + offset w 5 19)))⟩) ∧
      (misread (reloInTramp h (pc + offset w 5 19)) = reloInTramp h (pc + offset w 5 19) ↔
        reloInTramp h (pc + offset w 5 19) = 0xd503201fd503201f) := by
  obtain ⟨k, hk, -⟩ := classOf_cases w
  simp only [isLiteral, hk, Option.any_some, decide_eq_true_eq] at hw
  simp only [relocateInst, hk, Option.elim_some] at hmoved
  obtain htype | htype := literal_cases hw
  · have hldr : reloLdr h pc w k.type = some block := by
      obtain ht | ht | ht := htype <;> simpa [ht] using hmoved
    simp only [reloLdr, if_pos htype, offset_cb] at hldr
    split_ifs at hldr <;>
      (obtain rfl := Option.some.inj hldr
       exact ⟨0, reg w 0, .inl ⟨rfl, rfl⟩, steps_misread 3 (decode_movedLdr w) hat rfl rfl rfl, misread_eq_iff⟩)
  · have hldr : reloLdr h pc w k.type = some block := by
      obtain ht | ht | ht | ht := htype <;> simpa [ht] using hmoved
    have hother : ¬(k.type = .LDR_32 ∨ k.type = .LDR_64 ∨ k.type = .LDRSW_LIT) := by
      obtain ht | ht | ht | ht := htype <;> simp [ht]
    simp only [reloLdr, if_neg hother, offset_cb] at hldr
    split_ifs at hldr <;>
      (obtain rfl := Option.some.inj hldr
       exact ⟨1, 17, .inr ⟨rfl, rfl⟩, steps_misread 4 decode_ldr17_16 hat rfl rfl rfl, misread_eq_iff⟩)

/-- LDR X0 from 0x400 bytes on. -/
theorem movedLoad_misreads_ldr : ∃ block, relocateInst loopFunc loopFunc.originAddr 0x58002000 = some block ∧
    ∃ k r, (k = 0 ∧ r = reg 0x58002000 0 ∨ k = 1 ∧ r = 17) ∧
      (∀ c, Steps hintIsa (poke (fun _ => none) 0x1000 block) ⟨instAddr 0x1000 k, c⟩
        ⟨instAddr 0x1000 (k + 1),
          c.set r (misread (reloInTramp loopFunc (loopFunc.originAddr + offset 0x58002000 5 19)))⟩) ∧
      (misread (reloInTramp loopFunc (loopFunc.originAddr + offset 0x58002000 5 19)) =
          reloInTramp loopFunc (loopFunc.originAddr + offset 0x58002000 5 19) ↔
        reloInTramp loopFunc (loopFunc.originAddr + offset 0x58002000 5 19) = 0xd503201fd503201f) :=
  ⟨_, rfl, movedLoad_misreads (by decide) rfl (poke_at (by decide))⟩

end KernelSU.Kpm
