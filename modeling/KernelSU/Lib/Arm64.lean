import Mathlib.Logic.Function.Basic
import Mathlib.Logic.Relation
import Mathlib.Tactic.Ring

/-!
# A fragment of the A64 instruction set

The branches, the addresses relative to the program counter and what code that is moved needs beside them; every other
instruction is a function of the machine.

* `decode`, `exec`, `step`, `Steps` — instructions, what they do, and runs;
* `Core.Agree` — two cores that differ in some registers at most;
* `At`, `poke` — words that stand in the text; `poke_at`, `poke_apart` — **PROVED**: what was written is read;
* `simulates` — **PROVED**: what one step of a machine is followed by in another, a run is.
-/

namespace KernelSU.Lib.Arm64

abbrev Word := BitVec 32

abbrev Addr := BitVec 64

abbrev Reg := BitVec 5

/-! ### Machines -/

/-- The general registers, and the rest of a machine.  Register 31 is the one that is always zero. -/
structure Core (ρ : Type) where
  x : Reg → Addr
  rest : ρ

/-- A core at an address. -/
structure State (ρ : Type) where
  pc : Addr
  core : Core ρ

/-- What a conditional branch asks. -/
inductive Test where
  | cond (c : BitVec 4)
  | zero (wide negated : Bool) (t : Reg)
  | bit (negated : Bool) (n : ℕ) (t : Reg)
  deriving DecidableEq

inductive Inst where
  | b (offset : Addr)
  | bl (offset : Addr)
  | branchIf (test : Test) (offset : Addr)
  | adr (d : Reg) (offset : Addr)
  | adrp (d : Reg) (offset : Addr)
  | ldrX (t : Reg) (offset : Addr)
  | br (n : Reg)
  | blr (n : Reg)
  | addImm (d n : Reg) (imm : Addr)
  | nop
  | other
  deriving DecidableEq

/-- What the fragment does not say of a machine: its flags, its data, and the other instructions, which may go somewhere
or on to the next. -/
structure Isa (ρ : Type) where
  cond : BitVec 4 → ρ → Bool
  load : Addr → ρ → Addr
  other : Word → Addr → Core ρ → Core ρ × Option Addr

/-- The instructions at the addresses of a machine. -/
abbrev Text := Addr → Option Word

variable {ρ : Type}

namespace Core

def get (c : Core ρ) (r : Reg) : Addr := if r = 31 then 0 else c.x r

def set (c : Core ρ) (r : Reg) (v : Addr) : Core ρ :=
  if r = 31 then c else { c with x := Function.update c.x r v }

/-- Two cores that differ in these registers at most. -/
structure Agree (rs : List (Reg)) (c c' : Core ρ) : Prop where
  x : ∀ r, r ∉ rs → c'.x r = c.x r
  rest : c'.rest = c.rest

variable {rs rs' : List (Reg)} {c c' c'' : Core ρ}

theorem Agree.refl (rs : List (Reg)) (c : Core ρ) : c.Agree rs c := ⟨fun _ _ => rfl, rfl⟩

theorem Agree.trans (h : c.Agree rs c') (h' : c'.Agree rs c'') : c.Agree rs c'' :=
  ⟨fun r hr => (h'.x r hr).trans (h.x r hr), h'.rest.trans h.rest⟩

theorem Agree.mono (h : c.Agree rs c') (hsub : rs ⊆ rs') : c.Agree rs' c' :=
  ⟨fun r hr => h.x r fun hmem => hr (hsub hmem), h.rest⟩

/-- A register among these may be set. -/
theorem Agree.set_right {r : Reg} (h : c.Agree rs c') (hr : r ∈ rs) (v : Addr) : c.Agree rs (c'.set r v) := by
  unfold set
  split_ifs with hzero
  · exact h
  · refine ⟨fun q hq => ?_, h.rest⟩
    have hne : q ≠ r := fun heq => hq (heq ▸ hr)
    simpa only [Function.update_of_ne hne] using h.x q hq

theorem Agree.symm (h : c.Agree rs c') : c'.Agree rs c := ⟨fun r hr => (h.x r hr).symm, h.rest.symm⟩

theorem Agree.set_left {r : Reg} (h : c.Agree rs c') (hr : r ∈ rs) (v : Addr) : (c.set r v).Agree rs c' :=
  (h.symm.set_right hr v).symm

/-- And any to the same. -/
theorem Agree.set (h : c.Agree rs c') (r : Reg) (v : Addr) : (c.set r v).Agree rs (c'.set r v) := by
  unfold Core.set
  split_ifs with hzero
  · exact h
  · refine ⟨fun q hq => ?_, h.rest⟩
    by_cases heq : q = r
    · subst heq
      simp
    · simpa only [Function.update_of_ne heq] using h.x q hq

theorem Agree.get (h : c.Agree rs c') {r : Reg} (hr : r ∉ rs) : c'.get r = c.get r := by
  simp only [Core.get, h.x r hr]

@[simp] theorem x_set {r : Reg} (hr : r ≠ 31) (v : Addr) : (c.set r v).x r = v := by
  rw [Core.set, if_neg hr]
  exact Function.update_self r v c.x

@[simp] theorem get_set {r : Reg} (hr : r ≠ 31) (v : Addr) : (c.set r v).get r = v := by
  rw [get, if_neg hr, x_set hr]

theorem get_set_ne {r q : Reg} (hq : q ≠ r) (v : Addr) : (c.set r v).get q = c.get q := by
  unfold get Core.set
  split_ifs <;> simp [Function.update_of_ne hq]

end Core

/-! ### Instructions -/

/-- A register named in a word. -/
def reg (w : Word) (lo : ℕ) : Reg := w.extractLsb' lo 5

/-- A distance counted in instructions. -/
def offset (w : Word) (lo width : ℕ) : Addr := (w.extractLsb' lo width ++ (0 : BitVec 2)).signExtend 64

def adrOffset (w : Word) : Addr := (w.extractLsb' 5 19 ++ w.extractLsb' 29 2).signExtend 64

def adrpOffset (w : Word) : Addr := (w.extractLsb' 5 19 ++ w.extractLsb' 29 2 ++ (0 : BitVec 12)).signExtend 64

def decode (w : Word) : Inst :=
  if w &&& 0xFC000000 = 0x14000000 then .b (offset w 0 26)
  else if w &&& 0xFF000010 = 0x54000000 then .branchIf (.cond (w.extractLsb' 0 4)) (offset w 5 19)
  else if w &&& 0xFC000000 = 0x94000000 then .bl (offset w 0 26)
  else if w &&& 0x9F000000 = 0x10000000 then .adr (reg w 0) (adrOffset w)
  else if w &&& 0x9F000000 = 0x90000000 then .adrp (reg w 0) (adrpOffset w)
  else if w &&& 0xFF000000 = 0x58000000 then .ldrX (reg w 0) (offset w 5 19)
  else if w &&& 0x7E000000 = 0x34000000 then
    .branchIf (.zero (w.getLsbD 31) (w.getLsbD 24) (reg w 0)) (offset w 5 19)
  else if w &&& 0x7E000000 = 0x36000000 then
    .branchIf (.bit (w.getLsbD 24) (w.extractLsb' 31 1 ++ w.extractLsb' 19 5).toNat (reg w 0)) (offset w 5 14)
  -- BR and RET
  else if w &&& 0xFFFFFC1F = 0xD61F0000 ∨ w &&& 0xFFFFFC1F = 0xD65F0000 then .br (reg w 5)
  else if w &&& 0xFFFFFC1F = 0xD63F0000 then .blr (reg w 5)
  -- in an addition register 31 is the stack pointer, which is not in the fragment
  else if w &&& 0xFFC00000 = 0x91000000 ∧ reg w 0 ≠ 31 ∧ reg w 5 ≠ 31 then
    .addImm (reg w 0) (reg w 5) ((w.extractLsb' 10 12).setWidth 64)
  -- NOP, and the landing pads of indirect branches
  else if w = 0xD503201F ∨ w &&& 0xFFFFFF3F = 0xD503241F then .nop
  else .other

def Test.holds (isa : Isa ρ) (c : Core ρ) : Test → Bool
  | .cond k => isa.cond k c.rest
  | .zero wide negated t => (if wide then c.get t == 0 else (c.get t).setWidth 32 == (0 : BitVec 32)) != negated
  | .bit negated n t => (c.get t).getLsbD n == negated

/-- Two words of the text as one. -/
def Text.word64 (text : Text) (a : Addr) : Option Addr :=
  (text a).bind fun lo => (text (a + 4)).map fun hi => hi ++ lo

/-- What an instruction makes of a core, and where it goes; `none` is on to the next. -/
def exec (isa : Isa ρ) (text : Text) (pc : Addr) (w : Word) (c : Core ρ) : Core ρ × Option Addr :=
  match decode w with
  | .b o => (c, some (pc + o))
  | .bl o => (c.set 30 (pc + 4), some (pc + o))
  | .branchIf t o => (c, if t.holds isa c then some (pc + o) else none)
  | .adr d o => (c.set d (pc + o), none)
  | .adrp d o => (c.set d ((pc &&& 0xFFFFFFFFFFFFF000) + o), none)
  | .ldrX t o => (c.set t ((text.word64 (pc + o)).getD (isa.load (pc + o) c.rest)), none)
  | .br n => (c, some (c.get n))
  | .blr n => (c.set 30 (pc + 4), some (c.get n))
  | .addImm d n imm => (c.set d (c.get n + imm), none)
  | .nop => (c, none)
  | .other => isa.other w pc c

def step (isa : Isa ρ) (text : Text) (s : State ρ) : Option (State ρ) :=
  (text s.pc).map fun w => ⟨(exec isa text s.pc w s.core).2.getD (s.pc + 4), (exec isa text s.pc w s.core).1⟩

/-- A run. -/
def Steps (isa : Isa ρ) (text : Text) : State ρ → State ρ → Prop :=
  Relation.ReflTransGen fun s s' => step isa text s = some s'

/-! ### Words by their fixed bits -/

section Decoding

variable {w m t m' t' : Word}

theorem and_fixed (h : w &&& m = t) (hsub : m &&& m' = m') : w &&& m' = t &&& m' := by
  rw [← h, BitVec.and_assoc, hsub]

theorem ne_of_fixed (h : w &&& m = t) (hne : t &&& m' ≠ t' &&& m) : w &&& m' ≠ t' := by
  intro h'
  apply hne
  rw [← h, ← h', BitVec.and_assoc, BitVec.and_assoc, BitVec.and_comm m m']

/-- Bits that are kept, and bits that are set. -/
theorem masked_and (w a b m : Word) : (w &&& a ||| b) &&& m = w &&& (a &&& m) ||| b &&& m := by
  ext i hi
  simp [Bool.and_or_distrib_right, Bool.and_assoc]

theorem decode_b (h : w &&& 0xFC000000 = 0x14000000) : decode w = .b (offset w 0 26) := if_pos h

theorem decode_branchCond (h : w &&& 0xFF000010 = 0x54000000) :
    decode w = .branchIf (.cond (w.extractLsb' 0 4)) (offset w 5 19) := by
  rw [decode, if_neg (ne_of_fixed h (by decide)), if_pos h]

theorem decode_bl (h : w &&& 0xFC000000 = 0x94000000) : decode w = .bl (offset w 0 26) := by
  rw [decode, if_neg (ne_of_fixed h (by decide)), if_neg (ne_of_fixed h (by decide)), if_pos h]

theorem decode_adr (h : w &&& 0x9F000000 = 0x10000000) : decode w = .adr (reg w 0) (adrOffset w) := by
  rw [decode, if_neg (ne_of_fixed h (by decide)), if_neg (ne_of_fixed h (by decide)),
    if_neg (ne_of_fixed h (by decide)), if_pos h]

theorem decode_adrp (h : w &&& 0x9F000000 = 0x90000000) : decode w = .adrp (reg w 0) (adrpOffset w) := by
  rw [decode, if_neg (ne_of_fixed h (by decide)), if_neg (ne_of_fixed h (by decide)),
    if_neg (ne_of_fixed h (by decide)), if_neg (ne_of_fixed h (by decide)), if_pos h]

theorem decode_ldrX (h : w &&& 0xFF000000 = 0x58000000) : decode w = .ldrX (reg w 0) (offset w 5 19) := by
  rw [decode, if_neg (ne_of_fixed h (by decide)), if_neg (ne_of_fixed h (by decide)),
    if_neg (ne_of_fixed h (by decide)), if_neg (ne_of_fixed h (by decide)), if_neg (ne_of_fixed h (by decide)), if_pos h]

theorem decode_branchZero (h : w &&& 0x7E000000 = 0x34000000) :
    decode w = .branchIf (.zero (w.getLsbD 31) (w.getLsbD 24) (reg w 0)) (offset w 5 19) := by
  rw [decode, if_neg (ne_of_fixed h (by decide)), if_neg (ne_of_fixed h (by decide)),
    if_neg (ne_of_fixed h (by decide)), if_neg (ne_of_fixed h (by decide)), if_neg (ne_of_fixed h (by decide)),
    if_neg (ne_of_fixed h (by decide)), if_pos h]

theorem decode_branchBit (h : w &&& 0x7E000000 = 0x36000000) :
    decode w = .branchIf (.bit (w.getLsbD 24) (w.extractLsb' 31 1 ++ w.extractLsb' 19 5).toNat (reg w 0))
      (offset w 5 14) := by
  rw [decode, if_neg (ne_of_fixed h (by decide)), if_neg (ne_of_fixed h (by decide)),
    if_neg (ne_of_fixed h (by decide)), if_neg (ne_of_fixed h (by decide)), if_neg (ne_of_fixed h (by decide)),
    if_neg (ne_of_fixed h (by decide)), if_neg (ne_of_fixed h (by decide)), if_pos h]

/-- The target of a branch is some instructions away. -/
theorem offset_aligned (w : Word) (lo width : ℕ) (hw : width ≤ 62) : (offset w lo width).toNat % 4 = 0 := by
  have hwidth : (offset w lo width).setWidth 2 = 0 := by
    ext i hi
    have hin : i < width + 2 := by omega
    have hzeros : (w.extractLsb' lo width ++ (0 : BitVec 2)).getLsbD i = false := by
      rw [BitVec.getLsbD_append, if_pos hi]
      simp
    rw [BitVec.getElem_setWidth, offset, BitVec.getLsbD_signExtend, if_pos hin, hzeros]
    simp
  have hnat := congrArg BitVec.toNat hwidth
  simpa using hnat

/-- A branch goes to an instruction. -/
def Inst.Aligned : Inst → Prop
  | .b o | .bl o | .branchIf _ o => o.toNat % 4 = 0
  | _ => True

theorem Inst.aligned_ite {p : Prop} [Decidable p] {i j : Inst} (hi : i.Aligned) (hj : j.Aligned) :
    (if p then i else j).Aligned := by
  by_cases hp : p
  · rwa [if_pos hp]
  · rwa [if_neg hp]

theorem decode_aligned (w : Word) : (decode w).Aligned := by
  unfold decode
  repeat' apply Inst.aligned_ite
  all_goals first
    | exact offset_aligned w 0 26 (by decide)
    | exact offset_aligned w 5 19 (by decide)
    | exact offset_aligned w 5 14 (by decide)
    | exact trivial

end Decoding

/-! ### Words in the text -/

/-- These words stand at an address. -/
def At (text : Text) : Addr → List Word → Prop
  | _, [] => True
  | a, w :: ws => text a = some w ∧ At text (a + 4) ws

/-- The text with words written at an address. -/
def poke (text : Text) (a : Addr) (ws : List Word) : Text := fun b =>
  if (b - a).toNat % 4 = 0 then ws[(b - a).toNat / 4]?.or (text b) else text b

/-- The address of an instruction some way on. -/
def instAddr (a : Addr) (k : ℕ) : Addr := a + BitVec.ofNat 64 (4 * k)

@[simp] theorem instAddr_zero (a : Addr) : instAddr a 0 = a := by simp [instAddr]

theorem instAddr_add (a : Addr) (j k : ℕ) : instAddr (instAddr a j) k = instAddr a (j + k) := by
  simp only [instAddr, BitVec.add_assoc, ← BitVec.ofNat_add, Nat.mul_add]

theorem instAddr_succ (a : Addr) (k : ℕ) : instAddr a k + 4 = instAddr a (k + 1) := by
  rw [← instAddr_add]
  rfl

theorem instAddr_succ' (a : Addr) (k : ℕ) : instAddr (a + 4) k = instAddr a (k + 1) := by
  rw [Nat.add_comm, ← instAddr_add]
  rfl

theorem instAddr_sub (a : Addr) {k : ℕ} (hk : 4 * k < 2 ^ 64) : (instAddr a k - a).toNat = 4 * k := by
  rw [instAddr, BitVec.add_comm, BitVec.add_sub_cancel, BitVec.toNat_ofNat]
  omega

variable {text text' : Text} {a : Addr} {ws ws' : List Word}

theorem at_iff : At text a ws ↔ ∀ k w, ws[k]? = some w → text (instAddr a k) = some w := by
  induction ws generalizing a with
  | nil => simp [At]
  | cons w ws ih =>
    rw [At, ih]
    constructor
    · intro h k v hk
      cases k with
      | zero => simpa [h.1] using hk
      | succ k =>
        rw [← instAddr_succ']
        exact h.2 k v hk
    · intro h
      refine ⟨by simpa using h 0 w rfl, fun k v hk => ?_⟩
      rw [instAddr_succ']
      exact h (k + 1) v hk

theorem at_append : At text a (ws ++ ws') ↔ At text a ws ∧ At text (instAddr a ws.length) ws' := by
  induction ws generalizing a with
  | nil => simp [At]
  | cons w ws ih => simp only [List.cons_append, At, ih, instAddr_succ', List.length_cons, and_assoc]

/-- A block among blocks. -/
theorem At.block {blocks : List (List Word)} (h : At text a blocks.flatten) {i : ℕ} {block : List Word}
    (hi : blocks[i]? = some block) : At text (instAddr a (blocks.take i).flatten.length) block := by
  have hsplit : blocks = blocks.take i ++ block :: blocks.drop (i + 1) := by
    obtain ⟨hlt, rfl⟩ := List.getElem?_eq_some_iff.mp hi
    rw [← List.drop_eq_getElem_cons hlt, List.take_append_drop]
  rw [hsplit, List.flatten_append, List.flatten_cons, at_append, at_append] at h
  exact h.2.1

theorem At.get {k : ℕ} {w : Word} (h : At text a ws) (hk : ws[k]? = some w) : text (instAddr a k) = some w :=
  at_iff.mp h k w hk

/-- **What was written** is read. -/
theorem poke_at (hlen : 4 * ws.length ≤ 2 ^ 64) : At (poke text a ws) a ws := by
  rw [at_iff]
  intro k w hk
  have hlt : k < ws.length := (List.getElem?_eq_some_iff.mp hk).1
  have hsub := instAddr_sub a (show 4 * k < 2 ^ 64 by omega)
  simp [poke, hsub, hk]

/-- **Words elsewhere** stay. -/
theorem poke_apart {b : Addr} (hapart : ∀ i < ws'.length, ∀ k < ws.length, instAddr b i ≠ instAddr a k)
    (h : At text b ws') : At (poke text a ws) b ws' := by
  rw [at_iff] at h ⊢
  intro i w hi
  have hlt : i < ws'.length := (List.getElem?_eq_some_iff.mp hi).1
  unfold poke
  split_ifs with hfour
  · have hnone : ws[(instAddr b i - a).toNat / 4]? = none := by
      rw [List.getElem?_eq_none_iff]
      by_contra hin
      refine hapart i hlt _ (Nat.not_le.mp hin) ?_
      rw [instAddr.eq_def a, Nat.mul_div_cancel' (Nat.dvd_of_mod_eq_zero hfour), BitVec.ofNat_toNat, BitVec.setWidth_eq,
        BitVec.add_comm, BitVec.sub_add_cancel]
    rw [hnone, Option.none_or]
    exact h i w hi
  · exact h i w hi

/-! ### Runs -/

theorem Steps.refl (isa : Isa ρ) (text : Text) (s : State ρ) : Steps isa text s s := Relation.ReflTransGen.refl

theorem Steps.trans {isa : Isa ρ} {s s' s'' : State ρ} (h : Steps isa text s s') (h' : Steps isa text s' s'') :
    Steps isa text s s'' := Relation.ReflTransGen.trans h h'

section Instructions

variable {isa : Isa ρ} {pc v : Addr} {w : Word} {c : Core ρ} {n : Reg} (hw : text pc = some w)
include hw

theorem step_eq : step isa text ⟨pc, c⟩ = some ⟨(exec isa text pc w c).2.getD (pc + 4), (exec isa text pc w c).1⟩ := by
  simp [step, hw]

theorem steps_exec (isa : Isa ρ) (c : Core ρ) :
    Steps isa text ⟨pc, c⟩ ⟨(exec isa text pc w c).2.getD (pc + 4), (exec isa text pc w c).1⟩ :=
  Relation.ReflTransGen.single (step_eq hw)

theorem steps_br (hd : decode w = .br n) (hv : c.get n = v) : Steps isa text ⟨pc, c⟩ ⟨v, c⟩ := by
  simpa [exec, hd, hv] using steps_exec hw isa c

end Instructions

/-! Runs from one instruction of a block to another. -/

section Blocks

variable {isa : Isa ρ} {v : Addr} {k : ℕ} {w : Word} {c : Core ρ} {d n : Reg}
  (hw : text (instAddr a k) = some w)
include hw

theorem block_b (m : ℕ) (hd : decode w = .b (BitVec.ofNat 64 (4 * m))) :
    Steps isa text ⟨instAddr a k, c⟩ ⟨instAddr a (k + m), c⟩ := by
  rw [← instAddr_add]
  simpa [exec, hd, instAddr] using steps_exec hw isa c

theorem block_ldrX (m : ℕ) (hd : decode w = .ldrX d (BitVec.ofNat 64 (4 * m)))
    (hv : text.word64 (instAddr a (k + m)) = some v) :
    Steps isa text ⟨instAddr a k, c⟩ ⟨instAddr a (k + 1), c.set d v⟩ := by
  rw [← instAddr_add] at hv
  rw [← instAddr_succ]
  have hoffset : text.word64 (instAddr a k + BitVec.ofNat 64 (4 * m)) = some v := hv
  simpa only [exec, hd, hoffset, Option.getD_some, Option.getD_none] using steps_exec hw isa c

theorem block_adr (hd : decode w = .adr d 0) :
    Steps isa text ⟨instAddr a k, c⟩ ⟨instAddr a (k + 1), c.set d (instAddr a k)⟩ := by
  rw [← instAddr_succ]
  simpa [exec, hd] using steps_exec hw isa c

theorem block_addImm {imm : Addr} (hd : decode w = .addImm d n imm) :
    Steps isa text ⟨instAddr a k, c⟩ ⟨instAddr a (k + 1), c.set d (c.get n + imm)⟩ := by
  rw [← instAddr_succ]
  simpa [exec, hd] using steps_exec hw isa c

theorem block_nop (hd : decode w = .nop) : Steps isa text ⟨instAddr a k, c⟩ ⟨instAddr a (k + 1), c⟩ := by
  rw [← instAddr_succ]
  simpa [exec, hd] using steps_exec hw isa c

theorem block_branchIf {t : Test} (m : ℕ) (hd : decode w = .branchIf t (BitVec.ofNat 64 (4 * m))) :
    Steps isa text ⟨instAddr a k, c⟩ ⟨if t.holds isa c then instAddr a (k + m) else instAddr a (k + 1), c⟩ := by
  have hsteps := steps_exec hw isa c
  simp only [exec, hd] at hsteps
  rw [← instAddr_succ, ← instAddr_add]
  split_ifs at hsteps ⊢ <;> exact hsteps

end Blocks

/-- **A simulation of runs** by one of steps: what is related stays so. -/
theorem simulates {σ τ : Type} {r : σ → σ → Prop} {r' : τ → τ → Prop} {R : σ → τ → Prop}
    (hstep : ∀ s t s', R s t → r s s' → ∃ t', Relation.ReflTransGen r' t t' ∧ R s' t') {s s' : σ} {t : τ}
    (h : Relation.ReflTransGen r s s') (hR : R s t) : ∃ t', Relation.ReflTransGen r' t t' ∧ R s' t' := by
  induction h with
  | refl => exact ⟨t, .refl, hR⟩
  | tail _ hlast ih =>
    obtain ⟨u, hu, hRu⟩ := ih
    obtain ⟨t', ht', hRt'⟩ := hstep _ u _ hRu hlast
    exact ⟨t', hu.trans ht', hRt'⟩

end KernelSU.Lib.Arm64
