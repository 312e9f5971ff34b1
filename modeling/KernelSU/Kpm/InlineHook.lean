import KernelSU.Lib.Arm64
import KernelSU.Lib.Fallible

/-!
# `kpm/kernel/base/hook.c` — moving the first instructions of a function

A jump to the replacement is written over the first instructions of a function.  They are moved to a buffer, each in a form
that does at its new place what it did at the old one, and behind them stands a jump back.

* `relocateInst`, `hookPrepare` — the buffer and the jump;
* `Hook.text` — the text once both are in place;
* `hookPrepare_ok` — **PROVED**: what was prepared.
-/

namespace KernelSU.Kpm

open KernelSU.Lib KernelSU.Lib.Arm64

/-! ### Instructions by their form -/

/-- `bits32`. -/
def bits32 (n : Word) (high low : ℕ) : Word := (n <<< (31 - high)) >>> (31 - high + low)

/-- `sign64_extend`. -/
def sign64Extend (n : Addr) (len : ℕ) : Addr :=
  if (n <<< (63 - (len - 1))) >>> 63 ≠ 0 then n ||| ((0xFFFFFFFFFFFFFFFF : Addr) <<< len) else n

/-- `inst_type_t`. -/
inductive InstType where
  | B | BC | BL | ADR | ADRP | LDR_32 | LDR_64 | LDRSW_LIT | PRFM_LIT | LDR_SIMD_32 | LDR_SIMD_64 | LDR_SIMD_128
  | CBZ | CBNZ | TBZ | TBNZ | IGNORE
  deriving DecidableEq

/-- An entry of `masks`, `types` and `relo_len`. -/
structure InstClass where
  type : InstType
  mask : Word
  inst : Word
  reloLen : ℕ

def classes : List InstClass :=
  [⟨.B, 0xFC000000, 0x14000000, 6⟩,
    ⟨.BC, 0xFF000010, 0x54000000, 8⟩,
    ⟨.BL, 0xFC000000, 0x94000000, 8⟩,
    ⟨.ADR, 0x9F000000, 0x10000000, 4⟩,
    ⟨.ADRP, 0x9F000000, 0x90000000, 4⟩,
    ⟨.LDR_32, 0xFF000000, 0x18000000, 6⟩,
    ⟨.LDR_64, 0xFF000000, 0x58000000, 6⟩,
    ⟨.LDRSW_LIT, 0xFF000000, 0x98000000, 6⟩,
    ⟨.PRFM_LIT, 0xFF000000, 0xD8000000, 8⟩,
    ⟨.LDR_SIMD_32, 0xFF000000, 0x1C000000, 8⟩,
    ⟨.LDR_SIMD_64, 0xFF000000, 0x5C000000, 8⟩,
    ⟨.LDR_SIMD_128, 0xFF000000, 0x9C000000, 8⟩,
    ⟨.CBZ, 0x7F000000, 0x34000000, 6⟩,
    ⟨.CBNZ, 0x7F000000, 0x35000000, 6⟩,
    ⟨.TBZ, 0x7F000000, 0x36000000, 6⟩,
    ⟨.TBNZ, 0x7F000000, 0x37000000, 6⟩,
    ⟨.IGNORE, 0, 0, 2⟩]

/-- The first entry that an instruction matches. -/
def classOf (inst : Word) : Option InstClass := classes.find? fun k => inst &&& k.mask = k.inst

/-- `relo_len` of the entry. -/
def reloLen (inst : Word) : ℕ := (classOf inst).elim 0 InstClass.reloLen

/-! ### The hook -/

def ARM64_NOP : Word := 0xd503201f
def ARM64_BTI_JC : Word := 0xd50324df
def ARM64_PACIASP : Word := 0xd503233f
def ARM64_PACIBSP : Word := 0xd503237f

def TRAMPOLINE_MAX_NUM : ℕ := 6
def RELOCATE_INST_NUM : ℕ := 4 * 8 + 8 - 4

/-- `hook_err_t`. -/
inductive HookErr where
  | HOOK_BAD_ADDRESS | HOOK_DUPLICATED | HOOK_NO_MEM | HOOK_BAD_RELO | HOOK_TRANSIT_NO_MEM | HOOK_CHAIN_FULL
  deriving DecidableEq

/-- `hook_t`.  The number of the trampoline's instructions is the length of their list. -/
structure Hook where
  funcAddr : Addr
  originAddr : Addr
  replaceAddr : Addr
  reloAddr : Addr
  originInsts : List Word
  trampInsts : List Word
  reloInsts : List Word
  deriving DecidableEq

/-- `is_in_tramp`. -/
def isInTramp (h : Hook) (addr : Addr) : Bool :=
  decide (h.originAddr ≤ addr ∧ addr < instAddr h.originAddr h.trampInsts.length)

/-- `relo_in_tramp`: where an instruction that is moved is moved to. -/
def reloInTramp (h : Hook) (addr : Addr) : Addr :=
  if isInTramp h addr then
    (h.originInsts.take ((addr - h.originAddr).toNat / 4)).foldl
      (fun fixAddr inst => instAddr fixAddr (reloLen inst)) h.reloAddr
  else addr

/-! ### Instructions at their new place -/

/-- The halves of an address, as they stand in the text. -/
def words (addr : Addr) : List Word := [(addr &&& 0xFFFFFFFF).setWidth 32, (addr >>> 32).setWidth 32]

/-- `relo_b`. -/
def reloB (h : Hook) (instAddr : Addr) (inst : Word) (type : InstType) : List Word :=
  let imm64 :=
    if type = .BC then sign64Extend ((bits32 inst 23 5).setWidth 64 <<< 2) 21
    else sign64Extend ((bits32 inst 25 0).setWidth 64 <<< 2) 28
  let addr := reloInTramp h (instAddr + imm64)
  -- B.<cond> #8; B #24
  (if type = .BC then [(inst &&& 0xFF00001F) ||| 0x40, 0x14000006] else []) ++
  -- LDR X17, #8; B #12
  [0x58000051, 0x14000003] ++ words addr ++
  -- ADR X30, .; ADD X30, X30, #12; RET X17
  (if type = .BL then [0x1000001E, 0x910033DE, 0xD65F0220] else [0xD65F0220]) ++ [ARM64_NOP]

/-- `relo_adr`. -/
def reloAdr (h : Hook) (instAddr : Addr) (inst : Word) (type : InstType) : Option (List Word) :=
  let xd := bits32 inst 4 0
  let immlo : Addr := (bits32 inst 30 29).setWidth 64
  let immhi : Addr := (bits32 inst 23 5).setWidth 64
  -- LDR Xd, #8; B #12
  let moved := fun addr => [0x58000040 ||| xd, 0x14000003] ++ words addr
  if type = .ADR then some (moved (instAddr + sign64Extend ((immhi <<< 2) ||| immlo) 21))
  else
    let addr := (instAddr + sign64Extend ((immhi <<< 14) ||| (immlo <<< 12)) 33) &&& 0xFFFFFFFFFFFFF000
    if isInTramp h addr then none else some (moved addr)

/-- `relo_ldr`. -/
def reloLdr (h : Hook) (instAddr : Addr) (inst : Word) (type : InstType) : Option (List Word) :=
  let rt := bits32 inst 4 0
  let offset := sign64Extend ((bits32 inst 23 5).setWidth 64 <<< 2) 21
  if isInTramp h (instAddr + offset) ∧ type ≠ .PRFM_LIT then none
  else
    let addr := reloInTramp h (instAddr + offset)
    if type = .LDR_32 ∨ type = .LDR_64 ∨ type = .LDRSW_LIT then
      -- LDR Xt, #12; LDR Wt, LDR Xt or LDRSW Xt, [Xt]; B #16
      some ([0x58000060 ||| rt,
        (if type = .LDR_32 then 0xB9400000 else if type = .LDR_64 then 0xF9400000 else 0xB9800000) ||| rt ||| (rt <<< 5),
        0x14000004, ARM64_NOP] ++ words addr)
    else
      -- STP X16, X17, [SP, -0x10]; LDR X17, #16; PRFM Rt or LDR, [X17]; LDR X17, [SP, -0x8]; B #16
      some ([0xA93F47F0, 0x58000091,
        (if type = .PRFM_LIT then 0xF9800220 else if type = .LDR_SIMD_32 then 0xBD400220
          else if type = .LDR_SIMD_64 then 0xFD400220 else 0x3DC00220) ||| rt,
        0xF85F83F1, 0x14000004, ARM64_NOP] ++ words addr)

/-- `relo_cb`. -/
def reloCb (h : Hook) (instAddr : Addr) (inst : Word) : List Word :=
  let offset := sign64Extend ((bits32 inst 23 5).setWidth 64 <<< 2) 21
  -- CB(N)Z Rt, #8; B #20; LDR X17, #8; RET X17
  [(inst &&& 0xFF00001F) ||| 0x40, 0x14000005, 0x58000051, 0xD65F0220] ++ words (reloInTramp h (instAddr + offset))

/-- `relo_tb`. -/
def reloTb (h : Hook) (instAddr : Addr) (inst : Word) : List Word :=
  let offset := sign64Extend ((bits32 inst 18 5).setWidth 64 <<< 2) 16
  -- TB(N)Z Rt, #<imm>, #8; B #20; LDR X17, #8; BR X17
  [(inst &&& 0xFFF8001F) ||| 0x40, 0x14000005, 0x58000051, 0xd61f0220] ++ words (reloInTramp h (instAddr + offset))

/-- `relo_ignore`. -/
def reloIgnore (inst : Word) : List Word := [inst, ARM64_NOP]

/-- `relocate_inst`: `none` where the instruction cannot be moved. -/
def relocateInst (h : Hook) (instAddr : Addr) (inst : Word) : Option (List Word) :=
  let it := (classOf inst).elim .IGNORE InstClass.type
  match it with
  | .B | .BC | .BL => some (reloB h instAddr inst it)
  | .ADR | .ADRP => reloAdr h instAddr inst it
  | .LDR_32 | .LDR_64 | .LDRSW_LIT | .PRFM_LIT | .LDR_SIMD_32 | .LDR_SIMD_64 | .LDR_SIMD_128 =>
    reloLdr h instAddr inst it
  | .CBZ | .CBNZ => some (reloCb h instAddr inst)
  | .TBZ | .TBNZ => some (reloTb h instAddr inst)
  | .IGNORE => some (reloIgnore inst)

/-- The instructions that the jump takes the place of, each in its new form. -/
def relocate (h : Hook) : Option (List (List Word)) :=
  (List.range h.trampInsts.length).mapM fun i => relocateInst h (instAddr h.originAddr i) (h.originInsts.getD i 0)

/-- `ret_absolute`: LDR X17, #8; RET X17. -/
def retAbsolute (addr : Addr) : List Word := [0x58000051, 0xD65F0220] ++ words addr

/-- `branch_from_to`. -/
def branchFromTo (dstAddr : Addr) : List Word := retAbsolute dstAddr

/-! ### `hook_prepare` -/

/-- `is_bad_address`. -/
def isBadAddress (addr : Addr) : Bool := addr &&& 0x8000000000000000 ≠ 0x8000000000000000

/-- An error, a read of memory that is not there, or a write behind the end of the buffer. -/
inductive Failure where
  | err (e : HookErr)
  | fault
  | overrun
  deriving DecidableEq

/-- The jump to the replacement, behind a landing pad where the function begins with one. -/
def trampoline (h : Hook) (originInsts : List Word) : List Word :=
  if originInsts.head? = some ARM64_PACIASP ∨ originInsts.head? = some ARM64_PACIBSP then
    ARM64_BTI_JC :: branchFromTo h.replaceAddr
  else branchFromTo h.replaceAddr

/-- `hook_prepare`. -/
def hookPrepare (text : Text) (h : Hook) : Except Failure Hook :=
  if isBadAddress h.funcAddr ∨ isBadAddress h.originAddr ∨ isBadAddress h.replaceAddr ∨ isBadAddress h.reloAddr then
    .error (.err .HOOK_BAD_ADDRESS)
  else
    ((List.range TRAMPOLINE_MAX_NUM).mapM fun i => text (instAddr h.originAddr i)).elim (.error .fault) fun originInsts =>
      let h := { h with originInsts := originInsts, trampInsts := trampoline h originInsts }
      (relocate h).elim (.error (.err .HOOK_BAD_RELO)) fun blocks =>
        let relo := blocks.flatten ++ branchFromTo (instAddr h.originAddr h.trampInsts.length)
        if RELOCATE_INST_NUM < relo.length then .error .overrun
        else .ok { h with reloInsts := relo ++ List.replicate (RELOCATE_INST_NUM - relo.length) ARM64_NOP }

/-- The text with the buffer in place, and once `hook_install` has written the jump. -/
def Hook.text (h : Hook) (text : Text) : Text := poke (poke text h.reloAddr h.reloInsts) h.originAddr h.trampInsts

/-! ### What was prepared -/

/-- The buffer holds each instruction in its new form and the jump back. -/
structure Prepared (text : Text) (h : Hook) : Prop where
  origin : At text h.originAddr h.originInsts
  originLength : h.originInsts.length = TRAMPOLINE_MAX_NUM
  tramp : h.trampInsts = retAbsolute h.replaceAddr ∨ h.trampInsts = ARM64_BTI_JC :: retAbsolute h.replaceAddr
  relo : ∃ blocks pad, relocate h = some blocks ∧
    h.reloInsts = blocks.flatten ++ (retAbsolute (instAddr h.originAddr h.trampInsts.length) ++ pad)
  room : h.reloInsts.length = RELOCATE_INST_NUM

/-- **What was prepared.** -/
theorem hookPrepare_ok {text : Text} {h p : Hook} (hp : hookPrepare text h = .ok p) :
    Prepared text p ∧ p.funcAddr = h.funcAddr ∧ p.originAddr = h.originAddr ∧ p.replaceAddr = h.replaceAddr ∧
      p.reloAddr = h.reloAddr := by
  unfold hookPrepare at hp
  split_ifs at hp with hbad
  cases hread : (List.range TRAMPOLINE_MAX_NUM).mapM fun i => text (instAddr h.originAddr i) with
  | none => simp [hread] at hp
  | some insts =>
    simp only [hread, Option.elim_some] at hp
    generalize hq : ({ h with originInsts := insts, trampInsts := trampoline h insts } : Hook) = q at hp
    cases hblocks : relocate q with
    | none => simp [hblocks] at hp
    | some blocks =>
      simp only [hblocks, Option.elim_some] at hp
      split_ifs at hp with hover
      obtain rfl := Except.ok.inj hp
      have hmap := mapM_eq_some.mp hread
      have hlength : insts.length = TRAMPOLINE_MAX_NUM := by simpa using (congrArg List.length hmap).symm
      subst hq
      refine ⟨⟨?_, hlength, ?_, ⟨blocks, _, hblocks, List.append_assoc _ _ _⟩, ?_⟩, rfl, rfl, rfl, rfl⟩
      · refine at_iff.mpr fun k w hk => ?_
        have hget := congrArg (·[k]?) hmap
        have hlt : k < TRAMPOLINE_MAX_NUM := hlength ▸ (List.getElem?_eq_some_iff.mp hk).1
        simpa [hk, List.getElem?_range hlt] using hget
      · simp only [trampoline, branchFromTo]
        split_ifs
        · exact .inr rfl
        · exact .inl rfl
      · simp only [List.length_append, List.length_replicate] at hover ⊢
        omega

end KernelSU.Kpm
