import KernelSU.Kpm.MovedRuns

/-!
# What a hooked function does

* `Placed` — where the buffer is;
* `Onward`, `Calling` — the steps of the first instructions;
* `Hooked` — the function runs its replacement, and the buffer runs the function;
* `hookPrepare_hooked` — **PROVED**: so it is after `hook_prepare` and `hook_install`.
-/

namespace KernelSU.Kpm

open KernelSU.Lib KernelSU.Lib.Arm64

variable {ρ : Type} {isa : Isa ρ} {text : Text} {h : Hook}

/-! ### Places -/

/-- The first instructions do not end behind the last address, and the buffer is elsewhere. -/
structure Placed (h : Hook) : Prop where
  fits : h.originAddr.toNat + 4 * h.trampInsts.length < 2 ^ 64
  apart : ∀ i < RELOCATE_INST_NUM, ∀ k < h.trampInsts.length, instAddr h.reloAddr i ≠ instAddr h.originAddr k

theorem Placed.isInTramp_iff (hp : Placed h) (a : Addr) :
    isInTramp h a = true ↔ (a - h.originAddr).toNat < 4 * h.trampInsts.length := by
  have hfits := hp.fits
  have ha := a.isLt
  have ho := h.originAddr.isLt
  simp only [isInTramp, decide_eq_true_eq, BitVec.le_def, BitVec.lt_def, BitVec.toNat_sub, instAddr, BitVec.toNat_add,
    BitVec.toNat_ofNat]
  omega

theorem Placed.isInTramp_instAddr (hp : Placed h) {i : ℕ} (hi : i < h.trampInsts.length) :
    isInTramp h (instAddr h.originAddr i) = true := by
  have hfits := hp.fits
  rw [hp.isInTramp_iff, instAddr_sub _ (by omega)]
  omega

/-- An address among the first instructions that is some instructions away from them is one of theirs. -/
theorem Placed.exists_instAddr (hp : Placed h) {a : Addr} (ha : isInTramp h a = true)
    (hfour : (a - h.originAddr).toNat % 4 = 0) : ∃ i < h.trampInsts.length, a = instAddr h.originAddr i := by
  rw [hp.isInTramp_iff] at ha
  refine ⟨(a - h.originAddr).toNat / 4, by omega, ?_⟩
  rw [instAddr, Nat.mul_div_cancel' (Nat.dvd_of_mod_eq_zero hfour), BitVec.ofNat_toNat, BitVec.setWidth_eq,
    BitVec.add_comm, BitVec.sub_add_cancel]

theorem Prepared.tramp_length (hp : Prepared text h) : h.trampInsts.length ≤ h.originInsts.length := by
  rw [hp.originLength]
  obtain htramp | htramp := hp.tramp <;> rw [htramp] <;> simp [retAbsolute, words, TRAMPOLINE_MAX_NUM]

/-! ### The buffer -/

/-- The words of an instruction are as many as the table says. -/
theorem relocateInst_length {pc : Addr} {w : Word} {block : List Word} (hmoved : relocateInst h pc w = some block) :
    block.length = reloLen w := by
  obtain ⟨k, hk, hcase⟩ := classOf_cases w
  simp only [relocateInst, reloLen, hk, Option.elim_some] at hmoved ⊢
  obtain ⟨hmem, -⟩ | ⟨rfl, -⟩ := hcase
  · simp only [formClasses, classes, List.dropLast, List.mem_cons, List.not_mem_nil, or_false] at hmem
    obtain rfl | rfl | rfl | rfl | rfl | rfl | rfl | rfl | rfl | rfl | rfl | rfl | rfl | rfl | rfl | rfl := hmem <;>
      simp [reloB, reloAdr, reloLdr, reloCb, reloTb] at hmoved <;>
      first
        | (subst hmoved; simp [words])
        | (obtain ⟨-, rfl⟩ := hmoved; simp [words])
  · obtain rfl : [w, ARM64_NOP] = block := by simpa [ignoreClass, reloIgnore] using hmoved
    rfl

variable {blocks : List (List Word)}

theorem length_of_relocate (hb : relocate h = some blocks) : blocks.length = h.trampInsts.length := by
  have hlength := congrArg List.length (mapM_eq_some.mp hb)
  simpa using hlength.symm

/-- Each instruction that is moved has its words. -/
theorem exists_block (hb : relocate h = some blocks) {i : ℕ} (hi : i < h.trampInsts.length) :
    ∃ block, blocks[i]? = some block ∧
      relocateInst h (instAddr h.originAddr i) (h.originInsts.getD i 0) = some block := by
  have hget := congrArg (·[i]?) (mapM_eq_some.mp hb)
  simp only [List.getElem?_map, List.getElem?_range hi, Option.map_some] at hget
  cases hblock : blocks[i]? with
  | none => simp [hblock] at hget
  | some block =>
    refine ⟨block, rfl, ?_⟩
    simpa [hblock] using hget

/-- **Where an instruction is moved to.** -/
theorem foldl_moved (hb : relocate h = some blocks) (hlen : h.trampInsts.length ≤ h.originInsts.length) {i : ℕ}
    (hi : i ≤ h.trampInsts.length) :
    (h.originInsts.take i).foldl (fun a w => instAddr a (reloLen w)) h.reloAddr =
      instAddr h.reloAddr (blocks.take i).flatten.length := by
  induction i with
  | zero => simp
  | succ i ih =>
    obtain ⟨block, hblock, hmoved⟩ := exists_block hb (show i < h.trampInsts.length from hi)
    have hlt : i < h.originInsts.length := by omega
    rw [List.getD_eq_getElem?_getD, List.getElem?_eq_getElem hlt, Option.getD_some] at hmoved
    rw [List.take_add_one, List.take_add_one, hblock, List.getElem?_eq_getElem hlt, List.foldl_append, ih (by omega),
      List.flatten_append, List.length_append, Option.toList_some, Option.toList_some, List.foldl_cons, List.foldl_nil,
      ← relocateInst_length hmoved, instAddr_add]
    simp

theorem Placed.reloInTramp_instAddr (hp : Placed h) (hb : relocate h = some blocks)
    (hlen : h.trampInsts.length ≤ h.originInsts.length) {i : ℕ} (hi : i < h.trampInsts.length) :
    reloInTramp h (instAddr h.originAddr i) = instAddr h.reloAddr (blocks.take i).flatten.length := by
  have hfits := hp.fits
  rw [reloInTramp, if_pos (hp.isInTramp_instAddr hi), instAddr_sub _ (by omega), Nat.mul_div_cancel_left i (by decide)]
  exact foldl_moved hb hlen hi.le

/-! ### The first instructions -/

/-- A step of the first instructions that makes no call.  It goes to none of them by a register: what stands at their
addresses now is the jump. -/
structure Onward (isa : Isa ρ) (text : Text) (h : Hook) (s s' : State ρ) : Prop where
  inside : isInTramp h s.pc = true
  next : step isa text s = some s'
  noCall : ∀ w, text s.pc = some w → isCall (decode w) = false
  direct : ∀ w t, text s.pc = some w → isIndirect (decode w) = true → (exec isa text s.pc w s.core).2 = some t →
    isInTramp h t = false

/-- A call by one of them, and to none of them by a register. -/
structure Calling (isa : Isa ρ) (text : Text) (h : Hook) (s s' : State ρ) : Prop where
  inside : isInTramp h s.pc = true
  next : step isa text s = some s'
  call : ∀ w, text s.pc = some w → isCall (decode w) = true
  direct : ∀ w t, text s.pc = some w → isIndirect (decode w) = true → (exec isa text s.pc w s.core).2 = some t →
    isInTramp h t = false

/-- `t` is where the buffer is when the first instructions are at `s`. -/
structure Alongside (h : Hook) (s t : State ρ) : Prop where
  pc : t.pc = reloInTramp h s.pc
  core : s.core.Agree [17] t.core
  aligned : isInTramp h s.pc = true → ∃ i < h.trampInsts.length, s.pc = instAddr h.originAddr i

/-- The called function is called from the buffer, with a return address from which the buffer goes on where the first
instructions would. -/
structure CalledAlongside (isa : Isa ρ) (text : Text) (h : Hook) (s s' t' : State ρ) : Prop where
  pc : t'.pc = reloInTramp h s'.pc
  core : s'.core.Agree [17, 30] t'.core
  link : s'.core.x 30 = s.pc + 4
  returns : ∀ c, ∃ c', Steps isa (h.text text) ⟨t'.core.x 30, c⟩ ⟨reloInTramp h (s.pc + 4), c'⟩ ∧ c.Agree [17] c'

/-- **What a hooked function does.** -/
structure Hooked (isa : Isa ρ) (text : Text) (h : Hook) : Prop where
  replaced : ∀ c, ∃ c', Steps isa (h.text text) ⟨h.originAddr, c⟩ ⟨h.replaceAddr, c'⟩ ∧ c.Agree [17] c'
  entry : reloInTramp h h.originAddr = h.reloAddr
  runs : ∀ s t s', Alongside h s t → Relation.ReflTransGen (Onward isa text h) s s' →
    ∃ t', Steps isa (h.text text) t t' ∧ Alongside h s' t'
  calls : ∀ s t s', Alongside h s t → Calling isa text h s s' →
    ∃ t', Steps isa (h.text text) t t' ∧ CalledAlongside isa text h s s' t'

theorem at_tramp (hp : Prepared text h) : At (h.text text) h.originAddr h.trampInsts := by
  have hlen := hp.tramp_length
  rw [hp.originLength, TRAMPOLINE_MAX_NUM] at hlen
  exact poke_at (by omega)

theorem at_relo (hp : Prepared text h) (hpl : Placed h) : At (h.text text) h.reloAddr h.reloInsts := by
  refine poke_apart (fun i hi k hk => hpl.apart i (hp.room ▸ hi) k hk) (poke_at ?_)
  rw [hp.room]
  decide

/-- A call of the function runs the replacement. -/
theorem steps_replaced (hp : Prepared text h) (c : Core ρ) :
    Steps isa (h.text text) ⟨h.originAddr, c⟩ ⟨h.replaceAddr, c.set 17 h.replaceAddr⟩ := by
  have hat := at_tramp hp
  obtain htramp | htramp := hp.tramp
  · rw [htramp] at hat
    exact steps_retAbsolute hat
  · rw [htramp] at hat
    have hpad : Steps isa (h.text text) ⟨h.originAddr, c⟩ ⟨h.originAddr + 4, c⟩ := by
      have hnop : Steps isa (h.text text) ⟨instAddr h.originAddr 0, c⟩ ⟨instAddr h.originAddr 1, c⟩ :=
        block_nop (hat.get rfl) decode_bti
      simpa [← instAddr_succ] using hnop
    exact hpad.trans (steps_retAbsolute hat.2)

/-- The end of an instruction's words leads on to the next instruction. -/
theorem steps_arrive (hp : Prepared text h) (hpl : Placed h) (hb : relocate h = some blocks)
    {pad : List Word}
    (hrelo : h.reloInsts = blocks.flatten ++ (retAbsolute (instAddr h.originAddr h.trampInsts.length) ++ pad))
    {i : ℕ} (hi : i ≤ h.trampInsts.length) (c : Core ρ) :
    ∃ c', Steps isa (h.text text) ⟨instAddr h.reloAddr (blocks.take i).flatten.length, c⟩
      ⟨reloInTramp h (instAddr h.originAddr i), c'⟩ ∧ c.Agree [17] c' := by
  obtain hlt | rfl := hi.lt_or_eq
  · rw [hpl.reloInTramp_instAddr hb hp.tramp_length hlt]
    exact ⟨c, .refl _ _ _, .refl _ _⟩
  · have hat := at_relo hp hpl
    rw [hrelo, at_append, at_append] at hat
    have hout : isInTramp h (instAddr h.originAddr h.trampInsts.length) = false := by
      have hfits := hpl.fits
      rw [← Bool.not_eq_true, hpl.isInTramp_iff, instAddr_sub _ (by omega)]
      omega
    have hall : blocks.take h.trampInsts.length = blocks := by
      rw [← length_of_relocate hb, List.take_length]
    have hstay : reloInTramp h (instAddr h.originAddr h.trampInsts.length) =
        instAddr h.originAddr h.trampInsts.length := by
      simp [reloInTramp, hout]
    rw [hall, hstay]
    exact ⟨_, steps_retAbsolute hat.2.1, (Core.Agree.refl _ c).set_right (by simp) _⟩

/-! ### The simulation -/

/-- A direct branch goes some instructions on or back. -/
theorem exec_aligned {pc g : Addr} {w : Word} {c : Core ρ} (hdirect : isIndirect (decode w) = false)
    (hgo : (exec isa text pc w c).2 = some g) : ∃ o : Addr, g = pc + o ∧ o.toNat % 4 = 0 := by
  have hal := decode_aligned w
  unfold exec at hgo
  cases hd : decode w with
  | b o =>
    simp only [hd, Option.some.injEq] at hgo hal
    exact ⟨o, hgo.symm, hal⟩
  | bl o =>
    simp only [hd, Option.some.injEq] at hgo hal
    exact ⟨o, hgo.symm, hal⟩
  | branchIf t o =>
    simp only [hd] at hgo hal
    split_ifs at hgo
    exact ⟨o, (Option.some.inj hgo).symm, hal⟩
  | br n => simp [hd, isIndirect] at hdirect
  | blr n => simp [hd, isIndirect] at hdirect
  | other => simp [hd, isIndirect] at hdirect
  | _ => simp [hd] at hgo

theorem exec_call {pc : Addr} {w : Word} {c : Core ρ} (hcall : isCall (decode w) = true) :
    ∃ g, (exec isa text pc w c).2 = some g := by
  unfold exec
  cases hd : decode w with
  | bl o => exact ⟨_, rfl⟩
  | blr n => exact ⟨_, rfl⟩
  | _ => simp [hd, isCall] at hcall

/-- The first instructions may be moved. -/
def AllMovable (isa : Isa ρ) (h : Hook) : Prop := ∀ w ∈ h.originInsts.take h.trampInsts.length, Movable isa w

/-- One of the first instructions, and its words. -/
structure Standing (isa : Isa ρ) (text : Text) (h : Hook) (blocks : List (List Word)) (s t : State ρ) (i : ℕ) (w : Word)
    (block : List Word) : Prop where
  lt : i < h.trampInsts.length
  pc : s.pc = instAddr h.originAddr i
  word : text s.pc = some w
  movable : Movable isa w
  moved : Moved h s.pc w block
  words : At (h.text text) t.pc block
  next : instAddr t.pc block.length = instAddr h.reloAddr (blocks.take (i + 1)).flatten.length

section Simulation

variable {pad : List Word} {s t s' : State ρ} (hp : Prepared text h) (hpl : Placed h) (hb : relocate h = some blocks)
  (hrelo : h.reloInsts = blocks.flatten ++ (retAbsolute (instAddr h.originAddr h.trampInsts.length) ++ pad))
  (hmov : AllMovable isa h)
include hp hpl hb hrelo hmov

theorem Alongside.standing (hs : Alongside h s t) (hin : isInTramp h s.pc = true) :
    ∃ i w block, Standing isa text h blocks s t i w block := by
  obtain ⟨i, hi, hpc⟩ := hs.aligned hin
  obtain ⟨block, hblock, hmoved⟩ := exists_block hb hi
  have hlt : i < h.originInsts.length := hi.trans_le hp.tramp_length
  have hinst : h.originInsts[i]? = some (h.originInsts.getD i 0) := by
    rw [List.getD_eq_getElem?_getD, List.getElem?_eq_getElem hlt, Option.getD_some]
  have hmem : h.originInsts.getD i 0 ∈ h.originInsts.take h.trampInsts.length := by
    apply List.mem_of_getElem? (i := i)
    rw [List.getElem?_take_of_lt hi, hinst]
  have hw := hmov _ hmem
  have ht : t.pc = instAddr h.reloAddr (blocks.take i).flatten.length := by
    rw [hs.pc, hpc, hpl.reloInTramp_instAddr hb hp.tramp_length hi]
  have hat := at_relo hp hpl
  rw [hrelo, at_append] at hat
  refine ⟨i, h.originInsts.getD i 0, block, hi, hpc, ?_, hw, ?_, ?_, ?_⟩
  · rw [hpc]
    exact hp.origin.get hinst
  · rw [hpc]
    exact moved hw.literal hmoved
  · rw [ht]
    exact hat.1.block hblock
  · rw [ht, instAddr_add, List.take_add_one, hblock, List.flatten_append, List.length_append]
    simp

/-- **A step without a call.** -/
theorem Alongside.onward (hs : Alongside h s t) (hon : Onward isa text h s s') :
    ∃ t', Steps isa (h.text text) t t' ∧ Alongside h s' t' := by
  obtain ⟨i, w, block, hst⟩ := hs.standing hp hpl hb hrelo hmov hon.inside
  have hcall := hon.noCall w hst.word
  have hdirect := fun hind g hgo => hon.direct w g hst.word hind hgo
  obtain ⟨c, hcore, hsteps⟩ := hst.moved.follows hst.words hst.movable hcall hs.core hdirect
  have hnext : s' = ⟨(exec isa text s.pc w s.core).2.getD (s.pc + 4), (exec isa text s.pc w s.core).1⟩ :=
    Option.some.inj (hon.next.symm.trans (step_eq hst.word))
  subst hnext
  cases hgo : (exec isa text s.pc w s.core).2 with
  | none =>
    rw [hgo] at hsteps
    have hleads : h.leads t.pc block none = instAddr h.reloAddr (blocks.take (i + 1)).flatten.length := hst.next
    rw [hleads] at hsteps
    obtain ⟨c', harrive, hagree⟩ : ∃ c', Steps isa (h.text text) _ _ ∧ _ :=
      steps_arrive hp hpl hb hrelo (Nat.succ_le_of_lt hst.lt) c
    have hon' : s.pc + 4 = instAddr h.originAddr (i + 1) := by rw [hst.pc, instAddr_succ]
    rw [Option.getD_none, hon']
    refine ⟨_, hsteps.trans harrive, rfl, hcore.trans hagree, fun hin => hpl.exists_instAddr hin ?_⟩
    have hfits := hpl.fits
    have hlt := hst.lt
    show (instAddr h.originAddr (i + 1) - h.originAddr).toNat % 4 = 0
    rw [instAddr_sub _ (by omega)]
    omega
  | some g =>
    rw [hgo] at hsteps
    refine ⟨_, hsteps, rfl, hcore, fun hin => hpl.exists_instAddr hin ?_⟩
    have hind : isIndirect (decode w) = false := by
      by_contra hind
      have hout := hdirect (Bool.not_eq_false _ ▸ hind) g hgo
      exact absurd (hin.symm.trans hout) (by decide)
    obtain ⟨o, hg, hfour⟩ := exec_aligned hind hgo
    have hfits := hpl.fits
    have hlt := hst.lt
    have hsub : g - h.originAddr = BitVec.ofNat 64 (4 * i) + o := by
      rw [hg, hst.pc, instAddr, BitVec.add_assoc, BitVec.add_comm h.originAddr, BitVec.add_sub_cancel]
    show (g - h.originAddr).toNat % 4 = 0
    rw [hsub, BitVec.toNat_add, BitVec.toNat_ofNat]
    omega

/-- **A call.** -/
theorem Alongside.calling (hs : Alongside h s t) (hcalling : Calling isa text h s s') :
    ∃ t', Steps isa (h.text text) t t' ∧ CalledAlongside isa text h s s' t' := by
  obtain ⟨i, w, block, hst⟩ := hs.standing hp hpl hb hrelo hmov hcalling.inside
  have hcall := hcalling.call w hst.word
  have hdirect := fun hind g hgo => hcalling.direct w g hst.word hind hgo
  obtain ⟨c, k, hcore, hlink, hsteps, hreturn, hback⟩ :=
    hst.moved.calls hst.words hst.movable hcall hs.core hdirect
  have hnext : s' = ⟨(exec isa text s.pc w s.core).2.getD (s.pc + 4), (exec isa text s.pc w s.core).1⟩ :=
    Option.some.inj (hcalling.next.symm.trans (step_eq hst.word))
  subst hnext
  obtain ⟨g, hgo⟩ : ∃ g, (exec isa text s.pc w s.core).2 = some g := exec_call hcall
  rw [hgo] at hsteps
  refine ⟨_, hsteps, by rw [hgo]; rfl, hcore, hlink, fun c₀ => ?_⟩
  obtain ⟨c', harrive, hagree⟩ : ∃ c', Steps isa (h.text text) _ _ ∧ _ :=
    steps_arrive hp hpl hb hrelo (Nat.succ_le_of_lt hst.lt) c₀
  have hon' : s.pc + 4 = instAddr h.originAddr (i + 1) := by rw [hst.pc, instAddr_succ]
  have hbehind := hback c₀
  rw [hst.next] at hbehind
  rw [hreturn, hon']
  exact ⟨c', hbehind.trans harrive, hagree⟩

end Simulation

/-- **What a hooked function does**: its callers run the replacement, and the buffer is run as its first instructions. -/
theorem hookPrepare_hooked {h₀ : Hook} (hprepare : hookPrepare text h₀ = .ok h) (hpl : Placed h)
    (hmov : AllMovable isa h) : Hooked isa text h := by
  have hp := (hookPrepare_ok hprepare).1
  obtain ⟨blocks, pad, hb, hrelo⟩ := hp.relo
  have hpos : 0 < h.trampInsts.length := by
    obtain htramp | htramp := hp.tramp <;> rw [htramp] <;> simp [retAbsolute]
  refine ⟨fun c => ⟨_, steps_replaced hp c, (Core.Agree.refl _ c).set_right (by simp) _⟩, ?_, ?_, ?_⟩
  · have hentry := hpl.reloInTramp_instAddr hb hp.tramp_length hpos
    simpa using hentry
  · intro s t s' hs hrun
    exact simulates (fun s t s' hs hon => hs.onward hp hpl hb hrelo hmov hon) hrun hs
  · intro s t s' hs hcalling
    exact hs.calling hp hpl hb hrelo hmov hcalling

/-- A machine on which every other instruction is a hint, and every condition holds. -/
def hintIsa : Isa Unit where
  cond _ _ := true
  load _ _ := 0
  other _ _ c := (c, none)

/-- PACIASP; CBZ X0, #0x100; B.NE #-8; BL #0x1000; ADRP X1, #0; RET. -/
def loopText : Text :=
  poke (fun _ => none) 0xffffffc008010040 [0xd503233f, 0xB4000800, 0x54FFFFC1, 0x94000400, 0x90000001, 0xD65F03C0]

def loopFunc : Hook where
  funcAddr := 0xffffffc008010040
  originAddr := 0xffffffc008010040
  replaceAddr := 0xffffffc010000000
  reloAddr := 0xffffffc020000000
  originInsts := []
  trampInsts := []
  reloInsts := []

def loopHook : Hook :=
  match hookPrepare loopText loopFunc with
  | .ok h => h
  | .error _ => loopFunc

theorem hintIsa_movable {w : Word} (hliteral : isLiteral w = false) (hreads : readsScratch (decode w) = false) :
    Movable hintIsa w :=
  .of_inst hliteral hreads (fun _ _ _ _ => rfl) fun _ _ _ _ hagree => ⟨rfl, hagree⟩

/-- A loop over the first instructions, and a call. -/
theorem hookPrepare_hooked_loop : Hooked hintIsa loopText loopHook := by
  have hprepare : hookPrepare loopText loopFunc = .ok loopHook := by rfl
  refine hookPrepare_hooked hprepare ⟨by decide +kernel, by decide +kernel⟩ ?_
  have hinsts : loopHook.originInsts.take loopHook.trampInsts.length =
      [0xd503233f, 0xB4000800, 0x54FFFFC1, 0x94000400, 0x90000001] := by decide +kernel
  intro w hw
  rw [hinsts] at hw
  simp only [List.mem_cons, List.not_mem_nil, or_false] at hw
  obtain rfl | rfl | rfl | rfl | rfl := hw <;> exact hintIsa_movable (by decide) (by decide)

end KernelSU.Kpm
