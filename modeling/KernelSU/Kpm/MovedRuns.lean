import KernelSU.Kpm.MovedInst

/-!
# Runs of moved instructions

* `Movable` — what may be moved;
* `Moved.follows` — **PROVED**: the words of an instruction that makes no call do what it does, but for register 17;
* `Moved.calls` — **PROVED**: those of a call call the same function, and hand over the address behind them.
-/

namespace KernelSU.Kpm

open KernelSU.Lib KernelSU.Lib.Arm64

variable {ρ : Type} {isa : Isa ρ} {text T : Text} {h : Hook} {pc a v : Addr} {w : Word} {block : List Word}
  {c c' : Core ρ}

/-! ### The words that are made -/

theorem at_words {ws ws' : List Word} (hat : At text a (ws ++ words v ++ ws')) :
    text.word64 (instAddr a ws.length) = some v := by
  rw [List.append_assoc, at_append, at_append] at hat
  exact word64_words hat.2.1

theorem steps_load17 {k : ℕ} (hk : text (instAddr a k) = some 0x58000051)
    (hv : text.word64 (instAddr a (k + 2)) = some v) :
    Steps isa text ⟨instAddr a k, c⟩ ⟨instAddr a (k + 1), c.set 17 v⟩ :=
  block_ldrX hk 2 decode_ldr17 hv

theorem steps_leave17 (hk : text a = some w) (hd : decode w = .br 17) :
    Steps isa text ⟨a, c.set 17 v⟩ ⟨v, c.set 17 v⟩ :=
  steps_br hk hd (Core.get_set (by decide) v)

/-- LDR X17, #8; RET X17. -/
theorem steps_retAbsolute (hat : At text a (retAbsolute v)) : Steps isa text ⟨a, c⟩ ⟨v, c.set 17 v⟩ := by
  have hwords : At text a ([0x58000051, 0xD65F0220] ++ words v ++ []) := by simpa [retAbsolute] using hat
  have hload : Steps isa text ⟨instAddr a 0, c⟩ ⟨instAddr a 1, c.set 17 v⟩ :=
    steps_load17 (hwords.get rfl) (at_words hwords)
  rw [instAddr_zero] at hload
  exact hload.trans (steps_leave17 (hwords.get (k := 1) rfl) decode_ret17)

/-! ### What may be moved -/

/-- The instruction makes a call. -/
def isCall : Inst → Bool
  | .bl _ | .blr _ => true
  | _ => false

/-- The instruction goes where a register says. -/
def isIndirect : Inst → Bool
  | .br _ | .blr _ | .other => true
  | _ => false

/-- **What may be moved**: no load relative to the program counter; another instruction of the machine does not look at
the program counter; and what the instruction does does not depend on register 17. -/
structure Movable (isa : Isa ρ) (w : Word) : Prop where
  literal : isLiteral w = false
  pcFree : decode w = .other → ∀ pc pc' c, isa.other w pc c = isa.other w pc' c
  blind : ∀ (text : Text) pc (c c' : Core ρ), c.Agree [17] c' →
    (exec isa text pc w c').2 = (exec isa text pc w c).2 ∧
      (exec isa text pc w c).1.Agree [17] (exec isa text pc w c').1

/-- The instruction looks at register 17. -/
def readsScratch : Inst → Bool
  | .branchIf (.zero _ _ t) _ | .branchIf (.bit _ _ t) _ => t = 17
  | .br n | .blr n | .addImm _ n _ => n = 17
  | _ => false

/-- What may be moved, by what an instruction names. -/
theorem Movable.of_inst (hliteral : isLiteral w = false) (hreads : readsScratch (decode w) = false)
    (hfree : decode w = .other → ∀ pc pc' c, isa.other w pc c = isa.other w pc' c)
    (hblind : decode w = .other → ∀ pc (c c' : Core ρ), c.Agree [17] c' →
      (isa.other w pc c').2 = (isa.other w pc c).2 ∧ (isa.other w pc c).1.Agree [17] (isa.other w pc c').1) :
    Movable isa w := by
  refine ⟨hliteral, hfree, fun text pc c c' hagree => ?_⟩
  have hget : ∀ {r : Reg}, r ≠ 17 → c'.get r = c.get r := fun hr => hagree.get (by simpa using hr)
  unfold exec
  cases hd : decode w with
  | b o => exact ⟨rfl, hagree⟩
  | bl o => exact ⟨rfl, hagree.set 30 _⟩
  | branchIf t o =>
    have hholds : t.holds isa c' = t.holds isa c := by
      cases t with
      | cond k => simp only [Test.holds, hagree.rest]
      | zero wide negated r => simp only [Test.holds, hget (show r ≠ 17 by simpa [hd, readsScratch] using hreads)]
      | bit negated n r => simp only [Test.holds, hget (show r ≠ 17 by simpa [hd, readsScratch] using hreads)]
    exact ⟨by simp only [hholds], hagree⟩
  | adr d o => exact ⟨rfl, hagree.set d _⟩
  | adrp d o => exact ⟨rfl, hagree.set d _⟩
  | ldrX d o =>
    simp only [hagree.rest]
    exact ⟨trivial, hagree.set d _⟩
  | br n =>
    simp only [hget (show n ≠ 17 by simpa [hd, readsScratch] using hreads)]
    exact ⟨trivial, hagree⟩
  | blr n =>
    simp only [hget (show n ≠ 17 by simpa [hd, readsScratch] using hreads)]
    exact ⟨trivial, hagree.set 30 _⟩
  | addImm d n imm =>
    simp only [hget (show n ≠ 17 by simpa [hd, readsScratch] using hreads)]
    exact ⟨trivial, hagree.set d _⟩
  | nop => exact ⟨rfl, hagree⟩
  | other => exact hblind hd pc c c' hagree

/-- An instruction that names no address and makes no call does the same everywhere. -/
theorem Movable.exec_eq (hw : Movable isa w) (hrel : isRelative (decode w) = false) (hcall : isCall (decode w) = false)
    (text T : Text) (pc a : Addr) (c : Core ρ) : exec isa T a w c = exec isa text pc w c := by
  unfold exec
  cases hd : decode w with
  | br n => rfl
  | addImm d n imm => rfl
  | nop => rfl
  | other => exact hw.pcFree hd a pc c
  | blr n => simp [hd, isCall] at hcall
  | _ => simp [hd, isRelative] at hrel

/-- Where a branch goes that depends on the machine does not depend on register 17. -/
theorem Movable.holds_eq (hw : Movable isa w) {t : Test} {o : Addr} (hd : decode w = .branchIf t o)
    (hagree : c.Agree [17] c') : t.holds isa c' = t.holds isa c := by
  have hgo := (hw.blind (fun _ => none) 0 c c' hagree).1
  simp only [exec, hd] at hgo
  cases hc : t.holds isa c <;> cases hc' : t.holds isa c' <;> simp [hc, hc'] at hgo ⊢

/-! ### What they do -/

/-- Where a moved instruction leads: on to the end of its words, or where the target of a branch was moved to. -/
def Hook.leads (h : Hook) (a : Addr) (block : List Word) (go : Option Addr) : Addr :=
  go.elim (instAddr a block.length) (reloInTramp h)

/-- LDR Xd, #8; B #12. -/
theorem steps_movedAdr {d : Reg} {load : Word} (hat : At T a ([load, 0x14000003] ++ words v ++ []))
    (hload : decode load = .ldrX d 8) : Steps isa T ⟨a, c⟩ ⟨instAddr a 4, c.set d v⟩ := by
  have hset : Steps isa T ⟨instAddr a 0, c⟩ ⟨instAddr a 1, c.set d v⟩ :=
    block_ldrX (hat.get rfl) 2 hload (at_words hat)
  have hskip : Steps isa T ⟨instAddr a 1, c.set d v⟩ ⟨instAddr a 4, c.set d v⟩ := block_b (hat.get rfl) 3 decode_b12
  rw [instAddr_zero] at hset
  exact hset.trans hskip

/-- **An instruction that makes no call.** -/
theorem Moved.follows (hm : Moved h pc w block) (hat : At T a block) (hw : Movable isa w)
    (hcall : isCall (decode w) = false) (hagree : c.Agree [17] c')
    (hdirect : isIndirect (decode w) = true → ∀ t, (exec isa text pc w c).2 = some t → isInTramp h t = false) :
    ∃ c'', (exec isa text pc w c).1.Agree [17] c'' ∧
      Steps isa T ⟨a, c'⟩ ⟨h.leads a block (exec isa text pc w c).2, c''⟩ := by
  cases hm with
  | b o hd =>
    generalize hv : reloInTramp h (pc + o) = v at hat
    have hexec : exec isa text pc w c = (c, some (pc + o)) := by simp [exec, hd]
    have hload : Steps isa T ⟨instAddr a 0, c'⟩ ⟨instAddr a 1, c'.set 17 v⟩ :=
      steps_load17 (hat.get rfl) (at_words hat)
    have hskip : Steps isa T ⟨instAddr a 1, c'.set 17 v⟩ ⟨instAddr a 4, c'.set 17 v⟩ :=
      block_b (hat.get rfl) 3 decode_b12
    have hleave : Steps isa T ⟨instAddr a 4, c'.set 17 v⟩ ⟨v, c'.set 17 v⟩ := steps_leave17 (hat.get rfl) decode_ret17
    rw [instAddr_zero] at hload
    rw [hexec]
    subst hv
    exact ⟨_, hagree.set_right (by simp) _, (hload.trans hskip).trans hleave⟩
  | bl o hd => simp [hd, isCall] at hcall
  | cond t o kept hd hkept =>
    generalize hv : reloInTramp h (pc + o) = v at hat
    have hexec : exec isa text pc w c = (c, if t.holds isa c' then some (pc + o) else none) := by
      simp [exec, hd, hw.holds_eq hd hagree]
    have hkeep : Steps isa T ⟨instAddr a 0, c'⟩ ⟨if t.holds isa c' then instAddr a 2 else instAddr a 1, c'⟩ :=
      block_branchIf (hat.get rfl) 2 hkept
    rw [instAddr_zero] at hkeep
    rw [hexec]
    by_cases ht : t.holds isa c' = true
    · rw [if_pos ht] at hkeep ⊢
      have hload : Steps isa T ⟨instAddr a 2, c'⟩ ⟨instAddr a 3, c'.set 17 v⟩ :=
        steps_load17 (hat.get rfl) (at_words hat)
      have hskip : Steps isa T ⟨instAddr a 3, c'.set 17 v⟩ ⟨instAddr a 6, c'.set 17 v⟩ :=
        block_b (hat.get rfl) 3 decode_b12
      have hleave : Steps isa T ⟨instAddr a 6, c'.set 17 v⟩ ⟨v, c'.set 17 v⟩ :=
        steps_leave17 (hat.get rfl) decode_ret17
      subst hv
      exact ⟨_, hagree.set_right (by simp) _, ((hkeep.trans hload).trans hskip).trans hleave⟩
    · rw [if_neg ht] at hkeep ⊢
      have hskip : Steps isa T ⟨instAddr a 1, c'⟩ ⟨instAddr a 7, c'⟩ := block_b (hat.get rfl) 6 decode_b24
      have hnop : Steps isa T ⟨instAddr a 7, c'⟩ ⟨instAddr a 8, c'⟩ := block_nop (hat.get rfl) decode_nop
      exact ⟨c', hagree, (hkeep.trans hskip).trans hnop⟩
  | compare t o kept leave hd hkept hleave =>
    generalize hv : reloInTramp h (pc + o) = v at hat
    have hexec : exec isa text pc w c = (c, if t.holds isa c' then some (pc + o) else none) := by
      simp [exec, hd, hw.holds_eq hd hagree]
    have hkeep : Steps isa T ⟨instAddr a 0, c'⟩ ⟨if t.holds isa c' then instAddr a 2 else instAddr a 1, c'⟩ :=
      block_branchIf (hat.get rfl) 2 hkept
    rw [instAddr_zero] at hkeep
    rw [hexec]
    by_cases ht : t.holds isa c' = true
    · rw [if_pos ht] at hkeep ⊢
      have hload : Steps isa T ⟨instAddr a 2, c'⟩ ⟨instAddr a 3, c'.set 17 v⟩ :=
        steps_load17 (hat.get rfl) (at_words hat)
      have hgo : Steps isa T ⟨instAddr a 3, c'.set 17 v⟩ ⟨v, c'.set 17 v⟩ := steps_leave17 (hat.get rfl) hleave
      subst hv
      exact ⟨_, hagree.set_right (by simp) _, (hkeep.trans hload).trans hgo⟩
    · rw [if_neg ht] at hkeep ⊢
      have hskip : Steps isa T ⟨instAddr a 1, c'⟩ ⟨instAddr a 6, c'⟩ := block_b (hat.get rfl) 5 decode_b20
      exact ⟨c', hagree, hkeep.trans hskip⟩
  | adr d o load hd hload =>
    have hexec : exec isa text pc w c = (c.set d (pc + o), none) := by simp [exec, hd]
    rw [hexec]
    exact ⟨_, hagree.set d _, steps_movedAdr hat hload⟩
  | adrp d o load hd hload =>
    have hexec : exec isa text pc w c = (c.set d ((pc &&& 0xFFFFFFFFFFFFF000) + o), none) := by simp [exec, hd]
    rw [hexec]
    exact ⟨_, hagree.set d _, steps_movedAdr hat hload⟩
  | same hrel =>
    have hsame := hw.exec_eq hrel hcall text T pc a c'
    obtain ⟨hgo, hcore⟩ := hw.blind text pc c c' hagree
    have hstep := steps_exec (hat.get (k := 0) rfl) isa c'
    rw [instAddr_zero, hsame, hgo] at hstep
    refine ⟨_, hcore, ?_⟩
    cases hnext : (exec isa text pc w c).2 with
    | none =>
      rw [hnext, Option.getD_none] at hstep
      have hnop : Steps isa T ⟨instAddr a 1, (exec isa text pc w c').1⟩ ⟨instAddr a 2, (exec isa text pc w c').1⟩ :=
        block_nop (hat.get rfl) decode_nop
      exact hstep.trans hnop
    | some t =>
      rw [hnext, Option.getD_some] at hstep
      have hleads : h.leads a [w, ARM64_NOP] (some t) = t := by
        have hindirect : isIndirect (decode w) = true := by
          cases hd : decode w <;> simp_all [isRelative, isIndirect, exec]
        have hout := hdirect hindirect t hnext
        simp [Hook.leads, reloInTramp, hout]
      rw [hleads]
      exact hstep

/-- **A call** is made, and its return address is behind the words. -/
theorem Moved.calls (hm : Moved h pc w block) (hat : At T a block) (hw : Movable isa w)
    (hcall : isCall (decode w) = true) (hagree : c.Agree [17] c')
    (hdirect : isIndirect (decode w) = true → ∀ t, (exec isa text pc w c).2 = some t → isInTramp h t = false) :
    ∃ c'' k, (exec isa text pc w c).1.Agree [17, 30] c'' ∧ (exec isa text pc w c).1.x 30 = pc + 4 ∧
      Steps isa T ⟨a, c'⟩ ⟨h.leads a block (exec isa text pc w c).2, c''⟩ ∧ c''.x 30 = instAddr a k ∧
      ∀ c, Steps isa T ⟨instAddr a k, c⟩ ⟨instAddr a block.length, c⟩ := by
  have hzero : (30 : Reg) ≠ 31 := by decide
  have hlink : (30 : Reg) ∈ ([17, 30] : List Reg) := by simp
  have hmono : c.Agree [17, 30] c' := hagree.mono (by simp)
  cases hm with
  | bl o hd =>
    generalize hv : reloInTramp h (pc + o) = v at hat
    have hexec : exec isa text pc w c = (c.set 30 (pc + 4), some (pc + o)) := by simp [exec, hd]
    have hload : Steps isa T ⟨instAddr a 0, c'⟩ ⟨instAddr a 1, c'.set 17 v⟩ :=
      steps_load17 (hat.get rfl) (at_words hat)
    have hskip : Steps isa T ⟨instAddr a 1, c'.set 17 v⟩ ⟨instAddr a 4, c'.set 17 v⟩ :=
      block_b (hat.get rfl) 3 decode_b12
    generalize hc₁ : c'.set 17 v = c₁ at hload hskip
    have hadr : Steps isa T ⟨instAddr a 4, c₁⟩ ⟨instAddr a 5, c₁.set 30 (instAddr a 4)⟩ :=
      block_adr (hat.get rfl) decode_adr30
    generalize hc₂ : c₁.set 30 (instAddr a 4) = c₂ at hadr
    have hadd : Steps isa T ⟨instAddr a 5, c₂⟩ ⟨instAddr a 6, c₂.set 30 (instAddr a 7)⟩ := by
      have hsum : c₂.get 30 + 12 = instAddr a 7 := by
        rw [← hc₂, Core.get_set (by decide)]
        exact instAddr_add a 4 3
      rw [← hsum]
      exact block_addImm (hat.get rfl) decode_add30
    have htarget : (c₂.set 30 (instAddr a 7)).get 17 = v := by
      rw [Core.get_set_ne (by decide), ← hc₂, Core.get_set_ne (by decide), ← hc₁, Core.get_set (by decide)]
    have hgo : Steps isa T ⟨instAddr a 6, c₂.set 30 (instAddr a 7)⟩ ⟨v, c₂.set 30 (instAddr a 7)⟩ :=
      steps_br (hat.get rfl) decode_ret17 htarget
    have hkept : c.Agree [17, 30] c₂ := by
      rw [← hc₂, ← hc₁]
      exact (hmono.set_right (by simp) v).set_right hlink _
    rw [instAddr_zero] at hload
    rw [hexec]
    subst hv
    refine ⟨_, 7, (hkept.set_left hlink _).set_right hlink _, Core.x_set hzero _,
      (((hload.trans hskip).trans hadr).trans hadd).trans hgo, Core.x_set hzero _, fun c => ?_⟩
    exact block_nop (hat.get rfl) decode_nop
  | same hrel =>
    cases hd : decode w with
    | blr n =>
      have hexec : ∀ text pc (c : Core ρ), exec isa text pc w c = (c.set 30 (pc + 4), some (c.get n)) := by
        intro text pc c
        simp [exec, hd]
      have hget : c'.get n = c.get n := by
        have hgo := (hw.blind text pc c c' hagree).1
        simpa [hexec] using hgo
      have hstep := steps_exec (hat.get (k := 0) rfl) isa c'
      rw [instAddr_zero, hexec, Option.getD_some, hget] at hstep
      have hleads : h.leads a [w, ARM64_NOP] (some (c.get n)) = c.get n := by
        have hout := hdirect (by simp [hd, isIndirect]) (c.get n) (by rw [hexec])
        simp [Hook.leads, reloInTramp, hout]
      rw [hexec, hleads]
      refine ⟨_, 1, (hmono.set_left hlink _).set_right hlink _, Core.x_set hzero _, hstep, Core.x_set hzero _, fun c => ?_⟩
      exact block_nop (hat.get rfl) decode_nop
    | bl o => simp [hd, isRelative] at hrel
    | _ => simp [hd, isCall] at hcall
  | b o hd => simp [hd, isCall] at hcall
  | cond t o kept hd hkept => simp [hd, isCall] at hcall
  | compare t o kept leave hd hkept hleave => simp [hd, isCall] at hcall
  | adr d o load hd hload => simp [hd, isCall] at hcall
  | adrp d o load hd hload => simp [hd, isCall] at hcall

end KernelSU.Kpm
