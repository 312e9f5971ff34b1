import KernelSU.Ksud.Sepolicy
import KernelSU.Lib.Fallible
import KernelSU.Selinux.SepolicyBatch
import Mathlib.Algebra.Order.BigOperators.Group.List

/-!
# ksud's encoder and the kernel's decoder

ksud and the kernel each have their own table of argument counts and their own idea of a string.  They
agree: what `serialize_atomic_statements` writes is a batch in the wire format of the kernel
(`serializeAtomicStatements_isBatch`), so the cursor loop of `handle_sepolicy` reads back the statements
ksud built, one command for each, and stops at the last byte
(`serializeAtomicStatements_roundTrip`).
-/

namespace KernelSU.Ksud

open KernelSU.Lib KernelSU.Lib.Bytes KernelSU.Selinux

/-- The kernel's view of an object: `All` and `None` are the wildcard. -/
def PolicyObject.toArg : PolicyObject → Option Name
  | .all | .none => Option.none
  | .one value => some value

/-- The number of arguments ksud writes for a statement. -/
def AtomicStatement.argc (st : AtomicStatement) : ℕ := (cmdExpectedArgc st.cmd).getD 0

/-- The command a statement stands for. -/
def AtomicStatement.toCmd (st : AtomicStatement) : SepolCmd :=
  (⟨st.cmd, st.subcmd⟩, (st.slots.take st.argc).map PolicyObject.toArg)

/-- The encoded size of a statement: its header, and for each argument a length word, the bytes and a
NUL. -/
def AtomicStatement.encodedSize (st : AtomicStatement) : ℕ :=
  8 + ((st.slots.take st.argc).map fun o => 4 + (o.bytes.length + 1)).sum

/-! ### What expansion builds -/

/-- A statement as the expansion of a parsed statement builds it: a known command, nothing in the slots
that are not written, and no NUL in a name. -/
structure WellBuilt (st : AtomicStatement) : Prop where
  known : (cmdExpectedArgc st.cmd).isSome = true
  unused : ∀ o ∈ st.slots.drop st.argc, o = .none
  nulFree : ∀ o ∈ st.slots, 0 ∉ o.bytes

theorem tryFrom_nulFree {s : Str} {o : PolicyObject} (h : PolicyObject.tryFrom s = .ok o) :
    0 ∉ o.bytes := by
  rw [PolicyObject.tryFrom] at h
  split at h
  · cases h
  · next hnul =>
    split at h
    · cases h
      exact List.not_mem_nil
    · cases h
      exact hnul

/-- What holds of every statement a loop body pushes holds of every statement of the loop. -/
theorem forEach_forall {α : Type} {P : AtomicStatement → Prop} {xs : List α}
    {f : α → Except String (List AtomicStatement)} {sts : List AtomicStatement}
    (hf : ∀ x bs, f x = .ok bs → ∀ st ∈ bs, P st) (h : forEach xs f = .ok sts) :
    ∀ st ∈ sts, P st := by
  induction xs generalizing sts with
  | nil =>
    cases h
    exact List.forall_mem_nil _
  | cons x xs ih =>
    obtain ⟨first, hfirst, h⟩ := except_bind_ok.mp h
    obtain ⟨rest, hrest, h⟩ := except_bind_ok.mp h
    cases h
    intro st hst
    rcases List.mem_append.mp hst with hst | hst
    · exact hf x first hfirst st hst
    · exact ih hrest st hst

/-- What may stand in a slot that is written: nothing, or a string. -/
def Written (o : PolicyObject) : Prop := o = .none ∨ ∃ s, PolicyObject.tryFrom s = .ok o

theorem Written.of {s : Str} {o : PolicyObject} (h : PolicyObject.tryFrom s = .ok o) : Written o :=
  .inr ⟨s, h⟩

/-- A statement of a known command whose written slots hold strings and whose other slots are empty. -/
theorem wellBuilt_of_written {st : AtomicStatement} (hknown : (cmdExpectedArgc st.cmd).isSome = true)
    (hused : ∀ o ∈ st.slots.take st.argc, Written o)
    (hunused : ∀ o ∈ st.slots.drop st.argc, o = .none) : WellBuilt st where
  known := hknown
  unused := hunused
  nulFree := by
    intro o ho
    rw [← List.take_append_drop st.argc st.slots] at ho
    rcases List.mem_append.mp ho with ho | ho
    · rcases hused o ho with rfl | ⟨s, hs⟩
      · exact List.not_mem_nil
      · exact tryFrom_nulFree hs
    · rw [hunused o ho]
      exact List.not_mem_nil

section Kinds

variable {sts : List AtomicStatement}

theorem normalPerm_wellBuilt {perm : NormalPerm} (h : perm.tryInto = .ok sts) :
    ∀ st ∈ sts, WellBuilt st := by
  refine forEach_forall (fun s _ h => ?_) h
  refine forEach_forall (fun t _ h => ?_) h
  refine forEach_forall (fun c _ h => ?_) h
  refine forEach_forall (fun p _ h => ?_) h
  obtain ⟨o₁, h₁, h⟩ := except_bind_ok.mp h
  obtain ⟨o₂, h₂, h⟩ := except_bind_ok.mp h
  obtain ⟨o₃, h₃, h⟩ := except_bind_ok.mp h
  obtain ⟨o₄, h₄, h⟩ := except_bind_ok.mp h
  cases h
  refine List.forall_mem_singleton.mpr (wellBuilt_of_written rfl ?_ ?_)
  · show ∀ o ∈ [o₁, o₂, o₃, o₄], _
    simp only [List.forall_mem_cons]
    exact ⟨.of h₁, .of h₂, .of h₃, .of h₄, List.forall_mem_nil _⟩
  · exact (by decide : ∀ o ∈ [PolicyObject.none, .none, .none], o = .none)

theorem xPerm_wellBuilt {perm : XPerm} (h : perm.tryInto = .ok sts) :
    ∀ st ∈ sts, WellBuilt st := by
  refine forEach_forall (fun s _ h => ?_) h
  refine forEach_forall (fun t _ h => ?_) h
  refine forEach_forall (fun c _ h => ?_) h
  refine forEach_forall (fun r _ h => ?_) h
  obtain ⟨o₁, h₁, h⟩ := except_bind_ok.mp h
  obtain ⟨o₂, h₂, h⟩ := except_bind_ok.mp h
  obtain ⟨o₃, h₃, h⟩ := except_bind_ok.mp h
  obtain ⟨o₄, h₄, h⟩ := except_bind_ok.mp h
  obtain ⟨o₅, h₅, h⟩ := except_bind_ok.mp h
  cases h
  refine List.forall_mem_singleton.mpr (wellBuilt_of_written rfl ?_ ?_)
  · show ∀ o ∈ [o₁, o₂, o₃, o₄, o₅], _
    simp only [List.forall_mem_cons]
    exact ⟨.of h₁, .of h₂, .of h₃, .of h₄, .of h₅, List.forall_mem_nil _⟩
  · exact (by decide : ∀ o ∈ [PolicyObject.none, .none], o = .none)

theorem typeState_wellBuilt {perm : TypeState} (h : perm.tryInto = .ok sts) :
    ∀ st ∈ sts, WellBuilt st := by
  refine forEach_forall (fun t _ h => ?_) h
  obtain ⟨o₁, h₁, h⟩ := except_bind_ok.mp h
  cases h
  refine List.forall_mem_singleton.mpr (wellBuilt_of_written rfl ?_ ?_)
  · exact List.forall_mem_singleton.mpr (.of h₁)
  · exact (by decide : ∀ o ∈ List.replicate 6 PolicyObject.none, o = .none)

theorem typeDecl_wellBuilt {perm : TypeDecl} (h : perm.tryInto = .ok sts) :
    ∀ st ∈ sts, WellBuilt st := by
  refine forEach_forall (fun a _ h => ?_) h
  obtain ⟨o₁, h₁, h⟩ := except_bind_ok.mp h
  obtain ⟨o₂, h₂, h⟩ := except_bind_ok.mp h
  cases h
  refine List.forall_mem_singleton.mpr (wellBuilt_of_written rfl ?_ ?_)
  · show ∀ o ∈ [o₁, o₂], _
    simp only [List.forall_mem_cons]
    exact ⟨.of h₁, .of h₂, List.forall_mem_nil _⟩
  · exact (by decide : ∀ o ∈ List.replicate 5 PolicyObject.none, o = .none)

theorem typeAttr_wellBuilt {perm : TypeAttr} (h : perm.tryInto = .ok sts) :
    ∀ st ∈ sts, WellBuilt st := by
  refine forEach_forall (fun t _ h => ?_) h
  refine forEach_forall (fun a _ h => ?_) h
  obtain ⟨o₁, h₁, h⟩ := except_bind_ok.mp h
  obtain ⟨o₂, h₂, h⟩ := except_bind_ok.mp h
  cases h
  refine List.forall_mem_singleton.mpr (wellBuilt_of_written rfl ?_ ?_)
  · show ∀ o ∈ [o₁, o₂], _
    simp only [List.forall_mem_cons]
    exact ⟨.of h₁, .of h₂, List.forall_mem_nil _⟩
  · exact (by decide : ∀ o ∈ List.replicate 5 PolicyObject.none, o = .none)

theorem attr_wellBuilt {perm : Attr} (h : perm.tryInto = .ok sts) : ∀ st ∈ sts, WellBuilt st := by
  obtain ⟨o₁, h₁, h⟩ := except_bind_ok.mp h
  cases h
  refine List.forall_mem_singleton.mpr (wellBuilt_of_written rfl ?_ ?_)
  · exact List.forall_mem_singleton.mpr (.of h₁)
  · exact (by decide : ∀ o ∈ List.replicate 6 PolicyObject.none, o = .none)

theorem typeTransition_wellBuilt {perm : TypeTransition} (h : perm.tryInto = .ok sts) :
    ∀ st ∈ sts, WellBuilt st := by
  obtain ⟨o₅, h₅, h⟩ := except_bind_ok.mp h
  obtain ⟨o₁, h₁, h⟩ := except_bind_ok.mp h
  obtain ⟨o₂, h₂, h⟩ := except_bind_ok.mp h
  obtain ⟨o₃, h₃, h⟩ := except_bind_ok.mp h
  obtain ⟨o₄, h₄, h⟩ := except_bind_ok.mp h
  have hobj : Written o₅ := by
    cases hname : perm.objectName with
    | none =>
      rw [hname] at h₅
      cases h₅
      exact .inl rfl
    | some obj =>
      rw [hname] at h₅
      exact .of h₅
  cases h
  refine List.forall_mem_singleton.mpr (wellBuilt_of_written rfl ?_ ?_)
  · show ∀ o ∈ [o₁, o₂, o₃, o₄, o₅], _
    simp only [List.forall_mem_cons]
    exact ⟨.of h₁, .of h₂, .of h₃, .of h₄, hobj, List.forall_mem_nil _⟩
  · exact (by decide : ∀ o ∈ List.replicate 2 PolicyObject.none, o = .none)

theorem typeChange_wellBuilt {perm : TypeChange} (h : perm.tryInto = .ok sts) :
    ∀ st ∈ sts, WellBuilt st := by
  obtain ⟨o₁, h₁, h⟩ := except_bind_ok.mp h
  obtain ⟨o₂, h₂, h⟩ := except_bind_ok.mp h
  obtain ⟨o₃, h₃, h⟩ := except_bind_ok.mp h
  obtain ⟨o₄, h₄, h⟩ := except_bind_ok.mp h
  cases h
  refine List.forall_mem_singleton.mpr (wellBuilt_of_written rfl ?_ ?_)
  · show ∀ o ∈ [o₁, o₂, o₃, o₄], _
    simp only [List.forall_mem_cons]
    exact ⟨.of h₁, .of h₂, .of h₃, .of h₄, List.forall_mem_nil _⟩
  · exact (by decide : ∀ o ∈ List.replicate 3 PolicyObject.none, o = .none)

theorem genFsCon_wellBuilt {perm : GenFsCon} (h : perm.tryInto = .ok sts) :
    ∀ st ∈ sts, WellBuilt st := by
  obtain ⟨o₁, h₁, h⟩ := except_bind_ok.mp h
  obtain ⟨o₂, h₂, h⟩ := except_bind_ok.mp h
  obtain ⟨o₃, h₃, h⟩ := except_bind_ok.mp h
  cases h
  refine List.forall_mem_singleton.mpr (wellBuilt_of_written rfl ?_ ?_)
  · show ∀ o ∈ [o₁, o₂, o₃], _
    simp only [List.forall_mem_cons]
    exact ⟨.of h₁, .of h₂, .of h₃, List.forall_mem_nil _⟩
  · exact (by decide : ∀ o ∈ List.replicate 4 PolicyObject.none, o = .none)

/-- **Every statement ksud builds is well built.** -/
theorem flattenAtomicStatements_wellBuilt {stmts : List PolicyStatement}
    (h : flattenAtomicStatements stmts = .ok sts) : ∀ st ∈ sts, WellBuilt st := by
  refine forEach_forall (fun stmt _ h => ?_) h
  cases stmt with
  | normalPerm perm => exact normalPerm_wellBuilt h
  | xPerm perm => exact xPerm_wellBuilt h
  | typeState perm => exact typeState_wellBuilt h
  | type perm => exact typeDecl_wellBuilt h
  | typeAttr perm => exact typeAttr_wellBuilt h
  | attr perm => exact attr_wellBuilt h
  | typeTransition perm => exact typeTransition_wellBuilt h
  | typeChange perm => exact typeChange_wellBuilt h
  | genFsCon perm => exact genFsCon_wellBuilt h

end Kinds

/-! ### What the encoder writes -/

/-- The two tables of argument counts agree. -/
theorem cmdExpectedArgc_eq {cmd : UInt32} {argc : ℕ} (h : cmdExpectedArgc cmd = some argc) :
    sepolExpectedArgc cmd = .ok argc := by
  rw [cmdExpectedArgc] at h
  repeat'
    split at h
    · next hcmd =>
      cases h
      rcases hcmd with rfl | rfl <;> rfl
  cases h

/-- An object is written as the kernel's string of its argument. -/
theorem encodePolicyObject_eq (payload : List UInt8) {o : PolicyObject} (h : o.bytes.length < 2 ^ 32) :
    encodePolicyObject payload o = .ok (payload ++ encodeArg o.toArg) := by
  have hbytes : o.bytes = o.toArg.getD [] := by cases o <;> rfl
  rw [encodePolicyObject, if_pos h, encodeArg, hbytes, List.append_assoc, List.append_assoc]

theorem encodePolicyObjects_eq (payload : List UInt8) {os : List PolicyObject}
    (h : ∀ o ∈ os, o.bytes.length < 2 ^ 32) :
    os.foldlM encodePolicyObject payload =
      .ok (payload ++ (os.map PolicyObject.toArg).flatMap encodeArg) := by
  induction os generalizing payload with
  | nil =>
    rw [List.map_nil, List.flatMap_nil, List.append_nil]
    rfl
  | cons o os ih =>
    obtain ⟨ho, hos⟩ := List.forall_mem_cons.mp h
    rw [List.foldlM_cons, encodePolicyObject_eq payload ho]
    show os.foldlM encodePolicyObject (payload ++ encodeArg o.toArg) = _
    rw [ih _ hos, List.map_cons, List.flatMap_cons, List.append_assoc]

/-- **A statement of a known command is written as its command.** -/
theorem appendAtomicStatement_eq (payload : List UInt8) {st : AtomicStatement}
    (hknown : (cmdExpectedArgc st.cmd).isSome = true)
    (hlen : ∀ o ∈ st.slots.take st.argc, o.bytes.length < 2 ^ 32) :
    appendAtomicStatement payload st = .ok (payload ++ encodeCmd st.toCmd) := by
  obtain ⟨argc, hargc⟩ := Option.isSome_iff_exists.mp hknown
  have hst : st.argc = argc := by rw [AtomicStatement.argc, hargc, Option.getD_some]
  rw [hst] at hlen
  rw [appendAtomicStatement, hargc]
  show (st.slots.take argc).foldlM encodePolicyObject _ = _
  rw [encodePolicyObjects_eq _ hlen, encodeCmd, encodeHeader, AtomicStatement.toCmd, hst]
  simp only [List.append_assoc]

theorem serializeAtomicStatements_eq {sts : List AtomicStatement}
    (hknown : ∀ st ∈ sts, (cmdExpectedArgc st.cmd).isSome = true)
    (hlen : ∀ st ∈ sts, ∀ o ∈ st.slots.take st.argc, o.bytes.length < 2 ^ 32) :
    serializeAtomicStatements sts = .ok ((sts.map AtomicStatement.toCmd).flatMap encodeCmd) := by
  have key : ∀ payload : List UInt8, sts.foldlM appendAtomicStatement payload =
      .ok (payload ++ (sts.map AtomicStatement.toCmd).flatMap encodeCmd) := by
    induction sts with
    | nil =>
      intro payload
      rw [List.map_nil, List.flatMap_nil, List.append_nil]
      rfl
    | cons st sts ih =>
      intro payload
      obtain ⟨hk, hks⟩ := List.forall_mem_cons.mp hknown
      obtain ⟨hl, hls⟩ := List.forall_mem_cons.mp hlen
      rw [List.foldlM_cons, appendAtomicStatement_eq payload hk hl]
      show sts.foldlM appendAtomicStatement (payload ++ encodeCmd st.toCmd) = _
      rw [ih hks hls, List.map_cons, List.flatMap_cons, List.append_assoc]
  exact key []

theorem encodeArg_length (o : PolicyObject) :
    (encodeArg o.toArg).length = 4 + (o.bytes.length + 1) := by
  have hbytes : o.toArg.getD [] = o.bytes := by cases o <;> rfl
  rw [encodeArg, hbytes, List.length_append, List.length_append, encodeLE_length,
    List.length_singleton]

theorem encodeCmd_toCmd_length (st : AtomicStatement) :
    (encodeCmd st.toCmd).length = st.encodedSize := by
  rw [encodeCmd, List.length_append, encodeHeader_length, AtomicStatement.encodedSize,
    AtomicStatement.toCmd, List.length_flatMap, List.map_map]
  congr 2
  exact List.map_congr_left fun o _ => encodeArg_length o

/-- The total encoded size of a list of statements. -/
def encodedSize (sts : List AtomicStatement) : ℕ := (sts.map AtomicStatement.encodedSize).sum

theorem encoded_length (sts : List AtomicStatement) :
    ((sts.map AtomicStatement.toCmd).flatMap encodeCmd).length = encodedSize sts := by
  rw [List.length_flatMap, List.map_map, encodedSize]
  congr 1
  exact List.map_congr_left fun st _ => encodeCmd_toCmd_length st

/-- A written name is no longer than the whole. -/
theorem bytes_length_lt {sts : List AtomicStatement} {st : AtomicStatement} {o : PolicyObject}
    (hst : st ∈ sts) (ho : o ∈ st.slots.take st.argc) : o.bytes.length < encodedSize sts := by
  have h₁ : 4 + (o.bytes.length + 1) ≤
      ((st.slots.take st.argc).map fun o => 4 + (o.bytes.length + 1)).sum :=
    List.le_sum_of_mem (List.mem_map_of_mem ho)
  have h₂ : st.encodedSize ≤ encodedSize sts :=
    List.le_sum_of_mem (List.mem_map_of_mem hst)
  rw [AtomicStatement.encodedSize] at h₂
  omega

/-- **What ksud writes is a batch.** -/
theorem serializeAtomicStatements_isBatch {stmts : List PolicyStatement} {sts : List AtomicStatement}
    (hflat : flattenAtomicStatements stmts = .ok sts)
    (hne : ∀ st ∈ sts, ∀ o ∈ st.slots, o ≠ .one [])
    (hsize : encodedSize sts ≤ KSU_SEPOLICY_MAX_BATCH_SIZE) :
    ∃ payload, serializeAtomicStatements sts = .ok payload ∧ payload.length = encodedSize sts ∧
      IsBatch payload (sts.map AtomicStatement.toCmd) := by
  have hbuilt := flattenAtomicStatements_wellBuilt hflat
  have hlen : ∀ st ∈ sts, ∀ o ∈ st.slots.take st.argc, o.bytes.length < 2 ^ 32 := by
    intro st hst o ho
    have h₁ := bytes_length_lt hst ho
    have h₂ : KSU_SEPOLICY_MAX_BATCH_SIZE = 8 * 1024 * 1024 := rfl
    omega
  refine ⟨_, serializeAtomicStatements_eq (fun st hst => (hbuilt st hst).known) hlen,
    encoded_length sts, rfl, ?_⟩
  intro cmd hcmd
  obtain ⟨st, hst, rfl⟩ := List.mem_map.mp hcmd
  obtain ⟨argc, hargc⟩ := Option.isSome_iff_exists.mp (hbuilt st hst).known
  have hstargc : st.argc = argc := by rw [AtomicStatement.argc, hargc, Option.getD_some]
  have hseven : argc ≤ st.slots.length :=
    Nat.le_trans (sepolExpectedArgc_le (cmdExpectedArgc_eq hargc)) (by decide : 5 ≤ 7)
  constructor
  · show sepolExpectedArgc st.cmd = _
    rw [cmdExpectedArgc_eq hargc, AtomicStatement.toCmd, List.length_map, List.length_take, hstargc,
      Nat.min_eq_left hseven]
  · intro arg harg
    obtain ⟨o, ho, rfl⟩ := List.mem_map.mp harg
    have hslot : o ∈ st.slots := List.mem_of_mem_take ho
    have hbytes : o.toArg.getD [] = o.bytes := by cases o <;> rfl
    refine ⟨?_, ?_, ?_⟩
    · intro h
      refine hne st hst o hslot ?_
      cases o with
      | all => cases h
      | none => cases h
      | one value => rw [Option.some.inj h]
    · rw [hbytes]
      exact (hbuilt st hst).nulFree o hslot
    · rw [hbytes]
      exact hlen st hst o ho

/-! ### The kernel reads back what ksud built -/

/-- Keep the commands instead of applying them. -/
def record (header : SepolData) (args : List (Option Name)) (cmds : List SepolCmd) :
    ℤ × List SepolCmd :=
  (0, cmds ++ [(header, args)])

theorem applyCmds_record (cmds acc : List SepolCmd) : applyCmds record cmds acc = acc ++ cmds := by
  induction cmds generalizing acc with
  | nil => exact (List.append_nil acc).symm
  | cons cmd cmds ih =>
    show applyCmds record cmds (acc ++ [cmd]) = _
    rw [ih, List.append_assoc]
    rfl

/-- **ksud's encoder and the kernel's decoder agree.**  For every list of statements ksud builds from
parsed ones, with non-empty names and within the batch limit, the encoder succeeds; the kernel's loop
over its bytes ends at the last byte and has read one command for each statement, with the same numbers
and the same arguments; and each statement writes all the objects it carries, as many as the kernel
expects. -/
theorem serializeAtomicStatements_roundTrip {stmts : List PolicyStatement}
    {sts : List AtomicStatement} (hflat : flattenAtomicStatements stmts = .ok sts)
    (hne : ∀ st ∈ sts, ∀ o ∈ st.slots, o ≠ .one [])
    (hsize : encodedSize sts ≤ KSU_SEPOLICY_MAX_BATCH_SIZE) :
    ∃ payload, serializeAtomicStatements sts = .ok payload ∧
      (∀ fuel > payload.length, ∃ r,
        sepolBatchLoop record payload fuel ⟨0, payload.length⟩ 0 [] = some r ∧
          r.state = sts.map AtomicStatement.toCmd ∧ r.result.isOk = true ∧
          r.cursor = ⟨payload.length, payload.length⟩) ∧
      ∀ st ∈ sts, (∀ o ∈ st.slots.drop st.argc, o = .none) ∧
        sepolExpectedArgc st.cmd = .ok st.toCmd.2.length := by
  obtain ⟨payload, hser, -, hbatch⟩ := serializeAtomicStatements_isBatch hflat hne hsize
  refine ⟨payload, hser, fun fuel hfuel => ?_, fun st hst => ⟨?_, ?_⟩⟩
  · obtain ⟨r, hr, -, hres⟩ := sepolBatchLoop_spec record payload (Nat.zero_le payload.length)
      (by simpa using hfuel) 0 []
    refine ⟨r, hr, ?_⟩
    rw [List.drop_zero] at hres
    cases hrr : r.result with
    | error e =>
      rw [hrr] at hres
      exact absurd hres (isBatch_not_framingError hbatch)
    | ok n =>
      rw [hrr] at hres
      obtain ⟨cmds, hcmds, -, hstate, hcursor⟩ := hres
      rw [isBatch_unique hcmds hbatch, applyCmds_record, List.nil_append] at hstate
      exact ⟨hstate, rfl, hcursor⟩
  · exact (flattenAtomicStatements_wellBuilt hflat st hst).unused
  · exact (hbatch.2 st.toCmd (List.mem_map_of_mem hst)).1

/-- `permissive { a b }`: two commands. -/
theorem serializeAtomicStatements_roundTrip_two :
    ∃ payload, serializeAtomicStatements
      [⟨KSU_SEPOLICY_CMD_TYPE_STATE, 1, .one [0x61], .none, .none, .none, .none, .none, .none⟩,
        ⟨KSU_SEPOLICY_CMD_TYPE_STATE, 1, .one [0x62], .none, .none, .none, .none, .none, .none⟩] =
        .ok payload ∧
      ∀ fuel > payload.length, ∃ r,
        sepolBatchLoop record payload fuel ⟨0, payload.length⟩ 0 [] = some r ∧
          r.state = [(⟨3, 1⟩, [some [0x61]]), (⟨3, 1⟩, [some [0x62]])] := by
  obtain ⟨payload, hser, hrun, -⟩ := serializeAtomicStatements_roundTrip
    (rfl : flattenAtomicStatements [.typeState ⟨"permissive", [['a'], ['b']]⟩] = _) (by decide)
    (by decide)
  refine ⟨payload, hser, fun fuel hfuel => ?_⟩
  obtain ⟨r, hr, hstate, -⟩ := hrun fuel hfuel
  exact ⟨r, hr, hstate⟩

end KernelSU.Ksud
