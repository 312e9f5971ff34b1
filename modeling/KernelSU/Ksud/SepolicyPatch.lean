import KernelSU.Ksud.SepolicyShape
import KernelSU.Selinux.AvDecisions

/-!
# `ksud sepolicy patch`: from the text to the policy in force

`live_patch` reads the text statement by statement, leaves out what it cannot read, and sends the rest to the kernel
as one batch.

* `PolicyStatement.applied` — **PROVED**: the commands of one statement do to the access vectors what the statement
  says: a rule decides the bits it names, and nothing else decides any;
* `livePatch_lastStatementWins` — **PROVED**: after the patch every bit of every access vector is what the last
  statement of the text that names it says, and else what it was; and a batch that the kernel does not take leaves
  the policy in force alone.

The kernel's side of the ioctl is `handleSepolicy`; `osError` is how an error number is displayed.
-/

namespace KernelSU.Ksud

open KernelSU.Lib KernelSU.Selinux

/-! ### The functions -/

/-- `apply_rules_batch`; the state is the kernel's, and the call that fails is told by its negative result. -/
def applyRulesBatch (osError : ℤ → String) (linux : LinuxPolicydb) (copyFault : Bool)
    (statements : List PolicyStatement) (strict : Bool) (m : PolicyMem) : Option (Except String Unit × PolicyMem) :=
  match flattenAtomicStatements statements with
  | .error e => some (.error e, m)
  | .ok policies =>
    if policies = [] then some (.ok (), m)
    else
      match serializeAtomicStatements policies with
      | .error e => some (.error e, m)
      | .ok payload =>
        (handleSepolicy linux copyFault (payload.length + 1) (some payload) m).map fun out =>
          if out.ret < 0 then
            let e := osError out.ret
            (if strict then .error s!"apply sepolicy batch failed: {e}" else .ok (), out.mem)
          else
            let appliedCount := out.ret.toNat
            let len := policies.length
            if appliedCount < len ∧ strict = true then
              (.error s!"apply sepolicy batch partially succeeded: {appliedCount}/{len}", out.mem)
            else (.ok (), out.mem)

/-- `live_patch`. -/
def livePatch (osError : ℤ → String) (linux : LinuxPolicydb) (copyFault : Bool) (policy : Str) (m : PolicyMem) :
    Option (Except String Unit × PolicyMem) :=
  match parseSepolicy (trim policy) false with
  | .error e => some (.error e, m)
  | .ok result => applyRulesBatch osError linux copyFault result false m

/-! ### What a statement says -/

/-- The kind of rule that a keyword stands for. -/
def kindOf (op : String) : Option AvKind :=
  if op = "allow" then some .allow
  else if op = "deny" then some .deny
  else if op = "auditallow" then some .auditallow
  else if op = "dontaudit" then some .dontaudit
  else none

/-- The name a word stands for; `*` stands for all. -/
def nameOf (word : Str) : Option Name := if word = ['*'] then none else some (asBytes word)

/-- One source, one target, one class and one permission of a rule. -/
structure Combination where
  source : Str
  target : Str
  tclass : Str
  perm : Str

/-- The combinations that a rule lists. -/
def NormalPerm.combinations (perm : NormalPerm) : List Combination :=
  perm.source.flatMap fun s => perm.target.flatMap fun t => perm.tclass.flatMap fun c => perm.perm.map fun p =>
    ⟨s, t, c, p⟩

/-- Whether a combination of a rule reaches the bit. -/
def Combination.reaches (w : Combination) (kind : AvKind) (db : Policydb) (b : AvBit) : Bool :=
  kind.reaches db (nameOf w.source) (nameOf w.target) (nameOf w.tclass) (nameOf w.perm) b

/-- **What a statement says about a bit**, in a policy: a rule sets or clears the bits that its combinations reach;
the other statements say nothing about access vectors. -/
def PolicyStatement.decides (db : Policydb) (st : PolicyStatement) (b : AvBit) : Option Bool :=
  match st with
  | .normalPerm perm =>
    (kindOf perm.op).bind fun kind =>
      if perm.combinations.any fun w => w.reaches kind db b then some kind.sets else none
  | _ => none

/-- The commands that arrive for a statement. -/
def PolicyStatement.commands (st : PolicyStatement) : List SepolCmd :=
  match st.tryInto with
  | .ok sts => sts.map AtomicStatement.received
  | .error _ => []

/-- The policy after a statement. -/
def patched (m : PolicyMem) (st : PolicyStatement) : PolicyMem := st.commands.foldl applyCmd m

/-! ### Expansions -/

section Loops

variable {α : Type} {xs : List α} {f : α → Except String (List AtomicStatement)}

theorem forEach_eq {g : α → List AtomicStatement} (h : ∀ x ∈ xs, f x = .ok (g x)) :
    forEach xs f = .ok (xs.flatMap g) := by
  induction xs with
  | nil => rfl
  | cons x xs ih =>
    rw [forEach, h x List.mem_cons_self, ih fun y hy => h y (List.mem_cons_of_mem x hy), List.flatMap_cons]
    rfl

end Loops

/-- The object a word is converted to. -/
def objectOf (word : Str) : PolicyObject := if word = ['*'] then .all else .one (asBytes word)

/-- A word that the grammar has: it is converted, and arrives as the name it stands for. -/
structure Legible (word : Str) : Prop where
  converts : PolicyObject.tryFrom word = .ok (objectOf word)
  arrives : (objectOf word).arrives = nameOf word

theorem legible_of_objectOrStar {s rest : Str} {o : SeObject} (h : ObjectOrStar s rest o) :
    ∀ w ∈ o, Legible w := by
  intro w hw
  rcases (objectOrStar_words h).2 with rfl | hwords
  · obtain rfl := List.mem_singleton.mp hw
    exact ⟨tryFrom_star, rfl⟩
  · obtain ⟨hconverts, hne⟩ := tryFrom_word (hwords w hw)
    have hstar : w ≠ ['*'] := by
      rintro rfl
      exact absurd ((hwords _ hw).2 '*' List.mem_cons_self) (by decide)
    refine ⟨by rw [hconverts, objectOf, if_neg hstar], ?_⟩
    rw [objectOf, nameOf, if_neg hstar, if_neg hstar, PolicyObject.arrives]
    exact if_neg hne

/-- The atomic statement of a combination. -/
def Combination.atomic (w : Combination) (kind : AvKind) : AtomicStatement :=
  ⟨KSU_SEPOLICY_CMD_NORMAL_PERM, kind.subcmd, objectOf w.source, objectOf w.target, objectOf w.tclass,
    objectOf w.perm, .none, .none, .none⟩

/-- The command of a combination. -/
def Combination.cmd (w : Combination) (kind : AvKind) : SepolCmd :=
  kind.cmd (nameOf w.source) (nameOf w.target) (nameOf w.tclass) (nameOf w.perm)

/-- **What a rule expands to**: one command for each combination, in order. -/
theorem normalPerm_commands {s rest : Str} {perm : NormalPerm} (h : NormalPerm.Spells s rest perm) :
    ∃ kind, kindOf perm.op = some kind ∧ perm.tryInto = .ok (perm.combinations.map fun w => w.atomic kind) ∧
      (perm.combinations.map fun w => (w.atomic kind).received) = perm.combinations.map fun w => w.cmd kind := by
  obtain ⟨_, op, _, _, rfl, ⟨hop, -⟩, -, _, source, _, _, rfl, hsource, -, _, target, _, _, rfl, htarget, -, _, tclass, _,
    _, rfl, hclass, -, perms, hperm, rfl⟩ := h
  have hs := legible_of_objectOrStar hsource
  have ht := legible_of_objectOrStar htarget
  have hc := legible_of_objectOrStar hclass
  have hp := legible_of_objectOrStar hperm
  have hkind : ∃ kind, kindOf op = some kind ∧
      (if op = "allow" then KSU_SEPOLICY_SUBCMD_NORMAL_PERM_ALLOW
        else if op = "deny" then KSU_SEPOLICY_SUBCMD_NORMAL_PERM_DENY
        else if op = "auditallow" then KSU_SEPOLICY_SUBCMD_NORMAL_PERM_AUDITALLOW
        else if op = "dontaudit" then KSU_SEPOLICY_SUBCMD_NORMAL_PERM_DONTAUDIT
        else 0) = kind.subcmd := by
    simp only [List.mem_cons, List.not_mem_nil, or_false] at hop
    rcases hop with rfl | rfl | rfl | rfl
    · exact ⟨.allow, rfl, rfl⟩
    · exact ⟨.deny, rfl, rfl⟩
    · exact ⟨.auditallow, rfl, rfl⟩
    · exact ⟨.dontaudit, rfl, rfl⟩
  obtain ⟨kind, hkind, hsubcmd⟩ := hkind
  refine ⟨kind, hkind, ?_, ?_⟩
  · simp only [NormalPerm.tryInto, NormalPerm.combinations, List.map_flatMap, List.map_map, hsubcmd]
    refine forEach_eq fun s hs' => forEach_eq fun t ht' => forEach_eq fun c hc' => ?_
    rw [← List.flatMap_pure_eq_map]
    refine forEach_eq fun p hp' => ?_
    rw [(hs s hs').converts, (ht t ht').converts, (hc c hc').converts, (hp p hp').converts]
    rfl
  · refine List.map_congr_left fun w hw => ?_
    simp only [NormalPerm.combinations, List.mem_flatMap, List.mem_map] at hw
    obtain ⟨s, hs', t, ht', c, hc', p, hp', rfl⟩ := hw
    show ((⟨KSU_SEPOLICY_CMD_NORMAL_PERM, kind.subcmd⟩, [(objectOf s).arrives, (objectOf t).arrives,
      (objectOf c).arrives, (objectOf p).arrives]) : SepolCmd) = _
    rw [(hs s hs').arrives, (ht t ht').arrives, (hc c hc').arrives, (hp p hp').arrives]
    rfl

section Numbers

variable {sts : List AtomicStatement} {cmd : UInt32}

theorem pushed_cmd {st : AtomicStatement} (hcmd : st.cmd = cmd) (h : Except.ok [st] = (Except.ok sts : Except String _)) :
    ∀ a ∈ sts, a.cmd = cmd := by
  obtain rfl := Except.ok.inj h
  exact List.forall_mem_singleton.mpr hcmd

theorem xPerm_cmd {perm : XPerm} (h : perm.tryInto = .ok sts) : ∀ a ∈ sts, a.cmd = KSU_SEPOLICY_CMD_XPERM := by
  refine forEach_forall (fun s _ h => ?_) h
  refine forEach_forall (fun t _ h => ?_) h
  refine forEach_forall (fun c _ h => ?_) h
  refine forEach_forall (fun r _ h => ?_) h
  obtain ⟨_, -, h⟩ := except_bind_ok.mp h
  obtain ⟨_, -, h⟩ := except_bind_ok.mp h
  obtain ⟨_, -, h⟩ := except_bind_ok.mp h
  obtain ⟨_, -, h⟩ := except_bind_ok.mp h
  obtain ⟨_, -, h⟩ := except_bind_ok.mp h
  exact pushed_cmd rfl h

theorem typeState_cmd {perm : TypeState} (h : perm.tryInto = .ok sts) :
    ∀ a ∈ sts, a.cmd = KSU_SEPOLICY_CMD_TYPE_STATE := by
  refine forEach_forall (fun t _ h => ?_) h
  obtain ⟨_, -, h⟩ := except_bind_ok.mp h
  exact pushed_cmd rfl h

theorem typeDecl_cmd {perm : TypeDecl} (h : perm.tryInto = .ok sts) : ∀ a ∈ sts, a.cmd = KSU_SEPOLICY_CMD_TYPE := by
  refine forEach_forall (fun attr _ h => ?_) h
  obtain ⟨_, -, h⟩ := except_bind_ok.mp h
  obtain ⟨_, -, h⟩ := except_bind_ok.mp h
  exact pushed_cmd rfl h

theorem typeAttr_cmd {perm : TypeAttr} (h : perm.tryInto = .ok sts) :
    ∀ a ∈ sts, a.cmd = KSU_SEPOLICY_CMD_TYPE_ATTR := by
  refine forEach_forall (fun t _ h => ?_) h
  refine forEach_forall (fun attr _ h => ?_) h
  obtain ⟨_, -, h⟩ := except_bind_ok.mp h
  obtain ⟨_, -, h⟩ := except_bind_ok.mp h
  exact pushed_cmd rfl h

theorem attr_cmd {perm : Attr} (h : perm.tryInto = .ok sts) : ∀ a ∈ sts, a.cmd = KSU_SEPOLICY_CMD_ATTR := by
  obtain ⟨_, -, h⟩ := except_bind_ok.mp h
  exact pushed_cmd rfl h

theorem typeTransition_cmd {perm : TypeTransition} (h : perm.tryInto = .ok sts) :
    ∀ a ∈ sts, a.cmd = KSU_SEPOLICY_CMD_TYPE_TRANSITION := by
  obtain ⟨_, -, h⟩ := except_bind_ok.mp h
  obtain ⟨_, -, h⟩ := except_bind_ok.mp h
  obtain ⟨_, -, h⟩ := except_bind_ok.mp h
  obtain ⟨_, -, h⟩ := except_bind_ok.mp h
  obtain ⟨_, -, h⟩ := except_bind_ok.mp h
  exact pushed_cmd rfl h

theorem typeChange_cmd {perm : TypeChange} (h : perm.tryInto = .ok sts) :
    ∀ a ∈ sts, a.cmd = KSU_SEPOLICY_CMD_TYPE_CHANGE := by
  obtain ⟨_, -, h⟩ := except_bind_ok.mp h
  obtain ⟨_, -, h⟩ := except_bind_ok.mp h
  obtain ⟨_, -, h⟩ := except_bind_ok.mp h
  obtain ⟨_, -, h⟩ := except_bind_ok.mp h
  exact pushed_cmd rfl h

theorem genFsCon_cmd {perm : GenFsCon} (h : perm.tryInto = .ok sts) :
    ∀ a ∈ sts, a.cmd = KSU_SEPOLICY_CMD_GENFSCON := by
  obtain ⟨_, -, h⟩ := except_bind_ok.mp h
  obtain ⟨_, -, h⟩ := except_bind_ok.mp h
  obtain ⟨_, -, h⟩ := except_bind_ok.mp h
  exact pushed_cmd rfl h

end Numbers

/-- A statement that is no rule. -/
def PolicyStatement.NoRule (st : PolicyStatement) : Prop := ∀ perm, st ≠ .normalPerm perm

/-- **The other statements** send other commands. -/
theorem noRule_commands {st : PolicyStatement} (hst : st.NoRule) :
    ∀ cmd ∈ st.commands, cmd.1.cmd ≠ KSU_SEPOLICY_CMD_NORMAL_PERM := by
  intro cmd hmem
  rw [PolicyStatement.commands] at hmem
  cases hinto : st.tryInto with
  | error e =>
    rw [hinto] at hmem
    exact absurd hmem List.not_mem_nil
  | ok sts =>
    rw [hinto] at hmem
    obtain ⟨a, ha, rfl⟩ := List.mem_map.mp hmem
    show a.cmd ≠ KSU_SEPOLICY_CMD_NORMAL_PERM
    cases st with
    | normalPerm perm => exact absurd rfl (hst perm)
    | xPerm perm => rw [xPerm_cmd hinto a ha]; decide
    | typeState perm => rw [typeState_cmd hinto a ha]; decide
    | type perm => rw [typeDecl_cmd hinto a ha]; decide
    | typeAttr perm => rw [typeAttr_cmd hinto a ha]; decide
    | attr perm => rw [attr_cmd hinto a ha]; decide
    | typeTransition perm => rw [typeTransition_cmd hinto a ha]; decide
    | typeChange perm => rw [typeChange_cmd hinto a ha]; decide
    | genFsCon perm => rw [genFsCon_cmd hinto a ha]; decide

/-! ### What the commands of a statement do -/

/-- The combinations of a rule, one after another. -/
theorem combinations_applied (kind : AvKind) (ws : List Combination) {m : PolicyMem} (hm : Roomy m) :
    Roomy ((ws.map fun w => w.cmd kind).foldl applyCmd m) ∧
      ∀ b : AvBit, b.value ((ws.map fun w => w.cmd kind).foldl applyCmd m).db =
        if ws.any fun w => w.reaches kind m.db b then kind.sets else b.value m.db := by
  induction ws generalizing m with
  | nil => exact ⟨hm, fun b => rfl⟩
  | cons w ws ih =>
    have hstep := ksuAv_decides kind (nameOf w.source) (nameOf w.target) (nameOf w.tclass) (nameOf w.perm) hm
    rw [← applyCmd_rule] at hstep
    have hnext : Roomy (applyCmd m (w.cmd kind)) := hstep.roomy
    obtain ⟨hroomy, hvalue⟩ := ih hnext
    refine ⟨hroomy, fun b => ?_⟩
    have hrest : (ws.any fun w' => w'.reaches kind (applyCmd m (w.cmd kind)).db b) =
        ws.any fun w' => w'.reaches kind m.db b := by
      congr 1
      funext w'
      exact kind.reaches_congr hstep.types hstep.classes _ _ _ _ b
    have hfirst : b.value (applyCmd m (w.cmd kind)).db = if w.reaches kind m.db b then kind.sets else b.value m.db :=
      hstep.value b
    rw [List.map_cons, List.foldl_cons, hvalue, hrest, hfirst, List.any_cons]
    cases w.reaches kind m.db b with
    | true => rw [if_pos rfl, Bool.true_or, if_pos rfl, ite_self]
    | false => rw [Bool.false_or, if_neg Bool.false_ne_true]

/-- Other commands, one after another. -/
theorem others_applied {cmds : List SepolCmd} (hcmds : ∀ cmd ∈ cmds, cmd.1.cmd ≠ KSU_SEPOLICY_CMD_NORMAL_PERM)
    {m : PolicyMem} (hm : Roomy m) :
    Roomy (cmds.foldl applyCmd m) ∧ ∀ b : AvBit, b.value (cmds.foldl applyCmd m).db = b.value m.db := by
  induction cmds generalizing m with
  | nil => exact ⟨hm, fun b => rfl⟩
  | cons cmd cmds ih =>
    obtain ⟨hroomy, hfirst⟩ := applyCmd_keeps (hcmds cmd List.mem_cons_self) hm
    obtain ⟨hlast, hrest⟩ := ih (fun c hc => hcmds c (List.mem_cons_of_mem cmd hc)) hroomy
    exact ⟨hlast, fun b => (hrest b).trans (hfirst b)⟩

/-- **The commands of a statement do what it says.** -/
theorem PolicyStatement.applied (st : PolicyStatement) {s rest : Str} (h : st.Spells s rest) {m : PolicyMem}
    (hm : Roomy m) :
    Roomy (patched m st) ∧ ∀ b : AvBit, b.value (patched m st).db = (st.decides m.db b).getD (b.value m.db) := by
  by_cases hrule : st.NoRule
  · obtain ⟨hroomy, hvalue⟩ := others_applied (noRule_commands hrule) hm
    refine ⟨hroomy, fun b => (hvalue b).trans ?_⟩
    cases st with
    | normalPerm perm => exact absurd rfl (hrule perm)
    | _ => rfl
  · obtain ⟨perm, rfl⟩ : ∃ perm, st = .normalPerm perm := by
      by_contra hne
      exact hrule fun perm heq => hne ⟨perm, heq⟩
    obtain ⟨kind, hkind, hinto, hreceived⟩ := normalPerm_commands h
    have hcommands : (PolicyStatement.normalPerm perm).commands = perm.combinations.map fun w => w.cmd kind := by
      rw [← hreceived, PolicyStatement.commands, PolicyStatement.tryInto, hinto]
      exact List.map_map
    obtain ⟨hroomy, hvalue⟩ := combinations_applied kind perm.combinations hm
    rw [patched, hcommands]
    refine ⟨hroomy, fun b => ?_⟩
    rw [hvalue, PolicyStatement.decides, hkind, Option.bind_some]
    cases perm.combinations.any fun w => w.reaches kind m.db b with
    | true => rfl
    | false => rfl

/-! ### The batch of a text -/

/-- Spelled statements are all converted. -/
theorem spells_converts {s rest : Str} {st : PolicyStatement} (h : st.Spells s rest) :
    ∃ sts, st.tryInto = .ok sts ∧ sts ≠ [] := by
  by_cases hset : StarSet st
  · obtain ⟨perm, rfl, hstar⟩ := hset
    obtain ⟨sts, hsts, hne, -⟩ := xPerm_expands_star h hstar
    exact ⟨sts, hsts, hne⟩
  · obtain ⟨sts, hsts, hne, -⟩ := spells_expands h hset
    exact ⟨sts, hsts, hne⟩

theorem flatten_commands {stmts : List PolicyStatement} (h : ∀ st ∈ stmts, ∃ s rest, st.Spells s rest) :
    ∃ sts, flattenAtomicStatements stmts = .ok sts ∧ (sts = [] ↔ stmts = []) ∧
      sts.map AtomicStatement.received = stmts.flatMap PolicyStatement.commands := by
  refine ⟨stmts.flatMap fun st => st.tryInto.toOption.getD [], forEach_eq fun st hst => ?_, ?_, ?_⟩
  · obtain ⟨s, rest, hspells⟩ := h st hst
    obtain ⟨sts, hsts, -⟩ := spells_converts hspells
    rw [hsts]
    rfl
  · rw [List.flatMap_eq_nil_iff]
    refine ⟨fun hnone => List.eq_nil_iff_forall_not_mem.mpr fun st hst => ?_, fun hnil => by simp [hnil]⟩
    obtain ⟨s, rest, hspells⟩ := h st hst
    obtain ⟨sts, hsts, hne⟩ := spells_converts hspells
    have hsome := hnone st hst
    rw [hsts] at hsome
    exact hne hsome
  · rw [List.map_flatMap]
    refine List.flatMap_congr fun st _ => ?_
    rw [PolicyStatement.commands]
    cases st.tryInto with
    | ok sts => rfl
    | error e => rfl

/-- An object is written as the argument that arrives. -/
theorem encodeArg_arrives (o : PolicyObject) : encodeArg o.toArg = encodeArg o.arrives := by
  have harrives : o.arrives.getD [] = o.bytes := by
    rw [PolicyObject.arrives]
    split
    · next hnil => rw [hnil]; rfl
    · rfl
  have htoArg : o.toArg.getD [] = o.bytes := by cases o <;> rfl
  rw [encodeArg, encodeArg, harrives, htoArg]

theorem encodeCmd_received (st : AtomicStatement) : encodeCmd st.toCmd = encodeCmd st.received := by
  rw [encodeCmd, encodeCmd, AtomicStatement.toCmd, AtomicStatement.received, List.flatMap_map, List.flatMap_map]
  congr 1
  exact List.flatMap_congr fun o _ => encodeArg_arrives o

/-- A loop whose turns append. -/
theorem foldlM_append_ok {α : Type} {f : List UInt8 → α → Except String (List UInt8)} (enc : α → List UInt8)
    (hf : ∀ p a p', f p a = .ok p' → p' = p ++ enc a) {as : List α} {p p' : List UInt8}
    (h : as.foldlM f p = .ok p') : p' = p ++ as.flatMap enc := by
  induction as generalizing p with
  | nil => exact (Except.ok.inj h).symm.trans (List.append_nil p).symm
  | cons a as ih =>
    rw [List.foldlM_cons] at h
    obtain ⟨p₁, hfirst, hrest⟩ := except_bind_ok.mp h
    rw [ih hrest, hf p a p₁ hfirst, List.flatMap_cons, List.append_assoc]

theorem encodePolicyObject_ok {payload p : List UInt8} {o : PolicyObject} (h : encodePolicyObject payload o = .ok p) :
    p = payload ++ encodeArg o.toArg := by
  by_cases hlen : o.bytes.length < 2 ^ 32
  · rw [encodePolicyObject_eq payload hlen] at h
    exact (Except.ok.inj h).symm
  · rw [encodePolicyObject, if_neg hlen] at h
    cases h

theorem appendAtomicStatement_ok {payload p : List UInt8} {st : AtomicStatement}
    (h : appendAtomicStatement payload st = .ok p) : p = payload ++ encodeCmd st.toCmd := by
  rw [appendAtomicStatement] at h
  split at h
  · cases h
  · next argc hargc =>
    have hst : st.argc = argc := by rw [AtomicStatement.argc, hargc, Option.getD_some]
    have hargs := foldlM_append_ok (fun o : PolicyObject => encodeArg o.toArg) (fun _ _ _ => encodePolicyObject_ok) h
    rw [hargs, encodeCmd, encodeHeader, AtomicStatement.toCmd, hst, List.flatMap_map]
    simp only [List.append_assoc]

/-- Whatever is sent has the size that is counted. -/
theorem serialized_length {sts : List AtomicStatement} {payload : List UInt8}
    (hser : serializeAtomicStatements sts = .ok payload) : payload.length = encodedSize sts := by
  have hcmds := foldlM_append_ok (fun st : AtomicStatement => encodeCmd st.toCmd) (fun _ _ _ => appendAtomicStatement_ok) hser
  rw [hcmds, List.nil_append, ← encoded_length, List.flatMap_map]

/-- **What is sent is the batch of the commands that arrive.** -/
theorem serialized_isBatch {stmts : List PolicyStatement} {sts : List AtomicStatement} {payload : List UInt8}
    (hflat : flattenAtomicStatements stmts = .ok sts) (hsize : encodedSize sts < 2 ^ 32)
    (hser : serializeAtomicStatements sts = .ok payload) :
    IsBatch payload (sts.map AtomicStatement.received) := by
  have hbuilt := flattenAtomicStatements_wellBuilt hflat
  have hlen : ∀ st ∈ sts, ∀ o ∈ st.slots.take st.argc, o.bytes.length < 2 ^ 32 := fun st hst o ho =>
    (bytes_length_lt hst ho).trans hsize
  rw [serializeAtomicStatements_eq (fun st hst => (hbuilt st hst).known) hlen] at hser
  obtain rfl := Except.ok.inj hser
  refine ⟨?_, ?_⟩
  · rw [List.flatMap_map, List.flatMap_map]
    exact List.flatMap_congr fun st _ => encodeCmd_received st
  · intro cmd hcmd
    obtain ⟨st, hst, rfl⟩ := List.mem_map.mp hcmd
    obtain ⟨argc, hargc⟩ := Option.isSome_iff_exists.mp (hbuilt st hst).known
    have hstargc : st.argc = argc := by rw [AtomicStatement.argc, hargc, Option.getD_some]
    have hseven : argc ≤ st.slots.length :=
      Nat.le_trans (sepolExpectedArgc_le (cmdExpectedArgc_eq hargc)) (by decide : 5 ≤ 7)
    refine ⟨?_, ?_⟩
    · show sepolExpectedArgc st.cmd = _
      rw [cmdExpectedArgc_eq hargc, AtomicStatement.received, List.length_map, List.length_take, hstargc,
        Nat.min_eq_left hseven]
    · intro arg harg
      obtain ⟨o, ho, rfl⟩ := List.mem_map.mp harg
      have hnul := (hbuilt st hst).nulFree o (List.mem_of_mem_take ho)
      have hshort := hlen st hst o ho
      rw [PolicyObject.arrives]
      split
      · exact ⟨by simp, List.not_mem_nil, by decide⟩
      · next hne => exact ⟨fun h => hne (Option.some.inj h), hnul, hshort⟩

/-! ### The whole path -/

/-- Reading a text that need not be right never fails, and reads statements of the grammar. -/
theorem parseSepolicy_lenient (text : Str) :
    ∃ stmts, parseSepolicy text false = .ok stmts ∧ ∀ st ∈ stmts, ∃ s rest, st.Spells s rest := by
  refine ⟨((linesOf text).flatMap piecesOf).filterMap statementOf, ?_, ?_⟩
  · rw [parseSepolicy_eq, parseLines_ok_iff]
    exact ⟨rfl, fun h => absurd h Bool.false_ne_true⟩
  · intro st hst
    obtain ⟨piece, -, hpiece⟩ := List.mem_filterMap.mp hst
    obtain ⟨s, rest, -, hspells⟩ := statementOf_eq_some_iff.mp hpiece
    exact ⟨s, rest, hspells⟩

section Patch

variable (osError : ℤ → String) (linux : LinuxPolicydb) (copyFault : Bool) {stmts : List PolicyStatement}
  {sts : List AtomicStatement} {m : PolicyMem}

/-- A statement has a header. -/
theorem encodedSize_pos (hne : sts ≠ []) : 1 ≤ encodedSize sts := by
  obtain ⟨st, hst⟩ := List.exists_mem_of_ne_nil sts hne
  have hle : st.encodedSize ≤ encodedSize sts := List.le_sum_of_mem (List.mem_map_of_mem hst)
  rw [AtomicStatement.encodedSize] at hle
  omega

/-- A batch that the kernel takes. -/
theorem applyRulesBatch_taken (hflat : flattenAtomicStatements stmts = .ok sts) (hne : sts ≠ [])
    (hsize : encodedSize sts ≤ KSU_SEPOLICY_MAX_BATCH_SIZE) {dup : PolicyMem}
    (hdup : batchDuplicate linux copyFault m = some dup) :
    applyRulesBatch osError linux copyFault stmts false m =
      some (.ok (), (sts.map AtomicStatement.received).foldl applyCmd dup) := by
  have hlt : encodedSize sts < 2 ^ 32 := hsize.trans_lt (by decide)
  have hbuilt := flattenAtomicStatements_wellBuilt hflat
  have hser := serializeAtomicStatements_eq (fun st hst => (hbuilt st hst).known)
    fun st hst o ho => (bytes_length_lt hst ho).trans hlt
  have hlen := serialized_length hser
  obtain ⟨out, hout, hret, hmem⟩ := handleSepolicy_batch linux hdup (serialized_isBatch hflat hlt hser)
    (by rw [hlen]; exact encodedSize_pos hne) (by rw [hlen]; exact hsize) (Nat.lt_succ_self _)
  have hnonneg : ¬out.ret < 0 := by
    rw [hret]
    omega
  simp only [applyRulesBatch, hflat, if_neg hne, hser, hout, Option.map_some, if_neg hnonneg, Bool.false_eq_true,
    and_false, if_false, hmem]

/-- A batch that the kernel does not take, or that cannot be written. -/
theorem applyRulesBatch_refused (hflat : flattenAtomicStatements stmts = .ok sts)
    (hrefused : sts = [] ∨ KSU_SEPOLICY_MAX_BATCH_SIZE < encodedSize sts ∨ batchDuplicate linux copyFault m = none) :
    ∃ r m', applyRulesBatch osError linux copyFault stmts false m = some (r, m') ∧ m'.db = m.db := by
  by_cases hnil : sts = []
  · exact ⟨.ok (), m, by simp only [applyRulesBatch, hflat, if_pos hnil], rfl⟩
  · cases hser : serializeAtomicStatements sts with
    | error e => exact ⟨.error e, m, by simp only [applyRulesBatch, hflat, if_neg hnil, hser], rfl⟩
    | ok payload =>
      have hlen := serialized_length hser
      obtain ⟨out, hout, hneg, hdb⟩ : ∃ out, handleSepolicy linux copyFault (payload.length + 1) (some payload) m =
          some out ∧ out.ret < 0 ∧ out.mem.db = m.db :=
        handleSepolicy_refused linux (by rw [hlen]; exact encodedSize_pos hnil)
          (by rw [hlen]; exact hrefused.resolve_left hnil)
      refine ⟨.ok (), out.mem, ?_, hdb⟩
      simp only [applyRulesBatch, hflat, if_neg hnil, hser, hout, Option.map_some, if_pos hneg, Bool.false_eq_true,
        if_false]

/-- **The last statement wins.**  Whatever the text, the statements that can be read are sent as one batch.  If the
kernel takes it, every bit of every access vector is then what the last statement that names it says, in the policy
that this statement meets, and else what it was.  If it does not, the policy in force is the one before. -/
theorem livePatch_lastStatementWins (text : Str) (m : PolicyMem) :
    ∃ stmts sts, parseSepolicy (trim text) false = .ok stmts ∧ flattenAtomicStatements stmts = .ok sts ∧
      ∃ r m', livePatch osError linux copyFault text m = some (r, m') ∧
        (stmts = [] ∨ KSU_SEPOLICY_MAX_BATCH_SIZE < encodedSize sts ∨ batchDuplicate linux copyFault m = none →
          m'.db = m.db) ∧
        ∀ dup, batchDuplicate linux copyFault m = some dup → Roomy dup → stmts ≠ [] →
          encodedSize sts ≤ KSU_SEPOLICY_MAX_BATCH_SIZE →
            r = .ok () ∧ AvtabWellFormed m'.db ∧ ∀ b : AvBit,
              b.value m'.db =
                (lastDecision patched (fun m st => st.decides m.db) stmts dup b).getD (b.value dup.db) := by
  obtain ⟨stmts, hparse, hspelled⟩ := parseSepolicy_lenient (trim text)
  obtain ⟨sts, hflat, hnil, hcommands⟩ := flatten_commands hspelled
  have hlive : livePatch osError linux copyFault text m = applyRulesBatch osError linux copyFault stmts false m := by
    simp only [livePatch, hparse]
  refine ⟨stmts, sts, hparse, hflat, ?_⟩
  rw [hlive]
  by_cases hrefused : sts = [] ∨ KSU_SEPOLICY_MAX_BATCH_SIZE < encodedSize sts ∨ batchDuplicate linux copyFault m = none
  · obtain ⟨r, m', hrun, hdb⟩ := applyRulesBatch_refused osError linux copyFault hflat hrefused
    refine ⟨r, m', hrun, fun _ => hdb, fun dup hdup hroomy hne hsize => ?_⟩
    rcases hrefused with h | h | h
    · exact absurd (hnil.mp h) hne
    · exact absurd hsize (Nat.not_le.mpr h)
    · rw [h] at hdup
      cases hdup
  · rw [not_or, not_or, hnil] at hrefused
    obtain ⟨hne, hsize, hdup⟩ := hrefused
    obtain ⟨dup, hdup⟩ := Option.ne_none_iff_exists'.mp hdup
    refine ⟨.ok (), _, applyRulesBatch_taken osError linux copyFault hflat (fun h => hne (hnil.mp h))
      (Nat.not_lt.mp hsize) hdup, ?_, ?_⟩
    · rintro (h | h | h)
      · exact absurd h hne
      · exact absurd h hsize
      · rw [h] at hdup
        cases hdup
    · intro dup' hdup' hroomy _ _
      rw [hdup] at hdup'
      obtain rfl := Option.some.inj hdup'
      have hfold : (sts.map AtomicStatement.received).foldl applyCmd dup = stmts.foldl patched dup := by
        rw [hcommands, List.foldl_flatMap]
        rfl
      have happlied : ∀ m, Roomy m → ∀ st ∈ stmts, Roomy (patched m st) ∧
          ∀ b : AvBit, b.value (patched m st).db = (st.decides m.db b).getD (b.value m.db) := by
        intro m hm st hst
        obtain ⟨s, rest, hspells⟩ := hspelled st hst
        exact st.applied hspells hm
      have hkeep : ∀ m, Roomy m → ∀ st ∈ stmts, Roomy (patched m st) := fun m hm st hst => (happlied m hm st hst).1
      have hend : Roomy (stmts.foldl patched dup) := List.foldlRecOn stmts patched hroomy hkeep
      have hlast := foldl_lastDecision (fun (m : PolicyMem) (st : PolicyStatement) b => st.decides m.db b)
        (fun m b => AvBit.value b m.db) hkeep (fun m hm st hst => (happlied m hm st hst).2) hroomy
      rw [hfold]
      exact ⟨rfl, hend.wellFormed, hlast⟩

end Patch

/-- A type `a` and a class `c` with the permission `p`, and no rules. -/
def ruleless : Policydb :=
  Policydb.ofSymbols [([0x61], ⟨1, true, false⟩)] [([0x63], ⟨1, .ofList [([0x70], ⟨1⟩)], none, []⟩)]

/-- The permission `p` of `a` on itself. -/
def selfPermission : AvBit := ⟨⟨1, 1, 1, AVTAB_ALLOWED⟩, 0, .inl rfl⟩

/-- A rule that is taken back and given again. -/
theorem livePatch_lastStatementWins_allowed :
    ∃ r m', livePatch (fun _ => "") (linuxFor ruleless) false "deny * a c *; allow a a c p".toList (.ofDb ruleless) =
      some (r, m') ∧ selfPermission.value m'.db = true := by
  obtain ⟨stmts, sts, hparse, hflat, r, m', hrun, -, htaken⟩ := livePatch_lastStatementWins (fun _ => "")
    (linuxFor ruleless) false "deny * a c *; allow a a c p".toList (.ofDb ruleless)
  have hstmts : parseSepolicy (trim "deny * a c *; allow a a c p".toList) false = .ok
      [.normalPerm ⟨"deny", [['*']], [['a']], [['c']], [['*']]⟩,
        .normalPerm ⟨"allow", [['a']], [['a']], [['c']], [['p']]⟩] := by decide
  rw [hstmts] at hparse
  obtain rfl := Except.ok.inj hparse
  have hroomy : Roomy (.ofDb ruleless) :=
    ⟨by decide, ⟨fun n hn => absurd hn List.not_mem_nil, fun key _ => Nat.zero_le 1, rfl⟩⟩
  have hsize : encodedSize sts ≤ KSU_SEPOLICY_MAX_BATCH_SIZE := by
    obtain rfl := Except.ok.inj hflat
    decide
  obtain ⟨-, -, hbits⟩ := htaken (.ofDb ruleless) rfl hroomy (by decide) hsize
  refine ⟨r, m', hrun, ?_⟩
  rw [hbits]
  decide +kernel

end KernelSU.Ksud
