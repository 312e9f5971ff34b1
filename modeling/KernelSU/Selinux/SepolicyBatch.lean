import KernelSU.Selinux.Rules

/-!
# The sepolicy batch: all or nothing on framing, a fold otherwise

The wire format of a batch: a command is a header of two words and, for its number, a fixed count of
strings; a string is a length word, the bytes and a NUL, and the empty string stands for the wildcard.

* `decodes_cmd` — the decoder of `rules.c` reads exactly this format, and only inside the payload;
* `sepolBatchLoop_spec` — the cursor loop terminates.  It ends at the last byte with the fold of the
  commands over the state, or it meets a framing error and fails;
* `handleSepolicy_spec` — a batch with a framing error anywhere leaves the active policy alone; any
  other batch makes the new policy the fold of its commands over the duplicate, and the result counts
  the commands that succeeded.
-/

namespace KernelSU.Selinux

open KernelSU.Lib KernelSU.Lib.Bytes KernelSU.Lib.Errno Reading

/-! ### The wire format -/

def encodeHeader (header : SepolData) : List UInt8 :=
  encodeLE 4 header.cmd.toNat ++ encodeLE 4 header.subcmd.toNat

/-- A string, or the empty string for the wildcard. -/
def encodeArg (arg : Option Name) : List UInt8 :=
  encodeLE 4 (arg.getD []).length ++ (arg.getD [] ++ [0])

/-- What a string argument may be: not empty, without a NUL, and short enough for its length word. -/
def GoodArg (arg : Option Name) : Prop :=
  arg ≠ some [] ∧ 0 ∉ arg.getD [] ∧ (arg.getD []).length < 2 ^ 32

/-- A command: its header and its arguments one after another. -/
def encodeCmd (cmd : SepolCmd) : List UInt8 := encodeHeader cmd.1 ++ cmd.2.flatMap encodeArg

/-- A command has as many arguments as its number asks for. -/
def GoodCmd (cmd : SepolCmd) : Prop :=
  sepolExpectedArgc cmd.1.cmd = .ok cmd.2.length ∧ ∀ arg ∈ cmd.2, GoodArg arg

/-- The length word at the head of a string. -/
def argLength (rest : List UInt8) : ℕ := decodeLE (slice rest 0 4)

/-- What may be wrong with a string. -/
inductive BadArg (rest : List UInt8) : Prop where
  | truncated (h : rest.length < 4)
  | badLength (h : rest.length - 4 ≤ argLength rest)
  | embeddedNul (h : 0 ∈ slice rest 4 (argLength rest))
  | missingNul (h : slice rest (4 + argLength rest) 1 ≠ [0])

/-- What may be wrong with a command. -/
inductive BadCmd (rest : List UInt8) : Prop where
  | truncatedHeader (h : rest.length < sizeofSepolData)
  | unknownCmd (header : SepolData) (tail : List UInt8) (h : rest = encodeHeader header ++ tail)
      (e : Errno) (hcmd : sepolExpectedArgc header.cmd = .error e)
  | badArg (header : SepolData) (tail : List UInt8) (h : rest = encodeHeader header ++ tail)
      (argc : ℕ) (hcmd : sepolExpectedArgc header.cmd = .ok argc)
      (hargs : BadRepeat encodeArg GoodArg BadArg argc tail)

/-- A batch: commands up to the last byte. -/
def IsBatch (payload : List UInt8) (cmds : List SepolCmd) : Prop :=
  payload = cmds.flatMap encodeCmd ∧ ∀ cmd ∈ cmds, GoodCmd cmd

/-- A framing error: some commands, and then something that does not start with a command. -/
def FramingError (payload : List UInt8) : Prop :=
  ∃ (cmds : List SepolCmd) (rest : List UInt8), (∀ cmd ∈ cmds, GoodCmd cmd) ∧
    payload = cmds.flatMap encodeCmd ++ rest ∧ rest ≠ [] ∧ BadCmd rest

/-! ### The decoder reads the format -/

/-- The cursor at a position of the payload. -/
def cursorAt (payload : List UInt8) (cur : ℕ) : SepolBatchCursor := ⟨cur, payload.length⟩

theorem slice_drop {α : Type} (l : List α) (c o n : ℕ) : slice (l.drop c) o n = slice l (c + o) n := by
  rw [slice, slice, List.drop_drop]

theorem sepolRemaining_cursorAt (payload : List UInt8) (cur : ℕ) :
    sepolRemaining (cursorAt payload cur) = (payload.drop cur).length := by
  rw [sepolRemaining, cursorAt, List.length_drop]

theorem encodeHeader_length (header : SepolData) : (encodeHeader header).length = sizeofSepolData := by
  rw [encodeHeader, List.length_append, encodeLE_length, encodeLE_length]
  rfl

/-- The two words of a header, read back. -/
theorem header_of_bytes (header : SepolData) :
    (⟨UInt32.ofNat (decodeLE (slice (encodeHeader header) 0 4)),
      UInt32.ofNat (decodeLE (slice (encodeHeader header) 4 4))⟩ : SepolData) = header := by
  have h₁ : slice (encodeHeader header) 0 4 = encodeLE 4 header.cmd.toNat :=
    slice_append_exact [] _ _ rfl (encodeLE_length _ _)
  have h₂ : slice (encodeHeader header) 4 4 = encodeLE 4 header.subcmd.toNat := by
    have h := slice_append_exact (encodeLE 4 header.cmd.toNat) (encodeLE 4 header.subcmd.toNat) []
      (encodeLE_length _ _) (encodeLE_length _ _)
    rwa [List.append_nil] at h
  rw [h₁, h₂, decodeLE_encodeLE_of_lt 4 _ header.cmd.toNat_lt,
    decodeLE_encodeLE_of_lt 4 _ header.subcmd.toNat_lt, UInt32.ofNat_toNat, UInt32.ofNat_toNat]

/-- Eight bytes are a header. -/
theorem bytes_of_header {bytes : List UInt8} (h : bytes.length = sizeofSepolData) :
    bytes = encodeHeader ⟨UInt32.ofNat (decodeLE (slice bytes 0 4)),
      UInt32.ofNat (decodeLE (slice bytes 4 4))⟩ := by
  have hlen : bytes.length = 8 := h
  have hword : ∀ o, o + 4 ≤ bytes.length →
      encodeLE 4 (UInt32.ofNat (decodeLE (slice bytes o 4))).toNat = slice bytes o 4 := by
    intro o ho
    have hl : (slice bytes o 4).length = 4 := slice_length_of_le ho
    have hlt : decodeLE (slice bytes o 4) < 2 ^ 32 := by
      have := decodeLE_lt (slice bytes o 4)
      rwa [hl] at this
    rw [UInt32.toNat_ofNat_of_lt' hlt]
    exact (encodeLE_of_decodeLE hl rfl).symm
  rw [encodeHeader, hword 0 (by omega), hword 4 (by omega), slice_append_slice bytes 0 4 4 (by omega)]
  have := slice_full bytes
  rw [hlen] at this
  exact this.symm

/-- **Headers.** -/
theorem decodes_header (payload : List UInt8) :
    Decodes payload (cursorAt payload) encodeHeader (fun _ => True)
      (fun rest => rest.length < sizeofSepolData) (sepolReadCmdHeader payload) := by
  have hresult : ∀ cur, (sepolReadCmdHeader payload (cursorAt payload cur)).result =
      if (payload.drop cur).length < sizeofSepolData then .error EINVAL
      else .ok (⟨UInt32.ofNat (decodeLE (slice (slice (payload.drop cur) 0 8) 0 4)),
        UInt32.ofNat (decodeLE (slice (slice (payload.drop cur) 0 8) 4 4))⟩,
        cursorAt payload (cur + sizeofSepolData)) := by
    intro cur
    rw [sepolReadCmdHeader, sepolRemaining_cursorAt]
    split
    · rfl
    · rw [slice_drop]
      rfl
  refine ⟨?_, ?_, ?_, ?_, ?_⟩
  · intro cur header rest hcur _ hdrop
    have hlen : ¬ (payload.drop cur).length < sizeofSepolData := by
      rw [hdrop, List.length_append, encodeHeader_length]
      omega
    have hbytes : slice (payload.drop cur) 0 8 = encodeHeader header := by
      rw [hdrop]
      exact slice_append_exact [] _ _ rfl (encodeHeader_length header)
    rw [hresult, if_neg hlen, hbytes, header_of_bytes, encodeHeader_length]
  · intro cur header k hcur h
    rw [hresult] at h
    split at h
    · cases h
    · next hlen =>
      have hbytes : (slice (payload.drop cur) 0 8).length = sizeofSepolData :=
        slice_length_of_le (by rw [sizeofSepolData] at hlen; omega)
      cases h
      refine ⟨trivial, by rw [encodeHeader_length], (payload.drop cur).drop 8, ?_⟩
      rw [← bytes_of_header hbytes]
      exact (List.take_append_drop 8 (payload.drop cur)).symm
  · intro cur e hcur h
    rw [hresult] at h
    split at h
    · next hlen => exact hlen
    · cases h
  · intro cur hcur h
    exact ⟨EINVAL, by rw [hresult, if_pos h]⟩
  · intro cur hcur
    rw [sepolReadCmdHeader, sepolRemaining_cursorAt]
    split
    · exact within_fail _ _ _
    · next hlen =>
      rw [List.length_drop, sizeofSepolData] at hlen
      refine within_bind (within_read _ ?_ ?_) fun _ _ => within_pure _ _ _
      · exact Int.natCast_nonneg cur
      · show (cur : ℤ) + (8 : ℕ) ≤ (payload.length : ℤ)
        omega

/-- The answer of `sepol_read_string`, by what stands at the cursor. -/
theorem sepolReadString_result {payload rest : List UInt8} {cur : ℕ}
    (hrest : payload.drop cur = rest) :
    (sepolReadString payload (cursorAt payload cur)).result =
      if rest.length < 4 then .error EINVAL
      else if rest.length - 4 ≤ argLength rest then .error EINVAL
      else if 0 ∈ slice rest 4 (argLength rest) then .error EINVAL
      else if slice rest (4 + argLength rest) 1 ≠ [0] then .error EINVAL
      else .ok (if argLength rest = 0 then none else some (slice rest 4 (argLength rest)),
        cursorAt payload (cur + (4 + (argLength rest + 1)))) := by
  have hsecond : sepolRemaining ⟨cur + 4, payload.length⟩ = rest.length - 4 := by
    rw [sepolRemaining, ← hrest, List.length_drop, Nat.sub_add_eq]
  have hslice : ∀ o n, slice payload (cur + o) n = slice rest o n := by
    intro o n
    rw [← hrest, slice_drop]
  have hword : decodeLE (slice payload cur 4) = argLength rest := by
    rw [argLength, ← hslice]
    rfl
  have hfirst : sepolRemaining (cursorAt payload cur) = rest.length := by
    rw [sepolRemaining_cursorAt, hrest]
  have hcur : (cursorAt payload cur).cur = cur := rfl
  have hstop : (cursorAt payload cur).stop = payload.length := rfl
  simp only [sepolReadString, readBytes, apply_ite Reading.result, fail_result, read_bind_result,
    pure_result, hcur, hstop, hfirst, hword, hsecond, hslice, Nat.add_assoc]
  rfl

theorem sepolReadString_within (payload : List UInt8) {cur : ℕ} (hcur : cur ≤ payload.length) :
    Within 0 payload.length (sepolReadString payload (cursorAt payload cur)) := by
  have hspan : ∀ o n : ℕ, o + n ≤ payload.length →
      Within 0 payload.length (readBytes payload o n) := by
    intro o n h
    refine within_read _ (Int.natCast_nonneg o) ?_
    show (o : ℤ) + (n : ℕ) ≤ (payload.length : ℤ)
    omega
  rw [sepolReadString]
  split
  · exact within_fail _ _ _
  · next hfour =>
    have h₁ : cur + 4 ≤ payload.length := by
      rw [sepolRemaining_cursorAt, List.length_drop] at hfour
      omega
    refine within_bind (hspan cur 4 h₁) fun word _ => ?_
    dsimp only
    split
    · exact within_fail _ _ _
    · next hlen =>
      have h₂ : cur + 4 + decodeLE word + 1 ≤ payload.length := by
        rw [sepolRemaining] at hlen
        simp only [cursorAt] at hlen
        omega
      refine within_bind (hspan (cur + 4) _ (by omega)) fun str _ => ?_
      split
      · exact within_fail _ _ _
      · refine within_bind (hspan (cur + 4 + decodeLE word) 1 (by omega)) fun terminator _ => ?_
        split
        · exact within_fail _ _ _
        · exact within_pure _ _ _

/-- A string at the head of the rest: its length word, its bytes and its NUL. -/
theorem encodeArg_parts {arg : Option Name} (tail : List UInt8) (h : GoodArg arg) :
    argLength (encodeArg arg ++ tail) = (arg.getD []).length ∧
      slice (encodeArg arg ++ tail) 4 (arg.getD []).length = arg.getD [] ∧
      slice (encodeArg arg ++ tail) (4 + (arg.getD []).length) 1 = [0] ∧
      (encodeArg arg ++ tail).length = 4 + ((arg.getD []).length + 1) + tail.length := by
  have happ : encodeArg arg ++ tail =
      encodeLE 4 (arg.getD []).length ++ (arg.getD [] ++ ([0] ++ tail)) := by
    rw [encodeArg, List.append_assoc, List.append_assoc]
  have hword : (encodeLE 4 (arg.getD []).length).length = 4 := encodeLE_length _ _
  rw [happ]
  refine ⟨?_, ?_, ?_, ?_⟩
  · have hhead : slice (encodeLE 4 (arg.getD []).length ++ (arg.getD [] ++ ([0] ++ tail))) 0 4 =
        encodeLE 4 (arg.getD []).length := slice_append_exact [] _ _ rfl hword
    rw [argLength, hhead, decodeLE_encodeLE_of_lt 4 _ h.2.2]
  · exact slice_append_exact _ _ _ hword rfl
  · rw [← List.append_assoc]
    exact slice_append_exact _ _ _ (by rw [List.length_append, hword]) rfl
  · simp only [List.length_append, hword, List.length_singleton]
    omega

/-- What `sepol_read_string` accepts is a string. -/
theorem arg_of_parts {rest : List UInt8} (hfour : ¬ rest.length < 4)
    (hlen : ¬ rest.length - 4 ≤ argLength rest) (hin : 0 ∉ slice rest 4 (argLength rest))
    (hnul : slice rest (4 + argLength rest) 1 = [0]) :
    GoodArg (if argLength rest = 0 then none else some (slice rest 4 (argLength rest))) ∧
      encodeArg (if argLength rest = 0 then none else some (slice rest 4 (argLength rest))) =
        rest.take (4 + (argLength rest + 1)) := by
  have hstr : (slice rest 4 (argLength rest)).length = argLength rest :=
    slice_length_of_le (by omega)
  have hget : (if argLength rest = 0 then none else some (slice rest 4 (argLength rest))).getD [] =
      slice rest 4 (argLength rest) := by
    split
    · next hzero => rw [hzero, slice_size_zero]; rfl
    · rfl
  have hword : encodeLE 4 (argLength rest) = slice rest 0 4 :=
    (encodeLE_of_decodeLE (slice_length_of_le (by omega)) rfl).symm
  have hlt : argLength rest < 2 ^ 32 := by
    have h := decodeLE_lt (slice rest 0 4)
    rw [slice_length_of_le (by omega)] at h
    exact h
  refine ⟨⟨?_, by rw [hget]; exact hin, by rw [hget, hstr]; exact hlt⟩, ?_⟩
  · split
    · exact fun h => nomatch h
    · next hzero =>
      intro h
      rw [Option.some.inj h] at hstr
      exact hzero hstr.symm
  · rw [encodeArg, hget, hstr, hword, ← hnul, slice_append_slice rest 4 _ 1 (by omega)]
    exact slice_append_slice rest 0 4 (argLength rest + 1) (by omega)

/-- **Strings.** -/
theorem decodes_arg (payload : List UInt8) :
    Decodes payload (cursorAt payload) encodeArg GoodArg BadArg (sepolReadString payload) := by
  refine ⟨?_, ?_, ?_, ?_, fun hcur => sepolReadString_within payload hcur⟩
  · intro cur arg rest hcur hgood hdrop
    obtain ⟨hlen, hstr, hnul, htotal⟩ := encodeArg_parts rest hgood
    have harg : (if (arg.getD []).length = 0 then none else some (arg.getD [])) = arg := by
      cases arg with
      | none => rfl
      | some s =>
        have hs : s.length ≠ 0 := fun h => hgood.1 (by rw [List.length_eq_zero_iff.mp h])
        exact if_neg hs
    have henc : (encodeArg arg).length = 4 + ((arg.getD []).length + 1) := by
      simp [encodeArg]
    rw [sepolReadString_result hdrop]
    simp only [hlen, hstr, hnul, htotal, harg, henc]
    rw [if_neg (by omega), if_neg (by omega), if_neg hgood.2.1, if_neg (by simp)]
  · intro cur arg k hcur h
    rw [sepolReadString_result rfl] at h
    split at h
    · cases h
    · next hfour =>
      split at h
      · cases h
      · next hlen =>
        split at h
        · cases h
        · next hin =>
          split at h
          · cases h
          · next hnul =>
            cases h
            obtain ⟨hgood, henc⟩ := arg_of_parts hfour hlen hin (not_not.mp hnul)
            refine ⟨hgood, ?_, (payload.drop cur).drop (4 + (argLength (payload.drop cur) + 1)), ?_⟩
            · rw [henc, List.length_take]
              congr 2
              omega
            · rw [henc]
              exact (List.take_append_drop _ _).symm
  · intro cur e hcur h
    rw [sepolReadString_result rfl] at h
    split at h
    · next hfour => exact .truncated hfour
    · split at h
      · next hlen => exact .badLength hlen
      · split at h
        · next hin => exact .embeddedNul hin
        · split at h
          · next hnul => exact .missingNul hnul
          · cases h
  · intro cur hcur hbad
    refine ⟨EINVAL, ?_⟩
    rw [sepolReadString_result rfl]
    cases hbad with
    | truncated h => rw [if_pos h]
    | badLength h => rw [if_pos h, ite_self]
    | embeddedNul h => rw [if_pos h, ite_self, ite_self]
    | missingNul h => rw [if_pos h, ite_self, ite_self, ite_self]

theorem sepolExpectedArgc_le {cmd : UInt32} {argc : ℕ} (h : sepolExpectedArgc cmd = .ok argc) :
    argc ≤ KSU_SEPOLICY_MAX_ARGS := by
  have hmax : KSU_SEPOLICY_MAX_ARGS = 5 := rfl
  rw [sepolExpectedArgc] at h
  repeat'
    split at h
    · cases h; omega
  cases h

/-- **The arguments of a command.** -/
theorem decodes_args (payload : List UInt8) (header : SepolData) :
    Decodes payload (cursorAt payload) (fun args => args.flatMap encodeArg)
      (fun args => sepolExpectedArgc header.cmd = .ok args.length ∧ ∀ arg ∈ args, GoodArg arg)
      (fun rest => (∃ e, sepolExpectedArgc header.cmd = .error e) ∨
        ∃ argc, sepolExpectedArgc header.cmd = .ok argc ∧
          BadRepeat encodeArg GoodArg BadArg argc rest)
      (sepolReadArgs payload header) := by
  cases hargc : sepolExpectedArgc header.cmd with
  | error e =>
    have hread : sepolReadArgs payload header = fun _ => fail EINVAL := by
      funext cursor
      rw [sepolReadArgs, hargc]
    rw [hread]
    refine ⟨?_, ?_, fun _ _ => Or.inl ⟨e, rfl⟩, fun _ _ => ⟨EINVAL, rfl⟩,
      fun _ => within_fail _ _ _⟩
    · rintro cur args rest - ⟨h, -⟩ -
      cases h
    · intro cur args k _ h
      cases h
  | ok argc =>
    have hread : sepolReadArgs payload header = decodeRepeat (sepolReadString payload) argc := by
      funext cursor
      rw [sepolReadArgs, hargc]
      exact if_neg (Nat.not_lt.mpr (sepolExpectedArgc_le hargc))
    rw [hread]
    have hrep := decodes_repeat (decodes_arg payload) argc
    refine ⟨?_, ?_, ?_, ?_, hrep.within⟩
    · rintro cur args rest hcur ⟨hlen, hgood⟩ hdrop
      exact hrep.complete hcur ⟨(Except.ok.inj hlen).symm, hgood⟩ hdrop
    · intro cur args k hcur h
      obtain ⟨⟨hlen, hgood⟩, hk, hrest⟩ := hrep.sound hcur h
      exact ⟨⟨by rw [hlen], hgood⟩, hk, hrest⟩
    · intro cur e hcur h
      exact Or.inr ⟨argc, rfl, hrep.malformed hcur h⟩
    · rintro cur hcur (⟨e, h⟩ | ⟨argc', h, hbad⟩)
      · cases h
      · rw [← Except.ok.inj h] at hbad
        exact hrep.refuses hcur hbad

/-- **`sepol_read_cmd_header` and the strings after it read exactly the commands.** -/
theorem decodes_cmd (payload : List UInt8) :
    Decodes payload (cursorAt payload) encodeCmd GoodCmd BadCmd (sepolReadCmd payload) := by
  have hseq := (decodes_header payload).seq fun header _ => decodes_args payload header
  have hgood : GoodCmd = fun r : SepolData × List (Option Name) =>
      True ∧ sepolExpectedArgc r.1.cmd = .ok r.2.length ∧ ∀ arg ∈ r.2, GoodArg arg := by
    funext cmd
    rw [true_and]
    rfl
  rw [hgood]
  refine hseq.congr_bad fun rest => ?_
  constructor
  · intro hbad
    cases hbad with
    | truncatedHeader h => exact Or.inl h
    | unknownCmd header tail h e hcmd => exact Or.inr ⟨header, tail, trivial, h, Or.inl ⟨e, hcmd⟩⟩
    | badArg header tail h argc hcmd hargs =>
      exact Or.inr ⟨header, tail, trivial, h, Or.inr ⟨argc, hcmd, hargs⟩⟩
  · rintro (h | ⟨header, tail, -, h, ⟨e, hcmd⟩ | ⟨argc, hcmd, hargs⟩⟩)
    · exact .truncatedHeader h
    · exact .unknownCmd header tail h e hcmd
    · exact .badArg header tail h argc hcmd hargs

/-! ### Batches -/

theorem encodeCmd_length (cmd : SepolCmd) : 8 ≤ (encodeCmd cmd).length := by
  rw [encodeCmd, List.length_append, encodeHeader_length]
  exact Nat.le_add_right 8 _

/-- A payload is at most one batch. -/
theorem isBatch_unique {payload : List UInt8} {cmds cmds' : List SepolCmd}
    (h : IsBatch payload cmds) (h' : IsBatch payload cmds') : cmds = cmds' := by
  induction cmds generalizing payload cmds' with
  | nil =>
    cases cmds' with
    | nil => rfl
    | cons c' cs' =>
      have hlen := congrArg List.length (h.1.symm.trans h'.1)
      rw [List.flatMap_nil, List.flatMap_cons, List.length_append, List.length_nil] at hlen
      have := encodeCmd_length c'
      omega
  | cons c cs ih =>
    cases cmds' with
    | nil =>
      have hlen := congrArg List.length (h.1.symm.trans h'.1)
      rw [List.flatMap_nil, List.flatMap_cons, List.length_append, List.length_nil] at hlen
      have := encodeCmd_length c
      omega
    | cons c' cs' =>
      obtain ⟨rfl, hrest⟩ := (decodes_cmd _).unique (h.2 c List.mem_cons_self)
        (h'.2 c' List.mem_cons_self) (h.1.symm.trans h'.1)
      rw [ih ⟨rfl, fun d hd => h.2 d (List.mem_cons_of_mem c hd)⟩
        ⟨hrest, fun d hd => h'.2 d (List.mem_cons_of_mem c hd)⟩]

/-- A batch has no framing error. -/
theorem isBatch_not_framingError {payload : List UInt8} {cmds : List SepolCmd}
    (h : IsBatch payload cmds) : ¬ FramingError payload := by
  rintro ⟨cmds', rest, hgood', hpayload', hne, hbad⟩
  induction cmds' generalizing payload cmds with
  | nil =>
    rw [List.flatMap_nil, List.nil_append] at hpayload'
    cases cmds with
    | nil => exact hne (hpayload'.symm.trans h.1)
    | cons c cs =>
      rw [← hpayload', h.1, List.flatMap_cons] at hbad
      exact (decodes_cmd _).not_bad (h.2 c List.mem_cons_self) hbad
  | cons c' cs' ih =>
    cases cmds with
    | nil =>
      have hlen := congrArg List.length (h.1.symm.trans hpayload')
      rw [List.flatMap_nil, List.flatMap_cons, List.append_assoc, List.length_append,
        List.length_nil] at hlen
      have := encodeCmd_length c'
      omega
    | cons c cs =>
      have heq := h.1.symm.trans hpayload'
      rw [List.flatMap_cons, List.flatMap_cons, List.append_assoc] at heq
      obtain ⟨rfl, hrest⟩ := (decodes_cmd _).unique (h.2 c List.mem_cons_self)
        (hgood' c' List.mem_cons_self) heq
      exact ih ⟨rfl, fun d hd => h.2 d (List.mem_cons_of_mem c hd)⟩
        (fun d hd => hgood' d (List.mem_cons_of_mem c hd)) hrest

/-- A command in front of a framing error. -/
theorem FramingError.cons {cmd : SepolCmd} {rest : List UInt8} (hcmd : GoodCmd cmd)
    (h : FramingError rest) : FramingError (encodeCmd cmd ++ rest) := by
  obtain ⟨cmds, tail, hgood, rfl, hne, hbad⟩ := h
  refine ⟨cmd :: cmds, tail, List.forall_mem_cons.mpr ⟨hcmd, hgood⟩, ?_, hne, hbad⟩
  rw [List.flatMap_cons, List.append_assoc]

/-! ### The cursor loop -/

section Loop

variable {σ : Type} (apply : SepolData → List (Option Name) → σ → ℤ × σ)

/-- The state after the commands, one after another. -/
def applyCmds (cmds : List SepolCmd) (s : σ) : σ :=
  cmds.foldl (fun s cmd => (apply cmd.1 cmd.2 s).2) s

/-- How many of the commands succeed on the way. -/
def succeeded : List SepolCmd → σ → ℕ
  | [], _ => 0
  | cmd :: cmds, s =>
    (if (apply cmd.1 cmd.2 s).1 < 0 then 0 else 1) + succeeded cmds (apply cmd.1 cmd.2 s).2

/-- **The loop terminates, reads inside the payload, and either ends at the last byte with the fold of
the commands or fails at a framing error.** -/
theorem sepolBatchLoop_spec (payload : List UInt8) {fuel cur : ℕ} (hcur : cur ≤ payload.length)
    (hfuel : (payload.drop cur).length < fuel) (count : ℕ) (s : σ) :
    ∃ r, sepolBatchLoop apply payload fuel (cursorAt payload cur) count s = some r ∧
      (∀ span ∈ r.reads, 0 ≤ span.offset ∧ span.offset + span.size ≤ payload.length) ∧
      match r.result with
      | .ok n => ∃ cmds, IsBatch (payload.drop cur) cmds ∧ n = count + succeeded apply cmds s ∧
          r.state = applyCmds apply cmds s ∧ r.cursor = cursorAt payload payload.length
      | .error _ => FramingError (payload.drop cur) := by
  induction fuel generalizing cur count s with
  | zero => exact absurd hfuel (Nat.not_lt_zero _)
  | succ fuel ih =>
    rw [sepolBatchLoop]
    have hcurs : (cursorAt payload cur).cur = cur := rfl
    have hstop : (cursorAt payload cur).stop = payload.length := rfl
    rw [hcurs, hstop]
    by_cases hlt : cur < payload.length
    · rw [if_pos hlt]
      have hne : payload.drop cur ≠ [] := by
        intro h
        rw [List.drop_eq_nil_iff] at h
        omega
      have hwithin := (decodes_cmd payload).within hcur
      cases hcmd : (sepolReadCmd payload (cursorAt payload cur)).result with
      | error e =>
        simp only [hcmd]
        exact ⟨_, rfl, hwithin,
          [], payload.drop cur, List.forall_mem_nil _, rfl, hne,
          (decodes_cmd payload).malformed hcur hcmd⟩
      | ok r =>
        obtain ⟨⟨header, args⟩, k⟩ := r
        obtain ⟨hgood, rfl, rest, hdrop⟩ := (decodes_cmd payload).sound hcur hcmd
        obtain ⟨hle, hrest⟩ := drop_after hcur hdrop
        have hshort : (payload.drop (cur + (encodeCmd (header, args)).length)).length < fuel := by
          have := encodeCmd_length (header, args)
          rw [List.length_drop] at hfuel ⊢
          omega
        obtain ⟨r, hr, hreads, hres⟩ := ih hle hshort
          (if (apply header args s).1 < 0 then count else count + 1) (apply header args s).2
        simp only [hcmd, hr, Option.map_some]
        refine ⟨_, rfl, ?_, ?_⟩
        · intro span hspan
          rcases List.mem_append.mp hspan with h | h
          · exact hwithin span h
          · exact hreads span h
        · rw [hrest] at hres
          rw [hdrop]
          cases hrr : r.result with
          | error e =>
            rw [hrr] at hres
            exact FramingError.cons hgood hres
          | ok n =>
            rw [hrr] at hres
            obtain ⟨cmds, ⟨hbatch, hall⟩, hn, hstate, hend⟩ := hres
            refine ⟨(header, args) :: cmds, ⟨by rw [hbatch, List.flatMap_cons],
              List.forall_mem_cons.mpr ⟨hgood, hall⟩⟩, ?_, hstate, hend⟩
            rw [hn]
            show _ = count + ((if (apply header args s).1 < 0 then 0 else 1) +
              succeeded apply cmds (apply header args s).2)
            by_cases hneg : (apply header args s).1 < 0
            · rw [if_pos hneg, if_pos hneg, Nat.zero_add]
            · rw [if_neg hneg, if_neg hneg, Nat.add_assoc]
    · have hnil : payload.drop cur = [] := List.drop_eq_nil_iff.mpr (Nat.not_lt.mp hlt)
      rw [if_neg hlt]
      refine ⟨_, rfl, List.forall_mem_nil _, [], ⟨hnil, List.forall_mem_nil _⟩, rfl, rfl, ?_⟩
      rw [Nat.le_antisymm hcur (Nat.not_lt.mp hlt)]

end Loop

/-! ### The ioctl -/

/-- The duplicate the commands work on, in its environment, when the call gets that far. -/
def batchDuplicate (linux : LinuxPolicydb) (copyFault : Bool) (m : PolicyMem) : Option PolicyMem :=
  if (kalloc.run m).1 = true ∧ copyFault = false then
    match (ksuDupSepolicy linux).run (kalloc.run m).2 with
    | (.ok pol, m') => some { m' with db := pol }
    | (.error _, _) => none
  else none

/-- What applying a command means for the duplicate. -/
def applyToPolicy (header : SepolData) (args : List (Option Name)) (m : PolicyMem) : ℤ × PolicyMem :=
  (applyOneSepolicyCmd header args).run m

theorem kalloc_db (m : PolicyMem) : (kalloc.run m).2.db = m.db := PolicyMem.request_db m

theorem ksuDupSepolicy_db (linux : LinuxPolicydb) (m : PolicyMem) :
    ((ksuDupSepolicy linux).run m).2.db = m.db := by
  simp only [ksuDupSepolicy, run_bind, run_readDb, id_eq]
  have h₁ := kalloc_db m
  have h₂ := kalloc_db (kalloc.run m).2
  split
  · exact h₁
  · split
    · exact h₁
    · simp only [run_bind]
      split
      · exact h₂.trans h₁
      · split <;> exact h₂.trans h₁

/-- **The batch ioctl is all or nothing on framing.**  For every payload and policy the call terminates
and reads inside the payload.  If it gets no duplicate, or the batch has a framing error anywhere, it
returns an error and the active policy is the one before.  Otherwise the payload is a batch, the new
policy is the fold of its commands over the duplicate, failing ones included, and the result is the
number of those that succeeded. -/
theorem handleSepolicy_spec (linux : LinuxPolicydb) (copyFault : Bool) (m : PolicyMem)
    {payload : List UInt8} (hpos : 1 ≤ payload.length)
    (hmax : payload.length ≤ KSU_SEPOLICY_MAX_BATCH_SIZE) {fuel : ℕ}
    (hfuel : payload.length < fuel) :
    ∃ out, handleSepolicy linux copyFault fuel (some payload) m = some out ∧
      (∀ span ∈ out.reads, 0 ≤ span.offset ∧ span.offset + span.size ≤ payload.length) ∧
      (batchDuplicate linux copyFault m = none → out.ret < 0 ∧ out.mem.db = m.db) ∧
      (FramingError payload → out.ret < 0 ∧ out.mem.db = m.db) ∧
      ∀ dup, batchDuplicate linux copyFault m = some dup → ¬ FramingError payload →
        ∃ cmds, IsBatch payload cmds ∧ out.ret = succeeded applyToPolicy cmds dup ∧
          out.mem = applyCmds applyToPolicy cmds dup := by
  have hnonzero : payload.length ≠ 0 := by omega
  simp only [handleSepolicy, if_neg hnonzero, if_neg (Nat.not_lt.mpr hmax)]
  -- a call that ends before the loop: an error and the old policy
  have early : ∀ (e : Errno) (m' : PolicyMem), m'.db = m.db →
      batchDuplicate linux copyFault m = none →
      ∃ out, some (⟨e.val, m', []⟩ : BatchOutcome) = some out ∧
        (∀ span ∈ out.reads, 0 ≤ span.offset ∧ span.offset + span.size ≤ payload.length) ∧
        (batchDuplicate linux copyFault m = none → out.ret < 0 ∧ out.mem.db = m.db) ∧
        (FramingError payload → out.ret < 0 ∧ out.mem.db = m.db) ∧
        ∀ dup, batchDuplicate linux copyFault m = some dup → ¬ FramingError payload →
          ∃ cmds, IsBatch payload cmds ∧ out.ret = succeeded applyToPolicy cmds dup ∧
            out.mem = applyCmds applyToPolicy cmds dup := by
    intro e m' hdb hnone
    refine ⟨_, rfl, List.forall_mem_nil _, fun _ => ⟨e.range.2, hdb⟩, fun _ => ⟨e.range.2, hdb⟩, ?_⟩
    intro dup hdup
    rw [hnone] at hdup
    cases hdup
  have hdb₁ := kalloc_db m
  cases halloc : (kalloc.run m).1 with
  | false =>
    simp only [Bool.not_false, if_true]
    exact early ENOMEM _ hdb₁ (by rw [batchDuplicate, halloc]; rfl)
  | true =>
    simp only [Bool.not_true, Bool.false_eq_true, if_false]
    cases copyFault with
    | true => exact early EFAULT _ hdb₁ (by rw [batchDuplicate]; simp)
    | false =>
      simp only [Bool.false_eq_true, if_false]
      have hdb₂ := (ksuDupSepolicy_db linux (kalloc.run m).2).trans hdb₁
      rcases hdup : (ksuDupSepolicy linux).run (kalloc.run m).2 with ⟨_ | pol, m'⟩
      · simp only
        rw [hdup] at hdb₂
        exact early _ _ hdb₂ (by rw [batchDuplicate, halloc, hdup]; rfl)
      · have hsome : batchDuplicate linux false m = some { m' with db := pol } := by
          rw [batchDuplicate, halloc, hdup]
          rfl
        obtain ⟨r, hr, hreads, hres⟩ := sepolBatchLoop_spec applyToPolicy payload
          (Nat.zero_le payload.length) (by simpa using hfuel) 0 { m' with db := pol }
        have hr' : sepolBatchLoop (fun header args m => (applyOneSepolicyCmd header args).run m)
            payload fuel ⟨0, payload.length⟩ 0 { m' with db := pol } = some r := hr
        rw [List.drop_zero] at hres
        simp only [hr', Option.map_some]
        cases hrr : r.result with
        | error e =>
          rw [hrr] at hres
          refine ⟨_, rfl, hreads, fun _ => ⟨e.range.2, hdb₁⟩, fun _ => ⟨e.range.2, hdb₁⟩, ?_⟩
          intro dup _ hno
          exact absurd hres hno
        | ok n =>
          rw [hrr] at hres
          obtain ⟨cmds, hbatch, hn, hstate, -⟩ := hres
          refine ⟨_, rfl, hreads, ?_, fun h => absurd h (isBatch_not_framingError hbatch), ?_⟩
          · intro hnone
            rw [hsome] at hnone
            cases hnone
          · intro dup hdup' _
            rw [hsome] at hdup'
            cases hdup'
            rw [Nat.zero_add] at hn
            exact ⟨cmds, hbatch, congrArg Nat.cast hn, hstate⟩

/-- A type that does not exist is made permissive, and two attributes are declared. -/
def attributeBatch : List SepolCmd := [
  (⟨KSU_SEPOLICY_CMD_TYPE_STATE, KSU_SEPOLICY_SUBCMD_TYPE_STATE_PERMISSIVE⟩, [some [0x62]]),
  (⟨KSU_SEPOLICY_CMD_ATTR, 0⟩, [some [0x61]]),
  (⟨KSU_SEPOLICY_CMD_ATTR, 0⟩, [some [0x63]])]

/-- A policy without types or classes. -/
def bareMem : PolicyMem := PolicyMem.ofDb (Policydb.ofSymbols [] [])

/-- A serialiser and a parser that agree on one database. -/
def linuxFor (db : Policydb) : LinuxPolicydb :=
  ⟨fun _ len => .ok (List.replicate len 0), fun _ => .ok db⟩

/-- The first command of the batch fails, and the two behind it are applied. -/
theorem handleSepolicy_spec_attribute :
    ∃ out, handleSepolicy (linuxFor bareMem.db) false 43 (some (attributeBatch.flatMap encodeCmd)) bareMem = some out ∧
      out.ret = 2 ∧ out.mem = applyCmds applyToPolicy attributeBatch bareMem ∧
      succeeded applyToPolicy (attributeBatch.take 1) bareMem = 0 := by
  obtain ⟨out, hout, -, -, -, hbatch⟩ := handleSepolicy_spec (linuxFor bareMem.db) false bareMem
    (by decide : 1 ≤ (attributeBatch.flatMap encodeCmd).length) (by decide)
    (by decide : _ < 43)
  have hgood : IsBatch (attributeBatch.flatMap encodeCmd) attributeBatch := by
    refine ⟨rfl, fun cmd hcmd => ?_⟩
    simp only [attributeBatch, List.mem_cons, List.not_mem_nil, or_false] at hcmd
    rcases hcmd with rfl | rfl | rfl
    · exact ⟨rfl, List.forall_mem_singleton.mpr ⟨by decide, by decide, by decide⟩⟩
    · exact ⟨rfl, List.forall_mem_singleton.mpr ⟨by decide, by decide, by decide⟩⟩
    · exact ⟨rfl, List.forall_mem_singleton.mpr ⟨by decide, by decide, by decide⟩⟩
  obtain ⟨cmds, hcmds, hret, hmem⟩ := hbatch bareMem rfl (isBatch_not_framingError hgood)
  rw [isBatch_unique hcmds hgood] at hret hmem
  exact ⟨out, hout, hret.trans (congrArg Nat.cast (by decide :
    succeeded applyToPolicy attributeBatch bareMem = 2)), hmem, by decide⟩

end KernelSU.Selinux
