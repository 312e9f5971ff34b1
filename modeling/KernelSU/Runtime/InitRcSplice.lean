import KernelSU.Runtime.InitRc

/-!
# The spliced `init.rc` is seamless

Whatever calls init makes, with whatever buffer sizes and through whichever of the two entry points, it
sees one file: the original, the static text and the module rc, one after another.

`Spliced` is the invariant that ties the three positions together: a later part is only entered when
the one before it is used up, and the module buffer is there as long as it is needed.  `position` is the
place in the spliced file they stand for.  One call moves the position by what it delivers
(`proxy_spec`), and a run of calls therefore delivers a prefix (`call_seamless`).
-/

namespace KernelSU.Runtime

open KernelSU.Lib KernelSU.Lib.Bytes

/-- The file init should see. -/
def splicedRc (original moduleRc : List UInt8) : List UInt8 := original ++ (KERNEL_SU_RC ++ moduleRc)

/-- The module rc that gets loaded. -/
def moduleRcContent (env : RcEnv) : List UInt8 := (loadModuleRcOnce env RcState.init).moduleRcBuf

/-- A custom rc is allowed, and the file is opened, regular and read whole. -/
structure LoadsRc (env : RcEnv) (f : RcFile) : Prop where
  allowed : env.ksuNoCustomRc = false
  alloc : env.allocSucceeds = true
  opened : openModuleRc env = some f
  regular : f.isReg = true
  whole : f.read = .ok f.content.length

/-- The place in the spliced file. -/
def position (s : RcState) : ℕ := s.filePos + s.ksuRcPos + s.moduleRcPos

/-- The three positions and the module buffer fit together. -/
structure Spliced (original moduleRc : List UInt8) (s : RcState) : Prop where
  file_le : s.filePos ≤ original.length
  ksu_le : s.ksuRcPos ≤ ksuRcLen
  module_le : s.moduleRcPos ≤ moduleRc.length
  file_done : 0 < s.ksuRcPos → s.filePos = original.length
  ksu_done : 0 < s.moduleRcPos → s.ksuRcPos = ksuRcLen
  buffered : s.moduleRcPos < moduleRc.length →
    s.moduleRcBuf = moduleRc ∧ s.moduleRcLen = moduleRc.length
  drained : s.moduleRcPos = moduleRc.length → s.moduleRcLen ≤ s.moduleRcPos

theorem ksuRcLen_pos : 0 < ksuRcLen := by decide +kernel

theorem splicedRc_length (original moduleRc : List UInt8) :
    (splicedRc original moduleRc).length = original.length + ksuRcLen + moduleRc.length := by
  rw [splicedRc, List.length_append, List.length_append, ← Nat.add_assoc]
  rfl

/-! ### The three parts of the file -/

section Parts

variable (original moduleRc : List UInt8)

theorem slice_original {o n : ℕ} (h : o + n ≤ original.length) :
    slice (splicedRc original moduleRc) o n = slice original o n :=
  slice_append_left _ _ h

theorem slice_ksuRc {p n : ℕ} (h : p + n ≤ ksuRcLen) :
    slice (splicedRc original moduleRc) (original.length + p) n = slice KERNEL_SU_RC p n := by
  rw [splicedRc, slice_append_right]
  exact slice_append_left _ _ h

theorem slice_moduleRc (q n : ℕ) :
    slice (splicedRc original moduleRc) (original.length + ksuRcLen + q) n = slice moduleRc q n := by
  rw [splicedRc, Nat.add_assoc, slice_append_right]
  exact slice_append_right' _ _ rfl q n

end Parts

/-! ### Appending -/

section Append

variable {original moduleRc : List UInt8}

/-- A call that has put `ret` in the buffer goes on with `k` bytes of the spliced file. -/
def Advances (original moduleRc : List UInt8) (ret : List UInt8) (s : RcState) (r : ReadResult)
    (k : ℕ) : Prop :=
  ∃ s', r = (.ok (ret ++ slice (splicedRc original moduleRc) (position s) k), s') ∧
    Spliced original moduleRc s' ∧ position s' = position s + k ∧ s'.loaded = s.loaded ∧
    s'.rcHooked = s.rcHooked

theorem advances_zero {ret : List UInt8} {s : RcState} (hs : Spliced original moduleRc s) :
    Advances original moduleRc ret s (.ok ret, s) 0 := by
  refine ⟨s, ?_, hs, rfl, rfl, rfl⟩
  rw [slice_size_zero, List.append_nil]

/-- Copying `k` bytes of the module rc, and freeing the buffer behind the last one. -/
theorem advances_module {ret : List UInt8} {s : RcState} (hs : Spliced original moduleRc s)
    (hksu : s.ksuRcPos = ksuRcLen) (hmore : s.moduleRcPos < moduleRc.length) {k : ℕ}
    (hk : k ≤ moduleRc.length - s.moduleRcPos) :
    Advances original moduleRc ret s
      (.ok (ret ++ slice s.moduleRcBuf s.moduleRcPos k),
        if s.moduleRcPos + k = s.moduleRcLen then
          freeModuleRc { s with moduleRcPos := s.moduleRcPos + k }
        else { s with moduleRcPos := s.moduleRcPos + k }) k := by
  have hpos := ksuRcLen_pos
  have hfile := hs.file_done (by omega)
  obtain ⟨hbuf, hlen⟩ := hs.buffered hmore
  have hslice : slice (splicedRc original moduleRc) (position s) k =
      slice s.moduleRcBuf s.moduleRcPos k := by
    rw [position, hfile, hksu, slice_moduleRc, hbuf]
  have hmoved : Spliced original moduleRc
      (if s.moduleRcPos + k = s.moduleRcLen then
        freeModuleRc { s with moduleRcPos := s.moduleRcPos + k }
      else { s with moduleRcPos := s.moduleRcPos + k }) := by
    split
    · next hend =>
      refine ⟨hs.file_le, hs.ksu_le, ?_, hs.file_done, fun _ => hksu, ?_, fun _ => Nat.zero_le _⟩
      · show s.moduleRcPos + k ≤ moduleRc.length
        omega
      · intro hlt
        have hlt' : s.moduleRcPos + k < moduleRc.length := hlt
        omega
    · next hend =>
      refine ⟨hs.file_le, hs.ksu_le, ?_, hs.file_done, fun _ => hksu, fun _ => ⟨hbuf, hlen⟩, ?_⟩
      · show s.moduleRcPos + k ≤ moduleRc.length
        omega
      · intro heq
        have heq' : s.moduleRcPos + k = moduleRc.length := heq
        omega
  refine ⟨_, by rw [hslice], hmoved, ?_, ?_, ?_⟩
  · split <;> exact (Nat.add_assoc _ _ _).symm
  · split <;> rfl
  · split <;> rfl

/-- Copying `k` bytes of the static text. -/
theorem ksu_moved {s : RcState} (hs : Spliced original moduleRc s)
    (hfile : s.filePos = original.length) (hmore : s.ksuRcPos < ksuRcLen) {k : ℕ}
    (hk : k ≤ ksuRcLen - s.ksuRcPos) :
    Spliced original moduleRc { s with ksuRcPos := s.ksuRcPos + k } ∧
      slice KERNEL_SU_RC s.ksuRcPos k = slice (splicedRc original moduleRc) (position s) k ∧
      position { s with ksuRcPos := s.ksuRcPos + k } = position s + k := by
  have hmod : s.moduleRcPos = 0 := by
    by_contra hne
    have := hs.ksu_done (Nat.pos_of_ne_zero hne)
    omega
  refine ⟨⟨hs.file_le, ?_, hs.module_le, fun _ => hfile, ?_, hs.buffered, hs.drained⟩, ?_, ?_⟩
  · show s.ksuRcPos + k ≤ ksuRcLen
    omega
  · intro h
    have h' : 0 < s.moduleRcPos := h
    omega
  · rw [position, hfile, hmod, Nat.add_zero, slice_ksuRc original moduleRc (by omega)]
  · show s.filePos + (s.ksuRcPos + k) + s.moduleRcPos = s.filePos + s.ksuRcPos + s.moduleRcPos + k
    omega

/-- Static text first, then more: the two pieces are one piece of the spliced file. -/
theorem Advances.after_ksu {ret : List UInt8} {s : RcState} {k k' : ℕ} {r : ReadResult}
    (hs : Spliced original moduleRc s) (hfile : s.filePos = original.length)
    (hmore : s.ksuRcPos < ksuRcLen) (hk : k ≤ ksuRcLen - s.ksuRcPos)
    (h : Advances original moduleRc (ret ++ slice KERNEL_SU_RC s.ksuRcPos k)
      { s with ksuRcPos := s.ksuRcPos + k } r k') :
    Advances original moduleRc ret s r (k + k') := by
  obtain ⟨-, hslice, hpos⟩ := ksu_moved hs hfile hmore hk
  obtain ⟨s', hr, hs', hpos', hloaded, hhooked⟩ := h
  have hroom : position s + k ≤ (splicedRc original moduleRc).length := by
    have hmod := hs.module_le
    rw [splicedRc_length, position]
    omega
  refine ⟨s', ?_, hs', by rw [hpos', hpos, Nat.add_assoc], hloaded, hhooked⟩
  rw [hr, hslice, hpos, List.append_assoc, slice_append_slice _ _ _ _ hroom]

variable (original moduleRc) in
/-- An `append_module_rc:` part fills the buffer from the module rc.  It may be entered before the
static text is done only with a full buffer. -/
def FillsFromModule (count : ℕ) (appendModuleRc : List UInt8 → RcState → ReadResult) : Prop :=
  ∀ ret s, Spliced original moduleRc s → (s.ksuRcPos = ksuRcLen ∨ count ≤ ret.length) →
    Advances original moduleRc ret s (appendModuleRc ret s)
      (min (moduleRc.length - s.moduleRcPos) (count - ret.length))

variable (original moduleRc) in
/-- An `append_ksu_rc:` part fills the buffer from the two added texts.  It may be entered before the
end of the file only with a full buffer. -/
def FillsFromKsu (count : ℕ) (appendKsuRc : List UInt8 → RcState → ReadResult) : Prop :=
  ∀ ret s, Spliced original moduleRc s → (s.filePos = original.length ∨ count ≤ ret.length) →
    Advances original moduleRc ret s (appendKsuRc ret s)
      (min ((splicedRc original moduleRc).length - position s) (count - ret.length))

/-- The module buffer is there exactly while something of it is left. -/
theorem Spliced.more_iff {s : RcState} (hs : Spliced original moduleRc s) :
    s.moduleRcPos < s.moduleRcLen ↔ s.moduleRcPos < moduleRc.length := by
  constructor
  · intro h
    by_contra hge
    have hend : s.moduleRcPos = moduleRc.length := Nat.le_antisymm hs.module_le (Nat.not_lt.mp hge)
    have := hs.drained hend
    omega
  · intro h
    rw [(hs.buffered h).2]
    exact h

theorem readAppendModuleRc_fills {count : ℕ} {env : ReadEnv} (hlimit : env.moduleLimit = none) :
    FillsFromModule original moduleRc count (readAppendModuleRc count env) := by
  intro ret s hs henter
  rw [readAppendModuleRc, hlimit]
  by_cases hmore : s.moduleRcPos < s.moduleRcLen ∧ ret.length < count
  · have hleft := hs.more_iff.mp hmore.1
    have hksu : s.ksuRcPos = ksuRcLen := henter.resolve_right (Nat.not_le.mpr hmore.2)
    rw [if_pos hmore, ← (hs.buffered hleft).2]
    exact advances_module hs hksu hleft (by rw [(hs.buffered hleft).2]; exact Nat.min_le_left _ _)
  · have hzero : min (moduleRc.length - s.moduleRcPos) (count - ret.length) = 0 := by
      rw [hs.more_iff] at hmore
      omega
    rw [if_neg hmore, hzero]
    exact advances_zero hs

theorem iterAppendModuleRc_fills {count : ℕ} {env : ReadEnv} (hlimit : env.moduleLimit = none) :
    FillsFromModule original moduleRc count (iterAppendModuleRc count env) := by
  intro ret s hs henter
  rw [iterAppendModuleRc, hlimit]
  by_cases hmore : s.moduleRcPos < s.moduleRcLen
  · have hleft := hs.more_iff.mp hmore
    rw [if_pos hmore, ← (hs.buffered hleft).2]
    show Advances original moduleRc ret s
      (if min (s.moduleRcLen - s.moduleRcPos) (count - ret.length) = 0 then _ else _) _
    by_cases hzero : min (s.moduleRcLen - s.moduleRcPos) (count - ret.length) = 0
    · rw [if_pos hzero, hzero]
      exact advances_zero hs
    · have hksu : s.ksuRcPos = ksuRcLen := henter.resolve_right (by omega)
      rw [if_neg hzero]
      exact advances_module hs hksu hleft
        (by rw [(hs.buffered hleft).2]; exact Nat.min_le_left _ _)
  · have hzero : min (moduleRc.length - s.moduleRcPos) (count - ret.length) = 0 := by
      rw [hs.more_iff] at hmore
      omega
    rw [if_neg hmore, hzero]
    exact advances_zero hs

/-- The static text and then the module rc, in one buffer. -/
theorem fillsFromKsu_of_module {count : ℕ} {appendModuleRc : List UInt8 → RcState → ReadResult}
    (hmod : FillsFromModule original moduleRc count appendModuleRc) {ret : List UInt8} {s : RcState}
    (hs : Spliced original moduleRc s) (hfile : s.filePos = original.length)
    (hmore : s.ksuRcPos < ksuRcLen) :
    Advances original moduleRc ret s
      (appendModuleRc
        (ret ++ slice KERNEL_SU_RC s.ksuRcPos (min (ksuRcLen - s.ksuRcPos) (count - ret.length)))
        { s with ksuRcPos := s.ksuRcPos + min (ksuRcLen - s.ksuRcPos) (count - ret.length) })
      (min ((splicedRc original moduleRc).length - position s) (count - ret.length)) := by
  have hk := Nat.min_le_left (ksuRcLen - s.ksuRcPos) (count - ret.length)
  have hmodPos : s.moduleRcPos = 0 := by
    by_contra hne
    have := hs.ksu_done (Nat.pos_of_ne_zero hne)
    omega
  have hlen : (ret ++ slice KERNEL_SU_RC s.ksuRcPos
      (min (ksuRcLen - s.ksuRcPos) (count - ret.length))).length =
      ret.length + min (ksuRcLen - s.ksuRcPos) (count - ret.length) := by
    rw [List.length_append, slice_length_of_le]
    show s.ksuRcPos + _ ≤ ksuRcLen
    omega
  have hrest := hmod _ _ (ksu_moved hs hfile hmore hk).1 (by
    rw [hlen]
    show s.ksuRcPos + _ = ksuRcLen ∨ _
    omega)
  have htotal := Advances.after_ksu hs hfile hmore hk hrest
  have hsum : min (ksuRcLen - s.ksuRcPos) (count - ret.length) +
      min (moduleRc.length - s.moduleRcPos) (count - (ret ++ slice KERNEL_SU_RC s.ksuRcPos
        (min (ksuRcLen - s.ksuRcPos) (count - ret.length))).length) =
      min ((splicedRc original moduleRc).length - position s) (count - ret.length) := by
    rw [hlen, splicedRc_length, position, hfile, hmodPos]
    omega
  rw [← hsum]
  exact htotal

/-- Past the static text only the module rc is left. -/
theorem fillsFromKsu_of_done {count : ℕ} {appendModuleRc : List UInt8 → RcState → ReadResult}
    (hmod : FillsFromModule original moduleRc count appendModuleRc) {ret : List UInt8} {s : RcState}
    (hs : Spliced original moduleRc s) (hdone : ¬ s.ksuRcPos < ksuRcLen) :
    Advances original moduleRc ret s (appendModuleRc ret s)
      (min ((splicedRc original moduleRc).length - position s) (count - ret.length)) := by
  have hpos := ksuRcLen_pos
  have hksu : s.ksuRcPos = ksuRcLen := Nat.le_antisymm hs.ksu_le (Nat.not_lt.mp hdone)
  have hfile := hs.file_done (by omega)
  have hleft : (splicedRc original moduleRc).length - position s =
      moduleRc.length - s.moduleRcPos := by
    rw [splicedRc_length, position, hfile, hksu]
    omega
  rw [hleft]
  exact hmod ret s hs (Or.inl hksu)

/-- A full buffer takes nothing. -/
theorem advances_full {count : ℕ} {appendModuleRc : List UInt8 → RcState → ReadResult}
    (hmod : FillsFromModule original moduleRc count appendModuleRc) {ret : List UInt8} {s : RcState}
    (hs : Spliced original moduleRc s) (hfull : count ≤ ret.length) :
    Advances original moduleRc ret s (appendModuleRc ret s) 0 := by
  have h := hmod ret s hs (Or.inr hfull)
  rwa [Nat.sub_eq_zero_of_le hfull, Nat.min_zero] at h

theorem readAppendKsuRc_fills {count : ℕ} {env : ReadEnv} (hksu : env.ksuLimit = none)
    (hmodule : env.moduleLimit = none) :
    FillsFromKsu original moduleRc count (readAppendKsuRc count env) := by
  intro ret s hs henter
  have hmod : FillsFromModule original moduleRc count (readAppendModuleRc count env) :=
    readAppendModuleRc_fills hmodule
  rw [readAppendKsuRc, hksu]
  by_cases hmore : s.ksuRcPos < ksuRcLen
  · rw [if_pos hmore]
    rcases henter with hfile | hfull
    · exact fillsFromKsu_of_module hmod hs hfile hmore
    · have hzero : count - ret.length = 0 := Nat.sub_eq_zero_of_le hfull
      rw [hzero, Nat.min_zero, Nat.min_zero]
      show Advances original moduleRc ret s
        (readAppendModuleRc count env (ret ++ slice KERNEL_SU_RC s.ksuRcPos 0) s) 0
      rw [slice_size_zero, List.append_nil]
      exact advances_full hmod hs hfull
  · rw [if_neg hmore]
    exact fillsFromKsu_of_done hmod hs hmore

theorem iterAppendKsuRc_fills {count : ℕ} {env : ReadEnv} (hksu : env.ksuLimit = none)
    (hmodule : env.moduleLimit = none) :
    FillsFromKsu original moduleRc count (iterAppendKsuRc count env) := by
  intro ret s hs henter
  have hmod : FillsFromModule original moduleRc count (iterAppendModuleRc count env) :=
    iterAppendModuleRc_fills hmodule
  rw [iterAppendKsuRc, hksu]
  by_cases hmore : s.ksuRcPos < ksuRcLen
  · rw [if_pos hmore]
    show Advances original moduleRc ret s
      (if min (ksuRcLen - s.ksuRcPos) (count - ret.length) = 0 then _ else _) _
    by_cases hzero : min (ksuRcLen - s.ksuRcPos) (count - ret.length) = 0
    · have hroom : count - ret.length = 0 := by omega
      rw [if_pos hzero, hroom, Nat.min_zero]
      exact advances_zero hs
    · rw [if_neg hzero]
      exact fillsFromKsu_of_module hmod hs (henter.resolve_right (by omega)) hmore
  · rw [if_neg hmore]
    exact fillsFromKsu_of_done hmod hs hmore

/-! ### One call -/

/-- The contract of the file's own method: it returns no more than asked and no more than is
left, and nothing only when nothing was asked or nothing is left. -/
def OrigReads (original : List UInt8) (count : ℕ) (s : RcState) (env : ReadEnv) : Prop :=
  ∃ n, env.orig = .ok n ∧ n ≤ count ∧ s.filePos + n ≤ original.length ∧
    (n = 0 → count = 0 ∨ s.filePos = original.length)

/-- **One call** moves on in the spliced file, by no more than asked, and by nothing only when nothing
was asked or nothing is left. -/
theorem proxy_spec {count : ℕ} {env : ReadEnv}
    {appendKsuRc appendModuleRc : List UInt8 → RcState → ReadResult}
    (hksu : FillsFromKsu original moduleRc count appendKsuRc)
    (hmod : FillsFromModule original moduleRc count appendModuleRc) {s : RcState}
    (hs : Spliced original moduleRc s) (horig : OrigReads original count s env) :
    ∃ k, Advances original moduleRc [] s (proxy appendKsuRc appendModuleRc original env s) k ∧
      k ≤ count ∧ (k = 0 → count = 0 ∨ position s = (splicedRc original moduleRc).length) := by
  have hpos := ksuRcLen_pos
  have htotal := splicedRc_length original moduleRc
  have hplace : position s = s.filePos + s.ksuRcPos + s.moduleRcPos := rfl
  have hfle := hs.file_le
  have hkle := hs.ksu_le
  have hmle := hs.module_le
  rw [proxy]
  by_cases h₁ : s.ksuRcPos ≠ 0 ∧ s.ksuRcPos < ksuRcLen
  · rw [if_pos h₁]
    have hfile := hs.file_done (Nat.pos_of_ne_zero h₁.1)
    refine ⟨_, hksu [] s hs (Or.inl hfile), Nat.min_le_right _ _, fun hzero => ?_⟩
    rw [List.length_nil] at hzero
    omega
  · rw [if_neg h₁]
    by_cases h₂ : ksuRcLen ≤ s.ksuRcPos ∧ s.moduleRcPos < s.moduleRcLen
    · rw [if_pos h₂]
      have hdone : s.ksuRcPos = ksuRcLen := Nat.le_antisymm hkle h₂.1
      have hleft := hs.more_iff.mp h₂.2
      refine ⟨_, hmod [] s hs (Or.inl hdone), Nat.min_le_right _ _, fun hzero => ?_⟩
      rw [List.length_nil] at hzero
      omega
    · rw [if_neg h₂]
      obtain ⟨n, hn, hcount, hle, hnone⟩ := horig
      rw [hn]
      by_cases hn0 : n = 0
      · simp only [hn0, ne_eq, not_true_eq_false, if_false]
        by_cases h₃ : ksuRcLen ≤ s.ksuRcPos ∧ s.moduleRcLen ≤ s.moduleRcPos
        · rw [if_pos h₃]
          refine ⟨0, advances_zero hs, Nat.zero_le _, fun _ => Or.inr ?_⟩
          have hfile := hs.file_done (by omega)
          have hend : ¬ s.moduleRcPos < moduleRc.length := by
            rw [← hs.more_iff]
            omega
          omega
        · rw [if_neg h₃]
          refine ⟨_, hksu [] s hs ?_, Nat.min_le_right _ _, fun hzero => ?_⟩
          · rcases hnone hn0 with h | h
            · exact Or.inr (by omega)
            · exact Or.inl h
          · rw [List.length_nil] at hzero
            omega
      · -- the file itself still had something, so nothing has been appended yet
        have hksu0 : s.ksuRcPos = 0 := by
          by_contra hne
          have := hs.file_done (Nat.pos_of_ne_zero hne)
          omega
        have hmod0 : s.moduleRcPos = 0 := by
          by_contra hne
          have := hs.ksu_done (Nat.pos_of_ne_zero hne)
          omega
        simp only [ne_eq, hn0, not_false_eq_true, if_true]
        refine ⟨n, ⟨{ s with filePos := s.filePos + n }, ?_,
          ⟨hle, hkle, hmle, ?_, hs.ksu_done, hs.buffered, hs.drained⟩, ?_, rfl, rfl⟩,
          hcount, fun h => absurd h hn0⟩
        · have hplace0 : position s = s.filePos := by omega
          rw [hplace0, slice_original original moduleRc hle, List.nil_append]
        · intro h
          have h' : 0 < s.ksuRcPos := h
          omega
        · show s.filePos + n + s.ksuRcPos + s.moduleRcPos = position s + n
          omega

end Append

/-! ### Loading -/

/-- The first call loads the module rc. -/
theorem loadModuleRcOnce_first (env : RcEnv) {s : RcState} (hloaded : s.loaded = false)
    (hbuf : s.moduleRcBuf = []) (hlen : s.moduleRcLen = 0) :
    loadModuleRcOnce env s = { s with
      loaded := true
      moduleRcBuf := moduleRcContent env
      moduleRcLen := (moduleRcContent env).length } := by
  rcases s with ⟨filePos, ksuRcPos, buf, len, pos, loaded, hooked⟩
  obtain rfl : loaded = false := hloaded
  obtain rfl : buf = [] := hbuf
  obtain rfl : len = 0 := hlen
  rw [moduleRcContent, loadModuleRcOnce, loadModuleRcOnce]
  simp only [RcState.init, Bool.false_eq_true, if_false]
  split
  · rfl
  · split
    · rfl
    · next f _ =>
      split
      · rfl
      · split
        · rfl
        · split
          · rfl
          · split
            · rfl
            · next r hr =>
              split
              · rfl
              · simp only [List.length_take, Nat.min_eq_left (f.read_le r hr)]

/-- A later call does nothing. -/
theorem loadModuleRcOnce_again (env : RcEnv) {s : RcState} (h : s.loaded = true) :
    loadModuleRcOnce env s = s := by
  rw [loadModuleRcOnce, if_pos h]

/-- **A regular module rc that is read whole is loaded whole.** -/
theorem moduleRcContent_eq {env : RcEnv} {f : RcFile} (h : LoadsRc env f) : moduleRcContent env = f.content := by
  obtain ⟨hallowed, halloc, hopened, hregular, hwhole⟩ := h
  rw [moduleRcContent, loadModuleRcOnce]
  by_cases hempty : f.content.length = 0
  · simp [RcState.init, hallowed, hopened, hregular, List.length_eq_zero_iff.mp hempty]
  · simp [RcState.init, hallowed, hopened, hregular, halloc, hwhole, hempty]

/-! ### Runs -/

/-- Before the first `read` nothing has moved, and the module rc is loaded or still to be loaded. -/
structure Ready (original : List UInt8) (env : RcEnv) (s : RcState) : Prop where
  unloaded : s.loaded = false → s = RcState.init
  spliced : s.loaded = true → Spliced original (moduleRcContent env) s
  unhooked : s.rcHooked = false → position s = 0

theorem ready_init (original : List UInt8) (env : RcEnv) : Ready original env RcState.init :=
  ⟨fun _ => rfl, fun h => (nomatch h), fun _ => rfl⟩

/-- Loading, from `read` or from `fstat`, makes the splice ready and moves nothing. -/
theorem Ready.load {original : List UInt8} {env : RcEnv} {s : RcState} (h : Ready original env s)
    (hooked : Bool) :
    Spliced original (moduleRcContent env) (loadModuleRcOnce env { s with rcHooked := hooked }) ∧
      position (loadModuleRcOnce env { s with rcHooked := hooked }) = position s ∧
      (loadModuleRcOnce env { s with rcHooked := hooked }).filePos = s.filePos ∧
      (loadModuleRcOnce env { s with rcHooked := hooked }).rcHooked = hooked ∧
      (loadModuleRcOnce env { s with rcHooked := hooked }).loaded = true := by
  by_cases hl : s.loaded = true
  · have hs := h.spliced hl
    rw [loadModuleRcOnce_again env (s := { s with rcHooked := hooked }) hl]
    exact ⟨⟨hs.file_le, hs.ksu_le, hs.module_le, hs.file_done, hs.ksu_done, hs.buffered, hs.drained⟩,
      rfl, rfl, rfl, hl⟩
  · rw [h.unloaded (Bool.eq_false_iff.mpr hl), loadModuleRcOnce_first env rfl rfl rfl]
    refine ⟨⟨Nat.zero_le _, Nat.zero_le _, Nat.zero_le _, fun h => absurd h (Nat.lt_irrefl 0),
      fun h => absurd h (Nat.lt_irrefl 0), fun _ => ⟨rfl, rfl⟩, fun h => ?_⟩, rfl, rfl, rfl, rfl⟩
    have h' : 0 = (moduleRcContent env).length := h
    exact h'.symm.le

/-- What may be assumed of a call: the file's own method keeps its contract, and no copy faults. -/
def ValidCall (original : List UInt8) (s : RcState) : RcCall → Prop
  | .read count e | .readIter count e =>
    OrigReads original count s e ∧ e.ksuLimit = none ∧ e.moduleLimit = none
  | .fstat => True

/-- What a reply must be, when `delivered` has been read of `total` so far. -/
def GoodReply (total delivered : List UInt8) : RcCall → RcReply → Prop
  | .read count _, .data result | .readIter count _, .data result =>
    ∃ out, result = .ok out ∧ out.length ≤ count ∧ (out = [] → count = 0 ∨ delivered = total) ∧
      (delivered = total → out = [])
  | .fstat, .hookedSize size => size = total.length
  | .fstat, .plainSize _ => True
  | _, _ => False

/-- Every call of a run is valid in the state it finds. -/
def ValidRun (original : List UInt8) (env : RcEnv) : RcState → List RcCall → Prop
  | _, [] => True
  | s, c :: cs => ValidCall original s c ∧ ValidRun original env (s.call original env c).2 cs

/-- Every reply of a run is good, and what has been delivered is a prefix of `total` at every point. -/
def Seamless (total original : List UInt8) (env : RcEnv) :
    List UInt8 → RcState → List RcCall → Prop
  | delivered, _, [] => delivered <+: total
  | delivered, s, c :: cs =>
    delivered <+: total ∧ GoodReply total delivered c (s.call original env c).1 ∧
      Seamless total original env (delivered ++ (s.call original env c).1.bytes)
        (s.call original env c).2 cs

section Run

variable {original : List UInt8} {env : RcEnv} {s : RcState}

/-- What a read leaves, from what the proxy does. -/
theorem reply_of_advances {count k : ℕ} {s₁ : RcState} {r : ReadResult}
    (hpos : position s₁ = position s) (hloaded : s₁.loaded = true) (hhooked : s₁.rcHooked = true)
    (hadv : Advances original (moduleRcContent env) [] s₁ r k) (hcount : k ≤ count)
    (hzero : k = 0 → count = 0 ∨
      position s₁ = (splicedRc original (moduleRcContent env)).length) :
    ∃ out, r.1 = .ok out ∧ Ready original env r.2 ∧
      (splicedRc original (moduleRcContent env)).take (position s) ++ out =
        (splicedRc original (moduleRcContent env)).take (position r.2) ∧
      out.length ≤ count ∧
      (out = [] → count = 0 ∨ (splicedRc original (moduleRcContent env)).take (position s) =
        splicedRc original (moduleRcContent env)) ∧
      ((splicedRc original (moduleRcContent env)).take (position s) =
        splicedRc original (moduleRcContent env) → out = []) := by
  obtain ⟨s', rfl, hs', hmoved, hl, hh⟩ := hadv
  have hin : position s + k ≤ (splicedRc original (moduleRcContent env)).length := by
    have h₁ := hs'.file_le
    have h₂ := hs'.ksu_le
    have h₃ := hs'.module_le
    rw [← hpos, ← hmoved, splicedRc_length, position]
    omega
  have hlen : (slice (splicedRc original (moduleRcContent env)) (position s₁) k).length = k :=
    slice_length_of_le (by rw [hpos]; exact hin)
  rw [List.nil_append]
  refine ⟨_, rfl, ⟨?_, fun _ => hs', ?_⟩, ?_, by rw [hlen]; exact hcount, fun hnil => ?_, fun hall => ?_⟩
  · intro h
    rw [hl, hloaded] at h
    cases h
  · intro h
    rw [hh, hhooked] at h
    cases h
  · rw [hmoved, hpos]
    show slice _ 0 (position s) ++ slice _ (position s) k = slice _ 0 (position s + k)
    have := slice_append_slice (splicedRc original (moduleRcContent env)) 0 (position s) k (by omega)
    rwa [Nat.zero_add] at this
  · rw [hnil] at hlen
    rcases hzero hlen.symm with h | h
    · exact Or.inl h
    · right
      rw [← hpos, h, List.take_length]
  · have hfull := congrArg List.length hall
    rw [List.length_take] at hfull
    apply List.eq_nil_of_length_eq_zero
    rw [hlen]
    omega

/-- **One call**, from a ready state. -/
theorem call_seamless (h : Ready original env s) {c : RcCall} (hc : ValidCall original s c) :
    Ready original env (s.call original env c).2 ∧
      GoodReply (splicedRc original (moduleRcContent env))
        ((splicedRc original (moduleRcContent env)).take (position s)) c
        (s.call original env c).1 ∧
      (splicedRc original (moduleRcContent env)).take (position s) ++
          (s.call original env c).1.bytes =
        (splicedRc original (moduleRcContent env)).take (position (s.call original env c).2) := by
  have hinstall : ksuInstallRcHook env s = loadModuleRcOnce env { s with rcHooked := true } := by
    rw [ksuInstallRcHook]
    by_cases hh : s.rcHooked = true
    · rw [if_pos hh]
      have hl : s.loaded = true := by
        by_contra hl
        rw [h.unloaded (Bool.eq_false_iff.mpr hl)] at hh
        cases hh
      rw [loadModuleRcOnce_again env (s := { s with rcHooked := true }) hl, ← hh]
    · rw [if_neg hh]
  obtain ⟨hs₁, hpos₁, hfile₁, hhook₁, hload₁⟩ := h.load true
  rw [← hinstall] at hs₁ hpos₁ hfile₁ hhook₁ hload₁
  cases c with
  | read count e =>
    obtain ⟨horig, hksu, hmodule⟩ := hc
    have horig₁ : OrigReads original count (ksuInstallRcHook env s) e := by
      rw [OrigReads, hfile₁]
      exact horig
    obtain ⟨k, hadv, hcount, hzero⟩ := proxy_spec (readAppendKsuRc_fills hksu hmodule)
      (readAppendModuleRc_fills hmodule) hs₁ horig₁
    obtain ⟨out, hout, hready, htake, hlen, hnil, hall⟩ :=
      reply_of_advances hpos₁ hload₁ hhook₁ hadv hcount hzero
    have hbytes : RcReply.bytes
        (.data (readProxy original count e (ksuInstallRcHook env s)).1) = out := by
      rw [readProxy, hout]
      rfl
    refine ⟨hready, ⟨out, hout, hlen, hnil, hall⟩, Eq.trans ?_ htake⟩
    rw [← hbytes]
    rfl
  | readIter count e =>
    obtain ⟨horig, hksu, hmodule⟩ := hc
    have horig₁ : OrigReads original count (ksuInstallRcHook env s) e := by
      rw [OrigReads, hfile₁]
      exact horig
    obtain ⟨k, hadv, hcount, hzero⟩ := proxy_spec (iterAppendKsuRc_fills hksu hmodule)
      (iterAppendModuleRc_fills hmodule) hs₁ horig₁
    obtain ⟨out, hout, hready, htake, hlen, hnil, hall⟩ :=
      reply_of_advances hpos₁ hload₁ hhook₁ hadv hcount hzero
    have hbytes : RcReply.bytes
        (.data (readIterProxy original count e (ksuInstallRcHook env s)).1) = out := by
      rw [readIterProxy, hout]
      rfl
    refine ⟨hready, ⟨out, hout, hlen, hnil, hall⟩, Eq.trans ?_ htake⟩
    rw [← hbytes]
    rfl
  | fstat =>
    cases hh : s.rcHooked with
    | true =>
      have hcall : s.call original env .fstat = (.plainSize original.length, s) := by
        rw [RcState.call, if_pos hh]
      rw [hcall]
      exact ⟨h, trivial, List.append_nil _⟩
    | false =>
      have hcall : s.call original env .fstat =
          (.hookedSize (original.length + (ksuRcLen + (loadModuleRcOnce env s).moduleRcLen)),
            loadModuleRcOnce env s) := by
        rw [RcState.call, hh]
        rfl
      obtain ⟨hs₂, hpos₂, -, hhook₂, hload₂⟩ := h.load false
      have hsame : ({ s with rcHooked := false } : RcState) = s := by rw [← hh]
      rw [hsame] at hs₂ hpos₂ hhook₂ hload₂
      have hzero := h.unhooked hh
      have hlen : (loadModuleRcOnce env s).moduleRcLen = (moduleRcContent env).length := by
        have hmod : (loadModuleRcOnce env s).moduleRcPos = 0 := by
          rw [hzero, position] at hpos₂
          omega
        by_cases hempty : (moduleRcContent env).length = 0
        · have := hs₂.drained (by rw [hmod, hempty])
          omega
        · exact (hs₂.buffered (by omega)).2
      rw [hcall]
      refine ⟨⟨?_, fun _ => hs₂, fun _ => hpos₂.trans hzero⟩, ?_, ?_⟩
      · intro hl
        rw [hload₂] at hl
        cases hl
      · show original.length + (ksuRcLen + _) = _
        rw [hlen, splicedRc_length, Nat.add_assoc]
      · rw [hpos₂]
        exact List.append_nil _

/-- **The splice is seamless.**  For every file, every module rc and every sequence of calls, through
either entry point and with any buffer sizes, each reply is good and what has been delivered is a prefix
of the spliced file; the `fstat` hook reports the length of that file.  A `modules.rc` that is read whole is its end. -/
theorem initRc_seamless (original : List UInt8) (env : RcEnv) {calls : List RcCall}
    (hvalid : ValidRun original env RcState.init calls) :
    Seamless (splicedRc original (moduleRcContent env)) original env [] RcState.init calls ∧
      ∀ f, LoadsRc env f → Seamless (splicedRc original f.content) original env [] RcState.init calls := by
  have key : ∀ (calls : List RcCall) (s : RcState), Ready original env s →
      ValidRun original env s calls →
      Seamless (splicedRc original (moduleRcContent env)) original env
        ((splicedRc original (moduleRcContent env)).take (position s)) s calls := by
    intro calls
    induction calls with
    | nil =>
      intro s _ _
      exact List.take_prefix _ _
    | cons c cs ih =>
      intro s hready hvalid
      obtain ⟨hready', hreply, hbytes⟩ := call_seamless hready hvalid.1
      refine ⟨List.take_prefix _ _, hreply, ?_⟩
      rw [hbytes]
      exact ih _ hready' hvalid.2
  have hseamless := key calls RcState.init (ready_init original env) hvalid
  refine ⟨hseamless, fun f hf => ?_⟩
  rw [← moduleRcContent_eq hf]
  exact hseamless

end Run

/-- A module rc of one byte. -/
def oneByteEnv : RcEnv where
  ksuNoCustomRc := false
  watchdog := none
  default := some ⟨true, [0x0a], .ok 1, fun r h => by cases h; exact Nat.le_refl 1⟩
  allocSucceeds := true

/-- `fstat`, the whole of a file of two bytes, a `read` of nothing, and a first byte of the added
text. -/
theorem initRc_seamless_twoBytes :
    Seamless (splicedRc [0x61, 0x62] [0x0a]) [0x61, 0x62] oneByteEnv [] RcState.init
      [.fstat, .read 4 ⟨.ok 2, none, none⟩, .readIter 0 ⟨.ok 0, none, none⟩,
        .read 1 ⟨.ok 0, none, none⟩] := by
  have hvalid : ValidRun [0x61, 0x62] oneByteEnv RcState.init
      [.fstat, .read 4 ⟨.ok 2, none, none⟩, .readIter 0 ⟨.ok 0, none, none⟩, .read 1 ⟨.ok 0, none, none⟩] :=
    ⟨trivial, ⟨⟨2, rfl, by decide, by decide, fun h => nomatch h⟩, rfl, rfl⟩,
      ⟨⟨0, rfl, by decide, by decide +kernel, fun _ => Or.inl rfl⟩, rfl, rfl⟩,
      ⟨⟨0, rfl, by decide, by decide +kernel, fun _ => Or.inr (by decide +kernel)⟩, rfl, rfl⟩,
      trivial⟩
  obtain ⟨-, hloaded⟩ := initRc_seamless [0x61, 0x62] oneByteEnv hvalid
  exact hloaded ⟨true, [0x0a], .ok 1, fun r h => by cases h; exact Nat.le_refl 1⟩ ⟨rfl, rfl, rfl, rfl, rfl⟩

end KernelSU.Runtime
