import KernelSU.Feature.AdbRoot

/-!
# The environment that `adbd` is given

Each batch is read behind the pointers that came before, in a buffer with room for sixteen more and two: a batch that
ends the array holds at least its zero, whose slot is the third of the three that are appended.

* `readEnv_spec` — **PROVED**: the loop ends, within its buffer, with the pointers of the array or an error;
* `appendPointers_spec` — **PROVED**: the three entries fit;
* `setupLdPreload_spec` — **PROVED**: the new environment stands below the strings, or the register is as it was;
* `doKsuAdbRootHandleExecve_env` — **PROVED**: so with the whole handler, which goes on only after a success.
-/

namespace KernelSU.Feature

open KernelSU.Lib KernelSU.Lib.Bytes

/-- Pointers in memory. -/
def pointersBytes (pointers : List ℕ) : List UInt8 := pointers.flatMap (encodeLE 8)

theorem pointersBytes_length (pointers : List ℕ) : (pointersBytes pointers).length = pointers.length * 8 :=
  flatMap_length_const (encodeLE_length 8) pointers

theorem pointersBytes_append (ps qs : List ℕ) : pointersBytes (ps ++ qs) = pointersBytes ps ++ pointersBytes qs :=
  List.flatMap_append

/-- The array of pointers that stands at `envp`, with its `NULL`. -/
structure EnvArray (mem : Memory) (envp : ℕ) (pointers : List ℕ) : Prop where
  nonzero : ∀ p ∈ pointers, p ≠ 0
  words : ∀ p ∈ pointers, p < 2 ^ 64
  inside : envp + (pointers.length + 1) * 8 ≤ 2 ^ 64
  bytes : mem.bytesAt envp ((pointers.length + 1) * 8) = pointersBytes (pointers ++ [0])

variable {mem : Memory} {envp : ℕ} {pointers : List ℕ}

namespace EnvArray

variable (h : EnvArray mem envp pointers)

include h

/-- A pointer of the array is where its index says. -/
theorem bytesAt_index {i p : ℕ} (hp : (pointers ++ [0])[i]? = some p) : mem.bytesAt (envp + i * 8) 8 = encodeLE 8 p := by
  have hi := (List.getElem?_eq_some_iff.mp hp).1
  rw [List.length_append, List.length_singleton] at hi
  rw [← mem.slice_bytesAt (n := (pointers.length + 1) * 8) (by omega), h.bytes, pointersBytes, Nat.mul_comm i 8]
  exact slice_flatMap_const (encodeLE_length 8) hp

/-- Only the last is zero. -/
theorem word_lt {i : ℕ} (hi : i < pointers.length) : decodeLE (mem.bytesAt (envp + i * 8) 8) ≠ 0 := by
  have hp : (pointers ++ [0])[i]? = some pointers[i] := by
    rw [List.getElem?_append_left hi, List.getElem?_eq_getElem hi]
  rw [h.bytesAt_index hp, decodeLE_encodeLE_of_lt 8 _ (h.words _ (List.getElem_mem hi))]
  exact h.nonzero _ (List.getElem_mem hi)

theorem word_last : decodeLE (mem.bytesAt (envp + pointers.length * 8) 8) = 0 := by
  have hp : (pointers ++ [0])[pointers.length]? = some 0 := List.getElem?_concat_length
  rw [h.bytesAt_index hp]
  rfl

/-- The first pointers of the array. -/
theorem bytesAt_take {k : ℕ} (hk : k ≤ pointers.length) :
    mem.bytesAt envp (k * 8) = pointersBytes (pointers.take k) := by
  have hwhole : slice (mem.bytesAt envp ((pointers.length + 1) * 8)) 0 (k * 8) = mem.bytesAt envp (k * 8) :=
    mem.slice_bytesAt (by omega)
  rw [← hwhole, h.bytes]
  have hsplit : pointersBytes (pointers ++ [0]) =
      pointersBytes (pointers.take k) ++ pointersBytes (pointers.drop k ++ [0]) := by
    rw [← pointersBytes_append, ← List.append_assoc, List.take_append_drop]
  rw [hsplit, slice, List.drop_zero]
  exact List.take_left' (by rw [pointersBytes_length, List.length_take, Nat.min_eq_left hk])

/-- A store elsewhere leaves the array alone. -/
theorem store {dst : ℕ} {bytes : List UInt8}
    (hapart : envp + (pointers.length + 1) * 8 ≤ dst ∨ dst + bytes.length ≤ envp) :
    EnvArray (mem.store dst bytes) envp pointers where
  nonzero := h.nonzero
  words := h.words
  inside := h.inside
  bytes := by rw [mem.bytesAt_store_apart hapart, h.bytes]

end EnvArray

/-! ### One batch -/

theorem take_patch {buf w : List UInt8} {o k : ℕ} (ho : o ≤ buf.length) (hk : k ≤ w.length) :
    (patch buf o w).take (o + k) = buf.take o ++ w.take k := by
  have hlen : (buf.take o).length = o := by rw [List.length_take, Nat.min_eq_left ho]
  rw [patch, List.take_append, List.take_of_length_le (by omega), hlen, Nat.add_sub_cancel_left,
    List.take_append_of_le_length hk]

theorem take_krealloc (fresh : ℕ → UInt8) {buf : List UInt8} {size n : ℕ} (hn : n ≤ buf.length) (hsize : n ≤ size) :
    (krealloc fresh buf size).take n = buf.take n := by
  rw [krealloc, List.take_append_of_le_length (by rw [List.length_take]; omega), List.take_take, Nat.min_eq_left hsize]

/-- A slot of what was copied. -/
theorem slot_patch {buf w : List UInt8} {envCount i src k : ℕ} (hfits : envCount * 8 + w.length ≤ buf.length)
    (hw : w.take k = mem.bytesAt src k) (hk : k ≤ w.length) (hi : i * 8 + 8 ≤ k) :
    slot (patch buf (envCount * 8) w) (i + envCount) = decodeLE (mem.bytesAt (src + i * 8) 8) := by
  have hat : (i + envCount) * 8 = envCount * 8 + i * 8 := by rw [Nat.add_mul, Nat.add_comm]
  rw [slot, kPtrSize, hat, ← slice_slice _ (n := w.length) (by omega), slice_patch_same hfits]
  have hfront : w.take k = slice w 0 k := rfl
  have hpart : slice (slice w 0 k) (i * 8) 8 = slice w (0 + i * 8) 8 := slice_slice w hi
  rw [Nat.zero_add] at hpart
  rw [← hpart, ← hfront, hw, mem.slice_bytesAt hi]

/-! ### The loop -/

/-- **The loop ends** within its buffer: with an error, or with the pointers of the array and room for three more. -/
theorem readEnv_spec (acc : Accesses) (h : EnvArray mem envp pointers) (fuel batch : ℕ) (tmpEnv : List UInt8)
    (envCount : ℕ) (hcount : envCount ≤ pointers.length) (hlimit : envCount = 0 ∨ envp + envCount * 8 ≤ acc.limit)
    (htmp : tmpEnv.take (envCount * 8) = pointersBytes (pointers.take envCount))
    (hfuel : (pointers.length - envCount) / 16 < fuel) :
    ∃ r, readEnv acc mem envp fuel batch tmpEnv envCount = .ok r ∧ ∀ buf count, r = .ok (buf, count) →
      count = pointers.length ∧ (count + 3) * 8 ≤ buf.length ∧ (count + 3) * 8 < 2 ^ 64 ∧
        buf.take (count * 8) = pointersBytes pointers := by
  have hle := acc.limit_le
  have hinside := h.inside
  induction fuel generalizing batch tmpEnv envCount with
  | zero => exact absurd hfuel (Nat.not_lt_zero _)
  | succ fuel ih =>
    rw [readEnv]
    by_cases halloc : acc.krealloc batch = false
    · exact ⟨_, if_pos halloc, fun buf count hr => by cases hr⟩
    rw [if_neg halloc]
    dsimp only
    have hsize : (envCount + kReadEnvBatch + 2) * kPtrSize % 2 ^ 64 = (envCount + 18) * 8 := by
      rw [kReadEnvBatch, kPtrSize]
      exact Nat.mod_eq_of_lt (by omega)
    have hsrc : (envp + envCount * kPtrSize) % 2 ^ 64 = envp + envCount * 8 := by
      rw [kPtrSize]
      exact Nat.mod_eq_of_lt (by omega)
    have hold : envCount * 8 ≤ tmpEnv.length := by
      have hlen := congrArg List.length htmp
      rw [List.length_take, pointersBytes_length, List.length_take] at hlen
      omega
    rw [hsize, hsrc]
    obtain ⟨hcopy, k, hk, hret, hread, htake⟩ :=
      copyFromUser_spec acc.limit mem (envp + envCount * 8) (kReadEnvBatch * kPtrSize) (acc.batchCopied batch)
    generalize copyFromUser acc.limit mem (envp + envCount * 8) (kReadEnvBatch * kPtrSize) (acc.batchCopied batch) =
      copy at hcopy hret htake
    have hbatch : kReadEnvBatch * kPtrSize = 128 := rfl
    rw [hbatch] at hcopy hk hret hread ⊢
    have hgrown := krealloc_length (acc.fresh batch) tmpEnv ((envCount + 18) * 8)
    have hkept := take_krealloc (acc.fresh batch) hold (show envCount * 8 ≤ (envCount + 18) * 8 by omega)
    generalize krealloc (acc.fresh batch) tmpEnv ((envCount + 18) * 8) = grown at hgrown hkept
    have hfits : envCount * 8 + copy.2.length ≤ grown.length := by omega
    have hwrite : writeAt grown (envCount * kPtrSize) copy.2 = .ok (patch grown (envCount * 8) copy.2) := if_pos hfits
    rw [hwrite]
    have hslot : ∀ i, i * 8 + 8 ≤ k →
        slot (patch grown (envCount * 8) copy.2) (i + envCount) =
          decodeLE (mem.bytesAt (envp + (envCount + i) * 8) 8) := by
      intro i hi
      have hat : envp + envCount * 8 + i * 8 = envp + (envCount + i) * 8 := by omega
      rw [slot_patch hfits htake (hcopy ▸ hk) hi, hat]
    have hfront : ∀ j, j * 8 ≤ k → envCount + j ≤ pointers.length →
        (patch grown (envCount * 8) copy.2).take ((envCount + j) * 8) = pointersBytes (pointers.take (envCount + j)) := by
      intro j hj hjcount
      have hmore : copy.2.take (j * 8) = mem.bytesAt (envp + envCount * 8) (j * 8) := by
        have hpart := congrArg (List.take (j * 8)) htake
        rw [List.take_take, Nat.min_eq_left hj] at hpart
        rw [hpart]
        exact mem.slice_bytesAt (o := 0) (by omega)
      rw [Nat.add_mul, take_patch (by omega) (by omega), hkept, htmp, hmore, ← h.bytesAt_take hcount, ← mem.bytesAt_add,
        ← Nat.add_mul, h.bytesAt_take hjcount]
    dsimp only
    have hcounted : 128 - copy.1 = k := by omega
    rw [hcounted]
    by_cases hends : pointers.length - envCount < k / 8
    · have hscan : scanEnv (patch grown (envCount * 8) copy.2) envCount (k / kPtrSize) 0 =
          (pointers.length - envCount, true) := by
        apply scanEnv_of_zero _ _ (Nat.zero_le _) (by rw [Nat.zero_add]; exact hends)
        · rw [hslot _ (by omega), Nat.add_sub_cancel' hcount]
          exact h.word_last
        · intro i hi
          rw [hslot _ (by omega)]
          exact h.word_lt (by omega)
      rw [hscan, if_pos rfl, Nat.add_sub_cancel' hcount]
      refine ⟨_, rfl, fun buf count hr => ?_⟩
      rw [Except.ok.injEq, Prod.mk.injEq] at hr
      have hall := hfront (pointers.length - envCount) (by omega) (by omega)
      rw [Nat.add_sub_cancel' hcount, List.take_length] at hall
      rw [← hr.1, ← hr.2, patch_length hfits]
      exact ⟨rfl, by omega, by omega, hall⟩
    · have hscan : scanEnv (patch grown (envCount * 8) copy.2) envCount (k / kPtrSize) 0 = (0 + k / kPtrSize, false) := by
        apply scanEnv_of_nonzero
        intro i _ hi
        rw [Nat.zero_add, kPtrSize] at hi
        rw [hslot _ (by omega)]
        exact h.word_lt (by omega)
      rw [hscan, if_neg Bool.false_ne_true]
      by_cases hpart : k % kPtrSize ≠ 0
      · exact ⟨_, if_pos hpart, fun buf count hr => by cases hr⟩
      rw [if_neg hpart]
      by_cases hshort : copy.1 ≠ 0
      · exact ⟨_, if_pos hshort, fun buf count hr => by cases hr⟩
      have hfull : k = 128 := by omega
      subst hfull
      rw [if_neg hshort]
      show ∃ r, readEnv acc mem envp fuel (batch + 1) _ (envCount + 16) = .ok r ∧ _
      exact ih _ _ _ (by omega) (.inr (by omega)) (hfront 16 (by omega) (by omega)) (by omega)

/-! ### The three entries -/

/-- One more pointer behind the others. -/
theorem writeAt_next {count : ℕ} {buf : List UInt8} (hcount : pointers.length = count)
    (hfront : buf.take (count * 8) = pointersBytes pointers) (hroom : (count + 1) * 8 ≤ buf.length) (p : ℕ) :
    ∃ buf', writeAt buf (count * kPtrSize) (encodeLE 8 p) = .ok buf' ∧ buf'.length = buf.length ∧
      (pointers ++ [p]).length = count + 1 ∧ buf'.take ((count + 1) * 8) = pointersBytes (pointers ++ [p]) := by
  have hfits : count * 8 + (encodeLE 8 p).length ≤ buf.length := by
    rw [encodeLE_length]
    omega
  refine ⟨_, if_pos hfits, patch_length hfits, by rw [List.length_append, hcount]; rfl, ?_⟩
  rw [Nat.add_mul, Nat.one_mul, kPtrSize, take_patch (by omega) (encodeLE_length 8 p).ge, hfront,
    List.take_of_length_le (encodeLE_length 8 p).le, pointersBytes_append]
  exact congrArg _ (List.append_nil _).symm

/-- **The three entries fit.** -/
theorem appendPointers_spec {buf : List UInt8} (hfront : buf.take (pointers.length * 8) = pointersBytes pointers)
    (hroom : (pointers.length + 3) * 8 ≤ buf.length) (p q : ℕ) :
    ∃ buf', appendPointers buf pointers.length p q = .ok buf' ∧ buf'.length = buf.length ∧
      buf'.take ((pointers.length + 3) * 8) = pointersBytes (pointers ++ [p, q, 0]) := by
  obtain ⟨first, hfirst, hlen₁, hcount₁, htake₁⟩ := writeAt_next rfl hfront (by omega) p
  obtain ⟨second, hsecond, hlen₂, hcount₂, htake₂⟩ := writeAt_next hcount₁ htake₁ (by omega) q
  obtain ⟨third, hthird, hlen₃, _, htake₃⟩ := writeAt_next hcount₂ htake₂ (by omega) 0
  refine ⟨third, ?_, by rw [hlen₃, hlen₂, hlen₁], ?_⟩
  · rw [appendPointers, hfirst]
    show (writeAt first ((pointers.length + 1) * kPtrSize) (encodeLE 8 q) >>= _) = _
    rw [hsecond]
    exact hthird
  · rw [List.append_assoc, List.append_assoc] at htake₃
    exact htake₃

/-! ### The stack -/

/-- Where a push that a copy reached stands. -/
theorem pushDown_spec {stackp size limit : ℕ} (hlimit : limit ≤ 2 ^ 63) (hstackp : stackp < 2 ^ 64)
    (hreached : pushDown stackp size + size ≤ limit) :
    pushDown stackp size + size ≤ stackp ∧ pushDown stackp size % 8 = 0 := by
  rw [pushDown, ulongSub] at hreached ⊢
  omega

/-- What a task executes with whose environment was rewritten: the pointers, then the two strings and `NULL`. -/
structure NewEnv (mem mem' : Memory) (sp : ℕ) (pointers : List ℕ) (env : ℕ) : Prop where
  strings : ∃ ldPreloadP ldLibraryPathP, mem'.bytesAt ldPreloadP kLdPreload.length = kLdPreload ∧
    mem'.bytesAt ldLibraryPathP kLdLibraryPath.length = kLdLibraryPath ∧
    mem'.bytesAt env ((pointers.length + 3) * 8) = pointersBytes (pointers ++ [ldPreloadP, ldLibraryPathP, 0]) ∧
    (ldPreloadP % 8 = 0 ∧ ldLibraryPathP % 8 = 0 ∧ env % 8 = 0) ∧
    env + (pointers.length + 3) * 8 ≤ ldLibraryPathP ∧ ldLibraryPathP + kLdLibraryPath.length ≤ ldPreloadP ∧
    ldPreloadP + kLdPreload.length ≤ sp
  elsewhere : ∀ a, a < env ∨ sp ≤ a → mem' a = mem a

/-- The copy of the new environment, below the strings. -/
theorem stackp_spec {ldLibraryPathP total limit : ℕ} (hlimit : limit ≤ 2 ^ 63) (haligned : ldLibraryPathP % 8 = 0)
    (htotal : total < 2 ^ 64) (hwords : total % 8 = 0) (hreached : ulongSub ldLibraryPathP total + total ≤ limit) :
    ulongSub ldLibraryPathP total + total ≤ ldLibraryPathP ∧ ulongSub ldLibraryPathP total % 8 = 0 := by
  rw [ulongSub] at hreached ⊢
  omega

/-- The strings in memory, each apart from the environment and from the other. -/
theorem newEnv_of_stores {sp ldPreloadP ldLibraryPathP env : ℕ} {bytes : List UInt8}
    (hlen : bytes.length = (pointers.length + 3) * 8)
    (hbytes : bytes = pointersBytes (pointers ++ [ldPreloadP, ldLibraryPathP, 0]))
    (hpreload : ldPreloadP + kLdPreload.length ≤ sp ∧ ldPreloadP % 8 = 0)
    (hpath : ldLibraryPathP + kLdLibraryPath.length ≤ ldPreloadP ∧ ldLibraryPathP % 8 = 0)
    (henv : env + bytes.length ≤ ldLibraryPathP ∧ env % 8 = 0) :
    NewEnv mem (((mem.store ldPreloadP kLdPreload).store ldLibraryPathP kLdLibraryPath).store env bytes) sp pointers
      env where
  strings := by
    refine ⟨ldPreloadP, ldLibraryPathP, ?_, ?_, ?_, ⟨hpreload.2, hpath.2, henv.2⟩, hlen ▸ henv.1, hpath.1, hpreload.1⟩
    · rw [Memory.bytesAt_store_apart _ (by omega), Memory.bytesAt_store_apart _ (by omega), Memory.bytesAt_store_same]
    · rw [Memory.bytesAt_store_apart _ (by omega), Memory.bytesAt_store_same]
    · rw [← hlen, Memory.bytesAt_store_same, hbytes]
  elsewhere := by
    intro a ha
    rw [Memory.store_apart _ (by omega), Memory.store_apart _ (by omega), Memory.store_apart _ (by omega)]

/-! ### The call -/

/-- Two stretches of memory without a common byte. -/
def Apart (a m b n : ℕ) : Prop := a + m ≤ b ∨ b + n ≤ a

instance (a m b n : ℕ) : Decidable (Apart a m b n) := inferInstanceAs (Decidable (_ ∨ _))

/-- Where the two strings go, for a task whose stack pointer is `sp`. -/
def preloadAt (sp : UInt64) : ℕ := pushDown sp.toNat kLdPreload.length

def libraryPathAt (sp : UInt64) : ℕ := pushDown (preloadAt sp) kLdLibraryPath.length

/-- **The environment is rewritten, or the register is as it was.** -/
theorem setupLdPreload_spec {untaggedAddr : UInt64 → UInt64} (acc : Accesses) {fuel : ℕ} {regs : PtRegs}
    (h : EnvArray mem (untaggedAddr regs.parm3).toNat pointers)
    (hpreload : Apart (untaggedAddr regs.parm3).toNat ((pointers.length + 1) * 8) (preloadAt regs.sp) kLdPreload.length)
    (hpath : Apart (untaggedAddr regs.parm3).toNat ((pointers.length + 1) * 8) (libraryPathAt regs.sp)
      kLdLibraryPath.length) (hfuel : pointers.length / 16 < fuel) :
    ∃ ret regs' mem', setupLdPreload untaggedAddr acc fuel regs mem = .ok (ret, regs', mem') ∧
      (ret ≠ 0 → regs' = regs) ∧
      (ret = 0 → regs'.sp = regs.sp ∧ NewEnv mem mem' regs.sp.toNat pointers regs'.parm3.toNat) := by
  have hlimit := acc.limit_le
  rw [setupLdPreload]
  dsimp only
  rw [← preloadAt, ← libraryPathAt]
  by_cases hfirst : (copyToUser acc.limit mem (preloadAt regs.sp) kLdPreload acc.preloadCopied).1 ≠ 0
  · exact ⟨_, _, _, if_pos hfirst, fun _ => rfl, fun hzero => absurd hzero (by decide)⟩
  rw [if_neg hfirst]
  obtain ⟨hreached₁, hmem₁⟩ := copyToUser_full (by decide) (not_not.mp hfirst)
  rw [hmem₁]
  generalize hstored₁ : mem.store (preloadAt regs.sp) kLdPreload = mem₁
  by_cases hsecond : (copyToUser acc.limit mem₁ (libraryPathAt regs.sp) kLdLibraryPath acc.libraryPathCopied).1 ≠ 0
  · exact ⟨_, _, _, if_pos hsecond, fun _ => rfl, fun hzero => absurd hzero (by decide)⟩
  rw [if_neg hsecond]
  obtain ⟨hreached₂, hmem₂⟩ := copyToUser_full (by decide) (not_not.mp hsecond)
  rw [hmem₂]
  generalize hstored₂ : mem₁.store (libraryPathAt regs.sp) kLdLibraryPath = mem₂
  have harray : EnvArray mem₂ (untaggedAddr regs.parm3).toNat pointers := by
    rw [← hstored₂, ← hstored₁]
    exact (h.store hpreload).store hpath
  obtain ⟨r, hread, hspec⟩ := readEnv_spec acc harray fuel 0 [] 0 (Nat.zero_le _) (.inl rfl) rfl hfuel
  rw [hread]
  cases r with
  | error e => exact ⟨_, _, _, rfl, fun _ => rfl, fun hzero => absurd hzero e.range.2.ne⟩
  | ok found =>
    obtain ⟨tmpEnv, envCount⟩ := found
    obtain ⟨rfl, hroom, hword, hfront⟩ := hspec _ _ rfl
    obtain ⟨buf, happend, hlen, htake⟩ := appendPointers_spec hfront hroom (preloadAt regs.sp) (libraryPathAt regs.sp)
    dsimp only
    rw [happend]
    dsimp only
    have htotal : (pointers.length + 3) * kPtrSize % 2 ^ 64 = (pointers.length + 3) * 8 := Nat.mod_eq_of_lt hword
    rw [htotal]
    have hbytes : (buf.take ((pointers.length + 3) * 8)).length = (pointers.length + 3) * 8 := by
      rw [List.length_take]
      omega
    generalize buf.take ((pointers.length + 3) * 8) = bytes at htake hbytes
    generalize hstackp : ulongSub (libraryPathAt regs.sp) ((pointers.length + 3) * 8) = stackp
    by_cases hthird : (copyToUser acc.limit mem₂ stackp bytes acc.envCopied).1 ≠ 0
    · exact ⟨_, _, _, if_pos hthird, fun _ => rfl, fun hzero => absurd hzero (by decide)⟩
    rw [if_neg hthird]
    obtain ⟨hreached₃, hmem₃⟩ := copyToUser_full (by omega) (not_not.mp hthird)
    rw [hmem₃, ← hstored₂, ← hstored₁]
    have hbelow₁ := pushDown_spec hlimit regs.sp.toNat_lt hreached₁
    have hbelow₂ : libraryPathAt regs.sp + kLdLibraryPath.length ≤ preloadAt regs.sp ∧ libraryPathAt regs.sp % 8 = 0 :=
      pushDown_spec hlimit (by omega) hreached₂
    have hbelow₃ := stackp_spec hlimit hbelow₂.2 hword (Nat.mul_mod_left _ _) (by rw [hstackp]; omega)
    rw [hstackp] at hbelow₃
    refine ⟨_, _, _, rfl, fun hret => absurd rfl hret, fun _ => ⟨rfl, ?_⟩⟩
    have hparm : (UInt64.ofNat stackp).toNat = stackp := 
      UInt64.toNat_ofNat_of_lt' (by rw [UInt64.size]; omega)
    rw [hparm]
    exact newEnv_of_stores hbytes htake hbelow₁ hbelow₂ (by rw [hbytes]; exact hbelow₃)

/-- **The handler** rewrites the environment of `adbd` and goes on, or leaves its registers alone: with every array of
pointers that is apart from the strings, and wherever an access or an allocation fails. -/
theorem doKsuAdbRootHandleExecve_env (isExecAdbd isLibadbrootOk : ℤ) (untaggedAddr : UInt64 → UInt64) (acc : Accesses)
    (fuel : ℕ) (regs : PtRegs) (mem : Memory) (pointers : List ℕ)
    (h : EnvArray mem (untaggedAddr regs.parm3).toNat pointers)
    (hpreload : Apart (untaggedAddr regs.parm3).toNat ((pointers.length + 1) * 8) (preloadAt regs.sp) kLdPreload.length)
    (hpath : Apart (untaggedAddr regs.parm3).toNat ((pointers.length + 1) * 8) (libraryPathAt regs.sp)
      kLdLibraryPath.length) (hfuel : pointers.length / 16 < fuel) :
    ∃ r, doKsuAdbRootHandleExecve isExecAdbd isLibadbrootOk untaggedAddr acc fuel regs mem = .ok r ∧
      (r.escaped = true ↔ isExecAdbd = 1 ∧ isLibadbrootOk = 1 ∧ r.ret = 0) ∧
      (r.escaped = false → r.regs = regs) ∧
      (r.escaped = true → r.regs.sp = regs.sp ∧ NewEnv mem r.mem regs.sp.toNat pointers r.regs.parm3.toNat) := by
  rw [doKsuAdbRootHandleExecve]
  by_cases hadbd : isExecAdbd ≠ 1
  · exact ⟨_, if_pos hadbd, ⟨fun hesc => absurd hesc Bool.false_ne_true, fun hall => absurd hall.1 hadbd⟩, fun _ => rfl,
      fun hesc => absurd hesc Bool.false_ne_true⟩
  rw [if_neg hadbd]
  by_cases hlib : isLibadbrootOk ≠ 1
  · exact ⟨_, if_pos hlib, ⟨fun hesc => absurd hesc Bool.false_ne_true, fun hall => absurd hall.2.1 hlib⟩, fun _ => rfl,
      fun hesc => absurd hesc Bool.false_ne_true⟩
  rw [if_neg hlib]
  obtain ⟨ret, regs', mem', hrun, hfailed, hdone⟩ := setupLdPreload_spec acc h hpreload hpath hfuel
  rw [hrun]
  dsimp only
  by_cases hret : ret ≠ 0
  · exact ⟨_, if_pos hret, ⟨fun hesc => absurd hesc Bool.false_ne_true, fun hall => absurd hall.2.2 hret⟩,
      fun _ => hfailed hret, fun hesc => absurd hesc Bool.false_ne_true⟩
  · exact ⟨_, if_neg hret, ⟨fun _ => ⟨not_not.mp hadbd, not_not.mp hlib, rfl⟩, fun _ => rfl⟩,
      fun hesc => absurd hesc.symm Bool.false_ne_true, fun _ => hdone (not_not.mp hret)⟩

/-- Seventeen variables, one more than a batch. -/
def manyPointers : List ℕ := (List.range 17).map fun i => 5000 + 8 * i

/-- A task with these, whose strings go below its stack. -/
def manyEnv : Memory := Memory.store (fun _ => 0) 4096 (pointersBytes manyPointers)

/-- Nothing is in the way. -/
def freely : Accesses := ⟨2 ^ 48, by decide, fun _ => true, fun _ _ => 0, 43, 34, fun _ => 128, 160⟩

/-- The second batch ends the array, and the task goes on with the new environment. -/
theorem doKsuAdbRootHandleExecve_env_many :
    ∃ r, doKsuAdbRootHandleExecve 1 1 id freely 2 ⟨8192, 4096⟩ manyEnv = .ok r ∧ r.ret = 0 ∧ r.escaped = true ∧
      r.regs.sp = 8192 ∧ NewEnv manyEnv r.mem 8192 manyPointers r.regs.parm3.toNat := by
  obtain ⟨r, hrun, -, -, hdone⟩ := doKsuAdbRootHandleExecve_env 1 1 id freely 2 ⟨8192, 4096⟩ manyEnv manyPointers
    ⟨by decide, by decide, by decide, by decide +kernel⟩ (by decide +kernel) (by decide +kernel) (by decide)
  have hresult : (doKsuAdbRootHandleExecve 1 1 id freely 2 ⟨8192, 4096⟩ manyEnv).map (fun r => (r.ret, r.escaped)) =
      .ok (0, true) := by decide +kernel
  rw [hrun] at hresult
  obtain ⟨hret, hescaped⟩ := Prod.mk.inj (Except.ok.inj hresult)
  exact ⟨r, hrun, hret, hescaped, hdone hescaped⟩

end KernelSU.Feature
