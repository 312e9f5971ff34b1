import KernelSU.LkmImage.Bootstrap
import KernelSU.LkmImageBtf.KernelBtf

/-!
# `userspace/ksud/src/lkm_image.rs`, `lkm_image_bootstrap.S`: the storage of `struct load_info`

The injector links the layout of `struct load_info` into the bootstrap.  The bootstrap reserves storage for it on the
stack, zeroes it sixteen bytes at a time and stores the members `hdr` and `len`.

* `validate_sound` — **PROVED**: what an accepted layout satisfies;
* `prepareLoadInfo_safe` — **PROVED**: the zeroing ends at the end of the storage, and the stores are inside of it.
-/

namespace KernelSU.LkmImage

open KernelSU.Lib KernelSU.Lib.Bytes
open KernelSU.LkmImageBtf (KernelBtf require okOrElse)

def MINIMUM_LOAD_INFO_STORAGE_SIZE : ℕ := 256
def MAXIMUM_LOAD_INFO_STORAGE_SIZE : ℕ := 4096

structure GkiAbi where
  loadInfoStructureSize : Option ℕ
  loadInfoStorageSize : ℕ
  loadInfoHdrOffset : ℕ
  loadInfoLenOffset : ℕ
  gfpKernel : ℕ

def GKI_ABI : GkiAbi where
  loadInfoStructureSize := none
  loadInfoStorageSize := MINIMUM_LOAD_INFO_STORAGE_SIZE
  loadInfoHdrOffset := 16
  loadInfoLenOffset := 24
  gfpKernel := 0xcc0

/-- `align_up_u64`, to a power of two. -/
def alignUpU64 (value alignment : ℕ) : Option ℕ := (checked (value + (alignment - 1))).map fun v => v - v % alignment

namespace GkiAbi

def validate (abi : GkiAbi) : Except String Unit := do
  require (0 < abi.loadInfoStorageSize ∧ abi.loadInfoStorageSize ≤ MAXIMUM_LOAD_INFO_STORAGE_SIZE ∧
    abi.loadInfoStorageSize % 16 = 0) "invalid GKI load_info storage size"
  let layoutSize := abi.loadInfoStructureSize.getD abi.loadInfoStorageSize
  require (0 < layoutSize ∧ layoutSize ≤ abi.loadInfoStorageSize) "invalid GKI load_info structure size"
  [("hdr_offset", abi.loadInfoHdrOffset), ("len_offset", abi.loadInfoLenOffset)].forM fun field =>
    -- `saturating_add`
    require (field.2 % 8 = 0 ∧ min (field.2 + 8) (2 ^ 64 - 1) ≤ layoutSize) ("invalid GKI load_info " ++ field.1)

/-- The layout of the types, if they say one. -/
def withBtf (abi : GkiAbi) (btf : KernelBtf) : Except String GkiAbi :=
  match btf.loadInfo with
  | none => .ok abi
  | some layout => do
    let storageSize ← okOrElse (alignUpU64 (max layout.structureSize MINIMUM_LOAD_INFO_STORAGE_SIZE) 16)
      "BTF load_info storage size overflow"
    .ok { abi with
      loadInfoStructureSize := some layout.structureSize
      loadInfoStorageSize := storageSize
      loadInfoHdrOffset := layout.hdrOffset
      loadInfoLenOffset := layout.lenOffset }

/-- `apply_btf`. -/
def applyBtf (abi : GkiAbi) (btf : KernelBtf) : Except String GkiAbi := do
  let abi ← abi.withBtf btf
  abi.validate
  .ok abi

end GkiAbi

/-! ### The bootstrap -/

/-- With the stack pointer. -/
structure StackState extends BootState where
  sp : ℕ

/-- `sub` of 64-bit registers. -/
def sub64 (a b : ℕ) : ℕ := if b ≤ a then a - b else a + 2 ^ 64 - b

theorem sub64_of_le {a b : ℕ} (h : b ≤ a) : sub64 a b = a - b := if_pos h

theorem add64_of_lt {a b : ℕ} (h : a + b < 2 ^ 64) : add64 a b = a + b := Nat.mod_eq_of_lt h

/-- One turn of `.Lzero_load_info`, up to its branch. -/
def zeroBody (s : StackState) : StackState :=
  let s := { s with mem := s.mem.store s.x21 (List.replicate 16 0) }
  let s := { s with x21 := add64 s.x21 16 }
  { s with x8 := sub64 s.x8 16 }

/-- `.Lzero_load_info`: at most `fuel` turns; how many it takes and where it leaves off. -/
def zeroLoop : ℕ → StackState → Option (ℕ × StackState)
  | 0, _ => none
  | fuel + 1, s =>
    if (zeroBody s).x8 = 0 then some (1, zeroBody s)
    else (zeroLoop fuel (zeroBody s)).map fun r => (r.1 + 1, r.2)

/-- The stores of `hdr`, to which `x19` points, and `len`. -/
def storeMembers (abi : GkiAbi) (moduleSize : ℕ) (s : StackState) : StackState :=
  let s := { s with x9 := abi.loadInfoHdrOffset }
  let s := { s with mem := s.mem.store (add64 s.sp s.x9) (encodeLE 8 s.x19) }
  let s := { s with x8 := moduleSize }
  let s := { s with x9 := abi.loadInfoLenOffset }
  { s with mem := s.mem.store (add64 s.sp s.x9) (encodeLE 8 s.x8) }

/-- Storage on the stack, before it is zeroed. -/
def reserveStorage (abi : GkiAbi) (s : StackState) : StackState :=
  let s := { s with x20 := abi.loadInfoStorageSize }
  let s := { s with sp := sub64 s.sp s.x20 }
  let s := { s with x21 := s.sp }
  { s with x8 := s.x20 }

/-- From `.Lfixups_done` to the call of `load_module`; `none` is a loop that takes more than `fuel` turns. -/
def prepareLoadInfo (abi : GkiAbi) (moduleSize fuel : ℕ) (s : StackState) : Option (ℕ × StackState) :=
  (zeroLoop fuel (reserveStorage abi s)).map fun r => (r.1, storeMembers abi moduleSize r.2)

/-! ### Accepted layouts -/

theorem require_ok {c : Prop} [Decidable c] {message : String} {u : Unit} : require c message = .ok u ↔ c := by
  rw [require]
  split
  · next h => exact iff_of_true rfl h
  · next h => exact iff_of_false (fun h => nomatch h) h

/-- What the bootstrap relies on. -/
structure GkiAbi.Sound (abi : GkiAbi) : Prop where
  positive : 0 < abi.loadInfoStorageSize
  bounded : abi.loadInfoStorageSize ≤ MAXIMUM_LOAD_INFO_STORAGE_SIZE
  aligned : abi.loadInfoStorageSize % 16 = 0
  hdr : abi.loadInfoHdrOffset + 8 ≤ abi.loadInfoStorageSize
  len : abi.loadInfoLenOffset + 8 ≤ abi.loadInfoStorageSize

/-- **What an accepted layout satisfies.** -/
theorem GkiAbi.validate_sound {abi : GkiAbi} (h : abi.validate = .ok ()) : abi.Sound := by
  obtain ⟨hstorage, h⟩ := except_check_ok.mp h
  obtain ⟨hsize, h⟩ := except_check_ok.mp h
  obtain ⟨hpos, hmax, halign⟩ := require_ok.mp hstorage
  obtain ⟨-, hfits⟩ := require_ok.mp hsize
  have hfields := forM_ok.mp h
  have hhdr := (require_ok.mp (hfields ("hdr_offset", abi.loadInfoHdrOffset) (by simp))).2
  have hlen := (require_ok.mp (hfields ("len_offset", abi.loadInfoLenOffset) (by simp))).2
  have hbound : abi.loadInfoStorageSize ≤ 4096 := hmax
  dsimp only at hhdr hlen
  exact ⟨hpos, hmax, halign, by omega, by omega⟩

theorem GkiAbi.applyBtf_sound {abi abi' : GkiAbi} {btf : KernelBtf} (h : abi.applyBtf btf = .ok abi') : abi'.Sound := by
  obtain ⟨abi₁, -, h⟩ := except_bind_ok.mp h
  obtain ⟨hvalid, heq⟩ := except_check_ok.mp h
  obtain rfl := Except.ok.inj heq
  exact GkiAbi.validate_sound hvalid

/-! ### The loop -/

/-- Where the loop is after `k` turns; `s₀` is the state in which it starts. -/
structure ZeroState (size : ℕ) (s₀ : StackState) (k : ℕ) (s : StackState) : Prop where
  sp : s.sp = s₀.sp
  x19 : s.x19 = s₀.x19
  x8 : s.x8 = size - 16 * k
  x21 : s.x21 = s₀.sp + 16 * k
  zeroed : s.mem.bytesAt s₀.sp (16 * k) = List.replicate (16 * k) 0
  outside : ∀ a, a < s₀.sp ∨ s₀.sp + 16 * k ≤ a → s.mem a = s₀.mem a

section Loop

variable {size : ℕ} {s₀ : StackState}

@[simp] theorem zeroBody_sp (s : StackState) : (zeroBody s).sp = s.sp := rfl

@[simp] theorem zeroBody_x19 (s : StackState) : (zeroBody s).x19 = s.x19 := rfl

@[simp] theorem zeroBody_x8 (s : StackState) : (zeroBody s).x8 = sub64 s.x8 16 := rfl

@[simp] theorem zeroBody_x21 (s : StackState) : (zeroBody s).x21 = add64 s.x21 16 := rfl

@[simp] theorem zeroBody_mem (s : StackState) : (zeroBody s).mem = s.mem.store s.x21 (List.replicate 16 0) := rfl

/-- **One turn** zeroes sixteen more bytes. -/
theorem ZeroState.next (hfits : s₀.sp + size < 2 ^ 64) {k : ℕ} {s : StackState} (hs : ZeroState size s₀ k s)
    (hk : 16 * (k + 1) ≤ size) : ZeroState size s₀ (k + 1) (zeroBody s) := by
  have hsub : sub64 (size - 16 * k) 16 = size - 16 * (k + 1) := by
    rw [sub64_of_le (by omega)]
    omega
  have hadd : add64 (s₀.sp + 16 * k) 16 = s₀.sp + 16 * (k + 1) := by
    rw [add64_of_lt (by omega)]
    omega
  have hmem : (zeroBody s).mem = s.mem.store (s₀.sp + 16 * k) (List.replicate 16 0) := by rw [zeroBody_mem, hs.x21]
  refine ⟨?_, ?_, ?_, ?_, ?_, ?_⟩
  · rw [zeroBody_sp, hs.sp]
  · rw [zeroBody_x19, hs.x19]
  · rw [zeroBody_x8, hs.x8, hsub]
  · rw [zeroBody_x21, hs.x21, hadd]
  · have hnew := s.mem.bytesAt_store_same (s₀.sp + 16 * k) (List.replicate 16 0)
    rw [List.length_replicate] at hnew
    rw [Nat.mul_succ, Memory.bytesAt_add, hmem, hnew, Memory.bytesAt_store_apart _ (Or.inl le_rfl), hs.zeroed,
      List.replicate_append_replicate]
  · intro a ha
    have hstore : a < s₀.sp + 16 * k ∨ s₀.sp + 16 * k + (List.replicate 16 (0 : UInt8)).length ≤ a := by
      rw [List.length_replicate]
      omega
    rw [hmem, Memory.store_apart _ hstore, hs.outside a (by omega)]

/-- **The loop** takes a turn for every sixteen bytes. -/
theorem zeroLoop_run (hfits : s₀.sp + size < 2 ^ 64) (haligned : size % 16 = 0) {fuel k : ℕ} {s : StackState}
    (hs : ZeroState size s₀ k s) (hk : 16 * k < size) (hfuel : size / 16 - k ≤ fuel) :
    ∃ s', zeroLoop fuel s = some (size / 16 - k, s') ∧ ZeroState size s₀ (size / 16) s' := by
  induction fuel generalizing k s with
  | zero => omega
  | succ fuel ih =>
    have hnext := hs.next hfits (by omega)
    have hleft := hnext.x8
    rw [zeroLoop]
    by_cases hlast : 16 * (k + 1) = size
    · rw [if_pos (by omega)]
      have hturns : size / 16 = k + 1 := by omega
      rw [hturns, Nat.add_sub_cancel_left]
      exact ⟨_, rfl, hnext⟩
    · obtain ⟨s', hloop, hs'⟩ := ih hnext (by omega) (by omega)
      have hcount : size / 16 - (k + 1) + 1 = size / 16 - k := by omega
      rw [if_neg (by omega), hloop]
      exact ⟨s', by rw [Option.map_some, hcount], hs'⟩

end Loop

/-! ### The storage -/

/-- The bootstrap has reserved the storage and filled it, in so many turns. -/
structure StorageFilled (abi : GkiAbi) (moduleSize : ℕ) (s : StackState) (turns : ℕ) (s' : StackState) : Prop where
  reserved : s'.sp + abi.loadInfoStorageSize = s.sp
  turns : 16 * turns = abi.loadInfoStorageSize
  stopped : s'.x21 = s.sp
  hdr : s'.sp ≤ s'.sp + abi.loadInfoHdrOffset ∧ s'.sp + abi.loadInfoHdrOffset + 8 ≤ s.sp
  len : s'.sp ≤ s'.sp + abi.loadInfoLenOffset ∧ s'.sp + abi.loadInfoLenOffset + 8 ≤ s.sp
  outside : ∀ a, a < s'.sp ∨ s.sp ≤ a → s'.mem a = s.mem a
  contents : s'.mem.bytesAt s'.sp abi.loadInfoStorageSize =
    patch (patch (List.replicate abi.loadInfoStorageSize 0) abi.loadInfoHdrOffset (encodeLE 8 s.x19))
      abi.loadInfoLenOffset (encodeLE 8 moduleSize)

/-- **The storage is filled and nothing else**, where the stack has room for it. -/
theorem prepareLoadInfo_safe {abi : GkiAbi} (h : abi.Sound) (moduleSize : ℕ) {s : StackState}
    (hroom : abi.loadInfoStorageSize ≤ s.sp) (hsp : s.sp < 2 ^ 64) {fuel : ℕ}
    (hfuel : abi.loadInfoStorageSize / 16 ≤ fuel) :
    ∃ turns s', prepareLoadInfo abi moduleSize fuel s = some (turns, s') ∧
      StorageFilled abi moduleSize s turns s' := by
  have haligned := h.aligned
  have hpos := h.positive
  have hhdr := h.hdr
  have hlen := h.len
  have hsp₀ : (reserveStorage abi s).sp = s.sp - abi.loadInfoStorageSize := by
    simp only [reserveStorage, sub64_of_le hroom]
  have hx8 : (reserveStorage abi s).x8 = abi.loadInfoStorageSize := by simp only [reserveStorage]
  have hx21 : (reserveStorage abi s).x21 = (reserveStorage abi s).sp := by simp only [reserveStorage]
  have hx19 : (reserveStorage abi s).x19 = s.x19 := by simp only [reserveStorage]
  have hmem₀ : (reserveStorage abi s).mem = s.mem := by simp only [reserveStorage]
  rw [prepareLoadInfo]
  generalize reserveStorage abi s = s₀ at hsp₀ hx8 hx21 hx19 hmem₀
  have hstart : ZeroState abi.loadInfoStorageSize s₀ 0 s₀ := by
    refine ⟨rfl, rfl, ?_, ?_, ?_, fun _ _ => rfl⟩
    · rw [hx8, Nat.mul_zero, Nat.sub_zero]
    · rw [hx21, Nat.mul_zero, Nat.add_zero]
    · rw [Nat.mul_zero]
      rfl
  obtain ⟨s₁, hloop, hs₁⟩ := zeroLoop_run (by omega) haligned hstart (by omega) (by omega : _ ≤ fuel)
  have hsize : 16 * (abi.loadInfoStorageSize / 16) = abi.loadInfoStorageSize := by omega
  have hmem : (storeMembers abi moduleSize s₁).mem =
      (s₁.mem.store (s₀.sp + abi.loadInfoHdrOffset) (encodeLE 8 s.x19)).store (s₀.sp + abi.loadInfoLenOffset)
        (encodeLE 8 moduleSize) := by
    simp only [storeMembers, hs₁.sp, hs₁.x19, hx19]
    rw [add64_of_lt (by omega), add64_of_lt (by omega)]
  have hsp₁ : (storeMembers abi moduleSize s₁).sp = s₀.sp := by simp only [storeMembers, hs₁.sp]
  have hx21₁ : (storeMembers abi moduleSize s₁).x21 = s₁.x21 := by simp only [storeMembers]
  refine ⟨_, _, by rw [hloop, Option.map_some], ?_⟩
  dsimp only
  generalize storeMembers abi moduleSize s₁ = s' at hmem hsp₁ hx21₁ ⊢
  refine ⟨?_, ?_, ?_, ?_, ?_, ?_, ?_⟩
  · omega
  · omega
  · rw [hx21₁, hs₁.x21]
    omega
  · omega
  · omega
  · intro a ha
    rw [hsp₁] at ha
    rw [hmem, Memory.store_apart _ (by rw [encodeLE_length]; omega),
      Memory.store_apart _ (by rw [encodeLE_length]; omega), hs₁.outside a (by omega), hmem₀]
  · have hzero := hs₁.zeroed
    rw [hsize] at hzero
    rw [hsp₁, hmem, Memory.bytesAt_store_inside _ (by rw [encodeLE_length]; omega),
      Memory.bytesAt_store_inside _ (by rw [encodeLE_length]; omega), hzero]

end KernelSU.LkmImage
