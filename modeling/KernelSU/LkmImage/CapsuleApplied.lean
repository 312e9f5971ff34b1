import KernelSU.LkmImage.CollectedFixups

/-!
# The bootstrap accepts the capsule and applies it

* `CapsuleLayout.header` — **PROVED**: the header of a built capsule holds the constants of the bootstrap;
* `bootstrap_done` — **PROVED**: where the capsule is mapped, the bootstrap gets to `.Lfixups_done` after one
  turn for each fixup;
* `capsule_applied` — **PROVED**: the capsule is whole, the bootstrap accepts it, and the copy that it hands to
  `load_module` is the module with the fields of the listed symbols filled in.

A listed symbol keeps its fields unless a later one overlaps them, which only overlapping symbol tables bring
about.
-/

namespace KernelSU.LkmImage

open KernelSU.Lib KernelSU.Lib.Bytes KernelSU.Ksud

/-! ### What the header says -/

/-- A word of the capsule. -/
def Capsule.word (capsule : Capsule) (o k : ℕ) : ℕ := decodeLE (slice capsule.data o k)

/-- What a capsule holds is found where its header says, one region behind the other. -/
structure Capsule.Whole (capsule : Capsule) (module : List UInt8) (fixups : List Fixup) : Prop where
  headerEnd : capsule.word 12 4 ≤ capsule.word 24 8
  moduleEnd : capsule.word 24 8 + capsule.word 32 8 ≤ capsule.word 40 8
  fixupEnd : capsule.word 40 8 + capsule.word 48 8 * 16 ≤ capsule.data.length
  module : slice capsule.data (capsule.word 24 8) (capsule.word 32 8) = module
  count : capsule.word 48 8 = fixups.length
  fixups : ∀ i f, fixups[i]? = some f →
    capsule.word (capsule.word 40 8 + 16 * i) 4 = f.symbolFileOffset ∧
      capsule.word (capsule.word 40 8 + 16 * i + 8) 8 = f.kernelOffset

section Header

variable {module : List UInt8} {fixups : List Fixup} {capsule : Capsule}

theorem CapsuleLayout.count_lt
    (h : CapsuleLayout module (fixups.flatMap fixupEntry) fixups.length capsule) : fixups.length < 2 ^ 64 := by
  have hend := h.fixupEnd
  have hsize := h.size
  rw [flatMap_fixupEntry_length] at hend
  rw [ISIZE_MAX] at hsize
  omega

/-- **The header** holds the constants that are linked into the bootstrap. -/
theorem CapsuleLayout.header (h : CapsuleLayout module (fixups.flatMap fixupEntry) fixups.length capsule) :
    capsule.word 0 8 = (bootDefinitions capsule module fixups).capsuleMagic ∧
      capsule.word 8 4 = (bootDefinitions capsule module fixups).capsuleVersion ∧
      capsule.word 12 4 = (bootDefinitions capsule module fixups).capsuleHeaderSize ∧
      capsule.word 16 8 = (bootDefinitions capsule module fixups).capsuleSize ∧
      capsule.word 24 8 = (bootDefinitions capsule module fixups).moduleCapsuleOffset ∧
      capsule.word 32 8 = (bootDefinitions capsule module fixups).moduleSize ∧
      capsule.word 40 8 = (bootDefinitions capsule module fixups).fixupCapsuleOffset ∧
      capsule.word 48 8 = (bootDefinitions capsule module fixups).fixupCount := by
  have hcount := h.count_lt
  have hmodule := h.moduleEnd
  have hend := h.fixupEnd
  have hsize := h.size
  rw [ISIZE_MAX] at hsize
  have hword : ∀ {o k v : ℕ}, slice capsule.data o k = encodeLE k v → v < 256 ^ k → capsule.word o k = v := by
    intro o k v hslice hv
    rw [Capsule.word, hslice, decodeLE_encodeLE_of_lt k v hv]
  simp only [bootDefinitions, h.moduleOffset]
  refine ⟨?_, ?_, ?_, ?_, ?_, ?_, ?_, ?_⟩
  · rw [Capsule.word, h.magic]
  · exact hword h.version (by decide)
  · exact hword h.headerSize (by decide)
  · exact hword h.capsuleSize (by omega)
  · exact hword h.moduleOffsetField (by decide)
  · exact hword h.moduleSize (by omega)
  · exact hword h.fixupOffsetField (by omega)
  · exact hword h.fixupCountField (by omega)

/-- A built capsule is whole. -/
theorem CapsuleLayout.whole (h : CapsuleLayout module (fixups.flatMap fixupEntry) fixups.length capsule)
    (hin : ∀ f ∈ fixups, f.InModule module.length) : capsule.Whole module fixups := by
  obtain ⟨-, -, hheader, -, hmodule, hsize, hfixup, hcount⟩ := h.header
  simp only [bootDefinitions, h.moduleOffset] at hheader hmodule hsize hfixup hcount
  have hend := h.fixupEnd
  rw [flatMap_fixupEntry_length] at hend
  constructor
  case headerEnd => rw [hheader, hmodule]
  case moduleEnd =>
    rw [hmodule, hsize, hfixup]
    exact h.moduleEnd
  case fixupEnd =>
    rw [hfixup, hcount]
    exact hend
  case module =>
    rw [hmodule, hsize]
    exact h.module
  case count => exact hcount
  case fixups =>
    intro i f hf
    obtain ⟨hi, -⟩ := List.getElem?_eq_some_iff.mp hf
    have hinside := hin f (List.mem_of_getElem? hf)
    have htable := h.fixups
    rw [flatMap_fixupEntry_length] at htable
    obtain ⟨hfirst, hsecond⟩ := fixupEntry_words f
    have hentry : slice capsule.data (capsule.fixupOffset - capsule.fileOffset + 16 * i) 16 = fixupEntry f := by
      rw [← slice_flatMap_fixupEntry hf, ← htable, slice_slice _ (by omega)]
    rw [hfixup]
    constructor
    · have hslice : slice (slice capsule.data (capsule.fixupOffset - capsule.fileOffset + 16 * i) 16) 0 4
          = slice capsule.data (capsule.fixupOffset - capsule.fileOffset + 16 * i + 0) 4 :=
        slice_slice _ (by omega)
      rw [hentry, hfirst] at hslice
      rw [Capsule.word, ← Nat.add_zero (_ + 16 * i), ← hslice, decodeLE_encodeLE_of_lt 4 _ hinside.offset]
    · have hslice : slice (slice capsule.data (capsule.fixupOffset - capsule.fileOffset + 16 * i) 16) 8 8
          = slice capsule.data (capsule.fixupOffset - capsule.fileOffset + 16 * i + 8) 8 :=
        slice_slice _ (by omega)
      rw [hentry, hsecond] at hslice
      rw [Capsule.word, ← hslice, decodeLE_encodeLE_of_lt 8 _ hinside.kernel]

end Header

/-! ### The bootstrap -/

/-- Where the bootstrap runs: `x23` points to the capsule, and `vmalloc` has memory. -/
structure Boots (capsule : Capsule) (module : List UInt8) (vmalloc : Vmalloc) (s : BootState) : Prop where
  fits : s.x23 + capsule.data.length ≤ 2 ^ 64
  mapped : s.mem.bytesAt s.x23 capsule.data.length = capsule.data
  allocated : vmalloc.result ≠ 0
  sound : vmalloc.Sound module.length s capsule.data.length

section Boot

variable {module : List UInt8} {fixups : List Fixup} {capsule : Capsule} {vmalloc : Vmalloc} {s : BootState}

/-- The header as the bootstrap reads it. -/
theorem Boots.headerWord (hb : Boots capsule module vmalloc s) {o k : ℕ} (hk : 0 < k)
    (h : o + k ≤ capsule.data.length) : headerWord s o k = capsule.word o k := by
  have hfits := hb.fits
  have hadd : add64 s.x23 o = s.x23 + o := by
    rw [add64]
    omega
  rw [LkmImage.headerWord, hadd, s.mem.word_of_bytesAt hb.mapped h, Capsule.word]

/-- **Every comparison** of the bootstrap holds. -/
theorem Boots.accepted (hb : Boots capsule module vmalloc s)
    (hl : CapsuleLayout module (fixups.flatMap fixupEntry) fixups.length capsule) :
    capsuleAccepted (bootDefinitions capsule module fixups) s = true := by
  have hmodule := hl.moduleEnd
  have hend := hl.fixupEnd
  rw [CAPSULE_HEADER_SIZE] at hmodule
  obtain ⟨hmagic, hversion, hheader, hsize, hmoduleOffset, hmoduleSize, hfixup, hcount⟩ := hl.header
  rw [capsuleAccepted, hb.headerWord (by omega) (by omega), hb.headerWord (by omega) (by omega),
    hb.headerWord (by omega) (by omega), hb.headerWord (by omega) (by omega),
    hb.headerWord (by omega) (by omega), hb.headerWord (by omega) (by omega),
    hb.headerWord (by omega) (by omega), hb.headerWord (by omega) (by omega), hmagic, hversion, hheader, hsize,
    hmoduleOffset, hmoduleSize, hfixup, hcount]
  simp only [beq_self_eq_true, Bool.and_self]

/-- The capsule in memory, after `vmalloc` as before it. -/
theorem Boots.mapped_after (hb : Boots capsule module vmalloc s) :
    vmalloc.mem.bytesAt s.x23 capsule.data.length = capsule.data := by
  refine Eq.trans ?_ hb.mapped
  apply List.map_congr_left
  intro i hi
  rw [List.mem_range] at hi
  exact hb.sound.keeps _ (by omega) (by omega)

/-- The loop finds the fixups. -/
theorem Boots.fixupTable (hb : Boots capsule module vmalloc s)
    (hl : CapsuleLayout module (fixups.flatMap fixupEntry) fixups.length capsule)
    (hin : ∀ f ∈ fixups, f.InModule module.length) :
    FixupTable module fixups vmalloc.result (s.x23 + (capsule.fixupOffset - capsule.fileOffset)) vmalloc.mem := by
  have hfits := hb.fits
  have hend := hl.fixupEnd
  have hfixups := hl.fixups
  have hapart := hb.sound.apart
  rw [flatMap_fixupEntry_length] at hend hfixups
  constructor
  case inModule => exact hin
  case count => exact hl.count_lt
  case copyFits => exact hb.sound.fits
  case tableFits => omega
  case apart => omega
  case entries => rw [← hfixups, ← Memory.slice_bytesAt _ hend, hb.mapped_after]

/-- After `memcpy` the copy is the module. -/
theorem Boots.copied (hb : Boots capsule module vmalloc s)
    (hl : CapsuleLayout module (fixups.flatMap fixupEntry) fixups.length capsule) :
    vmalloc.mem.bytesAt (s.x23 + CAPSULE_HEADER_SIZE) module.length = module := by
  have hmodule := hl.moduleEnd
  have hend := hl.fixupEnd
  have hread := vmalloc.mem.slice_bytesAt (a := s.x23) (n := capsule.data.length) (o := CAPSULE_HEADER_SIZE)
    (k := module.length) (by omega)
  rw [← hread, hb.mapped_after, hl.module]

/-- **The bootstrap** gets to `.Lfixups_done` after one turn for each fixup. -/
theorem bootstrap_done (hb : Boots capsule module vmalloc s)
    (hl : CapsuleLayout module (fixups.flatMap fixupEntry) fixups.length capsule)
    (hin : ∀ f ∈ fixups, f.InModule module.length) (imageBase : ℕ) {fuel : ℕ} (hfuel : fixups.length ≤ fuel) :
    ∃ s', bootstrap (bootDefinitions capsule module fixups) imageBase vmalloc fuel s
        = some (.fixupsDone fixups.length s') ∧
      LoopState imageBase module fixups vmalloc.result (s.x23 + (capsule.fixupOffset - capsule.fileOffset)) s.x23
        vmalloc.mem fixups.length s' := by
  have hfits := hb.fits
  have hmodule := hl.moduleEnd
  have hend := hl.fixupEnd
  have hsound := hb.sound.fits
  have hsource : add64 s.x23 CAPSULE_HEADER_SIZE = s.x23 + CAPSULE_HEADER_SIZE ∨ module.length = 0 := by
    rw [add64]
    omega
  have hcopied := hb.copied hl
  have hcopy : vmalloc.mem.bytesAt (add64 s.x23 CAPSULE_HEADER_SIZE) module.length = module := by
    rcases hsource with heq | hnil
    · rw [heq, hcopied]
    · rw [List.length_eq_zero_iff.mp hnil]
      rfl
  rw [bootstrap, hb.accepted hl]
  simp only [Bool.not_true, Bool.false_eq_true, if_false, if_neg hb.allocated, bootDefinitions, hl.moduleOffset,
    hcopy]
  -- the state in which the loop is entered
  have hstart : LoopState imageBase module fixups vmalloc.result
      (s.x23 + (capsule.fixupOffset - capsule.fileOffset)) s.x23 vmalloc.mem 0
      { s with
        x19 := vmalloc.result
        mem := vmalloc.mem.store vmalloc.result module
        x20 := add64 s.x23 (capsule.fixupOffset - capsule.fileOffset)
        x21 := fixups.length
        x22 := imageBase } := by
    constructor
    case x19 => rfl
    case x20 => rfl
    case x21 => rfl
    case x22 => rfl
    case x23 => rfl
    case copied => exact Memory.bytesAt_store_same _ _ _
    case outside =>
      intro a ha
      exact Memory.store_apart _ ha
  by_cases hnone : fixups.length = 0
  · rw [if_pos hnone]
    rw [← hnone] at hstart
    exact ⟨_, by rw [hnone], hstart⟩
  · have hturns : fixups.length - 0 ≤ fuel := hfuel
    obtain ⟨s', hloop, hs'⟩ := fixupLoop_run (hb.fixupTable hl hin) hstart (by omega) hturns
    rw [if_neg hnone, hloop]
    exact ⟨s', rfl, hs'⟩

end Boot

/-! ### The module that is loaded -/

/-- The symbol that a fixup names is absolute and has the address of the kernel's symbol. -/
def Fixup.Filled (imageBase copy : ℕ) (mem : Memory) (f : Fixup) : Prop :=
  mem.word (copy + f.symbolFileOffset + 6) 2 = SHN_ABS ∧
    mem.word (copy + f.symbolFileOffset + 8) 8 = (imageBase + f.kernelOffset) % 2 ^ 64

/-- The copy that the bootstrap hands to `load_module`. -/
structure Applied (imageBase : ℕ) (module : List UInt8) (fixups : List Fixup) (vmalloc : Vmalloc) (s : BootState) :
    Prop where
  copy : s.x19 = vmalloc.result
  outside : ∀ a, a < vmalloc.result ∨ vmalloc.result + module.length ≤ a → s.mem a = vmalloc.mem a
  others : ∀ i, (∀ f ∈ fixups, i < f.symbolFileOffset + 6 ∨ f.symbolFileOffset + 16 ≤ i) → ∀ b, module[i]? = some b →
    s.mem (vmalloc.result + i) = b
  filled : ∀ before f after, fixups = before ++ f :: after → (∀ g ∈ after, f.Apart g) →
    f.Filled imageBase vmalloc.result s.mem

section Loaded

variable {imageBase : ℕ} {module : List UInt8} {fixups : List Fixup} {vmalloc : Vmalloc} {s : BootState}

/-- The fields of a symbol in the copy. -/
theorem Fixup.filled_of_slice {mem : Memory} {copy : ℕ} {patched : List UInt8} {f : Fixup}
    (hcopy : mem.bytesAt copy module.length = patched) (hin : f.symbolFileOffset + 24 ≤ module.length)
    (hslice : slice patched (f.symbolFileOffset + 6) 10 = fixupBytes imageBase f) :
    f.Filled imageBase copy mem := by
  obtain ⟨hshndx, hvalue⟩ := fixupBytes_fields imageBase f
  rw [← hslice, slice_slice _ (by omega)] at hshndx hvalue
  have hsum : add64 imageBase f.kernelOffset < 2 ^ 64 := Nat.mod_lt _ (by decide)
  constructor
  · rw [Nat.add_assoc, mem.word_of_bytesAt hcopy (by omega), ← Nat.add_zero (_ + 6), hshndx,
      decodeLE_encodeLE_of_lt 2 _ (by decide)]
  · rw [Nat.add_assoc, mem.word_of_bytesAt hcopy (by omega), hvalue, decodeLE_encodeLE_of_lt 8 _ hsum, add64]

/-- After the last turn the copy is what is to be loaded. -/
theorem LoopState.applied {table x23 : ℕ} (hin : ∀ f ∈ fixups, f.InModule module.length)
    (hs : LoopState imageBase module fixups vmalloc.result table x23 vmalloc.mem fixups.length s) :
    Applied imageBase module fixups vmalloc s := by
  have hcopied := hs.copied
  rw [List.take_length] at hcopied
  constructor
  case copy => exact hs.x19
  case outside => exact hs.outside
  case others =>
    intro i hi b hb
    obtain ⟨hlt, -⟩ := List.getElem?_eq_some_iff.mp hb
    have hbyte := s.mem.getElem?_bytesAt vmalloc.result module.length i
    rw [hcopied, getElem?_applyFixups imageBase hin hi, hb, if_pos hlt] at hbyte
    exact (Option.some.inj hbyte).symm
  case filled =>
    intro before f after hsplit hapart
    have hmem : f ∈ fixups := by
      rw [hsplit]
      exact List.mem_append_right before List.mem_cons_self
    have hinside := hin f hmem
    subst hsplit
    exact Fixup.filled_of_slice hcopied hinside.symbol (slice_applyFixups imageBase hin hapart)

/-- Every listed symbol is filled in when the fields of no two meet. -/
theorem Applied.all_filled (ha : Applied imageBase module fixups vmalloc s)
    (hapart : fixups.Pairwise Fixup.Apart) {f : Fixup} (hf : f ∈ fixups) :
    f.Filled imageBase vmalloc.result s.mem := by
  obtain ⟨before, after, hsplit⟩ := List.append_of_mem hf
  rw [hsplit] at hapart
  exact ha.filled before f after hsplit (List.pairwise_cons.mp (List.pairwise_append.mp hapart).2.1).1

end Loaded

/-- No two different symbol tables of a module overlap. -/
def SymbolTablesApart (module : List UInt8) : Prop :=
  ∀ s ∈ symbolTables module, ∀ t ∈ symbolTables module, s ≠ t → s.Apart t

/-! ### Two modules to try -/

/-- An entry of a section table. -/
def sectionHeader (sectionType offset size link entrySize : ℕ) : List UInt8 :=
  encodeLE 4 0 ++ encodeLE 4 sectionType ++ encodeLE 16 0 ++ encodeLE 8 offset ++ encodeLE 8 size ++ encodeLE 4 link
    ++ encodeLE 12 0 ++ encodeLE 8 entrySize

/-- The header of a relocatable ARM64 file, whose sections follow. -/
def elfHeader (sectionCount : ℕ) : List UInt8 :=
  elfMagic ++ [2, 1] ++ encodeLE 10 0 ++ encodeLE 2 ET_REL ++ encodeLE 2 EM_AARCH64 ++ encodeLE 20 0 ++ encodeLE 8 64
    ++ encodeLE 10 0 ++ encodeLE 2 64 ++ encodeLE 2 sectionCount ++ encodeLE 2 0

/-- A module with one undefined symbol. -/
def plainModule : List UInt8 :=
  elfHeader 2 ++ sectionHeader 3 192 4 0 0 ++ sectionHeader SHT_SYMTAB 200 48 0 24 ++ [0, 0x61, 0, 0] ++ encodeLE 4 0
    ++ encodeLE 24 0 ++ encodeLE 24 1

/-- A module with two symbol tables, the second of which starts in the first. -/
def overlapModule : List UInt8 :=
  elfHeader 3 ++ sectionHeader 3 256 4 0 0 ++ sectionHeader SHT_SYMTAB 264 48 0 24
    ++ sectionHeader SHT_SYMTAB 272 48 0 24 ++ [0, 0x61, 0, 0] ++ encodeLE 4 0 ++ encodeLE 24 0 ++ encodeLE 8 1
    ++ encodeLE 24 1

/-- A digest, which gives its bytes the other way round. -/
def digest (n : ℕ) : Block 32 := ⟨encodeLE 32 n, encodeLE_length 32 n⟩

/-- The capsule of a module, where it is built. -/
def exampleCapsule (imageSize sha256 : ℕ) (module : List UInt8) (fixups : List Fixup) : Capsule :=
  (buildCapsule (fun _ => digest sha256) imageSize module (fixups.flatMap fixupEntry) fixups.length).toOption.getD
    ⟨[], 0, 0, 0, 0⟩

/-- Where the kernel of the examples is linked. -/
def exampleBase : ℕ := 0xffffffc008000000

/-- Its only symbol. -/
def exampleResolve (_ : Str) : Option UInt64 := some 0xffffffc008000040

/-- The linear map, with a capsule in it. -/
def exampleState (capsule : Capsule) : BootState :=
  ⟨0, 0, 0, 0, 0, 0, 0, 0, 0xffffff8000100000, Memory.store (fun _ => 0) 0xffffff8000100000 capsule.data⟩

/-- A copy far from it. -/
def exampleVmalloc (capsule : Capsule) : Vmalloc := ⟨0xffffffc010000000, (exampleState capsule).mem⟩

def plainFixups : List Fixup := [⟨224, 64⟩]

def overlapFixups : List Fixup := [⟨288, 64⟩, ⟨296, 64⟩]

/-- The capsule of the plain module. -/
def plainCapsule : Capsule :=
  exampleCapsule 3728 0x847fed13e65fa60dba5a23ec5c1eba5371df7b71dcb3fdb92549431f33b27d6d plainModule plainFixups

/-- The capsule of the other one. -/
def overlapCapsule : Capsule :=
  exampleCapsule 3648 0x9f6375a6ead95df7515afbfbe7275381d8c51066d5158766e54f9e42e751dde overlapModule overlapFixups

/-- A small capsule and a small copy find room. -/
theorem exampleBoots {capsule : Capsule} {module : List UInt8} (hcapsule : capsule.data.length ≤ 2 ^ 20)
    (hmodule : module.length ≤ 2 ^ 20) : Boots capsule module (exampleVmalloc capsule) (exampleState capsule) := by
  have hx23 : (exampleState capsule).x23 = 0xffffff8000100000 := rfl
  have hresult : (exampleVmalloc capsule).result = 0xffffffc010000000 := rfl
  constructor
  case fits => omega
  case mapped => exact Memory.bytesAt_store_same _ _ _
  case allocated => omega
  case sound =>
    constructor
    case fits => omega
    case apart => omega
    case keeps =>
      intro a _ _
      rfl

/-! ### The capsule is applied -/

/-- **The capsule is accepted and applied.** -/
theorem capsule_applied (sha256 : List UInt8 → Block 32) (resolve : Str → Option UInt64) (kernelBase imageSize : ℕ)
    (module fixupBytes : List UInt8) (fixups : List Fixup) (unresolved : List Str) (capsule : Capsule)
    (hcollect : collectModuleFixups resolve kernelBase imageSize module = .ok (fixups, unresolved))
    (hpack : packFixups fixups = .ok fixupBytes)
    (hbuild : buildCapsule sha256 imageSize module fixupBytes fixups.length = .ok capsule) :
    capsule.Whole module fixups ∧
      (∀ extension, reserveExtension imageSize capsule = .ok extension →
        capsule.fileOffset + capsule.data.length = imageSize + extension) ∧
      (∀ f ∈ fixups, f.symbolFileOffset + 24 ≤ module.length) ∧
      ∀ imageBase vmalloc fuel s, Boots capsule module vmalloc s → fixups.length ≤ fuel →
        capsuleAccepted (bootDefinitions capsule module fixups) s = true ∧
          ∃ s', bootstrap (bootDefinitions capsule module fixups) imageBase vmalloc fuel s
              = some (.fixupsDone fixups.length s') ∧
            Applied imageBase module fixups vmalloc s' ∧
            (SymbolTablesApart module → ∀ f ∈ fixups, f.Filled imageBase vmalloc.result s'.mem) := by
  have hpacked := (packFixups_ok hpack).1
  subst hpacked
  have hlayout := buildCapsule_layout hbuild
  have hmodule : module.length ≤ ISIZE_MAX := by
    have hmoduleEnd := hlayout.moduleEnd
    have hfixupEnd := hlayout.fixupEnd
    have hsize := hlayout.size
    omega
  obtain ⟨found, rfl, hlisted⟩ := collectModuleFixups_listed hmodule hcollect
  have hin := hlisted.inModule
  refine ⟨hlayout.whole hin, fun extension hreserve => buildCapsule_end hbuild hreserve,
    fun f hf => (hin f hf).symbol, ?_⟩
  intro imageBase vmalloc fuel s hboots hfuel
  obtain ⟨s', hdone, hs'⟩ := bootstrap_done hboots hlayout hin imageBase hfuel
  have happlied := hs'.applied hin
  refine ⟨hboots.accepted hlayout, s', hdone, happlied, ?_⟩
  intro htables f hf
  exact happlied.all_filled (hlisted.apart htables) hf

theorem capsule_applied_plain :
    plainCapsule.Whole plainModule plainFixups ∧
      plainCapsule.fileOffset + plainCapsule.data.length = 3728 + 368 ∧
      ∃ s', bootstrap (bootDefinitions plainCapsule plainModule plainFixups) exampleBase (exampleVmalloc plainCapsule) 1
          (exampleState plainCapsule) = some (.fixupsDone 1 s') ∧
        s'.mem.word (0xffffffc010000000 + 230) 2 = SHN_ABS ∧
        s'.mem.word (0xffffffc010000000 + 232) 8 = 0xffffffc008000040 := by
  obtain ⟨hwhole, hend, -, hboot⟩ := capsule_applied
    (fun _ => digest 0x847fed13e65fa60dba5a23ec5c1eba5371df7b71dcb3fdb92549431f33b27d6d) exampleResolve exampleBase 3728
    plainModule (plainFixups.flatMap fixupEntry) plainFixups [] plainCapsule (by decide +kernel) (by decide +kernel)
    (by decide +kernel)
  have hsmall : plainCapsule.data.length ≤ 2 ^ 20 := by decide +kernel
  obtain ⟨-, s', hdone, -, hfilled⟩ := hboot exampleBase (exampleVmalloc plainCapsule) 1 (exampleState plainCapsule)
    (exampleBoots hsmall (by decide +kernel)) (by decide)
  have htables : symbolTables plainModule = [⟨2, 200, 48, 0, 24⟩] := by decide +kernel
  have hone : SymbolTablesApart plainModule := by
    rw [SymbolTablesApart, htables]
    intro s hs t ht hne
    exact absurd ((List.mem_singleton.mp hs).trans (List.mem_singleton.mp ht).symm) hne
  have hsymbol := hfilled hone ⟨224, 64⟩ List.mem_cons_self
  exact ⟨hwhole, hend 368 (by decide +kernel), s', hdone, hsymbol⟩

/-- Where symbol tables overlap, a listed symbol may lose its value to a later one. -/
theorem capsule_overlap :
    collectModuleFixups exampleResolve exampleBase 3648 overlapModule = .ok (overlapFixups, []) ∧
      packFixups overlapFixups = .ok (overlapFixups.flatMap fixupEntry) ∧
      buildCapsule (fun _ => digest 0x9f6375a6ead95df7515afbfbe7275381d8c51066d5158766e54f9e42e751dde) 3648
        overlapModule (overlapFixups.flatMap fixupEntry) overlapFixups.length = .ok overlapCapsule ∧
      Boots overlapCapsule overlapModule (exampleVmalloc overlapCapsule) (exampleState overlapCapsule) ∧
      ∃ s', bootstrap (bootDefinitions overlapCapsule overlapModule overlapFixups) exampleBase
          (exampleVmalloc overlapCapsule) 2 (exampleState overlapCapsule) = some (.fixupsDone 2 s') ∧
        ⟨288, 64⟩ ∈ overlapFixups ∧ s'.mem.word (0xffffffc010000000 + 296) 8 ≠ 0xffffffc008000040 := by
  have hbuild : buildCapsule (fun _ => digest 0x9f6375a6ead95df7515afbfbe7275381d8c51066d5158766e54f9e42e751dde)
      3648 overlapModule (overlapFixups.flatMap fixupEntry) overlapFixups.length = .ok overlapCapsule := by
    decide +kernel
  have hin : ∀ f ∈ overlapFixups, f.InModule overlapModule.length := by
    intro f hf
    rcases List.mem_cons.mp hf with rfl | hf
    · exact ⟨by decide +kernel, by decide, by decide⟩
    · obtain rfl := List.mem_singleton.mp hf
      exact ⟨by decide +kernel, by decide, by decide⟩
  have hsmall : overlapCapsule.data.length ≤ 2 ^ 20 := by decide +kernel
  have hmodule : overlapModule.length ≤ 2 ^ 20 := by decide +kernel
  have hboots := exampleBoots hsmall hmodule
  obtain ⟨s', hdone, hs'⟩ := bootstrap_done hboots (buildCapsule_layout hbuild) hin exampleBase (Nat.le_refl _)
  have hcopied := hs'.copied
  have hword := s'.mem.word_of_bytesAt hcopied (o := 296) (k := 8) (by decide +kernel)
  refine ⟨by decide +kernel, by decide +kernel, hbuild, hboots, s', hdone, List.mem_cons_self, ?_⟩
  intro heq
  rw [show (exampleVmalloc overlapCapsule).result = 0xffffffc010000000 from rfl, heq] at hword
  exact absurd hword (by decide +kernel)

end KernelSU.LkmImage
