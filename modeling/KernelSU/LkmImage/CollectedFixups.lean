import KernelSU.LkmImage.FixupLoop

/-!
# What `collect_module_fixups` lists

* `collectModuleFixups_listed` — **PROVED**: every listed symbol is an entry of a symbol table inside the module,
  and no entry is listed twice;
* `Found.Listed.apart` — **PROVED**: when no two different symbol tables overlap, the fields of no two
  listed symbols meet.
-/

namespace KernelSU.LkmImage

open KernelSU.Lib KernelSU.Lib.Bytes KernelSU.Ksud

/-- An offset at which a symbol table has an entry. -/
def ElfSection.HasEntry (table : ElfSection) (offset : ℕ) : Prop :=
  24 ≤ table.entrySize ∧ ∃ index < table.size / table.entrySize, offset = table.offset + index * table.entrySize

/-- Two tables that do not overlap. -/
def ElfSection.Apart (s t : ElfSection) : Prop := s.offset + s.size ≤ t.offset ∨ t.offset + t.size ≤ s.offset

instance (s t : ElfSection) : Decidable (s.Apart t) := inferInstanceAs (Decidable (_ ∨ _))

/-- The symbol tables of a module. -/
def symbolTables (module : List UInt8) : List ElfSection :=
  let sections := do
    let sectionOffset ← readU64 module 40
    let sectionEntrySize ← readU16 module 58
    let sectionCount ← readU16 module 60
    readSections module sectionOffset sectionEntrySize sectionCount
  (sections.toOption.getD []).filter fun s => s.sectionType = SHT_SYMTAB

/-- What holds of the fixups found so far. -/
structure Found.Listed (tables : List ElfSection) (size : ℕ) (found : Found) : Prop where
  seen : ∀ f ∈ found.fixups, f.symbolFileOffset ∈ found.seenOffsets
  distinct : found.fixups.Pairwise fun f g => f.symbolFileOffset ≠ g.symbolFileOffset
  entries : ∀ f ∈ found.fixups, ∃ table ∈ tables, table.HasEntry f.symbolFileOffset
  inModule : ∀ f ∈ found.fixups, f.InModule size

namespace Found

variable {tables : List ElfSection} {size : ℕ} {found : Found}

theorem listed_empty (tables : List ElfSection) (size : ℕ) : Listed tables size ⟨[], [], []⟩ :=
  ⟨List.forall_mem_nil _, List.Pairwise.nil, List.forall_mem_nil _, List.forall_mem_nil _⟩

theorem Listed.addUnresolved (h : found.Listed tables size) (name : Str) :
    (found.addUnresolved name).Listed tables size := by
  rw [Found.addUnresolved]
  split
  · exact h
  · exact ⟨h.seen, h.distinct, h.entries, h.inModule⟩

theorem Listed.addFixup (h : found.Listed tables size) {f : Fixup}
    (hentry : ∃ table ∈ tables, table.HasEntry f.symbolFileOffset) (hin : f.InModule size) :
    (found.addFixup f).Listed tables size := by
  rw [Found.addFixup]
  split
  · exact h
  · next hnew =>
    constructor
    case seen =>
      intro g hg
      rcases List.mem_append.mp hg with hg | hg
      · exact List.mem_cons_of_mem _ (h.seen g hg)
      · obtain rfl := List.mem_singleton.mp hg
        exact List.mem_cons_self
    case distinct =>
      refine List.pairwise_append.mpr ⟨h.distinct, List.pairwise_singleton _ _, ?_⟩
      intro g hg g' hg' heq
      obtain rfl := List.mem_singleton.mp hg'
      exact hnew (heq ▸ h.seen g hg)
    case entries => exact List.forall_mem_append.mpr ⟨h.entries, List.forall_mem_singleton.mpr hentry⟩
    case inModule => exact List.forall_mem_append.mpr ⟨h.inModule, List.forall_mem_singleton.mpr hin⟩

end Found

/-! ### The walk -/

section Walk

variable {resolve : Str → Option UInt64} {imageBase imageSize : ℕ} {module : List UInt8}
  {tables : List ElfSection} {found found' : Found}

theorem resolveSymbol_listed {symbolFileOffset : ℕ} {name : Str} (hf : found.Listed tables module.length)
    (hentry : ∃ table ∈ tables, table.HasEntry symbolFileOffset)
    (hinside : symbolFileOffset + 24 ≤ module.length)
    (h : resolveSymbol resolve imageBase imageSize found symbolFileOffset name = .ok found') :
    found'.Listed tables module.length := by
  rw [resolveSymbol] at h
  split at h
  · cases h
    exact hf.addUnresolved name
  · next address _ =>
    split_ifs at h with hbelow habove hwide
    · cases h
      exact hf.addUnresolved name
    · cases h
      exact hf.addUnresolved name
    · cases h
      have haddress := address.toNat_lt
      exact hf.addFixup hentry ⟨hinside, Nat.not_le.mp hwide, lt_of_le_of_lt (Nat.sub_le _ _) haddress⟩

theorem collectSymbol_listed {table : ElfSection} {strings : List UInt8} {index : ℕ}
    (hmodule : module.length ≤ ISIZE_MAX) (htable : table ∈ tables) (hwide : 24 ≤ table.entrySize)
    (hindex : index < table.size / table.entrySize) (hf : found.Listed tables module.length)
    (h : collectSymbol resolve imageBase imageSize module table strings found index = .ok found') :
    found'.Listed tables module.length := by
  simp only [collectSymbol] at h
  split_ifs at h with hoverflow houtside
  rw [ISIZE_MAX] at hmodule
  obtain ⟨shndx, -, h⟩ := except_bind_ok.mp h
  split_ifs at h
  · cases h
    exact hf
  · obtain ⟨nameOffset, -, h⟩ := except_bind_ok.mp h
    split at h
    · cases h
      exact hf
    · split_ifs at h
      · cases h
        exact hf
      · exact resolveSymbol_listed hf ⟨table, htable, hwide, index, hindex, rfl⟩ (by omega) h

theorem collectSection_listed {sections : List ElfSection} {table : ElfSection}
    (hmodule : module.length ≤ ISIZE_MAX) (htable : table ∈ tables) (hf : found.Listed tables module.length)
    (h : collectSection resolve imageBase imageSize module sections found table = .ok found') :
    found'.Listed tables module.length := by
  rw [collectSection] at h
  split_ifs at h with hformat
  have hwide := hformat.1
  split at h
  · cases h
  · split_ifs at h
    refine foldlM_invariant (Found.Listed tables module.length) ?_ hf h
    intro f index hindex f' hf hstep
    obtain ⟨hfirst, hlast⟩ := List.mem_range'_1.mp hindex
    exact collectSymbol_listed hmodule htable hwide (by omega) hf hstep

/-- **What is listed.** -/
theorem collectModuleFixups_listed {fixups : List Fixup} {unresolved : List Str}
    (hmodule : module.length ≤ ISIZE_MAX)
    (h : collectModuleFixups resolve imageBase imageSize module = .ok (fixups, unresolved)) :
    ∃ found : Found, found.fixups = fixups ∧ found.Listed (symbolTables module) module.length := by
  rw [collectModuleFixups] at h
  split_ifs at h
  obtain ⟨elfType, -, h⟩ := except_bind_ok.mp h
  obtain ⟨machine, -, h⟩ := except_bind_ok.mp h
  split_ifs at h
  obtain ⟨sectionOffset, hoffset, h⟩ := except_bind_ok.mp h
  obtain ⟨sectionEntrySize, hentrySize, h⟩ := except_bind_ok.mp h
  obtain ⟨sectionCount, hcount, h⟩ := except_bind_ok.mp h
  obtain ⟨sections, hsections, h⟩ := except_bind_ok.mp h
  obtain ⟨found, hfound, h⟩ := except_bind_ok.mp h
  have htables : symbolTables module = sections.filter fun s => s.sectionType = SHT_SYMTAB := by
    simp only [symbolTables, hoffset, hentrySize, hcount, hsections, bind, Except.bind, Except.toOption,
      Option.getD_some]
  rw [Found.finish] at h
  split_ifs at h
  cases h
  refine ⟨found, rfl, ?_⟩
  rw [htables]
  have hstart := Found.listed_empty (sections.filter fun s => s.sectionType = SHT_SYMTAB) module.length
  refine foldlM_invariant (Found.Listed _ module.length) ?_ hstart hfound
  intro f table htable f' hf hstep
  exact collectSection_listed hmodule htable hf hstep

end Walk

/-! ### Symbols apart -/

/-- Two entries of one table. -/
theorem ElfSection.HasEntry.apart_same {table : ElfSection} {f g : Fixup} (hf : table.HasEntry f.symbolFileOffset)
    (hg : table.HasEntry g.symbolFileOffset) (hne : f.symbolFileOffset ≠ g.symbolFileOffset) : f.Apart g := by
  obtain ⟨hwide, i, -, hi⟩ := hf
  obtain ⟨-, j, -, hj⟩ := hg
  have hstep : ∀ {m n : ℕ}, m < n → m * table.entrySize + table.entrySize ≤ n * table.entrySize := by
    intro m n hlt
    have hmul := Nat.mul_le_mul_right table.entrySize hlt
    rw [Nat.succ_mul] at hmul
    exact hmul
  rw [Fixup.Apart]
  rcases Nat.lt_trichotomy i j with hlt | heq | hgt
  · have hij := hstep hlt
    omega
  · exact absurd (by rw [hi, hj, heq]) hne
  · have hji := hstep hgt
    omega

/-- An entry lies in its table. -/
theorem ElfSection.HasEntry.inside {table : ElfSection} {offset : ℕ} (h : table.HasEntry offset) :
    table.offset ≤ offset ∧ offset + 24 ≤ table.offset + table.size := by
  obtain ⟨hwide, i, hi, rfl⟩ := h
  have hmul := Nat.mul_le_mul_right table.entrySize hi
  have hsize := Nat.div_mul_le_self table.size table.entrySize
  rw [Nat.succ_mul] at hmul
  omega

/-- **Symbols apart**, when no two different symbol tables overlap. -/
theorem Found.Listed.apart {tables : List ElfSection} {size : ℕ} {found : Found} (h : found.Listed tables size)
    (htables : ∀ s ∈ tables, ∀ t ∈ tables, s ≠ t → s.Apart t) : found.fixups.Pairwise Fixup.Apart := by
  refine h.distinct.imp_of_mem ?_
  intro f g hf hg hne
  obtain ⟨s, hs, hfs⟩ := h.entries f hf
  obtain ⟨t, ht, hgt⟩ := h.entries g hg
  by_cases hst : s = t
  · subst hst
    exact hfs.apart_same hgt hne
  · have hapart := htables s hs t ht hst
    have hfin := hfs.inside
    have hgin := hgt.inside
    rw [ElfSection.Apart] at hapart
    rw [Fixup.Apart]
    omega

end KernelSU.LkmImage
