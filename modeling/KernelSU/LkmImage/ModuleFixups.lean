import KernelSU.Lib.Panicking
import KernelSU.LkmImage.CollectedFixups
import KernelSU.LkmImage.SymbolMap

/-!
# The fixups of a module are complete

`collect_module_fixups` takes its offsets, sizes and indices from the module.  In `Checked` it stands once more
with the additions, products, divisions, indices and slices that the source does not guard, each of which panics
when it goes wrong.

* `Checked.collectModuleFixups_eq` — **PROVED**: none of them goes wrong, for any module;
* `Undefined` — the undefined symbols with a name, of all symbol tables;
* `Found.Accounts` — what the walk has found is what the symbols seen so far call for;
* `collectModuleFixups_complete` — **PROVED**: every undefined symbol is listed or its name is unresolved, and what
  is listed is in bounds.
-/

namespace KernelSU.LkmImage

open KernelSU.Lib KernelSU.Lib.Bytes KernelSU.Ksud

/-! ### What is not guarded -/

namespace Checked

/-- One entry of the section table. -/
def readSection (module : List UInt8) (offset : ℕ) : Panicking String ElfSection := do
  let dataOffset ← reported (readU64 module (← usizeAdd offset 24))
  let size ← reported (readU64 module (← usizeAdd offset 32))
  let sectionType ← reported (readU32 module (← usizeAdd offset 4))
  let link ← reported (readU32 module (← usizeAdd offset 40))
  let entrySize ← reported (readU64 module (← usizeAdd offset 56))
  return ⟨sectionType, dataOffset, size, link, entrySize⟩

/-- The section table. -/
def readSections (module : List UInt8) (sectionOffset sectionEntrySize sectionCount : ℕ) :
    Panicking String (List ElfSection) :=
  if ¬(0 < sectionCount ∧ 64 ≤ sectionEntrySize) then
    reported (.error "extended or malformed ELF section tables are unsupported")
  else if 2 ^ 64 ≤ sectionEntrySize * sectionCount then reported (.error "ELF section table size overflow")
  else if 2 ^ 64 ≤ sectionOffset + sectionEntrySize * sectionCount then
    reported (.error "ELF section table offset overflow")
  else if ¬(sectionOffset ≤ module.length ∧
      sectionOffset + sectionEntrySize * sectionCount ≤ module.length) then
    reported (.error "ELF section table is outside the module")
  else (List.range sectionCount).mapM fun index => do
    readSection module (← usizeAdd sectionOffset (← usizeMul index sectionEntrySize))

/-- `read_c_string`. -/
def readCString (data : List UInt8) (offset : ℕ) : Panicking String (Option Str) :=
  if data.length < offset then return none
  else
    match (data.drop offset).findIdx? (· == 0) with
    | none => return none
    | some stop => return some (fromUtf8Lossy (← subslice (data.drop offset) 0 stop))

section Collect

variable (resolve : Str → Option UInt64) (imageBase imageSize : ℕ) (module : List UInt8)

/-- The symbol with this index. -/
def collectSymbol (elfSection : ElfSection) (strings : List UInt8) (found : Found) (index : ℕ) :
    Panicking String Found := do
  let symbolFileOffset := elfSection.offset + (← usizeMul index elfSection.entrySize)
  if 2 ^ 64 ≤ symbolFileOffset then reported (.error "ELF symbol offset overflow")
  else if module.length < min (symbolFileOffset + 24) (2 ^ 64 - 1) then
    reported (.error "ELF symbol is outside the module")
  else do
    let shndx ← reported (readU16 module (← usizeAdd symbolFileOffset 6))
    if shndx ≠ SHN_UNDEF then return found
    else
      let nameOffset ← reported (readU32 module symbolFileOffset)
      match ← readCString strings nameOffset with
      | none => return found
      | some name =>
        if name = [] then return found
        else reported (resolveSymbol resolve imageBase imageSize found symbolFileOffset name)

/-- One symbol table. -/
def collectSection (sections : List ElfSection) (found : Found) (elfSection : ElfSection) :
    Panicking String Found := do
  let wellFormed ←
    if 24 ≤ elfSection.entrySize then do
      let rest ← usizeRem elfSection.size elfSection.entrySize
      pure (decide (rest = 0))
    else pure false
  if wellFormed = false then reported (.error "malformed ELF symbol table")
  else
    match sections[elfSection.link]? with
    | none => reported (.error "ELF symbol table has an invalid string table")
    | some stringsSection =>
      if 2 ^ 64 ≤ stringsSection.offset + stringsSection.size then
        reported (.error "ELF string table size overflow")
      else if module.length < stringsSection.offset + stringsSection.size then
        reported (.error "ELF string table is outside the module")
      else do
        let strings ← subslice module stringsSection.offset (stringsSection.offset + stringsSection.size)
        let count ← usizeDiv elfSection.size elfSection.entrySize
        (List.range' 1 (count - 1)).foldlM
          (collectSymbol resolve imageBase imageSize module elfSection strings) found

/-- The walk over the symbol tables. -/
def collectSections (sections : List ElfSection) : Panicking String Found :=
  (sections.filter fun s => s.sectionType = SHT_SYMTAB).foldlM
    (collectSection resolve imageBase imageSize module sections) ⟨[], [], []⟩

/-- `collect_module_fixups`. -/
def collectModuleFixups : Panicking String (List Fixup × List Str) :=
  if ¬(64 ≤ module.length ∧ elfMagic <+: module) then reported (.error "module is not an ELF file")
  else do
    let wordClass ← indexAt module 4
    let order ← indexAt module 5
    if ¬(wordClass = 2 ∧ order = 1) then reported (.error "module must be little-endian ELF64")
    else do
      let elfType ← reported (readU16 module 16)
      let machine ← reported (readU16 module 18)
      if ¬(elfType = ET_REL ∧ machine = EM_AARCH64) then
        reported (.error "module must be an ARM64 ET_REL object")
      else do
        let sectionOffset ← reported (readU64 module 40)
        let sectionEntrySize ← reported (readU16 module 58)
        let sectionCount ← reported (readU16 module 60)
        let sections ← readSections module sectionOffset sectionEntrySize sectionCount
        let found ← collectSections resolve imageBase imageSize module sections
        reported found.finish

end Collect

/-! ### None of it goes wrong -/

section Total

variable {module : List UInt8} (hmodule : module.length ≤ ISIZE_MAX)
include hmodule

theorem readSection_eq {offset : ℕ} (h : offset + 64 ≤ module.length) :
    readSection module offset = reported (LkmImage.readSection module offset) := by
  rw [ISIZE_MAX] at hmodule
  have hadd : ∀ k ≤ 64, (usizeAdd offset k : Panicking String ℕ) = .ok (offset + k) := fun k hk =>
    usizeAdd_of_lt (by omega)
  simp only [readSection, LkmImage.readSection, reported_bind, hadd 24 (by decide), hadd 32 (by decide),
    hadd 4 (by decide), hadd 40 (by decide), hadd 56 (by decide), ok_bind]
  rfl

theorem readSections_eq (sectionOffset sectionEntrySize sectionCount : ℕ) :
    readSections module sectionOffset sectionEntrySize sectionCount =
      reported (LkmImage.readSections module sectionOffset sectionEntrySize sectionCount) := by
  simp only [readSections, LkmImage.readSections, reported_ite]
  split_ifs with hcount hsize hend hinside
  · rfl
  · rfl
  · refine mapM_reported fun index hindex => ?_
    have hwide := hcount.2
    have hentry : index * sectionEntrySize + 64 ≤ sectionEntrySize * sectionCount := by
      have hle := Nat.mul_le_mul_right sectionEntrySize (List.mem_range.mp hindex)
      rw [Nat.succ_mul, Nat.mul_comm sectionCount] at hle
      omega
    rw [usizeMul_of_lt (by omega), ok_bind, usizeAdd_of_lt (by omega), ok_bind]
    exact readSection_eq hmodule (by omega)
  · rfl
  · rfl

omit hmodule in
theorem readCString_eq (data : List UInt8) (offset : ℕ) :
    readCString data offset = reported (.ok (LkmImage.readCString data offset)) := by
  rw [readCString, LkmImage.readCString]
  split_ifs with hlen hmem
  · rfl
  · cases hfind : (data.drop offset).findIdx? (· == 0) with
    | none =>
      have hno := List.findIdx?_eq_none_iff.mp hfind 0 hmem
      exact absurd hno (by decide)
    | some stop =>
      obtain ⟨hlt, -, -⟩ := List.findIdx?_eq_some_iff_getElem.mp hfind
      have htake : slice (data.drop offset) 0 stop = cString (data.drop offset) := by
        have hidx : (data.drop offset).findIdx (fun b => !(b != 0)) = stop := by
          have hsame : (fun b : UInt8 => !(b != 0)) = fun b => b == 0 := by
            funext b
            exact Bool.not_not _
          rw [hsame]
          exact (List.findIdx?_eq_some_iff_findIdx_eq.mp hfind).2
        rw [cString, List.takeWhile_eq_take_findIdx_not, hidx, slice, List.drop_zero]
      dsimp only
      rw [subslice_of_le (Nat.zero_le _) hlt.le, Nat.sub_zero, htake]
      rfl
  · have hnone : (data.drop offset).findIdx? (· == 0) = none := by
      refine List.findIdx?_eq_none_iff.mpr fun b hb => ?_
      rw [beq_eq_false_iff_ne]
      rintro rfl
      exact hmem hb
    rw [hnone]
    rfl

variable {resolve : Str → Option UInt64} {imageBase imageSize : ℕ}

theorem collectSymbol_eq {table : ElfSection} (hsize : table.size < 2 ^ 64) (strings : List UInt8) (found : Found)
    {index : ℕ} (hindex : index < table.size / table.entrySize) :
    collectSymbol resolve imageBase imageSize module table strings found index =
      reported (LkmImage.collectSymbol resolve imageBase imageSize module table strings found index) := by
  rw [ISIZE_MAX] at hmodule
  have hmul : index * table.entrySize < 2 ^ 64 := by
    have hle := Nat.mul_le_mul_right table.entrySize hindex.le
    have hdiv := Nat.div_mul_le_self table.size table.entrySize
    omega
  simp only [collectSymbol, LkmImage.collectSymbol, usizeMul_of_lt hmul, ok_bind, reported_ite]
  refine ite_congr rfl (fun _ => rfl) fun _ => ite_congr rfl (fun _ => rfl) fun hinside => ?_
  rw [usizeAdd_of_lt (by omega), ok_bind]
  refine reported_bind_congr fun shndx _ => ?_
  rw [reported_ite]
  refine ite_congr rfl (fun _ => rfl) fun _ => ?_
  refine reported_bind_congr fun nameOffset _ => ?_
  rw [readCString_eq, reported_ok, ok_bind]
  cases LkmImage.readCString strings nameOffset with
  | none => rfl
  | some name =>
    dsimp only
    rw [reported_ite]
    rfl

theorem collectSection_eq {sections : List ElfSection} {table : ElfSection} (hsize : table.size < 2 ^ 64)
    (found : Found) :
    collectSection resolve imageBase imageSize module sections found table =
      reported (LkmImage.collectSection resolve imageBase imageSize module sections found table) := by
  rw [collectSection, LkmImage.collectSection]
  by_cases hwide : 24 ≤ table.entrySize
  · rw [if_pos hwide, usizeRem_of_pos (by omega), ok_bind, pure_bind]
    by_cases hrest : table.size % table.entrySize = 0
    · rw [decide_eq_true hrest]
      dsimp only
      rw [if_neg (by decide), if_neg (not_not.mpr ⟨hwide, hrest⟩)]
      cases sections[table.link]? with
      | none => rfl
      | some stringsSection =>
        dsimp only
        simp only [reported_ite]
        refine ite_congr rfl (fun _ => rfl) fun _ => ite_congr rfl (fun _ => rfl) fun hinside => ?_
        rw [subslice_of_le (by omega) (by omega), ok_bind, usizeDiv_of_pos (by omega), ok_bind,
          Nat.add_sub_cancel_left]
        refine foldlM_reported (fun s index hindex => ?_) found
        obtain ⟨hfirst, hlast⟩ := List.mem_range'_1.mp hindex
        exact collectSymbol_eq hmodule hsize _ s (by omega)
    · rw [decide_eq_false hrest]
      dsimp only
      rw [if_pos rfl, if_pos fun h => hrest h.2]
  · rw [if_neg hwide, pure_bind]
    dsimp only
    rw [if_pos rfl, if_pos fun h => hwide h.1]

omit hmodule in
/-- What is read is a machine word. -/
theorem readU64_lt {data : List UInt8} {offset v : ℕ} (h : readU64 data offset = .ok v) : v < 2 ^ 64 := by
  rw [readU64, readWord, getSlice] at h
  split_ifs at h with hin
  · obtain rfl := Except.ok.inj h
    have hlt := decodeLE_lt (slice data offset 8)
    rw [slice_length_of_le hin] at hlt
    omega
  · cases h

omit hmodule in
theorem readSections_size {sectionOffset sectionEntrySize sectionCount : ℕ} {sections : List ElfSection}
    (h : LkmImage.readSections module sectionOffset sectionEntrySize sectionCount = .ok sections) :
    ∀ s ∈ sections, s.size < 2 ^ 64 := by
  rw [LkmImage.readSections] at h
  split_ifs at h
  intro s hs
  obtain ⟨index, -, hsection⟩ := exists_of_mem_mapM h s hs
  obtain ⟨dataOffset, -, hsection⟩ := except_bind_ok.mp hsection
  obtain ⟨size, hsize, hsection⟩ := except_bind_ok.mp hsection
  obtain ⟨sectionType, -, hsection⟩ := except_bind_ok.mp hsection
  obtain ⟨link, -, hsection⟩ := except_bind_ok.mp hsection
  obtain ⟨entrySize, -, hsection⟩ := except_bind_ok.mp hsection
  obtain rfl := Except.ok.inj hsection
  exact readU64_lt hsize

theorem collectModuleFixups_eq (resolve : Str → Option UInt64) (imageBase imageSize : ℕ) :
    collectModuleFixups resolve imageBase imageSize module =
      reported (LkmImage.collectModuleFixups resolve imageBase imageSize module) := by
  rw [collectModuleFixups, LkmImage.collectModuleFixups]
  simp only [reported_ite]
  refine ite_congr rfl (fun _ => rfl) fun helf => ?_
  obtain ⟨hlen, -⟩ := not_not.mp helf
  have hbyte : ∀ {i : ℕ} (hi : i < module.length) (b : UInt8), module[i] = b ↔ module[i]? = some b := by
    intro i hi b
    rw [List.getElem?_eq_getElem hi, Option.some.injEq]
  rw [indexAt_of_lt (by omega), ok_bind, indexAt_of_lt (by omega), ok_bind]
  simp only [hbyte]
  refine ite_congr rfl (fun _ => rfl) fun _ => ?_
  refine reported_bind_congr fun elfType _ => reported_bind_congr fun machine _ => ?_
  rw [reported_ite]
  refine ite_congr rfl (fun _ => rfl) fun _ => ?_
  refine reported_bind_congr fun sectionOffset _ => reported_bind_congr fun sectionEntrySize _ => ?_
  refine reported_bind_congr fun sectionCount _ => ?_
  rw [readSections_eq hmodule]
  refine reported_bind_congr fun sections hsections => ?_
  have hsize := readSections_size hsections
  rw [collectSections, foldlM_reported fun found table htable =>
    collectSection_eq hmodule (hsize table (List.mem_of_mem_filter htable)) found]
  exact reported_bind_congr fun found _ => rfl

end Total

end Checked

/-! ### The symbols of a module -/

/-- The section table of a module. -/
def moduleSections (module : List UInt8) : Except String (List ElfSection) := do
  let sectionOffset ← readU64 module 40
  let sectionEntrySize ← readU16 module 58
  let sectionCount ← readU16 module 60
  readSections module sectionOffset sectionEntrySize sectionCount

/-- An undefined symbol with a name, at an index from 1 on of a symbol table. -/
structure ElfSection.Undefined (module : List UInt8) (sections : List ElfSection) (table : ElfSection) (index : ℕ)
    (offset : ℕ) (name : Str) : Prop where
  entry : offset = table.offset + index * table.entrySize
  undefined : decodeLE (slice module (offset + 6) 2) = SHN_UNDEF
  named : ∃ strings, sections[table.link]? = some strings ∧
    readCString (slice module strings.offset strings.size) (decodeLE (slice module offset 4)) = some name
  nonempty : name ≠ []

/-- The undefined symbols with a name, of all symbol tables. -/
def Undefined (module : List UInt8) (offset : ℕ) (name : Str) : Prop :=
  ∃ sections, moduleSections module = .ok sections ∧ ∃ table ∈ sections, table.sectionType = SHT_SYMTAB ∧
    ∃ index, 1 ≤ index ∧ index < table.size / table.entrySize ∧
      table.Undefined module sections index offset name

/-- The kernel has the name at this offset in the image. -/
def ResolvesTo (resolve : Str → Option UInt64) (imageBase imageSize : ℕ) (name : Str) (kernelOffset : ℕ) : Prop :=
  ∃ address, resolve name = some address ∧ imageBase ≤ address.toNat ∧
    kernelOffset = address.toNat - imageBase ∧ kernelOffset < imageSize

/-! ### What the walk has found -/

/-- The fixups and the unresolved names are those that these symbols call for. -/
structure Found.Accounts (resolve : Str → Option UInt64) (imageBase imageSize : ℕ) (P : ℕ → Str → Prop)
    (found : Found) : Prop where
  listed : ∀ {o n k}, P o n → ResolvesTo resolve imageBase imageSize n k →
    ∃ f ∈ found.fixups, f.symbolFileOffset = o
  unresolved : ∀ {o n}, P o n → (∀ k, ¬ResolvesTo resolve imageBase imageSize n k) → n ∈ found.unresolved
  fixed : ∀ f ∈ found.fixups, ∃ n, P f.symbolFileOffset n ∧ ResolvesTo resolve imageBase imageSize n f.kernelOffset
  missed : ∀ n ∈ found.unresolved, ∀ k, ¬ResolvesTo resolve imageBase imageSize n k
  seen : ∀ o ∈ found.seenOffsets, ∃ f ∈ found.fixups, f.symbolFileOffset = o

namespace Found

variable {resolve : Str → Option UInt64} {imageBase imageSize : ℕ} {P Q : ℕ → Str → Prop} {found : Found}

theorem accounts_empty (hP : ∀ o n, ¬P o n) : Accounts resolve imageBase imageSize P ⟨[], [], []⟩ where
  listed h := absurd h (hP _ _)
  unresolved h := absurd h (hP _ _)
  fixed := List.forall_mem_nil _
  missed := List.forall_mem_nil _
  seen := List.forall_mem_nil _

/-- The symbols, said in another way. -/
theorem Accounts.congr (h : found.Accounts resolve imageBase imageSize P) (hPQ : ∀ o n, P o n ↔ Q o n) :
    found.Accounts resolve imageBase imageSize Q := by
  have heq : P = Q := by
    funext o n
    exact propext (hPQ o n)
  exact heq ▸ h

theorem Accounts.addUnresolved (h : found.Accounts resolve imageBase imageSize P) (o : ℕ) {n : Str}
    (hn : ∀ k, ¬ResolvesTo resolve imageBase imageSize n k) :
    (found.addUnresolved n).Accounts resolve imageBase imageSize fun o' n' => P o' n' ∨ o' = o ∧ n' = n := by
  have hfixups : (found.addUnresolved n).fixups = found.fixups := by
    rw [Found.addUnresolved]
    split <;> rfl
  have hseen : (found.addUnresolved n).seenOffsets = found.seenOffsets := by
    rw [Found.addUnresolved]
    split <;> rfl
  have hmem : ∀ n', n' ∈ (found.addUnresolved n).unresolved ↔ n' ∈ found.unresolved ∨ n' = n := by
    intro n'
    rw [Found.addUnresolved]
    split
    · next hold => exact ⟨.inl, fun h => h.elim id fun heq => heq ▸ hold⟩
    · rw [List.mem_cons, or_comm]
  constructor
  case listed =>
    intro o' n' k hP hk
    rw [hfixups]
    rcases hP with hP | ⟨-, rfl⟩
    · exact h.listed hP hk
    · exact absurd hk (hn k)
  case unresolved =>
    intro o' n' hP hk
    rw [hmem]
    rcases hP with hP | ⟨-, rfl⟩
    · exact .inl (h.unresolved hP hk)
    · exact .inr rfl
  case fixed =>
    intro f hf
    rw [hfixups] at hf
    obtain ⟨n', hP, hk⟩ := h.fixed f hf
    exact ⟨n', .inl hP, hk⟩
  case missed =>
    intro n' hn'
    rcases (hmem n').mp hn' with hold | rfl
    · exact h.missed n' hold
    · exact hn
  case seen =>
    rw [hseen, hfixups]
    exact h.seen

theorem Accounts.addFixup (h : found.Accounts resolve imageBase imageSize P) {f : Fixup} {n : Str}
    (hn : ResolvesTo resolve imageBase imageSize n f.kernelOffset) :
    (found.addFixup f).Accounts resolve imageBase imageSize
      fun o' n' => P o' n' ∨ o' = f.symbolFileOffset ∧ n' = n := by
  have hunresolved : (found.addFixup f).unresolved = found.unresolved := by
    rw [Found.addFixup]
    split <;> rfl
  have hmono : ∀ g ∈ found.fixups, g ∈ (found.addFixup f).fixups := by
    intro g hg
    rw [Found.addFixup]
    split
    · exact hg
    · exact List.mem_append_left _ hg
  have hmem : ∀ g ∈ (found.addFixup f).fixups, g ∈ found.fixups ∨ g = f := by
    intro g hg
    rw [Found.addFixup] at hg
    split at hg
    · exact .inl hg
    · exact (List.mem_append.mp hg).imp_right List.mem_singleton.mp
  have hthere : ∃ g ∈ (found.addFixup f).fixups, g.symbolFileOffset = f.symbolFileOffset := by
    rw [Found.addFixup]
    split
    · next hseen => exact h.seen _ hseen
    · exact ⟨f, List.mem_append_right _ (List.mem_singleton.mpr rfl), rfl⟩
  have hkeep : ∀ {o}, (∃ g ∈ found.fixups, g.symbolFileOffset = o) →
      ∃ g ∈ (found.addFixup f).fixups, g.symbolFileOffset = o := by
    intro o hold
    obtain ⟨g, hg, ho⟩ := hold
    exact ⟨g, hmono g hg, ho⟩
  constructor
  case listed =>
    intro o' n' k hP hk
    rcases hP with hP | ⟨rfl, -⟩
    · exact hkeep (h.listed hP hk)
    · exact hthere
  case unresolved =>
    intro o' n' hP hk
    rw [hunresolved]
    rcases hP with hP | ⟨-, rfl⟩
    · exact h.unresolved hP hk
    · exact absurd hn (hk _)
  case fixed =>
    intro g hg
    rcases hmem g hg with hold | rfl
    · obtain ⟨n', hP, hk⟩ := h.fixed g hold
      exact ⟨n', .inl hP, hk⟩
    · exact ⟨n, .inr ⟨rfl, rfl⟩, hn⟩
  case missed =>
    rw [hunresolved]
    exact h.missed
  case seen =>
    intro o ho
    rw [Found.addFixup] at ho
    split at ho
    · exact hkeep (h.seen o ho)
    · rcases List.mem_cons.mp ho with rfl | ho
      · exact hthere
      · exact hkeep (h.seen o ho)

end Found

/-! ### The walk accounts for every symbol -/

section Walk

variable {resolve : Str → Option UInt64} {imageBase imageSize : ℕ} {module : List UInt8}
  {P : ℕ → Str → Prop} {found found' : Found}

theorem resolveSymbol_accounts {offset : ℕ} {name : Str} (hf : found.Accounts resolve imageBase imageSize P)
    (h : resolveSymbol resolve imageBase imageSize found offset name = .ok found') :
    found'.Accounts resolve imageBase imageSize fun o n => P o n ∨ o = offset ∧ n = name := by
  rw [resolveSymbol] at h
  split at h
  · next hnone =>
    cases h
    refine hf.addUnresolved offset fun k hk => ?_
    obtain ⟨address, haddress, -⟩ := hk
    rw [hnone] at haddress
    cases haddress
  · next address hsome =>
    split_ifs at h with hbelow habove hwide
    · cases h
      refine hf.addUnresolved offset fun k hk => ?_
      obtain ⟨address', haddress, hbase, -⟩ := hk
      obtain rfl := Option.some.inj (hsome.symm.trans haddress)
      exact absurd hbelow (Nat.not_lt.mpr hbase)
    · cases h
      refine hf.addUnresolved offset fun k hk => ?_
      obtain ⟨address', haddress, -, rfl, hsize⟩ := hk
      obtain rfl := Option.some.inj (hsome.symm.trans haddress)
      exact absurd habove (Nat.not_le.mpr hsize)
    · cases h
      have hinside : ResolvesTo resolve imageBase imageSize name (address.toNat - imageBase) :=
        ⟨address, hsome, Nat.not_lt.mp hbelow, rfl, Nat.not_le.mp habove⟩
      exact Found.Accounts.addFixup (f := ⟨offset, address.toNat - imageBase⟩) hf hinside

theorem collectSymbol_accounts {sections : List ElfSection} {table strings : ElfSection} {index : ℕ}
    (hstrings : sections[table.link]? = some strings) (hf : found.Accounts resolve imageBase imageSize P)
    (h : collectSymbol resolve imageBase imageSize module table (slice module strings.offset strings.size) found
      index = .ok found') :
    found'.Accounts resolve imageBase imageSize fun o n => P o n ∨ table.Undefined module sections index o n := by
  -- nothing is to be found where the index has no undefined symbol with a name
  have hskip : (∀ o n, ¬table.Undefined module sections index o n) →
      found.Accounts resolve imageBase imageSize fun o n => P o n ∨ table.Undefined module sections index o n :=
    fun hno => hf.congr fun o n => ⟨.inl, fun hor => hor.resolve_right (hno o n)⟩
  simp only [collectSymbol] at h
  split_ifs at h with hoverflow houtside
  obtain ⟨shndx, hshndx, h⟩ := except_bind_ok.mp h
  have hundef := readWord_eq hshndx
  split_ifs at h with hdefined
  · cases h
    refine hskip fun o n hsymbol => hdefined ?_
    rw [hundef, ← hsymbol.entry]
    exact hsymbol.undefined
  · obtain ⟨nameOffset, hname, h⟩ := except_bind_ok.mp h
    have hoffset := readWord_eq hname
    have hnamed : ∀ {o n}, table.Undefined module sections index o n →
        readCString (slice module strings.offset strings.size) nameOffset = some n := by
      intro o n hsymbol
      obtain ⟨strings', hlink, hread⟩ := hsymbol.named
      obtain rfl := Option.some.inj (hstrings.symm.trans hlink)
      rw [hoffset, ← hsymbol.entry]
      exact hread
    split at h
    · next hnone =>
      cases h
      refine hskip fun o n hsymbol => ?_
      have hsome := hnamed hsymbol
      rw [hnone] at hsome
      cases hsome
    · next name hread =>
      split_ifs at h with hempty
      · cases h
        refine hskip fun o n hsymbol => ?_
        obtain rfl := Option.some.inj (hread.symm.trans (hnamed hsymbol))
        exact hsymbol.nonempty hempty
      · refine (resolveSymbol_accounts hf h).congr fun o n => or_congr_right ⟨?_, fun hsymbol => ?_⟩
        · rintro ⟨rfl, rfl⟩
          have hzero : shndx = SHN_UNDEF := not_not.mp hdefined
          exact ⟨rfl, hundef ▸ hzero, ⟨strings, hstrings, hoffset ▸ hread⟩, hempty⟩
        · exact ⟨hsymbol.entry, (Option.some.inj (hread.symm.trans (hnamed hsymbol))).symm⟩

theorem collectSection_accounts {sections : List ElfSection} {table : ElfSection}
    (hf : found.Accounts resolve imageBase imageSize P)
    (h : collectSection resolve imageBase imageSize module sections found table = .ok found') :
    found'.Accounts resolve imageBase imageSize fun o n => P o n ∨ ∃ index, 1 ≤ index ∧
      index < table.size / table.entrySize ∧ table.Undefined module sections index o n := by
  rw [collectSection] at h
  split_ifs at h
  split at h
  · cases h
  · next strings hstrings =>
    split_ifs at h
    have hloop := foldlM_invariant_done
      (fun done found => found.Accounts resolve imageBase imageSize fun o n =>
        P o n ∨ ∃ index ∈ done, table.Undefined module sections index o n)
      (fun done index _ s s' hs hstep => (collectSymbol_accounts hstrings hs hstep).congr fun o n => by
        simp only [List.mem_append, List.mem_singleton, or_and_right, exists_or, exists_eq_left, or_assoc])
      (hf.congr fun o n => by simp only [List.not_mem_nil, false_and, exists_false, or_false]) h
    refine hloop.congr fun o n => or_congr_right ⟨?_, ?_⟩
    · rintro ⟨index, hindex, hsymbol⟩
      obtain ⟨hfirst, hlast⟩ := List.mem_range'_1.mp hindex
      exact ⟨index, hfirst, by omega, hsymbol⟩
    · rintro ⟨index, hfirst, hlast, hsymbol⟩
      exact ⟨index, List.mem_range'_1.mpr ⟨hfirst, by omega⟩, hsymbol⟩

theorem collectSections_accounts {sections : List ElfSection}
    (h : collectSections resolve imageBase imageSize module sections = .ok found) :
    found.Accounts resolve imageBase imageSize fun o n => ∃ table ∈ sections, table.sectionType = SHT_SYMTAB ∧
      ∃ index, 1 ≤ index ∧ index < table.size / table.entrySize ∧ table.Undefined module sections index o n := by
  have hloop := foldlM_invariant_done
    (fun done found => found.Accounts resolve imageBase imageSize fun o n => ∃ table ∈ done,
      ∃ index, 1 ≤ index ∧ index < table.size / table.entrySize ∧ table.Undefined module sections index o n)
    (fun done table _ s s' hs hstep => (collectSection_accounts hs hstep).congr fun o n => by
      simp only [List.mem_append, List.mem_singleton, or_and_right, exists_or, exists_eq_left])
    (Found.accounts_empty fun o n hno => by
      obtain ⟨table, htable, -⟩ := hno
      exact List.not_mem_nil htable) h
  refine hloop.congr fun o n => exists_congr fun table => ?_
  rw [List.mem_filter, decide_eq_true_eq, and_assoc]

end Walk

/-! ### The fixups of a module -/

theorem collectModuleFixups_accounts {resolve : Str → Option UInt64} {imageBase imageSize : ℕ} {module : List UInt8}
    {fixups : List Fixup} {unresolved : List Str}
    (h : LkmImage.collectModuleFixups resolve imageBase imageSize module = .ok (fixups, unresolved)) :
    ∃ found : Found, found.fixups = fixups ∧ (∀ n, n ∈ unresolved ↔ n ∈ found.unresolved) ∧
      found.Accounts resolve imageBase imageSize (Undefined module) := by
  rw [LkmImage.collectModuleFixups] at h
  split_ifs at h
  obtain ⟨elfType, -, h⟩ := except_bind_ok.mp h
  obtain ⟨machine, -, h⟩ := except_bind_ok.mp h
  split_ifs at h
  obtain ⟨sectionOffset, hoffset, h⟩ := except_bind_ok.mp h
  obtain ⟨sectionEntrySize, hentrySize, h⟩ := except_bind_ok.mp h
  obtain ⟨sectionCount, hcount, h⟩ := except_bind_ok.mp h
  obtain ⟨sections, hsections, h⟩ := except_bind_ok.mp h
  obtain ⟨found, hfound, h⟩ := except_bind_ok.mp h
  have htable : moduleSections module = .ok sections := by
    rw [moduleSections, hoffset, hentrySize, hcount]
    exact hsections
  rw [Found.finish] at h
  split_ifs at h
  obtain ⟨rfl, rfl⟩ := Prod.mk.inj (Except.ok.inj h)
  refine ⟨found, rfl, fun n => List.mem_mergeSort, ?_⟩
  refine (collectSections_accounts hfound).congr fun o n => ⟨fun hsymbol => ⟨sections, htable, hsymbol⟩, ?_⟩
  rintro ⟨sections', htable', hsymbol⟩
  obtain rfl := Except.ok.inj (htable.symm.trans htable')
  exact hsymbol

namespace SymbolMap

/-- The addresses of the names, as the walk asks for them. -/
def resolver (map : SymbolMap) (name : Str) : Option UInt64 :=
  (map.resolveModuleSymbol (String.ofList name)).map fun symbol => UInt64.ofNat symbol.address

/-- The name is at this address only, or where no symbol has the name, its variants are. -/
def UniquelyAt (map : SymbolMap) (name : String) (address : ℕ) : Prop :=
  UniqueAddress (map.byName name) address ∨
    map.byName name = [] ∧ UniqueAddress (map.byNormalizedName (normalizeSymbol name)) address

theorem uniquelyAt_of_resolver {map : SymbolMap} (hmap : ∀ symbol ∈ map.entries, symbol.address < 2 ^ 64)
    {name : Str} {address : UInt64} (h : map.resolver name = some address) :
    map.UniquelyAt (String.ofList name) address.toNat := by
  obtain ⟨symbol, hsymbol, rfl⟩ := Option.map_eq_some_iff.mp h
  have hresolve : map.resolve (String.ofList name) = .ok symbol := by
    rw [resolveModuleSymbol] at hsymbol
    cases hmap : map.resolve (String.ofList name) with
    | ok symbol' =>
      rw [hmap] at hsymbol
      exact congrArg Except.ok (Option.some.inj hsymbol)
    | error e =>
      rw [hmap] at hsymbol
      cases hsymbol
  have hunique := resolve_eq_ok_iff.mp ⟨symbol, hresolve, rfl⟩
  have hsmall : symbol.address < 2 ^ 64 := by
    have hat : ∃ other ∈ map.entries, other.address = symbol.address := by
      rcases hunique with ⟨hne, hall⟩ | ⟨-, hne, hall⟩
      · obtain ⟨other, hother⟩ := List.exists_mem_of_ne_nil _ hne
        exact ⟨other, List.mem_of_mem_filter hother, hall other hother⟩
      · obtain ⟨other, hother⟩ := List.exists_mem_of_ne_nil _ hne
        exact ⟨other, List.mem_of_mem_filter hother, hall other hother⟩
    obtain ⟨other, hother, haddress⟩ := hat
    exact haddress ▸ hmap other hother
  rw [UInt64.toNat_ofNat_of_lt' hsmall]
  exact hunique

end SymbolMap

/-- **The fixups are complete and in bounds.** -/
theorem collectModuleFixups_complete (map : SymbolMap) (hmap : ∀ symbol ∈ map.entries, symbol.address < 2 ^ 64)
    (imageBase imageSize : ℕ) (module : List UInt8) (hmodule : module.length ≤ ISIZE_MAX) :
    Checked.collectModuleFixups map.resolver imageBase imageSize module ≠ .error .panic ∧
    ∀ fixups unresolved,
      Checked.collectModuleFixups map.resolver imageBase imageSize module = .ok (fixups, unresolved) →
      (∀ offset name, Undefined module offset name →
        ((∃ f ∈ fixups, f.symbolFileOffset = offset) ∨ name ∈ unresolved) ∧
        ((∃ f ∈ fixups, f.symbolFileOffset = offset) → name ∈ unresolved →
          ∃ other ∉ unresolved, Undefined module offset other)) ∧
      (fixups.map (·.symbolFileOffset)).Nodup ∧
      ∀ f ∈ fixups, f.symbolFileOffset + 24 ≤ module.length ∧ f.symbolFileOffset < 2 ^ 32 ∧
        f.kernelOffset < imageSize ∧
        ∃ name address, Undefined module f.symbolFileOffset name ∧ map.UniquelyAt (String.ofList name) address ∧
          imageBase ≤ address ∧ f.kernelOffset = address - imageBase := by
  rw [Checked.collectModuleFixups_eq hmodule]
  refine ⟨reported_ne_panic _, fun fixups unresolved h => ?_⟩
  rw [reported_eq_ok] at h
  obtain ⟨found, rfl, hunresolved, haccounts⟩ := collectModuleFixups_accounts h
  obtain ⟨found', hsame, hlisted⟩ := collectModuleFixups_listed hmodule h
  refine ⟨fun offset name hsymbol => ⟨?_, fun hin hun => ?_⟩, ?_, fun f hf => ?_⟩
  · by_cases hresolves : ∃ k, ResolvesTo map.resolver imageBase imageSize name k
    · obtain ⟨k, hk⟩ := hresolves
      exact .inl (haccounts.listed hsymbol hk)
    · exact .inr ((hunresolved name).mpr (haccounts.unresolved hsymbol (not_exists.mp hresolves)))
  · obtain ⟨f, hf, rfl⟩ := hin
    obtain ⟨other, hother, hk⟩ := haccounts.fixed f hf
    exact ⟨other, fun hun' => haccounts.missed other ((hunresolved other).mp hun') _ hk, hother⟩
  · rw [← hsame]
    exact List.pairwise_map.mpr hlisted.distinct
  · obtain ⟨hinside, hoffset, -⟩ := hlisted.inModule f (hsame.symm ▸ hf)
    obtain ⟨name, hname, address, haddress, hbase, hkernel, hsize⟩ := haccounts.fixed f hf
    exact ⟨hinside, hoffset, hsize, name, address.toNat, hname, SymbolMap.uniquelyAt_of_resolver hmap haddress,
      hbase, hkernel⟩

/-! ### Two symbol tables in one place -/

/-- The bytes of a section header. -/
def ElfSection.bytes (s : ElfSection) : List UInt8 :=
  List.replicate 4 0 ++ encodeLE 4 s.sectionType ++ List.replicate 16 0 ++ encodeLE 8 s.offset ++ encodeLE 8 s.size ++
    encodeLE 4 s.link ++ List.replicate 12 0 ++ encodeLE 8 s.entrySize

/-- A module with these sections, and what follows their headers. -/
def moduleOf (sections : List ElfSection) (contents : List UInt8) : List UInt8 :=
  elfMagic ++ [2, 1] ++ List.replicate 10 0 ++ encodeLE 2 ET_REL ++ encodeLE 2 EM_AARCH64 ++ List.replicate 20 0 ++
    encodeLE 8 64 ++ List.replicate 10 0 ++ encodeLE 2 64 ++ encodeLE 2 sections.length ++ List.replicate 2 0 ++
    sections.flatMap ElfSection.bytes ++ contents

/-- Two symbol tables at one offset, whose names are in two string tables. -/
def sharedSections : List ElfSection :=
  [⟨SHT_SYMTAB, 320, 48, 2, 24⟩, ⟨SHT_SYMTAB, 320, 48, 3, 24⟩, ⟨3, 368, 3, 0, 0⟩, ⟨3, 371, 3, 0, 0⟩]

/-- One undefined symbol, which is `a` by the first table and `b` by the second. -/
def sharedModule : List UInt8 :=
  moduleOf sharedSections
    (List.replicate 24 0 ++ encodeLE 4 1 ++ List.replicate 20 0 ++ [0, 97, 0] ++ [0, 98, 0])

/-- A kernel that has `a` only. -/
def sharedMap : SymbolMap := ⟨[⟨0xffffffc008001000, "a"⟩]⟩

theorem sharedModule_fixups :
    Checked.collectModuleFixups sharedMap.resolver 0xffffffc008000000 0x10000 sharedModule =
      .ok ([⟨344, 0x1000⟩], [['b']]) := by
  decide +kernel

theorem sharedModule_length : sharedModule.length ≤ ISIZE_MAX := by decide +kernel

theorem sharedModule_undefined : Undefined sharedModule 344 ['b'] := by
  refine ⟨sharedSections, by decide +kernel, ⟨SHT_SYMTAB, 320, 48, 3, 24⟩, by decide, rfl, 1, le_rfl, by decide, ?_⟩
  exact ⟨by decide, by decide +kernel, ⟨⟨3, 371, 3, 0, 0⟩, rfl, by decide +kernel⟩, List.cons_ne_nil _ _⟩

theorem collectModuleFixups_complete_shared :
    Checked.collectModuleFixups sharedMap.resolver 0xffffffc008000000 0x10000 sharedModule ≠ .error .panic ∧
      ∃ other ∉ [['b']], Undefined sharedModule 344 other := by
  have hcomplete := collectModuleFixups_complete sharedMap (by decide) 0xffffffc008000000 0x10000 sharedModule
    sharedModule_length
  have hsymbols := (hcomplete.2 _ _ sharedModule_fixups).1 344 ['b'] sharedModule_undefined
  exact ⟨hcomplete.1, hsymbols.2 ⟨_, List.mem_singleton.mpr rfl, rfl⟩ (List.mem_singleton.mpr rfl)⟩

/-- **Listed and unresolved.**  The symbol `b` is unresolved, and the fixup of `a` is at its offset. -/
theorem collectModuleFixups_listed_and_unresolved :
    ¬∀ (map : SymbolMap) (imageBase imageSize : ℕ) (module : List UInt8) (fixups : List Fixup)
      (unresolved : List Str), (∀ symbol ∈ map.entries, symbol.address < 2 ^ 64) → module.length ≤ ISIZE_MAX →
      Checked.collectModuleFixups map.resolver imageBase imageSize module = .ok (fixups, unresolved) →
      ∀ offset name, Undefined module offset name →
        ¬((∃ f ∈ fixups, f.symbolFileOffset = offset) ∧ name ∈ unresolved) := by
  intro h
  exact h sharedMap 0xffffffc008000000 0x10000 sharedModule _ _ (by decide) sharedModule_length sharedModule_fixups 344
    ['b'] sharedModule_undefined ⟨⟨_, List.mem_singleton.mpr rfl, rfl⟩, List.mem_singleton.mpr rfl⟩

end KernelSU.LkmImage
