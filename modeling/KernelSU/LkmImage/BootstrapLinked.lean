import KernelSU.LkmImage.BootstrapParsed

/-!
# What linking the bootstrap makes

* `copySections_safe`, `relocateSections_safe` — **PROVED**: the two loops lay the image out and apply every entry
  once, and do not panic;
* `parsed_linksRight` — **PROVED**: linking a parsed object does what it is for, unless the image is larger than a
  vector can be and its sections are aligned.
-/

namespace KernelSU.LkmImage

open KernelSU.Lib KernelSU.Lib.Bytes KernelSU.Ksud

/-! ### Copying the sections -/

/-- The image with the sections that are done. -/
structure Copied (data : List UInt8) (imageSize : ℕ) (done : List (BootstrapSection × ℕ)) (image : List UInt8) :
    Prop where
  length : image.length = imageSize
  sections : ∀ s ∈ done, slice image s.2 s.1.size = slice data s.1.offset s.1.size
  rest : ∀ i < imageSize, (∀ s ∈ done, ¬(s.2 ≤ i ∧ i < s.2 + s.1.size)) → image[i]? = some 0

theorem copied_zeroed (data : List UInt8) (imageSize : ℕ) : Copied data imageSize [] (List.replicate imageSize 0) := by
  refine ⟨List.length_replicate, List.forall_mem_nil _, fun i hi _ => ?_⟩
  rw [List.getElem?_replicate, if_pos hi]

/-- One section more. -/
theorem Copied.copySection {data image : List UInt8} {imageSize : ℕ} {done : List (BootstrapSection × ℕ)}
    {s : BootstrapSection × ℕ} (h : Copied data imageSize done image) (hfits : imageSize < 2 ^ 64)
    (hdata : s.1.offset + s.1.size ≤ data.length) (hplace : s.2 + s.1.size ≤ imageSize)
    (hapart : ∀ t ∈ done, t.2 + t.1.size ≤ s.2 ∨ s.2 + s.1.size ≤ t.2) :
    Safe (copySection data image s) (Copied data imageSize (done ++ [s])) := by
  have hbytes : (slice data s.1.offset s.1.size).length = s.1.size := slice_length_of_le hdata
  have hcheck : checkSliceMut image s.2 s.1.size = .ok () :=
    ensure_bind_ok.mpr ⟨by omega, ensure_ok.mpr (by rw [h.length]; exact hplace)⟩
  have hget : getSlice data s.1.offset s.1.size = .ok (slice data s.1.offset s.1.size) := if_pos hdata
  have hin : s.2 + (slice data s.1.offset s.1.size).length ≤ image.length := by rw [hbytes, h.length]; exact hplace
  rw [LkmImage.copySection, hcheck, hget]
  show Safe (copyFromSlice image s.2 s.1.size (slice data s.1.offset s.1.size)) _
  rw [copyFromSlice, if_pos hbytes]
  refine safe_ok ⟨by rw [patch_length hin, h.length], fun t ht => ?_, fun i hi hnot => ?_⟩
  · rcases List.mem_append.mp ht with ht | ht
    · rw [slice_patch_disjoint hin, h.sections t ht]
      rw [hbytes]
      exact hapart t ht
    · obtain rfl := List.mem_singleton.mp ht
      have hsame := slice_patch_same hin
      rwa [hbytes] at hsame
  · obtain ⟨hdone, hlast⟩ := List.forall_mem_append.mp hnot
    rw [getElem?_patch hin, hbytes]
    have hout := hlast s (List.mem_singleton_self s)
    rw [if_neg hout]
    exact h.rest i hi hdone

/-- **The sections are laid out.** -/
theorem copySections_safe {obj : BootstrapObject} (h : obj.WellFormed) :
    Safe (obj.loadable.foldlM (copySection obj.data) (List.replicate obj.imageSize 0)) obj.LaidOut := by
  have hloop : Safe (obj.loadable.foldlM (copySection obj.data) (List.replicate obj.imageSize 0))
      (Copied obj.data obj.imageSize obj.loadable) := by
    refine safe_foldlM (copied_zeroed obj.data obj.imageSize) fun done s image hpre hdone => ?_
    obtain ⟨hdata, hplace⟩ := h.loadable s (hpre.subset (List.mem_append_right _ List.mem_cons_self))
    refine hdone.copySection h.fits hdata hplace fun t ht => ?_
    exact (List.pairwise_append.mp (h.apart.sublist hpre.sublist)).2.2 t ht s List.mem_cons_self
  refine ⟨hloop.noPanic, fun image himage => ?_⟩
  have hcopied := hloop.post image himage
  exact ⟨hcopied.length, fun s hs => ⟨hcopied.sections s hs, slice_length_of_le (h.loadable s hs).1⟩, hcopied.rest⟩

/-! ### Applying the relocations -/

section Relocate

variable {obj : BootstrapObject} {codeAddress : UInt64} {definitions : Str → Option UInt64}

theorem BootstrapObject.Applied.append {es es' : List RelaEntry} {image image' image'' : List UInt8}
    (h : obj.Applied codeAddress definitions es image image')
    (h' : obj.Applied codeAddress definitions es' image' image'') :
    obj.Applied codeAddress definitions (es ++ es') image image'' := by
  induction h with
  | nil => exact h'
  | cons he _ ih => exact .cons he (ih h')

theorem checkedAdd_ok {a b : ℕ} {message : String} {c : UInt64} (h : checkedAdd a b message = .ok c) :
    c.toNat = a + b := by
  rw [checkedAdd] at h
  split_ifs at h with hlt
  rw [← Except.ok.inj h, UInt64.toNat_ofNat_of_lt' hlt]

theorem readI64_ok {data : List UInt8} {offset : ℕ} {a : Int64} (h : readI64 data offset = .ok a) :
    a = (UInt64.ofNat (decodeLE (slice data offset 8))).toInt64 := by
  rw [readI64] at h
  cases hread : readU64 data offset with
  | error e =>
    rw [hread] at h
    cases h
  | ok w =>
    rw [hread] at h
    rw [← readWord_eq hread]
    exact (Except.ok.inj h).symm

theorem relocate_ok {output output' : List UInt8} {outputOffset : ℕ} {P S : UInt64} {t : ℕ} {A : Int64}
    {message : String} (h : relocate output outputOffset P t S A message = .ok output') :
    Relocated output outputOffset P.toNat t S.toNat A.toInt output' := by
  obtain ⟨u, hok, h⟩ := except_bind_ok.mp h
  obtain rfl := Except.ok.inj h
  refine applyBootstrapRelocation_ok ?_
  cases hresult : (applyBootstrapRelocation output outputOffset P t S A).1 with
  | ok v => rfl
  | error e =>
    rw [hresult] at hok
    cases hok

/-- A symbol with a value is in the table. -/
theorem symbolValue_lt {symbolIndex : ℕ} {S : UInt64} (h : obj.symbolValue codeAddress definitions symbolIndex = .ok S) :
    symbolIndex < obj.symbols.length := by
  obtain ⟨symbol, hsymbol, -⟩ := except_bind_ok.mp h
  exact (List.getElem?_eq_some_iff.mp (context_ok.mp hsymbol)).1

/-- **One entry** is applied or refused. -/
theorem relocateEntry_safe {s target : BootstrapSection} {targetOutput : ℕ} {targetAddress : UInt64}
    (hs : s.offset + s.size < 2 ^ 64) (htarget : obj.sections[s.info]? = some target)
    (houtput : target.outputOffset = some targetOutput)
    (haddress : targetAddress.toNat = codeAddress.toNat + targetOutput) {index : ℕ}
    (hindex : index < s.size / ELF64_RELA_SIZE) (output : List UInt8) :
    Safe (obj.relocateEntry codeAddress definitions s target targetOutput targetAddress output index)
      (obj.AppliedEntry codeAddress definitions (obj.relaEntry s index) output) := by
  have hlast : index * ELF64_RELA_SIZE + ELF64_RELA_SIZE ≤ s.size := by
    have hle : (index + 1) * ELF64_RELA_SIZE ≤ s.size :=
      (Nat.mul_le_mul_right _ hindex).trans (Nat.div_mul_le_self _ _)
    rwa [Nat.add_mul, Nat.one_mul] at hle
  have hwidth : ELF64_RELA_SIZE = 24 := rfl
  rw [BootstrapObject.relocateEntry, usizeMul_of_lt (by omega), ok_bind, usizeAdd_of_lt (by omega), ok_bind]
  refine safe_bind (safe_reported fun targetOffset htargetOffset => htargetOffset) fun targetOffset htargetOffset => ?_
  rw [usizeAdd_of_lt (by omega), ok_bind]
  refine safe_bind (safe_reported fun info hinfo => hinfo) fun info hinfo => ?_
  dsimp only
  rw [usizeAdd_of_lt (by omega), ok_bind]
  refine safe_bind (safe_reported fun addend haddend => haddend) fun addend haddend => ?_
  refine safe_bind (safe_reported fun width hwidth => hwidth) fun width hwidth => ?_
  refine safe_bind (safe_reported fun u hu => hu) fun u _ => safe_bind (safe_reported fun u hu => hu) fun u _ => ?_
  refine safe_bind (safe_reported fun place hplace => hplace) fun place hplace => ?_
  refine safe_bind (safe_reported fun S hS => hS) fun S hS => ?_
  rw [indexAt_of_lt (symbolValue_lt hS), ok_bind]
  refine safe_reported fun output' houtput' => ?_
  refine ⟨target, targetOutput, S, htarget, houtput, ?_, ?_⟩
  · rw [readWord_eq hinfo] at hS
    exact hS
  · have hrelocated := relocate_ok houtput'
    rw [checkedAdd_ok hplace, haddress, readWord_eq htargetOffset, readWord_eq hinfo, readI64_ok haddend] at hrelocated
    exact hrelocated

/-- A section of relocations. -/
theorem relocateSection_safe (h : obj.WellFormed) {s : BootstrapSection} (hs : s ∈ obj.relaSections)
    (output : List UInt8) : Safe (obj.relocateSection codeAddress definitions output s)
      (obj.Applied codeAddress definitions ((List.range (s.size / ELF64_RELA_SIZE)).map (obj.relaEntry s)) output) := by
  obtain ⟨-, hfits, -, target, htarget, -⟩ := h.rela s hs
  rw [BootstrapObject.relocateSection]
  refine safe_bind (safe_reported fun u hu => hu) fun u _ => ?_
  rw [indexAt_of_getElem? htarget, ok_bind]
  refine safe_bind (safe_reported fun o ho => ho) fun targetOutput houtput => ?_
  refine safe_bind (safe_reported fun a ha => ha) fun targetAddress haddress => ?_
  rw [context_ok] at houtput
  have haddress : targetAddress.toNat = codeAddress.toNat + targetOutput := by
    obtain ⟨target', htarget', haddress⟩ := except_bind_ok.mp haddress
    obtain ⟨o, ho, haddress⟩ := except_bind_ok.mp haddress
    rw [context_ok] at htarget' ho
    obtain rfl := Option.some.inj (htarget.symm.trans htarget')
    obtain rfl := Option.some.inj (houtput.symm.trans ho)
    exact checkedAdd_ok haddress
  have hloop : Safe ((List.range (s.size / ELF64_RELA_SIZE)).foldlM
      (obj.relocateEntry codeAddress definitions s target targetOutput targetAddress) output)
      (fun output' => obj.Applied codeAddress definitions
        ((List.range (s.size / ELF64_RELA_SIZE)).map (obj.relaEntry s)) output output') := by
    refine safe_foldlM (P := fun done output' => obj.Applied codeAddress definitions (done.map (obj.relaEntry s))
      output output') .nil fun done index image hpre hdone => ?_
    have hindex : index < s.size / ELF64_RELA_SIZE :=
      List.mem_range.mp (hpre.subset (List.mem_append_right _ List.mem_cons_self))
    have hentry : Safe (obj.relocateEntry codeAddress definitions s target targetOutput targetAddress image index) _ :=
      relocateEntry_safe hfits htarget houtput haddress hindex image
    refine ⟨hentry.noPanic, fun image' himage' => ?_⟩
    rw [List.map_append]
    exact hdone.append (.cons (hentry.post image' himage') .nil)
  exact hloop

/-- **Every entry is applied once.** -/
theorem relocateSections_safe (h : obj.WellFormed) (image : List UInt8) :
    Safe (obj.relaSections.foldlM (obj.relocateSection codeAddress definitions) image)
      (obj.Applied codeAddress definitions obj.relaEntries image) := by
  refine safe_foldlM (P := fun done image' => obj.Applied codeAddress definitions
    (done.flatMap fun s => (List.range (s.size / ELF64_RELA_SIZE)).map (obj.relaEntry s)) image image') .nil ?_
  intro done s image' hpre hdone
  have hsection : Safe (obj.relocateSection codeAddress definitions image' s) _ :=
    relocateSection_safe h (hpre.subset (List.mem_append_right _ List.mem_cons_self)) image'
  refine ⟨hsection.noPanic, fun image'' himage'' => ?_⟩
  rw [List.flatMap_append, List.flatMap_singleton]
  exact hdone.append (hsection.post image'' himage'')

theorem namedSymbolValue_safe (name : String) :
    Safe (obj.namedSymbolValue codeAddress definitions name)
      fun S => obj.namedSymbolValue codeAddress definitions name = .ok S := by
  refine ⟨?_, fun S hS => hS⟩
  have hsafe : Safe (obj.namedSymbolValue codeAddress definitions name) fun _ => True := by
    rw [BootstrapObject.namedSymbolValue]
    refine safe_bind (safe_reported fun index hindex => hindex) fun index hindex => ?_
    obtain ⟨symbol, hsymbol, -⟩ := onlyOne_indicesWhere (context_ok.mp hindex)
    rw [indexAt_of_getElem? hsymbol, ok_bind]
    refine safe_bind (safe_reported fun u hu => hu) fun u _ => safe_reported fun _ _ => trivial
  exact hsafe.noPanic

end Relocate

/-! ### Linking -/

section Link

variable (obj : BootstrapObject) (codeAddress : UInt64) (definitions : Str → Option UInt64)

/-- Every loadable section has an address, which is a multiple of its alignment. -/
def BootstrapObject.AlignedAt : Prop :=
  ∀ s ∈ obj.loadable, codeAddress.toNat + s.2 < 2 ^ 64 ∧ (codeAddress.toNat + s.2) % s.1.alignment = 0

/-- What linking makes is right, and linking does not panic. -/
structure BootstrapObject.LinksRight : Prop where
  linked : ∀ linked, obj.link codeAddress definitions = .ok linked → obj.Linked codeAddress definitions linked
  noPanic : obj.link codeAddress definitions ≠ .error .panic

variable {obj codeAddress definitions}

theorem checkAligned_ok {s : BootstrapSection × ℕ} : checkAligned codeAddress s = .ok () ↔
    codeAddress.toNat + s.2 < 2 ^ 64 ∧ (codeAddress.toNat + s.2) % s.1.alignment = 0 := by
  rw [checkAligned, except_bind_ok]
  constructor
  · rintro ⟨address, haddress, haligned⟩
    have hsum := checkedAdd_ok haddress
    rw [ensure_ok, hsum] at haligned
    exact ⟨hsum ▸ address.toNat_lt, haligned⟩
  · rintro ⟨hfits, haligned⟩
    refine ⟨UInt64.ofNat (codeAddress.toNat + s.2), if_pos hfits, ensure_ok.mpr ?_⟩
    rw [UInt64.toNat_ofNat_of_lt' hfits]
    exact haligned

theorem alignedAt_iff : obj.loadable.forM (checkAligned codeAddress) = .ok () ↔ obj.AlignedAt codeAddress := by
  rw [forM_ok]
  exact forall₂_congr fun s _ => checkAligned_ok

/-- What comes behind `vec![0u8; image_size]`. -/
theorem link_safe (h : obj.WellFormed) (hsize : obj.imageSize ≤ ISIZE_MAX) :
    Safe (obj.link codeAddress definitions) (obj.Linked codeAddress definitions) := by
  rw [BootstrapObject.link, zeroed, if_pos hsize]
  refine safe_bind (safe_reported fun u hu => hu) fun u _ => ?_
  rw [ok_bind]
  refine safe_bind (copySections_safe h) fun image himage => ?_
  refine safe_bind (relocateSections_safe h image) fun output houtput => ?_
  refine safe_bind (namedSymbolValue_safe _) fun entry hentry => ?_
  refine safe_bind (namedSymbolValue_safe _) fun reserve hreserve => ?_
  refine safe_bind (namedSymbolValue_safe _) fun strndup hstrndup => ?_
  exact safe_ok ⟨⟨image, himage, houtput⟩, hentry, hreserve, hstrndup⟩

/-- An image that is too large panics behind the checks of the alignment. -/
theorem link_panic_iff (hsize : ISIZE_MAX < obj.imageSize) :
    obj.link codeAddress definitions = .error .panic ↔ obj.AlignedAt codeAddress := by
  rw [BootstrapObject.link, zeroed, if_neg (Nat.not_le.mpr hsize), ← alignedAt_iff]
  cases obj.loadable.forM (checkAligned codeAddress) with
  | ok u => exact iff_of_true rfl rfl
  | error e => exact iff_of_false (fun h => by cases h) fun h => by cases h

/-- **When linking is right.** -/
theorem linksRight_iff (h : obj.WellFormed) :
    obj.LinksRight codeAddress definitions ↔ ¬(ISIZE_MAX < obj.imageSize ∧ obj.AlignedAt codeAddress) := by
  by_cases hsize : obj.imageSize ≤ ISIZE_MAX
  · have hsafe : Safe (obj.link codeAddress definitions) (obj.Linked codeAddress definitions) := link_safe h hsize
    exact iff_of_true ⟨hsafe.post, hsafe.noPanic⟩ fun hlarge => absurd hsize (Nat.not_le.mpr hlarge.1)
  · have hlarge := Nat.not_le.mp hsize
    constructor
    · rintro hright ⟨-, haligned⟩
      exact hright.noPanic ((link_panic_iff hlarge).mpr haligned)
    · intro hnot
      refine ⟨fun linked hlinked => ?_, fun hpanic => hnot ⟨hlarge, (link_panic_iff hlarge).mp hpanic⟩⟩
      rw [BootstrapObject.link, zeroed, if_neg hsize] at hlinked
      cases hcheck : obj.loadable.forM (checkAligned codeAddress) with
      | ok u =>
        rw [hcheck] at hlinked
        cases hlinked
      | error e =>
        rw [hcheck] at hlinked
        cases hlinked

end Link

/-- **Linking a parsed object.**  Whatever `parse` accepts, `link` lays its sections out and applies every entry once
at its place as the ABI asks for, and panics only if a section's alignment has made the image larger than a vector. -/
theorem parsed_linksRight {data : List UInt8} {obj : BootstrapObject} (h : BootstrapObject.parse data = .ok obj)
    (codeAddress : UInt64) (definitions : Str → Option UInt64) :
    obj.LinksRight codeAddress definitions ↔ ¬(ISIZE_MAX < obj.imageSize ∧ obj.AlignedAt codeAddress) :=
  linksRight_iff (parse_wellFormed h)

/-! ### One object -/

/-- The strings of the object below. -/
def callStrings : List UInt8 :=
  0 :: (asBytes ".text.ksu_bootstrap".toList ++ 0 :: asBytes ".rodata.ksu_bootstrap".toList ++
    0 :: asBytes "ksu_bootstrap".toList ++ 0 :: asBytes "ksu_memblock_reserve_wrapper".toList ++
    0 :: asBytes "ksu_strndup_user_adapter".toList ++ [0])

/-- An entry of a section table. -/
def sectionEntry (name sectionType flags offset size link info alignment entrySize : ℕ) : List UInt8 :=
  encodeLE 4 name ++ encodeLE 4 sectionType ++ encodeLE 8 flags ++ encodeLE 8 0 ++ encodeLE 8 offset ++
    encodeLE 8 size ++ encodeLE 4 link ++ encodeLE 4 info ++ encodeLE 8 alignment ++ encodeLE 8 entrySize

/-- A symbol of the text section. -/
def textSymbol (name : ℕ) : List UInt8 := encodeLE 4 name ++ [0x12, 0] ++ encodeLE 2 1 ++ encodeLE 8 0 ++ encodeLE 8 4

/-- An object with one instruction, a call of the instruction behind it. -/
def callObject : List UInt8 :=
  -- the header
  elfMagic ++ [2, 1, 1, 0] ++ List.replicate 8 0 ++ encodeLE 2 ET_REL ++ encodeLE 2 EM_AARCH64 ++ encodeLE 4 1 ++
    List.replicate 16 0 ++ encodeLE 8 300 ++ encodeLE 4 0 ++ encodeLE 2 64 ++ encodeLE 2 0 ++ encodeLE 2 0 ++
    encodeLE 2 64 ++ encodeLE 2 6 ++ encodeLE 2 4 ++
  -- the instruction at 64, the strings at 68, the symbols at 179 and the relocation at 275
  encodeLE 4 0x94000000 ++ callStrings ++ List.replicate 24 0 ++ textSymbol 43 ++ textSymbol 57 ++ textSymbol 86 ++
    encodeLE 8 0 ++ encodeLE 8 (1 * 2 ^ 32 + 283) ++ encodeLE 8 4 ++ [0] ++
  -- the section table at 300
  sectionEntry 0 0 0 0 0 0 0 0 0 ++ sectionEntry 1 SHT_PROGBITS 6 64 4 0 0 4 0 ++
    sectionEntry 21 SHT_PROGBITS 2 68 0 0 0 1 0 ++ sectionEntry 0 SHT_SYMTAB 0 179 96 4 1 8 24 ++
    sectionEntry 0 SHT_STRTAB 0 68 111 0 0 1 0 ++ sectionEntry 0 SHT_RELA 0 275 24 3 1 8 24

theorem toOption_eq_some {ε α : Type} {x : Except ε α} {a : α} : x.toOption = some a ↔ x = .ok a := by
  cases x with
  | error e => exact iff_of_false (fun h => by cases h) fun h => by cases h
  | ok b => rw [Except.toOption, Option.some.injEq, Except.ok.injEq]

/-- The call is linked at an address: its word is a branch to the next instruction. -/
theorem parsed_linksRight_call : ∃ obj linked, BootstrapObject.parse callObject = .ok obj ∧
    obj.link 0x80000 (fun _ => none) = .ok linked ∧ linked.data = [0x01, 0x00, 0x00, 0x94] ∧
    obj.Linked 0x80000 (fun _ => none) linked := by
  have hrun : (BootstrapObject.parse callObject).toOption.bind (fun obj =>
      if obj.imageSize = 4 then (obj.link 0x80000 fun _ => none).toOption.map LinkedBootstrap.data else none)
      = some [0x01, 0x00, 0x00, 0x94] := by decide +kernel
  obtain ⟨obj, hparse, hrun⟩ := Option.bind_eq_some_iff.mp hrun
  split_ifs at hrun with hsize
  obtain ⟨linked, hlink, hdata⟩ := Option.map_eq_some_iff.mp hrun
  have hparse := toOption_eq_some.mp hparse
  have hlink := toOption_eq_some.mp hlink
  have hsmall : ¬(ISIZE_MAX < obj.imageSize ∧ obj.AlignedAt 0x80000) := by
    rw [hsize]
    exact fun hlarge => absurd hlarge.1 (by decide)
  exact ⟨obj, linked, hparse, hlink, hdata, ((parsed_linksRight hparse _ _).mpr hsmall).linked linked hlink⟩

end KernelSU.LkmImage
