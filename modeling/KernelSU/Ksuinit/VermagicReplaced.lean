import KernelSU.Ksuinit.Vermagic
import KernelSU.Lib.Parsing
import KernelSU.Lib.Utf8

/-!
# What replacing the vermagic changes

`replace_module_vermagic` checks the alignment of `.modinfo` to be a power of two and the rounded offset to be a
64-bit number, but not that a vector can be as long as that.

* `rewriteEntries_spec` — **PROVED**: one version magic, and the other entries in their order;
* `replaceModuleVermagic_iff` — **PROVED**: the replacement changes nothing else and does not panic exactly when the
  rewritten file can be held in memory;
* `replaceModuleVermagic_panics` — **PROVED**: with an alignment of `2 ^ 63` it cannot.
-/

namespace KernelSU.Ksuinit

open KernelSU.Lib hiding asBytes
open KernelSU.Lib.Bytes KernelSU.Ksud

/-! ### Entries -/

def isVermagic (entry : List UInt8) : Bool := vermagicPrefix.isPrefixOf entry

theorem isVermagic_replacement (required : Str) : isVermagic (replacement required) = true := by
  rw [isVermagic, replacement, asBytes, List.flatMap_append, List.isPrefixOf_iff_prefix]
  exact List.prefix_append _ _

/-- The entries that are no version magic. -/
def plainEntries (entries : List (List UInt8)) : List (List UInt8) := entries.filter fun e => !isVermagic e

theorem plainEntries_cons (entry : List UInt8) (entries : List (List UInt8)) :
    plainEntries (entry :: entries) = if isVermagic entry then plainEntries entries else entry :: plainEntries entries := by
  rw [plainEntries, List.filter_cons]
  cases isVermagic entry <;> rfl

/-- **One version magic**, and the other entries in their order. -/
theorem rewriteEntries_spec (required : Str) (entries : List (List UInt8)) (replaced : Bool) :
    (rewriteEntries required replaced entries).filter isVermagic = (if replaced then [] else [replacement required]) ∧
      plainEntries (rewriteEntries required replaced entries) = plainEntries (entries.filter fun e => !e.isEmpty) := by
  have hmagic := isVermagic_replacement required
  induction entries generalizing replaced with
  | nil =>
    cases replaced with
    | false =>
      show [replacement required].filter isVermagic = [replacement required] ∧ plainEntries [replacement required] = []
      rw [List.filter_cons_of_pos hmagic, plainEntries_cons, if_pos hmagic]
      exact ⟨rfl, rfl⟩
    | true => exact ⟨rfl, rfl⟩
  | cons entry entries ih =>
    by_cases hempty : entry = []
    · rw [rewriteEntries, if_pos hempty, hempty]
      exact ih replaced
    · have hskip : ((entry :: entries).filter fun e => !e.isEmpty) = entry :: entries.filter fun e => !e.isEmpty :=
        List.filter_cons_of_pos (by rw [List.isEmpty_eq_false_iff.mpr hempty]; rfl)
      rw [rewriteEntries, if_neg hempty, hskip, plainEntries_cons entry]
      by_cases hentry : vermagicPrefix <+: entry
      · have hprefixed : isVermagic entry = true := List.isPrefixOf_iff_prefix.mpr hentry
        rw [if_pos hentry, if_pos hprefixed]
        cases replaced with
        | true => exact ih true
        | false =>
          obtain ⟨hone, hplain⟩ := ih true
          rw [if_neg Bool.false_ne_true, List.filter_cons_of_pos hmagic, plainEntries_cons, if_pos hmagic, hone, hplain]
          exact ⟨rfl, rfl⟩
      · have hother : ¬isVermagic entry = true := fun h => hentry (List.isPrefixOf_iff_prefix.mp h)
        obtain ⟨hone, hplain⟩ := ih replaced
        rw [if_neg hentry, if_neg hother, List.filter_cons_of_neg hother, plainEntries_cons, if_neg hother, hone, hplain]
        exact ⟨rfl, rfl⟩

/-- No entry is empty or holds a NUL. -/
theorem rewriteEntries_clear {required : Str} (hrequired : (0 : UInt8) ∉ asBytes required) {entries : List (List UInt8)}
    (hentries : ∀ entry ∈ entries, (0 : UInt8) ∉ entry) (replaced : Bool) :
    ∀ entry ∈ rewriteEntries required replaced entries, entry ≠ [] ∧ (0 : UInt8) ∉ entry := by
  have hreplacement : replacement required ≠ [] ∧ (0 : UInt8) ∉ replacement required := by
    have hbytes : replacement required = vermagicPrefix ++ asBytes required := by
      rw [replacement, asBytes, List.flatMap_append]
      rfl
    rw [hbytes]
    refine ⟨List.append_ne_nil_of_left_ne_nil (by decide) _, fun h => ?_⟩
    rcases List.mem_append.mp h with hfixed | hgiven
    · exact absurd hfixed (by decide)
    · exact hrequired hgiven
  induction entries generalizing replaced with
  | nil =>
    cases replaced with
    | false => exact fun entry h => List.mem_singleton.mp h ▸ hreplacement
    | true => exact fun entry h => absurd h List.not_mem_nil
  | cons entry entries ih =>
    have htail := ih fun e he => hentries e (List.mem_cons_of_mem entry he)
    rw [rewriteEntries]
    split_ifs with hempty hentry hreplaced
    · exact htail replaced
    · exact htail replaced
    · exact List.forall_mem_cons.mpr ⟨hreplacement, htail true⟩
    · exact List.forall_mem_cons.mpr ⟨⟨hempty, hentries entry List.mem_cons_self⟩, htail replaced⟩

/-! ### The section -/

/-- The first section that is named `.modinfo`. -/
structure IsModinfo (elf : ElfView) (index : ℕ) (header : SectionHeader) : Prop where
  there : elf.sectionHeaders[index]? = some header
  named : elf.nameAt header.shName = some ".modinfo".toList
  first : ∀ j < index, ∀ other, elf.sectionHeaders[j]? = some other → elf.nameAt other.shName ≠ some ".modinfo".toList

/-- **The loop** comes to that section, -/
theorem findModinfo_of_isModinfo {buffer : List UInt8} {elf : ElfView} {index : ℕ} {header : SectionHeader}
    (h : IsModinfo elf index header) :
    findModinfo buffer elf 0 elf.sectionHeaders = modinfoLocation buffer elf index header := by
  have hloop : ∀ (headers : List SectionHeader) (start index : ℕ), headers[index]? = some header →
      (∀ j < index, ∀ other, headers[j]? = some other → elf.nameAt other.shName ≠ some ".modinfo".toList) →
      findModinfo buffer elf start headers = modinfoLocation buffer elf (start + index) header := by
    intro headers
    induction headers with
    | nil =>
      intro start index hthere
      cases hthere
    | cons other headers ih =>
      intro start index hthere hfirst
      cases index with
      | zero =>
        obtain rfl := Option.some.inj hthere
        rw [findModinfo, if_pos h.named]
        rfl
      | succ index =>
        rw [findModinfo, if_neg (hfirst 0 index.succ_pos other rfl),
          ih (start + 1) index hthere fun j hj other' hother => hfirst (j + 1) (Nat.succ_lt_succ hj) other' hother,
          Nat.add_right_comm]
        rfl
  rw [hloop elf.sectionHeaders 0 index h.there h.first, Nat.zero_add]

/-- or fails where there is none. -/
theorem findModinfo_or (buffer : List UInt8) (elf : ElfView) :
    (∃ index header, IsModinfo elf index header) ∨
      (∀ index header, ¬IsModinfo elf index header) ∧
        findModinfo buffer elf 0 elf.sectionHeaders = .error "Module has no .modinfo section" := by
  by_cases hany : ∃ (index : ℕ) (header : SectionHeader), elf.sectionHeaders[index]? = some header ∧
      elf.nameAt header.shName = some ".modinfo".toList
  · classical
    obtain ⟨header, hthere, hnamed⟩ := Nat.find_spec hany
    exact .inl ⟨Nat.find hany, header, hthere, hnamed, fun j hj other hother hname =>
      Nat.find_min hany hj ⟨other, hother, hname⟩⟩
  · have hloop : ∀ (headers : List SectionHeader) (start : ℕ),
        (∀ header ∈ headers, elf.nameAt header.shName ≠ some ".modinfo".toList) →
        findModinfo buffer elf start headers = .error "Module has no .modinfo section" := by
      intro headers
      induction headers with
      | nil => exact fun _ _ => rfl
      | cons header headers ih =>
        intro start hnone
        rw [findModinfo, if_neg (hnone header List.mem_cons_self)]
        exact ih (start + 1) fun other hother => hnone other (List.mem_cons_of_mem header hother)
    refine .inr ⟨fun index header h => hany ⟨index, header, h.there, h.named⟩, hloop _ 0 fun header hheader hname => hany ?_⟩
    obtain ⟨index, hindex⟩ := List.getElem?_of_mem hheader
    exact ⟨index, header, hindex, hname⟩

/-! ### The size of the new entries -/

/-- The bytes that the rewritten entries take. -/
def entriesSize (required : Str) (modinfo : List UInt8) : ℕ :=
  (modinfoBytes (plainEntries (words (· == 0) modinfo))).length + ((replacement required).length + 1)

theorem modinfoBytes_length (entries : List (List UInt8)) :
    (modinfoBytes entries).length =
      (modinfoBytes (plainEntries entries)).length + (modinfoBytes (entries.filter isVermagic)).length := by
  induction entries with
  | nil => rfl
  | cons entry entries ih =>
    have hcons : ∀ rest, (modinfoBytes (entry :: rest)).length = entry.length + 1 + (modinfoBytes rest).length := by
      intro rest
      rw [modinfoBytes, List.flatMap_cons, List.length_append, List.length_append]
      rfl
    rw [hcons, ih, plainEntries_cons]
    by_cases hentry : isVermagic entry = true
    · rw [if_pos hentry, List.filter_cons_of_pos hentry, hcons]
      omega
    · rw [if_neg hentry, List.filter_cons_of_neg hentry, hcons]
      omega

theorem newModinfo_length (required : Str) (modinfo : List UInt8) :
    (newModinfo required modinfo).length = entriesSize required modinfo := by
  obtain ⟨hone, hplain⟩ := rewriteEntries_spec required (modinfo.splitOnP (· == 0)) false
  have hbytes : modinfoBytes [replacement required] = replacement required ++ [0] := List.flatMap_singleton ..
  rw [newModinfo, modinfoBytes_length, hone, hplain, if_neg Bool.false_ne_true, hbytes, List.length_append]
  rfl

/-! ### The second half -/

theorem reserve_of_le {capacity : ℕ} (h : capacity ≤ ISIZE_MAX) : reserve capacity = .ok () := if_pos h

theorem reserve_of_gt {capacity : ℕ} (h : ¬capacity ≤ ISIZE_MAX) : reserve capacity = .error .panic := if_neg h

section Append

variable {buffer new : List UInt8} {location : ModinfoLocation}

/-- The file with the new entries behind its end. -/
def grown (buffer new : List UInt8) (newOffset : ℕ) : List UInt8 :=
  buffer ++ List.replicate (newOffset - buffer.length) 0 ++ new

theorem grown_length (new : List UInt8) {newOffset : ℕ} (h : buffer.length ≤ newOffset) :
    (grown buffer new newOffset).length = newOffset + new.length := by
  rw [grown, List.length_append, List.length_append, List.length_replicate, Nat.add_sub_cancel' h]

/-- **What the second half leaves**, where it does not panic. -/
theorem appendModinfo_eq (location : ModinfoLocation)
    (hfits : ∀ newOffset, alignUp buffer.length location.alignment = .ok newOffset →
      newOffset + new.length ≤ ISIZE_MAX ∧ location.sectionHeaderOffset + 0x18 < 2 ^ 64) :
    appendModinfo buffer location new ≠ .error .panic ∧
      ∀ out, appendModinfo buffer location new = .ok out → ∃ newOffset,
        alignUp buffer.length location.alignment = .ok newOffset ∧
          newOffset + new.length ≤ ISIZE_MAX ∧ location.sectionHeaderOffset + 0x28 ≤ newOffset + new.length ∧
            out = patch (patch (grown buffer new newOffset) (location.sectionHeaderOffset + 0x18)
              (wordBytes location.littleEndian newOffset)) (location.sectionHeaderOffset + 0x20)
                (wordBytes location.littleEndian new.length) := by
  rw [appendModinfo]
  cases halign : alignUp buffer.length location.alignment with
  | error e => exact ⟨reported_ne_panic (.error e), fun out h => by cases h⟩
  | ok newOffset =>
    obtain ⟨hmax, hfield⟩ := hfits newOffset halign
    have hlength := grown_length new (alignUp_spec halign).1
    rw [reported_ok, ok_bind, reserve_of_le (Nat.le_of_add_right_le hmax), ok_bind, reserve_of_le hmax, ok_bind,
      usizeAdd_of_lt hfield, ok_bind, ← grown]
    cases hfirst : writeElf64Word (grown buffer new newOffset) (location.sectionHeaderOffset + 0x18) newOffset
        location.littleEndian with
    | error e => exact ⟨reported_ne_panic (.error e), fun out h => by cases h⟩
    | ok first =>
      obtain ⟨hinside, rfl⟩ := writeElf64Word_eq hfirst
      have hsize : location.sectionHeaderOffset + 0x20 < 2 ^ 64 := by
        rw [ISIZE_MAX] at hmax
        omega
      rw [reported_ok, ok_bind, usizeAdd_of_lt hsize, ok_bind]
      refine ⟨reported_ne_panic _, fun out h => ?_⟩
      obtain ⟨hinside', rfl⟩ := writeElf64Word_eq (reported_eq_ok.mp h)
      rw [patch_length (by rw [wordBytes_length]; exact hinside), hlength] at hinside'
      exact ⟨newOffset, rfl, hmax, hinside', rfl⟩

/-- A file that does not fit in memory makes it panic. -/
theorem appendModinfo_panic {newOffset : ℕ} (halign : alignUp buffer.length location.alignment = .ok newOffset)
    (hunfit : ¬(newOffset + new.length ≤ ISIZE_MAX ∧ location.sectionHeaderOffset + 0x18 < 2 ^ 64)) :
    appendModinfo buffer location new = .error .panic := by
  rw [appendModinfo, halign, reported_ok, ok_bind]
  by_cases hoffset : newOffset ≤ ISIZE_MAX
  · rw [reserve_of_le hoffset, ok_bind]
    by_cases hmax : newOffset + new.length ≤ ISIZE_MAX
    · have hfield : (usizeAdd location.sectionHeaderOffset 0x18 : Panicking String ℕ) = .error .panic :=
        if_neg fun hlt => hunfit ⟨hmax, hlt⟩
      rw [reserve_of_le hmax, ok_bind, hfield, error_bind]
    · rw [reserve_of_gt hmax, error_bind]
  · rw [reserve_of_gt hoffset, error_bind]

end Append

/-! ### The replacement -/

/-- The section headers of a 64-bit file are its words from `e_shoff` on, 64 bytes for each. -/
structure Reports (buffer : List UInt8) (elf : ElfView) : Prop where
  inside : ∀ index header, elf.sectionHeaders[index]? = some header → elf.eShoff + index * 64 + 64 ≤ buffer.length
  offset : ∀ index header, elf.sectionHeaders[index]? = some header →
    word elf.littleEndian (slice buffer (elf.eShoff + index * 64 + 0x18) 8) = header.shOffset
  size : ∀ index header, elf.sectionHeaders[index]? = some header →
    word elf.littleEndian (slice buffer (elf.eShoff + index * 64 + 0x20) 8) = header.shSize
  addralign : ∀ index header, elf.sectionHeaders[index]? = some header →
    word elf.littleEndian (slice buffer (elf.eShoff + index * 64 + 0x30) 8) = header.shAddralign

/-- What the replacement leaves of a file, where the section is now at `newOffset`. -/
structure VermagicReplaced (elf : ElfView) (index : ℕ) (header : SectionHeader) (buffer : List UInt8) (required : Str)
    (out : List UInt8) (newOffset newSize : ℕ) : Prop where
  offsetField : word elf.littleEndian (slice out (elf.eShoff + index * 64 + 0x18) 8) = newOffset
  sizeField : word elf.littleEndian (slice out (elf.eShoff + index * 64 + 0x20) 8) = newSize
  appended : buffer.length ≤ newOffset
  inside : newOffset + newSize ≤ out.length
  aligned : newOffset % max header.shAddralign 1 = 0
  vermagic : (words (· == 0) (slice out newOffset newSize)).filter isVermagic = [replacement required]
  others : plainEntries (words (· == 0) (slice out newOffset newSize)) =
    plainEntries (words (· == 0) (slice buffer header.shOffset header.shSize))
  unchanged : ∀ i < buffer.length, i < elf.eShoff + index * 64 + 0x18 ∨ elf.eShoff + index * 64 + 0x28 ≤ i →
    out[i]? = buffer[i]?

/-- What the replacement does to a file: it does not panic, and where it succeeds on a file with section headers of
64 bytes it changes nothing else. -/
def Replaces (parse : List UInt8 → Except String ElfView) (buffer : List UInt8) (required : Str) : Prop :=
  replaceModuleVermagic parse buffer required ≠ .error .panic ∧
    ∀ out elf, replaceModuleVermagic parse buffer required = .ok out → parse buffer = .ok elf → elf.eShentsize = 64 →
      ∃ index header newOffset newSize, IsModinfo elf index header ∧
        VermagicReplaced elf index header buffer required out newOffset newSize

/-- The rewritten file can be held in memory: where `.modinfo` is in the file, its new entries, and the file up to the
aligned offset together with them, are no longer than `isize::MAX`. -/
def Holdable (parse : List UInt8 → Except String ElfView) (buffer : List UInt8) (required : Str) : Prop :=
  ∀ elf, parse buffer = .ok elf → elf.is64 = true → ∀ index header, IsModinfo elf index header →
    header.shOffset + header.shSize ≤ buffer.length → elf.eShoff + index * elf.eShentsize < 2 ^ 64 →
      entriesSize required (slice buffer header.shOffset header.shSize) ≤ ISIZE_MAX ∧
        ∀ newOffset, alignUp buffer.length (max header.shAddralign 1) = .ok newOffset →
          newOffset + entriesSize required (slice buffer header.shOffset header.shSize) ≤ ISIZE_MAX ∧
            elf.eShoff + index * elf.eShentsize + 0x18 < 2 ^ 64

section Replace

variable {parse : List UInt8 → Except String ElfView} {buffer : List UInt8} {required : Str} {elf : ElfView}
  {index : ℕ} {header : SectionHeader}

/-- The words between NULs hold no NUL. -/
theorem words_newModinfo (hrequired : (0 : UInt8) ∉ asBytes required) (modinfo : List UInt8) :
    words (· == 0) (newModinfo required modinfo) = rewriteEntries required false (modinfo.splitOnP (· == 0)) := by
  refine words_modinfoBytes (rewriteEntries_clear hrequired (fun entry hentry hzero => ?_) false)
  exact absurd (of_mem_splitOnP hentry hzero).2 (by decide)

/-- Where the section is found. -/
def locationOf (elf : ElfView) (index : ℕ) (header : SectionHeader) : ModinfoLocation where
  offset := header.shOffset
  size := header.shSize
  sectionHeaderOffset := elf.eShoff + index * elf.eShentsize
  alignment := max header.shAddralign 1
  littleEndian := elf.littleEndian

theorem modinfoLocation_of_le (hbuffer : buffer.length ≤ ISIZE_MAX)
    (hin : header.shOffset + header.shSize ≤ buffer.length) (hat : elf.eShoff + index * elf.eShentsize < 2 ^ 64) :
    modinfoLocation buffer elf index header = .ok (locationOf elf index header) := by
  rw [ISIZE_MAX] at hbuffer
  rw [modinfoLocation, if_neg (by omega), if_neg (by omega), if_neg (by omega), if_neg (by omega)]
  rfl

/-- Else an error is reported. -/
theorem modinfoLocation_or (buffer : List UInt8) (elf : ElfView) (index : ℕ) (header : SectionHeader) :
    (header.shOffset + header.shSize ≤ buffer.length ∧ elf.eShoff + index * elf.eShentsize < 2 ^ 64) ∨
      ∃ e, modinfoLocation buffer elf index header = .error e := by
  rw [modinfoLocation]
  split_ifs with hrange houtside hindex hoffset
  · exact .inr ⟨_, rfl⟩
  · exact .inr ⟨_, rfl⟩
  · exact .inr ⟨_, rfl⟩
  · exact .inr ⟨_, rfl⟩
  · exact .inl ⟨Nat.not_lt.mp houtside, Nat.not_le.mp hoffset⟩

/-- Once the section is found. -/
theorem replaceModuleVermagic_of_location (hbuffer : buffer.length ≤ ISIZE_MAX) (hparse : parse buffer = .ok elf)
    (h64 : elf.is64 = true) (hmodinfo : IsModinfo elf index header)
    (hin : header.shOffset + header.shSize ≤ buffer.length) (hat : elf.eShoff + index * elf.eShentsize < 2 ^ 64) :
    replaceModuleVermagic parse buffer required =
      (do
        reserve (max (slice buffer header.shOffset header.shSize).length ((replacement required).length + 1))
        reserve (newModinfo required (slice buffer header.shOffset header.shSize)).length
        appendModinfo buffer (locationOf elf index header)
          (newModinfo required (slice buffer header.shOffset header.shSize))) := by
  have hsum : header.shOffset + header.shSize < 2 ^ 64 := by
    rw [ISIZE_MAX] at hbuffer
    omega
  have hnot : ¬elf.is64 = false := by rw [h64]; exact Bool.noConfusion
  have hold : subslice buffer header.shOffset (header.shOffset + header.shSize) =
      (.ok (slice buffer header.shOffset header.shSize) : Panicking String _) := by
    rw [subslice_of_le (Nat.le_add_right _ _) hin, Nat.add_sub_cancel_left]
  rw [replaceModuleVermagic, hparse, reported_ok, ok_bind, if_neg hnot, findModinfo_of_isModinfo hmodinfo,
    modinfoLocation_of_le hbuffer hin hat, reported_ok]
  show (usizeAdd header.shOffset header.shSize >>= _) = _
  rw [usizeAdd_of_lt hsum, ok_bind]
  show (subslice buffer header.shOffset (header.shOffset + header.shSize) >>= _) = _
  rw [hold, ok_bind]

/-- The two reservations before the second half. -/
theorem reserved_of_le {rest : Panicking String (List UInt8)} (hbuffer : buffer.length ≤ ISIZE_MAX)
    (hfits : entriesSize required (slice buffer header.shOffset header.shSize) ≤ ISIZE_MAX) :
    (do
      reserve (max (slice buffer header.shOffset header.shSize).length ((replacement required).length + 1))
      reserve (newModinfo required (slice buffer header.shOffset header.shSize)).length
      rest) = rest := by
  have hold : (slice buffer header.shOffset header.shSize).length ≤ ISIZE_MAX := by
    rw [slice_length]
    omega
  have hreplacement : (replacement required).length + 1 ≤ ISIZE_MAX := (Nat.le_add_left _ _).trans hfits
  rw [reserve_of_le (max_le hold hreplacement), ok_bind, newModinfo_length, reserve_of_le hfits, ok_bind]

theorem reserved_of_gt {rest : Panicking String (List UInt8)}
    (hunfit : ¬entriesSize required (slice buffer header.shOffset header.shSize) ≤ ISIZE_MAX) :
    (do
      reserve (max (slice buffer header.shOffset header.shSize).length ((replacement required).length + 1))
      reserve (newModinfo required (slice buffer header.shOffset header.shSize)).length
      rest) = .error .panic := by
  rw [newModinfo_length, reserve_of_gt hunfit, error_bind]
  by_cases h : max (slice buffer header.shOffset header.shSize).length ((replacement required).length + 1) ≤ ISIZE_MAX
  · rw [reserve_of_le h, ok_bind]
  · rw [reserve_of_gt h, error_bind]

/-- **Nothing else changes**: the header's two fields are in the old file, and the new entries behind it. -/
theorem vermagicReplaced_of_patch (hreports : Reports buffer elf) (hrequired : (0 : UInt8) ∉ asBytes required)
    (hthere : elf.sectionHeaders[index]? = some header) (hentry : elf.eShentsize = 64) {new : List UInt8}
    {newOffset : ℕ} (hnew : new = newModinfo required (slice buffer header.shOffset header.shSize))
    (halign : alignUp buffer.length (max header.shAddralign 1) = .ok newOffset)
    (hmax : newOffset + new.length ≤ ISIZE_MAX) :
    VermagicReplaced elf index header buffer required
      (patch (patch (grown buffer new newOffset) (elf.eShoff + index * elf.eShentsize + 0x18)
        (wordBytes elf.littleEndian newOffset)) (elf.eShoff + index * elf.eShentsize + 0x20)
          (wordBytes elf.littleEndian new.length)) newOffset new.length := by
  rw [hentry]
  obtain ⟨happended, -, haligned⟩ := alignUp_spec halign
  rw [max_assoc, max_self] at haligned
  have hheader := hreports.inside index header hthere
  have hlength := grown_length new happended
  have hfirst : elf.eShoff + index * 64 + 0x18 + (wordBytes elf.littleEndian newOffset).length ≤
      (grown buffer new newOffset).length := by
    rw [wordBytes_length]
    omega
  have hlength' := patch_length hfirst
  have hsecond : elf.eShoff + index * 64 + 0x20 + (wordBytes elf.littleEndian new.length).length ≤
      (patch (grown buffer new newOffset) (elf.eShoff + index * 64 + 0x18)
        (wordBytes elf.littleEndian newOffset)).length := by
    rw [wordBytes_length]
    omega
  have hwords : newOffset < 2 ^ 64 ∧ new.length < 2 ^ 64 := by
    rw [ISIZE_MAX] at hmax
    omega
  -- the new entries lie behind both words
  have hslice : slice (patch (patch (grown buffer new newOffset) (elf.eShoff + index * 64 + 0x18)
      (wordBytes elf.littleEndian newOffset)) (elf.eShoff + index * 64 + 0x20) (wordBytes elf.littleEndian new.length)) newOffset
        new.length = new := by
    rw [slice_patch_disjoint hsecond (.inr (by rw [wordBytes_length]; omega)),
      slice_patch_disjoint hfirst (.inr (by rw [wordBytes_length]; omega)), grown]
    have hfront : (buffer ++ List.replicate (newOffset - buffer.length) 0).length = newOffset := by
      rw [List.length_append, List.length_replicate, Nat.add_sub_cancel' happended]
    have hexact := slice_append_exact (buffer ++ List.replicate (newOffset - buffer.length) 0) new [] hfront rfl
    rw [List.append_nil] at hexact
    exact hexact
  obtain ⟨hone, hplain⟩ :=
    rewriteEntries_spec required ((slice buffer header.shOffset header.shSize).splitOnP (· == 0)) false
  have hentries := words_newModinfo hrequired (slice buffer header.shOffset header.shSize)
  refine ⟨?offsetField, ?sizeField, happended, ?inside, haligned, ?vermagic, ?others, ?unchanged⟩
  case offsetField =>
    have hsame := slice_patch_same hfirst
    rw [wordBytes_length] at hsame
    rw [slice_patch_disjoint hsecond (.inl (by omega)), hsame, word_wordBytes _ hwords.1]
  case sizeField =>
    have hsame := slice_patch_same hsecond
    rw [wordBytes_length] at hsame
    rw [hsame, word_wordBytes _ hwords.2]
  case inside =>
    rw [patch_length hsecond, hlength', hlength]
  case vermagic =>
    rw [hslice, hnew, hentries, hone]
    rfl
  case others =>
    rw [hslice, hnew, hentries, hplain]
    rfl
  case unchanged =>
    intro i hi houtside
    rw [getElem?_patch hsecond, if_neg (by rw [wordBytes_length]; omega), getElem?_patch hfirst,
      if_neg (by rw [wordBytes_length]; omega), grown, List.append_assoc, List.getElem?_append_left hi]

/-- An error that is reported is no panic, and changes nothing. -/
theorem replaces_of_error {e : String} (h : replaceModuleVermagic parse buffer required = .error (.error e)) :
    Replaces parse buffer required := by
  rw [Replaces, h]
  constructor
  · intro hpanic
    cases hpanic
  · intro out elf hout
    cases hout

/-- **The replacement changes nothing else and does not panic exactly when the rewritten file can be held in memory.**
-/
theorem replaceModuleVermagic_iff (parse : List UInt8 → Except String ElfView)
    (hparse : ∀ buffer elf, parse buffer = .ok elf → elf.is64 = true → Reports buffer elf) {buffer : List UInt8}
    (hbuffer : buffer.length ≤ ISIZE_MAX) {required : Str} (hrequired : (0 : UInt8) ∉ asBytes required) :
    Replaces parse buffer required ↔ Holdable parse buffer required := by
  constructor
  · rintro ⟨hpanic, -⟩ elf helf h64 index header hmodinfo hin hat
    rw [replaceModuleVermagic_of_location hbuffer helf h64 hmodinfo hin hat] at hpanic
    have hfits : entriesSize required (slice buffer header.shOffset header.shSize) ≤ ISIZE_MAX := by
      by_contra hunfit
      exact hpanic (reserved_of_gt hunfit)
    rw [reserved_of_le hbuffer hfits] at hpanic
    refine ⟨hfits, fun newOffset halign => ?_⟩
    by_contra hunfit
    rw [← newModinfo_length] at hunfit
    exact hpanic (appendModinfo_panic halign hunfit)
  · intro hholdable
    cases helf : parse buffer with
    | error e =>
      have hresult : replaceModuleVermagic parse buffer required = .error (.error e) := by
        rw [replaceModuleVermagic, helf]
        rfl
      exact replaces_of_error hresult
    | ok elf =>
      cases h64 : elf.is64 with
      | false =>
        have hresult : replaceModuleVermagic parse buffer required =
            .error (.error "Only ELF64 modules are supported") := by
          rw [replaceModuleVermagic, helf, reported_ok, ok_bind, if_pos h64]
          rfl
        exact replaces_of_error hresult
      | true =>
        have hnot : ¬elf.is64 = false := by rw [h64]; exact Bool.noConfusion
        -- a search that fails reports its error
        have hfails : ∀ e, findModinfo buffer elf 0 elf.sectionHeaders = .error e →
            replaceModuleVermagic parse buffer required = .error (.error e) := by
          intro e he
          rw [replaceModuleVermagic, helf, reported_ok, ok_bind, if_neg hnot, he]
          rfl
        rcases findModinfo_or buffer elf with ⟨index, header, hmodinfo⟩ | ⟨-, hnone⟩
        · rcases modinfoLocation_or buffer elf index header with ⟨hin, hat⟩ | ⟨e, he⟩
          · obtain ⟨hfits, hfile⟩ := hholdable elf helf h64 index header hmodinfo hin hat
            rw [← newModinfo_length] at hfile
            obtain ⟨hpanic, hok⟩ := appendModinfo_eq (locationOf elf index header) hfile
            rw [Replaces, replaceModuleVermagic_of_location hbuffer helf h64 hmodinfo hin hat,
              reserved_of_le hbuffer hfits]
            refine ⟨hpanic, fun out elf' hout helf' hentry => ?_⟩
            obtain rfl := Except.ok.inj (helf.symm.trans helf')
            obtain ⟨newOffset, halign, hmax, -, rfl⟩ := hok out hout
            exact ⟨index, header, newOffset, _, hmodinfo,
              vermagicReplaced_of_patch (hparse buffer elf helf h64) hrequired hmodinfo.there hentry rfl halign hmax⟩
          · exact replaces_of_error (hfails e ((findModinfo_of_isModinfo hmodinfo).trans he))
        · exact replaces_of_error (hfails _ hnone)

end Replace

/-! ### A small module -/

/-- One header of the section table of a little-endian file. -/
def readHeader (buffer : List UInt8) (place : ℕ) : SectionHeader where
  shName := decodeLE (slice buffer place 4)
  shOffset := decodeLE (slice buffer (place + 0x18) 8)
  shSize := decodeLE (slice buffer (place + 0x20) 8)
  shAddralign := decodeLE (slice buffer (place + 0x30) 8)

/-- A parser for little-endian files whose section table is in the file. -/
def parseSmall (buffer : List UInt8) : Except String ElfView :=
  let eShoff := decodeLE (slice buffer 0x28 8)
  let count := decodeLE (slice buffer 0x3c 2)
  let headers := (List.range count).map fun index => readHeader buffer (eShoff + index * 64)
  if buffer.take 4 ≠ [0x7f, 0x45, 0x4c, 0x46] ∨ buffer[5]? ≠ some 1 then .error "bad magic"
  else if buffer.length < eShoff + count * 64 then .error "bad section table"
  else match headers[decodeLE (slice buffer 0x3e 2)]? with
    | none => .error "bad section index"
    | some strtab => .ok {
      is64 := buffer[4]? = some 2
      littleEndian := true
      eShoff := eShoff
      eShentsize := decodeLE (slice buffer 0x3a 2)
      sectionHeaders := headers
      nameAt := fun name => fromUtf8 (cString (buffer.drop (strtab.shOffset + name))) }

theorem parseSmall_reports (buffer : List UInt8) (elf : ElfView) (h : parseSmall buffer = .ok elf) :
    Reports buffer elf := by
  rw [parseSmall] at h
  split_ifs at h with hmagic htable
  cases hstrtab : ((List.range (decodeLE (slice buffer 0x3c 2))).map fun index =>
      readHeader buffer (decodeLE (slice buffer 0x28 8) + index * 64))[decodeLE (slice buffer 0x3e 2)]? with
  | none =>
    rw [hstrtab] at h
    cases h
  | some strtab =>
    rw [hstrtab] at h
    obtain rfl := Except.ok.inj h
    have hread : ∀ (index : ℕ) (header : SectionHeader), ((List.range (decodeLE (slice buffer 0x3c 2))).map fun index =>
        readHeader buffer (decodeLE (slice buffer 0x28 8) + index * 64))[index]? = some header →
        index < decodeLE (slice buffer 0x3c 2) ∧
          header = readHeader buffer (decodeLE (slice buffer 0x28 8) + index * 64) := by
      intro index header hheader
      rw [List.getElem?_map, Option.map_eq_some_iff] at hheader
      obtain ⟨i, hi, rfl⟩ := hheader
      obtain ⟨hlt, rfl⟩ := List.getElem?_eq_some_iff.mp hi
      rw [List.length_range] at hlt
      exact ⟨hlt, by rw [List.getElem_range]⟩
    refine ⟨fun index header hheader => ?inside, fun index header hheader => ?offset, fun index header hheader => ?size,
      fun index header hheader => ?addralign⟩
    case inside =>
      obtain ⟨hlt, -⟩ := hread index header hheader
      show decodeLE (slice buffer 0x28 8) + index * 64 + 64 ≤ buffer.length
      omega
    case offset =>
      rw [(hread index header hheader).2]
      rfl
    case size =>
      rw [(hread index header hheader).2]
      rfl
    case addralign =>
      rw [(hread index header hheader).2]
      rfl

/-- The bytes of a section header. -/
def headerBytes (name offset size addralign : ℕ) : List UInt8 :=
  encodeLE 4 name ++ List.replicate 20 0 ++ encodeLE 8 offset ++ encodeLE 8 size ++ List.replicate 8 0 ++
    encodeLE 8 addralign ++ List.replicate 8 0

/-- A module with a `.modinfo` of two entries, and the alignment that its header asks for. -/
def smallModule (addralign : ℕ) : List UInt8 :=
  [0x7f, 0x45, 0x4c, 0x46, 2, 1] ++ List.replicate 34 0 ++ encodeLE 8 89 ++ List.replicate 10 0 ++
    encodeLE 2 64 ++ encodeLE 2 2 ++ encodeLE 2 1 ++
    asBytes ".modinfo\x00".toList ++ asBytes "a=bc\x00vermagic=1\x00".toList ++
    headerBytes 0 73 16 addralign ++ headerBytes 8 64 9 1

/-- What its headers say. -/
theorem parseSmall_smallModule {elf : ElfView} (helf : parseSmall (smallModule 1) = .ok elf) :
    elf.eShoff = 89 ∧ elf.eShentsize = 64 ∧ elf.sectionHeaders = [⟨0, 73, 16, 1⟩, ⟨8, 64, 9, 1⟩] := by
  have hview : (parseSmall (smallModule 1)).map (fun elf => (elf.eShoff, elf.eShentsize, elf.sectionHeaders)) =
      .ok (89, 64, [⟨0, 73, 16, 1⟩, ⟨8, 64, 9, 1⟩]) := by decide +kernel
  rw [helf] at hview
  obtain ⟨hoff, hrest⟩ := Prod.mk.inj (Except.ok.inj hview)
  exact ⟨hoff, Prod.mk.inj hrest⟩

theorem holdable_smallModule : Holdable parseSmall (smallModule 1) "2".toList := by
  intro elf helf _ index header hmodinfo _ _
  obtain ⟨hoff, hentry, hheaders⟩ := parseSmall_smallModule helf
  have hthere := hmodinfo.there
  rw [hheaders] at hthere
  have hindex : index < 2 := (List.getElem?_eq_some_iff.mp hthere).1
  have hsmall : ∀ header ∈ [SectionHeader.mk 0 73 16 1, ⟨8, 64, 9, 1⟩], header.shAddralign = 1 ∧
      entriesSize "2".toList (slice (smallModule 1) header.shOffset header.shSize) ≤ 100 := by decide +kernel
  obtain ⟨haddralign, hsize⟩ := hsmall header (List.mem_of_getElem? hthere)
  have hlength : (smallModule 1).length < 300 := by decide +kernel
  refine ⟨hsize.trans (by decide), fun newOffset halign => ⟨?_, by rw [hentry]; omega⟩⟩
  rw [haddralign] at halign
  have hoffset := (alignUp_spec halign).2.1
  have hmax : max (max 1 1) 1 = 1 := rfl
  have hisize : 500 ≤ ISIZE_MAX := by decide
  omega

/-- A module that can be rewritten, and what its `.modinfo` becomes. -/
theorem replaceModuleVermagic_iff_small :
    Holdable parseSmall (smallModule 1) "2".toList ∧ Replaces parseSmall (smallModule 1) "2".toList ∧
      ∃ out, replaceModuleVermagic parseSmall (smallModule 1) "2".toList = .ok out ∧
        out.drop (smallModule 1).length = asBytes "a=bc\x00vermagic=2\x00".toList := by
  have hreplaces : Replaces parseSmall (smallModule 1) "2".toList :=
    (replaceModuleVermagic_iff parseSmall (fun buffer elf h _ => parseSmall_reports buffer elf h) (by decide +kernel)
      (by decide)).mpr holdable_smallModule
  have hrun : (replaceModuleVermagic parseSmall (smallModule 1) "2".toList).toOption.map
      (List.drop (smallModule 1).length) = some (asBytes "a=bc\x00vermagic=2\x00".toList) := by decide +kernel
  cases hout : replaceModuleVermagic parseSmall (smallModule 1) "2".toList with
  | error e =>
    rw [hout] at hrun
    cases hrun
  | ok out =>
    rw [hout] at hrun
    exact ⟨holdable_smallModule, hreplaces, out, rfl, Option.some.inj hrun⟩

/-- With an alignment of `2 ^ 63` the file cannot grow to the aligned offset. -/
theorem replaceModuleVermagic_panics :
    replaceModuleVermagic parseSmall (smallModule (2 ^ 63)) "2".toList = .error .panic ∧
      ¬Replaces parseSmall (smallModule (2 ^ 63)) "2".toList := by
  have hpanic : replaceModuleVermagic parseSmall (smallModule (2 ^ 63)) "2".toList = .error .panic := by
    decide +kernel
  exact ⟨hpanic, fun h => h.1 hpanic⟩

end KernelSU.Ksuinit
