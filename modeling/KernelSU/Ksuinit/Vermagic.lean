import KernelSU.Lib.Panicking
import KernelSU.Lib.Text
import KernelSU.Ksud.Sepolicy

/-!
# `userspace/ksuinit/src/lib.rs`: replacing a module's vermagic

`replace_module_vermagic` writes the entries of `.modinfo` anew behind the end of the file, with the version magic
that the kernel asked for, and points the section's header there.

The ELF parser is a parameter, and `ElfView` what this function reads of its result.  A vector that would grow past
`isize::MAX` panics, and so does an addition past the end of a 64-bit word that nothing checks.

* `alignUp_spec` — **PROVED**: an offset is rounded up to the next multiple;
* `writeElf64Word_eq` — **PROVED**: a word is written in place or not at all;
* `words_modinfoBytes` — **PROVED**: the entries that are written are read back.
-/

namespace KernelSU.Ksuinit

open KernelSU.Lib KernelSU.Lib.Bytes KernelSU.Ksud

/-- `isize::MAX`, which no vector exceeds. -/
def ISIZE_MAX : ℕ := 2 ^ 63 - 1

/-! ### The parsed file -/

/-- The fields of a `SectionHeader` that are read. -/
structure SectionHeader where
  shName : ℕ
  shOffset : ℕ
  shSize : ℕ
  shAddralign : ℕ
  deriving DecidableEq, Repr

/-- What is read of an `Elf`; `nameAt` is `shdr_strtab.get_at`. -/
structure ElfView where
  is64 : Bool
  littleEndian : Bool
  eShoff : ℕ
  eShentsize : ℕ
  sectionHeaders : List SectionHeader
  nameAt : ℕ → Option Str

/-- The value of the bytes of a word. -/
def word (littleEndian : Bool) (bytes : List UInt8) : ℕ := decodeLE (if littleEndian then bytes else bytes.reverse)

/-- `u64::to_le_bytes` or `u64::to_be_bytes`. -/
def wordBytes (littleEndian : Bool) (value : ℕ) : List UInt8 :=
  if littleEndian then encodeLE 8 value else (encodeLE 8 value).reverse

@[simp] theorem wordBytes_length (littleEndian : Bool) (value : ℕ) : (wordBytes littleEndian value).length = 8 := by
  rw [wordBytes]
  split_ifs
  · exact encodeLE_length 8 value
  · rw [List.length_reverse, encodeLE_length]

theorem word_wordBytes (littleEndian : Bool) {value : ℕ} (h : value < 2 ^ 64) :
    word littleEndian (wordBytes littleEndian value) = value := by
  rw [word, wordBytes]
  split_ifs
  · exact decodeLE_encodeLE_of_lt 8 value h
  · rw [List.reverse_reverse]
    exact decodeLE_encodeLE_of_lt 8 value h

/-! ### Alignment and words -/

/-- `align_up`; the mask of a power of two leaves the multiple below. -/
def alignUp (value alignment : ℕ) : Except String ℕ :=
  let alignment := max alignment 1
  if ¬alignment.isPowerOfTwo then .error ("Invalid ELF alignment: " ++ toString alignment)
  else if 2 ^ 64 ≤ value + (alignment - 1) then .error "ELF alignment overflow"
  else .ok (value + (alignment - 1) - (value + (alignment - 1)) % alignment)

/-- **An offset is rounded up** to the next multiple of the alignment. -/
theorem alignUp_spec {value alignment offset : ℕ} (h : alignUp value alignment = .ok offset) :
    value ≤ offset ∧ offset < value + max alignment 1 ∧ offset % max alignment 1 = 0 := by
  rw [alignUp] at h
  split_ifs at h with hpower hsum
  have hpos : 0 < max alignment 1 := Nat.lt_of_lt_of_le Nat.one_pos (Nat.le_max_right _ _)
  have hoffset := Except.ok.inj h
  have hmod := Nat.mod_lt (value + (max alignment 1 - 1)) hpos
  have hle := Nat.mod_le (value + (max alignment 1 - 1)) (max alignment 1)
  refine ⟨by omega, by omega, ?_⟩
  rw [← hoffset]
  exact Nat.mod_eq_zero_of_dvd (Nat.dvd_sub_mod _)

/-- `write_elf64_word`. -/
def writeElf64Word (buffer : List UInt8) (offset value : ℕ) (littleEndian : Bool) : Except String (List UInt8) :=
  if 2 ^ 64 ≤ offset + 8 then .error "ELF write overflow"
  else if buffer.length < offset + 8 then .error "ELF write outside module buffer"
  else .ok (patch buffer offset (wordBytes littleEndian value))

/-- **A word is written** in place or not at all. -/
theorem writeElf64Word_eq {buffer buffer' : List UInt8} {offset value : ℕ} {littleEndian : Bool}
    (h : writeElf64Word buffer offset value littleEndian = .ok buffer') :
    offset + 8 ≤ buffer.length ∧ buffer' = patch buffer offset (wordBytes littleEndian value) := by
  rw [writeElf64Word] at h
  split_ifs at h with hoverflow houtside
  exact ⟨Nat.not_lt.mp houtside, (Except.ok.inj h).symm⟩

/-! ### Entries -/

/-- `b"vermagic="`. -/
def vermagicPrefix : List UInt8 := asBytes "vermagic=".toList

/-- `format!("vermagic={required_vermagic}")`. -/
def replacement (required : Str) : List UInt8 := asBytes ("vermagic=".toList ++ required)

/-- The loop over the entries of `.modinfo`, and the entry behind it: the first version magic is replaced, further ones
are dropped, and one is added where there was none. -/
def rewriteEntries (required : Str) : Bool → List (List UInt8) → List (List UInt8)
  | replaced, [] => if replaced then [] else [replacement required]
  | replaced, entry :: entries =>
    if entry = [] then rewriteEntries required replaced entries
    else if vermagicPrefix <+: entry then
      if replaced then rewriteEntries required replaced entries
      else replacement required :: rewriteEntries required true entries
    else entry :: rewriteEntries required replaced entries

/-- The entries as they are written, each with its NUL. -/
def modinfoBytes (entries : List (List UInt8)) : List UInt8 := entries.flatMap fun entry => entry ++ [0]

/-- `new_modinfo`. -/
def newModinfo (required : Str) (oldModinfo : List UInt8) : List UInt8 :=
  modinfoBytes (rewriteEntries required false (oldModinfo.splitOnP (· == 0)))

/-- **The entries that are written are read back.** -/
theorem words_modinfoBytes {entries : List (List UInt8)} (h : ∀ entry ∈ entries, entry ≠ [] ∧ (0 : UInt8) ∉ entry) :
    words (· == 0) (modinfoBytes entries) = entries := by
  induction entries with
  | nil => rfl
  | cons entry entries ih =>
    obtain ⟨hne, hnul⟩ := h entry List.mem_cons_self
    have hbytes : modinfoBytes (entry :: entries) = entry ++ 0 :: modinfoBytes entries := by
      rw [modinfoBytes, List.flatMap_cons, List.append_assoc]
      rfl
    have hclear : ∀ b ∈ entry, (b == 0) = false := fun b hb => beq_eq_false_iff_ne.mpr fun hzero => hnul (hzero ▸ hb)
    rw [hbytes, words_append hclear hne rfl, ih fun e he => h e (List.mem_cons_of_mem entry he)]

/-! ### The replacement -/

/-- `struct ModinfoLocation`. -/
structure ModinfoLocation where
  offset : ℕ
  size : ℕ
  sectionHeaderOffset : ℕ
  alignment : ℕ
  littleEndian : Bool

/-- What the loop over the sections computes for `.modinfo`. -/
def modinfoLocation (buffer : List UInt8) (elf : ElfView) (index : ℕ) (sectionHeader : SectionHeader) :
    Except String ModinfoLocation :=
  if 2 ^ 64 ≤ sectionHeader.shOffset + sectionHeader.shSize then .error ".modinfo range overflow"
  else if sectionHeader.shOffset + sectionHeader.shSize > buffer.length then .error ".modinfo is outside module buffer"
  else if 2 ^ 64 ≤ index * elf.eShentsize then .error "Section index overflow"
  else if 2 ^ 64 ≤ elf.eShoff + index * elf.eShentsize then .error "Section header offset overflow"
  else .ok {
    offset := sectionHeader.shOffset
    size := sectionHeader.shSize
    sectionHeaderOffset := elf.eShoff + index * elf.eShentsize
    alignment := max sectionHeader.shAddralign 1
    littleEndian := elf.littleEndian }

/-- The loop over the sections from `index` on: the first that is named `.modinfo` counts. -/
def findModinfo (buffer : List UInt8) (elf : ElfView) : ℕ → List SectionHeader → Except String ModinfoLocation
  | _, [] => .error "Module has no .modinfo section"
  | index, sectionHeader :: sections =>
    if elf.nameAt sectionHeader.shName = some ".modinfo".toList then modinfoLocation buffer elf index sectionHeader
    else findModinfo buffer elf (index + 1) sections

/-- `Vec::with_capacity`, `Vec::resize` and `Vec::extend_from_slice` panic past `isize::MAX`. -/
def reserve (capacity : ℕ) : Panicking String Unit := if capacity ≤ ISIZE_MAX then .ok () else .error .panic

/-- The second half of `replace_module_vermagic`: the new entries go behind the end of the file, and the section header
points there. -/
def appendModinfo (buffer : List UInt8) (location : ModinfoLocation) (new : List UInt8) :
    Panicking String (List UInt8) := do
  let newOffset ← reported (alignUp buffer.length location.alignment)
  reserve newOffset
  reserve (newOffset + new.length)
  let buffer := buffer ++ List.replicate (newOffset - buffer.length) 0 ++ new
  let offsetField ← usizeAdd location.sectionHeaderOffset 0x18
  let buffer ← reported (writeElf64Word buffer offsetField newOffset location.littleEndian)
  let sizeField ← usizeAdd location.sectionHeaderOffset 0x20
  reported (writeElf64Word buffer sizeField new.length location.littleEndian)

/-- `replace_module_vermagic`: the buffer after it. -/
def replaceModuleVermagic (parse : List UInt8 → Except String ElfView) (buffer : List UInt8) (required : Str) :
    Panicking String (List UInt8) := do
  let elf ← reported (parse buffer)
  if elf.is64 = false then reported (.error "Only ELF64 modules are supported")
  let location ← reported (findModinfo buffer elf 0 elf.sectionHeaders)
  let stop ← usizeAdd location.offset location.size
  let oldModinfo ← subslice buffer location.offset stop
  reserve (max oldModinfo.length ((replacement required).length + 1))
  reserve (newModinfo required oldModinfo).length
  appendModinfo buffer location (newModinfo required oldModinfo)

end KernelSU.Ksuinit
