import KernelSU.Lib.Memory
import KernelSU.LkmImage.Capsule

/-!
# `userspace/ksud/src/lkm_image_bootstrap.S`: the capsule checks and the fixup loop

The bootstrap compares the header of the capsule, to which `x23` points, with the constants that were linked
in, copies the module into memory from `vmalloc` and patches the symbols that the fixups name in the copy.

Registers are 64-bit words; the constants are linked as literals, and `ksu_image_base` is an address of the
running kernel.  `vmalloc` and `memcpy` are the kernel's: what `vmalloc` returns and leaves in memory is a
parameter.
-/

namespace KernelSU.LkmImage

open KernelSU.Lib KernelSU.Lib.Bytes

/-- The registers that the code uses after the calls, and memory. -/
structure BootState where
  x8 : ℕ
  x9 : ℕ
  x10 : ℕ
  x11 : ℕ
  x19 : ℕ
  x20 : ℕ
  x21 : ℕ
  x22 : ℕ
  x23 : ℕ
  mem : Memory

/-- `add` of 64-bit registers. -/
def add64 (a b : ℕ) : ℕ := (a + b) % 2 ^ 64

/-- A comparison of the header: `ldr` of `size` bytes at `offset` from `x23` against a literal. -/
def headerWord (s : BootState) (offset size : ℕ) : ℕ := s.mem.word (add64 s.x23 offset) size

/-- The comparisons, each of which branches to `.Lbootstrap_out` when it fails. -/
def capsuleAccepted (d : BootDefinitions) (s : BootState) : Bool :=
  headerWord s 0 8 == d.capsuleMagic &&
  headerWord s 8 4 == d.capsuleVersion &&
  headerWord s 12 4 == d.capsuleHeaderSize &&
  headerWord s 16 8 == d.capsuleSize &&
  headerWord s 24 8 == d.moduleCapsuleOffset &&
  headerWord s 32 8 == d.moduleSize &&
  headerWord s 40 8 == d.fixupCapsuleOffset &&
  headerWord s 48 8 == d.fixupCount

/-- One turn of `.Lfixup_loop`, up to its branch. -/
def fixupBody (s : BootState) : BootState :=
  let s := { s with x8 := s.mem.word s.x20 4 }
  let s := { s with x9 := s.mem.word (add64 s.x20 8) 8 }
  let s := { s with x10 := add64 s.x19 s.x8 }
  let s := { s with x11 := SHN_ABS }
  -- `st_shndx`
  let s := { s with mem := s.mem.store (add64 s.x10 6) (encodeLE 2 s.x11) }
  let s := { s with x9 := add64 s.x22 s.x9 }
  -- `st_value`
  let s := { s with mem := s.mem.store (add64 s.x10 8) (encodeLE 8 s.x9) }
  let s := { s with x20 := add64 s.x20 16 }
  { s with x21 := (s.x21 + 2 ^ 64 - 1) % 2 ^ 64 }

/-- `.Lfixup_loop`: at most `fuel` turns; how many it takes and where it leaves off. -/
def fixupLoop : ℕ → BootState → Option (ℕ × BootState)
  | 0, _ => none
  | fuel + 1, s =>
    if (fixupBody s).x21 = 0 then some (1, fixupBody s)
    else (fixupLoop fuel (fixupBody s)).map fun r => (r.1 + 1, r.2)

/-- How the bootstrap gets to `.Lbootstrap_out` or to `.Lfixups_done`. -/
inductive BootOutcome
  | rejected
  | noMemory
  | fixupsDone (turns : ℕ) (s : BootState)

/-- The call `vmalloc(ksu_module_size)`: what it returns and how it leaves memory. -/
structure Vmalloc where
  result : ℕ
  mem : Memory

/-- From the checks of the header to `.Lfixups_done`; `none` is a loop that takes more than `fuel` turns. -/
def bootstrap (d : BootDefinitions) (imageBase : ℕ) (vmalloc : Vmalloc) (fuel : ℕ) (s : BootState) :
    Option BootOutcome :=
  if !capsuleAccepted d s then some .rejected
  else
    if vmalloc.result = 0 then some .noMemory
    else
      let s := { s with x19 := vmalloc.result, mem := vmalloc.mem }
      -- `memcpy(x19, x23 + ksu_module_capsule_offset, ksu_module_size)`
      let s := { s with
        mem := s.mem.store s.x19 (s.mem.bytesAt (add64 s.x23 d.moduleCapsuleOffset) d.moduleSize) }
      let s := { s with x20 := add64 s.x23 d.fixupCapsuleOffset }
      let s := { s with x21 := d.fixupCount }
      let s := { s with x22 := imageBase }
      if s.x21 = 0 then some (.fixupsDone 0 s)
      else (fixupLoop fuel s).map fun r => .fixupsDone r.1 r.2

/-! ### What the bootstrap is for -/

/-- The fields `st_shndx` and `st_value` of a symbol, which lie next to each other. -/
def fixupBytes (imageBase : ℕ) (fixup : Fixup) : List UInt8 :=
  encodeLE 2 SHN_ABS ++ encodeLE 8 (add64 imageBase fixup.kernelOffset)

/-- A module with a fixup applied. -/
def applyFixup (imageBase : ℕ) (module : List UInt8) (fixup : Fixup) : List UInt8 :=
  patch module (fixup.symbolFileOffset + 6) (fixupBytes imageBase fixup)

/-- A module with all fixups applied in turn. -/
def applyFixups (imageBase : ℕ) (module : List UInt8) (fixups : List Fixup) : List UInt8 :=
  fixups.foldl (applyFixup imageBase) module

/-- The fields of two symbols do not meet. -/
def Fixup.Apart (f g : Fixup) : Prop :=
  f.symbolFileOffset + 10 ≤ g.symbolFileOffset ∨ g.symbolFileOffset + 10 ≤ f.symbolFileOffset

instance (f g : Fixup) : Decidable (f.Apart g) := inferInstanceAs (Decidable (_ ∨ _))

/-- Memory that `vmalloc` hands out holds `size` bytes, apart from the capsule, which is as it was. -/
structure Vmalloc.Sound (vmalloc : Vmalloc) (size : ℕ) (s : BootState) (capsuleSize : ℕ) : Prop where
  fits : vmalloc.result + size ≤ 2 ^ 64
  apart : vmalloc.result + size ≤ s.x23 ∨ s.x23 + capsuleSize ≤ vmalloc.result
  keeps : ∀ a, s.x23 ≤ a → a < s.x23 + capsuleSize → vmalloc.mem a = s.mem a

end KernelSU.LkmImage
