import KernelSU.LkmImage.Capsule

/-!
# `userspace/ksud/src/lkm_image.rs`: the symbols of a kernel image

The kernel's symbol table is a list of names, each a length and as many tokens, with a marker for every 256th name,
and a list of offsets that stand for the addresses in one of two ways.

* `parseKallsymsNameSpans` — where the names are;
* `decodeKallsymsNames` — what they say;
* `decodeKallsymsAddresses` — the addresses.
-/

namespace KernelSU.LkmImage

open KernelSU.Lib KernelSU.Lib.Bytes

def KALLSYMS_ALIGNMENT : ℕ := 8
def KALLSYMS_TOKEN_COUNT : ℕ := 256

/-- `checked_add` and `checked_mul` of `usize` and `u64`. -/
def checked (n : ℕ) : Option ℕ := if n < 2 ^ 64 then some n else none

/-- `data.get(start..end)`. -/
def getRange (data : List UInt8) (start stop : ℕ) : Option (List UInt8) :=
  if start ≤ stop ∧ stop ≤ data.length then some (slice data start (stop - start)) else none

/-! ### Names -/

/-- The length in front of a name, and the position behind it. -/
def readNameLength (image : List UInt8) (markersOffset : ℕ) (uleb128Lengths : Bool) (position : ℕ) :
    Option (ℕ × ℕ) := do
  let length ← (image[position]?).map UInt8.toNat
  let position := position + 1
  if uleb128Lengths ∧ length &&& 0x80 ≠ 0 then
    if position ≥ markersOffset then none
    else
      let high ← (image[position]?).map UInt8.toNat
      if high &&& 0x80 ≠ 0 then none
      else some ((length &&& 0x7f) ||| (high <<< 7), position + 1)
  else some (length, position)

/-- The spans of the last `n` names, of which the first has number `index`, and the position behind them. -/
def nameSpansFrom (image : List UInt8) (namesOffset markersOffset : ℕ) (markers : List ℕ) (uleb128Lengths : Bool) :
    ℕ → ℕ → ℕ → Option (List (ℕ × ℕ) × ℕ)
  | 0, _, position => some ([], position)
  | n + 1, index, position => do
    if index % 256 = 0 ∧ markers[index / 256]? ≠ some (position - namesOffset) then none
    else if position ≥ markersOffset then none
    else
      let (length, position) ← readNameLength image markersOffset uleb128Lengths position
      let stop ← checked (position + length)
      if length = 0 ∨ length > 0x3fff ∨ stop > markersOffset then none
      else
        let (spans, last) ← nameSpansFrom image namesOffset markersOffset markers uleb128Lengths n (index + 1) stop
        some ((position, length) :: spans, last)

/-- `parse_kallsyms_name_spans`. -/
def parseKallsymsNameSpans (image : List UInt8) (namesOffset count markersOffset : ℕ) (markers : List ℕ)
    (uleb128Lengths : Bool) : Option (List (ℕ × ℕ)) :=
  if count = 0 ∨ markers.length ≠ (count + 255) / 256 then none
  else do
    let (spans, position) ← nameSpansFrom image namesOffset markersOffset markers uleb128Lengths count 0 namesOffset
    if alignUp position KALLSYMS_ALIGNMENT ≠ markersOffset then none
    else
      let padding ← getRange image position markersOffset
      if padding.any (· ≠ 0) then none else some spans

/-- The kinds of symbols. -/
def SYMBOL_TYPES : List UInt8 := asBytes "aAbBcCdDeEfFgGiInNpPrRsStTuUvVwW?-"

/-- What one name says. -/
def decodeKallsymsName (image : List UInt8) (tokens : List (List UInt8)) (span : ℕ × ℕ) : Option (UInt8 × String) := do
  let stop ← checked (span.1 + span.2)
  let encoded ← getRange image span.1 stop
  let pieces ← encoded.mapM fun index => tokens[index.toNat]?
  let expandedLength ← checked (pieces.map List.length).sum
  if expandedLength > 4096 then none
  else
    match pieces.flatten with
    | [] => none
    | kind :: nameBytes =>
      if nameBytes.isEmpty ∨ kind ∉ SYMBOL_TYPES ∨ nameBytes.any (fun byte => byte < 0x21 || 0x7e < byte) then none
      else (textFromUtf8 nameBytes).map fun name => (kind, name)

/-- `decode_kallsyms_names`. -/
def decodeKallsymsNames (image : List UInt8) (spans : List (ℕ × ℕ)) (tokens : List (List UInt8)) :
    Option (List (UInt8 × String)) := do
  let decoded ← spans.mapM (decodeKallsymsName image tokens)
  if ["_text", "_end", "load_module"].any fun required => required ∉ decoded.map Prod.snd then none
  else some decoded

/-! ### Addresses -/

structure MapSymbol where
  address : ℕ
  name : String
deriving DecidableEq

/-- `is_arm64_kernel_address`. -/
def isArm64KernelAddress (address : ℕ) : Bool := address >>> 48 == 0xffff && address % 4096 == 0

/-- The bits of an `i32`. -/
def signed32 (word : ℕ) : ℤ := if word < 2 ^ 31 then word else word - 2 ^ 32

/-- `read_i32`. -/
def readI32 (data : List UInt8) (offset : ℕ) : Except String ℤ := (readU32 data offset).map signed32

/-- An entry of the form with absolute addresses: `u64::try_from` of what it stands for. -/
def percpuAddress (relativeBase : ℕ) (offset : ℤ) : Option ℕ :=
  let address := if offset < 0 then relativeBase - 1 - offset else offset
  if 0 ≤ address ∧ address < 2 ^ 64 then some address.toNat else none

/-- The addresses of the symbols of that name. -/
def addressesOf (name : String) (addresses : List ℕ) (names : List (UInt8 × String)) : List ℕ :=
  (addresses.zip names).filterMap fun symbol => if symbol.2.2 = name then some symbol.1 else none

/-- The addresses that should be in the image. -/
def ordinaryAddresses (addresses : List ℕ) (names : List (UInt8 × String)) : List ℕ :=
  (addresses.zip names).filterMap fun symbol =>
    if symbol.2.1 ∉ asBytes "Aa" ∧ symbol.1 ≠ 0 then some symbol.1 else none

/-- What `decode_kallsyms_addresses` checks of the addresses. -/
def isPlausible (imageSize relativeBase : ℕ) (names : List (UInt8 × String)) (addresses : List ℕ) : Bool :=
  !(addresses.zip (addresses.drop 1)).any (fun pair => pair.1 > pair.2) &&
    match addressesOf "_text" addresses names, addressesOf "_end" addresses names with
    | [text], [last] =>
      text == relativeBase && decide (text ≤ last) && last - text == imageSize &&
        let ordinary := ordinaryAddresses addresses names
        let inImage := (ordinary.filter fun address => text ≤ address && address ≤ last).length
        !ordinary.isEmpty && !decide (inImage * 100 < ordinary.length * 90)
    | _, _ => false

/-- The addresses, in the form that the share of negative entries suggests. -/
def guessAddresses (image : List UInt8) (offsetsOffset relativeBase count : ℕ) : Option (List ℕ) := do
  let signedOffsets ← (List.range count).mapM fun index => (readI32 image (offsetsOffset + index * 4)).toOption
  let negativeCount := (signedOffsets.filter (· < 0)).length
  if negativeCount * 2 ≥ count then signedOffsets.mapM (percpuAddress relativeBase)
  else (List.range count).mapM fun index => do
    let offset ← (readU32 image (offsetsOffset + index * 4)).toOption
    checked (relativeBase + offset)

/-- `decode_kallsyms_addresses`. -/
def decodeKallsymsAddresses (image : List UInt8) (imageSize : ℕ) (names : List (UInt8 × String))
    (offsetsOffset relativeBaseOffset : ℕ) : Option (List MapSymbol) := do
  let count := names.length
  let size ← checked (count * 4)
  let offsetsEnd ← checked (offsetsOffset + size)
  let relativeBaseEnd ← checked (relativeBaseOffset + 8)
  if offsetsEnd > image.length ∨ relativeBaseEnd > image.length then none
  else
    let padding ← getRange image offsetsEnd relativeBaseOffset
    if padding.any (· ≠ 0) then none
    else
      let relativeBase ← (readU64 image relativeBaseOffset).toOption
      if !isArm64KernelAddress relativeBase then none
      else
        let addresses ← guessAddresses image offsetsOffset relativeBase count
        if isPlausible imageSize relativeBase names addresses then
          some ((addresses.zip names).map fun symbol => ⟨symbol.1, symbol.2.2⟩)
        else none

end KernelSU.LkmImage
