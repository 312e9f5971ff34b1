import KernelSU.Lib.Fields
import KernelSU.Lib.SortedMap
import KernelSU.Lib.Text
import KernelSU.LkmImage.KallsymsNames

/-!
# `userspace/ksud/src/lkm_image.rs`: the token table

The names of the kernel's symbols are made of 256 tokens.  Their table is searched for by the digits, whose codes
are ten tokens in a row.

* `TokenTableAt` — what a token table is;
* `parseKallsymsTokenTableAt_iff` — **PROVED**: what is accepted at an offset.
-/

namespace KernelSU.LkmImage

open KernelSU.Lib KernelSU.Lib.Bytes

def KALLSYMS_TOKEN_INDEX_SIZE : ℕ := KALLSYMS_TOKEN_COUNT * 2
def KALLSYMS_MAX_TOKEN_LENGTH : ℕ := 256

/-- `find_subslice`. -/
def findSubslice (data needle : List UInt8) (start : ℕ) : Option ℕ :=
  if needle = [] ∨ start > data.length then none else (findPattern needle (data.drop start)).map (· + start)

/-! ### One table -/

/-- The token at a position, and the position behind it. -/
def readToken (image : List UInt8) (position : ℕ) : Option (List UInt8 × ℕ) := do
  let searchEnd ← checked (position + (KALLSYMS_MAX_TOKEN_LENGTH + 1))
  let range ← getRange image position (min searchEnd image.length)
  let length ← range.findIdx? (· == 0)
  if length = 0 then none
  else
    let stop ← checked (position + length)
    let token ← getRange image position stop
    if token.any fun b => !(0x20 ≤ b && b ≤ 0x7e) then none
    else
      let next ← checked (stop + 1)
      some (token, next)

/-- The last `n` tokens, where they start, and the position behind them. -/
def readTokens (image : List UInt8) : ℕ → ℕ → Option (List (List UInt8) × List ℕ × ℕ)
  | 0, position => some ([], [], position)
  | n + 1, position => do
    let (token, next) ← readToken image position
    let (tokens, starts, last) ← readTokens image n next
    some (token :: tokens, position :: starts, last)

/-- The tokens that are single characters. -/
def singleTokens : List UInt8 := asBytes "0123456789_abcdefghijklmnopqrstuvwxyzT"

/-- `parse_kallsyms_token_table_at`. -/
def parseKallsymsTokenTableAt (image : List UInt8) (start digitOffset : ℕ) : Option (List (List UInt8) × ℕ) :=
  if start % KALLSYMS_ALIGNMENT ≠ 0 then none
  else do
    let (tokens, tokenStarts, position) ← readTokens image KALLSYMS_TOKEN_COUNT start
    let tokenOffsets := tokenStarts.map (· - start)
    if tokenStarts[48]? ≠ some digitOffset then none
    else if singleTokens.any fun value => tokens[value.toNat]? != some [value] then none
    else
      let tokenIndexOffset := alignUp position KALLSYMS_ALIGNMENT
      let padding ← getRange image position tokenIndexOffset
      if padding.any (· ≠ 0) then none
      else
        let tokenIndexEnd ← checked (tokenIndexOffset + KALLSYMS_TOKEN_INDEX_SIZE)
        let last ← tokenOffsets.getLast?
        if tokenIndexEnd > image.length ∨ last > 65535 then none
        else if tokenOffsets.zipIdx.any fun entry =>
            (readU16 image (tokenIndexOffset + entry.2 * 2)).toOption != some entry.1 then none
        else some (tokens, tokenIndexOffset)

/-! ### The search -/

/-- The digits as tokens. -/
def digitTokens : List UInt8 := (asBytes "0123456789").flatMap fun value => [value, 0]

/-- The starts that are tried for an occurrence of the digits. -/
def candidateStarts (digitOffset : ℕ) : List ℕ :=
  let earliest := digitOffset - 48 * (KALLSYMS_MAX_TOKEN_LENGTH + 1)
  let first := alignUp earliest KALLSYMS_ALIGNMENT
  List.range' first ((digitOffset + KALLSYMS_ALIGNMENT - first) / KALLSYMS_ALIGNMENT) KALLSYMS_ALIGNMENT

/-- The candidates by their starts: the tokens and the offset of the index. -/
abbrev TokenTables := List (ℕ × List (List UInt8) × ℕ)

/-- One start for an occurrence of the digits. -/
def tryCandidate (image : List UInt8) (digitOffset : ℕ) (candidates : TokenTables) (start : ℕ) : TokenTables :=
  match parseKallsymsTokenTableAt image start digitOffset with
  | some table => insertEntry start table candidates
  | none => candidates

/-- All starts for an occurrence of the digits. -/
def tryCandidates (image : List UInt8) (digitOffset : ℕ) (candidates : TokenTables) : TokenTables :=
  (candidateStarts digitOffset).foldl (tryCandidate image digitOffset) candidates

theorem findSubslice_eq_some_iff {data needle : List UInt8} {start offset : ℕ} (hneedle : needle ≠ []) :
    findSubslice data needle start = some offset ↔ start ≤ offset ∧ needle <+: data.drop offset ∧
      ∀ j, start ≤ j → j < offset → ¬needle <+: data.drop j := by
  have hdrop : ∀ j, (data.drop start).drop j = data.drop (start + j) := fun j => List.drop_drop
  rw [findSubslice]
  by_cases hstart : start > data.length
  · rw [if_pos (.inr hstart)]
    refine iff_of_false (fun h => absurd h.symm (Option.some_ne_none _)) fun h => ?_
    have hnil : data.drop offset = [] := List.drop_eq_nil_of_le (by omega)
    exact hneedle (List.prefix_nil.mp (hnil ▸ h.2.1))
  · rw [if_neg (not_or.mpr ⟨hneedle, hstart⟩), Option.map_eq_some_iff]
    constructor
    · rintro ⟨i, hi, rfl⟩
      obtain ⟨hfound, hfirst⟩ := (findPattern_eq_some_iff hneedle _ _).mp hi
      rw [hdrop, Nat.add_comm] at hfound
      refine ⟨Nat.le_add_left _ _, hfound, fun j hj hlt hfound' => hfirst (j - start) (by omega) ?_⟩
      rw [hdrop, Nat.add_sub_cancel' hj]
      exact hfound'
    · rintro ⟨hle, hfound, hfirst⟩
      refine ⟨offset - start, (findPattern_eq_some_iff hneedle _ _).mpr ⟨?_, fun j hj => ?_⟩, by omega⟩
      · rw [hdrop, Nat.add_sub_cancel' hle]
        exact hfound
      · rw [hdrop]
        exact hfirst (start + j) (by omega) (by omega)

/-- The loop over the occurrences of the digits. -/
def scanDigits (image : List UInt8) (searchFrom : ℕ) (candidates : TokenTables) : TokenTables :=
  match h : findSubslice image digitTokens searchFrom with
  | none => candidates
  | some digitOffset =>
    if hend : digitOffset + 1 ≥ image.length then tryCandidates image digitOffset candidates
    else scanDigits image (digitOffset + 1) (tryCandidates image digitOffset candidates)
termination_by image.length - searchFrom
decreasing_by
  have hle := ((findSubslice_eq_some_iff (by decide)).mp h).1
  omega

/-- `find_kallsyms_token_tables`: the tokens, the start and the offset of the index of each table. -/
def findKallsymsTokenTables (image : List UInt8) : List (List (List UInt8) × ℕ × ℕ) :=
  (scanDigits image 0 []).map fun entry => (entry.2.1, entry.1, entry.2.2)

/-! ### Tokens -/

/-- A token: up to 256 printable characters. -/
structure PrintableToken (token : List UInt8) : Prop where
  nonempty : 0 < token.length
  short : token.length ≤ KALLSYMS_MAX_TOKEN_LENGTH
  printable : ∀ b ∈ token, 0x20 ≤ b ∧ b ≤ 0x7e

/-- What stands somewhere, by its elements. -/
theorem getElem?_of_hasAt {α : Type*} {l w : List α} {o i : ℕ} (h : HasAt l o w) (hi : i < w.length) :
    l[o + i]? = w[i]? := by
  have hslice := getElem?_slice l o w.length i
  rw [h.2, if_pos hi] at hslice
  exact hslice.symm

theorem checked_of_lt {n : ℕ} (h : n < 2 ^ 64) : checked n = some n := if_pos h

/-- Where the tokens start, from a position on. -/
def tokenStartsFrom : ℕ → List (List UInt8) → List ℕ
  | _, [] => []
  | position, token :: tokens => position :: tokenStartsFrom (position + token.length + 1) tokens

/-- The tokens as they stand in the image. -/
def tokenBytes (tokens : List (List UInt8)) : List UInt8 := tokens.flatMap (· ++ [0])

theorem tokenBytes_cons (token : List UInt8) (tokens : List (List UInt8)) :
    tokenBytes (token :: tokens) = (token ++ [0]) ++ tokenBytes tokens := List.flatMap_cons

@[simp] theorem tokenStartsFrom_length (position : ℕ) (tokens : List (List UInt8)) :
    (tokenStartsFrom position tokens).length = tokens.length := by
  induction tokens generalizing position with
  | nil => rfl
  | cons token tokens ih => rw [tokenStartsFrom, List.length_cons, List.length_cons, ih]

/-- The offsets are where the tokens start in the table. -/
theorem tokenStartsFrom_sub {start position : ℕ} (h : start ≤ position) (tokens : List (List UInt8)) :
    (tokenStartsFrom position tokens).map (· - start) = tokenStartsFrom (position - start) tokens := by
  induction tokens generalizing position with
  | nil => rfl
  | cons token tokens ih =>
    rw [tokenStartsFrom, List.map_cons, ih (by omega), tokenStartsFrom]
    congr 2
    omega

/-- The start of a token is behind the tokens in front of it. -/
theorem tokenStartsFrom_append (position : ℕ) (before after : List (List UInt8)) :
    tokenStartsFrom position (before ++ after) =
      tokenStartsFrom position before ++ tokenStartsFrom (position + (tokenBytes before).length) after := by
  induction before generalizing position with
  | nil => rfl
  | cons token before ih =>
    rw [List.cons_append, tokenStartsFrom, tokenStartsFrom, ih, List.cons_append, tokenBytes_cons, List.length_append,
      List.length_append, List.length_singleton]
    congr 3
    omega

section Tokens

variable {image : List UInt8} (himage : image.length ≤ ISIZE_MAX)
include himage

/-- **One token**, and the NUL behind it. -/
theorem readToken_iff {position next : ℕ} {token : List UInt8} (hposition : position ≤ image.length) :
    readToken image position = some (token, next) ↔
      PrintableToken token ∧ HasAt image position (token ++ [0]) ∧ next = position + token.length + 1 := by
  rw [ISIZE_MAX] at himage
  have hmax : KALLSYMS_MAX_TOKEN_LENGTH = 256 := rfl
  obtain ⟨n, hn⟩ : ∃ n, n = min (position + 257) image.length - position := ⟨_, rfl⟩
  have hlength : (slice image position n).length = n := slice_length_of_le (by omega)
  have hget : ∀ i < n, (slice image position n)[i]? = image[position + i]? := fun i hi => by
    rw [getElem?_slice, if_pos hi]
  have hrange : getRange image position (min (position + 257) image.length) = some (slice image position n) := by
    rw [getRange, if_pos (by omega), ← hn]
  rw [readToken, hmax, checked_of_lt (by omega)]
  simp only [Option.bind_eq_bind, Option.bind_some, hrange, Option.bind_eq_some_iff]
  constructor
  · rintro ⟨length, hfind, h⟩
    obtain ⟨hlt, hzero, -⟩ := List.findIdx?_eq_some_iff_getElem.mp hfind
    have hnul : image[position + length]? = some 0 := by
      rw [← hget length (by omega), List.getElem?_eq_getElem hlt, eq_of_beq hzero]
    rw [hlength] at hlt
    split_ifs at h with hempty
    rw [checked_of_lt (by omega), Option.bind_some, Option.bind_eq_some_iff] at h
    obtain ⟨token', htoken, h⟩ := h
    obtain ⟨-, hle, rfl⟩ := getRange_eq_some.mp htoken
    rw [Nat.add_sub_cancel_left] at h
    split_ifs at h with hprintable
    rw [checked_of_lt (by omega), Option.bind_some] at h
    obtain ⟨rfl, rfl⟩ := Prod.mk.inj (Option.some.inj h)
    have htl : (slice image position length).length = length := slice_length_of_le hle
    refine ⟨⟨by omega, by omega, fun b hb => ?_⟩, ?_, by rw [htl]⟩
    · by_contra hno
      refine hprintable (List.any_eq_true.mpr ⟨b, hb, ?_⟩)
      rw [Bool.not_eq_true', ← Bool.not_eq_true, Bool.and_eq_true, decide_eq_true_eq, decide_eq_true_eq]
      exact hno
    · refine hasAt_append.mpr ⟨hasAt_slice hle, ?_⟩
      rw [htl]
      have hin := (List.getElem?_eq_some_iff.mp hnul).1
      exact ⟨hin, slice_eq_cons_iff.mpr ⟨hnul, slice_size_zero _ _⟩⟩
  · rintro ⟨htoken, hat, rfl⟩
    have hshort := htoken.short
    rw [hmax] at hshort
    have hfits := hat.1
    rw [List.length_append, List.length_singleton] at hfits
    obtain ⟨htokenAt, hnulAt⟩ := hasAt_append.mp hat
    have hbyte : ∀ i (hi : i < token.length), image[position + i]? = some token[i] := fun i hi => by
      rw [getElem?_of_hasAt htokenAt hi, List.getElem?_eq_getElem hi]
    have hfind : (slice image position n).findIdx? (· == 0) = some token.length := by
      refine List.findIdx?_eq_some_iff_getElem.mpr ⟨by omega, ?_, fun j hj => ?_⟩
      · have hnul := getElem?_of_hasAt hnulAt (show 0 < [(0 : UInt8)].length by decide)
        rw [Nat.add_zero, ← hget token.length (by omega), List.getElem?_eq_getElem (by omega)] at hnul
        rw [Option.some.inj hnul]
        rfl
      · have hj' := hbyte j hj
        rw [← hget j (by omega), List.getElem?_eq_getElem (by omega)] at hj'
        rw [Option.some.inj hj']
        intro hzero
        have hlow := (htoken.printable token[j] (List.getElem_mem hj)).1
        rw [eq_of_beq hzero] at hlow
        exact absurd hlow (by decide)
    refine ⟨token.length, hfind, ?_⟩
    have hpos := htoken.nonempty
    have hprintable : ¬(token.any fun b => !(0x20 ≤ b && b ≤ 0x7e)) = true := by
      intro hany
      obtain ⟨b, hb, hno⟩ := List.any_eq_true.mp hany
      have hok := htoken.printable b hb
      simp [hok.1, hok.2] at hno
    have htokenRange : getRange image position (position + token.length) = some token :=
      getRange_eq_some.mpr ⟨by omega, by omega, by rw [Nat.add_sub_cancel_left]; exact htokenAt.2⟩
    rw [if_neg (by omega), checked_of_lt (by omega), Option.bind_some, htokenRange, Option.bind_some,
      if_neg hprintable, checked_of_lt (by omega), Option.bind_some]

/-- **The tokens** from a position on. -/
theorem readTokens_iff {n position last : ℕ} {tokens : List (List UInt8)} {starts : List ℕ}
    (hposition : position ≤ image.length) :
    readTokens image n position = some (tokens, starts, last) ↔
      tokens.length = n ∧ (∀ t ∈ tokens, PrintableToken t) ∧ HasAt image position (tokenBytes tokens) ∧
        starts = tokenStartsFrom position tokens ∧ last = position + (tokenBytes tokens).length := by
  induction n generalizing position tokens starts last with
  | zero =>
    rw [readTokens]
    constructor
    · intro h
      obtain ⟨rfl, hpair⟩ := Prod.mk.inj (Option.some.inj h)
      obtain ⟨rfl, rfl⟩ := Prod.mk.inj hpair
      exact ⟨rfl, List.forall_mem_nil _, ⟨hposition, slice_size_zero _ _⟩, rfl, rfl⟩
    · rintro ⟨hnil, -, -, rfl, rfl⟩
      obtain rfl := List.eq_nil_of_length_eq_zero hnil
      rfl
  | succ n ih =>
    rw [readTokens]
    simp only [Option.bind_eq_bind, Option.bind_eq_some_iff, Prod.exists]
    constructor
    · rintro ⟨token, next, htoken, tokens', starts', last', hrest, h⟩
      obtain ⟨rfl, hpair⟩ := Prod.mk.inj (Option.some.inj h)
      obtain ⟨rfl, rfl⟩ := Prod.mk.inj hpair
      obtain ⟨hprintable, hat, rfl⟩ := (readToken_iff himage hposition).mp htoken
      have hfits := hat.1
      rw [List.length_append, List.length_singleton] at hfits
      obtain ⟨hcount, hall, hat', rfl, rfl⟩ := (ih (by omega)).mp hrest
      refine ⟨congrArg (· + 1) hcount, List.forall_mem_cons.mpr ⟨hprintable, hall⟩, ?_, rfl, ?_⟩
      · rw [tokenBytes_cons]
        refine hasAt_append.mpr ⟨hat, ?_⟩
        rw [List.length_append, List.length_singleton, ← Nat.add_assoc]
        exact hat'
      · rw [tokenBytes_cons, List.length_append, List.length_append, List.length_singleton]
        omega
    · rintro ⟨hcount, hall, hat, rfl, rfl⟩
      cases tokens with
      | nil => cases hcount
      | cons token tokens =>
        obtain ⟨hprintable, hall⟩ := List.forall_mem_cons.mp hall
        rw [tokenBytes_cons] at hat
        obtain ⟨hfirst, hrest⟩ := hasAt_append.mp hat
        have hfits := hfirst.1
        rw [List.length_append, List.length_singleton] at hfits hrest
        refine ⟨token, _, (readToken_iff himage hposition).mpr ⟨hprintable, hfirst, rfl⟩, tokens, _, _,
          (ih (by omega)).mpr ⟨Nat.succ.inj hcount, hall, ?_, rfl, rfl⟩, ?_⟩
        · rw [Nat.add_assoc]
          exact hrest
        · rw [tokenStartsFrom, tokenBytes_cons, List.length_append, List.length_append, List.length_singleton]
          congr 3
          omega

end Tokens

/-! ### A table -/

/-- A token table at an offset: its tokens, then zeros up to the next multiple of eight, then their offsets. -/
structure TokenTableAt (image : List UInt8) (start : ℕ) (tokens : List (List UInt8)) (indexOffset : ℕ) : Prop where
  aligned : start % KALLSYMS_ALIGNMENT = 0
  count : tokens.length = KALLSYMS_TOKEN_COUNT
  printable : ∀ t ∈ tokens, PrintableToken t
  strings : HasAt image start (tokenBytes tokens)
  single : ∀ value ∈ singleTokens, tokens[value.toNat]? = some [value]
  indexAligned : indexOffset % KALLSYMS_ALIGNMENT = 0
  behind : start + (tokenBytes tokens).length ≤ indexOffset
  next : indexOffset < start + (tokenBytes tokens).length + KALLSYMS_ALIGNMENT
  padding : ∀ b ∈ slice image (start + (tokenBytes tokens).length)
    (indexOffset - (start + (tokenBytes tokens).length)), b = 0
  inside : indexOffset + KALLSYMS_TOKEN_INDEX_SIZE ≤ image.length
  index : ∀ i offset, (tokenStartsFrom 0 tokens)[i]? = some offset →
    decodeLE (slice image (indexOffset + i * 2) 2) = offset

theorem alignUp_eight {v : ℕ} (h : v < 2 ^ 63) :
    v ≤ alignUp v KALLSYMS_ALIGNMENT ∧ alignUp v KALLSYMS_ALIGNMENT < v + KALLSYMS_ALIGNMENT ∧
      alignUp v KALLSYMS_ALIGNMENT % KALLSYMS_ALIGNMENT = 0 := by
  rw [alignUp, KALLSYMS_ALIGNMENT]
  omega

/-- The index is checked word by word. -/
theorem index_checked_iff {image : List UInt8} {indexOffset : ℕ} {offsets : List ℕ}
    (hinside : indexOffset + offsets.length * 2 ≤ image.length) :
    (offsets.zipIdx.any fun entry =>
        (readU16 image (indexOffset + entry.2 * 2)).toOption != some entry.1) = false ↔
      ∀ i offset, offsets[i]? = some offset → decodeLE (slice image (indexOffset + i * 2) 2) = offset := by
  have hread : ∀ i < offsets.length, (readU16 image (indexOffset + i * 2)).toOption =
      some (decodeLE (slice image (indexOffset + i * 2) 2)) := by
    intro i hi
    rw [readU16, readWord, getSlice, if_pos (by omega)]
    rfl
  rw [List.any_eq_false]
  constructor
  · intro h i offset hoffset
    have hcheck := h (offset, i) (List.mk_mem_zipIdx_iff_getElem?.mpr hoffset)
    rw [bne_iff_ne, not_not, hread i (List.getElem?_eq_some_iff.mp hoffset).1] at hcheck
    exact Option.some.inj hcheck
  · intro h entry hentry
    have hoffset := List.mem_zipIdx_iff_getElem?.mp hentry
    rw [bne_iff_ne, not_not, hread entry.2 (List.getElem?_eq_some_iff.mp hoffset).1]
    exact congrArg some (h entry.2 entry.1 hoffset)

/-- **What is accepted at an offset.** -/
theorem parseKallsymsTokenTableAt_iff {image : List UInt8} (himage : image.length ≤ ISIZE_MAX)
    {start digitOffset indexOffset : ℕ} {tokens : List (List UInt8)} (hstart : start ≤ image.length) :
    parseKallsymsTokenTableAt image start digitOffset = some (tokens, indexOffset) ↔
      TokenTableAt image start tokens indexOffset ∧ (tokenStartsFrom start tokens)[48]? = some digitOffset := by
  have hsmall := himage
  rw [ISIZE_MAX] at hsmall
  rw [parseKallsymsTokenTableAt]
  by_cases haligned : start % KALLSYMS_ALIGNMENT = 0
  swap
  · rw [if_pos haligned]
    exact iff_of_false (fun h => absurd h.symm (Option.some_ne_none _)) fun h => haligned h.1.aligned
  rw [if_neg (not_not.mpr haligned)]
  simp only [Option.bind_eq_bind, Option.bind_eq_some_iff, Prod.exists]
  constructor
  · rintro ⟨tokens', starts, position, htokens, h⟩
    obtain ⟨hcount, hprintable, hstrings, rfl, rfl⟩ := (readTokens_iff himage hstart).mp htokens
    have hoffsets := tokenStartsFrom_sub (Nat.le_refl start) tokens'
    rw [Nat.sub_self] at hoffsets
    rw [hoffsets] at h
    obtain ⟨hbehind, hnext, hround⟩ := alignUp_eight (v := start + (tokenBytes tokens').length)
      (by have hfits := hstrings.1; omega)
    obtain ⟨hdigit, h⟩ := Option.ite_none_left_eq_some.mp h
    obtain ⟨hsingle, h⟩ := Option.ite_none_left_eq_some.mp h
    obtain ⟨padding, hpadding, h⟩ := Option.bind_eq_some_iff.mp h
    obtain ⟨hzero, h⟩ := Option.ite_none_left_eq_some.mp h
    obtain ⟨stop, hstop, h⟩ := Option.bind_eq_some_iff.mp h
    obtain ⟨last, hlast, h⟩ := Option.bind_eq_some_iff.mp h
    obtain ⟨hend, h⟩ := Option.ite_none_left_eq_some.mp h
    obtain ⟨hindex, h⟩ := Option.ite_none_left_eq_some.mp h
    obtain ⟨rfl, rfl⟩ := Prod.mk.inj (Option.some.inj h)
    obtain ⟨-, rfl⟩ := checked_eq_some.mp hstop
    obtain ⟨-, -, rfl⟩ := getRange_eq_some.mp hpadding
    have hinside := Nat.not_lt.mp (not_or.mp hend).1
    refine ⟨⟨haligned, hcount, hprintable, hstrings, ?_, hround, hbehind, hnext, ?_, hinside, ?_⟩, not_not.mp hdigit⟩
    · intro value hvalue
      have hone := List.any_eq_false.mp (Bool.eq_false_iff.mpr hsingle) value hvalue
      rw [bne_iff_ne, not_not] at hone
      exact hone
    · intro b hb
      have hb' := List.any_eq_false.mp (Bool.eq_false_iff.mpr hzero) b hb
      rw [decide_eq_true_eq, not_not] at hb'
      exact hb'
    · refine (index_checked_iff ?_).mp (Bool.eq_false_iff.mpr hindex)
      rw [tokenStartsFrom_length, hcount]
      exact hinside
  · rintro ⟨htable, hdigit⟩
    have hstrings := htable.strings
    have hfits := hstrings.1
    have hbehind := htable.behind
    have hinside := htable.inside
    have hsize : KALLSYMS_TOKEN_INDEX_SIZE = 512 := rfl
    have hoffsets := tokenStartsFrom_sub (Nat.le_refl start) tokens
    rw [Nat.sub_self] at hoffsets
    have hindexOffset : alignUp (start + (tokenBytes tokens).length) KALLSYMS_ALIGNMENT = indexOffset := by
      obtain ⟨hle, hlt, hround⟩ := alignUp_eight (v := start + (tokenBytes tokens).length) (by omega)
      have hnext := htable.next
      have hround' := htable.indexAligned
      rw [KALLSYMS_ALIGNMENT] at *
      omega
    refine ⟨tokens, _, _, (readTokens_iff himage hstart).mpr
      ⟨htable.count, htable.printable, hstrings, rfl, rfl⟩, ?_⟩
    have hsingle : ¬(singleTokens.any fun value => tokens[value.toNat]? != some [value]) = true := by
      intro hany
      obtain ⟨value, hvalue, hne⟩ := List.any_eq_true.mp hany
      exact (bne_iff_ne.mp hne) (htable.single value hvalue)
    have hpadding : getRange image (start + (tokenBytes tokens).length) indexOffset =
        some (slice image (start + (tokenBytes tokens).length) (indexOffset - (start + (tokenBytes tokens).length))) :=
      getRange_eq_some.mpr ⟨hbehind, by omega, rfl⟩
    have hzero : ¬((slice image (start + (tokenBytes tokens).length)
        (indexOffset - (start + (tokenBytes tokens).length))).any (· ≠ 0)) = true := by
      intro hany
      obtain ⟨b, hb, hne⟩ := List.any_eq_true.mp hany
      exact (of_decide_eq_true hne) (htable.padding b hb)
    have hcount : (tokenStartsFrom 0 tokens).length = 256 := by
      rw [tokenStartsFrom_length, htable.count]
      rfl
    obtain ⟨last, hlast⟩ : ∃ last, (tokenStartsFrom 0 tokens)[255]? = some last :=
      ⟨_, List.getElem?_eq_getElem (by omega)⟩
    have hlast' : (tokenStartsFrom 0 tokens).getLast? = some last := by
      rw [List.getLast?_eq_getElem?, hcount]
      exact hlast
    have hword := decodeLE_lt (slice image (indexOffset + 255 * 2) 2)
    rw [htable.index 255 last hlast, slice_length_of_le (by omega)] at hword
    have hindex : (List.zipIdx (tokenStartsFrom 0 tokens)).any (fun entry =>
        (readU16 image (indexOffset + entry.2 * 2)).toOption != some entry.1) = false := by
      refine (index_checked_iff ?_).mpr htable.index
      rw [hcount]
      omega
    rw [hoffsets, if_neg (not_not.mpr hdigit), if_neg hsingle, hindexOffset, hpadding, Option.bind_some, if_neg hzero,
      checked_of_lt (by omega), Option.bind_some, hlast', Option.bind_some, if_neg (by omega), hindex]
    rfl

end KernelSU.LkmImage
