import KernelSU.LkmImage.TokenTable

/-!
# The search for the token table

The digits are ten tokens in a row, so that an occurrence of them as bytes is where the 48th token of a table may
start.  The table starts at most 48 tokens in front of it.

* `TokenTableAt.digits` — **PROVED**: a table has the digits behind its first 48 tokens;
* `mem_candidateStarts_iff` — **PROVED**: the starts that are tried are those that are near enough;
* `findKallsymsTokenTables_complete` — **PROVED**: every token table is found, once, and nothing else.
-/

namespace KernelSU.LkmImage

open KernelSU.Lib KernelSU.Lib.Bytes

variable {image : List UInt8}

/-! ### The digits of a table -/

theorem tokenBytes_append (before after : List (List UInt8)) :
    tokenBytes (before ++ after) = tokenBytes before ++ tokenBytes after := List.flatMap_append

theorem tokenBytes_length_le {tokens : List (List UInt8)} (h : ∀ t ∈ tokens, PrintableToken t) :
    (tokenBytes tokens).length ≤ tokens.length * (KALLSYMS_MAX_TOKEN_LENGTH + 1) := by
  induction tokens with
  | nil => exact Nat.zero_le _
  | cons token tokens ih =>
    obtain ⟨hfirst, hrest⟩ := List.forall_mem_cons.mp h
    have hshort := hfirst.short
    have hle := ih hrest
    rw [tokenBytes_cons, List.length_append, List.length_append, List.length_singleton, List.length_cons,
      Nat.succ_mul]
    omega

/-- The ten tokens from the 48th on. -/
theorem TokenTableAt.slice_digits {start indexOffset : ℕ} {tokens : List (List UInt8)}
    (h : TokenTableAt image start tokens indexOffset) :
    slice tokens 48 10 = (List.range 10).map fun k => [UInt8.ofNat (48 + k)] := by
  refine List.ext_getElem? fun k => ?_
  rw [getElem?_slice, List.getElem?_map]
  by_cases hk : k < 10
  · have hmem : UInt8.ofNat (48 + k) ∈ singleTokens := by
      have hall : ∀ k < 10, UInt8.ofNat (48 + k) ∈ singleTokens := by decide
      exact hall k hk
    have hcode : (UInt8.ofNat (48 + k)).toNat = 48 + k := UInt8.toNat_ofNat_of_lt' (by rw [UInt8.size]; omega)
    have hsingle := h.single _ hmem
    rw [hcode] at hsingle
    rw [if_pos hk, List.getElem?_range hk]
    exact hsingle
  · rw [if_neg hk, List.getElem?_eq_none (by rw [List.length_range]; omega)]
    rfl

/-- **The digits of a table**, at most 48 tokens behind its start. -/
theorem TokenTableAt.digits {start indexOffset : ℕ} {tokens : List (List UInt8)}
    (h : TokenTableAt image start tokens indexOffset) :
    ∃ digitOffset, (tokenStartsFrom start tokens)[48]? = some digitOffset ∧
      digitTokens <+: image.drop digitOffset ∧ start ≤ digitOffset ∧
      digitOffset ≤ start + 48 * (KALLSYMS_MAX_TOKEN_LENGTH + 1) := by
  have hcount := h.count
  rw [KALLSYMS_TOKEN_COUNT] at hcount
  obtain ⟨before, after, rfl, hbefore⟩ : ∃ before after, tokens =
      before ++ (((List.range 10).map fun k => [UInt8.ofNat (48 + k)]) ++ after) ∧ before.length = 48 := by
    have hbehind : tokens.drop 58 = (tokens.drop 48).drop 10 := by rw [List.drop_drop]
    refine ⟨tokens.take 48, tokens.drop 58, ?_, by rw [List.length_take]; omega⟩
    rw [← h.slice_digits, slice, hbehind, List.take_append_drop, List.take_append_drop]
  have hshort := tokenBytes_length_le fun t ht => h.printable t (List.mem_append_left _ ht)
  rw [hbefore] at hshort
  have hat := h.strings
  rw [tokenBytes_append, tokenBytes_append] at hat
  obtain ⟨-, hrest⟩ := hasAt_append.mp hat
  obtain ⟨hdigits, -⟩ := hasAt_append.mp hrest
  refine ⟨start + (tokenBytes before).length, ?_, ?_, Nat.le_add_right _ _, by omega⟩
  · rw [tokenStartsFrom_append, List.getElem?_append_right (by rw [tokenStartsFrom_length, hbefore]),
      tokenStartsFrom_length, hbefore]
    rfl
  · have hbytes : tokenBytes ((List.range 10).map fun k => [UInt8.ofNat (48 + k)]) = digitTokens := by decide
    rw [hbytes] at hdigits
    rw [← hdigits.2, slice]
    exact List.take_prefix _ _

/-- A table is determined by its start. -/
theorem TokenTableAt.unique (himage : image.length ≤ ISIZE_MAX) {start i j : ℕ} {s t : List (List UInt8)}
    (hs : TokenTableAt image start s i) (ht : TokenTableAt image start t j) : s = t ∧ i = j := by
  have hstart : start ≤ image.length := Nat.le_trans (Nat.le_add_right _ _) hs.strings.1
  have hreadS := (readTokens_iff himage hstart).mpr ⟨hs.count, hs.printable, hs.strings, rfl, rfl⟩
  have hreadT := (readTokens_iff himage hstart).mpr ⟨ht.count, ht.printable, ht.strings, rfl, rfl⟩
  obtain ⟨rfl, -⟩ := Prod.mk.inj (Option.some.inj (hreadS.symm.trans hreadT))
  refine ⟨rfl, ?_⟩
  have hi := hs.indexAligned
  have hj := ht.indexAligned
  have hi' := hs.behind
  have hj' := ht.behind
  have hi'' := hs.next
  have hj'' := ht.next
  rw [KALLSYMS_ALIGNMENT] at *
  omega

/-! ### The starts that are tried -/

theorem mem_candidateStarts_iff {digitOffset start : ℕ} (h : digitOffset < 2 ^ 63) :
    start ∈ candidateStarts digitOffset ↔ start % KALLSYMS_ALIGNMENT = 0 ∧ start ≤ digitOffset ∧
      digitOffset ≤ start + 48 * (KALLSYMS_MAX_TOKEN_LENGTH + 1) := by
  obtain ⟨hle, hlt, hround⟩ := alignUp_eight (v := digitOffset - 48 * (KALLSYMS_MAX_TOKEN_LENGTH + 1)) (by omega)
  simp only [candidateStarts, List.mem_range']
  generalize alignUp (digitOffset - 48 * (KALLSYMS_MAX_TOKEN_LENGTH + 1)) KALLSYMS_ALIGNMENT = first at *
  rw [KALLSYMS_ALIGNMENT, KALLSYMS_MAX_TOKEN_LENGTH] at *
  constructor
  · rintro ⟨i, hi, rfl⟩
    omega
  · rintro ⟨haligned, hbefore, hnear⟩
    exact ⟨(start - first) / 8, by omega, by omega⟩

/-- What a candidate start for an occurrence of the digits gives. -/
theorem candidate_iff (himage : image.length ≤ ISIZE_MAX) {digitOffset start indexOffset : ℕ}
    {tokens : List (List UInt8)} (hdigit : digitOffset ≤ image.length) :
    start ∈ candidateStarts digitOffset ∧
        parseKallsymsTokenTableAt image start digitOffset = some (tokens, indexOffset) ↔
      TokenTableAt image start tokens indexOffset ∧ (tokenStartsFrom start tokens)[48]? = some digitOffset := by
  have hsmall := himage
  rw [ISIZE_MAX] at hsmall
  constructor
  · rintro ⟨hstart, htable⟩
    obtain ⟨-, hle, -⟩ := (mem_candidateStarts_iff (by omega)).mp hstart
    exact (parseKallsymsTokenTableAt_iff himage (by omega)).mp htable
  · rintro ⟨htable, hstart⟩
    obtain ⟨digitOffset', hsame, -, hle, hnear⟩ := htable.digits
    obtain rfl := Option.some.inj (hsame.symm.trans hstart)
    exact ⟨(mem_candidateStarts_iff (by omega)).mpr ⟨htable.aligned, hle, hnear⟩,
      (parseKallsymsTokenTableAt_iff himage (by omega)).mpr ⟨htable, hstart⟩⟩

/-! ### The search -/

/-- The candidates are in order, and each is a token table. -/
structure TokenTables.Sound (image : List UInt8) (candidates : TokenTables) : Prop where
  sorted : SortedKeys candidates
  tables : ∀ e ∈ candidates, TokenTableAt image e.1 e.2.1 e.2.2

theorem TokenTables.Sound.insert (himage : image.length ≤ ISIZE_MAX) {candidates : TokenTables}
    (h : candidates.Sound image) {start : ℕ} {table : List (List UInt8) × ℕ}
    (htable : TokenTableAt image start table.1 table.2) :
    TokenTables.Sound image (insertEntry start table candidates) ∧
      ∀ e, e ∈ insertEntry start table candidates ↔ e ∈ candidates ∨ e = (start, table) := by
  have hmem : ∀ e, e ∈ insertEntry start table candidates ↔ e ∈ candidates ∨ e = (start, table) := by
    intro e
    rw [mem_insertEntry_iff h.sorted, or_comm]
    constructor
    · rintro (he | rfl)
      · exact .inl he.2
      · exact .inr rfl
    · rintro (he | rfl)
      · by_cases hkey : e.1 = start
        · subst hkey
          obtain ⟨htokens, hindex⟩ := (h.tables e he).unique himage htable
          exact .inr (Prod.ext rfl (Prod.ext htokens hindex))
        · exact .inl ⟨hkey, he⟩
      · exact .inr rfl
  refine ⟨⟨insertEntry_sorted h.sorted, fun e he => ?_⟩, hmem⟩
  rcases (hmem e).mp he with he | rfl
  · exact h.tables e he
  · exact htable

/-- The candidates after one occurrence of the digits. -/
theorem TokenTables.Sound.tryCandidates (himage : image.length ≤ ISIZE_MAX) {candidates : TokenTables}
    (h : candidates.Sound image) {digitOffset : ℕ} (hdigit : digitOffset ≤ image.length) :
    TokenTables.Sound image (tryCandidates image digitOffset candidates) ∧
      ∀ e, e ∈ LkmImage.tryCandidates image digitOffset candidates ↔ e ∈ candidates ∨
        TokenTableAt image e.1 e.2.1 e.2.2 ∧ (tokenStartsFrom e.1 e.2.1)[48]? = some digitOffset := by
  have hfold : ∀ (starts : List ℕ) (candidates : TokenTables), (∀ s ∈ starts, s ∈ candidateStarts digitOffset) →
      candidates.Sound image →
      TokenTables.Sound image (starts.foldl (tryCandidate image digitOffset) candidates) ∧
      ∀ e, e ∈ starts.foldl (tryCandidate image digitOffset) candidates ↔
        e ∈ candidates ∨ e.1 ∈ starts ∧ parseKallsymsTokenTableAt image e.1 digitOffset = some e.2 := by
    intro starts
    induction starts with
    | nil => exact fun candidates _ h => ⟨h, fun e => by simp⟩
    | cons start starts ih =>
      intro candidates hstarts h
      obtain ⟨hstart, hrest⟩ := List.forall_mem_cons.mp hstarts
      rw [List.foldl_cons, tryCandidate]
      cases hparse : parseKallsymsTokenTableAt image start digitOffset with
      | none =>
        obtain ⟨hsound, hmem⟩ := ih candidates hrest h
        refine ⟨hsound, fun e => (hmem e).trans (or_congr_right (and_congr_left fun he => ?_))⟩
        rw [List.mem_cons]
        refine ⟨.inr, fun hor => hor.resolve_left ?_⟩
        rintro rfl
        rw [hparse] at he
        cases he
      | some table =>
        have htable := ((candidate_iff himage hdigit).mp ⟨hstart, hparse⟩).1
        obtain ⟨hinsert, hinserted⟩ := h.insert himage htable
        obtain ⟨hsound, hmem⟩ := ih _ hrest hinsert
        refine ⟨hsound, fun e => (hmem e).trans ?_⟩
        rw [hinserted, or_assoc, List.mem_cons, or_and_right]
        refine or_congr_right (or_congr_left ?_)
        constructor
        · rintro rfl
          exact ⟨rfl, hparse⟩
        · rintro ⟨rfl, he⟩
          exact Prod.ext rfl (Option.some.inj (he.symm.trans hparse))
  obtain ⟨hsound, hmem⟩ := hfold _ candidates (fun s hs => hs) h
  exact ⟨hsound, fun e => (hmem e).trans (or_congr_right (candidate_iff himage hdigit))⟩

theorem scanDigits_none {searchFrom : ℕ} {candidates : TokenTables}
    (h : findSubslice image digitTokens searchFrom = none) : scanDigits image searchFrom candidates = candidates := by
  rw [scanDigits]
  split
  · rfl
  · next hsome =>
    rw [h] at hsome
    cases hsome

theorem scanDigits_some {searchFrom digitOffset : ℕ} {candidates : TokenTables}
    (h : findSubslice image digitTokens searchFrom = some digitOffset) :
    scanDigits image searchFrom candidates =
      if digitOffset + 1 ≥ image.length then tryCandidates image digitOffset candidates
      else scanDigits image (digitOffset + 1) (tryCandidates image digitOffset candidates) := by
  rw [scanDigits]
  split
  · next hnone =>
    rw [h] at hnone
    cases hnone
  · next digitOffset' hsome =>
    obtain rfl := Option.some.inj (h.symm.trans hsome)
    rw [dite_eq_ite]

/-- The digits of a table are found from wherever the search starts in front of them. -/
theorem findSubslice_digits {searchFrom digitOffset : ℕ} (hfrom : searchFrom ≤ digitOffset)
    (hdigit : digitTokens <+: image.drop digitOffset) :
    ∃ found, findSubslice image digitTokens searchFrom = some found ∧ found ≤ digitOffset := by
  have hdigits : digitTokens ≠ [] := by decide
  cases hfind : findSubslice image digitTokens searchFrom with
  | none =>
    have hleast := Nat.find_spec (p := fun d => searchFrom ≤ d ∧ digitTokens <+: image.drop d) ⟨_, hfrom, hdigit⟩
    have hfound : findSubslice image digitTokens searchFrom = some _ := (findSubslice_eq_some_iff hdigits).mpr
      ⟨hleast.1, hleast.2, fun j hj hlt hfound => Nat.find_min _ hlt ⟨hj, hfound⟩⟩
    rw [hfind] at hfound
    cases hfound
  | some found =>
    obtain ⟨-, -, hfirst⟩ := (findSubslice_eq_some_iff hdigits).mp hfind
    refine ⟨found, rfl, Nat.not_lt.mp fun hlt => hfirst digitOffset hfrom hlt hdigit⟩

theorem lt_length_of_digits {digitOffset : ℕ} (h : digitTokens <+: image.drop digitOffset) :
    digitOffset + 20 ≤ image.length := by
  have hle := h.length_le
  have hlength : digitTokens.length = 20 := by decide
  rw [hlength, List.length_drop] at hle
  omega

/-- **The scan** adds the tables whose digits are still to come. -/
theorem TokenTables.Sound.scanDigits (himage : image.length ≤ ISIZE_MAX) (searchFrom : ℕ)
    (candidates : TokenTables) (h : candidates.Sound image) :
    TokenTables.Sound image (scanDigits image searchFrom candidates) ∧
      ∀ e, e ∈ LkmImage.scanDigits image searchFrom candidates ↔ e ∈ candidates ∨
        TokenTableAt image e.1 e.2.1 e.2.2 ∧
          ∃ digitOffset, searchFrom ≤ digitOffset ∧ (tokenStartsFrom e.1 e.2.1)[48]? = some digitOffset := by
  have hdigits : digitTokens ≠ [] := by decide
  -- the digits of a table that starts there
  have hat : ∀ {e : ℕ × List (List UInt8) × ℕ} {d : ℕ}, TokenTableAt image e.1 e.2.1 e.2.2 →
      (tokenStartsFrom e.1 e.2.1)[48]? = some d → digitTokens <+: image.drop d := by
    intro e d htable hstart
    obtain ⟨d', hd', hdigit, -, -⟩ := htable.digits
    obtain rfl := Option.some.inj (hd'.symm.trans hstart)
    exact hdigit
  induction searchFrom, candidates using LkmImage.scanDigits.induct image with
  | case1 searchFrom candidates hnone =>
    rw [scanDigits_none hnone]
    refine ⟨h, fun e => ⟨.inl, fun hor => hor.resolve_right ?_⟩⟩
    rintro ⟨htable, digitOffset, hfrom, hstart⟩
    obtain ⟨found, hfound, -⟩ := findSubslice_digits hfrom (hat htable hstart)
    rw [hnone] at hfound
    cases hfound
  | case2 searchFrom candidates digitOffset hsome hend =>
    obtain ⟨hfrom, hdigit, hfirst⟩ := (findSubslice_eq_some_iff hdigits).mp hsome
    have hlength : digitOffset ≤ image.length := Nat.le_of_add_right_le (lt_length_of_digits hdigit)
    obtain ⟨hsound, hmem⟩ := h.tryCandidates himage hlength
    rw [scanDigits_some hsome, if_pos hend]
    refine ⟨hsound, fun e => (hmem e).trans (or_congr_right (and_congr_right fun htable => ?_))⟩
    constructor
    · exact fun hstart => ⟨digitOffset, hfrom, hstart⟩
    · rintro ⟨d, hd, hstart⟩
      have hlength' := lt_length_of_digits (hat htable hstart)
      have hge : digitOffset ≤ d := Nat.not_lt.mp fun hlt => hfirst d hd hlt (hat htable hstart)
      omega
  | case3 searchFrom candidates digitOffset hsome hend ih =>
    obtain ⟨hfrom, hdigit, hfirst⟩ := (findSubslice_eq_some_iff hdigits).mp hsome
    have hlength : digitOffset ≤ image.length := Nat.le_of_add_right_le (lt_length_of_digits hdigit)
    obtain ⟨htried, htriedMem⟩ := h.tryCandidates himage hlength
    obtain ⟨hsound, hmem⟩ := ih htried
    rw [scanDigits_some hsome, if_neg hend]
    refine ⟨hsound, fun e => (hmem e).trans ?_⟩
    rw [htriedMem, or_assoc, ← and_or_left]
    refine or_congr_right (and_congr_right fun htable => ?_)
    constructor
    · rintro (hstart | ⟨d, hd, hstart⟩)
      · exact ⟨digitOffset, hfrom, hstart⟩
      · exact ⟨d, by omega, hstart⟩
    · rintro ⟨d, hd, hstart⟩
      have hge : digitOffset ≤ d := Nat.not_lt.mp fun hlt => hfirst d hd hlt (hat htable hstart)
      rcases Nat.eq_or_lt_of_le hge with rfl | hlt
      · exact .inl hstart
      · exact .inr ⟨d, hlt, hstart⟩

/-- **The search is sound and complete**: what is returned are the token tables, each once and in order. -/
theorem findKallsymsTokenTables_complete (himage : image.length ≤ ISIZE_MAX) :
    (∀ tokens start indexOffset, (tokens, start, indexOffset) ∈ findKallsymsTokenTables image ↔
      TokenTableAt image start tokens indexOffset) ∧
    ((findKallsymsTokenTables image).map (·.2.1)).Pairwise (· < ·) := by
  have hempty : TokenTables.Sound image [] := ⟨List.Pairwise.nil, List.forall_mem_nil _⟩
  obtain ⟨hsound, hmem⟩ := TokenTables.Sound.scanDigits himage 0 [] hempty
  rw [findKallsymsTokenTables]
  refine ⟨fun tokens start indexOffset => ?_, ?_⟩
  · rw [List.mem_map]
    constructor
    · rintro ⟨e, he, heq⟩
      obtain ⟨rfl, hpair⟩ := Prod.mk.inj heq
      obtain ⟨rfl, rfl⟩ := Prod.mk.inj hpair
      exact hsound.tables e he
    · intro htable
      obtain ⟨d, hstart, -⟩ := htable.digits
      exact ⟨(start, tokens, indexOffset), (hmem _).mpr (.inr ⟨htable, d, Nat.zero_le d, hstart⟩), rfl⟩
  · rw [List.map_map, List.pairwise_map]
    exact hsound.sorted

/-! ### A table that is written -/

/-- Where the index of a table of so many bytes is. -/
def indexBehind (size : ℕ) : ℕ := (size + 7) / 8 * 8

/-- A table: the tokens, zeros and the index. -/
def tokenTable (tokens : List (List UInt8)) : List UInt8 :=
  tokenBytes tokens ++ List.replicate (indexBehind (tokenBytes tokens).length - (tokenBytes tokens).length) 0 ++
    (tokenStartsFrom 0 tokens).flatMap (encodeLE 2)

theorem tokenStartsFrom_lt {position offset : ℕ} {tokens : List (List UInt8)}
    (h : offset ∈ tokenStartsFrom position tokens) : offset < position + (tokenBytes tokens).length := by
  induction tokens generalizing position with
  | nil => exact absurd h List.not_mem_nil
  | cons token tokens ih =>
    rw [tokenBytes_cons, List.length_append, List.length_append, List.length_singleton]
    rcases List.mem_cons.mp h with rfl | hrest
    · omega
    · have hlt := ih hrest
      omega

theorem tokenTable_length {tokens : List (List UInt8)} :
    (tokenTable tokens).length = indexBehind (tokenBytes tokens).length + tokens.length * 2 := by
  rw [tokenTable, List.length_append, List.length_append, List.length_replicate,
    flatMap_length_const (encodeLE_length 2), tokenStartsFrom_length, indexBehind]
  omega

/-- **A table that is written** is one. -/
theorem tokenTable_at {tokens : List (List UInt8)} (hcount : tokens.length = KALLSYMS_TOKEN_COUNT)
    (hprintable : ∀ t ∈ tokens, PrintableToken t)
    (hsingle : ∀ value ∈ singleTokens, tokens[value.toNat]? = some [value])
    (hsize : (tokenBytes tokens).length ≤ 2 ^ 16) :
    TokenTableAt (tokenTable tokens) 0 tokens (indexBehind (tokenBytes tokens).length) := by
  have hround : (tokenBytes tokens).length ≤ indexBehind (tokenBytes tokens).length ∧
      indexBehind (tokenBytes tokens).length < (tokenBytes tokens).length + 8 ∧
      indexBehind (tokenBytes tokens).length % 8 = 0 := by
    rw [indexBehind]
    omega
  have hall := hasAt_full (tokenTable tokens)
  rw [tokenTable] at hall
  obtain ⟨hfront, hindex⟩ := hasAt_append.mp hall
  obtain ⟨hstrings, hpadding⟩ := hasAt_append.mp hfront
  rw [List.length_append, List.length_replicate, Nat.zero_add, Nat.add_sub_cancel' hround.1] at hindex
  constructor
  case aligned => rfl
  case count => exact hcount
  case printable => exact hprintable
  case strings => exact hstrings
  case single => exact hsingle
  case indexAligned => exact hround.2.2
  case behind => rw [Nat.zero_add]; exact hround.1
  case next => rw [Nat.zero_add]; exact hround.2.1
  case padding =>
    intro b hb
    have hzeros := hpadding.slice_eq (List.length_replicate)
    rw [Nat.zero_add] at hzeros hb
    exact List.eq_of_mem_replicate (hzeros ▸ hb)
  case inside =>
    rw [tokenTable_length, hcount]
    exact Nat.le_refl _
  case index =>
    intro i offset hoffset
    have hmem := List.mem_of_getElem? hoffset
    have hlt := tokenStartsFrom_lt hmem
    obtain ⟨hi, -⟩ := List.getElem?_eq_some_iff.mp hoffset
    have hword := slice_flatMap_const (encodeLE_length 2) hoffset
    have hlength := flatMap_length_const (encodeLE_length 2) (tokenStartsFrom 0 tokens)
    rw [← hindex.2, slice_slice _ (by omega), Nat.mul_comm] at hword
    rw [tokenTable, hword, decodeLE_encodeLE_of_lt 2 offset (by omega)]

/-- Every token that has to be its own character is, and the others are `!`. -/
def plainTokens : List (List UInt8) :=
  (List.range 256).map fun code => if UInt8.ofNat code ∈ singleTokens then [UInt8.ofNat code] else [0x21]

theorem plainTokens_printable : ∀ t ∈ plainTokens, PrintableToken t := by
  have hcodes : ∀ b ∈ singleTokens, (0x20 ≤ b && b ≤ 0x7e) = true := List.all_eq_true.mp (by decide)
  intro t ht
  obtain ⟨code, -, rfl⟩ := List.mem_map.mp ht
  split_ifs with hsingle
  · have hcode := hcodes _ hsingle
    rw [Bool.and_eq_true, decide_eq_true_eq, decide_eq_true_eq] at hcode
    exact ⟨Nat.one_pos, show 1 ≤ 256 by decide, List.forall_mem_singleton.mpr hcode⟩
  · exact ⟨Nat.one_pos, show 1 ≤ 256 by decide, List.forall_mem_singleton.mpr ⟨by decide, by decide⟩⟩

theorem plainTokens_single : ∀ value ∈ singleTokens, plainTokens[value.toNat]? = some [value] := by
  intro value hvalue
  have hcode : UInt8.ofNat value.toNat = value := UInt8.ofNat_toNat
  rw [plainTokens, List.getElem?_map, List.getElem?_range value.toNat_lt, Option.map_some, hcode, if_pos hvalue]

theorem plainTokens_count : plainTokens.length = KALLSYMS_TOKEN_COUNT := by
  rw [plainTokens, List.length_map, List.length_range, KALLSYMS_TOKEN_COUNT]

theorem plainTokens_bytes : (tokenBytes plainTokens).length = 512 := by
  rw [tokenBytes, plainTokens, List.flatMap_map, flatMap_length_const (w := 2), List.length_range]
  intro code
  split_ifs <;> rfl

theorem findKallsymsTokenTables_complete_plain :
    (plainTokens, 0, indexBehind (tokenBytes plainTokens).length) ∈ findKallsymsTokenTables (tokenTable plainTokens) := by
  have htable := tokenTable_at plainTokens_count plainTokens_printable plainTokens_single
    (by rw [plainTokens_bytes]; decide)
  have hlength : (tokenTable plainTokens).length ≤ ISIZE_MAX := by
    rw [tokenTable_length, plainTokens_bytes, plainTokens_count]
    decide
  exact ((findKallsymsTokenTables_complete hlength).1 _ _ _).mpr htable

end KernelSU.LkmImage
