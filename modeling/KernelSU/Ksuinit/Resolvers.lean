import KernelSU.Ksuinit.Kallsyms
import KernelSU.LkmImage.SymbolMap

/-!
# The two resolvers

`ksuinit` and `ksud` resolve the symbols of a module from one listing.  `ksuinit` takes the first line whose
name, cut at a marker, is the symbol's; `ksud` takes the exact name, and its variants only where there is
none.

* `kernelSymbols_lines` — **PROVED**: what `ksuinit` reads of a listing;
* `normalizeSymbol_strippedName` — **PROVED**: what `ksuinit` takes for a symbol is a variant to `ksud`;
* `resolvers_agree_iff` — **PROVED**: when the two agree;
* `resolvers_disagree` — **PROVED**: a variant in front of the exact name.
-/

namespace KernelSU.Ksuinit

open KernelSU.Lib KernelSU.LkmImage

/-! ### Listings -/

/-- A name as it stands in a listing. -/
def IsName (name : String) : Prop := name.toList ≠ [] ∧ ∀ c ∈ name.toList, isWhitespace c = false

theorem isName_of_all {name : String} (hne : name.toList ≠ [])
    (hall : name.toList.all (!isWhitespace ·) = true) : IsName name := by
  refine ⟨hne, fun c hc => ?_⟩
  have hc' := List.all_eq_true.mp hall c hc
  rwa [Bool.not_eq_true'] at hc'

/-- A line of the listing, with an address that is not hidden. -/
structure KallsymsEntry where
  address : ℕ
  kind : Char
  name : String
  address_pos : 0 < address
  address_lt : address < 2 ^ 64
  isKind : isWhitespace kind = false
  isName : IsName name

namespace KallsymsEntry

/-- The line: `%016lx %c %s`. -/
def line (e : KallsymsEntry) : List Char := hexText 16 e.address ++ ' ' :: [e.kind] ++ ' ' :: e.name.toList

/-- What `ksud` keeps of it. -/
def toMapSymbol (e : KallsymsEntry) : MapSymbol := ⟨e.address, e.name⟩

/-- What `ksuinit` takes the name for. -/
def strippedName (e : KallsymsEntry) : String := String.ofList (stripSuffix e.name.toList)

end KallsymsEntry

/-- A listing: the kernel's symbols, and behind them the symbols of modules, each with its module. -/
structure Listing where
  entries : List KallsymsEntry
  modules : List (KallsymsEntry × {name : String // IsName name})

/-- The lines of the listing. -/
def Listing.lines (listing : Listing) : List (List Char) :=
  listing.entries.map KallsymsEntry.line ++
    listing.modules.map fun e => e.1.line ++ '\t' :: '[' :: e.2.1.toList ++ [']']

theorem isWhitespace_of_mem_hexText {k n : ℕ} {c : Char} (hc : c ∈ hexText k n) : isWhitespace c = false := by
  obtain ⟨d, hd, rfl⟩ := digitChar_of_mem_hexText hc
  exact (by decide : ∀ d < 16, isWhitespace (Nat.digitChar d) = false) d hd

theorem fromStrRadix16_of_digits {text : List Char} {n : ℕ} (hne : text ≠ []) (hplus : '+' ∉ text)
    (hvalue : hexDigitsValue text = some n) (hn : n < 2 ^ 64) : fromStrRadix16 text = some n := by
  have hskip : skipPlus text = text := by
    unfold skipPlus
    split
    · exact absurd List.mem_cons_self hplus
    · rfl
  rw [fromStrRadix16, hskip, if_neg hne, hvalue, Option.bind_some, if_pos hn]

theorem hexText_sixteen_ne_nil (n : ℕ) : hexText 16 n ≠ [] :=
  List.ne_nil_of_length_pos (by rw [hexText_length]; decide)

theorem fromStrRadix16_hexText {n : ℕ} (hn : n < 2 ^ 64) : fromStrRadix16 (hexText 16 n) = some n := by
  refine fromStrRadix16_of_digits (hexText_sixteen_ne_nil n) (fun hc => ?_) ?_ hn
  · obtain ⟨d, hd, hplus⟩ := digitChar_of_mem_hexText hc
    exact (by decide : ∀ d < 16, '+' ≠ Nat.digitChar d) d hd hplus
  · rw [hexDigitsValue_hexText]
    exact congrArg some (Nat.mod_eq_of_lt hn)

namespace KallsymsEntry

/-- The words of a line and of what follows it behind a blank. -/
theorem splitWhitespace_line_append (e : KallsymsEntry) (c : Char) (hc : isWhitespace c = true)
    (rest : List Char) :
    splitWhitespace (e.line ++ c :: rest) =
      hexText 16 e.address :: [e.kind] :: e.name.toList :: splitWhitespace rest := by
  have hblank : isWhitespace ' ' = true := rfl
  have hkind : ∀ c ∈ [e.kind], isWhitespace c = false := fun c hc => List.mem_singleton.mp hc ▸ e.isKind
  have hline : e.line ++ c :: rest =
      hexText 16 e.address ++ ' ' :: ([e.kind] ++ ' ' :: (e.name.toList ++ c :: rest)) := by
    unfold line
    simp only [List.append_assoc, List.cons_append, List.nil_append]
  unfold splitWhitespace
  rw [hline, words_append (fun c hc => isWhitespace_of_mem_hexText hc) (hexText_sixteen_ne_nil _) hblank,
    words_append hkind (List.cons_ne_nil _ _) hblank, words_append e.isName.2 e.isName.1 hc]

theorem splitWhitespace_line (e : KallsymsEntry) :
    splitWhitespace e.line = [hexText 16 e.address, [e.kind], e.name.toList] := by
  have hblank : isWhitespace ' ' = true := rfl
  have hkind : ∀ c ∈ [e.kind], isWhitespace c = false := fun c hc => List.mem_singleton.mp hc ▸ e.isKind
  have hline : e.line = hexText 16 e.address ++ ' ' :: ([e.kind] ++ ' ' :: e.name.toList) := by
    unfold line
    simp only [List.append_assoc, List.cons_append]
  unfold splitWhitespace
  rw [hline, words_append (fun c hc => isWhitespace_of_mem_hexText hc) (hexText_sixteen_ne_nil _) hblank,
    words_append hkind (List.cons_ne_nil _ _) hblank, words_singleton e.isName.2 e.isName.1]

theorem kernelSymbol_line (e : KallsymsEntry) : kernelSymbol e.line = some (e.strippedName, e.address) := by
  unfold kernelSymbol
  rw [splitWhitespace_line]
  dsimp only
  rw [fromStrRadix16_hexText e.address_lt]
  rfl

/-- A module's symbol has a fourth word. -/
theorem kernelSymbol_moduleLine (e : KallsymsEntry) {name : String} (hname : IsName name) :
    kernelSymbol (e.line ++ '\t' :: '[' :: name.toList ++ [']']) = none := by
  have hmodule : ∀ c ∈ '[' :: name.toList ++ [']'], isWhitespace c = false := by
    intro c hc
    rcases List.mem_append.mp hc with hc | hc
    · rcases List.mem_cons.mp hc with rfl | hc
      · rfl
      · exact hname.2 c hc
    · rw [List.mem_singleton.mp hc]
      rfl
  have hwords : splitWhitespace (e.line ++ '\t' :: '[' :: name.toList ++ [']']) =
      [hexText 16 e.address, [e.kind], e.name.toList, '[' :: name.toList ++ [']']] := by
    have hshape : e.line ++ '\t' :: '[' :: name.toList ++ [']'] =
        e.line ++ '\t' :: ('[' :: name.toList ++ [']']) := by
      rw [List.append_assoc, List.cons_append]
    rw [hshape, splitWhitespace_line_append e '\t' rfl]
    exact congrArg _ (congrArg _ (congrArg _ (words_singleton hmodule (List.cons_ne_nil _ _))))
  unfold kernelSymbol
  rw [hwords]

end KallsymsEntry

/-- **What `ksuinit` reads of a listing**: every symbol of the kernel, under its cut name. -/
theorem kernelSymbols_lines (listing : Listing) :
    kernelSymbols listing.lines = listing.entries.map fun e => (e.strippedName, e.address) := by
  obtain ⟨entries, modules⟩ := listing
  unfold Listing.lines
  dsimp only
  induction entries with
  | nil =>
    cases modules with
    | nil => rfl
    | cons e modules =>
      simp only [List.map_nil, List.nil_append, List.map_cons, kernelSymbols]
      rw [KallsymsEntry.kernelSymbol_moduleLine e.1 e.2.2]
  | cons e entries ih =>
    simp only [List.map_cons, List.cons_append, kernelSymbols]
    rw [KallsymsEntry.kernelSymbol_line, ih]

/-! ### Names and variants -/

theorem markerStop_eq (text : List Char) :
    markerStop text =
      min (min text.length ((findPattern "$".toList text).getD text.length))
        ((findPattern ".llvm.".toList text).getD text.length) := by
  unfold markerStop
  simp only [List.foldl_cons, List.foldl_nil]
  cases findPattern "$".toList text <;> cases findPattern ".llvm.".toList text <;>
    simp only [Option.getD_some, Option.getD_none] <;> omega

theorem findPattern_lt {pattern text : List Char} (hpattern : pattern ≠ []) {i : ℕ}
    (h : findPattern pattern text = some i) : i < text.length := by
  have hfound := ((findPattern_eq_some_iff hpattern text i).mp h).1
  have hlength := hfound.length_le
  have hpos := List.length_pos_iff.mpr hpattern
  rw [List.length_drop] at hlength
  omega

/-- What stands in front of the first marker of a name is what stands in front of the first marker of what
`ksuinit` leaves of the name. -/
theorem take_markerStop_stripSuffix (text : List Char) :
    (stripSuffix text).take (markerStop (stripSuffix text)) = text.take (markerStop text) := by
  have hdollar : "$".toList ≠ [] := List.cons_ne_nil _ _
  have hllvm : ".llvm.".toList ≠ [] := List.cons_ne_nil _ _
  have hone : "$".toList.length = 1 := rfl
  have hsix : ".llvm.".toList.length = 6 := rfl
  unfold stripSuffix
  cases hp : findPattern "$".toList text with
  | some p =>
    obtain ⟨hdollarAt, hfirst⟩ := (findPattern_eq_some_iff hdollar text p).mp hp
    have hlt := findPattern_lt hdollar hp
    have hno : findPattern "$".toList (text.take p) = none :=
      findPattern_take_eq_none hdollar fun i hi => hfirst i (by omega)
    show (text.take p).take (markerStop (text.take p)) = _
    rw [markerStop_eq, markerStop_eq, hp, hno, Option.getD_some, Option.getD_none, List.take_take,
      List.length_take]
    cases hq : findPattern ".llvm.".toList text with
    | none =>
      have hnone : findPattern ".llvm.".toList (text.take p) = none :=
        findPattern_take_eq_none hllvm fun i _ => (findPattern_eq_none_iff hllvm text).mp hq i
      rw [hnone, Option.getD_none, Option.getD_none]
      congr 1
      omega
    | some q =>
      obtain ⟨hllvmAt, hfirst'⟩ := (findPattern_eq_some_iff hllvm text q).mp hq
      by_cases hle : q + 6 ≤ p
      · rw [findPattern_take hllvm hq (by omega), Option.getD_some, Option.getD_some]
        congr 1
        omega
      · -- `$` is none of the characters of `.llvm.`, so the two do not overlap
        have hpq : p ≤ q := by
          by_contra hlt'
          have hmem := mem_of_prefix_drop hllvmAt hdollarAt (by omega) (by omega)
          exact absurd hmem (by decide)
        have hnone : findPattern ".llvm.".toList (text.take p) = none :=
          findPattern_take_eq_none hllvm fun i hi => hfirst' i (by omega)
        rw [hnone, Option.getD_none, Option.getD_some]
        congr 1
        omega
  | none =>
    cases hq : findPattern ".llvm.".toList text with
    | none => rfl
    | some q =>
      obtain ⟨-, hfirst⟩ := (findPattern_eq_some_iff hllvm text q).mp hq
      have hlt := findPattern_lt hllvm hq
      have hno : findPattern "$".toList (text.take q) = none :=
        findPattern_take_eq_none hdollar fun i _ => (findPattern_eq_none_iff hdollar text).mp hp i
      have hnone : findPattern ".llvm.".toList (text.take q) = none :=
        findPattern_take_eq_none hllvm fun i hi => hfirst i (by omega)
      show (text.take q).take (markerStop (text.take q)) = _
      rw [markerStop_eq, markerStop_eq, hp, hq, hno, hnone, Option.getD_some, Option.getD_none,
        Option.getD_none, List.take_take, List.length_take]
      congr 1
      omega

/-- **What `ksuinit` takes for a symbol is a variant of it to `ksud`.** -/
theorem normalizeSymbol_strippedName (e : KallsymsEntry) : normalizeSymbol e.strippedName = normalizeSymbol e.name := by
  unfold normalizeSymbol KallsymsEntry.strippedName
  rw [String.toList_ofList, take_markerStop_stripSuffix]

/-! ### When the resolvers agree -/

/-- The symbols that `ksud` keeps of a listing. -/
def Listing.mapSymbols (listing : Listing) : List MapSymbol := listing.entries.map KallsymsEntry.toMapSymbol

/-- The two resolvers agree on a name: `ksuinit` takes an entry of exactly that name where there is one, and
gives the address that `ksud` gives, where it gives one. -/
structure Agree (listing : Listing) (syms : List ElfSym) (name : String) : Prop where
  exact : (∃ e ∈ listing.entries, e.name = name) →
    ∃ e ∈ listing.entries, e.name = name ∧ resolvedAddress listing.lines syms name = some e.address
  follows : ∀ map symbol, SymbolMap.new listing.mapSymbols = .ok map → map.resolve name = .ok symbol →
    resolvedAddress listing.lines syms name = some symbol.address

/-- What the listing has to be like: the first entry whose cut name is the symbol's is at the address of an entry of
exactly that name, if there is one; and if all variants are at one address, one of them is cut to the name. -/
structure InOrder (listing : Listing) (name : String) : Prop where
  exact : (∃ e ∈ listing.entries, e.name = name) →
    ∃ before e behind, listing.entries = before ++ e :: behind ∧ e.strippedName = name ∧
      (∀ x ∈ before, x.strippedName ≠ name) ∧ ∃ x ∈ listing.entries, x.name = name ∧ x.address = e.address
  variant : (∀ e ∈ listing.entries, e.name ≠ name) →
    (∃ address, ∀ e ∈ listing.entries, normalizeSymbol e.name = normalizeSymbol name → e.address = address) →
      (∃ e ∈ listing.entries, normalizeSymbol e.name = normalizeSymbol name) →
        ∃ e ∈ listing.entries, e.strippedName = name

section Agreement

variable {listing : Listing} {syms : List ElfSym} {name : String}

theorem resolvedAddress_lines (h : IsUndefined syms name) :
    resolvedAddress listing.lines syms name =
      (listing.entries.find? (·.strippedName = name)).map KallsymsEntry.address := by
  rw [resolvedAddress_eq listing.lines h, kernelSymbols_lines, List.find?_map, Option.map_map]
  rfl

/-- The symbols that `ksud` files under a condition on the name. -/
theorem uniqueAddress_filter_iff {map : SymbolMap} (hmap : SymbolMap.new listing.mapSymbols = .ok map)
    {p : String → Prop} [DecidablePred p] {address : ℕ} :
    UniqueAddress (map.entries.filter (p ·.name)) address ↔
      (∃ e ∈ listing.entries, p e.name) ∧ ∀ e ∈ listing.entries, p e.name → e.address = address := by
  have hmem : ∀ symbol, symbol ∈ map.entries.filter (p ·.name) ↔
      ∃ e ∈ listing.entries, p e.name ∧ e.toMapSymbol = symbol := by
    intro symbol
    rw [List.mem_filter, SymbolMap.mem_entries_iff hmap, Listing.mapSymbols, List.mem_map, decide_eq_true_eq]
    constructor
    · rintro ⟨⟨⟨e, he, rfl⟩, -⟩, hp⟩
      exact ⟨e, he, hp, rfl⟩
    · rintro ⟨e, he, hp, rfl⟩
      exact ⟨⟨⟨e, he, rfl⟩, Nat.ne_of_gt e.address_pos⟩, hp⟩
  constructor
  · rintro ⟨hne, hall⟩
    obtain ⟨symbol, hsymbol⟩ := List.exists_mem_of_ne_nil _ hne
    obtain ⟨e, he, hp, -⟩ := (hmem symbol).mp hsymbol
    exact ⟨⟨e, he, hp⟩, fun e he hp => hall e.toMapSymbol ((hmem _).mpr ⟨e, he, hp, rfl⟩)⟩
  · rintro ⟨⟨e, he, hp⟩, hall⟩
    refine ⟨List.ne_nil_of_mem ((hmem _).mpr ⟨e, he, hp, rfl⟩), fun symbol hsymbol => ?_⟩
    obtain ⟨e, he, hp, rfl⟩ := (hmem symbol).mp hsymbol
    exact hall e he hp

theorem uniqueAddress_byName_iff {map : SymbolMap} (hmap : SymbolMap.new listing.mapSymbols = .ok map)
    {address : ℕ} :
    UniqueAddress (map.byName name) address ↔
      (∃ e ∈ listing.entries, e.name = name) ∧ ∀ e ∈ listing.entries, e.name = name → e.address = address :=
  uniqueAddress_filter_iff hmap (p := (· = name))

theorem uniqueAddress_byNormalizedName_iff {map : SymbolMap} (hmap : SymbolMap.new listing.mapSymbols = .ok map)
    {address : ℕ} :
    UniqueAddress (map.byNormalizedName (normalizeSymbol name)) address ↔
      (∃ e ∈ listing.entries, normalizeSymbol e.name = normalizeSymbol name) ∧
        ∀ e ∈ listing.entries, normalizeSymbol e.name = normalizeSymbol name → e.address = address :=
  uniqueAddress_filter_iff hmap (p := fun n => normalizeSymbol n = normalizeSymbol name)

theorem byName_eq_nil_iff {map : SymbolMap} (hmap : SymbolMap.new listing.mapSymbols = .ok map) :
    map.byName name = [] ↔ ∀ e ∈ listing.entries, e.name ≠ name := by
  unfold SymbolMap.byName
  rw [List.filter_eq_nil_iff]
  constructor
  · intro h e he hname
    have hmem := (SymbolMap.mem_entries_iff hmap).mpr
      ⟨List.mem_map_of_mem he, Nat.ne_of_gt e.address_pos⟩
    exact h e.toMapSymbol hmem (decide_eq_true hname)
  · intro h symbol hsymbol hname
    obtain ⟨e, he, rfl⟩ := List.mem_map.mp ((SymbolMap.mem_entries_iff hmap).mp hsymbol).1
    exact h e he (of_decide_eq_true hname)

/-- In front of the first entry that is cut to the name there is no other. -/
theorem find?_strippedName_iff {e : KallsymsEntry} :
    listing.entries.find? (·.strippedName = name) = some e ↔
      ∃ before behind, listing.entries = before ++ e :: behind ∧ e.strippedName = name ∧
        ∀ x ∈ before, x.strippedName ≠ name := by
  rw [List.find?_eq_some_iff_append]
  constructor
  · rintro ⟨hname, before, behind, hsplit, hbefore⟩
    exact ⟨before, behind, hsplit, of_decide_eq_true hname, fun x hx => by simpa using hbefore x hx⟩
  · rintro ⟨before, behind, hsplit, hname, hbefore⟩
    exact ⟨decide_eq_true hname, before, behind, hsplit, fun x hx => by simpa using hbefore x hx⟩

theorem of_find?_strippedName {e : KallsymsEntry}
    (h : listing.entries.find? (·.strippedName = name) = some e) : e ∈ listing.entries ∧ e.strippedName = name := by
  have hname := List.find?_some h
  exact ⟨List.mem_of_find?_eq_some h, of_decide_eq_true hname⟩

theorem Agree.inOrder (hname : IsUndefined syms name) (h : Agree listing syms name) : InOrder listing name where
  exact hexact := by
    obtain ⟨x, hx, hxname, hresolved⟩ := h.exact hexact
    rw [resolvedAddress_lines hname] at hresolved
    obtain ⟨e, hfind, haddress⟩ := Option.map_eq_some_iff.mp hresolved
    obtain ⟨before, behind, hsplit, hstripped, hbefore⟩ := find?_strippedName_iff.mp hfind
    exact ⟨before, e, behind, hsplit, hstripped, hbefore, x, hx, hxname, haddress.symm⟩
  variant hnone hunique hvariant := by
    obtain ⟨address, hall⟩ := hunique
    obtain ⟨v, hv, hvname⟩ := hvariant
    obtain ⟨map, hmap⟩ := SymbolMap.exists_new (List.mem_map_of_mem (f := KallsymsEntry.toMapSymbol) hv)
      (Nat.ne_of_gt v.address_pos)
    obtain ⟨symbol, hresolve, -⟩ := SymbolMap.resolve_eq_ok_iff.mpr
      (.inr ⟨(byName_eq_nil_iff hmap).mpr hnone, (uniqueAddress_byNormalizedName_iff hmap).mpr ⟨⟨v, hv, hvname⟩, hall⟩⟩)
    have hresolved := h.follows map symbol hmap hresolve
    rw [resolvedAddress_lines hname] at hresolved
    obtain ⟨e, hfind, -⟩ := Option.map_eq_some_iff.mp hresolved
    obtain ⟨hmem, hstripped⟩ := of_find?_strippedName hfind
    exact ⟨e, hmem, hstripped⟩

theorem InOrder.agree (hname : IsUndefined syms name) (h : InOrder listing name) : Agree listing syms name := by
  have hexact : (∃ e ∈ listing.entries, e.name = name) →
      ∃ e ∈ listing.entries, e.name = name ∧ resolvedAddress listing.lines syms name = some e.address := by
    intro hexists
    obtain ⟨before, e, behind, hsplit, hstripped, hbefore, x, hx, hxname, haddress⟩ := h.exact hexists
    refine ⟨x, hx, hxname, ?_⟩
    rw [resolvedAddress_lines hname, find?_strippedName_iff.mpr ⟨before, behind, hsplit, hstripped, hbefore⟩,
      haddress]
    rfl
  refine ⟨hexact, fun map symbol hmap hresolve => ?_⟩
  rcases SymbolMap.resolve_eq_ok_iff.mp ⟨symbol, hresolve, rfl⟩ with hunique | ⟨hnil, hunique⟩
  · obtain ⟨hexists, hall⟩ := (uniqueAddress_byName_iff hmap).mp hunique
    obtain ⟨x, hx, hxname, hresolved⟩ := hexact hexists
    rw [hresolved, hall x hx hxname]
  · obtain ⟨hexists, hall⟩ := (uniqueAddress_byNormalizedName_iff hmap).mp hunique
    obtain ⟨e, he, hstripped⟩ := h.variant ((byName_eq_nil_iff hmap).mp hnil) ⟨symbol.address, hall⟩ hexists
    -- the first entry that is cut to the name is a variant too
    obtain ⟨first, hfind⟩ : ∃ first, listing.entries.find? (·.strippedName = name) = some first :=
      Option.isSome_iff_exists.mp (List.find?_isSome.mpr ⟨e, he, decide_eq_true hstripped⟩)
    obtain ⟨hmem, hfirst⟩ := of_find?_strippedName hfind
    have hvariant : normalizeSymbol first.name = normalizeSymbol name := by
      rw [← normalizeSymbol_strippedName, hfirst]
    rw [resolvedAddress_lines hname, hfind, Option.map_some,
      hall first hmem hvariant]

/-- **When the resolvers agree** on an undefined symbol. -/
theorem resolvers_agree_iff (hname : IsUndefined syms name) :
    Agree listing syms name ↔ InOrder listing name :=
  ⟨Agree.inOrder hname, InOrder.agree hname⟩

end Agreement

/-! ### Two orders of one listing -/

/-- A function, and a copy of it that the compiler made. -/
def vmallocEntry : KallsymsEntry := 
  ⟨0xffffffc008100000, 'T', "vmalloc", by decide, by decide, rfl, isName_of_all (by decide) rfl⟩

def vmallocCopy : KallsymsEntry := 
  ⟨0xffffffc008000000, 't', "vmalloc.llvm.1", by decide, by decide, rfl, isName_of_all (by decide) rfl⟩

/-- A module that calls `vmalloc`. -/
def vmallocModule : List ElfSym := [⟨none, SHN_UNDEF, 0⟩, ⟨some "vmalloc", SHN_UNDEF, 0⟩]

theorem vmallocModule_isUndefined : IsUndefined vmallocModule "vmalloc" :=
  ⟨1, _, Nat.one_ne_zero, rfl, rfl, rfl⟩

theorem resolvers_agree_iff_vmalloc : Agree ⟨[vmallocEntry, vmallocCopy], []⟩ vmallocModule "vmalloc" := by
  refine (resolvers_agree_iff vmallocModule_isUndefined).mpr ⟨fun _ => ?_, fun h => ?_⟩
  · exact ⟨[], vmallocEntry, [vmallocCopy], rfl, by decide, fun x hx => absurd hx List.not_mem_nil,
      vmallocEntry, List.mem_cons_self, rfl, rfl⟩
  · exact absurd rfl (h vmallocEntry List.mem_cons_self)

/-- **The copy in front of the function** is what `ksuinit` resolves the function's name to. -/
theorem resolvers_disagree : ¬∀ listing syms name, IsUndefined syms name → Agree listing syms name := by
  intro h
  have hagree := h ⟨[vmallocCopy, vmallocEntry], []⟩ vmallocModule "vmalloc" vmallocModule_isUndefined
  obtain ⟨e, he, hname, hresolved⟩ := hagree.exact ⟨vmallocEntry, by simp, rfl⟩
  have hcopy : resolvedAddress (Listing.lines ⟨[vmallocCopy, vmallocEntry], []⟩) vmallocModule "vmalloc" =
      some vmallocCopy.address := by
    rw [resolvedAddress_lines vmallocModule_isUndefined]
    decide
  rw [hcopy] at hresolved
  rcases List.mem_cons.mp he with rfl | he
  · exact absurd hname (by decide)
  · obtain rfl := List.mem_singleton.mp he
    exact absurd hresolved (by decide)

end KernelSU.Ksuinit
