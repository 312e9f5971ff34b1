import Mathlib.Data.String.Basic
import KernelSU.Lib.Text
import KernelSU.LkmImage.Kallsyms

/-!
# `userspace/ksud/src/lkm_image.rs`: looking symbols up

A symbol is looked up by its exact name first, and then among the names that differ from it only in what the
compiler added: `$...`, `.llvm....` and `.cfi_jt`.  Either way the address has to be the only one.

* `UniqueAddress` — symbols, at least one, that are all at an address;
* `SymbolMap.resolve_eq_ok_iff` — **PROVED**: what a name resolves to.
-/

namespace KernelSU.LkmImage

open KernelSU.Lib

/-- The loop of `normalize_symbol`: where the first marker begins, or the end. -/
def markerStop (text : List Char) : ℕ :=
  ["$", ".llvm."].foldl (fun stop marker =>
    match findPattern marker.toList text with
    | some position => min stop position
    | none => stop) text.length

/-- `normalize_symbol`. -/
def normalizeSymbol (name : String) : String :=
  let text := name.toList.take (markerStop name.toList)
  String.ofList (if ".cfi_jt".toList <:+ text then text.take (text.length - ".cfi_jt".length) else text)

/-- The order of the entries: by address, then by name. -/
def MapSymbol.le (left right : MapSymbol) : Bool :=
  decide (left.address < right.address ∨ left.address = right.address ∧ left.name ≤ right.name)

/-- `SymbolMap`; the two maps from names to indices are the two filters below. -/
structure SymbolMap where
  entries : List MapSymbol

/-- Why a name does not resolve; the candidates are those of which the message renders eight. -/
inductive ResolveError where
  | notFound (requestedName : String)
  | notUnique (requestedName : String) (candidates : List MapSymbol)

/-- The first entry at each address, as a `BTreeMap` filled with `or_insert` from sorted entries gives them. -/
def uniqueByAddress : List MapSymbol → List MapSymbol
  | [] => []
  | candidate :: rest => candidate :: (uniqueByAddress rest).filter (·.address ≠ candidate.address)

namespace SymbolMap

/-- `SymbolMap::new`. -/
def new (entries : List MapSymbol) : Except String SymbolMap :=
  let entries := entries.filter (·.address ≠ 0)
  if entries.isEmpty then .error "symbol map has no non-zero kernel addresses"
  else .ok ⟨entries.mergeSort MapSymbol.le⟩

/-- `by_name`. -/
def byName (map : SymbolMap) (name : String) : List MapSymbol := map.entries.filter (·.name = name)

/-- `by_normalized_name`. -/
def byNormalizedName (map : SymbolMap) (name : String) : List MapSymbol :=
  map.entries.filter (normalizeSymbol ·.name = name)

/-- `SymbolMap::variants`. -/
def variants (map : SymbolMap) (requestedName : String) : List MapSymbol :=
  uniqueByAddress (map.byNormalizedName (normalizeSymbol requestedName))

/-- `SymbolMap::resolve`. -/
def resolve (map : SymbolMap) (requestedName : String) : Except ResolveError MapSymbol :=
  match uniqueByAddress (map.byName requestedName) with
  | [symbol] => .ok symbol
  | _ =>
    match map.variants requestedName with
    | [symbol] => .ok symbol
    | [] => .error (.notFound requestedName)
    | candidates => .error (.notUnique requestedName candidates)

/-- `SymbolMap::resolve_module_symbol`. -/
def resolveModuleSymbol (map : SymbolMap) (requestedName : String) : Option MapSymbol :=
  (map.resolve requestedName).toOption

/-- `SymbolMap::next_address`. -/
def nextAddress (map : SymbolMap) (address : ℕ) : Option ℕ :=
  (map.entries.find? (·.address > address)).map (·.address)

end SymbolMap

/-! ### What a name resolves to -/

/-- There are symbols, and they are all at the address. -/
def UniqueAddress (symbols : List MapSymbol) (address : ℕ) : Prop :=
  symbols ≠ [] ∧ ∀ symbol ∈ symbols, symbol.address = address

theorem uniqueByAddress_eq_nil_iff {symbols : List MapSymbol} : uniqueByAddress symbols = [] ↔ symbols = [] := by
  cases symbols with
  | nil => exact Iff.rfl
  | cons x xs => exact ⟨fun h => absurd h (List.cons_ne_nil _ _), fun h => absurd h (List.cons_ne_nil _ _)⟩

theorem mem_of_mem_uniqueByAddress {symbols : List MapSymbol} {symbol : MapSymbol}
    (h : symbol ∈ uniqueByAddress symbols) : symbol ∈ symbols := by
  induction symbols with
  | nil => exact h
  | cons x xs ih =>
    rcases List.mem_cons.mp h with rfl | h
    · exact List.mem_cons_self
    · exact List.mem_cons_of_mem x (ih (List.mem_of_mem_filter h))

theorem exists_mem_uniqueByAddress {symbols : List MapSymbol} {symbol : MapSymbol} (h : symbol ∈ symbols) :
    ∃ first ∈ uniqueByAddress symbols, first.address = symbol.address := by
  induction symbols with
  | nil => exact absurd h List.not_mem_nil
  | cons x xs ih =>
    by_cases hx : symbol.address = x.address
    · exact ⟨x, List.mem_cons_self, hx.symm⟩
    · rcases List.mem_cons.mp h with rfl | h
      · exact absurd rfl hx
      · obtain ⟨first, hfirst, haddress⟩ := ih h
        refine ⟨first, List.mem_cons_of_mem x (List.mem_filter.mpr ⟨hfirst, ?_⟩), haddress⟩
        rw [haddress]
        exact decide_eq_true hx

/-- **One address** is what leaves one entry. -/
theorem uniqueByAddress_eq_singleton_iff {symbols : List MapSymbol} {address : ℕ} :
    (∃ symbol, uniqueByAddress symbols = [symbol] ∧ symbol.address = address) ↔ UniqueAddress symbols address := by
  constructor
  · rintro ⟨symbol, hunique, rfl⟩
    refine ⟨fun hnil => ?_, fun other hother => ?_⟩
    · rw [uniqueByAddress_eq_nil_iff.mpr hnil] at hunique
      cases hunique
    · obtain ⟨first, hfirst, haddress⟩ := exists_mem_uniqueByAddress hother
      rw [hunique, List.mem_singleton] at hfirst
      rw [← haddress, hfirst]
  · rintro ⟨hne, hall⟩
    cases symbols with
    | nil => exact absurd rfl hne
    | cons x xs =>
      refine ⟨x, ?_, hall x List.mem_cons_self⟩
      have hrest : (uniqueByAddress xs).filter (·.address ≠ x.address) = [] := by
        refine List.filter_eq_nil_iff.mpr fun y hy => ?_
        have hy' := hall y (List.mem_cons_of_mem x (mem_of_mem_uniqueByAddress hy))
        simp [hy', hall x List.mem_cons_self]
      rw [uniqueByAddress, hrest]

namespace SymbolMap

variable {map : SymbolMap} {name : String} {address : ℕ}

theorem byName_subset_byNormalizedName (map : SymbolMap) (name : String) :
    map.byName name ⊆ map.byNormalizedName (normalizeSymbol name) := by
  intro symbol h
  obtain ⟨hmem, hname⟩ := List.mem_filter.mp h
  refine List.mem_filter.mpr ⟨hmem, ?_⟩
  rw [of_decide_eq_true hname]
  exact decide_eq_true rfl

/-- **What a name resolves to**: the only address of the symbols of that name, or, where there is none, of its
variants. -/
theorem resolve_eq_ok_iff :
    (∃ symbol, map.resolve name = .ok symbol ∧ symbol.address = address) ↔
      UniqueAddress (map.byName name) address ∨
        map.byName name = [] ∧ UniqueAddress (map.byNormalizedName (normalizeSymbol name)) address := by
  have hexact : (∃ symbol, uniqueByAddress (map.byName name) = [symbol] ∧ symbol.address = address) ↔
      UniqueAddress (map.byName name) address := uniqueByAddress_eq_singleton_iff
  have hvariants : (∃ symbol, uniqueByAddress (map.byNormalizedName (normalizeSymbol name)) = [symbol] ∧
      symbol.address = address) ↔ UniqueAddress (map.byNormalizedName (normalizeSymbol name)) address :=
    uniqueByAddress_eq_singleton_iff
  unfold resolve
  split
  · rename_i symbol hsymbol
    rw [hsymbol] at hexact
    constructor
    · rintro ⟨_, ⟨⟩, haddress⟩
      exact .inl (hexact.mp ⟨symbol, rfl, haddress⟩)
    · rintro (h | ⟨hnil, -⟩)
      · obtain ⟨symbol', heq, haddress⟩ := hexact.mpr h
        obtain ⟨rfl, -⟩ := List.cons.inj heq
        exact ⟨symbol, rfl, haddress⟩
      · rw [uniqueByAddress_eq_nil_iff.mpr hnil] at hsymbol
        cases hsymbol
  · rename_i hnone
    have hno : ¬UniqueAddress (map.byName name) address := fun h => by
      obtain ⟨symbol, heq, -⟩ := hexact.mpr h
      exact hnone symbol heq
    unfold variants
    split
    · rename_i symbol hsymbol
      rw [hsymbol] at hvariants
      constructor
      · rintro ⟨_, ⟨⟩, haddress⟩
        have hunique := hvariants.mp ⟨symbol, rfl, haddress⟩
        refine .inr ⟨by_contra fun hne => hno ⟨hne, fun x hx => ?_⟩, hunique⟩
        exact hunique.2 x (byName_subset_byNormalizedName map name hx)
      · rintro (h | ⟨-, h⟩)
        · exact absurd h hno
        · obtain ⟨symbol', heq, haddress⟩ := hvariants.mpr h
          obtain ⟨rfl, -⟩ := List.cons.inj heq
          exact ⟨symbol, rfl, haddress⟩
    · rename_i hnil
      constructor
      · rintro ⟨_, h, -⟩
        cases h
      rintro (h | ⟨-, h⟩)
      · exact absurd h hno
      · exact absurd (uniqueByAddress_eq_nil_iff.mp hnil) h.1
    · rename_i hmany _
      constructor
      · rintro ⟨_, h, -⟩
        cases h
      rintro (h | ⟨-, h⟩)
      · exact absurd h hno
      · obtain ⟨symbol, heq, -⟩ := hvariants.mpr h
        exact absurd heq (hmany symbol)

theorem mem_entries_iff {entries : List MapSymbol} (h : SymbolMap.new entries = .ok map) {symbol : MapSymbol} :
    symbol ∈ map.entries ↔ symbol ∈ entries ∧ symbol.address ≠ 0 := by
  simp only [new] at h
  split at h
  · cases h
  · cases h
    rw [List.mem_mergeSort, List.mem_filter, decide_eq_true_eq]

theorem exists_new {entries : List MapSymbol} {symbol : MapSymbol} (hmem : symbol ∈ entries)
    (haddress : symbol.address ≠ 0) : ∃ map, SymbolMap.new entries = .ok map := by
  have hkept : symbol ∈ entries.filter (·.address ≠ 0) := List.mem_filter.mpr ⟨hmem, decide_eq_true haddress⟩
  have hne : ¬(entries.filter (·.address ≠ 0)).isEmpty = true := by
    intro hempty
    rw [List.isEmpty_iff.mp hempty] at hkept
    exact List.not_mem_nil hkept
  exact ⟨_, if_neg hne⟩

end SymbolMap

end KernelSU.LkmImage
