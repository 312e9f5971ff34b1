import Mathlib.Data.Set.Insert
import KernelSU.LkmImage.SymbolMap

/-!
# The order of the symbols

* `SymbolMap.new_perm` — **PROVED**: the symbol map does not depend on the order in which the symbols are listed;
* `addresses` — the non-zero addresses of the symbols with such a name;
* `SymbolMap.resolve_of_perm` — **PROVED**: a name resolves to the one address that it has, or else its variants
  have, whatever the order.
-/

namespace KernelSU.LkmImage

open KernelSU.Lib

/-! ### The sorted entries -/

namespace MapSymbol

theorem le_iff {a b : MapSymbol} :
    a.le b = true ↔ a.address < b.address ∨ a.address = b.address ∧ a.name ≤ b.name := decide_eq_true_iff

theorem le_trans (a b c : MapSymbol) (hab : a.le b = true) (hbc : b.le c = true) : a.le c = true := by
  rw [le_iff] at *
  rcases hab with hab | ⟨hab, hname⟩
  · rcases hbc with hbc | ⟨hbc, -⟩
    · exact .inl (hab.trans hbc)
    · exact .inl (hbc ▸ hab)
  · rcases hbc with hbc | ⟨hbc, hname'⟩
    · exact .inl (hab ▸ hbc)
    · exact .inr ⟨hab.trans hbc, hname.trans hname'⟩

theorem le_total (a b : MapSymbol) : (a.le b || b.le a) = true := by
  rw [Bool.or_eq_true, le_iff, le_iff]
  rcases lt_trichotomy a.address b.address with hlt | heq | hgt
  · exact .inl (.inl hlt)
  · exact (Std.le_total (a := a.name) (b := b.name)).imp (fun h => .inr ⟨heq, h⟩) fun h => .inr ⟨heq.symm, h⟩
  · exact .inr (.inl hgt)

theorem le_antisymm {a b : MapSymbol} (hab : a.le b = true) (hba : b.le a = true) : a = b := by
  rw [le_iff] at hab hba
  have haddress : a.address = b.address := by omega
  have hname : a.name = b.name := by
    rcases hab with hab | ⟨-, hab⟩
    · omega
    · rcases hba with hba | ⟨-, hba⟩
      · omega
      · exact hab.antisymm hba
  cases a
  cases b
  exact congrArg₂ _ haddress hname

end MapSymbol

/-- **The order does not matter.** -/
theorem SymbolMap.new_perm {entries entries' : List MapSymbol} (h : entries.Perm entries') :
    SymbolMap.new entries = SymbolMap.new entries' := by
  have hkept := h.filter (·.address ≠ 0)
  have hempty : (entries.filter (·.address ≠ 0)).isEmpty = (entries'.filter (·.address ≠ 0)).isEmpty := by
    rw [Bool.eq_iff_iff, List.isEmpty_iff_length_eq_zero, List.isEmpty_iff_length_eq_zero, hkept.length_eq]
  have hsorted : (entries.filter (·.address ≠ 0)).mergeSort MapSymbol.le =
      (entries'.filter (·.address ≠ 0)).mergeSort MapSymbol.le := by
    refine List.Perm.eq_of_pairwise (fun a b _ _ => MapSymbol.le_antisymm)
      (List.pairwise_mergeSort MapSymbol.le_trans MapSymbol.le_total _)
      (List.pairwise_mergeSort MapSymbol.le_trans MapSymbol.le_total _) ?_
    exact ((List.mergeSort_perm _ _).trans hkept).trans (List.mergeSort_perm _ _).symm
  simp only [SymbolMap.new, hempty, hsorted]

/-! ### The addresses of a name -/

/-- The non-zero addresses of the symbols with such a name. -/
def addresses (entries : List MapSymbol) (P : String → Prop) : Set ℕ :=
  {address | address ≠ 0 ∧ ∃ symbol ∈ entries, P symbol.name ∧ symbol.address = address}

/-- A symbol with the name is one of its variants. -/
theorem addresses_subset (entries : List MapSymbol) (name : String) :
    addresses entries (· = name) ⊆ addresses entries fun n => normalizeSymbol n = normalizeSymbol name := by
  intro address h
  obtain ⟨hnonzero, symbol, hin, rfl, haddress⟩ := h
  exact ⟨hnonzero, symbol, hin, rfl, haddress⟩

namespace SymbolMap

variable {map : SymbolMap} {entries : List MapSymbol}

/-- The symbols with such a name have one address. -/
theorem uniqueAddress_iff (h : SymbolMap.new entries = .ok map) (P : String → Prop) [DecidablePred P] {address : ℕ} :
    UniqueAddress (map.entries.filter (P ·.name)) address ↔ addresses entries P = {address} := by
  have hmem : ∀ symbol, symbol ∈ map.entries.filter (P ·.name) ↔
      symbol ∈ entries ∧ symbol.address ≠ 0 ∧ P symbol.name := by
    intro symbol
    rw [List.mem_filter, mem_entries_iff h, decide_eq_true_eq, and_assoc]
  rw [UniqueAddress, Set.eq_singleton_iff_unique_mem]
  constructor
  · intro hunique
    obtain ⟨hne, hall⟩ := hunique
    obtain ⟨symbol, hsymbol⟩ := List.exists_mem_of_ne_nil _ hne
    obtain ⟨hin, hnonzero, hname⟩ := (hmem symbol).mp hsymbol
    have haddress := hall symbol hsymbol
    refine ⟨⟨haddress ▸ hnonzero, symbol, hin, hname, haddress⟩, ?_⟩
    rintro _ ⟨hnonzero', other, hother, hname', rfl⟩
    exact hall other ((hmem other).mpr ⟨hother, hnonzero', hname'⟩)
  · intro hunique
    obtain ⟨⟨hnonzero, symbol, hin, hname, rfl⟩, hall⟩ := hunique
    refine ⟨List.ne_nil_of_mem ((hmem symbol).mpr ⟨hin, hnonzero, hname⟩), fun other hother => ?_⟩
    obtain ⟨hin', hnonzero', hname'⟩ := (hmem other).mp hother
    exact hall _ ⟨hnonzero', other, hin', hname', rfl⟩

/-- No symbol has such a name. -/
theorem filter_eq_nil_iff (h : SymbolMap.new entries = .ok map) (P : String → Prop) [DecidablePred P] :
    map.entries.filter (P ·.name) = [] ↔ addresses entries P = ∅ := by
  rw [List.filter_eq_nil_iff, Set.eq_empty_iff_forall_notMem]
  constructor
  · intro hnone address haddress
    obtain ⟨hnonzero, symbol, hin, hname, rfl⟩ := haddress
    exact hnone symbol ((mem_entries_iff h).mpr ⟨hin, hnonzero⟩) (decide_eq_true hname)
  · intro hnone symbol hsymbol hname
    obtain ⟨hin, hnonzero⟩ := (mem_entries_iff h).mp hsymbol
    exact hnone symbol.address ⟨hnonzero, symbol, hin, of_decide_eq_true hname, rfl⟩

/-- What a name resolves to, by the symbols as they were listed. -/
theorem resolve_iff_addresses (h : SymbolMap.new entries = .ok map) {name : String} {address : ℕ} :
    (∃ symbol, map.resolve name = .ok symbol ∧ symbol.address = address) ↔
      addresses entries (· = name) = {address} ∨
        (∀ other, addresses entries (· = name) ≠ {other}) ∧
          addresses entries (fun n => normalizeSymbol n = normalizeSymbol name) = {address} := by
  have hexact : ∀ a, UniqueAddress (map.byName name) a ↔ addresses entries (· = name) = {a} := fun a =>
    uniqueAddress_iff h (· = name)
  have hnone : map.byName name = [] ↔ addresses entries (· = name) = ∅ := filter_eq_nil_iff h (· = name)
  have hvariants : UniqueAddress (map.byNormalizedName (normalizeSymbol name)) address ↔
      addresses entries (fun n => normalizeSymbol n = normalizeSymbol name) = {address} :=
    uniqueAddress_iff h fun n => normalizeSymbol n = normalizeSymbol name
  rw [resolve_eq_ok_iff, hexact, hnone, hvariants]
  refine or_congr_right (and_congr_left fun hunique => ⟨fun hempty other heq => ?_, fun hmany => ?_⟩)
  · rw [hempty] at heq
    exact (Set.singleton_ne_empty other) heq.symm
  · have hsub := hunique ▸ addresses_subset entries name
    rcases Set.subset_singleton_iff_eq.mp hsub with hempty | hone
    · exact hempty
    · exact absurd hone (hmany address)

/-- **Resolution depends on the symbols only**, not on their order, and is never ambiguous. -/
theorem resolve_of_perm {entries entries' : List MapSymbol} (hperm : entries.Perm entries')
    (hnonzero : ∃ symbol ∈ entries, symbol.address ≠ 0) :
    ∃ map map', SymbolMap.new entries = .ok map ∧ SymbolMap.new entries' = .ok map' ∧
      ∀ name, map.resolve name = map'.resolve name ∧
        (∀ address, (∃ symbol, map.resolve name = .ok symbol ∧ symbol.address = address) ↔
          addresses entries (· = name) = {address} ∨
            (∀ other, addresses entries (· = name) ≠ {other}) ∧
              addresses entries (fun n => normalizeSymbol n = normalizeSymbol name) = {address}) ∧
        ∀ a ∈ addresses entries (· = name), ∀ b ∈ addresses entries (· = name), a ≠ b →
          ∀ symbol, map.resolve name ≠ .ok symbol := by
  obtain ⟨symbol, hsymbol, haddress⟩ := hnonzero
  obtain ⟨map, hmap⟩ := exists_new hsymbol haddress
  refine ⟨map, map, hmap, new_perm hperm ▸ hmap, fun name => ⟨rfl, fun address => resolve_iff_addresses hmap, ?_⟩⟩
  intro a ha b hb hne symbol hresolve
  rcases (resolve_iff_addresses hmap).mp ⟨symbol, hresolve, rfl⟩ with hexact | ⟨-, hvariants⟩
  · rw [hexact] at ha hb
    exact hne (ha.trans hb.symm)
  · have hsub := hvariants ▸ addresses_subset entries name
    exact hne ((hsub ha).trans (hsub hb).symm)

/-- Two copies of a function, one of them from the compiler. -/
theorem resolve_of_perm_vmalloc :
    ∃ map map', SymbolMap.new [⟨2, "vmalloc"⟩, ⟨1, "vmalloc.llvm.1"⟩] = .ok map ∧
      SymbolMap.new [⟨1, "vmalloc.llvm.1"⟩, ⟨2, "vmalloc"⟩] = .ok map' ∧
      ∀ name, map.resolve name = map'.resolve name := by
  obtain ⟨map, map', hmap, hmap', hnames⟩ :=
    resolve_of_perm (List.Perm.swap (⟨1, "vmalloc.llvm.1"⟩ : MapSymbol) ⟨2, "vmalloc"⟩ [])
      ⟨_, List.mem_cons_self, by decide⟩
  exact ⟨map, map', hmap, hmap', fun name => (hnames name).1⟩

end SymbolMap

end KernelSU.LkmImage
