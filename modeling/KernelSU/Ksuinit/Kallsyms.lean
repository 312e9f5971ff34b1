import Mathlib.Data.List.AList
import KernelSU.Lib.Text

/-!
# `userspace/ksuinit/src/lib.rs`: resolving a module's symbols

`load_module` reads `/proc/kallsyms` line by line and gives every undefined symbol of the module the
address of the first line whose name, less what the compiler added, is the symbol's.

* `kernelSymbols` — the names and addresses that `kernel_symbols_iter` yields;
* `resolveSymbols` — the loop of `load_module` over them;
* `resolvedAddress_eq` — **PROVED**: the first name that fits decides.
-/

namespace KernelSU.Ksuinit

open KernelSU.Lib

/-! ### `kernel_symbols_iter` -/

/-- `str::split_whitespace`. -/
def splitWhitespace (line : List Char) : List (List Char) := words isWhitespace line

/-- A plus sign may stand in front of a number. -/
def skipPlus : List Char → List Char
  | '+' :: digits => digits
  | digits => digits

/-- `u64::from_str_radix(_, 16)`. -/
def fromStrRadix16 (text : List Char) : Option ℕ :=
  if skipPlus text = [] then none
  else (hexDigitsValue (skipPlus text)).bind fun v => if v < 2 ^ 64 then some v else none

/-- A name less what the compiler added: what stands in front of the first `$`, or else of the first
`.llvm.`. -/
def stripSuffix (symbol : List Char) : List Char :=
  match (findPattern "$".toList symbol).or (findPattern ".llvm.".toList symbol) with
  | some pos => symbol.take pos
  | none => symbol

/-- One line: an address, a type and a name, and nothing behind them, as there is for the symbols of a
module. -/
def kernelSymbol (line : List Char) : Option (String × ℕ) :=
  match splitWhitespace line with
  | [addr, _, symbol] => (fromStrRadix16 addr).map fun addr => (String.ofList (stripSuffix symbol), addr)
  | _ => none

/-- `kernel_symbols_iter`: up to the first line that is not a kernel symbol's. -/
def kernelSymbols : List (List Char) → List (String × ℕ)
  | [] => []
  | line :: lines =>
    match kernelSymbol line with
    | none => []
    | some symbol => symbol :: kernelSymbols lines

/-! ### `load_module` -/

/-- `SHN_UNDEF`. -/
def SHN_UNDEF : ℕ := 0

/-- `SHN_ABS`. -/
def SHN_ABS : ℕ := 0xfff1

/-- An entry of the module's symbol table, less what stays as it is; the name is what the string table
gives, if anything. -/
structure ElfSym where
  name : Option String
  shndx : ℕ
  value : ℕ
  deriving DecidableEq, Repr

/-- One turn of the loop that collects the undefined symbols: a later entry of the same name takes the
place of an earlier one. -/
def collectUnresolved (unresolved : AList fun _ : String => ℕ) (entry : ElfSym × ℕ) :
    AList fun _ : String => ℕ :=
  if entry.2 = 0 then unresolved
  else if entry.1.shndx ≠ SHN_UNDEF then unresolved
  else
    match entry.1.name with
    | none => unresolved
    | some name => unresolved.insert name entry.2

/-- The undefined symbols by name. -/
def unresolvedSymbols (syms : List ElfSym) : AList fun _ : String => ℕ := syms.zipIdx.foldl collectUnresolved ∅

/-- The entry as it is written back. -/
def ElfSym.absolute (sym : ElfSym) (addr : ℕ) : ElfSym := { sym with shndx := SHN_ABS, value := addr }

/-- The loop of `load_module`, which ends when nothing is left to resolve. -/
def resolveSymbols : List (String × ℕ) → (AList fun _ : String => ℕ) → List ElfSym → List ElfSym
  | [], _, syms => syms
  | (symbol, addr) :: rest, unresolved, syms =>
    match unresolved.lookup symbol with
    | some index =>
      let unresolved := unresolved.erase symbol
      let syms := syms.modify index (·.absolute addr)
      if unresolved.keys.isEmpty then syms else resolveSymbols rest unresolved syms
    | none => if unresolved.keys.isEmpty then syms else resolveSymbols rest unresolved syms

/-- The address that `load_module` gives the undefined symbol of that name. -/
def resolvedAddress (lines : List (List Char)) (syms : List ElfSym) (name : String) : Option ℕ := do
  let unresolved := unresolvedSymbols syms
  let index ← unresolved.lookup name
  let sym ← (resolveSymbols (kernelSymbols lines) unresolved syms)[index]?
  if sym.shndx = SHN_ABS then some sym.value else none

/-! ### The undefined symbols -/

/-- The module has an undefined symbol of that name. -/
def IsUndefined (syms : List ElfSym) (name : String) : Prop :=
  ∃ index sym, index ≠ 0 ∧ syms[index]? = some sym ∧ sym.shndx = SHN_UNDEF ∧ sym.name = some name

/-- Every name stands for an undefined symbol of that name. -/
def PointsToUndefined (syms : List ElfSym) (unresolved : AList fun _ : String => ℕ) : Prop :=
  ∀ name index, unresolved.lookup name = some index →
    ∃ sym, syms[index]? = some sym ∧ sym.name = some name ∧ sym.shndx = SHN_UNDEF

theorem pointsToUndefined_collect {syms : List ElfSym} {unresolved : AList fun _ : String => ℕ}
    {entry : ElfSym × ℕ} (hentry : syms[entry.2]? = some entry.1) (h : PointsToUndefined syms unresolved) :
    PointsToUndefined syms (collectUnresolved unresolved entry) := by
  unfold collectUnresolved
  split
  · exact h
  split
  · exact h
  rename_i hshndx
  split
  · exact h
  rename_i name hname
  intro name' index hlookup
  by_cases heq : name' = name
  · subst heq
    rw [AList.lookup_insert] at hlookup
    obtain rfl := Option.some.inj hlookup
    exact ⟨entry.1, hentry, hname, not_not.mp hshndx⟩
  · rw [AList.lookup_insert_ne heq] at hlookup
    exact h name' index hlookup

theorem pointsToUndefined_unresolvedSymbols (syms : List ElfSym) :
    PointsToUndefined syms (unresolvedSymbols syms) := by
  have hfold : ∀ entries : List (ElfSym × ℕ), (∀ entry ∈ entries, syms[entry.2]? = some entry.1) →
      ∀ unresolved, PointsToUndefined syms unresolved →
        PointsToUndefined syms (entries.foldl collectUnresolved unresolved) := by
    intro entries
    induction entries with
    | nil => exact fun _ _ h => h
    | cons entry entries ih =>
      intro hentries unresolved h
      exact ih (fun e he => hentries e (List.mem_cons_of_mem entry he)) _
        (pointsToUndefined_collect (hentries entry List.mem_cons_self) h)
  refine hfold _ (fun entry hentry => ?_) ∅ fun name index h => ?_
  · exact List.mk_mem_zipIdx_iff_getElem?.mp hentry
  · rw [AList.lookup_empty] at h
    cases h

/-- A name that was collected stays. -/
theorem mem_collect_of_mem {unresolved : AList fun _ : String => ℕ} {entry : ElfSym × ℕ} {name : String}
    (h : name ∈ unresolved) : name ∈ collectUnresolved unresolved entry := by
  unfold collectUnresolved
  split
  · exact h
  split
  · exact h
  split
  · exact h
  · exact (AList.mem_insert _).mpr (.inr h)

/-- Every undefined symbol's name is collected. -/
theorem mem_unresolvedSymbols {syms : List ElfSym} {name : String} (h : IsUndefined syms name) :
    name ∈ unresolvedSymbols syms := by
  obtain ⟨index, sym, hindex, hsym, hshndx, hname⟩ := h
  have hkeep : ∀ (entries : List (ElfSym × ℕ)) (unresolved : AList fun _ : String => ℕ), name ∈ unresolved →
      name ∈ entries.foldl collectUnresolved unresolved := by
    intro entries
    induction entries with
    | nil => exact fun _ h => h
    | cons entry entries ih => exact fun unresolved h => ih _ (mem_collect_of_mem h)
  have hentry : (sym, index) ∈ syms.zipIdx := List.mk_mem_zipIdx_iff_getElem?.mpr hsym
  obtain ⟨before, behind, hsplit⟩ := List.append_of_mem hentry
  unfold unresolvedSymbols
  rw [hsplit, List.foldl_append, List.foldl_cons]
  apply hkeep
  have hhere : ∀ unresolved, collectUnresolved unresolved (sym, index) = unresolved.insert name index := by
    intro unresolved
    simp only [collectUnresolved, if_neg hindex, hshndx, ne_eq, not_true_eq_false, if_false, hname]
  rw [hhere]
  exact (AList.mem_insert _).mpr (.inl rfl)

/-! ### The first name that fits -/

section Resolve

variable {symbols : List (String × ℕ)} {unresolved : AList fun _ : String => ℕ} {syms : List ElfSym}
  {name : String} {index : ℕ}

/-- Two names do not stand for one entry. -/
theorem PointsToUndefined.injective (h : PointsToUndefined syms unresolved) {name' : String}
    (hname : unresolved.lookup name = some index) (hname' : unresolved.lookup name' = some index) :
    name = name' := by
  obtain ⟨sym, hsym, hn, -⟩ := h name index hname
  obtain ⟨sym', hsym', hn', -⟩ := h name' index hname'
  obtain rfl := Option.some.inj (hsym.symm.trans hsym')
  exact Option.some.inj (hn.symm.trans hn')

theorem lookup_erase_eq_some {name' : String} (h : (unresolved.erase name').lookup name = some index) :
    name ≠ name' ∧ unresolved.lookup name = some index := by
  by_cases heq : name = name'
  · rw [heq, AList.lookup_erase] at h
    cases h
  · rw [AList.lookup_erase_ne heq] at h
    exact ⟨heq, h⟩

theorem keys_of_lookup (h : unresolved.lookup name = some index) : ¬unresolved.keys.isEmpty = true := by
  intro hempty
  have hmem : name ∈ unresolved := AList.lookup_isSome.mp (by rw [h]; rfl)
  rw [List.isEmpty_iff] at hempty
  rw [AList.mem_keys, hempty] at hmem
  exact List.not_mem_nil hmem

/-- An entry that no unresolved name stands for is left alone. -/
theorem resolveSymbols_of_notPointed (h : ∀ name, unresolved.lookup name ≠ some index) :
    (resolveSymbols symbols unresolved syms)[index]? = syms[index]? := by
  induction symbols generalizing unresolved syms with
  | nil => rfl
  | cons symbol rest ih =>
    obtain ⟨symbol, addr⟩ := symbol
    simp only [resolveSymbols]
    split
    · rename_i i hi
      have hne : i ≠ index := fun heq => h symbol (heq ▸ hi)
      have hmodify : (syms.modify i (·.absolute addr))[index]? = syms[index]? :=
        List.getElem?_modify_ne _ _ hne
      split
      · exact hmodify
      · rw [ih, hmodify]
        exact fun name' hlookup => h name' (lookup_erase_eq_some hlookup).2
    · split
      · rfl
      · exact ih h

/-- What stays to be resolved still points to undefined symbols once one is written. -/
theorem PointsToUndefined.step (h : PointsToUndefined syms unresolved) {symbol : String} {i addr : ℕ}
    (hi : unresolved.lookup symbol = some i) :
    PointsToUndefined (syms.modify i (·.absolute addr)) (unresolved.erase symbol) := by
  intro name' index hlookup
  obtain ⟨hne, hname⟩ := lookup_erase_eq_some hlookup
  obtain ⟨sym, hsym, hname', hshndx⟩ := h name' index hname
  have hindex : i ≠ index := by
    rintro rfl
    exact hne (h.injective hname hi)
  refine ⟨sym, ?_, hname', hshndx⟩
  rw [List.getElem?_modify_ne _ _ hindex]
  exact hsym

/-- **The first name that fits** gives its address to the entry. -/
theorem resolveSymbols_getElem? (h : PointsToUndefined syms unresolved)
    (hindex : unresolved.lookup name = some index) :
    (resolveSymbols symbols unresolved syms)[index]? =
      match symbols.find? (·.1 = name) with
      | some symbol => (syms[index]?).map (·.absolute symbol.2)
      | none => syms[index]? := by
  induction symbols generalizing unresolved syms with
  | nil => rfl
  | cons symbol rest ih =>
    obtain ⟨symbol, addr⟩ := symbol
    simp only [resolveSymbols]
    by_cases hname : symbol = name
    · subst hname
      have hfind : ((symbol, addr) :: rest).find? (·.1 = symbol) = some (symbol, addr) :=
        List.find?_cons_of_pos (decide_eq_true rfl)
      have hmodify : (syms.modify index (·.absolute addr))[index]? = (syms[index]?).map (·.absolute addr) :=
        List.getElem?_modify_eq _ _ _
      rw [hindex, hfind]
      dsimp only
      split
      · exact hmodify
      · rw [resolveSymbols_of_notPointed, hmodify]
        intro name' hlookup
        obtain ⟨hne, hname'⟩ := lookup_erase_eq_some hlookup
        exact hne (h.injective hname' hindex)
    · have hfind : ((symbol, addr) :: rest).find? (·.1 = name) = rest.find? (·.1 = name) :=
        List.find?_cons_of_neg (by simpa using hname)
      rw [hfind]
      split
      · rename_i i hi
        have hindex' : (unresolved.erase symbol).lookup name = some index := by
          rw [AList.lookup_erase_ne (Ne.symm hname)]
          exact hindex
        have hentry : (syms.modify i (·.absolute addr))[index]? = syms[index]? := by
          refine List.getElem?_modify_ne _ _ fun heq => ?_
          subst heq
          exact hname (h.injective hi hindex)
        rw [if_neg (keys_of_lookup hindex'), ih (h.step hi) hindex', hentry]
      · rw [if_neg (keys_of_lookup hindex)]
        exact ih h hindex

end Resolve

/-- **The first name that fits decides** what an undefined symbol resolves to. -/
theorem resolvedAddress_eq (lines : List (List Char)) {syms : List ElfSym} {name : String}
    (h : IsUndefined syms name) :
    resolvedAddress lines syms name = ((kernelSymbols lines).find? (·.1 = name)).map Prod.snd := by
  obtain ⟨index, hindex⟩ := Option.isSome_iff_exists.mp (AList.lookup_isSome.mpr (mem_unresolvedSymbols h))
  have hpoints := pointsToUndefined_unresolvedSymbols syms
  obtain ⟨sym, hsym, -, hshndx⟩ := hpoints name index hindex
  simp only [resolvedAddress, Option.bind_eq_bind, hindex, Option.bind_some,
    resolveSymbols_getElem? hpoints hindex, hsym, Option.map_some]
  split
  · rename_i symbol hfind
    rw [hfind]
    rfl
  · rename_i hfind
    rw [hfind, Option.bind_some, hshndx]
    rfl

end KernelSU.Ksuinit
