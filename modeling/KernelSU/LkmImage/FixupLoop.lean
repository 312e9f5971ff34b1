import KernelSU.LkmImage.CapsuleLayout

/-!
# The fixup loop patches the module copy

* `slice_applyFixups` — **PROVED**: the fields of a symbol hold what its fixup says, unless a later one meets
  them;
* `getElem?_applyFixups` — **PROVED**: bytes in no symbol's fields are as given;
* `LoopState.next` — **PROVED**: one turn applies one fixup;
* `fixupLoop_run` — **PROVED**: the loop takes as many turns as there are fixups and applies all of them.
-/

namespace KernelSU.LkmImage

open KernelSU.Lib KernelSU.Lib.Bytes

/-- The symbol that a fixup names lies in the module, and its numbers fit their entry. -/
structure Fixup.InModule (size : ℕ) (f : Fixup) : Prop where
  symbol : f.symbolFileOffset + 24 ≤ size
  offset : f.symbolFileOffset < 2 ^ 32
  kernel : f.kernelOffset < 2 ^ 64

/-! ### Fixups applied -/

section Apply

variable (imageBase : ℕ)

theorem fixupBytes_length (f : Fixup) : (fixupBytes imageBase f).length = 10 := by simp [fixupBytes]

/-- The two fields, one after the other. -/
theorem fixupBytes_fields (f : Fixup) :
    slice (fixupBytes imageBase f) 0 2 = encodeLE 2 SHN_ABS ∧
      slice (fixupBytes imageBase f) 2 8 = encodeLE 8 (add64 imageBase f.kernelOffset) := by
  constructor
  · have hfirst := slice_append_left (encodeLE 2 SHN_ABS) (encodeLE 8 (add64 imageBase f.kernelOffset))
      (o := 0) (n := 2) (by rw [encodeLE_length])
    have hfull := slice_full (encodeLE 2 SHN_ABS)
    rw [encodeLE_length] at hfull
    rw [fixupBytes, hfirst, hfull]
  · have hlast := slice_append_exact (encodeLE 2 SHN_ABS) (encodeLE 8 (add64 imageBase f.kernelOffset)) []
      (o := 2) (encodeLE_length ..) (encodeLE_length 8 _)
    rw [List.append_nil] at hlast
    exact hlast

variable {module : List UInt8} {fixups : List Fixup}

theorem applyFixup_length {f : Fixup} (h : f.InModule module.length) :
    (applyFixup imageBase module f).length = module.length := by
  have hsymbol := h.symbol
  exact patch_length (by rw [fixupBytes_length]; omega)

theorem applyFixups_length (h : ∀ f ∈ fixups, f.InModule module.length) :
    (applyFixups imageBase module fixups).length = module.length := by
  induction fixups generalizing module with
  | nil => rfl
  | cons f fixups ih =>
    obtain ⟨hf, hrest⟩ := List.forall_mem_cons.mp h
    have hlength := applyFixup_length imageBase hf
    have hnext : (applyFixups imageBase (applyFixup imageBase module f) fixups).length
        = (applyFixup imageBase module f).length := ih (by rw [hlength]; exact hrest)
    rw [hlength] at hnext
    exact hnext

/-- Bytes in no symbol's fields are as given. -/
theorem getElem?_applyFixups (h : ∀ f ∈ fixups, f.InModule module.length) {i : ℕ}
    (hi : ∀ f ∈ fixups, i < f.symbolFileOffset + 6 ∨ f.symbolFileOffset + 16 ≤ i) :
    (applyFixups imageBase module fixups)[i]? = module[i]? := by
  induction fixups generalizing module with
  | nil => rfl
  | cons f fixups ih =>
    obtain ⟨hf, hrest⟩ := List.forall_mem_cons.mp h
    obtain ⟨hfi, hresti⟩ := List.forall_mem_cons.mp hi
    have hsymbol := hf.symbol
    have hlength := applyFixup_length imageBase hf
    have hnext : (applyFixups imageBase (applyFixup imageBase module f) fixups)[i]?
        = (applyFixup imageBase module f)[i]? := ih (by rw [hlength]; exact hrest) hresti
    have hfirst : (applyFixup imageBase module f)[i]? = module[i]? := by
      rw [applyFixup, getElem?_patch (by rw [fixupBytes_length]; omega), fixupBytes_length,
        if_neg (by omega)]
    exact hnext.trans hfirst

/-- Fields that no fixup meets are as given. -/
theorem slice_applyFixups_apart (h : ∀ f ∈ fixups, f.InModule module.length) {f : Fixup}
    (hf : ∀ g ∈ fixups, f.Apart g) :
    slice (applyFixups imageBase module fixups) (f.symbolFileOffset + 6) 10
      = slice module (f.symbolFileOffset + 6) 10 := by
  apply List.ext_getElem?
  intro i
  rw [getElem?_slice, getElem?_slice]
  split
  · apply getElem?_applyFixups imageBase h
    intro g hg
    have hapart := hf g hg
    rw [Fixup.Apart] at hapart
    omega
  · rfl

/-- **A fixup's fields**, when no later fixup meets them. -/
theorem slice_applyFixups {before after : List Fixup} {f : Fixup}
    (h : ∀ g ∈ before ++ f :: after, g.InModule module.length) (hf : ∀ g ∈ after, f.Apart g) :
    slice (applyFixups imageBase module (before ++ f :: after)) (f.symbolFileOffset + 6) 10
      = fixupBytes imageBase f := by
  obtain ⟨hbefore, hrest⟩ := List.forall_mem_append.mp h
  obtain ⟨hinside, hafter⟩ := List.forall_mem_cons.mp hrest
  have hlength := applyFixups_length imageBase hbefore
  rw [← hlength] at hinside hafter
  have hsymbol := hinside.symbol
  rw [← applyFixup_length imageBase hinside] at hafter
  have hsplit : applyFixups imageBase module (before ++ f :: after)
      = applyFixups imageBase (applyFixup imageBase (applyFixups imageBase module before) f) after := by
    rw [applyFixups, List.foldl_append, List.foldl_cons]
    rfl
  have hten := fixupBytes_length imageBase f
  have hsame := slice_patch_same (l := applyFixups imageBase module before) (o := f.symbolFileOffset + 6)
    (w := fixupBytes imageBase f) (by omega)
  rw [hten] at hsame
  rw [hsplit, slice_applyFixups_apart imageBase hafter hf, applyFixup, hsame]

end Apply

/-! ### The loop -/

/-- What the loop relies on: the copy, of the length of the module, and the table apart from it. -/
structure FixupTable (module : List UInt8) (fixups : List Fixup) (copy table : ℕ) (mem : Memory) : Prop where
  inModule : ∀ f ∈ fixups, f.InModule module.length
  count : fixups.length < 2 ^ 64
  copyFits : copy + module.length ≤ 2 ^ 64
  tableFits : table + fixups.length * 16 ≤ 2 ^ 64
  apart : copy + module.length ≤ table ∨ table + fixups.length * 16 ≤ copy
  entries : mem.bytesAt table (fixups.length * 16) = fixups.flatMap fixupEntry

/-- Where the loop is after `k` turns; `mem` is memory before the loop. -/
structure LoopState (imageBase : ℕ) (module : List UInt8) (fixups : List Fixup) (copy table x23 : ℕ) (mem : Memory)
    (k : ℕ) (s : BootState) : Prop where
  x19 : s.x19 = copy
  x20 : s.x20 = (table + 16 * k) % 2 ^ 64
  x21 : s.x21 = fixups.length - k
  x22 : s.x22 = imageBase
  x23 : s.x23 = x23
  copied : s.mem.bytesAt copy module.length = applyFixups imageBase module (fixups.take k)
  outside : ∀ a, a < copy ∨ copy + module.length ≤ a → s.mem a = mem a

section Loop

variable {imageBase : ℕ} {module : List UInt8} {fixups : List Fixup} {copy table x23 : ℕ} {mem : Memory}

/-- What a turn reads from the table. -/
theorem LoopState.entry {k : ℕ} {s : BootState} (ht : FixupTable module fixups copy table mem)
    (hs : LoopState imageBase module fixups copy table x23 mem k s) {f : Fixup} (hf : fixups[k]? = some f) :
    s.mem.word s.x20 4 = f.symbolFileOffset ∧ s.mem.word (add64 s.x20 8) 8 = f.kernelOffset := by
  obtain ⟨hk, -⟩ := List.getElem?_eq_some_iff.mp hf
  have htable := ht.tableFits
  have hin := ht.inModule f (List.mem_of_getElem? hf)
  -- the table is outside of the copy, so that it is as before the loop
  have hentries : s.mem.bytesAt table (fixups.length * 16) = fixups.flatMap fixupEntry := by
    rw [← ht.entries]
    apply List.map_congr_left
    intro i hi
    rw [List.mem_range] at hi
    have hapart := ht.apart
    exact hs.outside _ (by omega)
  have hx20 : s.x20 = table + 16 * k := by
    have h20 := hs.x20
    omega
  have hentry : s.mem.bytesAt (table + 16 * k) 16 = fixupEntry f := by
    rw [← slice_flatMap_fixupEntry hf, ← hentries, s.mem.slice_bytesAt (by omega)]
  obtain ⟨hfirst, hsecond⟩ := fixupEntry_words f
  constructor
  · have hword := s.mem.word_of_bytesAt hentry (o := 0) (k := 4) (by omega)
    rw [hx20, ← Nat.add_zero (table + 16 * k), hword, hfirst, decodeLE_encodeLE_of_lt 4 _ hin.offset]
  · have hword := s.mem.word_of_bytesAt hentry (o := 8) (k := 8) (by omega)
    have hadd : add64 s.x20 8 = table + 16 * k + 8 := by
      rw [add64]
      omega
    rw [hadd, hword, hsecond, decodeLE_encodeLE_of_lt 8 _ hin.kernel]

/-- The memory that a turn leaves: two stores, which lie next to each other. -/
theorem fixupBody_mem (s : BootState) :
    (fixupBody s).mem
      = (s.mem.store (add64 (add64 s.x19 (s.mem.word s.x20 4)) 6) (encodeLE 2 SHN_ABS)).store
          (add64 (add64 s.x19 (s.mem.word s.x20 4)) 8)
          (encodeLE 8 (add64 s.x22 (s.mem.word (add64 s.x20 8) 8))) := by
  simp only [fixupBody]

/-- **One turn** applies one fixup. -/
theorem LoopState.next {k : ℕ} {s : BootState} (ht : FixupTable module fixups copy table mem)
    (hs : LoopState imageBase module fixups copy table x23 mem k s) (hk : k < fixups.length) :
    LoopState imageBase module fixups copy table x23 mem (k + 1) (fixupBody s) := by
  have hf : fixups[k]? = some fixups[k] := List.getElem?_eq_getElem hk
  obtain ⟨hoffset, hkernel⟩ := hs.entry ht hf
  have hin := ht.inModule _ (List.mem_of_getElem? hf)
  have hsymbol := hin.symbol
  have hfits := ht.copyFits
  have hcount := ht.count
  generalize hfk : fixups[k] = f at *
  have hmem := fixupBody_mem s
  have hshndx : add64 (add64 copy f.symbolFileOffset) 6 = copy + (f.symbolFileOffset + 6) := by
    rw [add64, add64]
    omega
  have hvalue : add64 (add64 copy f.symbolFileOffset) 8 = copy + (f.symbolFileOffset + 8) := by
    rw [add64, add64]
    omega
  rw [hs.x19, hoffset, hkernel, hs.x22, hshndx, hvalue] at hmem
  have htake : fixups.take (k + 1) = fixups.take k ++ [f] := by
    rw [List.take_add_one, hf]
    rfl
  constructor
  case x19 => exact hs.x19
  case x20 =>
    show add64 s.x20 16 = _
    rw [add64, hs.x20]
    omega
  case x21 =>
    show (s.x21 + 2 ^ 64 - 1) % 2 ^ 64 = _
    rw [hs.x21]
    omega
  case x22 => exact hs.x22
  case x23 => exact hs.x23
  case copied =>
    have hlength : (applyFixups imageBase module (fixups.take k)).length = module.length :=
      applyFixups_length imageBase fun g hg => ht.inModule g (List.mem_of_mem_take hg)
    have happend := patch_append (l := applyFixups imageBase module (fixups.take k))
      (o := f.symbolFileOffset + 6) (v := encodeLE 2 SHN_ABS) (w := encodeLE 8 (add64 imageBase f.kernelOffset))
      (by rw [encodeLE_length, encodeLE_length]; omega)
    rw [encodeLE_length] at happend
    rw [hmem, Memory.bytesAt_store_inside _ (by rw [encodeLE_length]; omega),
      Memory.bytesAt_store_inside _ (by rw [encodeLE_length]; omega), hs.copied, happend, htake]
    simp only [applyFixups, List.foldl_append, List.foldl_cons, List.foldl_nil, applyFixup, fixupBytes]
  case outside =>
    intro a ha
    rw [hmem, Memory.store_apart _ (by rw [encodeLE_length]; omega),
      Memory.store_apart _ (by rw [encodeLE_length]; omega), hs.outside a ha]

/-- **The loop** takes a turn for each fixup that is left and applies it. -/
theorem fixupLoop_run (ht : FixupTable module fixups copy table mem) {fuel k : ℕ} {s : BootState}
    (hs : LoopState imageBase module fixups copy table x23 mem k s) (hk : k < fixups.length)
    (hfuel : fixups.length - k ≤ fuel) :
    ∃ s', fixupLoop fuel s = some (fixups.length - k, s') ∧
      LoopState imageBase module fixups copy table x23 mem fixups.length s' := by
  induction fuel generalizing k s with
  | zero => omega
  | succ fuel ih =>
    have hnext := hs.next ht hk
    have hleft := hnext.x21
    rw [fixupLoop]
    by_cases hlast : k + 1 = fixups.length
    · rw [if_pos (by omega)]
      have hone : fixups.length - k = 1 := by omega
      rw [hlast] at hnext
      exact ⟨_, by rw [hone], hnext⟩
    · obtain ⟨s', hloop, hs'⟩ := ih hnext (by omega) (by omega)
      have hcount : fixups.length - (k + 1) + 1 = fixups.length - k := by omega
      rw [if_neg (by omega), hloop]
      exact ⟨s', by rw [Option.map_some, hcount], hs'⟩

end Loop

end KernelSU.LkmImage
