import KernelSU.LkmImage.BootstrapLink

/-!
# What a parsed bootstrap object is like

* `BootstrapObject.WellFormed` — the loadable sections lie in the file and apart from each other in the image, and the
  sections of relocations lie in the file and have a loadable target;
* `parse_wellFormed` — **PROVED**: whatever `parse` accepts is well formed.
-/

namespace KernelSU.LkmImage

open KernelSU.Lib KernelSU.Lib.Bytes KernelSU.Ksud

/-! ### Checks -/

theorem ensure_ok {c : Prop} [Decidable c] {message : String} {u : Unit} : ensure c message = .ok u ↔ c := by
  rw [ensure]
  by_cases hc : c
  · rw [if_pos hc]
    exact iff_of_true rfl hc
  · rw [if_neg hc]
    exact iff_of_false (fun h => by cases h) hc

theorem ensure_bind_ok {α : Type} {c : Prop} [Decidable c] {message : String} {x : Except String α} {a : α} :
    (ensure c message >>= fun _ => x) = .ok a ↔ c ∧ x = .ok a := by
  rw [except_check_ok, ensure_ok]

theorem context_ok {α : Type} {o : Option α} {message : String} {a : α} : context o message = .ok a ↔ o = some a := by
  rw [context]
  cases o with
  | none => exact iff_of_false (fun h => by cases h) fun h => by cases h
  | some b => rw [Option.elim_some, Except.ok.injEq, Option.some.injEq]

theorem onlyOne_eq_some {α : Type} {xs : List α} {x : α} : onlyOne xs = some x ↔ xs = [x] := by
  cases xs with
  | nil => exact iff_of_false (fun h => by cases h) fun h => by cases h
  | cons y ys =>
    cases ys with
    | nil => rw [onlyOne, Option.some.injEq, List.singleton_inj]
    | cons z zs => exact iff_of_false (fun h => by cases h) fun h => by cases h

theorem mem_indicesWhere {α : Type} {p : α → Bool} {xs : List α} {i : ℕ} :
    i ∈ indicesWhere p xs ↔ ∃ x, xs[i]? = some x ∧ p x = true := by
  rw [indicesWhere, List.mem_filter, List.mem_range, Option.any_eq_true]
  constructor
  · rintro ⟨-, h⟩
    exact h
  · rintro ⟨x, hx, hp⟩
    exact ⟨(List.getElem?_eq_some_iff.mp hx).1, x, hx, hp⟩

/-- The element that the only index stands for. -/
theorem onlyOne_indicesWhere {α : Type} {p : α → Bool} {xs : List α} {i : ℕ}
    (h : onlyOne (indicesWhere p xs) = some i) : ∃ x, xs[i]? = some x ∧ p x = true :=
  mem_indicesWhere.mp (by rw [onlyOne_eq_some.mp h]; exact List.mem_singleton_self i)

/-- An alignment does not lower a size. -/
theorem checkedAlignUp_le {value alignment aligned : ℕ} (h : checkedAlignUp value alignment = .ok aligned) :
    value ≤ aligned := by
  obtain ⟨hpower, h⟩ := ensure_bind_ok.mp h
  obtain ⟨-, h⟩ := ensure_bind_ok.mp h
  obtain rfl := Except.ok.inj h
  have hpos : 0 < alignment := Nat.pos_of_isPowerOfTwo hpower
  have hmod := Nat.mod_lt (value + (alignment - 1)) hpos
  omega

/-! ### Sections -/

/-- The section's bytes lie in the file, unless it has none. -/
def BootstrapSection.Inside (data : List UInt8) (s : BootstrapSection) : Prop :=
  s.sectionType ≠ SHT_NOBITS → s.offset + s.size < 2 ^ 64 ∧ s.offset + s.size ≤ data.length

theorem parseSection_inside {data : List UInt8} {sectionOffset index : ℕ} {entry : BootstrapSection × ℕ}
    (h : parseSection data sectionOffset index = .ok entry) :
    entry.1.Inside data ∧ entry.1.outputOffset = none := by
  obtain ⟨sectionType, -, h⟩ := except_bind_ok.mp h
  obtain ⟨dataOffset, -, h⟩ := except_bind_ok.mp h
  obtain ⟨size, -, h⟩ := except_bind_ok.mp h
  obtain ⟨alignment, -, h⟩ := except_bind_ok.mp h
  obtain ⟨-, h⟩ := ensure_bind_ok.mp h
  obtain ⟨hinside, h⟩ := ensure_bind_ok.mp h
  obtain ⟨nameOffset, -, h⟩ := except_bind_ok.mp h
  obtain ⟨flags, -, h⟩ := except_bind_ok.mp h
  obtain ⟨link, -, h⟩ := except_bind_ok.mp h
  obtain ⟨info, -, h⟩ := except_bind_ok.mp h
  obtain ⟨entrySize, -, h⟩ := except_bind_ok.mp h
  obtain rfl := Except.ok.inj h
  exact ⟨hinside, rfl⟩

theorem parseSections_inside {data : List UInt8} {sections : List BootstrapSection}
    (h : parseSections data = .ok sections) : ∀ s ∈ sections, s.Inside data ∧ s.outputOffset = none := by
  obtain ⟨header, -, h⟩ := except_bind_ok.mp h
  obtain ⟨entries, hentries, h⟩ := except_bind_ok.mp h
  obtain ⟨sectionNames, -, h⟩ := except_bind_ok.mp h
  obtain ⟨-, h⟩ := ensure_bind_ok.mp h
  obtain ⟨names, -, h⟩ := except_bind_ok.mp h
  intro s hs
  obtain ⟨entry, hentry, hname⟩ := exists_of_mem_mapM h s hs
  obtain ⟨index, -, hparse⟩ := exists_of_mem_mapM hentries entry hentry
  obtain ⟨name, -, hname⟩ := except_bind_ok.mp hname
  obtain rfl := Except.ok.inj hname
  exact parseSection_inside hparse

/-- The two loadable sections: which they are, and where they go. -/
structure Layout (sections laidOut : List BootstrapSection) (imageSize : ℕ) where
  textIndex : ℕ
  rodataIndex : ℕ
  text : BootstrapSection
  rodata : BootstrapSection
  rodataOutput : ℕ
  getText : sections[textIndex]? = some text
  getRodata : sections[rodataIndex]? = some rodata
  apart : textIndex ≠ rodataIndex
  textType : text.sectionType = SHT_PROGBITS
  rodataType : rodata.sectionType = SHT_PROGBITS
  behind : text.size ≤ rodataOutput
  size : rodataOutput + rodata.size = imageSize
  fits : imageSize < 2 ^ 64
  laidOut_eq : laidOut = (sections.set textIndex { text with outputOffset := some 0 }).set rodataIndex
    { rodata with outputOffset := some rodataOutput }

theorem layoutSections_layout {sections laidOut : List BootstrapSection} {imageSize : ℕ}
    (h : layoutSections sections = .ok (laidOut, imageSize)) : Nonempty (Layout sections laidOut imageSize) := by
  obtain ⟨textIndex, htextIndex, h⟩ := except_bind_ok.mp h
  obtain ⟨rodataIndex, hrodataIndex, h⟩ := except_bind_ok.mp h
  obtain ⟨text, htext, h⟩ := except_bind_ok.mp h
  obtain ⟨rodata, hrodata, h⟩ := except_bind_ok.mp h
  obtain ⟨⟨htextType, -⟩, h⟩ := ensure_bind_ok.mp h
  obtain ⟨⟨hrodataType, -⟩, h⟩ := ensure_bind_ok.mp h
  obtain ⟨-, h⟩ := except_check_ok.mp h
  obtain ⟨rodataOutput, houtput, h⟩ := except_bind_ok.mp h
  obtain ⟨hfits, h⟩ := ensure_bind_ok.mp h
  obtain ⟨-, h⟩ := ensure_bind_ok.mp h
  obtain ⟨rfl, rfl⟩ := Prod.mk.inj (Except.ok.inj h)
  rw [context_ok] at htext hrodata
  obtain ⟨text', htext', hname⟩ := onlyOne_indicesWhere (context_ok.mp htextIndex)
  obtain ⟨rodata', hrodata', hname'⟩ := onlyOne_indicesWhere (context_ok.mp hrodataIndex)
  have hapart : textIndex ≠ rodataIndex := by
    rintro rfl
    obtain rfl := Option.some.inj (htext'.symm.trans hrodata')
    have hsame := (of_decide_eq_true hname).symm.trans (of_decide_eq_true hname')
    exact absurd hsame (by decide)
  exact ⟨⟨textIndex, rodataIndex, text, rodata, rodataOutput, htext, hrodata, hapart, htextType, hrodataType,
    checkedAlignUp_le houtput, rfl, hfits, rfl⟩⟩

namespace Layout

variable {sections laidOut : List BootstrapSection} {imageSize : ℕ}

/-- The sections after the layout. -/
theorem getElem?_laidOut (l : Layout sections laidOut imageSize) (i : ℕ) : laidOut[i]? =
    if i = l.rodataIndex then some { l.rodata with outputOffset := some l.rodataOutput }
    else if i = l.textIndex then some { l.text with outputOffset := some 0 } else sections[i]? := by
  have htext := (List.getElem?_eq_some_iff.mp l.getText).1
  have hrodata := (List.getElem?_eq_some_iff.mp l.getRodata).1
  refine (congrArg (fun xs : List BootstrapSection => xs[i]?) l.laidOut_eq).trans ?_
  dsimp only
  by_cases hi : i = l.rodataIndex
  · rw [if_pos hi, hi, List.getElem?_set_self (by rw [List.length_set]; exact hrodata)]
  · rw [if_neg hi, List.getElem?_set_ne (Ne.symm hi)]
    by_cases hi' : i = l.textIndex
    · rw [if_pos hi', hi', List.getElem?_set_self htext]
    · rw [if_neg hi', List.getElem?_set_ne (Ne.symm hi')]

/-- Every section after the layout was there before. -/
theorem exists_of_getElem? (l : Layout sections laidOut imageSize) {i : ℕ} {s : BootstrapSection}
    (h : laidOut[i]? = some s) :
    ∃ s' ∈ sections, s.sectionType = s'.sectionType ∧ s.offset = s'.offset ∧ s.size = s'.size := by
  rw [l.getElem?_laidOut] at h
  split_ifs at h
  · obtain rfl := Option.some.inj h
    exact ⟨l.rodata, List.mem_of_getElem? l.getRodata, rfl, rfl, rfl⟩
  · obtain rfl := Option.some.inj h
    exact ⟨l.text, List.mem_of_getElem? l.getText, rfl, rfl, rfl⟩
  · exact ⟨s, List.mem_of_getElem? h, rfl, rfl, rfl⟩

/-- A section with a place is the text or the read-only section. -/
theorem eq_of_outputOffset (l : Layout sections laidOut imageSize) (hnone : ∀ s ∈ sections, s.outputOffset = none)
    {i o : ℕ} {s : BootstrapSection} (h : laidOut[i]? = some s) (ho : s.outputOffset = some o) :
    (i = l.textIndex ∧ s = { l.text with outputOffset := some 0 } ∧ o = 0) ∨
      (i = l.rodataIndex ∧ s = { l.rodata with outputOffset := some l.rodataOutput } ∧ o = l.rodataOutput) := by
  rw [l.getElem?_laidOut] at h
  split_ifs at h with hrodata htext
  · obtain rfl := Option.some.inj h
    exact Or.inr ⟨hrodata, rfl, (Option.some.inj ho).symm⟩
  · obtain rfl := Option.some.inj h
    exact Or.inl ⟨htext, rfl, (Option.some.inj ho).symm⟩
  · rw [hnone s (List.mem_of_getElem? h)] at ho
    cases ho

end Layout

/-! ### Well-formed objects -/

/-- Where the sections of an object are. -/
structure BootstrapObject.WellFormed (obj : BootstrapObject) : Prop where
  fits : obj.imageSize < 2 ^ 64
  loadable : ∀ s ∈ obj.loadable, s.1.offset + s.1.size ≤ obj.data.length ∧ s.2 + s.1.size ≤ obj.imageSize
  apart : obj.loadable.Pairwise fun s t => s.2 + s.1.size ≤ t.2 ∨ t.2 + t.1.size ≤ s.2
  rela : ∀ s ∈ obj.relaSections, s.link = obj.symbolTableIndex ∧ s.offset + s.size < 2 ^ 64 ∧
    s.offset + s.size ≤ obj.data.length ∧ ∃ target, obj.sections[s.info]? = some target ∧ target.outputOffset.isSome

theorem checkRela_ok {sections : List BootstrapSection} {symbolTableIndex relocationCount count : ℕ}
    {s : BootstrapSection} (h : checkRela sections symbolTableIndex relocationCount s = .ok count) :
    s.link = symbolTableIndex ∧ ∃ target, sections[s.info]? = some target ∧ target.outputOffset.isSome := by
  obtain ⟨⟨-, -, hlink⟩, h⟩ := ensure_bind_ok.mp h
  obtain ⟨target, htarget, h⟩ := except_bind_ok.mp h
  obtain ⟨hsome, -⟩ := ensure_bind_ok.mp h
  exact ⟨hlink, target, context_ok.mp htarget, hsome⟩

theorem checkRela_all {sections : List BootstrapSection} {symbolTableIndex count : ℕ} {relas : List BootstrapSection}
    (h : relas.foldlM (checkRela sections symbolTableIndex) 0 = .ok count) : ∀ s ∈ relas, s.link = symbolTableIndex ∧
      ∃ target, sections[s.info]? = some target ∧ target.outputOffset.isSome := by
  refine foldlM_invariant_done (fun done _ => ∀ s ∈ done, s.link = symbolTableIndex ∧
    ∃ target, sections[s.info]? = some target ∧ target.outputOffset.isSome) ?_ (List.forall_mem_nil _) h
  intro done s hs n n' hdone hcheck
  refine List.forall_mem_append.mpr ⟨hdone, fun s' hs' => ?_⟩
  obtain rfl := List.mem_singleton.mp hs'
  exact checkRela_ok hcheck

/-- **What `parse` accepts is well formed.** -/
theorem parse_wellFormed {data : List UInt8} {obj : BootstrapObject} (h : BootstrapObject.parse data = .ok obj) :
    obj.WellFormed := by
  obtain ⟨sections, hsections, h⟩ := except_bind_ok.mp h
  obtain ⟨⟨laidOut, imageSize⟩, hlayout, h⟩ := except_bind_ok.mp h
  obtain ⟨table, -, h⟩ := except_bind_ok.mp h
  obtain ⟨-, h⟩ := ensure_bind_ok.mp h
  obtain ⟨count, hcount, h⟩ := except_bind_ok.mp h
  obtain ⟨-, h⟩ := ensure_bind_ok.mp h
  obtain rfl := Except.ok.inj h
  have hinside := parseSections_inside hsections
  obtain ⟨l⟩ := layoutSections_layout hlayout
  have hnone : ∀ s ∈ sections, s.outputOffset = none := fun s hs => (hinside s hs).2
  have hplace : ∀ s ∈ sections, s.sectionType ≠ SHT_NOBITS →
      s.offset + s.size < 2 ^ 64 ∧ s.offset + s.size ≤ data.length := fun s hs => (hinside s hs).1
  have hbehind := l.behind
  have hsize := l.size
  refine ⟨l.fits, fun s hs => ?_, ?_, fun s hs => ?_⟩
  · obtain ⟨s', hs', hmap⟩ := List.mem_filterMap.mp hs
    obtain ⟨o, ho, rfl⟩ := Option.map_eq_some_iff.mp hmap
    obtain ⟨i, hi⟩ := List.getElem?_of_mem hs'
    rcases l.eq_of_outputOffset hnone hi ho with ⟨-, rfl, rfl⟩ | ⟨-, rfl, rfl⟩
    · refine ⟨(hplace l.text (List.mem_of_getElem? l.getText) ?_).2, ?_⟩
      · rw [l.textType]
        decide
      · show 0 + l.text.size ≤ imageSize
        omega
    · refine ⟨(hplace l.rodata (List.mem_of_getElem? l.getRodata) ?_).2, ?_⟩
      · rw [l.rodataType]
        decide
      · show l.rodataOutput + l.rodata.size ≤ imageSize
        omega
  · -- two sections with a place are the text and the read-only section
    refine List.pairwise_filterMap.mpr (List.pairwise_iff_getElem.mpr fun i j hi hj hlt => ?_)
    intro s hs t ht
    obtain ⟨o, ho, rfl⟩ := Option.map_eq_some_iff.mp hs
    obtain ⟨o', ho', rfl⟩ := Option.map_eq_some_iff.mp ht
    have htext : ({ l.text with outputOffset := some 0 } : BootstrapSection).size = l.text.size := rfl
    rcases l.eq_of_outputOffset hnone (List.getElem?_eq_getElem hi) ho with ⟨hti, hsi, rfl⟩ | ⟨hri, hsi, rfl⟩
    · rcases l.eq_of_outputOffset hnone (List.getElem?_eq_getElem hj) ho' with ⟨htj, -, -⟩ | ⟨-, -, rfl⟩
      · omega
      · refine Or.inl ?_
        show 0 + laidOut[i].size ≤ l.rodataOutput
        rw [hsi, htext]
        omega
    · rcases l.eq_of_outputOffset hnone (List.getElem?_eq_getElem hj) ho' with ⟨-, hsj, rfl⟩ | ⟨hrj, -, -⟩
      · refine Or.inr ?_
        show 0 + laidOut[j].size ≤ l.rodataOutput
        rw [hsj, htext]
        omega
      · omega
  · obtain ⟨hmem, htype⟩ := List.mem_filter.mp hs
    obtain ⟨hlink, htarget⟩ := checkRela_all hcount s hs
    obtain ⟨i, hi⟩ := List.getElem?_of_mem hmem
    obtain ⟨s', hs', htype', hoffset, hsize'⟩ := l.exists_of_getElem? hi
    have hplace' := hplace s' hs' (by rw [← htype', of_decide_eq_true htype]; decide)
    rw [← hoffset, ← hsize'] at hplace'
    exact ⟨hlink, hplace'.1, hplace'.2, htarget⟩

end KernelSU.LkmImage
