import KernelSU.LkmImage.LoadInfo
import KernelSU.LkmImageBtf.CandidateExact

/-!
# What `to_kernel_btf` accepts

* `typeSize_hasSize` — **PROVED**: a size that is found is the size of the type, through any chain of modifiers;
* `loadInfoLayout_ok` — **PROVED**: all structures of the name agree on a layout, and it is the one that is returned;
* `toKernelBtf_ok` — **PROVED**: when the types are accepted;
* `toKernelBtf_unambiguous_iff` — **PROVED**: what is accepted is unambiguous exactly where no two enumerators
  `LOADING_MODULE` of an otherwise acceptable blob differ.
-/

namespace KernelSU.LkmImageBtf

open KernelSU.Lib KernelSU.Lib.Bytes KernelSU.Lib.Reading
open KernelSU.LkmImage (checked checked_eq_some GkiAbi StackState StorageFilled prepareLoadInfo require_ok)

namespace BtfCandidate

variable (c : BtfCandidate)

/-! ### Types -/

/-- Modifiers lead from one type to another. -/
inductive Strips : ℕ → ℕ → Prop
  | refl {typeId : ℕ} : Strips typeId typeId
  | modifier {typeId target : ℕ} {t : BtfType} (ht : c.typeById typeId = some t) (hkind : t.kind.isModifier = true)
    (hrest : Strips t.sizeOrType target) : Strips typeId target

/-- The size of a type. -/
inductive HasSize : ℕ → ℕ → Prop
  | modifier {typeId size : ℕ} {t : BtfType} (ht : c.typeById typeId = some t) (hkind : t.kind.isModifier = true)
    (hrest : HasSize t.sizeOrType size) : HasSize typeId size
  | sized {typeId : ℕ} {t : BtfType} (ht : c.typeById typeId = some t)
    (hkind : t.kind ∈ [BtfKind.int, .struct, .union, .enum, .float, .enum64]) : HasSize typeId t.sizeOrType
  | pointer {typeId : ℕ} {t : BtfType} (ht : c.typeById typeId = some t) (hkind : t.kind = .ptr) :
    HasSize typeId ARM64_POINTER_SIZE
  | array {typeId elementType count size : ℕ} {t : BtfType} (ht : c.typeById typeId = some t)
    (hkind : t.kind = .array) (helement : (readU32 c.data t.payloadOffset).value = some elementType)
    (hcount : (readU32 c.data (t.payloadOffset + 8)).value = some count) (hsize : HasSize elementType size) :
    HasSize typeId (size * count)

/-- A pointer to a structure of this name. -/
def PointsTo (typeId : ℕ) (name : String) : Prop :=
  ∃ pointer p pointee s, c.Strips typeId pointer ∧ c.typeById pointer = some p ∧ p.kind = .ptr ∧
    c.Strips p.sizeOrType pointee ∧ c.typeById pointee = some s ∧ s.kind = .struct ∧
    (c.string s.nameOffset).value = some name

variable {c}

theorem stripModifiersWithin_strips {n typeId target : ℕ} (h : c.stripModifiersWithin n typeId = some target) :
    c.Strips typeId target := by
  induction n generalizing typeId with
  | zero => cases h
  | succ n ih =>
    rw [stripModifiersWithin] at h
    split at h
    · obtain ⟨hzero, htarget⟩ := Option.ite_none_right_eq_some.mp h
      rw [hzero, Option.some.inj htarget]
      exact .refl
    · next t ht =>
      split at h
      · next hkind => exact .modifier ht hkind (ih h)
      · rw [Option.some.inj h]
        exact .refl

theorem stripModifiers_strips {typeId target : ℕ} (h : c.stripModifiers typeId = some target) :
    c.Strips typeId target := stripModifiersWithin_strips h

theorem HasSize.of_strips {typeId target size : ℕ} (h : c.Strips typeId target) (hsize : c.HasSize target size) :
    c.HasSize typeId size := by
  induction h with
  | refl => exact hsize
  | modifier ht hkind _ ih => exact .modifier ht hkind (ih hsize)

/-- **A size that is found is right.** -/
theorem typeSizeWithin_hasSize {n typeId size : ℕ} (h : c.typeSizeWithin n typeId = some size) :
    c.HasSize typeId size := by
  induction n generalizing typeId size with
  | zero => cases h
  | succ n ih =>
    rw [typeSizeWithin] at h
    obtain ⟨target, hstrip, h⟩ := Option.bind_eq_some_iff.mp h
    obtain ⟨t, ht, h⟩ := Option.bind_eq_some_iff.mp h
    refine HasSize.of_strips (stripModifiers_strips hstrip) ?_
    cases hkind : t.kind with
    | int | struct | union | enum | float | enum64 =>
      rw [hkind] at h
      rw [← Option.some.inj h]
      exact .sized ht (by rw [hkind]; decide)
    | ptr =>
      rw [hkind] at h
      rw [← Option.some.inj h]
      exact .pointer ht hkind
    | array =>
      rw [hkind] at h
      obtain ⟨elementType, helement, h⟩ := Option.bind_eq_some_iff.mp h
      obtain ⟨count, hcount, h⟩ := Option.bind_eq_some_iff.mp h
      obtain ⟨elementSize, hsize, h⟩ := Option.bind_eq_some_iff.mp h
      rw [← (checked_eq_some.mp h).2]
      exact .array ht hkind helement hcount (ih hsize)
    | _ =>
      rw [hkind] at h
      cases h

theorem typeSize_hasSize {typeId size : ℕ} (h : c.typeSize typeId = some size) : c.HasSize typeId size :=
  typeSizeWithin_hasSize h

theorem pointsToNamedStruct_pointsTo {typeId : ℕ} {name : String} (h : c.pointsToNamedStruct typeId name = true) :
    c.PointsTo typeId name := by
  rw [pointsToNamedStruct] at h
  split at h
  · cases h
  · next p hp =>
    split at h
    · cases h
    · next hkind =>
      obtain ⟨pointer, hpointer, hp⟩ := Option.bind_eq_some_iff.mp hp
      obtain ⟨s, hs, hnamed⟩ := (Option.any_eq_true _ _).mp h
      obtain ⟨pointee, hpointee, hs⟩ := Option.bind_eq_some_iff.mp hs
      rw [Bool.and_eq_true, beq_iff_eq, beq_iff_eq] at hnamed
      exact ⟨pointer, p, pointee, s, stripModifiers_strips hpointer, hp, not_not.mp hkind,
        stripModifiers_strips hpointee, hs, hnamed.1, hnamed.2⟩

/-! ### `struct load_info` -/

variable (c)

/-- A member `hdr` or `len`. -/
def IsLoadInfoMember (t : BtfType) (index : ℕ) : Prop :=
  c.memberName t index = some "hdr" ∨ c.memberName t index = some "len"

/-- The type of a member has this size, as `type_size` computes it, and the member begins at a byte. -/
structure PlainMember (t : BtfType) (index : ℕ) : Prop where
  size : ∃ memberType, (readU32 c.data (t.payloadOffset + index * 12 + 4)).value = some memberType ∧
    c.typeSize memberType = some ARM64_POINTER_SIZE
  aligned : ∃ offset, c.memberOffset t index = some offset

/-- The offset of the last of the first `n` members that has this name. -/
def offsetNamed (t : BtfType) (n : ℕ) (name : String) : Option ℕ :=
  ((List.range n).reverse.find? fun index => c.memberName t index == some name).bind (c.memberOffset t)

/-- The layout that a structure says, if it has both members. -/
def layoutOf (t : BtfType) : Option LoadInfoLayout :=
  match c.offsetNamed t t.vlen "hdr", c.offsetNamed t t.vlen "len" with
  | some hdrOffset, some lenOffset => some ⟨t.sizeOrType, hdrOffset, lenOffset⟩
  | _, _ => none

/-- A structure whose members `hdr` and `len` can be used. -/
structure PlainStruct (t : BtfType) : Prop where
  members : ∀ index < t.vlen, c.IsLoadInfoMember t index → c.PlainMember t index
  inside : ∀ layout, c.layoutOf t = some layout →
    layout.hdrOffset + ARM64_POINTER_SIZE ≤ t.sizeOrType ∧ layout.lenOffset + ARM64_POINTER_SIZE ≤ t.sizeOrType

variable {c}

theorem okOrElse_ok {α : Type} {o : Option α} {message : String} {a : α} : okOrElse o message = .ok a ↔ o = some a := by
  cases o with
  | none => exact iff_of_false (fun h => nomatch h) (fun h => nomatch h)
  | some b =>
    rw [okOrElse, Except.ok.injEq, Option.some.injEq]

/-- One more member. -/
theorem offsetNamed_succ (t : BtfType) (n : ℕ) (name : String) :
    c.offsetNamed t (n + 1) name =
      if c.memberName t n = some name then c.memberOffset t n else c.offsetNamed t n name := by
  rw [offsetNamed, List.range_succ, List.reverse_append, List.reverse_singleton, List.singleton_append, List.find?_cons]
  by_cases h : c.memberName t n = some name
  · rw [if_pos h, beq_iff_eq.mpr h]
    rfl
  · rw [if_neg h, beq_eq_false_iff_ne.mpr h]
    rfl

/-- A member with another name is passed over. -/
theorem loadInfoMember_other {t : BtfType} {n : ℕ} (hhdr : c.memberName t n ≠ some "hdr")
    (hlen : c.memberName t n ≠ some "len") (found : Option ℕ × Option ℕ) :
    c.loadInfoMember t found n = .ok found := by
  rw [loadInfoMember]
  cases hname : c.memberName t n with
  | none => rfl
  | some name =>
    rw [hname] at hhdr hlen
    exact if_pos ⟨fun h => hhdr (congrArg some h), fun h => hlen (congrArg some h)⟩

/-- A member `hdr` or `len` is checked. -/
theorem loadInfoMember_named {t : BtfType} {n : ℕ} {name : String} (hname : c.memberName t n = some name)
    (hnamed : name = "hdr" ∨ name = "len") {found r : Option ℕ × Option ℕ} :
    c.loadInfoMember t found n = .ok r ↔ c.PlainMember t n ∧
      r = if name = "hdr" then (c.memberOffset t n, found.2) else (found.1, c.memberOffset t n) := by
  have hcheck : ¬ (name ≠ "hdr" ∧ name ≠ "len") := fun h => hnamed.elim h.1 h.2
  simp only [loadInfoMember, hname, if_neg hcheck, except_bind_ok, okOrElse_ok, require_ok]
  constructor
  · rintro ⟨memberType, htype, -, hsize, offset, hoffset, hr⟩
    refine ⟨⟨⟨memberType, htype, hsize⟩, offset, hoffset⟩, ?_⟩
    rw [hoffset]
    split at hr
    · next h =>
      rw [if_pos h]
      exact (Except.ok.inj hr).symm
    · next h =>
      rw [if_neg h]
      exact (Except.ok.inj hr).symm
  · rintro ⟨⟨⟨memberType, htype, hsize⟩, offset, hoffset⟩, rfl⟩
    refine ⟨memberType, htype, (), hsize, offset, hoffset, ?_⟩
    rw [hoffset]
    split <;> rfl

/-- **One turn** of the loop over the members. -/
theorem loadInfoMember_ok {t : BtfType} {found r : Option ℕ × Option ℕ} {n : ℕ} :
    c.loadInfoMember t found n = .ok r ↔
      (c.IsLoadInfoMember t n → c.PlainMember t n) ∧
        r = (if c.memberName t n = some "hdr" then c.memberOffset t n else found.1,
          if c.memberName t n = some "len" then c.memberOffset t n else found.2) := by
  by_cases hhdr : c.memberName t n = some "hdr"
  · rw [loadInfoMember_named hhdr (.inl rfl), if_pos rfl, if_pos hhdr, hhdr, if_neg (by decide)]
    exact and_congr_left fun _ => ⟨fun h _ => h, fun h => h (.inl hhdr)⟩
  · by_cases hlen : c.memberName t n = some "len"
    · rw [loadInfoMember_named hlen (.inr rfl), if_neg (by decide), if_neg hhdr, if_pos hlen]
      exact and_congr_left fun _ => ⟨fun h _ => h, fun h => h (.inr hlen)⟩
    · rw [loadInfoMember_other hhdr hlen, if_neg hhdr, if_neg hlen, Except.ok.injEq, eq_comm]
      exact (and_iff_right fun hmember => absurd hmember (not_or.mpr ⟨hhdr, hlen⟩)).symm

/-- **The loop over the members** finds the last members of the names. -/
theorem loadInfoMembers_ok {t : BtfType} {n : ℕ} {r : Option ℕ × Option ℕ} :
    (List.range n).foldlM (c.loadInfoMember t) (none, none) = .ok r ↔
      (∀ index < n, c.IsLoadInfoMember t index → c.PlainMember t index) ∧
        r = (c.offsetNamed t n "hdr", c.offsetNamed t n "len") := by
  induction n generalizing r with
  | zero =>
    rw [List.range_zero, List.foldlM_nil]
    refine ⟨fun h => ⟨fun _ h0 => absurd h0 (Nat.not_lt_zero _), (Except.ok.inj h).symm⟩, fun h => ?_⟩
    rw [h.2]
    rfl
  | succ n ih =>
    rw [List.range_succ, List.foldlM_append, except_bind_ok]
    simp only [List.foldlM_cons, List.foldlM_nil, bind_pure, ih, loadInfoMember_ok, offsetNamed_succ]
    constructor
    · rintro ⟨found, ⟨hmembers, rfl⟩, hmember, rfl⟩
      refine ⟨fun index hindex => ?_, rfl⟩
      rcases Nat.lt_succ_iff_lt_or_eq.mp hindex with hlt | rfl
      · exact hmembers index hlt
      · exact hmember
    · rintro ⟨hmembers, rfl⟩
      exact ⟨_, ⟨fun index hindex => hmembers index (by omega), rfl⟩, hmembers n (by omega), rfl⟩

/-- **One structure.** -/
theorem loadInfoStruct_ok {t : BtfType} {layouts layouts' : List LoadInfoLayout} :
    c.loadInfoStruct layouts t = .ok layouts' ↔
      c.PlainStruct t ∧ layouts' = (c.layoutOf t).toList.foldl (fun found layout => found.insert layout) layouts := by
  rw [loadInfoStruct, except_bind_ok]
  simp only [loadInfoMembers_ok]
  constructor
  · rintro ⟨found, ⟨hmembers, rfl⟩, h⟩
    rw [layoutOf]
    cases hhdr : c.offsetNamed t t.vlen "hdr" with
    | none =>
      rw [hhdr] at h
      refine ⟨⟨hmembers, fun layout hlayout => ?_⟩, (Except.ok.inj h).symm⟩
      rw [layoutOf, hhdr] at hlayout
      cases hlayout
    | some hdrOffset =>
      cases hlen : c.offsetNamed t t.vlen "len" with
      | none =>
        rw [hhdr, hlen] at h
        refine ⟨⟨hmembers, fun layout hlayout => ?_⟩, (Except.ok.inj h).symm⟩
        rw [layoutOf, hhdr, hlen] at hlayout
        cases hlayout
      | some lenOffset =>
        rw [hhdr, hlen] at h
        obtain ⟨hinside, h⟩ := except_check_ok.mp h
        refine ⟨⟨hmembers, fun layout hlayout => ?_⟩, (Except.ok.inj h).symm⟩
        rw [layoutOf, hhdr, hlen] at hlayout
        rw [← Option.some.inj hlayout]
        exact require_ok.mp hinside
  · rintro ⟨hplain, rfl⟩
    refine ⟨_, ⟨hplain.members, rfl⟩, ?_⟩
    have hinside := hplain.inside
    rw [layoutOf] at hinside ⊢
    cases hhdr : c.offsetNamed t t.vlen "hdr" with
    | none => rfl
    | some hdrOffset =>
      cases hlen : c.offsetNamed t t.vlen "len" with
      | none => rfl
      | some lenOffset =>
        rw [hhdr, hlen] at hinside
        exact except_check_ok.mpr ⟨require_ok.mpr (hinside _ rfl), rfl⟩

/-- **The loop over the structures.** -/
theorem loadInfoStructs_ok {ts : List BtfType} {layouts layouts' : List LoadInfoLayout} :
    ts.foldlM c.loadInfoStruct layouts = .ok layouts' ↔
      (∀ t ∈ ts, c.PlainStruct t) ∧
        layouts' = (ts.filterMap c.layoutOf).foldl (fun found layout => found.insert layout) layouts := by
  induction ts generalizing layouts with
  | nil =>
    refine ⟨fun h => ⟨List.forall_mem_nil _, (Except.ok.inj h).symm⟩, fun h => ?_⟩
    rw [h.2]
    rfl
  | cons t ts ih =>
    have hcons : (t :: ts).filterMap c.layoutOf = (c.layoutOf t).toList ++ ts.filterMap c.layoutOf := by
      rw [List.filterMap_cons]
      cases c.layoutOf t <;> rfl
    rw [List.foldlM_cons, except_bind_ok, List.forall_mem_cons, hcons, List.foldl_append]
    simp only [loadInfoStruct_ok, ih]
    constructor
    · rintro ⟨found, ⟨ht, rfl⟩, hts, rfl⟩
      exact ⟨⟨ht, hts⟩, rfl⟩
    · rintro ⟨⟨ht, hts⟩, rfl⟩
      exact ⟨_, ⟨ht, rfl⟩, hts, rfl⟩

/-- Insertions in turn: what is in the set in the end, each once. -/
theorem foldl_insert {α : Type} [DecidableEq α] (xs : List α) :
    ∀ acc : List α, acc.Nodup → (xs.foldl (fun found x => found.insert x) acc).Nodup ∧
      ∀ y, y ∈ xs.foldl (fun found x => found.insert x) acc ↔ y ∈ xs ∨ y ∈ acc := by
  induction xs with
  | nil =>
    intro acc hacc
    exact ⟨hacc, fun y => (or_iff_right List.not_mem_nil).symm⟩
  | cons x xs ih =>
    intro acc hacc
    obtain ⟨hnodup, hmem⟩ := ih (acc.insert x) (hacc.insert)
    refine ⟨hnodup, fun y => ?_⟩
    rw [List.foldl_cons, hmem, List.mem_insert_iff, List.mem_cons]
    exact ⟨fun h => by tauto, fun h => by tauto⟩

/-- A set with one member. -/
theorem nodup_length_one {α : Type} {l : List α} (h : l.Nodup) {a : α} :
    l.length = 1 ∧ l.head? = some a ↔ a ∈ l ∧ ∀ b ∈ l, b = a := by
  constructor
  · rintro ⟨hone, hhead⟩
    obtain ⟨b, rfl⟩ := List.length_eq_one_iff.mp hone
    obtain rfl := Option.some.inj hhead
    exact ⟨List.mem_singleton_self _, fun b hb => List.mem_singleton.mp hb⟩
  · rintro ⟨ha, hall⟩
    obtain ⟨n, hn⟩ : ∃ n, l = List.replicate n a := ⟨_, List.eq_replicate_of_mem hall⟩
    rw [hn, List.nodup_replicate] at h
    rw [hn] at ha
    have hone : n = 1 := by
      have hne := List.length_pos_of_mem ha
      rw [List.length_replicate] at hne
      omega
    rw [hn, hone]
    exact ⟨rfl, rfl⟩

variable (c) in
/-- All structures of the name can be used and agree on a layout, and one of them says it. -/
structure LoadInfoAgrees (loadInfo : Option LoadInfoLayout) : Prop where
  plain : ∀ t ∈ c.typesNamed .struct "load_info", c.PlainStruct t
  absent : loadInfo = none ↔ c.typesNamed .struct "load_info" = []
  said : ∀ layout, loadInfo = some layout → ∃ t ∈ c.typesNamed .struct "load_info", c.layoutOf t = some layout
  unique : ∀ t ∈ c.typesNamed .struct "load_info", ∀ layout, c.layoutOf t = some layout → loadInfo = some layout

/-- **The layout** is returned on which all structures agree. -/
theorem loadInfoLayout_ok {loadInfo : Option LoadInfoLayout} :
    c.loadInfoLayout = .ok loadInfo ↔ c.LoadInfoAgrees loadInfo := by
  rw [loadInfoLayout, except_bind_ok]
  simp only [loadInfoStructs_ok]
  obtain ⟨hnodup, hmem⟩ := foldl_insert ((c.typesNamed .struct "load_info").filterMap c.layoutOf) [] List.nodup_nil
  simp only [List.not_mem_nil, or_false, List.mem_filterMap] at hmem
  generalize ((c.typesNamed .struct "load_info").filterMap c.layoutOf).foldl
    (fun found layout => found.insert layout) [] = layouts at hnodup hmem
  constructor
  · rintro ⟨_, ⟨hplain, rfl⟩, h⟩
    split at h
    · next hzero =>
      have hnil := List.length_eq_zero_iff.mp hzero
      obtain rfl := Except.ok.inj h
      refine ⟨hplain, iff_of_true rfl hnil, fun _ h => (nomatch h), fun t ht => ?_⟩
      rw [hnil] at ht
      cases ht
    · next hpos =>
      obtain ⟨-, h⟩ := except_check_ok.mp h
      obtain ⟨hone, h⟩ := except_check_ok.mp h
      have hone := require_ok.mp hone
      obtain ⟨layout, rfl⟩ := List.length_eq_one_iff.mp hone
      obtain rfl := Except.ok.inj h
      obtain ⟨hsaid, hall⟩ := (nodup_length_one hnodup).mp ⟨rfl, rfl⟩
      refine ⟨hplain, iff_of_false (fun h => nomatch h) fun h => hpos (List.length_eq_zero_iff.mpr h), ?_, ?_⟩
      · intro layout' hlayout
        rw [← Option.some.inj hlayout]
        exact (hmem layout).mp hsaid
      · intro t ht layout' hlayout
        exact congrArg some (hall layout' ((hmem layout').mpr ⟨t, ht, hlayout⟩)).symm
  · intro h
    refine ⟨_, ⟨h.plain, rfl⟩, ?_⟩
    cases loadInfo with
    | none =>
      rw [if_pos (List.length_eq_zero_iff.mpr (h.absent.mp rfl))]
    | some layout =>
      have hpos : (c.typesNamed .struct "load_info").length ≠ 0 := fun hzero =>
        nomatch h.absent.mpr (List.length_eq_zero_iff.mp hzero)
      obtain ⟨t, ht, hlayout⟩ := h.said layout rfl
      have hin : layout ∈ layouts := (hmem layout).mpr ⟨t, ht, hlayout⟩
      have hall : ∀ layout' ∈ layouts, layout' = layout := by
        intro layout' hlayout'
        obtain ⟨t', ht', hsays⟩ := (hmem layout').mp hlayout'
        exact (Option.some.inj (h.unique t' ht' layout' hsays)).symm
      obtain ⟨hone, hhead⟩ := (nodup_length_one hnodup).mpr ⟨hin, hall⟩
      rw [if_neg hpos]
      refine except_check_ok.mpr ⟨require_ok.mpr (List.ne_nil_of_mem hin), ?_⟩
      exact except_check_ok.mpr ⟨require_ok.mpr hone, congrArg Except.ok hhead⟩

/-! ### Functions -/

variable (c)

/-- A function has a prototype with so many parameters; the first parameter of `load_module` satisfies `P`. -/
def FunctionMatches (P : ℕ → Prop) (name : String) (arity : ℕ) (function : BtfType) : Prop :=
  ∃ prototype, c.typeById function.sizeOrType = some prototype ∧ prototype.kind = .funcProto ∧ prototype.vlen = arity ∧
    (name = "load_module" → ∃ firstParameter,
      (readU32 c.data (prototype.payloadOffset + 4)).value = some firstParameter ∧ P firstParameter)

/-- All functions of the table match. -/
def FunctionsMatch (P : ℕ → Prop) : Prop :=
  ∀ expected ∈ EXPECTED_ARITIES, ∀ function ∈ c.typesNamed .func expected.1,
    c.FunctionMatches P expected.1 expected.2 function

variable {c}

theorem validateFunctionAbi_ok {name : String} {arity : ℕ} {function : BtfType} :
    c.validateFunctionAbi name arity function = .ok () ↔
      c.FunctionMatches (fun typeId => c.pointsToNamedStruct typeId "load_info" = true) name arity function := by
  rw [validateFunctionAbi, except_bind_ok]
  refine exists_congr fun prototype => ?_
  rw [okOrElse_ok, except_check_ok, require_ok, and_assoc]
  refine and_congr Iff.rfl (and_congr Iff.rfl (and_congr Iff.rfl ?_))
  split
  · next hname => simp only [except_bind_ok, okOrElse_ok, require_ok, hname, forall_const]
  · next hname => exact iff_of_true rfl fun h => absurd h hname

theorem validateFunctionAbis_ok : c.validateFunctionAbis = .ok () ↔
    c.FunctionsMatch fun typeId => c.pointsToNamedStruct typeId "load_info" = true := by
  simp only [validateFunctionAbis, forM_ok, validateFunctionAbi_ok, FunctionsMatch]

theorem FunctionMatches.mono {P Q : ℕ → Prop} (hPQ : ∀ typeId, P typeId → Q typeId) {name : String} {arity : ℕ}
    {function : BtfType} (h : c.FunctionMatches P name arity function) : c.FunctionMatches Q name arity function := by
  obtain ⟨prototype, hproto, hkind, harity, hfirst⟩ := h
  refine ⟨prototype, hproto, hkind, harity, fun hname => ?_⟩
  obtain ⟨firstParameter, hread, hP⟩ := hfirst hname
  exact ⟨firstParameter, hread, hPQ _ hP⟩

/-! ### Enumerators -/

variable (c)

/-- The value of a word of so many bits, which may be signed. -/
def enumeratorValue (isSigned : Bool) (bits word : ℕ) : ℤ :=
  if isSigned = true ∧ 2 ^ (bits - 1) ≤ word then (word : ℤ) - 2 ^ bits else word

/-- The names and values of an enumeration. -/
def enumerators (t : BtfType) : List (Option String × ℤ) :=
  match t.kind with
  | .enum => (List.range t.vlen).map fun i =>
    ((c.string (wordAt c.data (t.payloadOffset + 8 * i))).value,
      enumeratorValue t.kindFlag 32 (wordAt c.data (t.payloadOffset + 8 * i + 4)))
  | .enum64 => (List.range t.vlen).map fun i =>
    ((c.string (wordAt c.data (t.payloadOffset + 12 * i))).value,
      enumeratorValue t.kindFlag 64 (wordAt c.data (t.payloadOffset + 12 * i + 4) +
        2 ^ 32 * wordAt c.data (t.payloadOffset + 12 * i + 8)))
  | _ => []

/-- The values of all enumerators of this name. -/
def enumeratorsNamed (name : String) : List ℤ :=
  (c.types.flatMap c.enumerators).filterMap fun e => if e.1 = some name then some e.2 else none

/-- All enumerators `LOADING_MODULE` have one value. -/
def LoadingModulesAgree : Prop :=
  ∀ v ∈ c.enumeratorsNamed "LOADING_MODULE", ∀ w ∈ c.enumeratorsNamed "LOADING_MODULE", v = w

/-! ### What is accepted -/

/-- What `to_kernel_btf` checks. -/
def Acceptable : Prop :=
  (∃ loadInfo, c.LoadInfoAgrees loadInfo) ∧
    c.FunctionsMatch fun typeId => c.pointsToNamedStruct typeId "load_info" = true

/-- The facts that are taken from the types. -/
structure Unambiguous (btf : KernelBtf) : Prop where
  members : ∀ t ∈ c.typesNamed .struct "load_info", ∀ index < t.vlen, c.IsLoadInfoMember t index →
    ∃ memberType offset, (readU32 c.data (t.payloadOffset + index * 12 + 4)).value = some memberType ∧
      c.HasSize memberType ARM64_POINTER_SIZE ∧ c.memberOffset t index = some offset
  inside : ∀ t ∈ c.typesNamed .struct "load_info", ∀ layout, c.layoutOf t = some layout →
    layout.hdrOffset + ARM64_POINTER_SIZE ≤ t.sizeOrType ∧ layout.lenOffset + ARM64_POINTER_SIZE ≤ t.sizeOrType
  layout : ∀ t ∈ c.typesNamed .struct "load_info", ∀ layout, c.layoutOf t = some layout → btf.loadInfo = some layout
  said : ∀ layout, btf.loadInfo = some layout →
    ∃ t ∈ c.typesNamed .struct "load_info", c.layoutOf t = some layout
  absent : btf.loadInfo = none ↔ c.typesNamed .struct "load_info" = []
  functions : c.FunctionsMatch fun typeId => c.PointsTo typeId "load_info"
  loadingModules : c.LoadingModulesAgree

variable {c}

/-- **When the types are accepted.** -/
theorem toKernelBtf_ok {btf : KernelBtf} : c.toKernelBtf = .ok btf ↔
    c.LoadInfoAgrees btf.loadInfo ∧
      (c.FunctionsMatch fun typeId => c.pointsToNamedStruct typeId "load_info" = true) ∧
      btf = ⟨c.fileOffset, c.size, c.types.length, btf.loadInfo⟩ := by
  rw [toKernelBtf, except_bind_ok]
  simp only [except_check_ok, loadInfoLayout_ok, validateFunctionAbis_ok, Except.ok.injEq]
  constructor
  · rintro ⟨loadInfo, hagrees, hfunctions, rfl⟩
    exact ⟨hagrees, hfunctions, rfl⟩
  · rintro ⟨hagrees, hfunctions, heq⟩
    exact ⟨_, hagrees, hfunctions, heq.symm⟩

/-- What is accepted is unambiguous apart from the enumerators. -/
theorem unambiguous_of_ok {btf : KernelBtf} (h : c.toKernelBtf = .ok btf) (hmodules : c.LoadingModulesAgree) :
    c.Unambiguous btf := by
  obtain ⟨hagrees, hfunctions, -⟩ := toKernelBtf_ok.mp h
  refine ⟨fun t ht index hindex hmember => ?_, fun t ht => (hagrees.plain t ht).inside, hagrees.unique, hagrees.said,
    hagrees.absent, fun expected hexpected function hfunction => ?_, hmodules⟩
  · obtain ⟨⟨memberType, htype, hsize⟩, offset, hoffset⟩ := (hagrees.plain t ht).members index hindex hmember
    exact ⟨memberType, offset, htype, typeSize_hasSize hsize, hoffset⟩
  · exact (hfunctions expected hexpected function hfunction).mono fun _ => pointsToNamedStruct_pointsTo

/-- **What is accepted is unambiguous and safe to use** exactly where the enumerators `LOADING_MODULE` agree or the types
are not acceptable for another reason. -/
theorem toKernelBtf_unambiguous_iff (c : BtfCandidate) :
    ((∀ btf, c.toKernelBtf = .ok btf → c.Unambiguous btf) ∧
      ∀ (abi abi' : GkiAbi) (btf : KernelBtf), abi.applyBtf btf = .ok abi' →
        ∀ (moduleSize fuel : ℕ) (s : StackState), abi'.loadInfoStorageSize ≤ s.sp → s.sp < 2 ^ 64 →
          abi'.loadInfoStorageSize / 16 ≤ fuel →
          ∃ turns s', prepareLoadInfo abi' moduleSize fuel s = some (turns, s') ∧
            StorageFilled abi' moduleSize s turns s') ↔
      (c.Acceptable → c.LoadingModulesAgree) := by
  constructor
  · rintro ⟨hunambiguous, -⟩ ⟨⟨loadInfo, hagrees⟩, hfunctions⟩
    exact (hunambiguous ⟨c.fileOffset, c.size, c.types.length, loadInfo⟩
      (toKernelBtf_ok.mpr ⟨hagrees, hfunctions, rfl⟩)).loadingModules
  · intro hmodules
    refine ⟨fun btf h => ?_, fun abi abi' btf h moduleSize fuel s hroom hsp hfuel => ?_⟩
    · obtain ⟨hagrees, hfunctions, -⟩ := toKernelBtf_ok.mp h
      exact unambiguous_of_ok h (hmodules ⟨⟨_, hagrees⟩, hfunctions⟩)
    · exact LkmImage.prepareLoadInfo_safe (GkiAbi.applyBtf_sound h) moduleSize hroom hsp hfuel

end BtfCandidate

/-- A kernel with two values for `LOADING_MODULE` and nothing else against it. -/
def conflictingBlob : Blob where
  types :=
    [⟨.int, 0, false, 1, 8, [64]⟩, ⟨.ptr, 0, false, 0, 1, []⟩, ⟨.struct, 2, false, 23, 136, [15, 2, 128, 19, 1, 192]⟩,
      ⟨.enum, 2, false, 33, 4, [53, 2, 53, 3]⟩, ⟨.ptr, 0, false, 0, 3, []⟩,
      ⟨.funcProto, 3, false, 0, 1, [80, 5, 80, 1, 80, 1]⟩, ⟨.func, 0, false, 68, 6, []⟩]
  strings := 0 :: ["unsigned long", "hdr", "len", "load_info", "kernel_load_data_id", "LOADING_MODULE", "load_module",
    "parameter"].flatMap fun name => asBytes name ++ [0]
  fits := by decide
  valid := by decide +kernel
  first := by decide
  last := by decide +kernel
  typesLength := by decide +kernel
  stringsLength := by decide +kernel

/-- It is parsed and accepted, with two values. -/
theorem conflicting_loadingModules_accepted : ∃ c btf,
    (BtfCandidate.parse conflictingBlob.encode 0).value = some c ∧ c.toKernelBtf = .ok btf ∧
      c.enumeratorsNamed "LOADING_MODULE" = [2, 3] ∧ ¬ c.Unambiguous btf := by
  have hvalues : (conflictingBlob.candidate conflictingBlob.encode 0).enumeratorsNamed "LOADING_MODULE" = [2, 3] := by
    decide +kernel
  have hok : (conflictingBlob.candidate conflictingBlob.encode 0).toKernelBtf.toOption =
      some ⟨0, 266, 7, some ⟨136, 16, 24⟩⟩ := by
    decide +kernel
  cases haccepted : (conflictingBlob.candidate conflictingBlob.encode 0).toKernelBtf with
  | error message =>
    rw [haccepted] at hok
    cases hok
  | ok btf =>
  refine ⟨conflictingBlob.candidate conflictingBlob.encode 0, btf, ?_, haccepted, hvalues, ?_⟩
  · exact Blob.parse_encode (by decide +kernel) (slice_full _)
  · intro h
    have hequal := h.loadingModules 2 (by rw [hvalues]; decide) 3 (by rw [hvalues]; decide)
    exact absurd hequal (by decide)

end KernelSU.LkmImageBtf
