import KernelSU.Ksud.FeatureConfig

/-!
# The file of the features is read back, or refused as a whole

* `loadBinaryConfig_saveBinaryConfig` — **PROVED**: what is saved is loaded, whatever the order of the entries;
* `loadBinaryConfig_torn` — **PROVED**: a file that ends too early does not load;
* `dropped_removeManaged` — **PROVED**: a boot drops exactly the features that modules manage.
-/

namespace KernelSU.Ksud.FeatureConfig

open KernelSU.Lib KernelSU.Lib.Bytes KernelSU.Lib.ByteReader

/-! ### The reader -/

theorem exact_checkMagic : Exact (checkMagic FEATURE_MAGIC) [] () := by
  have hcheck : checkMagic FEATURE_MAGIC = pure () := if_pos rfl
  rw [hcheck]
  exact Exact.pure ()

/-- The entries, one after the other. -/
theorem exact_readFeatures (l : List (Σ _ : UInt32, UInt64)) (features : Features) :
    Exact (readFeatures l.length features) (l.flatMap entryBytes)
      (l.foldl (fun features e => features.insert e.1 e.2) features) := by
  induction l generalizing features with
  | nil => exact Exact.pure features
  | cons e l ih =>
    have hid : Exact (takeLE 4 "Failed to read feature id") (encodeLE 4 e.1.toNat) e.1.toNat :=
      Exact.takeLE e.1.toNat_lt _
    have hvalue : Exact (takeLE 8 "Failed to read feature value") (encodeLE 8 e.2.toNat) e.2.toNat :=
      Exact.takeLE e.2.toNat_lt _
    have hrest := ih (features.insert e.1 e.2)
    rw [List.length_cons, readFeatures, List.flatMap_cons, entryBytes, List.append_assoc, List.foldl_cons]
    refine hid.bind (hvalue.bind ?_)
    rw [UInt32.ofNat_toNat, UInt64.ofNat_toNat]
    exact hrest

/-- **The reader takes exactly the bytes of a file.** -/
theorem exact_readBinaryConfig (order : MapOrder UInt32 UInt64) {features : Features}
    (hlen : features.keys.card < 2 ^ 32) : Exact readBinaryConfig (saveBinaryConfig order features) features := by
  have hmagic : Exact (takeLE 4 "Failed to read magic") (encodeLE 4 FEATURE_MAGIC) FEATURE_MAGIC :=
    Exact.takeLE (by decide) _
  have hversion : Exact (takeLE 4 "Failed to read version") (encodeLE 4 FEATURE_VERSION) FEATURE_VERSION :=
    Exact.takeLE (by decide) _
  have hcount : Exact (takeLE 4 "Failed to read count") (encodeLE 4 features.keys.card) features.keys.card :=
    Exact.takeLE hlen _
  have hentries : Exact (readFeatures features.keys.card ∅) ((order.entries features).flatMap entryBytes) features := by
    have hread := exact_readFeatures (order.entries features) ∅
    rwa [order.length_entries, order.foldl_insert_entries, Finmap.union_empty] at hread
  rw [saveBinaryConfig, Nat.mod_eq_of_lt hlen]
  exact hmagic.bind (exact_checkMagic.bind (hversion.bind (hcount.bind hentries)))

/-! ### The file -/

/-- **What is saved is loaded.** -/
theorem loadBinaryConfig_saveBinaryConfig (order : MapOrder UInt32 UInt64) {features : Features}
    (hlen : features.keys.card < 2 ^ 32) :
    loadBinaryConfig (some (saveBinaryConfig order features)) = .ok features := by
  have hread : loadBinaryConfig (some (saveBinaryConfig order features))
      = (readBinaryConfig (saveBinaryConfig order features)).map Prod.fst := rfl
  rw [hread, (exact_readBinaryConfig order hlen).reads_all]
  rfl

/-- **A torn file does not load.** -/
theorem loadBinaryConfig_torn (order : MapOrder UInt32 UInt64) {features : Features}
    (hlen : features.keys.card < 2 ^ 32) {t : List UInt8} (ht : t <+: saveBinaryConfig order features)
    (hne : t ≠ saveBinaryConfig order features) : ∃ e, loadBinaryConfig (some t) = .error e := by
  obtain ⟨e, he⟩ := (exact_readBinaryConfig order hlen).short t ht hne
  have hread : loadBinaryConfig (some t) = (readBinaryConfig t).map Prod.fst := rfl
  refine ⟨e, ?_⟩
  rw [hread, he]
  rfl

/-! ### Managed features -/

/-- A module manages the feature with the id. -/
def Managed (managed : ManagedFeatures) (id : UInt32) : Prop :=
  ∃ m ∈ managed, ∃ name ∈ m.2, ∃ featureId, parseFeatureId name = .ok featureId ∧ featureId.toU32 = id

/-- What was there before is gone if `P` holds, and left otherwise. -/
structure Dropped {V : Type} (P : Prop) (before after : Option V) : Prop where
  gone : P → after = none
  left : ¬P → after = before

/-- A loop drops what one of its turns drops. -/
theorem dropped_foldl {V S X : Type} {step : S → X → S} {get : S → Option V} {P : X → Prop}
    (h : ∀ s x, Dropped (P x) (get s) (get (step s x))) (xs : List X) (s : S) :
    Dropped (∃ x ∈ xs, P x) (get s) (get (xs.foldl step s)) := by
  induction xs generalizing s with
  | nil => exact ⟨fun ⟨_, hx, _⟩ => absurd hx List.not_mem_nil, fun _ => rfl⟩
  | cons x xs ih =>
    rw [List.foldl_cons]
    constructor
    · rintro ⟨y, hy, hP⟩
      by_cases hrest : ∃ x ∈ xs, P x
      · exact (ih (step s x)).gone hrest
      · rw [(ih (step s x)).left hrest]
        rcases List.mem_cons.mp hy with rfl | hy
        · exact (h s y).gone hP
        · exact absurd ⟨y, hy, hP⟩ hrest
    · intro hnot
      have hrest : ¬∃ x ∈ xs, P x := fun ⟨y, hy, hP⟩ => hnot ⟨y, List.mem_cons_of_mem _ hy, hP⟩
      rw [(ih (step s x)).left hrest]
      exact (h s x).left fun hP => hnot ⟨x, List.mem_cons_self, hP⟩

theorem dropped_removeFeature (id : UInt32) (features : Features) (name : String) :
    Dropped (∃ featureId, parseFeatureId name = .ok featureId ∧ featureId.toU32 = id) (features.lookup id)
      ((removeFeature features name).lookup id) := by
  rw [removeFeature]
  cases hparse : parseFeatureId name with
  | error e =>
    refine ⟨?_, fun _ => rfl⟩
    rintro ⟨featureId, hok, -⟩
    cases hok
  | ok featureId =>
    constructor
    · rintro ⟨featureId', hok, rfl⟩
      obtain rfl := Except.ok.inj hok
      exact Finmap.lookup_erase _ _
    · intro hnot
      exact Finmap.lookup_erase_ne fun hid => hnot ⟨featureId, rfl, hid.symm⟩

/-- **Exactly the managed features are dropped.** -/
theorem dropped_removeManaged (managed : ManagedFeatures) (features : Features) (id : UInt32) :
    Dropped (Managed managed id) (features.lookup id) ((removeManaged managed features).lookup id) :=
  dropped_foldl (fun features m => dropped_foldl (dropped_removeFeature id) m.2 features) managed features

end KernelSU.Ksud.FeatureConfig
