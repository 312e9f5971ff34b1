import Mathlib.Data.Finmap
import KernelSU.Lib.KeyedFold

/-!
# Orders of a hash map

A hash map lists its entries in some order, each once; nothing else is known of the order.

* `foldl_entries` — **PROVED**: what a loop over the entries leaves at a key, when each turn is about its own key;
* `foldl_insert_entries` — **PROVED**: inserting the entries in turn lays the map over the one there is.
-/

namespace KernelSU.Lib

variable {K V M γ : Type} [DecidableEq K]

/-- An order in which the entries of maps are listed. -/
structure MapOrder (K V : Type) where
  entries : (Finmap fun _ : K => V) → List (Σ _ : K, V)
  coe_entries : ∀ m, (entries m : Multiset (Σ _ : K, V)) = m.entries

namespace MapOrder

noncomputable instance : Inhabited (MapOrder K V) := ⟨fun m => m.entries.toList, fun _ => Multiset.coe_toList _⟩

variable (order : MapOrder K V) (m : Finmap fun _ : K => V)

omit [DecidableEq K] in
theorem nodupKeys : (order.entries m).NodupKeys := by
  rw [← Multiset.coe_nodupKeys, order.coe_entries]
  exact m.nodupKeys

omit [DecidableEq K] in
theorem length_entries : (order.entries m).length = m.keys.card := by
  have hkeys : m.keys.card = Multiset.card (m.entries.map Sigma.fst) := rfl
  rw [hkeys, Multiset.card_map, ← order.coe_entries, Multiset.coe_card]

theorem dlookup_entries (k : K) : (order.entries m).dlookup k = m.lookup k := by
  have hm : m = AList.toFinmap ⟨order.entries m, order.nodupKeys m⟩ := Finmap.ext (order.coe_entries m).symm
  conv_rhs => rw [hm]
  rw [Finmap.lookup_toFinmap]
  rfl

theorem mem_entries {m : Finmap fun _ : K => V} {e : Σ _ : K, V} : e ∈ order.entries m ↔ m.lookup e.1 = some e.2 := by
  rw [← order.dlookup_entries, ← Option.mem_def, List.mem_dlookup_iff (order.nodupKeys m)]

/-- **A loop over the entries**, each of whose turns changes what a state says about its own key only. -/
theorem foldl_entries (get : M → K → γ) (step : M → (Σ _ : K, V) → M) (update : K → V → γ → γ)
    (hsame : ∀ s k v, get (step s ⟨k, v⟩) k = update k v (get s k))
    (hother : ∀ s k v k', k' ≠ k → get (step s ⟨k, v⟩) k' = get s k') (s : M) (k : K) :
    get ((order.entries m).foldl step s) k = (m.lookup k).elim (get s k) fun v => update k v (get s k) := by
  have hfold := foldl_keyed get step update hsame hother ⟨order.entries m, order.nodupKeys m⟩ s k
  rw [AList.lookup, order.dlookup_entries] at hfold
  exact hfold

theorem foldl_insert_entries (base : Finmap fun _ : K => V) :
    (order.entries m).foldl (fun merged e => merged.insert e.1 e.2) base = m ∪ base := by
  refine Finmap.ext_lookup fun k => ?_
  have hfold := order.foldl_entries m (fun (merged : Finmap fun _ : K => V) k => merged.lookup k)
    (fun merged e => merged.insert e.1 e.2) (fun _ v _ => some v)
    (fun merged k v => Finmap.lookup_insert merged)
    (fun merged k v k' hne => Finmap.lookup_insert_of_ne merged hne) base k
  rw [hfold]
  cases hk : m.lookup k with
  | none =>
    rw [Finmap.lookup_union_right (Finmap.lookup_eq_none.mp hk)]
    rfl
  | some v =>
    rw [Finmap.lookup_union_left (Finmap.mem_of_lookup_eq_some hk), hk]
    rfl

end MapOrder

end KernelSU.Lib
