import KernelSU.Policy.ProfileHandles

/-!
# Profile handles stay valid

* `HandleInv` — the invariant of every interleaving: each count is right for the handles and the table's
  reference, the linked entries have distinct uids, and whatever a call or a writer points to exists;
* `HandleInv.step` — **PROVED**: every step preserves it;
* `handles_valid` — **PROVED**: what this and the history of a run say about handles and entries.
-/

namespace KernelSU.Policy

open KernelSU.Lib KernelSU.Lib.Bytes AppProfile AllowlistState

/-! ### Who refers to an entry -/

/-- The entry a call points to. -/
def Call.entry : Call → Option ℕ
  | .take _ _ id => some id
  | .held _ _ id => some id
  | .find _ _ => none
  | .heldDefault => none
  | .done => none

/-- The call is a handle on this entry. -/
def Call.holds (id : ℕ) : Call → Bool
  | .held _ _ id' => id' = id
  | .find _ _ => false
  | .take _ _ _ => false
  | .heldDefault => false
  | .done => false

/-- The entry whose table reference is still to be dropped. -/
def Writer.pending : Writer → Option ℕ
  | .setPut old => some old
  | .prunePut old _ _ => some old
  | .setLink _ => none
  | .pruneWalk _ _ => none
  | .unlock => none

/-- The entries that a prune has not visited yet. -/
def Writer.rest : Writer → List ℕ
  | .pruneWalk rest _ => rest
  | .prunePut _ rest _ => rest
  | .setLink _ => []
  | .setPut _ => []
  | .unlock => []

namespace HandleState

/-- The outstanding handles on an entry. -/
def handles (s : HandleState) (id : ℕ) : ℕ := s.calls.countP (Call.holds id)

def pending (s : HandleState) : Option ℕ := s.writer.bind Writer.pending

def rest (s : HandleState) : List ℕ := (s.writer.map Writer.rest).getD []

/-- The table's reference is held: the entry is linked, or was and its reference is not dropped yet. -/
def TableHolds (s : HandleState) (id : ℕ) : Prop := id ∈ s.linked ∨ s.pending = some id

instance (s : HandleState) (id : ℕ) : Decidable (s.TableHolds id) :=
  inferInstanceAs (Decidable (_ ∨ _))

/-- What the count of an entry should be. -/
def holders (s : HandleState) (id : ℕ) : ℕ := s.handles id + if s.TableHolds id then 1 else 0

def profileAt (s : HandleState) (id : ℕ) : Option AppProfile := (s.heap[id]?).map PermData.profile

def uidAt (s : HandleState) (id : ℕ) : Option UInt32 := (s.profileAt id).map currUid

end HandleState

open HandleState

/-- The invariant. -/
structure HandleInv (s : HandleState) : Prop where
  counted : ∀ (id : ℕ) (p : PermData), s.heap[id]? = some p → p.ref.Held (s.holders id)
  linked_lt : ∀ id ∈ s.linked, id < s.heap.length
  uids_nodup : (s.linked.map s.uidAt).Nodup
  entry_lt : ∀ call ∈ s.calls, ∀ id, call.entry = some id → id < s.heap.length
  pending : ∀ id, s.pending = some id → id < s.heap.length ∧ id ∉ s.linked
  rest : s.rest.Nodup ∧ ∀ id ∈ s.rest, id ∈ s.linked

namespace HandleInv

variable {s : HandleState}

theorem init : HandleInv .init where
  counted := by simp [HandleState.init]
  linked_lt := by simp [HandleState.init]
  uids_nodup := by simp [HandleState.init]
  entry_lt := by simp [HandleState.init]
  pending := by simp [HandleState.init, HandleState.pending]
  rest := by simp [HandleState.init, HandleState.rest]

theorem linked_nodup (h : HandleInv s) : s.linked.Nodup := h.uids_nodup.of_map

/-! ### Steps that touch no count -/

/-- Only calls that hold nothing come and go. -/
theorem of_calls (h : HandleInv s) {calls : List Call}
    (hhandles : ∀ id, calls.countP (Call.holds id) = s.handles id)
    (hentry : ∀ call ∈ calls, ∀ id, call.entry = some id → id < s.heap.length) :
    HandleInv { s with calls := calls } where
  counted id p hp := by
    have hholders : HandleState.holders { s with calls := calls } id = s.holders id := by
      rw [holders, holders, handles, hhandles]
      rfl
    rw [hholders]
    exact h.counted id p hp
  linked_lt := h.linked_lt
  uids_nodup := h.uids_nodup
  entry_lt := hentry
  pending := h.pending
  rest := h.rest

/-- Only the owner of the mutex goes on, without a table reference to drop. -/
theorem of_writer (h : HandleInv s) {writer : Option Writer} (hpending : s.pending = none)
    (hpending' : writer.bind Writer.pending = none)
    (hrest : ((writer.map Writer.rest).getD []).Nodup ∧
      ∀ id ∈ (writer.map Writer.rest).getD [], id ∈ s.linked) :
    HandleInv { s with writer := writer } where
  counted id p hp := by
    have htable : HandleState.TableHolds { s with writer := writer } id ↔ s.TableHolds id := by
      rw [TableHolds, TableHolds, HandleState.pending, hpending', hpending]
    have hholders : HandleState.holders { s with writer := writer } id = s.holders id := by
      simp only [holders, htable]
      rfl
    rw [hholders]
    exact h.counted id p hp
  linked_lt := h.linked_lt
  uids_nodup := h.uids_nodup
  entry_lt := h.entry_lt
  pending id hid := by
    rw [HandleState.pending, hpending'] at hid
    exact absurd hid (by simp)
  rest := hrest

/-! ### Calls -/

/-- One call's step counted: what its entry loses and gains. -/
theorem handles_setCall {i : ℕ} {old : Call} (hold : s.calls[i]? = some old) (call : Call) (id : ℕ) :
    (s.setCall i call).handles id + (if old.holds id then 1 else 0) =
      s.handles id + if call.holds id then 1 else 0 := by
  obtain ⟨hi, rfl⟩ := List.getElem?_eq_some_iff.mp hold
  rw [handles, setCall, List.countP_set hi, handles]
  by_cases hheld : (s.calls[i]).holds id = true
  · have hpos : 0 < s.calls.countP (Call.holds id) :=
      List.countP_pos_iff.mpr ⟨_, List.getElem_mem hi, hheld⟩
    rw [if_pos hheld]
    omega
  · rw [if_neg hheld]
    omega

/-- A call's step may move it to an entry that exists. -/
theorem entry_lt_setCall (h : HandleInv s) (i : ℕ) {call : Call}
    (hcall : ∀ id, call.entry = some id → id < s.heap.length) :
    ∀ c ∈ s.calls.set i call, ∀ id, c.entry = some id → id < s.heap.length := by
  intro c hc
  rcases List.mem_or_eq_of_mem_set hc with hc | rfl
  · exact h.entry_lt c hc
  · exact hcall

/-- A step of a call from and to a place where it holds nothing. -/
theorem of_setCall (h : HandleInv s) {i : ℕ} {old call : Call} (hold : s.calls[i]? = some old)
    (hnone : ∀ id, old.holds id = false) (hnone' : ∀ id, call.holds id = false)
    (hentry : ∀ id, call.entry = some id → id < s.heap.length) : HandleInv (s.setCall i call) := by
  refine h.of_calls (fun id => ?_) (h.entry_lt_setCall i hentry)
  have hsum := handles_setCall hold call id
  rw [hnone, hnone', if_neg Bool.false_ne_true] at hsum
  exact hsum

/-! ### Steps that change one count -/

theorem profileAt_modify (heap : List PermData) (id : ℕ) (f : RefCount → RefCount) (id' : ℕ) :
    ((heap.modify id fun p => { p with ref := f p.ref })[id']?).map PermData.profile =
      (heap[id']?).map PermData.profile := by
  rw [List.getElem?_modify, Option.map_eq_map, Option.map_map]
  congr 1
  funext p
  simp only [Function.comp_apply]
  split <;> rfl

/-- A step changes one count, rightly, and neither the table nor a profile. -/
theorem of_ref (h : HandleInv s) {s' : HandleState} {id : ℕ} {f : RefCount → RefCount}
    (hheap : s'.heap = s.heap.modify id fun p => { p with ref := f p.ref })
    (hlinked : s'.linked = s.linked)
    (hcount : ∀ p, s.heap[id]? = some p → (f p.ref).Held (s'.holders id))
    (hother : ∀ id' ≠ id, s'.holders id' = s.holders id')
    (hentry : ∀ call ∈ s'.calls, ∀ id, call.entry = some id → id < s.heap.length)
    (hpending : ∀ id, s'.pending = some id → id < s.heap.length ∧ id ∉ s.linked)
    (hrest : s'.rest.Nodup ∧ ∀ id ∈ s'.rest, id ∈ s.linked) : HandleInv s' := by
  have hlen : s'.heap.length = s.heap.length := by rw [hheap, List.length_modify]
  have huid : s'.uidAt = s.uidAt := by
    funext id'
    rw [uidAt, uidAt, profileAt, profileAt, hheap, profileAt_modify]
  refine ⟨?_, ?_, ?_, ?_, ?_, ?_⟩
  · intro id' p hp
    rw [hheap, List.getElem?_modify] at hp
    obtain ⟨q, hq, rfl⟩ := Option.map_eq_some_iff.mp hp
    split
    · next heq => subst heq; exact hcount q hq
    · next hne =>
      rw [hother id' (Ne.symm hne)]
      exact h.counted id' q hq
  · rw [hlinked, hlen]
    exact h.linked_lt
  · rw [hlinked, huid]
    exact h.uids_nodup
  · rw [hlen]
    exact hentry
  · rw [hlen, hlinked]
    exact hpending
  · rw [hlinked]
    exact hrest

theorem holders_setCall {i : ℕ} {old : Call} (hold : s.calls[i]? = some old) (call : Call) (id : ℕ) :
    (s.setCall i call).holders id + (if old.holds id then 1 else 0) =
      s.holders id + if call.holds id then 1 else 0 := by
  have hsum := handles_setCall hold call id
  have htable : (s.setCall i call).TableHolds id ↔ s.TableHolds id := Iff.rfl
  simp only [holders, htable]
  omega

/-- **A reference is taken.** -/
theorem take (h : HandleInv s) {i : ℕ} {lookup : Lookup} {uid : UInt32} {id : ℕ} {p : PermData}
    {ref : RefCount} (hold : s.calls[i]? = some (.take lookup uid id)) (hp : s.heap[id]? = some p)
    (hget : p.ref.getUnlessZero = some ref) :
    HandleInv ((s.setRef id ref).setCall i (.held lookup uid id)) := by
  have hid : id < s.heap.length := (List.getElem?_eq_some_iff.mp hp).1
  have hsum := fun id' => holders_setCall (s := s.setRef id ref) hold (.held lookup uid id) id'
  refine h.of_ref (f := fun _ => ref) rfl rfl ?_ ?_ ?_ h.pending h.rest
  · intro q hq
    obtain rfl : p = q := Option.some.inj (hp.symm.trans hq)
    have hself := hsum id
    simp only [Call.holds, Bool.false_eq_true, if_false, decide_true, if_true, Nat.add_zero] at hself
    rw [hself]
    exact (h.counted id p hp).get hget
  · intro id' hne
    have hself := hsum id'
    simp only [Call.holds, Bool.false_eq_true, if_false, Ne.symm hne, decide_false, Nat.add_zero] at hself
    exact hself
  · refine h.entry_lt_setCall i fun id' hid' => ?_
    obtain rfl : id = id' := Option.some.inj hid'
    exact hid

/-- **A handle is put.** -/
theorem putHandle (h : HandleInv s) {i : ℕ} {lookup : Lookup} {uid : UInt32} {id : ℕ}
    (hold : s.calls[i]? = some (.held lookup uid id)) :
    HandleInv ((s.putPermData id).setCall i .done) := by
  have hsum := fun id' => holders_setCall (s := s.putPermData id) hold .done id'
  refine h.of_ref (f := RefCount.put) rfl rfl ?_ ?_ ?_ h.pending h.rest
  · intro p hp
    have hself := hsum id
    simp only [Call.holds, Bool.false_eq_true, if_false, decide_true, if_true, Nat.add_zero] at hself
    have hheld : p.ref.Held (((s.putPermData id).setCall i .done).holders id + 1) :=
      hself ▸ h.counted id p hp
    exact hheld.put
  · intro id' hne
    have hself := hsum id'
    simp only [Call.holds, Bool.false_eq_true, if_false, Ne.symm hne, decide_false, Nat.add_zero] at hself
    exact hself
  · exact h.entry_lt_setCall i fun id' hid' => absurd hid' (by simp [Call.entry])

/-- What a look-up finds is linked, with the uid it looked for. -/
theorem findEntry_some {lookup : Lookup} {uid : UInt32} {id : ℕ}
    (hfind : s.findEntry (lookup.matches uid) = some id) : id ∈ s.linked ∧ s.uidAt id = some uid := by
  refine ⟨List.mem_of_find?_eq_some hfind, ?_⟩
  have htest := List.find?_some hfind
  cases hp : s.heap[id]? with
  | none => rw [hp] at htest; exact absurd htest (by simp)
  | some p =>
    rw [hp, Option.any_some] at htest
    have huid : p.profile.currUid = uid := by
      cases lookup with
      | app => simpa [Lookup.matches] using htest
      | root =>
        simp only [Lookup.matches, Bool.and_eq_true, decide_eq_true_eq] at htest
        exact htest.1
    rw [uidAt, profileAt, hp, Option.map_some, Option.map_some, huid]

theorem findEntry_none {uid : UInt32} (hfind : s.findEntry (Lookup.app.matches uid) = none) :
    some uid ∉ s.linked.map s.uidAt := by
  intro hmem
  obtain ⟨id, hid, huid⟩ := List.mem_map.mp hmem
  have htest := List.find?_eq_none.mp hfind id hid
  rw [uidAt, profileAt, Option.map_map, Option.map_eq_some_iff] at huid
  obtain ⟨p, hp, huid⟩ := huid
  rw [hp, Option.any_some] at htest
  exact htest (by simpa [Lookup.matches] using huid)

/-- **One step of a reader's call.** -/
theorem callStep (h : HandleInv s) {i : ℕ} {call : Call} (hold : s.calls[i]? = some call)
    {s' : HandleState} (hstep : s.callStep i call = some s') : HandleInv s' := by
  have hdone : ∀ id : ℕ, Call.entry .done = some id → id < s.heap.length :=
    fun id hid => absurd hid (by simp [Call.entry])
  have hdefault : ∀ id : ℕ, Call.entry .heldDefault = some id → id < s.heap.length :=
    fun id hid => absurd hid (by simp [Call.entry])
  have hfound : ∀ {lookup lookup' : Lookup} {uid : UInt32} {id : ℕ},
      s.findEntry (lookup.matches uid) = some id →
        ∀ id', Call.entry (.take lookup' uid id) = some id' → id' < s.heap.length := by
    intro lookup lookup' uid id hfind id' hid'
    obtain rfl : id = id' := Option.some.inj hid'
    exact h.linked_lt id (findEntry_some hfind).1
  cases call with
  | find lookup uid =>
    cases lookup with
    | app =>
      simp only [HandleState.callStep] at hstep
      split at hstep
      · obtain rfl := Option.some.inj hstep
        exact h.of_setCall hold (fun _ => rfl) (fun _ => rfl) hdone
      · next id hfind =>
        obtain rfl := Option.some.inj hstep
        exact h.of_setCall hold (fun _ => rfl) (fun _ => rfl) (hfound hfind)
    | root =>
      simp only [HandleState.callStep] at hstep
      split at hstep
      · obtain rfl := Option.some.inj hstep
        exact h.of_setCall hold (fun _ => rfl) (fun _ => rfl) hdefault
      · next id hfind =>
        split at hstep
        · exact absurd hstep (by simp)
        · split at hstep
          · obtain rfl := Option.some.inj hstep
            exact h.of_setCall hold (fun _ => rfl) (fun _ => rfl) hdefault
          · obtain rfl := Option.some.inj hstep
            exact h.of_setCall hold (fun _ => rfl) (fun _ => rfl) (hfound hfind)
  | take lookup uid id =>
    simp only [HandleState.callStep] at hstep
    split at hstep
    · exact absurd hstep (by simp)
    · next p hp =>
      split at hstep
      · obtain rfl := Option.some.inj hstep
        exact h.of_setCall hold (fun _ => rfl) (fun _ => rfl) fun id hid =>
          absurd hid (by simp [Call.entry])
      · next ref hget =>
        obtain rfl := Option.some.inj hstep
        exact h.take hold hp hget
  | held lookup uid id =>
    obtain rfl := Option.some.inj hstep
    exact h.putHandle hold
  | heldDefault =>
    obtain rfl := Option.some.inj hstep
    exact h.of_setCall hold (fun _ => rfl) (fun _ => rfl) hdone
  | done => exact absurd hstep (by simp [HandleState.callStep])

/-! ### The owner of the mutex -/

/-- **The table's reference is dropped.** -/
theorem putTable (h : HandleInv s) {old : ℕ} (hpending : s.pending = some old) {writer : Writer}
    (hnone : writer.pending = none)
    (hrest : writer.rest.Nodup ∧ ∀ id ∈ writer.rest, id ∈ s.linked) :
    HandleInv ((s.putPermData old).setWriter writer) := by
  have hold := h.pending old hpending
  have hpending' : ((s.putPermData old).setWriter writer).pending = none := hnone
  have htable : ∀ id, ((s.putPermData old).setWriter writer).TableHolds id ↔ id ∈ s.linked := by
    intro id
    rw [TableHolds, hpending']
    simp only [reduceCtorEq, or_false]
    exact Iff.rfl
  refine h.of_ref (f := RefCount.put) rfl rfl ?_ ?_ h.entry_lt ?_ hrest
  · intro p hp
    have hholders : s.holders old = ((s.putPermData old).setWriter writer).holders old + 1 := by
      have hheld : s.TableHolds old := .inr hpending
      simp only [holders, htable, hold.2, hheld, if_true, if_false]
      rfl
    have hheld : p.ref.Held (((s.putPermData old).setWriter writer).holders old + 1) :=
      hholders ▸ h.counted old p hp
    exact hheld.put
  · intro id hne
    have hiff : s.TableHolds id ↔ id ∈ s.linked := by
      rw [TableHolds, hpending]
      simp only [Option.some.injEq, Ne.symm hne, or_false]
    simp only [holders, htable, hiff]
    rfl
  · intro id hid
    rw [hpending'] at hid
    exact absurd hid (by simp)

/-- **An entry is unlinked.** -/
theorem unlink (h : HandleInv s) (hpending : s.pending = none) {np : ℕ} (hnp : np ∈ s.linked)
    {rest : List ℕ} (hrest : (np :: rest).Nodup) (hlinked : ∀ id ∈ rest, id ∈ s.linked)
    (isUidValid : UInt32 → List UInt8 → Bool) :
    HandleInv ({ s with
      linked := s.linked.erase np
      allowListCount := s.allowListCount - 1 }.setWriter (.prunePut np rest isUidValid)) := by
  have herase : ∀ id, id ∈ s.linked.erase np ↔ id ≠ np ∧ id ∈ s.linked := fun id =>
    h.linked_nodup.mem_erase_iff
  have hsub : List.Sublist (s.linked.erase np) s.linked := List.erase_sublist
  obtain ⟨hnotMem, hnodup⟩ := List.nodup_cons.mp hrest
  refine ⟨fun id p hp => ?_, fun id hid => h.linked_lt id (hsub.subset hid),
    h.uids_nodup.sublist (hsub.map _), h.entry_lt, ?_, hnodup, fun id hid => ?_⟩
  · have htable : HandleState.TableHolds ({ s with
        linked := s.linked.erase np
        allowListCount := s.allowListCount - 1 }.setWriter (.prunePut np rest isUidValid)) id ↔
          s.TableHolds id := by
      rw [TableHolds, TableHolds, hpending]
      change id ∈ s.linked.erase np ∨ some np = some id ↔ id ∈ s.linked ∨ none = some id
      rw [herase, Option.some_inj]
      constructor
      · rintro (⟨-, hid⟩ | rfl)
        · exact .inl hid
        · exact .inl hnp
      · rintro (hid | hid)
        · by_cases heq : id = np
          · exact .inr heq.symm
          · exact .inl ⟨heq, hid⟩
        · exact absurd hid (by simp)
    have hcount := h.counted id p hp
    simp only [holders, htable] at hcount ⊢
    exact hcount
  · intro id hid
    obtain rfl : np = id := Option.some.inj hid
    exact ⟨h.linked_lt np hnp, fun hmem => ((herase np).mp hmem).1 rfl⟩
  · refine (herase id).mpr ⟨?_, hlinked id hid⟩
    rintro rfl
    exact hnotMem hid

/-- No call points to an entry that is still to be allocated. -/
theorem handles_length (h : HandleInv s) : s.handles s.heap.length = 0 := by
  rw [handles, List.countP_eq_zero]
  intro call hcall hholds
  cases call with
  | held lookup uid id =>
    have hid : id = s.heap.length := by simpa [Call.holds] using hholds
    exact absurd (h.entry_lt _ hcall id rfl) (by omega)
  | find lookup uid => simp [Call.holds] at hholds
  | take lookup uid id => simp [Call.holds] at hholds
  | heldDefault => simp [Call.holds] at hholds
  | done => simp [Call.holds] at hholds

/-- A new entry is linked, perhaps in another one's place. -/
def link (s : HandleState) (profile : AppProfile) (linked : List ℕ) (count : UInt16) (writer : Writer) :
    HandleState :=
  { s with
    heap := s.heap ++ [PermData.mk RefCount.init profile]
    linked := linked
    allowListCount := count }.setWriter writer

theorem uidAt_link (s : HandleState) (profile : AppProfile) (linked : List ℕ) (count : UInt16)
    (writer : Writer) (id : ℕ) :
    (link s profile linked count writer).uidAt id =
      if id = s.heap.length then some profile.currUid else s.uidAt id := by
  change ((s.heap ++ [PermData.mk RefCount.init profile])[id]?.map PermData.profile).map currUid = _
  split
  · next heq =>
    subst heq
    simp
  · next hne =>
    rw [uidAt, profileAt]
    by_cases hid : id < s.heap.length
    · rw [List.getElem?_append_left hid]
    · rw [List.getElem?_eq_none (by rw [List.length_append, List.length_singleton]; omega),
        List.getElem?_eq_none (by omega)]

/-- **An entry is linked.**  It has the table's reference alone; the entry it replaced, if any, keeps its
count until the table's reference to it is dropped. -/
theorem of_link (h : HandleInv s) (hpending : s.pending = none) {profile : AppProfile}
    {linked : List ℕ} {count : UInt16} {writer : Writer} (hrest : writer.rest = [])
    (hlinked : ∀ id, id ∈ linked ↔ id = s.heap.length ∨ id ∈ s.linked ∧ writer.pending ≠ some id)
    (hwriter : ∀ id, writer.pending = some id → id ∈ s.linked)
    (huids : (linked.map (link s profile linked count writer).uidAt).Nodup) :
    HandleInv (link s profile linked count writer) := by
  have hlen : (link s profile linked count writer).heap.length = s.heap.length + 1 :=
    List.length_append
  have htable : ∀ id, (link s profile linked count writer).TableHolds id ↔
      id = s.heap.length ∨ s.TableHolds id := by
    intro id
    rw [TableHolds, TableHolds, hpending]
    change id ∈ linked ∨ writer.pending = some id ↔ _
    rw [hlinked]
    constructor
    · rintro ((hid | ⟨hid, -⟩) | hid)
      · exact .inl hid
      · exact .inr (.inl hid)
      · exact .inr (.inl (hwriter id hid))
    · rintro (hid | hid | hid)
      · exact .inl (.inl hid)
      · by_cases hold : writer.pending = some id
        · exact .inr hold
        · exact .inl (.inr ⟨hid, hold⟩)
      · exact absurd hid (by simp)
  refine ⟨fun id p hp => ?_, fun id hid => ?_, huids, fun call hcall id hid => ?_, fun id hid => ?_, ?_⟩
  · have hp' : (s.heap ++ [PermData.mk RefCount.init profile])[id]? = some p := hp
    rcases Nat.lt_trichotomy id s.heap.length with hlt | rfl | hgt
    · rw [List.getElem?_append_left hlt] at hp'
      have hcount := h.counted id p hp'
      simp only [holders, htable, Nat.ne_of_lt hlt, false_or] at hcount ⊢
      exact hcount
    · rw [List.getElem?_append_right le_rfl, Nat.sub_self] at hp'
      obtain rfl : PermData.mk RefCount.init profile = p := Option.some.inj hp'
      have hone : (link s profile linked count writer).holders s.heap.length = 1 := by
        simp only [holders, htable, true_or, if_true]
        rw [show (link s profile linked count writer).handles s.heap.length = 0 from h.handles_length]
      rw [hone]
      exact RefCount.Held.init
    · rw [List.getElem?_eq_none (by rw [List.length_append, List.length_singleton]; omega)] at hp'
      exact absurd hp' (by simp)
  · rw [hlen]
    rcases (hlinked id).mp hid with rfl | ⟨hid, -⟩
    · omega
    · exact Nat.lt_succ_of_lt (h.linked_lt id hid)
  · rw [hlen]
    exact Nat.lt_succ_of_lt (h.entry_lt call hcall id hid)
  · have hid' : writer.pending = some id := hid
    have hlt := h.linked_lt id (hwriter id hid')
    refine ⟨by rw [hlen]; omega, fun hmem => ?_⟩
    rcases (hlinked id).mp hmem with heq | ⟨-, hne⟩
    · omega
    · exact hne hid'
  · have hnil : (link s profile linked count writer).rest = [] := hrest
    rw [hnil]
    exact ⟨List.nodup_nil, fun id hid => absurd hid (by simp)⟩

/-- **The section that links.** -/
theorem setLink (h : HandleInv s) {profile : AppProfile} (hwriter : s.writer = some (.setLink profile))
    (allocSucceeds : Bool) : HandleInv (s.setLink profile allocSucceeds) := by
  have hpending : s.pending = none := by rw [HandleState.pending, hwriter]; rfl
  have hunlock : HandleInv (s.setWriter .unlock) :=
    h.of_writer hpending rfl ⟨List.nodup_nil, fun id hid => absurd hid (List.not_mem_nil)⟩
  rw [HandleState.setLink]
  cases hfind : s.findEntry (Lookup.app.matches profile.currUid) with
  | some p =>
    simp only
    split
    · obtain ⟨hp, huid⟩ := findEntry_some hfind
      have hne : ∀ id ∈ s.linked, id ≠ s.heap.length := fun id hid => Nat.ne_of_lt (h.linked_lt id hid)
      refine h.of_link hpending rfl ?_ ?_ ?_
      · intro id
        rw [List.mem_map]
        constructor
        · rintro ⟨old, hold, rfl⟩
          split
          · exact .inl rfl
          · next hold' => exact .inr ⟨hold, fun heq => hold' (Option.some.inj heq).symm⟩
        · rintro (rfl | ⟨hid, hid'⟩)
          · exact ⟨p, hp, if_pos rfl⟩
          · exact ⟨id, hid, if_neg fun heq => hid' (congrArg some heq.symm)⟩
      · intro id hid
        obtain rfl : p = id := Option.some.inj hid
        exact hp
      · -- the new entry stands where an entry with its uid stood
        have hsame : (s.linked.map fun id => if id = p then s.heap.length else id).map
            (link s profile (s.linked.map fun id => if id = p then s.heap.length else id)
              s.allowListCount (.setPut p)).uidAt = s.linked.map s.uidAt := by
          rw [List.map_map]
          apply List.map_congr_left
          intro id hid
          rw [Function.comp_apply, uidAt_link]
          by_cases heq : id = p
          · rw [if_pos heq, if_pos rfl, heq, huid]
          · rw [if_neg heq, if_neg (hne id hid)]
        rw [hsame]
        exact h.uids_nodup
    · exact hunlock
  | none =>
    simp only
    split
    · exact hunlock
    · split
      · refine h.of_link hpending rfl ?_ ?_ ?_
        · intro id
          rw [List.mem_cons]
          simp [Writer.pending]
        · intro id hid
          exact absurd hid (by simp [Writer.pending])
        · have hold : s.linked.map (link s profile (s.heap.length :: s.linked)
              (s.allowListCount + 1) .unlock).uidAt = s.linked.map s.uidAt := by
            apply List.map_congr_left
            intro id hid
            rw [uidAt_link, if_neg (Nat.ne_of_lt (h.linked_lt id hid))]
          rw [List.map_cons, hold, uidAt_link, if_pos rfl]
          exact List.nodup_cons.mpr ⟨findEntry_none hfind, h.uids_nodup⟩
      · exact hunlock

/-- **One step of the owner of the mutex.** -/
theorem writerStep (h : HandleInv s) {writer : Writer} (hwriter : s.writer = some writer)
    {allocSucceeds : Bool} {s' : HandleState} (hstep : s.writerStep allocSucceeds writer = some s') :
    HandleInv s' := by
  have hpending : s.pending = writer.pending := by rw [HandleState.pending, hwriter]; rfl
  have hrest : s.rest = writer.rest := by rw [HandleState.rest, hwriter]; rfl
  have hvisit := h.rest
  rw [hrest] at hvisit
  cases writer with
  | setLink profile =>
    obtain rfl := Option.some.inj hstep
    exact h.setLink hwriter allocSucceeds
  | setPut old =>
    obtain rfl := Option.some.inj hstep
    exact h.putTable hpending rfl ⟨List.nodup_nil, fun id hid => absurd hid List.not_mem_nil⟩
  | pruneWalk visit isUidValid =>
    cases visit with
    | nil =>
      obtain rfl := Option.some.inj hstep
      exact h.of_writer hpending rfl ⟨List.nodup_nil, fun id hid => absurd hid List.not_mem_nil⟩
    | cons np visit =>
      simp only [HandleState.writerStep] at hstep
      split at hstep
      · exact absurd hstep (by simp)
      · split at hstep
        · obtain rfl := Option.some.inj hstep
          exact h.of_writer hpending rfl
            ⟨(List.nodup_cons.mp hvisit.1).2, fun id hid => hvisit.2 id (List.mem_cons_of_mem _ hid)⟩
        · obtain rfl := Option.some.inj hstep
          exact h.unlink hpending (hvisit.2 np List.mem_cons_self) hvisit.1
            (fun id hid => hvisit.2 id (List.mem_cons_of_mem _ hid)) isUidValid
  | prunePut old visit isUidValid =>
    obtain rfl := Option.some.inj hstep
    exact h.putTable hpending rfl hvisit
  | unlock =>
    obtain rfl := Option.some.inj hstep
    exact h.of_writer hpending rfl ⟨List.nodup_nil, fun id hid => absurd hid List.not_mem_nil⟩

/-- A call that begins holds nothing. -/
theorem begin_call (h : HandleInv s) {call : Call} (hnone : ∀ id, call.holds id = false)
    (hentry : call.entry = none) : HandleInv { s with calls := s.calls ++ [call] } := by
  refine h.of_calls (fun id => ?_) fun c hc id hid => ?_
  · rw [List.countP_append, List.countP_singleton, hnone, if_neg Bool.false_ne_true, Nat.add_zero]
    rfl
  · rcases List.mem_append.mp hc with hc | hc
    · exact h.entry_lt c hc id hid
    · obtain rfl : c = call := by simpa using hc
      rw [hentry] at hid
      exact absurd hid (by simp)

/-- **One step of anyone.** -/
theorem step (h : HandleInv s) {a : HandleAction} {s' : HandleState} (hstep : handleStep s a = some s') :
    HandleInv s' := by
  cases a with
  | getAppProfile uid =>
    obtain rfl := Option.some.inj hstep
    exact h.begin_call (fun _ => rfl) rfl
  | getRootProfile managerAppid allowShell uid =>
    simp only [handleStep] at hstep
    split at hstep
    · obtain rfl := Option.some.inj hstep
      exact h.begin_call (fun _ => rfl) rfl
    · obtain rfl := Option.some.inj hstep
      exact h.begin_call (fun _ => rfl) rfl
  | call i =>
    obtain ⟨call, hcall, hstep⟩ := Option.bind_eq_some_iff.mp hstep
    exact h.callStep hcall hstep
  | setAppProfile profile =>
    simp only [handleStep] at hstep
    split at hstep
    · obtain rfl := Option.some.inj hstep
      exact h
    · split at hstep
      · exact absurd hstep (by simp)
      · next hidle =>
        obtain rfl := Option.some.inj hstep
        have hnone : s.pending = none := by
          rw [HandleState.pending, Option.not_isSome_iff_eq_none.mp hidle]
          rfl
        exact h.of_writer hnone rfl ⟨List.nodup_nil, fun id hid => absurd hid List.not_mem_nil⟩
  | pruneAllowlist isUidValid =>
    simp only [handleStep] at hstep
    split at hstep
    · exact absurd hstep (by simp)
    · next hidle =>
      obtain rfl := Option.some.inj hstep
      have hnone : s.pending = none := by
        rw [HandleState.pending, Option.not_isSome_iff_eq_none.mp hidle]
        rfl
      exact h.of_writer hnone rfl ⟨h.linked_nodup, fun id hid => hid⟩
  | writer allocSucceeds =>
    obtain ⟨writer, hwriter, hstep⟩ := Option.bind_eq_some_iff.mp hstep
    exact h.writerStep hwriter hstep

end HandleInv

/-! ### What a step leaves to the history -/

/-- The call has found this entry for this uid. -/
def Call.Found (call : Call) (lookup : Lookup) (uid : UInt32) (id : ℕ) : Prop :=
  call = .take lookup uid id ∨ call = .held lookup uid id

/-- Every profile is where it was. -/
def SameProfiles (s s' : HandleState) : Prop :=
  ∀ id profile, s.profileAt id = some profile → s'.profileAt id = some profile

/-- A call has found its entry before, or finds it linked now. -/
def FoundLinked (s s' : HandleState) : Prop :=
  ∀ (i : ℕ) (call : Call) (lookup : Lookup) (uid : UInt32) (id : ℕ),
    s'.calls[i]? = some call → call.Found lookup uid id →
      (∃ call' : Call, s.calls[i]? = some call' ∧ call'.Found lookup uid id) ∨
        (s.calls[i]? = some (.find lookup uid) ∧ id ∈ s.linked ∧ s.uidAt id = some uid)

theorem SameProfiles.refl (s : HandleState) : SameProfiles s s := fun _ _ h => h

theorem FoundLinked.of_calls {s s' : HandleState} (h : s'.calls = s.calls) : FoundLinked s s' :=
  fun _ call _ _ _ hcall hfound => .inl ⟨call, h ▸ hcall, hfound⟩

theorem sameProfiles_modify {s s' : HandleState} {id : ℕ} {f : RefCount → RefCount}
    (hheap : s'.heap = s.heap.modify id fun p => { p with ref := f p.ref }) : SameProfiles s s' := by
  intro id' profile h
  rw [profileAt, hheap, HandleInv.profileAt_modify]
  exact h

theorem sameProfiles_append {s s' : HandleState} {p : PermData} (hheap : s'.heap = s.heap ++ [p]) :
    SameProfiles s s' := by
  intro id profile h
  rw [profileAt] at h ⊢
  obtain ⟨q, hq, hprofile⟩ := Option.map_eq_some_iff.mp h
  have hid : id < s.heap.length := (List.getElem?_eq_some_iff.mp hq).1
  rw [hheap, List.getElem?_append_left hid, hq, Option.map_some, hprofile]

/-- A call's step finds its entry linked, or moves on with the one it had found. -/
theorem foundLinked_setCall {s s' : HandleState} {i : ℕ} {old call : Call}
    (hold : s.calls[i]? = some old) (hcalls : s'.calls = s.calls.set i call)
    (hfound : ∀ lookup uid id, call.Found lookup uid id → old.Found lookup uid id ∨
      (old = .find lookup uid ∧ id ∈ s.linked ∧ s.uidAt id = some uid)) : FoundLinked s s' := by
  intro j call' lookup uid id hcall' hfound'
  rw [hcalls] at hcall'
  by_cases hij : i = j
  · subst hij
    obtain ⟨hi, -⟩ := List.getElem?_eq_some_iff.mp hold
    rw [List.getElem?_set_self hi] at hcall'
    obtain rfl := Option.some.inj hcall'
    rcases hfound lookup uid id hfound' with hbefore | ⟨rfl, hlinked⟩
    · exact .inl ⟨old, hold, hbefore⟩
    · exact .inr ⟨hold, hlinked⟩
  · rw [List.getElem?_set_ne hij] at hcall'
    exact .inl ⟨call', hcall', hfound'⟩

theorem Call.Found.find {lookup : Lookup} {uid : UInt32} {lookup' : Lookup} {uid' : UInt32} {id : ℕ} :
    ¬Call.Found (.find lookup uid) lookup' uid' id := by
  rintro (h | h) <;> exact absurd h (by simp)

theorem Call.Found.heldDefault {lookup : Lookup} {uid : UInt32} {id : ℕ} :
    ¬Call.Found .heldDefault lookup uid id := by
  rintro (h | h) <;> exact absurd h (by simp)

theorem Call.Found.done {lookup : Lookup} {uid : UInt32} {id : ℕ} : ¬Call.Found .done lookup uid id := by
  rintro (h | h) <;> exact absurd h (by simp)

theorem callStep_history {s s' : HandleState} {i : ℕ} {call : Call} (hold : s.calls[i]? = some call)
    (hstep : s.callStep i call = some s') : SameProfiles s s' ∧ FoundLinked s s' := by
  have htake : ∀ {lookup : Lookup} {uid : UInt32} {id : ℕ}, call = .find lookup uid →
      s.findEntry (lookup.matches uid) = some id →
      FoundLinked s (s.setCall i (.take lookup uid id)) := by
    intro lookup uid id hcall hfind
    refine foundLinked_setCall hold rfl fun lookup' uid' id' hfound => .inr ?_
    rcases hfound with h | h
    · injection h with hlookup huid hid
      subst hlookup huid hid
      exact ⟨hcall, HandleInv.findEntry_some hfind⟩
    · exact absurd h (by simp)
  have hdone : ∀ {s' : HandleState}, s'.calls = s.calls.set i .done → FoundLinked s s' :=
    fun hcalls => foundLinked_setCall hold hcalls fun _ _ _ h => absurd h Call.Found.done
  have hdefault : FoundLinked s (s.setCall i .heldDefault) :=
    foundLinked_setCall hold rfl fun _ _ _ h => absurd h Call.Found.heldDefault
  cases call with
  | find lookup uid =>
    cases lookup with
    | app =>
      simp only [callStep] at hstep
      split at hstep
      · obtain rfl := Option.some.inj hstep
        exact ⟨.refl s, hdone rfl⟩
      · next id hfind =>
        obtain rfl := Option.some.inj hstep
        exact ⟨.refl s, htake rfl hfind⟩
    | root =>
      simp only [callStep] at hstep
      split at hstep
      · obtain rfl := Option.some.inj hstep
        exact ⟨.refl s, hdefault⟩
      · next id hfind =>
        split at hstep
        · exact absurd hstep (by simp)
        · split at hstep
          · obtain rfl := Option.some.inj hstep
            exact ⟨.refl s, hdefault⟩
          · obtain rfl := Option.some.inj hstep
            exact ⟨.refl s, htake rfl hfind⟩
  | take lookup uid id =>
    simp only [callStep] at hstep
    split at hstep
    · exact absurd hstep (by simp)
    · split at hstep
      · obtain rfl := Option.some.inj hstep
        exact ⟨.refl s, foundLinked_setCall hold rfl fun _ _ _ h => absurd h Call.Found.find⟩
      · next ref hget =>
        obtain rfl := Option.some.inj hstep
        refine ⟨sameProfiles_modify (f := fun _ => ref) rfl, foundLinked_setCall hold rfl ?_⟩
        rintro lookup' uid' id' (h | h)
        · exact absurd h (by simp)
        · injection h with hlookup huid hid
          subst hlookup huid hid
          exact .inl (.inl rfl)
  | held lookup uid id =>
    obtain rfl := Option.some.inj hstep
    exact ⟨sameProfiles_modify (f := RefCount.put) rfl, hdone rfl⟩
  | heldDefault =>
    obtain rfl := Option.some.inj hstep
    exact ⟨.refl s, hdone rfl⟩
  | done => exact absurd hstep (by simp [callStep])

theorem writerStep_history {s s' : HandleState} {allocSucceeds : Bool} {writer : Writer}
    (hstep : s.writerStep allocSucceeds writer = some s') : SameProfiles s s' ∧ FoundLinked s s' := by
  cases writer with
  | setLink profile =>
    obtain rfl := Option.some.inj hstep
    rw [setLink]
    cases s.findEntry (Lookup.app.matches profile.currUid) with
    | some p =>
      simp only
      split
      · exact ⟨sameProfiles_append rfl, .of_calls rfl⟩
      · exact ⟨.refl s, .of_calls rfl⟩
    | none =>
      simp only
      split
      · exact ⟨.refl s, .of_calls rfl⟩
      · split
        · exact ⟨sameProfiles_append rfl, .of_calls rfl⟩
        · exact ⟨.refl s, .of_calls rfl⟩
  | setPut old =>
    obtain rfl := Option.some.inj hstep
    exact ⟨sameProfiles_modify (f := RefCount.put) rfl, .of_calls rfl⟩
  | pruneWalk visit isUidValid =>
    cases visit with
    | nil =>
      obtain rfl := Option.some.inj hstep
      exact ⟨.refl s, .of_calls rfl⟩
    | cons np visit =>
      simp only [writerStep] at hstep
      split at hstep
      · exact absurd hstep (by simp)
      · split at hstep
        · obtain rfl := Option.some.inj hstep
          exact ⟨.refl s, .of_calls rfl⟩
        · obtain rfl := Option.some.inj hstep
          exact ⟨.refl s, .of_calls rfl⟩
  | prunePut old visit isUidValid =>
    obtain rfl := Option.some.inj hstep
    exact ⟨sameProfiles_modify (f := RefCount.put) rfl, .of_calls rfl⟩
  | unlock =>
    obtain rfl := Option.some.inj hstep
    exact ⟨.refl s, .of_calls rfl⟩

theorem begin_history (s : HandleState) {call : Call} (hcall : ∀ lookup uid id, ¬call.Found lookup uid id) :
    SameProfiles s { s with calls := s.calls ++ [call] } ∧
      FoundLinked s { s with calls := s.calls ++ [call] } := by
  refine ⟨.refl s, fun i call' lookup uid id hcall' hfound => .inl ?_⟩
  have hcalls : (s.calls ++ [call])[i]? = some call' := hcall'
  rcases Nat.lt_or_ge i s.calls.length with hi | hi
  · rw [List.getElem?_append_left hi] at hcalls
    exact ⟨call', hcalls, hfound⟩
  · rw [List.getElem?_append_right hi] at hcalls
    obtain rfl : call' = call := by
      simpa using List.mem_of_getElem? hcalls
    exact absurd hfound (hcall lookup uid id)

theorem handleStep_history {s s' : HandleState} {a : HandleAction} (hstep : handleStep s a = some s') :
    SameProfiles s s' ∧ FoundLinked s s' := by
  cases a with
  | getAppProfile uid =>
    obtain rfl := Option.some.inj hstep
    exact begin_history s fun _ _ _ => Call.Found.find
  | getRootProfile managerAppid allowShell uid =>
    simp only [handleStep] at hstep
    split at hstep
    · obtain rfl := Option.some.inj hstep
      exact begin_history s fun _ _ _ => Call.Found.heldDefault
    · obtain rfl := Option.some.inj hstep
      exact begin_history s fun _ _ _ => Call.Found.find
  | call i =>
    obtain ⟨call, hcall, hstep⟩ := Option.bind_eq_some_iff.mp hstep
    exact callStep_history hcall hstep
  | setAppProfile profile =>
    simp only [handleStep] at hstep
    split at hstep
    · obtain rfl := Option.some.inj hstep
      exact ⟨.refl s, .of_calls rfl⟩
    · split at hstep
      · exact absurd hstep (by simp)
      · obtain rfl := Option.some.inj hstep
        exact ⟨.refl s, .of_calls rfl⟩
  | pruneAllowlist isUidValid =>
    simp only [handleStep] at hstep
    split at hstep
    · exact absurd hstep (by simp)
    · obtain rfl := Option.some.inj hstep
      exact ⟨.refl s, .of_calls rfl⟩
  | writer allocSucceeds =>
    obtain ⟨writer, -, hstep⟩ := Option.bind_eq_some_iff.mp hstep
    exact writerStep_history hstep

/-! ### Whole runs -/

/-- What holds in a state that a run through the states of `trace` has reached. -/
structure HandlesValid (trace : List HandleState) (s : HandleState) : Prop where
  /-- A count is the outstanding handles, and one while the table's reference is held. -/
  counted : ∀ (id : ℕ) (p : PermData), s.heap[id]? = some p →
    p.ref.refs = s.handles id + if s.TableHolds id then 1 else 0
  /-- An entry was released once if the table's reference was dropped and no handle is left, and else
  never. -/
  released : ∀ (id : ℕ) (p : PermData), s.heap[id]? = some p →
    p.ref.released = if s.TableHolds id ∨ 0 < s.handles id then 0 else 1
  /-- A linked entry has the table's reference, and is the only one with its uid. -/
  linked : (∀ id ∈ s.linked, s.TableHolds id) ∧ (s.linked.map s.uidAt).Nodup
  /-- What a call returned was the linked profile of its uid in some state in which the call was at work. -/
  wasLinked : ∀ (i : ℕ) (lookup : Lookup) (uid : UInt32) (id : ℕ),
    s.calls[i]? = some (.held lookup uid id) →
      ∃ before ∈ trace, before.calls[i]? = some (.find lookup uid) ∧ id ∈ before.linked ∧
        before.uidAt id = some uid
  /-- The contents of an entry are what they were in every earlier state. -/
  contents : ∀ before ∈ trace, SameProfiles before s

/-- Every call has found its entry in a state of the run. -/
def AllFound (trace : List HandleState) (s : HandleState) : Prop :=
  ∀ (i : ℕ) (call : Call) (lookup : Lookup) (uid : UInt32) (id : ℕ),
    s.calls[i]? = some call → call.Found lookup uid id →
      ∃ before ∈ trace, before.calls[i]? = some (.find lookup uid) ∧ id ∈ before.linked ∧
        before.uidAt id = some uid

theorem reaches_handleInv {trace : List HandleState} {s : HandleState}
    (h : profileHandles.Reaches trace s) :
    HandleInv s ∧ AllFound trace s ∧ ∀ before ∈ trace, SameProfiles before s := by
  refine h.invariant (fun trace s => HandleInv s ∧ AllFound trace s ∧
    ∀ before ∈ trace, SameProfiles before s) ?_ ?_
  · refine ⟨.init, fun i call lookup uid id hcall => ?_, fun before hbefore => ?_⟩
    · exact absurd hcall (by simp [profileHandles, HandleState.init])
    · exact absurd hbefore List.not_mem_nil
  · intro trace s a s' label hinv hlabelled
    obtain ⟨hinv, hfound, hprofiles⟩ := hinv
    have hmap : (handleStep s a).map (fun s' => (s', s)) = some (s', label) := hlabelled
    obtain ⟨s'', hstep, heq⟩ := Option.map_eq_some_iff.mp hmap
    obtain ⟨rfl, rfl⟩ := Prod.mk.inj heq
    obtain ⟨hsame, hnew⟩ := handleStep_history hstep
    refine ⟨hinv.step hstep, fun i call lookup uid id hcall hcallFound => ?_, fun before hbefore => ?_⟩
    · rcases hnew i call lookup uid id hcall hcallFound with ⟨call', hcall', hfound'⟩ | hlinked
      · obtain ⟨before, hbefore, hlinked⟩ := hfound i call' lookup uid id hcall' hfound'
        exact ⟨before, List.mem_append_left _ hbefore, hlinked⟩
      · exact ⟨s, List.mem_append_right _ List.mem_cons_self, hlinked⟩
    · rcases List.mem_append.mp hbefore with hbefore | hbefore
      · exact fun id profile hprofile => hsame id profile (hprofiles before hbefore id profile hprofile)
      · obtain rfl := List.mem_singleton.mp hbefore
        exact hsame

/-- **Profile handles stay valid**, in every interleaving of readers and writers. -/
theorem handles_valid {trace : List HandleState} {s : HandleState}
    (h : profileHandles.Reaches trace s) : HandlesValid trace s := by
  obtain ⟨hinv, hfound, hprofiles⟩ := reaches_handleInv h
  refine ⟨fun id p hp => (hinv.counted id p hp).refs, fun id p hp => ?_,
    ⟨fun id hid => .inl hid, hinv.uids_nodup⟩,
    fun i lookup uid id hcall => hfound i _ lookup uid id hcall (.inr rfl), hprofiles⟩
  rw [(hinv.counted id p hp).released, holders]
  by_cases htable : s.TableHolds id
  · rw [if_pos htable, if_neg (by omega), if_pos (.inl htable)]
  · rw [if_neg htable]
    by_cases hhandles : 0 < s.handles id
    · rw [if_neg (by omega), if_pos (.inr hhandles)]
    · rw [if_pos (by omega), if_neg (by simp [htable, hhandles])]

/-- A reader holds the profile of uid 10200 while a writer replaces it, and its put releases it. -/
def replaceWhileHeld : List HandleAction :=
  [.setAppProfile (rootedProfile 97 10200), .writer true, .writer true, .getAppProfile 10200, .call 0,
    .call 0, .setAppProfile (rootedProfile 98 10200), .writer true, .writer true, .writer true]

theorem handles_valid_replaceWhileHeld : ∃ trace s,
    profileHandles.runFrom HandleState.init replaceWhileHeld = some (trace, s) ∧
      s.calls = [.held .app 10200 0] ∧ s.linked = [1] ∧ HandlesValid trace s := by
  obtain ⟨⟨trace, s⟩, hrun⟩ : ∃ r, profileHandles.runFrom HandleState.init replaceWhileHeld = some r :=
    Option.isSome_iff_exists.mp (by decide +kernel)
  have hstate : (profileHandles.runFrom HandleState.init replaceWhileHeld).map
      (fun r => (r.2.calls, r.2.linked)) = some ([.held .app 10200 0], [1]) := by decide +kernel
  rw [hrun, Option.map_some, Option.some_inj, Prod.mk.injEq] at hstate
  exact ⟨trace, s, hrun, hstate.1, hstate.2, handles_valid (.of_run hrun)⟩

end KernelSU.Policy
