import KernelSU.Feature.SelinuxHide

/-!
# What SELinux hiding takes back

Every state that the calls reach is a `view`: whether the feature runs, whether the open operation is patched and
what has been found.

* `selinuxHideFeatureSet_cases` — **PROVED**: what a call can do to a view;
* `hideMachine_view` — **PROVED**: the states that runs reach;
* `hide_restored_iff` — **PROVED**: the feature takes back what it patched on exactly the runs in which the open
  operation was not patched on load or an enabling attempt got past its lookups.
-/

namespace KernelSU.Feature

open KernelSU.Lib Errno

/-! ### Views -/

/-- The module in terms of what it has done: the feature runs, the open operation is patched, its slot has been
found, `setprocattr` has been patched before. -/
def view (stock : Stock) (running hooked slot seen enabled : Bool) : SelinuxHide where
  contextWrite := if running then .myWriteContext else .kernel stock.contextWrite
  accessWrite := if running then .myWriteAccess else .kernel stock.accessWrite
  selOpenHandleStatus := if hooked then .mySelOpenHandleStatus else .kernel stock.selOpenHandleStatus
  setprocattr := if running then .mySetprocattr else .kernel stock.setprocattr
  origContextWrite := if running then .kernel stock.contextWrite else .null
  origAccessWrite := if running then .kernel stock.accessWrite else .null
  origSelOpenHandleStatus := if hooked then .kernel stock.selOpenHandleStatus else .null
  selOpenHandleStatusSlot := slot
  hookEntry := running
  hookOriginal := if seen then .kernel stock.setprocattr else .null
  enabled := enabled
  running := running

/-- The two entries of `write_op` and the `setprocattr` slot hold the kernel's functions. -/
structure WritesRestored (stock : Stock) (s : SelinuxHide) : Prop where
  contextWrite : s.contextWrite = .kernel stock.contextWrite
  accessWrite : s.accessWrite = .kernel stock.accessWrite
  setprocattr : s.setprocattr = .kernel stock.setprocattr

section View

variable (stock : Stock) (hooked slot seen enabled : Bool)

theorem writesRestored_view : WritesRestored stock (view stock false hooked slot seen enabled) := ⟨rfl, rfl, rfl⟩

theorem hookSelinuxStatusOpen_view {hooked slot : Bool} (running b : Bool) (hslot : hooked = true → slot = true) :
    hookSelinuxStatusOpen b (view stock running hooked slot seen enabled)
      = view stock running (slot || b) (slot || b) seen enabled := by
  cases hooked with
  | true =>
    obtain rfl := hslot rfl
    rfl
  | false =>
    cases slot with
    | true => rfl
    | false =>
      cases b with
      | true => rfl
      | false => rfl

/-- Taking back what a failed attempt has patched. -/
theorem unhook_patchWriteOp {hooked slot : Bool} (hslot : hooked = true → slot = true) :
    ksuSelinuxHideUnhook (patchWriteOp (view stock false hooked slot seen enabled))
      = view stock false false slot seen enabled := by
  cases hooked with
  | true =>
    obtain rfl := hslot rfl
    rfl
  | false =>
    cases slot with
    | true => rfl
    | false => rfl

/-- Taking back everything. -/
theorem unhook_view {hooked slot : Bool} (hslot : hooked = true → slot = true) :
    ksuSelinuxHideUnhook (view stock true hooked slot true enabled)
      = { view stock false false slot true enabled with running := true } := by
  cases hooked with
  | true =>
    obtain rfl := hslot rfl
    rfl
  | false =>
    cases slot with
    | true => rfl
    | false => rfl

/-- The hook is refused and nothing changes, or the slot is patched. -/
theorem ksuLsmHook_patchWriteOp (found : Found) :
    (∃ e, ksuLsmHook found (patchWriteOp (view stock false hooked slot seen enabled))
        = (some e, patchWriteOp (view stock false hooked slot seen enabled))) ∨
      ksuLsmHook found (patchWriteOp (view stock false hooked slot seen enabled))
        = (none, { view stock true hooked slot true enabled with running := false }) := by
  simp only [ksuLsmHook]
  split_ifs
  all_goals first
    | exact Or.inl ⟨_, rfl⟩
    | exact Or.inr rfl

end View

/-! ### One call -/

/-- A call that gets past the lookups of `ksu_selinux_hide_enable`, if it comes to them. -/
def SetCall.passes (call : SetCall) : Bool := call.value != 0 && call.found.backupSepolicy && call.found.writeOp

section Call

variable (stock : Stock) {hooked slot : Bool} (seen enabled : Bool)

theorem ksuSelinuxHideEnable_cases (found : Found) (hslot : hooked = true → slot = true) :
    (¬(found.backupSepolicy ∧ found.writeOp) ∧ ∃ e, ksuSelinuxHideEnable found (view stock false hooked slot seen enabled)
        = (some e, view stock false hooked slot seen enabled)) ∨
      ((found.backupSepolicy ∧ found.writeOp) ∧ ∃ e slot',
        ksuSelinuxHideEnable found (view stock false hooked slot seen enabled)
          = (some e, view stock false false slot' seen enabled)) ∨
      ((found.backupSepolicy ∧ found.writeOp) ∧ ∃ slot',
        ksuSelinuxHideEnable found (view stock false hooked slot seen enabled)
          = (none, { view stock true slot' slot' true enabled with running := false })) := by
  rw [ksuSelinuxHideEnable]
  split
  · next h => exact Or.inl ⟨fun hp => by simp [hp.1] at h, _, rfl⟩
  · next hbackup =>
    split
    · next h => exact Or.inl ⟨fun hp => by simp [hp.2] at h, _, rfl⟩
    · next hwrite =>
      have hp : found.backupSepolicy = true ∧ found.writeOp = true := ⟨by simpa using hbackup, by simpa using hwrite⟩
      rw [hookSelinuxStatusOpen_view stock seen enabled false found.selHandleStatusOps hslot]
      rcases ksuLsmHook_patchWriteOp stock (slot || found.selHandleStatusOps) (slot || found.selHandleStatusOps) seen
        enabled found with ⟨e, hhook⟩ | hhook
      · refine Or.inr (Or.inl ⟨hp, ENOSYS, slot || found.selHandleStatusOps, ?_⟩)
        rw [hhook]
        dsimp only
        rw [unhook_patchWriteOp stock seen enabled id]
        rfl
      · refine Or.inr (Or.inr ⟨hp, slot || found.selHandleStatusOps, ?_⟩)
        rw [hhook]
        rfl

/-- **One call.**  A view becomes a view; only a passing call makes the feature run, and only a call that neither
passes nor stops it leaves the open operation patched behind. -/
theorem selinuxHideFeatureSet_view (call : SetCall) {running seen : Bool} (hslot : hooked = true → slot = true)
    (hseen : running = true → seen = true) :
    ∃ ret running' hooked' slot' seen' enabled',
      selinuxHideFeatureSet call.found call.value (view stock running hooked slot seen enabled)
        = (ret, view stock running' hooked' slot' seen' enabled') ∧
      (hooked' = true → slot' = true) ∧ (running' = true → seen' = true) ∧
      (ret.isSome ∨ call.value = 0 → running' = false) ∧
      (running' = true → running = true ∨ call.passes) ∧
      (running' = false → (hooked' = true ↔ running = false ∧ hooked = true ∧ ¬call.passes)) := by
  rw [selinuxHideFeatureSet]
  by_cases hvalue : call.value = 0
  · have hpasses : call.passes = false := by simp [SetCall.passes, hvalue]
    rw [if_neg (not_not.mpr hvalue)]
    cases running with
    | true =>
      obtain rfl := hseen rfl
      have hunhook := unhook_view stock (decide (call.value ≠ 0)) hslot
      refine ⟨none, false, false, slot, true, decide (call.value ≠ 0), ?_, ?_⟩
      · show (none, { ksuSelinuxHideUnhook (view stock true hooked slot true (decide (call.value ≠ 0))) with
          running := false }) = _
        rw [hunhook]
        rfl
      · simp
    | false =>
      refine ⟨none, false, hooked, slot, seen, decide (call.value ≠ 0), rfl, ?_⟩
      simpa [hpasses] using hslot
  · rw [if_pos hvalue]
    cases running with
    | true =>
      obtain rfl := hseen rfl
      refine ⟨none, true, hooked, slot, true, decide (call.value ≠ 0), rfl, ?_⟩
      simpa [hvalue] using hslot
    | false =>
      have hview : ({ view stock false hooked slot seen enabled with enabled := decide (call.value ≠ 0) } : SelinuxHide)
          = view stock false hooked slot seen (decide (call.value ≠ 0)) := rfl
      have hpasses : call.passes = true ↔ call.found.backupSepolicy ∧ call.found.writeOp := by
        simp [SetCall.passes, hvalue]
      rw [hview]
      rcases ksuSelinuxHideEnable_cases stock seen (decide (call.value ≠ 0)) call.found hslot with
        ⟨hnot, e, henable⟩ | ⟨hp, e, slot', henable⟩ | ⟨hp, slot', henable⟩
      · refine ⟨some e, false, hooked, slot, seen, decide (call.value ≠ 0), ?_, ?_⟩
        · rw [henable]
          rfl
        · have hfails : call.passes = false := by simpa using fun h => hnot (hpasses.mp h)
          simpa [hfails] using hslot
      · refine ⟨some e, false, false, slot', seen, decide (call.value ≠ 0), ?_, ?_⟩
        · rw [henable]
          rfl
        · simp [hpasses.mpr hp]
      · refine ⟨none, true, slot', slot', true, decide (call.value ≠ 0), ?_, ?_⟩
        · rw [henable]
          rfl
        · simp [hpasses.mpr hp, hvalue]

end Call

/-! ### Runs -/

/-- Some call of the run passed. -/
def passed (trace : List (SetCall × Option Errno)) : Bool := trace.any fun e => e.1.passes

/-- The module after a run: a view that runs only after a passing call, and that while it does not run keeps the
open operation patched exactly if it was patched on load and no call passed. -/
def Viewed (stock : Stock) (b : Bool) (trace : List (SetCall × Option Errno)) (s : SelinuxHide) : Prop :=
  ∃ running hooked slot seen enabled, s = view stock running hooked slot seen enabled ∧
    (hooked = true → slot = true) ∧ (running = true → seen = true) ∧ (running = true → passed trace = true) ∧
    (running = false → (hooked = true ↔ b = true ∧ passed trace = false)) ∧
    (∀ e, trace.getLast? = some e → e.2.isSome ∨ e.1.value = 0 → running = false)

section Runs

variable {stock : Stock} {b : Bool} {trace : List (SetCall × Option Errno)} {s : SelinuxHide}

theorem viewed_init : Viewed stock b [] (hideMachine stock b).init := by
  have hslot : false = true → false = true := id
  have hinit : (hideMachine stock b).init = view stock false b b false false := by
    exact (hookSelinuxStatusOpen_view stock false false false b hslot).trans (by rw [Bool.false_or])
  refine ⟨false, b, b, false, false, hinit, id, id, ?_, ?_, ?_⟩
  · intro h
    cases h
  · simp [passed]
  · intro e he
    cases he

/-- Each call keeps the views. -/
theorem Viewed.call (h : Viewed stock b trace s) (call : SetCall) :
    Viewed stock b (trace ++ [(call, (selinuxHideFeatureSet call.found call.value s).1)])
      (selinuxHideFeatureSet call.found call.value s).2 := by
  obtain ⟨running, hooked, slot, seen, enabled, rfl, hslot, hseen, hpassed, hhooked, -⟩ := h
  obtain ⟨ret, running', hooked', slot', seen', enabled', hset, hslot', hseen', hret, hruns, hkept⟩ :=
    selinuxHideFeatureSet_view stock enabled call hslot hseen
  rw [hset]
  have hpassed' : passed (trace ++ [(call, ret)]) = (passed trace || call.passes) := by
    simp [passed, List.any_append]
  refine ⟨running', hooked', slot', seen', enabled', rfl, hslot', hseen', ?_, ?_, ?_⟩
  · intro hrunning
    rw [hpassed', Bool.or_eq_true]
    exact (hruns hrunning).imp hpassed id
  · intro hstopped
    rw [hpassed', hkept hstopped, Bool.or_eq_false_iff]
    cases running with
    | true => simp [hpassed rfl]
    | false => simp [hhooked rfl, and_assoc]
  · rintro e he hlast
    rw [List.getLast?_concat, Option.some.injEq] at he
    subst he
    exact hret hlast

/-- **What runs reach.** -/
theorem hideMachine_view (h : (hideMachine stock b).Reaches trace s) : Viewed stock b trace s := by
  refine h.invariant (Viewed stock b) viewed_init ?_
  rintro trace s call s' e hs hstep
  obtain ⟨rfl, rfl⟩ := Prod.mk.inj (Option.some.inj hstep)
  exact hs.call call

end Runs

/-- All four slots hold the kernel's functions. -/
structure Restored (stock : Stock) (s : SelinuxHide) : Prop extends WritesRestored stock s where
  selOpenHandleStatus : s.selOpenHandleStatus = .kernel stock.selOpenHandleStatus

/-- Leaving the module takes everything back if the feature runs, and otherwise nothing. -/
theorem exit_view (stock : Stock) {running hooked slot seen : Bool} (enabled : Bool) (hslot : hooked = true → slot = true)
    (hseen : running = true → seen = true) :
    Restored stock (ksuSelinuxHideExit (view stock running hooked slot seen enabled))
      ↔ running = true ∨ hooked = false := by
  cases running with
  | true =>
    obtain rfl := hseen rfl
    have hexit : ksuSelinuxHideExit (view stock true hooked slot true enabled)
        = { ksuSelinuxHideUnhook (view stock true hooked slot true enabled) with running := false } := rfl
    rw [hexit, unhook_view stock enabled hslot]
    exact ⟨fun _ => Or.inl rfl, fun _ => ⟨⟨rfl, rfl, rfl⟩, rfl⟩⟩
  | false =>
    have hexit : ksuSelinuxHideExit (view stock false hooked slot seen enabled)
        = view stock false hooked slot seen enabled := rfl
    rw [hexit]
    constructor
    · rintro ⟨-, hopen⟩
      cases hooked with
      | true => simp [view] at hopen
      | false => exact Or.inr rfl
    · rintro (h | rfl)
      · cases h
      · exact ⟨⟨rfl, rfl, rfl⟩, rfl⟩

/-- **When hiding takes back what it patched.**  Wherever a run of calls arrives, a last call that failed or disabled
has left the write entries and the `setprocattr` slot as they were, and leaving the module leaves all four slots as
they were, on exactly the runs in which the open operation was not patched on load or some enabling call found the
backup policy and `write_op`. -/
theorem hide_restored_iff (stock : Stock) (b : Bool) {trace : List (SetCall × Option Errno)} {s : SelinuxHide}
    (h : (hideMachine stock b).Reaches trace s) :
    ((∀ e, trace.getLast? = some e → e.2.isSome ∨ e.1.value = 0 → WritesRestored stock s)
      ∧ Restored stock (ksuSelinuxHideExit s))
      ↔ b = false ∨ ∃ e ∈ trace, e.1.value ≠ 0 ∧ e.1.found.backupSepolicy ∧ e.1.found.writeOp := by
  obtain ⟨running, hooked, slot, seen, enabled, rfl, hslot, hseen, hpassed, hhooked, hlast⟩ := hideMachine_view h
  have hcond : (∃ e ∈ trace, e.1.value ≠ 0 ∧ e.1.found.backupSepolicy ∧ e.1.found.writeOp) ↔ passed trace = true := by
    simp [passed, SetCall.passes, and_assoc]
  have hwrites : ∀ e, trace.getLast? = some e → e.2.isSome ∨ e.1.value = 0 →
      WritesRestored stock (view stock running hooked slot seen enabled) := by
    rintro e he hcall
    obtain rfl := hlast e he hcall
    exact writesRestored_view stock hooked slot seen enabled
  rw [hcond, exit_view stock enabled hslot hseen, and_iff_right hwrites]
  cases running with
  | true => simp [hpassed rfl]
  | false =>
    have hkept : hooked = false ↔ b = false ∨ passed trace = true := by
      rw [← Bool.not_eq_true, hhooked rfl, not_and_or, Bool.not_eq_true, Bool.not_eq_false]
    simp [hkept]

/-- What a kernel with all symbols offers. -/
def foundAll (setprocattr : ℕ) : Found where
  backupSepolicy := true
  writeOp := true
  selHandleStatusOps := true
  selinuxSetprocattr := .kernel setprocattr
  securityHooks := true
  trackingRoom := true

/-- The feature is turned on once. -/
theorem hide_restored_enabled :
    Restored ⟨1, 2, 3, 4⟩ (ksuSelinuxHideExit (view ⟨1, 2, 3, 4⟩ true true true true true)) := by
  have hrun : (hideMachine ⟨1, 2, 3, 4⟩ true).runFrom (hideMachine ⟨1, 2, 3, 4⟩ true).init [⟨1, foundAll 4⟩]
      = some ([(⟨1, foundAll 4⟩, none)], view ⟨1, 2, 3, 4⟩ true true true true true) := by decide
  exact ((hide_restored_iff ⟨1, 2, 3, 4⟩ true (.of_run hrun)).mpr
    (Or.inr ⟨_, List.mem_cons_self, by decide, by decide, by decide⟩)).2

/-- The module is loaded and left without a call: the open operation stays patched. -/
theorem hide_left_patched : (hideMachine ⟨1, 2, 3, 4⟩ true).Reaches [] (hideMachine ⟨1, 2, 3, 4⟩ true).init ∧
    ¬Restored ⟨1, 2, 3, 4⟩ (ksuSelinuxHideExit (hideMachine ⟨1, 2, 3, 4⟩ true).init) := by
  refine ⟨.init, ?_⟩
  rintro ⟨-, hopen⟩
  exact absurd hopen (by decide)

end KernelSU.Feature
