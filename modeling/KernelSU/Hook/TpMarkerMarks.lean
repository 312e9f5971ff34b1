import KernelSU.Hook.TpMarker

/-!
# Marks while others use the tracepoint

A thread that holds `tracepoint_reg_lock` knows the registration count.  Every function but the two that
a `KSU_MARK_UNMARK` request ends in clears a flag under the lock and with a count of at most one; the
request clears flags without asking.

* `tpOutline` — the outline: what a thread knows of the count, and what each access asks for;
* `code_outlined` — **PROVED**: every function keeps to it;
* `tpMarks_kept_iff` — **PROVED**: in every run, no flag is cleared while others use the tracepoint iff no
  request to unmark clears one then;
* `tpMarks_cleared` — **PROVED**: there is such a request.
-/

namespace KernelSU.Hook

open KernelSU.Lib Threads Prog

/-! ### What a thread knows -/

/-- With the lock a thread knows the count; without it, that it does not hold the lock. -/
def KnowsCount (n : ℕ) : Option ℤ → TpState → Prop
  | none, s => s.regLock ≠ some n
  | some c, s => s.regLock = some n ∧ s.regCount = c

/-- Where a flag may be cleared: with the lock if nobody else uses the tracepoint, without it only by a
request to unmark. -/
structure MayClear (o : Entry) (k : Option ℤ) : Prop where
  locked : ∀ c, k = some c → c ≤ 1
  unlocked : k = none → o.isUnmark = true

/-- What an access asks for, and what it gives. -/
def tpPost (o : Entry) (k : Option ℤ) : (i : Action) → (i.Ret → Option ℤ → Prop) → Prop
  | .lock, R => k = none ∧ ∀ c, R () (some c)
  | .unlock, R => k ≠ none ∧ R () none
  | .regCount, R => ∀ c, (∀ c', k = some c' → c = c') → R c k
  | .incRegCount, R => ∃ c, k = some c ∧ R () (some (c + 1))
  | .decRegCount, R => ∃ c, k = some c ∧ R () (some (c - 1))
  | .clearFlag _, R => MayClear o k ∧ R () k
  | .setFlag _, R => R () k
  | .readLockTasklist, R => ∀ r, R r k
  | .readUnlockTasklist, R => R () k
  | .readTask _, R => ∀ r, R r k
  | .isAllowUid _, R => ∀ r, R r k
  | .findTaskByVpid _, R => ∀ r, R r k
  | .testFlag _, R => ∀ r, R r k

theorem tpPost_mono (o : Entry) : Monotone (tpPost o) := by
  intro k i R R' h
  cases i with
  | lock => exact fun hR => ⟨hR.1, fun c => h _ _ (hR.2 c)⟩
  | unlock => exact fun hR => ⟨hR.1, h _ _ hR.2⟩
  | regCount => exact fun hR c hc => h _ _ (hR c hc)
  | incRegCount | decRegCount =>
    intro hR
    obtain ⟨c, hk, hR⟩ := hR
    exact ⟨c, hk, h _ _ hR⟩
  | clearFlag t => exact fun hR => ⟨hR.1, h _ _ hR.2⟩
  | setFlag t => exact fun hR => h _ _ hR
  | readUnlockTasklist => exact fun hR => h _ _ hR
  | readLockTasklist => exact fun hR r => h _ _ (hR r)
  | readTask t => exact fun hR r => h _ _ (hR r)
  | isAllowUid uid => exact fun hR r => h _ _ (hR r)
  | findTaskByVpid pid => exact fun hR r => h _ _ (hR r)
  | testFlag t => exact fun hR r => h _ _ (hR r)

theorem KnowsCount.congr {n : ℕ} {k : Option ℤ} {s s' : TpState} (h : KnowsCount n k s)
    (hlock : s'.regLock = s.regLock) (hcount : s'.regCount = s.regCount) : KnowsCount n k s' := by
  cases k with
  | none => exact fun hn => h (hlock ▸ hn)
  | some c => exact ⟨hlock.trans h.1, hcount.trans h.2⟩

/-- Only one thread holds the lock. -/
theorem KnowsCount.unique {m n : ℕ} {c : ℤ} {k : Option ℤ} {s : TpState} (hmn : m ≠ n)
    (hm : KnowsCount m (some c) s) (hn : KnowsCount n k s) : k = none := by
  cases k with
  | none => rfl
  | some c' => exact absurd (Option.some.inj (hm.1.symm.trans hn.1)) hmn

/-- An access that neither takes nor gives back the lock, nor counts, leaves both alone. -/
theorem exec_regs {n : ℕ} {i : Action} {s s' : TpState} {r : i.Ret} (h : TpState.exec n i s = some (r, s'))
    (hlock : i ≠ .lock) (hunlock : i ≠ .unlock) (hinc : i ≠ .incRegCount) (hdec : i ≠ .decRegCount) :
    s'.regLock = s.regLock ∧ s'.regCount = s.regCount := by
  cases i <;> first
    | contradiction
    | (obtain ⟨-, rfl⟩ := Prod.mk.inj (Option.some.inj h)
       exact ⟨rfl, rfl⟩)

theorem exec_lock {n : ℕ} {s s' : TpState} {r : Unit} (h : TpState.exec n .lock s = some (r, s')) :
    s.regLock = none ∧ s' = { s with regLock := some n } := by
  simp only [TpState.exec] at h
  split at h
  · obtain ⟨-, rfl⟩ := Prod.mk.inj (Option.some.inj h)
    exact ⟨by assumption, rfl⟩
  · cases h

theorem knowsCount_own {n : ℕ} {k : Option ℤ} {o : Entry} {i : Action} {R : i.Ret → Option ℤ → Prop}
    {s s' : TpState} {r : i.Ret} (hk : KnowsCount n k s) (hpost : tpPost o k i R)
    (hexec : TpState.exec n i s = some (r, s')) : ∃ k', KnowsCount n k' s' ∧ R r k' := by
  cases i with
  | lock =>
    obtain ⟨-, rfl⟩ := exec_lock hexec
    exact ⟨some s.regCount, ⟨rfl, rfl⟩, hpost.2 _⟩
  | unlock =>
    obtain ⟨-, rfl⟩ := Prod.mk.inj (Option.some.inj hexec)
    have hfree : KnowsCount n none { s with regLock := none } := Option.some_ne_none n ∘ Eq.symm
    exact ⟨none, hfree, hpost.2⟩
  | regCount =>
    obtain ⟨rfl, rfl⟩ := Prod.mk.inj (Option.some.inj hexec)
    refine ⟨k, hk, hpost _ ?_⟩
    rintro c rfl
    exact hk.2
  | incRegCount =>
    obtain ⟨-, rfl⟩ := Prod.mk.inj (Option.some.inj hexec)
    obtain ⟨c, rfl, hR⟩ := hpost
    exact ⟨some (c + 1), ⟨hk.1, congrArg (· + 1) hk.2⟩, hR⟩
  | decRegCount =>
    obtain ⟨-, rfl⟩ := Prod.mk.inj (Option.some.inj hexec)
    obtain ⟨c, rfl, hR⟩ := hpost
    exact ⟨some (c - 1), ⟨hk.1, congrArg (· - 1) hk.2⟩, hR⟩
  | clearFlag t =>
    obtain ⟨-, rfl⟩ := Prod.mk.inj (Option.some.inj hexec)
    exact ⟨k, hk.congr rfl rfl, hpost.2⟩
  | setFlag t =>
    obtain ⟨-, rfl⟩ := Prod.mk.inj (Option.some.inj hexec)
    exact ⟨k, hk.congr rfl rfl, hpost⟩
  | readUnlockTasklist =>
    obtain ⟨-, rfl⟩ := Prod.mk.inj (Option.some.inj hexec)
    exact ⟨k, hk.congr rfl rfl, hpost⟩
  | readLockTasklist | readTask t | isAllowUid uid | findTaskByVpid pid | testFlag t =>
    obtain ⟨-, rfl⟩ := Prod.mk.inj (Option.some.inj hexec)
    exact ⟨k, hk.congr rfl rfl, hpost _⟩

theorem knowsCount_others {m n : ℕ} {km kn : Option ℤ} {o : Entry} {i : Action}
    {R : i.Ret → Option ℤ → Prop} {s s' : TpState} {r : i.Ret} (hmn : m ≠ n) (hn : KnowsCount n kn s)
    (hm : KnowsCount m km s) (hpost : tpPost o km i R) (hexec : TpState.exec m i s = some (r, s')) :
    KnowsCount n kn s' := by
  by_cases hregs : i = .lock ∨ i = .unlock ∨ i = .incRegCount ∨ i = .decRegCount
  · rcases hregs with rfl | rfl | rfl | rfl
    · -- the lock was free, so `n` knows only that it does not hold it
      obtain ⟨hfree, rfl⟩ := exec_lock hexec
      cases kn with
      | none => exact fun h => hmn (Option.some.inj h)
      | some c => exact absurd (hfree.symm.trans hn.1) (Option.some_ne_none n).symm
    · obtain ⟨-, rfl⟩ := Prod.mk.inj (Option.some.inj hexec)
      obtain ⟨c, rfl⟩ := Option.ne_none_iff_exists'.mp hpost.1
      obtain rfl := KnowsCount.unique hmn hm hn
      exact fun h => Option.some_ne_none n h.symm
    · obtain ⟨-, rfl⟩ := Prod.mk.inj (Option.some.inj hexec)
      obtain ⟨c, rfl, -⟩ := hpost
      obtain rfl := KnowsCount.unique hmn hm hn
      exact hn
    · obtain ⟨-, rfl⟩ := Prod.mk.inj (Option.some.inj hexec)
      obtain ⟨c, rfl, -⟩ := hpost
      obtain rfl := KnowsCount.unique hmn hm hn
      exact hn
  · simp only [not_or] at hregs
    obtain ⟨hlock, hunlock, hinc, hdec⟩ := hregs
    obtain ⟨hl, hc⟩ := exec_regs hexec hlock hunlock hinc hdec
    exact hn.congr hl hc

/-- **The outline.** -/
def tpOutline : Outline tpMarker (Option ℤ) where
  start := none
  knows := KnowsCount
  post := tpPost
  own := knowsCount_own
  others := knowsCount_others
  env hk henv := hk.congr henv.regLock henv.regCount

/-! ### The functions keep to it -/

section Functions

variable {o : Entry} {k : Option ℤ}

theorem wp_access (i : Action) (Q : i.Ret → Option ℤ → Prop) :
    (access i).wp (tpPost o) Q k ↔ tpPost o k i Q := Iff.rfl

theorem wp_handleProcessMark {mark : Bool} {Q : Unit → Option ℤ → Prop}
    (hclear : mark = false → MayClear o k) (hQ : Q () k) : (handleProcessMark mark).wp (tpPost o) Q k := by
  unfold handleProcessMark
  rw [bind_eq, wp_bind, wp_access]
  intro tasks
  rw [bind_eq, wp_bind]
  have hwalk := wp_forM (tpPost_mono o) (· = k)
    (fun t => if mark then access (.setFlag t) else access (.clearFlag t)) tasks
    (by
      rintro t - k' rfl
      cases mark with
      | true => exact rfl
      | false => exact ⟨hclear rfl, rfl⟩) k rfl
  refine wp_mono (tpPost_mono o) ?_ _ k hwalk
  rintro - k' rfl
  exact hQ

theorem wp_markRunningTask (hclear : MayClear o k) (t : ℕ) :
    (markRunningTask t).wp (tpPost o) (fun _ => (· = k)) k := by
  unfold markRunningTask
  rw [bind_eq, wp_bind, wp_access]
  intro r
  cases r with
  | none => exact rfl
  | some task =>
    show ((if task.pid ≠ 1 ∧ task.mm = false then pure () else _ : TpProg Unit)).wp _ _ _
    split
    · exact rfl
    · rw [bind_eq, wp_bind, wp_access]
      intro allowed
      split
      · exact rfl
      · exact ⟨hclear, rfl⟩

theorem wp_ksuMarkRunningProcessLocked {Q : Unit → Option ℤ → Prop} (hclear : MayClear o k) (hQ : Q () k) :
    ksuMarkRunningProcessLocked.wp (tpPost o) Q k := by
  unfold ksuMarkRunningProcessLocked
  rw [bind_eq, wp_bind, wp_access]
  intro tasks
  rw [bind_eq, wp_bind]
  have hwalk := wp_forM (tpPost_mono o) (· = k) markRunningTask tasks
    (by
      rintro t - k' rfl
      exact wp_markRunningTask hclear t) k rfl
  refine wp_mono (tpPost_mono o) ?_ _ k hwalk
  rintro - k' rfl
  exact hQ

theorem mayClear_none (h : o.isUnmark = true) : MayClear o none where
  locked _ hc := absurd hc.symm (Option.some_ne_none _)
  unlocked _ := h

/-- With the lock and a count of at most one. -/
theorem mayClear_some {c : ℤ} (h : c ≤ 1) : MayClear o (some c) where
  locked := by
    rintro c' ⟨⟩
    exact h
  unlocked h := absurd h (Option.some_ne_none c)

/-- A section under the lock: whatever count it finds, it leaves with the lock and some count. -/
theorem wp_withRegLock {Q : Unit → Option ℤ → Prop} {body : TpProg Unit}
    (hbody : ∀ c, body.wp (tpPost o) (fun _ k => k ≠ none) (some c)) (hQ : Q () none) :
    (withRegLock body).wp (tpPost o) Q none := by
  unfold withRegLock
  rw [bind_eq, wp_bind, wp_access]
  refine ⟨rfl, fun c => ?_⟩
  show (body.bind fun _ => access .unlock).wp (tpPost o) Q (some c)
  rw [wp_bind]
  exact wp_mono (tpPost_mono o) (fun _ _ hk => ⟨hk, hQ⟩) body (some c) (hbody c)

/-- Under the lock, reading the count gives the count. -/
theorem wp_regCount {c : ℤ} {f : ℤ → TpProg α} {Q : α → Option ℤ → Prop}
    (h : (f c).wp (tpPost o) Q (some c)) :
    (access .regCount >>= f).wp (tpPost o) Q (some c) := by
  rw [bind_eq, wp_bind, wp_access]
  intro c' hc'
  obtain rfl := hc' c rfl
  exact h

theorem wp_ksuClearTaskTracepointFlagIfNeeded (t : ℕ) {Q : Unit → Option ℤ → Prop} (hQ : Q () none) :
    (ksuClearTaskTracepointFlagIfNeeded t).wp (tpPost o) Q none := by
  refine wp_withRegLock (fun c => wp_regCount ?_) hQ
  apply wp_onlyIf
  · exact fun hc => ⟨mayClear_some hc, Option.some_ne_none c⟩
  · exact fun _ => Option.some_ne_none c

theorem wp_ksuMarkRunningProcess {Q : Unit → Option ℤ → Prop} (hQ : Q () none) :
    ksuMarkRunningProcess.wp (tpPost o) Q none := by
  refine wp_withRegLock (fun c => wp_regCount ?_) hQ
  apply wp_onlyIf
  · exact fun hc => wp_ksuMarkRunningProcessLocked (mayClear_some hc) (Option.some_ne_none c)
  · exact fun _ => Option.some_ne_none c

/-- The registration that brings the count to one may clear flags; the next one only sets them. -/
theorem wp_syscallRegfuncHandler {Q : Unit → Option ℤ → Prop} (hQ : Q () none) :
    syscallRegfuncHandler.wp (tpPost o) Q none := by
  refine wp_withRegLock (fun c => wp_regCount ?_) hQ
  rw [bind_eq, wp_bind]
  have hinc : (access .incRegCount).wp (tpPost o) (fun _ k => k ≠ none) (some c) :=
    ⟨c, rfl, Option.some_ne_none (c + 1)⟩
  split
  · rename_i hc
    exact wp_ksuMarkRunningProcessLocked (mayClear_some (Int.le_of_lt hc)) hinc
  · refine wp_regCount (wp_onlyIf (fun _ => ?_) fun _ => hinc)
    exact wp_handleProcessMark (fun h => Bool.noConfusion h) hinc

/-- The count is taken down before it is asked. -/
theorem wp_syscallUnregfuncHandler {Q : Unit → Option ℤ → Prop} (hQ : Q () none) :
    syscallUnregfuncHandler.wp (tpPost o) Q none := by
  refine wp_withRegLock (fun c => ?_) hQ
  rw [bind_eq, wp_bind, wp_access]
  refine ⟨c, rfl, wp_regCount ?_⟩
  have hsome : (some (c - 1) : Option ℤ) ≠ none := Option.some_ne_none (c - 1)
  split
  · rename_i hc
    exact wp_handleProcessMark (fun _ => mayClear_some (Int.le_trans hc Int.one_nonneg)) hsome
  · refine wp_regCount (wp_onlyIf (fun hc => ?_) fun _ => hsome)
    exact wp_ksuMarkRunningProcessLocked (mayClear_some (Int.le_of_eq hc)) hsome

theorem wp_ksuGetTaskMark (pid : Int32) {Q : Except Errno UInt32 → Option ℤ → Prop} (hQ : ∀ r, Q r none) :
    (ksuGetTaskMark pid).wp (tpPost o) Q none := by
  unfold ksuGetTaskMark
  rw [bind_eq, wp_bind, wp_access]
  intro task
  cases task with
  | none => exact hQ _
  | some task => exact fun _ => hQ _

theorem wp_ksuSetTaskMark (pid : Int32) {mark : Bool} {Q : Except Errno Unit → Option ℤ → Prop}
    (hunmark : mark = false → o.isUnmark = true) (hQ : ∀ r, Q r none) :
    (ksuSetTaskMark pid mark).wp (tpPost o) Q none := by
  unfold ksuSetTaskMark
  rw [bind_eq, wp_bind, wp_access]
  intro task
  cases task with
  | none => exact hQ _
  | some task =>
    cases mark with
    | true => exact hQ _
    | false => exact ⟨mayClear_none (hunmark rfl), hQ _⟩

/-- The request clears a flag on its own only where it is one to unmark. -/
theorem wp_manageMark (cmd : ManageMarkCmd) {Q : Except Errno ManageMarkCmd → Option ℤ → Prop}
    (hunmark : cmd.operation = KSU_MARK_UNMARK → o.isUnmark = true) (hQ : ∀ r, Q r none) :
    (manageMark cmd).wp (tpPost o) Q none := by
  unfold manageMark
  split
  · rw [bind_eq, wp_bind]
    refine wp_ksuGetTaskMark cmd.pid fun r => ?_
    cases r with
    | error e => exact hQ _
    | ok ret => exact hQ _
  split
  · split
    · rw [bind_eq, wp_bind]
      exact wp_handleProcessMark (fun h => Bool.noConfusion h) (hQ _)
    · rw [bind_eq, wp_bind]
      exact wp_ksuSetTaskMark cmd.pid (fun h => Bool.noConfusion h) fun r => hQ _
  split
  · rename_i hop
    split
    · rw [bind_eq, wp_bind]
      exact wp_handleProcessMark (fun _ => mayClear_none (hunmark hop)) (hQ _)
    · rw [bind_eq, wp_bind]
      exact wp_ksuSetTaskMark cmd.pid (fun _ => hunmark hop) fun r => hQ _
  split
  · rw [bind_eq, wp_bind]
    exact wp_ksuMarkRunningProcess (hQ _)
  · exact hQ _

end Functions

/-- **Every function keeps to the outline**, wherever it is entered. -/
theorem code_outlined (o : Entry) : (o.code).wp (tpPost o) (fun _ _ => True) none := by
  cases o with
  | syscallRegfunc => exact wp_syscallRegfuncHandler trivial
  | syscallUnregfunc => exact wp_syscallUnregfuncHandler trivial
  | manageMark arg copied =>
    show ((doManageMark arg copied).bind fun _ => .ret ()).wp _ _ _
    rw [wp_bind]
    cases arg with
    | none => trivial
    | some cmd =>
      show ((manageMark cmd).bind _).wp _ _ _
      rw [wp_bind]
      refine wp_manageMark cmd (fun h => decide_eq_true h) fun r => ?_
      cases r <;> trivial
  | setAppProfile => exact wp_ksuMarkRunningProcess trivial
  | setTask t => trivial
  | clearTaskIfNeeded t => exact wp_ksuClearTaskTracepointFlagIfNeeded t trivial

/-! ### The flags -/

/-- The step takes the flag off the task at `t`. -/
structure Clears (x : Transition Action TpState Entry) (t : ℕ) : Prop where
  before : x.before.tracepoint t = true
  after : x.after.tracepoint t = false

/-- The step is one of KernelSU's. -/
def Own (x : Transition Action TpState Entry) : Prop := ∃ n o i, x.event = .act n o i

/-- The step is a request to unmark about to clear the flag of the task at `t`, which has it. -/
def UnmarkClears (x : Transition Action TpState Entry) (t : ℕ) : Prop :=
  ∃ n o, x.event = .act n o (.clearFlag t) ∧ o.isUnmark = true ∧ x.before.tracepoint t = true

@[simp] theorem tracepoint_putFlag_self (s : TpState) (t : ℕ) (flag : Bool) :
    (s.putFlag t flag).tracepoint t = ((s.task t).isSome && flag) := by
  unfold TpState.tracepoint TpState.putFlag
  simp only [Function.update_self]
  cases s.task t with
  | none => rfl
  | some x => rfl

theorem tracepoint_putFlag_of_ne (s : TpState) {t t' : ℕ} (flag : Bool) (h : t' ≠ t) :
    (s.putFlag t flag).tracepoint t' = s.tracepoint t' := by
  unfold TpState.tracepoint TpState.putFlag
  simp only [Function.update_of_ne h]

theorem isSome_of_tracepoint {s : TpState} {t : ℕ} (h : s.tracepoint t = true) :
    (s.task t).isSome = true := by
  unfold TpState.tracepoint at h
  cases ht : s.task t with
  | none => rw [ht] at h; cases h
  | some x => rfl

/-- An access keeps the flag of a task that it does not clear. -/
theorem exec_tracepoint {n : ℕ} {i : Action} {s s' : TpState} {r : i.Ret} {t : ℕ}
    (h : TpState.exec n i s = some (r, s')) (hflag : s.tracepoint t = true) (hi : i ≠ .clearFlag t) :
    s'.tracepoint t = true := by
  cases i with
  | lock =>
    obtain ⟨-, rfl⟩ := exec_lock h
    exact hflag
  | setFlag t' =>
    obtain ⟨-, rfl⟩ := Prod.mk.inj (Option.some.inj h)
    by_cases ht : t = t'
    · subst ht
      rw [tracepoint_putFlag_self, isSome_of_tracepoint hflag]
      rfl
    · rw [tracepoint_putFlag_of_ne _ _ ht]
      exact hflag
  | clearFlag t' =>
    obtain ⟨-, rfl⟩ := Prod.mk.inj (Option.some.inj h)
    have ht : t ≠ t' := fun ht => hi (ht ▸ rfl)
    rw [tracepoint_putFlag_of_ne _ _ ht]
    exact hflag
  | unlock | regCount | incRegCount | decRegCount | readLockTasklist | readUnlockTasklist | readTask _
  | isAllowUid _ | findTaskByVpid _ | testFlag _ =>
    obtain ⟨-, rfl⟩ := Prod.mk.inj (Option.some.inj h)
    exact hflag

variable {init : TpState → Prop} {trace : List (Transition Action TpState Entry)}
  {c : Config Action Action.Ret Unit TpState Entry}

/-- **Who clears while others use the tracepoint.**  A step of KernelSU's that takes a flag off while the
count is greater than one is one of a request to unmark. -/
theorem unmarkClears_of_clears (hinit : ∀ s, init s → s.regLock = none) (hrun : tpMarker.Run init trace c)
    {x : Transition Action TpState Entry} (hx : x ∈ trace) (hown : Own x) (hcount : 1 < x.before.regCount)
    {t : ℕ} (hclears : Clears x t) : UnmarkClears x t := by
  obtain ⟨n, o, i, he⟩ := hown
  have hstart : ∀ s, init s → ∀ n, KnowsCount n none s := fun s hs n hn =>
    Option.some_ne_none n (hn.symm.trans (hinit s hs))
  obtain ⟨⟨k, R, hk, hpost⟩, r, hexec⟩ :=
    Outline.forall_mem_trace (O := tpOutline) code_outlined hstart hrun x hx n o i he
  have hi : i = .clearFlag t := by
    by_contra hi
    have hkept := exec_tracepoint hexec hclears.before hi
    exact Bool.noConfusion (hkept.symm.trans hclears.after)
  subst hi
  refine ⟨n, o, he, ?_, hclears.before⟩
  cases k with
  | none => exact hpost.1.unlocked rfl
  | some c =>
    -- the lock is held, so the count that was asked for is the count
    have hle : c ≤ 1 := hpost.1.locked c rfl
    have hc : x.before.regCount = c := hk.2
    omega

/-- Such a request does take the flag off. -/
theorem clears_of_unmarkClears (hinit : ∀ s, init s → s.regLock = none) (hrun : tpMarker.Run init trace c)
    {x : Transition Action TpState Entry} (hx : x ∈ trace) {t : ℕ} (h : UnmarkClears x t) :
    Own x ∧ Clears x t := by
  obtain ⟨n, o, he, -, hflag⟩ := h
  have hstart : ∀ s, init s → ∀ n, KnowsCount n none s := fun s hs n hn =>
    Option.some_ne_none n (hn.symm.trans (hinit s hs))
  obtain ⟨-, r, hexec⟩ :=
    Outline.forall_mem_trace (O := tpOutline) code_outlined hstart hrun x hx n o _ he
  obtain ⟨-, hafter⟩ := Prod.mk.inj (Option.some.inj hexec)
  refine ⟨⟨n, o, _, he⟩, hflag, ?_⟩
  rw [← hafter, tracepoint_putFlag_self, Bool.and_false]

/-- **Marks while others use the tracepoint.**  In every interleaving, from the load of the module on,
KernelSU takes no flag off a task while the registration count is greater than one iff no request to
unmark comes to clear the flag of a task that has it while the count is greater than one. -/
theorem tpMarks_kept_iff (hrun : tpMarker.Run TpState.Initial trace c) :
    (∀ x ∈ trace, Own x → 1 < x.before.regCount → ∀ t, ¬Clears x t) ↔
      ∀ x ∈ trace, 1 < x.before.regCount → ∀ t, ¬UnmarkClears x t := by
  have hinit : ∀ s, TpState.Initial s → s.regLock = none := fun _ hs => hs.regLock
  constructor
  · intro h x hx hcount t hunmark
    obtain ⟨hown, hclears⟩ := clears_of_unmarkClears hinit hrun hx hunmark
    exact h x hx hown hcount t hclears
  · intro h x hx hown hcount t hclears
    exact h x hx hcount t (unmarkClears_of_clears hinit hrun hx hown hcount hclears)

/-! ### A request to unmark -/

/-- One marked task. -/
def oneTask : TpState where
  regCount := 0
  regLock := none
  tasklistReaders := 0
  tasklist := [7]
  task t := if t = 7 then some ⟨100, true, 2000, false, false, true⟩ else none
  findTaskByVpid _ := none
  isAllowUid _ := false

theorem oneTask_initial : oneTask.Initial := ⟨rfl, rfl⟩

/-- KernelSU and a tracer register; then `KSU_MARK_UNMARK` with pid 0 comes to the task. -/
def unmarkSchedule : List (Choice Entry) :=
  .start .syscallRegfunc :: List.replicate 9 (.act 0) ++
    .start .syscallRegfunc :: List.replicate 8 (.act 1) ++
      [.start (.manageMark (some ⟨KSU_MARK_UNMARK, 0, 0⟩) true), .act 2, .act 2]

/-- A step of KernelSU's that clears the task's flag while others use the tracepoint. -/
def clearsInUse (x : Transition Action TpState Entry) : Bool :=
  match x.event with
  | .act _ _ _ => decide (1 < x.before.regCount) && x.before.tracepoint 7 && !x.after.tracepoint 7
  | _ => false

theorem clearsInUse_iff {x : Transition Action TpState Entry} :
    clearsInUse x = true ↔ Own x ∧ 1 < x.before.regCount ∧ Clears x 7 := by
  unfold clearsInUse Own
  cases he : x.event with
  | act n o i =>
    simp only [Bool.and_eq_true, decide_eq_true_eq, Bool.not_eq_true', and_assoc]
    refine ⟨fun ⟨hcount, hbefore, hafter⟩ => ⟨⟨n, o, i, rfl⟩, hcount, hbefore, hafter⟩, ?_⟩
    exact fun ⟨_, hcount, hclears⟩ => ⟨hcount, hclears.before, hclears.after⟩
  | start o => simp
  | env => simp

/-- **KernelSU takes a flag off while a tracer uses the tracepoint**: the request to unmark all tasks does
not ask for the count. -/
theorem tpMarks_cleared :
    ¬∀ trace c, tpMarker.Run TpState.Initial trace c →
      ∀ x ∈ trace, Own x → 1 < x.before.regCount → ∀ t, ¬Clears x t := by
  intro h
  have hfollow : (tpMarker.follow ⟨oneTask, []⟩ unmarkSchedule).any (·.1.any clearsInUse) = true := rfl
  obtain ⟨⟨trace, c⟩, hrun, hany⟩ := (Option.any_eq_true _ _).mp hfollow
  obtain ⟨x, hx, hbad⟩ := List.any_eq_true.mp hany
  obtain ⟨hown, hcount, hclears⟩ := clearsInUse_iff.mp hbad
  have hinit : tpMarker.Run TpState.Initial [] ⟨oneTask, []⟩ := Run.init oneTask_initial
  exact h trace c (run_follow hinit hrun) x hx hown hcount 7 hclears

/-- A request to refresh finds the tracepoint in use and lets the flag be. -/
def refreshSchedule : List (Choice Entry) :=
  .start .syscallRegfunc :: List.replicate 9 (.act 0) ++
    .start .syscallRegfunc :: List.replicate 8 (.act 1) ++
      .start (.manageMark (some ⟨KSU_MARK_REFRESH, 0, 0⟩) true) :: List.replicate 3 (.act 2)

/-- A step of a request to unmark. -/
def byUnmark (x : Transition Action TpState Entry) : Bool :=
  match x.event with
  | .act _ o _ => o.isUnmark
  | _ => false

theorem tpMarks_kept_iff_refresh :
    ∃ trace c, tpMarker.follow ⟨oneTask, []⟩ refreshSchedule = some (trace, c) ∧
      ∀ x ∈ trace, Own x → 1 < x.before.regCount → ∀ t, ¬Clears x t := by
  have hfollow : (tpMarker.follow ⟨oneTask, []⟩ refreshSchedule).any (·.1.all (!byUnmark ·)) = true := rfl
  obtain ⟨⟨trace, c⟩, hrun, hall⟩ := (Option.any_eq_true _ _).mp hfollow
  have hinit : tpMarker.Run TpState.Initial [] ⟨oneTask, []⟩ := Run.init oneTask_initial
  refine ⟨trace, c, hrun, (tpMarks_kept_iff (run_follow hinit hrun)).mpr ?_⟩
  intro x hx _ t hunmark
  obtain ⟨n, o, he, ho, -⟩ := hunmark
  have hnot : (!byUnmark x) = true := List.all_eq_true.mp hall x hx
  simp only [byUnmark, he, ho, Bool.not_true, Bool.false_eq_true] at hnot

end KernelSU.Hook
