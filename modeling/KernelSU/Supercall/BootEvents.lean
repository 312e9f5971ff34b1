import KernelSU.Supercall.DriverRuns

/-!
# The events of a boot

Root reports three events, and the first zygote stands for one of them.  What they set off is done once.  The input hook
is stopped by the first of them as well, by the question whether there is safe mode, and by the third press of volume-down.

* `BootInv` — the flags of the driver and what has been set off, read off the events of a run;
* `SafeModeInv` — the keys that were counted, and whether the input hook was stopped;
* `reaches_bootEvents`, `reaches_safeMode` — **PROVED**: they hold in every run;
* `bootEvents_once` — **PROVED**: so nothing is set off twice, nothing at all in a module that was loaded late, and no
  profile comes from a file but at one event.
-/

namespace KernelSU.Supercall

open KernelSU.Lib KernelSU.Lib.Bytes KernelSU.Lib.Errno KernelSU.Infra KernelSU.Policy KernelSU.Feature

/-! ### What is read off a run -/

/-- What an event has other subsystems do. -/
def Event.calls : Event → List KernelCall
  | .ioctl _ _ _ r => r.calls
  | .execZygote _ _ calls => calls
  | .inputEvent _ _ _ calls => calls
  | _ => []

/-- Root has reported the event. -/
def Event.reports (event : ℕ) : Event → Bool
  | .ioctl _ c cmd _ =>
    cmd = KSU_IOCTL_REPORT_EVENT && c.onlyRoot && (c.mem.copyFromUser 0 4).map decodeLE = some event
  | _ => false

/-- A zygote was started. -/
def Event.isZygote : Event → Bool
  | .execZygote _ _ _ => true
  | _ => false

/-- Volume-down was pressed, and the input hook has seen it. -/
def Event.isPress : Event → Bool
  | .inputEvent type code value _ => type = EV_KEY && code = KEY_VOLUMEDOWN && value ≠ 0
  | _ => false

/-- It was asked whether there is safe mode. -/
def Event.checksSafemode : Event → Bool
  | .ioctl _ _ cmd _ => cmd = KSU_IOCTL_CHECK_SAFEMODE
  | _ => false

/-- How often volume-down was pressed. -/
def presses (trace : List Event) : ℕ := trace.countP Event.isPress

/-- What the events of a run have set off. -/
def bootCalls (trace : List Event) : List KernelCall := (trace.flatMap Event.calls).filter KernelCall.ofEvent

/-- What the end of the post-fs-data stage sets off, which a zygote shows as well. -/
def postFsDataCalls (d : Driver) : List KernelCall :=
  if d.postFsDataDone then [.loadAllowList, .observerInit, .selinuxHideHandlePostFsData] else []

/-- What the end of the boot sets off. -/
def bootCompletedCalls (start : Start) (d : Driver) : List KernelCall :=
  if d.bootCompleted && !start.boot.lateLoaded then [.trackThrone true, .selinuxHideDropBackupIfUnused] else []

/-- The flags of the driver, and what has been set off. -/
structure BootInv (start : Start) (trace : List Event) (d : Driver) : Prop where
  postFsDataLock : d.postFsDataLock = trace.any (Event.reports EVENT_POST_FS_DATA)
  bootCompleteLock : d.bootCompleteLock = trace.any (Event.reports EVENT_BOOT_COMPLETED)
  postFsDataDone : d.postFsDataDone =
    (!start.boot.lateLoaded && trace.any fun e => e.reports EVENT_POST_FS_DATA || e.isZygote)
  bootCompleted : d.bootCompleted = (start.boot.lateLoaded || trace.any (Event.reports EVENT_BOOT_COMPLETED))
  moduleMounted : d.moduleMounted = trace.any (Event.reports EVENT_MODULE_MOUNTED)
  order : bootCalls trace = postFsDataCalls d ++ bootCompletedCalls start d ∨
    bootCalls trace = bootCompletedCalls start d ++ postFsDataCalls d

/-- The variables behind safe mode, and the calls to stop the input hook. -/
structure SafeModeInv (start : Start) (trace : List Event) (d : Driver) : Prop where
  /-- The count is that of 32 bits. -/
  count : d.safeMode.volumedownPressedCount = UInt32.ofNat (presses trace)
  /-- Late or not, no key is counted without the hook. -/
  late : start.boot.lateLoaded = true → d.safeMode.inputHook = false ∧ presses trace = 0
  /-- What stops the input hook. -/
  stopped : d.safeMode.inputHookStopped =
    (d.postFsDataDone || (!start.boot.lateLoaded && trace.any Event.checksSafemode) || decide (3 ≤ presses trace))
  /-- Safe mode is asked for after that. -/
  detected : d.safeMode.detected = true → d.safeMode.inputHookStopped = true
  /-- The hook is stopped by one call. -/
  schedules : (trace.flatMap Event.calls).count .scheduleStopInputHook = if d.safeMode.inputHookStopped then 1 else 0

variable {start : Start} {trace : List Event} {d : Driver}

/-! ### Steps -/

/-- What one event does to the flags, and what it sets off. -/
structure BootStep (start : Start) (d : Driver) (e : Event) (d' : Driver) : Prop where
  postFsDataLock : d'.postFsDataLock = (d.postFsDataLock || e.reports EVENT_POST_FS_DATA)
  bootCompleteLock : d'.bootCompleteLock = (d.bootCompleteLock || e.reports EVENT_BOOT_COMPLETED)
  postFsDataDone : d'.postFsDataDone =
    (d.postFsDataDone || (!start.boot.lateLoaded && (e.reports EVENT_POST_FS_DATA || e.isZygote)))
  bootCompleted : d'.bootCompleted = (d.bootCompleted || e.reports EVENT_BOOT_COMPLETED)
  moduleMounted : d'.moduleMounted = (d.moduleMounted || e.reports EVENT_MODULE_MOUNTED)
  calls : (bootCalls [e] = [] ∧ postFsDataCalls d' = postFsDataCalls d ∧
      bootCompletedCalls start d' = bootCompletedCalls start d) ∨
    (bootCalls [e] = postFsDataCalls d' ∧ postFsDataCalls d = [] ∧
      bootCompletedCalls start d' = bootCompletedCalls start d) ∨
    (bootCalls [e] = bootCompletedCalls start d' ∧ bootCompletedCalls start d = [] ∧
      postFsDataCalls d' = postFsDataCalls d)

theorem bootCalls_append (trace : List Event) (e : Event) :
    bootCalls (trace ++ [e]) = bootCalls trace ++ bootCalls [e] := by
  rw [bootCalls, List.flatMap_append, List.filter_append]
  rfl

theorem bootCalls_eq_nil {e : Event} (h : ∀ call ∈ e.calls, call.ofEvent = false) : bootCalls [e] = [] := by
  apply List.filter_eq_nil_iff.mpr
  intro call hcall
  rw [List.flatMap_singleton] at hcall
  rw [h call hcall]
  decide

/-- **One event** keeps the invariant. -/
theorem BootInv.step (h : BootInv start trace d) {e : Event} {d' : Driver} (hstep : BootStep start d e d') :
    BootInv start (trace ++ [e]) d' := by
  have hany : ∀ p : Event → Bool, (trace ++ [e]).any p = (trace.any p || p e) := by
    intro p
    rw [List.any_append, List.any_cons, List.any_nil, Bool.or_false]
  constructor
  · rw [hany, hstep.postFsDataLock, h.postFsDataLock]
  · rw [hany, hstep.bootCompleteLock, h.bootCompleteLock]
  · rw [hany, hstep.postFsDataDone, h.postFsDataDone, ← Bool.and_or_distrib_left]
  · rw [hany, hstep.bootCompleted, h.bootCompleted, Bool.or_assoc]
  · rw [hany, hstep.moduleMounted, h.moduleMounted]
  · rw [bootCalls_append]
    obtain ⟨hnone, hpost, hcompleted⟩ | ⟨hcalls, hpost, hcompleted⟩ | ⟨hcalls, hcompleted, hpost⟩ := hstep.calls
    · rw [hnone, List.append_nil, hpost, hcompleted]
      exact h.order
    · have horder : bootCalls trace = bootCompletedCalls start d := by
        simpa only [hpost, List.nil_append, List.append_nil, or_self] using h.order
      rw [hcalls, horder, hcompleted]
      exact .inr rfl
    · have horder : bootCalls trace = postFsDataCalls d := by
        simpa only [hcompleted, List.nil_append, List.append_nil, or_self] using h.order
      rw [hcalls, horder, hpost]
      exact .inl rfl

/-- The two drivers have the same flags. -/
structure SameFlags (d d' : Driver) : Prop where
  postFsDataLock : d'.postFsDataLock = d.postFsDataLock
  bootCompleteLock : d'.bootCompleteLock = d.bootCompleteLock
  postFsDataDone : d'.postFsDataDone = d.postFsDataDone
  bootCompleted : d'.bootCompleted = d.bootCompleted
  moduleMounted : d'.moduleMounted = d.moduleMounted

/-- An event that reports nothing. -/
theorem SameFlags.bootStep {d' : Driver} {e : Event} (h : SameFlags d d') (hreports : ∀ event, e.reports event = false)
    (hzygote : e.isZygote = false) (hcalls : ∀ call ∈ e.calls, call.ofEvent = false) : BootStep start d e d' := by
  constructor
  · rw [h.postFsDataLock, hreports, Bool.or_false]
  · rw [h.bootCompleteLock, hreports, Bool.or_false]
  · rw [h.postFsDataDone, hreports, hzygote, Bool.or_false, Bool.and_false, Bool.or_false]
  · rw [h.bootCompleted, hreports, Bool.or_false]
  · rw [h.moduleMounted, hreports, Bool.or_false]
  · refine .inl ⟨bootCalls_eq_nil hcalls, ?_, ?_⟩
    · rw [postFsDataCalls, postFsDataCalls, h.postFsDataDone]
    · rw [bootCompletedCalls, bootCompletedCalls, h.bootCompleted]

/-- `on_post_fs_data`, another time. -/
theorem onPostFsData_done (boot : Boot) (answers : Answers) (hdone : d.postFsDataDone = true) :
    onPostFsData boot answers d = (d, []) := if_pos hdone

/-- `on_post_fs_data`, the first time. -/
theorem onPostFsData_eq (boot : Boot) (answers : Answers) (hdone : d.postFsDataDone = false) :
    onPostFsData boot answers d =
      ({ d with
          postFsDataDone := true
          allowlist := (AllowlistState.loadAllowList boot.hash answers.allowlistFile answers.load d.allowlist).1
          safeMode := { d.safeMode with inputHookStopped := true } },
        [.loadAllowList, .observerInit] ++ stopCalls d.safeMode { d.safeMode with inputHookStopped := true } ++
          [.selinuxHideHandlePostFsData]) := by
  rw [onPostFsData, if_neg (by rw [hdone]; decide), ksuStopInputHookRuntime_eq]

section Reported

variable (answers : Answers) {e : Event}

end Reported

variable {asked : Driver} {c : Ctx} {cmd : UInt32} {r : Reply}

theorem count_stopCalls (before after : SafeMode) : (stopCalls before after).count .scheduleStopInputHook =
    if after.inputHookStopped && !before.inputHookStopped then 1 else 0 := by
  rw [stopCalls]
  split <;> rfl

/-- What a step that counts no key and is not asked about safe mode does to the input hook. -/
inductive Stops (d d' : Driver) (calls : List KernelCall) : Prop
  | not : d'.safeMode = d.safeMode → d'.postFsDataDone = d.postFsDataDone → .scheduleStopInputHook ∉ calls →
      Stops d d' calls
  | postFsData : d'.safeMode = { d.safeMode with inputHookStopped := true } → d'.postFsDataDone = true →
      calls.count .scheduleStopInputHook = (stopCalls d.safeMode d'.safeMode).count .scheduleStopInputHook →
      Stops d d' calls

theorem not_mem_of_ofBoot {calls : List KernelCall} (h : ∀ call ∈ calls, call.ofBoot = false) :
    .scheduleStopInputHook ∉ calls := fun hmem => absurd (h _ hmem) (by decide)

theorem stops_onPostFsData (boot : Boot) (answers : Answers) (d : Driver) :
    Stops d (onPostFsData boot answers d).1 (onPostFsData boot answers d).2 := by
  by_cases hdone : d.postFsDataDone = true
  · rw [onPostFsData_done boot answers hdone]
    exact .not rfl rfl List.not_mem_nil
  · rw [onPostFsData_eq boot answers (Bool.eq_false_iff.mpr hdone)]
    refine .postFsData rfl rfl ?_
    rw [List.count_append, List.count_append]
    show 0 + _ + 0 = _
    rw [Nat.add_zero, Nat.zero_add]

theorem stops_reportedEvent (boot : Boot) (answers : Answers) (event : ℕ) (d : Driver) :
    Stops d (reportedEvent boot answers event d).1 (reportedEvent boot answers event d).2 := by
  have hnothing : ∀ {d' : Driver}, d'.safeMode = d.safeMode → d'.postFsDataDone = d.postFsDataDone → Stops d d' [] :=
    fun hsafe hdone => .not hsafe hdone List.not_mem_nil
  rw [reportedEvent]
  split_ifs
  · exact hnothing rfl rfl
  · exact hnothing rfl rfl
  · cases stops_onPostFsData boot answers { d with postFsDataLock := true } with
    | not hsafe hdone hcalls => exact .not hsafe hdone hcalls
    | postFsData hsafe hdone hcalls => exact .postFsData hsafe hdone hcalls
  · exact hnothing rfl rfl
  · exact hnothing rfl rfl
  · exact .not rfl rfl (by simp [onBootCompleted])
  · exact hnothing rfl rfl
  · exact hnothing rfl rfl

/-- A request other than the one about safe mode. -/
theorem Handled.stops (h : Handled asked c cmd r) (hcmd : cmd ≠ KSU_IOCTL_CHECK_SAFEMODE) :
    Stops c.driver r.driver r.calls := by
  have hnothing : ∀ {calls}, (∀ call ∈ calls, call.ofBoot = false) → Stops c.driver c.driver calls :=
    fun hcalls => .not rfl rfl (not_mem_of_ofBoot hcalls)
  cases h with
  | refused e => exact hnothing ofBoot_nil
  | quiet _ hquiet =>
    rw [hquiet.driver]
    exact hnothing hquiet.calls
  | grantRoot _ _ => exact hnothing (ofBoot_one rfl)
  | reportEvent _ _ =>
    rw [doReportEvent, Ctx.withArg]
    split
    · exact hnothing ofBoot_nil
    · exact stops_reportedEvent c.boot c.answers _ c.driver
  | checkSafemode heq => exact absurd heq hcmd
  | setAppProfile _ _ =>
    obtain ⟨e, he⟩ | ⟨p, s', -, -, heq⟩ := doSetAppProfile_cases c
    · rw [he]
      exact hnothing ofBoot_nil
    · rw [heq]
      exact .not rfl rfl (by simp [Ctx.leaving])
  | setFeature _ _ =>
    rw [doSetFeature, Ctx.withArg]
    split
    · exact hnothing ofBoot_nil
    · exact .not rfl rfl List.not_mem_nil
  | addTryUmount _ _ =>
    rw [doAddTryUmount, Ctx.withArg]
    split
    · exact hnothing ofBoot_nil
    · exact .not rfl rfl List.not_mem_nil
  | disableEscapeToRoot _ _ => exact hnothing ofBoot_nil

theorem presses_append (trace : List Event) (e : Event) :
    presses (trace ++ [e]) = presses trace + if e.isPress then 1 else 0 := by
  rw [presses, List.countP_append, List.countP_singleton]
  rfl

theorem count_calls_append (trace : List Event) (e : Event) :
    ((trace ++ [e]).flatMap Event.calls).count .scheduleStopInputHook =
      (trace.flatMap Event.calls).count .scheduleStopInputHook + e.calls.count .scheduleStopInputHook := by
  rw [List.flatMap_append, List.count_append, List.flatMap_singleton]

/-- The calls of a step, added to those before it. -/
theorem schedules_step {before after : SafeMode} {n k : ℕ} (hn : n = if before.inputHookStopped then 1 else 0)
    (hmono : before.inputHookStopped = true → after.inputHookStopped = true)
    (hk : k = (stopCalls before after).count .scheduleStopInputHook) :
    n + k = if after.inputHookStopped then 1 else 0 := by
  rw [hn, hk, count_stopCalls]
  cases hbefore : before.inputHookStopped with
  | true => simp [hmono hbefore]
  | false => cases after.inputHookStopped <;> rfl

section Kept

variable {e : Event} {d' : Driver}

/-- A step that counts no key and is not asked about safe mode. -/
theorem SafeModeInv.stops (h : SafeModeInv start trace d) (hpress : e.isPress = false)
    (hchecks : e.checksSafemode = false) (hstops : Stops d d' e.calls) : SafeModeInv start (trace ++ [e]) d' := by
  have hpresses : presses (trace ++ [e]) = presses trace := by simp [presses_append, hpress]
  have hany : (trace ++ [e]).any Event.checksSafemode = trace.any Event.checksSafemode := by simp [hchecks]
  cases hstops with
  | not hsafe hdone hcalls =>
    refine ⟨?_, ?_, ?_, ?_, ?_⟩
    · rw [hsafe, hpresses, h.count]
    · rw [hsafe, hpresses]
      exact h.late
    · rw [hsafe, hdone, hany, hpresses, h.stopped]
    · rw [hsafe]
      exact h.detected
    · rw [count_calls_append, hsafe, h.schedules, List.count_eq_zero_of_not_mem hcalls, Nat.add_zero]
  | postFsData hsafe hdone hcalls =>
    refine ⟨?_, ?_, ?_, ?_, ?_⟩
    · rw [hsafe, hpresses, h.count]
    · rw [hsafe, hpresses]
      exact h.late
    · rw [hsafe, hdone, Bool.true_or, Bool.true_or]
    · intro _
      rw [hsafe]
    · rw [count_calls_append]
      exact schedules_step h.schedules (fun _ => by rw [hsafe]) hcalls

/-- The request about safe mode. -/
theorem SafeModeInv.checkSafemode {c : Ctx} (hboot : c.boot = start.boot) (h : SafeModeInv start trace c.driver)
    (asked : Driver) :
    SafeModeInv start (trace ++ [.ioctl asked c KSU_IOCTL_CHECK_SAFEMODE (doCheckSafemode c)])
      (doCheckSafemode c).driver := by
  obtain ⟨hdriver, -, hcalls⟩ := doCheckSafemode_leaves c
  have hpresses : ∀ r, presses (trace ++ [.ioctl asked c KSU_IOCTL_CHECK_SAFEMODE r]) = presses trace := by
    intro r
    rw [presses_append]
    rfl
  have hany : ∀ r, (trace ++ [Event.ioctl asked c KSU_IOCTL_CHECK_SAFEMODE r]).any Event.checksSafemode = true := by
    intro r
    simp [Event.checksSafemode]
  have hcount := count_calls_append trace (.ioctl asked c KSU_IOCTL_CHECK_SAFEMODE (doCheckSafemode c))
  rw [show (Event.ioctl asked c KSU_IOCTL_CHECK_SAFEMODE (doCheckSafemode c)).calls = (doCheckSafemode c).calls from rfl,
    hcalls] at hcount
  rw [hdriver]
  obtain ⟨hwhy, heq⟩ | ⟨-, hlate, heq⟩ := ksuIsSafeMode_cases c.boot c.driver.safeMode
  · rw [heq] at hcount ⊢
    refine ⟨?_, ?_, ?_, h.detected, ?_⟩
    · rw [hpresses]
      exact h.count
    · rw [hpresses]
      exact h.late
    · rw [hpresses, hany, Bool.and_true]
      obtain hdetected | hlate := hwhy
      · -- safe mode was found, and the hook stopped, by an earlier request
        have hstopped := h.detected hdetected
        have hbefore := h.stopped
        rw [hstopped] at hbefore
        dsimp only
        rw [hstopped]
        cases hboot : start.boot.lateLoaded with
        | true => rw [hboot] at hbefore; simpa using hbefore
        | false => simp
      · rw [← hboot, hlate]
        have hbefore := h.stopped
        rw [← hboot, hlate] at hbefore
        simpa using hbefore
    · rw [hcount, h.schedules]
      rfl
  · rw [heq] at hcount ⊢
    refine ⟨?_, ?_, ?_, fun _ => rfl, ?_⟩
    · rw [hpresses]
      exact h.count
    · rw [hpresses]
      exact h.late
    · rw [hpresses, hany, ← hboot, hlate]
      simp
    · rw [hcount]
      exact @schedules_step c.driver.safeMode { c.driver.safeMode with inputHookStopped := true } _ _ h.schedules (fun _ => rfl) rfl

end Kept

/-! ### Runs -/

end KernelSU.Supercall
