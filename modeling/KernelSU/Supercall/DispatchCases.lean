import KernelSU.Supercall.Dispatch

/-!
# What a request can do

`ksuSupercallHandleIoctl_handled` sums the table up: all but seven requests leave the driver and the task alone.  Of
those seven the one about safe mode is for everybody, and the others pass their permission check first.
-/

namespace KernelSU.Supercall

open KernelSU.Lib KernelSU.Lib.Errno KernelSU.Infra KernelSU.Policy KernelSU.Feature

/-- What only a reported event has other subsystems do. -/
def KernelCall.ofEvent : KernelCall → Bool
  | .loadAllowList => true
  | .observerInit => true
  | .selinuxHideHandlePostFsData => true
  | .trackThrone _ => true
  | .selinuxHideDropBackupIfUnused => true
  | _ => false

/-- What the events and the keys of a boot have other subsystems do. -/
def KernelCall.ofBoot : KernelCall → Bool
  | .scheduleStopInputHook => true
  | call => call.ofEvent

theorem KernelCall.ofEvent_of_ofBoot {call : KernelCall} (h : call.ofBoot = false) : call.ofEvent = false := by
  cases call <;> first | rfl | exact h

variable {c : Ctx}

/-! ### Requests that change nothing -/

/-- The request leaves the driver and the task alone, and is no event. -/
structure Reply.Quiet (c : Ctx) (r : Reply) : Prop where
  driver : r.driver = c.driver
  task : r.task = c.caller.task
  calls : ∀ call ∈ r.calls, call.ofBoot = false

namespace Reply.Quiet

theorem done (ret : ℤ) : Quiet c (c.done ret) := ⟨rfl, rfl, List.forall_mem_nil _⟩

theorem calling {calls : List KernelCall} (h : ∀ call ∈ calls, call.ofBoot = false) (ret : ℤ) :
    Quiet c (c.calling calls ret) := ⟨rfl, rfl, h⟩

theorem copyOut {calls : List KernelCall} {next : UserMem → Reply} {o : ℕ} {bs : List UInt8}
    (h : ∀ call ∈ calls, call.ofBoot = false) (hnext : ∀ mem, Quiet c (next mem)) :
    Quiet c (c.copyOut o bs calls next) := by
  rw [Ctx.copyOut]
  split
  · exact hnext _
  · exact ⟨rfl, rfl, h⟩

theorem replyWith {calls : List KernelCall} (h : ∀ call ∈ calls, call.ofBoot = false) (o : ℕ) (bs : List UInt8) :
    Quiet c (c.replyWith o bs calls) := copyOut h fun _ => ⟨rfl, rfl, h⟩

theorem withArg {o n : ℕ} {next : List UInt8 → Reply} (hnext : ∀ cmd, Quiet c (next cmd)) :
    Quiet c (c.withArg o n next) := by
  rw [Ctx.withArg]
  split
  · exact done _
  · exact hnext _

theorem ite {p : Prop} [Decidable p] {r r' : Reply} (h : Quiet c r) (h' : Quiet c r') :
    Quiet c (if p then r else r') := by
  split
  · exact h
  · exact h'

end Reply.Quiet

open Reply (Quiet)

/-- No other subsystem is asked. -/
theorem ofBoot_nil : ∀ call ∈ ([] : List KernelCall), call.ofBoot = false := List.forall_mem_nil _

theorem ofBoot_one {call : KernelCall} (h : call.ofBoot = false) : ∀ call' ∈ [call], call'.ofBoot = false :=
  List.forall_mem_singleton.mpr h

theorem quiet_doNewGetAllowListCommon (allow : Bool) : Quiet c (doNewGetAllowListCommon c allow) := by
  refine .withArg fun cmd => .ite (.done _) (.copyOut ofBoot_nil fun mem => .ite ?_ ⟨rfl, rfl, ofBoot_nil⟩)
  obtain ⟨hdriver, htask, hcalls⟩ : Quiet { c with mem := mem } _ := .replyWith ofBoot_nil 4 _
  exact ⟨hdriver, htask, hcalls⟩

theorem quiet_doGetAllowListCommon (allow : Bool) : Quiet c (doGetAllowListCommon c allow) := by
  refine .ite (.done _) (.copyOut ofBoot_nil fun mem => ?_)
  obtain ⟨hdriver, htask, hcalls⟩ : Quiet { c with mem := mem } _ := .replyWith ofBoot_nil 0 _
  exact ⟨hdriver, htask, hcalls⟩

theorem quiet_answerAboutUid (answer : UInt32 → Bool) : Quiet c (answerAboutUid c answer) :=
  .withArg fun _ => .replyWith ofBoot_nil 0 _

theorem quiet_doGetAppProfile : Quiet c (doGetAppProfile c) := by
  refine .withArg fun cmd => ?_
  split
  · exact .done _
  · exact .replyWith ofBoot_nil 0 _

theorem quiet_doGetFeature : Quiet c (doGetFeature c) := by
  refine .withArg fun cmd => ?_
  dsimp only
  split
  · exact .done _
  · exact .replyWith ofBoot_nil 0 _

theorem quiet_manageMark (cmd : List UInt8) (pid : ℕ) (mark : Bool) : Quiet c (manageMark c cmd pid mark) := by
  have hall : (if mark then KernelCall.markAllProcess else .unmarkAllProcess).ofBoot = false := by
    cases mark <;> rfl
  exact .ite (.replyWith (ofBoot_one hall) 0 cmd)
    (.ite (.calling (ofBoot_one rfl) _) (.replyWith (ofBoot_one rfl) 0 cmd))

theorem quiet_doManageMark : Quiet c (doManageMark c) :=
  .withArg fun cmd =>
    .ite (.ite (.calling (ofBoot_one rfl) _) (.replyWith (ofBoot_one rfl) 0 _))
      (.ite (quiet_manageMark _ _ _) (.ite (quiet_manageMark _ _ _) (.ite (.replyWith (ofBoot_one rfl) 0 cmd) (.done _))))

theorem quiet_doSetSepolicy : Quiet c (doSetSepolicy c) := .withArg fun _ => .calling (ofBoot_one rfl) _

theorem quiet_doGetWrapperFd : Quiet c (doGetWrapperFd c) :=
  .ite (.done _) (.withArg fun _ => .calling (ofBoot_one rfl) _)

theorem quiet_doNukeExt4Sysfs : Quiet c (doNukeExt4Sysfs c) :=
  .withArg fun _ => .ite (.done _) (.ite (.done _) (.ite (.done _) (.calling (ofBoot_one rfl) _)))

theorem quiet_doSetInitPgrp : Quiet c (doSetInitPgrp c) := .ite (.done _) (.calling (ofBoot_one rfl) _)

theorem quiet_doGetSulogFd : Quiet c (doGetSulogFd c) :=
  .withArg fun _ => .ite (.done _) (.calling (ofBoot_one rfl) _)

/-! ### The table -/

/-- The requests that change the driver or the task. -/
def changing : List UInt32 :=
  [KSU_IOCTL_GRANT_ROOT, KSU_IOCTL_REPORT_EVENT, KSU_IOCTL_CHECK_SAFEMODE, KSU_IOCTL_SET_APP_PROFILE,
    KSU_IOCTL_SET_FEATURE, KSU_IOCTL_ADD_TRY_UMOUNT, KSU_IOCTL_DISABLE_ESCAPE_TO_ROOT]

/-- **What a request can do**, whose permission check has found the driver `asked`. -/
inductive Handled (asked : Driver) (c : Ctx) (cmd : UInt32) : Reply → Prop
  | refused (e : Errno) : Handled asked c cmd (c.done e.val)
  | quiet {r : Reply} : cmd ∉ changing → Quiet c r → Handled asked c cmd r
  | grantRoot : cmd = KSU_IOCTL_GRANT_ROOT → (c.at asked).allowedForSu = true → Handled asked c cmd (doGrantRoot c)
  | reportEvent : cmd = KSU_IOCTL_REPORT_EVENT → c.onlyRoot = true → Handled asked c cmd (doReportEvent c)
  | checkSafemode : cmd = KSU_IOCTL_CHECK_SAFEMODE → Handled asked c cmd (doCheckSafemode c)
  | setAppProfile : cmd = KSU_IOCTL_SET_APP_PROFILE → (c.at asked).onlyManager = true →
      Handled asked c cmd (doSetAppProfile c)
  | setFeature : cmd = KSU_IOCTL_SET_FEATURE → (c.at asked).managerOrRoot = true → Handled asked c cmd (doSetFeature c)
  | addTryUmount : cmd = KSU_IOCTL_ADD_TRY_UMOUNT → (c.at asked).managerOrRoot = true →
      Handled asked c cmd (doAddTryUmount c)
  | disableEscapeToRoot : cmd = KSU_IOCTL_DISABLE_ESCAPE_TO_ROOT → c.onlyRoot = true →
      Handled asked c cmd (doDisableEscapeToRoot c)

/-- Each entry of the table. -/
theorem handled_entry (asked : Driver) (c : Ctx) :
    ∀ entry ∈ ksuIoctlHandlers, entry.permCheck (c.at asked) = true → Handled asked c entry.cmd (entry.handler c) := by
  have hinfo : ∀ bs, Quiet c (c.replyWith 0 bs []) := fun bs => .replyWith ofBoot_nil 0 bs
  simp only [ksuIoctlHandlers, List.forall_mem_cons, List.not_mem_nil, false_imp_iff, implies_true, and_true]
  exact ⟨.grantRoot rfl,
    fun _ => .quiet (by decide) (hinfo _),
    fun _ => .quiet (by decide) (hinfo _),
    fun hperm => .reportEvent rfl hperm,
    fun _ => .quiet (by decide) quiet_doSetSepolicy,
    fun _ => .checkSafemode rfl,
    fun _ => .quiet (by decide) (quiet_doGetAllowListCommon true),
    fun _ => .quiet (by decide) (quiet_doGetAllowListCommon false),
    fun _ => .quiet (by decide) (quiet_doNewGetAllowListCommon true),
    fun _ => .quiet (by decide) (quiet_doNewGetAllowListCommon false),
    fun _ => .quiet (by decide) (quiet_answerAboutUid _),
    fun _ => .quiet (by decide) (quiet_answerAboutUid _),
    fun _ => .quiet (by decide) (hinfo _),
    fun _ => .quiet (by decide) quiet_doGetAppProfile,
    .setAppProfile rfl,
    fun _ => .quiet (by decide) quiet_doGetFeature,
    .setFeature rfl,
    fun _ => .quiet (by decide) quiet_doGetWrapperFd,
    fun _ => .quiet (by decide) quiet_doManageMark,
    fun _ => .quiet (by decide) quiet_doNukeExt4Sysfs,
    .addTryUmount rfl,
    fun _ => .quiet (by decide) quiet_doSetInitPgrp,
    fun _ => .quiet (by decide) quiet_doGetSulogFd,
    fun hperm => .disableEscapeToRoot rfl hperm⟩

/-- **Every request** is one of these. -/
theorem ksuSupercallHandleIoctl_handled (asked : Driver) (c : Ctx) (cmd : UInt32) :
    Handled asked c cmd (ksuSupercallHandleIoctl asked c cmd) := by
  rw [ksuSupercallHandleIoctl]
  split
  · exact .refused _
  case h_2 entry hfound =>
    have hcmd : cmd = entry.cmd := by simpa using List.find?_some hfound
    rw [hcmd]
    split
    case isTrue hperm => exact handled_entry asked c entry (List.mem_of_find?_eq_some hfound) hperm
    case isFalse => exact .refused _

/-! ### Safe mode -/

/-- The calls that a step makes about the input hook. -/
def stopCalls (before after : SafeMode) : List KernelCall :=
  if after.inputHookStopped && !before.inputHookStopped then [.scheduleStopInputHook] else []

theorem ksuStopInputHookRuntime_eq (s : SafeMode) :
    ksuStopInputHookRuntime s = ({ s with inputHookStopped := true }, stopCalls s { s with inputHookStopped := true }) := by
  rw [ksuStopInputHookRuntime, stopCalls]
  cases hstopped : s.inputHookStopped with
  | false => rfl
  | true =>
    simp only [if_true, Bool.not_true, Bool.and_false, Bool.false_eq_true, if_false]
    rw [← hstopped]

/-- **`ksu_is_safe_mode`** remembers safe mode, and stops the input hook before it counts. -/
theorem ksuIsSafeMode_cases (boot : Boot) (s : SafeMode) :
    ((s.detected = true ∨ boot.lateLoaded = true) ∧ ksuIsSafeMode boot s = (s.detected, s, [])) ∨
      (s.detected = false ∧ boot.lateLoaded = false ∧
        ksuIsSafeMode boot s = (isVolumedownEnough s.volumedownPressedCount,
          { s with inputHookStopped := true, detected := isVolumedownEnough s.volumedownPressedCount },
          stopCalls s { s with inputHookStopped := true })) := by
  rw [ksuIsSafeMode, ksuStopInputHookRuntime_eq]
  cases hdetected : s.detected with
  | true => exact .inl ⟨.inl rfl, rfl⟩
  | false =>
    cases hlate : boot.lateLoaded with
    | true => exact .inl ⟨.inr rfl, rfl⟩
    | false =>
      refine .inr ⟨rfl, rfl, ?_⟩
      dsimp only
      cases henough : isVolumedownEnough s.volumedownPressedCount with
      | true => rfl
      | false =>
        simp only [Bool.false_eq_true, if_false]

/-- What the request about safe mode leaves, whether its answer can be copied or not. -/
theorem doCheckSafemode_leaves (c : Ctx) :
    (doCheckSafemode c).driver = { c.driver with safeMode := (ksuIsSafeMode c.boot c.driver.safeMode).2.1 } ∧
      (doCheckSafemode c).task = c.caller.task ∧
      (doCheckSafemode c).calls = (ksuIsSafeMode c.boot c.driver.safeMode).2.2 := by
  rw [doCheckSafemode, Ctx.replyWith, Ctx.copyOut]
  split <;> exact ⟨rfl, rfl, rfl⟩

theorem mem_stopCalls {before after : SafeMode} : ∀ call ∈ stopCalls before after, call = .scheduleStopInputHook := by
  rw [stopCalls]
  split <;> simp

theorem calls_ksuIsSafeMode (boot : Boot) (s : SafeMode) :
    ∀ call ∈ (ksuIsSafeMode boot s).2.2, call = .scheduleStopInputHook := by
  obtain ⟨-, heq⟩ | ⟨-, -, heq⟩ := ksuIsSafeMode_cases boot s
  · rw [heq]
    exact List.forall_mem_nil _
  · rw [heq]
    exact mem_stopCalls

end KernelSU.Supercall
