import KernelSU.Supercall.DriverRuns

/-!
# The settings of the driver

The list of paths to unmount and the features are changed by requests of root and of the manager alone.

* `umounts` — the requests of a run that have changed the list, or could have;
* `featureSet` — what the requests of a run have last set a feature to;
* `driver_settings` — **PROVED**: in every run the driver holds what these say.
-/

namespace KernelSU.Supercall

open KernelSU.Lib KernelSU.Lib.Bytes KernelSU.Lib.Errno KernelSU.Infra KernelSU.Policy KernelSU.Feature

/-! ### What is read off a run -/

/-- The event is a request with this number, of root or of one that was the manager when its permission was checked;
what stands in its argument. -/
def Event.asked (number : UInt32) (size : ℕ) : Event → Option (Ctx × Reply × List UInt8)
  | .ioctl asked c cmd r =>
    if cmd = number ∧ (c.at asked).managerOrRoot = true then (c.mem.copyFromUser 0 size).map fun arg => (c, r, arg) else none
  | _ => none

/-- The requests about the list that have succeeded. -/
def Event.umount (e : Event) : Option UmountRequest :=
  ((e.asked KSU_IOCTL_ADD_TRY_UMOUNT 16).filter fun asked => asked.2.1.ret = 0).map fun asked =>
    umountRequest asked.1 asked.2.2

def umounts (trace : List Event) : List UmountRequest := trace.filterMap Event.umount

/-- The command in the argument of `do_set_feature`. -/
def setFeatureCmd (arg : List UInt8) : SetFeatureCmd :=
  ⟨UInt32.ofNat (decodeLE (slice arg 0 4)), UInt64.ofNat (decodeLE (slice arg 8 8))⟩

/-- The requests that set a feature, whether they succeed or not. -/
def Event.feature (e : Event) : Option SetFeatureCmd :=
  (e.asked KSU_IOCTL_SET_FEATURE 16).map fun asked => setFeatureCmd asked.2.2

/-- Whether the feature is on after one more request. -/
def noteFeature (id : UInt32) (on : Bool) (set : Option SetFeatureCmd) : Bool :=
  set.elim on fun cmd => if cmd.featureId = id then cmd.value ≠ 0 else on

/-- **What the requests of a run have last set a feature to.** -/
def featureSet (start : Start) (trace : List Event) (id : UInt32) : Bool :=
  trace.foldl (fun on e => noteFeature id on e.feature) (start.features.enabled id)

/-- The settings of the driver. -/
structure Settings (start : Start) (trace : List Event) (d : Driver) : Prop where
  mountList : MountListInv (umounts trace) d.mountList
  features : ∀ id, supported start.boot.sulogEvents id = true → d.features.enabled id = featureSet start trace id

variable {start : Start} {trace : List Event} {d asked : Driver} {c : Ctx} {cmd : UInt32} {r : Reply}

theorem featureSet_append (start : Start) (trace : List Event) (e : Event) (id : UInt32) :
    featureSet start (trace ++ [e]) id = noteFeature id (featureSet start trace id) e.feature := by
  rw [featureSet, List.foldl_append]
  rfl

theorem umounts_append (trace : List Event) (e : Event) : umounts (trace ++ [e]) = umounts trace ++ e.umount.toList := by
  rw [umounts, List.filterMap_append, ← umounts]
  cases humount : e.umount with
  | none => rw [List.filterMap_cons_none humount]; rfl
  | some request => rw [List.filterMap_cons_some humount]; rfl

/-! ### Steps -/

/-- An event that leaves the settings alone. -/
theorem Settings.other (h : Settings start trace d) {e : Event} {d' : Driver} (humount : e.umount = none)
    (hfeature : e.feature = none) (hlist : d'.mountList = d.mountList) (hfeatures : d'.features = d.features) :
    Settings start (trace ++ [e]) d' := by
  refine ⟨?_, fun id hid => ?_⟩
  · rw [umounts_append, humount, hlist, Option.toList_none, List.append_nil]
    exact h.mountList
  · rw [featureSet_append, hfeature, hfeatures]
    exact h.features id hid

theorem asked_of_ne {number : UInt32} (hne : cmd ≠ number) (size : ℕ) :
    (Event.ioctl asked c cmd r).asked number size = none := if_neg fun h => hne h.1

theorem asked_of_not (hnot : (c.at asked).managerOrRoot = false) (number : UInt32) (size : ℕ) :
    (Event.ioctl asked c cmd r).asked number size = none :=
  if_neg fun h => Bool.false_ne_true (hnot.symm.trans h.2)

theorem asked_of_eq (hperm : (c.at asked).managerOrRoot = true) (number : UInt32) (size : ℕ) :
    (Event.ioctl asked c number r).asked number size = (c.mem.copyFromUser 0 size).map fun arg => (c, r, arg) :=
  if_pos ⟨rfl, hperm⟩

/-- The entries of the two requests. -/
theorem ksuSupercallHandleIoctl_addTryUmount (asked : Driver) (c : Ctx) :
    ksuSupercallHandleIoctl asked c KSU_IOCTL_ADD_TRY_UMOUNT =
      if (c.at asked).managerOrRoot then doAddTryUmount c else c.done EPERM.val := rfl

theorem ksuSupercallHandleIoctl_setFeature (asked : Driver) (c : Ctx) :
    ksuSupercallHandleIoctl asked c KSU_IOCTL_SET_FEATURE =
      if (c.at asked).managerOrRoot then doSetFeature c else c.done EPERM.val := rfl

/-- A request about something else. -/
theorem Handled.sameSettings (h : Handled asked c cmd r) (humount : cmd ≠ KSU_IOCTL_ADD_TRY_UMOUNT)
    (hfeature : cmd ≠ KSU_IOCTL_SET_FEATURE) :
    r.driver.mountList = c.driver.mountList ∧ r.driver.features = c.driver.features := by
  cases h with
  | refused e => exact ⟨rfl, rfl⟩
  | quiet _ hquiet =>
    rw [hquiet.driver]
    exact ⟨rfl, rfl⟩
  | grantRoot _ _ => exact ⟨rfl, rfl⟩
  | reportEvent _ _ =>
    rw [doReportEvent, Ctx.withArg]
    split
    · exact ⟨rfl, rfl⟩
    · show (reportedEvent _ _ _ _).1.mountList = _ ∧ (reportedEvent _ _ _ _).1.features = _
      simp only [reportedEvent, onPostFsData, onBootCompleted, onModuleMounted]
      split_ifs <;> exact ⟨rfl, rfl⟩
  | checkSafemode _ =>
    rw [(doCheckSafemode_leaves c).1]
    exact ⟨rfl, rfl⟩
  | setAppProfile _ _ =>
    obtain ⟨e, he⟩ | ⟨p, s', -, -, heq⟩ := doSetAppProfile_cases c
    · rw [he]
      exact ⟨rfl, rfl⟩
    · rw [heq]
      exact ⟨rfl, rfl⟩
  | setFeature hcmd _ => exact absurd hcmd hfeature
  | addTryUmount hcmd _ => exact absurd hcmd humount
  | disableEscapeToRoot _ _ => exact ⟨rfl, rfl⟩

theorem errnoVal_eq_zero {result : Option Errno} : errnoVal result = 0 ↔ result = none := by
  cases result with
  | none => exact ⟨fun _ => rfl, fun _ => rfl⟩
  | some e => exact ⟨fun h => absurd h (Errno.val_ne_zero e), fun h => absurd h (Option.some_ne_none e)⟩

/-- A request about the list. -/
theorem settings_addTryUmount (h : Settings start trace c.driver) (hperm : (c.at asked).managerOrRoot = true) :
    Settings start (trace ++ [.ioctl asked c KSU_IOCTL_ADD_TRY_UMOUNT (doAddTryUmount c)]) (doAddTryUmount c).driver := by
  have hfeature : (Event.ioctl asked c KSU_IOCTL_ADD_TRY_UMOUNT (doAddTryUmount c)).feature = none := by
    rw [Event.feature, asked_of_ne (by decide)]
    rfl
  have humount : (Event.ioctl asked c KSU_IOCTL_ADD_TRY_UMOUNT (doAddTryUmount c)).umount =
      ((c.mem.copyFromUser 0 16).filter fun _ => (doAddTryUmount c).ret = 0).map (umountRequest c) := by
    rw [Event.umount, asked_of_eq hperm]
    cases c.mem.copyFromUser 0 16 with
    | none => rfl
    | some arg => rw [Option.map_some, Option.filter_some, Option.filter_some]; split <;> rfl
  cases harg : c.mem.copyFromUser 0 16 with
  | none =>
    have hreply : doAddTryUmount c = c.done EFAULT.val := by rw [doAddTryUmount, Ctx.withArg, harg]
    refine h.other ?_ hfeature ?_ ?_
    · rw [humount, harg]
      rfl
    · rw [hreply]
      rfl
    · rw [hreply]
      rfl
  | some arg =>
    have hret : (doAddTryUmount c).ret = errnoVal (addTryUmount (umountRequest c arg) c.driver.mountList).1 := by
      rw [doAddTryUmount, Ctx.withArg, harg]
      rfl
    have hlist : (doAddTryUmount c).driver.mountList = (addTryUmount (umountRequest c arg) c.driver.mountList).2 := by
      rw [doAddTryUmount, Ctx.withArg, harg]
      rfl
    have hfeatures : (doAddTryUmount c).driver.features = c.driver.features := by
      rw [doAddTryUmount, Ctx.withArg, harg]
      rfl
    refine ⟨?_, fun id hid => ?_⟩
    · have hstep := h.mountList.step (umountRequest c arg)
      rw [noteUmount] at hstep
      rw [umounts_append, humount, harg, Option.filter_some, hret, hlist]
      by_cases hsuccess : (addTryUmount (umountRequest c arg) c.driver.mountList).1 = none
      · rw [if_pos hsuccess] at hstep
        rw [if_pos (decide_eq_true (errnoVal_eq_zero.mpr hsuccess))]
        exact hstep
      · rw [if_neg hsuccess] at hstep
        rw [if_neg (fun heq => hsuccess (errnoVal_eq_zero.mp (of_decide_eq_true heq))), Option.map_none,
          Option.toList_none, List.append_nil]
        exact hstep
    · rw [featureSet_append, hfeature, hfeatures]
      exact h.features id hid

/-- A request that sets a feature. -/
theorem settings_setFeature (hboot : c.boot = start.boot) (h : Settings start trace c.driver)
    (hperm : (c.at asked).managerOrRoot = true) :
    Settings start (trace ++ [.ioctl asked c KSU_IOCTL_SET_FEATURE (doSetFeature c)]) (doSetFeature c).driver := by
  have humount : (Event.ioctl asked c KSU_IOCTL_SET_FEATURE (doSetFeature c)).umount = none := by
    rw [Event.umount, asked_of_ne (by decide)]
    rfl
  have hfeature : (Event.ioctl asked c KSU_IOCTL_SET_FEATURE (doSetFeature c)).feature
      = (c.mem.copyFromUser 0 16).map setFeatureCmd := by
    rw [Event.feature, asked_of_eq hperm, Option.map_map]
    rfl
  cases harg : c.mem.copyFromUser 0 16 with
  | none =>
    have hreply : doSetFeature c = c.done EFAULT.val := by rw [doSetFeature, Ctx.withArg, harg]
    refine h.other humount ?_ ?_ ?_
    · rw [hfeature, harg]
      rfl
    · rw [hreply]
      rfl
    · rw [hreply]
      rfl
  | some arg =>
    have hfeatures : (doSetFeature c).driver.features = (ksuSetFeature (registered c.boot.sulogEvents) c.answers.found
        (setFeatureCmd arg).featureId (setFeatureCmd arg).value c.driver.features).2 := by
      rw [doSetFeature, Ctx.withArg, harg]
      rfl
    have hlist : (doSetFeature c).driver.mountList = c.driver.mountList := by
      rw [doSetFeature, Ctx.withArg, harg]
      rfl
    refine ⟨?_, fun id hid => ?_⟩
    · rw [umounts_append, humount, hlist, Option.toList_none, List.append_nil]
      exact h.mountList
    · rw [featureSet_append, hfeature, harg, hfeatures, Option.map_some, ← h.features id hid, noteFeature,
        Option.elim_some]
      rw [← hboot] at hid
      split_ifs with heq
      · rw [← heq] at hid ⊢
        exact enabled_ksuSetFeature hid c.answers.found _ _
      · have hlt : id < KSU_FEATURE_MAX := by
          rw [supported, Bool.and_eq_true, decide_eq_true_eq] at hid
          exact hid.1
        exact enabled_ksuSetFeature_of_ne hlt (Ne.symm heq) c.answers.found _ _

/-- **A request keeps to the settings.** -/
theorem settings_ioctl (hboot : c.boot = start.boot) (h : Settings start trace c.driver) (asked : Driver) (cmd : UInt32) :
    Settings start (trace ++ [.ioctl asked c cmd (ksuSupercallHandleIoctl asked c cmd)])
      (ksuSupercallHandleIoctl asked c cmd).driver := by
  by_cases humount : cmd = KSU_IOCTL_ADD_TRY_UMOUNT
  · rw [humount, ksuSupercallHandleIoctl_addTryUmount]
    split_ifs with hperm
    · exact settings_addTryUmount h hperm
    · have hasked : ∀ number size,
          (Event.ioctl asked c KSU_IOCTL_ADD_TRY_UMOUNT (c.done EPERM.val)).asked number size = none :=
        asked_of_not (Bool.eq_false_iff.mpr hperm)
      refine h.other ?_ ?_ rfl rfl
      · rw [Event.umount, hasked]
        rfl
      · rw [Event.feature, hasked]
        rfl
  by_cases hfeature : cmd = KSU_IOCTL_SET_FEATURE
  · rw [hfeature, ksuSupercallHandleIoctl_setFeature]
    split_ifs with hperm
    · exact settings_setFeature hboot h hperm
    · have hasked : ∀ number size,
          (Event.ioctl asked c KSU_IOCTL_SET_FEATURE (c.done EPERM.val)).asked number size = none :=
        asked_of_not (Bool.eq_false_iff.mpr hperm)
      refine h.other ?_ ?_ rfl rfl
      · rw [Event.umount, hasked]
        rfl
      · rw [Event.feature, hasked]
        rfl
  obtain ⟨hlist, hfeatures⟩ := (ksuSupercallHandleIoctl_handled asked c cmd).sameSettings humount hfeature
  refine h.other ?_ ?_ hlist hfeatures
  · rw [Event.umount, asked_of_ne humount]
    rfl
  · rw [Event.feature, asked_of_ne hfeature]
    rfl

/-- The settings of every run. -/
theorem reaches_settings (h : Runs start trace d) : Settings start trace d := by
  have hinit : Settings start [] (kernelsuInit start) := ⟨MountListInv.init, fun _ _ => rfl⟩
  refine h.invariant (Settings start) hinit ?_
  intro trace d e d' _ ih hevent
  cases hevent with
  | permCheck c cmd _ _ => exact ih.other rfl rfl rfl rfl
  | ioctl asked c cmd hboot hdriver _ =>
    subst hdriver
    exact settings_ioctl hboot ih asked cmd
  | execZygote answers _ => refine ih.other rfl rfl ?_ ?_ <;> rw [onPostFsData] <;> split <;> rfl
  | setManagerAppid appid => exact ih.other rfl rfl rfl rfl
  | pruneAllowlist isUidValid => exact ih.other rfl rfl rfl rfl
  | inputEvent type code value _ => exact ih.other rfl rfl rfl rfl
  | doStopInputHook _ => exact ih.other rfl rfl rfl rfl

end KernelSU.Supercall
