import KernelSU.Supercall.DispatchCases

/-!
# The driver over time

The driver is changed by requests, by the start of the first zygote, by the keys of a boot, and by the search for the
manager, which crowns and invalidates it and prunes the allow list.  `driverMachine` takes these in any order: a request
asks for permission in one step, and its handler is another, before which any other steps may be taken.  A handler is one
step.

* `driverEvent` — **PROVED**: what one step does to the driver;
* `standing` — the profiles that a run should leave, read off its requests, loads and prunes;
* `driver_allowlist` — **PROVED**: the table of profiles holds these and no others.
-/

namespace KernelSU.Supercall

open KernelSU.Lib KernelSU.Lib.Errno KernelSU.Infra KernelSU.Policy KernelSU.Feature

/-! ### Steps -/

/-- What the driver starts with. -/
structure Start where
  boot : Boot
  features : KernelFeatures
  allowlistFile : Option (List UInt8)
  load : AllowlistState.LoadEnv
  /-- `register_kprobe` succeeds for `input_event_kp`. -/
  inputKprobe : Bool

/-- The allow list of a module that is loaded late is read at once. -/
def Start.loading (start : Start) : AllowlistState.Loading :=
  if start.boot.lateLoaded then
    AllowlistState.loadAllowList start.boot.hash start.allowlistFile start.load .init
  else (.init, [])

/-- `kernelsu_init`. -/
def kernelsuInit (start : Start) : Driver :=
  { Driver.init start.features with
    allowlist := start.loading.1
    bootCompleted := start.boot.lateLoaded
    -- `ksu_ksud_init` is left out by a module that is loaded late
    safeMode := ⟨false, 0, false, !start.boot.lateLoaded && start.inputKprobe⟩ }

/-- What happens to the driver. -/
inductive Action
  /-- A thread makes a request, and its permission is checked. -/
  | ioctl (thread : ℕ) (caller : Caller) (mem : UserMem) (answers : Answers) (cmd : UInt32)
  /-- The handler of its request runs. -/
  | handler (thread : ℕ)
  /-- The `-Xzygote` branch of `ksu_handle_execveat_ksud`. -/
  | execZygote (answers : Answers)
  | setManagerAppid (appid : UInt32)
  | pruneAllowlist (isUidValid : UInt32 → List UInt8 → Bool)
  | inputEvent (type code : UInt32) (value : ℤ)
  | doStopInputHook

/-- What has happened. -/
inductive Event
  | permCheck (c : Ctx) (cmd : UInt32)
  | ioctl (asked : Driver) (c : Ctx) (cmd : UInt32) (reply : Reply)
  | execZygote (d : Driver) (answers : Answers) (calls : List KernelCall)
  | setManagerAppid (appid : UInt32)
  | pruneAllowlist (d : Driver) (isUidValid : UInt32 → List UInt8 → Bool)
  | inputEvent (type code : UInt32) (value : ℤ) (calls : List KernelCall)
  | doStopInputHook

/-- The driver, and by thread the requests whose handler has not run yet, with the driver that the permission check has
found. -/
structure Running where
  driver : Driver
  asking : ℕ → Option (Ctx × UInt32)

def driverStep (start : Start) (s : Running) : Action → Option (Running × Event)
  | .ioctl thread caller mem answers cmd =>
    let c : Ctx := ⟨start.boot, answers, caller, mem, s.driver⟩
    if (s.asking thread).isSome then none
    else some ({ s with asking := Function.update s.asking thread (some (c, cmd)) }, .permCheck c cmd)
  | .handler thread =>
    (s.asking thread).map fun request =>
      let c := request.1.at s.driver
      let r := ksuSupercallHandleIoctl request.1.driver c request.2
      (⟨r.driver, Function.update s.asking thread none⟩, .ioctl request.1.driver c request.2 r)
  | .execZygote answers =>
    -- no hook is installed by a module that is loaded late
    if start.boot.lateLoaded then none
    else
      let r := onPostFsData start.boot answers s.driver
      some ({ s with driver := r.1 }, .execZygote s.driver answers r.2)
  | .setManagerAppid appid => some ({ s with driver := { s.driver with managerAppid := appid } }, .setManagerAppid appid)
  | .pruneAllowlist isUidValid =>
    some ({ s with driver := { s.driver with
        allowlist := s.driver.allowlist.pruneAllowlist s.driver.bootCompleted isUidValid } },
      .pruneAllowlist s.driver isUidValid)
  | .inputEvent type code value =>
    if s.driver.safeMode.inputHook then
      let r := ksuHandleInputHandleEvent type code value s.driver.safeMode
      some ({ s with driver := { s.driver with safeMode := r.1 } }, .inputEvent type code value r.2)
    else none
  | .doStopInputHook =>
    if s.driver.safeMode.inputHookStopped then
      some ({ s with driver := { s.driver with safeMode := { s.driver.safeMode with inputHook := false } } },
        .doStopInputHook)
    else none

/-- Any sequence of these, from the state after `kernelsu_init`. -/
def driverMachine (start : Start) : Machine Running Action Event where
  init := ⟨kernelsuInit start, fun _ => none⟩
  step := driverStep start

/-! ### Runs -/

/-- A run leads to the driver, whatever requests are still being made. -/
def Runs (start : Start) (trace : List Event) (d : Driver) : Prop :=
  ∃ asking, (driverMachine start).Reaches trace ⟨d, asking⟩

/-- The permission of the request was checked in the run, where the driver was `asked`. -/
def Asked (start : Start) (trace : List Event) (asked : Driver) (c : Ctx) (cmd : UInt32) : Prop :=
  ∃ before after, trace = before ++ .permCheck (c.at asked) cmd :: after ∧ Runs start before asked

/-- What one event of a run does to the driver. -/
inductive DriverEvent (start : Start) (trace : List Event) (d : Driver) : Event → Driver → Prop
  | permCheck (c : Ctx) (cmd : UInt32) : c.boot = start.boot → c.driver = d →
      DriverEvent start trace d (.permCheck c cmd) d
  | ioctl (asked : Driver) (c : Ctx) (cmd : UInt32) : c.boot = start.boot → c.driver = d →
      Asked start trace asked c cmd →
      DriverEvent start trace d (.ioctl asked c cmd (ksuSupercallHandleIoctl asked c cmd))
        (ksuSupercallHandleIoctl asked c cmd).driver
  | execZygote (answers : Answers) : start.boot.lateLoaded = false →
      DriverEvent start trace d (.execZygote d answers (onPostFsData start.boot answers d).2)
        (onPostFsData start.boot answers d).1
  | setManagerAppid (appid : UInt32) :
      DriverEvent start trace d (.setManagerAppid appid) { d with managerAppid := appid }
  | pruneAllowlist (isUidValid : UInt32 → List UInt8 → Bool) :
      DriverEvent start trace d (.pruneAllowlist d isUidValid)
        { d with allowlist := d.allowlist.pruneAllowlist d.bootCompleted isUidValid }
  | inputEvent (type code : UInt32) (value : ℤ) : d.safeMode.inputHook = true →
      DriverEvent start trace d (.inputEvent type code value (ksuHandleInputHandleEvent type code value d.safeMode).2)
        { d with safeMode := (ksuHandleInputHandleEvent type code value d.safeMode).1 }
  | doStopInputHook : d.safeMode.inputHookStopped = true →
      DriverEvent start trace d .doStopInputHook { d with safeMode := { d.safeMode with inputHook := false } }

variable {start : Start} {trace : List Event} {d : Driver}

/-- The requests whose handler has not run yet were asked for in the run. -/
def AskingInv (start : Start) (trace : List Event) (s : Running) : Prop :=
  ∀ thread c cmd, s.asking thread = some (c, cmd) → c.boot = start.boot ∧ Asked start trace c.driver c cmd

theorem Asked.append {asked : Driver} {c : Ctx} {cmd : UInt32} (h : Asked start trace asked c cmd) (e : Event) :
    Asked start (trace ++ [e]) asked c cmd := by
  obtain ⟨before, after, rfl, hruns⟩ := h
  exact ⟨before, after ++ [e], by simp, hruns⟩

/-- **One step**, and the requests that are still being made after it. -/
theorem driverEvent {s s' : Running} {a : Action} {e : Event} (h : (driverMachine start).Reaches trace s)
    (hinv : AskingInv start trace s) (hstep : driverStep start s a = some (s', e)) :
    DriverEvent start trace s.driver e s'.driver ∧ AskingInv start (trace ++ [e]) s' := by
  have hkept : ∀ {asking}, asking = s.asking → ∀ d', AskingInv start (trace ++ [e]) ⟨d', asking⟩ := by
    rintro _ rfl d' thread c cmd hasking
    exact (hinv thread c cmd hasking).imp_right fun hasked => hasked.append e
  cases a with
  | ioctl thread caller mem answers cmd =>
    simp only [driverStep] at hstep
    split_ifs at hstep
    obtain ⟨rfl, rfl⟩ := Prod.mk.inj (Option.some.inj hstep)
    refine ⟨.permCheck _ cmd rfl rfl, ?_⟩
    intro thread' c' cmd' hasking
    by_cases hthread : thread' = thread
    · subst hthread
      simp only [Function.update_self, Option.some.injEq, Prod.mk.injEq] at hasking
      obtain ⟨rfl, rfl⟩ := hasking
      exact ⟨rfl, trace, [], rfl, _, h⟩
    · simp only [Function.update_of_ne hthread] at hasking
      exact hkept rfl s.driver thread' c' cmd' hasking
  | handler thread =>
    obtain ⟨⟨c, cmd⟩, hasking, hr⟩ := Option.map_eq_some_iff.mp hstep
    obtain ⟨rfl, rfl⟩ := Prod.mk.inj hr
    obtain ⟨hboot, hasked⟩ := hinv thread c cmd hasking
    refine ⟨.ioctl _ (c.at s.driver) _ hboot rfl hasked, ?_⟩
    intro thread' c' cmd' hasking'
    by_cases hthread : thread' = thread
    · subst hthread
      simp at hasking'
    · simp only [Function.update_of_ne hthread] at hasking'
      exact hkept rfl s.driver thread' c' cmd' hasking'
  | execZygote answers =>
    simp only [driverStep] at hstep
    split_ifs at hstep with hlate
    obtain ⟨rfl, rfl⟩ := Prod.mk.inj (Option.some.inj hstep)
    exact ⟨.execZygote answers (Bool.eq_false_iff.mpr hlate), hkept rfl _⟩
  | setManagerAppid appid =>
    obtain ⟨rfl, rfl⟩ := Prod.mk.inj (Option.some.inj hstep)
    exact ⟨.setManagerAppid appid, hkept rfl _⟩
  | pruneAllowlist isUidValid =>
    obtain ⟨rfl, rfl⟩ := Prod.mk.inj (Option.some.inj hstep)
    exact ⟨.pruneAllowlist isUidValid, hkept rfl _⟩
  | inputEvent type code value =>
    simp only [driverStep] at hstep
    split_ifs at hstep with hhook
    obtain ⟨rfl, rfl⟩ := Prod.mk.inj (Option.some.inj hstep)
    exact ⟨.inputEvent type code value hhook, hkept rfl _⟩
  | doStopInputHook =>
    simp only [driverStep] at hstep
    split_ifs at hstep with hstopped
    obtain ⟨rfl, rfl⟩ := Prod.mk.inj (Option.some.inj hstep)
    exact ⟨.doStopInputHook hstopped, hkept rfl _⟩

theorem reaches_askingInv {s : Running} (h : (driverMachine start).Reaches trace s) : AskingInv start trace s := by
  induction h with
  | init => exact fun _ _ _ hasking => absurd hasking (by simp [driverMachine])
  | step h hstep ih => exact (driverEvent h ih hstep).2

/-- **Induction over the runs of the driver**, by what one event does to it. -/
theorem Runs.invariant (P : List Event → Driver → Prop) (h0 : P [] (kernelsuInit start))
    (hstep : ∀ trace d e d', Runs start trace d → P trace d → DriverEvent start trace d e d' → P (trace ++ [e]) d')
    (h : Runs start trace d) : P trace d := by
  obtain ⟨asking, h⟩ := h
  generalize hs : Running.mk d asking = s at h
  obtain rfl : s.driver = d := by rw [← hs]
  clear hs
  induction h with
  | init => exact h0
  | step h hs ih => exact hstep _ _ _ _ ⟨_, h⟩ ih (driverEvent h (reaches_askingInv h) hs).1

/-- **An event in a run** is that of a step, from a driver that the events before it lead to. -/
theorem Runs.split (h : Runs start trace d) {before after : List Event} {e : Event} (htrace : trace = before ++ e :: after) :
    ∃ d₀ d₁, Runs start before d₀ ∧ DriverEvent start before d₀ e d₁ := by
  obtain ⟨asking, h⟩ := h
  obtain ⟨s, a, s', hbefore, hstep⟩ := h.split htrace
  exact ⟨s.driver, s'.driver, ⟨_, hbefore⟩, (driverEvent hbefore (reaches_askingInv hbefore) hstep).1⟩

/-- The handler of a request in a run. -/
theorem Runs.ioctl (h : Runs start trace d) {before after : List Event} {asked : Driver} {c : Ctx} {cmd : UInt32}
    {r : Reply} (htrace : trace = before ++ .ioctl asked c cmd r :: after) :
    c.boot = start.boot ∧ Runs start before c.driver ∧ Asked start before asked c cmd ∧
      r = ksuSupercallHandleIoctl asked c cmd := by
  obtain ⟨d₀, d₁, hbefore, hevent⟩ := h.split htrace
  cases hevent with
  | ioctl asked c cmd hboot hdriver hasked => exact ⟨hboot, hdriver ▸ hbefore, hasked, rfl⟩

/-- The run leads to the driver, and no request is being made. -/
def Idle (start : Start) (trace : List Event) (d : Driver) : Prop :=
  (driverMachine start).Reaches trace ⟨d, fun _ => none⟩

theorem Idle.runs (h : Idle start trace d) : Runs start trace d := ⟨_, h⟩

theorem Idle.init : Idle start [] (kernelsuInit start) := Machine.Reaches.init

/-- The events of a request that is handled at once. -/
def requestEvents (c : Ctx) (cmd : UInt32) : List Event :=
  [.permCheck c cmd, .ioctl c.driver c cmd (ksuSupercallHandleIoctl c.driver c cmd)]

/-- A request may be handled at once. -/
theorem Idle.ioctl {c : Ctx} (h : Idle start trace c.driver) (hboot : c.boot = start.boot) (cmd : UInt32) :
    Idle start (trace ++ requestEvents c cmd) (ksuSupercallHandleIoctl c.driver c cmd).driver := by
  have hcheck : (driverMachine start).Reaches (trace ++ [.permCheck c cmd])
      ⟨c.driver, Function.update (fun _ => none) 0 (some (c, cmd))⟩ := by
    refine h.step (a := .ioctl 0 c.caller c.mem c.answers cmd) ?_
    simp [driverMachine, driverStep, ← hboot]
  have hstep : (driverMachine start).step ⟨c.driver, Function.update (fun _ => none) 0 (some (c, cmd))⟩ (.handler 0) =
      some (⟨(ksuSupercallHandleIoctl c.driver c cmd).driver, fun _ => none⟩,
        .ioctl c.driver c cmd (ksuSupercallHandleIoctl c.driver c cmd)) := by
    simp [driverMachine, driverStep, Ctx.at]
  have hhandler := hcheck.step hstep
  rw [List.append_assoc] at hhandler
  exact hhandler

/-- Another request, after `cmd` was handled. -/
def Ctx.next (c : Ctx) (cmd : UInt32) (caller : Caller) (mem : UserMem) : Ctx :=
  { c with
    caller := caller
    mem := mem
    driver := (ksuSupercallHandleIoctl c.driver c cmd).driver }

/-- The profile in the argument of `do_set_app_profile`. -/
def Ctx.profile (c : Ctx) : Option AppProfile := (c.mem.copyFromUser 0 784).bind profileArg

/-- The profiles that `ksu_load_allow_list` has offered, where it is among the calls. -/
def loadedBy (boot : Boot) (answers : Answers) (d : Driver) (calls : List KernelCall) :
    Option (List (AppProfile × Except Errno Unit)) :=
  if .loadAllowList ∈ calls then
    some (AllowlistState.loadAllowList boot.hash answers.allowlistFile answers.load d.allowlist).2
  else none

/-- The profiles that an event has loaded. -/
def Event.loads (start : Start) : Event → Option (List (AppProfile × Except Errno Unit))
  | .ioctl _ c _ r => loadedBy start.boot c.answers c.driver r.calls
  | .execZygote d answers calls => loadedBy start.boot answers d calls
  | _ => none

/-- The profile that an event has set. -/
def Event.sets : Event → Option AppProfile
  | .ioctl _ c cmd r => if cmd = KSU_IOCTL_SET_APP_PROFILE ∧ r.ret = 0 then c.profile else none
  | _ => none

/-- What an event says about the table. -/
def Event.label (start : Start) (e : Event) : Option AllowlistLabel :=
  match e with
  | .pruneAllowlist d isUidValid => if d.bootCompleted then some (.pruned isUidValid) else none
  | e => (e.sets.map fun p => .sets [(p, .ok ())]).or ((e.loads start).map .sets)

/-- **The profiles that a run should leave**: later ones stand for earlier ones, and those of uids that were not valid at
a prune are gone. -/
def standing (start : Start) (trace : List Event) : UInt32 → Option AppProfile :=
  (trace.filterMap (Event.label start)).foldl noteLabel (start.loading.2.foldl noteSet fun _ => none)

/-- The map of profiles after a label, if there is one. -/
def noteLabel? (m : UInt32 → Option AppProfile) (label : Option AllowlistLabel) : UInt32 → Option AppProfile :=
  label.elim m (noteLabel m)

theorem standing_append (start : Start) (trace : List Event) (e : Event) :
    standing start (trace ++ [e]) = noteLabel? (standing start trace) (e.label start) := by
  rw [standing, List.filterMap_append, List.foldl_append, ← standing, noteLabel?]
  cases hlabel : e.label start with
  | none => rw [List.filterMap_cons_none hlabel, List.filterMap_nil]; rfl
  | some label => rw [List.filterMap_cons_some hlabel, List.filterMap_nil]; rfl

variable {m : UInt32 → Option AppProfile}

/-- `on_post_fs_data` keeps the invariant of the table. -/
theorem inv_onPostFsData {d : Driver} (h : AllowlistInv start.boot.hash d.allowlist m) (answers : Answers) :
    AllowlistInv start.boot.hash (onPostFsData start.boot answers d).1.allowlist
      (noteLabel? m ((loadedBy start.boot answers d (onPostFsData start.boot answers d).2).map .sets)) := by
  rw [onPostFsData]
  split
  · exact h
  · exact h.load answers.allowlistFile answers.load

/-- An event that is reported loads the table at most through `on_post_fs_data`. -/
theorem inv_reportedEvent {d : Driver} (h : AllowlistInv start.boot.hash d.allowlist m) (answers : Answers)
    (event : ℕ) :
    AllowlistInv start.boot.hash (reportedEvent start.boot answers event d).1.allowlist
      (noteLabel? m ((loadedBy start.boot answers d (reportedEvent start.boot answers event d).2).map .sets)) := by
  rw [reportedEvent]
  split
  · split
    · exact h
    · split
      · exact h
      · exact inv_onPostFsData (d := { d with postFsDataLock := true }) h answers
  · split
    · split
      · exact h
      · split
        · exact h
        · exact h
    · split
      · exact h
      · exact h

/-- Without a load among the calls there is none. -/
theorem loadedBy_eq_none {boot : Boot} {answers : Answers} {d : Driver} {calls : List KernelCall}
    (h : ∀ call ∈ calls, call.ofEvent = false) : loadedBy boot answers d calls = none :=
  if_neg fun hmem => absurd (h _ hmem) (by decide)

theorem ofEvent_of_ofBoot {calls : List KernelCall} (h : ∀ call ∈ calls, call.ofBoot = false) :
    ∀ call ∈ calls, call.ofEvent = false := fun call hmem => KernelCall.ofEvent_of_ofBoot (h call hmem)

theorem ofEvent_of_stop {calls : List KernelCall} (h : ∀ call ∈ calls, call = .scheduleStopInputHook) :
    ∀ call ∈ calls, call.ofEvent = false := fun call hmem => by
  rw [h call hmem]
  rfl

theorem Errno.val_ne_zero (e : Errno) : e.val ≠ 0 := (show e.val < 0 from e.range.2).ne

theorem length_of_copyFromUser {mem : UserMem} {o n : ℕ} {bs : List UInt8} (h : mem.copyFromUser o n = some bs) :
    bs.length = n := by
  rw [UserMem.copyFromUser] at h
  split_ifs at h with hlen
  obtain rfl := Option.some.inj h
  rw [Bytes.slice_length]
  omega

/-- **`do_set_app_profile`** fails and changes nothing, or sets the profile in its argument. -/
theorem doSetAppProfile_cases (c : Ctx) :
    (∃ e : Errno, doSetAppProfile c = c.done e.val) ∨
    ∃ p s', c.profile = some p ∧ SetTo c.boot.hash c.driver.allowlist p s' ∧
      doSetAppProfile c = c.leaving { c.driver with allowlist := s' } [.persistentAllowList, .markRunningProcess] 0 := by
  cases hcmd : c.mem.copyFromUser 0 784 with
  | none =>
    refine .inl ⟨EFAULT, ?_⟩
    rw [doSetAppProfile, Ctx.withArg, hcmd]
  | some cmd =>
    have hlen := length_of_copyFromUser hcmd
    have hprofile : profileArg cmd = some ⟨cmd, hlen⟩ := dif_pos hlen
    rw [doSetAppProfile, Ctx.withArg, hcmd, Ctx.profile, hcmd, Option.bind_some]
    dsimp only
    obtain ⟨e, he⟩ | ⟨p, s', hp, hok, hset⟩ :=
      setAppProfile_cases c.boot.hash c.driver.allowlist (profileArg cmd) c.answers.kmalloc
    · refine .inl ⟨e, ?_⟩
      rw [he]
    · refine .inr ⟨p, s', hp, hset, ?_⟩
      rw [hok]

/-- Setting a profile keeps the invariant of the table. -/
theorem inv_doSetAppProfile {c : Ctx} (h : AllowlistInv c.boot.hash c.driver.allowlist m) :
    AllowlistInv c.boot.hash (doSetAppProfile c).driver.allowlist
      (noteLabel? m ((if (doSetAppProfile c).ret = 0 then c.profile else none).map fun p => .sets [(p, .ok ())])) := by
  obtain ⟨e, he⟩ | ⟨p, s', hp, hset, heq⟩ := doSetAppProfile_cases c
  · have hret : ¬(c.done e.val).ret = 0 := Errno.val_ne_zero e
    rw [he, if_neg hret]
    exact h
  · rw [heq, if_pos (show (c.leaving { c.driver with allowlist := s' } _ 0).ret = 0 from rfl), hp]
    exact h.setTo hset

variable {asked : Driver} {c : Ctx} {cmd : UInt32} {r : Reply}

/-- A request that neither sets nor loads profiles says nothing about the table. -/
theorem label_eq_none (hset : ¬(cmd = KSU_IOCTL_SET_APP_PROFILE ∧ r.ret = 0))
    (hcalls : ∀ call ∈ r.calls, call.ofEvent = false) : (Event.ioctl asked c cmd r).label start = none := by
  show ((if cmd = KSU_IOCTL_SET_APP_PROFILE ∧ r.ret = 0 then c.profile else none).map _).or
    ((loadedBy start.boot c.answers c.driver r.calls).map _) = none
  rw [if_neg hset, loadedBy_eq_none hcalls]
  rfl

/-- A request other than for setting a profile says what it has loaded. -/
theorem label_of_ne (hcmd : cmd ≠ KSU_IOCTL_SET_APP_PROFILE) (r : Reply) :
    (Event.ioctl asked c cmd r).label start = (loadedBy start.boot c.answers c.driver r.calls).map .sets := by
  show ((if cmd = KSU_IOCTL_SET_APP_PROFILE ∧ r.ret = 0 then c.profile else none).map _).or _ = _
  rw [if_neg fun h => hcmd h.1]
  rfl

theorem calls_doSetAppProfile (c : Ctx) : ∀ call ∈ (doSetAppProfile c).calls, call.ofBoot = false := by
  obtain ⟨e, he⟩ | ⟨p, s', -, -, heq⟩ := doSetAppProfile_cases c
  · rw [he]
    exact ofBoot_nil
  · rw [heq]
    exact List.forall_mem_cons.mpr ⟨rfl, ofBoot_one rfl⟩

/-- **A request keeps the invariant of the table.** -/
theorem inv_ioctl (hboot : c.boot = start.boot) (h : AllowlistInv start.boot.hash c.driver.allowlist m)
    (hr : Handled asked c cmd r) :
    AllowlistInv start.boot.hash r.driver.allowlist (noteLabel? m ((Event.ioctl asked c cmd r).label start)) := by
  cases hr with
  | refused e =>
    have hret : ¬(cmd = KSU_IOCTL_SET_APP_PROFILE ∧ (c.done e.val).ret = 0) := fun heq => Errno.val_ne_zero e heq.2
    rw [label_eq_none hret (ofEvent_of_ofBoot ofBoot_nil)]
    exact h
  | quiet hcmd hquiet =>
    have hset : cmd ≠ KSU_IOCTL_SET_APP_PROFILE := fun heq => hcmd (heq ▸ by decide)
    rw [label_eq_none (fun heq => hset heq.1) (ofEvent_of_ofBoot hquiet.calls), hquiet.driver]
    exact h
  | grantRoot hcmd hperm =>
    rw [label_eq_none (fun heq => absurd (hcmd.symm.trans heq.1) (by decide)) (ofEvent_of_ofBoot (ofBoot_one rfl))]
    exact h
  | reportEvent hcmd hperm =>
    rw [label_of_ne (by rw [hcmd]; decide), doReportEvent, Ctx.withArg]
    split
    · exact h
    · rw [← hboot] at h ⊢
      exact @inv_reportedEvent { start with boot := c.boot } m c.driver h c.answers _
  | checkSafemode hcmd =>
    obtain ⟨hdriver, -, hcalls⟩ := doCheckSafemode_leaves c
    have hevent := ofEvent_of_stop (calls_ksuIsSafeMode c.boot c.driver.safeMode)
    rw [← hcalls] at hevent
    rw [label_eq_none (fun heq => absurd (hcmd.symm.trans heq.1) (by decide)) hevent, hdriver]
    exact h
  | setAppProfile hcmd hperm =>
    have hlabel : (Event.ioctl asked c cmd (doSetAppProfile c)).label start
        = (if (doSetAppProfile c).ret = 0 then c.profile else none).map fun p => .sets [(p, .ok ())] := by
      show ((if cmd = KSU_IOCTL_SET_APP_PROFILE ∧ (doSetAppProfile c).ret = 0 then c.profile else none).map _).or
        ((loadedBy start.boot c.answers c.driver (doSetAppProfile c).calls).map _) = _
      rw [loadedBy_eq_none (ofEvent_of_ofBoot (calls_doSetAppProfile c)), Option.map_none, Option.or_none]
      simp only [hcmd, true_and]
    rw [hlabel]
    rw [← hboot] at h ⊢
    exact inv_doSetAppProfile h
  | setFeature hcmd hperm =>
    rw [label_of_ne (by rw [hcmd]; decide), doSetFeature, Ctx.withArg]
    split
    · exact h
    · exact h
  | addTryUmount hcmd hperm =>
    rw [label_of_ne (by rw [hcmd]; decide), doAddTryUmount, Ctx.withArg]
    split
    · exact h
    · exact h
  | disableEscapeToRoot hcmd hperm =>
    rw [label_eq_none (fun heq => absurd (hcmd.symm.trans heq.1) (by decide)) (ofEvent_of_ofBoot ofBoot_nil)]
    exact h

/-- The table after `kernelsu_init`. -/
theorem inv_kernelsuInit (start : Start) :
    AllowlistInv start.boot.hash (kernelsuInit start).allowlist (standing start []) := by
  show AllowlistInv start.boot.hash start.loading.1 (start.loading.2.foldl noteSet fun _ => none)
  rw [Start.loading]
  split
  · exact AllowlistInv.init.load start.allowlistFile start.load
  · exact AllowlistInv.init

/-- **The table holds the standing profiles** in every run. -/
theorem driver_allowlist (h : Runs start trace d) : AllowlistInv start.boot.hash d.allowlist (standing start trace) := by
  refine h.invariant (fun trace d => AllowlistInv start.boot.hash d.allowlist (standing start trace))
    (inv_kernelsuInit start) ?_
  intro trace d e d' _ ih hevent
  rw [standing_append]
  cases hevent with
  | permCheck c cmd _ _ => exact ih
  | ioctl asked c cmd hboot hdriver _ =>
    subst hdriver
    exact inv_ioctl hboot ih (ksuSupercallHandleIoctl_handled asked c cmd)
  | execZygote answers _ => exact inv_onPostFsData ih answers
  | setManagerAppid appid => exact ih
  | pruneAllowlist isUidValid =>
    have hprune := ih.step (.pruneAllowlist d.bootCompleted isUidValid)
    cases hboot : d.bootCompleted with
    | false =>
      have hlabel : (Event.pruneAllowlist d isUidValid).label start = none :=
        if_neg (by rw [hboot]; decide)
      rw [hlabel]
      rw [hboot] at hprune
      exact hprune
    | true =>
      have hlabel : (Event.pruneAllowlist d isUidValid).label start = some (.pruned isUidValid) := if_pos hboot
      rw [hlabel]
      rw [hboot] at hprune
      exact hprune
  | inputEvent type code value _ => exact ih
  | doStopInputHook _ => exact ih

/-! ### A boot -/

/-- A module that is loaded by the first process, and no allow list. -/
def plainStart : Start where
  boot := ⟨hash32, 33000, false, false, true, false, true⟩
  features :=
    ⟨true, true, false, false,
      ⟨.kernel 1, .kernel 2, .kernel 3, .kernel 4, .null, .null, .null, false, false, .null, false, false⟩⟩
  allowlistFile := none
  load := ⟨fun _ => plainProfile 0, fun _ => true⟩
  inputKprobe := true

/-- Nothing fails. -/
def plainAnswers : Answers where
  escape := grantEverything defaultRootProfile
  stack := false
  kmalloc := true
  kstrdup := true
  found := ⟨false, false, false, .null, false, false⟩
  string := .fault []
  allowlistFile := none
  load := plainStart.load
  ksuFileSid := true
  handleSepolicy := 0
  installFileWrapper := 3
  getTaskMark := 0
  setTaskMark := 0
  nukeExt4Sysfs := 0
  installSulogFd := 4
  initSession := true

/-- The manager has been found. -/
def crowned : Driver := { kernelsuInit plainStart with managerAppid := 10123 }

end KernelSU.Supercall
