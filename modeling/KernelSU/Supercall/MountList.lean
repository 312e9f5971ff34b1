import KernelSU.Infra.UserMemory

/-!
# `kernel/supercall/dispatch.c`: the list of paths to unmount

* `addTryUmount` — the request that adds to the list, deletes from it and wipes it;
* `survivors` — what requests should leave: the paths that were added and not deleted since, the newest first;
* `MountListInv.step` — **PROVED**: each request keeps to that, and no path is in the list twice.
-/

namespace KernelSU.Supercall

open KernelSU.Lib KernelSU.Lib.Bytes KernelSU.Lib.Errno KernelSU.Sulog KernelSU.Infra

def KSU_UMOUNT_WIPE : UInt8 := 0
def KSU_UMOUNT_ADD : UInt8 := 1
def KSU_UMOUNT_DEL : UInt8 := 2

/-- `struct mount_entry`; the string is given without its NUL. -/
structure MountEntry where
  umountable : List UInt8
  flags : UInt32
  deriving DecidableEq

/-- A request with the string that its `arg` points at, and whether `kzalloc` and `kstrdup` succeed. -/
structure UmountRequest where
  string : UserStr
  flags : UInt32
  mode : UInt8
  kzalloc : Bool
  kstrdup : Bool

/-- The copy of the path into `buf`, of no more than `count` bytes. -/
def pathFromUser (string : UserStr) (count : ℕ) : Except Errno (List UInt8) :=
  let copied := strncpyFromUser string count
  if copied.1 ≤ 0 then .error EFAULT else .ok (cString ((bufferAfter 256 copied.2).set 255 0))

/-- `add_try_umount`, its argument read. -/
def addTryUmount (r : UmountRequest) (mountList : List MountEntry) : Option Errno × List MountEntry :=
  if r.mode = KSU_UMOUNT_WIPE then (none, [])
  else if r.mode = KSU_UMOUNT_ADD then
    match pathFromUser r.string 256 with
    | .error e => (some e, mountList)
    | .ok buf =>
      if !r.kzalloc then (some ENOMEM, mountList)
      else if !r.kstrdup then (some ENOMEM, mountList)
      else if mountList.any fun entry => entry.umountable = buf then (some EEXIST, mountList)
      else (none, ⟨buf, r.flags⟩ :: mountList)
  else if r.mode = KSU_UMOUNT_DEL then
    -- a shorter copy than that of an addition
    match pathFromUser r.string 255 with
    | .error e => (some e, mountList)
    | .ok buf => (none, mountList.filter fun entry => entry.umountable ≠ buf)
  else (some EINVAL, mountList)

/-! ### Paths -/

/-- The path of a request: its string, cut to the length of the buffer. -/
def UmountRequest.path (r : UmountRequest) : Option (List UInt8) :=
  match r.string with
  | .str bytes _ => if bytes = [] then none else some (bytes.take 255)
  | .fault _ => none

/-- **Both copies** give the same path. -/
theorem pathFromUser_eq (r : UmountRequest) {count : ℕ} (hcount : count = 256 ∨ count = 255) :
    pathFromUser r.string count = (r.path).elim (.error EFAULT) .ok := by
  rw [pathFromUser, UmountRequest.path]
  cases hstring : r.string with
  | fault copied => rfl
  | str bytes hbytes =>
    have hlength : (strncpyFromUser (.str bytes hbytes) count).1 = min bytes.length count := by
      show (if bytes.length < count then _ else _ : ℤ × List UInt8).1 = _
      split_ifs with h
      · rw [Nat.min_eq_left h.le]
      · rw [Nat.min_eq_right (Nat.not_lt.mp h)]
    by_cases hempty : bytes = []
    · subst hempty
      rw [if_pos (by rw [hlength]; simp)]
      rfl
    · have hpos := List.length_pos_of_ne_nil hempty
      rw [if_neg (by rw [hlength]; omega), cString_bufferAfter hbytes hcount]
      show Except.ok _ = (if bytes = [] then none else some (bytes.take 255) : Option _).elim _ _
      rw [if_neg hempty]
      rfl

/-- A path has no NUL, and is neither empty nor longer than the buffer. -/
theorem UmountRequest.path_wellFormed {r : UmountRequest} {path : List UInt8} (h : r.path = some path) :
    path ≠ [] ∧ path.length ≤ 255 ∧ 0 ∉ path := by
  rw [UmountRequest.path] at h
  cases hstring : r.string with
  | fault copied =>
    rw [hstring] at h
    cases h
  | str bytes hbytes =>
    rw [hstring] at h
    have h : (if bytes = [] then none else some (bytes.take 255) : Option _) = some path := h
    split_ifs at h with hempty
    obtain rfl := Option.some.inj h
    have hpos := List.length_pos_of_ne_nil hempty
    refine ⟨List.ne_nil_of_length_pos ?_, List.length_take_le _ _, fun hmem => hbytes (List.mem_of_mem_take hmem)⟩
    rw [List.length_take]
    omega

/-! ### One request -/

/-- The entry that a request adds if it succeeds. -/
def UmountRequest.adds (r : UmountRequest) : Option MountEntry :=
  if r.mode = KSU_UMOUNT_ADD then r.path.map fun path => ⟨path, r.flags⟩ else none

/-- The request removes the path if it succeeds. -/
def UmountRequest.removes (r : UmountRequest) (path : List UInt8) : Bool :=
  r.mode = KSU_UMOUNT_WIPE || (r.mode = KSU_UMOUNT_DEL && r.path = some path)

/-- What a request does to the list. -/
inductive Changes (r : UmountRequest) (mountList : List MountEntry) : Option Errno × List MountEntry → Prop
  | refused (e : Errno) : Changes r mountList (some e, mountList)
  | added (entry : MountEntry) : r.adds = some entry → (∀ e ∈ mountList, e.umountable ≠ entry.umountable) →
      Changes r mountList (none, entry :: mountList)
  | removed : r.mode ≠ KSU_UMOUNT_ADD →
      Changes r mountList (none, mountList.filter fun e => !r.removes e.umountable)

/-- **Each request** is refused and changes nothing, adds a new path in front, or removes what it names. -/
theorem addTryUmount_changes (r : UmountRequest) (mountList : List MountEntry) :
    Changes r mountList (addTryUmount r mountList) := by
  rw [addTryUmount]
  by_cases hwipe : r.mode = KSU_UMOUNT_WIPE
  · rw [if_pos hwipe]
    have hempty : mountList.filter (fun e => !r.removes e.umountable) = [] := by
      apply List.filter_eq_nil_iff.mpr
      intro e _
      rw [UmountRequest.removes, hwipe]
      simp
    have hnot : r.mode ≠ KSU_UMOUNT_ADD := by
      rw [hwipe]
      decide
    have h : Changes r mountList (none, mountList.filter fun e => !r.removes e.umountable) := .removed hnot
    rwa [hempty] at h
  · rw [if_neg hwipe]
    by_cases hadd : r.mode = KSU_UMOUNT_ADD
    · rw [if_pos hadd, pathFromUser_eq r (Or.inl rfl)]
      cases hpath : r.path with
      | none => exact .refused EFAULT
      | some path =>
        show Changes r mountList (if !r.kzalloc then _ else _)
        split_ifs with hentry hname hdup
        · exact .refused ENOMEM
        · exact .refused ENOMEM
        · exact .refused EEXIST
        · have hadds : r.adds = some ⟨path, r.flags⟩ := by
            rw [UmountRequest.adds, if_pos hadd, hpath]
            rfl
          refine .added ⟨path, r.flags⟩ hadds fun e he heq => hdup ?_
          exact List.any_eq_true.mpr ⟨e, he, decide_eq_true heq⟩
    · rw [if_neg hadd]
      by_cases hdel : r.mode = KSU_UMOUNT_DEL
      · rw [if_pos hdel, pathFromUser_eq r (Or.inr rfl)]
        cases hpath : r.path with
        | none => exact .refused EFAULT
        | some path =>
          have hfilter : mountList.filter (fun e => e.umountable ≠ path)
              = mountList.filter fun e => !r.removes e.umountable := by
            apply List.filter_congr
            intro e _
            rw [UmountRequest.removes, hpath, decide_eq_false hwipe, decide_eq_true hdel, Bool.false_or, Bool.true_and,
              ← decide_not]
            exact decide_eq_decide.mpr ⟨fun h heq => h (Option.some.inj heq).symm, fun h heq => h (heq ▸ rfl)⟩
          show Changes r mountList (none, mountList.filter fun e => e.umountable ≠ path)
          rw [hfilter]
          exact .removed hadd
      · rw [if_neg hdel]
        exact .refused EINVAL

/-! ### Many requests -/

/-- A later request removes the path. -/
def removedLater (later : List UmountRequest) (path : List UInt8) : Bool := later.any fun r => r.removes path

/-- **The entries that were added and not removed later**, the newest first, by the requests that have succeeded. -/
def survivors : List UmountRequest → List MountEntry
  | [] => []
  | r :: later => survivors later ++ (r.adds.filter fun entry => !removedLater later entry.umountable).toList

theorem removedLater_append (later : List UmountRequest) (r : UmountRequest) (path : List UInt8) :
    removedLater (later ++ [r]) path = (removedLater later path || r.removes path) := by
  rw [removedLater, List.any_append, List.any_cons, List.any_nil, Bool.or_false]
  rfl

/-- One more request: what it removes is gone, and what it adds stands in front. -/
theorem survivors_append (requests : List UmountRequest) (r : UmountRequest) :
    survivors (requests ++ [r]) =
      r.adds.toList ++ (survivors requests).filter fun e => !r.removes e.umountable := by
  induction requests with
  | nil =>
    show survivors [] ++ (r.adds.filter fun entry => !removedLater [] entry.umountable).toList = _
    have hall : r.adds.filter (fun entry => !removedLater [] entry.umountable) = r.adds := by
      cases r.adds <;> rfl
    rw [hall, survivors, List.filter_nil, List.append_nil]
    rfl
  | cons r' later ih =>
    rw [List.cons_append, survivors, ih, survivors, List.filter_append, List.append_assoc]
    congr 2
    cases hadded : r'.adds with
    | none => rfl
    | some entry =>
      have hlater := removedLater_append later r entry.umountable
      simp only [Option.filter_some, hlater]
      cases hearlier : removedLater later entry.umountable with
      | true => rfl
      | false =>
        cases hlast : r.removes entry.umountable with
        | true =>
          show [] = [entry].filter _
          rw [List.filter_cons_of_neg (by rw [hlast]; decide), List.filter_nil]
        | false =>
          show [entry] = [entry].filter _
          rw [List.filter_cons_of_pos (by rw [hlast]; decide), List.filter_nil]

/-- An addition removes nothing. -/
theorem UmountRequest.removes_of_adds {r : UmountRequest} {entry : MountEntry} (h : r.adds = some entry)
    (path : List UInt8) : r.removes path = false := by
  rw [UmountRequest.adds] at h
  split_ifs at h with hmode
  rw [UmountRequest.removes, hmode]
  rfl

theorem UmountRequest.adds_wellFormed {r : UmountRequest} {entry : MountEntry} (h : r.adds = some entry) :
    entry.umountable ≠ [] ∧ entry.umountable.length ≤ 255 ∧ 0 ∉ entry.umountable := by
  rw [UmountRequest.adds] at h
  split_ifs at h
  obtain ⟨path, hpath, rfl⟩ := Option.map_eq_some_iff.mp h
  exact UmountRequest.path_wellFormed hpath

/-- The list that requests leave: what they should leave, each path once. -/
structure MountListInv (requests : List UmountRequest) (mountList : List MountEntry) : Prop where
  eq : mountList = survivors requests
  distinct : (mountList.map MountEntry.umountable).Nodup
  wellFormed : ∀ e ∈ mountList, e.umountable ≠ [] ∧ e.umountable.length ≤ 255 ∧ 0 ∉ e.umountable

theorem MountListInv.init : MountListInv [] [] := ⟨rfl, List.nodup_nil, List.forall_mem_nil _⟩

/-- The requests after one more, which counts if it has succeeded. -/
def noteUmount (requests : List UmountRequest) (r : UmountRequest) (result : Option Errno) : List UmountRequest :=
  if result = none then requests ++ [r] else requests

/-- **One request** keeps the invariant. -/
theorem MountListInv.step {requests : List UmountRequest} {mountList : List MountEntry}
    (h : MountListInv requests mountList) (r : UmountRequest) :
    MountListInv (noteUmount requests r (addTryUmount r mountList).1) (addTryUmount r mountList).2 := by
  have hchanges := addTryUmount_changes r mountList
  revert hchanges
  generalize addTryUmount r mountList = result
  intro hchanges
  cases hchanges with
  | refused e => exact h
  | added entry hadds hnew =>
    refine ⟨?_, ?_, ?_⟩
    · have hkept : mountList.filter (fun e => !r.removes e.umountable) = mountList := by
        apply List.filter_eq_self.mpr
        intro e _
        rw [UmountRequest.removes_of_adds hadds]
        rfl
      show entry :: mountList = survivors (requests ++ [r])
      rw [survivors_append, ← h.eq, hadds, hkept]
      rfl
    · rw [List.map_cons, List.nodup_cons]
      refine ⟨fun hmem => ?_, h.distinct⟩
      obtain ⟨e, he, heq⟩ := List.mem_map.mp hmem
      exact hnew e he heq
    · exact List.forall_mem_cons.mpr ⟨UmountRequest.adds_wellFormed hadds, h.wellFormed⟩
  | removed hmode =>
    refine ⟨?_, h.distinct.sublist (List.filter_sublist.map _), fun e he => h.wellFormed e (List.mem_of_mem_filter he)⟩
    have hnone : r.adds = none := if_neg hmode
    show mountList.filter _ = survivors (requests ++ [r])
    rw [survivors_append, ← h.eq, hnone]
    rfl

end KernelSU.Supercall
