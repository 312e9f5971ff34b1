import Mathlib.Data.List.TakeWhile
import KernelSU.Manager.ThroneTracker

/-!
# Which profiles survive `track_throne`

* `readLines_spec` — **PROVED**: what the loop has read is the lines up to the first one that does not end
  or does not parse;
* `mem_trackThrone` — **PROVED**: a profile survives exactly if its uid is reserved or such a line names it;
* `trackThrone_keepsInstalled_iff` — **PROVED**: when no installed app loses its profile.
-/

namespace KernelSU.Manager

open KernelSU.Lib KernelSU.Lib.Bytes KernelSU.Policy AppProfile AllowlistState

/-! ### Lines -/

/-- A line starts here. -/
def LineStart (file : List UInt8) (start : ℕ) : Prop :=
  start = 0 ∨ ∃ i, start = i + 1 ∧ file[i]? = some NEWLINE

/-- The line that starts here, without its newline. -/
def lineAt (file : List UInt8) (start : ℕ) : List UInt8 := (file.drop start).takeWhile (· != NEWLINE)

/-- A newline ends the line that starts here. -/
def LineEnds (file : List UInt8) (start : ℕ) : Prop := NEWLINE ∈ file.drop start

/-- A line is a package, a space, a decimal uid and, after another space, anything. -/
def WellFormedLine (line package : List UInt8) (uid : UInt32) : Prop :=
  ∃ digits tail, line = package ++ SPACE :: (digits ++ tail) ∧ SPACE ∉ package ∧
    digits ≠ [] ∧ (∀ c ∈ digits, isDigit c = true) ∧ decimal digits = uid.toNat ∧
    (tail = [] ∨ tail.head? = some SPACE)

/-- A well-formed line of the file names this uid and package. -/
def Installed (file : List UInt8) (uid : UInt32) (package : List UInt8) : Prop :=
  ∃ start, LineStart file start ∧ WellFormedLine (lineAt file start) package uid

/-- A line that ends, and up to which every line parses in its window, parses to this uid and package. -/
def ReadFrom (file : List UInt8) (first : ℕ) (data : UidData) : Prop :=
  ∃ start, first ≤ start ∧ LineStart file start ∧ LineEnds file start ∧
    (∀ j, first ≤ j → j ≤ start → LineStart file j → (parseLine (lineBuf file j)).isSome) ∧
    parseLine (lineBuf file start) = some data

/-! ### The loop -/

theorem readLines_end {file : List UInt8} {kzallocSucceeds : ℕ → Bool} {pos lineStart : ℕ}
    {uidList : List UidData} (h : file[pos]? = none) :
    readLines file kzallocSucceeds pos lineStart uidList = some uidList := by
  rw [readLines]
  split
  · rfl
  · next chr hchr => rw [h] at hchr; exact absurd hchr (by simp)

theorem readLines_skip {file : List UInt8} {kzallocSucceeds : ℕ → Bool} {pos lineStart : ℕ}
    {uidList : List UidData} {chr : UInt8} (h : file[pos]? = some chr) (hchr : chr ≠ NEWLINE) :
    readLines file kzallocSucceeds pos lineStart uidList =
      readLines file kzallocSucceeds (pos + 1) lineStart uidList := by
  rw [readLines]
  split
  · next hnone => rw [h] at hnone; exact absurd hnone (by simp)
  · next chr' hsome =>
    obtain rfl : chr = chr' := Option.some.inj (h.symm.trans hsome)
    rw [if_pos hchr]

/-- What follows a line: nothing, or its newline. -/
theorem drop_eq_lineAt (file : List UInt8) (start : ℕ) :
    ∃ rest, file.drop start = lineAt file start ++ rest ∧ (rest = [] ∨ rest.head? = some NEWLINE) := by
  refine ⟨(file.drop start).dropWhile (· != NEWLINE), List.takeWhile_append_dropWhile.symm, ?_⟩
  have hhead := List.head?_dropWhile_not (· != NEWLINE) (file.drop start)
  cases hrest : (file.drop start).dropWhile (· != NEWLINE) with
  | nil => exact .inl rfl
  | cons c cs =>
    rw [hrest] at hhead
    exact .inr (by simpa using hhead)

theorem ne_newline_of_mem {file : List UInt8} {start : ℕ} {c : UInt8} (h : c ∈ lineAt file start) :
    c ≠ NEWLINE := by
  have hc := @List.mem_takeWhile_imp _ (· != NEWLINE) (file.drop start) c h
  simpa using hc

theorem getElem?_lineAt {file : List UInt8} {start k : ℕ} (hk : k < (lineAt file start).length) :
    ∃ c, file[start + k]? = some c ∧ c ≠ NEWLINE := by
  obtain ⟨rest, hdrop, -⟩ := drop_eq_lineAt file start
  have hline : (lineAt file start)[k]? = some (lineAt file start)[k] := List.getElem?_eq_getElem hk
  refine ⟨(lineAt file start)[k], ?_, ne_newline_of_mem (List.getElem_mem hk)⟩
  rw [← List.getElem?_drop, hdrop, List.getElem?_append_left hk, hline]

/-- The bytes of a line are passed over. -/
theorem readLines_skipLine {file : List UInt8} {kzallocSucceeds : ℕ → Bool} {uidList : List UidData}
    (lineStart : ℕ) :
    readLines file kzallocSucceeds lineStart lineStart uidList =
      readLines file kzallocSucceeds (lineStart + (lineAt file lineStart).length) lineStart uidList := by
  have hskip : ∀ k ≤ (lineAt file lineStart).length,
      readLines file kzallocSucceeds lineStart lineStart uidList =
        readLines file kzallocSucceeds (lineStart + k) lineStart uidList := by
    intro k
    induction k with
    | zero => exact fun _ => rfl
    | succ k ih =>
      intro hk
      obtain ⟨c, hget, hne⟩ := getElem?_lineAt (show k < (lineAt file lineStart).length by omega)
      rw [ih (by omega), readLines_skip hget hne, Nat.add_assoc]
  exact hskip _ le_rfl

/-- A line that ends does so right behind its bytes. -/
theorem lineEnds_iff {file : List UInt8} {start : ℕ} :
    LineEnds file start ↔ file[start + (lineAt file start).length]? = some NEWLINE := by
  obtain ⟨rest, hdrop, hrest⟩ := drop_eq_lineAt file start
  have hget : file[start + (lineAt file start).length]? = rest.head? := by
    rw [← List.getElem?_drop, hdrop, List.getElem?_append_right le_rfl, Nat.sub_self, List.head?_eq_getElem?]
  rw [hget, LineEnds, hdrop, List.mem_append]
  constructor
  · rintro (hmem | hmem)
    · exact absurd rfl (ne_newline_of_mem hmem)
    · rcases hrest with rfl | hhead
      · exact absurd hmem (by simp)
      · exact hhead
  · intro hhead
    exact .inr (List.mem_of_mem_head? hhead)

/-- Behind a line that ends the next one starts, and none starts in between. -/
theorem lineStart_next {file : List UInt8} {start : ℕ} (hends : LineEnds file start) :
    LineStart file (start + (lineAt file start).length + 1) ∧
      ∀ j, start < j → LineStart file j → start + (lineAt file start).length + 1 ≤ j := by
  refine ⟨.inr ⟨_, rfl, lineEnds_iff.mp hends⟩, ?_⟩
  rintro j hj (rfl | ⟨i, rfl, hi⟩)
  · omega
  · by_contra hlt
    obtain ⟨k, rfl⟩ : ∃ k, i = start + k := ⟨i - start, by omega⟩
    obtain ⟨c, hget, hne⟩ := getElem?_lineAt (show k < (lineAt file start).length by omega)
    exact hne (Option.some.inj (hget.symm.trans hi))

theorem lineEnds_of_le {file : List UInt8} {i j : ℕ} (hij : i ≤ j) (h : LineEnds file j) :
    LineEnds file i := by
  have hdrop : file.drop j = (file.drop i).drop (j - i) := by
    rw [List.drop_drop, Nat.add_sub_cancel' hij]
  exact List.mem_of_mem_drop (hdrop ▸ h : NEWLINE ∈ (file.drop i).drop (j - i))

/-- A read from the start of a line that ends is not empty. -/
theorem kernelRead_ne_nil {file : List UInt8} {start : ℕ} (hends : LineEnds file start) :
    kernelRead file (KSU_MAX_PACKAGE_NAME - 1) start ≠ [] := by
  have hlt := (List.getElem?_eq_some_iff.mp (lineEnds_iff.mp hends)).1
  intro hnil
  have hlen : (kernelRead file (KSU_MAX_PACKAGE_NAME - 1) start).length = 0 := by rw [hnil]; rfl
  rw [kernelRead, slice_length] at hlen
  simp only [KSU_MAX_PACKAGE_NAME] at hlen
  omega

/-- The turn of the loop at a newline. -/
theorem readLines_newline {file : List UInt8} {kzallocSucceeds : ℕ → Bool}
    (halloc : ∀ k, kzallocSucceeds k = true) {pos lineStart : ℕ} {uidList : List UidData}
    (h : file[pos]? = some NEWLINE) (hends : LineEnds file lineStart) :
    readLines file kzallocSucceeds pos lineStart uidList =
      match parseLine (lineBuf file lineStart) with
      | none => some uidList
      | some data => readLines file kzallocSucceeds (pos + 1) (pos + 1) (uidList ++ [data]) := by
  rw [readLines]
  split
  · next hnone => rw [h] at hnone; exact absurd hnone (by simp)
  · next chr hsome =>
    obtain rfl : NEWLINE = chr := Option.some.inj (h.symm.trans hsome)
    rw [if_neg (not_not.mpr rfl), if_neg (kernelRead_ne_nil hends)]
    refine (if_neg (by simp [halloc])).trans ?_
    cases parseLine (lineBuf file lineStart) <;> rfl

/-- **What the loop reads.**  From the start of a line on, exactly the lines that end, as long as every line
so far parses. -/
theorem readLines_spec {file : List UInt8} {kzallocSucceeds : ℕ → Bool}
    (halloc : ∀ k, kzallocSucceeds k = true) (first : ℕ) (hfirst : LineStart file first)
    (uidList : List UidData) :
    ∃ read, readLines file kzallocSucceeds first first uidList = some (uidList ++ read) ∧
      ∀ data, data ∈ read ↔ ReadFrom file first data := by
  induction hn : file.length - first using Nat.strong_induction_on generalizing first uidList with
  | _ n ih =>
    by_cases hends : LineEnds file first
    case neg =>
      have hend : file[first + (lineAt file first).length]? = none := by
        obtain ⟨rest, hdrop, hrest⟩ := drop_eq_lineAt file first
        rcases hrest with rfl | hhead
        · rw [← List.getElem?_drop, hdrop, List.append_nil, List.getElem?_eq_none le_rfl]
        · have hmem : NEWLINE ∈ lineAt file first ++ rest :=
            List.mem_append_right _ (List.mem_of_mem_head? hhead)
          exact absurd (by rw [LineEnds, hdrop]; exact hmem) hends
      refine ⟨[], by rw [readLines_skipLine, readLines_end hend, List.append_nil], fun data => ?_⟩
      constructor
      · exact fun h => absurd h (by simp)
      · rintro ⟨start, hle, -, hstart, -⟩
        exact absurd (lineEnds_of_le hle hstart) hends
    case pos =>
      have hnewline := lineEnds_iff.mp hends
      have hlt := (List.getElem?_eq_some_iff.mp hnewline).1
      obtain ⟨hnext, hbetween⟩ := lineStart_next hends
      rw [readLines_skipLine, readLines_newline halloc hnewline hends]
      cases hparse : parseLine (lineBuf file first) with
      | none =>
        refine ⟨[], by simp, fun data => ?_⟩
        constructor
        · exact fun h => absurd h (by simp)
        · rintro ⟨start, hle, -, -, hall, -⟩
          exact absurd (hall first le_rfl hle hfirst) (by simp [hparse])
      | some firstData =>
        obtain ⟨read, hread, hmem⟩ := ih _ (by omega) _ hnext (uidList ++ [firstData]) rfl
        refine ⟨firstData :: read, by simpa using hread, fun data => ?_⟩
        rw [List.mem_cons, hmem]
        constructor
        · rintro (rfl | ⟨start, hle, hstart, hends', hall, hdata⟩)
          · refine ⟨first, le_rfl, hfirst, hends, fun j hj hj' _ => ?_, hparse⟩
            obtain rfl : j = first := by omega
            simp [hparse]
          · refine ⟨start, by omega, hstart, hends', fun j hj hj' hline => ?_, hdata⟩
            rcases Nat.eq_or_lt_of_le hj with rfl | hj
            · simp [hparse]
            · exact hall j (hbetween j hj hline) hj' hline
        · rintro ⟨start, hle, hstart, hends', hall, hdata⟩
          rcases Nat.eq_or_lt_of_le hle with rfl | hlt'
          · exact .inl (Option.some.inj (hdata.symm.trans hparse))
          · exact .inr ⟨start, hbetween start hlt' hstart, hstart, hends',
              fun j hj hj' => hall j (by omega) hj', hdata⟩

/-! ### The predicate -/

theorem zero_notMem_cString (bs : List UInt8) : 0 ∉ cString bs := by
  intro h
  have hc := @List.mem_takeWhile_imp _ (· != 0) bs 0 h
  simp at hc

theorem cString_of_notMem {bs : List UInt8} (h : 0 ∉ bs) : cString bs = bs := by
  rw [cString, List.takeWhile_eq_self_iff]
  intro c hc
  rw [bne_iff_ne]
  rintro rfl
  exact h hc

/-- A token is part of what was split. -/
theorem strsep_subset {s token : List UInt8} {delim : UInt8} (h : (strsep (some s) delim).1 = some token) :
    token ⊆ s := by
  simp only [strsep] at h
  split at h
  · obtain rfl : s.takeWhile (· != delim) = token := Option.some.inj h
    exact List.takeWhile_subset _
  · obtain rfl : s = token := Option.some.inj h
    exact List.Subset.refl _

/-- A package that was read is a string that fits `package`. -/
theorem parseLine_package {buf : List UInt8} {data : UidData} (h : parseLine buf = some data)
    (hbuf : 0 ∉ buf) : 0 ∉ data.package ∧ data.package.length ≤ 255 := by
  simp only [parseLine] at h
  split at h
  · next uid package _ hpackage =>
    obtain ⟨res, -, rfl⟩ := Option.map_eq_some_iff.mp h
    refine ⟨fun h0 => hbuf (strsep_subset hpackage (List.mem_of_mem_take h0)), ?_⟩
    rw [List.length_take]
    omega
  · exact absurd h (by simp)

/-- Strings that fit are compared whole. -/
theorem strncmpEq_iff {package key : List UInt8} (hzero : 0 ∉ package) (hlen : package.length ≤ 255)
    (hkey : key.length = KSU_MAX_PACKAGE_NAME) :
    strncmpEq package key KSU_MAX_PACKAGE_NAME = true ↔ package = cString key := by
  have hle : (cString key).length ≤ key.length := (List.takeWhile_sublist _).length_le
  have hmax : KSU_MAX_PACKAGE_NAME = 256 := rfl
  rw [strncmpEq, decide_eq_true_eq, cString_of_notMem hzero, List.take_of_length_le (by omega),
    List.take_of_length_le (by omega)]

theorem length_key (p : AppProfile) : p.key.length = KSU_MAX_PACKAGE_NAME :=
  p.field_length (by decide)

/-- **Who survives.**  With reads and allocations succeeding and the boot completed, a profile survives
exactly if its uid is the reserved one or the loop has read its uid and package. -/
theorem mem_trackThrone {env : ThroneEnv} (hboot : env.bootCompleted = true)
    (halloc : ∀ k, env.kzallocSucceeds k = true) (pruneOnly : Bool) (file : List UInt8)
    (s : ThroneState) (p : AppProfile) :
    p ∈ (trackThrone env pruneOnly (some file) s).allowlist.allowList.entries ↔
      p ∈ s.allowlist.allowList.entries ∧
        (p.currUid = KSU_APP_PROFILE_PRESERVE_UID ∨
          ReadFrom file 0 ⟨p.currUid % KSU_PER_USER_RANGE, cString p.key⟩) := by
  obtain ⟨read, hread, hmem⟩ := readLines_spec halloc 0 (.inl rfl) ([] : List UidData)
  have hexist : isUidExist read p.currUid p.key = true ↔
      ReadFrom file 0 ⟨p.currUid % KSU_PER_USER_RANGE, cString p.key⟩ := by
    rw [← hmem, isUidExist, List.any_eq_true]
    constructor
    · rintro ⟨np, hnp, hmatch⟩
      obtain ⟨start, -, -, -, -, hparse⟩ := (hmem np).mp hnp
      obtain ⟨hzero, hlen⟩ := parseLine_package hparse (zero_notMem_cString _)
      rw [Bool.and_eq_true, decide_eq_true_eq, strncmpEq_iff hzero hlen (length_key p)] at hmatch
      rw [← hmatch.1, ← hmatch.2]
      exact hnp
    · intro hnp
      obtain ⟨start, -, -, -, -, hparse⟩ := (hmem _).mp hnp
      obtain ⟨hzero, hlen⟩ := parseLine_package hparse (zero_notMem_cString _)
      refine ⟨_, hnp, ?_⟩
      rw [Bool.and_eq_true, decide_eq_true_eq, strncmpEq_iff hzero hlen (length_key p)]
      exact ⟨rfl, rfl⟩
  have hstate : (trackThrone env pruneOnly (some file) s).allowlist.allowList =
      s.allowlist.allowList.keep (kept (isUidExist read)) := by
    rw [trackThrone]
    simp only [hread, List.nil_append, pruneAllowlist, hboot, if_true]
  rw [hstate, HashTable.entries_keep, List.mem_filter, kept, Bool.or_eq_true, decide_eq_true_eq, hexist]

/-! ### Installed apps -/

/-- Every profile that a well-formed line names is in the allowlist afterwards. -/
def KeepsInstalled (env : ThroneEnv) (pruneOnly : Bool) (file : List UInt8) (s : ThroneState) : Prop :=
  ∀ p ∈ s.allowlist.allowList.entries,
    Installed file (p.currUid % KSU_PER_USER_RANGE) (cString p.key) →
      p ∈ (trackThrone env pruneOnly (some file) s).allowlist.allowList.entries

/-- **When no installed app loses its profile.**  Exactly if each one's line, and every line before it, ends
and parses in its window, and its own gives its uid and package. -/
theorem trackThrone_keepsInstalled_iff {env : ThroneEnv} (hboot : env.bootCompleted = true)
    (halloc : ∀ k, env.kzallocSucceeds k = true) (pruneOnly : Bool) (file : List UInt8)
    (s : ThroneState) :
    KeepsInstalled env pruneOnly file s ↔
      ∀ p ∈ s.allowlist.allowList.entries,
        Installed file (p.currUid % KSU_PER_USER_RANGE) (cString p.key) →
          p.currUid = KSU_APP_PROFILE_PRESERVE_UID ∨
            ReadFrom file 0 ⟨p.currUid % KSU_PER_USER_RANGE, cString p.key⟩ := by
  constructor
  · intro hkeeps p hp hinstalled
    exact ((mem_trackThrone hboot halloc pruneOnly file s p).mp (hkeeps p hp hinstalled)).2
  · intro hread p hp hinstalled
    exact (mem_trackThrone hboot halloc pruneOnly file s p).mpr ⟨hp, hread p hp hinstalled⟩

/-- A completed boot with memory to spare and no manager to be found. -/
def plainEnv : ThroneEnv where
  bootCompleted := true
  kzallocSucceeds := fun _ => true
  searchManager := fun _ managerAppid => managerAppid

/-- Two packages, each on a line of three fields. -/
def twoPackages : List UInt8 := "b 10124 0\na 10123 0\n".toUTF8.data.toList

/-- A package behind a line whose second field is not a number. -/
def brokenFirst : List UInt8 := "b x\na 10123 0\n".toUTF8.data.toList

/-- The allowlist after a profile for the package `a` was set. -/
theorem reaches_a : ∃ trace s, (allowlist hash32).Reaches trace s ∧ s.allowList.entries ≠ [] ∧
    ∀ p ∈ s.allowList.entries, p.currUid = 10123 ∧ cString p.key = [97] := by
  obtain ⟨⟨trace, s⟩, hrun⟩ : ∃ r, (allowlist hash32).runFrom AllowlistState.init
      [.setAppProfile (some (rootedProfile 97 10123)) true] = some r :=
    Option.isSome_iff_exists.mp (by decide +kernel)
  have hentry : ((allowlist hash32).runFrom AllowlistState.init
      [.setAppProfile (some (rootedProfile 97 10123)) true]).map (fun r =>
        !r.2.allowList.entries.isEmpty &&
          r.2.allowList.entries.all fun p => p.currUid = 10123 && cString p.key = [97]) = some true := by
    decide +kernel
  rw [hrun, Option.map_some, Option.some_inj, Bool.and_eq_true, List.all_eq_true] at hentry
  refine ⟨trace, s, .of_run hrun, ?_, fun p hp => ?_⟩
  · simpa using hentry.1
  · simpa using hentry.2 p hp

/-- With every line in order the profile stays. -/
theorem trackThrone_keepsInstalled_twoPackages : ∃ trace s, (allowlist hash32).Reaches trace s ∧
    s.allowList.entries ≠ [] ∧ KeepsInstalled plainEnv false twoPackages ⟨s, 10001⟩ := by
  obtain ⟨trace, s, hreaches, hne, hall⟩ := reaches_a
  have hread : ReadFrom twoPackages 0 ⟨10123, [97]⟩ := by
    refine ⟨10, by omega, .inr ⟨9, rfl, by decide +kernel⟩, by unfold LineEnds; decide +kernel, ?_,
      by decide +kernel⟩
    rintro j - hj (rfl | ⟨i, rfl, hi⟩)
    · decide +kernel
    · have hnine : ∀ i < 10, twoPackages[i]? = some NEWLINE → i = 9 := by decide +kernel
      obtain rfl := hnine i (by omega) hi
      decide +kernel
  refine ⟨trace, s, hreaches, hne,
    (trackThrone_keepsInstalled_iff rfl (fun _ => rfl) false twoPackages ⟨s, 10001⟩).mpr ?_⟩
  intro p hp _
  rw [(hall p hp).1, (hall p hp).2]
  exact .inr hread

/-- **A malformed line costs an installed app its profile.** -/
theorem trackThrone_revokes : ∃ trace s, (allowlist hash32).Reaches trace s ∧
    ¬KeepsInstalled plainEnv false brokenFirst ⟨s, 10001⟩ := by
  obtain ⟨trace, s, hreaches, hne, hentry⟩ := reaches_a
  obtain ⟨p, hp⟩ := List.exists_mem_of_ne_nil _ hne
  obtain ⟨huid, hkey⟩ := hentry p hp
  refine ⟨trace, s, hreaches, fun hkeeps => ?_⟩
  have hline : WellFormedLine (lineAt brokenFirst 4) [97] 10123 :=
    ⟨[49, 48, 49, 50, 51], [32, 48], by decide +kernel, by decide, by decide,
      List.all_eq_true.mp (by decide), by decide +kernel, .inr rfl⟩
  have hinstalled : Installed brokenFirst (p.currUid % KSU_PER_USER_RANGE) (cString p.key) := by
    rw [huid, hkey]
    exact ⟨4, .inr ⟨3, rfl, by decide +kernel⟩, hline⟩
  have hstays := (mem_trackThrone rfl (fun _ => rfl) false brokenFirst ⟨s, 10001⟩ p).mp
    (hkeeps p hp hinstalled)
  rcases hstays.2 with hpreserved | ⟨start, -, -, -, hall, -⟩
  · rw [huid] at hpreserved
    exact absurd hpreserved (by decide)
  · have hfirst : (parseLine (lineBuf brokenFirst 0)).isSome = false := by decide +kernel
    exact absurd (hall 0 le_rfl (Nat.zero_le _) (.inl rfl)) (by simp [hfirst])

/-! ### Regular lines -/

/-- A line as the system writes it: three fields at least, of which the first two fit the window with the
space behind them. -/
structure RegularLine (file : List UInt8) (start : ℕ) (package digits : List UInt8) : Prop where
  ends : LineEnds file start
  line : ∃ tail, lineAt file start = package ++ SPACE :: (digits ++ SPACE :: tail)
  package_notMem : SPACE ∉ package ∧ 0 ∉ package
  digits_isDigit : digits ≠ [] ∧ ∀ c ∈ digits, isDigit c = true
  uid_lt : decimal digits < 2 ^ 32
  fits : package.length + digits.length ≤ 253

theorem takeWhile_append_stop {α : Type*} {p : α → Bool} {xs : List α} {y : α}
    (hxs : ∀ x ∈ xs, p x = true) (hy : p y = false) (ys : List α) :
    (xs ++ y :: ys).takeWhile p = xs ∧ (xs ++ y :: ys).dropWhile p = y :: ys := by
  rw [List.takeWhile_append_of_pos hxs, List.dropWhile_append_of_pos hxs]
  simp [hy]

theorem strsep_append {token rest : List UInt8} {delim : UInt8} (h : delim ∉ token) :
    strsep (some (token ++ delim :: rest)) delim = (some token, some rest) := by
  have htoken : ∀ c ∈ token, (c != delim) = true := by
    intro c hc
    rw [bne_iff_ne]
    rintro rfl
    exact h hc
  obtain ⟨htake, hdrop⟩ := takeWhile_append_stop htoken (bne_self_eq_false delim) rest
  rw [strsep]
  simp only [List.mem_append, List.mem_cons, true_or, or_true, if_true, htake, hdrop, List.tail_cons]

theorem kstrtou32_digits {digits : List UInt8} (hne : digits ≠ []) (hdigits : ∀ c ∈ digits, isDigit c = true)
    (hlt : decimal digits < 2 ^ 32) : kstrtou32 digits = some (UInt32.ofNat (decimal digits)) := by
  have hplus : digits.head? ≠ some 43 := by
    intro h
    exact absurd (hdigits 43 (List.mem_of_mem_head? h)) (by decide)
  have htake : digits.takeWhile isDigit = digits := List.takeWhile_eq_self_iff.mpr hdigits
  have hdrop : digits.dropWhile isDigit = [] := List.dropWhile_eq_nil_iff.mpr hdigits
  simp only [kstrtou32, if_neg hplus, htake, hdrop, if_neg hne, if_neg (Nat.not_le.mpr hlt), true_or,
    if_true]

theorem isDigit_ne {c : UInt8} (h : isDigit c = true) : c ≠ SPACE ∧ c ≠ 0 := by
  constructor
  · rintro rfl
    exact absurd h (by decide)
  · rintro rfl
    exact absurd h (by decide)

/-- A regular line parses to its uid and package. -/
theorem RegularLine.parseLine {file : List UInt8} {start : ℕ} {package digits : List UInt8}
    (h : RegularLine file start package digits) :
    parseLine (lineBuf file start) = some ⟨UInt32.ofNat (decimal digits), package⟩ := by
  obtain ⟨tail, hline⟩ := h.line
  obtain ⟨after, hdrop, -⟩ := drop_eq_lineAt file start
  have hspace : SPACE ∉ digits := fun hmem => (isDigit_ne (h.digits_isDigit.2 _ hmem)).1 rfl
  -- the window reaches behind the second space, and no NUL comes before it
  have hbuf : ∃ rest, lineBuf file start = package ++ SPACE :: (digits ++ SPACE :: rest) := by
    have hfits := h.fits
    have hzero : ∀ c ∈ package ++ SPACE :: (digits ++ [SPACE]), (c != 0) = true := by
      intro c hc
      rw [bne_iff_ne]
      rintro rfl
      simp only [List.mem_append, List.mem_cons, List.not_mem_nil, or_false] at hc
      rcases hc with hc | hc | hc | hc
      · exact h.package_notMem.2 hc
      · exact absurd hc (by decide)
      · exact (isDigit_ne (h.digits_isDigit.2 _ hc)).2 rfl
      · exact absurd hc (by decide)
    have hwindow : kernelRead file (KSU_MAX_PACKAGE_NAME - 1) start =
        (package ++ SPACE :: (digits ++ [SPACE])) ++
          (tail ++ after).take (253 - package.length - digits.length) := by
      have hsplit : lineAt file start ++ after =
          (package ++ SPACE :: (digits ++ [SPACE])) ++ (tail ++ after) := by
        rw [hline]
        simp
      have hlen : (package ++ SPACE :: (digits ++ [SPACE])).length =
          package.length + digits.length + 2 := by
        simp only [List.length_append, List.length_cons, List.length_nil]
        omega
      rw [kernelRead, slice, hdrop, hsplit, List.take_append, List.take_of_length_le, hlen]
      · congr 2
        simp only [KSU_MAX_PACKAGE_NAME]
        omega
      · rw [hlen]
        simp only [KSU_MAX_PACKAGE_NAME]
        omega
    refine ⟨cString ((tail ++ after).take (253 - package.length - digits.length)), ?_⟩
    rw [lineBuf, hwindow, cString, List.takeWhile_append_of_pos hzero, ← cString]
    simp
  obtain ⟨rest, hbuf⟩ := hbuf
  have hpackage : package.take 255 = package := List.take_of_length_le (by have := h.fits; omega)
  rw [Manager.parseLine, hbuf]
  simp only [strsep_append h.package_notMem.1, strsep_append hspace,
    kstrtou32_digits h.digits_isDigit.1 h.digits_isDigit.2 h.uid_lt, Option.map_some, hpackage]

theorem takeWhile_isDigit {digits rest : List UInt8} (hdigits : ∀ c ∈ digits, isDigit c = true)
    (hrest : rest = [] ∨ rest.head? = some SPACE) : (digits ++ rest).takeWhile isDigit = digits := by
  rw [List.takeWhile_append_of_pos hdigits]
  cases rest with
  | nil => simp
  | cons c cs =>
    obtain rfl : c = SPACE := by simpa using hrest
    have hspace : isDigit SPACE = false := by decide
    simp [hspace]

/-- What a well-formed regular line names is what the loop reads from it. -/
theorem RegularLine.named {file : List UInt8} {start : ℕ} {package digits : List UInt8}
    (h : RegularLine file start package digits) {uid : UInt32} {named : List UInt8}
    (hnamed : WellFormedLine (lineAt file start) named uid) :
    package = named ∧ UInt32.ofNat (decimal digits) = uid := by
  obtain ⟨tail, hline⟩ := h.line
  obtain ⟨digits', tail', hline', hspace', -, hdigits', huid, htail'⟩ := hnamed
  have hsplit : strsep (some (package ++ SPACE :: (digits ++ SPACE :: tail))) SPACE =
      strsep (some (named ++ SPACE :: (digits' ++ tail'))) SPACE := by
    rw [← hline, ← hline']
  rw [strsep_append h.package_notMem.1, strsep_append hspace', Prod.mk.injEq, Option.some_inj,
    Option.some_inj] at hsplit
  have hdigits : digits = digits' := by
    rw [← takeWhile_isDigit h.digits_isDigit.2 (.inr rfl : SPACE :: tail = [] ∨ _), hsplit.2,
      takeWhile_isDigit hdigits' htail']
  refine ⟨hsplit.1, ?_⟩
  rw [hdigits, huid, UInt32.ofNat_toNat]

/-- **A regular file.**  Where every line is regular, no installed app loses its profile. -/
theorem keepsInstalled_of_regular {env : ThroneEnv} (hboot : env.bootCompleted = true)
    (halloc : ∀ k, env.kzallocSucceeds k = true) (pruneOnly : Bool) {file : List UInt8}
    (hregular : ∀ start < file.length, LineStart file start →
      ∃ package digits, RegularLine file start package digits) (s : ThroneState) :
    KeepsInstalled env pruneOnly file s := by
  rintro p hp ⟨start, hstart, hnamed⟩
  have hlt : start < file.length := by
    obtain ⟨digits, tail, hline, -⟩ := hnamed
    by_contra hge
    have hnil : lineAt file start = [] := by
      rw [lineAt, List.drop_eq_nil_of_le (by omega)]
      rfl
    rw [hnil] at hline
    exact absurd hline.symm (by simp)
  obtain ⟨package, digits, hline⟩ := hregular start hlt hstart
  obtain ⟨rfl, huid⟩ := hline.named hnamed
  refine (mem_trackThrone hboot halloc pruneOnly file s p).mpr
    ⟨hp, .inr ⟨start, by omega, hstart, hline.ends, fun j _ hj hjstart => ?_, ?_⟩⟩
  · obtain ⟨package', digits', hline'⟩ := hregular j (by omega) hjstart
    rw [hline'.parseLine]
    rfl
  · rw [hline.parseLine, huid]

end KernelSU.Manager
