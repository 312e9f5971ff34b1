import Mathlib.Data.List.Nodup
import KernelSU.Lib.Text
import KernelSU.Manager.SearchManager

/-!
# What the cache of the search does

* `Walk.visit` — **PROVED**: what a search has opened, allocated and freed, at each point of its walk;
* `visitPath_related` — **PROVED**: the cache knows only APKs that are not the manager's;
* `searchManager_cached` — **PROVED**: after any searches the next one crowns as it does without the cache, opens no
  directory twice and frees its list.
-/

namespace KernelSU.Manager

open KernelSU.Lib KernelSU.Lib.Bytes KernelSU.Policy

/-! ### What a directory adds to the list -/

section Adds

variable {search : Search} {onApk : Path → SearchState → SearchState}

/-- The handling of a `base.apk` leaves the list alone. -/
def KeepsWalk (onApk : Path → SearchState → SearchState) : Prop :=
  ∀ path s, (onApk path s).allocated = s.allocated ∧ (onApk path s).freed = s.freed ∧ (onApk path s).opened = s.opened

/-- What entries of a directory add: some of them, one level below. -/
structure Adds (pos : DataPath) (entries : List DirEntry) (s : SearchState) (r : List DataPath × SearchState) : Prop where
  paths : ∃ added : List DirEntry, added.Sublist entries ∧
    r.1.map (·.dirpath) = added.map fun e => child pos.dirpath e.name
  depth : ∀ a ∈ r.1, a.depth + 1 = pos.depth
  nodes : r.1.map (·.node) = (List.range' s.allocated r.1.length).map some
  allocated : r.2.allocated = s.allocated + r.1.length
  freed : r.2.freed = s.freed
  opened : r.2.opened = s.opened

namespace Adds

variable {pos : DataPath} {entries more : List DirEntry} {s : SearchState} {r : List DataPath × SearchState}

theorem nothing {s' : SearchState} (hallocated : s'.allocated = s.allocated) (hfreed : s'.freed = s.freed)
    (hopened : s'.opened = s.opened) : Adds pos entries s ([], s') where
  paths := ⟨[], List.nil_sublist _, rfl⟩
  depth := fun _ ha => absurd ha List.not_mem_nil
  nodes := rfl
  allocated := hallocated
  freed := hfreed
  opened := hopened

theorem append (h : Adds pos entries s r) {r' : List DataPath × SearchState} (h' : Adds pos more r.2 r') :
    Adds pos (entries ++ more) s (r.1 ++ r'.1, r'.2) where
  paths := by
    obtain ⟨added, hsub, hpaths⟩ := h.paths
    obtain ⟨added', hsub', hpaths'⟩ := h'.paths
    refine ⟨added ++ added', hsub.append hsub', ?_⟩
    rw [List.map_append, List.map_append, hpaths, hpaths']
  depth := by
    intro a ha
    obtain ha | ha := List.mem_append.mp ha
    · exact h.depth a ha
    · exact h'.depth a ha
  nodes := by
    rw [List.map_append, h.nodes, h'.nodes, h.allocated, List.length_append, ← List.map_append, List.range'_append_1]
  allocated := by rw [h'.allocated, h.allocated, List.length_append, Nat.add_assoc]
  freed := h'.freed.trans h.freed
  opened := h'.opened.trans h.opened

end Adds

theorem myActor_adds (hkeep : KeepsWalk onApk) (pos : DataPath) (e : DirEntry) (s : SearchState) :
    Adds pos [e] s (myActor search onApk pos e s).2 := by
  rw [myActor]
  split_ifs with hstop hdots hstaging hlong hdir halloc hname
  · exact .nothing rfl rfl rfl
  · exact .nothing rfl rfl rfl
  · exact .nothing rfl rfl rfl
  · exact .nothing rfl rfl rfl
  · exact
      { paths := ⟨[e], List.Sublist.refl _, rfl⟩
        depth := fun a ha => by
          rw [List.mem_singleton] at ha
          rw [ha]
          exact Nat.sub_add_cancel hdir.2
        nodes := rfl
        allocated := rfl
        freed := rfl
        opened := rfl }
  · exact .nothing rfl rfl rfl
  · obtain ⟨hallocated, hfreed, hopened⟩ := hkeep (child pos.dirpath e.name) s
    exact .nothing hallocated hfreed hopened
  · exact .nothing rfl rfl rfl

theorem iterateDir_adds (hkeep : KeepsWalk onApk) (pos : DataPath) (entries : List DirEntry) (s : SearchState) :
    Adds pos entries s (iterateDir search onApk pos entries s) := by
  induction entries generalizing s with
  | nil => exact .nothing rfl rfl rfl
  | cons e entries ih =>
    have hone : Adds pos [e] s (myActor search onApk pos e s).2 := myActor_adds hkeep pos e s
    rw [iterateDir]
    dsimp only
    split_ifs with hgo
    · exact hone.append (ih _)
    · obtain ⟨added, hsub, hpaths⟩ := hone.paths
      exact { hone with paths := ⟨added, hsub.trans (List.singleton_sublist.mpr List.mem_cons_self), hpaths⟩ }

theorem openDirectory_adds (hkeep : KeepsWalk onApk) (pos : DataPath) (dir : Directory) (s : SearchState) :
    Adds pos dir.entries s (openDirectory search onApk pos dir s) := by
  rw [openDirectory]
  dsimp only
  split_ifs with hnone hmagic hother hother
  · exact .nothing rfl rfl rfl
  · exact .nothing rfl rfl rfl
  · exact { iterateDir_adds hkeep pos dir.entries { s with dataAppMagic := dir.magic } with }
  · exact .nothing rfl rfl rfl
  · exact iterateDir_adds hkeep pos dir.entries s

end Adds

/-- The entries of what is opened under a path. -/
def Search.entriesOf (search : Search) (path : Path) : List DirEntry := (search.filpOpen path).elim [] (·.entries)

theorem Search.entriesOf_distinct (search : Search) (path : Path) :
    ((search.entriesOf path).map (·.name)).Nodup ∧ ∀ e ∈ search.entriesOf path, SLASH ∉ e.name := by
  rw [Search.entriesOf]
  cases search.filpOpen path with
  | none => exact ⟨List.nodup_nil, fun e he => absurd he List.not_mem_nil⟩
  | some dir => exact ⟨dir.distinct, dir.plain⟩

section Visits

variable {search : Search} {onApk : Path → SearchState → SearchState}

/-- A path of the list is passed over, or opened. -/
theorem iteratePath_cases (search : Search) (hkeep : KeepsWalk onApk) (pos : DataPath) (s : SearchState) :
    iteratePath search onApk pos s = ([], s) ∨
      Adds pos (search.entriesOf pos.dirpath) { s with opened := s.opened ++ [pos.dirpath] }
        (iteratePath search onApk pos s) := by
  rw [iteratePath, Search.entriesOf]
  split_ifs with hstop
  · exact .inl rfl
  · cases search.filpOpen pos.dirpath with
    | none => exact .inr (.nothing rfl rfl rfl)
    | some dir => exact .inr (openDirectory_adds hkeep pos dir _)

theorem visitPath_eq (pos : DataPath) (s : SearchState) :
    visitPath search onApk pos s = ((iteratePath search onApk pos s).1,
      { (iteratePath search onApk pos s).2 with freed := (iteratePath search onApk pos s).2.freed ++ pos.node.toList }) := by
  rw [visitPath]
  cases pos.node with
  | none =>
    dsimp only
    rw [Option.toList_none, List.append_nil]
  | some node => rfl

end Visits

/-! ### The walk -/

/-- How many directories there are at most below a path. -/
def Search.size (search : Search) : ℕ → Path → ℕ
  | 0, _ => 1
  | depth + 1, path => 1 + ((search.entriesOf path).map fun e => search.size depth (child path e.name)).sum

theorem child_length (parent : Path) (name : List UInt8) :
    (child parent name).length = parent.length + name.length + 1 := by
  rw [child, List.length_append, List.length_cons, Nat.add_assoc]

/-- A path below a directory tells the directory and the name. -/
theorem child_inj {parent parent' : Path} {name name' : List UInt8} (hname : SLASH ∉ name) (hname' : SLASH ∉ name')
    (h : child parent name = child parent' name') : parent = parent' ∧ name = name' := by
  have hsplit : rsplitOnce SLASH (child parent name) = some (parent, name) := rsplitOnce_append hname parent
  have hsplit' : rsplitOnce SLASH (child parent' name') = some (parent', name') := rsplitOnce_append hname' parent'
  rw [h, hsplit', Option.some.injEq, Prod.mk.injEq] at hsplit
  exact ⟨hsplit.1.symm, hsplit.2.symm⟩

/-- What holds at each point of the walk over the list. -/
structure Walk (root : Path) (list : List DataPath) (s : SearchState) : Prop where
  nodes : s.freed ++ list.filterMap (·.node) = List.range s.allocated
  distinct : (s.opened ++ list.map (·.dirpath)).Nodup
  below : ∀ q ∈ s.opened ++ list.map (·.dirpath),
    q = root ∨ ∃ parent ∈ s.opened, ∃ name, SLASH ∉ name ∧ q = child parent name
  long : ∀ q ∈ s.opened ++ list.map (·.dirpath), root.length ≤ q.length

namespace Walk

variable {search : Search} {onApk : Path → SearchState → SearchState} {root : Path} {pos : DataPath}
  {rest : List DataPath} {s : SearchState}

/-- **A visit** of the first entry of the list. -/
theorem visit (hkeep : KeepsWalk onApk) (h : Walk root (pos :: rest) s) :
    Walk root (rest ++ (visitPath search onApk pos s).1) (visitPath search onApk pos s).2 := by
  have hnodes : s.freed ++ (pos.node.toList ++ rest.filterMap (·.node)) = List.range s.allocated := by
    rw [← h.nodes]
    cases hnode : pos.node with
    | none => rw [List.filterMap_cons_none hnode, Option.toList_none, List.nil_append]
    | some node => rw [List.filterMap_cons_some hnode, Option.toList_some, List.singleton_append]
  have hpos := h.distinct
  rw [List.map_cons] at hpos
  rw [visitPath_eq]
  obtain hskip | hadds := iteratePath_cases search hkeep pos s
  · rw [hskip]
    have hsub : (s.opened ++ rest.map (·.dirpath)).Sublist (s.opened ++ (pos :: rest).map (·.dirpath)) :=
      (List.Sublist.refl _).append (List.sublist_cons_self _ _)
    constructor
    case nodes => rw [List.append_nil, List.append_assoc, hnodes]
    case distinct =>
      rw [List.append_nil]
      exact h.distinct.sublist hsub
    case below =>
      rw [List.append_nil]
      exact fun q hq => h.below q (hsub.subset hq)
    case long =>
      rw [List.append_nil]
      exact fun q hq => h.long q (hsub.subset hq)
  · generalize iteratePath search onApk pos s = r at hadds
    obtain ⟨added, hsub, hpaths⟩ := hadds.paths
    obtain ⟨hnames, hplain⟩ := search.entriesOf_distinct pos.dirpath
    have hmem : ∀ q, q ∈ r.2.opened ++ (rest ++ r.1).map (·.dirpath) ↔
        q ∈ s.opened ++ (pos :: rest).map (·.dirpath) ∨ q ∈ added.map fun e => child pos.dirpath e.name := by
      intro q
      rw [hadds.opened, List.map_append, hpaths, List.map_cons]
      simp only [List.mem_append, List.mem_cons, List.not_mem_nil, or_false, or_assoc]
    have hposmem : pos.dirpath ∈ s.opened ++ (pos :: rest).map (·.dirpath) :=
      List.mem_append_right _ List.mem_cons_self
    have hnew : pos.dirpath ∉ s.opened := fun hin => (List.nodup_append.mp h.distinct).2.2 _ hin _ List.mem_cons_self rfl
    constructor
    case nodes =>
      have hadded : r.1.filterMap (·.node) = List.range' s.allocated r.1.length := by
        have hsome := congrArg (List.filterMap id) hadds.nodes
        rw [List.filterMap_map, List.filterMap_map] at hsome
        rwa [show (id ∘ some : ℕ → Option ℕ) = some from rfl, List.filterMap_some] at hsome
      have hfreed : r.2.freed = s.freed := hadds.freed
      have hallocated : r.2.allocated = s.allocated + r.1.length := hadds.allocated
      rw [hfreed, List.filterMap_append, hadded, List.append_assoc, ← List.append_assoc pos.node.toList,
        ← List.append_assoc s.freed, hnodes, hallocated, List.range_eq_range', List.range_eq_range']
      have hjoin := List.range'_append_1 (s := 0) (m := s.allocated) (n := r.1.length)
      rwa [Nat.zero_add] at hjoin
    case distinct =>
      have hall : r.2.opened ++ (rest ++ r.1).map (·.dirpath) =
          s.opened ++ (pos :: rest).map (·.dirpath) ++ added.map fun e => child pos.dirpath e.name := by
        rw [hadds.opened, List.map_append, hpaths, List.map_cons, List.append_assoc, List.append_assoc]
        rfl
      show (r.2.opened ++ (rest ++ r.1).map (·.dirpath)).Nodup
      rw [hall, List.nodup_append]
      refine ⟨h.distinct, ?_, fun q hq q' hq' hsame => ?_⟩
      · have hchildren := (hnames.sublist (hsub.map _)).map (f := child pos.dirpath) fun a b hab =>
          (List.cons.inj (List.append_cancel_left hab)).2
        rwa [List.map_map] at hchildren
      · -- A path that was there is the root, or below a directory that was opened earlier.
        obtain ⟨e, he, rfl⟩ := List.mem_map.mp hq'
        obtain hroot | ⟨parent, hparent, name, hname, hchild⟩ := h.below q hq
        · have hlong := h.long _ hposmem
          have hlength := congrArg List.length (hroot.symm.trans hsame)
          rw [child_length] at hlength
          omega
        · have hparents := (child_inj hname (hplain e (hsub.subset he)) (hchild.symm.trans hsame)).1
          exact hnew (hparents ▸ hparent)
    case below =>
      intro q hq
      show q = root ∨ ∃ parent ∈ r.2.opened, _
      rw [hadds.opened]
      obtain hq | hq := (hmem q).mp hq
      · obtain hroot | ⟨parent, hparent, hchild⟩ := h.below q hq
        · exact .inl hroot
        · exact .inr ⟨parent, List.mem_append_left _ hparent, hchild⟩
      · obtain ⟨e, he, rfl⟩ := List.mem_map.mp hq
        exact .inr ⟨pos.dirpath, List.mem_append_right _ List.mem_cons_self, e.name, hplain e (hsub.subset he), rfl⟩
    case long =>
      intro q hq
      obtain hq | hq := (hmem q).mp hq
      · exact h.long q hq
      · obtain ⟨e, _, rfl⟩ := List.mem_map.mp hq
        have hlong := h.long _ hposmem
        rw [child_length]
        omega

/-- The walk before the first visit. -/
theorem start (root : Path) (depth : ℕ) (s : SearchState) (hallocated : s.allocated = 0) (hfreed : s.freed = [])
    (hopened : s.opened = []) : Walk root [⟨root, depth, none⟩] s where
  nodes := by
    rw [hallocated, hfreed]
    rfl
  distinct := by
    rw [hopened]
    exact List.nodup_singleton root
  below := by
    intro q hq
    rw [hopened] at hq
    exact .inl (List.mem_singleton.mp hq)
  long := by
    intro q hq
    rw [hopened] at hq
    rw [List.mem_singleton.mp hq]

end Walk

section Bounds

variable {search : Search} {onApk : Path → SearchState → SearchState}

/-- What a visit adds is one level below. -/
theorem visitPath_depth (hkeep : KeepsWalk onApk) (pos : DataPath) (s : SearchState) :
    ∀ a ∈ (visitPath search onApk pos s).1, a.depth < pos.depth := by
  intro a ha
  rw [visitPath_eq] at ha
  obtain hskip | hadds := iteratePath_cases search hkeep pos s
  · rw [hskip] at ha
    exact absurd ha List.not_mem_nil
  · exact Nat.lt_of_succ_le (hadds.depth a ha).le

/-- And it is less than the directory itself. -/
theorem visitPath_size (hkeep : KeepsWalk onApk) (pos : DataPath) (s : SearchState) :
    ((visitPath search onApk pos s).1.map fun a => search.size a.depth a.dirpath).sum <
      search.size pos.depth pos.dirpath := by
  rw [visitPath_eq]
  obtain hskip | hadds := iteratePath_cases search hkeep pos s
  · rw [hskip]
    cases pos.depth with
    | zero => exact Nat.one_pos
    | succ depth => exact Nat.lt_add_right _ Nat.one_pos
  · generalize iteratePath search onApk pos s = r at hadds
    obtain ⟨added, hsub, hpaths⟩ := hadds.paths
    cases hdepth : pos.depth with
    | zero =>
      cases hlist : r.1 with
      | nil => exact Nat.one_pos
      | cons a list =>
        have hlevel := hadds.depth a (hlist ▸ List.mem_cons_self)
        omega
    | succ depth =>
      have hsizes : (r.1.map fun a => search.size a.depth a.dirpath) =
          added.map fun e => search.size depth (child pos.dirpath e.name) := by
        have hfixed : (r.1.map fun a => search.size a.depth a.dirpath) =
            (r.1.map (·.dirpath)).map (search.size depth) := by
          rw [List.map_map]
          apply List.map_congr_left
          intro a ha
          have hlevel := hadds.depth a ha
          rw [Function.comp_apply, show a.depth = depth by omega]
        rw [hfixed, hpaths, List.map_map]
        rfl
      have hsum := (hsub.map fun e => search.size depth (child pos.dirpath e.name)).sum_le_sum fun _ _ => Nat.zero_le _
      show (r.1.map _).sum < 1 + _
      rw [hsizes]
      omega

end Bounds

/-! ### The cache -/

/-- The APKs that occur in the directories of searches. -/
def BaseApkOf (searches : List Search) (path : Path) : Prop :=
  ∃ search ∈ searches, ∃ parent, ∃ e ∈ search.entriesOf parent, e.name = asBytes "base.apk" ∧ path = child parent e.name

section Cache

variable (known : Path → Prop) (fullNameHash : Path → UInt32) (isManagerApk : Path → Bool)

/-- The cache has hashes of APKs that are not the manager's. -/
def CacheOf (cache : List ApkPathHash) : Prop :=
  ∀ a ∈ cache, ∃ path, known path ∧ fullNameHash path = a.hash ∧ isManagerApk path = false

/-- A search with the cache, and the same without. -/
structure Cached (s u : SearchState) : Prop where
  same : u = { s with apkPathHashList := [] }
  cache : CacheOf known fullNameHash isManagerApk s.apkPathHashList

variable {known fullNameHash isManagerApk} {search : Search} {s u : SearchState}

theorem CacheOf.markPresent {cache : List ApkPathHash} (h : CacheOf known fullNameHash isManagerApk cache)
    (hash : UInt32) : CacheOf known fullNameHash isManagerApk (markPresent hash cache) := by
  induction cache with
  | nil => exact h
  | cons pos rest ih =>
    have hpos := h pos List.mem_cons_self
    have hrest : CacheOf known fullNameHash isManagerApk rest := fun a ha => h a (List.mem_cons_of_mem _ ha)
    rw [Manager.markPresent]
    split_ifs
    · intro a ha
      obtain rfl | ha := List.mem_cons.mp ha
      · exact hpos
      · exact hrest a ha
    · intro a ha
      obtain rfl | ha := List.mem_cons.mp ha
      · exact hpos
      · exact ih hrest a ha

/-- **A `base.apk`**: what the cache knows is not the manager's. -/
theorem baseApk_related (hinj : ∀ p q, known p → known q → fullNameHash p = fullNameHash q → p = q) {path : Path}
    (hpath : known path) (h : Cached known fullNameHash isManagerApk s u) :
    Cached known fullNameHash isManagerApk (baseApk fullNameHash isManagerApk search path s)
      (baseApkUncached isManagerApk search path u) := by
  obtain ⟨rfl, hcache⟩ := h
  rw [baseApk, baseApkUncached]
  split_ifs with hhit hmanager hmanager halloc
  · obtain ⟨a, ha, hhash⟩ := List.any_eq_true.mp hhit
    obtain ⟨path', hpath', hhash', hother⟩ := hcache a ha
    rw [hinj path path' hpath hpath' ((beq_iff_eq.mp hhash).trans hhash'.symm), hother] at hmanager
    exact absurd hmanager Bool.false_ne_true
  · exact ⟨rfl, hcache.markPresent _⟩
  · exact ⟨rfl, fun a ha => absurd ha List.not_mem_nil⟩
  · refine ⟨rfl, fun a ha => ?_⟩
    obtain ha | ha := List.mem_append.mp ha
    · exact hcache a ha
    · rw [List.mem_singleton.mp ha]
      exact ⟨path, hpath, rfl, Bool.eq_false_iff.mpr hmanager⟩
  · exact ⟨rfl, hcache⟩

section Related

variable (hinj : ∀ p q, known p → known q → fullNameHash p = fullNameHash q → p = q)

include hinj

theorem myActor_related (pos : DataPath) {e : DirEntry}
    (he : e.name = asBytes "base.apk" → known (child pos.dirpath e.name))
    (h : Cached known fullNameHash isManagerApk s u) :
    (myActor search (baseApk fullNameHash isManagerApk search) pos e s).1 =
        (myActor search (baseApkUncached isManagerApk search) pos e u).1 ∧
      (myActor search (baseApk fullNameHash isManagerApk search) pos e s).2.1 =
        (myActor search (baseApkUncached isManagerApk search) pos e u).2.1 ∧
      Cached known fullNameHash isManagerApk (myActor search (baseApk fullNameHash isManagerApk search) pos e s).2.2
        (myActor search (baseApkUncached isManagerApk search) pos e u).2.2 := by
  have hsame := h
  obtain ⟨rfl, hcache⟩ := h
  rw [myActor, myActor]
  split_ifs with hstop hdots hstaging hlong hdir halloc hname
  · exact ⟨rfl, rfl, hsame⟩
  · exact ⟨rfl, rfl, hsame⟩
  · exact ⟨rfl, rfl, hsame⟩
  · exact ⟨rfl, rfl, hsame⟩
  · exact ⟨rfl, rfl, rfl, hcache⟩
  · exact ⟨rfl, rfl, rfl, hcache⟩
  · exact ⟨rfl, rfl, baseApk_related hinj (he hname) hsame⟩
  · exact ⟨rfl, rfl, hsame⟩

theorem iterateDir_related (pos : DataPath) {entries : List DirEntry}
    (hentries : ∀ e ∈ entries, e.name = asBytes "base.apk" → known (child pos.dirpath e.name))
    (h : Cached known fullNameHash isManagerApk s u) :
    (iterateDir search (baseApk fullNameHash isManagerApk search) pos entries s).1 =
        (iterateDir search (baseApkUncached isManagerApk search) pos entries u).1 ∧
      Cached known fullNameHash isManagerApk
        (iterateDir search (baseApk fullNameHash isManagerApk search) pos entries s).2
        (iterateDir search (baseApkUncached isManagerApk search) pos entries u).2 := by
  induction entries generalizing s u with
  | nil => exact ⟨rfl, h⟩
  | cons e entries ih =>
    obtain ⟨hgo, hadded, hnext⟩ := myActor_related hinj pos (hentries e List.mem_cons_self) h
    rw [iterateDir, iterateDir]
    dsimp only
    rw [← hgo]
    split_ifs
    · obtain ⟨hrest, hdone⟩ := ih (fun e' he' => hentries e' (List.mem_cons_of_mem _ he')) hnext
      exact ⟨by rw [hadded, hrest], hdone⟩
    · exact ⟨hadded, hnext⟩

theorem iteratePath_related (hknown : ∀ path, BaseApkOf [search] path → known path) (pos : DataPath)
    (h : Cached known fullNameHash isManagerApk s u) :
    (iteratePath search (baseApk fullNameHash isManagerApk search) pos s).1 =
        (iteratePath search (baseApkUncached isManagerApk search) pos u).1 ∧
      Cached known fullNameHash isManagerApk (iteratePath search (baseApk fullNameHash isManagerApk search) pos s).2
        (iteratePath search (baseApkUncached isManagerApk search) pos u).2 := by
  have hsame := h
  obtain ⟨rfl, hcache⟩ := h
  rw [iteratePath, iteratePath]
  split_ifs with hstop
  · exact ⟨rfl, hsame⟩
  · cases hopen : search.filpOpen pos.dirpath with
    | none => exact ⟨rfl, rfl, hcache⟩
    | some dir =>
      have hentries : ∀ e ∈ dir.entries, e.name = asBytes "base.apk" → known (child pos.dirpath e.name) := by
        intro e he hname
        refine hknown _ ⟨search, List.mem_singleton_self _, pos.dirpath, e, ?_, hname, rfl⟩
        rw [Search.entriesOf, hopen]
        exact he
      dsimp only
      rw [openDirectory, openDirectory]
      dsimp only
      split_ifs
      · exact ⟨rfl, rfl, hcache⟩
      · exact ⟨rfl, rfl, hcache⟩
      · exact iterateDir_related hinj pos hentries ⟨rfl, hcache⟩
      · exact ⟨rfl, rfl, hcache⟩
      · exact iterateDir_related hinj pos hentries ⟨rfl, hcache⟩

/-- **A visit** with the cache and without. -/
theorem visitPath_related (hknown : ∀ path, BaseApkOf [search] path → known path) (pos : DataPath) (s u : SearchState)
    (h : Cached known fullNameHash isManagerApk s u) :
    (visitPath search (baseApk fullNameHash isManagerApk search) pos s).1 =
        (visitPath search (baseApkUncached isManagerApk search) pos u).1 ∧
      Cached known fullNameHash isManagerApk (visitPath search (baseApk fullNameHash isManagerApk search) pos s).2
        (visitPath search (baseApkUncached isManagerApk search) pos u).2 := by
  obtain ⟨hadded, hsame, hcache⟩ := iteratePath_related hinj hknown pos h
  rw [visitPath_eq, visitPath_eq]
  exact ⟨hadded, by rw [hsame], hcache⟩

end Related

end Cache

/-! ### Searches -/

theorem keepsWalk_baseApk (fullNameHash : Path → UInt32) (isManagerApk : Path → Bool) (search : Search) :
    KeepsWalk (baseApk fullNameHash isManagerApk search) := by
  intro path s
  rw [baseApk]
  split_ifs <;> exact ⟨rfl, rfl, rfl⟩

/-- The directories of a search. -/
def Search.total (search : Search) : ℕ := search.size search.depth (search.path.take (DATA_PATH_LEN - 1))

/-- **A search ends**, with its list empty and freed, and opened no directory twice. -/
theorem searchManager_ends {search : Search} {onApk : Path → SearchState → SearchState} (hkeep : KeepsWalk onApk)
    {fuel : ℕ} (hfuel : search.total < fuel) (cache : List ApkPathHash) :
    ∃ s, searchManager search onApk fuel cache = some ([], s) ∧ s.opened.Nodup ∧ s.freed = List.range s.allocated := by
  rw [searchManager]
  dsimp only
  generalize hstart : SearchState.mk _ _ _ _ _ _ _ _ _ = start
  have hwalk : Walk (search.path.take (DATA_PATH_LEN - 1))
      [⟨search.path.take (DATA_PATH_LEN - 1), search.depth, none⟩] start := by
    rw [← hstart]
    exact Walk.start _ _ _ rfl rfl rfl
  have hlevels : ∀ a ∈ [(⟨search.path.take (DATA_PATH_LEN - 1), search.depth, none⟩ : DataPath)],
      a.depth < search.depth + 1 := by
    intro a ha
    rw [List.mem_singleton.mp ha]
    exact Nat.lt_succ_self _
  obtain ⟨s, hrun, hend⟩ := forPasses_spec (visitPath_depth hkeep) (visitPath_size hkeep)
    (fun _ _ _ h => h.visit hkeep) (by rwa [List.map_singleton, List.sum_singleton]) hlevels hwalk
  rw [hrun]
  have hnodes := hend.nodes
  have hdistinct := hend.distinct
  rw [List.filterMap_nil, List.append_nil] at hnodes
  rw [List.map_nil, List.append_nil] at hdistinct
  exact ⟨_, rfl, hdistinct, hnodes⟩

section History

variable {known : Path → Prop} {fullNameHash : Path → UInt32} {isManagerApk : Path → Bool}
  (hinj : ∀ p q, known p → known q → fullNameHash p = fullNameHash q → p = q)

include hinj

/-- **A search** with the cache and without. -/
theorem searchManager_related {search : Search} (hknown : ∀ path, BaseApkOf [search] path → known path) {fuel : ℕ}
    {cache : List ApkPathHash} (hcache : CacheOf known fullNameHash isManagerApk cache) {list : List DataPath}
    {s : SearchState}
    (hrun : searchManager search (baseApk fullNameHash isManagerApk search) fuel cache = some (list, s)) :
    ∃ u, searchManager search (baseApkUncached isManagerApk search) fuel [] = some (list, u) ∧
      Cached known fullNameHash isManagerApk s u := by
  rw [searchManager] at hrun ⊢
  dsimp only at hrun ⊢
  generalize hstart : SearchState.mk (cache.map _) _ _ _ _ _ _ _ _ = start at hrun
  generalize hstart' : SearchState.mk (List.map _ []) _ _ _ _ _ _ _ _ = start'
  have hfirst : Cached known fullNameHash isManagerApk start start' := by
    rw [← hstart, ← hstart']
    refine ⟨rfl, fun a ha => ?_⟩
    obtain ⟨b, hb, rfl⟩ := List.mem_map.mp ha
    exact hcache b hb
  cases hpasses : forPasses (visitPath search (baseApk fullNameHash isManagerApk search)) fuel (search.depth + 1)
      [⟨search.path.take (DATA_PATH_LEN - 1), search.depth, none⟩] start with
  | none =>
    rw [hpasses] at hrun
    cases hrun
  | some r =>
    rw [hpasses] at hrun
    cases hrun
    obtain ⟨u, hrun', hsame, hkept⟩ := forPasses_related (visitPath_related hinj hknown) hfirst hpasses
    rw [hrun', hsame]
    exact ⟨_, rfl, rfl, fun a ha => hkept a (List.mem_of_mem_filter ha)⟩

/-- What earlier searches leave. -/
theorem cacheAfter_of {searches : List Search} (hknown : ∀ path, BaseApkOf searches path → known path) {fuel : ℕ}
    (hfuel : ∀ search ∈ searches, search.total < fuel) {cache : List ApkPathHash}
    (hcache : CacheOf known fullNameHash isManagerApk cache) :
    ∃ cache', cacheAfter fullNameHash isManagerApk fuel searches cache = some cache' ∧
      CacheOf known fullNameHash isManagerApk cache' := by
  induction searches generalizing cache with
  | nil => exact ⟨cache, rfl, hcache⟩
  | cons search searches ih =>
    have hone : ∀ path, BaseApkOf [search] path → known path := by
      intro path hpath
      obtain ⟨x, hx, hocc⟩ := hpath
      exact hknown path ⟨x, List.mem_singleton.mp hx ▸ List.mem_cons_self, hocc⟩
    have hmore : ∀ path, BaseApkOf searches path → known path := by
      intro path hpath
      obtain ⟨x, hx, hocc⟩ := hpath
      exact hknown path ⟨x, List.mem_cons_of_mem _ hx, hocc⟩
    obtain ⟨s, hrun, _⟩ := searchManager_ends (keepsWalk_baseApk fullNameHash isManagerApk search)
      (hfuel search List.mem_cons_self) cache
    obtain ⟨u, _, hcached⟩ := searchManager_related hinj hone hcache hrun
    rw [cacheAfter, hrun]
    exact ih hmore (fun x hx => hfuel x (List.mem_cons_of_mem _ hx)) hcached.cache

end History

/-- **The cache never changes the answer**: after any searches that start with an empty cache, a search ends and crowns
as without the cache, has opened no directory twice, and its list is empty and freed. -/
theorem searchManager_cached (fullNameHash : Path → UInt32) (isManagerApk : Path → Bool) (history : List Search)
    (search : Search) (fuel : ℕ) (hinj : ∀ p q, BaseApkOf (history ++ [search]) p → BaseApkOf (history ++ [search]) q →
      fullNameHash p = fullNameHash q → p = q) (hfuel : ∀ x ∈ history ++ [search], x.total < fuel) :
    ∃ cache s u, cacheAfter fullNameHash isManagerApk fuel history [] = some cache ∧
      searchManager search (baseApk fullNameHash isManagerApk search) fuel cache = some ([], s) ∧
      searchManager search (baseApkUncached isManagerApk search) fuel [] = some ([], u) ∧
      s.managerAppid = u.managerAppid ∧ s.crowned = u.crowned ∧ s.opened.Nodup ∧
      s.freed = List.range s.allocated := by
  have hhistory : ∀ path, BaseApkOf history path → BaseApkOf (history ++ [search]) path := by
    intro path hpath
    obtain ⟨x, hx, hocc⟩ := hpath
    exact ⟨x, List.mem_append_left _ hx, hocc⟩
  have hlast : ∀ path, BaseApkOf [search] path → BaseApkOf (history ++ [search]) path := by
    intro path hpath
    obtain ⟨x, hx, hocc⟩ := hpath
    exact ⟨x, List.mem_append_right _ hx, hocc⟩
  have hempty : CacheOf (BaseApkOf (history ++ [search])) fullNameHash isManagerApk [] :=
    fun a ha => absurd ha List.not_mem_nil
  obtain ⟨cache, hcache, hof⟩ :=
    cacheAfter_of hinj hhistory (fun x hx => hfuel x (List.mem_append_left _ hx)) hempty
  obtain ⟨s, hrun, hopened, hfreed⟩ := searchManager_ends (keepsWalk_baseApk fullNameHash isManagerApk search)
    (hfuel search (List.mem_append_right _ (List.mem_singleton_self _))) cache
  obtain ⟨u, hrun', hsame, _⟩ := searchManager_related hinj hlast hof hrun
  exact ⟨cache, s, u, hcache, hrun, hrun', by rw [hsame], by rw [hsame], hopened, hfreed⟩

/-- The directory of an app. -/
def apkDirectory : Directory := ⟨1, [⟨asBytes "base.apk", false⟩], by decide, by decide +kernel⟩

/-- A search while only another app is there. -/
def beforeManager : Search where
  path := asBytes "/d"
  depth := 1
  uidData := [⟨10123, asBytes "m"⟩]
  managerAppid := 0
  filpOpen := fun path =>
    if path = asBytes "/d" then some ⟨1, [⟨asBytes "x-1", true⟩], by decide, by decide +kernel⟩
    else if path = asBytes "/d/x-1" then some apkDirectory
    else none
  dataKzalloc := fun _ => true
  apkKzalloc := fun _ => true

/-- The search after the manager has been installed. -/
def withManager : Search :=
  { beforeManager with
    filpOpen := fun path =>
      if path = asBytes "/d" then
        some ⟨1, [⟨asBytes "x-1", true⟩, ⟨asBytes "m-2", true⟩], by decide, by decide +kernel⟩
      else if path = asBytes "/d/x-1" ∨ path = asBytes "/d/m-2" then some apkDirectory
      else none }

/-- A hash: the sum of the bytes. -/
def sumHash (path : Path) : UInt32 := UInt32.ofNat (path.map UInt8.toNat).sum

/-- The APK of the manager. -/
def managerApk (path : Path) : Bool := path = asBytes "/d/m-2/base.apk"

theorem baseApkOf_searches {path : Path} (h : BaseApkOf [beforeManager, withManager] path) :
    path = asBytes "/d/x-1/base.apk" ∨ path = asBytes "/d/m-2/base.apk" := by
  obtain ⟨x, hx, parent, e, he, hname, hpath⟩ := h
  have hparent : parent = asBytes "/d/x-1" ∨ parent = asBytes "/d/m-2" := by
    by_contra hneither
    obtain ⟨hother, hmanager⟩ := not_or.mp hneither
    have hdirs : e.name = asBytes "x-1" ∨ e.name = asBytes "m-2" := by
      simp only [List.mem_cons, List.not_mem_nil, or_false] at hx
      rcases hx with rfl | rfl
      · rw [Search.entriesOf, beforeManager] at he
        dsimp only at he
        rw [if_neg hother] at he
        split_ifs at he
        · exact .inl (congrArg DirEntry.name (List.mem_singleton.mp he))
        · exact absurd he List.not_mem_nil
      · rw [Search.entriesOf, withManager] at he
        dsimp only at he
        rw [if_neg hneither] at he
        split_ifs at he
        · rcases List.mem_cons.mp he with rfl | he
          · exact .inl rfl
          · exact .inr (congrArg DirEntry.name (List.mem_singleton.mp he))
        · exact absurd he List.not_mem_nil
    rcases hdirs with hdir | hdir
    · exact absurd (hdir.symm.trans hname) (by decide)
    · exact absurd (hdir.symm.trans hname) (by decide)
  rw [hpath, hname]
  rcases hparent with rfl | rfl
  · exact .inl (by decide +kernel)
  · exact .inr (by decide +kernel)

/-- The second search knows one APK, and crowns the manager that is installed behind it. -/
theorem searchManager_cached_installed :
    ∃ cache s, cacheAfter sumHash managerApk 5 [beforeManager] [] = some cache ∧ cache.length = 1 ∧
      searchManager withManager (baseApk sumHash managerApk withManager) 5 cache = some ([], s) ∧
      s.managerAppid = 10123 ∧ s.crowned = some (asBytes "/d/m-2/base.apk") ∧ s.opened.Nodup ∧
      s.freed = List.range s.allocated := by
  have hinj : ∀ p q, BaseApkOf ([beforeManager] ++ [withManager]) p → BaseApkOf ([beforeManager] ++ [withManager]) q →
      sumHash p = sumHash q → p = q := by
    intro p q hp hq hhash
    have hdistinct : sumHash (asBytes "/d/x-1/base.apk") ≠ sumHash (asBytes "/d/m-2/base.apk") := by decide +kernel
    rcases baseApkOf_searches hp with rfl | rfl
    · rcases baseApkOf_searches hq with rfl | rfl
      · rfl
      · exact absurd hhash hdistinct
    · rcases baseApkOf_searches hq with rfl | rfl
      · exact absurd hhash.symm hdistinct
      · rfl
  have hfuel : ∀ x ∈ [beforeManager] ++ [withManager], x.total < 5 := by
    intro x hx
    rcases List.mem_cons.mp hx with rfl | hx
    · decide +kernel
    · rw [List.mem_singleton.mp hx]
      decide +kernel
  obtain ⟨cache, s, u, hcache, hrun, huncached, hsame, hcrowned, hopened, hfreed⟩ :=
    searchManager_cached sumHash managerApk [beforeManager] withManager 5 hinj hfuel
  have hlength : (cacheAfter sumHash managerApk 5 [beforeManager] []).map List.length = some 1 := by decide +kernel
  have hfound : (searchManager withManager (baseApkUncached managerApk withManager) 5 []).map
      (fun r => (r.2.managerAppid, r.2.crowned)) = some (10123, some (asBytes "/d/m-2/base.apk")) := by decide +kernel
  rw [hcache] at hlength
  rw [huncached] at hfound
  obtain ⟨happid, hpath⟩ := Prod.mk.inj (Option.some.inj hfound)
  exact ⟨cache, s, hcache, Option.some.inj hlength, hrun, hsame.trans happid, hcrowned.trans hpath, hopened, hfreed⟩

end KernelSU.Manager
