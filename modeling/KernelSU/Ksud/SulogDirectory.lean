import KernelSU.Ksud.SulogFiles
import Mathlib.Data.List.Perm.Subperm
import Mathlib.Data.List.Nodup

/-!
# The lines in a directory of daily logs

`Filed` says which lines a log directory holds: for each day, the lines of its files in the order of their indices.
Each of the accesses that the writer makes changes these lists as its name says.

* `Filed.expire`, `Filed.create`, `Filed.append` — **PROVED**: removing the logs of old days, a new file, and one
  more line in a file;
* `Filed.scan` — **PROVED**: the index that a directory is searched for is that of the day's last file;
* `Filed.length_lt` — **PROVED**: a day has as many files as the directory has files of that date.
-/

namespace KernelSU.Ksud

open KernelSU.Lib

/-- A line of a log, and whether it was the first after a change of the day. -/
structure LogLine where
  text : Str
  changedDay : Bool

def LogLine.bytes (line : LogLine) : List UInt8 := asBytes line.text ++ asBytes ['\n']

/-- The contents of a file with these lines. -/
def logBytes (lines : List LogLine) : List UInt8 := lines.flatMap LogLine.bytes

/-- A day whose text has ten characters, and reads back. -/
structure Chrono.Plain (chrono : Chrono) (day : ℤ) : Prop where
  ten : (asBytes (chrono.format day)).length = DATE_LEN
  reads : chrono.parse (chrono.format day) = some day

/-- The lines of each file of each day. -/
abbrev Chunks := ℤ → List (List LogLine)

/-- The lines without the days in front of the cutoff. -/
def Chunks.expire (cutoff : ℤ) (chunks : Chunks) : Chunks := fun day => if day < cutoff then [] else chunks day

/-- The lines with those of a day replaced. -/
def Chunks.put (chunks : Chunks) (day : ℤ) (files : List (List LogLine)) : Chunks := Function.update chunks day files

/-- The directory that holds these lines. -/
structure Filed (chrono : Chrono) (chunks : Chunks) (dir : LogDir) : Prop where
  nodup : (dir.map Prod.fst).Nodup
  mem_iff : ∀ file, file ∈ dir ↔ ∃ day index chunk, (chunks day)[index]? = some chunk ∧
    file = (dailyLogPath (chrono.format day) index, logBytes chunk)
  plain : ∀ day, chunks day ≠ [] → chrono.Plain day
  short : ∀ day, (chunks day).length ≤ 2 ^ 32

variable {chrono : Chrono} {chunks : Chunks} {dir : LogDir} {day : ℤ} {index : ℕ}

theorem Chrono.Plain.parse (h : chrono.Plain day) (hindex : index < 2 ^ 32) :
    chrono.parseLogName (dailyLogPath (chrono.format day) index) = some (day, index) :=
  parseLogName_dailyLogPath h.ten h.reads hindex

/-- Different files have different names. -/
theorem Chrono.Plain.name_inj {day' : ℤ} {index' : ℕ} (h : chrono.Plain day) (h' : chrono.Plain day')
    (hindex : index < 2 ^ 32) (hindex' : index' < 2 ^ 32)
    (heq : dailyLogPath (chrono.format day) index = dailyLogPath (chrono.format day') index') :
    day = day' ∧ index = index' := by
  have hparse := (h.parse hindex).symm.trans ((congrArg _ heq).trans (h'.parse hindex'))
  exact Prod.mk.inj (Option.some.inj hparse)

theorem foldl_max_le_iff (l : List ℕ) (a b : ℕ) : l.foldl max a ≤ b ↔ a ≤ b ∧ ∀ x ∈ l, x ≤ b := by
  induction l generalizing a with
  | nil => exact ⟨fun h => ⟨h, fun _ hx => absurd hx List.not_mem_nil⟩, fun h => h.1⟩
  | cons y l ih => rw [List.foldl_cons, ih, max_le_iff, List.forall_mem_cons, and_assoc]

/-- The numbers below `n` have the maximum `n - 1`. -/
theorem foldl_max_of_mem_iff {l : List ℕ} {n : ℕ} (h : ∀ i, i ∈ l ↔ i < n) : l.foldl max 0 = n - 1 := by
  have hle : l.foldl max 0 ≤ n - 1 :=
    (foldl_max_le_iff l 0 _).mpr ⟨Nat.zero_le _, fun i hi => Nat.le_pred_of_lt ((h i).mp hi)⟩
  have hge : n - 1 ≤ l.foldl max 0 := by
    cases n with
    | zero => exact Nat.zero_le _
    | succ n => exact ((foldl_max_le_iff l 0 _).mp le_rfl).2 n ((h n).mpr n.lt_succ_self)
  exact Nat.le_antisymm hle hge

/-- The next index of a day with few files. -/
theorem nextIndex_of_lt (h : index + 1 < 2 ^ 32) : nextIndex index = index + 1 :=
  Nat.min_eq_left (Nat.le_pred_of_lt h)

theorem lookup_of_mem {α β : Type*} [BEq α] [LawfulBEq α] {l : List (α × β)} (hnodup : (l.map Prod.fst).Nodup) {a : α}
    {b : β} (h : (a, b) ∈ l) : l.lookup a = some b := by
  obtain ⟨front, behind, rfl⟩ := List.append_of_mem h
  refine List.lookup_eq_some_iff.mpr ⟨front, behind, rfl, fun p hp => ?_⟩
  rw [List.map_append, List.nodup_append] at hnodup
  rw [bne_iff_ne]
  exact (hnodup.2.2 p.1 (List.mem_map_of_mem hp) a List.mem_cons_self).symm

namespace Filed

variable (h : Filed chrono chunks dir)

include h

theorem index_lt {chunk : List LogLine} (hchunk : (chunks day)[index]? = some chunk) : index < 2 ^ 32 :=
  (List.getElem?_eq_some_iff.mp hchunk).1.trans_le (h.short day)

theorem plain_of_chunk {chunk : List LogLine} (hchunk : (chunks day)[index]? = some chunk) : chrono.Plain day :=
  h.plain day (List.ne_nil_of_mem (List.mem_of_getElem? hchunk))

/-- A file of a day is there, with its lines, -/
theorem lookup_some {chunk : List LogLine} (hchunk : (chunks day)[index]? = some chunk) :
    dir.lookup (dailyLogPath (chrono.format day) index) = some (logBytes chunk) :=
  lookup_of_mem h.nodup ((h.mem_iff _).mpr ⟨day, index, chunk, hchunk, rfl⟩)

/-- and no others. -/
theorem lookup_none (hplain : chrono.Plain day) (hindex : index < 2 ^ 32) (hnone : (chunks day)[index]? = none) :
    dir.lookup (dailyLogPath (chrono.format day) index) = none := by
  refine List.lookup_eq_none_iff.mpr fun file hfile => ?_
  obtain ⟨day', index', chunk, hchunk, rfl⟩ := (h.mem_iff file).mp hfile
  rw [bne_iff_ne]
  intro heq
  obtain ⟨rfl, rfl⟩ := hplain.name_inj (h.plain_of_chunk hchunk) hindex (h.index_lt hchunk) heq
  rw [hnone] at hchunk
  cases hchunk

theorem size_some {chunk : List LogLine} (hchunk : (chunks day)[index]? = some chunk) :
    dir.size (dailyLogPath (chrono.format day) index) = (logBytes chunk).length := by
  rw [LogDir.size, h.lookup_some hchunk]
  rfl

theorem size_none (hplain : chrono.Plain day) (hindex : index < 2 ^ 32) (hnone : (chunks day)[index]? = none) :
    dir.size (dailyLogPath (chrono.format day) index) = 0 := by
  rw [LogDir.size, h.lookup_none hplain hindex hnone]
  rfl

/-- The date of a file is its day. -/
theorem parseLogName_of_chunk {chunk : List LogLine} (hchunk : (chunks day)[index]? = some chunk) :
    chrono.parseLogName (dailyLogPath (chrono.format day) index) = some (day, index) :=
  (h.plain_of_chunk hchunk).parse (h.index_lt hchunk)

/-! ### Old days -/

/-- **The cleanup** empties the days in front of the cutoff. -/
theorem expire (cutoff : ℤ) :
    Filed chrono (chunks.expire cutoff) (dir.keep chrono cutoff) where
  nodup := h.nodup.sublist ((List.filter_sublist).map _)
  mem_iff file := by
    rw [LogDir.keep, List.mem_filter, h.mem_iff]
    constructor
    · rintro ⟨⟨day, index, chunk, hchunk, rfl⟩, hkept⟩
      rw [Chrono.expired, Chrono.parseLogDate, h.parseLogName_of_chunk hchunk] at hkept
      have hday : ¬day < cutoff := of_decide_eq_false (Bool.not_eq_true' _ ▸ hkept)
      refine ⟨day, index, chunk, ?_, rfl⟩
      rw [Chunks.expire, if_neg hday]
      exact hchunk
    · rintro ⟨day, index, chunk, hchunk, rfl⟩
      by_cases hday : day < cutoff
      · rw [Chunks.expire, if_pos hday] at hchunk
        cases hchunk
      · rw [Chunks.expire, if_neg hday] at hchunk
        refine ⟨⟨day, index, chunk, hchunk, rfl⟩, ?_⟩
        rw [Chrono.expired, Chrono.parseLogDate, h.parseLogName_of_chunk hchunk]
        show (!decide (day < cutoff)) = true
        rw [decide_eq_false hday]
        rfl
  plain day hday := by
    rw [Chunks.expire] at hday
    split_ifs at hday
    · exact absurd rfl hday
    · exact h.plain day hday
  short day := by
    rw [Chunks.expire]
    split_ifs
    · exact Nat.zero_le _
    · exact h.short day

/-! ### The files of a day -/

theorem mem_indices_iff (i : ℕ) : i ∈ dir.filterMap (chrono.indexOn day) ↔ i < (chunks day).length := by
  rw [List.mem_filterMap]
  constructor
  · rintro ⟨file, hfile, hindex⟩
    obtain ⟨d, j, chunk, hchunk, rfl⟩ := (h.mem_iff file).mp hfile
    rw [Chrono.indexOn, h.parseLogName_of_chunk hchunk, Option.bind_some] at hindex
    obtain ⟨rfl, hj⟩ := Option.ite_none_right_eq_some.mp hindex
    obtain rfl := Option.some.inj hj
    exact (List.getElem?_eq_some_iff.mp hchunk).1
  · intro hi
    have hchunk := List.getElem?_eq_getElem hi
    refine ⟨_, (h.mem_iff _).mpr ⟨day, i, _, hchunk, rfl⟩, ?_⟩
    rw [Chrono.indexOn, h.parseLogName_of_chunk hchunk, Option.bind_some, if_pos rfl]

/-- **The search** for the day's files comes to the last of them. -/
theorem scan (hplain : chrono.Plain day) : dir.foldlM (chrono.scanLog (chrono.format day)) (0, false) =
    .ok ((chunks day).length - 1, !(chunks day).isEmpty) := by
  have hempty : (dir.filterMap (chrono.indexOn day)).isEmpty = (chunks day).isEmpty := by
    rw [Bool.eq_iff_iff, List.isEmpty_iff, List.isEmpty_iff, List.eq_nil_iff_forall_not_mem, ← List.length_eq_zero_iff]
    constructor
    · intro hnot
      by_contra hne
      exact hnot 0 ((h.mem_indices_iff 0).mpr (Nat.pos_of_ne_zero hne))
    · intro hzero i hi
      have hlt := (h.mem_indices_iff i).mp hi
      omega
  rw [foldlM_scanLog hplain.reads, foldl_max_of_mem_iff h.mem_indices_iff, Bool.false_or, hempty]

/-- **A day has few files** where the directory has few files of that date. -/
theorem length_lt (hfew : (dir.filter fun file => chrono.parseLogDate file.1 = some day).length < 2 ^ 32) :
    (chunks day).length < 2 ^ 32 := by
  have hsubset : (List.range (chunks day).length).map (dailyLogPath (chrono.format day)) ⊆
      (dir.filter fun file => chrono.parseLogDate file.1 = some day).map Prod.fst := by
    intro name hname
    obtain ⟨i, hi, rfl⟩ := List.mem_map.mp hname
    have hchunk := List.getElem?_eq_getElem (List.mem_range.mp hi)
    refine List.mem_map.mpr ⟨_, List.mem_filter.mpr ⟨(h.mem_iff _).mpr ⟨day, i, _, hchunk, rfl⟩, ?_⟩, rfl⟩
    rw [Chrono.parseLogDate, h.parseLogName_of_chunk hchunk]
    exact decide_eq_true rfl
  have hnodup : ((List.range (chunks day).length).map (dailyLogPath (chrono.format day))).Nodup := by
    refine List.Nodup.map_on (fun i hi j hj heq => ?_) List.nodup_range
    have hi' := List.getElem?_eq_getElem (List.mem_range.mp hi)
    have hj' := List.getElem?_eq_getElem (List.mem_range.mp hj)
    exact ((h.plain_of_chunk hi').name_inj (h.plain_of_chunk hj') (h.index_lt hi') (h.index_lt hj') heq).2
  have hle := (hnodup.subperm hsubset).length_le
  rw [List.length_map, List.length_range, List.length_map] at hle
  exact hle.trans_lt hfew

/-- A day without a file that has room goes on in a new one, -/
theorem currentLogFile_new {maxFileSize : ℕ} (hmax : 0 < maxFileSize) (hplain : chrono.Plain day)
    (hlen : (chunks day).length < 2 ^ 32) (hfull : ∀ last ∈ (chunks day).getLast?, maxFileSize ≤ (logBytes last).length) :
    currentLogFile dir (chrono.format day) maxFileSize ((chunks day).length - 1) = ((chunks day).length, 0) := by
  have hnone := h.size_none hplain hlen (List.getElem?_eq_none (Nat.le_refl _))
  rcases List.eq_nil_or_concat (chunks day) with hempty | ⟨full, last, hday⟩
  · rw [hempty, List.length_nil] at hnone ⊢
    rw [currentLogFile, hnone, if_neg fun hlt => Nat.lt_irrefl 0 hlt.2]
  · rw [List.concat_eq_append] at hday
    have hlength : (chunks day).length = full.length + 1 := by rw [hday, List.length_append, List.length_singleton]
    have hlast : (chunks day)[full.length]? = some last := by rw [hday, List.getElem?_concat_length]
    have hlarge : maxFileSize ≤ (logBytes last).length := hfull last (by rw [hday, List.getLast?_concat]; rfl)
    rw [hlength] at hnone hlen ⊢
    rw [Nat.add_sub_cancel, currentLogFile, h.size_some hlast, if_pos ⟨hlarge, hmax.trans_le hlarge⟩,
      nextIndex_of_lt hlen, hnone]

/-- and a file that has room is gone on with. -/
theorem currentLogFile_last {maxFileSize : ℕ} {full : List (List LogLine)} {last : List LogLine}
    (hday : chunks day = full ++ [last]) (hroom : ¬maxFileSize ≤ (logBytes last).length) :
    currentLogFile dir (chrono.format day) maxFileSize full.length = (full.length, (logBytes last).length) := by
  have hlast : (chunks day)[full.length]? = some last := by rw [hday, List.getElem?_concat_length]
  rw [currentLogFile, h.size_some hlast, if_neg fun hlarge => hroom hlarge.1]

/-! ### A new file -/

/-- **The next file of a day** is created empty. -/
theorem create (hplain : chrono.Plain day) (hlen : (chunks day).length < 2 ^ 32) :
    Filed chrono (chunks.put day (chunks day ++ [[]]))
      (openLineWriter dir (dailyLogPath (chrono.format day) (chunks day).length)) := by
  have hlookup := h.lookup_none hplain hlen (List.getElem?_eq_none (Nat.le_refl _))
  have hnone : ¬(none : Option (List UInt8)).isSome = true := Bool.false_ne_true
  rw [openLineWriter, hlookup, if_neg hnone]
  refine ⟨?nodup, fun file => ?mem_iff, fun d hd => ?plain, fun d => ?short⟩
  case nodup =>
    rw [List.map_append, List.map_singleton]
    refine h.nodup.append (List.nodup_singleton _) (List.disjoint_singleton.mpr fun hmem => ?_)
    obtain ⟨file, hfile, hname⟩ := List.mem_map.mp hmem
    exact (bne_iff_ne.mp (List.lookup_eq_none_iff.mp hlookup file hfile)) hname.symm
  case mem_iff =>
    rw [List.mem_append, List.mem_singleton, h.mem_iff]
    constructor
    · rintro (⟨d, i, chunk, hchunk, rfl⟩ | rfl)
      · refine ⟨d, i, chunk, ?_, rfl⟩
        by_cases hd : d = day
        · subst hd
          rw [Chunks.put, Function.update_self, List.getElem?_append_left (List.getElem?_eq_some_iff.mp hchunk).1]
          exact hchunk
        · rw [Chunks.put, Function.update_of_ne hd]
          exact hchunk
      · refine ⟨day, (chunks day).length, [], ?_, rfl⟩
        rw [Chunks.put, Function.update_self, List.getElem?_concat_length]
    · rintro ⟨d, i, chunk, hchunk, rfl⟩
      by_cases hd : d = day
      · subst hd
        rw [Chunks.put, Function.update_self] at hchunk
        have hbound := (List.getElem?_eq_some_iff.mp hchunk).1
        rw [List.length_append, List.length_singleton] at hbound
        by_cases hi : i < (chunks d).length
        · rw [List.getElem?_append_left hi] at hchunk
          exact .inl ⟨d, i, chunk, hchunk, rfl⟩
        · obtain rfl : i = (chunks d).length := by omega
          rw [List.getElem?_concat_length] at hchunk
          cases hchunk
          exact .inr rfl
      · rw [Chunks.put, Function.update_of_ne hd] at hchunk
        exact .inl ⟨d, i, chunk, hchunk, rfl⟩
  case plain =>
    by_cases hday : d = day
    · exact hday ▸ hplain
    · rw [Chunks.put, Function.update_of_ne hday] at hd
      exact h.plain d hd
  case short =>
    by_cases hday : d = day
    · rw [hday, Chunks.put, Function.update_self, List.length_append, List.length_singleton]
      exact hlen
    · rw [Chunks.put, Function.update_of_ne hday]
      exact h.short d

/-- A file that is there is opened as it is. -/
theorem openLineWriter_of_chunk {chunk : List LogLine} (hchunk : (chunks day)[index]? = some chunk) :
    openLineWriter dir (dailyLogPath (chrono.format day) index) = dir := by
  rw [openLineWriter, h.lookup_some hchunk]
  rfl

/-! ### One more line -/

/-- **A line** goes to the end of the file. -/
theorem append {full : List (List LogLine)} {last : List LogLine} (hday : chunks day = full ++ [last])
    (line : LogLine) :
    Filed chrono (chunks.put day (full ++ [last ++ [line]]))
      (dir.append (dailyLogPath (chrono.format day) full.length) line.bytes) := by
  have hlast : (chunks day)[full.length]? = some last := by rw [hday, List.getElem?_concat_length]
  have hput : ∀ i, i ≠ full.length → (full ++ [last ++ [line]])[i]? = (chunks day)[i]? := by
    intro i hi
    rw [hday, List.getElem?_append, List.getElem?_append]
    split_ifs with hlt
    · rfl
    · rw [List.getElem?_eq_none, List.getElem?_eq_none] <;> rw [List.length_singleton] <;> omega
  refine ⟨?nodup, fun file => ?mem_iff, fun d hd => ?plain, fun d => ?short⟩
  case nodup =>
    have hnames : (dir.append (dailyLogPath (chrono.format day) full.length) line.bytes).map Prod.fst =
        dir.map Prod.fst := by
      rw [LogDir.append, List.map_map]
      refine List.map_congr_left fun file _ => ?_
      rw [Function.comp_apply]
      split_ifs <;> rfl
    exact hnames ▸ h.nodup
  case mem_iff =>
    rw [LogDir.append, List.mem_map]
    constructor
    · rintro ⟨old, hold, rfl⟩
      obtain ⟨d, i, chunk, hchunk, rfl⟩ := (h.mem_iff old).mp hold
      dsimp only
      by_cases hname : dailyLogPath (chrono.format d) i = dailyLogPath (chrono.format day) full.length
      · obtain ⟨rfl, rfl⟩ := (h.plain_of_chunk hchunk).name_inj (h.plain_of_chunk hlast) (h.index_lt hchunk)
          (h.index_lt hlast) hname
        obtain rfl := Option.some.inj (hchunk.symm.trans hlast)
        refine ⟨d, full.length, chunk ++ [line], ?_, ?_⟩
        · rw [Chunks.put, Function.update_self, List.getElem?_concat_length]
        · rw [if_pos rfl, logBytes, logBytes, List.flatMap_append, List.flatMap_singleton]
      · refine ⟨d, i, chunk, ?_, if_neg hname⟩
        by_cases hd : d = day
        · subst hd
          have hi : i ≠ full.length := fun hi => hname (hi ▸ rfl)
          rw [Chunks.put, Function.update_self, hput i hi]
          exact hchunk
        · rw [Chunks.put, Function.update_of_ne hd]
          exact hchunk
    · rintro ⟨d, i, chunk, hchunk, rfl⟩
      by_cases hat : d = day ∧ i = full.length
      · obtain ⟨rfl, rfl⟩ := hat
        rw [Chunks.put, Function.update_self, List.getElem?_concat_length] at hchunk
        obtain rfl := Option.some.inj hchunk
        refine ⟨_, (h.mem_iff _).mpr ⟨d, full.length, last, hlast, rfl⟩, ?_⟩
        rw [if_pos rfl, logBytes, logBytes, List.flatMap_append, List.flatMap_singleton]
      · have hold : (chunks d)[i]? = some chunk := by
          by_cases hd : d = day
          · subst hd
            rw [Chunks.put, Function.update_self, hput i fun hi => hat ⟨rfl, hi⟩] at hchunk
            exact hchunk
          · rw [Chunks.put, Function.update_of_ne hd] at hchunk
            exact hchunk
        refine ⟨_, (h.mem_iff _).mpr ⟨d, i, chunk, hold, rfl⟩, if_neg fun hname => hat ?_⟩
        exact (h.plain_of_chunk hold).name_inj (h.plain_of_chunk hlast) (h.index_lt hold) (h.index_lt hlast) hname
  case plain =>
    by_cases hd' : d = day
    · exact hd' ▸ h.plain_of_chunk hlast
    · rw [Chunks.put, Function.update_of_ne hd'] at hd
      exact h.plain d hd
  case short =>
    by_cases hd : d = day
    · have hlen := h.short day
      rw [hday, List.length_append] at hlen
      rw [hd, Chunks.put, Function.update_self, List.length_append]
      exact hlen
    · rw [Chunks.put, Function.update_of_ne hd]
      exact h.short d

end Filed

end KernelSU.Ksud
