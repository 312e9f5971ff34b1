import KernelSU.Ksud.ModuleConfig
import KernelSU.Ksud.SepolicyParse
import KernelSU.Lib.Text

/-!
# `userspace/ksud/src/sulog.rs`: the daily log files

The log directory is the list of its files, each with its name in bytes and its contents; only sulogd writes to it,
and no access to it fails.  `Local::now` is asked anew wherever the code asks it: `today` is the date that the
retention counts from, `day` the one that names the file.  A date is the number of its day, and what `chrono` does
with dates is a parameter.

* `Chrono.parseLogName_dailyLogPath` — **PROVED**: the name of a day's file reads back as that day and index;
* `parseRetentionDays_display` — **PROVED**: every positive number of 64 bits is accepted.
-/

namespace KernelSU.Ksud

open KernelSU.Lib

/-! ### Dates -/

/-- The dates of `chrono`: the least `NaiveDate`, and the format `%Y-%m-%d` in both directions. -/
structure Chrono where
  minDate : ℤ
  format : ℤ → Str
  parse : Str → Option ℤ

/-- `NaiveDate::checked_sub_days`. -/
def Chrono.checkedSubDays (chrono : Chrono) (date : ℤ) (days : ℕ) : Option ℤ :=
  if chrono.minDate ≤ date - days then some (date - days) else none

/-- Dates that a table lists with their texts. -/
def Chrono.ofTable (minDate : ℤ) (dates : List (ℤ × String)) : Chrono where
  minDate := minDate
  format date := ((dates.lookup date).getD "").toList
  parse text := (dates.find? fun entry => entry.2.toList = text).map Prod.fst

/-- `NaiveDate::MIN`, and some dates. -/
def someDates : Chrono := .ofTable (-96465292)
  [(19722, "2023-12-31"), (19723, "2024-01-01"), (19730, "2024-01-08"), (2932897, "+10000-01-01")]

/-! ### Configuration -/

/-- `SULOG_CONFIG_MODULE_ID`. -/
def SULOG_CONFIG_MODULE_ID : String := "internal.ksud.sulogd"

/-- `SULOG_RETENTION_CONFIG_KEY`. -/
def SULOG_RETENTION_CONFIG_KEY : String := "log.retention.days"

/-- `SULOG_MAX_FILE_SIZE_CONFIG_KEY`. -/
def SULOG_MAX_FILE_SIZE_CONFIG_KEY : String := "log.max_file_size"

/-- `DEFAULT_SULOG_RETENTION_DAYS`. -/
def DEFAULT_SULOG_RETENTION_DAYS : ℕ := 3

/-- `DEFAULT_SULOG_MAX_FILE_SIZE`. -/
def DEFAULT_SULOG_MAX_FILE_SIZE : ℕ := 10 * 1024 * 1024

/-- `struct SulogConfig`. -/
structure SulogConfig where
  retentionDays : ℕ
  maxFileSize : ℕ
  deriving DecidableEq, Repr

/-- What `parse_retention_days` and `parse_max_file_size` do with the value of their key. -/
def parsePositive (key value : String) : Except String ℕ :=
  match parseUnsigned 64 (trim value.toList) with
  | none => .error ("invalid " ++ key ++ " value: '" ++ value ++ "'")
  | some n => if 0 < n then .ok n else .error (key ++ " must be greater than 0")

/-- `parse_retention_days`. -/
def parseRetentionDays (value : String) : Except String ℕ := parsePositive SULOG_RETENTION_CONFIG_KEY value

/-- `parse_max_file_size`. -/
def parseMaxFileSize (value : String) : Except String ℕ := parsePositive SULOG_MAX_FILE_SIZE_CONFIG_KEY value

theorem trim_eq_self {s : Str} (h : ∀ c ∈ s, isWhitespace c = false) : trim s = s := by
  have hfront : s.dropWhile isWhitespace = s :=
    List.dropWhile_eq_self_iff.mpr fun hl => by rw [h _ (List.getElem_mem hl)]; exact Bool.false_ne_true
  rw [trim, hfront]
  exact List.rdropWhile_eq_self_iff.mpr fun hl => by rw [h _ (List.getLast_mem hl)]; exact Bool.false_ne_true

/-- **Every positive number of 64 bits is accepted**, as it is written. -/
theorem parseRetentionDays_display {days : ℕ} (hpos : 0 < days) (hdays : days < 2 ^ 64) :
    parseRetentionDays (toString days) = .ok days := by
  have hdigits : (toString days).toList = Nat.toDigits 10 days := by
    rw [Nat.toString_eq_ofList_toDigits, String.toList_ofList]
  have hblank : ∀ c ∈ Nat.toDigits 10 days, isWhitespace c = false := by
    intro c hc
    have hdigit := List.all_eq_true.mp isDigit_toDigits c hc
    obtain ⟨hlo, hhi⟩ := Bool.and_eq_true_iff.mp hdigit
    have hlo : 48 ≤ c.toNat := UInt32.le_iff_toNat_le.mp (of_decide_eq_true hlo)
    have hhi : c.toNat ≤ 57 := UInt32.le_iff_toNat_le.mp (of_decide_eq_true hhi)
    simp only [isWhitespace, Bool.or_eq_false_iff, Bool.and_eq_false_iff, decide_eq_false_iff_not, beq_eq_false_iff_ne]
    omega
  rw [parseRetentionDays, parsePositive, hdigits, trim_eq_self hblank, parseUnsigned_toDigits hdays]
  exact if_pos hpos

/-- `ensure_config_value`. -/
def ensureConfigValue (order : Iteration) (files : FileSystem) (key : String) (defaultValue : ℕ) :
    Except String String × FileSystem :=
  match mergeConfigs order files SULOG_CONFIG_MODULE_ID with
  | .error e => (.error e.message, files)
  | .ok config => match config.lookup key with
    | some value => (.ok value, files)
    | none => match setConfigValue order files SULOG_CONFIG_MODULE_ID key (toString defaultValue) .persist with
      | (.error e, files) => (.error e.message, files)
      | (.ok (), files) => (.ok (toString defaultValue), files)

/-- `ensure_sulog_config`. -/
def ensureSulogConfig (order : Iteration) (files : FileSystem) : Except String SulogConfig × FileSystem :=
  let retention := ensureConfigValue order files SULOG_RETENTION_CONFIG_KEY DEFAULT_SULOG_RETENTION_DAYS
  match retention.1.bind parseRetentionDays with
  | .error e => (.error e, retention.2)
  | .ok retentionDays =>
    let size := ensureConfigValue order retention.2 SULOG_MAX_FILE_SIZE_CONFIG_KEY DEFAULT_SULOG_MAX_FILE_SIZE
    match size.1.bind parseMaxFileSize with
    | .error e => (.error e, size.2)
    | .ok maxFileSize => (.ok ⟨retentionDays, maxFileSize⟩, size.2)

/-! ### File names -/

/-- The file name that `daily_log_path` joins to `LOG_DIR`. -/
def dailyLogPath (day : Str) (index : ℕ) : List UInt8 :=
  asBytes (if index = 0 then "sulog-".toList ++ day ++ ".log".toList
    else "sulog-".toList ++ day ++ "-".toList ++ Nat.toDigits 10 index ++ ".log".toList)

/-- `"YYYY-MM-DD".len()`. -/
def DATE_LEN : ℕ := 10

/-- The form of earlier versions: a date, a dot and an index. -/
def legacyLogName (name : Str) : Option (Str × ℕ) := do
  let (dateStr, indexStr) ← rsplitOnce '.' name
  let index ← parseUnsigned 32 indexStr
  some (dateStr, index)

/-- The two parts of what stands between `sulog-` and `.log`. -/
def splitLogName (name : Str) : Option (Str × ℕ) :=
  if (asBytes name).length = DATE_LEN then some (name, 0)
  else match rsplitOnce '-' name with
    | some (dateStr, indexStr) =>
      if (asBytes dateStr).length = DATE_LEN ∧ indexStr.all Char.isDigit = true then
        (parseUnsigned 32 indexStr).map fun index => (dateStr, index)
      else legacyLogName name
    | none => legacyLogName name

/-- `parse_log_name`, of the last component of the path. -/
def Chrono.parseLogName (chrono : Chrono) (fileName : List UInt8) : Option (ℤ × ℕ) := do
  let fileName ← fromUtf8 fileName
  let name ← fileName.dropPrefix? "sulog-".toList
  let name ← name.dropSuffix? ".log".toList
  let (dateStr, index) ← splitLogName name
  let date ← chrono.parse dateStr
  some (date, index)

/-- What `daily_log_path` puts between `sulog-` and `.log` splits into the day and the index. -/
theorem splitLogName_day {day : Str} (hlen : (asBytes day).length = DATE_LEN) : splitLogName day = some (day, 0) := by
  rw [splitLogName, if_pos hlen]

theorem splitLogName_dayIndex {day : Str} (hlen : (asBytes day).length = DATE_LEN) {index : ℕ}
    (hindex : index < 2 ^ 32) : splitLogName (day ++ "-".toList ++ Nat.toDigits 10 index) = some (day, index) := by
  have hdash : '-' ∉ Nat.toDigits 10 index := by
    intro h
    have hdigit := List.all_eq_true.mp isDigit_toDigits '-' h
    cases hdigit
  have hlonger : (asBytes (day ++ "-".toList ++ Nat.toDigits 10 index)).length ≠ DATE_LEN := by
    have hone : (asBytes "-".toList).length = 1 := rfl
    rw [asBytes, List.flatMap_append, List.flatMap_append, List.length_append, List.length_append, ← asBytes, hlen,
      ← asBytes, hone]
    omega
  have hsplit : rsplitOnce '-' (day ++ "-".toList ++ Nat.toDigits 10 index) = some (day, Nat.toDigits 10 index) := by
    rw [List.append_assoc]
    exact rsplitOnce_append hdash day
  rw [splitLogName, if_neg hlonger, hsplit]
  dsimp only
  rw [if_pos ⟨hlen, isDigit_toDigits⟩, parseUnsigned_toDigits hindex, Option.map_some]

theorem fromUtf8_asBytes (s : Str) : fromUtf8 (asBytes s) = some s := fromUtf8_eq_some_iff.mpr rfl

/-- **A file name reads back** as the day and the index it was made of. -/
theorem Chrono.parseLogName_dailyLogPath {chrono : Chrono} {day : Str} {date : ℤ}
    (hlen : (asBytes day).length = DATE_LEN) (hparse : chrono.parse day = some date) {index : ℕ}
    (hindex : index < 2 ^ 32) : chrono.parseLogName (dailyLogPath day index) = some (date, index) := by
  have hread : ∀ name : Str, splitLogName name = some (day, index) →
      chrono.parseLogName (asBytes ("sulog-".toList ++ name ++ ".log".toList)) = some (date, index) := by
    intro name hname
    have hpre : ("sulog-".toList ++ name ++ ".log".toList).dropPrefix? "sulog-".toList =
        some (name ++ ".log".toList) := by
      rw [List.append_assoc]
      exact List.dropPrefix?_append_of_beq _ (beq_self_eq_true _)
    have hsuffix : (name ++ ".log".toList).dropSuffix? ".log".toList = some name :=
      List.dropSuffix?_eq_some_iff.mpr ⟨_, rfl, beq_self_eq_true _⟩
    simp only [Chrono.parseLogName, fromUtf8_asBytes, hpre, hsuffix, hname, hparse, Option.bind_eq_bind,
      Option.bind_some]
  rw [dailyLogPath]
  split_ifs with hzero
  · subst hzero
    exact hread day (splitLogName_day hlen)
  · have h := hread _ (splitLogName_dayIndex hlen hindex)
    rw [← List.append_assoc, ← List.append_assoc] at h
    exact h

/-- `parse_log_date_from_path`. -/
def Chrono.parseLogDate (chrono : Chrono) (fileName : List UInt8) : Option ℤ :=
  (chrono.parseLogName fileName).map fun log => log.1

/-! ### The directory -/

/-- The files of the log directory: their names and contents. -/
abbrev LogDir := List (List UInt8 × List UInt8)

/-- The length that `fs::metadata` gives, and 0 for a file that does not exist. -/
def LogDir.size (dir : LogDir) (name : List UInt8) : ℕ := ((dir.lookup name).map List.length).getD 0

/-- `open_line_writer`: the file is created unless it exists. -/
def openLineWriter (dir : LogDir) (name : List UInt8) : LogDir :=
  if (dir.lookup name).isSome then dir else dir ++ [(name, [])]

/-- What writing to a file opened for appending leaves. -/
def LogDir.append (dir : LogDir) (name bytes : List UInt8) : LogDir :=
  dir.map fun file => if file.1 = name then (file.1, file.2 ++ bytes) else file

/-- Whether the loop of `cleanup_expired_logs` removes a file. -/
def Chrono.expired (chrono : Chrono) (cutoff : ℤ) (fileName : List UInt8) : Bool :=
  match chrono.parseLogDate fileName with
  | none => false
  | some logDate => logDate < cutoff

/-- What the loop leaves. -/
def LogDir.keep (chrono : Chrono) (cutoff : ℤ) (dir : LogDir) : LogDir :=
  dir.filter fun file => !chrono.expired cutoff file.1

/-- `cleanup_expired_logs`; `none` is a log directory that does not exist. -/
def cleanupExpiredLogs (chrono : Chrono) (today : ℤ) (retentionDays : ℕ) :
    Option LogDir → Except String (Option LogDir)
  | none => .ok none
  | some dir => match chrono.checkedSubDays today (retentionDays - 1) with
    | none => .error "failed to compute sulog retention cutoff"
    | some cutoff => .ok (some (dir.keep chrono cutoff))

/-- One turn of the loop of `open_log_writer_for_day`, on `highest_index` and `found`. -/
def Chrono.scanLog (chrono : Chrono) (day : Str) (acc : ℕ × Bool) (file : List UInt8 × List UInt8) :
    Except String (ℕ × Bool) :=
  match chrono.parseLogName file.1 with
  | none => .ok acc
  | some (logDate, index) => match chrono.parse day with
    | none => .error "invalid current day"
    | some current => .ok (if logDate = current then (max acc.1 index, true) else acc)

/-- The index of a file, where it is one of the day. -/
def Chrono.indexOn (chrono : Chrono) (day : ℤ) (file : List UInt8 × List UInt8) : Option ℕ :=
  (chrono.parseLogName file.1).bind fun log => if log.1 = day then some log.2 else none

theorem scanLog_eq {chrono : Chrono} {text : Str} {day : ℤ} (hday : chrono.parse text = some day) (acc : ℕ × Bool)
    (file : List UInt8 × List UInt8) : chrono.scanLog text acc file =
      .ok ((chrono.indexOn day file).elim acc fun index => (max acc.1 index, true)) := by
  rw [Chrono.scanLog, Chrono.indexOn, hday]
  cases chrono.parseLogName file.1 with
  | none => rfl
  | some log =>
    dsimp only [Option.bind_some]
    split_ifs <;> rfl

/-- **With a day that reads back**, the loop finds the highest index among the day's files. -/
theorem foldlM_scanLog {chrono : Chrono} {text : Str} {day : ℤ} (hday : chrono.parse text = some day) (dir : LogDir)
    (acc : ℕ × Bool) : dir.foldlM (chrono.scanLog text) acc =
      .ok ((dir.filterMap (chrono.indexOn day)).foldl max acc.1,
        acc.2 || !(dir.filterMap (chrono.indexOn day)).isEmpty) := by
  induction dir generalizing acc with
  | nil =>
    show Except.ok acc = _
    rw [List.filterMap_nil, List.foldl_nil, List.isEmpty_nil, Bool.not_true, Bool.or_false]
  | cons file dir ih =>
    rw [List.foldlM_cons, scanLog_eq hday]
    show dir.foldlM (chrono.scanLog text) _ = _
    rw [ih]
    cases hindex : chrono.indexOn day file with
    | none => rw [List.filterMap_cons_none hindex, Option.elim_none]
    | some index =>
      rw [List.filterMap_cons_some hindex, Option.elim_some, List.foldl_cons, List.isEmpty_cons, Bool.not_false,
        Bool.true_or, Bool.or_true]

/-- `u32::saturating_add(1)`. -/
def nextIndex (index : ℕ) : ℕ := min (index + 1) (2 ^ 32 - 1)

/-- The index that `open_log_writer_for_day` goes on with behind the highest one, and the size of that file. -/
def currentLogFile (dir : LogDir) (day : Str) (maxFileSize index : ℕ) : ℕ × ℕ :=
  let currentSize := dir.size (dailyLogPath day index)
  if maxFileSize ≤ currentSize ∧ 0 < currentSize then
    (nextIndex index, dir.size (dailyLogPath day (nextIndex index)))
  else (index, currentSize)

/-- `open_log_writer_for_day`: the directory after it, and the index, size and name of the file. -/
def openLogWriterForDay (chrono : Chrono) (day : Str) (maxFileSize : ℕ) :
    Option LogDir → Except String (LogDir × ℕ × ℕ × List UInt8)
  | none => .error "failed to read /data/adb/ksu/log/"
  | some dir => do
    let (highestIndex, found) ← dir.foldlM (chrono.scanLog day) (0, false)
    let file := currentLogFile dir day maxFileSize (if found then highestIndex else 0)
    .ok (openLineWriter dir (dailyLogPath day file.1), file.1, file.2, dailyLogPath day file.1)

/-! ### The writer -/

/-- `struct DailyLogWriter`; `writer` is the file it appends to. -/
structure DailyLogWriter where
  currentDay : Str
  currentIndex : ℕ
  currentSize : ℕ
  maxFileSize : ℕ
  writer : List UInt8

/-- What `DailyLogWriter::open` and a change of the day do, with the configuration that `ensure_sulog_config` gives.
-/
def openDay (chrono : Chrono) (config : Except String SulogConfig) (today : ℤ) (currentDay : Str)
    (logDir : Option LogDir) : Except String (DailyLogWriter × LogDir) := do
  let config ← config
  let logDir ← cleanupExpiredLogs chrono today config.retentionDays logDir
  let (dir, currentIndex, currentSize, writer) ← openLogWriterForDay chrono currentDay config.maxFileSize logDir
  .ok (⟨currentDay, currentIndex, currentSize, config.maxFileSize, writer⟩, dir)

/-- Where the cutoff is a date and the day's files are found, a writer opens. -/
theorem openDay_of_scan {chrono : Chrono} {config : SulogConfig} {today cutoff : ℤ} {day : Str} {dir : LogDir}
    {highestIndex index size : ℕ} {found : Bool}
    (hcutoff : chrono.checkedSubDays today (config.retentionDays - 1) = some cutoff)
    (hscan : (dir.keep chrono cutoff).foldlM (chrono.scanLog day) (0, false) = .ok (highestIndex, found))
    (hfile : currentLogFile (dir.keep chrono cutoff) day config.maxFileSize (if found then highestIndex else 0) =
      (index, size)) :
    openDay chrono (.ok config) today day (some dir) =
      .ok (⟨day, index, size, config.maxFileSize, dailyLogPath day index⟩,
        openLineWriter (dir.keep chrono cutoff) (dailyLogPath day index)) := by
  have hcleanup : cleanupExpiredLogs chrono today config.retentionDays (some dir) =
      .ok (some (dir.keep chrono cutoff)) := by
    rw [cleanupExpiredLogs, hcutoff]
  have hopen : openLogWriterForDay chrono day config.maxFileSize (some (dir.keep chrono cutoff)) =
      .ok (openLineWriter (dir.keep chrono cutoff) (dailyLogPath day index), index, size, dailyLogPath day index) := by
    rw [openLogWriterForDay, hscan]
    show Except.ok _ = _
    rw [hfile]
  simp only [openDay, bind, Except.bind, hcleanup, hopen]

/-- `DailyLogWriter::open`, which creates the directory first. -/
def DailyLogWriter.open (chrono : Chrono) (config : Except String SulogConfig) (today day : ℤ)
    (logDir : Option LogDir) : Except String (DailyLogWriter × LogDir) :=
  openDay chrono config today (chrono.format day) (some (logDir.getD []))

/-- `DailyLogWriter::rotate_if_needed`. -/
def DailyLogWriter.rotateIfNeeded (chrono : Chrono) (config : Except String SulogConfig) (today day : ℤ)
    (w : DailyLogWriter) (dir : LogDir) (nextWriteLen : ℕ) : Except String (DailyLogWriter × LogDir) :=
  if chrono.format day ≠ w.currentDay then openDay chrono config today (chrono.format day) (some dir)
  else if 0 < w.currentSize ∧ w.maxFileSize < min (w.currentSize + nextWriteLen) (2 ^ 64 - 1) then
    let path := dailyLogPath w.currentDay (nextIndex w.currentIndex)
    .ok ({ w with currentIndex := nextIndex w.currentIndex, writer := path, currentSize := 0 },
      openLineWriter dir path)
  else .ok (w, dir)

/-- `write_log_line`. -/
def writeLogLine (chrono : Chrono) (config : Except String SulogConfig) (today day : ℤ) (w : DailyLogWriter)
    (dir : LogDir) (line : Str) : Except String (DailyLogWriter × LogDir) :=
  let writeLen := (asBytes line).length + 1
  if 2 ^ 64 ≤ writeLen then .error "sulog line length overflow"
  else do
    let (w, dir) ← w.rotateIfNeeded chrono config today day dir writeLen
    .ok ({ w with currentSize := min (w.currentSize + writeLen) (2 ^ 64 - 1) },
      dir.append w.writer (asBytes line ++ asBytes ['\n']))

end KernelSU.Ksud
