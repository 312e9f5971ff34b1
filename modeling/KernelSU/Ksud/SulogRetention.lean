import KernelSU.Ksud.SulogFiles

/-!
# The retention of daily logs

`cleanup_expired_logs` computes the date of the oldest day that it keeps.  `parse_retention_days` takes every positive
number, and with a large one that date lies in front of the dates that `chrono` has.

* `keepsRetention_iff` — **PROVED**: retention does what its value says, and lets a session start, exactly when the
  oldest day to keep is a date;
* `keepsRetention_max` — **PROVED**: with the largest value that is accepted it does not.
-/

namespace KernelSU.Ksud

open KernelSU.Lib

variable {chrono : Chrono} {today : ℤ} {retentionDays : ℕ} {dir : LogDir}

/-- A file that is no dated log, or one of the last `retentionDays` days. -/
def Chrono.Recent (chrono : Chrono) (today : ℤ) (retentionDays : ℕ) (fileName : List UInt8) : Prop :=
  ∀ date, chrono.parseLogDate fileName = some date → today < date + retentionDays

/-- What a value of `log.retention.days` stands for, in one directory and on one day. -/
structure KeepsRetention (chrono : Chrono) (today : ℤ) (value : String) (retentionDays : ℕ) (dir : LogDir) : Prop where
  /-- The cleanup succeeds and removes the older logs only. -/
  cleaned : ∃ kept, cleanupExpiredLogs chrono today retentionDays (some dir) = .ok (some kept) ∧
    ∀ file, file ∈ kept ↔ file ∈ dir ∧ chrono.Recent today retentionDays file.1
  /-- What it removes, every smaller value removes too. -/
  monotone : ∀ smaller, 0 < smaller → smaller ≤ retentionDays → ∃ kept kept',
    cleanupExpiredLogs chrono today retentionDays (some dir) = .ok (some kept) ∧
      cleanupExpiredLogs chrono today smaller (some dir) = .ok (some kept') ∧
        ∀ file ∈ dir, file ∉ kept → file ∉ kept'
  /-- A writer opens wherever the value is configured. -/
  opens : ∀ (order : Iteration) (files : FileSystem) (config : Config) (maxValue : String) (maxFileSize : ℕ) (day : ℤ),
    mergeConfigs order files SULOG_CONFIG_MODULE_ID = .ok config →
    config.lookup SULOG_RETENTION_CONFIG_KEY = some value →
    config.lookup SULOG_MAX_FILE_SIZE_CONFIG_KEY = some maxValue → parseMaxFileSize maxValue = .ok maxFileSize →
    chrono.parse (chrono.format day) = some day →
      ∃ opened, DailyLogWriter.open chrono (ensureSulogConfig order files).1 today day (some dir) = .ok opened

/-! ### The cleanup -/

theorem not_expired_iff (hdays : 0 < retentionDays) {fileName : List UInt8} :
    (!chrono.expired (today - (retentionDays - 1 : ℕ)) fileName) = true ↔ chrono.Recent today retentionDays fileName := by
  rw [Chrono.expired, Chrono.Recent, Bool.not_eq_true']
  cases chrono.parseLogDate fileName with
  | none =>
    constructor
    · intro _ date hdate
      cases hdate
    · exact fun _ => rfl
  | some date =>
    show decide (date < today - (retentionDays - 1 : ℕ)) = false ↔ _
    rw [decide_eq_false_iff_not]
    constructor
    · intro hdate d hd
      obtain rfl := Option.some.inj hd
      omega
    · intro hrecent
      have hdate := hrecent date rfl
      omega

/-- The cleanup of a directory succeeds exactly when the oldest day to keep is a date, -/
theorem cleanupExpiredLogs_some (hdays : 0 < retentionDays) (hcutoff : chrono.minDate ≤ today - (retentionDays - 1 : ℕ))
    (dir : LogDir) : ∃ kept, cleanupExpiredLogs chrono today retentionDays (some dir) = .ok (some kept) ∧
      ∀ file, file ∈ kept ↔ file ∈ dir ∧ chrono.Recent today retentionDays file.1 := by
  refine ⟨dir.keep chrono (today - (retentionDays - 1 : ℕ)), ?_,
    fun file => List.mem_filter.trans (and_congr_right fun _ => not_expired_iff hdays)⟩
  rw [cleanupExpiredLogs, Chrono.checkedSubDays, if_pos hcutoff]

/-- and fails otherwise. -/
theorem cleanupExpiredLogs_error (hcutoff : ¬chrono.minDate ≤ today - (retentionDays - 1 : ℕ)) (dir : LogDir) :
    cleanupExpiredLogs chrono today retentionDays (some dir) = .error "failed to compute sulog retention cutoff" := by
  rw [cleanupExpiredLogs, Chrono.checkedSubDays, if_neg hcutoff]

/-- A file of the last `smaller` days is one of more days. -/
theorem Chrono.Recent.mono {smaller : ℕ} (hle : smaller ≤ retentionDays) {fileName : List UInt8}
    (h : chrono.Recent today smaller fileName) : chrono.Recent today retentionDays fileName := by
  intro date hdate
  have hrecent := h date hdate
  omega

/-! ### Opening -/

/-- What is configured is what `ensure_sulog_config` gives. -/
theorem ensureSulogConfig_of_lookup {order : Iteration} {files : FileSystem} {config : Config} {value maxValue : String}
    {maxFileSize : ℕ} (hconfig : mergeConfigs order files SULOG_CONFIG_MODULE_ID = .ok config)
    (hvalue : config.lookup SULOG_RETENTION_CONFIG_KEY = some value)
    (hmax : config.lookup SULOG_MAX_FILE_SIZE_CONFIG_KEY = some maxValue)
    (hretention : parseRetentionDays value = .ok retentionDays) (hsize : parseMaxFileSize maxValue = .ok maxFileSize) :
    (ensureSulogConfig order files).1 = .ok ⟨retentionDays, maxFileSize⟩ := by
  have hget : ∀ {key v : String} {n : ℕ}, config.lookup key = some v →
      ensureConfigValue order files key n = (.ok v, files) := by
    intro key v n hv
    rw [ensureConfigValue, hconfig]
    simp only [hv]
  rw [ensureSulogConfig, hget hvalue]
  simp only [Except.bind, hretention, hget hmax, hsize]

theorem open_ok {maxFileSize : ℕ} {day : ℤ} (hcutoff : chrono.minDate ≤ today - (retentionDays - 1 : ℕ))
    (hday : chrono.parse (chrono.format day) = some day) (dir : LogDir) :
    ∃ opened, DailyLogWriter.open chrono (.ok ⟨retentionDays, maxFileSize⟩) today day (some dir) = .ok opened := by
  have hsub : chrono.checkedSubDays today (retentionDays - 1) = some (today - (retentionDays - 1 : ℕ)) := if_pos hcutoff
  exact ⟨_, openDay_of_scan hsub (foldlM_scanLog hday _ _) rfl⟩

/-! ### The law -/

theorem pos_of_parseRetentionDays {value : String} (h : parseRetentionDays value = .ok retentionDays) :
    0 < retentionDays := by
  rw [parseRetentionDays, parsePositive] at h
  cases hn : parseUnsigned 64 (trim value.toList) with
  | none =>
    rw [hn] at h
    cases h
  | some n =>
    rw [hn] at h
    dsimp only at h
    split_ifs at h with hpos
    cases h
    exact hpos

/-- **Retention does what its value says exactly when the oldest day to keep is a date.** -/
theorem keepsRetention_iff (chrono : Chrono) (today : ℤ) {value : String} {retentionDays : ℕ}
    (hvalue : parseRetentionDays value = .ok retentionDays) (dir : LogDir) :
    KeepsRetention chrono today value retentionDays dir ↔ chrono.minDate ≤ today - (retentionDays - 1 : ℤ) := by
  have hdays := pos_of_parseRetentionDays hvalue
  have hcast : ((retentionDays - 1 : ℕ) : ℤ) = retentionDays - 1 := by omega
  rw [← hcast]
  constructor
  · intro h
    by_contra hcutoff
    obtain ⟨kept, hkept, -⟩ := h.cleaned
    rw [cleanupExpiredLogs_error hcutoff] at hkept
    cases hkept
  · intro hcutoff
    obtain ⟨kept, hkept, hmem⟩ := cleanupExpiredLogs_some hdays hcutoff dir
    refine ⟨⟨kept, hkept, hmem⟩, ?monotone, ?opens⟩
    case monotone =>
      intro smaller hsmaller hle
      have hearlier : chrono.minDate ≤ today - (smaller - 1 : ℕ) := by omega
      obtain ⟨kept', hkept', hmem'⟩ := cleanupExpiredLogs_some hsmaller hearlier dir
      refine ⟨kept, kept', hkept, hkept', fun file hfile hnot hin => hnot ?_⟩
      exact (hmem file).mpr ⟨hfile, ((hmem' file).mp hin).2.mono hle⟩
    case opens =>
      intro order files config maxValue maxFileSize day hconfig hlookup hmax hsize hday
      rw [ensureSulogConfig_of_lookup hconfig hlookup hmax hvalue hsize]
      exact open_ok hcutoff hday dir

/-- Three days, on the first day of a year. -/
theorem keepsRetention_iff_three :
    KeepsRetention someDates 19723 (toString 3) 3 [(dailyLogPath "2023-12-31".toList 0, []), (asBytes "notes".toList, [])] :=
  (keepsRetention_iff someDates 19723 (parseRetentionDays_display (by decide) (by decide)) _).mpr (by decide)

/-- The largest value that is accepted stops the logging. -/
theorem keepsRetention_max :
    parseRetentionDays "18446744073709551615" = .ok (2 ^ 64 - 1) ∧
      cleanupExpiredLogs someDates 19723 (2 ^ 64 - 1) (some []) = .error "failed to compute sulog retention cutoff" ∧
        DailyLogWriter.open someDates (.ok ⟨2 ^ 64 - 1, DEFAULT_SULOG_MAX_FILE_SIZE⟩) 19723 19723 (some []) =
          .error "failed to compute sulog retention cutoff" ∧
          ¬KeepsRetention someDates 19723 "18446744073709551615" (2 ^ 64 - 1) [] := by
  have hvalue : toString (2 ^ 64 - 1) = "18446744073709551615" := by decide +kernel
  have hfails : cleanupExpiredLogs someDates 19723 (2 ^ 64 - 1) (some []) =
      .error "failed to compute sulog retention cutoff" := cleanupExpiredLogs_error (by decide) []
  refine ⟨hvalue ▸ parseRetentionDays_display (by decide) (by decide), hfails, ?_, fun h => ?_⟩
  · rw [DailyLogWriter.open, openDay]
    simp only [bind, Except.bind, Option.getD_some, hfails]
  · obtain ⟨kept, hkept, -⟩ := h.cleaned
    rw [hfails] at hkept
    cases hkept

end KernelSU.Ksud
