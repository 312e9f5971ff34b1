import KernelSU.Ksud.SulogDirectory

/-!
# The rotation of daily logs

A run of sulogd opens a writer, and then writes lines and is started again.  The journal says what its log directory
is to hold: the lines of each day in the order in which they were written, since the retention last removed that day.

A day that is come back to goes on in its last file, and `rotate_if_needed` returns from a change of the day before
it has looked at the room in that file; such a line is marked in the journal.

* `sulogdRun_keepsLines` — **PROVED**: after every run the directory holds the lines of the journal, each whole and in
  one file, and no file of two lines is too long but for a last line that came with a change of the day;
* `sulogdRun_exceptions` — **PROVED**: the retention empties a day, and such a line makes a file too long.
-/

namespace KernelSU.Ksud

open KernelSU.Lib

/-! ### Runs -/

/-- What the configuration and `Local::now` give at one point of a run: the date that the retention counts from, and
the day that names the file. -/
structure Moment where
  config : SulogConfig
  today : ℤ
  day : ℤ

/-- What sulogd does next: a new session opens its writer, or a line is written. -/
inductive SulogOp where
  | restart (m : Moment)
  | line (m : Moment) (text : Str)

def sulogdStep (chrono : Chrono) (s : DailyLogWriter × LogDir) : SulogOp → Except String (DailyLogWriter × LogDir)
  | .restart m => DailyLogWriter.open chrono (.ok m.config) m.today m.day (some s.2)
  | .line m text => writeLogLine chrono (.ok m.config) m.today m.day s.1 s.2 text

/-- A run whose first session finds no log directory. -/
def sulogdRun (chrono : Chrono) (start : Moment) (ops : List SulogOp) : Except String (DailyLogWriter × LogDir) :=
  (DailyLogWriter.open chrono (.ok start.config) start.today start.day none).bind fun s =>
    ops.foldlM (sulogdStep chrono) s

/-! ### The journal -/

/-- The oldest day that the retention keeps. -/
def Moment.cutoff (m : Moment) : ℤ := m.today - (m.config.retentionDays - 1 : ℕ)

/-- The day that is written to, and the lines that each day is to hold. -/
structure Journal where
  currentDay : ℤ
  lines : ℤ → List LogLine

/-- A day begins: the lines of old days go. -/
def Journal.enter (j : Journal) (m : Moment) : Journal where
  currentDay := m.day
  lines day := if day < m.cutoff then [] else j.lines day

/-- A line is written. -/
def Journal.add (j : Journal) (line : LogLine) : Journal where
  currentDay := j.currentDay
  lines := Function.update j.lines j.currentDay (j.lines j.currentDay ++ [line])

def Journal.step (j : Journal) : SulogOp → Journal
  | .restart m => j.enter m
  | .line m text => if m.day = j.currentDay then j.add ⟨text, false⟩ else (j.enter m).add ⟨text, true⟩

/-- The journal of a run. -/
def journal (start : Moment) (ops : List SulogOp) : Journal := ops.foldl Journal.step ⟨start.day, fun _ => []⟩

/-! ### What a directory keeps -/

/-- A file that fits, a single line, or a file whose last line came with a change of the day. -/
def Bounded (maxFileSize : ℕ) (chunk : List LogLine) : Prop :=
  (logBytes chunk).length ≤ maxFileSize ∨ chunk.length = 1 ∨
    ∃ line, chunk.getLast? = some line ∧ line.changedDay = true

/-- The files of each day hold its lines in the order of their indices. -/
def KeepsLines (chrono : Chrono) (maxFileSize : ℕ) (lines : ℤ → List LogLine) (dir : LogDir) : Prop :=
  ∃ chunks : Chunks, Filed chrono chunks dir ∧ (∀ day, (chunks day).flatten = lines day) ∧
    ∀ day, ∀ chunk ∈ chunks day, Bounded maxFileSize chunk

/-- A moment with this `max_file_size`, a cutoff that is a date and a day of ten characters. -/
structure Moment.Usual (chrono : Chrono) (maxFileSize : ℕ) (m : Moment) : Prop where
  size : m.config.maxFileSize = maxFileSize
  cutoff : chrono.minDate ≤ m.cutoff
  plain : chrono.Plain m.day

/-- A step at such a moment; a line is no longer than an object can be. -/
def SulogOp.Usual (chrono : Chrono) (maxFileSize : ℕ) : SulogOp → Prop
  | .restart m => m.Usual chrono maxFileSize
  | .line m text => m.Usual chrono maxFileSize ∧ (asBytes text).length < 2 ^ 63

/-- Fewer than `2 ^ 32` files for each day, and no file of `2 ^ 63` bytes. -/
structure LogLimits (chrono : Chrono) (dir : LogDir) : Prop where
  files : ∀ day, (dir.filter fun file => chrono.parseLogDate file.1 = some day).length < 2 ^ 32
  bytes : ∀ file ∈ dir, file.2.length < 2 ^ 63

/-- The writer and the directory after the steps that the journal knows of. -/
structure Rotating (chrono : Chrono) (maxFileSize : ℕ) (j : Journal) (chunks : Chunks)
    (s : DailyLogWriter × LogDir) : Prop where
  filed : Filed chrono chunks s.2
  flatten : ∀ day, (chunks day).flatten = j.lines day
  bounded : ∀ day, ∀ chunk ∈ chunks day, Bounded maxFileSize chunk
  writer : ∃ full last, chunks j.currentDay = full ++ [last] ∧ s.1 =
    ⟨chrono.format j.currentDay, full.length, (logBytes last).length, maxFileSize,
      dailyLogPath (chrono.format j.currentDay) full.length⟩

variable {chrono : Chrono} {maxFileSize : ℕ} {j : Journal} {chunks : Chunks} {dir : LogDir}
  {s : DailyLogWriter × LogDir}

/-! ### One line -/

theorem LogLine.bytes_length (line : LogLine) : line.bytes.length = (asBytes line.text).length + 1 := by
  rw [LogLine.bytes, List.length_append]
  rfl

theorem logBytes_append (chunk : List LogLine) (line : LogLine) :
    (logBytes (chunk ++ [line])).length = (logBytes chunk).length + line.bytes.length := by
  rw [logBytes, List.flatMap_append, List.flatMap_singleton, List.length_append, ← logBytes]

/-- Only a file without lines is empty. -/
theorem eq_nil_of_logBytes {chunk : List LogLine} (h : (logBytes chunk).length = 0) : chunk = [] := by
  cases chunk with
  | nil => rfl
  | cons line chunk =>
    rw [logBytes, List.flatMap_cons, List.length_append, LogLine.bytes_length] at h
    omega

theorem Chunks.put_flatten {day : ℤ} {files : List (List LogLine)} {lines : ℤ → List LogLine}
    (hflatten : ∀ d, (chunks d).flatten = lines d) (d : ℤ) :
    (chunks.put day files d).flatten = Function.update lines day files.flatten d := by
  by_cases hd : d = day
  · subst hd
    rw [Chunks.put, Function.update_self, Function.update_self]
  · rw [Chunks.put, Function.update_of_ne hd, Function.update_of_ne hd, hflatten]

theorem Chunks.put_bounded {day : ℤ} {files : List (List LogLine)}
    (hbounded : ∀ d, ∀ chunk ∈ chunks d, Bounded maxFileSize chunk) (hfiles : ∀ chunk ∈ files, Bounded maxFileSize chunk) :
    ∀ d, ∀ chunk ∈ chunks.put day files d, Bounded maxFileSize chunk := by
  intro d chunk hchunk
  by_cases hd : d = day
  · rw [hd, Chunks.put, Function.update_self] at hchunk
    exact hfiles chunk hchunk
  · rw [Chunks.put, Function.update_of_ne hd] at hchunk
    exact hbounded d chunk hchunk

/-- **A line** goes to the file of the writer. -/
theorem Rotating.add (h : Rotating chrono maxFileSize j chunks s) {line : LogLine}
    (hline : ∀ full last, chunks j.currentDay = full ++ [last] → Bounded maxFileSize (last ++ [line]))
    (hsize : s.1.currentSize + line.bytes.length < 2 ^ 64) :
    ∃ chunks', Rotating chrono maxFileSize (j.add line) chunks'
      ({ s.1 with currentSize := min (s.1.currentSize + line.bytes.length) (2 ^ 64 - 1) },
        s.2.append s.1.writer line.bytes) := by
  obtain ⟨full, last, hday, hwriter⟩ := h.writer
  rw [hwriter] at hsize ⊢
  have hmin : min ((logBytes last).length + line.bytes.length) (2 ^ 64 - 1) = (logBytes (last ++ [line])).length := by
    rw [logBytes_append]
    exact Nat.min_eq_left (Nat.le_pred_of_lt hsize)
  refine ⟨chunks.put j.currentDay (full ++ [last ++ [line]]), h.filed.append hday line, ?flatten, ?bounded, ?writer⟩
  case flatten =>
    intro day
    have hlines : (full ++ [last ++ [line]]).flatten = j.lines j.currentDay ++ [line] := by
      rw [← h.flatten, hday, List.flatten_append, List.flatten_append, List.flatten_singleton, List.flatten_singleton,
        List.append_assoc]
    rw [Chunks.put_flatten h.flatten, hlines]
    rfl
  case bounded =>
    refine Chunks.put_bounded h.bounded fun chunk hchunk => ?_
    rcases List.mem_append.mp hchunk with hfull | hlast
    · exact h.bounded j.currentDay chunk (hday ▸ List.mem_append_left _ hfull)
    · exact List.mem_singleton.mp hlast ▸ hline full last hday
  case writer =>
    refine ⟨full, last ++ [line], Function.update_self _ _ _, ?_⟩
    show DailyLogWriter.mk _ _ (min _ _) _ _ = _
    rw [hmin]
    rfl

/-! ### Opening a file -/

theorem bounded_nil : Bounded maxFileSize [] := .inl (Nat.zero_le _)

/-- What the directory and the writer are when a day goes on in a new file. -/
theorem Rotating.of_create (hfiled : Filed chrono chunks dir) (hplain : chrono.Plain j.currentDay)
    (hlen : (chunks j.currentDay).length < 2 ^ 32) (hflatten : ∀ day, (chunks day).flatten = j.lines day)
    (hbounded : ∀ day, ∀ chunk ∈ chunks day, Bounded maxFileSize chunk) :
    Rotating chrono maxFileSize j (chunks.put j.currentDay (chunks j.currentDay ++ [[]]))
      (⟨chrono.format j.currentDay, (chunks j.currentDay).length, 0, maxFileSize,
          dailyLogPath (chrono.format j.currentDay) (chunks j.currentDay).length⟩,
        openLineWriter dir (dailyLogPath (chrono.format j.currentDay) (chunks j.currentDay).length)) where
  filed := hfiled.create hplain hlen
  flatten day := by
    rw [Chunks.put_flatten hflatten, List.flatten_append, List.flatten_singleton, List.append_nil, hflatten,
      Function.update_eq_self]
  bounded := by
    refine Chunks.put_bounded hbounded fun chunk hchunk => ?_
    rcases List.mem_append.mp hchunk with hold | hnew
    · exact hbounded j.currentDay chunk hold
    · exact List.mem_singleton.mp hnew ▸ bounded_nil
  writer := ⟨_, [], Function.update_self _ _ _, rfl⟩

theorem Chunks.expire_flatten (hflatten : ∀ day, (chunks day).flatten = j.lines day) (m : Moment) (day : ℤ) :
    (chunks.expire m.cutoff day).flatten = (j.enter m).lines day := by
  show List.flatten (if day < m.cutoff then [] else chunks day) = if day < m.cutoff then [] else j.lines day
  split_ifs
  · exact List.flatten_nil
  · exact hflatten day

theorem Chunks.mem_of_expire {cutoff day : ℤ} {chunk : List LogLine} (h : chunk ∈ chunks.expire cutoff day) :
    chunk ∈ chunks day := by
  rw [Chunks.expire] at h
  split_ifs at h
  · exact absurd h List.not_mem_nil
  · exact h

theorem Chunks.expire_length_le (chunks : Chunks) (cutoff day : ℤ) :
    (chunks.expire cutoff day).length ≤ (chunks day).length := by
  rw [Chunks.expire]
  split_ifs
  · exact Nat.zero_le _
  · exact Nat.le_refl _

/-- **A day begins** with its last file where that has room, and else with a new one. -/
theorem openDay_rotating (hmax : 0 < maxFileSize) (hfiled : Filed chrono chunks dir)
    (hflatten : ∀ day, (chunks day).flatten = j.lines day)
    (hbounded : ∀ day, ∀ chunk ∈ chunks day, Bounded maxFileSize chunk) (hlimits : LogLimits chrono dir) {m : Moment}
    (hm : m.Usual chrono maxFileSize) :
    ∃ chunks' s, openDay chrono (.ok m.config) m.today (chrono.format m.day) (some dir) = .ok s ∧
      Rotating chrono maxFileSize (j.enter m) chunks' s ∧ s.1.currentSize < 2 ^ 63 := by
  have hcutoff : chrono.checkedSubDays m.today (m.config.retentionDays - 1) = some m.cutoff := if_pos hm.cutoff
  have hkept := hfiled.expire m.cutoff
  have hkeptFlatten := Chunks.expire_flatten hflatten m
  have hkeptBounded : ∀ day, ∀ chunk ∈ chunks.expire m.cutoff day, Bounded maxFileSize chunk :=
    fun day chunk hchunk => hbounded day chunk (Chunks.mem_of_expire hchunk)
  have hlen : (chunks.expire m.cutoff m.day).length < 2 ^ 32 :=
    (Chunks.expire_length_le chunks m.cutoff m.day).trans_lt (hfiled.length_lt (hlimits.files m.day))
  have hscan := hkept.scan hm.plain
  generalize chunks.expire m.cutoff = chunks at hkept hkeptFlatten hkeptBounded hlen hscan
  have hindex : (if (!(chunks m.day).isEmpty) = true then (chunks m.day).length - 1 else 0) =
      (chunks m.day).length - 1 := by
    cases chunks m.day with
    | nil => rfl
    | cons chunk rest => rfl
  have hcreate := Rotating.of_create (j := j.enter m) hkept hm.plain hlen hkeptFlatten hkeptBounded
  by_cases hroom : ∃ full last, chunks m.day = full ++ [last] ∧ ¬maxFileSize ≤ (logBytes last).length
  · obtain ⟨full, last, hday, hroom⟩ := hroom
    have hlast : (chunks m.day)[full.length]? = some last := by rw [hday, List.getElem?_concat_length]
    have hlength : (chunks m.day).length - 1 = full.length := by
      rw [hday, List.length_append, List.length_singleton, Nat.add_sub_cancel]
    have hfile := hkept.currentLogFile_last hday hroom
    rw [← hlength, ← hindex, ← hm.size] at hfile
    have hopen := openDay_of_scan hcutoff hscan hfile
    rw [hindex, hlength] at hopen
    rw [hm.size, hkept.openLineWriter_of_chunk hlast] at hopen
    have hbytes : (logBytes last).length < 2 ^ 63 :=
      hlimits.bytes (_, logBytes last) (List.mem_filter.mp ((hkept.mem_iff _).mpr ⟨_, _, _, hlast, rfl⟩)).1
    exact ⟨chunks, _, hopen, ⟨hkept, hkeptFlatten, hkeptBounded, full, last, hday, rfl⟩, hbytes⟩
  · have hfull : ∀ last ∈ (chunks m.day).getLast?, maxFileSize ≤ (logBytes last).length := by
      intro last hlast
      by_contra hlarge
      exact hroom ⟨_, last, (List.dropLast_append_getLast? last hlast).symm, hlarge⟩
    have hfile := hkept.currentLogFile_new hmax hm.plain hlen hfull
    rw [← hindex, ← hm.size] at hfile
    have hopen := openDay_of_scan hcutoff hscan hfile
    rw [hm.size] at hopen
    exact ⟨_, _, hopen, hcreate, Nat.two_pow_pos 63⟩

/-! ### One step -/

namespace Rotating

/-- The size that the writer counts is that of its file. -/
theorem currentSize_eq (h : Rotating chrono maxFileSize j chunks s) {full : List (List LogLine)} {last : List LogLine}
    (hday : chunks j.currentDay = full ++ [last]) : s.1.currentSize = (logBytes last).length := by
  obtain ⟨full', last', hday', hwriter⟩ := h.writer
  obtain ⟨-, hlast⟩ := List.append_inj' (hday.symm.trans hday') rfl
  rw [hwriter, List.cons.inj hlast |>.1]

theorem plain (h : Rotating chrono maxFileSize j chunks s) : chrono.Plain j.currentDay := by
  obtain ⟨full, last, hday, -⟩ := h.writer
  refine h.filed.plain _ fun hempty => ?_
  rw [hday] at hempty
  exact List.append_ne_nil_of_right_ne_nil full (List.cons_ne_nil last []) hempty

/-- **On the same day** a file without room for the line is left for a new one. -/
theorem rotateIfNeeded (h : Rotating chrono maxFileSize j chunks s) (hlimits : LogLimits chrono s.2)
    {nextWriteLen : ℕ} (hlen : nextWriteLen ≤ 2 ^ 63) (config : Except String SulogConfig) (today : ℤ) :
    ∃ chunks' s', s.1.rotateIfNeeded chrono config today j.currentDay s.2 nextWriteLen = .ok s' ∧
      Rotating chrono maxFileSize j chunks' s' ∧ s'.1.currentSize < 2 ^ 63 ∧
        (s'.1.currentSize = 0 ∨ s'.1.currentSize + nextWriteLen ≤ maxFileSize) := by
  obtain ⟨full, last, hday, hwriter⟩ := h.writer
  have hlast : (chunks j.currentDay)[full.length]? = some last := by rw [hday, List.getElem?_concat_length]
  have hbytes : (logBytes last).length < 2 ^ 63 :=
    hlimits.bytes (_, logBytes last) ((h.filed.mem_iff _).mpr ⟨_, _, _, hlast, rfl⟩)
  have hlength : (chunks j.currentDay).length = full.length + 1 := by rw [hday, List.length_append, List.length_singleton]
  have hfiles := h.filed.length_lt (hlimits.files j.currentDay)
  have hsame : ¬chrono.format j.currentDay ≠ s.1.currentDay := fun hne => hne (by rw [hwriter])
  rw [DailyLogWriter.rotateIfNeeded, if_neg hsame]
  by_cases hrotate : 0 < s.1.currentSize ∧ s.1.maxFileSize < min (s.1.currentSize + nextWriteLen) (2 ^ 64 - 1)
  · have hcreate := Rotating.of_create h.filed h.plain hfiles h.flatten h.bounded
    rw [if_pos hrotate]
    simp only [hwriter, nextIndex_of_lt (hlength ▸ hfiles)]
    rw [hlength] at hcreate
    exact ⟨_, _, rfl, hcreate, Nat.two_pow_pos 63, .inl rfl⟩
  · rw [if_neg hrotate]
    refine ⟨chunks, s, rfl, h, by rw [hwriter]; exact hbytes, ?_⟩
    rw [hwriter] at hrotate ⊢
    dsimp only at hrotate ⊢
    omega

/-- **Each step** does to the directory what it does to the journal. -/
theorem step (h : Rotating chrono maxFileSize j chunks s) (hmax : 0 < maxFileSize) (hlimits : LogLimits chrono s.2)
    {op : SulogOp} (hop : op.Usual chrono maxFileSize) :
    ∃ chunks' s', sulogdStep chrono s op = .ok s' ∧ Rotating chrono maxFileSize (j.step op) chunks' s' := by
  cases op with
  | restart m =>
    obtain ⟨chunks', s', hopen, hrotating, -⟩ := openDay_rotating hmax h.filed h.flatten h.bounded hlimits hop
    exact ⟨chunks', s', hopen, hrotating⟩
  | line m text =>
    obtain ⟨hm, htext⟩ := hop
    have hlen : ¬2 ^ 64 ≤ (asBytes text).length + 1 := by omega
    -- whatever the rotation leaves, the line is appended to its file
    have hwrite : ∀ {s' : DailyLogWriter × LogDir} (changedDay : Bool),
        s.1.rotateIfNeeded chrono (.ok m.config) m.today m.day s.2 ((asBytes text).length + 1) = .ok s' →
        sulogdStep chrono s (.line m text) = .ok
          ({ s'.1 with currentSize := min (s'.1.currentSize + (LogLine.mk text changedDay).bytes.length) (2 ^ 64 - 1) },
            s'.2.append s'.1.writer (LogLine.mk text changedDay).bytes) := by
      intro s' changedDay hrotate
      rw [sulogdStep, writeLogLine, if_neg hlen, hrotate, LogLine.bytes_length]
      rfl
    by_cases hday : m.day = j.currentDay
    · obtain ⟨chunks', s', hrotate, hrotating, hsize, hroom⟩ :=
        h.rotateIfNeeded hlimits (Nat.succ_le_of_lt htext) (.ok m.config) m.today
      rw [← hday] at hrotate
      have hline : ∀ full last, chunks' j.currentDay = full ++ [last] →
          Bounded maxFileSize (last ++ [⟨text, false⟩]) := by
        intro full last hlast
        rw [hrotating.currentSize_eq hlast] at hroom
        rcases hroom with hempty | hfits
        · rw [eq_nil_of_logBytes hempty]
          exact .inr (.inl rfl)
        · refine .inl ?_
          rw [logBytes_append, LogLine.bytes_length]
          exact hfits
      obtain ⟨chunks'', hadd⟩ := hrotating.add hline (by rw [LogLine.bytes_length]; dsimp only; omega)
      rw [Journal.step, if_pos hday]
      exact ⟨chunks'', _, hwrite false hrotate, hadd⟩
    · have hchanged : chrono.format m.day ≠ s.1.currentDay := by
        obtain ⟨full, last, -, hwriter⟩ := h.writer
        rw [hwriter]
        intro heq
        have hreads := hm.plain.reads
        rw [heq, h.plain.reads] at hreads
        exact hday (Option.some.inj hreads).symm
      obtain ⟨chunks', s', hopen, hrotating, hsize⟩ := openDay_rotating hmax h.filed h.flatten h.bounded hlimits hm
      have hrotate : s.1.rotateIfNeeded chrono (.ok m.config) m.today m.day s.2 ((asBytes text).length + 1) = .ok s' := by
        rw [DailyLogWriter.rotateIfNeeded, if_pos hchanged, hopen]
      have hline : ∀ full last, chunks' (j.enter m).currentDay = full ++ [last] →
          Bounded maxFileSize (last ++ [⟨text, true⟩]) :=
        fun full last _ => .inr (.inr ⟨_, List.getLast?_concat, rfl⟩)
      obtain ⟨chunks'', hadd⟩ := hrotating.add hline (by rw [LogLine.bytes_length]; dsimp only; omega)
      rw [Journal.step, if_neg hday]
      exact ⟨chunks'', _, hwrite true hrotate, hadd⟩

/-- **So does every run.** -/
theorem run (hmax : 0 < maxFileSize) {ops : List SulogOp} (h : Rotating chrono maxFileSize j chunks s)
    (hops : ∀ op ∈ ops, op.Usual chrono maxFileSize)
    (hlimits : ∀ n s', (ops.take n).foldlM (sulogdStep chrono) s = .ok s' → LogLimits chrono s'.2) :
    ∃ chunks' s', ops.foldlM (sulogdStep chrono) s = .ok s' ∧
      Rotating chrono maxFileSize (ops.foldl Journal.step j) chunks' s' := by
  induction ops generalizing j chunks s with
  | nil => exact ⟨chunks, s, rfl, h⟩
  | cons op ops ih =>
    obtain ⟨chunks', s', hstep, hrotating⟩ := h.step hmax (hlimits 0 s rfl) (hops op List.mem_cons_self)
    have hcons : ∀ rest, List.foldlM (sulogdStep chrono) s (op :: rest) = rest.foldlM (sulogdStep chrono) s' := by
      intro rest
      rw [List.foldlM_cons, hstep]
      rfl
    obtain ⟨chunks'', s'', hrun, hend⟩ := ih hrotating (fun o ho => hops o (List.mem_cons_of_mem _ ho))
      fun n s'' hn => hlimits (n + 1) s'' (by rw [List.take_succ_cons, hcons]; exact hn)
    exact ⟨chunks'', s'', (hcons ops).trans hrun, hend⟩

end Rotating

/-! ### Whole runs -/

theorem filed_nil : Filed chrono (fun _ => []) [] where
  nodup := List.nodup_nil
  mem_iff file := by
    constructor
    · exact fun h => absurd h List.not_mem_nil
    · rintro ⟨day, index, chunk, hchunk, -⟩
      cases hchunk
  plain day h := absurd rfl h
  short day := Nat.zero_le _

theorem logLimits_nil : LogLimits chrono [] where
  files _ := Nat.two_pow_pos 32
  bytes _ h := absurd h List.not_mem_nil

/-- **Every run keeps its lines.**  Whatever sessions and days it goes through, the run succeeds, its directory holds
the lines of the journal, and the name of every file reads back. -/
theorem sulogdRun_keepsLines (chrono : Chrono) {maxFileSize : ℕ} (hmax : 0 < maxFileSize) {start : Moment}
    {ops : List SulogOp} (hstart : start.Usual chrono maxFileSize) (hops : ∀ op ∈ ops, op.Usual chrono maxFileSize)
    (hlimits : ∀ n s, sulogdRun chrono start (ops.take n) = .ok s → LogLimits chrono s.2) :
    (∃ s, sulogdRun chrono start ops = .ok s ∧ KeepsLines chrono maxFileSize (journal start ops).lines s.2) ∧
      ∀ day index, chrono.Plain day → index < 2 ^ 32 →
        chrono.parseLogName (dailyLogPath (chrono.format day) index) = some (day, index) := by
  refine ⟨?_, fun day index hplain hindex => hplain.parse hindex⟩
  have hempty : ∀ day, List.flatten ((fun _ => [] : Chunks) day) = (Journal.mk start.day fun _ => []).lines day :=
    fun _ => List.flatten_nil
  obtain ⟨chunks, s, hopen, hrotating, -⟩ := openDay_rotating hmax filed_nil hempty
    (fun _ _ h => absurd h List.not_mem_nil) logLimits_nil hstart
  have hrun : ∀ ops, sulogdRun chrono start ops = ops.foldlM (sulogdStep chrono) s := by
    intro ops
    have hstarted : DailyLogWriter.open chrono (.ok start.config) start.today start.day none = .ok s := hopen
    rw [sulogdRun, hstarted]
    rfl
  have hentered : (Journal.mk start.day fun _ => []).enter start = ⟨start.day, fun _ => []⟩ := by
    simp only [Journal.enter, ite_self]
  rw [hentered] at hrotating
  obtain ⟨chunks', s', hend, hrotating'⟩ := hrotating.run hmax hops fun n s' hn => hlimits n s' ((hrun _).trans hn)
  exact ⟨s', (hrun ops).trans hend, chunks', hrotating'.filed, hrotating'.flatten, hrotating'.bounded⟩

theorem logLimits_of_small (hfiles : dir.length < 2 ^ 32) (hbytes : ∀ file ∈ dir, file.2.length < 2 ^ 63) :
    LogLimits chrono dir where
  files _ := (List.length_filter_le _ _).trans_lt hfiles
  bytes := hbytes

/-- A moment of the last day of a year, with a retention of three days and files of eight bytes. -/
def lastDay : Moment := ⟨⟨3, 8⟩, 19722, 19722⟩

/-- The next day. -/
def newYear : Moment := ⟨⟨3, 8⟩, 19723, 19723⟩

/-- The same day, with a retention of one. -/
def shortened : Moment := ⟨⟨1, 8⟩, 19723, 19723⟩

/-- Two lines that do not fit in one file, a new session, two lines of the next day, a line of a clock that goes back,
and a line at which the retention has become shorter. -/
def newYearOps : List SulogOp :=
  [.line lastDay "aaaa".toList, .line lastDay "bbbb".toList, .restart lastDay, .line newYear "cccc".toList,
    .line newYear "dddd".toList, .line lastDay "e".toList, .line shortened "f".toList]

/-- The first day goes, and the next one keeps its two files. -/
theorem sulogdRun_keepsLines_newYear :
    (∃ s, sulogdRun someDates lastDay newYearOps = .ok s ∧
      s.2 = [(dailyLogPath "2024-01-01".toList 0, asBytes "cccc\n".toList),
        (dailyLogPath "2024-01-01".toList 1, asBytes "dddd\nf\n".toList)] ∧
      KeepsLines someDates 8 (journal lastDay newYearOps).lines s.2) ∧
      ∀ day index, someDates.Plain day → index < 2 ^ 32 →
        someDates.parseLogName (dailyLogPath (someDates.format day) index) = some (day, index) := by
  have hlast : lastDay.Usual someDates 8 := ⟨rfl, by decide, by decide +kernel, by decide +kernel⟩
  have hnext : newYear.Usual someDates 8 := ⟨rfl, by decide, by decide +kernel, by decide +kernel⟩
  have hshort : shortened.Usual someDates 8 := ⟨rfl, by decide, by decide +kernel, by decide +kernel⟩
  have husual : ∀ op ∈ newYearOps, op.Usual someDates 8 := by
    intro op hop
    simp only [newYearOps, List.mem_cons, List.not_mem_nil, or_false] at hop
    rcases hop with rfl | rfl | rfl | rfl | rfl | rfl | rfl
    · exact ⟨hlast, by decide⟩
    · exact ⟨hlast, by decide⟩
    · exact hlast
    · exact ⟨hnext, by decide⟩
    · exact ⟨hnext, by decide⟩
    · exact ⟨hlast, by decide⟩
    · exact ⟨hshort, by decide⟩
  -- whatever is left of the run, its directory is small
  have hsmall : ∀ n < 8, (sulogdRun someDates lastDay (newYearOps.take n)).map (fun s =>
      decide (s.2.length ≤ 5) && s.2.all fun file => decide (file.2.length ≤ 10)) = .ok true := by decide +kernel
  have hlimits : ∀ n s, sulogdRun someDates lastDay (newYearOps.take n) = .ok s → LogLimits someDates s.2 := by
    intro n s hrun
    have htake : newYearOps.take n = newYearOps.take (min n 7) := by
      rcases Nat.le_total n 7 with hle | hge
      · rw [Nat.min_eq_left hle]
      · rw [Nat.min_eq_right hge, List.take_of_length_le hge, List.take_of_length_le (Nat.le_refl 7)]
    have hdir := hsmall (min n 7) (by omega)
    rw [← htake, hrun] at hdir
    have hboth := Except.ok.inj hdir
    rw [Bool.and_eq_true, decide_eq_true_eq, List.all_eq_true] at hboth
    refine logLimits_of_small (hboth.1.trans_lt (by decide)) fun file hfile => ?_
    exact (of_decide_eq_true (hboth.2 file hfile)).trans_lt (by decide)
  obtain ⟨⟨s, hrun, hkeeps⟩, hnames⟩ := sulogdRun_keepsLines someDates (by decide) hlast husual hlimits
  have hend : (sulogdRun someDates lastDay newYearOps).map Prod.snd =
      .ok [(dailyLogPath "2024-01-01".toList 0, asBytes "cccc\n".toList),
        (dailyLogPath "2024-01-01".toList 1, asBytes "dddd\nf\n".toList)] := by decide +kernel
  rw [hrun] at hend
  exact ⟨⟨s, hrun, Except.ok.inj hend, hkeeps⟩, hnames⟩

/-- What a directory does not keep: a line whose day the retention removes; the limit on a file that a change of the
day comes back to; a name with a year of five digits; and any line where the cutoff is no date. -/
theorem sulogdRun_exceptions :
    (sulogdRun someDates lastDay [.line lastDay "a".toList, .restart ⟨⟨3, 8⟩, 19730, 19730⟩]).map Prod.snd =
        .ok [(dailyLogPath "2024-01-08".toList 0, [])] ∧
      (sulogdRun someDates lastDay
          [.line lastDay "aaaa".toList, .line ⟨⟨3, 8⟩, 19723, 19723⟩ "b".toList, .line lastDay "cccc".toList]).map
          Prod.snd =
        .ok [(dailyLogPath "2023-12-31".toList 0, asBytes "aaaa\ncccc\n".toList),
          (dailyLogPath "2024-01-01".toList 0, asBytes "b\n".toList)] ∧
      (asBytes "aaaa\ncccc\n".toList).length = 10 ∧
      someDates.parseLogName (dailyLogPath (someDates.format 2932897) 0) = none ∧
      (sulogdRun someDates ⟨⟨2 ^ 64 - 1, 8⟩, 19723, 19723⟩ []).map Prod.snd =
        .error "failed to compute sulog retention cutoff" := by
  refine ⟨?removed, ?overflowing, rfl, ?unread, ?unopened⟩
  case removed => decide +kernel
  case overflowing => decide +kernel
  case unread => decide +kernel
  case unopened => decide +kernel

end KernelSU.Ksud
