import KernelSU.Infra.EventQueueAccounting

/-!
# What a read of the event queue returns

A read is let through by data or by the close, and then works on what it finds; between the two, and
between its sections, producers go on.

* `callRecords` — the lengths of the records that the current call has removed;
* `CallInv` — the invariant of a call: what it has copied is the length of what it has removed, and as
  long as it has removed nothing, either there is something to deliver or the queue is closed;
* `read_returns` — **PROVED**: while fewer than `2^64` numbers have been handed out, a read returns 0 only
  for a count of 0 or from a closed queue with nothing left, and otherwise the length of what it removed,
  or an error having removed nothing;
* `read_returns_zero_open` — **PROVED**: `2^64` drops during one read wrap the counter that let it
  through, and it returns 0 from an open queue.
-/

namespace KernelSU.Infra

open KernelSU.Lib

/-! ### The records of a call -/

/-- The lengths of the records removed since a call entered, after one more step. -/
def noteRecord (records : List ℕ) : Label → List ℕ
  | .entered _ => []
  | .dropDelivered _ _ => records ++ [recordSize sizeofDroppedInfo]
  | .nodeDelivered node => records ++ [recordSize node.hdr.len]
  | .internal | .accepted _ | .dropped _ | .turnedAway _ _ | .dropTaken | .dropRestored
  | .returned _ => records

/-- The lengths of the records that the last call to enter has removed. -/
def callRecords (trace : List Label) : List ℕ := trace.foldl noteRecord []

theorem callRecords_append (trace : List Label) (e : Label) :
    callRecords (trace ++ [e]) = noteRecord (callRecords trace) e := by
  simp only [callRecords, List.foldl_append, List.foldl_cons, List.foldl_nil]

/-- No record is empty. -/
def Sized (records : List ℕ) : Prop := ∀ n ∈ records, 0 < n

theorem Sized.note {records : List ℕ} (h : Sized records) (e : Label) : Sized (noteRecord records e) := by
  have hconcat : ∀ len : UInt32, Sized (records ++ [recordSize len]) := by
    intro len n hn
    rcases List.mem_append.mp hn with hn | hn
    · exact h n hn
    · rw [List.mem_singleton.mp hn, recordSize]
      omega
  cases e with
  | entered _ => exact fun n hn => (List.not_mem_nil hn).elim
  | dropDelivered _ _ => exact hconcat _
  | nodeDelivered _ => exact hconcat _
  | _ => exact h

theorem Sized.sum_pos {records : List ℕ} (h : Sized records) (hne : records ≠ []) : 0 < records.sum := by
  cases records with
  | nil => exact absurd rfl hne
  | cons n ns =>
    have hn := h n List.mem_cons_self
    rw [List.sum_cons]
    omega

/-! ### The invariant of a call -/

/-- Where the call `c` stands with respect to queue, ledger and the records it has removed. -/
def CallInv (q : EventQueue) (l : Ledger) (records : List ℕ) (c : ReadCall) : Prop :=
  match c.pc with
  | .waitData | .waitClosed | .sleepClosed | .sleepData => c.copied = 0 ∧ records = []
  | .readDrop => c.copied = records.sum ∧
      (records = [] → q.closed = true ∨ l.dropPending ≠ [] ∨ q.pending ≠ [])
  | .copyDrop _ _ => c.copied = records.sum
  | .readNode => c.copied = records.sum ∧
      (records = [] → (q.closed = true ∧ l.dropPending = []) ∨ q.pending ≠ [])
  | .copyNode _ => c.copied = records.sum
  | .finish => (c.copied < 0 ∧ records = []) ∨ (0 < c.copied ∧ c.copied = records.sum) ∨
      (c.copied = 0 ∧ records = [] ∧ q.closed = true ∧ l.dropPending = [] ∧ q.pending = [])

/-- What producers and the close do is no harm to a call: data only comes in, and none once the queue
is closed. -/
theorem CallInv.produce {q q' : EventQueue} {l l' : Ledger} {records : List ℕ} {c : ReadCall}
    (h : CallInv q l records c) (hclosed : q.closed = true → q'.closed = true)
    (hpending : q.pending ≠ [] → q'.pending ≠ []) (hdrops : l.dropPending ≠ [] → l'.dropPending ≠ [])
    (hstop : q.closed = true → q'.pending = q.pending ∧ l'.dropPending = l.dropPending) :
    CallInv q' l' records c := by
  unfold CallInv at h ⊢
  split at h
  · exact h
  · exact h
  · exact h
  · exact h
  · exact ⟨h.1, fun hnil => (h.2 hnil).imp hclosed (Or.imp hdrops hpending)⟩
  · exact h
  · refine ⟨h.1, fun hnil => (h.2 hnil).imp ?_ hpending⟩
    rintro ⟨hc, hnone⟩
    exact ⟨hclosed hc, (hstop hc).2.trans hnone⟩
  · exact h
  · refine h.imp id (Or.imp id ?_)
    rintro ⟨hzero, hnil, hc, hnone, hempty⟩
    exact ⟨hzero, hnil, hclosed hc, (hstop hc).2.trans hnone, (hstop hc).1.trans hempty⟩

/-- A failing section ends the loop: with an error if nothing was removed, else with what was. -/
theorem callInv_fail {q : EventQueue} {l : Ledger} {records : List ℕ} {c : ReadCall}
    (hsized : Sized records) (hcopied : c.copied = records.sum) (e : Errno) :
    CallInv q l records (c.fail e) := by
  by_cases hnil : records = []
  · subst hnil
    refine .inl ⟨?_, rfl⟩
    have hzero : c.copied = 0 := hcopied
    show (if c.copied = 0 then e.val else c.copied) < 0
    rw [if_pos hzero]
    exact e.range.2
  · have hpos := hsized.sum_pos hnil
    have hne : c.copied ≠ 0 := by omega
    refine .inr (.inl ?_)
    show 0 < (if c.copied = 0 then e.val else c.copied) ∧ (if c.copied = 0 then e.val else c.copied) = _
    rw [if_neg hne]
    exact ⟨by omega, hcopied⟩

/-- A record removed is a record counted. -/
theorem callInv_advance {q : EventQueue} {l : Ledger} {records : List ℕ} {c : ReadCall}
    (hcopied : c.copied = records.sum) {size : ℕ} (hsize : 0 < size) :
    CallInv q l (records ++ [size]) (c.advance size) := by
  have hsum : c.copied + size = ((records ++ [size]).sum : ℕ) := by
    rw [List.sum_append, List.sum_singleton, hcopied, Nat.cast_add]
  have hne : records ++ [size] ≠ [] := List.append_ne_nil_of_right_ne_nil _ (List.cons_ne_nil _ _)
  unfold CallInv
  simp only [ReadCall.advance]
  split_ifs
  · exact ⟨hsum, fun hnil => absurd hnil hne⟩
  · have hcount : (0 : ℤ) ≤ c.copied := hcopied ▸ Int.natCast_nonneg _
    exact .inr (.inl ⟨by omega, hsum⟩)

/-- The invariant of a run: the accounting, and that of the call under way. -/
structure ReadInv (s : QueueState) (l : Ledger) (records : List ℕ) : Prop where
  accounts : QueueInv s l
  sized : Sized records
  call : ∀ c, s.reader = some c → CallInv s.queue l records c

/-! ### The sections of the reader -/

variable {q : EventQueue} {c : ReadCall} {l : Ledger} {records : List ℕ}

/-- What `ksu_event_queue_has_data_locked` says while nothing is in flight. -/
theorem hasDataLocked_iff (hbooks : Books q l) (hfew : l.handedOut.length < 2 ^ 64)
    (hnone : l.dropInflight = []) :
    q.hasDataLocked = true ↔ l.dropPending ≠ [] ∨ q.pending ≠ [] := by
  have hlen := hbooks.length_places
  have hinflight := (hbooks.dropInflight.count_eq_zero (by omega)).mpr hnone
  have hpending := hbooks.dropPending.count_eq_zero (by omega)
  simp only [EventQueue.hasDataLocked, hinflight, bne_self_eq_false, Bool.or_false, Bool.or_eq_true,
    bne_iff_ne, ne_eq, hpending, Bool.not_eq_true', List.isEmpty_eq_false_iff]

/-- Whether and what a section returns. -/
structure Returns (q : EventQueue) (records : List ℕ) (ret : ℤ) : Prop where
  zero : ret = 0 → records = [] ∧ q.closed = true ∧ q.hasDataLocked = false
  positive : 0 < ret → ret = records.sum
  negative : ret < 0 → records = []

/-- The reader's next section keeps the invariant of the call. -/
theorem ReadInv.call_readStep (h : ReadInv ⟨q, some c⟩ l records) (hfew : l.handedOut.length < 2 ^ 64)
    (faults : Bool) (now : UInt64) :
    ∀ c', (readStep q c faults now).1.reader = some c' →
      CallInv (readStep q c faults now).1.queue (l.note (readStep q c faults now).2)
        (noteRecord records (readStep q c faults now).2) c' := by
  obtain ⟨⟨hbooks, hholds⟩, hsized, hcall⟩ := h
  have hc := hcall c rfl
  obtain ⟨count, nonblock, copied, pc⟩ := c
  intro c' hc'
  cases pc with
  | waitData =>
    obtain ⟨rfl, rfl⟩ : copied = 0 ∧ records = [] := hc
    have hdata := hasDataLocked_iff hbooks hfew hholds
    simp only [readStep, ReadCall.goto, Option.some_inj] at hc'
    subst hc'
    simp only [readStep]
    split_ifs with hd
    · exact ⟨rfl, fun _ => .inr (hdata.mp hd)⟩
    · exact ⟨rfl, rfl⟩
  | waitClosed =>
    obtain ⟨rfl, rfl⟩ : copied = 0 ∧ records = [] := hc
    simp only [readStep] at hc' ⊢
    split_ifs at hc' ⊢ with hclosed
    · cases hc'
      exact ⟨rfl, fun _ => .inl hclosed⟩
    · cases hc'
      exact ⟨rfl, rfl⟩
  | sleepClosed =>
    obtain ⟨rfl, rfl⟩ : copied = 0 ∧ records = [] := hc
    simp only [readStep, ReadCall.goto, Option.some_inj] at hc'
    subst hc'
    simp only [readStep]
    split_ifs <;> exact ⟨rfl, rfl⟩
  | sleepData =>
    obtain ⟨rfl, rfl⟩ : copied = 0 ∧ records = [] := hc
    simp only [readStep, ReadCall.goto, Option.some_inj] at hc'
    subst hc'
    simp only [readStep]
    split_ifs <;> exact ⟨rfl, rfl⟩
  | readDrop =>
    obtain ⟨hcopied, hready⟩ : copied = records.sum ∧
      (records = [] → q.closed = true ∨ l.dropPending ≠ [] ∨ q.pending ≠ []) := hc
    have hlen := hbooks.length_places
    have hzero := hbooks.dropPending.count_eq_zero (by omega)
    simp only [readStep, EventQueue.readDropTake] at hc' ⊢
    split_ifs at hc' ⊢ with hdrops hroom
    · cases hc'
      have hnone := hzero.mp hdrops
      refine ⟨hcopied, fun hnil => ?_⟩
      rcases hready hnil with hclosed | hpending | hpending
      · exact .inl ⟨hclosed, hnone⟩
      · exact absurd hnone hpending
      · exact .inr hpending
    · cases hc'
      exact callInv_fail hsized hcopied _
    · cases hc'
      exact hcopied
  | copyDrop hdr info =>
    have hcopied : copied = records.sum := hc
    simp only [readStep] at hc' ⊢
    split_ifs at hc' ⊢
    · cases hc'
      exact callInv_fail hsized hcopied _
    · cases hc'
      exact callInv_advance hcopied (by decide)
  | readNode =>
    obtain ⟨hcopied, hready⟩ : copied = records.sum ∧
      (records = [] → (q.closed = true ∧ l.dropPending = []) ∨ q.pending ≠ []) := hc
    simp only [readStep, EventQueue.readNodeFirst] at hc' ⊢
    cases hpending : q.pending with
    | nil =>
      simp only [hpending] at hc' ⊢
      cases hc'
      by_cases hnil : records = []
      · rcases hready hnil with ⟨hclosed, hnone⟩ | hne
        · refine .inr (.inr ⟨?_, hnil, hclosed, hnone, hpending⟩)
          rw [ReadCall.goto, hcopied, hnil]
          rfl
        · exact absurd hpending hne
      · have hpos := hsized.sum_pos hnil
        refine .inr (.inl ⟨?_, hcopied⟩)
        show (0 : ℤ) < copied
        omega
    | cons node rest =>
      simp only [hpending] at hc' ⊢
      split_ifs at hc' ⊢
      · cases hc'
        exact callInv_fail hsized hcopied _
      · cases hc'
        exact hcopied
  | copyNode node =>
    have hcopied : copied = records.sum := hc
    simp only [readStep] at hc' ⊢
    split_ifs at hc' ⊢
    · cases hc'
      exact callInv_fail hsized hcopied _
    · cases hc'
      refine callInv_advance hcopied ?_
      rw [recordSize]
      omega
  | finish => cases hc'

/-- What the reader's next section returns, if it returns. -/
theorem ReadInv.returns_readStep (h : ReadInv ⟨q, some c⟩ l records)
    (hfew : l.handedOut.length < 2 ^ 64) {faults : Bool} {now : UInt64} {ret : ℤ}
    (hret : (Infra.readStep q c faults now).2 = .returned ret) :
    Returns (Infra.readStep q c faults now).1.queue records ret := by
  obtain ⟨⟨hbooks, hholds⟩, hsized, hcall⟩ := h
  have hc := hcall c rfl
  obtain ⟨count, nonblock, copied, pc⟩ := c
  cases pc with
  | waitData => cases hret
  | waitClosed =>
    obtain ⟨rfl, rfl⟩ : copied = 0 ∧ records = [] := hc
    simp only [readStep] at hret ⊢
    split_ifs at hret ⊢
    cases hret
    exact ⟨fun h => absurd h (by decide), fun h => absurd h (by decide), fun _ => rfl⟩
  | sleepClosed => cases hret
  | sleepData => cases hret
  | readDrop =>
    simp only [readStep, EventQueue.readDropTake] at hret
    split_ifs at hret
  | copyDrop hdr info =>
    simp only [readStep] at hret
    split_ifs at hret
  | readNode =>
    simp only [readStep, EventQueue.readNodeFirst] at hret
    cases hpending : q.pending with
    | nil =>
      rw [hpending] at hret
      cases hret
    | cons node rest =>
      simp only [hpending] at hret
      split_ifs at hret
  | copyNode node =>
    simp only [readStep] at hret
    split_ifs at hret
  | finish =>
    have hvalue : (if copied = 0 ∧ q.closed = true then 0 else copied) = copied := by
      split_ifs with hzero
      · exact hzero.1.symm
      · rfl
    simp only [readStep, Label.returned.injEq, hvalue] at hret
    subst hret
    have hdone : (copied < 0 ∧ records = []) ∨ (0 < copied ∧ copied = records.sum) ∨
      (copied = 0 ∧ records = [] ∧ q.closed = true ∧ l.dropPending = [] ∧ q.pending = []) := hc
    rcases hdone with ⟨hneg, hnil⟩ | ⟨hpos, hsum⟩ | ⟨hzero, hnil, hclosed, hdrops, hpending⟩
    · exact ⟨fun h => absurd h (by omega), fun h => absurd h (by omega), fun _ => hnil⟩
    · exact ⟨fun h => absurd h (by omega), fun _ => hsum, fun h => absurd h (by omega)⟩
    · refine ⟨fun _ => ⟨hnil, hclosed, ?_⟩, fun h => absurd h (by omega), fun h => absurd h (by omega)⟩
      have hdata : q.hasDataLocked = true ↔ l.dropPending ≠ [] ∨ q.pending ≠ [] :=
        hasDataLocked_iff hbooks hfew hholds
      show q.hasDataLocked = false
      rw [← Bool.not_eq_true, hdata, hdrops, hpending]
      simp

/-! ### One step -/

/-- Once the queue is closed a push changes nothing. -/
theorem EventQueue.push_closed {q : EventQueue} (hclosed : q.closed = true) (type flags : UInt16)
    (len : UInt32) (payload : Option (List.Vector UInt8 len.toNat)) (allocSucceeds : Bool)
    (now : UInt64) :
    (q.push type flags len payload allocSucceeds now).1 = q ∧
      pushLabel q.nextSeq (q.push type flags len payload allocSucceeds now).2 = .internal := by
  rw [push]
  split
  · exact ⟨rfl, rfl⟩
  · split
    · exact ⟨rfl, rfl⟩
    · rw [pushLocked, if_pos hclosed]
      exact ⟨rfl, rfl⟩

/-- A producer's section, as a call under way sees it. -/
theorem CallInv.push {q q' : EventQueue} {e : Label} (h : CallInv q l records c)
    (hstop : q.closed = true → q' = q ∧ e = .internal)
    (hcases : (q' = q ∧ e = .internal) ∨
      (q' = { q with nextSeq := q.nextSeq + 1 }.noteDropLocked q.nextSeq ∧ e = .dropped q.nextSeq) ∨
      (¬(q.maxQueued ≠ 0 ∧ q.maxQueued ≤ q.queued) ∧ e = .accepted q.nextSeq ∧
        ∃ node : EventNode, node.hdr.seq = q.nextSeq ∧
          q' = { q with
            nextSeq := q.nextSeq + 1
            pending := q.pending ++ [node]
            queued := q.queued + 1 })) :
    CallInv q' (l.note e) (noteRecord records e) c := by
  have hstopped : q.closed = true → q'.pending = q.pending ∧ (l.note e).dropPending = l.dropPending := by
    intro hclosed
    obtain ⟨rfl, rfl⟩ := hstop hclosed
    exact ⟨rfl, rfl⟩
  rcases hcases with ⟨rfl, rfl⟩ | ⟨rfl, rfl⟩ | ⟨-, rfl, node, -, rfl⟩
  · exact h
  · refine h.produce id id ?_ hstopped
    intro _ hnil
    exact List.append_ne_nil_of_right_ne_nil _ (List.cons_ne_nil _ _) hnil
  · refine h.produce id ?_ id hstopped
    intro _ hnil
    exact List.append_ne_nil_of_right_ne_nil _ (List.cons_ne_nil _ _) hnil

/-- **One step keeps the invariant of the call.** -/
theorem ReadInv.step {s s' : QueueState} (h : ReadInv s l records) {a : Action} {e : Label}
    (hstep : Infra.step s a = some (s', e)) (hfew : (l.note e).handedOut.length < 2 ^ 64) :
    ReadInv s' (l.note e) (noteRecord records e) := by
  have hfew' : l.handedOut.length < 2 ^ 64 := Nat.lt_of_le_of_lt (l.handedOut_length_le e) hfew
  refine ⟨h.accounts.step hstep hfew, h.sized.note e, ?_⟩
  cases a with
  | push type flags len payload allocSucceeds now =>
    obtain ⟨rfl, rfl⟩ := Prod.mk.inj (Option.some.inj hstep)
    intro c hc
    exact (h.call c hc).push (fun hclosed => EventQueue.push_closed hclosed _ _ _ _ _ _)
      (s.queue.push_cases type flags len payload allocSucceeds now)
  | drop =>
    obtain ⟨rfl, rfl⟩ := Prod.mk.inj (Option.some.inj hstep)
    intro c hc
    refine (h.call c hc).push ?_ ?_
    · intro hclosed
      rw [EventQueue.drop, if_pos hclosed, if_pos hclosed]
      exact ⟨rfl, rfl⟩
    · rw [EventQueue.drop]
      split
      · exact .inl ⟨rfl, rfl⟩
      · exact .inr (.inl ⟨rfl, rfl⟩)
  | close =>
    obtain ⟨rfl, rfl⟩ := Prod.mk.inj (Option.some.inj hstep)
    intro c hc
    exact (h.call c hc).produce (fun _ => rfl) id id fun _ => ⟨rfl, rfl⟩
  | read count nonblock =>
    simp only [Infra.step] at hstep
    split at hstep
    · obtain ⟨rfl, rfl⟩ := Prod.mk.inj (Option.some.inj hstep)
      exact h.call
    · split at hstep
      · cases hstep
      · obtain ⟨rfl, rfl⟩ := Prod.mk.inj (Option.some.inj hstep)
        intro c hc
        cases hc
        exact ⟨rfl, rfl⟩
  | readInterrupted count =>
    simp only [Infra.step] at hstep
    split at hstep
    · cases hstep
    · obtain ⟨rfl, rfl⟩ := Prod.mk.inj (Option.some.inj hstep)
      exact h.call
  | signal =>
    obtain ⟨rfl, rfl, -⟩ := step_signal hstep
    intro c hc
    cases hc
  | reader faults now =>
    simp only [Infra.step] at hstep
    split at hstep
    case h_1 c hreader =>
      obtain ⟨queue, reader⟩ := s
      obtain rfl : reader = some c := hreader
      obtain ⟨rfl, rfl⟩ := Prod.mk.inj (Option.some.inj hstep)
      exact h.call_readStep hfew' faults now
    case h_2 => cases hstep

/-- What any step returns from a call that entered. -/
theorem ReadInv.returns {s s' : QueueState} (h : ReadInv s l records) {a : Action} {ret : ℤ}
    (hstep : Infra.step s a = some (s', .returned ret)) (hfew : l.handedOut.length < 2 ^ 64) :
    Returns s'.queue records ret := by
  cases a with
  | push type flags len payload allocSucceeds now =>
    have he : pushLabel s.queue.nextSeq (s.queue.push type flags len payload allocSucceeds now).2
        = .returned ret := congrArg Prod.snd (Option.some.inj hstep)
    obtain ⟨-, hl⟩ | ⟨-, hl⟩ | ⟨-, hl, -⟩ := s.queue.push_cases type flags len payload allocSucceeds now
    all_goals
      rw [hl] at he
      cases he
  | drop =>
    have he : (if s.queue.closed then Label.internal else .dropped s.queue.nextSeq) = .returned ret :=
      congrArg Prod.snd (Option.some.inj hstep)
    split_ifs at he
  | close => cases hstep
  | read count nonblock =>
    simp only [Infra.step] at hstep
    split_ifs at hstep
    · cases hstep
    · split at hstep <;> cases hstep
  | readInterrupted count =>
    simp only [Infra.step] at hstep
    split_ifs at hstep
    cases hstep
  | signal =>
    obtain ⟨rfl, he, c, hreader, hpc⟩ := step_signal hstep
    cases he
    -- a call that sleeps has removed nothing
    have hnil : records = [] := by
      have hcall := h.call c hreader
      rw [CallInv] at hcall
      rcases hpc with hpc | hpc
      all_goals
        rw [hpc] at hcall
        exact hcall.2
    exact ⟨fun h => absurd h (by decide), fun h => absurd h (by decide), fun _ => hnil⟩
  | reader faults now =>
    simp only [Infra.step] at hstep
    split at hstep
    case h_1 c hreader =>
      obtain ⟨queue, reader⟩ := s
      obtain rfl : reader = some c := hreader
      obtain ⟨rfl, he⟩ := Prod.mk.inj (Option.some.inj hstep)
      exact h.returns_readStep hfew he
    case h_2 => cases hstep

/-! ### Whole runs -/

/-- What the step with this label returns from `ksu_event_queue_read`, if it does: a call is turned away
before it enters, or it has entered and returns. -/
structure ReadReturns (trace : List Label) (s s' : QueueState) (e : Label) : Prop where
  /-- A call that does not enter returns 0 for a count of 0 and an error else, and does nothing. -/
  turnedAway : ∀ count ret, e = .turnedAway count ret →
    s' = s ∧ ((count = 0 ∧ ret = 0) ∨ (count ≠ 0 ∧ ret < 0))
  /-- A call with a count of 0 does not enter. -/
  entered : ∀ count, e = .entered count → count ≠ 0
  /-- A call that entered returns 0 only from a closed queue with nothing left, a positive number that is
  the length of the records it removed, or an error having removed none. -/
  returned : ∀ ret, e = .returned ret → Returns s'.queue (callRecords trace) ret

theorem reaches_readInv {maxQueued maxPayloadLen : UInt32} {trace : List Label} {s : QueueState}
    (h : (eventQueue maxQueued maxPayloadLen).Reaches trace s)
    (hfew : (Ledger.ofTrace trace).handedOut.length < 2 ^ 64) :
    ReadInv s (Ledger.ofTrace trace) (callRecords trace) := by
  refine h.invariant (fun trace s => (Ledger.ofTrace trace).handedOut.length < 2 ^ 64 →
    ReadInv s (Ledger.ofTrace trace) (callRecords trace)) ?_ ?_ hfew
  · intro _
    refine ⟨⟨Books.init maxQueued maxPayloadLen, rfl⟩, fun n hn => (List.not_mem_nil hn).elim, ?_⟩
    intro c hc
    cases hc
  · intro trace s a s' e ih hstep hfew
    rw [Ledger.ofTrace_append] at hfew ⊢
    rw [callRecords_append]
    exact (ih (Nat.lt_of_le_of_lt (Ledger.handedOut_length_le _ e) hfew)).step hstep hfew

/-! ### Calls that do not enter -/

/-- The labels of a call that has not entered yet. -/
def Label.atEntry : Label → Bool
  | .turnedAway _ _ | .entered _ => true
  | .internal | .accepted _ | .dropped _ | .dropTaken | .dropDelivered _ _ | .dropRestored
  | .nodeDelivered _ | .returned _ => false

theorem atEntry_readStep (q : EventQueue) (c : ReadCall) (faults : Bool) (now : UInt64) :
    (readStep q c faults now).2.atEntry = false := by
  obtain ⟨count, nonblock, copied, pc⟩ := c
  cases pc with
  | waitData => rfl
  | waitClosed =>
    simp only [readStep]
    split_ifs <;> rfl
  | sleepClosed => rfl
  | sleepData => rfl
  | readDrop =>
    simp only [readStep]
    split <;> rfl
  | copyDrop hdr info =>
    simp only [readStep]
    split_ifs <;> rfl
  | readNode =>
    simp only [readStep]
    split <;> rfl
  | copyNode node =>
    simp only [readStep]
    split_ifs <;> rfl
  | finish => rfl

/-- Only the two ways of calling have such a label. -/
theorem step_atEntry {s s' : QueueState} {a : Action} {e : Label} (hstep : step s a = some (s', e))
    (he : e.atEntry = true) :
    (∃ count nonblock, a = .read count nonblock) ∨ ∃ count, a = .readInterrupted count := by
  cases a with
  | push type flags len payload allocSucceeds now =>
    have hlabel : pushLabel s.queue.nextSeq (s.queue.push type flags len payload allocSucceeds now).2
        = e := congrArg Prod.snd (Option.some.inj hstep)
    rw [← hlabel] at he
    obtain ⟨-, hl⟩ | ⟨-, hl⟩ | ⟨-, hl, -⟩ := s.queue.push_cases type flags len payload allocSucceeds now
    all_goals
      rw [hl] at he
      cases he
  | drop =>
    obtain ⟨rfl, rfl⟩ := Prod.mk.inj (Option.some.inj hstep)
    split_ifs at he
    all_goals cases he
  | close =>
    cases hstep
    cases he
  | read count nonblock => exact .inl ⟨count, nonblock, rfl⟩
  | readInterrupted count => exact .inr ⟨count, rfl⟩
  | signal =>
    obtain ⟨-, rfl, -⟩ := step_signal hstep
    cases he
  | reader faults now =>
    simp only [step] at hstep
    split at hstep
    case h_1 c hreader =>
      have hlabel : (readStep s.queue c faults now).2 = e := congrArg Prod.snd (Option.some.inj hstep)
      rw [← hlabel, atEntry_readStep] at he
      cases he
    case h_2 => cases hstep

/-- A call is turned away, or it enters with a count to fill. -/
theorem step_entry {s s' : QueueState} {a : Action} {e : Label} (hstep : step s a = some (s', e))
    (he : e.atEntry = true) :
    (∃ count ret, e = .turnedAway count ret ∧ s' = s ∧
      ((count = 0 ∧ ret = 0) ∨ (count ≠ 0 ∧ ret < 0))) ∨ ∃ count, e = .entered count ∧ count ≠ 0 := by
  obtain ⟨count, nonblock, rfl⟩ | ⟨count, rfl⟩ := step_atEntry hstep he
  · simp only [step] at hstep
    split_ifs at hstep with hzero
    · cases hstep
      exact .inl ⟨count, 0, rfl, rfl, .inl ⟨hzero, rfl⟩⟩
    · split at hstep
      · cases hstep
      · cases hstep
        exact .inr ⟨count, rfl, hzero⟩
  · simp only [step] at hstep
    split_ifs at hstep with hzero
    cases hstep
    exact .inl ⟨count, _, rfl, rfl, .inr ⟨hzero, by decide⟩⟩

/-- **End of stream is reported only at close.**  Whatever producers, faults and the close do between its
sections, while fewer than `2^64` numbers have been handed out a read returns as it should. -/
theorem read_returns {maxQueued maxPayloadLen : UInt32} {trace : List Label} {s s' : QueueState}
    {a : Action} {e : Label} (h : (eventQueue maxQueued maxPayloadLen).Reaches trace s)
    (hstep : step s a = some (s', e)) (hfew : (Ledger.ofTrace trace).handedOut.length < 2 ^ 64) :
    ReadReturns trace s s' e := by
  refine ⟨?_, ?_, ?_⟩
  · rintro count ret rfl
    obtain ⟨n, r, he, hs, hret⟩ | ⟨n, he, -⟩ := step_entry hstep rfl
    · cases he
      exact ⟨hs, hret⟩
    · cases he
  · rintro count rfl
    obtain ⟨n, r, he, -⟩ | ⟨n, he, hcount⟩ := step_entry hstep rfl
    · cases he
    · cases he
      exact hcount
  · rintro ret rfl
    exact (reaches_readInv h hfew).returns hstep hfew

/-- A read is let through by a drop, and the copy of the record that it takes faults. -/
def faultingRead : List Action :=
  [.drop, .read 100 false, .reader false 0, .reader false 0, .reader true 0]

/-- It returns `-EFAULT`, and the drop is not counted as delivered. -/
theorem read_returns_fault :
    ∃ trace s s', (eventQueue 1 2048).runFrom (eventQueue 1 2048).init faultingRead = some (trace, s) ∧
      step s (.reader false 0) = some (s', .returned Errno.EFAULT.val) ∧
      ReadReturns trace s s' (.returned Errno.EFAULT.val) := by
  obtain ⟨⟨trace, s⟩, hrun⟩ : ∃ r, (eventQueue 1 2048).runFrom (eventQueue 1 2048).init faultingRead
      = some r := Option.isSome_iff_exists.mp (by decide)
  have hledger : ((eventQueue 1 2048).runFrom (eventQueue 1 2048).init faultingRead).map
      (fun r => Ledger.ofTrace r.1) = some ⟨[1], [], [], [1], [], []⟩ := by decide
  have hreturn : ((eventQueue 1 2048).runFrom (eventQueue 1 2048).init faultingRead).bind
      (fun r => (step r.2 (.reader false 0)).map Prod.snd) = some (.returned Errno.EFAULT.val) := by
    decide
  rw [hrun, Option.map_some, Option.some_inj] at hledger
  rw [hrun, Option.bind_some, Option.map_eq_some_iff] at hreturn
  obtain ⟨⟨s', e⟩, hstep, rfl⟩ := hreturn
  exact ⟨trace, s, s', hrun, hstep, read_returns (.of_run hrun) hstep (by rw [hledger]; decide)⟩

/-! ### Where the counter wraps during a read -/

/-- The queue after `n + 1` drops, with a reader that the first of them has let through. -/
def droppedState (n : ℕ) : QueueState where
  queue := { EventQueue.init 1 2048 with
    nextSeq := UInt64.ofNat (n + 1) + 1
    droppedTotal := UInt64.ofNat (n + 1)
    droppedPending := UInt64.ofNat (n + 1)
    droppedFirstSeq := 1
    droppedLastSeq := UInt64.ofNat (n + 1) }
  reader := some ⟨100, false, 0, .readDrop⟩

theorem EventQueue.noteDropLocked_of_pending {q : EventQueue} (h : q.droppedPending ≠ 0) (seq : UInt64) :
    q.noteDropLocked seq = { q with
      droppedTotal := q.droppedTotal + 1
      droppedPending := q.droppedPending + 1
      droppedLastSeq := seq } := by
  rw [noteDropLocked, if_neg h]

theorem droppedState_step {n : ℕ} (hn : n < 2 ^ 64 - 1) :
    step (droppedState n) .drop = some (droppedState (n + 1), .dropped (UInt64.ofNat (n + 1) + 1)) := by
  have hpos : UInt64.ofNat (n + 1) ≠ 0 := by
    intro hzero
    have hnat := congrArg UInt64.toNat hzero
    rw [UInt64.toNat_ofNat_of_lt' (show n + 1 < 2 ^ 64 by omega)] at hnat
    exact absurd hnat (Nat.succ_ne_zero n)
  have hnext : UInt64.ofNat (n + 1) + 1 = UInt64.ofNat (n + 1 + 1) := (UInt64.ofNat_add (n + 1) 1).symm
  have hdrop : (droppedState n).queue.drop = (droppedState (n + 1)).queue := by
    rw [EventQueue.drop, if_neg (show ¬(droppedState n).queue.closed = true from Bool.false_ne_true),
      EventQueue.noteDropLocked_of_pending hpos]
    simp only [droppedState, ← hnext]
  rw [step, hdrop]
  rfl

theorem droppedState_reaches : ∃ trace,
    (eventQueue 1 2048).Reaches trace (droppedState (2 ^ 64 - 1)) := by
  have hstart : ∃ trace, (eventQueue 1 2048).Reaches trace (droppedState 0) :=
    ⟨_, .of_run (rfl : (eventQueue 1 2048).runFrom (eventQueue 1 2048).init
      [.drop, .read 100 false, .reader false 0] = some (_, droppedState 0))⟩
  obtain ⟨trace, h⟩ := hstart
  have hstep : ∀ n < 2 ^ 64 - 1, (eventQueue 1 2048).step (droppedState n) .drop
      = some (droppedState (n + 1), .dropped (UInt64.ofNat (n + 1) + 1)) :=
    fun n hn => droppedState_step hn
  exact ⟨_, h.iterate_from hstep _ (Nat.le_refl _)⟩

/-- **A wrapped counter ends the stream.**  After `2^64 - 1` more drops the counter that let the reader
through is zero, and the read returns 0 although the queue is open. -/
theorem read_returns_zero_open : ∃ trace s s',
    (eventQueue 1 2048).Reaches trace s ∧ s.reader = some ⟨100, false, 0, .finish⟩ ∧
      step s (.reader false 0) = some (s', .returned 0) ∧ s'.queue.closed = false := by
  obtain ⟨trace, h⟩ := droppedState_reaches
  have hzero : (droppedState (2 ^ 64 - 1)).queue.droppedPending = 0 := by
    show UInt64.ofNat (2 ^ 64 - 1 + 1) = 0
    decide
  generalize hs : droppedState (2 ^ 64 - 1) = s at h hzero
  have hpending : s.queue.pending = [] := by
    rw [← hs]
    rfl
  have hopen : s.queue.closed = false := by
    rw [← hs]
    rfl
  have hreader : s.reader = some ⟨100, false, 0, .readDrop⟩ := by
    rw [← hs]
    rfl
  have hdrop : (eventQueue 1 2048).step s (.reader false 0)
      = some (⟨s.queue, some ⟨100, false, 0, .readNode⟩⟩, .internal) := by
    simp only [eventQueue, step, hreader, readStep, EventQueue.readDropTake, hzero, if_true,
      ReadCall.goto]
  have hnode : (eventQueue 1 2048).step ⟨s.queue, some ⟨100, false, 0, .readNode⟩⟩ (.reader false 0)
      = some (⟨s.queue, some ⟨100, false, 0, .finish⟩⟩, .internal) := by
    simp only [eventQueue, step, readStep, EventQueue.readNodeFirst, hpending, ReadCall.goto]
  refine ⟨_, _, ⟨s.queue, none⟩, (h.step hdrop).step hnode, rfl, ?_, hopen⟩
  simp only [step, readStep, hopen, Bool.false_eq_true, and_false, if_false]

end KernelSU.Infra
