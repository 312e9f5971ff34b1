import KernelSU.Infra.EventQueueReturns
import KernelSU.Sulog.EventParse

/-!
# From the queue to `ksud`

What `ksu_event_queue_read` leaves in the buffer of `sulogd`, and what the frame walk makes of it.

* `readLog` — the reads that have returned, each with the records that it copied out;
* `TransportInv` — the invariant of a run: a read has copied out exactly the bytes it will report;
* `walkFrames_records` — **PROVED**: the walk over a buffer of records comes to each of them and to the end;
* `sulog_lossless` — **PROVED**: what the reads deliver is what the walks recover, and what was captured is
  what is parsed.
-/

namespace KernelSU.Sulog

open Lib Lib.Bytes Infra Ksud

/-! ### Records in a buffer -/

/-- The bytes of `struct ksu_event_record_hdr`. -/
def hdrBytes (hdr : RecordHdr) : List UInt8 :=
  encodeLE 2 hdr.type.toNat ++ (encodeLE 2 hdr.flags.toNat ++ (encodeLE 4 hdr.len.toNat ++
    (encodeLE 8 hdr.seq.toNat ++ encodeLE 8 hdr.tsNs.toNat)))

/-- The bytes of `struct ksu_event_queue_dropped_info`. -/
def droppedInfoBytes (info : Infra.DroppedInfo) : List UInt8 :=
  encodeLE 8 info.dropped.toNat ++ (encodeLE 8 info.firstSeq.toNat ++ encodeLE 8 info.lastSeq.toNat)

/-- A record as a read copies it out: the header and the payload behind it. -/
structure Record where
  hdr : RecordHdr
  payload : List UInt8

/-- The header says how long the payload is. -/
def Record.WellFormed (r : Record) : Prop := r.payload.length = r.hdr.len.toNat

/-- The bytes of a record. -/
def Record.bytes (r : Record) : List UInt8 := hdrBytes r.hdr ++ r.payload

/-- The record as `ksud` sees it. -/
def Record.frame (r : Record) : Frame :=
  (⟨r.hdr.type, r.hdr.flags, r.hdr.len, r.hdr.seq, r.hdr.tsNs⟩, r.payload)

/-- The bytes of some records in a row. -/
def recordsBytes (records : List Record) : List UInt8 := records.flatMap Record.bytes

theorem hdrBytes_length (hdr : RecordHdr) : (hdrBytes hdr).length = 24 := by
  simp only [hdrBytes, List.length_append, encodeLE_length]

theorem droppedInfoBytes_length (info : Infra.DroppedInfo) : (droppedInfoBytes info).length = 24 := by
  simp only [droppedInfoBytes, List.length_append, encodeLE_length]

theorem Record.WellFormed.length_bytes {r : Record} (h : r.WellFormed) :
    r.bytes.length = recordSize r.hdr.len := by
  rw [Record.bytes, List.length_append, hdrBytes_length, h, recordSize]

theorem recordsBytes_append (rs ss : List Record) :
    recordsBytes (rs ++ ss) = recordsBytes rs ++ recordsBytes ss := by
  simp [recordsBytes]

theorem ofNat_word64 (v : UInt64) : UInt64.ofNat (v.toNat % 256 ^ 8) = v := by
  rw [Nat.mod_eq_of_lt (show v.toNat < 256 ^ 8 from v.toNat_lt), UInt64.ofNat_toNat]

/-- **The header is read back.** -/
theorem parse_hdrBytes (hdr : RecordHdr) :
    EventRecordHeader.parse (hdrBytes hdr) = .ok ⟨hdr.type, hdr.flags, hdr.len, hdr.seq, hdr.tsNs⟩ := by
  have htail : ∀ v : UInt64, word (encodeLE 8 v.toNat) 0 8 = v.toNat % 256 ^ 8 := fun v => by
    have h := word_head 8 v.toNat []
    rwa [List.append_nil] at h
  rw [EventRecordHeader.parse, if_neg (by rw [hdrBytes_length, sizeofEventRecordHeader]; omega)]
  simp (disch := simp) only [hdrBytes, word_skip, encodeLE_length, Nat.reduceSub, word_head,
    htail, ofNat_word16, ofNat_word32, ofNat_word64]

/-- **A summary of drops is read back.** -/
theorem parse_droppedInfoBytes (info : Infra.DroppedInfo) :
    Ksud.DroppedInfo.parse (droppedInfoBytes info) = .ok ⟨info.dropped, info.firstSeq, info.lastSeq⟩ := by
  have htail : ∀ v : UInt64, word (encodeLE 8 v.toNat) 0 8 = v.toNat % 256 ^ 8 := fun v => by
    have h := word_head 8 v.toNat []
    rwa [List.append_nil] at h
  rw [Ksud.DroppedInfo.parse, if_neg (by rw [droppedInfoBytes_length]; omega)]
  simp (disch := simp) only [droppedInfoBytes, word_skip, encodeLE_length, Nat.reduceSub,
    word_head, htail, ofNat_word64]

/-- **The walk recovers the records**, from where they stand in the buffer to its end.  By induction on
them. -/
theorem walkFrames_records {records : List Record} (hwf : ∀ r ∈ records, r.WellFormed) :
    ∀ before junk : List UInt8,
      walkFrames (before ++ (recordsBytes records ++ junk)) (before.length + (recordsBytes records).length)
        before.length = (records.map Record.frame, .complete) := by
  induction records with
  | nil =>
    intro before junk
    rw [walkFrames, if_neg (by simp [recordsBytes])]
    rfl
  | cons r records ih =>
    intro before junk
    have hr := (hwf r List.mem_cons_self).length_bytes
    have hpay : r.payload.length = r.hdr.len.toNat := hwf r List.mem_cons_self
    have hsplit : recordsBytes (r :: records) = r.bytes ++ recordsBytes records := rfl
    have hhead : slice (before ++ (recordsBytes (r :: records) ++ junk)) before.length 24 = hdrBytes r.hdr := by
      rw [hsplit, Record.bytes, List.append_assoc, List.append_assoc]
      exact slice_append_exact _ _ _ rfl (hdrBytes_length _)
    have hbody : slice (before ++ (recordsBytes (r :: records) ++ junk)) (before.length + 24) r.hdr.len.toNat =
        r.payload := by
      rw [hsplit, Record.bytes, List.append_assoc, List.append_assoc, ← List.append_assoc]
      exact slice_append_exact _ _ _ (by rw [List.length_append, hdrBytes_length]) hpay
    have hlen := r.hdr.len.toNat_lt
    rw [recordSize] at hr
    rw [walkFrames, hsplit, List.length_append, hr, ← hsplit]
    rw [if_pos (by omega), if_neg (by rw [sizeofEventRecordHeader]; omega)]
    simp only [sizeofEventRecordHeader, hhead, parse_hdrBytes, hbody]
    rw [if_neg (by omega), if_neg (by omega)]
    have hrest := ih (fun x hx => hwf x (List.mem_cons_of_mem _ hx)) (before ++ r.bytes) junk
    have hbuf : before ++ r.bytes ++ (recordsBytes records ++ junk) =
        before ++ (recordsBytes (r :: records) ++ junk) := by
      rw [hsplit]
      simp only [List.append_assoc]
    rw [hbuf, List.length_append, hr, Nat.add_assoc] at hrest
    rw [hrest]
    rfl

/-! ### What the reads deliver -/

/-- The record a step copies out. -/
def delivered : Label → Option Record
  | .dropDelivered hdr info => some ⟨hdr, droppedInfoBytes info⟩
  | .nodeDelivered node => some ⟨node.hdr, node.payload⟩
  | .internal | .accepted _ | .dropped _ | .turnedAway _ _ | .entered _ | .dropTaken | .dropRestored
  | .returned _ => none

/-- A read that has returned: what it returned, and the records that it copied out, in their order. -/
structure Read where
  ret : ℤ
  records : List Record

/-- The reads that have returned, and the records of the one under way. -/
structure ReadLog where
  done : List Read
  current : List Record

/-- The log after one more step.  A call that was turned away returns having copied nothing. -/
def ReadLog.note (l : ReadLog) (e : Label) : ReadLog :=
  match e with
  | .entered _ => { l with current := [] }
  | .returned ret => ⟨l.done ++ [⟨ret, l.current⟩], []⟩
  | .turnedAway _ ret => { l with done := l.done ++ [⟨ret, []⟩] }
  | .dropDelivered _ _ | .nodeDelivered _ => { l with current := l.current ++ (delivered e).toList }
  | .internal | .accepted _ | .dropped _ | .dropTaken | .dropRestored => l

/-- The reads of a run. -/
def readLog (trace : List Label) : ReadLog := trace.foldl ReadLog.note ⟨[], []⟩

theorem readLog_append (trace : List Label) (e : Label) : readLog (trace ++ [e]) = (readLog trace).note e := by
  simp only [readLog, List.foldl_append, List.foldl_cons, List.foldl_nil]

/-- A read reports the bytes that it copied out, or it copied none out; it never reports that a record was
too large for the buffer. -/
structure Read.Exact (r : Read) : Prop where
  wellFormed : ∀ x ∈ r.records, x.WellFormed
  ret : (r.ret ≤ 0 ∧ r.records = []) ∨ r.ret = (recordsBytes r.records).length
  fits : r.ret ≤ READ_BUF_SIZE
  notTooLarge : r.ret ≠ Errno.EMSGSIZE.val

/-- Where the call `c` stands: it has copied out the bytes of `current`. -/
def Delivering (c : ReadCall) (current : List Record) : Prop :=
  match c.pc with
  | .finish => (c.copied < 0 ∧ c.copied ≠ Errno.EMSGSIZE.val ∧ current = []) ∨
      (c.copied = (recordsBytes current).length ∧ c.copied ≤ READ_BUF_SIZE)
  | .waitData | .waitClosed | .sleepClosed | .sleepData => c.copied = 0 ∧ current = [] ∧ c.count = READ_BUF_SIZE
  | .readDrop | .readNode => c.copied = (recordsBytes current).length ∧ c.copied + c.count = READ_BUF_SIZE
  | .copyDrop hdr _ => c.copied = (recordsBytes current).length ∧ c.copied + c.count = READ_BUF_SIZE ∧
      hdr.len = sizeofDroppedInfo ∧ recordSize sizeofDroppedInfo ≤ c.count
  | .copyNode node => c.copied = (recordsBytes current).length ∧ c.copied + c.count = READ_BUF_SIZE ∧
      recordSize node.hdr.len ≤ c.count

/-- The invariant of a run whose reads have the buffer of `sulogd`. -/
structure TransportInv (s : QueueState) (l : ReadLog) : Prop where
  done : ∀ r ∈ l.done, r.Exact
  wellFormed : ∀ x ∈ l.current, x.WellFormed
  idle : s.reader = none → l.current = []
  call : ∀ c, s.reader = some c → Delivering c l.current
  limit : s.queue.maxPayloadLen = 2048
  small : ∀ node ∈ s.queue.pending, node.hdr.len ≤ 2048

/-! ### The sections of the reader -/

variable {c : ReadCall} {current : List Record}

/-- A read that has copied nothing out has no record. -/
theorem records_eq_nil (hwf : ∀ x ∈ current, x.WellFormed) (h : (recordsBytes current).length = 0) :
    current = [] := by
  cases current with
  | nil => rfl
  | cons r rs =>
    have hr := (hwf r List.mem_cons_self).length_bytes
    have hsplit : recordsBytes (r :: rs) = r.bytes ++ recordsBytes rs := rfl
    rw [hsplit, List.length_append, hr, recordSize] at h
    omega

/-- A section that fails ends the read with what it has copied out, or with its error. -/
theorem delivering_fail (hwf : ∀ x ∈ current, x.WellFormed) (hcopied : c.copied = (recordsBytes current).length)
    (hroom : c.copied + c.count = READ_BUF_SIZE) {e : Errno} (he : c.copied = 0 → e.val ≠ Errno.EMSGSIZE.val) :
    Delivering (c.fail e) current := by
  unfold Delivering
  simp only [ReadCall.fail]
  split_ifs with hzero
  · exact .inl ⟨e.range.2, he hzero, records_eq_nil hwf (by omega)⟩
  · exact .inr ⟨hcopied, by omega⟩

/-- A record copied out is counted. -/
theorem delivering_advance {r : Record} (hr : r.WellFormed) (hcopied : c.copied = (recordsBytes current).length)
    (hroom : c.copied + c.count = READ_BUF_SIZE) (hfits : recordSize r.hdr.len ≤ c.count) :
    Delivering (c.advance (recordSize r.hdr.len)) (current ++ [r]) := by
  have hsum : ((recordsBytes (current ++ [r])).length : ℤ) = c.copied + recordSize r.hdr.len := by
    have hone : recordsBytes [r] = r.bytes := by simp [recordsBytes]
    rw [recordsBytes_append, hone, List.length_append, hr.length_bytes, Nat.cast_add, hcopied]
  have hleft : c.copied + recordSize r.hdr.len + (c.count - recordSize r.hdr.len : ℕ) = READ_BUF_SIZE := by omega
  unfold Delivering
  simp only [ReadCall.advance]
  split_ifs
  · exact ⟨hsum.symm, hleft⟩
  · exact .inr ⟨hsum.symm, by omega⟩

variable {q q' : EventQueue} {s : QueueState} {l : ReadLog}

/-- The read goes on, or does not begin or end. -/
theorem TransportInv.stay {reader : Option ReadCall} (h : TransportInv s l)
    (hlimit : q'.maxPayloadLen = s.queue.maxPayloadLen)
    (hpending : ∀ node ∈ q'.pending, node ∈ s.queue.pending ∨ node.hdr.len ≤ 2048)
    (hidle : reader = none → l.current = []) (hcall : ∀ c, reader = some c → Delivering c l.current) :
    TransportInv ⟨q', reader⟩ l :=
  ⟨h.done, h.wellFormed, hidle, hcall, hlimit.trans h.limit,
    fun node hnode => (hpending node hnode).elim (h.small node) id⟩

theorem TransportInv.goOn (h : TransportInv s l) (hlimit : q'.maxPayloadLen = s.queue.maxPayloadLen)
    (hpending : ∀ node ∈ q'.pending, node ∈ s.queue.pending) (hc : Delivering c l.current) :
    TransportInv ⟨q', some c⟩ l :=
  h.stay hlimit (fun node hnode => .inl (hpending node hnode)) (fun hnone => by cases hnone)
    fun c' hc' => Option.some.inj hc' ▸ hc

/-- A record is copied out. -/
theorem TransportInv.deliver {r : Record} (h : TransportInv s l) (hlimit : q'.maxPayloadLen = s.queue.maxPayloadLen)
    (hpending : ∀ node ∈ q'.pending, node ∈ s.queue.pending) (hr : r.WellFormed)
    (hc : Delivering c (l.current ++ [r])) :
    TransportInv ⟨q', some c⟩ { l with current := l.current ++ [r] } := by
  refine ⟨h.done, ?_, (fun hnone => by cases hnone), fun c' hc' => Option.some.inj hc' ▸ hc,
    hlimit.trans h.limit, fun node hnode => h.small node (hpending node hnode)⟩
  rintro x hx
  rcases List.mem_append.mp hx with hx | hx
  · exact h.wellFormed x hx
  · exact List.mem_singleton.mp hx ▸ hr

/-- The read returns. -/
theorem TransportInv.return {ret : ℤ} (h : TransportInv s l) (hexact : Read.Exact ⟨ret, l.current⟩) :
    TransportInv ⟨s.queue, none⟩ ⟨l.done ++ [⟨ret, l.current⟩], []⟩ := by
  refine ⟨?_, fun x hx => absurd hx List.not_mem_nil, fun _ => rfl, fun c hc => (by cases hc), h.limit, h.small⟩
  rintro r hr
  rcases List.mem_append.mp hr with hr | hr
  · exact h.done r hr
  · exact List.mem_singleton.mp hr ▸ hexact

/-- A read that has waited begins with an empty buffer. -/
theorem delivering_readDrop {count : ℕ} (nonblock : Bool) (hnil : current = []) (hcount : count = READ_BUF_SIZE) :
    Delivering ⟨count, nonblock, 0, .readDrop⟩ current :=
  ⟨by rw [hnil]; rfl, by rw [hcount]; exact zero_add _⟩

theorem exact_error {e : Errno} (he : e.val ≠ Errno.EMSGSIZE.val) : Read.Exact ⟨e.val, []⟩ :=
  ⟨fun _ hx => absurd hx List.not_mem_nil, .inl ⟨e.range.2.le, rfl⟩,
    e.range.2.le.trans (Int.natCast_nonneg READ_BUF_SIZE), he⟩

/-- What the reader's next section does to the call and to the log. -/
theorem TransportInv.readStep (h : TransportInv ⟨q, some c⟩ l) (faults : Bool) (now : UInt64) :
    TransportInv (readStep q c faults now).1 (l.note (readStep q c faults now).2) := by
  have hc := h.call c rfl
  obtain ⟨count, nonblock, copied, pc⟩ := c
  cases pc with
  | waitData =>
    have hwait : copied = 0 ∧ l.current = [] ∧ count = READ_BUF_SIZE := hc
    obtain ⟨rfl, hnil, hcount⟩ := hwait
    refine h.goOn rfl (fun _ => id) ?_
    simp only [ReadCall.goto]
    split
    · exact delivering_readDrop nonblock hnil hcount
    · exact ⟨rfl, hnil, hcount⟩
  | waitClosed =>
    have hwait : copied = 0 ∧ l.current = [] ∧ count = READ_BUF_SIZE := hc
    obtain ⟨rfl, hnil, hcount⟩ := hwait
    simp only [Infra.readStep]
    split_ifs
    · exact h.goOn rfl (fun _ => id) (delivering_readDrop nonblock hnil hcount)
    · exact h.return (hnil ▸ exact_error (by decide))
    · exact h.goOn rfl (fun _ => id) ⟨rfl, hnil, hcount⟩
  | sleepClosed =>
    refine h.goOn rfl (fun _ => id) ?_
    simp only [ReadCall.goto]
    split <;> exact hc
  | sleepData =>
    refine h.goOn rfl (fun _ => id) ?_
    simp only [ReadCall.goto]
    split <;> exact hc
  | readDrop =>
    have hread : copied = (recordsBytes l.current).length ∧ copied + count = READ_BUF_SIZE := hc
    obtain ⟨hcopied, hroom⟩ := hread
    simp only [Infra.readStep, EventQueue.readDropTake]
    split_ifs with hdrops hsmall
    · exact h.goOn rfl (fun _ => id) ⟨hcopied, hroom⟩
    · -- an empty buffer has room for a summary
      refine h.goOn rfl (fun _ => id) (delivering_fail h.wellFormed hcopied hroom fun hzero => ?_)
      have hsize : recordSize sizeofDroppedInfo = 48 := rfl
      rw [READ_BUF_SIZE] at hroom
      simp only at hzero
      omega
    · exact h.goOn rfl (fun _ => id) ⟨hcopied, hroom, rfl, not_lt.mp hsmall⟩
  | copyDrop hdr info =>
    have hcopy : copied = (recordsBytes l.current).length ∧ copied + count = READ_BUF_SIZE ∧
      hdr.len = sizeofDroppedInfo ∧ recordSize sizeofDroppedInfo ≤ count := hc
    obtain ⟨hcopied, hroom, hlen, hfits⟩ := hcopy
    simp only [Infra.readStep]
    split_ifs
    · refine h.goOn ?_ ?_ (delivering_fail h.wellFormed hcopied hroom fun _ => by decide)
      · rw [EventQueue.readDropRestore]
        split <;> rfl
      · rw [EventQueue.readDropRestore]
        split <;> exact fun _ => id
    · have hwf : Record.WellFormed ⟨hdr, droppedInfoBytes info⟩ := by
        rw [Record.WellFormed, droppedInfoBytes_length, hlen]
        rfl
      rw [← hlen] at hfits ⊢
      exact h.deliver rfl (fun _ => id) hwf (delivering_advance hwf hcopied hroom hfits)
  | readNode =>
    have hread : copied = (recordsBytes l.current).length ∧ copied + count = READ_BUF_SIZE := hc
    obtain ⟨hcopied, hroom⟩ := hread
    simp only [Infra.readStep, EventQueue.readNodeFirst]
    cases hpending : q.pending with
    | nil => exact h.goOn rfl (fun _ => id) (.inr ⟨hcopied, by simp only [ReadCall.goto]; omega⟩)
    | cons node rest =>
      simp only
      split_ifs with hsmall
      · -- an empty buffer has room for the longest record
        refine h.goOn rfl (fun _ => id) (delivering_fail h.wellFormed hcopied hroom fun hzero => ?_)
        have hlen : node.hdr.len ≤ 2048 := h.small node (by rw [hpending]; exact List.mem_cons_self)
        have hnat : node.hdr.len.toNat ≤ 2048 := UInt32.le_iff_toNat_le.mp hlen
        rw [READ_BUF_SIZE] at hroom
        rw [recordSize] at hsmall
        simp only at hzero
        omega
      · exact h.goOn rfl (fun _ => id) ⟨hcopied, hroom, not_lt.mp hsmall⟩
  | copyNode node =>
    have hcopy : copied = (recordsBytes l.current).length ∧ copied + count = READ_BUF_SIZE ∧
      recordSize node.hdr.len ≤ count := hc
    obtain ⟨hcopied, hroom, hfits⟩ := hcopy
    simp only [Infra.readStep]
    split_ifs
    · exact h.goOn rfl (fun _ => id) (delivering_fail h.wellFormed hcopied hroom fun _ => by decide)
    · have hwf : Record.WellFormed ⟨node.hdr, node.payload⟩ := node.payload_length
      exact h.deliver rfl (fun x hx => List.mem_of_mem_erase hx) hwf
        (delivering_advance hwf hcopied hroom hfits)
  | finish =>
    have hfinish : (copied < 0 ∧ copied ≠ Errno.EMSGSIZE.val ∧ l.current = []) ∨
      (copied = (recordsBytes l.current).length ∧ copied ≤ READ_BUF_SIZE) := hc
    have hvalue : (if copied = 0 ∧ q.closed = true then 0 else copied) = copied := by
      split_ifs with hzero
      · exact hzero.1.symm
      · rfl
    simp only [Infra.readStep, hvalue]
    refine h.return ?_
    rcases hfinish with ⟨hneg, hne, hnil⟩ | ⟨hcopied, hfits⟩
    · refine ⟨h.wellFormed, .inl ⟨hneg.le, hnil⟩, ?_, hne⟩
      simp only [READ_BUF_SIZE]
      omega
    · refine ⟨h.wellFormed, .inr hcopied, hfits, ?_⟩
      have hnonneg : 0 ≤ copied := by omega
      have hval : Errno.EMSGSIZE.val = -90 := rfl
      simp only
      omega

/-! ### One step, and a run -/

/-- A push queues no payload above the limit. -/
theorem push_small (q : EventQueue) (type flags : UInt16) (len : UInt32)
    (payload : Option (List.Vector UInt8 len.toNat)) (allocSucceeds : Bool) (now : UInt64) :
    (q.push type flags len payload allocSucceeds now).1.maxPayloadLen = q.maxPayloadLen ∧
      ∀ node ∈ (q.push type flags len payload allocSucceeds now).1.pending,
        node ∈ q.pending ∨ node.hdr.len ≤ q.maxPayloadLen := by
  rw [EventQueue.push]
  split
  · exact ⟨rfl, fun _ => .inl⟩
  · next hlarge =>
    split
    · exact ⟨rfl, fun _ => .inl⟩
    · rw [EventQueue.pushLocked]
      split
      · exact ⟨rfl, fun _ => .inl⟩
      · cases allocSucceeds with
        | false => exact ⟨rfl, fun _ => .inl⟩
        | true =>
          simp only [if_true]
          split
          · exact ⟨rfl, fun _ => .inl⟩
          · refine ⟨rfl, fun node hnode => ?_⟩
            rcases List.mem_append.mp hnode with hnode | hnode
            · exact .inl hnode
            · rw [List.mem_singleton.mp hnode]
              exact .inr (UInt32.not_lt.mp hlarge)

/-- A call that is turned away returns 0 or `-EINTR` at once. -/
theorem TransportInv.turnedAway {ret : ℤ} (h : TransportInv s l) (hret : Read.Exact ⟨ret, []⟩) :
    TransportInv s { l with done := l.done ++ [⟨ret, []⟩] } := by
  refine ⟨?_, h.wellFormed, h.idle, h.call, h.limit, h.small⟩
  rintro r hr
  rcases List.mem_append.mp hr with hr | hr
  · exact h.done r hr
  · exact List.mem_singleton.mp hr ▸ hret

theorem exact_zero : Read.Exact ⟨0, []⟩ :=
  ⟨fun _ hx => absurd hx List.not_mem_nil, .inr rfl, Int.natCast_nonneg READ_BUF_SIZE, by decide⟩

/-- **One step keeps the invariant.** -/
theorem TransportInv.step {s' : QueueState} {a : Action} {e : Label} (h : TransportInv s l)
    (hstep : Infra.step s a = some (s', e)) (hbuf : ∀ n, e = .entered n → n = READ_BUF_SIZE) :
    TransportInv s' (l.note e) := by
  cases a with
  | push type flags len payload allocSucceeds now =>
    have he : pushLabel s.queue.nextSeq (s.queue.push type flags len payload allocSucceeds now).2 = e :=
      congrArg Prod.snd (Option.some.inj hstep)
    have hs : { s with queue := (s.queue.push type flags len payload allocSucceeds now).1 } = s' :=
      congrArg Prod.fst (Option.some.inj hstep)
    obtain ⟨hlimit, hpending⟩ := push_small s.queue type flags len payload allocSucceeds now
    have hnote : l.note e = l := by
      rw [← he]
      rcases s.queue.push_cases type flags len payload allocSucceeds now with
        ⟨-, hl⟩ | ⟨-, hl⟩ | ⟨-, hl, -⟩
      all_goals
        rw [hl]
        rfl
    rw [hnote, ← hs]
    exact h.stay hlimit (h.limit ▸ hpending) h.idle h.call
  | drop =>
    obtain ⟨rfl, rfl⟩ := Prod.mk.inj (Option.some.inj hstep)
    have hnote : l.note (if s.queue.closed then .internal else .dropped s.queue.nextSeq) = l := by
      split <;> rfl
    rw [hnote, EventQueue.drop]
    split
    · exact h
    · exact h.stay rfl (fun _ => .inl) h.idle h.call
  | close =>
    obtain ⟨rfl, rfl⟩ := Prod.mk.inj (Option.some.inj hstep)
    exact h.stay rfl (fun _ => .inl) h.idle h.call
  | read count nonblock =>
    simp only [Infra.step] at hstep
    split_ifs at hstep with hzero
    · obtain ⟨rfl, rfl⟩ := Prod.mk.inj (Option.some.inj hstep)
      exact h.turnedAway exact_zero
    · split at hstep
      · cases hstep
      · next hidle =>
        obtain ⟨rfl, rfl⟩ := Prod.mk.inj (Option.some.inj hstep)
        have hnil := h.idle hidle
        have hlog : l.note (.entered count) = l := by
          rw [ReadLog.note, ← hnil]
        rw [hlog]
        exact h.goOn rfl (fun _ => id) ⟨rfl, hnil, hbuf count rfl⟩
  | readInterrupted count =>
    simp only [Infra.step] at hstep
    split_ifs at hstep
    obtain ⟨rfl, rfl⟩ := Prod.mk.inj (Option.some.inj hstep)
    exact h.turnedAway (exact_error (by decide))
  | signal =>
    obtain ⟨rfl, rfl, c, hreader, hpc⟩ := step_signal hstep
    have hnil : l.current = [] := by
      have hcall := h.call c hreader
      rw [Delivering] at hcall
      rcases hpc with hpc | hpc
      all_goals
        rw [hpc] at hcall
        exact hcall.2.1
    exact h.return (hnil ▸ exact_error (by decide))
  | reader faults now =>
    simp only [Infra.step] at hstep
    split at hstep
    case h_1 c hreader =>
      obtain ⟨queue, reader⟩ := s
      obtain rfl : reader = some c := hreader
      obtain ⟨rfl, rfl⟩ := Prod.mk.inj (Option.some.inj hstep)
      exact h.readStep faults now
    case h_2 => cases hstep

/-- The queue of the log. -/
def sulogQueue : Machine QueueState Action Label :=
  eventQueue KSU_SULOG_MAX_QUEUED (UInt32.ofNat KSU_SULOG_MAX_PAYLOAD_LEN)

/-- The records of a log, those of the read under way last. -/
def ReadLog.records (l : ReadLog) : List Record := l.done.flatMap Read.records ++ l.current

/-- A step adds to the log what it copies out. -/
theorem records_note {e : Label} (hentered : ∀ n, e = .entered n → l.current = []) :
    (l.note e).records = l.records ++ (delivered e).toList := by
  cases e with
  | entered n =>
    rw [ReadLog.note, ReadLog.records, ReadLog.records, hentered n rfl, delivered, Option.toList_none,
      List.append_nil, List.append_nil]
  | returned ret => simp [ReadLog.note, ReadLog.records, delivered]
  | turnedAway count ret => simp [ReadLog.note, ReadLog.records, delivered]
  | dropDelivered hdr info => simp [ReadLog.note, ReadLog.records]
  | nodeDelivered node => simp [ReadLog.note, ReadLog.records]
  | internal | accepted seq | dropped seq | dropTaken | dropRestored =>
    rw [ReadLog.note, delivered, Option.toList_none, List.append_nil]

/-- A read begins when none is under way. -/
theorem TransportInv.entered {s' : QueueState} {a : Action} {n : ℕ} (h : TransportInv s l)
    (hstep : Infra.step s a = some (s', .entered n)) : l.current = [] := by
  obtain ⟨count, nonblock, rfl⟩ | ⟨count, rfl⟩ := step_atEntry hstep rfl
  · simp only [Infra.step] at hstep
    split_ifs at hstep
    · cases hstep
    · split at hstep
      · cases hstep
      · next hidle => exact h.idle hidle
  · simp only [Infra.step] at hstep
    split_ifs at hstep
    cases hstep

/-- **A run keeps the invariant**, and its log has every record that it copied out. -/
theorem reaches_transportInv {trace : List Label} (h : sulogQueue.Reaches trace s)
    (hbuf : ∀ n, .entered n ∈ trace → n = READ_BUF_SIZE) :
    TransportInv s (readLog trace) ∧ (readLog trace).records = trace.filterMap delivered := by
  refine h.invariant (fun trace s => (∀ n, .entered n ∈ trace → n = READ_BUF_SIZE) →
    TransportInv s (readLog trace) ∧ (readLog trace).records = trace.filterMap delivered) ?_ ?_ hbuf
  · intro _
    exact ⟨⟨fun r hr => absurd hr List.not_mem_nil, fun x hx => absurd hx List.not_mem_nil, fun _ => rfl,
      fun c hc => (by cases hc), rfl, fun node hnode => absurd hnode List.not_mem_nil⟩, rfl⟩
  · intro trace s a s' e ih hstep hbuf
    obtain ⟨hinv, hrecords⟩ := ih fun n hn => hbuf n (List.mem_append_left _ hn)
    have hone : [e].filterMap delivered = (delivered e).toList := by
      cases hd : delivered e <;> simp [hd]
    rw [readLog_append, List.filterMap_append, ← hrecords, hone]
    refine ⟨hinv.step hstep fun n hn => ?_, records_note fun n hn => ?_⟩
    · exact hbuf n (List.mem_append_right _ (List.mem_singleton.mpr hn.symm))
    · exact hinv.entered (hn ▸ hstep)

/-! ### Frames -/

/-- What `read` gives for a read: the records it copied out are at the start of the buffer, and of the rest
of the buffer nothing is said. -/
def Read.Gives (r : Read) (res : ReadResult) : Prop :=
  res.ret = r.ret ∧ res.buf.length = READ_BUF_SIZE ∧ recordsBytes r.records <+: res.buf

/-- **One buffer is walked to its end.** -/
theorem Read.Exact.walkFrames {r : Read} (h : r.Exact) {res : ReadResult} (hres : r.Gives res) (hpos : 0 < res.ret) :
    Ksud.walkFrames res.buf res.ret.toNat 0 = (r.records.map Record.frame, .complete) := by
  obtain ⟨hret, -, junk, hbuf⟩ := hres
  have hlen : res.ret.toNat = (recordsBytes r.records).length := by
    rcases h.ret with ⟨hneg, -⟩ | heq
    · omega
    · omega
  have hwalk := walkFrames_records h.wellFormed [] junk
  rw [List.nil_append, hbuf, List.length_nil, Nat.zero_add] at hwalk
  rw [hlen]
  exact hwalk

/-- Whether `handle_readable` goes on after a read. -/
def continues (r : Read) : Bool := decide (0 < r.ret) || decide (r.ret = Errno.EINTR.val)

/-- **`handle_readable` handles the frames of the reads it comes to.**  By induction on them; a read that
returns no record ends the loop, or is made again. -/
theorem handleReadable_frames {reads : List Read} {results : List ReadResult} (hexact : ∀ r ∈ reads, r.Exact)
    (hgives : List.Forall₂ Read.Gives reads results) :
    (handleReadable results).1 = ((reads.takeWhile continues).flatMap Read.records).map Record.frame := by
  induction hgives with
  | nil => rfl
  | @cons r res reads results hres hrest ih =>
    have hr := hexact r List.mem_cons_self
    have ih := ih fun x hx => hexact x (List.mem_cons_of_mem _ hx)
    have hret : res.ret = r.ret := hres.1
    have hwalk := hr.walkFrames hres
    rw [hret] at hwalk
    rw [handleReadable, hret]
    split
    · next hneg =>
      have hnil : r.records = [] := by
        rcases hr.ret with ⟨-, hnil⟩ | heq
        · exact hnil
        · omega
      split
      · next hintr =>
        have hgo : continues r = true := by simp [continues, hintr]
        rw [ih, List.takeWhile_cons_of_pos hgo, List.flatMap_cons, hnil, List.nil_append]
      · next hintr =>
        have hstop : ¬continues r = true := by
          simp only [continues, Bool.or_eq_true, decide_eq_true_eq]
          omega
        rw [List.takeWhile_cons_of_neg hstop]
        split <;> rfl
    · next hneg =>
      split
      · next hzero =>
        have hstop : ¬continues r = true := by
          simp only [continues, hzero]
          decide
        rw [List.takeWhile_cons_of_neg hstop]
        rfl
      · next hzero =>
        have hpos : 0 < r.ret := by omega
        have hgo : continues r = true := by simp [continues, hpos]
        rw [hwalk hpos, ih, List.takeWhile_cons_of_pos hgo, List.flatMap_cons, List.map_append]

/-! ### End to end -/

/-- **The log's transport loses nothing.**  In every run of the queue whose reads have the buffer of `sulogd`,
each read reports the records that it copied out, whatever the buffer held before; the frame walk recovers
them, with their headers and payloads, and comes to its end; no record is copied out beside the reads.
A capture builds a payload where the log is on and memory is left, and every payload that one builds is parsed to the
fields and strings that were captured. -/
theorem sulog_lossless {trace : List Label} {s : QueueState} (h : sulogQueue.Reaches trace s)
    (hbuf : ∀ n, .entered n ∈ trace → n = READ_BUF_SIZE) :
    (∀ r ∈ (readLog trace).done, r.Exact ∧ ∀ res, r.Gives res → 0 < res.ret →
      walkFrames res.buf res.ret.toNat 0 = (r.records.map Record.frame, .complete)) ∧
    (∀ reads results, reads <:+: (readLog trace).done → List.Forall₂ Read.Gives reads results →
      (handleReadable results).1 = ((reads.takeWhile continues).flatMap Read.records).map Record.frame) ∧
    (readLog trace).records = trace.filterMap delivered ∧
    (∀ info : Infra.DroppedInfo, Ksud.DroppedInfo.parse (droppedInfoBytes info) =
      .ok ⟨info.dropped, info.firstSeq, info.lastSeq⟩) ∧
    (∀ (countsEmpty : Bool) (current : Task) (eventType : UInt16) (filenameUser : Option UserStr)
      (argvUser : Option (ℕ → UserArg)) (fatalSignalPending : ℕ → Bool), ∃ p,
      capture countsEmpty true true true current eventType filenameUser argvUser fatalSignalPending = .captured p) ∧
    ∀ (countsEmpty isEnabled pendingAlloc payloadAlloc : Bool) (current : Task) (eventType : UInt16)
      (filenameUser : Option UserStr) (argvUser : Option (ℕ → UserArg)) (fatalSignalPending : ℕ → Bool)
      (p : PendingEvent),
      capture countsEmpty isEnabled pendingAlloc payloadAlloc current eventType filenameUser argvUser
        fatalSignalPending = .captured p →
      ∀ (identity : Option Identity) (retval : Int32),
        ({ p with event := setIdentity p.event identity }.emit retval).length ≤ KSU_SULOG_MAX_PAYLOAD_LEN ∧
        SulogEvent.parse ({ p with event := setIdentity p.event identity }.emit retval) =
          .ok ((setIdentity (fillTaskInfo current eventType retval) identity).read
            (capturedFilename countsEmpty filenameUser)
            (capturedArgv countsEmpty argvUser fatalSignalPending
              (1996 - filenameSize countsEmpty filenameUser - 1))) := by
  obtain ⟨hinv, hrecords⟩ := reaches_transportInv h hbuf
  refine ⟨fun r hr => ⟨hinv.done r hr, fun res hres => (hinv.done r hr).walkFrames hres⟩, ?_, hrecords,
    parse_droppedInfoBytes, fun countsEmpty => exists_capture, ?_⟩
  · intro reads results hpart
    exact handleReadable_frames fun r hr => hinv.done r (hpart.subset hr)
  · intro countsEmpty isEnabled pendingAlloc payloadAlloc current eventType filenameUser argvUser fatalSignalPending
      p hp identity retval
    exact (parse_emit hp identity retval).symm

/-- The count of a read that begins. -/
def enteredCount : Label → Option ℕ
  | .entered n => some n
  | .internal | .accepted _ | .dropped _ | .turnedAway _ _ | .dropTaken | .dropDelivered _ _ | .dropRestored
  | .nodeDelivered _ | .returned _ => none

/-- A record is queued, another one is dropped, and `sulogd` reads. -/
def readBoth : List Action :=
  [.push 2 0 3 (some ⟨[1, 2, 3], rfl⟩) true 7, .drop, .read 8192 true, .reader false 8, .reader false 9,
    .reader false 10, .reader false 11, .reader false 12, .reader false 13, .reader false 14, .reader false 15,
    .reader false 16]

/-- The shell of an app. -/
def shellTask : Task := ⟨4000, 4000, 3999, 10200, 10200, List.Vector.replicate 16 0⟩

/-- One read returns both, and the walk finds the summary of the drop before the record.  A call of `su` without
arguments is captured, and its file name is read back. -/
theorem sulog_lossless_readBoth : ∃ trace s p event, sulogQueue.Reaches trace s ∧
    (readLog trace).done.map (fun r => (r.ret, r.records.length)) = [(75, 2)] ∧
    (∀ r ∈ (readLog trace).done, ∀ res, r.Gives res → 0 < res.ret →
      walkFrames res.buf res.ret.toNat 0 = (r.records.map Record.frame, .complete)) ∧
    capture false true true true shellTask KSU_SULOG_EVENT_SUCOMPAT
      (some (.str (asBytes "/system/bin/su".toList) (by decide))) none (fun _ => false) = .captured p ∧
    SulogEvent.parse (p.emit 0) = .ok event ∧ event.uid = 10200 ∧ event.file = "/system/bin/su".toList ∧
    event.argv = [] := by
  obtain ⟨⟨trace, s⟩, hrun⟩ : ∃ r, sulogQueue.runFrom sulogQueue.init readBoth = some r :=
    Option.isSome_iff_exists.mp (by decide)
  have hreads : (sulogQueue.runFrom sulogQueue.init readBoth).map (fun x =>
      (readLog x.1).done.map fun r => (r.ret, r.records.length)) = some [(75, 2)] := by decide
  have hcounts : (sulogQueue.runFrom sulogQueue.init readBoth).map (fun x => x.1.filterMap enteredCount) =
      some [8192] := by decide
  rw [hrun, Option.map_some, Option.some_inj] at hreads hcounts
  have hbuf : ∀ n, .entered n ∈ trace → n = READ_BUF_SIZE := by
    intro n hn
    have hmem : n ∈ trace.filterMap enteredCount := List.mem_filterMap.mpr ⟨_, hn, rfl⟩
    rw [hcounts, List.mem_singleton] at hmem
    exact hmem
  have hreaches : sulogQueue.Reaches trace s := .of_run hrun
  obtain ⟨hdone, -, -, -, hbuilt, hparsed⟩ := sulog_lossless hreaches hbuf
  obtain ⟨p, hp⟩ := hbuilt false shellTask KSU_SULOG_EVENT_SUCOMPAT
    (some (.str (asBytes "/system/bin/su".toList) (by decide))) none fun _ => false
  have hread := ((fillTaskInfo shellTask KSU_SULOG_EVENT_SUCOMPAT 0).read_asBytes "/system/bin/su".toList [])
  exact ⟨trace, s, p, _, hreaches, hreads, fun r hr => (hdone r hr).2, hp,
    (hparsed _ _ _ _ _ _ _ _ _ _ hp none 0).2, rfl, hread.1, hread.2⟩

end KernelSU.Sulog
