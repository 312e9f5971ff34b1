import Mathlib.Data.List.Perm.Basic
import Mathlib.Tactic.Linarith
import KernelSU.Infra.EventQueue

/-!
# Every sequence number is accounted for

A ledger kept beside a run follows each sequence number from the moment it is handed out: to the reader,
to the pending list, or into the numbers that one of the drop counters stands for.

* `Summary` — three counters of the queue stand for a list of dropped numbers: its length, its first and
  its last element;
* `Books` — the invariant of queue and ledger; `Books.accept`, `Books.drop`, `Books.take`,
  `Books.dropDone`, `Books.restore`, `Books.nodeDone` say that each section keeps it;
* `eventQueue_accounting` — **PROVED**: in every interleaving that hands out fewer than `2^64` numbers,
  each of them is in exactly one place and the counters say how many are where;
* `eventQueue_counters_wrap` — **PROVED**: without a limit on the queue, `queued` wraps at `2^32` pending
  records, and after `2^64` numbers the order is lost as well.
-/

namespace KernelSU.Infra

open KernelSU.Lib

/-! ### Ascending lists of numbers -/

theorem head_le_of_ascending {xs : List UInt64} (hp : xs.Pairwise (· < ·)) (hne : xs ≠ []) :
    ∀ x ∈ xs, xs.head hne ≤ x := by
  cases xs with
  | nil => exact absurd rfl hne
  | cons a as =>
    intro x hx
    rcases List.mem_cons.mp hx with rfl | hx
    · exact UInt64.le_refl _
    · exact UInt64.le_of_lt ((List.pairwise_cons.mp hp).1 x hx)

theorem le_getLast_of_ascending {xs : List UInt64} (hp : xs.Pairwise (· < ·)) (hne : xs ≠ []) :
    ∀ x ∈ xs, x ≤ xs.getLast hne := by
  intro x hx
  rw [← List.dropLast_append_getLast hne] at hp hx
  rcases List.mem_append.mp hx with hx | hx
  · exact UInt64.le_of_lt ((List.pairwise_append.mp hp).2.2 x hx _ (List.mem_singleton_self _))
  · rw [List.mem_singleton.mp hx]
    exact UInt64.le_refl _

/-- Ascending numbers are at least as far apart as they are many. -/
theorem length_le_of_ascending {xs : List UInt64} (hp : xs.Pairwise (· < ·)) (hne : xs ≠ []) :
    (xs.head hne).toNat + xs.length ≤ (xs.getLast hne).toNat + 1 := by
  induction xs with
  | nil => exact absurd rfl hne
  | cons a as ih =>
    obtain ⟨ha, has⟩ := List.pairwise_cons.mp hp
    by_cases hnil : as = []
    · subst hnil
      simp
    · have htail := ih has hnil
      have hstep : a.toNat < (as.head hnil).toNat := UInt64.lt_iff_toNat_lt.mp (ha _ (List.head_mem hnil))
      rw [List.getLast_cons hnil, List.head_cons, List.length_cons]
      omega

/-! ### Counters that stand for a list -/

/-- `count`, `first` and `last` stand for the numbers `xs`. -/
structure Summary (count first last : UInt64) (xs : List UInt64) : Prop where
  count_eq : count = UInt64.ofNat xs.length
  first_eq : ∀ hne : xs ≠ [], first = xs.head hne
  last_eq : ∀ hne : xs ≠ [], last = xs.getLast hne

namespace Summary

variable {count first last : UInt64} {xs : List UInt64}

theorem nil (first last : UInt64) : Summary 0 first last [] :=
  ⟨rfl, fun h => absurd rfl h, fun h => absurd rfl h⟩

theorem count_toNat (h : Summary count first last xs) (hlen : xs.length < 2 ^ 64) :
    count.toNat = xs.length := by
  rw [h.count_eq]
  exact UInt64.toNat_ofNat_of_lt' hlen

theorem count_eq_zero (h : Summary count first last xs) (hlen : xs.length < 2 ^ 64) :
    count = 0 ↔ xs = [] := by
  rw [← UInt64.toNat_inj, h.count_toNat hlen]
  exact List.length_eq_zero_iff

/-- `ksu_event_queue_note_drop_locked` adds one number at the end. -/
theorem note (h : Summary count first last xs) (hlen : xs.length < 2 ^ 64) (seq : UInt64) :
    Summary (count + 1) (if count = 0 then seq else first) seq (xs ++ [seq]) := by
  refine ⟨?_, ?_, ?_⟩
  · rw [h.count_eq, List.length_append, List.length_singleton, UInt64.ofNat_add]
    rfl
  · intro hne
    by_cases hnil : xs = []
    · rw [if_pos ((h.count_eq_zero hlen).mpr hnil)]
      subst hnil
      rfl
    · rw [if_neg (mt (h.count_eq_zero hlen).mp hnil), h.first_eq hnil, List.head_append_of_ne_nil hnil]
  · intro hne
    rw [List.getLast_append_singleton]

/-- Two summaries of non-empty lists, one after the other. -/
theorem append {count' first' last' : UInt64} {ys : List UInt64} (h : Summary count first last xs)
    (h' : Summary count' first' last' ys) (hx : xs ≠ []) (hy : ys ≠ []) :
    Summary (count' + count) first last' (xs ++ ys) := by
  refine ⟨?_, ?_, ?_⟩
  · rw [h.count_eq, h'.count_eq, List.length_append, UInt64.ofNat_add, UInt64.add_comm]
  · intro hne
    rw [h.first_eq hx, List.head_append_of_ne_nil hx]
  · intro hne
    rw [h'.last_eq hy, List.getLast_append_of_ne_nil _ hy]

end Summary

/-! ### The ledger -/

/-- Where the numbers handed out so far have gone. -/
structure Ledger where
  handedOut : List UInt64
  /-- The numbers given to records that were queued. -/
  accepted : List UInt64
  /-- The numbers of the events delivered to the reader. -/
  delivered : List UInt64
  /-- The numbers that `dropped_pending` counts. -/
  dropPending : List UInt64
  /-- The numbers that `dropped_inflight` counts. -/
  dropInflight : List UInt64
  /-- The delivered DROPPED records, each with the numbers it counts. -/
  dropDelivered : List (DroppedInfo × List UInt64)
  deriving DecidableEq

namespace Ledger

def empty : Ledger := ⟨[], [], [], [], [], []⟩

/-- What one label says about the numbers. -/
def note (l : Ledger) : Label → Ledger
  | .accepted seq =>
    { l with handedOut := l.handedOut ++ [seq], accepted := l.accepted ++ [seq] }
  | .dropped seq =>
    { l with handedOut := l.handedOut ++ [seq], dropPending := l.dropPending ++ [seq] }
  | .dropTaken => { l with dropPending := [], dropInflight := l.dropPending }
  | .dropDelivered _ info =>
    { l with dropDelivered := l.dropDelivered ++ [(info, l.dropInflight)], dropInflight := [] }
  | .dropRestored => { l with dropPending := l.dropInflight ++ l.dropPending, dropInflight := [] }
  | .nodeDelivered node => { l with delivered := l.delivered ++ [node.hdr.seq] }
  | .internal | .turnedAway _ _ | .entered _ | .returned _ => l

/-- The numbers that delivered DROPPED records count. -/
def counted (l : Ledger) : List UInt64 := l.dropDelivered.flatMap Prod.snd

/-- The ledger of a run. -/
def ofTrace (trace : List Label) : Ledger := trace.foldl note empty

theorem ofTrace_append (trace : List Label) (e : Label) :
    ofTrace (trace ++ [e]) = (ofTrace trace).note e := by
  simp only [ofTrace, List.foldl_append, List.foldl_cons, List.foldl_nil]

theorem handedOut_length_le (l : Ledger) (e : Label) :
    l.handedOut.length ≤ (l.note e).handedOut.length := by
  cases e <;> simp [note]

end Ledger

/-- The numbers of the pending records. -/
def EventQueue.pendingSeqs (q : EventQueue) : List UInt64 := q.pending.map (·.hdr.seq)

/-- What a delivered DROPPED record says about the numbers it counts. -/
structure RecordCounts (info : DroppedInfo) (numbers : List UInt64) : Prop where
  dropped : info.dropped.toNat = numbers.length
  ordered : info.firstSeq ≤ info.lastSeq
  bounded : info.dropped.toNat ≤ info.lastSeq.toNat - info.firstSeq.toNat + 1
  within : ∀ seq ∈ numbers, info.firstSeq ≤ seq ∧ seq ≤ info.lastSeq

/-- A summary of ascending numbers makes such a record. -/
theorem Summary.recordCounts {count first last : UInt64} {xs : List UInt64}
    (h : Summary count first last xs) (hlen : xs.length < 2 ^ 64) (hne : xs ≠ [])
    (hp : xs.Pairwise (· < ·)) : RecordCounts ⟨count, first, last⟩ xs := by
  have hfirst := h.first_eq hne
  have hlast := h.last_eq hne
  have hcount := h.count_toNat hlen
  have hspan := length_le_of_ascending hp hne
  subst hfirst hlast
  refine ⟨hcount, head_le_of_ascending hp hne _ (List.getLast_mem hne), ?_, ?_⟩
  · show count.toNat ≤ _
    rw [hcount]
    show xs.length ≤ (xs.getLast hne).toNat - (xs.head hne).toNat + 1
    omega
  · intro seq hseq
    exact ⟨head_le_of_ascending hp hne seq hseq, le_getLast_of_ascending hp hne seq hseq⟩

/-! ### The invariant -/

/-- The places a number can be in, in one list. -/
def places (q : EventQueue) (l : Ledger) : List UInt64 :=
  l.delivered ++ q.pendingSeqs ++ l.counted ++ l.dropPending ++ l.dropInflight

/-- The queue agrees with the ledger. -/
structure Books (q : EventQueue) (l : Ledger) : Prop where
  next : q.nextSeq = UInt64.ofNat (l.handedOut.length + 1)
  bound : ∀ seq ∈ l.handedOut, seq.toNat ≤ l.handedOut.length
  nodup : l.handedOut.Nodup
  partition : (places q l).Perm l.handedOut
  fifo : l.delivered ++ q.pendingSeqs = l.accepted
  acceptedAscend : l.accepted.Pairwise (· < ·)
  dropsAscend : (l.dropInflight ++ l.dropPending).Pairwise (· < ·)
  queued : q.queued = UInt32.ofNat q.pending.length
  capacity : q.maxQueued ≠ 0 → q.pending.length ≤ q.maxQueued.toNat
  dropPending : Summary q.droppedPending q.droppedFirstSeq q.droppedLastSeq l.dropPending
  dropInflight : Summary q.droppedInflight q.droppedInflightFirstSeq q.droppedInflightLastSeq
    l.dropInflight
  total : q.droppedTotal =
    UInt64.ofNat (l.counted.length + l.dropPending.length + l.dropInflight.length)
  records : ∀ r ∈ l.dropDelivered, RecordCounts r.1 r.2

namespace Books

variable {q : EventQueue} {l : Ledger}

theorem init (maxQueued maxPayloadLen : UInt32) :
    Books (EventQueue.init maxQueued maxPayloadLen) Ledger.empty where
  next := rfl
  bound := by simp [Ledger.empty]
  nodup := List.nodup_nil
  partition := List.Perm.refl _
  fifo := rfl
  acceptedAscend := List.Pairwise.nil
  dropsAscend := List.Pairwise.nil
  queued := rfl
  capacity := fun _ => Nat.zero_le _
  dropPending := Summary.nil _ _
  dropInflight := Summary.nil _ _
  total := rfl
  records := by simp [Ledger.empty]

theorem toNat_le_of_mem_places (h : Books q l) {seq : UInt64} (hmem : seq ∈ places q l) :
    seq.toNat ≤ l.handedOut.length :=
  h.bound seq (h.partition.mem_iff.mp hmem)

theorem length_places (h : Books q l) :
    l.delivered.length + q.pending.length + l.counted.length + l.dropPending.length
      + l.dropInflight.length = l.handedOut.length := by
  have hlen := h.partition.length_eq
  simpa only [places, EventQueue.pendingSeqs, List.length_append, List.length_map] using hlen

theorem next_toNat (h : Books q l) (hfew : l.handedOut.length + 1 < 2 ^ 64) :
    q.nextSeq.toNat = l.handedOut.length + 1 := by
  rw [h.next]
  exact UInt64.toNat_ofNat_of_lt' hfew

/-- The next number is above every number handed out before. -/
theorem lt_next (h : Books q l) (hfew : l.handedOut.length + 1 < 2 ^ 64) {seq : UInt64}
    (hmem : seq ∈ places q l) : seq < q.nextSeq := by
  have hle := h.toNat_le_of_mem_places hmem
  have hnext := h.next_toNat hfew
  exact UInt64.lt_iff_toNat_lt.mpr (by omega)

theorem next_bound (h : Books q l) (hfew : l.handedOut.length + 1 < 2 ^ 64) :
    ∀ seq ∈ l.handedOut ++ [q.nextSeq], seq.toNat ≤ (l.handedOut ++ [q.nextSeq]).length := by
  intro seq hmem
  rw [List.length_append, List.length_singleton]
  rcases List.mem_append.mp hmem with hmem | hmem
  · exact Nat.le_succ_of_le (h.bound seq hmem)
  · rw [List.mem_singleton.mp hmem, h.next_toNat hfew]

theorem next_nodup (h : Books q l) (hfew : l.handedOut.length + 1 < 2 ^ 64) :
    (l.handedOut ++ [q.nextSeq]).Nodup := by
  rw [List.nodup_append]
  refine ⟨h.nodup, List.nodup_singleton _, ?_⟩
  rintro seq hmem _ hnext rfl
  rw [List.mem_singleton.mp hnext] at hmem
  have hlt := h.lt_next hfew (h.partition.mem_iff.mpr hmem)
  exact absurd hlt (UInt64.lt_irrefl _)

theorem next_next (h : Books q l) (seq : UInt64) :
    q.nextSeq + 1 = UInt64.ofNat ((l.handedOut ++ [seq]).length + 1) := by
  rw [h.next, List.length_append, List.length_singleton, UInt64.ofNat_add (_ + _) 1]
  rfl

/-- A number above those of an ascending list goes to its end. -/
theorem ascending_concat {xs : List UInt64} {seq : UInt64} (hp : xs.Pairwise (· < ·))
    (hlt : ∀ x ∈ xs, x < seq) : (xs ++ [seq]).Pairwise (· < ·) := by
  rw [List.pairwise_append]
  refine ⟨hp, List.pairwise_singleton _ _, ?_⟩
  intro x hx y hy
  rw [List.mem_singleton.mp hy]
  exact hlt x hx

/-- `ksu_event_queue_push` queues its record. -/
theorem accept (h : Books q l) (hfew : l.handedOut.length + 1 < 2 ^ 64)
    (hroom : ¬(q.maxQueued ≠ 0 ∧ q.maxQueued ≤ q.queued)) {node : EventNode}
    (hseq : node.hdr.seq = q.nextSeq) :
    Books { q with nextSeq := q.nextSeq + 1, pending := q.pending ++ [node], queued := q.queued + 1 }
      (l.note (.accepted q.nextSeq)) where
  next := h.next_next _
  bound := h.next_bound hfew
  nodup := h.next_nodup hfew
  partition := by
    rw [List.perm_iff_count]
    intro seq
    have hcount := h.partition.count_eq seq
    simp only [places, EventQueue.pendingSeqs, Ledger.note, Ledger.counted, List.count_append,
      List.map_append, List.map_cons, List.map_nil, hseq] at hcount ⊢
    omega
  fifo := by
    have hfifo := congrArg (· ++ [q.nextSeq]) h.fifo
    simpa only [EventQueue.pendingSeqs, Ledger.note, List.map_append, List.map_cons, List.map_nil, hseq,
      List.append_assoc] using hfifo
  acceptedAscend := by
    refine ascending_concat h.acceptedAscend ?_
    intro seq hmem
    rw [← h.fifo] at hmem
    refine h.lt_next hfew ?_
    simp only [places, List.mem_append] at hmem ⊢
    tauto
  dropsAscend := h.dropsAscend
  queued := by
    show q.queued + 1 = UInt32.ofNat (q.pending ++ [node]).length
    rw [h.queued, List.length_append, List.length_singleton, UInt32.ofNat_add]
    rfl
  capacity := by
    intro hmax
    show (q.pending ++ [node]).length ≤ q.maxQueued.toNat
    -- below the limit the counter has not wrapped, so the comparison made is the one meant
    have hcap := h.capacity hmax
    have hlim := q.maxQueued.toNat_lt
    have hlt : q.queued < q.maxQueued := UInt32.not_le.mp fun hle => hroom ⟨hmax, hle⟩
    have hfit : q.pending.length < UInt32.size := by
      show q.pending.length < 2 ^ 32
      omega
    rw [h.queued, UInt32.lt_iff_toNat_lt, UInt32.toNat_ofNat_of_lt' hfit] at hlt
    rw [List.length_append, List.length_singleton]
    omega
  dropPending := h.dropPending
  dropInflight := h.dropInflight
  total := h.total
  records := h.records

/-- A number is noted as dropped. -/
theorem drop (h : Books q l) (hfew : l.handedOut.length + 1 < 2 ^ 64) :
    Books ({ q with nextSeq := q.nextSeq + 1 }.noteDropLocked q.nextSeq)
      (l.note (.dropped q.nextSeq)) where
  next := h.next_next _
  bound := h.next_bound hfew
  nodup := h.next_nodup hfew
  partition := by
    rw [List.perm_iff_count]
    intro seq
    have hcount := h.partition.count_eq seq
    simp only [places, EventQueue.pendingSeqs, EventQueue.noteDropLocked, Ledger.note, Ledger.counted,
      List.count_append] at hcount ⊢
    omega
  fifo := h.fifo
  acceptedAscend := h.acceptedAscend
  dropsAscend := by
    have hlt : ∀ seq ∈ l.dropInflight ++ l.dropPending, seq < q.nextSeq := by
      intro seq hmem
      refine h.lt_next hfew ?_
      simp only [places, List.mem_append] at hmem ⊢
      tauto
    have hp := ascending_concat h.dropsAscend hlt
    simpa only [Ledger.note, List.append_assoc] using hp
  queued := h.queued
  capacity := h.capacity
  dropPending := by
    have hlen := h.length_places
    exact h.dropPending.note (by omega) q.nextSeq
  dropInflight := h.dropInflight
  total := by
    show q.droppedTotal + 1 = UInt64.ofNat (l.counted.length + (l.dropPending ++ [q.nextSeq]).length
      + l.dropInflight.length)
    have hsum : l.counted.length + (l.dropPending ++ [q.nextSeq]).length + l.dropInflight.length
        = l.counted.length + l.dropPending.length + l.dropInflight.length + 1 := by
      rw [List.length_append, List.length_singleton]
      omega
    rw [h.total, hsum, UInt64.ofNat_add _ 1]
    rfl
  records := h.records

/-- The drops noted so far are taken for a DROPPED record while none is in flight. -/
theorem take (h : Books q l) (hnone : l.dropInflight = []) :
    Books
      { q with
        droppedInflight := q.droppedPending
        droppedInflightFirstSeq := q.droppedFirstSeq
        droppedInflightLastSeq := q.droppedLastSeq
        droppedPending := 0
        droppedFirstSeq := 0
        droppedLastSeq := 0 }
      (l.note .dropTaken) where
  next := h.next
  bound := h.bound
  nodup := h.nodup
  partition := by
    rw [List.perm_iff_count]
    intro seq
    have hcount := h.partition.count_eq seq
    simp only [places, EventQueue.pendingSeqs, Ledger.note, Ledger.counted, List.count_append, hnone,
      List.count_nil] at hcount ⊢
    omega
  fifo := h.fifo
  acceptedAscend := h.acceptedAscend
  dropsAscend := by
    have hp := h.dropsAscend
    simpa only [Ledger.note, hnone, List.nil_append, List.append_nil] using hp
  queued := h.queued
  capacity := h.capacity
  dropPending := Summary.nil _ _
  dropInflight := h.dropPending
  total := by
    have ht := h.total
    simpa only [Ledger.note, Ledger.counted, hnone, List.length_nil, Nat.add_zero] using ht
  records := h.records

/-- The DROPPED record in flight has been delivered. -/
theorem dropDone (h : Books q l) (hfew : l.handedOut.length < 2 ^ 64) (hsome : l.dropInflight ≠ [])
    (hdr : RecordHdr) :
    Books q.readDropDone (l.note (.dropDelivered hdr
      ⟨q.droppedInflight, q.droppedInflightFirstSeq, q.droppedInflightLastSeq⟩)) where
  next := h.next
  bound := h.bound
  nodup := h.nodup
  partition := by
    rw [List.perm_iff_count]
    intro seq
    have hcount := h.partition.count_eq seq
    simp only [places, EventQueue.pendingSeqs, EventQueue.readDropDone, EventQueue.clearInflight,
      Ledger.note, Ledger.counted, List.flatMap_append, List.flatMap_cons, List.flatMap_nil,
      List.append_nil, List.count_append] at hcount ⊢
    omega
  fifo := h.fifo
  acceptedAscend := h.acceptedAscend
  dropsAscend := (List.pairwise_append.mp h.dropsAscend).2.1
  queued := h.queued
  capacity := h.capacity
  dropPending := h.dropPending
  dropInflight := Summary.nil _ _
  total := by
    show q.droppedTotal = _
    rw [h.total]
    congr 1
    simp only [Ledger.note, Ledger.counted, List.flatMap_append, List.flatMap_cons, List.flatMap_nil,
      List.append_nil, List.length_append, List.length_nil]
    omega
  records := by
    intro r hr
    rcases List.mem_append.mp hr with hr | hr
    · exact h.records r hr
    · rw [List.mem_singleton.mp hr]
      have hlen := h.length_places
      exact h.dropInflight.recordCounts (by omega) hsome (List.pairwise_append.mp h.dropsAscend).1

/-- The drops in flight are put back in front of those noted meanwhile. -/
theorem restore (h : Books q l) (hfew : l.handedOut.length < 2 ^ 64) (hsome : l.dropInflight ≠ []) :
    Books q.readDropRestore (l.note .dropRestored) := by
  have hlen := h.length_places
  have hzero := h.dropPending.count_eq_zero (by omega)
  have hpart : (places q (l.note .dropRestored)).Perm l.handedOut := by
    rw [List.perm_iff_count]
    intro seq
    have hcount := h.partition.count_eq seq
    simp only [places, Ledger.note, Ledger.counted, List.count_append, List.count_nil] at hcount ⊢
    omega
  have hasc : (([] : List UInt64) ++ (l.dropInflight ++ l.dropPending)).Pairwise (· < ·) :=
    h.dropsAscend
  have htotal : q.droppedTotal = UInt64.ofNat
      (l.counted.length + (l.dropInflight ++ l.dropPending).length + ([] : List UInt64).length) := by
    rw [h.total, List.length_append, List.length_nil]
    congr 1
    omega
  rw [EventQueue.readDropRestore]
  split
  case isTrue hnone =>
    have hnil := hzero.mp hnone
    refine ⟨h.next, h.bound, h.nodup, hpart, h.fifo, h.acceptedAscend, hasc, h.queued, h.capacity, ?_, Summary.nil _ _,
      htotal, h.records⟩
    show Summary q.droppedInflight q.droppedInflightFirstSeq q.droppedInflightLastSeq
      (l.dropInflight ++ l.dropPending)
    rw [hnil, List.append_nil]
    exact h.dropInflight
  case isFalse hmore =>
    exact ⟨h.next, h.bound, h.nodup, hpart, h.fifo, h.acceptedAscend, hasc, h.queued, h.capacity,
      h.dropInflight.append h.dropPending hsome (mt hzero.mpr hmore), Summary.nil _ _, htotal,
      h.records⟩

/-- The record at the head of the list has been delivered. -/
theorem nodeDone (h : Books q l) {node : EventNode} (hhead : q.pending.head? = some node) :
    Books (q.readNodeDone node) (l.note (.nodeDelivered node)) := by
  obtain ⟨rest, hrest⟩ : ∃ rest, q.pending = node :: rest := List.head?_eq_some_iff.mp hhead
  have herase : (q.readNodeDone node).pending = rest := by
    simp only [EventQueue.readNodeDone, hrest, List.erase_cons_head]
  have hseqs : l.delivered ++ q.pendingSeqs =
      (l.delivered ++ [node.hdr.seq]) ++ (q.readNodeDone node).pendingSeqs := by
    simp only [EventQueue.pendingSeqs, hrest, herase, List.map_cons, List.append_assoc,
      List.singleton_append]
  refine ⟨h.next, h.bound, h.nodup, ?_, hseqs.symm.trans h.fifo, h.acceptedAscend, h.dropsAscend, ?_, ?_,
    h.dropPending, h.dropInflight, h.total, h.records⟩
  · have hpart := h.partition
    rw [places, hseqs] at hpart
    exact hpart
  · show q.queued - 1 = UInt32.ofNat (q.readNodeDone node).pending.length
    rw [herase, h.queued, hrest, List.length_cons, UInt32.ofNat_add]
    exact UInt32.add_sub_cancel _ _
  · intro hmax
    have hcap := h.capacity hmax
    rw [hrest, List.length_cons] at hcap
    rw [herase]
    exact Nat.le_of_succ_le hcap

theorem markClosed (h : Books q l) : Books q.markClosed l :=
  ⟨h.next, h.bound, h.nodup, h.partition, h.fifo, h.acceptedAscend, h.dropsAscend, h.queued, h.capacity,
    h.dropPending, h.dropInflight, h.total, h.records⟩

end Books

/-! ### What the reader holds between its sections -/

/-- What the owner of `read_lock` holds: the DROPPED record it copies stands for the drops in flight,
the record it copies is the head of the list, and outside of the first case nothing is in flight. -/
def Holds (q : EventQueue) (l : Ledger) : Option ReadPc → Prop
  | some (.copyDrop _ info) =>
    info = ⟨q.droppedInflight, q.droppedInflightFirstSeq, q.droppedInflightLastSeq⟩ ∧
      l.dropInflight ≠ []
  | some (.copyNode node) => l.dropInflight = [] ∧ q.pending.head? = some node
  | _ => l.dropInflight = []

/-- Producers leave alone what the reader holds. -/
theorem Holds.frame {q q' : EventQueue} {l l' : Ledger} {pc : Option ReadPc} (h : Holds q l pc)
    (hledger : l'.dropInflight = l.dropInflight)
    (hcount : q'.droppedInflight = q.droppedInflight)
    (hfirst : q'.droppedInflightFirstSeq = q.droppedInflightFirstSeq)
    (hlast : q'.droppedInflightLastSeq = q.droppedInflightLastSeq)
    (hhead : ∀ node, q.pending.head? = some node → q'.pending.head? = some node) :
    Holds q' l' pc := by
  unfold Holds at h ⊢
  rw [hledger, hcount, hfirst, hlast]
  split at h
  · exact h
  · exact ⟨h.1, hhead _ h.2⟩
  · exact h

/-- The invariant of a run: the books agree, and the reader holds what it is about to finish. -/
structure QueueInv (s : QueueState) (l : Ledger) : Prop where
  books : Books s.queue l
  holds : Holds s.queue l (s.reader.map (·.pc))

/-! ### One step -/

/-- What a push does: nothing, or it queues a record, or it notes a drop. -/
theorem EventQueue.push_cases (q : EventQueue) (type flags : UInt16) (len : UInt32)
    (payload : Option (List.Vector UInt8 len.toNat)) (allocSucceeds : Bool) (now : UInt64) :
    let r := q.push type flags len payload allocSucceeds now
    (r.1 = q ∧ pushLabel q.nextSeq r.2 = .internal) ∨
    (r.1 = { q with nextSeq := q.nextSeq + 1 }.noteDropLocked q.nextSeq ∧
      pushLabel q.nextSeq r.2 = .dropped q.nextSeq) ∨
    (¬(q.maxQueued ≠ 0 ∧ q.maxQueued ≤ q.queued) ∧ pushLabel q.nextSeq r.2 = .accepted q.nextSeq ∧
      ∃ node : EventNode, node.hdr.seq = q.nextSeq ∧
        r.1 = { q with
          nextSeq := q.nextSeq + 1
          pending := q.pending ++ [node]
          queued := q.queued + 1 }) := by
  intro r
  simp only [r, push]
  split
  · exact .inl ⟨rfl, rfl⟩
  · split
    · exact .inl ⟨rfl, rfl⟩
    · rw [pushLocked]
      split
      · exact .inl ⟨rfl, rfl⟩
      · cases allocSucceeds with
        | false => exact .inr (.inl ⟨rfl, rfl⟩)
        | true =>
          simp only [if_true]
          split
          · exact .inr (.inl ⟨rfl, rfl⟩)
          case isFalse hroom => exact .inr (.inr ⟨hroom, rfl, _, rfl, rfl⟩)

theorem QueueInv.push {s : QueueState} {l : Ledger} (h : QueueInv s l) {q : EventQueue} {e : Label}
    (hfew : (l.note e).handedOut.length < 2 ^ 64)
    (hcases : (q = s.queue ∧ e = .internal) ∨
      (q = { s.queue with nextSeq := s.queue.nextSeq + 1 }.noteDropLocked s.queue.nextSeq ∧
        e = .dropped s.queue.nextSeq) ∨
      (¬(s.queue.maxQueued ≠ 0 ∧ s.queue.maxQueued ≤ s.queue.queued) ∧
        e = .accepted s.queue.nextSeq ∧
        ∃ node : EventNode, node.hdr.seq = s.queue.nextSeq ∧
          q = { s.queue with
            nextSeq := s.queue.nextSeq + 1
            pending := s.queue.pending ++ [node]
            queued := s.queue.queued + 1 })) :
    QueueInv { s with queue := q } (l.note e) := by
  rcases hcases with ⟨rfl, rfl⟩ | ⟨rfl, rfl⟩ | ⟨hroom, rfl, node, hseq, rfl⟩
  · exact h
  · have hlen : l.handedOut.length + 1 < 2 ^ 64 := by
      simpa only [Ledger.note, List.length_append, List.length_singleton] using hfew
    exact ⟨h.books.drop hlen, h.holds.frame rfl rfl rfl rfl fun _ hn => hn⟩
  · have hlen : l.handedOut.length + 1 < 2 ^ 64 := by
      simpa only [Ledger.note, List.length_append, List.length_singleton] using hfew
    refine ⟨h.books.accept hlen hroom hseq, h.holds.frame rfl rfl rfl rfl ?_⟩
    intro first hfirst
    rw [List.head?_append, hfirst]
    rfl

/-- The reader's next section keeps the invariant. -/
theorem QueueInv.readStep {q : EventQueue} {c : ReadCall} {l : Ledger} (h : QueueInv ⟨q, some c⟩ l)
    (hfew : l.handedOut.length < 2 ^ 64) (faults : Bool) (now : UInt64) :
    QueueInv (readStep q c faults now).1 (l.note (readStep q c faults now).2) := by
  obtain ⟨hbooks, hholds⟩ := h
  obtain ⟨count, nonblock, copied, pc⟩ := c
  cases pc with
  | waitData =>
    refine ⟨hbooks, ?_⟩
    simp only [Infra.readStep, ReadCall.goto, Option.map_some]
    split <;> exact hholds
  | waitClosed =>
    simp only [Infra.readStep]
    split
    · exact ⟨hbooks, hholds⟩
    · split <;> exact ⟨hbooks, hholds⟩
  | sleepClosed =>
    refine ⟨hbooks, ?_⟩
    simp only [Infra.readStep, ReadCall.goto, Option.map_some]
    split <;> exact hholds
  | sleepData =>
    refine ⟨hbooks, ?_⟩
    simp only [Infra.readStep, ReadCall.goto, Option.map_some]
    split <;> exact hholds
  | readDrop =>
    have hnone : l.dropInflight = [] := hholds
    have hlen := hbooks.length_places
    simp only [Infra.readStep, EventQueue.readDropTake]
    split
    case h_1 e he => exact ⟨hbooks, hholds⟩
    case h_2 => exact ⟨hbooks, hholds⟩
    case h_3 q' hdr info hq =>
      split at hq
      · cases hq
      case isFalse hdrops =>
        split at hq
        · cases hq
        · cases hq
          refine ⟨hbooks.take hnone, rfl, ?_⟩
          exact mt (hbooks.dropPending.count_eq_zero (by omega)).mpr hdrops
  | copyDrop hdr info =>
    obtain ⟨hinfo, hsome⟩ : info = ⟨q.droppedInflight, q.droppedInflightFirstSeq,
      q.droppedInflightLastSeq⟩ ∧ l.dropInflight ≠ [] := hholds
    subst hinfo
    simp only [Infra.readStep]
    split
    · exact ⟨hbooks.restore hfew hsome, rfl⟩
    · refine ⟨hbooks.dropDone hfew hsome hdr, ?_⟩
      simp only [ReadCall.advance, Option.map_some]
      split <;> rfl
  | readNode =>
    have hnone : l.dropInflight = [] := hholds
    simp only [Infra.readStep, EventQueue.readNodeFirst]
    split
    · exact ⟨hbooks, hholds⟩
    · exact ⟨hbooks, hholds⟩
    case h_3 node hnode =>
      refine ⟨hbooks, hnone, ?_⟩
      split at hnode
      · cases hnode
      case h_2 first rest hpending =>
        split at hnode
        · cases hnode
        · cases hnode
          show q.pending.head? = some node
          rw [hpending, List.head?_cons]
  | copyNode node =>
    obtain ⟨hnone, hhead⟩ := hholds
    simp only [Infra.readStep]
    split
    · exact ⟨hbooks, hnone⟩
    · refine ⟨hbooks.nodeDone hhead, ?_⟩
      simp only [ReadCall.advance, Option.map_some]
      split <;> exact hnone
  | finish => exact ⟨hbooks, hholds⟩

/-- A signal only wakes a sleeper, which holds nothing. -/
theorem step_signal {s s' : QueueState} {e : Label} (h : step s .signal = some (s', e)) :
    s' = { s with reader := none } ∧ e = .returned Errno.ERESTARTSYS.val ∧
      ∃ c, s.reader = some c ∧ (c.pc = .sleepClosed ∨ c.pc = .sleepData) := by
  simp only [step] at h
  split at h
  case h_1 c heq =>
    obtain ⟨rfl, rfl⟩ := Prod.mk.inj (Option.some.inj h)
    exact ⟨rfl, rfl, _, heq, .inl rfl⟩
  case h_2 c heq =>
    obtain ⟨rfl, rfl⟩ := Prod.mk.inj (Option.some.inj h)
    exact ⟨rfl, rfl, _, heq, .inr rfl⟩
  case h_3 => cases h

/-- **One step keeps the invariant.** -/
theorem QueueInv.step {s s' : QueueState} {l : Ledger} (h : QueueInv s l) {a : Action} {e : Label}
    (hstep : step s a = some (s', e)) (hfew : (l.note e).handedOut.length < 2 ^ 64) :
    QueueInv s' (l.note e) := by
  have hfew' : l.handedOut.length < 2 ^ 64 := Nat.lt_of_le_of_lt (l.handedOut_length_le e) hfew
  cases a with
  | push type flags len payload allocSucceeds now =>
    obtain ⟨rfl, rfl⟩ := Prod.mk.inj (Option.some.inj hstep)
    exact h.push hfew (s.queue.push_cases type flags len payload allocSucceeds now)
  | drop =>
    obtain ⟨rfl, rfl⟩ := Prod.mk.inj (Option.some.inj hstep)
    refine h.push hfew ?_
    rw [EventQueue.drop]
    split
    · exact .inl ⟨rfl, rfl⟩
    · exact .inr (.inl ⟨rfl, rfl⟩)
  | close =>
    obtain ⟨rfl, rfl⟩ := Prod.mk.inj (Option.some.inj hstep)
    exact ⟨h.books.markClosed, h.holds.frame rfl rfl rfl rfl fun _ hn => hn⟩
  | read count nonblock =>
    simp only [Infra.step] at hstep
    split at hstep
    · obtain ⟨rfl, rfl⟩ := Prod.mk.inj (Option.some.inj hstep)
      exact h
    · split at hstep
      · cases hstep
      case h_2 hreader =>
        obtain ⟨rfl, rfl⟩ := Prod.mk.inj (Option.some.inj hstep)
        have hholds := h.holds
        rw [hreader] at hholds
        exact ⟨h.books, hholds⟩
  | readInterrupted count =>
    simp only [Infra.step] at hstep
    split at hstep
    · cases hstep
    · obtain ⟨rfl, rfl⟩ := Prod.mk.inj (Option.some.inj hstep)
      exact h
  | signal =>
    obtain ⟨rfl, rfl, c, hreader, hpc⟩ := step_signal hstep
    have hholds := h.holds
    rw [hreader] at hholds
    refine ⟨h.books, ?_⟩
    rcases hpc with hpc | hpc
    all_goals
      rw [Option.map_some, hpc] at hholds
      exact hholds
  | reader faults now =>
    simp only [Infra.step] at hstep
    split at hstep
    case h_1 c hreader =>
      obtain ⟨queue, reader⟩ := s
      obtain rfl : reader = some c := hreader
      obtain ⟨rfl, rfl⟩ := Prod.mk.inj (Option.some.inj hstep)
      exact h.readStep hfew' faults now
    case h_2 => cases hstep

/-! ### Whole runs -/

/-- The account that queue and ledger give of the numbers handed out. -/
structure Accounted (q : EventQueue) (l : Ledger) : Prop where
  /-- No number was handed out twice, and each is in exactly one place, once. -/
  nodup : l.handedOut.Nodup
  partition : (l.delivered ++ q.pendingSeqs ++ l.counted ++ l.dropPending ++ l.dropInflight).Perm
    l.handedOut
  /-- What was delivered, followed by what is pending, is what was queued, in ascending order. -/
  fifo : l.delivered ++ q.pendingSeqs = l.accepted
  ascending : (l.delivered ++ q.pendingSeqs).Pairwise (· < ·)
  queued : q.queued.toNat = q.pending.length % 2 ^ 32
  queued_limited : q.maxQueued ≠ 0 →
    q.queued.toNat = q.pending.length ∧ q.queued ≤ q.maxQueued
  dropped_pending : q.droppedPending.toNat = l.dropPending.length
  dropped_inflight : q.droppedInflight.toNat = l.dropInflight.length
  dropped_total : (l.dropDelivered.map (·.1.dropped.toNat)).sum + q.droppedPending.toNat
    + q.droppedInflight.toNat = q.droppedTotal.toNat
  records : ∀ r ∈ l.dropDelivered, RecordCounts r.1 r.2

/-- The delivered records' counts add up to the numbers they count. -/
theorem sum_dropped {records : List (DroppedInfo × List UInt64)}
    (h : ∀ r ∈ records, RecordCounts r.1 r.2) :
    (records.map (·.1.dropped.toNat)).sum = (records.flatMap Prod.snd).length := by
  rw [List.length_flatMap]
  congr 1
  exact List.map_congr_left fun r hr => (h r hr).dropped

theorem Books.accounted {q : EventQueue} {l : Ledger} (h : Books q l)
    (hfew : l.handedOut.length < 2 ^ 64) : Accounted q l := by
  have hlen := h.length_places
  have hpending := h.dropPending.count_toNat (by omega)
  have hinflight := h.dropInflight.count_toNat (by omega)
  have hqueued : q.queued.toNat = q.pending.length % 2 ^ 32 := by
    rw [h.queued]
    exact UInt32.toNat_ofNat'
  refine ⟨h.nodup, h.partition, h.fifo, h.fifo ▸ h.acceptedAscend, hqueued, ?_, hpending, hinflight, ?_,
    h.records⟩
  · intro hmax
    have hcap := h.capacity hmax
    have hlim := q.maxQueued.toNat_lt
    rw [Nat.mod_eq_of_lt (by omega)] at hqueued
    exact ⟨hqueued, UInt32.le_iff_toNat_le.mpr (hqueued ▸ hcap)⟩
  · have htotal : q.droppedTotal.toNat
        = l.counted.length + l.dropPending.length + l.dropInflight.length := by
      rw [h.total]
      exact UInt64.toNat_ofNat_of_lt' (show _ < 2 ^ 64 by omega)
    rw [hpending, hinflight, htotal, sum_dropped h.records]
    rfl

/-- **Accounting.**  In every interleaving of producers, one reader at a time, faults and a close, from
an initialised queue and while fewer than `2^64` numbers have been handed out, each number is in exactly
one place, deliveries are in order, and the counters say how many numbers are where. -/
theorem eventQueue_accounting {maxQueued maxPayloadLen : UInt32} {trace : List Label} {s : QueueState}
    (h : (eventQueue maxQueued maxPayloadLen).Reaches trace s)
    (hfew : (Ledger.ofTrace trace).handedOut.length < 2 ^ 64) :
    Accounted s.queue (Ledger.ofTrace trace) := by
  -- the bound only grows along the run, so the invariant may be stated under it
  refine (h.invariant (fun trace s => (Ledger.ofTrace trace).handedOut.length < 2 ^ 64 →
    QueueInv s (Ledger.ofTrace trace)) ?_ ?_ hfew).books.accounted hfew
  · intro _
    exact ⟨Books.init maxQueued maxPayloadLen, rfl⟩
  · intro trace s a s' e ih hstep hfew
    rw [Ledger.ofTrace_append] at hfew ⊢
    exact (ih (Nat.lt_of_le_of_lt (Ledger.handedOut_length_le _ e) hfew)).step hstep hfew

/-- A queue for one record: a second push and a `drop` are noted, a read takes both, another `drop`
comes in while the copy faults, and the next read delivers all three and the record. -/
def mergedDrops : List Action :=
  [.push 7 0 0 none true 10, .push 7 0 0 none true 11, .drop, .read 100 true, .reader false 0,
    .reader false 12, .drop, .reader true 0, .reader false 0, .read 100 true, .reader false 0,
    .reader false 13, .reader false 0, .reader false 14, .reader false 0, .reader false 0]

theorem eventQueue_accounting_mergedDrops :
    ∃ trace s, (eventQueue 1 2048).runFrom (eventQueue 1 2048).init mergedDrops = some (trace, s) ∧
      (Ledger.ofTrace trace).delivered = [1] ∧
      (Ledger.ofTrace trace).dropDelivered = [(⟨3, 2, 4⟩, [2, 3, 4])] ∧
      Accounted s.queue (Ledger.ofTrace trace) := by
  obtain ⟨⟨trace, s⟩, hrun⟩ : ∃ r, (eventQueue 1 2048).runFrom (eventQueue 1 2048).init mergedDrops
      = some r := Option.isSome_iff_exists.mp (by decide)
  have hledger : ((eventQueue 1 2048).runFrom (eventQueue 1 2048).init mergedDrops).map
      (fun r => Ledger.ofTrace r.1) = some ⟨[1, 2, 3, 4], [1], [1], [], [],
        [(⟨3, 2, 4⟩, [2, 3, 4])]⟩ := by decide
  rw [hrun, Option.map_some, Option.some_inj] at hledger
  refine ⟨trace, s, hrun, by rw [hledger], by rw [hledger], ?_⟩
  exact eventQueue_accounting (.of_run hrun) (by rw [hledger]; decide)

/-! ### Where the counters wrap -/

/-- The state after `n` pushes of an empty payload on a queue without a limit. -/
def pushedState (n : ℕ) : QueueState where
  queue := { EventQueue.init 0 2048 with
    pending := (List.range n).map fun i =>
      EventQueue.stamp (EventQueue.newNode 1 0 0 ⟨[], rfl⟩) (UInt64.ofNat (i + 1)) 0
    queued := UInt32.ofNat n
    nextSeq := UInt64.ofNat (n + 1) }
  reader := none

theorem pushedState_reaches (n : ℕ) :
    (eventQueue 0 2048).Reaches ((List.range n).map fun i => .accepted (UInt64.ofNat (i + 1)))
      (pushedState n) := by
  refine Machine.Reaches.iterate pushedState (fun _ => .push 1 0 0 none true 0) _ rfl ?_ n
  intro n
  have hnext : UInt64.ofNat (n + 1) + 1 = UInt64.ofNat (n + 1 + 1) := (UInt64.ofNat_add (n + 1) 1).symm
  have hqueued : UInt32.ofNat n + 1 = UInt32.ofNat (n + 1) := (UInt32.ofNat_add n 1).symm
  show some (_, _) = some (_, _)
  simp only [pushedState, List.range_succ, List.map_append, List.map_cons, List.map_nil, ← hnext,
    ← hqueued]
  rfl

/-- **Both counters wrap.**  Without a limit, `2^32` pushes leave `2^32` records pending and `queued`
at zero, and after `2^64` pushes the pending numbers are not ascending. -/
theorem eventQueue_counters_wrap :
    (∃ trace s, (eventQueue 0 2048).Reaches trace s ∧ s.queue.pending.length = 2 ^ 32 ∧
      s.queue.queued = 0) ∧
    (∃ trace s, (eventQueue 0 2048).Reaches trace s ∧
      ¬((Ledger.ofTrace trace).delivered ++ s.queue.pendingSeqs).Pairwise (· < ·)) := by
  refine ⟨⟨_, _, pushedState_reaches (2 ^ 32), ?_, ?_⟩, ⟨_, _, pushedState_reaches (2 ^ 64), ?_⟩⟩
  · simp only [pushedState, List.length_map, List.length_range]
  · exact UInt32.toNat_inj.mp UInt32.toNat_ofNat'
  · intro hp
    have hp := (List.pairwise_append.mp hp).2.1
    have hsplit : (2 ^ 64 : ℕ) = (2 ^ 64 - 1) + 1 := by omega
    simp only [pushedState, EventQueue.pendingSeqs] at hp
    rw [hsplit, List.range_succ, List.map_append, List.map_append] at hp
    have hlt := (List.pairwise_append.mp hp).2.2 (UInt64.ofNat (0 + 1)) ?_
      (UInt64.ofNat (2 ^ 64 - 1 + 1)) ?_
    · exact absurd hlt (by decide)
    · simp only [List.map_map, List.mem_map, List.mem_range]
      exact ⟨0, by omega, rfl⟩
    · simp only [List.map_cons, List.map_nil]
      exact List.mem_singleton.mpr rfl

end KernelSU.Infra
