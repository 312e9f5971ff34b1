import Mathlib.Data.Vector.Basic
import KernelSU.Lib.Errno
import KernelSU.Lib.Runs

/-!
# `kernel/infra/event_queue.c`: the event queue

Producers append records or, when they cannot, note a drop; one reader at a time, under `read_lock`,
takes a record or a summary of the drops, copies it to user space with the spinlock released, and then
finishes or puts back what it took.  Each definition below is one section under `queue->lock`, or a read
of `closed` outside it; `step` interleaves them.  What happens between two sections of the reader (the
copies, whose outcome the action chooses) touches nothing that is shared and is part of the section that
follows it.

A read that returns before it owns `read_lock` has no section of its own.
-/

namespace KernelSU.Infra

open KernelSU.Lib

/-- `struct ksu_event_record_hdr`. -/
structure RecordHdr where
  type : UInt16
  flags : UInt16
  len : UInt32
  seq : UInt64
  tsNs : UInt64
  deriving DecidableEq, Repr

/-- `struct ksu_event_queue_dropped_info`. -/
structure DroppedInfo where
  dropped : UInt64
  firstSeq : UInt64
  lastSeq : UInt64
  deriving DecidableEq, Repr

/-- `struct ksu_event_queue_node`. -/
structure EventNode where
  hdr : RecordHdr
  payload : List UInt8
  payload_length : payload.length = hdr.len.toNat
  deriving DecidableEq, Repr

/-- `struct ksu_event_queue`, less its locks and its wait queue. -/
structure EventQueue where
  pending : List EventNode
  queued : UInt32
  maxQueued : UInt32
  maxPayloadLen : UInt32
  nextSeq : UInt64
  droppedTotal : UInt64
  droppedPending : UInt64
  droppedFirstSeq : UInt64
  droppedLastSeq : UInt64
  droppedInflight : UInt64
  droppedInflightFirstSeq : UInt64
  droppedInflightLastSeq : UInt64
  closed : Bool
  deriving DecidableEq, Repr

/-- `KSU_EVENT_RECORD_FLAG_INTERNAL`. -/
def RECORD_FLAG_INTERNAL : UInt16 := 1

/-- `KSU_EVENT_QUEUE_TYPE_DROPPED`. -/
def QUEUE_TYPE_DROPPED : UInt16 := 0xFFFF

/-- `sizeof(struct ksu_event_queue_dropped_info)`. -/
def sizeofDroppedInfo : UInt32 := 24

/-- `ksu_event_queue_record_size`. -/
def recordSize (payloadLen : UInt32) : ℕ := 24 + payloadLen.toNat

namespace EventQueue

/-- `ksu_event_queue_init`. -/
def init (maxQueued maxPayloadLen : UInt32) : EventQueue where
  pending := []
  queued := 0
  maxQueued := maxQueued
  maxPayloadLen := maxPayloadLen
  nextSeq := 1
  droppedTotal := 0
  droppedPending := 0
  droppedFirstSeq := 0
  droppedLastSeq := 0
  droppedInflight := 0
  droppedInflightFirstSeq := 0
  droppedInflightLastSeq := 0
  closed := false

/-- `ksu_event_queue_note_drop_locked`. -/
def noteDropLocked (q : EventQueue) (seq : UInt64) : EventQueue :=
  { q with
    droppedTotal := q.droppedTotal + 1
    droppedFirstSeq := if q.droppedPending = 0 then seq else q.droppedFirstSeq
    droppedPending := q.droppedPending + 1
    droppedLastSeq := seq }

/-- `ksu_event_queue_has_data_locked`. -/
def hasDataLocked (q : EventQueue) : Bool :=
  q.droppedPending != 0 || q.droppedInflight != 0 || !q.pending.isEmpty

/-- `ksu_event_queue_mark_closed`, the whole effect of `ksu_event_queue_close`. -/
def markClosed (q : EventQueue) : EventQueue := { q with closed := true }

/-! ### Producers -/

/-- The check `len && !payload` of `ksu_event_queue_push`: the bytes that `memcpy` takes, `none` where
the call refuses the null pointer. -/
def payloadBytes (len : UInt32) : Option (List.Vector UInt8 len.toNat) → Option (List.Vector UInt8 len.toNat)
  | some bytes => some bytes
  | none => if h : len.toNat = 0 then some ⟨[], h.symm⟩ else none

/-- The node that `ksu_event_queue_push` fills in before it takes the lock. -/
def newNode (type flags : UInt16) (len : UInt32) (bytes : List.Vector UInt8 len.toNat) : EventNode where
  hdr := { type := type, flags := flags, len := len, seq := 0, tsNs := 0 }
  payload := bytes.toList
  payload_length := bytes.toList_length

/-- The stores of `seq` and `ts_ns` into the node under the lock. -/
def stamp (node : EventNode) (seq now : UInt64) : EventNode :=
  { node with hdr := { node.hdr with seq := seq, tsNs := now } }

/-- The section of `ksu_event_queue_push` under the lock; `none` is a node that `kmalloc` did not give. -/
def pushLocked (q : EventQueue) (node : Option EventNode) (now : UInt64) :
    EventQueue × Except Errno Unit :=
  if q.closed then (q, .error .EPIPE)
  else
    let seq := q.nextSeq
    let q : EventQueue := { q with nextSeq := q.nextSeq + 1 }
    match node with
    | none => (q.noteDropLocked seq, .error .ENOMEM)
    | some node =>
      if q.maxQueued ≠ 0 ∧ q.maxQueued ≤ q.queued then (q.noteDropLocked seq, .error .ENOSPC)
      else
        ({ q with pending := q.pending ++ [stamp node seq now], queued := q.queued + 1 }, .ok ())

/-- `ksu_event_queue_push`. -/
def push (q : EventQueue) (type flags : UInt16) (len : UInt32)
    (payload : Option (List.Vector UInt8 len.toNat)) (allocSucceeds : Bool) (now : UInt64) :
    EventQueue × Except Errno Unit :=
  if q.maxPayloadLen < len then (q, .error .EMSGSIZE)
  else match payloadBytes len payload with
    | none => (q, .error .EINVAL)
    | some bytes =>
      q.pushLocked (if allocSucceeds then some (newNode type flags len bytes) else none) now

/-- `ksu_event_queue_drop`. -/
def drop (q : EventQueue) : EventQueue :=
  if q.closed then q
  else { q with nextSeq := q.nextSeq + 1 }.noteDropLocked q.nextSeq

/-! ### The reader -/

/-- The first section of `ksu_event_queue_read_drop`: nothing to report, no room, or the drops noted so
far moved to `dropped_inflight`. -/
def readDropTake (q : EventQueue) (count : ℕ) (now : UInt64) :
    Except Errno (Option (EventQueue × RecordHdr × DroppedInfo)) :=
  if q.droppedPending = 0 then .ok none
  else if count < recordSize sizeofDroppedInfo then .error .EMSGSIZE
  else .ok (some (
    { q with
      droppedInflight := q.droppedPending
      droppedInflightFirstSeq := q.droppedFirstSeq
      droppedInflightLastSeq := q.droppedLastSeq
      droppedPending := 0
      droppedFirstSeq := 0
      droppedLastSeq := 0 },
    { type := QUEUE_TYPE_DROPPED
      flags := RECORD_FLAG_INTERNAL
      len := sizeofDroppedInfo
      seq := q.droppedFirstSeq
      tsNs := now },
    { dropped := q.droppedPending
      firstSeq := q.droppedFirstSeq
      lastSeq := q.droppedLastSeq }))

/-- The stores that end both last sections of `ksu_event_queue_read_drop`. -/
def clearInflight (q : EventQueue) : EventQueue :=
  { q with
    droppedInflight := 0
    droppedInflightFirstSeq := 0
    droppedInflightLastSeq := 0 }

/-- The last section of `ksu_event_queue_read_drop` when both copies went well. -/
def readDropDone (q : EventQueue) : EventQueue := q.clearInflight

/-- The section at `out_restore`. -/
def readDropRestore (q : EventQueue) : EventQueue :=
  if q.droppedPending = 0 then
    { q with
      droppedPending := q.droppedInflight
      droppedFirstSeq := q.droppedInflightFirstSeq
      droppedLastSeq := q.droppedInflightLastSeq }.clearInflight
  else
    { q with
      droppedPending := q.droppedPending + q.droppedInflight
      droppedFirstSeq := q.droppedInflightFirstSeq }.clearInflight

/-- The first section of `ksu_event_queue_read_node`, which leaves the node in the list. -/
def readNodeFirst (q : EventQueue) (count : ℕ) : Except Errno (Option EventNode) :=
  match q.pending with
  | [] => .ok none
  | node :: _ => if count < recordSize node.hdr.len then .error .EMSGSIZE else .ok (some node)

/-- The last section of `ksu_event_queue_read_node`: `list_del` of the node read at first. -/
def readNodeDone (q : EventQueue) (node : EventNode) : EventQueue :=
  { q with pending := q.pending.erase node, queued := q.queued - 1 }

end EventQueue

/-! ### A call of `ksu_event_queue_read` -/

/-- Where a call of `ksu_event_queue_read` that owns `read_lock` stands: before a section of
`ksu_event_queue_wait_ready`, of `wait_event_interruptible`, of the loop, or after the loop. -/
inductive ReadPc
  | waitData
  | waitClosed
  | sleepClosed
  | sleepData
  | readDrop
  | copyDrop (hdr : RecordHdr) (info : DroppedInfo)
  | readNode
  | copyNode (node : EventNode)
  | finish
  deriving DecidableEq, Repr

/-- The local variables of a call of `ksu_event_queue_read`. -/
structure ReadCall where
  count : ℕ
  nonblock : Bool
  copied : ℤ
  pc : ReadPc
  deriving DecidableEq, Repr

namespace ReadCall

def goto (c : ReadCall) (pc : ReadPc) : ReadCall := { c with pc := pc }

/-- `if (!copied) copied = ret; break;`. -/
def fail (c : ReadCall) (e : Errno) : ReadCall :=
  { c with copied := if c.copied = 0 then e.val else c.copied, pc := .finish }

/-- A record of `size` bytes was copied; the loop goes on while `count > 0`. -/
def advance (c : ReadCall) (size : ℕ) : ReadCall :=
  { c with
    copied := c.copied + size
    count := c.count - size
    pc := if 0 < c.count - size then .readDrop else .finish }

end ReadCall

/-- What a step does that the queue's user, or the accounting, sees. -/
inductive Label
  | internal
  /-- A producer's record was queued under this number. -/
  | accepted (seq : UInt64)
  /-- This number was noted as dropped. -/
  | dropped (seq : UInt64)
  /-- A call was turned away before it owned `read_lock`. -/
  | turnedAway (count : ℕ) (ret : ℤ)
  | entered (count : ℕ)
  | dropTaken
  | dropDelivered (hdr : RecordHdr) (info : DroppedInfo)
  | dropRestored
  | nodeDelivered (node : EventNode)
  | returned (ret : ℤ)
  deriving DecidableEq, Repr

/-- The queue and the owner of `read_lock`. -/
structure QueueState where
  queue : EventQueue
  reader : Option ReadCall
  deriving DecidableEq, Repr

/-- The next section of the call `c`; `faults` and `now` are what the copies and the clock give. -/
def readStep (q : EventQueue) (c : ReadCall) (faults : Bool) (now : UInt64) : QueueState × Label :=
  match c.pc with
  | .waitData => (⟨q, some (c.goto (if q.hasDataLocked then .readDrop else .waitClosed))⟩, .internal)
  | .waitClosed =>
    if q.closed then (⟨q, some (c.goto .readDrop)⟩, .internal)
    else if c.nonblock then (⟨q, none⟩, .returned Errno.EAGAIN.val)
    else (⟨q, some (c.goto .sleepClosed)⟩, .internal)
  | .sleepClosed => (⟨q, some (c.goto (if q.closed then .waitData else .sleepData))⟩, .internal)
  | .sleepData =>
    (⟨q, some (c.goto (if q.hasDataLocked then .waitData else .sleepClosed))⟩, .internal)
  | .readDrop =>
    match q.readDropTake c.count now with
    | .error e => (⟨q, some (c.fail e)⟩, .internal)
    | .ok none => (⟨q, some (c.goto .readNode)⟩, .internal)
    | .ok (some (q', hdr, info)) => (⟨q', some (c.goto (.copyDrop hdr info))⟩, .dropTaken)
  | .copyDrop hdr info =>
    if faults then (⟨q.readDropRestore, some (c.fail .EFAULT)⟩, .dropRestored)
    else
      (⟨q.readDropDone, some (c.advance (recordSize sizeofDroppedInfo))⟩, .dropDelivered hdr info)
  | .readNode =>
    match q.readNodeFirst c.count with
    | .error e => (⟨q, some (c.fail e)⟩, .internal)
    | .ok none => (⟨q, some (c.goto .finish)⟩, .internal)
    | .ok (some node) => (⟨q, some (c.goto (.copyNode node))⟩, .internal)
  | .copyNode node =>
    if faults then (⟨q, some (c.fail .EFAULT)⟩, .internal)
    else
      (⟨q.readNodeDone node, some (c.advance (recordSize node.hdr.len))⟩, .nodeDelivered node)
  | .finish => (⟨q, none⟩, .returned (if c.copied = 0 ∧ q.closed then 0 else c.copied))

/-- What can happen next: a producer's or `ksu_event_queue_close`'s section, a call of
`ksu_event_queue_read`, a signal, or the next section of the owner of `read_lock`. -/
inductive Action
  | push (type flags : UInt16) (len : UInt32) (payload : Option (List.Vector UInt8 len.toNat))
      (allocSucceeds : Bool) (now : UInt64)
  | drop
  | close
  | read (count : ℕ) (nonblock : Bool)
  /-- `mutex_lock_interruptible` is interrupted. -/
  | readInterrupted (count : ℕ)
  | signal
  | reader (faults : Bool) (now : UInt64)

/-- A push that returns 0 has queued its record, one that lacked memory or room has noted a drop. -/
def pushLabel (seq : UInt64) : Except Errno Unit → Label
  | .ok () => .accepted seq
  | .error e => if e = .ENOMEM ∨ e = .ENOSPC then .dropped seq else .internal

/-- One step of the queue and its users. -/
def step (s : QueueState) : Action → Option (QueueState × Label)
  | .push type flags len payload allocSucceeds now =>
    let (q, ret) := s.queue.push type flags len payload allocSucceeds now
    some ({ s with queue := q }, pushLabel s.queue.nextSeq ret)
  | .drop =>
    some ({ s with queue := s.queue.drop },
      if s.queue.closed then .internal else .dropped s.queue.nextSeq)
  | .close => some ({ s with queue := s.queue.markClosed }, .internal)
  | .read count nonblock =>
    if count = 0 then some (s, .turnedAway count 0)
    else match s.reader with
      | some _ => none
      | none => some ({ s with reader := some ⟨count, nonblock, 0, .waitData⟩ }, .entered count)
  | .readInterrupted count =>
    if count = 0 then none else some (s, .turnedAway count Errno.EINTR.val)
  | .signal =>
    match s.reader with
    | some ⟨_, _, _, .sleepClosed⟩ => some ({ s with reader := none }, .returned Errno.ERESTARTSYS.val)
    | some ⟨_, _, _, .sleepData⟩ => some ({ s with reader := none }, .returned Errno.ERESTARTSYS.val)
    | _ => none
  | .reader faults now =>
    match s.reader with
    | some c => some (readStep s.queue c faults now)
    | none => none

/-- The queue that `ksu_event_queue_init` leaves, with every step its users can take. -/
def eventQueue (maxQueued maxPayloadLen : UInt32) : Machine QueueState Action Label where
  init := ⟨EventQueue.init maxQueued maxPayloadLen, none⟩
  step := step

end KernelSU.Infra
