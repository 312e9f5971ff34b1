import KernelSU.Ksud.Sepolicy
import KernelSU.Lib.Utf8

/-!
# `userspace/ksud/src/sulog.rs`: records, events and log lines

A `usize` has 64 bits.
-/

namespace KernelSU.Ksud

open KernelSU.Lib KernelSU.Lib.Bytes

/-- `KSU_EVENT_QUEUE_TYPE_DROPPED`. -/
def KSU_EVENT_QUEUE_TYPE_DROPPED : UInt16 := 0xFFFF

/-- `KSU_EVENT_RECORD_FLAG_INTERNAL`. -/
def KSU_EVENT_RECORD_FLAG_INTERNAL : UInt16 := 1

/-- `READ_BUF_SIZE`. -/
def READ_BUF_SIZE : ℕ := 8192

/-- `struct EventRecordHeader`. -/
structure EventRecordHeader where
  recordType : UInt16
  flags : UInt16
  payloadLen : UInt32
  seq : UInt64
  tsNs : UInt64
  deriving DecidableEq, Repr

/-- `struct SulogEvent`. -/
structure SulogEvent where
  version : UInt16
  eventType : UInt16
  retval : Int32
  pid : UInt32
  tgid : UInt32
  ppid : UInt32
  uid : UInt32
  euid : UInt32
  comm : Str
  file : Str
  argv : Str
  deriving DecidableEq

/-- `SulogEvent::event_name`. -/
def SulogEvent.eventName (event : SulogEvent) : Str :=
  if event.eventType = 1 then "root_execve".toList
  else if event.eventType = 2 then "sucompat".toList
  else if event.eventType = 3 then "ioctl_grant_root".toList
  else "unknown".toList

/-! ### Parsing -/

/-- The fields of a packed struct: the unsigned number in `n` bytes from offset `o` on. -/
def word (bytes : List UInt8) (o n : ℕ) : ℕ := decodeLE (slice bytes o n)

/-- `size_of::<EventRecordHeader>()`. -/
def sizeofEventRecordHeader : ℕ := 24

/-- `EventRecordHeader::parse`, through `read_packed_struct`. -/
def EventRecordHeader.parse (bytes : List UInt8) : Except String EventRecordHeader :=
  if bytes.length < sizeofEventRecordHeader then .error "truncated packed struct"
  else .ok {
    recordType := UInt16.ofNat (word bytes 0 2)
    flags := UInt16.ofNat (word bytes 2 2)
    payloadLen := UInt32.ofNat (word bytes 4 4)
    seq := UInt64.ofNat (word bytes 8 8)
    tsNs := UInt64.ofNat (word bytes 16 8) }

/-- `struct DroppedInfo`. -/
structure DroppedInfo where
  dropped : UInt64
  firstSeq : UInt64
  lastSeq : UInt64
  deriving DecidableEq, Repr

/-- `DroppedInfo::parse`. -/
def DroppedInfo.parse (bytes : List UInt8) : Except String DroppedInfo :=
  if bytes.length < 24 then .error "truncated packed struct"
  else .ok {
    dropped := UInt64.ofNat (word bytes 0 8)
    firstSeq := UInt64.ofNat (word bytes 8 8)
    lastSeq := UInt64.ofNat (word bytes 16 8) }

/-- `struct SulogEventHeader`. -/
structure SulogEventHeader where
  version : UInt16
  eventType : UInt16
  retval : Int32
  pid : UInt32
  tgid : UInt32
  ppid : UInt32
  uid : UInt32
  euid : UInt32
  comm : List UInt8
  filenameLen : UInt32
  argvLen : UInt32

/-- `size_of::<SulogEventHeader>()`. -/
def sizeofSulogEventHeader : ℕ := 52

/-- `SulogEventHeader::parse`. -/
def SulogEventHeader.parse (bytes : List UInt8) : Except String SulogEventHeader :=
  if bytes.length < sizeofSulogEventHeader then .error "truncated packed struct"
  else .ok {
    version := UInt16.ofNat (word bytes 0 2)
    eventType := UInt16.ofNat (word bytes 2 2)
    retval := (UInt32.ofNat (word bytes 4 4)).toInt32
    pid := UInt32.ofNat (word bytes 8 4)
    tgid := UInt32.ofNat (word bytes 12 4)
    ppid := UInt32.ofNat (word bytes 16 4)
    uid := UInt32.ofNat (word bytes 20 4)
    euid := UInt32.ofNat (word bytes 24 4)
    comm := slice bytes 28 16
    filenameLen := UInt32.ofNat (word bytes 44 4)
    argvLen := UInt32.ofNat (word bytes 48 4) }

/-- `parse_c_string`. -/
def parseCString (bytes : List UInt8) : Str := fromUtf8Lossy (cString bytes)

/-- `SulogEvent::parse`. -/
def SulogEvent.parse (payload : List UInt8) : Except String SulogEvent :=
  match SulogEventHeader.parse payload with
  | .error e => .error e
  | .ok header =>
    let fixedLen := sizeofSulogEventHeader
    let filenameLen := header.filenameLen.toNat
    let argvLen := header.argvLen.toNat
    let variableLen := filenameLen + argvLen
    let totalLen := fixedLen + variableLen
    if 2 ^ 64 ≤ variableLen then .error "sulog variable payload length overflow"
    else if 2 ^ 64 ≤ totalLen then .error "sulog event length overflow"
    else if totalLen ≠ payload.length then
      .error s!"sulog payload length mismatch: expected {totalLen}, got {payload.length}"
    else .ok {
      version := header.version
      eventType := header.eventType
      retval := header.retval
      pid := header.pid
      tgid := header.tgid
      ppid := header.ppid
      uid := header.uid
      euid := header.euid
      comm := parseCString header.comm
      file := parseCString (slice payload fixedLen filenameLen)
      argv := parseCString (slice payload (fixedLen + filenameLen) argvLen) }

/-! ### Log lines -/

/-- `char::is_control`. -/
def isControl (ch : Char) : Bool := ch.toNat < 0x20 || (0x7F ≤ ch.toNat && ch.toNat ≤ 0x9F)

/-- The format `{code:02x}`. -/
def hex02 (code : ℕ) : Str :=
  List.replicate (2 - (Nat.toDigits 16 code).length) '0' ++ Nat.toDigits 16 code

/-- What `escape_field` pushes for one character. -/
def escapeChar (ch : Char) : Str :=
  if ch = '\\' then ['\\', '\\']
  else if ch = '"' then ['\\', '"']
  else if ch = '\n' then ['\\', 'n']
  else if ch = '\r' then ['\\', 'r']
  else if ch = '\t' then ['\\', 't']
  else if isControl ch then '\\' :: 'x' :: hex02 ch.toNat
  else [ch]

/-- `escape_field`. -/
def escapeField (value : Str) : Str := value.flatMap escapeChar

/-- The format `{}` of a number. -/
def display {α : Type*} [ToString α] (value : α) : Str := (toString value).toList

/-- `format_event_line`. -/
def formatEventLine (header : EventRecordHeader) (event : SulogEvent) : Str :=
  "ts_ns=".toList ++ display header.tsNs ++
  " seq=".toList ++ display header.seq ++
  " type=".toList ++ event.eventName ++
  " version=".toList ++ display event.version ++
  " retval=".toList ++ display event.retval ++
  " pid=".toList ++ display event.pid ++
  " tgid=".toList ++ display event.tgid ++
  " ppid=".toList ++ display event.ppid ++
  " uid=".toList ++ display event.uid ++
  " euid=".toList ++ display event.euid ++
  " comm=\"".toList ++ escapeField event.comm ++
  "\" file=\"".toList ++ escapeField event.file ++
  "\" argv=\"".toList ++ escapeField event.argv ++ "\"".toList

/-- `format_dropped_line`. -/
def formatDroppedLine (header : EventRecordHeader) (info : DroppedInfo) : Str :=
  "ts_ns=".toList ++ display header.tsNs ++
  " seq=".toList ++ display header.seq ++
  " type=dropped dropped=".toList ++ display info.dropped ++
  " first_seq=".toList ++ display info.firstSeq ++
  " last_seq=".toList ++ display info.lastSeq

/-- `format_record_line`. -/
def formatRecordLine (header : EventRecordHeader) (payload : List UInt8) : Except String Str :=
  if header.recordType = KSU_EVENT_QUEUE_TYPE_DROPPED then
    if header.flags &&& KSU_EVENT_RECORD_FLAG_INTERNAL = 0 then
      .error "dropped record missing internal flag"
    else (DroppedInfo.parse payload).map (formatDroppedLine header)
  else (SulogEvent.parse payload).map (formatEventLine header)

/-! ### Reading the queue -/

/-- A frame: its header and its payload. -/
abbrev Frame := EventRecordHeader × List UInt8

/-- How the walk over a buffer ends: behind the last frame, or in one of the branches that drop the rest. -/
inductive WalkEnd where
  | complete
  | truncatedHeader
  | badHeader
  | overflowingLength
  | truncatedPayload
  deriving DecidableEq, Repr

/-- The inner loop of `handle_readable`: the frames it comes to in `buf[..read_len]` from `offset` on. -/
def walkFrames (buf : List UInt8) (readLen offset : ℕ) : List Frame × WalkEnd :=
  if offset < readLen then
    if readLen - offset < sizeofEventRecordHeader then ([], .truncatedHeader)
    else match EventRecordHeader.parse (slice buf offset sizeofEventRecordHeader) with
      | .error _ => ([], .badHeader)
      | .ok header =>
        if 2 ^ 64 ≤ sizeofEventRecordHeader + header.payloadLen.toNat then ([], .overflowingLength)
        else if readLen - offset < sizeofEventRecordHeader + header.payloadLen.toNat then
          ([], .truncatedPayload)
        else
          ((header, slice buf (offset + sizeofEventRecordHeader) header.payloadLen.toNat) ::
            (walkFrames buf readLen (offset + (sizeofEventRecordHeader + header.payloadLen.toNat))).1,
            (walkFrames buf readLen (offset + (sizeofEventRecordHeader + header.payloadLen.toNat))).2)
  else ([], .complete)
termination_by readLen - offset
decreasing_by all_goals (rw [sizeofEventRecordHeader] at *; omega)

/-- What `read` gives `sulogd`: its result, and the buffer after it. -/
structure ReadResult where
  ret : ℤ
  buf : List UInt8

/-- `enum ReadState`. -/
inductive ReadState where
  | drained
  | closed
  deriving DecidableEq, Repr

/-- `handle_readable` over the coming reads: the frames it handles, and how it returns if it does. -/
def handleReadable : List ReadResult → List Frame × Option (Except ℤ ReadState)
  | [] => ([], none)
  | r :: rs =>
    if r.ret < 0 then
      if r.ret = Errno.EINTR.val then handleReadable rs
      else if r.ret = Errno.EAGAIN.val then ([], some (.ok .drained))
      else ([], some (.error r.ret))
    else if r.ret = 0 then ([], some (.ok .closed))
    else ((walkFrames r.buf r.ret.toNat 0).1 ++ (handleReadable rs).1, (handleReadable rs).2)

end KernelSU.Ksud
