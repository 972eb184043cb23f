import Mino.Storage.SegmentRuns
import Mino.Lib.Proc

/-! # The writer of one segment file

The system calls take their answers from a list, so that every pattern of short writes,
interruptions and failures is a list; a call beyond the end of the list succeeds. The state keeps
the bytes of the file, and how many of them the last data sync covers. -/

namespace Mino.Storage

inductive SegmentSyncPolicy where
  | none
  | interval
  | perBatch
  | perRecord
  deriving DecidableEq, Repr

/-- The errors that `IoError` tells apart. -/
inductive Errno where
  | permission
  | noSpace
  | fileExists
  | other
  deriving DecidableEq, Repr

/-- What a system call answers. -/
inductive IoAnswer where
  | interrupted
  | failed (errno : Errno)
  | done (count : Nat)
  deriving DecidableEq, Repr

/-- `IoError`; the path and the text of the error are left out. -/
def ioError (operation : String) : Errno → Status
  | .permission => .error .permissionDenied operation
  | .noSpace => .error .resourceExhausted operation
  | .fileExists => .error .alreadyExists operation
  | .other => .error .unavailable operation

structure SegmentWriterOptions where
  batchBytes : Nat
  batchRecords : Nat
  flushIntervalNs : Nat
  syncPolicy : SegmentSyncPolicy
  syncIntervalNs : Nat
  syncIntervalBytes : Nat
  maxSegmentBytes : Nat
  maxSegmentRecords : Nat
  maxSegmentDurationNs : Nat
  formatLimits : SegmentFormatLimits
  maxWritevBytes : Nat
  /-- `write_hook` and `writev_hook` are set. -/
  hasWriteHook : Bool
  hasWritevHook : Bool
  /-- `EffectiveWritevBufferLimit`. -/
  bufferLimit : Nat
  deriving Repr

variable (options : SegmentWriterOptions) (w : SegmentWriter) (now : Nat)

def validateOptions : Result Unit := do
  Result.rejectIf (options.maxWritevBytes = 0 ∨ options.maxWritevBytes > 2 ^ 63 - 1)
    (invalid "segment writev byte quota is invalid")
  Result.rejectIf (options.hasWriteHook = true ∧ options.hasWritevHook = true)
    (invalid "segment write and writev hooks are mutually exclusive")
  Result.rejectIf (options.syncPolicy = .interval ∧ options.syncIntervalNs = 0 ∧
      options.syncIntervalBytes = 0)
    (invalid "interval sync policy requires a time or byte threshold")
  Result.rejectIf (options.maxSegmentBytes ≠ 0 ∧
      options.maxSegmentBytes < kEncodedSegmentHeaderSize + kMinimumEncodedRecordSize)
    (invalid "max_segment_bytes cannot hold one minimum record")
  let _ ← encodedRecordSize 0 options.formatLimits
  .ok ()

inductive SegmentWriterState where
  | opened
  | sealed
  | error
  deriving DecidableEq, Repr

inductive SegmentWriterFailureKind where
  | none
  | write
  | sync
  deriving DecidableEq, Repr

structure SegmentWriter where
  options : SegmentWriterOptions
  state : SegmentWriterState
  errorStatus : Status
  failureKind : SegmentWriterFailureKind
  openedAtNs : Nat
  topicId : UInt32
  partitionId : UInt32
  firstIngestionSequence : UInt64
  lastObservedAtNs : Nat
  lastFlushAtNs : Nat
  lastSyncAtNs : Nat
  logicalBytes : Nat
  logicalRecords : Nat
  writtenBytes : Nat
  writtenRecords : Nat
  durableBytes : Nat
  durableRecords : Nat
  unsyncedBytes : Nat
  lastSequence : Option UInt64
  pendingBytes : Nat
  pendingRecords : List Bytes

/-- The writer, its file, the bytes that a sync covers, and what the next calls answer. -/
structure SegmentState where
  writer : SegmentWriter
  file : Bytes
  synced : Nat
  answers : List IoAnswer

structure SegmentAppendResult where
  recordsAccepted : Nat
  rotateNeeded : Bool
  deriving DecidableEq, Repr

abbrev SegmentProc := Proc SegmentState Status

/-! ### System calls -/

/-- The size of one request of `WriteAll`. -/
def writeRequest (remaining : Nat) : Nat :=
  if options.hasWritevHook then min remaining options.maxWritevBytes else remaining

/-- `WriteAll`: the status it fails with, what reached the file, and the answers that are left. -/
def writeAll (options : SegmentWriterOptions) :
    List IoAnswer → Bytes → Option Status × Bytes × List IoAnswer
  | answers, [] => (none, [], answers)
  | [], bytes => (none, bytes, [])
  | .interrupted :: rest, bytes => writeAll options rest bytes
  | .failed errno :: rest, _ => (some (ioError "cannot append segment" errno), [], rest)
  | .done count :: rest, bytes =>
    if count = 0 then (some (.error .unavailable "zero-byte segment write"), [], rest)
    else if count > writeRequest options bytes.length then
      (some (.error .internal "segment write hook over-reported bytes"), [], rest)
    else
      let (status, written, left) := writeAll options rest (bytes.drop count)
      (status, bytes.take count ++ written, left)

/-- The size of the next gathered request for what is left of the records. -/
def requestBytes (chunks : List Bytes) : Nat :=
  min options.maxWritevBytes (chunks.take options.bufferLimit).flatten.length

/-- The records that a count of written bytes completes, and what is left to write. -/
def consume : Nat → List Bytes → Nat × List Bytes
  | _, [] => (0, [])
  | count, chunk :: rest =>
    if count = 0 then (0, chunk :: rest)
    else if chunk.length ≤ count then
      ((consume (count - chunk.length) rest).1 + 1, (consume (count - chunk.length) rest).2)
    else (0, chunk.drop count :: rest)

/-- The loop of `WritePendingGathered`: the status, what reached the file, how many records are
complete, and the answers that are left. -/
def writeGathered (options : SegmentWriterOptions) :
    List IoAnswer → List Bytes → Option Status × Bytes × Nat × List IoAnswer
  | answers, [] => (none, [], 0, answers)
  | [], chunks => (none, chunks.flatten, chunks.length, [])
  | .interrupted :: rest, chunks => writeGathered options rest chunks
  | .failed errno :: rest, _ => (some (ioError "cannot append segment" errno), [], 0, rest)
  | .done count :: rest, chunks =>
    if count = 0 then (some (.error .unavailable "zero-byte segment writev"), [], 0, rest)
    else if count > requestBytes options chunks then
      (some (.error .internal "segment writev hook over-reported bytes"), [], 0, rest)
    else
      let (status, written, complete, left) := writeGathered options rest (consume count chunks).2
      (status, chunks.flatten.take count ++ written, (consume count chunks).1 + complete, left)

/-- `fdatasync`, called again when it is interrupted. -/
def syncData : List IoAnswer → Option Errno × List IoAnswer
  | [] => (none, [])
  | .interrupted :: rest => syncData rest
  | .failed errno :: rest => (some errno, rest)
  | .done _ :: rest => (none, rest)

namespace SegmentWriter

/-! ### Thresholds -/

def reachedElapsed (now start interval : Nat) : Bool :=
  interval ≠ 0 ∧ now ≥ start ∧ now - start ≥ interval

def rotationNeeded : Bool :=
  w.state = .opened &&
    ((w.options.maxSegmentBytes ≠ 0 && w.logicalBytes ≥ w.options.maxSegmentBytes) ||
      (w.options.maxSegmentRecords ≠ 0 && w.logicalRecords ≥ w.options.maxSegmentRecords) ||
      reachedElapsed now w.openedAtNs w.options.maxSegmentDurationNs)

def wouldRotate (size now : Nat) : Bool :=
  w.rotationNeeded now || w.logicalRecords == uint64Max || w.logicalBytes > uint64Max - size ||
    (w.options.maxSegmentBytes ≠ 0 && w.logicalBytes + size > w.options.maxSegmentBytes) ||
    (w.options.maxSegmentRecords ≠ 0 && w.logicalRecords ≥ w.options.maxSegmentRecords)

def batchDue : Bool :=
  (w.options.batchBytes ≠ 0 && w.pendingBytes ≥ w.options.batchBytes) ||
    (w.options.batchRecords ≠ 0 && w.pendingRecords.length ≥ w.options.batchRecords) ||
    reachedElapsed now w.lastFlushAtNs w.options.flushIntervalNs

def intervalSyncDue : Bool :=
  w.unsyncedBytes ≠ 0 &&
    ((w.options.syncIntervalBytes ≠ 0 && w.unsyncedBytes ≥ w.options.syncIntervalBytes) ||
      reachedElapsed now w.lastSyncAtNs w.options.syncIntervalNs)

/-! ### Writing -/

def poison {α : Type} (status : Status) (kind : SegmentWriterFailureKind) : SegmentProc α := do
  let s ← Proc.get
  if s.writer.state = .error then Proc.fail s.writer.errorStatus
  else do
    Proc.modify fun s => { s with
      writer := { s.writer with state := .error, errorStatus := status, failureKind := kind } }
    Proc.fail status

def dataSync : SegmentProc Unit := do
  let s ← Proc.get
  let (errno, answers) := syncData s.answers
  Proc.modify fun s => { s with answers := answers }
  match errno with
  | some errno => poison (ioError "cannot fdatasync segment" errno) .sync
  | none => Proc.modify fun s => { s with
      synced := s.file.length
      writer := { s.writer with
        durableBytes := s.writer.writtenBytes
        durableRecords := s.writer.writtenRecords
        unsyncedBytes := 0
        lastSyncAtNs := now } }

/-- Records have been written whole. -/
def countWritten (records bytes : Nat) : SegmentWriter :=
  { w with
    writtenBytes := w.writtenBytes + bytes
    writtenRecords := w.writtenRecords + records
    unsyncedBytes := w.unsyncedBytes + bytes }

/-- One record of the loop of `FlushPending`. -/
def writeRecord (encoded : Bytes) : SegmentProc Unit := do
  let s ← Proc.get
  let (status, written, answers) := writeAll s.writer.options s.answers encoded
  Proc.modify fun s => { s with file := s.file ++ written, answers := answers }
  match status with
  | some status => poison status .write
  | none =>
    Proc.modify fun s => { s with writer := s.writer.countWritten 1 encoded.length }
    if s.writer.options.syncPolicy = .perRecord then dataSync now else pure ()

def writeEach (now : Nat) : List Bytes → SegmentProc Unit
  | [] => pure ()
  | encoded :: rest => do
    writeRecord now encoded
    writeEach now rest

def writePendingGathered : SegmentProc Unit := do
  let s ← Proc.get
  if s.writer.pendingRecords ≠ [] ∧ requestBytes s.writer.options s.writer.pendingRecords = 0 then
    poison (.error .internal "segment writev made no request") .write
  else do
    let (status, written, complete, answers) :=
      writeGathered s.writer.options s.answers s.writer.pendingRecords
    Proc.modify fun s => { s with
      file := s.file ++ written
      answers := answers
      writer := s.writer.countWritten complete
        (s.writer.pendingRecords.take complete).flatten.length }
    match status with
    | some status => poison status .write
    | none => pure ()

/-- The first half of `FlushPending`. -/
def writePending : SegmentProc Unit :=
  if w.options.syncPolicy = .perRecord ∨ w.options.hasWriteHook = true then
    writeEach now w.pendingRecords
  else writePendingGathered

def flushPending : SegmentProc Unit := do
  let s ← Proc.get
  s.writer.writePending now
  Proc.modify fun t => { t with
    writer := { t.writer with
      pendingRecords := []
      pendingBytes := 0
      lastFlushAtNs := if s.writer.pendingRecords = [] then t.writer.lastFlushAtNs else now } }
  let t ← Proc.get
  if t.writer.options.syncPolicy = .perBatch ∧ s.writer.pendingRecords ≠ [] then dataSync now
  else if t.writer.options.syncPolicy = .interval ∧ t.writer.intervalSyncDue now = true then
    dataSync now
  else pure ()

def validateOpenAndTime : SegmentProc Unit := do
  let s ← Proc.get
  if s.writer.state = .error then Proc.fail s.writer.errorStatus
  else if s.writer.state ≠ .opened then Proc.fail (invalid "segment writer is sealed")
  else if now < s.writer.lastObservedAtNs then
    Proc.fail (invalid "segment writer time must be nondecreasing")
  else Proc.modify fun s => { s with writer := { s.writer with lastObservedAtNs := now } }

def checkSequence (sequence : UInt64) : Result Unit :=
  match w.lastSequence with
  | none =>
    Result.rejectIf (sequence ≠ w.firstIngestionSequence)
      (invalid "first record sequence does not match segment header")
  | some last =>
    Result.rejectIf (sequence ≤ last)
      (invalid "record ingestion_sequence must be strictly increasing")

/-- The checks that `AppendBatch` makes of a record. -/
def checkRecord (record : Record) : Result Bytes := do
  Result.rejectIf (record.header.topicId ≠ w.topicId ∨ record.header.partitionId ≠ w.partitionId)
    (invalid "record topic or partition does not match segment")
  w.checkSequence record.header.ingestionSequence
  encodeRecord record w.options.formatLimits

/-- The record is taken into the batch. -/
def accept (record : Record) (encoded : Bytes) : SegmentWriter :=
  { w with
    pendingBytes := w.pendingBytes + encoded.length
    logicalBytes := w.logicalBytes + encoded.length
    logicalRecords := w.logicalRecords + 1
    pendingRecords := w.pendingRecords ++ [encoded]
    lastSequence := some record.header.ingestionSequence }

/-- `Append`: `AppendBatch` of one record. -/
def append (record : Record) (now : Nat) : SegmentProc SegmentAppendResult := do
  validateOpenAndTime now
  let s ← Proc.get
  let encoded ← Proc.ofExcept (s.writer.checkRecord record)
  if s.writer.wouldRotate encoded.length now then do
    flushPending now
    pure ⟨0, true⟩
  else do
    Proc.modify fun s => { s with writer := s.writer.accept record encoded }
    let s ← Proc.get
    if s.writer.rotationNeeded now then do
      flushPending now
      pure ⟨1, true⟩
    else do
      Proc.onlyIf (s.writer.batchDue now) (flushPending now)
      pure ⟨1, false⟩

def flush : SegmentProc Unit := do
  let s ← Proc.get
  if s.writer.state = .sealed then pure ()
  else do
    validateOpenAndTime now
    flushPending now

/-- `Seal`. -/
def sealFile : SegmentProc Unit := do
  let s ← Proc.get
  if s.writer.state = .sealed then pure ()
  else do
    validateOpenAndTime now
    flushPending now
    dataSync now
    Proc.modify fun s => { s with writer := { s.writer with state := .sealed } }

/-- A writer of a file that holds the header and nothing else. -/
def opened (header : SegmentHeader) (now : Nat) (options : SegmentWriterOptions) : SegmentWriter where
  options := options
  state := .opened
  errorStatus := .success
  failureKind := .none
  openedAtNs := now
  topicId := header.topicId
  partitionId := header.partitionId
  firstIngestionSequence := header.firstIngestionSequence
  lastObservedAtNs := now
  lastFlushAtNs := now
  lastSyncAtNs := now
  logicalBytes := kEncodedSegmentHeaderSize
  logicalRecords := 0
  writtenBytes := kEncodedSegmentHeaderSize
  writtenRecords := 0
  durableBytes := 0
  durableRecords := 0
  unsyncedBytes := kEncodedSegmentHeaderSize
  lastSequence := none
  pendingBytes := 0
  pendingRecords := []

/-- `Create`, with the answers that are left. A file whose header cannot be written is removed. -/
def create (header : SegmentHeader) (now : Nat) (options : SegmentWriterOptions)
    (answers : List IoAnswer) : Result SegmentState × List IoAnswer :=
  match validateOptions options, encodeSegmentHeader header with
  | .error status, _ | .ok _, .error status => (.error status, answers)
  | .ok _, .ok bytes =>
    match answers with
    | .failed errno :: rest => (.error (ioError "cannot create segment" errno), rest)
    | .interrupted :: rest => (.error (ioError "cannot create segment" .other), rest)
    | answers =>
      let (status, written, left) := writeAll options answers.tail bytes
      match status with
      | some status => (.error status, left)
      | none => (.ok ⟨opened header now options, written, 0, left⟩, left)

end SegmentWriter

end Mino.Storage
