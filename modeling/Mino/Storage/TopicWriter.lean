import Mino.Storage.PartitionManifest
import Mino.Storage.SegmentWrites
import Mino.Lib.OrderedMap

/-! # The writer of a topic partition

Buffers become records with consecutive ingestion sequences, gaps in the sequences of a source
become gap records, segments rotate, and acknowledgements follow the files and the manifest. The
files of the run, and the records that were accepted into each of them, are part of the state, and
so is the list of acknowledgements, each with what stood on the disk when it was put on the list of
callbacks; a call dispatches that list when it ends. -/

namespace Mino.Storage

open Proc

open Wire (crc32c)

inductive GapReason where
  | sourceSequenceJump
  | dropNewest
  | dropOldest
  | dropNewestNoDroppableOldest
  | allocationFailure
  | recordingFailed
  | reservationCancelled
  | recorderRestartRecovery
  deriving DecidableEq, Repr

def GapReason.code : GapReason → Nat
  | .sourceSequenceJump => 1
  | .dropNewest => 2
  | .dropOldest => 3
  | .dropNewestNoDroppableOldest => 4
  | .allocationFailure => 5
  | .recordingFailed => 6
  | .reservationCancelled => 7
  | .recorderRestartRecovery => 8

def kGapPayloadMagic : Nat := 0x5041474d
def kGapPayloadVersion : Nat := 1
def kTopicWriterTombstoneUserTagMask : UInt64 := 0x8000000000000000

structure GapPayload where
  reason : GapReason
  firstMissingSourceSequence : UInt64
  lastMissingSourceSequence : UInt64
  deriving DecidableEq, Repr

def encodeGapPayload (payload : GapPayload) : Result Bytes := do
  Result.rejectIf (payload.lastMissingSourceSequence < payload.firstMissingSourceSequence)
    (invalid "gap payload sequence range is reversed")
  .ok (LittleEndian.encode 4 kGapPayloadMagic ++ (LittleEndian.encode 2 kGapPayloadVersion ++
    (LittleEndian.encode 2 payload.reason.code ++
      (LittleEndian.encode 8 payload.firstMissingSourceSequence.toNat ++
        LittleEndian.encode 8 payload.lastMissingSourceSequence.toNat))))

inductive BufferDiscardReason where
  | dropNewest
  | dropOldest
  | dropNewestNoDroppableOldest
  | allocationFailure
  | failRecording
  | reservationCancelled
  deriving DecidableEq, Repr

def gapReasonFor : BufferDiscardReason → GapReason
  | .dropNewest => .dropNewest
  | .dropOldest => .dropOldest
  | .dropNewestNoDroppableOldest => .dropNewestNoDroppableOldest
  | .allocationFailure => .allocationFailure
  | .failRecording => .recordingFailed
  | .reservationCancelled => .reservationCancelled

structure RecorderSchemaMetadata where
  shortId : UInt64
  canonicalDigest : Bytes
  schemaVersion : UInt32
  layoutVersion : UInt32
  deriving DecidableEq, Repr

structure MessageSource where
  nodeId : UInt64
  publisherId : UInt64
  publisherEpoch : UInt64
  sourceSequence : UInt64
  observedTimestampNs : UInt64
  deriving DecidableEq, Repr

structure RecorderRecordMetadata where
  schema : RecorderSchemaMetadata
  topicId : UInt32
  source : MessageSource
  ingestionTimestampNs : UInt64
  payloadSize : Nat
  payloadCrc : UInt32
  deriving DecidableEq, Repr

structure RecorderBufferHandle where
  metadata : Option RecorderRecordMetadata
  topicId : UInt32
  bytes : Bytes
  userTag : UInt64
  deriving DecidableEq, Repr

structure DiscardedBuffer where
  reason : BufferDiscardReason
  topicId : UInt32
  metadata : Option RecorderRecordMetadata
  deriving DecidableEq, Repr

structure SourceKey where
  nodeId : UInt64
  publisherId : UInt64
  publisherEpoch : UInt64
  deriving DecidableEq, Repr

/-- `KeyOf`. -/
def MessageSource.key (source : MessageSource) : SourceKey :=
  ⟨source.nodeId, source.publisherId, source.publisherEpoch⟩

structure SourceProgress where
  lastSequence : Option UInt64
  reportedDiscards : List (UInt64 × GapReason)
  deriving Repr

/-- `insert_or_assign` of a discard. -/
def SourceProgress.discard (progress : SourceProgress) (sequence : UInt64) (reason : GapReason) :
    SourceProgress :=
  ⟨progress.lastSequence, OrderedMap.emplace sequence reason
    (OrderedMap.assign progress.reportedDiscards sequence reason)⟩

/-- The loop of `SelectGapReason` over the discards from the first missing sequence on. -/
def sameReason (reason : GapReason) (lastMissing : UInt64) :
    UInt64 → List (UInt64 × GapReason) → GapReason
  | _, [] => .sourceSequenceJump
  | expected, (sequence, found) :: rest =>
    if sequence > lastMissing then .sourceSequenceJump
    else if sequence ≠ expected ∨ found ≠ reason then .sourceSequenceJump
    else if expected = lastMissing then reason
    else sameReason reason lastMissing (expected + 1) rest

def selectGapReason (progress : SourceProgress) (firstMissing lastMissing : UInt64) : GapReason :=
  match progress.reportedDiscards.dropWhile (·.1 < firstMissing) with
  | [] => .sourceSequenceJump
  | (sequence, reason) :: rest =>
    if sequence ≠ firstMissing then .sourceSequenceJump
    else sameReason reason lastMissing firstMissing ((sequence, reason) :: rest)

structure TopicWriterOptions where
  recordingId : UInt64
  topicId : UInt32
  partitionId : UInt32
  writerId : UInt64
  segmentOptions : SegmentWriterOptions
  /-- `ResolveSchema`: the schema resolver or the schema store. -/
  resolveSchema : RecorderSchemaMetadata → Result UInt32

inductive TopicWriterState where
  | created
  | running
  | stopping
  | stopped
  | error
  deriving DecidableEq, Repr

inductive RecordAckLevel where
  | written
  | durable
  deriving DecidableEq, Repr

structure PendingAck where
  ingestionSequence : UInt64
  segmentId : Nat
  recordFlags : UInt16
  userTag : UInt64
  source : MessageSource
  deriving DecidableEq, Repr

/-- An acknowledgement, and the file of its segment, the bytes of it that a sync covers and the
checkpoint of the manifest as they were then. -/
structure IssuedAck where
  level : RecordAckLevel
  ack : PendingAck
  file : Bytes
  synced : Nat
  checkpoint : Option DurableCheckpoint
  deriving DecidableEq, Repr

/-- `segment_writer_`, `active_segment_` and the acknowledgements of the segment. -/
structure ActiveSegment where
  entry : SegmentManifestEntry
  writer : SegmentWriter
  synced : Nat
  acks : List PendingAck
  writtenAckCount : Nat
  durableAckCount : Nat

structure TopicWriter where
  options : TopicWriterOptions
  state : TopicWriterState
  errorStatus : Status
  nextIngestionSequence : UInt64
  sequenceExhausted : Bool
  nextSegmentId : Nat
  duplicateCount : Nat
  lastNowNs : Nat
  sources : SourceKey → SourceProgress
  active : Option ActiveSegment
  manifest : PartitionManifest
  answers : List IoAnswer
  files : Nat → Bytes
  /-- The records accepted into each segment, and all of them in order with their segments. -/
  recordsOf : Nat → List Record
  appended : List (Nat × Record)
  issued : List IssuedAck

abbrev TopicProc := Proc TopicWriter Status

namespace TopicWriter

def poison {α : Type} (status : Status) : TopicProc α := do
  let w ← get
  if w.state = .error then fail w.errorStatus
  else do
    modify fun w => { w with state := .error, errorStatus := status }
    fail status

/-- What fails in the command poisons the writer. -/
def poisoning {α : Type} (m : TopicProc α) : TopicProc α := fun w =>
  match m w with
  | (.ok a, w') => (.ok a, w')
  | (.error status, w') => poison status w'

/-! ### The manifest and the active segment -/

/-- The write of `Commit`. -/
def commit (next : PartitionManifest) : TopicProc Unit := do
  let w ← get
  let (errno, answers) := syncData w.answers
  modify fun w => { w with answers := answers }
  match errno with
  | some errno => do
    modify fun w => { w with manifest := { w.manifest with poisoned := true } }
    fail (ioError "cannot write manifest" errno)
  | none => modify fun w => { w with manifest := next }

def addSegment (entry : SegmentManifestEntry) : TopicProc Unit := do
  let w ← get
  let next ← ofExcept (w.manifest.addSegment entry)
  commit next

/-- A change that may need no write. -/
def commitChange : Option PartitionManifest → TopicProc Unit
  | none => pure ()
  | some next => commit next

def updateSegment (entry : SegmentManifestEntry) : TopicProc Unit := do
  let w ← get
  let next ← ofExcept (w.manifest.updateSegment entry)
  commitChange next

def updateCheckpoint (checkpoint : DurableCheckpoint) : TopicProc Unit := do
  let w ← get
  let next ← ofExcept (w.manifest.updateCheckpoint checkpoint)
  commitChange next

variable (w : TopicWriter) (active : ActiveSegment)

/-- The state that the segment writer of the active segment works on. -/
def segmentState : SegmentState :=
  ⟨active.writer, w.files active.entry.segmentId, active.synced, w.answers⟩

/-- The state after the segment writer of the active segment has worked. -/
def setSegmentState (s : SegmentState) : TopicWriter :=
  { w with
    active := some { active with writer := s.writer, synced := s.synced }
    files := Function.update w.files active.entry.segmentId s.file
    answers := s.answers }

/-- A call of the segment writer. -/
def onSegment {α : Type} (active : ActiveSegment) (m : SegmentProc α) : TopicProc α := fun w =>
  ((m (w.segmentState active)).1, w.setSegmentState active (m (w.segmentState active)).2)

def setActive (active : Option ActiveSegment) : TopicProc Unit :=
  modify fun w => { w with active := active }

/-! ### Acknowledgements -/

/-- An acknowledgement is put on the list of callbacks. -/
def issue (level : RecordAckLevel) (active : ActiveSegment) (ack : PendingAck) (w : TopicWriter) :
    TopicWriter :=
  { w with issued := w.issued ++
      [⟨level, ack, w.files active.entry.segmentId, active.synced, w.manifest.checkpoint⟩] }

def issueAll (level : RecordAckLevel) (active : ActiveSegment) (acks : List PendingAck)
    (w : TopicWriter) : TopicWriter :=
  acks.foldl (fun w ack => issue level active ack w) w

/-- The loop over `written_ack_count_`. -/
def issueWritten : TopicProc Unit := modify fun w =>
  match w.active with
  | none => w
  | some active =>
    { issueAll .written active (active.acks.drop active.writtenAckCount) w with
      active := some { active with
        writtenAckCount := max active.writtenAckCount active.acks.length } }

/-- The loop over `durable_ack_count_`. -/
def issueDurable (count : Nat) : TopicProc Unit := modify fun w =>
  match w.active with
  | none => w
  | some active =>
    { issueAll .durable active ((active.acks.take count).drop active.durableAckCount) w with
      active := some { active with durableAckCount := max active.durableAckCount count } }

/-- The entry of the active segment as it is now. -/
def openEntry (last : PendingAck) : SegmentManifestEntry :=
  { active.entry with
    lastIngestionSequence := last.ingestionSequence
    sizeBytes := active.writer.logicalBytes }

def updateOpenManifest : TopicProc Unit :=
  match active.acks.getLast? with
  | none => pure ()
  | some last => do
    setActive (some { active with entry := openEntry active last })
    updateSegment (openEntry active last)

def publishDurability : TopicProc Unit := do
  let w ← get
  match w.active with
  | none => pure ()
  | some active =>
    let durableCount := active.writer.durableRecords
    if durableCount > active.acks.length then
      fail (.error .internal "segment durable count exceeds ACK ledger")
    else if durableCount ≤ active.durableAckCount then pure ()
    else
      match active.acks[durableCount - 1]? with
      | none => pure ()
      | some lastDurable => do
        updateOpenManifest active
        updateCheckpoint ⟨active.entry.segmentId, active.writer.durableBytes,
          lastDurable.ingestionSequence⟩
        issueDurable durableCount

variable (now : Nat) (options : TopicWriterOptions) (metadata : RecorderRecordMetadata)
  (handle : RecorderBufferHandle)

def flushCurrent : TopicProc Unit := do
  let w ← get
  match w.active with
  | none => pure ()
  | some active => do
    onSegment active (SegmentWriter.flush now)
    issueWritten
    publishDurability

/-- The entry of the active segment when it is sealed. -/
def sealedEntry (last : PendingAck) (now : Nat) : SegmentManifestEntry :=
  { active.entry with
    state := .sealed
    lastIngestionSequence := last.ingestionSequence
    sealedAtNs := now
    sizeBytes := active.writer.logicalBytes }

/-- The part of `SealCurrentLocked` behind the seal of the file. -/
def sealManifest : TopicProc Unit := do
  let w ← get
  match w.active with
  | none => pure ()
  | some active =>
    match active.acks.getLast? with
    | none => fail (.error .internal "active segment has no tracked record")
    | some last => do
      setActive (some { active with entry := sealedEntry active last now })
      updateSegment (sealedEntry active last now)
      issueWritten
      publishDurability
      setActive none

def sealCurrent : TopicProc Unit := do
  let w ← get
  match w.active with
  | none => pure ()
  | some active => do
    onSegment active (SegmentWriter.sealFile now)
    sealManifest now

/-! ### Records -/

def segmentRelativePath (segmentId : Nat) : String :=
  let digits := toString segmentId
  "segments/" ++ String.ofList (List.replicate (8 - digits.length) '0') ++ digits ++ ".mino"

/-- A call that answers with success or failure only. -/
def systemCall (status : Errno → Status) : TopicProc Unit := do
  let w ← get
  let (errno, answers) := syncData w.answers
  modify fun w => { w with answers := answers }
  match errno with
  | some errno => fail (status errno)
  | none => pure ()

def syncSegmentsDirectory : TopicProc Unit := systemCall fun _ =>
  .error .unavailable "cannot fsync TopicWriter segments directory"

def createDirectories : TopicProc Unit := systemCall fun _ =>
  .error .unavailable "cannot create partition segments directory"

def segmentHeader (firstSequence : UInt64) (now : Nat) :
    SegmentHeader where
  flags := 0
  recordingId := options.recordingId
  topicId := options.topicId
  partitionId := options.partitionId
  writerId := options.writerId
  firstIngestionSequence := firstSequence
  createdAtNs := .ofNat now

/-- `SegmentWriter::Create` for a segment of the partition; its file is on the disk then. -/
def createSegment (segmentId : Nat) (header : SegmentHeader) (now : Nat) : TopicProc SegmentState :=
  fun w =>
    match SegmentWriter.create header now w.options.segmentOptions w.answers with
    | (.error status, answers) => (.error status, { w with answers := answers })
    | (.ok s, answers) => (.ok s, { w with
        answers := answers
        files := Function.update w.files segmentId s.file })

def newEntry (segmentId : Nat) (firstSequence : UInt64) (now : Nat) : SegmentManifestEntry where
  segmentId := segmentId
  state := .creating
  firstIngestionSequence := firstSequence
  lastIngestionSequence := firstSequence
  createdAtNs := now
  sealedAtNs := 0
  sizeBytes := kEncodedSegmentHeaderSize
  relativePath := segmentRelativePath segmentId

def ensureSegment (firstSequence : UInt64) (now : Nat) : TopicProc Unit := do
  let w ← get
  match w.active with
  | some _ => pure ()
  | none =>
    if w.nextSegmentId = 0 then fail (.error .resourceExhausted "segment ID is exhausted")
    else do
      let segmentId := w.nextSegmentId
      let entry := newEntry segmentId firstSequence now
      createDirectories
      addSegment entry
      let s ← createSegment segmentId (segmentHeader w.options firstSequence now) now
      syncSegmentsDirectory
      updateSegment { entry with state := .opened }
      modify fun w => { w with
        active := some ⟨{ entry with state := .opened }, s.writer, s.synced, [], 0, 0⟩
        nextSegmentId := if segmentId = uint64Max then 0 else segmentId + 1 }

/-- The record has been accepted into the active segment. -/
def trackRecord (record : Record) (ack : PendingAck) (w : TopicWriter) : TopicWriter :=
  match w.active with
  | none => w
  | some active =>
    { w with
      active := some { active with acks := active.acks ++
        [{ ack with segmentId := active.entry.segmentId }] }
      recordsOf := Function.update w.recordsOf active.entry.segmentId
        (w.recordsOf active.entry.segmentId ++ [record])
      appended := w.appended ++ [(active.entry.segmentId, record)] }

/-- One turn of the loop of `AppendRecordLocked`: whether the record has been accepted. -/
def appendOnce (record : Record) (ack : PendingAck) (now : Nat) : TopicProc Bool := do
  ensureSegment record.header.ingestionSequence now
  let w ← get
  match w.active with
  | none => pure true
  | some active => do
    let appended ← onSegment active (SegmentWriter.append record now)
    if appended.recordsAccepted = 1 then do
      modify (trackRecord record ack)
      if appended.rotateNeeded then do
        sealCurrent now
        pure true
      else pure true
    else if !appended.rotateNeeded then
      fail (.error .internal "segment accepted no record without rotation")
    else do
      sealCurrent now
      pure false

/-- `AppendRecordLocked`. A record that a new segment does not take ends in the second turn: the
seal of a segment without records fails. -/
def appendRecord (record : Record) (ack : PendingAck) (now : Nat) : TopicProc Unit := do
  let accepted ← appendOnce record ack now
  if accepted then pure ()
  else do
    let _ ← appendOnce record ack now
    pure ()

def allocateSequence : TopicProc UInt64 := do
  let w ← get
  if w.sequenceExhausted then
    fail (.error .resourceExhausted "ingestion sequence is exhausted")
  else do
    let allocated := w.nextIngestionSequence
    modify fun w =>
      if allocated.toNat = uint64Max then { w with sequenceExhausted := true }
      else { w with nextIngestionSequence := allocated + 1 }
    pure allocated

/-- The checks that `ProcessHandleLocked` makes of a buffer. -/
def checkHandle : Result RecorderRecordMetadata :=
  match handle.metadata with
  | none => .error (corruption "dequeued recorder buffer has no metadata")
  | some metadata => do
    Result.rejectIf (handle.topicId ≠ options.topicId ∨ metadata.topicId ≠ options.topicId)
      (corruption "dequeued recorder topic is incorrect")
    Result.rejectIf (metadata.payloadSize ≠ handle.bytes.length)
      (corruption "dequeued recorder payload size changed")
    Result.rejectIf (crc32c handle.bytes ≠ metadata.payloadCrc)
      (corruption "dequeued recorder payload CRC32C mismatch")
    .ok metadata

/-- The record of a gap in the sequences of a source. -/
def gapRecord (sequence firstMissing : UInt64) (payload : Bytes) : Record where
  header := {
    flags := kRecordFlagGap
    schemaRef := 0
    schemaVersion := 0
    layoutVersion := 0
    topicId := options.topicId
    partitionId := options.partitionId
    ingestionSequence := sequence
    ingestionTimestampNs := metadata.ingestionTimestampNs
    nodeId := metadata.source.nodeId
    publisherId := metadata.source.publisherId
    publisherEpoch := metadata.source.publisherEpoch
    sourceSequence := firstMissing
    observedTimestampNs := metadata.source.observedTimestampNs }
  payload := payload

def dataRecord (schemaRef : UInt32) (sequence : UInt64) : Record where
  header := {
    flags := if handle.userTag &&& kTopicWriterTombstoneUserTagMask ≠ 0 then kRecordFlagTombstone
      else 0
    schemaRef := schemaRef
    schemaVersion := metadata.schema.schemaVersion
    layoutVersion := metadata.schema.layoutVersion
    topicId := options.topicId
    partitionId := options.partitionId
    ingestionSequence := sequence
    ingestionTimestampNs := metadata.ingestionTimestampNs
    nodeId := metadata.source.nodeId
    publisherId := metadata.source.publisherId
    publisherEpoch := metadata.source.publisherEpoch
    sourceSequence := metadata.source.sourceSequence
    observedTimestampNs := metadata.source.observedTimestampNs }
  payload := handle.bytes

/-- The gap record in front of a buffer, if its source has skipped sequences. -/
def appendGap (last : UInt64) (now : Nat) : TopicProc Unit := do
  let w ← get
  if w.sequenceExhausted = false ∧ w.nextIngestionSequence.toNat = uint64Max then
    fail (.error .resourceExhausted "insufficient ingestion sequences for gap and data")
  else do
    let firstMissing := last + 1
    let lastMissing := metadata.source.sourceSequence - 1
    let reason := selectGapReason (w.sources metadata.source.key) firstMissing lastMissing
    let payload ← ofExcept (encodeGapPayload ⟨reason, firstMissing, lastMissing⟩)
    let sequence ← allocateSequence
    appendRecord (gapRecord w.options metadata sequence firstMissing payload)
      ⟨sequence, 0, kRecordFlagGap, 0, { metadata.source with sourceSequence := firstMissing }⟩ now

/-- The record of a buffer, and what it says of its source. -/
def appendData (schemaRef : UInt32) (now : Nat) : TopicProc Unit := do
  let w ← get
  let sequence ← allocateSequence
  let record := dataRecord w.options metadata handle schemaRef sequence
  appendRecord record ⟨sequence, 0, record.header.flags,
    handle.userTag &&& ~~~kTopicWriterTombstoneUserTagMask, metadata.source⟩ now
  modify fun w => { w with
    sources := Function.update w.sources metadata.source.key
      ⟨some metadata.source.sourceSequence, (w.sources metadata.source.key).reportedDiscards.filter
        (·.1 > metadata.source.sourceSequence)⟩ }

def processHandle (now : Nat) : TopicProc Unit := poisoning do
  let w ← get
  let metadata ← ofExcept (checkHandle w.options handle)
  let schemaRef ← ofExcept (w.options.resolveSchema metadata.schema)
  match (w.sources metadata.source.key).lastSequence with
  | none => appendData metadata handle schemaRef now
  | some last =>
    if metadata.source.sourceSequence ≤ last then
      modify fun w => { w with duplicateCount := w.duplicateCount + 1 }
    else do
      onlyIf (metadata.source.sourceSequence > last + 1) (appendGap metadata last now)
      appendData metadata handle schemaRef now

def processAll (now : Nat) : List RecorderBufferHandle → TopicProc Unit
  | [] => pure ()
  | handle :: rest => do
    processHandle handle now
    processAll now rest

/-! ### Calls -/

/-- The checks at the begin of a call. -/
def enter : TopicProc Unit := do
  let w ← get
  if w.state = .error then fail w.errorStatus
  else if w.state ≠ .running then fail (invalid "TopicWriter is not running")
  else if now < w.lastNowNs then fail (invalid "TopicWriter time must be nondecreasing")
  else modify fun w => { w with lastNowNs := now }

def start : TopicProc Unit := do
  let w ← get
  if w.state = .error then fail w.errorStatus
  else if w.state ≠ .created then fail (invalid "TopicWriter can only start once")
  else modify fun w => { w with lastNowNs := now, state := .running }

/-- `Pump`, with the buffers that it takes from the pool, and the status if the pool fails. -/
def pump (handles : List RecorderBufferHandle) (failure : Option Status) :
    TopicProc Unit := do
  enter now
  processAll now handles
  match failure with
  | some status => poison status
  | none => poisoning (flushCurrent now)

/-- What fails in the command poisons the writer, wrong arguments apart. -/
def poisoningUnlessInvalid (m : TopicProc Unit) : TopicProc Unit := fun w =>
  match m w with
  | (.ok a, w') => (.ok a, w')
  | (.error status, w') =>
    if status.code = .invalidArgument then (.error status, w') else poison status w'

def flush (level : RecordAckLevel) (now : Nat) : TopicProc Unit := do
  enter now
  poisoningUnlessInvalid (match level with
    | .written => flushCurrent now
    | .durable => sealCurrent now)

/-- The part of `Stop` of a writer that runs. -/
def stopRunning (handles : List RecorderBufferHandle) (failure : Option Status) :
    TopicProc Unit := do
  enter now
  modify fun w => { w with state := .stopping }
  processAll now handles
  match failure with
  | some status => poison status
  | none => do
    poisoning (sealCurrent now)
    modify fun w => { w with state := .stopped }

def stop (handles : List RecorderBufferHandle) (failure : Option Status) :
    TopicProc Unit := do
  let w ← get
  match w.state with
  | .error => fail w.errorStatus
  | .stopped => pure ()
  | .created => modify fun w => { w with state := .stopped }
  | .stopping => fail (invalid "TopicWriter stop is already in progress")
  | .running => stopRunning now handles failure

/-- The checks of `ReportDiscardLocked`. -/
def checkDiscard (discarded : DiscardedBuffer) : Result RecorderRecordMetadata := do
  Result.rejectIf (w.state = .error) w.errorStatus
  Result.rejectIf (w.state = .stopped)
    (invalid "cannot report a discard to a stopped TopicWriter")
  Result.rejectIf (discarded.topicId ≠ w.options.topicId)
    (invalid "discarded buffer belongs to another topic")
  match discarded.metadata with
  | none => .error (invalid "discarded buffer has no recorder metadata")
  | some metadata => do
    Result.rejectIf (metadata.topicId ≠ w.options.topicId)
      (invalid "discarded metadata belongs to another topic")
    .ok metadata

def reportDiscard (discarded : DiscardedBuffer) : TopicProc Unit := do
  let w ← get
  let metadata ← ofExcept (checkDiscard w discarded)
  let progress := w.sources metadata.source.key
  if progress.lastSequence.elim false (metadata.source.sourceSequence ≤ ·) then pure ()
  else modify fun w => { w with
    sources := Function.update w.sources metadata.source.key
      (progress.discard metadata.source.sourceSequence (gapReasonFor discarded.reason)) }

inductive Call where
  | start (now : Nat)
  | pump (now : Nat) (handles : List RecorderBufferHandle) (failure : Option Status)
  | flush (level : RecordAckLevel) (now : Nat)
  | stop (now : Nat) (handles : List RecorderBufferHandle) (failure : Option Status)
  | reportDiscard (discarded : DiscardedBuffer)

def Call.proc : Call → TopicProc Unit
  | .start now => TopicWriter.start now
  | .pump now handles failure => TopicWriter.pump now handles failure
  | .flush level now => TopicWriter.flush level now
  | .stop now handles failure => TopicWriter.stop now handles failure
  | .reportDiscard discarded => TopicWriter.reportDiscard discarded

/-- The calls one after the other, whatever they answer. -/
def run (calls : List Call) : TopicWriter :=
  calls.foldl (fun w call => (call.proc w).2) w

/-- `Create` for a partition with this manifest. The answers are those of all system calls of the
run, and the files of the partition are not yet touched. -/
def create (initialSequence : UInt64) (manifest : PartitionManifest) (answers : List IoAnswer)
    (files : Nat → Bytes) : Result TopicWriter := do
  Result.rejectIf (options.recordingId = 0 ∨ options.topicId = 0 ∨ options.writerId = 0)
    (invalid "TopicWriter identity is incomplete")
  let last := manifest.segments.getLast?
  Result.rejectIf ((last.elim false fun entry => entry.state.isActive) = true)
    (.error .unavailable "partition already has an active segment")
  Result.rejectIf ((last.elim false fun entry =>
      entry.lastIngestionSequence.toNat = uint64Max ∨ entry.segmentId = uint64Max) = true)
    (.error .resourceExhausted "partition sequence or segment ID is exhausted")
  let derived := last.elim 1 fun entry => entry.lastIngestionSequence + 1
  Result.rejectIf (initialSequence ≠ 0 ∧ initialSequence < derived)
    (invalid "initial ingestion sequence overlaps manifest")
  .ok {
    options := options
    state := .created
    errorStatus := .success
    nextIngestionSequence := if initialSequence ≠ 0 then initialSequence else derived
    sequenceExhausted := false
    nextSegmentId := last.elim 1 fun entry => entry.segmentId + 1
    duplicateCount := 0
    lastNowNs := 0
    sources := fun _ => ⟨none, []⟩
    active := none
    manifest := manifest
    answers := answers
    files := files
    recordsOf := fun _ => []
    appended := []
    issued := [] }

end TopicWriter

end Mino.Storage
