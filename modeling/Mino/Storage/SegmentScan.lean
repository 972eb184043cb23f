import Mino.Storage.SegmentFormat

/-! # The scan and the repair of a segment file

The file is its bytes. `validateRecord` judges what stands at an offset, `scanFd` goes from record to
record, and `repairSegment` cuts off a tail that holds no committed record. -/

namespace Mino.Storage

open ByteString
open LittleEndian (read)
open Wire (crc32cUpdate crc32cFinish)

inductive SegmentRecoveryDisposition where
  | clean
  | incompleteTail
  | corruption
  deriving DecidableEq, Repr

inductive SegmentRecoveryReason where
  | none
  | incompleteSegmentHeader
  | segmentHeaderCorruption
  | incompleteLeadingLength
  | recordLengthOverflow
  | recordTooSmall
  | recordTooLarge
  | incompleteRecord
  | headerLengthMismatch
  | recordHeaderCorruption
  | headerCrcMismatch
  | payloadSizeMismatch
  | payloadCrcMismatch
  | paddingCorruption
  | trailingLengthMismatch
  | trailerSequenceMismatch
  | recordCrcMismatch
  | commitMarkerMismatch
  | topicPartitionMismatch
  | ingestionSequenceMismatch
  | unknownSchemaRef
  deriving DecidableEq, Repr

structure SegmentRecordOffset where
  recordOffset : Nat
  recordEndOffset : Nat
  encodedSize : Nat
  payloadOffset : Nat
  payloadSize : Nat
  flags : UInt16
  schemaRef : UInt32
  schemaVersion : UInt32
  layoutVersion : UInt32
  ingestionSequence : UInt64
  ingestionTimestampNs : UInt64
  sourceSequence : UInt64
  observedTimestampNs : UInt64
  deriving DecidableEq, Repr

structure SegmentRecoveryCheckpoint where
  offset : Nat
  ingestionSequence : Option UInt64
  deriving DecidableEq, Repr

structure SegmentRecoveryOptions where
  formatLimits : SegmentFormatLimits
  checkpoint : Option SegmentRecoveryCheckpoint
  /-- `SchemaRefKnown`. -/
  schemaRefKnown : UInt32 → Bool

/-- Why a record was not taken, and whether its commit marker is there. -/
structure RecordFailure where
  hasCompleteCommitMarker : Bool
  reason : SegmentRecoveryReason
  detail : String
  deriving DecidableEq, Repr

abbrev RecordCheck := Except RecordFailure SegmentRecordOffset

def failIf (bad : Prop) [Decidable bad] (marker : Bool) (reason : SegmentRecoveryReason)
    (detail : String) : Except RecordFailure Unit :=
  if bad then .error ⟨marker, reason, detail⟩ else .ok ()

/-- What a record is held against when it is judged as a part of the segment. -/
structure RecordContext where
  segmentHeader : SegmentHeader
  previousSequence : Option UInt64
  requireFirstSequence : Bool

def sequenceDoesNotFollow (previous : Option UInt64) (sequence : UInt64) : Bool :=
  match previous with
  | none => false
  | some last => last.toNat = uint64Max ∨ sequence ≠ last + 1

def isSchemaLessGap (metadata : SegmentRecordOffset) : Bool :=
  metadata.flags &&& kRecordFlagGap ≠ 0 ∧ metadata.schemaRef = 0

def validateContext (options : SegmentRecoveryOptions) (context : RecordContext)
    (header : RecordHeader) (metadata : SegmentRecordOffset) : Except RecordFailure Unit := do
  failIf (header.topicId ≠ context.segmentHeader.topicId ∨
      header.partitionId ≠ context.segmentHeader.partitionId)
    true .topicPartitionMismatch "record topic or partition does not match segment"
  failIf ((context.requireFirstSequence = true ∧
        header.ingestionSequence ≠ context.segmentHeader.firstIngestionSequence) ∨
      sequenceDoesNotFollow context.previousSequence header.ingestionSequence = true)
    true .ingestionSequenceMismatch "record ingestion_sequence is not contiguous"
  failIf (isSchemaLessGap metadata = false ∧ options.schemaRefKnown metadata.schemaRef = false)
    true .unknownSchemaRef "record references an unknown session schema_ref"

variable (envelope : Bytes) (report : SegmentRecoveryReport)

/-- The commit marker is in the last bytes of the envelope. -/
def hasCommitMarker : Bool :=
  read envelope (envelope.length - 8) 8 = kRecordCommitMarker

def kIoBufferSize : Nat := 64 * 1024

/-- The bytes of a chunk, read at `relativeOffset`, that belong to `[first, last)`. -/
def chunkPart (chunk : Bytes) (relativeOffset first last : Nat) : Bytes :=
  let partBegin := max relativeOffset first
  let partEnd := min (relativeOffset + chunk.length) last
  if partBegin < partEnd then slice chunk (partBegin - relativeOffset) (partEnd - partBegin) else []

/-- What the loop over the body of a record has computed. -/
structure BodySums where
  recordCrc : UInt32
  payloadCrc : UInt32
  paddingIsZero : Bool

/-- The loop of `ValidateRecord` over the body, a buffer at a time. -/
def streamBody (envelope : Bytes) (payloadEnd recordCrcSize relativeOffset : Nat)
    (sums : BodySums) : BodySums :=
  if relativeOffset < recordCrcSize then
    let chunkSize := min (recordCrcSize - relativeOffset) kIoBufferSize
    let chunk := slice envelope relativeOffset chunkSize
    streamBody envelope payloadEnd recordCrcSize (relativeOffset + chunkSize)
      { recordCrc := crc32cUpdate sums.recordCrc chunk
        payloadCrc := crc32cUpdate sums.payloadCrc
          (chunkPart chunk relativeOffset payloadOffset payloadEnd)
        paddingIsZero := sums.paddingIsZero &&
          (chunkPart chunk relativeOffset payloadEnd recordCrcSize).all (· == 0) }
  else sums
termination_by recordCrcSize - relativeOffset
decreasing_by
  unfold kIoBufferSize
  omega

def bodySums (payloadSize : Nat) : BodySums :=
  streamBody envelope (payloadOffset + payloadSize) (envelope.length - kRecordTrailerSize) 0
    ⟨0xffffffff, 0xffffffff, true⟩

/-- The checks of `ValidateRecord` on the envelope, the bytes that the leading length spans. -/
def checkEnvelope (limits : SegmentFormatLimits) (envelope : Bytes) : Except RecordFailure Unit := do
  let encodedSize := envelope.length
  let marker := hasCommitMarker envelope
  failIf (encodedSize < kMinimumEncodedRecordSize) (encodedSize ≥ 8 && marker) .recordTooSmall
    "record envelope is smaller than the v1 minimum"
  failIf (encodedSize > limits.maxEncodedRecordSize) marker .recordTooLarge
    "record envelope exceeds max_encoded_record_size"
  let header := slice envelope kRecordHeaderOffset kEncodedRecordHeaderSize
  let trailerOffset := encodedSize - kRecordTrailerSize
  failIf (read envelope 8 4 ≠ kEncodedRecordHeaderSize) marker .headerLengthMismatch
    "noncanonical record header_length"
  failIf (read header kRecordMagicOffset 4 ≠ kRecordHeaderMagic ∨
      read header kRecordVersionOffset 2 ≠ kRecordFormatVersion ∨
      (readRecordHeader header).flags &&& ~~~kKnownRecordFlags ≠ 0 ∨
      read header kRecordReservedOffset 4 ≠ 0)
    marker .recordHeaderCorruption
    "record header magic, version, flags, or reserved field is invalid"
  failIf (read header kRecordHeaderCrcOffset 4 ≠ (recordHeaderCrc header).toNat) marker
    .headerCrcMismatch "record header CRC32C mismatch"
  let payloadSize := read header kRecordPayloadSizeOffset 4
  failIf (payloadSize > limits.maxPayloadSize) marker .payloadSizeMismatch
    "payload_size exceeds max_payload_size"
  failIf (canonicalSize payloadSize ≠ encodedSize) marker .payloadSizeMismatch
    "payload_size does not match record_length"
  failIf (read envelope (trailerOffset + kTrailerRecordLengthOffset) 8 ≠ read envelope 0 8) marker
    .trailingLengthMismatch "leading and trailing record_length mismatch"
  failIf (read envelope (trailerOffset + kTrailerIngestionSequenceOffset) 8 ≠
      read header kRecordIngestionSequenceOffset 8)
    marker .trailerSequenceMismatch "trailer ingestion_sequence mismatch"
  failIf (marker = false) marker .commitMarkerMismatch "record commit marker mismatch"
  let sums := bodySums envelope payloadSize
  failIf (sums.paddingIsZero = false) marker .paddingCorruption
    "record alignment padding is non-zero"
  failIf (read header kRecordPayloadCrcOffset 4 ≠ (crc32cFinish sums.payloadCrc).toNat) marker
    .payloadCrcMismatch "record payload CRC32C mismatch"
  failIf (read envelope (trailerOffset + kTrailerRecordCrcOffset) 4 ≠
      (crc32cFinish sums.recordCrc).toNat)
    marker .recordCrcMismatch "record envelope CRC32C mismatch"

def envelopeHeader : RecordHeader :=
  readRecordHeader (slice envelope kRecordHeaderOffset kEncodedRecordHeaderSize)

/-- The metadata of an envelope that begins at `recordOffset` in the file. -/
def envelopeMetadata (recordOffset : Nat) (envelope : Bytes) : SegmentRecordOffset :=
  let header := envelopeHeader envelope
  { recordOffset := recordOffset
    recordEndOffset := recordOffset + envelope.length
    encodedSize := envelope.length
    payloadOffset := recordOffset + payloadOffset
    payloadSize :=
      read (slice envelope kRecordHeaderOffset kEncodedRecordHeaderSize) kRecordPayloadSizeOffset 4
    flags := header.flags
    schemaRef := header.schemaRef
    schemaVersion := header.schemaVersion
    layoutVersion := header.layoutVersion
    ingestionSequence := header.ingestionSequence
    ingestionTimestampNs := header.ingestionTimestampNs
    sourceSequence := header.sourceSequence
    observedTimestampNs := header.observedTimestampNs }

def validateEnvelope (options : SegmentRecoveryOptions) (context : Option RecordContext)
    (recordOffset : Nat) (envelope : Bytes) : RecordCheck := do
  checkEnvelope options.formatLimits envelope
  let metadata := envelopeMetadata recordOffset envelope
  match context with
  | none => .ok metadata
  | some context => do
    validateContext options context (envelopeHeader envelope) metadata
    .ok metadata

/-- `ValidateRecord`. Without a context only the record itself is judged. -/
def validateRecord (options : SegmentRecoveryOptions) (file : Bytes) (recordOffset : Nat)
    (context : Option RecordContext) : RecordCheck := do
  failIf (recordOffset > file.length ∨ file.length - recordOffset < kRecordLengthFieldSize) false
    .incompleteLeadingLength "record leading length is incomplete"
  let recordLength := read file recordOffset 8
  failIf (recordLength > uint64Max - kRecordLengthFieldSize) false .recordLengthOverflow
    "record_length overflows uint64"
  failIf (recordLength + kRecordLengthFieldSize > file.length - recordOffset) false
    .incompleteRecord "record envelope extends past EOF"
  validateEnvelope options context recordOffset
    (slice file recordOffset (recordLength + kRecordLengthFieldSize))

def isValid (check : RecordCheck) : Bool :=
  match check with
  | .ok _ => true
  | .error _ => false

/-- The aligned offsets behind the damage at which a whole record can still begin. -/
def laterCandidates (fileSize damageOffset : Nat) : List Nat :=
  if fileSize < kMinimumEncodedRecordSize ∨ damageOffset > uint64Max - kRecordAlignment then []
  else ((List.range fileSize).map fun i => damageOffset + kRecordAlignment * (i + 1)).takeWhile
    (· ≤ fileSize - kMinimumEncodedRecordSize)

def hasLaterCommittedRecord (options : SegmentRecoveryOptions) (file : Bytes)
    (damageOffset : Nat) : Bool :=
  (laterCandidates file.length damageOffset).any fun candidate =>
    isValid (validateRecord options file candidate none)

structure SegmentRecoveryReport where
  segmentHeader : Option SegmentHeader
  fileSize : Nat
  scanStartOffset : Nat
  checkpointUsed : Bool
  checkpointFellBack : Bool
  metadataIsComplete : Bool
  recordsScanned : Nat
  lastCompleteOffset : Nat
  lastCompleteRecordOffset : Nat
  lastCompleteSequence : Option UInt64
  disposition : SegmentRecoveryDisposition
  reason : SegmentRecoveryReason
  damageOffset : Nat
  truncatedBytes : Nat
  reasonDetail : String
  repaired : Bool
  records : List SegmentRecordOffset
  deriving DecidableEq, Repr

namespace SegmentRecoveryReport

/-- The report before anything is read. -/
def initial (fileSize : Nat) : SegmentRecoveryReport where
  segmentHeader := none
  fileSize := fileSize
  scanStartOffset := kEncodedSegmentHeaderSize
  checkpointUsed := false
  checkpointFellBack := false
  metadataIsComplete := true
  recordsScanned := 0
  lastCompleteOffset := kEncodedSegmentHeaderSize
  lastCompleteRecordOffset := 0
  lastCompleteSequence := none
  disposition := .clean
  reason := .none
  damageOffset := 0
  truncatedBytes := 0
  reasonDetail := ""
  repaired := false
  records := []

/-- The file has no header that can be read. -/
def withoutHeader (reason : SegmentRecoveryReason) (detail : String) : SegmentRecoveryReport :=
  { report with
    lastCompleteOffset := 0
    disposition := .corruption
    reason := reason
    damageOffset := 0
    reasonDetail := detail }

def setFinding (recordOffset : Nat) (failure : RecordFailure) (detail : String)
    (committedOrInterior : Bool) : SegmentRecoveryReport :=
  { report with
    reason := failure.reason
    reasonDetail := detail
    damageOffset := recordOffset
    disposition := if committedOrInterior then .corruption else .incompleteTail
    truncatedBytes :=
      if committedOrInterior then 0 else report.fileSize - report.lastCompleteOffset }

/-- A record has been taken. -/
def push (metadata : SegmentRecordOffset) : SegmentRecoveryReport :=
  { report with
    records := report.records ++ [metadata]
    recordsScanned := report.recordsScanned + 1
    lastCompleteRecordOffset := metadata.recordOffset
    lastCompleteOffset := metadata.recordEndOffset
    lastCompleteSequence := some metadata.ingestionSequence }

/-- The end of the file has been reached. -/
def finish : SegmentRecoveryReport :=
  { report with
    disposition := .clean
    reason := .none
    damageOffset := report.fileSize
    truncatedBytes := 0 }

end SegmentRecoveryReport

/-- `ApplyCheckpoint`: the report that begins behind the checkpoint, if the checkpoint is taken. -/
def applyCheckpoint (options : SegmentRecoveryOptions) (file : Bytes) (header : SegmentHeader)
    (report : SegmentRecoveryReport) (checkpoint : SegmentRecoveryCheckpoint) :
    Option SegmentRecoveryReport :=
  if checkpoint.offset = kEncodedSegmentHeaderSize then
    if checkpoint.ingestionSequence.isSome then none
    else some { report with checkpointUsed := true, metadataIsComplete := true }
  else
    match checkpoint.ingestionSequence with
    | none => none
    | some sequence =>
      if checkpoint.offset > file.length ∨
          checkpoint.offset < kEncodedSegmentHeaderSize + kMinimumEncodedRecordSize then none
      else
        let recordLength := read file (checkpoint.offset - kRecordTrailerSize) 8
        if recordLength > uint64Max - kRecordLengthFieldSize then none
        else
          let encodedSize := recordLength + kRecordLengthFieldSize
          if encodedSize > checkpoint.offset - kEncodedSegmentHeaderSize then none
          else
            let recordOffset := checkpoint.offset - encodedSize
            if (recordOffset - kEncodedSegmentHeaderSize) % kRecordAlignment ≠ 0 then none
            else
              match validateRecord options file recordOffset (some ⟨header, none, false⟩) with
              | .error _ => none
              | .ok metadata =>
                if metadata.recordEndOffset ≠ checkpoint.offset ∨
                    metadata.ingestionSequence ≠ sequence then none
                else some { report with
                  checkpointUsed := true
                  metadataIsComplete := false
                  scanStartOffset := checkpoint.offset
                  lastCompleteOffset := checkpoint.offset
                  lastCompleteRecordOffset := recordOffset
                  lastCompleteSequence := some sequence }

variable {marker : Bool} {reason : SegmentRecoveryReason} {detail : String}
  {options : SegmentRecoveryOptions} {context : Option RecordContext}
  {metadata : SegmentRecordOffset} {bad : Prop} {u : Unit}

theorem failIf_ok [Decidable bad] (h : failIf bad marker reason detail = .ok u) : ¬ bad := by
  intro hbad
  rw [failIf, if_pos hbad] at h
  cases h

theorem failIf_of_not [Decidable bad] (h : ¬ bad) :
    failIf bad marker reason detail = .ok () := if_neg h

theorem failIf_eq_ok [Decidable bad] : failIf bad marker reason detail = .ok u ↔ ¬ bad := by
  by_cases h : bad <;> simp [failIf, h]

theorem failIf_bind_ok [Decidable bad] {f} : failIf bad marker reason detail >>= f = .ok u ↔ ¬ bad ∧ f () = .ok u := by
  by_cases h : bad <;> simp [failIf, h, bind, Except.bind]

theorem check_bind_ok {α β : Type} {x} {f : α → Except RecordFailure β}
    {b} (h : x >>= f = .ok b) : ∃ a, x = .ok a ∧ f a = .ok b := by
  cases x with
  | error e => cases h
  | ok a => exact ⟨a, rfl, h⟩

/-- The metadata of a record that was taken. -/
theorem validateEnvelope_eq {envelope offset}
    (h : validateEnvelope options context offset envelope = .ok metadata) :
    metadata = envelopeMetadata offset envelope := by
  obtain ⟨_, -, h⟩ := check_bind_ok h
  cases context with
  | none => exact (Except.ok.inj h).symm
  | some context =>
    obtain ⟨_, -, h⟩ := check_bind_ok h
    exact (Except.ok.inj h).symm

/-- The record that was taken lies in the file and is not empty. -/
theorem validateRecord_end {file offset}
    (h : validateRecord options file offset context = .ok metadata) :
    offset < metadata.recordEndOffset ∧ metadata.recordEndOffset ≤ file.length := by
  obtain ⟨_, hlead, h⟩ := check_bind_ok h
  obtain ⟨_, -, h⟩ := check_bind_ok h
  obtain ⟨_, hin, h⟩ := check_bind_ok h
  have hlead := failIf_ok hlead
  have hin := failIf_ok hin
  have hlength : (slice file offset (read file offset 8 + kRecordLengthFieldSize)).length =
      read file offset 8 + kRecordLengthFieldSize := ByteString.length_slice (by omega)
  have hmeta : metadata = envelopeMetadata offset
      (slice file offset (read file offset 8 + kRecordLengthFieldSize)) := validateEnvelope_eq h
  have hend : metadata.recordEndOffset = offset + (read file offset 8 + kRecordLengthFieldSize) := by
    rw [hmeta, envelopeMetadata, hlength]
  rw [hend]
  unfold kRecordLengthFieldSize at *
  omega

/-- The loop of `ScanFd`. -/
def scanRecords (options : SegmentRecoveryOptions) (file : Bytes) (header : SegmentHeader)
    (offset : Nat) (previousSequence : Option UInt64) (report : SegmentRecoveryReport) :
    SegmentRecoveryReport :=
  if offset < file.length then
    let context : RecordContext := ⟨header, previousSequence,
      previousSequence.isNone && offset == kEncodedSegmentHeaderSize⟩
    match _h : validateRecord options file offset (some context) with
    | .error failure =>
      let later := !failure.hasCompleteCommitMarker && hasLaterCommittedRecord options file offset
      report.setFinding offset failure
        (if later then
          failure.detail ++ "; a later fully committed record makes this interior corruption"
          else failure.detail)
        (failure.hasCompleteCommitMarker || later)
    | .ok metadata =>
      scanRecords options file header metadata.recordEndOffset (some metadata.ingestionSequence)
        (report.push metadata)
  else report.finish
termination_by file.length - offset
decreasing_by
  have := validateRecord_end _h
  omega

def scanFd (options : SegmentRecoveryOptions) (file : Bytes) : Result SegmentRecoveryReport := do
  let _ ← encodedRecordSize 0 options.formatLimits
  let report := SegmentRecoveryReport.initial file.length
  if file.length < kEncodedSegmentHeaderSize then
    .ok (report.withoutHeader .incompleteSegmentHeader "segment header is truncated")
  else
    match decodeSegmentHeader (file.take kEncodedSegmentHeaderSize) with
    | .error status => .ok (report.withoutHeader .segmentHeaderCorruption ("8: " ++ status.message))
    | .ok header =>
      let report := { report with segmentHeader := some header }
      let report := match options.checkpoint with
        | none => report
        | some checkpoint => (applyCheckpoint options file header report checkpoint).getD
            { report with checkpointFellBack := true }
      .ok (scanRecords options file header report.scanStartOffset report.lastCompleteSequence report)

/-- `RepairSegment`: the report, and the file as it is left. -/
def repairSegment (options : SegmentRecoveryOptions) (file : Bytes) :
    Result (SegmentRecoveryReport × Bytes) := do
  let report ← scanFd options file
  match report.disposition with
  | .corruption => .error (corruption report.reasonDetail)
  | .clean => .ok (report, file)
  | .incompleteTail => .ok ({ report with repaired := true }, file.take report.lastCompleteOffset)

end Mino.Storage
