import Mino.Storage.RecordCodec

/-! # The scan over whole records

Where a record of the segment stands in the file the scan takes it and goes on behind it. -/

namespace Mino.Storage

open List ByteString LittleEndian

variable {limits : SegmentFormatLimits} {options : SegmentRecoveryOptions} {record : Record}
  {header : SegmentHeader}

/-- The envelopes of the records, one behind the other. -/
def envelopes (records : List Record) : Bytes := (records.map recordEnvelope).flatten

def segmentBytes (header : SegmentHeader) (records : List Record) : Bytes :=
  segmentHeaderBytes header ++ envelopes records

@[simp] theorem envelopes_nil : envelopes [] = [] := rfl

@[simp] theorem envelopes_cons (record : Record) (records : List Record) :
    envelopes (record :: records) = recordEnvelope record ++ envelopes records := rfl

theorem envelopes_append (front rest : List Record) :
    envelopes (front ++ rest) = envelopes front ++ envelopes rest := by
  simp [envelopes]

/-- The ingestion sequences go up by one from `next` on. -/
def Contiguous : Nat → List Record → Prop
  | _, [] => True
  | next, record :: rest =>
    record.header.ingestionSequence.toNat = next ∧ Contiguous (next + 1) rest

variable {next : Nat} {previous : Option UInt64} {records : List Record}

theorem contiguous_append {front rest} :
    Contiguous next (front ++ rest) ↔ Contiguous next front ∧ Contiguous (next + front.length) rest := by
  induction front generalizing next with
  | nil => exact (iff_of_eq (true_and _)).symm
  | cons record front ih =>
    rw [cons_append, Contiguous, Contiguous, ih, and_assoc, length_cons, Nat.add_assoc,
      Nat.add_comm 1]

theorem contiguous_getElem? {i} (h : Contiguous next records)
    (hi : records[i]? = some record) : record.header.ingestionSequence.toNat = next + i := by
  induction records generalizing next i with
  | nil => cases hi
  | cons head rest ih =>
    cases i with
    | zero =>
      obtain rfl := Option.some.inj hi
      exact h.1
    | succ i =>
      rw [getElem?_cons_succ] at hi
      have := ih h.2 hi
      omega

/-- The record is one of the topic and partition of the segment, of a schema that is known. -/
structure InSegment (options : SegmentRecoveryOptions) (header : SegmentHeader) (record : Record) :
    Prop where
  topic : record.header.topicId = header.topicId
  partition : record.header.partitionId = header.partitionId
  schema : (record.header.flags &&& kRecordFlagGap ≠ 0 ∧ record.header.schemaRef = 0) ∨
    options.schemaRefKnown record.header.schemaRef = true

/-- The record is one that the segment can hold. -/
structure Belongs (options : SegmentRecoveryOptions) (header : SegmentHeader) (record : Record) :
    Prop extends InSegment options header record where
  encodable : Encodable options.formatLimits record

/-- The sequence that the scan expects next. -/
def Expects (header : SegmentHeader) (offset : Nat) (previous : Option UInt64) (next : Nat) : Prop :=
  match previous with
  | none => offset = kEncodedSegmentHeaderSize ∧ next = header.firstIngestionSequence.toNat
  | some last => next = last.toNat + 1

/-- The metadata of a record that stands at an offset. -/
def recordMetadata (offset : Nat) (record : Record) : SegmentRecordOffset :=
  envelopeMetadata offset (recordEnvelope record)

theorem recordEndOffset_recordMetadata (offset : Nat) (record : Record) :
    (recordMetadata offset record).recordEndOffset = offset + (recordEnvelope record).length := rfl

theorem envelopeHeader_recordEnvelope (h : Encodable limits record) :
    envelopeHeader (recordEnvelope record) = record.header := by
  rw [envelopeHeader, slice_header]
  exact readRecordHeader_of_reads (readsHeader_encode h.word)

theorem ingestionSequence_recordMetadata (h : Encodable limits record) (offset : Nat) :
    (recordMetadata offset record).ingestionSequence = record.header.ingestionSequence := by
  rw [recordMetadata, envelopeMetadata, envelopeHeader_recordEnvelope h]

/-- What stands at the front of the rest of a file is judged by its envelope. -/
theorem validateRecord_append (h : Encodable options.formatLimits record) (front rest : Bytes)
    (context : Option RecordContext) :
    validateRecord options (front ++ (recordEnvelope record ++ rest)) front.length context =
      validateEnvelope options context front.length (recordEnvelope record) := by
  have hsize := canonicalSize_eq record.payload.length
  have hpad := paddingSize_lt record.payload.length
  have hword := h.word
  have hread : read (front ++ (recordEnvelope record ++ rest)) front.length 8 =
      canonicalSize record.payload.length - 8 := by
    rw [read_append le_rfl, Nat.sub_self]
    exact read_leading h.word rest
  have hslice : slice (front ++ (recordEnvelope record ++ rest)) front.length
      (canonicalSize record.payload.length - 8 + kRecordLengthFieldSize) = recordEnvelope record := by
    rw [slice_append le_rfl, Nat.sub_self]
    refine slice_left ?_ rest
    rw [length_recordEnvelope]
    unfold kRecordLengthFieldSize
    omega
  unfold validateRecord
  simp only [hread, hslice]
  rw [failIf_of_not, failIf_of_not, failIf_of_not]
  · rfl
  · rw [length_append, length_append, length_recordEnvelope]
    unfold kRecordLengthFieldSize
    omega
  · unfold kRecordLengthFieldSize uint64Max
    omega
  · rw [length_append, length_append, length_recordEnvelope]
    unfold kRecordLengthFieldSize
    omega

theorem follows_of_expects {offset} (hexpects : Expects header offset previous next)
    (hnext : record.header.ingestionSequence.toNat = next) :
    sequenceDoesNotFollow previous record.header.ingestionSequence = false ∧
      (previous = none → record.header.ingestionSequence = header.firstIngestionSequence) := by
  cases previous with
  | none => exact ⟨rfl, fun _ => UInt64.toNat_inj.mp (hnext.trans hexpects.2)⟩
  | some last =>
    have hnext : record.header.ingestionSequence.toNat = last.toNat + 1 := hnext.trans hexpects
    have hlt := record.header.ingestionSequence.toNat_lt
    have hlast : last.toNat ≠ uint64Max := by
      unfold uint64Max
      omega
    have heq : record.header.ingestionSequence = last + 1 := by
      apply UInt64.toNat_inj.mp
      rw [hnext, UInt64.toNat_add, UInt64.toNat_one, Nat.mod_eq_of_lt (by omega)]
    refine ⟨?_, nofun⟩
    simp [sequenceDoesNotFollow, heq, hlast]

section

variable (h : Belongs options header record)
  (hfollows : sequenceDoesNotFollow previous record.header.ingestionSequence = false)
  {requireFirst : Bool} (hfirst : requireFirst = true → record.header.ingestionSequence =
  header.firstIngestionSequence) (metadataOffset : Nat)
include h hfollows hfirst

theorem validateContext_of_belongs : validateContext options ⟨header, previous,
    requireFirst⟩ record.header (recordMetadata metadataOffset record) = .ok () := by
  have hheader := envelopeHeader_recordEnvelope h.encodable
  have hflags : (recordMetadata metadataOffset record).flags = record.header.flags := by
    rw [recordMetadata, envelopeMetadata, hheader]
  have hschema : (recordMetadata metadataOffset record).schemaRef = record.header.schemaRef := by
    rw [recordMetadata, envelopeMetadata, hheader]
  unfold validateContext
  rw [failIf_of_not, failIf_of_not]
  · refine failIf_of_not ?_
    rintro ⟨hgap, hunknown⟩
    rw [hschema] at hunknown
    rw [isSchemaLessGap, hflags, hschema] at hgap
    rcases h.schema with hless | hknown
    · exact (decide_eq_false_iff_not.mp hgap) hless
    · rw [hknown] at hunknown
      cases hunknown
  · rintro (⟨hrequire, hne⟩ | hnot)
    · exact hne (hfirst hrequire)
    · rw [hfollows] at hnot
      cases hnot
  · rintro (htopic | hpartition)
    · exact htopic h.topic
    · exact hpartition h.partition

theorem validateEnvelope_of_belongs :
    validateEnvelope options (some ⟨header, previous, requireFirst⟩) metadataOffset
      (recordEnvelope record) = .ok (recordMetadata metadataOffset record) := by
  have hcontext := validateContext_of_belongs h hfollows hfirst metadataOffset
  rw [recordMetadata] at hcontext
  unfold validateEnvelope
  rw [checkEnvelope_recordEnvelope h.encodable, envelopeHeader_recordEnvelope h.encodable]
  simp only [bind, Except.bind, hcontext]
  rfl

end

/-- One turn of the scan that takes a record. -/
theorem scanRecords_ok {file offset metadata report} (hlt : offset < file.length)
    (h : validateRecord options file offset (some ⟨header, previous,
      previous.isNone && offset == kEncodedSegmentHeaderSize⟩) = .ok metadata) :
    scanRecords options file header offset previous report = scanRecords options file header
      metadata.recordEndOffset (some metadata.ingestionSequence) (report.push metadata) := by
  rw [scanRecords, if_pos hlt]
  dsimp only
  split
  · rename_i hfail
    rw [h] at hfail
    cases hfail
  · rename_i hok
    rw [h] at hok
    cases hok
    rfl

/-- One turn of the scan over a record of the segment. -/
theorem scanRecords_append (h : Belongs options header record) (front rest : Bytes)
    (report : SegmentRecoveryReport) (hexpects : Expects header front.length previous next)
    (hnext : record.header.ingestionSequence.toNat = next) :
    scanRecords options (front ++ (recordEnvelope record ++ rest)) header front.length previous
      report = scanRecords options (front ++ (recordEnvelope record ++ rest)) header
      (front.length + (recordEnvelope record).length) (some record.header.ingestionSequence)
      (report.push (recordMetadata front.length record)) := by
  have hpos := le_canonicalSize record.payload.length
  obtain ⟨hfollows, hsame⟩ := follows_of_expects hexpects hnext
  have hcheck : validateRecord options (front ++ (recordEnvelope record ++ rest)) front.length
      (some ⟨header, previous, previous.isNone && front.length == kEncodedSegmentHeaderSize⟩) =
        .ok (recordMetadata front.length record) := by
    rw [validateRecord_append h.encodable]
    exact validateEnvelope_of_belongs h hfollows (fun hfirst => hsame (by simp_all)) _
  rw [scanRecords_ok (by rw [length_append, length_append, length_recordEnvelope]; omega) hcheck,
    recordEndOffset_recordMetadata, ingestionSequence_recordMetadata h.encodable]

/-- The report after records that begin at an offset. -/
def pushAll : SegmentRecoveryReport → Nat → List Record → SegmentRecoveryReport
  | report, _, [] => report
  | report, offset, record :: rest =>
    pushAll (report.push (recordMetadata offset record)) (offset + (recordEnvelope record).length)
      rest

/-- The metadata of records that begin at an offset. -/
def metadataFrom : Nat → List Record → List SegmentRecordOffset
  | _, [] => []
  | offset, record :: rest =>
    recordMetadata offset record :: metadataFrom (offset + (recordEnvelope record).length) rest

def lastSequence : Option UInt64 → List Record → Option UInt64
  | previous, [] => previous
  | _, record :: rest => lastSequence (some record.header.ingestionSequence) rest

/-- The scan over all records of a piece of the file. -/
theorem scanRecords_envelopes (front rest : Bytes)
    (report : SegmentRecoveryReport) (hall : ∀ record ∈ records, Belongs options header record)
    (hexpects : Expects header front.length previous next) (hnext : Contiguous next records) :
    scanRecords options (front ++ (envelopes records ++ rest)) header front.length previous report =
    scanRecords options (front ++ (envelopes records ++ rest)) header
      (front.length + (envelopes records).length) (lastSequence previous records)
      (pushAll report front.length records) := by
  -- by induction on the records, the file split behind the first of them
  induction records generalizing front next previous report with
  | nil => rfl
  | cons record records ih =>
    have hfile : front ++ (envelopes (record :: records) ++ rest) =
        (front ++ recordEnvelope record) ++ (envelopes records ++ rest) := by
      rw [envelopes_cons, append_assoc, append_assoc]
    have hstep := scanRecords_append (hall record (mem_cons_self ..)) front
      (envelopes records ++ rest) report hexpects hnext.1
    have hrest := ih (front ++ recordEnvelope record)
      (report.push (recordMetadata front.length record)) (fun r hr => hall r (mem_cons_of_mem _ hr))
      (show Expects header _ (some record.header.ingestionSequence) (next + 1) from
        congrArg (· + 1) hnext.1.symm) hnext.2
    rw [length_append] at hrest
    rw [envelopes_cons, append_assoc] at hfile ⊢
    rw [hstep, hfile, hrest, length_append, ← Nat.add_assoc]
    rfl

structure ReportAfter (report after : SegmentRecoveryReport) (offset : Nat)
    (taken : List Record) : Prop where
  fileSize : after.fileSize = report.fileSize
  records : after.records = report.records ++ metadataFrom offset taken
  recordsScanned : after.recordsScanned = report.recordsScanned + taken.length
  lastCompleteSequence : after.lastCompleteSequence = lastSequence report.lastCompleteSequence taken
  lastCompleteOffset : report.lastCompleteOffset = offset →
    after.lastCompleteOffset = offset + (envelopes taken).length
  segmentHeader : after.segmentHeader = report.segmentHeader
  checkpointUsed : after.checkpointUsed = report.checkpointUsed
  checkpointFellBack : after.checkpointFellBack = report.checkpointFellBack

theorem reportAfter_pushAll (report : SegmentRecoveryReport)
    (offset : Nat) (records : List Record) (hall : ∀ record ∈ records, Encodable limits record) :
    ReportAfter report (pushAll report offset records) offset records := by
  induction records generalizing report offset with
  | nil => exact ⟨rfl, (append_nil _).symm, rfl, rfl, id, rfl, rfl, rfl⟩
  | cons record rest ih =>
    have hrest := ih (report.push (recordMetadata offset record))
      (offset + (recordEnvelope record).length) (fun r hr => hall r (mem_cons_of_mem _ hr))
    have hsequence := ingestionSequence_recordMetadata (hall record (mem_cons_self ..)) offset
    constructor
    · exact hrest.fileSize
    · rw [pushAll, hrest.records, metadataFrom, SegmentRecoveryReport.push, append_assoc]
      rfl
    · have hscanned : (pushAll report offset (record :: rest)).recordsScanned =
          report.recordsScanned + 1 + rest.length := hrest.recordsScanned
      rw [hscanned, length_cons]
      omega
    · rw [pushAll, hrest.lastCompleteSequence, lastSequence, ← hsequence]
      rfl
    · intro _
      rw [pushAll, hrest.lastCompleteOffset rfl, envelopes_cons, length_append, Nat.add_assoc]
    · exact hrest.segmentHeader
    · exact hrest.checkpointUsed
    · exact hrest.checkpointFellBack

theorem scanRecords_length (file : Bytes) (previous : Option UInt64)
    (report : SegmentRecoveryReport) :
    scanRecords options file header file.length previous report = report.finish := by
  rw [scanRecords, if_neg (Nat.lt_irrefl _)]

end Mino.Storage
