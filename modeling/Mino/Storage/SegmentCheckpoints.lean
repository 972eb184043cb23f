import Mino.Storage.TornTail

/-! # Scans of whole segments

A segment file that holds whole records is clean, and so it is when the scan begins at a checkpoint
behind one of them. -/

namespace Mino.Storage

open List
open ByteString (slice)
open LittleEndian (read_append read_append_of_le)

variable {options : SegmentRecoveryOptions} {header : SegmentHeader} {records : List Record}
  {record : Record}

/-- The report on a file of records that follow each other. -/
def wholeReport (header : SegmentHeader) (records : List Record) : SegmentRecoveryReport :=
  (pushAll (headerReport header (segmentBytes header records).length)
    (segmentHeaderBytes header).length records).finish

section Whole

variable (hlimits : 144 ≤ options.formatLimits.maxEncodedRecordSize)
  (hcheckpoint : options.checkpoint = none) (hflags : header.flags &&& ~~~kKnownSegmentFlags = 0)
  (hall : ∀ record ∈ records, Belongs options header record)
  (hnext : Contiguous header.firstIngestionSequence.toNat records)

include hlimits hcheckpoint hflags hall hnext

theorem scanFd_whole :
    scanFd options (segmentBytes header records) = .ok (wholeReport header records) := by
  have hscan := scanRecords_envelopes (segmentHeaderBytes header) []
    (headerReport header (segmentBytes header records).length) hall (expects_first header) hnext
  rw [append_nil, ← segmentBytes, ← length_append, ← segmentBytes, scanRecords_length] at hscan
  exact (scanFd_eq hlimits hcheckpoint hflags).trans (congrArg _ hscan)

/-- A file of records that follow each other is clean. -/
theorem scanFd_segmentBytes : ∃ report, scanFd options (segmentBytes header records) = .ok report ∧
    report.disposition = .clean ∧
    report.records = metadataFrom kEncodedSegmentHeaderSize records := by
  have hafter := reportAfter_pushAll (headerReport header (segmentBytes header records).length)
    (segmentHeaderBytes header).length records fun record hr => (hall record hr).encodable
  refine ⟨_, scanFd_whole hlimits hcheckpoint hflags hall hnext, rfl, ?_⟩
  exact hafter.records.trans (by rw [length_segmentHeaderBytes]; rfl)

end Whole

/-! ### Checkpoints -/

theorem length_envelopes_mod (records : List Record) : (envelopes records).length % 8 = 0 := by
  induction records with
  | nil => rfl
  | cons record rest ih =>
    rw [envelopes_cons, length_append, length_recordEnvelope, Nat.add_mod, ih, canonicalSize_mod]

/-- The report behind a checkpoint that was taken. -/
def checkpointReport (report : SegmentRecoveryReport) (offset recordOffset : Nat)
    (sequence : UInt64) : SegmentRecoveryReport :=
  { report with
    checkpointUsed := true
    metadataIsComplete := false
    scanStartOffset := offset
    lastCompleteOffset := offset
    lastCompleteRecordOffset := recordOffset
    lastCompleteSequence := some sequence }

/-- The trailer of the record in front of the checkpoint gives its length. -/
theorem read_before_end (h : record.payload.length < 256 ^ 4)
    (front rest : Bytes) : LittleEndian.read (front ++ (recordEnvelope record ++ rest))
      (front.length + (recordEnvelope record).length - kRecordTrailerSize) 8 =
      canonicalSize record.payload.length - 8 := by
  have hle := le_canonicalSize record.payload.length
  have hoffset : front.length + (recordEnvelope record).length - kRecordTrailerSize - front.length =
      canonicalSize record.payload.length - kRecordTrailerSize + kTrailerRecordLengthOffset := by
    rw [length_recordEnvelope]
    unfold kRecordTrailerSize kTrailerRecordLengthOffset
    omega
  rw [read_append (by rw [length_recordEnvelope]; unfold kRecordTrailerSize; omega), hoffset,
    read_append_of_le ?_, read_trailer, (readsTrailer h).recordLength]
  rw [length_recordEnvelope]
  unfold kRecordTrailerSize kTrailerRecordLengthOffset
  omega

/-- A checkpoint behind a record of the segment is taken. -/
theorem applyCheckpoint_append {front rest}
    (h : Belongs options header record) (report : SegmentRecoveryReport) :
    applyCheckpoint options (segmentBytes header front ++ (recordEnvelope record ++ rest)) header
      report ⟨(segmentBytes header front).length + (recordEnvelope record).length,
        some record.header.ingestionSequence⟩ = some
      (checkpointReport report ((segmentBytes header front).length + (recordEnvelope record).length)
      (segmentBytes header front).length record.header.ingestionSequence) := by
  have hle := le_canonicalSize record.payload.length
  have hread := read_before_end h.encodable.word (segmentBytes header front) rest
  have hfront : (segmentBytes header front).length = 52 + (envelopes front).length := by
    rw [segmentBytes, length_append, length_segmentHeaderBytes]
  have hmod := length_envelopes_mod front
  have hword := h.encodable.word
  have hsize := canonicalSize_eq record.payload.length
  have hpad := paddingSize_lt record.payload.length
  have hvalid :
      validateRecord options (segmentBytes header front ++ (recordEnvelope record ++ rest))
      (segmentBytes header front).length (some ⟨header, none, false⟩) =
        .ok (recordMetadata (segmentBytes header front).length record) := by
    have hfollows : sequenceDoesNotFollow none record.header.ingestionSequence = false := rfl
    have hfirst : false = true →
        record.header.ingestionSequence = header.firstIngestionSequence :=
      fun h => absurd h Bool.false_ne_true
    rw [validateRecord_append h.encodable]
    exact validateEnvelope_of_belongs h hfollows hfirst _
  have hlength : (recordEnvelope record).length = canonicalSize record.payload.length :=
    length_recordEnvelope record
  have hback : (segmentBytes header front).length + (recordEnvelope record).length -
      (canonicalSize record.payload.length - 8 + kRecordLengthFieldSize) =
        (segmentBytes header front).length := by
    rw [hlength]
    unfold kRecordLengthFieldSize
    omega
  unfold applyCheckpoint
  dsimp only
  rw [if_neg, if_neg]
  · rw [hread, if_neg, if_neg, hback, if_neg, hvalid]
    · dsimp only
      rw [if_neg]
      · rfl
      · rw [recordEndOffset_recordMetadata, ingestionSequence_recordMetadata h.encodable]
        simp
    · rw [hfront]
      unfold kEncodedSegmentHeaderSize kRecordAlignment
      omega
    · rw [hlength, hfront]
      unfold kRecordLengthFieldSize kEncodedSegmentHeaderSize
      omega
    · unfold uint64Max kRecordLengthFieldSize
      omega
  · rw [length_append, length_append, hlength, hfront]
    unfold kEncodedSegmentHeaderSize kMinimumEncodedRecordSize
    omega
  · rw [hlength, hfront]
    unfold kEncodedSegmentHeaderSize
    omega

/-- A segment is clean behind a checkpoint at the end of one of its records, too. -/
theorem scanFd_checkpoint (hlimits : 144 ≤ options.formatLimits.maxEncodedRecordSize)
    (hflags : header.flags &&& ~~~kKnownSegmentFlags = 0) {front rest record} (hcheckpoint : options.checkpoint = some
      ⟨(segmentBytes header (front ++ [record])).length, some record.header.ingestionSequence⟩)
    (hall : ∀ r ∈ front ++ record :: rest, Belongs options header r)
    (hnext : Contiguous header.firstIngestionSequence.toNat (front ++ record :: rest)) :
    ∃ report, scanFd options (segmentBytes header (front ++ record :: rest)) = .ok report ∧
      report.disposition = .clean ∧ report.checkpointUsed = true ∧ report.checkpointFellBack =
      false ∧ report.records = metadataFrom (segmentBytes header (front ++ [record])).length rest :=
      by
  have hrecord := hall record (mem_append_right _ (mem_cons_self ..))
  have hrest : ∀ r ∈ rest, Belongs options header r :=
    fun r hr => hall r (mem_append_right _ (mem_cons_of_mem _ hr))
  obtain ⟨-, hsequence, hafter⟩ := contiguous_append.mp hnext
  have hlength : (segmentBytes header (front ++ [record])).length =
      (segmentBytes header front).length + (recordEnvelope record).length := by
    rw [segmentBytes, segmentBytes, envelopes_append, envelopes_cons, envelopes_nil, append_nil,
      ← append_assoc, length_append]
  have hfile : segmentBytes header (front ++ record :: rest) =
      segmentBytes header front ++ (recordEnvelope record ++ envelopes rest) := by
    rw [segmentBytes, segmentBytes, envelopes_append, envelopes_cons, append_assoc]
  have hsplit : segmentBytes header (front ++ record :: rest) =
      segmentBytes header (front ++ [record]) ++ (envelopes rest ++ []) := by
    rw [hfile, append_nil, segmentBytes, segmentBytes, envelopes_append, envelopes_cons,
      envelopes_nil, append_nil]
    simp only [append_assoc]
  generalize hsize : (segmentBytes header (front ++ record :: rest)).length = size
  have hstart : startReport options (segmentBytes header (front ++ record :: rest)) header =
      checkpointReport (headerReport header size) (segmentBytes header (front ++ [record])).length
        (segmentBytes header front).length record.header.ingestionSequence := by
    rw [startReport, hcheckpoint]
    dsimp only
    rw [hsize, hlength, hfile, applyCheckpoint_append hrecord]
    rfl
  -- behind the checkpoint the scan goes over the rest of the records
  have hexpects : Expects header (segmentBytes header (front ++ [record])).length
      (some record.header.ingestionSequence)
      (header.firstIngestionSequence.toNat + front.length + 1) :=
    congrArg (· + 1) hsequence.symm
  have hscan := scanRecords_envelopes (segmentBytes header (front ++ [record])) []
    (checkpointReport (headerReport header size) (segmentBytes header (front ++ [record])).length
      (segmentBytes header front).length record.header.ingestionSequence) hrest hexpects hafter
  have hend : (segmentBytes header (front ++ [record])).length + (envelopes rest).length =
      (segmentBytes header (front ++ record :: rest)).length := by
    rw [hsplit, append_nil, length_append]
  rw [← hsplit, hend, scanRecords_length] at hscan
  have hreport := reportAfter_pushAll
    (checkpointReport (headerReport header size) (segmentBytes header (front ++ [record])).length
    (segmentBytes header front).length record.header.ingestionSequence)
    (segmentBytes header (front ++ [record])).length rest fun r hr => (hrest r hr).encodable
  have hopen := scanFd_header (envelopes (front ++ record :: rest)) hlimits hflags
  rw [← segmentBytes, hstart] at hopen
  exact ⟨_, hopen.trans (congrArg _ hscan), rfl, hreport.checkpointUsed,
    hreport.checkpointFellBack, hreport.records⟩

end Mino.Storage
