import Mino.Storage.RecordAgreement
import Mino.Lib.ListPieces

/-! # What a stop in the middle of an append leaves behind

The scan takes every whole record and stops at the torn one, which the repair cuts off, unless the
bytes of the torn record that reached the file hold a whole envelope at an aligned offset. -/

namespace Mino.Storage

open List ByteString LittleEndian SegmentRecoveryReport

variable {options : SegmentRecoveryOptions} {record : Record} {header : SegmentHeader}

/-- A whole envelope stands at an aligned offset in the bytes of a torn record. -/
def HoldsRecord (options : SegmentRecoveryOptions) (torn : Bytes) : Prop :=
  ∃ front record rest, torn = front ++ (recordEnvelope record ++ rest) ∧ front ≠ [] ∧
    kRecordAlignment ∣ front.length ∧ Encodable options.formatLimits record

/-! ### The search behind the damage -/

theorem exists_of_isValid {file offset}
    (h : isValid (validateRecord options file offset none) = true) :
    ∃ record, Encodable options.formatLimits record ∧
      slice file offset (read file offset 8 + 8) = recordEnvelope record ∧
      offset + (read file offset 8 + 8) ≤ file.length := by
  cases hcheck : validateRecord options file offset none with
  | error failure =>
    rw [hcheck] at h
    cases h
  | ok metadata =>
    obtain ⟨record, hrecord, hslice, hle, -⟩ := validateRecord_ok hcheck
    exact ⟨record, hrecord, hslice, hle⟩

/-- The search finds the envelopes that stand at aligned offsets behind the damage. -/
theorem hasLaterCommittedRecord_iff (options : SegmentRecoveryOptions) (front torn : Bytes)
    (hsize : front.length ≤ uint64Max - kRecordAlignment) :
    hasLaterCommittedRecord options (front ++ torn) front.length = true ↔
      HoldsRecord options torn := by
  have hsorted : ((range (front ++ torn).length).map
      fun i => front.length + kRecordAlignment * (i + 1)).Pairwise (· < ·) := by
    refine pairwise_map.mpr (pairwise_lt_range.imp fun hlt => ?_)
    unfold kRecordAlignment
    omega
  rw [hasLaterCommittedRecord, any_eq_true, laterCandidates]
  constructor
  · rintro ⟨candidate, hcandidate, hvalid⟩
    split at hcandidate
    · cases hcandidate
    obtain ⟨i, -, rfl⟩ := mem_map.mp (takeWhile_subset _ hcandidate)
    obtain ⟨record, hrecord, hslice, -⟩ := exists_of_isValid hvalid
    rw [slice_append_add] at hslice
    obtain ⟨hfront, htorn⟩ := append_of_slice hslice
    refine ⟨_, record, _, htorn, ?_, ?_, hrecord⟩
    · rw [← length_pos_iff, hfront]
      exact Nat.mul_pos (by decide) (Nat.succ_pos i)
    · rw [hfront]
      exact Nat.dvd_mul_right ..
  · rintro ⟨inner, record, rest, rfl, hinner, ⟨i, hi⟩, hrecord⟩
    have hpos := length_pos_of_ne_nil hinner
    have hle := le_canonicalSize record.payload.length
    have hlength : (front ++ (inner ++ (recordEnvelope record ++ rest))).length =
        front.length + (inner.length + (canonicalSize record.payload.length + rest.length)) := by
      simp only [length_append, length_recordEnvelope]
    unfold kMinimumEncodedRecordSize kRecordAlignment at *
    refine ⟨(front ++ inner).length, ?_, ?_⟩
    · rw [if_neg (by omega), hsorted.mem_takeWhile]
      refine ⟨mem_map.mpr ⟨i - 1, mem_range.mpr (by omega), ?_⟩, fun j _ hj => ?_⟩
      · rw [length_append]
        omega
      · rw [length_append] at hj
        rw [decide_eq_true_eq]
        omega
    · have happend : validateRecord options (front ++ inner ++ (recordEnvelope record ++ rest)) _
          none = _ := validateRecord_append hrecord (front ++ inner) rest none
      rw [append_assoc] at happend
      rw [happend, validateEnvelope, checkEnvelope_recordEnvelope hrecord]
      rfl

/-! ### The torn record -/

variable {tail rest : Bytes} {records : List Record}

/-- A torn record is not taken, and its commit marker is not there. -/
theorem validateRecord_torn (options : SegmentRecoveryOptions) (front : Bytes)
    (h : record.payload.length < 256 ^ 4) (hpart : recordEnvelope record = tail ++ rest)
    (hrest : rest ≠ []) (context : Option RecordContext) :
    ∃ reason detail, validateRecord options (front ++ tail) front.length context =
      .error ⟨false, reason, detail⟩ := by
  have hsize := canonicalSize_lt h
  have hlen : tail.length + rest.length = canonicalSize record.payload.length := by
    rw [← length_append, ← hpart, length_recordEnvelope]
  have hpos := length_pos_of_ne_nil hrest
  unfold validateRecord failIf kRecordLengthFieldSize
  rw [length_append]
  by_cases hlead : tail.length < 8
  · rw [if_pos (by omega)]
    exact ⟨_, _, rfl⟩
  have hread : read (front ++ tail) front.length 8 = canonicalSize record.payload.length - 8 := by
    have hfull := read_leading h []
    rw [append_nil, hpart, read_append_of_le (by omega)] at hfull
    rw [read_append le_rfl, Nat.sub_self, hfull]
  have hover : ¬ canonicalSize record.payload.length - 8 > uint64Max - 8 := by
    have := canonicalSize_eq record.payload.length
    have := paddingSize_lt record.payload.length
    unfold uint64Max
    omega
  rw [if_neg (by omega)]
  simp only [hread, if_neg hover]
  rw [if_pos (by omega)]
  exact ⟨_, _, rfl⟩

theorem scanRecords_error {file offset previous failure} (hlt : offset < file.length)
    (h : validateRecord options file offset (some ⟨header, previous,
      previous.isNone && offset == kEncodedSegmentHeaderSize⟩) = .error failure)
    (report : SegmentRecoveryReport) :
    scanRecords options file header offset previous report =
      let later := !failure.hasCompleteCommitMarker && hasLaterCommittedRecord options file offset
      report.setFinding offset failure (if later then
          failure.detail ++ "; a later fully committed record makes this interior corruption"
          else failure.detail)
        (failure.hasCompleteCommitMarker || later) := by
  rw [scanRecords, if_pos hlt]
  dsimp only
  split
  · rename_i failure' hfail
    rw [h] at hfail
    obtain rfl := Except.error.inj hfail
    rfl
  · rename_i metadata hok
    rw [h] at hok
    cases hok

/-- The scan reports a torn record as an incomplete tail, or as corruption if the search behind it
finds a record. -/
theorem scanRecords_torn (options : SegmentRecoveryOptions) (header : SegmentHeader) (front : Bytes)
    (h : record.payload.length < 256 ^ 4) (hpart : recordEnvelope record = tail ++ rest)
    (hrest : rest ≠ []) (htail : tail ≠ []) (previous : Option UInt64)
    (report : SegmentRecoveryReport) : ∃ (failure : RecordFailure) (detail : String),
      scanRecords options (front ++ tail) header front.length previous report =
        report.setFinding front.length failure detail
          (hasLaterCommittedRecord options (front ++ tail) front.length) := by
  have hpos := length_pos_of_ne_nil htail
  obtain ⟨reason, detail, hcheck⟩ := validateRecord_torn options front h hpart hrest
    (some ⟨header, previous, previous.isNone && front.length == kEncodedSegmentHeaderSize⟩)
  exact ⟨_, _, scanRecords_error (by rw [length_append]; omega) hcheck report⟩

/-! ### The repair -/

/-- The report when the header has been read. -/
def headerReport (header : SegmentHeader) (fileSize : Nat) : SegmentRecoveryReport :=
  { SegmentRecoveryReport.initial fileSize with segmentHeader := some header }

/-- The report that the scan begins with. -/
def startReport (options : SegmentRecoveryOptions) (file : Bytes) (header : SegmentHeader) :
    SegmentRecoveryReport :=
  match options.checkpoint with
  | none => headerReport header file.length
  | some checkpoint =>
    (applyCheckpoint options file header (headerReport header file.length) checkpoint).getD
      { headerReport header file.length with checkpointFellBack := true }

theorem scanFd_header (rest : Bytes) (hlimits : 144 ≤ options.formatLimits.maxEncodedRecordSize)
    (hflags : header.flags &&& ~~~kKnownSegmentFlags = 0) :
    scanFd options (segmentHeaderBytes header ++ rest) =
      .ok (scanRecords options (segmentHeaderBytes header ++ rest) header
        (startReport options (segmentHeaderBytes header ++ rest) header).scanStartOffset
        (startReport options (segmentHeaderBytes header ++ rest) header).lastCompleteSequence
        (startReport options (segmentHeaderBytes header ++ rest) header)) := by
  have hsize : encodedRecordSize 0 options.formatLimits = .ok 144 := by
    have hmin : ¬ options.formatLimits.maxEncodedRecordSize < 144 := Nat.not_lt.mpr hlimits
    have hzero : canonicalSize 0 = 144 := rfl
    simp [encodedRecordSize, validateLimits, Result.rejectIf, kMinimumEncodedRecordSize, hmin,
      hzero, bind, Except.bind]
  have htake : (segmentHeaderBytes header ++ rest).take kEncodedSegmentHeaderSize =
      segmentHeaderBytes header := take_left' (length_segmentHeaderBytes header)
  have hlong : ¬ (segmentHeaderBytes header ++ rest).length < kEncodedSegmentHeaderSize := by
    rw [length_append, length_segmentHeaderBytes]
    unfold kEncodedSegmentHeaderSize
    omega
  unfold scanFd
  rw [hsize]
  simp only [bind, Except.bind, if_neg hlong, htake, decodeSegmentHeader_bytes hflags]
  rfl

theorem scanFd_eq (hlimits : 144 ≤ options.formatLimits.maxEncodedRecordSize)
    (hcheckpoint : options.checkpoint = none) (hflags : header.flags &&& ~~~kKnownSegmentFlags = 0) :
    scanFd options (segmentHeaderBytes header ++ rest) =
      .ok (scanRecords options (segmentHeaderBytes header ++ rest) header (segmentHeaderBytes
        header).length none (headerReport header (segmentHeaderBytes header ++ rest).length)) := by
  rw [scanFd_header rest hlimits hflags, length_segmentHeaderBytes]
  simp only [startReport, hcheckpoint]
  rfl

theorem expects_first (header : SegmentHeader) :
    Expects header (segmentHeaderBytes header).length none header.firstIngestionSequence.toNat :=
  ⟨length_segmentHeaderBytes header, rfl⟩

theorem contiguous_take {next} (h : Contiguous next records) (m : Nat) :
    Contiguous next (records.take m) := by
  rw [← take_append_drop m records, contiguous_append] at h
  exact h.1

/-- The repair keeps exactly these records. -/
def Keeps (options : SegmentRecoveryOptions) (header : SegmentHeader) (file : Bytes)
    (records : List Record) : Prop :=
  ∃ report, repairSegment options file = .ok (report, segmentBytes header records) ∧
    report.records = metadataFrom kEncodedSegmentHeaderSize records ∧
    report.disposition ≠ .corruption

/-- Whole records and a part of one more: the whole ones are kept, unless the part holds a
record. -/
theorem repairSegment_whole (hlimits : 144 ≤ options.formatLimits.maxEncodedRecordSize)
    (hcheckpoint : options.checkpoint = none) (hflags : header.flags &&& ~~~kKnownSegmentFlags = 0)
    (hall : ∀ record ∈ records, Belongs options header record)
    (hnext : Contiguous header.firstIngestionSequence.toNat records)
    (hsize : (segmentBytes header records).length ≤ uint64Max - kRecordAlignment)
    (htail : tail = [] ∨ ∃ record, record.payload.length < 256 ^ 4 ∧
      ∃ rest, rest ≠ [] ∧ recordEnvelope record = tail ++ rest) :
    (¬ HoldsRecord options tail →
      Keeps options header (segmentBytes header records ++ tail) records) ∧
    (HoldsRecord options tail → ∃ message,
      repairSegment options (segmentBytes header records ++ tail) = .error (corruption message)) := by
  have hfile : segmentBytes header records ++ tail =
      segmentHeaderBytes header ++ (envelopes records ++ tail) := by
    rw [segmentBytes, append_assoc]
  have hlength : (segmentBytes header records).length =
      (segmentHeaderBytes header).length + (envelopes records).length := by
    rw [segmentBytes, length_append]
  have hscan := scanRecords_envelopes (segmentHeaderBytes header) tail (headerReport header
    (segmentBytes header records ++ tail).length) hall (expects_first header) hnext
  rw [← hfile, ← hlength] at hscan
  have hafter := reportAfter_pushAll
    (headerReport header (segmentBytes header records ++ tail).length)
    (segmentHeaderBytes header).length records fun record hr => (hall record hr).encodable
  have hrecords : (pushAll (headerReport header (segmentBytes header records ++ tail).length)
      (segmentHeaderBytes header).length records).records =
      metadataFrom kEncodedSegmentHeaderSize records := by
    rw [hafter.records, length_segmentHeaderBytes]
    rfl
  unfold Keeps repairSegment
  rw [hfile, scanFd_eq hlimits hcheckpoint hflags, ← hfile, hscan]
  simp only [bind, Except.bind]
  by_cases hempty : tail = []
  · -- nothing is torn: the scan ends at the end of the file
    subst hempty
    have hnone : ¬ HoldsRecord options [] := by
      rintro ⟨inner, record, rest, heq, hinner, -⟩
      exact hinner (append_eq_nil_iff.mp heq.symm).1
    rw [append_nil, scanRecords_length]
    rw [append_nil] at hrecords
    exact ⟨fun _ => ⟨_, rfl, hrecords, by simp [finish]⟩, fun h => absurd h hnone⟩
  obtain ⟨record, hword, rest, hrest, hpart⟩ := htail.resolve_left hempty
  obtain ⟨failure, detail, hfinding⟩ := scanRecords_torn options header
    (segmentBytes header records) hword hpart hrest hempty (lastSequence none records)
    (pushAll (headerReport header (segmentBytes header records ++ tail).length)
      (segmentHeaderBytes header).length records)
  have hlast := hafter.lastCompleteOffset (length_segmentHeaderBytes header).symm
  have hlater := hasLaterCommittedRecord_iff options (segmentBytes header records) tail hsize
  rw [hfinding, ← hlater]
  generalize pushAll _ _ _ = report at hlast hrecords ⊢
  cases hasLaterCommittedRecord options (segmentBytes header records ++ tail)
      (segmentBytes header records).length with
  | false =>
    refine ⟨fun _ => ⟨{ report.setFinding (segmentBytes header records).length failure detail false
      with repaired := true }, ?_, hrecords, by simp [setFinding]⟩, fun h => absurd h (by decide)⟩
    change Except.ok (_, take report.lastCompleteOffset _) = _
    rw [hlast, ← hlength, take_left]
  | true => exact ⟨fun h => absurd rfl h, fun _ => ⟨_, rfl⟩⟩

/-- A file that holds the first bytes of a segment is some whole records and a part of the next; it
is repaired to the whole ones, unless the part holds a record itself. -/
theorem repairSegment_torn (options : SegmentRecoveryOptions) (header : SegmentHeader)
    (records : List Record) (k : Nat)
    (hlimits : kMinimumEncodedRecordSize ≤ options.formatLimits.maxEncodedRecordSize)
    (hcheckpoint : options.checkpoint = none) (hheader : encodeSegmentHeader header =
    .ok (segmentHeaderBytes header)) (hencode : ∀ record ∈ records,
      encodeRecord record options.formatLimits = .ok (recordEnvelope record))
    (hsegment : ∀ record ∈ records, InSegment options header record)
    (hnext : Contiguous header.firstIngestionSequence.toNat records)
    (hk : kEncodedSegmentHeaderSize ≤ k) (hsize : k < 2 ^ 63) :
    ∃ m torn, m ≤ records.length ∧ (segmentBytes header records).take k =
        segmentBytes header (records.take m) ++ torn ∧
      (∀ j ≤ records.length, (segmentBytes header (records.take j)).length ≤ k → j ≤ m) ∧
      (Keeps options header ((segmentBytes header records).take k) (records.take m) ↔
        ¬ HoldsRecord options torn) := by
  have hall : ∀ record ∈ records, Belongs options header record := fun record hr =>
    ⟨hsegment record hr, (encodable_of_encodeRecord (hencode record hr)).1⟩
  have hk : 52 ≤ k := hk
  have hbytes : ∀ j, segmentBytes header (records.take j) =
      segmentHeaderBytes header ++ ((records.map recordEnvelope).take j).flatten := by
    intro j
    rw [segmentBytes, envelopes, map_take]
  obtain ⟨tail, htake, htail⟩ := take_flatten_eq (k - 52) (records.map recordEnvelope)
  generalize hm : List.wholePieces (k - 52) (records.map recordEnvelope) = m at htake
  have hmlen : m ≤ records.length := by
    have := wholePieces_le_length (k - 52) (records.map recordEnvelope)
    rwa [hm, length_map] at this
  have hfile : (segmentBytes header records).take k =
      segmentBytes header (records.take m) ++ tail := by
    rw [hbytes, segmentBytes, envelopes, take_append, length_segmentHeaderBytes,
      take_of_length_le (by rw [length_segmentHeaderBytes]; exact hk), htake, append_assoc]
  have hpart : tail = [] ∨ ∃ record, record.payload.length < 256 ^ 4 ∧
      ∃ rest, rest ≠ [] ∧ recordEnvelope record = tail ++ rest := by
    refine htail.imp_right ?_
    rintro ⟨piece, hpiece, rest, hrest, heq⟩
    obtain ⟨record, hr, rfl⟩ := mem_map.mp hpiece
    exact ⟨record, (hall record hr).encodable.word, rest, hrest, heq⟩
  have hwhole : (segmentBytes header (records.take m)).length ≤ k := by
    have hfit := length_take_wholePieces (k - 52) (records.map recordEnvelope)
    rw [hm] at hfit
    rw [hbytes, length_append, length_segmentHeaderBytes]
    omega
  obtain ⟨hkeeps, hfails⟩ := repairSegment_whole hlimits hcheckpoint
    (encodeSegmentHeader_ok hheader).1 (fun record hr => hall record (mem_of_mem_take hr))
    (contiguous_take hnext m) (by unfold uint64Max kRecordAlignment; omega) hpart
  refine ⟨m, tail, hmlen, hfile, fun j hj hle => ?_, ?_⟩
  · rw [hbytes, length_append, length_segmentHeaderBytes] at hle
    rw [← hm]
    exact le_wholePieces (by rwa [length_map]) (by omega)
  · rw [hfile]
    refine ⟨?_, hkeeps⟩
    rintro ⟨report, hrepair, -⟩ hholds
    obtain ⟨message, hfailed⟩ := hfails hholds
    rw [hfailed] at hrepair
    cases hrepair

/-! ### A payload that is itself an envelope -/

theorem inSegment_plainRecord (sequence : UInt64) (payload : Bytes) :
    InSegment plainOptions plainSegmentHeader (plainRecord sequence payload) := ⟨rfl, rfl, .inr rfl⟩

/-- The record whose payload is the envelope of a record. -/
def nestedRecord : Record := plainRecord 1 (recordEnvelope (plainRecord 0 []))

/-- A record without a payload, and the nested one. -/
def nestedRecords : List Record := [plainRecord 0 [], nestedRecord]

theorem nestedRecords_encode : ∀ record ∈ nestedRecords,
    encodeRecord record plainOptions.formatLimits = .ok (recordEnvelope record) := by
  rintro record (- | ⟨-, - | ⟨-, ⟨⟩⟩⟩)
  · exact encodeRecord_plainRecord 0 (by decide)
  · exact encodeRecord_plainRecord 1 (by rw [length_recordEnvelope]; decide)

theorem nestedRecords_inSegment : ∀ record ∈ nestedRecords,
    InSegment plainOptions plainSegmentHeader record := by
  rintro record (- | ⟨-, - | ⟨-, ⟨⟩⟩⟩) <;> exact inSegment_plainRecord _ _

theorem length_nestedRecord : (recordEnvelope nestedRecord).length = 288 := by
  rw [length_recordEnvelope, nestedRecord, plainRecord, length_recordEnvelope]
  rfl

theorem length_firstRecord : (segmentBytes plainSegmentHeader [plainRecord 0 []]).length = 196 := by
  rw [segmentBytes, envelopes_cons, envelopes_nil, append_nil, length_append,
    length_segmentHeaderBytes, length_recordEnvelope]
  rfl

theorem segmentBytes_nestedRecords : segmentBytes plainSegmentHeader nestedRecords =
    segmentBytes plainSegmentHeader [plainRecord 0 []] ++ recordEnvelope nestedRecord := by
  simp only [segmentBytes, nestedRecords, envelopes_cons, envelopes_nil, append_nil, append_assoc]

theorem length_nestedRecords : (segmentBytes plainSegmentHeader nestedRecords).length = 484 := by
  rw [segmentBytes_nestedRecords, length_append, length_firstRecord, length_nestedRecord]

/-- The stops inside the second record. -/
theorem take_nestedRecords (n : Nat) :
    (segmentBytes plainSegmentHeader nestedRecords).take (196 + n) =
      segmentBytes plainSegmentHeader [plainRecord 0 []] ++
        (recordEnvelope nestedRecord).take n := by
  rw [segmentBytes_nestedRecords, ← length_firstRecord, take_length_add_append]

/-- No record stands in the nested one without the last byte of its payload. -/
theorem not_holdsRecord_nested :
    ¬ HoldsRecord plainOptions ((recordEnvelope nestedRecord).take 255) := by
  -- an envelope begins with its length, and no word of the framing is the length of one that fits
  have hwords : ∀ i < 14, 0 < i →
      read ((recordEnvelope nestedRecord).take 255) (8 * i) 8 < 136 ∨
      255 < 8 * i + read ((recordEnvelope nestedRecord).take 255) (8 * i) 8 := by
    decide +kernel
  rintro ⟨front, record, rest, htorn, hfront, ⟨i, hi⟩, hrecord⟩
  have hpos := length_pos_of_ne_nil hfront
  have hle := le_canonicalSize record.payload.length
  have hlength := congrArg length htorn
  rw [length_take, length_nestedRecord, length_append, length_append, length_recordEnvelope]
    at hlength
  unfold kRecordAlignment at hi
  have hword := hwords i (by omega) (by omega)
  rw [← hi, htorn, read_append le_rfl, Nat.sub_self, read_leading hrecord.word rest] at hword
  omega

/-- A stop one byte before the end of the inner envelope leaves the first record. -/
theorem repairSegment_torn_nested : Keeps plainOptions plainSegmentHeader
    ((segmentBytes plainSegmentHeader nestedRecords).take 451) [plainRecord 0 []] := by
  obtain ⟨m, torn, hm, htake, hmost, hkeeps⟩ := repairSegment_torn plainOptions plainSegmentHeader
    nestedRecords 451 (by decide) rfl encodeSegmentHeader_plain nestedRecords_encode
    nestedRecords_inSegment ⟨rfl, rfl, trivial⟩ (by decide) (by decide)
  have hone : 1 ≤ m := by
    refine hmost 1 (by decide) ?_
    rw [nestedRecords, take_succ_cons, take_zero, length_firstRecord]
    decide
  rw [take_nestedRecords 255] at htake
  obtain rfl : m = 1 := by
    refine Nat.le_antisymm (Nat.le_of_not_lt fun hlt => ?_) hone
    have hlength := congrArg length htake
    rw [(take_of_length_le hlt : nestedRecords.take m = nestedRecords), length_append, length_append,
      length_nestedRecords, length_firstRecord, length_take, length_nestedRecord] at hlength
    omega
  rw [← append_cancel_left htake] at hkeeps
  exact hkeeps.mpr not_holdsRecord_nested

/-- The stop behind the payload of the nested record is taken for corruption in the middle of the
file. -/
theorem repairSegment_nested :
    kMinimumEncodedRecordSize ≤ plainOptions.formatLimits.maxEncodedRecordSize ∧
    plainOptions.checkpoint = none ∧ encodeSegmentHeader plainSegmentHeader =
    .ok (segmentHeaderBytes plainSegmentHeader) ∧ (∀ record ∈ nestedRecords,
      encodeRecord record plainOptions.formatLimits = .ok (recordEnvelope record)) ∧
    (∀ record ∈ nestedRecords, InSegment plainOptions plainSegmentHeader record) ∧
    Contiguous plainSegmentHeader.firstIngestionSequence.toNat nestedRecords ∧
    ∃ message, repairSegment plainOptions
      ((segmentBytes plainSegmentHeader nestedRecords).take 452) = .error (corruption message) := by
  refine ⟨by decide, rfl, encodeSegmentHeader_plain, nestedRecords_encode, nestedRecords_inSegment,
    ⟨rfl, rfl, trivial⟩, ?_⟩
  have hencodable : ∀ record ∈ nestedRecords, Encodable plainOptions.formatLimits record :=
    fun record hr => (encodable_of_encodeRecord (nestedRecords_encode record hr)).1
  have hslice := slice_payload nestedRecord
  have hpayload : nestedRecord.payload = recordEnvelope (plainRecord 0 []) := rfl
  rw [hpayload, length_recordEnvelope] at hslice
  have htorn : (recordEnvelope nestedRecord).take 256 =
      (recordEnvelope nestedRecord).take 112 ++ (recordEnvelope (plainRecord 0 []) ++ []) := by
    rw [show (256 : Nat) = 112 + 144 from rfl, take_add, append_nil]
    exact congrArg _ hslice
  have hfront : ((recordEnvelope nestedRecord).take 112).length = 112 := by
    rw [length_take, length_nestedRecord]
    rfl
  have hholds : HoldsRecord plainOptions ((recordEnvelope nestedRecord).take 256) :=
    ⟨_, _, _, htorn, ne_nil_of_length_eq_add_one hfront, by rw [hfront]; decide,
      hencodable _ mem_cons_self⟩
  have hrest : (recordEnvelope nestedRecord).drop 256 ≠ [] := by
    intro h
    have := congrArg length h
    rw [length_drop, length_nestedRecord] at this
    cases this
  have hnext : Contiguous plainSegmentHeader.firstIngestionSequence.toNat [plainRecord 0 []] :=
    ⟨rfl, trivial⟩
  have hword := (hencodable nestedRecord (mem_cons_of_mem _ mem_cons_self)).word
  rw [take_nestedRecords 256]
  exact (repairSegment_whole (by decide) rfl (by decide) (forall_mem_singleton.mpr
    ⟨inSegment_plainRecord 0 [], hencodable _ mem_cons_self⟩) hnext
    (by rw [length_firstRecord]; decide) (.inr ⟨nestedRecord, hword, _, hrest,
      (take_append_drop 256 _).symm⟩)).2 hholds

end Mino.Storage
