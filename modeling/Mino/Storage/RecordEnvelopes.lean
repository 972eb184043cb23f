import Mino.Storage.SegmentScan

/-! # Envelopes are read as they were written

Every field of an envelope is read where the encoder wrote it, so that every check of the scan
passes on what the encoder makes. -/

namespace Mino.Storage

open List Result ByteString LittleEndian
open Wire (crc32c crc32cUpdate)

variable {limits : SegmentFormatLimits} {record : Record}

/-! ### Sizes -/

variable (header : SegmentHeader) (n : Nat) {bytes : Bytes}

theorem paddingSize_lt : paddingSize n < 8 := Nat.mod_lt _ (by decide)

theorem canonicalSize_eq : canonicalSize n = 140 + n + paddingSize n := by
  unfold canonicalSize kRecordLengthFieldSize kRecordHeaderLengthFieldSize
    kEncodedRecordHeaderSize kRecordTrailerSize
  omega

theorem canonicalSize_mod : canonicalSize n % 8 = 0 := by
  have hpad : paddingSize n = (8 - (140 + n) % 8) % 8 := by
    unfold paddingSize sizeWithoutPadding kRecordAlignment kRecordLengthFieldSize
      kRecordHeaderLengthFieldSize kEncodedRecordHeaderSize kRecordTrailerSize
    congr 2
    omega
  rw [canonicalSize_eq, hpad]
  omega

theorem le_canonicalSize : 144 ≤ canonicalSize n := by
  have hmod := canonicalSize_mod n
  have heq := canonicalSize_eq n
  omega

section

variable (record : Record)

@[simp] theorem length_recordHeaderFields : (recordHeaderFields record).length = 92 := by
  simp [recordHeaderFields]

@[simp] theorem length_encodeRecordHeader : (encodeRecordHeader record).length = 100 := by
  simp [encodeRecordHeader]

@[simp] theorem length_encodeRecordBody :
    (encodeRecordBody record).length = canonicalSize record.payload.length - 28 := by
  simp [encodeRecordBody, canonicalSize_eq]
  omega

@[simp] theorem length_encodeRecordTrailer : (encodeRecordTrailer record).length = 28 := by
  simp [encodeRecordTrailer]

@[simp] theorem length_recordEnvelope :
    (recordEnvelope record).length = canonicalSize record.payload.length := by
  have := le_canonicalSize record.payload.length
  simp [recordEnvelope]
  omega

end

/-! ### What is read of an envelope -/

/-- The records that `EncodeRecord` accepts. -/
structure Encodable (limits : SegmentFormatLimits) (record : Record) : Prop where
  flags : record.header.flags &&& ~~~kKnownRecordFlags = 0
  minimum : kMinimumEncodedRecordSize ≤ limits.maxEncodedRecordSize
  word : record.payload.length < 256 ^ 4
  payload : record.payload.length ≤ limits.maxPayloadSize
  envelope : canonicalSize record.payload.length ≤ limits.maxEncodedRecordSize

theorem Encodable.bounds (h : Encodable limits record) :
    ¬ canonicalSize record.payload.length < kMinimumEncodedRecordSize ∧
      ¬ canonicalSize record.payload.length > limits.maxEncodedRecordSize ∧
      ¬ record.payload.length > limits.maxPayloadSize :=
  ⟨Nat.not_lt.mpr (le_canonicalSize _), Nat.not_lt.mpr h.envelope, Nat.not_lt.mpr h.payload⟩

theorem encodable_of_encodeRecord (h : encodeRecord record limits = .ok bytes) :
    Encodable limits record ∧ bytes = recordEnvelope record := by
  obtain ⟨hflags, h⟩ := agreed h
  obtain ⟨n, hsize, h⟩ := bind_eq_ok h
  obtain ⟨_, hlimits, hsize⟩ := bind_eq_ok hsize
  obtain ⟨hword, hsize⟩ := passed hsize
  obtain ⟨hpayload, hsize⟩ := passed hsize
  obtain ⟨henvelope, -⟩ := passed hsize
  refine ⟨⟨hflags, Nat.le_of_not_lt (rejectIf_ok hlimits), ?_, Nat.le_of_not_lt hpayload,
    Nat.le_of_not_lt henvelope⟩, (Except.ok.inj h).symm⟩
  unfold uint32Max at hword
  omega

theorem encodeRecord_of_encodable (h : Encodable limits record) :
    encodeRecord record limits = .ok (recordEnvelope record) := by
  have hword : ¬ record.payload.length > uint32Max := by
    have := h.word
    unfold uint32Max
    omega
  simp [encodeRecord, encodedRecordSize, validateLimits, Result.rejectIf, h.flags, hword,
    Nat.not_lt.mpr h.minimum, h.bounds, bind, Except.bind]

/-- What is read of a record header in front of anything. -/
structure ReadsHeader (header : Bytes) (record : Record) : Prop where
  magic : read header kRecordMagicOffset 4 = kRecordHeaderMagic
  version : read header kRecordVersionOffset 2 = kRecordFormatVersion
  flags : read header kRecordFlagsOffset 2 = record.header.flags.toNat
  schemaRef : read header kRecordSchemaRefOffset 4 = record.header.schemaRef.toNat
  schemaVersion : read header kRecordSchemaVersionOffset 4 = record.header.schemaVersion.toNat
  layoutVersion : read header kRecordLayoutVersionOffset 4 = record.header.layoutVersion.toNat
  topicId : read header kRecordTopicIdOffset 4 = record.header.topicId.toNat
  partitionId : read header kRecordPartitionIdOffset 4 = record.header.partitionId.toNat
  ingestionSequence :
    read header kRecordIngestionSequenceOffset 8 = record.header.ingestionSequence.toNat
  ingestionTimestampNs :
    read header kRecordIngestionTimestampOffset 8 = record.header.ingestionTimestampNs.toNat
  nodeId : read header kRecordNodeIdOffset 8 = record.header.nodeId.toNat
  publisherId : read header kRecordPublisherIdOffset 8 = record.header.publisherId.toNat
  publisherEpoch : read header kRecordPublisherEpochOffset 8 = record.header.publisherEpoch.toNat
  sourceSequence : read header kRecordSourceSequenceOffset 8 = record.header.sourceSequence.toNat
  observedTimestampNs :
    read header kRecordObservedTimestampOffset 8 = record.header.observedTimestampNs.toNat
  payloadSize : read header kRecordPayloadSizeOffset 4 = record.payload.length
  payloadCrc : read header kRecordPayloadCrcOffset 4 = (crc32c record.payload).toNat

theorem readsHeader_fields (hword : record.payload.length < 256 ^ 4) (rest : Bytes) :
    ReadsHeader (recordHeaderFields record ++ rest) record := by
  have hmagic : kRecordHeaderMagic < 256 ^ 4 := by decide
  have hversion : kRecordFormatVersion < 256 ^ 2 := by decide
  constructor <;>
    simp [recordHeaderFields, append_assoc, read_append, read_encode, kRecordMagicOffset,
      kRecordVersionOffset, kRecordFlagsOffset, kRecordSchemaRefOffset, kRecordSchemaVersionOffset,
      kRecordLayoutVersionOffset, kRecordTopicIdOffset, kRecordPartitionIdOffset,
      kRecordIngestionSequenceOffset, kRecordIngestionTimestampOffset, kRecordNodeIdOffset,
      kRecordPublisherIdOffset, kRecordPublisherEpochOffset, kRecordSourceSequenceOffset,
      kRecordObservedTimestampOffset, kRecordPayloadSizeOffset, kRecordPayloadCrcOffset,
      toNat16_lt, toNat32_lt, toNat64_lt, hmagic, hversion, hword, -Nat.reducePow]

theorem readRecordHeader_of_reads {header} (h : ReadsHeader header record) :
    readRecordHeader header = record.header := by
  unfold readRecordHeader
  rw [h.flags, h.schemaRef, h.schemaVersion, h.layoutVersion, h.topicId, h.partitionId,
    h.ingestionSequence, h.ingestionTimestampNs, h.nodeId, h.publisherId, h.publisherEpoch,
    h.sourceSequence, h.observedTimestampNs]
  simp only [UInt16.ofNat_toNat, UInt32.ofNat_toNat, UInt64.ofNat_toNat]

theorem recordHeaderCrc_append {fields crcBytes rest} (hfields : fields.length = 92)
    (hcrc : crcBytes.length = 4) :
    recordHeaderCrc (fields ++ (crcBytes ++ rest)) = crc32c (fields ++ rest) := by
  have htake : (fields ++ (crcBytes ++ rest)).take kRecordHeaderCrcOffset = fields :=
    take_left' hfields
  have hdrop : (fields ++ (crcBytes ++ rest)).drop (kRecordHeaderCrcOffset + 4) = rest := by
    rw [← append_assoc]
    exact drop_left' (by rw [length_append, hfields, hcrc]; rfl)
  rw [recordHeaderCrc, htake, hdrop]

/-- The CRC and the reserved field behind the fields. -/
theorem read_encodeRecordHeader (record : Record) :
    read (encodeRecordHeader record) kRecordHeaderCrcOffset 4 =
        (recordHeaderCrc (encodeRecordHeader record)).toNat ∧
      read (encodeRecordHeader record) kRecordReservedOffset 4 = 0 := by
  have hlen := length_recordHeaderFields record
  constructor
  · unfold encodeRecordHeader
    rw [recordHeaderCrc_append hlen (length_encode 4 _),
      recordHeaderCrc_append hlen (length_encode 4 _), read_append (by rw [hlen]; decide), hlen]
    exact read_encode (toNat32_lt _) _
  · unfold encodeRecordHeader
    rw [read_append (by rw [hlen]; decide), read_append (by rw [length_encode, hlen]; decide), hlen,
      length_encode]
    exact read_encode_self (by decide)

/-- The envelope as the leading length, the header length, the header and what follows. -/
theorem recordEnvelope_eq (record : Record) : recordEnvelope record =
    encode 8 (canonicalSize record.payload.length - 8) ++ (encode 4 100 ++
      (encodeRecordHeader record ++ (record.payload ++
        (List.replicate (paddingSize record.payload.length) 0 ++ encodeRecordTrailer record)))) := by
  simp [recordEnvelope, encodeRecordBody, kRecordLengthFieldSize, kEncodedRecordHeaderSize]

theorem canonicalSize_lt (h : record.payload.length < 256 ^ 4) :
    canonicalSize record.payload.length - 8 < 256 ^ 8 := by
  have := canonicalSize_eq record.payload.length
  have := paddingSize_lt record.payload.length
  omega

theorem read_leading (h : record.payload.length < 256 ^ 4) (rest : Bytes) :
    read (recordEnvelope record ++ rest) 0 8 = canonicalSize record.payload.length - 8 := by
  rw [recordEnvelope_eq, append_assoc]
  exact read_encode (canonicalSize_lt h) _

section

variable (record : Record)

theorem read_headerLength : read (recordEnvelope record) 8 4 = 100 := by
  rw [recordEnvelope_eq, read_append (by rw [length_encode]), length_encode]
  exact read_encode (by decide) _

theorem slice_header : slice (recordEnvelope record) kRecordHeaderOffset kEncodedRecordHeaderSize =
    encodeRecordHeader record := by
  rw [recordEnvelope_eq, slice_append (by simp [kRecordHeaderOffset]),
    slice_append (by simp [kRecordHeaderOffset]), length_encode, length_encode]
  exact slice_left (length_encodeRecordHeader record) _

theorem slice_payload :
    slice (recordEnvelope record) payloadOffset record.payload.length = record.payload := by
  have hoffset : payloadOffset = 112 := rfl
  simp [recordEnvelope_eq, hoffset, slice_append, slice_left]

theorem slice_padding : slice (recordEnvelope record) (payloadOffset + record.payload.length)
    (canonicalSize record.payload.length - kRecordTrailerSize -
      (payloadOffset + record.payload.length)) =
    List.replicate (paddingSize record.payload.length) 0 := by
  have hoffset : payloadOffset = 112 := rfl
  have hsize := canonicalSize_eq record.payload.length
  have hcount : canonicalSize record.payload.length - kRecordTrailerSize -
      (payloadOffset + record.payload.length) = paddingSize record.payload.length := by
    rw [hsize, hoffset]
    unfold kRecordTrailerSize
    omega
  have hbegin : payloadOffset + record.payload.length - 8 - 4 - 100 = record.payload.length := by
    omega
  rw [hcount, recordEnvelope_eq, slice_append (by simp; omega), slice_append (by simp; omega),
    slice_append (by simp; omega), length_encode, length_encode, length_encodeRecordHeader, hbegin,
    slice_append le_rfl, Nat.sub_self]
  exact slice_left (length_replicate ..) _

theorem read_trailer (offset width : Nat) :
    read (recordEnvelope record) (canonicalSize record.payload.length - kRecordTrailerSize + offset)
      width = read (encodeRecordTrailer record) offset width := by
  have hlen : (encodeRecordBody record).length =
      canonicalSize record.payload.length - kRecordTrailerSize := length_encodeRecordBody record
  rw [recordEnvelope, read_append (by rw [hlen]; omega), hlen, Nat.add_sub_cancel_left]

end

structure ReadsTrailer (record : Record) : Prop where
  recordLength : read (encodeRecordTrailer record) kTrailerRecordLengthOffset 8 =
    canonicalSize record.payload.length - 8
  ingestionSequence : read (encodeRecordTrailer record) kTrailerIngestionSequenceOffset 8 =
    record.header.ingestionSequence.toNat
  recordCrc : read (encodeRecordTrailer record) kTrailerRecordCrcOffset 4 =
    (crc32c (encodeRecordBody record)).toNat
  commitMarker : read (encodeRecordTrailer record) kTrailerCommitMarkerOffset 8 =
    kRecordCommitMarker

theorem readsTrailer (h : record.payload.length < 256 ^ 4) : ReadsTrailer record := by
  have hsize := canonicalSize_lt h
  have hmarker : kRecordCommitMarker < 256 ^ 8 := by decide
  constructor <;>
    simp [encodeRecordTrailer, read_append, read_encode, read_encode_self, hsize, hmarker,
      kTrailerRecordLengthOffset, kTrailerIngestionSequenceOffset, kTrailerRecordCrcOffset,
      kTrailerCommitMarkerOffset, kRecordLengthFieldSize, toNat32_lt, toNat64_lt, -Nat.reducePow]

theorem take_body (record : Record) :
    (recordEnvelope record).take (canonicalSize record.payload.length - kRecordTrailerSize) =
      encodeRecordBody record :=
  take_left' (length_encodeRecordBody record)

theorem readsHeader_encode (hword : record.payload.length < 256 ^ 4) :
    ReadsHeader (encodeRecordHeader record) record := readsHeader_fields hword _

/-! ### The loop over the body -/

section

variable {envelope : Bytes} {relative size first last : Nat}

/-- The part of `[first, last)` that lies in a chunk, and the part behind the chunk. -/
theorem chunkPart_append (hin : relative + size ≤ envelope.length) :
    chunkPart (slice envelope relative size) relative first last ++
      slice envelope (max (relative + size) first) (last - max (relative + size) first) =
    slice envelope (max relative first) (last - max relative first) := by
  unfold chunkPart
  rw [length_slice hin]
  dsimp only
  split_ifs with hpart
  · rw [slice_slice (by omega), Nat.add_sub_cancel' (Nat.le_max_left ..)]
    by_cases hlast : last ≤ relative + size
    · rw [Nat.min_eq_right hlast, show last - max (relative + size) first = 0 by omega, slice_zero,
        append_nil]
    rw [slice_append_slice (by omega)]
    congr 1
    omega
  · -- the chunk ends in front of the part, or the part in front of the chunk
    rw [nil_append]
    by_cases hlast : last ≤ max relative first
    · rw [Nat.sub_eq_zero_of_le hlast, Nat.sub_eq_zero_of_le (by omega), slice_zero, slice_zero]
    · rw [show max (relative + size) first = max relative first by omega]

end

theorem crc32cUpdate_append (state : UInt32) (front rest : Bytes) :
    crc32cUpdate (crc32cUpdate state front) rest = crc32cUpdate state (front ++ rest) :=
  foldl_append.symm

/-- Where the chunks end does not matter. -/
theorem streamBody_eq {envelope payloadEnd recordCrcSize}
    (hpayload : payloadEnd ≤ recordCrcSize) (hin : recordCrcSize ≤ envelope.length)
    (relativeOffset : Nat) (sums : BodySums) :
    streamBody envelope payloadEnd recordCrcSize relativeOffset sums =
      { recordCrc := crc32cUpdate sums.recordCrc
          (slice envelope relativeOffset (recordCrcSize - relativeOffset))
        payloadCrc := crc32cUpdate sums.payloadCrc (slice envelope (max relativeOffset payloadOffset)
          (payloadEnd - max relativeOffset payloadOffset))
        paddingIsZero := sums.paddingIsZero && (slice envelope (max relativeOffset payloadEnd)
          (recordCrcSize - max relativeOffset payloadEnd)).all (· == 0) } := by
  fun_induction streamBody with
  | case1 relativeOffset sums hlt chunkSize chunk ih =>
    have hrest : chunkSize + (recordCrcSize - (relativeOffset + chunkSize)) =
        recordCrcSize - relativeOffset := by omega
    rw [ih, crc32cUpdate_append, crc32cUpdate_append, Bool.and_assoc, ← all_append,
      chunkPart_append (by omega), chunkPart_append (by omega), slice_append_slice rfl, hrest]
  | case2 relativeOffset sums hend =>
    rw [Nat.sub_eq_zero_of_le (by omega), Nat.sub_eq_zero_of_le (by omega),
      Nat.sub_eq_zero_of_le (by omega), slice_zero, slice_zero, slice_zero, all_nil,
      Bool.and_true]
    rfl

/-- What the checks behind the loop compare. -/
theorem bodySums_eq (envelope : Bytes) (payloadSize : Nat)
    (hpayload : payloadOffset + payloadSize ≤ envelope.length - kRecordTrailerSize) :
    bodySums envelope payloadSize =
    ⟨crc32cUpdate 0xffffffff (envelope.take (envelope.length - kRecordTrailerSize)),
      crc32cUpdate 0xffffffff (slice envelope payloadOffset payloadSize),
      (slice envelope (payloadOffset + payloadSize) (envelope.length - kRecordTrailerSize -
        (payloadOffset + payloadSize))).all (· == 0)⟩ := by
  rw [bodySums, streamBody_eq hpayload (Nat.sub_le ..), Nat.zero_max, Nat.zero_max,
    Nat.add_sub_cancel_left]
  rfl

/-! ### The segment header -/

/-- What `EncodeSegmentHeader` makes of a header. -/
def segmentHeaderBytes (header : SegmentHeader) : Bytes :=
  segmentHeaderFields header ++ encode 4 (crc32c (segmentHeaderFields header)).toNat

theorem encodeSegmentHeader_ok {header} (h : encodeSegmentHeader header = .ok bytes) :
    header.flags &&& ~~~kKnownSegmentFlags = 0 ∧ bytes = segmentHeaderBytes header := by
  obtain ⟨hflags, h⟩ := agreed h
  exact ⟨hflags, (Except.ok.inj h).symm⟩

@[simp] theorem length_segmentHeaderFields : (segmentHeaderFields header).length = 48 := by
  simp [segmentHeaderFields]

@[simp] theorem length_segmentHeaderBytes : (segmentHeaderBytes header).length = 52 := by
  simp [segmentHeaderBytes]

theorem decodeSegmentHeader_bytes {header} (hflags : header.flags &&& ~~~kKnownSegmentFlags = 0) :
    decodeSegmentHeader (segmentHeaderBytes header) = .ok header := by
  have hmagic : kSegmentHeaderMagic < 256 ^ 4 := by decide
  have hversion : kSegmentFormatVersion < 256 ^ 2 := by decide
  have htake : (segmentHeaderBytes header).take 48 = segmentHeaderFields header :=
    take_left' (length_segmentHeaderFields header)
  have hcrc : read (segmentHeaderBytes header) 48 4 =
      (crc32c (segmentHeaderFields header)).toNat := by
    rw [segmentHeaderBytes, read_append (by simp), length_segmentHeaderFields]
    exact read_encode_self (toNat32_lt _)
  have hread : ∀ offset width, offset + width ≤ 48 → read (segmentHeaderBytes header) offset width =
        read (segmentHeaderFields header) offset width := by
    intro offset width h
    rw [segmentHeaderBytes, read_append_of_le (by rw [length_segmentHeaderFields]; exact h)]
  unfold decodeSegmentHeader
  rw [htake, hcrc, hread 0 4 (by decide), hread 4 2 (by decide), hread 6 2 (by decide),
    hread 8 8 (by decide), hread 16 4 (by decide), hread 20 4 (by decide), hread 24 8 (by decide),
    hread 32 8 (by decide), hread 40 8 (by decide)]
  simp [segmentHeaderFields, read_append, read_encode, read_encode_self, hmagic, hversion,
    toNat16_lt, toNat32_lt, toNat64_lt, hflags, Result.rejectIf, kEncodedSegmentHeaderSize,
    bind, Except.bind, -Nat.reducePow]

end Mino.Storage
