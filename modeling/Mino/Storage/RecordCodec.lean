import Mino.Storage.RecordEnvelopes

/-! # The record codec

`DecodeRecord` undoes `EncodeRecord`, and it accepts no other bytes: every byte of an envelope is
a field of the record, or one that the decoder compares with what the encoder writes there. -/

namespace Mino.Storage

open List Result ByteString LittleEndian
open Wire (crc32c)

def decodeRecord (encoded : Bytes) (limits : SegmentFormatLimits) : Result Record := do
  validateLimits limits
  rejectIf (encoded.length < kMinimumEncodedRecordSize)
    (corruption "truncated record envelope")
  rejectIf (encoded.length > limits.maxEncodedRecordSize)
    (corruption "record exceeds max_encoded_record_size")
  let recordLength := read encoded 0 8
  rejectIf (recordLength > uint64Max - kRecordLengthFieldSize)
    (corruption "record_length overflows uint64")
  rejectIf (recordLength + kRecordLengthFieldSize ≠ encoded.length)
    (corruption (if recordLength + kRecordLengthFieldSize < encoded.length then
      "trailing bytes after record envelope" else "truncated record envelope"))
  rejectIf (read encoded 8 4 ≠ kEncodedRecordHeaderSize)
    (corruption "noncanonical record header_length")
  let trailerOffset := encoded.length - kRecordTrailerSize
  let header := slice encoded kRecordHeaderOffset kEncodedRecordHeaderSize
  rejectIf (read header kRecordMagicOffset 4 ≠ kRecordHeaderMagic)
    (corruption "record header magic mismatch")
  rejectIf (read header kRecordVersionOffset 2 ≠ kRecordFormatVersion)
    (corruption "unsupported record format version")
  rejectIf ((readRecordHeader header).flags &&& ~~~kKnownRecordFlags ≠ 0)
    (corruption "record header contains reserved flag bits")
  rejectIf (read header kRecordReservedOffset 4 ≠ 0)
    (corruption "record header reserved field is non-zero")
  let payloadSize := read header kRecordPayloadSizeOffset 4
  rejectIf (payloadSize > limits.maxPayloadSize)
    (corruption "payload_size exceeds max_payload_size")
  rejectIf (canonicalSize payloadSize ≠ encoded.length)
    (corruption "payload_size does not match record_length")
  rejectIf (read encoded (trailerOffset + kTrailerRecordLengthOffset) 8 ≠ recordLength)
    (corruption "leading and trailing record_length mismatch")
  rejectIf (read encoded (trailerOffset + kTrailerIngestionSequenceOffset) 8 ≠
      read header kRecordIngestionSequenceOffset 8)
    (corruption "trailer ingestion_sequence mismatch")
  rejectIf (read encoded (trailerOffset + kTrailerCommitMarkerOffset) 8 ≠
      kRecordCommitMarker)
    (corruption "record commit marker mismatch")
  let padding := slice encoded (payloadOffset + payloadSize)
    (trailerOffset - (payloadOffset + payloadSize))
  rejectIf (padding.all (· == 0) = false)
    (corruption "record alignment padding is non-zero")
  rejectIf (read header kRecordHeaderCrcOffset 4 ≠ (recordHeaderCrc header).toNat)
    (corruption "record header CRC32C mismatch")
  let payload := slice encoded payloadOffset payloadSize
  rejectIf (read header kRecordPayloadCrcOffset 4 ≠ (crc32c payload).toNat)
    (corruption "record payload CRC32C mismatch")
  rejectIf (read encoded (trailerOffset + kTrailerRecordCrcOffset) 4 ≠
      (crc32c (encoded.take trailerOffset)).toNat)
    (corruption "record envelope CRC32C mismatch")
  .ok ⟨readRecordHeader header, payload⟩

variable {limits : SegmentFormatLimits} {record : Record} {header : SegmentHeader} {bytes : Bytes}

theorem decodeRecord_recordEnvelope (h : Encodable limits record) :
    decodeRecord (recordEnvelope record) limits = .ok record := by
  have hle := le_canonicalSize record.payload.length
  have hreads := readsHeader_encode h.word
  have hcrc := read_encodeRecordHeader record
  have htrailer := readsTrailer h.word
  have hlead := read_leading h.word []
  rw [append_nil] at hlead
  unfold decodeRecord
  simp only [length_recordEnvelope, slice_header, read_headerLength, hreads.magic, hreads.version,
    readRecordHeader_of_reads hreads, hcrc.1, hcrc.2, hreads.payloadSize, hreads.payloadCrc,
    hreads.ingestionSequence, hlead, read_trailer, htrailer.recordLength,
    htrailer.ingestionSequence, htrailer.recordCrc, htrailer.commitMarker, slice_padding,
    slice_payload, take_body, h.flags]
  have hword : ¬ canonicalSize record.payload.length - 8 > uint64Max - kRecordLengthFieldSize := by
    have := canonicalSize_eq record.payload.length
    have := paddingSize_lt record.payload.length
    have := h.word
    unfold uint64Max kRecordLengthFieldSize
    omega
  have hsize : canonicalSize record.payload.length - 8 + kRecordLengthFieldSize =
      canonicalSize record.payload.length := Nat.sub_add_cancel (by omega)
  simp [validateLimits, rejectIf, h.bounds, hword, hsize, Nat.not_lt.mpr h.minimum,
    kEncodedRecordHeaderSize, bind, Except.bind]

/-! ### What is accepted -/

/-- The fields of a header, written again, are the bytes that were read. -/
theorem recordHeaderFields_read {header payload} (hlength : header.length = 100)
    (hmagic : read header kRecordMagicOffset 4 = kRecordHeaderMagic)
    (hversion : read header kRecordVersionOffset 2 = kRecordFormatVersion)
    (hsize : payload.length = read header kRecordPayloadSizeOffset 4)
    (hcrc : read header kRecordPayloadCrcOffset 4 = (crc32c payload).toNat) :
    recordHeaderFields ⟨readRecordHeader header, payload⟩ = slice header 0 92 := by
  rw [recordHeaderFields, ← hmagic, ← hversion, hsize, ← hcrc]
  simp only [readRecordHeader, toNat16_read, toNat32_read, toNat64_read]
  repeat refine encode_read_append (by rw [hlength]; decide) ?_
  exact encode_read (by rw [hlength]; decide)

theorem encodeRecordHeader_read {header payload} (hlength : header.length = 100)
    (hfields : recordHeaderFields ⟨readRecordHeader header, payload⟩ = slice header 0 92)
    (hreserved : read header kRecordReservedOffset 4 = 0)
    (hcrc : read header kRecordHeaderCrcOffset 4 = (recordHeaderCrc header).toNat) :
    encodeRecordHeader ⟨readRecordHeader header, payload⟩ = header := by
  have hzero : encode 4 0 = slice header 96 4 := by
    rw [← hreserved]
    exact encode_read hlength.ge
  have hdrop : header.drop 96 = slice header 96 4 := by
    rw [slice, take_of_length_le (by rw [length_drop, hlength])]
  have hword : recordHeaderCrc (slice header 0 92 ++ (encode 4 0 ++ encode 4 0)) =
      recordHeaderCrc header := by
    rw [recordHeaderCrc_append (length_slice (by omega)) (length_encode 4 0), hzero, ← hdrop]
    rfl
  have hrest : encode 4 (read header kRecordHeaderCrcOffset 4) ++ slice header 96 4 =
      slice header 92 8 := encode_read_append (by rw [hlength]; decide) rfl
  rw [encodeRecordHeader, hfields, hword, ← hcrc, hzero, hrest, slice_append_slice rfl]
  exact take_of_length_le hlength.le

section

variable {n : Nat} (hlength : bytes.length = canonicalSize n)
  (hlead : read bytes 0 8 + 8 = bytes.length)
include hlength hlead

theorem encodeRecordBody_read (hheaderLength : read bytes 8 4 = 100)
    (hheader : encodeRecordHeader record = slice bytes 12 100) (hpayload : record.payload =
    slice bytes 112 n) (hpadding : (slice bytes (112 + n) (paddingSize n)).all (· == 0)) :
    encodeRecordBody record = slice bytes 0 (canonicalSize n - 28) := by
  have hsize := canonicalSize_eq n
  have hn : record.payload.length = n := by
    rw [hpayload]
    exact length_slice (by omega)
  have hzeros : replicate (paddingSize n) 0 = slice bytes (112 + n) (paddingSize n) := by
    refine (eq_replicate_iff.mpr ⟨length_slice (by omega), fun x hx => ?_⟩).symm
    exact eq_of_beq (all_eq_true.mp hpadding x hx)
  have hfirst : canonicalSize n - kRecordLengthFieldSize = read bytes 0 8 := by
    unfold kRecordLengthFieldSize
    omega
  have hsecond : kEncodedRecordHeaderSize = read bytes 8 4 := hheaderLength.symm
  rw [encodeRecordBody, hn, hfirst, hsecond, hheader, hpayload, hzeros, slice_append_slice rfl,
    slice_append_slice rfl]
  have htotal : canonicalSize n - 28 = 100 + (n + paddingSize n) + 4 + 8 := by omega
  rw [htotal]
  exact encode_read_append (by omega) (encode_read_append (by omega) rfl)

theorem encodeRecordTrailer_read (hn : record.payload.length = n)
    (hbody : encodeRecordBody record = bytes.take (canonicalSize n - 28))
    (hlast : read bytes (canonicalSize n - 28) 8 = read bytes 0 8)
    (hsequence : read bytes (canonicalSize n - 28 + 8) 8 = record.header.ingestionSequence.toNat)
    (hcrc : read bytes (canonicalSize n - 28 + 16) 4 =
      (crc32c (bytes.take (canonicalSize n - 28))).toNat)
    (hmarker : read bytes (canonicalSize n - 28 + 20) 8 = kRecordCommitMarker) :
    encodeRecordTrailer record = slice bytes (canonicalSize n - 28) 28 := by
  have hsize := canonicalSize_eq n
  have hfirst : canonicalSize n - kRecordLengthFieldSize = read bytes (canonicalSize n - 28) 8 := by
    unfold kRecordLengthFieldSize
    omega
  rw [encodeRecordTrailer, hn, hfirst, ← hsequence, hbody, ← hcrc, ← hmarker]
  repeat refine encode_read_append (by omega) ?_
  exact encode_read (by omega)

end

/-- `DecodeRecord` accepts the envelopes that `EncodeRecord` makes under the limits, and no other
bytes. -/
theorem decodeRecord_ok (h : decodeRecord bytes limits = .ok record) :
    Encodable limits record ∧ bytes = recordEnvelope record := by
  obtain ⟨_, hlimits, h⟩ := bind_eq_ok h
  simp only [check_eq_ok, ne_eq, not_not] at h
  obtain ⟨-, hmax, -, hlead, hheaderLength, hmagic, hversion, hflags, hreserved, hpayload, hlength,
    hlast, hsequence, hmarker, hpadding, hheaderCrc, hpayloadCrc, hcrc, h⟩ := h
  obtain rfl := Except.ok.inj h
  generalize hn : read
    (slice bytes kRecordHeaderOffset kEncodedRecordHeaderSize) kRecordPayloadSizeOffset 4 = n at *
  have hsize := canonicalSize_eq n
  have hpadded : canonicalSize n - kRecordTrailerSize - (payloadOffset + n) = paddingSize n := by
    change canonicalSize n - 28 - (112 + n) = _
    omega
  rw [← hlength] at hlast hsequence hmarker hpadding hcrc
  rw [hpadded] at hpadding
  have hin : (slice bytes 12 100).length = 100 := length_slice (by omega)
  have hcount : (slice bytes 112 n).length = n := length_slice (by omega)
  have hfields := recordHeaderFields_read hin hmagic hversion (hcount.trans hn.symm) hpayloadCrc
  have hbody := encodeRecordBody_read hlength.symm hlead hheaderLength (encodeRecordHeader_read hin
    hfields hreserved hheaderCrc) rfl (Bool.eq_true_of_not_eq_false hpadding)
  have htrailer := encodeRecordTrailer_read hlength.symm hlead hcount hbody hlast
    (hsequence.trans (toNat64_read _ _).symm) hcrc hmarker
  refine ⟨⟨hflags, Nat.le_of_not_lt (rejectIf_ok hlimits), ?_, ?_, ?_⟩, ?_⟩
  · exact hcount.trans_lt (hn ▸ read_lt _ _ 4)
  · exact hcount.trans_le (Nat.le_of_not_lt hpayload)
  · exact (congrArg canonicalSize hcount).trans_le (hlength.trans_le (Nat.le_of_not_lt hmax))
  · have hwhole : bytes.length = canonicalSize n - 28 + 28 := by omega
    change bytes = recordEnvelope ⟨readRecordHeader (slice bytes 12 100), slice bytes 112 n⟩
    rw [recordEnvelope, hbody, htrailer, slice_append_slice (Nat.zero_add _).symm, ← hwhole]
    exact take_length.symm

theorem decodeSegmentHeader_ok (h : decodeSegmentHeader bytes = .ok header) :
    header.flags &&& ~~~kKnownSegmentFlags = 0 ∧ bytes = segmentHeaderBytes header := by
  simp only [decodeSegmentHeader, check_eq_ok, ne_eq, not_not] at h
  obtain ⟨hlength, hmagic, hversion, hflags, hcrc, h⟩ := h
  obtain rfl := Except.ok.inj h
  replace hlength : bytes.length = 52 := hlength
  have hfields : segmentHeaderFields ⟨.ofNat (read bytes 6 2), .ofNat (read bytes 8 8),
      .ofNat (read bytes 16 4), .ofNat (read bytes 20 4), .ofNat (read bytes 24 8),
      .ofNat (read bytes 32 8), .ofNat (read bytes 40 8)⟩ = slice bytes 0 48 := by
    rw [segmentHeaderFields, ← hmagic, ← hversion]
    simp only [toNat16_read, toNat32_read, toNat64_read]
    repeat refine encode_read_append (by omega) ?_
    exact encode_read (by omega)
  refine ⟨hflags, ?_⟩
  rw [segmentHeaderBytes, hfields]
  change bytes = slice bytes 0 48 ++ encode 4 (crc32c (bytes.take 48)).toNat
  rw [← hcrc, encode_read (by omega), slice_append_slice rfl]
  exact (take_of_length_le hlength.le).symm

/-- The checks of the scan are those of the decoder, in another order. -/
theorem checkEnvelope_iff (hword : read bytes 0 8 ≤ uint64Max - 8)
    (hlead : read bytes 0 8 + 8 = bytes.length) :
    checkEnvelope limits bytes = .ok () ↔ ∃ record, decodeRecord bytes limits = .ok record := by
  have hsums : ∀ {n}, canonicalSize n = bytes.length → bodySums bytes n = _ := fun {n} hlength =>
    bodySums_eq bytes n (show 112 + n ≤ bytes.length - 28 by have := canonicalSize_eq n; omega)
  have hmarker : ¬ bytes.length < kMinimumEncodedRecordSize →
      bytes.length - kRecordTrailerSize + kTrailerCommitMarkerOffset = bytes.length - 8 := by
    unfold kMinimumEncodedRecordSize kRecordTrailerSize kTrailerCommitMarkerOffset
    omega
  simp only [checkEnvelope, decodeRecord, validateLimits, hasCommitMarker, failIf_bind_ok,
    failIf_eq_ok, check_eq_ok, ne_eq, not_or, not_not, decide_eq_false_iff_not]
  constructor
  · rintro ⟨hmin, hmax, hheaderLength, ⟨hmagic, hversion, hflags, hreserved⟩, hheaderCrc, hpayload,
      hlength, hlast, hsequence, hcommit, hrest⟩
    rw [hsums hlength] at hrest
    exact ⟨_, by omega, hmin, hmax, Nat.not_lt.mpr hword, hlead, hheaderLength, hmagic, hversion,
      hflags, hreserved, hpayload, hlength, hlast, hsequence, hmarker hmin ▸ hcommit, hrest.1,
      hheaderCrc, hrest.2.1, hrest.2.2, rfl⟩
  · rintro ⟨_, -, hmin, hmax, -, -, hheaderLength, hmagic, hversion, hflags, hreserved, hpayload,
      hlength, hlast, hsequence, hcommit, hpadding, hheaderCrc, hpayloadCrc, hcrc, -⟩
    rw [hsums hlength]
    exact ⟨hmin, hmax, hheaderLength, ⟨hmagic, hversion, hflags, hreserved⟩, hheaderCrc, hpayload,
      hlength, hlast, hsequence, hmarker hmin ▸ hcommit, hpadding, hpayloadCrc, hcrc⟩

/-- Every check passes on what `EncodeRecord` makes. -/
theorem checkEnvelope_recordEnvelope (h : Encodable limits record) :
    checkEnvelope limits (recordEnvelope record) = .ok () := by
  have hle := le_canonicalSize record.payload.length
  have hsize := canonicalSize_eq record.payload.length
  have hpad := paddingSize_lt record.payload.length
  have hword := h.word
  have hlead := read_leading h.word []
  rw [append_nil] at hlead
  refine (checkEnvelope_iff ?_ ?_).mpr ⟨record, decodeRecord_recordEnvelope h⟩
  · unfold uint64Max
    omega
  · rw [length_recordEnvelope]
    omega

/-- The record codec and the segment header codec: what was encoded is decoded to what it was made
of, and what is decoded is what encoding the result gives. -/
theorem segment_codec (limits : SegmentFormatLimits) :
    (∀ record bytes, encodeRecord record limits = .ok bytes →
      decodeRecord bytes limits = .ok record) ∧
    (∀ record bytes, decodeRecord bytes limits = .ok record →
      encodeRecord record limits = .ok bytes) ∧
    (∀ header bytes, encodeSegmentHeader header = .ok bytes →
      decodeSegmentHeader bytes = .ok header) ∧
    ∀ header bytes, decodeSegmentHeader bytes = .ok header →
      encodeSegmentHeader header = .ok bytes := by
  refine ⟨fun record bytes h => ?_, fun record bytes h => ?_, fun header bytes h => ?_,
    fun header bytes h => ?_⟩
  · obtain ⟨hrecord, rfl⟩ := encodable_of_encodeRecord h
    exact decodeRecord_recordEnvelope hrecord
  · obtain ⟨hrecord, rfl⟩ := decodeRecord_ok h
    exact encodeRecord_of_encodable hrecord
  · obtain ⟨hflags, rfl⟩ := encodeSegmentHeader_ok h
    exact decodeSegmentHeader_bytes hflags
  · obtain ⟨hflags, rfl⟩ := decodeSegmentHeader_ok h
    simp [encodeSegmentHeader, Result.rejectIf, hflags, segmentHeaderBytes, bind, Except.bind]

def plainOptions : SegmentRecoveryOptions := ⟨.default, none, fun _ => true⟩

def plainSegmentHeader : SegmentHeader := ⟨0, 9, 7, 3, 5, 0, 1000⟩

/-- A record of the plain segment. -/
def plainRecord (sequence : UInt64) (payload : Bytes) : Record :=
  ⟨⟨0, 2, 1, 1, 7, 3, sequence, 1000, 4, 5, 6, sequence, 900⟩, payload⟩

theorem encodeRecord_plainRecord (sequence : UInt64) {payload} (h : payload.length ≤ 1024) :
    encodeRecord (plainRecord sequence payload) plainOptions.formatLimits =
      .ok (recordEnvelope (plainRecord sequence payload)) := by
  have hsize := canonicalSize_eq payload.length
  have hpad := paddingSize_lt payload.length
  have henvelope : canonicalSize payload.length ≤ 67112960 := by omega
  exact encodeRecord_of_encodable ⟨UInt16.zero_and, by decide, Nat.lt_of_le_of_lt h (by decide),
    h.trans (by decide), henvelope⟩

theorem encodeSegmentHeader_plain :
    encodeSegmentHeader plainSegmentHeader = .ok (segmentHeaderBytes plainSegmentHeader) := rfl

/-- A record whose payload is padded, and the header of its segment. -/
theorem segment_codec_plain :
    decodeRecord (recordEnvelope (plainRecord 1 [1, 2, 3])) .default =
        .ok (plainRecord 1 [1, 2, 3]) ∧
      encodeRecord (plainRecord 1 [1, 2, 3]) .default =
        .ok (recordEnvelope (plainRecord 1 [1, 2, 3])) ∧
      decodeSegmentHeader (segmentHeaderBytes plainSegmentHeader) = .ok plainSegmentHeader ∧
      encodeSegmentHeader plainSegmentHeader = .ok (segmentHeaderBytes plainSegmentHeader) :=
  have hdecoded := (segment_codec .default).1 _ _ (encodeRecord_plainRecord 1 (by decide))
  have hheader := (segment_codec .default).2.2.1 _ _ encodeSegmentHeader_plain
  ⟨hdecoded, (segment_codec .default).2.1 _ _ hdecoded, hheader,
    (segment_codec .default).2.2.2 _ _ hheader⟩

end Mino.Storage
