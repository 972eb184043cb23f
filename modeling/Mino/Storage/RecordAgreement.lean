import Mino.Storage.SegmentRuns

/-! # The scan and the decoder accept the same records

`ValidateRecord` streams the body of a record in chunks, `DecodeRecord` has the whole of it; the
chunks do not show in the result. -/

namespace Mino.Storage

open List ByteString LittleEndian

variable {limits : SegmentFormatLimits} {record : Record}
  {options : SegmentRecoveryOptions} {file : Bytes} {offset : Nat}

/-- The metadata that a decoded record gives at an offset. -/
def decodedMetadata (offset : Nat) (record : Record) : SegmentRecordOffset :=
  let header := record.header
  let size := canonicalSize record.payload.length
  ⟨offset, offset + size, size, offset + payloadOffset, record.payload.length, header.flags,
    header.schemaRef, header.schemaVersion, header.layoutVersion, header.ingestionSequence,
    header.ingestionTimestampNs, header.sourceSequence, header.observedTimestampNs⟩

theorem recordMetadata_eq (h : Encodable limits record) (offset : Nat) :
    recordMetadata offset record = decodedMetadata offset record := by
  rw [recordMetadata, envelopeMetadata, envelopeHeader_recordEnvelope h, slice_header,
    (readsHeader_encode h.word).payloadSize, length_recordEnvelope, decodedMetadata]

theorem append_of_slice {n} (h : slice file offset n = recordEnvelope record) :
    (file.take offset).length = offset ∧
      file = file.take offset ++ (recordEnvelope record ++ file.drop (offset + n)) := by
  have hle := le_canonicalSize record.payload.length
  have hlength := congrArg List.length h
  rw [slice, length_take, length_drop, length_recordEnvelope] at hlength
  refine ⟨length_take_of_le (by omega), ?_⟩
  rw [← h, slice, ← drop_drop, take_append_drop, take_append_drop]

/-- The scan takes a record only where its envelope stands. -/
theorem validateRecord_ok {context metadata}
    (h : validateRecord options file offset context = .ok metadata) :
    ∃ record, Encodable options.formatLimits record ∧
      slice file offset (read file offset 8 + 8) = recordEnvelope record ∧
      offset + (read file offset 8 + 8) ≤ file.length ∧
      metadata = recordMetadata offset record := by
  obtain ⟨_, hlead, h⟩ := check_bind_ok h
  obtain ⟨_, hword, h⟩ := check_bind_ok h
  obtain ⟨_, hin, h⟩ := check_bind_ok h
  have hmetadata := validateEnvelope_eq h
  obtain ⟨_, hcheck, -⟩ := check_bind_ok h
  replace hword := failIf_ok hword
  replace hin := failIf_ok hin
  unfold kRecordLengthFieldSize at *
  have hread : read (slice file offset (read file offset 8 + 8)) 0 8 = read file offset 8 := by
    rw [LittleEndian.read, slice_slice (by omega)]
    rfl
  have hlength : (slice file offset (read file offset 8 + 8)).length = read file offset 8 + 8 :=
    length_slice (by omega)
  obtain ⟨record, hdecode⟩ := (checkEnvelope_iff (by omega) (by omega)).mp hcheck
  obtain ⟨hrecord, henvelope⟩ := decodeRecord_ok hdecode
  exact ⟨record, hrecord, henvelope, by omega, by rw [hmetadata, henvelope, recordMetadata]⟩

theorem validateRecord_of_slice (hrecord : Encodable options.formatLimits record)
    (h : slice file offset (read file offset 8 + 8) = recordEnvelope record) :
    validateRecord options file offset none = .ok (recordMetadata offset record) := by
  obtain ⟨hfront, hfile⟩ := append_of_slice h
  have happend := validateRecord_append hrecord (file.take offset)
    (file.drop (offset + (read file offset 8 + 8))) none
  rw [← hfile, hfront] at happend
  rw [happend, validateEnvelope, checkEnvelope_recordEnvelope hrecord]
  rfl

/-- The scan takes a record where `DecodeRecord` accepts the bytes that the leading length spans,
and the metadata is that of the decoded record. -/
theorem validateRecord_iff_decodeRecord (options : SegmentRecoveryOptions) (file : Bytes)
    (offset : Nat) (metadata : SegmentRecordOffset) :
    validateRecord options file offset none = .ok metadata ↔
      ∃ record, decodeRecord (slice file offset (read file offset 8 + kRecordLengthFieldSize))
          options.formatLimits = .ok record ∧ metadata = decodedMetadata offset record := by
  constructor
  · intro h
    obtain ⟨record, hrecord, henvelope, -, rfl⟩ := validateRecord_ok h
    refine ⟨record, ?_, recordMetadata_eq hrecord offset⟩
    exact (congrArg (decodeRecord · _) henvelope).trans (decodeRecord_recordEnvelope hrecord)
  · rintro ⟨record, hdecode, rfl⟩
    obtain ⟨hrecord, henvelope⟩ := decodeRecord_ok hdecode
    rw [validateRecord_of_slice hrecord henvelope, recordMetadata_eq hrecord]

end Mino.Storage
