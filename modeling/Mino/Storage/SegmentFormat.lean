import Mino.Wire.Frame
import Mino.Lib.ByteSlices

/-! # The records of a segment file

A segment file is a header and behind it the envelopes of its records. Integers are
little-endian. An envelope is the length of what follows, the length of the record header, the
header, the payload, zeros up to the alignment, and a trailer that ends with the commit marker. -/

namespace Mino.Storage

open ByteString (slice)
open LittleEndian (encode read)
open Wire (crc32c)

def kSegmentHeaderMagic : Nat := 0x4745534d
def kRecordHeaderMagic : Nat := 0x4345524d
def kSegmentFormatVersion : Nat := 1
def kRecordFormatVersion : Nat := 1
def kRecordCommitMarker : Nat := 0x4d494e4f434d4d54

def kEncodedSegmentHeaderSize : Nat := 52
def kEncodedRecordHeaderSize : Nat := 100
def kRecordLengthFieldSize : Nat := 8
def kRecordHeaderLengthFieldSize : Nat := 4
def kRecordTrailerSize : Nat := 28
def kRecordAlignment : Nat := 8
def kMinimumEncodedRecordSize : Nat := 144

def kKnownSegmentFlags : UInt16 := 0
def kRecordFlagGap : UInt16 := 1
def kRecordFlagTombstone : UInt16 := 2
def kKnownRecordFlags : UInt16 := kRecordFlagGap ||| kRecordFlagTombstone

def uint32Max : Nat := 2 ^ 32 - 1
def uint64Max : Nat := 2 ^ 64 - 1

structure SegmentHeader where
  flags : UInt16
  recordingId : UInt64
  topicId : UInt32
  partitionId : UInt32
  writerId : UInt64
  firstIngestionSequence : UInt64
  createdAtNs : UInt64
  deriving DecidableEq, Repr

structure RecordHeader where
  flags : UInt16
  schemaRef : UInt32
  schemaVersion : UInt32
  layoutVersion : UInt32
  topicId : UInt32
  partitionId : UInt32
  ingestionSequence : UInt64
  ingestionTimestampNs : UInt64
  nodeId : UInt64
  publisherId : UInt64
  publisherEpoch : UInt64
  sourceSequence : UInt64
  observedTimestampNs : UInt64
  deriving DecidableEq, Repr

structure Record where
  header : RecordHeader
  payload : Bytes
  deriving DecidableEq, Repr

structure SegmentFormatLimits where
  maxPayloadSize : Nat
  maxEncodedRecordSize : Nat
  deriving DecidableEq, Repr

def SegmentFormatLimits.default : SegmentFormatLimits :=
  ⟨64 * 1024 * 1024, 64 * 1024 * 1024 + 4096⟩

def invalid (message : String) : Status := .error .invalidArgument message
def corruption (message : String) : Status := .error .corruption message

/-! ### Sizes -/

def validateLimits (limits : SegmentFormatLimits) : Result Unit :=
  Result.rejectIf (limits.maxEncodedRecordSize < kMinimumEncodedRecordSize)
    (invalid "max_encoded_record_size is smaller than one envelope")

variable (payloadSize : Nat) (record : Record)

def sizeWithoutPadding : Nat :=
  kRecordLengthFieldSize + kRecordHeaderLengthFieldSize + kEncodedRecordHeaderSize + payloadSize +
    kRecordTrailerSize

def paddingSize : Nat :=
  (kRecordAlignment - sizeWithoutPadding payloadSize % kRecordAlignment) % kRecordAlignment

def canonicalSize : Nat :=
  kRecordLengthFieldSize + kRecordHeaderLengthFieldSize + kEncodedRecordHeaderSize + payloadSize +
    paddingSize payloadSize + kRecordTrailerSize

def encodedRecordSize (limits : SegmentFormatLimits) : Result Nat := do
  validateLimits limits
  Result.rejectIf (payloadSize > uint32Max) (invalid "payload_size does not fit the v1 uint32 field")
  Result.rejectIf (payloadSize > limits.maxPayloadSize)
    (invalid "payload_size exceeds max_payload_size")
  Result.rejectIf (canonicalSize payloadSize > limits.maxEncodedRecordSize)
    (invalid "record envelope exceeds max_encoded_record_size")
  .ok (canonicalSize payloadSize)

/-! ### The segment header -/

def segmentHeaderFields (header : SegmentHeader) : Bytes :=
  encode 4 kSegmentHeaderMagic ++ (encode 2 kSegmentFormatVersion ++
    (encode 2 header.flags.toNat ++ (encode 8 header.recordingId.toNat ++
      (encode 4 header.topicId.toNat ++ (encode 4 header.partitionId.toNat ++
        (encode 8 header.writerId.toNat ++ (encode 8 header.firstIngestionSequence.toNat ++
          encode 8 header.createdAtNs.toNat)))))))

def encodeSegmentHeader (header : SegmentHeader) : Result Bytes := do
  Result.rejectIf (header.flags &&& ~~~kKnownSegmentFlags ≠ 0)
    (invalid "segment header contains reserved flag bits")
  .ok (segmentHeaderFields header ++ encode 4 (crc32c (segmentHeaderFields header)).toNat)

def decodeSegmentHeader (encoded : Bytes) : Result SegmentHeader := do
  Result.rejectIf (encoded.length ≠ kEncodedSegmentHeaderSize)
    (corruption (if encoded.length < kEncodedSegmentHeaderSize then "truncated segment header"
      else "trailing bytes after segment header"))
  Result.rejectIf (read encoded 0 4 ≠ kSegmentHeaderMagic)
    (corruption "segment header magic mismatch")
  Result.rejectIf (read encoded 4 2 ≠ kSegmentFormatVersion)
    (corruption "unsupported segment format version")
  let flags := UInt16.ofNat (read encoded 6 2)
  Result.rejectIf (flags &&& ~~~kKnownSegmentFlags ≠ 0)
    (corruption "segment header contains reserved flag bits")
  Result.rejectIf (read encoded 48 4 ≠ (crc32c (encoded.take 48)).toNat)
    (corruption "segment header CRC32C mismatch")
  .ok {
    flags := flags
    recordingId := .ofNat (read encoded 8 8)
    topicId := .ofNat (read encoded 16 4)
    partitionId := .ofNat (read encoded 20 4)
    writerId := .ofNat (read encoded 24 8)
    firstIngestionSequence := .ofNat (read encoded 32 8)
    createdAtNs := .ofNat (read encoded 40 8) }

/-! ### Records -/

def kRecordHeaderOffset : Nat := 12
def kRecordMagicOffset : Nat := 0
def kRecordVersionOffset : Nat := 4
def kRecordFlagsOffset : Nat := 6
def kRecordSchemaRefOffset : Nat := 8
def kRecordSchemaVersionOffset : Nat := 12
def kRecordLayoutVersionOffset : Nat := 16
def kRecordTopicIdOffset : Nat := 20
def kRecordPartitionIdOffset : Nat := 24
def kRecordIngestionSequenceOffset : Nat := 28
def kRecordIngestionTimestampOffset : Nat := 36
def kRecordNodeIdOffset : Nat := 44
def kRecordPublisherIdOffset : Nat := 52
def kRecordPublisherEpochOffset : Nat := 60
def kRecordSourceSequenceOffset : Nat := 68
def kRecordObservedTimestampOffset : Nat := 76
def kRecordPayloadSizeOffset : Nat := 84
def kRecordPayloadCrcOffset : Nat := 88
def kRecordHeaderCrcOffset : Nat := 92
def kRecordReservedOffset : Nat := 96

def kTrailerRecordLengthOffset : Nat := 0
def kTrailerIngestionSequenceOffset : Nat := 8
def kTrailerRecordCrcOffset : Nat := 16
def kTrailerCommitMarkerOffset : Nat := 20

/-- The payload begins here in an envelope. -/
def payloadOffset : Nat := kRecordHeaderOffset + kEncodedRecordHeaderSize

/-- The CRC of a record header leaves out its own bytes. -/
def recordHeaderCrc (header : Bytes) : UInt32 :=
  crc32c (header.take kRecordHeaderCrcOffset ++ header.drop (kRecordHeaderCrcOffset + 4))

def recordHeaderFields : Bytes :=
  encode 4 kRecordHeaderMagic ++ (encode 2 kRecordFormatVersion ++
    (encode 2 record.header.flags.toNat ++ (encode 4 record.header.schemaRef.toNat ++
      (encode 4 record.header.schemaVersion.toNat ++ (encode 4 record.header.layoutVersion.toNat ++
        (encode 4 record.header.topicId.toNat ++ (encode 4 record.header.partitionId.toNat ++
          (encode 8 record.header.ingestionSequence.toNat ++
            (encode 8 record.header.ingestionTimestampNs.toNat ++
              (encode 8 record.header.nodeId.toNat ++ (encode 8 record.header.publisherId.toNat ++
                (encode 8 record.header.publisherEpoch.toNat ++
                  (encode 8 record.header.sourceSequence.toNat ++
                    (encode 8 record.header.observedTimestampNs.toNat ++
                      (encode 4 record.payload.length ++
                        encode 4 (crc32c record.payload).toNat)))))))))))))))

def encodeRecordHeader : Bytes :=
  recordHeaderFields record ++
    (encode 4 (recordHeaderCrc (recordHeaderFields record ++ (encode 4 0 ++ encode 4 0))).toNat ++
      encode 4 0)

/-- An envelope up to its trailer. -/
def encodeRecordBody : Bytes :=
  encode 8 (canonicalSize record.payload.length - kRecordLengthFieldSize) ++
    (encode 4 kEncodedRecordHeaderSize ++ (encodeRecordHeader record ++ (record.payload ++
      List.replicate (paddingSize record.payload.length) 0)))

def encodeRecordTrailer : Bytes :=
  encode 8 (canonicalSize record.payload.length - kRecordLengthFieldSize) ++
    (encode 8 record.header.ingestionSequence.toNat ++
      (encode 4 (crc32c (encodeRecordBody record)).toNat ++ encode 8 kRecordCommitMarker))

/-- The envelope of a record, whether or not the limits allow it. -/
def recordEnvelope : Bytes := encodeRecordBody record ++ encodeRecordTrailer record

def encodeRecord (limits : SegmentFormatLimits) : Result Bytes := do
  Result.rejectIf (record.header.flags &&& ~~~kKnownRecordFlags ≠ 0)
    (invalid "record header contains reserved flag bits")
  let _ ← encodedRecordSize record.payload.length limits
  .ok (recordEnvelope record)

/-- The header fields of an encoded record header. -/
def readRecordHeader (header : Bytes) : RecordHeader where
  flags := .ofNat (read header kRecordFlagsOffset 2)
  schemaRef := .ofNat (read header kRecordSchemaRefOffset 4)
  schemaVersion := .ofNat (read header kRecordSchemaVersionOffset 4)
  layoutVersion := .ofNat (read header kRecordLayoutVersionOffset 4)
  topicId := .ofNat (read header kRecordTopicIdOffset 4)
  partitionId := .ofNat (read header kRecordPartitionIdOffset 4)
  ingestionSequence := .ofNat (read header kRecordIngestionSequenceOffset 8)
  ingestionTimestampNs := .ofNat (read header kRecordIngestionTimestampOffset 8)
  nodeId := .ofNat (read header kRecordNodeIdOffset 8)
  publisherId := .ofNat (read header kRecordPublisherIdOffset 8)
  publisherEpoch := .ofNat (read header kRecordPublisherEpochOffset 8)
  sourceSequence := .ofNat (read header kRecordSourceSequenceOffset 8)
  observedTimestampNs := .ofNat (read header kRecordObservedTimestampOffset 8)

end Mino.Storage
