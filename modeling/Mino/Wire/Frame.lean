import Mino.Common.Bytes
import Mino.Common.Status
import Mino.Lib.ByteFields

/-! # Wire frames, byte by byte

A frame body is the canonical header, its optional fields and the wire payload. Integers
are big-endian. The authenticated encryption is a parameter: a pair of functions of which
the second undoes the first. -/

namespace Mino.Wire

open BigEndian (encode read)

def kWireFrameMagic : Nat := 0x4d494e4f
def kWireProtocolVersion : Nat := 1
def kLengthPrefixSize : Nat := 4
def kWireBaseHeaderLength : Nat := 80
def kWirePayloadCrcLength : Nat := 4
def kWireControlOpcodeLength : Nat := 4
def kWirePerfTraceContextLength : Nat := 40
def kWireMaximumHeaderLength : Nat :=
  kWireBaseHeaderLength + kWirePayloadCrcLength + kWirePerfTraceContextLength
def kWireAeadNonceLength : Nat := 12
def kWireAeadTagLength : Nat := 16
def kWireAeadOverhead : Nat := kWireAeadNonceLength + kWireAeadTagLength
def uint32Max : Nat := 2 ^ 32 - 1

def kMagicOffset : Nat := 0
def kVersionOffset : Nat := 4
def kFlagsOffset : Nat := 6
def kHeaderLengthOffset : Nat := 8
def kTopicIdOffset : Nat := 12
def kMsgTypeOffset : Nat := 16
def kConnectionSchemaRefOffset : Nat := 20
def kSchemaVersionOffset : Nat := 24
def kLayoutVersionOffset : Nat := 28
def kSourceNodeIdOffset : Nat := 32
def kSourcePublisherIdOffset : Nat := 40
def kSourcePublisherEpochOffset : Nat := 48
def kSequenceNumOffset : Nat := 56
def kTimestampNsOffset : Nat := 64
def kPayloadLengthOffset : Nat := 72
def kHeaderCrcOffset : Nat := 76
def kOptionalHeaderOffset : Nat := 80

/-- An enumeration of 32 bits: any number may have been cast to it. -/
structure FrameType where
  code : UInt32
  deriving DecidableEq, Repr

namespace FrameType

def data : FrameType := ⟨0⟩
def schemaAnnounce : FrameType := ⟨1⟩
def schemaRequest : FrameType := ⟨2⟩
def ack : FrameType := ⟨3⟩
def heartbeat : FrameType := ⟨4⟩
def sessionHello : FrameType := ⟨5⟩
def sessionDiscovery : FrameType := ⟨6⟩
def sessionKeyShare : FrameType := ⟨7⟩

end FrameType

inductive FrameFlag where
  | payloadCrcPresent
  | aeadPresent
  | compressed
  | controlFrame
  | perfTraceSampled
  deriving DecidableEq, Repr

def flagValue : FrameFlag → UInt16
  | .payloadCrcPresent => 1
  | .aeadPresent => 2
  | .compressed => 4
  | .controlFrame => 8
  | .perfTraceSampled => 16

def kKnownFrameFlags : UInt16 := 0x001f

def hasFrameFlag (flags : UInt16) (flag : FrameFlag) : Bool := flags &&& flagValue flag != 0

structure PerfTraceContext where
  traceIdHigh : UInt64
  traceIdLow : UInt64
  sampleFlags : UInt32
  clockDomainId : UInt32
  originWallTimeNs : UInt64
  originMonotonicNs : UInt64
  deriving DecidableEq, Repr

structure WireFrameHeader where
  frameType : FrameType
  flags : UInt16
  topicId : UInt32
  msgType : UInt32
  connectionSchemaRef : UInt32
  schemaVersion : UInt32
  layoutVersion : UInt32
  sourceNodeId : UInt64
  sourcePublisherId : UInt64
  sourcePublisherEpoch : UInt64
  sequenceNum : UInt64
  timestampNs : UInt64
  perfTrace : Option PerfTraceContext
  deriving DecidableEq, Repr

structure WireFrame where
  header : WireFrameHeader
  payload : Bytes
  deriving DecidableEq, Repr

structure WireFrameLimits where
  maxPayloadLength : UInt32
  maxBufferedBytes : Nat
  maxFramesPerPush : Nat
  maxDecodedPayloadBytesPerPush : Nat
  maxWorkBytesPerPush : Nat
  deriving DecidableEq, Repr

def corruption (message : String) : Status := .error .corruption message
def invalid (message : String) : Status := .error .invalidArgument message
def resource (message : String) : Status := .error .resourceExhausted message
def unsupported (message : String) : Status := .error .unsupported message

/-! ### CRC32C -/

/-- One entry of the table of CRC32C. -/
def crc32cEntry (i : UInt32) : UInt32 :=
  (List.range 8).foldl (fun value _ => (value >>> 1) ^^^ if value &&& 1 ≠ 0 then 0x82f63b78 else 0) i

/-- `Crc32cAccumulator::Update`. -/
def crc32cUpdate (state : UInt32) (bytes : Bytes) : UInt32 :=
  bytes.foldl (fun state byte => crc32cEntry ((state ^^^ byte.toUInt32) &&& 0xff) ^^^ (state >>> 8))
    state

def crc32cFinish (state : UInt32) : UInt32 := state ^^^ 0xffffffff

def crc32c (bytes : Bytes) : UInt32 := crc32cFinish (crc32cUpdate 0xffffffff bytes)

/-- CRC32C of the header with its CRC bytes taken as zero. -/
def headerCrc (header : Bytes) : UInt32 :=
  crc32c (header.take kHeaderCrcOffset ++ [0, 0, 0, 0] ++ header.drop (kHeaderCrcOffset + 4))

/-! ### Keys -/

/-- `open_seal` is what is assumed of the cipher. -/
structure WireAead (κ : Type) where
  sealWireAead : κ → Bytes → Bytes → Result Bytes
  openWireAead : κ → Bytes → Bytes → Result Bytes
  open_seal : ∀ key aad plaintext sealed, sealWireAead key aad plaintext = .ok sealed →
    openWireAead key aad sealed = .ok plaintext

/-- The keys with material, and the one that encodes, whose id is not zero: `SetEncodeKey` takes no
other. -/
structure WireAeadKeyring (κ : Type) where
  encodeKeyId : Option UInt32
  keys : UInt32 → Option κ
  encodeKeyId_ne_zero : encodeKeyId ≠ some 0

namespace WireAeadKeyring

variable {κ : Type}

def findKey (ring : WireAeadKeyring κ) (keyId : UInt32) : Option κ := ring.keys keyId

/-- The key that encodes and its id. -/
def encodeKey (ring : WireAeadKeyring κ) : Option (UInt32 × κ) :=
  ring.encodeKeyId.bind fun keyId => (ring.findKey keyId).map fun key => (keyId, key)

theorem encodeKey_eq_some {ring : WireAeadKeyring κ} {keyId key}
    (h : ring.encodeKey = some (keyId, key)) : keyId ≠ 0 ∧ ring.findKey keyId = some key := by
  obtain ⟨id, hid, hfind⟩ := Option.bind_eq_some_iff.mp h
  obtain ⟨key', hkey, heq⟩ := Option.map_eq_some_iff.mp hfind
  cases heq
  exact ⟨fun hzero => ring.encodeKeyId_ne_zero (hzero ▸ hid), hkey⟩

end WireAeadKeyring

/-! ### Validation -/

def isValidFrameType (type : FrameType) : Bool :=
  [FrameType.data, .schemaAnnounce, .schemaRequest, .ack, .heartbeat, .sessionHello,
    .sessionDiscovery, .sessionKeyShare].contains type

def canonicalHeaderLength (flags : UInt16) : Nat :=
  kWireBaseHeaderLength +
    (if hasFrameFlag flags .payloadCrcPresent || hasFrameFlag flags .aeadPresent then
      kWirePayloadCrcLength else 0) +
    if hasFrameFlag flags .perfTraceSampled then kWirePerfTraceContextLength else 0

def validateFlags (flags : UInt16) (hasPerfTrace encoding : Bool) : Result Unit :=
  if flags &&& ~~~kKnownFrameFlags ≠ 0 then
    .error ((if encoding then invalid else corruption) "frame contains unknown flag bits")
  else if hasFrameFlag flags .aeadPresent && hasFrameFlag flags .payloadCrcPresent then
    .error ((if encoding then invalid else corruption)
      "AEAD and payload CRC flags are mutually exclusive")
  else if hasFrameFlag flags .perfTraceSampled != hasPerfTrace then
    .error (if encoding then invalid "PERF_TRACE_SAMPLED flag does not match trace data"
      else corruption "noncanonical PERF_TRACE_SAMPLED flag")
  else .ok ()

def validateFrameType (flags : UInt16) (type : FrameType) (encoding : Bool) : Result Unit :=
  if !isValidFrameType type then
    .error (if encoding then invalid "frame type is unknown"
      else corruption "control opcode is unknown")
  else if hasFrameFlag flags .controlFrame != decide (type ≠ .data) then
    .error (if encoding then invalid "CONTROL_FRAME flag does not match frame type"
      else corruption "noncanonical control opcode")
  else .ok ()

section Codec

variable {κ : Type}

variable (cipher : WireAead κ) (limits : WireFrameLimits) (aead : Option (WireAeadKeyring κ))
  (header : WireFrameHeader)

def requireAeadEncodeKey (flags : UInt16) : Result Unit :=
  if !hasFrameFlag flags .aeadPresent then .ok ()
  else if (aead.bind WireAeadKeyring.encodeKey).isNone then
    .error (invalid "AEAD key material is required")
  else .ok ()

def controlLength (flags : UInt16) : Nat :=
  if hasFrameFlag flags .controlFrame then kWireControlOpcodeLength else 0

def aeadOverhead (flags : UInt16) : Nat :=
  if hasFrameFlag flags .aeadPresent then kWireAeadOverhead else 0

/-- `WireFrameCodec::EncodedSize`. -/
def encodedSize (payloadSize : Nat) : Result Nat := do
  validateFlags header.flags header.perfTrace.isSome true
  validateFrameType header.flags header.frameType true
  requireAeadEncodeKey aead header.flags
  if payloadSize > uint32Max - controlLength header.flags - aeadOverhead header.flags then
    .error (resource "wire payload exceeds max_payload_length")
  else
    let wirePayloadLength := payloadSize + controlLength header.flags + aeadOverhead header.flags
    if wirePayloadLength > limits.maxPayloadLength.toNat then
      .error (resource "wire payload exceeds max_payload_length")
    else if wirePayloadLength > uint32Max - canonicalHeaderLength header.flags then
      .error (resource "encoded frame exceeds uint32 length prefix")
    else .ok (canonicalHeaderLength header.flags + wirePayloadLength)

/-! ### Encoding -/

def encodeTrace (trace : PerfTraceContext) : Bytes :=
  encode 8 trace.traceIdHigh.toNat ++ (encode 8 trace.traceIdLow.toNat ++
    (encode 4 trace.sampleFlags.toNat ++ (encode 4 trace.clockDomainId.toNat ++
      (encode 8 trace.originWallTimeNs.toNat ++ encode 8 trace.originMonotonicNs.toNat))))

/-- The header up to its CRC. -/
def encodeBase (wirePayloadLength : Nat) : Bytes :=
  encode 4 kWireFrameMagic ++ (encode 2 kWireProtocolVersion ++ (encode 2 header.flags.toNat ++
    (encode 4 (canonicalHeaderLength header.flags) ++ (encode 4 header.topicId.toNat ++
      (encode 4 header.msgType.toNat ++ (encode 4 header.connectionSchemaRef.toNat ++
        (encode 4 header.schemaVersion.toNat ++ (encode 4 header.layoutVersion.toNat ++
          (encode 8 header.sourceNodeId.toNat ++ (encode 8 header.sourcePublisherId.toNat ++
            (encode 8 header.sourcePublisherEpoch.toNat ++ (encode 8 header.sequenceNum.toNat ++
              (encode 8 header.timestampNs.toNat ++ encode 4 wirePayloadLength)))))))))))))

/-- The optional fields: the slot that the payload CRC and the key id share, and the trace. -/
def encodeOptional (slot : UInt32) : Bytes :=
  (if hasFrameFlag header.flags .payloadCrcPresent || hasFrameFlag header.flags .aeadPresent then
    encode 4 slot.toNat else []) ++ (header.perfTrace.map encodeTrace).getD []

/-- The whole header. Its CRC is that of the header with a CRC of zero. -/
def encodeHeader (wirePayloadLength : Nat) (slot : UInt32) : Bytes :=
  let base := encodeBase header wirePayloadLength
  let optional := encodeOptional header slot
  base ++ (encode 4 (headerCrc (base ++ (encode 4 0 ++ optional))).toNat ++ optional)

def encodeOpcode : Bytes :=
  if hasFrameFlag header.flags .controlFrame then encode 4 header.frameType.code.toNat else []

/-- The canonical header with its CRC bytes zeroed, and the clear opcode. -/
def buildAeadAad (header clearOpcode : Bytes) : Bytes :=
  header.take kHeaderCrcOffset ++ [0, 0, 0, 0] ++ header.drop (kHeaderCrcOffset + 4) ++ clearOpcode

/-- The body of `EncodeWithPrefix`. -/
def encodeBody (frame : WireFrame) : Result Bytes := do
  let _ ← encodedSize limits aead frame.header frame.payload.length
  let flags := frame.header.flags
  let opcode := encodeOpcode frame.header
  let wirePayloadLength := controlLength flags + frame.payload.length + aeadOverhead flags
  if hasFrameFlag flags .aeadPresent then
    match aead.bind WireAeadKeyring.encodeKey with
    | none => .error (invalid "AEAD key material is required")
    | some (keyId, key) =>
      let header := encodeHeader frame.header wirePayloadLength keyId
      let sealed ← cipher.sealWireAead key (buildAeadAad header opcode) frame.payload
      if sealed.length ≠ frame.payload.length + kWireAeadOverhead then
        .error (.error .internal "AEAD sealed length mismatch")
      else .ok (header ++ (opcode ++ sealed))
  else if hasFrameFlag flags .payloadCrcPresent then
    let payloadCrc := crc32cFinish (crc32cUpdate (crc32cUpdate 0xffffffff opcode) frame.payload)
    .ok (encodeHeader frame.header wirePayloadLength payloadCrc ++ (opcode ++ frame.payload))
  else .ok (encodeHeader frame.header wirePayloadLength 0 ++ (opcode ++ frame.payload))

/-- `WireFrameCodec::Encode`. -/
def encodeFrame (frame : WireFrame) : Result Bytes :=
  encodeBody cipher limits aead frame

/-- `WireFrameCodec::EncodeLengthPrefixed`. -/
def encodeLengthPrefixed (frame : WireFrame) : Result Bytes := do
  let body ← encodeBody cipher limits aead frame
  .ok (encode 4 body.length ++ body)

/-! ### Decoding -/

def decodeTrace (input : Bytes) (offset : Nat) : PerfTraceContext where
  traceIdHigh := .ofNat (read input offset 8)
  traceIdLow := .ofNat (read input (offset + 8) 8)
  sampleFlags := .ofNat (read input (offset + 16) 4)
  clockDomainId := .ofNat (read input (offset + 20) 4)
  originWallTimeNs := .ofNat (read input (offset + 24) 8)
  originMonotonicNs := .ofNat (read input (offset + 32) 8)

/-- What `DecodeFrameBody` finds. `body` is the frame body, with the plaintext in the place
of the ciphertext if it was decrypted there; `ownedPlaintext` is a plaintext of its own. -/
structure DecodedFrameParts where
  header : WireFrameHeader
  body : Bytes
  payloadOffset : Nat
  payloadSize : Nat
  ownedPlaintext : Option Bytes

def DecodedFrameParts.payload (parts : DecodedFrameParts) : Bytes :=
  parts.ownedPlaintext.getD ((parts.body.drop parts.payloadOffset).take parts.payloadSize)

/-- The flags and the two lengths of a header that passes the checks in front of the
optional fields. -/
def decodeLengths (body : Bytes) : Result (UInt16 × Nat × Nat) := do
  if body.length > kWireMaximumHeaderLength + limits.maxPayloadLength.toNat then
    .error (resource "frame body exceeds configured maximum")
  else if body.length < kWireBaseHeaderLength then
    .error (corruption "frame is shorter than the base header")
  else if read body kMagicOffset 4 ≠ kWireFrameMagic then
    .error (corruption "frame magic mismatch")
  else if read body kVersionOffset 2 ≠ kWireProtocolVersion then
    .error (unsupported "unsupported wire protocol version")
  else
    let flags := UInt16.ofNat (read body kFlagsOffset 2)
    validateFlags flags (hasFrameFlag flags .perfTraceSampled) false
    let headerLength := read body kHeaderLengthOffset 4
    if headerLength ≠ canonicalHeaderLength flags then
      .error (corruption "noncanonical header_length")
    else if headerLength > body.length then .error (corruption "truncated optional header")
    else if read body kHeaderCrcOffset 4 ≠ (headerCrc (body.take headerLength)).toNat then
      .error (corruption "header CRC32C mismatch")
    else
      let payloadLength := read body kPayloadLengthOffset 4
      if payloadLength > limits.maxPayloadLength.toNat then
        .error (resource "wire payload exceeds max_payload_length")
      else if headerLength + payloadLength ≠ body.length then
        .error (corruption (if headerLength + payloadLength < body.length then
          "trailing bytes after frame payload" else "truncated frame payload"))
      else .ok (flags, headerLength, payloadLength)

/-- Where the optional fields end and the trace they hold. -/
def decodeOptional (body : Bytes) (flags : UInt16) (headerLength : Nat) :
    Result (Option PerfTraceContext) := do
  let slotEnd := kOptionalHeaderOffset +
    if hasFrameFlag flags .payloadCrcPresent || hasFrameFlag flags .aeadPresent then
      kWirePayloadCrcLength else 0
  if !hasFrameFlag flags .payloadCrcPresent && hasFrameFlag flags .aeadPresent &&
      read body kOptionalHeaderOffset 4 == 0 then
    .error (corruption "AEAD key_id must be non-zero")
  else
    let trace := if hasFrameFlag flags .perfTraceSampled then some (decodeTrace body slotEnd) else none
    let optionalEnd := slotEnd +
      if hasFrameFlag flags .perfTraceSampled then kWirePerfTraceContextLength else 0
    if optionalEnd ≠ headerLength then .error (corruption "noncanonical optional header fields")
    else .ok trace

/-- The type of a frame, from the opcode in front of its wire payload. -/
def decodeFrameType (flags : UInt16) (wirePayload : Bytes) : Result FrameType := do
  if hasFrameFlag flags .controlFrame then
    if wirePayload.length < kWireControlOpcodeLength then
      .error (corruption "control payload is missing its opcode")
    else
      let frameType : FrameType := ⟨.ofNat (read wirePayload 0 4)⟩
      validateFrameType flags frameType false
      .ok frameType
  else .ok .data

def decodeHeader (body : Bytes) (flags : UInt16) (frameType : FrameType)
    (trace : Option PerfTraceContext) : WireFrameHeader where
  frameType
  flags
  topicId := .ofNat (read body kTopicIdOffset 4)
  msgType := .ofNat (read body kMsgTypeOffset 4)
  connectionSchemaRef := .ofNat (read body kConnectionSchemaRefOffset 4)
  schemaVersion := .ofNat (read body kSchemaVersionOffset 4)
  layoutVersion := .ofNat (read body kLayoutVersionOffset 4)
  sourceNodeId := .ofNat (read body kSourceNodeIdOffset 8)
  sourcePublisherId := .ofNat (read body kSourcePublisherIdOffset 8)
  sourcePublisherEpoch := .ofNat (read body kSourcePublisherEpochOffset 8)
  sequenceNum := .ofNat (read body kSequenceNumOffset 8)
  timestampNs := .ofNat (read body kTimestampNsOffset 8)
  perfTrace := trace

def decodeFrameBody (inPlace : Bool) (body : Bytes) :
    Result DecodedFrameParts := do
  let (flags, headerLength, payloadLength) ← decodeLengths limits body
  let trace ← decodeOptional body flags headerLength
  let wirePayload := (body.drop headerLength).take payloadLength
  if hasFrameFlag flags .payloadCrcPresent &&
      read body kOptionalHeaderOffset 4 != (crc32c wirePayload).toNat then
    .error (corruption "payload CRC32C mismatch")
  else
    let frameType ← decodeFrameType flags wirePayload
    let header := decodeHeader body flags frameType trace
    let offset := headerLength + controlLength flags
    let size := payloadLength - controlLength flags
    if hasFrameFlag flags .aeadPresent then
      match aead.bind fun ring => ring.findKey (.ofNat (read body kOptionalHeaderOffset 4)) with
      | none => .error (invalid "AEAD key material is required")
      | some key =>
        if size < kWireAeadOverhead then .error (corruption "AEAD sealed payload is truncated")
        else
          let aad := buildAeadAad (body.take headerLength) (wirePayload.take (controlLength flags))
          let plaintext ← cipher.openWireAead key aad (wirePayload.drop (controlLength flags))
          if inPlace then
            let start := offset + kWireAeadNonceLength
            .ok ⟨header, body.take start ++ (plaintext ++ body.drop (start + plaintext.length)),
              start, plaintext.length, none⟩
          else .ok ⟨header, body, offset, size, some plaintext⟩
    else .ok ⟨header, body, offset, size, none⟩

/-- `WireFrameCodec::Decode` of a span. -/
def decode (body : Bytes) : Result WireFrame := do
  let parts ← decodeFrameBody cipher limits aead false body
  .ok ⟨parts.header, parts.payload⟩

/-- `ValidatedWireFrameView`: the payload is a range of the retained body. -/
structure ValidatedWireFrameView where
  header : WireFrameHeader
  body : Bytes
  payloadOffset : Nat
  payloadSize : Nat
  deriving DecidableEq, Repr

namespace ValidatedWireFrameView

def payload (view : ValidatedWireFrameView) : Bytes :=
  (view.body.drop view.payloadOffset).take view.payloadSize

def intoWireFrame (view : ValidatedWireFrameView) : WireFrame :=
  if view.payloadOffset = 0 ∧ view.payloadSize = view.body.length then ⟨view.header, view.body⟩
  else if view.payloadSize = 0 then ⟨view.header, []⟩
  else ⟨view.header, (view.body.drop view.payloadOffset).take view.payloadSize⟩

end ValidatedWireFrameView

/-- `WireFrameCodec::DecodeView`. -/
def decodeView (body : Bytes) : Result ValidatedWireFrameView := do
  let parts ← decodeFrameBody cipher limits aead true body
  match parts.ownedPlaintext with
  | some (byte :: rest) => .ok ⟨parts.header, byte :: rest, 0, (byte :: rest).length⟩
  | _ => .ok ⟨parts.header, parts.body, parts.payloadOffset, parts.payloadSize⟩

/-- `WireFrameCodec::Decode` of a body it owns. -/
def decodeOwned (body : Bytes) : Result WireFrame := do
  let view ← decodeView cipher limits aead body
  .ok view.intoWireFrame

end Codec

end Mino.Wire
