import Mino.Bridge.SourceIdentity

/-! # Frames on a bridge connection

The logical frames two bridges exchange, with the sizes the codec gives them. A
frame is kept as the value that was encoded: a transport delivers whole frames,
so only the size of an encoding and the conditions under which encoding fails
matter here. A control frame that arrives may carry a payload the control codec
rejects; its payload is then the error of the decoder. -/

namespace Mino.Bridge

inductive AckDisposition where
  | accepted
  | nackWithHighest
  deriving DecidableEq, Repr

structure AckPayload where
  senderSessionEpoch : Nat
  receiverSessionEpoch : Nat
  source : SourceIdentity
  observedSequence : Nat
  highestContiguousSequence : Option Nat
  disposition : AckDisposition
  deriving DecidableEq, Repr

namespace AckPayload

/-- The cumulative mark, zero when the payload carries none. -/
def highest (ack : AckPayload) : Nat := ack.highestContiguousSequence.getD 0

/-- What the sender may drop: the cumulative prefix, and the observed frame of an
accepted ACK. -/
def covers (ack : AckPayload) (source : SourceIdentity) (sequence : Nat) : Bool :=
  ack.source == source &&
    ((ack.highestContiguousSequence.isSome && decide (sequence ≤ ack.highest)) ||
      (ack.disposition == .accepted && decide (ack.highest < ack.observedSequence) &&
        sequence == ack.observedSequence))

end AckPayload

structure SessionHelloSource where
  source : SourceIdentity
  lastAcceptedSequence : Nat
  deriving DecidableEq, Repr

structure SessionHello where
  senderSessionEpoch : Nat
  receiverSessionEpoch : Nat
  dedupStateLost : Bool
  sources : List SessionHelloSource
  deriving DecidableEq, Repr

/-- The nonce stands for the whole share; its MAC is checked by the key exchange. -/
structure SessionKeyShare where
  nonce : List UInt8
  deriving DecidableEq, Repr

inductive FrameType where
  | data
  | schemaAnnounce
  | schemaRequest
  | ack
  | heartbeat
  | sessionHello
  | sessionDiscovery
  | sessionKeyShare
  deriving DecidableEq, Repr

/-- The flags of a data frame; `CONTROL_FRAME` is the frame type itself. -/
structure FrameFlags where
  payloadCrcPresent : Bool := false
  aeadPresent : Bool := false
  compressed : Bool := false
  perfTraceSampled : Bool := false
  deriving DecidableEq, Repr

structure WireFrameHeader where
  frameType : FrameType := .data
  flags : FrameFlags := {}
  topicId : Nat := 0
  msgType : Nat := 0
  connectionSchemaRef : Nat := 0
  schemaVersion : Nat := 0
  layoutVersion : Nat := 0
  source : SourceIdentity
  sequenceNum : Nat
  timestampNs : Nat := 0
  perfTrace : Bool := false
  deriving DecidableEq, Repr

structure DataFrame where
  header : WireFrameHeader
  payload : List UInt8 := []
  deriving DecidableEq, Repr

inductive ControlFrame where
  | schemaAnnounce (payload : List UInt8)
  | schemaRequest (payload : List UInt8)
  | ack (payload : Result AckPayload)
  | heartbeat
  | sessionHello (payload : Result SessionHello)
  | sessionDiscovery
  | sessionKeyShare (payload : Result SessionKeyShare)

inductive WireFrame where
  | data (frame : DataFrame)
  | control (frame : ControlFrame)

def kWireBaseHeaderLength : Nat := 80
def kWirePayloadCrcLength : Nat := 4
def kWireControlOpcodeLength : Nat := 4
def kWirePerfTraceContextLength : Nat := 40
def kWireAeadOverhead : Nat := 28
def kAckPayloadWireSize : Nat := 64
def kSessionHelloHeaderWireSize : Nat := 24
def kSessionHelloEntryWireSize : Nat := 32
def kSessionKeyShareWireSize : Nat := 68
def uint32Max : Nat := 2 ^ 32 - 1

structure WireFrameLimits where
  maxPayloadLength : Nat := 16 * 1024 * 1024
  maxBufferedBytes : Nat := 4 + 124 + 16 * 1024 * 1024
  deriving DecidableEq, Repr

structure ControlPayloadLimits where
  maxHelloSources : Nat := 4096
  maxHelloPayloadBytes : Nat := 256 * 1024
  deriving DecidableEq, Repr

namespace ControlFrame

def payloadSize : ControlFrame → Nat
  | schemaAnnounce payload | schemaRequest payload => payload.length
  | ack _ => kAckPayloadWireSize
  | heartbeat => 0
  | sessionHello (.ok hello) =>
    kSessionHelloHeaderWireSize + hello.sources.length * kSessionHelloEntryWireSize
  | sessionHello (.error _) | sessionDiscovery => 0
  | sessionKeyShare _ => kSessionKeyShareWireSize

end ControlFrame

namespace WireFrameCodec

def canonicalHeaderLength (flags : FrameFlags) : Nat :=
  kWireBaseHeaderLength +
    (if flags.payloadCrcPresent || flags.aeadPresent then kWirePayloadCrcLength else 0) +
    (if flags.perfTraceSampled then kWirePerfTraceContextLength else 0)

def validateFlags (flags : FrameFlags) (hasPerfTrace : Bool) : Status :=
  if flags.aeadPresent && flags.payloadCrcPresent then
    .error .invalidArgument "AEAD and payload CRC flags are mutually exclusive"
  else if flags.perfTraceSampled != hasPerfTrace then
    .error .invalidArgument "PERF_TRACE_SAMPLED flag does not match trace data"
  else .success

/-- The size of a frame body with the given flags, control prefix and payload. -/
def encodedSizeOf (limits : WireFrameLimits) (flags : FrameFlags) (hasPerfTrace aeadKey : Bool)
    (controlLength payloadSize : Nat) : Result Nat :=
  let validation := validateFlags flags hasPerfTrace
  if !validation.ok then .error validation
  else if flags.aeadPresent && !aeadKey then
    .error (.error .invalidArgument "AEAD key material is required")
  else
    let overhead := if flags.aeadPresent then kWireAeadOverhead else 0
    if payloadSize > uint32Max - controlLength - overhead ∨
        payloadSize + controlLength + overhead > limits.maxPayloadLength then
      .error (.error .resourceExhausted "wire payload exceeds max_payload_length")
    else if payloadSize + controlLength + overhead > uint32Max - canonicalHeaderLength flags then
      .error (.error .resourceExhausted "encoded frame exceeds uint32 length prefix")
    else .ok (canonicalHeaderLength flags + (payloadSize + controlLength + overhead))

/-- A data frame needs a key exactly when its AEAD flag is set. A header of another
type has no `CONTROL_FRAME` flag and is refused. -/
def encodeData (limits : WireFrameLimits) (aeadKey : Bool) (frame : DataFrame) : Result Nat :=
  if frame.header.frameType ≠ .data then
    .error (.error .invalidArgument "CONTROL_FRAME flag does not match frame type")
  else
    encodedSizeOf limits frame.header.flags frame.header.perfTrace aeadKey 0 frame.payload.length

/-- Control frames carry a payload CRC and are never sealed. -/
def encodeControl (limits : WireFrameLimits) (frame : ControlFrame) : Result Nat :=
  encodedSizeOf limits { payloadCrcPresent := true } false false kWireControlOpcodeLength
    frame.payloadSize

end WireFrameCodec

namespace ControlPayloadCodec

def encodeAck (payload : AckPayload) : Result ControlFrame :=
  if payload.disposition = .nackWithHighest ∧ payload.highestContiguousSequence = none then
    .error (.error .invalidArgument "NACK_WITH_HIGHEST requires highest sequence")
  else .ok (.ack (.ok payload))

def encodeSessionHello (limits : ControlPayloadLimits) (hello : SessionHello) :
    Result ControlFrame :=
  if hello.sources.length > limits.maxHelloSources then
    .error (.error .resourceExhausted "session hello source count exceeds limit")
  else if limits.maxHelloPayloadBytes < kSessionHelloHeaderWireSize then
    .error (.error .resourceExhausted "session hello payload limit is too small")
  else if hello.sources.length >
      (limits.maxHelloPayloadBytes - kSessionHelloHeaderWireSize) / kSessionHelloEntryWireSize then
    .error (.error .resourceExhausted "session hello payload exceeds byte limit")
  else if hello.senderSessionEpoch = 0 ∨ hello.receiverSessionEpoch = 0 then
    .error (.error .invalidArgument "session hello epochs must be nonzero")
  else if ¬ (hello.sources.map SessionHelloSource.source).Nodup then
    .error (.error .invalidArgument "session hello contains a duplicate source")
  else .ok (.sessionHello (.ok hello))

end ControlPayloadCodec

namespace WireFrameHeader

def applySessionAeadFlags (header : WireFrameHeader) : WireFrameHeader :=
  { header with flags := { header.flags with payloadCrcPresent := false, aeadPresent := true } }

end WireFrameHeader

/-- `RetainedFrameBytes`: the charge of a frame whose wire size is not known. -/
def retainedFrameBytes (frame : DataFrame) : Nat :=
  kWireBaseHeaderLength + frame.payload.length +
    (if frame.header.perfTrace then kWirePerfTraceContextLength else 0) +
    (if frame.header.flags.payloadCrcPresent then kWirePayloadCrcLength else 0)

end Mino.Bridge
