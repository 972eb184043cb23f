import Mino.Bridge.AckQueue
import Mino.Bridge.DedupRuns
import Mino.Bridge.DedupStore
import Mino.Bridge.RetransmitWindow
import Mino.Lib.Proc

/-! # The state of a bridge pipeline and its ports

A pipeline talks to a transport driver, an egress and an ingress port, a durable
store and, if one is attached, a schema negotiator. The outcomes of the calls to
the outside are read from a script, so a run over every script is a run with every
behaviour of the outside. The negotiator is a component with a state of its own
and is kept abstract. -/

namespace Mino.Bridge

structure SchemaIdentity where
  shortId : Nat
  canonicalDigest : List UInt8
  schemaVersion : Nat
  layoutVersion : Nat
  deriving DecidableEq, Repr

inductive Reliability where
  | bestEffort
  | reliableOrdered
  deriving DecidableEq, Repr

structure EncodedOutboundFrame where
  frame : DataFrame
  reliability : Reliability := .bestEffort
  allowDrop : Bool := false
  schemaIdentity : Option SchemaIdentity := none
  descriptorArtifact : List UInt8 := []
  deriving DecidableEq, Repr

/-- The control frames a negotiator may ask for. -/
inductive SchemaControl where
  | announce (payload : List UInt8)
  | request (payload : List UInt8)
  deriving DecidableEq, Repr

def SchemaControl.frame : SchemaControl → ControlFrame
  | announce payload => .schemaAnnounce payload
  | request payload => .schemaRequest payload

structure SchemaNegotiationResult where
  readyFrames : List DataFrame := []
  outboundControlFrames : List SchemaControl := []
  deriving DecidableEq, Repr

/-- The calls of the pipeline to a schema negotiator. A bound local schema yields
its announcement and the connection reference it carries. -/
class SchemaNegotiator (ν : Type) where
  reset : ν → ν
  readyToPublishData : ν → WireFrameHeader → Status
  handleDataFrame : ν → DataFrame → Nat → Result SchemaNegotiationResult × ν
  handleControlFrame : ν → SchemaControl → Nat → Result SchemaNegotiationResult × ν
  bindLocalSchema : ν → SchemaIdentity → List UInt8 → Result (List UInt8 × Nat) × ν
  confirmControlQueued : ν → List UInt8 → Status × ν
  bufferedFrames : ν → Nat
  bufferedBytes : ν → Nat

abbrev ConnectionId := Nat

def kInvalidConnectionId : ConnectionId := 0
def kMaxReceiveBatchMessages : Nat := 1024
def kMaxCompletionBatchOperations : Nat := 1024
def kMaxReceiveBatchBytes : Nat := 64 * 1024 * 1024
def uint64Max : Nat := 2 ^ 64 - 1

structure SendOperation where
  id : Nat
  connectionId : ConnectionId
  deriving DecidableEq, Repr

structure DeliveryCompletion where
  operation : SendOperation
  status : Status
  deriving DecidableEq, Repr

/-- `authenticatedPeer` is the node of a completely authenticated peer. -/
structure BridgePipelineOptions where
  localSessionEpoch : Nat
  remoteSessionEpoch : Nat
  localDedupStateLost : Bool := false
  maxControlFrames : Nat := 1024
  maxControlBytes : Nat := 256 * 1024
  maxPendingInboundFrames : Nat := 1024
  maxPendingInboundBytes : Nat := 64 * 1024 * 1024
  wireLimits : WireFrameLimits := {}
  dedup : DedupWindowOptions := {}
  retransmit : RetransmitWindowOptions := {}
  laneIndex : Nat := 0
  laneCount : Nat := 1
  authenticatedPeer : Option UInt64 := none
  topicAuthorizer : Bool := false
  enableAead : Bool := false
  aeadPsk : List UInt8 := []
  deriving DecidableEq, Repr

structure BridgePumpBudget where
  maxCompletions : Nat := 64
  maxInboundFrames : Nat := 64
  maxOutboundFrames : Nat := 64
  maxBytes : Nat := 4 * 1024 * 1024
  nowNs : Nat := 0
  deriving DecidableEq, Repr

structure BridgePumpResult where
  completions : Nat := 0
  inboundFrames : Nat := 0
  outboundFrames : Nat := 0
  retransmittedFrames : Nat := 0
  bytes : Nat := 0
  madeProgress : Bool := false
  deriving DecidableEq, Repr

structure Attempt where
  source : SourceIdentity
  sequence : Nat
  operation : SendOperation
  retryRequested : Bool := false
  deriving DecidableEq, Repr

structure AttemptKey where
  source : SourceIdentity
  sequence : Nat
  connectionId : ConnectionId
  operationId : Nat
  deriving DecidableEq, Repr

def AttemptKey.less (left right : AttemptKey) : Bool :=
  if left.source ≠ right.source then left.source.less right.source
  else if left.sequence ≠ right.sequence then left.sequence < right.sequence
  else if left.connectionId ≠ right.connectionId then left.connectionId < right.connectionId
  else left.operationId < right.operationId

instance : LT AttemptKey := ⟨fun left right => left.less right = true⟩

instance : DecidableLT AttemptKey := fun left right =>
  inferInstanceAs (Decidable (left.less right = true))

def Attempt.key (a : Attempt) : AttemptKey :=
  ⟨a.source, a.sequence, a.operation.connectionId, a.operation.id⟩

structure PendingInbound where
  frame : WireFrame
  wireBytes : Nat
  schemaResolved : Bool := false

structure PendingReliable where
  source : SourceIdentity
  sequence : Nat
  outbound : EncodedOutboundFrame
  transmitted : Bool := false
  deriving DecidableEq, Repr

def PendingReliable.key (p : PendingReliable) : SourceIdentity × Nat := (p.source, p.sequence)

structure LocalSchemaBinding where
  identity : SchemaIdentity
  connectionRef : Nat
  deriving DecidableEq, Repr

structure BridgePipeline (ν : Type) where
  options : BridgePipelineOptions
  connectionId : ConnectionId
  hasEgress : Bool
  negotiator : Option ν
  dedup : DedupWindow
  retransmit : RetransmitWindow
  controlQueue : List (ControlFrame × Nat) := []
  controlBytes : Nat := 0
  pendingAcks : AckQueue := {}
  pendingSchemaControls : List SchemaControl := []
  pendingInbound : List PendingInbound := []
  stagedReady : List PendingInbound := []
  pendingInboundBytes : Nat := 0
  processingInboundWireBytes : Nat := 0
  pendingReliable : SwapTable PendingReliable SourceIdentity := {}
  localSchemaBindings : List LocalSchemaBinding := []
  attempts : List (AttemptKey × Attempt) := []
  attemptOperations : SendOperation → Option AttemptKey := fun _ => none
  helloSent : Bool := false
  helloReceived : Bool := false
  sessionReady : Bool := false
  peerDedupStateLost : Bool := false
  resendPending : Bool := false
  aeadReady : Bool := false
  keyShareSent : Bool := false
  keyShareReceived : Bool := false
  localKeyShareNonce : Option (List UInt8) := none

/-- What an observer of the ports sees, in order. -/
inductive Event where
  /-- `DecodeValidatePublish` returned OK. -/
  | published (source : SourceIdentity) (sequence : Nat)
  /-- A frame beyond the window was taken as the new mark of its source. -/
  | baseline (source : SourceIdentity) (sequence : Nat)
  /-- The dedup window lost or overwrote its entry of the source. -/
  | forgotten (source : SourceIdentity)
  /-- A data frame was disposed of with this answer. -/
  | answered (ack : AckPayload)
  /-- An ACK was written into the pending queue; the store's mark of its source then. -/
  | ackPlaced (ack : AckPayload) (stored : Nat)
  | recorded (source : SourceIdentity) (highest : Nat) (status : Status)
  /-- A reliable frame entered the retransmission window. -/
  | admitted (source : SourceIdentity) (sequence : Nat)
  /-- A frame left the retransmission window because of an ACK or a resume mark. -/
  | retired (source : SourceIdentity) (sequence : Nat)
  /-- A frame left the retransmission window because of its age. -/
  | expired (source : SourceIdentity) (sequence : Nat)
  /-- The driver took a data frame for the connection. -/
  | transmitted (connection : ConnectionId) (source : SourceIdentity) (sequence : Nat)
  /-- A received message was dropped because its batch was abandoned. -/
  | discarded (connection : ConnectionId)
  /-- A pipeline was made for a connection, with a negotiator or without. -/
  | created (connection : ConnectionId) (negotiating : Bool)
  /-- The pipeline moved to a connection. -/
  | rebound (connection : ConnectionId)
  /-- A frame was offered at the egress port. -/
  | offered (source : SourceIdentity) (sequence : Nat) (reliability : Reliability)
  deriving DecidableEq, Repr

/-- Outcomes of the calls to the outside, each list consumed call by call; past its
end a list answers OK (and a poll for completions answers that there are none).
`polls` bounds the messages one poll of the connection yields. -/
structure Script where
  sends : List (Result Nat) := []
  untracked : List Status := []
  completions : List (Result (List DeliveryCompletion)) := []
  polls : List (Result Nat) := []
  inspections : List Status := []
  decodings : List Status := []
  confirmations : List Status := []
  closes : List Status := []
  publications : List Status := []
  recordings : List Status := []
  peeks : List Status := []
  authorizations : List Status := []
  keyShares : List (Result SessionKeyShare) := []
  keyVerifications : List Status := []
  remoteConfirmation : Bool := true

structure Message where
  frame : WireFrame
  size : Nat

structure Sent where
  connection : ConnectionId
  message : Message

/-- The outside of one pipeline: what its connection still holds for it, what it has
handed to the driver, the frames waiting at its egress port and the durable store. -/
structure Outside where
  inbox : List Message := []
  outbox : List Sent := []
  egress : List EncodedOutboundFrame := []
  store : Option DedupStore := none
  nextOperation : Nat := 1
  script : Script := {}
  log : List Event := []

structure Endpoint (ν : Type) extends BridgePipeline ν, Outside where
  result : BridgePumpResult := {}

/-- A member function of the pipeline: a status other than OK is a failure. -/
abbrev Pipe (ν : Type) (α : Type) := Proc (Endpoint ν) Status α

namespace Pipe

variable {ν : Type}

variable (frame : WireFrame) (status : Status) (message : String)

def invalid : Status := .error .invalidArgument message
def corruption : Status := .error .corruption message
def exhausted : Status := .error .resourceExhausted message

def isWouldBlock : Bool :=
  status.code == .wouldBlock || status.code == .timeout

def isRetryableIngress : Bool :=
  status.code == .wouldBlock || status.code == .timeout || status.code == .resourceExhausted ||
    status.code == .unavailable || status.code == .degraded

/-- `MINO_RETURN_IF_ERROR` of a plain status. -/
def check : Pipe ν Unit := if status.ok then pure () else .fail status

def emit (event : Event) : Pipe ν Unit := .modify fun e => { e with log := e.log ++ [event] }

/-- The status of a call that answers with the head of its script. -/
def answer (script : List Status) : Status := script.head?.getD .success

def validLane (laneIndex laneCount : Nat) : Bool :=
  laneCount != 0 && decide (laneCount ≤ kMaxBridgeLaneCount) && decide (laneIndex < laneCount)

def belongsToLane (options : BridgePipelineOptions) (source : SourceIdentity) : Bool :=
  source.bridgeLaneFor options.laneCount == options.laneIndex

/-! ### The transport driver -/

def record : Pipe ν Unit :=
  match frame with
  | .data f => do
    let e ← .get
    emit (.transmitted e.connectionId f.header.source f.header.sequenceNum)
  | .control _ => pure ()

def put (size : Nat) : Pipe ν Unit := do
  .modify fun e => { e with outbox := e.outbox ++ [⟨e.connectionId, frame, size⟩] }
  record frame

/-- `Send` and `TrySendOwned`: the driver takes the frame and names the operation. -/
def trySendOwned (frame : DataFrame) (size : Nat) : Pipe ν SendOperation := do
  let e ← .get
  let outcome := e.script.sends.head?.getD (.ok e.nextOperation)
  .modify fun e => { e with
    script := { e.script with sends := e.script.sends.tail }
    nextOperation := e.nextOperation + 1 }
  match outcome with
  | .error status => .fail status
  | .ok id => do
    put (.data frame) size
    pure ⟨id, e.connectionId⟩

/-- `SendUntracked` and `TrySendUntrackedOwned`. -/
def trySendUntracked (size : Nat) : Pipe ν Unit := do
  let e ← .get
  .modify fun e => { e with script := { e.script with untracked := e.script.untracked.tail } }
  check (answer e.script.untracked)
  put frame size

def pollCompletions : Pipe ν (List DeliveryCompletion) := do
  let e ← .get
  .modify fun e => { e with script := { e.script with completions := e.script.completions.tail } }
  .ofExcept (e.script.completions.head?.getD (.error (.error .wouldBlock "")))

def confirmRemoteAccepted : Pipe ν Unit := do
  let e ← .get
  .modify fun e =>
    { e with script := { e.script with confirmations := e.script.confirmations.tail } }
  check (answer e.script.confirmations)

def close : Pipe ν Unit := do
  let e ← .get
  .modify fun e => { e with script := { e.script with closes := e.script.closes.tail } }
  check (answer e.script.closes)

/-- The messages of one batch: a front part of the inbox within both limits. -/
def within (maxMessages maxBytes : Nat) : List Message → List Message
  | [] => []
  | m :: rest =>
    match maxMessages with
    | 0 => []
    | maxMessages + 1 =>
      if m.size ≤ maxBytes then m :: within maxMessages (maxBytes - m.size) rest else []

/-- `Poll` of the connection. The batch it hands over leaves the inbox message by
message, when the pipeline queues or abandons it. -/
def poll (maxMessages maxBytes : Nat) : Pipe ν (List Message) := do
  let e ← .get
  .modify fun e => { e with script := { e.script with polls := e.script.polls.tail } }
  match e.script.polls.head?.getD (.ok maxMessages) with
  | .error status => .fail status
  | .ok count =>
    if (within (min count maxMessages) maxBytes e.inbox).isEmpty then
      .fail (.error .wouldBlock "")
    else pure (within (min count maxMessages) maxBytes e.inbox)

/-! ### The other ports -/

def inspectHeader : Pipe ν Unit := do
  let e ← .get
  .modify fun e => { e with script := { e.script with inspections := e.script.inspections.tail } }
  check (answer e.script.inspections)

def decodeView : Pipe ν Unit := do
  let e ← .get
  .modify fun e => { e with script := { e.script with decodings := e.script.decodings.tail } }
  check (answer e.script.decodings)

def authorizeTopic : Pipe ν Unit := do
  let e ← .get
  .modify fun e =>
    { e with script := { e.script with authorizations := e.script.authorizations.tail } }
  check (answer e.script.authorizations)

/-- `DecodeValidatePublish` of the ingress port. -/
def decodeValidatePublish (frame : DataFrame) : Pipe ν Unit := do
  let e ← .get
  .modify fun e =>
    { e with script := { e.script with publications := e.script.publications.tail } }
  check (answer e.script.publications)
  emit (.published frame.header.source frame.header.sequenceNum)

/-- `TryPeekAndEncode` of the egress port. -/
def tryPeekAndEncode : Pipe ν EncodedOutboundFrame := do
  let e ← .get
  .modify fun e => { e with script := { e.script with peeks := e.script.peeks.tail } }
  check (answer e.script.peeks)
  match e.egress.head? with
  | none => .fail (.error .wouldBlock "")
  | some outbound => pure outbound

def commitPolled : Pipe ν Unit := .modify fun e => { e with egress := e.egress.tail }

end Pipe

end Mino.Bridge
