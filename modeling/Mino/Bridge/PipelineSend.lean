import Mino.Bridge.PipelineControl

/-! # The sending half of a pipeline

A reliable frame enters the retransmission window before it is handed to the
driver and stays there until an ACK or the hello of a new session covers it. After
a reconnect the window is sent again in the order in which it holds its frames. -/

namespace Mino.Bridge.Pipe

variable {ν : Type}

/-! ### Send attempts -/

def addAttempt (attempt : Attempt) : Pipe ν Unit := do
  let e ← .get
  if (OrderedMap.find e.attempts attempt.key).isSome then
    .fail (.error .alreadyExists "bridge send attempt already exists")
  else if (e.attemptOperations attempt.operation).isSome then
    .fail (.error .alreadyExists "bridge send operation already exists")
  else
    .modify fun e => { e with
      attempts := OrderedMap.emplace attempt.key attempt e.attempts
      attemptOperations :=
        Function.update e.attemptOperations attempt.operation (some attempt.key) }

def removeAttempt (key : AttemptKey) : Pipe ν Unit := .modify fun e =>
  match OrderedMap.find e.attempts key with
  | none => e
  | some attempt => { e with
      attempts := OrderedMap.erase e.attempts key
      attemptOperations := Function.update e.attemptOperations attempt.operation none }

def findAttempt (e : BridgePipeline ν) (source : SourceIdentity) (sequence : Nat)
    (connectionId : ConnectionId) : Option Attempt :=
  (e.attempts.find? fun p =>
    p.1.source = source ∧ p.1.sequence = sequence ∧ p.1.connectionId = connectionId).map Prod.snd

def retire (key : AttemptKey) : Pipe ν Unit := do
  match ← .attempt confirmRemoteAccepted with
  | .ok _ => removeAttempt key
  | .error status =>
    if status.code ≠ .notFound then .fail status
    else do
      let e ← .get
      if key.connectionId ≠ e.connectionId then pure () else removeAttempt key

def retireAll : List AttemptKey → Pipe ν Unit
  | [] => pure ()
  | key :: rest => do
    retire key
    retireAll rest

variable (e : Endpoint ν) (ack : AckPayload)

/-- The keys of the attempts an ACK covers by its mark. -/
def attemptsThrough : List AttemptKey :=
  (e.attempts.map Prod.fst).filter fun k => k.source = ack.source ∧ k.sequence ≤ ack.highest

def attemptsObserved : List AttemptKey :=
  (e.attempts.map Prod.fst).filter fun k =>
    k.source = ack.source ∧ k.sequence = ack.observedSequence

/-- An accepted ACK of a frame above its own mark. -/
def isSelective : Bool :=
  ack.disposition == .accepted && decide (ack.observedSequence > ack.highest)

def retireAcknowledgedAttempts : Pipe ν Unit := do
  let e ← .get
  .onlyIf ack.highestContiguousSequence.isSome (retireAll (attemptsThrough e ack))
  let e ← .get
  .onlyIf (isSelective ack) (retireAll (attemptsObserved e ack))

/-! ### Reliable frames waiting for their ACK -/

def addPendingReliable (pending : PendingReliable) : Pipe ν Unit := do
  let e ← .get
  if (e.pendingReliable.index pending.key).isSome then
    .fail (.error .alreadyExists "bridge pending reliable frame already exists")
  else
    .modify fun e => { e with
      pendingReliable := e.pendingReliable.push PendingReliable.key pending }

def removePendingReliableAt (index : Nat) : Pipe ν Unit := .modify fun e => { e with
  pendingReliable := e.pendingReliable.removeAt PendingReliable.key index }

/-- Write through the pointer that `FindPendingReliable` returned. -/
def modifyPendingReliable (source : SourceIdentity) (sequence : Nat)
    (f : PendingReliable → PendingReliable) : Pipe ν Unit := .modify fun e =>
  match e.pendingReliable.index (source, sequence) with
  | none => e
  | some index => { e with pendingReliable :=
      { e.pendingReliable with entries := e.pendingReliable.entries.modify index f } }

def removeReliableThrough (source : SourceIdentity) (highest : Nat) : Nat → Pipe ν Unit
  | 0 => pure ()
  | fuel + 1 => do
    let e ← .get
    match (e.pendingReliable.group source).head? with
    | none => pure ()
    | some (sequence, index) =>
      if sequence > highest ∨ (e.retransmit.find source sequence).isSome then pure ()
      else do
        removePendingReliableAt index
        removeReliableThrough source highest fuel

def removeObservedReliable : Pipe ν Unit := do
  let e ← .get
  match e.pendingReliable.index (ack.source, ack.observedSequence) with
  | none => pure ()
  | some index =>
    .onlyIf (e.retransmit.find ack.source ack.observedSequence).isNone
      (removePendingReliableAt index)

def removeAcknowledgedReliable : Pipe ν Unit := do
  let e ← .get
  .onlyIf ack.highestContiguousSequence.isSome
    (removeReliableThrough ack.source ack.highest e.pendingReliable.entries.length)
  .onlyIf (isSelective ack) (removeObservedReliable ack)

def removeRetiredFrom : Nat → Nat → Pipe ν Unit
  | 0, _ => pure ()
  | fuel + 1, i => do
    let e ← .get
    match e.pendingReliable.entries[i]? with
    | none => pure ()
    | some pending =>
      if (e.retransmit.find pending.source pending.sequence).isSome then
        removeRetiredFrom fuel (i + 1)
      else do
        removePendingReliableAt i
        removeRetiredFrom fuel i

def removeRetiredReliable : Pipe ν Unit := do
  let e ← .get
  removeRetiredFrom e.pendingReliable.entries.length 0

/-! ### ACKs and resume marks -/

/-- The frames of a window that are no longer in it afterwards. -/
def dropped (before after : RetransmitWindow) : List RetransmitEntry :=
  before.entries.filter fun r => (after.find r.source r.sequence).isNone

def applyAck : Pipe ν Unit := do
  let e ← .get
  .modify fun e => { e with
    retransmit := (e.retransmit.applyAck ack).2
    log := e.log ++ (dropped e.retransmit (e.retransmit.applyAck ack).2).map fun r =>
      .retired r.source r.sequence }
  match (e.retransmit.applyAck ack).1 with
  | .error status => .fail status
  | .ok _ => pure ()

/-- A negative ACK asks for an attempt of a later frame again. -/
def wantsRetry (attempt : Attempt) : Bool :=
  attempt.source == ack.source && attempt.operation.connectionId == e.connectionId &&
    decide (attempt.sequence > ack.highest) &&
      (e.retransmit.find attempt.source attempt.sequence).isSome

def requestRetries : Pipe ν Unit := .modify fun e => { e with
  attempts := e.attempts.map fun p =>
    if wantsRetry e ack p.2 then (p.1, { p.2 with retryRequested := true }) else p
  resendPending := e.resendPending || e.attempts.any fun p => wantsRetry e ack p.2 }

def handleAck (payload : Result AckPayload) : Pipe ν Unit := do
  let ack ← .ofExcept payload
  let e ← .get
  if !belongsToLane e.options ack.source then
    .fail (corruption "bridge ACK source belongs to another lane")
  else do
    applyAck ack
    removeAcknowledgedReliable ack
    .onlyIf (ack.disposition == .nackWithHighest) (requestRetries ack)
    retireAcknowledgedAttempts ack

/-- A mark of a hello is an ACK without an observed frame. -/
def resumeAck (options : BridgePipelineOptions) (source : SessionHelloSource) : AckPayload :=
  ⟨options.remoteSessionEpoch, options.localSessionEpoch, source.source, 0,
    some source.lastAcceptedSequence, .accepted⟩

def resume : List SessionHelloSource → Pipe ν Unit
  | [] => pure ()
  | source :: rest => do
    let e ← .get
    applyAck (resumeAck e.options source)
    removeAcknowledgedReliable (resumeAck e.options source)
    retireAcknowledgedAttempts (resumeAck e.options source)
    resume rest

def handleHello (payload : Result SessionHello) : Pipe ν Unit := do
  let hello ← .ofExcept payload
  let e ← .get
  if hello.senderSessionEpoch ≠ e.options.remoteSessionEpoch ∨
      hello.receiverSessionEpoch ≠ e.options.localSessionEpoch then
    .fail (corruption "session hello epoch fencing failed")
  else if !hello.sources.all fun s => belongsToLane e.options s.source then
    .fail (corruption "session hello source belongs to another lane")
  else do
    .modify fun e => { e with peerDedupStateLost := hello.dedupStateLost }
    .onlyIf (!hello.dedupStateLost) (resume hello.sources)
    removeRetiredReliable
    .modify fun e => { e with
      resendPending := !e.retransmit.entries.isEmpty
      helloReceived := true }
    updateSessionReady

/-! ### Outbound data -/

variable [SchemaNegotiator ν]

def prepareOutboundDataFlags (options : BridgePipelineOptions) (outbound : EncodedOutboundFrame) :
    EncodedOutboundFrame :=
  if options.enableAead then
    { outbound with frame :=
      { outbound.frame with header := outbound.frame.header.applySessionAeadFlags } }
  else outbound

def setSchemaRef (connectionRef : Nat) (outbound : EncodedOutboundFrame) : EncodedOutboundFrame :=
  { outbound with frame :=
    { outbound.frame with
      header := { outbound.frame.header with connectionSchemaRef := connectionRef } } }

/-- Bind a schema that has no reference on this connection yet and announce it. -/
def bindSchema (n : ν) (identity : SchemaIdentity) (outbound : EncodedOutboundFrame) :
    Pipe ν EncodedOutboundFrame := do
  .modify fun e => { e with
    negotiator := some
      (SchemaNegotiator.bindLocalSchema n identity outbound.descriptorArtifact).2 }
  let announced ←
    .ofExcept (SchemaNegotiator.bindLocalSchema n identity outbound.descriptorArtifact).1
  queueControl (.schemaAnnounce announced.1)
  .modify fun e => { e with
    localSchemaBindings := e.localSchemaBindings ++ [⟨identity, announced.2⟩] }
  pure (setSchemaRef announced.2 outbound)

/-- The frame with its schema reference, and whether an announcement was queued
that has to be flushed first. -/
def prepareSchema (outbound : EncodedOutboundFrame) : Pipe ν (EncodedOutboundFrame × Bool) := do
  let e ← .get
  match e.negotiator with
  | none => pure (outbound, false)
  | some n =>
    match outbound.schemaIdentity with
    | none => .fail (invalid "schema-aware egress omitted full schema identity")
    | some identity =>
      match e.localSchemaBindings.find? fun b => b.identity = identity with
      | some binding => pure (setSchemaRef binding.connectionRef outbound, false)
      | none => do
        let bound ← bindSchema n identity outbound
        pure (bound, true)

def needsAeadKeyring (options : BridgePipelineOptions) (aeadReady : Bool) : Status :=
  if options.enableAead && !aeadReady then
    .error .invalidArgument "AEAD session keyring is not installed"
  else .success

def setOutbound (entry : RetransmitEntry) (outbound : EncodedOutboundFrame) : Pipe ν Unit :=
  modifyPendingReliable entry.source entry.sequence fun p => { p with outbound }

/-- The frame a retained entry is sent as. With a negotiator its logical frame is
bound and encoded anew; nothing comes back when an announcement goes first. -/
def reboundFrame (entry : RetransmitEntry) : Pipe ν (Option (DataFrame × Nat)) := do
  let e ← .get
  match e.negotiator with
  | none => pure (some (entry.frame, entry.frameBytes))
  | some _ =>
    match e.pendingReliable.find (entry.source, entry.sequence) with
    | none => .fail (corruption "schema-aware retransmit omitted logical frame")
    | some pending => do
      let prepared ← prepareSchema pending.outbound
      setOutbound entry prepared.1
      if prepared.2 then pure none
      else do
        setOutbound entry (prepareOutboundDataFlags e.options prepared.1)
        check (needsAeadKeyring e.options e.aeadReady)
        let size ← .ofExcept (WireFrameCodec.encodeData e.options.wireLimits e.aeadReady
          (prepareOutboundDataFlags e.options prepared.1).frame)
        pure (some ((prepareOutboundDataFlags e.options prepared.1).frame, size))

def clearRetry (attempt : Attempt) : Pipe ν Unit := .modify fun e => { e with
  attempts := OrderedMap.assign e.attempts attempt.key { attempt with retryRequested := false } }

def countRetransmission : Pipe ν Unit := .modify fun e => { e with
  result := { e.result with retransmittedFrames := e.result.retransmittedFrames + 1 } }

/-- Hand a retained frame to the driver. A frame that is still attempted on this
connection goes out without a new attempt. -/
def resubmit (entry : RetransmitEntry) (existing : Option Attempt) (frame : DataFrame)
    (size : Nat) : Pipe ν Unit := do
  match existing with
  | some attempt => do
    trySendUntracked (.data frame) size
    clearRetry attempt
  | none => do
    let operation ← trySendOwned frame size
    addAttempt ⟨entry.source, entry.sequence, operation, false⟩

def attemptOf (e : Endpoint ν) (entry : RetransmitEntry) : Option Attempt :=
  findAttempt e.toBridgePipeline entry.source entry.sequence e.connectionId

def wasTransmitted (e : Endpoint ν) (entry : RetransmitEntry) : Bool :=
  (e.pendingReliable.find entry.key).any (·.transmitted)

def markTransmitted (source : SourceIdentity) (sequence : Nat) : Pipe ν Unit :=
  modifyPendingReliable source sequence fun p => { p with transmitted := true }

/-- The budget or the bound on attempts ends the round before this frame. -/
def roundIsFull (e : Endpoint ν) (budget : BridgePumpBudget) (existing : Option Attempt)
    (size : Nat) : Bool :=
  decide (e.result.outboundFrames ≥ budget.maxOutboundFrames) ||
    decide (size > budget.maxBytes - e.result.bytes) ||
    (existing.isNone && decide (e.attempts.length ≥ e.options.retransmit.maxEntries))

/-- One frame of the window; says whether the round goes on. -/
def resendEntry (budget : BridgePumpBudget) (entry : RetransmitEntry) (existing : Option Attempt)
    (retransmission : Bool) : Pipe ν Bool := do
  match ← reboundFrame entry with
  | none => pure false
  | some (frame, size) => do
    let e ← .get
    if roundIsFull e budget existing size then pure false
    else
      match ← .attempt (resubmit entry existing frame size) with
      | .error status => do
        stopUnlessBlocked status
        pure false
      | .ok _ => do
        markTransmitted entry.source entry.sequence
        countOutbound size
        .onlyIf retransmission countRetransmission
        pure true

def resendFrom (budget : BridgePumpBudget) : List RetransmitEntry → Pipe ν Unit
  | [] => .modify fun e => { e with resendPending := false }
  | entry :: rest => do
    let e ← .get
    if (attemptOf e entry).any fun attempt => !attempt.retryRequested then resendFrom budget rest
    else do
      let more ← resendEntry budget entry (attemptOf e entry) (wasTransmitted e entry)
      if more then resendFrom budget rest else pure ()

def resendPending (budget : BridgePumpBudget) : Pipe ν Unit := do
  let e ← .get
  if !e.sessionReady || !e.resendPending then pure ()
  else resendFrom budget e.retransmit.entries

/-- The checks of `SendData` up to the encoding; the frame as it is encoded and its size. -/
def prepareData (outbound : EncodedOutboundFrame) (budget : BridgePumpBudget) :
    Pipe ν (EncodedOutboundFrame × Nat) := do
  let e ← .get
  if outbound.frame.header.frameType ≠ .data then
    .fail (invalid "egress port returned a non-data frame")
  else if !outbound.frame.header.source.valid then
    .fail (invalid "egress source identity is incomplete")
  else if !belongsToLane e.options outbound.frame.header.source then
    .fail (invalid "egress source belongs to another bridge lane")
  else do
    let prepared ← prepareSchema outbound
    if prepared.2 then .fail (.error .wouldBlock "schema announcement must be flushed first")
    else do
      check (needsAeadKeyring e.options e.aeadReady)
      let size ← .ofExcept (WireFrameCodec.encodeData e.options.wireLimits e.aeadReady
        (prepareOutboundDataFlags e.options prepared.1).frame)
      if size > e.options.wireLimits.maxBufferedBytes then
        .fail (exhausted "encoded bridge frame exceeds wire limit")
      else if size > budget.maxBytes - e.result.bytes then
        .fail (.error .wouldBlock "encoded bridge frame exceeds remaining budget")
      else pure (prepareOutboundDataFlags e.options prepared.1, size)

def removePendingReliable (source : SourceIdentity) (sequence : Nat) : Pipe ν Unit := do
  let e ← .get
  match e.pendingReliable.index (source, sequence) with
  | some index => removePendingReliableAt index
  | none => pure ()

/-- Add to the retransmission window, or take the logical frame back out. -/
def retain (frame : DataFrame) (size nowNs : Nat) : Pipe ν Unit := do
  let e ← .get
  if (e.retransmit.add frame.header.source frame.header.sequenceNum frame size nowNs).1.ok then
    .modify fun e => { e with
      retransmit :=
        (e.retransmit.add frame.header.source frame.header.sequenceNum frame size nowNs).2
      log := e.log ++ [.admitted frame.header.source frame.header.sequenceNum] }
  else do
    removePendingReliable frame.header.source frame.header.sequenceNum
    .fail (e.retransmit.add frame.header.source frame.header.sequenceNum frame size nowNs).1

/-- Put a reliable frame into both tables. From here on the pipeline owns it. -/
def admitReliable (outbound : EncodedOutboundFrame) (size nowNs : Nat) : Pipe ν Unit := do
  let e ← .get
  if !e.script.remoteConfirmation then
    .fail (.error .unsupported "reliable Bridge requires remote ACK confirmation")
  else if size > e.options.retransmit.maxBytes then
    .fail (exhausted "encoded frame exceeds retransmit byte limit")
  else if e.attempts.length ≥ e.options.retransmit.maxEntries then
    .fail (.error .wouldBlock "retired send attempts await completion")
  else if e.retransmit.entries.length ≥ e.options.retransmit.maxEntries ∨
      size > e.options.retransmit.maxBytes - e.retransmit.bytes then
    .fail (.error .wouldBlock "retransmit window is full")
  else do
    addPendingReliable
      ⟨outbound.frame.header.source, outbound.frame.header.sequenceNum, outbound, false⟩
    retain outbound.frame size nowNs
    let e ← .get
    if (e.pendingReliable.index
        (outbound.frame.header.source, outbound.frame.header.sequenceNum)).isNone then
      .fail (corruption "admitted reliable frame lost its logical index")
    else pure ()

/-- A frame the driver refuses stays in the window and is sent from there later. -/
def submitReliable (frame : DataFrame) (size : Nat) : Pipe ν Unit := do
  match ← .attempt (trySendOwned frame size) with
  | .error status => do
    .modify fun e => { e with resendPending := true }
    .fail status
  | .ok operation => do
    markTransmitted frame.header.source frame.header.sequenceNum
    addAttempt ⟨frame.header.source, frame.header.sequenceNum, operation, false⟩
    countOutbound size

/-- A status, and whether the pipeline took the frame over from the egress port. -/
def sendData (outbound : EncodedOutboundFrame) (budget : BridgePumpBudget) :
    Pipe ν (Bool × Status) := do
  match ← .attempt (prepareData outbound budget) with
  | .error status => pure (false, status)
  | .ok (outbound, size) =>
    match outbound.reliability with
    | .reliableOrdered =>
      match ← .attempt (admitReliable outbound size budget.nowNs) with
      | .error status => pure (false, status)
      | .ok _ =>
        match ← .attempt (submitReliable outbound.frame size) with
        | .error status => pure (true, status)
        | .ok _ => pure (true, .success)
    | .bestEffort =>
      match ← .attempt (trySendUntracked (.data outbound.frame) size) with
      | .error status =>
        if isWouldBlock status && outbound.allowDrop then pure (true, .success)
        else pure (false, status)
      | .ok _ => do
        countOutbound size
        pure (true, .success)

/-- Every round that goes on has taken a frame from the port, which bounds `fuel`. -/
def pullFrom (budget : BridgePumpBudget) : Nat → Pipe ν Unit
  | 0 => pure ()
  | fuel + 1 => do
    let e ← .get
    if e.result.outboundFrames < budget.maxOutboundFrames ∧ e.result.bytes < budget.maxBytes then
      match ← .attempt tryPeekAndEncode with
      | .error status => stopUnlessBlocked status
      | .ok outbound => do
        let sent ← sendData outbound budget
        .onlyIf sent.1 commitPolled
        if sent.2.ok then pullFrom budget fuel else stopUnlessBlocked sent.2
    else pure ()

def pullOutbound (budget : BridgePumpBudget) : Pipe ν Unit := do
  let e ← .get
  if !e.sessionReady || !e.hasEgress then pure () else pullFrom budget (e.egress.length + 1)

end Mino.Bridge.Pipe
