import Mino.Bridge.PipelineSend

/-! # The receiving half of a pipeline

Frames are taken from the connection into the inbound queue and handled from its
front; a frame that cannot be handled yet stays there. A data frame passes the
dedup window, the ingress port and the durable store before it is acknowledged. -/

namespace Mino.Bridge.Pipe

variable {ν : Type}

/-! ### The dedup window and the store -/

/-- Every change of the dedup window; the log says which entries it does not keep. -/
def onDedup (op : DedupWindow.Op) : Pipe ν Unit := .modify fun e => { e with
  dedup := e.dedup.step op
  log := e.log ++ (e.dedup.forgets op).map .forgotten }

variable (frame : DataFrame) (source : SourceIdentity) (nowNs : Nat)

def dedupCheck (sequence nowNs : Nat) : Pipe ν DedupCheckResult := do
  let e ← .get
  onDedup (.check e.options.remoteSessionEpoch source sequence nowNs)
  .ofExcept (e.dedup.check e.options.remoteSessionEpoch source sequence nowNs).1

def dedupPrepare : Pipe ν Unit := do
  let e ← .get
  onDedup (.prepareSource e.options.remoteSessionEpoch source nowNs)
  check (e.dedup.prepareSource e.options.remoteSessionEpoch source nowNs).1

def dedupCommit (sequence nowNs : Nat) : Pipe ν Unit := do
  let e ← .get
  onDedup (.commitAccepted e.options.remoteSessionEpoch source sequence nowNs)
  check (e.dedup.commitAccepted e.options.remoteSessionEpoch source sequence nowNs).1

def dedupSeed (sequence nowNs : Nat) : Pipe ν Unit := do
  let e ← .get
  onDedup (.seedAccepted e.options.remoteSessionEpoch source sequence nowNs)
  check (e.dedup.seedAccepted e.options.remoteSessionEpoch source sequence nowNs).1
  emit (.baseline source sequence)

def recordAccepted (store : DedupStore) (source : SourceIdentity) (highest : Nat) :
    Pipe ν Unit := do
  let e ← .get
  .modify fun e => { e with
    store := some (store.recordAccepted (answer e.script.recordings) source highest).2
    script := { e.script with recordings := e.script.recordings.tail }
    log := e.log ++ [.recorded source highest
      (store.recordAccepted (answer e.script.recordings) source highest).1] }
  check (store.recordAccepted (answer e.script.recordings) source highest).1

def persistDedupAccepted : Option Nat → Pipe ν Unit
  | none => pure ()
  | some highest => do
    let e ← .get
    match e.store with
    | none => pure ()
    | some store => if highest = 0 then pure () else recordAccepted store source highest

/-! ### ACKs -/

/-- The store's mark of the source, zero without a store. -/
def storedMark (e : Endpoint ν) (source : SourceIdentity) : Nat :=
  e.store.elim 0 fun store => store.mark source

def queueAck (ack : AckPayload) : Pipe ν Unit := do
  let e ← .get
  .modify fun e => { e with
    pendingAcks := (e.pendingAcks.queueAck e.options.maxControlFrames ack).2 }
  match (e.pendingAcks.queueAck e.options.maxControlFrames ack).1 with
  | .error status => .fail status
  | .ok .absorbed => emit (.answered ack)
  | .ok .stored => do
    emit (.ackPlaced ack (storedMark e ack.source))
    emit (.answered ack)

def emitAck (header : WireFrameHeader) (state : DedupCheckResult) (disposition : AckDisposition) :
    Pipe ν Unit := do
  let e ← .get
  queueAck ⟨e.options.localSessionEpoch, e.options.remoteSessionEpoch, header.source,
    header.sequenceNum, state.highestContiguousSequence, disposition⟩

/-! ### Data frames -/

/-- The mark the ACK of an accepted frame is going to carry at least. -/
def prospectiveHighest (degradedBaseline : Bool) (highest sequence : Nat) : Nat :=
  if degradedBaseline || (highest != uint64Max && sequence == highest + 1) then sequence
  else highest

/-- A frame beyond the window of a source that is not remembered, at a receiver
that has lost its marks, becomes the new mark of the source. -/
def isDegradedBaseline (e : Endpoint ν) (checked : DedupCheckResult) (source : SourceIdentity) :
    Bool :=
  checked.decision == .nackWithHighest && e.options.localDedupStateLost &&
    checked.highestContiguousSequence.getD 0 == 0 && !e.dedup.hasSource source

/-- Read the mark back after a commit and persist it. -/
def confirm : Pipe ν DedupCheckResult := do
  let committed ← dedupCheck frame.header.source frame.header.sequenceNum nowNs
  persistDedupAccepted frame.header.source committed.highestContiguousSequence
  pure committed

/-- Enter a published frame into the window and persist the new mark. -/
def remember (degradedBaseline : Bool) (nowNs : Nat) :
    Pipe ν DedupCheckResult := do
  if degradedBaseline then do
    dedupSeed frame.header.source frame.header.sequenceNum nowNs
    confirm frame nowNs
  else do
    dedupCommit frame.header.source frame.header.sequenceNum nowNs
    confirm frame nowNs

/-- Publish the frame and remember it before the ACK is written. -/
def acceptData (highest : Nat) (degradedBaseline : Bool) (nowNs : Nat) :
    Pipe ν Unit := do
  let e ← .get
  if !e.pendingAcks.canQueueAck e.options.maxControlFrames
      ⟨e.options.localSessionEpoch, e.options.remoteSessionEpoch, frame.header.source,
        frame.header.sequenceNum,
        some (prospectiveHighest degradedBaseline highest frame.header.sequenceNum),
        .accepted⟩ then
    .fail (.error .wouldBlock "bridge pending ACK queue is full")
  else do
    dedupPrepare frame.header.source nowNs
    decodeValidatePublish frame
    let committed ← remember frame degradedBaseline nowNs
    emitAck frame.header committed .accepted

def handleData : Pipe ν Unit := do
  let e ← .get
  if !frame.header.source.valid then
    .fail (corruption "bridge data source identity is incomplete")
  else if !belongsToLane e.options frame.header.source then
    .fail (corruption "bridge data source belongs to another lane")
  else do
    let checked ← dedupCheck frame.header.source frame.header.sequenceNum nowNs
    let e ← .get
    match checked.decision with
    | .staleSession => .fail (corruption "bridge data belongs to a stale session")
    | .duplicateAccepted => emitAck frame.header checked .accepted
    | .accept => acceptData frame (checked.highestContiguousSequence.getD 0) false nowNs
    | .nackWithHighest =>
      if isDegradedBaseline e checked frame.header.source then
        acceptData frame (checked.highestContiguousSequence.getD 0) true nowNs
      else emitAck frame.header checked .nackWithHighest

/-! ### The inbound queue -/

def retainedBytes : WireFrame → Nat
  | .data frame => retainedFrameBytes frame
  | .control frame => kWireBaseHeaderLength + frame.payloadSize + kWirePayloadCrcLength

def charge (message : Message) : Nat :=
  if message.size ≠ 0 then message.size else retainedBytes message.frame

/-- Take the next message of the batch into the queue. -/
def queuePendingInbound (message : Message) : Pipe ν Unit := do
  let e ← .get
  if e.pendingInbound.length ≥ e.options.maxPendingInboundFrames ∨
      charge message > e.options.maxPendingInboundBytes - e.pendingInboundBytes then
    .fail (exhausted "bridge pending inbound queue is full")
  else
    .modify fun e => { e with
      inbox := e.inbox.tail
      pendingInbound := e.pendingInbound ++ [⟨message.frame, charge message, false⟩]
      pendingInboundBytes := e.pendingInboundBytes + charge message }

/-- The total charge of a batch, if every frame fits into what is left of the bound. -/
def stagedBytes (bound : Nat) : Nat → List DataFrame → Option Nat
  | staged, [] => some staged
  | staged, frame :: rest =>
    if retainedFrameBytes frame > bound - staged then none
    else stagedBytes bound (staged + retainedFrameBytes frame) rest

def stageReadyFrames (frames : List DataFrame) : Pipe ν Unit := do
  let e ← .get
  match stagedBytes e.options.maxPendingInboundBytes 0 frames with
  | none => .fail (exhausted "schema-ready batch exceeds inbound byte bound")
  | some staged =>
    if frames.length > e.options.maxPendingInboundFrames - (e.pendingInbound.length - 1) ∨
        staged > e.options.maxPendingInboundBytes -
          (e.pendingInboundBytes - e.processingInboundWireBytes) then
      .fail (.error .wouldBlock "schema-ready batch exceeds inbound capacity")
    else
      .modify fun e => { e with
        stagedReady := e.stagedReady ++
          frames.map fun frame => ⟨.data frame, retainedFrameBytes frame, true⟩ }

variable [SchemaNegotiator ν]

/-- A data frame whose schema may have to be negotiated first. -/
def handleDataFrame (frame : DataFrame) (nowNs : Nat) : Pipe ν Unit := do
  let e ← .get
  if !frame.header.source.valid then
    .fail (corruption "bridge data source identity is incomplete")
  else if !belongsToLane e.options frame.header.source then
    .fail (corruption "bridge data source belongs to another lane")
  else match e.negotiator with
    | none => handleData frame nowNs
    | some n =>
      if e.pendingSchemaControls.length ≥ e.options.maxControlFrames then
        .fail (.error .wouldBlock "bridge pending schema control queue is full")
      else if (SchemaNegotiator.readyToPublishData n frame.header).ok then handleData frame nowNs
      else if (SchemaNegotiator.readyToPublishData n frame.header).code ≠ .notFound then
        .fail (SchemaNegotiator.readyToPublishData n frame.header)
      else do
        .modify fun e => { e with
          negotiator := some (SchemaNegotiator.handleDataFrame n frame nowNs).2 }
        let negotiated ← .ofExcept (SchemaNegotiator.handleDataFrame n frame nowNs).1
        queueNegotiatedControls negotiated.outboundControlFrames
        match negotiated.readyFrames with
        | [] => pure ()
        | [ready] => handleData ready nowNs
        | _ => .fail (corruption "one data frame resolved to multiple frames")

/-- An announcement may release everything the negotiator has buffered. -/
def hasReservation (e : Endpoint ν) (n : ν) : Bool :=
  decide (SchemaNegotiator.bufferedFrames n ≤
      e.options.maxPendingInboundFrames - (e.pendingInbound.length - 1)) &&
    decide (SchemaNegotiator.bufferedBytes n ≤
      e.options.maxPendingInboundBytes - (e.pendingInboundBytes - e.processingInboundWireBytes))

def handleSchemaControl (control : SchemaControl) (isAnnounce : Bool) (nowNs : Nat) :
    Pipe ν Unit := do
  let e ← .get
  match e.negotiator with
  | none => .fail (corruption "schema control frame has no negotiator")
  | some n =>
    if e.pendingSchemaControls.length ≥ e.options.maxControlFrames then
      .fail (.error .wouldBlock "bridge pending schema control queue is full")
    else if isAnnounce && !hasReservation e n then
      .fail (.error .wouldBlock "schema-ready batch has no inbound reservation")
    else do
      .modify fun e => { e with
        negotiator := some (SchemaNegotiator.handleControlFrame n control nowNs).2 }
      let negotiated ← .ofExcept (SchemaNegotiator.handleControlFrame n control nowNs).1
      queueNegotiatedControls negotiated.outboundControlFrames
      stageReadyFrames negotiated.readyFrames

def handleFrame (frame : WireFrame) (nowNs : Nat) : Pipe ν Unit := do
  match frame with
  | .control (.sessionHello payload) => handleHello payload
  | .control (.sessionKeyShare payload) => handleKeyShare payload
  | frame => do
    let e ← .get
    if !e.sessionReady then .fail (corruption "bridge frame arrived before session handshake")
    else match frame with
      | .control (.ack payload) => handleAck payload
      | .data frame => handleDataFrame frame nowNs
      | .control (.schemaAnnounce payload) =>
        handleSchemaControl (.announce payload) true nowNs
      | .control (.schemaRequest payload) =>
        handleSchemaControl (.request payload) false nowNs
      | .control .heartbeat => pure ()
      | .control _ => .fail (corruption "bridge control frame type is unsupported")

/-- Only data frames are ever queued as resolved. -/
def handleInbound (inbound : PendingInbound) (nowNs : Nat) : Pipe ν Unit :=
  match inbound.schemaResolved, inbound.frame with
  | true, .data frame => handleData frame nowNs
  | _, frame => handleFrame frame nowNs

/-- The handled frame leaves the queue and the frames it released take its place. -/
def finishInbound : Pipe ν Unit := .modify fun e => { e with
  pendingInbound := e.stagedReady ++ e.pendingInbound.tail
  pendingInboundBytes := e.pendingInboundBytes -
    (e.pendingInbound.head?.elim 0 PendingInbound.wireBytes) +
    (e.stagedReady.map PendingInbound.wireBytes).sum
  stagedReady := []
  processingInboundWireBytes := 0
  result := { e.result with madeProgress := true } }

def processFrom (nowNs : Nat) : Nat → Pipe ν Unit
  | 0 => pure ()
  | fuel + 1 => do
    let e ← .get
    match e.pendingInbound with
    | [] => pure ()
    | inbound :: _ => do
      .modify fun e => { e with
        stagedReady := [], processingInboundWireBytes := inbound.wireBytes }
      match ← .attempt (handleInbound inbound nowNs) with
      | .error status => do
        .modify fun e => { e with stagedReady := [], processingInboundWireBytes := 0 }
        if isRetryableIngress status then pure () else .fail status
      | .ok _ => do
        finishInbound
        processFrom nowNs fuel

def processPendingInbound (budget : BridgePumpBudget) : Pipe ν Unit :=
  processFrom budget.nowNs budget.maxInboundFrames

/-! ### The connection -/

def authorizeHeader (header : WireFrameHeader) : Pipe ν Unit := do
  let e ← .get
  match e.options.authenticatedPeer, e.options.topicAuthorizer with
  | none, false => pure ()
  | some node, true =>
    if header.source.nodeId ≠ node then
      .fail (.error .permissionDenied "bridge data source does not match authenticated peer")
    else if header.topicId = 0 then
      .fail (.error .permissionDenied "bridge data topic is zero")
    else authorizeTopic
  | _, _ => .fail (.error .permissionDenied "bridge inbound authorization is incomplete")

def authorizeInboundData : WireFrame → Pipe ν Unit
  | .data frame => authorizeHeader frame.header
  | .control _ => pure ()

def ensureAeadForData (options : BridgePipelineOptions) (aeadReady : Bool) : WireFrame → Status
  | .data frame =>
    if !options.enableAead then .success
    else if !frame.header.flags.aeadPresent then
      corruption "AEAD-enabled bridge received clear data frame"
    else needsAeadKeyring options aeadReady
  | .control _ => .success

def countInbound (size : Nat) : Pipe ν Unit := .modify fun e => { e with
  result := { e.result with
    bytes := e.result.bytes + size
    inboundFrames := e.result.inboundFrames + 1
    madeProgress := true } }

def acceptMessage (message : Message) : Pipe ν Unit := do
  inspectHeader
  authorizeInboundData message.frame
  decodeView
  let e ← .get
  check (ensureAeadForData e.options e.aeadReady message.frame)
  queuePendingInbound message
  countInbound message.size

/-- The rest of a batch is lost when one of its messages is refused. -/
def abandon (count : Nat) : Pipe ν Unit := .modify fun e => { e with
  inbox := e.inbox.drop count
  log := e.log ++ List.replicate count (.discarded e.connectionId) }

def acceptMessages : List Message → Pipe ν Unit
  | [] => pure ()
  | message :: rest => do
    match ← .attempt (acceptMessage message) with
    | .error status => do
      abandon (rest.length + 1)
      .fail status
    | .ok _ => acceptMessages rest

/-- The limits of one poll: messages and bytes. -/
def pollLimits (e : Endpoint ν) (budget : BridgePumpBudget) : Nat × Nat :=
  (min budget.maxInboundFrames
      (min kMaxReceiveBatchMessages (e.options.maxPendingInboundFrames - e.pendingInbound.length)),
    min (min (budget.maxBytes - e.result.bytes)
      (e.options.maxPendingInboundBytes - e.pendingInboundBytes)) kMaxReceiveBatchBytes)

def drainInbound (budget : BridgePumpBudget) : Pipe ν Unit := do
  processPendingInbound budget
  let e ← .get
  if !e.pendingInbound.isEmpty || budget.maxInboundFrames == 0 ||
      decide (e.result.bytes ≥ budget.maxBytes) ||
      e.options.maxPendingInboundFrames - e.pendingInbound.length == 0 ||
      e.options.maxPendingInboundBytes - e.pendingInboundBytes == 0 then pure ()
  else
    match ← .attempt (poll (pollLimits e budget).1 (pollLimits e budget).2) with
    | .error status => stopUnlessBlocked status
    | .ok messages => do
      acceptMessages messages
      processPendingInbound budget

/-! ### Completions -/

/-- A completed operation ends its attempt; a failure on the current connection
stops the session and has the window sent again. -/
def applyCompletion (completion : DeliveryCompletion) : Pipe ν (Option Status) := do
  let e ← .get
  match e.attemptOperations completion.operation with
  | none => pure none
  | some key =>
    match OrderedMap.find e.attempts key with
    | none => do
      .modify fun e => { e with
        attemptOperations := Function.update e.attemptOperations completion.operation none }
      pure none
    | some _ =>
      if !completion.status.ok && completion.operation.connectionId == e.connectionId then do
        .modify fun e => { e with resendPending := true, sessionReady := false }
        removeAttempt key
        pure (some completion.status)
      else do
        removeAttempt key
        pure none

/-- The last failure on the current connection, if there was one. -/
def applyCompletions : List DeliveryCompletion → Status → Pipe ν Status
  | [], failure => pure failure
  | completion :: rest, failure => do
    let failed ← applyCompletion completion
    applyCompletions rest (failed.getD failure)

def countCompletions (count : Nat) : Pipe ν Unit := .modify fun e => { e with
  result := { e.result with
    completions := e.result.completions + count
    madeProgress := e.result.madeProgress || count != 0 } }

def drainCompletionsOf : List ConnectionId → Nat → Status → Pipe ν Unit
  | [], _, failure => check failure
  | _ :: rest, remaining, failure =>
    if remaining = 0 then check failure
    else do
      match ← .attempt pollCompletions with
      | .error status =>
        if isWouldBlock status then drainCompletionsOf rest remaining failure else .fail status
      | .ok completions => do
        let failure ← applyCompletions completions failure
        countCompletions completions.length
        drainCompletionsOf rest (remaining - completions.length) failure

/-- The connections that may report: the current one, then those of the attempts. -/
def completionConnections (e : Endpoint ν) : List ConnectionId :=
  e.attempts.foldl (fun ids p =>
    if p.2.operation.connectionId ∈ ids then ids else ids ++ [p.2.operation.connectionId])
    [e.connectionId]

def drainCompletions (budget : BridgePumpBudget) : Pipe ν Unit := do
  let e ← .get
  if budget.maxCompletions = 0 then pure ()
  else
    drainCompletionsOf (completionConnections e)
      (min budget.maxCompletions kMaxCompletionBatchOperations) .success

end Mino.Bridge.Pipe
