import Mino.Bridge.PipelineState

/-! # Control traffic of a pipeline

Queues of control frames and ACKs, the session hello, and the key exchange. -/

namespace Mino.Bridge.Pipe

variable {ν : Type}

def queueControl (frame : ControlFrame) : Pipe ν Unit := do
  let e ← .get
  let size ← .ofExcept (WireFrameCodec.encodeControl e.options.wireLimits frame)
  if e.controlQueue.length ≥ e.options.maxControlFrames ∨
      size > e.options.maxControlBytes - e.controlBytes then
    .fail (exhausted "bridge control queue is full")
  else
    .modify fun e => { e with
      controlBytes := e.controlBytes + size
      controlQueue := e.controlQueue ++ [(frame, size)] }

def queueNegotiatedControls : List SchemaControl → Pipe ν Unit
  | [] => pure ()
  | control :: rest => do
    let e ← .get
    if control ∈ e.pendingSchemaControls then queueNegotiatedControls rest
    else if e.pendingSchemaControls.length ≥ e.options.maxControlFrames then
      .fail (.error .wouldBlock "bridge pending schema control queue is full")
    else do
      .modify fun e => { e with pendingSchemaControls := e.pendingSchemaControls ++ [control] }
      queueNegotiatedControls rest

/-- The last control frame is taken back out of the queue. -/
def popControl : Pipe ν Unit := .modify fun e => { e with
  controlBytes := e.controlBytes - (e.controlQueue.getLast?.map Prod.snd).getD 0
  controlQueue := e.controlQueue.dropLast }

def dropSchemaControl : Pipe ν Unit := .modify fun e => { e with
  pendingSchemaControls := e.pendingSchemaControls.tail }

variable [SchemaNegotiator ν]

def confirmControlQueued (payload : List UInt8) : Pipe ν Status := do
  let e ← .get
  match e.negotiator with
  | none => pure .success
  | some n => do
    let (status, n) := SchemaNegotiator.confirmControlQueued n payload
    .modify fun e => { e with negotiator := some n }
    pure status

def admitNegotiatedControls : Nat → Pipe ν Unit
  | 0 => pure ()
  | fuel + 1 => do
    let e ← .get
    match e.pendingSchemaControls with
    | [] => pure ()
    | control :: _ =>
      match ← .attempt (queueControl control.frame) with
      | .error status => if status.code = .resourceExhausted then pure () else .fail status
      | .ok _ =>
        match control with
        | .request payload => do
          let confirmed ← confirmControlQueued payload
          if confirmed.ok then do
            dropSchemaControl
            admitNegotiatedControls fuel
          else do
            popControl
            if confirmed.code = .invalidArgument then do
              dropSchemaControl
              admitNegotiatedControls fuel
            else .fail confirmed
        | .announce _ => do
          dropSchemaControl
          admitNegotiatedControls fuel

/-- The marks of the dedup window as the entries of a hello. -/
def helloSources (options : BridgePipelineOptions) :
    List DedupResumeEntry → Result (List SessionHelloSource)
  | [] => .ok []
  | entry :: rest =>
    if !belongsToLane options entry.source then
      .error (corruption "bridge dedup snapshot contains a source from another lane")
    else match helloSources options rest with
      | .error status => .error status
      | .ok sources => .ok (⟨entry.source, entry.highestContiguousSequence⟩ :: sources)

def queueSessionHello : Pipe ν Unit := do
  let e ← .get
  let sources ← .ofExcept (helloSources e.options e.dedup.snapshotAccepted)
  let frame ← .ofExcept (ControlPayloadCodec.encodeSessionHello {}
    ⟨e.options.localSessionEpoch, e.options.remoteSessionEpoch, e.options.localDedupStateLost,
      sources⟩)
  queueControl frame

/-- The key exchange is outside: the script yields the local share. -/
def queueSessionKeyShare : Pipe ν Unit := do
  let e ← .get
  if !e.options.enableAead || e.options.aeadPsk.isEmpty then
    .fail (invalid "SessionKeyShare requires enable_aead and PSK")
  else do
    .modify fun e => { e with script := { e.script with keyShares := e.script.keyShares.tail } }
    let share ← .ofExcept (e.script.keyShares.head?.getD (.ok ⟨[]⟩))
    .modify fun e => { e with localKeyShareNonce := some share.nonce }
    queueControl (.sessionKeyShare (.ok share))
    .modify fun e => { e with keyShareSent := true }

def updateSessionReady : Pipe ν Unit := .modify fun e => { e with
  sessionReady := e.helloSent && e.helloReceived && (!e.options.enableAead || e.aeadReady) }

/-- Verification and derivation are outside: the script yields their status. -/
def handleKeyShare (payload : Result SessionKeyShare) : Pipe ν Unit := do
  let e ← .get
  if !e.options.enableAead || e.options.aeadPsk.isEmpty then
    .fail (corruption "unexpected SessionKeyShare without AEAD PSK")
  else do
    let _ ← .ofExcept payload
    .modify fun e =>
      { e with script := { e.script with keyVerifications := e.script.keyVerifications.tail } }
    check (answer e.script.keyVerifications)
    if e.localKeyShareNonce.isNone then
      .fail (corruption "local SessionKeyShare nonce is missing")
    else do
      .modify fun e => { e with aeadReady := true, keyShareReceived := true }
      updateSessionReady

/-- Account a frame the driver has taken. -/
def countOutbound (size : Nat) : Pipe ν Unit := .modify fun e => { e with
  result := { e.result with
    bytes := e.result.bytes + size
    outboundFrames := e.result.outboundFrames + 1
    madeProgress := true } }

/-- A driver that would block ends the round without an error. -/
def stopUnlessBlocked (status : Status) : Pipe ν Unit :=
  if isWouldBlock status then pure () else .fail status

def flushAcks (budget : BridgePumpBudget) : Nat → Pipe ν Unit
  | 0 => pure ()
  | fuel + 1 => do
    let e ← .get
    match e.pendingAcks.acks with
    | [] => pure ()
    | (node, ack) :: _ =>
      if e.result.outboundFrames < budget.maxOutboundFrames then do
        let frame ← .ofExcept (ControlPayloadCodec.encodeAck ack)
        let size ← .ofExcept (WireFrameCodec.encodeControl e.options.wireLimits frame)
        if size > budget.maxBytes - e.result.bytes then pure ()
        else
          match ← .attempt (trySendUntracked (.control frame) size) with
          | .error status => stopUnlessBlocked status
          | .ok _ => do
            countOutbound size
            .modify fun e => { e with pendingAcks := e.pendingAcks.removePendingAck node }
            flushAcks budget fuel
      else pure ()

def flushControlQueue (budget : BridgePumpBudget) : Nat → Pipe ν Unit
  | 0 => updateSessionReady
  | fuel + 1 => do
    let e ← .get
    match e.controlQueue with
    | [] => updateSessionReady
    | (frame, size) :: _ =>
      if e.result.outboundFrames < budget.maxOutboundFrames ∧
          ¬ size > budget.maxBytes - e.result.bytes then
        match ← .attempt (trySendUntracked (.control frame) size) with
        | .error status => stopUnlessBlocked status
        | .ok _ => do
          countOutbound size
          .modify fun e => { e with
            controlBytes := e.controlBytes - size
            controlQueue := e.controlQueue.tail
            helloSent := true }
          flushControlQueue budget fuel
      else updateSessionReady

def flushPendingAcks (budget : BridgePumpBudget) : Pipe ν Unit := do
  let e ← .get
  flushAcks budget e.pendingAcks.acks.length

def flushControls (budget : BridgePumpBudget) : Pipe ν Unit := do
  let e ← .get
  flushControlQueue budget e.controlQueue.length

def admitControls : Pipe ν Unit := do
  let e ← .get
  admitNegotiatedControls e.pendingSchemaControls.length

end Mino.Bridge.Pipe
