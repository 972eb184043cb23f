import Mino.Bridge.PipelineReceive

/-! # A bridge pipeline

`pump` is one bounded round of work; `rebindConnection` moves the pipeline to a new
connection and session; `create` makes one from the ports it will use. -/

namespace Mino.Bridge.Pipe

variable {ν : Type} [SchemaNegotiator ν]

def clearAttempts : Pipe ν Unit := .modify fun e => { e with
  attempts := [], attemptOperations := fun _ => none, sessionReady := false }

/-- Give up frames that are too old, which ends the session. -/
def purgeRetransmit (nowNs : Nat) : Pipe ν Nat := do
  let e ← .get
  .modify fun e => { e with
    retransmit := (e.retransmit.purgeExpired nowNs).2
    log := e.log ++ (dropped e.retransmit (e.retransmit.purgeExpired nowNs).2).map fun r =>
      .expired r.source r.sequence }
  pure (e.retransmit.purgeExpired nowNs).1

def closeExpired : Pipe ν Unit := do
  let closed ← .attempt close
  clearAttempts
  match closed with
  | .error status =>
    if status.code ≠ .notFound then .fail status
    else .fail (.error .timeout "Bridge reliable frame exceeded retransmit retention")
  | .ok _ => .fail (.error .timeout "Bridge reliable frame exceeded retransmit retention")

def purge (nowNs : Nat) : Pipe ν Unit := do
  let expired ← purgeRetransmit nowNs
  .onlyIf (expired != 0) removeRetiredReliable
  onDedup (.purgeExpired nowNs)
  .onlyIf (expired != 0) closeExpired

/-- Data goes out only when no control frame waits. -/
def sendPending (budget : BridgePumpBudget) : Pipe ν Unit := do
  let e ← .get
  .onlyIf e.controlQueue.isEmpty do
    resendPending budget
    pullOutbound budget

def validBudget (budget : BridgePumpBudget) : Bool :=
  decide (budget.maxInboundFrames ≤ kMaxReceiveBatchMessages) && budget.maxOutboundFrames != 0 &&
    budget.maxBytes != 0 && decide (budget.maxBytes ≤ kMaxReceiveBatchBytes)

def pump (budget : BridgePumpBudget) : Pipe ν BridgePumpResult := do
  if !validBudget budget then .fail (invalid "bridge pump budget is invalid")
  else do
    .modify fun e => { e with result := {} }
    admitControls
    flushControls budget
    flushPendingAcks budget
    drainCompletions budget
    drainInbound budget
    admitControls
    flushControls budget
    flushPendingAcks budget
    sendPending budget
    flushControls budget
    flushPendingAcks budget
    purge budget.nowNs
    let e ← .get
    pure e.result

/-! ### Sessions -/

/-- `SeedDedupWindowFromStore`; the first refused entry ends the loop. -/
def seedDedupWindow (nowNs : Nat) : List DedupResumeEntry → Pipe ν Unit
  | [] => pure ()
  | entry :: rest => do
    let e ← .get
    onDedup (.seedAccepted e.options.remoteSessionEpoch entry.source
      entry.highestContiguousSequence nowNs)
    check (e.dedup.seedAccepted e.options.remoteSessionEpoch entry.source
      entry.highestContiguousSequence nowNs).1
    seedDedupWindow nowNs rest

def restoreDedupFromStore (nowNs : Nat) : Pipe ν Unit := do
  let e ← .get
  match e.store with
  | none => pure ()
  | some store => seedDedupWindow nowNs store.load

def closeOld (connectionId : ConnectionId) : Pipe ν Unit := do
  let e ← .get
  if e.connectionId = connectionId then pure ()
  else
    match ← .attempt close with
    | .ok _ => pure ()
    | .error status => if status.code ≠ .notFound then .fail status else pure ()

structure Rebinding where
  connectionId : ConnectionId
  localSessionEpoch : Nat
  remoteSessionEpoch : Nat
  localDedupStateLost : Bool := false
  nowNs : Nat := 0
  authenticatedPeer : Option UInt64 := none
  deriving DecidableEq, Repr

/-- Everything that belongs to the old connection goes. What it still held for this
side is not delivered any more. -/
def resetConnection (r : Rebinding) : Pipe ν Unit := .modify fun e => { e with
  connectionId := r.connectionId
  inbox := if e.connectionId = r.connectionId then e.inbox else []
  options := { e.options with
    localSessionEpoch := r.localSessionEpoch
    remoteSessionEpoch := r.remoteSessionEpoch
    localDedupStateLost := r.localDedupStateLost
    authenticatedPeer := r.authenticatedPeer.or e.options.authenticatedPeer }
  controlQueue := []
  controlBytes := 0
  pendingAcks := { nextNode := e.pendingAcks.nextNode }
  pendingSchemaControls := []
  pendingInbound := []
  stagedReady := []
  pendingInboundBytes := 0
  processingInboundWireBytes := 0
  localSchemaBindings := []
  helloSent := false
  helloReceived := false
  sessionReady := false
  peerDedupStateLost := false
  resendPending := !e.retransmit.entries.isEmpty
  aeadReady := false
  keyShareSent := false
  keyShareReceived := false
  localKeyShareNonce := none
  log := e.log ++ [.rebound r.connectionId] }

def setDedupStateLost (lost : Bool) : Pipe ν Unit := .modify fun e => { e with
  options := { e.options with localDedupStateLost := lost } }

/-- With the marks of the store back nothing counts as lost. -/
def recoverDedup (nowNs : Nat) : Pipe ν Unit := do
  restoreDedupFromStore nowNs
  setDedupStateLost false

/-- The hello of a new session and, with a key, the local share. -/
def greet : Pipe ν Unit := do
  queueSessionHello
  let e ← .get
  if e.options.enableAead && !e.options.aeadPsk.isEmpty then queueSessionKeyShare else pure ()

def rebindConnection (r : Rebinding) : Pipe ν Unit := do
  let e ← .get
  if r.connectionId = kInvalidConnectionId ∨ r.localSessionEpoch = 0 ∨
      r.remoteSessionEpoch = 0 ∨ !validLane e.options.laneIndex e.options.laneCount then
    .fail (invalid "bridge reconnect identity is incomplete")
  else do
    closeOld r.connectionId
    resetConnection r
    onDedup (.beginSession r.remoteSessionEpoch r.nowNs (!r.localDedupStateLost))
    .onlyIf (e.store.isSome && r.localDedupStateLost) (recoverDedup r.nowNs)
    .modify fun e => { e with
      retransmit :=
        e.retransmit.beginSession r.localSessionEpoch r.remoteSessionEpoch r.nowNs
      negotiator := e.negotiator.map SchemaNegotiator.reset }
    greet

def validOptions (options : BridgePipelineOptions) (connectionId : ConnectionId) : Status :=
  if options.localSessionEpoch = 0 ∨ options.remoteSessionEpoch = 0 ∨
      connectionId = kInvalidConnectionId ∨ options.maxControlFrames = 0 ∨
      options.maxControlBytes < kSessionHelloHeaderWireSize ∨
      options.maxPendingInboundFrames = 0 ∨ options.maxPendingInboundBytes = 0 ∨
      !validLane options.laneIndex options.laneCount then
    invalid "bridge pipeline dependencies or limits are invalid"
  else if options.enableAead && !options.aeadPsk.isEmpty && options.aeadPsk.length < 16 then
    invalid "bridge AEAD PSK must be at least 16 bytes"
  else if options.enableAead && !options.aeadPsk.isEmpty &&
      options.maxControlBytes < kSessionKeyShareWireSize then
    invalid "bridge control byte limit cannot hold KeyShare"
  else .success

/-- The parts of a pipeline that `create` is given. -/
structure Construction (ν : Type) where
  options : BridgePipelineOptions
  connectionId : ConnectionId
  hasEgress : Bool := true
  negotiator : Option ν := none

/-- The windows of a new pipeline, in their first session. -/
def openWindows (options : BridgePipelineOptions) : Result (DedupWindow × RetransmitWindow) := do
  let dedup ← DedupWindow.create options.dedup
  let retransmit ← RetransmitWindow.create options.retransmit
  pure (dedup.beginSession options.remoteSessionEpoch 0,
    retransmit.beginSession options.localSessionEpoch options.remoteSessionEpoch 0)

def newEndpoint (c : Construction ν) (windows : DedupWindow × RetransmitWindow)
    (outside : Outside) : Endpoint ν :=
  { options := c.options, connectionId := c.connectionId, hasEgress := c.hasEgress
    negotiator := c.negotiator, dedup := windows.1, retransmit := windows.2
    toOutside := { outside with
      log := outside.log ++ [.created c.connectionId c.negotiator.isSome] } }

/-- What `Create` does with the new object before it hands it out. -/
def start : Pipe ν Unit := do
  let e ← .get
  .onlyIf e.store.isSome (recoverDedup 0)
  greet

def create (c : Construction ν) (outside : Outside) : Result (Endpoint ν) :=
  if !(validOptions c.options c.connectionId).ok then
    .error (validOptions c.options c.connectionId)
  else match openWindows c.options with
    | .error status => .error status
    | .ok windows =>
      match start (newEndpoint c windows outside) with
      | (.ok _, e) => .ok e
      | (.error status, _) => .error status

end Mino.Bridge.Pipe
