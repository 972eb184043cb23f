import Mino.Bridge.Pipeline

/-! # The steps of a pipeline

An abstract machine for one side of a bridge. Its states keep what the safety of the
exchange is about and forget budgets, scripts and send attempts; its steps say what
the code may do to them, each under the condition the code has established by then.
Handling one inbound frame and sending have steps of their own, because they leave
the inbound queue and the retransmission window alone. -/

namespace Mino.Bridge

structure Core where
  connectionId : ConnectionId
  negotiating : Bool
  dedup : DedupWindow
  retransmit : RetransmitWindow
  controlQueue : List (ControlFrame × Nat)
  pendingAcks : AckQueue
  pendingInbound : List PendingInbound
  stagedReady : List PendingInbound
  inbox : List Message
  outbox : List Sent
  egress : List EncodedOutboundFrame
  store : Option DedupStore
  log : List Event

def Endpoint.core {ν : Type} (e : Endpoint ν) : Core where
  connectionId := e.connectionId
  negotiating := e.negotiator.isSome
  dedup := e.dedup
  retransmit := e.retransmit
  controlQueue := e.controlQueue
  pendingAcks := e.pendingAcks
  pendingInbound := e.pendingInbound
  stagedReady := e.stagedReady
  inbox := e.inbox
  outbox := e.outbox
  egress := e.egress
  store := e.store
  log := e.log

/-- The ACKs a frame makes its receiver apply: its own, or one for each mark of a hello
whose sender has lost nothing. -/
def WireFrame.Carries : WireFrame → AckPayload → Prop
  | .control (.ack (.ok a)), ack => ack = a
  | .control (.sessionHello (.ok hello)), ack =>
    hello.dedupStateLost = false ∧ ack.observedSequence = 0 ∧
      ∃ s ∈ hello.sources, ack.source = s.source ∧
        ack.highestContiguousSequence = some s.lastAcceptedSequence
  | _, _ => False

/-- Calls on the dedup window that accept nothing. -/
def DedupWindow.Op.isLookup : DedupWindow.Op → Bool
  | .commitAccepted .. | .seedAccepted .. => false
  | _ => true

namespace Core

def emit (c : Core) (events : List Event) : Core := { c with log := c.log ++ events }

def onDedup (c : Core) (op : DedupWindow.Op) : Core := { c with
  dedup := c.dedup.step op
  log := c.log ++ (c.dedup.forgets op).map .forgotten }

def storedMark (c : Core) (source : SourceIdentity) : Nat :=
  c.store.elim 0 fun store => store.mark source

def persist (c : Core) (source : SourceIdentity) (highest : Nat) (persisted : Status) : Core :=
  match c.store with
  | none => c
  | some store =>
    if highest = 0 then c
    else { c with
      store := some (store.recordAccepted persisted source highest).2
      log := c.log ++ [.recorded source highest (store.recordAccepted persisted source highest).1] }

/-- An acceptance as a whole: the window learns the frame, the mark is read back and
persisted. -/
def settle (c : Core) (op : DedupWindow.Op) (events : List Event) (epoch : Nat)
    (source : SourceIdentity) (sequence nowNs : Nat) (persisted : Status) : Core :=
  let d := ((c.onDedup op).emit events).onDedup (.check epoch source sequence nowNs)
  d.persist source (d.dedup.mark source) persisted

/-- What is seen of an answer that was queued, absorbed or refused. -/
def answerEvents (ack : AckPayload) (stored : Nat) : Result AckPlacement → List Event
  | .error _ => []
  | .ok .absorbed => [.answered ack]
  | .ok .stored => [.ackPlaced ack stored, .answered ack]

def answer (c : Core) (limit : Nat) (ack : AckPayload) : Core := { c with
  pendingAcks := (c.pendingAcks.queueAck limit ack).2
  log := c.log ++
    answerEvents ack (c.storedMark ack.source) (c.pendingAcks.queueAck limit ack).1 }

def applyAck (c : Core) (ack : AckPayload) : Core := { c with
  retransmit := (c.retransmit.applyAck ack).2
  log := c.log ++ (Pipe.dropped c.retransmit (c.retransmit.applyAck ack).2).map fun r =>
    .retired r.source r.sequence }

/-- What the window says of a frame when its answer is written. -/
structure Answers (c : Core) (ack : AckPayload) : Prop where
  positive : 1 ≤ ack.observedSequence
  highest : ack.highestContiguousSequence = some (c.dedup.mark ack.source)
  accepted : ack.disposition = .accepted → c.dedup.Covers ack.source ack.observedSequence
  refused : ack.disposition = .nackWithHighest →
    c.dedup.mark ack.source + c.dedup.options.maxSequenceDistance < ack.observedSequence ∨
      ack.observedSequence + c.dedup.options.maxSequenceDistance ≤ c.dedup.mark ack.source

/-- A control frame that is no ACK; the marks of a hello are those of the window. -/
def Announces (c : Core) : ControlFrame → Prop
  | .ack _ => False
  | .sessionHello (.ok hello) => ∀ s ∈ hello.sources,
      ⟨s.source, s.lastAcceptedSequence⟩ ∈ c.dedup.snapshotAccepted
  | _ => True

def SameKey (frame : DataFrame) (frame' : DataFrame) : Prop :=
  frame.header.source = frame'.header.source ∧
    frame.header.sequenceNum = frame'.header.sequenceNum

/-- A frame of the retransmission window, or a best-effort frame from the port. -/
def Sendable (c : Core) (frame : DataFrame) : Prop :=
  (∃ r ∈ c.retransmit.entries, frame.header.source = r.source ∧
    frame.header.sequenceNum = r.sequence) ∨
  ∃ o, c.egress.head? = some o ∧ o.reliability = .bestEffort ∧ SameKey frame o.frame

/-- Without a negotiator the frame at hand is the one that is published. -/
def IsData (p : PendingInbound) (source : SourceIdentity) (sequence : Nat) : Prop :=
  ∃ frame, p.frame = .data frame ∧ frame.header.source = source ∧
    frame.header.sequenceNum = sequence

/-- A data frame that has been dealt with was published or answered. -/
def Answered (log : List Event) (p : PendingInbound) : Prop :=
  ∀ source sequence, IsData p source sequence →
    ∃ ack, .answered ack ∈ log ∧ ack.source = source ∧ ack.observedSequence = sequence

/-- One step in the handling of an inbound frame. -/
inductive Handle (p : PendingInbound) : Core → Core → Prop where
  | lookup {c op} (h : op.isLookup = true) : Handle p c (c.onDedup op)
  | publish {c} (source : SourceIdentity) (sequence : Nat)
      (h : c.negotiating = false → IsData p source sequence) :
      Handle p c (c.emit [.published source sequence])
  | commit {c epoch source sequence nowNs} (persisted : Status) (hv : source.valid = true)
      (hpub : .published source sequence ∈ c.log)
      (hok : (c.dedup.commitAccepted epoch source sequence nowNs).1.ok = true) :
      Handle p c (c.settle (.commitAccepted epoch source sequence nowNs) [] epoch source sequence
        nowNs persisted)
  | seed {c epoch source sequence nowNs} (persisted : Status) (hv : source.valid = true)
      (hpub : .published source sequence ∈ c.log)
      (hok : (c.dedup.seedAccepted epoch source sequence nowNs).1.ok = true) :
      Handle p c (c.settle (.seedAccepted epoch source sequence nowNs)
        [.baseline source sequence] epoch source sequence nowNs persisted)
  | refuseCommit {c epoch source sequence nowNs}
      (hbad : (c.dedup.commitAccepted epoch source sequence nowNs).1.ok = false) :
      Handle p c (c.onDedup (.commitAccepted epoch source sequence nowNs))
  | refuseSeed {c epoch source sequence nowNs}
      (hbad : (c.dedup.seedAccepted epoch source sequence nowNs).1.ok = false) :
      Handle p c (c.onDedup (.seedAccepted epoch source sequence nowNs))
  | answer {c ack} (limit : Nat) (h : c.Answers ack) : Handle p c (c.answer limit ack)
  | applyAck {c ack} (h : p.frame.Carries ack) : Handle p c (c.applyAck ack)
  | stage {c frames} (hneg : c.negotiating = true)
      (hdata : ∀ q ∈ frames, ∃ frame, PendingInbound.frame q = .data frame) :
      Handle p c { c with stagedReady := c.stagedReady ++ frames }

/-- One step of preparing and sending data. -/
inductive Outgoing : Core → Core → Prop where
  | transmit {c} {frame : DataFrame} (size : Nat) (h : c.Sendable frame) :
      Outgoing c { c with
        outbox := c.outbox ++ [⟨c.connectionId, .data frame, size⟩]
        log := c.log ++
          [.transmitted c.connectionId frame.header.source frame.header.sequenceNum] }
  | queue {c frame} (size : Nat) (h : c.Announces frame) :
      Outgoing c { c with controlQueue := c.controlQueue ++ [(frame, size)] }

inductive Step : Core → Core → Prop where
  | handle {c c' p} (hp : c.pendingInbound.head? = some p) (h : Handle p c c') : Step c c'
  | outgoing {c c'} (h : Outgoing c c') : Step c c'
  /-- The frame at the front is done; what it released takes its place. -/
  | finish {c p} (hp : c.pendingInbound.head? = some p)
      (h : c.negotiating = false → Answered c.log p) :
      Step c { c with
        pendingInbound := c.stagedReady ++ c.pendingInbound.tail, stagedReady := [] }
  | unstage {c} : Step c { c with stagedReady := [] }
  | receive {c} {m : Message} (charge : Nat) (h : c.inbox.head? = some m) :
      Step c { c with
        inbox := c.inbox.tail, pendingInbound := c.pendingInbound ++ [⟨m.frame, charge, false⟩] }
  | abandon {c} (count : Nat) :
      Step c { c with
        inbox := c.inbox.drop count
        log := c.log ++ List.replicate count (.discarded c.connectionId) }
  | sendControl {c frame} (size : Nat)
      (h : (∃ n, (frame, n) ∈ c.controlQueue) ∨
        ∃ node ack, (node, ack) ∈ c.pendingAcks.acks ∧ frame = .ack (.ok ack)) :
      Step c { c with outbox := c.outbox ++ [⟨c.connectionId, .control frame, size⟩] }
  | unqueue {c} : Step c { c with controlQueue := c.controlQueue.dropLast }
  | dropControl {c} : Step c { c with controlQueue := c.controlQueue.tail }
  | dropAck {c} (node : Nat) : Step c { c with pendingAcks := c.pendingAcks.removePendingAck node }
  | admission {c} {frame : DataFrame} {size nowNs : Nat}
      (hok : (c.retransmit.add frame.header.source frame.header.sequenceNum frame size
        nowNs).1.ok = true)
      (h : ∃ o, c.egress.head? = some o ∧ o.reliability = .reliableOrdered ∧
        SameKey frame o.frame) :
      Step c { c with
        retransmit := (c.retransmit.add frame.header.source frame.header.sequenceNum frame size
          nowNs).2
        log := c.log ++ [.admitted frame.header.source frame.header.sequenceNum] }
  | polled {c} : Step c { c with egress := c.egress.tail }
  | expire {c} (nowNs : Nat) :
      Step c { c with
        retransmit := (c.retransmit.purgeExpired nowNs).2
        log := c.log ++ (Pipe.dropped c.retransmit (c.retransmit.purgeExpired nowNs).2).map
          fun r => .expired r.source r.sequence }
  | lookup {c op} (h : op.isLookup = true) : Step c (c.onDedup op)
  | reset {c} (connectionId : ConnectionId) :
      Step c { c with
        connectionId
        inbox := if c.connectionId = connectionId then c.inbox else []
        controlQueue := []
        pendingAcks := { nextNode := c.pendingAcks.nextNode }
        pendingInbound := []
        stagedReady := []
        log := c.log ++ [.rebound connectionId] }
  | restore {c store} {entry : DedupResumeEntry} (epoch nowNs : Nat) (hs : c.store = some store)
      (he : entry ∈ store.load) :
      Step c (c.onDedup (.seedAccepted epoch entry.source entry.highestContiguousSequence nowNs))
  | resession {c} (retransmit : RetransmitWindow) (h : retransmit.table = c.retransmit.table) :
      Step c { c with retransmit }

end Core

end Mino.Bridge
