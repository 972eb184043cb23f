import Mino.Lib.Interleaving
import Mino.Shm.IndexSlot

/-! # The MPSC channel

Any number of producers reserve positions of a ring of index slots; one consumer takes the
messages in order; scanners clean up behind producers that have died. Each step below is
one atomic access of one of them, or one access of the metadata of a slot. The cursors,
turns and tokens count without wrapping, except that a token has 29 bits in a claim. -/

namespace Mino.Shm

inductive ClaimPhase where
  | none
  | initializing
  | ownerReady
  | cursorAdvanced
  | writing
  | ready
  deriving DecidableEq, Repr

/-- The claim word of a slot: the process, a token and a phase. -/
structure Claim where
  processId : UInt32
  token : Nat
  phase : ClaimPhase
  deriving DecidableEq, Repr

namespace Claim

def zero : Claim := ⟨0, 0, .none⟩

def makeInitialClaim (processId : UInt32) (token : Nat) : Claim :=
  ⟨processId, token % 2 ^ 29, .initializing⟩

def withClaimPhase (claim : Claim) (phase : ClaimPhase) : Claim := { claim with phase }

end Claim

/-- The sidecar of a slot. Of the owner recovery decides by the process id; the other parts
of the identity can only keep it from calling the owner dead. -/
structure MpscReservationMeta where
  claimControl : Claim
  claimSequence : Nat
  ownerProcessId : UInt32
  reservationTimestampNs : Nat
  deriving DecidableEq, Repr

/-- What a producer asked for: `Reserve` with a policy, or `TryReserve` without one. -/
structure MpscRequest where
  policy : Option QueueFullPolicy
  sampleRate : Nat
  deriving DecidableEq, Repr

/-- Where a producer stands. -/
inductive MpscProducer where
  | idle
  /-- At the head of the loop of `TryReserveAfterSpaceCheck`. -/
  | loading (request : MpscRequest)
  | probing (request : MpscRequest) (res : Nat)
  /-- The slot is of an earlier lap; its state tells why. -/
  | blocked (request : MpscRequest) (res : Nat)
  | sampling (request : MpscRequest)
  | drawing (request : MpscRequest) (res : Nat)
  | redrawing (request : MpscRequest) (res : Nat)
  | tagging (request : MpscRequest) (res token : Nat)
  /-- The claim is taken; sequence, owner and time follow. -/
  | sequencing (request : MpscRequest) (res : Nat) (claim : Claim)
  | identifying (request : MpscRequest) (res : Nat) (claim : Claim)
  | timing (request : MpscRequest) (res : Nat) (claim : Claim)
  | owning (request : MpscRequest) (res : Nat) (claim : Claim)
  | advancing (request : MpscRequest) (res : Nat) (claim : Claim)
  /-- The cursor was elsewhere: the claim is given back. -/
  | yielding (request : MpscRequest) (claim : Claim) (res : Nat)
  /-- The cursor is past the position, which is this producer's. -/
  | advanced (res : Nat) (claim : Claim)
  | numbering (res : Nat) (claim : Claim)
  | opening (res : Nat) (claim : Claim)
  | opened (res : Nat) (claim : Claim)
  /-- `Reserve` has returned the reservation. -/
  | reserved (res : Nat)
  | sealed (res : Nat)
  | readied (res : Nat)
  | marking (res : Nat) (claim : Claim)
  | publishing (res : Nat)
  | tombstoned (res : Nat)
  | unmarking (res : Nat) (claim : Claim)
  /-- `TryForceDropOldest`, access by access. -/
  | dropLoading (request : MpscRequest)
  | dropProbing (request : MpscRequest) (cons : Nat)
  | dropChecking (request : MpscRequest) (cons : Nat)
  | dropAdvancing (request : MpscRequest) (cons : Nat)
  | dropRetiring (request : MpscRequest) (cons : Nat)
  | dropReleasing (request : MpscRequest) (cons : Nat) (retired : Status)
  | dropComparing (request : MpscRequest) (cons : Nat) (retired : Status) (claim : Claim)
  | dropFreeing (request : MpscRequest) (cons : Nat) (retired : Status) (claim : Claim)
  deriving DecidableEq, Repr

/-- What the consumer does behind the release of a claim. -/
inductive MpscReturn where
  | poll
  | corruption
  | ack
  deriving DecidableEq, Repr

/-- Where the consumer stands. -/
inductive MpscConsumer (μ : Type) where
  | idle
  | polling
  | comparing (cons : Nat)
  | probing (cons : Nat)
  | judging (cons turn : Nat)
  | checking (cons : Nat)
  | copying (cons : Nat)
  | copied (cons : Nat) (content : μ)
  | verifying (cons : Nat) (content : μ) (sequenceNum : Nat)
  /-- Retirement of the slot: turn, cursor, then the claim. -/
  | retiring (cons : Nat) (next : MpscReturn)
  | advancing (cons : Nat) (next : MpscReturn)
  | releasing (cons : Nat) (next : MpscReturn)
  | comparingClaim (cons : Nat) (next : MpscReturn) (claim : Claim)
  | freeing (cons : Nat) (next : MpscReturn) (claim : Claim)
  deriving DecidableEq, Repr

/-- Where a scan stands. `phys` is the slot it is at. -/
inductive MpscScanner where
  | idle
  | scanning (phys : Nat)
  | sequenced (phys : Nat) (claim : Claim)
  | revoking (phys : Nat) (claim : Claim)
  | timed (phys : Nat) (claim : Claim) (seq : Nat)
  | identified (phys : Nat) (claim : Claim) (seq : Nat)
  | compared (phys : Nat) (claim : Claim) (seq : Nat)
  | releasing (phys : Nat) (claim : Claim)
  | numbered (phys : Nat) (claim : Claim) (seq : Nat)
  | renumbering (phys : Nat) (claim : Claim) (seq : Nat)
  | burying (phys : Nat) (claim : Claim) (seq : Nat)
  | judged (phys : Nat) (claim : Claim) (seq : Nat)
  | aborting (phys : Nat) (claim : Claim) (seq : Nat) (state : SlotState)
  | turning (phys : Nat) (claim : Claim) (seq : Nat)
  | marking (phys : Nat) (claim : Claim) (seq : Nat)
  | publishing (phys : Nat) (claim : Claim) (seq : Nat)
  deriving DecidableEq, Repr

inductive MpscEvent (μ : Type) where
  | reserved (sequence : Nat)
  | refused (status : Status)
  | committed (sequence : Nat) (content : μ)
  | commitFailed (sequence : Nat)
  | tombstoned (sequence : Nat)
  | buried (sequence : Nat)
  | aborted (sequence : Nat)
  | abortFailed (sequence : Nat)
  | dropped (sequence : Nat)
  | wouldBlock
  | polled (sequence : Nat) (content : μ)
  | skipped (sequence : Nat)
  | corrupted (sequence : Nat)
  | acked (sequence : Nat)
  | overtaken (sequence : Nat)
  | scanned
  deriving DecidableEq, Repr

namespace MpscEvent

variable {μ : Type}

def polledSequence : MpscEvent μ → Option Nat
  | .polled sequence _ => some sequence
  | _ => none

def ackedSequence : MpscEvent μ → Option Nat
  | .acked sequence => some sequence
  | _ => none

def droppedSequence : MpscEvent μ → Option Nat
  | .dropped sequence => some sequence
  | _ => none

def skippedSequence : MpscEvent μ → Option Nat
  | .skipped sequence => some sequence
  | _ => none

end MpscEvent

/-- `process t` is the process of producer `t`; `dead` are the processes that have died. -/
structure MpscSystem (μ : Type) where
  capacity : Nat
  reservationCursor : Nat
  consumerCursor : Nat
  tokens : Nat
  slots : Nat → IndexSlot μ
  metas : Nat → MpscReservationMeta
  process : Nat → UInt32
  dead : List UInt32
  producers : Nat → MpscProducer
  consumer : MpscConsumer μ
  scanners : Nat → MpscScanner
  log : List (MpscEvent μ)

inductive MpscAction (μ : Type) where
  | reserve (producer : Nat) (request : MpscRequest)
  | fill (producer : Nat) (content : μ)
  | commit (producer : Nat)
  | abort (producer : Nat)
  /-- A producer goes on, with the time it reads, what a payload observer answers and whether
  a weak compare-and-swap fails. -/
  | produce (producer nowNs : Nat) (observed : Status) (spuriousFailure : Bool)
  | poll
  | ack (sequence : Nat)
  /-- The consumer goes on. -/
  | consume (spuriousFailure : Bool)
  | scan (scanner : Nat)
  /-- A scanner goes on, with its time, its lease and what the probe answers. -/
  | recover (scanner : Nat) (nowNs leaseNs : Nat) (probedDead : Bool)
  | die (process : UInt32)
  deriving DecidableEq, Repr

namespace MpscSystem

variable {μ : Type} (crc : SlotCrc μ)

def init (emptyContent : μ) (process : Nat → UInt32) (base capacity : Nat) : Result (MpscSystem μ) :=
  if base = 0 then .error (.error .invalidArgument "shm_base must not be null")
  else if base % 64 ≠ 0 then .error (.error .invalidArgument "shm_base must be 64-byte aligned")
  else if capacity < 64 ∨ !isPowerOfTwo capacity then
    .error (.error .invalidArgument "capacity must be a power of two and >= 64")
  else if capacity > 2 ^ 32 then
    .error (.error .invalidArgument "capacity exceeds the supported maximum (2^32)")
  else .ok {
    capacity
    reservationCursor := 0
    consumerCursor := 0
    tokens := 0
    slots := fun i => ⟨emptyContent, i, 0, .free, i⟩
    metas := fun _ => ⟨.zero, 0, 0, 0⟩
    process
    dead := []
    producers := fun _ => .idle
    consumer := .idle
    scanners := fun _ => .idle
    log := [] }

variable (s : MpscSystem μ)

def index (pos : Nat) : Nat := pos &&& (s.capacity - 1)

def slotAt (pos : Nat) : IndexSlot μ := s.slots (s.index pos)

def metaAt (pos : Nat) : MpscReservationMeta := s.metas (s.index pos)

def setSlot (i : Nat) (f : IndexSlot μ → IndexSlot μ) : MpscSystem μ :=
  { s with slots := Function.update s.slots i (f (s.slots i)) }

def setMeta (i : Nat) (f : MpscReservationMeta → MpscReservationMeta) : MpscSystem μ :=
  { s with metas := Function.update s.metas i (f (s.metas i)) }

def setClaim (i : Nat) (claimControl : Claim) : MpscSystem μ :=
  s.setMeta i fun sidecar => { sidecar with claimControl }

def setState (i : Nat) (state : SlotState) : MpscSystem μ :=
  s.setSlot i fun slot => { slot with state }

def setTurn (i : Nat) (turn : Nat) : MpscSystem μ :=
  s.setSlot i fun slot => { slot with turn }

def setSequence (i : Nat) (sequenceNum : Nat) : MpscSystem μ :=
  s.setSlot i fun slot => { slot with sequenceNum }

def emit (event : MpscEvent μ) : MpscSystem μ :=
  { s with log := s.log ++ [event] }

def producerAt (t : Nat) (producer : MpscProducer) : MpscSystem μ :=
  { s with producers := Function.update s.producers t producer }

def consumerAt (consumer : MpscConsumer μ) : MpscSystem μ := { s with consumer }

def scannerAt (t : Nat) (scanner : MpscScanner) : MpscSystem μ :=
  { s with scanners := Function.update s.scanners t scanner }

def setReservationCursor (reservationCursor : Nat) : MpscSystem μ :=
  { s with reservationCursor }

def setConsumerCursor (consumerCursor : Nat) : MpscSystem μ :=
  { s with consumerCursor }

def drawToken : MpscSystem μ := { s with tokens := s.tokens + 1 }

/-! ### Producers -/

/-- What `TryReserve` says of a slot that an earlier lap still has. -/
def occupied : SlotState → Status
  | .ready => .error .resourceExhausted "MPSC queue full"
  | .reserved | .writing => .error .wouldBlock
      "MPSC slot held by an unfinished reservation; recovery required"
  | _ => .error .wouldBlock "MPSC slot holds an unconsumed tombstone"

def refuse (t : Nat) (status : Status) : MpscSystem μ :=
  (s.producerAt t .idle).emit (.refused status)

/-- What `Reserve` does when there is no room. -/
def onFull (t : Nat) (request : MpscRequest) (state : SlotState) : MpscSystem μ :=
  match request.policy with
  | none => s.refuse t (occupied state)
  | some .fail => s.refuse t (.error .resourceExhausted "MPSC queue full")
  | some .block => s.producerAt t (.loading request)
  | some .dropNewest => s.refuse t (.error .degraded "MPSC queue full: newest message dropped")
  | some .dropOldest =>
    -- Only a message that is ready can be dropped to make room.
    if state = .ready then s.producerAt t (.dropLoading request)
    else s.refuse t (.error .wouldBlock
      "MPSC wedged on a stalled slot; kDropOldest cannot retire an unfinished reservation")
  | some .sample => s.producerAt t (.sampling request)

/-- The accesses of `Reserve` up to the compare-and-swap of the cursor. -/
def claimNext (t nowNs : Nat) : MpscProducer → Option (MpscSystem μ)
  | .loading request => some (s.producerAt t (.probing request s.reservationCursor))
  | .probing request res =>
    if (s.slotAt res).turn > res then some (s.producerAt t (.loading request))
    else if (s.slotAt res).turn < res then some (s.producerAt t (.blocked request res))
    else some (s.producerAt t (.drawing request res))
  | .drawing request res =>
    let token := s.tokens + 1
    if token % 2 ^ 29 = 0 then some (s.drawToken.producerAt t (.redrawing request res))
    else some (s.drawToken.producerAt t (.tagging request res token))
  | .redrawing request res =>
    some (s.drawToken.producerAt t (.tagging request res (s.tokens + 1)))
  | .tagging request res token =>
    if (s.metaAt res).claimControl = .zero then
      let claim := Claim.makeInitialClaim (s.process t) token
      some ((s.setClaim (s.index res) claim).producerAt t (.sequencing request res claim))
    else some (s.producerAt t (.loading request))
  | .sequencing request res claim =>
    some ((s.setMeta (s.index res) fun sidecar => { sidecar with claimSequence := res }).producerAt t
      (.identifying request res claim))
  | .identifying request res claim =>
    some ((s.setMeta (s.index res) fun sidecar => { sidecar with
      ownerProcessId := s.process t }).producerAt t (.timing request res claim))
  | .timing request res claim =>
    some ((s.setMeta (s.index res) fun sidecar => { sidecar with
      reservationTimestampNs := nowNs }).producerAt t (.owning request res claim))
  | .owning request res claim =>
    if (s.metaAt res).claimControl = claim then
      let owned := claim.withClaimPhase .ownerReady
      some ((s.setClaim (s.index res) owned).producerAt t (.advancing request res owned))
    else some (s.producerAt t (.loading request))
  | .advancing request res claim =>
    if s.reservationCursor = res then
      some (((s.setReservationCursor (res + 1)).producerAt t (.advanced res claim)).emit
        (.reserved res))
    else some (s.producerAt t (.yielding request claim res))
  | .yielding request claim res =>
    if (s.metaAt res).claimControl = claim then
      some ((s.setClaim (s.index res) .zero).producerAt t (.loading request))
    else some (s.producerAt t (.loading request))
  | _ => none

/-- The rest of `Reserve`, `Commit` and `Abort`. -/
def ownNext (t : Nat) : MpscProducer → Option (MpscSystem μ)
  | .advanced res claim =>
    some ((s.setClaim (s.index res) (claim.withClaimPhase .cursorAdvanced)).producerAt t
      (.numbering res claim))
  | .numbering res claim =>
    some ((s.setSequence (s.index res) res).producerAt t (.opening res claim))
  | .opening res claim =>
    some ((s.setState (s.index res) .writing).producerAt t (.opened res claim))
  | .opened res claim =>
    some ((s.setClaim (s.index res) (claim.withClaimPhase .writing)).producerAt t (.reserved res))
  | .sealed res =>
    if (s.slotAt res).state = .writing then
      some ((s.setState (s.index res) .ready).producerAt t (.readied res))
    else some ((s.producerAt t .idle).emit (.commitFailed res))
  | .readied res => some (s.producerAt t (.marking res (s.metaAt res).claimControl))
  | .marking res claim =>
    some ((s.setClaim (s.index res) (claim.withClaimPhase .ready)).producerAt t (.publishing res))
  | .publishing res =>
    some (((s.setTurn (s.index res) (res + 1)).producerAt t .idle).emit
      (.committed res (s.slotAt res).content))
  | .tombstoned res => some (s.producerAt t (.unmarking res (s.metaAt res).claimControl))
  | .unmarking res claim =>
    some (((s.setClaim (s.index res) (claim.withClaimPhase .writing)).producerAt t .idle).emit
      (.aborted res))
  | _ => none

/-- Behind `TryForceDropOldest`. -/
def afterDrop (t : Nat) (request : MpscRequest) (retired : Status) : MpscSystem μ :=
  if retired.ok then s.producerAt t (.loading request) else s.refuse t retired

/-- What is left to do when the queue is full. -/
def fullNext (t : Nat) (observed : Status) (spuriousFailure : Bool) :
    MpscProducer → Option (MpscSystem μ)
  | .blocked request res => some (s.onFull t request (s.slotAt res).state)
  | .sampling request =>
    if s.reservationCursor % (if request.sampleRate = 0 then 1 else request.sampleRate) ≠ 0 then
      some (s.refuse t (.error .degraded "MPSC queue full: message sampled out"))
    else some (s.producerAt t (.loading request))
  | .dropLoading request => some (s.producerAt t (.dropProbing request s.consumerCursor))
  | .dropProbing request cons =>
    if (s.slotAt cons).state = .ready then some (s.producerAt t (.dropChecking request cons))
    else some (s.producerAt t (.loading request))
  | .dropChecking request cons =>
    if (s.slotAt cons).sequenceNum = cons then some (s.producerAt t (.dropAdvancing request cons))
    else some (s.producerAt t (.loading request))
  | .dropAdvancing request cons =>
    if s.consumerCursor = cons then
      some (((s.setConsumerCursor (cons + 1)).producerAt t (.dropRetiring request cons)).emit
        (.dropped cons))
    else some (s.producerAt t (.loading request))
  | .dropRetiring request cons =>
    some ((s.setTurn (s.index cons) (cons + s.capacity)).producerAt t
      (.dropReleasing request cons observed))
  | .dropReleasing request cons retired =>
    some (s.producerAt t (.dropComparing request cons retired (s.metaAt cons).claimControl))
  | .dropComparing request cons retired claim =>
    if claim ≠ .zero ∧ (s.metaAt cons).claimSequence = cons then
      some (s.producerAt t (.dropFreeing request cons retired claim))
    else some (s.afterDrop t request retired)
  | .dropFreeing request cons retired claim =>
    if (s.metaAt cons).claimControl = claim ∧ !spuriousFailure then
      some ((s.setClaim (s.index cons) .zero).afterDrop t request retired)
    else some (s.producerAt t (.dropComparing request cons retired (s.metaAt cons).claimControl))
  | _ => none

def produce (t nowNs : Nat) (observed : Status) (spuriousFailure : Bool) : Option (MpscSystem μ) :=
  ((s.claimNext t nowNs (s.producers t)).or (s.ownNext t (s.producers t))).or
    (s.fullNext t observed spuriousFailure (s.producers t))

/-! ### The consumer -/

/-- Behind the retirement of the slot at `cons`. -/
def afterRelease : MpscReturn → MpscSystem μ
  | .poll => s.consumerAt .polling
  | .corruption | .ack => s.consumerAt .idle

/-- What the log says when the cursor passes `cons`. -/
def retirement (cons : Nat) : MpscReturn → MpscEvent μ
  | .poll => .skipped cons
  | .corruption => .corrupted cons
  | .ack => .acked cons

def consume (spuriousFailure : Bool) : Option (MpscSystem μ) :=
  match s.consumer with
  | .polling => some (s.consumerAt (.comparing s.consumerCursor))
  | .comparing cons =>
    if cons = s.reservationCursor then some ((s.consumerAt .idle).emit .wouldBlock)
    else some (s.consumerAt (.probing cons))
  | .probing cons => some (s.consumerAt (.judging cons (s.slotAt cons).turn))
  | .judging cons turn =>
    if (s.slotAt cons).state = .aborted then some (s.consumerAt (.retiring cons .poll))
    else if turn ≠ cons + 1 ∨ (s.slotAt cons).state ≠ .ready then
      some ((s.consumerAt .idle).emit .wouldBlock)
    else some (s.consumerAt (.checking cons))
  | .checking cons =>
    if (s.slotAt cons).sequenceNum ≠ cons then some (s.consumerAt (.retiring cons .corruption))
    else some (s.consumerAt (.copying cons))
  | .copying cons => some (s.consumerAt (.copied cons (s.slotAt cons).content))
  | .copied cons content =>
    some (s.consumerAt (.verifying cons content (s.slotAt cons).sequenceNum))
  | .verifying cons content sequenceNum =>
    if (s.slotAt cons).immutableMetadataCrc ≠ crc sequenceNum content then
      some (s.consumerAt (.retiring cons .corruption))
    else some ((s.consumerAt .idle).emit (.polled sequenceNum content))
  | .retiring cons next =>
    some ((s.setTurn (s.index cons) (cons + s.capacity)).consumerAt (.advancing cons next))
  | .advancing cons next =>
    some (((s.setConsumerCursor (cons + 1)).consumerAt (.releasing cons next)).emit
      (retirement cons next))
  | .releasing cons next =>
    some (s.consumerAt (.comparingClaim cons next (s.metaAt cons).claimControl))
  | .comparingClaim cons next claim =>
    if claim ≠ .zero ∧ (s.metaAt cons).claimSequence = cons then
      some (s.consumerAt (.freeing cons next claim))
    else some (s.afterRelease next)
  | .freeing cons next claim =>
    if (s.metaAt cons).claimControl = claim ∧ !spuriousFailure then
      some ((s.setClaim (s.index cons) .zero).afterRelease next)
    else some (s.consumerAt (.comparingClaim cons next (s.metaAt cons).claimControl))
  | .idle => none

/-- A message that `Poll` has returned. -/
def borrowed (sequence : Nat) : Bool :=
  s.log.any fun event => event.polledSequence == some sequence

/-! ### Recovery -/

/-- The scan goes on to the next slot, or ends. -/
def scanOn (t phys : Nat) : MpscSystem μ :=
  if phys + 1 < s.capacity then s.scannerAt t (.scanning (phys + 1))
  else (s.scannerAt t .idle).emit .scanned

/-- A reservation whose lease has run out at `nowNs`. -/
def expired (timestamp nowNs leaseNs : Nat) : Bool :=
  timestamp = 0 || nowNs < timestamp || nowNs - timestamp ≥ leaseNs

/-- A probe may answer that a process is dead only if it is. -/
def mayBeDead (processId : UInt32) : Bool :=
  processId ≠ 0 && s.dead.contains processId

def recover (t nowNs leaseNs : Nat) (probedDead : Bool) : Option (MpscSystem μ) :=
  match s.scanners t with
  | .idle => none
  | .scanning phys =>
    if (s.metas phys).claimControl = .zero then some (s.scanOn t phys)
    else some (s.scannerAt t (.sequenced phys (s.metas phys).claimControl))
  | .sequenced phys claim =>
    if claim.phase = .initializing then some (s.scannerAt t (.revoking phys claim))
    else some (s.scannerAt t (.timed phys claim (s.metas phys).claimSequence))
  | .revoking phys claim =>
    if probedDead then
      if s.mayBeDead claim.processId then some (s.scannerAt t (.releasing phys claim)) else none
    else some (s.scanOn t phys)
  | .timed phys claim seq =>
    if expired (s.metas phys).reservationTimestampNs nowNs leaseNs then
      some (s.scannerAt t (.identified phys claim seq))
    else some (s.scanOn t phys)
  | .identified phys claim seq =>
    if probedDead then
      if s.mayBeDead (s.metas phys).ownerProcessId then
        some (s.scannerAt t (.compared phys claim seq))
      else none
    else some (s.scanOn t phys)
  | .compared phys claim seq =>
    if seq ≥ s.reservationCursor then some (s.scannerAt t (.releasing phys claim))
    else some (s.scannerAt t (.numbered phys claim seq))
  | .releasing phys claim =>
    if (s.metas phys).claimControl = claim then some ((s.setClaim phys .zero).scanOn t phys)
    else some (s.scanOn t phys)
  | .numbered phys claim seq =>
    if (s.slots phys).sequenceNum ≠ seq then some (s.scannerAt t (.renumbering phys claim seq))
    else some (s.scannerAt t (.judged phys claim seq))
  | .renumbering phys claim seq =>
    some ((s.setSequence phys seq).scannerAt t (.burying phys claim seq))
  | .burying phys _ seq => some (((s.setState phys .aborted).emit (.buried seq)).scanOn t phys)
  | .judged phys claim seq =>
    let state := (s.slots phys).state
    if state = .reserved ∨ state = .writing ∨ claim.phase = .cursorAdvanced then
      some (s.scannerAt t (.aborting phys claim seq state))
    else if state = .ready then some (s.scannerAt t (.turning phys claim seq))
    else some (s.scanOn t phys)
  | .aborting phys _ seq state =>
    if (s.slots phys).state = state then
      some (((s.setState phys .aborted).emit (.buried seq)).scanOn t phys)
    else some (s.scanOn t phys)
  | .turning phys claim seq =>
    if (s.slots phys).turn = seq then some (s.scannerAt t (.marking phys claim seq))
    else some (s.scanOn t phys)
  | .marking phys claim seq =>
    some ((s.setClaim phys (claim.withClaimPhase .ready)).scannerAt t (.publishing phys claim seq))
  | .publishing phys _ seq => some ((s.setTurn phys (seq + 1)).scanOn t phys)

/-! ### One step -/

def alive (t : Nat) : Bool := !s.dead.contains (s.process t)

def produceCall (t : Nat) : MpscAction μ → Option (MpscSystem μ)
  | .reserve _ request =>
    match s.producers t with
    | .idle => some (s.producerAt t (.loading request))
    | _ => none
  | .fill _ content =>
    match s.producers t with
    | .reserved res => some (s.setSlot (s.index res) fun slot => { slot with content })
    | _ => none
  | .commit _ =>
    match s.producers t with
    | .reserved res =>
      some ((s.setSlot (s.index res) fun slot => { slot with
        immutableMetadataCrc := crc slot.sequenceNum slot.content }).producerAt t (.sealed res))
    | _ => none
  | .abort _ =>
    match s.producers t with
    | .reserved res =>
      if (s.slotAt res).state = .writing then
        some (((s.setState (s.index res) .aborted).producerAt t (.tombstoned res)).emit
          (.tombstoned res))
      else if (s.slotAt res).state = .aborted then some (s.producerAt t (.tombstoned res))
      else some ((s.producerAt t .idle).emit (.abortFailed res))
    | _ => none
  | .produce _ nowNs observed spuriousFailure => s.produce t nowNs observed spuriousFailure
  | _ => none

/-- One step of the system. A producer whose process has died takes no step. -/
def step (action : MpscAction μ) : Option (MpscSystem μ) :=
  match action with
  | .reserve t _ | .fill t _ | .commit t | .abort t | .produce t _ _ _ =>
    if s.alive t then produceCall crc s t action else none
  | .poll =>
    match s.consumer with
    | .idle => some (s.consumerAt .polling)
    | _ => none
  | .ack sequence =>
    match s.consumer with
    | .idle =>
      if s.borrowed sequence then
        if sequence ≠ s.consumerCursor then some (s.emit (.overtaken sequence))
        else some (s.consumerAt (.retiring sequence .ack))
      else none
    | _ => none
  | .consume spuriousFailure => consume crc s spuriousFailure
  | .scan t =>
    match s.scanners t with
    | .idle => some (s.scannerAt t (.scanning 0))
    | _ => none
  | .recover t nowNs leaseNs probedDead => s.recover t nowNs leaseNs probedDead
  | .die process => some { s with dead := process :: s.dead }

end MpscSystem

end Mino.Shm
