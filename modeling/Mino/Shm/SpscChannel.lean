import Mino.Lib.Interleaving
import Mino.Shm.IndexSlot

/-! # The SPSC channel

One producer and one consumer share a ring of index slots. Each step below is one atomic
access of one of them, or one access of the metadata of a slot. The producer finishes a
reservation before it makes the next; the consumer may acknowledge any message it has
been given. The cursors count without wrapping. -/

namespace Mino.Shm

/-- Where the producer stands. -/
inductive SpscProducer (μ : Type) where
  | idle
  /-- `Reserve` has read its own cursor. -/
  | reserving (policy : QueueFullPolicy) (sampleRate : Nat) (prod : Nat)
  /-- The queue was full and it waits for room. -/
  | waiting (prod : Nat)
  /-- The queue was full and it is about to drop the oldest message. -/
  | dropping (prod cons : Nat)
  /-- The cursor is past the oldest message, whose slot is not retired yet. -/
  | dropped (prod cons : Nat)
  | claiming (prod : Nat)
  | stamped (prod : Nat)
  /-- `Reserve` has returned. -/
  | reserved (prod : Nat)
  | sealed (prod : Nat)
  | published (prod : Nat)
  | tombstoned (prod : Nat)
  deriving DecidableEq, Repr

/-- Where the consumer stands. -/
inductive SpscConsumer (μ : Type) where
  | idle
  /-- At the head of the loop of `Poll`. -/
  | polling
  | comparing (cons : Nat)
  | probing (cons : Nat)
  | skipping (cons : Nat)
  | skipped (cons : Nat)
  | checking (cons : Nat)
  | copying (cons : Nat)
  | copied (cons : Nat) (content : μ)
  | verifying (cons : Nat) (content : μ) (sequenceNum : Nat)
  | discarding (cons : Nat)
  | discarded (cons : Nat)
  | acking (cons : Nat)
  | acked (cons : Nat)
  deriving DecidableEq, Repr

inductive SpscEvent (μ : Type) where
  | committed (sequence : Nat) (content : μ)
  | aborted (sequence : Nat)
  | refused (status : Status)
  | dropped (sequence : Nat)
  | polled (sequence : Nat) (content : μ)
  | skipped (sequence : Nat)
  | corrupted (sequence : Nat)
  | wouldBlock
  | acked (sequence : Nat)
  | overtaken (sequence : Nat)
  deriving DecidableEq, Repr

namespace SpscEvent

variable {μ : Type}

def polledSequence : SpscEvent μ → Option Nat
  | .polled sequence _ => some sequence
  | _ => none

def committedSequence : SpscEvent μ → Option Nat
  | .committed sequence _ => some sequence
  | _ => none

def ackedSequence : SpscEvent μ → Option Nat
  | .acked sequence => some sequence
  | _ => none

def droppedSequence : SpscEvent μ → Option Nat
  | .dropped sequence => some sequence
  | _ => none

def skippedSequence : SpscEvent μ → Option Nat
  | .skipped sequence => some sequence
  | _ => none

end SpscEvent

structure SpscSystem (μ : Type) where
  capacity : Nat
  producerCursor : Nat
  consumerCursor : Nat
  slots : Nat → IndexSlot μ
  producer : SpscProducer μ
  consumer : SpscConsumer μ
  log : List (SpscEvent μ)

inductive SpscAction (μ : Type) where
  | reserve (policy : QueueFullPolicy) (sampleRate : Nat)
  | fill (content : μ)
  | commit
  | abort
  /-- The producer goes on; a payload observer says whether it could retire the payload. -/
  | produce (retired : Status)
  | poll
  | ack (sequence : Nat)
  | consume
  deriving DecidableEq, Repr

namespace SpscSystem

variable {μ : Type} (crc : SlotCrc μ)

def init (emptyContent : μ) (base capacity : Nat) : Result (SpscSystem μ) :=
  if base = 0 then .error (.error .invalidArgument "shm_base must not be null")
  else if base % 64 ≠ 0 then .error (.error .invalidArgument "shm_base must be 64-byte aligned")
  else if capacity < 2 ∨ !isPowerOfTwo capacity then
    .error (.error .invalidArgument "capacity must be a power of two and >= 2")
  else if capacity > 2 ^ 32 then
    .error (.error .invalidArgument "capacity exceeds the supported maximum (2^32)")
  else .ok {
    capacity
    producerCursor := 0
    consumerCursor := 0
    slots := fun i => ⟨emptyContent, i, 0, .free, i⟩
    producer := .idle
    consumer := .idle
    log := [] }

variable (s : SpscSystem μ)

def index (pos : Nat) : Nat := pos &&& (s.capacity - 1)

def slotAt (pos : Nat) : IndexSlot μ := s.slots (s.index pos)

def setSlot (pos : Nat) (f : IndexSlot μ → IndexSlot μ) : SpscSystem μ :=
  { s with slots := Function.update s.slots (s.index pos) (f (s.slotAt pos)) }

def setState (pos : Nat) (state : SlotState) : SpscSystem μ :=
  s.setSlot pos fun slot => { slot with state }

def emit (event : SpscEvent μ) : SpscSystem μ :=
  { s with log := s.log ++ [event] }

def producerAt (producer : SpscProducer μ) : SpscSystem μ := { s with producer }

def consumerAt (consumer : SpscConsumer μ) : SpscSystem μ := { s with consumer }

def setProducerCursor (producerCursor : Nat) : SpscSystem μ :=
  { s with producerCursor }

def setConsumerCursor (consumerCursor : Nat) : SpscSystem μ :=
  { s with consumerCursor }

/-- What `Reserve` does about a full queue. -/
def onFull (policy : QueueFullPolicy) (sampleRate prod cons : Nat) : SpscSystem μ :=
  match policy with
  | .fail => (s.producerAt .idle).emit (.refused (.error .resourceExhausted "SPSC queue full"))
  | .block => s.producerAt (.waiting prod)
  | .dropNewest => (s.producerAt .idle).emit
      (.refused (.error .degraded "SPSC queue full: newest message dropped"))
  | .dropOldest => s.producerAt (.dropping prod cons)
  | .sample =>
    if prod % (if sampleRate = 0 then 1 else sampleRate) ≠ 0 then
      (s.producerAt .idle).emit (.refused (.error .degraded "SPSC queue full: message sampled out"))
    else s.producerAt (.waiting prod)

def produce (retired : Status) : Option (SpscSystem μ) :=
  match s.producer with
  | .reserving policy sampleRate prod =>
    if prod - s.consumerCursor ≥ s.capacity then
      some (s.onFull policy sampleRate prod s.consumerCursor)
    else some (s.producerAt (.claiming prod))
  | .waiting prod =>
    if prod - s.consumerCursor < s.capacity then some (s.producerAt (.claiming prod)) else some s
  | .dropping prod cons =>
    if s.consumerCursor = cons then
      some (((s.setConsumerCursor (cons + 1)).producerAt (.dropped prod cons)).emit (.dropped cons))
    else some (s.producerAt (.claiming prod))
  | .dropped prod cons =>
    if retired.ok then some ((s.setState cons .retired).producerAt (.claiming prod))
    else some (((s.setState cons .retired).producerAt .idle).emit (.refused retired))
  | .claiming prod =>
    some ((s.setSlot prod fun slot => { slot with sequenceNum := prod }).producerAt (.stamped prod))
  | .stamped prod => some ((s.setState prod .writing).producerAt (.reserved prod))
  | .sealed prod => some ((s.setState prod .ready).producerAt (.published prod))
  | .published prod =>
    some (((s.setProducerCursor (s.producerCursor + 1)).producerAt .idle).emit
      (.committed prod (s.slotAt prod).content))
  | .tombstoned prod =>
    some (((s.setProducerCursor (s.producerCursor + 1)).producerAt .idle).emit (.aborted prod))
  | _ => none

def consume : Option (SpscSystem μ) :=
  match s.consumer with
  | .polling => some (s.consumerAt (.comparing s.consumerCursor))
  | .comparing cons =>
    if cons = s.producerCursor then some ((s.consumerAt .idle).emit .wouldBlock)
    else some (s.consumerAt (.probing cons))
  | .probing cons =>
    match (s.slotAt cons).state with
    | .aborted => some (s.consumerAt (.skipping cons))
    | .ready => some (s.consumerAt (.checking cons))
    | _ => some ((s.consumerAt .idle).emit .wouldBlock)
  | .skipping cons => some ((s.setState cons .retired).consumerAt (.skipped cons))
  | .skipped cons =>
    some (((s.setConsumerCursor (cons + 1)).consumerAt .polling).emit (.skipped cons))
  | .checking cons =>
    if (s.slotAt cons).sequenceNum ≠ cons then some (s.consumerAt (.discarding cons))
    else some (s.consumerAt (.copying cons))
  | .copying cons => some (s.consumerAt (.copied cons (s.slotAt cons).content))
  | .copied cons content =>
    some (s.consumerAt (.verifying cons content (s.slotAt cons).sequenceNum))
  | .verifying cons content sequenceNum =>
    if (s.slotAt cons).immutableMetadataCrc ≠ crc sequenceNum content then
      some (s.consumerAt (.discarding cons))
    else some ((s.consumerAt .idle).emit (.polled sequenceNum content))
  | .discarding cons => some ((s.setState cons .retired).consumerAt (.discarded cons))
  | .discarded cons =>
    some (((s.setConsumerCursor (cons + 1)).consumerAt .idle).emit (.corrupted cons))
  | .acking cons => some ((s.setState cons .retired).consumerAt (.acked cons))
  | .acked cons => some (((s.setConsumerCursor (cons + 1)).consumerAt .idle).emit (.acked cons))
  | .idle => none

/-- A message that `Poll` has returned. -/
def borrowed (sequence : Nat) : Bool :=
  s.log.any fun event => event.polledSequence == some sequence

def step : SpscAction μ → Option (SpscSystem μ)
  | .reserve policy sampleRate =>
    match s.producer with
    | .idle => some (s.producerAt (.reserving policy sampleRate s.producerCursor))
    | _ => none
  | .fill content =>
    match s.producer with
    | .reserved prod => some (s.setSlot prod fun slot => { slot with content })
    | _ => none
  | .commit =>
    match s.producer with
    | .reserved prod =>
      some ((s.setSlot prod fun slot => { slot with
        immutableMetadataCrc := crc slot.sequenceNum slot.content }).producerAt (.sealed prod))
    | _ => none
  | .abort =>
    match s.producer with
    | .reserved prod => some ((s.setState prod .aborted).producerAt (.tombstoned prod))
    | _ => none
  | .produce retired => s.produce retired
  | .poll =>
    match s.consumer with
    | .idle => some (s.consumerAt .polling)
    | _ => none
  | .ack sequence =>
    match s.consumer with
    | .idle =>
      if s.borrowed sequence then
        if sequence ≠ s.consumerCursor then some (s.emit (.overtaken sequence))
        else some (s.consumerAt (.acking sequence))
      else none
    | _ => none
  | .consume => consume crc s

end SpscSystem

end Mino.Shm
