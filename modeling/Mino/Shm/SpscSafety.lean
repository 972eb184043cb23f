import Mino.Lib.EventLog
import Mino.Shm.SpscChannel

/-! # The SPSC channel is a queue

The slots between the two cursors hold what was committed or aborted at their positions.
The consumer acts on the position it has read the cursor at. As long as the producer
drops nothing while the consumer is inside a call, that is still the position of the
cursor when the consumer stores, and every position is retired once: acknowledged,
dropped or, if it is a tombstone, skipped. -/

namespace Mino.Shm.SpscSystem

open Function SpscEvent
open EventLog (times)

variable {μ : Type} (crc : SlotCrc μ)

/-- What a queue promises: the cursors are at most a capacity apart, messages come out in
the order of their commits and with what was committed, each is acknowledged once, dropped
once or still queued, and nothing is corrupt. -/
structure Safe (s : SpscSystem μ) : Prop where
  cursors : s.consumerCursor ≤ s.producerCursor ∧
    s.producerCursor ≤ s.consumerCursor + s.capacity
  accounted : ∀ p m, .committed p m ∈ s.log →
    times SpscEvent.ackedSequence s.log p + times SpscEvent.droppedSequence s.log p +
      (if s.consumerCursor ≤ p then 1 else 0) = 1
  committedInOrder : (s.log.filterMap SpscEvent.committedSequence).Pairwise (· < ·)
  polledInOrder : (s.log.filterMap SpscEvent.polledSequence).Pairwise (· ≤ ·)
  polledCommitted : ∀ p m, .polled p m ∈ s.log → .committed p m ∈ s.log
  uncorrupted : ∀ p, .corrupted p ∉ s.log

/-! ### Slots and positions -/

variable {s : SpscSystem μ} {log : List (SpscEvent μ)}

theorem index_eq (h : ∃ k, s.capacity = 2 ^ k) (p : Nat) : s.index p = p % s.capacity :=
  and_mask_eq_mod h p

theorem slotAt_setSlot_self (s : SpscSystem μ) (pos : Nat) (f : IndexSlot μ → IndexSlot μ) :
    (s.setSlot pos f).slotAt pos = f (s.slotAt pos) := update_self _ _ _

theorem slotAt_setSlot_of_ne (h : ∃ k, s.capacity = 2 ^ k) {pos p}
    (hne : p % s.capacity ≠ pos % s.capacity) (f : IndexSlot μ → IndexSlot μ) :
    (s.setSlot pos f).slotAt p = s.slotAt p := by
  refine update_of_ne ?_ _ _
  rw [index_eq (s := s) h]
  exact fun heq => hne ((index_eq (s := s) h p).symm.trans heq)

/-- The message at a position that was committed, or the tombstone of one that was aborted. -/
def Live (slot : IndexSlot μ) (log : List (SpscEvent μ)) (p : Nat) : Prop :=
  slot.sequenceNum = p ∧
    ((slot.state = .ready ∧ slot.immutableMetadataCrc = crc p slot.content ∧
        .committed p slot.content ∈ log) ∨
      (slot.state = .aborted ∧ .aborted p ∈ log))

theorem Live.mono {slot p}
    (h : Live crc slot log p) (e : SpscEvent μ) : Live crc slot (log ++ [e]) p := by
  obtain ⟨hseq, ⟨hstate, hcrc, hcom⟩ | ⟨hstate, hab⟩⟩ := h
  · exact ⟨hseq, .inl ⟨hstate, hcrc, List.mem_append_left _ hcom⟩⟩
  · exact ⟨hseq, .inr ⟨hstate, List.mem_append_left _ hab⟩⟩

/-- The consumer has retired the slot at its position and not moved the cursor yet. -/
def retiring (c : SpscConsumer μ) : Option Nat :=
  match c with
  | .skipped cons | .acked cons => some cons
  | _ => none

/-- The consumer is in a call that has loaded the consumer cursor. -/
def loaded (c : SpscConsumer μ) : Bool :=
  match c with
  | .idle | .polling => false
  | _ => true

/-- What the producer has made sure of by now. -/
def ProducerOk (s : SpscSystem μ) : SpscProducer μ → Prop
  | .idle => True
  | .reserving _ _ prod | .waiting prod => prod = s.producerCursor
  | .dropping prod cons => prod = s.producerCursor ∧ prod = cons + s.capacity ∧
      cons ≤ s.consumerCursor
  | .dropped prod cons => prod = s.producerCursor ∧ prod = cons + s.capacity ∧
      cons < s.consumerCursor
  | .claiming prod => prod = s.producerCursor ∧ prod < s.consumerCursor + s.capacity
  | .stamped prod | .reserved prod =>
    (prod = s.producerCursor ∧ prod < s.consumerCursor + s.capacity) ∧
      (s.slotAt prod).sequenceNum = prod
  | .sealed prod => (prod = s.producerCursor ∧ prod < s.consumerCursor + s.capacity) ∧
      (s.slotAt prod).sequenceNum = prod ∧
      (s.slotAt prod).immutableMetadataCrc = crc prod (s.slotAt prod).content
  | .published prod => (prod = s.producerCursor ∧ prod < s.consumerCursor + s.capacity) ∧
      (s.slotAt prod).sequenceNum = prod ∧
      (s.slotAt prod).immutableMetadataCrc = crc prod (s.slotAt prod).content ∧
      (s.slotAt prod).state = .ready
  | .tombstoned prod => (prod = s.producerCursor ∧ prod < s.consumerCursor + s.capacity) ∧
      (s.slotAt prod).sequenceNum = prod ∧ (s.slotAt prod).state = .aborted

/-- The consumer is at the cursor, below the producer, and has read what is in the slot. -/
def ConsumerOk (s : SpscSystem μ) : SpscConsumer μ → Prop
  | .idle | .polling => True
  | .comparing cons => cons = s.consumerCursor
  | .probing cons => cons = s.consumerCursor ∧ cons < s.producerCursor
  | .skipping cons | .skipped cons =>
    (cons = s.consumerCursor ∧ cons < s.producerCursor) ∧ .aborted cons ∈ s.log
  | .checking cons | .copying cons => (cons = s.consumerCursor ∧ cons < s.producerCursor) ∧
      (s.slotAt cons).state = .ready
  | .copied cons content => (cons = s.consumerCursor ∧ cons < s.producerCursor) ∧
      (s.slotAt cons).state = .ready ∧ content = (s.slotAt cons).content
  | .verifying cons content sequenceNum => (cons = s.consumerCursor ∧ cons < s.producerCursor) ∧
      (s.slotAt cons).state = .ready ∧ content = (s.slotAt cons).content ∧ sequenceNum = cons
  | .discarding _ | .discarded _ => False
  | .acking cons | .acked cons => cons = s.consumerCursor ∧ cons < s.producerCursor

/-- What the log says of the positions. -/
structure Logged (prod cons : Nat) (log : List (SpscEvent μ)) : Prop where
  committed_lt : ∀ p m, .committed p m ∈ log → p < prod
  aborted_lt : ∀ p, .aborted p ∈ log → p < prod
  abortedAlone : ∀ p m, .aborted p ∈ log → .committed p m ∉ log
  committedInOrder : (log.filterMap SpscEvent.committedSequence).Pairwise (· < ·)
  polledInOrder : (log.filterMap SpscEvent.polledSequence).Pairwise (· ≤ ·)
  polled_le : ∀ p m, .polled p m ∈ log → p ≤ cons
  polledCommitted : ∀ p m, .polled p m ∈ log → .committed p m ∈ log
  skippedAborted : ∀ p, .skipped p ∈ log → .aborted p ∈ log
  retiredOnce : ∀ p, times SpscEvent.ackedSequence log p + times SpscEvent.droppedSequence log p +
    times SpscEvent.skippedSequence log p = if p < cons then 1 else 0
  uncorrupted : ∀ p, .corrupted p ∉ log

structure Inv (s : SpscSystem μ) : Prop where
  capacity : ∃ k, s.capacity = 2 ^ k
  le : s.consumerCursor ≤ s.producerCursor
  room : s.producerCursor ≤ s.consumerCursor + s.capacity
  window : ∀ p, s.consumerCursor ≤ p → p < s.producerCursor →
    Live crc (s.slotAt p) s.log p ∨ retiring s.consumer = some p
  producer : ProducerOk crc s s.producer
  consumer : ConsumerOk s s.consumer
  logged : Logged s.producerCursor s.consumerCursor s.log

variable {crc}

theorem Logged.safe_accounting {prod cons} (h : Logged prod cons log)
    {p m} (hp : .committed p m ∈ log) : times ackedSequence log p + times droppedSequence log p +
      (if cons ≤ p then 1 else 0) = 1 := by
  have hskip : times skippedSequence log p = 0 := by
    refine EventLog.times_eq_zero fun e he hs => ?_
    cases e with
    | skipped q =>
      have : q = p := by simpa [skippedSequence] using hs
      subst this
      exact h.abortedAlone q m (h.skippedAborted q he) hp
    | _ => simp [skippedSequence] at hs
  have honce := h.retiredOnce p
  split at honce <;> split <;> omega

theorem Inv.safe (h : Inv crc s) : Safe s where
  cursors := ⟨h.le, h.room⟩
  accounted _ _ hp := h.logged.safe_accounting hp
  committedInOrder := h.logged.committedInOrder
  polledInOrder := h.logged.polledInOrder
  polledCommitted := h.logged.polledCommitted
  uncorrupted := h.logged.uncorrupted

end Mino.Shm.SpscSystem
