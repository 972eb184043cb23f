import Mino.Lib.EventLog
import Mino.Shm.MpscChannel

/-! # The MPSC channel as a queue

A position below the reservation cursor that the consumer has not retired is held by one
producer, a tombstone, or a committed message; the turn of its slot tells which lap the
slot is in. The claims play no part: whoever moves the reservation cursor from `res` owns
`res`. So the invariant is about the cursors, the slots and the log, the `MpscRing`, and
about where the producers and the consumer stand. -/

namespace Mino.Shm

open Function EventLog

/-- The words the queue is made of, and what has happened to it. `frontier` is the first
position whose slot the consumer has not marked free. -/
structure MpscRing (μ : Type) where
  capacity : Nat
  reserved : Nat
  cons : Nat
  frontier : Nat
  slots : Nat → IndexSlot μ
  log : List (MpscEvent μ)

namespace MpscProducer

/-- The position whose reservation a producer holds and has not finished. -/
def holds : MpscProducer → Option Nat
  | .advanced res _ | .numbering res _ | .opening res _ | .opened res _ | .reserved res
  | .sealed res | .readied res | .marking res _ | .publishing res => some res
  | _ => none

/-- The position a producer has found free and not yet taken. -/
def aims : MpscProducer → Option Nat
  | .drawing _ res | .redrawing _ res | .tagging _ res _ | .sequencing _ res _
  | .identifying _ res _ | .timing _ res _ | .owning _ res _ | .advancing _ res _ => some res
  | _ => none

/-- The position a producer has dropped without marking its slot free yet. -/
def drops : MpscProducer → Option Nat
  | .dropRetiring _ cons => some cons
  | _ => none

/-- The position a producer has made a tombstone, while its `Abort` has not returned. -/
def buries : MpscProducer → Option Nat
  | .tombstoned res | .unmarking res _ => some res
  | _ => none

/-- The position at which a producer last read the reservation cursor. -/
def probes : MpscProducer → Option Nat
  | .probing _ res => some res
  | _ => none

variable {l : MpscProducer} {p : Nat}

/-- A producer that holds a position is at no other. -/
theorem of_holds (h : l.holds = some p) :
    l.drops = none ∧ l.aims = none ∧ l.probes = none ∧ l.buries = none := by
  cases l <;> first | exact ⟨rfl, rfl, rfl, rfl⟩ | cases h

theorem of_drops (h : l.drops = some p) :
    l.holds = none ∧ l.aims = none ∧ l.probes = none ∧ l.buries = none := by
  cases l <;> first | exact ⟨rfl, rfl, rfl, rfl⟩ | cases h

theorem of_aims (h : l.aims = some p) :
    l.holds = none ∧ l.drops = none ∧ l.probes = none ∧ l.buries = none := by
  cases l <;> first | exact ⟨rfl, rfl, rfl, rfl⟩ | cases h

end MpscProducer

/-- The consumer has marked a slot free and not moved its cursor yet. -/
def MpscConsumer.ahead {μ : Type} : MpscConsumer μ → Nat
  | .advancing _ _ => 1
  | _ => 0

/-- The consumer is in a call that has loaded the consumer cursor and not yet moved it. -/
def MpscConsumer.holdsCursor {μ : Type} : MpscConsumer μ → Bool
  | .idle | .polling | .releasing _ _ | .comparingClaim _ _ _ | .freeing _ _ _ => false
  | _ => true

namespace MpscRing

variable {μ : Type} (crc : SlotCrc μ)

def slotAt (r : MpscRing μ) (p : Nat) : IndexSlot μ := r.slots (p % r.capacity)

def setSlot (r : MpscRing μ) (p : Nat) (f : IndexSlot μ → IndexSlot μ) : MpscRing μ :=
  { r with slots := Function.update r.slots (p % r.capacity) (f (r.slotAt p)) }

def setTurn (r : MpscRing μ) (p turn : Nat) : MpscRing μ :=
  r.setSlot p fun slot => { slot with turn }

def emit (r : MpscRing μ) (e : MpscEvent μ) : MpscRing μ := { r with log := r.log ++ [e] }

/-- What a holder has written to its slot. -/
def Written (slot : IndexSlot μ) : MpscProducer → Prop
  | .opening res _ => slot.sequenceNum = res
  | .opened res _ | .reserved res => slot.sequenceNum = res ∧ slot.state = .writing
  | .sealed res => slot.sequenceNum = res ∧ slot.state = .writing ∧
      slot.immutableMetadataCrc = crc res slot.content
  | .readied res | .marking res _ | .publishing res =>
    slot.sequenceNum = res ∧ slot.state = .ready ∧
      slot.immutableMetadataCrc = crc res slot.content
  | _ => True

structure Tombstone (slot : IndexSlot μ) (log : List (MpscEvent μ)) (p : Nat) : Prop where
  turn : slot.turn = p
  state : slot.state = .aborted
  logged : .tombstoned p ∈ log

structure Committed (slot : IndexSlot μ) (log : List (MpscEvent μ)) (p : Nat) : Prop where
  turn : slot.turn = p + 1
  state : slot.state = .ready
  sequenceNum : slot.sequenceNum = p
  sealed : slot.immutableMetadataCrc = crc p slot.content
  logged : .committed p slot.content ∈ log

structure Held (r : MpscRing μ) (l : MpscProducer) (p : Nat) : Prop where
  le : r.frontier ≤ p
  lt : p < r.reserved
  turn : (r.slotAt p).turn = p
  untombstoned : .tombstoned p ∉ r.log
  uncommitted : ∀ m, .committed p m ∉ r.log
  written : Written crc (r.slotAt p) l

/-- What a producer has made sure of by now. -/
structure ProducerOk (r : MpscRing μ) (l : MpscProducer) : Prop where
  held : ∀ p, l.holds = some p → Held crc r l p
  probed : ∀ p, l.probes = some p → p ≤ r.reserved
  aimed : ∀ p, l.aims = some p → p ≤ r.reserved ∧ (p = r.reserved → (r.slotAt p).turn = p)
  dropped : ∀ p, l.drops = some p → p < r.cons ∧ r.reserved ≤ p + r.capacity ∧
    (r.slotAt p).turn = p + 1
  buried : ∀ p, l.buries = some p → .tombstoned p ∈ r.log

/-- Why the consumer may retire a position. -/
def Retirable (log : List (MpscEvent μ)) (cons : Nat) : MpscReturn → Prop
  | .poll => .tombstoned cons ∈ log
  | .ack => ∃ m, .polled cons m ∈ log
  | .corruption => False

def AtHead (r : MpscRing μ) (cons : Nat) : Prop := cons = r.cons ∧ cons < r.reserved

def ConsumerOk (r : MpscRing μ) : MpscConsumer μ → Prop
  | .comparing cons => cons = r.cons
  | .probing cons => r.AtHead cons
  | .judging cons turn => r.AtHead cons ∧ (turn = cons + 1 → (r.slotAt cons).turn = cons + 1)
  | .checking cons | .copying cons => r.AtHead cons ∧ (r.slotAt cons).turn = cons + 1
  | .copied cons content => r.AtHead cons ∧ (r.slotAt cons).turn = cons + 1 ∧
      content = (r.slotAt cons).content
  | .verifying cons content sequenceNum => r.AtHead cons ∧ (r.slotAt cons).turn = cons + 1 ∧
      content = (r.slotAt cons).content ∧ sequenceNum = cons
  | .retiring cons next | .advancing cons next => r.AtHead cons ∧ Retirable r.log cons next
  | _ => True

/-- What the log says of the positions. -/
structure Logged (reserved cons : Nat) (log : List (MpscEvent μ)) : Prop where
  committed_lt : ∀ p m, .committed p m ∈ log → p < reserved
  tombstoned_lt : ∀ p, .tombstoned p ∈ log → p < reserved
  apart : ∀ p m, .tombstoned p ∈ log → .committed p m ∉ log
  committedOnce : ∀ p m m', .committed p m ∈ log → .committed p m' ∈ log → m = m'
  abortedTombstoned : ∀ p, .aborted p ∈ log → .tombstoned p ∈ log
  polledInOrder : (log.filterMap MpscEvent.polledSequence).Pairwise (· ≤ ·)
  polled_le : ∀ p m, .polled p m ∈ log → p ≤ cons
  polledCommitted : ∀ p m, .polled p m ∈ log → .committed p m ∈ log
  skippedTombstoned : ∀ p, .skipped p ∈ log → .tombstoned p ∈ log
  ackedPolled : ∀ p, .acked p ∈ log → ∃ m, .polled p m ∈ log
  finished : log.Pairwise fun e e' => ∀ p m, e = .acked p → e' ≠ .polled p m
  retiredOnce : ∀ p, times MpscEvent.ackedSequence log p + times MpscEvent.droppedSequence log p +
    times MpscEvent.skippedSequence log p = if p < cons then 1 else 0
  uncorrupted : ∀ p, .corrupted p ∉ log

/-- Every position between the frontier and the reservation cursor is held by one producer,
a tombstone or committed, and every slot behind is free for the next lap or about to be. -/
structure Inv (r : MpscRing μ) (producers : Nat → MpscProducer) (consumer : MpscConsumer μ) :
    Prop where
  capacity : 2 ≤ r.capacity
  frontier : r.frontier = r.cons + consumer.ahead
  le : r.frontier ≤ r.reserved
  room : r.reserved ≤ r.frontier + r.capacity
  free : ∀ p, r.reserved ≤ p → p < r.frontier + r.capacity →
    (r.slotAt p).turn = p ∨ ∃ t q, (producers t).drops = some q ∧ p = q + r.capacity
  window : ∀ p, r.frontier ≤ p → p < r.reserved →
    (∃ t, (producers t).holds = some p) ∨ Tombstone (r.slotAt p) r.log p ∨
      Committed crc (r.slotAt p) r.log p
  each : ∀ t, ProducerOk crc r (producers t)
  holdsAlone : ∀ t t' p, (producers t).holds = some p → (producers t').holds = some p → t = t'
  dropsAlone : ∀ t t' p, (producers t).drops = some p → (producers t').drops = some p → t = t'
  reader : ConsumerOk r consumer
  logged : Logged r.reserved r.cons r.log

/-! ### Slots and laps -/

variable {crc} {r : MpscRing μ} {producers : Nat → MpscProducer} {consumer : MpscConsumer μ}

@[simp] theorem slotAt_setSlot_self (r : MpscRing μ) (p : Nat) (f : IndexSlot μ → IndexSlot μ) :
    (r.setSlot p f).slotAt p = f (r.slotAt p) := update_self _ _ _

variable {p q : Nat} {log : List (MpscEvent μ)} {slot : IndexSlot μ}

theorem slotAt_setSlot_of_ne (f : IndexSlot μ → IndexSlot μ) (hne : q % r.capacity ≠ p % r.capacity) :
    (r.setSlot p f).slotAt q = r.slotAt q :=
  update_of_ne hne _ _

/-- A slot that is in the lap of `p` is in no other lap. -/
theorem eq_of_turn {cap turn} (hcap : 2 ≤ cap) (hmod : p % cap = q % cap)
    (hp : turn = p ∨ turn = p + 1) (hq : turn = q ∨ turn = q + 1) : p = q := by
  by_contra hne
  rcases Nat.lt_or_gt_of_ne hne with hlt | hlt
  · exact (mod_ne_of_lt hlt (by omega)) hmod.symm
  · exact (mod_ne_of_lt hlt (by omega)) hmod

theorem turn_setSlot {f} (hf : (f (r.slotAt p)).turn = (r.slotAt p).turn) (q : Nat) :
    ((r.setSlot p f).slotAt q).turn = (r.slotAt q).turn := by
  by_cases hmod : q % r.capacity = p % r.capacity
  · have hq : (r.setSlot p f).slotAt q = f (r.slotAt p) := by
      change update _ _ _ (q % r.capacity) = _
      rw [hmod, update_self]
    rw [hq, hf]
    change (r.slots _).turn = (r.slots _).turn
    rw [hmod]
  · rw [slotAt_setSlot_of_ne f hmod]

theorem Tombstone.mono (h : Tombstone slot log p) (e : MpscEvent μ) :
    Tombstone slot (log ++ [e]) p :=
  ⟨h.turn, h.state, List.mem_append_left _ h.logged⟩

theorem Committed.mono (h : Committed crc slot log p) (e : MpscEvent μ) :
    Committed crc slot (log ++ [e]) p :=
  ⟨h.turn, h.state, h.sequenceNum, h.sealed, List.mem_append_left _ h.logged⟩

section

variable (h : Inv crc r producers consumer)
include h

/-- The slot of a position of the window is in the lap of that position. -/
theorem Inv.turn_window (hle : r.frontier ≤ p)
    (hlt : p < r.reserved) : (r.slotAt p).turn = p ∨ (r.slotAt p).turn = p + 1 := by
  rcases h.window p hle hlt with ⟨t, ht⟩ | htomb | hcom
  · exact .inl ((h.each t).held p ht).turn
  · exact .inl htomb.turn
  · exact .inr hcom.turn

/-- The slot of the reservation cursor is free for it only if there is room. -/
theorem Inv.room_of_turn
    (hturn : (r.slotAt r.reserved).turn = r.reserved) : r.reserved < r.frontier + r.capacity := by
  have hcap := h.capacity
  rcases Nat.lt_or_eq_of_le h.room with hlt | heq
  · exact hlt
  have hmod : r.reserved % r.capacity = r.frontier % r.capacity := by
    rw [heq, Nat.add_mod_right]
  have hslot : r.slotAt r.reserved = r.slotAt r.frontier := congrArg r.slots hmod
  have := eq_of_turn hcap hmod (.inl hturn) (hslot ▸ h.turn_window le_rfl (by omega))
  omega

/-- A held position is none that has been dropped, nor the next to be reserved. -/
theorem Inv.holds_ne_drops {t t'} (hp : (producers t).holds = some p)
    (hq : (producers t').drops = some q) : p % r.capacity ≠ q % r.capacity := by
  intro hmod
  have hheld := (h.each t).held p hp
  obtain ⟨hlt, -, hturn⟩ := (h.each t').dropped q hq
  have hslot : r.slotAt p = r.slotAt q := congrArg r.slots hmod
  have heq := eq_of_turn h.capacity hmod (.inl hheld.turn) (.inr (hslot ▸ hturn))
  have := hheld.le
  have := h.frontier
  omega

theorem Inv.window_ne (hp : r.frontier ≤ p) (hpr : p < r.reserved) (hq : r.frontier ≤ q)
    (hqr : q < r.reserved) (hne : p ≠ q) : p % r.capacity ≠ q % r.capacity := by
  have hroom := h.room
  rcases Nat.lt_or_gt_of_ne hne with hlt | hlt
  · exact (mod_ne_of_lt hlt (by omega)).symm
  · exact mod_ne_of_lt hlt (by omega)

end

end MpscRing

end Mino.Shm
