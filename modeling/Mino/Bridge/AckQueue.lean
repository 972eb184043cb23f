import Mino.Bridge.Frames
import Mino.Lib.OrderedMap

/-! # The queue of pending ACKs

ACKs wait in a list until the transport takes them. Accepted ACKs of one source
are merged: at most one cumulative ACK, and selective ones only above its mark.
A list node keeps its identity while its payload is overwritten, as an iterator
of the source's `std::list` does. -/

namespace Mino.Bridge

structure PendingAckSource where
  cumulative : Nat := 0
  hasCumulative : Bool := false
  /-- Observed sequence to list node. -/
  selective : List (Nat × Nat) := []
  deriving DecidableEq, Repr

structure AckQueue where
  /-- The list nodes with their payloads, front first. -/
  acks : List (Nat × AckPayload) := []
  nextNode : Nat := 0
  sources : SourceIdentity → Option PendingAckSource := fun _ => none

/-- Whether an ACK was written into the queue or was covered by one already there. -/
inductive AckPlacement where
  | stored
  | absorbed
  deriving DecidableEq, Repr

variable (q : AckQueue) (limit : Nat) (node : Nat) (ack : AckPayload)

namespace AckQueue

def payload : Option AckPayload := OrderedMap.find q.acks node

def overwrite : AckQueue :=
  { q with acks := OrderedMap.assign q.acks node ack }

def pushBack : AckQueue :=
  { q with acks := q.acks ++ [(q.nextNode, ack)], nextNode := q.nextNode + 1 }

def eraseNode : AckQueue :=
  { q with acks := OrderedMap.erase q.acks node }

def setSource (source : SourceIdentity) (s : PendingAckSource) : AckQueue :=
  { q with sources := Function.update q.sources source (some s) }

/-- `erase_empty_source`: an entry without ACKs is dropped. -/
def putSource (source : SourceIdentity) (s : PendingAckSource) : AckQueue :=
  let kept := if !s.hasCumulative && s.selective.isEmpty then none else some s
  { q with sources := Function.update q.sources source kept }

/-- The mark of the queued cumulative ACK. -/
def queuedHighest (s : PendingAckSource) : Nat :=
  ((q.payload s.cumulative).map AckPayload.highest).getD 0

def isCumulative : Bool :=
  ack.highestContiguousSequence.isSome && decide (ack.observedSequence ≤ ack.highest)

def canQueueAck : Bool :=
  if q.acks.length < limit then true
  else if ack.disposition ≠ .accepted then false
  else match q.sources ack.source with
    | none => false
    | some s =>
      if s.hasCumulative && (decide (ack.observedSequence ≤ q.queuedHighest s) ||
          isCumulative ack) then true
      else if (OrderedMap.find s.selective ack.observedSequence).isSome then true
      else if isCumulative ack then
        match s.selective.head? with
        | some (sequence, _) => decide (sequence ≤ ack.highest)
        | none => false
      else false

def full : Status := .error .wouldBlock "bridge pending ACK queue is full"

/-- Drop the selective ACKs a new cumulative one covers. -/
def eraseCovered (highest : Nat) (s : PendingAckSource) : AckQueue × PendingAckSource :=
  let covered := s.selective.takeWhile fun p => decide (p.1 ≤ highest)
  (covered.foldl (fun q p => q.eraseNode p.2) q,
    { s with selective := s.selective.drop covered.length })

def queueCumulative (s : PendingAckSource) : Result AckPlacement × AckQueue :=
  if s.hasCumulative then
    if ack.highest ≤ q.queuedHighest s then (.ok .absorbed, q.setSource ack.source s)
    else
      let (q, s) := (q.overwrite s.cumulative ack).eraseCovered ack.highest s
      (.ok .stored, q.setSource ack.source s)
  else
    match s.selective with
    | (sequence, node) :: rest =>
      if sequence ≤ ack.highest then
        -- the first covered selective ACK becomes the cumulative one in its place
        let s := { s with cumulative := node, hasCumulative := true, selective := rest }
        let (q, s) := (q.overwrite node ack).eraseCovered ack.highest s
        (.ok .stored, q.setSource ack.source s)
      else if q.acks.length ≥ limit then (.error full, q.putSource ack.source s)
      else
        let s := { s with cumulative := q.nextNode, hasCumulative := true }
        let (q, s) := (q.pushBack ack).eraseCovered ack.highest s
        (.ok .stored, q.setSource ack.source s)
    | [] =>
      if q.acks.length ≥ limit then (.error full, q.putSource ack.source s)
      else
        let s := { s with cumulative := q.nextNode, hasCumulative := true }
        (.ok .stored, (q.pushBack ack).setSource ack.source s)

def queueSelective (s : PendingAckSource) : Result AckPlacement × AckQueue :=
  if s.hasCumulative && decide (ack.observedSequence ≤ q.queuedHighest s) then
    (.ok .absorbed, q.setSource ack.source s)
  else match OrderedMap.find s.selective ack.observedSequence with
    | some node => (.ok .stored, (q.overwrite node ack).setSource ack.source s)
    | none =>
      if q.acks.length ≥ limit then (.error full, q.putSource ack.source s)
      else
        let s := { s with
          selective := OrderedMap.emplace ack.observedSequence q.nextNode s.selective }
        (.ok .stored, (q.pushBack ack).setSource ack.source s)

def queueAck : Result AckPlacement × AckQueue :=
  if ack.disposition ≠ .accepted then
    if q.acks.length ≥ limit then (.error full, q) else (.ok .stored, q.pushBack ack)
  else
    let s := (q.sources ack.source).getD {}
    if isCumulative ack then q.queueCumulative limit ack s else q.queueSelective limit ack s

def removePendingAck : AckQueue :=
  match q.payload node with
  | none => q
  | some ack =>
    let q := if ack.disposition = .accepted then
      match q.sources ack.source with
      | none => q
      | some s =>
        let s := if s.hasCumulative && s.cumulative == node then
          { s with hasCumulative := false } else s
        let s := if OrderedMap.find s.selective ack.observedSequence = some node then
          { s with selective := OrderedMap.erase s.selective ack.observedSequence } else s
        q.putSource ack.source s
      else q
    q.eraseNode node

/-! ### The payloads of the queue -/

variable {q : AckQueue} {ack : AckPayload} {p : Nat × AckPayload} {node limit : Nat}
  {s : PendingAckSource}

theorem mem_pushBack (h : p ∈ (q.pushBack ack).acks) : p ∈ q.acks ∨ p.2 = ack := by
  rcases List.mem_append.mp h with h | h
  · exact .inl h
  · rw [List.mem_singleton.mp h]
    exact .inr rfl

theorem mem_overwrite (h : p ∈ (q.overwrite node ack).acks) : p ∈ q.acks ∨ p.2 = ack := by
  rcases OrderedMap.mem_assign.mp h with ⟨h, -⟩ | ⟨rfl, -⟩
  · exact .inl h
  · exact .inr rfl

theorem mem_eraseNode (h : p ∈ (q.eraseNode node).acks) : p ∈ q.acks :=
  (OrderedMap.mem_erase.mp h).1

theorem mem_eraseCovered {highest : Nat} (h : p ∈ (q.eraseCovered highest s).1.acks) :
    p ∈ q.acks := by
  unfold eraseCovered at h
  dsimp only at h
  generalize s.selective.takeWhile _ = covered at h
  induction covered generalizing q with
  | nil => exact h
  | cons c rest ih => exact mem_eraseNode (ih h)

theorem mem_queueCumulative (h : p ∈ (q.queueCumulative limit ack s).2.acks) :
    p ∈ q.acks ∨ p.2 = ack := by
  unfold queueCumulative at h
  split at h
  · split at h
    · exact .inl h
    · exact mem_overwrite (mem_eraseCovered h)
  split at h
  · split at h
    · exact mem_overwrite (mem_eraseCovered h)
    · split at h
      · exact .inl h
      · exact mem_pushBack (mem_eraseCovered h)
  · split at h
    · exact .inl h
    · exact mem_pushBack h

theorem mem_queueSelective (h : p ∈ (q.queueSelective limit ack s).2.acks) :
    p ∈ q.acks ∨ p.2 = ack := by
  unfold queueSelective at h
  split at h
  · exact .inl h
  split at h
  · exact mem_overwrite h
  split at h
  · exact .inl h
  · exact mem_pushBack h

/-- Queueing an ACK brings no other payload into the queue. -/
theorem mem_queueAck (h : p ∈ (q.queueAck limit ack).2.acks) : p ∈ q.acks ∨ p.2 = ack := by
  unfold queueAck at h
  split at h
  · split at h
    · exact .inl h
    · exact mem_pushBack h
  · dsimp only at h
    split at h
    · exact mem_queueCumulative h
    · exact mem_queueSelective h

theorem mem_removePendingAck (h : p ∈ (q.removePendingAck node).acks) : p ∈ q.acks := by
  unfold removePendingAck at h
  split at h
  · exact h
  have h := mem_eraseNode h
  repeat' split at h
  all_goals exact h

end AckQueue

end Mino.Bridge
