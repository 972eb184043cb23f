import Mino.Storage.SegmentWriter

/-! # The manifest of a partition

The segments of the partition in order, and how far their records are durable. A change becomes
the manifest only when the new snapshot is valid and was written. -/

namespace Mino.Storage

inductive SegmentPersistentState where
  | creating
  | opened
  | sealed
  | indexed
  | retained
  | deleted
  deriving DecidableEq, Repr

namespace SegmentPersistentState

def isActive (state : SegmentPersistentState) : Bool := state = .creating ∨ state = .opened

/-- `AllowedTransition`. -/
def allows : SegmentPersistentState → SegmentPersistentState → Bool
  | .creating, .opened | .opened, .sealed | .sealed, .indexed | .indexed, .retained
  | .indexed, .deleted | .retained, .deleted => true
  | _, _ => false

end SegmentPersistentState

structure SegmentManifestEntry where
  segmentId : Nat
  state : SegmentPersistentState
  firstIngestionSequence : UInt64
  lastIngestionSequence : UInt64
  createdAtNs : Nat
  sealedAtNs : Nat
  sizeBytes : Nat
  relativePath : String
  deriving DecidableEq, Repr

structure DurableCheckpoint where
  segmentId : Nat
  durableOffset : Nat
  durableSequence : UInt64
  deriving DecidableEq, Repr

structure PartitionManifest where
  generation : Nat
  poisoned : Bool
  checkpoint : Option DurableCheckpoint
  segments : List SegmentManifestEntry
  /-- `max_segments` of the limits. -/
  maxSegments : Nat
  deriving DecidableEq, Repr

namespace PartitionManifest

/-- The checks of `ValidatePartitionSnapshot` on one segment, with the segment before it. -/
def validateSegment (previous : Option SegmentManifestEntry) (isLast : Bool)
    (segment : SegmentManifestEntry) : Result Unit := do
  Result.rejectIf (segment.segmentId = 0 ∨
      segment.lastIngestionSequence < segment.firstIngestionSequence)
    (corruption "segment metadata is invalid")
  Result.rejectIf ((previous.elim false fun p => segment.segmentId ≤ p.segmentId ||
      segment.firstIngestionSequence ≤ p.lastIngestionSequence) = true)
    (corruption "segments are duplicate, overlapping, or unordered")
  Result.rejectIf (segment.state.isActive = true ∧ isLast = false)
    (corruption "only the final segment may be active")
  if segment.state.isActive then
    Result.rejectIf (segment.sealedAtNs ≠ 0)
      (corruption "unsealed segment has a sealed timestamp")
  else
    Result.rejectIf (segment.sealedAtNs < segment.createdAtNs ∨
        segment.sizeBytes < kEncodedSegmentHeaderSize)
      (corruption "sealed segment metadata is incomplete")

def validateSegments : Option SegmentManifestEntry → List SegmentManifestEntry → Result Unit
  | _, [] => .ok ()
  | previous, segment :: rest => do
    validateSegment previous rest.isEmpty segment
    validateSegments (some segment) rest

/-- The checkpoint lies in its segment. -/
def validateCheckpoint (segments : List SegmentManifestEntry) (checkpoint : DurableCheckpoint) :
    Result Unit :=
  match segments.find? (·.segmentId = checkpoint.segmentId) with
  | none => .error (corruption "durable checkpoint is outside its segment")
  | some found =>
    Result.rejectIf (checkpoint.durableOffset < kEncodedSegmentHeaderSize ∨
        checkpoint.durableOffset > found.sizeBytes ∨
        checkpoint.durableSequence < found.firstIngestionSequence ∨
        checkpoint.durableSequence > found.lastIngestionSequence)
      (corruption "durable checkpoint is outside its segment")

variable (m : PartitionManifest) (segment : SegmentManifestEntry)

/-- `ValidatePartitionSnapshot`; the identity of the partition does not change and is left out. -/
def validate : Result Unit := do
  Result.rejectIf (m.segments.length > m.maxSegments)
    (.error .resourceExhausted "partition manifest has too many segments")
  validateSegments none m.segments
  match m.checkpoint with
  | none => .ok ()
  | some checkpoint => validateCheckpoint m.segments checkpoint

/-- `Commit` up to the write: the snapshot to write. -/
def prepare (m next : PartitionManifest) : Result PartitionManifest := do
  Result.rejectIf (m.poisoned = true) (.error .unavailable "partition manifest is poisoned")
  Result.rejectIf (m.generation = uint64Max)
    (.error .resourceExhausted "partition manifest generation is exhausted")
  let next := { next with generation := m.generation + 1 }
  next.validate
  .ok next

/-- `AddSegment` up to the write. -/
def addSegment : Result PartitionManifest :=
  m.prepare { m with segments := m.segments ++ [segment] }

/-- The entry of the same id is replaced. -/
def replace (segments : List SegmentManifestEntry) (segment : SegmentManifestEntry) :
    List SegmentManifestEntry :=
  segments.map fun entry => if entry.segmentId = segment.segmentId then segment else entry

/-- The checks of `UpdateSegment` against the entry that is there. -/
def checkUpdate (found segment : SegmentManifestEntry) : Result Unit := do
  Result.rejectIf (segment.relativePath ≠ found.relativePath ∨
      segment.firstIngestionSequence ≠ found.firstIngestionSequence ∨
      segment.createdAtNs ≠ found.createdAtNs)
    (invalid "segment identity fields are immutable")
  Result.rejectIf (segment.lastIngestionSequence < found.lastIngestionSequence ∨
      segment.sizeBytes < found.sizeBytes ∨ segment.sealedAtNs < found.sealedAtNs)
    (invalid "segment progress cannot move backward")
  if segment.state = found.state then
    Result.rejectIf (found.state.isActive = false ∧ segment ≠ found)
      (invalid "sealed segment metadata is immutable")
  else
    Result.rejectIf (found.state.allows segment.state = false)
      (invalid "invalid persistent segment state transition")

/-- `UpdateSegment` up to the write; nothing is written when the entry does not change. -/
def updateSegment :
    Result (Option PartitionManifest) := do
  Result.rejectIf (m.poisoned = true) (.error .unavailable "partition manifest is poisoned")
  match m.segments.find? (·.segmentId = segment.segmentId) with
  | none => .error (.error .notFound "segment ID is unknown")
  | some found => do
    checkUpdate found segment
    if segment = found then .ok none
    else do
      let next ← m.prepare { m with segments := replace m.segments segment }
      .ok (some next)

/-- `UpdateCheckpoint` up to the write. -/
def updateCheckpoint (checkpoint : DurableCheckpoint) :
    Result (Option PartitionManifest) := do
  Result.rejectIf ((m.checkpoint.elim false fun current =>
      checkpoint.segmentId < current.segmentId ||
        checkpoint.durableSequence < current.durableSequence ||
        (checkpoint.segmentId = current.segmentId &&
          checkpoint.durableOffset < current.durableOffset)) = true)
    (invalid "durable checkpoint cannot move backward")
  if m.checkpoint = some checkpoint then .ok none
  else do
    let next ← m.prepare { m with checkpoint := some checkpoint }
    .ok (some next)

end PartitionManifest

end Mino.Storage
