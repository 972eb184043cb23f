import Mino.Common.Status

/-! Publisher identities and the lane a publisher is assigned to. -/

namespace Mino.Bridge

def kMaxBridgeLaneCount : Nat := 8

structure SourceIdentity where
  nodeId : UInt64
  publisherId : UInt64
  publisherEpoch : UInt64
  deriving DecidableEq, Repr

namespace SourceIdentity

def kFnv1aOffset : UInt64 := 14695981039346656037
def kFnv1aPrime : UInt64 := 1099511628211

/-- One FNV-1a round per byte, most significant byte first. -/
def consumeBigEndian (hash value : UInt64) : UInt64 :=
  ([56, 48, 40, 32, 24, 16, 8, 0] : List UInt64).foldl
    (fun h shift => (h ^^^ ((value >>> shift) &&& 0xff)) * kFnv1aPrime) hash

def stableBridgeLaneHash (source : SourceIdentity) : UInt64 :=
  let hash := consumeBigEndian kFnv1aOffset source.nodeId
  let hash := consumeBigEndian hash source.publisherId
  let hash := consumeBigEndian hash source.publisherEpoch
  let hash := (hash ^^^ (hash >>> 30)) * 0xbf58476d1ce4e5b9
  let hash := (hash ^^^ (hash >>> 27)) * 0x94d049bb133111eb
  hash ^^^ (hash >>> 31)

def bridgeLaneFor (source : SourceIdentity) (laneCount : Nat) : Nat :=
  if laneCount = 0 ∨ laneCount > kMaxBridgeLaneCount then 0
  else source.stableBridgeLaneHash.toNat % laneCount

/-- A source is usable on the wire only with all three components nonzero. -/
def valid (source : SourceIdentity) : Bool :=
  source.nodeId != 0 && source.publisherId != 0 && source.publisherEpoch != 0

/-- Order of the snapshots: node, then publisher, then publisher epoch. -/
def less (left right : SourceIdentity) : Bool :=
  if left.nodeId != right.nodeId then left.nodeId < right.nodeId
  else if left.publisherId != right.publisherId then left.publisherId < right.publisherId
  else left.publisherEpoch < right.publisherEpoch

end SourceIdentity

end Mino.Bridge
