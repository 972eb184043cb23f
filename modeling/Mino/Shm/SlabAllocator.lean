import Mino.Lib.IntegerCodes
import Mino.Shm.SlabLayout

/-! # The central slab allocator, one call at a time

The bitmap is a function from bit to value; a search in a word for its lowest clear bit under
a mask is a search in the range of the mask. The thread cursor and the placement of shards on
nodes only say where a search begins: they are an input of `allocate`. -/

namespace Mino.Shm

open List

inductive ObjectState where
  | free
  | allocated
  | building
  | published
  | retired
  | aborting
  | reclaiming
  | allocating
  deriving DecidableEq, Repr

structure SlabHeader where
  magic : Nat
  headerVersion : Nat
  classId : Nat
  generation : Nat
  objectState : ObjectState
  capacity : Nat
  objectSize : Nat
  typeId : Nat
  layoutVersion : Nat
  schemaShortId : Nat
  ownerEpoch : Nat
  allocationTransactionId : Nat
  immutableHeaderCrc : UInt32
  allocationRole : Nat
  deriving DecidableEq, Repr

namespace SlabHeader

def kSlabHeaderMagic : Nat := 0x4D534C42
def kSlabHeaderVersion : Nat := 2

/-- Memory that nothing has been written to. -/
def zero : SlabHeader := ⟨0, 0, 0, 0, .free, 0, 0, 0, 0, 0, 0, 0, 0, 0⟩

/-- One bit of the reflected CRC-32C. -/
def crcBit (crc : UInt32) : UInt32 := crc >>> 1 ^^^ if crc &&& 1 ≠ 0 then 0x82F63B78 else 0

def crcByte (crc : UInt32) (byte : UInt8) : UInt32 := crcBit^[8] (crc ^^^ byte.toUInt32)

/-- The bytes that the checksum covers. -/
def immutableBytes (h : SlabHeader) : List UInt8 :=
  LittleEndian.encode 4 h.magic ++ LittleEndian.encode 2 h.headerVersion ++
    LittleEndian.encode 2 h.classId ++ LittleEndian.encode 4 h.generation ++
    LittleEndian.encode 4 h.capacity ++ LittleEndian.encode 4 h.objectSize ++
    LittleEndian.encode 4 h.typeId ++ LittleEndian.encode 4 h.layoutVersion ++
    LittleEndian.encode 8 h.schemaShortId ++ LittleEndian.encode 8 h.ownerEpoch ++
    LittleEndian.encode 8 h.allocationTransactionId ++ LittleEndian.encode 4 h.allocationRole

def computeImmutableHeaderCrc (h : SlabHeader) : UInt32 :=
  h.immutableBytes.foldl crcByte 0xFFFFFFFF ^^^ 0xFFFFFFFF

def verifyImmutableHeader (h : SlabHeader) : Bool :=
  h.magic = kSlabHeaderMagic && h.headerVersion = kSlabHeaderVersion &&
    h.immutableHeaderCrc = h.computeImmutableHeaderCrc

/-- The checksum does not cover the state. -/
theorem verifyImmutableHeader_objectState (h : SlabHeader) (objectState : ObjectState) :
    { h with objectState }.verifyImmutableHeader = h.verifyImmutableHeader := rfl

end SlabHeader

structure ShmHandle where
  offset : Nat
  generation : Nat
  regionId : Nat
  deriving DecidableEq, Repr

def ShmHandle.isNull (h : ShmHandle) : Bool := h.offset = 0

structure AllocationRequest where
  objectSize : Nat
  typeId : Nat
  layoutVersion : Nat
  schemaShortId : Nat
  alignment : Nat
  ownerEpoch : Nat
  allocationTransactionId : Nat
  allocationFlags : Nat
  deriving DecidableEq, Repr

def kAllocationFlagTransactionRoot : Nat := 1
def kAllocationFlagTransactionChild : Nat := 2

/-- `GenerationArray::Increment`: the value that stays in the cell and the one returned. -/
def kGenerationDraining : Nat := 2 ^ 32 - 1

def incrementGeneration (current : Nat) : Nat :=
  if current = kGenerationDraining then kGenerationDraining else current + 1

/-! ### The search for a free bit -/

namespace SlabBitmap

variable (bitmap : Nat → Bool)

/-- The lowest clear bit of a shard from `lower` up to `upper`. -/
def lowestFree (shard lower upper : Nat) : Option Nat :=
  ((List.range' lower (upper - lower)).find? fun bit => !bitmap (shard * kBitmapShardBits + bit)).map
    (shard * kBitmapShardBits + ·)

/-- One shard of the range `[first, last)`; behind `hint` first, if there is one. -/
def findInShard (first last shard : Nat) (hint : Option Nat) : Option Nat :=
  let lower := if shard = first / kBitmapShardBits then first % kBitmapShardBits else 0
  let upper := if shard = (last - 1) / kBitmapShardBits then (last - 1) % kBitmapShardBits + 1
    else kBitmapShardBits
  match hint with
  | some bitHint =>
    (lowestFree bitmap shard (max lower (bitHint % kBitmapShardBits)) upper).or
      (lowestFree bitmap shard lower upper)
  | none => lowestFree bitmap shard lower upper

/-- The probes from `probe` on, of which `fuel` are left. -/
def findFrom (first last bitHint : Nat) : Nat → Nat → Option Nat
  | 0, _ => none
  | fuel + 1, probe =>
    let firstShard := first / kBitmapShardBits
    let rangeShards := (last - 1) / kBitmapShardBits - firstShard + 1
    let shard := firstShard + (bitHint / kBitmapShardBits - firstShard + probe) % rangeShards
    (findInShard bitmap first last shard (if probe = 0 then some bitHint else none)).or
      (findFrom first last bitHint fuel (probe + 1))

/-- `FindAndSetFreeBitInRangeHinted`, without the store to the bit it returns. -/
def findFreeBitInRangeHinted (bitCount first last bitHint : Nat) : Result Nat :=
  if first ≥ last ∨ last > bitCount then
    .error (.error .invalidArgument "invalid bitmap allocation range")
  else
    let bitHint := if bitHint < first ∨ bitHint ≥ last then first else bitHint
    match findFrom bitmap first last bitHint
      ((last - 1) / kBitmapShardBits - first / kBitmapShardBits + 1) 0 with
    | some bit => .ok bit
    | none => .error (.error .resourceExhausted "allocation bitmap range is full")

section

variable {bitmap : Nat → Bool}

theorem lowestFree_some {shard lower upper bit} (h : lowestFree bitmap shard lower upper =
    some bit) : bitmap bit = false ∧ shard * kBitmapShardBits + lower ≤ bit ∧
      bit < shard * kBitmapShardBits + upper := by
  obtain ⟨j, hj, rfl⟩ := Option.map_eq_some_iff.mp h
  have hfree := find?_some hj
  have hmem := mem_range'_1.mp (mem_of_find?_eq_some hj)
  refine ⟨by simpa using hfree, by omega, by omega⟩

theorem findInShard_some {first last shard bit hint} (hlt : first < last)
    (hfirst : first / kBitmapShardBits ≤ shard) (hlast : shard ≤ (last - 1) / kBitmapShardBits)
    (h : findInShard bitmap first last shard hint = some bit) :
    bitmap bit = false ∧ first ≤ bit ∧ bit < last := by
  unfold findInShard at h
  dsimp only at h
  have hlower : first ≤ shard * kBitmapShardBits +
      if shard = first / kBitmapShardBits then first % kBitmapShardBits else 0 := by
    unfold kBitmapShardBits at *
    split <;> omega
  have hupper : shard * kBitmapShardBits + (if shard = (last - 1) / kBitmapShardBits then
      (last - 1) % kBitmapShardBits + 1 else kBitmapShardBits) ≤ last := by
    unfold kBitmapShardBits at *
    split <;> omega
  generalize (if shard = first / kBitmapShardBits then first % kBitmapShardBits else 0) =
    lower at h hlower
  generalize (if shard = (last - 1) / kBitmapShardBits then (last - 1) % kBitmapShardBits + 1 else
    kBitmapShardBits) = upper at h hupper
  have hany : ∀ from', lower ≤ from' → lowestFree bitmap shard from' upper = some bit →
      bitmap bit = false ∧ first ≤ bit ∧ bit < last := by
    intro from' hle hsome
    obtain ⟨hfree, hge, hlt'⟩ := lowestFree_some hsome
    exact ⟨hfree, by omega, by omega⟩
  cases hint with
  | none => exact hany lower le_rfl h
  | some bitHint =>
    rcases Option.or_eq_some_iff.mp h with h | ⟨-, h⟩
    · exact hany _ (Nat.le_max_left _ _) h
    · exact hany lower le_rfl h

theorem findFrom_some {first last bitHint fuel probe bit}
    (hlt : first < last) (h : findFrom bitmap first last bitHint fuel probe = some bit) :
    bitmap bit = false ∧ first ≤ bit ∧ bit < last := by
  induction fuel generalizing probe with
  | zero => cases h
  | succ fuel ih =>
    rcases Option.or_eq_some_iff.mp h with h | ⟨-, h⟩
    · have hmono : first / kBitmapShardBits ≤ (last - 1) / kBitmapShardBits :=
        Nat.div_le_div_right (by omega)
      refine findInShard_some hlt (Nat.le_add_right _ _) ?_ h
      have := Nat.mod_lt (bitHint / kBitmapShardBits - first / kBitmapShardBits + probe)
        (show 0 < (last - 1) / kBitmapShardBits - first / kBitmapShardBits + 1 from Nat.succ_pos _)
      omega
    · exact ih h

theorem findFreeBitInRangeHinted_ok {bitCount first last bitHint bit}
    (h : findFreeBitInRangeHinted bitmap bitCount first last bitHint = .ok bit) :
    bitmap bit = false ∧ first ≤ bit ∧ bit < last := by
  unfold findFreeBitInRangeHinted at h
  split at h
  · cases h
  dsimp only at h
  split at h
  · rename_i bit' hfind
    cases h
    exact findFrom_some (by omega) hfind
  · cases h

end

end SlabBitmap

/-! ### The allocator -/

structure SlabAllocator where
  geometry : SlabGeometry
  bitmap : Nat → Bool
  generations : Nat → Nat
  headers : Nat → SlabHeader
  draining : Nat → Bool

/-- Where a call of `allocate` looks first: the shards of its node, and the thread cursor. -/
inductive LocalCache where
  | disabled
  | enabled (localShards : List Nat) (hint : Nat)
  deriving DecidableEq, Repr

/-- What the reclaim guard answers for one handle: ahead of all slots (the first loop of
`ReclaimPublishedGraph`, the root in `Reclaim`), and the two times `ReclaimSlotExact` asks. -/
structure GuardAnswers where
  ahead : Bool
  before : Bool
  behind : Bool
  deriving DecidableEq, Repr

abbrev ReclaimGuard := ShmHandle → GuardAnswers

namespace SlabAllocator

def create (geometry : SlabGeometry) : SlabAllocator where
  geometry
  bitmap := fun _ => false
  generations := fun _ => 0
  headers := fun _ => .zero
  draining := fun _ => false

variable (a : SlabAllocator)

variable (guard : ReclaimGuard) (ownerEpoch transactionId : Nat) (slot : Nat) (handle : ShmHandle)

def setBit (value : Bool) : SlabAllocator :=
  { a with bitmap := Function.update a.bitmap slot value }

def setHeader (header : SlabHeader) : SlabAllocator :=
  { a with headers := Function.update a.headers slot header }

def setState (objectState : ObjectState) : SlabAllocator :=
  a.setHeader slot { a.headers slot with objectState }

def setGeneration (slot generation : Nat) : SlabAllocator :=
  { a with generations := Function.update a.generations slot generation }

def setDraining (classId : Nat) : SlabAllocator :=
  { a with draining := Function.update a.draining classId true }

def state : ObjectState := (a.headers slot).objectState

/-- The handle of the object that is in a slot now. -/
def handleOf : ShmHandle :=
  ⟨a.geometry.slotOffset slot, a.generations slot, a.geometry.regionId⟩

/-! #### Allocate -/

/-- The shards of the node, one after another. -/
def claimLocal (a : SlabAllocator) (c : ClassDescriptor) (hint : Nat) : List Nat → Result Nat
  | [] => .error (.error .resourceExhausted "allocation bitmap range is full")
  | shard :: rest =>
    let localBegin := c.bitmapShardOffset + shard * kBitmapShardBits
    let localEnd := min c.bitmapEnd (localBegin + kBitmapShardBits)
    let localHint := if hint ≥ localBegin ∧ hint < localEnd then hint else localBegin
    match SlabBitmap.findFreeBitInRangeHinted a.bitmap a.geometry.bitCount localBegin localEnd
      localHint with
    | .ok bit => .ok bit
    | .error status =>
      if status.code ≠ .resourceExhausted then .error status else a.claimLocal c hint rest

def claimBit (c : ClassDescriptor) : LocalCache → Result Nat
  | .disabled => SlabBitmap.findFreeBitInRangeHinted a.bitmap a.geometry.bitCount
      c.bitmapShardOffset c.bitmapEnd c.bitmapShardOffset
  | .enabled localShards hint =>
    match a.claimLocal c hint localShards with
    | .ok bit => .ok bit
    | .error status =>
      if status.code ≠ .resourceExhausted then .error status
      else SlabBitmap.findFreeBitInRangeHinted a.bitmap a.geometry.bitCount c.bitmapShardOffset
        c.bitmapEnd hint

/-- The header of a new object, checksum included. -/
def stamp (c : ClassDescriptor) (request : AllocationRequest) (generation : Nat)
    (objectState : ObjectState) : SlabHeader :=
  let header : SlabHeader := {
    magic := SlabHeader.kSlabHeaderMagic
    headerVersion := SlabHeader.kSlabHeaderVersion
    classId := c.classId
    generation
    objectState
    capacity := c.slotSize
    objectSize := request.objectSize
    typeId := request.typeId
    layoutVersion := request.layoutVersion
    schemaShortId := request.schemaShortId
    ownerEpoch := request.ownerEpoch
    allocationTransactionId := request.allocationTransactionId
    immutableHeaderCrc := 0
    allocationRole := request.allocationFlags }
  { header with immutableHeaderCrc := header.computeImmutableHeaderCrc }

/-- The steps behind the claim of a bit. -/
def fillSlot (c : ClassDescriptor) (request : AllocationRequest) (slot : Nat) :
    SlabAllocator × Result ShmHandle :=
  if a.state slot ≠ .free then
    (a.setBit slot false,
      .error (.error .corruption "free bitmap slot has a non-free lifecycle state"))
  else
    let generation := incrementGeneration (a.generations slot)
    let a := (a.setState slot .allocating).setGeneration slot generation
    if generation = kGenerationDraining then
      (((a.setDraining c.classId).setState slot .free).setBit slot false,
        .error (.error .resourceExhausted "generation exhausted; class marked DRAINING"))
    else
      ((a.setHeader slot (stamp c request generation .allocating)).setState slot .allocated,
        .ok ⟨a.geometry.slotOffset slot, generation, a.geometry.regionId⟩)

def requestInvalid (request : AllocationRequest) : Bool :=
  request.allocationFlags >>> 2 ≠ 0 ||
    (request.allocationFlags.testBit 0 && request.allocationFlags.testBit 1) ||
    (request.ownerEpoch = 0) != (request.allocationTransactionId = 0) ||
    (request.allocationTransactionId = 0 && request.allocationFlags ≠ 0)

def allocate (cache : LocalCache) (request : AllocationRequest) :
    SlabAllocator × Result ShmHandle :=
  let alignment := if request.alignment = 0 then 1 else request.alignment
  let alignedSize := (request.objectSize + alignment - 1) / alignment * alignment
  if requestInvalid request then
    (a, .error (.error .invalidArgument "invalid allocation transaction metadata"))
  else if alignment &&& (alignment - 1) ≠ 0 then
    (a, .error (.error .invalidArgument "alignment must be a power of two"))
  else if alignedSize > 2 ^ 32 - 1 then
    (a, .error (.error .invalidArgument "object size overflow"))
  else match a.geometry.table.findClass alignedSize with
    | .error status => (a, .error status)
    | .ok c =>
      if a.draining c.classId then (a, .error (.error .unavailable "size class is draining"))
      else match a.claimBit c cache with
        | .error status => (a, .error status)
        | .ok slot => (a.setBit slot true).fillSlot c request slot

/-! #### Operations on a handle -/

def resolveLocked : Result Nat :=
  let g := a.geometry
  if handle.offset = 0 ∧ handle.generation = 0 ∧ handle.regionId = 0 then
    .error (.error .invalidArgument "null handle")
  else if handle.regionId ≠ g.regionId then
    .error (.error .invalidArgument "foreign region handle")
  else if handle.offset < g.handleOffsetBias then
    .error (.error .invalidArgument "handle offset below allocator base")
  else
    let rel := handle.offset - g.handleOffsetBias
    if rel < kSuperblockSize ∨ rel ≥ g.dataRegionSize then
      .error (.error .invalidArgument "handle offset out of range")
    else if rel < g.slotAreaOffset ∨ (rel - g.slotAreaOffset) % g.slotStride ≠ 0 then
      .error (.error .invalidArgument "handle offset not slot-aligned")
    else
      let slot := (rel - g.slotAreaOffset) / g.slotStride
      if slot ≥ g.table.totalSlots ∨ slot > 2 ^ 32 - 1 then
        .error (.error .invalidArgument "slot index out of range")
      else if !a.bitmap slot then .error (.error .notFound "slot is not allocated")
      else if a.generations slot ≠ handle.generation ∨
          (a.headers slot).generation ≠ handle.generation then
        .error (.error .notFound "stale handle (generation mismatch)")
      else .ok slot

/-- `BeginBuild`, without the view it returns. -/
def beginBuild : SlabAllocator × Status :=
  match a.resolveLocked handle with
  | .error status => (a, status)
  | .ok slot =>
    if !(a.headers slot).verifyImmutableHeader then
      (a, .error .corruption "immutable header CRC mismatch")
    else if a.state slot ≠ .allocated then
      (a, .error .invalidArgument "slot is not available for exclusive build")
    else (a.setState slot .building, .success)

def publish : SlabAllocator × Status :=
  match a.resolveLocked handle with
  | .error status => (a, status)
  | .ok slot =>
    if !(a.headers slot).verifyImmutableHeader then
      (a, .error .corruption "immutable header CRC mismatch")
    else if a.state slot ≠ .building then
      (a, .error .invalidArgument "slot is not in kBuilding state")
    else (a.setState slot .published, .success)

def retire : SlabAllocator × Status :=
  match a.resolveLocked handle with
  | .error status => (a, status)
  | .ok slot =>
    match a.state slot with
    | .retired => (a, .success)
    | .allocated => (a.setState slot .retired, .success)
    | .building => (a.setState slot .retired, .success)
    | .published => (a.setState slot .retired, .success)
    | _ => (a, .error .invalidArgument "slot is not in a retirable state")

/-- `ReclaimSlotExact`. The compare-and-swap succeeds when nobody else is at the slot. -/
def reclaimSlotExact (allowPublished : Bool) : SlabAllocator × Status :=
  if !a.bitmap slot ∨ a.generations slot ≠ handle.generation ∨
      (a.headers slot).generation ≠ handle.generation then
    (a, .error .notFound "stale handle during reclaim")
  else match a.state slot with
    | .reclaiming | .free => (a, .success)
    | state =>
      if state = .published ∧ !allowPublished then
        (a, .error .invalidArgument "published slot must be retired first")
      else if !(guard handle).before then
        (a, .error .wouldBlock "slot has a live or in-flight Pin")
      else if !(guard handle).behind then
        ((a.setState slot .reclaiming).setState slot state,
          .error .wouldBlock "reclaim identity or Pin guard changed")
      else (((a.setState slot .reclaiming).setState slot .free).setBit slot false, .success)

/-- The loop of `ReclaimTransactionAppendGap` over the slots that are left. -/
def reclaimStamped (a : SlabAllocator) (guard : ReclaimGuard) (ownerEpoch transactionId : Nat) :
    List Nat → SlabAllocator × Status
  | [] => (a, .success)
  | slot :: rest =>
    let header := a.headers slot
    if !a.bitmap slot ∨ header.objectState = .free ∨ header.objectState = .reclaiming ∨
        header.ownerEpoch ≠ ownerEpoch ∨ header.allocationTransactionId ≠ transactionId ∨
        header.generation ≠ a.generations slot ∨ !header.verifyImmutableHeader then
      a.reclaimStamped guard ownerEpoch transactionId rest
    else match a.reclaimSlotExact guard slot (a.handleOf slot) true with
      | (a', status) =>
        if status.ok then a'.reclaimStamped guard ownerEpoch transactionId rest else (a', status)

def reclaimTransactionAppendGap : SlabAllocator × Status :=
  if ownerEpoch = 0 ∨ transactionId = 0 then
    (a, .error .invalidArgument "invalid allocation transaction identity")
  else a.reclaimStamped guard ownerEpoch transactionId (List.range a.geometry.table.totalSlots)

def reclaim : SlabAllocator × Status :=
  match a.resolveLocked handle with
  | .error status => (a, status)
  | .ok slot =>
    let header := a.headers slot
    if header.allocationRole.testBit 0 ∧ header.ownerEpoch ≠ 0 ∧
        header.allocationTransactionId ≠ 0 then
      if !(guard handle).ahead then
        (a, .error .wouldBlock "transaction root has a live or in-flight Pin")
      else a.reclaimTransactionAppendGap guard header.ownerEpoch header.allocationTransactionId
    else a.reclaimSlotExact guard slot handle false

def abort : SlabAllocator × Status :=
  match a.resolveLocked handle with
  | .error status => (a, status)
  | .ok slot =>
    match a.state slot with
    | .aborting => a.reclaim guard handle
    | .allocated => (a.setState slot .aborting).reclaim guard handle
    | .building => (a.setState slot .aborting).reclaim guard handle
    | _ => (a, .error .invalidArgument "only unpublished objects may be aborted")

/-! #### Transactions -/

def publishTransactionHandle (requiredRole : Nat) : SlabAllocator × Status :=
  match a.resolveLocked handle with
  | .error status => (a, status)
  | .ok slot =>
    let header := a.headers slot
    if header.generation ≠ handle.generation ∨ header.ownerEpoch ≠ ownerEpoch ∨
        header.allocationTransactionId ≠ transactionId ∨
        header.allocationRole &&& requiredRole = 0 ∨ !header.verifyImmutableHeader then
      (a, .error .corruption "manifest handle stamp does not match transaction")
    else if header.objectState = .published then (a, .success)
    else if header.objectState ≠ .building then
      (a, .error .invalidArgument "transaction object is not fully built")
    else (a.setState slot .published, .success)

/-- The children, last first. -/
def publishChildren (a : SlabAllocator) (ownerEpoch transactionId : Nat) :
    List ShmHandle → SlabAllocator × Status
  | [] => (a, .success)
  | handle :: rest =>
    if handle.isNull then a.publishChildren ownerEpoch transactionId rest
    else match a.publishTransactionHandle ownerEpoch transactionId handle
        kAllocationFlagTransactionChild with
      | (a', status) =>
        if status.ok then a'.publishChildren ownerEpoch transactionId rest else (a', status)

def publishTransaction (handles : List ShmHandle) (root : ShmHandle) : SlabAllocator × Status :=
  if ownerEpoch = 0 ∨ transactionId = 0 ∨ root.isNull ∨ handles.head? ≠ some root then
    (a, .error .invalidArgument "invalid allocation transaction manifest")
  else match a.publishChildren ownerEpoch transactionId handles.tail.reverse with
    | (a', status) =>
      if status.ok then a'.publishTransactionHandle ownerEpoch transactionId root
        kAllocationFlagTransactionRoot
      else (a', status)

/-- The loop of `ReclaimTransaction`, last handle first. -/
def reclaimManifest (a : SlabAllocator) (guard : ReclaimGuard) (ownerEpoch transactionId : Nat) :
    List ShmHandle → SlabAllocator × Status
  | [] => (a, .success)
  | handle :: rest =>
    if handle.isNull then a.reclaimManifest guard ownerEpoch transactionId rest
    else match a.resolveLocked handle with
      | .error status =>
        if status.code = .notFound then a.reclaimManifest guard ownerEpoch transactionId rest
        else (a, status)
      | .ok slot =>
        let header := a.headers slot
        if header.ownerEpoch ≠ ownerEpoch ∨ header.allocationTransactionId ≠ transactionId ∨
            !header.verifyImmutableHeader then
          (a, .error .corruption "manifest reclaim stamp mismatch")
        else match a.reclaimSlotExact guard slot handle true with
          | (a', status) =>
            if status.ok then a'.reclaimManifest guard ownerEpoch transactionId rest
            else (a', status)

def reclaimTransaction (handles : List ShmHandle) : SlabAllocator × Status :=
  if ownerEpoch = 0 ∨ transactionId = 0 ∨ handles = [] then
    (a, .error .invalidArgument "invalid allocation transaction manifest")
  else a.reclaimManifest guard ownerEpoch transactionId handles.reverse

/-- The owner and the transaction of a published root. -/
structure GraphIdentity where
  ownerEpoch : Nat
  transactionId : Nat
  deriving DecidableEq, Repr

/-- The first loop of `ReclaimPublishedGraph`: every handle of the manifest behind those in
`prior`. -/
def checkGraph (a : SlabAllocator) (guard : ReclaimGuard) (prior : List ShmHandle)
    (identity : Option GraphIdentity) : List ShmHandle → Result GraphIdentity
  | [] => .ok (identity.getD ⟨0, 0⟩)
  | handle :: rest =>
    if handle.isNull then
      .error (.error .corruption "published graph manifest contains a null handle")
    else if handle ∈ prior then
      .error (.error .corruption "published graph manifest contains a duplicate handle")
    else do
      let slot ← a.resolveLocked handle
      let header := a.headers slot
      if !header.verifyImmutableHeader ∨ a.generations slot ≠ handle.generation ∨
          header.generation ≠ handle.generation then
        .error (.error .corruption "published graph handle identity is corrupt")
      else if header.allocationRole ≠ (if prior = [] then kAllocationFlagTransactionRoot
          else kAllocationFlagTransactionChild) then
        .error (.error .corruption "published graph allocation role mismatch")
      else
        let own : GraphIdentity := ⟨header.ownerEpoch, header.allocationTransactionId⟩
        if prior = [] ∧ (own.ownerEpoch = 0 ∨ own.transactionId = 0) then
          .error (.error .corruption "published graph root has no transaction identity")
        else if prior ≠ [] ∧ identity ≠ some own then
          .error (.error .corruption "published graph owner or transaction mismatch")
        else if header.objectState ≠ .published ∧ header.objectState ≠ .retired then
          .error (.error .corruption "published graph handle is not Published or Retired")
        else if !(guard handle).ahead then
          .error (.error .wouldBlock "published graph has a live or in-flight Pin")
        else a.checkGraph guard (prior ++ [handle]) (some (identity.getD own)) rest

/-- The second loop, last handle first. -/
def reclaimGraph (a : SlabAllocator) (guard : ReclaimGuard) (identity : GraphIdentity) :
    List ShmHandle → SlabAllocator × Status
  | [] => (a, .success)
  | handle :: rest =>
    match a.resolveLocked handle with
    | .error status => (a, status)
    | .ok slot =>
      let header := a.headers slot
      if !header.verifyImmutableHeader ∨
          header.allocationRole ≠ (if rest = [] then kAllocationFlagTransactionRoot
            else kAllocationFlagTransactionChild) ∨
          header.ownerEpoch ≠ identity.ownerEpoch ∨
          header.allocationTransactionId ≠ identity.transactionId then
        (a, .error .corruption "published graph identity changed before reclaim")
      else match a.retire handle with
        | (a', status) =>
          if status.ok then
            match a'.reclaimSlotExact guard slot handle false with
            | (a'', status) =>
              if status.ok then a''.reclaimGraph guard identity rest else (a'', status)
          else (a', status)

def reclaimPublishedGraph (root : ShmHandle) (manifest : List ShmHandle) : SlabAllocator × Status :=
  if root.isNull ∨ manifest.head? ≠ some root then
    (a, .error .invalidArgument "published graph manifest is not root-first")
  else match a.checkGraph guard [] none manifest with
    | .error status => (a, status)
    | .ok identity => a.reclaimGraph guard identity manifest.reverse

/-! #### Recovery -/

def clearSlotForRecovery (expected : ObjectState) : SlabAllocator × Status :=
  if slot ≥ a.geometry.table.totalSlots then
    (a, .error .invalidArgument "recovery slot index out of range")
  else if !a.bitmap slot then
    (a, if a.state slot = .free then .success
      else .error .wouldBlock "recovery slot is no longer occupied")
  else if a.state slot ≠ expected then (a, .error .wouldBlock "recovery slot state changed")
  else (((a.setState slot .reclaiming).setState slot .free).setBit slot false, .success)

def clearStaleStateForRecovery (expected : ObjectState) : SlabAllocator × Status :=
  if slot ≥ a.geometry.table.totalSlots then
    (a, .error .invalidArgument "recovery slot index out of range")
  else if a.bitmap slot then
    (a, .error .wouldBlock "slot became occupied during recovery")
  else if a.state slot = expected then (a.setState slot .free, .success)
  else if a.state slot = .free then (a, .success)
  else (a, .error .wouldBlock "stale slot state changed during recovery")

end SlabAllocator

end Mino.Shm
