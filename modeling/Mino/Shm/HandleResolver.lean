import Mino.Shm.LargeObjectPool
import Mino.Shm.SlabRecovery

/-! # Resolution of handles

A resolver is bound to a region and to one allocator in it. The header that it reads at the
offset of a handle is the one that the allocator keeps there. -/

namespace Mino.Shm

open Result

inductive AllocatorObjectKind where
  | contiguousSlot
  | segmented
  deriving DecidableEq, Repr

structure AllocatorSlotMetadata where
  occupied : Bool
  generation : Nat
  classId : Nat
  classCount : Nat
  capacity : Nat
  payloadOffset : Nat
  objectExtent : Nat
  objectKind : AllocatorObjectKind
  deriving DecidableEq, Repr

structure CentralSlabSlotMetadata where
  occupied : Bool
  generation : Nat
  classId : Nat
  classCount : Nat
  capacity : Nat
  deriving DecidableEq, Repr

/-- `CentralSlabAllocator::GetSlotMetadata`. -/
def SlabAllocator.getSlotMetadata (a : SlabAllocator) (headerOffset : Nat) :
    Result CentralSlabSlotMetadata :=
  let g := a.geometry
  let firstHeaderOffset := g.handleOffsetBias + g.slotAreaOffset
  if firstHeaderOffset ≥ 2 ^ 64 ∨ headerOffset < firstHeaderOffset then
    .error (.error .invalidArgument "offset is below the allocator slot area")
  else
    let relative := headerOffset - firstHeaderOffset
    if relative % g.slotStride ≠ 0 then
      .error (.error .invalidArgument "offset is not an exact allocator slot start")
    else
      let slot := relative / g.slotStride
      if slot ≥ g.table.totalSlots ∨ slot > 2 ^ 32 - 1 then
        .error (.error .invalidArgument "allocator slot offset is out of range")
      else if g.slotOffset slot ≥ 2 ^ 64 ∨ g.slotOffset slot ≠ headerOffset then
        .error (.error .invalidArgument "allocator slot offset arithmetic overflow")
      else match g.table.classOf slot with
        | none => .error (.error .invalidArgument "offset names a reserved bitmap slot")
        | some c => .ok ⟨a.bitmap slot, a.generations slot, c.classId, g.table.classCount, c.slotSize⟩

inductive MetadataProvider where
  | slab (a : SlabAllocator)
  | large (pool : LargeObjectPool)

namespace MetadataProvider

def getSlotMetadata (offset : Nat) : MetadataProvider → Result AllocatorSlotMetadata
  | .slab a => do
    let metadata ← a.getSlotMetadata offset
    if offset + kSlabHeaderSize ≥ 2 ^ 64 then
      .error (.error .invalidArgument "central slab payload offset overflow")
    else .ok ⟨metadata.occupied, metadata.generation, metadata.classId, metadata.classCount,
      metadata.capacity, offset + kSlabHeaderSize, metadata.capacity, .contiguousSlot⟩
  | .large pool => do
    let metadata ← pool.getSlotMetadata offset
    .ok ⟨metadata.occupied, metadata.generation, kLargeObjectClassId, 0, metadata.capacity,
      metadata.payloadOffset, metadata.objectExtent, .segmented⟩

/-- The slot or segment whose header is at the offset. -/
def unitAt (offset : Nat) : MetadataProvider → Nat
  | .slab a => (offset - (a.geometry.handleOffsetBias + a.geometry.slotAreaOffset)) /
      a.geometry.slotStride
  | .large pool => (offset - pool.geometry.headersRegionOffset) / kSlabHeaderSize

/-- The header of a slot or a segment. -/
def header (unit : Nat) : MetadataProvider → SlabHeader
  | .slab a => a.headers unit
  | .large pool => pool.headers unit

def generation (unit : Nat) : MetadataProvider → Nat
  | .slab a => a.generations unit
  | .large pool => pool.generations unit

def extent (unit : Nat) : MetadataProvider → Set Nat
  | .slab a => Set.Ico (a.geometry.slotOffset unit + kSlabHeaderSize)
      (a.geometry.slotOffset unit + kSlabHeaderSize +
        ((a.geometry.table.classOf unit).map (·.slotSize)).getD 0)
  | .large pool => pool.extent unit

/-- An occupied slot of a class, or the first segment of a whole object. -/
def IsObject (unit : Nat) : MetadataProvider → Prop
  | .slab a => a.bitmap unit = true ∧ ∃ c, a.geometry.table.classOf unit = some c
  | .large pool => pool.isSegmentSet unit = true ∧ LargeObjectPool.Whole pool unit

/-- What the allocator keeps for itself: the space in front of the slots and the headers of
the slots, or the space in front of the segments. -/
def metadata : MetadataProvider → Set Nat
  | .slab a => Set.Ico a.geometry.handleOffsetBias
      (a.geometry.handleOffsetBias + a.geometry.slotAreaOffset) ∪
      {o | ∃ slot, o ∈ Set.Ico (a.geometry.slotOffset slot)
        (a.geometry.slotOffset slot + kSlabHeaderSize)}
  | .large pool => Set.Ico pool.geometry.poolOffset pool.geometry.payloadRegionOffset

/-- The allocator was created with success. -/
def Created : MetadataProvider → Prop
  | .slab a => ∃ config placement origin,
      SlabGeometry.ofOrigin config placement origin = .ok a.geometry
  | .large pool => ∃ storage maxObjectSize segmentSize prepared,
      PoolGeometry.create storage maxObjectSize segmentSize prepared = .ok pool.geometry

end MetadataProvider

/-! ### The resolver -/

structure RegionSuperBlock where
  regionId : Nat
  regionUuidLo : Nat
  regionUuidHi : Nat
  regionEpoch : Nat
  dataOffset : Nat
  dataSize : Nat
  deriving DecidableEq, Repr

structure MappedRegion where
  superblock : Option RegionSuperBlock
  regionId : Nat
  base : Nat
  size : Nat
  readOnly : Bool
  supervisorFence : Status
  deriving DecidableEq, Repr

/-- The identity of the region when the resolver was bound to it. -/
structure AttachContext where
  regionId : Nat
  regionUuidLo : Nat
  regionUuidHi : Nat
  regionEpoch : Nat
  deriving DecidableEq, Repr

/-- What the caller asks for. -/
structure ResolveRequest where
  handle : ShmHandle
  expectedType : Nat
  expectedSchemaShortId : Nat
  typeSize : Nat
  typeAlignment : Nat
  requireMutable : Bool
  processEpoch : Nat
  deriving DecidableEq, Repr

namespace HandleResolver

/-- The checks of `ValidateHandle` before the allocator is asked. They give the data area. -/
def validateRegion (region : MappedRegion) (attached : AttachContext) (request : ResolveRequest) :
    Result (Nat × Nat) :=
  match region.superblock with
  | none => .error (.error .invalidArgument "region has no superblock")
  | some sb => do
    let handle := request.handle
    rejectIf handle.isNull (.error .invalidArgument "null handle")
    rejectIf (attached.regionId = 0 ∨
        (attached.regionUuidLo = 0 ∧ attached.regionUuidHi = 0) ∨ attached.regionEpoch = 0)
      (.error .corruption "invalid Region Attach Context identity")
    rejectIf (region.regionId ≠ attached.regionId ∨ sb.regionId ≠ attached.regionId ∨
        sb.regionUuidLo ≠ attached.regionUuidLo ∨ sb.regionUuidHi ≠ attached.regionUuidHi)
      (.error .unavailable "Region identity changed after resolver binding")
    rejectIf (sb.regionEpoch ≠ attached.regionEpoch)
      (.error .unavailable "Region epoch changed after resolver binding")
    rejectIf (handle.regionId ≠ attached.regionId)
      (.error .notFound "handle region_id does not match Attach Context")
    rejectIf (request.requireMutable ∧ region.readOnly)
      (.error .permissionDenied "mutable resolve on a read-only Region")
    rejectIf (request.requireMutable ∧ !region.supervisorFence.ok) region.supervisorFence
    rejectIf (handle.offset % 64 ≠ 0)
      (.error .invalidArgument "handle offset is not slab-header aligned")
    rejectIf (sb.dataOffset + sb.dataSize ≥ 2 ^ 64 ∨
        sb.dataOffset + sb.dataSize > region.size)
      (.error .corruption "Region data extent is invalid")
    rejectIf (handle.offset < sb.dataOffset)
      (.error .invalidArgument "handle offset below data area")
    rejectIf (handle.offset + kSlabHeaderSize ≥ 2 ^ 64)
      (.error .invalidArgument "object header extent overflow")
    rejectIf (handle.offset + kSlabHeaderSize > sb.dataOffset + sb.dataSize)
      (.error .invalidArgument "object header extends past data area")
    pure (sb.dataOffset, sb.dataOffset + sb.dataSize)

/-- The checks of the allocator's answer. They give the payload and its extent. -/
def validateSlot (request : ResolveRequest) (dataOffset dataEnd : Nat)
    (slot : AllocatorSlotMetadata) : Result (Nat × Nat) :=
  if !slot.occupied then .error (.error .notFound "slot not occupied in allocation bitmap")
  else if request.handle.generation ≠ slot.generation then
    .error (.error .notFound "stale handle generation")
  else if slot.capacity = 0 then
    .error (.error .corruption "allocator returned zero object capacity")
  else if slot.objectKind = .contiguousSlot ∧ (slot.classCount = 0 ∨
      slot.classId ≥ slot.classCount ∨
      (slot.objectExtent ≠ 0 ∧ slot.objectExtent ≠ slot.capacity)) then
    .error (.error .corruption "allocator returned invalid regular class metadata")
  else if slot.objectKind = .segmented ∧ (slot.payloadOffset = 0 ∨ slot.objectExtent = 0) then
    .error (.error .corruption "segmented allocator metadata lacks payload extent")
  else if slot.payloadOffset = 0 ∧ request.handle.offset + kSlabHeaderSize ≥ 2 ^ 64 then
    .error (.error .corruption "legacy payload offset overflow")
  else
    let objectOffset := if slot.payloadOffset = 0 then request.handle.offset + kSlabHeaderSize
      else slot.payloadOffset
    let objectExtent := if slot.objectExtent = 0 then slot.capacity else slot.objectExtent
    if objectExtent < slot.capacity ∨ objectOffset < dataOffset then
      .error (.error .corruption "allocator returned invalid object extent")
    else if objectOffset + objectExtent ≥ 2 ^ 64 ∨ objectOffset + objectExtent > dataEnd then
      .error (.error .corruption "allocator object extent exceeds Region data")
    else .ok (objectOffset, objectExtent)

def validateHeader (region : MappedRegion) (request : ResolveRequest)
    (slot : AllocatorSlotMetadata) (header : SlabHeader) (objectOffset objectExtent : Nat) :
    Result Unit := do
  rejectIf (header.magic ≠ SlabHeader.kSlabHeaderMagic)
    (.error .corruption "bad slab header magic")
  rejectIf (header.headerVersion ≠ SlabHeader.kSlabHeaderVersion)
    (.error .unsupported "unsupported slab header version")
  rejectIf (request.handle.generation ≠ header.generation)
    (.error .notFound "handle generation does not match slab header")
  rejectIf (header.classId ≠ slot.classId ∨ header.capacity ≠ slot.capacity)
    (.error .corruption "slab class metadata mismatch")
  rejectIf (!header.verifyImmutableHeader)
    (.error .corruption "immutable slab header CRC mismatch")
  rejectIf (request.requireMutable ∧ header.objectState ≠ .allocated ∧
      header.objectState ≠ .building)
    (.error .permissionDenied "object not in a mutable state (ALLOCATED/BUILDING)")
  rejectIf (request.requireMutable ∧ header.ownerEpoch ≠ request.processEpoch)
    (.error .permissionDenied "object owned by a different process")
  rejectIf (request.requireMutable = false ∧ header.objectState ≠ .published)
    (.error .permissionDenied "object not PUBLISHED")
  rejectIf (header.typeId ≠ request.expectedType)
    (.error .schemaMismatch "object type_id mismatch")
  rejectIf (request.expectedSchemaShortId ≠ 0 ∧
      header.schemaShortId ≠ request.expectedSchemaShortId)
    (.error .schemaMismatch "object schema short id mismatch")
  rejectIf (header.objectSize > objectExtent)
    (.error .corruption "object size exceeds authoritative object extent")
  rejectIf (objectOffset + header.objectSize ≥ 2 ^ 64 ∨
      objectOffset + request.typeSize ≥ 2 ^ 64)
    (.error .corruption "object extent overflow")
  rejectIf (objectOffset + header.objectSize > objectOffset + objectExtent)
    (.error .corruption "object extends past its authoritative extent")
  rejectIf (request.typeSize = 0 ∨ request.typeSize > header.objectSize ∨
      objectOffset + request.typeSize > objectOffset + header.objectSize)
    (.error .schemaMismatch "C++ type size exceeds stored object extent")
  rejectIf (request.typeAlignment = 0 ∨
      request.typeAlignment &&& (request.typeAlignment - 1) ≠ 0 ∨
      (region.base + objectOffset) % request.typeAlignment ≠ 0)
    (.error .schemaMismatch "stored object does not satisfy C++ type alignment")

/-- `ResolveInternal` and `ResolveMutableInternal`: the offset of the pointer. -/
def resolve (region : MappedRegion) (provider : MetadataProvider) (attached : AttachContext)
    (request : ResolveRequest) : Result Nat := do
  let (dataOffset, dataEnd) ← validateRegion region attached request
  let slot ← provider.getSlotMetadata request.handle.offset
  let (objectOffset, objectExtent) ← validateSlot request dataOffset dataEnd slot
  validateHeader region request slot (provider.header (provider.unitAt request.handle.offset))
    objectOffset objectExtent
  pure objectOffset

end HandleResolver

/-! ### Soundness -/

/-- What an allocator's answer for an occupied unit says. -/
structure MetadataProvider.Answers (provider : MetadataProvider) (offset : Nat)
    (slot : AllocatorSlotMetadata) : Prop where
  isObject : provider.IsObject (provider.unitAt offset)
  generation : slot.generation = provider.generation (provider.unitAt offset)
  extent : provider.extent (provider.unitAt offset) =
    Set.Ico slot.payloadOffset (slot.payloadOffset + slot.objectExtent)
  metadata : Disjoint (provider.extent (provider.unitAt offset)) provider.metadata
  others : ∀ other, provider.IsObject other → other ≠ provider.unitAt offset →
    Disjoint (provider.extent (provider.unitAt offset)) (provider.extent other)
  payload : slot.payloadOffset ≠ 0 ∨ slot.objectKind = .segmented
  size : slot.objectExtent = slot.capacity ∨ slot.objectKind = .segmented

variable {offset objectOffset objectExtent : Nat}

namespace SlabAllocator

variable {a : SlabAllocator} {slot : Nat} {c : ClassDescriptor} {metadata : CentralSlabSlotMetadata}

/-- The space of a class in a slot ends before the next slot begins. -/
theorem class_end (h : a.geometry.Valid) (hc : a.geometry.table.classOf slot = some c) :
    a.geometry.slotOffset slot + kSlabHeaderSize + c.slotSize ≤
      a.geometry.slotOffset (slot + 1) := by
  have hsize := h.table.slotSize_le (List.mem_of_find?_eq_some hc)
  have hstride := h.stride
  rw [SlabGeometry.slotOffset, SlabGeometry.slotOffset, Nat.add_one_mul]
  omega

theorem getSlotMetadata_ok (h : a.getSlotMetadata offset = .ok metadata) :
    ∃ slot c, slot = (MetadataProvider.slab a).unitAt offset ∧
      a.geometry.slotOffset slot = offset ∧ a.geometry.table.classOf slot = some c ∧
      metadata = ⟨a.bitmap slot, a.generations slot, c.classId, a.geometry.table.classCount,
        c.slotSize⟩ := by
  simp only [getSlotMetadata, unless_eq_ok] at h
  obtain ⟨-, -, -, hoffset, h⟩ := h
  split at h
  · cases h
  rename_i c hc
  cases h
  exact ⟨_, c, rfl, not_not.mp fun hne => hoffset (.inr hne), hc, rfl⟩

theorem answers (hvalid : a.geometry.Valid)
    (h : a.getSlotMetadata offset = .ok metadata) (hoccupied : metadata.occupied = true) :
    (MetadataProvider.slab a).Answers offset ⟨metadata.occupied, metadata.generation,
      metadata.classId, metadata.classCount, metadata.capacity, offset + kSlabHeaderSize,
      metadata.capacity, .contiguousSlot⟩ := by
  obtain ⟨slot, c, hunit, hoffset, hc, rfl⟩ := getSlotMetadata_ok h
  have hend := class_end hvalid hc
  have hextent : (MetadataProvider.slab a).extent slot =
      Set.Ico (a.geometry.slotOffset slot + kSlabHeaderSize)
        (a.geometry.slotOffset slot + kSlabHeaderSize + c.slotSize) := by
    dsimp only [MetadataProvider.extent]
    rw [hc]
    rfl
  have hstart : a.geometry.handleOffsetBias + a.geometry.slotAreaOffset ≤ a.geometry.slotOffset
      slot := Nat.add_le_add_left (Nat.le_add_right _ _) _
  refine ⟨?_, ?_, ?_, ?_, ?_, .inl (by simp [kSlabHeaderSize]), .inl rfl⟩
  all_goals rw [← hunit]
  · exact ⟨hoccupied, c, hc⟩
  · rfl
  · rw [hextent, hoffset]
  · rw [hextent, Set.disjoint_left]
    rintro o ⟨hge, hlt⟩ (hmeta | ⟨j, hj⟩)
    · have := hmeta.2
      omega
    -- The header of another slot is in front of this slot or behind its payload.
    rcases Nat.lt_or_ge slot j with hslot | hslot
    · have hmono := slotOffset_mono a.geometry (show slot + 1 ≤ j from hslot)
      have := hj.1
      omega
    · have hmono := slotOffset_mono a.geometry hslot
      have := hj.2
      omega
  · intro other hother hne
    obtain ⟨-, d, hd⟩ := hother
    have hend' := class_end hvalid hd
    have hextent' : (MetadataProvider.slab a).extent other =
        Set.Ico (a.geometry.slotOffset other + kSlabHeaderSize)
          (a.geometry.slotOffset other + kSlabHeaderSize + d.slotSize) := by
      dsimp only [MetadataProvider.extent]
      rw [hd]
      rfl
    rw [hextent, hextent', Set.disjoint_left]
    rintro o ⟨hge, hlt⟩ ⟨hge', hlt'⟩
    rcases Nat.lt_or_gt_of_ne hne with hslot | hslot
    · have hmono := slotOffset_mono a.geometry (show other + 1 ≤ slot from hslot)
      omega
    · have hmono := slotOffset_mono a.geometry (show slot + 1 ≤ other from hslot)
      omega

end SlabAllocator

namespace LargeObjectPool

variable {pool : LargeObjectPool} {metadata : LargeObjectSlotMetadata}

theorem getSlotMetadata_ok
    (h : pool.getSlotMetadata offset = .ok metadata) (hoccupied : metadata.occupied = true) :
    ∃ segment, segment = (MetadataProvider.large pool).unitAt offset ∧
      pool.isSegmentSet segment = true ∧ Whole pool segment ∧
      metadata = ⟨true, pool.generations segment, pool.geometry.segmentSize,
        pool.geometry.payloadOffset segment,
        pool.geometry.segmentsFor (pool.headers segment).objectSize *
          pool.geometry.segmentSize⟩ := by
  simp only [getSlotMetadata, unless_eq_ok] at h
  replace h := h.2.2.2.2
  split at h
  · cases h
    cases hoccupied
  rename_i hset
  obtain ⟨plan, hplan, h⟩ := bind_eq_ok h
  obtain ⟨first, hresolve, hwhole, hlen⟩ := inspectPlan_ok hplan
  obtain ⟨hfirst, -, -⟩ := resolveLocked_ok hresolve
  simp only [unless_eq_ok] at h
  obtain ⟨-, -, h⟩ := h
  cases h
  rw [← hfirst] at hset ⊢
  exact ⟨first, hfirst, by simpa using hset, hwhole, by rw [hlen]⟩

theorem answers (hvalid : pool.geometry.Valid)
    (h : pool.getSlotMetadata offset = .ok metadata) (hoccupied : metadata.occupied = true) :
    (MetadataProvider.large pool).Answers offset ⟨metadata.occupied, metadata.generation,
      kLargeObjectClassId, 0, metadata.capacity, metadata.payloadOffset, metadata.objectExtent,
      .segmented⟩ := by
  obtain ⟨segment, hunit, hset, hwhole, rfl⟩ := getSlotMetadata_ok h hoccupied
  refine ⟨?_, ?_, ?_, ?_, ?_, .inr rfl, .inr rfl⟩
  all_goals rw [← hunit]
  · exact ⟨hset, hwhole⟩
  · rfl
  · rfl
  · rw [Set.disjoint_left]
    rintro o ⟨hge, -⟩ ⟨-, hlt⟩
    have hstart : pool.geometry.payloadRegionOffset ≤ pool.geometry.payloadOffset segment :=
      Nat.le_add_right _ _
    omega
  · exact fun other hother hne => hwhole.disjoint hvalid.segmentSize hother.2 hne.symm

end LargeObjectPool

theorem MetadataProvider.Created.answers {provider : MetadataProvider} (hcreated : provider.Created)
    {slot} (h : provider.getSlotMetadata offset = .ok slot)
    (hoccupied : slot.occupied = true) : provider.Answers offset slot := by
  cases provider with
  | slab a =>
    obtain ⟨config, placement, origin, hgeometry⟩ := hcreated
    obtain ⟨metadata, hmetadata, h⟩ := bind_eq_ok h
    split at h
    · cases h
    cases h
    exact SlabAllocator.answers (.of_origin hgeometry) hmetadata hoccupied
  | large pool =>
    obtain ⟨storage, maxObjectSize, segmentSize, prepared, hgeometry⟩ := hcreated
    obtain ⟨metadata, hmetadata, h⟩ := bind_eq_ok h
    cases h
    exact LargeObjectPool.answers (.of_create hgeometry) hmetadata hoccupied

namespace HandleResolver

variable {region : MappedRegion} {attached : AttachContext} {request : ResolveRequest}

theorem validateRegion_ok {lo hi} (h : validateRegion region attached request = .ok (lo, hi)) :
    request.handle.regionId = attached.regionId ∧ region.regionId = attached.regionId ∧
      ∃ sb, region.superblock = some sb ∧ sb.regionId = attached.regionId ∧
        lo = sb.dataOffset ∧ hi = sb.dataOffset + sb.dataSize ∧ hi ≤ region.size := by
  unfold validateRegion at h
  split at h
  · cases h
  rename_i sb hsb
  simp only [check_eq_ok, ne_eq, not_not] at h
  obtain ⟨-, -, hidentity, -, hhandle, -, -, -, hdata, -, -, -, h⟩ := h
  cases h
  simp only [not_or, not_not] at hidentity
  exact ⟨hhandle, hidentity.1, sb, hsb, hidentity.2.1, rfl, rfl,
    Nat.not_lt.mp fun hlt => hdata (.inr hlt)⟩

variable {slot : AllocatorSlotMetadata}

theorem validateSlot_ok {dataOffset dataEnd}
    (h : validateSlot request dataOffset dataEnd slot = .ok (objectOffset, objectExtent)) :
    slot.occupied = true ∧ request.handle.generation = slot.generation ∧
      dataOffset ≤ objectOffset ∧ objectOffset + objectExtent ≤ dataEnd ∧
      (slot.payloadOffset ≠ 0 ∨ slot.objectKind = .segmented → objectOffset = slot.payloadOffset) ∧
      (slot.objectExtent = slot.capacity ∨ slot.objectKind = .segmented →
        objectExtent = slot.objectExtent) := by
  simp only [validateSlot, unless_eq_ok] at h
  obtain ⟨hoccupied, hgen, hcapacity, -, hsegmented, -, h⟩ := h
  generalize ho : (if slot.payloadOffset = 0 then request.handle.offset + kSlabHeaderSize
    else slot.payloadOffset) = o at h
  generalize he : (if slot.objectExtent = 0 then slot.capacity else slot.objectExtent) = e at h
  obtain ⟨hstart, hend, h⟩ := h
  cases h
  refine ⟨by simpa using hoccupied, not_not.mp hgen, by omega, by omega, fun hwhy => ?_,
    fun hwhy => ?_⟩
  · rw [← ho]
    refine if_neg fun hzero => ?_
    rcases hwhy with hne | hkind
    · exact hne hzero
    · exact hsegmented ⟨hkind, .inl hzero⟩
  · rw [← he]
    refine if_neg fun hzero => ?_
    rcases hwhy with heq | hkind
    · exact hcapacity (heq.symm.trans hzero)
    · exact hsegmented ⟨hkind, .inr hzero⟩

theorem validateHeader_ok {header}
    (h : validateHeader region request slot header objectOffset objectExtent = .ok ()) :
    header.generation = request.handle.generation ∧ header.verifyImmutableHeader = true ∧
      (request.requireMutable = true → (header.objectState = .allocated ∨
        header.objectState = .building) ∧ header.ownerEpoch = request.processEpoch) ∧
      (request.requireMutable = false → header.objectState = .published) ∧
      header.typeId = request.expectedType ∧
      (request.expectedSchemaShortId ≠ 0 → header.schemaShortId = request.expectedSchemaShortId) ∧
      0 < request.typeSize ∧ request.typeSize ≤ header.objectSize ∧
      header.objectSize ≤ objectExtent := by
  simp only [validateHeader, check_eq_ok] at h
  obtain ⟨-, -, hgen, -, hverify, hstate, hepoch, hpublished, htype, hschema, hsize, -, -, htypeSize,
    -⟩ := h
  refine ⟨(not_not.mp hgen).symm, by simpa using hverify, fun hmut => ⟨?_, ?_⟩, fun hmut => ?_,
    not_not.mp htype, fun hne => ?_, by omega, by omega, by omega⟩
  · by_contra hne
    obtain ⟨hallocated, hbuilding⟩ := not_or.mp hne
    exact hstate ⟨hmut, hallocated, hbuilding⟩
  · exact not_not.mp fun hne => hepoch ⟨hmut, hne⟩
  · exact not_not.mp fun hne => hpublished ⟨hmut, hne⟩
  · exact not_not.mp fun hne' => hschema ⟨hne, hne'⟩

/-- A pointer that the resolver returns for `n` bytes is to the payload of an object of the
handle's region and generation, in a state that allows the access, of the right type and
schema; the bytes are in the object's own extent and in the data area, and they meet no
metadata of the allocator and no other object. -/
theorem resolve_sound {provider : MetadataProvider} (hcreated : provider.Created)
    {objectOffset : Nat} (h : resolve region provider attached request = .ok objectOffset) :
    let unit := provider.unitAt request.handle.offset
    let header := provider.header unit
    let bytes := Set.Ico objectOffset (objectOffset + request.typeSize)
    request.handle.regionId = region.regionId ∧
    provider.IsObject unit ∧ provider.generation unit = request.handle.generation ∧
    header.generation = request.handle.generation ∧
    (request.requireMutable = true → (header.objectState = .allocated ∨
      header.objectState = .building) ∧ header.ownerEpoch = request.processEpoch) ∧
    (request.requireMutable = false → header.objectState = .published) ∧
    header.typeId = request.expectedType ∧
    (request.expectedSchemaShortId ≠ 0 → header.schemaShortId = request.expectedSchemaShortId) ∧
    bytes ⊆ provider.extent unit ∧
    (∃ sb, region.superblock = some sb ∧ bytes ⊆ Set.Ico sb.dataOffset
      (sb.dataOffset + sb.dataSize) ∧ sb.dataOffset + sb.dataSize ≤ region.size) ∧
    Disjoint bytes provider.metadata ∧
    ∀ other, provider.IsObject other → other ≠ unit → Disjoint bytes (provider.extent other) := by
  intro unit header bytes
  obtain ⟨⟨lo, hi⟩, hregion, h⟩ := bind_eq_ok h
  obtain ⟨slot, hslot, h⟩ := bind_eq_ok h
  obtain ⟨⟨o, extent⟩, hvalidSlot, h⟩ := bind_eq_ok h
  obtain ⟨_, hheader, h⟩ := bind_eq_ok h
  cases h
  obtain ⟨hhandle, hid, sb, hsb, -, rfl, rfl, hinside⟩ := validateRegion_ok hregion
  obtain ⟨hoccupied, hgen, hstart, hend, hpayload, hextent⟩ := validateSlot_ok hvalidSlot
  obtain ⟨hhgen, -, hmutable, hread, htype, hschema, -, hfits, hsize⟩ := validateHeader_ok hheader
  have hanswers := hcreated.answers hslot hoccupied
  obtain rfl := hpayload hanswers.payload
  obtain rfl := hextent hanswers.size
  have hbytes : bytes ⊆ provider.extent unit := by
    rw [hanswers.extent]
    exact fun x hx => ⟨hx.1, by have := hx.2; omega⟩
  refine ⟨hhandle.trans hid.symm, hanswers.isObject, (hgen.trans hanswers.generation).symm, hhgen,
    hmutable, hread, htype, hschema, hbytes, ⟨sb, hsb, fun x hx => ?_, hinside⟩,
    hanswers.metadata.mono_left hbytes,
    fun other hother hne => (hanswers.others other hother hne).mono_left hbytes⟩
  have := hx.1
  have := hx.2
  exact ⟨by omega, by omega⟩

/-- A region with one slab allocator, of one class. -/
def plainStorage : SlabGeometry.RegionAllocatorStorage := ⟨4096, 65536, 64, 4096, 4160, 16384, 7⟩

def plainGeometry : SlabGeometry := ⟨⟨[⟨0, 16, 2, 0⟩], 64⟩, 64, 4096, 128, 65472, 7, 64⟩

def plainRegion : MappedRegion :=
  ⟨some ⟨7, 1, 1, 1, 4160, 16384⟩, 7, 4096, 65536, false, .success⟩

def plainAttached : AttachContext := ⟨7, 1, 1, 1⟩

/-- One published object, of type 1 and schema 5. -/
def plainAllocator : SlabAllocator :=
  ((SlabHistory.create plainGeometry).run [.allocate .disabled ⟨16, 1, 1, 5, 8, 0, 0, 0⟩,
    .beginBuild ⟨4160, 1, 7⟩, .publish ⟨4160, 1, 7⟩]).allocator

def readRequest (schema : Nat) : ResolveRequest := ⟨⟨4160, 1, 7⟩, 1, schema, 16, 8, false, 1⟩

theorem resolve_sound_plain :
    resolve plainRegion (.slab plainAllocator) plainAttached (readRequest 5) = .ok 4224 ∧
      Disjoint (Set.Ico 4224 (4224 + (readRequest 5).typeSize))
        (MetadataProvider.slab plainAllocator).metadata := by
  have hgeometry : plainAllocator.geometry = plainGeometry := by decide +kernel
  have hcreated : (MetadataProvider.slab plainAllocator).Created := by
    refine ⟨[⟨16, 2⟩], .success, .region plainStorage, ?_⟩
    rw [hgeometry]
    rfl
  have h : resolve plainRegion (.slab plainAllocator) plainAttached (readRequest 5) = .ok 4224 := by
    decide +kernel
  exact ⟨h, (resolve_sound hcreated h).2.2.2.2.2.2.2.2.2.2.1⟩

/-- A caller that passes 0 for the schema gets an object of any schema. -/
theorem resolve_without_schema :
    (readRequest 0).expectedSchemaShortId ≠ (plainAllocator.headers 0).schemaShortId ∧
      resolve plainRegion (.slab plainAllocator) plainAttached (readRequest 0) = .ok 4224 := by
  decide +kernel

end HandleResolver

end Mino.Shm
