import Mino.Shm.SlabAllocator

/-! # The large object pool

An object is a run of segments. Its segments have a header each, in an array in front of the
payload; the role of a header is the place of its segment in the run. -/

namespace Mino.Shm

open Result

def kLargePoolSuperblockSize : Nat := 64
def kDefaultSegmentSize : Nat := 64 * 1024
def kLargeObjectClassId : Nat := 0xFFFF

structure PoolLayout where
  bitmapOffset : Nat
  generationsOffset : Nat
  headersOffset : Nat
  payloadOffset : Nat
  requiredSize : Nat
  bitmapWords : Nat
  deriving DecidableEq, Repr

/-- `ComputeLayout`. Nothing overflows unless the last sum does. -/
def PoolLayout.compute (segmentCount segmentSize : Nat) : Result PoolLayout :=
  if segmentCount = 0 then .error (.error .invalidArgument "large pool has zero segments")
  else
    let bitmapWords := (segmentCount + 63) / 64
    let generationsOffset := alignUp (kLargePoolSuperblockSize + 8 * bitmapWords) 4
    let headersOffset := alignUp (generationsOffset + 4 * segmentCount) 64
    let payloadOffset := alignUp (headersOffset + kSlabHeaderSize * segmentCount) segmentSize
    let requiredSize := payloadOffset + segmentSize * segmentCount
    if requiredSize ≥ 2 ^ 64 then
      .error (.error .invalidArgument "large pool metadata arithmetic overflow")
    else .ok ⟨kLargePoolSuperblockSize, generationsOffset, headersOffset, payloadOffset,
      requiredSize, bitmapWords⟩

structure LargeObjectPoolStorage where
  regionBase : Nat
  regionSize : Nat
  poolOffset : Nat
  poolSize : Nat
  regionId : Nat
  deriving DecidableEq, Repr

/-- `ValidateStorage`. -/
def LargeObjectPoolStorage.validate (storage : LargeObjectPoolStorage) : Result Unit :=
  if storage.regionBase = 0 ∨ storage.regionSize = 0 ∨
      storage.poolSize < kLargePoolSuperblockSize then
    .error (.error .invalidArgument "large pool storage is empty")
  else if storage.poolOffset + storage.poolSize ≥ 2 ^ 64 ∨
      storage.poolOffset + storage.poolSize > storage.regionSize then
    .error (.error .invalidArgument "large pool extent exceeds Region bounds")
  else if storage.poolOffset > 2 ^ 64 - 1 - storage.regionBase ∨
      (storage.regionBase + storage.poolOffset) % 64 ≠ 0 then
    .error (.error .invalidArgument "large pool base is misaligned")
  else .ok ()

structure PoolGeometry where
  regionId : Nat
  poolOffset : Nat
  maxObjectSize : Nat
  segmentSize : Nat
  segmentCount : Nat
  headersRegionOffset : Nat
  payloadRegionOffset : Nat
  deriving DecidableEq, Repr

namespace PoolGeometry

/-- The search for the largest number of segments that fits, between two bounds. -/
def searchCount (poolSize segmentSize : Nat) : (fuel low high : Nat) → Nat
  | 0, low, _ => low
  | fuel + 1, low, high =>
    if low < high then
      let candidate := low + (high - low + 1) / 2
      match PoolLayout.compute candidate segmentSize with
      | .ok layout =>
        if layout.requiredSize ≤ poolSize then searchCount poolSize segmentSize fuel candidate high
        else searchCount poolSize segmentSize fuel low (candidate - 1)
      | .error _ => searchCount poolSize segmentSize fuel low (candidate - 1)
    else low

/-- `LargeObjectPool::Create`. `prepared` is the answer to the options and to the placement of
the memory. The search halves a range of 32 bits. -/
def create (storage : LargeObjectPoolStorage) (maxObjectSize segmentSize : Nat)
    (prepared : Result Unit) : Result PoolGeometry := do
  storage.validate
  prepared
  if maxObjectSize = 0 then
    .error (.error .invalidArgument "max_object_size must be positive")
  else
    let segmentSize := if segmentSize = 0 then kDefaultSegmentSize else segmentSize
    if segmentSize < 64 ∨ segmentSize &&& (segmentSize - 1) ≠ 0 then
      .error (.error .invalidArgument "segment_size must be a power of two and >= 64")
    else
      let segmentCount := searchCount storage.poolSize segmentSize 33 0
        (min (storage.poolSize / segmentSize) (2 ^ 32 - 1 - 63))
      if segmentCount = 0 then
        .error (.error .resourceExhausted "pool too small for any segment")
      else if (maxObjectSize + segmentSize - 1) / segmentSize > segmentCount then
        .error (.error .resourceExhausted "pool too small for one max-size object")
      else do
        let layout ← PoolLayout.compute segmentCount segmentSize
        .ok ⟨storage.regionId, storage.poolOffset, maxObjectSize, segmentSize, segmentCount,
          storage.poolOffset + layout.headersOffset, storage.poolOffset + layout.payloadOffset⟩

/-- The segments that an object of the size takes. -/
def segmentsFor (g : PoolGeometry) (objectSize : Nat) : Nat :=
  (objectSize + g.segmentSize - 1) / g.segmentSize

def headerOffset (g : PoolGeometry) (segment : Nat) : Nat :=
  g.headersRegionOffset + segment * kSlabHeaderSize

def payloadOffset (g : PoolGeometry) (segment : Nat) : Nat :=
  g.payloadRegionOffset + segment * g.segmentSize

/-- What `Create` makes sure of. -/
structure Valid (g : PoolGeometry) : Prop where
  segmentSize : 0 < g.segmentSize
  start : g.poolOffset ≤ g.headersRegionOffset
  positive : 0 < g.headersRegionOffset
  apart : g.headerOffset g.segmentCount ≤ g.payloadRegionOffset
  count : g.segmentCount < 2 ^ 32 - 1
  addressable : g.payloadOffset g.segmentCount < 2 ^ 64

theorem le_alignUp (v : Nat) {a} (ha : 0 < a) : v ≤ alignUp v a := by
  unfold alignUp
  have hdiv := Nat.div_add_mod' (v + a - 1) a
  have hmod := Nat.mod_lt (v + a - 1) ha
  omega

variable {segmentCount segmentSize : Nat} {layout : PoolLayout} {storage : LargeObjectPoolStorage}

theorem compute_apart (hsize : 0 < segmentSize) (h : PoolLayout.compute segmentCount segmentSize =
    .ok layout) : layout.headersOffset + kSlabHeaderSize * segmentCount ≤ layout.payloadOffset := by
  simp only [PoolLayout.compute, unless_eq_ok] at h
  obtain ⟨-, -, h⟩ := h
  cases h
  exact le_alignUp _ hsize

theorem compute_headers_pos (h : PoolLayout.compute segmentCount segmentSize = .ok layout) :
    0 < layout.headersOffset := by
  simp only [PoolLayout.compute, unless_eq_ok] at h
  obtain ⟨-, -, h⟩ := h
  cases h
  have hgenerations := le_alignUp (kLargePoolSuperblockSize + 8 * ((segmentCount + 63) / 64))
    (show 0 < 4 by decide)
  refine Nat.lt_of_lt_of_le ?_ (le_alignUp _ (by decide))
  unfold kLargePoolSuperblockSize at hgenerations ⊢
  omega

/-- The number fits, and it is not above the bounds of the search. -/
theorem searchCount_spec (poolSize segmentSize fuel low high : Nat)
    (hlow : low = 0 ∨ ∃ layout, PoolLayout.compute low segmentSize = .ok layout ∧
      layout.requiredSize ≤ poolSize) : (searchCount poolSize segmentSize fuel low high = 0 ∨
      ∃ layout, PoolLayout.compute (searchCount poolSize segmentSize fuel low high) segmentSize =
        .ok layout ∧ layout.requiredSize ≤ poolSize) ∧
      searchCount poolSize segmentSize fuel low high ≤ max low high := by
  induction fuel generalizing low high with
  | zero => exact ⟨hlow, Nat.le_max_left _ _⟩
  | succ fuel ih =>
    unfold searchCount
    split
    · rename_i hlt
      dsimp only
      split
      · rename_i layout hlayout
        split
        · rename_i hfits
          obtain ⟨hspec, hle⟩ := ih _ high (.inr ⟨layout, hlayout, hfits⟩)
          exact ⟨hspec, by omega⟩
        · obtain ⟨hspec, hle⟩ := ih low (low + (high - low + 1) / 2 - 1) hlow
          exact ⟨hspec, by omega⟩
      · obtain ⟨hspec, hle⟩ := ih low (low + (high - low + 1) / 2 - 1) hlow
        exact ⟨hspec, by omega⟩
    · exact ⟨hlow, Nat.le_max_left _ _⟩

theorem compute_required (h : PoolLayout.compute segmentCount segmentSize = .ok layout) :
    layout.requiredSize = layout.payloadOffset + segmentSize * segmentCount := by
  simp only [PoolLayout.compute, unless_eq_ok] at h
  obtain ⟨-, -, h⟩ := h
  cases h
  rfl

theorem validate_ok {u}
    (h : storage.validate = .ok u) : storage.poolOffset + storage.poolSize < 2 ^ 64 := by
  simp only [LargeObjectPoolStorage.validate, unless_eq_ok] at h
  obtain ⟨-, hbounds, h⟩ := h
  exact Nat.not_le.mp fun hle => hbounds (.inl hle)

theorem Valid.of_create {maxObjectSize prepared g}
    (h : create storage maxObjectSize segmentSize prepared = .ok g) : g.Valid := by
  unfold create at h
  obtain ⟨_, hstorage, h⟩ := bind_eq_ok h
  obtain ⟨-, -, h⟩ := bind_eq_ok h
  have hpool := validate_ok hstorage
  split at h
  · cases h
  dsimp only at h
  generalize (if segmentSize = 0 then kDefaultSegmentSize else segmentSize) = size at h
  split at h
  · cases h
  obtain ⟨hspec, hle⟩ := searchCount_spec storage.poolSize size 33 0
    (min (storage.poolSize / size) (2 ^ 32 - 1 - 63)) (.inl rfl)
  generalize searchCount storage.poolSize size 33 0
    (min (storage.poolSize / size) (2 ^ 32 - 1 - 63)) = count at h hspec hle
  simp only [unless_eq_ok] at h
  obtain ⟨hcount, -, h⟩ := h
  obtain ⟨layout, hlayout, h⟩ := bind_eq_ok h
  cases h
  obtain ⟨layout', hlayout', hfits⟩ := hspec.resolve_left hcount
  cases hlayout.symm.trans hlayout'
  have hpos : 0 < size := by omega
  have hapart := compute_apart hpos hlayout
  have hrequired := compute_required hlayout
  refine ⟨hpos, Nat.le_add_right _ _, Nat.add_pos_right _ (compute_headers_pos hlayout), ?_, ?_, ?_⟩
  · dsimp only [headerOffset]
    rw [Nat.mul_comm]
    omega
  · change count < 2 ^ 32 - 1
    omega
  · dsimp only [payloadOffset]
    rw [Nat.mul_comm]
    omega

end PoolGeometry

/-- The bits, generations and headers of the segments. -/
structure LargeObjectPool where
  geometry : PoolGeometry
  bitmap : Nat → Bool
  generations : Nat → Nat
  headers : Nat → SlabHeader

structure LargeObjectSegment where
  segmentIndex : Nat
  segmentSize : Nat
  payloadOffset : Nat
  deriving DecidableEq, Repr

structure LargeObjectPlan where
  handle : ShmHandle
  objectSize : Nat
  typeId : Nat
  segments : List LargeObjectSegment
  deriving DecidableEq, Repr

structure LargeObjectSlotMetadata where
  occupied : Bool
  generation : Nat
  capacity : Nat
  payloadOffset : Nat
  objectExtent : Nat
  deriving DecidableEq, Repr

namespace LargeObjectPool

variable {pool : LargeObjectPool} {handle : ShmHandle}

def isSegmentSet (pool : LargeObjectPool) (segment : Nat) : Bool :=
  segment < pool.geometry.segmentCount && pool.bitmap segment

def resolveLocked (pool : LargeObjectPool) (handle : ShmHandle) : Result Nat :=
  if handle.offset = 0 ∧ handle.generation = 0 ∧ handle.regionId = 0 then
    .error (.error .invalidArgument "null handle")
  else if handle.regionId ≠ pool.geometry.regionId ∨
      handle.offset < pool.geometry.headersRegionOffset then
    .error (.error .invalidArgument "foreign or metadata-area large object handle")
  else
    let relative := handle.offset - pool.geometry.headersRegionOffset
    if relative % kSlabHeaderSize ≠ 0 then
      .error (.error .invalidArgument "large object handle is not header-aligned")
    else if relative / kSlabHeaderSize ≥ pool.geometry.segmentCount then
      .error (.error .invalidArgument "large object handle exceeds pool headers")
    else if !pool.isSegmentSet (relative / kSlabHeaderSize) then
      .error (.error .notFound "large object segment is not allocated")
    else if pool.generations (relative / kSlabHeaderSize) ≠ handle.generation then
      .error (.error .notFound "stale large object handle generation")
    else .ok (relative / kSlabHeaderSize)

/-- The header of the first segment of a run. -/
def rootValid (pool : LargeObjectPool) (first : Nat) : Bool :=
  let header := pool.headers first
  header.verifyImmutableHeader && header.classId = kLargeObjectClassId &&
    header.capacity = pool.geometry.segmentSize && header.objectSize ≠ 0 &&
    header.objectSize ≤ pool.geometry.maxObjectSize && header.allocationRole = 0 &&
    header.objectState ≠ .free

/-- The header of the segment at a place of a run. -/
def segmentValid (pool : LargeObjectPool) (first i : Nat) : Bool :=
  let header := pool.headers (first + i)
  pool.isSegmentSet (first + i) && header.verifyImmutableHeader &&
    header.classId = kLargeObjectClassId && header.capacity = pool.geometry.segmentSize &&
    header.objectSize = (pool.headers first).objectSize &&
    header.typeId = (pool.headers first).typeId && header.allocationRole = i &&
    header.generation = pool.generations (first + i) && header.objectState ≠ .free

/-- The loop of `InspectPlan` over `n` more segments, from place `i` on. -/
def inspectFrom (pool : LargeObjectPool) (first : Nat) :
    (n i remaining : Nat) → Result (List LargeObjectSegment)
  | 0, _, _ => .ok []
  | n + 1, i, remaining =>
    if !pool.segmentValid first i then
      .error (.error .corruption "large object continuation segment is invalid")
    else if pool.geometry.payloadOffset (first + i) ≥ 2 ^ 64 then
      .error (.error .corruption "large object payload offset overflow")
    else do
      let bytes := min remaining pool.geometry.segmentSize
      let rest ← pool.inspectFrom first n (i + 1) (remaining - bytes)
      pure (⟨first + i, bytes, pool.geometry.payloadOffset (first + i)⟩ :: rest)

def inspectPlan (pool : LargeObjectPool) (handle : ShmHandle) : Result LargeObjectPlan := do
  let first ← pool.resolveLocked handle
  if !pool.rootValid first then
    .error (.error .corruption "large object segment-0 header is invalid")
  else
    let header := pool.headers first
    let segmentCount := pool.geometry.segmentsFor header.objectSize
    if first + segmentCount ≥ 2 ^ 32 ∨ first + segmentCount > pool.geometry.segmentCount then
      .error (.error .corruption "large object plan exceeds pool bounds")
    else do
      let segments ← pool.inspectFrom first segmentCount 0 header.objectSize
      pure ⟨handle, header.objectSize, header.typeId, segments⟩

def getSlotMetadata (pool : LargeObjectPool) (headerOffset : Nat) :
    Result LargeObjectSlotMetadata :=
  let g := pool.geometry
  if headerOffset < g.headersRegionOffset then
    .error (.error .invalidArgument "offset is below the large-pool header array")
  else
    let relative := headerOffset - g.headersRegionOffset
    if relative % kSlabHeaderSize ≠ 0 then
      .error (.error .invalidArgument "offset is not an exact large-pool header start")
    else
      let segment := relative / kSlabHeaderSize
      if segment ≥ g.segmentCount ∨ segment > 2 ^ 32 - 1 then
        .error (.error .invalidArgument "large-pool header offset is out of range")
      else if g.headerOffset segment ≥ 2 ^ 64 ∨ g.headerOffset segment ≠ headerOffset ∨
          g.payloadOffset segment ≥ 2 ^ 64 then
        .error (.error .invalidArgument "large-pool offset arithmetic overflow")
      else if !pool.isSegmentSet segment then
        .ok ⟨false, pool.generations segment, g.segmentSize, g.payloadOffset segment, g.segmentSize⟩
      else do
        let plan ← pool.inspectPlan ⟨headerOffset, pool.generations segment, g.regionId⟩
        if plan.segments.head?.map (fun s => (s.segmentIndex, s.payloadOffset)) ≠
            some (segment, g.payloadOffset segment) then
          .error (.error .corruption "large object metadata does not name segment 0")
        else if plan.segments.length * g.segmentSize ≥ 2 ^ 64 then
          .error (.error .corruption "large object whole extent overflow")
        else .ok ⟨true, pool.generations segment, g.segmentSize, g.payloadOffset segment,
          plan.segments.length * g.segmentSize⟩

/-! ### Whole objects -/

/-- All segments of the run have their headers. -/
structure Whole (pool : LargeObjectPool) (first : Nat) : Prop where
  root : pool.rootValid first = true
  inside : first + pool.geometry.segmentsFor (pool.headers first).objectSize ≤
    pool.geometry.segmentCount
  segments : ∀ i, i < pool.geometry.segmentsFor (pool.headers first).objectSize →
    pool.segmentValid first i = true

theorem role_of_segmentValid {first i} (h : pool.segmentValid first i = true) :
    (pool.headers (first + i)).allocationRole = i := by
  simp only [segmentValid, Bool.and_eq_true, decide_eq_true_eq] at h
  exact h.1.1.2

/-- A segment is in one whole object at most, by its role. -/
theorem Whole.unique {r r' i j} (h : Whole pool r) (h' : Whole pool r')
    (hi : i < pool.geometry.segmentsFor (pool.headers r).objectSize)
    (hj : j < pool.geometry.segmentsFor (pool.headers r').objectSize) (heq : r + i = r' + j) :
    r = r' := by
  have hrole := role_of_segmentValid (h.segments i hi)
  have hrole' := role_of_segmentValid (h'.segments j hj)
  rw [heq, hrole'] at hrole
  omega

/-- The bytes of the run. -/
def extent (pool : LargeObjectPool) (first : Nat) : Set Nat :=
  Set.Ico (pool.geometry.payloadOffset first)
    (pool.geometry.payloadOffset first +
      pool.geometry.segmentsFor (pool.headers first).objectSize * pool.geometry.segmentSize)

/-- A byte of a run is in one of its segments. -/
theorem mem_extent {first o} (hsize : 0 < pool.geometry.segmentSize) (h : o ∈ pool.extent
    first) : ∃ i, i < pool.geometry.segmentsFor (pool.headers first).objectSize ∧
      (o - pool.geometry.payloadRegionOffset) / pool.geometry.segmentSize = first + i := by
  obtain ⟨hge, hlt⟩ := h
  unfold PoolGeometry.payloadOffset at hge hlt
  rw [Nat.add_assoc, ← Nat.add_mul] at hlt
  have hlow : first ≤ (o - pool.geometry.payloadRegionOffset) / pool.geometry.segmentSize :=
    (Nat.le_div_iff_mul_le hsize).mpr (by omega)
  have hhigh : (o - pool.geometry.payloadRegionOffset) / pool.geometry.segmentSize <
      first + pool.geometry.segmentsFor (pool.headers first).objectSize :=
    (Nat.div_lt_iff_lt_mul hsize).mpr (by omega)
  exact ⟨_, (Nat.sub_lt_iff_lt_add' hlow).mpr hhigh, (Nat.add_sub_cancel' hlow).symm⟩

theorem Whole.disjoint {r r'} (hsize : 0 < pool.geometry.segmentSize) (h : Whole pool r)
    (h' : Whole pool r') (hne : r ≠ r') : Disjoint (pool.extent r) (pool.extent r') := by
  rw [Set.disjoint_left]
  intro o ho ho'
  obtain ⟨i, hi, heq⟩ := mem_extent hsize ho
  obtain ⟨j, hj, heq'⟩ := mem_extent hsize ho'
  exact hne (h.unique h' hi hj (heq.symm.trans heq'))

theorem inspectFrom_ok {first n i remaining segments}
    (h : pool.inspectFrom first n i remaining = .ok segments) :
    segments.length = n ∧ ∀ k, k < n → pool.segmentValid first (i + k) = true := by
  induction n generalizing i remaining segments with
  | zero =>
    cases h
    exact ⟨rfl, nofun⟩
  | succ n ih =>
    simp only [inspectFrom, unless_eq_ok] at h
    obtain ⟨hvalid, -, h⟩ := h
    obtain ⟨rest, hrest, h⟩ := bind_eq_ok h
    cases h
    obtain ⟨hlen, hsegments⟩ := ih hrest
    refine ⟨congrArg (· + 1) hlen, fun k hk => ?_⟩
    cases k with
    | zero => simpa using hvalid
    | succ k =>
      have := hsegments k (by omega)
      rwa [Nat.add_assoc, Nat.add_comm 1 k] at this

theorem resolveLocked_ok {segment} (h : pool.resolveLocked handle = .ok segment) :
    segment = (handle.offset - pool.geometry.headersRegionOffset) / kSlabHeaderSize ∧
      pool.isSegmentSet segment = true ∧ pool.generations segment = handle.generation := by
  simp only [resolveLocked, unless_eq_ok] at h
  obtain ⟨-, -, -, -, hset, hgen, h⟩ := h
  cases h
  exact ⟨rfl, by simpa using hset, not_not.mp hgen⟩

theorem inspectPlan_ok {plan} (h : pool.inspectPlan handle =
    .ok plan) : ∃ first, pool.resolveLocked handle = .ok first ∧ Whole pool first ∧
      plan.segments.length = pool.geometry.segmentsFor (pool.headers first).objectSize := by
  unfold inspectPlan at h
  obtain ⟨first, hfirst, h⟩ := bind_eq_ok h
  split at h
  · cases h
  rename_i hroot
  dsimp only at h
  split at h
  · cases h
  obtain ⟨segments, hsegments, h⟩ := bind_eq_ok h
  cases h
  obtain ⟨hlen, hvalid⟩ := inspectFrom_ok hsegments
  refine ⟨first, hfirst, ⟨by simpa using hroot, by omega, fun i hi => ?_⟩, hlen⟩
  simpa using hvalid i hi

end LargeObjectPool

end Mino.Shm
