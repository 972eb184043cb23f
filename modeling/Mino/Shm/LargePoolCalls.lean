import Mino.Shm.LargePoolRecovery

/-! # The calls of the large object pool -/

namespace Mino.Shm

/-- One store of a call to the words of the pool. -/
inductive PoolStore where
  | bit (segment : Nat) (value : Bool)
  | state (segment : Nat) (value : ObjectState)
  | generation (segment value : Nat)
  | header (segment : Nat) (write : SlabHeader → SlabHeader)

/-- The segment that a store writes to. -/
def PoolStore.segment : PoolStore → Nat
  | .bit k _ | .state k _ | .generation k _ | .header k _ => k

/-- The bit, the generation and the header of a segment. -/
structure SegmentWords where
  bit : Bool
  generation : Nat
  header : SlabHeader

def SegmentWords.store (words : SegmentWords) : PoolStore → SegmentWords
  | .bit _ value => { words with bit := value }
  | .state _ value => { words with header := { words.header with objectState := value } }
  | .generation _ value => { words with generation := value }
  | .header _ write => { words with header := write words.header }

structure LargeObjectAllocationRequest where
  objectSize : Nat
  typeId : Nat
  alignment : Nat
  /-- The epoch and the lease of the owner that the headers get, 0 in a pool without
  registration. -/
  ownerEpoch : Nat
  leaseId : Nat
  deriving DecidableEq, Repr

namespace LargeObjectPool

variable {pool : LargeObjectPool}

/-- A pool that `Create` has just set up. -/
def fresh (geometry : PoolGeometry) : LargeObjectPool :=
  ⟨geometry, fun _ => false, fun _ => 0, fun _ => .zero⟩

def store (pool : LargeObjectPool) : PoolStore → LargeObjectPool
  | .bit k value => { pool with bitmap := Function.update pool.bitmap k value }
  | .state k value => { pool with
      headers := Function.update pool.headers k { pool.headers k with objectState := value } }
  | .generation k value => { pool with generations := Function.update pool.generations k value }
  | .header k write => { pool with
      headers := Function.update pool.headers k (write (pool.headers k)) }

def stored (pool : LargeObjectPool) (stores : List PoolStore) : LargeObjectPool :=
  stores.foldl store pool

def words (pool : LargeObjectPool) (k : Nat) : SegmentWords :=
  ⟨pool.bitmap k, pool.generations k, pool.headers k⟩

/-! ### `FindAndClaimExtent` -/

/-- The place where a row of segments whose bits are all `value` ends. -/
def skip (pool : LargeObjectPool) (value : Bool) : (n k : Nat) → Nat
  | 0, k => k
  | n + 1, k => if pool.isSegmentSet k = value then pool.skip value n (k + 1) else k

/-- The first candidate of a free run. -/
def candidate (pool : LargeObjectPool) (payloadBase alignment needed runBegin runEnd : Nat) :
    Option Nat :=
  (List.range' runBegin (runEnd - needed + 1 - runBegin)).find? fun k =>
    (payloadBase + k * pool.geometry.segmentSize) % alignment = 0

/-- `best_start` and `best_run_length`. -/
structure BestRun where
  start : Nat
  length : Nat
  deriving DecidableEq, Repr

/-- The loop over the free runs, from a place on. -/
def bestFrom (pool : LargeObjectPool) (payloadBase alignment needed : Nat) :
    (fuel runBegin : Nat) → BestRun → BestRun
  | 0, _, best => best
  | fuel + 1, runBegin, best =>
    let count := pool.geometry.segmentCount
    if runBegin < count then
      let runBegin := pool.skip true (count - runBegin) runBegin
      let runEnd := pool.skip false (count - runBegin) runBegin
      let best :=
        if runEnd - runBegin ≥ needed then
          match pool.candidate payloadBase alignment needed runBegin runEnd with
          | some start => if runEnd - runBegin < best.length then ⟨start, runEnd - runBegin⟩ else best
          | none => best
        else best
      pool.bestFrom payloadBase alignment needed fuel
        (runEnd + if runEnd = runBegin then 1 else 0) best
    else best

/-- `FindAndClaimExtent` up to the claim, which nobody contests. Each turn of the loop moves on by
a segment at least. -/
def findExtent (pool : LargeObjectPool) (payloadBase needed alignment : Nat) : Result Nat :=
  let count := pool.geometry.segmentCount
  let best := pool.bestFrom payloadBase alignment needed count 0 ⟨count, 2 ^ 32 - 1⟩
  if best.start = count then
    .error (.error .resourceExhausted "no aligned contiguous extent satisfies allocation request")
  else .ok best.start

/-! ### `Allocate` and `Reclaim`, store by store -/

/-- The header of the segment at a place of the run, field after field. -/
def headerStores (pool : LargeObjectPool) (request : LargeObjectAllocationRequest)
    (start i : Nat) : List PoolStore :=
  [fun h => { h with magic := SlabHeader.kSlabHeaderMagic },
    fun h => { h with headerVersion := SlabHeader.kSlabHeaderVersion },
    fun h => { h with classId := kLargeObjectClassId },
    fun h => { h with generation := pool.generations (start + i) + 1 },
    fun h => { h with capacity := pool.geometry.segmentSize },
    fun h => { h with objectSize := request.objectSize },
    fun h => { h with typeId := request.typeId },
    fun h => { h with layoutVersion := 0 },
    fun h => { h with schemaShortId := 0 },
    fun h => { h with ownerEpoch := request.ownerEpoch },
    fun h => { h with allocationTransactionId := request.leaseId },
    fun h => { h with allocationRole := i },
    fun h => { h with immutableHeaderCrc := h.computeImmutableHeaderCrc }].map
      (.header (start + i))

/-- The stores of an `Allocate` that takes the run from `start` on, when no generation is used
up. -/
def allocateStores (pool : LargeObjectPool) (request : LargeObjectAllocationRequest)
    (start : Nat) : List PoolStore :=
  let places := List.range (pool.geometry.segmentsFor request.objectSize)
  places.map (fun i => .bit (start + i) true) ++
    places.map (fun i => .state (start + i) .allocating) ++
    places.map (fun i => .generation (start + i) (pool.generations (start + i) + 1)) ++
    places.flatMap (pool.headerStores request start) ++
    places.reverse.map fun i => .state (start + i) .allocated

/-- The stores of a `Reclaim` of the object at a segment 0. -/
def reclaimStores (pool : LargeObjectPool) (first : Nat) : List PoolStore :=
  (List.range (pool.runLength first)).reverse.flatMap fun i =>
    [.state (first + i) .reclaiming, .state (first + i) .free, .bit (first + i) false]

/-! ### The calls, each in one step -/

/-- The rest of the request, and what `Allocate` is told by the parts of the pool that are not
modelled: `PrepareRegistration` and `ReleaseRegistration`. -/
structure AllocateInput where
  payloadBase : Nat
  purposeMatches : Bool
  requirementMatches : Bool
  /-- `IsRegisteredPurpose` of the pool. -/
  registered : Bool
  physical : Bool
  lease : Bool
  leaseValid : Bool
  hasProvider : Bool
  minimumObjectBytes : Nat
  registration : ShmHandle → Status
  release : ShmHandle → Status

/-- The checks of the purpose. -/
def AllocateInput.purposeCheck (input : AllocateInput) : Status :=
  if !input.purposeMatches then
    .error .invalidArgument "allocation purpose does not match isolated pool"
  else if !input.requirementMatches then
    .error .invalidArgument
      "allocation registration requirement does not match pool purpose"
  else .success

/-- The checks of what only a registered pool has. -/
def AllocateInput.providerCheck (input : AllocateInput) (objectSize : Nat) : Status :=
  if !input.registered then
    if input.physical || input.lease then
      .error .invalidArgument
        "physical contiguity and lease lifetime require a registered pool"
    else .success
  else if !input.hasProvider then .error .unsupported "registered pool has no device provider"
  else if objectSize < input.minimumObjectBytes then
    .error .invalidArgument "object is below registered-pool minimum; use a normal pool"
  else if input.lease && !input.leaseValid then
    .error .invalidArgument "lease lifetime requires a valid lease"
  else .success

/-- The header that `Allocate` writes to the segment `k` at the place `i` of the run. -/
def stamp (pool : LargeObjectPool) (request : LargeObjectAllocationRequest) (k i : Nat) :
    SlabHeader :=
  let header : SlabHeader := ⟨SlabHeader.kSlabHeaderMagic, SlabHeader.kSlabHeaderVersion,
    kLargeObjectClassId, pool.generations k + 1, .allocated, pool.geometry.segmentSize,
    request.objectSize, request.typeId, 0, 0, request.ownerEpoch, request.leaseId, 0, i⟩
  { header with immutableHeaderCrc := header.computeImmutableHeaderCrc }

def inRun (start n k : Nat) : Bool := start ≤ k && k < start + n

/-- All stores of an `Allocate` that takes the run from `start` on. -/
def placed (pool : LargeObjectPool) (request : LargeObjectAllocationRequest) (start : Nat) :
    LargeObjectPool :=
  let n := pool.geometry.segmentsFor request.objectSize
  { pool with
    bitmap := fun k => if inRun start n k then true else pool.bitmap k
    generations := fun k => if inRun start n k then pool.generations k + 1
      else pool.generations k
    headers := fun k => if inRun start n k then pool.stamp request k (k - start)
      else pool.headers k }

/-- The first place of the run whose generation is used up. -/
def exhaustedPlace (pool : LargeObjectPool) (start n : Nat) : Option Nat :=
  (List.range n).find? fun i => pool.generations (start + i) ≥ kGenerationDraining - 1

/-- All stores of an `Allocate` that finds the generation at the place `i` used up. -/
def undone (pool : LargeObjectPool) (start n i : Nat) : LargeObjectPool :=
  { pool with
    bitmap := fun k => if inRun start n k then false else pool.bitmap k
    generations := fun k =>
      if inRun start i k then pool.generations k + 1
      else if k = start + i ∧ pool.generations k = kGenerationDraining - 1 then kGenerationDraining
      else pool.generations k
    headers := fun k => if inRun start n k then { pool.headers k with objectState := .free }
      else pool.headers k }

def handleOf (pool : LargeObjectPool) (first : Nat) : ShmHandle :=
  ⟨pool.geometry.headerOffset first, pool.generations first, pool.geometry.regionId⟩

/-- The part of `Allocate` behind the search. The Boolean is the draining mark of the pool. -/
def allocateAt (pool : LargeObjectPool) (draining : Bool) (input : AllocateInput)
    (request : LargeObjectAllocationRequest) (start : Nat) :
    LargeObjectPool × Bool × Result ShmHandle :=
  let n := pool.geometry.segmentsFor request.objectSize
  match pool.exhaustedPlace start n with
  | some i => (pool.undone start n i, true, .error (.error .resourceExhausted
      "segment generation exhausted; pool marked DRAINING"))
  | none =>
    let placed := pool.placed request start
    let handle := placed.handleOf start
    if handle.offset ≥ 2 ^ 64 then
      (placed, draining, .error (.error .internal "validated large pool handle arithmetic failed"))
    else if !input.registered ∨ (input.registration handle).ok then (placed, draining, .ok handle)
    else
      let rollback := placed.clearObjectForRecovery input.release start .allocated
      (rollback.1, draining,
        .error (if rollback.2.ok then input.registration handle else rollback.2))

def allocate (pool : LargeObjectPool) (draining : Bool) (input : AllocateInput)
    (request : LargeObjectAllocationRequest) : LargeObjectPool × Bool × Result ShmHandle :=
  if request.objectSize = 0 ∨ request.objectSize > pool.geometry.maxObjectSize then
    (pool, draining, .error (.error .invalidArgument "large object size is outside pool bounds"))
  else if !input.purposeCheck.ok then (pool, draining, .error input.purposeCheck)
  else if request.alignment = 0 ∨ request.alignment &&& (request.alignment - 1) ≠ 0 then
    (pool, draining,
      .error (.error .invalidArgument "large object alignment must be a power of two"))
  else if !(input.providerCheck request.objectSize).ok then
    (pool, draining, .error (input.providerCheck request.objectSize))
  else if draining then
    (pool, draining, .error (.error .unavailable "large object pool is draining"))
  else match pool.findExtent input.payloadBase
      (pool.geometry.segmentsFor request.objectSize) request.alignment with
    | .error status => (pool, draining, .error status)
    | .ok start => pool.allocateAt draining input request start

def withState (pool : LargeObjectPool) (k : Nat) (state : ObjectState) : LargeObjectPool :=
  { pool with
    headers := Function.update pool.headers k { pool.headers k with objectState := state } }

def publish (pool : LargeObjectPool) (handle : ShmHandle) : LargeObjectPool × Status :=
  match pool.resolveLocked handle with
  | .error status => (pool, status)
  | .ok first =>
    match pool.inspectPlan handle with
    | .error status => (pool, status)
    | .ok _ =>
      if pool.state first = .allocated then (pool.withState first .published, .success)
      else if pool.state first = .published then (pool, .success)
      else (pool, .error .invalidArgument "large object is not publishable")

def retire (pool : LargeObjectPool) (handle : ShmHandle) : LargeObjectPool × Status :=
  match pool.resolveLocked handle with
  | .error status => (pool, status)
  | .ok first =>
    if pool.state first = .retired then (pool, .success)
    else if pool.state first ≠ .allocated ∧ pool.state first ≠ .building ∧
        pool.state first ≠ .published then
      (pool, .error .invalidArgument "large object is not in a retirable state")
    else match pool.inspectPlan handle with
      | .error status => (pool, status)
      | .ok _ => (pool.withState first .retired, .success)

/-- `unpin` is the answer of `ReleaseRegistration` to `Reclaim` itself, `release` the one to
`ClearObjectForRecovery`. -/
def reclaim (pool : LargeObjectPool) (unpin release : ShmHandle → Status) (handle : ShmHandle) :
    LargeObjectPool × Status :=
  match pool.resolveLocked handle with
  | .error status => (pool, status)
  | .ok first =>
    if pool.state first ≠ .retired ∧ pool.state first ≠ .aborting ∧
        pool.state first ≠ .allocated ∧ pool.state first ≠ .building then
      (pool, .error .invalidArgument "large object must be retired or unpublished")
    else if !(unpin handle).ok then (pool, unpin handle)
    else pool.clearObjectForRecovery release first (pool.state first)

end LargeObjectPool

end Mino.Shm
