import Mino.Shm.LargeObjectPool
import Mino.Shm.SlabRecovery

/-! # The recovery scan of the large object pool -/

namespace Mino.Shm.LargeObjectPool

variable {pool : LargeObjectPool}

def state (pool : LargeObjectPool) (segment : Nat) : ObjectState :=
  (pool.headers segment).objectState

def freed (pool : LargeObjectPool) (F : Nat → Bool) : LargeObjectPool :=
  { pool with
    bitmap := fun i => if F i then false else pool.bitmap i
    headers := fun i => if F i then { pool.headers i with objectState := .free }
      else pool.headers i }

def only (segment : Nat) : Nat → Bool := fun i => i = segment

def clearSegmentForRecovery (pool : LargeObjectPool) (segment : Nat) (expected : ObjectState) :
    LargeObjectPool × Status :=
  if segment ≥ pool.geometry.segmentCount then
    (pool, .error .invalidArgument "recovery segment index out of range")
  else if !pool.isSegmentSet segment then (pool, .success)
  else if expected ≠ .reclaiming ∧ pool.state segment ≠ expected then
    (pool, .error .wouldBlock "large recovery segment state changed")
  else (pool.freed (only segment), .success)

def clearStaleStateForRecovery (pool : LargeObjectPool) (segment : Nat) (expected : ObjectState) :
    LargeObjectPool × Status :=
  if segment ≥ pool.geometry.segmentCount then
    (pool, .error .invalidArgument "recovery segment index out of range")
  else if pool.isSegmentSet segment then
    (pool, .error .wouldBlock "large recovery segment became occupied")
  else if pool.state segment = expected then (pool.freed (only segment), .success)
  else if pool.state segment = .free then (pool, .success)
  else (pool, .error .wouldBlock "large stale segment state changed")

def handleForRecovery (pool : LargeObjectPool) (segment : Nat) : Result ShmHandle :=
  if segment ≥ pool.geometry.segmentCount ∨ !pool.isSegmentSet segment then
    .error (.error .notFound "large object recovery segment is free")
  else if pool.geometry.headerOffset segment ≥ 2 ^ 64 then
    .error (.error .corruption "large object recovery handle overflow")
  else .ok ⟨pool.geometry.headerOffset segment, pool.generations segment, pool.geometry.regionId⟩

/-- The check of segment 0 in `ClearObjectForRecovery`. -/
def rootClearable (pool : LargeObjectPool) (first : Nat) : Bool :=
  let header := pool.headers first
  header.verifyImmutableHeader && header.classId = kLargeObjectClassId &&
    header.capacity = pool.geometry.segmentSize && header.objectSize ≠ 0 &&
    header.objectSize ≤ pool.geometry.maxObjectSize && header.allocationRole = 0

/-- The check of the segment at a place of the run: it is free, or it has its header. -/
def segmentClearable (pool : LargeObjectPool) (first i : Nat) : Bool :=
  let header := pool.headers (first + i)
  !pool.isSegmentSet (first + i) || (header.verifyImmutableHeader &&
    header.classId = kLargeObjectClassId &&
    header.objectSize = (pool.headers first).objectSize && header.allocationRole = i &&
    header.generation = pool.generations (first + i))

/-- The last loop of `ClearObjectForRecovery`, over the places that are left. -/
def clearRun (pool : LargeObjectPool) (first : Nat) : List Nat → LargeObjectPool × Status
  | [] => (pool, .success)
  | i :: rest =>
    if !pool.isSegmentSet (first + i) then pool.clearRun first rest
    else
      let result := pool.clearSegmentForRecovery (first + i) (pool.state (first + i))
      if !result.2.ok then result else result.1.clearRun first rest

/-- `release` is the answer of `ReleaseRegistration`. -/
def clearObjectForRecovery (pool : LargeObjectPool) (release : ShmHandle → Status) (first : Nat)
    (expected : ObjectState) : LargeObjectPool × Status :=
  if first ≥ pool.geometry.segmentCount ∨ !pool.isSegmentSet first then
    (pool, .error .notFound "large recovery object segment 0 is free")
  else if !pool.rootClearable first ∨ pool.state first ≠ expected then
    (pool, .error .corruption "large recovery object segment 0 is invalid")
  else
    let count := pool.geometry.segmentsFor (pool.headers first).objectSize
    if first + count ≥ 2 ^ 32 ∨ first + count > pool.geometry.segmentCount then
      (pool, .error .corruption "large recovery run exceeds pool bounds")
    else if !(List.range count).all (pool.segmentClearable first) then
      (pool, .error .corruption "large recovery continuation is invalid")
    else match pool.handleForRecovery first with
      | .error status => (pool, status)
      | .ok handle =>
        if !(release handle).ok then (pool, release handle)
        else pool.clearRun first (List.range count).reverse

/-! ### The scan -/

def completeSegmentZero (pool : LargeObjectPool) (segment : Nat) : Bool :=
  (pool.headers segment).verifyImmutableHeader &&
    (pool.headers segment).classId = kLargeObjectClassId &&
    (pool.headers segment).allocationRole = 0

/-- A repair that counts as a reclaim. -/
def reclaimed (report : ScanReport) (result : LargeObjectPool × Status) :
    LargeObjectPool × ScanReport × Status :=
  if !result.2.ok then (result.1, report, result.2)
  else (result.1, { report with reclaimedSlabCount := report.reclaimedSlabCount + 1 }, .success)

/-- The header of an occupied segment is one of the present generation. -/
def headerCurrent (pool : LargeObjectPool) (segment : Nat) : Bool :=
  let header := pool.headers segment
  header.verifyImmutableHeader && header.generation = pool.generations segment &&
    header.classId = kLargeObjectClassId && header.capacity = pool.geometry.segmentSize &&
    header.objectSize ≠ 0 && header.objectSize ≤ pool.geometry.maxObjectSize

def corrupted (pool : LargeObjectPool) (report : ScanReport) :
    LargeObjectPool × ScanReport × Status :=
  (pool, { report with corruptedSlabCount := report.corruptedSlabCount + 1 }, .success)

/-- The part of the loop of `ScanLargePool` for segment 0 of a whole object. -/
def scanRoot (pool : LargeObjectPool) (input : ScanInput) (release : ShmHandle → Status)
    (report : ScanReport) (first : Nat) : LargeObjectPool × ScanReport × Status :=
  let st := pool.state first
  if st = .allocated ∨ st = .building ∨ st = .aborting then
    let provenDead := input.ownerDead (pool.headers first).ownerEpoch
      (pool.headers first).allocationTransactionId
    let report := { report with
      orphanSlabCount := report.orphanSlabCount + 1
      unpublishedOrphanCandidateCount := report.unpublishedOrphanCandidateCount + 1
      deferredReclaimCount := report.deferredReclaimCount + (!provenDead).toNat }
    if input.repair ∧ provenDead then
      reclaimed report (pool.clearObjectForRecovery release first st)
    else (pool, report, .success)
  else if st = .published ∧ input.referencesComplete ∧
      input.isReferenced first (pool.generations first) = false then
    let report := { report with
      orphanSlabCount := report.orphanSlabCount + 1
      publishedOrphanCandidateCount := report.publishedOrphanCandidateCount + 1
      deferredReclaimCount := report.deferredReclaimCount + (!input.destructive).toNat }
    if input.repair ∧ input.destructive then
      reclaimed report (pool.clearObjectForRecovery release first st)
    else (pool, report, .success)
  else if st = .retired ∧ input.reclaimRetired ∧ input.repair then
    reclaimed report (pool.clearObjectForRecovery release first st)
  else (pool, report, .success)

/-- The part for an occupied segment with a published kind of state. -/
def scanLive (pool : LargeObjectPool) (input : ScanInput) (release : ShmHandle → Status)
    (report : ScanReport) (segment : Nat) : LargeObjectPool × ScanReport × Status :=
  let role := (pool.headers segment).allocationRole
  if !pool.headerCurrent segment then pool.corrupted report
  else if role > segment then pool.corrupted report
  else match pool.handleForRecovery (segment - role) with
    | .error _ => pool.corrupted report
    | .ok handle =>
      match pool.inspectPlan handle with
      | .error _ => pool.corrupted report
      | .ok _ =>
        if role ≠ 0 then (pool, report, .success) else pool.scanRoot input release report segment

/-- The part for an occupied segment in a state between two others. -/
def scanProtocol (pool : LargeObjectPool) (input : ScanInput) (release : ShmHandle → Status)
    (report : ScanReport) (segment : Nat) : LargeObjectPool × ScanReport × Status :=
  let report := { report with orphanSlabCount := report.orphanSlabCount + 1 }
  if !input.repair then (pool, report, .success)
  else if pool.completeSegmentZero segment then
    reclaimed report (pool.clearObjectForRecovery release segment (pool.state segment))
  else reclaimed report (pool.clearSegmentForRecovery segment (pool.state segment))

/-- The part for a segment whose bit is clear. -/
def scanFree (pool : LargeObjectPool) (input : ScanInput) (report : ScanReport) (segment : Nat) :
    LargeObjectPool × ScanReport × Status :=
  if pool.state segment = .free then (pool, report, .success)
  else
    let report := { report with
      bitmapInconsistencyCount := report.bitmapInconsistencyCount + 1 }
    if !input.repair then (pool, report, .success)
    else
      let result := pool.clearStaleStateForRecovery segment (pool.state segment)
      (result.1, report, result.2)

/-- The body of the loop of `ScanLargePool`. -/
def scanSegment (pool : LargeObjectPool) (input : ScanInput) (release : ShmHandle → Status)
    (report : ScanReport) (segment : Nat) : LargeObjectPool × ScanReport × Status :=
  let report := { report with slotsScanned := report.slotsScanned + 1 }
  if !pool.isSegmentSet segment then pool.scanFree input report segment
  else if SlabAllocator.isProtocolReclaimableState (pool.state segment) then
    pool.scanProtocol input release report segment
  else pool.scanLive input release report segment

def scanFrom (pool : LargeObjectPool) (input : ScanInput) (release : ShmHandle → Status)
    (report : ScanReport) : List Nat → LargeObjectPool × ScanReport × Status
  | [] => (pool, report, .success)
  | segment :: rest =>
    if input.repair ∧ segment % 256 = 0 ∧ !input.isOwner then
      (pool, report, .error .unavailable "ownership lost during large pool scan")
    else
      let result := pool.scanSegment input release report segment
      if !result.2.2.ok then result else result.1.scanFrom input release result.2.1 rest

variable {F G : Nat → Bool} {first i k : Nat}

theorem freed_freed (pool : LargeObjectPool) (F G : Nat → Bool) :
    (pool.freed F).freed G = pool.freed fun i => F i || G i := by
  unfold freed
  congr 1
  · funext i
    cases hF : F i <;> cases hG : G i <;> simp [hF, hG]
  · funext i
    cases hF : F i <;> cases hG : G i <;> simp [hF, hG]

theorem freed_congr (h : ∀ i, F i = G i) : pool.freed F = pool.freed G := by
  rw [funext h]

theorem headers_freed (hi : F i = false) : (pool.freed F).headers i = pool.headers i := by
  simp [freed, hi]

theorem isSegmentSet_freed : (pool.freed F).isSegmentSet i = (pool.isSegmentSet i && !F i) := by
  cases hi : F i <;> simp [isSegmentSet, freed, hi]

/-- The number of segments of the run at a segment 0. -/
def runLength (pool : LargeObjectPool) (first : Nat) : Nat :=
  pool.geometry.segmentsFor (pool.headers first).objectSize

/-- The occupied segments at the places of a run. -/
def runSegments (pool : LargeObjectPool) (first : Nat) (places : List Nat) : Nat → Bool :=
  fun j => pool.isSegmentSet j && places.any fun i => j = first + i

theorem lt_of_isSegmentSet (hset : pool.isSegmentSet i = true) :
    i < pool.geometry.segmentCount := by
  simp only [isSegmentSet, Bool.and_eq_true, decide_eq_true_eq] at hset
  exact hset.1

theorem headerOffset_lt (hvalid : pool.geometry.Valid) (hlt : i < pool.geometry.segmentCount) :
    pool.geometry.headerOffset i < 2 ^ 64 := by
  have hapart := hvalid.apart
  have haddress := hvalid.addressable
  have hmono :
      pool.geometry.headerOffset i ≤ pool.geometry.headerOffset pool.geometry.segmentCount :=
    Nat.add_le_add_left (Nat.mul_le_mul_right _ hlt.le) _
  have hpayload : pool.geometry.payloadRegionOffset ≤ pool.geometry.payloadOffset
      pool.geometry.segmentCount := Nat.le_add_right _ _
  omega

theorem handleForRecovery_set (hvalid : pool.geometry.Valid) (hset : pool.isSegmentSet i = true) :
    pool.handleForRecovery i =
      .ok ⟨pool.geometry.headerOffset i, pool.generations i, pool.geometry.regionId⟩ := by
  have hlt := lt_of_isSegmentSet hset
  unfold handleForRecovery
  rw [if_neg (by simp [hset, hlt]), if_neg (Nat.not_le.mpr (headerOffset_lt hvalid hlt))]

theorem clearSegmentForRecovery_set (hset : pool.isSegmentSet i = true) :
    pool.clearSegmentForRecovery i (pool.state i) = (pool.freed (only i), .success) := by
  unfold clearSegmentForRecovery
  rw [if_neg (Nat.not_le.mpr (lt_of_isSegmentSet hset)), if_neg (by simp [hset]), if_neg (by simp)]

theorem clearRun_spec (places : List Nat) :
    pool.clearRun first places = (pool.freed (pool.runSegments first places), .success) := by
  induction places generalizing pool with
  | nil =>
    refine Prod.ext ?_ rfl
    change pool = pool.freed (pool.runSegments first [])
    simp [freed, runSegments]
  | cons i rest ih =>
    unfold clearRun
    cases hset : pool.isSegmentSet (first + i) with
    | false =>
      rw [if_pos (by rfl), ih]
      refine Prod.ext (freed_congr fun j => ?_) rfl
      by_cases hj : j = first + i
      · simp [runSegments, hj, hset]
      · simp [runSegments, hj]
    | true =>
      rw [if_neg (by simp), clearSegmentForRecovery_set hset]
      change (if (!Status.success.ok) = true then _ else _) = _
      rw [if_neg (by decide), ih, freed_freed]
      refine Prod.ext (freed_congr fun j => ?_) rfl
      by_cases hj : j = first + i
      · simp [runSegments, only, hj, hset]
      · simp [runSegments, only, hj, isSegmentSet_freed]

/-- `ClearObjectForRecovery` gets through. -/
structure Clearable (pool : LargeObjectPool) (first : Nat) : Prop where
  root : pool.rootClearable first = true
  inside : first + pool.runLength first ≤ pool.geometry.segmentCount
  segments : ∀ i, i < pool.runLength first → pool.segmentClearable first i = true

/-- The run at a segment 0, as far as it is occupied. -/
def wholeRun (pool : LargeObjectPool) (first : Nat) : Nat → Bool :=
  pool.runSegments first (List.range (pool.runLength first)).reverse

theorem wholeRun_iff {j} : pool.wholeRun first j = true ↔
    pool.isSegmentSet j = true ∧ ∃ i, i < pool.runLength first ∧ j = first + i := by
  simp [wholeRun, runSegments]

end Mino.Shm.LargeObjectPool
