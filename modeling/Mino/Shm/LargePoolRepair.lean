import Mino.Shm.LargePoolCalls

/-! # What the recovery scan makes of the large object pool

A repairing scan only frees segments. Which ones a step of it frees can be read off the pool as the
scan found it, so the pool that it leaves is known as well. -/

namespace Mino.Shm.LargeObjectPool

open SlabAllocator (isProtocolReclaimableState)

variable {pool : LargeObjectPool} {F : Nat → Bool} {input : ScanInput}
  {release : ShmHandle → Status} {report : ScanReport} {r i j k p : Nat}

/-- The state is none of those between two others. -/
def Live (pool : LargeObjectPool) (segment : Nat) : Prop :=
  isProtocolReclaimableState (pool.state segment) = false

/-- The object at the segment 0 is one for the scan to take away. -/
def dropped (pool : LargeObjectPool) (input : ScanInput) (first : Nat) : Bool :=
  match pool.state first with
  | .allocated | .building | .aborting =>
    input.ownerDead (pool.headers first).ownerEpoch (pool.headers first).allocationTransactionId
  | .published => input.referencesComplete &&
    !input.isReferenced first (pool.generations first) && input.destructive
  | .retired => input.reclaimRetired
  | .free | .allocating | .reclaiming => false

/-- What looks like segment 0 of an object in between has the headers of one behind it. -/
def Passable (pool : LargeObjectPool) (k : Nat) : Prop :=
  pool.isSegmentSet k = true → ¬ Live pool k → pool.completeSegmentZero k = true → Clearable pool k

/-- A pool that the scan can deal with. -/
structure Recoverable (pool : LargeObjectPool) (input : ScanInput) : Prop where
  passable : ∀ k, Passable pool k
  /-- Each segment with a published kind of state is in the run of a segment 0 in between, or part
  of a whole object that is to be taken away or has such states only. -/
  live : ∀ k, pool.isSegmentSet k = true → Live pool k → ∃ r i, i < pool.runLength r ∧ k = r + i ∧
    (pool.isSegmentSet r = true ∧ ¬ Live pool r ∧ pool.completeSegmentZero r = true ∨
      Whole pool r ∧ Live pool r ∧
        (pool.dropped input r = true ∨ ∀ j, j < pool.runLength r → Live pool (r + j)))

instance : Decidable (Whole pool r) :=
  decidable_of_iff (pool.rootValid r = true ∧ r + pool.runLength r ≤ pool.geometry.segmentCount ∧
    ∀ i, i < pool.runLength r → pool.segmentValid r i = true)
    ⟨fun h => ⟨h.1, h.2.1, h.2.2⟩, fun h => ⟨h.root, h.inside, h.segments⟩⟩

/-! ### Whole objects -/

theorem Whole.set (h : Whole pool r) (hi : i < pool.runLength r) :
    pool.isSegmentSet (r + i) = true := by
  have hvalid := h.segments i hi
  simp only [segmentValid, Bool.and_eq_true] at hvalid
  exact hvalid.1.1.1.1.1.1.1.1

theorem Whole.role (h : Whole pool r) (hi : i < pool.runLength r) :
    (pool.headers (r + i)).allocationRole = i :=
  role_of_segmentValid (h.segments i hi)

theorem runLength_pos (hvalid : pool.geometry.Valid) (hsize : (pool.headers r).objectSize ≠ 0) :
    0 < pool.runLength r := by
  have hpos := hvalid.segmentSize
  exact Nat.div_pos (by omega) hpos

theorem Whole.clearable (h : Whole pool r) : Clearable pool r := by
  refine ⟨?_, h.inside, fun i hi => ?_⟩
  · have hroot := h.root
    simp only [rootValid, Bool.and_eq_true, decide_eq_true_eq] at hroot
    simp only [rootClearable, Bool.and_eq_true, decide_eq_true_eq]
    exact hroot.1
  · have hsegment := h.segments i hi
    simp only [segmentValid, Bool.and_eq_true, decide_eq_true_eq] at hsegment
    simp only [segmentClearable, Bool.or_eq_true, Bool.and_eq_true, decide_eq_true_eq]
    obtain ⟨⟨⟨⟨⟨⟨⟨⟨_, hverify⟩, hclass⟩, _⟩, hobject⟩, _⟩, hrole⟩, hgeneration⟩, _⟩ := hsegment
    exact .inr ⟨⟨⟨⟨hverify, hclass⟩, hobject⟩, hrole⟩, hgeneration⟩

theorem Clearable.length_pos (hvalid : pool.geometry.Valid) (h : Clearable pool r) :
    0 < pool.runLength r := by
  have hroot := h.root
  simp only [rootClearable, Bool.and_eq_true, decide_eq_true_eq] at hroot
  exact runLength_pos hvalid hroot.1.1.2

theorem Clearable.role (h : Clearable pool r) (hi : i < pool.runLength r)
    (hset : pool.isSegmentSet (r + i) = true) : (pool.headers (r + i)).allocationRole = i := by
  have hsegment := h.segments i hi
  simp only [segmentClearable, hset, Bool.not_true, Bool.false_or, Bool.and_eq_true,
    decide_eq_true_eq] at hsegment
  exact hsegment.1.2

theorem Whole.headerCurrent (h : Whole pool r) (hi : i < pool.runLength r) :
    pool.headerCurrent (r + i) = true := by
  have hroot := h.root
  have hsegment := h.segments i hi
  simp only [rootValid, Bool.and_eq_true, decide_eq_true_eq] at hroot
  simp only [segmentValid, Bool.and_eq_true, decide_eq_true_eq] at hsegment
  obtain ⟨⟨⟨⟨⟨_, _⟩, hzero⟩, hmax⟩, _⟩, _⟩ := hroot
  obtain ⟨⟨⟨⟨⟨⟨⟨⟨_, hverify⟩, hclass⟩, hcapacity⟩, hobject⟩, _⟩, _⟩, hgeneration⟩, _⟩ := hsegment
  simp only [LargeObjectPool.headerCurrent, Bool.and_eq_true, decide_eq_true_eq, hobject]
  exact ⟨⟨⟨⟨⟨hverify, hgeneration⟩, hclass⟩, hcapacity⟩, hzero⟩, hmax⟩

section

variable (hvalid : pool.geometry.Valid)
include hvalid

theorem resolveLocked_set (hset : pool.isSegmentSet r = true) :
    pool.resolveLocked (pool.handleOf r) = .ok r := by
  have hlt := lt_of_isSegmentSet hset
  have hpositive := hvalid.positive
  have hdiv : r * kSlabHeaderSize / kSlabHeaderSize = r := Nat.mul_div_cancel _ (by decide)
  simp [resolveLocked, handleOf, PoolGeometry.headerOffset, hdiv, hlt, hset, hpositive.ne']

end

/-! ### Objects that no freed segment is of -/

theorem runLength_freed (hF : F k = false) : (pool.freed F).runLength k = pool.runLength k := by
  unfold runLength
  rw [headers_freed hF]
  rfl

section

variable (hr : F r = false) (hF : ∀ i, i < pool.runLength r → F (r + i) = false)
include hr hF

theorem whole_freed : Whole (pool.freed F) r ↔ Whole pool r := by
  have hroot : (pool.freed F).rootValid r = pool.rootValid r := by
    unfold rootValid
    rw [headers_freed hr]
    rfl
  have hlength : (pool.freed F).runLength r = pool.runLength r := runLength_freed hr
  have hsegment : ∀ i, i < pool.runLength r →
      (pool.freed F).segmentValid r i = pool.segmentValid r i := by
    intro i hi
    unfold segmentValid
    rw [headers_freed (hF i hi), headers_freed hr, isSegmentSet_freed, hF i hi, Bool.not_false,
      Bool.and_true]
    rfl
  constructor
  · intro h
    refine ⟨hroot ▸ h.root, ?_, fun i hi =>
      hsegment i hi ▸ h.segments i (hi.trans_eq hlength.symm)⟩
    have hinside : r + (pool.freed F).runLength r ≤ pool.geometry.segmentCount := h.inside
    rwa [hlength] at hinside
  · intro h
    refine ⟨hroot.trans h.root, ?_, fun i hi => ?_⟩
    · change r + (pool.freed F).runLength r ≤ pool.geometry.segmentCount
      rw [hlength]
      exact h.inside
    · change i < (pool.freed F).runLength r at hi
      rw [hlength] at hi
      exact (hsegment i hi).trans (h.segments i hi)

end

/-! ### One step of the scan -/

section

variable (hvalid : pool.geometry.Valid)
include hvalid

end

/-! ### What the steps free -/

theorem wholeRun_add (hset : pool.isSegmentSet (r + i) = true) (hi : i < pool.runLength r) :
    pool.wholeRun r (r + i) = true :=
  wholeRun_iff.mpr ⟨hset, i, hi, rfl⟩

theorem Clearable.eq_root (h : Clearable pool p) (hwhole : Whole pool r)
    (hi : i < pool.runLength r) (hrun : pool.wholeRun p (r + i) = true) : p = r := by
  obtain ⟨hset, j, hj, heq⟩ := wholeRun_iff.mp hrun
  have hrole := h.role hj (heq ▸ hset)
  rw [← heq, hwhole.role hi] at hrole
  omega

section

variable (hpass : ∀ p, p < k → Passable pool p)
include hpass

end

section

variable (hvalid : pool.geometry.Valid) (hrepair : input.repair = true)
  (howner : input.isOwner = true) (hrelease : ∀ handle, (release handle).ok = true)
include hvalid hrepair howner hrelease

end

/-! ### What the scan leaves -/

section

variable (hvalid : pool.geometry.Valid) (hpass : ∀ k, Passable pool k)
include hvalid hpass

end

def twoSegments : PoolGeometry := ⟨1, 0, 128, 64, 2, 128, 256⟩

theorem twoSegments_created :
    PoolGeometry.create ⟨64, 4096, 0, 384, 1⟩ 128 64 (.ok ()) = .ok twoSegments := by
  decide +kernel

/-- A request of an owner that can be proved dead. -/
def ownedRequest (objectSize : Nat) : LargeObjectAllocationRequest := ⟨objectSize, 9, 1, 7, 3⟩

end Mino.Shm.LargeObjectPool
