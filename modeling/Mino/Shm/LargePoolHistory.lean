import Mino.Shm.LargePoolExtent
import Mino.Shm.LargePoolRepair

/-! # What the calls keep of the large object pool

A call keeps the objects of the pool whole, all but the one that it takes away, and each occupied
segment belongs to a whole object before and after it. -/

namespace Mino.Shm

open List SegmentWords

namespace LargeObjectPool

variable {pool pool' pool'' : LargeObjectPool} {request : LargeObjectAllocationRequest}
  {gone : Nat → Prop} {handle : ShmHandle} {r i k start first n : Nat} {input : AllocateInput}
  {st : ObjectState} {draining : Bool}

/-- Each occupied segment belongs to a whole object. -/
def Settled (pool : LargeObjectPool) : Prop :=
  ∀ k, pool.isSegmentSet k = true → ∃ r i, Whole pool r ∧ i < pool.runLength r ∧ k = r + i

/-- The object is there as it was. -/
def Kept (pool pool' : LargeObjectPool) (r : Nat) : Prop :=
  Whole pool' r ∧ (pool'.headers r).objectSize = (pool.headers r).objectSize ∧
    pool'.generations r = pool.generations r

/-- What a call leaves of the pool. -/
structure Keeps (gone : Nat → Prop) (pool pool' : LargeObjectPool) : Prop where
  geometry : pool'.geometry = pool.geometry
  generations : ∀ k, pool.generations k ≤ pool'.generations k
  whole : ∀ r, Whole pool r → ¬ gone r → Kept pool pool' r
  settled : Settled pool'

theorem Keeps.refl (h : Settled pool) : Keeps (fun _ => False) pool pool :=
  ⟨rfl, fun _ => le_rfl, fun _ hwhole _ => ⟨hwhole, rfl, rfl⟩, h⟩

theorem Keeps.mono {gone'} (h : Keeps gone pool pool') (hgone : ∀ r, gone r → gone' r) :
    Keeps gone' pool pool' :=
  ⟨h.geometry, h.generations, fun r hwhole hr => h.whole r hwhole fun hg => hr (hgone r hg),
    h.settled⟩

theorem Whole.congr (hvalid : pool.geometry.Valid) (h : Whole pool r)
    (hgeometry : pool'.geometry = pool.geometry)
    (hsame : ∀ i, i < pool.runLength r → pool'.isSegmentSet (r + i) = pool.isSegmentSet (r + i) ∧
      pool'.headers (r + i) = pool.headers (r + i) ∧
      pool'.generations (r + i) = pool.generations (r + i)) : Kept pool pool' r := by
  obtain ⟨-, hheader, hgeneration⟩ := hsame 0 (h.clearable.length_pos hvalid)
  rw [Nat.add_zero] at hheader hgeneration
  refine ⟨⟨?_, ?_, fun i hi => ?_⟩, by rw [hheader], hgeneration⟩
  · have hroot := h.root
    unfold rootValid at hroot ⊢
    rw [hheader, hgeometry]
    exact hroot
  · rw [hheader, hgeometry]
    exact h.inside
  · rw [hheader, hgeometry] at hi
    obtain ⟨hset, hheader', hgeneration'⟩ := hsame i hi
    have hsegment := h.segments i hi
    unfold segmentValid at hsegment ⊢
    rw [hset, hheader', hgeneration', hheader, hgeometry]
    exact hsegment

theorem runLength_congr (hgeometry : pool'.geometry = pool.geometry)
    (hsize : (pool'.headers r).objectSize = (pool.headers r).objectSize) :
    pool'.runLength r = pool.runLength r := by
  unfold runLength
  rw [hgeometry, hsize]

/-- A segment of an object that is there as it was. -/
theorem Kept.member (h : Kept pool pool' r) (hgeometry : pool'.geometry = pool.geometry)
    (hi : i < pool.runLength r) :
    ∃ r' i', Whole pool' r' ∧ i' < pool'.runLength r' ∧ r + i = r' + i' :=
  ⟨r, i, h.1, hi.trans_eq (runLength_congr hgeometry h.2.1).symm, rfl⟩

theorem inRun_iff : inRun start n k = true ↔ start ≤ k ∧ k < start + n := by
  simp [inRun]

/-! ### `Allocate` -/

/-- The run from `start` on is free. -/
structure Vacant (pool : LargeObjectPool) (start n : Nat) : Prop where
  inside : start + n ≤ pool.geometry.segmentCount
  free : ∀ k, start ≤ k → k < start + n → pool.isSegmentSet k = false

theorem Vacant.not_inRun (h : Vacant pool start n) (hset : pool.isSegmentSet k = true) :
    inRun start n k = false := by
  refine Bool.eq_false_iff.mpr fun hrun => ?_
  rw [inRun_iff] at hrun
  rw [h.free k hrun.1 hrun.2] at hset
  cases hset

/-- A call that changes free segments only. -/
theorem Vacant.whole (hvalid : pool.geometry.Valid) (h : Vacant pool start n)
    (hgeometry : pool'.geometry = pool.geometry)
    (hsame : ∀ k, inRun start n k = false → pool'.bitmap k = pool.bitmap k ∧
      pool'.headers k = pool.headers k ∧ pool'.generations k = pool.generations k)
    (hwhole : Whole pool r) : Kept pool pool' r := by
  refine hwhole.congr hvalid hgeometry fun i hi => ?_
  obtain ⟨hbit, hheader, hgeneration⟩ := hsame (r + i) (h.not_inRun (hwhole.set hi))
  refine ⟨?_, hheader, hgeneration⟩
  unfold isSegmentSet
  rw [hbit, hgeometry]

/-- The number of segments that a request needs. -/
abbrev pieces (pool : LargeObjectPool) (request : LargeObjectAllocationRequest) : Nat :=
  pool.geometry.segmentsFor request.objectSize

theorem placed_eq (h : inRun start (pool.pieces request) k = true) :
    (pool.placed request start).bitmap k = true ∧
      (pool.placed request start).generations k = pool.generations k + 1 ∧
      (pool.placed request start).headers k = pool.stamp request k (k - start) := by
  unfold placed
  simp [h]

theorem placed_same (h : inRun start (pool.pieces request) k = false) :
    (pool.placed request start).bitmap k = pool.bitmap k ∧
      (pool.placed request start).headers k = pool.headers k ∧
      (pool.placed request start).generations k = pool.generations k := by
  unfold placed
  simp [h]

theorem segmentsFor_pos {g : PoolGeometry} (hvalid : g.Valid) {size} (hsize : size ≠ 0) :
    0 < g.segmentsFor size := by
  have hpos := hvalid.segmentSize
  exact Nat.div_pos (by omega) hpos

/-- The header of the segment `k` at the place `i` of a run, with the generation of the segment. -/
def record (pool : LargeObjectPool) (request : LargeObjectAllocationRequest) (k i : Nat) :
    SlabHeader :=
  let header : SlabHeader := ⟨SlabHeader.kSlabHeaderMagic, SlabHeader.kSlabHeaderVersion,
    kLargeObjectClassId, pool.generations k, .allocating, pool.geometry.segmentSize,
    request.objectSize, request.typeId, 0, 0, request.ownerEpoch, request.leaseId, 0, i⟩
  { header with immutableHeaderCrc := header.computeImmutableHeaderCrc }

/-- The segment has got its header. -/
def Written (pool : LargeObjectPool) (request : LargeObjectAllocationRequest) (k i : Nat) : Prop :=
  ∃ st, st ≠ .free ∧ pool.headers k = { pool.record request k i with objectState := st }

theorem verify_record (pool : LargeObjectPool) (request : LargeObjectAllocationRequest) (k i : Nat)
    (st : ObjectState) :
    { pool.record request k i with objectState := st }.verifyImmutableHeader = true := by
  rw [SlabHeader.verifyImmutableHeader_objectState, SlabHeader.verifyImmutableHeader,
    Bool.and_eq_true, Bool.and_eq_true]
  exact ⟨⟨decide_eq_true rfl, decide_eq_true rfl⟩, decide_eq_true rfl⟩

section

variable (hvalid : pool.geometry.Valid) (hsize : request.objectSize ≠ 0)
  (hmax : request.objectSize ≤ pool.geometry.maxObjectSize)
include hvalid hsize hmax

/-- The segments that a call has claimed and given their headers are a whole object. -/
theorem whole_written (hinside : start + pool.pieces request ≤ pool.geometry.segmentCount)
    (hbits : ∀ j, j < pool.pieces request → pool.bitmap (start + j) = true)
    (hwritten : ∀ j, j < pool.pieces request → Written pool request (start + j) j) :
    Whole pool start ∧ (pool.headers start).objectSize = request.objectSize := by
  obtain ⟨st, hst, hheader⟩ := hwritten 0 (segmentsFor_pos hvalid hsize)
  rw [Nat.add_zero] at hheader
  refine ⟨⟨?_, ?_, fun i hi => ?_⟩, by rw [hheader]; rfl⟩
  · unfold rootValid
    rw [hheader]
    simp only [verify_record, Bool.true_and, Bool.and_eq_true, decide_eq_true_eq]
    exact ⟨⟨⟨⟨⟨rfl, rfl⟩, hsize⟩, hmax⟩, rfl⟩, hst⟩
  · rw [hheader]
    exact hinside
  · rw [hheader] at hi
    have hi : i < pool.pieces request := hi
    obtain ⟨st', hst', hheader'⟩ := hwritten i hi
    have hset : pool.isSegmentSet (start + i) = true := by
      unfold isSegmentSet
      rw [hbits i hi, Bool.and_true]
      exact decide_eq_true (by omega)
    unfold segmentValid
    rw [hset, hheader', hheader]
    simp only [verify_record, Bool.true_and, Bool.and_eq_true, decide_eq_true_eq]
    exact ⟨⟨⟨⟨⟨⟨rfl, rfl⟩, rfl⟩, rfl⟩, rfl⟩, rfl⟩, hst'⟩

theorem whole_placed (h : Vacant pool start (pool.pieces request)) :
    Whole (pool.placed request start) start ∧
      ((pool.placed request start).headers start).objectSize = request.objectSize := by
  have hrun : ∀ j, j < pool.pieces request → inRun start (pool.pieces request) (start + j) = true :=
    fun j hj => inRun_iff.mpr ⟨Nat.le_add_right start j, Nat.add_lt_add_left hj _⟩
  refine whole_written hvalid hsize hmax h.inside
    (fun j hj => (placed_eq (hrun j hj)).1) fun j hj => ⟨.allocated, nofun, ?_⟩
  obtain ⟨-, hgeneration, hheader⟩ := placed_eq (hrun j hj)
  rw [hheader, record, hgeneration, Nat.add_sub_cancel_left]
  rfl

end

section

variable (hvalid : pool.geometry.Valid) (hsettled : Settled pool)
include hvalid hsettled

theorem keeps_placed (hsize : request.objectSize ≠ 0) (hmax : request.objectSize ≤ pool.geometry.maxObjectSize)
    (h : Vacant pool start (pool.pieces request)) :
    Keeps (fun _ => False) pool (pool.placed request start) := by
  have hother : ∀ r, Whole pool r → Kept pool (pool.placed request start) r :=
    fun r hwhole => h.whole hvalid rfl (fun _ => placed_same) hwhole
  refine ⟨rfl, fun k => ?_, fun r hwhole _ => hother r hwhole, fun k hset => ?_⟩
  · cases hrun : inRun start (pool.pieces request) k with
    | true => rw [(placed_eq hrun).2.1]; omega
    | false => rw [(placed_same hrun).2.2]
  cases hrun : inRun start (pool.pieces request) k with
  | true =>
    rw [inRun_iff] at hrun
    obtain ⟨hnew, hobject⟩ := whole_placed hvalid hsize hmax h
    refine ⟨start, k - start, hnew, ?_, by omega⟩
    unfold runLength
    rw [hobject]
    change k - start < pool.pieces request
    omega
  | false =>
    have hset : pool.isSegmentSet k = true := by
      unfold isSegmentSet at hset ⊢
      rwa [(placed_same hrun).1] at hset
    obtain ⟨r, i, hwhole, hi, rfl⟩ := hsettled k hset
    exact (hother r hwhole).member rfl hi

theorem keeps_undone (h : Vacant pool start n) (hi : i < n) :
    Keeps (fun _ => False) pool (pool.undone start n i) := by
  have hsame : ∀ k, inRun start n k = false → (pool.undone start n i).bitmap k = pool.bitmap k ∧
      (pool.undone start n i).headers k = pool.headers k ∧
      (pool.undone start n i).generations k = pool.generations k := by
    intro k hrun
    have hrun' : inRun start i k = false := by
      rw [Bool.eq_false_iff, ne_eq, inRun_iff] at hrun ⊢
      omega
    have hne : k ≠ start + i := by
      rw [Bool.eq_false_iff, ne_eq, inRun_iff] at hrun
      omega
    unfold undone
    simp [hrun, hrun', hne]
  have hother : ∀ r, Whole pool r → Kept pool (pool.undone start n i) r :=
    fun r hwhole => h.whole hvalid rfl hsame hwhole
  refine ⟨rfl, fun k => ?_, fun r hwhole _ => hother r hwhole, fun k hset => ?_⟩
  · dsimp only [undone]
    split
    · omega
    split
    · rename_i heq
      rw [heq.2]
      decide
    · exact le_rfl
  · have hrun : inRun start n k = false := by
      refine Bool.eq_false_iff.mpr fun hrun => ?_
      simp [isSegmentSet, undone, hrun] at hset
    have hset : pool.isSegmentSet k = true := by
      unfold isSegmentSet at hset ⊢
      rwa [(hsame k hrun).1] at hset
    obtain ⟨r, j, hwhole, hj, rfl⟩ := hsettled k hset
    exact (hother r hwhole).member rfl hj

end

/-! ### `Publish`, `Retire` and `Reclaim` -/

theorem withState_header (st : ObjectState) : (pool.withState first st).headers k =
    if k = first then { pool.headers first with objectState := st } else pool.headers k :=
  Function.update_apply ..

/-- The headers differ in the state at most, and the state is not the free one. -/
theorem kept_withState (hst : st ≠ .free) (hwhole : Whole pool r) :
    Kept pool (pool.withState first st) r := by
  have hroot := hwhole.root
  have hsame : ∀ k, ((pool.withState first st).headers k).objectSize =
      (pool.headers k).objectSize ∧
        ((pool.withState first st).headers k).typeId = (pool.headers k).typeId := by
    intro k
    rw [withState_header]
    split
    · rename_i heq
      rw [heq]
      exact ⟨rfl, rfl⟩
    · exact ⟨rfl, rfl⟩
  obtain ⟨hsize, htype⟩ := hsame r
  refine ⟨⟨?_, ?_, fun i hi => ?_⟩, hsize, rfl⟩
  · unfold rootValid at hroot ⊢
    rw [withState_header]
    split
    · rename_i heq
      subst heq
      simp only [Bool.and_eq_true, decide_eq_true_eq,
        SlabHeader.verifyImmutableHeader_objectState] at hroot ⊢
      exact ⟨hroot.1, hst⟩
    · exact hroot
  · rw [hsize]
    exact hwhole.inside
  · rw [hsize] at hi
    have hsegment := hwhole.segments i hi
    unfold segmentValid at hsegment ⊢
    rw [hsize, htype, withState_header]
    split
    · rename_i heq
      rw [heq] at hsegment ⊢
      simp only [Bool.and_eq_true, decide_eq_true_eq,
        SlabHeader.verifyImmutableHeader_objectState] at hsegment ⊢
      exact ⟨hsegment.1, hst⟩
    · exact hsegment

theorem keeps_withState (hst : st ≠ .free) (hsettled : Settled pool) :
    Keeps (fun _ => False) pool (pool.withState first st) := by
  refine ⟨rfl, fun _ => le_rfl, fun r hwhole _ => kept_withState hst hwhole, fun k hset => ?_⟩
  obtain ⟨r, i, hwhole, hi, rfl⟩ := hsettled k hset
  exact (kept_withState hst hwhole).member rfl hi

theorem keeps_publish (hsettled : Settled pool) :
    Keeps (fun _ => False) pool (pool.publish handle).1 := by
  unfold publish
  split
  · exact .refl hsettled
  split
  · exact .refl hsettled
  split
  · exact keeps_withState nofun hsettled
  split <;> exact .refl hsettled

theorem keeps_retire (hsettled : Settled pool) :
    Keeps (fun _ => False) pool (pool.retire handle).1 := by
  unfold retire
  split
  · exact .refl hsettled
  split
  · exact .refl hsettled
  split
  · exact .refl hsettled
  split
  · exact .refl hsettled
  · exact keeps_withState nofun hsettled

/-- `ClearObjectForRecovery` fails and changes nothing, or it frees the object. -/
theorem clearObjectForRecovery_cases (hvalid : pool.geometry.Valid) (release : ShmHandle → Status)
    (first : Nat) (expected : ObjectState) :
    ((pool.clearObjectForRecovery release first expected).1 = pool ∧
      (pool.clearObjectForRecovery release first expected).2.ok = false) ∨
    (pool.isSegmentSet first = true ∧ Clearable pool first ∧
      pool.clearObjectForRecovery release first expected =
        (pool.freed (pool.wholeRun first), .success)) := by
  unfold clearObjectForRecovery
  split
  · exact .inl ⟨rfl, rfl⟩
  rename_i hset
  split
  · exact .inl ⟨rfl, rfl⟩
  rename_i hroot
  dsimp only
  split
  · exact .inl ⟨rfl, rfl⟩
  split
  · exact .inl ⟨rfl, rfl⟩
  rename_i hsegments
  have hset : pool.isSegmentSet first = true := by
    by_contra hnot
    exact hset (.inr (by simpa using hnot))
  have hroot : pool.rootClearable first = true := by
    by_contra hnot
    exact hroot (.inl (by simpa using hnot))
  have hclear : Clearable pool first := by
    refine ⟨hroot, by unfold runLength; omega, fun i hi => ?_⟩
    rw [Bool.not_eq_true, Bool.not_eq_false'] at hsegments
    exact all_eq_true.mp hsegments i (mem_range.mpr hi)
  rw [handleForRecovery_set hvalid hset]
  dsimp only
  split
  · rename_i hrelease
    exact .inl ⟨rfl, by simpa using hrelease⟩
  · exact .inr ⟨hset, hclear, clearRun_spec _⟩

theorem Settled.root (h : Settled pool) (hset : pool.isSegmentSet first = true)
    (hclear : Clearable pool first) : Whole pool first := by
  obtain ⟨r, i, hwhole, hi, rfl⟩ := h first hset
  have hroot := hclear.root
  simp only [rootClearable, Bool.and_eq_true, decide_eq_true_eq] at hroot
  have hrole := hroot.2
  rw [hwhole.role hi] at hrole
  subst hrole
  exact hwhole

theorem resolveLocked_handle (h : pool.resolveLocked handle = .ok first) :
    handle = pool.handleOf first := by
  obtain ⟨offset, generation, regionId⟩ := handle
  have hgeneration := (resolveLocked_ok h).2.2
  unfold resolveLocked at h
  simp only [Result.unless_eq_ok] at h
  obtain ⟨-, hregion, haligned, -, -, -, h⟩ := h
  cases h
  obtain ⟨hregion, hoffset⟩ := not_or.mp hregion
  have hdiv := Nat.div_add_mod' (offset - pool.geometry.headersRegionOffset) kSlabHeaderSize
  rw [handleOf, PoolGeometry.headerOffset, hgeneration, not_not.mp hregion]
  congr 1
  omega

section

variable (hvalid : pool.geometry.Valid) (hsettled : Settled pool)
include hvalid hsettled

theorem keeps_freed (hfirst : Whole pool first) : Keeps (fun r => r = first) pool (pool.freed (pool.wholeRun first)) := by
  have hother : ∀ r, Whole pool r → r ≠ first → Kept pool (pool.freed (pool.wholeRun first)) r := by
    intro r hwhole hne
    have hrun : ∀ i, i < pool.runLength r → pool.wholeRun first (r + i) = false := by
      intro i hi
      refine Bool.eq_false_iff.mpr fun hrun => hne ?_
      exact (hfirst.clearable.eq_root hwhole hi hrun).symm
    have hfirst : pool.wholeRun first r = false := hrun 0 (hwhole.clearable.length_pos hvalid)
    refine ⟨(whole_freed hfirst hrun).mpr hwhole, ?_, rfl⟩
    rw [headers_freed hfirst]
  refine ⟨rfl, fun _ => le_rfl, hother, fun k hset => ?_⟩
  rw [isSegmentSet_freed, Bool.and_eq_true] at hset
  obtain ⟨r, i, hwhole, hi, rfl⟩ := hsettled k hset.1
  have hne : r ≠ first := by
    rintro rfl
    rw [wholeRun_add (hwhole.set hi) hi] at hset
    exact Bool.noConfusion hset.2
  exact (hother r hwhole hne).member rfl hi

theorem keeps_clearObject (release : ShmHandle → Status) (first : Nat) (expected : ObjectState) :
    Keeps (fun r => r = first ∧ (pool.clearObjectForRecovery release first expected).2.ok = true)
      pool (pool.clearObjectForRecovery release first expected).1 := by
  rcases clearObjectForRecovery_cases hvalid release first expected with
    ⟨hsame, -⟩ | ⟨hset, hclear, hfreed⟩
  · rw [hsame]
    exact (Keeps.refl hsettled).mono fun _ => False.elim
  · rw [hfreed]
    exact (keeps_freed hvalid hsettled (hsettled.root hset hclear)).mono fun r heq => ⟨heq, rfl⟩

theorem keeps_reclaim (unpin release : ShmHandle → Status) (handle : ShmHandle) :
    Keeps (fun r => handle = pool.handleOf r ∧ (pool.reclaim unpin release handle).2.ok = true) pool
      (pool.reclaim unpin release handle).1 := by
  have hnone : ∀ gone, Keeps gone pool pool :=
    fun gone => (Keeps.refl hsettled).mono fun _ => False.elim
  unfold reclaim
  split
  · exact hnone _
  rename_i first hresolve
  split
  · exact hnone _
  split
  · exact hnone _
  refine (keeps_clearObject hvalid hsettled release first (pool.state first)).mono ?_
  rintro r ⟨rfl, hok⟩
  exact ⟨resolveLocked_handle hresolve, hok⟩

end

/-! ### The calls and their stores -/

theorem ext_words (hgeometry : pool.geometry = pool'.geometry)
    (h : ∀ k, pool.words k = pool'.words k) : pool = pool' := by
  obtain ⟨geometry, bitmap, generations, headers⟩ := pool
  obtain ⟨geometry', bitmap', generations', headers'⟩ := pool'
  cases hgeometry
  have hbit : bitmap = bitmap' := funext fun k => congrArg bit (h k)
  have hgeneration : generations = generations' :=
    funext fun k => congrArg generation (h k)
  have hheader : headers = headers' := funext fun k => congrArg header (h k)
  rw [hbit, hgeneration, hheader]

theorem words_store (st : PoolStore) :
    (pool.store st).words k = if st.segment = k then (pool.words k).store st else pool.words k := by
  by_cases hk : st.segment = k
  · rw [if_pos hk]
    subst hk
    cases st <;> simp [store, words, SegmentWords.store, PoolStore.segment]
  · rw [if_neg hk]
    have hne : k ≠ st.segment := Ne.symm hk
    cases st <;> simp_all [store, words, PoolStore.segment]

variable (stores : List PoolStore)

/-- The words of a segment see the stores to that segment only. -/
theorem words_stored : (pool.stored stores).words k =
    (stores.filter fun st => st.segment = k).foldl SegmentWords.store (pool.words k) := by
  induction stores generalizing pool with
  | nil => rfl
  | cons st rest ih =>
    change ((pool.store st).stored rest).words k = _
    rw [ih, words_store, filter_cons]
    by_cases hk : st.segment = k <;> simp [hk]

theorem geometry_stored : (pool.stored stores).geometry = pool.geometry := by
  induction stores generalizing pool with
  | nil => rfl
  | cons st rest ih =>
    change ((pool.store st).stored rest).geometry = _
    rw [ih]
    cases st <;> rfl

/-- The stores to one segment of those that go over the places of a run. -/
theorem filter_places (places : List Nat) (hnodup : places.Nodup) (f : Nat → List PoolStore)
    (hf : ∀ i, ∀ st ∈ f i, st.segment = start + i) :
    (places.flatMap f).filter (fun st => st.segment = k) =
      if start ≤ k ∧ k - start ∈ places then f (k - start) else [] := by
  induction places with
  | nil => simp
  | cons i rest ih =>
    obtain ⟨hi, hrest⟩ := nodup_cons.mp hnodup
    rw [flatMap_cons, filter_append, ih hrest]
    by_cases hk : k = start + i
    · subst hk
      have hall : (f i).filter (fun st => st.segment = start + i) = f i :=
        filter_eq_self.mpr fun st hst => decide_eq_true (hf i st hst)
      simp [hall, hi]
    have hnone : (f i).filter (fun st => st.segment = k) = [] :=
      filter_eq_nil_iff.mpr fun st hst => by
        rw [hf i st hst]
        simpa using Ne.symm hk
    have hne : start ≤ k → k - start ≠ i := by omega
    rw [hnone, nil_append]
    refine if_congr ?_ rfl rfl
    rw [mem_cons]
    constructor
    · exact fun h => ⟨h.1, .inr h.2⟩
    · exact fun h => ⟨h.1, h.2.resolve_left (hne h.1)⟩

section

variable (start n k : Nat) (f : Nat → List PoolStore) (hf : ∀ i, ∀ st ∈ f i, st.segment = start + i)
include hf

theorem filter_perm {places : List Nat} (hplaces : places.Perm (List.range n)) :
    (places.flatMap f).filter (fun st => st.segment = k) =
      if inRun start n k then f (k - start) else [] := by
  rw [filter_places _ (hplaces.nodup_iff.mpr nodup_range) f hf]
  refine if_congr ?_ rfl rfl
  rw [inRun_iff, hplaces.mem_iff, mem_range]
  omega

theorem filter_range : ((List.range n).flatMap f).filter (fun st => st.segment = k) =
    if inRun start n k then f (k - start) else [] :=
  filter_perm start n k f hf (.refl _)

theorem filter_range_reverse :
    ((List.range n).reverse.flatMap f).filter (fun st => st.segment = k) =
      if inRun start n k then f (k - start) else [] :=
  filter_perm start n k f hf (reverse_perm _)

end

/-- The stores of `Allocate` leave the pool with the object placed. -/
theorem stored_allocateStores :
    pool.stored (pool.allocateStores request start) = pool.placed request start := by
  refine ext_words (geometry_stored _) fun k => ?_
  rw [words_stored]
  unfold allocateStores
  simp only [map_eq_flatMap, filter_append]
  rw [filter_range start _ k _ (by simp [PoolStore.segment]),
    filter_range start _ k _ (by simp [PoolStore.segment]),
    filter_range start _ k _ (by simp [PoolStore.segment]), filter_range start
    _ k _ (by simp [headerStores, PoolStore.segment]), filter_range_reverse start _ k _ (by simp
    [PoolStore.segment])]
  cases hrun : inRun start (pool.pieces request) k with
  | false =>
    obtain ⟨hbit, hheader, hgeneration⟩ := placed_same hrun
    simp [words, hbit, hheader, hgeneration]
  | true =>
    obtain ⟨hbit, hgeneration, hheader⟩ := placed_eq hrun
    have hk : start + (k - start) = k := by
      have := (inRun_iff.mp hrun).1
      omega
    unfold words
    rw [hbit, hheader, hgeneration]
    simp [headerStores, hk, stamp]
    rfl

/-- The stores of `Reclaim` leave the pool with the segments of the object free. -/
theorem stored_reclaimStores (h : Whole pool first) :
    pool.stored (pool.reclaimStores first) = pool.freed (pool.wholeRun first) := by
  refine ext_words (geometry_stored _) fun k => ?_
  have hwhole : pool.wholeRun first k = inRun first (pool.runLength first) k := by
    rw [Bool.eq_iff_iff, wholeRun_iff, inRun_iff]
    constructor
    · rintro ⟨-, i, hi, rfl⟩
      omega
    rintro ⟨hle, hlt⟩
    obtain ⟨i, rfl⟩ := Nat.exists_eq_add_of_le hle
    exact ⟨h.set (by omega), i, by omega, rfl⟩
  rw [words_stored]
  unfold reclaimStores
  rw [filter_range_reverse first _ k _ (by simp [PoolStore.segment])]
  unfold freed words
  dsimp only
  rw [hwhole]
  cases inRun first (pool.runLength first) k <;> simp [SegmentWords.store]

/-- An object of one segment, and an `Allocate` of a second one that has stopped before its last
store. -/
def stoppedPair : LargeObjectPool :=
  let pool := (fresh twoSegments).stored ((fresh twoSegments).allocateStores (ownedRequest 64) 0)
  pool.stored ((pool.allocateStores (ownedRequest 40) 1).take 16)

theorem stored_reclaimStores_pair : Whole stoppedPair 0 ∧ stoppedPair.stored
    (stoppedPair.reclaimStores 0) = stoppedPair.freed (stoppedPair.wholeRun 0) :=
  have h := by constructor <;> decide +kernel
  ⟨h, stored_reclaimStores h⟩

/-! ### `Allocate` as a whole -/

theorem findExtent_vacant (hvalid : pool.geometry.Valid) {base alignment} (hn : 0 < n)
    (h : pool.findExtent base n alignment = .ok start) : Vacant pool start n := by
  obtain ⟨a, b, hrun, ⟨hle, hend, -⟩, -⟩ := findExtent_ok hvalid.count hn h
  have hinside := hrun.inside
  exact ⟨by omega, fun k hk hlt => hrun.free k (by omega) (by omega)⟩

theorem Keeps.trans (h : Keeps (fun _ => False) pool pool') (h' : Keeps gone pool' pool'')
    (hgone : ∀ r, Whole pool r → ¬ gone r) : Keeps (fun _ => False) pool pool'' := by
  refine ⟨h'.geometry.trans h.geometry, fun k => (h.generations k).trans (h'.generations k),
    fun r hwhole _ => ?_, h'.settled⟩
  obtain ⟨hwhole', hsize, hgeneration⟩ := h.whole r hwhole not_false
  obtain ⟨hwhole'', hsize', hgeneration'⟩ := h'.whole r hwhole' (hgone r hwhole)
  exact ⟨hwhole'', hsize'.trans hsize, hgeneration'.trans hgeneration⟩

/-- The part of `Allocate` behind the search keeps the objects that are there, and a handle that
it returns is the one of a new object. -/
theorem keeps_allocateAt (hvalid : pool.geometry.Valid) (hsettled : Settled pool)
    (hsize : request.objectSize ≠ 0) (hmax : request.objectSize ≤ pool.geometry.maxObjectSize)
    (h : Vacant pool start (pool.pieces request)) (draining : Bool) (input : AllocateInput) :
    Keeps (fun _ => False) pool (pool.allocateAt draining input request start).1 ∧
      ∀ handle, (pool.allocateAt draining input request start).2.2 = .ok handle →
        (pool.allocateAt draining input request start).1 = pool.placed request start ∧
        handle = (pool.placed request start).handleOf start := by
  have hplaced := keeps_placed hvalid hsettled hsize hmax h
  have hpos : 0 < pool.pieces request := segmentsFor_pos hvalid hsize
  unfold allocateAt
  dsimp only
  split
  · rename_i i hexhausted
    have hi := mem_range.mp (mem_of_find?_eq_some hexhausted)
    exact ⟨keeps_undone hvalid hsettled h hi, nofun⟩
  split
  · exact ⟨hplaced, nofun⟩
  split
  · refine ⟨hplaced, fun handle hhandle => ⟨rfl, ?_⟩⟩
    cases hhandle
    rfl
  refine ⟨?_, nofun⟩
  -- The object that the rollback takes away is not one that was there before.
  have hvalid' : (pool.placed request start).geometry.Valid := hvalid
  refine hplaced.trans (keeps_clearObject hvalid' hplaced.settled _ _ _) ?_
  rintro r hwhole ⟨rfl, -⟩
  have hset := hwhole.set (i := 0) (hwhole.clearable.length_pos hvalid)
  rw [h.free (r + 0) le_rfl (by omega)] at hset
  cases hset

/-- The checks at the start of `Allocate` let the request through. -/
structure Accepted (pool : LargeObjectPool) (draining : Bool) (input : AllocateInput)
    (request : LargeObjectAllocationRequest) : Prop where
  size : request.objectSize ≠ 0
  bound : request.objectSize ≤ pool.geometry.maxObjectSize
  purpose : input.purposeCheck.ok = true
  alignment : request.alignment ≠ 0 ∧ request.alignment &&& (request.alignment - 1) = 0
  provider : (input.providerCheck request.objectSize).ok = true
  open_ : draining = false

/-- A place in a free run that is as short as any with room for the object. -/
def BestPlace (pool : LargeObjectPool) (base alignment needed start : Nat) : Prop :=
  ∃ a b, FreeRun pool a b ∧ pool.Starts base alignment needed a b start ∧
    ∀ a' b' k, FreeRun pool a' b' → pool.Starts base alignment needed a' b' k → b - a ≤ b' - a'

/-- No row of enough free segments starts at an aligned place. -/
def NoRoom (pool : LargeObjectPool) (base alignment needed : Nat) : Prop :=
  ∀ k, pool.Aligned base alignment k → k + needed ≤ pool.geometry.segmentCount →
    ∃ j, k ≤ j ∧ j < k + needed ∧ pool.isSegmentSet j = true

theorem purposeCheck_code (input : AllocateInput) :
    input.purposeCheck.code ≠ .resourceExhausted := by
  unfold AllocateInput.purposeCheck
  split
  · nofun
  split <;> nofun

theorem providerCheck_code (input : AllocateInput) (objectSize : Nat) :
    (input.providerCheck objectSize).code ≠ .resourceExhausted := by
  unfold AllocateInput.providerCheck
  split
  · split <;> nofun
  split
  · nofun
  split
  · nofun
  split <;> nofun

/-- An `Allocate` that is let through goes on behind the search, or it finds no room. -/
theorem allocate_accepted (hvalid : pool.geometry.Valid)
    (h : Accepted pool draining input request) :
    (∃ start, BestPlace pool input.payloadBase request.alignment
        (pool.geometry.segmentsFor request.objectSize) start ∧
      pool.findExtent input.payloadBase (pool.geometry.segmentsFor request.objectSize)
        request.alignment = .ok start ∧
      pool.allocate draining input request = pool.allocateAt draining input request start) ∨
    NoRoom pool input.payloadBase request.alignment (pool.geometry.segmentsFor request.objectSize) ∧
      ∃ status, status.code = .resourceExhausted ∧
        pool.allocate draining input request = (pool, draining, .error status) := by
  have hpos := segmentsFor_pos hvalid h.size
  have hbound := h.bound
  unfold allocate
  rw [if_neg (not_or.mpr ⟨h.size, by omega⟩), if_neg (by simp [h.purpose]),
    if_neg (not_or.mpr ⟨h.alignment.1, not_not.mpr h.alignment.2⟩), if_neg (by simp [h.provider]),
    if_neg (by simp [h.open_])]
  cases hextent : pool.findExtent input.payloadBase
      (pool.geometry.segmentsFor request.objectSize) request.alignment with
  | ok start => exact .inl ⟨start, findExtent_ok hvalid.count hpos hextent, rfl, rfl⟩
  | error status =>
    refine .inr ⟨fun k haligned hinside =>
      findExtent_error hvalid.count hpos hextent haligned hinside, status, ?_, rfl⟩
    unfold findExtent at hextent
    dsimp only at hextent
    split at hextent
    · cases hextent
      rfl
    · cases hextent

/-- An `Allocate` that is not let through fails with another code. -/
theorem allocate_rejected (h : ¬ Accepted pool draining input request) :
    ∃ status, (pool.allocate draining input request).2.2 = .error status ∧
      status.code ≠ .resourceExhausted := by
  unfold allocate
  split
  · exact ⟨_, rfl, nofun⟩
  rename_i hbounds
  split
  · exact ⟨_, rfl, purposeCheck_code input⟩
  rename_i hpurpose
  split
  · exact ⟨_, rfl, nofun⟩
  rename_i halignment
  split
  · exact ⟨_, rfl, providerCheck_code input _⟩
  rename_i hprovider
  split
  · exact ⟨_, rfl, nofun⟩
  rename_i hopen
  obtain ⟨hsize, hmax⟩ := not_or.mp hbounds
  obtain ⟨hzero, hpower⟩ := not_or.mp halignment
  exact (h ⟨hsize, Nat.not_lt.mp hmax, by simpa using hpurpose, ⟨hzero, not_not.mp hpower⟩,
    by simpa using hprovider, by simpa using hopen⟩).elim

/-- The end of an `Allocate` behind the search that has found `start`: a generation is used up,
the object is there but its registration fails, or the handle is returned. -/
def Ends (pool : LargeObjectPool) (input : AllocateInput) (request : LargeObjectAllocationRequest)
    (start : Nat) (result : Result ShmHandle) : Prop :=
  let placed := pool.placed request start
  let rollback := placed.clearObjectForRecovery input.release start .allocated
  ((∃ i, i < pool.geometry.segmentsFor request.objectSize ∧
      kGenerationDraining - 1 ≤ pool.generations (start + i)) ∧
    result = .error (.error .resourceExhausted
      "segment generation exhausted; pool marked DRAINING")) ∨
  (input.registered = true ∧ (input.registration (placed.handleOf start)).ok = false ∧
    result = .error (if rollback.2.ok then input.registration (placed.handleOf start)
      else rollback.2)) ∨
  result = .ok (placed.handleOf start)

theorem allocateAt_outcome (hvalid : pool.geometry.Valid) (draining : Bool) (input : AllocateInput)
    (hstart : start < pool.geometry.segmentCount) :
    Ends pool input request start (pool.allocateAt draining input request start).2.2 := by
  unfold allocateAt Ends
  dsimp only
  cases hexhausted : pool.exhaustedPlace start (pool.geometry.segmentsFor request.objectSize) with
  | some i =>
    have hi := mem_range.mp (mem_of_find?_eq_some hexhausted)
    have hused := find?_some hexhausted
    exact .inl ⟨⟨i, hi, by simpa using hused⟩, rfl⟩
  | none =>
    refine .inr ?_
    have hoffset : ((pool.placed request start).handleOf start).offset < 2 ^ 64 :=
      headerOffset_lt hvalid hstart
    rw [if_neg (Nat.not_le.mpr hoffset)]
    by_cases hok : input.registered = false ∨
        (input.registration ((pool.placed request start).handleOf start)).ok = true
    · rw [if_pos (by simpa using hok)]
      exact .inr rfl
    · rw [if_neg (by simpa using hok)]
      obtain ⟨hregistered, hfailed⟩ := not_or.mp hok
      exact .inl ⟨by simpa using hregistered, by simpa using hfailed, rfl⟩

/-- An `Allocate` that returns a handle has placed the object where the search found room. -/
structure Places (pool : LargeObjectPool) (input : AllocateInput)
    (request : LargeObjectAllocationRequest) (pool' : LargeObjectPool) (handle : ShmHandle)
    (start : Nat) : Prop where
  size : request.objectSize ≠ 0
  bound : request.objectSize ≤ pool.geometry.maxObjectSize
  extent : pool.findExtent input.payloadBase (pool.geometry.segmentsFor request.objectSize)
    request.alignment = .ok start
  placed : pool' = pool.placed request start
  handle : handle = (pool.placed request start).handleOf start

theorem Places.vacant (hvalid : pool.geometry.Valid)
    (h : Places pool input request pool' handle start) : Vacant pool start (pool.pieces request) :=
  findExtent_vacant hvalid (segmentsFor_pos hvalid h.size) h.extent

theorem keeps_allocate (hvalid : pool.geometry.Valid) (hsettled : Settled pool) (draining : Bool)
    (input : AllocateInput) (request : LargeObjectAllocationRequest) :
    Keeps (fun _ => False) pool (pool.allocate draining input request).1 ∧
      ∀ handle, (pool.allocate draining input request).2.2 = .ok handle →
        ∃ start, Places pool input request (pool.allocate draining input request).1 handle start := by
  have hsame := Keeps.refl hsettled
  unfold allocate
  split
  · exact ⟨hsame, nofun⟩
  rename_i hbounds
  obtain ⟨hsize, hmax⟩ := not_or.mp hbounds
  have hmax := Nat.not_lt.mp hmax
  split
  · exact ⟨hsame, nofun⟩
  split
  · exact ⟨hsame, nofun⟩
  split
  · exact ⟨hsame, nofun⟩
  split
  · exact ⟨hsame, nofun⟩
  split
  · exact ⟨hsame, nofun⟩
  rename_i start hextent
  have hvacant := findExtent_vacant hvalid (segmentsFor_pos hvalid hsize) hextent
  obtain ⟨hkeeps, hnew⟩ := keeps_allocateAt hvalid hsettled hsize hmax hvacant draining input
  refine ⟨hkeeps, fun handle hhandle => ?_⟩
  obtain ⟨hplaced, hhandle⟩ := hnew handle hhandle
  exact ⟨start, hsize, hmax, hextent, hplaced, hhandle⟩

end LargeObjectPool

open LargeObjectPool

/-! ### Histories -/

/-- A call of a user of the pool, with what it is told by the parts that are not modelled. -/
inductive PoolCall where
  | allocate (input : AllocateInput) (request : LargeObjectAllocationRequest)
  | publish (handle : ShmHandle)
  | retire (handle : ShmHandle)
  | reclaim (unpin release : ShmHandle → Status) (handle : ShmHandle)

/-- The pool, its draining mark, the objects that have been allocated and not reclaimed, and all
handles that have been returned. -/
structure LargePoolHistory where
  pool : LargeObjectPool
  draining : Bool
  live : List (ShmHandle × LargeObjectAllocationRequest)
  returned : List ShmHandle

namespace LargePoolHistory

def create (geometry : PoolGeometry) : LargePoolHistory := ⟨fresh geometry, false, [], []⟩

def perform (s : LargePoolHistory) : PoolCall → LargePoolHistory
  | .allocate input request =>
    let result := s.pool.allocate s.draining input request
    match result.2.2 with
    | .ok handle => ⟨result.1, result.2.1, (handle, request) :: s.live, handle :: s.returned⟩
    | .error _ => { s with pool := result.1, draining := result.2.1 }
  | .publish handle => { s with pool := (s.pool.publish handle).1 }
  | .retire handle => { s with pool := (s.pool.retire handle).1 }
  | .reclaim unpin release handle =>
    let result := s.pool.reclaim unpin release handle
    { s with
      pool := result.1
      live := if result.2.ok then s.live.filter fun o => o.1 ≠ handle else s.live }

def run (s : LargePoolHistory) (calls : List PoolCall) : LargePoolHistory :=
  calls.foldl perform s

structure Inv (s : LargePoolHistory) : Prop where
  valid : s.pool.geometry.Valid
  settled : Settled s.pool
  /-- A live object is whole, and its handle names it. -/
  live : ∀ o ∈ s.live, ∃ r, Whole s.pool r ∧ o.1 = s.pool.handleOf r ∧
    (s.pool.headers r).objectSize = o.2.objectSize
  /-- The generation of a returned handle has been given to its segment. -/
  used : ∀ handle ∈ s.returned, ∃ r, handle.offset = s.pool.geometry.headerOffset r ∧
    handle.generation ≤ s.pool.generations r
  fresh : s.returned.Nodup
  listed : (s.live.map Prod.fst).Sublist s.returned

variable {s : LargePoolHistory} {pool : LargeObjectPool} {gone : Nat → Prop}

/-- A call that keeps the live objects. -/
theorem Inv.keeps (h : Inv s) {live}
    (draining : Bool) (hkeeps : Keeps gone s.pool pool) (hsub : live.Sublist s.live)
    (hlive : ∀ o ∈ live, ∀ r, o.1 = s.pool.handleOf r → ¬ gone r) :
    Inv ⟨pool, draining, live, s.returned⟩ := by
  refine ⟨hkeeps.geometry.symm ▸ h.valid, hkeeps.settled, fun o ho => ?_, fun handle hmem => ?_,
    h.fresh, (hsub.map _).trans h.listed⟩
  · obtain ⟨r, hwhole, hhandle, hsize⟩ := h.live o (hsub.subset ho)
    obtain ⟨hwhole', hsize', hgeneration⟩ := hkeeps.whole r hwhole (hlive o ho r hhandle)
    refine ⟨r, hwhole', ?_, hsize'.trans hsize⟩
    rw [hhandle, handleOf, handleOf, hkeeps.geometry, hgeneration]
  · obtain ⟨r, hoffset, hle⟩ := h.used handle hmem
    refine ⟨r, ?_, hle.trans (hkeeps.generations r)⟩
    rw [hkeeps.geometry]
    exact hoffset

theorem headerOffset_inj {g : PoolGeometry} {a b} (h : g.headerOffset a = g.headerOffset b) :
    a = b := by
  unfold PoolGeometry.headerOffset kSlabHeaderSize at h
  omega

/-- The generation of a new handle has not been given to its segment before. -/
theorem Inv.new_handle (h : Inv s) {input : AllocateInput} {request handle start} (hplaces : Places s.pool input request pool handle start) :
    handle ∉ s.returned := by
  intro hmem
  obtain ⟨r, hoffset, hle⟩ := h.used handle hmem
  have hpos : 0 < s.pool.pieces request := segmentsFor_pos h.valid hplaces.size
  rw [hplaces.handle] at hoffset hle
  obtain rfl : start = r := headerOffset_inj hoffset
  have hgeneration : (s.pool.placed request start).generations start =
      s.pool.generations start + 1 := (placed_eq (inRun_iff.mpr ⟨le_rfl, by omega⟩)).2.1
  change (s.pool.placed request start).generations start ≤ s.pool.generations start at hle
  omega

theorem Inv.allocate (h : Inv s) (input : AllocateInput) (request : LargeObjectAllocationRequest) :
    Inv (s.perform (.allocate input request)) := by
  obtain ⟨hkeeps, hnew⟩ := keeps_allocate h.valid h.settled s.draining input request
  have hrest := h.keeps (s.pool.allocate s.draining input request).2.1 hkeeps
    (List.Sublist.refl _) fun _ _ _ _ => not_false
  simp only [perform]
  split
  · rename_i handle hok
    obtain ⟨start, hplaces⟩ := hnew handle hok
    obtain ⟨hwhole, hsize⟩ := whole_placed h.valid hplaces.size hplaces.bound
      (hplaces.vacant h.valid)
    refine ⟨hrest.valid, hrest.settled, fun o ho => ?_, fun handle' hmem => ?_,
      nodup_cons.mpr ⟨h.new_handle hplaces, h.fresh⟩, h.listed.cons_cons handle⟩
    · rcases mem_cons.mp ho with rfl | ho
      · refine ⟨start, ?_⟩
        rw [hplaces.placed]
        exact ⟨hwhole, hplaces.handle, hsize⟩
      · exact hrest.live o ho
    · rcases mem_cons.mp hmem with rfl | hmem
      · refine ⟨start, ?_⟩
        rw [hplaces.placed, hplaces.handle]
        exact ⟨rfl, le_rfl⟩
      · exact hrest.used handle' hmem
  · exact hrest

theorem Inv.reclaim (h : Inv s) (unpin release : ShmHandle → Status) (handle : ShmHandle) :
    Inv (s.perform (.reclaim unpin release handle)) := by
  have hkeeps := keeps_reclaim h.valid h.settled unpin release handle
  simp only [perform]
  cases hok : (s.pool.reclaim unpin release handle).2.ok with
  | false =>
    refine h.keeps _ hkeeps (List.Sublist.refl _) fun o _ r _ hgone => ?_
    rw [hok] at hgone
    exact Bool.noConfusion hgone.2
  | true =>
    refine h.keeps _ hkeeps filter_sublist fun o ho r hhandle hgone => ?_
    have hne := (mem_filter.mp ho).2
    rw [hhandle, ← hgone.1] at hne
    simp at hne

theorem Inv.perform (h : Inv s) (call : PoolCall) : Inv (s.perform call) := by
  cases call with
  | allocate input request => exact h.allocate input request
  | publish handle =>
    exact h.keeps _ (keeps_publish h.settled) (List.Sublist.refl _) fun _ _ _ _ => not_false
  | retire handle =>
    exact h.keeps _ (keeps_retire h.settled) (List.Sublist.refl _) fun _ _ _ _ => not_false
  | reclaim unpin release handle => exact h.reclaim unpin release handle

theorem Inv.run (h : Inv s) (calls : List PoolCall) : Inv (s.run calls) := by
  induction calls generalizing s with
  | nil => exact h
  | cons call rest ih => exact ih (h.perform call)

theorem Inv.create {geometry} (hvalid : geometry.Valid) :
    Inv (LargePoolHistory.create geometry) := by
  refine ⟨hvalid, fun k hset => ?_, nofun, nofun, nodup_nil, .slnil⟩
  simp [LargePoolHistory.create, LargeObjectPool.fresh, isSegmentSet] at hset

end LargePoolHistory

end Mino.Shm
