import Mino.Shm.LargePoolHistory

/-! # Concurrent calls of `Allocate` on the large object pool

Each call claims the bits of its run one by one, and what it writes afterwards goes to claimed
segments only. So the claims of two calls are always apart, and a call that has returned leaves a
whole object. -/

namespace Mino.Shm

open Function

/-- Where a call of `Allocate` is. `start` is the first segment of the run that the search has come
up with. -/
inductive ExtentPhase where
  | search
  /-- The claim of the bit at the place `i`. -/
  | claim (start i : Nat)
  /-- The claim was lost at the place `claimed`, and the bits from `j` on are still to be cleared. -/
  | undo (start j claimed : Nat)
  | mark (start i : Nat)
  | load (start i : Nat)
  /-- The exchange of the generation that has been read. -/
  | exchange (start i observed : Nat)
  | giveUp (start j : Nat)
  | giveUpBit (start j : Nat)
  | header (start i : Nat)
  /-- The state of the last of the `i` segments that are left. -/
  | settle (start i : Nat)
  /-- The object is there; `PrepareRegistration` is next. -/
  | register (start : Nat)
  /-- The registration has failed, and the last of the `i` segments that are left is to be cleared. -/
  | rollback (start i : Nat)
  | rollbackState (start i : Nat)
  | rollbackBit (start i : Nat)
  /-- `ReleaseRegistration` has failed as well; the segments stay claimed. -/
  | stranded (start : Nat)
  | returned (start : Nat)
  | failed
  deriving DecidableEq, Repr

namespace LargeObjectPool

variable {pool pool' : LargeObjectPool} {request : LargeObjectAllocationRequest}
  {phase : ExtentPhase} {choice start i j k n : Nat}

def withBit (pool : LargeObjectPool) (k : Nat) (value : Bool) : LargeObjectPool :=
  { pool with bitmap := update pool.bitmap k value }

def withGeneration (pool : LargeObjectPool) (k value : Nat) : LargeObjectPool :=
  { pool with generations := update pool.generations k value }

def withRecord (pool : LargeObjectPool) (request : LargeObjectAllocationRequest) (k i : Nat) :
    LargeObjectPool :=
  { pool with headers := update pool.headers k (pool.record request k i) }

/-- One step of a call: one access to a word of the pool, or the header of a segment, which nobody
else reads or writes while the call has the claim. The search reads the bits one after another
while other calls change them, so that its outcome can be any run inside the pool (`choice`), or
none. The outcome of `PrepareRegistration` is a choice too: 0 if it succeeds or the pool is not a
registered one, 1 if it fails. The checks of `ClearObjectForRecovery` then read segments of the call
only, which hold what it has written; a choice above 1 is a failure of its `ReleaseRegistration`. -/
def advance (pool : LargeObjectPool) (request : LargeObjectAllocationRequest) (choice : Nat) :
    ExtentPhase → LargeObjectPool × ExtentPhase
  | .search =>
    if choice + pool.geometry.segmentsFor request.objectSize ≤ pool.geometry.segmentCount then
      (pool, .claim choice 0)
    else (pool, .failed)
  | .claim start i =>
    if i < pool.geometry.segmentsFor request.objectSize then
      if pool.bitmap (start + i) then (pool, .undo start 0 i)
      else (pool.withBit (start + i) true, .claim start (i + 1))
    else (pool, .mark start 0)
  | .undo start j claimed =>
    if j < claimed then (pool.withBit (start + j) false, .undo start (j + 1) claimed)
    else (pool, .search)
  | .mark start i =>
    if i < pool.geometry.segmentsFor request.objectSize then
      (pool.withState (start + i) .allocating, .mark start (i + 1))
    else (pool, .load start 0)
  | .load start i =>
    if i < pool.geometry.segmentsFor request.objectSize then
      (pool, .exchange start i (pool.generations (start + i)))
    else (pool, .header start 0)
  | .exchange start i observed =>
    if observed ≥ kGenerationDraining - 1 then
      (if observed = kGenerationDraining - 1 ∧ pool.generations (start + i) = observed then
        pool.withGeneration (start + i) kGenerationDraining else pool, .giveUp start 0)
    else if pool.generations (start + i) = observed then
      (pool.withGeneration (start + i) (observed + 1), .load start (i + 1))
    else (pool, .giveUp start 0)
  | .giveUp start j =>
    if j < pool.geometry.segmentsFor request.objectSize then
      (pool.withState (start + j) .free, .giveUpBit start j)
    else (pool, .failed)
  | .giveUpBit start j => (pool.withBit (start + j) false, .giveUp start (j + 1))
  | .header start i =>
    if i < pool.geometry.segmentsFor request.objectSize then
      (pool.withRecord request (start + i) i, .header start (i + 1))
    else (pool, .settle start (pool.geometry.segmentsFor request.objectSize))
  | .settle start 0 => (pool, .register start)
  | .settle start (i + 1) => (pool.withState (start + i) .allocated, .settle start i)
  | .register start =>
    if choice = 0 then (pool, .returned start)
    else if choice = 1 then (pool, .rollback start (pool.geometry.segmentsFor request.objectSize))
    else (pool, .stranded start)
  | .rollback _ 0 => (pool, .failed)
  | .rollback start (i + 1) => (pool.withState (start + i) .reclaiming, .rollbackState start i)
  | .rollbackState start i => (pool.withState (start + i) .free, .rollbackBit start i)
  | .rollbackBit start i => (pool.withBit (start + i) false, .rollback start i)
  | .stranded start => (pool, .stranded start)
  | .returned start => (pool, .returned start)
  | .failed => (pool, .failed)

end LargeObjectPool

namespace ExtentPhase

/-- The segments that a call has claimed, out of a run of `n`. -/
def Owns (n : Nat) : ExtentPhase → Nat → Prop
  | search, _ | failed, _ => False
  | claim start i, k | rollback start i, k => start ≤ k ∧ k < start + i
  | undo start j claimed, k => start + j ≤ k ∧ k < start + claimed
  | mark start _, k | load start _, k | exchange start _ _, k | header start _, k
  | settle start _, k | register start, k | stranded start, k | returned start, k =>
    start ≤ k ∧ k < start + n
  | rollbackState start i, k | rollbackBit start i, k => start ≤ k ∧ k < start + (i + 1)
  | giveUp start j, k | giveUpBit start j, k => start + j ≤ k ∧ k < start + n

/-- The places are inside the run, and the run is inside the pool. -/
def Fits (n count : Nat) : ExtentPhase → Prop
  | search | failed => True
  | claim start i | mark start i | load start i | header start i | settle start i
  | rollback start i => i ≤ n ∧ start + n ≤ count
  | undo start j claimed => j ≤ claimed ∧ claimed ≤ n ∧ start + n ≤ count
  | exchange start i _ | giveUpBit start i | rollbackState start i | rollbackBit start i =>
    i < n ∧ start + n ≤ count
  | giveUp start j => j ≤ n ∧ start + n ≤ count
  | register start | stranded start | returned start => start + n ≤ count

end ExtentPhase

namespace LargeObjectPool

variable {pool pool' : LargeObjectPool} {request : LargeObjectAllocationRequest}
  {phase : ExtentPhase} {choice start i j k n : Nat}

/-- What a call has written. -/
def Content (pool : LargeObjectPool) (request : LargeObjectAllocationRequest) :
    ExtentPhase → Prop
  | .header start i => ∀ j, j < i → Written pool request (start + j) j
  | .settle start _ | .register start | .returned start =>
    ∀ j, j < pool.geometry.segmentsFor request.objectSize → Written pool request (start + j) j
  | _ => True

/-- The words of the segment are as they were. -/
def SameAt (pool pool' : LargeObjectPool) (k : Nat) : Prop :=
  pool'.bitmap k = pool.bitmap k ∧ pool'.headers k = pool.headers k ∧
    pool'.generations k = pool.generations k

theorem sameAt_withBit (value : Bool) (h : k ≠ i) : SameAt pool (pool.withBit i value) k :=
  ⟨update_of_ne h .., rfl, rfl⟩

theorem sameAt_withState (st : ObjectState) (h : k ≠ i) : SameAt pool (pool.withState i st) k :=
  ⟨rfl, update_of_ne h .., rfl⟩

theorem sameAt_withGeneration (value : Nat) (h : k ≠ i) :
    SameAt pool (pool.withGeneration i value) k :=
  ⟨rfl, rfl, update_of_ne h ..⟩

theorem sameAt_withRecord (h : k ≠ i) : SameAt pool (pool.withRecord request i j) k :=
  ⟨rfl, update_of_ne h .., rfl⟩

theorem Written.congr (h : Written pool request k i) (hsame : SameAt pool pool' k)
    (hgeometry : pool'.geometry = pool.geometry) : Written pool' request k i := by
  obtain ⟨st, hst, hheader⟩ := h
  refine ⟨st, hst, ?_⟩
  rw [hsame.2.1, hheader, record, record, hsame.2.2, hgeometry]

theorem Written.withState (h : Written pool request k i) {st} (hst : st ≠ .free) :
    Written (pool.withState j st) request k i := by
  by_cases hk : k = j
  · subst hk
    obtain ⟨old, -, hheader⟩ := h
    refine ⟨st, hst, ?_⟩
    rw [withState_header, if_pos rfl, hheader]
    rfl
  · exact h.congr (sameAt_withState st hk) rfl

/-- What one step of a call does to the segments. -/
structure StepSpec (pool : LargeObjectPool) (request : LargeObjectAllocationRequest)
    (phase : ExtentPhase) (next : LargeObjectPool × ExtentPhase) : Prop where
  geometry : next.1.geometry = pool.geometry
  fits : next.2.Fits (pool.geometry.segmentsFor request.objectSize) pool.geometry.segmentCount
  /-- A segment that the call gets is free. -/
  claims : ∀ k, next.2.Owns (pool.geometry.segmentsFor request.objectSize) k →
    phase.Owns (pool.geometry.segmentsFor request.objectSize) k ∨ pool.bitmap k = false
  /-- The segments that it has have their bits. -/
  bits : ∀ k, next.2.Owns (pool.geometry.segmentsFor request.objectSize) k →
    next.1.bitmap k = true
  /-- It leaves the segments alone that it has not got. -/
  frame : ∀ k, ¬ phase.Owns (pool.geometry.segmentsFor request.objectSize) k →
    ¬ next.2.Owns (pool.geometry.segmentsFor request.objectSize) k → SameAt pool next.1 k
  content : Content next.1 request next.2

variable {next : ExtentPhase}

section

variable (hfits : next.Fits (pool.geometry.segmentsFor request.objectSize) pool.geometry.segmentCount)
  (hbits : ∀ k, phase.Owns (pool.geometry.segmentsFor request.objectSize) k → pool.bitmap k = true)
include hfits hbits

theorem StepSpec.silent (howns : ∀ k, next.Owns (pool.geometry.segmentsFor request.objectSize) k →
      phase.Owns (pool.geometry.segmentsFor request.objectSize) k)
    (hcontent : Content pool request next) : StepSpec pool request phase (pool, next) :=
  ⟨rfl, hfits, fun k hk => .inl (howns k hk), fun k hk => hbits k (howns k hk),
    fun _ _ _ => ⟨rfl, rfl, rfl⟩, hcontent⟩

/-- A step that writes to a segment of the call and leaves the bits as they are. -/
theorem StepSpec.write (hgeometry : pool'.geometry = pool.geometry) (hbitmap : pool'.bitmap =
    pool.bitmap) (howns : ∀ k, next.Owns (pool.geometry.segmentsFor request.objectSize) k →
      phase.Owns (pool.geometry.segmentsFor request.objectSize) k)
    (hi : phase.Owns (pool.geometry.segmentsFor request.objectSize) i)
    (hsame : ∀ k, k ≠ i → SameAt pool pool' k) (hcontent : Content pool' request next) :
    StepSpec pool request phase (pool', next) := by
  refine ⟨hgeometry, hfits, fun k hk => .inl (howns k hk), fun k hk => ?_, fun k hk _ => ?_,
    hcontent⟩
  · dsimp only
    rw [hbitmap]
    exact hbits k (howns k hk)
  · refine hsame k ?_
    rintro rfl
    exact hk hi

/-- A step that clears the bit of a segment, which the call then does not have any more. -/
theorem StepSpec.clear (howns : ∀ k, next.Owns (pool.geometry.segmentsFor request.objectSize) k →
      k ≠ i ∧ phase.Owns (pool.geometry.segmentsFor request.objectSize) k)
    (hi : phase.Owns (pool.geometry.segmentsFor request.objectSize) i)
    (hcontent : Content (pool.withBit i false) request next) :
    StepSpec pool request phase (pool.withBit i false, next) := by
  refine ⟨rfl, hfits, fun k hk => .inl (howns k hk).2, fun k hk => ?_, fun k hk _ => ?_, hcontent⟩
  · exact (update_of_ne (howns k hk).1 ..).trans (hbits k (howns k hk).2)
  refine sameAt_withBit false ?_
  rintro rfl
  exact hk hi

end

theorem advance_claim (hfits : (ExtentPhase.claim start i).Fits
      (pool.geometry.segmentsFor request.objectSize) pool.geometry.segmentCount)
    (hbits : ∀ k, (ExtentPhase.claim start i).Owns (pool.geometry.segmentsFor request.objectSize) k →
      pool.bitmap k = true) :
    StepSpec pool request (.claim start i) (pool.advance request choice (.claim start i)) := by
  obtain ⟨hi, hinside⟩ := hfits
  simp only [advance]
  split
  · split
    · exact .silent ⟨by omega, by omega, hinside⟩ hbits
        (fun k hk => by simp only [ExtentPhase.Owns] at *; omega) trivial
    · rename_i hlt hbit
      rw [Bool.not_eq_true] at hbit
      refine ⟨rfl, ⟨hlt, hinside⟩, fun k hk => ?_, fun k hk => ?_, fun k hk hk' => ?_, trivial⟩
      · by_cases heq : k = start + i
        · exact .inr (heq ▸ hbit)
        · refine .inl ?_
          simp only [ExtentPhase.Owns] at *
          omega
      · by_cases heq : k = start + i
        · subst heq
          exact update_self ..
        · refine (update_of_ne heq ..).trans (hbits k ?_)
          simp only [ExtentPhase.Owns] at *
          omega
      · refine sameAt_withBit true ?_
        simp only [ExtentPhase.Owns] at *
        omega
  · exact .silent ⟨by omega, hinside⟩ hbits
      (fun k hk => by simp only [ExtentPhase.Owns] at *; omega) trivial

theorem advance_spec (choice : Nat)
    (hfits : phase.Fits (pool.geometry.segmentsFor request.objectSize) pool.geometry.segmentCount)
    (hbits : ∀ k, phase.Owns (pool.geometry.segmentsFor request.objectSize) k →
      pool.bitmap k = true) (hcontent : Content pool request phase) :
    StepSpec pool request phase (pool.advance request choice phase) := by
  cases phase with
  | search =>
    simp only [advance]
    split
    · rename_i hinside
      exact .silent ⟨Nat.zero_le _, hinside⟩ hbits
        (fun k hk => by simp only [ExtentPhase.Owns] at *; omega) trivial
    · exact .silent trivial hbits (fun _ => id) trivial
  | claim start i => exact advance_claim hfits hbits
  | undo start j claimed =>
    obtain ⟨hj, hclaimed, hinside⟩ := hfits
    simp only [advance]
    split
    · exact .clear ⟨by omega, hclaimed, hinside⟩ hbits
        (fun k hk => by simp only [ExtentPhase.Owns] at *; omega)
        (by simp only [ExtentPhase.Owns]; omega) trivial
    · exact .silent trivial hbits (fun _ => False.elim) trivial
  | mark start i =>
    obtain ⟨hi, hinside⟩ := hfits
    simp only [advance]
    split
    · exact .write ⟨by omega, hinside⟩ hbits rfl rfl (fun _ => id)
        (by simp only [ExtentPhase.Owns]; omega) (fun k hk => sameAt_withState _ hk) trivial
    · exact .silent ⟨Nat.zero_le _, hinside⟩ hbits (fun _ => id) trivial
  | load start i =>
    obtain ⟨hi, hinside⟩ := hfits
    simp only [advance]
    split
    · exact .silent ⟨by omega, hinside⟩ hbits (fun _ => id) trivial
    · exact .silent ⟨Nat.zero_le _, hinside⟩ hbits (fun _ => id) fun j hj => absurd hj (by omega)
  | exchange start i observed =>
    obtain ⟨hi, hinside⟩ := hfits
    have hown : (ExtentPhase.exchange start i observed).Owns
        (pool.geometry.segmentsFor request.objectSize) (start + i) := by
      simp only [ExtentPhase.Owns]
      omega
    have hsub : ∀ k, (ExtentPhase.giveUp start 0).Owns (pool.geometry.segmentsFor
        request.objectSize) k → (ExtentPhase.exchange start i observed).Owns
          (pool.geometry.segmentsFor request.objectSize) k := fun _ => id
    simp only [advance]
    split
    · split
      · exact .write ⟨Nat.zero_le _, hinside⟩ hbits rfl rfl hsub hown
          (fun k hk => sameAt_withGeneration _ hk) trivial
      · exact .silent ⟨Nat.zero_le _, hinside⟩ hbits hsub trivial
    · split
      · exact .write ⟨hi, hinside⟩ hbits rfl rfl (fun _ => id) hown
          (fun k hk => sameAt_withGeneration _ hk) trivial
      · exact .silent ⟨Nat.zero_le _, hinside⟩ hbits hsub trivial
  | giveUp start j =>
    obtain ⟨hj, hinside⟩ := hfits
    simp only [advance]
    split
    · rename_i hlt
      exact .write ⟨hlt, hinside⟩ hbits rfl rfl (fun _ => id)
        (by simp only [ExtentPhase.Owns]; omega) (fun k hk => sameAt_withState _ hk) trivial
    · exact .silent trivial hbits (fun _ => False.elim) trivial
  | giveUpBit start j =>
    obtain ⟨hj, hinside⟩ := hfits
    exact .clear ⟨hj, hinside⟩ hbits (fun k hk => by simp only [ExtentPhase.Owns] at *; omega)
      (by simp only [ExtentPhase.Owns]; omega) trivial
  | header start i =>
    obtain ⟨hi, hinside⟩ := hfits
    simp only [advance]
    split
    · rename_i hlt
      refine .write ⟨hlt, hinside⟩ hbits rfl rfl (fun _ => id)
        (by simp only [ExtentPhase.Owns]; omega) (fun k hk => sameAt_withRecord hk) fun j hj => ?_
      by_cases heq : j = i
      · subst heq
        exact ⟨.allocating, nofun, update_self ..⟩
      · exact (hcontent j (by omega)).congr (sameAt_withRecord (by omega)) rfl
    · obtain rfl : i = pool.geometry.segmentsFor request.objectSize := by omega
      exact .silent ⟨le_rfl, hinside⟩ hbits (fun _ => id) hcontent
  | settle start i =>
    obtain ⟨hi, hinside⟩ := hfits
    cases i with
    | zero => exact .silent hinside hbits (fun _ => id) hcontent
    | succ i =>
      exact .write ⟨by omega, hinside⟩ hbits rfl rfl (fun _ => id)
        (by simp only [ExtentPhase.Owns]; omega) (fun k hk => sameAt_withState _ hk)
        fun j hj => (hcontent j hj).withState nofun
  | register start =>
    simp only [advance]
    split
    · exact .silent hfits hbits (fun _ => id) hcontent
    split
    · exact .silent ⟨le_rfl, hfits⟩ hbits (fun _ => id) trivial
    · exact .silent hfits hbits (fun _ => id) trivial
  | rollback start i =>
    obtain ⟨hi, hinside⟩ := hfits
    cases i with
    | zero => exact .silent trivial hbits (fun _ => False.elim) trivial
    | succ i =>
      exact .write ⟨hi, hinside⟩ hbits rfl rfl (fun _ => id)
        (by simp only [ExtentPhase.Owns]; omega) (fun k hk => sameAt_withState _ hk) trivial
  | rollbackState start i =>
    exact .write hfits hbits rfl rfl (fun _ => id) (by simp only [ExtentPhase.Owns]; omega)
      (fun k hk => sameAt_withState _ hk) trivial
  | rollbackBit start i =>
    obtain ⟨hi, hinside⟩ := hfits
    exact .clear ⟨hi.le, hinside⟩ hbits (fun k hk => by simp only [ExtentPhase.Owns] at *; omega)
      (by simp only [ExtentPhase.Owns]; omega) trivial
  | stranded start => exact .silent hfits hbits (fun _ => id) trivial
  | returned start => exact .silent hfits hbits (fun _ => id) hcontent
  | failed => exact .silent trivial hbits (fun _ => id) trivial

/-- The segments of the object at a segment 0. -/
def run (pool : LargeObjectPool) (first : Nat) : Set Nat :=
  Set.Ico first (first + pool.runLength first)

theorem Whole.runs_disjoint {r r'} (h : Whole pool r) (h' : Whole pool r') (hne : r ≠ r') :
    Disjoint (pool.run r) (pool.run r') := by
  refine Set.disjoint_left.mpr fun k hk hk' => hne ?_
  obtain ⟨hle, hlt⟩ := hk
  obtain ⟨hle', hlt'⟩ := hk'
  exact h.unique h' (i := k - r) (j := k - r') (by unfold runLength at hlt; omega)
    (by unfold runLength at hlt'; omega) (by omega)

theorem Content.congr (hgeometry : pool'.geometry = pool.geometry)
    (hfits : phase.Fits (pool.geometry.segmentsFor request.objectSize) pool.geometry.segmentCount)
    (hsame : ∀ k, phase.Owns (pool.geometry.segmentsFor request.objectSize) k → SameAt pool pool' k)
    (h : Content pool request phase) : Content pool' request phase := by
  cases phase with
  | header start i =>
    intro j hj
    have hi := hfits.1
    exact (h j hj).congr (hsame _ (by simp only [ExtentPhase.Owns]; omega)) hgeometry
  | settle start i | register start | returned start =>
    intro j hj
    rw [hgeometry] at hj
    exact (h j hj).congr (hsame _ (by simp only [ExtentPhase.Owns]; omega)) hgeometry
  | _ => trivial

end LargeObjectPool

open LargeObjectPool

/-- The pool and the calls that are under way. -/
structure ExtentSystem where
  pool : LargeObjectPool
  phase : Nat → ExtentPhase

namespace ExtentSystem

variable {requests : Nat → LargeObjectAllocationRequest} {old : LargeObjectPool} {s : ExtentSystem}
  {t t' k start : Nat}

/-- No call has begun its search. -/
def idle (pool : LargeObjectPool) : ExtentSystem := ⟨pool, fun _ => .search⟩

def step (requests : Nat → LargeObjectAllocationRequest) (s : ExtentSystem) (turn : Nat × Nat) :
    ExtentSystem :=
  let next := s.pool.advance (requests turn.1) turn.2 (s.phase turn.1)
  ⟨next.1, update s.phase turn.1 next.2⟩

def run (requests : Nat → LargeObjectAllocationRequest) (s : ExtentSystem)
    (schedule : List (Nat × Nat)) : ExtentSystem :=
  schedule.foldl (step requests) s

def Owns (requests : Nat → LargeObjectAllocationRequest) (s : ExtentSystem) (t k : Nat) : Prop :=
  (s.phase t).Owns (s.pool.geometry.segmentsFor (requests t).objectSize) k

structure Inv (requests : Nat → LargeObjectAllocationRequest) (old : LargeObjectPool)
    (s : ExtentSystem) : Prop where
  geometry : s.pool.geometry = old.geometry
  fits : ∀ t, (s.phase t).Fits (s.pool.geometry.segmentsFor (requests t).objectSize)
    s.pool.geometry.segmentCount
  bits : ∀ t k, s.Owns requests t k → s.pool.bitmap k = true
  apart : ∀ t t' k, s.Owns requests t k → s.Owns requests t' k → t = t'
  content : ∀ t, Content s.pool (requests t) (s.phase t)
  /-- The segments that were taken before stay as they are, and no call claims them. -/
  kept : ∀ k, old.bitmap k = true → SameAt old s.pool k ∧ ∀ t, ¬ s.Owns requests t k

theorem Inv.idle (old : LargeObjectPool) : Inv requests old (idle old) :=
  ⟨rfl, fun _ => trivial, fun _ _ => False.elim, fun _ _ _ => False.elim, fun _ => trivial,
    fun _ _ => ⟨⟨rfl, rfl, rfl⟩, fun _ => id⟩⟩

theorem Inv.spec (h : Inv requests old s) (turn : Nat × Nat) :
    StepSpec s.pool (requests turn.1) (s.phase turn.1)
      (s.pool.advance (requests turn.1) turn.2 (s.phase turn.1)) :=
  advance_spec turn.2 (h.fits turn.1) (h.bits turn.1) (h.content turn.1)

theorem phase_step_self (turn : Nat × Nat) : (s.step requests turn).phase turn.1 =
    (s.pool.advance (requests turn.1) turn.2 (s.phase turn.1)).2 :=
  update_self ..

variable {turn : Nat × Nat}

theorem phase_step_other (hne : t ≠ turn.1) : (s.step requests turn).phase t = s.phase t :=
  update_of_ne hne ..

section

variable (h : Inv requests old s)
include h

theorem Inv.geometry_step (turn : Nat × Nat) :
    (s.step requests turn).pool.geometry = s.pool.geometry :=
  (h.spec turn).geometry

theorem Inv.owns_self (turn : Nat × Nat) : (s.step requests turn).Owns requests turn.1 k ↔
    (s.pool.advance (requests turn.1) turn.2 (s.phase turn.1)).2.Owns
      (s.pool.geometry.segmentsFor (requests turn.1).objectSize) k := by
  unfold Owns
  rw [phase_step_self, h.geometry_step]

theorem Inv.owns_other (hne : t ≠ turn.1) :
    (s.step requests turn).Owns requests t k ↔ s.Owns requests t k := by
  unfold Owns
  rw [phase_step_other hne, h.geometry_step]

/-- A segment that is taken and not claimed by the call of the turn is not claimed by it then. -/
theorem Inv.not_claimed (hbit : s.pool.bitmap k = true) (hnot : ¬ s.Owns requests turn.1 k) :
    ¬ (s.step requests turn).Owns requests turn.1 k := by
  intro howns
  rcases (h.spec turn).claims k ((h.owns_self turn).mp howns) with hbefore | hfree
  · exact hnot hbefore
  · rw [hbit] at hfree
    cases hfree

/-- Such a segment stays as it is. -/
theorem Inv.same (hbit : s.pool.bitmap k = true)
    (hnot : ¬ s.Owns requests turn.1 k) : SameAt s.pool (s.step requests turn).pool k :=
  (h.spec turn).frame k hnot fun hmine => h.not_claimed hbit hnot ((h.owns_self turn).mpr hmine)

theorem Inv.not_owns (howns : s.Owns requests t k) (hne : t ≠ t') : ¬ s.Owns requests t' k :=
  fun hmine => hne (h.apart t t' k howns hmine)

theorem Inv.apart_step (hne : t ≠ turn.1) (howns : (s.step requests turn).Owns requests t k) :
    ¬ (s.step requests turn).Owns requests turn.1 k := by
  have hbefore := (h.owns_other hne).mp howns
  exact h.not_claimed (h.bits t k hbefore) (h.not_owns hbefore hne)

theorem Inv.step (turn : Nat × Nat) : Inv requests old (s.step requests turn) := by
  refine ⟨(h.geometry_step turn).trans h.geometry, fun t => ?_, fun t k howns => ?_,
    fun t t' k howns howns' => ?_, fun t => ?_, fun k hk => ?_⟩
  · rw [h.geometry_step]
    by_cases hne : t = turn.1
    · rw [hne, phase_step_self]
      exact (h.spec turn).fits
    · rw [phase_step_other hne]
      exact h.fits t
  · by_cases hne : t = turn.1
    · subst hne
      exact (h.spec turn).bits k ((h.owns_self turn).mp howns)
    · have hbefore := (h.owns_other hne).mp howns
      have hbit := h.bits t k hbefore
      exact (h.same hbit (h.not_owns hbefore hne)).1.trans hbit
  · by_cases hne : t = turn.1
    · subst hne
      by_contra hne'
      exact h.apart_step (Ne.symm hne') howns' howns
    · by_cases hne' : t' = turn.1
      · subst hne'
        exact (h.apart_step hne howns howns').elim
      · exact h.apart t t' k ((h.owns_other hne).mp howns) ((h.owns_other hne').mp howns')
  · by_cases hne : t = turn.1
    · rw [hne, phase_step_self]
      exact (h.spec turn).content
    · rw [phase_step_other hne]
      exact (h.content t).congr (h.geometry_step turn) (h.fits t) fun k howns =>
        h.same (h.bits t k howns) (h.not_owns howns hne)
  · obtain ⟨hkept, hnone⟩ := h.kept k hk
    have hbit : s.pool.bitmap k = true := hkept.1.trans hk
    obtain ⟨hbit', hheader, hgeneration⟩ := h.same hbit (hnone turn.1)
    refine ⟨⟨hbit'.trans hkept.1, hheader.trans hkept.2.1, hgeneration.trans hkept.2.2⟩,
      fun t howns => ?_⟩
    by_cases hne : t = turn.1
    · subst hne
      exact h.not_claimed hbit (hnone turn.1) howns
    · exact hnone t ((h.owns_other hne).mp howns)

theorem Inv.run (schedule : List (Nat × Nat)) : Inv requests old (s.run requests schedule) := by
  induction schedule generalizing s with
  | nil => exact h
  | cons turn rest ih => exact ih (h.step turn)

theorem Inv.whole (hvalid : old.geometry.Valid) (hsize : (requests t).objectSize ≠ 0)
    (hmax : (requests t).objectSize ≤ old.geometry.maxObjectSize)
    (hreturned : s.phase t = .returned start) :
    Whole s.pool start ∧ (s.pool.headers start).objectSize = (requests t).objectSize := by
  have hfits := h.fits t
  have hcontent := h.content t
  have hbits := h.bits t
  unfold Owns at hbits
  rw [hreturned] at hfits hcontent hbits
  refine whole_written (h.geometry ▸ hvalid) hsize (h.geometry ▸ hmax) hfits
    (fun j hj => ?_) hcontent
  exact hbits (start + j) ⟨Nat.le_add_right _ _, Nat.add_lt_add_left hj _⟩

theorem Inv.kept_whole (hvalid : old.geometry.Valid) {r}
    (hwhole : Whole old r) : Whole s.pool r := by
  refine (hwhole.congr hvalid h.geometry fun i hi => ?_).1
  have hset := hwhole.set hi
  have hbit : old.bitmap (r + i) = true := by
    simp only [isSegmentSet, Bool.and_eq_true] at hset
    exact hset.2
  obtain ⟨hbit', hheader, hgeneration⟩ := (h.kept (r + i) hbit).1
  refine ⟨?_, hheader, hgeneration⟩
  unfold isSegmentSet
  rw [hbit', h.geometry]

end

/-- At every moment of concurrent calls no two claim one segment, and what was taken before is kept. -/
theorem run_claims_apart (schedule : List (Nat × Nat)) :
    (∀ t t' k, ((idle old).run requests schedule).Owns requests t k →
      ((idle old).run requests schedule).Owns requests t' k → t = t') ∧
    (∀ t k, ((idle old).run requests schedule).Owns requests t k →
      ((idle old).run requests schedule).pool.bitmap k = true) ∧
    ∀ k, old.bitmap k = true → SameAt old ((idle old).run requests schedule).pool k ∧
      ∀ t, ¬ ((idle old).run requests schedule).Owns requests t k :=
  have h := (Inv.idle old).run schedule
  ⟨h.apart, h.bits, h.kept⟩

end ExtentSystem

/-! ### The pool as a whole -/

namespace LargeObjectPool

/-- The segments of the object that a handle names. -/
def span (pool : LargeObjectPool) (handle : ShmHandle) : Set Nat :=
  {k | ∃ r, pool.resolveLocked handle = .ok r ∧ k ∈ pool.run r}

theorem le_capacity {g : PoolGeometry} (hvalid : g.Valid) (size : Nat) :
    size ≤ g.segmentsFor size * g.segmentSize := by
  have hpos := hvalid.segmentSize
  have hdiv := Nat.div_add_mod' (size + g.segmentSize - 1) g.segmentSize
  have hmod := Nat.mod_lt (size + g.segmentSize - 1) hpos
  unfold PoolGeometry.segmentsFor
  omega

/-- The outcome of an `Allocate` that the checks let through. -/
theorem allocate_outcome {pool} (hvalid : pool.geometry.Valid)
    (hsettled : Settled pool) {draining input request} (h : Accepted pool draining input request) :
    let needed := pool.geometry.segmentsFor request.objectSize
    let result := pool.allocate draining input request
    (∃ start, pool.findExtent input.payloadBase needed request.alignment = .ok start ∧
      BestPlace pool input.payloadBase request.alignment needed start ∧
      Ends pool input request start result.2.2 ∧
      (∀ handle, result.2.2 = .ok handle → result.1 = pool.placed request start)) ∨
    NoRoom pool input.payloadBase request.alignment needed ∧
      ∃ status, status.code = .resourceExhausted ∧ result = (pool, draining, .error status) := by
  dsimp only
  have hpos := segmentsFor_pos hvalid h.size
  rcases allocate_accepted hvalid h with ⟨start, hbest, hextent, heq⟩ | hnone
  · have hbest' := hbest
    obtain ⟨a, b, hrun, hstarts, -⟩ := hbest'
    have hvacant : Vacant pool start (pool.geometry.segmentsFor request.objectSize) := by
      have hinside := hrun.inside
      have hle := hstarts.1
      have hend := hstarts.2.1
      exact ⟨by omega, fun k hk hlt => hrun.free k (by omega) (by omega)⟩
    rw [heq]
    exact .inl ⟨start, hextent, hbest,
      allocateAt_outcome hvalid draining input (hstarts.lt_count hpos hrun), fun handle hok =>
        ((keeps_allocateAt hvalid hsettled h.size h.bound hvacant draining input).2 _ hok).1⟩
  · exact .inr hnone

end LargeObjectPool

namespace LargePoolHistory

variable {s : LargePoolHistory}

theorem Inv.resolves (h : Inv s) {o} (ho : o ∈ s.live) :
    ∃ r, s.pool.resolveLocked o.1 = .ok r ∧ Whole s.pool r ∧
      (s.pool.headers r).objectSize = o.2.objectSize ∧ o.1 = s.pool.handleOf r := by
  obtain ⟨r, hwhole, hhandle, hsize⟩ := h.live o ho
  refine ⟨r, ?_, hwhole, hsize, hhandle⟩
  rw [hhandle]
  exact resolveLocked_set h.valid (hwhole.set (i := 0) (hwhole.clearable.length_pos h.valid))

theorem Inv.spans (h : Inv s) :
    s.live.Pairwise fun o o' => Disjoint (s.pool.span o.1) (s.pool.span o'.1) := by
  have hnodup : (s.live.map Prod.fst).Nodup := h.listed.nodup h.fresh
  rw [List.Nodup, List.pairwise_map] at hnodup
  refine hnodup.imp_of_mem fun {o o'} ho ho' hne => ?_
  obtain ⟨r, hresolve, hwhole, -, hhandle⟩ := h.resolves ho
  obtain ⟨r', hresolve', hwhole', -, hhandle'⟩ := h.resolves ho'
  have hrr : r ≠ r' := by
    rintro rfl
    exact hne (hhandle.trans hhandle'.symm)
  refine Set.disjoint_left.mpr ?_
  rintro k ⟨first, hfirst, hk⟩ ⟨first', hfirst', hk'⟩
  cases hresolve.symm.trans hfirst
  cases hresolve'.symm.trans hfirst'
  exact Set.disjoint_left.mp (hwhole.runs_disjoint hwhole' hrr) hk hk'

end LargePoolHistory

/-- After any calls, the live objects are whole, big enough and pairwise apart, and no handle has
been returned twice. An `Allocate` that the checks let through finds no room and fails, or it finds
a free run that is as short as any with room for its object and returns the object there, unless a
generation in this run is used up or the registration of the object fails; one that the checks do
not let through fails with another code. Concurrent calls of `Allocate` leave the objects that are
there whole, and those that return have whole objects of their own, all of them apart. -/
theorem large_pool_runs {storage : LargeObjectPoolStorage} {maxObjectSize segmentSize : Nat}
    {prepared : Result Unit} {geometry : PoolGeometry}
    (hcreate : PoolGeometry.create storage maxObjectSize segmentSize prepared = .ok geometry)
    (calls : List PoolCall) :
    let s := (LargePoolHistory.create geometry).run calls
    (∀ o ∈ s.live, ∃ r, s.pool.resolveLocked o.1 = .ok r ∧ Whole s.pool r ∧
      (s.pool.headers r).objectSize = o.2.objectSize ∧
      o.2.objectSize ≤ s.pool.runLength r * s.pool.geometry.segmentSize) ∧
    (s.live.Pairwise fun o o' => Disjoint (s.pool.span o.1) (s.pool.span o'.1)) ∧
    s.returned.Nodup ∧
    (∀ (input : AllocateInput) (request : LargeObjectAllocationRequest),
      let needed := s.pool.geometry.segmentsFor request.objectSize
      let result := s.pool.allocate s.draining input request
      (Accepted s.pool s.draining input request →
        (∃ start, s.pool.findExtent input.payloadBase needed request.alignment = .ok start ∧
          BestPlace s.pool input.payloadBase request.alignment needed start ∧
          Ends s.pool input request start result.2.2 ∧
          ∀ handle, result.2.2 = .ok handle → result.1 = s.pool.placed request start) ∨
        NoRoom s.pool input.payloadBase request.alignment needed ∧
          ∃ status, status.code = .resourceExhausted ∧
            result = (s.pool, s.draining, .error status)) ∧
      (¬ Accepted s.pool s.draining input request →
        ∃ status, result.2.2 = .error status ∧ status.code ≠ .resourceExhausted)) ∧
    ∀ (requests : Nat → LargeObjectAllocationRequest) (schedule : List (Nat × Nat)),
      (∀ t, (requests t).objectSize ≠ 0 ∧ (requests t).objectSize ≤ s.pool.geometry.maxObjectSize) →
      let c := (ExtentSystem.idle s.pool).run requests schedule
      (∀ t start, c.phase t = .returned start → Whole c.pool start ∧
        (c.pool.headers start).objectSize = (requests t).objectSize ∧
        (requests t).objectSize ≤ c.pool.runLength start * c.pool.geometry.segmentSize) ∧
      (∀ r, Whole s.pool r → Whole c.pool r) ∧
      (∀ t t' start start', c.phase t = .returned start → c.phase t' = .returned start' → t ≠ t' →
        Disjoint (c.pool.run start) (c.pool.run start')) ∧
      ∀ t start r, c.phase t = .returned start → Whole s.pool r →
        Disjoint (c.pool.run start) (c.pool.run r) := by
  intro s
  have hvalid : geometry.Valid := .of_create hcreate
  have h : LargePoolHistory.Inv s := (LargePoolHistory.Inv.create hvalid).run calls
  have hcapacity : ∀ {pool : LargeObjectPool} {r size : Nat}, pool.geometry.Valid →
      (pool.headers r).objectSize = size → size ≤ pool.runLength r * pool.geometry.segmentSize := by
    rintro pool r size hpool rfl
    exact le_capacity hpool _
  refine ⟨fun o ho => ?_, h.spans, h.fresh, fun input request => ⟨fun haccepted => ?_,
    allocate_rejected⟩, fun requests schedule hrequests => ?_⟩
  · obtain ⟨r, hresolve, hwhole, hsize, -⟩ := h.resolves ho
    exact ⟨r, hresolve, hwhole, hsize, hcapacity h.valid hsize⟩
  · exact allocate_outcome h.valid h.settled haccepted
  intro c
  have hc : ExtentSystem.Inv requests s.pool c := (ExtentSystem.Inv.idle s.pool).run schedule
  have hwhole : ∀ t start, c.phase t = .returned start → Whole c.pool start ∧
      (c.pool.headers start).objectSize = (requests t).objectSize :=
    fun t start => hc.whole h.valid (hrequests t).1 (hrequests t).2
  have howns : ∀ t start, c.phase t = .returned start → c.Owns requests t start := by
    intro t start hreturned
    have hpos := segmentsFor_pos (hc.geometry.symm ▸ h.valid) (hrequests t).1
    unfold ExtentSystem.Owns
    rw [hreturned]
    exact ⟨le_rfl, Nat.lt_add_of_pos_right hpos⟩
  refine ⟨fun t start hreturned => ?_, fun r => hc.kept_whole h.valid,
    fun t t' start start' hreturned hreturned' hne => ?_, fun t start r hreturned hold => ?_⟩
  · obtain ⟨hnew, hsize⟩ := hwhole t start hreturned
    exact ⟨hnew, hsize, hcapacity (hc.geometry.symm ▸ h.valid) hsize⟩
  · refine (hwhole t start hreturned).1.runs_disjoint (hwhole t' start' hreturned').1 ?_
    rintro rfl
    exact hne (hc.apart t t' start (howns t start hreturned) (howns t' start hreturned'))
  · refine (hwhole t start hreturned).1.runs_disjoint (hc.kept_whole h.valid hold) ?_
    rintro rfl
    have hset := hold.set (i := 0) (hold.clearable.length_pos h.valid)
    simp only [isSegmentSet, Bool.and_eq_true] at hset
    exact (hc.kept start hset.2).2 t (howns t start hreturned)

/-- A registered pool whose quota of 32 bytes is too small for the object. -/
def quotaInput : AllocateInput :=
  ⟨320, true, true, true, false, false, false, true, 0,
    fun _ => .error .resourceExhausted "memory registration quota exceeded", fun _ => .success⟩

/-- The same without registration. -/
def plainInput : AllocateInput := { quotaInput with registered := false }

/-- Two objects, then the first one away again. -/
def plainCalls : List PoolCall :=
  [.allocate plainInput (ownedRequest 64), .allocate plainInput (ownedRequest 40),
    .reclaim (fun _ => .success) (fun _ => .success) ⟨128, 1, 1⟩]

theorem large_pool_runs_two :
    PoolGeometry.create ⟨64, 4096, 0, 384, 1⟩ 128 64 (.ok ()) = .ok twoSegments ∧
      ((LargePoolHistory.create twoSegments).run plainCalls).returned = [⟨192, 1, 1⟩, ⟨128, 1, 1⟩] ∧
      ((LargePoolHistory.create twoSegments).run plainCalls).returned.Nodup :=
  ⟨twoSegments_created, by decide +kernel, (large_pool_runs twoSegments_created plainCalls).2.2.1⟩

/-- An `Allocate` finds room for its object, and it fails with the code all the same: the quota of
the registration is used up. -/
theorem allocate_over_quota : (fresh twoSegments).findExtent 320 1 1 = .ok 0 ∧
      ((fresh twoSegments).allocate false quotaInput (ownedRequest 64)).2.2 =
        .error (.error .resourceExhausted "memory registration quota exceeded") := by
  decide +kernel

end Mino.Shm
