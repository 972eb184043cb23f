import Mino.Shm.LargePoolCalls

/-! # The search for an extent finds a shortest run

The search goes over the free runs from left to right. A place between two of its turns does not
lie inside a free run, so that each free run is either done or still to come. -/

namespace Mino.Shm.LargeObjectPool

open List

variable {pool : LargeObjectPool} {base alignment needed a b k x y : Nat} {best : BestRun}

/-- A free run that no longer one contains. -/
structure FreeRun (pool : LargeObjectPool) (a b : Nat) : Prop where
  nonempty : a < b
  inside : b ≤ pool.geometry.segmentCount
  free : ∀ k, a ≤ k → k < b → pool.isSegmentSet k = false
  left : a = 0 ∨ pool.isSegmentSet (a - 1) = true
  right : b = pool.geometry.segmentCount ∨ pool.isSegmentSet b = true

/-- The payload address of the segment is aligned. -/
def Aligned (pool : LargeObjectPool) (base alignment k : Nat) : Prop :=
  (base + k * pool.geometry.segmentSize) % alignment = 0

/-- A place in a run where the object can start. -/
def Starts (pool : LargeObjectPool) (base alignment needed a b k : Nat) : Prop :=
  a ≤ k ∧ k + needed ≤ b ∧ pool.Aligned base alignment k

theorem skip_spec (pool : LargeObjectPool) (value : Bool) (n k : Nat) :
    k ≤ pool.skip value n k ∧ pool.skip value n k ≤ k + n ∧
      (∀ j, k ≤ j → j < pool.skip value n k → pool.isSegmentSet j = value) ∧
      (pool.skip value n k < k + n → pool.isSegmentSet (pool.skip value n k) ≠ value) := by
  induction n generalizing k with
  | zero => exact ⟨le_rfl, le_rfl, fun j hle hlt => absurd hlt (by simp only [skip]; omega),
      fun hlt => absurd hlt (by simp only [skip]; omega)⟩
  | succ n ih =>
    unfold skip
    split
    · rename_i hvalue
      obtain ⟨hle, hlt, hall, hend⟩ := ih (k + 1)
      refine ⟨by omega, by omega, fun j hj hlt => ?_, fun hlt => hend (by omega)⟩
      rcases Nat.eq_or_lt_of_le hj with rfl | hj
      · exact hvalue
      · exact hall j hj hlt
    · rename_i hvalue
      exact ⟨le_rfl, by omega, fun j hle hlt => absurd hlt (by omega), fun _ => hvalue⟩

theorem candidate_some (h : pool.candidate base alignment needed a b = some k)
    (hfits : needed ≤ b - a) : pool.Starts base alignment needed a b k := by
  have hmem := mem_of_find?_eq_some h
  have haligned := find?_some h
  rw [mem_range'_1] at hmem
  exact ⟨hmem.1, by omega, by simpa [Aligned] using haligned⟩

theorem candidate_none (h : pool.candidate base alignment needed a b = none) :
    ¬ pool.Starts base alignment needed a b k := by
  rintro ⟨hle, hend, haligned⟩
  have hnone := find?_eq_none.mp h k (mem_range'_1.mpr ⟨hle, by omega⟩)
  exact hnone (by simpa [Aligned] using haligned)

/-- The place does not lie inside a free run. -/
def Between (pool : LargeObjectPool) (x : Nat) : Prop :=
  x = 0 ∨ pool.isSegmentSet x = true ∨ pool.isSegmentSet (x - 1) = true ∨
    pool.geometry.segmentCount ≤ x

/-- The best run of those that end up to a place. -/
structure Best (pool : LargeObjectPool) (base alignment needed x : Nat) (best : BestRun) :
    Prop where
  found : (best.start = pool.geometry.segmentCount ∧ best.length = 2 ^ 32 - 1) ∨
    ∃ a b, FreeRun pool a b ∧ pool.Starts base alignment needed a b best.start ∧
      best.length = b - a
  least : ∀ a b k, FreeRun pool a b → b ≤ x → pool.Starts base alignment needed a b k →
    best.start ≠ pool.geometry.segmentCount ∧ best.length ≤ b - a

/-- The free run that ends in a turn of the search is the one that the turn looks at. -/
theorem FreeRun.eq_turn (h : FreeRun pool a b) (hx : Between pool x) (hxb : x < b) (hb : b ≤ k)
    (hxy : x ≤ y) (hset : ∀ j, x ≤ j → j < y → pool.isSegmentSet j = true) (hfree : ∀ j, y ≤ j →
    j < k → pool.isSegmentSet j = false) (hk : k ≤ pool.geometry.segmentCount) : a = y ∧ b = k := by
  have hne := h.nonempty
  have hyb : y < b := by
    by_contra hle
    have htaken := hset (b - 1) (by omega) (by omega)
    rw [h.free (b - 1) (by omega) (by omega)] at htaken
    cases htaken
  have hbk : b = k := by
    rcases h.right with hcount | htaken
    · omega
    by_contra hne
    rw [hfree b hyb.le (by omega)] at htaken
    cases htaken
  refine ⟨?_, hbk⟩
  rcases Nat.lt_trichotomy a y with hlt | heq | hgt
  · -- The run would contain the place before `y`, which is taken or not inside a run.
    exfalso
    rcases Nat.eq_or_lt_of_le hxy with rfl | hxy
    · rcases hx with hzero | htaken | htaken | hcount
      · omega
      · rw [hfree x le_rfl (by omega)] at htaken
        cases htaken
      · rw [h.free (x - 1) (by omega) (by omega)] at htaken
        cases htaken
      · omega
    · have htaken := hset (y - 1) (by omega) (by omega)
      rw [h.free (y - 1) (by omega) (by omega)] at htaken
      cases htaken
  · exact heq
  · exfalso
    rcases h.left with hzero | htaken
    · omega
    · rw [hfree (a - 1) (by omega) (by omega)] at htaken
      cases htaken

/-- A turn that finds no better run. -/
theorem Best.keep (h : Best pool base alignment needed x best)
    (hnew : ∀ a b k, FreeRun pool a b → x < b → b ≤ y → pool.Starts base alignment needed a b k →
      best.start ≠ pool.geometry.segmentCount ∧ best.length ≤ b - a) :
    Best pool base alignment needed y best := by
  refine ⟨h.found, fun a b k hrun hb hstarts => ?_⟩
  by_cases hxb : b ≤ x
  · exact h.least a b k hrun hxb hstarts
  · exact hnew a b k hrun (by omega) hb hstarts

theorem Starts.lt_count (hneeded : 0 < needed) (hrun : FreeRun pool a b)
    (h : pool.Starts base alignment needed a b k) : k < pool.geometry.segmentCount := by
  have hinside := hrun.inside
  have hend := h.2.1
  omega

section

variable (hcount : pool.geometry.segmentCount < 2 ^ 32 - 1) (hneeded : 0 < needed)
include hcount hneeded

/-- A turn that looks at the free run from `a` to `b`. -/
theorem Best.turn
    (h : Best pool base alignment needed x best) (hrun : a < b →
    FreeRun pool a b) (hturn : ∀ a' b', FreeRun pool a' b' → x < b' → b' ≤ y → a' = a ∧ b' = b) :
    Best pool base alignment needed y (if b - a ≥ needed then
        match pool.candidate base alignment needed a b with
        | some start => if b - a < best.length then ⟨start, b - a⟩ else best
        | none => best
      else best) := by
  split
  · rename_i hfits
    have hrun := hrun (by omega)
    have hinside := hrun.inside
    split
    · rename_i start hcandidate
      have hstarts := candidate_some hcandidate hfits
      have hstart := hstarts.lt_count hneeded hrun
      split
      · rename_i hless
        refine ⟨.inr ⟨a, b, hrun, hstarts, rfl⟩, fun a' b' k hrun' hb hstarts' =>
          ⟨hstart.ne, ?_⟩⟩
        by_cases hxb : b' ≤ x
        · exact hless.le.trans (h.least a' b' k hrun' hxb hstarts').2
        · obtain ⟨rfl, rfl⟩ := hturn a' b' hrun' (by omega) hb
          exact le_rfl
      · rename_i hless
        refine h.keep fun a' b' k hrun' hxb hb _ => ?_
        obtain ⟨rfl, rfl⟩ := hturn a' b' hrun' hxb hb
        refine ⟨?_, by omega⟩
        rcases h.found with ⟨-, hlength⟩ | ⟨a', b', hrun', hstarts', -⟩
        · omega
        · exact (hstarts'.lt_count hneeded hrun').ne
    · rename_i hcandidate
      refine h.keep fun a' b' k hrun' hxb hb hstarts => ?_
      obtain ⟨rfl, rfl⟩ := hturn a' b' hrun' hxb hb
      exact (candidate_none hcandidate hstarts).elim
  · rename_i hfits
    refine h.keep fun a' b' k hrun' hxb hb hstarts => ?_
    obtain ⟨rfl, rfl⟩ := hturn a' b' hrun' hxb hb
    have hle := hstarts.1
    have hend := hstarts.2.1
    omega

theorem bestFrom_spec
    (fuel x : Nat) (best : BestRun) (hfuel : pool.geometry.segmentCount ≤ fuel + x)
    (hx : Between pool x) (h : Best pool base alignment needed x best) :
    Best pool base alignment needed pool.geometry.segmentCount
      (pool.bestFrom base alignment needed fuel x best) := by
  induction fuel generalizing x best with
  | zero =>
    refine h.keep fun a b k hrun hxb hb _ => ?_
    omega
  | succ fuel ih =>
    unfold bestFrom
    dsimp only
    split
    · rename_i hlt
      -- `y` is where the taken segments end, and `k` where the free ones behind them do.
      obtain ⟨hxy, hyc, hset, hyend⟩ := skip_spec pool true (pool.geometry.segmentCount - x) x
      generalize pool.skip true (pool.geometry.segmentCount - x) x = y at *
      obtain ⟨hyk, hkc, hfree, hkend⟩ := skip_spec pool false (pool.geometry.segmentCount - y) y
      generalize pool.skip false (pool.geometry.segmentCount - y) y = k at *
      have hempty : k = y → pool.geometry.segmentCount ≤ k := by
        intro heq
        by_contra hlt
        exact hyend (by omega) (by simpa [heq] using hkend (by omega))
      have hright : k < pool.geometry.segmentCount → pool.isSegmentSet k = true :=
        fun hlt => by simpa using hkend (by omega)
      refine ih _ _ (by split <;> omega) ?_ (h.turn hcount hneeded ?_ ?_)
      · by_cases heq : k = y
        · exact .inr (.inr (.inr (by have := hempty heq; omega)))
        · rw [if_neg heq, Nat.add_zero]
          by_cases hend : k < pool.geometry.segmentCount
          · exact .inr (.inl (hright hend))
          · exact .inr (.inr (.inr (by omega)))
      · intro hlt
        refine ⟨hlt, by omega, hfree, ?_, ?_⟩
        · rcases Nat.eq_or_lt_of_le hxy with rfl | hxy
          · rcases hx with hzero | htaken | htaken | hcount
            · exact .inl hzero
            · rw [hfree x le_rfl hlt] at htaken
              cases htaken
            · exact .inr htaken
            · omega
          · exact .inr (hset (y - 1) (by omega) (by omega))
        · by_cases hend : k < pool.geometry.segmentCount
          · exact .inr (hright hend)
          · exact .inl (by omega)
      · intro a b hrun hxb hb
        have hinside := hrun.inside
        refine hrun.eq_turn hx hxb ?_ hxy hset hfree (by omega)
        split at hb
        · rename_i heq
          omega
        · exact hb
    · refine h.keep fun a b k hrun hxb hb _ => ?_
      omega

end

theorem best_spec (base alignment : Nat) (hcount : pool.geometry.segmentCount < 2 ^ 32 - 1)
    (hneeded : 0 < needed) : Best pool base alignment needed pool.geometry.segmentCount
      (pool.bestFrom base alignment needed pool.geometry.segmentCount 0
        ⟨pool.geometry.segmentCount, 2 ^ 32 - 1⟩) := by
  refine bestFrom_spec hcount hneeded _ 0 _ (by omega) (.inl rfl) ⟨.inl ⟨rfl, rfl⟩, ?_⟩
  intro a b k hrun hb
  have := hrun.nonempty
  omega

/-- The extent starts at an aligned place of a free run, and no shorter free run has room for the
object. -/
theorem findExtent_ok (hcount : pool.geometry.segmentCount < 2 ^ 32 - 1) (hneeded : 0 < needed)
    {start : Nat} (h : pool.findExtent base needed alignment = .ok start) :
    ∃ a b, FreeRun pool a b ∧ pool.Starts base alignment needed a b start ∧
      ∀ a' b' k, FreeRun pool a' b' → pool.Starts base alignment needed a' b' k →
        b - a ≤ b' - a' := by
  have hbest := best_spec base alignment hcount hneeded
  simp only [findExtent, Result.unless_eq_ok] at h
  obtain ⟨hne, h⟩ := h
  cases h
  obtain ⟨a, b, hrun, hstarts, hlength⟩ := hbest.found.resolve_left fun hnone => hne hnone.1
  refine ⟨a, b, hrun, hstarts, fun a' b' k hrun' hstarts' => ?_⟩
  have := (hbest.least a' b' k hrun' hrun'.inside hstarts').2
  omega

theorem exists_freeRun (hab : a < b) (hb : b ≤ pool.geometry.segmentCount)
    (hfree : ∀ k, a ≤ k → k < b → pool.isSegmentSet k = false) :
    ∃ a' b', FreeRun pool a' b' ∧ a' ≤ a ∧ b ≤ b' := by
  obtain ⟨hbe, hec, hright, hend⟩ := skip_spec pool false (pool.geometry.segmentCount - b) b
  generalize pool.skip false (pool.geometry.segmentCount - b) b = e at *
  -- The left end is the least place from which on all segments are free.
  have hexists : ∃ l, ∀ k, l ≤ k → k < e → pool.isSegmentSet k = false :=
    ⟨e, fun k hle hlt => absurd hlt (by omega)⟩
  classical
  have hleast : Nat.find hexists ≤ a := Nat.find_min' hexists fun k hle hlt =>
    if hkb : k < b then hfree k hle hkb else hright k (by omega) hlt
  refine ⟨Nat.find hexists, e, ⟨by omega, by omega, Nat.find_spec hexists, ?_, ?_⟩, hleast, hbe⟩
  · rcases Nat.eq_zero_or_pos (Nat.find hexists) with hzero | hpos
    · exact .inl hzero
    · right
      by_contra hnot
      refine Nat.find_min hexists (Nat.sub_lt hpos one_pos) fun k hle hlt => ?_
      rcases Nat.eq_or_lt_of_le hle with rfl | hlt'
      · simpa using hnot
      · exact Nat.find_spec hexists k (by omega) hlt
  · by_cases hlt : e < pool.geometry.segmentCount
    · exact .inr (by simpa using hend (by omega))
    · exact .inl (by omega)

/-- The search fails only when no row of enough free segments starts at an aligned place. -/
theorem findExtent_error (hcount : pool.geometry.segmentCount < 2 ^ 32 - 1) (hneeded : 0 < needed)
    {status : Status} (h : pool.findExtent base needed alignment = .error status)
    (haligned : pool.Aligned base alignment k) (hinside : k + needed ≤ pool.geometry.segmentCount) :
    ∃ j, k ≤ j ∧ j < k + needed ∧ pool.isSegmentSet j = true := by
  by_contra hnone
  have hfree : ∀ j, k ≤ j → j < k + needed → pool.isSegmentSet j = false := by
    intro j hle hlt
    by_contra hset
    exact hnone ⟨j, hle, hlt, by simpa using hset⟩
  obtain ⟨a, b, hrun, ha, hb⟩ := exists_freeRun (by omega) hinside hfree
  have hbest := best_spec base alignment hcount hneeded
  have hfound := (hbest.least a b k hrun hrun.inside ⟨ha, hb, haligned⟩).1
  unfold findExtent at h
  rw [if_neg hfound] at h
  cases h

end Mino.Shm.LargeObjectPool
