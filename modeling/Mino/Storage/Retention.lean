import Mino.Storage.PartitionManifest

/-! # What retention deletes

A plan deletes the segments that are too old or archived, and then the oldest of the others
until the limits on bytes and segments hold. -/

namespace Mino.Storage

open List

structure RetentionPolicy where
  (maxAgeNs maxTotalBytes maxSegmentCount : Option Nat)
  deleteArchivedSegments : Bool

structure RetentionSegment where
  manifest : SegmentManifestEntry
  latestIngestionTimestampNs : Nat
  archiveComplete : Bool
  deriving DecidableEq

/-! `RetentionReason` is a set of flags. -/

def kAge : UInt8 := 1
def kTotalBytes : UInt8 := 2
def kSegmentCount : UInt8 := 4
def kArchiveComplete : UInt8 := 8

structure RetentionDecision where
  segmentId : Nat
  reasons : UInt8

structure RetentionPlan where
  deletions : List RetentionDecision
  (remainingTotalBytes remainingSegmentCount : Nat)
  (byteLimitSatisfied segmentLimitSatisfied : Bool)

def isRetentionEligible (state : SegmentPersistentState) : Bool :=
  state = .sealed ∨ state = .indexed ∨ state = .retained

namespace RetentionPlanner

structure Candidate where
  segment : RetentionSegment
  reasons : UInt8
  selected : Bool

/-- `total_bytes` and `total_count`. -/
structure Totals where
  (bytes count : Nat)

def Totals.add (t : Totals) (s : RetentionSegment) : Totals :=
  ⟨t.bytes + s.manifest.sizeBytes, t.count + 1⟩

def Totals.remove (t : Totals) (s : RetentionSegment) : Totals :=
  ⟨t.bytes - s.manifest.sizeBytes, t.count - 1⟩

def isLive (s : RetentionSegment) : Bool := s.manifest.state ≠ .deleted

/-- The loop over the input: the totals, and the candidates in the order of the input. -/
def collect (ids : List Nat) (t : Totals) (candidates : List RetentionSegment) :
    List RetentionSegment → Result (Totals × List RetentionSegment)
  | [] => .ok (t, candidates)
  | s :: rest => do
    Result.rejectIf (s.manifest.segmentId = 0)
      (invalid "retention input contains invalid segment metadata")
    Result.rejectIf (s.manifest.segmentId ∈ ids)
      (invalid "retention input contains duplicate segment IDs")
    Result.rejectIf (isLive s ∧ s.manifest.sizeBytes > uint64Max - t.bytes)
      (.error .resourceExhausted "retention byte total overflows uint64_t")
    collect (s.manifest.segmentId :: ids) (if isLive s then t.add s else t)
      (if isRetentionEligible s.manifest.state then candidates ++ [s] else candidates) rest

/-- The comparison of the sort. -/
def before (a b : RetentionSegment) : Bool :=
  if a.latestIngestionTimestampNs ≠ b.latestIngestionTimestampNs then
    a.latestIngestionTimestampNs < b.latestIngestionTimestampNs
  else a.manifest.segmentId < b.manifest.segmentId

variable (policy : RetentionPolicy) (nowNs : Nat)

def isAged (s : RetentionSegment) : Bool :=
  policy.maxAgeNs.any fun age => s.latestIngestionTimestampNs ≤ nowNs ∧
    nowNs - s.latestIngestionTimestampNs ≥ age

def isArchived (s : RetentionSegment) : Bool :=
  policy.deleteArchivedSegments && s.archiveComplete

def candidate (s : RetentionSegment) : Candidate :=
  let reasons := (if isAged policy nowNs s then kAge else 0) |||
    if isArchived policy s then kArchiveComplete else 0
  ⟨s, reasons, reasons != 0⟩

/-- The loop that selects by age and archive. -/
def selectDue (t : Totals) : List RetentionSegment → Totals × List Candidate
  | [] => (t, [])
  | s :: rest =>
    let c := candidate policy nowNs s
    let (t, candidates) := selectDue (if c.selected then t.remove s else t) rest
    (t, c :: candidates)

def bytesExcess (t : Totals) : Bool := policy.maxTotalBytes.any fun limit => t.bytes > limit

def countExcess (t : Totals) : Bool := policy.maxSegmentCount.any fun limit => t.count > limit

/-- The loop that selects the oldest while a limit is exceeded. -/
def selectExcess (t : Totals) : List Candidate → Totals × List Candidate
  | [] => (t, [])
  | c :: rest =>
    if !bytesExcess policy t && !countExcess policy t then (t, c :: rest)
    else if c.selected then
      let (t, candidates) := selectExcess t rest
      (t, c :: candidates)
    else
      let reasons := c.reasons ||| (if bytesExcess policy t then kTotalBytes else 0) |||
        if countExcess policy t then kSegmentCount else 0
      let (t, candidates) := selectExcess (t.remove c.segment) rest
      (t, ⟨c.segment, reasons, true⟩ :: candidates)

/-- `RetentionPlanner::Plan`. -/
def plan (segments : List RetentionSegment) : Result RetentionPlan := do
  let (t, eligible) ← collect [] ⟨0, 0⟩ [] segments
  let (t, candidates) := selectDue policy nowNs t (eligible.mergeSort fun a b => !before b a)
  let (t, candidates) := selectExcess policy t candidates
  .ok ⟨(candidates.filter (·.selected)).map fun c => ⟨c.segment.manifest.segmentId, c.reasons⟩,
    t.bytes, t.count, policy.maxTotalBytes.all (t.bytes ≤ ·), policy.maxSegmentCount.all (t.count ≤ ·)⟩

/-! ### The totals -/

def total (segments : List RetentionSegment) : Totals :=
  ⟨(segments.map (·.manifest.sizeBytes)).sum, segments.length⟩

def eligible (segments : List RetentionSegment) : List RetentionSegment :=
  segments.filter fun s => isRetentionEligible s.manifest.state

/-- The segments that stay when `gone` is deleted. -/
def left (segments gone : List RetentionSegment) : List RetentionSegment :=
  segments.filter fun s => isLive s ∧ s ∉ gone

variable {segments gone sorted : List RetentionSegment} {t : Totals}

theorem foldl_add : segments.foldl Totals.add t =
    ⟨t.bytes + (total segments).bytes, t.count + segments.length⟩ := by
  induction segments generalizing t with
  | nil => rfl
  | cons s rest ih =>
    rw [foldl_cons, ih]
    simp [total, Totals.add, Nat.add_assoc, Nat.add_comm 1]

theorem foldl_remove : gone.foldl Totals.remove t =
    ⟨t.bytes - (total gone).bytes, t.count - gone.length⟩ := by
  induction gone generalizing t with
  | nil => rfl
  | cons s rest ih =>
    rw [foldl_cons, ih]
    simp [total, Totals.remove, Nat.sub_sub, Nat.add_comm]

theorem total_left (hsegments : segments.Nodup) (hgone : gone.Nodup)
    (hlive : gone ⊆ segments.filter isLive) :
    gone.foldl Totals.remove (total (segments.filter isLive)) = total (left segments gone) := by
  have hperm : (segments.filter isLive).Perm (gone ++ left segments gone) := by
    refine (perm_ext_iff_of_nodup (hsegments.filter _) ?_).mpr fun s => ?_
    · refine nodup_append.mpr ⟨hgone, hsegments.filter _, fun s hs r hr heq => ?_⟩
      simp [left, ← heq, hs] at hr
    · have := @hlive s
      simp only [left, mem_append, mem_filter, decide_eq_true_eq] at this ⊢
      tauto
  rw [foldl_remove]
  simp [total, (hperm.map _).sum_nat, hperm.length_eq]

theorem collect_spec {ids candidates} (hids : (segments.map (·.manifest.segmentId)).Nodup)
    (hnew : ∀ s ∈ segments, s.manifest.segmentId ∉ ids) :
    match collect ids t candidates segments with
    | .error _ => (∃ s ∈ segments, s.manifest.segmentId = 0) ∨
      uint64Max < ((segments.filter isLive).foldl Totals.add t).bytes
    | .ok r => r = ((segments.filter isLive).foldl Totals.add t, candidates ++ eligible segments) := by
  induction segments generalizing ids t candidates with
  | nil => simp [collect, eligible]
  | cons s rest ih =>
    rw [map_cons, nodup_cons] at hids
    obtain ⟨hfresh, hnew⟩ := forall_mem_cons.mp hnew
    have hfold : ((s :: rest).filter isLive).foldl Totals.add t =
        (rest.filter isLive).foldl Totals.add (if isLive s then t.add s else t) := by
      rw [filter_cons]
      split <;> rfl
    by_cases hzero : s.manifest.segmentId = 0
    · simp only [collect, Result.rejectIf, if_pos hzero]
      exact .inl ⟨s, mem_cons_self, hzero⟩
    simp only [collect, Result.rejectIf, if_neg hzero, if_neg hfresh, bind, Except.bind, hfold]
    by_cases hover : isLive s = true ∧ s.manifest.sizeBytes > uint64Max - t.bytes
    · rw [if_pos hover, if_pos hover.1, foldl_add]
      refine .inr ?_
      dsimp only [Totals.add]
      omega
    rw [if_neg hover]
    have hrest := @ih (if isLive s then t.add s else t) (s.manifest.segmentId :: ids)
      (if isRetentionEligible s.manifest.state then candidates ++ [s] else candidates) hids.2
      fun r hr => by
        rw [mem_cons, not_or]
        exact ⟨fun heq => hids.1 (heq ▸ mem_map_of_mem hr), hnew r hr⟩
    dsimp only
    generalize collect _ _ _ rest = r at hrest ⊢
    cases r with
    | error _ => exact hrest.imp_left (Exists.imp fun _ => And.imp_left (mem_cons_of_mem s))
    | ok r =>
      refine hrest.trans ?_
      by_cases heligible : isRetentionEligible s.manifest.state = true <;> simp [eligible, heligible]

/-- Age or archive say that the segment goes. -/
def isDue (s : RetentionSegment) : Bool := isAged policy nowNs s || isArchived policy s

variable {policy nowNs}

theorem candidate_selected (s : RetentionSegment) :
    (candidate policy nowNs s).selected = isDue policy nowNs s := by
  unfold candidate isDue
  cases isAged policy nowNs s <;> cases isArchived policy s <;> rfl

theorem selectDue_eq : selectDue policy nowNs t segments =
    ((segments.filter (isDue policy nowNs)).foldl Totals.remove t,
      segments.map (candidate policy nowNs)) := by
  induction segments generalizing t with
  | nil => rfl
  | cons s rest ih =>
    simp only [selectDue, ih, candidate_selected, filter_cons, map_cons]
    split <;> rfl

/-- Both limits hold. -/
def Within (policy : RetentionPolicy) (t : Totals) : Prop :=
  (∀ limit ∈ policy.maxTotalBytes, t.bytes ≤ limit) ∧
    ∀ limit ∈ policy.maxSegmentCount, t.count ≤ limit

theorem within_iff : Within policy t ↔ (!bytesExcess policy t && !countExcess policy t) = true := by
  unfold Within bytesExcess countExcess
  cases policy.maxTotalBytes <;> cases policy.maxSegmentCount <;> simp

theorem selectExcess_spec (t : Totals) (candidates : List Candidate) :
    let rest := (candidates.filter (!·.selected)).map (·.segment)
    let result := selectExcess policy t candidates
    ∃ n, result.1 = (rest.take n).foldl Totals.remove t ∧
      ((result.2.filter (·.selected)).map (·.segment)).Perm
        ((candidates.filter (·.selected)).map (·.segment) ++ rest.take n) ∧
      (∀ k < n, ¬ Within policy ((rest.take k).foldl Totals.remove t)) ∧
      (Within policy result.1 ∨ rest.length ≤ n) := by
  induction candidates generalizing t with
  | nil => exact ⟨0, rfl, .refl _, nofun, .inr le_rfl⟩
  | cons c rest ih =>
    simp only [selectExcess]
    split
    · rename_i hwithin
      exact ⟨0, rfl, by simp, nofun, .inl (within_iff.mpr hwithin)⟩
    rename_i hexcess
    rw [← within_iff] at hexcess
    split
    · rename_i hselected
      obtain ⟨n, htotals, hperm, hleast, hend⟩ := ih t
      simp only [filter_cons, hselected, if_true, map_cons, Bool.not_true, Bool.false_eq_true,
        if_false]
      exact ⟨n, htotals, hperm.cons _, hleast, hend⟩
    · rename_i hselected
      obtain ⟨n, htotals, hperm, hleast, hend⟩ := ih (t.remove c.segment)
      simp only [filter_cons, hselected, if_true, map_cons, Bool.not_false, Bool.false_eq_true,
        if_false]
      refine ⟨n + 1, htotals, (hperm.cons _).trans perm_middle.symm, fun k hk => ?_,
        hend.imp_right fun hle => Nat.succ_le_succ hle⟩
      cases k with
      | zero => exact hexcess
      | succ k => exact hleast k (Nat.lt_of_succ_lt_succ hk)

theorem isLive_of_eligible {s} (h : isRetentionEligible s.manifest.state = true) :
    isLive s = true := by
  unfold isLive
  cases hstate : s.manifest.state <;> simp_all [isRetentionEligible]

theorem pairwise_before (hids : (segments.map (·.manifest.segmentId)).Nodup) :
    (segments.mergeSort fun a b => !before b a).Pairwise (before · ·) := by
  have hsorted := @pairwise_mergeSort _ (fun a b => !before b a)
    (fun a b c => by unfold before; grind) (fun a b => by unfold before; grind) segments
  have hne : ((segments.mergeSort fun a b => !before b a).map (·.manifest.segmentId)).Nodup :=
    ((mergeSort_perm segments _).map _).nodup_iff.mpr hids
  refine (hsorted.and (pairwise_map.mp hne)).imp fun {a b} h => ?_
  unfold before at *
  grind

/-- What the loops take from the totals is what the segments they select have. -/
theorem foldl_selected (hperm : sorted.Perm (eligible segments)) (hsegments : segments.Nodup)
    (due : RetentionSegment → Bool) (n : Nat) :
    let gone := sorted.filter due ++ (sorted.filter (!due ·)).take n
    gone.foldl Totals.remove (total (segments.filter isLive)) = total (left segments gone) := by
  intro gone
  have hboth := (filter_append_perm due sorted).trans hperm
  have hsub : gone.Sublist _ := (take_sublist n _).append_left _
  refine total_left hsegments (hsub.nodup (hboth.nodup_iff.mpr (hsegments.filter _))) fun s hs => ?_
  obtain ⟨hs, heligible⟩ := mem_filter.mp (hboth.subset (hsub.subset hs))
  exact mem_filter.mpr ⟨hs, isLive_of_eligible heligible⟩

theorem filter_candidates (p : Bool → Bool) :
    ((sorted.map (candidate policy nowNs)).filter (p ·.selected)).map (·.segment) =
      sorted.filter fun s => p (isDue policy nowNs s) := by
  rw [filter_map, map_map]
  simp only [Function.comp_def, candidate_selected]
  exact map_id _

/-- A plan deletes what is due and the shortest part of the rest, oldest first, with which the
limits hold. -/
theorem plan_exact (policy : RetentionPolicy) (nowNs : Nat) {segments : List RetentionSegment}
    (hids : (segments.map (·.manifest.segmentId)).Nodup) :
    match plan policy nowNs segments with
    | .error _ => (∃ s ∈ segments, s.manifest.segmentId = 0) ∨
      uint64Max < (total (segments.filter isLive)).bytes
    | .ok p => ∃ (due rest : List RetentionSegment) (n : Nat),
      due.Perm ((eligible segments).filter (isDue policy nowNs)) ∧
      rest.Perm ((eligible segments).filter (!isDue policy nowNs ·)) ∧ rest.Pairwise (before · ·) ∧
      (p.deletions.map (·.segmentId)).Perm ((due ++ rest.take n).map (·.manifest.segmentId)) ∧
      (∀ k < n, ¬ Within policy (total (left segments (due ++ rest.take k)))) ∧
      (Within policy (total (left segments (due ++ rest.take n))) ∨ rest.length ≤ n) ∧
      ⟨p.remainingTotalBytes, p.remainingSegmentCount⟩ =
        total (left segments (due ++ rest.take n)) ∧
      (p.byteLimitSatisfied = true ↔
        ∀ limit ∈ policy.maxTotalBytes, p.remainingTotalBytes ≤ limit) ∧
      (p.segmentLimitSatisfied = true ↔
        ∀ limit ∈ policy.maxSegmentCount, p.remainingSegmentCount ≤ limit) := by
  have hcollect := @collect_spec segments ⟨0, 0⟩ [] [] hids fun _ _ => not_mem_nil
  have hsegments : segments.Nodup := (pairwise_map.mp hids).imp fun h heq => h (by rw [heq])
  unfold plan
  cases hr : collect [] ⟨0, 0⟩ [] segments with
  | error _ =>
    rw [hr, foldl_add, Nat.zero_add] at hcollect
    exact hcollect
  | ok r =>
    rw [hr, foldl_add, nil_append] at hcollect
    subst hcollect
    simp only [bind, Except.bind, selectDue_eq, Nat.zero_add]
    have hperm := mergeSort_perm (eligible segments) fun a b => !before b a
    have horder := pairwise_before (hids.sublist (filter_sublist.map _) : ((eligible segments).map _).Nodup)
    generalize (eligible segments).mergeSort (fun a b => !before b a) = sorted at *
    obtain ⟨n, htotals, hgone, hleast, hend⟩ := @selectExcess_spec policy
      ((sorted.filter (isDue policy nowNs)).foldl Totals.remove (total (segments.filter isLive)))
      (sorted.map (candidate policy nowNs))
    simp only [filter_candidates (!·), ← foldl_append] at htotals hgone hleast hend
    simp only [foldl_selected hperm hsegments] at htotals hleast
    have hdue := @filter_candidates policy nowNs sorted id
    dsimp only [id] at hdue
    rw [hdue] at hgone
    refine ⟨_, _, n, hperm.filter _, hperm.filter _, horder.filter _, ?_, hleast, ?_, ?_, ?_, ?_⟩
    · have hids := hgone.map (·.manifest.segmentId)
      rw [map_map] at hids ⊢
      exact hids
    · rwa [← htotals]
    · exact htotals
    all_goals simp [Option.all_eq_true]

def twoSegments : List RetentionSegment :=
  [2, 1].map fun id => ⟨⟨id, .sealed, 0, 0, 0, 0, 10, ""⟩, 0, false⟩

theorem plan_exact_two : ∃ p, plan ⟨none, none, some 1, false⟩ 0 twoSegments = .ok p ∧
    (p.segmentLimitSatisfied = true ↔ p.remainingSegmentCount ≤ 1) := by
  have hplan := @plan_exact ⟨none, none, some 1, false⟩ 0 twoSegments (by decide)
  cases h : plan ⟨none, none, some 1, false⟩ 0 twoSegments with
  | error _ =>
    rw [h] at hplan
    rcases hplan with hzero | hover
    · exact absurd hzero (by decide)
    · exact absurd hover (by decide)
  | ok p =>
    rw [h] at hplan
    obtain ⟨-, -, -, -, -, -, -, -, -, -, -, hlimit⟩ := hplan
    exact ⟨p, rfl, by simpa using hlimit⟩

end RetentionPlanner

end Mino.Storage
