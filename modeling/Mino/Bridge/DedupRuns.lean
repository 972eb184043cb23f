import Mino.Bridge.DedupOperations

/-! # Runs of the deduplication cache

Arbitrary sequences of calls on one window. An entry of a source may be purged,
evicted, cleared or seeded anew; as long as none of that happens the accepted
sequences of the source are never accepted again, and a sequence inside the
window that was never committed always is. -/

namespace Mino.Bridge.DedupWindow

inductive Op where
  | beginSession (epoch nowNs : Nat) (preserveState : Bool)
  | check (epoch : Nat) (source : SourceIdentity) (sequence nowNs : Nat)
  | prepareSource (epoch : Nat) (source : SourceIdentity) (nowNs : Nat)
  | commitAccepted (epoch : Nat) (source : SourceIdentity) (sequence nowNs : Nat)
  | seedAccepted (epoch : Nat) (source : SourceIdentity) (highest nowNs : Nat)
  | purgeExpired (nowNs : Nat)
  deriving DecidableEq, Repr

def step (w : DedupWindow) : Op → DedupWindow
  | .beginSession epoch nowNs preserve => w.beginSession epoch nowNs preserve
  | .check epoch source n nowNs => (w.check epoch source n nowNs).2
  | .prepareSource epoch source nowNs => (w.prepareSource epoch source nowNs).2
  | .commitAccepted epoch source n nowNs => (w.commitAccepted epoch source n nowNs).2
  | .seedAccepted epoch source highest nowNs => (w.seedAccepted epoch source highest nowNs).2
  | .purgeExpired nowNs => w.purgeExpired nowNs

def run (w : DedupWindow) (ops : List Op) : DedupWindow := ops.foldl step w

/-- The time of the purge a call makes before it looks at its source, if it gets there. -/
def purgeTime (w : DedupWindow) : Op → Option Nat
  | .beginSession .. => none
  | .check epoch _ n nowNs | .commitAccepted epoch _ n nowNs =>
    if w.stale epoch || n == 0 then none else some nowNs
  | .prepareSource epoch _ nowNs | .seedAccepted epoch _ _ nowNs =>
    if w.stale epoch then none else some nowNs
  | .purgeExpired nowNs => some nowNs

def reseeds (w : DedupWindow) (source : SourceIdentity) : Op → Bool
  | .seedAccepted epoch s _ _ => !w.stale epoch && s == source
  | _ => false

/-- The call neither expires, evicts, clears nor seeds the entry of the source. -/
def keeps (w : DedupWindow) (source : SourceIdentity) (op : Op) : Bool :=
  (w.purgeTime op).all (fun nowNs => ((w.purgeExpired nowNs).find source).isSome) &&
    !w.reseeds source op && ((w.step op).find source).isSome

/-- The sources whose entry the call does not keep. -/
def forgets (w : DedupWindow) (op : Op) : List SourceIdentity :=
  (w.entries.map SourceState.source).filter fun source => !w.keeps source op

def keepsAll (source : SourceIdentity) : DedupWindow → List Op → Bool
  | _, [] => true
  | w, op :: ops => w.keeps source op && keepsAll source (w.step op) ops

/-- The call is a commit of the sequence that returns OK. -/
def commits (w : DedupWindow) (source : SourceIdentity) (n : Nat) : Op → Bool
  | .commitAccepted epoch s m nowNs =>
    s == source && m == n && (w.commitAccepted epoch s m nowNs).1.ok
  | _ => false

def committedIn (source : SourceIdentity) (n : Nat) : DedupWindow → List Op → Bool
  | _, [] => false
  | w, op :: ops => w.commits source n op || committedIn source n (w.step op) ops

variable {w w' : DedupWindow} {source s : SourceIdentity} {n epoch nowNs : Nat} {ops : List Op}

theorem Valid.step (hw : w.Valid) (op : Op) : (w.step op).Valid := by
  cases op with
  | beginSession epoch nowNs preserve => exact hw.beginSession ..
  | check epoch source n nowNs => exact (hw.check ..).1
  | prepareSource epoch source nowNs => exact (hw.prepareSource ..).1
  | commitAccepted epoch source n nowNs => exact (hw.commitAccepted ..).1
  | seedAccepted epoch source highest nowNs => exact (hw.seedAccepted ..).1
  | purgeExpired nowNs => exact hw.purgeExpired _

theorem Valid.run (hw : w.Valid) (ops : List Op) : (w.run ops).Valid := by
  induction ops generalizing w with
  | nil => exact hw
  | cons op ops ih => exact ih (hw.step op)

theorem Valid.step_options (hw : w.Valid) (op : Op) : (w.step op).options = w.options := by
  cases op with
  | beginSession epoch nowNs preserve => exact beginSession_options ..
  | check epoch source n nowNs => exact (hw.check ..).2.1.options
  | prepareSource epoch source nowNs => exact (hw.prepareSource ..).2.options
  | commitAccepted epoch source n nowNs => exact (hw.commitAccepted ..).2.options
  | seedAccepted epoch source highest nowNs => exact (hw.seedAccepted ..).2.options
  | purgeExpired nowNs => exact (hw.purgeExpired_frame _).options

theorem Valid.run_options (hw : w.Valid) (ops : List Op) : (w.run ops).options = w.options := by
  induction ops generalizing w with
  | nil => rfl
  | cons op ops ih => exact (ih (hw.step op)).trans (hw.step_options op)

/-- Between calls the memory is accounted exactly and within its limits. -/
theorem run_within_limits {options : DedupWindowOptions} {w : DedupWindow}
    (h : create options = .ok w) (ops : List Op) :
    (w.run ops).Valid ∧ (w.run ops).options = options := by
  obtain ⟨hw, rfl, -⟩ := create_valid h
  exact ⟨hw.run ops, hw.run_options ops⟩

/-- A window for one source, whose entry expires and makes room for another one. -/
theorem run_within_limits_expired : ∃ w, create ⟨1, 1024, 70, 100⟩ = .ok w ∧
    let ops := [.beginSession 7 0 false, .commitAccepted 7 ⟨1, 1, 1⟩ 66 1, .purgeExpired 200,
      .commitAccepted 7 ⟨2, 1, 1⟩ 1 201]
    (w.run ops).find ⟨1, 1, 1⟩ = none ∧ ((w.run ops).find ⟨2, 1, 1⟩).isSome ∧ (w.run ops).Valid :=
  have h : create ⟨1, 1024, 70, 100⟩ = .ok _ := rfl
  ⟨_, h, by decide, by decide, (run_within_limits h _).1⟩

/-- A retained entry keeps its accepted set when it is found again. -/
theorem Retains.covers_of_isSome (h : Retains w w')
    (hs : (w'.find source).isSome) (hc : w.Covers source n) : w'.Covers source n := by
  obtain ⟨state', hfind'⟩ := Option.isSome_iff_exists.mp hs
  obtain ⟨state, hfind, hsame⟩ := h source state' hfind'
  obtain ⟨state₀, hfind₀, hcov⟩ := hc
  rw [hfind] at hfind₀
  cases hfind₀
  exact ⟨state', hfind', (hsame.covers_iff n).mpr hcov⟩

/-- A commit forgets nothing of an entry that outlives its purge. -/
theorem Valid.commitAccepted_keeps (hw : w.Valid) {m} (hn : 1 ≤ n)
    (hk : w.keeps source (.commitAccepted epoch s m nowNs) = true) (hc : w.Covers source n) :
    (w.commitAccepted epoch s m nowNs).2.Covers source n := by
  simp only [keeps, Bool.and_eq_true] at hk
  obtain ⟨⟨hpurge, -⟩, hsome⟩ := hk
  cases hok : (w.commitAccepted epoch s m nowNs).1.ok with
  | false => exact (hw.commitAccepted_error hok).covers_of_isSome hsome hc
  | true =>
    by_cases hs : source = s
    · subst hs
      have hact : (w.stale epoch || m == 0) = false := by
        rcases hw.commitAccepted_cases epoch source m nowNs with
          ⟨hbad, -⟩ | ⟨hst, hm, -⟩ | ⟨hst, hm, -⟩
        · rw [hok] at hbad
          cases hbad
        · simp [hst, hm]
        · simp [hst, hm]
      simp only [purgeTime, hact, Bool.false_eq_true, if_false, Option.all_some] at hpurge
      obtain ⟨state, hstate, hiff, -⟩ := hw.commitAccepted_self hok
      have hold := (hw.purgeExpired_retains nowNs).covers_of_isSome hpurge hc
      exact ⟨state, hstate, (hiff n hn).mpr (.inl hold)⟩
    · obtain ⟨state, hstate⟩ := Option.isSome_iff_exists.mp hsome
      have hold := hw.commitAccepted_other hs hstate
      obtain ⟨state₀, hfind₀, hcov⟩ := hc
      rw [hold] at hfind₀
      cases hfind₀
      exact ⟨state, hstate, hcov⟩

theorem Valid.step_keeps (hw : w.Valid) (hn : 1 ≤ n) {op} (hk : w.keeps source op = true)
    (hc : w.Covers source n) : (w.step op).Covers source n := by
  have hkeep := hk
  simp only [keeps, Bool.and_eq_true, Bool.not_eq_true'] at hk
  obtain ⟨⟨hpurge, hseed⟩, hsome⟩ := hk
  cases op with
  | beginSession epoch nowNs preserve =>
    exact (beginSession_retains w epoch nowNs preserve).covers_of_isSome hsome hc
  | check epoch s m nowNs => exact (hw.check epoch s m nowNs).2.2.covers_of_isSome hsome hc
  | purgeExpired nowNs => exact (hw.purgeExpired_retains nowNs).covers_of_isSome hsome hc
  | commitAccepted epoch s m nowNs => exact hw.commitAccepted_keeps hn hkeep hc
  | prepareSource epoch s nowNs =>
    obtain ⟨state', hfind'⟩ := Option.isSome_iff_exists.mp hsome
    rcases hw.find_prepareSource hfind' with ⟨state, hfind, hsame⟩ | ⟨rfl, hnone, -⟩
    · obtain ⟨state₀, hfind₀, hcov⟩ := hc
      rw [hfind] at hfind₀
      cases hfind₀
      exact ⟨state', hfind', (hsame.covers_iff n).mpr hcov⟩
    · -- the entry was purged and made anew, which `keeps` excludes
      cases hst : w.stale epoch with
      | true =>
        simp only [DedupWindow.step, DedupWindow.prepareSource, hst, if_true] at hfind' ⊢
        exact hc
      | false => simp [purgeTime, hst, hnone] at hpurge
  | seedAccepted epoch s highest nowNs =>
    obtain ⟨state', hfind'⟩ := Option.isSome_iff_exists.mp hsome
    cases hst : w.stale epoch with
    | true =>
      simp only [DedupWindow.step, DedupWindow.seedAccepted, hst, if_true] at hfind' ⊢
      exact hc
    | false =>
      have hne : source ≠ s := by
        rintro rfl
        simp [reseeds, hst] at hseed
      have hfind := hw.seedAccepted_other hne hfind'
      obtain ⟨state₀, hfind₀, hcov⟩ := hc
      rw [hfind] at hfind₀
      cases hfind₀
      exact ⟨state', hfind', hcov⟩

theorem Valid.run_keeps (hw : w.Valid) (hn : 1 ≤ n)
    (hk : keepsAll source w ops = true) (hc : w.Covers source n) : (w.run ops).Covers source n := by
  induction ops generalizing w with
  | nil => exact hc
  | cons op ops ih =>
    simp only [keepsAll, Bool.and_eq_true] at hk
    exact ih (hw.step op) hk.2 (hw.step_keeps hn hk.1 hc)

/-- The sequence has no gap bit: only the mark can make it count as accepted. -/
def OnlyByMark (w : DedupWindow) (source : SourceIdentity) (n : Nat) : Prop :=
  ∀ state, w.find source = some state → state.Covers n → n ≤ state.highestContiguousSequence

theorem Retains.onlyByMark (h : Retains w w') (ho : w.OnlyByMark source n) :
    w'.OnlyByMark source n := by
  intro state' hfind' hcov
  obtain ⟨state, hfind, hsame⟩ := h source state' hfind'
  rw [hsame.1]
  exact ho state hfind ((hsame.covers_iff n).mp hcov)

theorem Valid.commitAccepted_onlyByMark (hw : w.Valid) {m} (hn : 1 ≤ n)
    (hc : w.commits source n (.commitAccepted epoch s m nowNs) = false) (ho : w.OnlyByMark source n) :
    (w.commitAccepted epoch s m nowNs).2.OnlyByMark source n := by
  cases hok : (w.commitAccepted epoch s m nowNs).1.ok with
  | false => exact (hw.commitAccepted_error hok).onlyByMark ho
  | true =>
    intro state' hfind' hcov
    by_cases hs : source = s
    · subst hs
      obtain ⟨state, hstate, hiff, hmark⟩ := hw.commitAccepted_self hok
      rw [hfind'] at hstate
      cases hstate
      have hne : n ≠ m := by
        rintro rfl
        simp [commits, hok] at hc
      obtain ⟨old, hold, hcovold⟩ := ((hiff n hn).mp hcov).resolve_right hne
      have hle := (hw.purgeExpired_retains nowNs).onlyByMark ho old hold hcovold
      rw [mark, hold] at hmark
      exact Nat.le_trans hle hmark
    · exact ho state' (hw.commitAccepted_other hs hfind') hcov

theorem Valid.step_onlyByMark (hw : w.Valid) (hn : 1 ≤ n) {op} (hc : w.commits source n op =
    false) (ho : w.OnlyByMark source n) : (w.step op).OnlyByMark source n := by
  cases op with
  | beginSession epoch nowNs preserve =>
    exact (beginSession_retains w epoch nowNs preserve).onlyByMark ho
  | check epoch s m nowNs => exact (hw.check epoch s m nowNs).2.2.onlyByMark ho
  | purgeExpired nowNs => exact (hw.purgeExpired_retains nowNs).onlyByMark ho
  | commitAccepted epoch s m nowNs => exact hw.commitAccepted_onlyByMark hn hc ho
  | prepareSource epoch s nowNs =>
    intro state' hfind' hcov
    rcases hw.find_prepareSource hfind' with ⟨state, hfind, hsame⟩ | ⟨-, -, rfl⟩
    · rw [hsame.1]
      exact ho state hfind ((hsame.covers_iff n).mp hcov)
    · exact (newSource_covers ..).mp hcov
  | seedAccepted epoch s highest nowNs =>
    intro state' hfind' hcov
    cases hst : w.stale epoch with
    | true =>
      simp only [DedupWindow.step, DedupWindow.seedAccepted, hst, if_true] at hfind'
      exact ho state' hfind' hcov
    | false =>
      by_cases hs : source = s
      · subst hs
        obtain ⟨state, hstate, hhigh, hiff⟩ := hw.seedAccepted_self hst source highest nowNs
        change (w.seedAccepted epoch source highest nowNs).2.find source = some state' at hfind'
        rw [hfind'] at hstate
        cases hstate
        rw [hhigh]
        exact (hiff n).mp hcov
      · exact ho state' (hw.seedAccepted_other hs hfind') hcov

theorem Valid.run_onlyByMark (hw : w.Valid) (hn : 1 ≤ n)
    (hc : committedIn source n w ops = false) (ho : w.OnlyByMark source n) :
    (w.run ops).OnlyByMark source n := by
  induction ops generalizing w with
  | nil => exact ho
  | cons op ops ih =>
    simp only [committedIn, Bool.or_eq_false_iff] at hc
    exact ih (hw.step op) hc.2 (hw.step_onlyByMark hn hc.1 ho)

/-- A covered sequence is answered as a duplicate or with the mark. -/
theorem check_of_covers (hs : w.stale epoch = false) (hn : 1 ≤ n)
    (hc : (w.purgeExpired nowNs).Covers source n) : ∃ highest,
      (w.check epoch source n nowNs).1 = .ok ⟨.duplicateAccepted, some highest⟩ ∨
      (w.check epoch source n nowNs).1 = .ok ⟨.nackWithHighest, some highest⟩ := by
  obtain ⟨state, hstate, hcov⟩ := hc
  rcases check_cases w epoch source n nowNs with
    ⟨hst, -⟩ | ⟨-, h0, -⟩ | ⟨-, -, hnone, -⟩ | ⟨-, -, state', hstate', h⟩
  · simp [hs] at hst
  · omega
  · simp [hstate] at hnone
  rw [hstate] at hstate'
  cases hstate'
  have hhigh := classify_highest (w.purgeExpired nowNs).options state n
  refine ⟨state.highestContiguousSequence, ?_⟩
  rw [h]
  rcases classify_of_covers (w.purgeExpired nowNs).options hcov with hd | hd
  · exact .inl (congrArg Except.ok (by rw [← hd, ← hhigh]))
  · exact .inr (congrArg Except.ok (by rw [← hd, ← hhigh]))

/-- A sequence above the mark, inside the window and without a gap bit is accepted. -/
theorem Valid.check_accepts (hw : w.Valid) (hs : w.stale epoch = false)
    (ho : (w.purgeExpired nowNs).OnlyByMark source n)
    (hpos : (w.purgeExpired nowNs).mark source < n)
    (hd : n - (w.purgeExpired nowNs).mark source ≤ w.options.maxSequenceDistance) :
    (w.check epoch source n nowNs).1 =
      .ok ⟨.accept, some ((w.purgeExpired nowNs).mark source)⟩ := by
  have hopt := (hw.purgeExpired_frame nowNs).options
  rcases check_cases w epoch source n nowNs with
    ⟨hst, -⟩ | ⟨-, h0, -⟩ | ⟨-, -, hnone, h⟩ | ⟨-, -, state, hstate, h⟩
  · simp [hs] at hst
  · omega
  · have hmark : (w.purgeExpired nowNs).mark source = 0 := by simp [mark, hnone]
    rw [hmark] at hd ⊢
    rw [h, hopt, if_neg (by omega)]
  have hmark : (w.purgeExpired nowNs).mark source = state.highestContiguousSequence := by
    simp [mark, hstate]
  rw [hmark] at hpos hd ⊢
  have hacc : (classify (w.purgeExpired nowNs).options state n).decision = .accept := by
    refine classify_accept_iff.mpr ⟨hpos, by rw [hopt]; exact hd, ?_⟩
    intro hcov
    have := ho state hstate hcov
    omega
  have hhigh := classify_highest (w.purgeExpired nowNs).options state n
  rw [h]
  exact congrArg Except.ok (by rw [← hacc, ← hhigh])

/-- At most once. In any run, a sequence whose commit returned OK is not accepted
again while the entry of its source is kept, and a sequence that was never
committed is accepted whenever it lies inside the window above the mark. -/
theorem run_accepts_at_most_once {options : DedupWindowOptions} {w₀ : DedupWindow}
    (h₀ : create options = .ok w₀) (source : SourceIdentity) (n : Nat) :
    (∀ (before : List Op) (epoch nowNs : Nat) (after : List Op),
      ((w₀.run before).commitAccepted epoch source n nowNs).1.ok = true →
      keepsAll source ((w₀.run before).commitAccepted epoch source n nowNs).2 after = true →
      ∀ epoch' nowNs',
        let w := ((w₀.run before).commitAccepted epoch source n nowNs).2.run after
        w.stale epoch' = false → w.keeps source (.check epoch' source n nowNs') = true →
        ∃ highest, (w.check epoch' source n nowNs').1 = .ok ⟨.duplicateAccepted, some highest⟩ ∨
          (w.check epoch' source n nowNs').1 = .ok ⟨.nackWithHighest, some highest⟩) ∧
    (∀ (ops : List Op) (epoch nowNs : Nat),
      committedIn source n w₀ ops = false → (w₀.run ops).stale epoch = false →
      let mark := ((w₀.run ops).purgeExpired nowNs).mark source
      0 < n - mark → n - mark ≤ options.maxSequenceDistance →
      ((w₀.run ops).check epoch source n nowNs).1 = .ok ⟨.accept, some mark⟩) := by
  obtain ⟨hv₀, hopt, hempty⟩ := create_valid h₀
  constructor
  · intro before epoch nowNs after hok hkeeps epoch' nowNs' w hactive hcheck
    have hv := hv₀.run before
    have hv₁ := (hv.commitAccepted epoch source n nowNs).1
    have hn : 1 ≤ n := by
      rcases hv.commitAccepted_cases epoch source n nowNs with ⟨hbad, -⟩ | ⟨-, h, -⟩ | ⟨-, h, -⟩
      · rw [hok] at hbad
        cases hbad
      · omega
      · omega
    obtain ⟨state, hstate, hiff, -⟩ := hv.commitAccepted_self hok
    have hcov := hv₁.run_keeps hn hkeeps ⟨state, hstate, (hiff n hn).mpr (.inr rfl)⟩
    have hvw : w.Valid := hv₁.run after
    refine check_of_covers hactive hn ?_
    simp only [keeps, purgeTime, hactive, Bool.false_or, Bool.and_eq_true] at hcheck
    rw [if_neg (by simp; omega), Option.all_some] at hcheck
    exact (hvw.purgeExpired_retains nowNs').covers_of_isSome hcheck.1.1 hcov
  · intro ops epoch nowNs hnever hactive mark hpos hd
    have hv := hv₀.run ops
    have ho₀ : w₀.OnlyByMark source n := by
      intro state hfind
      have := (hv₀.find_eq_some_iff.mp hfind).1
      simp [hempty] at this
    have ho := (hv.purgeExpired_retains nowNs).onlyByMark (hv₀.run_onlyByMark (by omega) hnever ho₀)
    refine hv.check_accepts hactive ho (by omega) ?_
    rw [hv₀.run_options, hopt]
    exact hd

/-- A window of two words; 66 is committed out of order, 70 is not committed. -/
theorem run_accepts_at_most_once_two_words : ∃ w₀, create ⟨4, 1024, 70, 100⟩ = .ok w₀ ∧ (∃ highest,
        let w := ((w₀.run [.beginSession 7 0 false]).commitAccepted 7 ⟨1, 1, 1⟩ 66 1).2.run
          [.prepareSource 7 ⟨2, 1, 1⟩ 2]
        (w.check 7 ⟨1, 1, 1⟩ 66 3).1 = .ok ⟨.duplicateAccepted, some highest⟩ ∨
        (w.check 7 ⟨1, 1, 1⟩ 66 3).1 = .ok ⟨.nackWithHighest, some highest⟩) ∧
      ((w₀.run [.beginSession 7 0 false, .commitAccepted 7 ⟨1, 1, 1⟩ 66 1]).check 7
        ⟨1, 1, 1⟩ 70 3).1 = .ok ⟨.accept, some 0⟩ :=
  have h₀ : create ⟨4, 1024, 70, 100⟩ = .ok _ := rfl
  ⟨_, h₀, (run_accepts_at_most_once h₀ ⟨1, 1, 1⟩ 66).1 [.beginSession 7 0 false] 7 1
      [.prepareSource 7 ⟨2, 1, 1⟩ 2] (by decide) (by decide) 7 3 (by decide) (by decide),
    (run_accepts_at_most_once h₀ ⟨1, 1, 1⟩ 70).2 [.beginSession 7 0 false,
      .commitAccepted 7 ⟨1, 1, 1⟩ 66 1] 7 3 (by decide) (by decide) (by decide) (by decide)⟩

end Mino.Bridge.DedupWindow
