import Mino.Bridge.DedupOperations

/-! # What a check says

The result of `check` against the window it leaves behind, and a check right after
an acceptance: at the same time the new entry cannot have expired. -/

namespace Mino.Bridge

namespace SourceState

@[simp] theorem setGap_lastActivityNs (state : SourceState) (distance : Nat) :
    (state.setGap distance).lastActivityNs = state.lastActivityNs := rfl

theorem advance_lastActivityNs (fuel : Nat) (state : SourceState) :
    (state.advance fuel).lastActivityNs = state.lastActivityNs := by
  induction fuel generalizing state with
  | zero => rfl
  | succ fuel ih =>
    rw [advance]
    split
    · exact ih _
    · rfl

@[simp] theorem advanceContiguous_lastActivityNs (state : SourceState) :
    state.advanceContiguous.lastActivityNs = state.lastActivityNs :=
  advance_lastActivityNs _ state

end SourceState

namespace DedupWindow

variable {w : DedupWindow} {source : SourceIdentity} {state : SourceState} {n epoch nowNs : Nat}

theorem mark_of_find (h : w.find source = some state) :
    w.mark source = state.highestContiguousSequence := by
  simp [mark, h]

theorem mark_of_find_none (h : w.find source = none) : w.mark source = 0 := by
  simp [mark, h]

theorem covers_of_find (h : w.find source = some state) (n : Nat) :
    w.Covers source n ↔ state.Covers n := by
  constructor
  · rintro ⟨state', hfind, hcov⟩
    rw [h] at hfind
    cases hfind
    exact hcov
  · exact fun hcov => ⟨state, h, hcov⟩

/-- A refusal means that the sequence lies beyond the window on one side. -/
theorem classify_nack {options} (h : (classify options state n).decision =
    .nackWithHighest) : state.highestContiguousSequence + options.maxSequenceDistance < n ∨
      n + options.maxSequenceDistance ≤ state.highestContiguousSequence := by
  unfold classify at h
  split at h
  · split at h
    · cases h
    · right
      omega
  · split at h
    · left
      omega
    · split at h <;> cases h

section

variable (hw : w.Valid)
include hw

theorem Valid.find_touch (h : w.find source = some state) (nowNs : Nat) :
    (w.modify source fun s => { s with lastActivityNs := nowNs }).find source =
      some { state with lastActivityNs := nowNs } := by
  rw [hw.find_modify, if_pos rfl, h]
  rfl

theorem Valid.check_answer {r}
    (h : (w.check epoch source n nowNs).1 = .ok r) (hs : r.decision ≠ .staleSession) :
    1 ≤ n ∧ r.highestContiguousSequence = some ((w.check epoch source n nowNs).2.mark source) ∧
      (r.decision = .duplicateAccepted → (w.check epoch source n nowNs).2.Covers source n) ∧
      (r.decision = .nackWithHighest → (w.check epoch source n nowNs).2.mark
            source + (w.check epoch source n nowNs).2.options.maxSequenceDistance < n ∨
          n + (w.check epoch source n nowNs).2.options.maxSequenceDistance ≤
            (w.check epoch source n nowNs).2.mark source) := by
  have hp := hw.purgeExpired nowNs
  rcases check_cases w epoch source n nowNs with
    ⟨-, he⟩ | ⟨-, -, he⟩ | ⟨-, hn, hnone, he⟩ | ⟨-, hn, state, hstate, he⟩ <;> rw [he] at h ⊢ <;>
    cases h
  · exact absurd rfl hs
  · rw [mark_of_find_none hnone]
    refine ⟨by omega, rfl, ?_, ?_⟩
    · intro hd
      dsimp only at hd
      split at hd <;> cases hd
    intro hd
    dsimp only at hd
    split at hd
    · rename_i hgt
      exact .inl (by simpa using hgt)
    · cases hd
  · have hfind := hp.find_touch hstate nowNs
    rw [mark_of_find hfind]
    refine ⟨by omega, classify_highest .., fun hd => ?_, fun hd => ?_⟩
    · exact (covers_of_find hfind n).mpr (classify_duplicate_covers hd)
    · rw [(modify_frame ..).options]
      exact classify_nack hd

/-- An entry written at this very time outlives a check. -/
theorem Valid.check_recent (hs : w.stale epoch = false) (hn : n ≠ 0)
    (hfind : w.find source = some state) (hrecent : state.lastActivityNs = nowNs) :
    (∃ r, (w.check epoch source n nowNs).1 = .ok r ∧ r.decision ≠ .staleSession) ∧
      (w.check epoch source n nowNs).2.find source = some state := by
  have hp := hw.purgeExpired nowNs
  have hkept : (w.purgeExpired nowNs).find source = some state := by
    refine hw.find_purgeExpired.mpr ⟨hfind, ?_⟩
    simp [fresh, isExpired, hrecent]
  rcases check_cases w epoch source n nowNs with
    ⟨hst, -⟩ | ⟨-, h0, -⟩ | ⟨-, -, hnone, -⟩ | ⟨-, -, state', hstate, he⟩
  · rw [hs] at hst
    cases hst
  · exact absurd h0 hn
  · rw [hkept] at hnone
    cases hnone
  rw [hkept] at hstate
  cases hstate
  rw [he]
  refine ⟨⟨_, rfl, classify_not_stale _ _ _⟩, ?_⟩
  have htouch := hp.find_touch hkept nowNs
  rw [htouch, ← hrecent]

theorem Valid.commitAccepted_recent (h : (w.commitAccepted epoch source n nowNs).1.ok = true) :
    w.stale epoch = false ∧ n ≠ 0 ∧
      ∃ state, (w.commitAccepted epoch source n nowNs).2.find source = some state ∧
        state.lastActivityNs = nowNs ∧ state.Covers n := by
  have hp := hw.purgeExpired nowNs
  obtain ⟨state, hfind, hcov, -⟩ := hw.commitAccepted_self h
  have hself : ∀ hn : n ≠ 0, state.Covers n := fun hn => (hcov n (by omega)).mpr (.inr rfl)
  rcases hw.commitAccepted_cases epoch source n nowNs with
    ⟨hbad, -⟩ | ⟨hs, hn, hnone, -, he⟩ | ⟨hs, hn, old, hold, ⟨-, he⟩ | ⟨-, he⟩⟩
  · rw [h] at hbad
    cases hbad
  all_goals refine ⟨hs, hn, state, hfind, ?_, hself hn⟩; rw [he] at hfind
  · obtain ⟨-, hv, -⟩ := hp.addSource hnone 0 nowNs
    rw [hv.find_modify, if_pos rfl, hp.find_addSource hnone] at hfind
    cases hfind
    simp [newSource]
  · rw [hp.find_touch hold nowNs] at hfind
    cases hfind
    rfl
  · rw [hp.find_modify, if_pos rfl, hold] at hfind
    cases hfind
    rfl

theorem Valid.seedAccepted_recent {highest}
    (h : (w.seedAccepted epoch source highest nowNs).1.ok = true) : w.stale epoch = false ∧
      ∃ state, (w.seedAccepted epoch source highest nowNs).2.find source = some state ∧
        state.lastActivityNs = nowNs ∧ ∀ m, state.Covers m ↔ m ≤ highest := by
  have hp := hw.purgeExpired nowNs
  rcases seedAccepted_cases w epoch source highest nowNs with
    ⟨-, he⟩ | ⟨hs, hnone, he⟩ | ⟨hs, old, hold, he⟩
  · rw [he] at h
    cases h
  · refine ⟨hs, _, ?_, rfl, newSource_covers (w.purgeExpired nowNs) source highest nowNs⟩
    rw [he, hp.find_addSource hnone]
  · obtain ⟨state, hfind, -, hcov⟩ := hw.seedAccepted_self hs source highest nowNs
    refine ⟨hs, state, hfind, ?_, hcov⟩
    rw [he, hp.find_modify, if_pos rfl, hold] at hfind
    cases hfind
    rfl

end

end DedupWindow

end Mino.Bridge
