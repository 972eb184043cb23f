import Mino.Bridge.DedupAnswers
import Mino.Bridge.DedupRuns

/-! # What a call does to the memory of a source

A call that accepts nothing for a source leaves its mark as it is while it keeps the
entry, and without the entry the mark is zero. -/

namespace Mino.Bridge.DedupWindow

/-- The call enters a sequence or a mark of the source and returns OK. -/
def accepts (w : DedupWindow) (source : SourceIdentity) : Op → Bool
  | .commitAccepted epoch s n nowNs => s == source && (w.commitAccepted epoch s n nowNs).1.ok
  | .seedAccepted epoch s highest nowNs =>
    s == source && (w.seedAccepted epoch s highest nowNs).1.ok
  | _ => false

/-- The sequences a call may enter as accepted. -/
def Op.Adds : Op → SourceIdentity → Nat → Prop
  | .commitAccepted _ s n _, source, k => source = s ∧ k = n
  | .seedAccepted _ s highest _, source, k => source = s ∧ k ≤ highest
  | _, _, _ => False

variable {w : DedupWindow} {op : Op} {source : SourceIdentity} {epoch : Nat}

/-- What is covered after a call was covered before or was entered by it. -/
theorem Valid.step_covers (hw : w.Valid) {k} (hk : 1 ≤ k) (h : (w.step op).Covers source k) :
    w.Covers source k ∨ op.Adds source k := by
  cases op with
  | beginSession epoch nowNs preserve =>
    exact .inl ((beginSession_retains w epoch nowNs preserve).covers h)
  | check epoch s n nowNs => exact .inl ((hw.check epoch s n nowNs).2.2.covers h)
  | prepareSource epoch s nowNs => exact .inl (hw.prepareSource_covers hk h)
  | commitAccepted epoch s n nowNs => exact hw.commitAccepted_covers hk h
  | seedAccepted epoch s highest nowNs => exact hw.seedAccepted_covers h
  | purgeExpired nowNs => exact .inl ((hw.purgeExpired_retains nowNs).covers h)

/-- The window after the purge with which the call begins. -/
def base (w : DedupWindow) (op : Op) : DedupWindow := (w.purgeTime op).elim w w.purgeExpired

theorem Valid.le_mark (hw : w.Valid) {n} (h : ∀ k, 1 ≤ k → k ≤ n → w.Covers source k) :
    n ≤ w.mark source := by
  cases hfind : w.find source with
  | none =>
    rw [mark_of_find_none hfind]
    by_contra hpos
    obtain ⟨state, hstate, -⟩ := h 1 (Nat.le_refl 1) (by omega)
    rw [hfind] at hstate
    cases hstate
  | some state =>
    rw [mark_of_find hfind]
    refine SourceState.highest_ge_of_covers (hw.closed state (hw.find_eq_some_iff.mp hfind).1) ?_
    exact fun k hk hkn => (covers_of_find hfind k).mp (h k hk hkn)

theorem covers_of_le_mark {k} (hk : 1 ≤ k) (h : k ≤ w.mark source) : w.Covers source k := by
  cases hfind : w.find source with
  | none =>
    rw [mark_of_find_none hfind] at h
    omega
  | some state =>
    rw [mark_of_find hfind] at h
    exact ⟨state, hfind, .inl h⟩

theorem Valid.mark_le_of_covers {w' : DedupWindow} (hw' : w'.Valid)
    (h : ∀ k, 1 ≤ k → w.Covers source k → w'.Covers source k) : w.mark source ≤ w'.mark source :=
  hw'.le_mark fun k hk hkn => h k hk (covers_of_le_mark hk hkn)

section

variable (hw : w.Valid)
include hw

theorem Valid.seedAccepted_ok (hs : w.stale epoch = false) (source : SourceIdentity)
    (highest nowNs : Nat) : (w.seedAccepted epoch source highest nowNs).1.ok = true := by
  rcases seedAccepted_cases w epoch source highest nowNs with
    ⟨hst, -⟩ | ⟨-, hnone, he⟩ | ⟨-, _, -, he⟩
  · rw [hs] at hst
    cases hst
  · rw [he, ((hw.purgeExpired nowNs).addSource hnone highest nowNs).1]
    rfl
  · rw [he]
    rfl

theorem Valid.seedAccepted_refused {highest nowNs}
    (h : (w.seedAccepted epoch source highest nowNs).1.ok = false) :
    (w.seedAccepted epoch source highest nowNs).2 = w := by
  rcases seedAccepted_cases w epoch source highest nowNs with ⟨-, he⟩ | ⟨hst, -⟩ | ⟨hst, -⟩
  · rw [he]
  all_goals
    rw [hw.seedAccepted_ok hst] at h
    cases h

theorem Valid.reseeds_accepts (h : w.accepts source op = false) : w.reseeds source op = false := by
  cases op with
  | seedAccepted epoch s highest nowNs =>
    cases hs : w.stale epoch with
    | true => simp [reseeds, hs]
    | false =>
      have hok := hw.seedAccepted_ok hs s highest nowNs
      simp only [accepts, hok, Bool.and_true] at h
      simp [reseeds, h]
  | _ => rfl

theorem Valid.commitAccepted_refused {n nowNs}
    (h : (w.commitAccepted epoch source n nowNs).1.ok = false) :
    (w.commitAccepted epoch source n nowNs).2 = w.base (.commitAccepted epoch source n nowNs) := by
  have hopt := (hw.purgeExpired_frame nowNs).options
  unfold DedupWindow.commitAccepted at h ⊢
  cases hs : w.stale epoch with
  | true => simp [base, purgeTime, hs]
  | false =>
    by_cases hn : n = 0
    · simp [base, purgeTime, hn]
    simp only [hs, Bool.false_eq_true, if_false, hn, base, purgeTime, Bool.false_or,
      beq_iff_eq, Option.elim_some] at h ⊢
    repeat' split at h
    all_goals first | rfl | simp_all
    have hadd := (hw.purgeExpired nowNs).addSource ‹_› 0 nowNs
    simp_all

/-- An entry found after a call that accepted nothing for its source was there after the
first purge, or is new and empty. -/
theorem Valid.find_step (h : w.accepts source op = false) {state'}
    (hfind : (w.step op).find source = some state') :
    (∃ state, (w.base op).find source = some state ∧ SameMarks state state') ∨
      ((w.base op).find source = none ∧ state'.highestContiguousSequence = 0) := by
  cases op with
  | beginSession epoch nowNs preserve =>
    exact .inl (beginSession_retains w epoch nowNs preserve source state' hfind)
  | purgeExpired nowNs => exact .inl ⟨state', hfind, rfl, rfl⟩
  | check epoch s n nowNs =>
    have hp := hw.purgeExpired nowNs
    left
    rcases check_cases w epoch s n nowNs with
      ⟨hst, he⟩ | ⟨hst, hn, he⟩ | ⟨hst, hn, -, he⟩ | ⟨hst, hn, _, -, he⟩ <;>
      simp only [DedupWindow.step, he] at hfind
    · exact ⟨state', by simpa [base, purgeTime, hst] using hfind, rfl, rfl⟩
    · exact ⟨state', by simpa [base, purgeTime, hn] using hfind, rfl, rfl⟩
    · exact ⟨state', by simpa [base, purgeTime, hst, hn] using hfind, rfl, rfl⟩
    · simpa [base, purgeTime, hst, hn] using hp.touch_retains s nowNs source state' hfind
  | prepareSource epoch s nowNs =>
    have hp := hw.purgeExpired nowNs
    rcases prepareSource_cases w epoch s nowNs with
      ⟨hst, he⟩ | ⟨hst, hnone, he⟩ | ⟨hst, _, -, he⟩ <;>
      simp only [DedupWindow.step, he] at hfind <;> simp only [base, purgeTime, hst]
    · exact .inl ⟨state', hfind, rfl, rfl⟩
    · by_cases hs : source = s
      · subst hs
        rw [hp.find_addSource hnone] at hfind
        cases hfind
        exact .inr ⟨hnone, rfl⟩
      · exact .inl ⟨state', hp.find_addSource_of_ne hnone 0 nowNs hs hfind, rfl, rfl⟩
    · exact .inl (hp.touch_retains s nowNs source state' hfind)
  | commitAccepted epoch s n nowNs =>
    left
    cases hok : (w.commitAccepted epoch s n nowNs).1.ok with
    | false =>
      simp only [DedupWindow.step, hw.commitAccepted_refused hok] at hfind
      exact ⟨state', hfind, rfl, rfl⟩
    | true =>
      have hs : source ≠ s := by
        rintro rfl
        simp [accepts, hok] at h
      have hp := hw.purgeExpired nowNs
      rcases hw.commitAccepted_cases epoch s n nowNs with
        ⟨hbad, -⟩ | ⟨hst, hn, hnone, -, he⟩ | ⟨hst, hn, _, -, ⟨-, he⟩ | ⟨-, he⟩⟩
      · rw [hok] at hbad
        cases hbad
      all_goals
        simp only [DedupWindow.step, he] at hfind
        refine ⟨state', ?_, rfl, rfl⟩
        have hbase : w.base (.commitAccepted epoch s n nowNs) = w.purgeExpired nowNs := by
          simp [base, purgeTime, hst, hn]
        rw [hbase]
      · obtain ⟨-, hv, -⟩ := hp.addSource hnone 0 nowNs
        rw [hv.find_modify, if_neg hs] at hfind
        exact hp.find_addSource_of_ne hnone 0 nowNs hs hfind
      · rwa [hp.find_modify, if_neg hs] at hfind
      · rwa [hp.find_modify, if_neg hs] at hfind
  | seedAccepted epoch s highest nowNs =>
    left
    have hp := hw.purgeExpired nowNs
    cases hst : w.stale epoch with
    | true =>
      simp only [DedupWindow.step, DedupWindow.seedAccepted, hst, if_true] at hfind
      exact ⟨state', by simpa [base, purgeTime, hst] using hfind, rfl, rfl⟩
    | false =>
      have hs : source ≠ s := by
        rintro rfl
        simp [accepts, hw.seedAccepted_ok hst] at h
      have hbase : w.base (.seedAccepted epoch s highest nowNs) = w.purgeExpired nowNs := by
        simp [base, purgeTime, hst]
      rw [hbase]
      rcases seedAccepted_cases w epoch s highest nowNs with
        ⟨hst', -⟩ | ⟨-, hnone, he⟩ | ⟨-, _, -, he⟩
      · rw [hst] at hst'
        cases hst'
      · simp only [DedupWindow.step, he] at hfind
        exact ⟨state', hp.find_addSource_of_ne hnone highest nowNs hs hfind, rfl, rfl⟩
      · simp only [DedupWindow.step, he] at hfind
        rw [hp.find_modify, if_neg hs] at hfind
        exact ⟨state', hfind, rfl, rfl⟩

theorem Valid.base_retains (op : Op) : Retains w (w.base op) := by
  unfold base
  cases w.purgeTime op with
  | none => exact Retains.refl w
  | some nowNs => exact hw.purgeExpired_retains nowNs

end

theorem keeps_eq_false (hr : w.reseeds source op = false) (h : w.keeps source op = false) :
    (w.step op).find source = none ∨ (w.base op).find source = none := by
  cases hfind : (w.step op).find source with
  | none => exact .inl rfl
  | some state =>
    right
    cases ht : w.purgeTime op with
    | none => simp [keeps, hr, hfind, ht] at h
    | some nowNs => simpa [keeps, hr, hfind, ht, base] using h

theorem Valid.mem_forgets (hw : w.Valid) :
    source ∈ w.forgets op ↔ (w.find source).isSome ∧ w.keeps source op = false := by
  rw [forgets, List.mem_filter]
  refine and_congr ?_ (by simp)
  rw [List.mem_map]
  constructor
  · rintro ⟨state, hmem, rfl⟩
    rw [hw.find_eq_some_iff.mpr ⟨hmem, rfl⟩]
    rfl
  · intro hsome
    obtain ⟨state, hfind⟩ := Option.isSome_iff_exists.mp hsome
    exact ⟨state, hw.find_eq_some_iff.mp hfind⟩

theorem Valid.keeps_of_covers (hw : w.Valid) {n} (hc : w.Covers source n)
    (hf : source ∉ w.forgets op) : w.keeps source op = true := by
  obtain ⟨state, hfind, -⟩ := hc
  by_contra hk
  exact hf (hw.mem_forgets.mpr ⟨by simp [hfind], by simpa using hk⟩)

/-- A source that is neither kept nor reported was not remembered. -/
theorem Valid.mark_eq_zero (hw : w.Valid) (hf : source ∉ w.forgets op)
    (hk : w.keeps source op = false) : w.mark source = 0 := by
  cases hfind : w.find source with
  | none => exact mark_of_find_none hfind
  | some state => exact absurd (hw.mem_forgets.mpr ⟨by simp [hfind], hk⟩) hf

/-- A call that accepts nothing covers nothing new. -/
theorem Valid.step_covers_of_not_accepts (hw : w.Valid) (hop : ∀ s, w.accepts s op = false) {k}
    (hk : 1 ≤ k) (h : (w.step op).Covers source k) : w.Covers source k := by
  rcases hw.step_covers hk h with hold | hadd
  · exact hold
  cases op with
  | commitAccepted epoch s n nowNs =>
    have hbad : (w.commitAccepted epoch s n nowNs).1.ok = false := by simpa [accepts] using hop s
    exact (hw.commitAccepted_error hbad).covers h
  | seedAccepted epoch s highest nowNs =>
    have hbad : (w.seedAccepted epoch s highest nowNs).1.ok = false := by
      simpa [accepts] using hop s
    rwa [DedupWindow.step, hw.seedAccepted_refused hbad] at h
  | _ => exact hadd.elim

/-- The mark of a source across a call that accepts nothing for it. -/
theorem Valid.mark_step (hw : w.Valid) (h : w.accepts source op = false) :
    (w.step op).mark source = if source ∈ w.forgets op then 0 else w.mark source := by
  cases hk : w.keeps source op with
  | true =>
    rw [if_neg (by simp [hw.mem_forgets, hk])]
    have hup := (hw.step op).mark_le_of_covers fun k hk' => hw.step_keeps hk' hk
    refine Nat.le_antisymm ?_ hup
    cases hfind : (w.step op).find source with
    | none => simp [mark_of_find_none hfind]
    | some state' =>
      rw [mark_of_find hfind]
      rcases hw.find_step h hfind with ⟨state, hbase, hsame⟩ | ⟨-, hzero⟩
      · obtain ⟨old, hold, hsame'⟩ := hw.base_retains op source state hbase
        rw [mark_of_find hold, hsame.1, hsame'.1]
      · omega
  | false =>
    have hgone : (w.step op).mark source = 0 := by
      cases hfind : (w.step op).find source with
      | none => exact mark_of_find_none hfind
      | some state' =>
        rw [mark_of_find hfind]
        rcases keeps_eq_false (hw.reseeds_accepts h) hk with hnone | hnone
        · rw [hfind] at hnone
          cases hnone
        rcases hw.find_step h hfind with ⟨state, hbase, -⟩ | ⟨-, hzero⟩
        · rw [hnone] at hbase
          cases hbase
        · exact hzero
    rw [hgone]
    split
    · rfl
    · rename_i hf
      exact (hw.mark_eq_zero hf hk).symm

end Mino.Bridge.DedupWindow
