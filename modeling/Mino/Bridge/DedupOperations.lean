import Mino.Bridge.DedupLedger

/-! # The operations of the deduplication cache

For every public operation: which cases it has, that it keeps the invariant, and
how the accepted sets it remembers change. -/

namespace Mino.Bridge.DedupWindow

open List KeyedVector SourceState

/-- Two states of a source that stand for the same accepted set. -/
def SameMarks (state state' : SourceState) : Prop :=
  state'.highestContiguousSequence = state.highestContiguousSequence ∧
    state'.gapWords = state.gapWords

variable {state state' : SourceState} {w : DedupWindow} {source other : SourceIdentity}
  {n epoch nowNs highest : Nat}

theorem SameMarks.covers_iff (h : SameMarks state state') (n : Nat) :
    state'.Covers n ↔ state.Covers n := by
  simp [SourceState.Covers, gapSet, h.1, h.2]

/-- Whatever is found afterwards was there before with the same marks. -/
def Retains (w w' : DedupWindow) : Prop :=
  ∀ source state', w'.find source = some state' →
    ∃ state, w.find source = some state ∧ SameMarks state state'

theorem Retains.refl (w : DedupWindow) : Retains w w :=
  fun _ state h => ⟨state, h, rfl, rfl⟩

theorem Retains.covers {w'} (h : Retains w w') (hc : w'.Covers source n) : w.Covers source n := by
  obtain ⟨state', hfind, hcov⟩ := hc
  obtain ⟨state, hold, hsame⟩ := h source state' hfind
  exact ⟨state, hold, (hsame.covers_iff n).mp hcov⟩

theorem Valid.purgeExpired_retains (hw : w.Valid) (nowNs : Nat) :
    Retains w (w.purgeExpired nowNs) := fun _ state h =>
  ⟨state, (hw.find_purgeExpired.mp h).1, rfl, rfl⟩

theorem Valid.touch_retains (hw : w.Valid) (source : SourceIdentity) (nowNs : Nat) :
    Retains w (w.modify source fun s => { s with lastActivityNs := nowNs }) := by
  intro other state' h
  rw [hw.find_modify] at h
  split at h
  · rename_i he
    subst he
    obtain ⟨state, hstate, rfl⟩ := Option.map_eq_some_iff.mp h
    exact ⟨state, hstate, rfl, rfl⟩
  · exact ⟨state', h, rfl, rfl⟩

theorem Retains.trans {a b c} (h : Retains a b) (h' : Retains b c) : Retains a c := by
  intro source state'' hfind
  obtain ⟨state', hb, hsame'⟩ := h' source state'' hfind
  obtain ⟨state, ha, hsame⟩ := h source state' hb
  exact ⟨state, ha, hsame'.1.trans hsame.1, hsame'.2.trans hsame.2⟩

theorem beginSession_cases (w : DedupWindow) (epoch nowNs : Nat) (preserve : Bool) :
    w.beginSession epoch nowNs preserve = w ∨ w.beginSession epoch nowNs preserve =
        { w with sessionActive := true, peerSessionEpoch := epoch, sessionStartedNs := nowNs } ∨
      w.beginSession epoch nowNs preserve = { w with
          entries := [], sourceIndex := fun _ => none, bytes := 0
          sessionActive := true, peerSessionEpoch := epoch, sessionStartedNs := nowNs } := by
  unfold beginSession
  split
  · exact .inl rfl
  cases preserve
  · exact .inr (.inr rfl)
  · exact .inr (.inl rfl)

theorem Valid.beginSession (hw : w.Valid) (epoch nowNs : Nat) (preserve : Bool) :
    (w.beginSession epoch nowNs preserve).Valid := by
  rcases beginSession_cases w epoch nowNs preserve with h | h | h <;> rw [h]
  · exact hw
  · exact ⟨⟨hw.indexed, hw.words, hw.closed, hw.bitmap, hw.maxSources_pos, hw.sourceBytes_pos,
      hw.sourceBytes_le⟩, hw.bytes_eq, hw.bytes_le, hw.length_le⟩
  · exact ⟨⟨indexed_nil, by simp, by simp, hw.bitmap, hw.maxSources_pos, hw.sourceBytes_pos,
      hw.sourceBytes_le⟩, by simp, by simp, by simp⟩

section

variable (w : DedupWindow) (epoch nowNs : Nat) (preserve : Bool)

theorem beginSession_options : (w.beginSession epoch nowNs preserve).options = w.options := by
  rcases beginSession_cases w epoch nowNs preserve with h | h | h <;> rw [h]

theorem beginSession_retains : Retains w (w.beginSession epoch nowNs preserve) := by
  intro source state' hfind
  rcases beginSession_cases w epoch nowNs preserve with h | h | h <;> rw [h] at hfind
  · exact ⟨state', hfind, rfl, rfl⟩
  · exact ⟨state', hfind, rfl, rfl⟩
  · simp [find] at hfind

end

theorem check_cases (w : DedupWindow) (epoch : Nat) (source : SourceIdentity) (n nowNs : Nat) :
    (w.stale epoch = true ∧ w.check epoch source n nowNs = (.ok ⟨.staleSession, none⟩, w)) ∨
    (w.stale epoch = false ∧ n = 0 ∧ w.check epoch source n nowNs = (.error zeroSequence, w)) ∨
    (w.stale epoch = false ∧ n ≠ 0 ∧ (w.purgeExpired nowNs).find source = none ∧
      w.check epoch source n nowNs =
        (.ok ⟨if n > (w.purgeExpired nowNs).options.maxSequenceDistance then .nackWithHighest
          else .accept, some 0⟩, w.purgeExpired nowNs)) ∨
    (w.stale epoch = false ∧ n ≠ 0 ∧ ∃ state, (w.purgeExpired nowNs).find source = some state ∧
      w.check epoch source n nowNs = (.ok (classify (w.purgeExpired nowNs).options state n),
          (w.purgeExpired nowNs).modify source fun s => { s with lastActivityNs := nowNs })) := by
  unfold check
  cases hs : w.stale epoch with
  | true => exact .inl ⟨rfl, rfl⟩
  | false =>
    by_cases hn : n = 0
    · exact .inr (.inl ⟨rfl, hn, by simp [hn]⟩)
    cases hf : (w.purgeExpired nowNs).find source with
    | none =>
      refine .inr (.inr (.inl ⟨rfl, hn, rfl, ?_⟩))
      by_cases hd : n > (w.purgeExpired nowNs).options.maxSequenceDistance <;> simp [hn, hd, hf]
    | some state => exact .inr (.inr (.inr ⟨rfl, hn, state, rfl, by simp [hn, hf]⟩))

theorem Valid.check (hw : w.Valid) (epoch : Nat) (source : SourceIdentity) (n nowNs : Nat) :
    (w.check epoch source n nowNs).2.Valid ∧ SameFrame w (w.check epoch source n nowNs).2 ∧
      Retains w (w.check epoch source n nowNs).2 := by
  have hp := hw.purgeExpired nowNs
  have hpf := hw.purgeExpired_frame nowNs
  have hpr := hw.purgeExpired_retains nowNs
  rcases check_cases w epoch source n nowNs with
    ⟨-, h⟩ | ⟨-, -, h⟩ | ⟨-, -, -, h⟩ | ⟨-, -, state, -, h⟩ <;> rw [h]
  · exact ⟨hw, SameFrame.refl w, Retains.refl w⟩
  · exact ⟨hw, SameFrame.refl w, Retains.refl w⟩
  · exact ⟨hp, hpf, hpr⟩
  · exact ⟨hp.modify (keepsShape_touch nowNs) source, hpf.trans (modify_frame ..),
      hpr.trans (hp.touch_retains source nowNs)⟩

theorem prepareSource_cases (w : DedupWindow) (epoch : Nat) (source : SourceIdentity)
    (nowNs : Nat) : (w.stale epoch = true ∧ w.prepareSource epoch source nowNs = (staleStatus, w)) ∨
    (w.stale epoch = false ∧ (w.purgeExpired nowNs).find source = none ∧
      w.prepareSource epoch source nowNs = (w.purgeExpired nowNs).addSource source 0 nowNs) ∨
    (w.stale epoch = false ∧ ∃ state, (w.purgeExpired nowNs).find source = some state ∧
      w.prepareSource epoch source nowNs = (.success,
        (w.purgeExpired nowNs).modify source fun s => { s with lastActivityNs := nowNs })) := by
  unfold prepareSource
  cases hs : w.stale epoch with
  | true => exact .inl ⟨rfl, rfl⟩
  | false =>
    cases hf : (w.purgeExpired nowNs).find source with
    | none => exact .inr (.inl ⟨rfl, rfl, by simp [hf]⟩)
    | some state => exact .inr (.inr ⟨rfl, state, rfl, by simp [hf]⟩)

theorem newSource_covers (w : DedupWindow) (source : SourceIdentity) (highest nowNs n : Nat) :
    (w.newSource source highest nowNs).Covers n ↔ n ≤ highest := by
  simp [newSource, SourceState.Covers, gapSet]

theorem Valid.prepareSource (hw : w.Valid) (epoch : Nat) (source : SourceIdentity) (nowNs : Nat) :
    (w.prepareSource epoch source nowNs).2.Valid ∧
      SameFrame w (w.prepareSource epoch source nowNs).2 := by
  have hp := hw.purgeExpired nowNs
  have hpf := hw.purgeExpired_frame nowNs
  rcases prepareSource_cases w epoch source nowNs with
    ⟨-, h⟩ | ⟨-, hnone, h⟩ | ⟨-, state, -, h⟩ <;> rw [h]
  · exact ⟨hw, SameFrame.refl w⟩
  · obtain ⟨-, hv, hf, -⟩ := hp.addSource hnone 0 nowNs
    exact ⟨hv, hpf.trans hf⟩
  · exact ⟨hp.modify (keepsShape_touch nowNs) source, hpf.trans (modify_frame ..)⟩

/-- Preparing a source may make an empty entry for it and changes no mark. -/
theorem Valid.find_prepareSource (hw : w.Valid)
    (h : (w.prepareSource epoch source nowNs).2.find other = some state') :
    (∃ state, w.find other = some state ∧ SameMarks state state') ∨
      (other = source ∧ (w.purgeExpired nowNs).find source = none ∧
        state' = (w.purgeExpired nowNs).newSource source 0 nowNs) := by
  have hp := hw.purgeExpired nowNs
  have hpr := hw.purgeExpired_retains nowNs
  rcases prepareSource_cases w epoch source nowNs with
    ⟨-, he⟩ | ⟨-, hnone, he⟩ | ⟨-, state, -, he⟩ <;> rw [he] at h
  · exact .inl ⟨state', h, rfl, rfl⟩
  · by_cases hs : other = source
    · subst hs
      rw [hp.find_addSource hnone] at h
      exact .inr ⟨rfl, hnone, (Option.some.inj h).symm⟩
    · exact .inl (hpr other state' (hp.find_addSource_of_ne hnone 0 nowNs hs h))
  · exact .inl (hpr.trans (hp.touch_retains source nowNs) other state' h)

theorem Valid.prepareSource_covers (hw : w.Valid) (hn : 1 ≤ n)
    (h : (w.prepareSource epoch source nowNs).2.Covers other n) : w.Covers other n := by
  obtain ⟨state', hfind, hcov⟩ := h
  rcases hw.find_prepareSource hfind with ⟨state, hold, hsame⟩ | ⟨-, -, rfl⟩
  · exact ⟨state, hold, (hsame.covers_iff n).mp hcov⟩
  · have := (newSource_covers ..).mp hcov
    omega

/-- Accepting a sequence of an entry: its gap bit is set and the prefix closed. -/
def accept (n : Nat) (s : SourceState) : SourceState :=
  (s.setGap (n - s.highestContiguousSequence)).advanceContiguous

theorem accept_covers (hw : w.Shape) (hwords : state.gapWords.length = w.bitmapWords)
    (hlt : state.highestContiguousSequence < n)
    (hd : n - state.highestContiguousSequence ≤ w.options.maxSequenceDistance) (m : Nat) :
    (accept n state).Covers m ↔ state.Covers m ∨ m = n := by
  have hb := hw.bitmap
  have hlen : n - state.highestContiguousSequence ≤ state.gapWords.length * 64 := by
    rw [hwords]
    omega
  have hn : state.highestContiguousSequence + (n - state.highestContiguousSequence) = n := by
    omega
  rw [accept, covers_advanceContiguous, covers_setGap (by omega) hlen, hn]

section

variable (hw : w.Valid)
include hw

section

variable (epoch : Nat) (source : SourceIdentity) (n nowNs : Nat)

theorem Valid.commitAccepted_cases :
    ((w.commitAccepted epoch source n nowNs).1.ok = false ∧
      ((w.commitAccepted epoch source n nowNs).2 = w ∨
        (w.commitAccepted epoch source n nowNs).2 = w.purgeExpired nowNs)) ∨
    (w.stale epoch = false ∧ n ≠ 0 ∧ (w.purgeExpired nowNs).find source = none ∧
      n ≤ w.options.maxSequenceDistance ∧ w.commitAccepted epoch source n nowNs = (.success,
        ((w.purgeExpired nowNs).addSource source 0 nowNs).2.modify source
          fun s => (s.setGap n).advanceContiguous)) ∨
    (w.stale epoch = false ∧ n ≠ 0 ∧ ∃ state, (w.purgeExpired nowNs).find source = some state ∧
      ((classify w.options state n).decision = .duplicateAccepted ∧
        w.commitAccepted epoch source n nowNs = (.success,
          (w.purgeExpired nowNs).modify source fun s => { s with lastActivityNs := nowNs }) ∨
      (classify w.options state n).decision = .accept ∧
        w.commitAccepted epoch source n nowNs = (.success,
          (w.purgeExpired nowNs).modify source fun s =>
            { accept n s with lastActivityNs := nowNs }))) := by
  have hopt := (hw.purgeExpired_frame nowNs).options
  unfold commitAccepted
  cases hs : w.stale epoch with
  | true => exact .inl ⟨rfl, .inl rfl⟩
  | false =>
    by_cases hn : n = 0
    · exact .inl (by simp [hn, zeroSequence])
    cases hf : (w.purgeExpired nowNs).find source with
    | none =>
      by_cases hd : n > w.options.maxSequenceDistance
      · exact .inl (by simp [hn, hf, hopt, hd, outsideWindow])
      · obtain ⟨hok, -⟩ := (hw.purgeExpired nowNs).addSource hf 0 nowNs
        exact .inr (.inl ⟨rfl, hn, rfl, by omega, by simp [hn, hf, hopt, hd, hok]⟩)
    | some state =>
      cases hc : (classify w.options state n).decision with
      | accept =>
        exact .inr (.inr ⟨rfl, hn, state, rfl, .inr ⟨hc, by simp [hn, hf, hopt, hc, accept]⟩⟩)
      | duplicateAccepted =>
        exact .inr (.inr ⟨rfl, hn, state, rfl, .inl ⟨hc, by simp [hn, hf, hopt, hc]⟩⟩)
      | nackWithHighest => exact .inl (by simp [hn, hf, hopt, hc, outsideWindow])
      | staleSession => exact absurd hc (classify_not_stale _ _ _)

theorem Valid.commitAccepted : (w.commitAccepted epoch source n nowNs).2.Valid ∧
      SameFrame w (w.commitAccepted epoch source n nowNs).2 := by
  have hp := hw.purgeExpired nowNs
  have hpf := hw.purgeExpired_frame nowNs
  rcases hw.commitAccepted_cases epoch source n nowNs with
    ⟨-, h | h⟩ | ⟨-, -, hnone, -, h⟩ | ⟨-, -, state, -, ⟨-, h⟩ | ⟨-, h⟩⟩ <;> rw [h]
  · exact ⟨hw, SameFrame.refl w⟩
  · exact ⟨hp, hpf⟩
  · obtain ⟨-, hv, hf, -⟩ := hp.addSource hnone 0 nowNs
    exact ⟨hv.modify (keepsShape_accept (fun _ => n)
        fun s => (s.setGap n).advanceContiguous.lastActivityNs) source,
      (hpf.trans hf).trans (modify_frame ..)⟩
  · exact ⟨hp.modify (keepsShape_touch nowNs) source, hpf.trans (modify_frame ..)⟩
  · exact ⟨hp.modify (keepsShape_accept (fun s => n - s.highestContiguousSequence) fun _ => nowNs)
      source, hpf.trans (modify_frame ..)⟩

end

theorem Valid.commitAccepted_error (h : (w.commitAccepted epoch source n nowNs).1.ok = false) :
    Retains w (w.commitAccepted epoch source n nowNs).2 := by
  rcases hw.commitAccepted_cases epoch source n nowNs with
    ⟨-, he | he⟩ | ⟨-, -, -, -, he⟩ | ⟨-, -, state, -, ⟨-, he⟩ | ⟨-, he⟩⟩
  · rw [he]
    exact Retains.refl w
  · rw [he]
    exact hw.purgeExpired_retains nowNs
  all_goals
    rw [he] at h
    simp at h

/-- A successful commit adds its sequence to what the purged cache knew of the
source, and nothing else. -/
theorem Valid.commitAccepted_self (h : (w.commitAccepted epoch source n nowNs).1.ok = true) :
    ∃ state, (w.commitAccepted epoch source n nowNs).2.find source = some state ∧
      (∀ m, 1 ≤ m → (state.Covers m ↔ (w.purgeExpired nowNs).Covers source m ∨ m = n)) ∧
      (w.purgeExpired nowNs).mark source ≤ state.highestContiguousSequence := by
  have hp := hw.purgeExpired nowNs
  have hpf := hw.purgeExpired_frame nowNs
  rcases hw.commitAccepted_cases epoch source n nowNs with
    ⟨hbad, -⟩ | ⟨-, hn, hnone, hd, he⟩ | ⟨-, hn, state, hstate, ⟨hc, he⟩ | ⟨hc, he⟩⟩
  · rw [h] at hbad
    cases hbad
  · obtain ⟨-, hv, hf, -⟩ := hp.addSource hnone 0 nowNs
    refine ⟨accept n ((w.purgeExpired nowNs).newSource source 0 nowNs), ?_, ?_, ?_⟩
    · rw [he, hv.find_modify, if_pos rfl, hp.find_addSource hnone]
      rfl
    · intro m hm
      have hlen : ((w.purgeExpired nowNs).newSource source 0 nowNs).gapWords.length =
          (w.purgeExpired nowNs).bitmapWords := by simp [newSource]
      rw [accept_covers hp.toShape hlen (by simp [newSource]; omega)
        (by simpa [newSource, hpf.options] using hd), newSource_covers]
      have hno : ¬ (w.purgeExpired nowNs).Covers source m := by
        rintro ⟨state, hfind, -⟩
        rw [hnone] at hfind
        cases hfind
      simp only [hno, false_or]
      omega
    · simp [mark, hnone]
  · refine ⟨{ state with lastActivityNs := nowNs }, ?_, ?_, ?_⟩
    · rw [he, hp.find_modify, if_pos rfl, hstate]
      rfl
    · intro m _
      have hcov := classify_duplicate_covers hc
      constructor
      · intro hm
        exact .inl ⟨state, hstate, hm⟩
      rintro (⟨state', hstate', hm⟩ | rfl)
      · rw [hstate] at hstate'
        cases hstate'
        exact hm
      · exact hcov
    · simp [mark, hstate]
  · obtain ⟨hlt, hd, -⟩ := classify_accept_iff.mp hc
    have hlen := hp.words state (hp.find_eq_some_iff.mp hstate).1
    have hacc := accept_covers hp.toShape hlen hlt (by rw [hpf.options]; exact hd)
    refine ⟨{ accept n state with lastActivityNs := nowNs }, ?_, ?_, ?_⟩
    · rw [he, hp.find_modify, if_pos rfl, hstate]
      rfl
    · intro m _
      refine Iff.trans (hacc m) (or_congr ?_ Iff.rfl)
      constructor
      · exact fun hm => ⟨state, hstate, hm⟩
      rintro ⟨state', hstate', hm⟩
      rw [hstate] at hstate'
      cases hstate'
      exact hm
    · simp only [mark, hstate, Option.elim_some]
      exact highest_le_advance _ (state.setGap _)

theorem Valid.commitAccepted_other (hne : other ≠ source)
    (h : (w.commitAccepted epoch source n nowNs).2.find other = some state) :
    w.find other = some state := by
  have hp := hw.purgeExpired nowNs
  rcases hw.commitAccepted_cases epoch source n nowNs with
    ⟨-, he | he⟩ | ⟨-, -, hnone, -, he⟩ | ⟨-, -, _, -, ⟨-, he⟩ | ⟨-, he⟩⟩ <;> rw [he] at h
  · exact h
  · exact (hw.find_purgeExpired.mp h).1
  · obtain ⟨-, hv, -⟩ := hp.addSource hnone 0 nowNs
    rw [hv.find_modify, if_neg hne] at h
    exact (hw.find_purgeExpired.mp (hp.find_addSource_of_ne hnone 0 nowNs hne h)).1
  · rw [hp.find_modify, if_neg hne] at h
    exact (hw.find_purgeExpired.mp h).1
  · rw [hp.find_modify, if_neg hne] at h
    exact (hw.find_purgeExpired.mp h).1

theorem Valid.commitAccepted_covers {m} (hm : 1 ≤ m)
    (h : (w.commitAccepted epoch source n nowNs).2.Covers other m) :
    w.Covers other m ∨ other = source ∧ m = n := by
  cases hok : (w.commitAccepted epoch source n nowNs).1.ok with
  | false => exact .inl ((hw.commitAccepted_error hok).covers h)
  | true =>
    obtain ⟨state', hfind, hcov⟩ := h
    by_cases hs : other = source
    · subst hs
      obtain ⟨state, hstate, hiff, -⟩ := hw.commitAccepted_self hok
      rw [hfind] at hstate
      cases hstate
      rcases (hiff m hm).mp hcov with hold | rfl
      · exact .inl ((hw.purgeExpired_retains nowNs).covers hold)
      · exact .inr ⟨rfl, rfl⟩
    · exact .inl ⟨state', hw.commitAccepted_other hs hfind, hcov⟩

end

theorem seedAccepted_cases (w : DedupWindow) (epoch : Nat) (source : SourceIdentity)
    (highest nowNs : Nat) :
    (w.stale epoch = true ∧ w.seedAccepted epoch source highest nowNs = (staleStatus, w)) ∨
    (w.stale epoch = false ∧ (w.purgeExpired nowNs).find source = none ∧
      w.seedAccepted epoch source highest nowNs =
        (w.purgeExpired nowNs).addSource source highest nowNs) ∨
    (w.stale epoch = false ∧ ∃ state, (w.purgeExpired nowNs).find source = some state ∧
      w.seedAccepted epoch source highest nowNs = (.success,
        (w.purgeExpired nowNs).modify source fun s => { s with
          highestContiguousSequence := highest
          gapWords := s.gapWords.map fun _ => 0#64
          lastActivityNs := nowNs })) := by
  unfold seedAccepted
  cases hs : w.stale epoch with
  | true => exact .inl ⟨rfl, rfl⟩
  | false =>
    cases hf : (w.purgeExpired nowNs).find source with
    | none => exact .inr (.inl ⟨rfl, rfl, by simp [hf]⟩)
    | some state => exact .inr (.inr ⟨rfl, state, rfl, by simp [hf]⟩)

section

variable (hw : w.Valid)
include hw

theorem Valid.seedAccepted (epoch : Nat) (source : SourceIdentity)
    (highest nowNs : Nat) : (w.seedAccepted epoch source highest nowNs).2.Valid ∧
      SameFrame w (w.seedAccepted epoch source highest nowNs).2 := by
  have hp := hw.purgeExpired nowNs
  have hpf := hw.purgeExpired_frame nowNs
  rcases seedAccepted_cases w epoch source highest nowNs with
    ⟨-, h⟩ | ⟨-, hnone, h⟩ | ⟨-, state, -, h⟩ <;> rw [h]
  · exact ⟨hw, SameFrame.refl w⟩
  · obtain ⟨-, hv, hf, -⟩ := hp.addSource hnone highest nowNs
    exact ⟨hv, hpf.trans hf⟩
  · exact ⟨hp.modify (keepsShape_seed highest nowNs) source, hpf.trans (modify_frame ..)⟩

/-- Seeding replaces what was known of the source by everything up to the mark. -/
theorem Valid.seedAccepted_self (hs : w.stale epoch = false)
    (source : SourceIdentity) (highest nowNs : Nat) :
    ∃ state, (w.seedAccepted epoch source highest nowNs).2.find source = some state ∧
      state.highestContiguousSequence = highest ∧ ∀ m, state.Covers m ↔ m ≤ highest := by
  have hp := hw.purgeExpired nowNs
  rcases seedAccepted_cases w epoch source highest nowNs with
    ⟨hst, -⟩ | ⟨-, hnone, h⟩ | ⟨-, state, hstate, h⟩
  · rw [hs] at hst
    cases hst
  · rw [h, hp.find_addSource hnone]
    exact ⟨_, rfl, rfl, newSource_covers _ _ _ _⟩
  · rw [h, hp.find_modify, if_pos rfl, hstate]
    refine ⟨_, rfl, rfl, fun m => ?_⟩
    simp [SourceState.Covers, gapSet, map_const']

theorem Valid.seedAccepted_other (hne : other ≠ source)
    (h : (w.seedAccepted epoch source highest nowNs).2.find other = some state) :
    w.find other = some state := by
  have hp := hw.purgeExpired nowNs
  rcases seedAccepted_cases w epoch source highest nowNs with
    ⟨-, he⟩ | ⟨-, hnone, he⟩ | ⟨-, _, -, he⟩ <;> rw [he] at h
  · exact h
  · exact (hw.find_purgeExpired.mp (hp.find_addSource_of_ne hnone highest nowNs hne h)).1
  · rw [hp.find_modify, if_neg hne] at h
    exact (hw.find_purgeExpired.mp h).1

theorem Valid.seedAccepted_covers {m}
    (h : (w.seedAccepted epoch source highest nowNs).2.Covers other m) :
    w.Covers other m ∨ other = source ∧ m ≤ highest := by
  cases hs : w.stale epoch with
  | true =>
    rcases seedAccepted_cases w epoch source highest nowNs with ⟨-, he⟩ | ⟨hst, -⟩ | ⟨hst, -⟩
    · rw [he] at h
      exact .inl h
    · simp [hs] at hst
    · simp [hs] at hst
  | false =>
    obtain ⟨state', hfind, hcov⟩ := h
    by_cases hsrc : other = source
    · subst hsrc
      obtain ⟨state, hstate, -, hiff⟩ := hw.seedAccepted_self hs other highest nowNs
      rw [hfind] at hstate
      cases hstate
      exact .inr ⟨rfl, (hiff m).mp hcov⟩
    · exact .inl ⟨state', hw.seedAccepted_other hsrc hfind, hcov⟩

theorem Valid.snapshotAccepted_covers {e}
    (he : e ∈ w.snapshotAccepted) (hn : n ≤ e.highestContiguousSequence) : w.Covers e.source n := by
  rw [snapshotAccepted, mem_insertionSort, mem_map] at he
  obtain ⟨state, hmem, rfl⟩ := he
  exact ⟨state, hw.find_eq_some_iff.mpr ⟨hmem, rfl⟩, .inl hn⟩

end

end Mino.Bridge.DedupWindow
