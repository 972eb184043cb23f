import Mino.Bridge.DedupWindow

/-! # What the deduplication cache remembers

A source state stands for a set of sequences: everything up to its mark, and
the sequences whose gap bit is set. `SourceState.Covers` is that set and `Valid`
is the representation invariant of the window, kept by the internal steps that
erase, write and add entries. -/

namespace Mino.Bridge

open List KeyedVector BitWords SourceState

namespace SourceState

/-- The sequence was accepted, by the mark or by a gap bit. -/
def Covers (state : SourceState) (n : Nat) : Prop :=
  n ≤ state.highestContiguousSequence ∨
    state.gapSet (n - state.highestContiguousSequence) = true

theorem covers_setGap {state : SourceState} {d} (hpos : 0 < d)
    (hlen : d ≤ state.gapWords.length * 64) (n : Nat) :
    (state.setGap d).Covers n ↔ state.Covers n ∨ n = state.highestContiguousSequence + d := by
  have hbit : d - 1 < state.gapWords.length * 64 := by omega
  simp only [Covers, gapSet, setGap, bit_set (by decide : 0 < 64) _ hbit,
    Bool.or_eq_true, decide_eq_true_eq]
  constructor
  · rintro (hle | hold | heq)
    · exact .inl (.inl hle)
    · exact .inl (.inr hold)
    · by_cases hle : n ≤ state.highestContiguousSequence
      · exact .inl (.inl hle)
      · exact .inr (by omega)
  · rintro ((hle | hold) | rfl)
    · exact .inl hle
    · exact .inr (.inl hold)
    · exact .inr (.inr (by omega))

variable (state : SourceState) (fuel : Nat)

/-- One round of the loop moves one sequence from the bitmap under the mark. -/
theorem covers_advance (state : SourceState) (n : Nat) :
    (state.advance fuel).Covers n ↔ state.Covers n := by
  induction fuel generalizing state with
  | zero => rfl
  | succ fuel ih =>
    rw [advance]
    split
    · rename_i hbit
      rw [ih]
      simp only [Covers, gapSet, bit_shift (by decide : 0 < 64)]
      rcases Nat.lt_trichotomy n (state.highestContiguousSequence + 1) with hlt | rfl | hgt
      · exact iff_of_true (.inl (by omega)) (.inl (by omega))
      · exact iff_of_true (.inl le_rfl) (.inr (by simpa using hbit))
      have heq : n - (state.highestContiguousSequence + 1) - 1 + 1 =
          n - state.highestContiguousSequence - 1 := by omega
      rw [heq]
      constructor
      · rintro (hle | h)
        · omega
        · exact .inr h
      · rintro (hle | h)
        · omega
        · exact .inr h
    · rfl

@[simp] theorem covers_advanceContiguous (n : Nat) :
    state.advanceContiguous.Covers n ↔ state.Covers n :=
  covers_advance _ _ _

@[simp] theorem length_gapWords_advance (state : SourceState) :
    (state.advance fuel).gapWords.length = state.gapWords.length := by
  induction fuel generalizing state with
  | zero => rfl
  | succ fuel ih =>
    rw [advance]
    split
    · simp [ih]
    · rfl

@[simp] theorem source_advance (state : SourceState) :
    (state.advance fuel).source = state.source := by
  induction fuel generalizing state with
  | zero => rfl
  | succ fuel ih =>
    rw [advance]
    split
    · simp [ih]
    · rfl

@[simp] theorem source_advanceContiguous : state.advanceContiguous.source = state.source :=
  source_advance _ _

@[simp] theorem source_setGap (d : Nat) : (state.setGap d).source = state.source := rfl

theorem highest_le_advance (state : SourceState) :
    state.highestContiguousSequence ≤ (state.advance fuel).highestContiguousSequence := by
  induction fuel generalizing state with
  | zero => exact le_rfl
  | succ fuel ih =>
    rw [advance]
    split
    · have := ih { state with
        gapWords := shift state.gapWords
        highestContiguousSequence := state.highestContiguousSequence + 1 }
      exact Nat.le_of_succ_le this
    · exact le_rfl

/-- The loop stops for want of a set bit, not for want of fuel: a round of it
consumes one bit, and all bits from `k` on are clear. -/
theorem bit_zero_advance (k : Nat) (state : SourceState) (hk : k ≤ fuel)
    (hclear : ∀ i, k ≤ i → bit state.gapWords i = false) :
    bit (state.advance fuel).gapWords 0 = false := by
  induction fuel generalizing state k with
  | zero => exact hclear 0 (by omega)
  | succ fuel ih =>
    rw [advance]
    split
    · rename_i hbit
      apply ih (k - 1) _ (by omega)
      intro i hi
      rw [bit_shift (by decide : 0 < 64)]
      exact hclear (i + 1) (by omega)
    · rename_i hbit
      simpa using hbit

theorem bit_zero_advanceContiguous : bit state.advanceContiguous.gapWords 0 = false := by
  apply bit_zero_advance _ (64 * state.gapWords.length) _ le_rfl
  intro i hi
  exact bit_eq_false_of_le (by decide) (by omega)

/-- The mark is exact when the first bit is clear: the next sequence is missing. -/
theorem highest_ge_of_covers {state : SourceState} (h0 : bit state.gapWords 0 = false)
    {n} (hn : ∀ k, 1 ≤ k → k ≤ n → state.Covers k) : n ≤ state.highestContiguousSequence := by
  by_contra hlt
  rcases hn (state.highestContiguousSequence + 1) (by omega) (by omega) with hle | hbit
  · omega
  · simp [gapSet, h0] at hbit

end SourceState

namespace DedupWindow

variable {options : DedupWindowOptions} {state : SourceState} {w : DedupWindow}
  {source : SourceIdentity} {i : Nat} {f : SourceState → SourceState}

theorem classify_accept_iff {n} :
    (classify options state n).decision = .accept ↔ state.highestContiguousSequence < n ∧
    n - state.highestContiguousSequence ≤ options.maxSequenceDistance ∧ ¬ state.Covers n := by
  unfold classify SourceState.Covers
  by_cases hle : n ≤ state.highestContiguousSequence
  · rw [if_pos hle]
    split <;> simp [Nat.not_lt.mpr hle]
  rw [if_neg hle]
  by_cases hd : n - state.highestContiguousSequence > options.maxSequenceDistance
  · rw [if_pos hd]
    simp [Nat.not_le.mpr hd]
  rw [if_neg hd]
  cases hg : state.gapSet (n - state.highestContiguousSequence)
  · simp [hle, Nat.not_lt.mp hd, Nat.lt_of_not_le hle]
  · simp

section

variable (options : DedupWindowOptions) (state : SourceState) (n : Nat)

@[simp] theorem classify_highest : (classify options state n).highestContiguousSequence =
    some state.highestContiguousSequence := by
  unfold classify
  split
  · split <;> rfl
  split
  · rfl
  · split <;> rfl

theorem classify_not_stale : (classify options state n).decision ≠ .staleSession := by
  unfold classify
  split
  · split <;> simp
  split
  · simp
  · split <;> simp

end

theorem classify_duplicate_covers {n}
    (h : (classify options state n).decision = .duplicateAccepted) : state.Covers n := by
  unfold classify at h
  split at h
  · rename_i hle
    exact .inl hle
  split at h
  · cases h
  split at h
  · rename_i hg
    exact .inr hg
  · cases h

/-- A covered sequence is a duplicate, or so old that only the mark is told. -/
theorem classify_of_covers (options : DedupWindowOptions) {n} (h : state.Covers n) :
    (classify options state n).decision = .duplicateAccepted ∨
      (classify options state n).decision = .nackWithHighest := by
  have hna : (classify options state n).decision ≠ .accept := by
    intro ha
    exact (classify_accept_iff.mp ha).2.2 h
  have hns := classify_not_stale options state n
  cases hd : (classify options state n).decision with
  | accept => exact absurd hd hna
  | duplicateAccepted => exact .inl rfl
  | nackWithHighest => exact .inr rfl
  | staleSession => exact absurd hd hns

/-! ### The representation invariant -/

/-- What holds between any two steps of an operation: the index is exact, every
bitmap has the window's length, and no prefix is left open. -/
structure Shape (w : DedupWindow) : Prop where
  indexed : Indexed SourceState.source w.entries w.sourceIndex
  words : ∀ s ∈ w.entries, s.gapWords.length = w.bitmapWords
  closed : ∀ s ∈ w.entries, BitWords.bit s.gapWords 0 = false
  bitmap : w.options.maxSequenceDistance ≤ w.bitmapWords * 64
  maxSources_pos : 0 < w.options.maxSources
  sourceBytes_pos : 0 < w.sourceBytes
  sourceBytes_le : w.sourceBytes ≤ w.options.maxBytes

/-- What holds between operations: the accounting is exact and within its limits. -/
structure Valid (w : DedupWindow) : Prop extends Shape w where
  bytes_eq : w.bytes = w.entries.length * w.sourceBytes
  bytes_le : w.bytes ≤ w.options.maxBytes
  length_le : w.entries.length ≤ w.options.maxSources

/-- The fields that only `create` and `beginSession` write. -/
structure SameFrame (w w' : DedupWindow) : Prop where
  options : w'.options = w.options
  bitmapWords : w'.bitmapWords = w.bitmapWords
  sourceBytes : w'.sourceBytes = w.sourceBytes
  sessionActive : w'.sessionActive = w.sessionActive
  peerSessionEpoch : w'.peerSessionEpoch = w.peerSessionEpoch

namespace SameFrame

theorem refl (w : DedupWindow) : SameFrame w w := ⟨rfl, rfl, rfl, rfl, rfl⟩

theorem trans {a b c} (h : SameFrame a b) (h' : SameFrame b c) : SameFrame a c :=
  ⟨h'.options.trans h.options, h'.bitmapWords.trans h.bitmapWords,
    h'.sourceBytes.trans h.sourceBytes, h'.sessionActive.trans h.sessionActive,
    h'.peerSessionEpoch.trans h.peerSessionEpoch⟩

theorem stale {w'} (h : SameFrame w w') (epoch : Nat) : w'.stale epoch = w.stale epoch := by
  simp [DedupWindow.stale, h.sessionActive, h.peerSessionEpoch]

end SameFrame

theorem Shape.find_eq_some_iff (hw : w.Shape) :
    w.find source = some state ↔ state ∈ w.entries ∧ state.source = source :=
  hw.indexed.lookup_eq_some_iff

theorem Shape.find_eq_none_iff (hw : w.Shape) :
    w.find source = none ↔ ∀ state ∈ w.entries, state.source ≠ source :=
  hw.indexed.lookup_eq_none_iff

/-- The cache remembers the sequence of the source as accepted. -/
def Covers (w : DedupWindow) (source : SourceIdentity) (n : Nat) : Prop :=
  ∃ state, w.find source = some state ∧ state.Covers n

/-- The mark of a source; a source that is not remembered counts as new. -/
def mark (w : DedupWindow) (source : SourceIdentity) : Nat :=
  (w.find source).elim 0 SourceState.highestContiguousSequence

theorem create_distance (h : create options = .ok w) : 0 < options.maxSequenceDistance := by
  unfold create at h
  split at h
  · cases h
  · omega

theorem create_valid (h : create options = .ok w) :
    w.Valid ∧ w.options = options ∧ w.entries = [] := by
  unfold create at h
  split at h
  · cases h
  simp only at h
  repeat' split at h
  all_goals first | cases h; done | skip
  rename_i hwords hsize hbytes hindex
  cases h
  have hdist : options.maxSequenceDistance ≠ 0 := by tauto
  refine ⟨⟨⟨indexed_nil, by simp, by simp, ?_, ?_, ?_, ?_⟩, ?_, ?_, ?_⟩, rfl, rfl⟩
  · simp only
    omega
  · simp only
    omega
  · simp only [size]
    omega
  · simpa using hbytes
  · simp
  · simp
  · simp

/-! ### Erasure -/

section

variable (h : w.entries[i]? = some state)
include h

theorem eraseEntry_eq : w.eraseEntry i = rebuildIndex { w with
      sourceIndex := Function.update w.sourceIndex state.source none
      entries := w.entries.eraseIdx i
      bytes := w.bytes - w.sourceBytes } := by
  simp [eraseEntry, h]

theorem eraseEntry_entries : (w.eraseEntry i).entries = w.entries.eraseIdx i := by
  rw [eraseEntry_eq h]
  rfl

theorem eraseEntry_bytes : (w.eraseEntry i).bytes = w.bytes - w.sourceBytes := by
  rw [eraseEntry_eq h]
  rfl

end

theorem eraseEntry_frame (w : DedupWindow) (i : Nat) : SameFrame w (w.eraseEntry i) := by
  unfold eraseEntry
  split
  · exact SameFrame.refl w
  · exact ⟨rfl, rfl, rfl, rfl, rfl⟩

theorem Shape.eraseEntry (hw : w.Shape) (h : w.entries[i]? = some state) :
    (w.eraseEntry i).Shape := by
  rw [eraseEntry_eq h]
  refine ⟨hw.indexed.eraseIdx h, ?_, ?_, hw.bitmap, hw.maxSources_pos, hw.sourceBytes_pos,
    hw.sourceBytes_le⟩
  · intro s hs
    exact hw.words s (mem_of_mem_eraseIdx hs)
  · intro s hs
    exact hw.closed s (mem_of_mem_eraseIdx hs)

theorem Valid.eraseEntry (hw : w.Valid) (h : w.entries[i]? = some state) :
    (w.eraseEntry i).Valid := by
  have hlt : i < w.entries.length := (List.getElem?_eq_some_iff.mp h).1
  have hf := eraseEntry_frame w i
  refine ⟨hw.toShape.eraseEntry h, ?_, ?_, ?_⟩
  · rw [eraseEntry_bytes h, eraseEntry_entries h, hf.sourceBytes, hw.bytes_eq,
      length_eraseIdx_of_lt hlt, Nat.sub_mul, Nat.one_mul]
  · rw [eraseEntry_bytes h, hf.options]
    exact Nat.le_trans (Nat.sub_le ..) hw.bytes_le
  · rw [eraseEntry_entries h, hf.options, length_eraseIdx_of_lt hlt]
    exact Nat.le_trans (Nat.sub_le ..) hw.length_le

/-- The entry is still young enough at the given time. -/
def fresh (w : DedupWindow) (nowNs : Nat) (state : SourceState) : Bool :=
  !isExpired nowNs state.lastActivityNs w.options.maxSourceAgeNs

private theorem purgeFrom_spec (nowNs fuel i : Nat) (hw : w.Valid)
    (hfuel : w.entries.length ≤ i + fuel) :
    (purgeFrom nowNs fuel i w).Valid ∧ SameFrame w (purgeFrom nowNs fuel i w) ∧
      (purgeFrom nowNs fuel i w).entries =
        w.entries.take i ++ (w.entries.drop i).filter (w.fresh nowNs) := by
  induction fuel generalizing i w with
  | zero =>
    have hi : w.entries.length ≤ i := by omega
    exact ⟨hw, SameFrame.refl w, by
      simp [purgeFrom, drop_eq_nil_of_le hi, take_of_length_le hi]⟩
  | succ fuel ih =>
    rw [purgeFrom]
    split
    · rename_i hnone
      have hi := getElem?_eq_none_iff.mp hnone
      exact ⟨hw, SameFrame.refl w, by
        simp [drop_eq_nil_of_le hi, take_of_length_le hi]⟩
    rename_i state hsome
    obtain ⟨hlt, hget⟩ := List.getElem?_eq_some_iff.mp hsome
    have hdrop : w.entries.drop i = state :: w.entries.drop (i + 1) := by
      rw [drop_eq_getElem_cons hlt, hget]
    split
    · rename_i hexp
      have hf := eraseEntry_frame w i
      have hlen : (w.eraseEntry i).entries.length ≤ i + fuel := by
        rw [eraseEntry_entries hsome, length_eraseIdx_of_lt hlt]
        omega
      obtain ⟨hv, hframe, hentries⟩ := ih i (hw.eraseEntry hsome) hlen
      refine ⟨hv, hf.trans hframe, ?_⟩
      have hfresh : (w.eraseEntry i).fresh nowNs = w.fresh nowNs := by
        funext s
        simp [fresh, hf.options]
      have hold : w.fresh nowNs state = false := by simp [fresh, hexp]
      have htake : (w.entries.take i).length = i := by simp; omega
      rw [hentries, eraseEntry_entries hsome, hfresh, hdrop, filter_cons, hold,
        eraseIdx_eq_take_drop_succ, take_left' htake, drop_left' htake]
      rfl
    · rename_i hnexp
      obtain ⟨hv, hframe, hentries⟩ := ih (i + 1) hw (by omega)
      refine ⟨hv, hframe, ?_⟩
      have hnew : w.fresh nowNs state = true := by simpa [fresh] using hnexp
      rw [hentries, hdrop, filter_cons, hnew, take_add_one, hsome]
      simp

section

variable (hw : w.Valid) (nowNs : Nat)
include hw

theorem Valid.purgeExpired : (w.purgeExpired nowNs).Valid :=
  (purgeFrom_spec nowNs _ 0 hw (by omega)).1

theorem Valid.purgeExpired_frame : SameFrame w (w.purgeExpired nowNs) :=
  (purgeFrom_spec nowNs _ 0 hw (by omega)).2.1

theorem Valid.purgeExpired_entries :
    (w.purgeExpired nowNs).entries = w.entries.filter (w.fresh nowNs) := by
  simpa [DedupWindow.purgeExpired] using (purgeFrom_spec nowNs _ 0 hw (by omega)).2.2

end

theorem Valid.find_purgeExpired (hw : w.Valid) {nowNs} :
    (w.purgeExpired nowNs).find source = some state ↔
      w.find source = some state ∧ w.fresh nowNs state = true := by
  rw [(hw.purgeExpired nowNs).find_eq_some_iff, hw.find_eq_some_iff, hw.purgeExpired_entries,
    mem_filter]
  tauto

/-! ### Writing to one entry -/

/-- An update of a source state that keeps its place in the representation. -/
structure KeepsShape (f : SourceState → SourceState) : Prop where
  source : ∀ s, (f s).source = s.source
  words : ∀ s, (f s).gapWords.length = s.gapWords.length
  closed : ∀ s, BitWords.bit s.gapWords 0 = false → BitWords.bit (f s).gapWords 0 = false

theorem keepsShape_touch (nowNs : Nat) : KeepsShape fun s => { s with lastActivityNs := nowNs } :=
  ⟨fun _ => rfl, fun _ => rfl, fun _ h => h⟩

theorem keepsShape_accept (d : SourceState → Nat) (time : SourceState → Nat) : KeepsShape fun s =>
    { (s.setGap (d s)).advanceContiguous with lastActivityNs := time s } := by
  refine ⟨fun s => ?_, fun s => ?_, fun s _ => ?_⟩
  · simp
  · simp [advanceContiguous, setGap]
  · exact bit_zero_advanceContiguous _

theorem keepsShape_seed (highest nowNs : Nat) : KeepsShape fun s => { s with
      highestContiguousSequence := highest
      gapWords := s.gapWords.map fun _ => 0#64
      lastActivityNs := nowNs } := by
  refine ⟨fun _ => rfl, fun s => by simp, fun s _ => ?_⟩
  simp [map_const']

theorem modify_frame (w : DedupWindow) (source : SourceIdentity) (f : SourceState → SourceState) :
    SameFrame w (w.modify source f) := by
  unfold modify
  split
  · exact ⟨rfl, rfl, rfl, rfl, rfl⟩
  · exact SameFrame.refl w

theorem Shape.find_modify (hw : w.Shape) (f : SourceState → SourceState)
    (source other : SourceIdentity) : (w.modify source f).find other =
      if other = source then (w.find source).map f else w.find other := by
  unfold modify
  cases hi : w.sourceIndex source with
  | none =>
    by_cases he : other = source
    · subst he
      simp [find, hi]
    · simp [he]
  | some i =>
    simp only [find]
    by_cases hne : other = source
    · subst hne
      simp [hi]
    rw [if_neg hne]
    cases hj : w.sourceIndex other with
    | none => rfl
    | some j =>
      have hij : i ≠ j := by
        rintro rfl
        have hsrc := (hw.indexed _ _).mp hi
        have hoth := (hw.indexed _ _).mp hj
        exact hne (Option.some.inj (hoth.symm.trans hsrc))
      simp [getElem?_modify, hij]

theorem mem_modify {s} (h : s ∈ (w.modify source f).entries) :
    s ∈ w.entries ∨ ∃ s₀ ∈ w.entries, s = f s₀ := by
  unfold modify at h
  split at h
  · rename_i i _
    obtain ⟨j, hj⟩ := mem_iff_getElem?.mp h
    simp only [getElem?_modify, Option.map_eq_map, Option.map_eq_some_iff] at hj
    obtain ⟨s₀, hs₀, rfl⟩ := hj
    split
    · exact .inr ⟨s₀, mem_of_getElem? hs₀, rfl⟩
    · exact .inl (mem_of_getElem? hs₀)
  · exact .inl h

section

variable (w : DedupWindow) (source : SourceIdentity) (f : SourceState → SourceState)

theorem modify_length : (w.modify source f).entries.length = w.entries.length := by
  unfold modify
  split
  · simp
  · rfl

theorem modify_bytes : (w.modify source f).bytes = w.bytes := by
  unfold modify
  split <;> rfl

end

theorem Shape.modify (hw : w.Shape) (hf : KeepsShape f) (source : SourceIdentity) :
    (w.modify source f).Shape := by
  have hframe := modify_frame w source f
  refine ⟨?_, ?_, ?_, ?_, ?_, ?_, ?_⟩
  · unfold DedupWindow.modify
    split
    · exact hw.indexed.modify hf.source _
    · exact hw.indexed
  · intro s hs
    rw [hframe.bitmapWords]
    rcases mem_modify hs with hs | ⟨s₀, hs₀, rfl⟩
    · exact hw.words s hs
    · rw [hf.words]
      exact hw.words s₀ hs₀
  · intro s hs
    rcases mem_modify hs with hs | ⟨s₀, hs₀, rfl⟩
    · exact hw.closed s hs
    · exact hf.closed s₀ (hw.closed s₀ hs₀)
  · rw [hframe.options, hframe.bitmapWords]
    exact hw.bitmap
  · rw [hframe.options]
    exact hw.maxSources_pos
  · rw [hframe.sourceBytes]
    exact hw.sourceBytes_pos
  · rw [hframe.sourceBytes, hframe.options]
    exact hw.sourceBytes_le

theorem Valid.modify (hw : w.Valid) (hf : KeepsShape f) (source : SourceIdentity) :
    (w.modify source f).Valid := by
  have hframe := modify_frame w source f
  refine ⟨hw.toShape.modify hf source, ?_, ?_, ?_⟩
  · rw [modify_bytes, modify_length, hframe.sourceBytes]
    exact hw.bytes_eq
  · rw [modify_bytes, hframe.options]
    exact hw.bytes_le
  · rw [modify_length, hframe.options]
    exact hw.length_le

/-! ### Adding a source -/

theorem oldest_lt (h : 2 ≤ w.entries.length) : w.oldest < w.entries.length - 1 := by
  unfold oldest
  refine foldlRecOn (motive := fun oldest => oldest < w.entries.length - 1) _ _ ?_ ?_
  · omega
  intro oldest hlt i hi
  have hmem : i ∈ range (w.entries.length - 1) := mem_of_mem_drop hi
  split
  · exact mem_range.mp hmem
  · exact hlt

/-- A window that is full has an entry beside the new one. -/
theorem Shape.two_le_of_full (hw : w.Shape) {old : List SourceState} {new : SourceState}
    (hentries : w.entries = old ++ [new]) (hbytes : w.bytes = old.length * w.sourceBytes)
    (hfull : w.entries.length > w.options.maxSources ∨
      w.bytes > w.options.maxBytes - w.sourceBytes) : 2 ≤ w.entries.length := by
  have hlen : w.entries.length = old.length + 1 := by simp [hentries]
  rcases hfull with hcount | hroom
  · have := hw.maxSources_pos
    omega
  have : 0 < w.bytes := by omega
  rw [hbytes] at this
  have := Nat.pos_of_mul_pos_right this
  omega

/-- The eviction loop drops old entries until the new one fits, and never the
new one itself. -/
private theorem evictLoop_spec (fuel : Nat) (hw : w.Shape)
    (old : List SourceState) {new : SourceState} (hentries : w.entries = old ++ [new])
    (hbytes : w.bytes = old.length * w.sourceBytes) (hfuel : old.length ≤ fuel) :
    (evictLoop fuel w).Shape ∧ SameFrame w (evictLoop fuel w) ∧
      ∃ old', old'.Sublist old ∧ (evictLoop fuel w).entries = old' ++ [new] ∧ (evictLoop fuel
        w).bytes = old'.length * w.sourceBytes ∧ old'.length + 1 ≤ w.options.maxSources ∧
        (evictLoop fuel w).bytes ≤ w.options.maxBytes - w.sourceBytes := by
  induction fuel generalizing w old with
  | zero =>
    have hnil : old = [] := eq_nil_of_length_eq_zero (by omega)
    subst hnil
    have hb : w.bytes = 0 := by simpa using hbytes
    refine ⟨hw, SameFrame.refl w, [], List.Sublist.refl _, hentries, ?_, ?_, ?_⟩
    · simpa [evictLoop] using hb
    · exact hw.maxSources_pos
    · simp [evictLoop, hb]
  | succ fuel ih =>
    have hlen : w.entries.length = old.length + 1 := by simp [hentries]
    rw [evictLoop]
    split
    · rename_i hfull
      have hlt := oldest_lt (hw.two_le_of_full hentries hbytes hfull)
      have hold : w.oldest < old.length := by omega
      obtain ⟨x, hx⟩ : ∃ x, w.entries[w.oldest]? = some x :=
        ⟨_, getElem?_eq_getElem (by omega)⟩
      have hframe := eraseEntry_frame w w.oldest
      have hsub : (old.eraseIdx w.oldest).Sublist old := eraseIdx_sublist ..
      have hcount : (old.eraseIdx w.oldest).length = old.length - 1 :=
        length_eraseIdx_of_lt hold
      obtain ⟨hshape, hf, old', hs, he, hb, hc, hl⟩ :=
        ih (hw.eraseEntry hx) (old.eraseIdx w.oldest)
          (by rw [eraseEntry_entries hx, hentries, eraseIdx_append_of_lt_length hold])
          (by rw [eraseEntry_bytes hx, hframe.sourceBytes, hbytes, hcount, Nat.sub_mul,
                Nat.one_mul])
          (by omega)
      rw [hframe.sourceBytes] at hb hl
      rw [hframe.options] at hc hl
      exact ⟨hshape, hframe.trans hf, old', hs.trans hsub, he, hb, hc, hl⟩
    · rename_i hroom
      rw [not_or, Nat.not_lt, Nat.not_lt] at hroom
      exact ⟨hw, SameFrame.refl w, old, List.Sublist.refl _, hentries, hbytes, by omega, hroom.2⟩

theorem Shape.pushSource (hw : w.Shape) (hindex : w.sourceIndex source = none) (highest nowNs : Nat) :
    (w.pushSource source highest nowNs).Shape := by
  refine ⟨hw.indexed.push hindex, ?_, ?_, hw.bitmap, hw.maxSources_pos, hw.sourceBytes_pos,
    hw.sourceBytes_le⟩
  · intro s hs
    rcases mem_append.mp hs with hs | hs
    · exact hw.words s hs
    · rw [mem_singleton.mp hs]
      simp [newSource, DedupWindow.pushSource]
  · intro s hs
    rcases mem_append.mp hs with hs | hs
    · exact hw.closed s hs
    · rw [mem_singleton.mp hs]
      simp [newSource]

section

variable (hw : w.Valid) (hnew : w.find source = none) (highest nowNs : Nat)
include hw hnew highest

theorem Valid.addSource :
    (w.addSource source highest nowNs).1 = .success ∧ (w.addSource source highest nowNs).2.Valid ∧
    SameFrame w (w.addSource source highest nowNs).2 ∧ ∃ old, old.Sublist w.entries ∧
    (w.addSource source highest nowNs).2.entries = old ++ [w.newSource source highest nowNs] := by
  have hindex : w.sourceIndex source = none :=
    hw.indexed.index_eq_none_iff.mpr (hw.find_eq_none_iff.mp hnew)
  obtain ⟨hshape, hframe, old, hsub, hentries, hbytes, hcount, hroom⟩ :=
    evictLoop_spec (w.pushSource source highest nowNs).entries.length (hw.toShape.pushSource hindex
      highest nowNs) w.entries rfl hw.bytes_eq (by simp [DedupWindow.pushSource])
  have hroom' : w.sourceBytes ≤ w.options.maxBytes := hw.sourceBytes_le
  simp only [DedupWindow.addSource, hindex, Option.isSome_none, Bool.false_eq_true, if_false,
    evictToLimits]
  refine ⟨trivial, ⟨⟨hshape.indexed, hshape.words, hshape.closed, hshape.bitmap,
    hshape.maxSources_pos, hshape.sourceBytes_pos, hshape.sourceBytes_le⟩, ?_, ?_, ?_⟩,
    ⟨hframe.options, hframe.bitmapWords, hframe.sourceBytes, hframe.sessionActive,
      hframe.peerSessionEpoch⟩, old, hsub, hentries⟩
  · rw [hbytes, hentries, hframe.sourceBytes, length_append, length_singleton,
      Nat.add_mul, Nat.one_mul]
  · rw [hframe.sourceBytes, hframe.options]
    simp only [DedupWindow.pushSource] at hroom ⊢
    omega
  · rw [hentries, hframe.options, length_append, length_singleton]
    exact hcount

theorem Valid.find_addSource : (w.addSource source highest nowNs).2.find source =
    some (w.newSource source highest nowNs) := by
  obtain ⟨-, hv, -, old, -, hentries⟩ := hw.addSource hnew highest nowNs
  rw [hv.find_eq_some_iff, hentries]
  exact ⟨by simp, rfl⟩

theorem Valid.find_addSource_of_ne {other} (hne : other ≠ source)
    (h : (w.addSource source highest nowNs).2.find other = some state) :
    w.find other = some state := by
  obtain ⟨-, hv, -, old, hsub, hentries⟩ := hw.addSource hnew highest nowNs
  obtain ⟨hmem, hsource⟩ := hv.find_eq_some_iff.mp h
  rw [hentries, mem_append, mem_singleton] at hmem
  rcases hmem with hold | rfl
  · exact hw.find_eq_some_iff.mpr ⟨hsub.subset hold, hsource⟩
  · exact absurd hsource.symm hne

end

end DedupWindow

end Mino.Bridge
