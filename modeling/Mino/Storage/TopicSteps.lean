import Mino.Storage.TopicAcks

/-! # The steps of a topic writer

What each command of the topic writer keeps of the invariant. A failure of the segment writer or of
the manifest leaves `Base`; all of the invariant is left when the segment writer has done nothing. -/

namespace Mino.Storage.TopicWriter

open List Proc SegmentWriter

variable {origin : Origin} {n k : Nat} {w : TopicWriter} {active : ActiveSegment} {s : SegmentState}

/-! ### The segment writer -/

theorem onSegment_spec {α : Type} {m} {post : α → SegmentState → Prop}
    {err} (h : Triple (· = w.segmentState active) m post err) :
    Triple (· = w) (onSegment active m) (fun a t => ∃ s, post a s ∧ t = w.setSegmentState active s)
      fun e t => ∃ s, err e s ∧ t = w.setSegmentState active s := by
  rintro u rfl
  have hs := h _ rfl
  rw [onSegment]
  cases hm : m (u.segmentState active) with
  | mk result s =>
    rw [hm] at hs
    cases result with
    | ok a | error e => exact ⟨s, hs, rfl⟩

theorem Base.setSegmentState (h : Base origin w) (ht : Tracked origin.old w active)
    (hs : active.writer.state = .sealed → s = w.segmentState active) :
    Base origin (w.setSegmentState active s) := by
  obtain ⟨last, hlast⟩ := ht.listed
  refine { h with recorded := h.recorded.setSegmentState hlast.isLast hlast.segmentId fun hstate => ?_ }
  rw [hs (hlast.sealed hstate)]
  rfl

/-- The active segment after its writer has worked. -/
def workedActive (active : ActiveSegment) (s : SegmentState) : ActiveSegment :=
  { active with writer := s.writer, synced := s.synced }

theorem Good.setSegmentState (h : Good origin n k w) (hactive : w.active = some active)
    (hs : active.writer.state = .sealed → s = w.segmentState active)
    (hholds : Holds w.options.segmentOptions (headerOf w.options active.entry)
      (w.recordsOf active.entry.segmentId) s) : Good origin n k (w.setSegmentState active s) := by
  have ht := h.live.tracked active hactive
  obtain ⟨last, hlast⟩ := ht.listed
  have hsealed : active.writer.state = .sealed → s.writer.state = .sealed := by
    intro hstate
    rw [hs hstate]
    exact hstate
  refine ⟨h.base.setSegmentState ht hs, { h.live with
    idle := nofun
    tracked := ?_ }⟩
  rintro _ ⟨⟩
  refine { ht with
    holds := ?_
    listed := ⟨last, { hlast with sealed := fun hstate => hsealed (hlast.sealed hstate) }⟩
    sealed := fun hstate => hsealed (ht.sealed hstate) }
  simpa only [segmentState, TopicWriter.setSegmentState,
    Function.update_self] using holds_answers hholds s.answers

/-- What is left when a flush or a seal fails. -/
def Failed (origin : Origin) (n k : Nat) (e : Status) (w : TopicWriter) : Prop :=
  Base origin w ∧ (NotInvalid e ∨ Good origin n k w)

section

variable (h : Good origin n k w)
include h

theorem Good.failed (e : Status) : Failed origin n k e w := ⟨h.base, .inr h⟩

/-- A call of the segment writer that does nothing to a sealed one. -/
theorem segmentCall_spec (hactive : w.active = some active) {m} {q : SegmentState → Prop}
    (hm : Triple (Holds w.options.segmentOptions (headerOf w.options active.entry)
        (w.recordsOf active.entry.segmentId)) m
      (fun _ t => Holds w.options.segmentOptions (headerOf w.options active.entry)
        (w.recordsOf active.entry.segmentId) t ∧ q t)
      fun e t => NotInvalid e ∨ Holds w.options.segmentOptions (headerOf w.options active.entry)
        (w.recordsOf active.entry.segmentId) t)
    (hsealed : ∀ s : SegmentState, s.writer.state = .sealed → m s = (.ok (), s)) :
    Triple (· = w) (onSegment active m) (fun _ t => Good origin n k t ∧
        ∃ s, q s ∧ t.active = some (workedActive active s)) (Failed origin n k) := by
  have ht := h.live.tracked active hactive
  have hstate : active.writer.state = .sealed →
      (m (w.segmentState active)).2 = w.segmentState active := by
    intro hstate
    rw [hsealed _ hstate]
  have hcall : Triple (· = w.segmentState active) m _ _ :=
    hm.given (fun s hs => hs ▸ ht.holds)
  refine (onSegment_spec (hcall.and_state (q := fun s => active.writer.state = .sealed →
    s = w.segmentState active) hstate)).imp ?_ ?_
  · rintro _ _ ⟨s, ⟨⟨hholds, hq⟩, hsame⟩, rfl⟩
    exact ⟨h.setSegmentState hactive hsame hholds, s, hq, rfl⟩
  · rintro e _ ⟨s, ⟨hs, hsame⟩, rfl⟩
    exact ⟨h.base.setSegmentState ht hsame,
      hs.imp_right fun hholds => h.setSegmentState hactive hsame hholds⟩

/-! ### Acknowledgements -/

theorem issueWritten_spec (hactive : w.active = some active) (hall : active.writer.writtenRecords =
    active.acks.length) (err : Status → TopicWriter → Prop) : Triple (· = w) issueWritten
      (fun _ t => Good origin n k t ∧ t.active = some (writtenActive active)) err := by
  refine triple_modify ?_
  rintro w rfl
  have ht := h.live.tracked active hactive
  obtain ⟨front, hfront, hwritten, hdurable⟩ := ht.appended
  have hkeys := ht.keys_eq hfront
  simp only [hactive, issueAll_eq]
  refine ⟨⟨h.base.issue _ (fun m => ?_) ?_, { h.live with
    idle := nofun
    tracked := ?_ }⟩, rfl⟩
  · -- each of them extends the written ones by the next record
    have hpiece : active.acks.take active.writtenAckCount ++
        (active.acks.drop active.writtenAckCount).take m <+: active.acks := by
      conv_rhs => rw [← take_append_drop active.writtenAckCount active.acks]
      exact prefix_append_right_inj _ |>.mpr ( take_prefix _ _)
    have hold := h.base.order.all
    rw [← map_take]
    refine ⟨?_, ?_⟩
    · rw [issuedKeys_append, issuedKeys_append, issuedKeys_observe, issuedKeys_observe,
        if_neg nofun, append_nil]
      exact hold.1.trans (prefix_append _ _)
    · rw [issuedKeys_append, issuedKeys_observe, if_pos rfl, hwritten, hkeys, append_assoc,
        ← map_append]
      exact (prefix_append_right_inj _).mpr (hpiece.map _)
  · intro issued hissued
    obtain ⟨ack, hack, rfl⟩ := mem_map.mp hissued
    obtain ⟨i, hi⟩ := mem_iff_getElem?.mp (mem_of_mem_drop hack)
    have hlength := (List.getElem?_eq_some_iff.mp hi).1
    exact ht.observed_written hi (by omega)
  · rintro _ ⟨⟩
    have hissue := ht.issue
      ((active.acks.drop active.writtenAckCount).map (observe .written active w)) Nat.le.refl
      (Nat.zero_le _) (by rw [issuedKeys_observe, if_pos rfl, take_length])
      (by rw [issuedKeys_observe, if_neg nofun, take_zero, drop_nil, map_nil])
    rwa [Nat.max_zero] at hissue

theorem issueDurable_spec (hactive : w.active = some active)
    (hall : active.acks.length ≤ active.writtenAckCount) {last}
    (hlast : active.acks[active.writer.durableRecords - 1]? = some last)
    (hcheckpoint : w.manifest.checkpoint = some ⟨active.entry.segmentId,
      active.writer.durableBytes, last.ingestionSequence⟩) (err : Status → TopicWriter → Prop) :
    Triple (· = w) (issueDurable active.writer.durableRecords) (fun _ t => Good origin n k t ∧
        t.active = some (durableActive active active.writer.durableRecords)) err := by
  refine triple_modify ?_
  rintro w rfl
  have ht := h.live.tracked active hactive
  obtain ⟨front, hfront, hwritten, hdurable⟩ := ht.appended
  have hcount : active.writer.durableRecords ≤ active.acks.length :=
    ht.length_acks ▸ ht.holds.durable_le.trans ht.holds.written_le
  simp only [hactive, issueAll_eq]
  refine ⟨⟨h.base.issue _ (fun m => ?_) ?_, { h.live with
    idle := nofun
    tracked := ?_ }⟩, rfl⟩
  · have hpiece : active.acks.take active.durableAckCount ++ ((active.acks.take
        active.writer.durableRecords).drop active.durableAckCount).take m <+: active.acks := by
      refine (prefix_append_right_inj _ |>.mpr ( take_prefix _ _)).trans ?_
      rw [take_append_drop_take]
      exact take_prefix _ _
    have hold := h.base.order.all
    rw [← map_take]
    refine ⟨?_, ?_⟩
    · rw [issuedKeys_append, issuedKeys_append, issuedKeys_observe, issuedKeys_observe, if_pos rfl,
        if_neg nofun, append_nil, hdurable, hwritten,
        append_assoc, ← map_append, take_of_length_le hall]
      exact (prefix_append_right_inj _).mpr (hpiece.map _)
    · rw [issuedKeys_append, issuedKeys_observe, if_neg nofun, append_nil]
      exact hold.2
  · intro issued hissued
    obtain ⟨ack, hack, rfl⟩ := mem_map.mp hissued
    obtain ⟨i, hi⟩ := mem_iff_getElem?.mp (mem_of_mem_drop hack)
    rw [getElem?_take] at hi
    split at hi
    · rename_i hlt
      exact ht.observed_durable h.base.contiguous hi hlt hlast hcheckpoint
    · cases hi
  · rintro _ ⟨⟩
    have hissue := ht.issue (((active.acks.take active.writer.durableRecords).drop
      active.durableAckCount).map (observe .durable active w)) (Nat.zero_le _) hcount
      (by rw [issuedKeys_observe, if_neg nofun, take_zero, drop_nil, map_nil])
      (by rw [issuedKeys_observe, if_pos rfl])
    rwa [Nat.max_zero] at hissue

end

/-! ### The checkpoint -/

theorem Tracked.pointsAt (h : Tracked origin.old w active) (hpos : 0 < active.writer.durableRecords)
    {last} (hlast : active.acks[active.writer.durableRecords - 1]? = some last) :
    PointsAt w active.entry ⟨active.entry.segmentId, active.writer.durableBytes,
      last.ingestionSequence⟩ := by
  obtain ⟨-, record, hrecord, hsequence⟩ := h.getElem?_acks hlast
  have hlength := (List.getElem?_eq_some_iff.mp hrecord).1
  refine ⟨rfl, active.writer.durableRecords, hpos, by omega, ?_, ?_⟩
  · exact h.holds.durable.resolve_left (Nat.ne_of_gt hpos)
  · rw [hrecord, Option.map_some, hsequence]

theorem updateOpenManifest_spec (h : Good origin n k w) (hactive : w.active = some active) :
    Triple (· = w) (updateOpenManifest active)
      (fun _ t => Good origin n k t ∧ ∃ entry, t.active = some { active with entry := entry } ∧
        entry.segmentId = active.entry.segmentId)
      fun _ t => Good origin n k t := by
  unfold updateOpenManifest
  cases hlast : active.acks.getLast? with
  | none =>
    refine triple_pure ?_
    rintro t rfl
    exact ⟨h, active.entry, hactive, rfl⟩
  | some last =>
    have hset : Good origin n k
        { w with active := some { active with entry := openEntry active last } } :=
      h.setEntry hactive rfl rfl rfl (h.live.tracked active hactive).sealed
    refine triple_modify_bind
      (· = { w with active := some { active with entry := openEntry active last } })
      (fun t ht => ht ▸ rfl) ((updateSegment_spec _ _).imp ?_ ?_)
    · rintro _ _ ⟨next, answers, rfl, hnext⟩
      exact ⟨hset.updateSegment rfl hlast rfl answers hnext, openEntry active last, rfl, rfl⟩
    · exact fun _ t ht => hset.sameManifest ht

/-- `active` after the publication: what it counts, and how many records are acknowledged. -/
structure Published (active active' : ActiveSegment) : Prop where
  writer : active'.writer = active.writer
  acks : active'.acks = active.acks
  durable : active.writer.durableRecords ≤ active'.durableAckCount

theorem publishDurability_spec (h : Good origin n k w) (hactive : w.active = some active)
    (hall : active.acks.length ≤ active.writtenAckCount) : Triple (· = w) publishDurability
      (fun _ t => Good origin n k t ∧ ∃ active', t.active = some active' ∧ Published active active')
      fun _ t => Good origin n k t := by
  refine triple_get_bind ?_
  rintro w rfl
  simp only [hactive]
  have ht := h.live.tracked active hactive
  refine triple_ite (fun _ => triple_fail fun t ht => ht ▸ h) fun hlength =>
    triple_ite (fun hdone => triple_pure ?_) fun hmore => ?_
  · rintro t rfl
    exact ⟨h, active, hactive, rfl, rfl, hdone⟩
  have hpos : 0 < active.writer.durableRecords := by omega
  have hlt : active.writer.durableRecords - 1 < active.acks.length := by omega
  rw [getElem?_eq_getElem hlt]
  have hlast := getElem?_eq_getElem hlt
  generalize active.acks[active.writer.durableRecords - 1] = last at hlast ⊢
  refine triple_bind _ (updateOpenManifest_spec h hactive) fun _ => triple_of_state ?_
  rintro t ⟨hgood, entry, hentry, hid⟩
  have hpoints := (hgood.live.tracked _ hentry).pointsAt hpos hlast
  refine triple_bind (fun _ u => Good origin n k u ∧ u.active = some { active with entry := entry
    } ∧ u.manifest.checkpoint = some ⟨entry.segmentId, active.writer.durableBytes,
      last.ingestionSequence⟩) ((updateCheckpoint_spec t _).imp ?_ ?_)
    fun _ => triple_of_state ?_
  · rintro _ _ ⟨next, answers, rfl, hsegments, hnext⟩
    rw [← hid] at hnext
    exact ⟨hgood.updateCheckpoint hentry hpoints answers hsegments hnext, hentry, hnext⟩
  · exact fun _ u hu => hgood.sameManifest hu
  · rintro u ⟨hgood, hentry, hcheckpoint⟩
    refine (issueDurable_spec hgood hentry hall hlast hcheckpoint _).imp ?_ fun _ _ => id
    rintro _ t ⟨hgood, hactive⟩
    exact ⟨hgood, _, hactive, rfl, rfl, Nat.le_max_right _ _⟩

/-! ### Flush and seal -/

theorem writtenRecords_eq_of_flush (h : Good origin n k w) (hactive : w.active = some active)
    (hs : s.writer.writtenRecords = (w.recordsOf active.entry.segmentId).length) :
    (workedActive active s).writer.writtenRecords = (workedActive active s).acks.length :=
  hs.trans (h.live.tracked active hactive).length_acks.symm

variable (now : Nat)

theorem flushCurrent_spec : Triple (Good origin n k) (flushCurrent now)
    (fun _ t => Good origin n k t) (Failed origin n k) := by
  refine triple_get_bind fun w h => ?_
  cases hactive : w.active with
  | none => exact triple_pure fun t ht => ht ▸ h
  | some active =>
    refine triple_bind _ (segmentCall_spec h hactive (flush_spec now)
      fun s hs => flush_of_sealed hs now) fun _ => triple_of_state ?_
    rintro t ⟨hgood, s, hs, ht⟩
    have hwritten := writtenRecords_eq_of_flush h hactive hs
    refine triple_bind _ (issueWritten_spec hgood ht hwritten _) fun _ => triple_of_state ?_
    rintro u ⟨hgood, hu⟩
    exact (publishDurability_spec hgood hu (Nat.le_max_right _ _)).imp (fun _ _ h => h.1) fun e _ h => h.failed e

/-- Behind the last record of a sealed segment there is nothing to acknowledge. -/
theorem Good.setIdle (h : Good origin n k w) (hactive : w.active = some active)
    (hdurable : active.acks.length ≤ active.durableAckCount) :
    Good origin n k { w with active := none } := by
  have ht := h.live.tracked active hactive
  obtain ⟨front, hfront, -, hkeys⟩ := ht.appended
  refine ⟨{ h.base with recorded := { h.base.recorded with
    closed := fun e he hstate => { h.base.recorded.closed e he hstate with } } },
    { h.live with
      idle := fun _ => ?_
      tracked := fun _ hnone => nomatch hnone }⟩
  rw [take_of_length_le hdurable, ← ht.keys_eq hfront] at hkeys
  exact hkeys

theorem sealManifest_spec (h : Good origin n k w) (hactive : w.active = some active)
    (hsealed : active.writer.state = .sealed) : Triple (· = w) (sealManifest now)
      (fun _ t => Good origin n k t ∧ t.active = none ∧ active.acks ≠ [])
      fun _ t => Good origin n k t := by
  have ht := h.live.tracked active hactive
  refine triple_get_bind ?_
  rintro w rfl
  simp only [hactive]
  cases hlast : active.acks.getLast? with
  | none => exact triple_fail fun t ht => ht ▸ h
  | some last =>
    have hne : active.acks ≠ [] := fun hnil => by rw [hnil] at hlast; cases hlast
    have hset : Good origin n k
        { w with active := some { active with entry := sealedEntry active last now } } :=
      h.setEntry hactive rfl rfl rfl fun _ => hsealed
    have hwritten := (counts_of_sealed ht.holds hsealed).1
    have hdurable := ht.holds.sealed hsealed
    rw [← ht.length_acks] at hwritten hdurable
    refine triple_modify_bind
      (· = { w with active := some { active with entry := sealedEntry active last now } })
      (fun t ht => ht ▸ rfl) ?_
    refine triple_bind (fun _ t => Good origin n k t ∧
      t.active = some { active with entry := sealedEntry active last now })
      ((updateSegment_spec _ _).imp ?_ fun _ t ht => hset.sameManifest ht)
      fun _ => triple_of_state ?_
    · rintro _ _ ⟨next, answers, rfl, hnext⟩
      exact ⟨hset.updateSegment rfl hlast rfl answers hnext, rfl⟩
    · rintro t ⟨hgood, hactive⟩
      refine triple_bind _ (issueWritten_spec hgood hactive hwritten _) fun _ => triple_of_state ?_
      rintro t ⟨hgood, hactive⟩
      refine triple_bind _
        (publishDurability_spec hgood hactive (Nat.le_max_right _ _)) fun _ => triple_modify ?_
      rintro t ⟨hgood, active', hactive', hpublished⟩
      refine ⟨hgood.setIdle hactive' ?_, rfl, hne⟩
      rw [hpublished.acks]
      exact hdurable.symm.le.trans hpublished.durable

/-- `n` records are still there, and the segment that was sealed had some of them. -/
theorem sealCurrent_spec (h : Good origin n k w) :
    Triple (· = w) (sealCurrent now) (fun _ t => Good origin n k t ∧ t.active = none ∧
      ∀ active, w.active = some active → active.acks ≠ []) (Failed origin n k) := by
  refine triple_get_bind ?_
  rintro w rfl
  cases hactive : w.active with
  | none =>
    refine triple_pure ?_
    rintro t rfl
    exact ⟨h, hactive, fun _ hnone => nomatch hnone⟩
  | some active =>
    refine triple_bind _ (segmentCall_spec h hactive (sealFile_spec now)
      fun s hs => sealFile_of_sealed hs now) fun _ => triple_of_state ?_
    rintro t ⟨hgood, s, hs, ht⟩
    refine (sealManifest_spec now hgood ht hs).imp ?_ fun e _ h => h.failed e
    rintro _ u ⟨hgood, hidle, hne⟩
    refine ⟨hgood, hidle, ?_⟩
    rintro _ ⟨⟩
    exact hne

end Mino.Storage.TopicWriter
