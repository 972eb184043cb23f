import Mino.Storage.TopicWriter

/-! # The segments of a run

What the manifest of a topic writer says of the segments that the run added to it, and that the
steps of the writer keep it. -/

namespace Mino.Storage.TopicWriter

open List Function Result Proc

variable {old : List SegmentManifestEntry} {firstCheckpoint : Option DurableCheckpoint}

/-- The header of the file of a segment. -/
def headerOf (options : TopicWriterOptions) (entry : SegmentManifestEntry) : SegmentHeader :=
  segmentHeader options entry.firstIngestionSequence entry.createdAtNs

/-- The file of the segment holds its records, and the entry says which they are. -/
structure Closed (w : TopicWriter) (entry : SegmentManifestEntry) : Prop where
  file : w.files entry.segmentId =
    segmentBytes (headerOf w.options entry) (w.recordsOf entry.segmentId)
  encodable : ∀ record ∈ w.recordsOf entry.segmentId,
    Encodable w.options.segmentOptions.formatLimits record
  inTopic : ∀ record ∈ w.recordsOf entry.segmentId,
    record.header.topicId = w.options.topicId ∧ record.header.partitionId = w.options.partitionId
  first : (w.recordsOf entry.segmentId).head?.map (·.header.ingestionSequence) =
    some entry.firstIngestionSequence
  last : (w.recordsOf entry.segmentId).getLast?.map (·.header.ingestionSequence) =
    some entry.lastIngestionSequence

/-- The checkpoint is at the end of a record of the segment. -/
def PointsAt (w : TopicWriter) (entry : SegmentManifestEntry) (checkpoint : DurableCheckpoint) :
    Prop :=
  checkpoint.segmentId = entry.segmentId ∧ ∃ d, 0 < d ∧ d ≤ (w.recordsOf entry.segmentId).length ∧
    checkpoint.durableOffset = (segmentBytes (headerOf w.options entry)
      ((w.recordsOf entry.segmentId).take d)).length ∧
    ((w.recordsOf entry.segmentId)[d - 1]?).map (·.header.ingestionSequence) =
      some checkpoint.durableSequence

def added (old : List SegmentManifestEntry) (w : TopicWriter) : List SegmentManifestEntry :=
  w.manifest.segments.drop old.length

/-- What the manifest says of the run. -/
structure Recorded (old : List SegmentManifestEntry) (firstCheckpoint : Option DurableCheckpoint)
    (w : TopicWriter) : Prop where
  kept : w.manifest.segments.take old.length = old
  sorted : w.manifest.segments.Pairwise fun a b => a.segmentId < b.segmentId
  closed : ∀ entry ∈ added old w, entry.state.isActive = false → Closed w entry
  records : ((added old w).flatMap fun entry => w.recordsOf entry.segmentId) =
    w.appended.map Prod.snd
  checkpoint : w.manifest.checkpoint = firstCheckpoint ∨ ∃ entry ∈ added old w, ∃ checkpoint,
    w.manifest.checkpoint = some checkpoint ∧ PointsAt w entry checkpoint

theorem Recorded.segments_eq {w} (h : Recorded old firstCheckpoint w) :
    w.manifest.segments = old ++ added old w := by
  conv_lhs => rw [← take_append_drop old.length w.manifest.segments, h.kept]
  rfl

/-! ### Writes of the manifest -/

/-- Only the answers and whether a write of the manifest has failed can differ. -/
def SameManifest (w t : TopicWriter) : Prop :=
  ∃ poisoned answers, t = { w with
    manifest := { w.manifest with poisoned := poisoned }, answers := answers }

variable (w : TopicWriter)

theorem sameManifest_refl : SameManifest w w :=
  ⟨w.manifest.poisoned, w.answers, rfl⟩

theorem commit_spec (next : PartitionManifest) : Triple (· = w) (commit next) (fun _ t => ∃ answers,
    t = { w with manifest := next, answers := answers }) fun _ t => SameManifest w t := by
  refine triple_get_bind fun u hu => ?_
  subst hu
  generalize syncData u.answers = result
  obtain ⟨errno, answers⟩ := result
  refine triple_modify_bind (· = { u with answers := answers }) (fun t ht => ht ▸ rfl) ?_
  cases errno with
  | some errno =>
    refine triple_modify_bind (SameManifest u) ?_ (triple_fail fun t ht => ht)
    rintro t rfl
    exact ⟨true, answers, rfl⟩
  | none =>
    refine triple_modify ?_
    rintro t rfl
    exact ⟨answers, rfl⟩

variable {next : PartitionManifest} {entry last : SegmentManifestEntry}
  {segments : List SegmentManifestEntry}

theorem prepare_ok {m next' : PartitionManifest} (h : m.prepare next = .ok next') :
    next'.segments = next.segments ∧ next'.checkpoint = next.checkpoint ∧ next'.validate = .ok () := by
  obtain ⟨_, -, h⟩ := bind_eq_ok h
  obtain ⟨_, -, h⟩ := bind_eq_ok h
  obtain ⟨u, hvalid, h⟩ := bind_eq_ok h
  obtain rfl := Except.ok.inj h
  exact ⟨rfl, rfl, hvalid⟩

theorem validateSegments_sorted {previous}
    (h : PartitionManifest.validateSegments previous segments = .ok ()) :
    segments.Pairwise (fun a b => a.segmentId < b.segmentId) ∧
      ∀ p, previous = some p → ∀ entry ∈ segments, p.segmentId < entry.segmentId := by
  induction segments generalizing previous with
  | nil => exact ⟨.nil, nofun⟩
  | cons segment rest ih =>
    obtain ⟨_, hsegment, hrest⟩ := bind_eq_ok h
    obtain ⟨hsorted, hafter⟩ := ih hrest
    have hrest := hafter segment rfl
    refine ⟨.cons hrest hsorted, ?_⟩
    rintro p rfl
    obtain ⟨_, -, hsegment⟩ := bind_eq_ok hsegment
    obtain ⟨_, hordered, -⟩ := bind_eq_ok hsegment
    have hordered := rejectIf_ok hordered
    simp only [Option.elim_some, Bool.or_eq_true, decide_eq_true_eq, not_or] at hordered
    intro entry hentry
    rcases mem_cons.mp hentry with rfl | hentry
    · omega
    · have := hrest entry hentry
      omega

theorem validate_sorted {m : PartitionManifest} (h : m.validate = .ok ()) :
    m.segments.Pairwise fun a b => a.segmentId < b.segmentId := by
  obtain ⟨_, -, h⟩ := bind_eq_ok h
  obtain ⟨_, hsegments, -⟩ := bind_eq_ok h
  exact (validateSegments_sorted hsegments).1

theorem addSegment_spec (entry : SegmentManifestEntry) :
    Triple (· = w) (addSegment entry)
      (fun _ t => ∃ next answers, t = { w with manifest := next, answers := answers } ∧
        next.segments = w.manifest.segments ++ [entry] ∧ next.checkpoint = w.manifest.checkpoint ∧
        next.segments.Pairwise fun a b => a.segmentId < b.segmentId)
      fun _ t => SameManifest w t := by
  refine triple_get_bind fun u hu => ?_
  subst hu
  refine triple_ofExcept_bind (fun _ _ t ht => ht ▸ sameManifest_refl u) fun next hnext => ?_
  obtain ⟨hsegments, hcheckpoint, hvalid⟩ := prepare_ok hnext
  refine (commit_spec u next).imp ?_ fun _ _ => id
  rintro _ t ⟨answers, rfl⟩
  exact ⟨next, answers, rfl, hsegments, hcheckpoint, validate_sorted hvalid⟩

/-- What `UpdateSegment` makes of the list of segments. -/
structure Updates (entry : SegmentManifestEntry) (m next : PartitionManifest) : Prop where
  checkpoint : next.checkpoint = m.checkpoint
  found : ∃ found, m.segments.find? (·.segmentId = entry.segmentId) = some found ∧
    PartitionManifest.checkUpdate found entry = .ok ()
  segments : (next.segments = m.segments ∧
      m.segments.find? (·.segmentId = entry.segmentId) = some entry) ∨
    next.segments = PartitionManifest.replace m.segments entry
  sorted : m.segments.Pairwise (fun a b => a.segmentId < b.segmentId) →
    next.segments.Pairwise fun a b => a.segmentId < b.segmentId

theorem updateSegment_spec (entry : SegmentManifestEntry) :
    Triple (· = w) (updateSegment entry)
      (fun _ t => ∃ next answers, t = { w with manifest := next, answers := answers } ∧
        Updates entry w.manifest next)
      fun _ t => SameManifest w t := by
  refine triple_get_bind fun u hu => ?_
  subst hu
  refine triple_ofExcept_bind (fun _ _ t ht => ht ▸ sameManifest_refl u) fun change hchange => ?_
  obtain ⟨_, -, hchange⟩ := bind_eq_ok hchange
  cases hfind : u.manifest.segments.find? (·.segmentId = entry.segmentId) with
  | none =>
    rw [hfind] at hchange
    cases hchange
  | some found =>
    rw [hfind] at hchange
    obtain ⟨v, hcheck, hchange⟩ := bind_eq_ok hchange
    split at hchange
    · rename_i hsame
      obtain rfl := Except.ok.inj hchange
      subst hsame
      refine triple_pure ?_
      rintro t rfl
      exact ⟨t.manifest, t.answers, rfl, rfl, ⟨entry, hfind, hcheck⟩, .inl ⟨rfl, hfind⟩, id⟩
    · obtain ⟨next, hnext, hchange⟩ := bind_eq_ok hchange
      obtain rfl := Except.ok.inj hchange
      obtain ⟨hsegments, hcheckpoint, hvalid⟩ := prepare_ok hnext
      refine (commit_spec u next).imp ?_ fun _ _ => id
      rintro _ t ⟨answers, rfl⟩
      exact ⟨next, answers, rfl, hcheckpoint, ⟨found, hfind, hcheck⟩, .inr hsegments,
        fun _ => validate_sorted hvalid⟩

theorem updateCheckpoint_spec (checkpoint : DurableCheckpoint) :
    Triple (· = w) (updateCheckpoint checkpoint)
      (fun _ t => ∃ next answers, t = { w with manifest := next, answers := answers } ∧
        next.segments = w.manifest.segments ∧ next.checkpoint = some checkpoint)
      fun _ t => SameManifest w t := by
  refine triple_get_bind fun u hu => ?_
  subst hu
  refine triple_ofExcept_bind (fun _ _ t ht => ht ▸ sameManifest_refl u) fun change hchange => ?_
  obtain ⟨_, -, hchange⟩ := bind_eq_ok hchange
  split at hchange
  · rename_i hsame
    obtain rfl := Except.ok.inj hchange
    refine triple_pure ?_
    rintro t rfl
    exact ⟨t.manifest, t.answers, rfl, rfl, hsame⟩
  · obtain ⟨next, hnext, hchange⟩ := bind_eq_ok hchange
    obtain rfl := Except.ok.inj hchange
    obtain ⟨hsegments, hcheckpoint, -⟩ := prepare_ok hnext
    refine (commit_spec u next).imp ?_ fun _ _ => id
    rintro _ t ⟨answers, rfl⟩
    exact ⟨next, answers, rfl, hsegments, hcheckpoint⟩

/-! ### Entries -/

theorem find_eq_some (hsorted : segments.Pairwise fun a b =>
    a.segmentId < b.segmentId) (hmem : entry ∈ segments) {id} (hid : entry.segmentId = id) :
    segments.find? (·.segmentId = id) = some entry := by
  induction segments with
  | nil => cases hmem
  | cons head rest ih =>
    obtain ⟨hhead, hrest⟩ := pairwise_cons.mp hsorted
    rcases mem_cons.mp hmem with rfl | hmem
    · rw [find?_cons_of_pos (by simp [hid])]
    have hne : head.segmentId ≠ id := by
      have := hhead entry hmem
      omega
    rw [find?_cons_of_neg (by simpa using hne)]
    exact ih hrest hmem

/-- Only the last entry has its id. -/
theorem replace_append {front}
    (hsorted : (front ++ [last]).Pairwise fun a b => a.segmentId < b.segmentId)
    (hid : last.segmentId = entry.segmentId) :
    PartitionManifest.replace (front ++ [last]) entry = front ++ [entry] := by
  have hfront : ∀ e ∈ front, e.segmentId ≠ entry.segmentId := by
    intro e he
    have := (pairwise_append.mp hsorted).2.2 e he last (mem_singleton.mpr rfl)
    omega
  rw [PartitionManifest.replace, map_append, map_singleton, if_pos hid]
  congr 1
  conv_rhs => rw [← map_id front]
  refine map_congr_left fun e he => ?_
  rw [if_neg (hfront e he), id]

/-! ### What keeps the manifest true -/

variable {w : TopicWriter} {segments : List SegmentManifestEntry} {checkpoint : DurableCheckpoint}

theorem added_eq (h : w.manifest.segments = old ++ segments) : added old w = segments := by
  rw [added, h, drop_left]

theorem recorded_of (hsegments : w.manifest.segments = old ++ segments)
    (hsorted : w.manifest.segments.Pairwise fun a b => a.segmentId < b.segmentId)
    (hclosed : ∀ entry ∈ segments, entry.state.isActive = false → Closed w entry)
    (hrecords : (segments.flatMap fun entry => w.recordsOf entry.segmentId) =
      w.appended.map Prod.snd)
    (hcheckpoint : w.manifest.checkpoint = firstCheckpoint ∨ ∃ entry ∈ segments, ∃ checkpoint,
      w.manifest.checkpoint = some checkpoint ∧ PointsAt w entry checkpoint) :
    Recorded old firstCheckpoint w where
  kept := by rw [hsegments, take_left]
  sorted := hsorted
  closed := by rwa [added_eq hsegments]
  records := by rwa [added_eq hsegments]
  checkpoint := by rwa [added_eq hsegments]

section

variable (h : Recorded old firstCheckpoint w)
include h

/-- The segments up to the last one that the run added. -/
theorem Recorded.split (hlast : (added old w).getLast? = some last) :
    ∃ front, added old w = front ++ [last] ∧ w.manifest.segments = old ++ (front ++ [last]) ∧
      ∀ entry ∈ front, entry.segmentId < last.segmentId := by
  obtain ⟨front, hfront⟩ := getLast?_eq_some_iff.mp hlast
  have hsegments := h.segments_eq
  rw [hfront] at hsegments
  refine ⟨front, hfront, hsegments, fun entry hentry => ?_⟩
  have hsorted := h.sorted
  rw [hsegments] at hsorted
  exact (pairwise_append.mp (pairwise_append.mp hsorted).2.1).2.2 entry hentry last
    (mem_singleton.mpr rfl)

theorem Recorded.sameManifest {t} (ht : SameManifest w t) : Recorded old firstCheckpoint t := by
  obtain ⟨poisoned, answers, rfl⟩ := ht
  exact { h with closed := fun entry hentry hstate => { h.closed entry hentry hstate with } }

theorem Recorded.addSegment (answers : List IoAnswer)
    (hsegments : next.segments = w.manifest.segments ++ [entry]) (hcheckpoint : next.checkpoint =
    w.manifest.checkpoint) (hsorted : next.segments.Pairwise fun a b => a.segmentId < b.segmentId)
    (hactive : entry.state.isActive = true) (hnone : w.recordsOf entry.segmentId = []) :
    Recorded old firstCheckpoint { w with manifest := next, answers := answers } := by
  rw [h.segments_eq, append_assoc] at hsegments
  refine recorded_of hsegments hsorted ?_ ?_ ?_
  · intro e he hstate
    rcases mem_append.mp he with he | he
    · exact { h.closed e he hstate with }
    · rw [mem_singleton.mp he, hactive] at hstate
      cases hstate
  · rw [flatMap_append, flatMap_singleton, hnone, append_nil]
    exact h.records
  · rw [hcheckpoint]
    refine h.checkpoint.imp_right ?_
    rintro ⟨e, he, rest⟩
    exact ⟨e, mem_append_left _ he, rest⟩

end

theorem checkUpdate_ok {found} (h : PartitionManifest.checkUpdate found entry = .ok ()) :
    entry.firstIngestionSequence = found.firstIngestionSequence ∧
      entry.createdAtNs = found.createdAtNs := by
  obtain ⟨_, hsame, -⟩ := bind_eq_ok h
  have hsame := rejectIf_ok hsame
  rw [not_or, not_or, not_not, not_not, not_not] at hsame
  exact hsame.2

/-- An update of the last segment puts the entry in its place. -/
theorem Recorded.updates (h : Recorded old firstCheckpoint w) (hlast : (added old w).getLast? =
    some last) (hid : last.segmentId = entry.segmentId) (hnext : Updates entry w.manifest next) :
    (∃ front, added old w = front ++ [last] ∧ next.segments = old ++ (front ++ [entry])) ∧
      entry.firstIngestionSequence = last.firstIngestionSequence ∧
      entry.createdAtNs = last.createdAtNs := by
  obtain ⟨front, hfront, hsegments, -⟩ := h.split hlast
  obtain ⟨found, hfind, hcheck⟩ := hnext.found
  have hmem : last ∈ w.manifest.segments := by
    rw [hsegments]
    exact mem_append_right _ (mem_append_right _ (mem_singleton.mpr rfl))
  have hfindLast := find_eq_some h.sorted hmem hid
  obtain rfl : last = found := Option.some.inj (hfindLast.symm.trans hfind)
  refine ⟨⟨front, hfront, ?_⟩, checkUpdate_ok hcheck⟩
  rcases hnext.segments with ⟨hsame, hfound⟩ | hreplace
  · obtain rfl : last = entry := Option.some.inj (hfindLast.symm.trans hfound)
    exact hsame.trans hsegments
  have hsorted := h.sorted
  rw [hsegments, ← append_assoc] at hsorted
  rw [hreplace, hsegments, ← append_assoc, replace_append hsorted hid, append_assoc]

theorem pointsAt_entry (hid : last.segmentId = entry.segmentId)
    (hfirst : entry.firstIngestionSequence = last.firstIngestionSequence)
    (hcreated : entry.createdAtNs = last.createdAtNs) (h : PointsAt w last checkpoint) :
    PointsAt w entry checkpoint := by
  unfold PointsAt headerOf at h ⊢
  rwa [← hid, hfirst, hcreated]

section

variable (h : Recorded old firstCheckpoint w) {active : ActiveSegment}
include h

theorem Recorded.updateSegment (hlast : (added old w).getLast? = some last) (hid : last.segmentId =
    entry.segmentId) (answers : List IoAnswer) (hnext : Updates entry w.manifest next)
    (hclosed : entry.state.isActive = false → Closed w entry) :
    Recorded old firstCheckpoint { w with manifest := next, answers := answers } ∧
      (added old { w with manifest := next, answers := answers }).getLast? = some entry := by
  obtain ⟨⟨front, hfront, hsegments⟩, hfirst, hcreated⟩ := h.updates hlast hid hnext
  refine ⟨recorded_of hsegments (hnext.sorted h.sorted) ?_ ?_ ?_, ?_⟩
  · intro e he hstate
    rcases mem_append.mp he with he | he
    · exact { h.closed e (hfront ▸ mem_append_left _ he) hstate with }
    · rw [mem_singleton.mp he] at hstate ⊢
      exact { hclosed hstate with }
  · have hrecords := h.records
    rw [hfront, flatMap_append, flatMap_singleton, hid] at hrecords
    rwa [flatMap_append, flatMap_singleton]
  · rw [hnext.checkpoint]
    refine h.checkpoint.imp_right ?_
    rintro ⟨e, he, checkpoint, hcheckpoint, hpoints⟩
    rw [hfront] at he
    rcases mem_append.mp he with he | he
    · exact ⟨e, mem_append_left _ he, checkpoint, hcheckpoint, hpoints⟩
    rw [mem_singleton.mp he] at hpoints
    exact ⟨entry, mem_append_right _ (mem_singleton.mpr rfl), checkpoint, hcheckpoint,
      pointsAt_entry hid hfirst hcreated hpoints⟩
  · rw [added_eq (w := { w with manifest := next, answers := answers }) hsegments,
      getLast?_append_of_ne_nil _ (cons_ne_nil _ _), getLast?_singleton]

theorem Recorded.updateCheckpoint (answers : List IoAnswer)
    (hsegments : next.segments = w.manifest.segments) (hnext : next.checkpoint = some checkpoint)
    (hentry : entry ∈ added old w) (hpoints : PointsAt w entry checkpoint) :
    Recorded old firstCheckpoint { w with manifest := next, answers := answers } :=
  recorded_of (hsegments.trans h.segments_eq) (hsegments ▸ h.sorted)
    (fun e he hstate => { h.closed e he hstate with }) h.records
    (.inr ⟨entry, hentry, checkpoint, hnext, hpoints⟩)

/-- A change of the file of the last segment, unless the manifest has it as sealed. -/
theorem Recorded.setSegmentState (hlast : (added old w).getLast? =
    some last) (hid : last.segmentId = active.entry.segmentId) {s}
    (hfile : last.state.isActive = false → s.file = w.files active.entry.segmentId) :
    Recorded old firstCheckpoint (w.setSegmentState active s) := by
  obtain ⟨front, hfront, hsegments, hbefore⟩ := h.split hlast
  refine recorded_of hsegments h.sorted ?_ (hfront ▸ h.records) (hfront ▸ h.checkpoint)
  intro e he hstate
  have hclosed := h.closed e (hfront ▸ he) hstate
  have hsame : (w.setSegmentState active s).files e.segmentId = w.files e.segmentId := by
    rcases mem_append.mp he with he | he
    · have := hbefore e he
      exact update_of_ne (by omega) ..
    · obtain rfl := mem_singleton.mp he
      simp only [TopicWriter.setSegmentState, hid, update_self, hfile hstate]
  exact { hclosed with file := hsame.trans hclosed.file }

/-- A record for the last segment, which the manifest does not have as sealed. -/
theorem Recorded.trackRecord (hactive : w.active = some active)
    (hlast : (added old w).getLast? = some last) (hid : last.segmentId = active.entry.segmentId)
    (hopen : last.state.isActive = true) (record : Record) (ack : PendingAck) :
    Recorded old firstCheckpoint (w.trackRecord record ack) := by
  obtain ⟨front, hfront, hsegments, hbefore⟩ := h.split hlast
  have hother : ∀ e ∈ front, update w.recordsOf active.entry.segmentId
      (w.recordsOf active.entry.segmentId ++ [record]) e.segmentId = w.recordsOf e.segmentId := by
    intro e he
    have := hbefore e he
    exact update_of_ne (by omega) ..
  simp only [TopicWriter.trackRecord, hactive]
  refine recorded_of hsegments h.sorted ?_ ?_ ?_
  · intro e he hstate
    rcases mem_append.mp he with he | he
    · have hclosed := h.closed e (hfront ▸ mem_append_left _ he) hstate
      obtain ⟨hfile, hencodable, htopic, hfirst, hlast⟩ := hclosed
      constructor <;> simpa only [hother e he]
    · rw [mem_singleton.mp he, hopen] at hstate
      cases hstate
  · have hrecords := h.records
    rw [hfront, flatMap_append, flatMap_singleton] at hrecords
    dsimp only
    rw [flatMap_append, flatMap_singleton, hid, update_self, map_append,
      ← hrecords, hid, append_assoc]
    congr 1
    exact flatMap_congr hother
  · refine h.checkpoint.imp_right ?_
    rintro ⟨e, he, checkpoint, hcheckpoint, hsegment, d, hpos, hle, hoffset, hsequence⟩
    rw [hfront] at he
    refine ⟨e, he, checkpoint, hcheckpoint, hsegment, d, hpos, ?_⟩
    rcases mem_append.mp he with he | he
    · simp only [hother e he]
      exact ⟨hle, hoffset, hsequence⟩
    obtain rfl := mem_singleton.mp he
    simp only [hid, update_self] at hle hoffset hsequence ⊢
    rw [take_append_of_le_length hle, getElem?_append_left (by omega), length_append]
    exact ⟨Nat.le_add_right_of_le hle, hoffset, hsequence⟩

end

end Mino.Storage.TopicWriter
