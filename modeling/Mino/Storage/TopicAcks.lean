import Mino.Storage.TopicSegments

/-! # The acknowledgements of a topic writer

The invariant of a run: which acknowledgements there are, what stood on the disk when each of them
was issued, and how the counters of the active segment say so. `Base` holds in every state; `Live`
holds until a call fails with something else than a wrong argument. -/

namespace Mino.Storage

open List Proc PendingAck

/-- Which record an acknowledgement is for. -/
def PendingAck.key (ack : PendingAck) : Nat × UInt64 := (ack.segmentId, ack.ingestionSequence)

def recordKey (appended : Nat × Record) : Nat × UInt64 :=
  (appended.1, appended.2.header.ingestionSequence)

/-- The records of the acknowledgements of one level, in order. -/
def issuedKeys (level : RecordAckLevel) (issued : List IssuedAck) : List (Nat × UInt64) :=
  (issued.filter (·.level = level)).map (·.ack.key)

variable (level : RecordAckLevel)

theorem issuedKeys_append (front rest : List IssuedAck) :
    issuedKeys level (front ++ rest) = issuedKeys level front ++ issuedKeys level rest := by
  rw [issuedKeys, filter_append, map_append]
  rfl

/-- The records with a durable acknowledgement are the first of those with a written one, and these
are the first of all. -/
def Ordered (keys : List (Nat × UInt64)) (issued : List IssuedAck) : Prop :=
  issuedKeys .durable issued <+: issuedKeys .written issued ∧ issuedKeys .written issued <+: keys

/-- They are so at every moment. -/
def AckOrder (keys : List (Nat × UInt64)) (issued : List IssuedAck) : Prop :=
  ∀ n, Ordered keys (issued.take n)

variable {issued more : List IssuedAck} {i : Nat} {ack last : PendingAck} {record : Record}
  {records : List Record} {next : PartitionManifest}

section

variable {keys : List (Nat × UInt64)} (h : AckOrder keys issued)
include h

theorem AckOrder.append (hmore : ∀ m, Ordered keys (issued ++ more.take m)) :
    AckOrder keys (issued ++ more) := by
  intro n
  rw [take_append]
  by_cases hn : n ≤ issued.length
  · rw [Nat.sub_eq_zero_of_le hn, take_zero, append_nil]
    exact h n
  · rw [take_of_length_le (by omega)]
    exact hmore _

theorem AckOrder.mono (more : List (Nat × UInt64)) : AckOrder (keys ++ more) issued :=
  fun n => ⟨(h n).1, (h n).2.trans (prefix_append _ _)⟩

theorem AckOrder.all : Ordered keys issued := by
  have := h issued.length
  rwa [take_length] at this

end

/-- What an acknowledgement says of its record was true when it was issued. -/
def Observed (appended : List (Nat × Record)) (issued : IssuedAck) : Prop :=
  ∃ header before record, (issued.ack.segmentId, record) ∈ appended ∧
    record.header.ingestionSequence = issued.ack.ingestionSequence ∧
    segmentBytes header (before ++ [record]) <+: issued.file ∧
    (issued.level = .durable →
      (segmentBytes header (before ++ [record])).length ≤ issued.synced ∧
      ∃ checkpoint, issued.checkpoint = some checkpoint ∧
        issued.ack.segmentId ≤ checkpoint.segmentId ∧
        issued.ack.ingestionSequence ≤ checkpoint.durableSequence)

namespace TopicWriter

variable {n k start : Nat} {old : List SegmentManifestEntry} {w : TopicWriter}
  {active : ActiveSegment}

def keys (w : TopicWriter) : List (Nat × UInt64) := w.appended.map recordKey

/-- What a run begins with. -/
structure Origin where
  options : TopicWriterOptions
  start : Nat
  old : List SegmentManifestEntry
  checkpoint : Option DurableCheckpoint

/-- The record is that of a gap, or of a schema that was resolved. -/
def SchemaResolved (options : TopicWriterOptions) (record : Record) : Prop :=
  (record.header.flags &&& kRecordFlagGap ≠ 0 ∧ record.header.schemaRef = 0) ∨
    ∃ schema, options.resolveSchema schema = .ok record.header.schemaRef

/-- What holds in every state. -/
structure Base (origin : Origin) (w : TopicWriter) : Prop where
  sameOptions : w.options = origin.options
  resolved : ∀ appended ∈ w.appended, SchemaResolved origin.options appended.2
  contiguous : Contiguous origin.start (w.appended.map Prod.snd)
  order : AckOrder w.keys w.issued
  observed : ∀ issued ∈ w.issued, Observed w.appended issued
  recorded : Recorded origin.old origin.checkpoint w

/-- What the manifest has of the active segment. -/
structure Listed (old : List SegmentManifestEntry) (w : TopicWriter) (active : ActiveSegment)
    (last : SegmentManifestEntry) : Prop where
  isLast : (added old w).getLast? = some last
  segmentId : last.segmentId = active.entry.segmentId
  first : last.firstIngestionSequence = active.entry.firstIngestionSequence
  createdAtNs : last.createdAtNs = active.entry.createdAtNs
  sealed : last.state.isActive = false → active.writer.state = .sealed

/-- The active segment, its records and their acknowledgements. -/
structure Tracked (old : List SegmentManifestEntry) (w : TopicWriter) (active : ActiveSegment) :
    Prop where
  holds : Holds w.options.segmentOptions (headerOf w.options active.entry)
    (w.recordsOf active.entry.segmentId) (w.segmentState active)
  acks : active.acks.map PendingAck.key = (w.recordsOf active.entry.segmentId).map
    fun record => (active.entry.segmentId, record.header.ingestionSequence)
  appended : ∃ front, w.appended = front ++
      (w.recordsOf active.entry.segmentId).map (Prod.mk active.entry.segmentId) ∧
    issuedKeys .written w.issued = front.map recordKey ++
      (active.acks.take active.writtenAckCount).map PendingAck.key ∧
    issuedKeys .durable w.issued = front.map recordKey ++
      (active.acks.take active.durableAckCount).map PendingAck.key
  counts : active.writtenAckCount ≤ active.acks.length ∧ active.durableAckCount ≤ active.acks.length
  first : ∀ record, (w.recordsOf active.entry.segmentId).head? = some record →
    record.header.ingestionSequence = active.entry.firstIngestionSequence
  below : w.nextSegmentId ≠ 0 → active.entry.segmentId < w.nextSegmentId
  listed : ∃ last, Listed old w active last
  sealed : active.entry.state.isActive = false → active.writer.state = .sealed

/-- What holds until a call fails. There are `n` records, and `k` sequences more are allocated. -/
structure Live (origin : Origin) (n k : Nat) (w : TopicWriter) : Prop where
  count : w.appended.length = n
  numbered : w.sequenceExhausted = false → w.nextIngestionSequence.toNat = origin.start + n + k
  fresh : w.nextSegmentId ≠ 0 → ∀ id, w.nextSegmentId ≤ id → w.recordsOf id = []
  idle : w.active = none → issuedKeys .durable w.issued = w.keys
  tracked : ∀ active, w.active = some active → Tracked origin.old w active

structure Good (origin : Origin) (n k : Nat) (w : TopicWriter) : Prop where
  base : Base origin w
  live : Live origin n k w

variable {origin : Origin}

section

variable (h : Tracked old w active)
include h

theorem Tracked.length_acks : active.acks.length = (w.recordsOf active.entry.segmentId).length := by
  have := congrArg List.length h.acks
  rwa [length_map, length_map] at this

theorem Tracked.keys_eq {front} (hfront : w.appended =
      front ++ (w.recordsOf active.entry.segmentId).map (Prod.mk active.entry.segmentId)) :
    w.keys = front.map recordKey ++ active.acks.map key := by
  rw [keys, hfront, map_append, map_map, h.acks]
  rfl

/-- The acknowledgement at an index is that of the record there. -/
theorem Tracked.getElem?_acks (hack : active.acks[i]? = some ack) : ack.segmentId =
    active.entry.segmentId ∧ ∃ record, (w.recordsOf active.entry.segmentId)[i]? = some record ∧
      record.header.ingestionSequence = ack.ingestionSequence := by
  have hi := congrArg (·[i]?) h.acks
  simp only [getElem?_map, hack, Option.map_some] at hi
  obtain ⟨record, hrecord, hkey⟩ := Option.map_eq_some_iff.mp hi.symm
  obtain ⟨hsegment, hsequence⟩ := Prod.mk.inj hkey
  exact ⟨hsegment.symm, record, hrecord, hsequence⟩

theorem Tracked.mem_appended (hrecord : (w.recordsOf active.entry.segmentId)[i]? = some record) :
    (active.entry.segmentId, record) ∈ w.appended := by
  obtain ⟨front, hfront, -⟩ := h.appended
  rw [hfront]
  exact mem_append_right _ (mem_map_of_mem (mem_of_getElem? hrecord))

theorem Tracked.contiguous (hbase : Contiguous start (w.appended.map Prod.snd)) :
    ∃ next, Contiguous next (w.recordsOf active.entry.segmentId) := by
  obtain ⟨front, hfront, -⟩ := h.appended
  rw [hfront, map_append, map_map, contiguous_append] at hbase
  refine ⟨start + (front.map Prod.snd).length, ?_⟩
  have hrest := hbase.2
  rwa [show Prod.snd ∘ Prod.mk active.entry.segmentId = (id : Record → Record) from rfl,
    map_id] at hrest

end

theorem holds_answers {options header s}
    (h : Holds options header records s) (answers : List IoAnswer) :
    Holds options header records { s with answers := answers } :=
  { h with }

/-! ### The manifest -/

theorem Good.sameManifest {t} (h : Good origin n k w)
    (ht : SameManifest w t) : Good origin n k t := by
  have hrecorded := h.base.recorded.sameManifest ht
  obtain ⟨poisoned, answers, rfl⟩ := ht
  refine ⟨{ h.base with recorded := hrecorded }, { h.live with tracked := fun a ha => ?_ }⟩
  have ht := h.live.tracked a ha
  obtain ⟨last, hlast⟩ := ht.listed
  exact { ht with
    holds := holds_answers ht.holds answers
    listed := ⟨last, { hlast with }⟩ }

/-- The entry of the active segment changes, but not what the file says of it. -/
theorem Good.setEntry (h : Good origin n k w) (hactive : w.active = some active)
    {entry} (hid : entry.segmentId = active.entry.segmentId)
    (hfirst : entry.firstIngestionSequence = active.entry.firstIngestionSequence)
    (hcreated : entry.createdAtNs = active.entry.createdAtNs)
    (hsealed : entry.state.isActive = false → active.writer.state = .sealed) : Good origin n k
      { w with active := some { active with entry := entry } } := by
  have ht := h.live.tracked active hactive
  obtain ⟨last, hlast⟩ := ht.listed
  refine ⟨{ h.base with recorded := { h.base.recorded with
    closed := fun e he hstate => { h.base.recorded.closed e he hstate with } } },
    { h.live with
      idle := nofun
      tracked := ?_ }⟩
  rintro _ ⟨⟩
  have hheader : headerOf w.options entry = headerOf w.options active.entry := by
    rw [headerOf, headerOf, hfirst, hcreated]
  constructor
  · simpa only [segmentState, hheader, hid] using ht.holds
  · simpa only [hid] using ht.acks
  · simpa only [hid] using ht.appended
  · exact ht.counts
  · simpa only [hid, hfirst] using ht.first
  · simpa only [hid] using ht.below
  · exact ⟨last, hlast.isLast, hlast.segmentId.trans hid.symm, hlast.first.trans hfirst.symm,
      hlast.createdAtNs.trans hcreated.symm, hlast.sealed⟩
  · exact hsealed

/-- The sealed file of the active segment is what an entry with its last sequence says. -/
theorem Tracked.closed (h : Tracked old w active) (hsealed : active.writer.state = .sealed)
    (hlast : active.acks.getLast? = some last)
    (hentry : active.entry.lastIngestionSequence = last.ingestionSequence) :
    Closed w active.entry := by
  have hlength := h.length_acks
  obtain ⟨front, hfront⟩ := getLast?_eq_some_iff.mp hlast
  have hget : active.acks[active.acks.length - 1]? = some last := by
    rw [← getLast?_eq_getElem?, hlast]
  obtain ⟨-, record, hrecord, hsequence⟩ := h.getElem?_acks hget
  rw [hlength, ← getLast?_eq_getElem?] at hrecord
  refine ⟨(SegmentWriter.counts_of_sealed h.holds hsealed).2, h.holds.encodable, h.holds.inTopic,
    ?_, ?_⟩
  · cases hhead : (w.recordsOf active.entry.segmentId).head? with
    | none =>
      rw [head?_eq_none_iff.mp hhead] at hrecord
      cases hrecord
    | some first => rw [Option.map_some, h.first first hhead]
  · rw [hrecord, Option.map_some, hsequence, hentry]

section

variable (h : Good origin n k w) (hactive : w.active = some active)
include h hactive

/-- The entry of the active segment has become that of the manifest. -/
theorem Good.updateSegment (hlast : active.acks.getLast? = some last)
    (hentry : active.entry.lastIngestionSequence = last.ingestionSequence) (answers : List IoAnswer)
    (hnext : Updates active.entry w.manifest next) :
    Good origin n k { w with manifest := next, answers := answers } := by
  have ht := h.live.tracked active hactive
  obtain ⟨listed, hlisted⟩ := ht.listed
  obtain ⟨hrecorded, hnew⟩ := h.base.recorded.updateSegment hlisted.isLast
    hlisted.segmentId answers hnext fun hstate => ht.closed (ht.sealed hstate) hlast hentry
  refine ⟨{ h.base with recorded := hrecorded }, { h.live with tracked := fun a ha => ?_ }⟩
  obtain rfl : active = a := Option.some.inj (hactive.symm.trans ha)
  exact { ht with
    holds := holds_answers ht.holds answers
    listed := ⟨active.entry, hnew, rfl, rfl, rfl, ht.sealed⟩ }

theorem Good.updateCheckpoint {checkpoint} (hpoints : PointsAt w active.entry checkpoint)
    (answers : List IoAnswer) (hsegments : next.segments = w.manifest.segments)
    (hnext : next.checkpoint = some checkpoint) :
    Good origin n k { w with manifest := next, answers := answers } := by
  have ht := h.live.tracked active hactive
  obtain ⟨last, hlast⟩ := ht.listed
  have hrecorded := h.base.recorded.updateCheckpoint answers hsegments hnext (mem_of_getLast?
    hlast.isLast) (pointsAt_entry hlast.segmentId.symm hlast.first hlast.createdAtNs hpoints)
  have hadded : added origin.old { w with manifest := next, answers := answers } =
      added origin.old w := by
    rw [added, hsegments, added]
  refine ⟨{ h.base with recorded := hrecorded }, { h.live with tracked := fun a ha => ?_ }⟩
  obtain rfl : active = a := Option.some.inj (hactive.symm.trans ha)
  exact { ht with
    holds := holds_answers ht.holds answers
    listed := ⟨last, hadded ▸ hlast.isLast, hlast.segmentId, hlast.first, hlast.createdAtNs,
      hlast.sealed⟩ }

end

/-! ### New acknowledgements -/

/-- An acknowledgement as it would be issued now. -/
def observe (level : RecordAckLevel) (active : ActiveSegment) (w : TopicWriter) (ack : PendingAck) :
    IssuedAck :=
  ⟨level, ack, w.files active.entry.segmentId, active.synced, w.manifest.checkpoint⟩

theorem issueAll_eq (active : ActiveSegment) (acks : List PendingAck)
    (w : TopicWriter) : issueAll level active acks w =
      { w with issued := w.issued ++ acks.map (observe level active w) } := by
  induction acks generalizing w with
  | nil => simp only [issueAll, foldl_nil, map_nil, append_nil]
  | cons ack rest ih =>
    have hrest := ih (issue level active ack w)
    rw [issueAll] at hrest ⊢
    rw [foldl_cons, hrest, issue, append_assoc]
    rfl

theorem issuedKeys_observe (level level' : RecordAckLevel) (active : ActiveSegment)
    (acks : List PendingAck) : issuedKeys level' (acks.map (observe level active w)) =
      if level = level' then acks.map key else [] := by
  have hall : ∀ issued ∈ acks.map (observe level active w), issued.level = level := by
    intro issued hissued
    obtain ⟨ack, -, rfl⟩ := mem_map.mp hissued
    rfl
  rw [issuedKeys]
  split
  · rename_i hlevel
    rw [filter_eq_self.mpr fun a ha => decide_eq_true ((hall a ha).trans hlevel), map_map]
    rfl
  · rename_i hlevel
    rw [filter_eq_nil_iff.mpr fun a ha h =>
      hlevel ((hall a ha).symm.trans (of_decide_eq_true h)), map_nil]

/-- The acknowledgements of the records from one index to another. -/
theorem take_append_drop_take (acks : List PendingAck) (done upTo : Nat) :
    acks.take done ++ (acks.take upTo).drop done = acks.take (max done upTo) := by
  rcases Nat.le_total done upTo with h | h
  · rw [Nat.max_eq_right h]
    conv_rhs => rw [← take_append_drop done (acks.take upTo), take_take, Nat.min_eq_left h]
  rw [Nat.max_eq_left h, drop_eq_nil_of_le, append_nil]
  rw [length_take]
  omega

theorem segmentBytes_start (header : SegmentHeader) (hrecord : records[i]? = some record)
    (hi : i < n) :
    segmentBytes header (records.take i ++ [record]) <+: segmentBytes header (records.take n) := by
  have htake : records.take i ++ [record] = records.take (i + 1) := by
    rw [take_add_one, hrecord, Option.toList_some]
  have hpieces : records.take n = records.take (i + 1) ++ (records.drop (i + 1)).take (n - (i + 1)) := by
    rw [← take_add, Nat.add_sub_cancel' hi]
  rw [htake, hpieces, segmentBytes, segmentBytes, envelopes_append, ← append_assoc]
  exact prefix_append _ _

/-- A record of the active segment that the file has may be acknowledged. -/
theorem Tracked.observed_written (h : Tracked old w active) (hack : active.acks[i]? = some ack)
    (hi : i < active.writer.writtenRecords) :
    Observed w.appended (observe .written active w ack) := by
  obtain ⟨hsegment, record, hrecord, hsequence⟩ := h.getElem?_acks hack
  refine ⟨headerOf w.options active.entry, (w.recordsOf active.entry.segmentId).take i, record,
    hsegment ▸ h.mem_appended hrecord, hsequence, ?_, nofun⟩
  have hfile := h.holds.file
  simp only [segmentState] at hfile
  simp only [observe, hfile]
  exact segmentBytes_start _ hrecord hi

/-- A record that a sync and the checkpoint cover may be acknowledged as durable. -/
theorem Tracked.observed_durable (h : Tracked old w active)
    (hbase : Contiguous start (w.appended.map Prod.snd)) (hack : active.acks[i]? = some ack)
    (hi : i < active.writer.durableRecords)
    (hlast : active.acks[active.writer.durableRecords - 1]? = some last)
    (hcheckpoint : w.manifest.checkpoint = some ⟨active.entry.segmentId,
      active.writer.durableBytes, last.ingestionSequence⟩) :
    Observed w.appended (observe .durable active w ack) := by
  obtain ⟨hsegment, record, hrecord, hsequence⟩ := h.getElem?_acks hack
  obtain ⟨-, lastRecord, hlastRecord, hlastSequence⟩ := h.getElem?_acks hlast
  have hdurable : active.writer.durableBytes = (segmentBytes (headerOf w.options active.entry)
      ((w.recordsOf active.entry.segmentId).take active.writer.durableRecords)).length :=
    h.holds.durable.resolve_left (by simp only [segmentState]; omega)
  obtain ⟨next, hnext⟩ := h.contiguous hbase
  have hfile := h.holds.file
  have hsynced := h.holds.synced
  have hle := h.holds.durable_le
  simp only [segmentState] at hfile hsynced hle
  refine ⟨headerOf w.options active.entry, (w.recordsOf active.entry.segmentId).take i, record,
    hsegment ▸ h.mem_appended hrecord, hsequence,
    ?_, fun _ => ⟨?_, _, hcheckpoint, hsegment.le, ?_⟩⟩
  · simp only [observe, hfile]
    exact segmentBytes_start _ hrecord (by omega)
  · simp only [observe, hsynced, hdurable]
    exact (segmentBytes_start _ hrecord hi).length_le
  · have hthis := contiguous_getElem? hnext hrecord
    have hthat := contiguous_getElem? hnext hlastRecord
    simp only [observe, ← hsequence, ← hlastSequence, UInt64.le_iff_toNat_le]
    omega

/-- More acknowledgements, each of them true. -/
theorem Base.issue (h : Base origin w) (active' : Option ActiveSegment)
    (hmore : ∀ m, Ordered w.keys (w.issued ++ more.take m))
    (hobserved : ∀ issued ∈ more, Observed w.appended issued) :
    Base origin { w with issued := w.issued ++ more, active := active' } where
  sameOptions := h.sameOptions
  resolved := h.resolved
  contiguous := h.contiguous
  order := h.order.append hmore
  observed := fun issued hissued => (mem_append.mp hissued).elim (h.observed issued)
    (hobserved issued)
  recorded := { h.recorded with
    closed := fun e he hstate => { h.recorded.closed e he hstate with } }

/-- `w.active` after all records of the segment have been acknowledged as written. -/
def writtenActive (active : ActiveSegment) : ActiveSegment :=
  { active with writtenAckCount := max active.writtenAckCount active.acks.length }

def durableActive (active : ActiveSegment) (count : Nat) : ActiveSegment :=
  { active with durableAckCount := max active.durableAckCount count }

theorem Tracked.issue (h : Tracked old w active) (more : List IssuedAck) {written durable}
    (hwritten_le : written ≤ active.acks.length) (hdurable_le : durable ≤ active.acks.length)
    (hwritten : issuedKeys .written w.issued ++ issuedKeys .written more =
      issuedKeys .written w.issued ++ ((active.acks.take written).drop active.writtenAckCount).map
        key)
    (hdurable : issuedKeys .durable w.issued ++ issuedKeys .durable more =
      issuedKeys .durable w.issued ++ ((active.acks.take durable).drop
        active.durableAckCount).map key) :
    Tracked old { w with
        issued := w.issued ++ more
        active := some { active with
          writtenAckCount := max active.writtenAckCount written
          durableAckCount := max active.durableAckCount durable } }
      { active with
        writtenAckCount := max active.writtenAckCount written
        durableAckCount := max active.durableAckCount durable } := by
  obtain ⟨front, hfront, hw, hd⟩ := h.appended
  obtain ⟨last, hlast⟩ := h.listed
  refine { h with
    holds := { h.holds with }
    appended := ⟨front, hfront, ?_, ?_⟩
    counts := ⟨Nat.max_le.mpr ⟨h.counts.1, hwritten_le⟩, Nat.max_le.mpr ⟨h.counts.2, hdurable_le⟩⟩
    listed := ⟨last, { hlast with }⟩ }
  · rw [issuedKeys_append, hwritten, hw, append_assoc, ← map_append, take_append_drop_take]
  · rw [issuedKeys_append, hdurable, hd, append_assoc, ← map_append, take_append_drop_take]

end TopicWriter

end Mino.Storage
