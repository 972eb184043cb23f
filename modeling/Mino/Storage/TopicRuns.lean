import Mino.Storage.TopicSteps

/-! # Runs of a topic writer

Records get into segments with consecutive sequences, and every call keeps the invariant: after a
failure the writer is poisoned, and a poisoned writer does nothing any more. -/

namespace Mino.Storage.TopicWriter

open List Function Result Proc SegmentWriter

variable {origin : Origin} {n k : Nat} {w : TopicWriter} {active : ActiveSegment}

/-! ### A new segment -/

theorem systemCall_spec (w : TopicWriter) (status : Errno → Status) :
    Triple (· = w) (systemCall status) (fun _ t => SameManifest w t) fun _ t => SameManifest w t := by
  refine triple_get_bind fun u hu => ?_
  subst hu
  generalize syncData u.answers = result
  obtain ⟨errno, answers⟩ := result
  refine triple_modify_bind (SameManifest u) ?_ ?_
  · rintro t rfl
    exact ⟨t.manifest.poisoned, answers, rfl⟩
  cases errno with
  | some errno => exact triple_fail fun _ => id
  | none => exact triple_pure fun _ => id

/-- The segment is in the manifest, and there is nothing else of it. -/
structure Adding (origin : Origin) (n k : Nat) (options : TopicWriterOptions)
    (entry : SegmentManifestEntry) (t : TopicWriter) : Prop where
  good : Good origin n k t
  idle : t.active = none
  last : (added origin.old t).getLast? = some entry
  next : t.nextSegmentId = entry.segmentId
  positive : entry.segmentId ≠ 0
  creating : entry.state = .creating
  sameOptions : t.options = options

variable {options : TopicWriterOptions} {entry : SegmentManifestEntry} {s : SegmentState}
  {records : List Record} {t : TopicWriter} {record : Record}

theorem Adding.sameManifest {t u} (h : Adding origin n k options entry t)
    (hu : SameManifest t u) : Adding origin n k options entry u := by
  have hgood := h.good.sameManifest hu
  obtain ⟨poisoned, answers, rfl⟩ := hu
  exact { h with good := hgood }

theorem addSegment_adding (h : Good origin n k w) (hidle : w.active = none)
    (hnext : w.nextSegmentId = entry.segmentId) (hpositive : entry.segmentId ≠ 0)
    (hcreating : entry.state = .creating) : Triple (· = w) (addSegment entry)
      (fun _ t => Adding origin n k w.options entry t) fun _ t => Base origin t := by
  refine (addSegment_spec w entry).imp ?_ fun _ t ht => (h.sameManifest ht).base
  rintro _ _ ⟨next, answers, rfl, hsegments, hcheckpoint, hsorted⟩
  have hnone := h.live.fresh (hnext ▸ hpositive) _ hnext.le
  have hrecorded := h.base.recorded.addSegment answers hsegments hcheckpoint hsorted
    (by rw [hcreating]; rfl) hnone
  refine ⟨⟨{ h.base with recorded := hrecorded }, { h.live with tracked := fun a ha => ?_ }⟩, hidle,
    ?_, hnext, hpositive, hcreating, rfl⟩
  · rw [hidle] at ha
    cases ha
  · rw [h.base.recorded.segments_eq, append_assoc] at hsegments
    rw [added_eq (w := { w with manifest := next, answers := answers }) hsegments,
      getLast?_append_of_ne_nil _ (cons_ne_nil _ _), getLast?_singleton]

/-- The file of the segment is there. -/
theorem createSegment_spec (h : Adding origin n k options entry t)
    (header : SegmentHeader) (now : Nat) : Triple (· = t) (createSegment entry.segmentId header now)
      (fun s u => Adding origin n k options entry u ∧
        Holds options.segmentOptions header [] s ∧ u.files entry.segmentId = s.file)
      fun _ u => Base origin u := by
  rintro t rfl
  have hbase := h.good.base
  rw [createSegment]
  cases hresult : SegmentWriter.create header now t.options.segmentOptions t.answers with
  | mk result answers =>
    cases result with
    | error status =>
      exact { hbase with recorded := { hbase.recorded with
        closed := fun e he hstate => { hbase.recorded.closed e he hstate with } } }
    | ok s =>
      have hholds := (SegmentWriter.create_ok hresult).1
      rw [h.sameOptions] at hholds
      -- the files of the closed segments are others
      have hfiles : Recorded origin.old origin.checkpoint
          (t.setSegmentState ⟨entry, s.writer, 0, [], 0, 0⟩ s) :=
        hbase.recorded.setSegmentState h.last rfl fun hstate => by
          rw [h.creating] at hstate
          cases hstate
      refine ⟨{ h with good := ⟨{ hbase with recorded := { hfiles with
        closed := fun e he hstate => { hfiles.closed e he hstate with } } }, { h.good.live with
          tracked := fun a ha => ?_ }⟩ }, hholds, update_self ..⟩
      rw [h.idle] at ha
      cases ha

/-- The active segment of a new file. -/
def newActive (entry : SegmentManifestEntry) (s : SegmentState) : ActiveSegment :=
  ⟨{ entry with state := .opened }, s.writer, s.synced, [], 0, 0⟩

theorem Good.openSegment (h : Adding origin n k options entry t)
    (hholds : Holds options.segmentOptions (headerOf options entry) [] s)
    (hfile : t.files entry.segmentId = s.file) {next} (answers : List IoAnswer)
    (hnext : Updates { entry with state := .opened } t.manifest next) : Good origin n k { t with
      manifest := next
      answers := answers
      active := some (newActive entry s)
      nextSegmentId := if entry.segmentId = uint64Max then 0 else entry.segmentId + 1 } := by
  have hnone := h.good.live.fresh (h.next ▸ h.positive)
  have hrecords := hnone _ h.next.le
  obtain ⟨hrecorded, hlast⟩ := h.good.base.recorded.updateSegment h.last
    (show entry.segmentId = ({ entry with state := .opened } : SegmentManifestEntry).segmentId from rfl)
    answers hnext nofun
  have hdurable := h.good.live.idle h.idle
  obtain ⟨hstart, hkeys⟩ := h.good.base.order.all
  have hwritten : issuedKeys .written t.issued = t.keys :=
    hkeys.eq_of_length (Nat.le_antisymm hkeys.length_le (hdurable ▸ hstart.length_le))
  refine ⟨{ h.good.base with recorded := { hrecorded with
    closed := fun e he hstate => { hrecorded.closed e he hstate with } } }, { h.good.live with
      fresh := ?_
      idle := nofun
      tracked := ?_ }⟩
  · intro hne id hid
    dsimp only at hne hid
    by_cases hmax : entry.segmentId = uint64Max
    · rw [if_pos hmax] at hne
      contradiction
    · rw [if_neg hmax] at hid
      exact hnone id (by have := h.next; omega)
  · rintro _ ⟨⟩
    constructor
    · rw [h.sameOptions, show (newActive entry s).entry.segmentId = entry.segmentId from rfl, hrecords]
      have hanswers := holds_answers hholds answers
      rw [← hfile] at hanswers
      exact hanswers
    · rw [show (newActive entry s).entry.segmentId = entry.segmentId from rfl, hrecords]
      rfl
    · refine ⟨t.appended, ?_, ?_, ?_⟩
      · rw [show (newActive entry s).entry.segmentId = entry.segmentId from rfl, hrecords,
          map_nil, append_nil]
      · exact hwritten.trans (append_nil _).symm
      · exact hdurable.trans (append_nil _).symm
    · exact ⟨Nat.zero_le _, Nat.zero_le _⟩
    · intro record hrecord
      rw [show (newActive entry s).entry.segmentId = entry.segmentId from rfl, hrecords] at hrecord
      cases hrecord
    · intro hne
      split at hne
      · contradiction
      rename_i hmax
      rw [if_neg hmax]
      exact Nat.lt_succ_self _
    · exact ⟨_, hlast, rfl, rfl, rfl, nofun⟩
    · exact nofun

theorem ensureSegment_spec (sequence : UInt64) (now : Nat) (h : Good origin n k w) :
    Triple (· = w) (ensureSegment sequence now)
      (fun _ t => Good origin n k t ∧ ∃ active, t.active = some active ∧
        (w.active = none → active.acks = [])) fun _ t => Base origin t := by
  refine triple_get_bind ?_
  rintro w rfl
  cases hidle : w.active with
  | some active =>
    refine triple_pure ?_
    rintro t rfl
    exact ⟨h, active, hidle, nofun⟩
  | none =>
    refine triple_ite (fun _ => triple_fail fun t ht => ht ▸ h.base) fun hpositive => ?_
    refine triple_bind _ ((systemCall_spec w _).imp (fun _ _ => id)
      fun _ t ht => (h.sameManifest ht).base) fun _ => triple_of_state fun t ht => ?_
    have hgood := h.sameManifest ht
    obtain ⟨poisoned, answers, rfl⟩ := ht
    refine triple_bind _
      (addSegment_adding hgood hidle rfl hpositive rfl) fun _ => triple_of_state fun t ht => ?_
    refine triple_bind _ (createSegment_spec ht _ now) fun s => triple_of_state fun t ht => ?_
    obtain ⟨hadding, hholds, hfile⟩ := ht
    refine triple_bind (fun _ u => SameManifest t u) ((systemCall_spec t _).imp (fun _ _ => id) fun
      _ t ht => (hadding.sameManifest ht).good.base) fun _ => triple_of_state fun t ht => ?_
    have hadding := hadding.sameManifest ht
    obtain ⟨poisoned, answers, rfl⟩ := ht
    refine triple_bind _ ((updateSegment_spec _ _).imp
      (fun _ _ => id) fun _ t ht => (hadding.sameManifest ht).good.base) fun _ => triple_modify ?_
    rintro _ ⟨next, answers, rfl, hnext⟩
    exact ⟨Good.openSegment hadding hholds hfile answers hnext, _, rfl, fun _ => rfl⟩

/-! ### Records -/

/-- A sealed writer takes no record, and stays as it is. -/
theorem append_open_spec {options header} (h : Holds options header records s)
    (record : Record) (now : Nat) : Triple (· = s) (append record now)
      (fun result t => ((result.recordsAccepted = 1 ∧ Holds options header (records ++ [record]) t ∧
          (records = [] → record.header.ingestionSequence = header.firstIngestionSequence)) ∨
        (result.recordsAccepted = 0 ∧ Holds options header records t)) ∧ s.writer.state ≠ .sealed)
      fun _ t => s.writer.state = .sealed → t = s := by
  by_cases hsealed : s.writer.state = .sealed
  · rintro s rfl
    rw [append_of_sealed hsealed]
    exact fun _ => rfl
  · exact (append_spec record now).mono (fun t ht => ht ▸ h)
      (fun _ _ ht => ⟨ht, hsealed⟩) fun _ _ _ hs => absurd hs hsealed

theorem Base.trackRecord (h : Base origin w) (hactive : w.active = some active)
    {last} (hlast : (added origin.old w).getLast? = some last)
    (hid : last.segmentId = active.entry.segmentId) (hopen : last.state.isActive = true)
    (hsequence : record.header.ingestionSequence.toNat = origin.start + w.appended.length)
    (hresolved : SchemaResolved origin.options record) (ack : PendingAck) :
    Base origin (w.trackRecord record ack) := by
  have hrecorded := h.recorded.trackRecord hactive hlast hid hopen record ack
  simp only [TopicWriter.trackRecord, hactive] at hrecorded ⊢
  refine ⟨h.sameOptions, ?_, ?_, ?_, ?_, hrecorded⟩
  · intro appended happended
    rcases mem_append.mp happended with happended | happended
    · exact h.resolved appended happended
    · rw [mem_singleton.mp happended]
      exact hresolved
  · rw [map_append, contiguous_append, length_map]
    exact ⟨h.contiguous, hsequence, trivial⟩
  · rw [keys, map_append]
    exact h.order.mono _
  · intro issued hissued
    obtain ⟨header, before, r, hr, rest⟩ := h.observed issued hissued
    exact ⟨header, before, r, mem_append_left _ hr, rest⟩

/-- A record is accepted. -/
theorem Good.trackRecord (h : Good origin n 1 w) (hactive : w.active = some active)
    (hopen : active.writer.state ≠ .sealed) {ack}
    (hholds : Holds w.options.segmentOptions (headerOf w.options active.entry)
      (w.recordsOf active.entry.segmentId ++ [record]) s)
    (hfirst : w.recordsOf active.entry.segmentId = [] →
      record.header.ingestionSequence = active.entry.firstIngestionSequence)
    (hsequence : record.header.ingestionSequence.toNat = origin.start + n)
    (hresolved : SchemaResolved origin.options record)
    (hack : ack.ingestionSequence = record.header.ingestionSequence) :
    Good origin (n + 1) 0 ((w.setSegmentState active s).trackRecord record ack) := by
  have ht := h.live.tracked active hactive
  obtain ⟨last, hlast⟩ := ht.listed
  obtain ⟨front, hfront, hwritten, hdurable⟩ := ht.appended
  have hlastOpen : last.state.isActive = true := by
    by_contra hstate
    exact hopen (hlast.sealed (Bool.not_eq_true _ ▸ hstate))
  have hbase := h.base.setSegmentState (s := s) ht fun hsealed => absurd hsealed hopen
  refine ⟨hbase.trackRecord rfl hlast.isLast hlast.segmentId hlastOpen
    (hsequence.trans (congrArg (origin.start + ·) h.live.count.symm)) hresolved ack, ?_⟩
  simp only [TopicWriter.trackRecord, TopicWriter.setSegmentState]
  constructor
  · rw [length_append, length_singleton, h.live.count]
  · intro hmore
    have := h.live.numbered hmore
    omega
  · intro hne id hid
    have hbelow := ht.below hne
    have hother : id ≠ active.entry.segmentId := by dsimp only at hid; omega
    dsimp only
    rw [update_of_ne hother]
    exact h.live.fresh hne id hid
  · intro hpending
    cases hpending
  · rintro _ ⟨⟩
    constructor
    · simpa only [segmentState, update_self] using holds_answers hholds s.answers
    · simp only [update_self, map_append, ht.acks, map_singleton, PendingAck.key, hack]
    · refine ⟨front, ?_, ?_, ?_⟩
      · simp only [update_self, map_append, hfront, append_assoc, map_singleton]
      · simp only [take_append_of_le_length ht.counts.1, hwritten]
      · simp only [take_append_of_le_length ht.counts.2, hdurable]
    · rw [length_append]
      exact ⟨Nat.le_add_right_of_le ht.counts.1, Nat.le_add_right_of_le ht.counts.2⟩
    · intro r hr
      simp only [update_self] at hr
      cases hrecords : w.recordsOf active.entry.segmentId with
      | nil =>
        rw [hrecords, nil_append] at hr
        obtain rfl := Option.some.inj hr
        exact hfirst hrecords
      | cons head rest =>
        rw [hrecords, cons_append] at hr
        refine ht.first r ?_
        rw [hrecords]
        exact hr
    · exact ht.below
    · exact ⟨last, hlast.isLast, hlast.segmentId, hlast.first, hlast.createdAtNs,
        fun hstate => absurd (hlast.sealed hstate) hopen⟩
    · exact fun hstate => absurd (ht.sealed hstate) hopen

variable {record : Record} {ack : PendingAck}

variable (now : Nat) (handles : List RecorderBufferHandle) (failure : Option Status)
  (metadata : RecorderRecordMetadata) (handle : RecorderBufferHandle)

section

variable (h : Good origin n 1 w) (hsequence : record.header.ingestionSequence.toNat =
  origin.start + n) (hresolved : SchemaResolved origin.options record)
  (hack : ack.ingestionSequence = record.header.ingestionSequence)
include h hsequence hresolved hack

/-- The record is in, or the segment that had no room for it is sealed. -/
theorem appendOnce_spec : Triple (· = w) (appendOnce record ack now)
    (fun accepted t => if accepted = true then Good origin (n + 1) 0 t
      else Good origin n 1 t ∧ t.active = none ∧ w.active ≠ none) fun _ t => Base origin t := by
  refine triple_bind _ (ensureSegment_spec _ now h) fun _ => triple_get_bind ?_
  rintro t ⟨hgood, active, hactive, hnew⟩
  have ht := hgood.live.tracked active hactive
  simp only [hactive]
  refine triple_bind _ ((onSegment_spec (append_open_spec ht.holds record now)).imp
    (fun _ _ => id) ?_) fun result => triple_of_state ?_
  · rintro _ _ ⟨s, hs, rfl⟩
    exact hgood.base.setSegmentState ht hs
  rintro _ ⟨s, ⟨hresult, hopen⟩, rfl⟩
  rcases hresult with ⟨haccepted, hholds, hfirst⟩ | ⟨hrejected, hholds⟩
  · have htracked := hgood.trackRecord hactive hopen hholds hfirst hsequence hresolved hack
    rw [if_pos haccepted]
    refine triple_modify_bind (Good origin (n + 1) 0) ?_ ?_
    · rintro _ rfl
      exact htracked
    refine triple_ite (fun _ => triple_of_state fun u hu => ?_) fun _ => triple_pure fun u hu => ?_
    · exact triple_bind _ ((sealCurrent_spec now hu).imp (fun _ _ => id) fun _ _ hf => hf.1)
        fun _ => triple_pure fun v hv => (if_pos rfl).mpr hv.1
    · exact (if_pos rfl).mpr hu
  · have hne : active.writer.state = .sealed → s = t.segmentState active :=
      fun hsealed => absurd hsealed hopen
    have hgood' := hgood.setSegmentState hactive hne hholds
    rw [if_neg (by rw [hrejected]; exact Nat.zero_ne_one)]
    refine triple_ite (fun _ => triple_fail fun u hu => hu ▸ hgood'.base) fun _ => ?_
    refine triple_bind _
      ((sealCurrent_spec now hgood').imp (fun _ _ => id) fun _ _ hf => hf.1) fun _ => triple_pure ?_
    rintro u ⟨hgood, hidle, hacks⟩
    refine (if_neg Bool.false_ne_true).mpr ⟨hgood, hidle, fun hnone => ?_⟩
    exact hacks (workedActive active s) rfl (hnew hnone)

/-- The second segment has room for the record, or sealing it fails. -/
theorem appendRecord_spec : Triple (· = w) (appendRecord record ack now)
    (fun _ t => Good origin (n + 1) 0 t) fun _ t => Base origin t := by
  refine triple_bind _ (appendOnce_spec now h hsequence hresolved hack) fun accepted => ?_
  cases accepted with
  | true => exact triple_pure fun t ht => (if_pos rfl).mp ht
  | false =>
    refine triple_of_state fun t ht => ?_
    obtain ⟨hgood, hidle, -⟩ := (if_neg Bool.false_ne_true).mp ht
    refine triple_bind _ (appendOnce_spec now hgood hsequence hresolved hack) fun accepted => ?_
    cases accepted with
    | true => exact triple_pure fun t ht => (if_pos rfl).mp ht
    | false =>
      exact triple_pure fun u hu => absurd hidle ((if_neg Bool.false_ne_true).mp hu).2.2

end

theorem allocateSequence_spec : Triple (Good origin n 0) allocateSequence (fun sequence t => Good
    origin n 1 t ∧ sequence.toNat = origin.start + n) fun _ t => Base origin t := by
  refine triple_get_bind fun w h => ?_
  refine triple_ite (fun _ => triple_fail fun t ht => ht ▸ h.base) fun hleft => ?_
  have hnumber := h.live.numbered (Bool.eq_false_iff.mpr hleft)
  refine triple_modify_bind (Good origin n 1) ?_ (triple_pure fun t ht => ⟨ht, hnumber⟩)
  rintro t rfl
  have hclosed := h.base.recorded.closed
  split
  · exact ⟨{ h.base with recorded := { h.base.recorded with
        closed := fun e he hstate => { hclosed e he hstate with } } },
      { h.live with
        numbered := nofun
        tracked := fun a ha => { h.live.tracked a ha with
          listed := (h.live.tracked a ha).listed.imp fun _ hlast => { hlast with } } }⟩
  · rename_i hmax
    refine ⟨{ h.base with recorded := { h.base.recorded with
        closed := fun e he hstate => { hclosed e he hstate with } } },
      { h.live with
        numbered := fun _ => ?_
        tracked := fun a ha => { h.live.tracked a ha with
          listed := (h.live.tracked a ha).listed.imp fun _ hlast => { hlast with } } }⟩
    have hlt := t.nextIngestionSequence.toNat_lt
    have hone : (1 : UInt64).toNat = 1 := rfl
    rw [UInt64.toNat_add, hone, Nat.mod_eq_of_lt (by rw [uint64Max] at hmax; omega), hnumber]

/-! ### Calls -/

/-- What the invariant does not look at. -/
def control (w : TopicWriter) (state : TopicWriterState) (errorStatus : Status) (lastNowNs : Nat)
    (sources : SourceKey → SourceProgress) (duplicateCount : Nat) : TopicWriter :=
  { w with
    state := state
    errorStatus := errorStatus
    lastNowNs := lastNowNs
    sources := sources
    duplicateCount := duplicateCount }

section

variable (state : TopicWriterState) (errorStatus : Status) (lastNowNs : Nat)
  (sources : SourceKey → SourceProgress) (duplicateCount : Nat)

theorem Base.control (h : Base origin w) :
    Base origin (w.control state errorStatus lastNowNs sources duplicateCount) :=
  { h with recorded := { h.recorded with
      closed := fun e he hstate => { h.recorded.closed e he hstate with } } }

theorem Good.control (h : Good origin n k w) :
    Good origin n k (w.control state errorStatus lastNowNs sources duplicateCount) :=
  ⟨h.base.control .., { h.live with
    tracked := fun a ha => { h.live.tracked a ha with
      listed := (h.live.tracked a ha).listed.imp fun _ hlast => { hlast with } } }⟩

/-- Between calls, or between the buffers of a call. -/
def Ready (origin : Origin) (w : TopicWriter) : Prop :=
  ∃ n, Good origin n 0 w

def Inv (origin : Origin) (w : TopicWriter) : Prop :=
  Base origin w ∧ (w.state = .error ∨ Ready origin w)

theorem Ready.inv (h : Ready origin w) : Inv origin w :=
  ⟨h.choose_spec.base, .inr h⟩

theorem Ready.control (h : Ready origin w) :
    Ready origin (w.control state errorStatus lastNowNs sources duplicateCount) :=
  h.imp fun _ h => h.control ..

end

/-- A call that keeps the invariant, whatever it answers. -/
def Keeps (origin : Origin) (m : TopicProc Unit) : Prop :=
  Triple (Inv origin) m (fun _ t => Inv origin t) fun _ t => Inv origin t

theorem poison_spec {α : Type} (status : Status) (post : α → TopicWriter → Prop) :
    Triple (Base origin) (poison status) post fun _ t => Inv origin t := by
  refine triple_get_bind fun w h => ?_
  refine triple_ite (fun hstate => triple_fail ?_) fun _ => triple_modify_bind
    (Inv origin) ?_ (triple_fail fun _ => id)
  · rintro t rfl
    exact ⟨h, .inl hstate⟩
  · rintro t rfl
    exact ⟨h.control .., .inl rfl⟩

theorem poisoning_spec {α : Type} {m pre}
    {post : α → TopicWriter → Prop} (h : Triple pre m post fun _ t => Base origin t) :
    Triple pre (poisoning m) post fun _ t => Inv origin t := by
  intro w hw
  have hm := h w hw
  rw [poisoning]
  cases hmw : m w with
  | mk result t =>
    rw [hmw] at hm
    cases result with
    | ok a => exact hm
    | error e => exact poison_spec e post t hm

theorem poisoningUnlessInvalid_spec {m}
      (h : Triple (Good origin n 0) m (fun _ t => Good origin n 0 t) (Failed origin n 0)) :
    Triple (Good origin n 0) (poisoningUnlessInvalid m)
      (fun _ t => Inv origin t) fun _ t => Inv origin t := by
  intro w hw
  have hm := h w hw
  rw [poisoningUnlessInvalid]
  cases hmw : m w with
  | mk result t =>
    rw [hmw] at hm
    cases result with
    | ok a => exact Ready.inv ⟨n, hm⟩
    | error e =>
      by_cases hinvalid : e.code = .invalidArgument
      · simp only [if_pos hinvalid]
        exact Ready.inv ⟨n, hm.2.resolve_left fun h => h hinvalid⟩
      · simp only [if_neg hinvalid]
        exact poison_spec e _ t hm.1

theorem appendGap_spec (last : UInt64) (now : Nat) :
    Triple (Ready origin) (appendGap metadata last now)
      (fun _ t => Ready origin t) fun _ t => Base origin t := by
  refine triple_get_bind ?_
  rintro w ⟨n, h⟩
  refine triple_ite (fun _ => triple_fail fun t ht => ht ▸ h.base) fun _ => ?_
  refine triple_ofExcept_bind (fun _ _ t ht => ht ▸ h.base) fun payload _ => ?_
  refine triple_bind _ (allocateSequence_spec.given fun t ht => ht ▸ h) fun sequence => triple_of_state ?_
  rintro t ⟨hgood, hsequence⟩
  have hgap : kRecordFlagGap &&& kRecordFlagGap ≠ 0 := by decide
  exact (appendRecord_spec now hgood hsequence (.inl ⟨hgap, rfl⟩) rfl).imp
    (fun _ _ h => ⟨_, h⟩) fun _ _ => id

theorem appendData_spec {schemaRef} (now : Nat) {schema}
    (hschema : origin.options.resolveSchema schema = .ok schemaRef) :
    Triple (Ready origin) (appendData metadata handle schemaRef now)
      (fun _ t => Ready origin t) fun _ t => Base origin t := by
  refine triple_get_bind ?_
  rintro w ⟨n, h⟩
  refine triple_bind _ (allocateSequence_spec.given fun t ht => ht ▸ h) fun sequence => triple_of_state ?_
  rintro t ⟨hgood, hsequence⟩
  refine triple_bind _
    (appendRecord_spec now hgood hsequence (.inr ⟨schema, hschema⟩) rfl) fun _ => triple_modify ?_
  exact fun u hu => ⟨_, hu.control ..⟩

theorem processHandle_spec (now : Nat) : Triple (Ready origin) (processHandle handle now)
    (fun _ t => Ready origin t) fun _ t => Inv origin t := by
  refine poisoning_spec (triple_get_bind fun w h => ?_)
  have hbase : ∀ t, t = w → Base origin t := fun t ht => ht ▸ h.inv.1
  have hready : ∀ t, t = w → Ready origin t := fun t ht => ht ▸ h
  refine triple_ofExcept_bind (fun _ _ => hbase) fun metadata _ => ?_
  refine triple_ofExcept_bind (fun _ _ => hbase) fun schemaRef hschema => ?_
  rw [h.inv.1.sameOptions] at hschema
  cases (w.sources metadata.source.key).lastSequence with
  | none => exact (appendData_spec metadata handle now hschema).given hready
  | some last =>
    refine triple_ite (fun _ => triple_modify ?_) fun _ => ?_
    · exact fun t ht => (hready t ht).control ..
    exact triple_bind (fun _ => Ready origin)
      (triple_onlyIf ((appendGap_spec metadata last now).given hready)
        hready) fun _ => appendData_spec metadata handle now hschema

theorem processAll_spec : Triple (Ready origin) (processAll now handles)
    (fun _ t => Ready origin t) fun _ t => Inv origin t := by
  induction handles with
  | nil => exact triple_pure fun _ => id
  | cons handle rest ih => exact triple_bind _ (processHandle_spec handle now) fun _ => ih

theorem enter_spec :
    Triple (Inv origin) (enter now) (fun _ t => Ready origin t) fun _ t => Inv origin t := by
  refine triple_get_bind fun w h => ?_
  have hinv : ∀ t, t = w → Inv origin t := fun t ht => ht ▸ h
  refine triple_ite (fun _ => triple_fail hinv) fun hstate => triple_ite (fun _ => triple_fail hinv)
    fun _ => triple_ite (fun _ => triple_fail hinv) fun _ => triple_modify ?_
  rintro t rfl
  exact (h.2.resolve_left hstate).control ..

theorem start_spec : Keeps origin (start now) := by
  refine triple_get_bind fun w h => ?_
  have hinv : ∀ t, t = w → Inv origin t := fun t ht => ht ▸ h
  refine triple_ite (fun _ => triple_fail hinv) fun hstate => triple_ite
    (fun _ => triple_fail hinv) fun _ => triple_modify ?_
  rintro t rfl
  exact ((h.2.resolve_left hstate).control ..).inv

theorem sealReady_spec : Triple (Ready origin) (sealCurrent now)
    (fun _ t => Ready origin t) fun _ t => Base origin t := by
  refine triple_of_state ?_
  rintro w ⟨n, h⟩
  exact (sealCurrent_spec now h).imp (fun _ _ h => ⟨n, h.1⟩) fun _ _ h => h.1

theorem flushReady_spec : Triple (Ready origin) (flushCurrent now)
    (fun _ t => Ready origin t) fun _ t => Base origin t := by
  refine triple_of_state ?_
  rintro w ⟨n, h⟩
  exact (flushCurrent_spec now).mono (fun t ht => ht ▸ h) (fun _ _ h => ⟨n, h⟩) fun _ _ h => h.1

theorem pump_spec : Keeps origin (pump now handles failure) := by
  refine triple_bind _ (enter_spec now) fun _ => triple_bind _
    (processAll_spec now handles) fun _ => ?_
  cases failure with
  | some status => exact (poison_spec status _).given fun _ h => h.inv.1
  | none =>
    exact (poisoning_spec (flushReady_spec now)).imp (fun _ _ h => h.inv) fun _ _ => id

theorem flush_inv_spec (level : RecordAckLevel) (now : Nat) : Keeps origin (flush level now) := by
  refine triple_bind _ (enter_spec now) fun _ => triple_of_state ?_
  rintro w ⟨n, h⟩
  cases level with
  | written =>
    exact (poisoningUnlessInvalid_spec (flushCurrent_spec now)).given fun t ht => ht ▸ h
  | durable =>
    exact (poisoningUnlessInvalid_spec (triple_of_state fun u hu => (sealCurrent_spec now hu).imp
      (fun _ _ h => h.1) fun _ _ => id)).given fun t ht => ht ▸ h

theorem stopRunning_spec : Keeps origin (stopRunning now handles failure) := by
  refine triple_bind _ (enter_spec now) fun _ => triple_modify_bind (Ready origin) (fun t ht =>
    ht.control ..) (triple_bind _ (processAll_spec now handles) fun _ => ?_)
  cases failure with
  | some status => exact (poison_spec status _).given fun _ h => h.inv.1
  | none =>
    refine triple_bind _ (poisoning_spec (sealReady_spec now)) fun _ => triple_modify fun t ht => ?_
    exact (ht.control ..).inv

theorem stop_spec : Keeps origin (stop now handles failure) := by
  refine triple_get_bind fun w h => ?_
  have hinv : ∀ t, t = w → Inv origin t := fun t ht => ht ▸ h
  cases hstate : w.state with
  | error | stopping => exact triple_fail hinv
  | stopped => exact triple_pure hinv
  | created =>
    refine triple_modify ?_
    rintro t rfl
    have hready := h.2.resolve_left fun herror => by rw [hstate] at herror; cases herror
    exact (hready.control ..).inv
  | running =>
    exact (stopRunning_spec now handles failure).given hinv

theorem reportDiscard_spec (discarded : DiscardedBuffer) : Keeps origin (reportDiscard discarded) := by
  refine triple_get_bind fun w h => ?_
  have hinv : ∀ t, t = w → Inv origin t := fun t ht => ht ▸ h
  refine triple_ofExcept_bind (fun _ _ => hinv) fun metadata _ =>
    triple_ite (fun _ => triple_pure hinv) fun _ => triple_modify ?_
  rintro t rfl
  exact ⟨h.1.control .., h.2.imp id fun hready => hready.control ..⟩

theorem call_inv (call : Call) (h : Inv origin w) : Inv origin (call.proc w).2 := by
  have hspec : Keeps origin call.proc := by
    cases call with
    | start now => exact start_spec now
    | pump now handles failure => exact pump_spec now handles failure
    | flush level now => exact flush_inv_spec level now
    | stop now handles failure => exact stop_spec now handles failure
    | reportDiscard discarded => exact reportDiscard_spec discarded
  have hcall := hspec w h
  cases hresult : call.proc w with
  | mk result t =>
    rw [hresult] at hcall
    cases result with
    | ok a | error e => exact hcall

theorem run_inv (calls : List Call) (h : Inv origin w) : Inv origin (w.run calls) := by
  induction calls generalizing w with
  | nil => exact h
  | cons call calls ih => exact ih (call_inv call h)

theorem create_inv {initialSequence manifest answers files} (hvalid : manifest.validate = .ok ())
    (h : create options initialSequence manifest answers files = .ok w) :
    Inv ⟨options, w.nextIngestionSequence.toNat, manifest.segments, manifest.checkpoint⟩ w := by
  obtain ⟨_, -, h⟩ := bind_eq_ok h
  obtain ⟨_, -, h⟩ := bind_eq_ok h
  obtain ⟨_, -, h⟩ := bind_eq_ok h
  obtain ⟨_, -, h⟩ := bind_eq_ok h
  obtain rfl := Except.ok.inj h
  have hnothing : AckOrder [] [] := fun n => by
    rw [take_nil]
    exact ⟨ nil_prefix, nil_prefix⟩
  refine Ready.inv ⟨0, ⟨?_, ?_⟩⟩
  · exact {
      sameOptions := rfl
      resolved := nofun
      contiguous := trivial
      order := hnothing
      observed := nofun
      recorded := recorded_of (show manifest.segments = manifest.segments ++ [] from
        (append_nil _).symm) (validate_sorted hvalid)
        nofun rfl (.inl rfl) }
  · exact {
      count := rfl
      numbered := fun _ => rfl
      fresh := fun _ _ _ => rfl
      idle := fun _ => rfl
      tracked := fun _ hnone => nomatch hnone }

/-! ### Acknowledgements of a run -/

theorem contiguous_sequences {next} (h : Contiguous next records) :
    records.map (·.header.ingestionSequence.toNat) = range' next records.length := by
  induction records generalizing next with
  | nil => rfl
  | cons record rest ih => rw [map_cons, h.1, ih h.2, length_cons, range'_succ]

/-- The first records of a run have the first sequences. -/
theorem Base.sequences (h : Base origin w) {keys}
    (hkeys : keys <+: w.keys) : keys.map (·.2.toNat) = List.range' origin.start keys.length := by
  have hall : w.keys.map (·.2.toNat) = List.range' origin.start w.keys.length := by
    have := contiguous_sequences h.contiguous
    rw [map_map, length_map] at this
    rw [TopicWriter.keys, map_map, length_map]
    exact this
  have hmap := hkeys.map (·.2.toNat)
  rw [hall, prefix_iff_eq_take, length_map, take_range'_of_length_ge hkeys.length_le] at hmap
  exact hmap

/-- Whatever fails in a run: the acknowledgements of each level have consecutive sequences from the
first one on, at every moment those that are durable are the first of those that are written, and
each was true when it was issued. -/
theorem run_acknowledgements {initialSequence : UInt64} {manifest : PartitionManifest}
    {answers : List IoAnswer} {files : Nat → Bytes} (hvalid : manifest.validate = .ok ())
    (h : create options initialSequence manifest answers files = .ok w) (calls : List Call) :
    (∀ level, (issuedKeys level (w.run calls).issued).map (·.2.toNat) =
      List.range' w.nextIngestionSequence.toNat (issuedKeys level (w.run calls).issued).length) ∧
    AckOrder (w.run calls).keys (w.run calls).issued ∧
    ∀ issued ∈ (w.run calls).issued, Observed (w.run calls).appended issued := by
  have hbase := (run_inv calls (create_inv hvalid h)).1
  refine ⟨fun level => hbase.sequences ?_, hbase.order, hbase.observed⟩
  have hall := hbase.order.all
  cases level with
  | written => exact hall.2
  | durable => exact hall.1.trans hall.2

/-- Whatever fails in a run, the manifest keeps its old segments and describes the added ones. -/
theorem run_recorded {initialSequence : UInt64} {manifest : PartitionManifest}
    {answers : List IoAnswer} {files : Nat → Bytes} (hvalid : manifest.validate = .ok ())
    (h : create options initialSequence manifest answers files = .ok w) (calls : List Call) :
    Recorded manifest.segments manifest.checkpoint (w.run calls) :=
  (run_inv calls (create_inv hvalid h)).1.recorded

/-- A writer that syncs after every batch, into segments of two records. -/
def plainTopicOptions : TopicWriterOptions where
  recordingId := 1
  topicId := 1
  partitionId := 0
  writerId := 1
  segmentOptions := {
    batchBytes := 1048576
    batchRecords := 128
    flushIntervalNs := 10000000
    syncPolicy := .perBatch
    syncIntervalNs := 1000000000
    syncIntervalBytes := 0
    maxSegmentBytes := 0
    maxSegmentRecords := 2
    maxSegmentDurationNs := 0
    formatLimits := .default
    maxWritevBytes := 1048576
    hasWriteHook := false
    hasWritevHook := false
    bufferLimit := 1024 }
  resolveSchema := fun _ => .ok 1

def emptyManifest : PartitionManifest := ⟨1, false, none, [], 1024⟩

def plainHandle (sourceSequence : UInt64) : RecorderBufferHandle where
  metadata := some ⟨⟨1, [], 1, 1⟩, 1, ⟨1, 1, 1, sourceSequence, 0⟩, 0, 3, Wire.crc32c [1, 2, 3]⟩
  topicId := 1
  bytes := [1, 2, 3]
  userTag := 0

/-- A buffer, a flush that seals its segment, and two buffers of which the first leaves a gap. -/
def plainCalls : List Call :=
  [.start 0, .pump 0 [plainHandle 1] none, .flush .durable 0, .pump 1 [plainHandle 3] none,
    .pump 2 [plainHandle 4] none, .stop 2 [] none]

/-- The disk is full 100 bytes into the gap record of the second segment. -/
def fullDisk : List IoAnswer :=
  [0, 0, 0, 52, 0, 0, 144, 0, 0, 0, 0, 0, 0, 0, 0, 52, 0, 0, 100].map .done ++ [.failed .noSpace]

theorem create_plain : ∃ w, create plainTopicOptions 0 emptyManifest fullDisk (fun _ => []) = .ok w ∧
    (w.run plainCalls).manifest.segments.length = 2 ∧
    (w.run plainCalls).appended.map (·.2.header.flags) = [0, kRecordFlagGap] ∧
    (w.run plainCalls).issued.map (·.level) = [.written, .durable] :=
  ⟨_, rfl, by decide +kernel⟩

theorem run_recorded_plain : ∃ w,
    create plainTopicOptions 0 emptyManifest fullDisk (fun _ => []) = .ok w ∧
      Recorded [] none (w.run plainCalls) := by
  obtain ⟨w, hw, -⟩ := create_plain
  exact ⟨w, hw, run_recorded rfl hw plainCalls⟩

theorem run_acknowledgements_plain : emptyManifest.validate = .ok () ∧
    ∃ w, create plainTopicOptions 0 emptyManifest fullDisk (fun _ => []) = .ok w ∧
      (w.run plainCalls).issued.map (·.level) = [.written, .durable] ∧
      (∀ level, (issuedKeys level (w.run plainCalls).issued).map (·.2.toNat) = List.range'
        w.nextIngestionSequence.toNat (issuedKeys level (w.run plainCalls).issued).length) ∧
      AckOrder (w.run plainCalls).keys (w.run plainCalls).issued ∧
      ∀ issued ∈ (w.run plainCalls).issued, Observed (w.run plainCalls).appended issued := by
  obtain ⟨w, hw, -, -, hlevels⟩ := create_plain
  exact ⟨rfl, w, hw, hlevels, run_acknowledgements rfl hw plainCalls⟩

end Mino.Storage.TopicWriter
