import Mino.Storage.SegmentCheckpoints
import Mino.Storage.TopicRuns

/-! # Recorded data is recoverable

The segments that a run of the topic writer has sealed scan clean, with and without the checkpoint of
the manifest, and their records one after the other are those that were appended. -/

namespace Mino.Storage.TopicWriter

open List

variable {origin : Origin} {w : TopicWriter} {entry : SegmentManifestEntry}
  {scan : SegmentRecoveryOptions} {checkpoint : DurableCheckpoint}

/-- The scan takes records of this size, and knows the schemas that the writer resolves. -/
structure Scans (scan : SegmentRecoveryOptions) (options : TopicWriterOptions) : Prop where
  payload : options.segmentOptions.formatLimits.maxPayloadSize ≤ scan.formatLimits.maxPayloadSize
  encoded : options.segmentOptions.formatLimits.maxEncodedRecordSize ≤
    scan.formatLimits.maxEncodedRecordSize
  known : ∀ schema ref, options.resolveSchema schema = .ok ref → scan.schemaRefKnown ref = true

/-- The file of a segment gives back its records. -/
structure Recoverable (scan : SegmentRecoveryOptions) (w : TopicWriter)
    (entry : SegmentManifestEntry) : Prop where
  file : w.files entry.segmentId =
    segmentBytes (headerOf w.options entry) (w.recordsOf entry.segmentId)
  first : (w.recordsOf entry.segmentId).head?.map (·.header.ingestionSequence) =
    some entry.firstIngestionSequence
  last : (w.recordsOf entry.segmentId).getLast?.map (·.header.ingestionSequence) =
    some entry.lastIngestionSequence
  clean : ∃ report, scanFd { scan with checkpoint := none } (w.files entry.segmentId) = .ok report ∧
    report.disposition = .clean ∧
    report.records = metadataFrom kEncodedSegmentHeaderSize (w.recordsOf entry.segmentId)
  checkpoint : ∀ checkpoint, w.manifest.checkpoint = some checkpoint →
    checkpoint.segmentId = entry.segmentId →
    ∃ report d, scanFd { scan with checkpoint := some ⟨checkpoint.durableOffset,
        some checkpoint.durableSequence⟩ } (w.files entry.segmentId) = .ok report ∧
      report.disposition = .clean ∧ report.checkpointUsed = true ∧
      report.checkpointFellBack = false ∧
      report.records = metadataFrom checkpoint.durableOffset
        ((w.recordsOf entry.segmentId).drop d) ∧
      checkpoint.durableOffset = (segmentBytes (headerOf w.options entry)
        ((w.recordsOf entry.segmentId).take d)).length

theorem Encodable.mono {limits limits' record}
    (h : Encodable limits record) (hpayload : limits.maxPayloadSize ≤ limits'.maxPayloadSize)
    (hencoded : limits.maxEncodedRecordSize ≤ limits'.maxEncodedRecordSize) :
    Encodable limits' record :=
  { h with
    minimum := h.minimum.trans hencoded
    payload := h.payload.trans hpayload
    envelope := h.envelope.trans hencoded }

section

variable (h : Base origin w)
include h

/-- The records of a segment follow each other, from the sequence that its entry says. -/
theorem Base.contiguous_segment (hentry : entry ∈ added origin.old w) (hclosed : Closed w entry) :
    Contiguous entry.firstIngestionSequence.toNat (w.recordsOf entry.segmentId) := by
  obtain ⟨front, rest, hsplit⟩ := append_of_mem hentry
  have hrecords := h.recorded.records
  have hcontiguous := h.contiguous
  rw [← hrecords, hsplit, flatMap_append, flatMap_cons, contiguous_append,
    contiguous_append] at hcontiguous
  have hsegment := hcontiguous.2.1
  have hfirst := hclosed.first
  generalize w.recordsOf entry.segmentId = records at hsegment hfirst ⊢
  cases records with
  | nil => cases hfirst
  | cons record records =>
    have hsame : record.header.ingestionSequence = entry.firstIngestionSequence :=
      Option.some.inj hfirst
    rw [← hsame, hsegment.1]
    exact hsegment

theorem Base.belongs (hscan : Scans scan origin.options)
    (hentry : entry ∈ added origin.old w) (hclosed : Closed w entry)
    (checkpoint : Option SegmentRecoveryCheckpoint) : ∀ record ∈ w.recordsOf entry.segmentId,
      Belongs { scan with checkpoint := checkpoint } (headerOf w.options entry) record := by
  intro record hrecord
  have hmem : record ∈ w.appended.map Prod.snd := by
    rw [← h.recorded.records]
    exact mem_flatMap.mpr ⟨entry, hentry, hrecord⟩
  obtain ⟨appended, happended, rfl⟩ := mem_map.mp hmem
  obtain ⟨htopic, hpartition⟩ := hclosed.inTopic _ hrecord
  have hencodable := hclosed.encodable _ hrecord
  rw [h.sameOptions] at hencodable
  refine ⟨⟨htopic, hpartition, ?_⟩, Encodable.mono hencodable hscan.payload hscan.encoded⟩
  exact (h.resolved appended happended).imp_right fun ⟨schema, hschema⟩ =>
    hscan.known schema _ hschema

/-- The checkpoint of a new segment is one that the run has made. -/
theorem Base.pointsAt (hvalid : ∀ c, origin.checkpoint = some c →
    ∃ e ∈ origin.old, e.segmentId = c.segmentId) (hentry : entry ∈ added origin.old w)
    (hcheckpoint : w.manifest.checkpoint = some checkpoint)
    (hsegment : checkpoint.segmentId = entry.segmentId) : PointsAt w entry checkpoint := by
  have hsorted := h.recorded.sorted
  rw [h.recorded.segments_eq] at hsorted
  obtain ⟨-, hadded, hbefore⟩ := pairwise_append.mp hsorted
  rcases h.recorded.checkpoint with hold | ⟨e, he, c, hc, hpoints⟩
  · obtain ⟨e, he, hid⟩ := hvalid checkpoint (hold.symm.trans hcheckpoint)
    have := hbefore e he entry hentry
    omega
  · obtain rfl : checkpoint = c := Option.some.inj (hcheckpoint.symm.trans hc)
    have hid : e.segmentId = entry.segmentId := hpoints.1.symm.trans hsegment
    have hfound := (find_eq_some hadded he hid).symm.trans (find_eq_some hadded hentry rfl)
    rwa [← Option.some.inj hfound]

theorem Base.recoverable (hscan : Scans scan origin.options)
    (hvalid : ∀ c, origin.checkpoint = some c → ∃ e ∈ origin.old, e.segmentId = c.segmentId)
    (hentry : entry ∈ added origin.old w) (hstate : entry.state.isActive = false) :
    Recoverable scan w entry := by
  have hclosed := h.recorded.closed entry hentry hstate
  have hnext : Contiguous (headerOf w.options entry).firstIngestionSequence.toNat
      (w.recordsOf entry.segmentId) := h.contiguous_segment hentry hclosed
  have hflags : (headerOf w.options entry).flags &&& ~~~kKnownSegmentFlags = 0 :=
    show (0 : UInt16) &&& ~~~kKnownSegmentFlags = 0 by decide
  have hminimum : 144 ≤ scan.formatLimits.maxEncodedRecordSize := by
    have hfirst := hclosed.first
    cases hrecords : w.recordsOf entry.segmentId with
    | nil =>
      rw [hrecords] at hfirst
      cases hfirst
    | cons record rest =>
      exact (h.belongs hscan hentry hclosed none record
        (hrecords ▸ mem_cons_self ..)).encodable.minimum
  refine ⟨hclosed.file, hclosed.first, hclosed.last, ?_, ?_⟩
  · rw [hclosed.file]
    exact scanFd_segmentBytes hminimum rfl hflags (h.belongs hscan hentry hclosed none) hnext
  intro checkpoint hcheckpoint hsegment
  obtain ⟨-, d, hpos, hle, hoffset, hsequence⟩ := h.pointsAt hvalid hentry hcheckpoint hsegment
  obtain ⟨record, hrecord, hsame⟩ := Option.map_eq_some_iff.mp hsequence
  have hbelongs := h.belongs hscan hentry hclosed
    (some ⟨checkpoint.durableOffset, some checkpoint.durableSequence⟩)
  rw [hclosed.file]
  generalize w.recordsOf entry.segmentId = records at *
  -- the records up to the checkpoint, the last of them, and those behind it
  have htake : records.take d = records.take (d - 1) ++ [record] := by
    conv_lhs => rw [← Nat.sub_add_cancel hpos, take_add_one, hrecord, Option.toList_some]
  have hsplit : records.take (d - 1) ++ record :: records.drop d = records := by
    rw [append_cons, ← htake, take_append_drop]
  have hboundary := @scanFd_checkpoint { scan with
      checkpoint := some ⟨checkpoint.durableOffset, some checkpoint.durableSequence⟩ } _ hminimum
    hflags (records.take (d - 1)) (records.drop d) record (by rw [← htake, ← hoffset, hsame])
    (hsplit.symm ▸ hbelongs) (hsplit.symm ▸ hnext)
  rw [hsplit, ← htake, ← hoffset] at hboundary
  obtain ⟨report, hscanned, hclean, hused, hnot, hmetadata⟩ := hboundary
  exact ⟨report, d, hscanned, hclean, hused, hnot, hmetadata, hoffset⟩

end

theorem validate_checkpoint {m : PartitionManifest} (h : m.validate = .ok ())
    (hcheckpoint : m.checkpoint = some checkpoint) :
    ∃ e ∈ m.segments, e.segmentId = checkpoint.segmentId := by
  obtain ⟨_, -, h⟩ := Result.bind_eq_ok h
  obtain ⟨_, -, h⟩ := Result.bind_eq_ok h
  rw [hcheckpoint] at h
  dsimp only [PartitionManifest.validateCheckpoint] at h
  split at h
  · cases h
  rename_i found hfound
  have hid := find?_some hfound
  exact ⟨found, mem_of_find?_eq_some hfound, of_decide_eq_true hid⟩

/-- The segments of a run in the order of the manifest hold what was appended, with consecutive
sequences, and each that is sealed gives its records back. -/
theorem run_recoverable {options : TopicWriterOptions} {initialSequence : UInt64}
    {manifest : PartitionManifest} {answers : List IoAnswer} {files : Nat → Bytes}
    (hvalid : manifest.validate = .ok ())
    (h : create options initialSequence manifest answers files = .ok w) (calls : List Call)
    (hscan : Scans scan options) :
    ∃ segments, (w.run calls).manifest.segments = manifest.segments ++ segments ∧
      Contiguous w.nextIngestionSequence.toNat ((w.run calls).appended.map Prod.snd) ∧
      (segments.flatMap fun entry => (w.run calls).recordsOf entry.segmentId) =
        (w.run calls).appended.map Prod.snd ∧
      ∀ entry ∈ segments, entry.state.isActive = false → Recoverable scan (w.run calls) entry := by
  have hbase := (run_inv calls (create_inv hvalid h)).1
  exact ⟨_, hbase.recorded.segments_eq, hbase.contiguous, hbase.recorded.records,
    fun entry hentry hstate => hbase.recoverable hscan (fun _ => validate_checkpoint hvalid) hentry
      hstate⟩

theorem run_recoverable_plain : Scans plainOptions plainTopicOptions ∧
    ∃ w, create plainTopicOptions 0 emptyManifest fullDisk (fun _ => []) = .ok w ∧
      (w.run plainCalls).manifest.segments.length = 2 ∧
      (w.run plainCalls).appended.map (·.2.header.flags) = [0, kRecordFlagGap] ∧
      ∃ segments, (w.run plainCalls).manifest.segments = emptyManifest.segments ++ segments ∧
        Contiguous w.nextIngestionSequence.toNat ((w.run plainCalls).appended.map Prod.snd) ∧
        (segments.flatMap fun entry => (w.run plainCalls).recordsOf entry.segmentId) =
          (w.run plainCalls).appended.map Prod.snd ∧
        ∀ entry ∈ segments, entry.state.isActive = false →
          Recoverable plainOptions (w.run plainCalls) entry := by
  have hscan : Scans plainOptions plainTopicOptions :=
    ⟨Nat.le_refl _, Nat.le_refl _, fun _ _ _ => rfl⟩
  obtain ⟨w, hw, hsegments, hflags, -⟩ := create_plain
  exact ⟨hscan, w, hw, hsegments, hflags, run_recoverable rfl hw plainCalls hscan⟩

end Mino.Storage.TopicWriter
