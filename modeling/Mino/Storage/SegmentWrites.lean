import Mino.Storage.SegmentWriter
import Mino.Lib.Triples

/-! # What the segment writer has written

As long as no call fails, the file holds whole records: the first `writtenRecords` of those that
were accepted, and the rest of them are pending. -/

namespace Mino.Storage

open List Result Proc

variable {header : SegmentHeader} {records : List Record} {options : SegmentWriterOptions}

/-! ### System calls -/

/-- The failures of the system calls are never taken for wrong arguments. -/
def NotInvalid (status : Status) : Prop := status.code ≠ .invalidArgument

theorem notInvalid_ioError (operation : String) (errno : Errno) :
    NotInvalid (ioError operation errno) := by
  cases errno <;> exact nofun

theorem writeAll_spec (options : SegmentWriterOptions) (answers : List IoAnswer) (bytes : Bytes) :
    match writeAll options answers bytes with
    | (none, written, _) => written = bytes
    | (some status, _, _) => NotInvalid status := by
  induction answers generalizing bytes with
  | nil => cases bytes <;> rfl
  | cons answer rest ih =>
    cases bytes with
    | nil => rfl
    | cons byte bytes =>
      cases answer with
      | interrupted => exact ih (byte :: bytes)
      | failed errno => exact notInvalid_ioError _ errno
      | done count =>
        simp only [writeAll]
        split_ifs
        · exact nofun
        · exact nofun
        have hrest := ih ((byte :: bytes).drop count)
        generalize writeAll options rest ((byte :: bytes).drop count) = result at hrest
        obtain ⟨status, written, left⟩ := result
        cases status with
        | none =>
          dsimp only at hrest ⊢
          rw [hrest, take_append_drop]
        | some status => exact hrest

theorem consume_flatten {count chunks} (h : count ≤ chunks.flatten.length) :
    (consume count chunks).2.flatten = chunks.flatten.drop count ∧
      (consume count chunks).1 + (consume count chunks).2.length = chunks.length := by
  induction chunks generalizing count with
  | nil =>
    rw [flatten_nil, length_nil] at h
    obtain rfl : count = 0 := by omega
    exact ⟨rfl, rfl⟩
  | cons chunk rest ih =>
    rw [flatten_cons, length_append] at h
    rw [consume]
    split_ifs with hzero hle
    · subst hzero
      exact ⟨rfl, Nat.zero_add _⟩
    · obtain ⟨hflat, hlen⟩ := ih (show count - chunk.length ≤ rest.flatten.length by omega)
      constructor
      · rw [hflat, flatten_cons, drop_append, drop_eq_nil_of_le hle, nil_append]
      have hsum : (consume (count - chunk.length) rest).1 + 1 +
          (consume (count - chunk.length) rest).2.length = rest.length + 1 := by omega
      exact hsum
    · constructor
      · rw [flatten_cons, flatten_cons, drop_append_of_le_length (by omega)]
      · rw [length_cons, length_cons]
        omega

theorem requestBytes_le (options : SegmentWriterOptions) (chunks : List Bytes) :
    requestBytes options chunks ≤ chunks.flatten.length := by
  refine Nat.le_trans (Nat.min_le_right _ _) ?_
  have hsplit : chunks.flatten =
      (chunks.take options.bufferLimit).flatten ++ (chunks.drop options.bufferLimit).flatten := by
    rw [← flatten_append, take_append_drop]
  rw [hsplit, length_append]
  omega

theorem writeGathered_spec (options : SegmentWriterOptions) (answers : List IoAnswer)
    (chunks : List Bytes) :
    match writeGathered options answers chunks with
    | (none, written, complete, _) => written = chunks.flatten ∧ complete = chunks.length
    | (some status, _, _, _) => NotInvalid status := by
  induction answers generalizing chunks with
  | nil => cases chunks <;> exact ⟨rfl, rfl⟩
  | cons answer rest ih =>
    cases chunks with
    | nil => exact ⟨rfl, rfl⟩
    | cons chunk chunks =>
      cases answer with
      | interrupted => exact ih (chunk :: chunks)
      | failed errno => exact notInvalid_ioError _ errno
      | done count =>
        simp only [writeGathered]
        split_ifs with hzero hover
        · exact nofun
        · exact nofun
        have hle : count ≤ (chunk :: chunks).flatten.length :=
          Nat.le_trans (Nat.le_of_not_lt hover) (requestBytes_le options _)
        obtain ⟨hflat, hlen⟩ := consume_flatten hle
        have hrest := ih (consume count (chunk :: chunks)).2
        generalize writeGathered options rest (consume count (chunk :: chunks)).2 = result at hrest
        obtain ⟨status, written, complete, left⟩ := result
        cases status with
        | none =>
          obtain ⟨hwritten, hcomplete⟩ := hrest
          dsimp only
          rw [hwritten, hcomplete, hflat, take_append_drop, hlen]
          exact ⟨rfl, rfl⟩
        | some status => exact hrest

/-! ### The file -/

/-- The file holds the first records whole and nothing else, and the counters say so. -/
structure Stored (options : SegmentWriterOptions) (header : SegmentHeader) (records : List Record)
    (s : SegmentState) : Prop where
  alive : s.writer.state ≠ .error
  sameOptions : s.writer.options = options
  encodable : ∀ record ∈ records, Encodable options.formatLimits record
  inTopic : ∀ record ∈ records, record.header.topicId = header.topicId ∧
    record.header.partitionId = header.partitionId
  topic : s.writer.topicId = header.topicId
  partition : s.writer.partitionId = header.partitionId
  first : s.writer.firstIngestionSequence = header.firstIngestionSequence
  lastSequence : s.writer.lastSequence = lastSequence none records
  logicalRecords : s.writer.logicalRecords = records.length
  logicalBytes : s.writer.logicalBytes = (segmentBytes header records).length
  written_le : s.writer.writtenRecords ≤ records.length
  file : s.file = segmentBytes header (records.take s.writer.writtenRecords)
  writtenBytes : s.writer.writtenBytes = s.file.length
  durable_le : s.writer.durableRecords ≤ s.writer.writtenRecords
  synced : s.synced = s.writer.durableBytes
  durable : s.writer.durableRecords = 0 ∨
    s.writer.durableBytes = (segmentBytes header (records.take s.writer.durableRecords)).length

/-- Between calls: what is not in the file is pending, and a sealed file is durable. -/
structure Holds (options : SegmentWriterOptions) (header : SegmentHeader) (records : List Record)
    (s : SegmentState) : Prop
    extends Stored options header records s where
  pending : s.writer.pendingRecords =
    (records.drop s.writer.writtenRecords).map recordEnvelope
  sealed : s.writer.state = .sealed → s.writer.durableRecords = records.length

namespace SegmentWriter

/-- The precondition of a failure: the writer has not failed before. -/
theorem triple_poison {α : Type} {pre post status kind} (hstatus : NotInvalid status)
    (hpre : ∀ s, pre s → s.writer.state ≠ .error) :
    Triple pre (poison status kind : SegmentProc α) post fun e _ => NotInvalid e := by
  refine triple_get_bind fun s hs => triple_ite (fun herror => absurd herror (hpre s hs)) fun _ => ?_
  exact triple_modify_bind (fun _ => True) (fun _ _ => trivial) (triple_fail fun _ _ => hstatus)

def syncedState (s : SegmentState) (now : Nat) (answers : List IoAnswer) : SegmentState :=
  { s with
    answers := answers
    synced := s.file.length
    writer := { s.writer with
      durableBytes := s.writer.writtenBytes
      durableRecords := s.writer.writtenRecords
      unsyncedBytes := 0
      lastSyncAtNs := now } }

variable {s : SegmentState}

variable (now : Nat) {record : Record}

theorem dataSync_spec (halive : s.writer.state ≠ .error) :
    Triple (· = s) (dataSync now) (fun _ t => ∃ answers, t = syncedState s now answers)
      fun e _ => NotInvalid e := by
  refine triple_get_bind fun t ht => ?_
  subst ht
  generalize syncData t.answers = result
  obtain ⟨errno, answers⟩ := result
  refine triple_modify_bind (· = { t with answers := answers }) (fun u hu => hu ▸ rfl) ?_
  cases errno with
  | some errno =>
    refine triple_poison (notInvalid_ioError _ errno) ?_
    rintro u rfl
    exact halive
  | none =>
    refine triple_modify ?_
    rintro u rfl
    exact ⟨answers, rfl⟩

theorem stored_syncedState (h : Stored options header records s) (now : Nat)
    (answers : List IoAnswer) : Stored options header records (syncedState s now answers) :=
  { h with
    durable_le := le_rfl
    synced := h.writtenBytes.symm
    durable := .inr (h.writtenBytes.trans (congrArg List.length h.file)) }

/-- The writer has these options and this state. -/
def Keeps (o : SegmentWriterOptions) (state : SegmentWriterState) (s : SegmentState) : Prop :=
  s.writer.options = o ∧ s.writer.state = state

theorem segmentBytes_take_succ {n} (hn : n < records.length) :
    segmentBytes header (records.take (n + 1)) =
      segmentBytes header (records.take n) ++ recordEnvelope records[n] := by
  rw [segmentBytes, segmentBytes, take_succ_eq_append_getElem hn, envelopes_append,
    envelopes_cons, envelopes_nil, append_nil, append_assoc]

section

variable (h : Stored options header records s) (hn : s.writer.writtenRecords < records.length)
include h hn

theorem stored_countWritten (answers : List IoAnswer) : Stored options header records { s with
      file := s.file ++ recordEnvelope records[s.writer.writtenRecords]
      answers := answers
      writer := s.writer.countWritten 1 (recordEnvelope records[s.writer.writtenRecords]).length } :=
  { h with
    written_le := hn
    file := by
      change s.file ++ _ = segmentBytes header (records.take (s.writer.writtenRecords + 1))
      rw [segmentBytes_take_succ hn, h.file]
    writtenBytes := by
      change s.writer.writtenBytes + _ = (s.file ++ _).length
      rw [h.writtenBytes, length_append]
    durable_le := Nat.le_succ_of_le h.durable_le }

theorem writeRecord_spec :
    Triple (· = s) (writeRecord now (recordEnvelope records[s.writer.writtenRecords]))
      (fun _ t => Stored options header records t ∧ Keeps s.writer.options s.writer.state t ∧
        t.writer.writtenRecords = s.writer.writtenRecords + 1) fun e _ => NotInvalid e := by
  refine triple_get_bind fun t ht => ?_
  subst ht
  have hwrite := writeAll_spec t.writer.options t.answers
    (recordEnvelope records[t.writer.writtenRecords])
  generalize writeAll t.writer.options t.answers (recordEnvelope records[t.writer.writtenRecords]) =
    result at hwrite
  obtain ⟨status, written, answers⟩ := result
  refine triple_modify_bind (· = { t with file := t.file ++ written, answers := answers })
    (fun u hu => hu ▸ rfl) ?_
  cases status with
  | some status =>
    refine triple_poison hwrite ?_
    rintro u rfl
    exact h.alive
  | none =>
    obtain rfl : written = recordEnvelope records[t.writer.writtenRecords] := hwrite
    have hstored := stored_countWritten h hn answers
    refine triple_modify_bind (· = { t with
      file := t.file ++ recordEnvelope records[t.writer.writtenRecords]
      answers := answers
      writer := t.writer.countWritten 1
        (recordEnvelope records[t.writer.writtenRecords]).length }) ?_ ?_
    · rintro u rfl
      rfl
    · refine triple_ite (fun _ => ?_) fun _ => ?_
      · refine (dataSync_spec now hstored.alive).imp ?_ fun _ _ => id
        rintro _ u ⟨left, rfl⟩
        exact ⟨stored_syncedState hstored now left, ⟨rfl, rfl⟩, rfl⟩
      · refine triple_pure ?_
        rintro u rfl
        exact ⟨hstored, ⟨rfl, rfl⟩, rfl⟩

end

/-- All that is pending, record by record. -/
theorem writeEach_spec (h : Stored options header records s) :
    Triple (· = s) (writeEach now ((records.drop s.writer.writtenRecords).map recordEnvelope))
      (fun _ t => Stored options header records t ∧ Keeps s.writer.options s.writer.state t ∧
        t.writer.writtenRecords = records.length) fun e _ => NotInvalid e := by
  -- by induction on how many records are not in the file yet
  induction hleft : records.length - s.writer.writtenRecords generalizing s with
  | zero =>
    have hle := h.written_le
    rw [drop_eq_nil_of_le (by omega)]
    refine triple_pure ?_
    rintro t rfl
    exact ⟨h, ⟨rfl, rfl⟩, by omega⟩
  | succ n ih =>
    have hn : s.writer.writtenRecords < records.length := by omega
    rw [drop_eq_getElem_cons hn, map_cons, writeEach]
    refine triple_bind _ (writeRecord_spec now h hn) fun _ => triple_of_state ?_
    rintro t ⟨hstored, ⟨hoptions, hstate⟩, hwritten⟩
    have hrest := ih hstored (by omega)
    rw [hwritten, hoptions, hstate] at hrest
    exact hrest

theorem flatten_pending {n} :
    ((records.drop n).map recordEnvelope).flatten = envelopes (records.drop n) := rfl

theorem segmentBytes_split (header : SegmentHeader) (records : List Record) (n : Nat) :
    segmentBytes header (records.take n) ++ envelopes (records.drop n) =
      segmentBytes header records := by
  rw [segmentBytes, segmentBytes, append_assoc, ← envelopes_append, take_append_drop]

theorem writePendingGathered_spec (h : Holds options header records s) :
    Triple (· = s) writePendingGathered
      (fun _ t => Stored options header records t ∧ Keeps s.writer.options s.writer.state t ∧
        t.writer.writtenRecords = records.length) fun e _ => NotInvalid e := by
  refine triple_get_bind fun t ht => ?_
  subst ht
  refine triple_ite (fun _ => triple_poison nofun fun u hu => hu ▸ h.alive) fun _ => ?_
  have hwrite := writeGathered_spec t.writer.options t.answers t.writer.pendingRecords
  generalize writeGathered t.writer.options t.answers t.writer.pendingRecords = result at hwrite
  obtain ⟨status, written, complete, answers⟩ := result
  refine triple_modify_bind (· = { t with
      file := t.file ++ written
      answers := answers
      writer := t.writer.countWritten complete
        (t.writer.pendingRecords.take complete).flatten.length })
    (fun u hu => hu ▸ rfl) ?_
  cases status with
  | some status =>
    refine triple_poison hwrite ?_
    rintro u rfl
    exact h.alive
  | none =>
    obtain ⟨rfl, rfl⟩ := hwrite
    have hle := h.written_le
    have hcount : t.writer.writtenRecords + t.writer.pendingRecords.length = records.length := by
      rw [h.pending, length_map, length_drop]
      omega
    have hfile : t.file ++ t.writer.pendingRecords.flatten = segmentBytes header records := by
      rw [h.file, h.pending, flatten_pending, segmentBytes_split]
    refine triple_pure ?_
    rintro u rfl
    refine ⟨{ h.toStored with
      written_le := Nat.le_of_eq hcount
      file := ?_
      writtenBytes := ?_
      durable_le := Nat.le_trans h.durable_le (Nat.le_add_right _ _) }, ⟨rfl, rfl⟩, hcount⟩
    · change t.file ++ _ =
        segmentBytes header (records.take (t.writer.writtenRecords + t.writer.pendingRecords.length))
      rw [hfile, hcount, take_length]
    · change t.writer.writtenBytes + _ = (t.file ++ _).length
      rw [h.writtenBytes, take_length, length_append]

theorem flushPending_spec :
    Triple (fun s => Holds options header records s ∧ s.writer.state = .opened) (flushPending now)
      (fun _ t => Holds options header records t ∧ t.writer.state = .opened ∧
        t.writer.writtenRecords = records.length) fun e _ => NotInvalid e := by
  refine triple_get_bind fun s hs => ?_
  obtain ⟨h, hopen⟩ := hs
  refine triple_bind (fun _ t => Stored options header records t ∧
    Keeps s.writer.options s.writer.state t ∧ t.writer.writtenRecords = records.length) ?_ fun _ => ?_
  · refine triple_ite (fun _ => ?_) fun _ => writePendingGathered_spec h
    rw [h.pending]
    exact writeEach_spec now h.toStored
  refine triple_modify_bind (fun t => Holds options header records t ∧ t.writer.state = .opened ∧
    t.writer.writtenRecords = records.length) ?_ (triple_get_bind fun t ht => ?_)
  · rintro t ⟨hstored, ⟨-, hstate⟩, hall⟩
    refine ⟨{ hstored with pending := ?_, sealed := ?_ }, hstate.trans hopen, hall⟩
    · change [] = (records.drop t.writer.writtenRecords).map recordEnvelope
      rw [hall, drop_length, map_nil]
    · intro hsealed
      exact nomatch hopen.symm.trans (hstate.symm.trans hsealed)
  · obtain ⟨hholds, hstate, hall⟩ := ht
    have hsync : Triple (· = t) (dataSync now)
        (fun _ u => Holds options header records u ∧ u.writer.state = .opened ∧
          u.writer.writtenRecords = records.length) fun e _ => NotInvalid e := by
      refine (dataSync_spec now hholds.alive).imp ?_ fun _ _ => id
      rintro _ u ⟨answers, rfl⟩
      refine ⟨{ stored_syncedState hholds.toStored now answers with
        pending := hholds.pending, sealed := ?_ }, hstate, hall⟩
      intro hsealed
      exact nomatch hstate.symm.trans hsealed
    exact triple_ite (fun _ => hsync) fun _ => triple_ite (fun _ => hsync) fun _ =>
      triple_pure fun u hu => hu ▸ ⟨hholds, hstate, hall⟩

/-! ### The calls -/

theorem validateOpenAndTime_spec :
    Triple (Holds options header records) (validateOpenAndTime now) (fun _ t => Holds options
    header records t ∧ t.writer.state = .opened) fun _ t => Holds options header records t := by
  refine triple_get_bind fun s hs => ?_
  refine triple_ite (fun herror => absurd herror hs.alive) fun _ => ?_
  refine triple_ite (fun _ => triple_fail fun t ht => ht ▸ hs) fun hopen => ?_
  refine triple_ite (fun _ => triple_fail fun t ht => ht ▸ hs) fun _ => triple_modify ?_
  rintro t rfl
  exact ⟨{ hs with }, not_not.mp hopen⟩

theorem lastSequence_append (previous : Option UInt64) (records : List Record) (record : Record) :
    Storage.lastSequence previous (records ++ [record]) = some record.header.ingestionSequence := by
  induction records generalizing previous with
  | nil => rfl
  | cons head rest ih => exact ih _

theorem checkRecord_ok {w : SegmentWriter} {encoded} (h : w.checkRecord record = .ok encoded) :
    (record.header.topicId = w.topicId ∧ record.header.partitionId = w.partitionId) ∧
      (w.lastSequence = none → record.header.ingestionSequence = w.firstIngestionSequence) ∧
      Encodable w.options.formatLimits record ∧ encoded = recordEnvelope record := by
  obtain ⟨_, htopic, h⟩ := bind_eq_ok h
  obtain ⟨_, hsequence, h⟩ := bind_eq_ok h
  refine ⟨not_or.mp (rejectIf_ok htopic) |>.imp not_not.mp not_not.mp, ?_,
    encodable_of_encodeRecord h⟩
  intro hnone
  rw [checkSequence, hnone] at hsequence
  exact not_not.mp (rejectIf_ok hsequence)

theorem holds_accept (h : Holds options header records s)
    (hopen : s.writer.state = .opened) (hencodable : Encodable s.writer.options.formatLimits record)
    (htopic : record.header.topicId = s.writer.topicId ∧
      record.header.partitionId = s.writer.partitionId) : Holds options header (records ++ [record])
      { s with writer := s.writer.accept record (recordEnvelope record) } := by
  have htake : ∀ n ≤ records.length, (records ++ [record]).take n = records.take n :=
    fun n hn => take_append_of_le_length hn
  have hdurable := Nat.le_trans h.durable_le h.written_le
  exact {
      alive := h.alive
      sameOptions := h.sameOptions
      encodable := forall_mem_append.mpr
        ⟨h.encodable, forall_mem_singleton.mpr (h.sameOptions ▸ hencodable)⟩
      inTopic := forall_mem_append.mpr
        ⟨h.inTopic, forall_mem_singleton.mpr ⟨htopic.1.trans h.topic, htopic.2.trans h.partition⟩⟩
      topic := h.topic
      partition := h.partition
      first := h.first
      lastSequence := (lastSequence_append none records record).symm
      logicalRecords := by
        change s.writer.logicalRecords + 1 = _
        rw [h.logicalRecords, length_append, length_singleton]
      logicalBytes := by
        change s.writer.logicalBytes + _ = _
        rw [h.logicalBytes]
        simp [segmentBytes, envelopes_append, Nat.add_assoc]
      written_le := Nat.le_trans h.written_le (by rw [length_append]; omega)
      file := h.file.trans (congrArg (segmentBytes header) (htake _ h.written_le).symm)
      writtenBytes := h.writtenBytes
      durable_le := h.durable_le
      synced := h.synced
      durable := by
        change s.writer.durableRecords = 0 ∨ s.writer.durableBytes =
          (segmentBytes header ((records ++ [record]).take s.writer.durableRecords)).length
        rw [htake _ hdurable]
        exact h.durable
      pending := by
        change s.writer.pendingRecords ++ [recordEnvelope record] =
          ((records ++ [record]).drop s.writer.writtenRecords).map recordEnvelope
        rw [h.pending, drop_append_of_le_length h.written_le, map_append]
        rfl
      sealed := fun hsealed => nomatch hopen.symm.trans hsealed }

theorem append_spec (record : Record) (now : Nat) :
    Triple (Holds options header records) (append record now) (fun result t =>
        (result.recordsAccepted = 1 ∧ Holds options header (records ++ [record]) t ∧
          (records = [] → record.header.ingestionSequence = header.firstIngestionSequence)) ∨
        (result.recordsAccepted = 0 ∧ Holds options header records t)) fun _ _ => True := by
  refine triple_bind _ ((validateOpenAndTime_spec now).imp (fun _ _ => id) fun _ _ _ => trivial)
    fun _ => triple_get_bind fun s hs => ?_
  obtain ⟨hholds, hopen⟩ := hs
  refine triple_ofExcept_bind (fun _ _ _ _ => trivial) fun encoded hcheck => ?_
  obtain ⟨htopic, hfirst, hencodable, rfl⟩ := checkRecord_ok hcheck
  refine triple_ite (fun _ => ?_) fun _ => ?_
  · refine triple_bind
      (fun _ t => Holds options header records t) ?_ fun _ => triple_pure fun t ht => .inr ⟨rfl, ht⟩
    exact (flushPending_spec now).mono (fun t ht => ht.symm ▸ And.intro hholds hopen)
      (fun _ _ h => h.1) fun _ _ _ => trivial
  have hnone : records = [] → record.header.ingestionSequence = header.firstIngestionSequence := by
    rintro rfl
    exact (hfirst hholds.lastSequence).trans hholds.first
  refine triple_modify_bind (fun t => Holds options header (records ++ [record]) t ∧
    t.writer.state = .opened) ?_ (triple_get_bind fun t ht => ?_)
  · rintro t rfl
    exact ⟨holds_accept hholds hopen hencodable htopic, hopen⟩
  refine triple_ite (fun _ => ?_) fun _ => ?_
  · refine triple_bind (fun _ u => Holds options header (records ++ [record]) u) ?_ fun _ => triple_pure
      fun u hu => .inl ⟨rfl, hu, hnone⟩
    exact (flushPending_spec now).mono (fun u hu => hu ▸ ht)
      (fun _ _ h => h.1) fun _ _ _ => trivial
  · refine triple_bind (fun _ u => Holds options header (records ++ [record]) u)
      (triple_onlyIf ?_ fun u hu => hu ▸ ht.1) fun _ => triple_pure ?_
    · exact (flushPending_spec now).mono (fun u hu => hu ▸ ht)
        (fun _ _ h => h.1) fun _ _ _ => trivial
    · exact fun u hu => .inl ⟨rfl, hu, hnone⟩

theorem flush_spec : Triple (Holds options header records) (flush now)
    (fun _ t => Holds options header records t ∧ t.writer.writtenRecords = records.length)
    fun e t => NotInvalid e ∨ Holds options header records t := by
  refine triple_get_bind fun s hs => triple_ite (fun hsealed => triple_pure ?_) fun _ => ?_
  · rintro t rfl
    have hdurable := hs.sealed hsealed
    exact ⟨hs, Nat.le_antisymm hs.written_le (hdurable ▸ hs.durable_le)⟩
  · refine triple_bind _ ((validateOpenAndTime_spec now).mono (fun t ht => ht ▸ hs)
      (fun _ _ => id) fun _ _ => .inr) fun _ => ?_
    exact (flushPending_spec now).imp (fun _ _ h => ⟨h.1, h.2.2⟩) fun _ _ => .inl

theorem sealFile_spec :
    Triple (Holds options header records) (sealFile now) (fun _ t => Holds options header records
    t ∧ t.writer.state = .sealed) fun e t => NotInvalid e ∨ Holds options header records t := by
  refine triple_get_bind fun s hs => triple_ite (fun hsealed => triple_pure ?_) fun _ => ?_
  · rintro t rfl
    exact ⟨hs, hsealed⟩
  refine triple_bind _ ((validateOpenAndTime_spec now).mono (fun t ht => ht ▸ hs)
    (fun _ _ => id) fun _ _ => .inr) fun _ => ?_
  refine triple_bind _
    ((flushPending_spec now).imp (fun _ _ => id) fun _ _ => .inl) fun _ => triple_of_state ?_
  rintro t ⟨ht, -, hall⟩
  refine triple_bind _
    ((dataSync_spec now ht.alive).imp (fun _ _ => id) fun _ _ => .inl) fun _ => triple_modify ?_
  rintro u ⟨answers, rfl⟩
  have hstored := stored_syncedState ht.toStored now answers
  exact ⟨{ hstored with
    alive := nofun
    pending := ht.pending
    sealed := fun _ => hall }, rfl⟩

section

variable (hsealed : s.writer.state = .sealed)
include hsealed

theorem append_of_sealed (record : Record) (now : Nat) :
    append record now s = (.error (invalid "segment writer is sealed"), s) := by
  have hcheck : validateOpenAndTime now s = (.error (invalid "segment writer is sealed"), s) := by
    change (if s.writer.state =
      .error then _ else if s.writer.state ≠ .opened then _ else _ : SegmentProc Unit) s = _
    rw [hsealed]
    rfl
  rw [append, bind_apply, hcheck]

theorem flush_of_sealed (now : Nat) : flush now s = (.ok (), s) := by
  change (if s.writer.state = .sealed then _ else _ : SegmentProc Unit) s = _
  rw [if_pos hsealed]
  rfl

theorem sealFile_of_sealed (now : Nat) : sealFile now s = (.ok (), s) := by
  change (if s.writer.state = .sealed then _ else _ : SegmentProc Unit) s = _
  rw [if_pos hsealed]
  rfl

end

theorem counts_of_sealed (h : Holds options header records s) (hsealed : s.writer.state = .sealed) :
    s.writer.writtenRecords = records.length ∧ s.file = segmentBytes header records := by
  have hall : s.writer.writtenRecords = records.length :=
    Nat.le_antisymm h.written_le (h.sealed hsealed ▸ h.durable_le)
  exact ⟨hall, by rw [h.file, hall, take_length]⟩

theorem create_ok {now answers left} (h : create header now options answers = (.ok s, left)) :
    Holds options header [] s ∧ s.answers = left ∧
      header.flags &&& ~~~kKnownSegmentFlags = 0 ∧ validateOptions options = .ok () := by
  unfold create at h
  split at h
  · cases h
  · cases h
  rename_i u bytes hoptions hheader
  obtain ⟨hflags, rfl⟩ := encodeSegmentHeader_ok hheader
  split at h
  · cases h
  · cases h
  have hwrite := writeAll_spec options answers.tail (segmentHeaderBytes header)
  generalize writeAll options answers.tail (segmentHeaderBytes header) = result at h hwrite
  obtain ⟨status, written, rest⟩ := result
  cases status with
  | some status => cases h
  | none =>
    obtain rfl : written = segmentHeaderBytes header := hwrite
    cases h
    have hfile : segmentHeaderBytes header = segmentBytes header [] := by
      rw [segmentBytes, envelopes_nil, append_nil]
    exact ⟨{
      alive := nofun
      sameOptions := rfl
      encodable := nofun
      inTopic := nofun
      topic := rfl
      partition := rfl
      first := rfl
      lastSequence := rfl
      logicalRecords := rfl
      logicalBytes := by
        rw [← hfile, length_segmentHeaderBytes]
        rfl
      written_le := le_rfl
      file := hfile
      writtenBytes := (length_segmentHeaderBytes header).symm
      durable_le := le_rfl
      synced := rfl
      durable := .inl rfl
      pending := rfl
      sealed := nofun }, rfl, hflags, hoptions⟩

end SegmentWriter

end Mino.Storage
