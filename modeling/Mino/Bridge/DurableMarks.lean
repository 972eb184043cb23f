import Mino.Bridge.ReceiverEffects
import Mino.Lib.Trace

/-! # Durable marks before ACKs

The mark of a source is written to the store between its entry into the dedup window
and the ACK. A write that fails leaves the window ahead of the store; the frame is
handled again, as a duplicate now, and its ACK goes out without another write. The
ACKs placed while the last write of their source had failed are exactly those whose
mark the store does not have. -/

namespace Mino.Bridge

open List Trace DedupWindow

/-- Whether the store is behind the window for a source, as the log tells. -/
def Event.owes (source : SourceIdentity) (before : Bool) : Event → Bool
  | .recorded s _ status => if s = source then !status.ok else before
  | .forgotten s => if s = source then false else before
  | _ => before

/-- The last write of the source failed and the window still has the mark. -/
def owed (source : SourceIdentity) (log : List Event) : Bool :=
  log.foldl (Event.owes source) false

theorem owed_append (source : SourceIdentity) (log events : List Event) :
    owed source (log ++ events) = events.foldl (Event.owes source) (owed source log) := by
  rw [owed, foldl_append, ← owed]

variable {source : SourceIdentity} {c : Core} {event : Event}

theorem owed_append_of_forall {events}
    (h : ∀ event ∈ events, ∀ before, event.owes source before = before) (log : List Event) :
    owed source (log ++ events) = owed source log := by
  rw [owed_append, foldl_eq_of_forall h]

theorem owes_of_not_isReceipt (h : event.isReceipt = false)
    (source : SourceIdentity) (before : Bool) : event.owes source before = before := by
  cases event <;> first | rfl | cases h

/-- An ACK of an accepted frame with a mark is backed by the store exactly when nothing
is owed. -/
def DurableAck (before : List Event) : Event → Prop
  | .ackPlaced ack stored => ack.disposition = .accepted →
      ∀ highest, ack.highestContiguousSequence = some highest → 0 < highest →
        (highest ≤ stored ↔ owed ack.source before = false)
  | _ => True

namespace Core

def Balanced (c : Core) (source : SourceIdentity) : Prop :=
  owed source c.log = true ↔ c.storedMark source < c.dedup.mark source

structure Durable (c : Core) : Prop where
  attached : c.store.isSome = true
  balanced : ∀ source, c.Balanced source
  acks : Trace.Always DurableAck c.log

theorem owed_onDedup (c : Core) (op : DedupWindow.Op) (source : SourceIdentity) :
    owed source (c.onDedup op).log =
      if source ∈ c.dedup.forgets op then false else owed source c.log :=
  (owed_append source c.log _).trans (foldl_forgotten (fun _ _ => rfl) _ _)

variable {op : DedupWindow.Op} {d : Core}

/-- A call that accepts nothing for the source forgets its mark and its debt together. -/
theorem Balanced.onDedup (h : c.Balanced source) (hs : c.Sound)
    (hop : c.dedup.accepts source op = false) : (c.onDedup op).Balanced source := by
  have hmark : (c.onDedup op).dedup.mark source = _ := hs.dedup.mark_step hop
  rw [Balanced, owed_onDedup, hmark]
  split
  · simp
  · exact h

/-- Whatever a call does, a debt is about a mark in the window. -/
theorem owed_pos_onDedup (hs : c.Sound) (h : owed source c.log = true → 0 < c.dedup.mark source)
    (op : DedupWindow.Op) (howed : owed source (c.onDedup op).log = true) :
    0 < (c.onDedup op).dedup.mark source := by
  rw [owed_onDedup] at howed
  split at howed
  · cases howed
  rename_i hf
  refine Nat.lt_of_lt_of_le (h howed) ((hs.dedup.step op).mark_le_of_covers fun k hk hc => ?_)
  exact hs.dedup.step_keeps hk (hs.dedup.keeps_of_covers hc hf) hc

theorem always_forgotten (log : List Event) (sources : List SourceIdentity) :
    Trace.Always (fun before => DurableAck (log ++ before)) (sources.map .forgotten) := by
  refine always_of_forall fun event hevent before => ?_
  obtain ⟨s, -, rfl⟩ := mem_map.mp hevent
  trivial

/-- After an acceptance the new mark is in the store or its write has failed. -/
theorem Balanced.persist (hv : source.valid = true) (hstore : d.store.isSome = true)
    (hother : ∀ s, s ≠ source → d.Balanced s)
    (hzero : owed source d.log = true → 0 < d.dedup.mark source) (persisted : Status)
    (s : SourceIdentity) : (d.persist source (d.dedup.mark source) persisted).Balanced s := by
  obtain ⟨store, hs⟩ := Option.isSome_iff_exists.mp hstore
  unfold Core.persist
  rw [hs]
  by_cases hm : d.dedup.mark source = 0
  · simp only [hm, if_true]
    by_cases heq : s = source
    · subst heq
      have hfree : owed s d.log = false := by
        by_contra hne
        have := hzero (by simpa using hne)
        omega
      simp [Balanced, hfree, hm]
    · exact hother s heq
  · simp only [hm, if_false, Balanced, owed_append, storedMark, Option.elim_some,
      foldl_cons, foldl_nil]
    by_cases heq : s = source
    · subst heq
      rcases store.recordAccepted_spec hv hm persisted with
        ⟨hok, hle⟩ | ⟨hbad, hsame, hlt⟩
      · simp only [Event.owes, hok, if_true]
        simpa using hle
      · simp only [Event.owes, hbad, if_true, hsame]
        simpa using hlt
    · have hmark : (store.recordAccepted persisted source (d.dedup.mark source)).2.mark s =
          store.mark s := by
        rw [DedupStore.mark, DedupStore.recordAccepted_other heq, ← DedupStore.mark]
      simp only [Event.owes, Ne.symm heq, if_false, hmark]
      have := hother s heq
      rw [Balanced, storedMark, hs] at this
      exact this

theorem always_persist (h : Trace.Always DurableAck d.log) (source : SourceIdentity)
    (highest : Nat) (persisted : Status) :
    Trace.Always DurableAck (d.persist source highest persisted).log := by
  unfold Core.persist
  split
  · exact h
  split
  · exact h
  refine always_append.mpr ⟨h, ?_⟩
  exact always_of_forall fun event hevent before => by
    rw [mem_singleton.mp hevent]
    trivial

theorem persist_attached (h : d.store.isSome = true) (source : SourceIdentity)
    (highest : Nat) (persisted : Status) :
    (d.persist source highest persisted).store.isSome = true := by
  unfold Core.persist
  split
  · exact h
  split
  · exact h
  · rfl

theorem Durable.onDedup (h : c.Durable) (hs : c.Sound)
    (hop : ∀ source, c.dedup.accepts source op = false) : (c.onDedup op).Durable where
  attached := h.attached
  balanced source := (h.balanced source).onDedup hs (hop source)
  acks := always_append.mpr ⟨h.acks, always_forgotten _ _⟩

/-- An event that says nothing about window, store and answers. -/
theorem durableAck_of_not_isReceipt (h : event.isReceipt = false)
    (before : List Event) : DurableAck before event := by
  cases event <;> trivial

theorem Durable.settle {c : Core} (h : c.Durable) (hs : c.Sound) {op events epoch n nowNs source} (hv : source.valid = true)
    (hop : op = .commitAccepted epoch source n nowNs ∨ op = .seedAccepted epoch source n nowNs)
    (hevents : ∀ event ∈ events, event.isReceipt = false) (persisted : Status) :
    (c.settle op events epoch source n nowNs persisted).Durable := by
  have hs₁ : ((c.onDedup op).emit events).Sound := (hs.onDedup op).congr (hs.onDedup op).dedup rfl
  have howed : ∀ s, owed s ((c.onDedup op).emit events).log = owed s (c.onDedup op).log :=
    fun s => owed_append_of_forall
      (fun event hevent before => owes_of_not_isReceipt (hevents event hevent) s before) _
  have hother : ∀ s, s ≠ source → c.dedup.accepts s op = false := by
    rintro s hne
    rcases hop with rfl | rfl <;> simp [accepts, Ne.symm hne]
  have hcheck : ∀ (w : DedupWindow) s, w.accepts s (.check epoch source n nowNs) = false :=
    fun _ _ => rfl
  have hacks : Trace.Always DurableAck ((c.onDedup op).emit events).log :=
    always_append.mpr ⟨always_append.mpr ⟨h.acks, always_forgotten _ _⟩,
      always_of_forall fun event hevent before =>
        durableAck_of_not_isReceipt (hevents event hevent) _⟩
  have hstore : (((c.onDedup op).emit events).onDedup (.check epoch source n nowNs)).store.isSome =
      true := h.attached
  refine ⟨persist_attached hstore .., ?_, always_persist ?_ source _ persisted⟩
  · refine Balanced.persist hv hstore (fun s hne => ?_) ?_ persisted
    · refine Balanced.onDedup ?_ hs₁ (hcheck _ s)
      rw [Balanced, howed]
      exact (h.balanced s).onDedup hs (hother s hne)
    · refine owed_pos_onDedup hs₁ ?_ _
      rw [howed]
      refine owed_pos_onDedup hs (fun h' => ?_) op
      exact Nat.zero_lt_of_lt ((h.balanced source).mp h')
  · exact always_append.mpr ⟨hacks, always_forgotten _ _⟩

/-- A mark read back from the store owes nothing. -/
theorem Durable.restore (h : c.Durable) (hs : c.Sound) {store entry} (epoch nowNs : Nat) (hstore : c.store = some store)
    (he : entry ∈ store.load) :
    (c.onDedup (.seedAccepted epoch entry.source entry.highestContiguousSequence nowNs)).Durable := by
  refine ⟨h.attached, fun s => ?_, always_append.mpr ⟨h.acks, always_forgotten _ _⟩⟩
  cases hacc : c.dedup.accepts s
      (.seedAccepted epoch entry.source entry.highestContiguousSequence nowNs) with
  | false => exact (h.balanced s).onDedup hs hacc
  | true =>
    simp only [accepts, Bool.and_eq_true, beq_iff_eq] at hacc
    obtain ⟨rfl, hok⟩ := hacc
    obtain ⟨hst, -⟩ := hs.dedup.seedAccepted_recent hok
    obtain ⟨state', hfind', hhigh,
      -⟩ := hs.dedup.seedAccepted_self hst entry.source entry.highestContiguousSequence nowNs
    have hmark : (c.onDedup (.seedAccepted epoch entry.source entry.highestContiguousSequence
        nowNs)).dedup.mark entry.source = store.mark entry.source :=
      (mark_of_find hfind').trans (hhigh.trans (DedupStore.mark_of_mem_load he).symm)
    have hkeeps : c.dedup.keeps entry.source
        (.seedAccepted epoch entry.source entry.highestContiguousSequence nowNs) = false := by
      simp [keeps, reseeds, hst]
    have hfree : owed entry.source (c.onDedup
        (.seedAccepted epoch entry.source entry.highestContiguousSequence nowNs)).log = false := by
      rw [owed_onDedup]
      split
      · rfl
      rename_i hf
      have hzero := hs.dedup.mark_eq_zero hf hkeeps
      have hbalanced := h.balanced entry.source
      rw [Balanced, hzero] at hbalanced
      simpa using hbalanced
    have hstored : (c.onDedup (.seedAccepted epoch entry.source entry.highestContiguousSequence
        nowNs)).storedMark entry.source = store.mark entry.source := by
      show c.storedMark entry.source = _
      rw [storedMark, hstore, Option.elim_some]
    rw [Balanced, hfree, hmark, hstored]
    simp

theorem Durable.answer {c : Core} (h : c.Durable) {ack} (limit : Nat)
    (hans : c.Answers ack) : (c.answer limit ack).Durable := by
  have hnone : ∀ (stored : Nat) (result : Result AckPlacement) s,
      ∀ event ∈ answerEvents ack stored result, ∀ before, event.owes s before = before := by
    rintro stored (_ | _ | _) s event hevent before <;> simp [answerEvents] at hevent
    · rcases hevent with rfl | rfl <;> rfl
    · rw [hevent]
      rfl
  refine ⟨h.attached, fun s => ?_, always_append.mpr ⟨h.acks, ?_⟩⟩
  · have hlog : owed s (c.answer limit ack).log = owed s c.log :=
      owed_append_of_forall (hnone _ _ s) _
    rw [Balanced, hlog]
    exact h.balanced s
  have hplaced : DurableAck c.log (.ackPlaced ack (c.storedMark ack.source)) := by
    intro _ highest hhighest _
    rw [hans.highest] at hhighest
    cases hhighest
    have hbalanced := h.balanced ack.source
    rw [Balanced] at hbalanced
    rw [← Bool.not_eq_true, hbalanced, Nat.not_lt]
  cases (c.pendingAcks.queueAck limit ack).1 with
  | error _ => exact always_nil
  | ok placement =>
    cases placement with
    | absorbed => exact always_cons.mpr ⟨trivial, always_nil⟩
    | stored =>
      refine always_cons.mpr ⟨?_, always_cons.mpr ⟨trivial, always_nil⟩⟩
      rw [append_nil]
      exact hplaced

theorem Effect.durable {c' : Core} (h : Effect c c') (hs : c.Sound) (hc : c.Durable) :
    c'.Durable := by
  cases h with
  | idle events hd hst hl h =>
    refine ⟨hst ▸ hc.attached, fun s => ?_, ?_⟩
    · rw [Balanced, hl, storedMark, hst, hd, owed_append_of_forall
        fun event hevent before => owes_of_not_isReceipt (h event hevent) s before]
      exact hc.balanced s
    · rw [hl]
      refine always_append.mpr ⟨hc.acks, always_of_forall fun event hevent before => ?_⟩
      exact durableAck_of_not_isReceipt (h event hevent) _
  | touch h => exact hc.onDedup hs h
  | settle persisted hv hop hevents => exact hc.settle hs hv hop hevents persisted
  | restore epoch nowNs hstore he => exact hc.restore hs epoch nowNs hstore he
  | answer limit h => exact hc.answer limit h

end Core

open Bridge.Core in
/-- In every run of a pipeline with a store, the mark of an accepted ACK is in the store
when the ACK is placed if and only if the last write of the source, since the window
last forgot the source, did not fail. -/
theorem runLog_acks_durable {ν : Type} [SchemaNegotiator ν] (c : Pipe.Construction ν)
    (store : DedupStore) (inputs : List Input) {before after : List Event} {ack : AckPayload}
    {stored highest : Nat} (hlog : runLog c (some store) inputs = before ++ .ackPlaced ack stored ::
    after) (haccepted : ack.disposition = .accepted)
    (hhighest : ack.highestContiguousSequence = some highest) (hpos : 0 < highest) :
    highest ≤ stored ↔ owed ack.source before = false := by
  have hall : Trace.Always DurableAck (runLog c (some store) inputs) := by
    refine runLog_invariant Trace.always_nil (fun windows hunused => ?_)
      (fun hs h => h.effect.durable hs) (fun _ h => h.acks) inputs
    refine ⟨rfl, fun s => ?_, Trace.always_cons.mpr ⟨trivial, Trace.always_nil⟩⟩
    have hempty : windows.1.find s = none :=
      hunused.dedup.find_eq_none_iff.mpr (by simp [hunused.dedupEntries])
    have hmark : (Pipe.newEndpoint c windows { store := some store }).core.dedup.mark s = 0 :=
      DedupWindow.mark_of_find_none hempty
    rw [Core.Balanced, hmark]
    exact ⟨nofun, fun h => absurd h (Nat.not_lt_zero _)⟩
  exact hall _ _ _ hlog haccepted highest hhighest hpos

/-! ### A write that fails once -/

/-- A receiver whose peer has greeted it and sent one frame. -/
def storeReceiver : Pipe.Construction Empty where
  options := { localSessionEpoch := 2, remoteSessionEpoch := 1 }
  connectionId := 1

/-- The frame arrives, and the outcomes of the first round's writes are as given. -/
def writeRun (recordings : List Status) : List Input :=
  [.deliver [⟨.control (.sessionHello (.ok ⟨1, 2, false, []⟩)), 108⟩,
      ⟨.data { header := { source := ⟨1, 1, 1⟩, sequenceNum := 1 } }, 80⟩],
    .act (.pump {} { recordings }), .act (.pump {} {})]

def firstAck : AckPayload := ⟨2, 1, ⟨1, 1, 1⟩, 1, some 1, .accepted⟩

/-- What is logged before the ACK, when the write ends so. -/
def logUntilAck (recording : Status) : List Event :=
  [.created 1 false, .published ⟨1, 1, 1⟩ 1, .recorded ⟨1, 1, 1⟩ 1 recording]

/-- The write fails, and the frame is handled again as a duplicate. -/
theorem runLog_writeRun_failed :
    runLog storeReceiver (some (.empty 16)) (writeRun [.error .resourceExhausted ""]) =
      logUntilAck (.error .resourceExhausted "") ++ .ackPlaced firstAck 0 :: [.answered firstAck] := by
  decide +kernel

/-- A write that succeeds, and one that fails. -/
theorem runLog_acks_durable_written :
    runLog storeReceiver (some (.empty 16)) (writeRun [.success]) =
        logUntilAck .success ++ .ackPlaced firstAck 1 :: [.answered firstAck] ∧
      owed ⟨1, 1, 1⟩ (logUntilAck .success) = false ∧
      owed ⟨1, 1, 1⟩ (logUntilAck (.error .resourceExhausted "")) ≠ false := by
  have hlog : runLog storeReceiver (some (.empty 16)) (writeRun [.success]) =
      logUntilAck .success ++ .ackPlaced firstAck 1 :: [.answered firstAck] := by decide +kernel
  refine ⟨hlog, ?_, fun h => ?_⟩
  · exact (runLog_acks_durable storeReceiver (.empty 16) _ hlog rfl rfl (by decide)).mp le_rfl
  · have hstored := (runLog_acks_durable storeReceiver (.empty 16) _ runLog_writeRun_failed rfl rfl
      (by decide)).mpr h
    exact absurd hstored (by decide)

/-- The write fails with a retryable status, the frame is handled again as a duplicate and
its ACK with mark 1 is placed while the store has nothing. -/
theorem ack_before_durable_mark : ∃ before after stored, runLog storeReceiver (some (.empty 16))
        (writeRun [.error .resourceExhausted ""]) = before ++ .ackPlaced firstAck stored :: after ∧
      firstAck.disposition = .accepted ∧ firstAck.highestContiguousSequence = some 1 ∧
      stored < 1 :=
  ⟨_, _, 0, runLog_writeRun_failed, rfl, rfl, by decide⟩

end Mino.Bridge
