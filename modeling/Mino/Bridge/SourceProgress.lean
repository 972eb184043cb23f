import Mino.Bridge.ReceiverEffects
import Mino.Lib.Trace

/-! # Progress of a source in order

A frame is refused only if it lies outside the window around the mark of its source.
The next frame of a source whose earlier frames were all accepted is inside, as long as
the window remembers the source. It forgets sources, by age and to make room for
others; then the mark is zero again and the next frame may be far beyond it. -/

namespace Mino.Bridge

open List Trace

variable (source : SourceIdentity) (sequence : Nat) {events : List Event} {event : Event}

/-- Whether the frame counts as accepted after the event. -/
def Event.remembers (before : Bool) : Event → Bool
  | .answered ack =>
    before || (ack.disposition == .accepted && ack.source == source &&
      ack.observedSequence == sequence)
  | .forgotten s => if s = source then false else before
  | _ => before

/-- The frame was answered as accepted and its source has not been forgotten since. -/
def remembered (log : List Event) : Bool :=
  log.foldl (Event.remembers source sequence) false

theorem remembered_append (log events : List Event) : remembered source sequence (log ++ events) =
    events.foldl (Event.remembers source sequence) (remembered source sequence log) := by
  rw [remembered, foldl_append, ← remembered]

theorem remembered_append_of_forall {source sequence}
    (h : ∀ event ∈ events, ∀ before, event.remembers source sequence before = before)
    (log : List Event) :
    remembered source sequence (log ++ events) = remembered source sequence log := by
  rw [remembered_append, foldl_eq_of_forall h]

theorem remembers_of_not_isReceipt (h : event.isReceipt = false)
    (source : SourceIdentity) (sequence : Nat) (before : Bool) :
    event.remembers source sequence before = before := by
  cases event <;> first | rfl | cases h

/-- Where a receiver can know a frame from: see `Vouched`, or the store it was made over. -/
def Known (first : Option DedupStore) (log : List Event) (source : SourceIdentity) (k : Nat) : Prop :=
  Vouched log source k ∨ ∃ store ∈ first, k ≤ store.mark source

theorem Known.mono {first source k} {log log' : List Event} (hl : log ⊆ log')
    (h : Known first log source k) : Known first log' source k :=
  h.imp_left (Vouched.mono hl)

/-- The answer to the frame that follows an accepted front part of its source: a refusal
means that the receiver knows all frames of a whole window from there on. -/
def NextAnswer (first : Option DedupStore) (distance : Nat) (before : List Event) : Event → Prop
  | .answered ack => ∀ n, ack.observedSequence = n + 1 →
      (∀ k, 1 ≤ k → k ≤ n → remembered ack.source k before = true) →
      ack.disposition = .nackWithHighest →
      ∀ k, 1 ≤ k → k ≤ n + 1 + distance → Known first before ack.source k
  | _ => True

theorem nextAnswer_of_not_isReceipt (h : event.isReceipt = false) (first : Option DedupStore)
    (distance : Nat) (before : List Event) : NextAnswer first distance before event := by
  cases event <;> trivial

namespace Core

/-- What the log remembers as accepted the window remembers too. -/
structure Remembers (first : Option DedupStore) (options : DedupWindowOptions) (c : Core) : Prop where
  limits : c.dedup.options = options
  covers : ∀ source k, 1 ≤ k → remembered source k c.log = true → c.dedup.Covers source k
  answers : Trace.Always (NextAnswer first options.maxSequenceDistance) c.log

variable {first : Option DedupStore} {options : DedupWindowOptions} {c c' : Core}

section

variable (h : c.Remembers first options)
include h

theorem Remembers.emit (hd : c'.dedup = c.dedup)
    (hl : c'.log = c.log ++ events) (hevents : ∀ event ∈ events, event.isReceipt = false ∨ ∃ s n st,
    event = .recorded s n st) : c'.Remembers first options := by
  have hquiet : ∀ event ∈ events, ∀ source k before, event.remembers source k before = before := by
    intro event hevent source k before
    rcases hevents event hevent with hr | ⟨s, n, st, rfl⟩
    · exact remembers_of_not_isReceipt hr source k before
    · rfl
  refine ⟨hd ▸ h.limits, fun source k hk hr => ?_, ?_⟩
  · rw [hl, remembered_append_of_forall fun event hevent => hquiet event hevent source k] at hr
    rw [hd]
    exact h.covers source k hk hr
  · rw [hl]
    refine always_append.mpr ⟨h.answers, always_of_forall fun event hevent before => ?_⟩
    rcases hevents event hevent with hr | ⟨s, n, st, rfl⟩
    · exact nextAnswer_of_not_isReceipt hr _ _ _
    · trivial

theorem Remembers.onDedup (hs : c.Sound) (op : DedupWindow.Op) :
    (c.onDedup op).Remembers first options := by
  refine ⟨(hs.dedup.step_options op).trans h.limits, fun source k hk hr => ?_, ?_⟩
  · have hlog : remembered source k (c.onDedup op).log =
        if source ∈ c.dedup.forgets op then false else remembered source k c.log :=
      (remembered_append source k c.log _).trans (foldl_forgotten (fun _ _ => rfl) _ _)
    rw [hlog] at hr
    split at hr
    · cases hr
    rename_i hf
    have hcov := h.covers source k hk hr
    exact hs.dedup.step_keeps hk (hs.dedup.keeps_of_covers hcov hf) hcov
  · refine always_append.mpr ⟨h.answers, always_of_forall fun event hevent before => ?_⟩
    obtain ⟨s, -, rfl⟩ := mem_map.mp hevent
    trivial

theorem Remembers.persist (highest : Nat) (persisted : Status) :
    (c.persist source highest persisted).Remembers first options := by
  unfold Core.persist
  split
  · exact h
  split
  · exact h
  · exact h.emit rfl rfl fun event hevent => .inr ⟨_, _, _, mem_singleton.mp hevent⟩

theorem Remembers.settle (hs : c.Sound) {op events epoch n nowNs source}
    (hevents : ∀ event ∈ events, event.isReceipt = false) (persisted : Status) :
    (c.settle op events epoch source n nowNs persisted).Remembers first options := by
  have hs₁ : ((c.onDedup op).emit events).Sound := (hs.onDedup op).congr (hs.onDedup op).dedup rfl
  have h₁ : ((c.onDedup op).emit events).Remembers first options :=
    (h.onDedup hs op).emit rfl rfl fun event hevent => .inl (hevents event hevent)
  exact (h₁.onDedup hs₁ _).persist _ _ _

end

/-- Every frame that the window or the store covers was published, lies under a baseline, or was
in the store the pipeline was made over. -/
structure Entered (first : Option DedupStore) (c : Core) : Prop where
  window : ∀ source k, 1 ≤ k → c.dedup.Covers source k → Known first c.log source k
  store : ∀ store, c.store = some store → ∀ source highest, (source, highest) ∈ store.entries →
    ∀ k, 1 ≤ k → k ≤ highest → Known first c.log source k

section

variable (h : c.Entered first)
include h

theorem Entered.shrink (hl : c.log ⊆ c'.log) (hs : c'.store = c.store)
    (hd : ∀ source k, 1 ≤ k → c'.dedup.Covers source k → c.dedup.Covers source k) :
    c'.Entered first where
  window source k hk hcov := (h.window source k hk (hd source k hk hcov)).mono hl
  store store hst source highest hmem k hk hle :=
    (h.store store (hs ▸ hst) source highest hmem k hk hle).mono hl

theorem Entered.onDedup (hs : c.Sound) {op : DedupWindow.Op}
    (hnew : ∀ source k, 1 ≤ k → op.Adds source k → Known first c.log source k) :
    (c.onDedup op).Entered first := by
  have hl : c.log ⊆ (c.onDedup op).log := subset_append_left _ _
  have h' : ({ c with log := (c.onDedup op).log } : Core).Entered first :=
    h.shrink hl rfl fun _ _ _ hcov => hcov
  refine ⟨fun source k hk hcov => ?_, h'.store⟩
  rcases hs.dedup.step_covers hk hcov with hold | hadd
  · exact h'.window source k hk hold
  · exact (hnew source k hk hadd).mono hl

theorem Entered.persist (persisted : Status) :
    (c.persist source (c.dedup.mark source) persisted).Entered first := by
  unfold Core.persist
  split
  · exact h
  rename_i store hstore
  split
  · exact h
  have hl : c.log ⊆ c.log ++ [.recorded source (c.dedup.mark source)
      (store.recordAccepted persisted source (c.dedup.mark source)).1] :=
    subset_append_left _ _
  refine ⟨fun s k hk hcov => (h.window s k hk hcov).mono hl, ?_⟩
  rintro _ ⟨⟩ s highest hmem k hk hle
  rcases DedupStore.mem_recordAccepted hmem with hold | hnew
  · exact (h.store store hstore s highest hold k hk hle).mono hl
  · cases hnew
    exact (h.window source k hk (DedupWindow.covers_of_le_mark hk hle)).mono hl

theorem Entered.settle (hs : c.Sound) {op events epoch n nowNs source}
    (hnew : ∀ s k, op.Adds s k → Vouched (c.log ++ events) s k) (persisted : Status) :
    (c.settle op events epoch source n nowNs persisted).Entered first := by
  have hemit : (c.emit events).Entered first :=
    h.shrink (subset_append_left _ _) rfl fun _ _ _ hcov => hcov
  have h₁ : ((c.emit events).onDedup op).Entered first :=
    hemit.onDedup (hs.congr hs.dedup rfl) fun s k _ hadd => .inl (hnew s k hadd)
  have hlog : ((c.emit events).onDedup op).log ⊆ ((c.onDedup op).emit events).log := by
    intro event hevent
    simp only [Core.emit, Core.onDedup, mem_append] at hevent ⊢
    tauto
  have h₂ : ((c.onDedup op).emit events).Entered first :=
    h₁.shrink hlog rfl fun _ _ _ hcov => hcov
  have hs₂ : ((c.onDedup op).emit events).Sound := (hs.onDedup op).congr (hs.onDedup op).dedup rfl
  have h₃ : (((c.onDedup op).emit events).onDedup (.check epoch source n nowNs)).Entered first :=
    h₂.onDedup hs₂ fun _ _ _ hadd => hadd.elim
  exact h₃.persist source persisted

end

theorem Effect.entered (h : Effect c c') (hs : c.Sound)
    (hc : c.Entered first) : c'.Entered first := by
  cases h with
  | idle events hd hst hl h =>
    exact hc.shrink (hl ▸ subset_append_left _ _) hst fun _ _ _ hcov => hd ▸ hcov
  | touch h =>
    exact hc.shrink (subset_append_left _ _) rfl fun _ _ hk hcov =>
      hs.dedup.step_covers_of_not_accepts h hk hcov
  | settle persisted hv hop hevents hnew => exact hc.settle hs hnew persisted
  | restore epoch nowNs hstore he =>
    refine hc.onDedup hs ?_
    rintro s k hk ⟨rfl, hle⟩
    exact hc.store _ hstore _ _ (DedupStore.mem_load.mp he) k hk hle
  | answer limit h => exact hc.shrink (subset_append_left _ _) rfl fun _ _ _ hcov => hcov

/-- The window refuses the next frame of a source it remembers in full only from above. -/
theorem Answers.next {ack} (hans : c.Answers ack) (h : c.Remembers first options)
    (hent : c.Entered first) (hs : c.Sound) (hpos : 0 < options.maxSequenceDistance) :
    NextAnswer first options.maxSequenceDistance c.log (.answered ack) := by
  intro n hn hfront hrefused k hk hkn
  have hmark : n ≤ c.dedup.mark ack.source :=
    hs.dedup.le_mark fun k hk hkn => h.covers ack.source k hk (hfront k hk hkn)
  have hfar := hans.refused hrefused
  rw [h.limits, hn] at hfar
  exact hent.window ack.source k hk (DedupWindow.covers_of_le_mark hk (by omega))

theorem Remembers.answer (h : c.Remembers first options) (hent : c.Entered first) (hs : c.Sound)
    (hpos : 0 < options.maxSequenceDistance) {ack} (limit : Nat)
    (hans : c.Answers ack) : (c.answer limit ack).Remembers first options := by
  have hnext := hans.next h hent hs hpos
  have hafter : ∀ source k, 1 ≤ k → Event.remembers source k (remembered source k c.log)
      (.answered ack) = true → c.dedup.Covers source k := by
    intro source k hk hr
    simp only [Event.remembers, Bool.or_eq_true, Bool.and_eq_true, beq_iff_eq] at hr
    rcases hr with hr | ⟨⟨hacc, rfl⟩, rfl⟩
    · exact h.covers source k hk hr
    · exact hans.accepted hacc
  refine ⟨h.limits, fun source k hk hr => ?_, always_append.mpr ⟨h.answers, ?_⟩⟩
  · have hlog : remembered source k (c.answer limit ack).log = _ :=
      remembered_append source k c.log _
    rw [hlog] at hr
    cases hres : (c.pendingAcks.queueAck limit ack).1 with
    | error _ =>
      rw [hres] at hr
      exact h.covers source k hk hr
    | ok placement =>
      rw [hres] at hr
      cases placement <;> exact hafter source k hk hr
  · cases (c.pendingAcks.queueAck limit ack).1 with
    | error _ => exact always_nil
    | ok placement =>
      cases placement with
      | absorbed =>
        refine always_cons.mpr ⟨?_, always_nil⟩
        rw [append_nil]
        exact hnext
      | stored =>
        refine always_cons.mpr ⟨trivial, always_cons.mpr ⟨?_, always_nil⟩⟩
        intro n hn hfront hrefused k hk hkn
        refine (hnext n hn (fun k hk hkn => ?_) hrefused k hk hkn).mono (subset_append_left _ _)
        have := hfront k hk hkn
        rwa [remembered_append_of_forall (by simp [Event.remembers])] at this

theorem Effect.remembers (h : Effect c c') (hs : c.Sound) (hpos : 0 < options.maxSequenceDistance)
    (hent : c.Entered first) (hc : c.Remembers first options) : c'.Remembers first options := by
  cases h with
  | idle events hd hst hl h => exact hc.emit hd hl fun event hevent => .inl (h event hevent)
  | touch h | restore epoch nowNs hstore he => exact hc.onDedup hs _
  | settle persisted hv hop hevents => exact hc.settle hs hevents persisted
  | answer limit h => exact hc.answer hent hs hpos limit h

end Core

/-- In every run, a frame whose predecessors were all accepted and have not been forgotten is not
refused if some frame up to a whole window past it is still unknown: it was not published, lies
under no baseline and was not in the store at the start. -/
theorem runLog_next_frame_not_refused {ν : Type} [SchemaNegotiator ν] (c : Pipe.Construction ν)
    (store : Option DedupStore) (inputs : List Input) {before after : List Event} {ack : AckPayload}
    {n k : Nat} (hlog : runLog c store inputs = before ++ .answered ack :: after)
    (hnext : ack.observedSequence = n + 1) (hfront : ∀ k, 1 ≤ k → k ≤ n →
    remembered ack.source k before = true) (hk : 1 ≤ k)
    (hnear : k ≤ n + 1 + c.options.dedup.maxSequenceDistance)
    (hunknown : ¬ Known store before ack.source k) : ack.disposition ≠ .nackWithHighest := by
  have hall : Trace.Always (NextAnswer store c.options.dedup.maxSequenceDistance)
      (runLog c store inputs) := by
    refine runLog_invariant (I := fun d => 0 < c.options.dedup.maxSequenceDistance ∧
      d.Entered store ∧ d.Remembers store c.options.dedup) Trace.always_nil
      (fun windows hunused => ⟨hunused.distance, ⟨?_, ?_⟩, ?_⟩)
      (fun hs h hd => ⟨hd.1, h.effect.entered hs hd.2.1,
        h.effect.remembers hs hd.1 hd.2.1 hd.2.2⟩) (fun _ h => h.2.2.answers) inputs
    · rintro s k - ⟨state, hfind, -⟩
      have hmem := (hunused.dedup.find_eq_some_iff.mp hfind).1
      rw [hunused.dedupEntries] at hmem
      cases hmem
    · rintro first rfl s highest hmem k - hle
      have hmark := DedupStore.mark_of_mem_load (e := ⟨s, highest⟩) (DedupStore.mem_load.mpr hmem)
      exact .inr ⟨first, rfl, hmark ▸ hle⟩
    · exact ⟨hunused.dedupOptions, fun _ _ _ h => (by cases h),
        Trace.always_cons.mpr ⟨trivial, Trace.always_nil⟩⟩
  exact fun hrefused => hunknown (hall _ _ _ hlog n hnext hfront hrefused k hk hnear)

/-! ### A source that makes room for another -/

/-- A receiver that remembers one source and looks one frame ahead. -/
def smallReceiver : Pipe.Construction Empty where
  options :=
    { localSessionEpoch := 2, remoteSessionEpoch := 1
      dedup := { maxSources := 1, maxSequenceDistance := 1 } }
  connectionId := 1

/-- The peer greets and sends the frames, all handled in one round. -/
def oneRound (frames : List (SourceIdentity × Nat)) : List Input :=
  [.deliver (⟨.control (.sessionHello (.ok ⟨1, 2, false, []⟩)), 108⟩ :: frames.map fun f =>
      ⟨.data { header := { source := f.1, sequenceNum := f.2 } }, 80⟩),
    .act (.pump {} {})]

def acceptedAck (n : Nat) : AckPayload :=
  ⟨2, 1, source, n, some n, .accepted⟩

theorem runLog_next_frame_not_refused_second :
    runLog smallReceiver none (oneRound [(⟨1, 1, 1⟩, 1), (⟨1, 1, 1⟩, 2)]) =
        [.created 1 false, .published ⟨1, 1, 1⟩ 1, .ackPlaced (acceptedAck ⟨1, 1, 1⟩ 1) 0,
          .answered (acceptedAck ⟨1, 1, 1⟩ 1), .published ⟨1, 1, 1⟩ 2,
          .ackPlaced (acceptedAck ⟨1, 1, 1⟩ 2) 0] ++
        .answered (acceptedAck ⟨1, 1, 1⟩ 2) :: [] ∧
      (acceptedAck ⟨1, 1, 1⟩ 2).disposition ≠ .nackWithHighest :=
  have hlog : runLog smallReceiver none (oneRound [(⟨1, 1, 1⟩, 1), (⟨1, 1, 1⟩, 2)]) =
      [.created 1 false, .published ⟨1, 1, 1⟩ 1, .ackPlaced (acceptedAck ⟨1, 1, 1⟩ 1) 0,
        .answered (acceptedAck ⟨1, 1, 1⟩ 1), .published ⟨1, 1, 1⟩ 2,
        .ackPlaced (acceptedAck ⟨1, 1, 1⟩ 2) 0] ++
      .answered (acceptedAck ⟨1, 1, 1⟩ 2) :: [] := by decide +kernel
  ⟨hlog, runLog_next_frame_not_refused smallReceiver none _ hlog (n := 1) rfl (fun k hk hkn => by
      obtain rfl : k = 1 := by omega
      decide)
    (k := 3) (by decide) (by decide) (by simp [Known, Vouched, acceptedAck])⟩

/-- Frame 1 of a source is accepted, a frame of another source takes its place in the
window, and frame 2 of the first source is refused. -/
theorem next_frame_refused_after_eviction : ∃ before middle after highest,
      runLog smallReceiver none (oneRound [(⟨1, 1, 1⟩, 1), (⟨1, 2, 1⟩, 1), (⟨1, 1, 1⟩, 2)]) =
        before ++ .answered (acceptedAck ⟨1, 1, 1⟩ 1) :: middle ++ .answered
          ⟨2, 1, ⟨1, 1, 1⟩, 2, some highest, .nackWithHighest⟩ :: after ∧
      .published ⟨1, 1, 1⟩ 1 ∈ before :=
  ⟨[.created 1 false, .published ⟨1, 1, 1⟩ 1, .ackPlaced (acceptedAck ⟨1, 1, 1⟩ 1) 0],
    [.forgotten ⟨1, 1, 1⟩, .published ⟨1, 2, 1⟩ 1, .ackPlaced (acceptedAck ⟨1, 2, 1⟩ 1) 0,
      .answered (acceptedAck ⟨1, 2, 1⟩ 1),
      .ackPlaced ⟨2, 1, ⟨1, 1, 1⟩, 2, some 0, .nackWithHighest⟩ 0],
    [], 0, by decide +kernel, by decide⟩

end Mino.Bridge
