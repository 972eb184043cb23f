import Mino.Bridge.SourceProgress

/-! # Data frames that are handled again

A frame that the ingress port refuses for now stays at the front of the inbound queue. By then
its source has been looked up and entered into the dedup window. For a source that was entered
before, or a frame inside the window of a new source, this makes no difference to the next
attempt. A frame that was going to be the baseline of its source is a baseline no longer. -/

namespace Mino.Bridge

open List

namespace DedupWindow

variable {w : DedupWindow} {source : SourceIdentity} {state : SourceState}
  {epoch n nowNs laterNs : Nat}

/-! ### Entering a source twice -/

section

variable {old : List SourceState} {new : SourceState}

end

/-- No entry is too old at this time. -/
def AllFresh (w : DedupWindow) (nowNs : Nat) : Prop :=
  ∀ state ∈ w.entries, w.fresh nowNs state = true

def touch (w : DedupWindow) (source : SourceIdentity) (nowNs : Nat) : DedupWindow :=
  w.modify source fun s => { s with lastActivityNs := nowNs }

theorem purgeExpired_of_allFresh (h : w.AllFresh nowNs) : w.purgeExpired nowNs = w := by
  have hfrom : ∀ fuel i, purgeFrom nowNs fuel i w = w := by
    intro fuel
    induction fuel with
    | zero => exact fun _ => rfl
    | succ fuel ih =>
      intro i
      unfold purgeFrom
      split
      · rfl
      rename_i state hstate
      have hfresh := h state (mem_of_getElem? hstate)
      rw [if_neg (by simpa [fresh] using hfresh)]
      exact ih _
  exact hfrom _ 0

theorem touch_touch (w : DedupWindow) :
    (w.touch source nowNs).touch source laterNs = w.touch source laterNs := by
  unfold touch modify
  cases h : w.sourceIndex source with
  | none => simp [h]
  | some i => simp [h, modify_modify_eq, Function.comp_def]

theorem touch_sources (w : DedupWindow) : (w.touch source nowNs).entries.map SourceState.source =
    w.entries.map SourceState.source := by
  unfold touch modify
  split
  · refine ext_getElem? fun i => ?_
    rw [getElem?_map, getElem?_map, getElem?_modify]
    cases w.entries[i]? with
    | none => rfl
    | some s =>
      simp only [Option.map_eq_map, Option.map_some]
      split <;> rfl
  · rfl

theorem AllFresh.touch (h : w.AllFresh laterNs)
    (hage : isExpired laterNs nowNs w.options.maxSourceAgeNs = false) :
    (w.touch source nowNs).AllFresh laterNs := by
  intro state hstate
  unfold fresh
  rw [DedupWindow.touch, (modify_frame ..).options]
  rcases mem_modify hstate with hold | ⟨_, _, rfl⟩
  · exact h state hold
  · simp [hage]

/-- What the window knows of the source; a source it has not met is new. -/
def entry (w : DedupWindow) (source : SourceIdentity) : SourceState :=
  (w.find source).getD (w.newSource source 0 0)

/-- The window once the source is entered, with nothing to purge. -/
def prepared (w : DedupWindow) (source : SourceIdentity) (nowNs : Nat) : DedupWindow :=
  if w.hasSource source then w.touch source nowNs else (w.addSource source 0 nowNs).2

section

variable (hw : w.Valid)
include hw

theorem Valid.touch_of_find_none (hnone : w.find source = none) : w.touch source nowNs = w := by
  have hindex : w.sourceIndex source = none :=
    hw.indexed.index_eq_none_iff.mpr (hw.find_eq_none_iff.mp hnone)
  simp [touch, DedupWindow.modify, hindex]

theorem Valid.isSome_find_touch (s : SourceIdentity) :
    ((w.touch source nowNs).find s).isSome = (w.find s).isSome := by
  rw [touch, hw.find_modify]
  split
  · next h => rw [Option.isSome_map, h]
  · rfl

theorem Valid.touch (source : SourceIdentity) (nowNs : Nat) : (w.touch source nowNs).Valid :=
  hw.modify (keepsShape_touch nowNs) source

theorem Valid.touch_prepared : (w.touch source nowNs).prepared source laterNs =
    w.prepared source laterNs := by
  cases hf : w.find source with
  | none => rw [hw.touch_of_find_none hf]
  | some state =>
    have hhas : w.hasSource source = true := by simp [hasSource, hf]
    have hhas' : (w.touch source nowNs).hasSource source = true := by
      rw [hasSource, hw.isSome_find_touch, ← hasSource, hhas]
    rw [prepared, prepared, if_pos hhas, if_pos hhas', touch_touch]

theorem Valid.prepared_spec (source : SourceIdentity) (nowNs : Nat) :
    (w.prepared source nowNs).Valid ∧ SameFrame w (w.prepared source nowNs) ∧
      (w.prepared source nowNs).find source =
        some { w.entry source with lastActivityNs := nowNs } := by
  unfold prepared
  cases hf : w.find source with
  | none =>
    obtain ⟨-, hv, hframe, -⟩ := hw.addSource hf 0 nowNs
    rw [if_neg (by simp [hasSource, hf])]
    refine ⟨hv, hframe, ?_⟩
    rw [hw.find_addSource hf, entry, hf]
    rfl
  | some state =>
    rw [if_pos (by simp [hasSource, hf])]
    refine ⟨hw.touch source nowNs, modify_frame .., ?_⟩
    rw [entry, hf]
    exact hw.find_touch hf nowNs

theorem Valid.hasSource_prepared (source : SourceIdentity) (nowNs : Nat) :
    (w.prepared source nowNs).hasSource source = true := by
  rw [hasSource, (hw.prepared_spec source nowNs).2.2]
  rfl

section

variable (hs : w.stale epoch = false) (hfresh : w.AllFresh nowNs)
include hs hfresh

theorem Valid.prepareSource_prepared (source : SourceIdentity) :
    w.prepareSource epoch source nowNs = (.success, w.prepared source nowNs) := by
  unfold prepared
  cases hf : w.find source with
  | none =>
    obtain ⟨hok, -⟩ := hw.addSource hf 0 nowNs
    rw [if_neg (by simp [hasSource, hf]), ← hok]
    simp [DedupWindow.prepareSource, hs, hf, purgeExpired_of_allFresh hfresh]
  | some state =>
    rw [if_pos (by simp [hasSource, hf])]
    simp [DedupWindow.prepareSource, hs, hf, DedupWindow.touch, purgeExpired_of_allFresh hfresh]

omit hs in
/-- A lookup of a window with nothing to purge forgets what it evicts. -/
theorem Valid.forgets_eq (op : Op) (htime : ∀ t ∈ w.purgeTime op, t = nowNs)
    (hop : op.isLookup = true) : w.forgets op =
      (w.entries.map SourceState.source).filter fun s => !((w.step op).find s).isSome := by
  refine filter_congr fun s hmem => ?_
  have hsome : (w.find s).isSome := by
    obtain ⟨state, hstate, rfl⟩ := mem_map.mp hmem
    rw [hw.find_eq_some_iff.mpr ⟨hstate, rfl⟩]
    rfl
  have hpurge : (w.purgeTime op).all fun t => ((w.purgeExpired t).find s).isSome := by
    refine (Option.all_eq_true_iff_get _ _).mpr fun ht => ?_
    rw [htime _ (Option.get_mem ht), purgeExpired_of_allFresh hfresh, hsome]
  have hreseeds : w.reseeds s op = false := by
    cases op with
    | seedAccepted => cases hop
    | _ => rfl
  simp [keeps, hpurge, hreseeds]

theorem Valid.forgets_prepare (source : SourceIdentity) :
    w.forgets (.prepareSource epoch source nowNs) =
    (w.entries.map SourceState.source).filter
      fun s => !((w.prepared source nowNs).find s).isSome := by
  rw [hw.forgets_eq hfresh (.prepareSource ..) (by simp [purgeTime, hs]) rfl,
    DedupWindow.step, hw.prepareSource_prepared hs hfresh source]

end

end

end DedupWindow

namespace Pipe

open DedupWindow

variable {ν : Type} {e : Endpoint ν} {frame : DataFrame} {nowNs laterNs : Nat}

/-- What the window says to the frame, and whether the frame is then taken as a baseline. -/
def checked (e : Endpoint ν) (frame : DataFrame) : DedupCheckResult :=
  classify e.dedup.options (e.dedup.entry frame.header.source) frame.header.sequenceNum

def baseline (e : Endpoint ν) (frame : DataFrame) : Bool :=
  isDegradedBaseline e (checked e frame) frame.header.source

/-- The frame passes all that stands in front of the ingress port. -/
structure Reaches (e : Endpoint ν) (frame : DataFrame) : Prop where
  valid : e.dedup.Valid
  current : e.dedup.stale e.options.remoteSessionEpoch = false
  source : frame.header.source.valid = true
  lane : belongsToLane e.options frame.header.source = true
  sequence : frame.header.sequenceNum ≠ 0
  accepted : (checked e frame).decision = .accept ∨ baseline e frame = true
  room : e.pendingAcks.canQueueAck e.options.maxControlFrames
    ⟨e.options.localSessionEpoch, e.options.remoteSessionEpoch, frame.header.source,
      frame.header.sequenceNum, some (prospectiveHighest (baseline e frame)
        (e.dedup.entry frame.header.source).highestContiguousSequence
        frame.header.sequenceNum), .accepted⟩ = true

/-- The endpoint once the source of the frame is entered. -/
def prepared (e : Endpoint ν) (frame : DataFrame) (nowNs : Nat) : Endpoint ν :=
  { e with
    dedup := e.dedup.prepared frame.header.source nowNs
    log := e.log ++ (e.dedup.forgets
      (.prepareSource e.options.remoteSessionEpoch frame.header.source nowNs)).map .forgotten }

/-- From the ingress port on. -/
def deliver (frame : DataFrame) (degradedBaseline : Bool) (nowNs : Nat) : Pipe ν Unit := do
  decodeValidatePublish frame
  let committed ← remember frame degradedBaseline nowNs
  emitAck frame.header committed .accepted

namespace Reaches

variable (h : Reaches e frame)
include h

theorem checked_prepared (nowNs : Nat) : checked (prepared e frame nowNs) frame = checked e frame := by
  obtain ⟨-, hframe, hfind⟩ := h.valid.prepared_spec frame.header.source nowNs
  rw [checked, prepared, hframe.options, DedupWindow.entry, hfind]
  rfl

/-- Once its source is entered a frame is no baseline. -/
theorem baseline_prepared (nowNs : Nat) : baseline (prepared e frame nowNs) frame = false := by
  simp [baseline, isDegradedBaseline, prepared, h.valid.hasSource_prepared]

variable (hfresh : e.dedup.AllFresh nowNs)
include hfresh

theorem dedupPrepare :
    dedupPrepare frame.header.source nowNs
        { e with dedup := e.dedup.touch frame.header.source nowNs } =
      (.ok (), prepared e frame nowNs) := by
  have hv := h.valid.touch frame.header.source nowNs
  have hs : (e.dedup.touch frame.header.source nowNs).stale e.options.remoteSessionEpoch = false :=
    ((modify_frame ..).stale _).trans h.current
  have hf : (e.dedup.touch frame.header.source nowNs).AllFresh nowNs :=
    hfresh.touch (by simp [isExpired])
  have hprepare := hv.prepareSource_prepared hs hf frame.header.source
  have hforgets := hv.forgets_prepare hs hf frame.header.source
  rw [h.valid.touch_prepared, touch_sources, ← h.valid.forgets_prepare h.current hfresh] at hforgets
  rw [h.valid.touch_prepared] at hprepare
  simp [Pipe.dedupPrepare, onDedup, hforgets, hprepare, step, Pipe.check, prepared]

omit hfresh in
/-- With its source entered, a frame that is no baseline gets as far as before. -/
theorem prepared (hnot : baseline e frame = false) (nowNs : Nat) :
    Reaches (Pipe.prepared e frame nowNs) frame := by
  obtain ⟨hv, hframe, hfind⟩ := h.valid.prepared_spec frame.header.source nowNs
  refine ⟨hv, (hframe.stale _).trans h.current, h.source, h.lane, h.sequence, .inl ?_, ?_⟩
  · rw [h.checked_prepared]
    exact h.accepted.resolve_right (by simp [hnot])
  · have hroom := h.room
    rw [hnot] at hroom
    rw [h.baseline_prepared, Pipe.prepared, DedupWindow.entry, hfind]
    exact hroom

end Reaches

end Pipe

end Mino.Bridge
