import Mino.Bridge.DedupMemory
import Mino.Bridge.PipelineRuns

/-! # What a step does to the memory of a receiver

The dedup window, the durable store and the part of the log that speaks of them
change in five ways; all other steps leave the three alone. -/

namespace Mino.Bridge

open List

/-- The events about the dedup window, the store and the answers. -/
def Event.isReceipt : Event → Bool
  | .forgotten _ | .answered _ | .ackPlaced .. | .recorded .. => true
  | _ => false

/-- The receiver has published the frame or has taken a later one as a baseline. -/
def Vouched (log : List Event) (source : SourceIdentity) (k : Nat) : Prop :=
  .published source k ∈ log ∨ ∃ m, k ≤ m ∧ .baseline source m ∈ log

theorem Vouched.mono {log log' : List Event} (hl : log ⊆ log') {source k}
    (h : Vouched log source k) : Vouched log' source k :=
  h.imp (fun h => hl h) fun ⟨m, hm, h⟩ => ⟨m, hm, hl h⟩

/-- A flag of a source that is cleared when the source is forgotten. -/
theorem foldl_forgotten {f source} (hf : ∀ b s, f b
    (.forgotten s) = if s = source then false else b) (sources : List SourceIdentity) (b : Bool) :
    (sources.map Event.forgotten).foldl f b = if source ∈ sources then false else b := by
  induction sources generalizing b with
  | nil => rfl
  | cons s rest ih =>
    rw [map_cons, foldl_cons, ih, hf]
    by_cases hs : s = source
    · simp [hs]
    · simp [hs, Ne.symm hs]

namespace Core

theorem persist_cases (c : Core) (source : SourceIdentity) (highest : Nat) (persisted : Status) :
    c.persist source highest persisted = c ∨ ∃ store status, c.persist source highest persisted =
        { c with store, log := c.log ++ [.recorded source highest status] } := by
  unfold persist
  split
  · exact .inl rfl
  split
  · exact .inl rfl
  · exact .inr ⟨_, _, rfl⟩

inductive Effect : Core → Core → Prop where
  | idle {c c'} (events : List Event) (hd : c'.dedup = c.dedup) (hs : c'.store = c.store)
      (hl : c'.log = c.log ++ events) (h : ∀ event ∈ events, event.isReceipt = false) : Effect c c'
  | touch {c op} (h : ∀ source, c.dedup.accepts source op = false) : Effect c (c.onDedup op)
  | settle {c op events epoch source n nowNs} (persisted : Status) (hv : source.valid = true)
      (hop : op = .commitAccepted epoch source n nowNs ∨ op = .seedAccepted epoch source n nowNs)
      (h : ∀ event ∈ events, event.isReceipt = false)
      (hnew : ∀ s k, op.Adds s k → Vouched (c.log ++ events) s k) :
      Effect c (c.settle op events epoch source n nowNs persisted)
  | restore {c store} {entry : DedupResumeEntry} (epoch nowNs : Nat) (hs : c.store = some store)
      (he : entry ∈ store.load) :
      Effect c (c.onDedup (.seedAccepted epoch entry.source entry.highestContiguousSequence nowNs))
  | answer {c ack} (limit : Nat) (h : c.Answers ack) : Effect c (c.answer limit ack)

variable {c c' : Core}

/-- A step that leaves the log alone as well. -/
theorem Effect.still (hd : c'.dedup = c.dedup) (hs : c'.store = c.store)
    (hl : c'.log = c.log) : Effect c c' :=
  .idle [] hd hs (by simp [hl]) (by simp)

theorem accepts_of_isLookup {w : DedupWindow} {op} (h : op.isLookup = true)
    (source : SourceIdentity) : w.accepts source op = false := by
  cases op with
  | commitAccepted | seedAccepted => cases h
  | _ => rfl

theorem Handle.effect {p} (h : Handle p c c') : Effect c c' := by
  cases h with
  | lookup h => exact .touch (accepts_of_isLookup h)
  | publish source sequence | applyAck => exact .idle _ rfl rfl rfl (by simp [Event.isReceipt])
  | commit persisted hv hpub =>
    refine .settle persisted hv (.inl rfl) (by simp) ?_
    rintro s k ⟨rfl, rfl⟩
    exact .inl (mem_append_left _ hpub)
  | seed persisted hv =>
    refine .settle persisted hv (.inr rfl) (by simp [Event.isReceipt]) ?_
    rintro s k ⟨rfl, hle⟩
    exact .inr ⟨_, hle, by simp⟩
  | refuseCommit hbad | refuseSeed hbad =>
    exact .touch fun source => by simp [DedupWindow.accepts, hbad]
  | answer limit h => exact .answer limit h
  | stage => exact .still rfl rfl rfl

theorem Step.effect (h : Step c c') : Effect c c' := by
  cases h with
  | handle _ h => exact h.effect
  | outgoing h =>
    cases h with
    | transmit => exact .idle _ rfl rfl rfl (by simp [Event.isReceipt])
    | queue => exact .still rfl rfl rfl
  | abandon count =>
    refine .idle _ rfl rfl rfl fun event hevent => ?_
    rw [eq_of_mem_replicate hevent]
    rfl
  | admission | expire | reset => exact .idle _ rfl rfl rfl (by simp [Event.isReceipt])
  | lookup h => exact .touch (accepts_of_isLookup h)
  | restore epoch nowNs hs he => exact .restore epoch nowNs hs he
  | _ => exact .still rfl rfl rfl

theorem Change.effect (h : Change c c') : Effect c c' := by
  cases h with
  | step h => exact h.effect
  | deliver _ => exact .still rfl rfl rfl
  | produce frames =>
    refine .idle _ rfl rfl rfl fun event hevent => ?_
    obtain ⟨o, -, rfl⟩ := mem_map.mp hevent
    rfl

theorem Effect.log_grows (h : Effect c c') : c.log <+: c'.log := by
  cases h with
  | idle events hd hs hl h =>
    rw [hl]
    exact prefix_append _ _
  | touch h | restore | answer limit => exact prefix_append _ _
  | @settle op events epoch source n nowNs persisted =>
    have hbefore : c.log <+:
        (((c.onDedup op).emit events).onDedup (.check epoch source n nowNs)).log :=
      ((prefix_append _ _).trans (prefix_append _ _)).trans (prefix_append _ _)
    unfold Core.settle
    rcases persist_cases (Core.onDedup _ _) _ _ persisted with heq | ⟨_, _, heq⟩ <;> rw [heq]
    · exact hbefore
    · exact hbefore.trans (prefix_append _ _)

end Core

end Mino.Bridge
