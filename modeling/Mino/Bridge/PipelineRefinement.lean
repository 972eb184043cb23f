import Mino.Bridge.PipelineSteps

/-! # The pipeline refines its steps

Every function of the pipeline moves the abstract machine by a chain of steps,
whatever it returns and whatever the outside answers. The tables have to be well
formed for the steps to mean what they say; every step keeps them so. -/

namespace Mino.Bridge

open List Proc PendingReliable

/-- A logical frame is filed under the source and sequence it carries. -/
def PendingReliable.Coherent (p : PendingReliable) : Prop :=
  p.outbound.frame.header.source = p.source ∧ p.outbound.frame.header.sequenceNum = p.sequence

namespace Core

structure Sound (c : Core) : Prop where
  dedup : c.dedup.Valid
  retransmit : c.retransmit.Valid
  filed : ∀ r ∈ c.retransmit.entries,
    r.frame.header.source = r.source ∧ r.frame.header.sequenceNum = r.sequence
  numbered : ∀ r ∈ c.retransmit.entries, r.sequence ≠ 0

/-- Steps that keep the tables well formed. -/
class Keeps (R : Core → Core → Prop) : Prop where
  sound : ∀ {c c'}, R c c' → c.Sound → c'.Sound

theorem Sound.congr {c c' : Core} (h : c.Sound) (hd : c'.dedup.Valid)
    (hr : c'.retransmit = c.retransmit) : c'.Sound :=
  ⟨hd, hr ▸ h.retransmit, by rw [hr]; exact h.filed, by rw [hr]; exact h.numbered⟩

theorem Sound.onDedup {c : Core} (h : c.Sound) (op : DedupWindow.Op) : (c.onDedup op).Sound :=
  h.congr (h.dedup.step op) rfl

theorem Sound.trim {c c' : Core} (h : c.Sound) (hd : c'.dedup = c.dedup)
    (hv : c'.retransmit.Valid) (hsub : c'.retransmit.entries ⊆ c.retransmit.entries) : c'.Sound :=
  ⟨hd ▸ h.dedup, hv, fun r hr => h.filed r (hsub hr), fun r hr => h.numbered r (hsub hr)⟩

section

variable (c : Core) (source : SourceIdentity) (highest : Nat) (persisted : Status)
include highest

@[simp] theorem persist_dedup : (c.persist source highest persisted).dedup = c.dedup := by
  unfold persist
  split
  · rfl
  · split <;> rfl

@[simp] theorem persist_retransmit : (c.persist source highest persisted).retransmit = c.retransmit := by
  unfold persist
  split
  · rfl
  · split <;> rfl

end

theorem settle_dedup (c : Core) (op : DedupWindow.Op) (events : List Event) (epoch : Nat)
    (source : SourceIdentity) (sequence nowNs : Nat) (persisted : Status) :
    (c.settle op events epoch source sequence nowNs persisted).dedup =
      (c.dedup.step op).step (.check epoch source sequence nowNs) := by
  simp only [settle, persist_dedup]
  rfl

theorem Sound.settle {c : Core} (h : c.Sound) (op : DedupWindow.Op) (events : List Event)
    (epoch : Nat) (source : SourceIdentity) (sequence nowNs : Nat) (persisted : Status) :
    (c.settle op events epoch source sequence nowNs persisted).Sound := by
  refine h.congr ?_ ?_
  · rw [settle_dedup]
    exact (h.dedup.step _).step _
  · simp only [Core.settle, persist_retransmit]
    rfl

theorem Sound.applyAck {c : Core} (h : c.Sound) (ack : AckPayload) : (c.applyAck ack).Sound := by
  obtain ⟨hv, hsub⟩ := h.retransmit.applyAck ack
  exact h.trim rfl hv hsub

instance (p : PendingInbound) : Keeps (Handle p) where
  sound h hs := by
    cases h with
    | lookup | refuseCommit | refuseSeed => exact hs.onDedup _
    | commit | seed => exact hs.settle ..
    | applyAck => exact hs.applyAck _
    | _ => exact hs.congr hs.dedup rfl

instance : Keeps Outgoing where
  sound h hs := by cases h <;> exact hs.congr hs.dedup rfl

theorem Sound.admission {c c' : Core} (h : c.Sound) {frame size nowNs} (hd : c'.dedup = c.dedup)
    (hr : c'.retransmit = (c.retransmit.add frame.header.source frame.header.sequenceNum frame size
      nowNs).2) : c'.Sound := by
  refine ⟨hd ▸ h.dedup, hr ▸ h.retransmit.add .., fun r hmem => ?_, fun r hmem => ?_⟩ <;>
    rw [hr] at hmem <;> rcases RetransmitWindow.mem_add hmem with hold | ⟨rfl, hok⟩
  · exact h.filed r hold
  · exact ⟨rfl, rfl⟩
  · exact h.numbered r hold
  · exact RetransmitWindow.add_ne_zero hok

instance : Keeps Step where
  sound h hs := by
    cases h with
    | handle _ h | outgoing h => exact Keeps.sound h hs
    | admission => exact hs.admission rfl rfl
    | expire nowNs =>
      obtain ⟨hv, hsub⟩ := hs.retransmit.purgeExpired nowNs
      exact hs.trim rfl hv hsub
    | lookup | restore => exact hs.onDedup _
    | resession r hr =>
      have hentries : r.entries = _ := congrArg SwapTable.entries hr
      refine ⟨hs.dedup, ?_, fun x hx => ?_, fun x hx => ?_⟩
      · rw [RetransmitWindow.Valid, hr]
        exact hs.retransmit
      · rw [hentries] at hx
        exact hs.filed x hx
      · rw [hentries] at hx
        exact hs.numbered x hx
    | _ => exact hs.congr hs.dedup rfl

end Core

open Bridge.Core

/-- What every function of the pipeline relies on. -/
structure Endpoint.Good {ν : Type} (e : Endpoint ν) : Prop where
  sound : e.core.Sound
  reliable : e.pendingReliable.Valid PendingReliable.key
  coherent : ∀ p ∈ e.pendingReliable.entries, p.Coherent

namespace Pipe

variable {ν : Type} {α β : Type} {R : Core → Core → Prop}

def Micro (R : Core → Core → Prop) (e e' : Endpoint ν) : Prop := Relation.ReflGen R e.core e'.core

/-- The command moves the machine by steps of the given kind. -/
abbrev Takes (R : Core → Core → Prop) (m : Pipe ν α) : Prop := Does Endpoint.Good (Micro R) m

abbrev TakesAt (R : Core → Core → Prop) (m : Pipe ν α) (e : Endpoint ν) : Prop :=
  DoesAt Endpoint.Good (Micro R) m e

variable {m : Pipe ν α} {e : Endpoint ν} {size : Nat} {p : PendingInbound}

theorem takesAt_quiet (he : e.Good) (hc : (m e).2.core = e.core)
    (hr : (m e).2.pendingReliable = e.pendingReliable) : TakesAt R m e := by
  refine ⟨⟨hc ▸ he.sound, hr ▸ he.reliable, hr ▸ he.coherent⟩, .single ?_⟩
  rw [Micro, hc]

/-- A change of the logical frames only. -/
theorem takesAt_file (he : e.Good) (hc : (m e).2.core = e.core)
    (hv : (m e).2.pendingReliable.Valid key)
    (hr : ∀ p ∈ (m e).2.pendingReliable.entries, p.Coherent) : TakesAt R m e := by
  refine ⟨⟨hc ▸ he.sound, hv, hr⟩, .single ?_⟩
  rw [Micro, hc]

theorem takesAt_step [Keeps R] (he : e.Good) (h : R e.core (m e).2.core)
    (hr : (m e).2.pendingReliable = e.pendingReliable) : TakesAt R m e :=
  ⟨⟨Keeps.sound h he.sound, hr ▸ he.reliable, hr ▸ he.coherent⟩, .single (.single h)⟩

theorem TakesAt.mono {R'} (h : TakesAt R m e) (hR : ∀ c c', R c c' → R' c c') : TakesAt R' m e :=
  DoesAt.mono h fun _ _ hm => Relation.ReflGen.mono (fun c c' => hR c c') _ _ hm

theorem TakesAt.outgoing (h : TakesAt Outgoing m e) : TakesAt Step m e :=
  h.mono fun _ _ => .outgoing

variable (status : Status) {frame : ControlFrame}

/-! ### Ports and counters -/

theorem check_takes : Takes R (check status : Pipe ν Unit) :=
  does_ite (does_pure _) (does_fail _)

theorem check_bind {status} {f : Unit → Pipe ν α} (he : e.Good)
    (h : status.ok = true → TakesAt R (f ()) e) : TakesAt R (check status >>= f) e := by
  unfold check
  split
  · rename_i hok
    exact h hok
  · exact does_fail _ _ he

/-- A call whose outcome is read from the script. -/
theorem call_takes {f} {g : Endpoint ν → Pipe ν α}
    (hf : ∀ e, (f e).core = e.core ∧ (f e).pendingReliable = e.pendingReliable)
    (hg : ∀ e, Takes R (g e)) : Takes R (do let e ← .get; .modify f; g e : Pipe ν α) :=
  does_get_bind fun e he =>
    .bind (takesAt_quiet he (hf e).1 (hf e).2) fun _ _ he' => hg e _ he'

theorem inspectHeader_takes : Takes R (inspectHeader : Pipe ν Unit) :=
  call_takes (by intro; exact ⟨rfl, rfl⟩) fun _ => check_takes _

theorem decodeView_takes : Takes R (decodeView : Pipe ν Unit) :=
  call_takes (by intro; exact ⟨rfl, rfl⟩) fun _ => check_takes _

theorem authorizeTopic_takes : Takes R (authorizeTopic : Pipe ν Unit) :=
  call_takes (by intro; exact ⟨rfl, rfl⟩) fun _ => check_takes _

theorem confirmRemoteAccepted_takes : Takes R (confirmRemoteAccepted : Pipe ν Unit) :=
  call_takes (by intro; exact ⟨rfl, rfl⟩) fun _ => check_takes _

theorem close_takes : Takes R (close : Pipe ν Unit) :=
  call_takes (by intro; exact ⟨rfl, rfl⟩) fun _ => check_takes _

theorem pollCompletions_takes : Takes R (pollCompletions : Pipe ν (List DeliveryCompletion)) :=
  call_takes (by intro; exact ⟨rfl, rfl⟩) fun _ => does_ofExcept _

theorem updateSessionReady_takes : Takes R (updateSessionReady : Pipe ν Unit) :=
  fun _ he => takesAt_quiet he rfl rfl

theorem countOutbound_takes (size : Nat) : Takes R (countOutbound size : Pipe ν Unit) :=
  fun _ he => takesAt_quiet he rfl rfl

theorem stopUnlessBlocked_takes : Takes R (stopUnlessBlocked status : Pipe ν Unit) :=
  does_ite (does_pure _) (does_fail _)

theorem put_control (he : e.Good) (h : (∃ n, (frame, n) ∈ e.controlQueue) ∨
      ∃ node ack, (node, ack) ∈ e.pendingAcks.acks ∧ frame = .ack (.ok ack)) :
    TakesAt Step (put (.control frame) size) e :=
  takesAt_step he (.sendControl size h) rfl

theorem put_data {frame} (he : e.Good) (h : e.core.Sendable frame) :
    TakesAt Outgoing (put (.data frame) size) e :=
  takesAt_step he (.transmit size h) rfl

/-- A frame that may be put on the connection may be handed to the driver. -/
theorem trySendUntracked_takesAt {frame} (he : e.Good)
    (h : ∀ e' : Endpoint ν, e'.Good → e'.core = e.core → TakesAt R (put frame size) e') :
    TakesAt R (trySendUntracked frame size) e := by
  refine .get_bind (.bind (takesAt_quiet he rfl rfl) fun _ _ he₁ => ?_)
  exact check_bind he₁ fun _ => h _ he₁ rfl

theorem trySendOwned_takesAt {frame} (he : e.Good) (h : e.core.Sendable frame) :
    TakesAt Outgoing (trySendOwned frame size) e := by
  refine .get_bind (.bind (takesAt_quiet he rfl rfl) fun _ _ he₁ => ?_)
  cases e.script.sends.head?.getD (.ok e.nextOperation) with
  | error status => exact does_fail _ _ he₁
  | ok id => exact .bind (put_data he₁ h) fun _ _ he₂ => does_pure _ _ he₂

/-! ### Control traffic -/

theorem queueControl_takesAt (he : e.Good) (h : e.core.Announces frame) :
    TakesAt Outgoing (queueControl frame) e := by
  refine .get_bind (.ofExcept_bind he fun size _ => ?_)
  split
  · exact does_fail _ _ he
  · exact takesAt_step he (.queue size h) rfl

theorem queueNegotiatedControls_takes (controls : List SchemaControl) :
    Takes R (queueNegotiatedControls controls : Pipe ν Unit) := by
  induction controls with
  | nil => exact does_pure _
  | cons control rest ih =>
    refine does_get_bind fun e he => ?_
    split
    · exact ih e he
    split
    · exact does_fail _ _ he
    · exact .bind (takesAt_quiet he rfl rfl) fun _ _ he₁ => ih _ he₁

theorem dropSchemaControl_takes : Takes R (dropSchemaControl : Pipe ν Unit) :=
  fun _ he => takesAt_quiet he rfl rfl

theorem popControl_takes : Takes Step (popControl : Pipe ν Unit) :=
  fun _ he => takesAt_step he .unqueue rfl

theorem mem_helloSources {options entries sources} (h : helloSources options entries = .ok sources)
    {s} (hs : s ∈ sources) : ⟨s.source, s.lastAcceptedSequence⟩ ∈ entries := by
  induction entries generalizing sources with
  | nil =>
    cases h
    cases hs
  | cons entry rest ih =>
    rw [helloSources] at h
    split at h
    · cases h
    split at h
    · cases h
    rename_i sources' hrest
    cases h
    rcases mem_cons.mp hs with rfl | hs
    · exact mem_cons_self
    · exact mem_cons_of_mem _ (ih hrest hs)

theorem queueSessionHello_takes : Takes Outgoing (queueSessionHello : Pipe ν Unit) := by
  refine does_get_bind fun e he => .ofExcept_bind he fun sources hsources => ?_
  refine .ofExcept_bind he fun frame hframe => queueControl_takesAt he ?_
  unfold ControlPayloadCodec.encodeSessionHello at hframe
  repeat' split at hframe
  all_goals cases hframe
  exact fun s hs => mem_helloSources hsources hs

theorem queueSessionKeyShare_takes : Takes Outgoing (queueSessionKeyShare : Pipe ν Unit) := by
  refine does_get_bind fun e he => ?_
  split
  · exact does_fail _ _ he
  refine .bind (takesAt_quiet he rfl rfl) fun _ _ he₁ => .ofExcept_bind he₁ fun share _ => ?_
  refine .bind (takesAt_quiet he₁ rfl rfl) fun _ _ he₂ => ?_
  exact .bind (queueControl_takesAt he₂ trivial) fun _ _ he₃ => takesAt_quiet he₃ rfl rfl

theorem handleKeyShare_takes (payload : Result SessionKeyShare) :
    Takes R (handleKeyShare payload : Pipe ν Unit) := by
  refine does_get_bind fun e he => ?_
  split
  · exact does_fail _ _ he
  refine .ofExcept_bind he fun _ _ => .bind (takesAt_quiet he rfl rfl) fun _ _ he₁ => ?_
  refine check_bind he₁ fun _ => ?_
  split
  · exact does_fail _ _ he₁
  · exact .bind (takesAt_quiet he₁ rfl rfl) fun _ _ he₂ => updateSessionReady_takes _ he₂

variable (budget : BridgePumpBudget) (source : SourceIdentity) (ack : AckPayload) (fuel : Nat)

theorem flushAcks_takes : Takes Step (flushAcks budget fuel : Pipe ν Unit) := by
  induction fuel with
  | zero => exact does_pure _
  | succ fuel ih =>
    refine does_get_bind fun e he => ?_
    cases hacks : e.pendingAcks.acks with
    | nil => exact does_pure _ _ he
    | cons head rest =>
      obtain ⟨node, ack⟩ := head
      dsimp only
      split
      · refine .ofExcept_bind he fun frame hframe => .ofExcept_bind he fun size _ => ?_
        split
        · exact does_pure _ _ he
        have hack : frame = .ack (.ok ack) := by
          unfold ControlPayloadCodec.encodeAck at hframe
          split at hframe
          · cases hframe
          · exact (Except.ok.inj hframe).symm
        have hmem : (node, ack) ∈ e.pendingAcks.acks := by simp [hacks]
        refine .attempt_bind (trySendUntracked_takesAt he fun e' he' hc => ?_) fun r _ he₁ => ?_
        · have hq : e'.pendingAcks = e.pendingAcks := congrArg Core.pendingAcks hc
          exact put_control he' (.inr ⟨node, ack, hq ▸ hmem, hack⟩)
        cases r with
        | error status => exact stopUnlessBlocked_takes _ _ he₁
        | ok _ =>
          refine .bind (countOutbound_takes _ _ he₁) fun _ _ he₂ => ?_
          exact .bind (takesAt_step he₂ (.dropAck node) rfl) fun _ _ he₃ => ih _ he₃
      · exact does_pure _ _ he

theorem flushControlQueue_takes : Takes Step (flushControlQueue budget fuel : Pipe ν Unit) := by
  induction fuel with
  | zero => exact updateSessionReady_takes
  | succ fuel ih =>
    refine does_get_bind fun e he => ?_
    cases hqueue : e.controlQueue with
    | nil => exact updateSessionReady_takes _ he
    | cons head rest =>
      obtain ⟨frame, size⟩ := head
      dsimp only
      split
      · refine .attempt_bind (trySendUntracked_takesAt he fun e' he' hc => ?_) fun r _ he₁ => ?_
        · have hq : e'.controlQueue = e.controlQueue := congrArg Core.controlQueue hc
          exact put_control he' (.inl ⟨size, by simp [hq, hqueue]⟩)
        · cases r with
          | error status => exact stopUnlessBlocked_takes _ _ he₁
          | ok _ =>
            refine .bind (countOutbound_takes _ _ he₁) fun _ _ he₂ => ?_
            exact .bind (takesAt_step he₂ .dropControl rfl) fun _ _ he₃ => ih _ he₃
      · exact updateSessionReady_takes _ he

theorem flushPendingAcks_takes : Takes Step (flushPendingAcks budget : Pipe ν Unit) :=
  does_get_bind fun _ he => flushAcks_takes budget _ _ he

theorem flushControls_takes : Takes Step (flushControls budget : Pipe ν Unit) :=
  does_get_bind fun _ he => flushControlQueue_takes budget _ _ he

section

variable [SchemaNegotiator ν]

theorem confirmControlQueued_takes (payload : List UInt8) :
    Takes R (confirmControlQueued payload : Pipe ν Status) := by
  refine does_get_bind fun e he => ?_
  split
  · exact does_pure _ _ he
  rename_i n hn
  refine .bind (takesAt_quiet he ?_ rfl) fun _ _ he₁ => does_pure _ _ he₁
  simp [Endpoint.core, hn]

theorem announces_schema (c : Core) (control : SchemaControl) : c.Announces control.frame := by
  cases control <;> trivial

theorem admitNegotiatedControls_takes :
    Takes Step (admitNegotiatedControls fuel : Pipe ν Unit) := by
  induction fuel with
  | zero => exact does_pure _
  | succ fuel ih =>
    have hnext : Takes Step (do dropSchemaControl; admitNegotiatedControls fuel : Pipe ν Unit) :=
      does_bind dropSchemaControl_takes fun _ => ih
    refine does_get_bind fun e he => ?_
    cases e.pendingSchemaControls with
    | nil => exact does_pure _ _ he
    | cons control rest =>
      refine .attempt_bind
        (queueControl_takesAt he (announces_schema _ _)).outgoing fun r _ he₁ => ?_
      cases r with
      | error status => exact does_ite (does_pure _) (does_fail _) _ he₁
      | ok _ =>
        cases control with
        | announce payload => exact hnext _ he₁
        | request payload =>
          refine .bind (confirmControlQueued_takes payload _ he₁) fun confirmed _ he₂ => ?_
          refine does_ite hnext (does_bind popControl_takes fun _ => ?_) _ he₂
          exact does_ite hnext (does_fail _)

theorem admitControls_takes : Takes Step (admitControls : Pipe ν Unit) :=
  does_get_bind fun _ he => admitNegotiatedControls_takes _ _ he

end

/-! ### Send attempts -/

theorem addAttempt_takes (attempt : Attempt) : Takes R (addAttempt attempt : Pipe ν Unit) := by
  refine does_get_bind fun e he => ?_
  split
  · exact does_fail _ _ he
  split
  · exact does_fail _ _ he
  · exact takesAt_quiet he rfl rfl

variable (key : AttemptKey)

theorem removeAttempt_takes : Takes R (removeAttempt key : Pipe ν Unit) := by
  intro e he
  refine takesAt_quiet he ?_ ?_ <;>
  · rw [removeAttempt, modify_apply]
    dsimp only
    split <;> rfl

theorem retire_takes : Takes R (retire key : Pipe ν Unit) := by
  refine does_attempt_bind confirmRemoteAccepted_takes fun r => ?_
  cases r with
  | ok _ => exact removeAttempt_takes key
  | error status =>
    refine does_ite (does_fail _) (does_get_bind fun e he => ?_)
    exact does_ite (does_pure _) (removeAttempt_takes key) e he

theorem retireAll_takes (keys : List AttemptKey) : Takes R (retireAll keys : Pipe ν Unit) := by
  induction keys with
  | nil => exact does_pure _
  | cons key rest ih => exact does_bind (retire_takes key) fun _ => ih

theorem retireAcknowledgedAttempts_takes :
    Takes R (retireAcknowledgedAttempts ack : Pipe ν Unit) := by
  refine does_get_bind fun e he => .bind (does_onlyIf (retireAll_takes _) e he) fun _ _ he₁ => ?_
  exact .get_bind (does_onlyIf (retireAll_takes _) _ he₁)

theorem requestRetries_takes : Takes R (requestRetries ack : Pipe ν Unit) :=
  fun _ he => takesAt_quiet he rfl rfl

/-! ### Logical frames -/

theorem addPendingReliable_takes {pending} (h : pending.Coherent) :
    Takes R (addPendingReliable pending : Pipe ν Unit) := by
  refine does_get_bind fun e he => ?_
  split
  · exact does_fail _ _ he
  rename_i hnone
  refine takesAt_file he rfl (he.reliable.push (by simpa using hnone)) fun p hp => ?_
  rcases mem_append.mp hp with hp | hp
  · exact he.coherent p hp
  · rw [mem_singleton.mp hp]
    exact h

theorem removePendingReliableAt_takes (index : Nat) :
    Takes R (removePendingReliableAt index : Pipe ν Unit) := by
  intro e he
  refine takesAt_file he rfl ?_ fun p hp => he.coherent p (SwapTable.mem_of_mem_removeAt hp)
  show (e.pendingReliable.removeAt key index).Valid key
  cases hi : e.pendingReliable.entries[index]? with
  | some removed => exact he.reliable.removeAt hi
  | none =>
    rw [SwapTable.removeAt, hi]
    exact he.reliable

variable (sequence : Nat)

/-- Changes of a logical frame that leave it under its key. -/
theorem modifyPendingReliable_takes {f} (hk : ∀ p, (f p).key = p.key)
    (hf : ∀ p, p.source = source → p.sequence = sequence → p.Coherent → (f p).Coherent) :
    Takes R (modifyPendingReliable source sequence f : Pipe ν Unit) := by
  intro e he
  cases hi : e.pendingReliable.index (source, sequence) with
  | none =>
    refine takesAt_quiet he ?_ ?_ <;> simp [modifyPendingReliable, hi]
  | some index =>
    obtain ⟨q, hq, hkey⟩ := Option.map_eq_some_iff.mp ((he.reliable.indexed _ _).mp hi)
    have hstate : (modifyPendingReliable source sequence f e).2.pendingReliable =
        { e.pendingReliable with entries := e.pendingReliable.entries.modify index f } := by
      simp [modifyPendingReliable, hi]
    refine takesAt_file he ?_ ?_ ?_
    · simp only [modifyPendingReliable, modify_apply, hi]
      rfl
    · rw [hstate]
      exact ⟨⟨he.reliable.sorted, he.reliable.mem_group, he.reliable.ne_nil⟩,
        he.reliable.indexed.modify hk index⟩
    · rw [hstate]
      intro p hp
      obtain ⟨i, hget⟩ := mem_iff_getElem?.mp hp
      rw [getElem?_modify] at hget
      obtain ⟨p₀, hp₀, rfl⟩ := Option.map_eq_some_iff.mp hget
      have hmem := mem_of_getElem? hp₀
      by_cases hidx : index = i
      · subst hidx
        rw [hq] at hp₀
        cases hp₀
        rw [key, Prod.mk.injEq] at hkey
        simpa using hf q hkey.1 hkey.2 (he.coherent q hmem)
      · simpa [hidx] using he.coherent p₀ hmem

theorem removeReliableThrough_takes (highest fuel : Nat) :
    Takes R (removeReliableThrough source highest fuel : Pipe ν Unit) := by
  induction fuel with
  | zero => exact does_pure _
  | succ fuel ih =>
    refine does_get_bind fun e he => ?_
    split
    · exact does_pure _ _ he
    · refine does_ite (does_pure _) (does_bind ?_ fun _ => ih) e he
      exact removePendingReliableAt_takes _

theorem removeObservedReliable_takes : Takes R (removeObservedReliable ack : Pipe ν Unit) := by
  refine does_get_bind fun e he => ?_
  split
  · exact does_pure _ _ he
  · exact does_onlyIf (removePendingReliableAt_takes _) e he

theorem removeAcknowledgedReliable_takes :
    Takes R (removeAcknowledgedReliable ack : Pipe ν Unit) := by
  refine does_get_bind fun e he => ?_
  refine .bind (does_onlyIf (removeReliableThrough_takes _ _ _) e he) fun _ _ he₁ => ?_
  exact does_onlyIf (removeObservedReliable_takes ack) _ he₁

theorem removeRetiredFrom_takes (i : Nat) : Takes R (removeRetiredFrom fuel i : Pipe ν Unit) := by
  induction fuel generalizing i with
  | zero => exact does_pure _
  | succ fuel ih =>
    refine does_get_bind fun e he => ?_
    split
    · exact does_pure _ _ he
    · refine does_ite (ih _) (does_bind ?_ fun _ => ih _) e he
      exact removePendingReliableAt_takes _

theorem removeRetiredReliable_takes : Takes R (removeRetiredReliable : Pipe ν Unit) :=
  does_get_bind fun _ he => removeRetiredFrom_takes _ _ _ he

theorem markTransmitted_takes : Takes R (markTransmitted source sequence : Pipe ν Unit) :=
  modifyPendingReliable_takes source sequence (fun _ => rfl) fun _ _ _ h => h

/-! ### ACKs and resume marks -/

theorem applyAck_takes {ack} (h : p.frame.Carries ack) :
    Takes (Handle p) (applyAck ack : Pipe ν Unit) := by
  refine does_get_bind fun e he => .bind (takesAt_step he (.applyAck h) rfl) fun _ _ he₁ => ?_
  cases (e.retransmit.applyAck ack).1 with
  | error status => exact does_fail _ _ he₁
  | ok _ => exact does_pure _ _ he₁

theorem handleAck_takes {payload} (hp : p.frame = .control (.ack payload)) :
    Takes (Handle p) (handleAck payload : Pipe ν Unit) := by
  intro e he
  refine .ofExcept_bind he fun ack hack => .get_bind ?_
  have hcarries : p.frame.Carries ack := by
    rw [hp, hack]
    rfl
  refine does_ite (does_fail _) (does_bind (applyAck_takes hcarries) fun _ => ?_) e he
  refine does_bind (removeAcknowledgedReliable_takes ack) fun _ => ?_
  refine does_bind (does_onlyIf (requestRetries_takes ack)) fun _ => ?_
  exact retireAcknowledgedAttempts_takes ack

theorem resume_takes {hello} (hp : p.frame = .control (.sessionHello (.ok hello)))
    (hlost : hello.dedupStateLost = false) (sources : List SessionHelloSource)
    (hsub : sources ⊆ hello.sources) : Takes (Handle p) (resume sources : Pipe ν Unit) := by
  induction sources with
  | nil => exact does_pure _
  | cons source rest ih =>
    refine does_get_bind fun e he => ?_
    have hcarries : p.frame.Carries (resumeAck e.options source) := by
      rw [hp]
      exact ⟨hlost, rfl, source, hsub mem_cons_self, rfl, rfl⟩
    refine does_bind (applyAck_takes hcarries) (fun _ => ?_) e he
    refine does_bind (removeAcknowledgedReliable_takes _) fun _ => ?_
    refine does_bind (retireAcknowledgedAttempts_takes _) fun _ => ?_
    exact ih fun s hs => hsub (mem_cons_of_mem _ hs)

theorem handleHello_takes {payload} (hp : p.frame = .control (.sessionHello payload)) :
    Takes (Handle p) (handleHello payload : Pipe ν Unit) := by
  intro e he
  refine .ofExcept_bind he fun hello hhello => .get_bind ?_
  rw [hhello] at hp
  refine does_ite (does_fail _) (does_ite (does_fail _) ?_) e he
  refine does_bind (fun _ he => takesAt_quiet he rfl rfl) fun _ => does_bind ?_ fun _ => ?_
  · cases hlost : hello.dedupStateLost with
    | true => exact does_pure _
    | false => exact resume_takes hp hlost _ (List.Subset.refl _)
  · refine does_bind removeRetiredReliable_takes fun _ => ?_
    exact does_bind (fun _ he => takesAt_quiet he rfl rfl) fun _ => updateSessionReady_takes

end Pipe

end Mino.Bridge
