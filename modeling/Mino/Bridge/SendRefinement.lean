import Mino.Bridge.PipelineRefinement

/-! # Refinement of the sending half

Resending walks the retransmission window and takes its frames from there;
a frame from the egress port is admitted before it is sent. -/

namespace Mino.Bridge.Pipe

open Proc Bridge.Core

variable {ν : Type} {R : Core → Core → Prop}
  {e : Endpoint ν} {outbound : EncodedOutboundFrame} {frame : DataFrame}

theorem outgoing_frame {e'} (h : Relation.ReflTransGen (Micro Outgoing) e e') :
    e'.retransmit = e.retransmit ∧ e'.egress = e.egress := by
  induction h with
  | refl => exact ⟨rfl, rfl⟩
  | @tail e₁ e₂ _ hstep ih =>
    have hcore : e₂.core.retransmit = e₁.core.retransmit ∧ e₂.core.egress = e₁.core.egress := by
      unfold Micro at hstep
      generalize e₂.core = c₂ at hstep
      cases hstep with
      | refl => exact ⟨rfl, rfl⟩
      | single hs => cases hs <;> exact ⟨rfl, rfl⟩
    exact ⟨hcore.1.trans ih.1, hcore.2.trans ih.2⟩

variable (budget : BridgePumpBudget) (options : BridgePipelineOptions) (o : EncodedOutboundFrame)
  {size nowNs : Nat}

@[simp] theorem prepareOutboundDataFlags_source :
    (prepareOutboundDataFlags options o).frame.header.source = o.frame.header.source := by
  unfold prepareOutboundDataFlags
  split <;> rfl

@[simp] theorem prepareOutboundDataFlags_sequenceNum :
    (prepareOutboundDataFlags options o).frame.header.sequenceNum = o.frame.header.sequenceNum := by
  unfold prepareOutboundDataFlags
  split <;> rfl

@[simp] theorem prepareOutboundDataFlags_reliability :
    (prepareOutboundDataFlags options o).reliability = o.reliability := by
  unfold prepareOutboundDataFlags
  split <;> rfl

/-- Preparing a frame changes flags and references, not what it is. -/
def SameOutbound (o o' : EncodedOutboundFrame) : Prop :=
  SameKey o'.frame o.frame ∧ o'.reliability = o.reliability

section

variable [SchemaNegotiator ν] {entry : RetransmitEntry}

theorem bindSchema_takesAt {n} (he : e.Good) (hn : e.negotiator = some n)
    (identity : SchemaIdentity) (outbound : EncodedOutboundFrame) :
    TakesAt Outgoing (bindSchema n identity outbound) e := by
  refine .bind (takesAt_quiet he (by simp [Endpoint.core, hn]) rfl) fun _ _ he₁ => ?_
  refine .ofExcept_bind he₁ fun announced _ => ?_
  refine .bind (queueControl_takesAt he₁ trivial) fun _ _ he₂ => ?_
  exact .bind (takesAt_quiet he₂ rfl rfl) fun _ _ he₃ => does_pure _ _ he₃

theorem bindSchema_ok {n identity bound}
    (h : (bindSchema n identity outbound e).1 = .ok bound) : SameOutbound outbound bound := by
  obtain ⟨_, -, h⟩ := bind_eq_ok h
  obtain ⟨_, -, h⟩ := bind_eq_ok h
  obtain ⟨_, -, h⟩ := bind_eq_ok h
  obtain ⟨_, -, h⟩ := bind_eq_ok h
  cases h
  exact ⟨⟨rfl, rfl⟩, rfl⟩

theorem prepareSchema_takes (outbound : EncodedOutboundFrame) :
    Takes Outgoing (prepareSchema outbound : Pipe ν (EncodedOutboundFrame × Bool)) := by
  refine does_get_bind fun e he => ?_
  split
  · exact does_pure _ _ he
  rename_i n hn
  split
  · exact does_fail _ _ he
  split
  · exact does_pure _ _ he
  · exact .bind (bindSchema_takesAt he hn _ _) fun _ _ he₁ => does_pure _ _ he₁

theorem prepareSchema_ok {prepared}
    (h : (prepareSchema outbound e).1 = .ok prepared) : SameOutbound outbound prepared.1 := by
  rw [prepareSchema, get_bind] at h
  cases hn : e.negotiator with
  | none =>
    simp only [hn] at h
    cases h
    exact ⟨⟨rfl, rfl⟩, rfl⟩
  | some n =>
    cases hid : outbound.schemaIdentity with
    | none =>
      simp only [hn, hid] at h
      cases h
    | some identity =>
      cases hb : e.localSchemaBindings.find? fun b => b.identity = identity with
      | some binding =>
        simp only [hn, hid, hb] at h
        cases h
        exact ⟨⟨rfl, rfl⟩, rfl⟩
      | none =>
        simp only [hn, hid, hb] at h
        obtain ⟨bound, hbound, h⟩ := bind_eq_ok h
        cases h
        exact bindSchema_ok hbound

omit [SchemaNegotiator ν] in
theorem setOutbound_takes (hs : outbound.frame.header.source = entry.source)
    (hn : outbound.frame.header.sequenceNum = entry.sequence) :
    Takes R (setOutbound entry outbound : Pipe ν Unit) :=
  modifyPendingReliable_takes _ _
    (fun _ => rfl) fun _ hsource hsequence _ => ⟨hs.trans hsource.symm, hn.trans hsequence.symm⟩

/-- A retained frame leaves under its own key, bound anew or not. -/
theorem reboundFrame_takesAt (he : e.Good)
    (hentry : entry ∈ e.retransmit.entries) : TakesAt Outgoing (reboundFrame entry) e ∧
      ∀ frame size, (reboundFrame entry e).1 = .ok (some (frame, size)) →
        frame.header.source = entry.source ∧ frame.header.sequenceNum = entry.sequence := by
  unfold reboundFrame
  rw [get_bind]
  cases hneg : e.negotiator with
  | none =>
    refine ⟨.get_bind ?_, ?_⟩
    · rw [hneg]
      exact does_pure _ _ he
    intro frame size h
    cases h
    exact he.sound.filed entry hentry
  | some n =>
    cases hfind : e.pendingReliable.find (entry.source, entry.sequence) with
    | none =>
      refine ⟨.get_bind ?_, fun _ _ h => by cases h⟩
      rw [hneg]
      rw [hfind]
      exact does_fail _ _ he
    | some pending =>
      obtain ⟨hmem, hkey⟩ := he.reliable.find_eq_some_iff.mp hfind
      rw [PendingReliable.key, Prod.mk.injEq] at hkey
      have hcoh := he.coherent pending hmem
      have hprep : ∀ prepared, (prepareSchema pending.outbound e).1 = .ok prepared →
          prepared.1.frame.header.source = entry.source ∧
            prepared.1.frame.header.sequenceNum = entry.sequence := by
        intro prepared h
        obtain ⟨⟨hs, hn⟩, -⟩ := prepareSchema_ok h
        exact ⟨hs.trans (hcoh.1.trans hkey.1), hn.trans (hcoh.2.trans hkey.2)⟩
      refine ⟨.get_bind ?_, ?_⟩
      · rw [hneg]
        rw [hfind]
        refine .bind (prepareSchema_takes _ e he) fun prepared h he₁ => ?_
        obtain ⟨hs, hn⟩ := hprep prepared h
        refine .bind (setOutbound_takes hs hn _ he₁) fun _ _ he₂ => ?_
        split
        · exact does_pure _ _ he₂
        refine .bind (setOutbound_takes (by simpa using hs) (by simpa using hn) _ he₂)
          fun _ _ he₃ => check_bind he₃ fun _ => ?_
        exact .ofExcept_bind he₃ fun _ _ => does_pure _ _ he₃
      · intro frame size h
        obtain ⟨prepared, hprepared, h⟩ := bind_eq_ok h
        obtain ⟨hs, hn⟩ := hprep prepared hprepared
        obtain ⟨_, -, h⟩ := bind_eq_ok h
        split at h
        · cases h
        obtain ⟨_, -, h⟩ := bind_eq_ok h
        obtain ⟨_, -, h⟩ := bind_eq_ok h
        obtain ⟨_, -, h⟩ := bind_eq_ok h
        cases h
        exact ⟨by simpa using hs, by simpa using hn⟩

omit [SchemaNegotiator ν] in
theorem resubmit_takesAt
    (he : e.Good) (h : e.core.Sendable frame) (existing : Option Attempt) (size : Nat) :
    TakesAt Outgoing (resubmit entry existing frame size) e := by
  cases existing with
  | some attempt =>
    refine .bind
      (trySendUntracked_takesAt he fun e' he' hc => ?_) fun _ _ he₁ => takesAt_quiet he₁ rfl rfl
    exact put_data he' (hc ▸ h)
  | none => exact .bind (trySendOwned_takesAt he h) fun _ _ he₁ => addAttempt_takes _ _ he₁

theorem resendEntry_takesAt (he : e.Good)
    (hentry : entry ∈ e.retransmit.entries) (budget : BridgePumpBudget) (existing : Option Attempt)
    (retransmission : Bool) :
    TakesAt Outgoing (resendEntry budget entry existing retransmission) e := by
  obtain ⟨htakes, hkey⟩ := reboundFrame_takesAt he hentry
  refine .bind htakes fun rebound hrebound he₁ => ?_
  cases rebound with
  | none => exact does_pure _ _ he₁
  | some body =>
    obtain ⟨frame, size⟩ := body
    have hsend : (reboundFrame entry e).2.core.Sendable frame := by
      refine .inl ⟨entry, ?_, hkey frame size hrebound⟩
      show entry ∈ (reboundFrame entry e).2.retransmit.entries
      rw [(outgoing_frame htakes.2).1]
      exact hentry
    refine .get_bind ?_
    split
    · exact does_pure _ _ he₁
    refine .attempt_bind (resubmit_takesAt he₁ hsend existing size) fun r _ he₂ => ?_
    cases r with
    | error status =>
      exact .bind (stopUnlessBlocked_takes _ _ he₂) fun _ _ he₃ => does_pure _ _ he₃
    | ok _ =>
      refine .bind (markTransmitted_takes _ _ _ he₂) fun _ _ he₃ => ?_
      refine .bind (countOutbound_takes _ _ he₃) fun _ _ he₄ => ?_
      refine .bind (does_onlyIf (fun _ he => takesAt_quiet he rfl rfl) _ he₄) fun _ _ he₅ => ?_
      exact does_pure _ _ he₅

theorem resendFrom_takesAt {entries} (he : e.Good)
    (hsub : entries ⊆ e.retransmit.entries) : TakesAt Outgoing (resendFrom budget entries) e := by
  induction entries generalizing e with
  | nil => exact takesAt_quiet he rfl rfl
  | cons entry rest ih =>
    have hrest : rest ⊆ e.retransmit.entries := fun x hx => hsub (List.mem_cons_of_mem _ hx)
    refine .get_bind ?_
    split
    · exact ih he hrest
    have hsent := resendEntry_takesAt he (hsub List.mem_cons_self) budget (attemptOf e entry)
      (wasTransmitted e entry)
    refine .bind hsent fun more _ he₁ => ?_
    cases more with
    | false => exact does_pure _ _ he₁
    | true => exact ih he₁ (by rw [(outgoing_frame hsent.2).1]; exact hrest)

theorem resendPending_takes : Takes Outgoing (resendPending budget : Pipe ν Unit) := by
  refine does_get_bind fun e he => ?_
  split
  · exact does_pure _ _ he
  · exact resendFrom_takesAt budget he (List.Subset.refl _)

theorem prepareData_takes (outbound : EncodedOutboundFrame) (budget : BridgePumpBudget) :
    Takes Outgoing (prepareData outbound budget : Pipe ν (EncodedOutboundFrame × Nat)) := by
  refine does_get_bind fun e he => ?_
  refine does_ite (does_fail _) (does_ite (does_fail _) (does_ite (does_fail _) ?_)) e he
  refine does_bind (prepareSchema_takes outbound) fun prepared => does_ite (does_fail _) ?_
  refine does_bind (check_takes _) fun _ => does_bind (does_ofExcept _) fun size => ?_
  exact does_ite (does_fail _) (does_ite (does_fail _) (does_pure _))

theorem prepareData_ok {budget prepared}
    (h : (prepareData outbound budget e).1 = .ok prepared) : SameOutbound outbound prepared.1 := by
  rw [prepareData, get_bind] at h
  split at h
  · cases h
  split at h
  · cases h
  split at h
  · cases h
  obtain ⟨bound, hbound, h⟩ := bind_eq_ok h
  obtain ⟨⟨hs, hn⟩, hr⟩ := prepareSchema_ok hbound
  split at h
  · cases h
  obtain ⟨_, -, h⟩ := bind_eq_ok h
  obtain ⟨size, -, h⟩ := bind_eq_ok h
  split at h
  · cases h
  split at h
  · cases h
  cases h
  exact ⟨⟨by simpa using hs, by simpa using hn⟩, by simpa using hr⟩

end

theorem removePendingReliable_takes (source : SourceIdentity) (sequence : Nat) :
    Takes R (removePendingReliable source sequence : Pipe ν Unit) := by
  refine does_get_bind fun e he => ?_
  split
  · exact removePendingReliableAt_takes _ _ he
  · exact does_pure _ _ he

theorem retain_takesAt (he : e.Good)
    (h : ∃ o, e.egress.head? = some o ∧ o.reliability = .reliableOrdered ∧
      SameKey frame o.frame) (size nowNs : Nat) : TakesAt Step (retain frame size nowNs) e := by
  refine .get_bind ?_
  split
  · rename_i hok
    exact takesAt_step he (.admission hok h) rfl
  · exact .bind (removePendingReliable_takes _ _ _ he) fun _ _ he₁ => does_fail _ _ he₁

theorem retain_ok (h : (retain frame size nowNs e).1 = .ok ()) :
    ∃ r ∈ (retain frame size nowNs e).2.retransmit.entries,
      frame.header.source = r.source ∧ frame.header.sequenceNum = r.sequence := by
  rw [retain, get_bind] at h ⊢
  split at h
  · rename_i hok
    rw [if_pos hok]
    rcases e.retransmit.add_cases frame.header.source frame.header.sequenceNum frame size nowNs with
      ⟨hbad, -⟩ | ⟨-, -, hadd⟩
    · rw [hok] at hbad
      cases hbad
    · refine ⟨⟨_, _, nowNs, frame, size⟩, ?_, rfl, rfl⟩
      show _ ∈ (e.retransmit.add _ _ frame size nowNs).2.entries
      rw [hadd]
      simp [RetransmitWindow.entries, SwapTable.push]
  · obtain ⟨_, -, h⟩ := bind_eq_ok h
    cases h

theorem addPendingReliable_egress (pending : PendingReliable) (e : Endpoint ν) :
    (addPendingReliable pending e).2.egress = e.egress := by
  rw [addPendingReliable, get_bind]
  split <;> rfl

theorem admitReliable_takesAt (he : e.Good)
    (h : ∃ o, e.egress.head? = some o ∧ o.reliability = .reliableOrdered ∧
      SameKey outbound.frame o.frame) (size nowNs : Nat) :
    TakesAt Step (admitReliable outbound size nowNs) e := by
  refine .get_bind ?_
  repeat' split
  all_goals first | exact does_fail _ _ he | skip
  refine .bind (addPendingReliable_takes ⟨rfl, rfl⟩ _ he) fun _ _ he₁ => ?_
  refine .bind (retain_takesAt he₁ (by rw [addPendingReliable_egress]; exact h) _ _)
    fun _ _ he₂ => .get_bind ?_
  exact does_ite (does_fail _) (does_pure _) _ he₂

theorem admitReliable_ok (h : (admitReliable outbound size nowNs e).1 = .ok ()) :
    (admitReliable outbound size nowNs e).2.core.Sendable outbound.frame := by
  rw [admitReliable, get_bind] at h ⊢
  split at h
  · cases h
  split at h
  · cases h
  split at h
  · cases h
  split at h
  · cases h
  rename_i h₁ h₂ h₃ h₄
  rw [if_neg h₁, if_neg h₂, if_neg h₃, if_neg h₄]
  obtain ⟨_, hadd, h⟩ := bind_eq_ok h
  obtain ⟨_, hretain, h⟩ := bind_eq_ok h
  rw [bind_state hadd, bind_state hretain, get_bind]
  obtain ⟨r, hr, hkey⟩ := retain_ok hretain
  split <;> exact .inl ⟨r, hr, hkey⟩

theorem submitReliable_takesAt (he : e.Good) (h : e.core.Sendable frame) (size : Nat) :
    TakesAt Outgoing (submitReliable frame size) e := by
  refine .attempt_bind (trySendOwned_takesAt he h) fun r _ he₁ => ?_
  cases r with
  | error status => exact .bind (takesAt_quiet he₁ rfl rfl) fun _ _ he₂ => does_fail _ _ he₂
  | ok operation =>
    refine .bind (markTransmitted_takes _ _ _ he₁) fun _ _ he₂ => ?_
    exact .bind (addAttempt_takes _ _ he₂) fun _ _ he₃ => countOutbound_takes _ _ he₃

section

variable [SchemaNegotiator ν]

theorem sendData_takesAt (he : e.Good) (h : e.egress.head? = some outbound)
    (budget : BridgePumpBudget) : TakesAt Step (sendData outbound budget) e := by
  have hprep := prepareData_takes outbound budget e he
  refine .attempt_bind (TakesAt.outgoing hprep) fun r hr he₁ => ?_
  cases r with
  | error status => exact does_pure _ _ he₁
  | ok prepared =>
    obtain ⟨hkey, hrel⟩ := prepareData_ok hr
    obtain ⟨bound, size⟩ := prepared
    have hhead : (prepareData outbound budget e).2.egress.head? = some outbound := by
      rw [(outgoing_frame hprep.2).2]
      exact h
    dsimp only at hrel hkey ⊢
    cases hreliability : bound.reliability with
    | reliableOrdered =>
      have hadmit := admitReliable_takesAt he₁
        ⟨outbound, hhead, hrel.symm.trans hreliability, hkey⟩ size budget.nowNs
      refine .attempt_bind hadmit fun r hr he₂ => ?_
      cases r with
      | error status => exact does_pure _ _ he₂
      | ok _ =>
        refine .attempt_bind
          (submitReliable_takesAt he₂ (admitReliable_ok hr) size).outgoing fun r _ he₃ => ?_
        cases r with
        | error status | ok _ => exact does_pure _ _ he₃
    | bestEffort =>
      have hsend : (prepareData outbound budget e).2.core.Sendable bound.frame :=
        .inr ⟨outbound, hhead, hrel.symm.trans hreliability, hkey⟩
      refine .attempt_bind (trySendUntracked_takesAt he₁ fun e' he' hc => ?_) fun r _ he₂ => ?_
      · exact (put_data he' (hc ▸ hsend)).outgoing
      cases r with
      | error status => exact does_ite (does_pure _) (does_pure _) _ he₂
      | ok _ => exact .bind (countOutbound_takes _ _ he₂) fun _ _ he₃ => does_pure _ _ he₃

omit [SchemaNegotiator ν] in
theorem tryPeekAndEncode_takes : Takes R (tryPeekAndEncode : Pipe ν EncodedOutboundFrame) := by
  refine does_get_bind fun e he => .bind (takesAt_quiet he rfl rfl) fun _ _ he₁ => ?_
  refine check_bind he₁ fun _ => ?_
  split
  · exact does_fail _ _ he₁
  · exact does_pure _ _ he₁

omit [SchemaNegotiator ν] in
theorem tryPeekAndEncode_ok (h : (tryPeekAndEncode e).1 = .ok outbound) :
    (tryPeekAndEncode e).2.egress.head? = some outbound := by
  rw [tryPeekAndEncode, get_bind, modify_bind] at h ⊢
  obtain ⟨_, hcheck, h⟩ := bind_eq_ok h
  rw [bind_state hcheck]
  unfold check at hcheck h ⊢
  split at hcheck
  · rename_i hok
    simp only [hok, if_true, pure_apply] at h ⊢
    cases hhead : e.egress.head? with
    | none =>
      rw [hhead] at h
      cases h
    | some o =>
      rw [hhead] at h
      cases h
      exact hhead
  · cases hcheck

theorem pullFrom_takes (fuel : Nat) : Takes Step (pullFrom budget fuel : Pipe ν Unit) := by
  induction fuel with
  | zero => exact does_pure _
  | succ fuel ih =>
    refine does_get_bind fun e he => ?_
    split
    · refine .attempt_bind (tryPeekAndEncode_takes e he) fun r hr he₁ => ?_
      cases r with
      | error status => exact stopUnlessBlocked_takes _ _ he₁
      | ok outbound =>
        refine .bind (sendData_takesAt he₁ (tryPeekAndEncode_ok hr) budget) fun sent _ he₂ => ?_
        refine .bind (does_onlyIf (fun _ he => takesAt_step he .polled rfl) _ he₂) fun _ _ he₃ => ?_
        exact does_ite ih (stopUnlessBlocked_takes _) _ he₃
    · exact does_pure _ _ he

theorem pullOutbound_takes : Takes Step (pullOutbound budget : Pipe ν Unit) := by
  refine does_get_bind fun e he => ?_
  split
  · exact does_pure _ _ he
  · exact pullFrom_takes budget _ _ he

end

end Mino.Bridge.Pipe
