import Mino.Bridge.ReceiveRefinement

/-! # Refinement of whole calls

One round of `pump`, a rebinding and the construction of a pipeline, each as a chain
of steps. -/

namespace Mino.Bridge.Pipe

open Proc Bridge.Core

variable {ν : Type} {R : Core → Core → Prop}

/-! ### A round -/

variable (nowNs : Nat) (budget : BridgePumpBudget) {windows : DedupWindow × RetransmitWindow}
  {c : Construction ν} {e : Endpoint ν}

theorem purgeRetransmit_takes : Takes Step (purgeRetransmit nowNs : Pipe ν Nat) :=
  does_get_bind fun _ he =>
    .bind (takesAt_step he (.expire nowNs) rfl) fun _ _ he₁ => does_pure _ _ he₁

theorem closeExpired_takes : Takes R (closeExpired : Pipe ν Unit) := by
  refine does_attempt_bind close_takes fun closed => ?_
  refine does_bind (fun _ he => takesAt_quiet he rfl rfl) fun _ => ?_
  cases closed with
  | error status => exact does_ite (does_fail _) (does_fail _)
  | ok _ => exact does_fail _

theorem onDedup_takes {op} (h : op.isLookup = true) :
    Takes Step (onDedup op : Pipe ν Unit) := fun e he =>
  takesAt_step he (show Step e.core (e.core.onDedup op) from .lookup h) rfl

theorem purge_takes : Takes Step (purge nowNs : Pipe ν Unit) := by
  refine does_bind (purgeRetransmit_takes nowNs) fun _ => ?_
  refine does_bind (does_onlyIf removeRetiredReliable_takes) fun _ => ?_
  exact does_bind (onDedup_takes rfl) fun _ => does_onlyIf closeExpired_takes

section

variable [SchemaNegotiator ν]

theorem sendPending_takes : Takes Step (sendPending budget : Pipe ν Unit) := by
  refine does_get_bind fun e he => does_onlyIf (does_bind ?_ fun _ => ?_) e he
  · exact fun e he => TakesAt.outgoing (resendPending_takes budget e he)
  · exact pullOutbound_takes budget

theorem pump_takes : Takes Step (pump budget : Pipe ν BridgePumpResult) := by
  refine does_ite (does_fail _) (does_bind (fun _ he => takesAt_quiet he rfl rfl) fun _ => ?_)
  refine does_bind admitControls_takes fun _ => does_bind (flushControls_takes budget) fun _ => ?_
  refine does_bind (flushPendingAcks_takes budget) fun _ => ?_
  refine does_bind (drainCompletions_takes budget) fun _ => ?_
  refine does_bind (drainInbound_takes budget) fun _ => ?_
  refine does_bind admitControls_takes fun _ => does_bind (flushControls_takes budget) fun _ => ?_
  refine does_bind (flushPendingAcks_takes budget) fun _ => ?_
  refine does_bind (sendPending_takes budget) fun _ => ?_
  refine does_bind (flushControls_takes budget) fun _ => ?_
  refine does_bind (flushPendingAcks_takes budget) fun _ => ?_
  exact does_bind (purge_takes budget.nowNs) fun _ => does_get_bind fun _ he => does_pure _ _ he

end

/-! ### Sessions -/

theorem seedDedupWindow_takesAt {store entries}
    (hsub : entries ⊆ store.load) (he : e.Good) (hs : e.store = some store) :
    TakesAt Step (seedDedupWindow nowNs entries) e := by
  induction entries generalizing e with
  | nil => exact does_pure _ _ he
  | cons entry rest ih =>
    refine .get_bind (.bind (takesAt_step he ?_ rfl) fun _ _ he₁ => check_bind he₁ fun _ => ?_)
    · exact .restore (c := e.core) e.options.remoteSessionEpoch nowNs hs (hsub List.mem_cons_self)
    · exact ih (fun x hx => hsub (List.mem_cons_of_mem _ hx)) he₁ hs

theorem recoverDedup_takes : Takes Step (recoverDedup nowNs : Pipe ν Unit) := by
  refine does_bind (does_get_bind fun e he => ?_) fun _ => fun _ he => takesAt_quiet he rfl rfl
  cases hs : e.store with
  | none => exact does_pure _ _ he
  | some store => exact seedDedupWindow_takesAt nowNs (List.Subset.refl _) he hs

theorem closeOld_takes (connectionId : ConnectionId) :
    Takes R (closeOld connectionId : Pipe ν Unit) := by
  refine does_get_bind fun e he => ?_
  refine does_ite (does_pure _) (does_attempt_bind close_takes fun closed => ?_) e he
  cases closed with
  | ok _ => exact does_pure _
  | error status => exact does_ite (does_fail _) (does_pure _)

theorem greet_takes : Takes Outgoing (greet : Pipe ν Unit) := by
  refine does_bind queueSessionHello_takes fun _ => does_get_bind fun e he => ?_
  exact does_ite queueSessionKeyShare_takes (does_pure _) e he

theorem rebindConnection_takes [SchemaNegotiator ν] (r : Rebinding) :
    Takes Step (rebindConnection r : Pipe ν Unit) := by
  refine does_get_bind fun e he => ?_
  refine does_ite (does_fail _) (does_bind (closeOld_takes _) fun _ => ?_) e he
  refine does_bind (fun _ he => takesAt_step he (.reset r.connectionId) rfl) fun _ => ?_
  refine does_bind (onDedup_takes rfl) fun _ => ?_
  refine does_bind (does_onlyIf (recoverDedup_takes _)) fun _ => does_bind (fun e he => ?_) fun _ => ?_
  · refine takesAt_step he ?_ rfl
    have hstep := Step.resession (c := e.core) (e.retransmit.beginSession r.localSessionEpoch
      r.remoteSessionEpoch r.nowNs) (RetransmitWindow.beginSession_table ..)
    simpa [Endpoint.core] using hstep
  · exact fun e he => TakesAt.outgoing (greet_takes e he)

theorem start_takes : Takes Step (start : Pipe ν Unit) := by
  refine does_get_bind fun e he => .bind (does_onlyIf (recoverDedup_takes _) e he) fun _ _ he₁ => ?_
  exact TakesAt.outgoing (greet_takes _ he₁)

/-! ### Construction -/

/-- Windows without entries, with the limits they were made for. -/
structure Unused (options : BridgePipelineOptions) (windows : DedupWindow × RetransmitWindow) :
    Prop where
  dedup : windows.1.Valid
  dedupEntries : windows.1.entries = []
  dedupOptions : windows.1.options = options.dedup
  distance : 0 < options.dedup.maxSequenceDistance
  retransmit : windows.2.Valid
  retransmitEntries : windows.2.entries = []

theorem openWindows_unused {options} (h : openWindows options = .ok windows) :
    Unused options windows := by
  unfold openWindows at h
  cases hd : DedupWindow.create options.dedup with
  | error status => simp [hd, bind, Except.bind] at h
  | ok dedup =>
    cases hr : RetransmitWindow.create options.retransmit with
    | error status => simp [hd, hr, bind, Except.bind] at h
    | ok retransmit =>
      simp only [hd, hr, bind, Except.bind, pure, Except.pure, Except.ok.injEq] at h
      subst h
      obtain ⟨hv, hopt, hempty⟩ := DedupWindow.create_valid hd
      obtain ⟨hvr, hemptyr⟩ := RetransmitWindow.create_valid hr
      refine ⟨hv.beginSession .., ?_, ?_, DedupWindow.create_distance hd, ?_, ?_⟩
      · rcases DedupWindow.beginSession_cases dedup options.remoteSessionEpoch 0 false with
          h | h | h <;> simp [h, hempty]
      · exact (DedupWindow.beginSession_options ..).trans hopt
      · rw [RetransmitWindow.Valid, RetransmitWindow.beginSession_table]
        exact hvr
      · rw [RetransmitWindow.entries, RetransmitWindow.beginSession_table]
        exact hemptyr

theorem newEndpoint_good
    (h : Unused c.options windows) (outside : Outside) : (newEndpoint c windows outside).Good := by
  have hempty : ∀ r, r ∉ (newEndpoint c windows outside).core.retransmit.entries := by
    intro r hr
    have hmem : r ∈ windows.2.entries := hr
    rw [h.retransmitEntries] at hmem
    cases hmem
  refine ⟨⟨h.dedup, h.retransmit, fun r hr => absurd hr (hempty r),
    fun r hr => absurd hr (hempty r)⟩, SwapTable.valid_empty, fun p hp => ?_⟩
  cases hp

/-- A new pipeline starts with unused windows. -/
theorem create_spec {outside}
    (h : create c outside = .ok e) : ∃ windows, Unused c.options windows ∧ e.Good ∧
      Relation.ReflTransGen (Micro Step) (newEndpoint c windows outside) e := by
  unfold create at h
  split at h
  · cases h
  split at h
  · cases h
  rename_i windows hopen
  have hunused := openWindows_unused hopen
  obtain ⟨hgood, hchain⟩ := start_takes _ (newEndpoint_good hunused outside)
  refine ⟨windows, hunused, ?_⟩
  split at h
  · rename_i e' hstart
    cases h
    rw [hstart] at hgood hchain
    exact ⟨hgood, hchain⟩
  · cases h

theorem newEndpoint_log (c : Construction ν) (windows : DedupWindow × RetransmitWindow)
    (outside : Outside) : (newEndpoint c windows outside).core.log =
      outside.log ++ [.created c.connectionId c.negotiator.isSome] := rfl

end Mino.Bridge.Pipe
