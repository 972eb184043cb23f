import Mino.Bridge.DedupAnswers
import Mino.Bridge.SendRefinement

/-! # Refinement of the receiving half

A frame is handled while it stands at the front of the inbound queue. The answer it
gets is what the dedup window said at that moment. -/

namespace Mino.Bridge.Pipe

open List Proc Bridge.Core

variable {ν : Type} {α : Type} {R : Core → Core → Prop}
  {e : Endpoint ν} {p : PendingInbound} {frame : DataFrame} {nowNs : Nat} {m : Message}

/-- A command that takes no step of any kind leaves the machine where it is. -/
theorem core_of_takesAt {m : Pipe ν α} (h : TakesAt (fun _ _ => False) m e) :
    (m e).2.core = e.core := by
  have hchain := h.2
  generalize (m e).2 = e' at hchain
  induction hchain with
  | refl => rfl
  | @tail e₁ e₂ _ hstep ih =>
    unfold Micro at hstep
    rw [← ih]
    generalize e₂.core = c₂ at hstep ⊢
    cases hstep with
    | refl => rfl
    | single hs => exact hs.elim

theorem check_state (status : Status) (e : Endpoint ν) : (check status e).2 = e := by
  unfold check
  split <;> rfl

/-! ### Handling the frame at the front -/

theorem Handle_frame {c c'} (h : Handle p c c') :
    c'.pendingInbound = c.pendingInbound ∧ c'.negotiating = c.negotiating := by
  have hpersist : ∀ (d : Core) (s : SourceIdentity) (n : Nat) (st : Status),
      (d.persist s n st).pendingInbound = d.pendingInbound ∧
        (d.persist s n st).negotiating = d.negotiating := by
    intro d s n st
    unfold persist
    split
    · exact ⟨rfl, rfl⟩
    · split <;> exact ⟨rfl, rfl⟩
  cases h with
  | commit | seed => exact hpersist _ _ _ _
  | _ => exact ⟨rfl, rfl⟩

theorem handle_frame {e'} (h : Relation.ReflTransGen (Micro (Handle p)) e e') :
    e'.core.pendingInbound = e.core.pendingInbound ∧ e'.core.negotiating = e.core.negotiating := by
  induction h with
  | refl => exact ⟨rfl, rfl⟩
  | @tail e₁ e₂ _ hstep ih =>
    unfold Micro at hstep
    generalize e₂.core = c₂ at hstep ⊢
    cases hstep with
    | refl => exact ih
    | single hs =>
      obtain ⟨hq, hn⟩ := Handle_frame hs
      exact ⟨hq.trans ih.1, hn.trans ih.2⟩

/-- Handling steps are steps while their frame is at the front. -/
theorem TakesAt.handle {m : Pipe ν α} (h : TakesAt (Handle p) m e)
    (hp : e.pendingInbound.head? = some p) : TakesAt Step m e := by
  refine ⟨h.1, ?_⟩
  have hchain := h.2
  generalize (m e).2 = e' at hchain
  induction hchain with
  | refl => exact .refl
  | @tail e₁ e₂ hprev hstep ih =>
    have hp₁ : e₁.core.pendingInbound.head? = some p := by
      rw [(handle_frame hprev).1]
      exact hp
    refine ih.tail ?_
    unfold Micro at hstep ⊢
    generalize e₂.core = c₂ at hstep ⊢
    cases hstep with
    | refl => exact .refl
    | single hs => exact .single (.handle hp₁ hs)

/-! ### The dedup window and the store -/

theorem onDedup_handle {op} (h : op.isLookup = true) :
    Takes (Handle p) (onDedup op : Pipe ν Unit) := fun e he =>
  takesAt_step he (show Handle p e.core (e.core.onDedup op) from .lookup h) rfl

variable (source : SourceIdentity) (sequence : Nat) (budget : BridgePumpBudget)

theorem dedupCheck_takes (nowNs : Nat) :
    Takes (Handle p) (dedupCheck source sequence nowNs : Pipe ν DedupCheckResult) :=
  does_get_bind fun e he => .bind (onDedup_handle rfl e he) fun _ _ he₁ => does_ofExcept _ _ he₁

/-- The state after a check, and its result as the window gave it. -/
theorem dedupCheck_eq (nowNs : Nat) (e : Endpoint ν) : (dedupCheck source sequence nowNs e).1 =
      (e.dedup.check e.options.remoteSessionEpoch source sequence nowNs).1 ∧
    (dedupCheck source sequence nowNs e).2 =
      (onDedup (.check e.options.remoteSessionEpoch source sequence nowNs) e).2 := by
  rw [dedupCheck, get_bind]
  have hstep : onDedup (.check e.options.remoteSessionEpoch source sequence nowNs) e =
      (.ok (), (onDedup (.check e.options.remoteSessionEpoch source sequence nowNs) e).2) := rfl
  rw [bind_ok hstep]
  cases (e.dedup.check e.options.remoteSessionEpoch source sequence nowNs).1 <;> exact ⟨rfl, rfl⟩

theorem dedupPrepare_takes (nowNs : Nat) :
    Takes (Handle p) (dedupPrepare source nowNs : Pipe ν Unit) :=
  does_get_bind fun e he => .bind (onDedup_handle rfl e he) fun _ _ he₁ => check_takes _ _ he₁

theorem persistDedupAccepted_core (highest : Nat) (e : Endpoint ν) :
    (persistDedupAccepted source (some highest) e).2.core =
        e.core.persist source highest (answer e.script.recordings) ∧
      (persistDedupAccepted source (some highest) e).2.pendingReliable = e.pendingReliable := by
  rw [persistDedupAccepted, get_bind, persist]
  cases hstore : e.store with
  | none =>
    have : e.core.store = none := hstore
    simp only [this]
    exact ⟨rfl, rfl⟩
  | some store =>
    have : e.core.store = some store := hstore
    simp only [this]
    split
    · exact ⟨rfl, rfl⟩
    · rw [recordAccepted, get_bind, modify_bind, check_state]
      exact ⟨rfl, rfl⟩

/-- An accepted frame that has been entered, read back and persisted. -/
structure Settled (m : Pipe ν DedupCheckResult) (e : Endpoint ν) (source : SourceIdentity)
    (sequence : Nat) : Prop where
  highest : ∀ r, (m e).1 = .ok r → r.highestContiguousSequence = some ((m e).2.dedup.mark source)
  covers : (m e).2.dedup.Covers source sequence

/-- A call that takes a step of the receiver, and has settled the frame if it succeeds. -/
def Enters (p : PendingInbound) (frame : DataFrame) (m : Pipe ν DedupCheckResult)
    (e : Endpoint ν) : Prop :=
  TakesAt (Handle p) m e ∧
    ∀ r, (m e).1 = .ok r → Settled m e frame.header.source frame.header.sequenceNum

/-- The lookup that a data frame begins and ends with. -/
abbrev lookup (e : Endpoint ν) (frame : DataFrame) (nowNs : Nat) : DedupWindow.Op :=
  .check e.options.remoteSessionEpoch frame.header.source frame.header.sequenceNum nowNs

theorem confirm_spec {state} (he : e.dedup.Valid)
    (hs : e.dedup.stale e.options.remoteSessionEpoch = false) (hn : frame.header.sequenceNum ≠ 0)
    (hfind : e.dedup.find frame.header.source = some state) (hrecent : state.lastActivityNs = nowNs)
    (hcov : state.Covers frame.header.sequenceNum) :
    (confirm frame nowNs e).2.pendingReliable = e.pendingReliable ∧ (confirm frame nowNs e).2.core =
        (e.core.onDedup (lookup e frame nowNs)).persist frame.header.source
            ((e.core.onDedup (lookup e frame nowNs)).dedup.mark frame.header.source)
            (answer e.script.recordings) ∧
      Settled (confirm frame nowNs) e frame.header.source frame.header.sequenceNum := by
  obtain ⟨⟨r, hr, hdecision⟩, hkept⟩ := he.check_recent hs hn hfind hrecent
  obtain ⟨-, hhighest, -⟩ := he.check_answer hr hdecision
  obtain ⟨hres, hstate⟩ := dedupCheck_eq frame.header.source frame.header.sequenceNum nowNs e
  have hpair : dedupCheck frame.header.source frame.header.sequenceNum nowNs e =
      (.ok r, (onDedup (lookup e frame nowNs) e).2) :=
    Prod.ext (hres.trans hr) hstate
  have hend : (confirm frame nowNs e).2 =
      (persistDedupAccepted frame.header.source r.highestContiguousSequence
        (onDedup (lookup e frame nowNs) e).2).2 := by
    rw [confirm, bind_ok hpair, bind_pure_state]
  rw [hhighest] at hend
  obtain ⟨hcore, hreliable⟩ := persistDedupAccepted_core frame.header.source
    ((e.dedup.check e.options.remoteSessionEpoch frame.header.source frame.header.sequenceNum
      nowNs).2.mark frame.header.source)
    (onDedup (lookup e frame nowNs) e).2
  have hdedup : (confirm frame nowNs e).2.dedup = (e.dedup.check e.options.remoteSessionEpoch
      frame.header.source frame.header.sequenceNum nowNs).2 := by
    have := congrArg dedup (hend ▸ hcore)
    rw [persist_dedup] at this
    exact this
  refine ⟨hend ▸ hreliable, hend ▸ hcore, ⟨fun r' hr' => ?_, ?_⟩⟩
  · rw [confirm, bind_ok hpair] at hr'
    obtain ⟨_, -, hr'⟩ := bind_eq_ok hr'
    cases hr'
    rw [hdedup]
    exact hhighest
  · rw [hdedup]
    exact (DedupWindow.covers_of_find hkept _).mpr hcov

theorem dedupCommit_eq (nowNs : Nat) (e : Endpoint ν) : dedupCommit source sequence nowNs e =
      check (e.dedup.commitAccepted e.options.remoteSessionEpoch source sequence nowNs).1
        (onDedup (.commitAccepted e.options.remoteSessionEpoch source sequence nowNs) e).2 := rfl

theorem dedupSeed_eq (nowNs : Nat) (e : Endpoint ν) : dedupSeed source sequence nowNs e =
      (check (e.dedup.seedAccepted e.options.remoteSessionEpoch source sequence nowNs).1 >>=
        fun _ => emit (.baseline source sequence))
        (onDedup (.seedAccepted e.options.remoteSessionEpoch source sequence nowNs) e).2 := rfl

variable {state : DedupCheckResult} {status : Status} {header : WireFrameHeader}
  {disposition : AckDisposition} {messages : List Message} {e₁ : Endpoint ν}

theorem check_of_ok (h : status.ok = true) (e : Endpoint ν) : check status e = (.ok (), e) := by
  simp [check, h]

theorem check_of_not_ok (h : status.ok = false) (e : Endpoint ν) :
    check status e = (.error status, e) := by
  simp [check, h]

theorem emit_nil (c : Core) : c.emit [] = c := by
  simp [Core.emit]

/-- The new mark is read back and persisted in the same step in which it was entered. -/
theorem remember_of_confirm {m state}
    (he : e.Good) (heq : m e = confirm frame nowNs e₁) (hr : e₁.pendingReliable = e.pendingReliable)
    (hv : e₁.dedup.Valid) (hs : e₁.dedup.stale e₁.options.remoteSessionEpoch = false)
    (hn : frame.header.sequenceNum ≠ 0) (hfind : e₁.dedup.find frame.header.source = some state)
    (hrecent : state.lastActivityNs = nowNs) (hcov : state.Covers frame.header.sequenceNum)
    (hstep : ∀ persisted, Handle p e.core
      ((e₁.core.onDedup (lookup e₁ frame nowNs)).persist frame.header.source
        ((e₁.core.onDedup (lookup e₁ frame nowNs)).dedup.mark frame.header.source) persisted)) :
    Enters p frame m e := by
  obtain ⟨hreliable, hcore, hsettled⟩ := confirm_spec hv hs hn hfind hrecent hcov
  refine ⟨takesAt_step he ?_ ?_, fun _ _ => ⟨fun r h => ?_, ?_⟩⟩ <;> rw [heq] at *
  · rw [hcore]
    exact hstep _
  · rw [hreliable, hr]
  · exact hsettled.highest r h
  · exact hsettled.covers

theorem remember_of_error {m} (he : e.Good)
    (heq : m e = (.error status, e₁)) (hstep : Handle p e.core e₁.core)
    (hr : e₁.pendingReliable = e.pendingReliable) : Enters p frame m e := by
  refine ⟨takesAt_step he ?_ ?_, fun r h => ?_⟩ <;> rw [heq] at *
  · exact hstep
  · exact hr
  · cases h

section

variable (he : e.Good) (hsrc : frame.header.source.valid = true)
  (hpub : .published frame.header.source frame.header.sequenceNum ∈ e.log)
include he hsrc hpub

theorem commit_spec : Enters p frame (remember frame false nowNs) e := by
  have heq : remember frame false nowNs e =
      (dedupCommit frame.header.source frame.header.sequenceNum nowNs >>=
        fun _ => confirm frame nowNs) e := rfl
  have hcommit := dedupCommit_eq frame.header.source frame.header.sequenceNum nowNs e
  cases hok : (e.dedup.commitAccepted e.options.remoteSessionEpoch frame.header.source
      frame.header.sequenceNum nowNs).1.ok with
  | false =>
    rw [bind_error (hcommit.trans (check_of_not_ok hok _))] at heq
    exact remember_of_error he heq (.refuseCommit hok) rfl
  | true =>
    rw [bind_ok (hcommit.trans (check_of_ok hok _))] at heq
    obtain ⟨hs, hn, state, hfind, hrecent, hcov⟩ := he.sound.dedup.commitAccepted_recent hok
    obtain ⟨hvalid, hframe⟩ := he.sound.dedup.commitAccepted e.options.remoteSessionEpoch
      frame.header.source frame.header.sequenceNum nowNs
    refine remember_of_confirm he heq rfl hvalid
      ((hframe.stale _).trans hs) hn hfind hrecent hcov fun persisted => ?_
    have := Handle.commit (p := p) (c := e.core) persisted hsrc hpub hok
    rw [settle, emit_nil] at this
    exact this

theorem seed_spec (hn : frame.header.sequenceNum ≠ 0) :
    Enters p frame (remember frame true nowNs) e := by
  have heq : remember frame true nowNs e =
      (dedupSeed frame.header.source frame.header.sequenceNum nowNs >>=
        fun _ => confirm frame nowNs) e := rfl
  have hseed := dedupSeed_eq frame.header.source frame.header.sequenceNum nowNs e
  cases hok : (e.dedup.seedAccepted e.options.remoteSessionEpoch frame.header.source
      frame.header.sequenceNum nowNs).1.ok with
  | false =>
    rw [bind_error (check_of_not_ok hok _)] at hseed
    rw [bind_error hseed] at heq
    exact remember_of_error he heq (.refuseSeed hok) rfl
  | true =>
    rw [bind_ok (check_of_ok hok _)] at hseed
    rw [bind_ok hseed] at heq
    obtain ⟨hs, state, hfind, hrecent, hcov⟩ := he.sound.dedup.seedAccepted_recent hok
    obtain ⟨hvalid, hframe⟩ := he.sound.dedup.seedAccepted e.options.remoteSessionEpoch
      frame.header.source frame.header.sequenceNum nowNs
    exact remember_of_confirm he heq rfl hvalid ((hframe.stale _).trans hs) hn hfind hrecent
      ((hcov _).mpr le_rfl) fun persisted => .seed persisted hsrc hpub hok

theorem remember_spec (hn : frame.header.sequenceNum ≠ 0) (degradedBaseline : Bool) :
    Enters p frame (remember frame degradedBaseline nowNs) e := by
  cases degradedBaseline with
  | false => exact commit_spec he hsrc hpub
  | true => exact seed_spec he hsrc hpub hn

end

/-! ### Data frames -/

theorem queueAck_core (ack : AckPayload) (e : Endpoint ν) :
    (queueAck ack e).2.core = e.core.answer e.options.maxControlFrames ack ∧
      (queueAck ack e).2.pendingReliable = e.pendingReliable := by
  rw [queueAck, get_bind, modify_bind, Core.answer]
  have hq : e.core.pendingAcks = e.pendingAcks := rfl
  rw [hq]
  cases hres : (e.pendingAcks.queueAck e.options.maxControlFrames ack).1 with
  | error status =>
    dsimp only
    rw [fail_apply]
    simp [Endpoint.core, answerEvents]
  | ok placement =>
    cases placement with
    | absorbed => exact ⟨rfl, rfl⟩
    | stored =>
      dsimp only
      rw [Pipe.emit, modify_bind, Pipe.emit, modify_apply]
      simp [Endpoint.core, answerEvents, Core.storedMark, Pipe.storedMark]

theorem queueAck_ok {ack} (h : (queueAck ack e).1 = .ok ()) :
    .answered ack ∈ (queueAck ack e).2.log := by
  rw [queueAck, get_bind, modify_bind] at h ⊢
  cases hres : (e.pendingAcks.queueAck e.options.maxControlFrames ack).1 with
  | error status =>
    rw [hres] at h
    cases h
  | ok placement => cases placement <;> simp [emit]

/-- The answer to a frame, written while the window is as the check left it. -/
theorem emitAck_takesAt (he : e.Good) (hn : header.sequenceNum ≠ 0)
    (hhigh : state.highestContiguousSequence = some (e.dedup.mark header.source))
    (haccepted : disposition = .accepted → e.dedup.Covers header.source header.sequenceNum)
    (hrefused : disposition = .nackWithHighest →
      e.dedup.mark header.source + e.dedup.options.maxSequenceDistance < header.sequenceNum ∨
        header.sequenceNum + e.dedup.options.maxSequenceDistance ≤ e.dedup.mark header.source) :
    TakesAt (Handle p) (emitAck header state disposition) e := by
  refine .get_bind ?_
  obtain ⟨hcore, hreliable⟩ := queueAck_core ⟨e.options.localSessionEpoch,
    e.options.remoteSessionEpoch, header.source, header.sequenceNum,
    state.highestContiguousSequence, disposition⟩ e
  refine takesAt_step he ?_ hreliable
  rw [hcore]
  exact .answer _ ⟨Nat.one_le_iff_ne_zero.mpr hn, hhigh, haccepted, hrefused⟩

/-- The log says that the frame was dealt with. -/
def IsAnswered (log : List Event) (header : WireFrameHeader) : Prop :=
  ∃ ack, .answered ack ∈ log ∧ ack.source = header.source ∧
    ack.observedSequence = header.sequenceNum

theorem emitAck_ok (h : (emitAck header state disposition e).1 = .ok ()) :
    IsAnswered (emitAck header state disposition e).2.log header :=
  ⟨_, queueAck_ok h, rfl, rfl⟩

theorem decodeValidatePublish_takesAt (he : e.Good)
      (h : e.core.negotiating = false → IsData p frame.header.source frame.header.sequenceNum) :
    TakesAt (Handle p) (decodeValidatePublish frame) e := by
  refine .get_bind (.bind (takesAt_quiet he rfl rfl) fun _ _ he₁ => ?_)
  exact check_bind he₁ fun _ => takesAt_step he₁ (.publish _ _ h) rfl

theorem decodeValidatePublish_ok (h : (decodeValidatePublish frame e).1 = .ok ()) :
    .published frame.header.source frame.header.sequenceNum ∈
      (decodeValidatePublish frame e).2.log := by
  rw [decodeValidatePublish, get_bind, modify_bind] at h ⊢
  obtain ⟨_, hcheck, -⟩ := bind_eq_ok h
  rw [bind_state hcheck]
  simp [emit]

theorem acceptData_takesAt (he : e.Good) (hsrc : frame.header.source.valid = true)
    (hn : frame.header.sequenceNum ≠ 0) (h : e.core.negotiating = false →
      IsData p frame.header.source frame.header.sequenceNum) (highest : Nat)
    (degradedBaseline : Bool) (nowNs : Nat) :
    TakesAt (Handle p) (acceptData frame highest degradedBaseline nowNs) e := by
  refine .get_bind ?_
  split
  · exact does_fail _ _ he
  have hprep := dedupPrepare_takes (p := p) frame.header.source nowNs e he
  refine .bind hprep fun _ _ he₁ => ?_
  rw [← (handle_frame hprep.2).2] at h
  refine .bind (decodeValidatePublish_takesAt he₁ h) fun _ hpub he₂ => ?_
  obtain ⟨hremember, hsettled⟩ := remember_spec he₂ hsrc
    (decodeValidatePublish_ok hpub) hn degradedBaseline
  refine .bind hremember fun r hr he₃ => ?_
  exact emitAck_takesAt he₃ hn ((hsettled r hr).highest r hr)
    (fun _ => (hsettled r hr).covers) nofun

theorem acceptData_ok {highest degradedBaseline}
    (h : (acceptData frame highest degradedBaseline nowNs e).1 = .ok ()) :
    IsAnswered (acceptData frame highest degradedBaseline nowNs e).2.log frame.header := by
  rw [acceptData, get_bind] at h ⊢
  split at h
  · cases h
  rename_i hfull
  rw [if_neg hfull]
  obtain ⟨_, hprep, h⟩ := bind_eq_ok h
  obtain ⟨_, hpub, h⟩ := bind_eq_ok h
  obtain ⟨committed, hremember, h⟩ := bind_eq_ok h
  rw [bind_state hprep, bind_state hpub, bind_state hremember]
  exact emitAck_ok h

theorem handleData_takesAt (he : e.Good)
    (h : e.core.negotiating = false → IsData p frame.header.source frame.header.sequenceNum)
    (nowNs : Nat) : TakesAt (Handle p) (handleData frame nowNs) e := by
  refine .get_bind ?_
  split
  · exact does_fail _ _ he
  rename_i hinvalid
  have hsrc : frame.header.source.valid = true := by simpa using hinvalid
  split
  · exact does_fail _ _ he
  have hcheck := dedupCheck_takes (p := p) frame.header.source frame.header.sequenceNum nowNs e he
  refine .bind hcheck fun checked hchecked he₁ => .get_bind ?_
  rw [← (handle_frame hcheck.2).2] at h
  obtain ⟨hres, hstate⟩ := dedupCheck_eq frame.header.source frame.header.sequenceNum nowNs e
  have hvalid : e.dedup.Valid := he.sound.dedup
  have hanswer := hvalid.check_answer (hres.symm.trans hchecked)
  have hdedup : (dedupCheck frame.header.source frame.header.sequenceNum nowNs e).2.dedup =
      (e.dedup.check e.options.remoteSessionEpoch frame.header.source frame.header.sequenceNum
        nowNs).2 := by
    rw [hstate]
    rfl
  rw [← hdedup] at hanswer
  cases hd : checked.decision with
  | staleSession => exact does_fail _ _ he₁
  | duplicateAccepted =>
    obtain ⟨hn, hhigh, hcov, -⟩ := hanswer (by simp [hd])
    exact emitAck_takesAt he₁ (by omega) hhigh (fun _ => hcov hd) nofun
  | accept =>
    obtain ⟨hn, -⟩ := hanswer (by simp [hd])
    exact acceptData_takesAt he₁ hsrc (by omega) h _ _ _
  | nackWithHighest =>
    obtain ⟨hn, hhigh, -, hfar⟩ := hanswer (by simp [hd])
    dsimp only
    split
    · exact acceptData_takesAt he₁ hsrc (by omega) h _ _ _
    · exact emitAck_takesAt he₁ (by omega) hhigh nofun fun _ => hfar hd

theorem handleData_ok (h : (handleData frame nowNs e).1 = .ok ()) :
    IsAnswered (handleData frame nowNs e).2.log frame.header := by
  rw [handleData, get_bind] at h ⊢
  split at h
  · cases h
  split at h
  · cases h
  rename_i h₁ h₂
  rw [if_neg h₁, if_neg h₂]
  obtain ⟨checked, hcheck, h⟩ := bind_eq_ok h
  rw [bind_state hcheck, get_bind]
  rw [get_bind] at h
  cases hd : checked.decision with
  | staleSession => simp [hd] at h
  | duplicateAccepted =>
    simp only [hd] at h ⊢
    exact emitAck_ok h
  | accept =>
    simp only [hd] at h ⊢
    exact acceptData_ok h
  | nackWithHighest =>
    simp only [hd] at h ⊢
    split at h
    · rename_i hbase
      rw [if_pos hbase]
      exact acceptData_ok h
    · rename_i hbase
      rw [if_neg hbase]
      exact emitAck_ok h

/-! ### The inbound queue -/

theorem stageReadyFrames_takesAt (he : e.Good) (h : e.core.negotiating = true)
    (frames : List DataFrame) : TakesAt (Handle p) (stageReadyFrames frames) e := by
  refine .get_bind ?_
  split
  · exact does_fail _ _ he
  split
  · exact does_fail _ _ he
  refine takesAt_step he (.stage h fun q hq => ?_) rfl
  obtain ⟨frame, -, rfl⟩ := mem_map.mp hq
  exact ⟨frame, rfl⟩

/-- A new state of an attached negotiator is not seen by the machine. -/
theorem setNegotiator_takesAt {n} (he : e.Good) (hn : e.negotiator = some n) (n' : ν) :
    TakesAt R (.modify fun e => { e with negotiator := some n' } : Pipe ν Unit) e := by
  refine takesAt_quiet he ?_ rfl
  simp [Endpoint.core, hn]

section

variable [SchemaNegotiator ν]

theorem handleDataFrame_takes (hp : p.frame = .data frame) (nowNs : Nat) :
    Takes (Handle p) (handleDataFrame frame nowNs : Pipe ν Unit) := by
  refine does_get_bind fun e he => ?_
  have hdata : TakesAt (Handle p) (handleData frame nowNs) e :=
    handleData_takesAt he (fun _ => ⟨frame, hp, rfl, rfl⟩) nowNs
  refine if h : (!frame.header.source.valid) = true then ?_ else ?_
  · rw [if_pos h]
    exact does_fail _ _ he
  rw [if_neg h]
  split
  · exact does_fail _ _ he
  cases hneg : e.negotiator with
  | none => exact hdata
  | some n =>
    dsimp only
    split
    · exact does_fail _ _ he
    split
    · exact hdata
    split
    · exact does_fail _ _ he
    have hset := setNegotiator_takesAt (R := Handle p) he hneg
      (SchemaNegotiator.handleDataFrame n frame nowNs).2
    refine .bind hset fun _ _ he₁ => .ofExcept_bind he₁ fun negotiated _ => ?_
    refine .bind (queueNegotiatedControls_takes _ _ he₁) fun _ _ he₂ => ?_
    split
    · exact does_pure _ _ he₂
    · refine handleData_takesAt he₂ (fun hoff => ?_) nowNs
      rw [core_of_takesAt (queueNegotiatedControls_takes _ _ he₁)] at hoff
      cases hoff
    · exact does_fail _ _ he₂

theorem handleDataFrame_ok (hneg : e.negotiator = none)
    (h : (handleDataFrame frame nowNs e).1 = .ok ()) :
    IsAnswered (handleDataFrame frame nowNs e).2.log frame.header := by
  rw [handleDataFrame, get_bind] at h ⊢
  split at h
  · cases h
  split at h
  · cases h
  rename_i h₁ h₂
  rw [if_neg h₁, if_neg h₂]
  simp only [hneg] at h ⊢
  exact handleData_ok h

theorem handleSchemaControl_takes (control : SchemaControl) (isAnnounce : Bool) (nowNs : Nat) :
    Takes (Handle p) (handleSchemaControl control isAnnounce nowNs : Pipe ν Unit) := by
  refine does_get_bind fun e he => ?_
  cases hneg : e.negotiator with
  | none => exact does_fail _ _ he
  | some n =>
    dsimp only
    split
    · exact does_fail _ _ he
    split
    · exact does_fail _ _ he
    refine .bind
      (setNegotiator_takesAt he hneg _) fun _ _ he₁ => .ofExcept_bind he₁ fun negotiated _ => ?_
    refine .bind (queueNegotiatedControls_takes _ _ he₁) fun _ _ he₂ => ?_
    refine stageReadyFrames_takesAt he₂ ?_ _
    rw [core_of_takesAt (queueNegotiatedControls_takes _ _ he₁)]
    rfl

theorem handleFrame_takes (p : PendingInbound) (nowNs : Nat) :
    Takes (Handle p) (handleFrame p.frame nowNs : Pipe ν Unit) := by
  have hready : ∀ (e : Endpoint ν) {m : Pipe ν Unit}, e.Good → TakesAt (Handle p) m e →
      TakesAt (Handle p)
        (if !e.sessionReady then .fail (corruption "bridge frame arrived before session handshake")
         else m) e := by
    intro e m he hm
    split
    · exact does_fail _ _ he
    · exact hm
  cases hp : p.frame with
  | data frame => exact does_get_bind fun e he => hready e he (handleDataFrame_takes hp nowNs e he)
  | control frame =>
    cases frame with
    | sessionHello payload => exact handleHello_takes hp
    | sessionKeyShare payload => exact handleKeyShare_takes payload
    | ack payload => exact does_get_bind fun e he => hready e he (handleAck_takes hp e he)
    | schemaAnnounce payload | schemaRequest payload =>
      exact does_get_bind fun e he => hready e he (handleSchemaControl_takes _ _ _ e he)
    | heartbeat => exact does_get_bind fun e he => hready e he (does_pure _ e he)
    | _ => exact does_get_bind fun e he => hready e he (does_fail _ e he)

theorem handleInbound_takes (p : PendingInbound) (nowNs : Nat) :
    Takes (Handle p) (handleInbound p nowNs : Pipe ν Unit) := by
  intro e he
  unfold handleInbound
  split
  · rename_i frame _ hp
    exact handleData_takesAt he (fun _ => ⟨frame, hp, rfl, rfl⟩) nowNs
  · exact handleFrame_takes p nowNs e he

theorem handleInbound_ok (hneg : e.negotiator = none) (h : (handleInbound p nowNs e).1 = .ok ()) :
    Answered (handleInbound p nowNs e).2.log p := by
  rintro source sequence ⟨frame, hp, rfl, rfl⟩
  cases hr : p.schemaResolved with
  | true =>
    have heq : handleInbound p nowNs e = handleData frame nowNs e := by
      rw [handleInbound, hr, hp]
    rw [heq] at h ⊢
    exact handleData_ok h
  | false =>
    have heq : handleInbound p nowNs e = handleFrame (.data frame) nowNs e := by
      rw [handleInbound, hr, hp]
    rw [heq, handleFrame, get_bind] at h ⊢
    split at h
    · cases h
    rename_i hready
    rw [if_neg hready]
    exact handleDataFrame_ok hneg h

theorem finishInbound_takesAt (he : e.Good) (hp : e.pendingInbound.head? = some p)
    (h : (handleInbound p nowNs e).1 = .ok ()) :
    TakesAt Step finishInbound (handleInbound p nowNs e).2 := by
  have hhandle := handleInbound_takes p nowNs e he
  obtain ⟨hqueue, hneg⟩ := handle_frame hhandle.2
  refine takesAt_step hhandle.1 (.finish ?_ fun hoff => handleInbound_ok ?_ h) rfl
  · rw [hqueue]
    exact hp
  · simpa [Endpoint.core] using hneg.symm.trans hoff

theorem processFrom_takes (nowNs fuel : Nat) :
    Takes Step (processFrom nowNs fuel : Pipe ν Unit) := by
  induction fuel with
  | zero => exact does_pure _
  | succ fuel ih =>
    refine does_get_bind fun e he => ?_
    cases hq : e.pendingInbound with
    | nil => exact does_pure _ _ he
    | cons inbound rest =>
      have hp : e.pendingInbound.head? = some inbound := by simp [hq]
      refine .bind (takesAt_step he .unstage rfl) fun _ _ he₁ => ?_
      refine .attempt_bind
        (TakesAt.handle (handleInbound_takes inbound nowNs _ he₁) hp) fun r hr he₂ => ?_
      cases r with
      | error status =>
        refine .bind (takesAt_step he₂ .unstage rfl) fun _ _ he₃ => ?_
        exact does_ite (does_pure _) (does_fail _) _ he₃
      | ok _ => exact .bind (finishInbound_takesAt he₁ hp hr) fun _ _ he₃ => ih _ he₃

theorem processPendingInbound_takes :
    Takes Step (processPendingInbound budget : Pipe ν Unit) := processFrom_takes _ _

end

/-! ### The connection -/

theorem authorizeHeader_takes (header : WireFrameHeader) :
    Takes R (authorizeHeader header : Pipe ν Unit) := by
  refine does_get_bind fun e he => ?_
  split
  · exact does_pure _ _ he
  · exact does_ite (does_fail _) (does_ite (does_fail _) authorizeTopic_takes) _ he
  · exact does_fail _ _ he

theorem authorizeInboundData_takes (frame : WireFrame) :
    Takes R (authorizeInboundData frame : Pipe ν Unit) := by
  cases frame with
  | data frame => exact authorizeHeader_takes _
  | control _ => exact does_pure _

section

variable (he : e.Good)
include he

theorem queuePendingInbound_takesAt (h : e.inbox.head? = some m) :
    TakesAt Step (queuePendingInbound m) e := by
  refine .get_bind ?_
  split
  · exact does_fail _ _ he
  · exact takesAt_step he (.receive (charge m) h) rfl

/-- The checks of a message before it is queued leave the machine where it is. -/
theorem inspected_core (frame : WireFrame) :
    (decodeView (authorizeInboundData frame (inspectHeader e).2).2).2.core = e.core := by
  have hinspect := inspectHeader_takes (R := fun _ _ => False) e he
  have hauthorize := authorizeInboundData_takes (R := fun _ _ => False) frame _ hinspect.1
  have hdecode := decodeView_takes (R := fun _ _ => False) _ hauthorize.1
  rw [core_of_takesAt hdecode, core_of_takesAt hauthorize, core_of_takesAt hinspect]

theorem acceptMessage_takesAt (h : e.inbox.head? = some m) : TakesAt Step (acceptMessage m) e := by
  refine .bind (inspectHeader_takes e he) fun _ _ he₁ => ?_
  refine .bind (authorizeInboundData_takes _ _ he₁) fun _ _ he₂ => ?_
  refine .bind (decodeView_takes _ he₂) fun _ _ he₃ => .get_bind (check_bind he₃ fun _ => ?_)
  refine .bind (queuePendingInbound_takesAt he₃ ?_) fun _ _ he₄ => takesAt_quiet he₄ rfl rfl
  have hinbox : _ = e.inbox := congrArg inbox (inspected_core he m.frame)
  exact (congrArg head? hinbox).trans h

theorem acceptMessage_ok (h : (acceptMessage m e).1 = .ok ()) :
    (acceptMessage m e).2.inbox = e.inbox.tail := by
  have hinbox : _ = e.inbox := congrArg inbox (inspected_core he m.frame)
  rw [acceptMessage] at h ⊢
  obtain ⟨_, hinspect, h⟩ := bind_eq_ok h
  obtain ⟨_, hauthorize, h⟩ := bind_eq_ok h
  obtain ⟨_, hdecode, h⟩ := bind_eq_ok h
  rw [bind_state hinspect, bind_state hauthorize, bind_state hdecode, get_bind]
  rw [get_bind] at h
  obtain ⟨_, hcheck, h⟩ := bind_eq_ok h
  rw [check_state] at h
  obtain ⟨_, hqueue, -⟩ := bind_eq_ok h
  rw [bind_state hcheck, check_state, bind_state hqueue]
  rw [queuePendingInbound, get_bind] at hqueue
  show (queuePendingInbound m _).2.inbox = _
  rw [queuePendingInbound, get_bind]
  split at hqueue
  · cases hqueue
  rename_i hroom
  rw [if_neg hroom]
  exact congrArg tail hinbox

theorem acceptMessages_takesAt (h : messages <+: e.inbox) :
    TakesAt Step (acceptMessages messages) e := by
  induction messages generalizing e with
  | nil => exact does_pure _ _ he
  | cons m rest ih =>
    obtain ⟨later, hlater⟩ := h
    refine .attempt_bind (acceptMessage_takesAt he (by simp [← hlater])) fun r hr he₁ => ?_
    cases r with
    | error status =>
      exact .bind (takesAt_step he₁ (.abandon _) rfl) fun _ _ he₂ => does_fail _ _ he₂
    | ok _ =>
      refine ih he₁ ⟨later, ?_⟩
      rw [acceptMessage_ok he hr, ← hlater]
      rfl

end

variable (maxMessages maxBytes : Nat)

theorem within_front (inbox : List Message) : within maxMessages maxBytes inbox <+: inbox := by
  induction inbox generalizing maxMessages maxBytes with
  | nil => simp [within]
  | cons m rest ih =>
    cases maxMessages with
    | zero => exact nil_prefix
    | succ maxMessages =>
      rw [within]
      split
      · exact prefix_cons_inj m |>.mpr (ih _ _)
      · exact nil_prefix

theorem poll_takes : Takes R (poll maxMessages maxBytes : Pipe ν (List Message)) := by
  refine does_get_bind fun e he => .bind (takesAt_quiet he rfl rfl) fun _ _ he₁ => ?_
  split
  · exact does_fail _ _ he₁
  · exact does_ite (does_fail _) (does_pure _) _ he₁

theorem poll_ok {maxMessages maxBytes} (h : (poll maxMessages maxBytes e).1 = .ok messages) :
    messages <+: (poll maxMessages maxBytes e).2.inbox := by
  rw [poll, get_bind, modify_bind] at h ⊢
  cases hpoll : e.script.polls.head?.getD (.ok maxMessages) with
  | error status =>
    rw [hpoll] at h
    cases h
  | ok count =>
    simp only [hpoll] at h ⊢
    split at h
    · cases h
    rename_i hne
    rw [if_neg hne]
    cases h
    exact within_front _ _ _

theorem drainInbound_takes [SchemaNegotiator ν] (budget : BridgePumpBudget) :
    Takes Step (drainInbound budget : Pipe ν Unit) := by
  refine does_bind (processPendingInbound_takes budget) fun _ => does_get_bind fun e he => ?_
  split
  · exact does_pure _ _ he
  refine .attempt_bind (poll_takes _ _ e he) fun r hr he₁ => ?_
  cases r with
  | error status => exact stopUnlessBlocked_takes _ _ he₁
  | ok messages =>
    refine .bind (acceptMessages_takesAt he₁ (poll_ok hr)) fun _ _ he₂ => ?_
    exact processPendingInbound_takes budget _ he₂

/-! ### Completions -/

theorem applyCompletion_takes (completion : DeliveryCompletion) :
    Takes R (applyCompletion completion : Pipe ν (Option Status)) := by
  refine does_get_bind fun e he => ?_
  split
  · exact does_pure _ _ he
  split
  · exact .bind (takesAt_quiet he rfl rfl) fun _ _ he₁ => does_pure _ _ he₁
  split
  · refine .bind (takesAt_quiet he rfl rfl) fun _ _ he₁ => ?_
    exact .bind (removeAttempt_takes _ _ he₁) fun _ _ he₂ => does_pure _ _ he₂
  · exact .bind (removeAttempt_takes _ _ he) fun _ _ he₂ => does_pure _ _ he₂

theorem applyCompletions_takes (completions : List DeliveryCompletion) (failure : Status) :
    Takes R (applyCompletions completions failure : Pipe ν Status) := by
  induction completions generalizing failure with
  | nil => exact does_pure _
  | cons completion rest ih => exact does_bind (applyCompletion_takes _) fun _ => ih _

theorem drainCompletionsOf_takes (connections : List ConnectionId) (remaining : Nat)
    (failure : Status) : Takes R (drainCompletionsOf connections remaining failure : Pipe ν Unit) := by
  induction connections generalizing remaining failure with
  | nil => exact check_takes _
  | cons _ rest ih =>
    refine does_ite (check_takes _) (does_attempt_bind pollCompletions_takes fun r => ?_)
    cases r with
    | error status => exact does_ite (ih _ _) (does_fail _)
    | ok completions =>
      refine does_bind (applyCompletions_takes _ _) fun _ => ?_
      exact does_bind (fun _ he => takesAt_quiet he rfl rfl) fun _ => ih _ _

theorem drainCompletions_takes : Takes R (drainCompletions budget : Pipe ν Unit) := by
  refine does_get_bind fun e he => ?_
  split
  · exact does_pure _ _ he
  · exact drainCompletionsOf_takes _ _ _ _ he

end Mino.Bridge.Pipe
