import Mino.Bridge.BridgeSystem

/-! # Safety of acknowledgements

Whatever tells the sender that a frame has arrived comes from the dedup window of the
receiver: ACKs, the marks of a hello, and the marks of the store that fill a new window.
The window knows a frame because the frame was published, or because a later frame was
taken as the new mark of its source after the old marks were lost. Only in the second
case can the sender drop a frame that was never published. -/

namespace Mino.Bridge

open List Bridge.Core WireFrame

def AckPayload.Vouched (log : List Event) (ack : AckPayload) : Prop :=
  ∀ source k, 1 ≤ k → ack.covers source k = true → Bridge.Vouched log source k

def WireFrame.Vouched (log : List Event) (frame : WireFrame) : Prop :=
  ∀ ack, frame.Carries ack → ack.Vouched log

variable {log log' events : List Event} {ack : AckPayload}

theorem AckPayload.Vouched.mono (hl : log ⊆ log') (h : ack.Vouched log) : ack.Vouched log' :=
  fun source k hk hc => (h source k hk hc).mono hl

theorem WireFrame.Vouched.mono (hl : log ⊆ log') {frame : WireFrame} (h : frame.Vouched log) :
    frame.Vouched log' :=
  fun ack hack => (h ack hack).mono hl

theorem WireFrame.vouched_data (log : List Event) (frame : DataFrame) :
    (data frame).Vouched log := nofun

namespace Core

/-- Everything a receiver knows or says of accepted frames is vouched for. -/
structure Accounted (c : Core) : Prop where
  dedup : ∀ source k, 1 ≤ k → c.dedup.Covers source k → Vouched c.log source k
  store : ∀ store, c.store = some store → ∀ source highest, (source, highest) ∈ store.entries →
    ∀ k, 1 ≤ k → k ≤ highest → Vouched c.log source k
  acks : ∀ p ∈ c.pendingAcks.acks, p.2.Vouched c.log
  controls : ∀ p ∈ c.controlQueue, (WireFrame.control p.1).Vouched c.log
  outbox : ∀ s ∈ c.outbox, s.message.frame.Vouched c.log

variable {c c' : Core} {p : PendingInbound}

section

variable (h : c.Accounted)
include h

/-- What is vouched for stays so. -/
theorem Accounted.grow (hl : c.log ⊆ log) : { c with log }.Accounted where
  dedup source k hk hcov := (h.dedup source k hk hcov).mono hl
  store store hst source highest hmem k hk hle :=
    (h.store store hst source highest hmem k hk hle).mono hl
  acks p hp := (h.acks p hp).mono hl
  controls p hp := (h.controls p hp).mono hl
  outbox s hs := (h.outbox s hs).mono hl

/-- Steps that learn nothing and say nothing new. -/
theorem Accounted.shrink (hl : c.log ⊆ c'.log)
    (hd : ∀ source k, 1 ≤ k → c'.dedup.Covers source k → c.dedup.Covers source k)
    (hs : c'.store = c.store) (ha : c'.pendingAcks.acks ⊆ c.pendingAcks.acks)
    (hc : c'.controlQueue ⊆ c.controlQueue) (ho : c'.outbox ⊆ c.outbox) : c'.Accounted where
  dedup source k hk hcov := (h.grow hl).dedup source k hk (hd source k hk hcov)
  store store hstore := (h.grow hl).store store (hs ▸ hstore)
  acks p hp := (h.grow hl).acks p (ha hp)
  controls p hp := (h.grow hl).controls p (hc hp)
  outbox s hs' := (h.grow hl).outbox s (ho hs')

/-- Steps that leave the receiver's memory and its messages alone. -/
theorem Accounted.still (hl : c.log ⊆ c'.log) (hd : c'.dedup = c.dedup)
    (hs : c'.store = c.store) (ha : c'.pendingAcks = c.pendingAcks)
    (hc : c'.controlQueue = c.controlQueue) (ho : c'.outbox = c.outbox) : c'.Accounted :=
  h.shrink hl (fun _ _ _ hcov => hd ▸ hcov) hs (ha ▸ Subset.refl _) (hc ▸ Subset.refl _)
    (ho ▸ Subset.refl _)

/-- A call on the window, with all it may enter vouched for. -/
theorem Accounted.onDedup (hs : c.Sound) (op : DedupWindow.Op)
    (hnew : ∀ source k, 1 ≤ k → op.Adds source k → (c.dedup.step op).Covers source k →
      Vouched c.log source k) : (c.onDedup op).Accounted := by
  have hl : c.log ⊆ (c.onDedup op).log := subset_append_left _ _
  have h' := h.grow hl
  refine ⟨fun source k hk hcov => ?_, h'.store, h'.acks, h'.controls, h'.outbox⟩
  rcases hs.dedup.step_covers hk hcov with hold | hadd
  · exact h'.dedup source k hk hold
  · exact (hnew source k hk hadd hcov).mono hl

theorem Accounted.emit (events : List Event) : (c.emit events).Accounted :=
  h.still (subset_append_left _ _) rfl rfl rfl rfl rfl

theorem Accounted.persist (source : SourceIdentity) (persisted : Status) :
    (c.persist source (c.dedup.mark source) persisted).Accounted := by
  unfold Core.persist
  split
  · exact h
  rename_i store hstore
  split
  · exact h
  have hl : c.log ⊆ c.log ++ [.recorded source (c.dedup.mark source)
      (store.recordAccepted persisted source (c.dedup.mark source)).1] :=
    subset_append_left _ _
  have h' := h.grow hl
  refine ⟨h'.dedup, ?_, h'.acks, h'.controls, h'.outbox⟩
  rintro _ ⟨⟩ s highest hmem k hk hle
  rcases DedupStore.mem_recordAccepted hmem with hold | hnew
  · exact h'.store store hstore s highest hold k hk hle
  · cases hnew
    exact h'.dedup source k hk (DedupWindow.covers_of_le_mark hk hle)

theorem Accounted.settle (hs : c.Sound) {op events} (epoch : Nat)
    (source : SourceIdentity) (n nowNs : Nat) (persisted : Status)
    (hnew : ∀ s k, 1 ≤ k → op.Adds s k → Vouched (c.log ++ events) s k) :
    (c.settle op events epoch source n nowNs persisted).Accounted := by
  -- the events come last in the log, so they are added before the call here
  have h₁ : ((c.emit events).onDedup op).Accounted :=
    (h.emit events).onDedup (hs.congr hs.dedup rfl) op fun s k hk hadd _ => hnew s k hk hadd
  have hlog : ((c.emit events).onDedup op).log ⊆ ((c.onDedup op).emit events).log := by
    intro event hevent
    simp only [Core.emit, Core.onDedup, mem_append] at hevent ⊢
    tauto
  have h₂ : ((c.onDedup op).emit events).Accounted := h₁.still hlog rfl rfl rfl rfl rfl
  have hs₂ : ((c.onDedup op).emit events).Sound := (hs.onDedup op).congr (hs.onDedup op).dedup rfl
  exact (h₂.onDedup hs₂ (.check epoch source n nowNs) fun _ _ _ hadd => hadd.elim).persist source
    persisted

end

theorem Answers.vouched (hans : c.Answers ack) (h : c.Accounted) : ack.Vouched c.log := by
  intro source k hk hcov
  rw [AckPayload.covers, AckPayload.highest, hans.highest] at hcov
  simp only [Bool.and_eq_true, Bool.or_eq_true, beq_iff_eq, decide_eq_true_eq, Option.getD_some,
    Option.isSome_some, true_and] at hcov
  obtain ⟨rfl, hle | ⟨⟨hacc, -⟩, rfl⟩⟩ := hcov
  · exact h.dedup _ k hk (DedupWindow.covers_of_le_mark hk hle)
  · exact h.dedup _ _ hk (hans.accepted hacc)

theorem Accounted.answer (h : c.Accounted) {ack} (limit : Nat)
    (hans : c.Answers ack) : (c.answer limit ack).Accounted := by
  have hl : c.log ⊆ (c.answer limit ack).log := subset_append_left _ _
  have h' := h.grow hl
  refine ⟨h'.dedup, h'.store, fun p hp => ?_, h'.controls, h'.outbox⟩
  rcases AckQueue.mem_queueAck hp with hold | hnew
  · exact h'.acks p hold
  · rw [hnew]
    exact (hans.vouched h).mono hl

theorem Handle.accounted (hstep : Handle p c c') (hs : c.Sound)
    (h : c.Accounted) : c'.Accounted := by
  cases hstep with
  | @lookup op hop =>
    refine h.onDedup hs op fun s k hk hadd => ?_
    cases op with
    | commitAccepted | seedAccepted => cases hop
    | _ => exact hadd.elim
  | publish source sequence => exact h.emit _
  | commit persisted hv hpub hok =>
    refine h.settle hs _ _ _ _ persisted ?_
    rintro s k - ⟨rfl, rfl⟩
    exact .inl (mem_append_left _ hpub)
  | seed persisted hv hpub hok =>
    refine h.settle hs _ _ _ _ persisted ?_
    rintro s k - ⟨rfl, hle⟩
    exact .inr ⟨_, hle, by simp⟩
  | refuseCommit hbad =>
    exact h.onDedup hs _ fun s k hk _ hcov =>
      h.dedup s k hk ((hs.dedup.commitAccepted_error hbad).covers hcov)
  | refuseSeed hbad =>
    refine h.onDedup hs _ fun s k hk _ hcov => h.dedup s k hk ?_
    rwa [DedupWindow.step, hs.dedup.seedAccepted_refused hbad] at hcov
  | answer limit hans => exact h.answer limit hans
  | applyAck => exact h.still (subset_append_left _ _) rfl rfl rfl rfl rfl
  | stage => exact h.still (Subset.refl _) rfl rfl rfl rfl rfl

theorem Announces.vouched {frame} (ha : c.Announces frame) (hs : c.Sound)
    (h : c.Accounted) : (control frame).Vouched c.log := by
  intro ack hcarries source k hk hcov
  cases frame with
  | sessionHello payload =>
    cases payload with
    | error _ => cases hcarries
    | ok hello =>
      obtain ⟨-, hobs, s, hmem, hsrc, hhigh⟩ := hcarries
      rw [AckPayload.covers, AckPayload.highest, hhigh, hobs] at hcov
      simp only [Bool.and_eq_true, Bool.or_eq_true, beq_iff_eq, decide_eq_true_eq,
        Option.getD_some, Option.isSome_some, true_and, Nat.not_lt_zero, and_false, false_and,
        or_false, decide_false, Bool.false_eq_true] at hcov
      obtain ⟨rfl, hle⟩ := hcov
      rw [hsrc]
      exact h.dedup _ k hk (hs.dedup.snapshotAccepted_covers (ha s hmem) hle)
  | ack _ => exact ha.elim
  | _ => cases hcarries

theorem Step.accounted (hstep : Step c c') (hs : c.Sound) (h : c.Accounted) : c'.Accounted := by
  have hquiet : c.log ⊆ c.log := Subset.refl _
  cases hstep with
  | handle _ hstep => exact hstep.accounted hs h
  | outgoing hstep =>
    cases hstep with
    | @transmit frame size hsend =>
      have h₁ := h.emit [.transmitted c.connectionId frame.header.source frame.header.sequenceNum]
      refine ⟨h₁.dedup, h₁.store, h₁.acks, h₁.controls, fun s hs => ?_⟩
      rcases mem_append.mp hs with hs | hs
      · exact h₁.outbox s hs
      · rw [mem_singleton.mp hs]
        exact vouched_data _ _
    | queue size ha =>
      refine ⟨h.dedup, h.store, h.acks, fun p hp => ?_, h.outbox⟩
      rcases mem_append.mp hp with hp | hp
      · exact h.controls p hp
      · rw [mem_singleton.mp hp]
        exact ha.vouched hs h
  | sendControl size hsrc =>
    refine ⟨h.dedup, h.store, h.acks, h.controls, fun s hs => ?_⟩
    rcases mem_append.mp hs with hs | hs
    · exact h.outbox s hs
    rw [mem_singleton.mp hs]
    rcases hsrc with ⟨n, hmem⟩ | ⟨node, ack, hmem, rfl⟩
    · exact h.controls _ hmem
    · rintro ack' ⟨⟩
      exact h.acks _ hmem
  | unqueue =>
    exact h.shrink hquiet (fun _ _ _ h => h) rfl (Subset.refl _) (dropLast_subset _)
      (Subset.refl _)
  | dropControl =>
    exact h.shrink hquiet (fun _ _ _ h => h) rfl (Subset.refl _) (tail_sublist _).subset
      (Subset.refl _)
  | dropAck node =>
    exact h.shrink hquiet (fun _ _ _ h => h) rfl (fun _ hp => AckQueue.mem_removePendingAck hp)
      (Subset.refl _) (Subset.refl _)
  | reset =>
    exact h.shrink (subset_append_left _ _) (fun _ _ _ h => h) rfl (nil_subset _)
      (nil_subset _) (Subset.refl _)
  | @lookup op hop =>
    refine h.onDedup hs op fun s k hk hadd => ?_
    cases op with
    | commitAccepted | seedAccepted => cases hop
    | _ => exact hadd.elim
  | restore epoch nowNs hstore he =>
    refine h.onDedup hs _ ?_
    rintro s k hk ⟨rfl, hle⟩ -
    exact h.store _ hstore _ _ (DedupStore.mem_load.mp he) k hk hle
  | abandon | admission | expire => exact h.still (subset_append_left _ _) rfl rfl rfl rfl rfl
  | _ => exact h.still hquiet rfl rfl rfl rfl rfl

theorem Turn.accounted (hturn : Turn c c') (hs : c.Sound) (h : c.Accounted) : c'.Accounted := by
  cases hturn with
  | step hstep => exact hstep.accounted hs h
  | produce frames => exact h.still (subset_append_left _ _) rfl rfl rfl rfl rfl
  | @boot options windows hunused =>
    refine h.shrink (subset_append_left _ _) (fun s k _ hcov => ?_) rfl (nil_subset _)
      (nil_subset _) (Subset.refl _)
    obtain ⟨state, hfind, -⟩ := hcov
    have hmem := (hunused.dedup.find_eq_some_iff.mp hfind).1
    rw [hunused.dedupEntries] at hmem
    cases hmem

/-- What a sender has heard of the peer, and what it has done about it. -/
structure Informed (peer : List Event) (c : Core) : Prop where
  inbox : ∀ m ∈ c.inbox, m.frame.Vouched peer
  pending : ∀ p ∈ c.pendingInbound, p.frame.Vouched peer
  staged : ∀ p ∈ c.stagedReady, p.frame.Vouched peer
  retained : ∀ r ∈ c.retransmit.entries, .admitted r.source r.sequence ∈ c.log
  retired : ∀ source k, .retired source k ∈ c.log →
    .admitted source k ∈ c.log ∧ Vouched peer source k

variable {peer : List Event}

section

variable (h : c.Informed peer)
include h

theorem Informed.mono {peer' : List Event} (hl : peer ⊆ peer') : c.Informed peer' where
  inbox m hm := (h.inbox m hm).mono hl
  pending p hp := (h.pending p hp).mono hl
  staged p hp := (h.staged p hp).mono hl
  retained := h.retained
  retired source k hr := ⟨(h.retired source k hr).1, (h.retired source k hr).2.mono hl⟩

section

variable (hl : c'.log = c.log ++ events)
  (he : ∀ event ∈ events, ∀ source k, event ≠ .retired source k)
include hl he

/-- Steps that hear nothing and retire nothing. -/
theorem Informed.shrink (hi : c'.inbox ⊆ c.inbox)
    (hp : c'.pendingInbound ⊆ c.pendingInbound ++ c.stagedReady)
    (hst : c'.stagedReady ⊆ c.stagedReady) (hr : c'.retransmit.entries ⊆ c.retransmit.entries) :
    c'.Informed peer where
  inbox m hm := h.inbox m (hi hm)
  pending p hp' := (mem_append.mp (hp hp')).elim (h.pending p) (h.staged p)
  staged p hp' := h.staged p (hst hp')
  retained r hr' := by
    rw [hl]
    exact mem_append_left _ (h.retained r (hr hr'))
  retired source k hret := by
    rw [hl] at hret ⊢
    rcases mem_append.mp hret with hret | hret
    · exact ⟨mem_append_left _ (h.retired source k hret).1, (h.retired source k hret).2⟩
    · exact absurd rfl (he _ hret source k)

/-- Steps of the receiving half that leave queues and frames alone. -/
theorem Informed.still (hi : c'.inbox = c.inbox) (hp : c'.pendingInbound = c.pendingInbound)
    (hst : c'.stagedReady = c.stagedReady) (hr : c'.retransmit = c.retransmit) : c'.Informed peer :=
  h.shrink hl he (hi ▸ Subset.refl _) (hp ▸ subset_append_left _ _)
    (hst ▸ Subset.refl _) (hr ▸ Subset.refl _)

end

theorem Informed.onDedup (op : DedupWindow.Op) : (c.onDedup op).Informed peer :=
  h.still rfl (by simp) rfl rfl rfl rfl

theorem Informed.emit (he : ∀ event ∈ events, ∀ source k, event ≠ .retired source k) :
    (c.emit events).Informed peer :=
  h.still rfl he rfl rfl rfl rfl

theorem Informed.persist (source : SourceIdentity) (highest : Nat)
    (persisted : Status) : (c.persist source highest persisted).Informed peer := by
  rcases c.persist_cases source highest persisted with heq | ⟨_, _, heq⟩ <;> rw [heq]
  · exact h
  · exact h.still rfl (by simp) rfl rfl rfl rfl

end

/-- Only frames the ACK covers are dropped. -/
theorem covers_of_dropped (hs : c.Sound) {r}
    (hr : r ∈ Pipe.dropped c.retransmit (c.retransmit.applyAck ack).2) :
    r ∈ c.retransmit.entries ∧ ack.covers r.source r.sequence = true := by
  obtain ⟨hmem, hgone⟩ := mem_filter.mp hr
  have hv := (hs.retransmit.applyAck ack).1
  have hnot : r ∉ (c.retransmit.applyAck ack).2.entries := fun hin =>
    hv.find_eq_none_iff.mp (by simpa using hgone) r hin rfl
  refine ⟨hmem, ?_⟩
  by_contra hcov
  exact hnot (hs.retransmit.mem_applyAck.mpr ⟨hmem, fun _ => by simpa using hcov⟩)

theorem Informed.applyAck (h : c.Informed peer) (hs : c.Sound) {ack}
    (hack : ack.Vouched peer) : (c.applyAck ack).Informed peer := by
  have hsub : (c.applyAck ack).retransmit.entries ⊆ c.retransmit.entries :=
    (hs.retransmit.applyAck ack).2
  refine ⟨h.inbox, h.pending, h.staged, fun r hr => ?_, fun source k hret => ?_⟩
  · exact mem_append_left _ (h.retained r (hsub hr))
  rcases mem_append.mp hret with hret | hret
  · exact ⟨mem_append_left _ (h.retired source k hret).1, (h.retired source k hret).2⟩
  obtain ⟨r, hr, heq⟩ := mem_map.mp hret
  cases heq
  obtain ⟨hmem, hcov⟩ := covers_of_dropped hs hr
  exact ⟨mem_append_left _ (h.retained r hmem),
    hack _ _ (Nat.one_le_iff_ne_zero.mpr (hs.numbered r hmem)) hcov⟩

theorem Handle.informed (hstep : Handle p c c') (hs : c.Sound)
    (hp : p.frame.Vouched peer) (h : c.Informed peer) : c'.Informed peer := by
  cases hstep with
  | lookup | refuseCommit | refuseSeed => exact h.onDedup _
  | publish source sequence => exact h.emit (by simp)
  | commit | seed => exact (((h.onDedup _).emit (by simp)).onDedup _).persist _ _ _
  | @answer ack limit =>
    refine h.still rfl (fun event hevent source k => ?_) rfl rfl rfl rfl
    rintro rfl
    cases hres : (c.pendingAcks.queueAck limit ack).1 with
    | error _ => simp [hres, answerEvents] at hevent
    | ok placement => cases placement <;> simp [hres, answerEvents] at hevent
  | applyAck hack => exact h.applyAck hs (hp _ hack)
  | stage _ hdata =>
    refine ⟨h.inbox, h.pending, fun q hq => ?_, h.retained, h.retired⟩
    rcases mem_append.mp hq with hq | hq
    · exact h.staged q hq
    obtain ⟨frame, hframe⟩ := hdata q hq
    rw [hframe]
    exact vouched_data _ _

theorem Step.informed (hstep : Step c c') (hs : c.Sound) (h : c.Informed peer) :
    c'.Informed peer := by
  have hnil : c.log = c.log ++ [] := (append_nil _).symm
  cases hstep with
  | handle hp hstep => exact hstep.informed hs (h.pending _ (mem_of_mem_head? hp)) h
  | outgoing hstep =>
    cases hstep with
    | transmit => exact h.still rfl (by simp) rfl rfl rfl rfl
    | queue => exact h.still hnil (by simp) rfl rfl rfl rfl
  | finish hp =>
    refine h.shrink hnil (by simp) (Subset.refl _) (fun q hq => ?_) (nil_subset _)
      (Subset.refl _)
    rcases mem_append.mp hq with hq | hq
    · exact mem_append_right _ hq
    · exact mem_append_left _ (mem_of_mem_tail hq)
  | unstage =>
    exact h.shrink hnil (by simp) (Subset.refl _) (subset_append_left _ _)
      (nil_subset _) (Subset.refl _)
  | receive charge hm =>
    refine ⟨fun m hm' => h.inbox m (mem_of_mem_tail hm'), fun p hp => ?_, h.staged,
      h.retained, h.retired⟩
    rcases mem_append.mp hp with hp | hp
    · exact h.pending p hp
    · rw [mem_singleton.mp hp]
      exact h.inbox _ (mem_of_mem_head? hm)
  | abandon count =>
    refine h.shrink rfl (fun event hevent source k => ?_) (drop_subset _ _)
      (subset_append_left _ _) (Subset.refl _) (Subset.refl _)
    rw [eq_of_mem_replicate hevent]
    exact nofun
  | @admission frame size nowNs hok =>
    refine ⟨h.inbox, h.pending, h.staged, fun r hr => ?_, fun source k hret => ?_⟩
    · rcases RetransmitWindow.mem_add hr with hold | ⟨rfl, -⟩
      · exact mem_append_left _ (h.retained r hold)
      · simp
    · rcases mem_append.mp hret with hret | hret
      · exact ⟨mem_append_left _ (h.retired source k hret).1, (h.retired source k hret).2⟩
      · simp at hret
  | expire nowNs =>
    obtain ⟨-, hsub⟩ := hs.retransmit.purgeExpired nowNs
    exact h.shrink rfl (by simp) (Subset.refl _) (subset_append_left _ _)
      (Subset.refl _) hsub
  | lookup | restore => exact h.onDedup _
  | reset connectionId =>
    refine h.shrink rfl (by simp) ?_ (nil_subset _) (nil_subset _) (Subset.refl _)
    dsimp only
    split
    · exact Subset.refl _
    · exact nil_subset _
  | resession r hr =>
    refine h.shrink hnil (by simp) (Subset.refl _) (subset_append_left _ _)
      (Subset.refl _) ?_
    rw [RetransmitWindow.entries, hr]
    exact Subset.refl _
  | _ => exact h.still hnil (by simp) rfl rfl rfl rfl

theorem Turn.informed (hturn : Turn c c') (hs : c.Sound) (h : c.Informed peer) :
    c'.Informed peer := by
  cases hturn with
  | step hstep => exact hstep.informed hs h
  | produce frames =>
    refine h.still rfl (fun event hevent source k => ?_) rfl rfl rfl rfl
    obtain ⟨o, -, rfl⟩ := mem_map.mp hevent
    exact nofun
  | @boot options windows hunused =>
    refine h.shrink rfl (by simp) (nil_subset _) (nil_subset _) (nil_subset _) ?_
    rw [hunused.retransmitEntries]
    exact nil_subset _

end Core

namespace BridgeSystem

variable {ν : Type} [SchemaNegotiator ν] {w : BridgeSystem ν} {e : Endpoint ν}

omit [SchemaNegotiator ν] in
theorem accounted_drained (h : e.core.Accounted) : e.drained.core.Accounted :=
  ⟨h.dedup, h.store, h.acks, h.controls, fun _ hs => absurd hs not_mem_nil⟩

omit [SchemaNegotiator ν] in
theorem informed_drained {peer : List Event} (h : e.core.Informed peer) :
    e.drained.core.Informed peer :=
  ⟨h.inbox, h.pending, h.staged, h.retained, h.retired⟩

/-- All that side `a` has heard or is going to hear is vouched for by side `b`. -/
structure Safe (w : BridgeSystem ν) : Prop where
  receiver : w.b.core.Accounted
  sender : w.a.core.Informed w.b.log
  wires : ∀ c, ∀ m ∈ (w.toA c).messages, m.frame.Vouched w.b.log

theorem Safe.step (hw : w.Good) (h : w.Safe) (move : Move ν) : (w.step move).Safe := by
  rcases move with ⟨_ | _, deed⟩ | ⟨_ | _, count⟩ | ⟨_ | _, connection, count⟩
  · obtain ⟨-, hchain⟩ := Endpoint.carryOut_spec hw.a deed
    obtain ⟨-, hsender⟩ := chain_invariant
      (fun hs hturn => hturn.informed hs) hchain hw.a.sound h.sender
    exact ⟨h.receiver, informed_drained hsender, h.wires⟩
  · obtain ⟨-, hchain⟩ := Endpoint.carryOut_spec hw.b deed
    obtain ⟨-, hb⟩ := chain_invariant
      (fun hs hturn => hturn.accounted hs) hchain hw.b.sound h.receiver
    have hl : w.b.log ⊆ (w.b.carryOut deed).log := (turns_log_grows hchain).subset
    refine ⟨accounted_drained hb, h.sender.mono hl, fun c m hm => ?_⟩
    rcases mem_ship hm with hold | ⟨s, hs, -, rfl⟩
    · exact (h.wires c m hold).mono hl
    · exact hb.outbox s hs
  · refine ⟨h.receiver, ⟨fun m hm => ?_, h.sender.pending, h.sender.staged, h.sender.retained,
      h.sender.retired⟩, fun c m hm => h.wires c m (mem_update (fun _ => mem_of_mem_drop) hm)⟩
    rcases mem_append.mp hm with hm | hm
    · exact h.sender.inbox m hm
    · exact h.wires _ m (mem_of_mem_take hm)
  · exact ⟨⟨h.receiver.dedup, h.receiver.store, h.receiver.acks, h.receiver.controls,
      h.receiver.outbox⟩, h.sender, h.wires⟩
  · exact ⟨h.receiver, h.sender,
      fun c m hm => h.wires c m (mem_update (fun _ => mem_of_mem_take) hm)⟩
  · exact ⟨h.receiver, h.sender, h.wires⟩

omit [SchemaNegotiator ν] in
theorem create_safe {ca cb : Pipe.Construction ν} {storeA : Option DedupStore}
    {capacityB : Option Nat} (h : create ca cb storeA capacityB = .ok w) : w.Good ∧ w.Safe := by
  obtain ⟨a, b, ha, hb, rfl⟩ := create_spec h
  obtain ⟨wa, hua, hgooda, hchaina⟩ := Pipe.create_spec ha
  obtain ⟨wb, hub, hgoodb, hchainb⟩ := Pipe.create_spec hb
  have hstarta : (Pipe.newEndpoint ca wa { store := storeA }).core.Informed b.log := by
    refine ⟨fun _ h => absurd h not_mem_nil, fun _ h => absurd h not_mem_nil,
      fun _ h => absurd h not_mem_nil, fun r hr => ?_, fun source k h => ?_⟩
    · have hmem : r ∈ wa.2.entries := hr
      rw [hua.retransmitEntries] at hmem
      cases hmem
    · rw [Pipe.newEndpoint_log] at h
      simp at h
  have hstartb : (Pipe.newEndpoint cb wb { store := capacityB.map .empty }).core.Accounted := by
    refine ⟨fun s k _ hcov => ?_, fun store hstore s highest hmem => ?_, fun _ h => absurd h
      not_mem_nil, fun _ h => absurd h not_mem_nil, fun _ h => absurd h not_mem_nil⟩
    · obtain ⟨state, hfind, -⟩ := hcov
      have hmem : state ∈ wb.1.entries := (hub.dedup.find_eq_some_iff.mp hfind).1
      rw [hub.dedupEntries] at hmem
      cases hmem
    · obtain ⟨capacity, -, rfl⟩ := Option.map_eq_some_iff.mp hstore
      cases hmem
  obtain ⟨-, hsender⟩ := chain_invariant (fun hs hstep => hstep.informed hs)
    (Pipe.core_chain hchaina) (Pipe.newEndpoint_good hua _).sound hstarta
  obtain ⟨-, hreceiver⟩ := chain_invariant (fun hs hstep => hstep.accounted hs)
    (Pipe.core_chain hchainb) (Pipe.newEndpoint_good hub _).sound hstartb
  refine ⟨⟨hgooda.drained, hgoodb.drained⟩, accounted_drained hreceiver, informed_drained hsender,
    fun c m hm => ?_⟩
  rcases mem_ship hm with hold | ⟨s, hs, -, rfl⟩
  · exact absurd hold not_mem_nil
  · exact hreceiver.outbox s hs

/-- In every run, what side `b` says it has accepted is published or lies below a baseline. -/
theorem run_safe {ca cb : Pipe.Construction ν} {storeA : Option DedupStore} {capacityB : Option Nat}
    {w : BridgeSystem ν} (hcreate : create ca cb storeA capacityB = .ok w) (moves : List (Move ν)) :
    (w.run moves).Safe := by
  obtain ⟨hgood, hsafe⟩ := create_safe hcreate
  exact run_invariant (fun w move hw h => h.step hw move) hgood hsafe moves

/-- The receiver loses its marks at the reconnection. -/
theorem run_safe_reconnect : ∃ w, create senderSide (receiverSide 1) none none = .ok w ∧
    (w.run (reconnectRun [1, 2, 3] true)).Safe :=
  have hcreate : create senderSide (receiverSide 1) none none = .ok _ := rfl
  ⟨_, hcreate, run_safe hcreate _⟩

end BridgeSystem

/-- The receiver has taken a baseline above a frame that the sender has admitted and that
it has not published. -/
def Skips (sender receiver : List Event) : Prop :=
  ∃ source k m, .admitted source k ∈ sender ∧ k ≤ m ∧ .baseline source m ∈ receiver ∧
    .published source k ∉ receiver

/-- In every state of every run in which no baseline skips an admitted frame, a frame that
an ACK or a resume mark has removed from the retransmission window has been published. -/
theorem retired_only_if_published {ν : Type} [SchemaNegotiator ν] (ca cb : Pipe.Construction ν)
    (storeA : Option DedupStore) (capacityB : Option Nat) (moves : List (Move ν))
    (hskip : ¬ Skips (systemLogs ca cb storeA capacityB moves).1
      (systemLogs ca cb storeA capacityB moves).2)
    {source : SourceIdentity} {k : Nat}
    (hretired : .retired source k ∈ (systemLogs ca cb storeA capacityB moves).1) :
    .published source k ∈ (systemLogs ca cb storeA capacityB moves).2 := by
  unfold systemLogs at hskip hretired ⊢
  cases hcreate : BridgeSystem.create ca cb storeA capacityB with
  | error _ =>
    rw [hcreate] at hretired
    cases hretired
  | ok w =>
    simp only [hcreate] at hskip hretired ⊢
    obtain ⟨hgood, hsafe⟩ := BridgeSystem.create_safe hcreate
    have hrun := BridgeSystem.run_invariant (fun w move hw h => h.step hw move) hgood hsafe moves
    obtain ⟨hadmitted, hvouched⟩ := hrun.sender.retired source k hretired
    rcases hvouched with hpub | ⟨m, hm, hbase⟩
    · exact hpub
    · by_contra hnot
      exact hskip ⟨source, k, m, hadmitted, hm, hbase, hnot⟩

def Event.isBaseline : Event → Bool
  | .baseline .. => true
  | _ => false

theorem not_skips_of_no_baseline {sender receiver}
    (h : receiver.any Event.isBaseline = false) : ¬ Skips sender receiver := by
  rintro ⟨source, k, m, -, -, hbase, -⟩
  have := any_eq_false.mp h _ hbase
  exact this rfl

/-- Without a loss of state the frames that were cut off are published before they are
dropped. -/
theorem retired_only_if_published_reconnect : .retired bridgeSource
        2 ∈ (systemLogs senderSide (receiverSide 4) none none (reconnectRun [1, 2, 3] false)).1 ∧
      .published bridgeSource
        2 ∈ (systemLogs senderSide (receiverSide 4) none none (reconnectRun [1, 2, 3] false)).2 :=
  have hretired : .retired bridgeSource
      2 ∈ (systemLogs senderSide (receiverSide 4) none none (reconnectRun [1, 2, 3] false)).1 := by
    decide +kernel
  ⟨hretired, retired_only_if_published senderSide (receiverSide 4) none none (reconnectRun [1, 2, 3] false)
    (not_skips_of_no_baseline (by decide +kernel)) hretired⟩

/-- The receiver has lost its marks and takes frame 3, which is sent again first, as a
baseline; its ACK makes the sender drop frame 2 as well, which is never published. -/
theorem retired_without_publication : .retired bridgeSource
        2 ∈ (systemLogs senderSide (receiverSide 1) none none (reconnectRun [1, 2, 3] true)).1 ∧
      .published bridgeSource
        2 ∉ (systemLogs senderSide (receiverSide 1) none none (reconnectRun [1, 2, 3] true)).2 := by
  decide +kernel

end Mino.Bridge
