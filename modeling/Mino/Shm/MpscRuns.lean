import Mino.Shm.MpscMoves

/-! # Runs of the MPSC channel

Every step of producers and consumer is a move of the ring, except two. The consumer may
take the kAborted that the previous lap left in a slot for a tombstone of the position it is
at; and a producer may drop a message while the consumer is retiring it, or before its
committer has published the turn. -/

namespace Mino.Shm.MpscSystem

open EventLog MpscSystem MpscProducer

variable {μ : Type} {crc : SlotCrc μ} {s s' : MpscSystem μ}

def ring (s : MpscSystem μ) : MpscRing μ where
  capacity := s.capacity
  reserved := s.reservationCursor
  cons := s.consumerCursor
  frontier := s.consumerCursor + s.consumer.ahead
  slots := s.slots
  log := s.log

variable (crc) in
structure Inv (s : MpscSystem μ) : Prop where
  capacity : ∃ k, s.capacity = 2 ^ k
  queue : MpscRing.Inv crc s.ring s.producers s.consumer

section

variable (h : ∃ k, s.capacity = 2 ^ k) (p : Nat)
include h

theorem index_eq : s.index p = p % s.capacity :=
  and_mask_eq_mod h p

theorem slotAt_eq : s.slotAt p = s.ring.slotAt p :=
  congrArg s.slots (index_eq h p)

theorem ring_setSlot (f : IndexSlot μ → IndexSlot μ) :
    (s.setSlot (s.index p) f).ring = s.ring.setSlot p f := by
  rw [index_eq h]
  rfl

end

/-! ### Steps of a producer -/

variable {t q nowNs : Nat} {l l₀ : MpscProducer} {spuriousFailure : Bool} {request : MpscRequest}

theorem poll_ok (hstep : step crc s .poll = some s') :
    s.consumer = .idle ∧ s' = s.consumerAt .polling := by
  cases hc : s.consumer <;> simp only [step, hc] at hstep <;> cases hstep
  exact ⟨rfl, rfl⟩

theorem ack_ok {sequence} (hstep : step crc s (.ack sequence) = some s') :
    s.consumer = .idle ∧ s.borrowed sequence ∧ (s' = s.emit (.overtaken sequence) ∨
      sequence = s.consumerCursor ∧ s' = s.consumerAt (.retiring sequence .ack)) := by
  cases hc : s.consumer <;> simp only [step, hc] at hstep <;> repeat' split at hstep
  all_goals cases hstep
  · exact ⟨rfl, ‹_›, .inl rfl⟩
  · exact ⟨rfl, ‹_›, .inr ⟨not_not.mp ‹_›, rfl⟩⟩

/-- A step of `produce` is a step of one of its three parts. -/
theorem produce_elim {observed : Status} {P : Prop}
    (hstep : s.produce t nowNs observed spuriousFailure = some s')
    (hclaim : s.claimNext t nowNs (s.producers t) = some s' → P)
    (hown : s.ownNext t (s.producers t) = some s' → P)
    (hfull : s.fullNext t observed spuriousFailure (s.producers t) = some s' → P) : P := by
  rcases Option.or_eq_some_iff.mp hstep with hstep | ⟨-, hstep⟩
  · rcases Option.or_eq_some_iff.mp hstep with hstep | ⟨-, hstep⟩
    · exact hclaim hstep
    · exact hown hstep
  · exact hfull hstep

section

variable (h : Inv crc s)
include h

theorem Inv.move (hl : MpscRing.ProducerOk crc s.ring l) (hholds : l.holds = (s.producers t).holds)
    (hdrops : l.drops = (s.producers t).drops) : Inv crc (s.producerAt t l) :=
  ⟨h.capacity, h.queue.move hl hholds hdrops⟩

/-- Claims and tokens play no part. -/
theorem Inv.setMeta (i : Nat) (f : MpscReservationMeta → MpscReservationMeta) :
    Inv crc (s.setMeta i f) := ⟨h.capacity, h.queue⟩

theorem Inv.drawToken : Inv crc s.drawToken := ⟨h.capacity, h.queue⟩

theorem Inv.emit_quiet {e} (he : MpscRing.Quiet e) : Inv crc (s.emit e) := by
  refine ⟨h.capacity, h.queue.record (fun p m => ⟨?_, ?_⟩) (h.queue.logged.emit_quiet he le_rfl)⟩
  · rintro rfl
    exact he
  · rintro rfl
    exact he

theorem Inv.write (hl₀ : s.producers t = l₀) (hq : l₀.holds = some q) (hl : l.holds = some q)
    {f} (hf : ∀ slot, (f slot).turn = slot.turn)
    (hwritten : MpscRing.Written crc (s.slotAt q) l₀ → MpscRing.Written crc (f (s.slotAt q)) l) :
    Inv crc ((s.setSlot (s.index q) f).producerAt t l) := by
  subst hl₀
  refine ⟨h.capacity, ?_⟩
  change MpscRing.Inv crc (s.setSlot (s.index q) f).ring _ _
  rw [ring_setSlot h.capacity]
  refine h.queue.write hq hl (hf _) ?_
  rw [← slotAt_eq h.capacity]
  refine hwritten ?_
  rw [slotAt_eq h.capacity]
  exact ((h.queue.each t).held q hq).written

theorem Inv.tombstone (hq : (s.producers t).holds = some q) :
    Inv crc (((s.setState (s.index q) .aborted).producerAt t (.tombstoned q)).emit
      (.tombstoned q)) := by
  have hheld := (h.queue.each t).held q hq
  refine ⟨h.capacity, ?_⟩
  change MpscRing.Inv crc ((s.setState (s.index q) .aborted).ring.emit _) _ _
  rw [setState, ring_setSlot h.capacity]
  refine h.queue.finish hq rfl rfl rfl rfl (.inl ⟨hheld.turn, rfl, ?_⟩) ?_ ?_
    (h.queue.logged.tombstone hheld.lt hheld.uncommitted)
  · exact List.mem_append_right _ (List.mem_singleton.mpr rfl)
  · rintro p m (⟨⟨⟩⟩ | ⟨⟨⟩⟩)
    rfl
  · rintro p ⟨⟩
    exact List.mem_append_right _ (List.mem_singleton.mpr rfl)

theorem Inv.commit (hq : s.producers t = .publishing q) :
    Inv crc (((s.setTurn (s.index q) (q + 1)).producerAt t .idle).emit
      (.committed q (s.slotAt q).content)) := by
  have hholds : (s.producers t).holds = some q := by rw [hq]; rfl
  have hheld := (h.queue.each t).held q hholds
  obtain ⟨hseq, hstate, hcrc⟩ := hq ▸ hheld.written
  refine ⟨h.capacity, ?_⟩
  change MpscRing.Inv crc ((s.setTurn (s.index q) (q + 1)).ring.emit _) _ _
  rw [setTurn, ring_setSlot h.capacity, slotAt_eq h.capacity]
  refine h.queue.finish hholds rfl rfl rfl rfl (.inr ⟨rfl, hstate, hseq, hcrc, ?_⟩) ?_ ?_
    (h.queue.logged.commit hheld.lt hheld.untombstoned hheld.uncommitted)
  · exact List.mem_append_right _ (List.mem_singleton.mpr rfl)
  · rintro p m (⟨⟨⟩⟩ | ⟨⟨⟩⟩)
    rfl
  · rintro p ⟨⟩

/-- A producer that found a position free still finds it free, or finds the cursor moved. -/
theorem Inv.aim {p} (hl₀ : s.producers t = l₀) (hp : l₀.aims = some p)
    (hl : l.aims = some p) : Inv crc (s.producerAt t l) := by
  subst hl₀
  obtain ⟨hholds, hdrops, hprobes, hburies⟩ := of_aims hl
  obtain ⟨hholds', hdrops', -, -⟩ := of_aims hp
  refine h.move ⟨by rw [hholds]; rintro p ⟨⟩, by rw [hprobes]; rintro p ⟨⟩, fun q hq => ?_,
    by rw [hdrops]; rintro p ⟨⟩, by rw [hburies]; rintro p ⟨⟩⟩ (hholds.trans hholds'.symm)
    (hdrops.trans hdrops'.symm)
  obtain rfl : p = q := Option.some.inj (hl.symm.trans hq)
  exact (h.queue.each t).aimed p hp

end

/-- A producer without a position. -/
structure Free (l : MpscProducer) : Prop where
  holds : l.holds = none
  drops : l.drops = none
  aims : l.aims = none
  probes : l.probes = none
  buries : l.buries = none

section

variable (h : Inv crc s)
include h

/-- A producer without a position goes where it needs none. -/
theorem Inv.rest (hl₀ : s.producers t = l₀) (hpt : l₀.holds = none ∧ l₀.drops = none) (hl : Free l) :
    Inv crc (s.producerAt t l) := by
  subst hl₀
  exact h.move (.of_none hl.holds hl.probes hl.aims hl.drops hl.buries) (hl.holds.trans hpt.1.symm)
    (hl.drops.trans hpt.2.symm)

theorem Inv.refuse (status : Status) (hl₀ : s.producers t = l₀)
    (hpt : l₀.holds = none ∧ l₀.drops = none) : Inv crc (s.refuse t status) :=
  (h.rest hl₀ hpt ⟨rfl, rfl, rfl, rfl, rfl⟩).emit_quiet trivial

theorem Inv.claimNext (hstep : s.claimNext t nowNs (s.producers t) = some s') : Inv crc s' := by
  cases hl : s.producers t <;> simp only [hl, MpscSystem.claimNext] at hstep
  case loading request =>
    cases hstep
    refine h.move ⟨by rintro p ⟨⟩, ?_, by rintro p ⟨⟩, by rintro p ⟨⟩, by rintro p ⟨⟩⟩ (by rw [hl]; rfl)
      (by rw [hl]; rfl)
    rintro p ⟨⟩
    exact le_rfl
  case probing request res =>
    by_cases hgt : (s.slotAt res).turn > res
    · rw [if_pos hgt] at hstep
      cases hstep
      exact h.rest hl ⟨rfl, rfl⟩ ⟨rfl, rfl, rfl, rfl, rfl⟩
    rw [if_neg hgt] at hstep
    by_cases hlt : (s.slotAt res).turn < res
    · rw [if_pos hlt] at hstep
      cases hstep
      exact h.rest hl ⟨rfl, rfl⟩ ⟨rfl, rfl, rfl, rfl, rfl⟩
    rw [if_neg hlt] at hstep
    cases hstep
    refine h.move ⟨by rintro p ⟨⟩, by rintro p ⟨⟩, ?_, by rintro p ⟨⟩, by rintro p ⟨⟩⟩
      (by rw [hl]; rfl) (by rw [hl]; rfl)
    rintro p ⟨⟩
    refine ⟨(h.queue.each t).probed res (by rw [hl]; rfl), fun _ => ?_⟩
    rw [← slotAt_eq h.capacity]
    omega
  case drawing request res =>
    split at hstep <;> cases hstep <;> exact h.drawToken.aim hl rfl rfl
  case redrawing request res =>
    cases hstep
    exact h.drawToken.aim hl rfl rfl
  case tagging request res token | owning request res claim =>
    split at hstep <;> cases hstep
    · exact (h.setMeta _ _).aim hl rfl rfl
    · exact h.rest hl ⟨rfl, rfl⟩ ⟨rfl, rfl, rfl, rfl, rfl⟩
  case sequencing request res claim | identifying request res claim | timing request res claim =>
    cases hstep
    exact (h.setMeta _ _).aim hl rfl rfl
  case advancing request res claim =>
    have hp : (s.producers t).aims = some res := by rw [hl]; rfl
    split at hstep
    · rename_i heq
      cases hstep
      subst heq
      exact ⟨h.capacity, h.queue.reserve (((h.queue.each t).aimed _ hp).2 rfl) (by rw [hl]; rfl)
        (by rw [hl]; rfl) rfl trivial⟩
    · cases hstep
      exact h.rest hl ⟨rfl, rfl⟩ ⟨rfl, rfl, rfl, rfl, rfl⟩
  case yielding request claim res =>
    split at hstep <;> cases hstep
    · exact (h.setMeta _ _).rest hl ⟨rfl, rfl⟩ ⟨rfl, rfl, rfl, rfl, rfl⟩
    · exact h.rest hl ⟨rfl, rfl⟩ ⟨rfl, rfl, rfl, rfl, rfl⟩
  all_goals cases hstep

/-- The holder of a position goes on without writing to the slot. -/
theorem Inv.hold (hl₀ : s.producers t = l₀) (hq : l₀.holds = some q) (hl : l.holds = some q)
    (hwritten : MpscRing.Written crc (s.ring.slotAt q) l₀ →
      MpscRing.Written crc (s.ring.slotAt q) l) : Inv crc (s.producerAt t l) := by
  subst hl₀
  have hheld := (h.queue.each t).held q hq
  exact h.move (.of_held hl ⟨hheld.le, hheld.lt, hheld.turn, hheld.untombstoned,
    hheld.uncommitted, hwritten hheld.written⟩) (hl.trans hq.symm)
    ((of_holds hl).1.trans (of_holds hq).1.symm)

theorem Inv.ownNext (hstep : s.ownNext t (s.producers t) = some s') : Inv crc s' := by
  cases hl : s.producers t <;> rw [hl] at hstep
  case advanced res claim =>
    cases hstep
    exact (h.setMeta _ _).hold hl rfl rfl fun _ => trivial
  case numbering res claim =>
    cases hstep
    exact h.write hl rfl rfl (fun _ => rfl) fun _ => rfl
  case opening res claim =>
    cases hstep
    exact h.write hl rfl rfl (fun _ => rfl) fun hw => ⟨hw, rfl⟩
  case opened res claim | marking res claim =>
    cases hstep
    exact (h.setMeta _ _).hold hl rfl rfl id
  case sealed res =>
    have hq : (s.producers t).holds = some res := by rw [hl]; rfl
    have hw := ((h.queue.each t).held res hq).written
    rw [hl, ← slotAt_eq h.capacity] at hw
    simp only [MpscSystem.ownNext, hw.2.1, if_true] at hstep
    cases hstep
    exact h.write hl rfl rfl (fun _ => rfl) fun _ => ⟨hw.1, rfl, hw.2.2⟩
  case readied res =>
    cases hstep
    exact h.hold hl rfl rfl id
  case publishing res =>
    cases hstep
    exact h.commit hl
  case tombstoned res =>
    cases hstep
    have hmem := (h.queue.each t).buried res (by rw [hl]; rfl)
    refine h.move ⟨by rintro p ⟨⟩, by rintro p ⟨⟩, by rintro p ⟨⟩, by rintro p ⟨⟩, ?_⟩
      (by rw [hl]; rfl) (by rw [hl]; rfl)
    rintro p ⟨⟩
    exact hmem
  case unmarking res claim =>
    have hmem := (h.queue.each t).buried res (by rw [hl]; rfl)
    cases hstep
    have hrest := (h.setMeta (s.index res) fun sidecar => { sidecar with
      claimControl := claim.withClaimPhase .writing }).rest (l := .idle) hl ⟨rfl, rfl⟩
        ⟨rfl, rfl, rfl, rfl, rfl⟩
    exact ⟨hrest.capacity,
      hrest.queue.record (fun p m => ⟨by rintro ⟨⟩, by rintro ⟨⟩⟩) (h.queue.logged.abort hmem)⟩
  all_goals cases hstep

end

/-! ### Conditions on a step -/

/-- When the consumer loads kAborted, the position it is at has been made a tombstone: the
word is none that the previous lap left behind. -/
def TombstoneCurrent (s : MpscSystem μ) (action : MpscAction μ) : Prop :=
  match action, s.consumer with
  | .consume _, .judging cons _ => (s.slotAt cons).state = .aborted → .tombstoned cons ∈ s.log
  | _, _ => True

/-- A producer drops a message only while no `Poll` or `Ack` has loaded the cursor and not yet
moved it, and only once the committer of the message has published its turn. -/
def DropSettled (s : MpscSystem μ) (action : MpscAction μ) : Prop :=
  match action with
  | .produce t _ _ _ =>
    match s.producers t with
    | .dropAdvancing _ cons =>
      s.consumerCursor = cons → s.consumer.holdsCursor = false ∧ (s.slotAt cons).turn = cons + 1
    | _ => True
  | _ => True

instance [DecidableEq μ] (s : MpscSystem μ) (action : MpscAction μ) :
    Decidable (TombstoneCurrent s action) := by
  unfold TombstoneCurrent
  split <;> infer_instance

instance [DecidableEq μ] (s : MpscSystem μ) (action : MpscAction μ) :
    Decidable (DropSettled s action) := by
  unfold DropSettled
  split
  · split <;> infer_instance
  · infer_instance

theorem sampling_cases {observed}
    (hstep : s.fullNext t observed spuriousFailure (.sampling request) = some s') :
    (∃ status, s' = s.refuse t status) ∨ s' = s.producerAt t (.loading request) := by
  simp only [fullNext] at hstep
  by_cases hrate : s.reservationCursor % (if request.sampleRate = 0 then 1 else
      request.sampleRate) ≠ 0
  · rw [if_pos hrate] at hstep
    exact .inl ⟨_, (Option.some.inj hstep).symm⟩
  · rw [if_neg hrate] at hstep
    exact .inr (Option.some.inj hstep).symm

section

variable (h : Inv crc s)
include h

section

variable (hl₀ : s.producers t = l₀) (hpt : l₀.holds = none ∧ l₀.drops = none)
include hl₀ hpt

theorem Inv.onFull {state} : Inv crc (s.onFull t request state) := by
  unfold MpscSystem.onFull
  cases request.policy with
  | none => exact h.refuse _ hl₀ hpt
  | some policy =>
    cases policy with
    | fail | dropNewest => exact h.refuse _ hl₀ hpt
    | block | sample => exact h.rest hl₀ hpt ⟨rfl, rfl, rfl, rfl, rfl⟩
    | dropOldest =>
      change Inv crc (if state = .ready then _ else _)
      split
      · exact h.rest hl₀ hpt ⟨rfl, rfl, rfl, rfl, rfl⟩
      · exact h.refuse _ hl₀ hpt

theorem Inv.afterDrop {retired} : Inv crc (s.afterDrop t request retired) := by
  unfold MpscSystem.afterDrop
  split
  · exact h.rest hl₀ hpt ⟨rfl, rfl, rfl, rfl, rfl⟩
  · exact h.refuse _ hl₀ hpt

end

section

variable {observed : Status} (hdrop : DropSettled s (.produce t nowNs observed spuriousFailure))
include hdrop

theorem Inv.fullNext (hl : s.producers t = l)
    (hstep : s.fullNext t observed spuriousFailure l = some s') : Inv crc s' := by
  cases l with
  | blocked request res =>
    cases hstep
    exact h.onFull hl ⟨rfl, rfl⟩
  | sampling request =>
    rcases sampling_cases hstep with ⟨status, rfl⟩ | rfl
    · exact h.refuse _ hl ⟨rfl, rfl⟩
    · exact h.rest hl ⟨rfl, rfl⟩ ⟨rfl, rfl, rfl, rfl, rfl⟩
  | dropLoading request | dropReleasing request cons retired =>
    cases hstep
    exact h.rest hl ⟨rfl, rfl⟩ ⟨rfl, rfl, rfl, rfl, rfl⟩
  | dropProbing request cons | dropChecking request cons =>
    simp only [fullNext] at hstep
    split at hstep <;> cases hstep <;> exact h.rest hl ⟨rfl, rfl⟩ ⟨rfl, rfl, rfl, rfl, rfl⟩
  | dropAdvancing request cons =>
    simp only [fullNext] at hstep
    simp only [DropSettled, hl] at hdrop
    split at hstep
    · rename_i heq
      cases hstep
      obtain ⟨hcursor, hturn⟩ := hdrop heq
      subst heq
      rw [slotAt_eq h.capacity] at hturn
      refine ⟨h.capacity, ?_⟩
      have hdropped := h.queue.drop hcursor (t := t) (l := .dropRetiring request s.consumerCursor)
        hturn (by rw [hl]; rfl) (by rw [hl]; rfl) rfl
      have hahead : s.consumer.ahead = 0 := by
        cases hc : s.consumer <;> rw [hc] at hcursor <;> first | rfl | cases hcursor
      have hring : (((s.setConsumerCursor (s.consumerCursor + 1)).producerAt t
          (.dropRetiring request s.consumerCursor)).emit (.dropped s.consumerCursor)).ring =
          { s.ring with cons := s.consumerCursor + 1, frontier := s.consumerCursor + 1 }.emit
            (.dropped s.consumerCursor) := by
        simp only [ring, MpscRing.emit, setConsumerCursor, producerAt, emit, hahead, Nat.add_zero]
      rw [hring]
      exact hdropped
    · cases hstep
      exact h.rest hl ⟨rfl, rfl⟩ ⟨rfl, rfl, rfl, rfl, rfl⟩
  | dropRetiring request cons =>
    cases hstep
    refine ⟨h.capacity, ?_⟩
    change MpscRing.Inv crc (s.setTurn (s.index cons) (cons + s.capacity)).ring _ _
    rw [setTurn, ring_setSlot h.capacity]
    exact h.queue.clear (by rw [hl]; rfl) (.of_none rfl rfl rfl rfl rfl) rfl rfl rfl
  | dropComparing request cons retired claim =>
    simp only [fullNext] at hstep
    split at hstep <;> cases hstep
    · exact h.rest hl ⟨rfl, rfl⟩ ⟨rfl, rfl, rfl, rfl, rfl⟩
    · exact h.afterDrop hl ⟨rfl, rfl⟩
  | dropFreeing request cons retired claim =>
    simp only [fullNext] at hstep
    split at hstep <;> cases hstep
    · exact (h.setMeta _ _).afterDrop hl ⟨rfl, rfl⟩
    · exact h.rest hl ⟨rfl, rfl⟩ ⟨rfl, rfl, rfl, rfl, rfl⟩
  | _ => cases hstep

theorem Inv.produce (hstep : s.produce t nowNs observed spuriousFailure = some s') : Inv crc s' :=
  produce_elim hstep h.claimNext h.ownNext (h.fullNext hdrop rfl)

end

theorem Inv.fill {content}
    (hstep : produceCall crc s t (.fill t content) = some s') : Inv crc s' := by
  cases hl : s.producers t <;> simp only [produceCall, hl] at hstep
  case reserved res =>
    cases hstep
    have hwrite := h.write (l := .reserved res) hl rfl rfl (f := fun slot => { slot with content })
      (fun _ => rfl) id
    have hsame : (s.setSlot (s.index res) fun slot => { slot with content }).producerAt t
        (.reserved res) = s.setSlot (s.index res) fun slot => { slot with content } := by
      unfold producerAt
      rw [show (s.setSlot (s.index res) fun slot => { slot with content }).producers =
        s.producers from rfl, ← hl, Function.update_eq_self]
      rfl
    exact hsame ▸ hwrite
  all_goals cases hstep

theorem Inv.sealSlot (hstep : produceCall crc s t (.commit t) = some s') : Inv crc s' := by
  cases hl : s.producers t <;> simp only [produceCall, hl] at hstep
  case reserved res =>
    cases hstep
    exact h.write hl rfl rfl (fun _ => rfl) fun hw => ⟨hw.1, hw.2, by rw [hw.1]⟩
  all_goals cases hstep

theorem Inv.bury (hstep : produceCall crc s t (.abort t) = some s') : Inv crc s' := by
  cases hl : s.producers t with
  | reserved res =>
    have hq : (s.producers t).holds = some res := by rw [hl]; rfl
    have hw := ((h.queue.each t).held res hq).written
    rw [hl, ← slotAt_eq h.capacity] at hw
    simp only [produceCall, hl, hw.2, if_true] at hstep
    cases hstep
    exact h.tombstone hq
  | _ => simp only [produceCall, hl] at hstep; cases hstep

/-! ### Steps of the consumer -/

theorem Inv.turnTo {l l₀} (hl₀ : s.consumer = l₀) (hahead : l.ahead = l₀.ahead)
    (hl : s.ring.ConsumerOk l) : Inv crc (s.consumerAt l) := by
  subst hl₀
  refine ⟨h.capacity, ?_⟩
  have := h.queue.turnTo hahead hl
  change MpscRing.Inv crc { s.ring with frontier := s.consumerCursor + l.ahead } _ _
  rw [hahead]
  exact this

/-- A head whose turn is published has been committed. -/
theorem Inv.head_committed {l} (hl : s.consumer = l) (hahead : l.ahead = 0)
    {cons} (hat : s.ring.AtHead cons) (hturn : (s.ring.slotAt cons).turn = cons + 1) :
    MpscRing.Committed crc (s.slotAt cons) s.log cons := by
  rw [slotAt_eq h.capacity]
  obtain ⟨rfl, hlt⟩ := hat
  have hfrontier : s.ring.frontier = s.ring.cons := by
    rw [h.queue.frontier, hl, hahead, Nat.add_zero]
  rcases h.queue.window _ (Nat.le_of_eq hfrontier) hlt with ⟨t, ht⟩ | htomb | hcom
  · have := ((h.queue.each t).held _ ht).turn
    omega
  · have := htomb.turn
    omega
  · exact hcom

theorem Inv.consume (hcur : TombstoneCurrent s (.consume spuriousFailure))
    (hstep : MpscSystem.consume crc s spuriousFailure = some s') : Inv crc s' := by
  have hreader := h.queue.reader
  have hle := h.queue.le
  cases hl : s.consumer <;> simp only [MpscSystem.consume, hl] at hstep <;> rw [hl] at hreader
  case idle => cases hstep
  case polling =>
    cases hstep
    exact h.turnTo hl rfl rfl
  case comparing cons =>
    split at hstep
    · cases hstep
      exact (h.turnTo hl rfl (l := .idle) trivial).emit_quiet trivial
    cases hstep
    obtain rfl : cons = s.consumerCursor := hreader
    refine h.turnTo hl rfl ⟨rfl, ?_⟩
    change s.consumerCursor + s.consumer.ahead ≤ s.reservationCursor at hle
    change s.consumerCursor < s.reservationCursor
    omega
  case probing cons =>
    cases hstep
    refine h.turnTo hl rfl ⟨hreader, fun hturn => ?_⟩
    rw [← slotAt_eq h.capacity]
    exact hturn
  case judging cons turn =>
    simp only [TombstoneCurrent, hl] at hcur
    by_cases hab : (s.slotAt cons).state = .aborted
    · rw [if_pos hab] at hstep
      cases hstep
      exact h.turnTo hl rfl ⟨hreader.1, hcur hab⟩
    rw [if_neg hab] at hstep
    by_cases hno : turn ≠ cons + 1 ∨ (s.slotAt cons).state ≠ .ready
    · rw [if_pos hno] at hstep
      cases hstep
      exact (h.turnTo hl rfl (l := .idle) trivial).emit_quiet trivial
    · rw [if_neg hno] at hstep
      cases hstep
      exact h.turnTo hl rfl ⟨hreader.1, hreader.2 (by tauto)⟩
  case checking cons =>
    have hcom := h.head_committed hl rfl hreader.1 hreader.2
    simp only [hcom.sequenceNum, ne_eq, not_true_eq_false, if_false] at hstep
    cases hstep
    exact h.turnTo hl rfl hreader
  case copying cons =>
    cases hstep
    refine h.turnTo hl rfl ⟨hreader.1, hreader.2, ?_⟩
    rw [slotAt_eq h.capacity]
  case copied cons content =>
    have hcom := h.head_committed hl rfl hreader.1 hreader.2.1
    cases hstep
    exact h.turnTo hl rfl ⟨hreader.1, hreader.2.1, hreader.2.2, hcom.sequenceNum⟩
  case verifying cons content sequenceNum =>
    obtain ⟨hat, hturn, hcontent, rfl⟩ := hreader
    have hcom := h.head_committed hl rfl hat hturn
    rw [← slotAt_eq h.capacity] at hcontent
    have hseal := hcom.sealed
    rw [← hcontent] at hseal
    simp only [hseal, ne_eq, not_true_eq_false, if_false] at hstep
    cases hstep
    have hidle := h.turnTo (l := .idle) hl rfl trivial
    refine ⟨hidle.capacity, hidle.queue.record (fun p m => ⟨by rintro ⟨⟩, by rintro ⟨⟩⟩) ?_⟩
    obtain rfl : sequenceNum = s.consumerCursor := hat.1
    exact h.queue.logged.poll (hcontent ▸ hcom.logged)
  case retiring cons next =>
    cases hstep
    obtain ⟨⟨rfl, hlt⟩, hnext⟩ := hreader
    refine ⟨h.capacity, ?_⟩
    have := h.queue.mark (by rw [hl]; rfl) hlt hnext
    have hring : ((s.setTurn (s.index s.consumerCursor) (s.consumerCursor + s.capacity)).consumerAt
        (.advancing s.consumerCursor next)).ring =
          { s.ring.setTurn s.consumerCursor (s.consumerCursor + s.capacity) with
            frontier := s.consumerCursor + 1 } := by
      have := ring_setSlot h.capacity s.consumerCursor fun slot =>
        { slot with turn := s.consumerCursor + s.capacity }
      rw [MpscRing.setTurn, ← this]
      rfl
    exact hring ▸ this
  case advancing cons next =>
    cases hstep
    obtain ⟨⟨rfl, hlt⟩, hnext⟩ := hreader
    have hqueue := h.queue
    rw [hl] at hqueue
    have := hqueue.pass (l := .releasing s.consumerCursor next) rfl (fun _ => trivial) hnext
    refine ⟨h.capacity, ?_⟩
    have hring : (((s.setConsumerCursor (s.consumerCursor + 1)).consumerAt
        (.releasing s.consumerCursor next)).emit (retirement s.consumerCursor next)).ring =
          { s.ring with cons := s.consumerCursor + 1 }.emit (retirement s.consumerCursor next) := by
      have hahead : s.consumerCursor + s.consumer.ahead = s.consumerCursor + 1 := by rw [hl]; rfl
      change MpscRing.mk _ _ _ (s.consumerCursor + 1) _ _ =
        MpscRing.mk _ _ _ (s.consumerCursor + s.consumer.ahead) _ _
      rw [hahead]
      rfl
    change MpscRing.Inv crc (MpscSystem.ring _) _ _
    exact hring ▸ this
  case releasing cons next =>
    cases hstep
    exact h.turnTo hl rfl trivial
  case comparingClaim cons next claim =>
    split at hstep <;> cases hstep
    · exact h.turnTo hl rfl trivial
    · cases next <;> exact h.turnTo hl rfl trivial
  case freeing cons next claim =>
    split at hstep <;> cases hstep
    · cases next <;> exact (h.setMeta _ _).turnTo hl rfl trivial
    · exact h.turnTo hl rfl trivial

/-- An acknowledgement of the position at the cursor may go on to retire it. -/
theorem Inv.ack {sequence} (hidle : s.consumer = .idle) (hborrowed : s.borrowed sequence)
    (heq : sequence = s.consumerCursor) : Inv crc (s.consumerAt (.retiring sequence .ack)) := by
  obtain ⟨e, he, hseq⟩ := List.any_eq_true.mp hborrowed
  cases e with
  | polled q m =>
    obtain rfl : q = sequence := by simpa [MpscEvent.polledSequence] using hseq
    have hlt := h.queue.logged.committed_lt q m (h.queue.logged.polledCommitted q m he)
    exact h.turnTo hidle rfl ⟨⟨heq, hlt⟩, m, he⟩
  | _ => simp [MpscEvent.polledSequence] at hseq

end

end Mino.Shm.MpscSystem
