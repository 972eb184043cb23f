import Mino.Shm.MpscRuns

/-! # The MPSC channel delivers once and in order

The steps of producers and consumer keep the invariant, so that a message is acknowledged
once, dropped once or still in the queue, and the cursor and the turns only grow. -/

namespace Mino.Shm

open Interleaving Function EventLog MpscEvent

namespace MpscAction

variable {μ : Type}

/-- The actions of producers and consumer. -/
def Calls : MpscAction μ → Prop
  | .scan _ | .recover _ _ _ _ => False
  | _ => True

/-- The actions of producers that do not ask for the oldest message to be dropped, and of
the consumer. -/
def CallsUndropping : MpscAction μ → Prop
  | .reserve _ request => request.policy ≠ some .dropOldest
  | .scan _ | .recover _ _ _ _ => False
  | _ => True

theorem CallsUndropping.calls {action : MpscAction μ} (h : action.CallsUndropping) :
    action.Calls := by
  cases action <;> trivial

end MpscAction

namespace MpscSystem

variable {μ : Type} {crc : SlotCrc μ} {s s' : MpscSystem μ} {action : MpscAction μ}
  {t base capacity : Nat} {spuriousFailure : Bool} {process : Nat → UInt32} {request : MpscRequest}
  {observed : Status} {emptyContent : μ} {l : MpscProducer}

theorem Inv.step (h : Inv crc s) (hcalls : action.Calls) (hcur : TombstoneCurrent s action)
    (hdrop : DropSettled s action) (hstep : step crc s action = some s') : Inv crc s' := by
  cases action with
  | reserve t request =>
    simp only [step] at hstep
    split at hstep
    · cases hl : s.producers t <;> simp only [produceCall, hl] at hstep
      case idle =>
        cases hstep
        exact h.rest hl ⟨rfl, rfl⟩ ⟨rfl, rfl, rfl, rfl, rfl⟩
      all_goals cases hstep
    · cases hstep
  | fill t content => exact h.fill (Option.ite_none_right_eq_some.mp hstep).2
  | commit t => exact h.sealSlot (Option.ite_none_right_eq_some.mp hstep).2
  | abort t => exact h.bury (Option.ite_none_right_eq_some.mp hstep).2
  | produce t nowNs observed spuriousFailure =>
    exact h.produce hdrop (Option.ite_none_right_eq_some.mp hstep).2
  | poll =>
    obtain ⟨hl, rfl⟩ := poll_ok hstep
    exact h.turnTo hl rfl trivial
  | ack sequence =>
    obtain ⟨hl, hborrowed, rfl | ⟨heq, rfl⟩⟩ := ack_ok hstep
    · exact h.emit_quiet trivial
    · exact h.ack hl hborrowed heq
  | consume spuriousFailure => exact h.consume hcur hstep
  | scan t | recover t nowNs leaseNs probedDead => exact hcalls.elim
  | die process =>
    cases hstep
    exact ⟨h.capacity, h.queue⟩

/-! ### Cursor and turns only grow -/

def Grows (s s' : MpscSystem μ) : Prop :=
  s.consumerCursor ≤ s'.consumerCursor ∧ ∀ i, (s.slots i).turn ≤ (s'.slots i).turn

theorem Grows.refl (s : MpscSystem μ) : Grows s s := ⟨le_rfl, fun _ => le_rfl⟩

theorem Grows.trans {s t u : MpscSystem μ} (h : Grows s t) (h' : Grows t u) : Grows s u :=
  ⟨Nat.le_trans h.1 h'.1, fun i => Nat.le_trans (h.2 i) (h'.2 i)⟩

theorem Grows.of_same (hcursor : s'.consumerCursor = s.consumerCursor) (hslots : s'.slots = s.slots) :
    Grows s s' :=
  ⟨Nat.le_of_eq hcursor.symm, fun i => by rw [hslots]⟩

theorem Grows.of_write {i : Nat} {f : IndexSlot μ → IndexSlot μ}
    (hcursor : s.consumerCursor ≤ s'.consumerCursor)
    (hslots : s'.slots = update s.slots i (f (s.slots i)))
    (hf : (s.slots i).turn ≤ (f (s.slots i)).turn) : Grows s s' := by
  refine ⟨hcursor, fun j => ?_⟩
  rw [hslots]
  by_cases hj : j = i
  · subst hj
    rw [update_self]
    exact hf
  · rw [update_of_ne hj]

theorem grows_claimNext {nowNs} (hstep : s.claimNext t nowNs l = some s') : Grows s s' := by
  cases l <;> simp only [claimNext] at hstep <;> repeat' split at hstep
  all_goals first
    | cases hstep; exact .of_same rfl rfl
    | cases hstep

theorem Inv.grows_ownNext (h : Inv crc s) (hstep : s.ownNext t (s.producers t) = some s') :
    Grows s s' := by
  cases hl : s.producers t <;> rw [hl] at hstep
  case publishing res =>
    have hheld := (h.queue.each t).held res (by rw [hl]; rfl)
    have hturn := hheld.turn
    rw [← slotAt_eq h.capacity] at hturn
    cases hstep
    refine .of_write
      (f := fun slot => { slot with turn := res + 1 }) le_rfl rfl ?_
    change (s.slotAt res).turn ≤ res + 1
    omega
  case numbering res claim =>
    cases hstep
    exact .of_write
      (f := fun slot => { slot with sequenceNum := res }) le_rfl rfl le_rfl
  case opening res claim =>
    cases hstep
    exact .of_write
      (f := fun slot => { slot with state := .writing }) le_rfl rfl le_rfl
  case sealed res =>
    simp only [MpscSystem.ownNext] at hstep
    split at hstep <;> cases hstep
    · exact .of_write
        (f := fun slot => { slot with state := .ready }) le_rfl rfl le_rfl
    · exact .of_same rfl rfl
  all_goals
    cases hstep
    try exact .of_same rfl rfl

theorem grows_onFull {state} : Grows s (s.onFull t request state) := by
  unfold onFull
  repeat' split
  all_goals exact .of_same rfl rfl

theorem grows_afterDrop {retired} : Grows s (s.afterDrop t request retired) := by
  unfold afterDrop
  split <;> exact .of_same rfl rfl

theorem Inv.grows_fullNext (h : Inv crc s)
    (hstep : s.fullNext t observed spuriousFailure (s.producers t) = some s') : Grows s s' := by
  cases hl : s.producers t <;> simp only [hl, MpscSystem.fullNext] at hstep
  case blocked request res =>
    cases hstep
    exact grows_onFull
  case dropAdvancing request cons =>
    split at hstep
    · rename_i heq
      cases hstep
      refine ⟨?_, fun _ => le_rfl⟩
      change s.consumerCursor ≤ cons + 1
      omega
    · cases hstep
      exact .of_same rfl rfl
  case dropRetiring request cons =>
    obtain ⟨-, -, hturn⟩ := (h.queue.each t).dropped cons (by rw [hl]; rfl)
    rw [← slotAt_eq h.capacity] at hturn
    have hcap : 2 ≤ s.capacity := h.queue.capacity
    cases hstep
    refine .of_write
      (f := fun slot => { slot with turn := cons + s.capacity }) le_rfl rfl ?_
    change (s.slotAt cons).turn ≤ cons + s.capacity
    omega
  case dropComparing request cons retired claim =>
    split at hstep <;> cases hstep
    · exact .of_same rfl rfl
    · exact grows_afterDrop
  case dropFreeing request cons retired claim =>
    split at hstep <;> cases hstep
    · have hfree : Grows s (s.setClaim (s.index cons) .zero) := .of_same rfl rfl
      exact hfree.trans grows_afterDrop
    · exact .of_same rfl rfl
  case sampling request =>
    change s.fullNext t observed spuriousFailure (.sampling request) = _ at hstep
    rcases sampling_cases hstep with ⟨status, rfl⟩ | rfl <;> exact .of_same rfl rfl
  case dropProbing request cons | dropChecking request cons =>
    split at hstep <;> cases hstep <;> exact .of_same rfl rfl
  all_goals
    cases hstep
    try exact .of_same rfl rfl

theorem grows_produceCall (hcall : ∀ t nowNs observed spuriousFailure,
      action ≠ .produce t nowNs observed spuriousFailure)
    (hstep : produceCall crc s t action = some s') : Grows s s' := by
  cases action with
  | reserve _ request =>
    cases hl : s.producers t <;> simp only [produceCall, hl] at hstep <;> cases hstep
    exact .of_same rfl rfl
  | fill _ content =>
    cases hl : s.producers t <;> simp only [produceCall, hl] at hstep <;> cases hstep
    exact .of_write (f := fun slot => { slot with content }) le_rfl rfl le_rfl
  | commit _ =>
    cases hl : s.producers t <;> simp only [produceCall, hl] at hstep <;> cases hstep
    exact .of_write (f := fun slot => { slot with
      immutableMetadataCrc := crc slot.sequenceNum slot.content }) le_rfl rfl
      le_rfl
  | abort _ =>
    cases hl : s.producers t <;> simp only [produceCall, hl] at hstep
    case reserved res =>
      repeat' split at hstep
      all_goals cases hstep
      · exact .of_write (f := fun slot => { slot with state := .aborted }) le_rfl rfl le_rfl
      · exact .of_same rfl rfl
      · exact .of_same rfl rfl
    all_goals cases hstep
  | produce _ nowNs observed spuriousFailure => exact absurd rfl (hcall _ _ _ _)
  | _ => cases hstep

theorem Inv.grows_consume (h : Inv crc s)
    (hstep : MpscSystem.consume crc s spuriousFailure = some s') : Grows s s' := by
  have hreader := h.queue.reader
  cases hl : s.consumer <;> simp only [MpscSystem.consume, hl] at hstep
  case retiring cons next =>
    rw [hl] at hreader
    obtain ⟨⟨rfl, hlt⟩, -⟩ := hreader
    have hahead : s.consumer.ahead = 0 := by rw [hl]; rfl
    have hfrontier : s.ring.frontier = s.ring.cons := by
      rw [h.queue.frontier, hahead, Nat.add_zero]
    have hturn := h.queue.turn_window (Nat.le_of_eq hfrontier) hlt
    rw [← slotAt_eq h.capacity] at hturn
    have hcap : 2 ≤ s.capacity := h.queue.capacity
    cases hstep
    refine .of_write
      (f := fun slot => { slot with turn := s.consumerCursor + s.capacity }) le_rfl rfl ?_
    change (s.slotAt s.consumerCursor).turn ≤ s.consumerCursor + s.capacity
    change (s.slotAt s.consumerCursor).turn = s.consumerCursor ∨
      (s.slotAt s.consumerCursor).turn = s.consumerCursor + 1 at hturn
    omega
  case advancing cons next =>
    rw [hl] at hreader
    obtain ⟨⟨rfl, -⟩, -⟩ := hreader
    cases hstep
    exact ⟨Nat.le_succ _, fun _ => le_rfl⟩
  case comparingClaim cons next claim =>
    split at hstep <;> cases hstep
    · exact .of_same rfl rfl
    · cases next <;> exact .of_same rfl rfl
  case freeing cons next claim =>
    split at hstep <;> cases hstep
    · cases next <;> exact .of_same rfl rfl
    · exact .of_same rfl rfl
  all_goals
    repeat' split at hstep
    all_goals first
      | cases hstep; exact .of_same rfl rfl
      | cases hstep

theorem Inv.grows (h : Inv crc s) (hcalls : action.Calls)
    (hstep : MpscSystem.step crc s action = some s') : Grows s s' := by
  cases action with
  | produce t nowNs observed spuriousFailure =>
    simp only [MpscSystem.step] at hstep
    split at hstep
    · exact produce_elim hstep grows_claimNext h.grows_ownNext h.grows_fullNext
    · cases hstep
  | poll =>
    obtain ⟨-, rfl⟩ := poll_ok hstep
    exact .of_same rfl rfl
  | ack sequence =>
    obtain ⟨-, -, rfl | ⟨-, rfl⟩⟩ := ack_ok hstep <;> exact .of_same rfl rfl
  | consume spuriousFailure => exact h.grows_consume hstep
  | scan t | recover t nowNs leaseNs probedDead => exact hcalls.elim
  | die process =>
    cases hstep
    exact .of_same rfl rfl
  | _ => exact grows_produceCall (by rintro _ _ _ _ ⟨⟩) (Option.ite_none_right_eq_some.mp hstep).2

/-! ### What the queue promises -/

/-- Every committed message is acknowledged once, dropped once or still queued. -/
structure Accounted (s : MpscSystem μ) : Prop where
  once : ∀ p m, .committed p m ∈ s.log →
    times MpscEvent.ackedSequence s.log p + times MpscEvent.droppedSequence s.log p +
      (if s.consumerCursor ≤ p then 1 else 0) = 1
  queued : ∀ p m, .committed p m ∈ s.log → s.consumerCursor < p →
    (s.slotAt p).turn = p + 1 ∧ (s.slotAt p).state = .ready ∧ (s.slotAt p).content = m

theorem Inv.accounted (h : Inv crc s) : Accounted s where
  once p m hp := by
    have hskip : times skippedSequence s.log p = 0 := by
      refine times_eq_zero fun e he hs => ?_
      cases e with
      | skipped q =>
        cases hs
        exact h.queue.logged.apart _ m (h.queue.logged.skippedTombstoned _ he) hp
      | _ => cases hs
    have honce : times ackedSequence s.log p + times droppedSequence s.log
      p + times skippedSequence s.log p = if p < s.consumerCursor then 1 else 0 :=
      h.queue.logged.retiredOnce p
    split at honce <;> split <;> omega
  queued p m hp hlt := by
    have hfrontier : s.ring.frontier = s.consumerCursor + s.consumer.ahead := rfl
    have hahead : s.consumer.ahead ≤ 1 := by
      cases s.consumer <;> simp [MpscConsumer.ahead]
    have hcommitted := h.queue.logged.committed_lt p m hp
    rw [slotAt_eq h.capacity]
    rcases h.queue.window p (by omega) hcommitted with ⟨t, ht⟩ | htomb | hcom
    · exact absurd hp (((h.queue.each t).held p ht).uncommitted m)
    · exact absurd hp (h.queue.logged.apart p m htomb.logged)
    · exact ⟨hcom.turn, hcom.state, h.queue.logged.committedOnce p _ m hcom.logged hp⟩

theorem Inv.init (h : MpscSystem.init emptyContent process base capacity = .ok s) : Inv crc s := by
  unfold MpscSystem.init at h
  repeat' split at h
  all_goals try cases h
  have hpow : ∃ k, capacity = 2 ^ k :=
    exists_two_pow_of_isPowerOfTwo (by omega) (by simp_all)
  have hmod : ∀ p, p < capacity → p % capacity = p := fun p hp => Nat.mod_eq_of_lt hp
  refine ⟨hpow, ⟨?_, rfl, le_rfl, Nat.zero_le _, fun p _ hp => .inl ?_,
    fun p _ hp => absurd hp (Nat.not_lt_zero p), fun _ => .of_none rfl rfl rfl rfl rfl,
    by rintro _ _ p ⟨⟩, by rintro _ _ p ⟨⟩, trivial, ?_⟩⟩
  · change 2 ≤ capacity
    omega
  · change p < 0 + 0 + capacity at hp
    change p % capacity = p
    exact hmod p (by omega)
  · exact ⟨by rintro _ _ ⟨⟩, by rintro _ ⟨⟩, by rintro _ _ ⟨⟩, by rintro _ _ _ ⟨⟩, by rintro _ ⟨⟩,
      .nil, by rintro _ _ ⟨⟩, by rintro _ _ ⟨⟩, by rintro _ ⟨⟩, by rintro _ ⟨⟩, .nil, fun p => rfl,
      by rintro _ ⟨⟩⟩

/-! ### Messages in order -/

/-- What the calls of a `Poll` that finds a message are. -/
def pollCalls : List (MpscAction μ) := .poll :: List.replicate 8 (.consume false)

/-- Messages come out in the order of their positions and with what was committed, each is
acknowledged once unless it is still queued, and the one at the head is what `Poll` returns. No
aborted position comes out, no two unfinished reservations have one slot, and the consumer
cursor is behind all of them. -/
structure Fifo (crc : SlotCrc μ) (s : MpscSystem μ) : Prop where
  polledInOrder : (s.log.filterMap MpscEvent.polledSequence).Pairwise (· ≤ ·)
  polledCommitted : ∀ p m, .polled p m ∈ s.log → .committed p m ∈ s.log
  committedOnce : ∀ p m m', .committed p m ∈ s.log → .committed p m' ∈ s.log → m = m'
  acknowledgedOnce : ∀ p m, .committed p m ∈ s.log →
    times MpscEvent.ackedSequence s.log p + (if s.consumerCursor ≤ p then 1 else 0) = 1
  acknowledgedPolled : ∀ p, .acked p ∈ s.log → ∃ m, .polled p m ∈ s.log
  /-- Nothing is returned again behind its acknowledgement. -/
  finished : s.log.Pairwise fun e e' => ∀ p m, e = .acked p → e' ≠ .polled p m
  headReturned : ∀ m, .committed s.consumerCursor m ∈ s.log → s.consumer = .idle →
    (run (step crc) s pollCalls).map log =
      some (s.log ++ [.polled s.consumerCursor m])
  abortedUnpolled : ∀ p m, .aborted p ∈ s.log → .polled p m ∉ s.log
  apart : ∀ t t' p p', t ≠ t' → (s.producers t).holds = some p →
    (s.producers t').holds = some p' → s.index p ≠ s.index p'
  behind : ∀ t p, (s.producers t).holds = some p → s.consumerCursor ≤ p

variable (crc) in
theorem run_pollCalls (hidle : s.consumer = .idle) (hne : s.consumerCursor ≠ s.reservationCursor)
    (hturn : (s.slotAt s.consumerCursor).turn = s.consumerCursor + 1)
    (hstate : (s.slotAt s.consumerCursor).state = .ready)
    (hseq : (s.slotAt s.consumerCursor).sequenceNum = s.consumerCursor)
    (hcrc : (s.slotAt s.consumerCursor).immutableMetadataCrc =
      crc s.consumerCursor (s.slotAt s.consumerCursor).content) : run (step crc) s pollCalls = some
      (s.emit (.polled s.consumerCursor (s.slotAt s.consumerCursor).content)) := by
  have hback : ({ s with consumer := .idle } : MpscSystem μ) = s := by
    rw [← hidle]
  simp only [slotAt, index] at hturn hstate hseq hcrc
  simp [pollCalls, List.replicate, run, step, hidle, consume, consumerAt, slotAt,
    index, emit, hne, hturn, hstate, hseq, hcrc]

theorem Inv.head_returned (h : Inv crc s) {m} (hm : .committed s.consumerCursor m ∈ s.log)
    (hidle : s.consumer = .idle) : (run (MpscSystem.step crc) s pollCalls).map log =
      some (s.log ++ [.polled s.consumerCursor m]) := by
  have hlt := h.queue.logged.committed_lt _ m hm
  have hahead : s.consumer.ahead = 0 := by rw [hidle]; rfl
  have hfrontier : s.ring.frontier = s.consumerCursor := by
    rw [h.queue.frontier, hahead, Nat.add_zero]
    rfl
  have hcom : MpscRing.Committed crc (s.ring.slotAt s.consumerCursor) s.log s.consumerCursor := by
    rcases h.queue.window _ (Nat.le_of_eq hfrontier) hlt with ⟨t, ht⟩ | htomb | hcom
    · exact absurd hm (((h.queue.each t).held _ ht).uncommitted m)
    · exact absurd hm (h.queue.logged.apart _ m htomb.logged)
    · exact hcom
  rw [← slotAt_eq h.capacity] at hcom
  rw [run_pollCalls crc hidle (Nat.ne_of_lt hlt) hcom.turn hcom.state hcom.sequenceNum hcom.sealed,
    h.queue.logged.committedOnce _ m _ hm hcom.logged]
  rfl

theorem Inv.fifo (h : Inv crc s) (hdropped : ∀ p, .dropped p ∉ s.log) : Fifo crc s where
  polledInOrder := h.queue.logged.polledInOrder
  polledCommitted := h.queue.logged.polledCommitted
  committedOnce := h.queue.logged.committedOnce
  acknowledgedOnce p m hp := by
    have honce := h.accounted.once p m hp
    have hzero : times droppedSequence s.log p = 0 := by
      refine times_eq_zero fun e he hs => ?_
      cases e with
      | dropped q => exact hdropped q he
      | _ => cases hs
    omega
  acknowledgedPolled := h.queue.logged.ackedPolled
  finished := h.queue.logged.finished
  headReturned _ hm hidle := h.head_returned hm hidle
  abortedUnpolled p m hab hpolled :=
    h.queue.logged.apart p m (h.queue.logged.abortedTombstoned p hab)
      (h.queue.logged.polledCommitted p m hpolled)
  apart t t' p p' hne ht ht' hindex := by
    have hp := (h.queue.each t).held p ht
    have hp' := (h.queue.each t').held p' ht'
    rw [index_eq h.capacity, index_eq h.capacity] at hindex
    refine h.queue.window_ne hp.le hp.lt hp'.le hp'.lt ?_ hindex
    rintro rfl
    exact hne (h.queue.holdsAlone t t' p ht ht')
  behind t p ht := Nat.le_trans (Nat.le_add_right _ _) ((h.queue.each t).held p ht).le

/-! ### Producers that drop nothing -/

/-- A producer that has not asked for the oldest message to be dropped. -/
def Undropping : MpscProducer → Prop
  | .loading request | .probing request _ | .blocked request _ | .sampling request
  | .drawing request _ | .redrawing request _ | .tagging request _ _ | .sequencing request _ _
  | .identifying request _ _ | .timing request _ _ | .owning request _ _ | .advancing request _ _
  | .yielding request _ _ => request.policy ≠ some .dropOldest
  | .dropLoading _ | .dropProbing _ _ | .dropChecking _ _ | .dropAdvancing _ _
  | .dropRetiring _ _ | .dropReleasing _ _ _ | .dropComparing _ _ _ _ | .dropFreeing _ _ _ _ =>
    False
  | _ => True

/-- Nothing is dropped in the state, and nothing will be. -/
structure Kept (s : MpscSystem μ) : Prop where
  producers : ∀ t, Undropping (s.producers t)
  log : ∀ p, .dropped p ∉ s.log

theorem Kept.move (h : Kept s)
    (hproducers : s'.producers = update s.producers t l) (hl : Undropping l)
    (hlog : ∀ p, .dropped p ∈ s'.log → .dropped p ∈ s.log) : Kept s' := by
  refine ⟨fun u => ?_, fun p hp => h.log p (hlog p hp)⟩
  rw [hproducers]
  exact MpscRing.forall_update hl (fun u _ => h.producers u) u

theorem Kept.same (h : Kept s) (hproducers : s'.producers = s.producers)
    (hlog : ∀ p, .dropped p ∈ s'.log → .dropped p ∈ s.log) : Kept s' :=
  ⟨fun u => by rw [hproducers]; exact h.producers u, fun p hp => h.log p (hlog p hp)⟩

theorem dropped_of_append {e} {log : List (MpscEvent μ)}
    (he : ∀ p, e ≠ .dropped p) (p : Nat) (h : .dropped p ∈ log ++ [e]) : .dropped p ∈ log := by
  rcases mem_or_eq h with h | h
  · exact h
  · exact absurd h.symm (he p)

section

variable (h : Kept s)
include h

theorem Kept.claimNext {nowNs}
    (hstep : s.claimNext t nowNs (s.producers t) = some s') : Kept s' := by
  have hl := h.producers t
  generalize s.producers t = l at hstep hl
  cases l <;> simp only [MpscSystem.claimNext] at hstep <;> repeat' split at hstep
  all_goals cases hstep
  all_goals first
    | exact h.move rfl hl fun _ hp => hp
    | exact h.move rfl trivial
        (dropped_of_append fun p => by rintro ⟨⟩)

theorem Kept.ownNext (hstep : s.ownNext t (s.producers t) = some s') : Kept s' := by
  generalize s.producers t = l at hstep
  cases l <;> simp only [MpscSystem.ownNext] at hstep <;> repeat' split at hstep
  all_goals cases hstep
  all_goals first
    | exact h.move rfl trivial (dropped_of_append fun p => by rintro ⟨⟩)
    | exact h.move rfl trivial fun _ hp => hp

theorem Kept.refuse (t : Nat) (status : Status) : Kept (s.refuse t status) :=
  h.move rfl trivial (dropped_of_append fun p => by rintro ⟨⟩)

theorem Kept.fullNext
    (hstep : s.fullNext t observed spuriousFailure (s.producers t) = some s') : Kept s' := by
  have hl := h.producers t
  generalize s.producers t = l at hstep hl
  cases l with
  | blocked request res =>
    cases hstep
    change request.policy ≠ some .dropOldest at hl
    unfold onFull
    split
    · exact h.refuse t _
    · exact h.refuse t _
    · exact h.move rfl hl fun _ hp => hp
    · exact h.refuse t _
    · exact absurd (by assumption) hl
    · exact h.move rfl hl fun _ hp => hp
  | sampling request =>
    rcases sampling_cases hstep with ⟨status, rfl⟩ | rfl
    · exact h.refuse t _
    · exact h.move rfl hl fun _ hp => hp
  | _ => first | exact hl.elim | cases hstep

theorem Kept.produceCall (hcalls : action.CallsUndropping)
    (hstep : produceCall crc s t action = some s') : Kept s' := by
  cases action with
  | reserve _ request =>
    cases hl : s.producers t <;> simp only [produceCall, hl] at hstep <;> cases hstep
    exact h.move rfl hcalls fun _ hp => hp
  | fill _ content =>
    cases hl : s.producers t <;> simp only [produceCall, hl] at hstep <;> cases hstep
    exact h.same rfl fun _ hp => hp
  | commit _ =>
    cases hl : s.producers t <;> simp only [produceCall, hl] at hstep <;> cases hstep
    exact h.move rfl trivial fun _ hp => hp
  | abort _ =>
    cases hl : s.producers t <;> simp only [produceCall, hl] at hstep
    case reserved res =>
      repeat' split at hstep
      all_goals cases hstep
      · exact h.move rfl trivial (dropped_of_append fun p => by rintro ⟨⟩)
      · exact h.move rfl trivial fun _ hp => hp
      · exact h.move rfl trivial (dropped_of_append fun p => by rintro ⟨⟩)
    all_goals cases hstep
  | produce => exact produce_elim hstep h.claimNext h.ownNext h.fullNext
  | _ => cases hstep

theorem Kept.consume (hstep : MpscSystem.consume crc s spuriousFailure = some s') : Kept s' := by
  cases hl : s.consumer <;> simp only [MpscSystem.consume, hl] at hstep <;> repeat' split at hstep
  all_goals cases hstep
  all_goals first
    | exact h.same rfl fun _ hp => hp
    | exact h.same rfl (dropped_of_append fun p => by rintro ⟨⟩)
    | (rename_i next; cases next <;> first
        | exact h.same rfl fun _ hp => hp
        | exact h.same rfl (dropped_of_append fun p => by rintro ⟨⟩))
    | (rename_i next _ _; cases next <;> exact h.same rfl fun _ hp => hp)

theorem Kept.step (hcalls : action.CallsUndropping)
    (hstep : step crc s action = some s') : Kept s' := by
  cases action with
  | poll =>
    obtain ⟨-, rfl⟩ := poll_ok hstep
    exact h.same rfl fun _ hp => hp
  | ack sequence =>
    obtain ⟨-, -, rfl | ⟨-, rfl⟩⟩ := ack_ok hstep
    · exact h.same rfl (dropped_of_append fun p => by rintro ⟨⟩)
    · exact h.same rfl fun _ hp => hp
  | consume spuriousFailure => exact h.consume hstep
  | scan t | recover t nowNs leaseNs probedDead => exact hcalls.elim
  | die process =>
    cases hstep
    exact h.same rfl fun _ hp => hp
  | _ => exact h.produceCall hcalls (Option.ite_none_right_eq_some.mp hstep).2

theorem Kept.dropSettled (action : MpscAction μ) : DropSettled s action := by
  unfold DropSettled
  split
  · rename_i t _ _ _
    have hl := h.producers t
    split
    · rename_i heq
      rw [heq] at hl
      exact hl.elim
    · trivial
  · trivial

end

theorem Kept.init (h : MpscSystem.init emptyContent process base capacity = .ok s) : Kept s := by
  unfold MpscSystem.init at h
  repeat' split at h
  all_goals cases h
  exact ⟨fun _ => trivial, by rintro _ ⟨⟩⟩

end MpscSystem

end Mino.Shm
