import Mino.Shm.MpscQueue

/-! # Tombstones whose `Abort` has not returned

`Abort` stores the claim word once more behind the kAborted that the consumer may act on. As
long as the consumer acts on it only when `Abort` has returned, a position is not retired
while its producer has that store before it. -/

namespace Mino.Shm.MpscSystem

open Function Interleaving

variable {μ : Type} {crc : SlotCrc μ} {s s' : MpscSystem μ}

/-- When the consumer loads kAborted, the `Abort` of the position it is at has returned. -/
def AbortReturned (s : MpscSystem μ) (action : MpscAction μ) : Prop :=
  match action, s.consumer with
  | .consume _, .judging cons _ => (s.slotAt cons).state = .aborted → .aborted cons ∈ s.log
  | _, _ => True

instance [DecidableEq μ] (s : MpscSystem μ) (action : MpscAction μ) :
    Decidable (AbortReturned s action) :=
  decidable_of_iff ((match action, s.consumer with
    | .consume _, .judging cons _ =>
      (s.slotAt cons).state ≠ .aborted || s.log.contains (.aborted cons)
    | _, _ => true) = true) (by unfold AbortReturned; split <;> simp [imp_iff_not_or])

variable {action : MpscAction μ} {t : Nat}

theorem AbortReturned.tombstoneCurrent (h : Inv crc s) (hret : AbortReturned s action) :
    TombstoneCurrent s action := by
  unfold AbortReturned at hret
  unfold TombstoneCurrent
  split
  · rename_i hc
    simp only [hc] at hret
    exact fun hstate => h.queue.logged.abortedTombstoned _ (hret hstate)
  · trivial

/-- The first position that the consumer has not marked free. -/
def frontier (s : MpscSystem μ) : Nat := s.consumerCursor + s.consumer.ahead

structure Burials (s : MpscSystem μ) : Prop where
  pending : ∀ t p, (s.producers t).buries = some p → s.frontier ≤ p ∧ .aborted p ∉ s.log
  alone : ∀ t u p, (s.producers t).buries = some p → (s.producers u).buries = some p → t = u
  skipping : ∀ cons, s.consumer = .retiring cons .poll ∨ s.consumer = .advancing cons .poll →
    .aborted cons ∈ s.log

/-- A producer goes on, the consumer stays, and no `Abort` returns. -/
theorem Burials.move (h : Burials s) {l} (hproducers : s'.producers =
    update s.producers t l) (hl : l.buries = none ∨ l.buries = (s.producers t).buries)
    (hcons : s'.consumerCursor = s.consumerCursor) (hconsumer : s'.consumer = s.consumer)
    (hlog : ∀ p, .aborted p ∈ s'.log ↔ .aborted p ∈ s.log) : Burials s' := by
  have hold : ∀ u p, (s'.producers u).buries = some p → (s.producers u).buries = some p := by
    intro u p hu
    rw [hproducers] at hu
    rcases of_update hu with ⟨rfl, hnew⟩ | ⟨-, hu⟩
    · rcases hl with hl | hl
      · rw [hl] at hnew
        cases hnew
      · exact hl ▸ hnew
    · exact hu
  refine ⟨fun u p hu => ?_, fun u v p hu hv => h.alone u v p (hold u p hu) (hold v p hv),
    fun cons hc => (hlog cons).mpr (h.skipping cons (hconsumer ▸ hc))⟩
  rw [hlog, frontier, hcons, hconsumer]
  exact h.pending u p (hold u p hu)

theorem aborted_append_iff {e} {log : List (MpscEvent μ)}
    (he : ∀ p, e ≠ .aborted p) (p : Nat) : .aborted p ∈ log ++ [e] ↔ .aborted p ∈ log := by
  simp [Ne.symm (he p)]

section

variable (h : Burials s) {spuriousFailure : Bool}
include h

theorem Burials.claimNext {nowNs}
    (hstep : s.claimNext t nowNs (s.producers t) = some s') : Burials s' := by
  generalize s.producers t = l at hstep
  cases l <;> simp only [MpscSystem.claimNext] at hstep <;> repeat' split at hstep
  all_goals cases hstep
  all_goals first
    | exact h.move rfl (.inl rfl) rfl rfl fun _ => Iff.rfl
    | exact h.move rfl (.inl rfl) rfl rfl (aborted_append_iff (by simp))

theorem Burials.refuse (t : Nat) (status : Status) : Burials (s.refuse t status) :=
  h.move (t := t) rfl (.inl rfl) rfl rfl (aborted_append_iff nofun)

theorem Burials.abort {q claim} (ht : s.producers t = .unmarking q claim) :
    Burials (((s.setClaim (s.index q) (claim.withClaimPhase .writing)).producerAt t .idle).emit
      (.aborted q)) := by
  have hold : ∀ u p, (update s.producers t MpscProducer.idle u).buries = some p →
      u ≠ t ∧ (s.producers u).buries = some p := by
    intro u p hu
    rcases of_update hu with ⟨-, hu⟩ | hu
    · cases hu
    · exact hu
  refine ⟨fun u p hu => ?_, fun u v p hu hv => h.alone u v p (hold u p hu).2 (hold v p hv).2,
    fun cons hc => List.mem_append_left _ (h.skipping cons hc)⟩
  obtain ⟨hut, hu⟩ := hold u p hu
  obtain ⟨hle, hab⟩ := h.pending u p hu
  refine ⟨hle, fun hmem => ?_⟩
  rcases EventLog.mem_or_eq hmem with hmem | heq
  · exact hab hmem
  · cases heq
    exact hut (h.alone u t _ hu (by rw [ht]; rfl))

theorem Burials.ownNext (hstep : s.ownNext t (s.producers t) = some s') : Burials s' := by
  cases hl : s.producers t with
  | tombstoned res =>
    rw [hl] at hstep
    cases hstep
    exact h.move rfl (.inr (by rw [hl]; rfl)) rfl rfl fun _ => Iff.rfl
  | unmarking res claim =>
    rw [hl] at hstep
    cases hstep
    exact h.abort hl
  | _ =>
    simp only [hl, MpscSystem.ownNext] at hstep
    repeat' split at hstep
    all_goals cases hstep
    all_goals first
      | exact h.move rfl (.inl rfl) rfl rfl fun _ => Iff.rfl
      | exact h.move rfl (.inl rfl) rfl rfl (aborted_append_iff (by simp))

theorem Burials.fullNext (hkept : Kept s) {observed}
    (hstep : s.fullNext t observed spuriousFailure (s.producers t) = some s') : Burials s' := by
  have hl := hkept.producers t
  generalize s.producers t = l at hstep hl
  cases l with
  | blocked request res =>
    cases hstep
    unfold onFull
    split
    · exact h.refuse _ _
    · exact h.refuse _ _
    · exact h.move rfl (.inl rfl) rfl rfl fun _ => Iff.rfl
    · exact h.refuse _ _
    · rename_i hpolicy
      exact absurd hpolicy hl
    · exact h.move rfl (.inl rfl) rfl rfl fun _ => Iff.rfl
  | sampling request =>
    rcases sampling_cases hstep with ⟨status, rfl⟩ | rfl
    · exact h.refuse _ _
    · exact h.move rfl (.inl rfl) rfl rfl fun _ => Iff.rfl
  | _ => first | exact hl.elim | cases hstep

theorem Burials.bury (hinv : Inv crc s)
    (hstep : produceCall crc s t (.abort t) = some s') : Burials s' := by
  cases hl : s.producers t with
  | reserved res =>
    have hheld := (hinv.queue.each t).held res (by rw [hl]; rfl)
    have hw := hheld.written
    rw [hl, ← slotAt_eq hinv.capacity] at hw
    simp only [produceCall, hl, hw.2, if_true] at hstep
    cases hstep
    have hnone : ∀ u, (s.producers u).buries ≠ some res := fun u hu =>
      hheld.untombstoned ((hinv.queue.each u).buried res hu)
    have hcases : ∀ u p, (update s.producers t (MpscProducer.tombstoned res) u).buries =
        some p → (u = t ∧ p = res) ∨ (u ≠ t ∧ (s.producers u).buries = some p) := fun u p hu =>
      (of_update hu).imp_left fun hu => ⟨hu.1, (Option.some.inj hu.2).symm⟩
    have hlog : ∀ p, MpscEvent.aborted p ∈ s.log ++ [.tombstoned res] ↔ .aborted p ∈ s.log :=
      aborted_append_iff (by simp)
    refine ⟨fun u p hu => ?_, fun u v p hu hv => ?_,
      fun cons hc => (hlog cons).mpr (h.skipping cons hc)⟩
    · rcases hcases u p hu with ⟨rfl, rfl⟩ | ⟨-, hu⟩
      · exact ⟨hheld.le,
          fun hmem => hheld.untombstoned (hinv.queue.logged.abortedTombstoned _ ((hlog _).mp hmem))⟩
      · exact ⟨(h.pending u p hu).1, fun hmem => (h.pending u p hu).2 ((hlog _).mp hmem)⟩
    · rcases hcases u p hu with ⟨rfl, rfl⟩ | ⟨-, hu'⟩ <;>
        rcases hcases v _ hv with ⟨rfl, hp⟩ | ⟨-, hv'⟩
      · rfl
      · exact absurd hv' (hnone v)
      · exact absurd (hp ▸ hu') (hnone u)
      · exact h.alone u v p hu' hv'
  | _ => simp only [produceCall, hl] at hstep; cases hstep

theorem Burials.produceCall (hinv : Inv crc s) (hkept : Kept s)
    (hstep : produceCall crc s t action = some s') : Burials s' := by
  cases action with
  | reserve _ request | commit _ =>
    cases hl : s.producers t <;> simp only [produceCall, hl] at hstep <;> cases hstep
    exact h.move rfl (.inl rfl) rfl rfl fun _ => Iff.rfl
  | fill _ content =>
    cases hl : s.producers t <;> simp only [produceCall, hl] at hstep <;> cases hstep
    exact ⟨h.pending, h.alone, h.skipping⟩
  | abort _ => exact h.bury hinv hstep
  | produce => exact produce_elim hstep h.claimNext h.ownNext (h.fullNext hkept)
  | _ => cases hstep

/-- The consumer goes on without marking a slot free. -/
theorem Burials.turnTo {c c'} (hproducers : s'.producers = s.producers)
    (hconsumer : s'.consumer = c) (hc' : s.consumer = c') (hfrontier : s'.frontier =
    s.consumerCursor + c'.ahead) (hlog : ∀ p, .aborted p ∈ s'.log ↔ .aborted p ∈ s.log)
    (hskip : ∀ cons, c = .retiring cons .poll ∨ c = .advancing cons .poll → .aborted cons ∈ s.log) :
    Burials s' := by
  refine ⟨fun u p hu => ?_, fun u v p hu hv => ?_, fun cons hc => ?_⟩
  · rw [hproducers] at hu
    rw [hlog, hfrontier, ← hc']
    exact h.pending u p hu
  · rw [hproducers] at hu hv
    exact h.alone u v p hu hv
  · rw [hconsumer] at hc
    exact (hlog cons).mpr (hskip cons hc)

/-- The consumer marks the slot at its cursor free: no `Abort` of that position is pending. -/
theorem Burials.mark (hinv : Inv crc s) {cons next} (hc : s.consumer = .retiring cons next) :
    Burials ((s.setTurn (s.index cons) (cons + s.capacity)).consumerAt (.advancing cons next)) := by
  have hreader := hinv.queue.reader
  rw [hc] at hreader
  obtain ⟨⟨hcons, -⟩, hnext⟩ := hreader
  have hne : ∀ u, (s.producers u).buries ≠ some cons := by
    intro u hu
    cases next with
    | poll => exact (h.pending u cons hu).2 (h.skipping cons (.inl hc))
    | ack =>
      obtain ⟨m, hm⟩ := hnext
      exact hinv.queue.logged.apart cons m ((hinv.queue.each u).buried cons hu)
        (hinv.queue.logged.polledCommitted cons m hm)
    | corruption => exact hnext
  refine ⟨fun u p hu => ⟨?_, (h.pending u p hu).2⟩, h.alone, fun q hq => ?_⟩
  · have hle := (h.pending u p hu).1
    have hpne : p ≠ cons := fun heq => hne u (heq ▸ hu)
    change s.consumerCursor + 1 ≤ p
    change s.consumerCursor + s.consumer.ahead ≤ p at hle
    change cons = s.consumerCursor at hcons
    omega
  · rcases hq with hq | hq <;> cases hq
    exact h.skipping cons (.inl hc)

theorem Burials.consume (hinv : Inv crc s) (hret : AbortReturned s (.consume spuriousFailure))
    (hstep : MpscSystem.consume crc s spuriousFailure = some s') : Burials s' := by
  have hreader := hinv.queue.reader
  cases hc : s.consumer <;> simp only [MpscSystem.consume, hc] at hstep
  case retiring cons next =>
    cases hstep
    exact h.mark hinv hc
  case advancing cons next =>
    rw [hc] at hreader
    cases hstep
    refine h.turnTo rfl rfl hc ?_ (aborted_append_iff (by cases next <;> simp [retirement]))
      (by rintro _ (⟨⟨⟩⟩ | ⟨⟨⟩⟩))
    change cons + 1 + 0 = s.consumerCursor + 1
    rw [show cons = s.consumerCursor from hreader.1.1]
  case judging cons turn =>
    simp only [AbortReturned, hc] at hret
    split at hstep
    · rename_i hab
      cases hstep
      refine h.turnTo rfl rfl hc rfl (fun _ => Iff.rfl) ?_
      rintro q (⟨⟨⟩⟩ | ⟨⟨⟩⟩)
      exact hret hab
    · split at hstep <;> cases hstep
      · exact h.turnTo rfl rfl hc rfl (aborted_append_iff (by simp)) (by rintro _ (⟨⟨⟩⟩ | ⟨⟨⟩⟩))
      · exact h.turnTo rfl rfl hc rfl (fun _ => Iff.rfl) (by rintro _ (⟨⟨⟩⟩ | ⟨⟨⟩⟩))
  case comparingClaim cons next claim | freeing cons next claim =>
    cases next <;> split at hstep <;> cases hstep <;>
      exact h.turnTo rfl rfl hc rfl (fun _ => Iff.rfl) (by rintro _ (⟨⟨⟩⟩ | ⟨⟨⟩⟩))
  all_goals
    repeat' split at hstep
    all_goals cases hstep
    all_goals first
      | exact h.turnTo rfl rfl hc rfl (fun _ => Iff.rfl) (by rintro _ (⟨⟨⟩⟩ | ⟨⟨⟩⟩))
      | exact h.turnTo rfl rfl hc rfl (aborted_append_iff (by simp)) (by rintro _ (⟨⟨⟩⟩ | ⟨⟨⟩⟩))

theorem Burials.step (hinv : Inv crc s) (hkept : Kept s) (hcalls : action.CallsUndropping)
    (hret : AbortReturned s action) (hstep : step crc s action = some s') : Burials s' := by
  cases action with
  | poll =>
    obtain ⟨hc, rfl⟩ := poll_ok hstep
    exact h.turnTo rfl rfl hc rfl (fun _ => Iff.rfl) (by rintro _ (⟨⟨⟩⟩ | ⟨⟨⟩⟩))
  | ack sequence =>
    obtain ⟨hc, -, rfl | ⟨-, rfl⟩⟩ := ack_ok hstep
    · exact h.turnTo rfl hc rfl rfl (aborted_append_iff (by simp)) (by rintro _ (⟨⟨⟩⟩ | ⟨⟨⟩⟩))
    · exact h.turnTo rfl rfl hc rfl (fun _ => Iff.rfl) (by rintro _ (⟨⟨⟩⟩ | ⟨⟨⟩⟩))
  | consume spuriousFailure => exact h.consume hinv hret hstep
  | scan u | recover u nowNs leaseNs probedDead => exact hcalls.elim
  | die process =>
    cases hstep
    exact ⟨h.pending, h.alone, h.skipping⟩
  | _ => exact h.produceCall hinv hkept (Option.ite_none_right_eq_some.mp hstep).2

end

theorem Burials.init {emptyContent process base capacity}
    (h : MpscSystem.init emptyContent process base capacity = .ok s) : Burials s := by
  unfold MpscSystem.init at h
  repeat' split at h
  all_goals cases h
  exact ⟨nofun, nofun, nofun⟩

end Mino.Shm.MpscSystem
