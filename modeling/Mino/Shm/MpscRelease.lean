import Mino.Shm.MpscClaims
import Mino.Shm.MpscDelivery

/-! # Slots are released for the next lap

Under `AbortReturned` every claim word has an owner that will free it, so that an empty ring
without a call in progress has no claim left and every slot is free for its next position.
Without it the last store of `Abort` brings a claim back that nobody frees. -/

namespace Mino.Shm.MpscSystem

open Function Interleaving MpscSystem

variable {μ : Type} {crc : SlotCrc μ} {s s' : MpscSystem μ} {t p : Nat}

/-! ### Steps -/

section

variable (h : Claimed s) {spuriousFailure : Bool} {action : MpscAction μ}
include h

theorem Claimed.claimNext {nowNs l} (hl : s.producers t = l)
    (hstep : s.claimNext t nowNs l = some s') : Claimed s' := by
  have hown : ∀ {res claim l}, s.producers t = l → l.claims = some (res, claim) →
      (s.producers t).claims = some (res, claim) ∧ (s.metaAt res).claimControl = claim ∧
        claim ≠ .zero := by
    rintro res claim l rfl ht
    exact ⟨ht, (h.taken t res claim ht).1, (h.taken t res claim ht).2.1⟩
  cases l with
  | loading request =>
    cases hstep
    exact h.move hl rfl nofun
  | probing request res =>
    simp only [MpscSystem.claimNext] at hstep
    repeat' split at hstep
    all_goals
      cases hstep
      exact h.move hl rfl nofun
  | drawing request res =>
    have hdrawn : Claimed s.drawToken := h.same rfl
    simp only [MpscSystem.claimNext] at hstep
    split at hstep
    all_goals
      cases hstep
      exact hdrawn.move hl rfl nofun
  | redrawing request res =>
    have hdrawn : Claimed s.drawToken := h.same rfl
    cases hstep
    exact hdrawn.move hl rfl nofun
  | tagging request res token =>
    simp only [MpscSystem.claimNext] at hstep
    split at hstep
    · rename_i hzero
      cases hstep
      exact h.store (h.alone_of_zero (by rw [hl]; rfl) hzero) rfl
        (Claim.makeInitialClaim_ne_zero _ _) rfl nofun
    · cases hstep
      exact h.move hl rfl nofun
  | sequencing request res claim =>
    obtain ⟨ht, hword, hne⟩ := hown hl rfl
    cases hstep
    refine h.store (h.alone_of_taken ht) rfl hne hword ?_
    rintro q ⟨⟩
    exact ⟨rfl, rfl⟩
  | identifying request res claim | timing request res claim =>
    obtain ⟨ht, hword, hne⟩ := hown hl rfl
    cases hstep
    refine h.store (h.alone_of_taken ht) rfl hne hword ?_
    rintro q ⟨⟩
    exact ⟨rfl, h.sequenced t res (by rw [hl]; rfl)⟩
  | owning request res claim =>
    obtain ⟨ht, hword, hne⟩ := hown hl rfl
    simp only [MpscSystem.claimNext, hword, if_true] at hstep
    cases hstep
    refine h.store (h.alone_of_taken ht) rfl (claim.withClaimPhase_ne_zero nofun) rfl ?_
    rintro q ⟨⟩
    exact ⟨rfl, h.sequenced t res (by rw [hl]; rfl)⟩
  | advancing request res claim =>
    simp only [MpscSystem.claimNext] at hstep
    split at hstep
    · rename_i heq
      cases hstep
      subst heq
      exact (h.reserve hl).same rfl
    · cases hstep
      exact h.move hl rfl nofun
  | yielding request claim res =>
    obtain ⟨ht, hword, hne⟩ := hown hl rfl
    simp only [MpscSystem.claimNext, hword, if_true] at hstep
    cases hstep
    exact h.giveBack ht rfl rfl
  | _ => cases hstep

/-- A position that the consumer has not marked free has a claim, and none it is freeing. -/
theorem Claimed.owns_of_frontier (hle : s.frontier ≤ p)
    (hlt : p < s.reservationCursor) : s.Owns p ∧ s.consumer.releases ≠ some p := by
  have hcons : s.consumerCursor ≤ p := Nat.le_trans (Nat.le_add_right _ _) hle
  refine ⟨⟨Nat.le_trans h.unreleased_le hcons, hlt⟩, fun hp => ?_⟩
  have := h.releasing p hp
  omega

theorem Claimed.ownNext (hinv : Inv crc s) (hburials : Burials s)
    (hstep : s.ownNext t (s.producers t) = some s') : Claimed s' := by
  -- the stores to the claim word are made by the holder of a position
  have hheld : ∀ {res claim l l₀}, s.producers t = l₀ → l₀.holds = some res → claim ≠ .zero →
      l.claims = l₀.claims → l.sequenced = none →
      Claimed ((s.setClaim (s.index res) claim).producerAt t l) := by
    rintro res claim l _ rfl hholds hne hclaims hseq
    have hat := (hinv.queue.each t).held res hholds
    obtain ⟨hown, hnot⟩ := h.owns_of_frontier hat.le hat.lt
    exact (h.restamp hown hne hnot).move rfl hclaims fun q hq => by rw [hseq] at hq; cases hq
  cases hl : s.producers t <;> rw [hl] at hstep
  case advanced res claim | opened res claim | marking res claim =>
    cases hstep
    exact hheld hl rfl (claim.withClaimPhase_ne_zero nofun) rfl rfl
  case unmarking res claim =>
    have hburies : (s.producers t).buries = some res := by rw [hl]; rfl
    have hlt := hinv.queue.logged.tombstoned_lt res ((hinv.queue.each t).buried res hburies)
    obtain ⟨hown, hnot⟩ := h.owns_of_frontier (hburials.pending t res hburies).1 hlt
    cases hstep
    have hstamped : Claimed (s.setClaim (s.index res) (claim.withClaimPhase .writing)) :=
      h.restamp hown (claim.withClaimPhase_ne_zero nofun) hnot
    exact (hstamped.move (l := .idle) hl rfl nofun).same rfl
  case numbering res claim =>
    cases hstep
    exact (h.move (l := .opening res claim) hl rfl nofun).same rfl
  case opening res claim =>
    cases hstep
    exact (h.move (l := .opened res claim) hl rfl nofun).same rfl
  case sealed res =>
    simp only [MpscSystem.ownNext] at hstep
    split at hstep <;> cases hstep
    · exact (h.move (l := .readied res) hl rfl nofun).same rfl
    · exact (h.move (l := .idle) hl rfl nofun).same rfl
  case readied res | tombstoned res =>
    cases hstep
    exact h.move hl rfl nofun
  case publishing res =>
    cases hstep
    exact (h.move (l := .idle) hl rfl nofun).same rfl
  all_goals cases hstep

theorem Claimed.refuse (status : Status) {l} (hl : s.producers t = l)
    (ht : l.claims = none) : Claimed (s.refuse t status) :=
  (h.move (l := .idle) hl ht.symm nofun).same rfl

theorem Claimed.fullNext (hkept : Kept s) {observed}
    (hstep : s.fullNext t observed spuriousFailure (s.producers t) = some s') : Claimed s' := by
  have hundropping := hkept.producers t
  cases hl : s.producers t with
  | blocked request res =>
    rw [hl] at hstep hundropping
    cases hstep
    unfold onFull
    split
    · exact h.refuse _ hl rfl
    · exact h.refuse _ hl rfl
    · exact h.move hl rfl nofun
    · exact h.refuse _ hl rfl
    · rename_i hpolicy
      exact absurd hpolicy hundropping
    · exact h.move hl rfl nofun
  | sampling request =>
    rw [hl] at hstep
    rcases sampling_cases hstep with ⟨status, rfl⟩ | rfl
    · exact h.refuse _ hl rfl
    · exact h.move hl rfl nofun
  | _ =>
    rw [hl] at hundropping hstep
    first | exact hundropping.elim | cases hstep

theorem Claimed.produceCall (hinv : Inv crc s) (hkept : Kept s) (hburials : Burials s)
    (hstep : produceCall crc s t action = some s') : Claimed s' := by
  cases action with
  | reserve _ request =>
    cases hl : s.producers t <;> simp only [produceCall, hl] at hstep <;> cases hstep
    exact h.move hl rfl nofun
  | fill _ content =>
    cases hl : s.producers t <;> simp only [produceCall, hl] at hstep <;> cases hstep
    exact h.same rfl
  | commit _ =>
    cases hl : s.producers t <;> simp only [produceCall, hl] at hstep
    case reserved res =>
      cases hstep
      exact (h.move (l := .sealed res) hl rfl nofun).same rfl
    all_goals cases hstep
  | abort _ =>
    cases hl : s.producers t <;> simp only [produceCall, hl] at hstep
    case reserved res =>
      repeat' split at hstep
      all_goals cases hstep
      · exact (h.move (l := .tombstoned res) hl rfl nofun).same rfl
      · exact h.move hl rfl nofun
      · exact (h.move (l := .idle) hl rfl nofun).same rfl
    all_goals cases hstep
  | produce => exact produce_elim hstep (h.claimNext rfl) (h.ownNext hinv hburials) (h.fullNext hkept)
  | _ => cases hstep

theorem Claimed.consume (hinv : Inv crc s)
    (hstep : MpscSystem.consume crc s spuriousFailure = some s') : Claimed s' := by
  have hreader := hinv.queue.reader
  cases hc : s.consumer <;> simp only [MpscSystem.consume, hc] at hstep
  case retiring cons next =>
    cases hstep
    exact (h.turnTo (c := .advancing cons next) hc rfl (by rintro _ _ ⟨⟩ ⟨⟩)).same rfl
  case advancing cons next =>
    rw [hc] at hreader
    obtain ⟨⟨rfl, hlt⟩, -⟩ := hreader
    cases hstep
    exact (h.pass next (by rw [hc]; rfl) hlt).same rfl
  case releasing cons next =>
    cases hstep
    refine h.turnTo hc rfl ?_
    rintro q claim ⟨⟩ ⟨⟩
    rfl
  case comparingClaim cons next claim =>
    have hcons : s.consumer.releases = some cons := by rw [hc]; rfl
    have hclaim := h.loaded cons claim hcons (by rw [hc]; rfl)
    obtain ⟨hne, hseq⟩ := h.owned cons (h.owns_releases hcons)
    rw [hclaim] at hne
    simp only [hseq, ne_eq, hne, not_false_eq_true, and_self, if_true] at hstep
    cases hstep
    refine h.turnTo hc rfl ?_
    rintro q claim' ⟨⟩ ⟨⟩
    exact hclaim
  case freeing cons next claim =>
    have hcons : s.consumer.releases = some cons := by rw [hc]; rfl
    split at hstep <;> cases hstep
    · cases next <;> exact h.free hcons rfl
    refine h.turnTo hc rfl ?_
    rintro q claim' ⟨⟩ ⟨⟩
    rfl
  all_goals
    repeat' split at hstep
    all_goals cases hstep
    all_goals first
      | exact h.turnTo hc rfl (by rintro _ _ ⟨⟩ ⟨⟩)
      | exact (h.turnTo (c := .idle) hc rfl (by rintro _ _ ⟨⟩ ⟨⟩)).same rfl

theorem Claimed.step (hinv : Inv crc s) (hkept : Kept s) (hburials : Burials s)
    (hcalls : action.CallsUndropping) (hstep : step crc s action = some s') : Claimed s' := by
  cases action with
  | poll =>
    obtain ⟨hc, rfl⟩ := poll_ok hstep
    exact h.turnTo hc rfl nofun
  | ack sequence =>
    obtain ⟨hc, -, rfl | ⟨-, rfl⟩⟩ := ack_ok hstep
    · exact h.same rfl
    · exact h.turnTo hc rfl nofun
  | consume spuriousFailure => exact h.consume hinv hstep
  | scan u | recover u nowNs leaseNs probedDead => exact hcalls.elim
  | die process =>
    cases hstep
    exact h.same rfl
  | _ => exact h.produceCall hinv hkept hburials (Option.ite_none_right_eq_some.mp hstep).2

end

theorem Claimed.init {emptyContent process base capacity}
    (hinit : MpscSystem.init emptyContent process base capacity = .ok s) : Claimed s := by
  have hinv : Inv (fun _ _ => 0) s := .init hinit
  have hpow := hinv.capacity
  unfold MpscSystem.init at hinit
  repeat' split at hinit
  all_goals cases hinit
  refine ⟨hpow, le_rfl, Nat.zero_le _, ?_, nofun, nofun, nofun, ?_, nofun, nofun⟩
  · rintro p ⟨-, hlt⟩
    exact absurd hlt (Nat.not_lt_zero p)
  · intro p hp
    exact absurd rfl hp

/-! ### An empty ring -/

attribute [local simp] producerAt consumerAt emit setMeta setSlot setReservationCursor
  setConsumerCursor drawToken setClaim setState update_apply index_mk slotAt_mk metaAt_mk alive_mk
  slots_index metas_index goOn List.replicate run step produceCall produce claimNext ownNext

/-- `Reserve` succeeds when the slot of the cursor is free and has no claim. -/
theorem exists_reserve (crc : SlotCrc μ) {request} (halive : s.alive t)
    (hidle : s.producers t = .idle) (hturn : (s.slotAt s.reservationCursor).turn =
    s.reservationCursor) (hclaim : (s.metaAt s.reservationCursor).claimControl = .zero) :
    ∃ n s', run (step crc) s (.reserve t request :: goOn t n) = some s' ∧
      s'.producers t = .reserved s.reservationCursor := by
  by_cases htoken : (s.tokens + 1) % 2 ^ 29 = 0
  · -- a token that is zero in the claim is drawn again
    have hdraw : run (step crc) (s.producerAt t (.drawing request s.reservationCursor))
        (goOn t 2) = some (s.drawToken.drawToken.producerAt t
          (.tagging request s.reservationCursor (s.tokens + 2))) := by
      simp only [Nat.reducePow] at htoken
      simp [halive, htoken]
    have htag : run (step crc) (s.drawToken.drawToken.producerAt t
        (.tagging request s.reservationCursor (s.tokens + 2))) (goOn t 6) = some _ :=
      run_tag (s := s.drawToken.drawToken) halive hclaim
    have hdrawing : run (step crc) s (.reserve t request :: goOn t 2) =
        some _ := run_draw halive hidle hturn
    have hrun := run_append_of_eq hdrawing (goOn t 2 ++ (goOn t 6 ++ goOn t 4))
    rw [run_append_of_eq hdraw, run_append_of_eq htag] at hrun
    exact ⟨14, _, hrun.trans (run_open s.reservationCursor _ halive (update_self ..)),
      update_self _ _ _⟩
  · exact ⟨13, s.reservedBy t, run_reserve halive hidle hturn hclaim htoken, update_self _ _ _⟩

/-- Producers with any policy but to drop the oldest message, and one consumer that acts on
kAborted only behind the return of `Abort`: when no producer is inside a call or holds a
reservation and the ring is empty, every slot is free for its next position and has no claim
but the one the consumer is about to free; and when the consumer is outside a call, the next
`Reserve` of any producer returns the next position. -/
theorem mpsc_run_released (crc : SlotCrc μ) {emptyContent : μ} {process : Nat → UInt32}
    {base capacity : Nat} {start : MpscSystem μ}
    (hinit : MpscSystem.init emptyContent process base capacity = .ok start)
    {actions : List (MpscAction μ)} (hcalls : ∀ a ∈ actions, a.CallsUndropping)
    (hreturned : Interleaving.Throughout (MpscSystem.step crc) AbortReturned start actions)
    (hrun : Interleaving.run (MpscSystem.step crc) start actions = some s)
    (hidle : ∀ t, s.producers t = .idle) (hempty : s.consumerCursor = s.reservationCursor) :
    (∀ p, s.reservationCursor ≤ p → p < s.reservationCursor + s.capacity →
      (s.slotAt p).turn = p ∧ ((s.metaAt p).claimControl = .zero ∨
        ∃ cons, s.consumer.releases = some cons ∧ p = cons + s.capacity)) ∧
    (s.consumer = .idle → ∀ t request, s.alive t → ∃ n s',
      Interleaving.run (MpscSystem.step crc) s (.reserve t request :: goOn t n) = some s' ∧
        s'.producers t = .reserved s.reservationCursor) := by
  obtain ⟨hinv, -, -, hclaimed⟩ : Inv crc s ∧ Kept s ∧ Burials s ∧ Claimed s := by
    refine Interleaving.invariant_of_step (I := fun s => Inv crc s ∧ Kept s ∧ Burials s ∧ Claimed s)
      (G := fun s a => a.CallsUndropping ∧ AbortReturned s a) ?_
      ⟨.init hinit, .init hinit, .init hinit, .init hinit⟩ (hreturned.and_forall hcalls) hrun
    rintro x a x' ⟨hinv, hkept, hburials, hclaimed⟩ ⟨hcall, hret⟩ hstep
    exact ⟨hinv.step hcall.calls (hret.tombstoneCurrent hinv) (hkept.dropSettled a) hstep,
      hkept.step hcall hstep, hburials.step hinv hkept hcall hret hstep,
      hclaimed.step hinv hkept hburials hcall hstep⟩
  have hslots : ∀ p, s.reservationCursor ≤ p → p < s.reservationCursor + s.capacity →
      (s.slotAt p).turn = p ∧ ((s.metaAt p).claimControl = .zero ∨
        ∃ cons, s.consumer.releases = some cons ∧ p = cons + s.capacity) := by
    intro p hle hlt
    refine ⟨?_, ?_⟩
    · have hfrontier : s.ring.frontier = s.ring.cons + s.consumer.ahead := hinv.queue.frontier
      rw [slotAt_eq hinv.capacity]
      rcases hinv.queue.free p hle (by
        change p < s.consumerCursor + s.consumer.ahead + s.capacity; omega) with hturn | ⟨t, q, ht, -⟩
      · exact hturn
      · rw [hidle t] at ht
        cases ht
    by_cases hzero : (s.metaAt p).claimControl = .zero
    · exact .inl hzero
    rcases hclaimed.whose p hzero with ⟨q, ⟨hq, hq'⟩, hindex⟩ | ⟨t, q, claim, ht, -⟩
    · cases hc : s.consumer.releases with
      | none =>
        rw [unreleased, hc] at hq
        change s.consumerCursor ≤ q at hq
        omega
      | some cons =>
        have hsucc := hclaimed.releasing cons hc
        rw [unreleased, hc] at hq
        change cons ≤ q at hq
        obtain rfl : q = cons := by omega
        refine .inr ⟨q, rfl, ?_⟩
        by_contra hne
        rw [index_eq hclaimed.pow, index_eq hclaimed.pow] at hindex
        exact mod_ne_of_lt (show q < p by omega) (by omega) hindex.symm
    · rw [hidle t] at ht
      cases ht
  refine ⟨hslots, fun hc t request halive => ?_⟩
  obtain ⟨hturn, hclaim⟩ := hslots s.reservationCursor (Nat.le_refl _)
    (by have := hclaimed.capacity_pos; omega)
  refine exists_reserve crc halive (hidle t) hturn (hclaim.resolve_right ?_)
  rintro ⟨cons, hcons, -⟩
  rw [hc] at hcons
  cases hcons

/-- One position is reserved, aborted and skipped; the rest of the calls follows. -/
def oneTombstone : List (MpscAction Nat) := round 0

theorem mpsc_run_released_tombstone : ∃ s : MpscSystem Nat,
    Interleaving.run (MpscSystem.step fun _ _ => 0) sixtyFourSlots oneTombstone = some s ∧
      .skipped 0 ∈ s.log ∧ (s.metaAt 64).claimControl = .zero ∧ (s.slotAt 64).turn = 64 := by
  have hrest : Rested 0 sixtyFourSlots := .init init_sixtyFourSlots
  have hcalls : ∀ a ∈ oneTombstone, a.CallsUndropping := by decide +kernel
  have hreturned : Interleaving.Throughout
      (MpscSystem.step fun _ _ => 0) AbortReturned sixtyFourSlots oneTombstone := by decide +kernel
  have hrun : Interleaving.run (MpscSystem.step fun _ _ => 0) sixtyFourSlots oneTombstone =
      some (sixtyFourSlots.roundedBy 0) := hrest.run_round (by decide)
  have hidle : ∀ t, (sixtyFourSlots.roundedBy 0).producers t = .idle := fun t => by
    by_cases ht : t = 0
    · subst ht
      exact hrest.next.producer
    · exact roundedBy_around.producers t ht
  obtain ⟨hslots, -⟩ :=
    mpsc_run_released (fun _ _ => 0) init_sixtyFourSlots hcalls hreturned hrun hidle
    hrest.next.even
  obtain ⟨hturn, hclaim⟩ := hslots 64 (by decide) (by decide)
  refine ⟨_, hrun, by decide, hclaim.resolve_right ?_, hturn⟩
  rintro ⟨cons, hcons, -⟩
  rw [hrest.next.consumer] at hcons
  cases hcons

/-- The producer is stopped inside `Abort`, before its last store, while the consumer skips
the tombstone. -/
def lateUnmarking (t : Nat) : List (MpscAction μ) :=
  (.reserve t ⟨none, 1⟩ :: goOn t 13) ++ ((.abort t :: goOn t 1) ++ ((.poll :: readOn 11) ++ goOn t 1))

/-- `Abort` up to its last store. -/
theorem run_bury (halive : s.alive t) (hstate : (s.slotAt p).state = .writing) :
    run (step crc) (s.producerAt t (.reserved p)) (.abort t :: goOn t 1) =
      some (((s.setSlot (s.index p) fun slot => { slot with state := .aborted }).emit
        (.tombstoned p)).producerAt t (.unmarking p (s.metaAt p).claimControl)) := by
  simp [halive, hstate]

theorem run_unmark (claim : Claim) (halive : s.alive t) (ht : s.producers t = .unmarking p claim) :
    run (step crc) s (goOn t 1) =
      some (((s.setClaim (s.index p) (claim.withClaimPhase .writing)).producerAt t .idle).emit
        (.aborted p)) := by
  simp [halive, ht]

theorem claimControl_setClaim_ne_zero (s : MpscSystem μ) (p : Nat) {claim}
    (h : claim ≠ .zero) : ((s.setClaim (s.index p) claim).metaAt p).claimControl ≠ .zero := by
  rw [setClaim, metaAt_setMeta_of_eq _ rfl]
  exact h

variable (crc) in
/-- `Abort` stores the claim behind its release by the consumer: all calls have returned and
the ring is empty, but the slot has a claim. -/
theorem Rested.run_lateUnmarking (h : Rested t s) (hlt : s.reservationCursor + 1 < 2 ^ 29) :
    ∃ s', run (step crc) s (lateUnmarking t) = some s' ∧
      s'.producers t = .idle ∧ (∀ u, u ≠ t → s'.producers u = s.producers u) ∧
      s'.consumer = .idle ∧ s'.consumerCursor = s'.reservationCursor ∧
      (s'.metaAt s.reservationCursor).claimControl ≠ .zero := by
  obtain ⟨hturn, hclaim, htoken⟩ := h.ready hlt
  have halive := h.alive
  rw [lateUnmarking, run_append_of_eq (run_reserve h.alive h.producer hturn hclaim htoken),
    reservedBy, run_append_of_eq (run_bury (by simpa using halive) (by simp)),
    run_append_of_eq (run_skip (by exact h.consumer) (by simp [h.even])
      (by simp [h.even]) (by simp [h.even, Claim.zero]) (by simp [h.even])),
    run_unmark (p := s.reservationCursor) _ (by exact halive) (by exact update_self _ _ _)]
  refine ⟨_, rfl, update_self _ _ _, fun u hu => ?_, rfl, congrArg (· + 1) h.even, ?_⟩
  · simp only [producerAt, consumerAt, emit, setConsumerCursor, setReservationCursor, setSlot,
      setClaim, setMeta, drawToken, update_of_ne hu]
  · exact claimControl_setClaim_ne_zero _ _ (Claim.withClaimPhase_ne_zero _ (by simp))

/-- All calls have returned, the ring is empty, and slot 0 has a claim that no call will free. -/
theorem claim_left_behind : ∃ s : MpscSystem Nat,
    Interleaving.run (MpscSystem.step fun _ _ => 0) sixtyFourSlots (lateUnmarking 0) = some s ∧
      (∀ a ∈ lateUnmarking 0, MpscAction.CallsUndropping (μ := Nat) a) ∧
      (∀ t, s.producers t = .idle) ∧ s.consumer = .idle ∧
      s.consumerCursor = s.reservationCursor ∧ (s.metaAt 0).claimControl ≠ .zero := by
  have hrest : Rested 0 sixtyFourSlots := .init init_sixtyFourSlots
  obtain ⟨s, hrun, hproducer, hothers, hconsumer, hempty, hclaim⟩ :=
    hrest.run_lateUnmarking (fun _ _ => 0) (by decide)
  refine ⟨s, hrun, by decide +kernel, fun t => ?_, hconsumer, hempty, hclaim⟩
  by_cases ht : t = 0
  · exact ht ▸ hproducer
  · exact hothers t ht

end Mino.Shm.MpscSystem
