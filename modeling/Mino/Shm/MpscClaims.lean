import Mino.Shm.MpscBurials

/-! # Who a claim word belongs to

A claim word that is not zero belongs to one position that is reserved and not released, or
to one producer that has taken it and not yet moved the reservation cursor. Tokens play no
part: a word is never given to a second owner before the first has stored zero. -/

namespace Mino.Shm

open Function Interleaving

theorem Claim.withClaimPhase_ne_zero {phase} (claim : Claim) (h : phase ≠ .none) :
    claim.withClaimPhase phase ≠ .zero := fun heq => h (congrArg Claim.phase heq)

theorem Claim.makeInitialClaim_ne_zero (processId : UInt32) (token : Nat) :
    makeInitialClaim processId token ≠ .zero := fun heq => nomatch congrArg Claim.phase heq

namespace MpscProducer

/-- The position a producer has claimed without having reserved it, and its claim. -/
def claims : MpscProducer → Option (Nat × Claim)
  | .sequencing _ res claim | .identifying _ res claim | .timing _ res claim
  | .owning _ res claim | .advancing _ res claim | .yielding _ claim res => some (res, claim)
  | _ => none

/-- The position whose claim sequence such a producer has stored. -/
def sequenced : MpscProducer → Option Nat
  | .identifying _ res _ | .timing _ res _ | .owning _ res _ | .advancing _ res _ => some res
  | _ => none

end MpscProducer

/-- The position whose claim the consumer is about to free. -/
def MpscConsumer.releases {μ : Type} : MpscConsumer μ → Option Nat
  | .releasing cons _ | .comparingClaim cons _ _ | .freeing cons _ _ => some cons
  | _ => none

/-- The claim that the consumer has loaded to free it. -/
def MpscConsumer.loaded {μ : Type} : MpscConsumer μ → Option Claim
  | .comparingClaim _ _ claim | .freeing _ _ claim => some claim
  | _ => none

namespace MpscSystem

variable {μ : Type} {crc : SlotCrc μ} {s s' : MpscSystem μ} {t p : Nat}

/-- The first position whose claim the consumer has not freed. -/
def unreleased (s : MpscSystem μ) : Nat := s.consumer.releases.getD s.consumerCursor

/-- A position that is reserved, with its claim not yet freed. -/
def Owns (s : MpscSystem μ) (p : Nat) : Prop := s.unreleased ≤ p ∧ p < s.reservationCursor

structure Claimed (s : MpscSystem μ) : Prop where
  pow : ∃ k, s.capacity = 2 ^ k
  le : s.consumerCursor ≤ s.reservationCursor
  room : s.reservationCursor ≤ s.unreleased + s.capacity
  owned : ∀ p, s.Owns p → (s.metaAt p).claimControl ≠ .zero ∧ (s.metaAt p).claimSequence = p
  taken : ∀ t p claim, (s.producers t).claims = some (p, claim) →
    (s.metaAt p).claimControl = claim ∧ claim ≠ .zero ∧ ∀ q, s.Owns q → s.index q ≠ s.index p
  sequenced : ∀ t p, (s.producers t).sequenced = some p → (s.metaAt p).claimSequence = p
  alone : ∀ t u p q claim claim', (s.producers t).claims = some (p, claim) →
    (s.producers u).claims = some (q, claim') → s.index p = s.index q → t = u
  whose : ∀ p, (s.metaAt p).claimControl ≠ .zero → (∃ q, s.Owns q ∧ s.index q = s.index p) ∨
    ∃ t q claim, (s.producers t).claims = some (q, claim) ∧ s.index q = s.index p
  releasing : ∀ cons, s.consumer.releases = some cons → cons + 1 = s.consumerCursor
  loaded : ∀ cons claim, s.consumer.releases = some cons → s.consumer.loaded = some claim →
    (s.metaAt cons).claimControl = claim

theorem Claimed.unreleased_le (h : Claimed s) : s.unreleased ≤ s.consumerCursor := by
  unfold unreleased
  cases hc : s.consumer.releases with
  | none => exact le_rfl
  | some cons =>
    have := h.releasing cons hc
    change cons ≤ s.consumerCursor
    omega

theorem Claimed.capacity_pos (h : Claimed s) : 0 < s.capacity := by
  obtain ⟨k, hk⟩ := h.pow
  rw [hk]
  exact Nat.two_pow_pos k

variable {q : Nat} {l l₀ : MpscProducer} {claim : Claim}

theorem Claimed.index_ne (h : Claimed s) (hp : s.Owns p) (hq : s.Owns q) (hne : p ≠ q) :
    s.index p ≠ s.index q := by
  have hroom := h.room
  obtain ⟨hp₁, hp₂⟩ := hp
  obtain ⟨hq₁, hq₂⟩ := hq
  rw [index_eq h.pow, index_eq h.pow]
  rcases Nat.lt_or_gt_of_ne hne with hlt | hlt
  · exact (mod_ne_of_lt hlt (by omega)).symm
  · exact mod_ne_of_lt hlt (by omega)

/-! ### Steps that leave the claims alone -/

/-- What `Claimed` is about stays as it is. -/
theorem Claimed.same (h : Claimed s) (hsame : s' = { s with
    tokens := s'.tokens, slots := s'.slots, process := s'.process, dead := s'.dead
    scanners := s'.scanners, log := s'.log }) : Claimed s' := by
  rw [hsame]
  exact ⟨h.pow, h.le, h.room, h.owned, h.taken, h.sequenced, h.alone, h.whose, h.releasing, h.loaded⟩

/-- A producer goes on with the claim it has, or without one. -/
theorem Claimed.move (h : Claimed s) (hl₀ : s.producers t = l₀) (hl : l.claims = l₀.claims)
    (hseq : ∀ q, l.sequenced = some q → l₀.sequenced = some q) : Claimed (s.producerAt t l) := by
  subst hl₀
  have hsame : ∀ u, ((s.producerAt t l).producers u).claims = (s.producers u).claims := by
    intro u
    by_cases hut : u = t
    · subst hut
      exact (congrArg MpscProducer.claims (update_self ..)).trans hl
    · exact congrArg MpscProducer.claims (update_of_ne hut ..)
  refine ⟨h.pow, h.le, h.room, h.owned, fun u q claim hu => h.taken u q claim (hsame u ▸ hu),
    fun u q hu => ?_, fun u v q r claim claim' hu hv =>
      h.alone u v q r claim claim' (hsame u ▸ hu) (hsame v ▸ hv),
    fun q hq => (h.whose q hq).imp id fun ⟨u, r, claim, hu, hindex⟩ =>
      ⟨u, r, claim, (hsame u).trans hu, hindex⟩, h.releasing, h.loaded⟩
  rcases of_update hu with ⟨-, hu⟩ | ⟨-, hu⟩
  · exact h.sequenced t q (hseq q hu)
  · exact h.sequenced u q hu

/-! ### Steps of a producer before the cursor moves -/

/-- The claim word at the slot of `p` is nobody's but producer `t`'s, and it has no other. -/
structure Alone (s : MpscSystem μ) (t p : Nat) : Prop where
  own : ∀ q claim, (s.producers t).claims = some (q, claim) → q = p
  owned : ∀ q, s.Owns q → s.index q ≠ s.index p
  taken : ∀ u q claim, u ≠ t → (s.producers u).claims = some (q, claim) → s.index q ≠ s.index p

/-- The claims on other slots are those of other producers. -/
theorem Alone.others (h : Alone s t p) (hindex : s.index q ≠ s.index p) :
    (∃ u r c, (s.producers u).claims = some (r, c) ∧ s.index r = s.index q) →
      ∃ u r c, (update s.producers t l u).claims = some (r, c) ∧ s.index r = s.index q := by
  rintro ⟨u, r, c, hu, hr⟩
  have hut : u ≠ t := by
    rintro rfl
    exact hindex (hr.symm.trans (congrArg s.index (h.own r c hu)))
  exact ⟨u, r, c, (congrArg _ (update_of_ne hut ..)).trans hu, hr⟩

theorem Claimed.alone_of_taken (h : Claimed s) (ht : (s.producers t).claims = some (p, claim)) :
    Alone s t p :=
  ⟨fun _ _ hq => (Prod.mk.inj (Option.some.inj (hq.symm.trans ht))).1,
    (h.taken t p claim ht).2.2, fun u q claim' hut hu hindex =>
    hut (h.alone u t q p claim' claim hu ht hindex)⟩

theorem metaAt_of_index (h : s.index q = s.index p) : s.metaAt q = s.metaAt p :=
  congrArg s.metas h

theorem Claimed.alone_of_zero (h : Claimed s) (ht : (s.producers t).claims = none)
    (hzero : (s.metaAt p).claimControl = .zero) : Alone s t p := by
  refine ⟨fun q claim hq => (by rw [ht] at hq; cases hq), fun q hq hindex => (h.owned q hq).1 ?_, fun u q claim _ hu hindex => ?_⟩
  · rw [metaAt_of_index hindex, hzero]
  obtain ⟨hword, hne, -⟩ := h.taken u q claim hu
  rw [metaAt_of_index hindex, hzero] at hword
  exact hne hword.symm

variable (f : MpscReservationMeta → MpscReservationMeta)

theorem metaAt_setMeta_of_ne
    (h : s.index q ≠ s.index p) : (s.setMeta (s.index p) f).metaAt q = s.metaAt q :=
  update_of_ne h _ _

theorem metaAt_setMeta_of_eq
    (h : s.index q = s.index p) : (s.setMeta (s.index p) f).metaAt q = f (s.metaAt p) := by
  change update s.metas (s.index p) (f (s.metas (s.index p))) (s.index q) = _
  rw [h, update_self]
  rfl

theorem Claimed.owns_releases (h : Claimed s) {cons} (hc : s.consumer.releases = some cons) :
    s.Owns cons := by
  have hsucc := h.releasing cons hc
  have hle := h.le
  refine ⟨?_, by omega⟩
  rw [unreleased, hc]
  exact le_rfl

theorem claims_of_sequenced (h : l.sequenced = some q) : ∃ claim, l.claims = some (q, claim) := by
  cases l <;> cases h <;> exact ⟨_, rfl⟩

section

variable (h : Claimed s)
include h

/-- A producer stores to the sidecar of the slot it has claimed, or takes the claim. -/
theorem Claimed.store {f} (halone : Alone s t p)
    (hl : l.claims = some (p, claim)) (hne : claim ≠ .zero) (hword : (f (s.metaAt p)).claimControl =
    claim) (hseq : ∀ q, l.sequenced = some q → q = p ∧ (f (s.metaAt p)).claimSequence = p) :
    Claimed ((s.setMeta (s.index p) f).producerAt t l) where
  pow := h.pow
  le := h.le
  room := h.room
  owned q hq := by
    change ((s.setMeta (s.index p) f).metaAt q).claimControl ≠ .zero ∧
      ((s.setMeta (s.index p) f).metaAt q).claimSequence = q
    rw [metaAt_setMeta_of_ne f (halone.owned q hq)]
    exact h.owned q hq
  taken u q claim' hu := by
    change ((s.setMeta (s.index p) f).metaAt q).claimControl = claim' ∧ _
    rcases of_update hu with ⟨-, hu⟩ | ⟨hut, hu⟩
    · obtain ⟨rfl, rfl⟩ := Prod.mk.inj (Option.some.inj (hl.symm.trans hu))
      rw [metaAt_setMeta_of_eq f rfl]
      exact ⟨hword, hne, halone.owned⟩
    · rw [metaAt_setMeta_of_ne f (halone.taken u q claim' hut hu)]
      exact h.taken u q claim' hu
  sequenced u q hu := by
    change ((s.setMeta (s.index p) f).metaAt q).claimSequence = q
    rcases of_update hu with ⟨-, hu⟩ | ⟨hut, hu⟩
    · obtain ⟨rfl, hstored⟩ := hseq q hu
      rw [metaAt_setMeta_of_eq f rfl]
      exact hstored
    · obtain ⟨claim', hclaims⟩ := claims_of_sequenced hu
      rw [metaAt_setMeta_of_ne f (halone.taken u q claim' hut hclaims)]
      exact h.sequenced u q hu
  alone u v q r c c' hu hv hindex := by
    rcases of_update hu with ⟨hut, hu⟩ | ⟨hut, hu⟩ <;>
      rcases of_update hv with ⟨hvt, hv⟩ | ⟨hvt, hv⟩
    · exact hut.trans hvt.symm
    · obtain ⟨rfl, -⟩ := Prod.mk.inj (Option.some.inj (hl.symm.trans hu))
      exact absurd hindex.symm (halone.taken v r c' hvt hv)
    · obtain ⟨rfl, -⟩ := Prod.mk.inj (Option.some.inj (hl.symm.trans hv))
      exact absurd hindex (halone.taken u q c hut hu)
    · exact h.alone u v q r c c' hu hv hindex
  whose q hq := by
    by_cases hindex : s.index q = s.index p
    · refine .inr ⟨t, p, claim, ?_, hindex.symm⟩
      change (update s.producers t l t).claims = _
      rw [update_self, hl]
    change ((s.setMeta (s.index p) f).metaAt q).claimControl ≠ .zero at hq
    rw [metaAt_setMeta_of_ne f hindex] at hq
    exact (h.whose q hq).imp id (halone.others hindex)
  releasing := h.releasing
  loaded cons c hc hload := by
    change ((s.setMeta (s.index p) f).metaAt cons).claimControl = c
    rw [metaAt_setMeta_of_ne f (halone.owned cons (h.owns_releases hc))]
    exact h.loaded cons c hc hload

theorem Claimed.giveBack (ht : (s.producers t).claims = some (p, claim)) (hl : l.claims = none)
    (hseq : l.sequenced = none) : Claimed ((s.setClaim (s.index p) .zero).producerAt t l) := by
  have halone := h.alone_of_taken ht
  have hother : ∀ u q c, (update s.producers t l u).claims = some (q, c) →
      u ≠ t ∧ (s.producers u).claims = some (q, c) := by
    intro u q c hu
    rcases of_update hu with ⟨-, hu⟩ | hu
    · rw [hl] at hu
      cases hu
    · exact hu
  have hmeta : ∀ q, s.index q ≠ s.index p →
      ((s.setClaim (s.index p) .zero).producerAt t l).metaAt q = s.metaAt q := fun q hq =>
    metaAt_setMeta_of_ne (fun sidecar => { sidecar with claimControl := .zero }) hq
  refine ⟨h.pow, h.le, h.room, fun q hq => ?_, fun u q c hu => ?_, fun u q hu => ?_,
    fun u v q r c c' hu hv => h.alone u v q r c c' (hother u q c hu).2 (hother v r c' hv).2,
    fun q hq => ?_, h.releasing, fun cons c hc hload => ?_⟩
  · rw [hmeta q (halone.owned q hq)]
    exact h.owned q hq
  · obtain ⟨hut, hu⟩ := hother u q c hu
    rw [hmeta q (halone.taken u q c hut hu)]
    exact h.taken u q c hu
  · rcases of_update hu with ⟨-, hu⟩ | ⟨hut, hu⟩
    · rw [hseq] at hu
      cases hu
    · obtain ⟨c, hclaims⟩ := claims_of_sequenced hu
      rw [hmeta q (halone.taken u q c hut hclaims)]
      exact h.sequenced u q hu
  · by_cases hindex : s.index q = s.index p
    · exact absurd (congrArg MpscReservationMeta.claimControl
        (metaAt_setMeta_of_eq (fun sidecar => { sidecar with claimControl := .zero }) hindex)) hq
    · rw [hmeta q hindex] at hq
      exact (h.whose q hq).imp id (halone.others hindex)
  · rw [hmeta cons (halone.owned cons (h.owns_releases hc))]
    exact h.loaded cons c hc hload

/-- The producer that has claimed the slot of the cursor reserves it. -/
theorem Claimed.reserve {request}
    (ht : s.producers t = .advancing request s.reservationCursor claim) :
    Claimed ((s.setReservationCursor (s.reservationCursor + 1)).producerAt t
      (.advanced s.reservationCursor claim)) := by
  have hclaims : (s.producers t).claims = some (s.reservationCursor, claim) := by rw [ht]; rfl
  have halone := h.alone_of_taken hclaims
  obtain ⟨hword, hne, -⟩ := h.taken t _ claim hclaims
  have howns : ∀ q, ((s.setReservationCursor (s.reservationCursor + 1)).producerAt t
      (.advanced s.reservationCursor claim)).Owns q → s.Owns q ∨ q = s.reservationCursor := by
    rintro q ⟨hle, hlt⟩
    rcases Nat.lt_or_eq_of_le (Nat.le_of_lt_succ hlt) with hlt | heq
    · exact .inl ⟨hle, hlt⟩
    · exact .inr heq
  have hother : ∀ u q c, (update s.producers t (MpscProducer.advanced s.reservationCursor claim)
      u).claims = some (q, c) → u ≠ t ∧ (s.producers u).claims = some (q, c) := by
    intro u q c hu
    rcases of_update hu with ⟨-, hu⟩ | hu
    · cases hu
    · exact hu
  have hle : s.unreleased ≤ s.reservationCursor := Nat.le_trans h.unreleased_le h.le
  refine ⟨h.pow, Nat.le_succ_of_le h.le, ?_, fun q hq => ?_, fun u q c hu => ?_, fun u q hu => ?_,
    fun u v q r c c' hu hv => h.alone u v q r c c' (hother u q c hu).2 (hother v r c' hv).2,
    fun q hq => ?_, h.releasing, h.loaded⟩
  · -- the slot of the cursor is none of a position that still has its claim
    change s.reservationCursor + 1 ≤ s.unreleased + s.capacity
    have hroom := h.room
    by_contra hfull
    have heq : s.reservationCursor = s.unreleased + s.capacity := by omega
    refine halone.owned s.unreleased ⟨le_rfl, ?_⟩ ?_
    · have hpos := h.capacity_pos
      omega
    · rw [index_eq h.pow, index_eq h.pow, heq, Nat.add_mod_right]
  · rcases howns q hq with hq | rfl
    · exact h.owned q hq
    · refine ⟨fun hzero => hne (hword.symm.trans hzero), h.sequenced t _ (by rw [ht]; rfl)⟩
  · obtain ⟨hut, hu⟩ := hother u q c hu
    obtain ⟨hw, hn, hown⟩ := h.taken u q c hu
    refine ⟨hw, hn, fun r hr => ?_⟩
    rcases howns r hr with hr | rfl
    · exact hown r hr
    · exact (halone.taken u q c hut hu).symm
  · rcases of_update hu with ⟨-, hu⟩ | ⟨-, hu⟩
    · cases hu
    · exact h.sequenced u q hu
  · rcases h.whose q hq with ⟨r, ⟨hr₁, hr₂⟩, hr⟩ | ⟨u, r, c, hu, hr⟩
    · exact .inl ⟨r, ⟨hr₁, Nat.lt_succ_of_lt hr₂⟩, hr⟩
    · by_cases hut : u = t
      · subst hut
        obtain rfl := halone.own r c hu
        exact .inl ⟨_, ⟨hle, Nat.lt_succ_self _⟩, hr⟩
      · refine .inr ⟨u, r, c, ?_, hr⟩
        change (update s.producers t _ u).claims = _
        rw [update_of_ne hut]
        exact hu

/-! ### Steps of the owner of a position, and of the consumer -/

/-- The claim word of a position that still has one is stored again. -/
theorem Claimed.restamp (hp : s.Owns p) (hne : claim ≠ .zero)
    (hreleases : s.consumer.releases ≠ some p) : Claimed (s.setClaim (s.index p) claim) := by
  have hmeta : ∀ q, s.index q ≠ s.index p → (s.setClaim (s.index p) claim).metaAt q = s.metaAt q :=
    fun q hq => metaAt_setMeta_of_ne (fun sidecar => { sidecar with claimControl := claim }) hq
  have hself : (s.setClaim (s.index p) claim).metaAt p =
      { s.metaAt p with claimControl := claim } := metaAt_setMeta_of_eq _ rfl
  refine ⟨h.pow, h.le, h.room, fun q hq => ?_, fun u q c hu => ?_, fun u q hu => ?_, h.alone,
    fun q hq => ?_, h.releasing, fun cons c hc hload => ?_⟩
  · by_cases hqp : q = p
    · subst hqp
      rw [hself]
      exact ⟨hne, (h.owned q hp).2⟩
    · rw [hmeta q (h.index_ne hq hp hqp)]
      exact h.owned q hq
  · rw [hmeta q ((h.taken u q c hu).2.2 p hp).symm]
    exact h.taken u q c hu
  · obtain ⟨c, hclaims⟩ := claims_of_sequenced hu
    rw [hmeta q ((h.taken u q c hclaims).2.2 p hp).symm]
    exact h.sequenced u q hu
  · by_cases hindex : s.index q = s.index p
    · exact .inl ⟨p, hp, hindex.symm⟩
    · rw [hmeta q hindex] at hq
      exact h.whose q hq
  · have hcp : cons ≠ p := fun heq => hreleases (heq ▸ hc)
    rw [hmeta cons (h.index_ne (h.owns_releases hc) hp hcp)]
    exact h.loaded cons c hc hload

/-- The consumer goes on with the same claims to free. -/
theorem Claimed.turnTo {c c₀} (hc₀ : s.consumer = c₀)
    (hreleases : c.releases = c₀.releases) (hloaded : ∀ cons claim, c.releases = some cons →
      c.loaded = some claim → (s.metaAt cons).claimControl = claim) : Claimed (s.consumerAt c) := by
  subst hc₀
  have hunreleased : (s.consumerAt c).unreleased = s.unreleased := by
    rw [unreleased, unreleased]
    exact congrArg (Option.getD · s.consumerCursor) hreleases
  have howns : ∀ q, (s.consumerAt c).Owns q ↔ s.Owns q := fun q => by
    rw [Owns, Owns, hunreleased]
    exact Iff.rfl
  refine ⟨h.pow, h.le, by rw [hunreleased]; exact h.room, fun q hq => h.owned q ((howns q).mp hq),
    fun u q claim hu => ⟨(h.taken u q claim hu).1, (h.taken u q claim hu).2.1, fun r hr =>
      (h.taken u q claim hu).2.2 r ((howns r).mp hr)⟩, h.sequenced, h.alone, fun q hq => ?_,
    fun cons hc => h.releasing cons (hreleases ▸ hc), hloaded⟩
  exact (h.whose q hq).imp (fun ⟨r, hr, hindex⟩ => ⟨r, (howns r).mpr hr, hindex⟩) id

/-- The cursor passes the position of the consumer, whose claim is the next to be freed. -/
theorem Claimed.pass (next : MpscReturn)
    (hreleases : s.consumer.releases = none) (hlt : s.consumerCursor < s.reservationCursor) :
    Claimed ((s.setConsumerCursor (s.consumerCursor + 1)).consumerAt
      (.releasing s.consumerCursor next)) := by
  have hunreleased : s.unreleased = s.consumerCursor := by rw [unreleased, hreleases]; rfl
  have howns : ∀ q, ((s.setConsumerCursor (s.consumerCursor + 1)).consumerAt
      (.releasing s.consumerCursor next)).Owns q ↔ s.Owns q := fun q => by
    rw [Owns, Owns, hunreleased]
    exact Iff.rfl
  refine ⟨h.pow, hlt, ?_, fun q hq => h.owned q ((howns q).mp hq),
    fun u q claim hu => ⟨(h.taken u q claim hu).1, (h.taken u q claim hu).2.1, fun r hr =>
      (h.taken u q claim hu).2.2 r ((howns r).mp hr)⟩, h.sequenced, h.alone, fun q hq => ?_,
    fun cons hc => ?_, nofun⟩
  · have hroom := h.room
    rw [hunreleased] at hroom
    exact hroom
  · exact (h.whose q hq).imp (fun ⟨r, hr, hindex⟩ => ⟨r, (howns r).mpr hr, hindex⟩) id
  · cases hc
    rfl

/-- The consumer frees the claim of the position behind its cursor. -/
theorem Claimed.free {cons c} (hcons : s.consumer.releases = some cons)
    (hc : c.releases = none) : Claimed ((s.setClaim (s.index cons) .zero).consumerAt c) := by
  have hsucc := h.releasing cons hcons
  have hown := h.owns_releases hcons
  have hmeta : ∀ q, s.index q ≠ s.index cons →
      ((s.setClaim (s.index cons) .zero).consumerAt c).metaAt q = s.metaAt q := fun q hq =>
    metaAt_setMeta_of_ne (fun sidecar => { sidecar with claimControl := .zero }) hq
  have hunreleased : s.unreleased = cons := by rw [unreleased, hcons]; rfl
  have hunreleased' : ((s.setClaim (s.index cons) .zero).consumerAt c).unreleased =
      s.consumerCursor := by
    change c.releases.getD s.consumerCursor = _
    rw [hc]
    rfl
  have howns : ∀ q, ((s.setClaim (s.index cons) .zero).consumerAt c).Owns q ↔
      s.Owns q ∧ q ≠ cons := by
    intro q
    rw [Owns, Owns, hunreleased, hunreleased']
    change s.consumerCursor ≤ q ∧ q < s.reservationCursor ↔ _
    omega
  refine ⟨h.pow, h.le, ?_, fun q hq => ?_, fun u q claim hu => ?_, fun u q hu => ?_, h.alone,
    fun q hq => ?_, fun r hr => ?_, fun r claim hr => ?_⟩
  · have hroom := h.room
    rw [hunreleased]  at hroom
    rw [hunreleased']
    change s.reservationCursor ≤ s.consumerCursor + s.capacity
    omega
  · obtain ⟨hq, hne⟩ := (howns q).mp hq
    rw [hmeta q (h.index_ne hq hown hne)]
    exact h.owned q hq
  · obtain ⟨hword, hne, hothers⟩ := h.taken u q claim hu
    rw [hmeta q (hothers cons hown).symm]
    exact ⟨hword, hne, fun r hr => hothers r ((howns r).mp hr).1⟩
  · obtain ⟨claim, hclaims⟩ := claims_of_sequenced hu
    rw [hmeta q ((h.taken u q claim hclaims).2.2 cons hown).symm]
    exact h.sequenced u q hu
  · by_cases hindex : s.index q = s.index cons
    · exact absurd (congrArg MpscReservationMeta.claimControl
        (metaAt_setMeta_of_eq (fun sidecar => { sidecar with claimControl := .zero }) hindex)) hq
    · rw [hmeta q hindex] at hq
      refine (h.whose q hq).imp (fun ⟨r, hr, hr'⟩ => ⟨r, (howns r).mpr ⟨hr, ?_⟩, hr'⟩) id
      rintro rfl
      exact hindex hr'.symm
  · change c.releases = some r at hr
    rw [hc] at hr
    cases hr
  · change c.releases = some r at hr
    rw [hc] at hr
    cases hr

end

end MpscSystem

end Mino.Shm
