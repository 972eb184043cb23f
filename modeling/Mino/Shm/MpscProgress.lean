import Mino.Shm.MpscQueue

/-! # Whole calls of the MPSC channel

A producer or the consumer that is not disturbed goes through a call in a fixed number of
steps. The lemmas say where each call ends, for any state it starts from. -/

namespace Mino.Shm.MpscSystem

open List Function Interleaving

variable {μ : Type} {crc : SlotCrc μ} {s : MpscSystem μ} {t i : Nat}

/-! ### States word by word -/

section Words

variable {reserved cons tokens : Nat} {slots : Nat → IndexSlot μ}
  {metas : Nat → MpscReservationMeta} {process : Nat → UInt32} {dead : List UInt32}
  {producers : Nat → MpscProducer} {consumer : MpscConsumer μ} {scanners : Nat → MpscScanner}
  {log : List (MpscEvent μ)} (p : Nat)

theorem index_mk : index ⟨s.capacity, reserved, cons, tokens, slots, metas, process, dead,
    producers, consumer, scanners, log⟩ p = s.index p := rfl

theorem slotAt_mk : slotAt ⟨s.capacity, reserved, cons, tokens, slots, metas, process, dead,
    producers, consumer, scanners, log⟩ p = slots (s.index p) := rfl

theorem metaAt_mk : metaAt ⟨s.capacity, reserved, cons, tokens, slots, metas, process, dead,
    producers, consumer, scanners, log⟩ p = metas (s.index p) := rfl

theorem alive_mk {capacity} : alive ⟨capacity, reserved, cons, tokens, slots, metas,
    s.process, s.dead, producers, consumer, scanners, log⟩ t = s.alive t := rfl

theorem slots_index : s.slots (s.index p) = s.slotAt p := rfl

theorem metas_index : s.metas (s.index p) = s.metaAt p := rfl

end Words

-- A setter is unfolded to the record it makes, and a word is looked up there.
attribute [local simp] producerAt consumerAt emit setMeta setSlot setReservationCursor
  setConsumerCursor drawToken setClaim setTurn setState setSequence update_apply index_mk slotAt_mk
  metaAt_mk alive_mk slots_index metas_index

/-- A producer goes on `n` times. -/
def goOn (t n : Nat) : List (MpscAction μ) := replicate n (.produce t 1 .success false)

attribute [local simp] goOn replicate run step produceCall produce claimNext ownNext

theorem producerAt_self {l} (h : s.producers t = l) : s.producerAt t l = s := by
  rw [← h]
  unfold producerAt
  rw [update_eq_self]

variable {request : MpscRequest} {process : Nat → UInt32} {base capacity p : Nat} {emptyContent : μ}

/-- `Reserve` from the draw of its token to the compare-and-swap of the cursor. -/
theorem run_tag {token} (halive : s.alive t)
    (hclaim : (s.metaAt s.reservationCursor).claimControl = .zero) :
    run (step crc) (s.producerAt t (.tagging request s.reservationCursor token)) (goOn t 6) =
      some ((((s.setMeta (s.index s.reservationCursor) fun _ =>
        ⟨⟨s.process t, token % 2 ^ 29, .ownerReady⟩, s.reservationCursor, s.process t,
          1⟩).setReservationCursor (s.reservationCursor + 1)).emit
            (.reserved s.reservationCursor)).producerAt t (.advanced s.reservationCursor
              ⟨s.process t, token % 2 ^ 29, .ownerReady⟩)) := by
  simp [halive, hclaim, Claim.makeInitialClaim, Claim.withClaimPhase]

section

variable (halive : s.alive t) (hidle : s.producers t = .idle)
  (hturn : (s.slotAt s.reservationCursor).turn = s.reservationCursor)
include halive hidle hturn

/-- `Reserve` up to the draw of its token. -/
theorem run_draw : run (step crc) s (.reserve t request :: goOn t 2) =
    some (s.producerAt t (.drawing request s.reservationCursor)) := by
  simp [halive, hidle, hturn]

/-- `Reserve` up to the compare-and-swap of the cursor. -/
theorem run_advance (hclaim : (s.metaAt s.reservationCursor).claimControl = .zero)
    (htoken : (s.tokens + 1) % 2 ^ 29 ≠ 0) : run (step crc) s (.reserve t request :: goOn t 9) =
      some ((((s.drawToken.setMeta (s.index s.reservationCursor) fun _ =>
        ⟨⟨s.process t, (s.tokens + 1) % 2 ^ 29, .ownerReady⟩, s.reservationCursor, s.process t,
          1⟩).setReservationCursor (s.reservationCursor + 1)).emit
            (.reserved s.reservationCursor)).producerAt t (.advanced s.reservationCursor
              ⟨s.process t, (s.tokens + 1) % 2 ^ 29, .ownerReady⟩)) := by
  have hdraw : run (step crc) (s.producerAt t (.drawing request s.reservationCursor)) (goOn t 1) =
      some (s.drawToken.producerAt t (.tagging request s.reservationCursor (s.tokens + 1))) := by
    simp only [Nat.reducePow] at htoken
    simp [halive, htoken]
  rw [show goOn (μ := μ) t 9 = goOn t 2 ++ (goOn t 1 ++ goOn t 6) from rfl, ← cons_append,
    run_append_of_eq (run_draw halive hidle hturn), run_append_of_eq hdraw]
  exact run_tag (s := s.drawToken) halive hclaim

end

/-- The rest of `Reserve`. -/
theorem run_open (p : Nat) (claim : Claim) (halive : s.alive t)
    (h : s.producers t = .advanced p claim) : run (step crc) s (goOn t 4) =
      some (((s.setMeta (s.index p) fun sidecar => { sidecar with
        claimControl := claim.withClaimPhase .writing }).setSlot (s.index p) fun slot => { slot with
          sequenceNum := p
          state := .writing }).producerAt t (.reserved p)) := by
  conv_lhs => rw [← producerAt_self h]
  simp [halive]

/-- The state behind a `Reserve` that finds the slot of the cursor free. -/
def reservedBy (s : MpscSystem μ) (t : Nat) : MpscSystem μ :=
  ((((s.drawToken.setMeta (s.index s.reservationCursor) fun _ =>
    ⟨⟨s.process t, (s.tokens + 1) % 2 ^ 29, .writing⟩, s.reservationCursor, s.process t, 1⟩).setSlot
      (s.index s.reservationCursor) fun slot =>
        { slot with sequenceNum := s.reservationCursor, state := .writing }).setReservationCursor
          (s.reservationCursor + 1)).emit (.reserved s.reservationCursor)).producerAt t
            (.reserved s.reservationCursor)

theorem run_reserve (halive : s.alive t) (hidle : s.producers t = .idle)
    (hturn : (s.slotAt s.reservationCursor).turn = s.reservationCursor)
    (hclaim : (s.metaAt s.reservationCursor).claimControl = .zero)
    (htoken : (s.tokens + 1) % 2 ^ 29 ≠ 0) :
    run (step crc) s (.reserve t request :: goOn t 13) = some (s.reservedBy t) := by
  rw [show goOn (μ := μ) t 13 = goOn t 9 ++ goOn t 4 from rfl, ← cons_append,
    run_append_of_eq (run_advance halive hidle hturn hclaim htoken)]
  refine (run_open s.reservationCursor ⟨s.process t, (s.tokens + 1) % 2 ^ 29, .ownerReady⟩
    (by exact halive) (by simp)).trans ?_
  simp [reservedBy, Claim.withClaimPhase]

theorem run_abort (halive : s.alive t) (hstate : (s.slotAt p).state = .writing) :
    run (step crc) (s.producerAt t (.reserved p)) (.abort t :: goOn t 2) =
      some (((((s.setMeta (s.index p) fun sidecar => { sidecar with
        claimControl := (s.metaAt p).claimControl.withClaimPhase .writing }).setSlot (s.index p)
          fun slot => { slot with state := .aborted }).emit (.tombstoned p)).emit
            (.aborted p)).producerAt t .idle) := by
  simp [halive, hstate]

theorem run_commit (content : μ) (halive : s.alive t) (hstate : (s.slotAt p).state =
    .writing) : run (step crc) (s.producerAt t (.reserved p)) (.fill t content :: .commit t ::
      goOn t 4) =
      some ((((s.setMeta (s.index p) fun sidecar => { sidecar with
        claimControl := (s.metaAt p).claimControl.withClaimPhase .ready }).setSlot (s.index p)
          fun slot => { slot with
            content
            immutableMetadataCrc := crc slot.sequenceNum content
            state := .ready
            turn := p + 1 }).emit (.committed p content)).producerAt t .idle) := by
  have hsealed : run (step crc) (s.producerAt t (.reserved p)) [.fill t content, .commit t] =
      some ((s.setSlot (s.index p) fun slot => { slot with
        content
        immutableMetadataCrc := crc slot.sequenceNum content }).producerAt t (.sealed p)) := by
    simp [halive]
  refine (run_append_of_eq hsealed (goOn t 4)).trans ?_
  simp [halive, hstate]

/-- The consumer goes on `n` times. -/
def readOn (n : Nat) : List (MpscAction μ) := replicate n (.consume false)

/-- Where a `Poll` ends that finds a tombstone and nothing behind it. -/
theorem run_skip (hidle : s.consumer = .idle) (hcur : s.consumerCursor + 1 = s.reservationCursor)
    (hstate : (s.slotAt s.consumerCursor).state = .aborted)
    (hclaim : (s.metaAt s.consumerCursor).claimControl ≠ .zero)
    (hseq : (s.metaAt s.consumerCursor).claimSequence = s.consumerCursor) :
    run (step crc) s (.poll :: readOn 11) =
      some (((((s.setMeta (s.index s.consumerCursor) fun sidecar => { sidecar with
        claimControl := .zero }).setSlot (s.index s.consumerCursor) fun slot => { slot with
          turn := s.consumerCursor + s.capacity }).setConsumerCursor
            (s.consumerCursor + 1)).emit (.skipped s.consumerCursor)).emit
              .wouldBlock |>.consumerAt .idle) := by
  have hne : s.consumerCursor ≠ s.reservationCursor := by omega
  simp [readOn, hidle, consume, hne, hstate, hclaim, hseq, retirement, afterRelease, hcur]

/-! ### Rounds: a position is reserved, aborted and skipped -/

/-- Producer `t` and the consumer rest, and the ring is empty. -/
structure Rested (t : Nat) (s : MpscSystem μ) : Prop where
  capacity : ∃ k, s.capacity = 2 ^ k
  alive : s.alive t
  producer : s.producers t = .idle
  consumer : s.consumer = .idle
  even : s.consumerCursor = s.reservationCursor
  tokens : s.tokens = s.reservationCursor
  free : ∀ p, s.reservationCursor ≤ p → p < s.reservationCursor + s.capacity →
    (s.slotAt p).turn = p ∧ (s.metaAt p).claimControl = .zero
  unread : ∀ p m, .polled p m ∉ s.log

/-- What a round leaves alone. -/
structure Around (t : Nat) (s s' : MpscSystem μ) : Prop where
  capacity : s'.capacity = s.capacity
  process : s'.process = s.process
  dead : s'.dead = s.dead
  scanners : s'.scanners = s.scanners
  producers : ∀ u, u ≠ t → s'.producers u = s.producers u

theorem Around.trans {s' s''} (h : Around t s s') (h' : Around t s' s'') : Around t s s'' :=
  ⟨h'.capacity.trans h.capacity, h'.process.trans h.process, h'.dead.trans h.dead,
    h'.scanners.trans h.scanners, fun u hu => (h'.producers u hu).trans (h.producers u hu)⟩

def round (t : Nat) : List (MpscAction μ) :=
  (.reserve t ⟨some .fail, 1⟩ :: goOn t 13) ++ ((.abort t :: goOn t 2) ++ (.poll :: readOn 11))

def roundedBy (s : MpscSystem μ) (t : Nat) : MpscSystem μ :=
  ((((((((s.drawToken.setMeta (s.index s.reservationCursor) fun _ =>
    ⟨.zero, s.reservationCursor, s.process t, 1⟩).setSlot (s.index s.reservationCursor) fun slot =>
      { slot with
        sequenceNum := s.reservationCursor
        state := .aborted
        turn := s.reservationCursor + s.capacity }).setReservationCursor
          (s.reservationCursor + 1)).setConsumerCursor (s.reservationCursor + 1)).emit
            (.reserved s.reservationCursor)).emit (.tombstoned s.reservationCursor)).emit
              (.aborted s.reservationCursor)).emit (.skipped s.reservationCursor)).emit
                .wouldBlock |>.consumerAt .idle |>.producerAt t .idle

section

variable (h : Rested t s) (hlt : s.reservationCursor + 1 < 2 ^ 29)
include h hlt

/-- The next position and the next token may be used. -/
theorem Rested.ready : (s.slotAt s.reservationCursor).turn = s.reservationCursor ∧
      (s.metaAt s.reservationCursor).claimControl = .zero ∧ (s.tokens + 1) % 2 ^ 29 ≠ 0 := by
  have hpos : 0 < s.capacity := by
    obtain ⟨k, hk⟩ := h.capacity
    rw [hk]
    exact Nat.two_pow_pos k
  obtain ⟨hturn, hclaim⟩ := h.free s.reservationCursor le_rfl (by omega)
  refine ⟨hturn, hclaim, ?_⟩
  rw [h.tokens, Nat.mod_eq_of_lt hlt]
  omega

theorem Rested.run_round : run (step crc) s (round t) = some (s.roundedBy t) := by
  obtain ⟨hturn, hclaim, htoken⟩ := h.ready hlt
  have halive := h.alive
  rw [round, run_append_of_eq (run_reserve h.alive h.producer hturn hclaim htoken),
    reservedBy, run_append_of_eq (run_abort (by simpa using halive) (by simp))]
  rw [run_skip (by exact h.consumer) (by simp [h.even]) (by simp [h.even])
    (by simp [h.even, Claim.withClaimPhase, Claim.zero]) (by simp [h.even])]
  simp [roundedBy, h.even]

end

theorem roundedBy_around : Around t s (s.roundedBy t) := by
  -- as one record, so that its fields need not be looked up through every step
  simp only [roundedBy, producerAt, consumerAt, emit, setConsumerCursor, setReservationCursor,
    setSlot, setMeta, drawToken]
  exact ⟨rfl, rfl, rfl, rfl, fun _ hu => update_of_ne hu _ _⟩

theorem Rested.slotAt_roundedBy (h : Rested t s) (hlt : s.reservationCursor < p)
    (hnear : p < s.reservationCursor + s.capacity) :
    (s.roundedBy t).slotAt p = s.slotAt p ∧ (s.roundedBy t).metaAt p = s.metaAt p := by
  have hne : s.index p ≠ s.index s.reservationCursor := by
    rw [index_eq h.capacity, index_eq h.capacity]
    exact mod_ne_of_lt hlt hnear
  simp [roundedBy, hne]

theorem Rested.next (h : Rested t s) : Rested t (s.roundedBy t) where
  capacity := h.capacity
  alive := h.alive
  producer := by simp [roundedBy]
  consumer := rfl
  even := rfl
  tokens := congrArg (· + 1) h.tokens
  free p hle hlt := by
    change s.reservationCursor + 1 ≤ p at hle
    change p < s.reservationCursor + 1 + s.capacity at hlt
    by_cases hp : p = s.reservationCursor + s.capacity
    · subst hp
      have hindex : s.index (s.reservationCursor + s.capacity) = s.index s.reservationCursor := by
        rw [index_eq h.capacity, index_eq h.capacity, Nat.add_mod_right]
      simp [roundedBy, hindex]
    · obtain ⟨hslot, hmeta⟩ := h.slotAt_roundedBy (p := p) hle (by omega)
      rw [hslot, hmeta]
      exact h.free p (by omega) (by omega)
  unread p m hp := by
    refine h.unread p m ?_
    simpa [roundedBy] using hp

theorem Rested.init (h : init emptyContent process base capacity = .ok s) : Rested t s := by
  unfold MpscSystem.init at h
  repeat' split at h
  all_goals try cases h
  have hpow : ∃ k, capacity = 2 ^ k :=
    exists_two_pow_of_isPowerOfTwo (by omega) (by simp_all)
  refine ⟨hpow, rfl, rfl, rfl, rfl, rfl, fun p _ hp => ⟨?_, rfl⟩, by rintro p m ⟨⟩⟩
  change p &&& (capacity - 1) = p
  change p < 0 + capacity at hp
  rw [and_mask_eq_mod hpow, Nat.mod_eq_of_lt (by omega)]

def rounds (t : Nat) : Nat → List (MpscAction μ)
  | 0 => []
  | n + 1 => rounds t n ++ round t

variable (crc) in
/-- `n` rounds leave kAborted in the slots they have used. -/
theorem Rested.run_rounds (h : Rested t s) {n : Nat} (hn : n ≤ s.capacity)
    (hlt : s.reservationCursor + n < 2 ^ 29) : ∃ s' : MpscSystem μ,
      run (step crc) s (rounds t n) = some s' ∧ Rested t s' ∧ Around t s s' ∧
      s'.reservationCursor = s.reservationCursor + n ∧
      ∀ p, s.reservationCursor ≤ p → p < s.reservationCursor + n →
        (s'.slotAt p).state = .aborted := by
  induction n with
  | zero => exact ⟨s, rfl, h, ⟨rfl, rfl, rfl, rfl, fun _ _ => rfl⟩, rfl, fun p _ _ => by omega⟩
  | succ n ih =>
    obtain ⟨s', hrun, hrest, haround, hcursor, hstate⟩ := ih (by omega) (by omega)
    refine ⟨s'.roundedBy t, ?_, hrest.next, haround.trans roundedBy_around, ?_,
      fun p hle hlt' => ?_⟩
    · rw [rounds, run_append_of_eq hrun]
      exact hrest.run_round (by omega)
    · change s'.reservationCursor + 1 = _
      omega
    · by_cases hp : p = s'.reservationCursor
      · subst hp
        simp [roundedBy]
      · have hne : s'.index p ≠ s'.index s'.reservationCursor := by
          rw [index_eq hrest.capacity, index_eq hrest.capacity]
          have := haround.capacity
          exact (mod_ne_of_lt (by omega) (by omega)).symm
        have hslot : (s'.roundedBy t).slotAt p = s'.slotAt p := by simp [roundedBy, hne]
        rw [hslot]
        exact hstate p hle (by omega)

/-! ### A tombstone of the lap before -/

/-- The producer is stopped behind the compare-and-swap of the cursor while the consumer
polls, and then goes on to commit. -/
def lateOpening (t : Nat) (content : μ) : List (MpscAction μ) :=
  (.reserve t ⟨some .fail, 1⟩ :: goOn t 9) ++ ((.poll :: readOn 11) ++ (goOn t 4 ++
    (.fill t content :: .commit t :: goOn t 4)))

variable (crc) in
/-- Behind a lap of tombstones the consumer skips a position that its producer has only
just reserved, and the commit that follows is lost. -/
theorem Rested.run_lateOpening (h : Rested t s) (content : μ)
    (hlt : s.reservationCursor + 1 < 2 ^ 29)
    (hstate : (s.slotAt s.reservationCursor).state = .aborted) : ∃ s' : MpscSystem μ,
      run (step crc) s (lateOpening t content) = some s' ∧
      .committed s.reservationCursor content ∈ s'.log ∧
      s'.consumerCursor = s.reservationCursor + 1 ∧ ∀ p m, .polled p m ∉ s'.log := by
  obtain ⟨hturn, hclaim, htoken⟩ := h.ready hlt
  have halive := h.alive
  rw [lateOpening, run_append_of_eq (run_advance h.alive h.producer hturn hclaim htoken),
    run_append_of_eq (run_skip (by exact h.consumer) (by simp [h.even])
      (by simpa [h.even] using hstate) (by simp [h.even, Claim.zero]) (by simp [h.even])),
    run_append_of_eq (run_open s.reservationCursor ⟨s.process t, (s.tokens + 1) % 2 ^ 29,
      .ownerReady⟩ (by exact halive) (by exact update_self _ _ _)),
    run_commit content (by exact halive) (by simp)]
  refine ⟨_, rfl, ?_, ?_, ?_⟩
  · exact mem_append_right _ (mem_singleton.mpr rfl)
  · exact congrArg (· + 1) h.even
  · intro p m hp
    refine h.unread p m ?_
    simpa using hp

/-! ### A ring that is full -/

/-- Producer `t` has committed the first `n` positions and the consumer has read none. -/
structure Loaded (crc : SlotCrc μ) (t n : Nat) (s : MpscSystem μ) : Prop where
  capacity : ∃ k, s.capacity = 2 ^ k
  alive : s.alive t
  producer : s.producers t = .idle
  consumer : s.consumer = .idle
  cons : s.consumerCursor = 0
  reserved : s.reservationCursor = n
  tokens : s.tokens = n
  free : ∀ p, n ≤ p → p < s.capacity → (s.slotAt p).turn = p ∧ (s.metaAt p).claimControl = .zero
  head : 0 < n → (s.slotAt 0).turn = 1 ∧ (s.slotAt 0).state = .ready ∧
    (s.slotAt 0).sequenceNum = 0 ∧
    (s.slotAt 0).immutableMetadataCrc = crc 0 (s.slotAt 0).content ∧
    .committed 0 (s.slotAt 0).content ∈ s.log

def load (t : Nat) (content : μ) : List (MpscAction μ) :=
  (.reserve t ⟨some .fail, 1⟩ :: goOn t 13) ++ (.fill t content :: .commit t :: goOn t 4)

def loads (t : Nat) (content : μ) : Nat → List (MpscAction μ)
  | 0 => []
  | n + 1 => loads t content n ++ load t content

theorem Loaded.next {n} (h : Loaded crc t n s) (content : μ) (hn : n < s.capacity)
    (hlt : n + 1 < 2 ^ 29) : ∃ s' : MpscSystem μ,
      run (step crc) s (load t content) = some s' ∧ Loaded crc t (n + 1) s' ∧
      s'.capacity = s.capacity := by
  have hreserved := h.reserved
  obtain ⟨hturn, hclaim⟩ := h.free n le_rfl hn
  rw [← hreserved] at hturn hclaim
  have htoken : (s.tokens + 1) % 2 ^ 29 ≠ 0 := by
    rw [h.tokens, Nat.mod_eq_of_lt hlt]
    omega
  have halive := h.alive
  have hne : ∀ p, p < s.capacity → p ≠ n → s.index p ≠ s.index n := by
    intro p hp hpn
    rw [index_eq h.capacity, index_eq h.capacity, Nat.mod_eq_of_lt hp, Nat.mod_eq_of_lt hn]
    exact hpn
  rw [load, run_append_of_eq (run_reserve h.alive h.producer hturn hclaim htoken),
    reservedBy, run_commit content (by exact halive) (by simp)]
  refine ⟨_, rfl, ⟨h.capacity, halive, update_self _ _ _, h.consumer, h.cons,
    congrArg (· + 1) h.reserved, congrArg (· + 1) h.tokens, fun p hle hp => ?_, fun _ => ?_⟩, rfl⟩
  · have hp' : s.index p ≠ s.index s.reservationCursor := by
      rw [hreserved]
      exact hne p hp (by omega)
    have hfree := h.free p (by omega) hp
    simpa [hp'] using hfree
  · by_cases hzero : n = 0
    · simp [hreserved, hzero]
    · have h0 : s.index 0 ≠ s.index s.reservationCursor := by
        rw [hreserved]
        exact hne 0 (by omega) (Ne.symm hzero)
      obtain ⟨hturn0, hstate0, hseq0, hcrc0, hlog0⟩ := h.head (Nat.pos_of_ne_zero hzero)
      refine ⟨by simpa [h0] using hturn0, by simpa [h0] using hstate0, by simpa [h0] using hseq0,
        by simpa [h0] using hcrc0, ?_⟩
      simp [h0, hlog0]

theorem Loaded.run_loads (h : Loaded crc t 0 s) (content : μ) {n} (hn : n ≤ s.capacity)
    (hlt : n < 2 ^ 29) : ∃ s' : MpscSystem μ,
      run (step crc) s (loads t content n) = some s' ∧ Loaded crc t n s' ∧
      s'.capacity = s.capacity := by
  induction n with
  | zero => exact ⟨s, rfl, h, rfl⟩
  | succ n ih =>
    obtain ⟨s', hrun, hloaded, hcap⟩ := ih (by omega) (by omega)
    obtain ⟨s'', hrun', hloaded', hcap'⟩ := hloaded.next content (by omega) hlt
    refine ⟨s'', ?_, hloaded', hcap'.trans hcap⟩
    rw [loads, run_append_of_eq hrun]
    exact hrun'

theorem Loaded.init (h : init emptyContent process base capacity = .ok s) : Loaded crc t 0 s := by
  have hrest : Rested t s := .init h
  unfold MpscSystem.init at h
  repeat' split at h
  all_goals cases h
  refine ⟨hrest.capacity, rfl, rfl, rfl, rfl, rfl, rfl, fun p hle hp => hrest.free p hle ?_,
    fun h => absurd h (Nat.lt_irrefl 0)⟩
  change p < 0 + capacity
  change p < capacity at hp
  omega

def dropRequest : MpscRequest := ⟨some .dropOldest, 1⟩

variable (crc) in
/-- `Reserve` on a full ring, up to the compare-and-swap of the consumer cursor. -/
theorem run_toDrop (halive : s.alive t) (hidle : s.producers t = .idle)
    (hturn : (s.slotAt s.reservationCursor).turn < s.reservationCursor)
    (hready : (s.slotAt s.reservationCursor).state = .ready)
    (hstate : (s.slotAt s.consumerCursor).state = .ready)
    (hseq : (s.slotAt s.consumerCursor).sequenceNum = s.consumerCursor) :
    run (step crc) s (.reserve t dropRequest :: goOn t 6) =
      some (s.producerAt t (.dropAdvancing dropRequest s.consumerCursor)) := by
  have hpolicy : dropRequest.policy = some .dropOldest := rfl
  have hnot : ¬ s.reservationCursor < (s.slotAt s.reservationCursor).turn := by omega
  simp [halive, hidle, fullNext, onFull, hpolicy, hturn, hnot, hready, hstate, hseq]

/-- The consumer has read the head and loaded the cursor to acknowledge it when the
producer drops the head; the acknowledgement then goes through as well. -/
def dropAndAck (t : Nat) : List (MpscAction μ) :=
  (.reserve t dropRequest :: goOn t 6) ++ (pollCalls ++ (.ack 0 :: goOn t 1 ++ readOn 2))

theorem Loaded.run_dropAndAck (h : Loaded crc t s.capacity s) (hcap : 1 < s.capacity) :
    ∃ s' : MpscSystem μ, run (step crc) s (dropAndAck t) = some s' ∧
      .committed 0 (s.slotAt 0).content ∈ s'.log ∧ .dropped 0 ∈ s'.log ∧ .acked 0 ∈ s'.log := by
  obtain ⟨hturn, hstate, hseq, hcrc, hlog⟩ := h.head (by omega)
  have halive := h.alive
  have hcons := h.cons
  have hreserved := h.reserved
  have hround : s.slotAt s.reservationCursor = s.slotAt 0 := by
    refine congrArg s.slots ?_
    rw [index_eq h.capacity, index_eq h.capacity, h.reserved, Nat.mod_self, Nat.zero_mod]
  have hdrop := run_toDrop crc h.alive h.producer (by rw [hround]; omega)
    (by rw [hround]; exact hstate) (by rw [hcons]; exact hstate) (by rw [hcons]; exact hseq)
  have hpoll := run_pollCalls crc
    (s := s.producerAt t (.dropAdvancing dropRequest s.consumerCursor)) h.consumer
    (by change s.consumerCursor ≠ s.reservationCursor; omega) (by simp [hcons, hturn])
    (by simp [hcons, hstate]) (by simp [hcons, hseq]) (by simp [hcons, hcrc])
  rw [dropAndAck, run_append_of_eq hdrop, run_append_of_eq hpoll]
  simp [readOn, halive, fullNext, h.consumer, borrowed, MpscEvent.polledSequence, hcons, consume,
    retirement, hlog]

end Mino.Shm.MpscSystem
