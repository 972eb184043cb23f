import Mino.Shm.MpscRuns

/-! # What recovery leaves behind

When every producer has stopped, a scan and then the consumer run alone. The scan judges
each slot by itself; the consumer then takes the positions in order up to the first that is
neither a tombstone nor published. -/

namespace Mino.Shm.MpscSystem

open List Function

variable {μ : Type} (crc : SlotCrc μ)

/-- A scan that runs alone to its end, its probe calling every owner dead. -/
inductive Sweeps (t nowNs leaseNs : Nat) : MpscSystem μ → MpscSystem μ → Prop
  | done {s : MpscSystem μ} (h : s.scanners t = .idle) : Sweeps t nowNs leaseNs s s
  | goesOn {s s₁ s' : MpscSystem μ} (h : s.recover t nowNs leaseNs true = some s₁)
      (rest : Sweeps t nowNs leaseNs s₁ s') : Sweeps t nowNs leaseNs s s'

/-- The consumer alone: it acknowledges what `Poll` returns and polls again, until `Poll`
returns kWouldBlock. -/
inductive Drains : MpscSystem μ → MpscSystem μ → Prop
  | blocked {s : MpscSystem μ} (h : s.consumer = .idle) (hlast : s.log.getLast? = some .wouldBlock) :
      Drains s s
  | consumes {s s₁ s' : MpscSystem μ} (h : step crc s (.consume false) = some s₁)
      (rest : Drains s₁ s') : Drains s s'
  | acks {s s₁ s' : MpscSystem μ} {sequence : Nat} {content : μ}
      (hlast : s.log.getLast? = some (.polled sequence content))
      (h : step crc s (.ack sequence) = some s₁) (rest : Drains s₁ s') : Drains s s'
  | polls {s s₁ s' : MpscSystem μ} {event : MpscEvent μ} (hlast : s.log.getLast? = some event)
      (hblock : event ≠ .wouldBlock) (hpolled : event.polledSequence = none)
      (h : step crc s .poll = some s₁) (rest : Drains s₁ s') : Drains s s'

/-- The consumer can pass position `p`. -/
def Takeable (p : Nat) (slot : IndexSlot μ) : Prop :=
  slot.state = .aborted ∨ slot.state = .ready ∧ slot.turn = p + 1

instance (p : Nat) (slot : IndexSlot μ) : Decidable (Takeable p slot) :=
  inferInstanceAs (Decidable (_ ∨ _ ∧ _))

/-! ### The consumer -/

/-- The consumer cursor is past `cons`, the slot is free for the next lap and the claim of
this lap is gone. -/
def passed (s : MpscSystem μ) (cons : Nat) (event : MpscEvent μ) (consumer : MpscConsumer μ) :
    MpscSystem μ :=
  { s with
    slots := update s.slots (s.index cons)
      { s.slots (s.index cons) with turn := cons + s.capacity }
    consumerCursor := cons + 1
    metas := if (s.metaAt cons).claimSequence = cons then
        update s.metas (s.index cons) { s.metas (s.index cons) with claimControl := .zero }
      else s.metas
    log := s.log ++ [event]
    consumer }

variable {crc} {s s' : MpscSystem μ} {cons : Nat}

theorem setClaim_zero_of_zero {i} (h : (s.metas i).claimControl = .zero) :
    update s.metas i { s.metas i with claimControl := .zero } = s.metas := by
  rw [← h]
  exact update_eq_self i s.metas

/-- Where the consumer is behind a retirement. -/
def returnsTo : MpscReturn → MpscConsumer μ
  | .poll => .polling
  | .corruption | .ack => .idle

theorem afterRelease_eq (s : MpscSystem μ) (next : MpscReturn) :
    s.afterRelease next = s.consumerAt (returnsTo next) := by
  cases next <;> rfl

/-- The cursor is past `cons`, and the claim has not been looked at. -/
def advancedPast (s : MpscSystem μ) (cons : Nat) (event : MpscEvent μ) (consumer : MpscConsumer μ) :
    MpscSystem μ :=
  { s with
    slots := update s.slots (s.index cons)
      { s.slots (s.index cons) with turn := cons + s.capacity }
    consumerCursor := cons + 1
    log := s.log ++ [event]
    consumer }

/-- Retirement, from the store of the turn to the release of the claim. -/
theorem drains_retire (next : MpscReturn) (hc : s.consumer = .retiring cons next)
    (h : Drains crc (s.passed cons (retirement cons next) (returnsTo next)) s') :
    Drains crc s s' := by
  have hretire : step crc s (.consume false) =
      some ((s.setTurn (s.index cons) (cons + s.capacity)).consumerAt (.advancing cons next)) := by
    simp only [step, consume, hc]
  have hadvance : step crc ((s.setTurn (s.index cons) (cons + s.capacity)).consumerAt
      (.advancing cons next)) (.consume false) =
        some (s.advancedPast cons (retirement cons next) (.releasing cons next)) := rfl
  refine .consumes hretire (.consumes hadvance (.consumes rfl ?_))
  by_cases hclaim : (s.metaAt cons).claimControl ≠ .zero ∧ (s.metaAt cons).claimSequence = cons
  · refine .consumes (if_pos hclaim) (.consumes (if_pos ⟨rfl, rfl⟩) ?_)
    rw [passed, if_pos hclaim.2] at h
    rw [afterRelease_eq]
    exact h
  refine .consumes (if_neg hclaim) ?_
  have hmetas : (if (s.metaAt cons).claimSequence = cons then update s.metas
      (s.index cons) { s.metas (s.index cons) with claimControl := .zero } else s.metas) =
        s.metas := by
    split <;> rename_i hseq
    · exact setClaim_zero_of_zero (not_not.mp fun hne => hclaim ⟨hne, hseq⟩)
    · rfl
  rw [passed, hmetas] at h
  rw [afterRelease_eq]
  exact h

/-- `Poll` up to the load of the state, when there is a position to look at. -/
theorem drains_judging (hc : s.consumer = .polling) (hne : s.consumerCursor ≠ s.reservationCursor)
    (h : Drains crc (s.consumerAt
      (.judging s.consumerCursor (s.slotAt s.consumerCursor).turn)) s') : Drains crc s s' := by
  have hload : step crc s (.consume false) = some (s.consumerAt (.comparing s.consumerCursor)) := by
    simp only [step, consume, hc]
  exact .consumes hload (.consumes (if_neg hne) (.consumes rfl h))

/-- The consumer polls behind the position that it has passed, whatever it has logged. -/
structure PassedTo (s x : MpscSystem μ) : Prop where
  consumer : x.consumer = .polling
  capacity : x.capacity = s.capacity
  reserved : x.reservationCursor = s.reservationCursor
  cons : x.consumerCursor = s.consumerCursor + 1
  slots : x.slots = update s.slots (s.index s.consumerCursor)
    { s.slotAt s.consumerCursor with turn := s.consumerCursor + s.capacity }
  metas : x.metas = if (s.metaAt s.consumerCursor).claimSequence = s.consumerCursor then
      update s.metas (s.index s.consumerCursor)
        { s.metaAt s.consumerCursor with claimControl := .zero }
    else s.metas

theorem passedTo_passed (s : MpscSystem μ) (event : MpscEvent μ) :
    PassedTo s (s.passed s.consumerCursor event .polling) :=
  ⟨rfl, rfl, rfl, rfl, rfl, rfl⟩

/-- A call that ends behind a retirement is followed by another `Poll`. -/
theorem drains_idle {event} (hblock : event ≠ .wouldBlock)
    (hpolled : event.polledSequence = none) (h : Drains crc (s.passed cons event .polling) s') :
    Drains crc (s.passed cons event .idle) s' :=
  .polls (getLast?_concat ..) hblock hpolled rfl h

/-- A slot with the wrong number or a wrong CRC. -/
theorem drains_corrupted (h : Drains crc (s.passed cons (.corrupted cons) .polling) s') :
    Drains crc (s.consumerAt (.retiring cons .corruption)) s' :=
  drains_retire .corruption rfl (drains_idle nofun rfl h)

variable (crc) in
/-- One position that the consumer passes. -/
theorem drains_takeable (hc : s.consumer = .polling) (hlt : s.consumerCursor < s.reservationCursor)
    (htake : Takeable s.consumerCursor (s.slotAt s.consumerCursor)) :
    ∃ x, PassedTo s x ∧ ∀ s', Drains crc x s' → Drains crc s s' := by
  have hjudging : ∀ s', Drains crc (s.consumerAt (.judging _ _)) s' → Drains crc s s' :=
    fun _ => drains_judging hc (Nat.ne_of_lt hlt)
  generalize hcons : s.consumerCursor = cons at htake hjudging
  by_cases hab : (s.slotAt cons).state = .aborted
  · refine ⟨_, hcons ▸ passedTo_passed s (.skipped cons), fun s' h => ?_⟩
    exact hjudging s' (.consumes (if_pos hab) (drains_retire .poll rfl h))
  obtain ⟨hready, hturn⟩ := htake.resolve_left hab
  have hcheck : step crc (s.consumerAt (.judging cons (s.slotAt cons).turn)) (.consume false) =
      some (s.consumerAt (.checking cons)) :=
    (if_neg hab).trans (if_neg (by
      change ¬ ((s.slotAt cons).turn ≠ cons + 1 ∨ (s.slotAt cons).state ≠ .ready)
      simp [hready, hturn]))
  by_cases hseq : (s.slotAt cons).sequenceNum = cons
  · have hverify : ∀ s', Drains crc (s.consumerAt (.verifying cons (s.slotAt cons).content
        (s.slotAt cons).sequenceNum)) s' → Drains crc s s' := fun s' h => hjudging s'
      (.consumes hcheck (.consumes (if_neg (not_not.mpr hseq)) (.consumes rfl (.consumes rfl h))))
    by_cases hcrc : (s.slotAt cons).immutableMetadataCrc =
        crc (s.slotAt cons).sequenceNum (s.slotAt cons).content
    · have hpolled := fun s' h => hverify s' (.consumes (if_neg (not_not.mpr hcrc)) h)
      rw [hseq] at hpolled
      generalize (s.slotAt cons).content = content at hpolled
      have hborrowed : ((s.consumerAt .idle).emit (.polled cons content)).borrowed cons = true := by
        simp [borrowed, emit, MpscEvent.polledSequence]
      have hack : step crc ((s.consumerAt .idle).emit (.polled cons content)) (.ack cons) =
          some ((s.emit (.polled cons content)).consumerAt (.retiring cons .ack)) := by
        change (if _ then _ else _) = _
        rw [if_pos hborrowed]
        exact if_neg (not_not.mpr hcons.symm)
      refine ⟨(s.emit (.polled cons content)).passed cons (.acked cons) .polling,
        ⟨rfl, rfl, rfl, by rw [hcons]; rfl, by rw [hcons]; rfl, by rw [hcons]; rfl⟩,
        fun s' h => hpolled s' (.acks (getLast?_concat ..) hack ?_)⟩
      exact drains_retire .ack rfl (drains_idle (by rintro ⟨⟩) rfl h)
    · refine ⟨_, hcons ▸ passedTo_passed s (.corrupted cons), fun s' h => ?_⟩
      exact hverify s' (.consumes (if_pos hcrc) (drains_corrupted h))
  · refine ⟨_, hcons ▸ passedTo_passed s (.corrupted cons), fun s' h => ?_⟩
    exact hjudging s' (.consumes hcheck (.consumes (if_pos hseq) (drains_corrupted h)))

/-- `Poll` at a position that the consumer cannot pass, or at the end. -/
theorem drains_blocked (hc : s.consumer = .polling)
    (hstop : s.consumerCursor = s.reservationCursor ∨
      ¬ Takeable s.consumerCursor (s.slotAt s.consumerCursor)) :
    Drains crc s ((s.consumerAt .idle).emit .wouldBlock) := by
  have hlast : Drains crc ((s.consumerAt .idle).emit .wouldBlock)
      ((s.consumerAt .idle).emit .wouldBlock) := .blocked rfl (getLast?_concat ..)
  by_cases heq : s.consumerCursor = s.reservationCursor
  · have hload : step crc s (.consume false) = some (s.consumerAt (.comparing s.consumerCursor)) := by
      simp only [step, consume, hc]
    exact .consumes hload (.consumes (if_pos heq) hlast)
  have hnot := hstop.resolve_left heq
  refine drains_judging hc heq (.consumes ?_ hlast)
  refine (if_neg fun hab => hnot (.inl hab)).trans (if_pos ?_)
  by_contra hpublished
  rw [not_or, not_not, not_not] at hpublished
  exact hnot (.inr ⟨hpublished.2, hpublished.1⟩)

/-- The consumer stops at the first position that it cannot pass, and has released the slots and
the claims of the positions in front. -/
structure DrainedTo (s s' : MpscSystem μ) : Prop where
  capacity : s'.capacity = s.capacity
  reserved : s'.reservationCursor = s.reservationCursor
  le_cons : s.consumerCursor ≤ s'.consumerCursor
  cons_le : s'.consumerCursor ≤ s.reservationCursor
  takeable : ∀ p, s.consumerCursor ≤ p → p < s'.consumerCursor → Takeable p (s.slotAt p)
  stopped : s'.consumerCursor < s.reservationCursor →
    ¬ Takeable s'.consumerCursor (s.slotAt s'.consumerCursor)
  claim : ∀ i, (s'.metas i).claimControl = .zero ↔ (s.metas i).claimControl = .zero ∨
    ∃ p, s.consumerCursor ≤ p ∧ p < s'.consumerCursor ∧ s.index p = i ∧
      (s.metas i).claimSequence = p
  released : ∀ p, s.consumerCursor ≤ p → p < s'.consumerCursor →
    (s'.slots (s.index p)).turn = p + s.capacity
  untouched : ∀ i, (∀ p, s.consumerCursor ≤ p → p < s'.consumerCursor → s.index p ≠ i) →
    s'.slots i = s.slots i

variable {x : MpscSystem μ}

theorem PassedTo.claim_iff (h : PassedTo s x) (i : Nat) :
    (x.metas i).claimControl = .zero ↔ (s.metas i).claimControl = .zero ∨
      (s.index s.consumerCursor = i ∧ (s.metas i).claimSequence = s.consumerCursor) := by
  rw [h.metas]
  by_cases hseq : (s.metaAt s.consumerCursor).claimSequence = s.consumerCursor
  · rw [if_pos hseq]
    by_cases hi : i = s.index s.consumerCursor
    · subst hi
      rw [update_self]
      exact ⟨fun _ => .inr ⟨rfl, hseq⟩, fun _ => rfl⟩
    · rw [update_of_ne hi]
      exact ⟨.inl, fun h => h.resolve_right fun ⟨heq, _⟩ => hi heq.symm⟩
  · rw [if_neg hseq]
    refine ⟨.inl, fun h => h.resolve_right fun ⟨heq, hclaim⟩ => hseq ?_⟩
    subst heq
    exact hclaim

theorem PassedTo.claimSequence_eq (h : PassedTo s x) (i : Nat) :
    (x.metas i).claimSequence = (s.metas i).claimSequence := by
  rw [h.metas]
  split
  · by_cases hi : i = s.index s.consumerCursor
    · subst hi
      rw [update_self]
      rfl
    · rw [update_of_ne hi]
  · rfl

variable (crc) in
theorem exists_drains (hpow : ∃ k, s.capacity = 2 ^ k) (hc : s.consumer = .polling)
    (hle : s.consumerCursor ≤ s.reservationCursor)
    (hwindow : s.reservationCursor ≤ s.consumerCursor + s.capacity) :
    ∃ s', Drains crc s s' ∧ DrainedTo s s' := by
  induction hn : s.reservationCursor - s.consumerCursor generalizing s with
  | zero =>
    have heq : s.consumerCursor = s.reservationCursor := by omega
    refine ⟨_, drains_blocked hc (.inl heq), rfl, rfl, le_rfl, hle,
      fun p h₁ h₂ => absurd h₂ (Nat.not_lt.mpr h₁), fun h => absurd heq (Nat.ne_of_lt h), fun i => ?_,
      fun p h₁ h₂ => absurd h₂ (Nat.not_lt.mpr h₁), fun _ _ => rfl⟩
    exact ⟨.inl, fun h => h.resolve_right fun ⟨p, h₁, h₂, _⟩ => absurd h₂ (Nat.not_lt.mpr h₁)⟩
  | succ n ih =>
    by_cases htake : Takeable s.consumerCursor (s.slotAt s.consumerCursor)
    · obtain ⟨x, hx, hdrain⟩ := drains_takeable crc hc (by omega) htake
      obtain ⟨s', hs', hto⟩ := ih (by rw [hx.capacity]; exact hpow) hx.consumer
        (by rw [hx.cons, hx.reserved]; omega) (by rw [hx.cons, hx.reserved, hx.capacity]; omega)
        (by rw [hx.cons, hx.reserved]; omega)
      have hindex : ∀ p, x.index p = s.index p := fun p => by rw [index, index, hx.capacity]
      have hslot : ∀ p, s.consumerCursor + 1 ≤ p → p < s.reservationCursor →
          x.slotAt p = s.slotAt p := by
        intro p hlt hp
        rw [slotAt, hindex, hx.slots, update_of_ne]
        · rfl
        · rw [index_eq hpow, index_eq hpow]
          exact mod_ne_of_lt (by omega) (by omega)
      refine ⟨s', hdrain s' hs', ?_⟩
      have hle' := hto.le_cons
      rw [hx.cons] at hle'
      refine ⟨hto.capacity.trans hx.capacity, hto.reserved.trans hx.reserved, by omega,
        hx.reserved ▸ hto.cons_le, ?_, ?_, fun i => ?_, ?_, ?_⟩
      · intro p h₁ h₂
        by_cases heq : p = s.consumerCursor
        · rw [heq]
          exact htake
        have hbound := hto.cons_le
        rw [hx.reserved] at hbound
        rw [← hslot p (by omega) (by omega)]
        exact hto.takeable p (by rw [hx.cons]; omega) h₂
      · intro hlt
        rw [← hslot _ hle' hlt]
        exact hto.stopped (by rw [hx.reserved]; exact hlt)
      · rw [hto.claim i, hx.claim_iff i, hx.claimSequence_eq i, hx.cons]
        simp only [hindex]
        constructor
        · rintro ((h | ⟨h₁, h₂⟩) | ⟨p, h₁, h₂, h₃⟩)
          · exact .inl h
          · exact .inr ⟨_, le_rfl, by omega, h₁, h₂⟩
          · exact .inr ⟨p, by omega, h₂, h₃⟩
        · rintro (h | ⟨p, h₁, h₂, h₃, h₄⟩)
          · exact .inl (.inl h)
          · by_cases heq : p = s.consumerCursor
            · exact .inl (.inr (heq ▸ ⟨h₃, h₄⟩))
            · exact .inr ⟨p, by omega, h₂, h₃, h₄⟩
      · intro p h₁ h₂
        by_cases heq : p = s.consumerCursor
        · have hbound := hto.cons_le
          rw [hx.reserved] at hbound
          rw [heq, hto.untouched, hx.slots, update_self]
          intro q hq hlt
          rw [hx.cons] at hq
          rw [hindex, index_eq hpow, index_eq hpow]
          exact mod_ne_of_lt (by omega) (by omega)
        · rw [← hindex, hto.released p (by rw [hx.cons]; omega) h₂, hx.capacity]
      · intro i hi
        rw [hto.untouched i fun q hq hlt => hindex q ▸ hi q (by rw [hx.cons] at hq; omega) hlt,
          hx.slots, update_of_ne (hi s.consumerCursor le_rfl (by omega)).symm]
    · refine ⟨_, drains_blocked hc (.inr htake), rfl, rfl, le_rfl, hle,
        fun p h₁ h₂ => absurd h₂ (Nat.not_lt.mpr h₁), fun _ => htake, fun i => ?_,
        fun p h₁ h₂ => absurd h₂ (Nat.not_lt.mpr h₁), fun _ _ => rfl⟩
      exact ⟨.inl, fun h => h.resolve_right fun ⟨p, h₁, h₂, _⟩ => absurd h₂ (Nat.not_lt.mpr h₁)⟩

/-! ### The scan -/

/-- What a scan that runs alone makes of a slot and its sidecar, when the owner is dead. -/
def recovered (reserved : Nat) (slot : IndexSlot μ) (sidecar : MpscReservationMeta) :
    IndexSlot μ × MpscReservationMeta :=
  if sidecar.claimControl = .zero then (slot, sidecar)
  else if sidecar.claimControl.phase = .initializing ∨ sidecar.claimSequence ≥ reserved then
    (slot, { sidecar with claimControl := .zero })
  else if slot.sequenceNum ≠ sidecar.claimSequence then
    ({ slot with sequenceNum := sidecar.claimSequence, state := .aborted }, sidecar)
  else if slot.state = .reserved ∨ slot.state = .writing ∨
      sidecar.claimControl.phase = .cursorAdvanced then
    ({ slot with state := .aborted }, sidecar)
  else if slot.state = .ready ∧ slot.turn = sidecar.claimSequence then
    ({ slot with turn := sidecar.claimSequence + 1 },
      { sidecar with claimControl := sidecar.claimControl.withClaimPhase .ready })
  else (slot, sidecar)

/-- The owner of the claim of a slot is dead and its lease has run out. -/
def OwnerGone (s : MpscSystem μ) (nowNs leaseNs : Nat) (i : Nat) : Prop :=
  (s.metas i).claimControl = .zero ∨
    if (s.metas i).claimControl.phase = .initializing then
      s.mayBeDead (s.metas i).claimControl.processId = true
    else expired (s.metas i).reservationTimestampNs nowNs leaseNs = true ∧
      s.mayBeDead (s.metas i).ownerProcessId = true

/-- The scan is behind slot `phys`, of which it has made what it makes of it. -/
structure SweptTo (t phys : Nat) (s x : MpscSystem μ) : Prop where
  scanner : x.scanners t = if phys + 1 < s.capacity then .scanning (phys + 1) else .idle
  capacity : x.capacity = s.capacity
  reserved : x.reservationCursor = s.reservationCursor
  cons : x.consumerCursor = s.consumerCursor
  consumer : x.consumer = s.consumer
  dead : x.dead = s.dead
  slots : x.slots = update s.slots phys
    (recovered s.reservationCursor (s.slots phys) (s.metas phys)).1
  metas : x.metas = update s.metas phys
    (recovered s.reservationCursor (s.slots phys) (s.metas phys)).2

section Scan

variable {t phys nowNs leaseNs : Nat} {claim : Claim}

theorem mayBeDead_mk {capacity reserved cons tokens slots metas process producers consumer scanners} {log : List (MpscEvent μ)}
    (processId : UInt32) : mayBeDead ⟨capacity, reserved, cons, tokens, slots, metas, process,
      s.dead, producers, consumer, scanners, log⟩ processId = s.mayBeDead processId := rfl

attribute [local simp] scannerAt scanOn setClaim setMeta setState setTurn setSequence setSlot emit
  mayBeDead_mk

/-- A step that only turns the scanner. -/
def Passes (t nowNs leaseNs : Nat) (s : MpscSystem μ) (a b : MpscScanner) : Prop :=
  (s.scannerAt t a).recover t nowNs leaseNs true = some (s.scannerAt t b)

/-- From `y` the scan comes behind the slot and leaves of `s` what it makes of it. -/
def Finishes (t phys nowNs leaseNs : Nat) (s y : MpscSystem μ) : Prop :=
  ∃ x, SweptTo t phys s x ∧ ∀ s', Sweeps t nowNs leaseNs x s' → Sweeps t nowNs leaseNs y s'

theorem Finishes.step {y z} (h : y.recover t nowNs leaseNs true = some z)
    (rest : Finishes t phys nowNs leaseNs s z) : Finishes t phys nowNs leaseNs s y := by
  obtain ⟨x, hx, hsweep⟩ := rest
  exact ⟨x, hx, fun s' hs' => .goesOn h (hsweep s' hs')⟩

theorem Finishes.pass {a b} (h : Passes t nowNs leaseNs s a b)
    (rest : Finishes t phys nowNs leaseNs s (s.scannerAt t b)) :
    Finishes t phys nowNs leaseNs s (s.scannerAt t a) :=
  rest.step h

/-- The slot and the sidecar are as they stay, and the scan goes on behind them. -/
theorem Finishes.last {x y : MpscSystem μ} {slot sidecar}
    (h : y.recover t nowNs leaseNs true = some (x.scanOn t phys))
    (hsame : { x with slots := s.slots, metas := s.metas, log := s.log } = s)
    (hslots : x.slots = update s.slots phys slot) (hmetas : x.metas = update s.metas phys sidecar)
    (hrecovered : recovered s.reservationCursor (s.slots phys) (s.metas phys) = (slot, sidecar)) :
    Finishes t phys nowNs leaseNs s y := by
  refine ⟨_, ?_, fun _ hs' => .goesOn h hs'⟩
  have hcapacity : x.capacity = s.capacity := (congrArg capacity hsame :)
  have hscanner : (x.scanOn t phys).scanners t =
      if phys + 1 < s.capacity then .scanning (phys + 1) else .idle := by
    unfold scanOn
    rw [hcapacity]
    split <;> exact update_self ..
  have hother : { x.scanOn t phys with scanners := x.scanners, log := x.log } = x := by
    unfold scanOn
    split <;> rfl
  exact ⟨hscanner, (congrArg capacity hother :).trans hcapacity,
    (congrArg reservationCursor hother :).trans (congrArg reservationCursor hsame :),
    (congrArg consumerCursor hother :).trans (congrArg consumerCursor hsame :),
    (congrArg consumer hother :).trans (congrArg consumer hsame :),
    (congrArg dead hother :).trans (congrArg dead hsame :), (congrArg slots hother :).trans
    (hrecovered ▸ hslots), (congrArg metas hother :).trans (hrecovered ▸ hmetas)⟩

theorem Finishes.kept {y : MpscSystem μ} (h : y.recover t nowNs leaseNs true = some (s.scanOn t phys))
    (hrecovered : recovered s.reservationCursor (s.slots phys) (s.metas phys) =
      (s.slots phys, s.metas phys)) : Finishes t phys nowNs leaseNs s y :=
  .last h rfl (update_eq_self ..).symm (update_eq_self ..).symm hrecovered

theorem Finishes.revoked (hclaim : (s.metas phys).claimControl = claim)
    (hrecovered : recovered s.reservationCursor (s.slots phys) (s.metas phys) =
      (s.slots phys, { s.metas phys with claimControl := .zero })) :
    Finishes t phys nowNs leaseNs s (s.scannerAt t (.releasing phys claim)) :=
  .last (x := s.setClaim phys .zero) (by simp [recover, hclaim]; rfl) rfl
    (update_eq_self phys s.slots).symm rfl hrecovered

/-- A claim of a reserved position, when the slot has its number. -/
theorem finishes_judged {seq : Nat} (hclaim : (s.metas phys).claimControl = claim)
    (hseq : (s.metas phys).claimSequence = seq) (hzero : claim ≠ .zero)
    (hinit : claim.phase ≠ .initializing) (hpast : seq < s.reservationCursor)
    (hnumber : (s.slots phys).sequenceNum = seq) :
    Finishes t phys nowNs leaseNs s (s.scannerAt t (.judged phys claim seq)) := by
  by_cases hopen : (s.slots phys).state = .reserved ∨ (s.slots phys).state = .writing ∨
      claim.phase = .cursorAdvanced
  · refine .pass (b := .aborting phys claim seq (s.slots phys).state)
      (by simp [Passes, recover, hopen]) ?_
    refine .last (x := (s.setState phys .aborted).emit (.buried seq)) (by simp [recover]) rfl rfl
      (update_eq_self phys s.metas).symm ?_
    simp [recovered, hclaim, hzero, hinit, hseq, hpast, hnumber, hopen]
  by_cases hready : (s.slots phys).state = .ready
  · have hphase : claim.phase ≠ .cursorAdvanced := fun h => hopen (.inr (.inr h))
    refine .pass (b := .turning phys claim seq) (by simp [Passes, recover, hready, hphase]) ?_
    by_cases hturn : (s.slots phys).turn = seq
    · refine .pass (b := .marking phys claim seq) (by simp [Passes, recover, hturn]) ?_
      let y := s.setClaim phys (claim.withClaimPhase .ready)
      refine .step (z := y.scannerAt t (.publishing phys claim seq)) (by simp [recover, y]) ?_
      refine .last (x := y.setTurn phys (seq + 1)) (by simp [recover]; rfl) rfl rfl rfl ?_
      simp [recovered, hclaim, hzero, hinit, hseq, hpast, hnumber, hready, hphase, hturn, y,
        setClaim, setMeta]
    · refine .kept (by simp [recover, hturn]) ?_
      simp [recovered, hclaim, hzero, hinit, hseq, hpast, hnumber, hready, hphase, hturn]
  · refine .kept (by simp [recover, hopen, hready]) ?_
    simp [recovered, hclaim, hzero, hinit, hseq, hpast, hnumber, hopen, hready]

theorem sweeps_slot (hscanner : s.scanners t = .scanning phys)
    (hgone : OwnerGone s nowNs leaseNs phys) : Finishes t phys nowNs leaseNs s s := by
  by_cases hzero : (s.metas phys).claimControl = .zero
  · exact .kept (by simp [recover, hscanner, hzero]) (by simp [recovered, hzero])
  have hgone := hgone.resolve_left hzero
  generalize hclaim : (s.metas phys).claimControl = claim at hzero hgone
  refine .step (z := s.scannerAt t (.sequenced phys claim))
    (by simp [recover, hscanner, hclaim, hzero]) ?_
  by_cases hinit : claim.phase = .initializing
  · rw [if_pos hinit] at hgone
    refine .pass (b := .revoking phys claim) (by simp [Passes, recover, hinit]) ?_
    refine .pass (b := .releasing phys claim) (by simp [Passes, recover, hgone]) ?_
    exact .revoked hclaim (by simp [recovered, hclaim, hzero, hinit])
  rw [if_neg hinit] at hgone
  generalize hseq : (s.metas phys).claimSequence = seq
  refine .pass (b := .timed phys claim seq) (by simp [Passes, recover, hinit, hseq]) ?_
  refine .pass (b := .identified phys claim seq) (by simp [Passes, recover, hgone.1]) ?_
  refine .pass (b := .compared phys claim seq) (by simp [Passes, recover, hgone.2]) ?_
  by_cases hpast : seq ≥ s.reservationCursor
  · refine .pass (b := .releasing phys claim) (by simp [Passes, recover, hpast]) ?_
    exact .revoked hclaim (by simp [recovered, hclaim, hzero, hseq, hpast])
  refine .pass (b := .numbered phys claim seq) (by simp [Passes, recover, hpast]) ?_
  by_cases hnumber : (s.slots phys).sequenceNum = seq
  · refine .pass (b := .judged phys claim seq) (by simp [Passes, recover, hnumber]) ?_
    exact finishes_judged hclaim hseq hzero hinit (Nat.lt_of_not_le hpast) hnumber
  refine .pass (b := .renumbering phys claim seq) (by simp [Passes, recover, hnumber]) ?_
  let y := s.setSequence phys seq
  refine .step (z := y.scannerAt t (.burying phys claim seq)) (by simp [recover, y]) ?_
  refine .last (x := (y.setState phys .aborted).emit (.buried seq)) (by simp [recover]) rfl
    (update_idem ..) (update_eq_self phys s.metas).symm ?_
  simp [recovered, hclaim, hzero, hinit, hseq, hpast, hnumber, y, setSequence, setSlot]

/-- The scan has made of every slot from `phys` on what it makes of it. -/
structure SweptFrom (t phys : Nat) (s s' : MpscSystem μ) : Prop where
  scanner : s'.scanners t = .idle
  capacity : s'.capacity = s.capacity
  reserved : s'.reservationCursor = s.reservationCursor
  cons : s'.consumerCursor = s.consumerCursor
  consumer : s'.consumer = s.consumer
  slot : ∀ i, phys ≤ i → i < s.capacity →
    s'.slots i = (recovered s.reservationCursor (s.slots i) (s.metas i)).1
  sidecar : ∀ i, phys ≤ i → i < s.capacity →
    s'.metas i = (recovered s.reservationCursor (s.slots i) (s.metas i)).2
  slot_before : ∀ i, i < phys → s'.slots i = s.slots i
  sidecar_before : ∀ i, i < phys → s'.metas i = s.metas i

variable (nowNs leaseNs) in
theorem exists_sweeps (hscanner : s.scanners t = .scanning phys) (hphys : phys < s.capacity)
    (hgone : ∀ i, phys ≤ i → i < s.capacity → OwnerGone s nowNs leaseNs i) :
    ∃ s', Sweeps t nowNs leaseNs s s' ∧ SweptFrom t phys s s' := by
  induction hn : s.capacity - phys generalizing s phys with
  | zero => omega
  | succ n ih =>
    obtain ⟨x, hx, hsweep⟩ := sweeps_slot hscanner (hgone phys le_rfl hphys)
    have hother : ∀ i, i ≠ phys → x.slots i = s.slots i ∧ x.metas i = s.metas i := by
      intro i hne
      rw [hx.slots, hx.metas, update_of_ne hne, update_of_ne hne]
      exact ⟨rfl, rfl⟩
    have hself : x.slots phys = (recovered s.reservationCursor (s.slots phys) (s.metas phys)).1 ∧
        x.metas phys = (recovered s.reservationCursor (s.slots phys) (s.metas phys)).2 := by
      rw [hx.slots, hx.metas, update_self, update_self]
      exact ⟨rfl, rfl⟩
    have hscanner' := hx.scanner
    by_cases hlast : phys + 1 < s.capacity
    · rw [if_pos hlast] at hscanner'
      have hgone' : ∀ i, phys + 1 ≤ i → i < x.capacity → OwnerGone x nowNs leaseNs i := by
        intro i hle hlt
        have hs := hgone i (by omega) (hx.capacity ▸ hlt)
        unfold OwnerGone mayBeDead at hs ⊢
        rw [(hother i (by omega)).2, hx.dead]
        exact hs
      obtain ⟨s', hs', hto⟩ := ih hscanner' (by rw [hx.capacity]; exact hlast) hgone'
        (by rw [hx.capacity]; omega)
      have hall : ∀ i, phys ≤ i → i < s.capacity →
          s'.slots i = (recovered s.reservationCursor (s.slots i) (s.metas i)).1 ∧
          s'.metas i = (recovered s.reservationCursor (s.slots i) (s.metas i)).2 := by
        intro i hle hlt
        by_cases heq : i = phys
        · rw [heq, hto.slot_before phys (Nat.lt_succ_self _), hto.sidecar_before phys (Nat.lt_succ_self _)]
          exact hself
        have hlt' : i < x.capacity := hx.capacity ▸ hlt
        rw [hto.slot i (by omega) hlt', hto.sidecar i (by omega) hlt', hx.reserved,
          (hother i heq).1, (hother i heq).2]
        exact ⟨rfl, rfl⟩
      exact ⟨s', hsweep s' hs', hto.scanner, hto.capacity.trans hx.capacity,
        hto.reserved.trans hx.reserved, hto.cons.trans hx.cons, hto.consumer.trans hx.consumer,
        fun i hle hlt => (hall i hle hlt).1, fun i hle hlt => (hall i hle hlt).2,
        fun i hlt => (hto.slot_before i (by omega)).trans (hother i (by omega)).1,
        fun i hlt => (hto.sidecar_before i (by omega)).trans (hother i (by omega)).2⟩
    · rw [if_neg hlast] at hscanner'
      have heq : ∀ i, phys ≤ i → i < s.capacity → i = phys := by omega
      exact ⟨x, hsweep x (.done hscanner'), hscanner', hx.capacity, hx.reserved, hx.cons, hx.consumer,
        fun i hle hlt => heq i hle hlt ▸ hself.1, fun i hle hlt => heq i hle hlt ▸ hself.2,
        fun i hi => (hother i (by omega)).1, fun i hi => (hother i (by omega)).2⟩

end Scan

/-! ### Both -/

/-- No claim stands in the way: there is none, or the scan revokes it. -/
def Unclaimed (reserved : Nat) (sidecar : MpscReservationMeta) : Prop :=
  sidecar.claimControl = .zero ∨ sidecar.claimControl.phase = .initializing ∨
    reserved ≤ sidecar.claimSequence

/-- The claim is of position `p`, and the slot shows one of the traces that the scan or the
consumer can finish. -/
def Finishable (p : Nat) (slot : IndexSlot μ) (sidecar : MpscReservationMeta) : Prop :=
  sidecar.claimSequence = p ∧ (slot.sequenceNum ≠ p ∨ slot.state = .reserved ∨
    slot.state = .writing ∨ slot.state = .aborted ∨
    sidecar.claimControl.phase = .cursorAdvanced ∨
    slot.state = .ready ∧ (slot.turn = p ∨ slot.turn = p + 1))

/-- The claims and the positions that the stopped producers left can be cleared away. -/
def Clearable (s : MpscSystem μ) : Prop :=
  (∀ p, s.consumerCursor ≤ p → p < s.reservationCursor →
    (Unclaimed s.reservationCursor (s.metaAt p) ∧ Takeable p (s.slotAt p)) ∨
    (¬ Unclaimed s.reservationCursor (s.metaAt p) ∧ Finishable p (s.slotAt p) (s.metaAt p))) ∧
  ∀ i, i < s.capacity → (∀ p, s.consumerCursor ≤ p → p < s.reservationCursor → s.index p ≠ i) →
    Unclaimed s.reservationCursor (s.metas i)

/-- What the stopped producers left can be cleared away, and every other slot is free for its next
position. -/
structure Recoverable (s : MpscSystem μ) : Prop where
  clearable : Clearable s
  free : ∀ p, s.reservationCursor ≤ p → p < s.consumerCursor + s.capacity → (s.slotAt p).turn = p

section Judgement

variable {reserved p : Nat} {slot : IndexSlot μ} {sidecar : MpscReservationMeta}

theorem recovered_of_unclaimed (h : Unclaimed reserved sidecar) :
    (recovered reserved slot sidecar).1 = slot ∧
      (recovered reserved slot sidecar).2.claimControl = .zero := by
  unfold recovered
  by_cases hzero : sidecar.claimControl = .zero
  · rw [if_pos hzero]
    exact ⟨rfl, hzero⟩
  · rw [if_neg hzero, if_pos (h.resolve_left hzero)]
    exact ⟨rfl, rfl⟩

variable (slot) in
/-- A claim that stands stays until the consumer releases it. -/
theorem recovered_of_claimed (h : ¬ Unclaimed reserved sidecar) :
    (recovered reserved slot sidecar).2.claimControl ≠ .zero ∧
      (recovered reserved slot sidecar).2.claimSequence = sidecar.claimSequence := by
  unfold Unclaimed at h
  rw [not_or] at h
  unfold recovered
  rw [if_neg h.1, if_neg h.2]
  split
  · exact ⟨h.1, rfl⟩
  split
  · exact ⟨h.1, rfl⟩
  split
  · exact ⟨fun heq => ClaimPhase.noConfusion (congrArg Claim.phase heq), rfl⟩
  · exact ⟨h.1, rfl⟩

/-- With a claim of position `p`, the consumer passes `p` behind the scan exactly if the
slot shows one of the traces. -/
theorem takeable_recovered_iff (h : ¬ Unclaimed reserved sidecar) (hseq : sidecar.claimSequence = p) :
    Takeable p (recovered reserved slot sidecar).1 ↔ Finishable p slot sidecar := by
  unfold Unclaimed at h
  rw [not_or] at h
  unfold recovered Takeable Finishable
  rw [if_neg h.1, if_neg h.2, hseq]
  by_cases hnumber : slot.sequenceNum = p
  · rw [if_neg (not_not.mpr hnumber)]
    by_cases hopen : slot.state = .reserved ∨ slot.state = .writing ∨
        sidecar.claimControl.phase = .cursorAdvanced
    · rw [if_pos hopen]
      rcases hopen with h | h | h <;> simp [h]
    rw [if_neg hopen]
    rw [not_or, not_or] at hopen
    by_cases hturn : slot.state = .ready ∧ slot.turn = p
    · rw [if_pos hturn]
      simp [hturn.1, hturn.2]
    rw [if_neg hturn]
    simp only [hnumber, ne_eq, not_true_eq_false, false_or, hopen.1, hopen.2.1, hopen.2.2,
      true_and]
    constructor
    · rintro (h | ⟨h₁, h₂⟩)
      · exact .inl h
      · exact .inr ⟨h₁, .inr h₂⟩
    · rintro (h | ⟨h₁, h₂⟩)
      · exact .inl h
      · exact .inr ⟨h₁, h₂.resolve_left fun h₃ => hturn ⟨h₁, h₃⟩⟩
  · rw [if_pos hnumber]
    simp [hnumber]

end Judgement

/-- What the scan and then the consumer have done: `s₁` is the state between the two, and `s₃`
the one at the end. -/
structure CleanedUp (s s₁ s₃ : MpscSystem μ) : Prop where
  slot : ∀ p, s₁.slotAt p = (recovered s.reservationCursor (s.slotAt p) (s.metaAt p)).1
  sidecar : ∀ i, i < s.capacity →
    s₁.metas i = (recovered s.reservationCursor (s.slots i) (s.metas i)).2
  le_cons : s.consumerCursor ≤ s₃.consumerCursor
  cons_le : s₃.consumerCursor ≤ s.reservationCursor
  takeable : ∀ p, s.consumerCursor ≤ p → p < s₃.consumerCursor → Takeable p (s₁.slotAt p)
  stopped : s₃.consumerCursor < s.reservationCursor →
    ¬ Takeable s₃.consumerCursor (s₁.slotAt s₃.consumerCursor)
  claim : ∀ i, (s₃.metas i).claimControl = .zero ↔ (s₁.metas i).claimControl = .zero ∨
    ∃ p, s.consumerCursor ≤ p ∧ p < s₃.consumerCursor ∧ s.index p = i ∧
      (s₁.metas i).claimSequence = p

section

variable {s₁ s₃ : MpscSystem μ} (hpow : ∃ k, s.capacity = 2 ^ k) (h : CleanedUp s s₁ s₃)
include hpow

theorem index_lt_capacity (p : Nat) : s.index p < s.capacity := by
  obtain ⟨k, hk⟩ := hpow
  rw [index_eq ⟨k, hk⟩, hk]
  exact Nat.mod_lt _ (Nat.two_pow_pos k)

/-- Two positions of one lap at one slot are one. -/
theorem eq_of_index_eq {p q : Nat} (hindex : s.index p = s.index q) (hp : p < q + s.capacity)
    (hq : q < p + s.capacity) : p = q := by
  rw [index_eq hpow, index_eq hpow] at hindex
  rcases Nat.lt_trichotomy p q with hlt | heq | hlt
  · exact absurd hindex.symm (mod_ne_of_lt hlt hq)
  · exact heq
  · exact absurd hindex (mod_ne_of_lt hlt hp)

include h

theorem CleanedUp.clearable (hwindow : s.reservationCursor ≤ s.consumerCursor + s.capacity)
    (hall : s₃.consumerCursor = s.reservationCursor)
    (hzero : ∀ i, i < s.capacity → (s₃.metas i).claimControl = .zero) : Clearable s := by
  constructor
  · intro p h₁ h₂
    have hp := h.takeable p h₁ (hall ▸ h₂)
    rw [h.slot] at hp
    by_cases hfree : Unclaimed s.reservationCursor (s.metaAt p)
    · rw [(recovered_of_unclaimed hfree).1] at hp
      exact .inl ⟨hfree, hp⟩
    obtain ⟨hstands, hsame⟩ := recovered_of_claimed (s.slotAt p) hfree
    have hbound := index_lt_capacity hpow p
    have hgoes := (h.claim (s.index p)).mp (hzero _ hbound)
    rw [h.sidecar _ hbound] at hgoes
    obtain ⟨p', h₁', h₂', hindex', hseq⟩ := hgoes.resolve_left hstands
    have heq : p' = p := eq_of_index_eq hpow hindex' (by omega) (by omega)
    have hseq' : (s.metaAt p).claimSequence = p := hsame.symm.trans (hseq.trans heq)
    exact .inr ⟨hfree, (takeable_recovered_iff hfree hseq').mp hp⟩
  · intro i hi hnone
    by_contra hclaimed
    have hgoes := (h.claim i).mp (hzero i hi)
    rw [h.sidecar i hi] at hgoes
    obtain ⟨p, h₁, h₂, hip, -⟩ := hgoes.resolve_left (recovered_of_claimed _ hclaimed).1
    exact hnone p h₁ (by omega) hip

omit hpow in
theorem CleanedUp.cleared (hclear : Clearable s) : s₃.consumerCursor = s.reservationCursor ∧
    ∀ i, i < s.capacity → (s₃.metas i).claimControl = .zero := by
  obtain ⟨hwithin, houtside⟩ := hclear
  have hpass : ∀ p, s.consumerCursor ≤ p → p < s.reservationCursor → Takeable p (s₁.slotAt p) := by
    intro p h₁ h₂
    rw [h.slot]
    rcases hwithin p h₁ h₂ with ⟨hfree, hp⟩ | ⟨hclaimed, hp⟩
    · rw [(recovered_of_unclaimed hfree).1]
      exact hp
    · exact (takeable_recovered_iff hclaimed hp.1).mpr hp
  have hall : s₃.consumerCursor = s.reservationCursor := by
    by_contra hne
    have hlt := Nat.lt_of_le_of_ne h.cons_le hne
    exact h.stopped hlt (hpass _ h.le_cons hlt)
  refine ⟨hall, fun i hi => (h.claim i).mpr ?_⟩
  rw [h.sidecar i hi]
  by_cases hfree : Unclaimed s.reservationCursor (s.metas i)
  · exact .inl (recovered_of_unclaimed hfree).2
  have hsome : ∃ p, s.consumerCursor ≤ p ∧ p < s.reservationCursor ∧ s.index p = i := by
    by_contra hnone
    exact hfree (houtside i hi fun p h₁ h₂ h₃ => hnone ⟨p, h₁, h₂, h₃⟩)
  obtain ⟨p, h₁, h₂, rfl⟩ := hsome
  rcases hwithin p h₁ h₂ with ⟨hfree', -⟩ | ⟨-, hp⟩
  · exact absurd hfree' hfree
  · exact .inr ⟨p, h₁, hall ▸ h₂, rfl, (recovered_of_claimed _ hfree).2.trans hp.1⟩

end

variable (crc) in
/-- The whole clean-up, from a state in which only the scan and then the consumer run. -/
theorem exists_cleanUp {t nowNs leaseNs : Nat} (hpow : ∃ k, s.capacity = 2 ^ k)
    (hscanner : s.scanners t = .idle) (hc : s.consumer = .idle) (hgone : ∀ i,
    i < s.capacity → OwnerGone s nowNs leaseNs i) (hle : s.consumerCursor ≤ s.reservationCursor)
    (hwindow : s.reservationCursor ≤ s.consumerCursor + s.capacity) :
    ∃ s₀ s₁ s₂ s₃, step crc s (.scan t) = some s₀ ∧ Sweeps t nowNs leaseNs s₀ s₁ ∧
      s₁.scanners t = .idle ∧ step crc s₁ .poll = some s₂ ∧ Drains crc s₂ s₃ ∧
      s₃.capacity = s.capacity ∧ s₃.reservationCursor = s.reservationCursor ∧
      ((s₃.consumerCursor = s₃.reservationCursor ∧
        ∀ i, i < s.capacity → (s₃.metas i).claimControl = .zero) ↔ Clearable s) ∧
      (s₃.consumerCursor = s₃.reservationCursor → Clearable s →
        (∀ p, s.consumerCursor ≤ p → p < s.reservationCursor →
          (s₃.slotAt p).turn = p + s.capacity) ∧
        ∀ p, s.reservationCursor ≤ p → p < s.consumerCursor + s.capacity →
          (s₃.slotAt p).turn = (s.slotAt p).turn) := by
  have hpos : 0 < s.capacity := by
    obtain ⟨k, hk⟩ := hpow
    rw [hk]
    exact Nat.two_pow_pos k
  have hscan : step crc s (.scan t) = some (s.scannerAt t (.scanning 0)) := by
    simp only [step, hscanner]
  obtain ⟨s₁, hsweeps, hswept⟩ := exists_sweeps nowNs leaseNs (s := s.scannerAt t (.scanning 0))
    (update_self ..) hpos fun i _ hi => hgone i hi
  have hconsumer : s₁.consumer = .idle := hswept.consumer.trans hc
  have hpoll : step crc s₁ .poll = some (s₁.consumerAt .polling) := by
    simp only [step, hconsumer]
  have hcapacity : s₁.capacity = s.capacity := hswept.capacity
  have hreserved : s₁.reservationCursor = s.reservationCursor := hswept.reserved
  have hcons : s₁.consumerCursor = s.consumerCursor := hswept.cons
  obtain ⟨s₃, hdrains, hto⟩ := exists_drains crc
    (by rw [show (s₁.consumerAt .polling).capacity = s.capacity from hcapacity]; exact hpow) rfl
    (by change s₁.consumerCursor ≤ s₁.reservationCursor; omega)
    (by change s₁.reservationCursor ≤ s₁.consumerCursor + s₁.capacity; omega)
  refine ⟨_, s₁, _, s₃, hscan, hsweeps, hswept.scanner, hpoll, hdrains, hto.capacity.trans hcapacity,
    hto.reserved.trans hreserved, ?_⟩
  have hindex : ∀ p, s₁.index p = s.index p := fun p => by rw [index, index, hcapacity]
  have hindex₃ : ∀ p, s₃.index p = s.index p := fun p => by
    rw [index, index, hto.capacity.trans hcapacity]
  have hbound := index_lt_capacity hpow
  have hthree : s₃.reservationCursor = s.reservationCursor := hto.reserved.trans hreserved
  have hdone : CleanedUp s s₁ s₃ := by
    refine ⟨fun p => ?_, fun i hi => hswept.sidecar i (Nat.zero_le _) hi, hcons ▸ hto.le_cons,
      hreserved ▸ hto.cons_le, fun p h₁ h₂ => ?_, fun hlt => ?_, fun i => ?_⟩
    · rw [slotAt, hindex]
      exact hswept.slot _ (Nat.zero_le _) (hbound p)
    · exact hto.takeable p (by change s₁.consumerCursor ≤ p; omega) h₂
    · exact hto.stopped (by change _ < s₁.reservationCursor; omega)
    · have hi := hto.claim i
      rw [show (s₁.consumerAt .polling).consumerCursor = s.consumerCursor from hcons] at hi
      simp only [show ∀ p, (s₁.consumerAt .polling).index p = s.index p from hindex] at hi
      exact hi
  refine ⟨⟨fun hend => ?_, fun hclear => ?_⟩, fun hall hclear => ⟨fun p h₁ h₂ => ?_, fun p h₁ h₂ => ?_⟩⟩
  · exact hdone.clearable hpow hwindow (hend.1.trans hthree) hend.2
  · obtain ⟨hall, hzero⟩ := hdone.cleared hclear
    exact ⟨hall.trans hthree.symm, hzero⟩
  · have hreleased := hto.released p (by change s₁.consumerCursor ≤ p; omega) (by omega)
    rw [show (s₁.consumerAt .polling).index p = s.index p from hindex p] at hreleased
    rw [slotAt, hindex₃, hreleased, ← hcapacity]
    rfl
  · -- the slot is of no position that the consumer passes, and the scan leaves it as it is
    have hother : ∀ q, s.consumerCursor ≤ q → q < s.reservationCursor → s.index q ≠ s.index p := by
      intro q hq hlt hsame
      have heq := eq_of_index_eq hpow hsame (by omega) (by omega)
      omega
    have hfree := hclear.2 (s.index p) (hbound p) hother
    have huntouched := hto.untouched (s.index p) fun q hq hlt => by
      rw [show (s₁.consumerAt .polling).index q = s.index q from hindex q]
      exact hother q (hcons ▸ hq) (by omega)
    rw [slotAt, hindex₃, huntouched]
    change (s₁.slots (s.index p)).turn = _
    rw [hswept.slot (s.index p) (Nat.zero_le _) (hbound p)]
    exact congrArg _ (recovered_of_unclaimed hfree).1

end Mino.Shm.MpscSystem
