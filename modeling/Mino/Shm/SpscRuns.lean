import Mino.Shm.SpscSafety

/-! # Runs of the SPSC channel -/

namespace Mino.Shm.SpscSystem

open List SpscEvent

open EventLog (mem_or_eq pairwise_append ite_lt_add_ite_range times_append zero_eq_ite_range)

variable {μ : Type} {crc : SlotCrc μ} {s s' : SpscSystem μ}

/-! ### The log -/

/-- How far one event moves the consumer cursor. -/
def retires (e : SpscEvent μ) (p : Nat) : Nat :=
  (if e.ackedSequence = some p then 1 else 0) + (if e.droppedSequence = some p then 1 else 0) +
    if e.skippedSequence = some p then 1 else 0

variable {prod cons : Nat} {log : List (SpscEvent μ)} {e : SpscEvent μ} {l l₀ : SpscConsumer μ}
  {action : SpscAction μ} {t : SpscSystem μ}

/-- What an event that is added to the log says of the cursors and of the log. -/
def Allowed (prod prod' cons : Nat) (log : List (SpscEvent μ)) : SpscEvent μ → Prop
  | .committed p _ | .aborted p => p = prod ∧ prod < prod'
  | .polled p m => p = cons ∧ .committed p m ∈ log
  | .skipped p => .aborted p ∈ log
  | .corrupted _ => False
  | _ => True

theorem Logged.emit {prod' cons'} (h : Logged prod cons log) (hprod : prod ≤ prod')
    (hcons : cons ≤ cons') (he : Allowed prod prod' cons log e) (hretires : ∀ p,
    retires e p = if cons ≤ p ∧ p < cons' then 1 else 0) : Logged prod' cons' (log ++ [e]) := by
  refine ⟨fun p m hp => ?_, fun p hp => ?_, fun p m hp hm => ?_, ?_, ?_, fun p m hp => ?_,
    fun p m hp => ?_, fun p hp => ?_, fun p => ?_, fun p hp => ?_⟩
  · rcases mem_or_eq hp with hp | rfl
    · exact Nat.lt_of_lt_of_le (h.committed_lt p m hp) hprod
    · exact Nat.lt_of_le_of_lt (Nat.le_of_eq he.1) he.2
  · rcases mem_or_eq hp with hp | rfl
    · exact Nat.lt_of_lt_of_le (h.aborted_lt p hp) hprod
    · exact Nat.lt_of_le_of_lt (Nat.le_of_eq he.1) he.2
  · rcases mem_or_eq hp with hold | rfl <;> rcases mem_or_eq hm with hm | hm
    · exact h.abortedAlone p m hold hm
    · subst hm
      exact absurd (h.aborted_lt p hold) (Nat.not_lt_of_le (Nat.le_of_eq he.1.symm))
    · exact absurd (h.committed_lt p m hm) (Nat.not_lt_of_le (Nat.le_of_eq he.1.symm))
    · cases hm
  · refine pairwise_append h.committedInOrder fun x hx a b ha hb => ?_
    cases x with
    | committed q m =>
      cases e with
      | committed q' m' =>
        cases ha
        cases hb
        obtain ⟨rfl, -⟩ := he
        exact h.committed_lt _ _ hx
      | _ => cases hb
    | _ => cases ha
  · refine pairwise_append h.polledInOrder fun x hx a b ha hb => ?_
    cases x with
    | polled q m =>
      cases e with
      | polled q' m' =>
        cases ha
        cases hb
        obtain ⟨rfl, -⟩ := he
        exact h.polled_le _ _ hx
      | _ => cases hb
    | _ => cases ha
  · rcases mem_or_eq hp with hp | rfl
    · exact Nat.le_trans (h.polled_le p m hp) hcons
    · exact Nat.le_trans (Nat.le_of_eq he.1) hcons
  · rcases mem_or_eq hp with hp | rfl
    · exact mem_append_left _ (h.polledCommitted p m hp)
    · exact mem_append_left _ he.2
  · rcases mem_or_eq hp with hp | rfl
    · exact mem_append_left _ (h.skippedAborted p hp)
    · exact mem_append_left _ he
  · have hold := h.retiredOnce p
    have hnew := hretires p
    unfold retires at hnew
    rw [times_append, times_append, times_append]
    have hcases := ite_lt_add_ite_range (p := p) hcons
    omega
  · rcases mem_or_eq hp with hp | rfl
    · exact h.uncorrupted p hp
    · exact he

/-- Events that name no position that matters. -/
def Quiet (e : SpscEvent μ) : Prop :=
  match e with
  | .refused _ | .wouldBlock | .overtaken _ => True
  | _ => False

section

variable (h : Logged prod cons log)
include h

theorem Logged.emit_quiet (he : Quiet e) : Logged prod cons (log ++ [e]) := by
  cases e with
  | refused | wouldBlock | overtaken =>
    exact h.emit le_rfl le_rfl trivial fun _ => zero_eq_ite_range
  | _ => exact he.elim

theorem Logged.retire
    (he : e = .acked cons ∨ e = .dropped cons ∨ (e = .skipped cons ∧ .aborted cons ∈ log)) :
    Logged prod (cons + 1) (log ++ [e]) := by
  refine h.emit le_rfl (Nat.le_succ _) ?_ fun p => ?_
  · rcases he with rfl | rfl | ⟨rfl, hab⟩
    · trivial
    · trivial
    · exact hab
  · rw [← EventLog.ite_eq_ite_range]
    rcases he with rfl | rfl | ⟨rfl, -⟩ <;>
      simp [retires, ackedSequence, droppedSequence, skippedSequence]

theorem Logged.publish (he : (∃ m, e = .committed prod m) ∨ e = .aborted prod) :
    Logged (prod + 1) cons (log ++ [e]) := by
  rcases he with ⟨m, rfl⟩ | rfl
  all_goals
    exact h.emit (Nat.le_succ _) le_rfl ⟨rfl, Nat.lt_succ_self _⟩ fun _ => zero_eq_ite_range

end

theorem Logged.poll {m} (h : Logged prod cons log) (hcom : .committed cons m ∈ log) :
    Logged prod cons (log ++ [.polled cons m]) :=
  h.emit le_rfl le_rfl ⟨rfl, hcom⟩ fun _ => zero_eq_ite_range

/-! ### Steps of one side -/

theorem Inv.producerAt (h : Inv crc s) {l} (hl : ProducerOk crc s l) : Inv crc (s.producerAt l) :=
  ⟨h.capacity, h.le, h.room, h.window, by cases l <;> exact hl, by
    have := h.consumer
    cases hc : s.consumer <;> rw [hc] at this <;> simp only [SpscSystem.producerAt, hc] <;> exact this,
    h.logged⟩

section

variable (h : Inv crc s) (hc : s.consumer = l₀)
include h hc

/-- Outside a retirement every slot between the cursors is live. -/
theorem Inv.live (hr : retiring l₀ = none) {p}
    (hle : s.consumerCursor ≤ p) (hlt : p < s.producerCursor) : Live crc (s.slotAt p) s.log p := by
  rcases h.window p hle hlt with hlive | hret
  · exact hlive
  · rw [hc, hr] at hret
    cases hret

theorem Inv.live_behind
    (hr : retiring l₀ = some s.consumerCursor) (p : Nat) (hle : s.consumerCursor < p)
    (hlt : p < s.producerCursor) : Live crc (s.slotAt p) s.log p := by
  refine (h.window p (Nat.le_of_lt hle) hlt).resolve_right fun hret => ?_
  rw [hc, hr] at hret
  cases hret
  exact Nat.lt_irrefl _ hle

theorem Inv.consumerAt (hr : retiring l₀ = none) (hl : ConsumerOk s l) : Inv crc (s.consumerAt l) :=
  ⟨h.capacity, h.le, h.room, fun _ hle hlt => .inl (h.live hc hr hle hlt), by
    have := h.producer
    cases hp : s.producer <;> rw [hp] at this <;> simp only [SpscSystem.consumerAt, hp] <;> exact this,
    by cases l <;> exact hl, h.logged⟩

end

/-- A local state of the consumer does not depend on what the log gains. -/
theorem ConsumerOk.emit (hl : ConsumerOk s l) (e : SpscEvent μ) : ConsumerOk (s.emit e) l := by
  cases l with
  | skipping cons | skipped cons => exact ⟨hl.1, mem_append_left _ hl.2⟩
  | _ => exact hl

theorem ProducerOk.emit {l} (hl : ProducerOk crc s l) (e : SpscEvent μ) :
    ProducerOk crc (s.emit e) l := by
  cases l <;> exact hl

theorem Inv.emit (h : Inv crc s) (hlog : Logged s.producerCursor s.consumerCursor (s.log ++ [e])) :
    Inv crc (s.emit e) :=
  ⟨h.capacity, h.le, h.room, fun p hle hlt => (h.window p hle hlt).imp (fun hl => hl.mono crc e) id,
    h.producer.emit e, h.consumer.emit e, hlog⟩

/-- Slots that nobody else looks at: outside the positions between the cursors. -/
def Outside (s : SpscSystem μ) (pos : Nat) : Prop :=
  ∀ p, s.consumerCursor ≤ p → p < s.producerCursor → p % s.capacity ≠ pos % s.capacity

theorem outside_producerCursor (hroom : s.producerCursor < s.consumerCursor + s.capacity) :
    s.Outside s.producerCursor :=
  fun _ _ hlt => (mod_ne_of_lt hlt (by omega)).symm

theorem ConsumerOk.frame (hl : ConsumerOk s l)
    (hprod : t.producerCursor = s.producerCursor) (hcons : t.consumerCursor = s.consumerCursor)
    (hlog : t.log = s.log) (hslot : s.consumerCursor < s.producerCursor →
      t.slotAt s.consumerCursor = s.slotAt s.consumerCursor) : ConsumerOk t l := by
  have hat : ∀ {c}, c = s.consumerCursor ∧ c < s.producerCursor → t.slotAt c = s.slotAt c := by
    rintro c ⟨rfl, hlt⟩
    exact hslot hlt
  cases l with
  | idle | polling => trivial
  | comparing c => exact hl.trans hcons.symm
  | probing c | acking c | acked c => exact ⟨hl.1.trans hcons.symm, hprod ▸ hl.2⟩
  | skipping c | skipped c => exact ⟨⟨hl.1.1.trans hcons.symm, hprod ▸ hl.1.2⟩, hlog ▸ hl.2⟩
  | checking c | copying c | copied c m | verifying c m q =>
    exact ⟨⟨hl.1.1.trans hcons.symm, hprod ▸ hl.1.2⟩, by rw [hat hl.1]; exact hl.2⟩
  | discarding c | discarded c => exact hl

theorem Inv.producerWrite (h : Inv crc s) {pos} (hout : s.Outside pos)
    (f : IndexSlot μ → IndexSlot μ) {l} (hl : ProducerOk crc (s.setSlot pos f) l) :
    Inv crc ((s.setSlot pos f).producerAt l) := by
  have hsame : ∀ p, s.consumerCursor ≤ p → p < s.producerCursor →
      (s.setSlot pos f).slotAt p = s.slotAt p := fun p hle hlt =>
    slotAt_setSlot_of_ne h.capacity (hout p hle hlt) f
  refine ⟨h.capacity, h.le, h.room, fun p hle hlt => ?_, by cases l <;> exact hl, ?_, h.logged⟩
  · change Live crc ((s.setSlot pos f).slotAt p) s.log p ∨ _
    rw [hsame p hle hlt]
    exact h.window p hle hlt
  · exact h.consumer.frame rfl rfl rfl fun hlt => hsame _ le_rfl hlt

theorem ProducerOk.frame {l} (hl : ProducerOk crc s l)
    (hcap : t.capacity = s.capacity) (hprod : t.producerCursor = s.producerCursor)
    (hcons : s.consumerCursor ≤ t.consumerCursor)
    (hslot : s.producerCursor < s.consumerCursor + s.capacity →
      t.slotAt s.producerCursor = s.slotAt s.producerCursor) : ProducerOk crc t l := by
  have hroom : ∀ {p}, p = s.producerCursor ∧ p < s.consumerCursor + s.capacity →
      (p = t.producerCursor ∧ p < t.consumerCursor + t.capacity) ∧ t.slotAt p = s.slotAt p := by
    rintro p ⟨rfl, hlt⟩
    rw [hprod, hcap]
    exact ⟨⟨rfl, by omega⟩, hslot hlt⟩
  cases l with
  | idle => trivial
  | reserving policy rate prod | waiting prod => exact hl.trans hprod.symm
  | dropping prod c => exact ⟨hl.1.trans hprod.symm, hcap ▸ hl.2.1, Nat.le_trans hl.2.2 hcons⟩
  | dropped prod c => exact ⟨hl.1.trans hprod.symm, hcap ▸ hl.2.1, Nat.lt_of_lt_of_le hl.2.2 hcons⟩
  | claiming prod => exact (hroom hl).1
  | stamped prod | reserved prod | sealed prod | published prod | tombstoned prod =>
    exact ⟨(hroom hl.1).1, by rw [(hroom hl.1).2]; exact hl.2⟩

section

variable (h : Inv crc s) (hc : cons = s.consumerCursor ∧ cons < s.producerCursor)
include h hc

theorem Inv.consumerRetire (hidle : s.consumer = l₀) (hr : retiring l₀ = none)
    (hret : retiring l = some cons) (hl : ConsumerOk (s.setState cons .retired) l) :
    Inv crc ((s.setState cons .retired).consumerAt l) := by
  obtain ⟨rfl, hlt⟩ := hc
  have hroom := h.room
  refine ⟨h.capacity, h.le, h.room, fun p hle hp => ?_, ?_, by cases l <;> exact hl, h.logged⟩
  · by_cases hpc : p = s.consumerCursor
    · exact .inr (by rw [hpc]; exact hret)
    · refine .inl ?_
      change Live crc ((s.setState s.consumerCursor .retired).slotAt p) s.log p
      change s.consumerCursor ≤ p at hle
      change p < s.producerCursor at hp
      rw [setState, slotAt_setSlot_of_ne h.capacity (mod_ne_of_lt (by omega) (by omega))]
      exact h.live hidle hr hle hp
  · exact h.producer.frame rfl rfl le_rfl fun hspace =>
      slotAt_setSlot_of_ne h.capacity (mod_ne_of_lt hlt hspace) fun slot =>
        { slot with state := .retired }

/-- The consumer cursor moves past a position that has been retired. -/
theorem Inv.advance (hwin : ∀ p, cons < p → p < s.producerCursor → Live crc (s.slotAt p) s.log p)
    (hlog : Logged s.producerCursor (cons + 1) (s.log ++ [e]))
    (hl : ConsumerOk ((s.setConsumerCursor (cons + 1)).emit e) l) :
    Inv crc (((s.setConsumerCursor (cons + 1)).consumerAt l).emit e) := by
  obtain ⟨rfl, hlt⟩ := hc
  have hroom := h.room
  refine ⟨h.capacity, hlt, ?_, fun p hle hp => .inl ((hwin p hle hp).mono crc e), ?_,
    by cases l <;> exact hl, hlog⟩
  · change s.producerCursor ≤ s.consumerCursor + 1 + s.capacity
    omega
  · exact h.producer.frame rfl rfl (Nat.le_succ _) fun _ => rfl

end

/-- The producer moves the consumer cursor past the oldest message. -/
theorem Inv.drop (h : Inv crc s) (hloaded : loaded s.consumer = false)
    (hl : prod = s.producerCursor ∧ prod = s.consumerCursor + s.capacity) (hpos : 0 < s.capacity) :
    Inv crc (((s.setConsumerCursor (s.consumerCursor + 1)).producerAt
      (.dropped prod s.consumerCursor)).emit (.dropped s.consumerCursor)) := by
  obtain ⟨rfl, hfull⟩ := hl
  have hconsumer : s.consumer = .idle ∨ s.consumer = .polling := by
    cases hc : s.consumer with
    | idle => exact .inl rfl
    | polling => exact .inr rfl
    | _ =>
      rw [hc] at hloaded
      cases hloaded
  have hnone : retiring s.consumer = none := by
    rcases hconsumer with hc | hc <;> rw [hc] <;> rfl
  refine ⟨h.capacity, ?_, ?_, fun p hle hp => .inl ?_, ⟨rfl, hfull, Nat.lt_succ_self _⟩, ?_,
    h.logged.retire (.inr (.inl rfl))⟩
  · change s.consumerCursor + 1 ≤ s.producerCursor
    omega
  · change s.producerCursor ≤ s.consumerCursor + 1 + s.capacity
    omega
  · exact (h.live rfl hnone (Nat.le_of_succ_le hle) hp).mono crc _
  · change ConsumerOk _ s.consumer
    rcases hconsumer with hc | hc <;> rw [hc] <;> trivial

theorem ConsumerOk.publish (hl : ConsumerOk s l) (producer : SpscProducer μ) (e : SpscEvent μ) :
    ConsumerOk (((s.setProducerCursor (s.producerCursor + 1)).producerAt producer).emit e) l := by
  have hgrow : ∀ {c}, c = s.consumerCursor ∧ c < s.producerCursor →
      c = s.consumerCursor ∧ c < s.producerCursor + 1 := fun hc => ⟨hc.1, Nat.lt_succ_of_lt hc.2⟩
  cases l with
  | idle | polling => trivial
  | probing c | acking c | acked c => exact hgrow hl
  | skipping c | skipped c => exact ⟨hgrow hl.1, mem_append_left _ hl.2⟩
  | checking c | copying c | copied c m | verifying c m q => exact ⟨hgrow hl.1, hl.2⟩
  | comparing c | discarding c | discarded c => exact hl

/-- The producer makes the slot of its position part of the queue. -/
theorem Inv.publish (h : Inv crc s) (hroom : s.producerCursor < s.consumerCursor + s.capacity)
    (hlive : Live crc (s.slotAt s.producerCursor) (s.log ++ [e]) s.producerCursor)
    (hlog : Logged (s.producerCursor + 1) s.consumerCursor (s.log ++ [e])) :
    Inv crc (((s.setProducerCursor (s.producerCursor + 1)).producerAt .idle).emit e) := by
  refine ⟨h.capacity, Nat.le_succ_of_le h.le, hroom, fun p hle hp => ?_, trivial,
    h.consumer.publish _ e, hlog⟩
  rcases Nat.lt_succ_iff_lt_or_eq.mp hp with hlt | heq
  · exact (h.window p hle hlt).imp (fun hl => hl.mono crc e) id
  · rw [heq]
    exact .inl hlive

/-! ### Every step -/

/-- The producer drops a message only while no `Poll` or `Ack` has loaded the consumer cursor. -/
def DropsUnloaded (s : SpscSystem μ) (action : SpscAction μ) : Prop :=
  match action, s.producer with
  | .produce _, .dropping _ cons => s.consumerCursor = cons → loaded s.consumer = false
  | _, _ => True

instance [DecidableEq μ] (s : SpscSystem μ) (action : SpscAction μ) :
    Decidable (DropsUnloaded s action) := by
  unfold DropsUnloaded
  split <;> infer_instance

theorem Inv.capacity_pos (h : Inv crc s) : 0 < s.capacity := by
  obtain ⟨k, hk⟩ := h.capacity
  rw [hk]
  exact Nat.two_pow_pos k

theorem Inv.onFull (h : Inv crc s) {policy rate}
    (hfull : s.producerCursor - s.consumerCursor ≥ s.capacity) :
    Inv crc (s.onFull policy rate s.producerCursor s.consumerCursor) := by
  have hroom := h.room
  have hle := h.le
  unfold SpscSystem.onFull
  cases policy with
  | fail | dropNewest =>
    exact (h.producerAt (l := .idle) trivial).emit (h.logged.emit_quiet trivial)
  | block => exact h.producerAt rfl
  | dropOldest => exact h.producerAt ⟨rfl, by omega, le_rfl⟩
  | sample =>
    by_cases hrate : s.producerCursor % (if rate = 0 then 1 else rate) ≠ 0
    · rw [if_pos hrate]
      exact (h.producerAt (l := .idle) trivial).emit (h.logged.emit_quiet trivial)
    · rw [if_neg hrate]
      exact h.producerAt rfl

theorem Inv.produce (h : Inv crc s) {retired} (hG : DropsUnloaded s (.produce retired))
    (hstep : s.produce retired = some s') : Inv crc s' := by
  have hp := h.producer
  have hpos := h.capacity_pos
  have hle := h.le
  unfold SpscSystem.produce at hstep
  cases hl : s.producer <;> simp only [hl] at hstep hp
  case reserving policy rate prod =>
    obtain rfl : prod = s.producerCursor := hp
    split at hstep
    · rename_i hfull
      cases hstep
      exact h.onFull hfull
    · cases hstep
      exact h.producerAt ⟨rfl, by omega⟩
  case waiting prod =>
    obtain rfl : prod = s.producerCursor := hp
    split at hstep
    · cases hstep
      exact h.producerAt ⟨rfl, by omega⟩
    · cases hstep
      exact h
  case dropping prod cons =>
    obtain ⟨rfl, hfull, hcons⟩ := hp
    split at hstep
    · rename_i heq
      cases hstep
      simp only [DropsUnloaded, hl] at hG
      have hloaded := hG heq
      subst heq
      exact h.drop hloaded ⟨rfl, hfull⟩ hpos
    · cases hstep
      exact h.producerAt ⟨rfl, by omega⟩
  case dropped prod cons =>
    obtain ⟨rfl, hfull, hcons⟩ := hp
    have hout : s.Outside cons := fun p hle hlt => mod_ne_of_lt (by omega) (by omega)
    split at hstep
    · cases hstep
      exact h.producerWrite hout _ ⟨rfl, by
        change s.producerCursor < s.consumerCursor + s.capacity
        omega⟩
    · cases hstep
      exact (h.producerWrite hout _ (l := .idle) trivial).emit (h.logged.emit_quiet trivial)
  case claiming prod =>
    obtain ⟨rfl, hroom⟩ := hp
    cases hstep
    exact h.producerWrite (outside_producerCursor hroom) _
      ⟨⟨rfl, hroom⟩, by rw [slotAt_setSlot_self]⟩
  case stamped prod =>
    obtain ⟨⟨rfl, hroom⟩, hseq⟩ := hp
    cases hstep
    exact h.producerWrite (outside_producerCursor hroom) _
      ⟨⟨rfl, hroom⟩, by rw [slotAt_setSlot_self]; exact hseq⟩
  case sealed prod =>
    obtain ⟨⟨rfl, hroom⟩, hseq, hcrc⟩ := hp
    cases hstep
    exact h.producerWrite (outside_producerCursor hroom) _
      ⟨⟨rfl, hroom⟩, by rw [slotAt_setSlot_self]; exact hseq,
        by rw [slotAt_setSlot_self]; exact hcrc, by rw [slotAt_setSlot_self]⟩
  case published prod =>
    obtain ⟨⟨rfl, hroom⟩, hseq, hcrc, hstate⟩ := hp
    cases hstep
    exact h.publish hroom ⟨hseq, .inl ⟨hstate, hcrc, mem_append_right _ mem_cons_self⟩⟩
      (h.logged.publish (.inl ⟨_, rfl⟩))
  case tombstoned prod =>
    obtain ⟨⟨rfl, hroom⟩, hseq, hstate⟩ := hp
    cases hstep
    exact h.publish hroom ⟨hseq, .inr ⟨hstate, mem_append_right _ mem_cons_self⟩⟩
      (h.logged.publish (.inr rfl))
  all_goals cases hstep

theorem Inv.consume (h : Inv crc s) (hstep : consume crc s = some s') : Inv crc s' := by
  have hc := h.consumer
  have hle := h.le
  unfold SpscSystem.consume at hstep
  cases hl : s.consumer <;> simp only [hl] at hstep hc
  case polling =>
    cases hstep
    exact h.consumerAt hl rfl rfl
  case comparing cons =>
    obtain rfl : cons = s.consumerCursor := hc
    split at hstep
    · cases hstep
      exact (h.consumerAt (l := .idle) hl rfl trivial).emit (h.logged.emit_quiet trivial)
    · cases hstep
      exact h.consumerAt hl rfl ⟨rfl, by omega⟩
  case probing cons =>
    obtain ⟨rfl, hlt⟩ := hc
    have hlive := h.live hl rfl le_rfl hlt
    split at hstep
    · rename_i hstate
      cases hstep
      refine h.consumerAt hl rfl ⟨⟨rfl, hlt⟩, ?_⟩
      rcases hlive.2 with ⟨hready, -, -⟩ | ⟨-, hab⟩
      · rw [hstate] at hready
        cases hready
      · exact hab
    · rename_i hstate
      cases hstep
      exact h.consumerAt hl rfl ⟨⟨rfl, hlt⟩, hstate⟩
    · cases hstep
      exact (h.consumerAt (l := .idle) hl rfl trivial).emit (h.logged.emit_quiet trivial)
  case skipping cons =>
    cases hstep
    exact h.consumerRetire hc.1 hl rfl rfl hc
  case skipped cons =>
    obtain ⟨⟨rfl, hlt⟩, hab⟩ := hc
    cases hstep
    exact h.advance ⟨rfl, hlt⟩ (h.live_behind hl rfl) (h.logged.retire (.inr (.inr ⟨rfl, hab⟩)))
      trivial
  case checking cons =>
    obtain ⟨⟨rfl, hlt⟩, hstate⟩ := hc
    have hlive := h.live hl rfl le_rfl hlt
    split at hstep
    · rename_i hne
      exact absurd hlive.1 hne
    · cases hstep
      exact h.consumerAt hl rfl ⟨⟨rfl, hlt⟩, hstate⟩
  case copying cons =>
    cases hstep
    exact h.consumerAt hl rfl ⟨hc.1, hc.2, rfl⟩
  case copied cons content =>
    obtain ⟨⟨rfl, hlt⟩, hstate, rfl⟩ := hc
    have hlive := h.live hl rfl le_rfl hlt
    cases hstep
    exact h.consumerAt hl rfl ⟨⟨rfl, hlt⟩, hstate, rfl, hlive.1⟩
  case verifying cons content sequenceNum =>
    obtain ⟨⟨rfl, hlt⟩, hstate, rfl, rfl⟩ := hc
    have hlive := h.live hl rfl le_rfl hlt
    obtain ⟨-, ⟨-, hcrc, hcom⟩ | ⟨hab, -⟩⟩ := hlive
    · rw [if_neg (not_not.mpr hcrc)] at hstep
      cases hstep
      exact (h.consumerAt (l := .idle) hl rfl trivial).emit (h.logged.poll hcom)
    · rw [hstate] at hab
      cases hab
  case acking cons =>
    cases hstep
    exact h.consumerRetire hc hl rfl rfl hc
  case acked cons =>
    obtain ⟨rfl, hlt⟩ := hc
    cases hstep
    exact h.advance ⟨rfl, hlt⟩ (h.live_behind hl rfl) (h.logged.retire (.inl rfl)) trivial
  case discarding | discarded => exact hc.elim
  cases hstep

theorem mem_of_borrowed {sequence} (h : s.borrowed sequence = true) :
    ∃ m, .polled sequence m ∈ s.log := by
  obtain ⟨e, he, heq⟩ := any_eq_true.mp h
  cases e with
  | polled q m =>
    have : q = sequence := by simpa [polledSequence] using heq
    exact ⟨m, this ▸ he⟩
  | _ => simp [polledSequence] at heq

theorem Inv.step (h : Inv crc s) (hG : DropsUnloaded s action)
    (hstep : step crc s action = some s') : Inv crc s' := by
  have hp := h.producer
  unfold SpscSystem.step at hstep
  cases action with
  | reserve policy rate =>
    dsimp only at hstep
    split at hstep
    · cases hstep
      exact h.producerAt rfl
    · cases hstep
  | fill content =>
    dsimp only at hstep
    split at hstep
    · rename_i prod hl
      cases hstep
      rw [hl] at hp
      obtain ⟨⟨rfl, hroom⟩, hseq⟩ := hp
      have hinv := h.producerWrite (l := .reserved s.producerCursor) (outside_producerCursor hroom)
        (fun slot => { slot with content }) ⟨⟨rfl, hroom⟩, by rw [slotAt_setSlot_self]; exact hseq⟩
      rw [← hl] at hinv
      exact hinv
    · cases hstep
  | commit =>
    dsimp only at hstep
    split at hstep
    · rename_i prod hl
      cases hstep
      rw [hl] at hp
      obtain ⟨⟨rfl, hroom⟩, hseq⟩ := hp
      exact h.producerWrite (outside_producerCursor hroom) _
        ⟨⟨rfl, hroom⟩, by rw [slotAt_setSlot_self]; exact hseq,
          by rw [slotAt_setSlot_self]; exact congrArg (crc · _) hseq⟩
    · cases hstep
  | abort =>
    dsimp only at hstep
    split at hstep
    · rename_i prod hl
      cases hstep
      rw [hl] at hp
      obtain ⟨⟨rfl, hroom⟩, hseq⟩ := hp
      exact h.producerWrite (outside_producerCursor hroom) _
        ⟨⟨rfl, hroom⟩, by rw [slotAt_setSlot_self]; exact hseq, by rw [slotAt_setSlot_self]⟩
    · cases hstep
  | produce retired => exact h.produce hG hstep
  | poll =>
    dsimp only at hstep
    split at hstep
    · rename_i hl
      cases hstep
      exact h.consumerAt hl rfl trivial
    · cases hstep
  | ack sequence =>
    dsimp only at hstep
    split at hstep
    · rename_i hl
      split at hstep
      · rename_i hborrowed
        split at hstep
        · cases hstep
          exact h.emit (h.logged.emit_quiet trivial)
        rename_i heq
        cases hstep
        obtain ⟨m, hm⟩ := mem_of_borrowed hborrowed
        have hlt := h.logged.committed_lt _ m (h.logged.polledCommitted _ m hm)
        exact h.consumerAt hl rfl ⟨not_not.mp heq, hlt⟩
      · cases hstep
    · cases hstep
  | consume => exact h.consume hstep

theorem inv_init {emptyContent base capacity}
    (h : init emptyContent base capacity = .ok s) : Inv crc s := by
  simp only [init, Result.unless_eq_ok] at h
  obtain ⟨-, -, hcap, -, h⟩ := h
  cases h
  simp only [not_or, Bool.not_eq_true', Bool.not_eq_false] at hcap
  have hne : capacity ≠ 0 := by omega
  refine ⟨exists_two_pow_of_isPowerOfTwo hne hcap.2, le_rfl, Nat.zero_le _,
    fun p _ hp => absurd hp (Nat.not_lt_zero p), trivial, trivial, ?_⟩
  refine ⟨?_, ?_, ?_, List.Pairwise.nil, List.Pairwise.nil, ?_, ?_, ?_, fun p => ?_, ?_⟩
  · rintro p m ⟨⟩
  · rintro p ⟨⟩
  · rintro p m ⟨⟩
  · rintro p m ⟨⟩
  · rintro p m ⟨⟩
  · rintro p ⟨⟩
  · exact (if_neg (Nat.not_lt_zero p)).symm
  · rintro p ⟨⟩

theorem consumerCursor_onFull (s : SpscSystem μ) (policy : QueueFullPolicy) (rate prod cons : Nat) :
    (s.onFull policy rate prod cons).consumerCursor = s.consumerCursor := by
  unfold onFull
  cases policy with
  | sample =>
    by_cases hrate : prod % (if rate = 0 then 1 else rate) ≠ 0
    · rw [if_pos hrate]
      rfl
    · rw [if_neg hrate]
      rfl
  | _ => rfl

/-- In the states of a run the consumer cursor does not go back. -/
theorem Inv.cursor_le (h : Inv crc s)
    (hstep : SpscSystem.step crc s action = some s') : s.consumerCursor ≤ s'.consumerCursor := by
  have hc := h.consumer
  unfold SpscSystem.step at hstep
  cases action with
  | reserve | fill | commit | abort | poll =>
    dsimp only at hstep
    split at hstep <;> cases hstep
    exact le_rfl
  | ack sequence =>
    dsimp only at hstep
    split at hstep
    · split at hstep
      · split at hstep <;> cases hstep <;> exact le_rfl
      · cases hstep
    · cases hstep
  | produce retired =>
    unfold SpscSystem.produce at hstep
    cases hl : s.producer <;> simp only [hl] at hstep
    case dropping prod cons =>
      split at hstep
      · rename_i heq
        cases hstep
        exact Nat.le_of_lt (Nat.lt_succ_of_le (Nat.le_of_eq heq))
      · cases hstep
        exact le_rfl
    case reserving policy rate prod =>
      split at hstep <;> cases hstep
      · exact Nat.le_of_eq (consumerCursor_onFull ..).symm
      · exact le_rfl
    case waiting prod | dropped prod cons =>
      split at hstep <;> cases hstep <;> exact le_rfl
    all_goals
      cases hstep
      try exact le_rfl
  | consume =>
    unfold SpscSystem.consume at hstep
    cases hl : s.consumer <;> simp only [hl] at hstep
    case comparing cons | probing cons | checking cons | verifying cons content sequenceNum =>
      split at hstep <;> cases hstep <;> exact le_rfl
    case skipped cons =>
      simp only [hl] at hstep hc
      cases hstep
      exact Nat.le_of_lt (Nat.lt_succ_of_le (Nat.le_of_eq hc.1.1.symm))
    case acked cons =>
      simp only [hl] at hstep hc
      cases hstep
      exact Nat.le_of_lt (Nat.lt_succ_of_le (Nat.le_of_eq hc.1.symm))
    case discarded cons => rw [hl] at hc; exact hc.elim
    all_goals
      cases hstep
      try exact le_rfl

/-- In every run in which the producer drops messages only while no call of the consumer has
loaded the cursor, the channel is a queue in every state, and no step takes the consumer cursor back. -/
theorem spsc_run_safe {emptyContent : μ} {base capacity : Nat} {start : SpscSystem μ}
    (hinit : init emptyContent base capacity = .ok start) {actions : List (SpscAction μ)}
    (hdrops : Interleaving.Throughout (step crc) DropsUnloaded start actions)
    (hrun : Interleaving.run (step crc) start actions = some s) :
    Safe s ∧ ∀ action s', step crc s action = some s' → s.consumerCursor ≤ s'.consumerCursor := by
  have hinv : Inv crc s := Interleaving.invariant_of_step (fun _ _ _ h hG hstep => h.step hG hstep)
    (inv_init hinit) hdrops hrun
  exact ⟨hinv.safe, fun _ _ hstep => hinv.cursor_le hstep⟩

/-! ### Runs with drops -/

/-- A message from reservation to commit, in a queue that has room. -/
def sendCalls (content : Nat) : List (SpscAction Nat) :=
  [.reserve .dropOldest 1, .produce .success, .produce .success, .produce .success, .fill content,
    .commit, .produce .success, .produce .success]

/-- The same in a full queue: the oldest message is dropped first. -/
def sendDroppingCalls (content : Nat) : List (SpscAction Nat) :=
  [.reserve .dropOldest 1, .produce .success, .produce .success, .produce .success,
    .produce .success, .produce .success, .fill content, .commit, .produce .success,
    .produce .success]

def pollCalls : List (SpscAction Nat) :=
  [.poll, .consume, .consume, .consume, .consume, .consume, .consume, .consume]

def sumCrc : SlotCrc Nat := fun sequence content => UInt32.ofNat (sequence + content)

/-- The channel of two slots as Init leaves it. -/
def twoSlots : SpscSystem Nat :=
  ⟨2, 0, 0, fun i => ⟨0, i, 0, .free, i⟩, .idle, .idle, []⟩

theorem spsc_run_safe_dropped :
    ∃ s, Interleaving.Throughout (step sumCrc) DropsUnloaded twoSlots
      (sendCalls 7 ++ sendCalls 8 ++ pollCalls ++ sendDroppingCalls 9) ∧
    Interleaving.run (step sumCrc) twoSlots
      (sendCalls 7 ++ sendCalls 8 ++ pollCalls ++ sendDroppingCalls 9) = some s ∧ Safe s ∧
    s.log = [.committed 0 7, .committed 1 8, .polled 0 7, .dropped 0, .committed 2 9] := by
  have hdrops : Interleaving.Throughout (step sumCrc) DropsUnloaded twoSlots
      (sendCalls 7 ++ sendCalls 8 ++ pollCalls ++ sendDroppingCalls 9) := by
    decide +kernel
  have hlog : (Interleaving.run (step sumCrc) twoSlots
      (sendCalls 7 ++ sendCalls 8 ++ pollCalls ++ sendDroppingCalls 9)).map SpscSystem.log =
      some [.committed 0 7, .committed 1 8, .polled 0 7, .dropped 0, .committed 2 9] := by
    decide +kernel
  obtain ⟨s, hs, hlog⟩ := Option.map_eq_some_iff.mp hlog
  have hinit : init 0 64 2 = .ok twoSlots := rfl
  exact ⟨s, hdrops, hs, (spsc_run_safe hinit hdrops hs).1, hlog⟩

/-- The consumer has checked the cursor for its acknowledgement of message 0 when the producer
drops messages 0 and 1: the stores of the acknowledgement take the cursor back from 2 to 1,
and message 1 is queued again. -/
theorem late_ack_takes_cursor_back : ∃ s, Interleaving.run (step sumCrc) twoSlots
      (sendCalls 7 ++ sendCalls 8 ++ pollCalls ++ [.ack 0] ++ sendDroppingCalls 9 ++
        sendDroppingCalls 10 ++ [.consume, .consume]) = some s ∧
    s.log = [.committed 0 7, .committed 1 8, .polled 0 7, .dropped 0, .committed 2 9, .dropped 1,
      .committed 3 10, .acked 0] ∧ s.consumerCursor = 1 ∧ ¬ Safe s := by
  have hend : (Interleaving.run (step sumCrc) twoSlots
      (sendCalls 7 ++ sendCalls 8 ++ pollCalls ++ [.ack 0] ++ sendDroppingCalls 9 ++
        sendDroppingCalls 10 ++ [.consume, .consume])).map (fun s => (s.log, s.consumerCursor)) =
      some ([.committed 0 7, .committed 1 8, .polled 0 7, .dropped 0, .committed 2 9, .dropped 1,
        .committed 3 10, .acked 0], 1) := by
    decide +kernel
  obtain ⟨s, hs, hend⟩ := Option.map_eq_some_iff.mp hend
  obtain ⟨hlog, hcursor⟩ := Prod.mk.inj hend
  refine ⟨s, hs, hlog, hcursor, fun hsafe => ?_⟩
  have hcount := hsafe.accounted 1 8 (by simp [hlog])
  rw [hlog, hcursor] at hcount
  revert hcount
  decide

end Mino.Shm.SpscSystem
