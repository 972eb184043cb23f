import Mino.Shm.MpscDelivery
import Mino.Shm.MpscRecovery

/-! # The window of the ring

Whatever the interleaving, without `kDropOldest` the reservation cursor stays within one lap
of the consumer cursor. This needs nothing of the messages, so it also holds where scanners
and producers get in each other's way. -/

namespace Mino.Shm

open Function MpscSystem

/-- No producer asks for the oldest message to be dropped. -/
def MpscAction.Undropping {μ : Type} : MpscAction μ → Prop
  | .reserve _ request => request.policy ≠ some .dropOldest
  | _ => True

namespace MpscSystem

variable {μ : Type} {crc : SlotCrc μ} {s s' : MpscSystem μ} {t : Nat} {c : MpscConsumer μ}
  {l : MpscProducer} {x : MpscScanner}

/-- One past the last position that may be reserved: the consumer frees a slot just before
it moves its cursor. -/
def limit (s : MpscSystem μ) : Nat :=
  s.consumerCursor + s.capacity + match s.consumer with
    | .advancing _ _ => 1
    | _ => 0

theorem limit_eq (h : ∀ cons next, s.consumer ≠ .advancing cons next) :
    s.limit = s.consumerCursor + s.capacity := by
  unfold limit
  split <;> rename_i hc
  · exact absurd hc (h _ _)
  · rfl

/-- The claim sequence of a sidecar is a position of its slot. -/
def Stored (s : MpscSystem μ) (i : Nat) : Prop := s.index (s.metas i).claimSequence = i

def ProducerWithin (s : MpscSystem μ) : MpscProducer → Prop
  | .idle => True
  | .loading request | .probing request _ | .blocked request _ | .sampling request =>
    request.policy ≠ some .dropOldest
  | .drawing request res | .redrawing request res | .tagging request res _
  | .sequencing request res _ => request.policy ≠ some .dropOldest ∧ res < s.limit
  | .identifying request res _ | .timing request res _ | .owning request res _
  | .advancing request res _ =>
    request.policy ≠ some .dropOldest ∧ res < s.limit ∧ s.Stored (s.index res)
  | .yielding request _ res => request.policy ≠ some .dropOldest ∧ s.Stored (s.index res)
  | .advanced res _ | .numbering res _ | .opening res _ | .opened res _ | .reserved res
  | .sealed res | .readied res | .marking res _ | .publishing res | .tombstoned res
  | .unmarking res _ => res < s.reservationCursor ∧ s.Stored (s.index res)
  | _ => False

def ConsumerWithin (s : MpscSystem μ) : MpscConsumer μ → Prop
  | .comparing cons => cons = s.consumerCursor
  | .probing cons | .judging cons _ | .checking cons =>
    cons = s.consumerCursor ∧ cons < s.reservationCursor
  | .copying cons | .copied cons _ => cons = s.consumerCursor ∧ cons < s.reservationCursor ∧
    (s.slotAt cons).sequenceNum < s.reservationCursor
  | .verifying cons _ sequenceNum => cons = s.consumerCursor ∧ cons < s.reservationCursor ∧
    sequenceNum < s.reservationCursor
  | .retiring cons _ | .advancing cons _ => cons = s.consumerCursor ∧ cons < s.reservationCursor
  | _ => True

def ScannerWithin (s : MpscSystem μ) : MpscScanner → Prop
  | .sequenced phys claim => claim.phase = .initializing ∨ s.Stored phys
  | .timed phys _ seq | .identified phys _ seq | .compared phys _ seq =>
    s.index seq = phys ∧ s.Stored phys
  | .numbered phys _ seq | .renumbering phys _ seq | .burying phys _ seq | .judged phys _ seq
  | .aborting phys _ seq _ | .turning phys _ seq | .marking phys _ seq | .publishing phys _ seq =>
    s.index seq = phys ∧ seq < s.reservationCursor ∧ s.Stored phys
  | _ => True

structure Window (s : MpscSystem μ) : Prop where
  pow : ∃ k, s.capacity = 2 ^ k
  two : 2 ≤ s.capacity
  le : s.consumerCursor ≤ s.reservationCursor
  reserved : s.reservationCursor ≤ s.limit
  turns : ∀ p, (s.slotAt p).turn = p → p < s.limit
  claims : ∀ i, (s.metas i).claimControl = .zero ∨
    (s.metas i).claimControl.phase = .initializing ∨ s.Stored i
  log : ∀ p m, .polled p m ∈ s.log → p < s.reservationCursor
  producers : ∀ t, s.ProducerWithin (s.producers t)
  reader : s.ConsumerWithin s.consumer
  scanners : ∀ t, s.ScannerWithin (s.scanners t)

/-! ### What every step leaves to the others -/

/-- What the parties that do not move rely on. -/
structure Widens (s s' : MpscSystem μ) : Prop where
  capacity : s'.capacity = s.capacity
  cons : s'.consumerCursor = s.consumerCursor
  reserved : s.reservationCursor ≤ s'.reservationCursor
  limit : s.limit ≤ s'.limit
  stored : ∀ i, s.Stored i → s'.Stored i
  sequence : ∀ i, (s'.slots i).sequenceNum = (s.slots i).sequenceNum ∨
    (s'.slots i).sequenceNum < s'.reservationCursor

theorem Widens.index_eq (h : Widens s s') (p : Nat) : s'.index p = s.index p := by
  rw [index, index, h.capacity]

theorem ProducerWithin.widens (hl : s.ProducerWithin l) (h : Widens s s') :
    s'.ProducerWithin l := by
  have hindex := h.index_eq
  have hreserved := h.reserved
  have hlimit := h.limit
  have hstored := h.stored
  cases l <;> simp only [ProducerWithin, hindex] at hl ⊢
  all_goals first
    | exact hl
    | exact ⟨hl.1, by omega⟩
    | exact ⟨hl.1, by omega, hstored _ hl.2.2⟩
    | exact ⟨hl.1, hstored _ hl.2⟩
    | exact ⟨by omega, hstored _ hl.2⟩

theorem ConsumerWithin.widens (hc : s.ConsumerWithin c) (h : Widens s s') :
    s'.ConsumerWithin c := by
  have hcons := h.cons
  have hreserved := h.reserved
  cases c with
  | copying cons | copied cons content =>
    refine ⟨hc.1.trans hcons.symm, by have := hc.2.1; omega, ?_⟩
    rw [slotAt, h.index_eq]
    rcases h.sequence (s.index cons) with heq | hlt
    · rw [heq]
      exact Nat.lt_of_lt_of_le hc.2.2 hreserved
    · exact hlt
  | comparing cons => exact Eq.trans hc hcons.symm
  | verifying cons content n => exact ⟨hc.1.trans hcons.symm, by have := hc.2.1; omega, by have := hc.2.2; omega⟩
  | probing cons | judging cons turn | checking cons | retiring cons next | advancing cons next =>
    exact ⟨hc.1.trans hcons.symm, by have := hc.2; omega⟩
  | _ => trivial

theorem ScannerWithin.widens (hx : s.ScannerWithin x) (h : Widens s s') : s'.ScannerWithin x := by
  have hindex := h.index_eq
  have hreserved := h.reserved
  have hstored := h.stored
  cases x <;> simp only [ScannerWithin, hindex] at hx ⊢
  all_goals first
    | exact hx
    | exact hx.imp_right (hstored _)
    | exact ⟨hx.1, hstored _ hx.2⟩
    | exact ⟨hx.1, by omega, hstored _ hx.2.2⟩

/-! ### Writes -/

theorem Window.shared (h : Window s) (hw : Widens s s')
    (hreserved : s'.reservationCursor ≤ s'.limit) (hturns : ∀ p,
    (s'.slotAt p).turn = p → p < s'.limit) (hclaims : ∀ i, (s'.metas i).claimControl = .zero ∨
      (s'.metas i).claimControl.phase = .initializing ∨ s'.Stored i)
    (hlog : ∀ p m, .polled p m ∈ s'.log → p < s'.reservationCursor)
    (hproducers : s'.producers = s.producers) (hconsumer : s'.consumer = s.consumer)
    (hscanners : s'.scanners = s.scanners) : Window s' where
  pow := by rw [hw.capacity]; exact h.pow
  two := by rw [hw.capacity]; exact h.two
  le := by rw [hw.cons]; exact Nat.le_trans h.le hw.reserved
  reserved := hreserved
  turns := hturns
  claims := hclaims
  log := hlog
  producers := fun t => by rw [hproducers]; exact (h.producers t).widens hw
  reader := by rw [hconsumer]; exact h.reader.widens hw
  scanners := fun t => by rw [hscanners]; exact (h.scanners t).widens hw

theorem Window.producerAt (h : Window s) (hl : s.ProducerWithin l) :
    Window (s.producerAt t l) where
  pow := h.pow
  two := h.two
  le := h.le
  reserved := h.reserved
  turns := h.turns
  claims := h.claims
  log := h.log
  producers := (forall_update_iff _ fun _ => s.ProducerWithin).mpr ⟨hl, fun u _ => h.producers u⟩
  reader := h.reader
  scanners := h.scanners

theorem Window.scannerAt (h : Window s) (hx : s.ScannerWithin x) :
    Window (s.scannerAt t x) where
  pow := h.pow
  two := h.two
  le := h.le
  reserved := h.reserved
  turns := h.turns
  claims := h.claims
  log := h.log
  producers := h.producers
  reader := h.reader
  scanners := (forall_update_iff _ fun _ => s.ScannerWithin).mpr ⟨hx, fun u _ => h.scanners u⟩

/-- The consumer moves, without a change of the limit. -/
theorem Window.consumerAt (h : Window s) (hc : s.ConsumerWithin c)
    (hlimit : (s.consumerAt c).limit = s.limit) : Window (s.consumerAt c) where
  pow := h.pow
  two := h.two
  le := h.le
  reserved := by rw [hlimit]; exact h.reserved
  turns := fun p hp => by rw [hlimit]; exact h.turns p hp
  claims := h.claims
  log := h.log
  producers := fun u => (h.producers u).widens ⟨rfl, rfl, le_rfl, Nat.le_of_eq hlimit.symm,
    fun _ h => h, fun _ => .inl rfl⟩
  reader := hc
  scanners := h.scanners

theorem Window.emit (h : Window s) {event}
    (hevent : ∀ p m, event = .polled p m → p < s.reservationCursor) : Window (s.emit event) :=
  h.shared ⟨rfl, rfl, le_rfl, le_rfl, fun _ h => h, fun _ => .inl rfl⟩ h.reserved h.turns h.claims
    (fun p m hmem => by
      rcases List.mem_append.mp hmem with hmem | hmem
      · exact h.log p m hmem
      · exact hevent p m (List.mem_singleton.mp hmem).symm) rfl rfl rfl

variable {i : Nat} {f : MpscReservationMeta → MpscReservationMeta} {next : MpscReturn}

theorem stored_setMeta {j} (hf : s.index (f (s.metas i)).claimSequence = i ∨
      (f (s.metas i)).claimSequence = (s.metas i).claimSequence) (h : s.Stored j) :
    (s.setMeta i f).Stored j := by
  change s.index (update s.metas i (f (s.metas i)) j).claimSequence = j
  by_cases hj : j = i
  · subst hj
    rw [update_self]
    rcases hf with hf | hf
    · exact hf
    · rw [hf]
      exact h
  · rw [update_of_ne hj]
    exact h

section

variable (h : Window s) {spuriousFailure : Bool} {action : MpscAction μ}
include h

theorem Window.setMeta (hf : s.index (f (s.metas i)).claimSequence = i ∨
      (f (s.metas i)).claimSequence = (s.metas i).claimSequence)
    (hclaim : (f (s.metas i)).claimControl = .zero ∨
      (f (s.metas i)).claimControl.phase = .initializing ∨ (s.setMeta i f).Stored i) :
    Window (s.setMeta i f) := by
  refine h.shared ⟨rfl, rfl, le_rfl, le_rfl, fun j => stored_setMeta hf,
    fun _ => .inl rfl⟩ h.reserved h.turns (fun j => ?_) h.log rfl rfl rfl
  by_cases hj : j = i
  · subst hj
    rw [show (s.setMeta j f).metas j = f (s.metas j) from update_self _ _ _]
    exact hclaim
  · rw [show (s.setMeta i f).metas j = s.metas j from update_of_ne hj _ _]
    exact (h.claims j).imp_right (Or.imp_right (stored_setMeta hf))

theorem Window.setClaim {claim} (hclaim : claim = .zero ∨ claim.phase = .initializing ∨
    s.Stored i) : Window (s.setClaim i claim) :=
  h.setMeta (.inr rfl) (hclaim.imp_right (Or.imp_right (stored_setMeta (.inr rfl))))

/-- The other parts of a sidecar. -/
theorem Window.setOwner (hsequence : (f (s.metas i)).claimSequence = (s.metas i).claimSequence)
    (hcontrol : (f (s.metas i)).claimControl = (s.metas i).claimControl) : Window (s.setMeta i f) :=
  h.setMeta (.inr hsequence) (by
    rw [hcontrol]
    exact (h.claims i).imp_right (Or.imp_right (stored_setMeta (.inr hsequence))))

theorem Window.setSlot {f}
    (hturn : (f (s.slots i)).turn = (s.slots i).turn ∨ s.index (f (s.slots i)).turn ≠ i)
    (hsequence : (f (s.slots i)).sequenceNum = (s.slots i).sequenceNum ∨
      (f (s.slots i)).sequenceNum < s.reservationCursor) : Window (s.setSlot i f) := by
  refine h.shared ⟨rfl, rfl, le_rfl, le_rfl, fun _ h => h, fun j => ?_⟩ h.reserved
    (fun p hp => ?_) h.claims h.log rfl rfl rfl
  · change (update s.slots i (f (s.slots i)) j).sequenceNum = _ ∨
      (update s.slots i (f (s.slots i)) j).sequenceNum < _
    by_cases hj : j = i
    · subst hj
      rw [update_self]
      exact hsequence
    · rw [update_of_ne hj]
      exact .inl rfl
  · change (update s.slots i (f (s.slots i)) (s.index p)).turn = p at hp
    by_cases hi : s.index p = i
    · rw [hi, update_self] at hp
      rcases hturn with hturn | hturn
      · refine h.turns p ?_
        rw [slotAt, hi, ← hturn]
        exact hp
      · rw [hp] at hturn
        exact absurd hi hturn
    · rw [update_of_ne hi] at hp
      exact h.turns p hp

theorem Window.index_succ_ne (p : Nat) : s.index (p + 1) ≠ s.index p := by
  rw [index_eq h.pow, index_eq h.pow]
  exact mod_ne_of_lt (Nat.lt_succ_self p) (by have := h.two; omega)

/-! ### Producers -/

theorem Window.refuse (status : Status) : Window (s.refuse t status) :=
  (h.producerAt (l := .idle) trivial).emit nofun

theorem Window.claimNext {nowNs}
    (hstep : s.claimNext t nowNs (s.producers t) = some s') : Window s' := by
  have hp := h.producers t
  have hdraw : Window s.drawToken := ⟨h.pow, h.two, h.le, h.reserved, h.turns, h.claims, h.log,
    h.producers, h.reader, h.scanners⟩
  cases hl : s.producers t <;> rw [hl] at hstep hp <;> simp only [MpscSystem.claimNext] at hstep
  case loading request =>
    cases hstep
    exact h.producerAt hp
  case probing request res =>
    split at hstep
    · cases hstep
      exact h.producerAt hp
    split at hstep
    · cases hstep
      exact h.producerAt hp
    · cases hstep
      exact h.producerAt ⟨hp, h.turns res (by omega)⟩
  case drawing request res =>
    split at hstep <;> cases hstep <;> exact hdraw.producerAt hp
  case redrawing request res =>
    cases hstep
    exact hdraw.producerAt hp
  case tagging request res token =>
    split at hstep <;> cases hstep
    · exact (h.setClaim (.inr (.inl rfl))).producerAt hp
    · exact h.producerAt hp.1
  case sequencing request res claim =>
    cases hstep
    have hstored : (s.setMeta (s.index res) fun sidecar => { sidecar with
        claimSequence := res }).Stored (s.index res) := by
      change s.index (update s.metas (s.index res) _ (s.index res)).claimSequence = _
      rw [update_self]
    exact (h.setMeta (.inl rfl) (.inr (.inr hstored))).producerAt ⟨hp.1, hp.2, hstored⟩
  case identifying request res claim | timing request res claim =>
    cases hstep
    exact (h.setOwner rfl rfl).producerAt ⟨hp.1, hp.2.1, stored_setMeta (.inr rfl) hp.2.2⟩
  case owning request res claim =>
    split at hstep <;> cases hstep
    · exact (h.setClaim (.inr (.inr hp.2.2))).producerAt
        ⟨hp.1, hp.2.1, stored_setMeta (.inr rfl) hp.2.2⟩
    · exact h.producerAt hp.1
  case advancing request res claim =>
    split at hstep <;> cases hstep
    · rename_i heq
      have hmore : Window (s.setReservationCursor (res + 1)) := by
        refine h.shared ⟨rfl, rfl, ?_, le_rfl, fun _ h => h,
          fun _ => .inl rfl⟩ hp.2.1 h.turns h.claims (fun p m hmem => ?_) rfl rfl rfl
        · change s.reservationCursor ≤ res + 1
          omega
        · have := h.log p m hmem
          change p < res + 1
          omega
      exact (hmore.producerAt (l := .advanced res claim) ⟨Nat.lt_succ_self res, hp.2.2⟩).emit nofun
    · exact h.producerAt ⟨hp.1, hp.2.2⟩
  case yielding request claim res =>
    split at hstep <;> cases hstep
    · exact (h.setClaim (.inl rfl)).producerAt hp.1
    · exact h.producerAt hp.1
  all_goals cases hstep

theorem Window.ownNext (hstep : s.ownNext t (s.producers t) = some s') : Window s' := by
  have hp := h.producers t
  cases hl : s.producers t <;> rw [hl] at hstep hp
  case advanced res claim | opened res claim | marking res claim =>
    cases hstep
    exact (h.setClaim (.inr (.inr hp.2))).producerAt ⟨hp.1, stored_setMeta (.inr rfl) hp.2⟩
  case numbering res claim =>
    cases hstep
    exact (h.setSlot (.inl rfl) (.inr hp.1)).producerAt hp
  case opening res claim =>
    cases hstep
    exact (h.setSlot (.inl rfl) (.inl rfl)).producerAt hp
  case sealed res =>
    simp only [MpscSystem.ownNext] at hstep
    split at hstep <;> cases hstep
    · exact (h.setSlot (.inl rfl) (.inl rfl)).producerAt hp
    · exact (h.producerAt (l := .idle) trivial).emit nofun
  case readied res | tombstoned res =>
    cases hstep
    exact h.producerAt hp
  case publishing res =>
    cases hstep
    exact ((h.setSlot (.inr (h.index_succ_ne res)) (.inl rfl)).producerAt (l := .idle) trivial).emit nofun
  case unmarking res claim =>
    cases hstep
    exact ((h.setClaim (.inr (.inr hp.2))).producerAt (l := .idle) trivial).emit nofun
  all_goals cases hstep

theorem Window.fullNext {observed}
    (hstep : s.fullNext t observed spuriousFailure (s.producers t) = some s') : Window s' := by
  have hp := h.producers t
  cases hl : s.producers t <;> rw [hl] at hstep hp
  case blocked request res =>
    cases hstep
    unfold onFull
    cases hpolicy : request.policy with
    | none => exact h.refuse _
    | some policy =>
      cases policy with
      | fail | dropNewest => exact h.refuse _
      | block | sample => exact h.producerAt hp
      | dropOldest => exact absurd hpolicy hp
  case sampling request =>
    rcases sampling_cases hstep with ⟨status, rfl⟩ | rfl
    · exact h.refuse _
    · exact h.producerAt hp
  all_goals
    first
      | exact hp.elim
      | cases hstep

theorem Window.produceCall (hdrop : action.Undropping)
    (hstep : produceCall crc s t action = some s') : Window s' := by
  have hp := h.producers t
  cases action with
  | reserve u request =>
    cases hl : s.producers t <;> simp only [produceCall, hl] at hstep
    case idle =>
      cases hstep
      exact h.producerAt hdrop
    all_goals cases hstep
  | fill u content =>
    cases hl : s.producers t <;> simp only [produceCall, hl] at hstep
    case reserved res =>
      cases hstep
      exact h.setSlot (.inl rfl) (.inl rfl)
    all_goals cases hstep
  | commit u =>
    cases hl : s.producers t <;> simp only [produceCall, hl] at hstep
    case reserved res =>
      rw [hl] at hp
      cases hstep
      exact (h.setSlot (.inl rfl) (.inl rfl)).producerAt hp
    all_goals cases hstep
  | abort u =>
    cases hl : s.producers t <;> simp only [produceCall, hl] at hstep
    case reserved res =>
      rw [hl] at hp
      split at hstep
      · cases hstep
        exact ((h.setSlot (.inl rfl) (.inl rfl)).producerAt (l := .tombstoned res) hp).emit nofun
      split at hstep <;> cases hstep
      · exact h.producerAt hp
      · exact (h.producerAt (l := .idle) trivial).emit nofun
    all_goals cases hstep
  | produce => exact produce_elim hstep h.claimNext h.ownNext h.fullNext
  | _ => cases hstep

/-! ### The consumer -/

/-- The consumer frees the slot of its position: the limit goes up with the turn. -/
theorem Window.retire {cons} (hc : s.consumer = .retiring cons next) :
    Window ((s.setTurn (s.index cons) (cons + s.capacity)).consumerAt (.advancing cons next)) := by
  have hreader := h.reader
  rw [hc] at hreader
  obtain ⟨hcons, hlt⟩ := hreader
  have hbefore : s.limit = s.consumerCursor + s.capacity :=
      limit_eq (by rw [hc]; nofun)
  have hafter : ((s.setTurn (s.index cons) (cons + s.capacity)).consumerAt
      (.advancing cons next)).limit = s.consumerCursor + s.capacity + 1 := rfl
  have hw : Widens s
      ((s.setTurn (s.index cons) (cons + s.capacity)).consumerAt (.advancing cons next)) := by
    refine ⟨rfl, rfl, le_rfl, by omega, fun _ h => h, fun i => .inl ?_⟩
    change (update s.slots (s.index cons) _ i).sequenceNum = _
    by_cases hi : i = s.index cons
    · rw [hi, update_self]
    · rw [update_of_ne hi]
  refine ⟨h.pow, h.two, h.le, ?_, fun p hp => ?_, h.claims, h.log,
    fun u => (h.producers u).widens hw, ⟨hcons, hlt⟩, fun u => (h.scanners u).widens hw⟩
  · have := h.reserved
    rw [hafter]
    change s.reservationCursor ≤ _
    omega
  · rw [hafter]
    change (update s.slots (s.index cons) _ (s.index p)).turn = p at hp
    by_cases hi : s.index p = s.index cons
    · rw [hi, update_self] at hp
      change cons + s.capacity = p at hp
      omega
    · rw [update_of_ne hi] at hp
      have := h.turns p hp
      omega

/-- The consumer cursor moves on; the limit stays. -/
theorem Window.advance {cons} (hc : s.consumer = .advancing cons next) :
    Window (((s.setConsumerCursor (cons + 1)).consumerAt (.releasing cons next)).emit
      (retirement cons next)) := by
  have hreader := h.reader
  rw [hc] at hreader
  obtain ⟨hcons, hlt⟩ := hreader
  have hlimit : ((s.setConsumerCursor (cons + 1)).consumerAt (.releasing cons next)).limit =
      s.limit := by
    rw [limit, limit, hc]
    change cons + 1 + s.capacity + 0 = s.consumerCursor + s.capacity + 1
    omega
  have hwindow : Window ((s.setConsumerCursor (cons + 1)).consumerAt (.releasing cons next)) := by
    refine ⟨h.pow, h.two, hlt, by rw [hlimit]; exact h.reserved,
      fun p hp => by rw [hlimit]; exact h.turns p hp, h.claims, h.log, fun u => ?_, trivial, ?_⟩
    · have hp := h.producers u
      change MpscSystem.ProducerWithin _ (s.producers u)
      revert hp
      cases s.producers u <;> intro hp <;> simp only [ProducerWithin, hlimit] at hp ⊢ <;> exact hp
    · exact h.scanners
  exact hwindow.emit (by cases next <;> nofun)

theorem Window.afterRelease (hlimit : s.limit = s.consumerCursor + s.capacity) :
    Window (s.afterRelease next) := by
  rw [afterRelease_eq]
  cases next <;> exact h.consumerAt trivial hlimit.symm

theorem Window.consume
    (hstep : MpscSystem.consume crc s spuriousFailure = some s') : Window s' := by
  have hreader := h.reader
  by_cases hadvancing : ∃ cons next, s.consumer = .advancing cons next
  · obtain ⟨cons, next, hc⟩ := hadvancing
    simp only [MpscSystem.consume, hc] at hstep
    cases hstep
    exact h.advance hc
  -- only behind the store of a free turn is the limit ahead of the cursor
  have hlimit : s.consumerCursor + s.capacity = s.limit :=
    (limit_eq fun cons next hc => hadvancing ⟨cons, next, hc⟩).symm
  cases hc : s.consumer <;> simp only [MpscSystem.consume, hc] at hstep <;> rw [hc] at hreader
  case idle => cases hstep
  case retiring cons next =>
    cases hstep
    exact h.retire hc
  case advancing cons next => exact absurd ⟨cons, next, hc⟩ hadvancing
  case polling =>
    cases hstep
    exact h.consumerAt rfl hlimit
  case comparing cons =>
    have hle := h.le
    split at hstep <;> cases hstep
    · exact (h.consumerAt (c := .idle) trivial hlimit).emit (by simp)
    have hcons : cons = s.consumerCursor := hreader
    exact h.consumerAt ⟨hcons, by omega⟩ hlimit
  case probing cons | copying cons | copied cons content =>
    cases hstep
    exact h.consumerAt hreader hlimit
  case judging cons turn =>
    split at hstep
    · cases hstep
      exact h.consumerAt hreader hlimit
    split at hstep <;> cases hstep
    · exact (h.consumerAt (c := .idle) trivial hlimit).emit (by simp)
    · exact h.consumerAt hreader hlimit
  case checking cons =>
    split at hstep <;> cases hstep
    · exact h.consumerAt hreader hlimit
    rename_i hseq
    exact h.consumerAt ⟨hreader.1, hreader.2,
      Nat.lt_of_le_of_lt (Nat.le_of_eq (not_not.mp hseq)) hreader.2⟩ hlimit
  case verifying cons content sequenceNum =>
    split at hstep <;> cases hstep
    · exact h.consumerAt ⟨hreader.1, hreader.2.1⟩ hlimit
    refine (h.consumerAt (c := .idle) trivial hlimit).emit fun p m heq => ?_
    cases heq
    exact hreader.2.2
  case releasing cons next =>
    cases hstep
    exact h.consumerAt trivial hlimit
  case comparingClaim cons next claim =>
    split at hstep <;> cases hstep
    · exact h.consumerAt trivial hlimit
    · exact h.afterRelease hlimit.symm
  case freeing cons next claim =>
    split at hstep <;> cases hstep
    · exact (h.setClaim (.inl rfl)).afterRelease hlimit.symm
    · exact h.consumerAt trivial hlimit

/-! ### Scanners -/

theorem Window.scanOn (phys : Nat) : Window (s.scanOn t phys) := by
  unfold MpscSystem.scanOn
  split
  · exact h.scannerAt trivial
  · exact (h.scannerAt (x := .idle) trivial).emit nofun

theorem Window.recover {nowNs leaseNs probedDead}
    (hstep : s.recover t nowNs leaseNs probedDead = some s') : Window s' := by
  have hx := h.scanners t
  have hbury : ∀ phys seq, Window ((s.setState phys .aborted).emit (.buried seq)) :=
    fun _ _ => (h.setSlot (.inl rfl) (.inl rfl)).emit nofun
  cases hl : s.scanners t <;> simp only [MpscSystem.recover, hl] at hstep <;> rw [hl] at hx
  case idle => cases hstep
  case scanning phys =>
    split at hstep <;> cases hstep
    · exact h.scanOn phys
    · rename_i hne
      exact h.scannerAt ((h.claims phys).resolve_left hne)
  case sequenced phys claim =>
    split at hstep <;> cases hstep
    · exact h.scannerAt trivial
    rename_i hne
    have hstored := Or.resolve_left hx hne
    exact h.scannerAt ⟨hstored, hstored⟩
  case revoking phys claim =>
    split at hstep
    · split at hstep <;> cases hstep
      exact h.scannerAt trivial
    · cases hstep
      exact h.scanOn phys
  case timed phys claim seq | turning phys claim seq =>
    split at hstep <;> cases hstep
    · exact h.scannerAt hx
    · exact h.scanOn phys
  case identified phys claim seq =>
    split at hstep
    · split at hstep <;> cases hstep
      exact h.scannerAt hx
    · cases hstep
      exact h.scanOn phys
  case compared phys claim seq =>
    split at hstep <;> cases hstep
    · exact h.scannerAt trivial
    · rename_i hlt
      exact h.scannerAt ⟨hx.1, Nat.lt_of_not_le hlt, hx.2⟩
  case releasing phys claim =>
    split at hstep <;> cases hstep
    · exact (h.setClaim (.inl rfl)).scanOn phys
    · exact h.scanOn phys
  case numbered phys claim seq =>
    split at hstep <;> cases hstep <;> exact h.scannerAt hx
  case renumbering phys claim seq =>
    cases hstep
    exact (h.setSlot (.inl rfl) (.inr hx.2.1)).scannerAt hx
  case burying phys claim seq =>
    cases hstep
    exact (hbury phys seq).scanOn phys
  case judged phys claim seq =>
    split at hstep
    · cases hstep
      exact h.scannerAt hx
    split at hstep <;> cases hstep
    · exact h.scannerAt hx
    · exact h.scanOn phys
  case aborting phys claim seq state =>
    split at hstep <;> cases hstep
    · exact (hbury phys seq).scanOn phys
    · exact h.scanOn phys
  case marking phys claim seq =>
    cases hstep
    exact (h.setClaim (.inr (.inr hx.2.2))).scannerAt
      ⟨hx.1, hx.2.1, stored_setMeta (.inr rfl) hx.2.2⟩
  case publishing phys claim seq =>
    cases hstep
    have hturn : Window (s.setTurn phys (seq + 1)) :=
      h.setSlot (.inr (hx.1 ▸ h.index_succ_ne seq)) (.inl rfl)
    exact hturn.scanOn phys

/-! ### Runs -/

theorem Window.step (hdrop : action.Undropping)
    (hstep : step crc s action = some s') : Window s' := by
  have hidleLimit : s.consumer = .idle → s.limit = s.consumerCursor + s.capacity := fun hc =>
    limit_eq (by rw [hc]; nofun)
  cases action with
  | poll =>
    obtain ⟨hc, rfl⟩ := poll_ok hstep
    exact h.consumerAt trivial (hidleLimit hc).symm
  | ack sequence =>
    obtain ⟨hc, hborrowed, rfl | ⟨heq, rfl⟩⟩ := ack_ok hstep
    · exact h.emit nofun
    obtain ⟨event, hmem, hevent⟩ := List.any_eq_true.mp hborrowed
    have hlt : sequence < s.reservationCursor := by
      cases event with
      | polled p m =>
        have hp : p = sequence := by simpa [MpscEvent.polledSequence] using hevent
        exact hp ▸ h.log p m hmem
      | _ => simp [MpscEvent.polledSequence] at hevent
    exact h.consumerAt ⟨heq, hlt⟩ (hidleLimit hc).symm
  | consume spuriousFailure => exact h.consume hstep
  | scan u =>
    cases hl : s.scanners u <;> simp only [step, hl] at hstep
    case idle =>
      cases hstep
      exact h.scannerAt trivial
    all_goals cases hstep
  | recover u nowNs leaseNs probedDead => exact h.recover hstep
  | die process =>
    cases hstep
    exact ⟨h.pow, h.two, h.le, h.reserved, h.turns, h.claims, h.log, h.producers, h.reader, h.scanners⟩
  | _ => exact h.produceCall hdrop (Option.ite_none_right_eq_some.mp hstep).2

end

theorem Window.init {emptyContent process base capacity}
    (hinit : MpscSystem.init emptyContent process base capacity = .ok s) : Window s := by
  simp only [MpscSystem.init, Result.unless_eq_ok] at hinit
  obtain ⟨-, -, hcapacity, -, hinit⟩ := hinit
  cases hinit
  rw [not_or] at hcapacity
  have hpow : ∃ k, capacity = 2 ^ k :=
    exists_two_pow_of_isPowerOfTwo (by omega) (by simpa using hcapacity.2)
  refine ⟨hpow, by change 2 ≤ capacity; omega, le_rfl, Nat.zero_le _, fun p hp => ?_,
    fun _ => .inl rfl, nofun, fun _ => trivial, trivial, fun _ => trivial⟩
  -- the turn of a slot is its own number at first
  change p &&& (capacity - 1) = p at hp
  rw [and_mask_eq_mod hpow] at hp
  change p < 0 + capacity + 0
  have := Nat.mod_lt p (show 0 < capacity by omega)
  omega

theorem Window.run {actions} (h : Window s) (hdrop : ∀ a ∈ actions, a.Undropping)
    (hrun : Interleaving.run (MpscSystem.step crc) s actions = some s') : Window s' := by
  induction actions generalizing s with
  | nil =>
    cases hrun
    exact h
  | cons action rest ih =>
    obtain ⟨x, hx, hrest⟩ := Interleaving.run_cons hrun
    exact ih (h.step (hdrop _ List.mem_cons_self) hx)
      (fun a ha => hdrop a (List.mem_cons_of_mem _ ha)) hrest

/-- Whoever dies and is buried: without drops, the words stay inside the window. -/
theorem run_within (crc : SlotCrc μ) {emptyContent : μ} {process : Nat → UInt32}
    {base capacity : Nat} {start : MpscSystem μ}
    (hinit : MpscSystem.init emptyContent process base capacity = .ok start)
    {actions : List (MpscAction μ)} (hdrop : ∀ a ∈ actions, a.Undropping)
    (hrun : Interleaving.run (MpscSystem.step crc) start actions = some s) : Window s :=
  (Window.init hinit).run hdrop hrun

/-- The process of producer 0 dies behind `Reserve`, and a scanner buries its position. -/
def diedAndBuried : List (MpscAction Nat) :=
  (.reserve 0 ⟨some .fail, 1⟩ :: goOn 0 13) ++ (.die 1 :: .scan 0 ::
    List.replicate 8 (.recover 0 6 5 true))

theorem run_within_buried : ∃ s : MpscSystem Nat,
    Interleaving.run (MpscSystem.step fun _ _ => 0) sixtyFourSlots diedAndBuried = some s ∧
      .buried 0 ∈ s.log ∧ Window s := by
  have hrun : ((Interleaving.run (MpscSystem.step fun _ _ => 0) sixtyFourSlots diedAndBuried).map
      fun s => decide (.buried 0 ∈ s.log)) = some true := by decide +kernel
  obtain ⟨s, hs, hlog⟩ := Option.map_eq_some_iff.mp hrun
  have hdrop : ∀ a ∈ diedAndBuried, a.Undropping := by
    simp [diedAndBuried, goOn, MpscAction.Undropping]
  exact ⟨s, hs, of_decide_eq_true hlog, run_within _ init_sixtyFourSlots hdrop hs⟩

end MpscSystem

end Mino.Shm
