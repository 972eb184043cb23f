import Mino.Shm.MpscRelease
import Mino.Shm.MpscWindow

/-! # Recovery after all producers have stopped

The scan and the consumer together clear the ring exactly if every slot shows a trace that
one of them knows. A producer that dies in the first lap between the compare-and-swap of the
cursor and the store behind it leaves one that neither knows. -/

namespace Mino.Shm.MpscSystem

variable {μ : Type}

instance (s : MpscSystem μ) (nowNs leaseNs i : Nat) : Decidable (OwnerGone s nowNs leaseNs i) :=
  inferInstanceAs (Decidable (_ ∨ _))

/-- In every state that a ring can reach without kDropOldest, with the consumer and a scanner
at rest, every owner of a claim dead and its lease run out: when no producer takes another
step, a scan and then `Poll` and `Ack` until kWouldBlock end with an empty ring without claims, each
slot free for its next position, exactly if what the producers left is recoverable. The next
`Reserve` of any producer then succeeds. -/
theorem mpsc_clean_up_iff (crc : SlotCrc μ) {emptyContent : μ} {process : Nat → UInt32}
    {base capacity : Nat} {first s : MpscSystem μ}
    (hinit : MpscSystem.init emptyContent process base capacity = .ok first)
    {actions : List (MpscAction μ)} (hdrop : ∀ a ∈ actions, a.Undropping)
    (hrun : Interleaving.run (step crc) first actions = some s) {t nowNs leaseNs : Nat}
    (hscanner : s.scanners t = .idle) (hidle : s.consumer = .idle)
    (hgone : ∀ i, i < s.capacity → OwnerGone s nowNs leaseNs i) :
    ∃ s₀ s₁ s₂ s₃, step crc s (.scan t) = some s₀ ∧ Sweeps t nowNs leaseNs s₀ s₁ ∧
      s₁.scanners t = .idle ∧ step crc s₁ .poll = some s₂ ∧ Drains crc s₂ s₃ ∧
      ((s₃.consumerCursor = s₃.reservationCursor ∧
        (∀ i, i < s.capacity → (s₃.metas i).claimControl = .zero) ∧
        ∀ p, s₃.reservationCursor ≤ p → p < s₃.reservationCursor + s.capacity →
          (s₃.slotAt p).turn = p) ↔ Recoverable s) ∧
      (Recoverable s → ∀ producer request, s₃.alive producer → s₃.producers producer = .idle →
        ∃ n s₄, Interleaving.run (step crc) s₃ (.reserve producer request :: goOn producer n) =
          some s₄ ∧ s₄.producers producer = .reserved s₃.reservationCursor) := by
  have hwindow := (Window.init hinit).run hdrop hrun
  have hle := hwindow.le
  have hreserved := hwindow.reserved
  rw [limit_eq (by rw [hidle]; nofun)] at hreserved
  obtain ⟨s₀, s₁, s₂, s₃, hscan, hsweeps, hidle₁, hpoll, hdrains, hcapacity, hreserved₃, hiff, hturns⟩ :=
    exists_cleanUp crc hwindow.pow hscanner hidle hgone hle hreserved
  have hpow : ∃ k, s₃.capacity = 2 ^ k := hcapacity.symm ▸ hwindow.pow
  have hpos : 0 < s.capacity := by
    obtain ⟨k, hk⟩ := hwindow.pow
    rw [hk]
    exact Nat.two_pow_pos k
  have hrecovered : Recoverable s → s₃.consumerCursor = s₃.reservationCursor ∧
      (∀ i, i < s.capacity → (s₃.metas i).claimControl = .zero) ∧
      ∀ p, s₃.reservationCursor ≤ p → p < s₃.reservationCursor + s.capacity →
        (s₃.slotAt p).turn = p := by
    intro h
    obtain ⟨hempty, hzero⟩ := hiff.mpr h.clearable
    obtain ⟨hreleased, hkept⟩ := hturns hempty h.clearable
    refine ⟨hempty, hzero, fun p h₁ h₂ => ?_⟩
    rw [hreserved₃] at h₁ h₂
    by_cases hlap : p < s.consumerCursor + s.capacity
    · rw [hkept p h₁ hlap, h.free p h₁ hlap]
    · -- a position that the consumer has passed in the lap before
      obtain ⟨q, rfl⟩ := Nat.exists_eq_add_of_le' (show s.capacity ≤ p by omega)
      have hsame : s₃.slotAt (q + s.capacity) = s₃.slotAt q := by
        rw [slotAt, slotAt, index_eq hpow, index_eq hpow, hcapacity, Nat.add_mod_right]
      rw [hsame, hreleased q (by omega) (by omega)]
  refine ⟨s₀, s₁, s₂, s₃, hscan, hsweeps, hidle₁, hpoll, hdrains, ⟨?_, hrecovered⟩, ?_⟩
  · rintro ⟨hempty, hzero, hturn⟩
    have hclear := hiff.mp ⟨hempty, hzero⟩
    refine ⟨hclear, fun p h₁ h₂ => ?_⟩
    rw [← (hturns hempty hclear).2 p h₁ h₂]
    exact hturn p (hreserved₃ ▸ h₁) (by omega)
  · intro h producer request halive hrest
    obtain ⟨-, hzero, hturn⟩ := hrecovered h
    refine exists_reserve crc halive hrest (hturn _ le_rfl (by omega)) (hzero _ ?_)
    rw [index_eq hpow, hcapacity]
    exact Nat.mod_lt _ hpos

/-- `Reserve` up to the compare-and-swap of the cursor, and the death of the process. -/
def diedAdvanced : List (MpscAction Nat) := (.reserve 0 ⟨some .fail, 1⟩ :: goOn 0 9) ++ [.die 1]

/-- `Reserve` to its end, and the death of the process. -/
def diedWriting : List (MpscAction Nat) := (.reserve 0 ⟨some .fail, 1⟩ :: goOn 0 13) ++ [.die 1]

/-- What the scan and the consumer look at in a state with one reservation. -/
def oneReservation (s : MpscSystem Nat) : Bool :=
  s.capacity = 64 && s.scanners 0 = .idle && s.consumer = .idle && s.consumerCursor = 0 &&
    s.reservationCursor = 1 && decide (∀ i ∈ List.range 64, OwnerGone s 6 5 i)

theorem clean_up_stuck : ∃ s s₀ s₁ s₂ s₃ : MpscSystem Nat,
    Interleaving.run (step fun _ _ => 0) sixtyFourSlots diedAdvanced = some s ∧ (∀ i,
    i < s.capacity → OwnerGone s 6 5 i) ∧ s.consumer = .idle ∧ step (fun _ _ => 0) s (.scan 0) =
    some s₀ ∧ Sweeps 0 6 5 s₀ s₁ ∧ s₁.scanners 0 = .idle ∧ step (fun _ _ => 0) s₁ .poll = some s₂ ∧
    Drains (fun _ _ => 0) s₂ s₃ ∧ ¬ (s₃.consumerCursor = s₃.reservationCursor ∧
      ∀ i, i < s.capacity → (s₃.metas i).claimControl = .zero) := by
  have hrun : ((Interleaving.run (step fun _ _ => 0) sixtyFourSlots diedAdvanced).map fun s =>
      oneReservation s && (s.metas 0).claimControl.phase = .ownerReady &&
        (s.metas 0).claimSequence = 0 && (s.slots 0).sequenceNum = 0 &&
        (s.slots 0).state = .free) = some true := by decide +kernel
  obtain ⟨s, hs, hfacts⟩ := Option.map_eq_some_iff.mp hrun
  simp only [oneReservation, Bool.and_eq_true, decide_eq_true_eq] at hfacts
  obtain ⟨⟨⟨⟨⟨⟨⟨⟨⟨hcap, hscanner⟩, hidle⟩, hcons⟩, hres⟩, hgone⟩, hphase⟩, hseq⟩, hnumber⟩, hstate⟩ :=
    hfacts
  have hgone' : ∀ i, i < s.capacity → OwnerGone s 6 5 i := fun i hi => hgone i (List.mem_range.mpr (hcap ▸ hi))
  obtain ⟨s₀, s₁, s₂, s₃, hscan, hsweeps, hidle₁, hpoll, hdrains, -, -, hiff, -⟩ :=
    exists_cleanUp (fun _ _ => 0) ⟨6, hcap⟩ hscanner hidle hgone' (by omega) (by omega)
  refine ⟨s, s₀, s₁, s₂, s₃, hs, hgone', hidle, hscan, hsweeps, hidle₁, hpoll, hdrains, fun hgood => ?_⟩
  have hindex : s.index 0 = 0 := Nat.zero_and _
  have hzero := (hiff.mp hgood).1 0 (by omega) (by omega)
  rw [slotAt, metaAt, hindex] at hzero
  have hclaim : (s.metas 0).claimControl ≠ .zero := fun h => by
    rw [h] at hphase
    cases hphase
  rcases hzero with ⟨hfree, -⟩ | ⟨-, -, htrace⟩
  · rcases hfree with h | h | h
    · exact hclaim h
    · rw [hphase] at h
      cases h
    · omega
  · simp [hnumber, hstate, hphase] at htrace

/-- The scan and the consumer clear away the reservation of a process that died behind `Reserve`, and
each of the 64 slots is free again. -/
theorem mpsc_clean_up_iff_writing : ∃ s s₀ s₁ s₂ s₃ : MpscSystem Nat,
    Interleaving.run (step fun _ _ => 0) sixtyFourSlots diedWriting = some s ∧
    (∀ i, i < s.capacity → OwnerGone s 6 5 i) ∧ step (fun _ _ => 0) s (.scan 0) = some s₀ ∧
    Sweeps 0 6 5 s₀ s₁ ∧ step (fun _ _ => 0) s₁ .poll = some s₂ ∧
    Drains (fun _ _ => 0) s₂ s₃ ∧ s₃.consumerCursor = s₃.reservationCursor ∧
    (∀ i, i < s.capacity → (s₃.metas i).claimControl = .zero) ∧
    ∀ p, s₃.reservationCursor ≤ p → p < s₃.reservationCursor + s.capacity →
      (s₃.slotAt p).turn = p := by
  have hrun : ((Interleaving.run (step fun _ _ => 0) sixtyFourSlots diedWriting).map fun s =>
      oneReservation s && (s.metas 0).claimControl.phase = .writing &&
        (s.metas 0).claimSequence = 0 && (s.slots 0).state = .writing &&
        decide (∀ i ∈ List.range 64, 0 < i → (s.metas i).claimControl = .zero) &&
        decide (∀ i ∈ List.range 64, 0 < i → (s.slots i).turn = i)) = some true := by
    decide +kernel
  obtain ⟨s, hs, hfacts⟩ := Option.map_eq_some_iff.mp hrun
  simp only [oneReservation, Bool.and_eq_true, decide_eq_true_eq] at hfacts
  obtain ⟨⟨⟨⟨⟨⟨⟨⟨⟨⟨hcap, hscanner⟩, hidle⟩, hcons⟩, hres⟩, hgone⟩, hphase⟩, hseq⟩, hstate⟩, hrest⟩,
    hturn⟩ := hfacts
  have hdrop : ∀ a ∈ diedWriting, a.Undropping := by
    simp [diedWriting, goOn, MpscAction.Undropping]
  have hgone' : ∀ i, i < s.capacity → OwnerGone s 6 5 i := fun i hi =>
    hgone i (List.mem_range.mpr (hcap ▸ hi))
  obtain ⟨s₀, s₁, s₂, s₃, hscan, hsweeps, -, hpoll, hdrains, hiff, -⟩ :=
    mpsc_clean_up_iff (fun _ _ => 0) init_sixtyFourSlots hdrop hs hscanner hidle hgone'
  have hindex : s.index 0 = 0 := Nat.zero_and _
  have hclear : Clearable s := by
    refine ⟨fun p h₁ h₂ => .inr ?_, fun i hi hnone => .inl (hrest i (List.mem_range.mpr (hcap ▸ hi)) ?_)⟩
    · obtain rfl : p = 0 := by omega
      rw [slotAt, metaAt, hindex]
      refine ⟨?_, hseq, .inr (.inr (.inl hstate))⟩
      rintro (h | h | h)
      · rw [h] at hphase
        cases hphase
      · rw [hphase] at h
        cases h
      · omega
    · rcases Nat.eq_zero_or_pos i with rfl | hpos
      · exact absurd hindex (hnone 0 (by omega) (by omega))
      · exact hpos
  have hfree : ∀ p, s.reservationCursor ≤ p → p < s.consumerCursor + s.capacity →
      (s.slotAt p).turn = p := by
    intro p h₁ h₂
    rw [slotAt, index_eq ⟨6, hcap⟩, Nat.mod_eq_of_lt (by omega)]
    exact hturn p (List.mem_range.mpr (by omega)) (by omega)
  obtain ⟨hempty, hzero, hturns⟩ := hiff.mpr ⟨hclear, hfree⟩
  exact ⟨s, s₀, s₁, s₂, s₃, hs, hgone', hscan, hsweeps, hpoll, hdrains, hempty, hzero, hturns⟩

end Mino.Shm.MpscSystem
