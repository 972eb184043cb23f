import Mino.Shm.MpscProgress

/-! # Runs of the MPSC channel from the empty ring

What holds of every run under the conditions of `TombstoneCurrent` and `DropSettled`, and
what happens without them. -/

namespace Mino.Shm.MpscSystem

open Interleaving

variable {μ : Type} {crc : SlotCrc μ} {s : MpscSystem μ}

/-- Producers with any policy but to drop the oldest message, and one consumer: the channel
is a queue, as long as the consumer takes no kAborted of an earlier lap for a tombstone. -/
theorem mpsc_run_fifo (crc : SlotCrc μ) {emptyContent : μ} {process : Nat → UInt32}
    {base capacity : Nat} {start : MpscSystem μ}
    (hinit : MpscSystem.init emptyContent process base capacity = .ok start)
    {actions : List (MpscAction μ)} (hcalls : ∀ a ∈ actions, a.CallsUndropping)
    (hcur : Interleaving.Throughout (MpscSystem.step crc) TombstoneCurrent start actions)
    (hrun : Interleaving.run (MpscSystem.step crc) start actions = some s) : Fifo crc s := by
  have hboth : Inv crc s ∧ Kept s := by
    refine invariant_of_step (I := fun s => Inv crc s ∧ Kept s)
      (G := fun s a => a.CallsUndropping ∧ TombstoneCurrent s a) ?_ ⟨.init hinit, .init hinit⟩
      (hcur.and_forall hcalls) hrun
    rintro t a t' ⟨hinv, hkept⟩ ⟨hcall, htomb⟩ hstep
    exact ⟨hinv.step hcall.calls htomb (hkept.dropSettled a) hstep, hkept.step hcall hstep⟩
  exact hboth.1.fifo hboth.2.log

/-- Sixty-four empty slots, and every producer in process 1. -/
def sixtyFourSlots : MpscSystem Nat where
  capacity := 64
  reservationCursor := 0
  consumerCursor := 0
  tokens := 0
  slots := fun i => ⟨0, i, 0, .free, i⟩
  metas := fun _ => ⟨.zero, 0, 0, 0⟩
  process := fun _ => 1
  dead := []
  producers := fun _ => .idle
  consumer := .idle
  scanners := fun _ => .idle
  log := []

theorem init_sixtyFourSlots : init 0 (fun _ => 1) 64 64 = .ok sixtyFourSlots := rfl

/-- Producer 1 commits position 1 while producer 0 holds position 0 and then aborts it; `Poll`
passes the tombstone and returns the message, which is acknowledged. -/
def tombstoneAndMessage : List (MpscAction Nat) :=
  (.reserve 0 ⟨some .fail, 1⟩ :: goOn 0 13) ++ (load 1 7 ++ ((.abort 0 :: goOn 0 2) ++
    ((.poll :: readOn 17) ++ (.ack 1 :: readOn 5))))

instance (action : MpscAction μ) : Decidable action.CallsUndropping :=
  decidable_of_iff ((match action with
    | .reserve _ request => decide (request.policy ≠ some .dropOldest)
    | .scan _ | .recover .. => false
    | _ => true) = true) (by cases action <;> simp [MpscAction.CallsUndropping])

theorem mpsc_run_fifo_acknowledged : ∃ s : MpscSystem Nat,
    Interleaving.run (MpscSystem.step fun _ _ => 0) sixtyFourSlots tombstoneAndMessage = some s ∧
      .skipped 0 ∈ s.log ∧ .acked 1 ∈ s.log ∧ Fifo (fun _ _ => 0) s := by
  have hcalls : ∀ a ∈ tombstoneAndMessage, a.CallsUndropping := by decide +kernel
  have hcur : Interleaving.Throughout (MpscSystem.step fun _ _ => 0) TombstoneCurrent
      sixtyFourSlots tombstoneAndMessage := by decide +kernel
  have hrun : ((run (MpscSystem.step fun _ _ => 0) sixtyFourSlots tombstoneAndMessage).map
      fun s => decide (.skipped 0 ∈ s.log ∧ .acked 1 ∈ s.log)) = some true := by decide +kernel
  obtain ⟨s, hs, hlog⟩ := Option.map_eq_some_iff.mp hrun
  obtain ⟨hskipped, hacked⟩ := of_decide_eq_true hlog
  exact ⟨s, hs, hskipped, hacked, mpsc_run_fifo _ init_sixtyFourSlots hcalls hcur hs⟩

/-- Behind one lap of tombstones: `Commit` of position 64 returns OK, the consumer cursor
is past it, and `Poll` has returned nothing. -/
theorem committed_message_lost :
    ∃ (actions : List (MpscAction Nat)) (s : MpscSystem Nat), (∀ a ∈ actions, a.CallsUndropping) ∧
    Interleaving.run (MpscSystem.step fun _ _ => 0) sixtyFourSlots actions = some s ∧
    .committed 64 7 ∈ s.log ∧ s.consumerCursor = 65 ∧ ∀ p m, .polled p m ∉ s.log := by
  have hrest : Rested 0 sixtyFourSlots := .init init_sixtyFourSlots
  obtain ⟨s, hrun, hrest', haround, hcursor, hstate⟩ :=
    hrest.run_rounds (fun _ _ => 0) (n := 64) (Nat.le_refl _) (by decide)
  change s.reservationCursor = 64 at hcursor
  have hcap : s.capacity = 64 := haround.capacity
  have hslot : s.slotAt s.reservationCursor = s.slotAt 0 := by
    refine congrArg s.slots ?_
    rw [index_eq hrest'.capacity, index_eq hrest'.capacity, hcursor, hcap]
  obtain ⟨s', hrun', hcommitted, hcons, hpolled⟩ :=
    hrest'.run_lateOpening (fun _ _ => 0) 7 (by rw [hcursor]; decide)
      (by rw [hslot]; exact hstate 0 (Nat.zero_le _) (by decide))
  rw [hcursor] at hcommitted hcons
  refine ⟨rounds 0 64 ++ lateOpening 0 7, s', ?_, ?_, hcommitted, hcons, hpolled⟩
  · decide +kernel
  · rw [run_append_of_eq hrun]
    exact hrun'

/-- Producers that may drop the oldest message, and one consumer: between any two states of
a run the consumer cursor and the turns only grow, and every message is accounted for, as
long as nothing is dropped while the consumer is inside a call or before the turn is
published, and no kAborted of an earlier lap is taken for a tombstone. -/
theorem mpsc_run_accounted (crc : SlotCrc μ) {emptyContent : μ} {process : Nat → UInt32}
    {base capacity : Nat} {start middle : MpscSystem μ}
    (hinit : MpscSystem.init emptyContent process base capacity = .ok start)
    {first rest : List (MpscAction μ)} (hcalls : ∀ a ∈ first ++ rest, a.Calls)
    (hsettled : Interleaving.Throughout (MpscSystem.step crc)
      (fun s a => TombstoneCurrent s a ∧ DropSettled s a) start (first ++ rest))
    (hfirst : Interleaving.run (MpscSystem.step crc) start first = some middle)
    (hrest : Interleaving.run (MpscSystem.step crc) middle rest = some s) :
    Accounted s ∧ Grows middle s := by
  have hstep : ∀ (t : MpscSystem μ) a t', Inv crc t →
      (a.Calls ∧ TombstoneCurrent t a ∧ DropSettled t a) → MpscSystem.step crc t a = some t' →
      Inv crc t' ∧ Grows t t' := fun t a t' hinv ⟨hcall, htomb, hdrop⟩ hstep =>
    ⟨hinv.step hcall htomb hdrop hstep, hinv.grows hcall hstep⟩
  obtain ⟨hG, hG'⟩ := (hsettled.and_forall hcalls).append hfirst
  have hmiddle : Inv crc middle :=
    invariant_of_step (fun t a t' hi hg hs => (hstep t a t' hi hg hs).1) (.init hinit) hG hfirst
  exact ⟨(invariant_of_step
      (fun t a t' hi hg hs => (hstep t a t' hi hg hs).1) hmiddle hG' hrest).accounted,
    relation_of_step hstep Grows.refl (fun _ _ _ => Grows.trans) hmiddle hG' hrest⟩

instance (action : MpscAction μ) : Decidable action.Calls :=
  decidable_of_iff ((match action with
    | .scan _ | .recover .. => false
    | _ => true) = true) (by cases action <;> simp [MpscAction.Calls])

/-- `sixtyFourSlots` with the message 7 in its first `n` slots. -/
def sevens (n : Nat) : MpscSystem Nat :=
  { sixtyFourSlots with
    reservationCursor := n
    tokens := n
    slots := fun i => if i < n then ⟨7, i, 0, .ready, i + 1⟩ else ⟨0, i, 0, .free, i⟩
    metas := fun i => if i < n then ⟨⟨1, i + 1, .ready⟩, i, 1, 1⟩ else ⟨.zero, 0, 0, 0⟩
    log := (List.range n).flatMap fun p => [.reserved p, .committed p 7] }

theorem run_load_sevens {n : Nat} (hn : n < 64) :
    run (step fun _ _ => 0) (sevens n) (load 0 7) = some (sevens (n + 1)) := by
  have hindex : n &&& 63 = n := by
    rw [Nat.and_two_pow_sub_one_eq_mod n 6]
    omega
  have htoken : (n + 1) % 2 ^ 29 = n + 1 := by omega
  have hself : (sevens n).index n = n := hindex
  have halive : (sevens n).alive 0 := rfl
  have hturn : ((sevens n).slotAt n).turn = n := by
    rw [slotAt, hself]
    simp [sevens]
  have hclaim : ((sevens n).metaAt n).claimControl = .zero := by
    rw [metaAt, hself]
    simp [sevens]
  rw [load, run_append_of_eq (run_reserve halive rfl hturn hclaim (by
    change (n + 1) % 2 ^ 29 ≠ 0
    omega)), reservedBy,
    run_commit 7 (by exact halive)
      (by simp [slotAt, index, drawToken, setMeta, setSlot, setReservationCursor, emit])]
  refine congrArg some ?_
  simp only [sevens, sixtyFourSlots]
  simp only [drawToken, setMeta, setSlot, setReservationCursor, emit, producerAt, metaAt,
    Claim.withClaimPhase, htoken, index, Nat.reduceSub, hindex, Function.update_self,
    MpscSystem.mk.injEq, true_and]
  refine ⟨funext fun i => ?_, funext fun i => ?_, ?_, ?_⟩
  · by_cases hi : i = n
    · subst hi
      simp
    · have hlt : i < n + 1 ↔ i < n := by omega
      simp [hi, hlt]
  · by_cases hi : i = n
    · subst hi
      simp
    · have hlt : i < n + 1 ↔ i < n := by omega
      simp [hi, hlt]
  · exact funext fun u => by
      by_cases hu : u = 0 <;> simp [hu]
  · simp [List.range_succ]

theorem run_loads_sevens {n : Nat} (hn : n ≤ 64) :
    run (step fun _ _ => 0) sixtyFourSlots (loads 0 7 n) = some (sevens n) := by
  induction n with
  | zero => rfl
  | succ n ih =>
    rw [loads, run_append_of_eq (ih (by omega))]
    exact run_load_sevens hn

/-- Producers that drop nothing and a consumer outside its calls meet both conditions. -/
theorem throughout_of_kept {actions : List (MpscAction μ)} (h : Kept s)
    (hcalls : ∀ a ∈ actions, a.CallsUndropping ∧ ∀ b, a ≠ .consume b) :
    Throughout (step crc) (fun s a => TombstoneCurrent s a ∧ DropSettled s a) s actions := by
  induction actions generalizing s with
  | nil => trivial
  | cons a rest ih =>
    obtain ⟨⟨hcall, hnot⟩, hrest⟩ := List.forall_mem_cons.mp hcalls
    refine ⟨⟨?_, h.dropSettled a⟩, fun s' hs' => ih (h.step hcall hs') hrest⟩
    unfold TombstoneCurrent
    split
    · exact absurd rfl (hnot _)
    · trivial

/-- `Reserve` and `Commit` on a full ring, which drop the oldest message; then the next one is
polled and acknowledged. -/
def dropAndGoOn : List (MpscAction Nat) :=
  (.reserve 0 dropRequest :: goOn 0 24) ++ ((.fill 0 8 :: .commit 0 :: goOn 0 4) ++
    (pollCalls ++ (.ack 1 :: readOn 5)))

theorem mpsc_run_accounted_acknowledged : ∃ s : MpscSystem Nat,
    Interleaving.run (MpscSystem.step fun _ _ => 0) sixtyFourSlots (loads 0 7 64 ++ dropAndGoOn) =
        some s ∧
      .dropped 0 ∈ s.log ∧ .acked 1 ∈ s.log ∧ Accounted s ∧ Grows (sevens 64) s := by
  have hcalls : ∀ a ∈ loads 0 7 64 ++ dropAndGoOn, a.Calls := by decide +kernel
  have hloads : run (step fun _ _ => 0) sixtyFourSlots (loads 0 7 64) = some (sevens 64) :=
    run_loads_sevens le_rfl
  have hsettled : Throughout (MpscSystem.step fun _ _ => 0)
      (fun s a => TombstoneCurrent s a ∧ DropSettled s a) sixtyFourSlots
      (loads 0 7 64 ++ dropAndGoOn) := by
    refine (throughout_of_kept (.init init_sixtyFourSlots) ?_).of_append hloads (by decide +kernel)
    decide +kernel
  have hrun : ((run (MpscSystem.step fun _ _ => 0) (sevens 64) dropAndGoOn).map
      fun s => decide (.dropped 0 ∈ s.log ∧ .acked 1 ∈ s.log)) = some true := by decide +kernel
  obtain ⟨s, hs, hlog⟩ := Option.map_eq_some_iff.mp hrun
  obtain ⟨hdropped, hacked⟩ := of_decide_eq_true hlog
  exact ⟨s, (run_append_of_eq hloads _).trans hs, hdropped, hacked,
    mpsc_run_accounted _ init_sixtyFourSlots hcalls hsettled hloads hs⟩

/-- On a full ring the oldest message is dropped and acknowledged. -/
theorem dropped_and_acknowledged :
    ∃ (actions : List (MpscAction Nat)) (s : MpscSystem Nat) (m : Nat), (∀ a ∈ actions, a.Calls) ∧
    Interleaving.run (MpscSystem.step fun _ _ => 0) sixtyFourSlots actions = some s ∧
    .committed 0 m ∈ s.log ∧ .dropped 0 ∈ s.log ∧ .acked 0 ∈ s.log := by
  have hempty : Loaded (fun _ _ => 0) 0 0 sixtyFourSlots := .init init_sixtyFourSlots
  obtain ⟨s, hrun, hloaded, hcap⟩ := hempty.run_loads 7 (n := 64) (Nat.le_refl _) (by decide)
  change s.capacity = 64 at hcap
  rw [← hcap] at hloaded
  obtain ⟨s', hrun', hlog⟩ := hloaded.run_dropAndAck (by omega)
  refine ⟨loads 0 7 64 ++ dropAndAck 0, s', (s.slotAt 0).content, ?_, ?_, hlog⟩
  · decide +kernel
  · rw [run_append_of_eq hrun]
    exact hrun'

end Mino.Shm.MpscSystem
