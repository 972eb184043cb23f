import Mino.Shm.SlabConcurrent

/-! # Generations of slots under concurrent operations

A handle is checked in one access and its slot changed in another, and nothing holds the slot
in between. Operations on one slot may overlap as long as none is past its check while the slot is
allocated, and no `Reclaim` takes the kReclaiming of another for its own. -/

namespace Mino.Shm

namespace SlotWords

/-- A slot that a reclaimer has taken. -/
structure Taken (w : SlotWords) (generation : Nat) : Prop where
  bit : w.bit = true
  state : w.state = .reclaiming
  same : w.generation = generation

/-- A slot that is being allocated, in the generation. -/
structure Filling (w : SlotWords) (generation : Nat) : Prop where
  bit : w.bit = true
  state : w.state = .allocating
  same : w.generation = generation

/-- The states of an object that nobody allocates or reclaims. -/
def Lasting (st : ObjectState) : Prop := st ≠ .free ∧ st ≠ .allocating ∧ st ≠ .reclaiming

/-- The slot has no object, or one that is not there yet. -/
def Vacant (w : SlotWords) : Prop := w.state = .free ∨ w.state = .allocating

/-- The header is that of the generation. -/
def Stamped (w : SlotWords) : Prop :=
  w.header.generation = w.generation ∧ w.header.verifyImmutableHeader = true

end SlotWords

open SlotWords

namespace SlabPhase

/-- `Allocate` from the claim of the bit on. -/
def allocates : SlabPhase → Option Nat
  | .takeState _ _ slot | .undoClaim slot | .increment _ _ slot | .undoState slot | .undoBit slot
  | .stampGeneration _ _ slot _ | .stampOwner _ slot _ | .stampTransaction _ slot _
  | .stampRole _ slot _ | .finish slot _ => some slot
  | _ => none

/-- An operation from its check of the generation on. -/
def checked? : SlabPhase → Option Nat
  | .checking .header (.resolve t) => some t.slot
  | .checking .header (.exact e) | .checking _ (.recheck e _) => some e.slot
  | .verify t | .swap t | .loadState t | .moveState t _ | .loadOwner t | .loadTransaction t _
  | .loadRole t _ _ | .askRoot t _ _ => some t.slot
  | .exactState e | .exactGuard e _ | .exactSwap e _ | .recheckGuard e _ | .restore e _
  | .free e | .clear e => some e.slot
  | _ => none

/-- `ReclaimSlotExact` behind its compare-and-swap. -/
def reclaims : SlabPhase → Option Nat
  | .checking _ (.recheck e _) | .recheckGuard e _ | .restore e _ | .free e | .clear e => some e.slot
  | _ => none

/-- The state is read to see whether there is something to reclaim. -/
def readsState : SlabPhase → Option Nat
  | .exactState e => some e.slot
  | .scanState f => some f.slot
  | _ => none

/-- What a phase knows of the slot that its process works on. -/
def Local (w : SlotWords) : SlabPhase → Prop
  | .takeState _ _ _ | .undoBit _ => w.bit = true ∧ w.state = .free
  | .undoClaim _ => False
  | .increment _ _ _ | .undoState _ => w.bit = true ∧ w.state = .allocating
  | .stampGeneration _ _ _ generation => Filling w generation
  | .stampOwner _ _ generation | .stampTransaction _ _ generation | .stampRole _ _ generation =>
    Filling w generation ∧ w.header.generation = generation ∧
      w.header.magic = SlabHeader.kSlabHeaderMagic ∧
      w.header.headerVersion = SlabHeader.kSlabHeaderVersion
  | .finish _ generation => Filling w generation ∧ w.header.generation = generation ∧
      w.header.verifyImmutableHeader = true
  | .checking .header (.resolve t) => w.generation = t.generation
  | .checking .header (.exact e) => w.generation = e.generation
  | .checking _ (.recheck e seen) | .recheckGuard e seen | .restore e seen =>
    Taken w e.generation ∧ Lasting seen
  | .verify t | .swap t | .loadState t | .loadOwner t => w.generation = t.generation
  | .moveState t seen => w.generation = t.generation ∧ Lasting seen
  | .loadTransaction t ownerEpoch =>
    w.generation = t.generation ∧ w.header.ownerEpoch = ownerEpoch
  | .loadRole t ownerEpoch transactionId | .askRoot t ownerEpoch transactionId =>
    w.generation = t.generation ∧ w.header.ownerEpoch = ownerEpoch ∧
      w.header.allocationTransactionId = transactionId
  | .exactState e => w.generation = e.generation
  | .exactGuard e seen | .exactSwap e seen => w.generation = e.generation ∧ Lasting seen
  | .free e => Taken w e.generation
  | .clear e => w.bit = true ∧ w.state = .free ∧ w.generation = e.generation
  | _ => True

variable {slot total i j : Nat} {w w' : SlotWords} {φ φ' ψ : SlabPhase} {f : SlabScan} {e : SlabExact}
  {t : SlabTask} {answer : Bool}

theorem Local.of_allocates (h : Local w φ) (ha : φ.allocates = some i) : w.bit = true ∧ Vacant w := by
  cases φ with
  | takeState | undoBit => exact ⟨h.1, .inl h.2⟩
  | undoClaim => exact h.elim
  | increment | undoState => exact ⟨h.1, .inr h.2⟩
  | stampGeneration => exact ⟨h.bit, .inr h.state⟩
  | stampOwner | stampTransaction | stampRole | finish => exact ⟨h.1.bit, .inr h.1.state⟩
  | _ => cases ha

theorem Local.of_reclaims (h : Local w φ) (hr : φ.reclaims = some i) :
    w.bit = true ∧ ¬ Lasting w.state ∧ w.state ≠ .allocating := by
  have htaken : ∀ {g}, Taken w g → w.bit = true ∧ ¬ Lasting w.state ∧ w.state ≠ .allocating :=
    fun h => ⟨h.bit, fun hl => hl.2.2 h.state, by rw [h.state]; decide⟩
  cases φ with
  | checking k x =>
    cases x with
    | recheck e seen => cases k <;> exact htaken h.1
    | resolve | exact => cases hr
  | recheckGuard | restore => exact htaken h.1
  | free => exact htaken h
  | clear => exact ⟨h.1, fun hl => hl.1 h.2.1, by rw [h.2.1]; decide⟩
  | _ => cases hr

theorem checked_of_reclaims (h : φ.reclaims = some i) : φ.checked? = some i := by
  cases φ with
  | checking k x =>
    cases x with
    | recheck => cases k <;> exact h
    | resolve | exact => cases h
  | recheckGuard | restore | free | clear => exact h
  | _ => cases h

/-- Where nothing is known, nothing can be lost. -/
theorem local_of_unchecked (ha : φ.allocates = none) (hc : φ.checked? = none) : Local w φ := by
  cases φ with
  | checking k x =>
    cases x with
    | recheck => cases k <;> cases hc
    | resolve | exact => cases k <;> trivial
  | _ => trivial

/-! ### What one access does -/

/-- What an access does to a slot, unless `Allocate` makes it. -/
inductive Effect (w : SlotWords) (φ : SlabPhase) : SlotWords → Prop
  | quiet : Effect w φ w
  | move {st} (hφ : φ.checked?.isSome) (hw : Lasting w.state) (hst : st ≠ .free ∧ st ≠ .allocating) :
      Effect w φ (w.setState st)
  | release {st} (hφ : φ.reclaims.isSome) (hw : w.state = .reclaiming) (hst : st ≠ .allocating) :
      Effect w φ (w.setState st)
  | clear (hφ : φ.reclaims.isSome) (hw : w.state = .free) : Effect w φ { w with bit := false }

theorem lasting_swapStates (t : SlabTask) :
    Lasting (swapStates t.op).1 ∧ Lasting (swapStates t.op).2 := by
  unfold swapStates Lasting
  split <;> decide

theorem advance_effect (total : Nat) (answer : Bool) (h : Local w φ) (ha : φ.allocates = none)
    (hin : φ.inside = some i) : Effect w φ (φ.advance total w answer).1 := by
  cases φ with
  | claim => cases hin
  | takeState | undoClaim | increment | undoState | undoBit | stampGeneration | stampOwner
  | stampTransaction | stampRole | finish => cases ha
  | swap t =>
    have hlast := lasting_swapStates t
    dsimp only [advance]
    split
    · rename_i hst
      exact .move rfl (hst ▸ hlast.1) ⟨hlast.2.1, hlast.2.2.1⟩
    · exact .quiet
  | moveState t seen =>
    dsimp only [advance]
    split
    · rename_i hst
      have hw : Lasting w.state := hst.1 ▸ h.2
      split <;> exact .move rfl hw (by decide)
    · exact .quiet
  | exactSwap e seen =>
    dsimp only [advance]
    split
    · rename_i hst
      exact .move rfl (hst.1 ▸ h.2) (by decide)
    · exact .quiet
  | restore e seen =>
    dsimp only [advance]
    rw [if_pos h.1.state]
    exact .release rfl h.1.state h.2.2.1
  | free e => exact .release rfl h.state (by decide)
  | clear e => exact .clear rfl h.2.1
  | loadState t =>
    dsimp only [advance]
    split <;> exact .quiet
  | _ => exact .quiet

/-- Only `Allocate` changes the generation or the immutable header. -/
theorem Effect.keeps (h : Effect w φ w') : w'.generation = w.generation ∧
    w'.header.ownerEpoch = w.header.ownerEpoch ∧
    w'.header.allocationTransactionId = w.header.allocationTransactionId ∧
    (Stamped w' ↔ Stamped w) := by
  cases h <;> exact ⟨rfl, rfl, rfl, Iff.rfl⟩

theorem Effect.vacant (h : Effect w φ w') (hv : Vacant w) : Vacant w' := by
  cases h with
  | quiet => exact hv
  | move _ hw => exact (hv.elim hw.1 hw.2.1).elim
  | release _ hw =>
    rcases hv with hv | hv <;> rw [hw] at hv <;> cases hv
  | clear => exact hv

theorem Effect.present (h : Effect w φ w') (hv : ¬ Vacant w) (hfree : w'.state ≠ .free) :
    ¬ Vacant w' := by
  refine fun hv' => absurd (hv'.resolve_left hfree) ?_
  cases h with
  | quiet => exact fun hst => hv (.inr hst)
  | move _ _ hst => exact hst.2
  | release _ _ hst => exact hst
  | clear _ hw => exact absurd hw hfree

theorem Effect.bits (h : Effect w φ w') (hbits : w.bit = false → w.state = .free) :
    w'.bit = false → w'.state = .free := by
  intro hbit
  cases h with
  | quiet => exact hbits hbit
  | move _ hw => exact absurd (hbits hbit) hw.1
  | release _ hw =>
    have hfree := hbits hbit
    rw [hw] at hfree
    cases hfree
  | clear _ hw => exact hw

theorem Effect.allocating (h : Effect w φ w') (hst : w'.state = .allocating) :
    w.state = .allocating := by
  cases h with
  | quiet | clear => exact hst
  | move _ _ hne => exact absurd hst hne.2
  | release _ _ hne => exact absurd hst hne

theorem Effect.eq_of_unchecked (h : Effect w φ w') (hc : φ.checked? = none) : w' = w := by
  have hnone : φ.reclaims = none := by
    cases hr : φ.reclaims with
    | none => rfl
    | some i =>
      rw [checked_of_reclaims hr] at hc
      cases hc
  cases h with
  | quiet => rfl
  | move hφ =>
    rw [hc] at hφ
    cases hφ
  | release hφ | clear hφ =>
    rw [hnone] at hφ
    cases hφ

/-- Most phases know only of the generation and the header. -/
theorem Local.congr (hψ : Local w ψ) (ha : ψ.allocates = none) (hr : ψ.reclaims = none)
    (hgeneration : w'.generation = w.generation)
    (howner : w'.header.ownerEpoch = w.header.ownerEpoch)
    (htransaction : w'.header.allocationTransactionId = w.header.allocationTransactionId) :
    Local w' ψ := by
  cases ψ with
  | checking k x =>
    cases x with
    | recheck => cases k <;> cases hr
    | resolve | exact => cases k <;> first | trivial | exact hgeneration.trans hψ
  | verify | swap | loadState | loadOwner | exactState => exact hgeneration.trans hψ
  | moveState | exactGuard | exactSwap => exact ⟨hgeneration.trans hψ.1, hψ.2⟩
  | loadTransaction => exact ⟨hgeneration.trans hψ.1, howner.trans hψ.2⟩
  | loadRole | askRoot =>
    exact ⟨hgeneration.trans hψ.1, howner.trans hψ.2.1, htransaction.trans hψ.2.2⟩
  | takeState | undoClaim | increment | undoState | undoBit | stampGeneration | stampOwner
  | stampTransaction | stampRole | finish => cases ha
  | recheckGuard | restore | free | clear => cases hr
  | _ => trivial

/-- What another process knows survives the access. -/
theorem Effect.keeps_local (h : Effect w φ w') (hψ : Local w ψ) (ha : ψ.allocates = none)
    (hr : ψ.reclaims.isSome → φ.reclaims = none) : Local w' ψ := by
  cases hi : ψ.reclaims with
  | none => exact hψ.congr ha hi h.keeps.1 h.keeps.2.1 h.keeps.2.2.1
  | some i =>
    have hnone := hr (hi ▸ rfl)
    cases h with
    | quiet => exact hψ
    | move _ hw => exact absurd hw (hψ.of_reclaims hi).2.1
    | release hφ | clear hφ =>
      rw [hnone] at hφ
      cases hφ

/-- A scan that goes on is at the next slot. -/
theorem scanNext_cases (total : Nat) (f : SlabScan) :
    (scanNext total f = .returned f.task true ∧ total ≤ f.slot + 1) ∨
      scanNext total f = .scanBit { f with slot := f.slot + 1 } := by
  unfold scanNext
  split
  · exact .inr rfl
  · rename_i hlt
    exact .inl ⟨rfl, Nat.not_lt.mp hlt⟩

/-- Phases that hold and know nothing. -/
def Light (φ : SlabPhase) : Prop :=
  φ.allocates = none ∧ φ.checked? = none ∧ φ.reclaims = none

theorem light_scanNext (total : Nat) (f : SlabScan) : (scanNext total f).Light := by
  unfold scanNext
  split <;> exact ⟨rfl, rfl, rfl⟩

theorem light_exactOk (total : Nat) (e : SlabExact) : (exactOk total e).Light := by
  unfold exactOk
  split
  · exact ⟨rfl, rfl, rfl⟩
  · exact light_scanNext ..

/-- What the process of an access to a slot holds and knows behind it. -/
structure Onto (i : Nat) (w : SlotWords) (φ : SlabPhase) (w' : SlotWords) (φ' : SlabPhase) :
    Prop where
  known : Local w' φ'
  allocates : ∀ j, φ'.allocates = some j → j = i ∧ (φ.allocates = some i ∨ w.bit = false)
  checked : ∀ j, φ'.checked? = some j → j = i
  reclaims : ∀ j, φ'.reclaims = some j → φ.reclaims = some i ∨ Lasting w.state

theorem Light.onto (h : φ'.Light) : Onto i w φ w' φ' := by
  obtain ⟨ha, hc, hr⟩ := h
  refine ⟨local_of_unchecked ha hc, fun j hj => ?_, fun j hj => ?_, fun j hj => ?_⟩
  · cases ha.symm.trans hj
  · cases hc.symm.trans hj
  · cases hr.symm.trans hj

/-- `Allocate` goes on. -/
theorem Onto.of_allocates (h : Local w' φ') (ha : φ'.allocates = some i)
    (hw : φ.allocates = some i ∨ w.bit = false) (hc : φ'.checked? = none) (hr : φ'.reclaims = none) :
    Onto i w φ w' φ' := by
  refine ⟨h, fun j hj => ⟨Option.some.inj (hj.symm.trans ha), hw⟩, fun j hj => ?_, fun j hj => ?_⟩
  · cases hc.symm.trans hj
  · cases hr.symm.trans hj

/-- Another operation goes on. -/
theorem Onto.of_checked (h : Local w' φ') (ha : φ'.allocates = none) (hc : φ'.checked? = some i)
    (hr : φ'.reclaims = none ∨ φ.reclaims = some i ∨ Lasting w.state) : Onto i w φ w' φ' := by
  refine ⟨h, fun j hj => ?_, fun j hj => Option.some.inj (hj.symm.trans hc), fun j hj => ?_⟩
  · cases ha.symm.trans hj
  · exact hr.resolve_left (by rw [hj]; exact Option.some_ne_none j)

theorem advance_onto (total : Nat) (answer : Bool) (ht : φ.target = some i) (h : Local w φ)
    (hbit : w.bit = false → w.state = .free) (hal : φ.checked?.isSome → w.state ≠ .allocating) :
    Onto i w φ (φ.advance total w answer).1 (φ.advance total w answer).2 := by
  have hlight : ∀ {w' φ'}, φ'.Light → Onto i w φ w' φ' := Light.onto
  cases φ <;> cases ht <;> dsimp only [advance]
  case claim =>
    split
    · exact hlight ⟨rfl, rfl, rfl⟩
    · rename_i hset
      have hclear := Bool.eq_false_iff.mpr hset
      exact .of_allocates ⟨rfl, hbit hclear⟩ rfl (.inr hclear) rfl rfl
  case takeState =>
    rw [if_pos h.2]
    exact .of_allocates ⟨h.1, rfl⟩ rfl (.inl rfl) rfl rfl
  case undoClaim => exact h.elim
  case increment =>
    split
    · exact .of_allocates h rfl (.inl rfl) rfl rfl
    · exact .of_allocates ⟨h.1, h.2, rfl⟩ rfl (.inl rfl) rfl rfl
  case undoState => exact .of_allocates ⟨h.1, rfl⟩ rfl (.inl rfl) rfl rfl
  case stampGeneration =>
    exact .of_allocates ⟨⟨h.bit, h.state, h.same⟩, rfl, rfl, rfl⟩ rfl (.inl rfl) rfl rfl
  case stampOwner | stampTransaction =>
    exact .of_allocates ⟨⟨h.1.bit, h.1.state, h.1.same⟩, h.2⟩ rfl (.inl rfl) rfl rfl
  case stampRole =>
    refine .of_allocates ⟨⟨h.1.bit, h.1.state, h.1.same⟩, h.2.1, ?_⟩ rfl (.inl rfl) rfl rfl
    simp only [SlabHeader.verifyImmutableHeader, Bool.and_eq_true, decide_eq_true_eq]
    exact ⟨h.2.2, rfl⟩
  case checking k x =>
    cases x with
    | resolve t =>
      split
      · rename_i hk
        cases k with
        | bit => exact hlight ⟨rfl, rfl, rfl⟩
        | generation =>
          have hsame : w.generation = t.generation := of_decide_eq_true hk
          exact .of_checked hsame rfl rfl (.inl rfl)
        | header =>
          obtain ⟨op, i, generation⟩ := t
          cases op <;> exact .of_checked h rfl rfl (.inl rfl)
      · exact hlight ⟨rfl, rfl, rfl⟩
    | exact e =>
      split
      · rename_i hk
        cases k with
        | bit => exact hlight ⟨rfl, rfl, rfl⟩
        | generation =>
          have hsame : w.generation = e.generation := of_decide_eq_true hk
          exact .of_checked hsame rfl rfl (.inl rfl)
        | header => exact .of_checked h rfl rfl (.inl rfl)
      · exact hlight ⟨rfl, rfl, rfl⟩
    | recheck e seen =>
      have hr : (checking k (.recheck e seen)).reclaims = some e.slot := by cases k <;> rfl
      have h' : Taken w e.generation ∧ Lasting seen := by cases k <;> exact h
      split
      · cases k <;> exact .of_checked h' rfl rfl (.inr (.inl hr))
      · exact .of_checked h' rfl rfl (.inr (.inl hr))
  case verify =>
    split
    · exact .of_checked h rfl rfl (.inl rfl)
    · exact hlight ⟨rfl, rfl, rfl⟩
  case loadState t =>
    split
    · split
      case h_1 | h_5 => exact hlight ⟨rfl, rfl, rfl⟩
      all_goals exact .of_checked ⟨h, by unfold Lasting; decide⟩ rfl rfl (.inl rfl)
    · split
      case h_1 | h_4 => exact hlight ⟨rfl, rfl, rfl⟩
      all_goals exact .of_checked ⟨h, by unfold Lasting; decide⟩ rfl rfl (.inl rfl)
  case moveState =>
    split
    · split <;> exact hlight ⟨rfl, rfl, rfl⟩
    · exact .of_checked h.1 rfl rfl (.inl rfl)
  case loadOwner => exact .of_checked ⟨h, rfl⟩ rfl rfl (.inl rfl)
  case loadTransaction => exact .of_checked ⟨h.1, h.2, rfl⟩ rfl rfl (.inl rfl)
  case loadRole =>
    split
    · exact .of_checked h rfl rfl (.inl rfl)
    · exact hlight ⟨rfl, rfl, rfl⟩
  case exactState e =>
    split
    · exact (light_exactOk total e).onto
    rename_i hne
    split
    · exact hlight ⟨rfl, rfl, rfl⟩
    · exact .of_checked ⟨h, fun hf => hne (.inr hf), hal rfl, fun hr => hne (.inl hr)⟩ rfl rfl (.inl rfl)
  case exactGuard =>
    split
    · exact .of_checked h rfl rfl (.inl rfl)
    · exact hlight ⟨rfl, rfl, rfl⟩
  case exactSwap e seen =>
    split
    · rename_i hst
      have hw : Lasting w.state := hst.1 ▸ h.2
      refine .of_checked ⟨⟨?_, rfl, h.1⟩, h.2⟩ rfl rfl (.inr (.inr hw))
      by_contra hne
      exact hw.1 (hbit (Bool.eq_false_iff.mpr hne))
    · exact hlight ⟨rfl, rfl, rfl⟩
  case recheckGuard =>
    split
    · exact .of_checked h.1 rfl rfl (.inr (.inl rfl))
    · exact .of_checked h rfl rfl (.inr (.inl rfl))
  case free => exact .of_checked ⟨h.bit, rfl, h.same⟩ rfl rfl (.inr (.inl rfl))
  case clear e =>
    rw [if_pos h.1]
    exact (light_exactOk total e).onto
  case undoBit | finish | restore | scanGeneration => exact hlight ⟨rfl, rfl, rfl⟩
  case swap | askRoot => split <;> exact hlight ⟨rfl, rfl, rfl⟩
  case scanBit f | scanState f | scanOwner f | scanTransaction f | scanHeader f _ | scanVerify f _ =>
    split
    all_goals first | exact (light_scanNext total f).onto | exact hlight ⟨rfl, rfl, rfl⟩

/-- What `Allocate` leaves behind. -/
theorem advance_allocates (total : Nat) (answer : Bool) (h : Local w φ) (ha : φ.allocates = some i) :
    let r := φ.advance total w answer
    (r.1.bit = false → r.1.state = .free) ∧ (r.1.state = .allocating → r.2.allocates = some i) ∧
      (¬ Vacant r.1 → Stamped r.1) := by
  cases φ with
  | takeState =>
    cases ha
    dsimp only [advance]
    rw [if_pos h.2]
    exact ⟨fun hbit => absurd (h.1.symm.trans hbit) (by decide), fun _ => rfl,
      fun hv => absurd (.inr rfl) hv⟩
  | undoClaim => exact h.elim
  | increment =>
    cases ha
    refine ⟨fun hbit => absurd (h.1.symm.trans hbit) (by decide), fun _ => ?_,
      fun hv => absurd (.inr h.2) hv⟩
    dsimp only [advance]
    split <;> rfl
  | undoState =>
    have hne : ObjectState.free ≠ .allocating := by decide
    exact ⟨fun _ => rfl, fun hst => absurd hst hne, fun hv => absurd (.inl rfl) hv⟩
  | undoBit =>
    exact ⟨fun _ => h.2, fun hst => absurd (h.2.symm.trans hst) (by decide),
      fun hv => absurd (.inl h.2) hv⟩
  | stampGeneration =>
    cases ha
    exact ⟨fun hbit => absurd (h.bit.symm.trans hbit) (by decide), fun _ => rfl,
      fun hv => absurd (.inr h.state) hv⟩
  | stampOwner | stampTransaction | stampRole =>
    cases ha
    exact ⟨fun hbit => absurd (h.1.bit.symm.trans hbit) (by decide), fun _ => rfl,
      fun hv => absurd (.inr h.1.state) hv⟩
  | finish =>
    have hne : ObjectState.allocated ≠ .allocating := by decide
    exact ⟨fun hbit => absurd (h.1.bit.symm.trans hbit) (by decide), fun hst => absurd hst hne,
      fun _ => ⟨h.2.1.trans h.1.same.symm, h.2.2⟩⟩
  | _ => cases ha

/-- `Allocate` behind the increment of the generation. -/
def stamping : SlabPhase → Option Nat
  | .stampGeneration _ _ slot _ | .stampOwner _ slot _ | .stampTransaction _ slot _
  | .stampRole _ slot _ | .finish slot _ => some slot
  | _ => none

theorem allocates_of_stamping (h : φ.stamping = some i) : φ.allocates = some i := by
  cases φ <;> first | exact h | cases h

theorem Light.stamping (h : φ.Light) : φ.stamping = none :=
  Option.eq_none_iff_forall_ne_some.mpr fun j hj => by cases h.1.symm.trans (allocates_of_stamping hj)

variable (x : CheckSite)

theorem stamping_checked : (checked x).stamping = none := by
  cases x with
  | resolve t =>
    obtain ⟨op, slot, generation⟩ := t
    cases op <;> rfl
  | exact | recheck => rfl

theorem stamping_nextCheck (k : IdentityCheck) : (nextCheck x k).stamping = none := by
  cases k with
  | bit | generation => rfl
  | header => exact stamping_checked x

theorem stamping_checkFailed : (checkFailed x).stamping = none := by
  cases x <;> rfl

section

variable (total : Nat) (w : SlotWords) (answer : Bool)

/-- Only `Allocate` comes to a stamping phase, and then with a generation of its own. -/
theorem advance_stamping (hφ : φ.stamping = none) : (φ.advance total w answer).2.stamping = none ∨
      w.generation < (φ.advance total w answer).1.generation := by
  cases φ with
  | increment c request slot =>
    dsimp only [advance]
    split
    · exact .inl rfl
    rename_i hdrain
    refine .inr ?_
    unfold incrementGeneration at hdrain ⊢
    split
    · rename_i hlast
      exact absurd (if_pos hlast) hdrain
    · exact Nat.lt_succ_self _
  | stampGeneration | stampOwner | stampTransaction | stampRole | finish => cases hφ
  | checking k x =>
    left
    dsimp only [advance]
    split
    · exact stamping_nextCheck x k
    · exact stamping_checkFailed x
  | _ =>
    left
    simp only [advance]
    repeat' split
    all_goals first | rfl | exact (light_scanNext ..).stamping | exact (light_exactOk ..).stamping

theorem advance_generation (φ : SlabPhase) :
    w.generation ≤ (φ.advance total w answer).1.generation := by
  cases φ with
  | increment c request slot =>
    change w.generation ≤ incrementGeneration w.generation
    unfold incrementGeneration
    split
    · rename_i hlast
      exact Nat.le_of_eq hlast
    · exact Nat.le_succ _
  | _ =>
    simp only [advance]
    repeat' split
    all_goals exact le_rfl

end

/-- Only `finish` ends a vacancy. -/
theorem advance_vacant (ht : φ.target = some i) (h : Local w φ) (hφ : φ.stamping = none)
    (hv : Vacant w) : Vacant (φ.advance total w answer).1 := by
  cases φ with
  | claim =>
    dsimp only [advance]
    split <;> exact hv
  | takeState =>
    dsimp only [advance]
    rw [if_pos h.2]
    exact .inr rfl
  | undoState => exact .inl rfl
  | undoClaim | increment | undoBit => exact hv
  | stampGeneration | stampOwner | stampTransaction | stampRole | finish => cases hφ
  | _ => exact (advance_effect total answer h rfl ht).vacant hv

/-- An object that is there stays as it was stamped, until its slot is free. -/
theorem advance_present (total : Nat) (answer : Bool) (ht : φ.target = some i) (h : Local w φ)
    (hv : ¬ Vacant w) :
    let w' := (φ.advance total w answer).1
    w'.generation = w.generation ∧ (w'.state = .free ∨ ¬ Vacant w' ∧
      w'.header.ownerEpoch = w.header.ownerEpoch ∧
      w'.header.allocationTransactionId = w.header.allocationTransactionId) := by
  have ha : φ.allocates = none := Option.eq_none_iff_forall_ne_some.mpr fun j hj =>
    hv (h.of_allocates hj).2
  cases hclaim : φ.inside with
  | none =>
    cases φ with
    | claim =>
      dsimp only [advance]
      split <;> exact ⟨rfl, .inr ⟨hv, rfl, rfl⟩⟩
    | idle | obtained | returned => cases ht
    | _ => cases hclaim
  | some j =>
    have heffect := advance_effect total answer h ha hclaim
    obtain ⟨hgeneration, howner, htransaction, -⟩ := heffect.keeps
    refine ⟨hgeneration, ?_⟩
    by_cases hfree : (φ.advance total w answer).1.state = .free
    · exact .inl hfree
    exact .inr ⟨heffect.present hv hfree, howner, htransaction⟩

/-- The call of `ReclaimSlotExact` that a phase is in. -/
def exactOf : SlabPhase → Option SlabExact
  | .checking _ (.exact e) | .checking _ (.recheck e _) => some e
  | .exactState e | .exactGuard e _ | .exactSwap e _ | .recheckGuard e _ | .restore e _
  | .free e | .clear e => some e
  | _ => none

/-- The slot of a call that a scan makes is the one the scan is at. -/
def Linked (φ : SlabPhase) : Prop :=
  ∀ e, φ.exactOf = some e → (e.scan = none → e.slot = e.task.slot ∧ e.generation = e.task.generation) ∧
    ∀ f, e.scan = some f → f.slot = e.slot ∧ f.task = e.task

/-- The scan that a phase belongs to. -/
def scan? : SlabPhase → Option SlabScan
  | .scanBit f | .scanState f | .scanOwner f | .scanTransaction f | .scanGeneration f
  | .scanHeader f _ | .scanVerify f _ => some f
  | φ => φ.exactOf.bind (·.scan)

/-- The operation that a phase belongs to. -/
def task? : SlabPhase → Option SlabTask
  | .returned t _ | .verify t | .swap t | .loadState t | .moveState t _ | .loadOwner t
  | .loadTransaction t _ | .loadRole t _ _ | .askRoot t _ _ | .checking _ (.resolve t) => some t
  | .scanBit f | .scanState f | .scanOwner f | .scanTransaction f | .scanGeneration f
  | .scanHeader f _ | .scanVerify f _ => some f.task
  | φ => φ.exactOf.map (·.task)

theorem exactOf_some (h : φ.exactOf = some e) :
    φ.target = some e.slot ∧ φ.task? = some e.task ∧ φ.scan? = e.scan := by
  cases φ with
  | checking k x =>
    cases x with
    | resolve => cases h
    | exact | recheck =>
      cases h
      exact ⟨rfl, rfl, rfl⟩
  | exactState | exactGuard | exactSwap | recheckGuard | restore | free | clear =>
    cases h
    exact ⟨rfl, rfl, rfl⟩
  | _ => cases h

theorem scan?_some (h : φ.scan? = some f) (hexact : φ.exactOf = none) :
    φ.target = some f.slot ∧ φ.task? = some f.task := by
  cases φ with
  | scanBit | scanState | scanOwner | scanTransaction | scanGeneration | scanHeader
  | scanVerify =>
    cases h
    exact ⟨rfl, rfl⟩
  | checking k x =>
    cases x with
    | resolve => cases h
    | exact | recheck => cases hexact
  | exactState | exactGuard | exactSwap | recheckGuard | restore | free | clear => cases hexact
  | _ => cases h

/-- The generation that a scan has read at its slot. -/
def scanRead? : SlabPhase → Option Nat
  | .scanHeader _ generation | .scanVerify _ generation => some generation
  | _ => none

/-- The scan may leave its slot behind. -/
def Over (w : SlotWords) (f : SlabScan) (φ : SlabPhase) : Prop :=
  w.state = .free ∨ w.header.ownerEpoch ≠ f.ownerEpoch ∨
    w.header.allocationTransactionId ≠ f.transactionId ∨
    ∃ generation, φ.scanRead? = some generation ∧
      ¬ (w.header.generation = generation ∧ w.header.verifyImmutableHeader = true)

/-- Where a step of a scan leads to. -/
inductive Onward (total : Nat) (w : SlotWords) (f : SlabScan) (φ φ' : SlabPhase) : Prop
  | stay (hscan : φ'.scan? = some f) (htask : φ'.task? = some f.task) (hlinked : φ'.Linked)
      (hread : ∀ g, φ'.scanRead? = some g → g = w.generation ∨ φ.scanRead? = some g)
  | next (heq : φ' = scanNext total f) (hover : Over w f φ)

theorem linked_of_exact (h : φ.exactOf = some e)
    (hscan : e.scan = none → e.slot = e.task.slot ∧ e.generation = e.task.generation)
    (hsome : ∀ f, e.scan = some f → f.slot = e.slot ∧ f.task = e.task) : φ.Linked := by
  intro e' he'
  cases h.symm.trans he'
  exact ⟨hscan, hsome⟩

theorem linked_of_none (h : φ.exactOf = none) : φ.Linked := by
  intro e he
  rw [h] at he
  cases he

/-- The steps of the scan itself. -/
theorem advance_scan (total : Nat) (answer : Bool) (hscan : φ.scan? = some f)
    (hexact : φ.exactOf = none) (hbit : w.bit = false → w.state = .free)
    (hread : φ.readsState.isSome → w.state ≠ .reclaiming) :
    Onward total w f φ (φ.advance total w answer).2 := by
  cases φ
  case checking k x =>
    cases x with
    | resolve t => cases hscan
    | exact e | recheck e seen => cases hexact
  all_goals cases hexact <;> cases hscan <;> dsimp only [advance]
  case scanBit =>
    split
    · exact .stay rfl rfl (linked_of_none rfl) nofun
    · rename_i hset
      exact .next rfl (.inl (hbit (Bool.eq_false_iff.mpr hset)))
  case scanState =>
    split
    · rename_i hst
      exact .next rfl (.inl (hst.resolve_right (hread rfl)))
    · exact .stay rfl rfl (linked_of_none rfl) nofun
  case scanOwner =>
    split
    · exact .stay rfl rfl (linked_of_none rfl) nofun
    · rename_i hne
      exact .next rfl (.inr (.inl hne))
  case scanTransaction =>
    split
    · exact .stay rfl rfl (linked_of_none rfl) nofun
    · rename_i hne
      exact .next rfl (.inr (.inr (.inl hne)))
  case scanGeneration =>
    exact .stay rfl rfl (linked_of_none rfl) fun g hg => .inl (Option.some.inj hg).symm
  case scanHeader generation =>
    split
    · exact .stay rfl rfl (linked_of_none rfl) fun g hg => .inr hg
    · rename_i hne
      exact .next rfl (.inr (.inr (.inr ⟨generation, rfl, fun hand => hne hand.1⟩)))
  case scanVerify generation =>
    split
    · exact .stay rfl rfl (linked_of_exact rfl nofun fun f hf => by cases hf; exact ⟨rfl, rfl⟩) nofun
    · rename_i hne
      exact .next rfl (.inr (.inr (.inr ⟨generation, rfl, fun hand => hne hand.2⟩)))

/-- Where a step of `ReclaimSlotExact` leads to. -/
inductive Through (total : Nat) (w : SlotWords) (e : SlabExact) (φ φ' : SlabPhase) : Prop
  | stay (hexact : φ'.exactOf = some e) (hscan : φ'.scan? = e.scan) (htask : φ'.task? = some e.task)
  | done (heq : φ' = exactOk total e) (hfree : w.state = .free) (hsame : w.generation = e.generation)
      (hchecked : φ.checked? = some e.slot)
  | failed (heq : φ' = .returned e.task false)

theorem advance_exact (total : Nat) (answer : Bool) (hexact : φ.exactOf = some e) (h : Local w φ)
    (hread : φ.readsState.isSome → w.state ≠ .reclaiming) :
    Through total w e φ (φ.advance total w answer).2 := by
  cases φ
  case checking k x =>
    cases x with
    | resolve t => cases hexact
    | exact e' =>
      cases hexact
      dsimp only [advance]
      split
      · cases k <;> exact .stay rfl rfl rfl
      · exact .failed rfl
    | recheck e' seen =>
      cases hexact
      dsimp only [advance]
      split
      · cases k <;> exact .stay rfl rfl rfl
      · exact .stay rfl rfl rfl
  all_goals cases hexact <;> dsimp only [advance]
  case exactState =>
    split
    · rename_i hst
      exact .done rfl (hst.resolve_left (hread rfl)) h rfl
    split
    · exact .failed rfl
    · exact .stay rfl rfl rfl
  case exactGuard =>
    split
    · exact .stay rfl rfl rfl
    · exact .failed rfl
  case exactSwap | recheckGuard =>
    split <;> exact .stay rfl rfl rfl
  case restore =>
    exact .failed rfl
  case free =>
    exact .stay rfl rfl rfl
  case clear =>
    exact .done (if_pos h.1) h.2.1 h.2.2 rfl

/-- `BeginBuild` and `Publish` alone come to these phases. -/
def SwapOp (φ : SlabPhase) : Prop :=
  ∀ t, φ = .verify t ∨ φ = .swap t → t.op = .beginBuild ∨ t.op = .publish

/-- Where the other steps lead to. -/
inductive Outset (φ φ' : SlabPhase) : Prop
  | plain (hexact : φ'.exactOf = none) (hscan : φ'.scan? = none)
      (htask : ∀ t', φ'.task? = some t' → ∃ t, φ.task? = some t ∧ t'.slot = t.slot)
      (hdone : ∀ t, φ' = .returned t true → t.op ≠ .reclaim ∧ t.op ≠ .abortReclaim)
      (hswap : φ'.SwapOp)
  | exact (t : SlabTask) (htask : φ.task? = some t)
      (heq : φ' = .checking .bit (.exact ⟨t, t.slot, t.generation, none⟩))
  | scan (t : SlabTask) (ownerEpoch transactionId : Nat)
      (heq : φ = .askRoot t ownerEpoch transactionId)
      (heq' : φ' = .scanBit ⟨t, ownerEpoch, transactionId, 0⟩)

theorem swapOp_of_ne (hverify : ∀ t, φ ≠ .verify t) (hswap : ∀ t, φ ≠ .swap t) : φ.SwapOp :=
  fun t h => h.elim (fun heq => absurd heq (hverify t)) fun heq => absurd heq (hswap t)

theorem Outset.within (hexact : φ'.exactOf = none) (hscan : φ'.scan? = none)
    (htask : φ'.task? = none) : Outset φ φ' := by
  have hne : ∀ t, φ'.task? ≠ some t := fun t ht => nomatch htask.symm.trans ht
  refine .plain hexact hscan (fun t ht => absurd ht (hne t)) (fun t heq => ?_)
    (swapOp_of_ne (fun t heq => ?_) fun t heq => ?_)
  all_goals exact absurd (heq ▸ rfl) (hne t)

/-- The operation goes on, or fails. -/
theorem Outset.onward {t' : SlabTask} (htask : φ.task? = some t)
    (htask' : φ'.task? = some t') (hslot : t'.slot = t.slot) (hexact : φ'.exactOf = none)
    (hscan : φ'.scan? = none) (hdone : ∀ t, φ' ≠ .returned t true) (hswap : φ'.SwapOp) :
    Outset φ φ' :=
  .plain hexact hscan (fun x hx => ⟨t, htask, by rw [Option.some.inj (hx.symm.trans htask'), hslot]⟩)
    (fun x heq => absurd heq (hdone x)) hswap

/-- The operation returns `Ok` and has not reclaimed anything. -/
theorem Outset.finished (htask : φ.task? = some t) (hop : t.op ≠ .reclaim ∧ t.op ≠ .abortReclaim) :
    Outset φ (.returned t true) :=
  .plain rfl rfl (fun _ hx => ⟨t, htask, by cases hx; rfl⟩) (fun x heq => by cases heq; exact hop)
    (swapOp_of_ne nofun nofun)

theorem Outset.rejected (htask : φ.task? = some t) : Outset φ (.returned t false) :=
  .onward htask rfl rfl rfl rfl nofun (swapOp_of_ne nofun nofun)

theorem advance_outset (total : Nat) (w : SlotWords) (answer : Bool) (hexact : φ.exactOf = none)
    (hscan : φ.scan? = none) (hrest : φ.AtRest = false) (hswap : φ.SwapOp) :
    Outset φ (φ.advance total w answer).2 := by
  cases φ
  case checking k x =>
    cases x with
    | exact e | recheck e seen => cases hexact
    | resolve t =>
      dsimp only [advance]
      split
      · cases k with
        | bit | generation => exact .onward rfl rfl rfl rfl rfl nofun (swapOp_of_ne nofun nofun)
        | header =>
          obtain ⟨op, slot, generation⟩ := t
          cases op with
          | beginBuild =>
            refine .onward rfl rfl rfl rfl rfl nofun fun t ht => .inl ?_
            rcases ht with heq | heq <;> cases heq
            rfl
          | publish =>
            refine .onward rfl rfl rfl rfl rfl nofun fun t ht => .inr ?_
            rcases ht with heq | heq <;> cases heq
            rfl
          | retire | abort | reclaim | abortReclaim =>
            exact .onward rfl rfl rfl rfl rfl nofun (swapOp_of_ne nofun nofun)
      · exact .rejected rfl
  all_goals cases hrest <;> cases hexact <;> cases hscan <;> dsimp only [advance]
  case claim | takeState | increment => split <;> exact .within rfl rfl rfl
  case verify t =>
    split
    · refine .onward rfl rfl rfl rfl rfl nofun fun x hx => ?_
      rcases hx with heq | heq <;> cases heq
      exact hswap t (.inl rfl)
    · exact .rejected rfl
  case swap t =>
    split
    · refine .finished rfl ?_
      rcases hswap t (.inr rfl) with hop | hop <;> rw [hop] <;> exact ⟨nofun, nofun⟩
    · exact .rejected rfl
  case loadState t =>
    split
    · rename_i hop
      split
      case h_1 => exact .finished rfl (by rw [hop]; exact ⟨nofun, nofun⟩)
      case h_5 => exact .rejected rfl
      all_goals exact .onward rfl rfl rfl rfl rfl nofun (swapOp_of_ne nofun nofun)
    · split
      case h_4 => exact .rejected rfl
      all_goals exact .onward rfl rfl rfl rfl rfl nofun (swapOp_of_ne nofun nofun)
  case moveState t seen =>
    split
    · split
      · rename_i hop
        exact .finished rfl (by rw [hop]; exact ⟨nofun, nofun⟩)
      · exact .onward rfl rfl rfl rfl rfl nofun (swapOp_of_ne nofun nofun)
    · exact .onward rfl rfl rfl rfl rfl nofun (swapOp_of_ne nofun nofun)
  case loadOwner | loadTransaction =>
    exact .onward rfl rfl rfl rfl rfl nofun (swapOp_of_ne nofun nofun)
  case loadRole t o x =>
    split
    · exact .onward rfl rfl rfl rfl rfl nofun (swapOp_of_ne nofun nofun)
    · exact .exact t rfl rfl
  case askRoot t o x =>
    split
    · exact .scan t o x rfl rfl
    · exact .rejected rfl
  all_goals exact .within rfl rfl rfl

end SlabPhase

end Mino.Shm
