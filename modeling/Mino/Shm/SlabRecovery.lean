import Mino.Shm.SlabSafety

/-! # The recovery scan of the slab allocator

`ScanSlots` runs while nobody else uses the allocator. It reads what a stopped process left
behind: any bits, generations and headers at all. -/

namespace Mino.Shm

open List

/-- What the scan is told: the options, the directory's references, the proofs of death. -/
structure ScanInput where
  repair : Bool
  isOwner : Bool
  reclaimRetired : Bool
  destructive : Bool
  referencesComplete : Bool
  references : List (Nat × Nat)
  ownerDead : Nat → Nat → Bool

variable (a : SlabAllocator) (input : ScanInput) (report : ScanReport) (slot : Nat)

def ScanInput.isReferenced (slot generation : Nat) : Bool :=
  input.references.contains (slot, generation)

/-- The counters of `RecoveryReport` that the scan counts up. -/
structure ScanReport where
  slotsScanned : Nat
  orphanSlabCount : Nat
  reclaimedSlabCount : Nat
  bitmapInconsistencyCount : Nat
  corruptedSlabCount : Nat
  publishedOrphanCandidateCount : Nat
  unpublishedOrphanCandidateCount : Nat
  deferredReclaimCount : Nat
  deriving DecidableEq, Repr

def ScanReport.zero : ScanReport := ⟨0, 0, 0, 0, 0, 0, 0, 0⟩

namespace SlabAllocator

def isProtocolReclaimableState : ObjectState → Bool
  | .free | .allocating | .reclaiming => true
  | _ => false

def classIdForRecovery : Nat :=
  ((a.geometry.table.classOf slot).map (·.classId)).getD a.geometry.table.classCount

/-- The header is the one that `Allocate` wrote for the present generation. -/
def headerIntact : Bool :=
  (a.headers slot).verifyImmutableHeader &&
    (a.headers slot).generation = a.generations slot &&
    (a.headers slot).classId = a.classIdForRecovery slot &&
    (a.headers slot).objectSize ≤ (a.headers slot).capacity

/-- A repair, between two looks at the ownership. -/
def repairSlot (before : String) (after : String) (a : SlabAllocator)
    (result : SlabAllocator × Status) : SlabAllocator × ScanReport × Status :=
  if !input.isOwner then (a, report, .error .unavailable before)
  else if !result.2.ok then (result.1, report, result.2)
  else if !input.isOwner then (result.1, report, .error .unavailable after)
  else (result.1, { report with reclaimedSlabCount := report.reclaimedSlabCount + 1 }, .success)

/-- The part of the loop of `ScanSlots` for a slot whose bit is clear. -/
def scanVacant : SlabAllocator × ScanReport × Status :=
  if a.state slot = .free then (a, report, .success)
  else
    let report := { report with
      bitmapInconsistencyCount := report.bitmapInconsistencyCount + 1 }
    if !input.repair then (a, report, .success)
    else if !input.isOwner then
      (a, report, .error .unavailable "recovery fence lost before stale-state repair")
    else
      let result := a.clearStaleStateForRecovery slot (a.state slot)
      if !result.2.ok then (result.1, report, result.2)
      else if !input.isOwner then
        (result.1, report, .error .unavailable "recovery fence lost after stale-state repair")
      else (result.1, report, .success)

/-- The part for a slot whose bit is set. -/
def scanOccupied : SlabAllocator × ScanReport × Status :=
  if isProtocolReclaimableState (a.state slot) then
    let report := { report with orphanSlabCount := report.orphanSlabCount + 1 }
    if input.repair then
      repairSlot input report "recovery fence lost before orphan repair"
        "recovery fence lost after orphan repair" a (a.clearSlotForRecovery slot (a.state slot))
    else (a, report, .success)
  else if !a.headerIntact slot then
    (a, { report with corruptedSlabCount := report.corruptedSlabCount + 1 }, .success)
  else if a.state slot = .allocated ∨ a.state slot = .building ∨ a.state slot = .aborting then
    let provenDead :=
      input.ownerDead (a.headers slot).ownerEpoch (a.headers slot).allocationTransactionId
    let report := { report with
      orphanSlabCount := report.orphanSlabCount + 1
      unpublishedOrphanCandidateCount := report.unpublishedOrphanCandidateCount + 1
      deferredReclaimCount := report.deferredReclaimCount + (!provenDead).toNat }
    if input.repair ∧ provenDead then
      repairSlot input report "recovery fence lost before unpublished slab repair"
        "recovery fence lost after unpublished slab repair" a
        (a.clearSlotForRecovery slot (a.state slot))
    else (a, report, .success)
  else if a.state slot = .published ∧ input.referencesComplete ∧
      input.isReferenced slot (a.generations slot) = false then
    let report := { report with
      orphanSlabCount := report.orphanSlabCount + 1
      publishedOrphanCandidateCount := report.publishedOrphanCandidateCount + 1
      deferredReclaimCount := report.deferredReclaimCount + (!input.destructive).toNat }
    if input.repair ∧ input.destructive then
      repairSlot input report "recovery fence lost before published candidate repair"
        "recovery fence lost after published candidate repair" a
        (a.clearSlotForRecovery slot (a.state slot))
    else (a, report, .success)
  else if a.state slot = .retired ∧ input.reclaimRetired ∧ input.repair then
    repairSlot input report "recovery fence lost before retired repair"
      "recovery fence lost after retired repair" a (a.clearSlotForRecovery slot (a.state slot))
  else (a, report, .success)

/-- The body of the loop of `ScanSlots`. -/
def scanSlot : SlabAllocator × ScanReport × Status :=
  let report := { report with slotsScanned := report.slotsScanned + 1 }
  if a.bitmap slot then a.scanOccupied input report slot else a.scanVacant input report slot

/-- The loop over the slots that are left. The ownership is looked at every 256 slots. -/
def scanFrom (a : SlabAllocator) (input : ScanInput) (report : ScanReport) :
    List Nat → SlabAllocator × ScanReport × Status
  | [] => (a, report, .success)
  | slot :: rest =>
    if input.repair ∧ slot % 256 = 0 ∧ !input.isOwner then
      (a, report, .error .unavailable "Region recovery ownership was lost")
    else
      let result := a.scanSlot input report slot
      if !result.2.2.ok then result else result.1.scanFrom input result.2.1 rest

def scanSlots : SlabAllocator × ScanReport × Status :=
  if input.repair ∧ !input.isOwner then
    (a, .zero, .error .permissionDenied "repairing scan requires Region recovery ownership")
  else a.scanFrom input .zero (List.range a.geometry.table.totalSlots)

/-! ### One slot -/

/-- Why a repairing scan frees an occupied slot. -/
def Reclaimable : Prop :=
  isProtocolReclaimableState (a.state slot) = true ∨
    (a.headerIntact slot = true ∧
      (((a.state slot = .allocated ∨ a.state slot = .building ∨ a.state slot = .aborting) ∧
        input.ownerDead (a.headers slot).ownerEpoch (a.headers slot).allocationTransactionId =
          true) ∨
      (a.state slot = .published ∧ input.referencesComplete = true ∧
        input.isReferenced slot (a.generations slot) = false ∧ input.destructive = true) ∨
      (a.state slot = .retired ∧ input.reclaimRetired = true)))

variable {a a' : SlabAllocator} {input : ScanInput} {slot : Nat}

variable (report : ScanReport)

variable (before after : String)

theorem repairSlot_success {result} (howner : input.isOwner = true) (hok : result.2.ok = true) :
    (repairSlot input report before after a result).1 = result.1 ∧
      (repairSlot input report before after a result).2.2 = .success := by
  simp [repairSlot, howner, hok]

theorem clearSlotForRecovery_occupied (hslot : slot < a.geometry.table.totalSlots)
    (hbit : a.bitmap slot = true) :
    a.clearSlotForRecovery slot (a.state slot) = (a.release slot, .success) := by
  unfold clearSlotForRecovery release
  rw [if_neg (Nat.not_le.mpr hslot), if_neg (by simp [hbit]), if_neg (not_not.mpr rfl),
    setState_setState]

theorem clearStaleStateForRecovery_vacant (hslot : slot < a.geometry.table.totalSlots)
    (hbit : a.bitmap slot = false) :
    a.clearStaleStateForRecovery slot (a.state slot) = (a.setState slot .free, .success) := by
  unfold clearStaleStateForRecovery
  rw [if_neg (Nat.not_le.mpr hslot), if_neg (by simp [hbit]), if_pos rfl]

theorem repairSlot_release (howner : input.isOwner = true)
    (hslot : slot < a.geometry.table.totalSlots) (hbit : a.bitmap slot = true) :
    (repairSlot input report before after a (a.clearSlotForRecovery slot (a.state slot))).1 =
        a.release slot ∧
      (repairSlot input report before after a (a.clearSlotForRecovery slot (a.state slot))).2.2 =
        .success := by
  rw [clearSlotForRecovery_occupied hslot hbit]
  exact repairSlot_success report before after howner rfl

section

variable (hrepair : input.repair = true) (howner : input.isOwner = true)
  (hslot : slot < a.geometry.table.totalSlots)
include hrepair howner hslot

theorem scanVacant_spec (hbit : a.bitmap slot = false) :
    (a.scanVacant input report slot).1 = a.setState slot .free ∧
      (a.scanVacant input report slot).2.2 = .success := by
  unfold scanVacant
  split
  · rename_i hfree
    exact ⟨(setState_self hfree).symm, rfl⟩
  rw [clearStaleStateForRecovery_vacant hslot hbit]
  simp [hrepair, howner]

theorem scanOccupied_spec (hbit : a.bitmap slot = true) :
    (a.scanOccupied input report slot).2.2 = .success ∧
      ((Reclaimable a input slot ∧ (a.scanOccupied input report slot).1 = a.release slot) ∨
      (¬ Reclaimable a input slot ∧ (a.scanOccupied input report slot).1 = a)) := by
  have hrelease := fun (r : ScanReport) (before after : String) =>
    repairSlot_release r before after howner hslot hbit
  unfold scanOccupied
  dsimp only
  split
  · rename_i hprotocol
    exact ⟨(hrelease _ _ _).2, .inl ⟨.inl hprotocol, (hrelease _ _ _).1⟩⟩
  rename_i hprotocol
  split
  · rename_i hintact
    refine ⟨rfl, .inr ⟨fun hrec => ?_, rfl⟩⟩
    rcases hrec with hrec | hrec
    · exact hprotocol hrec
    · rw [hrec.1] at hintact
      cases hintact
  rename_i hintact
  have hintact' : a.headerIntact slot = true := by simpa using hintact
  split
  · rename_i hstate
    split
    · rename_i hdead
      exact ⟨(hrelease _ _ _).2, .inl ⟨.inr ⟨hintact', .inl ⟨hstate, hdead.2⟩⟩, (hrelease _ _ _).1⟩⟩
    rename_i hdead
    refine ⟨rfl, .inr ⟨fun hrec => ?_, rfl⟩⟩
    rcases hrec with hrec | ⟨-, ⟨-, hrec⟩ | ⟨hrec, -⟩ | ⟨hrec, -⟩⟩
    · exact hprotocol hrec
    · exact hdead ⟨hrepair, hrec⟩
    all_goals rw [hrec] at hstate; simp at hstate
  rename_i hstate
  split
  · rename_i hpublished
    split
    · rename_i hdestructive
      exact ⟨(hrelease _ _ _).2, .inl ⟨.inr ⟨hintact', .inr
        (.inl ⟨hpublished.1, hpublished.2.1, hpublished.2.2, hdestructive.2⟩)⟩, (hrelease _ _ _).1⟩⟩
    rename_i hdestructive
    refine ⟨rfl, .inr ⟨fun hrec => ?_, rfl⟩⟩
    rcases hrec with hrec | ⟨-, ⟨hrec, -⟩ | ⟨-, -, -, hrec⟩ | ⟨hrec, -⟩⟩
    · exact hprotocol hrec
    · exact hstate hrec
    · exact hdestructive ⟨hrepair, hrec⟩
    · exact nomatch hpublished.1.symm.trans hrec
  rename_i hpublished
  split
  · rename_i hretired
    exact ⟨(hrelease _ _ _).2,
      .inl ⟨.inr ⟨hintact', .inr (.inr ⟨hretired.1, hretired.2.1⟩)⟩, (hrelease _ _ _).1⟩⟩
  rename_i hretired
  refine ⟨rfl, .inr ⟨fun hrec => ?_, rfl⟩⟩
  rcases hrec with hrec | ⟨-, ⟨hrec, -⟩ | ⟨hrec, hcomplete, href, -⟩ | ⟨hrec, hoption⟩⟩
  · exact hprotocol hrec
  · exact hstate hrec
  · exact hpublished ⟨hrec, hcomplete, href⟩
  · exact hretired ⟨hrec, hoption, hrepair⟩

end

/-- A repairing scan leaves the slot free. -/
def Freed (a : SlabAllocator) (input : ScanInput) (slot : Nat) : Prop :=
  a.bitmap slot = false ∨ Reclaimable a input slot

/-- The slot is free, or it is as it was. -/
def Settled (a a' : SlabAllocator) (input : ScanInput) (slot : Nat) : Prop :=
  (Freed a input slot → a'.bitmap slot = false ∧
    a'.headers slot = { a.headers slot with objectState := .free }) ∧
  (¬ Freed a input slot → a'.bitmap slot = a.bitmap slot ∧ a'.headers slot = a.headers slot)

/-- Nothing but the slot has changed. -/
structure Elsewhere (a a' : SlabAllocator) (S : Nat → Prop) : Prop where
  geometry : a'.geometry = a.geometry
  generations : a'.generations = a.generations
  same : ∀ i, ¬ S i → a'.bitmap i = a.bitmap i ∧ a'.headers i = a.headers i

theorem Elsewhere.freed {S} (h : Elsewhere a a' S) {i} (hi : ¬ S i) :
    Freed a' input i ↔ Freed a input i := by
  have hclass : a'.classIdForRecovery i = a.classIdForRecovery i := by
    rw [classIdForRecovery, classIdForRecovery, h.geometry]
  simp only [Freed, Reclaimable, headerIntact, state, hclass, h.generations, (h.same i hi).1,
    (h.same i hi).2]

theorem headers_release (i : Nat) : (a.release slot).headers i =
    if i = slot then { a.headers slot with objectState := .free } else a.headers i :=
  headers_setState .free i

theorem bitmap_release (i : Nat) : (a.release slot).bitmap i =
    if i = slot then false else a.bitmap i := Function.update_apply ..

theorem scanSlot_settled (hrepair : input.repair = true) (howner : input.isOwner = true)
    (hslot : slot < a.geometry.table.totalSlots) : (a.scanSlot input report slot).2.2 = .success ∧
      Settled a (a.scanSlot input report slot).1 input slot ∧
      Elsewhere a (a.scanSlot input report slot).1 (· = slot) := by
  unfold scanSlot
  split
  · rename_i hbit
    obtain ⟨hok, ⟨hrec, heq⟩ | ⟨hrec, heq⟩⟩ := scanOccupied_spec
      { report with slotsScanned := report.slotsScanned + 1 } hrepair howner hslot hbit
    · rw [heq]
      refine ⟨hok, ⟨fun _ => ?_, fun hnot => absurd (.inr hrec) hnot⟩, rfl, rfl, fun i hi => ?_⟩
      · rw [bitmap_release, headers_release, if_pos rfl, if_pos rfl]
        exact ⟨rfl, rfl⟩
      · rw [bitmap_release, headers_release, if_neg hi, if_neg hi]
        exact ⟨rfl, rfl⟩
    · rw [heq]
      refine ⟨hok, ⟨fun hfreed => ?_, fun _ => ⟨rfl, rfl⟩⟩, rfl, rfl, fun _ _ => ⟨rfl, rfl⟩⟩
      rcases hfreed with hfalse | hrec'
      · rw [hfalse] at hbit
        cases hbit
      · exact absurd hrec' hrec
  · rename_i hbit
    have hbit' := Bool.eq_false_iff.mpr hbit
    obtain ⟨heq, hok⟩ := scanVacant_spec
      { report with slotsScanned := report.slotsScanned + 1 } hrepair howner hslot hbit'
    rw [heq]
    refine ⟨hok, ⟨fun _ => ⟨hbit', ?_⟩, fun hnot => absurd (.inl hbit') hnot⟩, rfl, rfl,
      fun i hi => ⟨rfl, ?_⟩⟩
    · rw [headers_setState, if_pos rfl]
    · rw [headers_setState, if_neg hi]

/-! ### All slots -/

/-- Each slot is dealt with by what it holds itself, whatever comes before it. -/
theorem scanFrom_settled (hrepair : input.repair = true) (howner : input.isOwner = true)
    {slots} (hslots : ∀ i ∈ slots, i < a.geometry.table.totalSlots)
    (hnodup : slots.Nodup) (report : ScanReport) : (a.scanFrom input report slots).2.2 = .success ∧
      (∀ i ∈ slots, Settled a (a.scanFrom input report slots).1 input i) ∧
      Elsewhere a (a.scanFrom input report slots).1 (· ∈ slots) := by
  induction slots generalizing a report with
  | nil => exact ⟨rfl, nofun, rfl, rfl, fun _ _ => ⟨rfl, rfl⟩⟩
  | cons slot rest ih =>
    obtain ⟨hok, hsettled, helse⟩ := scanSlot_settled (a := a) report hrepair howner
      (hslots slot mem_cons_self)
    obtain ⟨hnot, hrest⟩ := nodup_cons.mp hnodup
    obtain ⟨hok', hsettled', helse'⟩ := ih (a := (a.scanSlot input report slot).1) (fun i hi =>
      helse.geometry ▸ hslots i (mem_cons_of_mem _ hi)) hrest (a.scanSlot input report slot).2.1
    have hscan : a.scanFrom input report (slot :: rest) =
        (a.scanSlot input report slot).1.scanFrom input (a.scanSlot input report slot).2.1 rest := by
      rw [scanFrom, if_neg (by simp [howner])]
      dsimp only
      rw [hok]
      exact if_neg (by decide)
    rw [hscan]
    refine ⟨hok', fun i hi => ?_, helse'.geometry.trans helse.geometry,
      helse'.generations.trans helse.generations, fun i hi => ?_⟩
    · rcases mem_cons.mp hi with rfl | hi
      · obtain ⟨hb, hh⟩ := helse'.same i hnot
        unfold Settled
        rw [hb, hh]
        exact hsettled
      · have hne : i ≠ slot := fun heq => hnot (heq ▸ hi)
        obtain ⟨hb, hh⟩ := helse.same i hne
        have hset := hsettled' i hi
        unfold Settled at hset ⊢
        rw [helse.freed hne, hb, hh] at hset
        exact hset
    · obtain ⟨hb', hh'⟩ := helse'.same i fun hmem => hi (mem_cons_of_mem _ hmem)
      obtain ⟨hb, hh⟩ := helse.same i fun heq => hi (heq ▸ mem_cons_self)
      exact ⟨hb'.trans hb, hh'.trans hh⟩

theorem Settled.consistent (h : Settled a a' input slot) :
    a'.bitmap slot = true ↔ a'.state slot ≠ .free := by
  by_cases hfreed : Freed a input slot
  · obtain ⟨hbit, hheader⟩ := h.1 hfreed
    rw [hbit, state, hheader]
    exact ⟨fun h => absurd h Bool.false_ne_true, fun hne => absurd rfl hne⟩
  obtain ⟨hbit, hheader⟩ := h.2 hfreed
  obtain ⟨hset, hrec⟩ := not_or.mp hfreed
  rw [hbit, state, hheader]
  refine ⟨fun _ hfree => hrec (.inl ?_), fun _ => by simpa using hset⟩
  rw [state, hfree]
  rfl

/-- A free slot that has a generation left takes the next object. -/
theorem fillSlot_free (hfree : a.state slot = .free)
    (hgen : a.generations slot + 1 < kGenerationDraining) (c : ClassDescriptor)
    (request : AllocationRequest) :
    ∃ handle, ((a.setBit slot true).fillSlot c request slot).2 = .ok handle := by
  have hstate : (a.setBit slot true).state slot = .free := hfree
  have hnext :
      incrementGeneration ((a.setBit slot true).generations slot) ≠ kGenerationDraining := by
    change incrementGeneration (a.generations slot) ≠ kGenerationDraining
    unfold incrementGeneration
    split <;> omega
  unfold fillSlot
  rw [if_neg (not_not.mpr hstate)]
  rw [if_neg hnext]
  exact ⟨_, rfl⟩

/-- A repairing scan succeeds whatever the slots hold, so behind every store of an operation
that stopped there. It leaves bits and states consistent; slots in a state between two others
are free behind it; and referenced objects, and those that are not published and whose owner
may live, are as they were. -/
theorem scanSlots_repairs (a : SlabAllocator) {input : ScanInput} (hrepair : input.repair = true)
    (howner : input.isOwner = true) :
    let a' := (a.scanSlots input).1
    (a.scanSlots input).2.2.ok = true ∧ a'.generations = a.generations ∧
    ∀ slot, slot < a.geometry.table.totalSlots → (a'.bitmap slot = true ↔ a'.state slot ≠ .free) ∧
      (isProtocolReclaimableState (a.state slot) = true →
        a'.bitmap slot = false ∧ a'.state slot = .free ∧
        (a.generations slot + 1 < kGenerationDraining → ∀ c request,
          ∃ handle, ((a'.setBit slot true).fillSlot c request slot).2 = .ok handle)) ∧
      (a.bitmap slot = true → a.state slot = .published →
        input.isReferenced slot (a.generations slot) = true ∨ input.referencesComplete = false ∨
          input.destructive = false →
        a'.bitmap slot = true ∧ a'.headers slot = a.headers slot) ∧
      (a.bitmap slot = true → a.state slot = .retired → input.reclaimRetired = false →
        a'.bitmap slot = true ∧ a'.headers slot = a.headers slot) ∧
      (a.bitmap slot = true →
        a.state slot = .allocated ∨ a.state slot = .building ∨ a.state slot = .aborting →
        input.ownerDead (a.headers slot).ownerEpoch (a.headers slot).allocationTransactionId =
          false →
        a'.bitmap slot = true ∧ a'.headers slot = a.headers slot) := by
  have hscan : a.scanSlots input =
      a.scanFrom input .zero (List.range a.geometry.table.totalSlots) :=
    if_neg (by simp [howner])
  obtain ⟨hok, hsettled, helse⟩ := scanFrom_settled (a := a) hrepair howner
    (fun i hi => List.mem_range.mp hi) List.nodup_range .zero
  rw [← hscan] at hok hsettled helse
  intro a'
  refine ⟨by rw [hok]; rfl, helse.generations, fun slot hslot => ?_⟩
  have hset := hsettled slot (List.mem_range.mpr hslot)
  -- A slot is kept if none of the reasons to free it applies.
  have hkeep : a.bitmap slot = true → ¬ Reclaimable a input slot →
      a'.bitmap slot = true ∧ a'.headers slot = a.headers slot := fun hbit hrec => by
    have hnot : ¬ Freed a input slot := by
      rintro (hfalse | hrec')
      · rw [hbit] at hfalse
        cases hfalse
      · exact hrec hrec'
    exact ⟨(hset.2 hnot).1.trans hbit, (hset.2 hnot).2⟩
  refine ⟨hset.consistent, fun hprotocol => ?_, fun hbit hstate hwhy => hkeep hbit ?_,
    fun hbit hstate hwhy => hkeep hbit ?_, fun hbit hstate hwhy => hkeep hbit ?_⟩
  · obtain ⟨hbit, hheader⟩ := hset.1 (.inr (.inl hprotocol))
    have hfree : a'.state slot = .free := congrArg SlabHeader.objectState hheader
    refine ⟨hbit, hfree, fun hgen c request => fillSlot_free hfree ?_ c request⟩
    rw [helse.generations]
    exact hgen
  · rintro (hrec | ⟨-, ⟨hrec, -⟩ | ⟨-, hcomplete, href, hdestructive⟩ | ⟨hrec, -⟩⟩)
    · rw [hstate] at hrec
      cases hrec
    · rw [hstate] at hrec
      rcases hrec with hrec | hrec | hrec <;> cases hrec
    · rw [hcomplete, href, hdestructive] at hwhy
      rcases hwhy with hwhy | hwhy | hwhy <;> cases hwhy
    · rw [hstate] at hrec
      cases hrec
  · rintro (hrec | ⟨-, ⟨hrec, -⟩ | ⟨hrec, -⟩ | ⟨-, hoption⟩⟩)
    · rw [hstate] at hrec
      cases hrec
    · rw [hstate] at hrec
      rcases hrec with hrec | hrec | hrec <;> cases hrec
    · rw [hstate] at hrec
      cases hrec
    · rw [hwhy] at hoption
      cases hoption
  · rintro (hrec | ⟨-, ⟨-, hdead⟩ | ⟨hrec, -⟩ | ⟨hrec, -⟩⟩)
    · rcases hstate with hstate | hstate | hstate <;> rw [hstate] at hrec <;> cases hrec
    · rw [hwhy] at hdead
      cases hdead
    · rcases hstate with hstate | hstate | hstate <;> rw [hstate] at hrec <;> cases hrec
    · rcases hstate with hstate | hstate | hstate <;> rw [hstate] at hrec <;> cases hrec

/-- The default options, with a complete directory and nobody proved dead. -/
def watchfulInput : ScanInput := ⟨true, true, true, false, true, [], fun _ _ => false⟩

/-- Two objects, and a `Reclaim` of the first that has stopped behind its compare-and-swap. -/
def stoppedReclaimer : SlabAllocator :=
  ((SlabHistory.create pairGeometry).run pairCalls).allocator.setState 0 .reclaiming

theorem scanSlots_repairs_pair : stoppedReclaimer.bitmap 0 = true ∧
      (stoppedReclaimer.scanSlots watchfulInput).2.2.ok = true ∧
      (stoppedReclaimer.scanSlots watchfulInput).1.bitmap 0 = false ∧
      (stoppedReclaimer.scanSlots watchfulInput).1.state 0 = .free := by
  obtain ⟨hok, -, hslots⟩ := scanSlots_repairs stoppedReclaimer (rfl : watchfulInput.repair = true) rfl
  obtain ⟨-, hfreed, -⟩ := hslots 0 (by decide +kernel)
  obtain ⟨hbit, hstate, -⟩ := hfreed (by decide +kernel)
  exact ⟨by decide +kernel, hok, hbit, hstate⟩

/-- A retired object is reclaimed although its owner has not been proved dead. -/
theorem scanSlots_frees_retired :
    let a := ((SlabHistory.create pairGeometry).run (pairCalls ++ [.retire ⟨384, 1, 0⟩])).allocator
    a.state 0 = .retired ∧ watchfulInput.ownerDead (a.headers 0).ownerEpoch (a.headers
      0).allocationTransactionId = false ∧ (a.scanSlots watchfulInput).1.state 0 = .free := by
  decide +kernel

end SlabAllocator

end Mino.Shm
