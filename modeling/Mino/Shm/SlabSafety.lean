import Mino.Shm.SlabRuns

/-! # Handle safety of the slab allocator

A call of `allocate` places an object in a free slot, under the next generation of the slot,
or leaves all slots as they are. With that the invariant holds behind every sequence of calls,
and the handles that have been returned are all different. -/

namespace Mino.Shm

open List Function Result SlabAllocator SlabGeometry

variable {handle : ShmHandle} {handles : List ShmHandle} {call : SlabCall}

namespace SlabAllocator

variable {a a' : SlabAllocator} {slot : Nat} {c : ClassDescriptor} {request : AllocationRequest}
  {manifest : List ShmHandle} {status : Status}

/-! ### Allocate -/

theorem claimLocal_ok {hint bit shards}
    (h : a.claimLocal c hint shards = .ok bit) : a.bitmap bit = false ∧ c.Holds bit := by
  induction shards with
  | nil => cases h
  | cons shard rest ih =>
    unfold claimLocal at h
    dsimp only at h
    split at h
    · rename_i bit' hfind
      cases h
      obtain ⟨hfree, hge, hlt⟩ := SlabBitmap.findFreeBitInRangeHinted_ok hfind
      exact ⟨hfree, by omega, lt_of_lt_of_le hlt (Nat.min_le_left _ _)⟩
    · split at h
      · cases h
      · exact ih h

theorem claimBit_ok {cache bit} (h : a.claimBit c cache = .ok bit) :
    a.bitmap bit = false ∧ c.Holds bit := by
  cases cache with
  | disabled => exact SlabBitmap.findFreeBitInRangeHinted_ok h
  | enabled localShards hint =>
    unfold claimBit at h
    dsimp only at h
    split at h
    · rename_i bit' hlocal
      cases h
      exact claimLocal_ok hlocal
    · split at h
      · cases h
      · exact SlabBitmap.findFreeBitInRangeHinted_ok h

/-- The slot has no further generation, and its class takes no more objects. -/
def drained (a : SlabAllocator) (c : ClassDescriptor) (slot : Nat) : SlabAllocator :=
  (a.setGeneration slot kGenerationDraining).setDraining c.classId

/-- A new object in the slot. -/
def placed (a : SlabAllocator) (c : ClassDescriptor) (request : AllocationRequest) (slot : Nat) :
    SlabAllocator :=
  ((a.setBit slot true).setGeneration slot (a.generations slot + 1)).setHeader slot
    { stamp c request (a.generations slot + 1) .allocating with objectState := .allocated }

theorem fillSlot_spec (c : ClassDescriptor) (request : AllocationRequest)
    (hfree : a.state slot = .free) (hbit : a.bitmap slot = false) :
    (∃ status, (a.setBit slot true).fillSlot c request slot = (a.drained c slot, .error status)) ∨
    a.generations slot ≠ kGenerationDraining ∧ (a.setBit slot true).fillSlot c request slot =
      (a.placed c request slot, .ok ((a.placed c request slot).handleOf slot)) := by
  have hfree' : (a.setBit slot true).state slot = .free := hfree
  have hupdate : update a.bitmap slot false = a.bitmap :=
    update_eq_self_iff.mpr hbit.symm
  have hheader : update a.headers slot { a.headers slot with objectState := .free } =
      a.headers := congrArg headers (setState_self hfree)
  unfold fillSlot
  rw [if_neg (not_not.mpr hfree')]
  dsimp only
  split
  · rename_i hdrain
    have hgen : incrementGeneration (a.generations slot) = kGenerationDraining := hdrain
    refine .inl ⟨_, Prod.ext ?_ rfl⟩
    simp only [drained, setBit, setState, setHeader, setGeneration, setDraining,
      update_idem, update_self, hgen, hupdate, hheader]
  · rename_i hdrain
    have hlast : a.generations slot ≠ kGenerationDraining := fun hlast => hdrain (if_pos hlast)
    have hgen : incrementGeneration (a.generations slot) = a.generations slot + 1 := if_neg hlast
    refine .inr ⟨hlast, Prod.ext ?_ ?_⟩
    · simp only [placed, setBit, setState, setHeader, setGeneration, update_idem, update_self, hgen]
    · simp only [placed, handleOf, setBit, setState, setHeader, setGeneration, hgen, update_self]

theorem le_alignedSize (size alignment : Nat) :
    size ≤ (size + (if alignment = 0 then 1 else alignment) - 1) /
      (if alignment = 0 then 1 else alignment) * (if alignment = 0 then 1 else alignment) := by
  have hpos : 0 < if alignment = 0 then 1 else alignment := by split <;> omega
  generalize (if alignment = 0 then 1 else alignment) = align at hpos
  have hdiv := Nat.div_add_mod' (size + align - 1) align
  have hmod := Nat.mod_lt (size + align - 1) hpos
  omega

theorem allocate_spec (h : Inv a) (cache : LocalCache) (request : AllocationRequest) : (∃ status,
    a.allocate cache request = (a, .error status)) ∨ (∃ slot c status, a.state slot = .free ∧
      a.allocate cache request = (a.drained c slot, .error status)) ∨
    ∃ slot c, a.state slot = .free ∧ c ∈ a.geometry.table.classes ∧ c.Holds slot ∧
      request.objectSize ≤ c.slotSize ∧ a.generations slot ≠ kGenerationDraining ∧
      a.allocate cache request =
        (a.placed c request slot, .ok ((a.placed c request slot).handleOf slot)) := by
  have hsize := le_alignedSize request.objectSize request.alignment
  unfold allocate
  dsimp only
  generalize (request.objectSize + (if request.alignment = 0 then 1 else request.alignment) - 1) /
    (if request.alignment = 0 then 1 else request.alignment) * (if request.alignment =
    0 then 1 else request.alignment) = alignedSize at hsize
  generalize (if request.alignment = 0 then 1 else request.alignment) = alignment
  split
  · exact .inl ⟨_, rfl⟩
  split
  · exact .inl ⟨_, rfl⟩
  split
  · exact .inl ⟨_, rfl⟩
  split
  · exact .inl ⟨_, rfl⟩
  rename_i c hclass
  split
  · exact .inl ⟨_, rfl⟩
  split
  · exact .inl ⟨_, rfl⟩
  rename_i slot hclaim
  obtain ⟨hbit, hholds⟩ := claimBit_ok hclaim
  obtain ⟨hmem, -, hfits⟩ := ClassTable.findClass_ok hclass
  have hfree : a.state slot = .free := by
    by_contra hne
    rw [(h.bits slot).mpr hne] at hbit
    cases hbit
  rcases fillSlot_spec c request hfree hbit with
    ⟨status, hdrained⟩ | ⟨hlast, hplaced⟩
  · exact .inr (.inl ⟨slot, c, status, hfree, hdrained⟩)
  · exact .inr (.inr ⟨slot, c, hfree, hmem, hholds, hsize.trans hfits, hlast, hplaced⟩)

theorem Inv.drained (h : Inv a) (hfree : a.state slot = .free) : Inv (a.drained c slot) := by
  refine ⟨h.geometry, h.bits, fun i hi => ?_⟩
  obtain ⟨d, hocc⟩ := h.occupied i hi
  have hne : i ≠ slot := fun heq => hi (heq ▸ hfree)
  exact ⟨d, hocc.mem, hocc.holds, hocc.classId, hocc.generation.trans (update_of_ne hne _ _).symm,
    hocc.capacity, hocc.objectSize, hocc.verified⟩

theorem headers_placed (i : Nat) : (a.placed c request slot).headers i = if i = slot then
    { stamp c request (a.generations slot + 1) .allocating with objectState := .allocated }
    else a.headers i := update_apply ..

theorem generations_placed (c : ClassDescriptor) (request : AllocationRequest) (i : Nat) :
    (a.placed c request slot).generations i =
      if i = slot then a.generations slot + 1 else a.generations i := update_apply ..

theorem bitmap_placed (i : Nat) : (a.placed c request slot).bitmap i =
    if i = slot then true else a.bitmap i := update_apply ..

theorem verify_stamp (c : ClassDescriptor) (request : AllocationRequest) (generation : Nat)
    (st st' : ObjectState) :
    { stamp c request generation st with objectState := st' }.verifyImmutableHeader = true := by
  rw [SlabHeader.verifyImmutableHeader_objectState, SlabHeader.verifyImmutableHeader,
    Bool.and_eq_true, Bool.and_eq_true]
  exact ⟨⟨decide_eq_true rfl, decide_eq_true rfl⟩, decide_eq_true rfl⟩

theorem Inv.placed (h : Inv a) (hmem : c ∈ a.geometry.table.classes) (hholds : c.Holds slot)
    (hfits : request.objectSize ≤ c.slotSize) : Inv (a.placed c request slot) := by
  refine ⟨h.geometry, fun i => ?_, fun i hi => ?_⟩
  · rw [bitmap_placed, state, headers_placed]
    split
    · exact ⟨fun _ hfree => (by cases hfree), fun _ => rfl⟩
    · exact h.bits i
  by_cases heq : i = slot
  · subst heq
    refine ⟨c, hmem, hholds, ?_, ?_, ?_, ?_, ?_⟩
    all_goals rw [headers_placed, if_pos rfl]
    · rfl
    · exact ((generations_placed c request i).trans (if_pos rfl)).symm
    · rfl
    · exact hfits
    · exact verify_stamp ..
  · rw [state, headers_placed, if_neg heq] at hi
    obtain ⟨d, hocc⟩ := h.occupied i hi
    have hheader : (a.placed c request slot).headers i = a.headers i :=
      (headers_placed i).trans (if_neg heq)
    exact ⟨d, hocc.mem, hocc.holds, hheader ▸ hocc.classId,
      hheader ▸ hocc.generation.trans ((generations_placed c request i).trans (if_neg heq)).symm,
      hheader ▸ hocc.capacity, hheader ▸ hocc.objectSize, hheader ▸ hocc.verified⟩

/-! ### Payloads -/

/-- The bytes of the object in a slot, as offsets that handles use. -/
def payload (a : SlabAllocator) (slot : Nat) : Set Nat :=
  Set.Ico (a.geometry.slotOffset slot + kSlabHeaderSize)
    (a.geometry.slotOffset slot + kSlabHeaderSize + (a.headers slot).capacity)

/-- A payload ends before the next slot begins. -/
theorem Inv.payload_end (h : Inv a) (hlive : a.state slot ≠ .free) :
    a.geometry.slotOffset slot + kSlabHeaderSize + (a.headers slot).capacity ≤
      a.geometry.slotOffset (slot + 1) := by
  obtain ⟨c, hocc⟩ := h.occupied slot hlive
  have hsize := h.geometry.table.slotSize_le hocc.mem
  have hstride := h.geometry.stride
  rw [hocc.capacity, slotOffset, slotOffset, Nat.add_one_mul]
  omega

theorem slotOffset_mono (g : SlabGeometry) {i j} (h : i ≤ j) : g.slotOffset i ≤ g.slotOffset j :=
  Nat.add_le_add_left (Nat.add_le_add_left (Nat.mul_le_mul_right _ h) _) _

theorem Inv.payload_disjoint (h : Inv a) {i j} (hi : a.state i ≠ .free)
    (hj : a.state j ≠ .free) (hne : i ≠ j) : Disjoint (a.payload i) (a.payload j) := by
  have key : ∀ {x y : Nat}, x < y → a.state x ≠ .free → Disjoint (a.payload x) (a.payload y) := by
    intro x y hlt hx
    rw [Set.disjoint_left]
    intro o hox hoy
    have hend := h.payload_end hx
    have hmono := slotOffset_mono a.geometry (show x + 1 ≤ y from hlt)
    have := hox.2
    have := hoy.1
    omega
  rcases Nat.lt_or_gt_of_ne hne with hlt | hlt
  · exact key hlt hi
  · exact (key hlt hj).symm

theorem Inv.payload_inside (h : Inv a) (hlive : a.state slot ≠ .free) :
    a.payload slot ⊆ Set.Ico (a.geometry.handleOffsetBias + kSuperblockSize)
      (a.geometry.handleOffsetBias + a.geometry.dataRegionSize) := by
  obtain ⟨c, hocc⟩ := h.occupied slot hlive
  have hslot : slot < a.geometry.table.totalSlots :=
    lt_of_lt_of_le hocc.holds.2 (h.geometry.table.inside c hocc.mem)
  have hend := h.payload_end hlive
  have hlast := slotOffset_mono a.geometry (show slot + 1 ≤ a.geometry.table.totalSlots from hslot)
  have hinside := h.geometry.inside
  have hblock := h.geometry.superblock
  intro o ho
  obtain ⟨hge, hlt⟩ := ho
  have hstart : a.geometry.handleOffsetBias + a.geometry.slotAreaOffset ≤ a.geometry.slotOffset
      slot := Nat.add_le_add_left (Nat.le_add_right _ _) _
  have htotal : a.geometry.slotOffset
      a.geometry.table.totalSlots ≤ a.geometry.handleOffsetBias + a.geometry.dataRegionSize := by
    rw [slotOffset, Nat.mul_comm]
    exact Nat.add_le_add_left hinside _
  exact ⟨by omega, by omega⟩

/-! ### Handles of another generation -/

theorem resolveLocked_error (h : a.resolveLocked handle = .error status) : status.ok = false := by
  unfold resolveLocked at h
  dsimp only at h
  repeat' split at h
  all_goals first | cases h; rfl | cases h

/-- An operation that begins by resolving its handle. -/
theorem Stale.refused (h : Stale a handle) {f : Nat → SlabAllocator × Status} :
    ∃ status, (match a.resolveLocked handle with
      | .error status => (a, status)
      | .ok slot => f slot) = (a, status) ∧ status.ok = false := by
  obtain ⟨status, hr⟩ := h.resolveLocked
  rw [hr]
  exact ⟨status, rfl, resolveLocked_error hr⟩

theorem checkGraph_error {guard prior manifest identity}
    (h : a.checkGraph guard prior identity manifest = .error status) : status.ok = false := by
  induction manifest generalizing prior identity with
  | nil => cases h
  | cons first rest ih =>
    unfold checkGraph at h
    cases hr : a.resolveLocked first with
    | error status' =>
      rw [hr] at h
      split at h
      · cases h
        rfl
      split at h
      · cases h
        rfl
      · cases h
        exact resolveLocked_error hr
    | ok slot =>
      simp only [hr, bind, Except.bind] at h
      repeat' split at h
      all_goals first | exact ih h | cases h; rfl

theorem Stale.checkGraph (h : Stale a handle) (guard : ReclaimGuard) (prior : List ShmHandle)
    (identity : Option GraphIdentity) (hmem : handle ∈ manifest) :
    ∃ status, a.checkGraph guard prior identity manifest = .error status ∧ status.ok = false := by
  cases hcheck : a.checkGraph guard prior identity manifest with
  | error status => exact ⟨status, rfl, checkGraph_error hcheck⟩
  | ok own =>
    exfalso
    induction manifest generalizing prior identity with
    | nil => cases hmem
    | cons first rest ih =>
      simp only [SlabAllocator.checkGraph, unless_eq_ok] at hcheck
      obtain ⟨slot, hr, hcheck⟩ := bind_eq_ok hcheck.2.2
      simp only [unless_eq_ok] at hcheck
      rcases mem_cons.mp hmem with rfl | hrest
      · exact absurd (resolveLocked_ok hr).1 (h slot)
      · exact ih _ _ hrest hcheck.2.2.2.2.2.2

theorem Stale.reclaimPublishedGraph (h : Stale a handle) (guard : ReclaimGuard) (root : ShmHandle)
    (hmem : handle ∈ manifest) :
    ∃ status, a.reclaimPublishedGraph guard root manifest = (a, status) ∧ status.ok = false := by
  unfold SlabAllocator.reclaimPublishedGraph
  split
  · exact ⟨_, rfl, rfl⟩
  obtain ⟨status, hcheck, hok⟩ := h.checkGraph guard [] none hmem
  rw [hcheck]
  exact ⟨status, rfl, hok⟩

/-! ### Manifests with a handle of another generation -/

theorem publishTransactionHandle_stale (h : Stale a handle) (ownerEpoch transactionId role : Nat) :
    (a.publishTransactionHandle ownerEpoch transactionId handle role).2.ok = false := by
  obtain ⟨status, hr⟩ := h.resolveLocked
  rw [publishTransactionHandle, hr]
  exact resolveLocked_error hr

theorem Stale.changes {S} (h : Stale a handle) (hc : Changes S a a') : Stale a' handle :=
  fun i hi => h i (hc.steady.current.mp hi)

section

variable (h : Stale a handle) (hnull : handle.isNull = false) (ownerEpoch transactionId : Nat)
include h hnull

theorem Stale.publishChildren (hmem : handle ∈ handles) :
    (a.publishChildren ownerEpoch transactionId handles).2.ok = false := by
  induction handles generalizing a with
  | nil => cases hmem
  | cons first rest ih =>
    unfold publishChildren
    have hcase := mem_cons.mp hmem
    split
    · rename_i hfirst
      refine ih h (hcase.resolve_left fun heq => ?_)
      rw [← heq, hnull] at hfirst
      cases hfirst
    dsimp only
    split
    · rename_i hok
      refine ih (h.changes (publishTransactionHandle_changes ..))
        (hcase.resolve_left fun heq => ?_)
      rw [← heq, publishTransactionHandle_stale h] at hok
      cases hok
    · rename_i hok
      exact Bool.not_eq_true _ ▸ hok

theorem Stale.publishTransaction (root : ShmHandle) (hmem : handle ∈ handles) :
    (a.publishTransaction ownerEpoch transactionId handles root).2.ok = false := by
  unfold SlabAllocator.publishTransaction
  split
  · rfl
  rename_i hvalid
  simp only [not_or, ne_eq, not_not] at hvalid
  dsimp only
  split
  · rename_i hok
    obtain ⟨rest, rfl⟩ := head?_eq_some_iff.mp hvalid.2.2.2
    rcases mem_cons.mp hmem with rfl | hrest
    · exact publishTransactionHandle_stale (h.changes (publishChildren_changes ..)) ..
    · have hfail := h.publishChildren hnull ownerEpoch transactionId (mem_reverse.mpr hrest)
      exact absurd hok (Bool.eq_false_iff.mp hfail)
  · rename_i hok
    exact Bool.not_eq_true _ ▸ hok

end

end SlabAllocator

/-! ### Sequences of calls -/

inductive SlabCall where
  | allocate (cache : LocalCache) (request : AllocationRequest)
  | beginBuild (handle : ShmHandle)
  | publish (handle : ShmHandle)
  | abort (guard : ReclaimGuard) (handle : ShmHandle)
  | retire (handle : ShmHandle)
  | reclaim (guard : ReclaimGuard) (handle : ShmHandle)
  | publishTransaction (ownerEpoch transactionId : Nat) (handles : List ShmHandle)
      (root : ShmHandle)
  | reclaimTransaction (guard : ReclaimGuard) (ownerEpoch transactionId : Nat)
      (handles : List ShmHandle)
  | reclaimPublishedGraph (guard : ReclaimGuard) (root : ShmHandle) (manifest : List ShmHandle)
  | clearSlotForRecovery (slot : Nat) (expected : ObjectState)
  | clearStaleStateForRecovery (slot : Nat) (expected : ObjectState)

/-- The allocator behind a call, the handle that the call returns and its status. -/
def SlabCall.perform (a : SlabAllocator) : SlabCall → SlabAllocator × Option ShmHandle × Status
  | .allocate cache request =>
    match a.allocate cache request with
    | (a', .ok handle) => (a', some handle, .success)
    | (a', .error status) => (a', none, status)
  | .beginBuild handle => (Prod.map id (none, ·)) (a.beginBuild handle)
  | .publish handle => (Prod.map id (none, ·)) (a.publish handle)
  | .abort guard handle => (Prod.map id (none, ·)) (a.abort guard handle)
  | .retire handle => (Prod.map id (none, ·)) (a.retire handle)
  | .reclaim guard handle => (Prod.map id (none, ·)) (a.reclaim guard handle)
  | .publishTransaction ownerEpoch transactionId handles root =>
    (Prod.map id (none, ·)) (a.publishTransaction ownerEpoch transactionId handles root)
  | .reclaimTransaction guard ownerEpoch transactionId handles =>
    (Prod.map id (none, ·)) (a.reclaimTransaction guard ownerEpoch transactionId handles)
  | .reclaimPublishedGraph guard root manifest =>
    (Prod.map id (none, ·)) (a.reclaimPublishedGraph guard root manifest)
  | .clearSlotForRecovery slot expected =>
    (Prod.map id (none, ·)) (a.clearSlotForRecovery slot expected)
  | .clearStaleStateForRecovery slot expected =>
    (Prod.map id (none, ·)) (a.clearStaleStateForRecovery slot expected)

/-- The allocator with the handles that `allocate` has returned, last first. -/
structure SlabHistory where
  allocator : SlabAllocator
  returned : List ShmHandle

namespace SlabHistory

variable {s : SlabHistory} {geometry : SlabGeometry}

def create (geometry : SlabGeometry) : SlabHistory := ⟨.create geometry, []⟩

def step (s : SlabHistory) (call : SlabCall) : SlabHistory :=
  let (allocator, handle, _) := call.perform s.allocator
  ⟨allocator, handle.toList ++ s.returned⟩

def run (s : SlabHistory) (calls : List SlabCall) : SlabHistory := calls.foldl step s

/-- The offset and the generation of a handle. -/
def key (handle : ShmHandle) : Nat × Nat := (handle.offset, handle.generation)

/-- No handle of a slot is newer than its generation, and occupied slots have theirs. -/
structure Sound (geometry : SlabGeometry) (s : SlabHistory) : Prop where
  same : s.allocator.geometry = geometry
  inv : s.allocator.Inv
  bounded : ∀ slot, s.allocator.generations slot ≤ kGenerationDraining
  past : ∀ handle ∈ s.returned, ∃ slot, handle.offset = s.allocator.geometry.slotOffset slot ∧
    handle.generation ≤ s.allocator.generations slot
  distinct : (s.returned.map key).Nodup
  live : ∀ slot, s.allocator.state slot ≠ .free → s.allocator.handleOf slot ∈ s.returned

theorem Sound.create (h : geometry.Valid) : Sound geometry (create geometry) :=
  ⟨rfl, .create h, fun _ => Nat.zero_le _, nofun, .nil, fun _ hne => absurd rfl hne⟩

theorem Sound.changes {S a'} (h : Sound geometry s)
    (hc : SlabAllocator.Changes S s.allocator a') : Sound geometry ⟨a', s.returned⟩ := by
  have hsteady := hc.steady
  refine ⟨hsteady.geometry.trans h.same, h.inv.changes hc, ?_, ?_, h.distinct, fun slot hlive => ?_⟩
  · simpa only [hsteady.generations] using h.bounded
  · simpa only [hsteady.geometry, hsteady.generations] using h.past
  · have hhandle : a'.handleOf slot = s.allocator.handleOf slot := by
      simp only [handleOf, hsteady.geometry, hsteady.generations]
    exact hhandle ▸ h.live slot (hc.live hlive)

variable {slot : Nat} {c : ClassDescriptor}

/-- A slot that is not free has kept its handle when another slot got a new generation. -/
theorem handleOf_update {a a' : SlabAllocator} {i generation} (hne : i ≠ slot)
    (hgeometry : a'.geometry = a.geometry)
    (hgenerations : a'.generations = update a.generations slot generation) :
    a'.handleOf i = a.handleOf i := by
  rw [handleOf, handleOf, hgeometry, hgenerations, update_of_ne hne]

section

variable (h : Sound geometry s)
include h

/-- Old handles stay behind a generation that grows. -/
theorem Sound.past_update (a' : SlabAllocator) {generation}
    (hgeometry : a'.geometry = s.allocator.geometry)
    (hgenerations : a'.generations = update s.allocator.generations slot generation)
    (hle : s.allocator.generations slot ≤ generation) (handle : ShmHandle)
    (hmem : handle ∈ s.returned) : ∃ slot, handle.offset = a'.geometry.slotOffset slot ∧
      handle.generation ≤ a'.generations slot := by
  obtain ⟨i, hoffset, hgen⟩ := h.past handle hmem
  refine ⟨i, hgeometry ▸ hoffset, ?_⟩
  rw [hgenerations, update_apply]
  split
  · rename_i heq
    exact (heq ▸ hgen).trans hle
  · exact hgen

theorem Sound.drained (hfree : s.allocator.state slot =
    .free) : Sound geometry ⟨s.allocator.drained c slot, s.returned⟩ := by
  refine ⟨h.same, h.inv.drained hfree, fun i => ?_, h.past_update _ rfl rfl (h.bounded slot), h.distinct,
    fun i hlive => ?_⟩
  · change update s.allocator.generations slot kGenerationDraining i ≤ _
    rw [update_apply]
    split
    · exact le_rfl
    · exact h.bounded i
  · have hne : i ≠ slot := fun heq => hlive (heq ▸ hfree)
    have hhandle : (s.allocator.drained c slot).handleOf i = s.allocator.handleOf i :=
      handleOf_update hne rfl rfl
    exact hhandle ▸ h.live i hlive

/-- The handle of a new object has a generation that its slot has not had. -/
theorem Sound.key_notMem (c : ClassDescriptor) (request : AllocationRequest)
    (slot : Nat) : key ((s.allocator.placed c request slot).handleOf slot) ∉ s.returned.map key := by
  intro hmem
  obtain ⟨handle, hmem, hkey⟩ := mem_map.mp hmem
  obtain ⟨i, hoffset, hgen⟩ := h.past handle hmem
  have hslot : i = slot :=
    h.inv.geometry.slotOffset_inj (hoffset.symm.trans (congrArg Prod.fst hkey))
  have hnew : handle.generation = s.allocator.generations slot + 1 :=
    (congrArg Prod.snd hkey).trans ((generations_placed c request slot).trans (if_pos rfl))
  rw [hslot] at hgen
  omega

theorem Sound.placed {request : AllocationRequest}
    (hmem : c ∈ s.allocator.geometry.table.classes) (hholds : c.Holds slot)
    (hfits : request.objectSize ≤ c.slotSize)
    (hlast : s.allocator.generations slot ≠ kGenerationDraining) :
    Sound geometry ⟨s.allocator.placed c request slot,
      (s.allocator.placed c request slot).handleOf slot :: s.returned⟩ := by
  have hbound := h.bounded slot
  refine ⟨h.same, h.inv.placed hmem hholds hfits, fun i => ?_, fun handle hmem => ?_,
    nodup_cons.mpr ⟨h.key_notMem c request slot, h.distinct⟩, fun i hlive => ?_⟩
  · rw [generations_placed]
    split
    · omega
    · exact h.bounded i
  · rcases mem_cons.mp hmem with rfl | hold
    · exact ⟨slot, rfl, le_rfl⟩
    · exact h.past_update (s.allocator.placed c request slot) rfl rfl (Nat.le_succ _) handle hold
  · by_cases heq : i = slot
    · exact heq ▸ mem_cons_self
    · have hhandle : (s.allocator.placed c request slot).handleOf i = s.allocator.handleOf i :=
        handleOf_update heq rfl rfl
      rw [state, headers_placed, if_neg heq] at hlive
      exact mem_cons_of_mem _ (hhandle ▸ h.live i hlive)

theorem Sound.step (call : SlabCall) : Sound geometry (s.step call) := by
  cases call with
  | allocate cache request =>
    unfold SlabHistory.step SlabCall.perform
    rcases allocate_spec h.inv cache request with ⟨status, heq⟩ |
      ⟨slot, c, status, hfree, heq⟩ | ⟨slot, c, hfree, hmem, hholds, hfits, hlast, heq⟩
    all_goals simp only [heq]
    · exact h
    · exact h.drained hfree
    · exact h.placed hmem hholds hfits hlast
  | beginBuild handle => exact h.changes (beginBuild_changes handle)
  | publish handle => exact h.changes (publish_changes handle)
  | abort guard handle => exact h.changes (abort_changes guard handle)
  | retire handle => exact h.changes (retire_changes handle)
  | reclaim guard handle => exact h.changes (reclaim_changes guard handle)
  | publishTransaction ownerEpoch transactionId handles root =>
    exact h.changes (publishTransaction_changes ownerEpoch transactionId handles root)
  | reclaimTransaction guard ownerEpoch transactionId handles =>
    exact h.changes
      (reclaimTransaction_changes guard ownerEpoch transactionId handles)
  | reclaimPublishedGraph guard root manifest =>
    exact h.changes (reclaimPublishedGraph_changes guard root manifest)
  | clearSlotForRecovery slot expected =>
    exact h.changes (clearSlotForRecovery_changes h.inv expected)
  | clearStaleStateForRecovery slot expected =>
    have hsame : (s.allocator.clearStaleStateForRecovery slot expected).1 = s.allocator :=
      clearStaleStateForRecovery_fst h.inv expected
    unfold SlabHistory.step SlabCall.perform
    simp only [Prod.map, hsame]
    exact h

theorem Sound.run (calls : List SlabCall) : Sound geometry (s.run calls) := by
  induction calls generalizing s with
  | nil => exact h
  | cons call rest ih => exact ih (h.step call)

end

end SlabHistory

/-- The calls that take one handle, or a manifest that they check before they change a slot. -/
def SlabCall.Carries (handle : ShmHandle) : SlabCall → Prop
  | .beginBuild h | .publish h | .abort _ h | .retire h | .reclaim _ h => h = handle
  | .reclaimPublishedGraph _ _ manifest => handle ∈ manifest
  | _ => False

/-- The manifest of the calls that go through it handle by handle. -/
def SlabCall.manifest : SlabCall → Option (List ShmHandle)
  | .publishTransaction _ _ handles _ | .reclaimTransaction _ _ _ handles => some handles
  | _ => none

theorem SlabCall.Carries.perform {a : SlabAllocator} (hcall : call.Carries handle)
    (h : a.Stale handle) : (call.perform a).1 = a ∧ (call.perform a).2.2.ok = false := by
  have key : ∀ {r : SlabAllocator × Status}, (∃ status, r = (a, status) ∧ status.ok = false) →
      (Prod.map id (fun status => ((none : Option ShmHandle), status)) r).1 = a ∧
        (Prod.map id (fun status => ((none : Option ShmHandle), status)) r).2.2.ok = false := by
    rintro r ⟨status, rfl, hok⟩
    exact ⟨rfl, hok⟩
  cases call with
  | beginBuild | publish | abort | retire | reclaim =>
    cases hcall
    exact key h.refused
  | reclaimPublishedGraph guard root manifest =>
    exact key (h.reclaimPublishedGraph guard root hcall)
  | allocate | publishTransaction | reclaimTransaction | clearSlotForRecovery
  | clearStaleStateForRecovery => exact hcall.elim

theorem SlabCall.manifest_changes (hcall : call.manifest = some handles) (a : SlabAllocator) :
    SlabAllocator.Changes (SlabAllocator.Listed a handles) a (call.perform a).1 := by
  cases call with
  | publishTransaction ownerEpoch transactionId hs root =>
    cases hcall
    exact publishTransaction_changes ..
  | reclaimTransaction guard ownerEpoch transactionId hs =>
    cases hcall
    exact reclaimTransaction_changes ..
  | allocate | beginBuild | publish | abort | retire | reclaim | reclaimPublishedGraph
  | clearSlotForRecovery | clearStaleStateForRecovery => cases hcall

/-- Behind every sequence of calls, one after another: a bit is set exactly if its slot is not
free; live objects have their returned handles, in the range of their class, with payloads of
their own that are large enough; no handle has been returned twice; and a handle of another
generation is rejected with no change, or skipped in a manifest. -/
theorem slab_run_safe {config : List ClassEntry} {placement : Status} {origin : SlabGeometry.Origin}
    {geometry : SlabGeometry} (hcreate : SlabGeometry.ofOrigin config placement origin =
    .ok geometry) (calls : List SlabCall) :
    let s := (SlabHistory.create geometry).run calls
    let a := s.allocator
    (∀ slot, a.bitmap slot = true ↔ a.state slot ≠ .free) ∧
    (∀ slot, a.state slot ≠ .free → a.handleOf slot ∈ s.returned ∧ (∃ c ∈ geometry.table.classes,
      c.Holds slot ∧ (a.headers slot).classId = c.classId) ∧ a.payload slot ⊆ Set.Ico 0
      origin.size ∧ (a.headers slot).objectSize ≤ (a.headers slot).capacity) ∧
    (∀ i j, a.state i ≠ .free → a.state j ≠ .free → i ≠ j →
      (a.handleOf i).offset ≠ (a.handleOf j).offset ∧ Disjoint (a.payload i) (a.payload j)) ∧
    (s.returned.map SlabHistory.key).Nodup ∧
    (∀ (call : SlabCall) (handle : ShmHandle), call.Carries handle → a.Stale handle →
      (call.perform a).1 = a ∧ (call.perform a).2.2.ok = false) ∧
    (∀ (ownerEpoch transactionId : Nat) (handles : List ShmHandle) (root handle : ShmHandle),
      handle ∈ handles → handle.isNull = false → a.Stale handle →
      (a.publishTransaction ownerEpoch transactionId handles root).2.ok = false) ∧
    (∀ (call : SlabCall) (handles : List ShmHandle), call.manifest = some handles →
      ∀ slot, ¬ a.Listed handles slot → ((call.perform a).1.headers slot = a.headers slot ∧
        (call.perform a).1.bitmap slot = a.bitmap slot) ∧
        (call.perform a).1.generations slot = a.generations slot) := by
  intro s a
  have h : s.Sound geometry := (SlabHistory.Sound.create (.of_origin hcreate)).run calls
  refine ⟨h.inv.bits, fun slot hlive => ?_, fun i j hi hj hne => ?_, h.distinct,
    fun call handle hcall hstale => hcall.perform hstale,
    fun ownerEpoch transactionId handles root handle hmem hnull hstale =>
      hstale.publishTransaction hnull ownerEpoch transactionId root hmem,
    fun call handles hcall slot hnot => ?_⟩
  · obtain ⟨c, hocc⟩ := h.inv.occupied slot hlive
    refine ⟨h.live slot hlive, ⟨c, h.same ▸ hocc.mem, hocc.holds, hocc.classId⟩, fun o ho => ?_,
      hocc.capacity ▸ hocc.objectSize⟩
    have hinside := h.inv.payload_inside hlive ho
    have hsize := SlabGeometry.extent_le_size hcreate
    rw [h.same] at hinside
    exact ⟨Nat.zero_le _, hinside.2.trans_le hsize⟩
  · exact ⟨fun heq => hne (h.inv.geometry.slotOffset_inj heq), h.inv.payload_disjoint hi hj hne⟩
  · have hchanges := SlabCall.manifest_changes hcall a
    exact ⟨hchanges.untouched hnot, congrFun hchanges.steady.generations slot⟩

/-- Two slots of one class. -/
def pairGeometry : SlabGeometry :=
  ⟨⟨[⟨0, 16, 2, 0⟩], 64⟩, 64, 384, 128, 16384, 0, 0⟩

/-- A root and a child of one transaction. -/
def pairCalls : List SlabCall :=
  [.allocate .disabled ⟨16, 1, 1, 1, 8, 1, 1, kAllocationFlagTransactionRoot⟩,
    .allocate .disabled ⟨16, 1, 1, 1, 8, 1, 1, kAllocationFlagTransactionChild⟩]

theorem slab_run_safe_pair :
    SlabGeometry.ofOrigin [⟨16, 2⟩] .success (.alone 64 16384) = .ok pairGeometry ∧
    (((SlabHistory.create pairGeometry).run pairCalls).returned.map SlabHistory.key).Nodup ∧
    ((SlabHistory.create pairGeometry).run pairCalls).returned.length = 2 :=
  have hcreate : SlabGeometry.ofOrigin [⟨16, 2⟩] .success (.alone 64 16384) = .ok pairGeometry := rfl
  ⟨hcreate, (slab_run_safe hcreate pairCalls).2.2.2.1, by decide +kernel⟩

/-- `ReclaimTransaction` passes over the handle of another generation, frees the slot of the
other one and reports success. -/
theorem reclaimTransaction_passes_over :
    let a := ((SlabHistory.create pairGeometry).run pairCalls).allocator
    let call := SlabCall.reclaimTransaction (fun _ => ⟨true, true, true⟩) 1 1
      [a.handleOf 0, ⟨a.geometry.slotOffset 1, 7, 0⟩]
    a.generations 1 = 1 ∧ a.state 0 = .allocated ∧ (call.perform a).2.2.ok = true ∧
      (call.perform a).1.state 0 = .free := by
  decide +kernel

end Mino.Shm
