import Mino.Shm.SlabAllocator

/-! # Runs of the slab allocator

Behind every call a slot is occupied exactly if its bit is set. All calls but `allocate` do
one of two things to a slot, again and again: they move an occupied slot to another state
that is not free, or they free it. -/

namespace Mino.Shm.SlabAllocator

open List Function Relation

variable {a a' : SlabAllocator} {slot : Nat}

@[simp] theorem geometry_setBit (value : Bool) : (a.setBit slot value).geometry = a.geometry := rfl
variable (guard : ReclaimGuard) (ownerEpoch transactionId : Nat) (handles : List ShmHandle)
  (st : ObjectState)

@[simp] theorem geometry_setState : (a.setState slot st).geometry = a.geometry :=
  rfl
@[simp] theorem bitmap_setState : (a.setState slot st).bitmap = a.bitmap := rfl
@[simp] theorem headers_setBit (value : Bool) : (a.setBit slot value).headers = a.headers := rfl

@[simp] theorem setState_setState (st' : ObjectState) :
    (a.setState slot st).setState slot st' = a.setState slot st' := by
  simp [setState, setHeader]

theorem headers_setState (j : Nat) : (a.setState slot st).headers j =
    if j = slot then { a.headers slot with objectState := st } else a.headers j := by
  simp [setState, setHeader, update_apply]

theorem setState_self {st} (h : a.state slot = st) : a.setState slot st = a := by
  subst h
  simp [setState, setHeader, state]

def release (a : SlabAllocator) (slot : Nat) : SlabAllocator :=
  (a.setState slot .free).setBit slot false

/-- What a call may do to an occupied slot. -/
inductive Change (a : SlabAllocator) (slot : Nat) : SlabAllocator → Prop
  | move (st : ObjectState) (hlive : a.state slot ≠ .free) (hst : st ≠ .free) :
      Change a slot (a.setState slot st)
  | release (hlive : a.state slot ≠ .free) : Change a slot (a.release slot)

/-- A number of changes, each to a slot that `S` allows. -/
def Changes (S : Nat → Prop) : SlabAllocator → SlabAllocator → Prop :=
  ReflTransGen fun x y => ∃ slot, S slot ∧ Change x slot y

theorem Changes.refl (S : Nat → Prop) (a : SlabAllocator) : Changes S a a :=
  ReflTransGen.refl

variable {S : Nat → Prop} {handle : ShmHandle} {rest : List ShmHandle} {i : Nat}

theorem Changes.one (hS : S slot) (h : Change a slot a') : Changes S a a' :=
  .single ⟨slot, hS, h⟩

theorem Changes.mono {T} (h : Changes S a a') (hST : ∀ i, S i → T i) : Changes T a a' :=
  ReflTransGen.mono (fun _ _ ⟨slot, hS, hc⟩ => ⟨slot, hST slot hS, hc⟩) _ _ h

/-- What no change touches. -/
structure Steady (a a' : SlabAllocator) : Prop where
  geometry : a'.geometry = a.geometry
  generations : a'.generations = a.generations
  stamps : ∀ i, { a'.headers i with objectState := .free } =
    { a.headers i with objectState := .free }

theorem Change.steady (h : Change a slot a') : Steady a a' := by
  cases h with
  | move st hlive hst =>
    refine ⟨rfl, rfl, fun i => ?_⟩
    rw [headers_setState]
    split
    · rename_i heq
      rw [heq]
    · rfl
  | release hlive =>
    refine ⟨rfl, rfl, fun i => ?_⟩
    change { (a.setState slot .free).headers i with objectState := .free } = _
    rw [headers_setState]
    split
    · rename_i heq
      rw [heq]
    · rfl

theorem Changes.steady (h : Changes S a a') : Steady a a' := by
  induction h with
  | refl => exact ⟨rfl, rfl, fun _ => rfl⟩
  | tail _ hstep ih =>
    obtain ⟨_, _, hchange⟩ := hstep
    have hs := hchange.steady
    exact ⟨hs.geometry.trans ih.geometry, hs.generations.trans ih.generations,
      fun i => (hs.stamps i).trans (ih.stamps i)⟩

/-- Slots that are not allowed keep header and bit. -/
theorem Changes.untouched (h : Changes S a a') (hi : ¬ S i) :
    a'.headers i = a.headers i ∧ a'.bitmap i = a.bitmap i := by
  induction h with
  | refl => exact ⟨rfl, rfl⟩
  | tail _ hstep ih =>
    obtain ⟨slot, hS, hchange⟩ := hstep
    have hne : i ≠ slot := fun heq => hi (heq ▸ hS)
    cases hchange with
    | move st _ _ =>
      rw [headers_setState, if_neg hne]
      exact ih
    | release _ =>
      refine ⟨?_, ?_⟩
      · change ((SlabAllocator.setState _ slot .free).headers i) = _
        rw [headers_setState, if_neg hne]
        exact ih.1
      · exact (update_of_ne hne _ _).trans ih.2

/-! ### The invariant -/

/-- An occupied slot has a header for an object of the class that the slot belongs to. -/
structure Occupied (a : SlabAllocator) (slot : Nat) (c : ClassDescriptor) : Prop where
  mem : c ∈ a.geometry.table.classes
  holds : c.Holds slot
  classId : (a.headers slot).classId = c.classId
  generation : (a.headers slot).generation = a.generations slot
  capacity : (a.headers slot).capacity = c.slotSize
  objectSize : (a.headers slot).objectSize ≤ c.slotSize
  verified : (a.headers slot).verifyImmutableHeader = true

structure Inv (a : SlabAllocator) : Prop where
  geometry : a.geometry.Valid
  bits : ∀ slot, a.bitmap slot = true ↔ a.state slot ≠ .free
  occupied : ∀ slot, a.state slot ≠ .free → ∃ c, Occupied a slot c

theorem Inv.create {geometry} (h : geometry.Valid) : Inv (SlabAllocator.create geometry) :=
  ⟨h, fun _ => ⟨nofun, fun hne => absurd rfl hne⟩, fun _ hne => absurd rfl hne⟩

theorem Occupied.of_stamps {c} (h : Occupied a slot c) (hs : Steady a a') : Occupied a' slot c := by
  have hstamp := hs.stamps slot
  have hfield : ∀ {α : Type} (f : SlabHeader → α), (∀ (x : SlabHeader) (st : ObjectState), f { x
      with objectState := st } = f x) → f (a'.headers slot) = f (a.headers slot) := fun f hf => by
    rw [← hf (a'.headers slot) .free, hstamp, hf]
  exact ⟨hs.geometry ▸ h.mem, h.holds, (hfield (·.classId) fun _ _ => rfl).trans h.classId,
    (hfield (·.generation) fun _ _ => rfl).trans (h.generation.trans (congrFun hs.generations slot).symm),
    (hfield (·.capacity) fun _ _ => rfl).trans h.capacity,
    (Nat.le_of_eq (hfield (·.objectSize) fun _ _ => rfl)).trans h.objectSize,
    (hfield (·.verifyImmutableHeader) fun _ _ => rfl).trans h.verified⟩

theorem Change.live (hc : Change a slot a') (hi : a'.state i ≠ .free) : a.state i ≠ .free := by
  cases hc with
  | move st hlive hst =>
    rw [state, headers_setState] at hi
    split at hi
    · rename_i heq
      exact heq ▸ hlive
    · exact hi
  | release hlive =>
    change ((a.setState slot .free).headers i).objectState ≠ .free at hi
    rw [headers_setState] at hi
    split at hi
    · exact absurd rfl hi
    · exact hi

/-- Slots that are occupied behind changes were occupied before. -/
theorem Changes.live (h : Changes S a a') (hi : a'.state i ≠ .free) : a.state i ≠ .free := by
  induction h with
  | refl => exact hi
  | tail _ hstep ih =>
    obtain ⟨_, _, hchange⟩ := hstep
    exact ih (hchange.live hi)

theorem Inv.change (h : Inv a) (hc : Change a slot a') : Inv a' := by
  have hsteady := hc.steady
  refine ⟨hsteady.geometry ▸ h.geometry, fun i => ?_, fun i hi => ?_⟩
  · cases hc with
    | move st hlive hst =>
      rw [bitmap_setState, state, headers_setState]
      split
      · rename_i heq
        rw [heq]
        exact ⟨fun _ => hst, fun _ => (h.bits slot).mpr hlive⟩
      · exact h.bits i
    | release hlive =>
      change update a.bitmap slot false i = true ↔
        ((a.setState slot .free).headers i).objectState ≠ .free
      rw [headers_setState, update_apply]
      split
      · exact ⟨nofun, fun hne => absurd rfl hne⟩
      · exact h.bits i
  · obtain ⟨c, hocc⟩ := h.occupied i (hc.live hi)
    exact ⟨c, hocc.of_stamps hsteady⟩

theorem Inv.changes (h : Inv a) (hc : Changes S a a') : Inv a' := by
  induction hc with
  | refl => exact h
  | tail _ hstep ih =>
    obtain ⟨_, _, hchange⟩ := hstep
    exact ih.change hchange

/-! ### Handles -/

/-- The handle names the slot, in its present generation. -/
def Current (a : SlabAllocator) (handle : ShmHandle) (slot : Nat) : Prop :=
  a.geometry.slotOffset slot = handle.offset ∧ a.generations slot = handle.generation

theorem Steady.current (h : Steady a a') : Current a' handle slot ↔ Current a handle slot := by
  rw [Current, Current, h.geometry, h.generations]

theorem resolveLocked_ok (h : a.resolveLocked handle = .ok slot) :
    Current a handle slot ∧ slot < a.geometry.table.totalSlots ∧ a.bitmap slot = true ∧
      (a.headers slot).generation = handle.generation ∧ handle.regionId = a.geometry.regionId := by
  simp only [resolveLocked, Result.unless_eq_ok] at h
  obtain ⟨-, hregion, hbias, -, haligned, hrange, hbit, hgen, h⟩ := h
  cases h
  simp only [not_or, not_not, Nat.not_lt] at haligned hgen hrange
  have hmul := Nat.div_mul_cancel (Nat.dvd_of_mod_eq_zero haligned.2)
  refine ⟨⟨?_, hgen.1⟩, Nat.lt_of_not_le hrange.1, by simpa using hbit, hgen.2, not_not.mp hregion⟩
  unfold SlabGeometry.slotOffset
  omega

/-- The handle names no slot in its present generation. -/
def Stale (a : SlabAllocator) (handle : ShmHandle) : Prop := ∀ slot, ¬ Current a handle slot

theorem Stale.resolveLocked (h : Stale a handle) :
    ∃ status, a.resolveLocked handle = .error status := by
  cases hr : a.resolveLocked handle with
  | error status => exact ⟨status, rfl⟩
  | ok slot => exact absurd (resolveLocked_ok hr).1 (h slot)

/-! ### What the calls change -/

theorem reclaimSlotExact_changes (handle : ShmHandle) (allowPublished : Bool) (hS : S slot) :
    Changes S a (a.reclaimSlotExact guard slot handle allowPublished).1 := by
  unfold reclaimSlotExact
  split
  · exact .refl S a
  split
  · exact .refl S a
  · exact .refl S a
  rename_i _ hnotFree
  have hlive : a.state slot ≠ .free := hnotFree
  split
  · exact .refl S a
  split
  · exact .refl S a
  split
  · rw [setState_setState, setState_self rfl]
    exact .refl S a
  · rw [setState_setState]
    exact .one hS (.release hlive)

theorem setState_changes {st} (hS : S slot) (hlive : a.state slot ≠ .free)
    (hst : st ≠ .free) : Changes S a (a.setState slot st) :=
  .one hS (.move st hlive hst)

theorem beginBuild_changes (handle : ShmHandle) :
    Changes (Current a handle) a (a.beginBuild handle).1 := by
  unfold beginBuild
  split
  · exact .refl _ a
  rename_i slot hr
  split
  · exact .refl _ a
  split
  · exact .refl _ a
  · rename_i hst
    exact setState_changes (resolveLocked_ok hr).1 (by rw [not_not.mp hst]; nofun) nofun

theorem publish_changes (handle : ShmHandle) : Changes (Current a handle) a (a.publish handle).1 := by
  unfold publish
  split
  · exact .refl _ a
  rename_i slot hr
  split
  · exact .refl _ a
  split
  · exact .refl _ a
  · rename_i hst
    exact setState_changes (resolveLocked_ok hr).1 (by rw [not_not.mp hst]; nofun) nofun

theorem retire_changes (handle : ShmHandle) : Changes (Current a handle) a (a.retire handle).1 := by
  unfold retire
  split
  · exact .refl _ a
  rename_i slot hr
  have hcur := (resolveLocked_ok hr).1
  split <;> rename_i hst
  · exact .refl _ a
  · exact setState_changes hcur (by rw [hst]; nofun) nofun
  · exact setState_changes hcur (by rw [hst]; nofun) nofun
  · exact setState_changes hcur (by rw [hst]; nofun) nofun
  · exact .refl _ a

theorem reclaimStamped_changes (slots : List Nat) :
    Changes (fun _ => True) a (a.reclaimStamped guard ownerEpoch transactionId slots).1 := by
  induction slots generalizing a with
  | nil => exact .refl _ a
  | cons slot rest ih =>
    unfold reclaimStamped
    dsimp only
    split
    · exact ih
    have hone : Changes (fun _ => True) a
        (a.reclaimSlotExact guard slot (a.handleOf slot) true).1 :=
      reclaimSlotExact_changes guard (a.handleOf slot) true trivial
    split
    · exact ReflTransGen.trans hone ih
    · exact hone

theorem reclaim_changes (handle : ShmHandle) :
    Changes (fun _ => True) a (a.reclaim guard handle).1 := by
  unfold reclaim
  split
  · exact .refl _ a
  dsimp only
  split
  · split
    · exact .refl _ a
    · unfold reclaimTransactionAppendGap
      split
      · exact .refl _ a
      · exact reclaimStamped_changes ..
  · exact reclaimSlotExact_changes guard handle false trivial

theorem abort_changes (handle : ShmHandle) :
    Changes (fun _ => True) a (a.abort guard handle).1 := by
  unfold abort
  split
  · exact .refl _ a
  rename_i slot hr
  have habort : a.state slot ≠ .free →
      Changes (fun _ => True) a ((a.setState slot .aborting).reclaim guard handle).1 :=
    fun hlive => ReflTransGen.trans (setState_changes trivial hlive
      (by decide)) (reclaim_changes guard handle)
  split <;> rename_i hst
  · exact reclaim_changes guard handle
  · exact habort (by rw [hst]; decide)
  · exact habort (by rw [hst]; decide)
  · exact .refl _ a

/-- A slot that one of the handles names in its present generation. -/
def Listed (a : SlabAllocator) (handles : List ShmHandle) (slot : Nat) : Prop :=
  ∃ handle ∈ handles, Current a handle slot

theorem Listed.of_cons (h : Listed a rest slot) : Listed a (handle :: rest) slot := by
  obtain ⟨x, hx, hcur⟩ := h
  exact ⟨x, mem_cons_of_mem _ hx, hcur⟩

/-- The rest of a manifest, behind changes for its first handle. -/
theorem Changes.then {a''}
    (h : Changes (Listed a (handle :: rest)) a a') (h' : Changes (Listed a' rest) a' a'') :
    Changes (Listed a (handle :: rest)) a a'' := by
  refine ReflTransGen.trans h (h'.mono fun i hi => ?_)
  obtain ⟨x, hx, hcur⟩ := hi
  exact ⟨x, mem_cons_of_mem _ hx, h.steady.current.mp hcur⟩

theorem Changes.listed {handles} (h : Changes (Current a handle) a a') (hmem : handle ∈ handles) :
    Changes (Listed a handles) a a' := h.mono fun _ hi => ⟨handle, hmem, hi⟩

theorem publishTransactionHandle_changes (handle : ShmHandle) (role : Nat) :
    Changes (Current a handle) a
      (a.publishTransactionHandle ownerEpoch transactionId handle role).1 := by
  unfold publishTransactionHandle
  split
  · exact .refl _ a
  rename_i slot hr
  dsimp only
  split
  · exact .refl _ a
  split
  · exact .refl _ a
  split
  · exact .refl _ a
  rename_i hst
  refine setState_changes (resolveLocked_ok hr).1 (fun hfree => ?_) nofun
  rw [state, not_not.mp hst] at hfree
  cases hfree

theorem publishChildren_changes :
    Changes (Listed a handles) a (a.publishChildren ownerEpoch transactionId handles).1 := by
  induction handles generalizing a with
  | nil => exact .refl _ a
  | cons handle rest ih =>
    unfold publishChildren
    split
    · exact ih.mono fun _ => Listed.of_cons
    have hone := (publishTransactionHandle_changes (a := a) ownerEpoch transactionId handle
      kAllocationFlagTransactionChild).listed (mem_cons_self (l := rest))
    dsimp only
    split
    · exact hone.then ih
    · exact hone

variable (root : ShmHandle)

theorem publishTransaction_changes : Changes (Listed a handles) a
    (a.publishTransaction ownerEpoch transactionId handles root).1 := by
  unfold publishTransaction
  split
  · exact .refl _ a
  rename_i hvalid
  simp only [not_or, ne_eq, not_not] at hvalid
  have hroot : root ∈ handles := mem_of_head? hvalid.2.2.2
  have hchildren : Changes (Listed a handles) a
      (a.publishChildren ownerEpoch transactionId handles.tail.reverse).1 :=
    (publishChildren_changes ownerEpoch transactionId _).mono fun i ⟨x, hx, hcur⟩ =>
      ⟨x, mem_of_mem_tail (mem_reverse.mp hx), hcur⟩
  dsimp only
  split
  · refine ReflTransGen.trans hchildren
      ((publishTransactionHandle_changes ownerEpoch transactionId root _).mono fun i hi => ?_)
    exact ⟨root, hroot, hchildren.steady.current.mp hi⟩
  · exact hchildren

theorem reclaimManifest_changes : Changes (Listed a handles) a
    (a.reclaimManifest guard ownerEpoch transactionId handles).1 := by
  induction handles generalizing a with
  | nil => exact .refl _ a
  | cons handle rest ih =>
    unfold reclaimManifest
    split
    · exact ih.mono fun _ => Listed.of_cons
    split
    · split
      · exact ih.mono fun _ => Listed.of_cons
      · exact .refl _ a
    rename_i slot hr
    dsimp only
    split
    · exact .refl _ a
    have hone := reclaimSlotExact_changes (S := Listed a (handle :: rest))
      (a := a) guard handle true ⟨handle, mem_cons_self, (resolveLocked_ok hr).1⟩
    split
    · exact hone.then ih
    · exact hone

theorem reclaimTransaction_changes : Changes (Listed a handles) a
    (a.reclaimTransaction guard ownerEpoch transactionId handles).1 := by
  unfold reclaimTransaction
  split
  · exact .refl _ a
  · exact (reclaimManifest_changes guard ownerEpoch transactionId _).mono fun i ⟨x, hx, hcur⟩ =>
      ⟨x, mem_reverse.mp hx, hcur⟩

theorem reclaimGraph_changes (identity : GraphIdentity) (handles : List ShmHandle) :
    Changes (Listed a handles) a (a.reclaimGraph guard identity handles).1 := by
  induction handles generalizing a with
  | nil => exact .refl _ a
  | cons handle rest ih =>
    unfold reclaimGraph
    split
    · exact .refl _ a
    rename_i slot hr
    dsimp only
    generalize (if rest = [] then kAllocationFlagTransactionRoot
      else kAllocationFlagTransactionChild) = role
    split
    · exact .refl _ a
    have hretire := (retire_changes (a := a) handle).listed (mem_cons_self (l := rest))
    split
    · have hone : Changes (Listed a (handle :: rest)) a
          ((a.retire handle).1.reclaimSlotExact guard slot handle false).1 :=
        ReflTransGen.trans hretire (reclaimSlotExact_changes guard handle false
          ⟨handle, mem_cons_self, (resolveLocked_ok hr).1⟩)
      split
      · exact hone.then ih
      · exact hone
    · exact hretire

theorem reclaimPublishedGraph_changes (manifest : List ShmHandle) :
    Changes (Listed a manifest) a (a.reclaimPublishedGraph guard root manifest).1 := by
  unfold reclaimPublishedGraph
  split
  · exact .refl _ a
  split
  · exact .refl _ a
  · exact (reclaimGraph_changes guard _ _).mono fun i ⟨x, hx, hcur⟩ =>
      ⟨x, mem_reverse.mp hx, hcur⟩

theorem clearSlotForRecovery_changes (h : Inv a) (expected : ObjectState) :
    Changes (· = slot) a (a.clearSlotForRecovery slot expected).1 := by
  unfold clearSlotForRecovery
  split
  · exact .refl _ a
  split
  · exact .refl _ a
  rename_i hbit
  split
  · exact .refl _ a
  · rw [setState_setState]
    exact .one rfl (.release ((h.bits slot).mp (by simpa using hbit)))

/-- A slot whose bit is clear is free already. -/
theorem clearStaleStateForRecovery_fst (h : Inv a) (expected : ObjectState) :
    (a.clearStaleStateForRecovery slot expected).1 = a := by
  unfold clearStaleStateForRecovery
  split
  · rfl
  split
  · rfl
  rename_i hbit
  have hfree : a.state slot = .free := not_not.mp fun hne => hbit ((h.bits slot).mpr hne)
  split
  · exact setState_self hfree
  · rfl

end Mino.Shm.SlabAllocator
