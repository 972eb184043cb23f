import Mino.Lib.ListPieces
import Mino.Shm.SlabSafety

/-! # What the reclaim calls free

`ReclaimPublishedGraph` checks its whole manifest before the first store, and the handles of a
manifest that passes have slots of their own. So the second loop cannot fail in the middle,
unless the guard takes its word back. `Reclaim` has no such check: for the root of a transaction
it goes through all slots and frees the members one by one. -/

namespace Mino.Shm.SlabAllocator

open List Function Result

variable {a : SlabAllocator} {guard : ReclaimGuard} {handle : ShmHandle} {slot role : Nat}
  {done : List Nat} {identity : GraphIdentity}

/-- The allocator with these slots free and all else as it was. -/
def freed (a : SlabAllocator) (slots : List Nat) : SlabAllocator where
  geometry := a.geometry
  bitmap := fun i => a.bitmap i && i ∉ slots
  generations := a.generations
  headers := fun i => if i ∈ slots then { a.headers i with objectState := .free } else a.headers i
  draining := a.draining

def slotOf (a : SlabAllocator) (handle : ShmHandle) : Nat :=
  (handle.offset - a.geometry.handleOffsetBias - a.geometry.slotAreaOffset) / a.geometry.slotStride

theorem freed_nil (a : SlabAllocator) : a.freed [] = a := by
  simp [freed]

theorem headers_freed (hslot : slot ∉ done) : (a.freed done).headers slot = a.headers slot :=
  if_neg hslot

theorem free_freed (hslot : slot ∈ done) :
    (a.freed done).state slot = .free ∧ (a.freed done).bitmap slot = false := by
  simp [state, freed, hslot]

theorem release_freed (hslot : slot ∉ done) : (a.freed done).release slot = a.freed (slot :: done) := by
  have hbit : ((a.freed done).release slot).bitmap = (a.freed (slot :: done)).bitmap := by
    funext i
    by_cases hi : i = slot <;> simp [release, setBit, setState, setHeader, freed, hi]
  have hheader : ((a.freed done).release slot).headers = (a.freed (slot :: done)).headers := by
    funext i
    by_cases hi : i = slot <;> simp [release, setBit, setState, setHeader, freed, hi, hslot]
  exact congrArg₂ (fun bitmap headers => { a with bitmap, headers }) hbit hheader

/-- A handle resolves to the slot at its offset, also when other slots have been freed. -/
theorem resolveLocked_freed (done : List Nat) (h : a.resolveLocked handle = .ok slot) :
    slot = a.slotOf handle ∧ (slot ∉ done → (a.freed done).resolveLocked handle = .ok slot) := by
  simp only [resolveLocked, unless_eq_ok] at h
  obtain ⟨hnull, hregion, hbias, hrange, haligned, htotal, hbit, hgen, hslot⟩ := h
  cases hslot
  refine ⟨rfl, fun hdone => ?_⟩
  simp only [resolveLocked, unless_eq_ok]
  refine ⟨hnull, hregion, hbias, hrange, haligned, htotal, ?_, ?_, rfl⟩
  · simpa [freed, hdone] using hbit
  · simpa [freed, hdone] using hgen

/-- The guard gives the object free both times `ReclaimSlotExact` asks for it. -/
def Gives (guard : ReclaimGuard) (handle : ShmHandle) : Bool :=
  (guard handle).before && (guard handle).behind

/-- `ReclaimSlotExact` at a live object. -/
theorem reclaimSlotExact_live (guard : ReclaimGuard) (handle : ShmHandle) (allowPublished : Bool)
    (hbit : a.bitmap slot = true) (hgen : a.generations slot = handle.generation)
    (hheader : (a.headers slot).generation = handle.generation) (hfree : a.state slot ≠ .free) (hreclaiming : a.state slot ≠ .reclaiming)
    (hpublished : a.state slot = .published → allowPublished = true) :
    Gives guard handle = true ∧
      a.reclaimSlotExact guard slot handle allowPublished = (a.release slot, .success) ∨
    Gives guard handle = false ∧
      ∃ text, a.reclaimSlotExact guard slot handle allowPublished = (a, .error .wouldBlock text) := by
  unfold reclaimSlotExact Gives
  rw [if_neg (by simp [hbit, hgen, hheader])]
  split
  · contradiction
  · contradiction
  · rw [if_neg (by simpa using hpublished), setState_setState, setState_setState, setState_self rfl]
    cases (guard handle).before with
    | false => exact .inr ⟨rfl, _, rfl⟩
    | true =>
      cases (guard handle).behind with
      | false => exact .inr ⟨rfl, _, rfl⟩
      | true => exact .inl ⟨rfl, rfl⟩

/-! ### Published graphs -/

/-- What the first loop makes sure of for a handle. -/
structure Member (a : SlabAllocator) (guard : ReclaimGuard) (identity : GraphIdentity) (role : Nat)
    (handle : ShmHandle) : Prop where
  resolved : a.resolveLocked handle = .ok (a.slotOf handle)
  verified : (a.headers (a.slotOf handle)).verifyImmutableHeader = true
  role : (a.headers (a.slotOf handle)).allocationRole = role
  identity : GraphIdentity.mk (a.headers (a.slotOf handle)).ownerEpoch
    (a.headers (a.slotOf handle)).allocationTransactionId = identity
  whole : a.state (a.slotOf handle) = .published ∨ a.state (a.slotOf handle) = .retired
  unpinned : (guard handle).ahead = true

theorem Member.slotOf_inj {handle' role'} (h : Member a guard identity role handle)
    (h' : Member a guard identity role' handle') (heq : a.slotOf handle = a.slotOf handle') :
    handle = handle' := by
  obtain ⟨⟨hoffset, hgen⟩, -, -, -, hregion⟩ := resolveLocked_ok h.resolved
  obtain ⟨⟨hoffset', hgen'⟩, -, -, -, hregion'⟩ := resolveLocked_ok h'.resolved
  rw [heq] at hoffset hgen
  cases handle
  cases handle'
  simp_all

/-- One round of the second loop, behind rounds that have freed other slots. -/
theorem Member.reclaimGraph {r} (h : Member a guard identity
      (if r = [] then kAllocationFlagTransactionRoot else kAllocationFlagTransactionChild) handle)
    (hdone : a.slotOf handle ∉ done) :
    Gives guard handle = true ∧ (a.freed done).reclaimGraph guard identity (handle :: r) =
        (a.freed (a.slotOf handle :: done)).reclaimGraph guard identity r ∨
    Gives guard handle = false ∧
      ((a.freed done).reclaimGraph guard identity (handle :: r)).2.ok = false ∧
      ((a.freed done).reclaimGraph guard identity (handle :: r)).1 =
        (a.freed done).setState (a.slotOf handle) .retired := by
  have hr := (resolveLocked_freed done h.resolved).2 hdone
  have hheader : (a.freed done).headers (a.slotOf handle) = a.headers (a.slotOf handle) :=
    headers_freed hdone
  obtain ⟨⟨-, hgen⟩, -, hbit, hstamp, -⟩ := resolveLocked_ok hr
  -- The object is retired by the time its slot is freed.
  have hretire : (a.freed done).retire handle =
      ((a.freed done).setState (a.slotOf handle) .retired, .success) := by
    unfold retire
    rw [hr]
    dsimp only
    rcases h.whole with hst | hst
    · rw [state, hheader, ← state, hst]
    · rw [state, hheader, ← state, hst, setState_self (by rw [state, hheader]; exact hst)]
  obtain ⟨howner, htransaction⟩ := GraphIdentity.mk.inj h.identity
  have hround : (a.freed done).reclaimGraph guard identity (handle :: r) =
      let next := ((a.freed done).setState (a.slotOf handle) .retired).reclaimSlotExact guard
        (a.slotOf handle) handle false
      if next.2.ok then next.1.reclaimGraph guard identity r else next := by
    rw [SlabAllocator.reclaimGraph, hr]
    dsimp only
    rw [hheader, if_neg (by simp [h.verified, h.role, howner, htransaction]), hretire]
    rfl
  have hstate : ((a.freed done).setState (a.slotOf handle) .retired).state (a.slotOf handle) =
      .retired := by
    rw [state, headers_setState, if_pos rfl]
  rw [hround]
  rcases reclaimSlotExact_live (a := (a.freed done).setState (a.slotOf handle) .retired) guard handle
    false hbit hgen (by simpa [headers_setState] using hstamp) (by simp [hstate]) (by simp [hstate])
    (by simp [hstate]) with ⟨hgives, hnext⟩ | ⟨hgives, text, hnext⟩
  · refine .inl ⟨hgives, ?_⟩
    rw [hnext, ← release_freed hdone, release, setState_setState]
    rfl
  · rw [hnext]
    exact .inr ⟨hgives, rfl, rfl⟩

/-- The second loop over children, up to what is left of the manifest. -/
theorem reclaimGraph_children {handles rest} (hrest : rest ≠ [])
    (h : ∀ x ∈ handles, Member a guard identity kAllocationFlagTransactionChild x)
    (hnodup : handles.Nodup) (hdone : ∀ x ∈ handles, a.slotOf x ∉ done) :
    (∀ x ∈ handles, Gives guard x = true) ∧
      (a.freed done).reclaimGraph guard identity (handles ++ rest) =
        (a.freed ((handles.map a.slotOf).reverse ++ done)).reclaimGraph guard identity rest ∨
    (∃ x ∈ handles, Gives guard x = false) ∧
      ((a.freed done).reclaimGraph guard identity (handles ++ rest)).2.ok = false ∧
      ∀ i ∉ done, (∀ x ∈ handles, a.slotOf x ≠ i) →
        ((a.freed done).reclaimGraph guard identity (handles ++ rest)).1.headers i = a.headers i := by
  induction handles generalizing done with
  | nil => exact .inl ⟨nofun, rfl⟩
  | cons first others ih =>
    have hfirst := h first mem_cons_self
    have hrole : Member a guard identity (if others ++ rest = [] then
        kAllocationFlagTransactionRoot else kAllocationFlagTransactionChild) first := by
      rw [if_neg (by simp [hrest])]
      exact hfirst
    rcases hrole.reclaimGraph (hdone first mem_cons_self) with
      ⟨hguard, hround⟩ | ⟨hguard, hfail, hround⟩
    · rw [cons_append, hround]
      have hnew : ∀ x ∈ others, a.slotOf x ∉ a.slotOf first :: done := by
        intro x hx hmem
        rcases mem_cons.mp hmem with heq | hmem
        · have := (h x (mem_cons_of_mem _ hx)).slotOf_inj hfirst heq
          exact (nodup_cons.mp hnodup).1 (this ▸ hx)
        · exact hdone x (mem_cons_of_mem _ hx) hmem
      rcases ih (fun x hx => h x (mem_cons_of_mem _ hx)) (nodup_cons.mp hnodup).2 hnew with
        ⟨hall, hrun⟩ | ⟨⟨x, hx, hno⟩, hfail, hkept⟩
      · refine .inl ⟨forall_mem_cons.mpr ⟨hguard, hall⟩, hrun.trans ?_⟩
        simp
      · refine .inr ⟨⟨x, mem_cons_of_mem _ hx, hno⟩, hfail, fun i hi hother => ?_⟩
        obtain ⟨hne, hothers⟩ := forall_mem_cons.mp hother
        exact hkept i (List.not_mem_cons_of_ne_of_not_mem hne.symm hi) hothers
    · refine .inr ⟨⟨first, mem_cons_self, hguard⟩, hfail, fun i hi hother => ?_⟩
      rw [cons_append, hround, headers_setState, if_neg (hother first mem_cons_self).symm,
        headers_freed hi]

theorem checkGraph_cons {prior rest known}
    (h : a.checkGraph guard prior known (handle :: rest) = .ok identity) :
    handle ∉ prior ∧ ∃ own, Member a guard own
        (if prior = [] then kAllocationFlagTransactionRoot else kAllocationFlagTransactionChild) handle ∧
      (prior ≠ [] → known = some own) ∧
      a.checkGraph guard (prior ++ [handle]) (some (known.getD own)) rest = .ok identity := by
  simp only [checkGraph, unless_eq_ok] at h
  obtain ⟨-, hnew, h⟩ := h
  obtain ⟨slot, hr, h⟩ := bind_eq_ok h
  obtain ⟨rfl, -⟩ := resolveLocked_freed [] hr
  simp only [unless_eq_ok] at h
  obtain ⟨hverify, hrole, -, hown, hst, hguard, h⟩ := h
  simp only [not_or, not_and, not_not, Bool.not_eq_true', Bool.not_eq_false] at hverify hrole hown hst hguard
  exact ⟨hnew, _, ⟨hr, hverify.1, hrole, rfl, or_iff_not_imp_left.mpr hst, hguard⟩, hown, h⟩

theorem checkGraph_children {prior handles own} (hprior : prior ≠ [])
    (h : a.checkGraph guard prior (some own) handles = .ok identity) :
    own = identity ∧ (∀ x ∈ handles, Member a guard own kAllocationFlagTransactionChild x) ∧
      handles.Nodup ∧ ∀ x ∈ handles, x ∉ prior := by
  induction handles generalizing prior with
  | nil =>
    cases h
    exact ⟨rfl, nofun, .nil, nofun⟩
  | cons first rest ih =>
    obtain ⟨hnew, own', hfirst, hsame, h⟩ := checkGraph_cons h
    cases hsame hprior
    rw [if_neg hprior] at hfirst
    obtain ⟨heq, hall, hnodup, hout⟩ := ih (by simp) h
    refine ⟨heq, forall_mem_cons.mpr ⟨hfirst, hall⟩, nodup_cons.mpr ⟨fun hmem => ?_, hnodup⟩,
      forall_mem_cons.mpr ⟨hnew, fun x hx hmem => hout x hx (mem_append_left _ hmem)⟩⟩
    exact hout first hmem (mem_append_right _ (mem_singleton.mpr rfl))

/-- The children are freed, last first, and then the root; the root goes only if every guard
gives its object. -/
theorem reclaimGraph_rooted {root children}
    (hroot : Member a guard identity kAllocationFlagTransactionRoot root)
    (hall : ∀ x ∈ children, Member a guard identity kAllocationFlagTransactionChild x)
    (hnodup : children.Nodup) (hslots : ∀ x ∈ children, a.slotOf x ≠ a.slotOf root) :
    let r := a.reclaimGraph guard identity (root :: children).reverse
    (∀ x ∈ root :: children, Gives guard x = true) ∧
        r = (a.freed ((root :: children).map a.slotOf), .success) ∨
      (∃ x ∈ root :: children, Gives guard x = false) ∧ r.2.ok = false ∧
        (a.state (a.slotOf root) ≠ .free → r.1.state (a.slotOf root) ≠ .free) := by
  intro r
  have hrun := reclaimGraph_children (cons_ne_nil root [])
    (fun x hx => hall x (mem_reverse.mp hx)) (nodup_reverse.mpr hnodup) (fun _ _ => not_mem_nil)
  rw [freed_nil, ← reverse_cons, map_reverse, reverse_reverse, append_nil] at hrun
  have hroot' : a.slotOf root ∉ children.map a.slotOf := by simpa using hslots
  rcases hrun with ⟨hyes, hrun⟩ | ⟨⟨x, hx, hno⟩, hfail, hkept⟩
  · rcases Member.reclaimGraph (r := []) hroot hroot' with ⟨hgives, hlast⟩ | ⟨hno, hfail, hlast⟩
    · refine .inl ⟨forall_mem_cons.mpr ⟨hgives, fun x hx => hyes x (mem_reverse.mpr hx)⟩, ?_⟩
      exact hrun.trans hlast
    · refine .inr ⟨⟨root, mem_cons_self, hno⟩, ?_, fun _ => ?_⟩
      · change (a.reclaimGraph _ _ _).2.ok = false
        rw [hrun]
        exact hfail
      · change (a.reclaimGraph _ _ _).1.state _ ≠ _
        rw [hrun, hlast, state, headers_setState, if_pos rfl]
        exact ObjectState.noConfusion
  · refine .inr ⟨⟨x, mem_cons_of_mem _ (mem_reverse.mp hx), hno⟩, hfail, fun hlive => ?_⟩
    rw [state, hkept _ not_mem_nil fun x hx => hslots x (mem_reverse.mp hx)]
    exact hlive

/-- A graph that fails the checks is left as it is; behind a success exactly the slots of the
manifest are free; a call that has freed the root, with a success or without, has freed all
children; and a guard that keeps its word makes every failure one without a change. -/
theorem reclaimPublishedGraph_whole (a : SlabAllocator) (guard : ReclaimGuard) (root : ShmHandle)
    (manifest : List ShmHandle) :
    let r := a.reclaimPublishedGraph guard root manifest
    (root.isNull ∨ manifest.head? ≠ some root ∨
      (∃ status, a.checkGraph guard [] none manifest = .error status) → r.1 = a) ∧
    (r.2.ok = true → (∀ handle ∈ manifest, a.resolveLocked handle = .ok (a.slotOf handle)) ∧
      (manifest.map a.slotOf).Nodup ∧ r.1 = a.freed (manifest.map a.slotOf)) ∧
    (a.state (a.slotOf root) ≠ .free → r.1.state (a.slotOf root) = .free →
      ∀ handle ∈ manifest, r.1.state (a.slotOf handle) = .free ∧
        r.1.bitmap (a.slotOf handle) = false) ∧
    ((∀ handle ∈ manifest, (guard handle).before = (guard handle).ahead ∧
      (guard handle).behind = (guard handle).ahead) → r.2.ok = false → r.1 = a) := by
  intro r
  by_cases hhead : root.isNull ∨ manifest.head? ≠ some root
  · have hr : r = (a, .error .invalidArgument "published graph manifest is not root-first") :=
      if_pos hhead
    exact hr ▸ ⟨fun _ => rfl, fun hok => absurd hok Bool.false_ne_true,
      fun hlive hfree => absurd hfree hlive, fun _ _ => rfl⟩
  cases hcheck : a.checkGraph guard [] none manifest with
  | error status =>
    have hr : r = (a, status) := by
      change ite _ _ _ = _
      rw [if_neg hhead, hcheck]
    rw [hr]
    refine ⟨fun _ => rfl, fun hok => ?_, fun hlive hfree => absurd hfree hlive, fun _ _ => rfl⟩
    rw [checkGraph_error hcheck] at hok
    cases hok
  | ok identity =>
    have hr : r = a.reclaimGraph guard identity manifest.reverse := by
      change ite _ _ _ = _
      rw [if_neg hhead, hcheck]
    have hfirst := not_not.mp (not_or.mp hhead).2
    obtain ⟨children, rfl⟩ : ∃ children, manifest = root :: children :=
      head?_eq_some_iff.mp hfirst
    obtain ⟨-, own, hroot, -, hrest⟩ := checkGraph_cons hcheck
    rw [Option.getD_none] at hrest
    obtain ⟨rfl, hall, hnodup, hout⟩ := checkGraph_children (by simp) hrest
    have hslots : ∀ x ∈ children, a.slotOf x ≠ a.slotOf root := fun x hx heq =>
      hout x hx (by simp [(hall x hx).slotOf_inj hroot heq])
    have hends := reclaimGraph_rooted hroot hall hnodup hslots
    rw [← hr] at hends
    refine ⟨fun hfail => ?_, fun hok => ?_, fun hlive hfree => ?_, fun hguard hfail => ?_⟩
    · rcases hfail with hnull | hne | ⟨status, herror⟩
      · exact absurd (.inl hnull) hhead
      · exact absurd (.inr hne) hhead
      · cases herror
    · rcases hends with ⟨-, hr⟩ | ⟨-, hbad, -⟩
      · refine ⟨forall_mem_cons.mpr ⟨hroot.resolved, fun x hx => (hall x hx).resolved⟩, ?_,
          congrArg Prod.fst hr⟩
        refine nodup_cons.mpr ⟨by simpa using hslots, List.Nodup.map_on ?_ hnodup⟩
        exact fun x hx y hy heq => (hall x hx).slotOf_inj (hall y hy) heq
      · rw [hbad] at hok
        cases hok
    · rcases hends with ⟨-, hr⟩ | ⟨-, -, hstays⟩
      · intro x hx
        rw [hr]
        exact free_freed (mem_map_of_mem hx)
      · exact absurd hfree (hstays hlive)
    · rcases hends with ⟨-, hr⟩ | ⟨⟨x, hx, hno⟩, -⟩
      · rw [hr] at hfail
        cases hfail
      · have hahead : (guard x).ahead = true :=
          forall_mem_cons (p := fun y => (guard y).ahead = true).mpr
            ⟨hroot.unpinned, fun y hy => (hall y hy).unpinned⟩ x hx
        rw [Gives, (hguard x hx).1, (hguard x hx).2, hahead] at hno
        cases hno

/-! ### Reclaim -/

/-- A live object of the transaction: what `ReclaimTransactionAppendGap` frees. -/
def Stamped (a : SlabAllocator) (ownerEpoch transactionId slot : Nat) : Prop :=
  a.bitmap slot = true ∧ a.state slot ≠ .free ∧ a.state slot ≠ .reclaiming ∧ (a.headers
    slot).ownerEpoch = ownerEpoch ∧ (a.headers slot).allocationTransactionId = transactionId ∧
    (a.headers slot).generation = a.generations slot ∧ (a.headers slot).verifyImmutableHeader = true

def TransactionRoot (a : SlabAllocator) (slot : Nat) : Prop :=
  (a.headers slot).allocationRole.testBit 0 ∧ (a.headers slot).ownerEpoch ≠ 0 ∧
    (a.headers slot).allocationTransactionId ≠ 0

/-- Nothing happens to a published object. -/
def SparesPublished (a a' : SlabAllocator) : Prop :=
  ∀ i, a.state i = .published → a'.headers i = a.headers i ∧ a'.bitmap i = a.bitmap i

instance (ownerEpoch transactionId slot : Nat) : Decidable (a.Stamped ownerEpoch transactionId slot) :=
  inferInstanceAs (Decidable (_ ∧ _))

/-- The live objects of the transaction in slot order. -/
def members (a : SlabAllocator) (ownerEpoch transactionId : Nat) (slots : List Nat) : List Nat :=
  slots.filter (a.Stamped ownerEpoch transactionId ·)

/-- The scan frees the members in slot order up to the first that the guard refuses. -/
theorem reclaimStamped_freed (guard : ReclaimGuard) (ownerEpoch transactionId : Nat) {slots}
    (hnodup : slots.Nodup) (hdone : ∀ i ∈ slots, i ∉ done) :
    let given := fun i => Gives guard (a.handleOf i)
    ((a.freed done).reclaimStamped guard ownerEpoch transactionId slots).1 =
        a.freed (((a.members ownerEpoch transactionId slots).takeWhile given).reverse ++ done) ∧
      ((a.freed done).reclaimStamped guard ownerEpoch transactionId slots).2.ok =
        (a.members ownerEpoch transactionId slots).all given := by
  intro given
  induction slots generalizing done with
  | nil => exact ⟨rfl, rfl⟩
  | cons slot rest ih =>
    obtain ⟨hslot, hrest⟩ := forall_mem_cons.mp hdone
    obtain ⟨hnew, hnodup⟩ := nodup_cons.mp hnodup
    have hheader : (a.freed done).headers slot = a.headers slot := headers_freed hslot
    have hbits : (a.freed done).bitmap slot = a.bitmap slot := by simp [freed, hslot]
    unfold reclaimStamped
    dsimp only
    rw [hheader, hbits]
    by_cases hst : a.Stamped ownerEpoch transactionId slot
    · have hmembers : a.members ownerEpoch transactionId (slot :: rest) =
          slot :: a.members ownerEpoch transactionId rest := filter_cons_of_pos (by simpa using hst)
      obtain ⟨hbit, hfree, hreclaiming, howner, htransaction, hgen, hverify⟩ := hst
      rw [if_neg (by
        rintro (h | h | h | h | h | h | h)
        · rw [hbit] at h
          cases h
        · exact hfree h
        · exact hreclaiming h
        · exact h howner
        · exact h htransaction
        · exact h hgen
        · rw [hverify] at h
          cases h)]
      rcases reclaimSlotExact_live (a := a.freed done) guard (a.handleOf slot) true
        (hbits.trans hbit) rfl (by rw [hheader]; exact hgen) (by rw [state, hheader]; exact hfree)
        (by rw [state, hheader]; exact hreclaiming) (fun _ => rfl) with ⟨hgives, hnext⟩ | ⟨hno, text, hnext⟩
      · change (a.freed done).reclaimSlotExact guard slot ((a.freed done).handleOf slot) true = _ at hnext
        rw [hnext, release_freed hslot, hmembers, takeWhile_cons_of_pos (p := given) hgives, all_cons]
        have hnext' : ∀ i ∈ rest, i ∉ slot :: done := fun i hi => by
          rintro (_ | ⟨_, hmem⟩)
          · exact hnew hi
          · exact hrest i hi hmem
        obtain ⟨hfreed, hok⟩ := ih hnodup hnext'
        refine ⟨?_, ?_⟩
        · simpa using hfreed
        · simpa [given, hgives] using hok
      · change (a.freed done).reclaimSlotExact guard slot ((a.freed done).handleOf slot) true = _ at hnext
        rw [hnext, hmembers, takeWhile_cons_of_neg (by simpa [given] using hno), all_cons]
        refine ⟨rfl, ?_⟩
        simp [given, hno, Status.ok, Status.error]
    · have hmembers : a.members ownerEpoch transactionId (slot :: rest) =
          a.members ownerEpoch transactionId rest := filter_cons_of_neg (by simpa using hst)
      rw [if_pos (by
        by_contra h
        simp only [not_or, not_not, Bool.not_eq_true', Bool.not_eq_false] at h
        exact hst h), hmembers]
      exact ih hnodup hrest

theorem reclaimSlotExact_spares (slot : Nat) (handle : ShmHandle) :
    SparesPublished a (a.reclaimSlotExact guard slot handle false).1 ∧
      ((a.reclaimSlotExact guard slot handle false).2.ok = false →
        (a.reclaimSlotExact guard slot handle false).1 = a) := by
  have hself : SparesPublished a a := fun _ _ => ⟨rfl, rfl⟩
  unfold reclaimSlotExact
  split
  · exact ⟨hself, fun _ => rfl⟩
  split
  · exact ⟨hself, fun _ => rfl⟩
  · exact ⟨hself, fun _ => rfl⟩
  split
  · exact ⟨hself, fun _ => rfl⟩
  rename_i hunpublished
  split
  · exact ⟨hself, fun _ => rfl⟩
  split
  · rw [setState_setState, setState_self rfl]
    exact ⟨hself, fun _ => rfl⟩
  refine ⟨fun i hi => ?_, nofun⟩
  have hne : i ≠ slot := fun heq => hunpublished ⟨heq ▸ hi, rfl⟩
  rw [setState_setState]
  exact ⟨update_of_ne hne _ _, update_of_ne hne _ _⟩

/-- A live object of the transaction that starts at `root`. -/
def Covered (a : SlabAllocator) (root slot : Nat) : Prop :=
  slot < a.geometry.table.totalSlots ∧
    a.Stamped (a.headers root).ownerEpoch (a.headers root).allocationTransactionId slot

/-- `Reclaim` frees no published object, and nothing at all if it fails, exactly if for a root
that the guard gives free each object of the transaction that the scan reaches, with no object
refused up to it, is not published, and none is refused behind it. -/
theorem reclaim_spares_published (a : SlabAllocator) (guard : ReclaimGuard) (handle : ShmHandle) :
    SparesPublished a (a.reclaim guard handle).1 ∧
      ((a.reclaim guard handle).2.ok = false → (a.reclaim guard handle).1 = a) ↔
    ∀ root, a.resolveLocked handle = .ok root → a.TransactionRoot root →
      (guard handle).ahead = true → ∀ i, a.Covered root i →
      (∀ j ≤ i, a.Covered root j → Gives guard (a.handleOf j) = true) →
      a.state i ≠ .published ∧ ∀ j, a.Covered root j → Gives guard (a.handleOf j) = true := by
  have hself : SparesPublished a a := fun _ _ => ⟨rfl, rfl⟩
  unfold reclaim
  split
  · rename_i status hr
    refine iff_of_true ⟨hself, fun _ => rfl⟩ fun root hroot => ?_
    cases hr.symm.trans hroot
  rename_i slot hr
  dsimp only
  split
  · rename_i hroot
    split
    · rename_i hahead
      refine iff_of_true ⟨hself, fun _ => rfl⟩ fun root _ _ hyes => ?_
      rw [hyes] at hahead
      cases hahead
    rename_i hahead
    rw [reclaimTransactionAppendGap, if_neg (not_or.mpr hroot.2)]
    obtain ⟨hfreed, hok⟩ := reclaimStamped_freed (a := a) guard (a.headers slot).ownerEpoch
      (a.headers slot).allocationTransactionId
      (List.nodup_range (n := a.geometry.table.totalSlots)) fun _ _ => not_mem_nil
    rw [freed_nil] at hfreed hok
    rw [hfreed, hok, append_nil]
    have hmem : ∀ i, i ∈ a.members (a.headers slot).ownerEpoch
        (a.headers slot).allocationTransactionId (range a.geometry.table.totalSlots) ↔
        a.Covered slot i := fun i => by simp [members, Covered]
    generalize hall : a.members (a.headers slot).ownerEpoch
      (a.headers slot).allocationTransactionId (range a.geometry.table.totalSlots) = all at hmem ⊢
    have hsorted : all.Pairwise (· < ·) := hall ▸ pairwise_lt_range.filter _
    have hreached : ∀ i, i ∈ (all.takeWhile fun i => Gives guard (a.handleOf i)).reverse ↔
        a.Covered slot i ∧ ∀ j ≤ i, a.Covered slot j → Gives guard (a.handleOf j) = true := by
      intro i
      rw [mem_reverse, hsorted.mem_takeWhile, hmem]
      exact and_congr_right fun _ => ⟨fun h j hle hj => h j ((hmem j).mpr hj) hle,
        fun h j hj hle => h j hle ((hmem j).mp hj)⟩
    generalize (all.takeWhile fun i => Gives guard (a.handleOf i)).reverse = reached at hreached ⊢
    have hchanged : ∀ i ∈ reached, (a.freed reached).bitmap i ≠ a.bitmap i := by
      intro i hi
      have hbit := ((hreached i).mp hi).1.2.1
      simp [freed, hi, hbit]
    constructor
    · rintro ⟨hspares, hsame⟩ root hr' _ _ i hi hfront
      cases hr.symm.trans hr'
      have hmem' := (hreached i).mpr ⟨hi, hfront⟩
      refine ⟨fun hpub => hchanged i hmem' (hspares i hpub).2, fun j hj => ?_⟩
      by_contra hno
      refine hchanged i hmem' (congrFun (congrArg bitmap (hsame ?_)) i)
      exact List.all_eq_false.mpr ⟨j, (hmem j).mpr hj, hno⟩
    · intro h
      have h := h slot hr hroot (by simpa using hahead)
      refine ⟨fun i hi => ?_, fun hfail => ?_⟩
      · have hnot : i ∉ reached := fun hmem' => by
          obtain ⟨hcovered, hfront⟩ := (hreached i).mp hmem'
          exact (h i hcovered hfront).1 hi
        simp [freed, hnot]
      · obtain ⟨j, hj, hno⟩ := List.all_eq_false.mp hfail
        have hnil : reached = [] := by
          refine eq_nil_iff_forall_not_mem.mpr fun i hi => hno ?_
          obtain ⟨hcovered, hfront⟩ := (hreached i).mp hi
          exact (h i hcovered hfront).2 j ((hmem j).mp hj)
        rw [hnil, freed_nil]
  · rename_i hroot
    refine iff_of_true (reclaimSlotExact_spares slot handle) fun root hr' hroot' => ?_
    cases hr.symm.trans hr'
    exact absurd hroot' hroot

/-- Root and child of a transaction that is not published are both freed. -/
theorem reclaim_spares_published_pair :
    let a := ((SlabHistory.create pairGeometry).run pairCalls).allocator
    let r := a.reclaim (fun _ => ⟨true, true, true⟩) ⟨384, 1, 0⟩
    r.1.bitmap 0 = false ∧ r.1.bitmap 1 = false ∧ SparesPublished a r.1 ∧
      (r.2.ok = false → r.1 = a) := by
  intro a r
  refine ⟨by decide +kernel, by decide +kernel,
    (reclaim_spares_published a _ _).mpr fun root _ _ _ i hi _ => ⟨?_, fun _ _ => rfl⟩⟩
  have hunpublished : ∀ i < a.geometry.table.totalSlots, a.state i ≠ .published := by decide +kernel
  exact hunpublished i hi.1

/-- The root of a transaction is published, its child is pinned. `Reclaim` frees the root, comes
to the child and reports that it would block. -/
theorem reclaim_frees_published_root :
    let a := ((SlabHistory.create pairGeometry).run
      (pairCalls ++ [.beginBuild ⟨384, 1, 0⟩, .publish ⟨384, 1, 0⟩])).allocator
    let unpinned := fun handle : ShmHandle => decide (handle.offset = 384)
    let r := a.reclaim (fun handle => ⟨unpinned handle, unpinned handle, unpinned handle⟩) ⟨384, 1, 0⟩
    a.state 0 = .published ∧ r.2.code = .wouldBlock ∧ r.1.state 0 = .free ∧ r.1.bitmap 0 = false := by
  decide +kernel

end Mino.Shm.SlabAllocator
