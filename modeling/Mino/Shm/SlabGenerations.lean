import Mino.Shm.SlabOwnership

/-! # Runs of the slab allocator in which no slot is allocated behind a check -/

namespace Mino.Shm.SlabSystem

open Function SlotWords SlabPhase

variable {total : Nat} {s s' : SlabSystem}

/-- No process allocates a slot on which another is past its check. -/
def Apart (s : SlabSystem) : Prop :=
  ∀ p q i, (s.phases p).allocates = some i → (s.phases q).checked? ≠ some i

/-- The object of the generation has left the slot for good. -/
def Gone (s : SlabSystem) (slot generation : Nat) : Prop :=
  generation < (s.words slot).generation ∨
    (generation = (s.words slot).generation ∧ Vacant (s.words slot) ∧
      ∀ p, (s.phases p).stamping ≠ some slot)

/-- The root of a scan is there, and the scan has not come to it. -/
structure Ahead (s : SlabSystem) (f : SlabScan) : Prop where
  before : f.slot ≤ f.task.slot
  same : (s.words f.task.slot).generation = f.task.generation
  present : ¬ Vacant (s.words f.task.slot)
  ownerEpoch : (s.words f.task.slot).header.ownerEpoch = f.ownerEpoch
  transactionId : (s.words f.task.slot).header.allocationTransactionId = f.transactionId

def Pending (s : SlabSystem) (f : SlabScan) : Prop :=
  Gone s f.task.slot f.task.generation ∨ Ahead s f

/-- What is known of the operation that a process is in, or has left. -/
structure Story (total : Nat) (s : SlabSystem) (φ : SlabPhase) : Prop where
  inRange : ∀ t, φ.task? = some t → t.slot < total
  swapOp : φ.SwapOp
  linked : φ.Linked
  scan : ∀ f, φ.scan? = some f → Pending s f
  read : ∀ f g, φ.scan? = some f → φ.scanRead? = some g →
    Gone s f.task.slot f.task.generation ∨ f.slot ≠ f.task.slot ∨ g = f.task.generation
  done : ∀ t, φ = .returned t true → t.op = .reclaim ∨ t.op = .abortReclaim →
    Gone s t.slot t.generation

structure Inv (total : Nat) (s : SlabSystem) : Prop where
  apart : Apart s
  allocators : ∀ p q i, (s.phases p).allocates = some i → (s.phases q).allocates = some i → p = q
  reclaimers : ∀ p q i, (s.phases p).reclaims = some i → (s.phases q).reclaims = some i → p = q
  bits : ∀ i, (s.words i).bit = false → (s.words i).state = .free
  filled : ∀ i, (s.words i).state = .allocating → ∃ p, (s.phases p).allocates = some i
  stamped : ∀ i, ¬ Vacant (s.words i) → Stamped (s.words i)
  own : ∀ p i, (s.phases p).target = some i → Local (s.words i) (s.phases p)
  story : ∀ p, Story total s (s.phases p)

theorem Story.of_idle (s : SlabSystem) : Story total s .idle :=
  ⟨nofun, swapOp_of_ne nofun nofun, linked_of_none rfl, nofun, nofun, nofun⟩

theorem Inv.zero : Inv total zero where
  apart := nofun
  allocators := nofun
  reclaimers := nofun
  bits := fun _ _ => rfl
  filled := nofun
  stamped := fun _ hv => absurd (.inl rfl) hv
  own := nofun
  story := fun _ => .of_idle _

variable {φ ψ : SlabPhase} {f : SlabScan} {i : Nat}

theorem target_of_allocates (h : φ.allocates = some i) : φ.target = some i := by
  cases φ <;> first | exact h | cases h

theorem target_of_checked (h : φ.checked? = some i) : φ.target = some i := by
  cases φ with
  | checking k x =>
    cases x with
    | recheck => cases k <;> exact h
    | resolve | exact => cases k <;> first | exact h | cases h
  | _ => first | exact h | cases h

theorem inside_or_claim (h : φ.target = some i) :
    φ.inside = some i ∨ ∃ c request, φ = .claim c request i := by
  cases φ with
  | claim c request slot =>
    cases h
    exact .inr ⟨c, request, rfl⟩
  | _ => exact .inl h

theorem target_of_atRest (h : φ.AtRest = true) : φ.target = none := by
  cases φ <;> first | rfl | cases h

theorem target_of_readsState (h : φ.readsState = some i) : φ.target = some i := by
  cases φ <;> first | exact h | cases h

theorem exactOf_of_scanRead? {g} (h : φ.scanRead? = some g) : φ.exactOf = none := by
  cases φ <;> first | rfl | cases h

theorem Inv.not_stamping (h : Inv total s) (hv : ¬ Vacant (s.words i)) (p : Nat) :
    (s.phases p).stamping ≠ some i := by
  intro hst
  have ha := allocates_of_stamping hst
  exact hv ((h.own p i (target_of_allocates ha)).of_allocates ha).2

/-- The slot of an operation past its check is not being allocated. -/
theorem Inv.not_allocating {p} (h : Inv total s) (hc : (s.phases p).checked? = some i) :
    (s.words i).state ≠ .allocating := by
  intro hst
  obtain ⟨q, hq⟩ := h.filled i hst
  exact h.apart q p i hq hc

/-! ### The beginning of an operation -/

theorem Gone.setPhase {i g p} (h : Gone s i g) (hφ : φ.stamping = none) :
    Gone (s.setPhase p φ) i g := by
  refine h.imp id fun ⟨heq, hv, hst⟩ => ⟨heq, hv, fun q => ?_⟩
  change (update s.phases p φ q).stamping ≠ _
  rw [update_apply]
  split
  · rw [hφ]
    nofun
  · exact hst q

theorem Story.setPhase {p} (h : Story total s ψ) (hφ : φ.stamping = none) :
    Story total (s.setPhase p φ) ψ :=
  ⟨h.inRange, h.swapOp, h.linked, fun f hf => (h.scan f hf).imp (·.setPhase hφ) fun ha => ⟨ha.1,
    ha.2, ha.3, ha.4, ha.5⟩, fun f g hf hg => (h.read f g hf hg).imp_left (·.setPhase hφ),
    fun t ht hop => (h.done t ht hop).setPhase hφ⟩

/-- A process at rest begins an operation. -/
theorem Inv.setPhase {p} (h : Inv total s) (hat : (s.phases p).AtRest = true) (hφ : φ.Light)
    (hstory : Story total s φ) : Inv total (s.setPhase p φ) := by
  have hphase : ∀ q, (s.setPhase p φ).phases q = if q = p then φ else s.phases q :=
    fun q => update_apply ..
  have hst := hφ.stamping
  obtain ⟨ha, hc, hr⟩ := hφ
  -- what a process holds behind the step, it held before
  have hold : ∀ {held : SlabPhase → Option Nat}, held φ = none → ∀ {q j},
      held ((s.setPhase p φ).phases q) = some j → held (s.phases q) = some j := by
    intro held hnone q j hq
    rw [hphase] at hq
    split at hq
    · cases hnone.symm.trans hq
    · exact hq
  refine ⟨fun q r j hq hr' => h.apart q r j (hold ha hq) (hold hc hr'),
    fun q r j hq hr' => h.allocators q r j (hold ha hq) (hold ha hr'),
    fun q r j hq hr' => h.reclaimers q r j (hold hr hq) (hold hr hr'), h.bits, fun j hj => ?_,
    h.stamped, fun q j hq => ?_, fun q => ?_⟩
  · obtain ⟨q, hq⟩ := h.filled j hj
    refine ⟨q, ?_⟩
    rw [hphase, if_neg ?_]
    · exact hq
    · rintro rfl
      cases (target_of_atRest hat).symm.trans (target_of_allocates hq)
  · rw [hphase] at hq ⊢
    split
    · exact local_of_unchecked ha hc
    · rename_i hne
      rw [if_neg hne] at hq
      exact h.own q j hq
  · rw [hphase]
    split
    · exact hstory.setPhase hst
    · exact (h.story q).setPhase hst

/-! ### One access -/

/-- The system behind an access of a process to the slot. -/
def access (total : Nat) (s : SlabSystem) (p i : Nat) (answer : Bool) : SlabSystem :=
  ⟨update s.words i ((s.phases p).advance total (s.words i) answer).1,
    update s.phases p ((s.phases p).advance total (s.words i) answer).2⟩

variable {p i : Nat} {answer : Bool} {action : SlabAction}

theorem words_access (j : Nat) : (access total s p i answer).words j =
    if j = i then ((s.phases p).advance total (s.words i) answer).1 else s.words j :=
  update_apply ..

theorem phases_access (q : Nat) : (access total s p i answer).phases q =
    if q = p then ((s.phases p).advance total (s.words i) answer).2 else s.phases q :=
  update_apply ..

theorem advance_claim_cases (total : Nat) (answer : Bool) (c : ClassDescriptor)
    (request : AllocationRequest) (slot : Nat) (w : SlotWords) :
    (claim c request slot).advance total w answer = (w, .idle) ∨ (w.bit = false ∧
      (claim c request slot).advance total w answer =
        ({ w with bit := true }, .takeState c request slot)) := by
  rw [advance]
  split
  · exact .inl rfl
  · rename_i hbit
    exact .inr ⟨Bool.eq_false_iff.mpr hbit, rfl⟩

section

variable (h : Inv total s) (ht : (s.phases p).target = some i)
include h ht

theorem Inv.onto (answer : Bool) : Onto i (s.words i) (s.phases p)
    ((s.phases p).advance total (s.words i) answer).1
    ((s.phases p).advance total (s.words i) answer).2 := by
  refine advance_onto total answer ht (h.own p i ht) (h.bits i) fun hc => ?_
  obtain ⟨j, hj⟩ := Option.isSome_iff_exists.mp hc
  obtain rfl := Option.some.inj (ht.symm.trans (target_of_checked hj))
  exact h.not_allocating hj

theorem Gone.access {j g} (hg : Gone s j g) : Gone (access total s p i answer) j g := by
  have hlocal := h.own p i ht
  unfold Gone
  rw [words_access]
  split
  · rename_i hji
    subst hji
    have hle := advance_generation total (s.words j) answer (s.phases p)
    rcases hg with hlt | ⟨heq, hv, hst⟩
    · exact .inl (hlt.trans_le hle)
    have hnone : (s.phases p).stamping = none := by
      cases hs : (s.phases p).stamping with
      | none => rfl
      | some k =>
        have hk := Option.some.inj ((target_of_allocates (allocates_of_stamping hs)).symm.trans ht)
        exact absurd (hk ▸ hs) (hst p)
    rcases advance_stamping total (s.words j) answer hnone with hnone' | hlt
    · rcases Nat.lt_or_eq_of_le hle with hlt | hsame
      · exact .inl (heq ▸ hlt)
      · refine .inr ⟨heq.trans hsame, advance_vacant ht hlocal hnone hv, fun q => ?_⟩
        rw [phases_access]
        split
        · rw [hnone']
          nofun
        · exact hst q
    · exact .inl (heq ▸ hlt)
  · rename_i hji
    refine hg.imp id fun ⟨heq, hv, hst⟩ => ⟨heq, hv, fun q hq => ?_⟩
    rw [phases_access] at hq
    split at hq
    · exact hji ((h.onto ht answer).allocates j (allocates_of_stamping hq)).1
    · exact hst q hq

theorem Pending.access (hp : Pending s f) : Pending (access total s p i answer) f := by
  rcases hp with hg | ha
  · exact .inl (hg.access h ht)
  by_cases hi : f.task.slot = i
  · subst hi
    obtain ⟨hsame, hfree | ⟨hpresent, howner, htransaction⟩⟩ :=
      advance_present total answer ht (h.own p _ ht) ha.present
    · have hnone := Option.eq_none_iff_forall_ne_some.mpr fun j hj =>
        h.not_stamping ha.present p (Option.some.inj ((target_of_allocates
          (allocates_of_stamping hj)).symm.trans ht) ▸ hj)
      refine .inl (.inr ⟨?_, ?_, fun q hq => ?_⟩)
      · rw [words_access, if_pos rfl, hsame, ha.same]
      · rw [words_access, if_pos rfl]
        exact .inl hfree
      · rw [phases_access] at hq
        split at hq
        · rcases advance_stamping total (s.words f.task.slot) answer hnone with hnone' | hlt
          · rw [hnone'] at hq
            cases hq
          · exact absurd hsame (Nat.ne_of_gt hlt)
        · exact h.not_stamping ha.present q hq
    · refine .inr ⟨ha.before, ?_, ?_, ?_, ?_⟩
      all_goals rw [words_access, if_pos rfl]
      · exact hsame.trans ha.same
      · exact hpresent
      · exact howner.trans ha.ownerEpoch
      · exact htransaction.trans ha.transactionId
  · refine .inr ⟨ha.before, ?_, ?_, ?_, ?_⟩
    all_goals rw [words_access, if_neg hi]
    · exact ha.same
    · exact ha.present
    · exact ha.ownerEpoch
    · exact ha.transactionId

theorem Story.access (hs : Story total s ψ) : Story total (access total s p i answer) ψ :=
  ⟨hs.inRange, hs.swapOp, hs.linked, fun f hf => (hs.scan f hf).access h ht,
    fun f g hf hg => (hs.read f g hf hg).imp_left (·.access h ht),
    fun t htask hop => (hs.done t htask hop).access h ht⟩

end

/-- A scan that leaves the slot of its root behind has nothing left to do there. -/
theorem Inv.over (h : Inv total s) (hstory : Story total s φ) (hf : φ.scan? = some f)
    (hover : Over (s.words f.slot) f φ) :
    Gone s f.task.slot f.task.generation ∨ (f.slot < f.task.slot ∧ Ahead s f) := by
  rcases hstory.scan f hf with hg | ha
  · exact .inl hg
  by_cases heq : f.slot = f.task.slot
  · rw [heq] at hover
    rcases hover with hfree | howner | htransaction | ⟨g, hg, hne⟩
    · exact absurd (.inl hfree) ha.present
    · exact absurd ha.ownerEpoch howner
    · exact absurd ha.transactionId htransaction
    · obtain ⟨hheader, hverify⟩ := h.stamped _ ha.present
      refine (hstory.read f g hf hg).imp_right fun hread => ?_
      have hgen := hread.resolve_left (not_not.mpr heq)
      exact absurd ⟨hheader.trans (ha.same.trans hgen.symm), hverify⟩ hne
  · exact .inr ⟨Nat.lt_of_le_of_ne ha.before heq, ha⟩

theorem Story.rejected {t} (ht : t.slot < total) : Story total s (.returned t false) :=
  ⟨fun _ hx => by cases hx; exact ht, swapOp_of_ne nofun nofun, linked_of_none rfl, nofun, nofun,
    nofun⟩

theorem Story.returned {t} (ht : t.slot < total) (hg : Gone s t.slot t.generation) :
    Story total s (.returned t true) :=
  ⟨fun _ hx => by cases hx; exact ht, swapOp_of_ne nofun nofun, linked_of_none rfl, nofun, nofun,
    fun x hx _ => by cases hx; exact hg⟩

theorem Story.scanBit (ht : f.task.slot < total) (hp : Pending s f) : Story total s (.scanBit f) :=
  ⟨fun _ hx => by cases hx; exact ht, swapOp_of_ne nofun nofun, linked_of_none rfl,
    fun x hx => by cases hx; exact hp, nofun, nofun⟩

section

variable (h : Inv total s) (ht : (s.phases p).target = some i)
include h

/-- An operation past its check knows that nobody stamps the slot. -/
theorem Inv.gone_of_vacant (hc : (s.phases p).checked? = some i) (hv : Vacant (s.words i)) :
    Gone s i (s.words i).generation :=
  .inr ⟨rfl, hv, fun q hq => h.apart q p i (allocates_of_stamping hq) hc⟩

include ht

/-- The scan goes on behind a slot, or ends. -/
theorem Inv.story_scanNext (hf : (s.phases p).scan? = some f) (htask : f.task.slot < total)
    (hover : Over (s.words f.slot) f (s.phases p)) :
    Story total (access total s p i answer) (scanNext total f) := by
  have hnext := h.over (h.story p) hf hover
  rcases scanNext_cases total f with ⟨heq, hend⟩ | heq
  · rw [heq]
    refine .returned htask ?_
    rcases hnext with hg | ⟨hlt, -⟩
    · exact hg.access h ht
    · omega
  · rw [heq]
    refine .scanBit htask (Pending.access h ht ?_)
    rcases hnext with hg | ⟨hlt, ha⟩
    · exact .inl hg
    · exact .inr ⟨hlt, ha.2, ha.3, ha.4, ha.5⟩

variable (hread : (s.phases p).readsState.isSome → (s.words i).state ≠ .reclaiming)
include hread

theorem Inv.story_exact {e} (he : (s.phases p).exactOf = some e) :
    Story total (access total s p i answer)
      ((s.phases p).advance total (s.words i) answer).2 := by
  have hstory := h.story p
  obtain ⟨hin, htask, hscan⟩ := exactOf_some he
  obtain rfl : e.slot = i := Option.some.inj (hin.symm.trans ht)
  have hrange := hstory.inRange _ htask
  obtain ⟨hlinked, hsome⟩ := hstory.linked e he
  rcases advance_exact total answer he (h.own p _ ht) hread with
    ⟨he', hscan', htask'⟩ | ⟨heq, hfree, hsame, hchecked⟩ | heq
  · refine ⟨fun t hx => ?_, swapOp_of_ne (fun t heq => ?_) (fun t heq => ?_), linked_of_exact he'
      hlinked hsome, fun f hf => ?_, fun f g _ hg => ?_, fun t heq => ?_⟩
    · rw [← Option.some.inj (htask'.symm.trans hx)]
      exact hrange
    · rw [heq] at he'
      cases he'
    · rw [heq] at he'
      cases he'
    · exact (hstory.scan f (hscan.trans (hscan'.symm.trans hf))).access h ht
    · cases he'.symm.trans (exactOf_of_scanRead? hg)
    · rw [heq] at he'
      cases he'
  · rw [heq]
    unfold exactOk
    split
    · rename_i hnone
      obtain ⟨hslot, hgen⟩ := hlinked hnone
      refine .returned hrange (Gone.access h ht ?_)
      rw [← hslot, ← hgen, ← hsame]
      exact h.gone_of_vacant hchecked (.inl hfree)
    · rename_i f hf
      obtain ⟨hslot, hftask⟩ := hsome f hf
      exact h.story_scanNext ht (hscan.trans hf) (hftask ▸ hrange) (hslot ▸ .inl hfree)
  · rw [heq]
    exact .rejected hrange

theorem Inv.story_scan (hf : (s.phases p).scan? = some f) (he : (s.phases p).exactOf = none) :
    Story total (access total s p i answer) ((s.phases p).advance total (s.words i) answer).2 := by
  have hstory := h.story p
  obtain ⟨hin, htask⟩ := scan?_some hf he
  obtain rfl : f.slot = i := Option.some.inj (hin.symm.trans ht)
  have hrange := hstory.inRange _ htask
  have hpending := hstory.scan f hf
  rcases advance_scan total answer hf he (h.bits _) hread with
    ⟨hscan', htask', hlinked', hread'⟩ | ⟨heq, hover⟩
  · refine ⟨fun t hx => ?_, swapOp_of_ne (fun t heq => ?_) (fun t heq => ?_), hlinked',
      fun g hg => ?_, fun f' g hf' hg => ?_, fun t heq => ?_⟩
    · rw [← Option.some.inj (htask'.symm.trans hx)]
      exact hrange
    · rw [heq] at hscan'
      cases hscan'
    · rw [heq] at hscan'
      cases hscan'
    · rw [← Option.some.inj (hscan'.symm.trans hg)]
      exact hpending.access h ht
    · obtain rfl := Option.some.inj (hscan'.symm.trans hf')
      rcases hread' g hg with hgen | hold
      · rcases hpending with hgone | ha
        · exact .inl (hgone.access h ht)
        · by_cases heq : f.slot = f.task.slot
          · rw [heq] at hgen
            exact .inr (.inr (hgen.trans ha.same))
          · exact .inr (.inl heq)
      · exact (hstory.read f g hf hold).imp_left (·.access h ht)
    · rw [heq] at hscan'
      cases hscan'
  · rw [heq]
    exact h.story_scanNext ht hf hrange hover

omit hread in
theorem Inv.story_other (he : (s.phases p).exactOf = none) (hf : (s.phases p).scan? = none) :
    Story total (access total s p i answer) ((s.phases p).advance total (s.words i) answer).2 := by
  have hstory := h.story p
  have hrest : (s.phases p).AtRest = false := by
    revert ht
    cases s.phases p <;> first | exact fun _ => rfl | exact nofun
  rcases advance_outset total (s.words i) answer he hf hrest hstory.swapOp with
    ⟨he', hf', htask, hdone, hswap⟩ | ⟨t, htask, heq⟩ | ⟨t, ownerEpoch, transactionId, hφ, heq⟩
  · refine ⟨fun t' ht' => ?_, hswap, linked_of_none he', fun f hx => (nomatch hf'.symm.trans hx),
      fun f _ hx => (nomatch hf'.symm.trans hx), fun t heq hop => ?_⟩
    · obtain ⟨t, ht, hslot⟩ := htask t' ht'
      exact hslot ▸ hstory.inRange t ht
    · exact (hop.elim (hdone t heq).1 (hdone t heq).2).elim
  · rw [heq]
    refine ⟨fun x hx => ?_, swapOp_of_ne nofun nofun,
      linked_of_exact rfl (fun _ => ⟨rfl, rfl⟩) nofun, nofun, nofun, nofun⟩
    cases hx
    exact hstory.inRange t htask
  · rw [heq]
    have hlocal := h.own p i ht
    have hchecked : (s.phases p).checked? = some t.slot := by rw [hφ]; rfl
    obtain rfl : t.slot = i := Option.some.inj ((target_of_checked hchecked).symm.trans ht)
    rw [hφ] at hlocal
    obtain ⟨hsame, howner, htransaction⟩ := hlocal
    refine .scanBit (hstory.inRange t (hφ ▸ rfl)) (Pending.access h ht ?_)
    by_cases hv : Vacant (s.words t.slot)
    · have hgone := h.gone_of_vacant hchecked hv
      exact .inl (hsame ▸ hgone)
    · exact .inr ⟨Nat.zero_le _, hsame, hv, howner, htransaction⟩

theorem Inv.story_access : Story total (access total s p i answer)
    ((s.phases p).advance total (s.words i) answer).2 := by
  cases he : (s.phases p).exactOf with
  | some e => exact h.story_exact ht hread he
  | none =>
    cases hf : (s.phases p).scan? with
    | some f => exact h.story_scan ht hread hf he
    | none => exact h.story_other ht he hf

omit hread

/-- The slot of an access, behind it. -/
theorem Inv.words_access (answer : Bool) :
    let w' := ((s.phases p).advance total (s.words i) answer).1
    (w'.bit = false → w'.state = .free) ∧
      (w'.state = .allocating → ∃ q, ((access total s p i answer).phases q).allocates = some i) ∧
      (¬ Vacant w' → Stamped w') := by
  -- an allocator of the slot other than `p` is still there
  have hother : (s.phases p).allocates = none → (s.words i).state = .allocating →
      ∃ q, ((SlabSystem.access total s p i answer).phases q).allocates = some i := by
    intro hnone hst
    obtain ⟨q, hq⟩ := h.filled i hst
    refine ⟨q, ?_⟩
    rw [phases_access, if_neg ?_]
    · exact hq
    · rintro rfl
      cases hnone.symm.trans hq
  cases ha : (s.phases p).allocates with
  | some j =>
    obtain rfl := Option.some.inj (ht.symm.trans (target_of_allocates ha))
    obtain ⟨hbits, hfilled, hstamped⟩ := advance_allocates total answer (h.own p _ ht) ha
    refine ⟨hbits, fun hst => ⟨p, ?_⟩, hstamped⟩
    rw [phases_access, if_pos rfl]
    exact hfilled hst
  | none =>
    rcases inside_or_claim ht with hin | ⟨c, request, hclaim⟩
    · have heffect := advance_effect total answer (h.own p i ht) ha hin
      refine ⟨heffect.bits (h.bits i), fun hst => hother ha (heffect.allocating hst), fun hv => ?_⟩
      exact heffect.keeps.2.2.2.mpr (h.stamped i fun hv' => hv (heffect.vacant hv'))
    · have hsame := advance_claim_cases total answer c request i (s.words i)
      rw [← hclaim] at hsame
      rcases hsame with heq | ⟨hbit, heq⟩
      · rw [heq]
        exact ⟨h.bits i, hother ha, h.stamped i⟩
      · rw [heq]
        exact ⟨fun _ => h.bits i hbit, hother ha, h.stamped i⟩

/-- What another process knows of the slot of an access, behind it. -/
theorem Inv.local_access {q} (hq : q ≠ p) (htq : (s.phases q).target = some i) :
    Local ((s.phases p).advance total (s.words i) answer).1 (s.phases q) := by
  have hlocal := h.own q i htq
  have hat : ∀ {j}, (s.phases q).target = some j → j = i := fun hj => Option.some.inj (hj.symm.trans htq)
  cases ha : (s.phases p).allocates with
  | some j =>
    obtain rfl := Option.some.inj (ht.symm.trans (target_of_allocates ha))
    refine local_of_unchecked ?_ ?_ <;> refine Option.eq_none_iff_forall_ne_some.mpr fun j hj => ?_
    · rw [hat (target_of_allocates hj)] at hj
      exact hq (h.allocators q p _ hj ha)
    · rw [hat (target_of_checked hj)] at hj
      exact h.apart p q _ ha hj
  | none =>
    rcases inside_or_claim ht with hin | ⟨c, request, hclaim⟩
    · have heffect := advance_effect total answer (h.own p i ht) ha hin
      cases haq : (s.phases q).allocates with
      | some j =>
        -- the access finds nothing that it may change
        rw [hat (target_of_allocates haq)] at haq
        rw [heffect.eq_of_unchecked]
        · exact hlocal
        refine Option.eq_none_iff_forall_ne_some.mpr fun j hj => ?_
        obtain rfl := Option.some.inj (ht.symm.trans (target_of_checked hj))
        exact h.apart q p _ haq hj
      | none =>
        refine heffect.keeps_local hlocal haq fun hr => ?_
        obtain ⟨j, hj⟩ := Option.isSome_iff_exists.mp hr
        rw [hat (target_of_checked (checked_of_reclaims hj))] at hj
        refine Option.eq_none_iff_forall_ne_some.mpr fun k hk => ?_
        obtain rfl := Option.some.inj (ht.symm.trans (target_of_checked (checked_of_reclaims hk)))
        exact hq (h.reclaimers q p _ hj hk)
    · rw [hclaim]
      rcases advance_claim_cases total answer c request i (s.words i) with heq | ⟨hbit, heq⟩
      · rw [heq]
        exact hlocal
      rw [heq]
      refine hlocal.congr ?_ ?_ rfl rfl rfl
      all_goals refine Option.eq_none_iff_forall_ne_some.mpr fun j hj => ?_
      · cases hbit.symm.trans (hlocal.of_allocates hj).1
      · cases hbit.symm.trans (hlocal.of_reclaims hj).1

/-- What the process of an access knows behind it. -/
theorem Inv.local_self {j}
    (hj : ((s.phases p).advance total (s.words i) answer).2.target = some j) :
    Local ((access total s p i answer).words j)
      ((s.phases p).advance total (s.words i) answer).2 := by
  obtain ⟨hknown, hallocates, hchecked, -⟩ := h.onto ht answer
  rw [SlabSystem.words_access]
  split
  · exact hknown
  -- it has left the slot, so it knows nothing
  rename_i hji
  refine local_of_unchecked ?_ ?_ <;> refine Option.eq_none_iff_forall_ne_some.mpr fun k hk => ?_
  · obtain rfl := Option.some.inj (hj.symm.trans (target_of_allocates hk))
    exact hji (hallocates j hk).1
  · obtain rfl := Option.some.inj (hj.symm.trans (target_of_checked hk))
    exact hji (hchecked j hk)

theorem Inv.access (hapart : Apart (access total s p i answer))
    (hread : (s.phases p).readsState.isSome → (s.words i).state ≠ .reclaiming) :
    Inv total (access total s p i answer) := by
  have hphase : ∀ q, (SlabSystem.access total s p i answer).phases q = if q = p then
      ((s.phases p).advance total (s.words i) answer).2 else s.phases q := phases_access
  obtain ⟨-, hallocates, hchecked, hreclaims⟩ := h.onto ht answer
  obtain ⟨hbits, hfilled, hstamped⟩ := h.words_access ht answer
  refine ⟨hapart, Interleaving.alone_update (f := allocates) h.allocators fun j hj q hq hqj => ?_,
    Interleaving.alone_update (f := reclaims) h.reclaimers fun j hj q hq hqj => ?_, fun j => ?_,
    fun j hj => ?_, fun j => ?_, fun q j hq => ?_, fun q => ?_⟩
  · obtain ⟨rfl, hold | hbit⟩ := hallocates j hj
    · exact hq (h.allocators q p j hqj hold)
    · cases hbit.symm.trans ((h.own q j (target_of_allocates hqj)).of_allocates hqj).1
  · obtain rfl := hchecked j (checked_of_reclaims hj)
    rcases hreclaims j hj with hold | hlast
    · exact hq (h.reclaimers q p j hqj hold)
    · exact ((h.own q j (target_of_checked (checked_of_reclaims hqj))).of_reclaims hqj).2.1 hlast
  · rw [SlabSystem.words_access]
    split
    · exact hbits
    · exact h.bits j
  · rw [SlabSystem.words_access] at hj
    split at hj
    · rename_i hji
      exact hji ▸ hfilled hj
    · rename_i hji
      obtain ⟨q, hq⟩ := h.filled j hj
      refine ⟨q, ?_⟩
      rw [hphase, if_neg ?_]
      · exact hq
      · rintro rfl
        exact hji (Option.some.inj ((target_of_allocates hq).symm.trans ht))
  · rw [SlabSystem.words_access]
    split
    · exact hstamped
    · exact h.stamped j
  · rw [hphase] at hq ⊢
    by_cases hqp : q = p
    · rw [if_pos hqp] at hq ⊢
      exact h.local_self ht hq
    · rw [if_neg hqp] at hq ⊢
      rw [SlabSystem.words_access]
      split
      · rename_i hji
        exact h.local_access ht hqp (hji ▸ hq)
      · exact h.own q j hq
  · rw [hphase]
    split
    · exact h.story_access ht hread
    · exact (h.story q).access h ht

end

/-! ### Runs -/

theorem step_advance (s : SlabSystem) (p : Nat) (answer : Bool) :
    s.step total (.advance p answer) = (s.phases p).target.map (access total s p · answer) := rfl

/-- The access allocates no slot behind another operation's check, passes no check at a slot that
is being allocated, and does not read the kReclaiming of a `Reclaim` to see whether there is
something to reclaim. -/
def Calm (total : Nat) (s : SlabSystem) (action : SlabAction) : Prop :=
  (∀ s', s.step total action = some s' → Apart s') ∧
    ∀ i, (s.phases action.process).readsState = some i → (s.words i).state ≠ .reclaiming

theorem Inv.step (h : Inv total s) (hcalm : Calm total s action)
    (hstep : s.step total action = some s') : Inv total s' := by
  cases action with
  | allocate p c request slot =>
    unfold SlabSystem.step at hstep
    dsimp only at hstep
    split at hstep
    · rename_i hbegin
      cases hstep
      exact h.setPhase hbegin.1 ⟨rfl, rfl, rfl⟩
        ⟨nofun, swapOp_of_ne nofun nofun, linked_of_none rfl, nofun, nofun, nofun⟩
    · cases hstep
  | call p t =>
    unfold SlabSystem.step at hstep
    dsimp only at hstep
    split at hstep
    · rename_i hbegin
      cases hstep
      exact h.setPhase hbegin.1 ⟨rfl, rfl, rfl⟩ ⟨fun _ hx => by cases hx; exact hbegin.2.1,
        swapOp_of_ne nofun nofun, linked_of_none rfl, nofun, nofun, nofun⟩
    · cases hstep
  | advance p answer =>
    have hapart := hcalm.1 s' hstep
    rw [step_advance] at hstep
    obtain ⟨i, ht, rfl⟩ := Option.map_eq_some_iff.mp hstep
    refine h.access ht hapart fun hreads => ?_
    obtain ⟨j, hj⟩ := Option.isSome_iff_exists.mp hreads
    have hji : (s.phases p).target = some j := target_of_readsState hj
    obtain rfl := Option.some.inj (ht.symm.trans hji)
    exact hcalm.2 _ hj

end Mino.Shm.SlabSystem
