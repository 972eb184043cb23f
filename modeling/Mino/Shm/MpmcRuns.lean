import Mino.Lib.EventLog
import Mino.Shm.MpmcSafety

/-! # Runs of the MPMC ring

Every atomic access keeps the invariant of the ring, so every run does. -/

namespace Mino.Shm.MpmcSystem

open List Function Interleaving

open EventLog (mem_or_eq)

variable {type : ElementType} {s : MpmcSystem} {serves : Nat → Nat} {t pos : Nat}
  {shared : MpmcShared} {l : MpmcLocal} {v v' : View} {log : List MpmcEvent} {e : MpmcEvent}
  {threads : Nat → MpmcLocal} {value : List UInt8}

theorem Fits.capacity_pos (h : shared.Fits type) : 0 < shared.capacity :=
  Nat.lt_of_lt_of_le (by decide) h.two_le

/-! ### Steps that change one process and the log only -/

theorem locals_set (hl : v.LocalOk l)
    (h : ∀ u, u ≠ t → v.LocalOk (threads u)) (u : Nat) : v.LocalOk (update threads t l u) :=
  (forall_update_iff threads fun _ l => v.LocalOk l).mpr ⟨hl, h⟩ u

theorem Inv.setLocal (h : Inv type s serves) (hl : (view type s serves).LocalOk l) (hholds : ∀ p,
    l.holds = some p → (s.threads t).holds = some p) : Inv type (s.setLocal t l) serves := by
  have hold : ∀ u p, (update s.threads t l u).holds = some p → (s.threads u).holds = some p := by
    intro u p hp
    rcases of_update hp with ⟨rfl, hnew⟩ | ⟨-, hp⟩
    · exact hholds p hnew
    · exact hp
  exact ⟨h.fits, h.consistent, h.logged, locals_set hl fun u _ => h.locals u,
    fun u u' p hp hp' => h.unique u u' p (hold u p hp) (hold u' p hp')⟩

theorem SlotOk.emit {i} (h : SlotOk v log i) (he : ∀ x, e ≠ .committed (v.serves i) x) :
    SlotOk v (log ++ [e]) i := by
  rcases h with ⟨hseq, hle, hfresh⟩ | ⟨hseq, hlt, hcom⟩
  · refine .inl ⟨hseq, hle, fun x hx => ?_⟩
    rcases mem_append.mp hx with hx | hx
    · exact hfresh x hx
    · exact he x (mem_singleton.mp hx).symm
  · exact .inr ⟨hseq, hlt, mem_append_left _ hcom⟩

theorem Consistent.emit (h : Consistent v log) (he : ∀ p x, e ≠ .committed p x) :
    Consistent v (log ++ [e]) where
  index := h.index
  handed := h.handed
  bound := h.bound
  deq_le := h.deq_le
  slots i hi := (h.slots i hi).emit (he _)
  released p hp := mem_append_left _ (h.released p hp)

theorem Logged.mono (h : Logged v log) (henq : v'.enq = v.enq) (hdeq : v'.deq = v.deq) :
    Logged v' log :=
  ⟨henq ▸ h.enqueued, hdeq ▸ h.dequeued, h.dequeuedCommitted, h.committedOnce,
    fun p x hx => henq ▸ h.committed_lt p x hx, h.readCommitted⟩

/-- What the log says already of the position of an event that is added to it. -/
def Allowed (enq : Nat) (log : List MpmcEvent) : MpmcEvent → Prop
  | .dequeued p => ∃ x, .committed p x ∈ log
  | .committed p _ => p < enq ∧ ∀ x, .committed p x ∉ log
  | .read p x => .committed p x ∈ log
  | _ => True

theorem Logged.emit (h : Logged v log)
    (henq : e.enqueuedPos.toList = (range v'.enq).drop v.enq ∧ v.enq ≤ v'.enq)
    (hdeq : e.dequeuedPos.toList = (range v'.deq).drop v.deq ∧ v.deq ≤ v'.deq)
    (he : Allowed v'.enq log e) : Logged v' (log ++ [e]) := by
  have hrange : ∀ {m n : Nat}, m ≤ n → range m ++ (range n).drop m = range n := by
    intro m n hmn
    conv_rhs => rw [← take_append_drop m (range n)]
    rw [take_range, Nat.min_eq_left hmn]
  have hlast : ∀ f : MpmcEvent → Option Nat, [e].filterMap f = (f e).toList := by
    intro f
    cases hf : f e <;> simp [hf]
  refine ⟨?_, ?_, fun p hp => ?_, fun p x x' hx hx' => ?_, fun p x hx => ?_, fun p x hx => ?_⟩
  · rw [filterMap_append, h.enqueued, hlast, henq.1]
    exact hrange henq.2
  · rw [filterMap_append, h.dequeued, hlast, hdeq.1]
    exact hrange hdeq.2
  · rcases mem_or_eq hp with hp | rfl
    · exact (h.dequeuedCommitted p hp).imp fun _ hx => mem_append_left _ hx
    · exact he.imp fun _ hx => mem_append_left _ hx
  · rcases mem_or_eq hx with hold | rfl <;> rcases mem_or_eq hx' with hx' | hx'
    · exact h.committedOnce p x x' hold hx'
    · subst hx'
      exact absurd hold (he.2 x)
    · exact absurd hx' (he.2 x')
    · cases hx'
      rfl
  · rcases mem_or_eq hx with hx | rfl
    · exact Nat.lt_of_lt_of_le (h.committed_lt p x hx) henq.2
    · exact he.1
  · rcases mem_or_eq hx with hx | rfl
    · exact mem_append_left _ (h.readCommitted p x hx)
    · exact mem_append_left _ he

theorem drop_range_self (n : Nat) : [] = (range n).drop n ∧ n ≤ n :=
  ⟨(drop_eq_nil_of_le (by rw [length_range])).symm, Nat.le_refl n⟩

theorem drop_range_succ (n : Nat) : [n] = (range (n + 1)).drop n ∧ n ≤ n + 1 := by
  rw [range_succ, drop_append_of_le_length (by rw [length_range]), ← (drop_range_self n).1]
  exact ⟨rfl, Nat.le_succ n⟩

/-- Events that say nothing about a position. -/
def Quiet (e : MpmcEvent) : Prop := e = .full ∨ e = .empty

theorem Logged.emit_quiet (h : Logged v log) (he : Quiet e) : Logged v (log ++ [e]) := by
  rcases he with rfl | rfl <;>
    exact h.emit (drop_range_self _) (drop_range_self _) trivial

theorem Inv.emit_quiet (h : Inv type s serves) (he : Quiet e) : Inv type (s.emit e) serves where
  fits := h.fits
  consistent := h.consistent.emit (by rintro p x rfl; rcases he with he | he <;> cases he)
  logged := h.logged.emit_quiet he
  locals := h.locals
  unique := h.unique

/-! ### Handing out positions -/

theorem LocalOk.lt_of_holds (hdeq : v.deq ≤ v.enq) (h : v.LocalOk l) {p}
    (hp : l.holds = some p) : p < v.enq := by
  cases l with
  | enqueued pos | writing pos value k => cases hp; exact h.1
  | dequeued pos | reading pos loaded => cases hp; exact Nat.lt_of_lt_of_le h.1 hdeq
  | _ => cases hp

/-- A position that nobody holds may be held by the process that gets it. -/
theorem unique_update
    (hu : ∀ t t' p, (threads t).holds = some p → (threads t').holds = some p → t = t')
    (hl : l.holds = some pos) (hfree : ∀ u, u ≠ t → (threads u).holds ≠ some pos) (u u' p : Nat)
    (hp : (update threads t l u).holds = some p) (hp' : (update threads t l u').holds = some p) :
    u = u' := by
  rcases of_update hp with ⟨h, hp⟩ | ⟨h, hp⟩ <;> rcases of_update hp' with ⟨h', hp'⟩ | ⟨h', hp'⟩
  · exact h.trans h'.symm
  · exact absurd (hp'.trans (hp.symm.trans hl)) (hfree u' h')
  · exact absurd (hp.trans (hp'.symm.trans hl)) (hfree u h)
  · exact hu u u' p hp hp'

theorem Inv.claimEnqueue (h : Inv type s serves)
    (hv : (view type s serves).Vacant s.shared.enqueuePos) :
    Inv type (((s.setEnqueuePos (s.shared.enqueuePos + 1)).setLocal t
      (.enqueued s.shared.enqueuePos)).emit (.enqueued s.shared.enqueuePos)) serves := by
  have hcap : 0 < s.shared.capacity := Fits.capacity_pos h.fits
  have hc := h.consistent
  refine ⟨⟨h.fits.align, h.fits.capacity, h.fits.two_le, h.fits.le⟩, ?_, ?_, fun u => ?_, ?_⟩
  · have hview : Consistent { view type s serves with enq := s.shared.enqueuePos + 1 } s.log := by
      refine ⟨hc.index, fun p hp => ?_, hc.bound, Nat.le_succ_of_le hc.deq_le, fun i hi => ?_,
        hc.released⟩
      · rcases Nat.lt_succ_iff_lt_or_eq.mp hp with hlt | rfl
        · exact hc.handed p hlt
        · exact Nat.le_of_eq hv.1.symm
      · rcases hc.slots i hi with hvac | ⟨hseq, hlt, hcom⟩
        · exact .inl hvac
        · exact .inr ⟨hseq, Nat.lt_succ_of_lt hlt, hcom⟩
    exact hview.emit (by rintro p x ⟨⟩)
  · exact h.logged.emit (drop_range_succ _) (drop_range_self _) trivial
  · exact locals_set (l := .enqueued _)
      (v := { view type s serves with enq := s.shared.enqueuePos + 1 }) ⟨Nat.lt_succ_self _, hv⟩
      (fun u _ => (h.locals u).advance (Nat.le_succ _) le_rfl) u
  · refine unique_update h.unique rfl fun u _ hu => ?_
    exact absurd (LocalOk.lt_of_holds hc.deq_le (h.locals u) hu) (Nat.lt_irrefl _)

/-- Nobody holds a filled position that has not been dequeued. -/
theorem LocalOk.not_holds_of_filled (hf : v.Filled pos) (hpos : v.deq ≤ pos) (h : v.LocalOk l) :
    l.holds ≠ some pos := by
  intro hp
  cases l with
  | enqueued p =>
    cases hp
    exact word_succ_ne pos (h.2.2.symm.trans hf.2)
  | writing p value k =>
    cases hp
    exact word_succ_ne pos (h.2.1.2.symm.trans hf.2)
  | dequeued p | reading p loaded =>
    cases hp
    exact absurd h.1 (Nat.not_lt.mpr hpos)
  | _ => cases hp

theorem Inv.claimDequeue (h : Inv type s serves)
    (hf : (view type s serves).Filled s.shared.dequeuePos) :
    Inv type (((s.setDequeuePos (s.shared.dequeuePos + 1)).setLocal t
      (.dequeued s.shared.dequeuePos)).emit (.dequeued s.shared.dequeuePos)) serves := by
  have hcap : 0 < s.shared.capacity := Fits.capacity_pos h.fits
  have hc := h.consistent
  obtain ⟨hlt, hcom⟩ := hc.committed_of_filled hcap hf
  refine ⟨⟨h.fits.align, h.fits.capacity, h.fits.two_le, h.fits.le⟩, ?_, ?_, fun u => ?_, ?_⟩
  · have hview : Consistent { view type s serves with deq := s.shared.dequeuePos + 1 } s.log := by
      refine ⟨hc.index, hc.handed, fun i hi => ?_, hlt, fun i hi => ?_, hc.released⟩
      · have := hc.bound i hi
        change serves i < s.shared.dequeuePos + s.shared.capacity at this
        change serves i < s.shared.dequeuePos + 1 + s.shared.capacity
        omega
      · rcases hc.slots i hi with ⟨hseq, hle, hfresh⟩ | hfill
        · refine .inl ⟨hseq, ?_, hfresh⟩
          -- the slot of the cursor is filled, so a vacant slot serves a later position
          refine Nat.lt_of_le_of_ne hle fun heq => ?_
          exact hfresh _ (heq ▸ hcom)
        · exact .inr hfill
    exact hview.emit (by rintro p x ⟨⟩)
  · exact h.logged.emit (drop_range_self _) (drop_range_succ _) ⟨_, hcom⟩
  · exact locals_set (l := .dequeued _)
      (v := { view type s serves with deq := s.shared.dequeuePos + 1 }) ⟨Nat.lt_succ_self _, hf⟩
      (fun u _ => (h.locals u).advance le_rfl (Nat.le_succ _)) u
  · exact unique_update h.unique rfl fun u _ hu =>
      LocalOk.not_holds_of_filled hf le_rfl (h.locals u) hu

/-! ### Accesses of the process that holds a position -/

section

variable (h : Inv type s serves) {p : Nat} (hp : (s.threads t).holds = some p)
include h hp

/-- The position of a slot that some process holds is no other process's subject. -/
theorem Inv.subject_ne {u} (hu : u ≠ t) (hpos : (view type s serves).subject (s.threads u) =
    some pos) : (view type s serves).slot pos ≠ (view type s serves).slot p := by
  intro hslot
  have hpos' := (h.locals u).serves hpos
  have hp' : (view type s serves).serves ((view type s serves).slot p) = p := by
    refine (h.locals t).serves ?_
    cases hl : s.threads t <;> rw [hl] at hp <;> first | exact hp | cases hp
  have heq : pos = p := by rw [← hpos', hslot, hp']
  subst heq
  have hlt := LocalOk.lt_of_holds h.consistent.deq_le (h.locals t) hp
  have hloc := h.locals u
  cases hl : s.threads u with
  | enqueueClaim q =>
    rw [hl, View.subject] at hpos
    split at hpos
    · rename_i heq
      cases hpos
      exact absurd hlt (by rw [heq]; exact Nat.lt_irrefl _)
    · cases hpos
  | dequeueClaim q =>
    rw [hl, View.subject] at hpos
    rw [hl] at hloc
    split at hpos
    · rename_i heq
      cases hpos
      exact LocalOk.not_holds_of_filled (hloc.2 heq) (Nat.le_of_eq heq.symm) (h.locals t) hp
    · cases hpos
  | idle | enqueueProbe | dequeueProbe => rw [hl] at hpos; cases hpos
  | enqueued q | writing q | dequeued q | reading q =>
    exact hu (h.unique u t _ (by rw [hl]; rw [hl] at hpos; exact hpos) hp)

/-- The process that holds a position changes its slot: every other process is left alone. -/
theorem Inv.locals_update
    (hagree : View.AgreeOff ((view type s serves).slot p) (view type s serves) v')
    (hl : v'.LocalOk l) (u : Nat) : v'.LocalOk (update s.threads t l u) :=
  locals_set hl (fun u hu => (h.locals u).frame hagree fun _ => h.subject_ne hp hu) u

end

theorem unique_of_holds
    (hu : ∀ t t' p, (threads t).holds = some p → (threads t').holds = some p → t = t')
    (hholds : ∀ p, l.holds = some p → (threads t).holds = some p) (u u' p : Nat)
    (hp : (update threads t l u).holds = some p) (hp' : (update threads t l u').holds = some p) :
    u = u' := by
  have hold : ∀ w, (update threads t l w).holds = some p → (threads w).holds = some p := by
    intro w hw
    rcases of_update hw with ⟨rfl, hnew⟩ | ⟨-, hw⟩
    · exact hholds p hnew
    · exact hw
  exact hu u u' p (hold u hp) (hold u' hp')

/-- A slot of its own position changes, and the log grows by events about that position. -/
theorem Consistent.update {i log'} (h : Consistent v log)
    (hagree : View.AgreeOff i v v') (hserves : v'.serves i = v.serves i) (hold : ∀ e ∈ log,
    e ∈ log') (hnew : ∀ p x, v.slot p ≠ i → .committed p x ∈ log' → .committed p x ∈ log)
    (hslot : SlotOk v' log' i) : Consistent v' log' := by
  have hsame : ∀ j, v'.serves j = v.serves j := by
    intro j
    by_cases hj : j = i
    · rw [hj, hserves]
    · exact hagree.serves j hj
  have hslots : ∀ p, v'.slot p = v.slot p := by
    intro p
    unfold View.slot
    rw [hagree.capacity]
  refine ⟨fun j hj => ?_, fun p hp => ?_, fun j hj => ?_, ?_, fun j hj => ?_, fun p hp => ?_⟩
  · rw [hslots, hsame]
    exact h.index j (hagree.capacity ▸ hj)
  · rw [hslots, hsame]
    exact h.handed p (hagree.enq ▸ hp)
  · rw [hsame, hagree.deq, hagree.capacity]
    exact h.bound j (hagree.capacity ▸ hj)
  · rw [hagree.deq, hagree.enq]
    exact h.deq_le
  · by_cases hj' : j = i
    · rw [hj']
      exact hslot
    have hjcap : j < v.capacity := hagree.capacity ▸ hj
    unfold SlotOk
    rw [hsame, hagree.seq j hj', hagree.stored j hj', hagree.enq, hagree.deq]
    rcases h.slots j hjcap with ⟨hs, hle, hfresh⟩ | ⟨hs, hlt, hcom⟩
    · refine .inl ⟨hs, hle, fun x hx => hfresh x (hnew _ x ?_ hx)⟩
      rw [h.index j hjcap]
      exact hj'
    · exact .inr ⟨hs, hlt, hold _ hcom⟩
  · rw [hslots, hsame] at hp
    exact hold _ (h.released p hp)

theorem storageAt_eq (h : s.shared.Fits type) (pos : Nat) :
    storageAt type s pos = s.shared.slotAt (pos % s.shared.capacity) type.size type.align +
      mpmcRingStorageOffset type.align := by
  rw [storageAt, slotForPos_eq h]

theorem Inv.writeByte (h : Inv type s serves) {k byte}
    (hl : s.threads t = .writing pos value k) (hbyte : value[k]? = some byte) :
    Inv type ((s.store8 (storageAt type s pos + k) byte).setLocal t (.writing pos value (k + 1)))
      serves := by
  have hloc := h.locals t
  rw [hl] at hloc
  obtain ⟨hlt, hvac, hlen, hk, htake⟩ := hloc
  change value.length = type.size at hlen
  obtain ⟨hk', rfl⟩ := List.getElem?_eq_some_iff.mp hbyte
  have hsize : k < type.size := by omega
  have hcap := Fits.capacity_pos h.fits
  have hholds : (s.threads t).holds = some pos := by rw [hl]; rfl
  rw [storageAt_eq h.fits]
  -- the new view differs from the old one in the element of the slot only
  have hseq := seq_store8 (s := s) h.fits (i := pos % s.shared.capacity) hsize value[k]
  have hagree : View.AgreeOff ((view type s serves).slot pos) (view type s serves)
      (view type (s.store8 (s.shared.slotAt (pos % s.shared.capacity) type.size type.align +
        mpmcRingStorageOffset type.align + k) value[k]) serves) :=
    ⟨rfl, rfl, rfl, rfl, fun _ _ => rfl, fun j _ => hseq j,
      fun j hj => stored_store8_of_ne h.fits hsize _ hj⟩
  have hc := h.consistent
  refine ⟨⟨h.fits.align, h.fits.capacity, h.fits.two_le, h.fits.le⟩, ?_, h.logged.mono rfl rfl,
    h.locals_update hholds hagree ?_, unique_of_holds h.unique fun _ hp => hholds.trans hp⟩
  · have hfresh := hc.fresh_of_vacant hcap hvac
    refine hc.update hagree rfl (fun _ he => he) (fun _ _ _ hx => hx) (.inl ⟨?_, ?_, ?_⟩)
    · exact (hseq _).trans (hvac.2.trans (congrArg word hvac.1.symm))
    · exact Nat.le_trans hfresh.1 (Nat.le_of_eq hvac.1.symm)
    · intro x hx
      exact hfresh.2 x (hvac.1 ▸ hx)
  · have hserves : serves (pos % s.shared.capacity) = pos := hvac.1
    have hword : seq type s (pos % s.shared.capacity) = word pos := hvac.2
    refine ⟨hlt, ⟨hserves, (hseq _).trans hword⟩, hlen, hsize, ?_⟩
    have hnew := take_stored_store8 (s := s) (i := pos % s.shared.capacity) hsize value[k]
    rw [take_succ_eq_append_getElem hk', ← htake]
    exact hnew

theorem Inv.commit (h : Inv type s serves) {k}
    (hl : s.threads t = .writing pos value k) (hbyte : value[k]? = none) :
    Inv type (((s.store64 (slotForPos type s pos) (word (pos + 1))).setLocal t .idle).emit
      (.committed pos value)) serves := by
  have hloc := h.locals t
  rw [hl] at hloc
  obtain ⟨hlt, hvac, hlen, hk, htake⟩ := hloc
  change value.length = type.size at hlen
  have hdone : type.size ≤ k := by
    have := getElem?_eq_none_iff.mp hbyte
    omega
  have hvalue : stored type s (pos % s.shared.capacity) = value := by
    change (stored type s (pos % s.shared.capacity)).take k = value.take k at htake
    rwa [take_of_length_le (by rw [length_stored]; exact hdone),
      take_of_length_le (by omega)] at htake
  have hcap := Fits.capacity_pos h.fits
  have hholds : (s.threads t).holds = some pos := by rw [hl]; rfl
  rw [slotForPos_eq h.fits]
  have hseq := seq_store64 h.fits (pos % s.shared.capacity) (word_lt (pos + 1))
  have hstored := stored_store64 h.fits (pos % s.shared.capacity) (word (pos + 1))
  have hagree : View.AgreeOff ((view type s serves).slot pos) (view type s serves)
      (view type (s.store64 (s.shared.slotAt (pos % s.shared.capacity) type.size type.align)
        (word (pos + 1))) serves) :=
    ⟨rfl, rfl, rfl, rfl, fun _ _ => rfl, fun j hj => (hseq j).trans (if_neg hj),
      fun j _ => hstored j⟩
  have hc := h.consistent
  have hfresh := hc.fresh_of_vacant hcap hvac
  refine ⟨⟨h.fits.align, h.fits.capacity, h.fits.two_le, h.fits.le⟩, ?_, ?_,
    h.locals_update hholds hagree trivial, unique_of_holds h.unique fun p hp => by cases hp⟩
  · refine hc.update hagree rfl (fun _ he => mem_append_left _ he) (fun p x hp hx => ?_)
      (.inr ⟨?_, ?_, ?_⟩)
    · rcases mem_append.mp hx with hx | hx
      · exact hx
      · cases mem_singleton.mp hx
        exact absurd rfl hp
    · exact (hseq _).trans ((if_pos rfl).trans (congrArg (fun n => word (n + 1)) hvac.1.symm))
    · exact Nat.lt_of_le_of_lt (Nat.le_of_eq hvac.1) hlt
    · refine mem_append_right _ (mem_singleton.mpr ?_)
      exact congrArg₂ MpmcEvent.committed hvac.1 ((hstored _).trans hvalue)
  · exact h.logged.emit (drop_range_self _) (drop_range_self _) ⟨hlt, hfresh.2⟩

theorem Inv.finishRead (h : Inv type s serves) {loaded}
    (hl : s.threads t = .reading pos loaded) (hdone : type.size ≤ loaded.length) :
    Inv type ((s.setLocal t (.dequeued pos)).emit (.read pos loaded)) serves := by
  have hloc := h.locals t
  rw [hl] at hloc
  obtain ⟨hlt, hfill, hlen, htake⟩ := hloc
  obtain ⟨-, hcom⟩ := h.consistent.committed_of_filled (Fits.capacity_pos h.fits) hfill
  have hvalue : loaded = stored type s (pos % s.shared.capacity) := by
    refine htake.trans (take_of_length_le ?_)
    exact Nat.le_trans (Nat.le_of_eq (length_stored s _)) hdone
  have hset : Inv type (s.setLocal t (.dequeued pos)) serves :=
    h.setLocal ⟨hlt, hfill⟩ fun p hp => by rw [hl]; exact hp
  refine ⟨hset.fits, hset.consistent.emit (by rintro p x ⟨⟩), ?_, hset.locals, hset.unique⟩
  refine h.logged.emit (drop_range_self _) (drop_range_self _) ?_
  rw [hvalue]
  exact hcom

/-- A slot moves on to the position one lap later. -/
theorem Consistent.release (h : Consistent v log) (hl : Logged v log) (hcap : 0 < v.capacity)
    (hpos : pos < v.deq) (hf : v.Filled pos) (hagree : View.AgreeOff (v.slot pos) v v')
    (hserves : v'.serves (v.slot pos) = pos + v.capacity)
    (hseq : v'.seq (v.slot pos) = word (pos + v.capacity)) :
    Consistent v' (log ++ [.released pos]) := by
  have hslots : ∀ p, v'.slot p = v.slot p := by
    intro p
    unfold View.slot
    rw [hagree.capacity]
  have hnext : v.slot (pos + v.capacity) = v.slot pos := Nat.add_mod_right _ _
  -- the next position of the slot has not been handed out
  have hfree : v.enq ≤ pos + v.capacity := by
    by_contra hlt
    have := h.handed (pos + v.capacity) (Nat.not_le.mp hlt)
    rw [hnext, hf.1] at this
    omega
  refine ⟨fun j hj => ?_, fun p hp => ?_, fun j hj => ?_, ?_, fun j hj => ?_, fun p hp => ?_⟩
  · rw [hslots]
    by_cases hji : j = v.slot pos
    · rw [hji, hserves, hnext]
    · rw [hagree.serves j hji]
      exact h.index j (hagree.capacity ▸ hj)
  · have hold := h.handed p (hagree.enq ▸ hp)
    rw [hslots]
    by_cases hji : v.slot p = v.slot pos
    · rw [hji, hserves]
      rw [hji, hf.1] at hold
      omega
    · rwa [hagree.serves _ hji]
  · rw [hagree.deq, hagree.capacity]
    by_cases hji : j = v.slot pos
    · rw [hji, hserves]
      omega
    · rw [hagree.serves j hji]
      exact h.bound j (hagree.capacity ▸ hj)
  · rw [hagree.deq, hagree.enq]
    exact h.deq_le
  · by_cases hji : j = v.slot pos
    · rw [hji]
      refine .inl ⟨by rw [hseq, hserves], ?_, fun x hx => ?_⟩
      · rw [hserves, hagree.deq]
        exact Nat.le_trans h.deq_le hfree
      rw [hserves] at hx
      rcases mem_append.mp hx with hx | hx
      · exact absurd (hl.committed_lt _ _ hx) (Nat.not_lt.mpr hfree)
      · cases mem_singleton.mp hx
    · have hslot := (h.slots j (hagree.capacity ▸ hj)).emit (e := .released pos) (by rintro x ⟨⟩)
      unfold SlotOk at hslot ⊢
      rwa [hagree.serves j hji, hagree.seq j hji, hagree.stored j hji, hagree.enq, hagree.deq]
  · rw [hslots] at hp
    by_cases hji : v.slot p = v.slot pos
    · rw [hji, hserves] at hp
      rcases Nat.lt_or_ge p pos with hlt | hge
      · exact mem_append_left _ (h.released p (by rw [hji, hf.1]; exact hlt))
      obtain rfl : p = pos := by
        have hmod : p % v.capacity = pos % v.capacity := hji
        have hzero := Nat.sub_mod_eq_zero_of_mod_eq hmod
        rw [Nat.mod_eq_of_lt (by omega)] at hzero
        omega
      exact mem_append_right _ mem_cons_self
    · rw [hagree.serves _ hji] at hp
      exact mem_append_left _ (h.released p hp)

section

variable (h : Inv type s serves) {s' : MpmcSystem}
include h

theorem Inv.release (hl : s.threads t = .dequeued pos) :
    Inv type (((s.store64 (slotForPos type s pos) (word (pos + s.shared.capacity))).setLocal t
      .idle).emit (.released pos))
        (update serves (pos % s.shared.capacity) (pos + s.shared.capacity)) := by
  have hloc := h.locals t
  rw [hl] at hloc
  obtain ⟨hlt, hfill⟩ := hloc
  have hcap := Fits.capacity_pos h.fits
  have hholds : (s.threads t).holds = some pos := by rw [hl]; rfl
  rw [slotForPos_eq h.fits]
  have hseq := seq_store64 h.fits (pos % s.shared.capacity)
    (word_lt (pos + s.shared.capacity))
  have hstored := stored_store64 h.fits (pos % s.shared.capacity)
    (word (pos + s.shared.capacity))
  have hagree : View.AgreeOff ((view type s serves).slot pos) (view type s serves)
      (view type (s.store64 (s.shared.slotAt (pos % s.shared.capacity) type.size type.align)
        (word (pos + s.shared.capacity)))
          (update serves (pos % s.shared.capacity) (pos + s.shared.capacity))) :=
    ⟨rfl, rfl, rfl, rfl, fun j hj => update_of_ne hj _ _,
      fun j hj => (hseq j).trans (if_neg hj), fun j _ => hstored j⟩
  refine ⟨⟨h.fits.align, h.fits.capacity, h.fits.two_le, h.fits.le⟩, ?_, ?_,
    h.locals_update hholds hagree trivial, unique_of_holds h.unique fun p hp => by cases hp⟩
  · exact h.consistent.release h.logged hcap hlt hfill hagree (update_self _ _ _)
      ((hseq _).trans (if_pos rfl))
  · exact h.logged.emit (drop_range_self _) (drop_range_self _) trivial

/-! ### Every step -/

theorem Inv.next {spuriousFailure}
    (hstep : next type s t spuriousFailure = some s') : ∃ serves', Inv type s' serves' := by
  have hloc := h.locals t
  have hc := h.consistent
  have htwo := h.fits.two_le
  have hmax := h.fits.le
  unfold MpmcSystem.next at hstep
  cases hl : s.threads t <;> simp only [hl] at hstep <;> rw [hl] at hloc
  case enqueueProbe pos =>
    split at hstep
    · rename_i hdiff
      cases hstep
      refine ⟨serves, h.setLocal ⟨hloc, fun heq => ?_⟩ (by rintro p ⟨⟩)⟩
      have hword : sequenceAt type s pos = word pos :=
        word_eq_of_sequenceDiff (ByteMemory.load64_lt _ _) hdiff
      rw [sequenceAt, slotForPos_eq h.fits, heq] at hword
      rw [heq]
      exact hc.vacant_of_word htwo hmax hword
    · split at hstep
      · cases hstep
        exact ⟨serves, (h.setLocal (l := .idle) trivial (by rintro p ⟨⟩)).emit_quiet (.inl rfl)⟩
      · cases hstep
        exact ⟨serves, h.setLocal le_rfl (by rintro p ⟨⟩)⟩
  case enqueueClaim pos =>
    split at hstep
    · rename_i hcas
      obtain ⟨rfl, -⟩ := hcas
      cases hstep
      exact ⟨serves, h.claimEnqueue (hloc.2 rfl)⟩
    · cases hstep
      exact ⟨serves, h.setLocal le_rfl (by rintro p ⟨⟩)⟩
  case writing pos value k =>
    split at hstep
    · rename_i byte hbyte
      cases hstep
      exact ⟨serves, h.writeByte hl hbyte⟩
    · rename_i hnone
      cases hstep
      exact ⟨serves, h.commit hl hnone⟩
  case dequeueProbe pos =>
    split at hstep
    · rename_i hdiff
      cases hstep
      refine ⟨serves, h.setLocal ⟨hloc, fun heq => ?_⟩ (by rintro p ⟨⟩)⟩
      have hword : sequenceAt type s pos = word (pos + 1) :=
        word_eq_of_sequenceDiff (ByteMemory.load64_lt _ _) hdiff
      rw [sequenceAt, slotForPos_eq h.fits, heq] at hword
      rw [heq]
      exact hc.filled_of_word htwo hmax hword
    · split at hstep
      · cases hstep
        exact ⟨serves, (h.setLocal (l := .idle) trivial (by rintro p ⟨⟩)).emit_quiet (.inr rfl)⟩
      · cases hstep
        exact ⟨serves, h.setLocal le_rfl (by rintro p ⟨⟩)⟩
  case dequeueClaim pos =>
    split at hstep
    · rename_i hcas
      obtain ⟨rfl, -⟩ := hcas
      cases hstep
      exact ⟨serves, h.claimDequeue (hloc.2 rfl)⟩
    · cases hstep
      exact ⟨serves, h.setLocal le_rfl (by rintro p ⟨⟩)⟩
  case reading pos loaded =>
    obtain ⟨hlt, hfill, hlen, htake⟩ := hloc
    split at hstep
    · rename_i hshort
      cases hstep
      refine ⟨serves, h.setLocal ⟨hlt, hfill, ?_, ?_⟩ fun p hp => by rw [hl]; exact hp⟩
      · rw [length_append]
        exact hshort
      rw [length_append, length_singleton, storageAt_eq h.fits]
      refine Eq.trans ?_ (take_stored_succ hshort).symm
      exact congrArg (· ++ _) htake
    · rename_i hdone
      cases hstep
      exact ⟨serves, h.finishRead hl (Nat.not_lt.mp hdone)⟩
  case idle | enqueued pos | dequeued pos => cases hstep

theorem Inv.step {action}
    (hstep : step type s action = some s') : ∃ serves', Inv type s' serves' := by
  have hloc := h.locals action.1
  unfold MpmcSystem.step at hstep
  split at hstep
  · split at hstep
    · cases hstep
      exact ⟨serves, h.setLocal le_rfl (by rintro p ⟨⟩)⟩
    · cases hstep
  · rename_i value pos _ hl
    split at hstep
    · rename_i hcall
      cases hstep
      rw [hl] at hloc
      exact ⟨serves, h.setLocal
        ⟨hloc.1, hloc.2, hcall.2, Nat.zero_le _, by simp⟩ fun p hp => by rw [hl]; exact hp⟩
    · cases hstep
  · split at hstep
    · cases hstep
      exact ⟨serves, h.setLocal le_rfl (by rintro p ⟨⟩)⟩
    · cases hstep
  · rename_i pos _ hl
    split at hstep
    · cases hstep
      rw [hl] at hloc
      exact ⟨serves,
        h.setLocal ⟨hloc.1, hloc.2, Nat.zero_le _, by simp⟩ fun p hp => by rw [hl]; exact hp⟩
    · cases hstep
  · rename_i pos _ hl
    split at hstep
    · cases hstep
      exact ⟨_, h.release hl⟩
    · cases hstep
  · exact h.next hstep
  · cases hstep

theorem Inv.safe : Safe type s := by
  have hl := h.logged
  refine ⟨hl.enqueued, hl.dequeued, hl.dequeuedCommitted, hl.committedOnce, hl.readCommitted,
    fun t t' p p' hne hp hp' heq => ?_, ?_⟩
  · rw [slotForPos_eq h.fits, slotForPos_eq h.fits] at heq
    have hslot := slotAt_inj h.fits heq
    have hsubject : (view type s serves).subject (s.threads t') = some p' := by
      cases hloc : s.threads t' <;> rw [hloc] at hp' <;> first | exact hp' | cases hp'
    exact h.subject_ne hp (Ne.symm hne) hsubject hslot.symm
  -- a position that is not released is the one its slot serves
  have hserves : ∀ p ∈ (Finset.range s.shared.enqueuePos).filter fun p => .released p ∉ s.log,
      serves (p % s.shared.capacity) = p := by
    intro p hp
    obtain ⟨hrange, hnot⟩ := Finset.mem_filter.mp hp
    have hle := h.consistent.handed p (Finset.mem_range.mp hrange)
    exact Nat.le_antisymm (Nat.not_lt.mp fun hlt => hnot (h.consistent.released p hlt)) hle
  calc _ ≤ (Finset.range s.shared.capacity).card := by
        refine Finset.card_le_card_of_injOn (· % s.shared.capacity) (fun p _ => ?_) ?_
        · simpa using Nat.mod_lt _ (Fits.capacity_pos h.fits)
        intro p hp p' hp' heq
        have heq' : p % s.shared.capacity = p' % s.shared.capacity := heq
        rw [← hserves p hp, heq', hserves p' hp']
    _ = s.shared.capacity := Finset.card_range _

end

theorem inv_start (hfits : shared.Fits type) (henq : shared.enqueuePos = 0)
    (hdeq : shared.dequeuePos = 0) (hseq : ∀ i < shared.capacity, seq type (start shared) i = i) :
    Inv type (start shared) fun i => i := by
  have hcap := Fits.capacity_pos hfits
  refine ⟨hfits, ⟨fun i hi => Nat.mod_eq_of_lt hi, fun p hp => ?_, fun i hi => ?_, ?_,
    fun i hi => .inl ⟨?_, ?_, fun x hx => ?_⟩, fun p hp => ?_⟩, ⟨?_, ?_, ?_, ?_, ?_, ?_⟩,
    fun _ => trivial, fun t t' p hp => by cases hp⟩
  · change p < shared.enqueuePos at hp
    omega
  · have hi' : i < shared.capacity := hi
    change i < shared.dequeuePos + shared.capacity
    omega
  · change shared.dequeuePos ≤ shared.enqueuePos
    omega
  · have hmax := hfits.le
    refine (hseq i hi).trans (Nat.mod_eq_of_lt ?_).symm
    exact Nat.lt_of_lt_of_le hi (Nat.le_trans hmax (by decide))
  · change shared.dequeuePos ≤ i
    omega
  · cases hx
  · exact absurd (Nat.mod_le p shared.capacity) (Nat.not_le.mpr hp)
  · exact (congrArg range henq).symm
  · exact (congrArg range hdeq).symm
  · rintro p ⟨⟩
  · rintro p x x' ⟨⟩
  · rintro p x ⟨⟩
  · rintro p x ⟨⟩

/-- If the element size that Init was given leads to the stride of the element type, every
run of enqueuers and dequeuers keeps the ring a bounded queue. -/
theorem mpmcRing_run_safe {memory : ByteMemory} {base capacity elemSize elemAlign generation : Nat}
    {shared : MpmcShared}
    (hinit : mpmcRingInit type memory base capacity elemSize elemAlign generation = .ok shared)
    (hstride : mpmcRingSlotStride elemSize elemAlign = mpmcRingSlotStride type.size type.align)
    {actions : List (Nat × MpmcAction)} {s : MpmcSystem}
    (hrun : Interleaving.run (step type) (start shared) actions = some s) : Safe type s := by
  obtain ⟨hfits, halign, hbase, hcap, henq, hdeq, hmemory⟩ := mpmcRingInit_ok hinit
  have hseq : ∀ i < shared.capacity, seq type (start shared) i = i := by
    intro i hi
    have hle : capacity ≤ 2 ^ 64 := by
      rw [← hcap]
      exact Nat.le_trans hfits.le (by decide)
    change shared.memory.load64 (shared.slotAt i type.size type.align) = i
    rw [hmemory, MpmcShared.slotAt, hbase, ← hstride]
    exact load64_initSlots (by rw [halign]; exact hfits.align) hle memory (hcap ▸ hi)
  have hinv : ∃ serves, Inv type s serves :=
    Interleaving.invariant_of_every_step (I := fun s => ∃ serves, Inv type s serves)
      (fun s a s' ⟨_, h⟩ hstep => h.step hstep) ⟨_, inv_start hfits henq hdeq hseq⟩ hrun
  obtain ⟨_, h⟩ := hinv
  exact h.safe

/-- One enqueuer from the call to the last store. -/
def enqueueCalls (thread : Nat) (value : List UInt8) : List (Nat × MpmcAction) :=
  [(thread, .tryEnqueue), (thread, .next false), (thread, .next false),
    (thread, .commitEnqueue value)] ++
      replicate (value.length + 1) (thread, .next false)

/-- One dequeuer until it has its position. -/
def dequeueCalls (thread : Nat) : List (Nat × MpmcAction) :=
  [(thread, .tryDequeue), (thread, .next false), (thread, .next false)]

def handle : ElementType := ⟨8, 8⟩

def handleBytes : List UInt8 := [1, 2, 3, 4, 5, 6, 7, 8]

/-- A backing as another ring has left it: the word 2 where the second slot begins. -/
def usedMemory : ByteMemory := fun a => if a = 64 + 192 + 16 then 2 else 0

theorem run_map_log_eq {actions}
    (h : (Interleaving.run (step type) (start shared) actions).map MpmcSystem.log = some log) :
    ∃ s, Interleaving.run (step type) (start shared) actions = some s ∧ s.log = log :=
  Option.map_eq_some_iff.mp h

theorem mpmcRing_run_safe_handle :
    ∃ shared s, mpmcRingInit handle usedMemory 64 2 8 8 1 = .ok shared ∧
      Interleaving.run (step handle) (start shared)
        (enqueueCalls 0 handleBytes ++ dequeueCalls 1 ++ [(1, .readSlot)]) = some s ∧
      Safe handle s := by
  have hlog : (Interleaving.run (step handle)
      (start ⟨64, 2, 8, 8, 1, .active, 0, 0, initSlots 64 8 8 2 usedMemory⟩)
        (enqueueCalls 0 handleBytes ++ dequeueCalls 1 ++ [(1, .readSlot)])).map MpmcSystem.log =
      some [.enqueued 0, .committed 0 handleBytes, .dequeued 0] := by
    decide +kernel
  obtain ⟨s, hs, -⟩ := run_map_log_eq hlog
  have hinit : mpmcRingInit handle usedMemory 64 2 8 8 1 =
      .ok ⟨64, 2, 8, 8, 1, .active, 0, 0, initSlots 64 8 8 2 usedMemory⟩ := rfl
  exact ⟨_, s, hinit, hs, mpmcRing_run_safe hinit rfl hs⟩

/-- With room for more than the element type, Init and the operations disagree about where
the second slot begins: a position is dequeued at which nothing was enqueued. -/
theorem dequeued_without_enqueue :
    ∃ shared s, mpmcRingInit handle usedMemory 64 2 16 8 1 = .ok shared ∧
      Interleaving.run (step handle) (start shared)
        (enqueueCalls 0 handleBytes ++ dequeueCalls 1 ++ dequeueCalls 2) = some s ∧
      ¬ Safe handle s := by
  have hlog : (Interleaving.run (step handle)
      (start ⟨64, 2, 16, 8, 1, .active, 0, 0, initSlots 64 16 8 2 usedMemory⟩)
        (enqueueCalls 0 handleBytes ++ dequeueCalls 1 ++ dequeueCalls 2)).map MpmcSystem.log =
      some [.enqueued 0, .committed 0 handleBytes, .dequeued 0, .dequeued 1] := by
    decide +kernel
  obtain ⟨s, hs, hlog⟩ := run_map_log_eq hlog
  refine ⟨_, s, rfl, hs, fun hsafe => ?_⟩
  obtain ⟨v, hv⟩ := hsafe.dequeuedCommitted 1 (by simp [hlog])
  simp [hlog] at hv

end Mino.Shm.MpmcSystem
