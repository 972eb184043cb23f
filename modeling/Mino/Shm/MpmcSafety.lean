import Mino.Shm.MpmcLayout

/-! # The MPMC ring is a bounded queue

At any time a slot serves one position: the oldest of its positions that has not been
released. Its sequence word tells whether the value of that position has been committed.
A position is handed out only if its slot serves it, so whoever holds a position has the
slot alone. -/

namespace Mino.Shm

open MpmcSystem

theorem word_succ_ne (n : Nat) : word n ≠ word (n + 1) := by
  unfold word
  omega

theorem word_lt (n : Nat) : word n < 2 ^ 64 := Nat.mod_lt _ (by decide)

variable {pos : Nat} {v : View} {l : MpmcLocal} {log : List MpmcEvent}

theorem word_eq_of_sequenceDiff {sequence} (hs : sequence < 2 ^ 64)
    (h : sequenceDiff sequence pos = 0) : sequence = word pos := by
  have hzero : BitVec.ofNat 64 sequence - BitVec.ofNat 64 pos = 0#64 :=
    BitVec.eq_of_toInt_eq (by rw [BitVec.toInt_zero]; exact h)
  have heq : BitVec.ofNat 64 sequence = BitVec.ofNat 64 pos := by
    simpa [BitVec.sub_eq_iff_eq_add] using hzero
  have hnat := congrArg BitVec.toNat heq
  rw [BitVec.toNat_ofNat, BitVec.toNat_ofNat, Nat.mod_eq_of_lt hs] at hnat
  exact hnat

/-- The position a process holds: handed out to it and not given on. -/
def MpmcLocal.holds : MpmcLocal → Option Nat
  | .enqueued pos | .writing pos _ _ | .dequeued pos | .reading pos _ => some pos
  | _ => none

def MpmcEvent.enqueuedPos : MpmcEvent → Option Nat
  | .enqueued pos => some pos
  | _ => none

def MpmcEvent.dequeuedPos : MpmcEvent → Option Nat
  | .dequeued pos => some pos
  | _ => none

/-- A bounded queue: positions are handed out in order and once, a read returns the one
value that was committed at its position, nobody shares a slot, and there are never more
positions under way than slots. -/
structure MpmcSystem.Safe (type : ElementType) (s : MpmcSystem) : Prop where
  enqueuedInOrder : s.log.filterMap MpmcEvent.enqueuedPos = List.range s.shared.enqueuePos
  dequeuedInOrder : s.log.filterMap MpmcEvent.dequeuedPos = List.range s.shared.dequeuePos
  dequeuedCommitted : ∀ p, .dequeued p ∈ s.log → ∃ v, .committed p v ∈ s.log
  committedOnce : ∀ p v v', .committed p v ∈ s.log → .committed p v' ∈ s.log → v = v'
  readCommitted : ∀ p v, .read p v ∈ s.log → .committed p v ∈ s.log
  exclusive : ∀ t t' p p', t ≠ t' → (s.threads t).holds = some p → (s.threads t').holds = some p' →
    slotForPos type s p ≠ slotForPos type s p'
  bounded : ((Finset.range s.shared.enqueuePos).filter fun p => .released p ∉ s.log).card ≤
    s.shared.capacity

namespace MpmcSystem

/-- What the protocol looks at: the cursors, the position each slot serves, its sequence
word and its element. -/
structure View where
  enq : Nat
  deq : Nat
  capacity : Nat
  size : Nat
  serves : Nat → Nat
  seq : Nat → Nat
  stored : Nat → List UInt8

namespace View

def slot (v : View) (pos : Nat) : Nat := pos % v.capacity

/-- The slot of the position serves it, and the value is not committed. -/
def Vacant (v : View) (pos : Nat) : Prop :=
  v.serves (v.slot pos) = pos ∧ v.seq (v.slot pos) = word pos

def Filled (v : View) (pos : Nat) : Prop :=
  v.serves (v.slot pos) = pos ∧ v.seq (v.slot pos) = word (pos + 1)

/-- What an operation has made sure of by now. -/
def LocalOk (v : View) : MpmcLocal → Prop
  | .idle => True
  | .enqueueProbe pos => pos ≤ v.enq
  | .enqueueClaim pos => pos ≤ v.enq ∧ (pos = v.enq → v.Vacant pos)
  | .enqueued pos => pos < v.enq ∧ v.Vacant pos
  | .writing pos value k => pos < v.enq ∧ v.Vacant pos ∧ value.length = v.size ∧ k ≤ v.size ∧
      (v.stored (v.slot pos)).take k = value.take k
  | .dequeueProbe pos => pos ≤ v.deq
  | .dequeueClaim pos => pos ≤ v.deq ∧ (pos = v.deq → v.Filled pos)
  | .dequeued pos => pos < v.deq ∧ v.Filled pos
  | .reading pos loaded => pos < v.deq ∧ v.Filled pos ∧ loaded.length ≤ v.size ∧
      loaded = (v.stored (v.slot pos)).take loaded.length

/-- The position whose slot that is about. -/
def subject (v : View) : MpmcLocal → Option Nat
  | .enqueueClaim pos => if pos = v.enq then some pos else none
  | .dequeueClaim pos => if pos = v.deq then some pos else none
  | l => l.holds

theorem LocalOk.serves (h : v.LocalOk l) (hs : v.subject l = some pos) :
    v.serves (v.slot pos) = pos := by
  cases l with
  | idle | enqueueProbe | dequeueProbe => cases hs
  | enqueueClaim p | dequeueClaim p =>
    rw [subject] at hs
    split at hs
    · cases hs
      exact (h.2 ‹_›).1
    · cases hs
  | enqueued p | dequeued p => cases hs; exact h.2.1
  | writing p | reading p => cases hs; exact h.2.1.1

theorem LocalOk.advance (h : v.LocalOk l) {enq deq} (henq : v.enq ≤ enq) (hdeq : v.deq ≤ deq) :
    LocalOk { v with enq, deq } l := by
  cases l with
  | idle => trivial
  | enqueueProbe pos => exact Nat.le_trans (m := v.enq) h henq
  | dequeueProbe pos => exact Nat.le_trans (m := v.deq) h hdeq
  | enqueueClaim pos =>
    exact ⟨Nat.le_trans h.1 henq, fun heq => h.2 (Nat.le_antisymm h.1 (heq ▸ henq))⟩
  | dequeueClaim pos =>
    exact ⟨Nat.le_trans h.1 hdeq, fun heq => h.2 (Nat.le_antisymm h.1 (heq ▸ hdeq))⟩
  | enqueued pos | writing pos value k => exact ⟨Nat.lt_of_lt_of_le h.1 henq, h.2⟩
  | dequeued pos | reading pos loaded => exact ⟨Nat.lt_of_lt_of_le h.1 hdeq, h.2⟩

/-- Views that differ in one slot only. -/
structure AgreeOff (i : Nat) (v v' : View) : Prop where
  enq : v'.enq = v.enq
  deq : v'.deq = v.deq
  capacity : v'.capacity = v.capacity
  size : v'.size = v.size
  serves : ∀ j, j ≠ i → v'.serves j = v.serves j
  seq : ∀ j, j ≠ i → v'.seq j = v.seq j
  stored : ∀ j, j ≠ i → v'.stored j = v.stored j

section

variable {i : Nat} {v' : View} (h : AgreeOff i v v')
include h

theorem AgreeOff.vacant (hne : v.slot pos ≠ i) (hv : v.Vacant pos) : v'.Vacant pos := by
  unfold Vacant slot at *
  rw [h.capacity, h.serves _ hne, h.seq _ hne]
  exact hv

theorem AgreeOff.filled (hne : v.slot pos ≠ i) (hv : v.Filled pos) : v'.Filled pos := by
  unfold Filled slot at *
  rw [h.capacity, h.serves _ hne, h.seq _ hne]
  exact hv

/-- A change of one slot does not concern an operation that is about another. -/
theorem LocalOk.frame (hl : v.LocalOk l)
    (hne : ∀ pos, v.subject l = some pos → v.slot pos ≠ i) : v'.LocalOk l := by
  have hstored : ∀ pos, v.slot pos ≠ i → v'.stored (v'.slot pos) = v.stored (v.slot pos) := by
    intro pos hpos
    unfold slot at *
    rw [h.capacity]
    exact h.stored _ hpos
  cases l with
  | idle => trivial
  | enqueueProbe pos => exact (h.enq ▸ hl : pos ≤ v'.enq)
  | dequeueProbe pos => exact (h.deq ▸ hl : pos ≤ v'.deq)
  | enqueueClaim pos =>
    refine ⟨h.enq ▸ hl.1, fun heq => ?_⟩
    rw [h.enq] at heq
    exact h.vacant (hne pos (if_pos heq)) (hl.2 heq)
  | dequeueClaim pos =>
    refine ⟨h.deq ▸ hl.1, fun heq => ?_⟩
    rw [h.deq] at heq
    exact h.filled (hne pos (if_pos heq)) (hl.2 heq)
  | enqueued pos => exact ⟨h.enq ▸ hl.1, h.vacant (hne pos rfl) hl.2⟩
  | writing pos value k =>
    refine ⟨h.enq ▸ hl.1, h.vacant (hne pos rfl) hl.2.1, h.size ▸ hl.2.2.1, h.size ▸ hl.2.2.2.1, ?_⟩
    rw [hstored pos (hne pos rfl)]
    exact hl.2.2.2.2
  | dequeued pos => exact ⟨h.deq ▸ hl.1, h.filled (hne pos rfl) hl.2⟩
  | reading pos loaded =>
    refine ⟨h.deq ▸ hl.1, h.filled (hne pos rfl) hl.2.1, h.size ▸ hl.2.2.1, ?_⟩
    rw [hstored pos (hne pos rfl)]
    exact hl.2.2.2

end

end View

variable (type : ElementType)

def view (s : MpmcSystem) (serves : Nat → Nat) : View where
  enq := s.shared.enqueuePos
  deq := s.shared.dequeuePos
  capacity := s.shared.capacity
  size := type.size
  serves
  seq := seq type s
  stored := stored type s

/-- The state of a slot: nothing committed and nothing dequeued at its position, or the
committed value in its storage. -/
def SlotOk (v : View) (log : List MpmcEvent) (i : Nat) : Prop :=
  (v.seq i = word (v.serves i) ∧ v.deq ≤ v.serves i ∧ ∀ x, .committed (v.serves i) x ∉ log) ∨
    (v.seq i = word (v.serves i + 1) ∧ v.serves i < v.enq ∧
      .committed (v.serves i) (v.stored i) ∈ log)

/-- The cursors and the slots. -/
structure Consistent (v : View) (log : List MpmcEvent) : Prop where
  index : ∀ i < v.capacity, v.slot (v.serves i) = i
  handed : ∀ p < v.enq, p ≤ v.serves (v.slot p)
  bound : ∀ i < v.capacity, v.serves i < v.deq + v.capacity
  deq_le : v.deq ≤ v.enq
  slots : ∀ i < v.capacity, SlotOk v log i
  released : ∀ p, p < v.serves (v.slot p) → .released p ∈ log

/-- What the log says. -/
structure Logged (v : View) (log : List MpmcEvent) : Prop where
  enqueued : log.filterMap MpmcEvent.enqueuedPos = List.range v.enq
  dequeued : log.filterMap MpmcEvent.dequeuedPos = List.range v.deq
  dequeuedCommitted : ∀ p, .dequeued p ∈ log → ∃ x, .committed p x ∈ log
  committedOnce : ∀ p x x', .committed p x ∈ log → .committed p x' ∈ log → x = x'
  committed_lt : ∀ p x, .committed p x ∈ log → p < v.enq
  readCommitted : ∀ p x, .read p x ∈ log → .committed p x ∈ log

structure Inv (s : MpmcSystem) (serves : Nat → Nat) : Prop where
  fits : s.shared.Fits type
  consistent : Consistent (view type s serves) s.log
  logged : Logged (view type s serves) s.log
  locals : ∀ t, (view type s serves).LocalOk (s.threads t)
  unique : ∀ t t' p, (s.threads t).holds = some p → (s.threads t').holds = some p → t = t'

variable {type}

/-! ### The slot at a cursor -/

theorem slot_lt (hcap : 0 < v.capacity) (pos : Nat) : v.slot pos < v.capacity :=
  Nat.mod_lt _ hcap

/-- A slot is at most one lap behind the positions that were handed out. -/
theorem Consistent.le_serves_add (h : Consistent v log) (hcap : 0 < v.capacity) (hpos : pos ≤ v.enq) :
    pos ≤ v.serves (v.slot pos) + v.capacity := by
  rcases Nat.lt_or_ge pos v.capacity with hlt | hge
  · omega
  have hslot : v.slot (pos - v.capacity) = v.slot pos := by
    unfold View.slot
    rw [← Nat.mod_eq_sub_mod hge]
  have := h.handed (pos - v.capacity) (by omega)
  rw [hslot] at this
  omega

theorem serves_mod (h : Consistent v log) (hcap : 0 < v.capacity) (pos : Nat) :
    v.serves (v.slot pos) % v.capacity = pos % v.capacity :=
  h.index _ (slot_lt hcap pos)

/-- Numbers of one residue that are closer than a lap of words. -/
theorem eq_of_word_eq {a b} (h : word a = word b) (hab : a < b + 2 ^ 64)
    (hba : b < a + 2 ^ 64) : a = b := by
  unfold word at h
  omega

theorem succ_mod_ne {a b c} (hc : 2 ≤ c) (h : a % c = b % c) : a ≠ b + 1 := by
  rintro rfl
  have hone := Nat.sub_mod_eq_zero_of_mod_eq h
  rw [Nat.add_sub_cancel_left, Nat.mod_eq_of_lt hc] at hone
  cases hone

section

variable (h : Consistent v log) (hcap : 2 ≤ v.capacity) (hmax : v.capacity ≤ 2 ^ 32)
include h hcap hmax

/-- A slot that looks free for the next position to hand out is free for it. -/
theorem Consistent.vacant_of_word (hseq : v.seq (v.slot v.enq) = word v.enq) : v.Vacant v.enq := by
  have hlt := slot_lt (v := v) (by omega) v.enq
  have hupper := h.bound _ hlt
  have hlower := h.le_serves_add (by omega) (Nat.le_refl v.enq)
  have hmod := serves_mod h (by omega) v.enq
  have hle := h.deq_le
  have hfar : (2 : Nat) ^ 32 + 1 < 2 ^ 64 := by decide
  rcases h.slots _ hlt with ⟨hword, -, -⟩ | ⟨hword, -, -⟩
  · rw [hword] at hseq
    exact ⟨eq_of_word_eq hseq (by omega) (by omega), by rw [hword, hseq]⟩
  rw [hword] at hseq
  have heq := eq_of_word_eq hseq (by omega) (by omega)
  exact absurd heq.symm (succ_mod_ne hcap hmod.symm)

/-- A slot that looks filled for the next position to dequeue is filled for it. -/
theorem Consistent.filled_of_word (hseq : v.seq (v.slot v.deq) = word (v.deq + 1)) :
    v.Filled v.deq := by
  have hlt := slot_lt (v := v) (by omega) v.deq
  have hupper := h.bound _ hlt
  have hlower := h.le_serves_add (by omega) h.deq_le
  have hmod := serves_mod h (by omega) v.deq
  have hfar : (2 : Nat) ^ 32 + 1 < 2 ^ 64 := by decide
  rcases h.slots _ hlt with ⟨hword, -, -⟩ | ⟨hword, -, -⟩
  · rw [hword] at hseq
    have heq := eq_of_word_eq hseq (by omega) (by omega)
    exact absurd heq (succ_mod_ne hcap hmod)
  · have hword' := hseq
    rw [hword] at hseq
    have heq := eq_of_word_eq hseq (by omega) (by omega)
    exact ⟨by omega, hword'⟩

end

/-- A filled slot holds the committed value, of a position that was handed out. -/
theorem Consistent.committed_of_filled (h : Consistent v log) (hcap : 0 < v.capacity)
    (hf : v.Filled pos) : pos < v.enq ∧ .committed pos (v.stored (v.slot pos)) ∈ log := by
  obtain ⟨hserves, hseq⟩ := hf
  rcases h.slots _ (slot_lt hcap pos) with ⟨hword, -, -⟩ | ⟨-, hlt, hcom⟩
  · rw [hserves, hseq] at hword
    exact absurd hword.symm (word_succ_ne pos)
  · rw [hserves] at hlt hcom
    exact ⟨hlt, hcom⟩

theorem Consistent.fresh_of_vacant (h : Consistent v log) (hcap : 0 < v.capacity)
    (hv : v.Vacant pos) : v.deq ≤ pos ∧ ∀ x, .committed pos x ∉ log := by
  obtain ⟨hserves, hseq⟩ := hv
  rcases h.slots _ (slot_lt hcap pos) with ⟨-, hle, hfresh⟩ | ⟨hword, -, -⟩
  · rw [hserves] at hle hfresh
    exact ⟨hle, hfresh⟩
  · rw [hserves, hseq] at hword
    exact absurd hword (word_succ_ne pos)

end MpmcSystem

end Mino.Shm
