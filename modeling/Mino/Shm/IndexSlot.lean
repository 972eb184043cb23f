import Mino.Common.Status

/-! # Index slots

The slot of a channel describes one message. Its immutable metadata and its payload
handle are one value `μ` here; the sequence number, the state and the turn are words that
the processes of a channel access atomically. The checksum covers the metadata and the
sequence number. -/

namespace Mino.Shm

inductive SlotState where
  | free
  | reserved
  | writing
  | ready
  | retired
  | aborted
  | retiring
  deriving DecidableEq, Repr

structure IndexSlot (μ : Type) where
  content : μ
  sequenceNum : Nat
  immutableMetadataCrc : UInt32
  state : SlotState
  turn : Nat
  deriving DecidableEq, Repr

/-- The checksum of a sequence number and the metadata sealed with it. -/
abbrev SlotCrc (μ : Type) := Nat → μ → UInt32

inductive QueueFullPolicy where
  | fail
  | block
  | dropNewest
  | dropOldest
  | sample
  deriving DecidableEq, Repr

def isPowerOfTwo (n : Nat) : Bool := n &&& (n - 1) == 0

theorem exists_two_pow_of_isPowerOfTwo {n : Nat} (hn : n ≠ 0) (h : isPowerOfTwo n = true) :
    ∃ k, n = 2 ^ k := by
  have hand : n &&& (n - 1) = 0 := by simpa [isPowerOfTwo] using h
  exact (Nat.and_sub_one_eq_zero_iff_isPowerOfTwo hn).mp hand

theorem and_mask_eq_mod {capacity : Nat} (h : ∃ k, capacity = 2 ^ k) (pos : Nat) :
    pos &&& (capacity - 1) = pos % capacity := by
  obtain ⟨k, rfl⟩ := h
  exact Nat.and_two_pow_sub_one_eq_mod pos k

/-- Two positions less than a lap apart share no slot. -/
theorem mod_ne_of_lt {a b capacity : Nat} (hlt : a < b) (hnear : b < a + capacity) :
    b % capacity ≠ a % capacity := by
  intro h
  have hzero := Nat.sub_mod_eq_zero_of_mod_eq h
  rw [Nat.mod_eq_of_lt (by omega)] at hzero
  omega

end Mino.Shm
