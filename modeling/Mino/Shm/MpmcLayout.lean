import Mino.Shm.MpmcRing

/-! # The slots of an MPMC ring in memory

Slots do not overlap, so a store to one slot changes the sequence or the storage of that
slot and of no other. Init and the operations find a slot at the same address if the
element size given to Init leads to the stride of the element type. -/

namespace Mino.Shm

open List ByteMemory

theorem le_round_up {n m} (hm : 0 < m) : n ≤ (n + m - 1) / m * m := by
  have hdiv := Nat.div_add_mod (n + m - 1) m
  have hmod := Nat.mod_lt (n + m - 1) hm
  rw [Nat.mul_comm] at hdiv
  omega

variable {elemAlign i j k : Nat}

theorem eight_le_storageOffset (h : 0 < elemAlign) :
    8 ≤ mpmcRingStorageOffset elemAlign := le_round_up h

theorem mpmcRingSlotStride_ge (elemSize : Nat) (h : 0 < elemAlign) :
    mpmcRingStorageOffset elemAlign + elemSize ≤ mpmcRingSlotStride elemSize elemAlign := by
  rw [mpmcRingSlotStride, if_neg (by omega)]
  refine le_round_up ?_
  rw [mpmcRingSlotAlignment]
  split <;> omega

/-- What Init checks, as far as the operations depend on it. -/
structure MpmcShared.Fits (type : ElementType) (shared : MpmcShared) : Prop where
  align : 0 < type.align
  capacity : ∃ k, shared.capacity = 2 ^ k
  two_le : 2 ≤ shared.capacity
  le : shared.capacity ≤ 2 ^ 32

namespace MpmcSystem

variable (type : ElementType)

/-- The sequence word of slot `i`. -/
def seq (s : MpmcSystem) (i : Nat) : Nat :=
  s.shared.memory.load64 (s.shared.slotAt i type.size type.align)

/-- The element bytes of slot `i`. -/
def stored (s : MpmcSystem) (i : Nat) : List UInt8 :=
  s.shared.memory.bytes
    (s.shared.slotAt i type.size type.align + mpmcRingStorageOffset type.align) type.size

variable {type} {s : MpmcSystem}

theorem slotForPos_eq (h : s.shared.Fits type) (pos : Nat) :
    slotForPos type s pos = s.shared.slotAt (pos % s.shared.capacity) type.size type.align := by
  rw [slotForPos, and_mask_eq_mod h.capacity]

section

variable (type : ElementType) (shared : MpmcShared)

theorem slotAt_add_stride_le (h : i < j) :
    shared.slotAt i type.size type.align + mpmcRingSlotStride type.size type.align ≤
      shared.slotAt j type.size type.align := by
  have hmul : (i + 1) * mpmcRingSlotStride type.size type.align ≤ j * mpmcRingSlotStride type.size
      type.align := Nat.mul_le_mul_right _ h
  rw [Nat.add_mul, Nat.one_mul] at hmul
  unfold MpmcShared.slotAt
  omega

theorem slots_disjoint {a b} (hij : i ≠ j) (ha : a < mpmcRingSlotStride type.size type.align)
    (hb : b < mpmcRingSlotStride type.size type.align) :
    shared.slotAt i type.size type.align + a ≠ shared.slotAt j type.size type.align + b := by
  rcases Nat.lt_or_gt_of_ne hij with h | h
  · have := slotAt_add_stride_le type shared h
    omega
  · have := slotAt_add_stride_le type shared h
    omega

end

theorem slotAt_inj (h : s.shared.Fits type) (heq : s.shared.slotAt i type.size type.align =
    s.shared.slotAt j type.size type.align) : i = j := by
  have hstride := mpmcRingSlotStride_ge type.size h.align
  have hoff := eight_le_storageOffset h.align
  by_contra hne
  exact slots_disjoint type s.shared hne (a := 0) (b := 0) (by omega) (by omega)
    (by simpa using heq)

/-- The address of an access inside slot `i`, away from the range of another access. -/
theorem memory_store64_outside (memory : ByteMemory) {address value a}
    (h : a < address ∨ address + 8 ≤ a) : memory.store64 address value a = memory a := by
  rcases h with h | h
  · exact store64_of_lt value h
  · exact store64_of_le value h

section

variable (h : s.shared.Fits type)
include h

theorem seq_store64 (i : Nat) {value} (hv : value < 2 ^ 64)
    (j : Nat) : seq type (s.store64 (s.shared.slotAt i type.size type.align) value) j =
      if j = i then value else seq type s j := by
  have hstride := mpmcRingSlotStride_ge type.size h.align
  have hoff := eight_le_storageOffset h.align
  split
  · rename_i hji
    rw [hji]
    exact load64_store64 _ _ hv
  rename_i hji
  refine load64_congr fun a hle hlt => memory_store64_outside _ ?_
  change s.shared.slotAt j type.size type.align ≤ a at hle
  change a < s.shared.slotAt j type.size type.align + 8 at hlt
  rcases Nat.lt_or_gt_of_ne hji with hlt' | hgt
  · have := slotAt_add_stride_le type s.shared hlt'
    omega
  · have := slotAt_add_stride_le type s.shared hgt
    omega

theorem stored_store64 (i value j : Nat) :
    stored type (s.store64 (s.shared.slotAt i type.size type.align) value) j = stored type s j := by
  have hstride := mpmcRingSlotStride_ge type.size h.align
  have hoff := eight_le_storageOffset h.align
  refine bytes_congr fun a hle hlt => memory_store64_outside _ ?_
  change s.shared.slotAt j type.size type.align + _ ≤ a at hle
  change a < s.shared.slotAt j type.size type.align + _ + _ at hlt
  rcases Nat.lt_trichotomy j i with hji | hji | hji
  · have := slotAt_add_stride_le type s.shared hji
    omega
  · subst hji
    omega
  · have := slotAt_add_stride_le type s.shared hji
    omega

theorem seq_store8 (hk : k < type.size) (byte : UInt8) (j : Nat) :
    seq type (s.store8 (s.shared.slotAt i type.size type.align +
      mpmcRingStorageOffset type.align + k) byte) j = seq type s j := by
  have hstride := mpmcRingSlotStride_ge type.size h.align
  have hoff := eight_le_storageOffset h.align
  refine load64_congr fun a hle hlt => store8_of_ne byte ?_
  change s.shared.slotAt j type.size type.align ≤ a at hle
  change a < s.shared.slotAt j type.size type.align + 8 at hlt
  rcases Nat.lt_trichotomy j i with hji | hji | hji
  · have := slotAt_add_stride_le type s.shared hji
    omega
  · subst hji
    omega
  · have := slotAt_add_stride_le type s.shared hji
    omega

theorem stored_store8_of_ne (hk : k < type.size) (byte : UInt8)
    (hji : j ≠ i) : stored type (s.store8 (s.shared.slotAt i type.size type.align +
      mpmcRingStorageOffset type.align + k) byte) j = stored type s j := by
  have hstride := mpmcRingSlotStride_ge type.size h.align
  refine bytes_congr fun a hle hlt => store8_of_ne byte ?_
  change s.shared.slotAt j type.size type.align + _ ≤ a at hle
  change a < s.shared.slotAt j type.size type.align + _ + _ at hlt
  rcases Nat.lt_or_gt_of_ne hji with hlt' | hgt
  · have := slotAt_add_stride_le type s.shared hlt'
    omega
  · have := slotAt_add_stride_le type s.shared hgt
    omega

end

/-- The first bytes of an element, one more at a time. -/
theorem take_stored_store8 (hk : k < type.size) (byte : UInt8) :
    (stored type (s.store8 (s.shared.slotAt i type.size type.align +
      mpmcRingStorageOffset type.align + k) byte) i).take (k + 1) =
        (stored type s i).take k ++ [byte] := by
  refine ext_getElem (by simp [stored, bytes]; omega) fun n hn hn' => ?_
  simp only [stored, bytes, getElem_take, getElem_map, getElem_range]
  rw [length_append, length_singleton, length_take, stored, length_bytes] at hn'
  rcases Nat.lt_or_ge n k with hlt | hge
  · rw [getElem_append_left (by simp; omega)]
    simp only [getElem_take, getElem_map, getElem_range]
    exact store8_of_ne byte (by
      change s.shared.slotAt i type.size type.align + _ + n ≠ _
      omega)
  · obtain rfl : n = k := by omega
    rw [getElem_append_right (by simp)]
    simp only [getElem_singleton]
    exact store8_self _ _ _

theorem length_stored (s : MpmcSystem) (i : Nat) : (stored type s i).length = type.size :=
  length_bytes _ _ _

theorem take_stored_succ (hk : k < type.size) :
    (stored type s i).take (k + 1) = (stored type s i).take k ++ [s.shared.memory
        (s.shared.slotAt i type.size type.align + mpmcRingStorageOffset type.align + k)] := by
  rw [take_succ_eq_append_getElem (by rw [length_stored]; exact hk)]
  simp [stored, bytes]

end MpmcSystem

/-! ### Initialisation -/

theorem load64_initSlots {base elemSize} (halign : 0 < elemAlign) {count}
    (hcount : count ≤ 2 ^ 64) (memory : ByteMemory) (hi : i < count) :
    (initSlots base elemSize elemAlign count memory).load64
      (base + kMpmcRingControlBlockSize + i * mpmcRingSlotStride elemSize elemAlign) = i := by
  have hstride := mpmcRingSlotStride_ge elemSize halign
  have hoff := eight_le_storageOffset halign
  induction count with
  | zero => omega
  | succ count ih =>
    rw [initSlots]
    rcases Nat.lt_or_ge i count with hlt | hge
    · refine Eq.trans ?_ (ih (Nat.le_of_succ_le hcount) hlt)
      refine load64_congr fun a _ hlt' => store64_of_lt _ ?_
      have hmul : (i + 1) * mpmcRingSlotStride elemSize elemAlign ≤ count * mpmcRingSlotStride
          elemSize elemAlign := Nat.mul_le_mul_right _ hlt
      rw [Nat.add_mul, Nat.one_mul] at hmul
      omega
    · obtain rfl : i = count := by omega
      exact load64_store64 _ _ hcount

theorem mpmcRingInit_ok {type memory base capacity elemSize generation shared}
    (h : mpmcRingInit type memory base capacity elemSize elemAlign generation = .ok shared) :
    shared.Fits type ∧ elemAlign = type.align ∧ shared.base = base ∧ shared.capacity = capacity ∧
      shared.enqueuePos = 0 ∧ shared.dequeuePos = 0 ∧
      shared.memory = initSlots base elemSize elemAlign capacity memory := by
  simp only [mpmcRingInit, Result.unless_eq_ok] at h
  obtain ⟨-, -, -, hcap, hmax, -, halign, -, -, h⟩ := h
  cases h
  simp only [not_or, Bool.not_eq_true', Bool.not_eq_false] at hcap halign
  obtain ⟨htwo, hpow⟩ := hcap
  obtain ⟨hsame, hzero, -⟩ := halign
  have hpos : capacity ≠ 0 := by omega
  refine ⟨⟨?_, exists_two_pow_of_isPowerOfTwo hpos hpow, Nat.not_lt.mp htwo, Nat.not_lt.mp hmax⟩,
    not_not.mp hsame, rfl, rfl, rfl, rfl, rfl⟩
  rw [← not_not.mp hsame]
  exact Nat.pos_of_ne_zero hzero

end Mino.Shm
