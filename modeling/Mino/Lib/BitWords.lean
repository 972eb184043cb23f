import Mathlib

/-! # Bit sets packed into machine words

A list of `w`-bit words, lowest word first, read as one long bit string. Two
operations are needed by a sliding window: setting one bit, and moving the
whole string down by one position with the carries between words. -/

namespace BitWords

open List

variable {w i : Nat}

/-- Bit `i` of the packed string; positions past the last word read as clear. -/
def bit (ws : List (BitVec w)) (i : Nat) : Bool :=
  (ws.getD (i / w) 0#w).getLsbD (i % w)

def set (ws : List (BitVec w)) (i : Nat) : List (BitVec w) :=
  ws.modify (i / w) (· ||| (1#w <<< (i % w)))

/-- Every word moves down by one and takes the lowest bit of the word above it,
which is still the old one when it is read. -/
def shift : List (BitVec w) → List (BitVec w)
  | [] => []
  | [a] => [a >>> 1]
  | a :: b :: rest => ((a >>> 1) ||| ((b &&& 1#w) <<< (w - 1))) :: shift (b :: rest)

@[simp] theorem length_set (ws : List (BitVec w)) (i : Nat) : (set ws i).length = ws.length := by
  simp [set]

@[simp] theorem length_shift : ∀ ws : List (BitVec w), (shift ws).length = ws.length
  | [] => rfl
  | [_] => rfl
  | _ :: b :: rest => by simp [shift, length_shift (b :: rest)]

@[simp] theorem bit_nil (i : Nat) : bit ([] : List (BitVec w)) i = false := by simp [bit]

@[simp] theorem bit_replicate (n i : Nat) : bit (List.replicate n (0#w)) i = false := by
  simp only [bit, getD_eq_getElem?_getD, getElem?_replicate]
  split <;> simp

theorem bit_eq_false_of_le (hw : 0 < w) {ws : List (BitVec w)}
    (h : ws.length * w ≤ i) : bit ws i = false := by
  have hlen : ws.length ≤ i / w := (Nat.le_div_iff_mul_le hw).mpr h
  simp [bit, getElem?_eq_none hlen]

theorem bit_cons_low (a : BitVec w) (ws : List (BitVec w)) (h : i < w) :
    bit (a :: ws) i = a.getLsbD i := by
  simp [bit, Nat.div_eq_of_lt h, Nat.mod_eq_of_lt h]

theorem bit_cons_high (hw : 0 < w) (a : BitVec w) (ws : List (BitVec w)) (i : Nat) :
    bit (a :: ws) (i + w) = bit ws i := by
  simp [bit, Nat.add_div_right i hw]

theorem getLsbD_or_oneHot (a : BitVec w) {k m} (hm : m < w) :
    (a ||| (1#w <<< k)).getLsbD m = (a.getLsbD m || decide (m = k)) := by
  rw [BitVec.getLsbD_or, BitVec.getLsbD_shiftLeft, BitVec.getLsbD_one, Bool.eq_iff_iff]
  simp only [Bool.or_eq_true, Bool.and_eq_true, decide_eq_true_eq, Bool.not_eq_true',
    decide_eq_false_iff_not]
  constructor
  · rintro (h | ⟨⟨_, h1⟩, _, h2⟩)
    · exact Or.inl h
    · right; omega
  · rintro (h | h)
    · exact Or.inl h
    · right; omega

theorem bit_set (hw : 0 < w) (ws : List (BitVec w)) (h : i < ws.length * w) (j : Nat) :
    bit (set ws i) j = (bit ws j || decide (j = i)) := by
  have hi : i / w < ws.length := (Nat.div_lt_iff_lt_mul hw).mpr h
  simp only [bit, set, getD_eq_getElem?_getD, getElem?_modify]
  by_cases hq : i / w = j / w
  · -- the two positions share a word, so they agree exactly when the offsets do
    have he : j % w = i % w ↔ j = i := by
      constructor
      · intro he
        rw [← Nat.div_add_mod j w, ← Nat.div_add_mod i w, hq, he]
      · rintro rfl; rfl
    have hj : j / w < ws.length := hq ▸ hi
    rw [getElem?_eq_getElem hj]
    simp only [if_pos hq, Option.map_eq_map, Option.map_some, Option.getD_some,
      getLsbD_or_oneHot _ (Nat.mod_lt j hw), he]
  · have hne : ¬ j = i := by rintro rfl; exact hq rfl
    simp [hq, hne]

/-- The carry into the top bit of a word that has moved down. -/
theorem getLsbD_carry (hw : 0 < w) (a b : BitVec w) (hi : i < w) :
    ((a >>> 1) ||| ((b &&& 1#w) <<< (w - 1))).getLsbD i =
      if i + 1 < w then a.getLsbD (i + 1) else b.getLsbD 0 := by
  rw [BitVec.getLsbD_or, BitVec.getLsbD_ushiftRight, BitVec.getLsbD_shiftLeft,
    BitVec.getLsbD_and, BitVec.getLsbD_one]
  split
  · have : i < w - 1 := by omega
    simp [this, Nat.add_comm]
  have he : i = w - 1 := by omega
  subst he
  have ha : a.getLsbD (1 + (w - 1)) = false := BitVec.getLsbD_of_ge _ _ (by omega)
  simp [ha, hw, hi]

theorem bit_shift (hw : 0 < w) :
    ∀ (ws : List (BitVec w)) (i : Nat), bit (shift ws) i = bit ws (i + 1)
  | [], i => by simp [shift]
  | [a], i => by
    by_cases hi : i < w
    · rw [shift, bit_cons_low _ _ hi, BitVec.getLsbD_ushiftRight]
      by_cases hi' : i + 1 < w
      · rw [bit_cons_low _ _ hi', Nat.add_comm]
      obtain rfl : i + 1 = w := by omega
      have := bit_cons_high hw a [] 0
      rw [Nat.zero_add] at this
      rw [this, bit_nil, BitVec.getLsbD_of_ge _ _ (by omega)]
    · obtain ⟨j, rfl⟩ := Nat.exists_eq_add_of_le' (Nat.le_of_not_lt hi)
      rw [shift, bit_cons_high hw, Nat.add_right_comm, bit_cons_high hw]
      simp
  | a :: b :: rest, i => by
    by_cases hi : i < w
    · rw [shift, bit_cons_low _ _ hi, getLsbD_carry hw a b hi]
      split
      · rename_i hi'
        rw [bit_cons_low _ _ hi']
      obtain rfl : i + 1 = w := by omega
      have := bit_cons_high hw a (b :: rest) 0
      rw [Nat.zero_add] at this
      rw [this, bit_cons_low _ _ hw]
    · obtain ⟨j, rfl⟩ := Nat.exists_eq_add_of_le' (Nat.le_of_not_lt hi)
      rw [shift, bit_cons_high hw, Nat.add_right_comm, bit_cons_high hw, bit_shift hw (b :: rest) j]

end BitWords
