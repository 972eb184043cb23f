import Mathlib

/-! # Integers as bytes

Fixed-width little-endian words. The code reads back what it writes, whatever follows
it, and reads nothing but what it writes. -/

namespace LittleEndian

open List

/-- The lowest bytes of a number, the lowest first. -/
def encode : Nat → Nat → List UInt8
  | 0, _ => []
  | width + 1, n => UInt8.ofNat (n % 256) :: encode width (n / 256)

def value : List UInt8 → Nat
  | [] => 0
  | byte :: rest => byte.toNat + 256 * value rest

@[simp] theorem length_encode (width n : Nat) : (encode width n).length = width := by
  induction width generalizing n with
  | zero => rfl
  | succ width ih => rw [encode, length_cons, ih]

theorem value_encode {width n : Nat} (h : n < 256 ^ width) : value (encode width n) = n := by
  induction width generalizing n with
  | zero =>
    rw [encode, value]
    omega
  | succ width ih =>
    have hrest : n / 256 < 256 ^ width := by
      rw [Nat.pow_succ] at h
      omega
    rw [encode, value, ih hrest, UInt8.toNat_ofNat']
    omega

variable (bytes : List UInt8)

theorem value_lt : value bytes < 256 ^ bytes.length := by
  induction bytes with
  | nil => exact Nat.one_pos
  | cons byte rest ih =>
    have := byte.toNat_lt
    rw [value, length_cons, Nat.pow_succ]
    omega

theorem encode_value : encode bytes.length (value bytes) = bytes := by
  induction bytes with
  | nil => rfl
  | cons byte rest ih =>
    have hlt := byte.toNat_lt
    have hlow : (byte.toNat + 256 * value rest) % 256 = byte.toNat := by omega
    have hhigh : (byte.toNat + 256 * value rest) / 256 = value rest := by omega
    rw [length_cons, encode, value, hlow, hhigh, ih, UInt8.ofNat_toNat]

theorem toNat16_lt (x : UInt16) : x.toNat < 256 ^ 2 := x.toNat_lt
theorem toNat32_lt (x : UInt32) : x.toNat < 256 ^ 4 := x.toNat_lt
theorem toNat64_lt (x : UInt64) : x.toNat < 256 ^ 8 := x.toNat_lt

end LittleEndian
