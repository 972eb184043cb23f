import Mino.Lib.IntegerCodes

/-! # Big-endian fields at fixed offsets

A number is written with its highest byte first; a field is read as the number in a range
of a byte string. Reading behind a piece of an append is reading the rest, and a byte
string is the fields it holds, one behind the other. -/

namespace BigEndian

open List

def encode (width n : Nat) : List UInt8 := (LittleEndian.encode width n).reverse

variable (bytes : List UInt8) {width n : Nat}

def value : Nat := LittleEndian.value bytes.reverse

@[simp] theorem length_encode (width n : Nat) : (encode width n).length = width := by
  simp [encode]

theorem value_encode (h : n < 256 ^ width) : value (encode width n) = n := by
  rw [value, encode, reverse_reverse, LittleEndian.value_encode h]

theorem value_lt : value bytes < 256 ^ bytes.length := by
  have h := LittleEndian.value_lt bytes.reverse
  rwa [length_reverse] at h

theorem encode_value : encode bytes.length (value bytes) = bytes := by
  rw [encode, value, ← length_reverse, LittleEndian.encode_value, reverse_reverse]

/-- The number in the `width` bytes from `offset` on. -/
def read (offset width : Nat) : Nat := value ((bytes.drop offset).take width)

theorem read_lt (offset width : Nat) : read bytes offset width < 256 ^ width := by
  refine Nat.lt_of_lt_of_le (value_lt _) (Nat.pow_le_pow_right (by decide) ?_)
  exact length_take_le ..

theorem read_encode (h : n < 256 ^ width) (rest : List UInt8) :
    read (encode width n ++ rest) 0 width = n := by
  rw [read, drop_zero, take_left' (length_encode width n), value_encode h]

theorem read_append {front offset} (h : front.length ≤ offset) (rest : List UInt8) (width : Nat) :
    read (front ++ rest) offset width = read rest (offset - front.length) width := by
  rw [read, drop_append, drop_eq_nil_of_le h, nil_append]
  rfl

/-- A byte string up to the end of a field is what is before the field, and the field. -/
theorem take_eq_append_encode (offset width : Nat) (h : offset + width ≤ bytes.length) :
    bytes.take (offset + width) = bytes.take offset ++ encode width (read bytes offset width) := by
  have hlen : ((bytes.drop offset).take width).length = width := by
    rw [length_take, length_drop]
    omega
  have hfield := encode_value ((bytes.drop offset).take width)
  rw [hlen] at hfield
  rw [take_add, read, hfield]

end BigEndian
