import Mino.Lib.IntegerCodes

/-! # Slices of byte strings and the little-endian fields in them

A slice that lies in a piece of an append is a slice of the piece. -/

namespace ByteString

open List

/-- The `count` bytes from `offset` on. -/
def slice (bytes : List UInt8) (offset count : Nat) : List UInt8 := (bytes.drop offset).take count

variable {offset count : Nat} {front bytes : List UInt8}

theorem length_slice (h : offset + count ≤ bytes.length) :
    (slice bytes offset count).length = count := by
  rw [slice, length_take, length_drop]
  omega

theorem slice_append (h : front.length ≤ offset) (rest : List UInt8) (count : Nat) :
    slice (front ++ rest) offset count = slice rest (offset - front.length) count := by
  rw [slice, drop_append, drop_eq_nil_of_le h, nil_append]
  rfl

theorem slice_append_add (front rest : List UInt8) (offset count : Nat) :
    slice (front ++ rest) (front.length + offset) count = slice rest offset count := by
  rw [slice_append (Nat.le_add_right _ _), Nat.add_sub_cancel_left]

theorem slice_append_of_le (h : offset + count ≤ front.length) (rest : List UInt8) :
    slice (front ++ rest) offset count = slice front offset count := by
  rw [slice, slice, drop_append_of_le_length (by omega),
    take_append_of_le_length (by rw [length_drop]; omega)]

theorem slice_left (h : front.length = count) (rest : List UInt8) :
    slice (front ++ rest) 0 count = front := by
  rw [slice, drop_zero, take_left' h]

theorem slice_append_slice {offset' count'} (h : offset' = offset + count) :
    slice bytes offset count ++ slice bytes offset' count' = slice bytes offset (count + count') := by
  rw [slice, slice, slice, take_add, drop_drop, h]

theorem slice_slice {i n} (h : i + n ≤ count) :
    slice (slice bytes offset count) i n = slice bytes (offset + i) n := by
  rw [slice, slice, slice, drop_take, drop_drop, take_take, Nat.min_eq_left (by omega)]

theorem slice_zero (bytes : List UInt8) (offset : Nat) : slice bytes offset 0 = [] := rfl

end ByteString

namespace LittleEndian

open ByteString

/-- The number in the `width` bytes from `offset` on. -/
def read (bytes : List UInt8) (offset width : Nat) : Nat := value (slice bytes offset width)

variable {width n : Nat}

theorem read_encode (h : n < 256 ^ width) (rest : List UInt8) :
    read (encode width n ++ rest) 0 width = n := by
  rw [read, slice_left (length_encode width n), value_encode h]

theorem read_encode_self (h : n < 256 ^ width) :
    read (encode width n) 0 width = n := by
  have hread := read_encode h []
  rwa [List.append_nil] at hread

variable {front : List UInt8} {offset width : Nat}

theorem read_append (h : front.length ≤ offset)
    (rest : List UInt8) (width : Nat) :
    read (front ++ rest) offset width = read rest (offset - front.length) width := by
  rw [read, slice_append h]
  rfl

theorem read_append_of_le
    (h : offset + width ≤ front.length) (rest : List UInt8) :
    read (front ++ rest) offset width = read front offset width := by
  rw [read, slice_append_of_le h]
  rfl

theorem read_lt (bytes : List UInt8) (offset width : Nat) : read bytes offset width < 256 ^ width :=
  Nat.lt_of_lt_of_le (value_lt _) (Nat.pow_le_pow_right (by decide) (List.length_take_le _ _))

theorem encode_read {bytes} (h : offset + width ≤ bytes.length) :
    encode width (read bytes offset width) = slice bytes offset width := by
  have hvalue := encode_value (slice bytes offset width)
  rwa [length_slice h] at hvalue

/-- A field that is written again, in front of the bytes behind it. -/
theorem encode_read_append {bytes rest offset width count}
    (h : offset + width ≤ bytes.length) (hrest : rest = slice bytes (offset + width) count) :
    encode width (read bytes offset width) ++ rest = slice bytes offset (count + width) := by
  rw [encode_read h, hrest, slice_append_slice rfl, Nat.add_comm]

section

variable (bytes : List UInt8) (offset : Nat)

theorem toNat16_read : (UInt16.ofNat (read bytes offset 2)).toNat = read bytes offset 2 :=
  UInt16.toNat_ofNat_of_lt (read_lt bytes offset 2)
theorem toNat32_read : (UInt32.ofNat (read bytes offset 4)).toNat = read bytes offset 4 :=
  UInt32.toNat_ofNat_of_lt (read_lt bytes offset 4)
theorem toNat64_read : (UInt64.ofNat (read bytes offset 8)).toNat = read bytes offset 8 :=
  UInt64.toNat_ofNat_of_lt (read_lt bytes offset 8)

end

end LittleEndian
