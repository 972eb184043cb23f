import Mino.Lib.IntegerCodes

/-! # Byte-addressed memory

Words of 64 bits are stored little-endian. -/

abbrev ByteMemory := Nat → UInt8

namespace ByteMemory

open List LittleEndian

def store8 (memory : ByteMemory) (address : Nat) (byte : UInt8) : ByteMemory :=
  fun a => if a = address then byte else memory a

def bytes (memory : ByteMemory) (address count : Nat) : List UInt8 :=
  (List.range count).map fun i => memory (address + i)

def load64 (memory : ByteMemory) (address : Nat) : Nat :=
  LittleEndian.value (memory.bytes address 8)

def store64 (memory : ByteMemory) (address value : Nat) : ByteMemory := fun a =>
  if address ≤ a ∧ a < address + 8 then (LittleEndian.encode 8 value).getD (a - address) 0
  else memory a

theorem length_bytes (memory : ByteMemory) (address count : Nat) :
    (memory.bytes address count).length = count := by
  rw [bytes, length_map, length_range]

variable {memory memory' : ByteMemory} {address a : Nat}

theorem bytes_congr {count : Nat}
    (h : ∀ a, address ≤ a → a < address + count → memory a = memory' a) :
    memory.bytes address count = memory'.bytes address count := by
  refine map_congr_left fun i hi => ?_
  have := mem_range.mp hi
  exact h _ (by omega) (by omega)

theorem store8_self (memory : ByteMemory) (address : Nat) (byte : UInt8) :
    memory.store8 address byte address = byte := if_pos rfl

theorem store8_of_ne (byte : UInt8) (h : a ≠ address) :
    memory.store8 address byte a = memory a := if_neg h

theorem store64_of_lt (value : Nat) (h : a < address) :
    memory.store64 address value a = memory a := if_neg (by omega)

theorem store64_of_le (value : Nat) (h : address + 8 ≤ a) :
    memory.store64 address value a = memory a := if_neg (by omega)

section

variable (memory : ByteMemory)

theorem bytes_store64 (address value : Nat) :
    (memory.store64 address value).bytes address 8 = encode 8 value := by
  refine ext_getElem (by rw [length_bytes, length_encode]) fun i hi hi' => ?_
  rw [length_bytes] at hi
  simp only [bytes, getElem_map, getElem_range, store64]
  rw [if_pos (by omega), Nat.add_sub_cancel_left, getD_eq_getElem _ _ hi']

theorem load64_lt (address : Nat) : memory.load64 address < 2 ^ 64 := by
  have h := value_lt (memory.bytes address 8)
  rwa [length_bytes, show 256 ^ 8 = 2 ^ 64 by decide] at h

theorem load64_store64 (address : Nat) {value : Nat} (h : value < 2 ^ 64) :
    (memory.store64 address value).load64 address = value := by
  rw [load64, bytes_store64, value_encode (by simpa using h)]

end

theorem load64_congr (h : ∀ a, address ≤ a → a < address + 8 → memory a =
    memory' a) : memory.load64 address = memory'.load64 address := by
  rw [load64, load64, bytes_congr h]

end ByteMemory
