import Mino.Wire.Frame

/-! # CRC32C

The checksum as it is computed on the wire and by the recorder: from the table, by the CRC
instructions of the processor on words of 8, 4, 2 and 1 bytes, and bit by bit. -/

namespace Mino.Wire

open List

/-- The remainder takes a bit of the message. -/
def crc32cPut (state : UInt32) (bit : Bool) : UInt32 :=
  (state >>> 1) ^^^ if (state &&& 1 != 0) ^^ bit then 0x82f63b78 else 0

/-- The lowest bits of a word, the lowest first. -/
def lowBits : Nat → UInt32 → List Bool
  | 0, _ => []
  | n + 1, word => (word &&& 1 != 0) :: lowBits n (word >>> 1)

/-- The remainder takes the bits of a byte. -/
def crc32cOctet (state : UInt32) (byte : UInt8) : UInt32 :=
  (lowBits 8 byte.toUInt32).foldl crc32cPut state

/-- CRC-32C by its definition: complement, reflected division, complement. -/
def crc32cBitwise (bytes : Bytes) : UInt32 := bytes.foldl crc32cOctet 0xffffffff ^^^ 0xffffffff

/-- The words that a hardware function loads: those of 8 bytes in a loop, then one of 4, of 2 and
of 1 if that many bytes remain. -/
def loads (bytes : Bytes) : List Bytes :=
  if 8 ≤ bytes.length then bytes.take 8 :: loads (bytes.drop 8)
  else if 4 ≤ bytes.length then bytes.take 4 :: loads (bytes.drop 4)
  else if 2 ≤ bytes.length then bytes.take 2 :: loads (bytes.drop 2)
  else if 1 ≤ bytes.length then [bytes] else []
termination_by bytes.length
decreasing_by all_goals rw [length_drop]; omega

/-- `UpdateSse42`, `UpdateArmCrc` and their copying forms: a word is copied as it was loaded, and
the instruction takes its bytes from the lowest on. -/
def updateHardware (copy : Bool) (state : UInt32) (bytes : Bytes) : UInt32 × Bytes :=
  (loads bytes).foldl (fun s word =>
    let value := LittleEndian.encode word.length (LittleEndian.value word)
    (value.foldl crc32cOctet s.1, s.2 ++ if copy then value else [])) (state, [])

def copyAndUpdateSoftware (state : UInt32) (bytes : Bytes) : UInt32 × Bytes :=
  bytes.foldl (fun s byte => (crc32cEntry ((s.1 ^^^ byte.toUInt32) &&& 0xff) ^^^ (s.1 >>> 8),
    s.2 ++ [byte])) (state, [])

/-- A call of `Update` or `CopyAndUpdate`, with or without the instructions. -/
structure Crc32cCall where
  hardware : Bool
  copy : Bool
  bytes : Bytes

/-- The state behind the call, and what it writes to its output. -/
def Crc32cCall.run (state : UInt32) (call : Crc32cCall) : UInt32 × Bytes :=
  if call.hardware then updateHardware call.copy state call.bytes
  else if call.copy then copyAndUpdateSoftware state call.bytes
  else (crc32cUpdate state call.bytes, [])

/-- `PayloadCrc32c` of the topic writer: the eight shifts of a table entry, on the whole state. -/
def payloadCrc32c (payload : Bytes) : UInt32 :=
  payload.foldl (fun state byte => crc32cEntry (state ^^^ byte.toUInt32)) 0xffffffff ^^^ 0xffffffff

/-- `RecorderPayloadCrc32c`, with a table and a loop of its own. -/
def recorderPayloadCrc32c (payload : Bytes) : UInt32 :=
  crc32cUpdate 0xffffffff payload ^^^ 0xffffffff

/-! ### One byte -/

theorem and_one_bne_zero (word : UInt32) : (word &&& 1 != 0) = word.toNat.testBit 0 := by
  rw [Bool.eq_iff_iff, bne_iff_ne, ne_eq, ← UInt32.toNat_inj]
  simp

theorem crc32cPut_xor (state word : UInt32) : crc32cPut (state ^^^ word) false =
    crc32cPut state (word &&& 1 != 0) ^^^ (word >>> 1) := by
  simp only [crc32cPut, and_one_bne_zero, UInt32.toNat_xor, Nat.testBit_xor, Bool.xor_false,
    UInt32.shiftRight_xor]
  ac_rfl

theorem iterate_crc32cPut (n : Nat) (state word : UInt32) :
    (crc32cPut · false)^[n] (state ^^^ word) =
      (lowBits n word).foldl crc32cPut state ^^^ (fun v : UInt32 => v >>> 1)^[n] word := by
  induction n generalizing state word with
  | zero => rfl
  | succ n ih =>
    rw [Function.iterate_succ_apply, crc32cPut_xor, ih]
    rfl

/-- The lowest bits all go in before the shifts. -/
theorem crc32cEntry_xor (state word : UInt32) : crc32cEntry (state ^^^ word) =
    (lowBits 8 word).foldl crc32cPut state ^^^ (word >>> 8) := by
  have hrest : (fun v : UInt32 => v >>> 1)^[8] word = word >>> 8 := by
    rw [← UInt32.toNat_inj]
    simp [← Nat.shiftRight_add]
  have hentry : crc32cEntry (state ^^^ word) = (crc32cPut · false)^[8] (state ^^^ word) := by
    simp only [crc32cEntry, crc32cPut, Bool.xor_false, bne_iff_ne]
    rfl
  rw [hentry, iterate_crc32cPut, hrest]

variable (byte : UInt8)

theorem byte_shiftRight : byte.toUInt32 >>> 8 = 0 := by
  rw [← UInt32.toNat_inj]
  simp [Nat.shiftRight_eq_div_pow, byte.toNat_lt]

variable (state : UInt32)

theorem crc32cEntry_byte : crc32cEntry (state ^^^ byte.toUInt32) = crc32cOctet state byte := by
  rw [crc32cEntry_xor, byte_shiftRight, UInt32.xor_zero]
  rfl

/-- From the table: the entry of the lowest byte, and the rest of the state moved down. -/
theorem crc32cEntry_table :
    crc32cEntry ((state ^^^ byte.toUInt32) &&& 0xff) ^^^ (state >>> 8) = crc32cOctet state byte := by
  rw [← crc32cEntry_byte]
  have hrest : state >>> 8 = (state ^^^ byte.toUInt32) >>> 8 := by
    rw [UInt32.shiftRight_xor, byte_shiftRight, UInt32.xor_zero]
  rw [hrest]
  generalize state ^^^ byte.toUInt32 = x
  have hlow : lowBits 8 (x &&& 0xff) = lowBits 8 x := by
    simp [lowBits, and_one_bne_zero]
    and_intros <;> exact fun _ => rfl
  have hclear : (x &&& 0xff) >>> 8 = 0 := by
    rw [UInt32.shiftRight_and]
    exact UInt32.and_zero
  have hentry := crc32cEntry_xor 0
  simp only [UInt32.zero_xor] at hentry
  rw [hentry, hentry, hlow, hclear, UInt32.xor_zero]

/-! ### Whole messages -/

variable (bytes : Bytes)

theorem crc32cUpdate_eq : crc32cUpdate state bytes = bytes.foldl crc32cOctet state := by
  simp only [crc32cUpdate, crc32cEntry_table]

theorem foldl_copying {α : Type} (f : UInt32 → α → UInt32) (g : α → Bytes) (xs : List α)
    (state : UInt32) (out : Bytes) : xs.foldl (fun s x => (f s.1 x, s.2 ++ g x)) (state, out) =
      (xs.foldl f state, out ++ xs.flatMap g) := by
  induction xs generalizing state out with
  | nil => simp
  | cons x xs ih => simp [ih]

theorem copyAndUpdateSoftware_eq :
    copyAndUpdateSoftware state bytes = (bytes.foldl crc32cOctet state, bytes) := by
  simp only [copyAndUpdateSoftware, crc32cEntry_table, foldl_copying]
  simp

theorem flatten_loads : (loads bytes).flatten = bytes := by
  fun_induction loads bytes with
  | case1 bytes _ ih | case2 bytes _ _ ih | case3 bytes _ _ _ ih =>
    rw [flatten_cons, ih, take_append_drop]
  | case4 bytes => simp
  | case5 bytes _ _ _ h => simpa using h

theorem updateHardware_eq (copy : Bool) (state : UInt32) (bytes : Bytes) :
    updateHardware copy state bytes =
      (bytes.foldl crc32cOctet state, if copy then bytes else []) := by
  simp only [updateHardware, LittleEndian.encode_value, foldl_copying]
  rw [← foldl_flatten, flatten_loads]
  cases copy with
  | false => simp
  | true => simp [flatMap_id', flatten_loads]

theorem Crc32cCall.run_eq (call : Crc32cCall) : call.run state =
    (call.bytes.foldl crc32cOctet state, if call.copy then call.bytes else []) := by
  unfold Crc32cCall.run
  split
  · exact updateHardware_eq ..
  split
  · exact copyAndUpdateSoftware_eq ..
  · rw [crc32cUpdate_eq]

/-- However a message is split into calls, whichever functions they use, and in all copies of
the code, the result is CRC-32C as it is defined, and what is copied is the message. -/
theorem crc32c_agrees (bytes : Bytes) (calls : List Crc32cCall) :
    crc32cFinish (calls.foldl (fun state call => (call.run state).1) 0xffffffff) =
        crc32cBitwise (calls.flatMap (·.bytes)) ∧
      (∀ state (call : Crc32cCall), (call.run state).2 = if call.copy then call.bytes else []) ∧
      crc32c bytes = crc32cBitwise bytes ∧ payloadCrc32c bytes = crc32cBitwise bytes ∧
      recorderPayloadCrc32c bytes = crc32cBitwise bytes := by
  refine ⟨?_, fun state call => ?_, ?_, ?_, ?_⟩
  · simp only [Crc32cCall.run_eq]
    rw [crc32cBitwise, foldl_flatMap]
    rfl
  · rw [Crc32cCall.run_eq]
  · rw [crc32c, crc32cUpdate_eq]
    rfl
  · simp only [payloadCrc32c, crc32cEntry_byte]
    rfl
  · rw [recorderPayloadCrc32c, crc32cUpdate_eq]
    rfl

end Mino.Wire
