import Mino.Lib.ByteMemory
import Mino.Lib.Interleaving
import Mino.Shm.IndexSlot

/-! # The MPMC ring

A bounded queue in shared memory for any number of enqueuers and dequeuers. The ring is a
control block and, behind it, an array of slots: a sequence word and room for one
element. An element is the bytes of its object representation.

The cursors count without wrapping. Sequence words are 64 bits wide, and so are the
differences that are taken of them. -/

namespace Mino.Shm

/-- `sizeof(T)` and `alignof(T)`. -/
structure ElementType where
  size : Nat
  align : Nat
  deriving DecidableEq, Repr

def kMpmcRingControlBlockSize : Nat := 3 * 64

def kMpmcRingControlBlockAlign : Nat := 64

def mpmcRingSlotAlignment (elemAlign : Nat) : Nat := if elemAlign < 8 then 8 else elemAlign

/-- Where the storage of a slot begins, behind its sequence word. -/
def mpmcRingStorageOffset (elemAlign : Nat) : Nat := (8 + elemAlign - 1) / elemAlign * elemAlign

def mpmcRingSlotStride (elemSize elemAlign : Nat) : Nat :=
  if elemAlign = 0 then 0
  else
    let slotAlign := mpmcRingSlotAlignment elemAlign
    (mpmcRingStorageOffset elemAlign + elemSize + slotAlign - 1) / slotAlign * slotAlign

inductive MpmcRingState where
  | inactive
  | active
  | retired
  deriving DecidableEq, Repr

/-- The control block, and the rest of the memory by address. -/
structure MpmcShared where
  base : Nat
  capacity : Nat
  elemSize : Nat
  elemAlign : Nat
  generation : Nat
  activeState : MpmcRingState
  enqueuePos : Nat
  dequeuePos : Nat
  memory : ByteMemory

/-- The address of slot `index` for a given element size and alignment. -/
def MpmcShared.slotAt (shared : MpmcShared) (index elemSize elemAlign : Nat) : Nat :=
  shared.base + kMpmcRingControlBlockSize + index * mpmcRingSlotStride elemSize elemAlign

/-- Slot `i` starts free for position `i`. -/
def initSlots (base elemSize elemAlign : Nat) : Nat → ByteMemory → ByteMemory
  | 0, memory => memory
  | count + 1, memory =>
    (initSlots base elemSize elemAlign count memory).store64
      (base + kMpmcRingControlBlockSize + count * mpmcRingSlotStride elemSize elemAlign) count

def mpmcRingInit (type : ElementType) (memory : ByteMemory) (base capacity elemSize elemAlign
    generation : Nat) : Result MpmcShared :=
  if base = 0 then .error (.error .invalidArgument "shm_base must not be null")
  else if base % kMpmcRingControlBlockAlign ≠ 0 then
    .error (.error .invalidArgument
      "shm_base must be aligned to the control block alignment (64 bytes)")
  else if generation = 0 then .error (.error .invalidArgument "ring generation must be non-zero")
  else if capacity < 2 ∨ !isPowerOfTwo capacity then
    .error (.error .invalidArgument "capacity must be a power of two and >= 2")
  else if capacity > 2 ^ 32 then
    .error (.error .invalidArgument "capacity exceeds the supported maximum (2^32)")
  else if elemSize < type.size then
    .error (.error .invalidArgument "elem_size is smaller than sizeof(T)")
  else if elemAlign ≠ type.align ∨ elemAlign = 0 ∨ !isPowerOfTwo elemAlign ∨
      elemAlign > kMpmcRingControlBlockAlign then
    .error (.error .invalidArgument
      "elem_align must exactly match alignof(T), be a power of two, and not exceed 64")
  else if elemSize % elemAlign ≠ 0 then
    .error (.error .invalidArgument "elem_size must be a multiple of elem_align")
  else if mpmcRingSlotStride elemSize elemAlign >
      (2 ^ 64 - 1 - kMpmcRingControlBlockSize) / capacity then
    .error (.error .invalidArgument "ring footprint overflows 64-bit size")
  else .ok {
    base, capacity, elemSize, elemAlign, generation
    activeState := .active
    enqueuePos := 0
    dequeuePos := 0
    memory := initSlots base elemSize elemAlign capacity memory }

/-! ### Operations, one atomic access at a time -/

/-- Where an operation stands. A position that was handed out is held until the slot is
given on; a caller that holds several positions counts as several processes. -/
inductive MpmcLocal where
  | idle
  /-- `TryEnqueue` has read the cursor. -/
  | enqueueProbe (pos : Nat)
  /-- It has found the slot free and goes for the cursor. -/
  | enqueueClaim (pos : Nat)
  /-- `TryEnqueue` has returned the position. -/
  | enqueued (pos : Nat)
  /-- `CommitEnqueue` has stored the first bytes of the value. -/
  | writing (pos : Nat) (value : List UInt8) (stored : Nat)
  | dequeueProbe (pos : Nat)
  | dequeueClaim (pos : Nat)
  | dequeued (pos : Nat)
  /-- `ReadSlot` has loaded the first bytes. -/
  | reading (pos : Nat) (loaded : List UInt8)
  deriving DecidableEq, Repr

inductive MpmcEvent where
  | enqueued (pos : Nat)
  | full
  | committed (pos : Nat) (value : List UInt8)
  | dequeued (pos : Nat)
  | empty
  | read (pos : Nat) (value : List UInt8)
  | released (pos : Nat)
  deriving DecidableEq, Repr

structure MpmcSystem where
  shared : MpmcShared
  threads : Nat → MpmcLocal
  log : List MpmcEvent

/-- What a process does next. A weak compare-and-swap may fail for no reason. -/
inductive MpmcAction where
  | tryEnqueue
  | commitEnqueue (value : List UInt8)
  | tryDequeue
  | readSlot
  | commitDequeue
  | next (spuriousFailure : Bool)
  deriving DecidableEq, Repr

def sequenceDiff (sequence pos : Nat) : Int :=
  (BitVec.ofNat 64 sequence - BitVec.ofNat 64 pos).toInt

namespace MpmcSystem

variable (type : ElementType)

variable (s : MpmcSystem)

/-- The slot that operations use for a position: by the size and alignment of the element. -/
def slotForPos (pos : Nat) : Nat :=
  s.shared.slotAt (pos &&& (s.shared.capacity - 1)) type.size type.align

def sequenceAt (pos : Nat) : Nat :=
  s.shared.memory.load64 (slotForPos type s pos)

def storageAt (pos : Nat) : Nat :=
  slotForPos type s pos + mpmcRingStorageOffset type.align

def setLocal (thread : Nat) (l : MpmcLocal) : MpmcSystem :=
  { s with threads := Function.update s.threads thread l }

def emit (event : MpmcEvent) : MpmcSystem := { s with log := s.log ++ [event] }

def store64 (address value : Nat) : MpmcSystem :=
  { s with shared := { s.shared with memory := s.shared.memory.store64 address value } }

def store8 (address : Nat) (byte : UInt8) : MpmcSystem :=
  { s with shared := { s.shared with memory := s.shared.memory.store8 address byte } }

def setEnqueuePos (pos : Nat) : MpmcSystem :=
  { s with shared := { s.shared with enqueuePos := pos } }

def setDequeuePos (pos : Nat) : MpmcSystem :=
  { s with shared := { s.shared with dequeuePos := pos } }

/-- The word a sequence is stored as. -/
def word (n : Nat) : Nat := n % 2 ^ 64

/-- The next atomic access of an operation that is under way. -/
def next (thread : Nat) (spuriousFailure : Bool) : Option MpmcSystem :=
  match s.threads thread with
  | .enqueueProbe pos =>
    let diff := sequenceDiff (sequenceAt type s pos) pos
    if diff = 0 then some (s.setLocal thread (.enqueueClaim pos))
    else if diff < 0 then some ((s.setLocal thread .idle).emit .full)
    else some (s.setLocal thread (.enqueueProbe s.shared.enqueuePos))
  | .enqueueClaim pos =>
    if s.shared.enqueuePos = pos ∧ !spuriousFailure then
      some (((s.setEnqueuePos (pos + 1)).setLocal thread (.enqueued pos)).emit (.enqueued pos))
    else some (s.setLocal thread (.enqueueProbe s.shared.enqueuePos))
  | .writing pos value stored =>
    match value[stored]? with
    | some byte =>
      some ((s.store8 (storageAt type s pos + stored) byte).setLocal thread
        (.writing pos value (stored + 1)))
    | none =>
      some (((s.store64 (slotForPos type s pos) (word (pos + 1))).setLocal thread .idle).emit
        (.committed pos value))
  | .dequeueProbe pos =>
    let diff := sequenceDiff (sequenceAt type s pos) (pos + 1)
    if diff = 0 then some (s.setLocal thread (.dequeueClaim pos))
    else if diff < 0 then some ((s.setLocal thread .idle).emit .empty)
    else some (s.setLocal thread (.dequeueProbe s.shared.dequeuePos))
  | .dequeueClaim pos =>
    if s.shared.dequeuePos = pos ∧ !spuriousFailure then
      some (((s.setDequeuePos (pos + 1)).setLocal thread (.dequeued pos)).emit (.dequeued pos))
    else some (s.setLocal thread (.dequeueProbe s.shared.dequeuePos))
  | .reading pos loaded =>
    if loaded.length < type.size then
      some (s.setLocal thread
        (.reading pos (loaded ++ [s.shared.memory (storageAt type s pos + loaded.length)])))
    else some ((s.setLocal thread (.dequeued pos)).emit (.read pos loaded))
  | _ => none

/-- A call begins with the fence, which holds as long as the ring is not retired. -/
def fenceHolds : Bool :=
  s.shared.generation != 0 && s.shared.activeState == .active

def step (action : Nat × MpmcAction) : Option MpmcSystem :=
  match action.2, s.threads action.1 with
  | .tryEnqueue, .idle =>
    if s.fenceHolds then some (s.setLocal action.1 (.enqueueProbe s.shared.enqueuePos)) else none
  | .commitEnqueue value, .enqueued pos =>
    if s.fenceHolds ∧ value.length = type.size then some (s.setLocal action.1 (.writing pos value 0))
    else none
  | .tryDequeue, .idle =>
    if s.fenceHolds then some (s.setLocal action.1 (.dequeueProbe s.shared.dequeuePos)) else none
  | .readSlot, .dequeued pos =>
    if s.fenceHolds then some (s.setLocal action.1 (.reading pos [])) else none
  | .commitDequeue, .dequeued pos =>
    if s.fenceHolds then
      some (((s.store64 (slotForPos type s pos) (word (pos + s.shared.capacity))).setLocal action.1
        .idle).emit (.released pos))
    else none
  | .next spuriousFailure, _ => next type s action.1 spuriousFailure
  | _, _ => none

def start (shared : MpmcShared) : MpmcSystem := ⟨shared, fun _ => .idle, []⟩

end MpmcSystem

end Mino.Shm
