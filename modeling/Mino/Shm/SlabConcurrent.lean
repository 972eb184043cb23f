import Mino.Lib.Interleaving
import Mino.Shm.SlabAllocator

/-! # The central slab allocator, one atomic access at a time

Every access of an operation is to the words of one slot. An operation that takes a handle
begins behind the address arithmetic of `ResolveLocked`, with the slot and the generation that
the handle names. `Allocate` begins with the slot that its search came to: a search that meets
a set bit there goes on, which is another `Allocate`. Plain stores to the header are taken
together with the atomic store behind them. -/

namespace Mino.Shm

/-- The bit, the generation cell and the header of a slot. -/
structure SlotWords where
  bit : Bool
  generation : Nat
  header : SlabHeader
  deriving DecidableEq, Repr

variable (total : Nat) (s : SlabSystem) (w : SlotWords)

namespace SlotWords

def zero : SlotWords := ⟨false, 0, .zero⟩

def state : ObjectState := w.header.objectState

def setState (objectState : ObjectState) : SlotWords :=
  { w with header := { w.header with objectState } }

end SlotWords

/-- `abortReclaim` is the call of `Reclaim` at the end of `Abort`. -/
inductive SlabOp where
  | beginBuild
  | publish
  | retire
  | abort
  | reclaim
  | abortReclaim
  deriving DecidableEq, Repr

/-- An operation and the slot and generation of its handle. -/
structure SlabTask where
  op : SlabOp
  slot : Nat
  generation : Nat
  deriving DecidableEq, Repr

/-- `ReclaimTransactionAppendGap` at one of its slots. -/
structure SlabScan where
  task : SlabTask
  ownerEpoch : Nat
  transactionId : Nat
  slot : Nat
  deriving DecidableEq, Repr

/-- `ReclaimSlotExact`, called by `Reclaim` or by a scan. -/
structure SlabExact where
  task : SlabTask
  slot : Nat
  generation : Nat
  scan : Option SlabScan
  deriving DecidableEq, Repr

/-- A scan takes published objects too. -/
def SlabExact.allowPublished (e : SlabExact) : Bool := e.scan.isSome

/-- The three reads that compare a handle with its slot, in their order. -/
inductive IdentityCheck where
  | bit
  | generation
  | header
  deriving DecidableEq, Repr

def IdentityCheck.holds (generation : Nat) : IdentityCheck → Bool
  | .bit => w.bit
  | .generation => w.generation = generation
  | .header => w.header.generation = generation

/-- Where the three reads are made. -/
inductive CheckSite where
  | resolve (t : SlabTask)
  | exact (e : SlabExact)
  | recheck (e : SlabExact) (seen : ObjectState)
  deriving DecidableEq, Repr

def CheckSite.slot : CheckSite → Nat
  | .resolve t => t.slot
  | .exact e | .recheck e _ => e.slot

def CheckSite.generation : CheckSite → Nat
  | .resolve t => t.generation
  | .exact e | .recheck e _ => e.generation

/-- What a process does next. -/
inductive SlabPhase where
  | idle
  | obtained (slot generation : Nat)
  | returned (t : SlabTask) (ok : Bool)
  | claim (c : ClassDescriptor) (request : AllocationRequest) (slot : Nat)
  | takeState (c : ClassDescriptor) (request : AllocationRequest) (slot : Nat)
  | undoClaim (slot : Nat)
  | increment (c : ClassDescriptor) (request : AllocationRequest) (slot : Nat)
  | undoState (slot : Nat)
  | undoBit (slot : Nat)
  | stampGeneration (c : ClassDescriptor) (request : AllocationRequest) (slot generation : Nat)
  | stampOwner (request : AllocationRequest) (slot generation : Nat)
  | stampTransaction (request : AllocationRequest) (slot generation : Nat)
  | stampRole (request : AllocationRequest) (slot generation : Nat)
  | finish (slot generation : Nat)
  | checking (k : IdentityCheck) (x : CheckSite)
  | verify (t : SlabTask)
  | swap (t : SlabTask)
  | loadState (t : SlabTask)
  | moveState (t : SlabTask) (seen : ObjectState)
  | loadOwner (t : SlabTask)
  | loadTransaction (t : SlabTask) (ownerEpoch : Nat)
  | loadRole (t : SlabTask) (ownerEpoch transactionId : Nat)
  | askRoot (t : SlabTask) (ownerEpoch transactionId : Nat)
  | exactState (e : SlabExact)
  | exactGuard (e : SlabExact) (seen : ObjectState)
  | exactSwap (e : SlabExact) (seen : ObjectState)
  | recheckGuard (e : SlabExact) (seen : ObjectState)
  | restore (e : SlabExact) (seen : ObjectState)
  | free (e : SlabExact)
  | clear (e : SlabExact)
  | scanBit (f : SlabScan)
  | scanState (f : SlabScan)
  | scanOwner (f : SlabScan)
  | scanTransaction (f : SlabScan)
  | scanGeneration (f : SlabScan)
  | scanHeader (f : SlabScan) (generation : Nat)
  | scanVerify (f : SlabScan) (generation : Nat)
  deriving DecidableEq, Repr

namespace SlabPhase

/-- The first check failed, or a later one. -/
def checkFailed : CheckSite → SlabPhase
  | .resolve t => .returned t false
  | .exact e => .returned e.task false
  | .recheck e seen => .restore e seen

/-- All three checks went through. -/
def checked : CheckSite → SlabPhase
  | .resolve t =>
    match t.op with
    | .beginBuild => .verify t
    | .publish => .verify t
    | .retire => .loadState t
    | .abort => .loadState t
    | .reclaim => .loadOwner t
    | .abortReclaim => .loadOwner t
  | .exact e => .exactState e
  | .recheck e seen => .recheckGuard e seen

def nextCheck (x : CheckSite) : IdentityCheck → SlabPhase
  | .bit => .checking .generation x
  | .generation => .checking .header x
  | .header => checked x

/-- The loop of the scan goes on, or ends. -/
def scanNext (f : SlabScan) : SlabPhase :=
  if f.slot + 1 < total then .scanBit { f with slot := f.slot + 1 } else .returned f.task true

/-- `ReclaimSlotExact` returns `Ok`. -/
def exactOk (e : SlabExact) : SlabPhase :=
  match e.scan with
  | none => .returned e.task true
  | some f => scanNext total f

/-- The states between which `BeginBuild` and `Publish` swap. -/
def swapStates : SlabOp → ObjectState × ObjectState
  | .beginBuild => (.allocated, .building)
  | _ => (.building, .published)

/-- One atomic access, to the words of the slot that the phase is about. `total` is the number
of slots. `answer` is what the reclaim guard says, where it is asked, and whether a weak
compare-and-swap with the right value goes through. -/
def advance (answer : Bool) : SlabPhase → SlotWords × SlabPhase
  | .idle => (w, .idle)
  | .obtained slot generation => (w, .obtained slot generation)
  | .returned t ok => (w, .returned t ok)
  -- Allocate
  | .claim c request slot =>
    if w.bit then (w, .idle) else ({ w with bit := true }, .takeState c request slot)
  | .takeState c request slot =>
    if w.state = .free then (w.setState .allocating, .increment c request slot)
    else (w, .undoClaim slot)
  | .undoClaim _ => ({ w with bit := false }, .idle)
  | .increment c request slot =>
    let generation := incrementGeneration w.generation
    ({ w with generation }, if generation = kGenerationDraining then .undoState slot
      else .stampGeneration c request slot generation)
  | .undoState slot => (w.setState .free, .undoBit slot)
  | .undoBit _ => ({ w with bit := false }, .idle)
  | .stampGeneration c request slot generation =>
    ({ w with header := { w.header with
        magic := SlabHeader.kSlabHeaderMagic
        headerVersion := SlabHeader.kSlabHeaderVersion
        classId := c.classId
        generation
        capacity := c.slotSize
        objectSize := request.objectSize
        typeId := request.typeId
        layoutVersion := request.layoutVersion
        schemaShortId := request.schemaShortId } }, .stampOwner request slot generation)
  | .stampOwner request slot generation =>
    ({ w with header := { w.header with ownerEpoch := request.ownerEpoch } },
      .stampTransaction request slot generation)
  | .stampTransaction request slot generation =>
    ({ w with header := { w.header with
        allocationTransactionId := request.allocationTransactionId } },
      .stampRole request slot generation)
  | .stampRole request slot generation =>
    let header := { w.header with allocationRole := request.allocationFlags }
    ({ w with header := { header with
        immutableHeaderCrc := header.computeImmutableHeaderCrc } }, .finish slot generation)
  | .finish slot generation => (w.setState .allocated, .obtained slot generation)
  -- ResolveLocked, and the checks of ReclaimSlotExact
  | .checking k x =>
    (w, if k.holds w x.generation then nextCheck x k else checkFailed x)
  -- BeginBuild and Publish
  | .verify t =>
    (w, if w.header.verifyImmutableHeader then .swap t else .returned t false)
  | .swap t =>
    if w.state = (swapStates t.op).1 then (w.setState (swapStates t.op).2, .returned t true)
    else (w, .returned t false)
  -- Retire and Abort
  | .loadState t =>
    if t.op = .retire then
      (w, match w.state with
        | .retired => .returned t true
        | .allocated => .moveState t .allocated
        | .building => .moveState t .building
        | .published => .moveState t .published
        | _ => .returned t false)
    else
      (w, match w.state with
        | .aborting => .checking .bit (.resolve { t with op := .abortReclaim })
        | .allocated => .moveState t .allocated
        | .building => .moveState t .building
        | _ => .returned t false)
  | .moveState t seen =>
    if w.state = seen ∧ answer then
      if t.op = .retire then (w.setState .retired, .returned t true)
      else (w.setState .aborting, .checking .bit (.resolve { t with op := .abortReclaim }))
    else (w, .loadState t)
  -- Reclaim
  | .loadOwner t => (w, .loadTransaction t w.header.ownerEpoch)
  | .loadTransaction t ownerEpoch =>
    (w, .loadRole t ownerEpoch w.header.allocationTransactionId)
  | .loadRole t ownerEpoch transactionId =>
    (w, if w.header.allocationRole.testBit 0 ∧ ownerEpoch ≠ 0 ∧ transactionId ≠ 0 then
      .askRoot t ownerEpoch transactionId
    else .checking .bit (.exact ⟨t, t.slot, t.generation, none⟩))
  | .askRoot t ownerEpoch transactionId =>
    (w, if answer then .scanBit ⟨t, ownerEpoch, transactionId, 0⟩ else .returned t false)
  -- ReclaimSlotExact
  | .exactState e =>
    (w, if w.state = .reclaiming ∨ w.state = .free then exactOk total e
      else if w.state = .published ∧ !e.allowPublished then .returned e.task false
      else .exactGuard e w.state)
  | .exactGuard e seen => (w, if answer then .exactSwap e seen else .returned e.task false)
  | .exactSwap e seen =>
    if w.state = seen ∧ answer then
      (w.setState .reclaiming, .checking .bit (.recheck e seen))
    else (w, .checking .bit (.exact e))
  | .recheckGuard e seen => (w, if answer then .free e else .restore e seen)
  | .restore e seen =>
    (if w.state = .reclaiming then w.setState seen else w, .returned e.task false)
  | .free e => (w.setState .free, .clear e)
  -- A bit that is clear already makes ClearBit fail.
  | .clear e => ({ w with bit := false }, if w.bit then exactOk total e else .returned e.task false)
  -- ReclaimTransactionAppendGap
  | .scanBit f => (w, if w.bit then .scanState f else scanNext total f)
  | .scanState f =>
    (w, if w.state = .free ∨ w.state = .reclaiming then scanNext total f else .scanOwner f)
  | .scanOwner f =>
    (w, if w.header.ownerEpoch = f.ownerEpoch then .scanTransaction f else scanNext total f)
  | .scanTransaction f =>
    (w, if w.header.allocationTransactionId = f.transactionId then .scanGeneration f
      else scanNext total f)
  | .scanGeneration f => (w, .scanHeader f w.generation)
  | .scanHeader f generation =>
    (w, if w.header.generation = generation then .scanVerify f generation else scanNext total f)
  | .scanVerify f generation =>
    (w, if w.header.verifyImmutableHeader then
      .checking .bit (.exact ⟨f.task, f.slot, generation, some f⟩) else scanNext total f)

/-- The slot that the next access is to. -/
def target : SlabPhase → Option Nat
  | .idle | .obtained _ _ | .returned _ _ => none
  | .claim _ _ slot | .takeState _ _ slot | .undoClaim slot | .increment _ _ slot
  | .undoState slot | .undoBit slot | .stampGeneration _ _ slot _ | .stampOwner _ slot _
  | .stampTransaction _ slot _ | .stampRole _ slot _ | .finish slot _ => some slot
  | .checking _ x => some x.slot
  | .verify t | .swap t | .loadState t | .moveState t _ | .loadOwner t | .loadTransaction t _
  | .loadRole t _ _ | .askRoot t _ _ => some t.slot
  | .exactState e | .exactGuard e _ | .exactSwap e _ | .recheckGuard e _ | .restore e _
  | .free e | .clear e => some e.slot
  | .scanBit f | .scanState f | .scanOwner f | .scanTransaction f | .scanGeneration f
  | .scanHeader f _ | .scanVerify f _ => some f.slot

/-- The slot that the process works on: `Allocate` does so from its claim on. -/
def inside : SlabPhase → Option Nat
  | .claim _ _ _ => none
  | φ => φ.target

/-- Behind an operation, or before the first. -/
def AtRest : SlabPhase → Bool
  | .idle | .obtained _ _ | .returned _ _ => true
  | _ => false

end SlabPhase

/-! ### The system -/

structure SlabSystem where
  words : Nat → SlotWords
  phases : Nat → SlabPhase

inductive SlabAction where
  | allocate (process : Nat) (c : ClassDescriptor) (request : AllocationRequest) (slot : Nat)
  | call (process : Nat) (t : SlabTask)
  | advance (process : Nat) (answer : Bool)
  deriving DecidableEq, Repr

def SlabAction.process : SlabAction → Nat
  | .allocate p _ _ _ | .call p _ | .advance p _ => p

namespace SlabSystem

def zero : SlabSystem := ⟨fun _ => .zero, fun _ => .idle⟩

def setPhase (p : Nat) (φ : SlabPhase) : SlabSystem :=
  { s with phases := Function.update s.phases p φ }

/-- `abortReclaim` is not called from outside. -/
def step : SlabAction → Option SlabSystem
  | .allocate p c request slot =>
    if (s.phases p).AtRest ∧ slot < total then some (s.setPhase p (.claim c request slot)) else none
  | .call p t =>
    if (s.phases p).AtRest ∧ t.slot < total ∧ t.op ≠ .abortReclaim then
      some (s.setPhase p (.checking .bit (.resolve t)))
    else none
  | .advance p answer =>
    (s.phases p).target.map fun slot =>
      let r := (s.phases p).advance total (s.words slot) answer
      ⟨Function.update s.words slot r.1, Function.update s.phases p r.2⟩

end SlabSystem

end Mino.Shm
