import Mino.Bridge.SourceIdentity
import Mino.Lib.BitWords
import Mino.Lib.KeyedVector

/-! # The receiver's deduplication cache

For every source the cache keeps a cumulative mark, below which everything was
accepted, and a bitmap of accepted sequences above it. Sources are bounded in
number, in bytes and in age. Sequences, times and sizes are natural numbers;
`commitAccepted` never moves a mark past the sequence it was given, so no
`uint64_t` wraps. Allocation failure and the statistics counters are left out. -/

namespace Mino.Bridge

structure DedupWindowOptions where
  maxSources : Nat := 1024
  maxBytes : Nat := 1024 * 1024
  maxSequenceDistance : Nat := 4096
  maxSourceAgeNs : Nat := 60 * 1000 * 1000 * 1000
  deriving DecidableEq, Repr

inductive DedupDecision where
  | accept
  | duplicateAccepted
  | nackWithHighest
  | staleSession
  deriving DecidableEq, Repr

structure DedupCheckResult where
  decision : DedupDecision
  highestContiguousSequence : Option Nat
  deriving DecidableEq, Repr

structure DedupResumeEntry where
  source : SourceIdentity
  highestContiguousSequence : Nat
  deriving DecidableEq, Repr

structure SourceState where
  source : SourceIdentity
  highestContiguousSequence : Nat
  lastActivityNs : Nat
  gapWords : List (BitVec 64)
  deriving DecidableEq, Repr

namespace SourceState

/-- `sizeof(SourceState)`: three identity words, the mark, the time and a vector. -/
def size : Nat := 64

def gapSet (state : SourceState) (distance : Nat) : Bool :=
  BitWords.bit state.gapWords (distance - 1)

def setGap (state : SourceState) (distance : Nat) : SourceState :=
  { state with gapWords := BitWords.set state.gapWords (distance - 1) }

/-- The `while` loop of the source, one shift of the bitmap for each step of the
mark. The loop cannot outlast the bits of the bitmap, which bounds `fuel`. -/
def advance : Nat → SourceState → SourceState
  | 0, state => state
  | fuel + 1, state =>
    if BitWords.bit state.gapWords 0 then
      advance fuel { state with
        gapWords := BitWords.shift state.gapWords
        highestContiguousSequence := state.highestContiguousSequence + 1 }
    else state

def advanceContiguous (state : SourceState) : SourceState :=
  state.advance (64 * state.gapWords.length)

end SourceState

def isExpired (nowNs thenNs maxAgeNs : Nat) : Bool :=
  decide (nowNs ≥ thenNs) && decide (nowNs - thenNs > maxAgeNs)

structure DedupWindow where
  options : DedupWindowOptions
  bitmapWords : Nat
  sourceBytes : Nat
  sessionActive : Bool := false
  peerSessionEpoch : Nat := 0
  sessionStartedNs : Nat := 0
  entries : List SourceState := []
  sourceIndex : SourceIdentity → Option Nat := fun _ => none
  bytes : Nat := 0

namespace DedupWindow

def sizeMax : Nat := 2 ^ 64 - 1

def create (options : DedupWindowOptions) : Result DedupWindow :=
  if options.maxSources = 0 ∨ options.maxBytes = 0 ∨ options.maxSequenceDistance = 0 ∨
      options.maxSourceAgeNs = 0 then
    .error (.error .invalidArgument "dedup limits must be nonzero")
  else
    let words := (options.maxSequenceDistance - 1) / 64 + 1
    if words > sizeMax then
      .error (.error .resourceExhausted "dedup bitmap is not addressable")
    else if words > (sizeMax - SourceState.size) / 8 then
      .error (.error .resourceExhausted "dedup source state size overflows")
    else
      let sourceBytes := SourceState.size + words * 8
      if sourceBytes > options.maxBytes then
        .error (.error .resourceExhausted
          "dedup byte limit cannot hold one logical source state")
      else if min options.maxSources (options.maxBytes / sourceBytes) = sizeMax then
        .error (.error .resourceExhausted "dedup source index size overflows")
      else .ok { options, bitmapWords := words, sourceBytes }

variable (w : DedupWindow) (peerSessionEpoch : Nat) (source : SourceIdentity) (highest nowNs : Nat)

/-- A changed peer epoch fences old traffic; the entries are kept only when the
caller says so. Repeating the active epoch changes nothing. -/
def beginSession (peerSessionEpoch nowNs : Nat) (preserveState : Bool := false) : DedupWindow :=
  if w.sessionActive && w.peerSessionEpoch == peerSessionEpoch then w
  else
    let w := if preserveState then w
      else { w with entries := [], sourceIndex := fun _ => none, bytes := 0 }
    { w with sessionActive := true, peerSessionEpoch, sessionStartedNs := nowNs }

def find : Option SourceState :=
  (w.sourceIndex source).bind (w.entries[·]?)

/-- Writing through the pointer that `find` returned. -/
def modify (f : SourceState → SourceState) : DedupWindow :=
  match w.sourceIndex source with
  | some i => { w with entries := w.entries.modify i f }
  | none => w

/-- Erasure shifts positions; the sources still indexed get their new ones. -/
def rebuildIndex : DedupWindow :=
  { w with sourceIndex :=
      KeyedVector.rebuild SourceState.source w.sourceIndex w.entries.zipIdx }

def eraseEntry (index : Nat) : DedupWindow :=
  match w.entries[index]? with
  | none => w
  | some state =>
    rebuildIndex { w with
      sourceIndex := Function.update w.sourceIndex state.source none
      entries := w.entries.eraseIdx index
      bytes := w.bytes - w.sourceBytes }

/-- The purge loop at position `i`; every round moves `i` or drops an entry. -/
def purgeFrom (nowNs : Nat) : Nat → Nat → DedupWindow → DedupWindow
  | 0, _, w => w
  | fuel + 1, i, w =>
    match w.entries[i]? with
    | none => w
    | some state =>
      if isExpired nowNs state.lastActivityNs w.options.maxSourceAgeNs then
        purgeFrom nowNs fuel i (w.eraseEntry i)
      else purgeFrom nowNs fuel (i + 1) w

def purgeExpired (nowNs : Nat) : DedupWindow :=
  purgeFrom nowNs w.entries.length 0 w

/-- Position of the least recently active entry, the last one not counted. -/
def oldest : Nat :=
  ((List.range (w.entries.length - 1)).drop 1).foldl (fun oldest i =>
    if ((w.entries[i]?.map SourceState.lastActivityNs).getD 0) <
        ((w.entries[oldest]?.map SourceState.lastActivityNs).getD 0) then i else oldest) 0

/-- The entry just added is the last one and is not yet counted in `bytes`. -/
def evictLoop : Nat → DedupWindow → DedupWindow
  | 0, w => w
  | fuel + 1, w =>
    if w.entries.length > w.options.maxSources ∨
        w.bytes > w.options.maxBytes - w.sourceBytes then
      evictLoop fuel (w.eraseEntry w.oldest)
    else w

def evictToLimits : DedupWindow := evictLoop w.entries.length w

def classify (options : DedupWindowOptions) (state : SourceState) (sequence : Nat) :
    DedupCheckResult :=
  if sequence ≤ state.highestContiguousSequence then
    if state.highestContiguousSequence - sequence < options.maxSequenceDistance then
      ⟨.duplicateAccepted, some state.highestContiguousSequence⟩
    else ⟨.nackWithHighest, some state.highestContiguousSequence⟩
  else if sequence - state.highestContiguousSequence > options.maxSequenceDistance then
    ⟨.nackWithHighest, some state.highestContiguousSequence⟩
  else if state.gapSet (sequence - state.highestContiguousSequence) then
    ⟨.duplicateAccepted, some state.highestContiguousSequence⟩
  else ⟨.accept, some state.highestContiguousSequence⟩

/-- The session guard shared by every per-source operation. -/
def stale : Bool :=
  !w.sessionActive || peerSessionEpoch != w.peerSessionEpoch

def zeroSequence : Status := .error .invalidArgument "sequence zero is not reliable data"

def outsideWindow : Status := .error .invalidArgument "sequence is outside the dedup window"

def staleStatus : Status := .error .unavailable ""

def check (sequence nowNs : Nat) : Result DedupCheckResult × DedupWindow :=
  if w.stale peerSessionEpoch then (.ok ⟨.staleSession, none⟩, w)
  else if sequence = 0 then (.error zeroSequence, w)
  else
    let w := w.purgeExpired nowNs
    match w.find source with
    | none =>
      if sequence > w.options.maxSequenceDistance then (.ok ⟨.nackWithHighest, some 0⟩, w)
      else (.ok ⟨.accept, some 0⟩, w)
    | some state =>
      (.ok (classify w.options state sequence),
        w.modify source fun s => { s with lastActivityNs := nowNs })

def newSource : SourceState :=
  ⟨source, highest, nowNs, List.replicate w.bitmapWords 0#64⟩

/-- The new entry is inserted and indexed before anything is evicted for it. -/
def pushSource : DedupWindow :=
  { w with
    entries := w.entries ++ [w.newSource source highest nowNs]
    sourceIndex := Function.update w.sourceIndex source (some w.entries.length) }

def addSource : Status × DedupWindow :=
  if (w.sourceIndex source).isSome then
    (.error .invalidArgument "dedup source already exists", w)
  else
    let w := (w.pushSource source highest nowNs).evictToLimits
    (.success, { w with bytes := w.bytes + w.sourceBytes })

def prepareSource (nowNs : Nat) : Status × DedupWindow :=
  if w.stale peerSessionEpoch then (staleStatus, w)
  else
    let w := w.purgeExpired nowNs
    match w.find source with
    | some _ => (.success, w.modify source fun s => { s with lastActivityNs := nowNs })
    | none => w.addSource source 0 nowNs

def hasSource : Bool := (w.find source).isSome

def commitAccepted (sequence nowNs : Nat) : Status × DedupWindow :=
  if w.stale peerSessionEpoch then (staleStatus, w)
  else if sequence = 0 then (zeroSequence, w)
  else
    let w := w.purgeExpired nowNs
    match w.find source with
    | none =>
      if sequence > w.options.maxSequenceDistance then (outsideWindow, w)
      else
        let added := w.addSource source 0 nowNs
        if !added.1.ok then added
        else (.success, added.2.modify source fun s => (s.setGap sequence).advanceContiguous)
    | some state =>
      match (classify w.options state sequence).decision with
      | .duplicateAccepted =>
        (.success, w.modify source fun s => { s with lastActivityNs := nowNs })
      | .accept =>
        (.success, w.modify source fun s =>
          { (s.setGap (sequence - s.highestContiguousSequence)).advanceContiguous with
            lastActivityNs := nowNs })
      | _ => (outsideWindow, w)

def seedAccepted : Status × DedupWindow :=
  if w.stale peerSessionEpoch then (staleStatus, w)
  else
    let w := w.purgeExpired nowNs
    match w.find source with
    | none => w.addSource source highest nowNs
    | some _ =>
      (.success, w.modify source fun s =>
        { s with
          highestContiguousSequence := highest
          gapWords := s.gapWords.map fun _ => 0#64
          lastActivityNs := nowNs })

def snapshotAccepted : List DedupResumeEntry :=
  (w.entries.map fun s => ⟨s.source, s.highestContiguousSequence⟩).insertionSort
    fun left right => !right.source.less left.source

end DedupWindow

end Mino.Bridge
