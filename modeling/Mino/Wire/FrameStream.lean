import Mino.Lib.IncrementalParse
import Mino.Wire.FrameRoundTrip

/-! # The decoder of a stream of length-prefixed frames

`Push` takes a piece of the stream, keeps what is left of an unfinished frame and returns
the frames that the piece finishes. Where the pieces are cut does not matter, up to one
thing: a `Push` that fails returns none of the frames it had finished before. -/

namespace Mino.Wire

open List
open BigEndian (encode read)

/-- `prefixBytes` is `prefix_` up to `prefix_size_`. -/
structure LengthPrefixedFrameDecoder where
  prefixBytes : Bytes
  frameBuffer : Bytes
  expectedFrameLength : Nat
  failed : Bool
  deriving DecidableEq, Repr

/-- Why `Push` fails: a budget of the call, or what the stream holds. -/
inductive PushFailure where
  | budget (message : String)
  | stream (status : Status)
  deriving DecidableEq, Repr

def PushFailure.status : PushFailure → Status
  | .budget message => resource message
  | .stream status => status

def exceedsBudget (used amount limit : Nat) : Bool := used > limit || amount > limit - used

def checkFrameLength (limits : WireFrameLimits) (frameLength : Nat) : Result Unit :=
  if frameLength < kWireBaseHeaderLength then
    .error (corruption "length prefix is shorter than the base header")
  else if frameLength > kWireMaximumHeaderLength + limits.maxPayloadLength.toNat then
    .error (resource "length prefix exceeds configured frame maximum")
  else if limits.maxBufferedBytes < kLengthPrefixSize ||
      frameLength > limits.maxBufferedBytes - kLengthPrefixSize then
    .error (resource "length prefix exceeds bounded stream buffer")
  else .ok ()

namespace LengthPrefixedFrameDecoder

def init : LengthPrefixedFrameDecoder := ⟨[], [], 0, false⟩

def bufferedBytes (d : LengthPrefixedFrameDecoder) : Nat :=
  d.prefixBytes.length + d.frameBuffer.length

/-- The variables of `Push`; `input` are the bytes from `input_offset` on. -/
structure PushState where
  decoder : LengthPrefixedFrameDecoder
  input : Bytes
  frames : List ValidatedWireFrameView
  decodedPayloadBytes : Nat
  workBytes : Nat

/-- How a part of the loop's body ends: with `break`, or by going on. -/
inductive PushTurn where
  | breaks (s : PushState)
  | goesOn (s : PushState)

section Push

variable {κ : Type} (cipher : WireAead κ) (limits : WireFrameLimits)
  (aead : Option (WireAeadKeyring κ))

/-- The first part of the loop's body: the length prefix. -/
def readPrefix (s : PushState) : Except PushFailure PushTurn :=
  let d := s.decoder
  if d.prefixBytes.length < kLengthPrefixSize then
    let count := min (kLengthPrefixSize - d.prefixBytes.length) s.input.length
    if exceedsBudget s.workBytes count limits.maxWorkBytesPerPush then
      .error (.budget "Push work budget exceeded")
    else
      let prefixBytes := d.prefixBytes ++ s.input.take count
      let s' := { s with
        decoder := { d with prefixBytes }, input := s.input.drop count,
        workBytes := s.workBytes + count }
      if prefixBytes.length < kLengthPrefixSize then .ok (.breaks s')
      else
        match checkFrameLength limits (read prefixBytes 0 4) with
        | .error status => .error (.stream status)
        | .ok () => .ok (.goesOn { s' with
            decoder := { d with prefixBytes, expectedFrameLength := read prefixBytes 0 4 } })
  else .ok (.goesOn s)

/-- The second part: the bytes of the frame. -/
def readBody (s : PushState) : Except PushFailure PushTurn :=
  let d := s.decoder
  let count := min (d.expectedFrameLength - d.frameBuffer.length) s.input.length
  if exceedsBudget s.workBytes count limits.maxWorkBytesPerPush then
    .error (.budget "Push work budget exceeded")
  else
    let frameBuffer := d.frameBuffer ++ s.input.take count
    let s' := { s with
      decoder := { d with frameBuffer }, input := s.input.drop count,
      workBytes := s.workBytes + count }
    if frameBuffer.length < d.expectedFrameLength then .ok (.breaks s') else .ok (.goesOn s')

/-- The third part: the frame is complete. `DecodeView` takes the buffer away. -/
def completeFrame (s : PushState) : Except PushFailure PushState :=
  let d := s.decoder
  if s.frames.length ≥ limits.maxFramesPerPush then
    .error (.budget "Push completed-frame budget exceeded")
  else if exceedsBudget s.workBytes d.frameBuffer.length limits.maxWorkBytesPerPush then
    .error (.budget "Push work budget exceeded")
  else
    match decodeView cipher limits aead d.frameBuffer with
    | .error status => .error (.stream status)
    | .ok view =>
      if exceedsBudget s.decodedPayloadBytes view.payload.length
          limits.maxDecodedPayloadBytesPerPush then
        .error (.budget "Push decoded-payload budget exceeded")
      else .ok { s with
        decoder := { d with prefixBytes := [], frameBuffer := [], expectedFrameLength := 0 },
        frames := s.frames ++ [view],
        decodedPayloadBytes := s.decodedPayloadBytes + view.payload.length,
        workBytes := s.workBytes + d.frameBuffer.length }

/-- The loop of `Push`. Every turn takes a byte of the input, which bounds the turns. -/
def pushLoop : Nat → PushState → Except PushFailure PushState
  | 0, s => .ok s
  | fuel + 1, s =>
    if s.input = [] then .ok s
    else
      match readPrefix limits s with
      | .error failure => .error failure
      | .ok (.breaks s) => .ok s
      | .ok (.goesOn s) =>
        match readBody limits s with
        | .error failure => .error failure
        | .ok (.breaks s) => .ok s
        | .ok (.goesOn s) =>
          match completeFrame cipher limits aead s with
          | .error failure => .error failure
          | .ok s => pushLoop fuel s

def pushRun (d : LengthPrefixedFrameDecoder) (bytes : Bytes) : Except PushFailure PushState :=
  pushLoop cipher limits aead bytes.length ⟨d, bytes, [], 0, 0⟩

/-- `Fail`. -/
def afterFailure : LengthPrefixedFrameDecoder := ⟨[], [], 0, true⟩

/-- `LengthPrefixedFrameDecoder::Push`. -/
def push (d : LengthPrefixedFrameDecoder) (bytes : Bytes) :
    Result (List ValidatedWireFrameView) × LengthPrefixedFrameDecoder :=
  if d.failed then (.error (corruption "stream decoder is failed; call Reset"), d)
  else
    match pushRun cipher limits aead d bytes with
    | .error failure => (.error failure.status, afterFailure)
    | .ok s => (.ok s.frames, s.decoder)

/-- `LengthPrefixedFrameDecoder::Finish`. -/
def finish (d : LengthPrefixedFrameDecoder) : Status × LengthPrefixedFrameDecoder :=
  if d.failed then (corruption "stream decoder is failed; call Reset", d)
  else if d.prefixBytes ≠ [] ∨ d.frameBuffer ≠ [] then
    (corruption "truncated length-prefixed stream", afterFailure)
  else (.success, d)

/-- `LengthPrefixedFrameDecoder::Reset`. -/
def reset (_ : LengthPrefixedFrameDecoder) : LengthPrefixedFrameDecoder := init

def pushAll : LengthPrefixedFrameDecoder → List Bytes →
    List (Result (List ValidatedWireFrameView)) × LengthPrefixedFrameDecoder
  | d, [] => ([], d)
  | d, chunk :: chunks =>
    ((push cipher limits aead d chunk).1 ::
        (pushAll (push cipher limits aead d chunk).2 chunks).1,
      (pushAll (push cipher limits aead d chunk).2 chunks).2)

def withinBudget (d : LengthPrefixedFrameDecoder) (bytes : Bytes) : Bool :=
  d.failed || match pushRun cipher limits aead d bytes with
    | .error (.budget _) => false
    | _ => true

def withinBudgets : LengthPrefixedFrameDecoder → List Bytes → Bool
  | _, [] => true
  | d, chunk :: chunks => withinBudget cipher limits aead d chunk &&
      withinBudgets (push cipher limits aead d chunk).2 chunks

/-- One call on a decoder. -/
inductive Call where
  | push (bytes : Bytes)
  | finish
  | reset
  deriving DecidableEq, Repr

def afterCall (d : LengthPrefixedFrameDecoder) : Call → LengthPrefixedFrameDecoder
  | .push bytes => (push cipher limits aead d bytes).2
  | .finish => d.finish.2
  | .reset => d.reset

end Push

def returned (results : List (Result (List ValidatedWireFrameView))) :
    List ValidatedWireFrameView :=
  results.flatMap fun
    | .ok frames => frames
    | .error _ => []

end LengthPrefixedFrameDecoder

/-! ### Reading one frame off a stream -/

section Reader

variable {κ : Type} (cipher : WireAead κ) (limits : WireFrameLimits)
  (aead : Option (WireAeadKeyring κ))

/-- What a stream holds at its front: the specification that `Push` is compared with. -/
def nextFrame (bytes : Bytes) : Result (Option (ValidatedWireFrameView × Bytes)) := do
  if bytes.length < 4 then .ok none
  else
    checkFrameLength limits (read bytes 0 4)
    if (bytes.drop 4).length < read bytes 0 4 then .ok none
    else
      let view ← decodeView cipher limits aead ((bytes.drop 4).take (read bytes 0 4))
      .ok (some (view, (bytes.drop 4).drop (read bytes 0 4)))

variable {cipher limits aead} {bytes : Bytes}

theorem nextFrame_append {front rest} (h : front.length = 4) :
    nextFrame cipher limits aead (front ++ rest) = (do
      checkFrameLength limits (read front 0 4)
      if rest.length < read front 0 4 then .ok none
      else
        let view ← decodeView cipher limits aead (rest.take (read front 0 4))
        .ok (some (view, rest.drop (read front 0 4)))) := by
  have hread : read (front ++ rest) 0 4 = read front 0 4 := by
    unfold BigEndian.read
    rw [drop_zero, drop_zero, take_left' h, take_of_length_le (by omega)]
  unfold nextFrame
  rw [if_neg (by rw [length_append]; omega), hread, drop_left' h]

theorem nextFrame_short (h : bytes.length < 4) :
    nextFrame cipher limits aead bytes = .ok none := if_pos h

/-- A stream with a whole prefix, cut behind it. -/
theorem exists_front (h : ¬ bytes.length < 4) :
    ∃ front rest, front.length = 4 ∧ bytes = front ++ rest :=
  ⟨bytes.take 4, bytes.drop 4, by rw [length_take]; omega, (take_append_drop 4 bytes).symm⟩

/-- What is found at the front does not change with more input. -/
theorem nextFrame_eq_some {front rest tail view} (hfront : front.length = 4)
    (h : nextFrame cipher limits aead (front ++ rest) = .ok (some (view, tail))) :
    checkFrameLength limits (read front 0 4) = .ok () ∧ read front 0 4 ≤ rest.length ∧
      decodeView cipher limits aead (rest.take (read front 0 4)) = .ok view ∧
      tail = rest.drop (read front 0 4) := by
  rw [nextFrame_append hfront] at h
  obtain ⟨_, hcheck, h⟩ := Result.bind_eq_ok h
  split at h
  · cases h
  rename_i hlong
  obtain ⟨view', hview, h⟩ := Result.bind_eq_ok h
  cases h
  exact ⟨hcheck, Nat.le_of_not_lt hlong, hview, rfl⟩

/-- The frames of a stream. -/
def frameReader (cipher : WireAead κ) (limits : WireFrameLimits)
    (aead : Option (WireAeadKeyring κ)) : ItemReader UInt8 Status ValidatedWireFrameView where
  next := nextFrame cipher limits aead
  item_length := by
    intro a view tail h
    by_cases hshort : a.length < 4
    · rw [nextFrame_short hshort] at h
      cases h
    obtain ⟨front, rest, hfront, rfl⟩ := exists_front hshort
    obtain ⟨-, -, -, rfl⟩ := nextFrame_eq_some hfront h
    rw [length_drop, length_append]
    omega
  item_append := by
    intro a view tail h b
    by_cases hshort : a.length < 4
    · rw [nextFrame_short hshort] at h
      cases h
    obtain ⟨front, rest, hfront, rfl⟩ := exists_front hshort
    obtain ⟨hcheck, hlong, hview, rfl⟩ := nextFrame_eq_some hfront h
    rw [append_assoc, nextFrame_append hfront, hcheck]
    change (if _ then _ else _) = _
    rw [if_neg (by rw [length_append]; omega), take_append_of_le_length hlong, hview,
      drop_append_of_le_length hlong]
    rfl
  error_append := by
    intro a status h b
    by_cases hshort : a.length < 4
    · rw [nextFrame_short hshort] at h
      cases h
    obtain ⟨front, rest, hfront, rfl⟩ := exists_front hshort
    rw [nextFrame_append hfront] at h
    rw [append_assoc, nextFrame_append hfront]
    cases hcheck : checkFrameLength limits (read front 0 4) with
    | error status' =>
      rw [hcheck] at h
      exact h
    | ok _ =>
      rw [hcheck] at h
      change (if _ then _ else _) = _ at h
      change (if _ then _ else _) = _
      split at h
      · cases h
      rename_i hlong
      rw [if_neg (by rw [length_append]; omega),
        take_append_of_le_length (Nat.le_of_not_lt hlong)]
      cases hview : decodeView cipher limits aead (rest.take (read front 0 4)) with
      | error status' =>
        rw [hview] at h
        exact h
      | ok view =>
        rw [hview] at h
        cases h

end Reader

end Mino.Wire
