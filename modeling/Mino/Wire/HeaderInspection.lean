import Mino.Wire.FrameRoundTrip

/-! # A look at the header

`InspectHeader` parses a header on its own, in front of the checks of the payload. It takes
every body that a decoder takes, and finds the header the decoder finds. -/

namespace Mino.Wire

open Result
open BigEndian (read)

/-- `WireFrameCodec::InspectHeader`. -/
def inspectHeader (limits : WireFrameLimits) (body : Bytes) : Result WireFrameHeader := do
  if body.length > kWireMaximumHeaderLength + limits.maxPayloadLength.toNat then
    .error (resource "frame body exceeds configured maximum")
  else if body.length < kWireBaseHeaderLength then
    .error (corruption "frame is shorter than the base header")
  else if read body kMagicOffset 4 ≠ kWireFrameMagic then
    .error (corruption "frame magic mismatch")
  else if read body kVersionOffset 2 ≠ kWireProtocolVersion then
    .error (unsupported "unsupported wire protocol version")
  else
    let flags := UInt16.ofNat (read body kFlagsOffset 2)
    let hasTrace := hasFrameFlag flags .perfTraceSampled
    validateFlags flags hasTrace false
    let headerLength := read body kHeaderLengthOffset 4
    let payloadLength := read body kPayloadLengthOffset 4
    let slotEnd := kOptionalHeaderOffset +
      if hasFrameFlag flags .payloadCrcPresent || hasFrameFlag flags .aeadPresent then
        kWirePayloadCrcLength else 0
    if headerLength ≠ canonicalHeaderLength flags then
      .error (corruption "noncanonical header_length")
    else if headerLength > body.length then .error (corruption "truncated optional header")
    else if read body kHeaderCrcOffset 4 ≠ (headerCrc (body.take headerLength)).toNat then
      .error (corruption "header CRC32C mismatch")
    else if payloadLength > limits.maxPayloadLength.toNat then
      .error (resource "wire payload exceeds max_payload_length")
    else if headerLength + payloadLength ≠ body.length then
      .error (corruption "frame body length does not match header")
    else if slotEnd + (if hasTrace then kWirePerfTraceContextLength else 0) ≠ headerLength then
      .error (corruption "noncanonical optional header fields")
    else if hasFrameFlag flags .controlFrame ∧ payloadLength < kWireControlOpcodeLength then
      .error (corruption "control payload is missing its opcode")
    else
      let frameType : FrameType := if hasFrameFlag flags .controlFrame then
        ⟨.ofNat (read ((body.drop headerLength).take payloadLength) 0 4)⟩ else .data
      validateFrameType flags frameType false
      .ok (decodeHeader body flags frameType
        (if hasTrace then some (decodeTrace body slotEnd) else none))

variable {κ : Type} {cipher : WireAead κ} {limits : WireFrameLimits}
  {aead : Option (WireAeadKeyring κ)} {body : Bytes}

/-- The opcode that a decoder takes passes the check of the inspection. -/
theorem inspectFrameType {flags wirePayload frameType}
    (h : decodeFrameType flags wirePayload = .ok frameType) :
    ¬ (hasFrameFlag flags .controlFrame ∧ wirePayload.length < kWireControlOpcodeLength) ∧
    (if hasFrameFlag flags .controlFrame then ⟨.ofNat (read wirePayload 0 4)⟩ else .data) =
      frameType ∧ validateFrameType flags frameType false = .ok () := by
  unfold decodeFrameType at h
  by_cases hcontrol : hasFrameFlag flags .controlFrame = true
  · simp only [if_pos hcontrol, unless_eq_ok] at h
    obtain ⟨hlong, h⟩ := h
    obtain ⟨_, hvalid, h⟩ := bind_eq_ok h
    cases h
    exact ⟨fun hshort => hlong hshort.2, if_pos hcontrol, hvalid⟩
  · rw [if_neg hcontrol] at h
    cases h
    exact ⟨fun hshort => hcontrol hshort.1, if_neg hcontrol,
      validateFrameType_of false (by decide) (by simpa using hcontrol)⟩

theorem inspectHeader_of_decodeFrameBody {inPlace parts}
    (h : decodeFrameBody cipher limits aead inPlace body = .ok parts) :
    inspectHeader limits body = .ok parts.header := by
  obtain ⟨⟨flags, headerLength, payloadLength⟩, hlengths, h⟩ := bind_eq_ok h
  obtain ⟨trace, hoptional, h⟩ := bind_eq_ok h
  obtain ⟨-, h⟩ := unless_eq_ok.mp h
  obtain ⟨frameType, htype, h⟩ := bind_eq_ok h
  have hheader : parts.header = decodeHeader body flags frameType trace := by
    dsimp only at h
    split at h
    · split at h
      · cases h
      · obtain ⟨-, h⟩ := unless_eq_ok.mp h
        obtain ⟨plaintext, -, h⟩ := bind_eq_ok h
        split at h <;> cases h <;> rfl
    · cases h
      rfl
  simp only [decodeLengths, unless_eq_ok] at hlengths
  obtain ⟨hmax, hbase, hmagic, hversion, hlengths⟩ := hlengths
  obtain ⟨_, hvalid, hlengths⟩ := bind_eq_ok hlengths
  simp only [unless_eq_ok] at hlengths
  obtain ⟨hcanonical, hfits, hcrc, hpayload, htotal, hlengths⟩ := hlengths
  cases hlengths
  simp only [decodeOptional, unless_eq_ok] at hoptional
  obtain ⟨-, hend, hoptional⟩ := hoptional
  cases hoptional
  obtain ⟨hlong, hopcode, hknown⟩ := inspectFrameType htype
  rw [List.length_take_of_le (by rw [List.length_drop]; omega)] at hlong
  rw [hheader]
  simp only [inspectHeader, unless_eq_ok]
  refine ⟨hmax, hbase, hmagic, hversion, ?_⟩
  simp only [hvalid, bind, Except.bind, unless_eq_ok]
  refine ⟨hcanonical, hfits, hcrc, hpayload, htotal, hend, hlong, ?_⟩
  rw [hopcode, hknown]

/-- Whatever a decoder takes, the inspection takes, with the same header; and what the
inspection refuses, the decoders refuse. -/
theorem inspectHeader_agrees (cipher : WireAead κ) (limits : WireFrameLimits)
    (aead : Option (WireAeadKeyring κ)) (body : Bytes) :
    (∀ frame, decode cipher limits aead body = .ok frame ∨
      decodeOwned cipher limits aead body = .ok frame →
      inspectHeader limits body = .ok frame.header) ∧
    ∀ status, inspectHeader limits body = .error status →
      (∃ e, decode cipher limits aead body = .error e) ∧
      ∃ e, decodeOwned cipher limits aead body = .error e := by
  suffices hagree : _ by
    refine ⟨hagree, fun status hstatus => ⟨?_, ?_⟩⟩
    · cases h : decode cipher limits aead body with
      | error e => exact ⟨e, rfl⟩
      | ok frame => cases hstatus.symm.trans (hagree frame (.inl h))
    · cases h : decodeOwned cipher limits aead body with
      | error e => exact ⟨e, rfl⟩
      | ok frame => cases hstatus.symm.trans (hagree frame (.inr h))
  rintro frame (h | h)
  · obtain ⟨parts, hparts, h⟩ := bind_eq_ok h
    cases h
    exact inspectHeader_of_decodeFrameBody hparts
  · obtain ⟨view, hview, h⟩ := bind_eq_ok h
    obtain ⟨parts, hparts, hview⟩ := bind_eq_ok hview
    cases h
    rw [view.intoWireFrame_eq, inspectHeader_of_decodeFrameBody hparts]
    split at hview <;> cases hview <;> rfl

end Mino.Wire
