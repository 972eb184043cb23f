import Mino.Wire.FrameCodec

/-! # The frame codec as a whole

What `Encode` makes, all three decoders take back to the frame; and a body in the clear that
`Decode` takes is the encoding of its frame, as long as a length prefix can count it. -/

namespace Mino.Wire

open List Result
open BigEndian (encode read read_append read_encode take_eq_append_encode)

variable {κ : Type} {cipher : WireAead κ} {limits : WireFrameLimits}
  {aead : Option (WireAeadKeyring κ)}

/-! ### Sizes -/

variable {frame : WireFrame} {body : Bytes} {flags : UInt16} {headerLength payloadLength : Nat}
  {trace : Option PerfTraceContext} {slot : UInt32}

theorem encodable_of_encodedSize {n}
    (h : encodedSize limits aead frame.header frame.payload.length = .ok n) :
    Encodable limits frame ∧ canonicalHeaderLength frame.header.flags +
      (controlLength frame.header.flags + frame.payload.length + aeadOverhead
        frame.header.flags) < 2 ^ 32 := by
  have humax : uint32Max = 2 ^ 32 - 1 := rfl
  have hheader : canonicalHeaderLength frame.header.flags ≤ 124 :=
    canonicalHeaderLength_le frame.header.flags
  obtain ⟨_, hflags, h⟩ := bind_eq_ok h
  obtain ⟨_, htype, h⟩ := bind_eq_ok h
  obtain ⟨_, _, h⟩ := bind_eq_ok h
  simp only [unless_eq_ok] at h
  obtain ⟨-, hle, hfits, -⟩ := h
  exact ⟨⟨hflags, htype, by omega⟩, by omega⟩

theorem aeadOverhead_clear (h : hasFrameFlag flags .aeadPresent = false) :
    aeadOverhead flags = 0 := by
  rw [aeadOverhead, h]
  rfl

/-- Without encryption only the length prefix can refuse an encodable frame. -/
theorem encodedSize_of_encodable (h : Encodable limits frame)
    (hplain : hasFrameFlag frame.header.flags .aeadPresent = false) :
    encodedSize limits aead frame.header frame.payload.length = if canonicalHeaderLength
        frame.header.flags + (controlLength frame.header.flags + frame.payload.length) < 2 ^ 32 then
        .ok (canonicalHeaderLength frame.header.flags +
          (controlLength frame.header.flags + frame.payload.length))
      else .error (resource "encoded frame exceeds uint32 length prefix") := by
  have hmax := limits.maxPayloadLength.toNat_lt
  have hpayload := h.payload
  have hoverhead := aeadOverhead_clear hplain
  have hbound := canonicalHeaderLength_lt frame.header.flags
  rw [hoverhead] at hpayload
  unfold encodedSize
  rw [h.flags, h.frameType]
  simp only [bind, Except.bind, requireAeadEncodeKey, hplain, Bool.not_false, if_true, hoverhead]
  have humax : uint32Max = 2 ^ 32 - 1 := rfl
  rw [if_neg (by rw [humax]; omega), if_neg (by omega)]
  by_cases hfits : canonicalHeaderLength
      frame.header.flags + (controlLength frame.header.flags + frame.payload.length) < 2 ^ 32
  · rw [if_neg (show ¬ frame.payload.length + controlLength frame.header.flags + 0 > _ by
      rw [humax]; omega), if_pos hfits]
    congr 1
    omega
  · rw [if_pos (show frame.payload.length + controlLength frame.header.flags + 0 > _ by
      rw [humax]; omega), if_neg hfits]

/-! ### Decoding an encoding -/

theorem crc32cUpdate_append (state : UInt32) (front rest : Bytes) :
    crc32cUpdate state (front ++ rest) = crc32cUpdate (crc32cUpdate state front) rest :=
  foldl_append

/-- Both ways of decoding find the header and the payload again; decrypting in place leaves
no plaintext outside the body. -/
theorem decodeFrameBody_encodeBody (hencoded : encodeBody cipher limits aead frame = .ok body)
    (inPlace : Bool) : ∃ parts, decodeFrameBody cipher limits aead inPlace body = .ok parts ∧
      parts.header = frame.header ∧ parts.payload = frame.payload ∧
      (inPlace = true → parts.ownedPlaintext = none) := by
  obtain ⟨n, hsize, h⟩ := bind_eq_ok hencoded
  have hencodable := (encodable_of_encodedSize hsize).1
  obtain ⟨-, hboth, htrace⟩ := validateFlags_ok hencodable.flags
  have hopcode := length_encodeOpcode frame.header
  -- the range of a payload that stands in the clear behind the opcode
  have hrange : ∀ (k : Nat) (slot : UInt32) (text rest : Bytes),
      ((encodeHeader frame.header k slot ++ (encodeOpcode frame.header ++ (text ++ rest))).drop
        (canonicalHeaderLength frame.header.flags + controlLength frame.header.flags)).take
          text.length = text := by
    intro k slot text rest
    rw [← append_assoc, drop_left' (by
      rw [length_append, length_encodeHeader k slot htrace, hopcode])]
    exact take_left
  cases haead : hasFrameFlag frame.header.flags .aeadPresent with
  | false =>
    have hoverhead := aeadOverhead_clear haead
    have hlength : controlLength frame.header.flags + frame.payload.length + aeadOverhead
        frame.header.flags = (encodeOpcode frame.header ++ frame.payload).length := by
      rw [hoverhead, length_append, hopcode]
      omega
    have hclear : ∃ slot : UInt32, body = encodeHeader frame.header
        (encodeOpcode frame.header ++ frame.payload).length slot ++
          (encodeOpcode frame.header ++ frame.payload) ∧
        (hasFrameFlag frame.header.flags .payloadCrcPresent = true →
          slot = crc32c (encodeOpcode frame.header ++ frame.payload)) := by
      simp only [haead, Bool.false_eq_true, if_false, hlength] at h
      split at h <;> rename_i hcrc
      · cases h
        exact ⟨_, rfl, fun _ => by rw [crc32c, crc32cUpdate_append]⟩
      · cases h
        exact ⟨_, rfl, fun hflag => absurd hflag hcrc⟩
    obtain ⟨slot, rfl, hcrc⟩ := hclear
    have hdecode := decodeFrameBody_encodeHeader hencodable slot (by rw [hoverhead]; rfl) hcrc
      (fun _ hflag => by rw [haead] at hflag; cases hflag) cipher aead inPlace
    dsimp only at hdecode
    rw [if_neg (by rw [haead]; decide)] at hdecode
    refine ⟨_, hdecode, rfl, ?_, fun _ => rfl⟩
    have htext := hrange (encodeOpcode frame.header ++ frame.payload).length slot frame.payload []
    rwa [append_nil] at htext
  | true =>
    have hcrc : hasFrameFlag frame.header.flags .payloadCrcPresent = false := by
      rw [haead] at hboth
      simpa using hboth
    have hoverhead : aeadOverhead frame.header.flags = kWireAeadOverhead := by
      rw [aeadOverhead, haead]
      rfl
    rw [if_pos haead] at h
    split at h
    · cases h
    rename_i keyId key hkey
    obtain ⟨ring, hring, hencode⟩ := Option.bind_eq_some_iff.mp hkey
    subst hring
    obtain ⟨hne, hfind⟩ := WireAeadKeyring.encodeKey_eq_some hencode
    obtain ⟨sealed, hseal, hbody⟩ := bind_eq_ok h
    obtain ⟨hsealed, hbody⟩ := unless_eq_ok.mp hbody
    cases hbody
    have hsealed : sealed.length = frame.payload.length + aeadOverhead frame.header.flags := by
      rw [hoverhead]
      exact not_not.mp hsealed
    have hlength : controlLength frame.header.flags + frame.payload.length + aeadOverhead
        frame.header.flags = (encodeOpcode frame.header ++ sealed).length := by
      rw [length_append, hopcode, hsealed]
      omega
    rw [hlength] at hseal ⊢
    have hdecode := decodeFrameBody_encodeHeader hencodable keyId hsealed
      (fun hflag => by rw [hcrc] at hflag; cases hflag) (fun _ _ => hne) cipher (some ring) inPlace
    dsimp only at hdecode
    rw [if_pos haead] at hdecode
    simp only [Option.bind_some, hfind, cipher.open_seal _ _ _ _ hseal, bind, Except.bind] at hdecode
    cases inPlace with
    | false => exact ⟨_, hdecode, rfl, rfl, fun h => absurd h Bool.false_ne_true⟩
    | true =>
      refine ⟨_, hdecode, rfl, ?_, fun _ => rfl⟩
      have hheader := length_encodeHeader (encodeOpcode frame.header ++ sealed).length keyId htrace
      simp only [DecodedFrameParts.payload, Option.getD_none]
      rw [drop_left' ?_, take_left]
      rw [length_take, length_append, hheader, length_append, hopcode, hsealed,
        hoverhead, kWireAeadOverhead]
      omega

theorem ValidatedWireFrameView.intoWireFrame_eq (view : ValidatedWireFrameView) :
    view.intoWireFrame = ⟨view.header, view.payload⟩ := by
  unfold intoWireFrame payload
  split
  · rename_i h
    rw [h.1, h.2, drop_zero, take_length]
  split
  · rename_i h
    rw [h, take_zero]
  · rfl

theorem decodeView_of_parts {parts} (h : decodeFrameBody cipher limits aead true body = .ok parts)
    (hplain : parts.ownedPlaintext = none) : decodeView cipher limits aead body =
      .ok ⟨parts.header, parts.body, parts.payloadOffset, parts.payloadSize⟩ := by
  simp only [decodeView, h, bind, Except.bind, hplain]

section

variable (h : encodeBody cipher limits aead frame = .ok body)
include h

theorem decodeView_encodeBody :
    ∃ view, decodeView cipher limits aead body = .ok view ∧ view.header = frame.header ∧
      view.payload = frame.payload := by
  obtain ⟨parts, hparts, hheader, hpayload, hplain⟩ := decodeFrameBody_encodeBody h true
  refine ⟨_, decodeView_of_parts hparts (hplain rfl), hheader, ?_⟩
  rw [← hpayload, DecodedFrameParts.payload, hplain rfl]
  rfl

theorem length_encodeBody : kWireBaseHeaderLength ≤ body.length ∧
      body.length ≤ kWireMaximumHeaderLength + limits.maxPayloadLength.toNat ∧
      body.length < 2 ^ 32 := by
  obtain ⟨n, hsize, hbody⟩ := bind_eq_ok h
  obtain ⟨hencodable, hlt⟩ := encodable_of_encodedSize hsize
  obtain ⟨-, -, htrace⟩ := validateFlags_ok hencodable.flags
  have hopcode := length_encodeOpcode frame.header
  have hle : canonicalHeaderLength frame.header.flags ≤ kWireMaximumHeaderLength :=
    canonicalHeaderLength_le frame.header.flags
  have hbase : kWireBaseHeaderLength ≤ canonicalHeaderLength frame.header.flags := by
    unfold canonicalHeaderLength
    omega
  have hpayload := hencodable.payload
  have hlength : body.length = canonicalHeaderLength
      frame.header.flags + (controlLength frame.header.flags + frame.payload.length +
        aeadOverhead frame.header.flags) := by
    cases haead : hasFrameFlag frame.header.flags .aeadPresent with
    | true =>
      rw [if_pos haead] at hbody
      split at hbody
      · cases hbody
      obtain ⟨sealed, -, hbody⟩ := bind_eq_ok hbody
      obtain ⟨hsealed, hbody⟩ := unless_eq_ok.mp hbody
      cases hbody
      rw [length_append, length_encodeHeader _ _ htrace, length_append, hopcode,
        not_not.mp hsealed, aeadOverhead, if_pos haead]
      omega
    | false =>
      rw [if_neg (by rw [haead]; decide)] at hbody
      split at hbody <;> cases hbody <;>
      · rw [length_append, length_encodeHeader _ _ htrace, length_append, hopcode,
          aeadOverhead_clear haead]
        omega
  omega

end

/-! ### A decoded body is an encoding -/

/-- What the checks in front of the optional fields have found. -/
structure AcceptsLengths (limits : WireFrameLimits) (body : Bytes) (flags : UInt16)
    (headerLength payloadLength : Nat) : Prop where
  magic : read body kMagicOffset 4 = kWireFrameMagic
  version : read body kVersionOffset 2 = kWireProtocolVersion
  read_flags : flags = .ofNat (read body kFlagsOffset 2)
  valid : validateFlags flags (hasFrameFlag flags .perfTraceSampled) false = .ok ()
  canonical : headerLength = canonicalHeaderLength flags
  written : read body kHeaderLengthOffset 4 = headerLength
  crc : read body kHeaderCrcOffset 4 = (headerCrc (body.take headerLength)).toNat
  payload : payloadLength = read body kPayloadLengthOffset 4
  payload_le : payloadLength ≤ limits.maxPayloadLength.toNat
  total : headerLength + payloadLength = body.length

theorem decodeLengths_ok (h : decodeLengths limits body = .ok (flags, headerLength, payloadLength)) :
    AcceptsLengths limits body flags headerLength payloadLength := by
  simp only [decodeLengths, unless_eq_ok] at h
  obtain ⟨-, -, hmagic, hversion, h⟩ := h
  obtain ⟨_, hvalid, h⟩ := bind_eq_ok h
  simp only [unless_eq_ok] at h
  obtain ⟨hcanonical, -, hcrc, hpayload, htotal, h⟩ := h
  cases h
  exact ⟨not_not.mp hmagic, not_not.mp hversion, rfl, hvalid, not_not.mp hcanonical, rfl,
    not_not.mp hcrc, rfl, Nat.le_of_not_lt hpayload, not_not.mp htotal⟩

theorem decodeOptional_ok (h : decodeOptional body flags headerLength = .ok trace) :
    trace = if hasFrameFlag flags .perfTraceSampled then
      some (decodeTrace body (kOptionalHeaderOffset +
        if hasFrameFlag flags .payloadCrcPresent || hasFrameFlag flags .aeadPresent then
          kWirePayloadCrcLength else 0)) else none := by
  simp only [decodeOptional, unless_eq_ok] at h
  obtain ⟨-, -, h⟩ := h
  exact (Except.ok.inj h).symm

/-- The fields of the base header are its bytes. -/
theorem take_base (h : 80 ≤ body.length) (frameType : FrameType) (trace : Option PerfTraceContext)
    (ha : AcceptsLengths limits body flags headerLength payloadLength) :
    body.take 76 = encodeBase (decodeHeader body flags frameType trace) payloadLength := by
  have field : ∀ offset width, offset + width ≤ 80 → body.take (offset + width) =
      body.take offset ++ encode width (read body offset width) :=
    fun offset width hle => take_eq_append_encode body offset width (by omega)
  have hmagic := ha.magic
  have hversion := ha.version
  have hwritten := ha.written
  have hcanonical := ha.canonical
  have hflags : flags.toNat = read body kFlagsOffset 2 := by
    rw [ha.read_flags, toNat_ofNat_read2]
  have hpayload := ha.payload
  simp only [kMagicOffset, kVersionOffset, kHeaderLengthOffset, kFlagsOffset,
    kPayloadLengthOffset] at hmagic hversion hwritten hflags hpayload
  rw [field 72 4 (by decide), field 64 8 (by decide), field 56 8 (by decide), field 48 8 (by
    decide), field 40 8 (by decide), field 32 8 (by decide), field 28 4 (by decide), field 24 4 (by
    decide), field 20 4 (by decide), field 16 4 (by decide), field 12 4 (by decide), field 8 4 (by
    decide), field 6 2 (by decide), field 4 2 (by decide), field 0 4 (by decide)]
  simp [encodeBase, decodeHeader, -UInt32.toNat_ofNat', -UInt64.toNat_ofNat', hmagic, hversion,
    hwritten, ← hcanonical, hflags, hpayload, kTopicIdOffset, kMsgTypeOffset,
    kConnectionSchemaRefOffset, kSchemaVersionOffset, kLayoutVersionOffset, kSourceNodeIdOffset,
    kSourcePublisherIdOffset, kSourcePublisherEpochOffset, kSequenceNumOffset, kTimestampNsOffset]

theorem take_trace {offset} (h : offset + 40 ≤ body.length) :
    body.take (offset + 40) = body.take offset ++ encodeTrace (decodeTrace body offset) := by
  have field : ∀ k width, k + width ≤ 40 → body.take (offset + (k + width)) =
      body.take (offset + k) ++ encode width (read body (offset + k) width) := by
    intro k width hle
    rw [← Nat.add_assoc]
    exact take_eq_append_encode body (offset + k) width (by omega)
  rw [field 32 8 (by decide), field 24 8 (by decide), field 20 4 (by decide),
    field 16 4 (by decide), field 8 8 (by decide), field 0 8 (by decide)]
  simp [encodeTrace, decodeTrace, -UInt32.toNat_ofNat', -UInt64.toNat_ofNat']

/-- The optional fields are the bytes between the base header and the payload. -/
theorem take_optional (h : decodeOptional body flags (canonicalHeaderLength flags) = .ok trace)
    (hlength : canonicalHeaderLength flags ≤ body.length)
    (hslot : (hasFrameFlag flags .payloadCrcPresent || hasFrameFlag flags .aeadPresent) = true →
      slot.toNat = read body kOptionalHeaderOffset 4) (header : WireFrameHeader)
    (hflags : header.flags = flags) (htrace : header.perfTrace = trace) :
    body.take (canonicalHeaderLength flags) = body.take 80 ++ encodeOptional header slot := by
  rw [decodeOptional_ok h] at htrace
  unfold encodeOptional
  unfold canonicalHeaderLength at hlength ⊢
  rw [hflags, htrace]
  simp only [kWireBaseHeaderLength, kWirePayloadCrcLength, kWirePerfTraceContextLength,
    kOptionalHeaderOffset] at hlength hslot ⊢
  by_cases hs : (hasFrameFlag flags .payloadCrcPresent || hasFrameFlag flags .aeadPresent) = true
  · have hfield : 84 ≤ body.length →
        body.take 84 = body.take 80 ++ encode 4 slot.toNat := fun hle => by
      rw [hslot hs]
      exact take_eq_append_encode body 80 4 hle
    by_cases ht : hasFrameFlag flags .perfTraceSampled = true
    · simp only [if_pos hs, if_pos ht] at hlength ⊢
      rw [take_trace hlength, hfield (by omega), append_assoc]
      rfl
    · simp only [if_pos hs, if_neg ht] at hlength ⊢
      rw [hfield hlength]
      simp
  · by_cases ht : hasFrameFlag flags .perfTraceSampled = true
    · simp only [if_neg hs, if_pos ht] at hlength ⊢
      exact take_trace hlength
    · simp only [if_neg hs, if_neg ht] at hlength ⊢
      simp

/-- A header that passes every check is the encoding of what is read of it. -/
theorem take_header (ha : AcceptsLengths limits body flags headerLength payloadLength)
    (h : decodeOptional body flags headerLength = .ok trace) (frameType : FrameType)
    (hslot : (hasFrameFlag flags .payloadCrcPresent || hasFrameFlag flags .aeadPresent) = true →
      slot.toNat = read body kOptionalHeaderOffset 4) : body.take headerLength =
      encodeHeader (decodeHeader body flags frameType trace) payloadLength slot := by
  have htotal := ha.total
  have hcrc := ha.crc
  have hcanonical := ha.canonical
  subst hcanonical
  have hbounds : 80 ≤ canonicalHeaderLength flags := by
    unfold canonicalHeaderLength kWireBaseHeaderLength
    omega
  have hbase := take_base (by omega) frameType trace ha
  have hoptional := take_optional h (by omega) hslot (decodeHeader body flags frameType trace) rfl rfl
  have hsplit : body.take 80 = body.take 76 ++ encode 4 (read body 76 4) :=
    take_eq_append_encode body 76 4 (by omega)
  rw [hsplit, hbase, append_assoc] at hoptional
  rw [hoptional, headerCrc_append (length_encodeBase _ _) (BigEndian.length_encode 4 _)] at hcrc
  rw [hoptional, encodeHeader,
    headerCrc_append (length_encodeBase _ _) (BigEndian.length_encode 4 _), ← hcrc]
  rfl

theorem decodeFrameType_ok {wirePayload frameType}
    (h : decodeFrameType flags wirePayload = .ok frameType) (header : WireFrameHeader)
    (hflags : header.flags = flags) (htype : header.frameType = frameType) :
    validateFrameType flags frameType true = .ok () ∧ controlLength flags ≤ wirePayload.length ∧
      wirePayload.take (controlLength flags) = encodeOpcode header := by
  unfold decodeFrameType at h
  unfold encodeOpcode controlLength
  rw [hflags]
  by_cases hcontrol : hasFrameFlag flags .controlFrame = true
  · rw [if_pos hcontrol] at h ⊢
    split at h
    · cases h
    rename_i hlong
    obtain ⟨_, hvalid, h⟩ := bind_eq_ok h
    cases h
    obtain ⟨hknown, hflag⟩ := validateFrameType_ok hvalid
    refine ⟨validateFrameType_of true hknown hflag, Nat.le_of_not_lt hlong, ?_⟩
    rw [if_pos hcontrol, htype, toNat_ofNat_read4]
    exact take_eq_append_encode wirePayload 0 4 (by simpa [kWireControlOpcodeLength] using hlong)
  · rw [if_neg hcontrol] at h ⊢
    cases h
    exact ⟨validateFrameType_of true (by decide) (by simpa using hcontrol), Nat.zero_le _,
      by rw [if_neg hcontrol, take_zero]⟩

/-- The encoder on an encodable frame in the clear. -/
theorem encodeBody_clear (h : Encodable limits frame)
    (hplain : hasFrameFlag frame.header.flags .aeadPresent = false)
    (hslot : hasFrameFlag frame.header.flags .payloadCrcPresent = true →
      slot = crc32c (encodeOpcode frame.header ++ frame.payload))
    (hzero : hasFrameFlag frame.header.flags .payloadCrcPresent = false → slot = 0)
    (cipher : WireAead κ) (aead : Option (WireAeadKeyring κ)) :
    let wirePayload := encodeOpcode frame.header ++ frame.payload
    let body := encodeHeader frame.header wirePayload.length slot ++ wirePayload
    encodeBody cipher limits aead frame = if body.length < 2 ^ 32 then .ok body
      else .error (resource "encoded frame exceeds uint32 length prefix") := by
  intro wirePayload body
  obtain ⟨-, -, htrace⟩ := validateFlags_ok h.flags
  have hwire : wirePayload.length = controlLength frame.header.flags + frame.payload.length := by
    rw [length_append, length_encodeOpcode]
  have htotal : body.length = canonicalHeaderLength
      frame.header.flags + (controlLength frame.header.flags + frame.payload.length) := by
    rw [length_append, length_encodeHeader _ slot htrace, hwire]
  have hoverhead := aeadOverhead_clear hplain
  rw [encodeBody, encodedSize_of_encodable h hplain, htotal]
  split
  · simp only [bind, Except.bind, hplain, Bool.false_eq_true, if_false, hoverhead, Nat.add_zero,
      ← hwire]
    split <;> rename_i hcrc
    · rw [← crc32cUpdate_append, ← crc32c, ← hslot hcrc]
    · rw [← hzero (by simpa using hcrc)]
  · rfl

/-- A body in the clear that decodes is what the encoder makes of its frame. -/
theorem encodeBody_of_decode
    (hplain : hasFrameFlag (.ofNat (read body kFlagsOffset 2)) .aeadPresent = false)
    (h : decode cipher limits aead body = .ok frame) :
    encodeBody cipher limits aead frame = if body.length < 2 ^ 32 then .ok body
      else .error (resource "encoded frame exceeds uint32 length prefix") := by
  obtain ⟨parts, hparts, hframe⟩ := bind_eq_ok h
  obtain ⟨⟨flags, headerLength, payloadLength⟩, hlengths, hparts⟩ := bind_eq_ok hparts
  obtain ⟨trace, hoptional, hparts⟩ := bind_eq_ok hparts
  have ha := decodeLengths_ok hlengths
  rw [← ha.read_flags] at hplain
  have htotal := ha.total
  have hwire : (body.drop headerLength).take payloadLength = body.drop headerLength :=
    take_of_length_le (by rw [length_drop]; omega)
  simp only [hwire] at hparts
  obtain ⟨hcrc, hparts⟩ := unless_eq_ok.mp hparts
  obtain ⟨frameType, htype, hparts⟩ := bind_eq_ok hparts
  simp only [hplain, Bool.false_eq_true, if_false] at hparts
  cases hparts
  cases hframe
  obtain ⟨hvalid, hcontrol, hopcode⟩ :=
    decodeFrameType_ok htype (decodeHeader body flags frameType trace) rfl rfl
  rw [length_drop] at hcontrol
  have hpayload : (body.drop (headerLength + controlLength flags)).take
      (payloadLength - controlLength flags) = (body.drop headerLength).drop (controlLength flags) := by
    rw [drop_drop]
    exact take_of_length_le (by rw [length_drop]; omega)
  have hsplit : encodeOpcode (decodeHeader body flags frameType trace) ++
      (body.drop (headerLength + controlLength flags)).take (payloadLength - controlLength flags) =
        body.drop headerLength := by
    rw [hpayload, ← hopcode, take_append_drop]
  obtain ⟨hknown, hboth, -⟩ := validateFlags_ok ha.valid
  have hencodable : Encodable limits ⟨decodeHeader body flags frameType trace,
      (body.drop (headerLength + controlLength flags)).take
        (payloadLength - controlLength flags)⟩ := by
    refine ⟨validateFlags_of true hknown hboth ?_, hvalid, ?_⟩
    · change hasFrameFlag flags .perfTraceSampled = trace.isSome
      rw [decodeOptional_ok hoptional]
      cases hasFrameFlag flags .perfTraceSampled <;> rfl
    · have hle := ha.payload_le
      change controlLength flags + _ + aeadOverhead flags ≤ _
      rw [aeadOverhead_clear hplain, hpayload, length_drop, length_drop]
      omega
  obtain ⟨slot, hslot, hzero⟩ : ∃ slot : UInt32,
      (hasFrameFlag flags .payloadCrcPresent = true → slot = crc32c (body.drop headerLength)) ∧
        (hasFrameFlag flags .payloadCrcPresent = false → slot = 0) := by
    cases hasFrameFlag flags .payloadCrcPresent with
    | true => exact ⟨_, fun _ => rfl, Bool.noConfusion⟩
    | false => exact ⟨0, Bool.noConfusion, fun _ => rfl⟩
  have hread : (hasFrameFlag flags .payloadCrcPresent || hasFrameFlag flags .aeadPresent) = true →
      slot.toNat = read body kOptionalHeaderOffset 4 := by
    intro hflag
    rw [hplain, Bool.or_false] at hflag
    rw [hslot hflag]
    rw [hflag, Bool.true_and, bne_iff_ne, not_not] at hcrc
    exact hcrc.symm
  have hencode := encodeBody_clear hencodable hplain
    (fun hflag => (hslot hflag).trans (congrArg crc32c hsplit.symm)) hzero cipher aead
  have hheader := take_header ha hoptional frameType hread
  have hlength : (body.drop headerLength).length = payloadLength := by
    rw [length_drop]
    omega
  dsimp only at hencode
  rw [hsplit, hlength, ← hheader, take_append_drop] at hencode
  exact hencode

/-! ### The codec -/

/-- A cipher with no key that works. -/
def noCipher : WireAead Unit where
  sealWireAead := fun _ _ _ => .error (invalid "AEAD key material is required")
  openWireAead := fun _ _ _ => .error (invalid "AEAD key material is required")
  open_seal := nofun

/-- `Encode` is undone by all three decoders; and `Encode` of what `Decode` finds in a body
without encryption is that body, unless it is too long for a length prefix. -/
theorem wire_frame_codec (cipher : WireAead κ) (limits : WireFrameLimits)
    (aead : Option (WireAeadKeyring κ)) :
    (∀ frame body, encodeFrame cipher limits aead frame = .ok body →
      decode cipher limits aead body = .ok frame ∧ decodeOwned cipher limits aead body = .ok frame ∧
      ∃ view, decodeView cipher limits aead body = .ok view ∧ view.header = frame.header ∧
        view.payload = frame.payload) ∧
    ∀ body frame, hasFrameFlag (.ofNat (read body kFlagsOffset 2)) .aeadPresent = false →
      decode cipher limits aead body = .ok frame →
      encodeFrame cipher limits aead frame = if body.length < 2 ^ 32 then .ok body
        else .error (resource "encoded frame exceeds uint32 length prefix") := by
  refine ⟨fun frame body h => ?_, fun body frame hplain h => encodeBody_of_decode hplain h⟩
  obtain ⟨parts, hparts, hheader, hpayload, -⟩ := decodeFrameBody_encodeBody h false
  obtain ⟨view, hview, hheader', hpayload'⟩ := decodeView_encodeBody h
  refine ⟨?_, ?_, view, hview, hheader', hpayload'⟩
  · rw [decode, hparts]
    change Except.ok (⟨parts.header, parts.payload⟩ : WireFrame) = _
    rw [hheader, hpayload]
  · rw [decodeOwned, hview]
    change Except.ok view.intoWireFrame = _
    rw [view.intoWireFrame_eq, hheader', hpayload']

/-- The header of a data frame without options. -/
def plainHeader : WireFrameHeader := ⟨.data, 0, 0, 0, 0, 0, 0, 0, 0, 0, 0, 0, none⟩

/-- Limits that take any payload that has a length. -/
def widestLimits : WireFrameLimits := ⟨0xffffffff, 2 ^ 40, 1, 2 ^ 40, 2 ^ 40⟩

/-- The body of a data frame without options, which both directions reach. -/
def plainBody (payload : Bytes) : Bytes :=
  encodeHeader plainHeader payload.length 0 ++ payload

section Plain

variable {payload : Bytes}

theorem hasFrameFlag_plainHeader (flag : FrameFlag) :
    hasFrameFlag plainHeader.flags flag = false := by
  cases flag <;> decide

theorem encodeOpcode_plainHeader : encodeOpcode plainHeader = [] := by decide

theorem canonicalHeaderLength_plainHeader : canonicalHeaderLength plainHeader.flags = 80 := by
  decide

theorem length_plainBody (payload : Bytes) : (plainBody payload).length = 80 + payload.length := by
  rw [plainBody, length_append, length_encodeHeader _ 0 (by decide),
    canonicalHeaderLength_plainHeader]

section

variable (h : payload.length < 2 ^ 32)
include h

theorem encodable_plain : Encodable widestLimits ⟨plainHeader, payload⟩ where
  flags := show validateFlags plainHeader.flags plainHeader.perfTrace.isSome true = .ok () by rfl
  frameType := show validateFrameType plainHeader.flags plainHeader.frameType true = .ok () by rfl
  payload := by
    have hcontrol : controlLength plainHeader.flags = 0 := by decide
    have hoverhead : aeadOverhead plainHeader.flags = 0 := by decide
    have hmax : widestLimits.maxPayloadLength.toNat = 2 ^ 32 - 1 := by decide
    change controlLength plainHeader.flags + payload.length + aeadOverhead plainHeader.flags ≤ _
    rw [hcontrol, hoverhead, hmax]
    omega

theorem encodeFrame_plain : encodeFrame noCipher widestLimits none ⟨plainHeader, payload⟩ =
    if 80 + payload.length < 2 ^ 32 then .ok (plainBody payload)
    else .error (resource "encoded frame exceeds uint32 length prefix") := by
  have hencode := encodeBody_clear (encodable_plain h) (hasFrameFlag_plainHeader _)
    (fun hcrc => absurd hcrc (by rw [hasFrameFlag_plainHeader]; decide)) (fun _ => rfl) noCipher none
  rw [encodeOpcode_plainHeader, nil_append] at hencode
  rw [← length_plainBody]
  exact hencode

theorem decode_plainBody :
    decode noCipher widestLimits none (plainBody payload) = .ok ⟨plainHeader, payload⟩ := by
  have htext : payload.length = payload.length + aeadOverhead plainHeader.flags := by
    rw [show aeadOverhead plainHeader.flags = 0 by decide, Nat.add_zero]
  have hdecode := decodeFrameBody_encodeHeader (encodable_plain h) 0 htext
    (fun hcrc => absurd hcrc (by rw [hasFrameFlag_plainHeader]; decide))
    (fun _ haead => absurd haead (by rw [hasFrameFlag_plainHeader]; decide)) noCipher none false
  dsimp only at hdecode
  rw [hasFrameFlag_plainHeader, if_neg (by decide), encodeOpcode_plainHeader, nil_append,
    canonicalHeaderLength_plainHeader, show controlLength plainHeader.flags = 0 by decide] at hdecode
  have hpayload : ((plainBody payload).drop 80).take payload.length = payload := by
    have hheader : (encodeHeader plainHeader payload.length 0).length = 80 :=
      length_encodeHeader _ 0 (by decide)
    rw [plainBody, drop_left' hheader, take_length]
  rw [decode, plainBody, hdecode]
  exact congrArg (fun text => Except.ok (WireFrame.mk plainHeader text)) hpayload

theorem flags_plainBody :
    hasFrameFlag (.ofNat (read (plainBody payload) kFlagsOffset 2)) .aeadPresent = false := by
  rw [plainBody, encodeHeader, append_assoc,
    (readsBase_encodeBase plainHeader h _).flags, UInt16.ofNat_toNat, hasFrameFlag_plainHeader]

end

end Plain

theorem wire_frame_codec_one_byte :
    encodeFrame noCipher widestLimits none ⟨plainHeader, [7]⟩ = .ok (plainBody [7]) ∧
      decode noCipher widestLimits none (plainBody [7]) = .ok ⟨plainHeader, [7]⟩ ∧
      decodeOwned noCipher widestLimits none (plainBody [7]) = .ok ⟨plainHeader, [7]⟩ := by
  have hencode := encodeFrame_plain (show [(7 : UInt8)].length < 2 ^ 32 by decide)
  rw [if_pos (by decide)] at hencode
  obtain ⟨hdecode, howned, -⟩ := (wire_frame_codec noCipher widestLimits none).1 _ _ hencode
  exact ⟨hencode, hdecode, howned⟩

/-- A payload of 2³² − 1 bytes is decoded, but the body with its header is too long for the
encoder. -/
theorem longest_payload_not_encoded : ∃ (body : Bytes) (frame : WireFrame),
    hasFrameFlag (.ofNat (read body kFlagsOffset 2)) .aeadPresent = false ∧ decode noCipher
    widestLimits none body = .ok frame ∧ encodeFrame noCipher widestLimits none frame =
      .error (resource "encoded frame exceeds uint32 length prefix") := by
  have hlength : (List.replicate (2 ^ 32 - 1) (0 : UInt8)).length = 2 ^ 32 - 1 :=
    List.length_replicate
  generalize List.replicate (2 ^ 32 - 1) (0 : UInt8) = payload at hlength
  have hlt : payload.length < 2 ^ 32 := by omega
  refine ⟨plainBody payload, ⟨plainHeader, payload⟩, flags_plainBody hlt, decode_plainBody hlt, ?_⟩
  rw [encodeFrame_plain hlt, if_neg (by omega)]

end Mino.Wire
