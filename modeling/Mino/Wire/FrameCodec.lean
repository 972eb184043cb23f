import Mino.Wire.Frame

/-! # Decoding undoes encoding

The fields of a header are read where they were written, so that every check of the
decoder passes on what the encoder makes; and a body without encryption that the decoder
takes is what the encoder makes of the decoded frame. -/

namespace Mino.Wire

open List BigEndian
open BigEndian (encode read read_append read_encode take_eq_append_encode)
open LittleEndian (toNat16_lt toNat32_lt toNat64_lt)

variable {κ : Type} {limits : WireFrameLimits}

/-! ### Fields -/

variable (b : Bytes)

variable (k : Nat)

@[simp] theorem toNat_ofNat_read2 : (UInt16.ofNat (read b k 2)).toNat = read b k 2 :=
  UInt16.toNat_ofNat_of_lt' (read_lt b k 2)

@[simp] theorem toNat_ofNat_read4 : (UInt32.ofNat (read b k 4)).toNat = read b k 4 :=
  UInt32.toNat_ofNat_of_lt' (read_lt b k 4)

@[simp] theorem toNat_ofNat_read8 : (UInt64.ofNat (read b k 8)).toNat = read b k 8 :=
  UInt64.toNat_ofNat_of_lt' (read_lt b k 8)

theorem length_encodeBase (header : WireFrameHeader) (n : Nat) :
    (encodeBase header n).length = 76 := by
  simp [encodeBase]

variable (trace : PerfTraceContext)

theorem length_encodeTrace : (encodeTrace trace).length = 40 := by
  simp [encodeTrace]

variable (flags : UInt16)

theorem canonicalHeaderLength_le : canonicalHeaderLength flags ≤ 124 := by
  unfold canonicalHeaderLength
  split <;> split <;> decide

theorem canonicalHeaderLength_lt : canonicalHeaderLength flags < 256 ^ 4 :=
  Nat.lt_of_le_of_lt (canonicalHeaderLength_le flags) (by decide)

/-- What is read of a header in front of anything. -/
structure ReadsBase (body : Bytes) (header : WireFrameHeader) (n : Nat) : Prop where
  magic : read body kMagicOffset 4 = kWireFrameMagic
  version : read body kVersionOffset 2 = kWireProtocolVersion
  flags : read body kFlagsOffset 2 = header.flags.toNat
  headerLength : read body kHeaderLengthOffset 4 = canonicalHeaderLength header.flags
  topicId : read body kTopicIdOffset 4 = header.topicId.toNat
  msgType : read body kMsgTypeOffset 4 = header.msgType.toNat
  connectionSchemaRef : read body kConnectionSchemaRefOffset 4 = header.connectionSchemaRef.toNat
  schemaVersion : read body kSchemaVersionOffset 4 = header.schemaVersion.toNat
  layoutVersion : read body kLayoutVersionOffset 4 = header.layoutVersion.toNat
  sourceNodeId : read body kSourceNodeIdOffset 8 = header.sourceNodeId.toNat
  sourcePublisherId : read body kSourcePublisherIdOffset 8 = header.sourcePublisherId.toNat
  sourcePublisherEpoch :
    read body kSourcePublisherEpochOffset 8 = header.sourcePublisherEpoch.toNat
  sequenceNum : read body kSequenceNumOffset 8 = header.sequenceNum.toNat
  timestampNs : read body kTimestampNsOffset 8 = header.timestampNs.toNat
  payloadLength : read body kPayloadLengthOffset 4 = n

theorem readsBase_encodeBase (header : WireFrameHeader) {n} (hn : n < 256 ^ 4)
    (rest : Bytes) : ReadsBase (encodeBase header n ++ rest) header n := by
  have hmagic : kWireFrameMagic < 256 ^ 4 := by decide
  have hversion : kWireProtocolVersion < 256 ^ 2 := by decide
  have hlength := canonicalHeaderLength_lt header.flags
  constructor <;>
    simp [encodeBase, append_assoc, read_append, read_encode, kMagicOffset, kVersionOffset,
      kFlagsOffset, kHeaderLengthOffset, kTopicIdOffset, kMsgTypeOffset, kConnectionSchemaRefOffset,
      kSchemaVersionOffset, kLayoutVersionOffset, kSourceNodeIdOffset, kSourcePublisherIdOffset,
      kSourcePublisherEpochOffset, kSequenceNumOffset, kTimestampNsOffset, kPayloadLengthOffset,
      toNat16_lt, toNat32_lt, toNat64_lt, hlength, hn, hmagic, hversion, -Nat.reducePow]

theorem headerCrc_append {base crcBytes rest} (hbase : base.length = 76)
    (hcrc : crcBytes.length = 4) :
    headerCrc (base ++ (crcBytes ++ rest)) = crc32c (base ++ [0, 0, 0, 0] ++ rest) := by
  have htake : (base ++ (crcBytes ++ rest)).take kHeaderCrcOffset = base :=
    take_left' hbase
  have hdrop : (base ++ (crcBytes ++ rest)).drop (kHeaderCrcOffset + 4) = rest := by
    rw [← append_assoc]
    exact drop_left' (by rw [length_append, hbase, hcrc]; rfl)
  rw [headerCrc, htake, hdrop]

variable {header : WireFrameHeader} {flags : UInt16}

/-- The optional fields fit the flags. -/
theorem length_encodeOptional (slot : UInt32)
    (htrace : hasFrameFlag header.flags .perfTraceSampled = header.perfTrace.isSome) :
    80 + (encodeOptional header slot).length = canonicalHeaderLength header.flags := by
  unfold encodeOptional canonicalHeaderLength
  rw [htrace]
  cases header.perfTrace with
  | none => by_cases hslot : (hasFrameFlag header.flags .payloadCrcPresent ||
      hasFrameFlag header.flags .aeadPresent) = true <;>
        simp [hslot, kWireBaseHeaderLength, kWirePayloadCrcLength]
  | some trace => by_cases hslot : (hasFrameFlag header.flags .payloadCrcPresent ||
      hasFrameFlag header.flags .aeadPresent) = true <;>
        simp [hslot, kWireBaseHeaderLength, kWirePayloadCrcLength, kWirePerfTraceContextLength,
          length_encodeTrace]

variable (n : Nat)

theorem length_encodeHeader (slot : UInt32)
    (htrace : hasFrameFlag header.flags .perfTraceSampled = header.perfTrace.isSome) :
    (encodeHeader header n slot).length = canonicalHeaderLength header.flags := by
  rw [← length_encodeOptional slot htrace]
  simp [encodeHeader, length_encodeBase]
  omega

theorem decodeTrace_encodeTrace (front rest : Bytes) (offset : Nat)
    (hoffset : front.length = offset) :
    decodeTrace (front ++ (encodeTrace trace ++ rest)) offset = trace := by
  subst hoffset
  have hread : ∀ k width, read (front ++ (encodeTrace trace ++ rest)) (front.length + k) width =
      read (encodeTrace trace ++ rest) k width := by
    intro k width
    rw [read_append (Nat.le_add_right _ _), Nat.add_sub_cancel_left]
  have hread0 := hread 0 8
  rw [Nat.add_zero] at hread0
  unfold decodeTrace
  rw [hread0, hread 8, hread 16, hread 20, hread 24, hread 32]
  simp [encodeTrace, append_assoc, read_append, read_encode, toNat32_lt, toNat64_lt, -Nat.reducePow]

/-! ### What is decoded of an encoding -/

/-- The frames that `EncodedSize` accepts. -/
structure Encodable (limits : WireFrameLimits) (frame : WireFrame) : Prop where
  flags : validateFlags frame.header.flags frame.header.perfTrace.isSome true = .ok ()
  frameType : validateFrameType frame.header.flags frame.header.frameType true = .ok ()
  payload : controlLength frame.header.flags + frame.payload.length +
    aeadOverhead frame.header.flags ≤ limits.maxPayloadLength.toNat

variable {hasPerfTrace encoding : Bool} {type : FrameType} {frame : WireFrame}

theorem validateFlags_ok (h : validateFlags flags hasPerfTrace encoding = .ok ()) :
    flags &&& ~~~kKnownFrameFlags = 0 ∧
      (hasFrameFlag flags .aeadPresent && hasFrameFlag flags .payloadCrcPresent) = false ∧
      hasFrameFlag flags .perfTraceSampled = hasPerfTrace := by
  unfold validateFlags at h
  repeat' split at h
  all_goals cases h
  rename_i hknown hboth htrace
  exact ⟨not_not.mp hknown, by simpa using hboth, by simpa using htrace⟩

theorem validateFlags_of (encoding : Bool) (hknown : flags &&& ~~~kKnownFrameFlags = 0)
    (hboth : (hasFrameFlag flags .aeadPresent && hasFrameFlag flags .payloadCrcPresent) = false)
    (htrace : hasFrameFlag flags .perfTraceSampled = hasPerfTrace) :
    validateFlags flags hasPerfTrace encoding = .ok () := by
  simp [validateFlags, hknown, hboth, htrace]

theorem validateFrameType_ok (h : validateFrameType flags type encoding = .ok ()) :
    isValidFrameType type = true ∧ hasFrameFlag flags .controlFrame = decide (type ≠ .data) := by
  unfold validateFrameType at h
  repeat' split at h
  all_goals cases h
  rename_i hvalid hcontrol
  exact ⟨by simpa using hvalid, by simpa only [bne_iff_ne, ne_eq, not_not] using hcontrol⟩

theorem validateFrameType_of (encoding : Bool) (hvalid : isValidFrameType type = true)
    (hcontrol : hasFrameFlag flags .controlFrame = decide (type ≠ .data)) :
    validateFrameType flags type encoding = .ok () := by
  simp [validateFrameType, hvalid, hcontrol]

/-- A body that starts with the header of a frame passes the checks of the lengths. -/
theorem decodeLengths_encodeHeader (h : Encodable limits frame) (slot : UInt32) {wirePayload}
    (hpayload : wirePayload.length = controlLength frame.header.flags + frame.payload.length +
      aeadOverhead frame.header.flags) :
    decodeLengths limits (encodeHeader frame.header wirePayload.length slot ++ wirePayload) =
      .ok (frame.header.flags, canonicalHeaderLength frame.header.flags, wirePayload.length) := by
  obtain ⟨hknown, hboth, htrace⟩ := validateFlags_ok h.flags
  have hmax := h.payload
  rw [← hpayload] at hmax
  have hlt : wirePayload.length < 256 ^ 4 :=
    Nat.lt_of_le_of_lt hmax (toNat32_lt limits.maxPayloadLength)
  have hlength := length_encodeHeader wirePayload.length slot htrace
  generalize hH : encodeHeader frame.header wirePayload.length slot = H at hlength ⊢
  have hreads : ReadsBase (H ++ wirePayload) frame.header wirePayload.length := by
    rw [← hH, encodeHeader, append_assoc]
    exact readsBase_encodeBase frame.header hlt _
  have hcrc : read (H ++ wirePayload) kHeaderCrcOffset 4 = (headerCrc H).toNat := by
    have hself : headerCrc H = headerCrc (encodeBase frame.header
        wirePayload.length ++ (encode 4 0 ++ encodeOptional frame.header slot)) := by
      rw [← hH, encodeHeader, headerCrc_append (length_encodeBase _ _) (length_encode 4 _),
        headerCrc_append (length_encodeBase _ _) (length_encode 4 _)]
    rw [hself, ← hH, encodeHeader, append_assoc, read_append (by rw [length_encodeBase]; decide),
      length_encodeBase, append_assoc]
    exact read_encode (toNat32_lt _) _
  have htake : (H ++ wirePayload).take (canonicalHeaderLength frame.header.flags) = H :=
    take_left' hlength
  have htotal : (H ++ wirePayload).length =
      canonicalHeaderLength frame.header.flags + wirePayload.length := by
    rw [length_append, hlength]
  have hbounds : 80 ≤ canonicalHeaderLength frame.header.flags ∧
      canonicalHeaderLength frame.header.flags ≤ 124 := by
    unfold canonicalHeaderLength
    split <;> split <;> decide
  have hflags : UInt16.ofNat (read (H ++ wirePayload) kFlagsOffset 2) = frame.header.flags := by
    rw [hreads.flags, UInt16.ofNat_toNat]
  unfold decodeLengths
  rw [if_neg (by rw [htotal]; simp only [kWireMaximumHeaderLength, kWireBaseHeaderLength,
      kWirePayloadCrcLength, kWirePerfTraceContextLength]; omega),
    if_neg (by rw [htotal, kWireBaseHeaderLength]; omega), if_neg (by rw [hreads.magic]; simp),
    if_neg (by rw [hreads.version]; simp)]
  simp only [hflags, hreads.headerLength, htake, hcrc, hreads.payloadLength, htotal,
    validateFlags_of false hknown hboth rfl]
  change (if _ then _ else _) = _
  rw [if_neg (by simp), if_neg (by omega), if_neg (by simp), if_neg (by omega), if_neg (by simp)]

theorem hasSlot_of
    (h : hasFrameFlag flags .payloadCrcPresent = true ∨ hasFrameFlag flags .aeadPresent = true) :
    (hasFrameFlag flags .payloadCrcPresent || hasFrameFlag flags .aeadPresent) = true := by
  simpa using h

theorem read_slot (slot : UInt32) (rest : Bytes)
    (h : hasFrameFlag header.flags .payloadCrcPresent = true ∨
      hasFrameFlag header.flags .aeadPresent = true) :
    read (encodeHeader header n slot ++ rest) kOptionalHeaderOffset 4 = slot.toNat := by
  rw [encodeHeader, encodeOptional, if_pos (hasSlot_of h)]
  simp only [append_assoc]
  rw [read_append (by rw [length_encodeBase]; decide), length_encodeBase,
    read_append (by rw [length_encode]; decide), length_encode]
  exact read_encode (toNat32_lt slot) _

/-- The trace is read back, wherever the slot puts it. -/
theorem decodeOptional_encodeHeader (slot : UInt32) (rest : Bytes)
    (htrace : hasFrameFlag header.flags .perfTraceSampled = header.perfTrace.isSome)
    (hslot : hasFrameFlag header.flags .payloadCrcPresent = false →
      hasFrameFlag header.flags .aeadPresent = true → slot ≠ 0) :
    decodeOptional (encodeHeader header n slot ++ rest) header.flags
      (canonicalHeaderLength header.flags) = .ok header.perfTrace := by
  have hkey :
      (!hasFrameFlag header.flags .payloadCrcPresent && hasFrameFlag header.flags .aeadPresent &&
      read (encodeHeader header n slot ++ rest) kOptionalHeaderOffset 4 == 0) = false := by
    cases hcrc : hasFrameFlag header.flags .payloadCrcPresent with
    | true => rfl
    | false =>
      cases haead : hasFrameFlag header.flags .aeadPresent with
      | false => rfl
      | true =>
        rw [read_slot n slot rest (.inr haead)]
        have hne := hslot hcrc haead
        simpa [← UInt32.toNat_inj] using hne
  unfold decodeOptional
  rw [hkey]
  simp only [Bool.false_eq_true, if_false]
  rw [if_neg (by
    unfold canonicalHeaderLength
    simp only [kOptionalHeaderOffset, kWireBaseHeaderLength]
    simp)]
  cases hperf : header.perfTrace with
  | none =>
    rw [hperf] at htrace
    simp [htrace]
  | some trace =>
    rw [hperf] at htrace
    simp only [Option.isSome_some] at htrace
    rw [if_pos htrace]
    refine congrArg (fun t => Except.ok (some t)) ?_
    rw [encodeHeader, encodeOptional, hperf]
    by_cases hs : (hasFrameFlag header.flags .payloadCrcPresent ||
        hasFrameFlag header.flags .aeadPresent) = true
    · rw [if_pos hs, if_pos hs]
      have := decodeTrace_encodeTrace trace (encodeBase header
        n ++ (encode 4 (headerCrc (encodeBase header n ++ (encode 4 0 ++ (encode 4 slot.toNat ++
          (Option.map encodeTrace (some trace)).getD [])))).toNat ++ encode 4 slot.toNat)) rest
        (kOptionalHeaderOffset + kWirePayloadCrcLength) (by
          simp [length_encodeBase, kOptionalHeaderOffset, kWirePayloadCrcLength])
      simpa [append_assoc] using this
    · rw [if_neg hs, if_neg hs]
      have := decodeTrace_encodeTrace trace
        (encodeBase header n ++ encode 4 (headerCrc (encodeBase header n ++ (encode 4 0 ++ ([] ++
          (Option.map encodeTrace (some trace)).getD [])))).toNat) rest
        (kOptionalHeaderOffset + 0) (by
          simp [length_encodeBase, kOptionalHeaderOffset])
      simpa [append_assoc] using this

theorem length_encodeOpcode (header : WireFrameHeader) :
    (encodeOpcode header).length = controlLength header.flags := by
  unfold encodeOpcode controlLength
  split <;> simp [kWireControlOpcodeLength]

theorem decodeFrameType_encodeOpcode (rest : Bytes)
    (h : validateFrameType header.flags header.frameType true = .ok ()) :
    decodeFrameType header.flags (encodeOpcode header ++ rest) = .ok header.frameType := by
  obtain ⟨hvalid, hcontrol⟩ := validateFrameType_ok h
  unfold decodeFrameType encodeOpcode
  by_cases hflag : hasFrameFlag header.flags .controlFrame = true
  · rw [if_pos hflag, if_pos hflag, if_neg (by simp [kWireControlOpcodeLength])]
    simp only [read_encode (toNat32_lt header.frameType.code), UInt32.ofNat_toNat]
    rw [validateFrameType_of false hvalid hcontrol]
    rfl
  · rw [if_neg hflag]
    have hdata : header.frameType = .data := by
      rw [hcontrol] at hflag
      simpa using hflag
    rw [hdata]

theorem decodeHeader_encodeHeader (header : WireFrameHeader) {n} (hn : n < 256 ^ 4)
    (slot : UInt32) (rest : Bytes) :
    decodeHeader (encodeHeader header n slot ++ rest) header.flags header.frameType
      header.perfTrace = header := by
  have hreads : ReadsBase (encodeHeader header n slot ++ rest) header n := by
    rw [encodeHeader, append_assoc]
    exact readsBase_encodeBase header hn _
  unfold decodeHeader
  rw [hreads.topicId, hreads.msgType, hreads.connectionSchemaRef, hreads.schemaVersion,
    hreads.layoutVersion, hreads.sourceNodeId, hreads.sourcePublisherId,
    hreads.sourcePublisherEpoch, hreads.sequenceNum, hreads.timestampNs]
  simp only [UInt32.ofNat_toNat, UInt64.ofNat_toNat]

/-- The checks in front of the payload all pass on a header that fits it. -/
theorem decodeFrameBody_encodeHeader (h : Encodable limits frame) (slot : UInt32) {text}
    (htext : text.length = frame.payload.length + aeadOverhead frame.header.flags)
    (hcrc : hasFrameFlag frame.header.flags .payloadCrcPresent = true →
      slot = crc32c (encodeOpcode frame.header ++ text))
    (hslot : hasFrameFlag frame.header.flags .payloadCrcPresent = false →
      hasFrameFlag frame.header.flags .aeadPresent = true → slot ≠ 0) (cipher : WireAead κ)
    (aead : Option (WireAeadKeyring κ)) (inPlace : Bool) :
    let header := encodeHeader frame.header (encodeOpcode frame.header ++ text).length slot
    let body := header ++ (encodeOpcode frame.header ++ text)
    let offset := canonicalHeaderLength frame.header.flags + controlLength frame.header.flags
    decodeFrameBody cipher limits aead inPlace body =
      if hasFrameFlag frame.header.flags .aeadPresent then
        match aead.bind fun ring => ring.findKey slot with
        | none => .error (invalid "AEAD key material is required")
        | some key => do
          let plaintext ← cipher.openWireAead key
            (buildAeadAad header (encodeOpcode frame.header)) text
          if inPlace then
            .ok ⟨frame.header, body.take (offset + kWireAeadNonceLength) ++ (plaintext ++ body.drop
              (offset + kWireAeadNonceLength + plaintext.length)), offset + kWireAeadNonceLength,
              plaintext.length, none⟩
          else .ok ⟨frame.header, body, offset, text.length, some plaintext⟩
      else .ok ⟨frame.header, body, offset, text.length, none⟩ := by
  intro header body offset
  obtain ⟨-, -, htrace⟩ := validateFlags_ok h.flags
  have hopcode := length_encodeOpcode frame.header
  have hwire : (encodeOpcode frame.header ++ text).length = controlLength
      frame.header.flags + frame.payload.length + aeadOverhead frame.header.flags := by
    rw [length_append, hopcode, htext]
    omega
  have hlt : (encodeOpcode frame.header ++ text).length < 256 ^ 4 := by
    rw [hwire]
    exact Nat.lt_of_le_of_lt h.payload (toNat32_lt limits.maxPayloadLength)
  have hlengths := decodeLengths_encodeHeader h slot hwire
  have hoptional := decodeOptional_encodeHeader (encodeOpcode frame.header ++ text).length slot
    (encodeOpcode frame.header ++ text) htrace hslot
  have hheader := length_encodeHeader (encodeOpcode frame.header ++ text).length slot htrace
  have hdrop : (body.drop (canonicalHeaderLength frame.header.flags)).take
      (encodeOpcode frame.header ++ text).length = encodeOpcode frame.header ++ text := by
    rw [drop_left' hheader, take_length]
  have hpayloadCrc : (hasFrameFlag frame.header.flags .payloadCrcPresent && read body
      kOptionalHeaderOffset 4 != (crc32c (encodeOpcode frame.header ++ text)).toNat) = false := by
    cases hflag : hasFrameFlag frame.header.flags .payloadCrcPresent with
    | false => rfl
    | true =>
      rw [read_slot _ slot _ (.inl hflag), hcrc hflag]
      simp
  have htype := decodeFrameType_encodeOpcode text h.frameType
  have hdecoded := decodeHeader_encodeHeader frame.header hlt slot
    (encodeOpcode frame.header ++ text)
  have hsize : (encodeOpcode frame.header ++ text).length - controlLength frame.header.flags =
      text.length := by
    rw [length_append, hopcode]
    omega
  unfold decodeFrameBody
  rw [hlengths]
  simp only [bind, Except.bind]
  rw [hoptional]
  simp only [hdrop, hpayloadCrc, Bool.false_eq_true, if_false, htype]
  rw [show decodeHeader body frame.header.flags frame.header.frameType frame.header.perfTrace =
    frame.header from hdecoded, hsize, take_left' hopcode, drop_left' hopcode,
    show body.take (canonicalHeaderLength frame.header.flags) = header from take_left' hheader]
  cases haead : hasFrameFlag frame.header.flags .aeadPresent with
  | false => rfl
  | true =>
    have hkey : UInt32.ofNat (read body kOptionalHeaderOffset 4) = slot := by
      rw [read_slot _ slot _ (.inr haead), UInt32.ofNat_toNat]
    have hlong : ¬ text.length < kWireAeadOverhead := by
      rw [htext, aeadOverhead, if_pos haead]
      omega
    simp only [hkey, if_neg hlong]
    rfl

end Mino.Wire
