import Mino.Wire.FrameStream

/-! # A stream may be cut anywhere

One turn of the loop of `Push` keeps the decoder waiting for the rest of a frame, and what
it holds in front of the rest of the input is always the unread part of the stream. -/

namespace Mino.Wire.LengthPrefixedFrameDecoder

open List ItemReader
open BigEndian (encode read)

variable {κ : Type} {cipher : WireAead κ} {limits : WireFrameLimits}
  {aead : Option (WireAeadKeyring κ)}

/-- The bytes that the decoder keeps. -/
def held (d : LengthPrefixedFrameDecoder) : Bytes := d.prefixBytes ++ d.frameBuffer

/-- A decoder between two calls that has not failed: it waits for the rest of a prefix, or
for the rest of a frame whose prefix has been checked. -/
structure Waiting (limits : WireFrameLimits) (d : LengthPrefixedFrameDecoder) : Prop where
  running : d.failed = false
  prefixShort : d.prefixBytes.length ≤ 4
  bufferEmpty : d.prefixBytes.length < 4 → d.frameBuffer = []
  checked : d.prefixBytes.length = 4 →
    checkFrameLength limits (read d.prefixBytes 0 4) = .ok ()
  expected : d.prefixBytes.length = 4 → d.expectedFrameLength = read d.prefixBytes 0 4
  unfinished : d.prefixBytes.length = 4 → d.frameBuffer.length < d.expectedFrameLength

theorem Waiting.init : Waiting limits init :=
  ⟨rfl, by decide, fun _ => rfl, nofun, nofun, nofun⟩

theorem checkFrameLength_ok {frameLength} (h : checkFrameLength limits frameLength = .ok ()) :
    80 ≤ frameLength ∧ 4 + frameLength ≤ limits.maxBufferedBytes := by
  unfold checkFrameLength kLengthPrefixSize kWireBaseHeaderLength at h
  split at h
  · cases h
  split at h
  · cases h
  split at h
  · cases h
  rename_i hbase _ hbuffer
  simp only [Bool.or_eq_true, decide_eq_true_eq, not_or] at hbuffer
  omega

variable {d : LengthPrefixedFrameDecoder} {s : PushState}

/-- What a decoder keeps is bounded, up to the three bytes of an unfinished prefix. -/
theorem Waiting.bufferedBytes_le (h : Waiting limits d) :
    d.bufferedBytes ≤ max 3 limits.maxBufferedBytes := by
  unfold bufferedBytes
  by_cases hshort : d.prefixBytes.length < 4
  · rw [h.bufferEmpty hshort, length_nil]
    omega
  have hfour : d.prefixBytes.length = 4 := by have := h.prefixShort; omega
  have hbuffer := checkFrameLength_ok (h.checked hfour)
  have hexpected := h.expected hfour
  have hunfinished := h.unfinished hfour
  omega

theorem Waiting.nextFrame_held (h : Waiting limits d) :
    nextFrame cipher limits aead d.held = .ok none := by
  by_cases hshort : d.prefixBytes.length < 4
  · rw [held, h.bufferEmpty hshort, append_nil]
    exact nextFrame_short hshort
  have hfour : d.prefixBytes.length = 4 := by have := h.prefixShort; omega
  rw [held, nextFrame_append hfour, h.checked hfour]
  exact if_pos (by rw [← h.expected hfour]; exact h.unfinished hfour)

/-! ### The parts of a turn -/

variable (cipher aead) in
/-- The prefix is read: the stream ends in it, or it is complete and has been checked. -/
theorem readPrefix_spec (h : Waiting limits s.decoder) :
    match readPrefix limits s with
    | .error (.budget _) => True
    | .error (.stream status) =>
      nextFrame cipher limits aead (s.decoder.held ++ s.input) = .error status
    | .ok (.breaks s') => Waiting limits s'.decoder ∧ s'.frames = s.frames ∧
      s'.decoder.held = s.decoder.held ++ s.input
    | .ok (.goesOn s') => Waiting limits s'.decoder ∧ s'.frames = s.frames ∧
      s'.decoder.prefixBytes.length = 4 ∧ s'.input.length ≤ s.input.length ∧
      s'.decoder.held ++ s'.input = s.decoder.held ++ s.input := by
  unfold readPrefix
  by_cases hshort : s.decoder.prefixBytes.length < 4
  · rw [if_pos (show _ < kLengthPrefixSize from hshort)]
    have hempty := h.bufferEmpty hshort
    have hheld : s.decoder.held = s.decoder.prefixBytes := by rw [held, hempty, append_nil]
    by_cases hbudget : exceedsBudget s.workBytes
        (min (kLengthPrefixSize - s.decoder.prefixBytes.length) s.input.length)
        limits.maxWorkBytesPerPush = true
    · rw [if_pos hbudget]
      trivial
    rw [if_neg hbudget]
    generalize hcount : min (kLengthPrefixSize - s.decoder.prefixBytes.length) s.input.length =
      count
    have hle : count ≤ s.input.length := hcount ▸ Nat.min_le_right _ _
    have hfour : s.decoder.prefixBytes.length + count ≤ 4 := by
      rw [← hcount, kLengthPrefixSize]
      omega
    have hlength : (s.decoder.prefixBytes ++ s.input.take count).length =
        s.decoder.prefixBytes.length + count := by
      rw [length_append, length_take, Nat.min_eq_left hle]
    have hsplit : s.decoder.held ++ s.input =
        (s.decoder.prefixBytes ++ s.input.take count) ++ s.input.drop count := by
      rw [hheld, append_assoc, take_append_drop]
    by_cases hpart : (s.decoder.prefixBytes ++ s.input.take count).length < kLengthPrefixSize
    · rw [if_pos hpart]
      have hall : s.input.length ≤ count := by
        rw [hlength, kLengthPrefixSize] at hpart
        rw [kLengthPrefixSize] at hcount
        omega
      refine ⟨⟨h.running, Nat.le_of_lt hpart, fun _ => hempty, fun heq => absurd heq (Nat.ne_of_lt hpart),
        fun heq => absurd heq (Nat.ne_of_lt hpart), fun heq => absurd heq (Nat.ne_of_lt hpart)⟩,
        rfl, ?_⟩
      rw [hsplit, drop_of_length_le hall, append_nil, held, hempty, append_nil]
    · rw [if_neg hpart]
      have hwhole : (s.decoder.prefixBytes ++ s.input.take count).length = 4 := by
        rw [kLengthPrefixSize] at hpart
        omega
      generalize s.decoder.prefixBytes ++ s.input.take count = front at hsplit hwhole ⊢
      cases hcheck : checkFrameLength limits (read front 0 4) with
      | error status =>
        rw [hsplit, nextFrame_append hwhole, hcheck]
        rfl
      | ok _ =>
        have hbase := checkFrameLength_ok hcheck
        refine ⟨⟨h.running, Nat.le_of_eq hwhole, fun _ => hempty, fun _ => hcheck, fun _ => rfl,
          fun _ => ?_⟩, rfl, hwhole, ?_, ?_⟩
        · change s.decoder.frameBuffer.length < read front 0 4
          rw [hempty, length_nil]
          omega
        · rw [length_drop]
          omega
        · rw [hsplit, held, hempty, append_nil]
  · rw [if_neg (show ¬ _ < kLengthPrefixSize from hshort)]
    have hfour : s.decoder.prefixBytes.length = 4 := by have := h.prefixShort; omega
    exact ⟨h, rfl, hfour, le_rfl, rfl⟩

/-- The bytes of a frame are read: the stream ends in them, or the frame is complete. -/
theorem readBody_spec (h : Waiting limits s.decoder) (hfour : s.decoder.prefixBytes.length = 4) :
    match readBody limits s with
    | .error (.budget _) => True
    | .error (.stream _) => False
    | .ok (.breaks s') => Waiting limits s'.decoder ∧ s'.frames = s.frames ∧
      s'.decoder.held = s.decoder.held ++ s.input
    | .ok (.goesOn s') => s'.frames = s.frames ∧ s'.input.length < s.input.length ∧
      s'.decoder.failed = false ∧ s'.decoder.prefixBytes = s.decoder.prefixBytes ∧
      s'.decoder.frameBuffer.length = read s.decoder.prefixBytes 0 4 ∧
      s'.decoder.held ++ s'.input = s.decoder.held ++ s.input := by
  unfold readBody
  by_cases hbudget : exceedsBudget s.workBytes
      (min (s.decoder.expectedFrameLength - s.decoder.frameBuffer.length) s.input.length)
      limits.maxWorkBytesPerPush = true
  · rw [if_pos hbudget]
    trivial
  rw [if_neg hbudget]
  have hexpected := h.expected hfour
  have hunfinished := h.unfinished hfour
  generalize hcount :
    min (s.decoder.expectedFrameLength - s.decoder.frameBuffer.length) s.input.length = count
  have hle : count ≤ s.input.length := hcount ▸ Nat.min_le_right _ _
  have hlength : (s.decoder.frameBuffer ++ s.input.take count).length =
      s.decoder.frameBuffer.length + count := by
    rw [length_append, length_take, Nat.min_eq_left hle]
  have hsplit : s.decoder.held ++ s.input =
      (s.decoder.prefixBytes ++ (s.decoder.frameBuffer ++ s.input.take count)) ++
        s.input.drop count := by
    rw [held]
    simp only [append_assoc, take_append_drop]
  by_cases hpart :
      (s.decoder.frameBuffer ++ s.input.take count).length < s.decoder.expectedFrameLength
  · rw [if_pos hpart]
    have hall : s.input.length ≤ count := by omega
    refine ⟨⟨h.running, Nat.le_of_eq hfour, fun hlt => absurd hfour (Nat.ne_of_lt hlt),
      fun _ => h.checked hfour, fun _ => hexpected, fun _ => hpart⟩, rfl, ?_⟩
    rw [hsplit, drop_of_length_le hall, append_nil]
    rfl
  · rw [if_neg hpart]
    refine ⟨rfl, ?_, h.running, rfl, ?_, hsplit.symm⟩
    · rw [length_drop]
      omega
    · rw [hlength]
      omega

variable (cipher aead) in
/-- A complete frame is decoded, as at the front of the stream. -/
theorem completeFrame_spec (h : Waiting limits d) (hfour : d.prefixBytes.length = 4)
    (hrunning : s.decoder.failed = false) (hfront : s.decoder.prefixBytes = d.prefixBytes)
    (hlength : s.decoder.frameBuffer.length = read d.prefixBytes 0 4) :
    match completeFrame cipher limits aead s with
    | .error (.budget _) => True
    | .error (.stream status) =>
      nextFrame cipher limits aead (s.decoder.held ++ s.input) = .error status
    | .ok s' => Waiting limits s'.decoder ∧ s'.input = s.input ∧ s'.decoder.held = [] ∧
      ∃ view, s'.frames = s.frames ++ [view] ∧
        nextFrame cipher limits aead (s.decoder.held ++ s.input) = .ok (some (view, s.input)) := by
  have hnext : nextFrame cipher limits aead (s.decoder.held ++ s.input) = (do
      let view ← decodeView cipher limits aead s.decoder.frameBuffer
      .ok (some (view, s.input))) := by
    rw [held, hfront, append_assoc, nextFrame_append hfour, h.checked hfour]
    change (if _ then _ else _) = _
    rw [if_neg (by rw [length_append]; omega), take_left' hlength, drop_left' hlength]
  rw [hnext]
  unfold completeFrame
  by_cases hcount : s.frames.length ≥ limits.maxFramesPerPush
  · rw [if_pos hcount]
    trivial
  rw [if_neg hcount]
  by_cases hwork :
      exceedsBudget s.workBytes s.decoder.frameBuffer.length limits.maxWorkBytesPerPush = true
  · rw [if_pos hwork]
    trivial
  rw [if_neg hwork]
  cases hview : decodeView cipher limits aead s.decoder.frameBuffer with
  | error status => rfl
  | ok view =>
    dsimp only
    by_cases hpayload : exceedsBudget s.decodedPayloadBytes view.payload.length
        limits.maxDecodedPayloadBytesPerPush = true
    · rw [if_pos hpayload]
      trivial
    rw [if_neg hpayload]
    exact ⟨⟨hrunning, Nat.zero_le 4, fun _ => rfl, nofun, nofun, nofun⟩, rfl, rfl, view, rfl, rfl⟩

/-! ### A call -/

variable (cipher aead) in
/-- The loop parses what the decoder holds and the rest of the input. Every turn that goes on
has taken a byte, so the fuel is enough. -/
theorem pushLoop_spec (fuel : Nat) (h : Waiting limits s.decoder) (hfuel : s.input.length ≤ fuel) :
    match pushLoop cipher limits aead fuel s with
    | .error (.budget _) => True
    | .error (.stream status) =>
      ((frameReader cipher limits aead).parse (s.decoder.held ++ s.input)).2 = .error status
    | .ok s' => Waiting limits s'.decoder ∧ ∃ found, s'.frames = s.frames ++ found ∧
      (frameReader cipher limits aead).parse (s.decoder.held ++ s.input) =
        (found, .ok s'.decoder.held) := by
  induction fuel generalizing s with
  | zero =>
    have hnil : s.input = [] := length_eq_zero_iff.mp (Nat.le_zero.mp hfuel)
    refine ⟨h, [], (append_nil _).symm, ?_⟩
    rw [hnil, append_nil]
    exact ItemReader.parse_none h.nextFrame_held
  | succ fuel ih =>
    rw [pushLoop]
    by_cases hnil : s.input = []
    · rw [if_pos hnil]
      refine ⟨h, [], (append_nil _).symm, ?_⟩
      rw [hnil, append_nil]
      exact ItemReader.parse_none h.nextFrame_held
    rw [if_neg hnil]
    have hfront := readPrefix_spec cipher aead h
    cases hp : readPrefix limits s with
    | error failure =>
      rw [hp] at hfront
      cases failure with
      | budget message => trivial
      | stream status => exact congrArg Prod.snd (ItemReader.parse_error hfront)
    | ok turn =>
      rw [hp] at hfront
      cases turn with
      | breaks s₁ =>
        obtain ⟨hwait, hframes, hheld⟩ := hfront
        refine ⟨hwait, [], by rw [hframes, append_nil], ?_⟩
        rw [← hheld]
        exact ItemReader.parse_none hwait.nextFrame_held
      | goesOn s₁ =>
        obtain ⟨hwait, hframes, hfour, hle, hheld⟩ := hfront
        dsimp only
        rw [← hheld, ← hframes]
        have hbody := readBody_spec hwait hfour
        cases hb : readBody limits s₁ with
        | error failure =>
          rw [hb] at hbody
          cases failure with
          | budget message => trivial
          | stream status => exact hbody.elim
        | ok turn =>
          rw [hb] at hbody
          cases turn with
          | breaks s₂ =>
            obtain ⟨hwait₂, hframes₂, hheld₂⟩ := hbody
            refine ⟨hwait₂, [], by rw [hframes₂, append_nil], ?_⟩
            rw [← hheld₂]
            exact ItemReader.parse_none hwait₂.nextFrame_held
          | goesOn s₂ =>
            obtain ⟨hframes₂, hlt, hrunning, hsame, hlength, hheld₂⟩ := hbody
            dsimp only
            rw [← hheld₂, ← hframes₂]
            have hcomplete := completeFrame_spec cipher aead hwait hfour hrunning hsame hlength
            cases hc : completeFrame cipher limits aead s₂ with
            | error failure =>
              rw [hc] at hcomplete
              cases failure with
              | budget message => trivial
              | stream status => exact congrArg Prod.snd (ItemReader.parse_error hcomplete)
            | ok s₃ =>
              rw [hc] at hcomplete
              obtain ⟨hwait₃, hinput, hempty, view, hframes₃, hnext⟩ := hcomplete
              have hparse := ItemReader.parse_item (r := frameReader cipher limits aead) hnext
              have hrest := ih hwait₃ (by rw [hinput]; omega)
              rw [hempty, nil_append, hinput] at hrest
              dsimp only
              rw [hparse]
              cases hl : pushLoop cipher limits aead fuel s₃ with
              | error failure =>
                rw [hl] at hrest
                cases failure with
                | budget message => trivial
                | stream status => exact hrest
              | ok s₄ =>
                rw [hl] at hrest
                obtain ⟨hwait₄, found, hframes₄, hfound⟩ := hrest
                refine ⟨hwait₄, view :: found, ?_, ?_⟩
                · rw [hframes₄, hframes₃, append_assoc]
                  rfl
                · rw [hfound]

/-- A call on a waiting decoder that stays within its budgets. -/
theorem push_spec (h : Waiting limits d) {bytes}
    (hbudget : withinBudget cipher limits aead d bytes = true) :
    (∃ found d', push cipher limits aead d bytes = (.ok found, d') ∧ Waiting limits d' ∧
      (frameReader cipher limits aead).parse (d.held ++ bytes) = (found, .ok d'.held)) ∨
    ∃ status, push cipher limits aead d bytes = (.error status, afterFailure) ∧
      ((frameReader cipher limits aead).parse (d.held ++ bytes)).2 = .error status := by
  have hloop : match pushRun cipher limits aead d bytes with
      | .error (.budget _) => True
      | .error (.stream status) =>
        ((frameReader cipher limits aead).parse (d.held ++ bytes)).2 = .error status
      | .ok s' => Waiting limits s'.decoder ∧ ∃ found, s'.frames = [] ++ found ∧
        (frameReader cipher limits aead).parse (d.held ++ bytes) = (found, .ok s'.decoder.held) :=
    pushLoop_spec cipher aead bytes.length (s := ⟨d, bytes, [], 0, 0⟩) h le_rfl
  unfold withinBudget at hbudget
  unfold push
  rw [h.running] at hbudget ⊢
  rw [if_neg (by decide)]
  cases hrun : pushRun cipher limits aead d bytes with
  | error failure =>
    rw [hrun] at hloop hbudget
    cases failure with
    | budget message => cases hbudget
    | stream status => exact .inr ⟨status, rfl, hloop⟩
  | ok s =>
    rw [hrun] at hloop
    obtain ⟨hwait, found, hframes, hparse⟩ := hloop
    rw [nil_append] at hframes
    subst hframes
    exact .inl ⟨_, _, rfl, hwait, hparse⟩

variable (cipher aead) in
/-- Whatever is pushed, the decoder waits or has failed and keeps nothing. -/
theorem push_waiting_or_failed (h : Waiting limits d ∨ d = afterFailure) (bytes : Bytes) :
    Waiting limits (push cipher limits aead d bytes).2 ∨
      (push cipher limits aead d bytes).2 = afterFailure := by
  rcases h with h | rfl
  · have hloop := pushLoop_spec cipher aead bytes.length (s := ⟨d, bytes, [], 0, 0⟩) h le_rfl
    unfold push pushRun
    rw [h.running, if_neg (by decide)]
    cases hrun : pushLoop cipher limits aead bytes.length ⟨d, bytes, [], 0, 0⟩ with
    | error failure => exact .inr rfl
    | ok s =>
      rw [hrun] at hloop
      exact .inl hloop.1
  · exact .inr rfl

variable (cipher limits aead) in
theorem waiting_or_failed_of_calls (h : Waiting limits d ∨ d = afterFailure) (calls : List Call) :
    Waiting limits (calls.foldl (afterCall cipher limits aead) d) ∨
      calls.foldl (afterCall cipher limits aead) d = afterFailure := by
  induction calls generalizing d with
  | nil => exact h
  | cons call calls ih =>
    refine ih ?_
    cases call with
    | push bytes => exact push_waiting_or_failed cipher aead h bytes
    | reset => exact .inl .init
    | finish =>
      change Waiting limits d.finish.2 ∨ d.finish.2 = afterFailure
      unfold finish
      split
      · exact h
      split
      · exact .inr rfl
      · exact h

theorem afterCall_failed (h : d.failed = true) {call} (hreset : call ≠ .reset) :
    afterCall cipher limits aead d call = d := by
  cases call with
  | push bytes => simp [afterCall, push, h]
  | finish => simp [afterCall, finish, h]
  | reset => exact absurd rfl hreset

theorem calls_failed (h : d.failed = true) {calls : List Call} (hreset : .reset ∉ calls) :
    calls.foldl (afterCall cipher limits aead) d = d := by
  induction calls with
  | nil => rfl
  | cons call calls ih =>
    rw [foldl_cons, afterCall_failed h fun heq => hreset (heq ▸ mem_cons_self)]
    exact ih fun hmem => hreset (mem_cons_of_mem _ hmem)

/-! ### All calls -/

variable (cipher limits aead) in
theorem pushAll_failed (h : d.failed = true)
    (chunks : List Bytes) : returned (pushAll cipher limits aead d chunks).1 = [] ∧
      (pushAll cipher limits aead d chunks).2 = d := by
  induction chunks with
  | nil => exact ⟨rfl, rfl⟩
  | cons chunk chunks ih =>
    have hpush : push cipher limits aead d chunk =
        (.error (corruption "stream decoder is failed; call Reset"), d) := by
      simp [push, h]
    rw [pushAll, hpush]
    exact ih

variable {chunks : List Bytes}

/-- The frames that come back are those of the chunks in front of the call that fails, and
of the whole stream if no call fails. -/
theorem pushAll_spec (h : Waiting limits d)
    (hbudget : withinBudgets cipher limits aead d chunks = true) :
    ∃ front rest, chunks = front ++ rest ∧ ∃ left,
      (frameReader cipher limits aead).parse (d.held ++ front.flatten) =
        (returned (pushAll cipher limits aead d chunks).1, .ok left) ∧
      ((rest = [] ∧ Waiting limits (pushAll cipher limits aead d chunks).2 ∧
          (pushAll cipher limits aead d chunks).2.held = left) ∨
        (pushAll cipher limits aead d chunks).2 = afterFailure ∧
          ∃ chunk later status, rest = chunk :: later ∧
            ((frameReader cipher limits aead).parse (d.held ++ (front.flatten ++ chunk))).2 =
              .error status) := by
  induction chunks generalizing d with
  | nil =>
    refine ⟨[], [], rfl, d.held, ?_, .inl ⟨rfl, h, rfl⟩⟩
    rw [flatten_nil, append_nil]
    exact parse_none h.nextFrame_held
  | cons chunk chunks ih =>
    rw [withinBudgets, Bool.and_eq_true] at hbudget
    obtain ⟨hfirst, hrest⟩ := hbudget
    rcases push_spec h hfirst with ⟨found, d', hpush, hwait, hparse⟩ | ⟨status, hpush, hparse⟩
    · rw [hpush] at hrest
      obtain ⟨front, rest, hchunks, left, hfront, hend⟩ := ih hwait hrest
      have happend : ∀ b, (frameReader cipher limits aead).parse (d.held ++ (chunk ++ b)) =
          (found ++ ((frameReader cipher limits aead).parse (d'.held ++ b)).1,
            ((frameReader cipher limits aead).parse (d'.held ++ b)).2) := by
        intro b
        rw [← append_assoc, parse_append_ok (congrArg Prod.snd hparse) b, hparse]
      refine ⟨chunk :: front, rest, by rw [hchunks]; rfl, left, ?_, ?_⟩
      · rw [pushAll, hpush, flatten_cons, happend, hfront]
        rfl
      rw [pushAll, hpush]
      refine hend.imp_right fun ⟨hfailed, chunk', later, status, hrest', herror⟩ =>
        ⟨hfailed, chunk', later, status, hrest', ?_⟩
      rw [flatten_cons, append_assoc, happend]
      exact herror
    · obtain ⟨hnone, hafter⟩ := pushAll_failed cipher limits aead (d := afterFailure) rfl chunks
      refine ⟨[], chunk :: chunks, rfl, d.held, ?_, .inr ⟨?_, chunk, chunks, status, rfl, hparse⟩⟩
      · rw [pushAll, hpush, flatten_nil, append_nil, parse_none h.nextFrame_held]
        exact congrArg (·, _) hnone.symm
      · rw [pushAll, hpush]
        exact hafter

/-- An encoded frame at the front of a stream. -/
theorem nextFrame_encodeLengthPrefixed {frame piece}
    (h : encodeLengthPrefixed cipher limits aead frame = .ok piece)
    (hbuffer : piece.length ≤ limits.maxBufferedBytes) (rest : Bytes) :
    ∃ view, nextFrame cipher limits aead (piece ++ rest) = .ok (some (view, rest)) ∧
      view.intoWireFrame = frame := by
  obtain ⟨body, hbody, hpiece⟩ := Result.bind_eq_ok h
  cases hpiece
  obtain ⟨hbase, hmax, hlt⟩ := length_encodeBody hbody
  obtain ⟨view, hview, hheader, hpayload⟩ := decodeView_encodeBody hbody
  have hread : read (encode 4 body.length) 0 4 = body.length := by
    have hfield := BigEndian.read_encode (show body.length < 256 ^ 4 from hlt) []
    rwa [append_nil] at hfield
  have hcheck : checkFrameLength limits body.length = .ok () := by
    rw [length_append, BigEndian.length_encode] at hbuffer
    have hfour : kLengthPrefixSize = 4 := rfl
    have hfits : (limits.maxBufferedBytes < kLengthPrefixSize ||
        body.length > limits.maxBufferedBytes - kLengthPrefixSize) = false := by
      simp only [Bool.or_eq_false_iff, decide_eq_false_iff_not]
      omega
    unfold checkFrameLength
    rw [if_neg (by omega), if_neg (by omega), hfits]
    rfl
  refine ⟨view, ?_, by rw [view.intoWireFrame_eq, hheader, hpayload]⟩
  rw [append_assoc, nextFrame_append (BigEndian.length_encode 4 _), hread, hcheck]
  rw [if_neg (by rw [length_append]; omega), take_left, drop_left, hview]
  rfl

/-- Encoded frames, one after the other, are parsed back. -/
theorem parse_encodeLengthPrefixed {frames pieces}
    (h : List.Forall₂ (fun frame piece => encodeLengthPrefixed cipher limits aead frame = .ok piece ∧
      piece.length ≤ limits.maxBufferedBytes) frames pieces) :
    ∃ views, (frameReader cipher limits aead).parse pieces.flatten = (views, .ok []) ∧
      views.map ValidatedWireFrameView.intoWireFrame = frames := by
  induction h with
  | nil =>
    have hnone : nextFrame cipher limits aead [] = .ok none := nextFrame_short (by decide)
    exact ⟨[], parse_none hnone, rfl⟩
  | cons hpiece _ ih =>
    obtain ⟨views, hparse, hviews⟩ := ih
    obtain ⟨view, hnext, hview⟩ := nextFrame_encodeLengthPrefixed hpiece.1 hpiece.2 _
    refine ⟨view :: views, ?_, by rw [map_cons, hview, hviews]⟩
    rw [flatten_cons, parse_item hnext, hparse]

/-- The outcome of all calls, as one parse of the stream. -/
theorem pushAll_parse (hbudget : withinBudgets cipher limits aead init chunks = true) :
    ((pushAll cipher limits aead init chunks).2.failed = true ∧
        ∃ status, ((frameReader cipher limits aead).parse chunks.flatten).2 = .error status) ∨
      (pushAll cipher limits aead init chunks).2.failed = false ∧
        (frameReader cipher limits aead).parse chunks.flatten =
          (returned (pushAll cipher limits aead init chunks).1,
            .ok (pushAll cipher limits aead init chunks).2.held) := by
  obtain ⟨front, rest, hchunks, left, hfront, ⟨rfl, hwait, hleft⟩ | ⟨hfailed, chunk, later, status,
    rfl, herror⟩⟩ := pushAll_spec .init hbudget
  · rw [append_nil] at hchunks
    subst hchunks
    exact .inr ⟨hwait.running, by rw [hleft]; exact hfront⟩
  · refine .inl ⟨by rw [hfailed]; rfl, status, ?_⟩
    have hwhole : chunks.flatten = (front.flatten ++ chunk) ++ later.flatten := by
      rw [hchunks, flatten_append, flatten_cons, append_assoc]
    have herror' : ((frameReader cipher limits aead).parse (front.flatten ++ chunk)).2 =
        .error status := herror
    rw [hwhole, parse_append_error herror', herror']

theorem finish_of_held (hrunning : d.failed = false) (hheld : d.held = []) :
    d.finish.1 = .success := by
  obtain ⟨hfront, hbuffer⟩ := append_eq_nil_iff.mp hheld
  simp [finish, hrunning, hfront, hbuffer]

/-- The chunk at which the stream turns bad finishes no frame in front of the error. -/
def FailsBare (cipher : WireAead κ) (limits : WireFrameLimits) (aead : Option (WireAeadKeyring κ))
    (chunks : List Bytes) : Prop :=
  ∀ front chunk later status, chunks = front ++ chunk :: later →
    ((frameReader cipher limits aead).parse (front.flatten ++ chunk)).2 = .error status →
    ((frameReader cipher limits aead).parse (front.flatten ++ chunk)).1 =
      ((frameReader cipher limits aead).parse front.flatten).1

/-- What the calls return: all frames of the stream, or those of the chunks in front of the call
that fails. -/
theorem pushAll_returned (hbudget : withinBudgets cipher limits aead init chunks = true) :
    ((pushAll cipher limits aead init chunks).2.failed = false ∧ ∃ left,
      (frameReader cipher limits aead).parse chunks.flatten =
        (returned (pushAll cipher limits aead init chunks).1, .ok left)) ∨
    (pushAll cipher limits aead init chunks).2.failed = true ∧ ∃ front chunk later left status,
      chunks = front ++ chunk :: later ∧ (frameReader cipher limits aead).parse front.flatten =
        (returned (pushAll cipher limits aead init chunks).1, .ok left) ∧
      ((frameReader cipher limits aead).parse (front.flatten ++ chunk)).2 = .error status := by
  obtain ⟨front, rest, hchunks, left, hfront, ⟨rfl, hwait, -⟩ | ⟨hfailed, chunk, later, status,
    rfl, herror⟩⟩ := pushAll_spec .init hbudget
  · rw [append_nil] at hchunks
    subst hchunks
    exact .inl ⟨hwait.running, left, hfront⟩
  · exact .inr ⟨by rw [hfailed]; rfl, front, chunk, later, left, status, hchunks, hfront, herror⟩

theorem returned_of_failsBare (hbudget : withinBudgets cipher limits aead init chunks = true)
    (hbare : FailsBare cipher limits aead chunks) :
    returned (pushAll cipher limits aead init chunks).1 =
      ((frameReader cipher limits aead).parse chunks.flatten).1 := by
  rcases pushAll_returned hbudget with ⟨-, left, hall⟩ | ⟨-, front, chunk, later, left, status,
    hchunks, hfront, herror⟩
  · rw [hall]
  · have hwhole : chunks.flatten = (front.flatten ++ chunk) ++ later.flatten := by
      rw [hchunks, flatten_append, flatten_cons, append_assoc]
    rw [hwhole, parse_append_error herror, hbare front chunk later status hchunks herror, hfront]

/-- The stream decoder, with a buffer that holds more than an unfinished prefix. Encoded frames
that fit the buffer come back whatever the cutting. For any stream the frames that come back are
those of the chunks in front of the call that fails; whether a call fails does not depend on the
cutting, and the frames do not either if the failing call has finished none; what is kept is
within the buffer, and a decoder that has failed returns no frame before `Reset`. -/
theorem stream_decoder_cuttings (cipher : WireAead κ) (limits : WireFrameLimits)
    (aead : Option (WireAeadKeyring κ)) (hbuffer : 3 ≤ limits.maxBufferedBytes) :
    (∀ frames pieces chunks, List.Forall₂ (fun frame piece =>
        encodeLengthPrefixed cipher limits aead frame = .ok piece ∧
          piece.length ≤ limits.maxBufferedBytes) frames pieces →
      chunks.flatten = pieces.flatten → withinBudgets cipher limits aead init chunks = true →
      (returned (pushAll cipher limits aead init chunks).1).map
          ValidatedWireFrameView.intoWireFrame = frames ∧
        (pushAll cipher limits aead init chunks).2.finish.1 = .success) ∧
    (∀ chunks, withinBudgets cipher limits aead init chunks = true →
      ((pushAll cipher limits aead init chunks).2.failed = false ∧ ∃ left,
        (frameReader cipher limits aead).parse chunks.flatten =
          (returned (pushAll cipher limits aead init chunks).1, .ok left)) ∨
      (pushAll cipher limits aead init chunks).2.failed = true ∧ ∃ front chunk later left status,
        chunks = front ++ chunk :: later ∧ (frameReader cipher limits aead).parse front.flatten =
          (returned (pushAll cipher limits aead init chunks).1, .ok left) ∧
        ((frameReader cipher limits aead).parse (front.flatten ++ chunk)).2 = .error status) ∧
    (∀ chunks chunks', chunks.flatten = chunks'.flatten → withinBudgets cipher limits aead init
      chunks = true → withinBudgets cipher limits aead init chunks' = true →
      (pushAll cipher limits aead init chunks).2.failed =
          (pushAll cipher limits aead init chunks').2.failed ∧
        (FailsBare cipher limits aead chunks → FailsBare cipher limits aead chunks' →
          returned (pushAll cipher limits aead init chunks).1 =
            returned (pushAll cipher limits aead init chunks').1)) ∧
    (∀ calls : List Call, (calls.foldl (afterCall cipher limits aead) init).bufferedBytes ≤
      limits.maxBufferedBytes) ∧
    ∀ d, d.failed = true → ∀ calls : List Call, .reset ∉ calls → ∀ bytes,
      push cipher limits aead (calls.foldl (afterCall cipher limits aead) d) bytes =
        (.error (corruption "stream decoder is failed; call Reset"), d) := by
  refine ⟨?_, fun chunks => pushAll_returned, ?_, ?_, ?_⟩
  · intro frames pieces chunks hpieces hflatten hbudget
    obtain ⟨views, hparse, hviews⟩ := parse_encodeLengthPrefixed hpieces
    rcases pushAll_parse hbudget with ⟨-, status, herror⟩ | ⟨hrunning, hall⟩
    · rw [hflatten, hparse] at herror
      cases herror
    rw [hflatten, hparse] at hall
    obtain ⟨hreturned, hheld⟩ := Prod.mk.inj hall
    rw [← hreturned]
    exact ⟨hviews, finish_of_held hrunning (Except.ok.inj hheld).symm⟩
  · intro chunks chunks' hflatten hbudget hbudget'
    refine ⟨?_, fun hbare hbare' => ?_⟩
    · rcases pushAll_parse hbudget with ⟨hfailed, status, herror⟩ | ⟨hrunning, hall⟩ <;>
        rcases pushAll_parse hbudget' with ⟨hfailed', status', herror'⟩ | ⟨hrunning', hall'⟩
      · exact hfailed.trans hfailed'.symm
      · rw [hflatten, hall'] at herror
        cases herror
      · rw [← hflatten, hall] at herror'
        cases herror'
      · exact hrunning.trans hrunning'.symm
    · rw [returned_of_failsBare hbudget hbare, returned_of_failsBare hbudget' hbare', hflatten]
  · intro calls
    rcases waiting_or_failed_of_calls cipher limits aead (.inl .init) calls with h | h
    · exact h.bufferedBytes_le.trans (max_le hbuffer le_rfl)
    · rw [h]
      exact Nat.zero_le _
  · intro d hfailed calls hreset bytes
    rw [calls_failed hfailed hreset, push, if_pos hfailed]

def smallLimits : WireFrameLimits := ⟨16, 256, 4, 1024, 1024⟩

/-- A data frame without payload, in front of its length. -/
def emptyPiece : Bytes := encode 4 80 ++ plainBody []

/-- A frame in three pieces, the second of them empty; then a bad length prefix. -/
theorem stream_decoder_cuttings_pieces :
    encodeLengthPrefixed noCipher smallLimits none ⟨plainHeader, []⟩ = .ok emptyPiece ∧
    (returned (pushAll noCipher smallLimits none init [emptyPiece.take 3, [], emptyPiece.drop 3]).1).map
      ValidatedWireFrameView.intoWireFrame = [⟨plainHeader, []⟩] ∧
    (pushAll noCipher smallLimits none init [emptyPiece, [0, 0], [0, 0]]).2.failed = true ∧
    (pushAll noCipher smallLimits none init [emptyPiece ++ [0, 0, 0, 0]]).2.failed = true := by
  have hpiece : encodeLengthPrefixed noCipher smallLimits none ⟨plainHeader, []⟩ = .ok emptyPiece := by
    rfl
  obtain ⟨hframes, -, hcuts, -⟩ := stream_decoder_cuttings noCipher smallLimits none (by decide)
  have hfailed : (pushAll noCipher smallLimits none init [emptyPiece, [0, 0], [0, 0]]).2.failed =
      true := by decide +kernel
  refine ⟨hpiece, (hframes [⟨plainHeader, []⟩] [emptyPiece]
    [emptyPiece.take 3, [], emptyPiece.drop 3] (.cons ⟨hpiece, by decide +kernel⟩ .nil)
    (by decide +kernel) (by decide +kernel)).1, hfailed, ?_⟩
  rw [← hfailed]
  exact (hcuts [emptyPiece ++ [0, 0, 0, 0]] [emptyPiece, [0, 0], [0, 0]] (by decide +kernel)
    (by decide +kernel) (by decide +kernel)).1

/-- Three bytes of a prefix are kept whatever the buffer; and of a good frame with a bad length
prefix behind it the frame comes back from two calls but not from one. -/
theorem buffer_limit_exceeded :
    (push noCipher { smallLimits with maxBufferedBytes := 2 } none init [0, 0, 0]).2.bufferedBytes = 3 ∧
    (returned (pushAll noCipher smallLimits none init [emptyPiece, [0, 0, 0, 0]]).1).length = 1 ∧
    returned (pushAll noCipher smallLimits none init [emptyPiece ++ [0, 0, 0, 0]]).1 = [] ∧
    withinBudgets noCipher smallLimits none init [emptyPiece, [0, 0, 0, 0]] = true ∧
    withinBudgets noCipher smallLimits none init [emptyPiece ++ [0, 0, 0, 0]] = true := by
  refine ⟨?_, ?_, ?_, ?_, ?_⟩ <;> decide +kernel

end Mino.Wire.LengthPrefixedFrameDecoder
