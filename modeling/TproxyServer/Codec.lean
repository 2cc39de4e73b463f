import TproxyServer.Frames

/-! # The frame codec is a bijection

`ParseAll` undoes `Encode` on every list of frames within the limits, and whatever it accepts is
such a list encoded.  `parseAllChecked` is `ParseAll` with the bounds checks of Go's indexing and
slicing spelt out; it never hits one of them. -/

namespace TproxyServer

/-- A frame that `Encode` takes and `ParseAll` gives back under the limit `limit`: its type is
the one that its byte names. -/
structure Frame.Encodable (limit : ℕ) (f : Frame) : Prop where
  type : FrameType.ofByte f.type.toByte = f.type
  streamID : f.streamID ≤ maxStreamID
  payload : f.payload.length ≤ limit

theorem FrameType.ofByte_idem (b : UInt8) :
    FrameType.ofByte (FrameType.ofByte b).toByte = FrameType.ofByte b := by
  rw [FrameType.toByte_ofByte]

/-- The frames of a batch, encoded one after the other. -/
def encodeAll (frames : List Frame) : Bytes := frames.flatMap Frame.encode

@[simp] theorem encodeAll_nil : encodeAll [] = [] := rfl

@[simp] theorem encodeAll_cons (f : Frame) (frames : List Frame) :
    encodeAll (f :: frames) = f.encode ++ encodeAll frames := rfl

@[simp] theorem encodeAll_append (frames frames' : List Frame) :
    encodeAll (frames ++ frames') = encodeAll frames ++ encodeAll frames' := by
  simp [encodeAll]

@[simp] theorem Frame.encode_length (f : Frame) :
    f.encode.length = headerSize + f.payload.length :=
  TproxyServer.encode_length f.type f.streamID f.payload

/-! ### One frame -/

variable {limit room : ℕ} {f : Frame} {rest input : Bytes} {frames : List Frame}

theorem Frame.encode_eq (f : Frame) (rest : Bytes) :
    f.encode ++ rest = f.type.toByte :: UInt8.ofNat (f.streamID / 2 ^ 16) ::
      UInt8.ofNat (f.streamID / 2 ^ 8) :: UInt8.ofNat f.streamID ::
        (putUint32 f.payload.length ++ (f.payload ++ rest)) := by
  simp [Frame.encode, TproxyServer.encode]

/-- The header gives the length of the payload back. -/
theorem uint32_encode (h : f.payload.length ≤ maxUint32) (rest : Bytes) :
    uint32 ((f.encode ++ rest).drop 4) = f.payload.length := by
  rw [Frame.encode_eq]
  show uint32 (putUint32 f.payload.length ++ (f.payload ++ rest)) = _
  rw [uint32_putUint32_append]
  apply Nat.mod_eq_of_lt
  unfold maxUint32 at h
  omega

/-- The three bytes of a stream id give it back. -/
theorem streamID_bytes {id : ℕ} (h : id ≤ maxStreamID) :
    (UInt8.ofNat (id / 2 ^ 16)).toNat * 2 ^ 16 + (UInt8.ofNat (id / 2 ^ 8)).toNat * 2 ^ 8 +
      (UInt8.ofNat id).toNat = id := by
  unfold maxStreamID at h
  simp only [UInt8.toNat_ofNat']
  omega

theorem parseLoop_encode (hf : f.Encodable limit) (hlimit : limit ≤ maxUint32) :
    parseLoop limit (room + 1) (f.encode ++ rest) =
      match parseLoop limit room rest with
      | .error e => .error e
      | .ok frames => .ok (f :: frames) := by
  have hpayload : f.payload.length ≤ maxUint32 := hf.payload.trans hlimit
  have hlength := uint32_encode hpayload rest
  have hwhole : (f.encode ++ rest).length = headerSize + f.payload.length + rest.length := by
    simp
  have htake : ((f.encode ++ rest).take (headerSize + f.payload.length)).drop headerSize =
      f.payload := by
    rw [List.take_left' (Frame.encode_length f)]
    exact drop_encode f.type f.streamID f.payload
  have hdrop : (f.encode ++ rest).drop (headerSize + f.payload.length) = rest :=
    List.drop_left' (Frame.encode_length f)
  have hid := streamID_bytes hf.streamID
  rw [Frame.encode_eq] at hlength hwhole htake hdrop ⊢
  rw [parseLoop]
  dsimp only
  rw [hlength, hwhole, htake, hdrop]
  rw [if_neg (by omega), if_neg (by have := hf.payload; omega), if_neg (by omega)]
  have hframe : (⟨.ofByte f.type.toByte, (UInt8.ofNat (f.streamID / 2 ^ 16)).toNat * 2 ^ 16 +
      (UInt8.ofNat (f.streamID / 2 ^ 8)).toNat * 2 ^ 8 + (UInt8.ofNat f.streamID).toNat,
      f.payload⟩ : Frame) = f := by
    rw [hid, hf.type]
  simp only [List.getD_cons_succ, List.getD_cons_zero]
  cases parseLoop limit room rest with
  | error e => rfl
  | ok frames => exact congrArg (fun g => Except.ok (g :: frames)) hframe

/-! ### Whole batches -/

theorem parseLoop_encodeAll (hframes : ∀ f ∈ frames, f.Encodable limit)
    (hlimit : limit ≤ maxUint32) (hroom : frames.length ≤ room) :
    parseLoop limit room (encodeAll frames) = .ok frames := by
  induction frames generalizing room with
  | nil => cases room <;> rfl
  | cons f frames ih =>
      cases room with
      | zero => simp at hroom
      | succ room =>
          rw [encodeAll_cons, parseLoop_encode (hframes f (by simp)) hlimit,
            ih (fun g hg => hframes g (by simp [hg])) (by simpa using hroom)]

/-- The header of the input is that of the frame read from it. -/
theorem encode_header (hlen : headerSize ≤ input.length) :
    [(input.getD 0 0), UInt8.ofNat (((input.getD 1 0).toNat * 2 ^ 16 +
      (input.getD 2 0).toNat * 2 ^ 8 + (input.getD 3 0).toNat) / 2 ^ 16),
      UInt8.ofNat (((input.getD 1 0).toNat * 2 ^ 16 + (input.getD 2 0).toNat * 2 ^ 8 +
        (input.getD 3 0).toNat) / 2 ^ 8),
      UInt8.ofNat ((input.getD 1 0).toNat * 2 ^ 16 + (input.getD 2 0).toNat * 2 ^ 8 +
        (input.getD 3 0).toNat)] ++ putUint32 (uint32 (input.drop 4)) = input.take headerSize := by
  obtain ⟨b₀, b₁, b₂, b₃, b₄, b₅, b₆, b₇, tail, rfl⟩ : ∃ b₀ b₁ b₂ b₃ b₄ b₅ b₆ b₇ tail,
      input = b₀ :: b₁ :: b₂ :: b₃ :: b₄ :: b₅ :: b₆ :: b₇ :: tail := by
    match input, hlen with
    | b₀ :: b₁ :: b₂ :: b₃ :: b₄ :: b₅ :: b₆ :: b₇ :: tail, _ =>
        exact ⟨b₀, b₁, b₂, b₃, b₄, b₅, b₆, b₇, tail, rfl⟩
  have hbyte : ∀ (n : ℕ) (b : UInt8), n % 256 = b.toNat → UInt8.ofNat n = b := by
    intro n b h
    apply UInt8.toNat_inj.mp
    rw [UInt8.toNat_ofNat']
    simpa using h
  have h₁ := b₁.toNat_lt
  have h₂ := b₂.toNat_lt
  have h₃ := b₃.toNat_lt
  have h₄ := b₄.toNat_lt
  have h₅ := b₅.toNat_lt
  have h₆ := b₆.toNat_lt
  have h₇ := b₇.toNat_lt
  simp only [List.getD_cons_zero, List.getD_cons_succ, List.drop_succ_cons, List.drop_zero,
    uint32, putUint32, headerSize, List.take_succ_cons, List.take_zero, List.cons_append,
    List.nil_append, List.cons.injEq, and_true, true_and]
  refine ⟨?_, ?_, ?_, ?_, ?_, ?_, ?_⟩ <;>
    · apply hbyte
      omega

/-- The frame that the loop reads at the head of its input. -/
def headFrame (input : Bytes) : Frame :=
  ⟨.ofByte (input.getD 0 0), (input.getD 1 0).toNat * 2 ^ 16 + (input.getD 2 0).toNat * 2 ^ 8 +
    (input.getD 3 0).toNat, (input.take (headerSize + uint32 (input.drop 4))).drop headerSize⟩

theorem headFrame_payload (hfull : headerSize + uint32 (input.drop 4) ≤ input.length) :
    (headFrame input).payload.length = uint32 (input.drop 4) := by
  show ((input.take _).drop headerSize).length = _
  rw [List.length_drop, List.length_take]
  omega

theorem headFrame_encode (hfull : headerSize + uint32 (input.drop 4) ≤ input.length) :
    (headFrame input).encode = input.take (headerSize + uint32 (input.drop 4)) := by
  have hpayload := headFrame_payload hfull
  have hheader := @encode_header input (by omega)
  have hsplit : input.take (headerSize + uint32 (input.drop 4)) =
      input.take headerSize ++ (headFrame input).payload := by
    show _ = _ ++ (input.take _).drop headerSize
    rw [List.take_add, List.drop_left' (by rw [List.length_take]; omega)]
  rw [hsplit, ← hheader]
  show encode _ _ _ = _
  unfold encode
  rw [hpayload, headFrame, FrameType.toByte_ofByte]

theorem headFrame_encodable (hfull : headerSize + uint32 (input.drop 4) ≤ input.length)
    (hlimit : uint32 (input.drop 4) ≤ limit) : (headFrame input).Encodable limit where
  type := FrameType.ofByte_idem _
  streamID := by
    have h₁ := (input.getD 1 0).toNat_lt
    have h₂ := (input.getD 2 0).toNat_lt
    have h₃ := (input.getD 3 0).toNat_lt
    unfold headFrame maxStreamID
    dsimp only
    omega
  payload := by
    show ((input.take _).drop headerSize).length ≤ limit
    rw [List.length_drop, List.length_take]
    omega

/-- One turn of the loop, on an input that is not empty. -/
theorem parseLoop_succ (h : input ≠ []) :
    parseLoop limit (room + 1) input =
      if input.length < headerSize then .error .incomplete
      else if limit < uint32 (input.drop 4) then .error .payload
      else if input.length < headerSize + uint32 (input.drop 4) then .error .incomplete
      else match parseLoop limit room (input.drop (headerSize + uint32 (input.drop 4))) with
        | .error e => .error e
        | .ok frames => .ok (headFrame input :: frames) := by
  cases input with
  | nil => exact absurd rfl h
  | cons b rest => rfl

/-- What the loop accepts is a list of frames encoded. -/
theorem parseLoop_sound (h : parseLoop limit room input = .ok frames) :
    encodeAll frames = input ∧ frames.length ≤ room ∧ ∀ f ∈ frames, f.Encodable limit := by
  induction room generalizing input frames with
  | zero =>
      cases input with
      | nil => cases h; simp
      | cons => cases h
  | succ room ih =>
      by_cases hempty : input = []
      · subst hempty
        cases h
        simp
      · rw [parseLoop_succ hempty] at h
        split_ifs at h with _ hlength hfull
        cases hrest : parseLoop limit room (input.drop (headerSize + uint32 (input.drop 4))) with
        | error e =>
            rw [hrest] at h
            cases h
        | ok frames' =>
            rw [hrest] at h
            cases h
            obtain ⟨hinput, hcount, hall⟩ := ih hrest
            have hfull' := Nat.not_lt.mp hfull
            refine ⟨?_, ?_, ?_⟩
            · rw [encodeAll_cons, headFrame_encode hfull', hinput, List.take_append_drop]
            · simpa using hcount
            · intro f hf
              rcases List.mem_cons.mp hf with rfl | hf
              · exact headFrame_encodable hfull' (Nat.not_lt.mp hlength)
              · exact hall f hf

/-! ### Indices and slices -/

/-- `b[i]`; `none` is the panic. -/
def indexByte (b : Bytes) (i : ℕ) : Option UInt8 := b[i]?

/-- `b[low:high]`; `none` is the panic. -/
def sliceBytes (b : Bytes) (low high : ℕ) : Option Bytes :=
  if low ≤ high ∧ high ≤ b.length then some ((b.take high).drop low) else none

/-- The frame at the head of `input`, `length` bytes of payload being declared. -/
def readFrame (input : Bytes) (length : ℕ) : Option (Frame × Bytes) := do
  let type ← indexByte input 0
  let high ← indexByte input 1
  let middle ← indexByte input 2
  let low ← indexByte input 3
  let payload ← sliceBytes input headerSize (headerSize + length)
  let rest ← sliceBytes input (headerSize + length) input.length
  pure (⟨.ofByte type, high.toNat * 2 ^ 16 + middle.toNat * 2 ^ 8 + low.toNat, payload⟩, rest)

/-- The loop of `ParseAll` with every index and slice checked. -/
def parseLoopChecked (maxPayload : ℕ) : ℕ → Bytes → Option (Except FrameError (List Frame))
  | _, [] => some (.ok [])
  | 0, _ :: _ => some (.error .tooManyFrames)
  | room + 1, b :: rest =>
      let input := b :: rest
      if input.length < headerSize then some (.error .incomplete)
      else
        match sliceBytes input 4 8 with
        | none => none
        | some word =>
            let length := uint32 word
            if maxPayload < length then some (.error .payload)
            else if input.length < headerSize + length then some (.error .incomplete)
            else
              match readFrame input length with
              | none => none
              | some (f, rest) =>
                  match parseLoopChecked maxPayload room rest with
                  | none => none
                  | some (.error e) => some (.error e)
                  | some (.ok frames) => some (.ok (f :: frames))

/-- `ParseAll` with every index and slice checked. -/
def parseAllChecked (input : Bytes) (limit : ℕ) : Option (Except FrameError (List Frame)) :=
  let limit := if limit = 0 ∨ maxPayload < limit then maxPayload else limit
  match parseLoopChecked limit maxBatchFrames input with
  | none => none
  | some (.error e) => some (.error e)
  | some (.ok []) => some (.error .emptyBatch)
  | some (.ok (f :: frames)) => some (.ok (f :: frames))

theorem sliceBytes_header (h : headerSize ≤ input.length) :
    ∃ word, sliceBytes input 4 8 = some word ∧ uint32 word = uint32 (input.drop 4) := by
  unfold headerSize at h
  refine ⟨(input.take 8).drop 4, if_pos ⟨by omega, h⟩, ?_⟩
  unfold uint32
  have hget : ∀ i < 4, ((input.take 8).drop 4).getD i 0 = (input.drop 4).getD i 0 := by
    intro i hi
    simp only [List.getD_eq_getElem?_getD, List.getElem?_drop]
    rw [List.getElem?_take_of_lt (by omega)]
  rw [hget 0 (by omega), hget 1 (by omega), hget 2 (by omega), hget 3 (by omega)]

theorem readFrame_headFrame (hfull : headerSize + uint32 (input.drop 4) ≤ input.length) :
    readFrame input (uint32 (input.drop 4)) =
      some (headFrame input, input.drop (headerSize + uint32 (input.drop 4))) := by
  have hindex : ∀ i < headerSize, indexByte input i = some (input.getD i 0) := by
    intro i hi
    have hlt : i < input.length := by omega
    unfold indexByte
    rw [List.getD_eq_getElem?_getD, List.getElem?_eq_getElem hlt]
    rfl
  have hpayload : sliceBytes input headerSize (headerSize + uint32 (input.drop 4)) =
      some (headFrame input).payload := if_pos ⟨by omega, hfull⟩
  have hrest : sliceBytes input (headerSize + uint32 (input.drop 4)) input.length =
      some (input.drop (headerSize + uint32 (input.drop 4))) := by
    unfold sliceBytes
    rw [if_pos ⟨hfull, le_rfl⟩, List.take_length]
  unfold readFrame
  rw [hindex 0 (by decide), hindex 1 (by decide), hindex 2 (by decide), hindex 3 (by decide),
    hpayload, hrest]
  rfl

/-- No index and no slice of the loop is out of range. -/
theorem parseLoopChecked_eq (limit room : ℕ) (input : Bytes) :
    parseLoopChecked limit room input = some (parseLoop limit room input) := by
  induction room generalizing input with
  | zero => cases input <;> rfl
  | succ room ih =>
      by_cases hempty : input = []
      · subst hempty
        rfl
      · rw [parseLoop_succ hempty]
        obtain ⟨b, tail, rfl⟩ := List.exists_cons_of_ne_nil hempty
        rw [parseLoopChecked]
        dsimp only
        by_cases hheader : (b :: tail).length < headerSize
        · rw [if_pos hheader, if_pos hheader]
        rw [if_neg hheader, if_neg hheader]
        obtain ⟨word, hword, hlength⟩ := sliceBytes_header (Nat.not_lt.mp hheader)
        rw [hword]
        dsimp only
        rw [hlength]
        by_cases hlimit : limit < uint32 ((b :: tail).drop 4)
        · rw [if_pos hlimit, if_pos hlimit]
        rw [if_neg hlimit, if_neg hlimit]
        by_cases hfull : (b :: tail).length < headerSize + uint32 ((b :: tail).drop 4)
        · rw [if_pos hfull, if_pos hfull]
        rw [if_neg hfull, if_neg hfull, readFrame_headFrame (Nat.not_lt.mp hfull)]
        dsimp only
        rw [ih]
        cases parseLoop limit room ((b :: tail).drop _) <;> rfl

theorem parseAllChecked_eq (input : Bytes) (limit : ℕ) :
    parseAllChecked input limit = some (parseAll input limit) := by
  unfold parseAllChecked parseAll
  dsimp only
  rw [parseLoopChecked_eq]
  cases parseLoop _ maxBatchFrames input with
  | error e => rfl
  | ok frames => cases frames <;> rfl

/-! ### The codec -/

/-- A batch as `ParseAll` accepts it under the limit `limit`. -/
structure BatchOf (limit : ℕ) (frames : List Frame) : Prop where
  nonempty : 1 ≤ frames.length
  room : frames.length ≤ maxBatchFrames
  frames : ∀ f ∈ frames, f.Encodable limit

theorem parseAll_encodeAll (h₀ : 1 ≤ limit) (hlimit : limit ≤ maxPayload)
    (h : BatchOf limit frames) : parseAll (encodeAll frames) limit = .ok frames := by
  unfold parseAll
  dsimp only
  rw [if_neg (by omega), parseLoop_encodeAll h.frames (hlimit.trans (by decide)) h.room]
  cases frames with
  | nil => exact absurd h.nonempty (by simp)
  | cons f rest => rfl

theorem parseAll_sound (h₀ : 1 ≤ limit) (hlimit : limit ≤ maxPayload)
    (h : parseAll input limit = .ok frames) : encodeAll frames = input ∧ BatchOf limit frames := by
  unfold parseAll at h
  dsimp only at h
  rw [if_neg (by omega)] at h
  cases hloop : parseLoop limit maxBatchFrames input with
  | error e =>
      rw [hloop] at h
      cases h
  | ok frames' =>
      rw [hloop] at h
      obtain ⟨hinput, hroom, hall⟩ := parseLoop_sound hloop
      cases frames' with
      | nil => cases h
      | cons f rest =>
          cases h
          exact ⟨hinput, by simp, hroom, hall⟩

/-- The codec under a limit on payloads. -/
structure Codec (limit : ℕ) : Prop where
  /-- A batch of frames within the bounds comes back. -/
  roundTrip : ∀ frames, BatchOf limit frames → parseAll (encodeAll frames) limit = .ok frames
  /-- What is accepted is such a batch, encoded. -/
  exact : ∀ input frames, parseAll input limit = .ok frames →
    input = encodeAll frames ∧ BatchOf limit frames
  /-- Everything else is an error. -/
  otherwise : ∀ input, (¬ ∃ frames, BatchOf limit frames ∧ input = encodeAll frames) →
    ∃ e, parseAll input limit = .error e
  /-- No index and no slice is out of range. -/
  inRange : ∀ input, parseAllChecked input limit = some (parseAll input limit)

/-- **The frame codec is a bijection** between the batches within the bounds and the byte
strings that `ParseAll` accepts. -/
theorem frame_codec_bijective (h₀ : 1 ≤ limit) (hlimit : limit ≤ maxPayload) : Codec limit where
  roundTrip := fun _ h => parseAll_encodeAll h₀ hlimit h
  exact := by
    intro input frames h
    obtain ⟨hinput, hbatch⟩ := parseAll_sound h₀ hlimit h
    exact ⟨hinput.symm, hbatch⟩
  otherwise := by
    intro input hnot
    cases h : parseAll input limit with
    | error e => exact ⟨e, rfl⟩
    | ok frames =>
        obtain ⟨hinput, hbatch⟩ := parseAll_sound h₀ hlimit h
        exact absurd ⟨frames, hbatch, hinput.symm⟩ hnot
  inRange := fun input => parseAllChecked_eq input limit

theorem frame_codec_bijective_largest : Codec maxPayload :=
  frame_codec_bijective (by decide) le_rfl

end TproxyServer
