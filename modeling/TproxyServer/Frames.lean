import Mathlib.Tactic

/-! # Shared frames

The frame codec of `internal/frame`: `type:u8 | stream_id:u24 | payload_length:u32 | payload`.

Bytes are `UInt8`, a `[]byte` is a `List UInt8`, a stream id and every other unsigned integer
is a natural number that the codec truncates where the code does (`byte(x >> 16)`,
`uint32(len(payload))`).  `encode` panics in the code for an id above `maxStreamID`; the
callers only pass ids that `parseAll` read from three bytes, so the model leaves the panic
out.  Errors carry no text here: every caller only tests whether there is one. -/

namespace TproxyServer

abbrev Bytes := List UInt8

/-! ### Constants -/

def headerSize : ℕ := 8
def maxPayload : ℕ := 1024 * 1024
def initialStreamWindow : ℕ := 4 * 1024 * 1024
def dataChunk : ℕ := 64 * 1024
def maxStreamID : ℕ := 0xFFFFFF
def maxBatchFrames : ℕ := 4096
def maxUint32 : ℕ := 2 ^ 32 - 1

/-! ### Frame types -/

/-- The type byte of a frame; a byte that names no type is kept as it is. -/
inductive FrameType where
  | open
  | data
  | close
  | window
  | ping
  | pong
  | hello
  | welcome
  | bye
  | unknown (code : UInt8)
deriving DecidableEq, Repr

def FrameType.toByte : FrameType → UInt8
  | .open => 0x01
  | .data => 0x02
  | .close => 0x03
  | .window => 0x04
  | .ping => 0x05
  | .pong => 0x06
  | .hello => 0x10
  | .welcome => 0x11
  | .bye => 0x1f
  | .unknown code => code

def FrameType.ofByte (b : UInt8) : FrameType :=
  if b = 0x01 then .open
  else if b = 0x02 then .data
  else if b = 0x03 then .close
  else if b = 0x04 then .window
  else if b = 0x05 then .ping
  else if b = 0x06 then .pong
  else if b = 0x10 then .hello
  else if b = 0x11 then .welcome
  else if b = 0x1f then .bye
  else .unknown b

theorem FrameType.toByte_ofByte (b : UInt8) : (FrameType.ofByte b).toByte = b := by
  unfold FrameType.ofByte
  split_ifs <;> simp_all [FrameType.toByte]

structure Frame where
  type : FrameType
  streamID : ℕ
  payload : Bytes
deriving DecidableEq, Repr

/-! ### Big-endian words -/

/-- `binary.BigEndian.PutUint32`. -/
def putUint32 (n : ℕ) : Bytes :=
  [UInt8.ofNat (n / 2 ^ 24), UInt8.ofNat (n / 2 ^ 16), UInt8.ofNat (n / 2 ^ 8), UInt8.ofNat n]

/-- `binary.BigEndian.Uint32` of the first four bytes. -/
def uint32 (b : Bytes) : ℕ :=
  (b.getD 0 0).toNat * 2 ^ 24 + (b.getD 1 0).toNat * 2 ^ 16 + (b.getD 2 0).toNat * 2 ^ 8 +
    (b.getD 3 0).toNat

@[simp] theorem putUint32_length (n : ℕ) : (putUint32 n).length = 4 := rfl

theorem uint32_putUint32_append (n : ℕ) (rest : Bytes) :
    uint32 (putUint32 n ++ rest) = n % 2 ^ 32 := by
  simp only [uint32, putUint32, List.cons_append, List.nil_append, List.getD_cons_zero,
    List.getD_cons_succ, UInt8.toNat_ofNat']
  omega

theorem uint32_putUint32 {n : ℕ} (h : n ≤ maxUint32) : uint32 (putUint32 n) = n := by
  have := uint32_putUint32_append n []
  rw [List.append_nil] at this
  rw [this]
  exact Nat.mod_eq_of_lt (by unfold maxUint32 at h; omega)

theorem uint32_le (b : Bytes) : uint32 b ≤ maxUint32 := by
  have h0 := (b.getD 0 0).toNat_lt
  have h1 := (b.getD 1 0).toNat_lt
  have h2 := (b.getD 2 0).toNat_lt
  have h3 := (b.getD 3 0).toNat_lt
  unfold uint32 maxUint32
  omega

/-! ### Encode and ParseAll -/

/-- `frame.Encode`. -/
def encode (t : FrameType) (streamID : ℕ) (payload : Bytes) : Bytes :=
  [t.toByte, UInt8.ofNat (streamID / 2 ^ 16), UInt8.ofNat (streamID / 2 ^ 8),
    UInt8.ofNat streamID] ++ putUint32 payload.length ++ payload

def Frame.encode (f : Frame) : Bytes := TproxyServer.encode f.type f.streamID f.payload

@[simp] theorem encode_length (t : FrameType) (id : ℕ) (payload : Bytes) :
    (encode t id payload).length = headerSize + payload.length := by
  simp [encode, headerSize]
  omega

/-- The header is the first eight bytes. -/
theorem drop_encode (t : FrameType) (id : ℕ) (payload : Bytes) :
    (encode t id payload).drop headerSize = payload := rfl

inductive FrameError where
  | incomplete
  | payload
  | tooManyFrames
  | emptyBatch
deriving DecidableEq, Repr

/-- The loop of `ParseAll` with room for `room` more frames. -/
def parseLoop (maxPayload : ℕ) : ℕ → Bytes → Except FrameError (List Frame)
  | _, [] => .ok []
  | 0, _ :: _ => .error .tooManyFrames
  | room + 1, b :: rest =>
      let input := b :: rest
      if input.length < headerSize then .error .incomplete
      else
        let length := uint32 (input.drop 4)
        if maxPayload < length then .error .payload
        else
          let full := headerSize + length
          if input.length < full then .error .incomplete
          else
            let streamID := (input.getD 1 0).toNat * 2 ^ 16 + (input.getD 2 0).toNat * 2 ^ 8 +
              (input.getD 3 0).toNat
            let f : Frame := ⟨.ofByte b, streamID, (input.take full).drop headerSize⟩
            match parseLoop maxPayload room (input.drop full) with
            | .error e => .error e
            | .ok frames => .ok (f :: frames)

/-- `frame.ParseAll`: a limit out of range means the largest one. -/
def parseAll (input : Bytes) (limit : ℕ) : Except FrameError (List Frame) :=
  let limit := if limit = 0 ∨ maxPayload < limit then maxPayload else limit
  match parseLoop limit maxBatchFrames input with
  | .error e => .error e
  | .ok [] => .error .emptyBatch
  | .ok (f :: frames) => .ok (f :: frames)

/-- Three bytes make no id above the largest. -/
theorem uint24_le (a b c : UInt8) : a.toNat * 2 ^ 16 + b.toNat * 2 ^ 8 + c.toNat ≤ maxStreamID := by
  have ha := a.toNat_lt
  have hb := b.toNat_lt
  have hc := c.toNat_lt
  unfold maxStreamID
  omega

theorem parseLoop_bounds {maxPayload room : ℕ} {input : Bytes} {frames : List Frame}
    (h : parseLoop maxPayload room input = .ok frames) :
    ∀ f ∈ frames, f.payload.length ≤ maxPayload ∧ f.streamID ≤ maxStreamID := by
  induction room generalizing input frames with
  | zero =>
      cases input with
      | nil => cases h; simp
      | cons => cases h
  | succ room ih =>
      cases input with
      | nil => cases h; simp
      | cons b rest =>
          unfold parseLoop at h
          dsimp only at h
          split_ifs at h with _ hlen
          split at h
          · cases h
          · next frames' hrest =>
              cases h
              intro f hf
              rcases List.mem_cons.mp hf with rfl | hf
              · refine ⟨?_, uint24_le _ _ _⟩
                simp only [List.length_drop, List.length_take]
                omega
              · exact ih hrest f hf

/-- A parsed frame is never larger than the largest one, and its id has three bytes. -/
theorem parseAll_bounds {input : Bytes} {limit : ℕ} {frames : List Frame}
    (h : parseAll input limit = .ok frames) :
    ∀ f ∈ frames, f.payload.length ≤ maxPayload ∧ f.streamID ≤ maxStreamID := by
  unfold parseAll at h
  dsimp only at h
  split at h
  · cases h
  · cases h
  · next f rest hloop =>
      cases h
      intro g hg
      have := parseLoop_bounds hloop g hg
      split_ifs at this with hlimit
      · exact this
      · exact ⟨by omega, this.2⟩

/-! ### WINDOW amounts and client shapes -/

/-- `frame.WindowAmount`, with the zero that accompanies its error. -/
def windowAmount (payload : Bytes) : ℕ × Bool :=
  if payload.length ≠ 4 then (0, false)
  else if uint32 payload = 0 then (0, false)
  else (uint32 payload, true)

/-- `frame.WindowPayload`. -/
def windowPayload (amount : ℕ) : Bytes := putUint32 amount

theorem windowAmount_windowPayload {n : ℕ} (h : n ≤ maxUint32) :
    (windowAmount (windowPayload n)).1 = n := by
  unfold windowAmount windowPayload
  rw [uint32_putUint32 h]
  by_cases h0 : n = 0 <;> simp [h0]

theorem windowAmount_le (payload : Bytes) : (windowAmount payload).1 ≤ maxUint32 := by
  have := uint32_le payload
  unfold windowAmount
  split_ifs <;> simp [this]

/-- `frame.ValidateClientShape`: is the frame one a client may send? -/
def validateClientShape (f : Frame) : Bool :=
  if f.streamID = 0 then f.type = .pong && f.payload.length ≤ 64
  else match f.type with
    | .open | .close => f.payload.length = 0
    | .data => f.payload.length ≠ 0
    | .window => (windowAmount f.payload).2
    | _ => false

end TproxyServer
