import TproxyServer.Codec

/-! # Frames in the bridge page

`splitFrames`, `frameBound` and `joinPending` of the script in `internal/bridge/page.go`.

An `ArrayBuffer` is its bytes.  The numbers computed here are sums of lengths, far below 2^53,
and exact; `<<` and `|` work on 32 bits with a sign, as in JavaScript.  A thrown error is its
text, and what the code has changed before it throws is unchanged, as it throws before it
changes anything. -/

namespace TproxyServer

namespace Page

/-! ### Reading a buffer -/

/-- `view.getUint8(offset)`. -/
def getUint8 (value : Bytes) (offset : ℕ) : ℕ := (value.getD offset 0).toNat

/-- `view.getUint32(offset)`. -/
def getUint32 (value : Bytes) (offset : ℕ) : ℕ := uint32 (value.drop offset)

/-- `value.slice(start,end)`. -/
def slice (value : Bytes) (start stop : ℕ) : Bytes := (value.drop start).take (stop - start)

/-- The stream id of the frame at `offset`, put together by `<<` and `|`. -/
def frameID (value : Bytes) (offset : ℕ) : ℤ :=
  ((Int32.ofNat (getUint8 value (offset + 1)) <<< 16) |||
    (Int32.ofNat (getUint8 value (offset + 2)) <<< 8) |||
      Int32.ofNat (getUint8 value (offset + 3))).toInt

/-- What `splitFrames` makes of a frame. -/
structure Value where
  type : ℕ
  id : ℤ
  data : Bytes
deriving DecidableEq, Repr

/-- The loop of `splitFrames`, with room for `room` more results. -/
def splitLoop (value : Bytes) : ℕ → ℕ → Except String (List Value)
  | 0, offset => if offset < value.length then .error "invalid frame batch" else .ok []
  | room + 1, offset =>
      if offset < value.length then
        if value.length - offset < 8 then .error "invalid frame batch"
        else
          let type := getUint8 value offset
          let id := frameID value offset
          let size := getUint32 value (offset + 4)
          let stop := offset + 8 + size
          if (type = 2 ∧ size = 0) ∨ 1048576 < size ∨ value.length < stop then
            .error "invalid frame"
          else
            let data := if offset = 0 ∧ stop = value.length then value else slice value offset stop
            match splitLoop value room stop with
            | .error e => .error e
            | .ok values => .ok (⟨type, id, data⟩ :: values)
      else .ok []

def splitFrames (value : Bytes) : Except String (List Value) :=
  match splitLoop value 4096 0 with
  | .error e => .error e
  | .ok [] => .error "empty frame batch"
  | .ok (v :: values) => .ok (v :: values)

/-! ### The parsers of the page and of the relay -/

/-- What the page makes of a frame. -/
def Value.ofFrame (f : Frame) : Value where
  type := f.type.toByte.toNat
  id := f.streamID
  data := f.encode

def Full (frames : List Frame) : Prop := ∀ f ∈ frames, f.type = .data → f.payload ≠ []

/-- The page and the relay read `x` alike. -/
structure Agrees (x : Bytes) : Prop where
  accepts : (∃ values, splitFrames x = .ok values) ↔
    ∃ frames, parseAll x maxPayload = .ok frames ∧ Full frames
  same : ∀ values frames, splitFrames x = .ok values → parseAll x maxPayload = .ok frames →
    values = frames.map Value.ofFrame
  slices : ∀ values, splitFrames x = .ok values → values.flatMap Value.data = x

variable {value : Bytes} {room offset : ℕ} {frames : List Frame}

theorem or_bytes {a b c : ℕ} (hb : b < 256) (hc : c < 256) :
    (a <<< 16 ||| b <<< 8) ||| c = a * 2 ^ 16 + b * 2 ^ 8 + c := by
  have hlow : b <<< 8 < 2 ^ 16 := by
    rw [Nat.shiftLeft_eq]
    omega
  have hab := Nat.shiftLeft_add_eq_or_of_lt hlow a
  have hfold : a <<< 16 + b <<< 8 = (a * 2 ^ 8 + b) <<< 8 := by
    simp only [Nat.shiftLeft_eq]
    ring
  rw [← hab, hfold, ← Nat.shiftLeft_add_eq_or_of_lt (show c < 2 ^ 8 from hc), Nat.shiftLeft_eq]
  ring

/-- Three bytes put together by `<<` and `|` make the number that they spell: its sign bit is
clear. -/
theorem toInt_or_bytes {a b c : ℕ} (ha : a < 256) (hb : b < 256) (hc : c < 256) :
    ((Int32.ofNat a <<< 16) ||| (Int32.ofNat b <<< 8) ||| Int32.ofNat c).toInt =
      ((a * 2 ^ 16 + b * 2 ^ 8 + c : ℕ) : ℤ) := by
  have hbits : ((Int32.ofNat a <<< 16) ||| (Int32.ofNat b <<< 8) |||
      Int32.ofNat c).toBitVec =
      (BitVec.ofNat 32 a <<< 16) ||| (BitVec.ofNat 32 b <<< 8) ||| BitVec.ofNat 32 c := by
    rw [Int32.toBitVec_or, Int32.toBitVec_or, Int32.toBitVec_shiftLeft,
      Int32.toBitVec_shiftLeft]
    rfl
  have hnat : ((Int32.ofNat a <<< 16) ||| (Int32.ofNat b <<< 8) |||
      Int32.ofNat c).toBitVec.toNat = a * 2 ^ 16 + b * 2 ^ 8 + c := by
    rw [hbits, BitVec.toNat_or, BitVec.toNat_or, BitVec.toNat_shiftLeft,
      BitVec.toNat_shiftLeft, BitVec.toNat_ofNat, BitVec.toNat_ofNat, BitVec.toNat_ofNat,
      ← or_bytes hb hc, Nat.mod_eq_of_lt (show a < 2 ^ 32 by omega),
      Nat.mod_eq_of_lt (show b < 2 ^ 32 by omega), Nat.mod_eq_of_lt (show c < 2 ^ 32 by omega),
      Nat.mod_eq_of_lt, Nat.mod_eq_of_lt]
    · rw [Nat.shiftLeft_eq]
      omega
    · rw [Nat.shiftLeft_eq]
      omega
  rw [← Int32.toInt_toBitVec, BitVec.toInt_eq_toNat_of_lt (by rw [hnat]; omega), hnat]

theorem getD_drop (value : Bytes) (offset i : ℕ) :
    (value.drop offset).getD i 0 = value.getD (offset + i) 0 := by
  simp only [List.getD_eq_getElem?_getD, List.getElem?_drop]

theorem frameID_eq (value : Bytes) (offset : ℕ) :
    frameID value offset = (headFrame (value.drop offset)).streamID := by
  unfold frameID getUint8 headFrame
  dsimp only
  rw [getD_drop, getD_drop, getD_drop]
  exact toInt_or_bytes (UInt8.toNat_lt _) (UInt8.toNat_lt _) (UInt8.toNat_lt _)

/-- The type byte 2 is that of DATA. -/
theorem type_eq_two (value : Bytes) (offset : ℕ) :
    getUint8 value offset = 2 ↔ (headFrame (value.drop offset)).type = .data := by
  unfold getUint8 headFrame
  dsimp only
  rw [getD_drop, Nat.add_zero]
  generalize value.getD offset 0 = b
  constructor
  · intro h
    have hb : b = 2 := UInt8.toNat_inj.mp h
    rw [hb]
    rfl
  · intro h
    have hb := congrArg FrameType.toByte h
    rw [FrameType.toByte_ofByte] at hb
    rw [hb]
    rfl

/-- One turn of the loop, on what is left of the buffer. -/
theorem splitLoop_succ (h : value.drop offset ≠ []) :
    splitLoop value (room + 1) offset =
      if (value.drop offset).length < headerSize then .error "invalid frame batch"
      else if ((headFrame (value.drop offset)).type = .data ∧
          uint32 ((value.drop offset).drop 4) = 0) ∨
          maxPayload < uint32 ((value.drop offset).drop 4) ∨
          (value.drop offset).length < headerSize + uint32 ((value.drop offset).drop 4) then
        .error "invalid frame"
      else match splitLoop value room
          (offset + (headerSize + uint32 ((value.drop offset).drop 4))) with
        | .error e => .error e
        | .ok values => .ok (.ofFrame (headFrame (value.drop offset)) :: values) := by
  have hlt : offset < value.length := by
    by_contra hle
    exact h (List.drop_eq_nil_iff.mpr (Nat.not_lt.mp hle))
  have hsize : getUint32 value (offset + 4) = uint32 ((value.drop offset).drop 4) := by
    rw [List.drop_drop]
    rfl
  have hbad : (getUint8 value offset = 2 ∧ uint32 ((value.drop offset).drop 4) = 0) ∨
      1048576 < uint32 ((value.drop offset).drop 4) ∨
        value.length < offset + 8 + uint32 ((value.drop offset).drop 4) ↔
      ((headFrame (value.drop offset)).type = .data ∧ uint32 ((value.drop offset).drop 4) = 0) ∨
        maxPayload < uint32 ((value.drop offset).drop 4) ∨
          (value.drop offset).length < headerSize + uint32 ((value.drop offset).drop 4) := by
    apply or_congr (and_congr_left' (type_eq_two value offset))
    apply or_congr Iff.rfl
    rw [List.length_drop]
    unfold headerSize
    omega
  rw [splitLoop, if_pos hlt]
  dsimp only
  rw [hsize, List.length_drop]
  rw [List.length_drop] at hbad
  by_cases hheader : value.length - offset < headerSize
  · rw [if_pos hheader]
    exact if_pos hheader
  rw [if_neg hheader]
  refine (if_neg hheader).trans ?_
  by_cases hstop : ((headFrame (value.drop offset)).type = .data ∧
      uint32 ((value.drop offset).drop 4) = 0) ∨
      maxPayload < uint32 ((value.drop offset).drop 4) ∨
        value.length - offset < headerSize + uint32 ((value.drop offset).drop 4)
  · rw [if_pos hstop, if_pos (hbad.mpr hstop)]
  rw [if_neg hstop, if_neg fun h => hstop (hbad.mp h), Nat.add_assoc]
  generalize hn : uint32 ((value.drop offset).drop 4) = size at hstop
  have hdata : (if offset = 0 ∧ offset + (8 + size) = value.length then value
      else slice value offset (offset + (8 + size))) = (headFrame (value.drop offset)).encode := by
    have hfull : headerSize + uint32 ((value.drop offset).drop 4) ≤
        (value.drop offset).length := by
      rw [List.length_drop, hn]
      omega
    rw [headFrame_encode hfull, hn]
    split_ifs with hwhole
    · rw [hwhole.1, List.drop_zero, List.take_of_length_le]
      unfold headerSize
      omega
    · unfold slice headerSize
      rw [Nat.add_sub_cancel_left]
  have htype : getUint8 value offset =
      (headFrame (value.drop offset)).type.toByte.toNat := by
    unfold getUint8 headFrame
    rw [FrameType.toByte_ofByte, getD_drop, Nat.add_zero]
  rw [hdata, htype, frameID_eq]
  rfl

/-- What the relay reads from there on, the page reads too if DATA is not empty. -/
theorem splitLoop_of_parse (h : parseLoop maxPayload room (value.drop offset) = .ok frames)
    (hfull : Full frames) : splitLoop value room offset = .ok (frames.map Value.ofFrame) := by
  induction room generalizing offset frames with
  | zero =>
      cases hrest : value.drop offset with
      | nil =>
          rw [hrest] at h
          cases h
          rw [splitLoop, if_neg (Nat.not_lt.mpr (List.drop_eq_nil_iff.mp hrest))]
          rfl
      | cons b rest =>
          rw [hrest] at h
          cases h
  | succ room ih =>
      by_cases hrest : value.drop offset = []
      · rw [hrest] at h
        cases h
        rw [splitLoop, if_neg (Nat.not_lt.mpr (List.drop_eq_nil_iff.mp hrest))]
        rfl
      · rw [parseLoop_succ hrest] at h
        split_ifs at h with hheader hlimit hstop
        rw [List.drop_drop] at h
        cases hloop : parseLoop maxPayload room
            (value.drop (offset + (headerSize + uint32 ((value.drop offset).drop 4)))) with
        | error e =>
            rw [hloop] at h
            cases h
        | ok frames' =>
            rw [hloop] at h
            cases h
            have hlength : (headFrame (value.drop offset)).payload.length =
                uint32 ((value.drop offset).drop 4) :=
              headFrame_payload (Nat.not_lt.mp hstop)
            have hdata : ¬ ((headFrame (value.drop offset)).type = .data ∧
                uint32 ((value.drop offset).drop 4) = 0) := by
              rintro ⟨htype, hzero⟩
              apply hfull _ List.mem_cons_self htype
              rw [← List.length_eq_zero_iff, hlength, hzero]
            rw [splitLoop_succ hrest, if_neg hheader, if_neg (by tauto),
              ih hloop fun f hf => hfull f (List.mem_cons_of_mem _ hf)]
            rfl

/-- What the page reads from there on, the relay reads too, and DATA is not empty. -/
theorem parse_of_splitLoop {values : List Value} (h : splitLoop value room offset = .ok values) :
    ∃ frames, parseLoop maxPayload room (value.drop offset) = .ok frames ∧ Full frames ∧
      values = frames.map Value.ofFrame := by
  have hnil : ∀ room, ∃ frames, parseLoop maxPayload room [] = .ok frames ∧ Full frames ∧
      [] = frames.map Value.ofFrame := by
    intro room
    refine ⟨[], ?_, by simp [Full], rfl⟩
    cases room <;> rfl
  induction room generalizing offset values with
  | zero =>
      rw [splitLoop] at h
      split_ifs at h with hlt
      cases h
      rw [List.drop_eq_nil_iff.mpr (Nat.not_lt.mp hlt)]
      exact hnil 0
  | succ room ih =>
      by_cases hrest : value.drop offset = []
      · rw [splitLoop, if_neg (Nat.not_lt.mpr (List.drop_eq_nil_iff.mp hrest))] at h
        cases h
        rw [hrest]
        exact hnil _
      · rw [splitLoop_succ hrest] at h
        split_ifs at h with hheader hbad
        simp only [not_or] at hbad
        obtain ⟨hdata, hlimit, hstop⟩ := hbad
        cases hloop : splitLoop value room
            (offset + (headerSize + uint32 ((value.drop offset).drop 4))) with
        | error e =>
            rw [hloop] at h
            cases h
        | ok values' =>
            rw [hloop] at h
            cases h
            obtain ⟨frames, hparse, hfull, rfl⟩ := ih hloop
            refine ⟨headFrame (value.drop offset) :: frames, ?_, ?_, rfl⟩
            · rw [parseLoop_succ hrest, if_neg hheader, if_neg hlimit, if_neg hstop,
                List.drop_drop, hparse]
            · intro f hf htype
              rcases List.mem_cons.mp hf with rfl | hf
              · intro hempty
                apply hdata
                refine ⟨htype, ?_⟩
                rw [← headFrame_payload (Nat.not_lt.mp hstop), hempty]
                rfl
              · exact hfull f hf htype

theorem parseAll_eq_parseLoop {x : Bytes} (hne : frames ≠ []) :
    parseAll x maxPayload = .ok frames ↔ parseLoop maxPayload maxBatchFrames x = .ok frames := by
  unfold parseAll
  dsimp only
  rw [if_neg (by simp [maxPayload])]
  cases parseLoop maxPayload maxBatchFrames x with
  | error e => exact Iff.rfl
  | ok frames' =>
      cases frames' with
      | nil =>
          constructor
          · intro h
            cases h
          · intro h
            cases h
            exact absurd rfl hne
      | cons f rest => exact Iff.rfl

/-- What `splitFrames` returns are the frames that `ParseAll` reads. -/
theorem splitFrames_ok {x : Bytes} {values : List Value} :
    splitFrames x = .ok values ↔ ∃ frames, parseAll x maxPayload = .ok frames ∧ Full frames ∧
      values = frames.map Value.ofFrame := by
  unfold splitFrames
  constructor
  · intro h
    cases hloop : splitLoop x 4096 0 with
    | error e =>
        rw [hloop] at h
        cases h
    | ok values' =>
        rw [hloop] at h
        obtain ⟨frames, hparse, hfull, rfl⟩ := parse_of_splitLoop hloop
        cases frames with
        | nil => cases h
        | cons f rest =>
            cases h
            exact ⟨_, (parseAll_eq_parseLoop (by simp)).mpr hparse, hfull, rfl⟩
  · rintro ⟨frames, hparse, hfull, rfl⟩
    have hne : frames ≠ [] := by
      rintro rfl
      unfold parseAll at hparse
      dsimp only at hparse
      split at hparse <;> cases hparse
    have hloop := (parseAll_eq_parseLoop hne).mp hparse
    have hsplit : splitLoop x 4096 0 = .ok (frames.map Value.ofFrame) :=
      splitLoop_of_parse hloop hfull
    rw [hsplit]
    cases frames with
    | nil => exact absurd rfl hne
    | cons f rest => rfl

/-- **The page's parser agrees with the relay's**, on every byte string. -/
theorem splitFrames_agrees (x : Bytes) : Agrees x where
  accepts := by
    constructor
    · rintro ⟨values, h⟩
      obtain ⟨frames, hparse, hfull, -⟩ := splitFrames_ok.mp h
      exact ⟨frames, hparse, hfull⟩
    · rintro ⟨frames, hparse, hfull⟩
      exact ⟨_, splitFrames_ok.mpr ⟨frames, hparse, hfull, rfl⟩⟩
  same := by
    intro values frames h hparse
    obtain ⟨frames', hparse', -, rfl⟩ := splitFrames_ok.mp h
    rw [hparse] at hparse'
    cases hparse'
    rfl
  slices := by
    intro values h
    obtain ⟨frames, hparse, -, rfl⟩ := splitFrames_ok.mp h
    rw [List.flatMap_map]
    exact (parseAll_sound (by decide) le_rfl hparse).1

/-- A maximal id and an unknown type, as the page reads them. -/
example : splitFrames (encode (.unknown 0xfe) 0xFFFFFF [] ++ encode .data 0x800001 [7]) =
    .ok [⟨0xfe, 0xFFFFFF, encode (.unknown 0xfe) 0xFFFFFF []⟩,
      ⟨2, 0x800001, encode .data 0x800001 [7]⟩] := by
  decide +kernel

/-! ### Packing a body -/

structure Bound where
  frames : ℕ
  bytes : ℕ
deriving DecidableEq, Repr

/-- The loop of `frameBound`. -/
def boundLoop (value : Bytes) (maxFrames maxBytes offset frames : ℕ) : Except String Bound :=
  if offset < value.length then
    if value.length - offset < 8 then .error "invalid frame batch"
    else
      let size := getUint32 value (offset + 4)
      let stop := offset + 8 + size
      if value.length < stop then .error "invalid frame"
      else if 0 < frames ∧ (maxFrames ≤ frames ∨ maxBytes < stop) then .ok ⟨frames, offset⟩
      else boundLoop value maxFrames maxBytes stop (frames + 1)
  else .ok ⟨frames, offset⟩
termination_by value.length - offset

def frameBound (value : Bytes) (maxFrames maxBytes : ℕ) : Except String Bound :=
  boundLoop value maxFrames maxBytes 0 0

/-- How the loop of `joinPending` ends: `count` items go whole, or the first is cut. -/
inductive Pack where
  | whole (total count : ℕ)
  | cut (bytes : ℕ)

/-- The loop of `joinPending` on the items that it has not taken yet. -/
def packLoop (batchLimit : ℕ) : ℕ → ℕ → ℕ → List Bytes → Except String Pack
  | total, count, _, [] => .ok (.whole total count)
  | total, count, frames, value :: values =>
      match frameBound value 4096 batchLimit with
      | .error e => .error e
      | .ok bound =>
          if count = 0 ∧ bound.bytes ≠ value.length then .ok (.cut bound.bytes)
          else if count ≠ 0 ∧
              (batchLimit < total + value.length ∨ 4096 < frames + bound.frames) then
            .ok (.whole total count)
          else packLoop batchLimit (total + value.length) (count + 1) (frames + bound.frames) values

structure Batch where
  body : Bytes
  total : ℕ
  count : ℕ
deriving DecidableEq, Repr

/-- What a call of `joinPending` leads to: the batch, the queue that it leaves, and by how much
it has raised `queuedItems` and `lane.items`. -/
structure Joined where
  batch : Batch
  values : List Bytes
  added : ℕ
deriving DecidableEq, Repr

def joinPending (batchLimit : ℕ) (values : List Bytes) : Except String Joined :=
  match packLoop batchLimit 0 0 0 values with
  | .error e => .error e
  | .ok (.cut bytes) =>
      .ok ⟨⟨slice (values.headD []) 0 bytes, bytes, 1⟩,
        slice (values.headD []) bytes (values.headD []).length :: values.tail, 1⟩
  | .ok (.whole total count) =>
      .ok ⟨⟨(values.take count).flatten, total, count⟩, values.drop count, 0⟩

/-- A queued item: one whole frame or more. -/
def Item (value : Bytes) : Prop :=
  ∃ frames, frames ≠ [] ∧ value = encodeAll frames ∧ ∀ f ∈ frames, f.Encodable maxUint32

/-- What is asked of a call of `joinPending`. -/
structure Joins (batchLimit : ℕ) (values : List Bytes) (j : Joined) : Prop where
  /-- The body is whole frames, few enough, and as small as its first frame allows. -/
  body : ∃ f frames, j.batch.body = encodeAll (f :: frames) ∧
    (∀ g ∈ f :: frames, g.Encodable maxUint32) ∧ (f :: frames).length ≤ 4096 ∧
      j.batch.body.length ≤ max batchLimit f.encode.length
  total : j.batch.total = j.batch.body.length
  /-- Nothing is lost or moved. -/
  lossless : j.batch.body ++ j.values.flatten = values.flatten
  items : ∀ value ∈ j.values, Item value
  /-- A count of the queued items is right again after `release(total,count)`. -/
  counted : ∀ queuedItems : ℤ, queuedItems = values.length →
    queuedItems + j.added - j.batch.count = j.values.length

/-- The bodies that repeated calls make of a queue until it is empty. -/
inductive Drains (batchLimit : ℕ) : List Bytes → List Bytes → Prop
  | empty : Drains batchLimit [] []
  | call {values bodies : List Bytes} {j : Joined} (hne : values ≠ [])
      (h : joinPending batchLimit values = .ok j) (hrest : Drains batchLimit j.values bodies) :
      Drains batchLimit values (j.batch.body :: bodies)

/-! ### Counting frames -/

/-- How many frames `frameBound` counts, from `offset` on with `count` counted so far. -/
def boundCount (maxFrames maxBytes : ℕ) : ℕ → ℕ → List Frame → ℕ
  | _, _, [] => 0
  | offset, count, f :: rest =>
      if 0 < count ∧ (maxFrames ≤ count ∨ maxBytes < offset + f.encode.length) then 0
      else boundCount maxFrames maxBytes (offset + f.encode.length) (count + 1) rest + 1

variable {maxFrames maxBytes count : ℕ} {done : Bytes} {f : Frame}

theorem getUint32_encode (hf : f.Encodable maxUint32) (rest : Bytes) :
    getUint32 (done ++ (f.encode ++ rest)) (done.length + 4) = f.payload.length := by
  unfold getUint32
  rw [← List.drop_drop, List.drop_left]
  exact uint32_encode hf.payload rest

theorem boundLoop_encodeAll (hframes : ∀ f ∈ frames, f.Encodable maxUint32) :
    boundLoop (done ++ encodeAll frames) maxFrames maxBytes done.length count =
      .ok ⟨count + boundCount maxFrames maxBytes done.length count frames,
        done.length + (encodeAll (frames.take
          (boundCount maxFrames maxBytes done.length count frames))).length⟩ := by
  induction frames generalizing done count with
  | nil =>
      unfold boundLoop
      simp [boundCount]
  | cons f frames ih =>
      have hf := hframes f (by simp)
      have hlength : (done ++ encodeAll (f :: frames)).length =
          done.length + (headerSize + f.payload.length) + (encodeAll frames).length := by
        simp [Nat.add_assoc]
      unfold boundLoop
      rw [encodeAll_cons, getUint32_encode hf, ← encodeAll_cons, hlength]
      unfold headerSize at hlength ⊢
      rw [if_pos (by omega), if_neg (by omega)]
      dsimp only
      rw [if_neg (by omega)]
      have hencode : f.encode.length = 8 + f.payload.length := Frame.encode_length f
      unfold boundCount
      rw [hencode, ← Nat.add_assoc]
      by_cases hstop : 0 < count ∧
          (maxFrames ≤ count ∨ maxBytes < done.length + 8 + f.payload.length)
      · rw [if_pos hstop, if_pos hstop]
        simp
      rw [if_neg hstop, if_neg hstop]
      have hdone : (done ++ f.encode).length = done.length + 8 + f.payload.length := by
        rw [List.length_append, hencode, Nat.add_assoc]
      have hrest := @ih (count + 1) (done ++ f.encode)
        fun g hg => hframes g (List.mem_cons_of_mem f hg)
      rw [List.append_assoc, ← encodeAll_cons, hdone] at hrest
      rw [hrest, List.take_succ_cons, encodeAll_cons, List.length_append, hencode]
      congr 2 <;> omega

/-- `frameBound` on a queued item counts some of its frames. -/
theorem frameBound_encodeAll (hframes : ∀ f ∈ frames, f.Encodable maxUint32) :
    frameBound (encodeAll frames) maxFrames maxBytes =
      .ok ⟨boundCount maxFrames maxBytes 0 0 frames,
        (encodeAll (frames.take (boundCount maxFrames maxBytes 0 0 frames))).length⟩ := by
  have h := @boundLoop_encodeAll frames maxFrames maxBytes 0 [] hframes
  simpa [frameBound] using h

theorem boundCount_le : boundCount maxFrames maxBytes offset count frames ≤ frames.length := by
  induction frames generalizing offset count with
  | nil => simp [boundCount]
  | cons f frames ih =>
      unfold boundCount
      split_ifs
      · exact Nat.zero_le _
      · exact Nat.succ_le_succ ih

theorem boundCount_pos (hne : frames ≠ []) : 0 < boundCount maxFrames maxBytes 0 0 frames := by
  cases frames with
  | nil => exact absurd rfl hne
  | cons f frames =>
      unfold boundCount
      rw [if_neg (by omega)]
      exact Nat.succ_pos _

theorem boundCount_frames (h : max count 1 ≤ maxFrames) :
    count + boundCount maxFrames maxBytes offset count frames ≤ maxFrames := by
  induction frames generalizing offset count with
  | nil =>
      unfold boundCount
      omega
  | cons f frames ih =>
      unfold boundCount
      split_ifs with hstop
      · omega
      · have hrest := @ih (offset + f.encode.length) (count + 1) (by omega)
        omega

/-- After the first frame the bytes stay within every bound from `maxBytes` on. -/
theorem boundCount_bytes {bound : ℕ} (hcount : 0 < count) (hoffset : offset ≤ bound)
    (hbound : maxBytes ≤ bound) :
    offset + (encodeAll (frames.take
      (boundCount maxFrames maxBytes offset count frames))).length ≤ bound := by
  induction frames generalizing offset count with
  | nil => simpa using hoffset
  | cons f frames ih =>
      unfold boundCount
      split_ifs with hstop
      · simpa using hoffset
      · have hrest := @ih (offset + f.encode.length) (count + 1) (by omega) (by omega)
        rw [List.take_succ_cons, encodeAll_cons, List.length_append]
        omega

/-- What is left uncounted does not fit, by the one bound or by the other. -/
theorem boundCount_full
    (h : boundCount maxFrames maxBytes offset count frames < frames.length) :
    maxFrames ≤ count + boundCount maxFrames maxBytes offset count frames ∨
      maxBytes < offset + (encodeAll frames).length := by
  induction frames generalizing offset count with
  | nil => simp at h
  | cons f frames ih =>
      unfold boundCount at h ⊢
      rw [encodeAll_cons, List.length_append]
      split_ifs at h ⊢ with hstop
      · omega
      · rw [List.length_cons] at h
        have hrest := @ih (offset + f.encode.length) (count + 1) (by omega)
        omega

theorem encodeAll_take_lt {n : ℕ} (h : n < frames.length) :
    (encodeAll (frames.take n)).length < (encodeAll frames).length := by
  conv_rhs => rw [← List.take_append_drop n frames]
  rw [encodeAll_append, List.length_append, List.drop_eq_getElem_cons h, encodeAll_cons,
    List.length_append, Frame.encode_length]
  unfold headerSize
  omega

/-! ### Whole items -/

variable {batchLimit total : ℕ} {items : List (List Frame)}

/-- The items that follow the first: none of them is cut. -/
theorem packLoop_rest (hitems : ∀ frames ∈ items, frames ≠ [] ∧ ∀ f ∈ frames, f.Encodable maxUint32)
    (hcount : count ≠ 0) {taken : ℕ} (htaken : 0 < taken) (hroom : taken ≤ 4096) :
    ∃ k ≤ items.length, packLoop batchLimit total count taken (items.map encodeAll) =
        .ok (.whole (total + (encodeAll (items.take k).flatten).length) (count + k)) ∧
      taken + (items.take k).flatten.length ≤ 4096 ∧
      (k ≠ 0 → total + (encodeAll (items.take k).flatten).length ≤ batchLimit) := by
  induction items generalizing total count taken with
  | nil => exact ⟨0, by simp, by simp [packLoop], by simpa using hroom, by simp⟩
  | cons frames items ih =>
      obtain ⟨hne, hframes⟩ := hitems frames (by simp)
      rw [List.map_cons, packLoop, frameBound_encodeAll hframes]
      dsimp only
      have hle := @boundCount_le 0 frames 4096 batchLimit 0
      have hfull := @boundCount_full 0 frames 4096 batchLimit 0
      have hpos := @boundCount_pos frames 4096 batchLimit hne
      generalize boundCount 4096 batchLimit 0 0 frames = n at hle hfull hpos ⊢
      rw [if_neg (fun h => hcount h.1)]
      by_cases hstop : count ≠ 0 ∧
          (batchLimit < total + (encodeAll frames).length ∨ 4096 < taken + n)
      · rw [if_pos hstop]
        exact ⟨0, by simp, by simp, by simpa using hroom, by simp⟩
      rw [if_neg hstop]
      have hwhole : n = frames.length := by
        by_contra hcut
        have hcut' := hfull (by omega)
        apply hstop
        refine ⟨hcount, ?_⟩
        omega
      obtain ⟨k, hk, hpack, hframes', hbytes⟩ := @ih (count + 1)
        (total + (encodeAll frames).length) (fun g hg => hitems g (by simp [hg]))
        (Nat.succ_ne_zero count) (taken + n) (by omega) (by omega)
      refine ⟨k + 1, by simpa using hk, ?_, ?_, fun _ => ?_⟩
      · rw [hpack, List.take_succ_cons, List.flatten_cons, encodeAll_append, List.length_append]
        congr 2 <;> omega
      · rw [List.take_succ_cons, List.flatten_cons, List.length_append]
        omega
      · rw [List.take_succ_cons, List.flatten_cons, encodeAll_append, List.length_append]
        by_cases hzero : k = 0
        · subst hzero
          simp
          omega
        · have := hbytes hzero
          omega

theorem exists_items {values : List Bytes} (h : ∀ value ∈ values, Item value) :
    ∃ items : List (List Frame), values = items.map encodeAll ∧
      ∀ frames ∈ items, frames ≠ [] ∧ ∀ f ∈ frames, f.Encodable maxUint32 := by
  induction values with
  | nil => exact ⟨[], rfl, by simp⟩
  | cons value values ih =>
      obtain ⟨items, rfl, hitems⟩ := ih fun v hv => h v (by simp [hv])
      obtain ⟨frames, hne, rfl, hframes⟩ := h value (by simp)
      refine ⟨frames :: items, rfl, fun g hg => ?_⟩
      rcases List.mem_cons.mp hg with rfl | hg
      · exact ⟨hne, hframes⟩
      · exact hitems g hg

theorem flatten_map_encodeAll (items : List (List Frame)) :
    (items.map encodeAll).flatten = encodeAll items.flatten := by
  induction items with
  | nil => rfl
  | cons frames items ih => rw [List.map_cons, List.flatten_cons, ih, List.flatten_cons,
      encodeAll_append]

/-- **One call of `joinPending`** on a queue that is not empty. -/
theorem joinPending_joins {values : List Bytes} (hne : values ≠ [])
    (hvalues : ∀ value ∈ values, Item value) :
    ∃ j, joinPending batchLimit values = .ok j ∧ Joins batchLimit values j := by
  obtain ⟨items, rfl, hitems⟩ := exists_items hvalues
  obtain ⟨frames, items, rfl⟩ := List.exists_cons_of_ne_nil
    (show items ≠ [] by rintro rfl; exact hne rfl)
  obtain ⟨hfne, hframes⟩ := hitems frames (by simp)
  obtain ⟨f, rest, rfl⟩ := List.exists_cons_of_ne_nil hfne
  have hpos := @boundCount_pos (f :: rest) 4096 batchLimit hfne
  have hle := @boundCount_le 0 (f :: rest) 4096 batchLimit 0
  have hroom := @boundCount_frames 0 (f :: rest) 4096 batchLimit 0 (by omega)
  -- the first frame is exempt from the bound on bytes, the others are not
  have hbytes : (encodeAll ((f :: rest).take
      (boundCount 4096 batchLimit 0 0 (f :: rest)))).length ≤ max batchLimit f.encode.length := by
    unfold boundCount
    rw [if_neg (by omega), List.take_succ_cons, encodeAll_cons, List.length_append, Nat.zero_add]
    exact boundCount_bytes Nat.one_pos (le_max_right _ _) (le_max_left _ _)
  unfold joinPending
  rw [List.map_cons, packLoop, frameBound_encodeAll hframes]
  dsimp only
  generalize boundCount 4096 batchLimit 0 0 (f :: rest) = n at hpos hle hroom hbytes ⊢
  by_cases hcut : n < (f :: rest).length
  · -- the first item is cut
    have hlt := encodeAll_take_lt hcut
    have htake : slice (encodeAll (f :: rest)) 0 (encodeAll ((f :: rest).take n)).length =
        encodeAll ((f :: rest).take n) := by
      unfold slice
      conv_lhs => rw [← List.take_append_drop n (f :: rest), encodeAll_append]
      rw [List.take_append_drop, List.drop_zero, Nat.sub_zero, List.take_left]
    have hdrop : slice (encodeAll (f :: rest)) (encodeAll ((f :: rest).take n)).length
        (encodeAll (f :: rest)).length = encodeAll ((f :: rest).drop n) := by
      unfold slice
      rw [List.take_of_length_le (by rw [List.length_drop])]
      conv_lhs => rw [← List.take_append_drop n (f :: rest), encodeAll_append]
      rw [List.take_append_drop, List.drop_left]
    rw [if_pos ⟨rfl, hlt.ne⟩]
    refine ⟨_, rfl, ?_⟩
    dsimp only [List.headD_cons, List.tail_cons]
    rw [htake, hdrop]
    refine ⟨?_, rfl, ?_, ?_, ?_⟩
    · obtain ⟨m, rfl⟩ := Nat.exists_eq_succ_of_ne_zero hpos.ne'
      refine ⟨f, rest.take m, rfl, fun g hg => hframes g ?_, ?_, hbytes⟩
      · exact List.mem_of_mem_take (i := m + 1) hg
      · have := List.length_take_le m rest
        rw [List.length_cons]
        omega
    · dsimp only
      rw [List.flatten_cons, List.flatten_cons, ← List.append_assoc, ← encodeAll_append,
        List.take_append_drop]
    · intro value hvalue
      rcases List.mem_cons.mp hvalue with rfl | hvalue
      · refine ⟨(f :: rest).drop n, ?_, rfl, fun g hg => hframes g (List.mem_of_mem_drop hg)⟩
        intro hnil
        have hlen := List.drop_eq_nil_iff.mp hnil
        omega
      · exact hvalues value (List.mem_cons_of_mem _ hvalue)
    · intro queuedItems hcount
      rw [hcount]
      simp
  · -- whole items go
    have hwhole : n = (f :: rest).length := by omega
    subst hwhole
    rw [List.take_length] at hbytes ⊢
    rw [if_neg (by simp), if_neg (by simp)]
    obtain ⟨k, hk, hpack, hcount, htotal⟩ := @packLoop_rest 1 batchLimit
      (0 + (encodeAll (f :: rest)).length) items (fun g hg => hitems g (by simp [hg])) Nat.one_ne_zero
      (0 + (f :: rest).length) (by omega) (by omega)
    rw [Nat.zero_add 1, hpack]
    dsimp only
    have hbody : ((encodeAll (f :: rest) :: items.map encodeAll).take (1 + k)).flatten =
        encodeAll (f :: (rest ++ (items.take k).flatten)) := by
      rw [Nat.add_comm, List.take_succ_cons, List.flatten_cons, ← List.map_take,
        flatten_map_encodeAll, ← encodeAll_append]
      rfl
    refine ⟨_, rfl, ?_, ?_, ?_, ?_, ?_⟩
    · refine ⟨f, rest ++ (items.take k).flatten, hbody, fun g hg => ?_, ?_, ?_⟩
      · rw [← List.cons_append] at hg
        rcases List.mem_append.mp hg with hg | hg
        · exact hframes g hg
        · obtain ⟨gs, hgs, hg⟩ := List.mem_flatten.mp hg
          exact (hitems gs (List.mem_cons_of_mem _ (List.mem_of_mem_take hgs))).2 g hg
      · rw [← List.cons_append, List.length_append]
        omega
      · dsimp only
        rw [hbody, ← List.cons_append, encodeAll_append, List.length_append]
        by_cases hzero : k = 0
        · subst hzero
          simpa using hbytes
        · have := htotal hzero
          omega
    · dsimp only
      rw [hbody, ← List.cons_append, encodeAll_append, List.length_append, Nat.zero_add]
    · dsimp only
      rw [← List.flatten_append, List.take_append_drop]
    · exact fun value hvalue => hvalues value (List.mem_of_mem_drop hvalue)
    · intro queuedItems hqueued
      rw [hqueued]
      dsimp only
      rw [List.length_drop, List.length_cons, List.length_map]
      omega

theorem Joins.shorter {values : List Bytes} {j : Joined} (h : Joins batchLimit values j) :
    j.values.flatten.length < values.flatten.length := by
  obtain ⟨f, frames, hbody, -⟩ := h.body
  rw [← h.lossless, List.length_append, hbody, encodeAll_cons, List.length_append,
    Frame.encode_length]
  unfold headerSize
  omega

/-- Repeated calls empty a queue. -/
theorem exists_drains {values : List Bytes} (hvalues : ∀ value ∈ values, Item value) :
    ∃ bodies, Drains batchLimit values bodies := by
  induction hn : values.flatten.length using Nat.strong_induction_on generalizing values with
  | _ n ih =>
      by_cases hne : values = []
      · subst hne
        exact ⟨[], .empty⟩
      · obtain ⟨j, hj, hjoins⟩ := joinPending_joins hne hvalues
        obtain ⟨bodies, hbodies⟩ := ih _ (hn ▸ hjoins.shorter) hjoins.items rfl
        exact ⟨_, .call hne hj hbodies⟩

/-- **`joinPending` packs within the caps of the relay and loses nothing**, and repeated calls
empty the queue. -/
theorem joinPending_packs (batchLimit : ℕ) {values : List Bytes} (hne : values ≠ [])
    (hvalues : ∀ value ∈ values, Item value) :
    (∃ j, joinPending batchLimit values = .ok j ∧ Joins batchLimit values j) ∧
      ∃ bodies, Drains batchLimit values bodies :=
  ⟨joinPending_joins hne hvalues, exists_drains hvalues⟩

/-- A single frame, larger than the limit, goes alone. -/
theorem joinPending_packs_large :
    (∃ j, joinPending 4 [encode .data 1 [7]] = .ok j ∧ Joins 4 [encode .data 1 [7]] j) ∧
      ∃ bodies, Drains 4 [encode .data 1 [7]] bodies := by
  refine joinPending_packs 4 (by simp) fun value hvalue => ?_
  rw [List.mem_singleton.mp hvalue]
  refine ⟨[⟨.data, 1, [7]⟩], by simp, rfl, fun f hf => ?_⟩
  rw [List.mem_singleton.mp hf]
  exact ⟨rfl, by decide, by decide⟩

end Page

end TproxyServer
