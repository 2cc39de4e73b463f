import TproxyServer.State

/-! # The pending budget and the downlink queues

`reservePendingLocked`, `releasePendingLocked`, `queueFrameLocked`, `queueLaneFrameLocked`,
`takeDownBatchLocked` and `takeLaneDownBatchLocked`.  The code has the last four once for the
session and once for a lane; here each pair is one function of the queue it works on, and the
source's two names are its two instances. -/

namespace TproxyServer

open Interaction Prog

/-! ### The pending budget -/

def reservePendingLocked (s : Session) (cost items : ℕ) (cls : PendingClass) :
    Act (Session × Bool) :=
  let limit := pendingLimits s.limits cls
  if cost = 0 ∨ limit.1 < cost ∨ limit.2 < items ∨ limit.1 - cost < s.pendingCost ∨
      limit.2 - items < s.pendingItems then
    pure (s, false)
  else do
    let granted ← request (.budget cost items cls)
    if granted then pure (s.charge cost items, true) else pure (s, false)

def releasePendingLocked (s : Session) (cost items : ℤ) : Act Session :=
  if cost = 0 ∧ items = 0 then pure s
  else if cost < 0 ∨ items < 0 ∨ s.pendingCost < cost ∨ s.pendingItems < items then
    .panic .invalidRelease
  else do
    let _ ← request (.budget (-cost) (-items) .uplink)
    pure (s.discharge cost.toNat items.toNat)

/-! ### Queueing a frame -/

/-- The `pendingWindows` entry a frame may be merged through. -/
def Downlink.windowIndex (d : Downlink) (t : FrameType) (id : ℕ) : Option ℕ :=
  if t = .window then d.pendingWindows.bind (·.get id) else none

/-- Overwrite the amount of a queued WINDOW frame. -/
def QueuedFrame.setAmount (f : QueuedFrame) (total : ℕ) : QueuedFrame :=
  { f with encoded := f.encoded.take headerSize ++ putUint32 total ++
      f.encoded.drop (headerSize + 4) }

/-- Append DATA to a queued DATA frame and rewrite the length in its header. -/
def QueuedFrame.extend (f : QueuedFrame) (payload : Bytes) : QueuedFrame :=
  let encoded := f.encoded ++ payload
  { f with
    encoded := encoded.take 4 ++ putUint32 (encoded.length - headerSize) ++ encoded.drop 8
    cost := f.cost + payload.length }

/-- The last queued frame, if DATA `payload` of stream `id` may be appended to it. -/
def Downlink.extendable (d : Downlink) (limits : Limits) (t : FrameType) (id : ℕ)
    (payload : Bytes) : Option QueuedFrame :=
  d.pendingFrames.getLast?.filter fun last =>
    last.typeCode = .data ∧ t = .data ∧ last.streamID = id ∧
      last.encoded.length - headerSize + payload.length ≤ limits.maxFramePayload

/-- The part of `queueFrameLocked` after the search for a WINDOW frame to merge into. -/
def pushFrame (s : Session) (q : QueueRef) (t : FrameType) (id : ℕ) (payload : Bytes) :
    Act (Session × Bool) :=
  let d := s.queue q
  match d.extendable s.limits t id payload with
  | some last => do
      let (s, ok) ← reservePendingLocked s payload.length 0 .downlink
      if ok then do
        announce (.queued q t id payload)
        pure (s.setQueue q { d with
          pendingFrames := d.pendingFrames.dropLast ++ [last.extend payload] }.signal, true)
      else do
        announce (.refused t id payload)
        pure (s, false)
  | none => do
      let encoded := encode t id payload
      let cost := encoded.length + queueItemCost
      let (s, ok) ← reservePendingLocked s cost 1 (if t = .data then .downlink else .control)
      if ok then do
        announce (.queued q t id payload)
        let d : Downlink :=
          { d with pendingFrames := d.pendingFrames ++ [⟨encoded, t, id, cost⟩] }
        if t = .window then
          match d.pendingWindows with
          | none => .panic .nilWindows
          | some windows =>
              let windows := windows.put id (d.pendingFrames.length - 1)
              pure (s.setQueue q { d with pendingWindows := some windows }.signal, true)
        else pure (s.setQueue q d.signal, true)
      else do
        announce (.refused t id payload)
        pure (s, false)

/-- The common body of `queueFrameLocked` and `queueLaneFrameLocked`. -/
def queueOn (s : Session) (q : QueueRef) (t : FrameType) (id : ℕ) (payload : Bytes) :
    Act (Session × Bool) :=
  let d := s.queue q
  match d.windowIndex t id with
  | none => pushFrame s q t id payload
  | some index =>
      match d.pendingFrames[index]? with
      | none => .panic .indexOutOfRange
      | some queued =>
          let total := (windowAmount (queued.encoded.drop headerSize)).1 +
            (windowAmount payload).1
          if total ≤ maxUint32 then do
            announce (.queued q t id payload)
            pure (s.setQueue q { d with
              pendingFrames := d.pendingFrames.set index (queued.setAmount total) }.signal, true)
          else pushFrame s q t id payload

def queueLaneFrameLocked (s : Session) (t : FrameType) (id : ℕ) (payload : Bytes) :
    Act (Session × Bool) :=
  match s.carrierLanes.get id with
  | none => do
      announce (.refused t id payload)
      pure (s, false)
  | some lane => queueOn s (.lane id lane.object) t id payload

def queueFrameLocked (s : Session) (t : FrameType) (id : ℕ) (payload : Bytes) :
    Act (Session × Bool) :=
  if s.usesCarrierLanes then queueLaneFrameLocked s t id payload
  else queueOn s .session t id payload

/-! ### Taking a batch -/

/-- How many of the queued frames the next batch takes: the first loop of
`takeDownBatchLocked`, with `count` frames of `size` bytes taken so far and room for `room`
more. -/
def batchCount (carrierBatchBytes : ℕ) : ℕ → ℕ → ℕ → List QueuedFrame → ℕ
  | 0, _, _, _ => 0
  | _ + 1, _, _, [] => 0
  | room + 1, count, size, f :: rest =>
      if count ≠ 0 ∧ carrierBatchBytes < size + f.encoded.length then 0
      else batchCount carrierBatchBytes room (count + 1) (size + f.encoded.length) rest + 1

/-- Forget the index entries of the frames that leave the queue, the first of them at
`index`.  A missing key reads as index 0 in the code, and deleting it does nothing. -/
def forgetWindows : ℕ → List QueuedFrame → Table ℕ ℕ → Table ℕ ℕ
  | _, [], windows => windows
  | index, f :: rest, windows =>
      forgetWindows (index + 1) rest
        (if f.typeCode = .window ∧ (windows.get f.streamID).getD 0 = index then
          windows.del f.streamID else windows)

structure DownBatch where
  body : Bytes
  cost : ℕ
  items : ℕ

/-- The common body of `takeDownBatchLocked` and `takeLaneDownBatchLocked`. -/
def Downlink.takeBatch (d : Downlink) (limits : Limits) : DownBatch × Downlink :=
  let count := batchCount limits.carrierBatchBytes maxBatchFrames 0 0 d.pendingFrames
  let taken := d.pendingFrames.take count
  (⟨taken.flatMap (·.encoded), (taken.map (·.cost)).sum, count⟩,
    { d with
      pendingFrames := d.pendingFrames.drop count
      pendingWindows := d.pendingWindows.map fun windows =>
        (forgetWindows 0 taken windows).mapValues (· - count) })

end TproxyServer
