import TproxyServer.Queue

/-! # Ending streams, lanes and the session

`releaseLaneLocked`, `rememberClosedLocked`, `releaseStreamWritesLocked` and `closeLocked`. -/

namespace TproxyServer

open Interaction Prog

/-- The cost and items a downlink still holds. -/
def Downlink.held (d : Downlink) : ℕ × ℕ :=
  (d.unackedCost + (d.pendingFrames.map (·.cost)).sum, d.unackedItems + d.pendingFrames.length)

/-- `releaseLaneLocked`, with the lane object it leaves. -/
def releaseLaneLocked (s : Session) (lane : CarrierLane) : Act (Session × CarrierLane) := do
  let (cost, items) := lane.down.held
  let s ← if cost ≠ 0 ∨ items ≠ 0 then releasePendingLocked s cost items else pure s
  pure (s, lane.drop)

/-- Wake the poll parked on the lane stored under `id`. -/
def Session.signalLane (s : Session) (id : ℕ) : Session :=
  match s.carrierLanes.get id with
  | none => s
  | some lane => s.putLane id { lane with down := lane.down.signal }

/-- The full-ring branch of `rememberClosedLocked`: the oldest tombstone makes room, and its
lane goes with it. -/
def evictOldest (s : Session) (id : ℕ) : Act Session := do
  let old := s.closedOrder.getD s.closedStart 0
  announce (.evicted old)
  let s := { s with closedStreams := s.closedStreams.erase old }
  let s ← match s.carrierLanes.get old with
    | none => pure s
    | some lane => do
        let (s, lane) ← releaseLaneLocked s lane
        pure (s.delLane old lane)
  let closedOrder := s.closedOrder.set s.closedStart id
  pure { s with closedOrder, closedStart := (s.closedStart + 1) % closedOrder.length }

def rememberClosedLocked (s : Session) (id : ℕ) : Act Session :=
  if id ∈ s.closedStreams then pure s
  else do
    announce (.remembered id)
    let s := { s with closedStreams := insert id s.closedStreams }
    let s ← if s.closedOrder.length < s.limits.maxClosedStreamIDs then
        pure { s with closedOrder := s.closedOrder ++ [id] }
      else evictOldest s id
    pure (s.signalLane id)

/-- `releaseStreamWritesLocked` on a stream that is deleted right after, as all its callers
do. -/
def releaseStreamWritesLocked (s : Session) (state : StreamState) : Act Session :=
  if state.pendingWriteCost ≠ 0 ∨ state.pendingWriteItems ≠ 0 then
    releasePendingLocked s state.pendingWriteCost state.pendingWriteItems
  else pure s

def Session.backends (s : Session) : List ℕ := s.streams.entries.map (·.2.backend)

def closeLocked (s : Session) : Act Session :=
  if s.closed then pure s
  else do
    announce (.cancelled s.backends)
    let s := { s with
      closed := true
      carrierLanes := s.carrierLanes.mapValues CarrierLane.drop
      streams := .nil }
    let s ← if s.pendingCost ≠ 0 ∨ s.pendingItems ≠ 0 then do
        let _ ← request (.budget (-s.pendingCost) (-s.pendingItems) .uplink)
        pure { s with pendingCost := 0, pendingItems := 0 }
      else pure s
    announce .finished
    pure { s with down := s.down.drop }

end TproxyServer
