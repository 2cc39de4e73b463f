import TproxyServer.Closing
import TproxyServer.Batch

/-! # The backend callbacks

`nextWrite`, `backendDrained`, `backendWriteFinished`, `nextReadAllowance`, `backendData` and
`backendClosed`: what the two goroutines of a `backendStream` call, by numeric stream id.  A
function that waits in a loop is one section per turn of its loop. -/

namespace TproxyServer

open Interaction Prog

inductive WriteReply where
  | chunk (data : Bytes)
  | parked
  | ended
deriving DecidableEq, Repr

/-- One turn of `nextWrite`. -/
def nextWrite (s : Session) (id : ℕ) : Session × WriteReply :=
  if s.closed then (s, .ended)
  else
    match s.streams.get id with
    | none => (s, .ended)
    | some state =>
        match state.writes with
        | [] => (s, .parked)
        | chunk :: writes => (s.putStream id { state with writes }, .chunk chunk)

def backendDrained (s : Session) (id amount : ℕ) : Act (Session × Bool) :=
  match s.streams.get id with
  | none => pure (s, false)
  | some state =>
      if s.closed ∨ amount = 0 ∨ state.pendingWriteBytes < amount ∨
          state.pendingWriteCost < amount ∨
          initialStreamWindow < state.receiveWindow + amount then
        pure (s, false)
      else do
        let s ← releasePendingLocked
          (s.putStream id { state with
            pendingWriteBytes := state.pendingWriteBytes - amount
            pendingWriteCost := state.pendingWriteCost - amount }) amount 0
        let s := s.putStream id { state with
          pendingWriteBytes := state.pendingWriteBytes - amount
          pendingWriteCost := state.pendingWriteCost - amount
          receiveWindow := state.receiveWindow + amount }
        queueFrameLocked s .window id (windowPayload amount)

def backendWriteFinished (s : Session) (id : ℕ) : Act (Session × Bool) :=
  match s.streams.get id with
  | none => pure (s, false)
  | some state =>
      if s.closed ∨ state.pendingWriteItems = 0 ∨ state.pendingWriteCost < queueItemCost then
        pure (s, false)
      else do
        let s ← releasePendingLocked
          (s.putStream id { state with
            pendingWriteItems := state.pendingWriteItems - 1
            pendingWriteCost := state.pendingWriteCost - queueItemCost }) queueItemCost 1
        pure (s, true)

def dataFrameAllowanceLocked (s : Session) (limit : ℕ) : ℕ :=
  let partition := downlinkPendingLimits s.limits
  if partition.2 ≤ s.pendingItems then 0
  else if partition.1 ≤ s.pendingCost + queueItemCost + headerSize then 0
  else min limit (partition.1 - s.pendingCost - queueItemCost - headerSize)

inductive ReadReply where
  | granted (allowance : ℕ)
  | parked
  | ended
deriving DecidableEq, Repr

/-- One turn of `nextReadAllowance`. -/
def nextReadAllowance (s : Session) (id : ℕ) : ReadReply :=
  if s.closed then .ended
  else
    match s.streams.get id with
    | none => .ended
    | some state =>
        if state.sendCredit = 0 then .parked
        else
          let result := dataFrameAllowanceLocked s (min state.sendCredit dataChunk)
          if result = 0 then .parked else .granted result

/-- `backendData`: the credit is taken before the frame is queued. -/
def backendData (s : Session) (id : ℕ) (data : Bytes) : Act (Session × Bool) :=
  match s.streams.get id with
  | none => pure (s, false)
  | some state =>
      if s.closed ∨ data.length = 0 ∨ state.sendCredit < data.length then pure (s, false)
      else
        queueFrameLocked
          (s.putStream id { state with sendCredit := state.sendCredit - data.length })
          .data id data

def backendClosed (s : Session) (id backend : ℕ) : Act Session := do
  let s ← match s.streams.get id with
    | none => pure s
    | some state =>
        if s.closed ∨ state.backend ≠ backend then pure s
        else do
          let s ← releaseStreamWritesLocked s state
          let s ← rememberClosedLocked (s.delStream id) id
          let (s, ok) ← queueFrameLocked s .close id []
          if ok then pure s else closeLocked s
  announce (.cancelled [backend])
  pure s

end TproxyServer
