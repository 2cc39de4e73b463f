import TproxyServer.Closing

/-! # Downlink polls

`Poll` and `PollLane`: the entry of a call, the head of its loop, and what it does when its
`select` wakes it.  The two functions differ in the queue they work on, in the lane's end that
`PollLane` reports, and in the `done` channel that only `PollLane` waits on. -/

namespace TproxyServer

open Interaction Prog

/-- What a section of a poll leads to. -/
inductive PollReply where
  /-- A batch, taken now or replayed, and the cursor after it. -/
  | batch (body : Bytes) (next : ℕ)
  /-- No frames and the poll's own cursor. -/
  | empty (cursor : ℕ)
  /-- No frames, the poll's own cursor and `laneClosed`. -/
  | laneClosed (cursor : ℕ)
  /-- `ErrClosed`. -/
  | closed
  /-- The context's error. -/
  | cancelled
  /-- `ErrProtocol` for a call of the wrong carrier or a missing lane. -/
  | refused
  /-- Unlock, then the protocol failure, then `ErrProtocol`. -/
  | failing
  /-- Unlock and wait; `mine` is the channel a newer poll closes. -/
  | parked (mine : ℕ)
deriving DecidableEq, Repr

/-- How a poll's cursor stands to the queue. -/
inductive CursorCheck where
  | replay
  | acknowledge
  | current
  | mismatch
deriving DecidableEq, Repr

def Downlink.checkCursor (d : Downlink) (cursor : ℕ) : CursorCheck :=
  if d.unacked.length ≠ 0 then
    if cursor = d.unackedBase then .replay
    else if cursor ≠ d.downCursor then .mismatch
    else .acknowledge
  else if cursor ≠ d.downCursor then .mismatch
  else .current

def Downlink.leave (d : Downlink) : Downlink :=
  { d with downActive := false, superseded := none }

def Downlink.deliver (d : Downlink) (batch : DownBatch) (cursor : ℕ) : Downlink :=
  { d with
    downCursor := d.downCursor + 1
    unackedBase := cursor
    unacked := batch.body
    unackedCost := batch.cost
    unackedItems := batch.items }.leave

/-- The two tests with which `PollLane` finds that its lane has ended. -/
def Session.laneEnded (s : Session) : QueueRef → Bool
  | .session => false
  | .lane id object =>
      (id ≠ 0 ∧ s.streams.get id = none ∧ id ∈ s.closedStreams) ∨
        (s.attached id object).isNone

/-- The head of the loop of a poll whose channel is `mine`. -/
def pollLoop (s : Session) (q : QueueRef) (cursor mine : ℕ) : Act (Session × PollReply) :=
  let d := s.queue q
  if d.superseded ≠ some mine then pure (s, .empty cursor)
  else if d.pendingFrames ≠ [] then do
    let (batch, d) := d.takeBatch s.limits
    let d := d.deliver batch cursor
    announce (.delivered q cursor batch.body)
    pure (s.setQueue q d, .batch batch.body d.downCursor)
  else if s.closed then pure (s.setQueue q d.leave, .closed)
  else if s.laneEnded q then pure (s.setQueue q d.leave, .laneClosed cursor)
  else pure (s, .parked mine)

/-- A poll takes over from the one that is parked, whose channel it closes. -/
def takeOver (s : Session) (q : QueueRef) : Act (Session × ℕ) := do
  let d := s.queue q
  let s ← match d.superseded with
    | none => pure s
    | some channel =>
        if d.downActive = false then pure s
        else if channel ∈ s.closedChannels then .panic .closedTwice
        else pure { s with closedChannels := insert channel s.closedChannels }
  let mine := s.nextObject
  let s := { s with nextObject := mine + 1 }
  pure (s.setQueue q { d with superseded := some mine, downActive := true }, mine)

/-- `Poll` and `PollLane` once they have their queue. -/
def pollOn (s : Session) (q : QueueRef) (cursor : ℕ) : Act (Session × PollReply) :=
  let d := s.queue q
  match d.checkCursor cursor with
  | .replay => pure (s, .batch d.unacked d.downCursor)
  | .mismatch => pure (s, .failing)
  | .acknowledge => do
      let s ← releasePendingLocked s d.unackedCost d.unackedItems
      let (s, mine) ← takeOver (s.setQueue q d.acknowledge) q
      pollLoop s q cursor mine
  | .current => do
      let (s, mine) ← takeOver s q
      pollLoop s q cursor mine

/-- `Poll` up to its first wait. -/
def poll (s : Session) (cursor : ℕ) : Act (Session × PollReply) :=
  if s.usesCarrierLanes then pure (s, .refused)
  else if s.closed then pure (s, .closed)
  else pollOn s .session cursor

/-- `PollLane` up to its first wait. -/
def pollLane (s : Session) (laneID cursor : ℕ) : Act (Session × PollReply) :=
  if s.usesCarrierLanes = false ∨ maxStreamID < laneID then pure (s, .refused)
  else if s.closed then pure (s, .closed)
  else
    match s.carrierLanes.get laneID with
    | none => pure (s, .refused)
    | some lane => pollOn s (.lane laneID lane.object) cursor

/-- What the `select` of a parked poll received from. -/
inductive Wake where
  | cancelled
  | superseded
  | done
  | deadline
  | notified
deriving DecidableEq, Repr

/-- A parked poll locks again after a wake-up. -/
def pollResume (s : Session) (q : QueueRef) (cursor mine : ℕ) : Wake → Act (Session × PollReply)
  | .cancelled =>
      let d := s.queue q
      pure (if d.superseded = some mine then s.setQueue q d.leave else s, .cancelled)
  | .superseded => pure (s.setQueue q (s.queue q).signal, .empty cursor)
  | .done =>
      let d := s.queue q
      pure (if d.superseded = some mine then s.setQueue q d.leave else s, .closed)
  | .deadline =>
      let d := s.queue q
      if d.superseded ≠ some mine then pure (s.setQueue q d.signal, .empty cursor)
      else if d.pendingFrames ≠ [] then pollLoop s q cursor mine
      else pure (s.setQueue q d.leave, .empty cursor)
  | .notified =>
      let d := s.queue q
      let s := if d.superseded ≠ some mine then s.setQueue q d.signal else s
      pollLoop s q cursor mine

/-- A parked poll receives the token of its queue's `notify` channel. -/
def takeToken (s : Session) (q : QueueRef) : Session :=
  s.setQueue q { s.queue q with notify := false }

end TproxyServer
