import TproxyServer.Batch

/-! # Uplink requests and WebSocket attachment

The critical sections of `ProcessUp` (two: it parses between them without the lock),
`ProcessUpLane`, `AcquireWebSocket`, `AcquireWebSocketLane`, `ReleaseWebSocketLane` and the
two protocol failures.  Where the code unlocks first and then closes the session, the section
answers `failing` or `aborting` and the closing is a section of its own, so that others may
run in between.  `backendStream.close` on the backends a batch closed, which the code calls
right after it unlocks, touches nothing of the session and is announced in the section. -/

namespace TproxyServer

open Interaction Prog

/-- What a section of an uplink request leads to. -/
inductive UpReply where
  /-- The sequence is returned without error. -/
  | acked (sequence : ℕ)
  /-- `ErrClosed`. -/
  | closed
  /-- `ErrConcurrent`. -/
  | concurrent
  /-- `ErrBackpressure`. -/
  | backpressure
  /-- `ErrProtocol` for a call of the wrong carrier. -/
  | refused
  /-- Unlock, then the protocol failure, then `ErrProtocol`. -/
  | failing
  /-- Unlock and parse the body. -/
  | parsing
  /-- Unlock, then `Close`, then `ErrClosed`. -/
  | aborting
deriving DecidableEq, Repr

/-- The frames of a serialized body, if `ParseAll` and `ValidateClientShape` accept it. -/
def clientFrames (limits : Limits) (body : Bytes) : Option (List Frame) :=
  match parseAll body limits.maxFramePayload with
  | .error _ => none
  | .ok frames => if frames.all validateClientShape then some frames else none

/-- The frames of a lane body, all of which must carry the lane's id. -/
def laneFrames (limits : Limits) (laneID : ℕ) (body : Bytes) : Option (List Frame) :=
  match parseAll body limits.maxFramePayload with
  | .error _ => none
  | .ok frames =>
      if frames.all (fun f => validateClientShape f && f.streamID = laneID) then some frames
      else none

def onlyLateFrames (values : List Frame) : Bool :=
  values.all (fun f => f.type = .data || f.type = .window || f.type = .close) &&
    !values.isEmpty

inductive BatchOutcome where
  | invalid
  | backpressure
  | applied
  | aborted
deriving DecidableEq, Repr

/-- What `ProcessUp` and `ProcessUpLane` do alike under the lock with a parsed batch. -/
def commitBatch (s : Session) (laneID : Option ℕ) (sequence : ℕ) (body : Bytes)
    (frames : List Frame) : Act (Session × BatchOutcome) :=
  if validateBatchLocked s frames = false then pure (s, .invalid)
  else do
    let reserved := backendWriteReservationLocked s frames
    let (s, ok) ←
      if reserved.1 ≠ 0 ∨ reserved.2 ≠ 0 then
        reservePendingLocked s reserved.1 reserved.2 .uplink
      else pure (s, true)
    if ok = false then pure (s, .backpressure)
    else do
      announce (.applying laneID sequence body)
      let r ← applyBatchLocked s frames reserved.1 reserved.2
      let s ←
        if r.cost ≠ 0 ∨ r.items ≠ 0 then releasePendingLocked r.session r.cost r.items
        else pure r.session
      announce (.cancelled r.closed)
      pure (s, if r.applied then .applied else .aborted)

/-- `ProcessUp` up to the point where it parses.  `sequence` is a `uint64`, so the wrap of
`lastUpSequence + 1` only meets the sequence zero, which is refused. -/
def processUpBegin (sha256 : Bytes → Bytes) (s : Session) (sequence : ℕ) (body : Bytes) :
    Session × UpReply :=
  if s.usesCarrierLanes then (s, .refused)
  else if s.closed then (s, .closed)
  else if sequence = s.lastUpSequence ∧ sequence ≠ 0 then
    if sha256 body = s.lastUpDigest then (s, .acked sequence) else (s, .failing)
  else if sequence ≠ s.lastUpSequence + 1 ∨ sequence = 0 then (s, .failing)
  else if s.upActive then (s, .concurrent)
  else ({ s with upActive := true }, .parsing)

/-- `ProcessUp` from where it locks again. -/
def processUpCommit (sha256 : Bytes → Bytes) (s : Session) (sequence : ℕ) (body : Bytes) :
    Act (Session × UpReply) :=
  let s := { s with upActive := false }
  if s.closed then pure (s, .closed)
  else
    match clientFrames s.limits body with
    | none => pure (s, .failing)
    | some frames => do
        let (s, outcome) ← commitBatch s none sequence body frames
        match outcome with
        | .invalid => pure (s, .failing)
        | .backpressure => pure (s, .backpressure)
        | .aborted => pure (s, .aborting)
        | .applied =>
            pure ({ s with lastUpSequence := sequence, lastUpDigest := sha256 body },
              .acked sequence)

/-- `ProcessUpLane` once it has the lane object. -/
def processOnLane (sha256 : Bytes → Bytes) (s : Session) (lane : CarrierLane) (laneID : ℕ)
    (sequence : ℕ) (body : Bytes) (frames : List Frame) : Act (Session × UpReply) :=
  if sequence = lane.lastUpSequence ∧ sequence ≠ 0 then
    if sha256 body = lane.lastUpDigest then pure (s, .acked sequence) else pure (s, .failing)
  else if sequence ≠ lane.lastUpSequence + 1 ∨ sequence = 0 then pure (s, .failing)
  else if lane.upActive then pure (s, .concurrent)
  else do
    let s := s.modifyLane laneID lane.object fun l => { l with upActive := true }
    let (s, outcome) ← commitBatch s (some laneID) sequence body frames
    let s := s.modifyLane laneID lane.object fun l => { l with upActive := false }
    match outcome with
    | .invalid => pure (s, .failing)
    | .backpressure => pure (s, .backpressure)
    | .aborted => pure (s, .aborting)
    | .applied =>
        pure (s.modifyLane laneID lane.object fun l =>
          { l with lastUpSequence := sequence, lastUpDigest := sha256 body }, .acked sequence)

/-- Store a new lane under `laneID`. -/
def Session.createLane (s : Session) (laneID : ℕ) : Session × CarrierLane :=
  let lane : CarrierLane := { object := s.nextObject }
  ({ s.putLane laneID lane with nextObject := s.nextObject + 1 }, lane)

def processUpLane (sha256 : Bytes → Bytes) (s : Session) (laneID sequence : ℕ)
    (body : Bytes) : Act (Session × UpReply) :=
  if s.usesCarrierLanes = false ∨ maxStreamID < laneID then pure (s, .refused)
  else
    match laneFrames s.limits laneID body with
    | none => pure (s, .failing)
    | some frames =>
        if s.closed then pure (s, .closed)
        else
          match s.carrierLanes.get laneID with
          | some lane => processOnLane sha256 s lane laneID sequence body frames
          | none =>
              let opens := frames.head?.map (·.type) = some .open
              if laneID ≠ 0 ∧ frames ≠ [] ∧ ¬ opens ∧ onlyLateFrames frames then
                pure (s, .acked sequence)
              else if laneID = 0 ∨ frames = [] ∨ ¬ opens then pure (s, .failing)
              else
                let (s, lane) := s.createLane laneID
                processOnLane sha256 s lane laneID sequence body frames

/-! ### WebSocket attachment -/

def acquireWebSocket (s : Session) : Session × Bool :=
  if s.closed ∨ s.carrier ≠ .webSocket ∨ s.websocketActive then (s, false)
  else ({ s with websocketActive := true }, true)

def acquireWebSocketLane (s : Session) (laneID : ℕ) : Session × Bool :=
  if s.closed ∨ s.carrier ≠ .webSocketLanes ∨ laneID = 0 ∨ maxStreamID < laneID then (s, false)
  else if laneID ∈ s.closedStreams then (s, false)
  else
    match s.carrierLanes.get laneID with
    | some lane =>
        if lane.websocketActive then (s, false)
        else (s.putLane laneID { lane with websocketActive := true }, true)
    | none =>
        if s.limits.maxStreamsPerSession ≤ s.carrierLanes.size then (s, false)
        else
          let (s, lane) := s.createLane laneID
          (s.putLane laneID { lane with websocketActive := true }, true)

/-- The end of `ReleaseWebSocketLane`: the lane goes, if it is still there. -/
def dropLane (s : Session) (laneID : ℕ) : Act Session :=
  match s.carrierLanes.get laneID with
  | none => pure s
  | some lane => do
      let (s, lane) ← releaseLaneLocked s lane
      pure (s.delLane laneID lane)

def releaseWebSocketLane (s : Session) (laneID : ℕ) : Act Session :=
  if s.carrier ≠ .webSocketLanes then pure s
  else
    match s.carrierLanes.get laneID with
    | none => pure s
    | some lane => do
        let s := s.putLane laneID { lane with websocketActive := false }
        let s ← match s.streams.get laneID with
          | none => pure s
          | some state => do
              let s ← releaseStreamWritesLocked s state
              let s ← rememberClosedLocked (s.delStream laneID) laneID
              announce (.cancelled [state.backend])
              pure s
        dropLane s laneID

/-- `laneProtocolFailure`; `protocolFailure` is `closeLocked`. -/
def laneProtocolFailure (s : Session) (laneID : ℕ) : Act Session :=
  if s.carrier = .webSocketLanes then releaseWebSocketLane s laneID else closeLocked s

end TproxyServer
