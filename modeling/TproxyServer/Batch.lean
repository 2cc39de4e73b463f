import TproxyServer.Closing

/-! # The three passes over an uplink batch

`validateBatchLocked`, `backendWriteReservationLocked` and `applyBatchLocked`, with
`appendBackendWriteLocked`. -/

namespace TproxyServer

open Interaction Prog

/-! ### Validation -/

structure StreamSnapshot where
  receiveWindow : ℕ
  sendCredit : ℕ
deriving DecidableEq, Repr

/-- `uint32(x)`. -/
def toUint32 (x : ℕ) : ℕ := x % 2 ^ 32

/-- `a - b` on `uint32`. -/
def subUint32 (a b : ℕ) : ℕ := (a + (2 ^ 32 - b)) % 2 ^ 32

/-- Add a WINDOW delta to a send credit, which saturates at `math.MaxUint32`. -/
def addCredit (sendCredit amount : ℕ) : ℕ :=
  if maxUint32 < sendCredit + amount then maxUint32 else sendCredit + amount

/-- The loop of `validateBatchLocked`: the streams it takes to be live and the ids closed in
the batch change, `closedStreams` is the session's own throughout. -/
def validateLoop (closedStreams : Finset ℕ) :
    Table ℕ StreamSnapshot → Finset ℕ → List Frame → Bool
  | _, _, [] => true
  | live, closed, f :: rest =>
      if f.streamID = 0 then
        if f.type = .pong then validateLoop closedStreams live closed rest else false
      else
        let wasClosed := f.streamID ∈ closedStreams ∨ f.streamID ∈ closed
        match f.type with
        | .open =>
            if live.get f.streamID ≠ none ∨ wasClosed then false
            else validateLoop closedStreams
              (live.put f.streamID ⟨initialStreamWindow, initialStreamWindow⟩) closed rest
        | .data =>
            if wasClosed then validateLoop closedStreams live closed rest
            else
              match live.get f.streamID with
              | none => false
              | some state =>
                  let length := toUint32 f.payload.length
                  if state.receiveWindow < length then false
                  else validateLoop closedStreams
                    (live.put f.streamID
                      { state with receiveWindow := subUint32 state.receiveWindow length })
                    closed rest
        | .window =>
            if wasClosed then validateLoop closedStreams live closed rest
            else
              match live.get f.streamID with
              | none => false
              | some state =>
                  validateLoop closedStreams
                    (live.put f.streamID { state with
                      sendCredit := addCredit state.sendCredit (windowAmount f.payload).1 })
                    closed rest
        | .close =>
            if wasClosed then validateLoop closedStreams live closed rest
            else
              match live.get f.streamID with
              | none => false
              | some _ =>
                  validateLoop closedStreams (live.del f.streamID) (insert f.streamID closed) rest
        | _ => false

/-- The copy of the streams that `validateBatchLocked` starts from. -/
def Session.snapshot (s : Session) : Table ℕ StreamSnapshot :=
  s.streams.mapValues fun st => ⟨st.receiveWindow, st.sendCredit⟩

def validateBatchLocked (s : Session) (values : List Frame) : Bool :=
  validateLoop s.closedStreams s.snapshot ∅ values

/-! ### Reservation -/

def reservationLoop : Finset ℕ → List Frame → ℕ × ℕ
  | _, [] => (0, 0)
  | live, f :: rest =>
      if f.streamID = 0 then reservationLoop live rest
      else
        match f.type with
        | .open => reservationLoop (insert f.streamID live) rest
        | .data =>
            let r := reservationLoop live rest
            if f.streamID ∈ live then (f.payload.length + queueItemCost + r.1, 1 + r.2) else r
        | .close => reservationLoop (live.erase f.streamID) rest
        | _ => reservationLoop live rest

def backendWriteReservationLocked (s : Session) (values : List Frame) : ℕ × ℕ :=
  reservationLoop s.streams.keys.toFinset values

/-! ### Application -/

/-- `appendBackendWriteLocked`: the stream after the append, and what it charges. -/
def appendBackendWriteLocked (state : StreamState) (payload : Bytes) : StreamState × ℕ × ℕ :=
  let coalesce := match state.writes.getLast? with
    | none => false
    | some last => decide (last.length + payload.length ≤ dataChunk)
  let cost := if coalesce then payload.length else payload.length + queueItemCost
  let items := if coalesce then 0 else 1
  let writes :=
    if coalesce then state.writes.dropLast ++ [state.writes.getLastD [] ++ payload]
    else state.writes ++ [payload]
  ({ state with
      writes
      pendingWriteBytes := state.pendingWriteBytes + payload.length
      pendingWriteCost := state.pendingWriteCost + cost
      pendingWriteItems := state.pendingWriteItems + items }, cost, items)

/-- The variables of the loop of `applyBatchLocked`: the session, the backends opened and
closed, what is left of the reservation, and the flag it returns. -/
structure Applying where
  session : Session
  opened : List ℕ := []
  closed : List ℕ := []
  cost : ℤ
  items : ℤ
  applied : Bool := true

def newStream (backend : ℕ) : StreamState :=
  { backend, receiveWindow := initialStreamWindow, sendCredit := initialStreamWindow }

/-- What an OPEN that is not admitted leads to: a tombstone and a CLOSE. -/
def refuseOpen (r : Applying) (id : ℕ) : Act Applying := do
  let s ← rememberClosedLocked r.session id
  announce (.rejected id)
  let (s, ok) ← queueFrameLocked s .close id []
  if ok then pure { r with session := s }
  else do
    announce (.abandoned id)
    pure { r with session := s, applied := false }

/-- The OPEN case of `applyBatchLocked`. -/
def applyOpen (r : Applying) (id : ℕ) : Act Applying := do
  let s := r.session
  let admitted ←
    if s.limits.maxStreamsPerSession ≤ s.streams.size then pure false
    else request .acquireStream
  if admitted then do
    let backend := s.nextObject
    announce (.opened id backend)
    pure { r with
      session := { s.putStream id (newStream backend) with nextObject := backend + 1 }
      opened := r.opened ++ [backend] }
  else refuseOpen r id

/-- The DATA case: the stream is dereferenced whether it is there or not. -/
def applyData (r : Applying) (id : ℕ) (payload : Bytes) : Act Applying :=
  match r.session.streams.get id with
  | none => .panic .missingStream
  | some state => do
      let (state, cost, items) := appendBackendWriteLocked state payload
      announce (.dataApplied id payload)
      pure { r with
        session := r.session.putStream id { state with
          receiveWindow := subUint32 state.receiveWindow (toUint32 payload.length)
          writeNotify := true }
        cost := r.cost - cost
        items := r.items - items }

def applyWindow (r : Applying) (id : ℕ) (payload : Bytes) : Act Applying :=
  match r.session.streams.get id with
  | none => .panic .missingStream
  | some state => do
      let amount := (windowAmount payload).1
      announce (.windowApplied id amount)
      pure { r with
        session := r.session.putStream id { state with
          sendCredit := addCredit state.sendCredit amount
          creditNotify := true } }

def applyClose (r : Applying) (id : ℕ) : Act Applying :=
  match r.session.streams.get id with
  | none => .panic .missingStream
  | some state => do
      let s ← releaseStreamWritesLocked r.session state
      let s ← rememberClosedLocked (s.delStream id) id
      pure { r with session := s, closed := r.closed ++ [state.backend] }

def applyFrame (r : Applying) (f : Frame) : Act Applying :=
  if f.streamID = 0 then pure r
  else
    let wasClosed := f.streamID ∈ r.session.closedStreams
    match f.type with
    | .open => applyOpen r f.streamID
    | .data => if wasClosed then pure r else applyData r f.streamID f.payload
    | .window => if wasClosed then pure r else applyWindow r f.streamID f.payload
    | .close => if wasClosed then pure r else applyClose r f.streamID
    | _ => pure r

/-- The loop of `applyBatchLocked`, which stops where a CLOSE cannot be queued. -/
def applyLoop (r : Applying) : List Frame → Act Applying
  | [] => pure r
  | f :: rest => do
      let r ← applyFrame r f
      if r.applied then applyLoop r rest else pure r

def applyBatchLocked (s : Session) (values : List Frame) (reservedCost reservedItems : ℤ) :
    Act Applying :=
  applyLoop { session := s, cost := reservedCost, items := reservedItems } values

end TproxyServer
