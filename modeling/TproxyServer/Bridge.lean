import TproxyServer.PageFrames
import TproxyServer.State

/-! # The bridge page as a machine of its events

The script of `internal/bridge/page.go` once its port is active.  A callback runs to its end
and so does an `async` function up to its next `await`: each is one function on the state of
the script, and `Script.next` says which of them an input starts.  An `await` is a field of the
state (`creating`, `upBatch`, `Lane.batch`, `polling`); its promise is settled by a later input.

`request` is an input that settles with a response or not at all.  What it repeats is the same
body under the same sequence number, so its retries are no steps here.  The headers and the
body of a downlink response arrive as one input, since the code does nothing between them;
those of the session's response are two.  A socket's `bufferedAmount` grows by what is sent
and is otherwise set by the browser (`Input.transmitted`).

Left out are the `status`, `traffic` and `close` messages to the app, the timeouts of requests
and what aborts them, the final `DELETE`, and the handshake that activates the port. -/

namespace TproxyServer

/-- The value of `carrierMode`. -/
def CarrierMode.text : CarrierMode → String
  | .https => "https"
  | .httpsLanes => "https-lanes"
  | .webSocket => "websocket"
  | .webSocketLanes => "websocket-lanes"

namespace Page

def queueLimit : ℤ := 33554432
def queueItemLimit : ℤ := 16384
def closedLaneLimit : ℕ := 4096
def laneQueueLimit : ℤ := 8388608
def laneItemLimit : ℤ := 1024

/-- What the relay writes into the page, and whether the app's port is that of Android. -/
structure Params where
  carrierMode : CarrierMode
  batchLimit : ℕ
  android : Bool := false

inductive ReadyState where
  | connecting
  | «open»
  | closing
  | closed
deriving DecidableEq, Repr

/-- A `WebSocket`. -/
structure Socket where
  readyState : ReadyState := .connecting
  bufferedAmount : ℕ := 0
deriving DecidableEq, Repr

/-- `socket.close()`. -/
def Socket.close (w : Socket) : Socket :=
  if w.readyState = .connecting ∨ w.readyState = .open then { w with readyState := .closing }
  else w

/-- `socket.send(body)`. -/
def Socket.send (w : Socket) (body : Bytes) : Socket :=
  { w with bufferedAmount := w.bufferedAmount + body.length }

/-- A lane object.  `batch` is what `runLaneUp` waits for an answer to, and `tasks` counts the
microtasks that will run `runWebSocketLaneUp`. -/
structure Lane where
  id : ℤ
  sequence : ℕ := 1
  cursor : String := "0"
  pending : List Bytes := []
  bytes : ℤ := 0
  items : ℤ := 0
  running : Bool := false
  polling : Bool := false
  socket : Option Socket := none
  timer : Bool := false
  opened : Bool := false
  localClosed : Bool := false
  remoteClosed : Bool := false
  finished : Bool := false
  batch : Option Batch := none
  tasks : ℕ := 0

/-- Where `createSession` is. -/
inductive Creating where
  | idle
  /-- It waits for the response to the first message. -/
  | requested (first : Bytes)
  /-- It waits for the body of the response. -/
  | reading
  /-- It waits for the promise of `openWebSocket`. -/
  | opening (welcome : Bytes)
  /-- The promise is kept. -/
  | opened (welcome : Bytes)
  /-- The promise is broken. -/
  | refused
  | ended
deriving DecidableEq, Repr

/-- The variables of the script.  A lane is referred to by the number of its object: `lanes` is
the map of the script, `objects` are the lanes ever made.  `upBatch` is what `runUp` waits for
an answer to, `webSocketTasks` counts the microtasks that will run `runWebSocketUp`.

Nothing reads `arrived` (the messages of the app after the first), `sent` (the bodies that went
up, each with its lane) and `posted` (the buffers for the app). -/
structure Script where
  closed : Bool := false
  createStarted : Bool := false
  creating : Creating := .idle
  sessionToken : String := ""
  queuedBytes : ℤ := 0
  queuedItems : ℤ := 0
  pending : List Bytes := []
  upPending : List Bytes := []
  upSequence : ℕ := 1
  upRunning : Bool := false
  upBatch : Option Batch := none
  downCursor : String := "0"
  polling : Bool := false
  webSocket : Option Socket := none
  webSocketTimer : Bool := false
  webSocketTasks : ℕ := 0
  lanes : Table ℤ ℕ := .nil
  objects : Table ℕ Lane := .nil
  nextObject : ℕ := 0
  closedLanes : Finset ℤ := ∅
  closedLaneOrder : List ℤ := []
  arrived : List Bytes := []
  sent : List (Option ℕ × Bytes) := []
  posted : List Bytes := []

namespace Script

/-- The lane behind an object number. -/
def lane (s : Script) (o : ℕ) : Lane := (s.objects.get o).getD { id := 0 }

def putLane (s : Script) (o : ℕ) (l : Lane) : Script :=
  { s with objects := s.objects.put o l }

def bufferedBytes (s : Script) (p : Params) : ℕ :=
  let amount : Option Socket → ℕ
    | some w => if w.readyState = .open then w.bufferedAmount else 0
    | none => 0
  amount s.webSocket +
    if p.carrierMode = .webSocketLanes then
      (s.lanes.entries.map fun e => amount (s.lane e.2).socket).sum
    else 0

/-- `reserve`; `none` is its `false`. -/
def reserve (s : Script) (p : Params) (data : Bytes) (lane : Option ℕ) : Option Script :=
  if data.length = 0 ∨ queueLimit - data.length < s.queuedBytes + s.bufferedBytes p ∨
      queueItemLimit ≤ s.queuedItems then none
  else
    let s' := { s with
      queuedBytes := s.queuedBytes + data.length
      queuedItems := s.queuedItems + 1 }
    match lane with
    | none => some s'
    | some o =>
        let l := s.lane o
        if laneQueueLimit - data.length < l.bytes ∨ laneItemLimit ≤ l.items then none
        else some (s'.putLane o { l with bytes := l.bytes + data.length, items := l.items + 1 })

def release (s : Script) (bytes items : ℤ) (lane : Option ℕ) : Script :=
  let s' := { s with
    queuedBytes := s.queuedBytes - bytes
    queuedItems := s.queuedItems - items }
  match lane with
  | none => s'
  | some o =>
      let l := s.lane o
      s'.putLane o { l with bytes := l.bytes - bytes, items := l.items - items }

/-- `close`.  Lanes that have left the map have closed their sockets already. -/
def close (s : Script) : Script :=
  if s.closed then s
  else { s with
    closed := true
    objects := s.objects.mapValues fun l => { l with socket := l.socket.map Socket.close }
    webSocket := s.webSocket.map Socket.close }

def fail (s : Script) : Script := if s.closed then s else s.close

/-- `port.postMessage` of a buffer.  A closed port drops it; the port for Android posts the
frames one by one, and fails on a buffer that has none. -/
def post (s : Script) (p : Params) (data : Bytes) : Script :=
  if p.android then
    match splitFrames data with
    | .error _ => s.fail
    | .ok frames => { s with posted := s.posted ++ frames.map Value.data }
  else if s.closed then s
  else { s with posted := s.posted ++ [data] }

/-! ### The uplink of mode `https` -/

/-- The loop of `runUp` up to its `await`.  It only ends when it is closed or nothing is left
to send, so what `finally` tests is false by then. -/
def upLoop (s : Script) (p : Params) : Script :=
  if s.closed = false ∧ s.sessionToken ≠ "" ∧ s.upPending ≠ [] then
    match joinPending p.batchLimit s.upPending with
    | .error _ => { s.fail with upRunning := false }
    | .ok j => { s with
        upPending := j.values
        queuedItems := s.queuedItems + j.added
        upBatch := some j.batch
        sent := s.sent ++ [(none, j.batch.body)] }
  else { s with upRunning := false }

def runUp (s : Script) (p : Params) : Script :=
  if s.upRunning then s else { s with upRunning := true }.upLoop p

def queueUp (s : Script) (p : Params) (data : Bytes) : Script :=
  match s.reserve p data none with
  | none => s.fail
  | some s => { s with upPending := s.upPending ++ [data] }.runUp p

/-- A response to `/api/v1/up`. -/
structure UpResponse where
  status : ℕ
  ack : String

/-- `runUp` goes on with the answer to its request. -/
def upAnswered (s : Script) (p : Params) (batch : Batch) (r : Option UpResponse) : Script :=
  let s := { s with upBatch := none }
  match r with
  | none => { s.fail with upRunning := false }
  | some r =>
      if r.status ≠ 204 ∨ r.ack ≠ toString s.upSequence then { s.fail with upRunning := false }
      else
        let s := s.release batch.total batch.count none
        { s with upSequence := s.upSequence + 1 }.upLoop p

/-! ### Lanes over HTTPS -/

def ensureLane (s : Script) (id : ℤ) : Script × ℕ :=
  match s.lanes.get id with
  | some o => (s, o)
  | none =>
      ({ s with
          lanes := s.lanes.put id s.nextObject
          objects := s.objects.put s.nextObject { id }
          nextObject := s.nextObject + 1 }, s.nextObject)

def rememberLaneClosed (s : Script) (id : ℤ) : Script :=
  if id = 0 ∨ id ∈ s.closedLanes then s
  else
    let s := if s.closedLaneOrder.length = closedLaneLimit then { s with
          closedLanes := s.closedLanes.erase (s.closedLaneOrder.headD 0)
          closedLaneOrder := s.closedLaneOrder.tail }
        else s
    { s with closedLanes := insert id s.closedLanes, closedLaneOrder := s.closedLaneOrder ++ [id] }

/-- The head of the loop of `pollLane`: another request, or the end of the function. -/
def pollLaneAgain (s : Script) (o : ℕ) : Script :=
  let l := s.lane o
  s.putLane o { l with
    polling := s.closed = false ∧ s.sessionToken ≠ "" ∧ s.lanes.get l.id = some o }

def pollLane (s : Script) (o : ℕ) : Script :=
  if (s.lane o).polling then s else s.pollLaneAgain o

/-- The loop of `runLaneUp` up to its `await`. -/
def laneLoop (s : Script) (p : Params) (o : ℕ) : Script :=
  let l := s.lane o
  if s.closed = false ∧ s.sessionToken ≠ "" ∧ l.pending ≠ [] then
    match joinPending p.batchLimit l.pending with
    | .error _ => s.fail.putLane o { s.fail.lane o with running := false }
    | .ok j =>
        { s with
          queuedItems := s.queuedItems + j.added
          sent := s.sent ++ [(some o, j.batch.body)] }.putLane o { l with
            pending := j.values
            items := l.items + j.added
            batch := some j.batch }
  else s.putLane o { l with running := false }

def runLaneUp (s : Script) (p : Params) (o : ℕ) : Script :=
  let l := s.lane o
  if l.running then s else (s.putLane o { l with running := true }).laneLoop p o

/-- The end of `queueLane`, once it has the lane. -/
def pushLane (s : Script) (p : Params) (o : ℕ) (value : Value) : Script :=
  match s.reserve p value.data (some o) with
  | none => s.fail
  | some s =>
      let l := s.lane o
      (s.putLane o { l with pending := l.pending ++ [value.data] }).runLaneUp p o

/-- DATA, CLOSE and WINDOW for a lane that is not there are dropped. -/
def late (value : Value) : Prop := value.type = 2 ∨ value.type = 3 ∨ value.type = 4

instance (value : Value) : Decidable (late value) := by
  unfold late
  exact inferInstance

/-- `queueLane`; what it throws, it throws before it changes anything. -/
def queueLane (s : Script) (p : Params) (value : Value) : Except String Script :=
  match s.lanes.get value.id with
  | some o => .ok (s.pushLane p o value)
  | none =>
      if late value then .ok s
      else if value.id ∈ s.closedLanes then .error "closed lane was reused"
      else if value.type ≠ 1 then .error "lane did not begin with OPEN"
      else
        let (s, o) := s.ensureLane value.id
        .ok (s.pushLane p o value)

/-- `runLaneUp` goes on with the answer to its request. -/
def laneAnswered (s : Script) (p : Params) (o : ℕ) (batch : Batch) (r : Option UpResponse) :
    Script :=
  let l := s.lane o
  let s := s.putLane o { l with batch := none }
  match r with
  | none => s.fail.putLane o { s.fail.lane o with running := false }
  | some r =>
      if r.status ≠ 204 ∨ r.ack ≠ toString l.sequence then
        s.fail.putLane o { s.fail.lane o with running := false }
      else
        let s := s.release batch.total batch.count (some o)
        let s := s.putLane o { s.lane o with sequence := l.sequence + 1 }
        (s.pollLane o).laneLoop p o

/-! ### The downlink over HTTPS -/

/-- A response to `/api/v1/down`; `data` is `none` where its body cannot be read. -/
structure DownResponse where
  status : ℕ
  laneClosed : Bool := false
  next : String := ""
  data : Option Bytes := none

/-- The head of the loop of `poll`. -/
def poll (s : Script) : Script :=
  { s with polling := s.closed = false ∧ s.sessionToken ≠ "" }

/-- `poll` goes on with the answer to its request. -/
def pollAnswered (s : Script) (p : Params) (r : Option DownResponse) : Script :=
  let stop : Script := { s.fail with polling := false }
  match r with
  | none => stop
  | some r =>
      if r.status = 204 then s.poll
      else if r.status ≠ 200 then stop
      else
        match r.data with
        | none => stop
        | some data =>
            if r.next = "" ∨ data.length = 0 then stop
            else if s.closed then { s with polling := false }
            else { s.post p data with downCursor := r.next }.poll

/-- `pollLane` goes on with the answer to its request. -/
def lanePollAnswered (s : Script) (p : Params) (o : ℕ) (r : Option DownResponse) : Script :=
  let stop (s : Script) : Script := s.putLane o { s.lane o with polling := false }
  let id := (s.lane o).id
  match r with
  | none => stop s.fail
  | some r =>
      if r.status = 204 then
        if r.laneClosed then stop ({ s with lanes := s.lanes.del id }.rememberLaneClosed id)
        else s.pollLaneAgain o
      else if r.status ≠ 200 then stop s.fail
      else
        match r.data with
        | none => stop s.fail
        | some data =>
            match splitFrames data with
            | .error _ => stop s.fail
            | .ok values =>
                if r.next = "" ∨ data.length = 0 ∨ values.any (·.id ≠ id) then stop s.fail
                else if s.closed then stop s
                else
                  let s := s.post p data
                  (s.putLane o { s.lane o with cursor := r.next }).pollLaneAgain o

/-! ### The multiplexed WebSocket -/

def runWebSocketUp (s : Script) (p : Params) : Script :=
  match s.webSocket with
  | none => s
  | some w =>
      if s.closed ∨ w.readyState ≠ .open ∨ s.upPending = [] then s
      else if queueLimit < w.bufferedAmount + s.queuedBytes ∨ p.batchLimit ≤ w.bufferedAmount then
        { s with webSocketTimer := true }
      else
        match joinPending p.batchLimit s.upPending with
        | .error _ => s.fail
        | .ok j =>
            let s := { s with
              upPending := j.values
              queuedItems := s.queuedItems + j.added
              webSocket := some (w.send j.batch.body)
              sent := s.sent ++ [(none, j.batch.body)] }.release j.batch.total j.batch.count none
            if s.upPending = [] then s else { s with webSocketTasks := s.webSocketTasks + 1 }

def queueWebSocket (s : Script) (p : Params) (data : Bytes) : Script :=
  match s.reserve p data none with
  | none => s.fail
  | some s => { s with upPending := s.upPending ++ [data] }.runWebSocketUp p

/-! ### Lanes over WebSockets -/

def closeFrame (id : ℤ) : Bytes :=
  [3, UInt8.ofNat (id.toNat >>> 16), UInt8.ofNat (id.toNat >>> 8), UInt8.ofNat id.toNat, 0, 0, 0, 0]

def finishWebSocketLane (s : Script) (p : Params) (o : ℕ) (notify : Bool) : Script :=
  let l := s.lane o
  if l.finished ∨ s.lanes.get l.id ≠ some o then s
  else
    let s := s.putLane o { l with finished := true }
    let s := if l.bytes ≠ 0 ∨ l.items ≠ 0 then s.release l.bytes l.items (some o) else s
    let s := s.putLane o { s.lane o with pending := [] }
    let s := { s with lanes := s.lanes.del l.id }.rememberLaneClosed l.id
    let s := s.putLane o { s.lane o with socket := l.socket.map Socket.close }
    if notify ∧ s.closed = false then s.post p (closeFrame l.id) else s

def runWebSocketLaneUp (s : Script) (p : Params) (o : ℕ) : Script :=
  let l := s.lane o
  match l.socket with
  | none => s
  | some w =>
      if s.closed ∨ l.finished ∨ w.readyState ≠ .open ∨ l.pending = [] then s
      else if p.batchLimit ≤ w.bufferedAmount then s.putLane o { l with timer := true }
      else
        match joinPending p.batchLimit l.pending with
        | .error _ => s.fail
        | .ok j =>
            let s := ({ s with
              queuedItems := s.queuedItems + j.added
              sent := s.sent ++ [(some o, j.batch.body)] }.putLane o { l with
                pending := j.values
                items := l.items + j.added
                socket := some (w.send j.batch.body) }).release j.batch.total j.batch.count (some o)
            let l := s.lane o
            if l.pending = [] then s else s.putLane o { l with tasks := l.tasks + 1 }

def openWebSocketLane (s : Script) (o : ℕ) : Script :=
  s.putLane o { s.lane o with socket := some {} }

/-- The end of `queueWebSocketLane`, once it has the lane. -/
def pushWebSocketLane (s : Script) (p : Params) (o : ℕ) (value : Value) : Script :=
  match s.reserve p value.data (some o) with
  | none => s.fail
  | some s =>
      let l := s.lane o
      let s := s.putLane o { l with
        pending := l.pending ++ [value.data]
        localClosed := if value.type = 3 then true else l.localClosed }
      match l.socket with
      | none => s.openWebSocketLane o
      | some _ => s.runWebSocketLaneUp p o

/-- `queueWebSocketLane`; what it throws, it throws before it changes anything. -/
def queueWebSocketLane (s : Script) (p : Params) (value : Value) : Except String Script :=
  match s.lanes.get value.id with
  | some o =>
      if value.id = 0 then .error "closed lane was reused" else .ok (s.pushWebSocketLane p o value)
  | none =>
      if late value then .ok s
      else if value.id = 0 ∨ value.id ∈ s.closedLanes then .error "closed lane was reused"
      else if value.type ≠ 1 then .error "lane did not begin with OPEN"
      else
        let (s, o) := s.ensureLane value.id
        .ok (s.pushWebSocketLane p o value)

/-- `onopen` of a lane's socket. -/
def laneOpened (s : Script) (p : Params) (o : ℕ) (w : Socket) : Script :=
  let l := s.lane o
  if s.closed ∨ l.finished then s.putLane o { l with socket := some w.close }
  else (s.putLane o { l with socket := some w, opened := true }).runWebSocketLaneUp p o

/-- `onmessage` of a lane's socket; `none` is no `ArrayBuffer`. -/
def laneMessage (s : Script) (p : Params) (o : ℕ) (data : Option Bytes) : Script :=
  match data with
  | none => s.fail
  | some data =>
      if data.length = 0 then s.fail
      else
        match splitFrames data with
        | .error _ => s.fail
        | .ok values =>
            let l := s.lane o
            if values.any (·.id ≠ l.id) then s.fail
            else if values.any (·.type = 3) then
              (s.putLane o { l with remoteClosed := true }).post p data
            else s.post p data

/-- `onclose` of a lane's socket. -/
def laneClosed (s : Script) (p : Params) (o : ℕ) : Script :=
  let l := s.lane o
  if s.closed ∨ l.finished then s
  else if l.opened = false then s.fail
  else s.finishWebSocketLane p o (!l.localClosed && !l.remoteClosed)

/-! ### Messages of the app -/

/-- The loop of `queueCarrier` over the frames of a message: what is thrown ends it. -/
def queueValues (p : Params) (queue : Script → Params → Value → Except String Script) :
    Script → List Value → Script
  | s, [] => s
  | s, value :: rest =>
      match queue s p value with
      | .error _ => s.fail
      | .ok s => queueValues p queue s rest

def queueCarrier (s : Script) (p : Params) (data : Bytes) : Script :=
  let split (queue : Script → Params → Value → Except String Script) : Script :=
    match splitFrames data with
    | .error _ => s.fail
    | .ok values => queueValues p queue s values
  match p.carrierMode with
  | .https => s.queueUp p data
  | .httpsLanes => split queueLane
  | .webSocket => s.queueWebSocket p data
  | .webSocketLanes => split queueWebSocketLane

/-- `port.onmessage` with an `ArrayBuffer`. -/
def message (s : Script) (p : Params) (data : Bytes) : Script :=
  if s.createStarted = false then
    { s with createStarted := true, creating := .requested data }
  else
    let s := { s with arrived := s.arrived ++ [data] }
    if s.sessionToken = "" then
      match s.reserve p data none with
      | none => s.fail
      | some s => { s with pending := s.pending ++ [data] }
    else s.queueCarrier p data

/-! ### Creating the session -/

/-- A response to `/api/v1/session`; a missing header is empty. -/
structure SessionResponse where
  status : ℕ
  carrierMode : String
  token : String
  cursor : String

/-- `createSession` goes on with the response. -/
def sessionAnswered (s : Script) (p : Params) (r : Option SessionResponse) : Script :=
  match r with
  | none => { s.fail with creating := .ended }
  | some r =>
      if r.status ≠ 200 ∨ r.carrierMode ≠ p.carrierMode.text then
        { s.fail with creating := .ended }
      else
        let s := { s with
          sessionToken := r.token
          downCursor := if r.cursor = "" then "0" else r.cursor }
        if r.token = "" then { s.fail with creating := .ended }
        else if s.closed then { s with creating := .ended }
        else { s with creating := .reading }

/-- The loop of `createSession` over the messages that waited. -/
def drainLoop (p : Params) : Script → List Bytes → Script
  | s, [] => s
  | s, data :: rest => drainLoop p ((s.release data.length 1 none).queueCarrier p data) rest

/-- `createSession` from its last `await` on. -/
def connected (s : Script) (p : Params) (welcome : Bytes) : Script :=
  let s := { s with creating := .ended }
  if s.closed then s
  else
    let s := s.post p welcome
    let s := drainLoop p { s with pending := [] } s.pending
    match p.carrierMode with
    | .https => s.poll
    | .httpsLanes =>
        let (s, o) := s.ensureLane 0
        s.pollLane o
    | _ => s

/-- `createSession` goes on with the body of the response. -/
def welcomed (s : Script) (p : Params) (r : Option Bytes) : Script :=
  match r with
  | none => { s.fail with creating := .ended }
  | some welcome =>
      if p.carrierMode = .webSocket then
        { s with webSocket := some {}, creating := .opening welcome }
      else s.connected p welcome

end Script

/-! ### The machine -/

/-- What can happen to the page. -/
inductive Input where
  /-- The app sends a buffer. -/
  | message (data : Bytes)
  /-- The app sends `close`, or the page is hidden. -/
  | close
  | sessionAnswered (r : Option Script.SessionResponse)
  | welcomed (r : Option Bytes)
  /-- `createSession` goes on after `openWebSocket`. -/
  | resumed
  | upAnswered (r : Option Script.UpResponse)
  | polled (r : Option Script.DownResponse)
  | laneAnswered (o : ℕ) (r : Option Script.UpResponse)
  | lanePolled (o : ℕ) (r : Option Script.DownResponse)
  | webSocketOpen
  | webSocketMessage (data : Option Bytes)
  | webSocketError
  | webSocketClose
  | webSocketTimer
  | webSocketTask
  | laneOpen (o : ℕ)
  | laneMessage (o : ℕ) (data : Option Bytes)
  | laneClose (o : ℕ)
  | laneTimer (o : ℕ)
  | laneTask (o : ℕ)
  /-- The browser reports another `bufferedAmount` of a socket. -/
  | transmitted (lane : Option ℕ) (amount : ℕ)

/-- What the script makes of an input, if the input can happen. -/
def Script.next (p : Params) (s : Script) : Input → Option Script
  | .message data => some (s.message p data)
  | .close => some s.close
  | .sessionAnswered r =>
      match s.creating with
      | .requested _ => some (s.sessionAnswered p r)
      | _ => none
  | .welcomed r => if s.creating = .reading then some (s.welcomed p r) else none
  | .resumed =>
      match s.creating with
      | .opened welcome => some (s.connected p welcome)
      | .refused => some { s.fail with creating := .ended }
      | _ => none
  | .upAnswered r =>
      match s.upBatch with
      | some batch => some (s.upAnswered p batch r)
      | none => none
  | .polled r => if s.polling then some (s.pollAnswered p r) else none
  | .laneAnswered o r =>
      match (s.lane o).batch with
      | some batch => some (s.laneAnswered p o batch r)
      | none => none
  | .lanePolled o r => if (s.lane o).polling then some (s.lanePollAnswered p o r) else none
  | .webSocketOpen =>
      match s.webSocket with
      | some w =>
          if w.readyState = .connecting then
            let s := { s with webSocket := some { w with readyState := .open } }
            match s.creating with
            | .opening welcome => some { s with creating := .opened welcome }
            | _ => some s
          else none
      | none => none
  | .webSocketMessage data =>
      match s.webSocket with
      | some w =>
          if w.readyState = .open then
            match data with
            | none => some s.fail
            | some data => some (if data.length = 0 then s.fail else s.post p data)
          else none
      | none => none
  | .webSocketError =>
      match s.creating with
      | .opening _ => some { s with creating := .refused }
      | _ => none
  | .webSocketClose =>
      match s.webSocket with
      | some w =>
          if w.readyState = .closed then none
          else some { s with webSocket := some { w with readyState := .closed } }.fail
      | none => none
  | .webSocketTimer =>
      if s.webSocketTimer ∧ s.closed = false then
        some ({ s with webSocketTimer := false }.runWebSocketUp p)
      else none
  | .webSocketTask =>
      if s.webSocketTasks = 0 then none
      else some ({ s with webSocketTasks := s.webSocketTasks - 1 }.runWebSocketUp p)
  | .laneOpen o =>
      match (s.lane o).socket with
      | some w =>
          if w.readyState = .connecting then
            some (s.laneOpened p o { w with readyState := .open })
          else none
      | none => none
  | .laneMessage o data =>
      match (s.lane o).socket with
      | some w => if w.readyState = .open then some (s.laneMessage p o data) else none
      | none => none
  | .laneClose o =>
      match (s.lane o).socket with
      | some w =>
          if w.readyState = .closed then none
          else
            let l := s.lane o
            some ((s.putLane o { l with
              socket := some { w with readyState := .closed } }).laneClosed p o)
      | none => none
  | .laneTimer o =>
      let l := s.lane o
      if l.timer ∧ l.finished = false ∧ s.closed = false then
        some ((s.putLane o { l with timer := false }).runWebSocketLaneUp p o)
      else none
  | .laneTask o =>
      let l := s.lane o
      if l.tasks = 0 then none
      else some ((s.putLane o { l with tasks := l.tasks - 1 }).runWebSocketLaneUp p o)
  | .transmitted none amount =>
      match s.webSocket with
      | some w => some { s with webSocket := some { w with bufferedAmount := amount } }
      | none => none
  | .transmitted (some o) amount =>
      let l := s.lane o
      match l.socket with
      | some w => some (s.putLane o { l with socket := some { w with bufferedAmount := amount } })
      | none => none

/-- The states that the script can reach. -/
inductive Reachable (p : Params) : Script → Prop
  | start : Reachable p {}
  | step {s s' : Script} {i : Input} : Reachable p s → s.next p i = some s' → Reachable p s'

end Page

end TproxyServer
