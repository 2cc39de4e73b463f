import Mathlib.Data.Finset.Basic
import TproxyServer.Interaction
import TproxyServer.Limits
import TproxyServer.Table

/-! # The state of a session

`Session`, `carrierLane`, `streamState` and `queuedFrame` of `internal/session/session.go`.
The fields that a `Session` and a `carrierLane` have in common (the downlink queue, its
unacknowledged batch and its parked poll) are one record, `Downlink`, because the code repeats
every function on them once for each.

Pointers that the code compares (`*backendStream`, `*carrierLane`, the `superseded` channel of
a parked poll) are numbers drawn from `nextObject`.  A channel of capacity one is its token
(`notify`), `budgetNotify` counts the broadcasts, and `closedChannels` are the `superseded`
channels closed so far.  A lane object dropped from `carrierLanes` may still be in the hands
of a parked `PollLane`; it is kept in `releasedLanes`.  Left out: `profile`, `clientIP`,
`timeouts` and `lastActivity`, which no function modelled here reads.

What a session asks of the process (`budget`, `acquireStream`) is a `Query`.  An `Event`
records what a critical section does; nothing reads it back, it is the history that statements
about runs are about. -/

namespace TproxyServer

open Interaction

inductive CarrierMode where
  | https
  | httpsLanes
  | webSocket
  | webSocketLanes
deriving DecidableEq, Repr

/-- `streamState`. -/
structure StreamState where
  backend : ℕ
  receiveWindow : ℕ
  sendCredit : ℕ
  pendingWriteBytes : ℕ := 0
  pendingWriteCost : ℕ := 0
  pendingWriteItems : ℕ := 0
  creditNotify : Bool := false
  writes : List Bytes := []
  writeNotify : Bool := false
deriving DecidableEq, Repr

/-- `queuedFrame`. -/
structure QueuedFrame where
  encoded : Bytes
  typeCode : FrameType
  streamID : ℕ
  cost : ℕ
deriving DecidableEq, Repr

/-- The downlink half of a `Session` or a `carrierLane`.  `pendingWindows` is `none` where the
code sets the map to `nil`. -/
structure Downlink where
  pendingFrames : List QueuedFrame := []
  pendingWindows : Option (Table ℕ ℕ) := some .nil
  unacked : Bytes := []
  unackedCost : ℕ := 0
  unackedItems : ℕ := 0
  unackedBase : ℕ := 0
  downCursor : ℕ := 0
  downActive : Bool := false
  superseded : Option ℕ := none
  notify : Bool := false

def zeroDigest : Bytes := List.replicate 32 0

/-- `carrierLane`; `object` stands for its address. -/
structure CarrierLane where
  object : ℕ
  lastUpSequence : ℕ := 0
  lastUpDigest : Bytes := zeroDigest
  upActive : Bool := false
  websocketActive : Bool := false
  down : Downlink := {}

/-- `Session`. -/
structure Session where
  limits : Limits
  carrier : CarrierMode
  streams : Table ℕ StreamState := .nil
  closedStreams : Finset ℕ := ∅
  closedOrder : List ℕ := []
  closedStart : ℕ := 0
  down : Downlink := {}
  pendingCost : ℕ := 0
  pendingItems : ℕ := 0
  lastUpSequence : ℕ := 0
  lastUpDigest : Bytes := zeroDigest
  upActive : Bool := false
  websocketActive : Bool := false
  closed : Bool := false
  budgetNotify : ℕ := 0
  carrierLanes : Table ℕ CarrierLane := .nil
  releasedLanes : Table ℕ CarrierLane := .nil
  closedChannels : Finset ℕ := ∅
  nextObject : ℕ := 0

/-- Which downlink queue: the session's own, or that of a lane object. -/
inductive QueueRef where
  | session
  | lane (id object : ℕ)
deriving DecidableEq, Repr

inductive Query where
  | budget (cost items : ℤ) (cls : PendingClass)
  | acquireStream

inductive Event where
  /-- An OPEN was admitted and a backend created for it. -/
  | opened (id backend : ℕ)
  /-- An OPEN was refused by a limit (`onStreamRejected`). -/
  | rejected (id : ℕ)
  /-- `rememberClosedLocked` recorded a tombstone. -/
  | remembered (id : ℕ)
  /-- `rememberClosedLocked` evicted the tombstone of `id`. -/
  | evicted (id : ℕ)
  | dataApplied (id : ℕ) (payload : Bytes)
  | windowApplied (id amount : ℕ)
  /-- `applyBatchLocked` starts on a body. -/
  | applying (laneID : Option ℕ) (sequence : ℕ) (body : Bytes)
  /-- `applyBatchLocked` gives up: the CLOSE that answers a rejected OPEN does not fit. -/
  | abandoned (id : ℕ)
  /-- `queueFrameLocked` accepted a frame. -/
  | queued (q : QueueRef) (t : FrameType) (id : ℕ) (payload : Bytes)
  /-- `queueFrameLocked` refused a frame. -/
  | refused (t : FrameType) (id : ℕ) (payload : Bytes)
  /-- A poll took a batch. -/
  | delivered (q : QueueRef) (cursor : ℕ) (body : Bytes)
  /-- `backendStream.close` was called on these backends. -/
  | cancelled (backends : List ℕ)
  /-- `closeLocked` closed the session (`onFinished`). -/
  | finished
deriving DecidableEq, Repr

inductive Panic where
  /-- A nil `*streamState` is dereferenced in `applyBatchLocked`. -/
  | missingStream
  /-- "invalid session pending budget release". -/
  | invalidRelease
  /-- A `pendingWindows` index outside `pendingFrames`. -/
  | indexOutOfRange
  /-- Assignment to an entry of a nil `pendingWindows`. -/
  | nilWindows
  /-- A `superseded` channel is closed twice. -/
  | closedTwice
deriving DecidableEq, Repr

/-- What a critical section of a session is: a program over these effects. -/
abbrev Act (α : Type) := Prog Query Event Panic α

/-- `newSession`. -/
def newSession (limits : Limits) (carrier : CarrierMode) : Session :=
  if carrier = .httpsLanes then
    { limits := limits, carrier := carrier, nextObject := 1,
      carrierLanes := Table.nil.put 0 { object := 0 } }
  else { limits := limits, carrier := carrier }

/-! ### Field updates -/

def Downlink.signal (d : Downlink) : Downlink := { d with notify := true }

/-- What `closeLocked` and `releaseLaneLocked` leave of a downlink. -/
def Downlink.drop (d : Downlink) : Downlink :=
  { d with pendingFrames := [], pendingWindows := none, unacked := [], unackedCost := 0,
           unackedItems := 0 }.signal

def CarrierLane.drop (l : CarrierLane) : CarrierLane := { l with down := l.down.drop }

/-- What an acknowledging poll leaves of a downlink. -/
def Downlink.acknowledge (d : Downlink) : Downlink :=
  { d with unacked := [], unackedCost := 0, unackedItems := 0 }

namespace Session

def usesCarrierLanes (s : Session) : Bool :=
  s.carrier = .httpsLanes || s.carrier = .webSocketLanes

def charge (s : Session) (cost items : ℕ) : Session :=
  { s with pendingCost := s.pendingCost + cost, pendingItems := s.pendingItems + items }

/-- Give charges back and broadcast on `budgetNotify`. -/
def discharge (s : Session) (cost items : ℕ) : Session :=
  { s with pendingCost := s.pendingCost - cost, pendingItems := s.pendingItems - items,
           budgetNotify := s.budgetNotify + 1 }

def putStream (s : Session) (id : ℕ) (st : StreamState) : Session :=
  { s with streams := s.streams.put id st }

def delStream (s : Session) (id : ℕ) : Session := { s with streams := s.streams.del id }

def putLane (s : Session) (id : ℕ) (lane : CarrierLane) : Session :=
  { s with carrierLanes := s.carrierLanes.put id lane }

/-- Delete a lane from `carrierLanes`; parked polls keep the object. -/
def delLane (s : Session) (id : ℕ) (lane : CarrierLane) : Session :=
  { s with carrierLanes := s.carrierLanes.del id,
           releasedLanes := s.releasedLanes.put lane.object lane }

/-- The lane object `object` as long as it is stored under `id`. -/
def attached (s : Session) (id object : ℕ) : Option CarrierLane :=
  (s.carrierLanes.get id).filter (fun l => l.object = object)

/-- The downlink behind a reference. -/
def queue (s : Session) : QueueRef → Downlink
  | .session => s.down
  | .lane id object =>
      match s.attached id object with
      | some l => l.down
      | none => ((s.releasedLanes.get object).map CarrierLane.down).getD {}

/-- Write to the lane object `object`, wherever it is. -/
def modifyLane (s : Session) (id object : ℕ) (f : CarrierLane → CarrierLane) : Session :=
  match s.attached id object with
  | some l => s.putLane id (f l)
  | none =>
      match s.releasedLanes.get object with
      | some l => { s with releasedLanes := s.releasedLanes.put object (f l) }
      | none => s

/-- Write the downlink behind a reference. -/
def setQueue (s : Session) (q : QueueRef) (d : Downlink) : Session :=
  match q with
  | .session => { s with down := d }
  | .lane id object => s.modifyLane id object (fun l => { l with down := d })

/-! ### What the updates touch -/

section
variable (s : Session) (id object i : ℕ) (st : StreamState) (l : CarrierLane)
  (f : CarrierLane → CarrierLane) (q : QueueRef) (d : Downlink)

@[simp] theorem putStream_streams : (s.putStream id st).streams = s.streams.put id st := rfl
@[simp] theorem putStream_lanes : (s.putStream id st).carrierLanes = s.carrierLanes := rfl
@[simp] theorem putStream_closedStreams :
    (s.putStream id st).closedStreams = s.closedStreams := rfl
@[simp] theorem delStream_streams : (s.delStream id).streams = s.streams.del id := rfl
@[simp] theorem delStream_lanes : (s.delStream id).carrierLanes = s.carrierLanes := rfl
@[simp] theorem delStream_closedStreams :
    (s.delStream id).closedStreams = s.closedStreams := rfl
@[simp] theorem putLane_lanes : (s.putLane id l).carrierLanes = s.carrierLanes.put id l := rfl
@[simp] theorem putLane_streams : (s.putLane id l).streams = s.streams := rfl
@[simp] theorem delLane_lanes : (s.delLane id l).carrierLanes = s.carrierLanes.del id := rfl
@[simp] theorem delLane_streams : (s.delLane id l).streams = s.streams := rfl

theorem attached_eq_some {s : Session} {id object : ℕ} {l : CarrierLane} :
    s.attached id object = some l ↔ s.carrierLanes.get id = some l ∧ l.object = object := by
  simp [attached, Option.filter_eq_some_iff]

/-- A write to a lane object changes nothing but the two lane tables. -/
theorem modifyLane_eq : ∃ lanes released, s.modifyLane id object f =
    { s with carrierLanes := lanes, releasedLanes := released } := by
  unfold modifyLane
  split
  · exact ⟨_, _, rfl⟩
  · split
    · exact ⟨_, _, rfl⟩
    · exact ⟨_, _, rfl⟩

theorem modifyLane_lanes : (s.modifyLane id object f).carrierLanes.get i =
    (s.carrierLanes.get i).map fun l => if i = id ∧ l.object = object then f l else l := by
  unfold modifyLane
  cases ha : s.attached id object with
  | some l =>
      obtain ⟨hl, ho⟩ := attached_eq_some.mp ha
      rw [putLane_lanes, Table.get_put]
      by_cases hi : i = id
      · subst hi; simp [hl, ho]
      · simp [hi]
  | none =>
      have hid : (s.carrierLanes.get i).map
          (fun l => if i = id ∧ l.object = object then f l else l) = s.carrierLanes.get i := by
        cases hg : s.carrierLanes.get i with
        | none => rfl
        | some l =>
            rw [Option.map_some, if_neg]
            rintro ⟨rfl, ho⟩
            exact absurd (attached_eq_some.mpr ⟨hg, ho⟩) (by simp [ha])
      rw [hid]
      cases s.releasedLanes.get object <;> rfl

theorem modifyLane_released : (s.modifyLane id object f).releasedLanes.get i =
    if s.attached id object = none ∧ i = object then (s.releasedLanes.get i).map f
    else s.releasedLanes.get i := by
  unfold modifyLane
  cases ha : s.attached id object with
  | some l => simp [putLane]
  | none =>
      cases hr : s.releasedLanes.get object with
      | some l =>
          by_cases hi : i = object
          · subst hi; simp [hr]
          · simp [hi, Table.get_put]
      | none =>
          by_cases hi : i = object
          · subst hi; simp [hr]
          · simp [hi]

/-- A write to a downlink changes nothing but the queues. -/
theorem setQueue_eq : ∃ down lanes released, s.setQueue q d =
    { s with down := down, carrierLanes := lanes, releasedLanes := released } := by
  cases q with
  | session => exact ⟨d, _, _, rfl⟩
  | lane id object =>
      obtain ⟨lanes, released, h⟩ := modifyLane_eq s id object fun l => { l with down := d }
      exact ⟨_, lanes, released, h⟩

theorem setQueue_lanes : (s.setQueue q d).carrierLanes.get i = (s.carrierLanes.get i).map
    fun l => if q = .lane i l.object then { l with down := d } else l := by
  cases q with
  | session => simp [setQueue]
  | lane id object =>
      rw [setQueue, modifyLane_lanes]
      congr 1
      funext l
      simp only [QueueRef.lane.injEq, eq_comm (a := i), eq_comm (a := object)]

end

end Session

end TproxyServer
