import TproxyServer.Cancellation

/-! # The sockets of the lanes

`serveWebSocket` of `internal/server/server.go` in mode `websocket-lanes`, with its two goroutines
`readWebSocket` and `writeWebSocket`, for any number of connections to one session.  A connection
acquires its lane before it is upgraded and releases it when the first of the two has finished; the
other may still hold a message then.

The deadlines, the end of the request and a socket that fails are steps that stop a goroutine, and
a poll may wake for any reason.  `ProcessUpLane` creates the lane that it does not find: after the
release that is a lane without a socket (`lane_unattended`). -/

namespace TproxyServer

open Interaction Prog

variable {limits : Limits} {carrier : CarrierMode} {s s' : Session} {t : List Event}
  {sha256 : Bytes → Bytes}

/-! ### Connections -/

/-- Where `readWebSocket` is. -/
inductive LaneReader where
  | reading
  /-- It holds a message that has not been accepted. -/
  | offering (body : Bytes)
  /-- `ProcessUpLane` has failed and is about to release the lane. -/
  | failing
  /-- `ProcessUpLane` has cut a body short and is about to close the session. -/
  | aborting
  | finished

/-- Where `writeWebSocket` is. -/
inductive LaneWriter where
  /-- About to call `PollLane`, or to write the ping before. -/
  | polling
  /-- In `PollLane`, parked on this channel of this queue. -/
  | waiting (q : QueueRef) (mine : ℕ)
  /-- It holds a body that is not written. -/
  | writing (next : ℕ)
  /-- `PollLane` has failed and is about to release the lane. -/
  | failing
  | finished

/-- How far `serveWebSocket` is. -/
inductive Attendance where
  | upgrading
  | serving
  | released
deriving DecidableEq

/-- A connection that acquired its lane.  Nothing reads `object`, the lane as it acquired it. -/
structure LaneConnection where
  laneID : ℕ
  object : ℕ
  stage : Attendance := .upgrading
  reader : LaneReader := .reading
  sequence : ℕ := 1
  writer : LaneWriter := .polling
  cursor : ℕ := 0

namespace LaneConnection

/-- `ProcessUpLane` has answered the reader. -/
def offered (c : LaneConnection) (body : Bytes) : UpReply → LaneConnection
  | .acked ack =>
      if ack = c.sequence then { c with reader := .reading, sequence := c.sequence + 1 }
      else { c with reader := .finished }
  | .backpressure => { c with reader := .offering body }
  | .failing => { c with reader := .failing }
  | .aborting => { c with reader := .aborting }
  | .closed | .concurrent | .refused | .parsing => { c with reader := .finished }

/-- `PollLane` has answered the writer, or it goes on waiting. -/
def polled (c : LaneConnection) (q : QueueRef) : PollReply → LaneConnection
  | .batch body next =>
      if body = [] then { c with writer := .polling } else { c with writer := .writing next }
  | .empty _ => { c with writer := .polling }
  | .parked mine => { c with writer := .waiting q mine }
  | .failing => { c with writer := .failing }
  | .laneClosed _ | .closed | .cancelled | .refused => { c with writer := .finished }

/-- One of the goroutines has finished, so that `serveWebSocket` goes on to its deferred calls. -/
def Ended (c : LaneConnection) : Prop := c.reader = .finished ∨ c.writer = .finished

end LaneConnection

/-- The lane object that is stored under an id. -/
def Session.laneObject (s : Session) (id : ℕ) : ℕ :=
  ((s.carrierLanes.get id).map CarrierLane.object).getD 0

/-- The sections that only a connection to a lane runs. -/
def Section.ofLaneSocket : Section → Bool
  | .acquireWebSocketLane _ | .releaseWebSocketLane _ | .laneProtocolFailure _
  | .processUpLane _ _ _ | .pollLane _ _ | .pollResume _ _ _ _ => true
  | _ => false

/-- A session and its connections, in the order in which they acquired their lanes. -/
structure LaneSockets where
  relay : Traced
  connections : List LaneConnection := []

namespace LaneSockets

def set (L : LaneSockets) (k : ℕ) (c : LaneConnection) (σ : Traced) : LaneSockets where
  relay := σ
  connections := L.connections.set k c

/-- One thing happens; the label is the section that runs, if one does. -/
inductive Step (sha256 : Bytes → Bytes) : LaneSockets → Option Section → LaneSockets → Prop
  | refuse {L : LaneSockets} {id : ℕ} {σ : Traced}
      (hs : TproxyServer.Step sha256 L.relay (.acquireWebSocketLane id) (.flag false) σ) :
      Step sha256 L (some (.acquireWebSocketLane id)) { L with relay := σ }
  | acquire {L : LaneSockets} {id : ℕ} {σ : Traced}
      (hs : TproxyServer.Step sha256 L.relay (.acquireWebSocketLane id) (.flag true) σ) :
      Step sha256 L (some (.acquireWebSocketLane id))
        { relay := σ
          connections := L.connections ++ [{ laneID := id, object := σ.session.laneObject id }] }
  | upgrade {L : LaneSockets} {k : ℕ} {c : LaneConnection} (hc : L.connections[k]? = some c)
      (h : c.stage = .upgrading) :
      Step sha256 L none (L.set k { c with stage := .serving } L.relay)
  /-- The upgrade fails, and no goroutine is started. -/
  | dismiss {L : LaneSockets} {k : ℕ} {c : LaneConnection} {r : Reply} {σ : Traced}
      (hc : L.connections[k]? = some c) (h : c.stage = .upgrading)
      (hs : TproxyServer.Step sha256 L.relay (.releaseWebSocketLane c.laneID) r σ) :
      Step sha256 L (some (.releaseWebSocketLane c.laneID)) (L.set k { c with
        stage := .released, reader := .finished, writer := .finished } σ)
  | release {L : LaneSockets} {k : ℕ} {c : LaneConnection} {r : Reply} {σ : Traced}
      (hc : L.connections[k]? = some c) (h : c.stage = .serving) (hended : c.Ended)
      (hs : TproxyServer.Step sha256 L.relay (.releaseWebSocketLane c.laneID) r σ) :
      Step sha256 L (some (.releaseWebSocketLane c.laneID))
        (L.set k { c with stage := .released } σ)
  | receive {L : LaneSockets} {k : ℕ} {c : LaneConnection} {body : Bytes}
      (hc : L.connections[k]? = some c) (hstage : c.stage ≠ .upgrading)
      (h : c.reader = .reading) (hbody : body ≠ []) :
      Step sha256 L none (L.set k { c with reader := .offering body } L.relay)
  | offer {L : LaneSockets} {k : ℕ} {c : LaneConnection} {body : Bytes} {r : UpReply}
      {σ : Traced} (hc : L.connections[k]? = some c) (h : c.reader = .offering body)
      (hs : TproxyServer.Step sha256 L.relay (.processUpLane c.laneID c.sequence body) (.up r) σ) :
      Step sha256 L (some (.processUpLane c.laneID c.sequence body)) (L.set k (c.offered body r) σ)
  | failRead {L : LaneSockets} {k : ℕ} {c : LaneConnection} {r : Reply} {σ : Traced}
      (hc : L.connections[k]? = some c) (h : c.reader = .failing)
      (hs : TproxyServer.Step sha256 L.relay (.laneProtocolFailure c.laneID) r σ) :
      Step sha256 L (some (.laneProtocolFailure c.laneID))
        (L.set k { c with reader := .finished } σ)
  | abort {L : LaneSockets} {k : ℕ} {c : LaneConnection} {r : Reply} {σ : Traced}
      (hc : L.connections[k]? = some c) (h : c.reader = .aborting)
      (hs : TproxyServer.Step sha256 L.relay .close r σ) :
      Step sha256 L (some .close) (L.set k { c with reader := .finished } σ)
  | stopRead {L : LaneSockets} {k : ℕ} {c : LaneConnection} (hc : L.connections[k]? = some c)
      (hstage : c.stage ≠ .upgrading)
      (h : c.reader = .reading ∨ ∃ body, c.reader = .offering body) :
      Step sha256 L none (L.set k { c with reader := .finished } L.relay)
  | poll {L : LaneSockets} {k : ℕ} {c : LaneConnection} {r : PollReply} {σ : Traced}
      (hc : L.connections[k]? = some c) (hstage : c.stage ≠ .upgrading) (h : c.writer = .polling)
      (hs : TproxyServer.Step sha256 L.relay (.pollLane c.laneID c.cursor) (.poll r) σ) :
      Step sha256 L (some (.pollLane c.laneID c.cursor))
        (L.set k (c.polled (.lane c.laneID (L.relay.session.laneObject c.laneID)) r) σ)
  | resume {L : LaneSockets} {k : ℕ} {c : LaneConnection} {q : QueueRef} {mine : ℕ}
      {wake : Wake} {r : PollReply} {σ : Traced} (hc : L.connections[k]? = some c)
      (h : c.writer = .waiting q mine)
      (hs : TproxyServer.Step sha256 L.relay (.pollResume q c.cursor mine wake) (.poll r) σ) :
      Step sha256 L (some (.pollResume q c.cursor mine wake)) (L.set k (c.polled q r) σ)
  | write {L : LaneSockets} {k : ℕ} {c : LaneConnection} {next : ℕ}
      (hc : L.connections[k]? = some c) (h : c.writer = .writing next) :
      Step sha256 L none (L.set k { c with writer := .polling, cursor := next } L.relay)
  | failWrite {L : LaneSockets} {k : ℕ} {c : LaneConnection} {r : Reply} {σ : Traced}
      (hc : L.connections[k]? = some c) (h : c.writer = .failing)
      (hs : TproxyServer.Step sha256 L.relay (.laneProtocolFailure c.laneID) r σ) :
      Step sha256 L (some (.laneProtocolFailure c.laneID))
        (L.set k { c with writer := .finished } σ)
  | stopWrite {L : LaneSockets} {k : ℕ} {c : LaneConnection} (hc : L.connections[k]? = some c)
      (hstage : c.stage ≠ .upgrading)
      (h : c.writer = .polling ∨ ∃ next, c.writer = .writing next) :
      Step sha256 L none (L.set k { c with writer := .finished } L.relay)
  /-- The backends, the end of the session. -/
  | other {L : LaneSockets} {c : Section} {r : Reply} {σ : Traced} (hc : c.ofLaneSocket = false)
      (hs : TproxyServer.Step sha256 L.relay c r σ) :
      Step sha256 L (some c) { L with relay := σ }

/-- The runs of a session with these limits and of its connections. -/
inductive Reachable (sha256 : Bytes → Bytes) (limits : Limits) : LaneSockets → Prop
  | start : Reachable sha256 limits { relay := ⟨newSession limits .webSocketLanes, []⟩ }
  | step {L L' : LaneSockets} {c : Option Section} :
      Reachable sha256 limits L → Step sha256 L c L' → Reachable sha256 limits L'

variable {L L' : LaneSockets}

/-- What a step does to the session: nothing, or it runs its section. -/
theorem Step.relay {c : Option Section} (h : Step sha256 L c L') :
    (c = none ∧ L'.relay = L.relay) ∨
      ∃ d r, c = some d ∧ TproxyServer.Step sha256 L.relay d r L'.relay := by
  cases h with
  | upgrade => exact .inl ⟨rfl, rfl⟩
  | receive => exact .inl ⟨rfl, rfl⟩
  | stopRead => exact .inl ⟨rfl, rfl⟩
  | write => exact .inl ⟨rfl, rfl⟩
  | stopWrite => exact .inl ⟨rfl, rfl⟩
  | refuse hs => exact .inr ⟨_, _, rfl, hs⟩
  | acquire hs => exact .inr ⟨_, _, rfl, hs⟩
  | dismiss _ _ hs => exact .inr ⟨_, _, rfl, hs⟩
  | release _ _ _ hs => exact .inr ⟨_, _, rfl, hs⟩
  | offer _ _ hs => exact .inr ⟨_, _, rfl, hs⟩
  | failRead _ _ hs => exact .inr ⟨_, _, rfl, hs⟩
  | abort _ _ hs => exact .inr ⟨_, _, rfl, hs⟩
  | poll _ _ _ hs => exact .inr ⟨_, _, rfl, hs⟩
  | resume _ _ hs => exact .inr ⟨_, _, rfl, hs⟩
  | failWrite _ _ hs => exact .inr ⟨_, _, rfl, hs⟩
  | other _ hs => exact .inr ⟨_, _, rfl, hs⟩

theorem Reachable.relay (h : Reachable sha256 limits L) :
    TproxyServer.Reachable sha256 limits .webSocketLanes L.relay := by
  induction h with
  | start => exact .start
  | @step L L' c _ hs ih =>
      rcases hs.relay with ⟨-, he⟩ | ⟨d, r, -, hd⟩
      · exact he ▸ ih
      · exact ih.step hd

end LaneSockets

/-! ### Lanes and their sockets -/

/-- Which lane this is, and whether a socket is attached to it. -/
def CarrierLane.socket (l : CarrierLane) : ℕ × Bool := (l.object, l.websocketActive)

/-- What neither creates a lane nor attaches a socket leaves the sockets of the lanes. -/
theorem Changes.keepsSockets {scope : Scope} {σ σ' : Traced} (h : Changes scope σ σ')
    (hlanes : scope.lanes = false) (hsockets : scope.sockets = false) :
    KeepsLanes CarrierLane.socket σ.session σ'.session := by
  refine h.keepsLanes (fun _ _ => rfl) hlanes (fun hs => ?_) fun _ l l' hobject hactive => ?_
  · rw [hsockets] at hs
    cases hs
  · exact Prod.ext hobject hactive

/-- The body that `ProcessUpLane` is called with finds its lane, or needs none. -/
def Section.FindsLane (s : Session) : Section → Prop
  | .processUpLane laneID _ body => ∀ frames, ¬ s.Creates laneID body frames
  | _ => True

theorem processUpLane_found {laneID sequence : ℕ} {body : Bytes}
    (hs : Sound limits carrier ⟨s, t⟩)
    (hfinds : (Section.processUpLane laneID sequence body).FindsLane s) :
    wp observer (processUpLane sha256 s laneID sequence body) (Within .commit ⟨s, t⟩) t := by
  unfold processUpLane
  by_cases hbad : s.usesCarrierLanes = false ∨ maxStreamID < laneID
  · rw [if_pos hbad]
    exact .refl
  rw [if_neg hbad]
  cases hframes : laneFrames s.limits laneID body with
  | none => exact .refl
  | some frames =>
      dsimp only
      by_cases hclosed : s.closed = true
      · rw [if_pos hclosed]
        exact .refl
      rw [if_neg hclosed]
      have hopen : s.closed = false := by simpa using hclosed
      have hmax : laneID ≤ maxStreamID := not_lt.mp fun h => hbad (.inr h)
      cases hl : s.carrierLanes.get laneID with
      | some lane => exact processOnLane_obs sha256 hs hopen hl (laneFrames_spec hframes) hmax _ _
      | none =>
          dsimp only
          split_ifs with hlate hother
          · exact .refl
          · exact .refl
          · simp only [not_or, not_not] at hother
            have hlanes : s.usesCarrierLanes = true := by simpa using (not_or.mp hbad).1
            exact absurd ⟨hlanes, hother.1, hmax, hframes, hopen, hl, hother.2.2⟩ (hfinds frames)

/-- The lane of `id` is gone; of the others none has come, and their sockets are as before. -/
structure LaneReleased (id : ℕ) (s s' : Session) : Prop where
  gone : s'.carrierLanes.get id = none
  others : ∀ i, i ≠ id → ∀ l', s'.carrierLanes.get i = some l' →
    ∃ l, s.carrierLanes.get i = some l ∧ l'.socket = l.socket

theorem releaseWebSocketLane_released (hcarrier : s.carrier = .webSocketLanes) (id : ℕ) :
    wp observer (releaseWebSocketLane s id) (fun _ s' => LaneReleased id s s') t := by
  have hdrop : ∀ (s₁ : Session) (t₁ : List Event), (∀ i, i ≠ id → ∀ l', s₁.carrierLanes.get i =
        some l' → ∃ l, s.carrierLanes.get i = some l ∧ l'.socket = l.socket) →
      wp observer (dropLane s₁ id) (fun _ s' => LaneReleased id s s') t₁ := by
    intro s₁ t₁ h₁
    unfold dropLane
    cases hl : s₁.carrierLanes.get id with
    | none => exact ⟨hl, h₁⟩
    | some lane =>
        refine wp_seq (releaseLaneLocked_obs s₁ lane) ?_
        rintro t₂ ⟨s₂, lane₂⟩ ⟨rfl, ⟨cost, items, notify, rfl⟩, rfl⟩
        refine ⟨Table.get_del_self .., fun i hi l' hl' => h₁ i hi l' ?_⟩
        rwa [Session.delLane_lanes, Table.get_del_ne _ hi] at hl'
  unfold releaseWebSocketLane
  rw [if_neg (not_not.mpr hcarrier)]
  cases hl : s.carrierLanes.get id with
  | none => exact ⟨hl, fun i _ l' hl' => ⟨l', hl', rfl⟩⟩
  | some lane =>
      have hput : ∀ i, i ≠ id → ∀ l', (s.putLane id { lane with
          websocketActive := false }).carrierLanes.get i = some l' →
          ∃ l, s.carrierLanes.get i = some l ∧ l'.socket = l.socket := by
        intro i hi l' hl'
        rw [Session.putLane_lanes, Table.get_put_ne _ _ hi] at hl'
        exact ⟨l', hl', rfl⟩
      dsimp only
      cases hst : s.streams.get id with
      | none =>
          simp only [Session.putLane_streams, hst, pure_bind']
          exact hdrop _ t hput
      | some state =>
          simp only [Session.putLane_streams, hst]
          refine wp_seq (releaseStreamWritesLocked_obs _ state) ?_
          rintro t₁ s₁ ⟨rfl, cost, items, notify, rfl⟩
          refine wp_seq
            (rememberClosedLocked_keepsLanes CarrierLane.socket (fun _ _ => rfl) _ id) ?_
          intro t₂ s₂ h₂
          simp only [announce_bind, wp_note]
          refine hdrop s₂ _ fun i hi l' hl' => ?_
          obtain ⟨l₁, hl₁, hkey₁⟩ := h₂ i l' hl'
          obtain ⟨l, hl, hkey⟩ := hput i hi l₁ hl₁
          exact ⟨l, hl, hkey₁.trans hkey⟩

/-- The sections that release this lane. -/
def Section.Releases (id : ℕ) (c : Section) : Prop :=
  c = .releaseWebSocketLane id ∨ c = .laneProtocolFailure id

/-- After a section that releases a lane, what is known after `ReleaseWebSocketLane`. -/
theorem Step.of_releases {σ σ' : Traced} {c : Section} {r : Reply} {id : ℕ}
    (h : Step sha256 σ c r σ') (hc : c.Releases id) (hcarrier : σ.session.carrier = .webSocketLanes)
    {post : Session → Prop}
    (hw : wp observer (releaseWebSocketLane σ.session id) (fun _ s' => post s') σ.trace) :
    post σ'.session := by
  have hpost : wp observer (c.exec sha256 σ.session) (fun _ p => post p.1) σ.trace := by
    rcases hc with rfl | rfl
    · exact wp_seq hw fun _ _ h₁ => h₁
    · have hfailure : wp observer (laneProtocolFailure σ.session id) (fun _ s' => post s')
          σ.trace := by
        unfold laneProtocolFailure
        rw [if_pos hcarrier]
        exact hw
      exact wp_seq hfailure fun _ _ h₁ => h₁
  exact h.of_wp fun _ => hpost

/-- A section that is about no socket, and does not create a lane, leaves the sockets. -/
theorem Section.keepsSockets (c : Section) (hs : Sound limits .webSocketLanes ⟨s, t⟩)
    (hcall : c.Callable s) (hfinds : c.FindsLane s)
    (hc : ∀ id, c ≠ .acquireWebSocketLane id ∧ c ≠ .releaseWebSocketLane id ∧
      c ≠ .laneProtocolFailure id) :
    wp observer (c.exec sha256 s) (fun _ r => KeepsLanes CarrierLane.socket s r.1) t := by
  have hcarrier : s.carrier = .webSocketLanes := hs.carrier_eq
  have hlanes : s.usesCarrierLanes = true := by
    rw [hs.usesCarrierLanes]
    rfl
  cases c with
  | acquireWebSocket =>
      show KeepsLanes _ s (TproxyServer.acquireWebSocket s).1
      unfold TproxyServer.acquireWebSocket
      rw [if_pos (by simp [hcarrier])]
      exact .refl s
  | acquireWebSocketLane id => exact absurd rfl (hc id).1
  | releaseWebSocketLane id => exact absurd rfl (hc id).2.1
  | laneProtocolFailure id => exact absurd rfl (hc id).2.2
  | processUpBegin sequence body =>
      show KeepsLanes _ s (TproxyServer.processUpBegin sha256 s sequence body).1
      unfold TproxyServer.processUpBegin
      rw [if_pos hlanes]
      exact .refl s
  | processUpCommit sequence body =>
      have hno : s.usesCarrierLanes = false := hcall
      rw [hlanes] at hno
      cases hno
  | processUpLane laneID sequence body =>
      exact wp_seq (processUpLane_found hs hfinds) fun _ _ h => Changes.keepsSockets h rfl rfl
  | _ =>
      exact wp_mono (Section.changes sha256 hs _ hcall) fun _ _ h =>
        Changes.keepsSockets h rfl rfl

namespace LaneConnection

/-- The same connection later on, as far as its lane goes. -/
def Goes (c c' : LaneConnection) : Prop :=
  c'.laneID = c.laneID ∧ c'.object = c.object ∧ (c.stage ≠ .released → c'.stage ≠ .released)

theorem goes_offered (c : LaneConnection) (body : Bytes) (r : UpReply) :
    c.Goes (c.offered body r) := by
  cases r with
  | acked ack =>
      unfold offered
      dsimp only
      split_ifs <;> exact ⟨rfl, rfl, fun h => h⟩
  | _ => exact ⟨rfl, rfl, fun h => h⟩

theorem goes_polled (c : LaneConnection) (q : QueueRef) (r : PollReply) :
    c.Goes (c.polled q r) := by
  cases r with
  | batch body next =>
      unfold polled
      dsimp only
      split_ifs <;> exact ⟨rfl, rfl, fun h => h⟩
  | _ => exact ⟨rfl, rfl, fun h => h⟩

end LaneConnection

namespace LaneSockets

variable {L L' : LaneSockets}

/-- Every lane has its socket, and the connection that acquired it has not released it. -/
def Attended (L : LaneSockets) : Prop :=
  ∀ id lane, L.relay.session.carrierLanes.get id = some lane → lane.websocketActive = true ∧
    ∃ c ∈ L.connections, c.laneID = id ∧ c.object = lane.object ∧ c.stage ≠ .released

/-- What is left of the lanes is attended as before. -/
theorem Attended.pass (h : L.Attended)
    (hlanes : ∀ i l', L'.relay.session.carrierLanes.get i = some l' →
      (∃ l, L.relay.session.carrierLanes.get i = some l ∧ l'.socket = l.socket) ∧
      ∀ c ∈ L.connections, c.laneID = i → ∃ c' ∈ L'.connections, c.Goes c') : L'.Attended := by
  intro i l' hl'
  obtain ⟨⟨l, hl, hsocket⟩, hconnections⟩ := hlanes i l' hl'
  obtain ⟨hobject, hactive⟩ := Prod.mk.inj hsocket
  obtain ⟨hl₁, c, hc, hid, hc₁, hstage⟩ := h i l hl
  obtain ⟨c', hc', hid', hobject', hstage'⟩ := hconnections c hc hid
  exact ⟨hactive.trans hl₁, c', hc', hid'.trans hid, (hobject'.trans hc₁).trans hobject.symm,
    hstage' hstage⟩

/-- One connection moves on; the others stay. -/
theorem goes_set {k : ℕ} {c c₁ d : LaneConnection} (hc : L.connections[k]? = some c)
    (hd : d ∈ L.connections) (hgoes : d = c → c.Goes c₁) (σ : Traced) :
    ∃ d' ∈ (L.set k c₁ σ).connections, d.Goes d' := by
  obtain ⟨j, hj⟩ := List.mem_iff_getElem?.mp hd
  have hset : (L.set k c₁ σ).connections[j]? = if k = j then some c₁ else some d := by
    show (L.connections.set k c₁)[j]? = _
    rw [List.getElem?_set]
    split_ifs with hkj hlt
    · rfl
    · exact absurd (List.getElem?_eq_some_iff.mp (hkj ▸ hj)).1 hlt
    · exact hj
  by_cases hkj : k = j
  · rw [if_pos hkj] at hset
    rw [← hkj, hc] at hj
    cases hj
    exact ⟨c₁, List.mem_of_getElem? hset, hgoes rfl⟩
  · rw [if_neg hkj] at hset
    exact ⟨d, List.mem_of_getElem? hset, rfl, rfl, fun h => h⟩

/-- The answer and the session after `AcquireWebSocketLane`. -/
theorem acquired_of_step {σ σ' : Traced} {id : ℕ} {ok : Bool}
    (hs : TproxyServer.Step sha256 σ (.acquireWebSocketLane id) (.flag ok) σ') :
    LaneAcquired σ.session id (σ'.session, ok) := by
  have hw : wp observer ((Section.acquireWebSocketLane id).exec sha256 σ.session)
      (fun _ r => r = ((acquireWebSocketLane σ.session id).1,
        .flag (acquireWebSocketLane σ.session id).2)) σ.trace := rfl
  have hrun := hs.of_wp fun _ => hw
  have hacquired := acquireWebSocketLane_acquired σ.session id
  simp only [Prod.mk.injEq, Reply.flag.injEq] at hrun
  rwa [hrun.1, hrun.2]

/-- A lane that is acquired is attended by the connection that acquired it; where every lane is
attended, it is a new one. -/
theorem Attended.acquire (h : L.Attended) {id : ℕ} {σ : Traced}
    (hs : TproxyServer.Step sha256 L.relay (.acquireWebSocketLane id) (.flag true) σ) :
    Attended { relay := σ
               connections := L.connections ++
                [{ laneID := id, object := σ.session.laneObject id }] } := by
  have hacquired := acquired_of_step hs
  generalize hsession : σ.session = s' at hacquired
  have hold : ∀ i l, L.relay.session.carrierLanes.get i = some l →
      l.websocketActive = true ∧ ∃ c ∈ L.connections ++
        [{ laneID := id, object := s'.laneObject id }], c.laneID = i ∧ c.object = l.object ∧
          c.stage ≠ .released := by
    intro i l hl
    obtain ⟨hactive, c, hc, hrest⟩ := h i l hl
    exact ⟨hactive, c, List.mem_append_left _ hc, hrest⟩
  intro i l hl
  dsimp only at hl ⊢
  rw [hsession] at hl
  cases hacquired with
  | attached hl₀ hactive =>
      rw [(h id _ hl₀).1] at hactive
      cases hactive
  | created =>
      by_cases hi : i = id
      · subst hi
        refine ⟨?_, _, List.mem_append_right _ (List.mem_singleton_self _), rfl, ?_, by simp⟩
        · rw [Session.putLane_lanes, Table.get_put_self] at hl
          cases hl
          rfl
        · unfold Session.laneObject
          rw [hl]
          rfl
      · refine hold i l ?_
        rw [Session.putLane_lanes, Table.get_put_ne _ _ hi] at hl
        rwa [← Table.get_put_ne L.relay.session.carrierLanes
          { object := L.relay.session.nextObject } hi]

theorem Attended.step {c : Option Section} (hr : Reachable sha256 limits L) (h : L.Attended)
    (hs : Step sha256 L c L') (hfinds : ∀ d, c = some d → d.FindsLane L.relay.session) :
    L'.Attended := by
  have hsound := hr.relay.sound
  -- the lanes are as before, and of the connections one has moved on
  have hstay : ∀ {k : ℕ} {c c₁ : LaneConnection}, L.connections[k]? = some c → c.Goes c₁ →
      (L.set k c₁ L.relay).Attended := by
    intro k c c₁ hc hgoes
    refine h.pass fun i l' hl' => ⟨⟨l', hl', rfl⟩, fun d hd _ => ?_⟩
    exact goes_set hc hd (fun he => he ▸ hgoes) _
  have hkeep : ∀ {d : Section} {r : Reply} {σ : Traced}, TproxyServer.Step sha256 L.relay d r σ →
      d.FindsLane L.relay.session → (∀ id, d ≠ .acquireWebSocketLane id ∧
        d ≠ .releaseWebSocketLane id ∧ d ≠ .laneProtocolFailure id) →
      KeepsLanes CarrierLane.socket L.relay.session σ.session :=
    fun hd hfinds hother =>
      hd.of_wp fun hcall => Section.keepsSockets _ hsound hcall hfinds hother
  have hmove : ∀ {k : ℕ} {c c₁ : LaneConnection} {σ : Traced}, L.connections[k]? = some c →
      c.Goes c₁ → KeepsLanes CarrierLane.socket L.relay.session σ.session →
      (L.set k c₁ σ).Attended := by
    intro k c c₁ σ hc hgoes hlanes
    refine h.pass fun i l' hl' => ⟨hlanes i l' hl', fun d hd _ => ?_⟩
    exact goes_set hc hd (fun he => he ▸ hgoes) _
  -- a lane is released
  have hdrop : ∀ {k : ℕ} {c c₁ : LaneConnection} {σ : Traced}, L.connections[k]? = some c →
      LaneReleased c.laneID L.relay.session σ.session → (L.set k c₁ σ).Attended := by
    intro k c c₁ σ hc hreleased
    have hne : ∀ i l', σ.session.carrierLanes.get i = some l' → i ≠ c.laneID := by
      rintro i l' hl' rfl
      rw [hreleased.gone] at hl'
      cases hl'
    refine h.pass fun i l' hl' => ⟨hreleased.others i (hne i l' hl') l' hl', fun d hd hid => ?_⟩
    exact goes_set hc hd (fun he => absurd (hid.symm.trans (he ▸ rfl)) (hne i l' hl')) _
  have hrelease : ∀ {k : ℕ} {c c₁ : LaneConnection} {d : Section} {r : Reply} {σ : Traced},
      d.Releases c.laneID → L.connections[k]? = some c → TproxyServer.Step sha256 L.relay d r σ →
      (L.set k c₁ σ).Attended := fun hd hc h => hdrop hc
    (h.of_releases hd hsound.carrier_eq (releaseWebSocketLane_released hsound.carrier_eq _))
  cases hs with
  | @refuse id σ hd =>
      have hacquired := acquired_of_step hd
      generalize hsession : σ.session = s' at hacquired
      cases hacquired
      refine h.pass fun i l' hl' => ⟨⟨l', ?_, rfl⟩, fun d hd _ => ⟨d, hd, rfl, rfl, fun h => h⟩⟩
      rw [← hsession]
      exact hl'
  | acquire hd => exact h.acquire hd
  | upgrade hc _ => exact hstay hc ⟨rfl, rfl, fun _ => by simp⟩
  | dismiss hc _ hd => exact hrelease (.inl rfl) hc hd
  | release hc _ _ hd => exact hrelease (.inl rfl) hc hd
  | receive hc _ _ _ => exact hstay hc ⟨rfl, rfl, fun h => h⟩
  | offer hc _ hd =>
      exact hmove hc (LaneConnection.goes_offered _ _ _) (hkeep hd (hfinds _ rfl) (by simp))
  | failRead hc _ hd => exact hrelease (.inr rfl) hc hd
  | abort hc _ hd => exact hmove hc ⟨rfl, rfl, fun h => h⟩ (hkeep hd (hfinds _ rfl) (by simp))
  | stopRead hc _ _ => exact hstay hc ⟨rfl, rfl, fun h => h⟩
  | poll hc _ _ hd =>
      exact hmove hc (LaneConnection.goes_polled _ _ _) (hkeep hd (hfinds _ rfl) (by simp))
  | resume hc _ hd =>
      exact hmove hc (LaneConnection.goes_polled _ _ _) (hkeep hd (hfinds _ rfl) (by simp))
  | write hc _ => exact hstay hc ⟨rfl, rfl, fun h => h⟩
  | failWrite hc _ hd => exact hrelease (.inr rfl) hc hd
  | stopWrite hc _ _ => exact hstay hc ⟨rfl, rfl, fun h => h⟩
  | other hc hd =>
      refine h.pass fun i l' hl' => ⟨hkeep hd (hfinds _ rfl) ?_ i l' hl', fun d hd _ =>
        ⟨d, hd, rfl, rfl, fun h => h⟩⟩
      intro id
      refine ⟨?_, ?_, ?_⟩ <;> rintro rfl <;> cases hc

/-- Runs in which every body that is offered finds its lane. -/
inductive FoundRun (sha256 : Bytes → Bytes) (limits : Limits) : LaneSockets → Prop
  | start : FoundRun sha256 limits { relay := ⟨newSession limits .webSocketLanes, []⟩ }
  | step {L L' : LaneSockets} {c : Option Section} :
      FoundRun sha256 limits L → Step sha256 L c L' →
      (∀ d, c = some d → d.FindsLane L.relay.session) → FoundRun sha256 limits L'

theorem FoundRun.reachable (h : FoundRun sha256 limits L) : Reachable sha256 limits L := by
  induction h with
  | start => exact .start
  | step _ hs _ ih => exact ih.step hs

theorem FoundRun.attended (h : FoundRun sha256 limits L) : L.Attended := by
  induction h with
  | start =>
      intro id lane hl
      cases hl
  | step hrun hs hfinds ih => exact ih.step hrun.reachable hs hfinds

/-- No lane is without its socket, and nothing is left of a lane that is released. -/
structure NoneLeft (L : LaneSockets) : Prop where
  attended : L.Attended
  released : ∀ id, (∀ c ∈ L.connections, c.laneID = id → c.stage = .released) →
    L.relay.session.carrierLanes.get id = none ∧ L.relay.session.streams.get id = none ∧
      ∀ b, .opened id b ∈ L.relay.trace → b ∈ cancellations L.relay.trace

/-- **No lane is without its socket**, in every open state of every run in which the bodies that
are offered find their lanes: once the last connection to a lane is released, its stream is gone and
its backend cancelled. -/
theorem lanes_attended (h : FoundRun sha256 limits L) (hopen : L.relay.session.closed = false) :
    L.NoneLeft where
  attended := h.attended
  released id hreleased := by
    have hsound := h.reachable.relay.sound
    have hlanes : L.relay.session.usesCarrierLanes = true := by
      rw [hsound.usesCarrierLanes]
      rfl
    have hlane : L.relay.session.carrierLanes.get id = none := by
      cases hl : L.relay.session.carrierLanes.get id with
      | none => rfl
      | some lane =>
          obtain ⟨-, c, hc, hid, -, hstage⟩ := h.attended id lane hl
          exact absurd (hreleased c hc hid) hstage
    have hstream : L.relay.session.streams.get id = none := by
      by_contra hst
      exact hsound.lanes hlanes id hst hlane
    refine ⟨hlane, hstream, fun b hb => ?_⟩
    rcases h.reachable.relay.tended hopen id b hb with ⟨st, hst, -⟩ | hdone | hrest
    · rw [hstream] at hst
      cases hst
    · exact hdone
    · cases hrest

/-- Two lanes are opened; the socket of the first is lost and its lane released. -/
theorem lanes_attended_released : ∃ L, FoundRun id defaultLimits L ∧
    L.relay.session.carrierLanes.keys = [2] ∧ .opened 1 2 ∈ L.relay.trace ∧
    cancellations L.relay.trace = [2] ∧ L.NoneLeft := by
  let body : ℕ → Bytes := fun i => encode .open i [] ++ encode .data i [7]
  have hplay : ((attempt id ⟨newSession defaultLimits .webSocketLanes, []⟩
        (.acquireWebSocketLane 1) []).bind fun p₁ =>
      (attempt id p₁.2 (.acquireWebSocketLane 2) []).bind fun p₂ =>
      (attempt id p₂.2 (.processUpLane 1 1 (body 1)) []).bind fun p₃ =>
      (attempt id p₃.2 (.processUpLane 2 1 (body 2)) []).bind fun p₄ =>
      (attempt id p₄.2 (.releaseWebSocketLane 1) []).map fun p₅ =>
        ([p₁.1, p₂.1, p₃.1, p₄.1], [(p₂.2.session.carrierLanes.get 1).isSome,
          (p₃.2.session.carrierLanes.get 2).isSome, p₅.2.session.closed,
          decide (.opened 1 2 ∈ p₅.2.trace)], p₅.2.session.carrierLanes.keys,
          cancellations p₅.2.trace)) =
      some ([.flag true, .flag true, .up (.acked 1), .up (.acked 1)], [true, true, false, true],
        [2], [2]) := by
    decide +kernel
  obtain ⟨⟨r₁, σ₁⟩, h₁, hplay⟩ := Option.bind_eq_some_iff.mp hplay
  obtain ⟨⟨r₂, σ₂⟩, h₂, hplay⟩ := Option.bind_eq_some_iff.mp hplay
  obtain ⟨⟨r₃, σ₃⟩, h₃, hplay⟩ := Option.bind_eq_some_iff.mp hplay
  obtain ⟨⟨r₄, σ₄⟩, h₄, hplay⟩ := Option.bind_eq_some_iff.mp hplay
  obtain ⟨⟨r₅, σ₅⟩, h₅, he⟩ := Option.map_eq_some_iff.mp hplay
  simp only [Prod.mk.injEq, List.cons.injEq, and_true] at he
  obtain ⟨⟨rfl, rfl, rfl, rfl⟩, ⟨hlane₁, hlane₂, hopen, hopened⟩, hkeys, hcancelled⟩ := he
  have hidle : ∀ {s : Session} (d : Section), (none : Option Section) = some d → d.FindsLane s :=
    fun d he => by cases he
  have hother : ∀ {s : Session} {c d : Section}, c.FindsLane s → some c = some d →
      d.FindsLane s := by
    rintro s c d hc he
    cases he
    exact hc
  have hfound : ∀ {s : Session} {i n : ℕ} {b : Bytes}, (s.carrierLanes.get i).isSome = true →
      (Section.processUpLane i n b).FindsLane s := by
    intro s i n b hlane frames hcreates
    rw [hcreates.missing] at hlane
    cases hlane
  have hup : Attendance.serving ≠ .upgrading := by decide
  have hrun₁ := (FoundRun.start.step (.acquire (.attempt h₁)) fun _ => hother trivial).step
    (.acquire (.attempt h₂)) fun _ => hother trivial
  have hrun₂ := (hrun₁.step (.upgrade (k := 0) rfl rfl) hidle).step
    (.upgrade (k := 1) rfl rfl) hidle
  have hrun₃ := (hrun₂.step (.receive (k := 0) rfl hup rfl (show body 1 ≠ [] by decide +kernel))
    hidle).step (.offer (k := 0) rfl rfl (.attempt h₃)) fun _ => hother (hfound hlane₁)
  have hrun₄ := (hrun₃.step (.receive (k := 1) rfl hup rfl (show body 2 ≠ [] by decide +kernel))
    hidle).step (.offer (k := 1) rfl rfl (.attempt h₄)) fun _ => hother (hfound hlane₂)
  have hrun₅ := (hrun₄.step (.stopWrite (k := 0) rfl hup (.inl rfl)) hidle).step
    (.release (k := 0) rfl rfl (.inr rfl) (.attempt h₅)) fun _ => hother trivial
  exact ⟨_, hrun₅, hkeys, of_decide_eq_true hopened, hcancelled, lanes_attended hrun₅ hopen⟩

/-- A message is read, the writer fails, the lane is released, and the message is offered: the lane
is there again with a stream and its backend, and no connection is left. -/
theorem lane_unattended : ∃ L, Reachable id defaultLimits L ∧
    L.relay.session.closed = false ∧ (∀ c ∈ L.connections, c.stage = .released) ∧
    ¬ L.NoneLeft := by
  let body := encode .open 1 []
  have hplay : ((attempt id ⟨newSession defaultLimits .webSocketLanes, []⟩
        (.acquireWebSocketLane 1) []).bind fun p₁ =>
      (attempt id p₁.2 (.releaseWebSocketLane 1) []).bind fun p₂ =>
      (attempt id p₂.2 (.processUpLane 1 1 body) []).map fun p₃ =>
        ([p₁.1, p₃.1], p₃.2.session.closed,
          (p₃.2.session.carrierLanes.get 1).map CarrierLane.websocketActive)) =
      some ([.flag true, .up (.acked 1)], false, some false) := by
    decide +kernel
  obtain ⟨⟨r₁, σ₁⟩, h₁, hplay⟩ := Option.bind_eq_some_iff.mp hplay
  obtain ⟨⟨r₂, σ₂⟩, h₂, hplay⟩ := Option.bind_eq_some_iff.mp hplay
  obtain ⟨⟨r₃, σ₃⟩, h₃, he⟩ := Option.map_eq_some_iff.mp hplay
  simp only [Prod.mk.injEq, List.cons.injEq, and_true] at he
  obtain ⟨⟨rfl, rfl⟩, hopen, hlane⟩ := he
  have hup : Attendance.serving ≠ .upgrading := by decide
  have hrun₁ := (Reachable.start.step (.acquire (.attempt h₁))).step (.upgrade (k := 0) rfl rfl)
  have hrun₂ := (hrun₁.step
    (.receive (k := 0) rfl hup rfl (show body ≠ [] by decide +kernel))).step
    (.stopWrite (k := 0) rfl hup (.inl rfl))
  have hrun₃ := (hrun₂.step (.release (k := 0) rfl rfl (.inr rfl) (.attempt h₂))).step
    (.offer (k := 0) rfl rfl (.attempt h₃))
  refine ⟨_, hrun₃, hopen, ?_, fun hnone => ?_⟩
  · intro c hc
    rw [List.mem_singleton.mp hc]
    rfl
  · obtain ⟨lane, hl, hactive⟩ := Option.map_eq_some_iff.mp hlane
    rw [(hnone.attended 1 lane hl).1] at hactive
    cases hactive

end LaneSockets

end TproxyServer
