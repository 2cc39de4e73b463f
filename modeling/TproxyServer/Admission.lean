import TproxyServer.Sections

/-! # Every admission opens a stream

Where a section has asked `acquireStream` and was admitted, the very next thing it does is to
create the backend (`opened`), and no backend is created otherwise.  This is a property of the
text of the sections, whatever state they are called in. -/

namespace TproxyServer

open Interaction Prog

variable {α β : Type}

/-- Events that create a backend. -/
def Event.opens : Event → Bool
  | .opened _ _ => true
  | _ => false

/-- The program creates a backend at once where it is `owed`, and after each admission, and
nowhere else. -/
def Admits : Act α → Bool → Prop
  | .done _, owed => owed = false
  | .ask .acquireStream next, owed =>
      owed = false ∧ Admits (next true) true ∧ Admits (next false) false
  | .ask (.budget _ _ _) next, owed => owed = false ∧ ∀ b, Admits (next b) false
  | .note e p, owed => e.opens = owed ∧ Admits p false
  | .panic _, owed => owed = false

/-- What is owed is paid in the first of two programs. -/
theorem Admits.bind {p : Act α} {f : α → Act β} {owed : Bool} (h : Admits p owed)
    (hf : ∀ a, Admits (f a) false) : Admits (p >>= f) owed := by
  induction p generalizing owed with
  | done a =>
      have ho : owed = false := h
      subst ho
      exact hf a
  | ask q next ih =>
      cases q with
      | acquireStream => exact ⟨h.1, ih true h.2.1, ih false h.2.2⟩
      | budget cost items cls => exact ⟨h.1, fun b => ih b (h.2 b)⟩
  | note e p ih => exact ⟨h.1, ih h.2⟩
  | panic w => exact h

theorem admits_pure (a : α) : Admits (pure a) false := rfl

theorem admits_announce {e : Event} (h : e.opens = false) : Admits (announce e) false := ⟨h, rfl⟩

/-- The answers about the pending budget admit no stream. -/
theorem admits_budget (cost items : ℤ) (cls : PendingClass) :
    Admits (request (.budget cost items cls)) false := ⟨rfl, fun _ => rfl⟩

/-! ### The budget and the queues -/

theorem reservePendingLocked_admits (s : Session) (cost items : ℕ) (cls : PendingClass) :
    Admits (reservePendingLocked s cost items cls) false := by
  unfold reservePendingLocked
  dsimp only
  split_ifs
  · exact admits_pure _
  · apply (admits_budget _ _ _).bind
    intro granted
    cases granted <;> exact admits_pure _

theorem releasePendingLocked_admits (s : Session) (cost items : ℤ) :
    Admits (releasePendingLocked s cost items) false := by
  unfold releasePendingLocked
  split_ifs
  · exact admits_pure _
  · exact rfl
  · exact (admits_budget _ _ _).bind fun _ => admits_pure _

theorem pushFrame_admits (s : Session) (q : QueueRef) (t : FrameType) (id : ℕ)
    (payload : Bytes) : Admits (pushFrame s q t id payload) false := by
  have hrefused : ∀ s' : Session, Admits (do
      announce (.refused t id payload)
      pure (s', false) : Act (Session × Bool)) false :=
    fun s' => (admits_announce rfl).bind fun _ => admits_pure _
  unfold pushFrame
  dsimp only
  cases (s.queue q).extendable s.limits t id payload with
  | some last =>
      apply (reservePendingLocked_admits _ _ _ _).bind
      intro r
      by_cases hok : r.2 = true
      · rw [if_pos hok]
        exact (admits_announce rfl).bind fun _ => admits_pure _
      · rw [if_neg hok]
        exact hrefused r.1
  | none =>
      apply (reservePendingLocked_admits _ _ _ _).bind
      intro r
      by_cases hok : r.2 = true
      · rw [if_pos hok]
        apply (admits_announce rfl).bind
        intro _
        split_ifs
        · cases (s.queue q).pendingWindows with
          | none => exact rfl
          | some windows => exact admits_pure _
        · exact admits_pure _
      · rw [if_neg hok]
        exact hrefused r.1

theorem queueOn_admits (s : Session) (q : QueueRef) (t : FrameType) (id : ℕ)
    (payload : Bytes) : Admits (queueOn s q t id payload) false := by
  unfold queueOn
  dsimp only
  cases (s.queue q).windowIndex t id with
  | none => exact pushFrame_admits s q t id payload
  | some index =>
      dsimp only
      cases (s.queue q).pendingFrames[index]? with
      | none => exact rfl
      | some queued =>
          dsimp only
          split_ifs
          · exact (admits_announce rfl).bind fun _ => admits_pure _
          · exact pushFrame_admits s q t id payload

/-- A frame for the client opens no stream, queued or not. -/
theorem queueFrameLocked_admits (s : Session) (t : FrameType) (id : ℕ) (payload : Bytes) :
    Admits (queueFrameLocked s t id payload) false := by
  unfold queueFrameLocked queueLaneFrameLocked
  split_ifs
  · cases s.carrierLanes.get id with
    | none => exact (admits_announce rfl).bind fun _ => admits_pure _
    | some lane => exact queueOn_admits s _ t id payload
  · exact queueOn_admits s _ t id payload

/-! ### Ends -/

theorem releaseLaneLocked_admits (s : Session) (lane : CarrierLane) :
    Admits (releaseLaneLocked s lane) false := by
  unfold releaseLaneLocked
  dsimp only
  split_ifs
  · exact (releasePendingLocked_admits _ _ _).bind fun _ => admits_pure _
  · exact admits_pure _

theorem evictOldest_admits (s : Session) (id : ℕ) : Admits (evictOldest s id) false := by
  unfold evictOldest
  apply (admits_announce rfl).bind
  intro _
  dsimp only
  cases s.carrierLanes.get (s.closedOrder.getD s.closedStart 0) with
  | none => exact admits_pure _
  | some lane =>
      apply (releaseLaneLocked_admits _ _).bind
      exact fun _ => admits_pure _

theorem rememberClosedLocked_admits (s : Session) (id : ℕ) :
    Admits (rememberClosedLocked s id) false := by
  unfold rememberClosedLocked
  split_ifs
  · exact admits_pure _
  · apply (admits_announce rfl).bind
    intro _
    dsimp only
    split_ifs
    · exact admits_pure _
    · exact (evictOldest_admits _ _).bind fun _ => admits_pure _

theorem releaseStreamWritesLocked_admits (s : Session) (state : StreamState) :
    Admits (releaseStreamWritesLocked s state) false := by
  unfold releaseStreamWritesLocked
  split_ifs
  · exact releasePendingLocked_admits _ _ _
  · exact admits_pure _

/-- Nor does the end of a session. -/
theorem closeLocked_admits (s : Session) : Admits (closeLocked s) false := by
  unfold closeLocked
  split_ifs
  · exact admits_pure _
  · apply (admits_announce rfl).bind
    intro _
    dsimp only
    split_ifs
    · apply (admits_budget _ _ _).bind
      intro _
      exact (admits_announce rfl).bind fun _ => admits_pure _
    · exact (admits_announce rfl).bind fun _ => admits_pure _

/-! ### Batches -/

theorem refuseOpen_admits (r : Applying) (id : ℕ) : Admits (refuseOpen r id) false := by
  unfold refuseOpen
  apply (rememberClosedLocked_admits _ _).bind
  intro s
  apply (admits_announce rfl).bind
  intro _
  apply (queueFrameLocked_admits _ _ _ _).bind
  intro q
  dsimp only
  split_ifs
  · exact admits_pure _
  · exact (admits_announce rfl).bind fun _ => admits_pure _

/-- The one place that asks for a stream. -/
theorem applyOpen_admits (r : Applying) (id : ℕ) : Admits (applyOpen r id) false := by
  unfold applyOpen
  dsimp only
  split_ifs
  · exact refuseOpen_admits r id
  · refine ⟨rfl, ⟨rfl, rfl⟩, ?_⟩
    exact refuseOpen_admits r id

/-- Among the frames of a client only an OPEN comes to ask. -/
theorem applyFrame_admits (r : Applying) (f : Frame) : Admits (applyFrame r f) false := by
  unfold applyFrame
  dsimp only
  by_cases h0 : f.streamID = 0
  · rw [if_pos h0]
    exact admits_pure _
  rw [if_neg h0]
  cases f.type with
  | «open» => exact applyOpen_admits r _
  | data =>
      dsimp only
      split_ifs
      · exact admits_pure _
      · unfold applyData
        cases r.session.streams.get f.streamID with
        | none => exact rfl
        | some state => exact (admits_announce rfl).bind fun _ => admits_pure _
  | window =>
      dsimp only
      split_ifs
      · exact admits_pure _
      · unfold applyWindow
        cases r.session.streams.get f.streamID with
        | none => exact rfl
        | some state => exact (admits_announce rfl).bind fun _ => admits_pure _
  | close =>
      dsimp only
      split_ifs
      · exact admits_pure _
      · unfold applyClose
        cases r.session.streams.get f.streamID with
        | none => exact rfl
        | some state =>
            apply (releaseStreamWritesLocked_admits _ _).bind
            intro s
            exact (rememberClosedLocked_admits _ _).bind fun _ => admits_pure _
  | _ => exact admits_pure _

theorem applyLoop_admits (frames : List Frame) (r : Applying) :
    Admits (applyLoop r frames) false := by
  induction frames generalizing r with
  | nil => exact admits_pure _
  | cons f rest ih =>
      rw [applyLoop]
      apply (applyFrame_admits r f).bind
      intro r'
      split_ifs
      · exact ih r'
      · exact admits_pure _

/-- A batch asks for streams once its DATA is reserved. -/
theorem commitBatch_admits (s : Session) (laneID : Option ℕ) (sequence : ℕ) (body : Bytes)
    (frames : List Frame) : Admits (commitBatch s laneID sequence body frames) false := by
  have hrest : ∀ (p : Session × Bool), Admits (do
      if p.2 = false then pure (p.1, .backpressure)
      else do
        announce (.applying laneID sequence body)
        let r ← applyBatchLocked p.1 frames (backendWriteReservationLocked s frames).1
          (backendWriteReservationLocked s frames).2
        let s ←
          if r.cost ≠ 0 ∨ r.items ≠ 0 then releasePendingLocked r.session r.cost r.items
          else pure r.session
        announce (.cancelled r.closed)
        pure (s, if r.applied then .applied else .aborted) :
        Act (Session × BatchOutcome)) false := by
    intro p
    by_cases hok : p.2 = false
    · rw [if_pos hok]
      exact admits_pure _
    rw [if_neg hok]
    apply (admits_announce rfl).bind
    intro _
    apply (applyLoop_admits _ _).bind
    intro r
    dsimp only
    by_cases hunused : r.cost ≠ 0 ∨ r.items ≠ 0
    · rw [if_pos hunused]
      apply (releasePendingLocked_admits _ _ _).bind
      intro s'
      exact (admits_announce rfl).bind fun _ => admits_pure _
    · rw [if_neg hunused]
      exact (admits_announce rfl).bind fun _ => admits_pure _
  unfold commitBatch
  by_cases hvalid : validateBatchLocked s frames = false
  · rw [if_pos hvalid]
    exact admits_pure _
  rw [if_neg hvalid]
  dsimp only
  split_ifs
  · exact (reservePendingLocked_admits _ _ _ _).bind hrest
  · exact hrest (s, true)

/-! ### Requests and sockets -/

theorem processUpCommit_admits (sha256 : Bytes → Bytes) (s : Session) (sequence : ℕ)
    (body : Bytes) : Admits (processUpCommit sha256 s sequence body) false := by
  unfold processUpCommit
  dsimp only
  split_ifs
  · exact admits_pure _
  · cases clientFrames s.limits body with
    | none => exact admits_pure _
    | some frames =>
        apply (commitBatch_admits _ _ _ _ _).bind
        intro p
        obtain ⟨s', outcome⟩ := p
        cases outcome <;> exact admits_pure _

theorem processOnLane_admits (sha256 : Bytes → Bytes) (s : Session) (lane : CarrierLane)
    (laneID sequence : ℕ) (body : Bytes) (frames : List Frame) :
    Admits (processOnLane sha256 s lane laneID sequence body frames) false := by
  unfold processOnLane
  split_ifs
  · exact admits_pure _
  · exact admits_pure _
  · exact admits_pure _
  · exact admits_pure _
  · apply (commitBatch_admits _ _ _ _ _).bind
    intro p
    obtain ⟨s', outcome⟩ := p
    cases outcome <;> exact admits_pure _

theorem processUpLane_admits (sha256 : Bytes → Bytes) (s : Session) (laneID sequence : ℕ)
    (body : Bytes) : Admits (processUpLane sha256 s laneID sequence body) false := by
  unfold processUpLane
  by_cases hcall : s.usesCarrierLanes = false ∨ maxStreamID < laneID
  · rw [if_pos hcall]
    exact admits_pure _
  rw [if_neg hcall]
  cases laneFrames s.limits laneID body with
  | none => exact admits_pure _
  | some frames =>
      dsimp only
      by_cases hclosed : s.closed = true
      · rw [if_pos hclosed]
        exact admits_pure _
      rw [if_neg hclosed]
      cases s.carrierLanes.get laneID with
      | some lane => exact processOnLane_admits _ _ _ _ _ _ _
      | none =>
          dsimp only
          split_ifs
          · exact admits_pure _
          · exact admits_pure _
          · exact processOnLane_admits _ _ _ _ _ _ _

theorem releaseWebSocketLane_admits (s : Session) (laneID : ℕ) :
    Admits (releaseWebSocketLane s laneID) false := by
  have hdrop : ∀ s' : Session, Admits (dropLane s' laneID) false := by
    intro s'
    unfold dropLane
    cases s'.carrierLanes.get laneID with
    | none => exact admits_pure _
    | some lane => exact (releaseLaneLocked_admits _ _).bind fun _ => admits_pure _
  unfold releaseWebSocketLane
  by_cases hcarrier : s.carrier ≠ .webSocketLanes
  · rw [if_pos hcarrier]
    exact admits_pure _
  rw [if_neg hcarrier]
  cases s.carrierLanes.get laneID with
  | none => exact admits_pure _
  | some lane =>
      dsimp only
      rw [Session.putLane_streams]
      cases s.streams.get laneID with
      | none => exact hdrop _
      | some state =>
          apply (releaseStreamWritesLocked_admits _ _).bind
          intro s₁
          apply (rememberClosedLocked_admits _ _).bind
          intro s₂
          apply (admits_announce rfl).bind
          exact fun _ => hdrop s₂

theorem laneProtocolFailure_admits (s : Session) (laneID : ℕ) :
    Admits (laneProtocolFailure s laneID) false := by
  unfold laneProtocolFailure
  split_ifs
  · exact releaseWebSocketLane_admits s laneID
  · exact closeLocked_admits s

/-! ### Polls -/

theorem pollLoop_admits (s : Session) (q : QueueRef) (cursor mine : ℕ) :
    Admits (pollLoop s q cursor mine) false := by
  unfold pollLoop
  dsimp only
  split_ifs
  · exact admits_pure _
  · exact (admits_announce rfl).bind fun _ => admits_pure _
  · exact admits_pure _
  · exact admits_pure _
  · exact admits_pure _

theorem takeOver_admits (s : Session) (q : QueueRef) : Admits (takeOver s q) false := by
  unfold takeOver
  dsimp only
  cases (s.queue q).superseded with
  | none => exact admits_pure _
  | some channel =>
      dsimp only
      split_ifs
      · exact admits_pure _
      · exact rfl
      · exact admits_pure _

/-- Polls ask for nothing but the budget. -/
theorem pollOn_admits (s : Session) (q : QueueRef) (cursor : ℕ) :
    Admits (pollOn s q cursor) false := by
  have hloop : ∀ s' : Session, Admits (do
      let p ← takeOver s' q
      pollLoop p.1 q cursor p.2 : Act (Session × PollReply)) false :=
    fun s' => (takeOver_admits s' q).bind fun _ => pollLoop_admits _ _ _ _
  unfold pollOn
  dsimp only
  cases (s.queue q).checkCursor cursor with
  | replay => exact admits_pure _
  | mismatch => exact admits_pure _
  | acknowledge => exact (releasePendingLocked_admits _ _ _).bind fun _ => hloop _
  | current => exact hloop s

theorem pollResume_admits (s : Session) (q : QueueRef) (cursor mine : ℕ) (wake : Wake) :
    Admits (pollResume s q cursor mine wake) false := by
  unfold pollResume
  cases wake with
  | cancelled => exact admits_pure _
  | superseded => exact admits_pure _
  | done => exact admits_pure _
  | deadline =>
      dsimp only
      split_ifs
      · exact admits_pure _
      · exact pollLoop_admits _ _ _ _
      · exact admits_pure _
  | notified => exact pollLoop_admits _ _ _ _

/-! ### Callbacks -/

theorem backendDrained_admits (s : Session) (id amount : ℕ) :
    Admits (backendDrained s id amount) false := by
  unfold backendDrained
  cases s.streams.get id with
  | none => exact admits_pure _
  | some state =>
      dsimp only
      split_ifs
      · exact admits_pure _
      · apply (releasePendingLocked_admits _ _ _).bind
        intro s'
        exact queueFrameLocked_admits _ _ _ _

theorem backendWriteFinished_admits (s : Session) (id : ℕ) :
    Admits (backendWriteFinished s id) false := by
  unfold backendWriteFinished
  cases s.streams.get id with
  | none => exact admits_pure _
  | some state =>
      dsimp only
      split_ifs
      · exact admits_pure _
      · generalize (queueItemCost : ℤ) = cost
        exact (releasePendingLocked_admits _ _ _).bind fun _ => admits_pure _

theorem backendData_admits (s : Session) (id : ℕ) (data : Bytes) :
    Admits (backendData s id data) false := by
  unfold backendData
  cases s.streams.get id with
  | none => exact admits_pure _
  | some state =>
      dsimp only
      split_ifs
      · exact admits_pure _
      · exact queueFrameLocked_admits _ _ _ _

/-- A backend that ends frees its stream and opens none. -/
theorem backendClosed_admits (s : Session) (id backend : ℕ) :
    Admits (backendClosed s id backend) false := by
  have hdone : ∀ s' : Session, Admits (do
      announce (.cancelled [backend])
      pure s' : Act Session) false :=
    fun s' => (admits_announce rfl).bind fun _ => admits_pure _
  unfold backendClosed
  cases s.streams.get id with
  | none => exact hdone s
  | some state =>
      dsimp only
      by_cases hbad : s.closed = true ∨ state.backend ≠ backend
      · rw [if_pos hbad]
        exact hdone s
      rw [if_neg hbad]
      apply (releaseStreamWritesLocked_admits _ _).bind
      intro s₁
      apply (rememberClosedLocked_admits _ _).bind
      intro s₂
      apply (queueFrameLocked_admits _ _ _ _).bind
      intro p
      split_ifs
      · exact hdone p.1
      · exact (closeLocked_admits p.1).bind hdone

/-- **Every section opens a stream for each admission**, and no other. -/
theorem Section.admits (sha256 : Bytes → Bytes) (s : Session) (c : Section) :
    Admits (c.exec sha256 s) false := by
  cases c with
  | acquireWebSocket => exact admits_pure _
  | acquireWebSocketLane laneID => exact admits_pure _
  | releaseWebSocketLane laneID =>
      exact (releaseWebSocketLane_admits s laneID).bind fun _ => admits_pure _
  | laneProtocolFailure laneID =>
      exact (laneProtocolFailure_admits s laneID).bind fun _ => admits_pure _
  | close => exact (closeLocked_admits s).bind fun _ => admits_pure _
  | processUpBegin sequence body => exact admits_pure _
  | processUpCommit sequence body =>
      exact (processUpCommit_admits sha256 s sequence body).bind fun _ => admits_pure _
  | processUpLane laneID sequence body =>
      exact (processUpLane_admits sha256 s laneID sequence body).bind fun _ => admits_pure _
  | poll cursor =>
      apply Admits.bind
      · unfold TproxyServer.poll
        split_ifs
        · exact admits_pure _
        · exact admits_pure _
        · exact pollOn_admits s _ cursor
      · exact fun _ => admits_pure _
  | pollLane laneID cursor =>
      apply Admits.bind
      · unfold TproxyServer.pollLane
        split_ifs
        · exact admits_pure _
        · exact admits_pure _
        · cases s.carrierLanes.get laneID with
          | none => exact admits_pure _
          | some lane => exact pollOn_admits s _ cursor
      · exact fun _ => admits_pure _
  | pollResume q cursor mine wake =>
      exact (pollResume_admits s q cursor mine wake).bind fun _ => admits_pure _
  | takeToken q => exact admits_pure _
  | nextWrite id => exact admits_pure _
  | backendDrained id amount =>
      exact (backendDrained_admits s id amount).bind fun _ => admits_pure _
  | backendWriteFinished id =>
      exact (backendWriteFinished_admits s id).bind fun _ => admits_pure _
  | nextReadAllowance id => exact admits_pure _
  | backendData id data => exact (backendData_admits s id data).bind fun _ => admits_pure _
  | backendClosed id backend =>
      exact (backendClosed_admits s id backend).bind fun _ => admits_pure _

end TproxyServer
