import TproxyServer.Settlement
import TproxyServer.Orphans
import TproxyServer.Places

/-! # A session finishes once

`closeLocked` hands the session to the manager (`onFinished`) where it closes it, and nothing
else does.  So a section announces `finished` at most once, as the last thing it does, and a
closed session has nothing more to ask of the manager. -/

namespace TproxyServer

open Interaction Prog

variable {limits : Limits} {carrier : CarrierMode} {s s' : Session} {t : List Event}
  {sha256 : Bytes → Bytes} {α β : Type}

/-- The program does not finish the session. -/
abbrev GoesOn (p : Act α) : Prop := p.Says (fun _ => True) (· ≠ .finished) fun _ => True

/-- What a program may announce that neither finishes the session nor admits anything. -/
def Event.idle (e : Event) : Prop := e ≠ .finished ∧ e.ofUplink = false

/-- The program does not finish the session, asks nothing of the manager and does not panic. -/
abbrev Rests (p : Act α) : Prop := p.Says (fun _ => False) Event.idle fun _ => False

theorem Rests.goesOn {p : Act α} (h : Rests p) : GoesOn p :=
  Prog.Says.mono h (fun _ _ => trivial) (fun _ he => he.1) fun _ _ => trivial

/-- Once the program has finished the session, it rests. -/
def FinishesLast : Act α → Prop
  | .done _ => True
  | .ask _ next => ∀ b, FinishesLast (next b)
  | .note e p => (e = .finished → Rests p) ∧ FinishesLast p
  | .panic _ => True

theorem GoesOn.finishesLast {p : Act α} (h : GoesOn p) : FinishesLast p := by
  induction p with
  | done a => trivial
  | ask q next ih => exact fun b => ih b (h.2 b)
  | note e p ih => exact ⟨fun he => absurd he h.1, ih h.2⟩
  | panic w => trivial

theorem GoesOn.then_last {p : Act α} {f : α → Act β} (h : GoesOn p)
    (hf : ∀ a, FinishesLast (f a)) : FinishesLast (p >>= f) := by
  induction p with
  | done a => exact hf a
  | ask q next ih => exact fun b => ih b (h.2 b)
  | note e p ih => exact ⟨fun he => absurd he h.1, ih h.2⟩
  | panic w => trivial

theorem FinishesLast.bind {p : Act α} {f : α → Act β} (h : FinishesLast p)
    (hf : ∀ a, Rests (f a)) : FinishesLast (p >>= f) := by
  induction p with
  | done a => exact (hf a).goesOn.finishesLast
  | ask q next ih => exact fun b => ih b (h b)
  | note e p ih => exact ⟨fun he => (h.1 he).bind hf, ih h.2⟩
  | panic w => trivial

/-! ### The primitives -/

theorem reservePendingLocked_goesOn (s : Session) (cost items : ℕ) (cls : PendingClass) :
    GoesOn (reservePendingLocked s cost items cls) := by
  unfold reservePendingLocked
  dsimp only
  split_ifs
  · exact trivial
  · refine ⟨trivial, fun b => ?_⟩
    cases b <;> exact trivial

theorem releasePendingLocked_goesOn (s : Session) (cost items : ℤ) :
    GoesOn (releasePendingLocked s cost items) := by
  unfold releasePendingLocked
  split_ifs
  · exact trivial
  · trivial
  · exact ⟨trivial, fun _ => trivial⟩

theorem pushFrame_goesOn (s : Session) (q : QueueRef) (ty : FrameType) (id : ℕ)
    (payload : Bytes) : GoesOn (pushFrame s q ty id payload) := by
  unfold pushFrame
  dsimp only
  cases (s.queue q).extendable s.limits ty id payload with
  | some last =>
      apply (reservePendingLocked_goesOn s _ _ _).bind
      rintro ⟨s₁, ok⟩
      cases ok <;> exact ⟨by simp, trivial⟩
  | none =>
      apply (reservePendingLocked_goesOn s _ _ _).bind
      rintro ⟨s₁, ok⟩
      cases ok with
      | false => exact ⟨by simp, trivial⟩
      | true =>
          simp only [if_true, announce_bind]
          refine .note (by simp) (.ite ?_ trivial)
          cases (s.queue q).pendingWindows <;> exact trivial

theorem queueOn_goesOn (s : Session) (q : QueueRef) (ty : FrameType) (id : ℕ)
    (payload : Bytes) : GoesOn (queueOn s q ty id payload) := by
  unfold queueOn
  dsimp only
  cases (s.queue q).windowIndex ty id with
  | none => exact pushFrame_goesOn ..
  | some index =>
      dsimp only
      cases (s.queue q).pendingFrames[index]? with
      | none => trivial
      | some f =>
          dsimp only
          split_ifs
          · exact ⟨by simp, trivial⟩
          · exact pushFrame_goesOn ..

theorem queueFrameLocked_goesOn (s : Session) (ty : FrameType) (id : ℕ) (payload : Bytes) :
    GoesOn (queueFrameLocked s ty id payload) := by
  unfold queueFrameLocked
  split_ifs
  · unfold queueLaneFrameLocked
    cases s.carrierLanes.get id with
    | none => exact ⟨by simp, trivial⟩
    | some lane => exact queueOn_goesOn ..
  · exact queueOn_goesOn ..

theorem releaseLaneLocked_goesOn (s : Session) (lane : CarrierLane) :
    GoesOn (releaseLaneLocked s lane) := by
  unfold releaseLaneLocked
  dsimp only
  split_ifs
  · exact (releasePendingLocked_goesOn s _ _).bind fun _ => trivial
  · exact trivial

theorem rememberClosedLocked_goesOn (s : Session) (id : ℕ) :
    GoesOn (rememberClosedLocked s id) := by
  have hevict : ∀ s : Session, GoesOn (evictOldest s id) := by
    intro s
    unfold evictOldest
    simp only [announce_bind]
    apply Prog.Says.note (by simp)
    cases s.carrierLanes.get (s.closedOrder.getD s.closedStart 0) with
    | none => exact trivial
    | some lane => exact (releaseLaneLocked_goesOn _ lane).bind fun _ => trivial
  unfold rememberClosedLocked
  split_ifs
  · exact trivial
  · dsimp only
    simp only [announce_bind]
    apply Prog.Says.note (by simp)
    split_ifs
    · exact trivial
    · exact (hevict _).bind fun _ => trivial

theorem releaseStreamWritesLocked_goesOn (s : Session) (state : StreamState) :
    GoesOn (releaseStreamWritesLocked s state) := by
  unfold releaseStreamWritesLocked
  split_ifs
  · exact releasePendingLocked_goesOn ..
  · exact trivial

theorem closeLocked_last (s : Session) : FinishesLast (closeLocked s) := by
  unfold closeLocked
  split_ifs
  · exact trivial
  · simp only [announce_bind]
    refine ⟨by simp, ?_⟩
    split_ifs
    · exact fun b => ⟨fun _ => trivial, trivial⟩
    · exact ⟨fun _ => trivial, trivial⟩

/-! ### Applying a batch -/

theorem applyFrame_goesOn (r : Applying) (f : Frame) : GoesOn (applyFrame r f) := by
  have hrefuse : GoesOn (refuseOpen r f.streamID) := by
    unfold refuseOpen
    apply (rememberClosedLocked_goesOn r.session _).bind
    intro s₁
    refine .note (by simp) ?_
    apply (queueFrameLocked_goesOn s₁ _ _ _).bind
    rintro ⟨s₂, ok⟩
    cases ok <;> first | exact trivial | exact ⟨by simp, trivial⟩
  unfold applyFrame
  split_ifs with h0
  · exact trivial
  cases f.type with
  | «open» =>
      have hadmit : ∀ admitted : Bool, GoesOn (if admitted then do
          announce (.opened f.streamID r.session.nextObject)
          pure { r with
            session := { r.session.putStream f.streamID (newStream r.session.nextObject) with
              nextObject := r.session.nextObject + 1 }
            opened := r.opened ++ [r.session.nextObject] }
        else refuseOpen r f.streamID) := by
        intro admitted
        cases admitted with
        | true => exact ⟨by simp, trivial⟩
        | false => exact hrefuse
      show GoesOn (applyOpen r f.streamID)
      unfold applyOpen
      dsimp only
      split_ifs
      · exact hadmit false
      · exact ⟨trivial, hadmit⟩
  | data =>
      dsimp only
      refine .ite trivial ?_
      unfold applyData
      cases r.session.streams.get f.streamID with
      | none => trivial
      | some state => exact ⟨by simp, trivial⟩
  | window =>
      dsimp only
      refine .ite trivial ?_
      unfold applyWindow
      cases r.session.streams.get f.streamID with
      | none => trivial
      | some state => exact ⟨by simp, trivial⟩
  | close =>
      dsimp only
      refine .ite trivial ?_
      unfold applyClose
      cases r.session.streams.get f.streamID with
      | none => trivial
      | some state =>
          exact (releaseStreamWritesLocked_goesOn _ state).bind fun s₁ =>
            (rememberClosedLocked_goesOn _ _).bind fun _ => trivial
  | _ => exact trivial

theorem applyLoop_goesOn (r : Applying) (frames : List Frame) :
    GoesOn (applyLoop r frames) := by
  induction frames generalizing r with
  | nil => exact trivial
  | cons f rest ih =>
      apply (applyFrame_goesOn r f).bind
      intro r₁
      exact .ite (ih r₁) trivial

theorem commitBatch_goesOn (s : Session) (label : Option ℕ) (sequence : ℕ) (body : Bytes)
    (frames : List Frame) : GoesOn (commitBatch s label sequence body frames) := by
  have hrest : ∀ (p : Session × Bool) (reserved : ℕ × ℕ), GoesOn (if p.2 = false then
      pure (p.1, BatchOutcome.backpressure)
    else do
      announce (.applying label sequence body)
      let r ← applyBatchLocked p.1 frames reserved.1 reserved.2
      let s ←
        if r.cost ≠ 0 ∨ r.items ≠ 0 then releasePendingLocked r.session r.cost r.items
        else pure r.session
      announce (.cancelled r.closed)
      pure (s, if r.applied then BatchOutcome.applied else .aborted)) := by
    intro p reserved
    refine .ite trivial ⟨by simp, ?_⟩
    apply (applyLoop_goesOn _ frames).bind
    intro r
    refine .ite ((releasePendingLocked_goesOn _ _ _).bind fun _ => ?_) ?_
    · exact ⟨by simp, trivial⟩
    · exact ⟨by simp, trivial⟩
  unfold commitBatch
  refine .ite trivial ?_
  dsimp only
  split_ifs
  · exact (reservePendingLocked_goesOn s _ _ _).bind fun p => hrest p _
  · exact hrest (s, true) _

theorem processOnLane_goesOn (s : Session) (lane : CarrierLane) (laneID sequence : ℕ)
    (body : Bytes) (frames : List Frame) :
    GoesOn (processOnLane sha256 s lane laneID sequence body frames) := by
  unfold processOnLane
  split_ifs
  · exact trivial
  · exact trivial
  · exact trivial
  · exact trivial
  · apply (commitBatch_goesOn ..).bind
    rintro ⟨s₁, outcome⟩
    cases outcome <;> exact trivial

/-! ### Lanes and polls -/

theorem releaseWebSocketLane_goesOn (s : Session) (laneID : ℕ) :
    GoesOn (releaseWebSocketLane s laneID) := by
  have hdrop : ∀ s : Session, GoesOn (dropLane s laneID) := by
    intro s
    unfold dropLane
    cases s.carrierLanes.get laneID with
    | none => exact trivial
    | some lane => exact (releaseLaneLocked_goesOn s lane).bind fun _ => trivial
  unfold releaseWebSocketLane
  split_ifs
  · exact trivial
  · cases s.carrierLanes.get laneID with
    | none => exact trivial
    | some lane =>
        dsimp only
        cases (s.putLane laneID { lane with websocketActive := false }).streams.get laneID with
        | none => exact hdrop _
        | some state =>
            exact (releaseStreamWritesLocked_goesOn _ state).bind fun s₁ =>
              (rememberClosedLocked_goesOn _ _).bind fun s₂ => ⟨by simp, hdrop s₂⟩

theorem pollLoop_rests (s : Session) (q : QueueRef) (cursor mine : ℕ) :
    Rests (pollLoop s q cursor mine) := by
  unfold pollLoop
  dsimp only
  split_ifs
  · exact trivial
  · exact ⟨by simp [Event.idle, Event.ofUplink], trivial⟩
  · exact trivial
  · exact trivial
  · exact trivial

theorem pollOn_goesOn (s : Session) (q : QueueRef) (cursor : ℕ) :
    GoesOn (pollOn s q cursor) := by
  have htake : ∀ s : Session,
      GoesOn (takeOver s q >>= fun r => pollLoop r.1 q cursor r.2) := by
    intro s
    refine Prog.Says.bind ?_ fun r => (pollLoop_rests ..).goesOn
    unfold takeOver
    dsimp only
    cases hsuperseded : (s.queue q).superseded with
    | none => exact trivial
    | some channel =>
        dsimp only
        split_ifs <;> exact trivial
  unfold pollOn
  dsimp only
  cases (s.queue q).checkCursor cursor with
  | replay => exact trivial
  | mismatch => exact trivial
  | acknowledge => exact (releasePendingLocked_goesOn _ _ _).bind fun s₁ => htake _
  | current => exact htake s

theorem pollResume_rests (s : Session) (q : QueueRef) (cursor mine : ℕ) (wake : Wake) :
    Rests (pollResume s q cursor mine wake) := by
  cases wake with
  | cancelled => exact trivial
  | superseded => exact trivial
  | done => exact trivial
  | deadline =>
      unfold pollResume
      dsimp only
      split_ifs
      · exact trivial
      · exact pollLoop_rests ..
      · exact trivial
  | notified => exact pollLoop_rests ..

/-! ### All sections -/

/-- The sections that may close the session. -/
def Section.mayClose : Section → Bool
  | .laneProtocolFailure _ | .close | .backendClosed _ _ => true
  | _ => false

theorem Section.goesOn (sha256 : Bytes → Bytes) (s : Session) (c : Section)
    (hc : c.mayClose = false) : GoesOn (c.exec sha256 s) := by
  have hreply : ∀ {α : Type} {p : Act α} {f : α → Session × Reply}, GoesOn p →
      GoesOn (p >>= fun a => pure (f a)) := fun hp => hp.bind fun _ => trivial
  cases c with
  | releaseWebSocketLane laneID => exact hreply (releaseWebSocketLane_goesOn s laneID)
  | processUpCommit sequence body =>
      apply hreply
      unfold TproxyServer.processUpCommit
      dsimp only
      refine .ite trivial ?_
      cases clientFrames s.limits body with
      | none => exact trivial
      | some frames =>
          apply (commitBatch_goesOn ..).bind
          rintro ⟨s₁, outcome⟩
          cases outcome <;> exact trivial
  | processUpLane laneID sequence body =>
      apply hreply
      unfold TproxyServer.processUpLane
      refine .ite trivial ?_
      cases laneFrames s.limits laneID body with
      | none => exact trivial
      | some frames =>
          refine .ite trivial ?_
          cases s.carrierLanes.get laneID with
          | some lane => exact processOnLane_goesOn ..
          | none => exact .ite trivial (.ite trivial (processOnLane_goesOn ..))
  | poll cursor =>
      apply hreply
      unfold TproxyServer.poll
      exact .ite trivial (.ite trivial (pollOn_goesOn ..))
  | pollLane laneID cursor =>
      apply hreply
      unfold TproxyServer.pollLane
      refine .ite trivial (.ite trivial ?_)
      cases s.carrierLanes.get laneID with
      | none => exact trivial
      | some lane => exact pollOn_goesOn ..
  | pollResume q cursor mine wake => exact hreply (pollResume_rests ..).goesOn
  | backendDrained id amount =>
      apply hreply
      unfold TproxyServer.backendDrained
      cases s.streams.get id with
      | none => exact trivial
      | some state =>
          refine .ite trivial ?_
          exact (releasePendingLocked_goesOn _ _ _).bind fun s₁ => queueFrameLocked_goesOn ..
  | backendWriteFinished id =>
      apply hreply
      unfold TproxyServer.backendWriteFinished
      cases s.streams.get id with
      | none => exact trivial
      | some state =>
          -- the number itself would be unfolded in unary
          generalize queueItemCost = cost
          refine .ite trivial ?_
          exact (releasePendingLocked_goesOn _ _ _).bind fun _ => trivial
  | backendData id data =>
      apply hreply
      unfold TproxyServer.backendData
      cases s.streams.get id with
      | none => exact trivial
      | some state => exact .ite trivial (queueFrameLocked_goesOn ..)
  | laneProtocolFailure | close | backendClosed => cases hc
  | _ => exact trivial

/-- **What a section does after it has finished the session.** -/
theorem Section.finishesLast (sha256 : Bytes → Bytes) (s : Session) (c : Section) :
    FinishesLast (c.exec sha256 s) := by
  have hreply : ∀ {α : Type} {p : Act α} {f : α → Session × Reply}, FinishesLast p →
      FinishesLast (p >>= fun a => pure (f a)) := fun hp => hp.bind fun _ => trivial
  cases hc : c.mayClose with
  | false => exact (Section.goesOn sha256 s c hc).finishesLast
  | true =>
      cases c with
      | laneProtocolFailure laneID =>
          apply hreply
          unfold TproxyServer.laneProtocolFailure
          split_ifs
          · exact (releaseWebSocketLane_goesOn s laneID).finishesLast
          · exact closeLocked_last s
      | close => exact hreply (closeLocked_last s)
      | backendClosed id backend =>
          apply hreply
          unfold TproxyServer.backendClosed
          have hend : ∀ s₁ : Session, Rests (do
              announce (.cancelled [backend])
              pure s₁ : Act Session) := fun _ => ⟨by simp [Event.idle, Event.ofUplink], trivial⟩
          cases s.streams.get id with
          | none => exact (hend s).goesOn.finishesLast
          | some state =>
              dsimp only
              split_ifs
              · exact (hend s).goesOn.finishesLast
              · apply (releaseStreamWritesLocked_goesOn _ state).then_last
                intro s₁
                apply (rememberClosedLocked_goesOn _ _).then_last
                intro s₂
                apply (queueFrameLocked_goesOn s₂ _ _ _).then_last
                rintro ⟨s₃, ok⟩
                cases ok with
                | true => exact (hend s₃).goesOn.finishesLast
                | false => exact (closeLocked_last s₃).bind hend
      | _ => cases hc

/-- The lanes of a session that holds nothing hold nothing. -/
theorem lane_held_zero {id : ℕ} {lane : CarrierLane} (hheld : s.held = 0)
    (hl : s.carrierLanes.get id = some lane) : lane.down.held = (0, 0) := by
  have hsum := held_delLane lane.drop hl
  have hzero : CarrierLane.held lane = 0 := by
    rw [hheld] at hsum
    exact (add_eq_zero.mp hsum).1
  exact hzero

theorem releaseWebSocketLane_rests (hstreams : ∀ id, s.streams.get id = none) (hheld : s.held = 0)
    (laneID : ℕ) : Rests (releaseWebSocketLane s laneID) := by
  unfold releaseWebSocketLane
  refine .ite trivial ?_
  cases hl : s.carrierLanes.get laneID with
  | none => exact trivial
  | some lane =>
      dsimp only
      rw [show (s.putLane laneID { lane with websocketActive := false }).streams.get laneID = none
        from hstreams laneID]
      show Rests (dropLane (s.putLane laneID { lane with websocketActive := false }) laneID)
      unfold dropLane releaseLaneLocked
      rw [show (s.putLane laneID { lane with websocketActive := false }).carrierLanes.get laneID =
        some { lane with websocketActive := false } from Table.get_put_self _ _ _]
      dsimp only
      rw [lane_held_zero hheld hl, if_neg (by simp)]
      exact trivial

/-- A closed session asks nothing of the manager and does not finish again. -/
theorem Section.rests (sha256 : Bytes → Bytes) (hclosed : s.closed = true)
    (hstreams : ∀ id, s.streams.get id = none) (hheld : s.held = 0) (c : Section) :
    Rests (c.exec sha256 s) := by
  have hreply : ∀ {α : Type} {p : Act α} {f : α → Session × Reply}, Rests p →
      Rests (p >>= fun a => pure (f a)) := fun hp => hp.bind fun _ => trivial
  cases c with
  | releaseWebSocketLane laneID =>
      exact hreply (releaseWebSocketLane_rests hstreams hheld laneID)
  | laneProtocolFailure laneID =>
      apply hreply
      unfold TproxyServer.laneProtocolFailure closeLocked
      rw [if_pos hclosed]
      exact .ite (releaseWebSocketLane_rests hstreams hheld laneID) trivial
  | close =>
      apply hreply
      unfold closeLocked
      rw [if_pos hclosed]
      exact trivial
  | processUpCommit sequence body =>
      apply hreply
      unfold TproxyServer.processUpCommit
      dsimp only
      rw [if_pos hclosed]
      exact trivial
  | processUpLane laneID sequence body =>
      apply hreply
      unfold TproxyServer.processUpLane
      refine .ite trivial ?_
      cases laneFrames s.limits laneID body with
      | none => exact trivial
      | some frames =>
          dsimp only
          rw [if_pos hclosed]
          exact trivial
  | poll cursor =>
      apply hreply
      unfold TproxyServer.poll
      rw [if_pos hclosed]
      exact .ite trivial trivial
  | pollLane laneID cursor =>
      apply hreply
      unfold TproxyServer.pollLane
      rw [if_pos hclosed]
      exact .ite trivial trivial
  | pollResume q cursor mine wake => exact hreply (pollResume_rests ..)
  | backendDrained id amount =>
      apply hreply
      unfold TproxyServer.backendDrained
      rw [hstreams id]
      exact trivial
  | backendWriteFinished id =>
      apply hreply
      unfold TproxyServer.backendWriteFinished
      rw [hstreams id]
      exact trivial
  | backendData id data =>
      apply hreply
      unfold TproxyServer.backendData
      rw [hstreams id]
      exact trivial
  | backendClosed id backend =>
      apply hreply
      unfold TproxyServer.backendClosed
      rw [hstreams id]
      exact ⟨by simp [Event.idle, Event.ofUplink], trivial⟩
  | _ => exact trivial

/-! ### The session -/

/-- How often the session was handed to the manager. -/
def finishings (t : List Event) : ℕ := t.count .finished

@[simp] theorem finishings_append (t es : List Event) :
    finishings (t ++ es) = finishings t + finishings es :=
  List.count_append ..

theorem GoesOn.none_finished {p : Act α} (h : GoesOn p) {es : List Event} {r : Except Panic α}
    (hr : Runs p es r) : finishings es = 0 :=
  List.count_eq_zero.mpr fun hf => Prog.Says.events h hr _ hf rfl

/-- A run of a section finishes the session at most once. -/
theorem FinishesLast.at_most_one {p : Act α} (h : FinishesLast p) {es : List Event}
    {r : Except Panic α} (hr : Runs p es r) : finishings es ≤ 1 := by
  induction hr with
  | done a => exact Nat.zero_le _
  | ask b _ ih => exact ih (h b)
  | @note e p es r hr ih =>
      by_cases he : e = .finished
      · have hrest := GoesOn.none_finished (Rests.goesOn (h.1 he)) hr
        unfold finishings at hrest ⊢
        rw [List.count_cons, hrest]
        split_ifs <;> omega
      · have hle := ih h.2
        unfold finishings at hle ⊢
        rw [List.count_cons_of_ne he]
        exact hle
  | panic w => exact Nat.zero_le _

theorem GoesOn.observed {p : Act α} (h : GoesOn p) (t : List Event) :
    wp observer p (fun t' _ => finishings t' = finishings t) t := by
  induction p generalizing t with
  | done a => rfl
  | ask q next ih =>
      refine ⟨trivial, ?_⟩
      rintro b l rfl
      exact ih b (h.2 b) _
  | note e p ih =>
      refine wp_mono (ih h.2 (t ++ [e])) fun t' a ht => ?_
      have he : finishings [e] = 0 := List.count_eq_zero.mpr (by simpa using Ne.symm h.1)
      rw [ht, finishings_append, he, Nat.add_zero]
  | panic w => trivial

/-- Where a section finishes the session, it leaves it closed. -/
theorem Section.finished_closed (sha256 : Bytes → Bytes) (s : Session) (c : Section)
    (t : List Event) :
    wp observer (c.exec sha256 s)
      (fun t' r => finishings t < finishings t' → r.1.closed = true) t := by
  have hsame : ∀ {α : Type} {p : Act α} {f : α → Session}, GoesOn p →
      wp observer p (fun t' a => finishings t < finishings t' → (f a).closed = true) t :=
    fun hp => wp_mono (GoesOn.observed hp t) fun t' a ht hlt => by omega
  cases hc : c.mayClose with
  | false => exact hsame (f := Prod.fst) (Section.goesOn sha256 s c hc)
  | true =>
      cases c with
      | laneProtocolFailure laneID =>
          show wp observer (TproxyServer.laneProtocolFailure s laneID >>= _) _ t
          rw [wp_bind]
          unfold TproxyServer.laneProtocolFailure
          split_ifs
          · exact hsame (f := id) (releaseWebSocketLane_goesOn s laneID)
          · exact wp_mono (closeLocked_closed s) fun _ _ h _ => h
      | close =>
          exact wp_seq (closeLocked_closed s) fun _ _ h _ => h
      | backendClosed id backend =>
          show wp observer (TproxyServer.backendClosed s id backend >>= _) _ t
          rw [wp_bind]
          unfold TproxyServer.backendClosed
          have hend : ∀ (t₁ : List Event) (s₁ : Session),
              (finishings t < finishings t₁ → s₁.closed = true) →
              wp observer (do
                announce (.cancelled [backend])
                pure s₁ : Act Session)
                (fun t' a => finishings t < finishings t' → a.closed = true) t₁ := by
            intro t₁ s₁ h hlt
            apply h
            rw [show observer.notes t₁ (.cancelled [backend]) = t₁ ++ [.cancelled [backend]]
              from rfl, finishings_append] at hlt
            simpa [finishings] using hlt
          have hnone : ∀ s₁ : Session, finishings t < finishings t → s₁.closed = true :=
            fun _ h => absurd h (Nat.lt_irrefl _)
          cases s.streams.get id with
          | none => exact hend t s (hnone s)
          | some state =>
              dsimp only
              by_cases hstale : s.closed ∨ state.backend ≠ backend
              · rw [if_pos hstale]
                exact hend t s (hnone s)
              · rw [if_neg hstale]
                refine wp_seq (GoesOn.observed (releaseStreamWritesLocked_goesOn _ state) t) ?_
                intro t₁ s₁ h₁
                refine wp_seq (GoesOn.observed (rememberClosedLocked_goesOn _ _) t₁) ?_
                intro t₂ s₂ h₂
                refine wp_seq (GoesOn.observed (queueFrameLocked_goesOn s₂ _ _ _) t₂) ?_
                rintro t₃ ⟨s₃, ok⟩ h₃
                cases ok with
                | true => exact hend t₃ s₃ fun hlt => by omega
                | false => exact wp_seq (closeLocked_closed s₃) fun t₄ s₄ h₄ => hend t₄ s₄ fun _ => h₄
      | _ => cases hc

/-- What is left of a section that a session with this history is in. -/
def Ending (t : List Event) (rest : Act (Session × Reply)) : Prop :=
  finishings t = 0 ∧ FinishesLast rest ∨ finishings t = 1 ∧ Rests rest

/-- **A session finishes at most once**, and is closed when it has. -/
structure Finishes (σ : Traced) : Prop where
  once : finishings σ.trace ≤ 1
  closed : 0 < finishings σ.trace → σ.session.closed = true

theorem Finishes.ending {σ : Traced} (h : Finishes σ) (hr : Reachable sha256 limits carrier σ)
    (c : Section) : Ending σ.trace (c.exec sha256 σ.session) := by
  have honce := h.once
  rcases Nat.eq_zero_or_pos (finishings σ.trace) with h0 | hpos
  · exact .inl ⟨h0, Section.finishesLast sha256 _ c⟩
  · have hclosed := h.closed hpos
    exact .inr ⟨by omega, Section.rests sha256 hclosed (hr.sound.ended hclosed)
      (hr.emptied hclosed) c⟩

theorem Reachable.finishes {σ : Traced} (h : Reachable sha256 limits carrier σ) :
    Finishes σ := by
  induction h with
  | start => exact ⟨Nat.zero_le _, fun h => absurd h (Nat.lt_irrefl _)⟩
  | @step σ σ' c r hr hs ih =>
      have hclosed := hs.of_wp fun _ => Section.finished_closed sha256 σ.session c σ.trace
      have hmono := Changes.closed_mono (hs.changes hr.sound)
      have honce := ih.once
      cases hs with
      | run hc hrun =>
          dsimp only at honce hclosed hmono
          refine ⟨?_, fun hpos => ?_⟩
          · show finishings (_ ++ _) ≤ 1
            rw [finishings_append]
            rcases ih.ending hr c with ⟨h0, hlast⟩ | ⟨h1, hrest⟩
            · have := hlast.at_most_one hrun
              dsimp only at h0
              omega
            · have := GoesOn.none_finished (Rests.goesOn hrest) hrun
              dsimp only at h1
              omega
          · rcases Nat.eq_zero_or_pos (finishings _) with h0 | hpos'
            · exact hclosed (h0.trans_lt hpos)
            · exact hmono (ih.closed hpos')

end TproxyServer
