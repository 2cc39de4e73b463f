import TproxyServer.BudgetAccounting

/-! # A session keeps its books whatever the process answers

`ledger` is a process that always takes charges back.  The code never looks at what it is
answered to a release, so what was proved against the ledger holds of every run: in every
reachable state a session's counters are the charges it holds. -/

namespace TproxyServer

open Interaction Prog

variable {limits : Limits} {carrier : CarrierMode} {s s' : Session} {t : List Event}
  {sha256 : Bytes → Bytes}

/-- The questions that give charges back. -/
def Query.release : Query → Prop
  | .budget cost items _ => cost ≤ 0 ∧ items ≤ 0
  | .acquireStream => False

/-- A program that does not look at the answer to a release. -/
abbrev Settles {α : Type} (p : Act α) : Prop := p.Ignores Query.release

/-! ### The primitives -/

/-- A reservation looks at its answer, but gives nothing back. -/
theorem reservePendingLocked_settles (s : Session) (cost items : ℕ) (cls : PendingClass) :
    Settles (reservePendingLocked s cost items cls) := by
  unfold reservePendingLocked
  dsimp only
  split_ifs with hfits
  · exact trivial
  · refine ⟨?_, fun b => ?_⟩
    · rintro ⟨hcost, -⟩
      omega
    · cases b <;> exact trivial

/-- The one question of this kind is asked here. -/
theorem releasePendingLocked_settles (s : Session) (cost items : ℤ) :
    Settles (releasePendingLocked s cost items) := by
  unfold releasePendingLocked
  split_ifs
  · exact trivial
  · trivial
  · exact ⟨fun _ => rfl, fun _ => trivial⟩

theorem pushFrame_settles (s : Session) (q : QueueRef) (ty : FrameType) (id : ℕ)
    (payload : Bytes) : Settles (pushFrame s q ty id payload) := by
  unfold pushFrame
  dsimp only
  cases (s.queue q).extendable s.limits ty id payload with
  | some last =>
      refine (reservePendingLocked_settles s _ _ _).bind ?_
      rintro ⟨s₁, ok⟩
      cases ok <;> exact trivial
  | none =>
      refine (reservePendingLocked_settles s _ _ _).bind ?_
      rintro ⟨s₁, ok⟩
      cases ok with
      | false => exact trivial
      | true =>
          simp only [if_true, announce_bind]
          apply Prog.Ignores.note
          refine .ite ?_ (trivial)
          cases (s.queue q).pendingWindows with
          | none => trivial
          | some w => exact trivial

theorem queueOn_settles (s : Session) (q : QueueRef) (ty : FrameType) (id : ℕ)
    (payload : Bytes) : Settles (queueOn s q ty id payload) := by
  unfold queueOn
  dsimp only
  cases (s.queue q).windowIndex ty id with
  | none => exact pushFrame_settles ..
  | some index =>
      dsimp only
      cases (s.queue q).pendingFrames[index]? with
      | none => trivial
      | some f =>
          dsimp only
          split_ifs
          · exact trivial
          · exact pushFrame_settles ..

theorem queueFrameLocked_settles (s : Session) (ty : FrameType) (id : ℕ) (payload : Bytes) :
    Settles (queueFrameLocked s ty id payload) := by
  unfold queueFrameLocked
  split_ifs
  · unfold queueLaneFrameLocked
    cases s.carrierLanes.get id with
    | none => exact trivial
    | some lane => exact queueOn_settles ..
  · exact queueOn_settles ..

theorem releaseLaneLocked_settles (s : Session) (lane : CarrierLane) :
    Settles (releaseLaneLocked s lane) := by
  unfold releaseLaneLocked
  dsimp only
  split_ifs
  · exact (releasePendingLocked_settles s _ _).bind fun _ => trivial
  · exact trivial

theorem rememberClosedLocked_settles (s : Session) (id : ℕ) :
    Settles (rememberClosedLocked s id) := by
  have hevict : ∀ s : Session, Settles (evictOldest s id) := by
    intro s
    unfold evictOldest
    simp only [announce_bind]
    apply Prog.Ignores.note
    cases s.carrierLanes.get (s.closedOrder.getD s.closedStart 0) with
    | none => exact trivial
    | some lane => exact (releaseLaneLocked_settles _ lane).bind fun _ => trivial
  unfold rememberClosedLocked
  split_ifs
  · exact trivial
  · dsimp only
    simp only [announce_bind]
    apply Prog.Ignores.note
    split_ifs
    · exact trivial
    · exact (hevict _).bind fun _ => trivial

theorem releaseStreamWritesLocked_settles (s : Session) (state : StreamState) :
    Settles (releaseStreamWritesLocked s state) := by
  unfold releaseStreamWritesLocked
  split_ifs
  · exact releasePendingLocked_settles ..
  · exact trivial

theorem closeLocked_settles (s : Session) : Settles (closeLocked s) := by
  unfold closeLocked
  split_ifs
  · exact trivial
  · simp only [announce_bind]
    apply Prog.Ignores.note
    split_ifs
    · exact ⟨fun _ => rfl, fun _ => trivial⟩
    · exact trivial

/-! ### Applying a batch -/

/-- No frame of a client looks at what its release was answered. -/
theorem applyFrame_settles (r : Applying) (f : Frame) : Settles (applyFrame r f) := by
  have hrefuse : Settles (refuseOpen r f.streamID) := by
    unfold refuseOpen
    refine (rememberClosedLocked_settles r.session _).bind fun s₁ => ?_
    refine (queueFrameLocked_settles s₁ _ _ _).bind ?_
    rintro ⟨s₂, ok⟩
    cases ok <;> exact trivial
  unfold applyFrame
  split_ifs with h0
  · exact trivial
  cases f.type with
  | «open» =>
      have hadmit : ∀ admitted : Bool, Settles (if admitted then do
          announce (.opened f.streamID r.session.nextObject)
          pure { r with
            session := { r.session.putStream f.streamID (newStream r.session.nextObject) with
              nextObject := r.session.nextObject + 1 }
            opened := r.opened ++ [r.session.nextObject] }
        else refuseOpen r f.streamID) := by
        intro admitted
        cases admitted with
        | true => exact trivial
        | false => exact hrefuse
      show Settles (applyOpen r f.streamID)
      unfold applyOpen
      dsimp only
      split_ifs
      · exact hadmit false
      · exact ⟨False.elim, hadmit⟩
  | data =>
      dsimp only
      refine .ite (trivial) ?_
      unfold applyData
      cases r.session.streams.get f.streamID with
      | none => trivial
      | some state => exact trivial
  | window =>
      dsimp only
      refine .ite (trivial) ?_
      unfold applyWindow
      cases r.session.streams.get f.streamID with
      | none => trivial
      | some state => exact trivial
  | close =>
      dsimp only
      refine .ite (trivial) ?_
      unfold applyClose
      cases r.session.streams.get f.streamID with
      | none => trivial
      | some state =>
          exact (releaseStreamWritesLocked_settles _ state).bind fun s₁ =>
            (rememberClosedLocked_settles _ _).bind fun _ => trivial
  | _ => exact trivial

theorem applyLoop_settles (r : Applying) (frames : List Frame) :
    Settles (applyLoop r frames) := by
  induction frames generalizing r with
  | nil => exact trivial
  | cons f rest ih =>
      refine (applyFrame_settles r f).bind fun r₁ => ?_
      exact .ite (ih r₁) (trivial)

/-- The rest of a reservation is given back in the same way. -/
theorem commitBatch_settles (s : Session) (label : Option ℕ) (sequence : ℕ) (body : Bytes)
    (frames : List Frame) : Settles (commitBatch s label sequence body frames) := by
  have hrest : ∀ (p : Session × Bool) (reserved : ℕ × ℕ), Settles (if p.2 = false then
      pure (p.1, BatchOutcome.backpressure)
    else do
      announce (.applying label sequence body)
      let r ← applyBatchLocked p.1 frames reserved.1 reserved.2
      let s ←
        if r.cost ≠ 0 ∨ r.items ≠ 0 then releasePendingLocked r.session r.cost r.items
        else pure r.session
      announce (.cancelled r.closed)
      pure (s, if r.applied then BatchOutcome.applied else .aborted)) := by
    intro p reserved
    refine .ite trivial ?_
    refine (applyLoop_settles _ frames).bind fun r => ?_
    exact .ite ((releasePendingLocked_settles _ _ _).bind fun _ => trivial) trivial
  unfold commitBatch
  refine .ite trivial ?_
  dsimp only
  split_ifs
  · exact (reservePendingLocked_settles s _ _ _).bind fun p => hrest p _
  · exact hrest (s, true) _

theorem processOnLane_settles (s : Session) (lane : CarrierLane) (laneID sequence : ℕ)
    (body : Bytes) (frames : List Frame) :
    Settles (processOnLane sha256 s lane laneID sequence body frames) := by
  unfold processOnLane
  split_ifs
  · exact trivial
  · exact trivial
  · exact trivial
  · exact trivial
  · refine (commitBatch_settles ..).bind ?_
    rintro ⟨s₁, outcome⟩
    cases outcome <;> exact trivial

/-! ### Ending lanes -/

theorem releaseWebSocketLane_settles (s : Session) (laneID : ℕ) :
    Settles (releaseWebSocketLane s laneID) := by
  have hdrop : ∀ s : Session, Settles (dropLane s laneID) := by
    intro s
    unfold dropLane
    cases s.carrierLanes.get laneID with
    | none => exact trivial
    | some lane => exact (releaseLaneLocked_settles s lane).bind fun _ => trivial
  unfold releaseWebSocketLane
  split_ifs
  · exact trivial
  · cases s.carrierLanes.get laneID with
    | none => exact trivial
    | some lane =>
        dsimp only
        cases (s.putLane laneID { lane with websocketActive := false }).streams.get laneID with
        | none => exact hdrop _
        | some state =>
            exact (releaseStreamWritesLocked_settles _ state).bind fun s₁ =>
              (rememberClosedLocked_settles _ _).bind fun s₂ => hdrop s₂

/-! ### Polls -/

theorem pollLoop_settles (s : Session) (q : QueueRef) (cursor mine : ℕ) :
    Settles (pollLoop s q cursor mine) := by
  unfold pollLoop
  dsimp only
  split_ifs <;> exact trivial

/-- So are the charges of a body that is acknowledged. -/
theorem pollOn_settles (s : Session) (q : QueueRef) (cursor : ℕ) :
    Settles (pollOn s q cursor) := by
  have htake : ∀ s : Session,
      Settles (takeOver s q >>= fun r => pollLoop r.1 q cursor r.2) := by
    intro s
    refine Prog.Ignores.bind ?_ fun r => pollLoop_settles ..
    unfold takeOver
    dsimp only
    cases hsuperseded : (s.queue q).superseded with
    | none => exact trivial
    | some channel =>
        dsimp only
        split_ifs <;> exact trivial
  unfold pollOn
  dsimp only
  cases (s.queue q).checkCursor cursor with
  | replay => exact trivial
  | mismatch => exact trivial
  | acknowledge => exact (releasePendingLocked_settles _ _ _).bind fun s₁ => htake _
  | current => exact htake s

theorem pollResume_settles (s : Session) (q : QueueRef) (cursor mine : ℕ) (wake : Wake) :
    Settles (pollResume s q cursor mine wake) := by
  cases wake with
  | cancelled => exact trivial
  | superseded => exact trivial
  | done => exact trivial
  | deadline =>
      unfold pollResume
      dsimp only
      split_ifs
      · exact trivial
      · exact pollLoop_settles ..
      · exact trivial
  | notified => exact pollLoop_settles ..

/-! ### All sections -/

/-- **No section looks at the answer to a release.** -/
theorem Section.settles (s : Session) (c : Section) : Settles (c.exec sha256 s) := by
  have hreply : ∀ {α : Type} {p : Act α} {f : α → Session × Reply}, Settles p →
      Settles (p >>= fun a => pure (f a)) := fun hp => hp.bind fun _ => trivial
  cases c with
  | releaseWebSocketLane laneID => exact hreply (releaseWebSocketLane_settles s laneID)
  | laneProtocolFailure laneID =>
      apply hreply
      unfold TproxyServer.laneProtocolFailure
      exact .ite (releaseWebSocketLane_settles s laneID) (closeLocked_settles s)
  | close => exact hreply (closeLocked_settles s)
  | processUpCommit sequence body =>
      apply hreply
      unfold TproxyServer.processUpCommit
      dsimp only
      refine .ite trivial ?_
      cases clientFrames s.limits body with
      | none => exact trivial
      | some frames =>
          refine (commitBatch_settles ..).bind ?_
          rintro ⟨s₁, outcome⟩
          cases outcome <;> exact trivial
  | processUpLane laneID sequence body =>
      apply hreply
      unfold TproxyServer.processUpLane
      refine .ite trivial ?_
      cases laneFrames s.limits laneID body with
      | none => exact trivial
      | some frames =>
          refine .ite trivial ?_
          cases s.carrierLanes.get laneID with
          | some lane => exact processOnLane_settles ..
          | none => exact .ite trivial (.ite trivial (processOnLane_settles ..))
  | poll cursor =>
      apply hreply
      unfold TproxyServer.poll
      exact .ite trivial (.ite trivial (pollOn_settles ..))
  | pollLane laneID cursor =>
      apply hreply
      unfold TproxyServer.pollLane
      refine .ite trivial (.ite trivial ?_)
      cases s.carrierLanes.get laneID with
      | none => exact trivial
      | some lane => exact pollOn_settles ..
  | pollResume q cursor mine wake => exact hreply (pollResume_settles ..)
  | backendDrained id amount =>
      apply hreply
      unfold TproxyServer.backendDrained
      cases s.streams.get id with
      | none => exact trivial
      | some state =>
          refine .ite trivial ?_
          exact (releasePendingLocked_settles _ _ _).bind fun s₁ => queueFrameLocked_settles ..
  | backendWriteFinished id =>
      apply hreply
      unfold TproxyServer.backendWriteFinished
      cases s.streams.get id with
      | none => exact trivial
      | some state =>
          -- the number itself would be unfolded in unary
          generalize queueItemCost = cost
          refine .ite trivial ?_
          exact (releasePendingLocked_settles _ _ _).bind fun _ => trivial
  | backendData id data =>
      apply hreply
      unfold TproxyServer.backendData
      cases s.streams.get id with
      | none => exact trivial
      | some state => exact .ite trivial (queueFrameLocked_settles ..)
  | backendClosed id backend =>
      apply hreply
      unfold TproxyServer.backendClosed
      cases s.streams.get id with
      | none => exact trivial
      | some state =>
          dsimp only
          refine .ite trivial ?_
          refine (releaseStreamWritesLocked_settles _ state).bind fun s₁ => ?_
          refine (rememberClosedLocked_settles _ _).bind fun s₂ => ?_
          refine (queueFrameLocked_settles s₂ _ _ _).bind ?_
          rintro ⟨s₃, ok⟩
          cases ok with
          | true => exact trivial
          | false => exact (closeLocked_settles s₃).bind fun _ => trivial
  | _ => exact trivial

/-! ### The counters -/

/-- A step keeps the books. -/
theorem Step.balanced {σ σ' : Traced} {c : Section} {r : Reply} (h : Step sha256 σ c r σ')
    (hs : Sound limits carrier σ) (hd : σ.session.Downlinks Downlink.Well)
    (hb : Balanced 0 σ.session) : Balanced 0 σ'.session := by
  have hanswers : ∀ (l : ℤ × ℤ) q b, ledger.demands l q →
      ∃ b', (b' = b ∨ q.release) ∧ ∃ l', ledger.answers l q b' l' := by
    intro l q b hdemand
    cases q with
    | acquireStream => exact ⟨b, .inl rfl, l, rfl⟩
    | budget cost items cls =>
        cases b with
        | true => exact ⟨true, .inl rfl, _, .inl ⟨rfl, rfl⟩⟩
        | false =>
            by_cases hpos : 0 < cost ∨ 0 < items
            · exact ⟨false, .inl rfl, l, .inr ⟨rfl, rfl, hpos⟩⟩
            · simp only [not_or, not_lt] at hpos
              exact ⟨true, .inr hpos, _, .inl ⟨rfl, rfl⟩⟩
  cases h with
  | run hc hr =>
      obtain ⟨l, -, hbalanced⟩ := wp_sound_ignoring hanswers (Section.settles _ _)
        (Section.balanced sha256 hs hd hb _) hr
      exact hbalanced

/-- **The counters of a session are the charges it holds**, in every reachable state, whatever
the process answered. -/
theorem Reachable.balanced {σ : Traced} (h : Reachable sha256 limits carrier σ) :
    Balanced 0 σ.session := by
  induction h with
  | start =>
      show Balanced 0 (newSession limits carrier)
      unfold newSession
      split_ifs <;> exact ⟨rfl, rfl⟩
  | step hr hs ih => exact hs.balanced hr.sound hr.downlinks ih

end TproxyServer
