import TproxyServer.BatchChanges

/-! # Every section is a chain of changes

The sections one by one, and what follows for the reachable states: `Step.changes` turns a
step into a chain of elementary changes, and `Reachable.sound` is the first invariant obtained
that way. -/

namespace TproxyServer

open Interaction Prog

variable {limits : Limits} {carrier : CarrierMode} {s : Session} {t : List Event}

/-! ### Downlinks -/

/-- A queue that is there is written and read back. -/
theorem Session.HasQueue.setQueue {q : QueueRef} (h : s.HasQueue q) (d : Downlink) :
    (s.setQueue q d).HasQueue q ∧ (s.setQueue q d).queue q = d := by
  cases q with
  | session => exact ⟨trivial, rfl⟩
  | lane id object =>
      cases ha : s.attached id object with
      | some l =>
          obtain ⟨hl, rfl⟩ := Session.attached_eq_some.mp ha
          have hput : (s.setQueue (.lane id l.object) d).carrierLanes.get id =
              some { l with down := d } := by
            rw [Session.setQueue_of_get hl, Session.putLane_lanes, Table.get_put_self]
          exact ⟨@Session.hasQueue_of_get _ id { l with down := d } hput,
            @Session.queue_of_get _ id { l with down := d } hput⟩
      | none =>
          obtain ⟨l, hl⟩ := Option.ne_none_iff_exists'.mp (h.resolve_left (by simp [ha]))
          have hrel : (s.setQueue (.lane id object) d).releasedLanes.get object =
              some { l with down := d } := by
            rw [Session.setQueue, Session.modifyLane_released, if_pos ⟨ha, rfl⟩, hl]
            rfl
          have hatt : (s.setQueue (.lane id object) d).attached id object = none := by
            rw [Session.attached, Session.setQueue_lanes]
            cases hg : s.carrierLanes.get id with
            | none => rfl
            | some l' =>
                have hne : l'.object ≠ object := by
                  rintro rfl
                  simp [Session.attached_eq_some.mpr ⟨hg, rfl⟩] at ha
                have hne' : object ≠ l'.object := fun h => hne h.symm
                simp [hne, hne', Option.filter]
          exact ⟨.inr (by simp [hrel]), by simp [Session.queue, hatt, hrel]⟩

/-- The fields that a waiting poll goes by are written; whoever waits there stays, or leaves. -/
theorem attend_changes {scope : Scope} (s : Session) (t : List Event) (q : QueueRef)
    (active : Bool) (superseded : Option ℕ) (notify : Bool)
    (hsuperseded : superseded ≠ none → superseded = (s.queue q).superseded)
    (hscope : scope.polls = true ∨ active = (s.queue q).downActive ∧
      superseded = (s.queue q).superseded ∧ (scope.tokens = true ∨ notify = true)) :
    Changes scope ⟨s, t⟩
      ⟨s.setQueue q { s.queue q with downActive := active, superseded, notify }, t⟩ := by
  by_cases hq : s.HasQueue q
  · exact .single (.attend hq active superseded notify (fun h => .inl (hsuperseded h)) hscope)
  · rw [(Session.setQueue_of_not_hasQueue hq _).1]

theorem leave_changes (s : Session) (t : List Event) (q : QueueRef) :
    Changes .poll ⟨s, t⟩ ⟨s.setQueue q (s.queue q).leave, t⟩ :=
  attend_changes s t q false none (s.queue q).notify (fun h => absurd rfl h) (.inl rfl)

theorem signal_changes {scope : Scope} (s : Session) (t : List Event) (q : QueueRef) :
    Changes scope ⟨s, t⟩ ⟨s.setQueue q (s.queue q).signal, t⟩ :=
  attend_changes s t q (s.queue q).downActive (s.queue q).superseded true (fun _ => rfl)
    (.inr ⟨rfl, rfl, .inr rfl⟩)

/-! ### Polls -/

/-- A section's answer, as far as its changes go. -/
abbrev Within (scope : Scope) (σ : Traced) {α : Type} (t : List Event) (r : Session × α) : Prop :=
  Changes scope σ ⟨r.1, t⟩

/-- One turn of the loop delivers, leaves or waits. -/
theorem pollLoop_obs (q : QueueRef) (cursor mine : ℕ) :
    wp observer (pollLoop s q cursor mine) (Within .poll ⟨s, t⟩) t := by
  unfold pollLoop
  dsimp only
  split_ifs with hmine hframes
  · exact .refl
  · have hq : s.HasQueue q := by
      by_contra hq
      rw [(Session.setQueue_of_not_hasQueue hq {}).2] at hmine
      exact hmine (by simp)
    simp only [announce_bind, wp_note]
    exact .single (.deliver hq (not_not.mp hmine) hframes rfl)
  · exact leave_changes s t q
  · exact leave_changes s t q
  · exact .refl

/-- A poll that arrives puts itself in the place of the one that waits. -/
theorem takeOver_obs {q : QueueRef} (hq : s.HasQueue q) (hunacked : (s.queue q).unacked = []) :
    wp observer (takeOver s q) (Within .poll ⟨s, t⟩) t := by
  have hnew : ∀ s' : Session, s'.HasQueue q → s'.queue q = s.queue q →
      Changes .poll ⟨s', t⟩ ⟨{ s' with nextObject := s'.nextObject + 1 }.setQueue q
        { s.queue q with superseded := some s'.nextObject, downActive := true }, t⟩ := by
    intro s' hq' he
    have hq'' : { s' with nextObject := s'.nextObject + 1 }.HasQueue q := by
      cases q <;> exact hq'
    have he' : { s' with nextObject := s'.nextObject + 1 }.queue q = s.queue q := by
      rw [← he]; cases q <;> rfl
    have hattend : Change .poll ⟨{ s' with nextObject := s'.nextObject + 1 }, t⟩ _ :=
      .attend hq'' true (some s'.nextObject) (s.queue q).notify
        (fun _ => .inr (by rw [he']; exact hunacked)) (.inl rfl)
    rw [he'] at hattend
    exact .head .newObject (.single hattend)
  unfold takeOver
  dsimp only
  split
  · exact hnew s hq rfl
  · split_ifs with hactive hclosed
    · exact hnew s hq rfl
    · trivial
    · refine .head (.closeChannel hclosed rfl) (hnew _ ?_ ?_)
      · cases q <;> exact hq
      · cases q <;> rfl

theorem Downlink.checkCursor_acknowledge {d : Downlink} {cursor : ℕ}
    (h : d.checkCursor cursor = .acknowledge) :
    d.unacked ≠ [] ∧ cursor = d.downCursor ∧ cursor ≠ d.unackedBase := by
  unfold Downlink.checkCursor at h
  split_ifs at h with h₁ h₂ h₃
  exact ⟨fun he => h₁ (by rw [he]; rfl), not_not.mp h₃, h₂⟩

theorem Downlink.checkCursor_current {d : Downlink} {cursor : ℕ}
    (h : d.checkCursor cursor = .current) : d.unacked = [] ∧ cursor = d.downCursor := by
  unfold Downlink.checkCursor at h
  by_cases h₁ : d.unacked.length ≠ 0
  · rw [if_pos h₁] at h
    split_ifs at h
  · rw [if_neg h₁] at h
    split_ifs at h with h₂
    exact ⟨List.length_eq_zero_iff.mp (not_not.mp h₁), not_not.mp h₂⟩

/-- A poll replays, acknowledges or goes on to its loop. -/
theorem pollOn_obs {q : QueueRef} (hq : s.HasQueue q) (cursor : ℕ) :
    wp observer (pollOn s q cursor) (Within .poll ⟨s, t⟩) t := by
  unfold pollOn
  dsimp only
  cases hcheck : (s.queue q).checkCursor cursor with
  | replay => exact .refl
  | mismatch => exact .refl
  | acknowledge =>
      have hunacked := (Downlink.checkCursor_acknowledge hcheck).1
      refine wp_seq (releasePendingLocked_obs s _ _) ?_
      rintro t₁ s₁ ⟨rfl, cost, items, notify, rfl⟩
      have hq₁ : (s.setPending cost items notify).HasQueue q := by cases q <;> exact hq
      have hd : (s.setPending cost items notify).queue q = s.queue q := by cases q <;> rfl
      have hack : Change .poll ⟨s.setPending cost items notify, t₁⟩ _ :=
        .acknowledge hq₁ (by rw [hd]; exact hunacked) rfl
      rw [hd] at hack
      have hset := hq₁.setQueue (s.queue q).acknowledge
      refine wp_seq (takeOver_obs hset.1 (by rw [hset.2]; rfl)) ?_
      rintro t₂ ⟨s₂, mine⟩ h₂
      refine wp_mono (pollLoop_obs q cursor mine) ?_
      exact fun t₃ r₃ h₃ => .head (.pending cost items notify) (.head hack (h₂.trans h₃))
  | current =>
      refine wp_seq (takeOver_obs hq (Downlink.checkCursor_current hcheck).1) ?_
      rintro t₁ ⟨s₁, mine⟩ h₁
      exact wp_mono (pollLoop_obs q cursor mine) fun _ _ h => h₁.trans h

theorem poll_obs (cursor : ℕ) : wp observer (poll s cursor) (Within .poll ⟨s, t⟩) t := by
  unfold poll
  split_ifs
  · exact .refl
  · exact .refl
  · exact pollOn_obs (q := .session) trivial cursor

theorem pollLane_obs (laneID cursor : ℕ) :
    wp observer (pollLane s laneID cursor) (Within .poll ⟨s, t⟩) t := by
  unfold pollLane
  split_ifs
  · exact .refl
  · exact .refl
  · cases hl : s.carrierLanes.get laneID with
    | none => exact .refl
    | some lane => exact pollOn_obs (Session.hasQueue_of_get hl) cursor

theorem pollResume_obs (q : QueueRef) (cursor mine : ℕ) (wake : Wake) :
    wp observer (pollResume s q cursor mine wake) (Within .poll ⟨s, t⟩) t := by
  cases wake with
  | cancelled =>
      unfold pollResume
      dsimp only
      split_ifs
      · exact leave_changes s t q
      · exact .refl
  | superseded => exact signal_changes s t q
  | done =>
      unfold pollResume
      dsimp only
      split_ifs
      · exact leave_changes s t q
      · exact .refl
  | deadline =>
      unfold pollResume
      dsimp only
      split_ifs
      · exact signal_changes s t q
      · exact pollLoop_obs q cursor mine
      · exact leave_changes s t q
  | notified =>
      unfold pollResume
      dsimp only
      split_ifs
      · exact wp_mono (pollLoop_obs q cursor mine) fun _ _ h => (signal_changes s t q).trans h
      · exact pollLoop_obs q cursor mine

/-! ### WebSocket attachment -/

theorem acquireWebSocket_changes : Changes .socket ⟨s, t⟩ ⟨(acquireWebSocket s).1, t⟩ := by
  unfold acquireWebSocket
  split_ifs
  · exact .refl
  · exact .single (.attachSocket rfl)

/-- What `AcquireWebSocketLane` comes to. -/
inductive LaneAcquired (s : Session) (laneID : ℕ) : Session × Bool → Prop
  | refused : LaneAcquired s laneID (s, false)
  | attached {lane : CarrierLane} (hl : s.carrierLanes.get laneID = some lane)
      (hactive : lane.websocketActive = false) :
      LaneAcquired s laneID (s.putLane laneID { lane with websocketActive := true }, true)
  | created (hopen : s.closed = false) (hl : s.carrierLanes.get laneID = none)
      (hrange : laneID ≤ maxStreamID) :
      LaneAcquired s laneID ((s.createLane laneID).1.putLane laneID
        { (s.createLane laneID).2 with websocketActive := true }, true)

theorem acquireWebSocketLane_acquired (s : Session) (laneID : ℕ) :
    LaneAcquired s laneID (acquireWebSocketLane s laneID) := by
  unfold acquireWebSocketLane
  by_cases hbad : s.closed ∨ s.carrier ≠ .webSocketLanes ∨ laneID = 0 ∨ maxStreamID < laneID
  · rw [if_pos hbad]
    exact .refused
  rw [if_neg hbad]
  simp only [not_or, not_lt] at hbad
  by_cases hclosed : laneID ∈ s.closedStreams
  · rw [if_pos hclosed]
    exact .refused
  rw [if_neg hclosed]
  cases hl : s.carrierLanes.get laneID with
  | some lane =>
      dsimp only
      split_ifs with hactive
      · exact .refused
      · exact .attached hl (by simpa using hactive)
  | none =>
      dsimp only
      split_ifs
      · exact .refused
      · exact .created (by simpa using hbad.1) hl hbad.2.2.2

theorem acquireWebSocketLane_changes (laneID : ℕ) :
    Changes .socket ⟨s, t⟩ ⟨(acquireWebSocketLane s laneID).1, t⟩ := by
  have hacquired := acquireWebSocketLane_acquired s laneID
  generalize acquireWebSocketLane s laneID = r at hacquired ⊢
  cases hacquired with
  | refused => exact .refl
  | attached hl _ => exact .single (.touchLane hl rfl rfl rfl rfl rfl)
  | created hopen hl hrange =>
      have hput : (s.createLane laneID).1.carrierLanes.get laneID =
          some (s.createLane laneID).2 := Table.get_put_self s.carrierLanes laneID _
      exact .head (.createLane hopen hl hrange rfl) (.single (.touchLane hput rfl rfl rfl rfl rfl))

/-- The lane of a socket that is gone is dropped, its stream ended first. -/
theorem releaseWebSocketLane_obs (hs : Sound limits carrier ⟨s, t⟩) (laneID : ℕ) :
    wp observer (releaseWebSocketLane s laneID)
      (fun t' s' => Changes .socket ⟨s, t⟩ ⟨s', t'⟩) t := by
  unfold releaseWebSocketLane
  split_ifs with hcarrier
  · exact .refl
  -- the second half, from a session without the stream
  have hdrop : ∀ (s' : Session) (t' : List Event), Changes .socket ⟨s, t⟩ ⟨s', t'⟩ →
      s'.carrier = .webSocketLanes → s'.streams.get laneID = none →
      wp observer (dropLane s' laneID) (fun t' s' => Changes .socket ⟨s, t⟩ ⟨s', t'⟩) t' := by
    intro s' t' hc hcar hlive
    unfold dropLane
    cases hl : s'.carrierLanes.get laneID with
    | none => exact hc
    | some lane =>
        refine wp_seq (releaseLaneLocked_obs s' lane) ?_
        rintro t₁ ⟨s₁, lane₁⟩ ⟨rfl, ⟨cost, items, notify, rfl⟩, rfl⟩
        have : Change .socket ⟨s'.setPending cost items notify, t₁⟩ _ :=
          .dropLane hl hlive hcar rfl
        exact (hc.tail (.pending cost items notify)).tail this
  cases hl : s.carrierLanes.get laneID with
  | none => exact .refl
  | some lane =>
      have htouch : Change .socket ⟨s, t⟩
          ⟨s.putLane laneID { lane with websocketActive := false }, t⟩ :=
        .touchLane hl rfl rfl rfl rfl rfl
      dsimp only
      cases hst : s.streams.get laneID with
      | none =>
          simp only [Session.putLane_streams, hst, pure_bind']
          exact hdrop _ t (.single htouch) (not_not.mp hcarrier) hst
      | some state =>
          have hopen : s.closed = false := by
            by_contra hc
            rw [Bool.not_eq_false] at hc
            simp [hs.ended hc laneID] at hst
          simp only [Session.putLane_streams, hst]
          refine wp_seq (releaseStreamWritesLocked_obs _ state) ?_
          rintro t₁ s₁ ⟨rfl, cost, items, notify, rfl⟩
          have hend : Change .socket ⟨(s.putLane laneID { lane with
              websocketActive := false }).setPending cost items notify, t₁⟩ _ :=
            .endStream hst (hs.disjoint _ (by simp [hst])) rfl
          have hc₁ := ((Relation.ReflTransGen.single htouch).tail
            (.pending cost items notify)).tail hend
          have hhas : True → (((s.putLane laneID { lane with
              websocketActive := false }).setPending cost items notify).delStream
                laneID).HasLane laneID :=
            fun _ _ => by simp [Session.setPending]
          refine wp_seq (rememberClosedLocked_obs (Changes.sound hc₁ hs).toRing hopen (by simp)
            hhas) ?_
          rintro t₂ s₂ ⟨hc₂, hr⟩
          replace hc₂ := Changes.mono (hc₂ trivial) Scope.socket.covers_quiet
          simp only [announce_bind, wp_note]
          refine hdrop s₂ _ ((hc₁.trans hc₂).tail (.silent rfl fun h => absurd ⟨rfl, rfl⟩ h)) ?_ ?_
          · rw [hr.carrier]; exact not_not.mp hcarrier
          · rw [hr.streams]; simp

theorem laneProtocolFailure_obs (hs : Sound limits carrier ⟨s, t⟩) (laneID : ℕ) :
    wp observer (laneProtocolFailure s laneID)
      (fun t' s' => Changes .socket ⟨s, t⟩ ⟨s', t'⟩) t := by
  unfold laneProtocolFailure
  split_ifs
  · exact releaseWebSocketLane_obs hs laneID
  · exact wp_mono (closeLocked_obs s t) fun _ _ h => Changes.mono h Scope.socket.covers_quiet

/-! ### Uplink requests -/

theorem clientFrames_bounds {body : Bytes} {frames : List Frame}
    (h : clientFrames limits body = some frames) :
    ∀ f ∈ frames, f.payload.length ≤ maxPayload ∧ f.streamID ≤ maxStreamID := by
  unfold clientFrames at h
  split at h
  · cases h
  · next hp =>
      split_ifs at h
      cases h
      exact parseAll_bounds hp

theorem clientFrames_size {body : Bytes} {frames : List Frame}
    (h : clientFrames limits body = some frames) :
    ∀ f ∈ frames, f.payload.length ≤ maxPayload :=
  fun f hf => (clientFrames_bounds h f hf).1

/-- The frames of a lane body are of its lane and of a shape that a client may send. -/
theorem laneFrames_spec {laneID : ℕ} {body : Bytes} {frames : List Frame}
    (h : laneFrames limits laneID body = some frames) :
    ∀ f ∈ frames, f.payload.length ≤ maxPayload ∧ validateClientShape f = true ∧
      f.streamID = laneID := by
  unfold laneFrames at h
  split at h
  · cases h
  · next hp =>
      split_ifs at h with hall
      cases h
      intro f hf
      have := List.all_eq_true.mp hall f hf
      simp only [Bool.and_eq_true, decide_eq_true_eq] at this
      exact ⟨(parseAll_bounds hp f hf).1, this.1, this.2⟩

/-- The loop's variables as `ProcessUp` and `ProcessUpLane` hand them to `applyBatchLocked`. -/
def startBatch (s : Session) (frames : List Frame) : Applying where
  session := s
  cost := (backendWriteReservationLocked s frames).1
  items := (backendWriteReservationLocked s frames).2

theorem Covered.start {frames : List Frame} :
    Covered s.liveIDs frames (startBatch s frames) :=
  ⟨Finset.Subset.refl _, le_refl _, le_refl _⟩

theorem applyBatchLocked_obs {frames : List Frame} {laneID : ℕ}
    (hs : Sound limits carrier ⟨s, t⟩) (hopen : s.closed = false) (hlane : s.HasLane laneID)
    (hids : s.usesCarrierLanes = true → ∀ f ∈ frames, f.streamID = laneID)
    (hmax : ∀ f ∈ frames, f.streamID ≤ maxStreamID)
    (hsize : ∀ f ∈ frames, f.payload.length ≤ maxPayload)
    (hv : validateBatchLocked s frames = true) :
    wp observer (applyBatchLocked s frames (backendWriteReservationLocked s frames).1
        (backendWriteReservationLocked s frames).2)
      (LoopDone limits True ⟨s, t⟩ s.closedStreams [] laneID frames [] (startBatch s frames) t)
      t := by
  have hv' : validateLoop s.closedStreams s.snapshot ∅ (frames ++ []) = true := by
    rw [List.append_nil]; exact hv
  exact applyLoop_obs (r := startBatch s frames) (fun _ => hids) (fun _ => hmax) hsize
    (.start hs.toRing hopen fun _ => hlane) hv' (by rw [List.append_nil]; exact .start)

/-- What `commitBatch` leads to: nothing, or the changes of a batch. -/
inductive Committed (label : Option ℕ) (sequence : ℕ) (body : Bytes) (s : Session)
    (t : List Event) : List Event → Session × BatchOutcome → Prop
  | unchanged {outcome : BatchOutcome} (h : outcome = .invalid ∨ outcome = .backpressure) :
      Committed label sequence body s t t (s, outcome)
  | changed {s' : Session} {t' : List Event} {outcome : BatchOutcome}
      (h : outcome = .applied ∨ outcome = .aborted)
      (hc : Changes .batch ⟨s, t ++ [.applying label sequence body]⟩ ⟨s', t'⟩) :
      Committed label sequence body s t t' (s', outcome)

theorem Committed.within {label : Option ℕ} {sequence : ℕ} {body : Bytes} {t' : List Event}
    {r : Session × BatchOutcome} (h : Committed label sequence body s t t' r) :
    Within .commit ⟨s, t⟩ t' r := by
  cases h with
  | unchanged _ => exact .refl
  | changed _ hc =>
      exact .head (.batch rfl label sequence body)
        (Changes.mono hc (show Scope.commit.Covers .batch by decide))

/-- What the observer sees of `commitBatch`, from what it sees of the application. -/
theorem commitBatch_observed {label : Option ℕ} {sequence : ℕ} {body : Bytes}
    {frames : List Frame} {post : List Event → Session × BatchOutcome → Prop}
    (mid : List Event → Applying → Prop) (hinvalid : post t (s, .invalid))
    (hbackpressure : post t (s, .backpressure))
    (happly : validateBatchLocked s frames = true → ∀ s', s.UpToPending s' →
      wp observer (applyBatchLocked s' frames (backendWriteReservationLocked s frames).1
        (backendWriteReservationLocked s frames).2) mid (t ++ [.applying label sequence body]))
    (hend : ∀ t₁ r s₂, mid t₁ r → r.session.UpToPending s₂ →
      post (t₁ ++ [.cancelled r.closed]) (s₂, if r.applied then .applied else .aborted)) :
    wp observer (commitBatch s label sequence body frames) post t := by
  unfold commitBatch
  by_cases hv : validateBatchLocked s frames = false
  · rw [if_pos hv]
    exact hinvalid
  rw [if_neg hv]
  dsimp only
  -- from the reserved session on
  have hrest : ∀ (s' : Session), s.UpToPending s' →
      wp observer (do
        announce (.applying label sequence body)
        let r ← applyBatchLocked s' frames (backendWriteReservationLocked s frames).1
          (backendWriteReservationLocked s frames).2
        let s ←
          if r.cost ≠ 0 ∨ r.items ≠ 0 then releasePendingLocked r.session r.cost r.items
          else pure r.session
        announce (.cancelled r.closed)
        pure (s, if r.applied then BatchOutcome.applied else .aborted)) post t := by
    intro s' hs'
    simp only [announce_bind, wp_note]
    refine wp_seq (happly (by simpa using hv) s' hs') ?_
    intro t₁ r hr
    by_cases hunused : r.cost ≠ 0 ∨ r.items ≠ 0
    · rw [if_pos hunused]
      refine wp_seq (releasePendingLocked_obs r.session _ _) ?_
      rintro t₂ s₂ ⟨rfl, hs₂⟩
      exact hend t₂ r s₂ hr hs₂
    · rw [if_neg hunused]
      exact hend t₁ r r.session hr (.refl _)
  split_ifs
  · refine wp_seq (reservePendingLocked_obs s _ _ _) ?_
    rintro t₁ ⟨s₁, ok⟩ ⟨rfl, hs₁, hno⟩
    cases ok with
    | false =>
        cases hno rfl
        exact hbackpressure
    | true => exact hrest s₁ hs₁
  · exact hrest s (.refl s)

theorem commitBatch_obs {frames : List Frame} (laneID : ℕ) (label : Option ℕ)
    (hs : Sound limits carrier ⟨s, t⟩) (hopen : s.closed = false) (hlane : s.HasLane laneID)
    (hids : s.usesCarrierLanes = true → ∀ f ∈ frames, f.streamID = laneID)
    (hmax : ∀ f ∈ frames, f.streamID ≤ maxStreamID)
    (hsize : ∀ f ∈ frames, f.payload.length ≤ maxPayload) (sequence : ℕ) (body : Bytes) :
    wp observer (commitBatch s label sequence body frames) (Committed label sequence body s t)
      t := by
  refine commitBatch_observed (fun t₁ r =>
    Changes .batch ⟨s, t ++ [.applying label sequence body]⟩ ⟨r.session, t₁⟩)
    (.unchanged (.inl rfl)) (.unchanged (.inr rfl)) ?_ ?_
  · rintro hv s' ⟨cost, items, notify, rfl⟩
    have hs' : Sound limits carrier
        ⟨s.setPending cost items notify, t ++ [.applying label sequence body]⟩ :=
      hs.keeps (Keeps.setPending s cost items notify) rfl
    refine wp_mono (applyBatchLocked_obs hs' hopen hlane hids hmax hsize hv) ?_
    intro t₁ r hr
    exact .head (.pending cost items notify) (hr.changes trivial)
  · rintro t₁ r s₂ hc ⟨cost, items, notify, rfl⟩
    have hrel : Change .batch ⟨r.session, t₁⟩ _ := .pending cost items notify
    refine .changed ?_ ((hc.tail hrel).tail (.silent rfl fun h => absurd ⟨rfl, rfl⟩ h))
    cases r.applied
    · exact .inr rfl
    · exact .inl rfl

/-- The first section of `ProcessUp` takes the uplink, if it comes that far. -/
theorem processUpBegin_changes (sha256 : Bytes → Bytes) (sequence : ℕ) (body : Bytes) :
    Changes .request ⟨s, t⟩ ⟨(processUpBegin sha256 s sequence body).1, t⟩ := by
  unfold processUpBegin
  split_ifs
  all_goals first
    | exact .refl
    | exact .single (.uplink rfl s.lastUpSequence s.lastUpDigest true)

/-- The second commits the batch. -/
theorem processUpCommit_obs (sha256 : Bytes → Bytes) (hs : Sound limits carrier ⟨s, t⟩)
    (hlanes : s.usesCarrierLanes = false) (sequence : ℕ) (body : Bytes) :
    wp observer (processUpCommit sha256 s sequence body) (Within .commit ⟨s, t⟩) t := by
  have hidle : Change .commit ⟨s, t⟩ ⟨{ s with upActive := false }, t⟩ :=
    .uplink rfl s.lastUpSequence s.lastUpDigest false
  unfold processUpCommit
  dsimp only
  split_ifs with hclosed
  · exact .single hidle
  · cases hf : clientFrames s.limits body with
    | none => exact .single hidle
    | some frames =>
        have hno : ∀ id : ℕ, { s with upActive := false }.HasLane id :=
          fun id hu => by
            have : s.usesCarrierLanes = true := hu
            simp [hlanes] at this
        refine wp_seq (commitBatch_obs 0 none (hidle.sound hs) (by simpa using hclosed)
          (hno 0) (fun hu => ?_) (fun f h => (clientFrames_bounds hf f h).2)
          (clientFrames_size hf) sequence body) ?_
        · have : s.usesCarrierLanes = true := hu
          simp [hlanes] at this
        · rintro t₁ ⟨s₁, outcome⟩ hc
          have hc' := Relation.ReflTransGen.head hidle hc.within
          cases outcome with
          | applied => exact hc'.tail (.uplink rfl sequence (sha256 body) s₁.upActive)
          | _ => exact hc'

theorem processOnLane_obs (sha256 : Bytes → Bytes) {lane : CarrierLane} {laneID : ℕ}
    {frames : List Frame} (hs : Sound limits carrier ⟨s, t⟩) (hopen : s.closed = false)
    (hl : s.carrierLanes.get laneID = some lane)
    (hids : ∀ f ∈ frames, f.payload.length ≤ maxPayload ∧ validateClientShape f = true ∧
      f.streamID = laneID) (hmax : laneID ≤ maxStreamID) (sequence : ℕ) (body : Bytes) :
    wp observer (processOnLane sha256 s lane laneID sequence body frames)
      (Within .commit ⟨s, t⟩) t := by
  have hmodify : ∀ (s' : Session) (t' : List Event) (f : CarrierLane → CarrierLane),
      (∀ l, (f l).object = l.object) → (∀ l, (f l).down = l.down) →
      (∀ l, (f l).websocketActive = l.websocketActive) →
      Change .commit ⟨s', t'⟩ ⟨s'.modifyLane laneID lane.object f, t'⟩ :=
    fun s' t' f h₁ h₂ h₃ => .laneUplink rfl laneID lane.object f h₁ h₂ h₃
  unfold processOnLane
  split_ifs
  · exact .refl
  · exact .refl
  · exact .refl
  · exact .refl
  · have hactive := hmodify s t (fun l => { l with upActive := true }) (fun _ => rfl)
      (fun _ => rfl) fun _ => rfl
    have hk := Keeps.modifyLane s laneID lane.object fun l => { l with upActive := true }
    have hlane : (s.modifyLane laneID lane.object fun l => { l with upActive := true }).HasLane
        laneID := by
      intro _
      rw [Session.modifyLane_lanes, hl]
      simp
    have hopen' : (s.modifyLane laneID lane.object fun l =>
        { l with upActive := true }).closed = false := by
      obtain ⟨_, _, he⟩ := s.modifyLane_eq laneID lane.object fun l => { l with upActive := true }
      rw [he]
      exact hopen
    refine wp_seq (commitBatch_obs laneID (some laneID) (hactive.sound hs) hopen' hlane
      (fun _ f hf => (hids f hf).2.2) (fun f hf => (hids f hf).2.2 ▸ hmax)
      (fun f hf => (hids f hf).1) sequence body) ?_
    rintro t₁ ⟨s₁, outcome⟩ hc
    have hc' := (Relation.ReflTransGen.head hactive hc.within).tail
      (hmodify s₁ t₁ (fun l => { l with upActive := false }) (fun _ => rfl) (fun _ => rfl)
        fun _ => rfl)
    cases outcome with
    | applied =>
        exact hc'.tail (hmodify _ t₁
          (fun l => { l with lastUpSequence := sequence, lastUpDigest := sha256 body })
          (fun _ => rfl) (fun _ => rfl) fun _ => rfl)
    | _ => exact hc'

theorem processUpLane_obs (sha256 : Bytes → Bytes) (hs : Sound limits carrier ⟨s, t⟩)
    (laneID sequence : ℕ) (body : Bytes) :
    wp observer (processUpLane sha256 s laneID sequence body) (Within .request ⟨s, t⟩) t := by
  unfold processUpLane
  by_cases hbad : s.usesCarrierLanes = false ∨ maxStreamID < laneID
  · rw [if_pos hbad]
    exact .refl
  rw [if_neg hbad]
  cases hf : laneFrames s.limits laneID body with
  | none => exact .refl
  | some frames =>
      dsimp only
      by_cases hclosed : s.closed = true
      · rw [if_pos hclosed]
        exact .refl
      rw [if_neg hclosed]
      have hopen : s.closed = false := by simpa using hclosed
      have hmax : laneID ≤ maxStreamID := not_lt.mp fun h => hbad (.inr h)
      cases hl : s.carrierLanes.get laneID with
      | some lane =>
          exact wp_mono (processOnLane_obs sha256 hs hopen hl (laneFrames_spec hf) hmax _ _) fun _ _ h =>
            Changes.mono h (show Scope.request.Covers .commit by decide)
      | none =>
          dsimp only
          split_ifs
          · exact .refl
          · exact .refl
          · have hcreate : Change .request ⟨s, t⟩ ⟨(s.createLane laneID).1, t⟩ :=
              .createLane hopen hl hmax rfl
            have hput : (s.createLane laneID).1.carrierLanes.get laneID =
                some (s.createLane laneID).2 := Table.get_put_self s.carrierLanes laneID _
            exact wp_mono (processOnLane_obs sha256 (hcreate.sound hs) hopen hput
              (laneFrames_spec hf) hmax _ _) fun _ _ h =>
                .head hcreate (Changes.mono h (show Scope.request.Covers .commit by decide))

/-! ### Backend callbacks -/

/-- A chunk leaves the queue of writes of its stream. -/
theorem nextWrite_changes (id : ℕ) : Changes .backend ⟨s, t⟩ ⟨(nextWrite s id).1, t⟩ := by
  unfold nextWrite
  split_ifs with hclosed
  · exact .refl
  · cases hst : s.streams.get id with
    | none => exact .refl
    | some state =>
        cases hw : state.writes with
        | nil => simp only [hw]; exact .refl
        | cons chunk writes =>
            simp only [hw]
            have hpop : Change .backend ⟨s, t⟩ ⟨_, t ++ []⟩ :=
              .stream (by simpa using hclosed) hst (.popped hw) (by simp [Scope.backend])
            rw [List.append_nil] at hpop
            exact .single hpop

/-- Bytes that a backend took are credited with a WINDOW. -/
theorem backendDrained_obs (id amount : ℕ) :
    wp observer (backendDrained s id amount) (Within .backend ⟨s, t⟩) t := by
  unfold backendDrained
  cases hst : s.streams.get id with
  | none => exact .refl
  | some state =>
      dsimp only
      split_ifs with hbad
      · exact .refl
      · simp only [not_or, not_lt] at hbad
        obtain ⟨hopen, hpos, hbytes, hcost, hwindow⟩ := hbad
        refine wp_seq (releasePendingLocked_obs _ _ _) ?_
        rintro t₁ s₁ ⟨rfl, cost, items, notify, rfl⟩
        refine wp_mono (queueFrameLocked_obs _ _ _ _) ?_
        rintro t₂ ⟨s₂, ok⟩ ⟨es, rfl, hq⟩
        have hdrain : ((s.putStream id { state with
            pendingWriteBytes := state.pendingWriteBytes - amount
            pendingWriteCost := state.pendingWriteCost - amount }).setPending cost items
              notify).putStream id (state.drain amount) =
            (s.setPending cost items notify).putStream id (state.drain amount) := by
          simp only [Session.putStream, Session.setPending, Table.put_put_self]
        have hq' : QueueResult (((s.putStream id { state with
            pendingWriteBytes := state.pendingWriteBytes - amount
            pendingWriteCost := state.pendingWriteCost - amount }).setPending cost items
              notify).putStream id (state.drain amount)) .window id (windowPayload amount)
            es s₂ ok := hq
        rw [hdrain] at hq'
        have hopen' : (s.setPending cost items notify).closed = false := by
          simpa [Session.setPending] using hopen
        exact .head (.pending cost items notify)
          (.single (.drained hopen' hst hpos hbytes hcost hwindow hq' rfl))

theorem backendWriteFinished_obs (id : ℕ) :
    wp observer (backendWriteFinished s id) (Within .backend ⟨s, t⟩) t := by
  unfold backendWriteFinished
  cases hst : s.streams.get id with
  | none => exact .refl
  | some state =>
      dsimp only
      split_ifs with hbad
      · exact .refl
      · simp only [not_or, not_lt] at hbad
        generalize (queueItemCost : ℤ) = cost
        refine wp_seq (releasePendingLocked_obs _ cost 1) ?_
        rintro t₁ s₁ ⟨rfl, hs₁⟩
        have hfinish : Change .backend ⟨s, t₁⟩ ⟨_, t₁ ++ []⟩ :=
          .stream (by simpa using hbad.1) hst (.finished hbad.2.1 hbad.2.2)
              (by simp [Scope.backend])
        rw [List.append_nil] at hfinish
        exact .head hfinish hs₁.changes

theorem backendData_obs (id : ℕ) (data : Bytes) :
    wp observer (backendData s id data) (Within (.reading data) ⟨s, t⟩) t := by
  unfold backendData
  cases hst : s.streams.get id with
  | none => exact .refl
  | some state =>
      dsimp only
      split_ifs with hbad
      · exact .refl
      · simp only [not_or, not_lt] at hbad
        obtain ⟨hopen, hpos, hcredit⟩ := hbad
        refine wp_mono (queueFrameLocked_obs _ _ _ _) ?_
        rintro t₁ ⟨s₁, ok⟩ ⟨es, rfl, hq⟩
        exact .single (.read (by simpa using hopen) hst hpos hcredit hq ⟨rfl, rfl⟩)

theorem backendClosed_obs (hs : Sound limits carrier ⟨s, t⟩) (id backend : ℕ) :
    wp observer (backendClosed s id backend)
      (fun t' s' => Changes .ending ⟨s, t⟩ ⟨s', t'⟩) t := by
  have hdone : ∀ (s' : Session) (t' : List Event), Changes .ending ⟨s, t⟩ ⟨s', t'⟩ →
      Changes .ending ⟨s, t⟩ ⟨s', t' ++ [.cancelled [backend]]⟩ :=
    fun _ _ h => h.tail (.silent rfl fun h => absurd ⟨rfl, rfl⟩ h)
  unfold backendClosed
  cases hst : s.streams.get id with
  | none => exact hdone s t .refl
  | some state =>
      dsimp only
      split_ifs with hbad
      · exact hdone s t .refl
      · simp only [not_or, not_not] at hbad
        have hopen : s.closed = false := by simpa using hbad.1
        refine wp_seq (releaseStreamWritesLocked_obs _ state) ?_
        rintro t₁ s₁ ⟨rfl, cost, items, notify, rfl⟩
        have hend : Change .ending ⟨s.setPending cost items notify, t₁⟩ _ :=
          .endStream hst (hs.disjoint _ (by simp [hst])) rfl
        have hc₁ : Changes .ending ⟨s, t₁⟩ _ := .head (.pending cost items notify) (.single hend)
        have hhas : True → ((s.setPending cost items notify).delStream id).HasLane id :=
          fun _ hu => hs.lanes hu id (by simp [hst])
        refine wp_seq (rememberClosedLocked_obs (Changes.sound hc₁ hs).toRing hopen (by simp)
          hhas) ?_
        rintro t₂ s₂ ⟨hc₂, hr⟩
        replace hc₂ := Changes.mono (hc₂ trivial) Scope.ending.covers_quiet
        refine wp_seq (queueFrameLocked_obs s₂ .close id []) ?_
        rintro t₃ ⟨s₃, ok⟩ ⟨es, rfl, hq⟩
        obtain ⟨h0, hmax, b, hb⟩ := hs.known id (by simp [hst])
        have hstep : Change .ending ⟨s₂, t₂⟩ ⟨s₃, t₂ ++ es⟩ :=
          .queueClose (hr.closed.trans hopen) (by rw [hr.streams]; simp) hr.mem hq ⟨h0, hmax⟩
            (hr.just (hs.disjoint _ (by simp [hst]))) (.inr ⟨⟨b, hr.past.subset hb⟩, rfl⟩)
        have hc₃ := (hc₁.trans hc₂).tail hstep
        cases ok with
        | true => exact hdone s₃ _ hc₃
        | false =>
            refine wp_seq (closeLocked_obs s₃ _) ?_
            exact fun t₄ s₄ hc₄ => hdone s₄ t₄
              (hc₃.trans (Changes.mono hc₄ Scope.ending.covers_quiet))

/-! ### All sections -/

/-- What each section may do. -/
def Section.scope : Section → Scope
  | .processUpBegin _ _ | .processUpCommit _ _ | .processUpLane _ _ _ => .request
  | .acquireWebSocket | .acquireWebSocketLane _ | .releaseWebSocketLane _
  | .laneProtocolFailure _ => .socket
  | .poll _ | .pollLane _ _ | .pollResume _ _ _ _ => .poll
  | .nextWrite _ | .backendDrained _ _ | .backendWriteFinished _ => .backend
  | .backendData _ data => .reading data
  | .backendClosed _ _ => .ending
  | .takeToken _ => .token
  | _ => .quiet

/-- **Every section is a chain of elementary changes.** -/
theorem Section.changes (sha256 : Bytes → Bytes) (hs : Sound limits carrier ⟨s, t⟩)
    (c : Section) (hcall : c.Callable s) :
    wp observer (c.exec sha256 s) (Within c.scope ⟨s, t⟩) t := by
  cases c with
  | acquireWebSocket => exact acquireWebSocket_changes
  | acquireWebSocketLane laneID => exact acquireWebSocketLane_changes laneID
  | releaseWebSocketLane laneID =>
      exact wp_seq (releaseWebSocketLane_obs hs laneID) fun _ _ h => h
  | laneProtocolFailure laneID =>
      exact wp_seq (laneProtocolFailure_obs hs laneID) fun _ _ h => h
  | close => exact wp_seq (closeLocked_obs s t) fun _ _ h => h
  | processUpBegin sequence body => exact processUpBegin_changes sha256 sequence body
  | processUpCommit sequence body =>
      exact wp_seq (processUpCommit_obs sha256 hs hcall sequence body) fun _ _ h =>
        Changes.mono h (show Scope.request.Covers .commit by decide)
  | processUpLane laneID sequence body =>
      exact wp_seq (processUpLane_obs sha256 hs laneID sequence body) fun _ _ h => h
  | poll cursor => exact wp_seq (poll_obs cursor) fun _ _ h => h
  | pollLane laneID cursor => exact wp_seq (pollLane_obs laneID cursor) fun _ _ h => h
  | pollResume q cursor mine wake =>
      exact wp_seq (pollResume_obs q cursor mine wake) fun _ _ h => h
  | takeToken q =>
      exact attend_changes s t q (s.queue q).downActive (s.queue q).superseded false
        (fun _ => rfl) (.inr ⟨rfl, rfl, .inl rfl⟩)
  | nextWrite id => exact nextWrite_changes id
  | backendDrained id amount => exact wp_seq (backendDrained_obs id amount) fun _ _ h => h
  | backendWriteFinished id => exact wp_seq (backendWriteFinished_obs id) fun _ _ h => h
  | nextReadAllowance id => exact .refl
  | backendData id data => exact wp_seq (backendData_obs id data) fun _ _ h => h
  | backendClosed id backend => exact wp_seq (backendClosed_obs hs id backend) fun _ _ h => h

variable {sha256 : Bytes → Bytes}

theorem Step.changes {σ σ' : Traced} {c : Section} {r : Reply} (h : Step sha256 σ c r σ')
    (hs : Sound limits carrier σ) : Changes c.scope σ σ' :=
  h.of_wp (Section.changes sha256 hs c)

/-- A step keeps the tombstones. -/
theorem Step.sound {σ σ' : Traced} {c : Section} {r : Reply} (h : Step sha256 σ c r σ')
    (hs : Sound limits carrier σ) : Sound limits carrier σ' :=
  (h.changes hs).sound hs

/-- **Tombstones, live streams and lanes agree in every reachable state.** -/
theorem Reachable.sound {σ : Traced} (h : Reachable sha256 limits carrier σ) :
    Sound limits carrier σ := by
  induction h with
  | start => exact newSession_sound limits carrier
  | step _ hstep ih => exact hstep.sound ih

/-- What every change preserves holds in every reachable state. -/
theorem Reachable.invariant {I : Traced → Prop} (hstart : I ⟨newSession limits carrier, []⟩)
    (hstep : ∀ {scope σ σ'}, Change scope σ σ' → Sound limits carrier σ → I σ → I σ')
    {σ : Traced} (h : Reachable sha256 limits carrier σ) : I σ := by
  induction h with
  | start => exact hstart
  | @step σ σ' c r hσ hs ih =>
      exact ((hs.changes hσ.sound).invariant (I := fun τ => Sound limits carrier τ ∧ I τ)
        (fun h hI => ⟨h.sound hI.1, hstep h hI.1 hI.2⟩) ⟨hσ.sound, ih⟩).2

end TproxyServer
