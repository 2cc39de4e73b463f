import TproxyServer.BatchAgreement
import TproxyServer.Orphans

/-! # The lanes of an `https-lanes` session are few

As long as every body that creates its lane is taken up, every lane but lane zero belongs to
a live stream or a tombstone, so that the limits on these bound the lanes.  A body that
creates its lane and is answered with `ErrBackpressure` leaves a lane behind that nothing
bounds. -/

namespace TproxyServer

open Interaction Prog

variable {limits : Limits} {carrier : CarrierMode} {s s' : Session} {t : List Event}
  {sha256 : Bytes → Bytes}

/-! ### The number of live streams -/

/-- No more streams than `MaxStreamsPerSession`. -/
def Session.FewStreams (s : Session) : Prop := s.streams.size ≤ s.limits.maxStreamsPerSession

theorem Keeps.fewStreams (hk : Keeps s s') (h : s.FewStreams) : s'.FewStreams := by
  unfold Session.FewStreams
  rw [hk.limits]
  exact (Table.size_le_of_keys hk.streams).trans h

theorem Change.fewStreams {scope : Scope} {σ σ' : Traced} (h : Change scope σ σ')
    (hs : σ.session.FewStreams) : σ'.session.FewStreams := by
  cases h with
  | @openStream s t id hopen hlane hlive hclosed hsize _ _ =>
      show (s.streams.put id _).size ≤ _
      rw [Table.size_put_of_none _ _ hlive]
      exact hsize
  | stream hopen hst _ _ => exact (Keeps.putStream _ hst).fewStreams hs
  | drained _ hst _ _ _ _ h _ =>
      exact ((Keeps.putStream _ hst).trans (Keeps.queueResult h).1).fewStreams hs
  | read _ hst _ _ h _ =>
      exact ((Keeps.putStream _ hst).trans (Keeps.queueResult h).1).fewStreams hs
  | queueClose _ _ _ h _ _ _ => exact (Keeps.queueResult h).1.fewStreams hs
  | endStream => exact (Keeps.delStream _ _).fewStreams hs
  | attend => exact (Keeps.setQueue _ _ _).fewStreams hs
  | acknowledge => exact (Keeps.setQueue _ _ _).fewStreams hs
  | deliver => exact (Keeps.setQueue _ _ _).fewStreams hs
  | laneUplink => exact (Keeps.modifyLane _ _ _ _).fewStreams hs
  | close => exact Nat.zero_le _
  | _ => exact hs

/-- **A session has at most `MaxStreamsPerSession` live streams.** -/
theorem Reachable.fewStreams {σ : Traced} (h : Reachable sha256 limits carrier σ) :
    σ.session.FewStreams := by
  refine h.invariant (I := fun τ => τ.session.FewStreams) ?_ fun hc _ hs => hc.fewStreams hs
  unfold newSession
  split_ifs
  · exact Nat.zero_le _
  · exact Nat.zero_le _

/-! ### The first body of a lane -/

/-- `reservePendingLocked` has room for the batch in the session's uplink partition, and the
process answers that it has, too. -/
def Session.Reserves (s : Session) (answers : List Bool) (reserved : ℕ × ℕ) : Prop :=
  reserved = 0 ∨
    reserved.1 ≤ (uplinkPendingLimits s.limits).1 ∧
      reserved.2 ≤ (uplinkPendingLimits s.limits).2 ∧
      s.pendingCost ≤ (uplinkPendingLimits s.limits).1 - reserved.1 ∧
      s.pendingItems ≤ (uplinkPendingLimits s.limits).2 - reserved.2 ∧
      answers.headD true = true

/-- A body that creates its lane has sequence one, is valid, and its DATA is admitted by the
pending budget. -/
def Section.FirstBodyAdmitted (s : Session) (answers : List Bool) : Section → Prop
  | .processUpLane laneID sequence body => ∀ frames, s.Creates laneID body frames →
      sequence = 1 ∧ validateBatchLocked s frames = true ∧
        s.Reserves answers (backendWriteReservationLocked s frames)
  | _ => True

/-- Every DATA frame that is reserved for costs at least its queue item. -/
theorem reservationLoop_cost (live : Finset ℕ) (frames : List Frame) :
    (reservationLoop live frames).2 * queueItemCost ≤ (reservationLoop live frames).1 := by
  induction frames generalizing live with
  | nil => simp [reservationLoop]
  | cons f rest ih =>
      unfold reservationLoop
      by_cases h0 : f.streamID = 0
      · rw [if_pos h0]
        exact ih live
      rw [if_neg h0]
      cases f.type with
      | «open» => exact ih _
      | data =>
          dsimp only
          split_ifs
          · have := ih live
            rw [Nat.add_mul]
            omega
          · exact ih live
      | close => exact ih _
      | _ => exact ih live

/-- A batch that is admitted is taken up. -/
theorem commitBatch_scripted {answers : List Bool} {frames : List Frame}
    (hv : validateBatchLocked s frames = true)
    (hr : s.Reserves answers (backendWriteReservationLocked s frames)) (label : Option ℕ)
    (sequence : ℕ) (body : Bytes) :
    wp scripted (commitBatch s label sequence body frames)
      (fun _ r => r.2 = .applied ∨ r.2 = .aborted) answers := by
  have hcost := reservationLoop_cost s.streams.keys.toFinset frames
  have htrue : ∀ {α : Type} (p : Act α) (l : List Bool), wp scripted p (fun _ _ => True) l :=
    fun p l => wp_true (fun _ _ => trivial) (fun _ => trivial)
  unfold commitBatch
  rw [if_neg (by simp [hv])]
  dsimp only
  have hrest : ∀ (s₁ : Session) (l : List Bool), wp scripted (do
        announce (.applying label sequence body)
        let r ← applyBatchLocked s₁ frames (backendWriteReservationLocked s frames).1
          (backendWriteReservationLocked s frames).2
        let s ←
          if r.cost ≠ 0 ∨ r.items ≠ 0 then releasePendingLocked r.session r.cost r.items
          else pure r.session
        announce (.cancelled r.closed)
        pure (s, if r.applied then BatchOutcome.applied else .aborted))
      (fun _ r => r.2 = .applied ∨ r.2 = .aborted) l := by
    intro s₁ l
    simp only [announce_bind, wp_note]
    refine wp_seq (htrue _ _) ?_
    intro l₂ r _
    have hend : ∀ (s₂ : Session) (l₃ : List Bool), wp scripted
        (pure (s₂, if r.applied then BatchOutcome.applied else .aborted) : Act _)
        (fun _ r => r.2 = .applied ∨ r.2 = .aborted) l₃ := by
      intro s₂ l₃
      cases r.applied
      · exact .inr rfl
      · exact .inl rfl
    by_cases hunused : r.cost ≠ 0 ∨ r.items ≠ 0
    · rw [if_pos hunused]
      exact wp_seq (htrue _ _) fun l₃ s₃ _ => hend s₃ l₃
    · rw [if_neg hunused]
      exact hend r.session l₂
  split_ifs with hne
  · have hpos : (backendWriteReservationLocked s frames).1 ≠ 0 := by
      rcases hne with h | h
      · exact h
      · have hitem : 0 < queueItemCost := by decide
        have := Nat.mul_pos (Nat.pos_of_ne_zero h) hitem
        unfold backendWriteReservationLocked at *
        omega
    rcases hr with h0 | ⟨hc, hi, hpc, hpi, hanswer⟩
    · rw [h0] at hpos
      exact absurd rfl hpos
    unfold reservePendingLocked pendingLimits
    dsimp only
    rw [if_neg (by simp only [not_or, not_lt]; exact ⟨hpos, hc, hi, hpc, hpi⟩)]
    refine ⟨trivial, ?_⟩
    rintro b l' ⟨rfl, rfl⟩
    rw [hanswer]
    exact hrest _ _
  · exact hrest s answers

/-- An admitted first body is taken up. -/
theorem processUpLane_scripted {answers : List Bool} {laneID sequence : ℕ} {body : Bytes}
    {frames : List Frame} (hc : s.Creates laneID body frames)
    (hfirst : (Section.processUpLane laneID sequence body).FirstBodyAdmitted s answers) :
    wp scripted (processUpLane sha256 s laneID sequence body) (fun _ r => r.2.TakenUp)
      answers := by
  obtain ⟨rfl, hv, hr⟩ := hfirst frames hc
  have hne : frames ≠ [] := by
    rintro rfl
    exact absurd hc.opens (by simp)
  unfold processUpLane
  rw [if_neg (by simp [hc.carrier, hc.inRange]), hc.parsed]
  dsimp only
  rw [if_neg (by simp [hc.opened]), hc.missing]
  dsimp only
  rw [if_neg (fun h => h.2.2.1 hc.opens),
    if_neg (by simp only [not_or, not_not]; exact ⟨hc.nonzero, hne, hc.opens⟩)]
  -- the lane is new, and so is the sequence
  unfold processOnLane
  rw [if_neg (by simp [Session.createLane]), if_neg (by simp [Session.createLane]),
    if_neg (by simp [Session.createLane])]
  obtain ⟨lanes, released, hmod⟩ := (s.createLane laneID).1.modifyLane_eq laneID
    (s.createLane laneID).2.object fun l => { l with upActive := true }
  refine wp_seq (commitBatch_scripted (by rw [hmod]; exact hv) (by rw [hmod]; exact hr) _ _ _) ?_
  rintro l₁ ⟨s₁, outcome⟩ (rfl | rfl)
  · exact .inr ⟨1, rfl⟩
  · exact .inl rfl

/-! ### Runs -/

theorem Section.fosters (c : Section) (hlanes : s.carrier = .httpsLanes) (hc : c.Callable s) :
    wp observer (c.exec sha256 s) (fun _ r =>
      (∀ laneID sequence body, c = .processUpLane laneID sequence body →
        (∃ frames, s.Creates laneID body frames) → ∃ up, r.2 = .up up ∧ up.TakenUp) →
      Fosters ∅ s r.1) t := by
  have hany : ∀ {α : Type} {p : Act α} (f : α → Session) (g : α → Reply),
      wp observer p (fun _ a => Fosters ∅ s (f a)) t →
      wp observer (p >>= fun a => pure (f a, g a)) (fun _ r =>
        (∀ laneID sequence body, c = .processUpLane laneID sequence body →
          (∃ frames, s.Creates laneID body frames) → ∃ up, r.2 = .up up ∧ up.TakenUp) →
        Fosters ∅ s r.1) t :=
    fun f g h => wp_seq h fun _ _ ha _ => ha
  cases c with
  | acquireWebSocket =>
      intro _
      show Fosters ∅ s (TproxyServer.acquireWebSocket s).1
      unfold TproxyServer.acquireWebSocket
      rw [if_pos (by simp [hlanes])]
      exact .refl s
  | acquireWebSocketLane laneID =>
      intro _
      show Fosters ∅ s (TproxyServer.acquireWebSocketLane s laneID).1
      unfold TproxyServer.acquireWebSocketLane
      rw [if_pos (by simp [hlanes])]
      exact .refl s
  | releaseWebSocketLane laneID =>
      apply hany
      unfold TproxyServer.releaseWebSocketLane
      rw [if_pos (by simp [hlanes])]
      exact .refl s
  | laneProtocolFailure laneID =>
      apply hany
      unfold TproxyServer.laneProtocolFailure
      rw [if_neg (by simp [hlanes])]
      exact wp_mono (closeLocked_closed s) fun _ _ h => .of_closed h
  | close => exact hany _ _ (wp_mono (closeLocked_closed s) fun _ _ h => .of_closed h)
  | processUpBegin sequence body =>
      intro _
      show Fosters ∅ s (TproxyServer.processUpBegin sha256 s sequence body).1
      unfold TproxyServer.processUpBegin
      rw [if_pos (by simp [Session.usesCarrierLanes, hlanes])]
      exact .refl s
  | processUpCommit sequence body => exact hany _ _ (processUpCommit_fosters s sequence body)
  | processUpLane laneID sequence body =>
      refine wp_seq (processUpLane_fosters s laneID sequence body) ?_
      intro _ r h htaken
      refine h fun hcreates => ?_
      obtain ⟨up, he, hup⟩ := htaken laneID sequence body rfl hcreates
      cases he
      exact hup
  | poll cursor =>
      apply hany
      unfold TproxyServer.poll
      rw [if_pos (by simp [Session.usesCarrierLanes, hlanes])]
      exact .refl s
  | pollLane laneID cursor =>
      apply hany
      unfold TproxyServer.pollLane
      split_ifs
      · exact .refl s
      · exact .refl s
      · cases s.carrierLanes.get laneID with
        | none => exact .refl s
        | some lane => exact pollOn_fosters s _ cursor
  | pollResume q cursor mine wake => exact hany _ _ (pollResume_fosters s q cursor mine wake)
  | takeToken q => exact fun _ => .setQueue s q _
  | nextWrite id => exact fun _ => nextWrite_fosters s id
  | backendDrained id amount => exact hany _ _ (backendDrained_fosters s id amount)
  | backendWriteFinished id => exact hany _ _ (backendWriteFinished_fosters s id)
  | nextReadAllowance id => exact fun _ => .refl s
  | backendData id data => exact hany _ _ (backendData_fosters s id data)
  | backendClosed id backend => exact hany _ _ (backendClosed_fosters s id backend)

/-- Runs of an `https-lanes` session in which every first body is admitted. -/
inductive LaneRun (sha256 : Bytes → Bytes) (limits : Limits) : Traced → Prop
  | start : LaneRun sha256 limits ⟨newSession limits .httpsLanes, []⟩
  | step {σ σ' : Traced} {c : Section} {answers : List Bool} {r : Reply} :
      LaneRun sha256 limits σ → attempt sha256 σ c answers = some (r, σ') →
      c.FirstBodyAdmitted σ.session answers → LaneRun sha256 limits σ'

theorem LaneRun.reachable {σ : Traced} (h : LaneRun sha256 limits σ) :
    Reachable sha256 limits .httpsLanes σ := by
  induction h with
  | start => exact .start
  | step _ hattempt _ ih => exact ih.step (.attempt hattempt)

theorem LaneRun.no_orphans {σ : Traced} (h : LaneRun sha256 limits σ) :
    σ.session.closed = false → ∀ id, ¬ σ.session.Orphan id := by
  induction h with
  | start =>
      intro _ id ho
      obtain ⟨h0, hl, -⟩ := ho
      exact hl (Table.get_put_ne .nil _ h0)
  | @step σ σ' c answers r hrun hattempt hfirst ih =>
      have hstep : Step sha256 σ c r σ' := .attempt hattempt
      have hcarrier := hrun.reachable.sound.carrier_eq
      have hf := hstep.of_wp (Section.fosters c hcarrier) ?_
      · intro hopen id ho
        have hopen' : σ.session.closed = false := by
          by_contra hc
          rw [Bool.not_eq_false] at hc
          rw [hf.closed hc] at hopen
          cases hopen
        exact ih hopen' id (hf.orphans hopen id (Finset.notMem_empty id) ho)
      · rintro laneID sequence body rfl ⟨frames, hcreates⟩
        obtain ⟨-, es, hplay, -⟩ := attempt_eq_some hattempt
        have hw : wp scripted ((Section.processUpLane laneID sequence body).exec sha256 σ.session)
            (fun _ r => ∃ up, r.2 = .up up ∧ up.TakenUp) answers :=
          wp_seq (processUpLane_scripted hcreates hfirst) fun _ r hr => ⟨r.2, rfl, hr⟩
        obtain ⟨-, htaken⟩ := wp_scripted hw hplay
        exact htaken

/-! ### The bound -/

/-- Every lane but lane zero belongs to a live stream or a tombstone, every live stream has
its lane, in which its frames are queued, and the lanes are as few as that makes them. -/
structure LanesBounded (s : Session) : Prop where
  backed : ∀ id, id ≠ 0 → s.carrierLanes.get id ≠ none →
    s.streams.get id ≠ none ∨ id ∈ s.closedStreams
  laned : ∀ id, s.streams.get id ≠ none → ∃ lane, s.carrierLanes.get id = some lane ∧
    ∀ ty payload, queueFrameLocked s ty id payload =
      queueOn s (.lane id lane.object) ty id payload
  count : s.carrierLanes.size ≤
    1 + s.limits.maxStreamsPerSession + s.limits.maxClosedStreamIDs

theorem lanes_count (hs : Sound limits carrier ⟨s, t⟩) (hfew : s.FewStreams)
    (hno : ∀ id, ¬ s.Orphan id) : s.carrierLanes.size ≤
      1 + s.limits.maxStreamsPerSession + s.limits.maxClosedStreamIDs := by
  have hkeys : s.carrierLanes.size ≤ ({0} ∪ s.liveIDs ∪ s.closedStreams).card := by
    apply Table.size_le_card
    intro id hl
    simp only [Finset.mem_union, Finset.mem_singleton, Session.mem_liveIDs]
    by_contra hn
    simp only [not_or, not_not] at hn
    exact hno id ⟨hn.1.1, hl, hn.1.2, hn.2⟩
  have htombs : s.closedStreams.card ≤ s.limits.maxClosedStreamIDs := by
    have hring := hs.ring.length_eq
    have ht := hs.tombstones
    have hl := hs.limits_eq
    dsimp only at hring ht hl
    rw [ht, List.toFinset_card_of_nodup hs.distinct, hring, hl]
    exact Nat.min_le_left _ _
  have hlive : s.liveIDs.card ≤ s.limits.maxStreamsPerSession := by
    rw [Session.liveIDs, ← Table.size_eq_card]
    exact hfew
  have h₁ := Finset.card_union_le ({0} ∪ s.liveIDs) s.closedStreams
  have h₂ := Finset.card_union_le {0} s.liveIDs
  rw [Finset.card_singleton] at h₂
  omega

/-- **The lanes of an `https-lanes` session are bounded by its admitted streams**, in every
open state of every run in which the bodies that create lanes are admitted. -/
theorem lanes_bounded {σ : Traced} (h : LaneRun sha256 limits σ)
    (hopen : σ.session.closed = false) : LanesBounded σ.session := by
  have hs := h.reachable.sound
  have hno := h.no_orphans hopen
  have hlanes : σ.session.usesCarrierLanes = true := by
    rw [hs.usesCarrierLanes]
    rfl
  refine ⟨fun id h0 hl => ?_, fun id hst => ?_,
    lanes_count hs h.reachable.fewStreams hno⟩
  · by_contra hn
    simp only [not_or, not_not] at hn
    exact hno id ⟨h0, hl, hn.1, hn.2⟩
  · obtain ⟨lane, hl⟩ := Option.ne_none_iff_exists'.mp (hs.lanes hlanes id hst)
    refine ⟨lane, hl, fun ty payload => ?_⟩
    unfold queueFrameLocked queueLaneFrameLocked
    rw [if_pos hlanes, hl]

/-- A lane is opened and gets data. -/
theorem lanes_bounded_first_body :
    ∃ σ, LaneRun id defaultLimits σ ∧ σ.session.carrierLanes.size = 2 ∧
      LanesBounded σ.session := by
  let body := encode .open 1 [] ++ encode .data 1 [7]
  have hplay : (attempt id ⟨newSession defaultLimits .httpsLanes, []⟩
      (.processUpLane 1 1 body) []).map (fun p =>
        (p.2.session.closed, p.2.session.carrierLanes.size)) = some (false, 2) := by
    decide +kernel
  obtain ⟨⟨r, σ⟩, hattempt, he⟩ := Option.map_eq_some_iff.mp hplay
  obtain ⟨hopen, hsize⟩ := Prod.mk.inj he
  have hrun : LaneRun id defaultLimits σ := by
    refine .step .start hattempt ?_
    intro frames hcreates
    have hframes : laneFrames defaultLimits 1 body =
        some [⟨.open, 1, []⟩, ⟨.data, 1, [7]⟩] := by
      decide +kernel
    have hparsed := hcreates.parsed
    rw [show (newSession defaultLimits .httpsLanes).limits = defaultLimits from rfl, hframes]
      at hparsed
    cases hparsed
    refine ⟨rfl, by decide +kernel, .inr ?_⟩
    decide +kernel
  exact ⟨σ, hrun, hsize, lanes_bounded hrun hopen⟩

/-- One stream and one tombstone to a session. -/
def oneStream : Limits :=
  { oneTombstone with maxStreamsPerSession := 1 }

/-- While the process has no budget left, every first body with DATA leaves a lane behind:
with one stream and one tombstone at most, four lanes and counting. -/
theorem lanes_unbounded : ∃ σ, Reachable id oneStream .httpsLanes σ ∧
    σ.session.closed = false ∧ ¬ LanesBounded σ.session := by
  let body := fun i => encode .open i [] ++ encode .data i [7]
  have hplay : (play id ⟨newSession oneStream .httpsLanes, []⟩
      [(.processUpLane 1 1 (body 1), [false]), (.processUpLane 2 1 (body 2), [false]),
        (.processUpLane 3 1 (body 3), [false])]).map (fun σ =>
        (σ.session.closed, σ.session.carrierLanes.size,
          1 + σ.session.limits.maxStreamsPerSession + σ.session.limits.maxClosedStreamIDs)) =
      some (false, 4, 3) := by
    decide +kernel
  obtain ⟨σ, hσ, he⟩ := Option.map_eq_some_iff.mp hplay
  simp only [Prod.mk.injEq] at he
  obtain ⟨hopen, hsize, hbound⟩ := he
  refine ⟨σ, Reachable.start.play hσ, hopen, fun hbounded => ?_⟩
  have := hbounded.count
  omega

end TproxyServer
