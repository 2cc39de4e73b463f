import TproxyServer.Margins

/-! # Every section keeps the margin

The sections one by one against `margins`, and from them `Section.kept`: a section ends with a
margin that is a part of what the control frames of its session are charged, and while there is
room no control frame is refused, no batch is given up and a backend that ends does not take its
session with it. -/

namespace TproxyServer

open Interaction Prog

variable {limits : Limits} {carrier : CarrierMode} {isOpen : Prop} {m : Margin}
  {s s' : Session} {t : List Event} {r : Applying} {sha256 : Bytes → Bytes}

/-! ### Tombstones and closing -/

theorem Kept.signalLane (h : Kept limits isOpen m s) (id : ℕ) :
    Kept limits isOpen m (s.signalLane id) := by
  unfold Session.signalLane
  cases hl : s.carrierLanes.get id with
  | none => exact h
  | some lane =>
      have hput := @overQueues_putLane s _ _ Downlink.controlHeld id lane
        { lane with down := lane.down.signal } hl
      exact h.of_controls rfl rfl (add_left_cancel hput).ge

theorem priced_signalLane (h : s.Downlinks Downlink.Priced) (id : ℕ) :
    (s.signalLane id).Downlinks Downlink.Priced := by
  unfold Session.signalLane
  cases hl : s.carrierLanes.get id with
  | none => exact h
  | some lane =>
      have hlane := h.lanes id lane hl
      have hsignal : lane.down.signal.Priced := ⟨hlane.frames, hlane.unacked⟩
      exact h.putLane hsignal

/-- The charges of a lane go back before it is dropped. -/
theorem releaseLaneLocked_kept {id : ℕ} {lane : CarrierLane} (h : Kept limits isOpen m s)
    (hp : s.Downlinks Downlink.Priced) (hl : s.carrierLanes.get id = some lane) :
    wp (margins limits isOpen) (releaseLaneLocked s lane)
      (fun m' r => Kept limits isOpen m' (r.1.delLane id r.2) ∧ s.UpToPending r.1 ∧
        r.2 = lane.drop) m := by
  have hdel := overQueues_delLane (f := Downlink.controlHeld) lane.drop hl
  have hcovers : s.controlHeld ≤ lane.down.held + (s.delLane id lane.drop).controlHeld := by
    refine hdel.ge.trans ?_
    exact add_le_add_left (hp.lanes id lane hl).controlHeld_le _
  unfold releaseLaneLocked
  generalize lane.down.held = charges at hcovers ⊢
  obtain ⟨cost, items⟩ := charges
  dsimp only
  split_ifs with hany
  · refine wp_seq (releasePendingLocked_kept h.toSolvent cost items) ?_
    rintro m₁ s₁ ⟨h₁, hsame, hcontrol⟩
    refine ⟨h.released (h₁.of_pending rfl rfl) hcontrol ?_, hsame, rfl⟩
    obtain ⟨_, _, _, rfl⟩ := hsame
    exact hcovers
  · simp only [not_or, not_not] at hany
    obtain ⟨rfl, rfl⟩ := hany
    refine ⟨h.of_controls rfl rfl (hcovers.trans (zero_add _).le), .refl s, rfl⟩

theorem evictOldest_kept (h : Kept limits isOpen m s) (hp : s.Downlinks Downlink.Priced)
    (id : ℕ) :
    wp (margins limits isOpen) (evictOldest s id)
      (fun m' s' => Kept limits isOpen m' s' ∧ s'.Downlinks Downlink.Priced) m := by
  unfold evictOldest
  simp only [announce_bind, wp_note]
  have h₀ : Kept limits isOpen _ { s with
      closedStreams := s.closedStreams.erase (s.closedOrder.getD s.closedStart 0) } :=
    h.noted (e := .evicted (s.closedOrder.getD s.closedStart 0)) (fun _ => rfl) rfl rfl le_rfl
  cases hl : s.carrierLanes.get (s.closedOrder.getD s.closedStart 0) with
  | none => exact ⟨h₀.of_controls rfl rfl le_rfl, hp.congr rfl rfl rfl⟩
  | some lane =>
      refine wp_seq (releaseLaneLocked_kept h₀ (hp.congr rfl rfl rfl) hl) ?_
      rintro m₁ ⟨s₁, lane₁⟩ ⟨h₁, ⟨cost, items, notify, rfl⟩, rfl⟩
      have hdel : (s.delLane (s.closedOrder.getD s.closedStart 0) lane.drop).Downlinks
          Downlink.Priced := hp.delLane (.drop _)
      exact ⟨h₁.of_controls rfl rfl le_rfl, hdel.congr rfl rfl rfl⟩

theorem rememberClosedLocked_kept (h : Kept limits isOpen m s) (hp : s.Downlinks Downlink.Priced)
    (id : ℕ) :
    wp (margins limits isOpen) (rememberClosedLocked s id)
      (fun m' s' => Kept limits isOpen m' s' ∧ s'.Downlinks Downlink.Priced) m := by
  unfold rememberClosedLocked
  split_ifs
  · exact ⟨h, hp⟩
  · dsimp only
    simp only [announce_bind, wp_note]
    have h₀ := h.note (e := .remembered id) fun _ => rfl
    split_ifs
    · have h₁ : Kept limits isOpen _ { s with
          closedStreams := insert id s.closedStreams
          closedOrder := s.closedOrder ++ [id] } := h₀.of_controls rfl rfl le_rfl
      have hp₁ : Session.Downlinks Downlink.Priced { s with
          closedStreams := insert id s.closedStreams
          closedOrder := s.closedOrder ++ [id] } := hp.congr rfl rfl rfl
      exact ⟨h₁.signalLane id, priced_signalLane hp₁ id⟩
    · have h₁ : Kept limits isOpen _ { s with closedStreams := insert id s.closedStreams } :=
        h₀.of_controls rfl rfl le_rfl
      refine wp_seq (evictOldest_kept h₁ (hp.congr rfl rfl rfl) id) ?_
      rintro m₂ s₂ ⟨h₂, hp₂⟩
      exact ⟨h₂.signalLane id, priced_signalLane hp₂ id⟩

/-- The charges of a stream are none of the queues'. -/
theorem releaseStreamWritesLocked_kept (h : Kept limits isOpen m s) (st : StreamState) :
    wp (margins limits isOpen) (releaseStreamWritesLocked s st)
      (fun m' s' => Kept limits isOpen m' s' ∧ s.UpToPending s') m := by
  unfold releaseStreamWritesLocked
  split_ifs
  · exact releasePendingLocked_writes h _ _
  · exact ⟨h, .refl s⟩

/-- A session that closes gives everything back. -/
theorem closeLocked_kept (h : Kept limits isOpen m s) :
    wp (margins limits isOpen) (closeLocked s) (Kept limits isOpen) m := by
  unfold closeLocked
  split_ifs
  · exact h
  · simp only [announce_bind, wp_note]
    have h₀ := h.note (e := .cancelled s.backends) fun _ => rfl
    obtain ⟨hpart, hpartItems⟩ := h.part
    -- nothing is charged any more, so the margin is gone
    have hdone : ∀ (m' : Margin) (s' : Session), s'.limits = s.limits → s'.pendingCost = 0 →
        s'.pendingItems = 0 → m'.control = 0 → m'.frames = m.frames →
        (m'.calm → m'.clean) →
        Kept limits isOpen m' s' := by
      intro m' s' hlimits hcost hitems hcontrol hframes hcalm
      refine ⟨⟨hlimits.trans h.limits_eq, h.reserved, ?_, ?_, ?_, ?_, hcalm⟩, ?_⟩
      · rw [hcost, hitems]
        exact ⟨Nat.zero_le _, Nat.zero_le _⟩
      · rw [hcontrol]
        exact ⟨Nat.zero_le _, Nat.zero_le _⟩
      · rw [hcost, hitems]
        exact ⟨Nat.zero_le _, Nat.zero_le _⟩
      · rw [hcontrol]
        exact ⟨Nat.zero_le _, Nat.zero_le _⟩
      · rw [hcontrol]
        exact ⟨Nat.zero_le _, Nat.zero_le _⟩
    split_ifs with hany
    · refine ⟨trivial, ?_⟩
      rintro granted m₁ ⟨hclean, hcalm, hmoves⟩
      have hrelease : ¬ (0 : ℤ) < -(s.pendingCost : ℤ) := by omega
      simp only [Margin.Moves, if_neg hrelease, neg_neg, Int.toNat_natCast] at hmoves
      obtain ⟨hcontrol, hframes⟩ := hmoves
      refine Kept.note (hdone m₁ _ rfl rfl rfl ?_ hframes fun hc => hclean ▸ h₀.calm (hcalm hc))
        fun _ => rfl
      rw [hcontrol]
      refine Prod.ext ?_ ?_
      · exact Nat.sub_eq_zero_of_le hpart
      · exact Nat.sub_eq_zero_of_le hpartItems
    · simp only [not_or, not_not] at hany
      obtain ⟨hcost, hitems⟩ := hany
      refine Kept.note (hdone _ _ rfl hcost hitems ?_ rfl h₀.calm) fun _ => rfl
      refine Prod.ext ?_ ?_
      · exact Nat.eq_zero_of_le_zero (hcost ▸ hpart)
      · exact Nat.eq_zero_of_le_zero (hitems ▸ hpartItems)

/-! ### Applying a batch -/

/-- In the middle of a batch, which goes on while there is room. -/
abbrev BatchKept (limits : Limits) (isOpen : Prop) (r : Applying) (m : Margin) (r' : Applying) :
    Prop :=
  Kept limits isOpen m r'.session ∧ (m.calm → r'.applied = r.applied)

theorem refuseOpen_kept {id : ℕ} (h : Kept limits isOpen m r.session) (hopen : isOpen)
    (hring : Ring limits ⟨r.session, t⟩) (hopened : r.session.closed = false)
    (hp : r.session.Downlinks Downlink.Priced) (hlive : r.session.streams.get id = none)
    (hlane : r.session.HasLane id) :
    wp (margins limits isOpen) (refuseOpen r id) (BatchKept limits isOpen r) m := by
  unfold refuseOpen
  refine wp_seq (wp_with observer_open (rememberClosedLocked_kept h hp id)
    (rememberClosedLocked_obs hring hopened hlive fun _ : True => hlane)) ?_
  rintro m₁ s₁ ⟨⟨h₁, -⟩, t₁, -, hr⟩
  simp only [announce_bind, wp_note]
  have h₁' := h₁.note (e := .rejected id) fun _ => rfl
  refine wp_seq (queueFrameLocked_kept h₁' (fun _ => ⟨hopen, Nat.zero_le _⟩)
    fun _ => hr.hasLane hlane) ?_
  rintro m₂ ⟨s₂, ok⟩ ⟨h₂, hok⟩
  cases ok with
  | true => exact ⟨h₂, fun _ => rfl⟩
  | false =>
      have hno : ¬ m₂.calm := fun hc => Bool.false_ne_true (hok (by decide) hc)
      exact ⟨h₂.note fun hc => absurd hc.1 hno, fun hc => absurd hc.1 hno⟩

theorem applyOpen_kept {id : ℕ} (h : Kept limits isOpen m r.session) (hopen : isOpen)
    (hring : Ring limits ⟨r.session, t⟩) (hopened : r.session.closed = false)
    (hp : r.session.Downlinks Downlink.Priced) (hlive : r.session.streams.get id = none)
    (hlane : r.session.HasLane id) :
    wp (margins limits isOpen) (applyOpen r id) (BatchKept limits isOpen r) m := by
  unfold applyOpen
  dsimp only
  split_ifs
  · exact refuseOpen_kept h hopen hring hopened hp hlive hlane
  · refine ⟨trivial, ?_⟩
    rintro admitted m₁ ⟨hclean, hcalm, hcontrol, hframes⟩
    have h₁ : Kept limits isOpen m₁ r.session :=
      ⟨h.answered hcontrol hframes hcalm hclean, hcontrol ▸ h.control⟩
    cases admitted with
    | false => exact refuseOpen_kept h₁ hopen hring hopened hp hlive hlane
    | true =>
        exact ⟨h₁.noted (fun _ => rfl) rfl rfl le_rfl, fun _ => rfl⟩

theorem applyFrame_kept {f : Frame} (h : Kept limits isOpen m r.session) (hopen : isOpen)
    (hring : Ring limits ⟨r.session, t⟩) (hopened : r.session.closed = false)
    (hp : r.session.Downlinks Downlink.Priced)
    (hfresh : f.type = .open → f.streamID ≠ 0 → r.session.streams.get f.streamID = none)
    (hlane : r.session.HasLane f.streamID) :
    wp (margins limits isOpen) (applyFrame r f) (BatchKept limits isOpen r) m := by
  unfold applyFrame
  by_cases h0 : f.streamID = 0
  · rw [if_pos h0]
    exact ⟨h, fun _ => rfl⟩
  rw [if_neg h0]
  cases hty : f.type with
  | «open» => exact applyOpen_kept h hopen hring hopened hp (hfresh hty h0) hlane
  | data =>
      dsimp only
      split_ifs
      · exact ⟨h, fun _ => rfl⟩
      · unfold applyData
        cases hst : r.session.streams.get f.streamID with
        | none => trivial
        | some st =>
            exact ⟨h.noted (fun _ => rfl) rfl rfl le_rfl, fun _ => rfl⟩
  | window =>
      dsimp only
      split_ifs
      · exact ⟨h, fun _ => rfl⟩
      · unfold applyWindow
        cases hst : r.session.streams.get f.streamID with
        | none => trivial
        | some st =>
            exact ⟨h.noted (fun _ => rfl) rfl rfl le_rfl, fun _ => rfl⟩
  | close =>
      dsimp only
      split_ifs
      · exact ⟨h, fun _ => rfl⟩
      · unfold applyClose
        cases hst : r.session.streams.get f.streamID with
        | none => trivial
        | some st =>
            refine wp_seq (releaseStreamWritesLocked_kept h st) ?_
            rintro m₁ s₁ ⟨h₁, cost, items, notify, rfl⟩
            have h₁' : Kept limits isOpen m₁
                ((r.session.setPending cost items notify).delStream f.streamID) :=
              h₁.of_controls rfl rfl le_rfl
            refine wp_seq (rememberClosedLocked_kept h₁' (hp.congr rfl rfl rfl) f.streamID) ?_
            rintro m₂ s₂ ⟨h₂, -⟩
            exact ⟨h₂, fun _ => rfl⟩
  | _ => exact ⟨h, fun _ => rfl⟩

/-- **Applying a validated batch** keeps the margin, and while there is room all of it is
applied. -/
theorem applyLoop_kept {σ : Traced} {frozen : Finset ℕ} {live : Table ℕ StreamSnapshot}
    {closed : Finset ℕ} {done : List ℕ} {frames : List Frame} {laneID : ℕ} (hopen : isOpen)
    (hbound : limits.maxFramePayload ≤ maxUint32) (hσ : Sound limits carrier σ)
    (hprices : σ.session.Prices)
    (hids : σ.session.usesCarrierLanes = true → ∀ f ∈ frames, f.streamID = laneID)
    (hmax : ∀ f ∈ frames, f.streamID ≤ maxStreamID)
    (hsize : ∀ f ∈ frames, f.payload.length ≤ maxPayload)
    (ha : Applies limits True σ frozen live closed done laneID r.session t)
    (hv : validateLoop frozen live closed frames = true) (h : Kept limits isOpen m r.session)
    (happlied : r.applied = true) :
    wp (margins limits isOpen) (applyLoop r frames)
      (fun m' r' => Kept limits isOpen m' r'.session ∧ (m'.calm → r'.applied = true)) m := by
  induction frames generalizing r t m live closed done with
  | nil => exact ⟨h, fun _ => happlied⟩
  | cons f frames ih =>
      obtain ⟨live₁, closed₁, hf, hv₁⟩ := validateLoop_cons_inv hv
      have hlane : ∀ r' : Applying, r'.session.carrier = σ.session.carrier →
          r'.session.usesCarrierLanes = true → f.streamID = laneID := fun r' hcarrier hu =>
        hids (by rw [← hu, Session.usesCarrierLanes, Session.usesCarrierLanes, hcarrier]) f
          List.mem_cons_self
      have ha' : Applies limits True σ frozen live closed done f.streamID r.session t :=
        ⟨ha.changes, fun hl hu => hlane r ha.carrier hu ▸ ha.lane hl hu, ha.carrier, ha.ring,
          ha.opened, ha.tracks, ha.recorded⟩
      have hp := (Changes.prices (ha.changes trivial) hσ hbound hprices).priced
      refine wp_seq (wp_with observer_open
        (applyFrame_kept h hopen ha.ring ha.opened hp (ha.open_fresh hf) (ha'.lane trivial))
        (applyFrame_obs ha' hf rfl (fun _ => hmax f List.mem_cons_self)
          (hsize f List.mem_cons_self))) ?_
      rintro m₁ r₁ ⟨⟨h₁, happlied₁⟩, t₁, c₁, d₁, ha₁, -⟩
      have ha₁' : Applies limits True σ frozen live₁ closed₁ (done ++ c₁) laneID r₁.session t₁ :=
        ⟨ha₁.changes, fun hl hu => hlane r₁ ha₁.carrier hu ▸ ha₁.lane hl hu, ha₁.carrier,
          ha₁.ring, ha₁.opened, ha₁.tracks, ha₁.recorded⟩
      by_cases hgo : r₁.applied = true
      · rw [if_pos hgo]
        exact ih (fun hu g hg => hids hu g (List.mem_cons_of_mem f hg))
          (fun g hg => hmax g (List.mem_cons_of_mem f hg))
          (fun g hg => hsize g (List.mem_cons_of_mem f hg)) ha₁' hv₁ h₁ hgo
      · rw [if_neg hgo]
        exact ⟨h₁, fun hc => (happlied₁ hc).trans happlied⟩

/-! ### Uplink requests -/

theorem Session.Prices.setPending (h : s.Prices) (cost items notify : ℕ) :
    (s.setPending cost items notify).Prices :=
  ⟨h.well.congr rfl rfl rfl, h.credit, h.priced.congr rfl rfl rfl⟩

theorem Session.Prices.setQueue {d : Downlink} (h : s.Prices) (hd : d.Well) (hp : d.Priced)
    (q : QueueRef) : (s.setQueue q d).Prices := by
  refine ⟨h.well.setQueue hd q, ?_, h.priced.setQueue hp q⟩
  unfold Session.CreditBounded
  rw [setQueue_streams]
  exact h.credit

/-- **A batch is not given up while there is room.** -/
theorem commitBatch_kept {frames : List Frame} (laneID : ℕ) (label : Option ℕ) (hopen : isOpen)
    (hbound : limits.maxFramePayload ≤ maxUint32) (hs : Sound limits carrier ⟨s, t⟩)
    (hprices : s.Prices) (hopened : s.closed = false) (hlane : s.HasLane laneID)
    (hids : s.usesCarrierLanes = true → ∀ f ∈ frames, f.streamID = laneID)
    (hmax : ∀ f ∈ frames, f.streamID ≤ maxStreamID)
    (hsize : ∀ f ∈ frames, f.payload.length ≤ maxPayload) (h : Kept limits isOpen m s)
    (sequence : ℕ) (body : Bytes) :
    wp (margins limits isOpen) (commitBatch s label sequence body frames)
      (fun m' r => Kept limits isOpen m' r.1 ∧ (m'.calm → r.2 ≠ .aborted)) m := by
  unfold commitBatch
  by_cases hv : validateBatchLocked s frames = false
  · rw [if_pos hv]
    exact ⟨h, by simp⟩
  rw [if_neg hv, Bool.not_eq_false] at *
  dsimp only
  generalize backendWriteReservationLocked s frames = reserved
  -- from the reserved session on
  have hrest : ∀ (m₁ : Margin) (s' : Session), s.UpToPending s' → Kept limits isOpen m₁ s' →
      wp (margins limits isOpen) (do
        announce (.applying label sequence body)
        let r ← applyBatchLocked s' frames reserved.1 reserved.2
        let s ←
          if r.cost ≠ 0 ∨ r.items ≠ 0 then releasePendingLocked r.session r.cost r.items
          else pure r.session
        announce (.cancelled r.closed)
        pure (s, if r.applied then BatchOutcome.applied else .aborted))
      (fun m' r => Kept limits isOpen m' r.1 ∧ (m'.calm → r.2 ≠ .aborted)) m₁ := by
    rintro m₁ s' ⟨cost, items, notify, rfl⟩ h₁
    have hreserve : Change .batch ⟨s, t⟩ ⟨s.setPending cost items notify, t⟩ :=
      .pending cost items notify
    have hsound := hreserve.sound hs
    have ha : Applies limits True ⟨s.setPending cost items notify, t⟩ s.closedStreams s.snapshot
        ∅ [] laneID (s.setPending cost items notify) t :=
      .start hsound.toRing hopened fun _ => hlane
    simp only [announce_bind, wp_note]
    refine wp_seq (applyLoop_kept (r := ⟨s.setPending cost items notify, [], [], reserved.1,
      reserved.2, true⟩) hopen hbound hsound (hprices.setPending cost items notify) hids hmax hsize
      ha hv (h₁.note fun _ => rfl) rfl) ?_
    rintro m₂ r ⟨h₂, happlied⟩
    have houtcome : ∀ m₃ : Margin, (m₃.calm → m₂.calm) → m₃.calm →
        (if r.applied then BatchOutcome.applied else .aborted) ≠ .aborted := by
      intro m₃ hm hc
      rw [if_pos (happlied (hm hc))]
      decide
    by_cases hunused : r.cost ≠ 0 ∨ r.items ≠ 0
    · rw [if_pos hunused]
      refine wp_seq (wp_calm (releasePendingLocked_writes h₂ _ _)) ?_
      rintro m₃ s₃ ⟨⟨h₃, -⟩, hm⟩
      exact ⟨h₃.note fun _ => rfl, fun hc => houtcome m₃ hm hc.1⟩
    · rw [if_neg hunused]
      exact ⟨h₂.note fun _ => rfl, fun hc => houtcome m₂ id hc.1⟩
  split_ifs with hres
  · refine wp_seq (reservePendingLocked_data h.toSolvent _ _ (by decide)) ?_
    rintro m₁ r ⟨h₁, hc₁, rfl | rfl⟩
    · exact ⟨⟨h₁, hc₁ ▸ h.control⟩, by simp⟩
    · exact hrest m₁ _ ⟨_, _, _, rfl⟩ ⟨h₁, hc₁ ▸ h.control⟩
  · exact hrest m s (.refl s) h

/-- The reply tells no batch that was given up while there was room. -/
abbrev AnswerKept (limits : Limits) (isOpen : Prop) (m : Margin) (r : Session × UpReply) : Prop :=
  Kept limits isOpen m r.1 ∧ (m.calm → r.2 ≠ .aborting)

theorem processUpCommit_kept (hopen : s.closed = false → isOpen)
    (hbound : limits.maxFramePayload ≤ maxUint32) (hs : Sound limits carrier ⟨s, t⟩)
    (hprices : s.Prices) (hlanes : s.usesCarrierLanes = false) (h : Kept limits isOpen m s)
    (sequence : ℕ) (body : Bytes) :
    wp (margins limits isOpen) (processUpCommit sha256 s sequence body)
      (AnswerKept limits isOpen) m := by
  have h₀ : Kept limits isOpen m { s with upActive := false } := h.of_controls rfl rfl le_rfl
  unfold processUpCommit
  dsimp only
  split_ifs with hclosed
  · exact ⟨h₀, by simp⟩
  · cases hf : clientFrames s.limits body with
    | none => exact ⟨h₀, by simp⟩
    | some frames =>
        have hidle : Change .commit ⟨s, t⟩ ⟨{ s with upActive := false }, t⟩ :=
          .uplink rfl s.lastUpSequence s.lastUpDigest false
        have hopened : s.closed = false := by simpa using hclosed
        have hno : s.usesCarrierLanes ≠ true := by
          rw [hlanes]
          decide
        refine wp_seq (commitBatch_kept 0 none (hopen hopened) hbound (hidle.sound hs)
          ⟨hprices.well.congr rfl rfl rfl, hprices.credit, hprices.priced.congr rfl rfl rfl⟩
          hopened (fun hu => absurd hu hno) (fun hu => absurd hu hno)
          (fun f hf' => (clientFrames_bounds hf f hf').2) (clientFrames_size hf) h₀ sequence
          body) ?_
        rintro m₁ ⟨s₁, outcome⟩ ⟨h₁, houtcome⟩
        cases outcome with
        | aborted => exact ⟨h₁, fun hc => absurd rfl (houtcome hc)⟩
        | applied => exact ⟨h₁.of_controls rfl rfl le_rfl, by simp⟩
        | _ => exact ⟨h₁, by simp⟩

theorem Kept.modifyLane {id object : ℕ} {f : CarrierLane → CarrierLane}
    (h : Kept limits isOpen m s) (hf : ∀ l, (f l).down = l.down) :
    Kept limits isOpen m (s.modifyLane id object f) := by
  refine h.of_controls ?_ (modifyLane_pending s id object f) (overQueues_modifyLane hf).ge
  obtain ⟨_, _, he⟩ := s.modifyLane_eq id object f
  rw [he]

theorem processOnLane_kept {lane : CarrierLane} {laneID : ℕ} {frames : List Frame} (hopen : isOpen)
    (hbound : limits.maxFramePayload ≤ maxUint32) (hs : Sound limits carrier ⟨s, t⟩)
    (hprices : s.Prices) (hopened : s.closed = false)
    (hl : s.carrierLanes.get laneID = some lane)
    (hids : ∀ f ∈ frames, f.payload.length ≤ maxPayload ∧ validateClientShape f = true ∧
      f.streamID = laneID) (hmax : laneID ≤ maxStreamID) (h : Kept limits isOpen m s)
    (sequence : ℕ) (body : Bytes) :
    wp (margins limits isOpen) (processOnLane sha256 s lane laneID sequence body frames)
      (AnswerKept limits isOpen) m := by
  unfold processOnLane
  split_ifs
  · exact ⟨h, by simp⟩
  · exact ⟨h, by simp⟩
  · exact ⟨h, by simp⟩
  · exact ⟨h, by simp⟩
  · have hactive : Change .commit ⟨s, t⟩
        ⟨s.modifyLane laneID lane.object fun l => { l with upActive := true }, t⟩ :=
      .laneUplink rfl laneID lane.object _ (fun _ => rfl) (fun _ => rfl) fun _ => rfl
    have hlane : (s.modifyLane laneID lane.object fun l => { l with upActive := true }).HasLane
        laneID := by
      intro _
      rw [Session.modifyLane_lanes, hl]
      simp
    have hopened₁ : (s.modifyLane laneID lane.object fun l =>
        { l with upActive := true }).closed = false := by
      obtain ⟨_, _, he⟩ := s.modifyLane_eq laneID lane.object fun l => { l with upActive := true }
      rw [he]
      exact hopened
    refine wp_seq (commitBatch_kept laneID (some laneID) hopen hbound (hactive.sound hs)
      (hactive.prices hs hbound hprices) hopened₁ hlane
      (fun _ f hf => (hids f hf).2.2) (fun f hf => (hids f hf).2.2 ▸ hmax)
      (fun f hf => (hids f hf).1) (h.modifyLane fun _ => rfl) sequence body) ?_
    rintro m₁ ⟨s₁, outcome⟩ ⟨h₁, houtcome⟩
    have h₂ : Kept limits isOpen m₁ (s₁.modifyLane laneID lane.object fun l =>
        { l with upActive := false }) := h₁.modifyLane fun _ => rfl
    cases outcome with
    | aborted => exact ⟨h₂, fun hc => absurd rfl (houtcome hc)⟩
    | applied => exact ⟨h₂.modifyLane fun _ => rfl, by simp⟩
    | _ => exact ⟨h₂, by simp⟩

theorem Kept.createLane {id : ℕ} (h : Kept limits isOpen m s)
    (hl : s.carrierLanes.get id = none) : Kept limits isOpen m (s.createLane id).1 := by
  refine h.of_controls rfl rfl ?_
  refine le_trans ?_ (overQueues_newLane (f := Downlink.controlHeld)
    { object := s.nextObject } hl).ge
  exact le_add_of_nonneg_left ⟨Nat.zero_le _, Nat.zero_le _⟩

theorem processUpLane_kept (hopen : s.closed = false → isOpen)
    (hbound : limits.maxFramePayload ≤ maxUint32) (hs : Sound limits carrier ⟨s, t⟩)
    (hprices : s.Prices) (h : Kept limits isOpen m s) (laneID sequence : ℕ) (body : Bytes) :
    wp (margins limits isOpen) (processUpLane sha256 s laneID sequence body)
      (AnswerKept limits isOpen) m := by
  unfold processUpLane
  by_cases hbad : s.usesCarrierLanes = false ∨ maxStreamID < laneID
  · rw [if_pos hbad]
    exact ⟨h, by simp⟩
  rw [if_neg hbad]
  cases hf : laneFrames s.limits laneID body with
  | none => exact ⟨h, by simp⟩
  | some frames =>
      dsimp only
      by_cases hclosed : s.closed = true
      · rw [if_pos hclosed]
        exact ⟨h, by simp⟩
      rw [if_neg hclosed]
      have hopened : s.closed = false := by simpa using hclosed
      have hmax : laneID ≤ maxStreamID := not_lt.mp fun h => hbad (.inr h)
      cases hl : s.carrierLanes.get laneID with
      | some lane =>
          exact processOnLane_kept (hopen hopened) hbound hs hprices hopened hl (laneFrames_spec hf)
            hmax h _ _
      | none =>
          dsimp only
          split_ifs
          · exact ⟨h, by simp⟩
          · exact ⟨h, by simp⟩
          · have hcreate : Change .request ⟨s, t⟩ ⟨(s.createLane laneID).1, t⟩ :=
              .createLane hopened hl hmax rfl
            have hput : (s.createLane laneID).1.carrierLanes.get laneID =
                some (s.createLane laneID).2 := Table.get_put_self s.carrierLanes laneID _
            exact processOnLane_kept (hopen hopened) hbound (hcreate.sound hs)
              (hcreate.prices hs hbound hprices) hopened hput (laneFrames_spec hf) hmax
              (h.createLane hl) _ _

/-! ### WebSocket attachment -/

theorem Kept.touchLane {id : ℕ} {l l' : CarrierLane} (h : Kept limits isOpen m s)
    (hl : s.carrierLanes.get id = some l) (hdown : l'.down = l.down) :
    Kept limits isOpen m (s.putLane id l') := by
  have hput := overQueues_putLane (f := Downlink.controlHeld) l' hl
  rw [hdown] at hput
  exact h.of_controls rfl rfl (add_left_cancel hput).ge

theorem acquireWebSocketLane_kept (h : Kept limits isOpen m s) (laneID : ℕ) :
    Kept limits isOpen m (acquireWebSocketLane s laneID).1 := by
  have hacquired := acquireWebSocketLane_acquired s laneID
  generalize acquireWebSocketLane s laneID = r at hacquired ⊢
  cases hacquired with
  | refused => exact h
  | attached hl _ => exact h.touchLane hl rfl
  | created _ hl _ =>
      have hput : (s.createLane laneID).1.carrierLanes.get laneID =
          some (s.createLane laneID).2 := Table.get_put_self s.carrierLanes laneID _
      exact (h.createLane hl).touchLane hput rfl

theorem dropLane_kept (h : Kept limits isOpen m s) (hp : s.Downlinks Downlink.Priced)
    (laneID : ℕ) : wp (margins limits isOpen) (dropLane s laneID) (Kept limits isOpen) m := by
  unfold dropLane
  cases hl : s.carrierLanes.get laneID with
  | none => exact h
  | some lane =>
      refine wp_seq (releaseLaneLocked_kept h hp hl) ?_
      rintro m₁ ⟨s₁, lane₁⟩ ⟨h₁, -, rfl⟩
      exact h₁

theorem releaseWebSocketLane_kept (h : Kept limits isOpen m s)
    (hp : s.Downlinks Downlink.Priced) (laneID : ℕ) :
    wp (margins limits isOpen) (releaseWebSocketLane s laneID) (Kept limits isOpen) m := by
  unfold releaseWebSocketLane
  split_ifs
  · exact h
  cases hl : s.carrierLanes.get laneID with
  | none => exact h
  | some lane =>
      have h₀ : Kept limits isOpen m (s.putLane laneID { lane with websocketActive := false }) :=
        h.touchLane hl rfl
      have hp₀ : (s.putLane laneID { lane with websocketActive := false }).Downlinks
          Downlink.Priced := hp.putLane (hp.lanes laneID lane hl)
      dsimp only
      cases hst : s.streams.get laneID with
      | none =>
          simp only [Session.putLane_streams, hst, pure_bind']
          exact dropLane_kept h₀ hp₀ laneID
      | some state =>
          simp only [Session.putLane_streams, hst]
          refine wp_seq (releaseStreamWritesLocked_kept h₀ state) ?_
          rintro m₁ s₁ ⟨h₁, hsame⟩
          have hp₁ : (s₁.delStream laneID).Downlinks Downlink.Priced := by
            obtain ⟨_, _, _, rfl⟩ := hsame
            exact hp₀.congr rfl rfl rfl
          have h₁' : Kept limits isOpen m₁ (s₁.delStream laneID) := h₁.of_controls rfl rfl le_rfl
          refine wp_seq (rememberClosedLocked_kept h₁' hp₁ laneID) ?_
          rintro m₂ s₂ ⟨h₂, hp₂⟩
          exact dropLane_kept (h₂.note fun _ => rfl) hp₂ laneID

theorem laneProtocolFailure_kept (h : Kept limits isOpen m s) (hp : s.Downlinks Downlink.Priced)
    (laneID : ℕ) :
    wp (margins limits isOpen) (laneProtocolFailure s laneID) (Kept limits isOpen) m := by
  unfold laneProtocolFailure
  split_ifs
  · exact releaseWebSocketLane_kept h hp laneID
  · exact closeLocked_kept h

/-! ### Polls -/

/-- The postcondition of what refuses nothing. -/
abbrev KeptOn {α : Type} (limits : Limits) (isOpen : Prop) (m : Margin) (r : Session × α) : Prop :=
  Kept limits isOpen m r.1

theorem pollLoop_kept (h : Kept limits isOpen m s) (hprices : s.Prices) (q : QueueRef)
    (cursor mine : ℕ) :
    wp (margins limits isOpen) (pollLoop s q cursor mine) (KeptOn limits isOpen) m := by
  have hleave : Kept limits isOpen m (s.setQueue q (s.queue q).leave) := h.setQueue rfl
  unfold pollLoop
  dsimp only
  split_ifs with hmine hframes
  · exact h
  · have hwell := hprices.well.queue .new q
    have hparked : (s.queue q).superseded ≠ none := by rw [not_not.mp hmine]; simp
    exact (h.setQueue ((hprices.priced.queue .new q).takeBatch hwell s.limits cursor
      (hwell.parked hparked)).2).note fun _ => rfl
  · exact hleave
  · exact hleave
  · exact h

theorem takeOver_kept (h : Kept limits isOpen m s) (q : QueueRef) :
    wp (margins limits isOpen) (takeOver s q) (KeptOn limits isOpen) m := by
  have hnew : ∀ s' : Session, Kept limits isOpen m s' → s'.queue q = s.queue q →
      Kept limits isOpen m ({ s' with nextObject := s'.nextObject + 1 }.setQueue q
        { s.queue q with superseded := some s'.nextObject, downActive := true }) := by
    intro s' h' he
    have hsame : { s' with nextObject := s'.nextObject + 1 }.queue q = s.queue q := by
      rw [← he]
      cases q <;> rfl
    have h'' : Kept limits isOpen m { s' with nextObject := s'.nextObject + 1 } :=
      h'.of_controls rfl rfl le_rfl
    exact h''.setQueue (by rw [hsame]; rfl)
  unfold takeOver
  dsimp only
  split
  · exact hnew s h rfl
  · next channel _ =>
      have h' : Kept limits isOpen m { s with
          closedChannels := insert channel s.closedChannels } := h.of_controls rfl rfl le_rfl
      split_ifs
      · exact hnew s h rfl
      · trivial
      · exact hnew _ h' (by cases q <;> rfl)

theorem takeOver_pollLoop_kept {q : QueueRef} (h : Kept limits isOpen m s)
    (hbound : limits.maxFramePayload ≤ maxUint32) (hs : Sound limits carrier ⟨s, t⟩)
    (hprices : s.Prices) (hq : s.HasQueue q) (hunacked : (s.queue q).unacked = []) (cursor : ℕ) :
    wp (margins limits isOpen) (do
      let (s, mine) ← takeOver s q
      pollLoop s q cursor mine) (KeptOn limits isOpen) m := by
  refine wp_seq (wp_with observer_open (takeOver_kept h q) (takeOver_obs (t := t) hq hunacked)) ?_
  rintro m₁ ⟨s₁, mine⟩ ⟨h₁, t₁, hc₁⟩
  exact pollLoop_kept h₁ (Changes.prices hc₁ hs hbound hprices) q cursor mine

/-- An acknowledgement gives the charges of its batch back, those of control frames with it. -/
theorem acknowledge_kept {q : QueueRef} (h : Kept limits isOpen m s)
    (hp : s.Downlinks Downlink.Priced)
    (hq : ∀ i object, q = .lane i object → s.attached i object ≠ none) :
    wp (margins limits isOpen)
      (releasePendingLocked s (s.queue q).unackedCost (s.queue q).unackedItems)
      (fun m' s' => s.UpToPending s' ∧
        Kept limits isOpen m' (s'.setQueue q (s.queue q).acknowledge)) m := by
  have hack := (hp.queue .new q).controlHeld_acknowledge
  refine wp_mono (releasePendingLocked_kept h.toSolvent _ _) ?_
  rintro m₁ s₁ ⟨h₁, hsame, hcontrol⟩
  refine ⟨hsame, h.released (h₁.of_pending (setQueue_limits _ q _) (setQueue_pending _ q _))
    hcontrol ?_⟩
  obtain ⟨cost, items, notify, rfl⟩ := hsame
  have hqueue : (s.setPending cost items notify).queue q = s.queue q := by cases q <;> rfl
  have hput := overQueues_setQueue (f := Downlink.controlHeld)
    (s := s.setPending cost items notify) (s.queue q).acknowledge hq
  rw [hqueue] at hput
  refine le_of_add_le_add_left (a := (s.queue q).acknowledge.controlHeld) ?_
  refine hput.ge.trans ((add_le_add_left hack _).trans_eq ?_)
  rw [add_comm _ (s.queue q).acknowledge.controlHeld, add_assoc]
  rfl

theorem pollOn_kept {q : QueueRef} (h : Kept limits isOpen m s)
    (hbound : limits.maxFramePayload ≤ maxUint32) (hs : Sound limits carrier ⟨s, t⟩)
    (hprices : s.Prices) (hq : ∀ i object, q = .lane i object → s.attached i object ≠ none)
    (hqueue : s.HasQueue q) (cursor : ℕ) :
    wp (margins limits isOpen) (pollOn s q cursor) (KeptOn limits isOpen) m := by
  unfold pollOn
  dsimp only
  cases hcheck : (s.queue q).checkCursor cursor with
  | replay => exact h
  | mismatch => exact h
  | acknowledge =>
      refine wp_seq (acknowledge_kept h hprices.priced hq) ?_
      rintro m₁ s₁ ⟨⟨cost, items, notify, rfl⟩, h₁⟩
      have hqueue₁ : (s.setPending cost items notify).HasQueue q := by cases q <;> exact hqueue
      have hd : (s.setPending cost items notify).queue q = s.queue q := by cases q <;> rfl
      have hack : Change .poll ⟨s.setPending cost items notify, t⟩ _ :=
        .acknowledge hqueue₁ (by rw [hd]; exact (Downlink.checkCursor_acknowledge hcheck).1) rfl
      rw [hd] at hack
      have hc₁ : Changes .poll ⟨s, t⟩ _ := .head (.pending cost items notify) (.single hack)
      have hset := hqueue₁.setQueue (s.queue q).acknowledge
      exact takeOver_pollLoop_kept h₁ hbound (Changes.sound hc₁ hs)
        (Changes.prices hc₁ hs hbound hprices) hset.1 (by rw [hset.2]; rfl) cursor
  | current =>
      exact takeOver_pollLoop_kept h hbound hs hprices hqueue
        (Downlink.checkCursor_current hcheck).1 cursor

theorem poll_kept (h : Kept limits isOpen m s)
    (hbound : limits.maxFramePayload ≤ maxUint32) (hs : Sound limits carrier ⟨s, t⟩)
    (hprices : s.Prices) (cursor : ℕ) :
    wp (margins limits isOpen) (poll s cursor) (KeptOn limits isOpen) m := by
  unfold poll
  split_ifs
  · exact h
  · exact h
  · exact pollOn_kept (q := .session) h hbound hs hprices (by simp) trivial cursor

theorem pollLane_kept (h : Kept limits isOpen m s)
    (hbound : limits.maxFramePayload ≤ maxUint32) (hs : Sound limits carrier ⟨s, t⟩)
    (hprices : s.Prices) (laneID cursor : ℕ) :
    wp (margins limits isOpen) (pollLane s laneID cursor) (KeptOn limits isOpen) m := by
  unfold pollLane
  split_ifs
  · exact h
  · exact h
  · cases hl : s.carrierLanes.get laneID with
    | none => exact h
    | some lane =>
        refine pollOn_kept h hbound hs hprices ?_ (Session.hasQueue_of_get hl) cursor
        rintro i object hlane
        cases hlane
        rw [Session.attached_eq_some.mpr ⟨hl, rfl⟩]
        simp

theorem pollResume_kept (h : Kept limits isOpen m s) (hprices : s.Prices) (q : QueueRef)
    (cursor mine : ℕ) (wake : Wake) :
    wp (margins limits isOpen) (pollResume s q cursor mine wake) (KeptOn limits isOpen) m := by
  have hset : ∀ d : Downlink, d.controlHeld = (s.queue q).controlHeld →
      Kept limits isOpen m (s.setQueue q d) := fun d hd => h.setQueue hd
  cases wake with
  | cancelled =>
      unfold pollResume
      dsimp only
      split_ifs
      · exact hset _ rfl
      · exact h
  | superseded => exact hset _ rfl
  | done =>
      unfold pollResume
      dsimp only
      split_ifs
      · exact hset _ rfl
      · exact h
  | deadline =>
      unfold pollResume
      dsimp only
      split_ifs
      · exact hset _ rfl
      · exact pollLoop_kept h hprices q cursor mine
      · exact hset _ rfl
  | notified =>
      unfold pollResume
      dsimp only
      split_ifs
      · have hd := hprices.priced.queue .new q
        have hprices' := hprices.setQueue (hprices.well.queue .new q).signal
          ⟨hd.frames, hd.unacked⟩ q
        exact pollLoop_kept (hset (s.queue q).signal rfl) hprices' q cursor mine
      · exact pollLoop_kept h hprices q cursor mine

/-! ### Backend callbacks -/

theorem nextWrite_kept (h : Kept limits isOpen m s) (id : ℕ) :
    Kept limits isOpen m (nextWrite s id).1 := by
  unfold nextWrite
  split_ifs
  · exact h
  · cases hst : s.streams.get id with
    | none => exact h
    | some state =>
        cases hw : state.writes with
        | nil =>
            simp only [hw]
            exact h
        | cons chunk writes =>
            simp only [hw]
            have h' : Kept limits isOpen m (s.putStream id { state with writes }) :=
              h.of_controls rfl rfl le_rfl
            exact h'

theorem backendDrained_kept (hopen : s.closed = false → isOpen)
    (hs : Sound limits carrier ⟨s, t⟩) (h : Kept limits isOpen m s) (id amount : ℕ) :
    wp (margins limits isOpen) (backendDrained s id amount) (KeptOn limits isOpen) m := by
  unfold backendDrained
  cases hst : s.streams.get id with
  | none => exact h
  | some state =>
      dsimp only
      split_ifs with hbad
      · exact h
      · have hopened : s.closed = false := by simpa using (not_or.mp hbad).1
        have h₀ : Kept limits isOpen m (s.putStream id { state with
            pendingWriteBytes := state.pendingWriteBytes - amount
            pendingWriteCost := state.pendingWriteCost - amount }) := h.of_controls rfl rfl le_rfl
        refine wp_seq (releasePendingLocked_writes h₀ amount 0) ?_
        rintro m₁ s₁ ⟨h₁, cost, items, notify, rfl⟩
        refine wp_mono (queueFrameLocked_kept (h₁.of_controls rfl rfl le_rfl)
          (fun _ => ⟨hopen hopened, le_rfl⟩)
          fun _ hu => hs.lanes hu id (by simp [hst])) ?_
        exact fun _ _ h₂ => h₂.1

theorem backendWriteFinished_kept (h : Kept limits isOpen m s) (id : ℕ) :
    wp (margins limits isOpen) (backendWriteFinished s id) (KeptOn limits isOpen) m := by
  unfold backendWriteFinished
  cases hst : s.streams.get id with
  | none => exact h
  | some state =>
      dsimp only
      split_ifs with hbad
      · exact h
      · generalize queueItemCost = cost
        have h₀ : Kept limits isOpen m (s.putStream id { state with
            pendingWriteItems := state.pendingWriteItems - 1
            pendingWriteCost := state.pendingWriteCost - cost }) := h.of_controls rfl rfl le_rfl
        exact wp_seq (releasePendingLocked_writes h₀ cost 1) fun _ _ h₁ => h₁.1

theorem backendData_kept (h : Kept limits isOpen m s) (id : ℕ) (data : Bytes) :
    wp (margins limits isOpen) (backendData s id data) (KeptOn limits isOpen) m := by
  unfold backendData
  cases hst : s.streams.get id with
  | none => exact h
  | some state =>
      dsimp only
      split_ifs
      · exact h
      · refine wp_mono (@queueFrameLocked_kept _ _ _ _ .data _ _ (h.of_controls rfl rfl le_rfl)
          (fun hne => absurd rfl hne) fun hne => absurd rfl hne) ?_
        exact fun _ _ h₁ => h₁.1

theorem QueueResult.closed {ty : FrameType} {id : ℕ} {payload : Bytes} {es : List Event}
    {ok : Bool} (h : QueueResult s ty id payload es s' ok) : s'.closed = s.closed := by
  cases h with
  | refused => rfl
  | @accepted q d cost items notify _ _ =>
      obtain ⟨_, _, _, he⟩ := (s.setPending cost items notify).setQueue_eq q d
      rw [he]
      rfl

/-- A backend that ends leaves its session open while there is room. -/
theorem backendClosed_kept (hopen : s.closed = false → isOpen)
    (hs : Sound limits carrier ⟨s, t⟩) (hp : s.Downlinks Downlink.Priced)
    (h : Kept limits isOpen m s) (id backend : ℕ) :
    wp (margins limits isOpen) (backendClosed s id backend)
      (fun m' s' => Kept limits isOpen m' s' ∧ (m'.calm → s'.closed = s.closed)) m := by
  unfold backendClosed
  cases hst : s.streams.get id with
  | none => exact ⟨h.note fun _ => rfl, fun _ => rfl⟩
  | some state =>
      dsimp only
      split_ifs with hbad
      · exact ⟨h.note fun _ => rfl, fun _ => rfl⟩
      · have hopened : s.closed = false := by simpa using (not_or.mp hbad).1
        refine wp_seq (releaseStreamWritesLocked_kept h state) ?_
        rintro m₁ s₁ ⟨h₁, cost, items, notify, rfl⟩
        have hend : Change .ending ⟨s.setPending cost items notify, t⟩ _ :=
          .endStream hst (hs.disjoint _ (by simp [hst])) rfl
        have hc₁ : Changes .ending ⟨s, t⟩ _ := .head (.pending cost items notify) (.single hend)
        have hhas : True → ((s.setPending cost items notify).delStream id).HasLane id :=
          fun _ hu => hs.lanes hu id (by simp [hst])
        have h₁' : Kept limits isOpen m₁ ((s.setPending cost items notify).delStream id) :=
          h₁.of_controls rfl rfl le_rfl
        refine wp_seq (wp_with observer_open
          (rememberClosedLocked_kept h₁' (hp.congr rfl rfl rfl) id)
          (rememberClosedLocked_obs (Changes.sound hc₁ hs).toRing hopened (by simp) hhas)) ?_
        rintro m₂ s₂ ⟨⟨h₂, -⟩, t₂, -, hr⟩
        refine wp_seq (wp_with observer_open (@queueFrameLocked_kept _ _ _ _ .close _ _ h₂
          (fun _ => ⟨hopen hopened, Nat.zero_le _⟩) fun _ => hr.hasLane (hhas trivial))
          (queueFrameLocked_obs (t := t₂) s₂ .close id [])) ?_
        rintro m₃ ⟨s₃, ok⟩ ⟨⟨h₃, hok⟩, t₃, es, -, hq⟩
        cases ok with
        | true => exact ⟨h₃.note fun _ => rfl, fun _ => (hq.closed.trans hr.closed)⟩
        | false =>
            refine wp_seq (wp_calm (closeLocked_kept h₃)) ?_
            rintro m₄ s₄ ⟨h₄, hm⟩
            exact ⟨h₄.note fun _ => rfl,
              fun hc => absurd (hok (by decide) (hm hc.1)) Bool.false_ne_true⟩

/-! ### All sections -/

/-- **Every section keeps the margin.** -/
theorem Section.kept (hbound : limits.maxFramePayload ≤ maxUint32)
    (hs : Sound limits carrier ⟨s, t⟩) (hprices : s.Prices) (c : Section) (hcall : c.Callable s)
    (h : Kept limits (s.closed = false) m s) :
    wp (margins limits (s.closed = false)) (c.exec sha256 s)
      (fun m' r => Kept limits (s.closed = false) m' r.1 ∧
        (m'.calm → r.2 ≠ .up .aborting ∧
          ∀ id backend, c = .backendClosed id backend → r.1.closed = s.closed)) m := by
  cases c with
  | acquireWebSocket =>
      refine ⟨?_, fun _ => ⟨by simp, by simp⟩⟩
      unfold TproxyServer.acquireWebSocket
      split_ifs
      · exact h
      · exact h.of_controls rfl rfl le_rfl
  | acquireWebSocketLane laneID =>
      exact ⟨acquireWebSocketLane_kept h laneID, fun _ => ⟨by simp, by simp⟩⟩
  | releaseWebSocketLane laneID =>
      exact wp_seq (releaseWebSocketLane_kept h hprices.priced laneID) fun _ _ h₁ =>
        ⟨h₁, fun _ => ⟨by simp, by simp⟩⟩
  | laneProtocolFailure laneID =>
      exact wp_seq (laneProtocolFailure_kept h hprices.priced laneID) fun _ _ h₁ =>
        ⟨h₁, fun _ => ⟨by simp, by simp⟩⟩
  | close => exact wp_seq (closeLocked_kept h) fun _ _ h₁ => ⟨h₁, fun _ => ⟨by simp, by simp⟩⟩
  | processUpBegin sequence body =>
      unfold Section.exec TproxyServer.processUpBegin
      dsimp only
      split_ifs
      all_goals refine ⟨?_, fun _ => ⟨by simp, by simp⟩⟩
      all_goals exact h.of_controls rfl rfl le_rfl
  | processUpCommit sequence body =>
      refine wp_seq (processUpCommit_kept id hbound hs hprices hcall h sequence body) ?_
      rintro m₁ r ⟨h₁, hreply⟩
      exact ⟨h₁, fun hc => ⟨fun he => hreply hc (Reply.up.inj he), by simp⟩⟩
  | processUpLane laneID sequence body =>
      refine wp_seq (processUpLane_kept id hbound hs hprices h laneID sequence body) ?_
      rintro m₁ r ⟨h₁, hreply⟩
      exact ⟨h₁, fun hc => ⟨fun he => hreply hc (Reply.up.inj he), by simp⟩⟩
  | poll cursor =>
      exact wp_seq (poll_kept h hbound hs hprices cursor) fun _ _ h₁ =>
        ⟨h₁, fun _ => ⟨by simp, by simp⟩⟩
  | pollLane laneID cursor =>
      exact wp_seq (pollLane_kept h hbound hs hprices laneID cursor) fun _ _ h₁ =>
        ⟨h₁, fun _ => ⟨by simp, by simp⟩⟩
  | pollResume q cursor mine wake =>
      exact wp_seq (pollResume_kept h hprices q cursor mine wake) fun _ _ h₁ =>
        ⟨h₁, fun _ => ⟨by simp, by simp⟩⟩
  | takeToken q => exact ⟨h.setQueue rfl, fun _ => ⟨by simp, by simp⟩⟩
  | nextWrite id => exact ⟨nextWrite_kept h id, fun _ => ⟨by simp, by simp⟩⟩
  | backendDrained id amount =>
      exact wp_seq (backendDrained_kept (fun h => h) hs h id amount) fun _ _ h₁ =>
        ⟨h₁, fun _ => ⟨by simp, by simp⟩⟩
  | backendWriteFinished id =>
      exact wp_seq (backendWriteFinished_kept h id) fun _ _ h₁ =>
        ⟨h₁, fun _ => ⟨by simp, by simp⟩⟩
  | nextReadAllowance id => exact ⟨h, fun _ => ⟨by simp, by simp⟩⟩
  | backendData id data =>
      exact wp_seq (backendData_kept h id data) fun _ _ h₁ => ⟨h₁, fun _ => ⟨by simp, by simp⟩⟩
  | backendClosed id backend =>
      refine wp_seq (backendClosed_kept (fun h => h) hs hprices.priced h id backend) ?_
      rintro m₁ s₁ ⟨h₁, hclosed⟩
      exact ⟨h₁, fun hc => ⟨by simp, fun _ _ _ => hclosed hc⟩⟩

end TproxyServer
