import TproxyServer.Accounting

/-! # Every section keeps the books

The batch passes, the polls and the callbacks against the ledger, and from them
`Section.balanced`. -/

namespace TproxyServer

open Interaction Prog

variable {limits : Limits} {carrier : CarrierMode} {s s' : Session} {t : List Event} {e : ℤ × ℤ}

/-- The postcondition of what leaves nothing in hand. -/
abbrev Settled {α : Type} (l : ℤ × ℤ) (r : Session × α) : Prop :=
  l = r.1.pending ∧ Balanced 0 r.1

/-! ### Applying a batch -/

/-- In the middle of a batch: what is left of the reservation is in hand. -/
abbrev InHand (l : ℤ × ℤ) (r : Applying) : Prop :=
  l = r.session.pending ∧ Balanced (r.cost, r.items) r.session

variable {r : Applying}

theorem refuseOpen_balanced (he : 0 ≤ r.cost ∧ 0 ≤ r.items)
    (hb : Balanced (r.cost, r.items) r.session) (id : ℕ) :
    wp ledger (refuseOpen r id) InHand r.session.pending := by
  unfold refuseOpen
  refine wp_seq (rememberClosedLocked_balanced he hb id) ?_
  rintro l s₁ ⟨rfl, hb₁⟩
  simp only [announce_bind, wp_note]
  refine wp_seq (queueFrameLocked_balanced hb₁ .close id []) ?_
  rintro l ⟨s₂, ok⟩ ⟨rfl, hb₂⟩
  cases ok with
  | true => exact ⟨rfl, hb₂⟩
  | false => exact ⟨rfl, hb₂⟩

theorem applyOpen_balanced (he : 0 ≤ r.cost ∧ 0 ≤ r.items)
    (hb : Balanced (r.cost, r.items) r.session) {id : ℕ}
    (hlive : r.session.streams.get id = none) :
    wp ledger (applyOpen r id) InHand r.session.pending := by
  have hadmit : ∀ admitted : Bool, wp ledger
      (if admitted then do
        let backend := r.session.nextObject
        announce (.opened id backend)
        pure { r with
          session := { r.session.putStream id (newStream backend) with nextObject := backend + 1 }
          opened := r.opened ++ [backend] }
      else refuseOpen r id) InHand r.session.pending := by
    intro admitted
    cases admitted with
    | true => exact ⟨rfl, hb.of_held (held_newStream hlive rfl) rfl⟩
    | false => exact refuseOpen_balanced he hb id
  unfold applyOpen
  dsimp only
  split_ifs
  · exact hadmit false
  · refine ⟨trivial, ?_⟩
    rintro b l' rfl
    exact hadmit b

/-- An append charges the stream what it says. -/
theorem appendBackendWriteLocked_held (st : StreamState) (payload : Bytes) :
    (appendBackendWriteLocked st payload).1.held =
      st.held + (appendBackendWriteLocked st payload).2 := rfl

theorem applyData_balanced (hb : Balanced (r.cost, r.items) r.session) (id : ℕ)
    (payload : Bytes) : wp ledger (applyData r id payload) InHand r.session.pending := by
  unfold applyData
  cases hst : r.session.streams.get id with
  | none => rintro ⟨⟩
  | some state =>
      have hput := held_putStream { (appendBackendWriteLocked state payload).1 with
        receiveWindow := subUint32 state.receiveWindow (toUint32 payload.length)
        writeNotify := true } hst
      have hsame : StreamState.held { (appendBackendWriteLocked state payload).1 with
          receiveWindow := subUint32 state.receiveWindow (toUint32 payload.length)
          writeNotify := true } = _ := appendBackendWriteLocked_held state payload
      rw [hsame, add_assoc] at hput
      exact ⟨rfl, hb.spent (add_left_cancel hput) rfl⟩

theorem applyWindow_balanced (hb : Balanced (r.cost, r.items) r.session) (id : ℕ)
    (payload : Bytes) : wp ledger (applyWindow r id payload) InHand r.session.pending := by
  unfold applyWindow
  cases hst : r.session.streams.get id with
  | none => rintro ⟨⟩
  | some state =>
      have hput := held_putStream { state with
        sendCredit := addCredit state.sendCredit (windowAmount payload).1
        creditNotify := true } hst
      exact ⟨rfl, hb.of_held (add_left_cancel hput) rfl⟩

theorem applyClose_balanced (he : 0 ≤ r.cost ∧ 0 ≤ r.items)
    (hb : Balanced (r.cost, r.items) r.session) (id : ℕ) :
    wp ledger (applyClose r id) InHand r.session.pending := by
  unfold applyClose
  cases hst : r.session.streams.get id with
  | none => rintro ⟨⟩
  | some state =>
      refine wp_seq (releaseStreamWritesLocked_ledger he hb hst) ?_
      rintro l s₁ ⟨rfl, -, hb₁⟩
      refine wp_seq (rememberClosedLocked_balanced he hb₁ id) ?_
      rintro l s₂ ⟨rfl, hb₂⟩
      exact ⟨rfl, hb₂⟩

theorem applyFrame_balanced (he : 0 ≤ r.cost ∧ 0 ≤ r.items)
    (hb : Balanced (r.cost, r.items) r.session) {f : Frame}
    (hopen : f.type = .open → f.streamID ≠ 0 → r.session.streams.get f.streamID = none) :
    wp ledger (applyFrame r f) InHand r.session.pending := by
  unfold applyFrame
  by_cases h0 : f.streamID = 0
  · rw [if_pos h0]
    exact ⟨rfl, hb⟩
  rw [if_neg h0]
  cases hty : f.type with
  | «open» => exact applyOpen_balanced he hb (hopen hty h0)
  | data =>
      dsimp only
      split_ifs
      · exact ⟨rfl, hb⟩
      · exact applyData_balanced hb _ _
  | window =>
      dsimp only
      split_ifs
      · exact ⟨rfl, hb⟩
      · exact applyWindow_balanced hb _ _
  | close =>
      dsimp only
      split_ifs
      · exact ⟨rfl, hb⟩
      · exact applyClose_balanced he hb _
  | _ => exact ⟨rfl, hb⟩

/-- An OPEN of a validated batch opens a new stream. -/
theorem Applies.open_fresh {laned : Prop} {σ : Traced} {frozen : Finset ℕ}
    {live live' : Table ℕ StreamSnapshot} {closed closed' : Finset ℕ} {done : List ℕ} {id : ℕ}
    {f : Frame} (ha : Applies limits laned σ frozen live closed done id s t)
    (hf : validateFrame frozen live closed f = some (live', closed')) (hopen : f.type = .open)
    (h0 : f.streamID ≠ 0) : s.streams.get f.streamID = none := by
  simp only [validateFrame, h0, hopen, if_false] at hf
  split_ifs at hf with hbad
  simp only [not_or, not_not] at hbad
  by_contra hn
  obtain ⟨st, hst⟩ := Option.ne_none_iff_exists'.mp hn
  have hnew := hbad.1
  rw [ha.tracks.agree _ st hst] at hnew
  cases hnew

/-- **Applying a validated batch keeps the books**, with the rest of the reservation in
hand. -/
theorem applyLoop_balanced {laned : Prop} {σ : Traced} {frozen : Finset ℕ}
    {live : Table ℕ StreamSnapshot} {closed : Finset ℕ} {done : List ℕ} {frames : List Frame}
    {counted : Finset ℕ} {laneID : ℕ} (hsize : ∀ f ∈ frames, f.payload.length ≤ maxPayload)
    (ha : Applies limits laned σ frozen live closed done laneID r.session t)
    (hv : validateLoop frozen live closed frames = true) (hc : Covered counted frames r)
    (hb : Balanced (r.cost, r.items) r.session) (hlaned : ¬ laned) :
    wp ledger (applyLoop r frames) InHand r.session.pending := by
  induction frames generalizing r t live closed done counted laneID with
  | nil => exact ⟨rfl, hb⟩
  | cons f frames ih =>
      obtain ⟨live₁, closed₁, hf, hv₁⟩ := validateLoop_cons_inv hv
      have ha' : Applies limits laned σ frozen live closed done f.streamID r.session t :=
        ⟨ha.changes, fun hl => absurd hl hlaned, ha.carrier, ha.ring, ha.opened, ha.tracks,
          ha.recorded⟩
      refine wp_seq (wp_with observer_open
        (applyFrame_balanced hc.unspent hb (ha.open_fresh hf))
        (applyFrame_obs ha' hf rfl (fun hl => absurd hl hlaned) (hsize f List.mem_cons_self))) ?_
      rintro l r₁ ⟨⟨rfl, hb₁⟩, t₁, c₁, d₁, ha₁, happ⟩
      obtain ⟨counted₁, hc₁⟩ := happ.covered counted frames hc
      split_ifs
      · exact ih (fun g hg => hsize g (List.mem_cons_of_mem f hg)) ha₁ hv₁ hc₁ hb₁
      · exact ⟨rfl, hb₁⟩

/-! ### Uplink requests -/

/-- What is in hand can be given back. -/
theorem releasePendingLocked_settled {cost items : ℕ} (hb : Balanced (cost, items) s) :
    wp ledger (releasePendingLocked s cost items)
      (fun l s' => l = s'.pending ∧ Balanced 0 s') s.pending := by
  obtain ⟨hc, hi⟩ := hb
  refine wp_mono (releasePendingLocked_ledger (by omega) (by omega)) ?_
  rintro l s' ⟨rfl, ⟨cost', items', notify, rfl⟩, hcost, hitems⟩
  refine ⟨rfl, ?_, ?_⟩
  · show ((s.setPending cost' items' notify).pendingCost : ℤ) = s.held.1 + 0
    omega
  · show ((s.setPending cost' items' notify).pendingItems : ℤ) = s.held.2 + 0
    omega

theorem commitBatch_balanced {frames : List Frame} (label : Option ℕ)
    (hs : Ring limits ⟨s, t⟩) (hb : Balanced 0 s) (hopen : s.closed = false)
    (hsize : ∀ f ∈ frames, f.payload.length ≤ maxPayload) (sequence : ℕ) (body : Bytes) :
    wp ledger (commitBatch s label sequence body frames) Settled s.pending := by
  unfold commitBatch
  by_cases hv : validateBatchLocked s frames = false
  · rw [if_pos hv]
    exact ⟨rfl, hb⟩
  rw [if_neg hv, Bool.not_eq_false] at *
  dsimp only
  generalize hreserved : backendWriteReservationLocked s frames = reserved
  -- from the reserved session on
  have hrest : ∀ s' : Session, s.UpToPending s' → Balanced (reserved.1, reserved.2) s' →
      wp ledger (do
        announce (.applying label sequence body)
        let r ← applyBatchLocked s' frames reserved.1 reserved.2
        let s ←
          if r.cost ≠ 0 ∨ r.items ≠ 0 then releasePendingLocked r.session r.cost r.items
          else pure r.session
        announce (.cancelled r.closed)
        pure (s, if r.applied then BatchOutcome.applied else .aborted))
      Settled s'.pending := by
    rintro s' ⟨cost, items, notify, rfl⟩ hb'
    have hring := hs.quiet (Keeps.setPending s cost items notify)
    have hc : Covered s.liveIDs frames (startBatch s frames) := .start
    simp only [startBatch, hreserved] at hc
    have ha : Applies limits False ⟨s.setPending cost items notify, t⟩ s.closedStreams s.snapshot
        ∅ [] 0 (s.setPending cost items notify) t := .start hring hopen (by simp)
    have hv' : validateLoop s.closedStreams s.snapshot ∅ (frames ++ []) = true := by
      rw [List.append_nil]; exact hv
    simp only [announce_bind, wp_note]
    refine wp_seq (wp_with observer_open (applyLoop_balanced hsize ha hv hc hb' not_false)
      (applyLoop_obs (by simp) (by simp) hsize ha hv' (by rw [List.append_nil]; exact hc))) ?_
    rintro l r ⟨⟨rfl, hbr⟩, t', hr⟩
    obtain ⟨cost, hcost⟩ := Int.eq_ofNat_of_zero_le hr.unspent.1
    obtain ⟨items, hitems⟩ := Int.eq_ofNat_of_zero_le hr.unspent.2
    rw [hcost, hitems] at hbr ⊢
    by_cases hany : (cost : ℤ) ≠ 0 ∨ (items : ℤ) ≠ 0
    · rw [if_pos hany]
      refine wp_seq (releasePendingLocked_settled hbr) ?_
      rintro l s₂ ⟨rfl, hb₂⟩
      exact ⟨rfl, hb₂⟩
    · rw [if_neg hany]
      simp only [not_or, not_not] at hany
      rw [hany.1, hany.2] at hbr
      exact ⟨rfl, hbr⟩
  split_ifs with hres
  · refine wp_seq (reservePendingLocked_ledger s _ _ _) ?_
    rintro l r ⟨rfl, rfl | rfl⟩
    · exact ⟨rfl, hb⟩
    · have hcharged := hb.charged reserved.1 reserved.2
      simp only [Prod.fst_zero, Prod.snd_zero, zero_add] at hcharged
      exact hrest _ ⟨_, _, _, rfl⟩ hcharged
  · simp only [not_or, not_not] at hres
    refine hrest s (.refl s) ?_
    rw [hres.1, hres.2]
    exact hb

theorem processUpCommit_balanced (sha256 : Bytes → Bytes) (hs : Ring limits ⟨s, t⟩)
    (hb : Balanced 0 s) (sequence : ℕ) (body : Bytes) :
    wp ledger (processUpCommit sha256 s sequence body) Settled s.pending := by
  unfold processUpCommit
  dsimp only
  split_ifs with hclosed
  · exact ⟨rfl, hb⟩
  · cases hf : clientFrames s.limits body with
    | none => exact ⟨rfl, hb⟩
    | some frames =>
        have hb' : Balanced 0 { s with upActive := false } := hb
        have hs' : Ring limits ⟨{ s with upActive := false }, t⟩ :=
          ⟨hs.limits_eq, hs.ring, hs.tombstones, hs.distinct, hs.disjoint⟩
        refine wp_seq (commitBatch_balanced none hs' hb' (by simpa using hclosed)
          (clientFrames_size hf) sequence body) ?_
        rintro l ⟨s₁, outcome⟩ ⟨rfl, hb₁⟩
        cases outcome with
        | _ => exact ⟨rfl, hb₁⟩

theorem modifyLane_balanced {id object : ℕ} {f : CarrierLane → CarrierLane} (hb : Balanced e s)
    (hf : ∀ l, (f l).down = l.down) : Balanced e (s.modifyLane id object f) :=
  hb.of_held (held_modifyLane hf) (modifyLane_pending s id object f)

theorem processOnLane_balanced (sha256 : Bytes → Bytes) {lane : CarrierLane} {laneID : ℕ}
    {frames : List Frame} (hs : Ring limits ⟨s, t⟩) (hb : Balanced 0 s) (hopen : s.closed = false)
    (hsize : ∀ f ∈ frames, f.payload.length ≤ maxPayload) (sequence : ℕ) (body : Bytes) :
    wp ledger (processOnLane sha256 s lane laneID sequence body frames) Settled s.pending := by
  have hmodify : ∀ (s' : Session) (f : CarrierLane → CarrierLane), Balanced 0 s' →
      (∀ l, (f l).down = l.down) → Balanced 0 (s'.modifyLane laneID lane.object f) ∧
        s'.pending = (s'.modifyLane laneID lane.object f).pending :=
    fun s' f hb' hf => ⟨modifyLane_balanced hb' hf, (modifyLane_pending s' _ _ f).symm⟩
  unfold processOnLane
  split_ifs
  · exact ⟨rfl, hb⟩
  · exact ⟨rfl, hb⟩
  · exact ⟨rfl, hb⟩
  · exact ⟨rfl, hb⟩
  · obtain ⟨hb₁, hp₁⟩ := hmodify s (fun l => { l with upActive := true }) hb fun _ => rfl
    have hopen₁ : (s.modifyLane laneID lane.object fun l =>
        { l with upActive := true }).closed = false := by
      obtain ⟨_, _, he⟩ := s.modifyLane_eq laneID lane.object fun l => { l with upActive := true }
      rw [he]
      exact hopen
    rw [hp₁]
    refine wp_seq (commitBatch_balanced (some laneID) (hs.quiet (Keeps.modifyLane s _ _ _)) hb₁
      hopen₁ hsize sequence body) ?_
    rintro l ⟨s₂, outcome⟩ ⟨rfl, hb₂⟩
    obtain ⟨hb₃, hp₃⟩ := hmodify s₂ (fun l => { l with upActive := false }) hb₂ fun _ => rfl
    rw [hp₃]
    cases outcome with
    | applied =>
        obtain ⟨hb₄, hp₄⟩ := hmodify _
          (fun l => { l with lastUpSequence := sequence, lastUpDigest := sha256 body }) hb₃
          fun _ => rfl
        exact ⟨hp₄, hb₄⟩
    | _ => exact ⟨rfl, hb₃⟩

theorem createLane_balanced {id : ℕ} (hb : Balanced e s) (hl : s.carrierLanes.get id = none) :
    Balanced e (s.createLane id).1 := by
  have h0 : CarrierLane.held { object := s.nextObject } = 0 := rfl
  exact hb.of_held (held_newLane hl h0) rfl

theorem processUpLane_balanced (sha256 : Bytes → Bytes) (hs : Sound limits carrier ⟨s, t⟩)
    (hb : Balanced 0 s) (laneID sequence : ℕ) (body : Bytes) :
    wp ledger (processUpLane sha256 s laneID sequence body) Settled s.pending := by
  unfold processUpLane
  by_cases hbad : s.usesCarrierLanes = false ∨ maxStreamID < laneID
  · rw [if_pos hbad]
    exact ⟨rfl, hb⟩
  rw [if_neg hbad]
  cases hf : laneFrames s.limits laneID body with
  | none => exact ⟨rfl, hb⟩
  | some frames =>
      have hsize := fun f h => (laneFrames_spec hf f h).1
      dsimp only
      by_cases hclosed : s.closed = true
      · rw [if_pos hclosed]
        exact ⟨rfl, hb⟩
      rw [if_neg hclosed]
      have hopen : s.closed = false := by simpa using hclosed
      cases hl : s.carrierLanes.get laneID with
      | some lane => exact processOnLane_balanced sha256 hs.toRing hb hopen hsize _ _
      | none =>
          dsimp only
          split_ifs
          · exact ⟨rfl, hb⟩
          · exact ⟨rfl, hb⟩
          · have hcreate : Change .request ⟨s, t⟩ ⟨(s.createLane laneID).1, t⟩ :=
              .createLane hopen hl (not_lt.mp fun h => hbad (.inr h)) rfl
            exact processOnLane_balanced sha256 (hcreate.sound hs).toRing
              (createLane_balanced hb hl) hopen hsize _ _

/-! ### WebSocket attachment -/

theorem touchLane_balanced {id : ℕ} {l l' : CarrierLane} (hb : Balanced e s)
    (hl : s.carrierLanes.get id = some l) (hdown : l'.down = l.down) :
    Balanced e (s.putLane id l') := by
  have hput := held_putLane l' hl
  rw [CarrierLane.held, CarrierLane.held, hdown] at hput
  exact hb.of_held (add_left_cancel hput) rfl

theorem acquireWebSocketLane_balanced (hb : Balanced 0 s) (laneID : ℕ) :
    s.pending = (acquireWebSocketLane s laneID).1.pending ∧
      Balanced 0 (acquireWebSocketLane s laneID).1 := by
  have hacquired := acquireWebSocketLane_acquired s laneID
  generalize acquireWebSocketLane s laneID = r at hacquired ⊢
  cases hacquired with
  | refused => exact ⟨rfl, hb⟩
  | attached hl _ => exact ⟨rfl, touchLane_balanced hb hl rfl⟩
  | created _ hl _ =>
      have hput : (s.createLane laneID).1.carrierLanes.get laneID =
          some (s.createLane laneID).2 := Table.get_put_self s.carrierLanes laneID _
      exact ⟨rfl, touchLane_balanced (createLane_balanced hb hl) hput rfl⟩

theorem dropLane_balanced (hb : Balanced 0 s) (laneID : ℕ) :
    wp ledger (dropLane s laneID) (fun l s' => l = s'.pending ∧ Balanced 0 s') s.pending := by
  unfold dropLane
  cases hl : s.carrierLanes.get laneID with
  | none => exact ⟨rfl, hb⟩
  | some lane =>
      refine wp_seq (releaseLaneLocked_ledger ⟨le_rfl, le_rfl⟩ hb hl) ?_
      rintro l ⟨s₁, lane₁⟩ ⟨rfl, -, rfl, hb₁⟩
      exact ⟨rfl, hb₁⟩

theorem releaseWebSocketLane_balanced (hb : Balanced 0 s) (laneID : ℕ) :
    wp ledger (releaseWebSocketLane s laneID)
      (fun l s' => l = s'.pending ∧ Balanced 0 s') s.pending := by
  unfold releaseWebSocketLane
  split_ifs
  · exact ⟨rfl, hb⟩
  cases hl : s.carrierLanes.get laneID with
  | none => exact ⟨rfl, hb⟩
  | some lane =>
      have hb₀ : Balanced 0 (s.putLane laneID { lane with websocketActive := false }) :=
        touchLane_balanced hb hl rfl
      dsimp only
      cases hst : s.streams.get laneID with
      | none =>
          simp only [Session.putLane_streams, hst, pure_bind']
          exact dropLane_balanced hb₀ laneID
      | some state =>
          simp only [Session.putLane_streams, hst]
          refine wp_seq (releaseStreamWritesLocked_ledger ⟨le_rfl, le_rfl⟩ hb₀ hst) ?_
          rintro l s₁ ⟨rfl, -, hb₁⟩
          refine wp_seq (rememberClosedLocked_balanced ⟨le_rfl, le_rfl⟩ hb₁ laneID) ?_
          rintro l s₂ ⟨rfl, hb₂⟩
          exact dropLane_balanced hb₂ laneID

theorem laneProtocolFailure_balanced (hb : Balanced 0 s) (laneID : ℕ) :
    wp ledger (laneProtocolFailure s laneID)
      (fun l s' => l = s'.pending ∧ Balanced 0 s') s.pending := by
  unfold laneProtocolFailure
  split_ifs
  · exact releaseWebSocketLane_balanced hb laneID
  · exact closeLocked_balanced hb

/-! ### Polls -/

theorem setQueue_balanced {q : QueueRef} {d : Downlink} (hb : Balanced e s)
    (hd : d.held = (s.queue q).held) : Balanced e (s.setQueue q d) :=
  hb.of_held (held_setQueue_same hd) (setQueue_pending s q d)

theorem takeBatch_held {d : Downlink} (limits : Limits) (cursor : ℕ) (hcost : d.unackedCost = 0)
    (hitems : d.unackedItems = 0) :
    ((d.takeBatch limits).2.deliver (d.takeBatch limits).1 cursor).held = d.held := by
  have hle := batchCount_le limits.carrierBatchBytes maxBatchFrames 0 0 d.pendingFrames
  unfold Downlink.held Downlink.takeBatch Downlink.deliver Downlink.leave
  dsimp only
  generalize batchCount limits.carrierBatchBytes maxBatchFrames 0 0 d.pendingFrames = count at hle
  rw [hcost, hitems, List.length_drop, ← List.sum_append, ← List.map_append, List.take_append_drop]
  refine Prod.ext ?_ ?_
  · dsimp only
    omega
  · dsimp only
    omega

theorem pollLoop_balanced (hb : Balanced 0 s) (hd : s.Downlinks Downlink.Well) (q : QueueRef)
    (cursor mine : ℕ) : wp ledger (pollLoop s q cursor mine) Settled s.pending := by
  have hleave : s.pending = (s.setQueue q (s.queue q).leave).pending ∧
      Balanced 0 (s.setQueue q (s.queue q).leave) :=
    ⟨(setQueue_pending s q _).symm, setQueue_balanced hb rfl⟩
  unfold pollLoop
  dsimp only
  split_ifs with hmine hframes
  · exact ⟨rfl, hb⟩
  · have hwell := hd.queue .new q
    have hparked : (s.queue q).superseded ≠ none := by rw [not_not.mp hmine]; simp
    obtain ⟨hcost, hitems⟩ := hwell.acknowledged (hwell.parked hparked)
    exact ⟨(setQueue_pending s q _).symm,
      setQueue_balanced hb (takeBatch_held s.limits cursor hcost hitems)⟩
  · exact hleave
  · exact hleave
  · exact ⟨rfl, hb⟩

theorem takeOver_balanced (hb : Balanced 0 s) (q : QueueRef) :
    wp ledger (takeOver s q) Settled s.pending := by
  have hnew : ∀ s' : Session, Balanced 0 s' → s'.queue q = s.queue q →
      Settled s'.pending ({ s' with nextObject := s'.nextObject + 1 }.setQueue q
        { s.queue q with superseded := some s'.nextObject, downActive := true },
          s'.nextObject) := by
    intro s' hb' he
    have hsame : { s' with nextObject := s'.nextObject + 1 }.queue q = s.queue q := by
      rw [← he]
      cases q <;> rfl
    have hb'' : Balanced 0 { s' with nextObject := s'.nextObject + 1 } := hb'
    have hp := setQueue_pending { s' with nextObject := s'.nextObject + 1 } q
      { s.queue q with superseded := some s'.nextObject, downActive := true }
    exact ⟨hp.symm, setQueue_balanced hb'' (by rw [hsame]; rfl)⟩
  unfold takeOver
  dsimp only
  split
  · exact hnew s hb rfl
  · next channel _ =>
      have hb' : Balanced 0 { s with closedChannels := insert channel s.closedChannels } := hb
      split_ifs
      · exact hnew s hb rfl
      · rintro ⟨⟩
      · exact hnew _ hb' (by cases q <;> rfl)

theorem takeOver_pollLoop_balanced {q : QueueRef} (hb : Balanced 0 s)
    (hd : s.Downlinks Downlink.Well) (hq : s.HasQueue q) (hunacked : (s.queue q).unacked = [])
    (cursor : ℕ) :
    wp ledger (do
      let (s, mine) ← takeOver s q
      pollLoop s q cursor mine) Settled s.pending := by
  refine wp_seq (wp_with observer_open (takeOver_balanced hb q)
    (takeOver_obs (t := []) hq hunacked)) ?_
  rintro l ⟨s₁, mine⟩ ⟨⟨rfl, hb₁⟩, t₁, h₁⟩
  exact pollLoop_balanced hb₁ (Changes.downlinks h₁ hd) q cursor mine

/-- Everything unacknowledged is a charge that the acknowledgement gives back. -/
theorem acknowledge_balanced {q : QueueRef} (hb : Balanced 0 s)
    (hq : ∀ i object, q = .lane i object → s.attached i object ≠ none) :
    wp ledger (releasePendingLocked s (s.queue q).unackedCost (s.queue q).unackedItems)
      (fun l s' => l = s'.pending ∧ s.UpToPending s' ∧
        Balanced 0 (s'.setQueue q (s.queue q).acknowledge)) s.pending := by
  have hput := held_setQueue (s.queue q).acknowledge hq
  have hsplit : (s.queue q).held =
      ((s.queue q).unackedCost, (s.queue q).unackedItems) + (s.queue q).acknowledge.held := by
    unfold Downlink.held Downlink.acknowledge
    simp
  have hheld : s.held = ((s.queue q).unackedCost, (s.queue q).unackedItems) +
      (s.setQueue q (s.queue q).acknowledge).held := by
    rw [hsplit, add_right_comm, add_comm] at hput
    exact (add_left_cancel hput).symm
  obtain ⟨hc, hi⟩ := hb.covers ⟨le_rfl, le_rfl⟩ hheld
  refine wp_mono (releasePendingLocked_ledger hc hi) ?_
  rintro l s' ⟨rfl, hrel⟩
  refine ⟨rfl, hrel.same, hrel.balanced hb ?_ (setQueue_pending s' q _)⟩
  obtain ⟨cost, items, notify, rfl⟩ := hrel.same
  rw [hheld]
  congr 1
  have hsame := held_setQueue (s := s.setPending cost items notify) (s.queue q).acknowledge
    (q := q) hq
  have hqueue : (s.setPending cost items notify).queue q = s.queue q := by cases q <;> rfl
  rw [hqueue, held_setPending, ← held_setQueue (s.queue q).acknowledge hq] at hsame
  exact (add_left_cancel hsame).symm

theorem pollOn_balanced {q : QueueRef} (hb : Balanced 0 s) (hd : s.Downlinks Downlink.Well)
    (hq : ∀ i object, q = .lane i object → s.attached i object ≠ none) (hqueue : s.HasQueue q)
    (cursor : ℕ) : wp ledger (pollOn s q cursor) Settled s.pending := by
  unfold pollOn
  dsimp only
  cases hcheck : (s.queue q).checkCursor cursor with
  | replay => exact ⟨rfl, hb⟩
  | mismatch => exact ⟨rfl, hb⟩
  | acknowledge =>
      refine wp_seq (acknowledge_balanced hb hq) ?_
      rintro l s₁ ⟨rfl, ⟨cost, items, notify, rfl⟩, hb₁⟩
      have hqueue₁ : (s.setPending cost items notify).HasQueue q := by cases q <;> exact hqueue
      have hset := hqueue₁.setQueue (s.queue q).acknowledge
      have hd₁ : (s.setPending cost items notify).Downlinks Downlink.Well := hd.congr rfl rfl rfl
      rw [← setQueue_pending _ q (s.queue q).acknowledge]
      exact takeOver_pollLoop_balanced hb₁ (hd₁.setQueue (hd.queue .new q).acknowledge q) hset.1
        (by rw [hset.2]; rfl) cursor
  | current =>
      exact takeOver_pollLoop_balanced hb hd hqueue (Downlink.checkCursor_current hcheck).1 cursor

theorem poll_balanced (hb : Balanced 0 s) (hd : s.Downlinks Downlink.Well) (cursor : ℕ) :
    wp ledger (poll s cursor) Settled s.pending := by
  unfold poll
  split_ifs
  · exact ⟨rfl, hb⟩
  · exact ⟨rfl, hb⟩
  · exact pollOn_balanced (q := .session) hb hd (by simp) trivial cursor

theorem pollLane_balanced (hb : Balanced 0 s) (hd : s.Downlinks Downlink.Well)
    (laneID cursor : ℕ) : wp ledger (pollLane s laneID cursor) Settled s.pending := by
  unfold pollLane
  split_ifs
  · exact ⟨rfl, hb⟩
  · exact ⟨rfl, hb⟩
  · cases hl : s.carrierLanes.get laneID with
    | none => exact ⟨rfl, hb⟩
    | some lane =>
        refine pollOn_balanced hb hd ?_ (Session.hasQueue_of_get hl) cursor
        rintro i object hlane
        cases hlane
        rw [Session.attached_eq_some.mpr ⟨hl, rfl⟩]
        simp

theorem pollResume_balanced (hb : Balanced 0 s) (hd : s.Downlinks Downlink.Well) (q : QueueRef)
    (cursor mine : ℕ) (wake : Wake) :
    wp ledger (pollResume s q cursor mine wake) Settled s.pending := by
  have hset : ∀ d : Downlink, d.held = (s.queue q).held →
      s.pending = (s.setQueue q d).pending ∧ Balanced 0 (s.setQueue q d) :=
    fun d h => ⟨(setQueue_pending s q d).symm, setQueue_balanced hb h⟩
  cases wake with
  | cancelled =>
      unfold pollResume
      dsimp only
      split_ifs
      · exact hset _ rfl
      · exact ⟨rfl, hb⟩
  | superseded => exact hset _ rfl
  | done =>
      unfold pollResume
      dsimp only
      split_ifs
      · exact hset _ rfl
      · exact ⟨rfl, hb⟩
  | deadline =>
      unfold pollResume
      dsimp only
      split_ifs
      · exact hset _ rfl
      · exact pollLoop_balanced hb hd q cursor mine
      · exact hset _ rfl
  | notified =>
      unfold pollResume
      dsimp only
      split_ifs
      · obtain ⟨hp, hb₁⟩ := hset (s.queue q).signal rfl
        rw [hp]
        exact pollLoop_balanced hb₁ (hd.setQueue (hd.queue .new q).signal q) q cursor mine
      · exact pollLoop_balanced hb hd q cursor mine

/-! ### Backend callbacks -/

/-- A stream may be rewritten to one that holds the same. -/
theorem putStream_balanced {id : ℕ} {st st' : StreamState} (hb : Balanced e s)
    (hst : s.streams.get id = some st) (hheld : st'.held = st.held) :
    Balanced e (s.putStream id st') := by
  have hput := held_putStream st' hst
  rw [hheld] at hput
  exact hb.of_held (add_left_cancel hput) rfl

/-- What a stream no longer holds is given back. -/
theorem releaseStream_balanced {id cost items : ℕ} {st st' : StreamState} (hb : Balanced 0 s)
    (hst : s.streams.get id = some st) (hheld : st.held = (cost, items) + st'.held) :
    wp ledger (releasePendingLocked (s.putStream id st') cost items)
      (fun l s' => l = s'.pending ∧ (s.putStream id st').UpToPending s' ∧ Balanced 0 s')
      s.pending := by
  have hput := held_putStream st' hst
  rw [hheld, add_assoc, add_left_comm] at hput
  have hs := add_left_cancel hput
  obtain ⟨hc, hi⟩ := hb.covers ⟨le_rfl, le_rfl⟩ hs.symm
  refine wp_mono (@releasePendingLocked_ledger (s.putStream id st') cost items hc hi) ?_
  rintro l s' ⟨rfl, hrel⟩
  obtain ⟨hcost, hitems⟩ := hb
  obtain ⟨⟨cost', items', notify, rfl⟩, hcost', hitems'⟩ := hrel
  refine ⟨rfl, ⟨_, _, _, rfl⟩, ?_, ?_⟩
  · have := congrArg Prod.fst hs
    simp only [Prod.fst_add] at this
    show (((s.putStream id st').setPending cost' items' notify).pendingCost : ℤ) =
      (s.putStream id st').held.1 + 0
    have hp : (s.putStream id st').pendingCost = s.pendingCost := rfl
    simp only [Prod.fst_zero] at hcost
    omega
  · have := congrArg Prod.snd hs
    simp only [Prod.snd_add] at this
    show (((s.putStream id st').setPending cost' items' notify).pendingItems : ℤ) =
      (s.putStream id st').held.2 + 0
    have hp : (s.putStream id st').pendingItems = s.pendingItems := rfl
    simp only [Prod.snd_zero] at hitems
    omega

theorem nextWrite_balanced (hb : Balanced 0 s) (id : ℕ) :
    s.pending = (nextWrite s id).1.pending ∧ Balanced 0 (nextWrite s id).1 := by
  unfold nextWrite
  split_ifs
  · exact ⟨rfl, hb⟩
  · cases hst : s.streams.get id with
    | none => exact ⟨rfl, hb⟩
    | some state =>
        cases hw : state.writes with
        | nil =>
            simp only [hw, true_and]
            exact hb
        | cons chunk writes =>
            simp only [hw]
            have hb' : Balanced 0 (s.putStream id { state with writes }) :=
              putStream_balanced hb hst rfl
            exact ⟨rfl, hb'⟩

theorem backendDrained_balanced (hb : Balanced 0 s) (id amount : ℕ) :
    wp ledger (backendDrained s id amount) Settled s.pending := by
  unfold backendDrained
  cases hst : s.streams.get id with
  | none => exact ⟨rfl, hb⟩
  | some state =>
      dsimp only
      split_ifs with hbad
      · exact ⟨rfl, hb⟩
      · simp only [not_or, not_lt] at hbad
        obtain ⟨-, -, -, hcost, -⟩ := hbad
        have hheld : state.held = (amount, 0) + StreamState.held { state with
            pendingWriteBytes := state.pendingWriteBytes - amount
            pendingWriteCost := state.pendingWriteCost - amount } := by
          refine Prod.ext ?_ ?_
          · exact (Nat.add_sub_cancel' hcost).symm
          · exact (Nat.zero_add _).symm
        refine wp_seq (releaseStream_balanced hb hst hheld) ?_
        rintro l s₁ ⟨rfl, ⟨cost, items, notify, rfl⟩, hb₁⟩
        refine queueFrameLocked_balanced ?_ _ _ _
        exact putStream_balanced hb₁ (Table.get_put_self s.streams id _) rfl

theorem backendWriteFinished_balanced (hb : Balanced 0 s) (id : ℕ) :
    wp ledger (backendWriteFinished s id) Settled s.pending := by
  unfold backendWriteFinished
  cases hst : s.streams.get id with
  | none => exact ⟨rfl, hb⟩
  | some state =>
      dsimp only
      split_ifs with hbad
      · exact ⟨rfl, hb⟩
      · simp only [not_or, not_lt] at hbad
        have hitems := hbad.2.1
        have hcost := hbad.2.2
        generalize queueItemCost = cost at hcost ⊢
        have hheld : state.held = (cost, 1) + StreamState.held { state with
            pendingWriteItems := state.pendingWriteItems - 1
            pendingWriteCost := state.pendingWriteCost - cost } := by
          refine Prod.ext ?_ ?_
          · exact (Nat.add_sub_cancel' hcost).symm
          · exact (Nat.add_sub_cancel' (Nat.one_le_iff_ne_zero.mpr hitems)).symm
        refine wp_seq (releaseStream_balanced hb hst hheld) ?_
        rintro l s₁ ⟨rfl, -, hb₁⟩
        exact ⟨rfl, hb₁⟩

theorem backendData_balanced (hb : Balanced 0 s) (id : ℕ) (data : Bytes) :
    wp ledger (backendData s id data) Settled s.pending := by
  unfold backendData
  cases hst : s.streams.get id with
  | none => exact ⟨rfl, hb⟩
  | some state =>
      dsimp only
      split_ifs
      · exact ⟨rfl, hb⟩
      · refine queueFrameLocked_balanced ?_ _ _ _
        exact putStream_balanced hb hst rfl

theorem backendClosed_balanced (hb : Balanced 0 s) (id backend : ℕ) :
    wp ledger (backendClosed s id backend)
      (fun l s' => l = s'.pending ∧ Balanced 0 s') s.pending := by
  unfold backendClosed
  cases hst : s.streams.get id with
  | none => exact ⟨rfl, hb⟩
  | some state =>
      dsimp only
      split_ifs
      · exact ⟨rfl, hb⟩
      · refine wp_seq (releaseStreamWritesLocked_ledger ⟨le_rfl, le_rfl⟩ hb hst) ?_
        rintro l s₁ ⟨rfl, -, hb₁⟩
        refine wp_seq (rememberClosedLocked_balanced ⟨le_rfl, le_rfl⟩ hb₁ id) ?_
        rintro l s₂ ⟨rfl, hb₂⟩
        refine wp_seq (queueFrameLocked_balanced hb₂ .close id []) ?_
        rintro l ⟨s₃, ok⟩ ⟨rfl, hb₃⟩
        cases ok with
        | true => exact ⟨rfl, hb₃⟩
        | false =>
            refine wp_seq (closeLocked_balanced hb₃) ?_
            rintro l s₄ ⟨rfl, hb₄⟩
            exact ⟨rfl, hb₄⟩

/-! ### All sections -/

/-- **Every section keeps the books**: it never releases what it does not hold, and ends with
nothing in hand. -/
theorem Section.balanced (sha256 : Bytes → Bytes) (hs : Sound limits carrier ⟨s, t⟩)
    (hd : s.Downlinks Downlink.Well) (hb : Balanced 0 s) (c : Section) :
    wp ledger (c.exec sha256 s) Settled s.pending := by
  cases c with
  | acquireWebSocket =>
      show s.pending = (TproxyServer.acquireWebSocket s).1.pending ∧
        Balanced 0 (TproxyServer.acquireWebSocket s).1
      unfold TproxyServer.acquireWebSocket
      split_ifs
      · exact ⟨rfl, hb⟩
      · exact ⟨rfl, hb⟩
  | acquireWebSocketLane laneID => exact acquireWebSocketLane_balanced hb laneID
  | releaseWebSocketLane laneID =>
      exact wp_seq (releaseWebSocketLane_balanced hb laneID) fun _ _ h => h
  | laneProtocolFailure laneID =>
      exact wp_seq (laneProtocolFailure_balanced hb laneID) fun _ _ h => h
  | close => exact wp_seq (closeLocked_balanced hb) fun _ _ h => h
  | processUpBegin sequence body =>
      show s.pending = (TproxyServer.processUpBegin sha256 s sequence body).1.pending ∧
        Balanced 0 (TproxyServer.processUpBegin sha256 s sequence body).1
      unfold TproxyServer.processUpBegin
      split_ifs
      all_goals exact ⟨rfl, hb⟩
  | processUpCommit sequence body =>
      exact wp_seq (processUpCommit_balanced sha256 hs.toRing hb sequence body) fun _ _ h => h
  | processUpLane laneID sequence body =>
      exact wp_seq (processUpLane_balanced sha256 hs hb laneID sequence body) fun _ _ h => h
  | poll cursor => exact wp_seq (poll_balanced hb hd cursor) fun _ _ h => h
  | pollLane laneID cursor => exact wp_seq (pollLane_balanced hb hd laneID cursor) fun _ _ h => h
  | pollResume q cursor mine wake =>
      exact wp_seq (pollResume_balanced hb hd q cursor mine wake) fun _ _ h => h
  | takeToken q => exact ⟨(setQueue_pending s q _).symm, setQueue_balanced hb rfl⟩
  | nextWrite id => exact nextWrite_balanced hb id
  | backendDrained id amount => exact wp_seq (backendDrained_balanced hb id amount) fun _ _ h => h
  | backendWriteFinished id => exact wp_seq (backendWriteFinished_balanced hb id) fun _ _ h => h
  | nextReadAllowance id => exact ⟨rfl, hb⟩
  | backendData id data => exact wp_seq (backendData_balanced hb id data) fun _ _ h => h
  | backendClosed id backend =>
      exact wp_seq (backendClosed_balanced hb id backend) fun _ _ h => h

end TproxyServer
