import TproxyServer.Codec
import TproxyServer.DataRoom
import TproxyServer.Effects
import TproxyServer.Settlement

/-! # Does an uplink batch still fit?

Downlink DATA is admitted only where a largest uplink batch would still fit
(`downlinkPendingLimits`), but control frames are admitted up to the whole budget, and all
three partitions are checked against one total.  A WINDOW or CLOSE that is charged while
downlink DATA fills its partition takes its item from the batch, not from its own reserve.

`Session.heldDown` is what a session holds for the client.  As long as what each section is about
to charge for control frames (`Section.charges`) leaves room for the largest batch, there is room
in every state (`ReservedRun.spares`), and every batch fits once no backend write is pending
(`uplink_batch_fits`).  Under limits that start-up accepts, a WINDOW that is charged behind a full
partition keeps a batch out (`batch_refused_behind_window`). -/

namespace TproxyServer

open Interaction Prog

variable {limits : Limits} {carrier : CarrierMode} {s s' : Session} {t : List Event}
  {sha256 : Bytes → Bytes} {scope : Scope}

/-! ### What is held for the client -/

/-- The charges of the frames that are queued for the client or not yet acknowledged. -/
def Session.heldDown (s : Session) : ℕ × ℕ :=
  s.down.held + Table.total CarrierLane.held s.carrierLanes

theorem Session.held_eq (s : Session) :
    s.held = s.heldDown + Table.total StreamState.held s.streams := rfl

/-- What a frame with a payload of this length is charged. -/
def frameCharge (length : ℕ) : ℕ × ℕ := (headerSize + length + queueItemCost, 1)

/-- What the control frames that were queued would be charged if none were merged. -/
def controlCharges (t : List Event) : ℕ × ℕ :=
  (t.map fun e => match e with
    | .queued _ ty _ payload => if ty = .data then 0 else frameCharge payload.length
    | _ => 0).sum

@[simp] theorem controlCharges_append (t es : List Event) :
    controlCharges (t ++ es) = controlCharges t + controlCharges es := by
  unfold controlCharges
  rw [List.map_append, List.sum_append]

/-- A change of a lane that leaves its downlink alone. -/
theorem heldDown_of_held (hheld : s'.held = s.held) (hstreams : s'.streams = s.streams) :
    s'.heldDown = s.heldDown := by
  rw [Session.held_eq, Session.held_eq, hstreams] at hheld
  exact add_right_cancel hheld

theorem total_del_le {α : Type} (f : α → ℕ × ℕ) (table : Table ℕ α) (id : ℕ) :
    Table.total f (table.del id) ≤ Table.total f table := by
  cases h : table.get id with
  | none => rw [Table.del_eq_self _ h]
  | some v =>
      rw [Table.total_eq_get_add_del f table h]
      exact le_add_self

theorem heldDown_setQueue_same {q : QueueRef} {d : Downlink} (h : d.held = (s.queue q).held) :
    (s.setQueue q d).heldDown = s.heldDown := by
  obtain ⟨down, lanes, released, he⟩ := s.setQueue_eq q d
  exact heldDown_of_held (held_setQueue_same h) (by rw [he])

theorem heldDown_acknowledge (s : Session) (q : QueueRef) :
    (s.setQueue q (s.queue q).acknowledge).heldDown ≤ s.heldDown := by
  obtain ⟨down, lanes, released, he⟩ := s.setQueue_eq q (s.queue q).acknowledge
  have hstreams : (s.setQueue q (s.queue q).acknowledge).streams = s.streams := by rw [he]
  by_cases hq : ∀ id object, q = .lane id object → s.attached id object ≠ none
  · have hput := held_setQueue (s.queue q).acknowledge hq
    have hless : (s.queue q).acknowledge.held ≤ (s.queue q).held :=
      ⟨Nat.add_le_add_right (Nat.zero_le _) _, Nat.add_le_add_right (Nat.zero_le _) _⟩
    rw [Session.held_eq, Session.held_eq, hstreams, ← add_assoc, ← add_assoc] at hput
    have hsum := add_right_cancel hput
    refine le_of_add_le_add_left (a := (s.queue q).held) ?_
    rw [hsum]
    exact add_le_add_left hless _
  · rw [heldDown_of_held (held_setQueue_detached _ hq) hstreams]

/-- The frame would be added to one that is queued: the test of `queueFrameLocked` on a WINDOW. -/
def Downlink.merges (d : Downlink) (ty : FrameType) (id : ℕ) (payload : Bytes) : Bool :=
  ((d.windowIndex ty id).bind fun index => d.pendingFrames[index]?).any fun f =>
    (windowAmount (f.encoded.drop headerSize)).1 + (windowAmount payload).1 ≤ maxUint32

/-- A control frame is charged as a frame of its own, unless it is merged. -/
theorem Enqueue.held_le {d d' : Downlink} {ty : FrameType} {id : ℕ} {payload : Bytes}
    (h : Enqueue limits d ty id payload d') (hty : ty ≠ .data) :
    d'.held ≤ d.held + if d.merges ty id payload then 0 else frameCharge payload.length := by
  cases h with
  | @merge id index payload f hindex hf htotal =>
      exact (setAmount_held hf _).le.trans le_self_add
  | extend => exact absurd rfl hty
  | @append ty id payload windows hmerge hextend hwindows =>
      have hnot : d.merges ty id payload = false := by
        unfold Downlink.merges
        rw [Option.any_eq_false]
        intro f hf
        obtain ⟨index, hindex, hf⟩ := Option.bind_eq_some_iff.mp hf
        simpa using hmerge index f hindex hf
      have hcharge : frameCharge payload.length =
          ((encode ty id payload).length + queueItemCost, 1) := by
        rw [encode_length]
        rfl
      rw [hnot, if_neg (by simp), hcharge]
      exact le_of_eq (push_held ⟨encode ty id payload, ty, id,
        (encode ty id payload).length + queueItemCost⟩ rfl rfl rfl)

/-- The same for the queue of the session that frames of stream `id` go to. -/
def Session.merges (s : Session) (ty : FrameType) (id : ℕ) (payload : Bytes) : Bool :=
  (s.queueRef id).any fun q => (s.queue q).merges ty id payload

theorem attached_of_queueRef {id : ℕ} {q : QueueRef} (h : s.queueRef id = some q) :
    ∀ i object, q = .lane i object → s.attached i object ≠ none := by
  rintro i object rfl
  unfold Session.queueRef at h
  split_ifs at h
  · obtain ⟨l, hl, he⟩ := Option.map_eq_some_iff.mp h
    cases he
    rw [Session.attached_eq_some.mpr ⟨hl, rfl⟩]
    simp
  · cases h

theorem QueueResult.heldDown {ty : FrameType} {id : ℕ} {payload : Bytes} {es : List Event}
    {ok : Bool} (h : QueueResult s ty id payload es s' ok) (hty : ty ≠ .data) :
    s'.heldDown ≤ s.heldDown +
      if s.merges ty id payload then 0 else frameCharge payload.length := by
  cases h with
  | refused => exact le_self_add
  | @accepted q d cost items notify hq h =>
      obtain ⟨down, lanes, released, he⟩ := (s.setPending cost items notify).setQueue_eq q d
      have hstreams : ((s.setPending cost items notify).setQueue q d).streams = s.streams := by
        rw [he]
        rfl
      have hqueue : (s.setPending cost items notify).queue q = s.queue q := by cases q <;> rfl
      have hput := held_setQueue (s := s.setPending cost items notify) d (attached_of_queueRef hq)
      rw [hqueue, held_setPending, Session.held_eq, Session.held_eq, hstreams, ← add_assoc,
        ← add_assoc] at hput
      have hmerges : s.merges ty id payload = (s.queue q).merges ty id payload := by
        unfold Session.merges
        rw [hq]
        rfl
      have hheld := h.held_le hty
      rw [← hmerges] at hheld
      refine le_of_add_le_add_left (a := (s.queue q).held) ?_
      rw [add_right_cancel hput, add_left_comm, add_comm]
      exact add_le_add_right hheld _

theorem QueueResult.controlCharges {ty : FrameType} {id : ℕ} {payload : Bytes} {es : List Event}
    {ok : Bool} (h : QueueResult s ty id payload es s' ok) (hty : ty ≠ .data) :
    s'.heldDown ≤ s.heldDown + TproxyServer.controlCharges es := by
  have hheld := h.heldDown hty
  cases h with
  | refused => exact le_self_add
  | @accepted q d cost items notify hq h =>
      refine hheld.trans (add_le_add_right ?_ _)
      have hone : TproxyServer.controlCharges [.queued q ty id payload] =
          frameCharge payload.length := by
        simp [TproxyServer.controlCharges, hty]
      rw [hone]
      split_ifs
      · exact ⟨Nat.zero_le _, Nat.zero_le _⟩
      · exact le_rfl

/-- Nothing but a control frame that is queued adds to what is held for the client. -/
theorem Change.heldDown {σ σ' : Traced} (h : Change scope σ σ') (hreads : scope.reads = none)
    (hd : σ.session.Downlinks Downlink.Well) :
    σ'.session.heldDown + controlCharges σ.trace ≤
      σ.session.heldDown + controlCharges σ'.trace := by
  have hless : ∀ {s s' : Session} {t es : List Event}, s'.heldDown ≤ s.heldDown →
      s'.heldDown + controlCharges t ≤ s.heldDown + controlCharges (t ++ es) := by
    intro s s' t es h
    rw [controlCharges_append]
    exact add_le_add h le_self_add
  have hsame : ∀ {s s' : Session} {t : List Event}, s'.heldDown ≤ s.heldDown →
      s'.heldDown + controlCharges t ≤ s.heldDown + controlCharges t := fun h => add_le_add h le_rfl
  have hqueue : ∀ {s₀ s s' : Session} {t es : List Event} {ty : FrameType} {id : ℕ}
      {payload : Bytes} {ok : Bool}, QueueResult s ty id payload es s' ok → ty ≠ .data →
      s.heldDown = s₀.heldDown →
      s'.heldDown + controlCharges t ≤ s₀.heldDown + controlCharges (t ++ es) := by
    intro s₀ s s' t es ty id payload ok hq hty hs
    rw [controlCharges_append, add_comm (controlCharges t), ← add_assoc, ← hs]
    exact add_le_add (hq.controlCharges hty) le_rfl
  cases h with
  | silent => exact hless le_rfl
  | openStream => exact hless le_rfl
  | stream => exact hless le_rfl
  | drained _ _ _ _ _ _ hq _ => exact hqueue hq (by decide) rfl
  | read _ _ _ _ _ hscope =>
      rw [hreads] at hscope
      cases hscope.2
  | queueClose _ _ _ hq _ _ _ => exact hqueue hq (by decide) rfl
  | rememberRoom => exact hless le_rfl
  | @rememberFull s t id old _ _ _ _ _ _ =>
      rw [List.append_assoc]
      exact hless (add_le_add_right (total_del_le CarrierLane.held s.carrierLanes old) s.down.held)
  | @createLane s t id _ hnone _ _ => exact hsame (heldDown_of_held (held_newLane hnone rfl) rfl).le
  | @touchLane s t id l l' hl _ hdown _ _ _ =>
      have hput := held_putLane l' hl
      rw [CarrierLane.held, CarrierLane.held, hdown] at hput
      exact hsame (heldDown_of_held (add_left_cancel hput) rfl).le
  | @dropLane s t id l _ _ _ _ =>
      exact hsame (add_le_add_right (total_del_le CarrierLane.held s.carrierLanes id) s.down.held)
  | attend => exact hsame (le_of_eq (heldDown_setQueue_same rfl))
  | @acknowledge s t q _ _ _ => exact hsame (heldDown_acknowledge s q)
  | @deliver s t q cursor mine _ hmine _ _ =>
      have hwell := hd.queue .new q
      have hparked : (s.queue q).superseded ≠ none := by rw [hmine]; simp
      obtain ⟨hcost, hitems⟩ := hwell.acknowledged (hwell.parked hparked)
      exact hless (heldDown_setQueue_same (takeBatch_held s.limits cursor hcost hitems)).le
  | @close s t =>
      refine hsame ?_
      show s.down.drop.held + Table.total CarrierLane.held
        (s.carrierLanes.mapValues CarrierLane.drop) ≤ _
      rw [total_drop]
      exact ⟨Nat.zero_le _, Nat.zero_le _⟩
  | batch => exact hless le_rfl
  | @laneUplink s t _ id object f _ hdown _ =>
      obtain ⟨lanes, released, he⟩ := s.modifyLane_eq id object f
      exact hsame (heldDown_of_held (held_modifyLane hdown) (by rw [he])).le
  | _ => exact hsame le_rfl

theorem Changes.heldDown {σ σ' : Traced} (h : Changes scope σ σ') (hreads : scope.reads = none)
    (hd : σ.session.Downlinks Downlink.Well) :
    σ'.session.heldDown + controlCharges σ.trace ≤
      σ.session.heldDown + controlCharges σ'.trace := by
  induction h with
  | refl => exact le_rfl
  | @tail b c hab hlast ih =>
      obtain ⟨hcost, hitems⟩ := hlast.heldDown hreads (Changes.downlinks hab hd)
      obtain ⟨ihcost, ihitems⟩ := ih
      simp only [Prod.fst_add, Prod.snd_add] at hcost hitems ihcost ihitems
      constructor <;> simp only [Prod.fst_add, Prod.snd_add] <;> omega

/-! ### What a section charges -/

/-- The test of `backendDrained`. -/
def StreamState.Drains (st : StreamState) (amount : ℕ) : Prop :=
  amount ≠ 0 ∧ amount ≤ st.pendingWriteBytes ∧ amount ≤ st.pendingWriteCost ∧
    st.receiveWindow + amount ≤ initialStreamWindow

instance (st : StreamState) (amount : ℕ) : Decidable (st.Drains amount) := by
  unfold StreamState.Drains
  exact inferInstance

/-- What a section is about to charge for control frames in this state, `admits` telling which
OPENs of its body are admitted: a WINDOW that is not merged, the CLOSE of a stream whose backend
has ended, and a CLOSE for each OPEN that is turned down. -/
def Section.charges (s : Session) (admits : List Bool) : Section → ℕ × ℕ
  | .backendDrained id amount =>
      match s.streams.get id with
      | none => 0
      | some state =>
          if s.closed = true ∨ ¬ state.Drains amount ∨
              s.merges .window id (windowPayload amount) = true then 0
          else frameCharge 4
  | .backendClosed id backend =>
      match s.streams.get id with
      | none => 0
      | some state => if s.closed = true ∨ state.backend ≠ backend then 0 else frameCharge 0
  | .processUpCommit _ _ | .processUpLane _ _ _ => admits.count false • frameCharge 0
  | _ => 0

theorem Section.charges_backendDrained {id amount : ℕ} {st : StreamState} (admits : List Bool)
    (hst : s.streams.get id = some st) (hopen : s.closed = false) (hdrains : st.Drains amount) :
    (Section.backendDrained id amount).charges s admits =
      if s.merges .window id (windowPayload amount) then 0 else frameCharge 4 := by
  simp [Section.charges, hst, hopen, hdrains]

theorem Section.charges_backendClosed {id backend : ℕ} {st : StreamState} (admits : List Bool)
    (hst : s.streams.get id = some st) (hbad : ¬(s.closed = true ∨ st.backend ≠ backend)) :
    (Section.backendClosed id backend).charges s admits = frameCharge 0 := by
  simp only [Section.charges, hst, if_neg hbad]

theorem backendDrained_heldDown (s : Session) (admits : List Bool) (id amount : ℕ) :
    wp observer (backendDrained s id amount) (fun _ r =>
      r.1.heldDown ≤ s.heldDown + (Section.backendDrained id amount).charges s admits) t := by
  unfold backendDrained
  cases hst : s.streams.get id with
  | none => exact le_self_add
  | some state =>
      dsimp only
      by_cases hbad : s.closed = true ∨ amount = 0 ∨ state.pendingWriteBytes < amount ∨
          state.pendingWriteCost < amount ∨ initialStreamWindow < state.receiveWindow + amount
      · rw [if_pos hbad]
        exact le_self_add
      · rw [if_neg hbad]
        simp only [not_or, not_lt] at hbad
        obtain ⟨hopen, hdrains⟩ := hbad
        rw [Section.charges_backendDrained admits hst (by simpa using hopen) hdrains]
        refine wp_seq (releasePendingLocked_obs _ _ _) ?_
        rintro t₁ s₁ ⟨rfl, cost, items, notify, rfl⟩
        refine wp_mono (queueFrameLocked_obs _ _ _ _) ?_
        rintro t₂ ⟨s₂, ok⟩ ⟨es, rfl, hq⟩
        exact hq.heldDown (by decide)

theorem controlCharges_other {e : Event} (he : e.refusing = false) : controlCharges [e] = 0 := by
  cases e with
  | queued => cases he
  | _ => rfl

/-- One CLOSE is queued for a backend that has ended. -/
theorem backendClosed_controlCharges (s : Session) (admits : List Bool) (id backend : ℕ) :
    wp observer (backendClosed s id backend) (fun t' _ => controlCharges t' ≤
      controlCharges t + (Section.backendClosed id backend).charges s admits) t := by
  have hother : ∀ {n : ℕ × ℕ} (t' : List Event) (e : Event), e.refusing = false →
      controlCharges t' ≤ n → controlCharges (t' ++ [e]) ≤ n := by
    intro n t' e he h
    rwa [controlCharges_append, controlCharges_other he, add_zero]
  unfold backendClosed
  cases hst : s.streams.get id with
  | none => exact hother t _ rfl le_self_add
  | some state =>
      dsimp only
      split_ifs with hbad
      · exact hother t _ rfl le_self_add
      · rw [Section.charges_backendClosed admits hst hbad]
        refine wp_seq (releaseStreamWritesLocked_obs _ state) ?_
        rintro t₁ s₁ ⟨rfl, -⟩
        refine wp_seq (rememberClosedLocked_lasting hother le_rfl _ id) ?_
        intro t₂ s₂ h₂
        refine wp_seq (queueFrameLocked_obs s₂ .close id []) ?_
        rintro t₃ ⟨s₃, ok⟩ ⟨es, rfl, hq⟩
        have h₃ : controlCharges (t₂ ++ es) ≤ controlCharges t₁ + frameCharge 0 := by
          rw [controlCharges_append]
          refine add_le_add h₂ ?_
          cases hq with
          | refused => exact ⟨Nat.zero_le _, Nat.zero_le _⟩
          | accepted => exact le_rfl
        cases ok with
        | true => exact hother _ _ rfl h₃
        | false =>
            refine wp_seq (closeLocked_lasting hother h₃ s₃) ?_
            exact fun t₄ _ h₄ => hother t₄ _ rfl h₄

theorem backendWriteFinished_trace (s : Session) (id : ℕ) :
    wp observer (backendWriteFinished s id) (fun t' _ => t' = t) t := by
  unfold backendWriteFinished
  cases s.streams.get id with
  | none => exact rfl
  | some state =>
      dsimp only
      split_ifs
      · exact rfl
      · generalize (queueItemCost : ℤ) = cost
        refine wp_seq (releasePendingLocked_obs _ cost 1) ?_
        rintro t₁ s₁ ⟨rfl, -⟩
        exact rfl

/-- The CLOSE frames that are queued for a body are those of OPENs that were turned down. -/
theorem controlCharges_lasting (t₀ : List Event) : Lasting fun t => ∃ es, t = t₀ ++ es ∧
    controlCharges es ≤ (decisions es).count false • frameCharge 0 where
  other := by
    rintro _ e he ⟨es, rfl, hes⟩
    refine ⟨es ++ [e], List.append_assoc _ _ _, ?_⟩
    rw [controlCharges_append, controlCharges_other he, add_zero, decisions_append,
      List.count_append]
    exact hes.trans (nsmul_le_nsmul_left zero_le (Nat.le_add_right _ _))
  refusal := by
    rintro _ id es' hes' ⟨es, rfl, hes⟩
    refine ⟨es ++ ([.rejected id] ++ es'), by simp only [List.append_assoc], ?_⟩
    have hone : controlCharges ([.rejected id] ++ es') ≤ frameCharge 0 := by
      cases hes' with
      | queued => exact le_rfl
      | abandoned => exact ⟨Nat.zero_le _, Nat.zero_le _⟩
    have hcount : (decisions ([.rejected id] ++ es')).count false = 1 := by
      cases hes' <;> rfl
    rw [controlCharges_append, decisions_append, List.count_append, hcount, add_nsmul, one_nsmul]
    exact add_le_add hes hone

/-- Control frames are queued for backends and for the frames of a client only. -/
theorem Change.controlCharges_eq {σ σ' : Traced} (h : Change scope σ σ')
    (hframes : scope.frames = false) (hbackends : scope.backends = false)
    (hendings : scope.endings = false) : controlCharges σ'.trace = controlCharges σ.trace := by
  have hsame : ∀ {t es : List Event}, controlCharges es = 0 →
      controlCharges (t ++ es) = controlCharges t := by
    intro t es h
    rw [controlCharges_append, h, add_zero]
  cases h with
  | @silent _ _ e h _ =>
      refine hsame ?_
      cases e with
      | queued => cases h
      | _ => rfl
  | openStream => exact hsame rfl
  | stream _ _ h _ => exact hsame (by cases h <;> rfl)
  | drained _ _ _ _ _ _ _ hscope => exact absurd hscope (by simp [hbackends])
  | read _ _ _ _ _ hscope => exact absurd hscope.1 (by simp [hbackends])
  | queueClose _ _ _ _ _ _ hscope =>
      rcases hscope with ⟨-, hscope⟩ | ⟨-, hscope⟩
      · exact absurd hscope (by simp [hframes])
      · exact absurd hscope (by simp [hendings])
  | rememberRoom => exact hsame rfl
  | rememberFull =>
      rw [List.append_assoc]
      exact hsame rfl
  | deliver => exact hsame rfl
  | batch => exact hsame rfl
  | _ => rfl

/-- **A section that hands out no DATA adds what it charges for control frames**, and no more, to
what is held for the client. -/
theorem Step.heldDown {σ σ' : Traced} {c : Section} {r : Reply} {admits : List Bool}
    (hstep : Step sha256 σ c r σ') (hs : Sound limits carrier σ)
    (hd : σ.session.Downlinks Downlink.Well) (hreads : c.scope.reads = none)
    (hadmits : decisions σ'.trace = decisions σ.trace ++ admits) :
    σ'.session.heldDown ≤ σ.session.heldDown + c.charges σ.session admits := by
  have hchain := (hstep.changes hs).heldDown hreads hd
  -- the chain leaves to count what the section has queued
  have hcount : ∀ {n : ℕ × ℕ}, controlCharges σ'.trace ≤ controlCharges σ.trace + n →
      σ'.session.heldDown ≤ σ.session.heldDown + n := by
    intro n h
    refine le_of_add_le_add_right (a := controlCharges σ.trace) (hchain.trans ?_)
    rw [add_assoc, add_comm n]
    exact add_le_add_right h _
  have hquiet : c.scope.frames = false → c.scope.backends = false → c.scope.endings = false →
      σ'.session.heldDown ≤ σ.session.heldDown + 0 := by
    intro hframes hbackends hendings
    refine hcount (le_of_eq ?_)
    exact (hstep.changes hs).invariant
      (I := fun τ => controlCharges τ.trace = controlCharges σ.trace + 0)
      (fun h hI => (h.controlCharges_eq hframes hbackends hendings).trans hI) rfl
  have huplink : c.scope.frames = true →
      σ'.session.heldDown ≤ σ.session.heldDown + admits.count false • frameCharge 0 := by
    intro hframes
    obtain ⟨es, he, hes⟩ := (controlCharges_lasting σ.trace).step hstep hframes
      ⟨[], (List.append_nil _).symm, ⟨Nat.zero_le _, Nat.zero_le _⟩⟩
    rw [he, decisions_append] at hadmits
    refine hcount ?_
    rw [he, controlCharges_append, ← List.append_cancel_left hadmits]
    exact add_le_add_right hes _
  have hsilent : (c.Callable σ.session → wp observer (c.exec sha256 σ.session)
      (fun t' _ => controlCharges t' ≤ controlCharges σ.trace + 0) σ.trace) →
      controlCharges σ'.trace ≤ controlCharges σ.trace + 0 :=
    fun h => @Step.of_wp _ _ _ _ _ hstep
      (fun t' _ => controlCharges t' ≤ controlCharges σ.trace + 0) h
  cases c with
  | backendDrained id amount =>
      exact @Step.of_wp _ _ _ _ _ hstep (fun _ p => p.1.heldDown ≤ σ.session.heldDown +
        (Section.backendDrained id amount).charges σ.session admits) fun _ =>
        wp_seq (backendDrained_heldDown σ.session admits id amount) fun _ _ h => h
  | backendClosed id backend =>
      exact hcount (@Step.of_wp _ _ _ _ _ hstep (fun t' _ => controlCharges t' ≤
        controlCharges σ.trace + (Section.backendClosed id backend).charges σ.session admits)
        fun _ => wp_seq (backendClosed_controlCharges σ.session admits id backend)
          fun _ _ h => h)
  | processUpBegin sequence body => exact hcount (hsilent fun _ => le_rfl)
  | processUpCommit sequence body => exact huplink rfl
  | processUpLane laneID sequence body => exact huplink rfl
  | nextWrite id => exact hcount (hsilent fun _ => le_rfl)
  | backendWriteFinished id =>
      exact hcount (hsilent fun _ => wp_seq (backendWriteFinished_trace σ.session id)
        fun _ _ h => le_of_eq (by rw [h, add_zero]))
  | backendData id data => cases hreads
  | _ => exact hquiet rfl rfl rfl

/-! ### Downlink DATA -/

theorem reservePendingLocked_fits (s : Session) (cost items : ℕ) (cls : PendingClass) :
    wp observer (reservePendingLocked s cost items cls)
      (fun _ r => r = (s, false) ∨ r = (s.charge cost items, true) ∧
        (s.charge cost items).pendingCost ≤ (pendingLimits s.limits cls).1 ∧
        (s.charge cost items).pendingItems ≤ (pendingLimits s.limits cls).2) t := by
  unfold reservePendingLocked Session.charge
  dsimp only
  split_ifs with hfits
  · exact .inl rfl
  · refine ⟨trivial, ?_⟩
    rintro b t' rfl
    cases b with
    | false => exact .inl rfl
    | true =>
        refine .inr ⟨rfl, ?_, ?_⟩
        · omega
        · omega

/-- DATA for the client is admitted within its partition. -/
theorem queueFrameLocked_data (s : Session) (id : ℕ) (payload : Bytes) :
    wp observer (queueFrameLocked s .data id payload)
      (fun _ r => r.1 = s ∨ r.1.pendingCost ≤ (downlinkPendingLimits s.limits).1 ∧
        r.1.pendingItems ≤ (downlinkPendingLimits s.limits).2) t := by
  have hset : ∀ (s' : Session) q d, s'.pendingCost ≤ (downlinkPendingLimits s.limits).1 ∧
      s'.pendingItems ≤ (downlinkPendingLimits s.limits).2 →
      (s'.setQueue q d).pendingCost ≤ (downlinkPendingLimits s.limits).1 ∧
        (s'.setQueue q d).pendingItems ≤ (downlinkPendingLimits s.limits).2 := by
    intro s' q d h
    obtain ⟨hcost, hitems⟩ := Prod.mk.inj (setQueue_pending s' q d)
    omega
  have hpush : ∀ q, wp observer (pushFrame s q .data id payload)
      (fun _ r => r.1 = s ∨ r.1.pendingCost ≤ (downlinkPendingLimits s.limits).1 ∧
        r.1.pendingItems ≤ (downlinkPendingLimits s.limits).2) t := by
    intro q
    unfold pushFrame
    dsimp only
    cases (s.queue q).extendable s.limits .data id payload with
    | some last =>
        refine wp_seq (reservePendingLocked_fits s _ _ _) ?_
        rintro t' r (rfl | ⟨rfl, hfits⟩)
        · exact .inl rfl
        · exact .inr (hset _ q _ hfits)
    | none =>
        refine wp_seq (reservePendingLocked_fits s _ _ _) ?_
        rintro t' r (rfl | ⟨rfl, hfits⟩)
        · exact .inl rfl
        · exact .inr (hset _ q _ hfits)
  unfold queueFrameLocked
  split_ifs
  · unfold queueLaneFrameLocked
    cases s.carrierLanes.get id with
    | none => exact .inl rfl
    | some lane => exact hpush _
  · exact hpush _

/-- A chunk from a backend is held within the partition for downlink DATA, or not at all. -/
theorem backendData_heldDown (s : Session) (id : ℕ) (data : Bytes) :
    wp observer (backendData s id data)
      (fun _ r => r.1.heldDown = s.heldDown ∨
        r.1.pendingCost ≤ (downlinkPendingLimits s.limits).1 ∧
          r.1.pendingItems ≤ (downlinkPendingLimits s.limits).2) t := by
  unfold backendData
  cases s.streams.get id with
  | none => exact .inl rfl
  | some state =>
      dsimp only
      split_ifs
      · exact .inl rfl
      · refine wp_mono (queueFrameLocked_data _ id data) ?_
        rintro t' r (h | h)
        · exact .inl (by rw [h]; rfl)
        · exact .inr h

/-! ### What a batch can ask for -/

namespace Config

/-- The pending budget of a session is more than its two reserves together. -/
structure ExceedsReserves (limits : TproxyServer.Limits) : Prop where
  cost : (pendingControlReserve limits).1 + (pendingUplinkReserve limits).1 <
    limits.maxPendingPerSession
  items : (pendingControlReserve limits).2 + (pendingUplinkReserve limits).2 <
    limits.maxPendingItemsPerSession

/-- The most that a body of at most `maxBodyBytes` bytes can ask for: its payload and the cost
of an item for as many frames as fit, whose headers are not charged. -/
def batchCost (limits : TproxyServer.Limits) : ℕ :=
  limits.maxBodyBytes + batchItems limits * (queueItemCost - headerSize)

/-- What may be held for the client while the largest batch still fits. -/
def besideBatch (limits : TproxyServer.Limits) : ℕ × ℕ :=
  ((uplinkPendingLimits limits).1 - batchCost limits,
    (uplinkPendingLimits limits).2 - batchItems limits)

/-- The partition for downlink DATA leaves room for the largest batch. -/
theorem ExceedsReserves.partitions {limits : TproxyServer.Limits} (h : ExceedsReserves limits) :
    downlinkPendingLimits limits ≤ besideBatch limits ∧
      (besideBatch limits).1 + batchCost limits = (uplinkPendingLimits limits).1 ∧
      (besideBatch limits).2 + batchItems limits = (uplinkPendingLimits limits).2 := by
  obtain ⟨hcost, hitems⟩ := h
  have hreserve : pendingUplinkReserve limits =
      (limits.maxBodyBytes + batchItems limits * queueItemCost, batchItems limits) := by
    unfold pendingUplinkReserve at hcost ⊢
    rw [← batchItems] at hcost ⊢
    dsimp only at hcost ⊢
    split_ifs at hcost ⊢ with hwide
    · omega
    · rfl
  have hless : batchCost limits ≤ limits.maxBodyBytes + batchItems limits * queueItemCost :=
    Nat.add_le_add_left (Nat.mul_le_mul_left _ (Nat.sub_le _ _)) _
  unfold downlinkPendingLimits besideBatch uplinkPendingLimits subtractPendingReserve
  rw [hreserve] at hcost hitems ⊢
  dsimp only at hcost hitems ⊢
  refine ⟨⟨?_, le_rfl⟩, ?_, ?_⟩
  · exact Nat.sub_le_sub_left hless _
  · omega
  · omega

end Config

/-- No parsed body asks for more. -/
theorem parseAll_asks {body : Bytes} {frames : List Frame} {limit : ℕ}
    (hbody : body.length ≤ s.limits.maxBodyBytes) (h : parseAll body limit = .ok frames) :
    let asked := backendWriteReservationLocked s frames
    asked.1 ≤ Config.batchCost s.limits ∧ asked.2 ≤ Config.batchItems s.limits ∧
      (asked.2 = 0 ↔ asked.1 = 0) := by
  intro asked
  obtain ⟨hitems, hcost, hcharged⟩ : Asks frames asked := reservationLoop_asks _ frames
  obtain ⟨hcount, hsum⟩ := parseAll_size h
  have hheaders := Nat.mul_le_mul_right headerSize hitems
  have hroom : asked.2 ≤ Config.batchItems s.limits := by
    apply le_min
    · rw [Nat.le_div_iff_mul_le (by decide)]
      omega
    · exact hitems.trans hcount
  refine ⟨?_, hroom, hcharged⟩
  have hcharge := Nat.mul_le_mul_right (queueItemCost - headerSize) hroom
  have hitem : asked.2 * queueItemCost =
      asked.2 * (queueItemCost - headerSize) + asked.2 * headerSize := by
    rw [← Nat.mul_add]
    rfl
  unfold Config.batchCost
  omega

/-! ### Runs -/

/-- The control frames that the section is about to charge leave room for the largest batch. -/
def Section.Spares (s : Session) (admits : List Bool) (c : Section) : Prop :=
  c.charges s admits = 0 ∨ s.heldDown + c.charges s admits ≤ Config.besideBatch s.limits

instance (s : Session) (admits : List Bool) (c : Section) : Decidable (c.Spares s admits) := by
  unfold Section.Spares
  exact inferInstance

/-- Runs in which no section charges a control frame to the room of the largest batch. -/
inductive ReservedRun (sha256 : Bytes → Bytes) (limits : Limits) (carrier : CarrierMode) :
    Traced → Prop
  | start : ReservedRun sha256 limits carrier ⟨newSession limits carrier, []⟩
  | step {σ σ' : Traced} {c : Section} {r : Reply} {admits : List Bool} :
      ReservedRun sha256 limits carrier σ → Step sha256 σ c r σ' →
      decisions σ'.trace = decisions σ.trace ++ admits → c.Spares σ.session admits →
      ReservedRun sha256 limits carrier σ'

theorem ReservedRun.reachable {σ : Traced} (h : ReservedRun sha256 limits carrier σ) :
    Reachable sha256 limits carrier σ := by
  induction h with
  | start => exact .start
  | step _ hs _ _ ih => exact ih.step hs

/-- What is held for the client is part of what is pending. -/
theorem Balanced.heldDown_le (hb : Balanced 0 s) :
    s.heldDown.1 ≤ s.pendingCost ∧ s.heldDown.2 ≤ s.pendingItems := by
  obtain ⟨hcost, hitems⟩ := hb
  rw [Session.held_eq] at hcost hitems
  simp only [Prod.fst_add, Prod.snd_add, Prod.fst_zero, Prod.snd_zero] at hcost hitems
  omega

/-- Downlink DATA never takes what the largest batch needs. -/
theorem Reachable.backendData_spares (hlimits : Config.ExceedsReserves limits) {σ σ' : Traced}
    {id : ℕ} {data : Bytes} {r : Reply} (h : Reachable sha256 limits carrier σ)
    (hs : Step sha256 σ (.backendData id data) r σ')
    (hI : σ.session.heldDown ≤ Config.besideBatch limits) :
    σ'.session.heldDown ≤ Config.besideBatch limits := by
  have hstep := @Step.of_wp _ _ _ _ _ hs
    (fun _ p => p.1.heldDown = σ.session.heldDown ∨
      p.1.pendingCost ≤ (downlinkPendingLimits σ.session.limits).1 ∧
        p.1.pendingItems ≤ (downlinkPendingLimits σ.session.limits).2)
    fun _ => wp_seq (backendData_heldDown σ.session id data) fun _ _ h => h
  rw [h.sound.limits_eq] at hstep
  rcases hstep with hsame | ⟨hcost, hitems⟩
  · exact hsame.trans_le hI
  · obtain ⟨hdown, -, -⟩ := hlimits.partitions
    obtain ⟨hheldCost, hheldItems⟩ := (h.step hs).balanced.heldDown_le
    exact ⟨(hheldCost.trans hcost).trans hdown.1, (hheldItems.trans hitems).trans hdown.2⟩

/-- What is held for the client leaves room for the largest batch throughout such a run. -/
theorem ReservedRun.spares (hlimits : Config.ExceedsReserves limits) {σ : Traced}
    (h : ReservedRun sha256 limits carrier σ) :
    σ.session.heldDown ≤ Config.besideBatch limits := by
  induction h with
  | start =>
      have h0 : (newSession limits carrier).heldDown = 0 := by
        unfold newSession
        split_ifs <;> rfl
      rw [h0]
      exact ⟨Nat.zero_le _, Nat.zero_le _⟩
  | @step σ σ' c r admits hrun hs hadmits hspares ih =>
      have hreach := hrun.reachable
      by_cases hdata : ∃ id data, c = .backendData id data
      · obtain ⟨id, data, rfl⟩ := hdata
        exact hreach.backendData_spares hlimits hs ih
      · have hreads : c.scope.reads = none := by
          cases c with
          | backendData id data => exact absurd ⟨id, data, rfl⟩ hdata
          | _ => rfl
        have hheld := hs.heldDown hreach.sound hreach.downlinks hreads hadmits
        rcases hspares with hnone | hroom
        · rw [hnone, add_zero] at hheld
          exact hheld.trans ih
        · rw [hreach.sound.limits_eq] at hroom
          exact hheld.trans hroom

/-! ### Does the next batch fit? -/

def Session.WritesDone (s : Session) : Prop :=
  ∀ e ∈ s.streams.entries, e.2.held = 0

instance (s : Session) : Decidable s.WritesDone := by
  unfold Session.WritesDone
  exact inferInstance

/-- The session's limit for uplink DATA admits every batch of a body of at most
`maxBodyBytes` bytes that `ParseAll` and `validateBatchLocked` accept. -/
def Session.UplinkFits (s : Session) : Prop :=
  ∀ body frames, body.length ≤ s.limits.maxBodyBytes →
    parseAll body s.limits.maxFramePayload = .ok frames → validateBatchLocked s frames = true →
    let asked := backendWriteReservationLocked s frames
    asked.1 ≠ 0 ∨ asked.2 ≠ 0 →
    (reservePendingLocked s asked.1 asked.2 .uplink).run [true] =
      ([], .ok (s.charge asked.1 asked.2, true))

theorem Session.WritesDone.held (h : s.WritesDone) : s.held = s.heldDown := by
  have h0 : Table.total StreamState.held s.streams = 0 := by
    refine List.sum_eq_zero fun x hx => ?_
    obtain ⟨e, he, rfl⟩ := List.mem_map.mp hx
    exact h e he
  rw [Session.held_eq, h0, add_zero]

/-- **An uplink batch fits** whenever no backend write is pending, in every state of a run in
which no control frame was charged to the room of the largest batch. -/
theorem uplink_batch_fits (hlimits : Config.ExceedsReserves limits) {σ : Traced}
    (h : ReservedRun sha256 limits carrier σ) (hdone : σ.session.WritesDone) :
    σ.session.UplinkFits := by
  intro body frames hbody hparse _ asked hasked
  have hsession : σ.session.limits = limits := h.reachable.sound.limits_eq
  obtain ⟨haskedCost, haskedItems, hcharged⟩ := parseAll_asks hbody hparse
  obtain ⟨-, hcost, hitems⟩ := hlimits.partitions
  obtain ⟨hroomCost, hroomItems⟩ := h.spares hlimits
  obtain ⟨hpendingCost, hpendingItems⟩ := h.reachable.balanced
  rw [hdone.held] at hpendingCost hpendingItems
  simp only [Prod.fst_zero, Prod.snd_zero, add_zero] at hpendingCost hpendingItems
  rw [hsession] at haskedCost haskedItems
  have hfits : ¬(asked.1 = 0 ∨ (pendingLimits σ.session.limits .uplink).1 < asked.1 ∨
      (pendingLimits σ.session.limits .uplink).2 < asked.2 ∨
      (pendingLimits σ.session.limits .uplink).1 - asked.1 < σ.session.pendingCost ∨
      (pendingLimits σ.session.limits .uplink).2 - asked.2 < σ.session.pendingItems) := by
    have hne : asked.1 ≠ 0 := by
      rcases hasked with hne | hne
      · exact hne
      · exact fun h0 => hne (hcharged.mpr h0)
    have h₁ : asked.1 ≤ Config.batchCost limits := haskedCost
    have h₂ : asked.2 ≤ Config.batchItems limits := haskedItems
    rw [hsession]
    show ¬(asked.1 = 0 ∨ (uplinkPendingLimits limits).1 < asked.1 ∨
      (uplinkPendingLimits limits).2 < asked.2 ∨
      (uplinkPendingLimits limits).1 - asked.1 < σ.session.pendingCost ∨
      (uplinkPendingLimits limits).2 - asked.2 < σ.session.pendingItems)
    omega
  unfold reservePendingLocked
  rw [if_neg hfits]
  rfl

/-- Run sections one after the other, as long as they spare the room of the largest batch. -/
def playSparing (sha256 : Bytes → Bytes) : Traced → List (Section × List Bool) → Option Traced
  | σ, [] => some σ
  | σ, (c, answers) :: rest =>
      (attempt sha256 σ c answers).bind fun p =>
        if c.Spares σ.session ((decisions p.2.trace).drop (decisions σ.trace).length) then
          playSparing sha256 p.2 rest
        else none

theorem ReservedRun.play {σ σ' : Traced} {script : List (Section × List Bool)}
    (h : ReservedRun sha256 limits carrier σ) (hp : playSparing sha256 σ script = some σ') :
    ReservedRun sha256 limits carrier σ' := by
  induction script generalizing σ with
  | nil => cases hp; exact h
  | cons entry rest ih =>
      obtain ⟨⟨r, σ₁⟩, hattempt, hrest⟩ := Option.bind_eq_some_iff.mp hp
      split_ifs at hrest with hspares
      obtain ⟨-, es, -, htrace⟩ := attempt_eq_some hattempt
      refine ih (h.step (.attempt hattempt) ?_ hspares) hrest
      dsimp only
      rw [htrace, decisions_append, List.drop_left]

/-- With the default limits the WINDOW for a byte that was written leaves room enough. -/
theorem uplink_batch_fits_after_window : ∃ σ, ReservedRun id defaultLimits .https σ ∧
    σ.session.pendingItems = 1 ∧ σ.session.UplinkFits := by
  have hplay : (playSparing id ⟨newSession defaultLimits .https, []⟩
      [(.processUpCommit 1 (encode .open 1 [] ++ encode .data 1 [7]), []), (.nextWrite 1, []),
        (.backendDrained 1 1, []), (.backendWriteFinished 1, [])]).map (fun σ =>
      (σ.session.pendingItems, decide σ.session.WritesDone)) = some (1, true) := by
    decide +kernel
  obtain ⟨σ, hσ, hstate⟩ := Option.map_eq_some_iff.mp hplay
  simp only [Prod.mk.injEq, decide_eq_true_eq] at hstate
  have hrun := (@ReservedRun.start id defaultLimits .https).play hσ
  exact ⟨σ, hrun, hstate.1,
    uplink_batch_fits ⟨by decide +kernel, by decide +kernel⟩ hrun hstate.2⟩

/-! ### The batch that a WINDOW keeps out -/

/-- The control frames that are charged in a downlink: those in its queue, and those in the
body that is not yet acknowledged. -/
def Downlink.controls (d : Downlink) : ℕ :=
  d.pendingFrames.countP (fun f => f.typeCode ≠ .data) +
    match parseAll d.unacked maxPayload with
    | .ok frames => frames.countP fun f => f.type ≠ .data
    | .error _ => 0

def Session.controls (s : Session) : ℕ :=
  s.down.controls + Table.total (fun l => l.down.controls) s.carrierLanes

/-- A frame with one byte for a stream that is live there passes `validateBatchLocked`, as often
as its window has bytes. -/
theorem validateLoop_bytes {frozen : Finset ℕ} {live : Table ℕ StreamSnapshot} {id : ℕ}
    {st : StreamSnapshot} {b : UInt8} {n : ℕ} (hid : id ≠ 0) (hfrozen : id ∉ frozen)
    (hlive : live.get id = some st) (hn : n ≤ st.receiveWindow)
    (hwindow : st.receiveWindow ≤ maxUint32) :
    validateLoop frozen live ∅ (List.replicate n ⟨.data, id, [b]⟩) = true := by
  induction n generalizing live st with
  | zero => rfl
  | succ n ih =>
      have hlength : toUint32 [b].length = 1 := rfl
      have hspent : subUint32 st.receiveWindow 1 = st.receiveWindow - 1 := by
        unfold subUint32
        unfold maxUint32 at hwindow
        omega
      rw [List.replicate_succ, validateLoop, if_neg hid]
      simp only [hfrozen, Finset.notMem_empty, or_self, if_false, hlive, hlength]
      rw [if_neg (by omega)]
      refine ih (Table.get_put_self ..) ?_ ?_
      · dsimp only
        omega
      · dsimp only
        omega

/-- What such frames ask for. -/
theorem reservationLoop_bytes {live : Finset ℕ} {id : ℕ} {b : UInt8} (n : ℕ) (hid : id ≠ 0)
    (hlive : id ∈ live) : reservationLoop live (List.replicate n ⟨.data, id, [b]⟩) =
      (n * (1 + queueItemCost), n) := by
  induction n with
  | zero => rfl
  | succ n ih =>
      rw [List.replicate_succ, reservationLoop, if_neg hid]
      dsimp only
      rw [if_pos hlive, ih]
      refine Prod.ext ?_ ?_
      · dsimp only [List.length_singleton]
        rw [Nat.succ_mul, Nat.add_comm]
      · exact Nat.add_comm 1 n

theorem encodeAll_replicate_length (n : ℕ) (f : Frame) :
    (encodeAll (List.replicate n f)).length = n * f.encode.length := by
  induction n with
  | zero => simp
  | succ n ih =>
      rw [List.replicate_succ, encodeAll_cons, List.length_append, ih, Nat.succ_mul, Nat.add_comm]

/-- Where every batch fits there is room for as many items as one can ask for: `n` bytes for a
live stream, each in a frame of its own. -/
theorem Session.UplinkFits.items {id n : ℕ} {st : StreamState} (h : s.UplinkFits)
    (hst : s.streams.get id = some st) (hid : id ≠ 0 ∧ id ≤ maxStreamID)
    (hclosed : id ∉ s.closedStreams)
    (hwindow : n ≤ st.receiveWindow ∧ st.receiveWindow ≤ maxUint32)
    (hn : 1 ≤ n ∧ n ≤ maxBatchFrames) (hbody : n * (headerSize + 1) ≤ s.limits.maxBodyBytes)
    (hframe : 1 ≤ s.limits.maxFramePayload ∧ s.limits.maxFramePayload ≤ maxPayload) :
    s.pendingItems + n ≤ (uplinkPendingLimits s.limits).2 := by
  let f : Frame := ⟨.data, id, [7]⟩
  have hasked : backendWriteReservationLocked s (List.replicate n f) =
      (n * (1 + queueItemCost), n) := by
    refine reservationLoop_bytes n hid.1 (List.mem_toFinset.mpr ?_)
    exact (Table.mem_keys_iff _ _).mpr (by rw [hst]; simp)
  have hparse : parseAll (encodeAll (List.replicate n f)) s.limits.maxFramePayload =
      .ok (List.replicate n f) := by
    refine parseAll_encodeAll hframe.1 hframe.2 ⟨?_, ?_, ?_⟩
    · rw [List.length_replicate]
      exact hn.1
    · rw [List.length_replicate]
      exact hn.2
    · intro g hg
      rw [List.eq_of_mem_replicate hg]
      exact ⟨rfl, hid.2, hframe.1⟩
  have hvalid : validateBatchLocked s (List.replicate n f) = true := by
    have hsnapshot : s.snapshot.get id = some ⟨st.receiveWindow, st.sendCredit⟩ := by
      rw [Session.snapshot, Table.get_mapValues, hst]
      rfl
    exact validateLoop_bytes hid.1 hclosed hsnapshot hwindow.1 hwindow.2
  have hfits := h _ _ (by rw [encodeAll_replicate_length]; exact hbody) hparse hvalid
    (by rw [hasked]; exact .inr (by dsimp only; omega))
  rw [hasked] at hfits
  by_contra hmore
  unfold reservePendingLocked at hfits
  have hrefused : n * (1 + queueItemCost) = 0 ∨
      (pendingLimits s.limits .uplink).1 < n * (1 + queueItemCost) ∨
      (pendingLimits s.limits .uplink).2 < n ∨
      (pendingLimits s.limits .uplink).1 - n * (1 + queueItemCost) < s.pendingCost ∨
      (pendingLimits s.limits .uplink).2 - n < s.pendingItems := by
    have hitems : (pendingLimits s.limits .uplink).2 = (uplinkPendingLimits s.limits).2 := rfl
    omega
  rw [if_pos hrefused] at hfits
  cases congrArg (fun r => r.2.toOption.map (·.2)) hfits

/-- The smallest bodies that start-up accepts, one stream, and room for one item of downlink DATA
beside the reserves. -/
def oneDataItem : Config where
  limits := { Config.defaults with maxBodyBytes := 256 * 1024, carrierBatchBytes := 256 * 1024,
                                   maxStreamsPerSession := 1, maxPendingItemsPerSession := 4116 }
  bootstrapLifetime := 120 * 10 ^ 9
  profiles := [{ name := "alpha", capability := zeroDigest }]
  valid := by decide +kernel
  profilesValid := by decide +kernel
  budgetValid := by decide +kernel

/-- DATA for the client fills its partition, then a byte from the client is written to the
backend and acknowledged with a WINDOW. -/
def dataThenWindow : List (Section × List Bool) :=
  [(.processUpCommit 1 (encode .open 1 []), []), (.backendData 1 [1], []),
    (.processUpCommit 2 (encode .data 1 [7]), []), (.nextWrite 1, []),
    (.backendDrained 1 1, []), (.backendWriteFinished 1, [])]

/-- One WINDOW is charged where nineteen may be, no write is pending, and a batch of 4096 frames
is refused by the session. -/
theorem batch_refused_behind_window : ∃ p ∈ oneDataItem.profiles, ∃ σ,
    Reachable id (oneDataItem.sessionLimits p) p.carrierMode σ ∧
    Config.ExceedsReserves (oneDataItem.sessionLimits p) ∧ σ.session.WritesDone ∧
    σ.session.controls ≤ (pendingControlReserve (oneDataItem.sessionLimits p)).2 ∧
    ¬ σ.session.UplinkFits := by
  refine ⟨_, List.mem_singleton.mpr rfl, ?_⟩
  set limits := oneDataItem.sessionLimits { name := "alpha", capability := zeroDigest }
  have hplay : (play id ⟨newSession limits .https, []⟩ dataThenWindow).map (fun σ =>
      (decide σ.session.WritesDone, σ.session.controls, σ.session.pendingItems,
        decide (1 ∈ σ.session.closedStreams),
        (σ.session.streams.get 1).map StreamState.receiveWindow)) =
      some (true, 1, 2, false, some initialStreamWindow) := by decide +kernel
  obtain ⟨σ, hσ, hstate⟩ := Option.map_eq_some_iff.mp hplay
  simp only [Prod.mk.injEq, decide_eq_true_eq, decide_eq_false_iff_not] at hstate
  obtain ⟨hdone, hcontrols, hitems, hclosed, hwindow⟩ := hstate
  obtain ⟨st, hst, hwindow⟩ := Option.map_eq_some_iff.mp hwindow
  have hreach : Reachable id limits .https σ := Reachable.start.play hσ
  refine ⟨σ, hreach, ⟨by decide +kernel, by decide +kernel⟩, hdone, ?_, ?_⟩
  · rw [hcontrols]
    decide +kernel
  · intro hfits
    have hroom := hfits.items (n := 4096) hst (by decide) hclosed (by rw [hwindow]; decide)
      (by decide) (by rw [hreach.sound.limits_eq]; decide +kernel)
      (by rw [hreach.sound.limits_eq]; decide +kernel)
    rw [hitems, hreach.sound.limits_eq] at hroom
    exact absurd hroom (by decide +kernel)

end TproxyServer
