import TproxyServer.Bridge

/-! # What the bridge page counts is what it holds

`queuedBytes` and `queuedItems` are the sizes of the queues and of the bodies in flight, and
`lane.bytes` and `lane.items` are a lane's share of them, lanes that have left the map and are
still draining included.  `Books e s` says so of a script that has `e` in hand besides; every
function of the script moves sizes from one place to another. -/

namespace TproxyServer

namespace Page

variable {p : Params} {s s' : Script} {e : ℤ × ℤ}

/-! ### A closed script -/

/-- Once closed, the script stays so and sends nothing more.  It may still make lane objects. -/
structure Shut (s s' : Script) : Prop where
  closed : s'.closed = true
  sent : s'.sent = s.sent
  arrived : s.arrived <+: s'.arrived
  lanes : ∀ id o, s'.lanes.get id = some o → s.lanes.get id = some o ∨ s.nextObject ≤ o
  next : s.nextObject ≤ s'.nextObject

theorem Shut.of_eq (hclosed : s'.closed = true) (hsent : s'.sent = s.sent)
    (harrived : s'.arrived = s.arrived) (hlanes : s'.lanes = s.lanes)
    (hnext : s'.nextObject = s.nextObject) : Shut s s' :=
  ⟨hclosed, hsent, by rw [harrived], fun id o h => .inl (hlanes ▸ h), hnext.ge⟩

theorem Shut.trans {s'' : Script} (h : Shut s s') (h' : Shut s' s'') : Shut s s'' where
  closed := h'.closed
  sent := h'.sent.trans h.sent
  arrived := h.arrived.trans h'.arrived
  lanes id o ho := by
    rcases h'.lanes id o ho with hmid | hnew
    · exact h.lanes id o hmid
    · exact .inr (h.next.trans hnew)
  next := h.next.trans h'.next

namespace Script

theorem fail_closed (s : Script) : s.fail.closed = true := by
  unfold fail close
  split_ifs with h
  · exact h
  · rfl

theorem fail_of_closed (hc : s.closed = true) : s.fail = s := if_pos hc

theorem fail_shut (hc : s.closed = true) : Shut s s.fail := by
  rw [fail_of_closed hc]
  exact .of_eq hc rfl rfl rfl rfl

theorem reserve_shut {data : Bytes} {lane : Option ℕ} (hc : s.closed = true)
    (h : s.reserve p data lane = some s') : Shut s s' := by
  unfold reserve at h
  dsimp only at h
  split_ifs at h
  cases lane with
  | none =>
      cases h
      exact .of_eq hc rfl rfl rfl rfl
  | some o =>
      dsimp only at h
      split_ifs at h
      cases h
      exact .of_eq hc rfl rfl rfl rfl

theorem release_shut (hc : s.closed = true) (bytes items : ℤ) (lane : Option ℕ) :
    Shut s (s.release bytes items lane) := by
  cases lane <;> exact .of_eq hc rfl rfl rfl rfl

theorem post_shut (hc : s.closed = true) (data : Bytes) : Shut s (s.post p data) := by
  unfold post
  split_ifs
  · cases splitFrames data with
    | error _ => exact fail_shut hc
    | ok frames => exact .of_eq hc rfl rfl rfl rfl
  · exact .of_eq hc rfl rfl rfl rfl

theorem upLoop_shut (hc : s.closed = true) : Shut s (s.upLoop p) := by
  unfold upLoop
  rw [if_neg (by simp [hc])]
  exact .of_eq hc rfl rfl rfl rfl

theorem runUp_shut (hc : s.closed = true) : Shut s (s.runUp p) := by
  unfold runUp
  split_ifs
  · exact .of_eq hc rfl rfl rfl rfl
  · have hstart : Shut s { s with upRunning := true } := .of_eq hc rfl rfl rfl rfl
    exact hstart.trans (upLoop_shut hc)

theorem queueUp_shut (hc : s.closed = true) (data : Bytes) : Shut s (s.queueUp p data) := by
  unfold queueUp
  cases h : s.reserve p data none with
  | none => exact fail_shut hc
  | some s₁ =>
      have h₁ := reserve_shut hc h
      have hpush : Shut s₁ { s₁ with upPending := s₁.upPending ++ [data] } :=
        .of_eq h₁.closed rfl rfl rfl rfl
      exact h₁.trans (hpush.trans (runUp_shut h₁.closed))

theorem runWebSocketUp_shut (hc : s.closed = true) : Shut s (s.runWebSocketUp p) := by
  unfold runWebSocketUp
  cases s.webSocket with
  | none => exact .of_eq hc rfl rfl rfl rfl
  | some w =>
      dsimp only
      rw [if_pos (.inl hc)]
      exact .of_eq hc rfl rfl rfl rfl

theorem queueWebSocket_shut (hc : s.closed = true) (data : Bytes) :
    Shut s (s.queueWebSocket p data) := by
  unfold queueWebSocket
  cases h : s.reserve p data none with
  | none => exact fail_shut hc
  | some s₁ =>
      have h₁ := reserve_shut hc h
      have hpush : Shut s₁ { s₁ with upPending := s₁.upPending ++ [data] } :=
        .of_eq h₁.closed rfl rfl rfl rfl
      exact h₁.trans (hpush.trans (runWebSocketUp_shut h₁.closed))

theorem putLane_shut (hc : s.closed = true) (o : ℕ) (l : Lane) : Shut s (s.putLane o l) :=
  .of_eq hc rfl rfl rfl rfl

theorem ensureLane_shut (hc : s.closed = true) (id : ℤ) : Shut s (s.ensureLane id).1 := by
  unfold ensureLane
  cases s.lanes.get id with
  | some o => exact .of_eq hc rfl rfl rfl rfl
  | none =>
      refine ⟨hc, rfl, List.prefix_refl _, ?_, Nat.le_succ _⟩
      intro i o h
      have hput : (s.lanes.put id s.nextObject).get i = some o := h
      rw [Table.get_put] at hput
      split_ifs at hput
      · cases hput
        exact .inr le_rfl
      · exact .inl hput

theorem rememberLaneClosed_shut (hc : s.closed = true) (id : ℤ) :
    Shut s (s.rememberLaneClosed id) := by
  unfold rememberLaneClosed
  split_ifs <;> exact .of_eq hc rfl rfl rfl rfl

theorem delLane_shut (hc : s.closed = true) (id : ℤ) :
    Shut s { s with lanes := s.lanes.del id } := by
  refine ⟨hc, rfl, List.prefix_refl _, ?_, le_rfl⟩
  intro i o h
  have hdel : (s.lanes.del id).get i = some o := h
  rw [Table.get_del] at hdel
  split_ifs at hdel
  exact .inl hdel

theorem pollLane_shut (hc : s.closed = true) (o : ℕ) : Shut s (s.pollLane o) := by
  unfold pollLane
  split_ifs
  · exact .of_eq hc rfl rfl rfl rfl
  · exact putLane_shut hc o _

theorem laneLoop_shut (hc : s.closed = true) (o : ℕ) : Shut s (s.laneLoop p o) := by
  unfold laneLoop
  dsimp only
  rw [if_neg (by simp [hc])]
  exact putLane_shut hc o _

theorem runLaneUp_shut (hc : s.closed = true) (o : ℕ) : Shut s (s.runLaneUp p o) := by
  unfold runLaneUp
  dsimp only
  split_ifs
  · exact .of_eq hc rfl rfl rfl rfl
  · have hput := putLane_shut hc o { s.lane o with running := true }
    exact hput.trans (laneLoop_shut hput.closed o)

theorem pushLane_shut (hc : s.closed = true) (o : ℕ) (value : Value) :
    Shut s (s.pushLane p o value) := by
  unfold pushLane
  cases h : s.reserve p value.data (some o) with
  | none => exact fail_shut hc
  | some s₁ =>
      have h₁ := reserve_shut hc h
      have hput := putLane_shut h₁.closed o
        { s₁.lane o with pending := (s₁.lane o).pending ++ [value.data] }
      exact h₁.trans (hput.trans (runLaneUp_shut hput.closed o))

theorem queueLane_shut (hc : s.closed = true) {value : Value}
    (h : s.queueLane p value = .ok s') : Shut s s' := by
  unfold queueLane at h
  cases hl : s.lanes.get value.id with
  | some o =>
      rw [hl] at h
      cases h
      exact pushLane_shut hc o value
  | none =>
      rw [hl] at h
      dsimp only at h
      split_ifs at h
      · cases h
        exact .of_eq hc rfl rfl rfl rfl
      · cases h
        have hensure := ensureLane_shut hc value.id
        exact hensure.trans (pushLane_shut hensure.closed _ value)

theorem runWebSocketLaneUp_shut (hc : s.closed = true) (o : ℕ) :
    Shut s (s.runWebSocketLaneUp p o) := by
  unfold runWebSocketLaneUp
  dsimp only
  cases (s.lane o).socket with
  | none => exact .of_eq hc rfl rfl rfl rfl
  | some w =>
      dsimp only
      rw [if_pos (.inl hc)]
      exact .of_eq hc rfl rfl rfl rfl

theorem pushWebSocketLane_shut (hc : s.closed = true) (o : ℕ) (value : Value) :
    Shut s (s.pushWebSocketLane p o value) := by
  unfold pushWebSocketLane
  cases h : s.reserve p value.data (some o) with
  | none => exact fail_shut hc
  | some s₁ =>
      have h₁ := reserve_shut hc h
      dsimp only
      generalize hput : s₁.putLane o _ = s₂
      have h₂ : Shut s s₂ := by
        rw [← hput]
        exact h₁.trans (putLane_shut h₁.closed o _)
      cases (s₁.lane o).socket with
      | none => exact h₂.trans (putLane_shut h₂.closed o _)
      | some w => exact h₂.trans (runWebSocketLaneUp_shut h₂.closed o)

theorem queueWebSocketLane_shut (hc : s.closed = true) {value : Value}
    (h : s.queueWebSocketLane p value = .ok s') : Shut s s' := by
  unfold queueWebSocketLane at h
  cases hl : s.lanes.get value.id with
  | some o =>
      rw [hl] at h
      dsimp only at h
      split_ifs at h
      cases h
      exact pushWebSocketLane_shut hc o value
  | none =>
      rw [hl] at h
      dsimp only at h
      split_ifs at h
      · cases h
        exact .of_eq hc rfl rfl rfl rfl
      · cases h
        have hensure := ensureLane_shut hc value.id
        exact hensure.trans (pushWebSocketLane_shut hensure.closed _ value)

theorem queueValues_shut {queue : Script → Params → Value → Except String Script}
    (hqueue : ∀ {s s' value}, s.closed = true → queue s p value = .ok s' → Shut s s')
    (hc : s.closed = true) (values : List Value) : Shut s (queueValues p queue s values) := by
  induction values generalizing s with
  | nil => exact .of_eq hc rfl rfl rfl rfl
  | cons value rest ih =>
      unfold queueValues
      cases h : queue s p value with
      | error _ => exact fail_shut hc
      | ok s₁ =>
          have h₁ := hqueue hc h
          exact h₁.trans (ih h₁.closed)

theorem queueCarrier_shut (hc : s.closed = true) (data : Bytes) :
    Shut s (s.queueCarrier p data) := by
  unfold queueCarrier
  dsimp only
  cases p.carrierMode with
  | https => exact queueUp_shut hc data
  | httpsLanes =>
      dsimp only
      cases splitFrames data with
      | error _ => exact fail_shut hc
      | ok values => exact queueValues_shut (fun hc h => queueLane_shut hc h) hc values
  | webSocket => exact queueWebSocket_shut hc data
  | webSocketLanes =>
      dsimp only
      cases splitFrames data with
      | error _ => exact fail_shut hc
      | ok values => exact queueValues_shut (fun hc h => queueWebSocketLane_shut hc h) hc values

theorem drainLoop_shut (hc : s.closed = true) (values : List Bytes) :
    Shut s (drainLoop p s values) := by
  induction values generalizing s with
  | nil => exact .of_eq hc rfl rfl rfl rfl
  | cons data rest ih =>
      have hrelease := release_shut hc data.length 1 none
      have hqueue := hrelease.trans (queueCarrier_shut (p := p) hrelease.closed data)
      exact hqueue.trans (ih hqueue.closed)

theorem poll_shut (hc : s.closed = true) : Shut s s.poll := .of_eq hc rfl rfl rfl rfl

theorem upAnswered_shut (hc : s.closed = true) (batch : Batch) (r : Option UpResponse) :
    Shut s (s.upAnswered p batch r) := by
  have hfail : Shut s { Script.fail { s with upBatch := none } with upRunning := false } := by
    rw [fail_of_closed (s := { s with upBatch := none }) hc]
    exact .of_eq hc rfl rfl rfl rfl
  unfold upAnswered
  cases r with
  | none => exact hfail
  | some r =>
      dsimp only
      split_ifs
      · exact hfail
      · have hgo : Shut s { Script.release { s with upBatch := none } batch.total batch.count none
            with upSequence := s.upSequence + 1 } := .of_eq hc rfl rfl rfl rfl
        exact hgo.trans (upLoop_shut hgo.closed)

theorem pollAnswered_shut (hc : s.closed = true) (r : Option DownResponse) :
    Shut s (s.pollAnswered p r) := by
  have hstop : Shut s { s.fail with polling := false } := by
    rw [fail_of_closed hc]
    exact .of_eq hc rfl rfl rfl rfl
  unfold pollAnswered
  cases r with
  | none => exact hstop
  | some r =>
      dsimp only
      by_cases hempty : r.status = 204
      · rw [if_pos hempty]
        exact poll_shut hc
      rw [if_neg hempty]
      by_cases hstatus : r.status ≠ 200
      · rw [if_pos hstatus]
        exact hstop
      rw [if_neg hstatus]
      cases r.data with
      | none => exact hstop
      | some data =>
          dsimp only
          split_ifs
          · exact hstop
          · exact .of_eq hc rfl rfl rfl rfl

theorem laneAnswered_shut (hc : s.closed = true) (o : ℕ) (batch : Batch)
    (r : Option UpResponse) : Shut s (s.laneAnswered p o batch r) := by
  have hclear := putLane_shut hc o { s.lane o with batch := none }
  have hstop := hclear.trans ((fail_shut hclear.closed).trans (putLane_shut (fail_closed _) o
    { (s.putLane o { s.lane o with batch := none }).fail.lane o with running := false }))
  have hgo : ∀ (s₁ : Script) (l : Lane), s₁.closed = true →
      Shut s₁ (((s₁.putLane o l).pollLane o).laneLoop p o) := by
    intro s₁ l hc₁
    have hput := putLane_shut hc₁ o l
    have hpoll := hput.trans (pollLane_shut hput.closed o)
    exact hpoll.trans (laneLoop_shut hpoll.closed o)
  unfold laneAnswered
  cases r with
  | none => exact hstop
  | some r =>
      dsimp only
      split_ifs
      · exact hstop
      · have hrelease := hclear.trans
          (release_shut hclear.closed batch.total batch.count (some o))
        exact hrelease.trans (hgo _ _ hrelease.closed)

theorem lanePollAnswered_shut (hc : s.closed = true) (o : ℕ) (r : Option DownResponse) :
    Shut s (s.lanePollAnswered p o r) := by
  have hstop : Shut s (s.fail.putLane o { s.fail.lane o with polling := false }) := by
    rw [fail_of_closed hc]
    exact putLane_shut hc o _
  unfold lanePollAnswered
  cases r with
  | none => exact hstop
  | some r =>
      dsimp only
      by_cases hempty : r.status = 204
      · rw [if_pos hempty]
        split_ifs
        · have hdel := delLane_shut hc (s.lane o).id
          have hremember := hdel.trans (rememberLaneClosed_shut hdel.closed (s.lane o).id)
          exact hremember.trans (putLane_shut hremember.closed o _)
        · exact putLane_shut hc o _
      rw [if_neg hempty]
      by_cases hstatus : r.status ≠ 200
      · rw [if_pos hstatus]
        exact hstop
      rw [if_neg hstatus]
      cases r.data with
      | none => exact hstop
      | some data =>
          dsimp only
          cases splitFrames data with
          | error _ => exact hstop
          | ok values =>
              dsimp only
              split_ifs
              · exact hstop
              · exact putLane_shut hc o _

theorem laneOpened_shut (hc : s.closed = true) (o : ℕ) (w : Socket) :
    Shut s (s.laneOpened p o w) := by
  unfold laneOpened
  dsimp only
  rw [if_pos (.inl hc)]
  exact putLane_shut hc o _

theorem laneMessage_shut (hc : s.closed = true) (o : ℕ) (data : Option Bytes) :
    Shut s (s.laneMessage p o data) := by
  unfold laneMessage
  cases data with
  | none => exact fail_shut hc
  | some data =>
      dsimp only
      by_cases hempty : data.length = 0
      · rw [if_pos hempty]
        exact fail_shut hc
      rw [if_neg hempty]
      cases splitFrames data with
      | error _ => exact fail_shut hc
      | ok values =>
          dsimp only
          split_ifs
          · exact fail_shut hc
          · have hput := putLane_shut hc o { s.lane o with remoteClosed := true }
            exact hput.trans (post_shut hput.closed data)
          · exact post_shut hc data

theorem laneClosed_shut (hc : s.closed = true) (o : ℕ) : Shut s (s.laneClosed p o) := by
  unfold laneClosed
  dsimp only
  rw [if_pos (.inl hc)]
  exact .of_eq hc rfl rfl rfl rfl

theorem message_shut (hc : s.closed = true) (data : Bytes) : Shut s (s.message p data) := by
  have harrive : Shut s { s with arrived := s.arrived ++ [data] } :=
    ⟨hc, rfl, List.prefix_append _ _, fun _ _ h => .inl h, le_rfl⟩
  unfold message
  split_ifs
  · exact .of_eq hc rfl rfl rfl rfl
  · dsimp only
    split_ifs
    · cases hr : reserve { s with arrived := s.arrived ++ [data] } p data none with
      | none => exact harrive.trans (fail_shut harrive.closed)
      | some s₁ =>
          have hreserve := harrive.trans (reserve_shut harrive.closed hr)
          have hpush : Shut s₁ { s₁ with pending := s₁.pending ++ [data] } :=
            .of_eq hreserve.closed rfl rfl rfl rfl
          exact hreserve.trans hpush
    · exact harrive.trans (queueCarrier_shut harrive.closed data)

theorem ended_shut (hc : s.closed = true) : Shut s { s.fail with creating := .ended } := by
  rw [fail_of_closed hc]
  exact .of_eq hc rfl rfl rfl rfl

theorem sessionAnswered_shut (hc : s.closed = true) (r : Option SessionResponse) :
    Shut s (s.sessionAnswered p r) := by
  have htaken : ∀ token cursor, Shut s { s with sessionToken := token, downCursor := cursor } :=
    fun _ _ => .of_eq hc rfl rfl rfl rfl
  unfold sessionAnswered
  cases r with
  | none => exact ended_shut hc
  | some r =>
      dsimp only
      by_cases hstatus : r.status ≠ 200 ∨ r.carrierMode ≠ p.carrierMode.text
      · rw [if_pos hstatus]
        exact ended_shut hc
      rw [if_neg hstatus]
      by_cases htoken : r.token = ""
      · rw [if_pos htoken]
        exact (htaken _ _).trans (ended_shut (htaken _ _).closed)
      rw [if_neg htoken, if_pos hc]
      exact .of_eq hc rfl rfl rfl rfl

theorem connected_shut (hc : s.closed = true) (welcome : Bytes) :
    Shut s (s.connected p welcome) := by
  unfold connected
  dsimp only
  rw [if_pos hc]
  exact .of_eq hc rfl rfl rfl rfl

theorem welcomed_shut (hc : s.closed = true) (r : Option Bytes) : Shut s (s.welcomed p r) := by
  unfold welcomed
  cases r with
  | none => exact ended_shut hc
  | some welcome =>
      dsimp only
      split_ifs
      · exact .of_eq hc rfl rfl rfl rfl
      · exact connected_shut hc welcome

/-- Nothing opens a script again. -/
theorem next_shut {i : Input} (hc : s.closed = true) (h : s.next p i = some s') : Shut s s' := by
  have hafter : ∀ {s₁ s₂ : Script}, (s₁.closed = true → Shut s₁ s₂) → Shut s s₁ → Shut s s₂ :=
    fun hthen h => h.trans (hthen h.closed)
  unfold next at h
  cases i with
  | message data =>
      cases h
      exact message_shut hc data
  | close =>
      cases h
      have hclose : s.close = s := if_pos hc
      rw [hclose]
      exact .of_eq hc rfl rfl rfl rfl
  | sessionAnswered r =>
      dsimp only at h
      split at h
      · cases h
        exact sessionAnswered_shut hc r
      · cases h
  | welcomed r =>
      dsimp only at h
      split_ifs at h
      cases h
      exact welcomed_shut hc r
  | resumed =>
      dsimp only at h
      split at h
      · cases h
        exact connected_shut hc _
      · cases h
        exact ended_shut hc
      · cases h
  | upAnswered r =>
      dsimp only at h
      split at h
      · cases h
        exact upAnswered_shut hc _ r
      · cases h
  | polled r =>
      dsimp only at h
      split_ifs at h
      cases h
      exact pollAnswered_shut hc r
  | laneAnswered o r =>
      dsimp only at h
      split at h
      · cases h
        exact laneAnswered_shut hc o _ r
      · cases h
  | lanePolled o r =>
      dsimp only at h
      split_ifs at h
      cases h
      exact lanePollAnswered_shut hc o r
  | webSocketOpen =>
      dsimp only at h
      split at h
      · split_ifs at h
        split at h
        · cases h
          exact .of_eq hc rfl rfl rfl rfl
        · cases h
          exact .of_eq hc rfl rfl rfl rfl
      · cases h
  | webSocketMessage data =>
      dsimp only at h
      split at h
      · split_ifs at h
        cases data with
        | none =>
            cases h
            exact fail_shut hc
        | some data =>
            cases h
            split_ifs
            · exact fail_shut hc
            · exact post_shut hc data
      · cases h
  | webSocketError =>
      dsimp only at h
      split at h
      · cases h
        exact .of_eq hc rfl rfl rfl rfl
      · cases h
  | webSocketClose =>
      dsimp only at h
      split at h
      · split_ifs at h
        cases h
        exact hafter (fun hc => fail_shut hc) (.of_eq hc rfl rfl rfl rfl)
      · cases h
  | webSocketTimer =>
      dsimp only at h
      split_ifs at h with hgo
      rw [hc] at hgo
      cases hgo.2
  | webSocketTask =>
      dsimp only at h
      split_ifs at h
      cases h
      exact hafter (fun hc => runWebSocketUp_shut hc) (.of_eq hc rfl rfl rfl rfl)
  | laneOpen o =>
      dsimp only at h
      split at h
      · split_ifs at h
        cases h
        exact laneOpened_shut hc o _
      · cases h
  | laneMessage o data =>
      dsimp only at h
      split at h
      · split_ifs at h
        cases h
        exact laneMessage_shut hc o data
      · cases h
  | laneClose o =>
      dsimp only at h
      split at h
      · split_ifs at h
        cases h
        exact hafter (fun hc => laneClosed_shut hc o) (putLane_shut hc o _)
      · cases h
  | laneTimer o =>
      dsimp only at h
      split_ifs at h with hgo
      rw [hc] at hgo
      cases hgo.2.2
  | laneTask o =>
      dsimp only at h
      split_ifs at h
      cases h
      exact hafter (fun hc => runWebSocketLaneUp_shut hc o) (putLane_shut hc o _)
  | transmitted lane amount =>
      cases lane with
      | none =>
          dsimp only at h
          split at h
          · cases h
            exact .of_eq hc rfl rfl rfl rfl
          · cases h
      | some o =>
          dsimp only at h
          split at h
          · cases h
            exact putLane_shut hc o _
          · cases h

end Script

/-! ### What `joinPending` takes -/

theorem boundLoop_le {value : Bytes} {maxFrames maxBytes offset frames : ℕ} {b : Bound}
    (hoffset : offset ≤ value.length)
    (h : boundLoop value maxFrames maxBytes offset frames = .ok b) : b.bytes ≤ value.length := by
  induction offset, frames using boundLoop.induct value maxFrames maxBytes with
  | case1 offset frames hlt hheader =>
      rw [boundLoop, if_pos hlt, if_pos hheader] at h
      cases h
  | case2 offset frames hlt hheader size stop hstop =>
      rw [boundLoop, if_pos hlt, if_neg hheader] at h
      dsimp only at h
      rw [if_pos hstop] at h
      cases h
  | case3 offset frames hlt hheader size stop hstop hfull =>
      rw [boundLoop, if_pos hlt, if_neg hheader] at h
      dsimp only at h
      rw [if_neg hstop, if_pos hfull] at h
      cases h
      exact hoffset
  | case4 offset frames hlt hheader size stop hstop hfull ih =>
      rw [boundLoop, if_pos hlt, if_neg hheader] at h
      dsimp only at h
      rw [if_neg hstop, if_neg hfull] at h
      exact ih (Nat.not_lt.mp hstop) h
  | case5 offset frames hlt =>
      rw [boundLoop, if_neg hlt] at h
      cases h
      exact hoffset

/-- The loop takes whole items, or cuts the very first. -/
theorem packLoop_takes {batchLimit total count frames : ℕ} {values : List Bytes} {pack : Pack}
    (h : packLoop batchLimit total count frames values = .ok pack) :
    (∃ n ≤ values.length, pack = .whole (total + (values.take n).flatten.length) (count + n)) ∨
      ∃ value rest bytes, values = value :: rest ∧ count = 0 ∧ bytes ≤ value.length ∧
        pack = .cut bytes := by
  induction values generalizing total count frames with
  | nil =>
      cases h
      exact .inl ⟨0, le_rfl, by simp⟩
  | cons value rest ih =>
      rw [packLoop] at h
      cases hbound : frameBound value 4096 batchLimit with
      | error e =>
          rw [hbound] at h
          cases h
      | ok bound =>
          rw [hbound] at h
          dsimp only at h
          split_ifs at h with hcut hfull
          · cases h
            have hle : bound.bytes ≤ value.length := boundLoop_le (Nat.zero_le _) hbound
            exact .inr ⟨value, rest, bound.bytes, rfl, hcut.1, hle, rfl⟩
          · cases h
            exact .inl ⟨0, Nat.zero_le _, by simp⟩
          · rcases ih h with ⟨n, hn, rfl⟩ | ⟨_, _, _, _, hzero, _⟩
            · refine .inl ⟨n + 1, Nat.succ_le_succ hn, ?_⟩
              rw [List.take_succ_cons, List.flatten_cons, List.length_append]
              congr 1
              · omega
              · omega
            · omega

/-- What every call of `joinPending` on a queue that is not empty does, whatever is queued. -/
structure Takes (values : List Bytes) (j : Joined) : Prop where
  total : j.batch.total = j.batch.body.length
  lossless : j.batch.body ++ j.values.flatten = values.flatten
  counted : j.values.length + j.batch.count = values.length + j.added

theorem joinPending_takes {batchLimit : ℕ} {values : List Bytes} {j : Joined}
    (h : joinPending batchLimit values = .ok j) : Takes values j := by
  unfold joinPending at h
  cases hpack : packLoop batchLimit 0 0 0 values with
  | error e =>
      rw [hpack] at h
      cases h
  | ok pack =>
      rw [hpack] at h
      rcases packLoop_takes hpack with ⟨n, hn, rfl⟩ | ⟨value, rest, bytes, rfl, -, hle, rfl⟩
      · cases h
        refine ⟨by simp, ?_, ?_⟩
        · rw [Nat.zero_add, ← List.flatten_append, List.take_append_drop]
        · dsimp only
          rw [Nat.zero_add, List.length_drop]
          omega
      · cases h
        refine ⟨?_, ?_, ?_⟩
        · simp only [slice, List.headD_cons, List.drop_zero, List.length_take]
          omega
        · simp only [slice, List.headD_cons, List.tail_cons, List.drop_zero, Nat.sub_zero,
            List.flatten_cons]
          rw [← List.append_assoc, ← List.length_drop, List.take_length, List.take_append_drop]
        · simp

/-! ### Sizes -/

/-- The bytes and items of a queue. -/
def size (values : List Bytes) : ℤ × ℤ := (values.flatten.length, values.length)

/-- The bytes and items of a body in flight. -/
def inFlight : Option Batch → ℤ × ℤ
  | none => 0
  | some batch => (batch.body.length, batch.count)

/-- What a lane has queued and in flight. -/
def Lane.share (l : Lane) : ℤ × ℤ := size l.pending + inFlight l.batch

/-- What the script has queued and in flight. -/
def Script.share (s : Script) : ℤ × ℤ :=
  size s.pending + size s.upPending + inFlight s.upBatch + Table.total Lane.share s.objects

theorem size_append (values : List Bytes) (data : Bytes) :
    size (values ++ [data]) = size values + ((data.length : ℤ), 1) := by
  simp [size]

/-- Taking a batch moves its size, and adds an item where it cuts one. -/
theorem Takes.size {values : List Bytes} {j : Joined} (h : Takes values j) :
    Page.size j.values + inFlight (some j.batch) = Page.size values + (0, (j.added : ℤ)) := by
  have hbytes := congrArg List.length h.lossless
  rw [List.length_append] at hbytes
  have hitems := h.counted
  unfold Page.size inFlight
  refine Prod.ext ?_ ?_
  · show (j.values.flatten.length : ℤ) + j.batch.body.length = values.flatten.length + 0
    omega
  · show (j.values.length : ℤ) + j.batch.count = values.length + j.added
    omega

theorem Script.share_putLane (s : Script) (o : ℕ) (l : Lane) :
    (s.lane o).share + (s.putLane o l).share = l.share + s.share := by
  have htotal : (s.lane o).share + Table.total Lane.share (s.objects.put o l) =
      l.share + Table.total Lane.share s.objects := by
    unfold Script.lane
    cases h : s.objects.get o with
    | some l₀ => exact Table.total_put_of_get Lane.share s.objects h
    | none =>
        rw [Table.total_put_of_none Lane.share s.objects l h]
        exact zero_add _
  show (s.lane o).share + (Page.size s.pending + Page.size s.upPending + inFlight s.upBatch +
    Table.total Lane.share (s.objects.put o l)) = _
  rw [add_left_comm, htotal, add_left_comm]
  rfl

/-! ### The books -/

/-- The books of a lane.  A lane has a request under way only over HTTPS, and a socket only
where it has one of its own. -/
structure Lane.Kept (p : Params) (l : Lane) : Prop where
  counted : (l.bytes, l.items) = l.share
  idle : l.running = false → l.batch = none
  whole : ∀ batch, l.batch = some batch → batch.total = batch.body.length
  batch : l.batch ≠ none → p.carrierMode = .httpsLanes
  socket : l.socket ≠ none → p.carrierMode = .webSocketLanes

/-- The counters are the sizes, and `e` in hand; the lanes of the map are objects made under
their ids. -/
structure Books (p : Params) (e : ℤ × ℤ) (s : Script) : Prop where
  queued : (s.queuedBytes, s.queuedItems) = s.share + e
  idle : s.upRunning = false → s.upBatch = none
  whole : ∀ batch, s.upBatch = some batch → batch.total = batch.body.length
  lanes : ∀ o, (s.lane o).Kept p
  fresh : ∀ o, s.nextObject ≤ o → s.objects.get o = none
  mapped : ∀ id o, s.lanes.get id = some o → o < s.nextObject ∧ (s.lane o).id = id

/-- The books are kept as long as the script is open. -/
def Keeps (p : Params) (e : ℤ × ℤ) (s : Script) : Prop := s.closed = true ∨ Books p e s

theorem Keeps.fail (s : Script) : Keeps p e s.fail := .inl s.fail_closed

theorem Lane.Kept.new (id : ℤ) : Lane.Kept p { id } :=
  ⟨rfl, fun _ => rfl, (by rintro _ ⟨⟩), fun h => absurd rfl h, fun h => absurd rfl h⟩

theorem Script.lane_putLane (s : Script) (o i : ℕ) (l : Lane) :
    (s.putLane o l).lane i = if i = o then l else s.lane i := by
  unfold Script.lane Script.putLane
  dsimp only
  rw [Table.get_put]
  split_ifs <;> rfl

theorem Script.lane_congr (h : s'.objects = s.objects) (o : ℕ) : s'.lane o = s.lane o := by
  unfold Script.lane
  rw [h]

/-- Counters and queues are as they were. -/
structure SameBooks (s s' : Script) : Prop where
  queued : (s'.queuedBytes, s'.queuedItems) = (s.queuedBytes, s.queuedItems)
  pending : s'.pending = s.pending
  up : s'.upPending = s.upPending
  running : s'.upRunning = s.upRunning
  batch : s'.upBatch = s.upBatch
  objects : s'.objects = s.objects
  lanes : s'.lanes = s.lanes
  next : s'.nextObject = s.nextObject

theorem Books.same (h : Books p e s) (hs : SameBooks s s') : Books p e s' where
  queued := by
    unfold Script.share
    rw [hs.queued, hs.pending, hs.up, hs.batch, hs.objects]
    exact h.queued
  idle hrunning := hs.batch.trans (h.idle (hs.running.symm.trans hrunning))
  whole batch hbatch := h.whole batch (hs.batch.symm.trans hbatch)
  lanes o := by
    rw [Script.lane_congr hs.objects]
    exact h.lanes o
  fresh o ho := by
    rw [hs.objects]
    exact h.fresh o (hs.next ▸ ho)
  mapped id o ho := by
    rw [hs.next, Script.lane_congr hs.objects]
    exact h.mapped id o (hs.lanes ▸ ho)

/-- A lane is written whose books are kept; `d` is how its share has changed. -/
theorem Books.putLane {o : ℕ} {l : Lane} {d : ℤ × ℤ} (h : Books p (e + d) s)
    (ho : o < s.nextObject) (hl : l.Kept p) (hid : l.id = (s.lane o).id)
    (hshare : l.share = (s.lane o).share + d) : Books p e (s.putLane o l) where
  queued := by
    have hput := s.share_putLane o l
    rw [hshare] at hput
    show (s.queuedBytes, s.queuedItems) = (s.putLane o l).share + e
    rw [h.queued]
    linear_combination -hput
  idle := h.idle
  whole := h.whole
  lanes i := by
    rw [Script.lane_putLane]
    split_ifs
    · exact hl
    · exact h.lanes i
  fresh i hi := by
    have hne : i ≠ o := (lt_of_lt_of_le ho hi).ne'
    exact (Table.get_put_ne s.objects l hne).trans (h.fresh i hi)
  mapped id i hi := by
    obtain ⟨hlt, hlane⟩ := h.mapped id i hi
    refine ⟨hlt, ?_⟩
    rw [Script.lane_putLane]
    split_ifs with heq
    · subst heq
      exact hid.trans hlane
    · exact hlane

/-- What counts of a lane is as it was. -/
structure SameLane (l l' : Lane) : Prop where
  id : l'.id = l.id
  counted : (l'.bytes, l'.items) = (l.bytes, l.items)
  pending : l'.pending = l.pending
  batch : l'.batch = l.batch
  running : l'.running = l.running
  socket : l'.socket ≠ none → l.socket ≠ none

theorem SameLane.share {l l' : Lane} (h : SameLane l l') : l'.share = l.share := by
  unfold Lane.share
  rw [h.pending, h.batch]

theorem Lane.Kept.same {l l' : Lane} (hk : l.Kept p) (h : SameLane l l') : l'.Kept p where
  counted := by rw [h.counted, h.share, hk.counted]
  idle hrunning := h.batch.trans (hk.idle (h.running.symm.trans hrunning))
  whole batch hbatch := hk.whole batch (h.batch.symm.trans hbatch)
  batch hbatch := hk.batch (h.batch ▸ hbatch)
  socket hsocket := hk.socket (h.socket hsocket)

theorem Books.touchLane {o : ℕ} {l : Lane} (h : Books p e s) (ho : o < s.nextObject)
    (hl : SameLane (s.lane o) l) : Books p e (s.putLane o l) := by
  have h0 : Books p (e + 0) s := by rwa [add_zero]
  exact h0.putLane ho ((h.lanes o).same hl) hl.id (by rw [hl.share, add_zero])

/-- A lane that has anything to it was made. -/
theorem Books.made {o : ℕ} (h : Books p e s) (ho : s.lane o ≠ { id := 0 }) :
    o < s.nextObject := by
  by_contra hge
  apply ho
  unfold Script.lane
  rw [h.fresh o (Nat.not_lt.mp hge)]
  rfl

/-! ### Counting -/

theorem Script.putLane_putLane (s : Script) (o : ℕ) (l l' : Lane) :
    (s.putLane o l).putLane o l' = s.putLane o l' := by
  unfold Script.putLane
  dsimp only
  rw [Table.put_put_self]

/-- More is in hand, and counted. -/
theorem Books.count (h : Books p e s) (bytes items : ℤ) :
    Books p (e + (bytes, items)) { s with
      queuedBytes := s.queuedBytes + bytes
      queuedItems := s.queuedItems + items } where
  queued := by
    rw [← add_assoc, ← Prod.mk_add_mk, h.queued]
    rfl
  idle := h.idle
  whole := h.whole
  lanes := h.lanes
  fresh := h.fresh
  mapped := h.mapped

theorem Books.release {bytes items : ℤ} (h : Books p (e + (bytes, items)) s) :
    Books p e (s.release bytes items none) where
  queued := by
    have hq := h.queued
    show (s.queuedBytes - bytes, s.queuedItems - items) = s.share + e
    rw [← Prod.mk_sub_mk, hq]
    abel
  idle := h.idle
  whole := h.whole
  lanes := h.lanes
  fresh := h.fresh
  mapped := h.mapped

theorem Books.reserve {data : Bytes} (h : Books p e s) (hr : s.reserve p data none = some s') :
    Books p (e + ((data.length : ℤ), 1)) s' := by
  unfold Script.reserve at hr
  dsimp only at hr
  split_ifs at hr
  cases hr
  exact h.count _ _

theorem reserve_next {data : Bytes} {lane : Option ℕ} (hr : s.reserve p data lane = some s') :
    s'.nextObject = s.nextObject := by
  unfold Script.reserve at hr
  dsimp only at hr
  split_ifs at hr
  cases lane with
  | none =>
      cases hr
      rfl
  | some o =>
      dsimp only at hr
      split_ifs at hr
      cases hr
      rfl

/-- An item is counted for a lane and put into its queue. -/
theorem Books.reserveLane {o : ℕ} {data : Bytes} {l : Lane} (h : Books p e s)
    (ho : o < s.nextObject) (hr : s.reserve p data (some o) = some s')
    (hl : SameLane { s'.lane o with pending := (s'.lane o).pending ++ [data] } l) :
    Books p e (s'.putLane o l) := by
  unfold Script.reserve at hr
  dsimp only at hr
  split_ifs at hr
  cases hr
  rw [Script.putLane_putLane]
  rw [Script.lane_putLane, if_pos rfl] at hl
  have hk := h.lanes o
  have hshare : l.share = (s.lane o).share + ((data.length : ℤ), 1) := by
    rw [hl.share]
    unfold Lane.share
    dsimp only
    rw [size_append]
    abel
  refine (h.count data.length 1).putLane ho ?_ hl.id hshare
  refine ⟨?_, ?_, ?_, ?_, ?_⟩
  · rw [hl.counted, hshare, ← hk.counted]
    rfl
  · exact fun hrunning => hl.batch.trans (hk.idle (hl.running.symm.trans hrunning))
  · exact fun batch hbatch => hk.whole batch (hl.batch.symm.trans hbatch)
  · exact fun hbatch => hk.batch (hl.batch ▸ hbatch)
  · exact fun hsocket => hk.socket (hl.socket hsocket)

/-! ### One queue for all streams -/

/-- An item is put into the queue it was counted for. -/
theorem Books.push {data : Bytes} (h : Books p (e + ((data.length : ℤ), 1)) s) :
    Books p e { s with upPending := s.upPending ++ [data] } where
  queued := by
    show (s.queuedBytes, s.queuedItems) = Page.size s.pending +
      Page.size (s.upPending ++ [data]) + inFlight s.upBatch + Table.total Lane.share s.objects + e
    rw [h.queued, size_append]
    unfold Script.share
    abel
  idle := h.idle
  whole := h.whole
  lanes := h.lanes
  fresh := h.fresh
  mapped := h.mapped

/-- A batch is taken from the queue: its size is in hand. -/
theorem Books.take {j : Joined} (h : Books p e s) (hj : Takes s.upPending j) :
    Books p (e + inFlight (some j.batch)) { s with
      upPending := j.values
      queuedItems := s.queuedItems + j.added } where
  queued := by
    have hsize := hj.size
    have hq := h.queued
    show (s.queuedBytes, s.queuedItems + (j.added : ℤ)) = Page.size s.pending +
      Page.size j.values + inFlight s.upBatch + Table.total Lane.share s.objects +
        (e + inFlight (some j.batch))
    have hadded : (s.queuedBytes, s.queuedItems + (j.added : ℤ)) =
        (s.queuedBytes, s.queuedItems) + (0, (j.added : ℤ)) := by simp
    rw [hadded, hq]
    unfold Script.share
    linear_combination -hsize
  idle := h.idle
  whole := h.whole
  lanes := h.lanes
  fresh := h.fresh
  mapped := h.mapped

/-- `runUp` asks and waits only where nothing is in flight. -/
theorem upLoop_keeps (h : Books p e s) (hbatch : s.upBatch = none) (hrunning : s.upRunning = true) :
    Keeps p e (s.upLoop p) := by
  unfold Script.upLoop
  split_ifs with hgo
  · cases hj : joinPending p.batchLimit s.upPending with
    | error _ => exact .inl s.fail_closed
    | ok j =>
        have htake := joinPending_takes hj
        have hbooks := h.take htake
        refine .inr ⟨?_, ?_, ?_, hbooks.lanes, hbooks.fresh, hbooks.mapped⟩
        · have hq := hbooks.queued
          dsimp only at hq ⊢
          rw [hq]
          unfold Script.share
          dsimp only
          rw [hbatch]
          show _ + _ + (0 : ℤ × ℤ) + _ + _ = _
          abel
        · intro hstop
          rw [hrunning] at hstop
          cases hstop
        · rintro batch ⟨⟩
          exact htake.total
  · exact .inr ⟨h.queued, fun _ => hbatch, h.whole, h.lanes, h.fresh, h.mapped⟩

theorem runUp_keeps (h : Books p e s) : Keeps p e (s.runUp p) := by
  unfold Script.runUp
  split_ifs with hrunning
  · exact .inr h
  · refine upLoop_keeps ⟨h.queued, ?_, h.whole, h.lanes, h.fresh, h.mapped⟩ ?_ rfl
    · rintro ⟨⟩
    · exact h.idle (Bool.eq_false_iff.mpr hrunning)

theorem queueUp_keeps (h : Books p e s) (data : Bytes) : Keeps p e (s.queueUp p data) := by
  unfold Script.queueUp
  cases hr : s.reserve p data none with
  | none => exact .fail s
  | some s₁ => exact runUp_keeps (h.reserve hr).push

theorem upAnswered_keeps {batch : Batch} (h : Books p e s) (hbatch : s.upBatch = some batch)
    (r : Option Script.UpResponse) : Keeps p e (s.upAnswered p batch r) := by
  have hrunning : s.upRunning = true := by
    by_contra hstop
    rw [h.idle (Bool.eq_false_iff.mpr hstop)] at hbatch
    cases hbatch
  have hhand : Books p (e + ((batch.total : ℤ), (batch.count : ℤ))) { s with upBatch := none } := by
    refine ⟨?_, fun _ => rfl, by rintro _ ⟨⟩, h.lanes, h.fresh, h.mapped⟩
    have hq := h.queued
    unfold Script.share at hq ⊢
    dsimp only
    rw [hq, hbatch, h.whole batch hbatch]
    show _ + _ + inFlight (some batch) + _ + _ = _ + _ + (0 : ℤ × ℤ) + _ + _
    unfold inFlight
    dsimp only
    abel
  unfold Script.upAnswered
  cases r with
  | none => exact .inl (Script.fail_closed _)
  | some r =>
      dsimp only
      split_ifs
      · exact .inl (Script.fail_closed _)
      · refine upLoop_keeps ?_ rfl hrunning
        exact hhand.release.same ⟨rfl, rfl, rfl, rfl, rfl, rfl, rfl, rfl⟩

theorem runWebSocketUp_keeps (h : Books p e s) : Keeps p e (s.runWebSocketUp p) := by
  unfold Script.runWebSocketUp
  cases s.webSocket with
  | none => exact .inr h
  | some w =>
      dsimp only
      split_ifs with hstop hwait
      · exact .inr h
      · exact .inr (h.same ⟨rfl, rfl, rfl, rfl, rfl, rfl, rfl, rfl⟩)
      · cases hj : joinPending p.batchLimit s.upPending with
        | error _ => exact .fail s
        | ok j =>
            have htake := joinPending_takes hj
            have hbooks := h.take htake
            have hrelease : Books p e (Script.release { s with
                upPending := j.values
                queuedItems := s.queuedItems + j.added
                webSocket := some (w.send j.batch.body)
                sent := s.sent ++ [(none, j.batch.body)] } j.batch.total j.batch.count none) := by
              apply Books.release
              rw [htake.total]
              exact hbooks.same ⟨rfl, rfl, rfl, rfl, rfl, rfl, rfl, rfl⟩
            dsimp only
            split_ifs
            · exact .inr hrelease
            · exact .inr (hrelease.same ⟨rfl, rfl, rfl, rfl, rfl, rfl, rfl, rfl⟩)

theorem queueWebSocket_keeps (h : Books p e s) (data : Bytes) :
    Keeps p e (s.queueWebSocket p data) := by
  unfold Script.queueWebSocket
  cases hr : s.reserve p data none with
  | none => exact .fail s
  | some s₁ => exact runWebSocketUp_keeps (h.reserve hr).push

/-! ### A queue for each stream -/

/-- A batch is taken from the queue of a lane: its size is in hand. -/
theorem Lane.take_share {l : Lane} {j : Joined} (hj : Takes l.pending j) (hbatch : l.batch = none) :
    size j.values + inFlight (some j.batch) = l.share + (0, (j.added : ℤ)) := by
  unfold Lane.share
  rw [hj.size, hbatch]
  show _ = _ + (0 : ℤ × ℤ) + _
  rw [add_zero]

/-- `runLaneUp` asks and waits only where nothing of the lane is in flight. -/
theorem laneLoop_keeps {o : ℕ} (h : Books p e s) (ho : o < s.nextObject)
    (hbatch : (s.lane o).batch = none) (hrunning : (s.lane o).running = true)
    (hmode : p.carrierMode = .httpsLanes) : Keeps p e (s.laneLoop p o) := by
  have hk := h.lanes o
  unfold Script.laneLoop
  dsimp only
  split_ifs with hgo
  · cases hj : joinPending p.batchLimit (s.lane o).pending with
    | error _ => exact .inl s.fail_closed
    | ok j =>
        have htake := joinPending_takes hj
        have hshare := Lane.take_share htake hbatch
        have hcount : Books p (e + (0, (j.added : ℤ))) { s with
            queuedItems := s.queuedItems + j.added
            sent := s.sent ++ [(some o, j.batch.body)] } :=
          (h.count 0 j.added).same ⟨by simp, rfl, rfl, rfl, rfl, rfl, rfl, rfl⟩
        refine .inr (hcount.putLane ho ?_ rfl hshare)
        refine ⟨?_, ?_, ?_, fun _ => hmode, hk.socket⟩
        · show ((s.lane o).bytes, (s.lane o).items + (j.added : ℤ)) =
            size j.values + inFlight (some j.batch)
          rw [hshare, ← hk.counted]
          simp
        · intro hstop
          exact absurd (hrunning.symm.trans hstop) (by simp)
        · rintro batch ⟨⟩
          exact htake.total
  · have h0 : Books p (e + 0) s := by rwa [add_zero]
    refine .inr (h0.putLane ho ?_ rfl (add_zero _).symm)
    exact ⟨hk.counted, fun _ => hbatch, hk.whole, hk.batch, hk.socket⟩

theorem runLaneUp_keeps {o : ℕ} (h : Books p e s) (ho : o < s.nextObject)
    (hmode : p.carrierMode = .httpsLanes) : Keeps p e (s.runLaneUp p o) := by
  have hk := h.lanes o
  unfold Script.runLaneUp
  dsimp only
  split_ifs with hrunning
  · exact .inr h
  · have h0 : Books p (e + 0) s := by rwa [add_zero]
    have hbatch := hk.idle (Bool.eq_false_iff.mpr hrunning)
    refine laneLoop_keeps (h0.putLane ho ?_ rfl (add_zero _).symm) ho ?_ ?_ hmode
    · exact ⟨hk.counted, by rintro ⟨⟩, hk.whole, hk.batch, hk.socket⟩
    · rw [Script.lane_putLane, if_pos rfl]
      exact hbatch
    · rw [Script.lane_putLane, if_pos rfl]

theorem pushLane_keeps {o : ℕ} (h : Books p e s) (ho : o < s.nextObject)
    (hmode : p.carrierMode = .httpsLanes) (value : Value) :
    Keeps p e (s.pushLane p o value) := by
  unfold Script.pushLane
  cases hr : s.reserve p value.data (some o) with
  | none => exact .fail s
  | some s₁ =>
      have hpush := h.reserveLane ho hr ⟨rfl, rfl, rfl, rfl, rfl, fun h => h⟩
      exact runLaneUp_keeps hpush (reserve_next hr ▸ ho) hmode

theorem ensureLane_books (h : Books p e s) (id : ℤ) :
    Books p e (s.ensureLane id).1 ∧ (s.ensureLane id).2 < (s.ensureLane id).1.nextObject := by
  unfold Script.ensureLane
  cases hl : s.lanes.get id with
  | some o => exact ⟨h, (h.mapped id o hl).1⟩
  | none =>
      have hnone := h.fresh s.nextObject le_rfl
      refine ⟨?_, Nat.lt_succ_self _⟩
      refine ⟨?_, h.idle, h.whole, ?_, ?_, ?_⟩
      · have htotal := Table.total_put_of_none Lane.share s.objects { id } hnone
        have h0 : Lane.share { id } = 0 := rfl
        rw [h0, zero_add] at htotal
        rw [h.queued]
        unfold Script.share
        dsimp only
        rw [htotal]
      · intro i
        have hlane := s.lane_putLane s.nextObject i { id }
        show ((s.putLane s.nextObject { id }).lane i).Kept p
        rw [hlane]
        split_ifs
        · exact .new id
        · exact h.lanes i
      · intro i hi
        have hne : i ≠ s.nextObject := (Nat.lt_of_succ_le hi).ne'
        exact (Table.get_put_ne s.objects { id } hne).trans
          (h.fresh i (Nat.le_of_succ_le hi))
      · intro i o ho
        have hput : (s.lanes.put id s.nextObject).get i = some o := ho
        show o < s.nextObject + 1 ∧ ((s.putLane s.nextObject { id }).lane o).id = i
        rw [Script.lane_putLane]
        rw [Table.get_put] at hput
        split_ifs at hput with heq
        · cases hput
          rw [if_pos rfl]
          exact ⟨Nat.lt_succ_self _, heq.symm⟩
        · obtain ⟨hlt, hid⟩ := h.mapped i o hput
          rw [if_neg hlt.ne]
          exact ⟨hlt.trans (Nat.lt_succ_self _), hid⟩

theorem queueLane_keeps {value : Value} (h : Books p e s) (hmode : p.carrierMode = .httpsLanes)
    (hq : s.queueLane p value = .ok s') : Keeps p e s' := by
  unfold Script.queueLane at hq
  cases hl : s.lanes.get value.id with
  | some o =>
      rw [hl] at hq
      cases hq
      exact pushLane_keeps h (h.mapped _ o hl).1 hmode value
  | none =>
      rw [hl] at hq
      dsimp only at hq
      split_ifs at hq
      · cases hq
        exact .inr h
      · cases hq
        obtain ⟨hbooks, ho⟩ := ensureLane_books h value.id
        exact pushLane_keeps hbooks ho hmode value

theorem Books.uncount (h : Books p e s) (bytes items : ℤ) :
    Books p (e + (-bytes, -items)) { s with
      queuedBytes := s.queuedBytes - bytes
      queuedItems := s.queuedItems - items } :=
  h.count (-bytes) (-items)

theorem Script.release_putLane (s : Script) (o : ℕ) (l : Lane) (bytes items : ℤ) :
    (s.putLane o l).release bytes items (some o) =
      { s with
        queuedBytes := s.queuedBytes - bytes
        queuedItems := s.queuedItems - items }.putLane o
          { l with bytes := l.bytes - bytes, items := l.items - items } := by
  unfold Script.release
  dsimp only
  rw [Script.lane_putLane, if_pos rfl]
  unfold Script.putLane
  dsimp only
  rw [Table.put_put_self]

/-- A lane is written whose share has gone down by what is released right after; `d` is what it
has gone up by before. -/
theorem Books.settle {o : ℕ} {l : Lane} {d : ℤ × ℤ} {bytes items : ℤ} (h : Books p (e + d) s)
    (ho : o < s.nextObject) (hid : l.id = (s.lane o).id)
    (hcounted : (l.bytes, l.items) = ((s.lane o).bytes, (s.lane o).items) + d)
    (hshare : l.share + (bytes, items) = (s.lane o).share + d)
    (hidle : l.running = false → l.batch = none)
    (hwhole : ∀ batch, l.batch = some batch → batch.total = batch.body.length)
    (hbatch : l.batch ≠ none → p.carrierMode = .httpsLanes)
    (hsocket : l.socket ≠ none → p.carrierMode = .webSocketLanes) :
    Books p e ((s.putLane o l).release bytes items (some o)) := by
  have hneg : (-bytes, -items) = -(bytes, items) := rfl
  have hcount := h.uncount bytes items
  rw [add_assoc] at hcount
  rw [Script.release_putLane]
  refine hcount.putLane ho ⟨?_, hidle, hwhole, hbatch, hsocket⟩ hid ?_
  · show (l.bytes - bytes, l.items - items) = l.share
    rw [← Prod.mk_sub_mk, hcounted, (h.lanes o).counted]
    linear_combination -hshare
  · show l.share = (s.lane o).share + _
    rw [hneg]
    linear_combination hshare

theorem pollLaneAgain_books {o : ℕ} (h : Books p e s) (ho : o < s.nextObject) :
    Books p e (s.pollLaneAgain o) :=
  h.touchLane ho ⟨rfl, rfl, rfl, rfl, rfl, fun h => h⟩

theorem pollLane_books {o : ℕ} (h : Books p e s) (ho : o < s.nextObject) :
    Books p e (s.pollLane o) := by
  unfold Script.pollLane
  split_ifs
  · exact h
  · exact pollLaneAgain_books h ho

/-- A poll that starts changes one flag of its lane. -/
theorem pollLane_lane (s : Script) (o : ℕ) :
    ∃ polling, (s.pollLane o).lane o = { s.lane o with polling } := by
  unfold Script.pollLane
  split_ifs
  · exact ⟨(s.lane o).polling, rfl⟩
  · unfold Script.pollLaneAgain
    dsimp only
    rw [Script.lane_putLane, if_pos rfl]
    exact ⟨_, rfl⟩

theorem pollLane_next (s : Script) (o : ℕ) : (s.pollLane o).nextObject = s.nextObject := by
  unfold Script.pollLane
  split_ifs <;> rfl

theorem laneAnswered_keeps {o : ℕ} {batch : Batch} (h : Books p e s)
    (hbatch : (s.lane o).batch = some batch) (r : Option Script.UpResponse) :
    Keeps p e (s.laneAnswered p o batch r) := by
  have hk := h.lanes o
  have hrunning : (s.lane o).running = true := by
    by_contra hstop
    rw [hk.idle (Bool.eq_false_iff.mpr hstop)] at hbatch
    cases hbatch
  have hmode : p.carrierMode = .httpsLanes := hk.batch (by simp [hbatch])
  have ho : o < s.nextObject := h.made fun hnew => by
    rw [hnew] at hbatch
    cases hbatch
  unfold Script.laneAnswered
  cases r with
  | none => exact .inl (Script.fail_closed _)
  | some r =>
      dsimp only
      split_ifs
      · exact .inl (Script.fail_closed _)
      · have h0 : Books p (e + 0) s := by rwa [add_zero]
        have hsettled : Books p e ((s.putLane o { s.lane o with batch := none }).release
            batch.total batch.count (some o)) := by
          refine h0.settle ho rfl (add_zero _).symm ?_ (fun _ => rfl) (by rintro _ ⟨⟩)
            (fun hne => absurd rfl hne) hk.socket
          unfold Lane.share
          dsimp only
          rw [hbatch, hk.whole batch hbatch]
          show _ + (0 : ℤ × ℤ) + _ = _ + ((batch.body.length : ℤ), (batch.count : ℤ)) + 0
          rw [add_zero, add_zero]
        have hlane : ((s.putLane o { s.lane o with batch := none }).release batch.total
            batch.count (some o)).lane o = { s.lane o with
              batch := none
              bytes := (s.lane o).bytes - batch.total
              items := (s.lane o).items - batch.count } := by
          rw [Script.release_putLane, Script.lane_putLane, if_pos rfl]
        have hnext : ((s.putLane o { s.lane o with batch := none }).release batch.total
            batch.count (some o)).nextObject = s.nextObject := rfl
        generalize (s.putLane o { s.lane o with batch := none }).release batch.total
          batch.count (some o) = s₁ at hsettled hlane hnext ⊢
        have htouched : Books p e
            (s₁.putLane o { s₁.lane o with sequence := (s.lane o).sequence + 1 }) :=
          hsettled.touchLane (hnext ▸ ho) ⟨rfl, rfl, rfl, rfl, rfl, fun h => h⟩
        have hnext' : (s₁.putLane o { s₁.lane o with
            sequence := (s.lane o).sequence + 1 }).nextObject = s.nextObject := hnext
        have hlane' : (s₁.putLane o { s₁.lane o with
            sequence := (s.lane o).sequence + 1 }).lane o =
            { s₁.lane o with sequence := (s.lane o).sequence + 1 } := by
          rw [Script.lane_putLane, if_pos rfl]
        generalize s₁.putLane o { s₁.lane o with sequence := (s.lane o).sequence + 1 } = s₂
          at htouched hnext' hlane' ⊢
        obtain ⟨polling, hpolling⟩ := pollLane_lane s₂ o
        refine laneLoop_keeps (pollLane_books htouched (hnext' ▸ ho)) ?_ ?_ ?_ hmode
        · rw [pollLane_next, hnext']
          exact ho
        · rw [hpolling, hlane', hlane]
        · rw [hpolling, hlane', hlane]
          exact hrunning

/-! ### The app's port -/

theorem post_keeps (h : Books p e s) (data : Bytes) : Keeps p e (s.post p data) := by
  unfold Script.post
  split_ifs
  · cases splitFrames data with
    | error _ => exact .fail s
    | ok frames => exact .inr (h.same ⟨rfl, rfl, rfl, rfl, rfl, rfl, rfl, rfl⟩)
  · exact .inr h
  · exact .inr (h.same ⟨rfl, rfl, rfl, rfl, rfl, rfl, rfl, rfl⟩)

theorem Books.delLane (h : Books p e s) (id : ℤ) :
    Books p e { s with lanes := s.lanes.del id } where
  queued := h.queued
  idle := h.idle
  whole := h.whole
  lanes := h.lanes
  fresh := h.fresh
  mapped i o ho := by
    have hdel : (s.lanes.del id).get i = some o := ho
    rw [Table.get_del] at hdel
    split_ifs at hdel
    exact h.mapped i o hdel

theorem rememberLaneClosed_books (h : Books p e s) (id : ℤ) :
    Books p e (s.rememberLaneClosed id) := by
  unfold Script.rememberLaneClosed
  split_ifs
  · exact h
  · exact h.same ⟨rfl, rfl, rfl, rfl, rfl, rfl, rfl, rfl⟩
  · exact h.same ⟨rfl, rfl, rfl, rfl, rfl, rfl, rfl, rfl⟩

/-! ### Downlink polls -/

theorem poll_books (h : Books p e s) : Books p e s.poll :=
  h.same ⟨rfl, rfl, rfl, rfl, rfl, rfl, rfl, rfl⟩

theorem pollAnswered_keeps (h : Books p e s) (r : Option Script.DownResponse) :
    Keeps p e (s.pollAnswered p r) := by
  unfold Script.pollAnswered
  cases r with
  | none => exact .inl s.fail_closed
  | some r =>
      dsimp only
      by_cases hempty : r.status = 204
      · rw [if_pos hempty]
        exact .inr (poll_books h)
      rw [if_neg hempty]
      by_cases hstatus : r.status ≠ 200
      · rw [if_pos hstatus]
        exact .inl s.fail_closed
      rw [if_neg hstatus]
      cases r.data with
      | none => exact .inl s.fail_closed
      | some data =>
          dsimp only
          split_ifs with _ hclosed
          · exact .inl s.fail_closed
          · exact .inl hclosed
          · rcases post_keeps h data with hc | hb
            · exact .inl hc
            · exact .inr (hb.same ⟨rfl, rfl, rfl, rfl, rfl, rfl, rfl, rfl⟩)

theorem post_next (s : Script) (data : Bytes) : (s.post p data).nextObject = s.nextObject := by
  have hfail : s.fail.nextObject = s.nextObject := by
    unfold Script.fail Script.close
    split_ifs <;> rfl
  unfold Script.post
  split_ifs
  · cases splitFrames data with
    | error _ => exact hfail
    | ok frames => rfl
  · rfl
  · rfl

theorem lanePollAnswered_keeps {o : ℕ} (h : Books p e s) (ho : o < s.nextObject)
    (r : Option Script.DownResponse) : Keeps p e (s.lanePollAnswered p o r) := by
  have hstop : ∀ {s' : Script}, s'.closed = true →
      Keeps p e (s'.putLane o { s'.lane o with polling := false }) := fun hc => .inl hc
  unfold Script.lanePollAnswered
  cases r with
  | none => exact hstop s.fail_closed
  | some r =>
      dsimp only
      by_cases hempty : r.status = 204
      · rw [if_pos hempty]
        split_ifs
        · have hdel := rememberLaneClosed_books (h.delLane (s.lane o).id) (s.lane o).id
          refine .inr (hdel.touchLane ?_ ⟨rfl, rfl, rfl, rfl, rfl, fun h => h⟩)
          unfold Script.rememberLaneClosed
          split_ifs <;> exact ho
        · exact .inr (pollLaneAgain_books h ho)
      rw [if_neg hempty]
      by_cases hstatus : r.status ≠ 200
      · rw [if_pos hstatus]
        exact hstop s.fail_closed
      rw [if_neg hstatus]
      cases r.data with
      | none => exact hstop s.fail_closed
      | some data =>
          dsimp only
          cases splitFrames data with
          | error _ => exact hstop s.fail_closed
          | ok values =>
              dsimp only
              split_ifs with _ hclosed
              · exact hstop s.fail_closed
              · exact hstop hclosed
              · have ho' : o < (s.post p data).nextObject := by rwa [post_next]
                rcases post_keeps h data with hc | hb
                · exact .inl hc
                · refine .inr (pollLaneAgain_books (hb.touchLane ho' ?_) ho')
                  exact ⟨rfl, rfl, rfl, rfl, rfl, fun h => h⟩

/-! ### A socket for each stream -/

theorem runWebSocketLaneUp_keeps {o : ℕ} (h : Books p e s) (ho : o < s.nextObject) :
    Keeps p e (s.runWebSocketLaneUp p o) := by
  have hk := h.lanes o
  unfold Script.runWebSocketLaneUp
  dsimp only
  cases hsocket : (s.lane o).socket with
  | none => exact .inr h
  | some w =>
      dsimp only
      have hmode : p.carrierMode = .webSocketLanes := hk.socket (by simp [hsocket])
      split_ifs with hstop hwait
      · exact .inr h
      · exact .inr (h.touchLane ho ⟨rfl, rfl, rfl, rfl, rfl, fun _ => by simp [hsocket]⟩)
      · cases hj : joinPending p.batchLimit (s.lane o).pending with
        | error _ => exact .fail s
        | ok j =>
            have htake := joinPending_takes hj
            have hcount : Books p (e + (0, (j.added : ℤ))) { s with
                queuedItems := s.queuedItems + j.added
                sent := s.sent ++ [(some o, j.batch.body)] } :=
              (h.count 0 j.added).same ⟨by simp, rfl, rfl, rfl, rfl, rfl, rfl, rfl⟩
            have hsettled : Books p e (({ s with
                queuedItems := s.queuedItems + j.added
                sent := s.sent ++ [(some o, j.batch.body)] }.putLane o { s.lane o with
                  pending := j.values
                  items := (s.lane o).items + j.added
                  socket := some (w.send j.batch.body) }).release j.batch.total j.batch.count
                    (some o)) := by
              refine hcount.settle ho rfl ?_ ?_ hk.idle hk.whole hk.batch fun _ => hmode
              · show ((s.lane o).bytes, (s.lane o).items + (j.added : ℤ)) =
                  ((s.lane o).bytes, (s.lane o).items) + (0, (j.added : ℤ))
                simp
              · have hsize := htake.size
                rw [htake.total]
                show size j.values + inFlight (s.lane o).batch + inFlight (some j.batch) =
                  size (s.lane o).pending + inFlight (s.lane o).batch + _
                linear_combination hsize
            dsimp only
            split_ifs
            · exact .inr hsettled
            · exact .inr (hsettled.touchLane ho ⟨rfl, rfl, rfl, rfl, rfl, fun h => h⟩)

theorem openWebSocketLane_books {o : ℕ} (h : Books p e s) (ho : o < s.nextObject)
    (hmode : p.carrierMode = .webSocketLanes) : Books p e (s.openWebSocketLane o) := by
  have hk := h.lanes o
  have h0 : Books p (e + 0) s := by rwa [add_zero]
  refine h0.putLane ho ?_ rfl (add_zero _).symm
  exact ⟨hk.counted, hk.idle, hk.whole, hk.batch, fun _ => hmode⟩

theorem pushWebSocketLane_keeps {o : ℕ} (h : Books p e s) (ho : o < s.nextObject)
    (hmode : p.carrierMode = .webSocketLanes) (value : Value) :
    Keeps p e (s.pushWebSocketLane p o value) := by
  unfold Script.pushWebSocketLane
  cases hr : s.reserve p value.data (some o) with
  | none => exact .fail s
  | some s₁ =>
      have ho₁ : o < s₁.nextObject := reserve_next hr ▸ ho
      dsimp only
      generalize hput : s₁.putLane o _ = s₂
      have h₂ : Books p e s₂ := by
        rw [← hput]
        exact h.reserveLane ho hr ⟨rfl, rfl, rfl, rfl, rfl, fun h => h⟩
      have ho₂ : o < s₂.nextObject := by
        rw [← hput]
        exact ho₁
      cases (s₁.lane o).socket with
      | none => exact .inr (openWebSocketLane_books h₂ ho₂ hmode)
      | some w => exact runWebSocketLaneUp_keeps h₂ ho₂

theorem queueWebSocketLane_keeps {value : Value} (h : Books p e s)
    (hmode : p.carrierMode = .webSocketLanes) (hq : s.queueWebSocketLane p value = .ok s') :
    Keeps p e s' := by
  unfold Script.queueWebSocketLane at hq
  cases hl : s.lanes.get value.id with
  | some o =>
      rw [hl] at hq
      dsimp only at hq
      split_ifs at hq
      cases hq
      exact pushWebSocketLane_keeps h (h.mapped _ o hl).1 hmode value
  | none =>
      rw [hl] at hq
      dsimp only at hq
      split_ifs at hq
      · cases hq
        exact .inr h
      · cases hq
        obtain ⟨hbooks, ho⟩ := ensureLane_books h value.id
        exact pushWebSocketLane_keeps hbooks ho hmode value

theorem rememberLaneClosed_next (s : Script) (id : ℤ) :
    (s.rememberLaneClosed id).nextObject = s.nextObject := by
  unfold Script.rememberLaneClosed
  split_ifs <;> rfl

/-- What is left of `finishWebSocketLane` once the lane has nothing to count. -/
theorem dropLane_keeps {o : ℕ} {socket : Option Socket} (h : Books p e s) (ho : o < s.nextObject)
    (hmode : p.carrierMode = .webSocketLanes) (id : ℤ) (tell : Prop) [Decidable tell] :
    Keeps p e
      (let s := { s with lanes := s.lanes.del id }.rememberLaneClosed id
       let s := s.putLane o { s.lane o with socket }
       if tell ∧ s.closed = false then s.post p (Script.closeFrame id) else s) := by
  have hdel : Books p e ({ s with lanes := s.lanes.del id }.rememberLaneClosed id) :=
    rememberLaneClosed_books (h.delLane id) id
  have hnext := rememberLaneClosed_next { s with lanes := s.lanes.del id } id
  generalize Script.rememberLaneClosed _ id = s₁ at hdel hnext ⊢
  have hk := hdel.lanes o
  have h0 : Books p (e + 0) s₁ := by rwa [add_zero]
  have hput : Books p e (s₁.putLane o { s₁.lane o with socket }) := by
    refine h0.putLane (hnext ▸ ho) ?_ rfl (add_zero _).symm
    exact ⟨hk.counted, hk.idle, hk.whole, hk.batch, fun _ => hmode⟩
  dsimp only
  split_ifs
  · exact post_keeps hput _
  · exact .inr hput

/-- A lane that is finished gives back all that it has queued: it has nothing in flight. -/
theorem emptyLane_books {o : ℕ} (h : Books p e s) (ho : o < s.nextObject)
    (hbatch : (s.lane o).batch = none) :
    let l := s.lane o
    let s₁ := s.putLane o { l with finished := true }
    let s₂ := if l.bytes ≠ 0 ∨ l.items ≠ 0 then s₁.release l.bytes l.items (some o) else s₁
    Books p e (s₂.putLane o { s₂.lane o with pending := [] }) ∧ s₂.nextObject = s.nextObject := by
  have hk := h.lanes o
  have h0 : Books p (e + 0) s := by rwa [add_zero]
  have hempty : Lane.share { s.lane o with finished := true, pending := [] } = 0 := by
    unfold Lane.share
    dsimp only
    rw [hbatch]
    rfl
  dsimp only
  split_ifs with hany
  · refine ⟨?_, rfl⟩
    rw [Script.release_putLane, Script.putLane_putLane, Script.lane_putLane, if_pos rfl]
    have hsettle : Books p e ((s.putLane o { s.lane o with finished := true, pending := [] }).release
        (s.lane o).bytes (s.lane o).items (some o)) :=
      h0.settle ho rfl (add_zero _).symm (by rw [hempty, hk.counted, zero_add, add_zero]) hk.idle
        hk.whole hk.batch hk.socket
    rw [Script.release_putLane] at hsettle
    exact hsettle
  · refine ⟨?_, rfl⟩
    rw [Script.putLane_putLane, Script.lane_putLane, if_pos rfl]
    have hzero : ((s.lane o).bytes, (s.lane o).items) = 0 := by
      rw [not_or, not_not, not_not] at hany
      rw [hany.1, hany.2]
      rfl
    refine h0.putLane ho ⟨?_, hk.idle, hk.whole, hk.batch, hk.socket⟩ rfl ?_
    · rw [hempty]
      exact hzero
    · rw [hempty, add_zero, ← hk.counted, hzero]

theorem finishWebSocketLane_keeps {o : ℕ} (h : Books p e s) (ho : o < s.nextObject)
    (hmode : p.carrierMode = .webSocketLanes) (notify : Bool) :
    Keeps p e (s.finishWebSocketLane p o notify) := by
  have hbatch : (s.lane o).batch = none := by
    by_contra hne
    have hhttps := (h.lanes o).batch hne
    rw [hmode] at hhttps
    cases hhttps
  obtain ⟨hempty, hnext⟩ := emptyLane_books h ho hbatch
  unfold Script.finishWebSocketLane
  by_cases hgone : (s.lane o).finished ∨ s.lanes.get (s.lane o).id ≠ some o
  · dsimp only
    rw [if_pos hgone]
    exact .inr h
  · dsimp only at hempty hnext ⊢
    rw [if_neg hgone]
    exact dropLane_keeps hempty (hnext ▸ ho) hmode (s.lane o).id (notify = true)

/-! ### Messages -/

/-- What each frame keeps, the frames of a message keep. -/
theorem queueValues_keeps {queue : Script → Params → Value → Except String Script}
    (hqueue : ∀ {s s' value}, Books p e s → queue s p value = .ok s' → Keeps p e s')
    (hshut : ∀ {s s' value}, s.closed = true → queue s p value = .ok s' → Shut s s')
    (h : Keeps p e s) (values : List Value) : Keeps p e (Script.queueValues p queue s values) := by
  induction values generalizing s with
  | nil => exact h
  | cons value rest ih =>
      unfold Script.queueValues
      cases hq : queue s p value with
      | error _ => exact .fail s
      | ok s₁ =>
          refine ih ?_
          rcases h with hc | hb
          · exact .inl (hshut hc hq).closed
          · exact hqueue hb hq

theorem queueCarrier_keeps (h : Keeps p e s) (data : Bytes) :
    Keeps p e (s.queueCarrier p data) := by
  rcases h with hc | hb
  · exact .inl (Script.queueCarrier_shut hc data).closed
  unfold Script.queueCarrier
  dsimp only
  cases hmode : p.carrierMode with
  | https => exact queueUp_keeps hb data
  | httpsLanes =>
      dsimp only
      cases splitFrames data with
      | error _ => exact .fail s
      | ok values =>
          exact queueValues_keeps (fun h hq => queueLane_keeps h hmode hq)
            (fun hc hq => Script.queueLane_shut hc hq) (.inr hb) values
  | webSocket => exact queueWebSocket_keeps hb data
  | webSocketLanes =>
      dsimp only
      cases splitFrames data with
      | error _ => exact .fail s
      | ok values =>
          exact queueValues_keeps (fun h hq => queueWebSocketLane_keeps h hmode hq)
            (fun hc hq => Script.queueWebSocketLane_shut hc hq) (.inr hb) values

theorem size_cons (data : Bytes) (values : List Bytes) :
    size (data :: values) = ((data.length : ℤ), 1) + size values := by
  unfold size
  refine Prod.ext ?_ ?_
  · simp
  · simp only [List.length_cons, Nat.cast_add, Nat.cast_one, Prod.mk_add_mk]
    exact add_comm _ _

/-- Messages that waited are released one by one and counted again as they are queued. -/
theorem drainLoop_keeps {values : List Bytes} (h : Keeps p (e + size values) s) :
    Keeps p e (Script.drainLoop p s values) := by
  induction values generalizing s with
  | nil =>
      have h0 : size [] = 0 := rfl
      rwa [h0, add_zero] at h
  | cons data rest ih =>
      refine ih (queueCarrier_keeps ?_ data)
      rcases h with hc | hb
      · exact .inl (Script.release_shut hc _ _ none).closed
      · rw [size_cons, add_left_comm, add_comm ((data.length : ℤ), (1 : ℤ))] at hb
        exact .inr hb.release

theorem connected_keeps (h : Books p e s) (welcome : Bytes) :
    Keeps p e (s.connected p welcome) := by
  have hdrain : ∀ s : Script, Keeps p e s →
      Keeps p e (Script.drainLoop p { s with pending := [] } s.pending) := by
    rintro s (hc | hb)
    · exact .inl (Script.drainLoop_shut (s := { s with pending := [] }) hc s.pending).closed
    · refine drainLoop_keeps (.inr ⟨?_, hb.idle, hb.whole, hb.lanes, hb.fresh, hb.mapped⟩)
      have hq := hb.queued
      unfold Script.share at hq ⊢
      dsimp only
      rw [hq]
      show _ = (0 : ℤ × ℤ) + _ + _ + _ + _
      abel
  unfold Script.connected
  dsimp only
  split_ifs with hclosed
  · exact .inl hclosed
  · have hended : Books p e { s with creating := .ended } :=
      h.same ⟨rfl, rfl, rfl, rfl, rfl, rfl, rfl, rfl⟩
    have hdrained := hdrain _ (post_keeps hended welcome)
    generalize Script.drainLoop p _ _ = s₁ at hdrained ⊢
    cases p.carrierMode with
    | https =>
        rcases hdrained with hc | hb
        · exact .inl hc
        · exact .inr (poll_books hb)
    | httpsLanes =>
        rcases hdrained with hc | hb
        · have hensure := Script.ensureLane_shut hc 0
          exact .inl (Script.pollLane_shut hensure.closed _).closed
        · obtain ⟨hbooks, ho⟩ := ensureLane_books hb 0
          exact .inr (pollLane_books hbooks ho)
    | webSocket => exact hdrained
    | webSocketLanes => exact hdrained

theorem message_keeps (h : Books p e s) (data : Bytes) : Keeps p e (s.message p data) := by
  unfold Script.message
  split_ifs
  · exact .inr (h.same ⟨rfl, rfl, rfl, rfl, rfl, rfl, rfl, rfl⟩)
  · have harrived : Books p e { s with arrived := s.arrived ++ [data] } :=
      h.same ⟨rfl, rfl, rfl, rfl, rfl, rfl, rfl, rfl⟩
    dsimp only
    split_ifs
    · cases hr : Script.reserve { s with arrived := s.arrived ++ [data] } p data none with
      | none => exact .fail _
      | some s₁ =>
          have hb := harrived.reserve hr
          refine .inr ⟨?_, hb.idle, hb.whole, hb.lanes, hb.fresh, hb.mapped⟩
          have hq := hb.queued
          dsimp only
          rw [hq]
          unfold Script.share
          dsimp only
          rw [size_append]
          abel
    · exact queueCarrier_keeps (.inr harrived) data

theorem sessionAnswered_keeps (h : Books p e s) (r : Option Script.SessionResponse) :
    Keeps p e (s.sessionAnswered p r) := by
  unfold Script.sessionAnswered
  cases r with
  | none => exact .inl s.fail_closed
  | some r =>
      dsimp only
      by_cases hstatus : r.status ≠ 200 ∨ r.carrierMode ≠ p.carrierMode.text
      · rw [if_pos hstatus]
        exact .inl s.fail_closed
      rw [if_neg hstatus]
      by_cases htoken : r.token = ""
      · rw [if_pos htoken]
        exact .inl (Script.fail_closed _)
      rw [if_neg htoken]
      by_cases hclosed : s.closed = true
      · rw [if_pos hclosed]
        exact .inl hclosed
      · rw [if_neg hclosed]
        exact .inr (h.same ⟨rfl, rfl, rfl, rfl, rfl, rfl, rfl, rfl⟩)

theorem welcomed_keeps (h : Books p e s) (r : Option Bytes) : Keeps p e (s.welcomed p r) := by
  unfold Script.welcomed
  cases r with
  | none => exact .inl s.fail_closed
  | some welcome =>
      dsimp only
      split_ifs
      · exact .inr (h.same ⟨rfl, rfl, rfl, rfl, rfl, rfl, rfl, rfl⟩)
      · exact connected_keeps h welcome

/-! ### Events of a lane's socket -/

theorem laneOpened_keeps {o : ℕ} (h : Books p e s) (ho : o < s.nextObject) (w : Socket)
    (hsocket : (s.lane o).socket ≠ none) : Keeps p e (s.laneOpened p o w) := by
  unfold Script.laneOpened
  dsimp only
  split_ifs
  · exact .inr (h.touchLane ho ⟨rfl, rfl, rfl, rfl, rfl, fun _ => hsocket⟩)
  · have htouch : Books p e (s.putLane o { s.lane o with socket := some w, opened := true }) :=
      h.touchLane ho ⟨rfl, rfl, rfl, rfl, rfl, fun _ => hsocket⟩
    exact runWebSocketLaneUp_keeps htouch ho

theorem laneMessage_keeps {o : ℕ} (h : Books p e s) (ho : o < s.nextObject)
    (data : Option Bytes) : Keeps p e (s.laneMessage p o data) := by
  unfold Script.laneMessage
  cases data with
  | none => exact .fail s
  | some data =>
      dsimp only
      by_cases hempty : data.length = 0
      · rw [if_pos hempty]
        exact .fail s
      rw [if_neg hempty]
      cases splitFrames data with
      | error _ => exact .fail s
      | ok values =>
          dsimp only
          split_ifs
          · exact .fail s
          · have htouch : Books p e (s.putLane o { s.lane o with remoteClosed := true }) :=
              h.touchLane ho ⟨rfl, rfl, rfl, rfl, rfl, fun h => h⟩
            exact post_keeps htouch data
          · exact post_keeps h data

theorem laneClosed_keeps {o : ℕ} (h : Books p e s) (ho : o < s.nextObject)
    (hmode : p.carrierMode = .webSocketLanes) : Keeps p e (s.laneClosed p o) := by
  unfold Script.laneClosed
  dsimp only
  split_ifs
  · exact .inr h
  · exact .fail s
  · exact finishWebSocketLane_keeps h ho hmode _

/-! ### Runs -/

/-- Whatever happens to the page, the books are kept. -/
theorem next_keeps {i : Input} (hk : Keeps p e s) (hi : s.next p i = some s') :
    Keeps p e s' := by
  rcases hk with hc | h
  · exact .inl (Script.next_shut hc hi).closed
  have hsocketed : ∀ {o}, (s.lane o).socket ≠ none → o < s.nextObject := fun hsocket =>
    h.made fun hnew => hsocket (by rw [hnew])
  have hmode : ∀ {o}, (s.lane o).socket ≠ none → p.carrierMode = .webSocketLanes :=
    fun hsocket => (h.lanes _).socket hsocket
  unfold Script.next at hi
  cases i with
  | message data =>
      cases hi
      exact message_keeps h data
  | close =>
      cases hi
      refine .inl ?_
      unfold Script.close
      split_ifs with hc
      · exact hc
      · rfl
  | sessionAnswered r =>
      dsimp only at hi
      split at hi
      · cases hi
        exact sessionAnswered_keeps h r
      · cases hi
  | welcomed r =>
      dsimp only at hi
      split_ifs at hi
      cases hi
      exact welcomed_keeps h r
  | resumed =>
      dsimp only at hi
      split at hi
      · cases hi
        exact connected_keeps h _
      · cases hi
        exact .inl s.fail_closed
      · cases hi
  | upAnswered r =>
      dsimp only at hi
      split at hi
      · next batch hbatch =>
          cases hi
          exact upAnswered_keeps h hbatch r
      · cases hi
  | polled r =>
      dsimp only at hi
      split_ifs at hi
      cases hi
      exact pollAnswered_keeps h r
  | laneAnswered o r =>
      dsimp only at hi
      split at hi
      · next batch hbatch =>
          cases hi
          exact laneAnswered_keeps h hbatch r
      · cases hi
  | lanePolled o r =>
      dsimp only at hi
      split_ifs at hi with hpolling
      cases hi
      refine lanePollAnswered_keeps h (h.made fun hnew => ?_) r
      rw [hnew] at hpolling
      cases hpolling
  | webSocketOpen =>
      dsimp only at hi
      split at hi
      · split_ifs at hi
        split at hi
        · cases hi
          exact .inr (h.same ⟨rfl, rfl, rfl, rfl, rfl, rfl, rfl, rfl⟩)
        · cases hi
          exact .inr (h.same ⟨rfl, rfl, rfl, rfl, rfl, rfl, rfl, rfl⟩)
      · cases hi
  | webSocketMessage data =>
      dsimp only at hi
      split at hi
      · split_ifs at hi
        cases data with
        | none =>
            cases hi
            exact .fail s
        | some data =>
            cases hi
            split_ifs
            · exact .fail s
            · exact post_keeps h data
      · cases hi
  | webSocketError =>
      dsimp only at hi
      split at hi
      · cases hi
        exact .inr (h.same ⟨rfl, rfl, rfl, rfl, rfl, rfl, rfl, rfl⟩)
      · cases hi
  | webSocketClose =>
      dsimp only at hi
      split at hi
      · split_ifs at hi
        cases hi
        exact .fail _
      · cases hi
  | webSocketTimer =>
      dsimp only at hi
      split_ifs at hi
      cases hi
      have htimer : Books p e { s with webSocketTimer := false } :=
        h.same ⟨rfl, rfl, rfl, rfl, rfl, rfl, rfl, rfl⟩
      exact runWebSocketUp_keeps htimer
  | webSocketTask =>
      dsimp only at hi
      split_ifs at hi
      cases hi
      have htask : Books p e { s with webSocketTasks := s.webSocketTasks - 1 } :=
        h.same ⟨rfl, rfl, rfl, rfl, rfl, rfl, rfl, rfl⟩
      exact runWebSocketUp_keeps htask
  | laneOpen o =>
      dsimp only at hi
      split at hi
      · next w hw =>
          have hsocket : (s.lane o).socket ≠ none := by simp [hw]
          split_ifs at hi
          cases hi
          exact laneOpened_keeps h (hsocketed hsocket) _ hsocket
      · cases hi
  | laneMessage o data =>
      dsimp only at hi
      split at hi
      · next w hw =>
          have hsocket : (s.lane o).socket ≠ none := by simp [hw]
          split_ifs at hi
          cases hi
          exact laneMessage_keeps h (hsocketed hsocket) data
      · cases hi
  | laneClose o =>
      dsimp only at hi
      split at hi
      · next w hw =>
          have hsocket : (s.lane o).socket ≠ none := by simp [hw]
          split_ifs at hi
          cases hi
          have htouch : Books p e (s.putLane o { s.lane o with
              socket := some { w with readyState := .closed } }) :=
            h.touchLane (hsocketed hsocket) ⟨rfl, rfl, rfl, rfl, rfl, fun _ => hsocket⟩
          exact laneClosed_keeps htouch (hsocketed hsocket) (hmode hsocket)
      · cases hi
  | laneTimer o =>
      dsimp only at hi
      split_ifs at hi with hgo
      cases hi
      have ho : o < s.nextObject := h.made fun hnew => by
        rw [hnew] at hgo
        cases hgo.1
      have htouch : Books p e (s.putLane o { s.lane o with timer := false }) :=
        h.touchLane ho ⟨rfl, rfl, rfl, rfl, rfl, fun h => h⟩
      exact runWebSocketLaneUp_keeps htouch ho
  | laneTask o =>
      dsimp only at hi
      split_ifs at hi with htasks
      cases hi
      have ho : o < s.nextObject := h.made fun hnew => htasks (by rw [hnew])
      have htouch : Books p e (s.putLane o { s.lane o with tasks := (s.lane o).tasks - 1 }) :=
        h.touchLane ho ⟨rfl, rfl, rfl, rfl, rfl, fun h => h⟩
      exact runWebSocketLaneUp_keeps htouch ho
  | transmitted lane amount =>
      cases lane with
      | none =>
          dsimp only at hi
          split at hi
          · cases hi
            exact .inr (h.same ⟨rfl, rfl, rfl, rfl, rfl, rfl, rfl, rfl⟩)
          · cases hi
      | some o =>
          dsimp only at hi
          split at hi
          · next w hw =>
              cases hi
              have hsocket : (s.lane o).socket ≠ none := by simp [hw]
              refine .inr (h.touchLane (hsocketed hsocket) ?_)
              exact ⟨rfl, rfl, rfl, rfl, rfl, fun _ => hsocket⟩
          · cases hi

theorem Books.start : Books p 0 {} where
  queued := rfl
  idle _ := rfl
  whole := by rintro _ ⟨⟩
  lanes o := Lane.Kept.new 0
  fresh _ _ := rfl
  mapped := by rintro _ _ ⟨⟩

theorem Reachable.keeps (h : Reachable p s) : Keeps p 0 s := by
  induction h with
  | start => exact .inr .start
  | step _ hi ih => exact next_keeps ih hi

/-! ### The counters of an open script -/

theorem size_nonneg (values : List Bytes) : 0 ≤ size values :=
  ⟨Int.natCast_nonneg _, Int.natCast_nonneg _⟩

theorem inFlight_nonneg (batch : Option Batch) : 0 ≤ inFlight batch := by
  cases batch with
  | none => exact le_rfl
  | some batch => exact ⟨Int.natCast_nonneg _, Int.natCast_nonneg _⟩

theorem Lane.share_nonneg (l : Lane) : 0 ≤ l.share :=
  add_nonneg (size_nonneg _) (inFlight_nonneg _)

theorem Script.share_nonneg (s : Script) : 0 ≤ s.share := by
  have hobjects : 0 ≤ Table.total Lane.share s.objects :=
    Table.total_nonneg Lane.share s.objects fun e _ => Lane.share_nonneg e.2
  exact add_nonneg (add_nonneg (add_nonneg (size_nonneg _) (size_nonneg _))
    (inFlight_nonneg _)) hobjects

/-- Nothing is queued or in flight. -/
structure Script.Empty (s : Script) : Prop where
  pending : s.pending = []
  up : s.upPending = []
  batch : s.upBatch = none
  lanes : ∀ o l, s.objects.get o = some l → l.pending = [] ∧ l.batch = none

theorem Script.Empty.share (h : s.Empty) : s.share = 0 := by
  have hobjects : Table.total Lane.share s.objects = 0 := by
    apply Table.total_eq_zero
    intro o l hl
    obtain ⟨hpending, hbatch⟩ := h.lanes o l hl
    unfold Lane.share
    rw [hpending, hbatch]
    rfl
  unfold Script.share
  rw [h.pending, h.up, h.batch, hobjects]
  rfl

/-- The queues are counted exactly: of an open script, `queuedBytes` and `queuedItems` are the
bytes and items of `pending`, `upPending`, the queues of all lanes ever made and the bodies in
flight, and those of a lane are its share. -/
theorem queue_accounting_exact (h : Reachable p s) (hopen : s.closed = false) :
    (s.queuedBytes, s.queuedItems) =
        size s.pending + size s.upPending + inFlight s.upBatch +
          Table.total (fun l => size l.pending + inFlight l.batch) s.objects ∧
      (∀ o l, s.objects.get o = some l → (l.bytes, l.items) = size l.pending + inFlight l.batch ∧
        0 ≤ l.bytes ∧ 0 ≤ l.items ∧
        (l.pending = [] → l.batch = none → l.bytes = 0 ∧ l.items = 0)) ∧
      0 ≤ s.queuedBytes ∧ 0 ≤ s.queuedItems ∧
      (s.Empty → s.queuedBytes = 0 ∧ s.queuedItems = 0) := by
  have hbooks : Books p 0 s := by
    rcases h.keeps with hc | hbooks
    · rw [hopen] at hc
      cases hc
    · exact hbooks
  have hqueued : (s.queuedBytes, s.queuedItems) = s.share := by
    rw [hbooks.queued, add_zero]
  have hnonneg : (0 : ℤ × ℤ) ≤ (s.queuedBytes, s.queuedItems) := hqueued ▸ s.share_nonneg
  refine ⟨hqueued, ?_, hnonneg.1, hnonneg.2, ?_⟩
  · intro o l hl
    have hlane : s.lane o = l := by
      unfold Script.lane
      rw [hl]
      rfl
    have hcounted : (l.bytes, l.items) = l.share := hlane ▸ (hbooks.lanes o).counted
    have hle : (0 : ℤ × ℤ) ≤ (l.bytes, l.items) := hcounted ▸ l.share_nonneg
    refine ⟨hcounted, hle.1, hle.2, fun hpending hbatch => ?_⟩
    have hzero : (l.bytes, l.items) = 0 := by
      rw [hcounted]
      unfold Lane.share
      rw [hpending, hbatch]
      rfl
    exact Prod.mk.inj hzero
  · intro hempty
    have hzero : (s.queuedBytes, s.queuedItems) = 0 := hqueued.trans hempty.share
    exact Prod.mk.inj hzero

/-- The script after the inputs, if each of them can happen. -/
def Script.run (p : Params) : Script → List Input → Option Script
  | s, [] => some s
  | s, i :: rest => (s.next p i).bind fun s => run p s rest

theorem Reachable.run {inputs : List Input} (h : Reachable p s)
    (hrun : s.run p inputs = some s') : Reachable p s' := by
  induction inputs generalizing s with
  | nil =>
      cases hrun
      exact h
  | cons i rest ih =>
      obtain ⟨s₁, hnext, hrest⟩ := Option.bind_eq_some_iff.mp hrun
      exact ih (.step h hnext) hrest

/-- OPEN and DATA of a stream arrive one after the other: the first is in flight and the second
is queued behind it. -/
theorem queue_accounting_exact_in_flight :
    ∃ s, Script.run { carrierMode := .httpsLanes, batchLimit := 16 } {}
        [.message [0], .sessionAnswered (some ⟨200, "https-lanes", "t", "0"⟩),
          .welcomed (some [0, 0, 0, 0, 0, 0, 0, 0]),
          .message [1, 0, 0, 5, 0, 0, 0, 0], .message [2, 0, 0, 5, 0, 0, 0, 1, 9]] = some s ∧
      (s.lane 1).pending = [[2, 0, 0, 5, 0, 0, 0, 1, 9]] ∧
      (s.lane 1).batch.map Batch.body = some [1, 0, 0, 5, 0, 0, 0, 0] ∧
      (s.queuedBytes, s.queuedItems) = (17, 2) ∧
      (s.queuedBytes, s.queuedItems) =
        size s.pending + size s.upPending + inFlight s.upBatch +
          Table.total (fun l => size l.pending + inFlight l.batch) s.objects := by
  have hrun : (Script.run { carrierMode := .httpsLanes, batchLimit := 16 } {}
      [.message [0], .sessionAnswered (some ⟨200, "https-lanes", "t", "0"⟩),
        .welcomed (some [0, 0, 0, 0, 0, 0, 0, 0]),
        .message [1, 0, 0, 5, 0, 0, 0, 0], .message [2, 0, 0, 5, 0, 0, 0, 1, 9]]).map
      (fun s => (s.closed, (s.lane 1).pending, (s.lane 1).batch.map Batch.body,
        (s.queuedBytes, s.queuedItems))) =
      some (false, [[2, 0, 0, 5, 0, 0, 0, 1, 9]], some [1, 0, 0, 5, 0, 0, 0, 0], (17, 2)) := by
    decide +kernel
  obtain ⟨s, hs, hval⟩ := Option.map_eq_some_iff.mp hrun
  obtain ⟨hopen, hpending, hbatch, hqueued⟩ := by simpa only [Prod.mk.injEq] using hval
  have hqueued' : (s.queuedBytes, s.queuedItems) = (17, 2) := by rw [hqueued.1, hqueued.2]
  exact ⟨s, hs, hpending, hbatch, hqueued',
    (queue_accounting_exact (Reachable.start.run hs) hopen).1⟩

end Page

end TproxyServer
