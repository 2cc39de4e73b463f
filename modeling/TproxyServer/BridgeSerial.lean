import TproxyServer.BridgeAccounting

/-! # The bridge page in mode `https`

The page has one uplink request and one poll under way at a time.  What a function does to the
uplink is `Sends`: it sends at most one body, and what has been sent and what waits are what the
app's messages say.  `Turn` is what one input does to both directions. -/

namespace TproxyServer

namespace Page

variable {p : Params} {s s' s'' : Script} {extra extra' : Bytes}

/-! ### The uplink -/

/-- What was taken up for the serialized uplink: the bodies that were sent, then those that wait. -/
def Script.takenUp (s : Script) : Bytes := (s.sent.map Prod.snd).flatten ++ s.upPending.flatten

/-- The uplink leaves the rest of the script alone. -/
structure Beside (s s' : Script) : Prop where
  cursor : s'.downCursor = s.downCursor
  polling : s'.polling = s.polling
  creating : s'.creating = s.creating
  posted : s'.posted = s.posted
  token : s'.sessionToken = s.sessionToken
  pending : s'.pending = s.pending
  arrived : s'.arrived = s.arrived
  started : s'.createStarted = s.createStarted

theorem Beside.refl (s : Script) : Beside s s := ⟨rfl, rfl, rfl, rfl, rfl, rfl, rfl, rfl⟩

theorem Beside.trans (h : Beside s s') (h' : Beside s' s'') : Beside s s'' where
  cursor := h'.cursor.trans h.cursor
  polling := h'.polling.trans h.polling
  creating := h'.creating.trans h.creating
  posted := h'.posted.trans h.posted
  token := h'.token.trans h.token
  pending := h'.pending.trans h.pending
  arrived := h'.arrived.trans h.arrived
  started := h'.started.trans h.started

/-- The script has no lanes and no socket. -/
structure Script.Bare (s : Script) : Prop where
  objects : s.objects = .nil
  webSocket : s.webSocket = none
  timer : s.webSocketTimer = false
  tasks : s.webSocketTasks = 0
  own : ∀ e ∈ s.sent, e.1 = none

/-- `runUp` is not under way twice. -/
def Script.Waits (s : Script) : Prop := s.upRunning = false → s.upBatch = none

/-- What becomes of the uplink when it is handed `extra`. -/
structure Moves (s s' : Script) (extra : Bytes) : Prop where
  /-- It sends a body only if none is under way. -/
  bodies : s'.sent = s.sent ∧ s'.upBatch = s.upBatch ∨
    s.upBatch = none ∧ s.closed = false ∧
      ∃ b : Batch, s'.sent = s.sent ++ [(none, b.body)] ∧ s'.upBatch = some b
  sequence : s'.upSequence = s.upSequence
  waits : s.Waits → s'.Waits
  closed : s.closed = true → s'.closed = true
  /-- Nothing is lost or moved; what is sent is sent in order even if the script fails. -/
  order : ∃ rest, (s'.sent.map Prod.snd).flatten ++ rest = s.takenUp ++ extra ∧
    (s'.closed = false → rest = s'.upPending.flatten)
  bare : s.Bare → s'.Bare

/-- What a function of the uplink does that hands it `extra`. -/
structure Sends (s s' : Script) (extra : Bytes) : Prop where
  moves : Moves s s' extra
  beside : Beside s s'

namespace Moves

/-- Nothing is sent. -/
theorem of_eq (hsent : s'.sent = s.sent) (hbatch : s'.upBatch = s.upBatch)
    (hpending : s'.upPending = s.upPending) (hsequence : s'.upSequence = s.upSequence)
    (hrunning : s'.upRunning = s.upRunning) (hclosed : s.closed = true → s'.closed = true)
    (hbare : s.Bare → s'.Bare) : Moves s s' [] where
  bodies := .inl ⟨hsent, hbatch⟩
  sequence := hsequence
  waits h := by
    unfold Script.Waits
    rw [hrunning, hbatch]
    exact h
  closed := hclosed
  order := ⟨s'.upPending.flatten, by simp [Script.takenUp, hsent, hpending], fun _ => rfl⟩
  bare := hbare

theorem refl (s : Script) : Moves s s [] := of_eq rfl rfl rfl rfl rfl id id

theorem trans (h : Moves s s' extra) (h' : Moves s' s'' extra') :
    Moves s s'' (extra ++ extra') where
  bodies := by
    rcases h.bodies with ⟨hsent, hbatch⟩ | ⟨hidle, hopen, b, hsent, hbatch⟩
    · rcases h'.bodies with ⟨hsent', hbatch'⟩ | ⟨hidle', hopen', b, hsent', hbatch'⟩
      · exact .inl ⟨hsent'.trans hsent, hbatch'.trans hbatch⟩
      · refine .inr ⟨hbatch ▸ hidle', ?_, b, by rw [hsent', hsent], hbatch'⟩
        by_contra hclosed
        rw [Bool.not_eq_false] at hclosed
        rw [h.closed hclosed] at hopen'
        cases hopen'
    · rcases h'.bodies with ⟨hsent', hbatch'⟩ | ⟨hidle', -⟩
      · exact .inr ⟨hidle, hopen, b, hsent'.trans hsent, hbatch'.trans hbatch⟩
      · rw [hbatch] at hidle'
        cases hidle'
  sequence := h'.sequence.trans h.sequence
  waits hw := h'.waits (h.waits hw)
  closed hc := h'.closed (h.closed hc)
  order := by
    obtain ⟨rest, he, hrest⟩ := h.order
    obtain ⟨rest', he', hrest'⟩ := h'.order
    cases hc : s'.closed with
    | false =>
        refine ⟨rest', ?_, hrest'⟩
        rw [he', Script.takenUp, ← hrest hc, he, List.append_assoc]
    | true =>
        have hsent : s''.sent = s'.sent := by
          rcases h'.bodies with ⟨hsent, -⟩ | ⟨-, hopen, -⟩
          · exact hsent
          · rw [hc] at hopen
            cases hopen
        refine ⟨rest ++ extra', ?_, fun hopen => ?_⟩
        · rw [hsent, ← List.append_assoc, he, List.append_assoc]
        · rw [h'.closed hc] at hopen
          cases hopen
  bare hp := h'.bare (h.bare hp)

end Moves

theorem Sends.refl (s : Script) : Sends s s [] := ⟨.refl s, .refl s⟩

theorem Sends.trans (h : Sends s s' extra) (h' : Sends s' s'' extra') :
    Sends s s'' (extra ++ extra') :=
  ⟨h.moves.trans h'.moves, h.beside.trans h'.beside⟩

namespace Script

theorem fail_eq (s : Script) : ∃ objects socket, s.fail =
    { s with closed := true, objects, webSocket := socket } ∧
      (s.objects = .nil → objects = .nil) ∧ (s.webSocket = none → socket = none) := by
  unfold fail close
  split_ifs with hc
  · refine ⟨s.objects, s.webSocket, ?_, id, id⟩
    rw [← hc]
  · refine ⟨_, _, rfl, fun h => ?_, fun h => ?_⟩
    · rw [h]
      rfl
    · rw [h]
      rfl

theorem fail_bare (h : s.Bare) : s.fail.Bare := by
  obtain ⟨objects, socket, he, hobjects, hsocket⟩ := s.fail_eq
  rw [he]
  exact ⟨hobjects h.objects, hsocket h.webSocket, h.timer, h.tasks, h.own⟩

theorem fail_beside (s : Script) : Beside s s.fail := by
  obtain ⟨objects, socket, he, -⟩ := s.fail_eq
  rw [he]
  exact ⟨rfl, rfl, rfl, rfl, rfl, rfl, rfl, rfl⟩

/-- A script that fails sends nothing, whatever it is handed. -/
theorem fail_sends (s : Script) (extra : Bytes) : Sends s s.fail extra := by
  obtain ⟨objects, socket, he, -⟩ := s.fail_eq
  refine ⟨⟨.inl ?_, ?_, ?_, fun _ => s.fail_closed, ?_, fail_bare⟩, s.fail_beside⟩
  · rw [he]
    exact ⟨rfl, rfl⟩
  · rw [he]
  · rw [he]
    exact id
  · refine ⟨s.upPending.flatten ++ extra, ?_, fun hopen => ?_⟩
    · rw [he, takenUp, List.append_assoc]
    · rw [s.fail_closed] at hopen
      cases hopen

/-- The loop of `runUp`, entered with nothing under way. -/
theorem upLoop_sends (hidle : s.upBatch = none) (hrunning : s.upRunning = true) :
    Sends s (s.upLoop p) [] := by
  unfold upLoop
  split_ifs with hgo
  · cases hj : joinPending p.batchLimit s.upPending with
    | error e =>
        have hfail := s.fail_sends []
        obtain ⟨objects, socket, he, -⟩ := s.fail_eq
        refine ⟨⟨hfail.moves.bodies, hfail.moves.sequence, fun _ _ => ?_, hfail.moves.closed,
          hfail.moves.order, fun h => ?_⟩,
          hfail.beside.trans ⟨rfl, rfl, rfl, rfl, rfl, rfl, rfl, rfl⟩⟩
        · rw [he]
          exact hidle
        · have hbare := fail_bare h
          exact ⟨hbare.objects, hbare.webSocket, hbare.timer, hbare.tasks, hbare.own⟩
    | ok j =>
        have htake := joinPending_takes hj
        refine ⟨⟨.inr ⟨hidle, hgo.1, j.batch, rfl, rfl⟩, rfl, fun _ hstop => ?_, id, ?_,
          fun h => ?_⟩, ⟨rfl, rfl, rfl, rfl, rfl, rfl, rfl, rfl⟩⟩
        · rw [show s.upRunning = false from hstop] at hrunning
          cases hrunning
        · refine ⟨j.values.flatten, ?_, fun _ => rfl⟩
          simp [takenUp, htake.lossless]
        · refine ⟨h.objects, h.webSocket, h.timer, h.tasks, fun e he => ?_⟩
          rcases List.mem_append.mp he with he | he
          · exact h.own e he
          · rw [List.mem_singleton.mp he]
  · refine ⟨⟨.inl ⟨rfl, rfl⟩, rfl, fun _ _ => hidle, id, ?_, fun h => ?_⟩,
      ⟨rfl, rfl, rfl, rfl, rfl, rfl, rfl, rfl⟩⟩
    · exact ⟨s.upPending.flatten, by simp [takenUp], fun _ => rfl⟩
    · exact ⟨h.objects, h.webSocket, h.timer, h.tasks, h.own⟩

theorem runUp_sends (h : s.Waits) : Sends s (s.runUp p) [] := by
  unfold runUp
  split_ifs with hrunning
  · exact .refl s
  · rw [Bool.not_eq_true] at hrunning
    have hstart : Sends s { s with upRunning := true } [] := by
      refine ⟨⟨.inl ⟨rfl, rfl⟩, rfl, fun _ hstop => ?_, id, ?_, fun h => ?_⟩,
        ⟨rfl, rfl, rfl, rfl, rfl, rfl, rfl, rfl⟩⟩
      · cases hstop
      · exact ⟨s.upPending.flatten, by simp [takenUp], fun _ => rfl⟩
      · exact ⟨h.objects, h.webSocket, h.timer, h.tasks, h.own⟩
    exact hstart.trans (upLoop_sends (h hrunning) rfl)

theorem release_sends (s : Script) (bytes items : ℤ) : Sends s (s.release bytes items none) [] :=
  ⟨.of_eq rfl rfl rfl rfl rfl id fun h => ⟨h.objects, h.webSocket, h.timer, h.tasks, h.own⟩,
    ⟨rfl, rfl, rfl, rfl, rfl, rfl, rfl, rfl⟩⟩

theorem reserve_sends {data : Bytes} (hr : s.reserve p data none = some s') : Sends s s' [] := by
  unfold reserve at hr
  dsimp only at hr
  split_ifs at hr
  cases hr
  exact ⟨.of_eq rfl rfl rfl rfl rfl id fun h =>
    ⟨h.objects, h.webSocket, h.timer, h.tasks, h.own⟩, ⟨rfl, rfl, rfl, rfl, rfl, rfl, rfl, rfl⟩⟩

theorem queueUp_sends (h : s.Waits) (data : Bytes) : Sends s (s.queueUp p data) data := by
  unfold queueUp
  cases hr : s.reserve p data none with
  | none => exact s.fail_sends data
  | some s₁ =>
      have hreserve := reserve_sends hr
      have hpush : Sends s₁ { s₁ with upPending := s₁.upPending ++ [data] } data := by
        refine ⟨⟨.inl ⟨rfl, rfl⟩, rfl, fun hw => hw, fun hc => hc, ?_, fun h => ?_⟩,
          ⟨rfl, rfl, rfl, rfl, rfl, rfl, rfl, rfl⟩⟩
        · exact ⟨s₁.upPending.flatten ++ data, by simp [takenUp], fun _ => by simp⟩
        · exact ⟨h.objects, h.webSocket, h.timer, h.tasks, h.own⟩
      have hwaits := hpush.moves.waits (hreserve.moves.waits h)
      have hall := (hreserve.trans hpush).trans (runUp_sends (p := p) hwaits)
      rwa [List.nil_append, List.append_nil] at hall

theorem queueCarrier_sends (hmode : p.carrierMode = .https) (h : s.Waits) (data : Bytes) :
    Sends s (s.queueCarrier p data) data := by
  unfold queueCarrier
  rw [hmode]
  exact queueUp_sends h data

theorem drainLoop_sends (hmode : p.carrierMode = .https) {values : List Bytes} (h : s.Waits) :
    Sends s (drainLoop p s values) values.flatten := by
  induction values generalizing s with
  | nil => exact .refl s
  | cons data rest ih =>
      have hrelease := s.release_sends data.length 1
      have hwaits := hrelease.moves.waits h
      have hqueue := hrelease.trans (queueCarrier_sends hmode hwaits data)
      have hall := hqueue.trans (ih (hqueue.moves.waits h))
      rwa [List.nil_append, ← List.flatten_cons] at hall

end Script

/-! ### One input -/

/-- What the app is posted of a buffer. -/
def Params.chunks (p : Params) (data : Bytes) : List Bytes :=
  if p.android then
    match splitFrames data with
    | .error _ => []
    | .ok frames => frames.map Value.data
  else [data]

/-- The body that the script takes from an answer to its poll. -/
def Script.takes (s : Script) : Input → Option Bytes
  | .polled (some r) =>
      r.data.filter fun data =>
        r.status = 200 ∧ r.next ≠ "" ∧ data.length ≠ 0 ∧ s.closed = false
  | _ => none

/-- What an input does to the uplink. -/
inductive UpTurn (s : Script) : Input → Script → Prop
  | moves {i : Input} {s' : Script} {extra : Bytes} (h : Moves s s' extra) : UpTurn s i s'
  /-- The request under way has failed. -/
  | lost {r : Option Script.UpResponse} {s' : Script} (hsent : s'.sent = s.sent)
      (hbatch : s'.upBatch = none) (hsequence : s'.upSequence = s.upSequence)
      (hclosed : s'.closed = true) : UpTurn s (.upAnswered r) s'
  /-- The body under way is acknowledged; then the next one may be sent. -/
  | heard {r : Script.UpResponse} {b : Batch} {mid s' : Script} (hb : s.upBatch = some b)
      (hstatus : r.status = 204) (hack : r.ack = toString s.upSequence)
      (hsent : mid.sent = s.sent) (hbatch : mid.upBatch = none)
      (hsequence : mid.upSequence = s.upSequence + 1) (hclosed : mid.closed = s.closed)
      (h : Moves mid s' []) : UpTurn s (.upAnswered (some r)) s'

/-- What an input does to the downlink. -/
inductive DownTurn (p : Params) (s : Script) : Input → Script → Prop
  | still {i : Input} {s' : Script} (htakes : s.takes i = none)
      (hcursor : s'.downCursor = s.downCursor)
      (hposted : s'.posted = s.posted) (hpolling : s'.polling = true → s.polling = true)
      (hcreating : s.creating = .ended → s'.creating = .ended) : DownTurn p s i s'
  /-- The session is there. -/
  | answered {r : Script.SessionResponse} {s' : Script} (hstatus : r.status = 200)
      (hcreating : s.creating ≠ .ended)
      (hcursor : s'.downCursor = if r.cursor = "" then "0" else r.cursor)
      (hposted : s'.posted = s.posted) (hpolling : s'.polling = s.polling) :
      DownTurn p s (.sessionAnswered (some r)) s'
  /-- The first frames are posted and the polls begin. -/
  | connected {welcome : Bytes} {s' : Script} (hcreating : s.creating ≠ .ended)
      (hcursor : s'.downCursor = s.downCursor)
      (hposted : s'.posted = s.posted ++ p.chunks welcome) (hended : s'.creating = .ended) :
      DownTurn p s (.welcomed (some welcome)) s'
  /-- The body of a poll is posted. -/
  | took {r : Script.DownResponse} {data : Bytes} {s' : Script} (hpolling : s.polling = true)
      (hstatus : r.status = 200) (hdata : r.data = some data)
      (htakes : s.takes (.polled (some r)) = some data) (hcursor : s'.downCursor = r.next)
      (hposted : s'.posted = s.posted ++ p.chunks data) (hcreating : s'.creating = s.creating) :
      DownTurn p s (.polled (some r)) s'

/-- Where `createSession` can be in mode `https`. -/
structure Script.Creates (s : Script) : Prop where
  started : s.createStarted = false → s.creating = .idle
  steps : s.creating = .idle ∨ (∃ first, s.creating = .requested first) ∨
    s.creating = .reading ∨ s.creating = .ended

/-- What every state of a script in mode `https` is. -/
structure Script.Serial (s : Script) : Prop where
  bare : s.Bare
  waits : s.Waits
  creates : s.Creates

/-- What one input does. -/
structure Turn (p : Params) (s : Script) (i : Input) (s' : Script) : Prop where
  up : UpTurn s i s'
  down : DownTurn p s i s'
  closed : s.closed = true → s'.closed = true

namespace Script

theorem Serial.start : ({} : Script).Serial where
  bare := ⟨rfl, rfl, rfl, rfl, fun e he => by cases he⟩
  waits _ := rfl
  creates := ⟨fun _ => rfl, .inl rfl⟩

theorem Serial.moves (h : s.Serial) (hm : Moves s s' extra) (hcreates : s'.Creates) :
    s'.Serial :=
  ⟨hm.bare h.bare, hm.waits h.waits, hcreates⟩

theorem Creates.same (h : s.Creates) (hstarted : s'.createStarted = s.createStarted)
    (hcreating : s'.creating = s.creating) : s'.Creates := by
  constructor
  · rw [hstarted, hcreating]
    exact h.started
  · rw [hcreating]
    exact h.steps

theorem Serial.lane (h : s.Serial) (o : ℕ) : s.lane o = { id := 0 } := by
  unfold Script.lane
  rw [h.bare.objects]
  rfl

/-- A function of the uplink makes a turn. -/
theorem turn_of_sends {i : Input} (h : Sends s s' extra) (hs : s.Serial) (hi : s.takes i = none) :
    s'.Serial ∧ Turn p s i s' := by
  refine ⟨hs.moves h.moves (hs.creates.same h.beside.started h.beside.creating), .moves h.moves,
    .still hi h.beside.cursor h.beside.posted ?_ ?_, h.moves.closed⟩
  · rw [h.beside.polling]
    exact id
  · rw [h.beside.creating]
    exact id

theorem post_chunks (hopen : s.closed = false) (data : Bytes) :
    (s.post p data).posted = s.posted ++ p.chunks data ∧ Moves s (s.post p data) [] ∧
      (s.post p data).downCursor = s.downCursor ∧ (s.post p data).creating = s.creating ∧
      (s.post p data).createStarted = s.createStarted ∧
      (s.post p data).pending = s.pending := by
  have hmoves : ∀ posted : List Bytes, Moves s { s with posted } [] := fun posted =>
    .of_eq rfl rfl rfl rfl rfl id fun h => ⟨h.objects, h.webSocket, h.timer, h.tasks, h.own⟩
  unfold post Params.chunks
  by_cases ha : p.android = true
  · rw [if_pos ha, if_pos ha]
    cases splitFrames data with
    | error e =>
        have hfail := s.fail_sends []
        refine ⟨?_, hfail.moves, hfail.beside.cursor, hfail.beside.creating, hfail.beside.started,
          hfail.beside.pending⟩
        rw [List.append_nil]
        exact hfail.beside.posted
    | ok frames => exact ⟨rfl, hmoves _, rfl, rfl, rfl, rfl⟩
  · rw [if_neg ha, if_neg ha, if_neg (by simp [hopen])]
    exact ⟨rfl, hmoves _, rfl, rfl, rfl, rfl⟩

theorem Creates.after (h : s.Creates) (hcreating : s.creating ≠ .idle)
    (hstarted : s'.createStarted = s.createStarted)
    (hsteps : s'.creating = .reading ∨ s'.creating = .ended) : s'.Creates where
  started hn := absurd (h.started (hstarted ▸ hn)) hcreating
  steps := .inr (.inr hsteps)

/-- A failure at an input that is not that of the uplink. -/
theorem fail_turn (h : s.Serial) {i : Input} (hi : s.takes i = none) :
    s.fail.Serial ∧ Turn p s i s.fail :=
  turn_of_sends (s.fail_sends []) h hi

theorem close_eq_fail (s : Script) : s.close = s.fail := by
  unfold fail
  split_ifs with hc
  · exact if_pos hc
  · rfl

/-- `createSession` ends without a connection. -/
theorem ended_turn (h : s.Serial) (hcreating : s.creating ≠ .idle) {i : Input}
    (hi : s.takes i = none) :
    ({ s.fail with creating := .ended } : Script).Serial ∧
      Turn p s i { s.fail with creating := .ended } := by
  have hfail := s.fail_sends []
  have hmoves : Moves s { s.fail with creating := .ended } [] :=
    hfail.moves.trans (.of_eq rfl rfl rfl rfl rfl id fun h =>
      ⟨h.objects, h.webSocket, h.timer, h.tasks, h.own⟩)
  refine ⟨h.moves hmoves (h.creates.after hcreating hfail.beside.started (.inr rfl)),
    .moves hmoves, .still hi hfail.beside.cursor hfail.beside.posted (fun hpolling => ?_)
      fun _ => rfl, hmoves.closed⟩
  rw [← hfail.beside.polling]
  exact hpolling

theorem message_turn (hmode : p.carrierMode = .https) (h : s.Serial) (data : Bytes) :
    (s.message p data).Serial ∧ Turn p s (.message data) (s.message p data) := by
  unfold message
  split_ifs with hstarted
  · have hmoves : Moves s { s with createStarted := true, creating := .requested data } [] :=
      .of_eq rfl rfl rfl rfl rfl id fun h => ⟨h.objects, h.webSocket, h.timer, h.tasks, h.own⟩
    refine ⟨h.moves hmoves ⟨fun hn => (by cases hn), .inr (.inl ⟨data, rfl⟩)⟩, .moves hmoves,
      .still rfl rfl rfl id fun hended => ?_, id⟩
    rw [h.creates.started hstarted] at hended
    cases hended
  · have harrive : Moves s { s with arrived := s.arrived ++ [data] } [] :=
      .of_eq rfl rfl rfl rfl rfl id fun h => ⟨h.objects, h.webSocket, h.timer, h.tasks, h.own⟩
    have hserial := h.moves harrive (h.creates.same rfl rfl)
    dsimp only
    split_ifs with htoken
    · cases hr : reserve { s with arrived := s.arrived ++ [data] } p data none with
      | none =>
          have hfail := fail_sends { s with arrived := s.arrived ++ [data] } []
          have hmoves := harrive.trans hfail.moves
          refine ⟨hserial.moves hfail.moves
            (hserial.creates.same hfail.beside.started hfail.beside.creating), .moves hmoves,
            .still rfl hfail.beside.cursor hfail.beside.posted (fun hpolling => ?_) (fun hended => ?_),
            hmoves.closed⟩
          · rw [hfail.beside.polling] at hpolling
            exact hpolling
          · rw [hfail.beside.creating]
            exact hended
      | some s₁ =>
          have hreserve := reserve_sends hr
          have hmoves : Moves s { s₁ with pending := s₁.pending ++ [data] } [] :=
            (harrive.trans hreserve.moves).trans (.of_eq rfl rfl rfl rfl rfl id fun h =>
              ⟨h.objects, h.webSocket, h.timer, h.tasks, h.own⟩)
          refine ⟨h.moves hmoves (h.creates.same hreserve.beside.started hreserve.beside.creating),
            .moves hmoves, .still rfl hreserve.beside.cursor hreserve.beside.posted
              (fun hpolling => ?_) (fun hended => ?_), hmoves.closed⟩
          · rw [show s₁.polling = s.polling from hreserve.beside.polling] at hpolling
            exact hpolling
          · exact hreserve.beside.creating.trans hended
    · have hqueue := queueCarrier_sends hmode hserial.waits data
      have hmoves := harrive.trans hqueue.moves
      refine ⟨hserial.moves hqueue.moves
        (hserial.creates.same hqueue.beside.started hqueue.beside.creating), .moves hmoves,
        .still rfl hqueue.beside.cursor hqueue.beside.posted (fun hpolling => ?_) (fun hended => ?_),
        hmoves.closed⟩
      · rw [hqueue.beside.polling] at hpolling
        exact hpolling
      · rw [hqueue.beside.creating]
        exact hended

theorem sessionAnswered_turn (h : s.Serial) {first : Bytes} (hc : s.creating = .requested first)
    (r : Option SessionResponse) :
    (s.sessionAnswered p r).Serial ∧ Turn p s (.sessionAnswered r) (s.sessionAnswered p r) := by
  have hidle : s.creating ≠ .idle := by rw [hc]; simp
  have hended : s.creating ≠ .ended := by rw [hc]; simp
  unfold sessionAnswered
  cases r with
  | none => exact ended_turn h hidle rfl
  | some r =>
      dsimp only
      by_cases hbad : r.status ≠ 200 ∨ r.carrierMode ≠ p.carrierMode.text
      · rw [if_pos hbad]
        exact ended_turn h hidle rfl
      rw [if_neg hbad]
      have hstatus : r.status = 200 := by
        by_contra hn
        exact hbad (.inl hn)
      set s₁ : Script := { s with
        sessionToken := r.token
        downCursor := if r.cursor = "" then "0" else r.cursor } with hs₁
      have htaken : Moves s s₁ [] :=
        .of_eq rfl rfl rfl rfl rfl id fun h => ⟨h.objects, h.webSocket, h.timer, h.tasks, h.own⟩
      have hserial : s₁.Serial := h.moves htaken (h.creates.same rfl rfl)
      have hend : ∀ creating, creating = .reading ∨ creating = .ended →
          ({ s₁ with creating } : Script).Serial ∧
            Turn p s (.sessionAnswered (some r)) { s₁ with creating } := by
        intro creating hcreating
        have hmoves : Moves s { s₁ with creating } [] := htaken.trans (.of_eq rfl rfl rfl rfl rfl id
          fun h => ⟨h.objects, h.webSocket, h.timer, h.tasks, h.own⟩)
        exact ⟨h.moves hmoves (h.creates.after hidle rfl hcreating), .moves hmoves,
          .answered hstatus hended rfl rfl rfl, id⟩
      by_cases htoken : r.token = ""
      · rw [if_pos htoken]
        have hfail := s₁.fail_sends []
        have hmoves : Moves s { s₁.fail with creating := .ended } [] :=
          (htaken.trans hfail.moves).trans (.of_eq rfl rfl rfl rfl rfl id fun h =>
            ⟨h.objects, h.webSocket, h.timer, h.tasks, h.own⟩)
        exact ⟨h.moves hmoves (h.creates.after hidle hfail.beside.started (.inr rfl)),
          .moves hmoves, .answered hstatus hended hfail.beside.cursor hfail.beside.posted
            hfail.beside.polling, hmoves.closed⟩
      rw [if_neg htoken]
      by_cases hclosed : s.closed = true
      · rw [if_pos hclosed]
        exact hend _ (.inr rfl)
      · rw [if_neg hclosed]
        exact hend _ (.inl rfl)

theorem welcomed_turn (hmode : p.carrierMode = .https) (h : s.Serial)
    (hc : s.creating = .reading) (r : Option Bytes) :
    (s.welcomed p r).Serial ∧ Turn p s (.welcomed r) (s.welcomed p r) := by
  have hidle : s.creating ≠ .idle := by rw [hc]; simp
  have hended : s.creating ≠ .ended := by rw [hc]; simp
  unfold welcomed
  cases r with
  | none => exact ended_turn h hidle rfl
  | some welcome =>
      dsimp only
      rw [if_neg (by rw [hmode]; simp)]
      unfold connected
      dsimp only
      have hend : Moves s { s with creating := .ended } [] :=
        .of_eq rfl rfl rfl rfl rfl id fun h => ⟨h.objects, h.webSocket, h.timer, h.tasks, h.own⟩
      have hserial : ({ s with creating := .ended } : Script).Serial :=
        h.moves hend (h.creates.after hidle rfl (.inr rfl))
      by_cases hclosed : s.closed = true
      · rw [if_pos hclosed]
        exact ⟨hserial, .moves hend, .still rfl rfl rfl id fun _ => rfl, id⟩
      · rw [if_neg hclosed, hmode]
        dsimp only
        have hopen : ({ s with creating := .ended } : Script).closed = false := by
          simpa using hclosed
        obtain ⟨hposted, hpost, hcursor, hcreating, hstarted, hpending⟩ :=
          post_chunks (p := p) hopen welcome
        set s₁ := Script.post { s with creating := .ended } p welcome
        have htake : Moves s₁ { s₁ with pending := [] } [] :=
          .of_eq rfl rfl rfl rfl rfl id fun h => ⟨h.objects, h.webSocket, h.timer, h.tasks, h.own⟩
        have hwaits := htake.waits (hpost.waits hserial.waits)
        have hdrain := @drainLoop_sends p _ hmode s₁.pending hwaits
        set s₂ := drainLoop p { s₁ with pending := [] } s₁.pending
        have hpoll : Moves s₂ s₂.poll [] :=
          .of_eq rfl rfl rfl rfl rfl id fun h => ⟨h.objects, h.webSocket, h.timer, h.tasks, h.own⟩
        have hmoves := (((hend.trans hpost).trans htake).trans hdrain.moves).trans hpoll
        have hended' : s₂.poll.creating = .ended := hdrain.beside.creating.trans hcreating
        refine ⟨h.moves hmoves (h.creates.after hidle (hdrain.beside.started.trans hstarted)
          (.inr hended')), .moves hmoves,
          .connected hended (hdrain.beside.cursor.trans hcursor) ?_ hended', hmoves.closed⟩
        exact hdrain.beside.posted.trans hposted

theorem upAnswered_turn (h : s.Serial) {b : Batch} (hb : s.upBatch = some b)
    (r : Option UpResponse) :
    (s.upAnswered p b r).Serial ∧ Turn p s (.upAnswered r) (s.upAnswered p b r) := by
  have hlost : ({ Script.fail { s with upBatch := none } with upRunning := false } :
      Script).Serial ∧ Turn p s (.upAnswered r)
        { Script.fail { s with upBatch := none } with upRunning := false } := by
    have hfail := Script.fail_sends { s with upBatch := none } []
    have hbare := fail_bare (s := { s with upBatch := none })
      ⟨h.bare.objects, h.bare.webSocket, h.bare.timer, h.bare.tasks, h.bare.own⟩
    obtain ⟨objects, socket, he, -⟩ := Script.fail_eq { s with upBatch := none }
    refine ⟨⟨?_, fun _ => ?_, h.creates.same hfail.beside.started hfail.beside.creating⟩,
      .lost ?_ ?_ ?_ (fail_closed _), .still rfl hfail.beside.cursor hfail.beside.posted
        (fun hpolling => ?_) (fun hended => ?_), fun _ => fail_closed _⟩
    · exact ⟨hbare.objects, hbare.webSocket, hbare.timer, hbare.tasks, hbare.own⟩
    · rw [he]
    · rw [he]
    · rw [he]
    · rw [he]
    · rw [← show _ = s.polling from hfail.beside.polling]
      exact hpolling
    · exact hfail.beside.creating.trans hended
  unfold upAnswered
  cases r with
  | none => exact hlost
  | some r =>
      dsimp only
      by_cases hbad : r.status ≠ 204 ∨ r.ack ≠ toString s.upSequence
      · rw [if_pos hbad]
        exact hlost
      rw [if_neg hbad]
      have hgood : r.status = 204 ∧ r.ack = toString s.upSequence := by
        constructor
        · by_contra hn
          exact hbad (.inl hn)
        · by_contra hn
          exact hbad (.inr hn)
      have hrunning : s.upRunning = true := by
        by_contra hn
        rw [Bool.not_eq_true] at hn
        rw [h.waits hn] at hb
        cases hb
      set mid : Script := { Script.release { s with upBatch := none } b.total b.count none with
        upSequence := s.upSequence + 1 } with hmid
      have hsends : Sends mid (mid.upLoop p) [] := upLoop_sends rfl hrunning
      have hbare : mid.Bare :=
        ⟨h.bare.objects, h.bare.webSocket, h.bare.timer, h.bare.tasks, h.bare.own⟩
      refine ⟨⟨hsends.moves.bare hbare, hsends.moves.waits fun _ => rfl,
        h.creates.same hsends.beside.started hsends.beside.creating⟩,
        @UpTurn.heard s r b mid _ hb hgood.1 hgood.2 rfl rfl rfl rfl hsends.moves,
        .still rfl hsends.beside.cursor hsends.beside.posted (fun hpolling => ?_) (fun hended => ?_),
        hsends.moves.closed⟩
      · have hsame : (mid.upLoop p).polling = s.polling := hsends.beside.polling
        exact hsame.symm.trans hpolling
      · exact hsends.beside.creating.trans hended

theorem pollAnswered_turn (h : s.Serial) (hpolling : s.polling = true) (r : Option DownResponse) :
    (s.pollAnswered p r).Serial ∧ Turn p s (.polled r) (s.pollAnswered p r) := by
  have hset : ∀ (s₁ : Script) (polling : Bool), Moves s₁ { s₁ with polling } [] := fun _ _ =>
    .of_eq rfl rfl rfl rfl rfl id fun h => ⟨h.objects, h.webSocket, h.timer, h.tasks, h.own⟩
  have hstill : s.takes (.polled r) = none → ∀ polling, ({ s with polling } : Script).Serial ∧
      Turn p s (.polled r) { s with polling } := fun hi polling =>
    ⟨h.moves (hset s polling) (h.creates.same rfl rfl), .moves (hset s polling),
      .still hi rfl rfl (fun _ => hpolling) id, id⟩
  have hstop : s.takes (.polled r) = none → ({ s.fail with polling := false } : Script).Serial ∧
      Turn p s (.polled r) { s.fail with polling := false } := by
    intro hi
    have hfail := s.fail_sends []
    have hmoves := hfail.moves.trans (hset s.fail false)
    exact ⟨h.moves hmoves (h.creates.same hfail.beside.started hfail.beside.creating),
      .moves hmoves, .still hi hfail.beside.cursor hfail.beside.posted (fun hn => by cases hn)
        fun hended => hfail.beside.creating.trans hended, hmoves.closed⟩
  unfold pollAnswered
  cases r with
  | none => exact hstop rfl
  | some r =>
      have hnone : (∀ data, r.data = some data → ¬ (r.status = 200 ∧ r.next ≠ "" ∧
          data.length ≠ 0 ∧ s.closed = false)) → s.takes (.polled (some r)) = none := by
        intro hno
        rw [takes, Option.filter_eq_none_iff]
        intro data hdata
        rw [decide_eq_true_iff]
        exact hno data hdata
      dsimp only
      by_cases hempty : r.status = 204
      · rw [if_pos hempty]
        refine hstill (hnone fun data _ hgood => ?_) _
        rw [hempty] at hgood
        exact absurd hgood.1 (by decide)
      rw [if_neg hempty]
      by_cases hstatus : r.status ≠ 200
      · rw [if_pos hstatus]
        exact hstop (hnone fun data _ hgood => hstatus hgood.1)
      rw [if_neg hstatus]
      cases hdata : r.data with
      | none => exact hstop (hnone fun data hsome => by rw [hdata] at hsome; cases hsome)
      | some data =>
          have hthis : ∀ data', r.data = some data' → data' = data := by
            intro data' hsome
            rw [hdata] at hsome
            exact (Option.some.inj hsome).symm
          dsimp only
          split_ifs with hbad hclosed
          · refine hstop (hnone fun data' hsome hgood => ?_)
            rw [hthis data' hsome] at hgood
            rcases hbad with hbad | hbad
            · exact hgood.2.1 hbad
            · exact hgood.2.2.1 hbad
          · refine hstill (hnone fun data' _ hgood => ?_) _
            rw [hclosed] at hgood
            cases hgood.2.2.2
          · rw [Bool.not_eq_true] at hclosed
            rw [not_or] at hbad
            obtain ⟨hposted, hpost, hcursor, hcreating, hstarted, -⟩ :=
              post_chunks (p := p) hclosed data
            have hmoves : Moves s (Script.poll { s.post p data with downCursor := r.next }) [] :=
              hpost.trans (.of_eq rfl rfl rfl rfl rfl id fun h =>
                ⟨h.objects, h.webSocket, h.timer, h.tasks, h.own⟩)
            have htakes : s.takes (.polled (some r)) = some data := by
              rw [takes, Option.filter_eq_some_iff]
              refine ⟨hdata, ?_⟩
              rw [decide_eq_true_iff]
              exact ⟨not_not.mp hstatus, hbad.1, hbad.2, hclosed⟩
            exact ⟨h.moves hmoves (h.creates.same hstarted hcreating), .moves hmoves,
              .took hpolling (not_not.mp hstatus) hdata htakes rfl hposted hcreating,
              hmoves.closed⟩

/-- **What one input does** to a script in mode `https`. -/
theorem next_turn (hmode : p.carrierMode = .https) (h : s.Serial) {i : Input}
    (hi : s.next p i = some s') : s'.Serial ∧ Turn p s i s' := by
  have hlane := h.lane
  have hsteps := h.creates.steps
  unfold next at hi
  cases i with
  | message data =>
      cases hi
      exact message_turn hmode h data
  | close =>
      cases hi
      rw [close_eq_fail]
      exact fail_turn h rfl
  | sessionAnswered r =>
      dsimp only at hi
      split at hi
      · next hc =>
          cases hi
          exact sessionAnswered_turn h hc r
      · cases hi
  | welcomed r =>
      dsimp only at hi
      split_ifs at hi with hc
      cases hi
      exact welcomed_turn hmode h hc r
  | resumed =>
      dsimp only at hi
      rcases hsteps with hc | ⟨first, hc⟩ | hc | hc
      all_goals
        rw [hc] at hi
        cases hi
  | upAnswered r =>
      dsimp only at hi
      split at hi
      · next hb =>
          cases hi
          exact upAnswered_turn h hb r
      · cases hi
  | polled r =>
      dsimp only at hi
      split_ifs at hi with hpolling
      cases hi
      exact pollAnswered_turn h hpolling r
  | laneAnswered o r =>
      dsimp only at hi
      rw [hlane o] at hi
      cases hi
  | lanePolled o r =>
      dsimp only at hi
      rw [hlane o] at hi
      cases hi
  | webSocketOpen =>
      dsimp only at hi
      rw [h.bare.webSocket] at hi
      cases hi
  | webSocketMessage data =>
      dsimp only at hi
      rw [h.bare.webSocket] at hi
      cases hi
  | webSocketError =>
      dsimp only at hi
      rcases hsteps with hc | ⟨first, hc⟩ | hc | hc
      all_goals
        rw [hc] at hi
        cases hi
  | webSocketClose =>
      dsimp only at hi
      rw [h.bare.webSocket] at hi
      cases hi
  | webSocketTimer =>
      dsimp only at hi
      rw [h.bare.timer] at hi
      cases hi
  | webSocketTask =>
      dsimp only at hi
      rw [h.bare.tasks] at hi
      cases hi
  | laneOpen o =>
      dsimp only at hi
      rw [hlane o] at hi
      cases hi
  | laneMessage o data =>
      dsimp only at hi
      rw [hlane o] at hi
      cases hi
  | laneClose o =>
      dsimp only at hi
      rw [hlane o] at hi
      cases hi
  | laneTimer o =>
      dsimp only at hi
      rw [hlane o] at hi
      cases hi
  | laneTask o =>
      dsimp only at hi
      rw [hlane o] at hi
      cases hi
  | transmitted lane amount =>
      cases lane with
      | none =>
          dsimp only at hi
          rw [h.bare.webSocket] at hi
          cases hi
      | some o =>
          dsimp only at hi
          rw [hlane o] at hi
          cases hi

end Script

end Page

end TproxyServer
