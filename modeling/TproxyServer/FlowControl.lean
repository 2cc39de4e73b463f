import TproxyServer.Ownership

/-! # Flow control

A stream may send in each direction only what the other side granted.  `flow` counts, from a
history alone, what has passed in both directions since the last OPEN of an id; the counters of
a live stream are what is left of the grants. -/

namespace TproxyServer

open Interaction Prog

variable {limits : Limits} {carrier : CarrierMode} {scope : Scope} {s s' : Session}
  {t es : List Event} {sha256 : Bytes → Bytes}

/-! ### Counting -/

/-- What has passed on a stream: `applied` bytes of the client for `credited` bytes of WINDOW
(and `withheld` ones, whose WINDOW could not be queued); `sent` bytes for the client (and
`dropped` ones, whose DATA could not be queued) for `granted` bytes of the client's WINDOW. -/
structure Flow where
  applied : ℕ := 0
  credited : ℕ := 0
  withheld : ℕ := 0
  sent : ℕ := 0
  dropped : ℕ := 0
  granted : ℕ := 0
  /-- A WINDOW of the client went beyond what a `uint32` holds. -/
  saturated : Bool := false
deriving DecidableEq

def Flow.event (id : ℕ) (f : Flow) : Event → Flow
  | .opened i _ => if i = id then {} else f
  | .dataApplied i payload =>
      if i = id then { f with applied := f.applied + payload.length } else f
  | .windowApplied i amount =>
      if i = id then { f with
        granted := f.granted + amount
        saturated := f.saturated ||
          maxUint32 + f.sent + f.dropped < initialStreamWindow + f.granted + amount }
      else f
  | .queued _ .window i payload =>
      if i = id then { f with credited := f.credited + (windowAmount payload).1 } else f
  | .refused .window i payload =>
      if i = id then { f with withheld := f.withheld + (windowAmount payload).1 } else f
  | .queued _ .data i payload =>
      if i = id then { f with sent := f.sent + payload.length } else f
  | .refused .data i payload =>
      if i = id then { f with dropped := f.dropped + payload.length } else f
  | _ => f

/-- What has passed on stream `id` since it was opened last. -/
def flow (t : List Event) (id : ℕ) : Flow := t.foldl (Flow.event id) {}

theorem flow_append (t es : List Event) (id : ℕ) :
    flow (t ++ es) id = es.foldl (Flow.event id) (flow t id) :=
  List.foldl_append ..

/-- Events by which nothing passes on any stream. -/
def Flowless (es : List Event) : Prop := ∀ e ∈ es, ∀ id f, Flow.event id f e = f

theorem Flowless.flow (h : Flowless es) (t : List Event) (id : ℕ) :
    flow (t ++ es) id = flow t id := by
  rw [flow_append]
  generalize TproxyServer.flow t id = f
  induction es with
  | nil => rfl
  | cons e es ih =>
      rw [List.foldl_cons, h e (by simp)]
      exact ih fun e he => h e (by simp [he])

/-! ### Grants and what is left of them -/

/-- The counters of a live stream against what has passed on it. -/
structure Flow.Left (f : Flow) (st : StreamState) : Prop where
  window : st.receiveWindow + st.pendingWriteBytes = initialStreamWindow
  receive : st.receiveWindow + f.applied = initialStreamWindow + f.credited + f.withheld
  send : st.sendCredit + f.sent + f.dropped ≤ initialStreamWindow + f.granted
  exact : f.saturated = false →
    st.sendCredit + f.sent + f.dropped = initialStreamWindow + f.granted

/-- Nobody has been sent more than was granted, and nothing is credited that was not applied. -/
structure Flow.Fair (f : Flow) : Prop where
  credited : f.credited + f.withheld ≤ f.applied
  applied : f.applied ≤ initialStreamWindow + f.credited + f.withheld
  sent : f.sent + f.dropped ≤ initialStreamWindow + f.granted

theorem Flow.Left.fair {f : Flow} {st : StreamState} (h : f.Left st) : f.Fair := by
  obtain ⟨hwindow, hreceive, hsend, -⟩ := h
  constructor
  · omega
  · omega
  · omega

theorem Flow.fair_start : ({} : Flow).Fair := by
  constructor
  · simp
  · simp
  · simp

theorem newStream_left (backend : ℕ) : ({} : Flow).Left (newStream backend) := by
  constructor
  · rfl
  · rfl
  · exact Nat.le_refl _
  · exact fun _ => rfl

theorem Flow.Left.data {f : Flow} {st : StreamState} (h : f.Left st) {payload : Bytes}
    (hroom : payload.length ≤ st.receiveWindow) :
    Flow.Left { f with applied := f.applied + payload.length }
      { (appendBackendWriteLocked st payload).1 with
        receiveWindow := subUint32 st.receiveWindow (toUint32 payload.length)
        writeNotify := true } := by
  obtain ⟨hwindow, hreceive, hsend, hexact⟩ := h
  have hbytes : (appendBackendWriteLocked st payload).1.pendingWriteBytes =
      st.pendingWriteBytes + payload.length := rfl
  have hcredit : (appendBackendWriteLocked st payload).1.sendCredit = st.sendCredit := rfl
  have hsub : subUint32 st.receiveWindow (toUint32 payload.length) =
      st.receiveWindow - payload.length := by
    unfold initialStreamWindow at hwindow
    unfold subUint32 toUint32
    omega
  constructor
  · dsimp only
    omega
  · dsimp only
    omega
  · dsimp only
    omega
  · dsimp only
    rwa [hcredit]

theorem Flow.Left.credit {f : Flow} {st : StreamState} (h : f.Left st) (amount : ℕ) :
    Flow.Left { f with
        granted := f.granted + amount
        saturated := f.saturated ||
          maxUint32 + f.sent + f.dropped < initialStreamWindow + f.granted + amount }
      { st with sendCredit := addCredit st.sendCredit amount, creditNotify := true } := by
  obtain ⟨hwindow, hreceive, hsend, hexact⟩ := h
  refine ⟨hwindow, hreceive, ?_, fun hfree => ?_⟩
  · dsimp only
    unfold addCredit
    split_ifs
    all_goals omega
  · simp only [Bool.or_eq_false_iff, decide_eq_false_iff_not] at hfree
    have heq := hexact hfree.1
    dsimp only
    unfold addCredit
    rw [if_neg (by omega)]
    omega

/-- Bytes reached the backend, and the client is told or not. -/
theorem Flow.Left.drain {f : Flow} {st : StreamState} (h : f.Left st) {amount : ℕ}
    (hbytes : amount ≤ st.pendingWriteBytes) :
    Flow.Left { f with credited := f.credited + amount } (st.drain amount) ∧
      Flow.Left { f with withheld := f.withheld + amount } (st.drain amount) := by
  obtain ⟨hwindow, hreceive, hsend, hexact⟩ := h
  have hdrain : (st.drain amount).receiveWindow = st.receiveWindow + amount := rfl
  have hleft : (st.drain amount).pendingWriteBytes = st.pendingWriteBytes - amount := rfl
  constructor
  · refine ⟨?_, ?_, hsend, hexact⟩
    · omega
    · dsimp only
      omega
  · refine ⟨?_, ?_, hsend, hexact⟩
    · omega
    · dsimp only
      omega

/-- Bytes of the backend are queued or dropped. -/
theorem Flow.Left.read {f : Flow} {st : StreamState} (h : f.Left st) {n : ℕ}
    (hcredit : n ≤ st.sendCredit) :
    Flow.Left { f with sent := f.sent + n } { st with sendCredit := st.sendCredit - n } ∧
      Flow.Left { f with dropped := f.dropped + n }
        { st with sendCredit := st.sendCredit - n } := by
  obtain ⟨hwindow, hreceive, hsend, hexact⟩ := h
  constructor
  · refine ⟨hwindow, hreceive, ?_, fun hfree => ?_⟩
    · dsimp only
      omega
    · have heq := hexact hfree
      dsimp only
      omega
  · refine ⟨hwindow, hreceive, ?_, fun hfree => ?_⟩
    · dsimp only
      omega
    · have heq := hexact hfree
      dsimp only
      omega

theorem Flow.Left.same {f : Flow} {st st' : StreamState} (h : f.Left st)
    (hwindow : st'.receiveWindow = st.receiveWindow)
    (hbytes : st'.pendingWriteBytes = st.pendingWriteBytes)
    (hcredit : st'.sendCredit = st.sendCredit) : f.Left st' := by
  constructor
  · rw [hwindow, hbytes]
    exact h.window
  · rw [hwindow]
    exact h.receive
  · rw [hcredit]
    exact h.send
  · rw [hcredit]
    exact h.exact

/-! ### The law -/

/-- Every live stream has what is left of the grants, and no stream, live or gone, was ever
served more than it was granted. -/
structure FlowConserved (σ : Traced) : Prop where
  live : ∀ id st, σ.session.streams.get id = some st → (flow σ.trace id).Left st
  fair : ∀ id, (flow σ.trace id).Fair

namespace FlowConserved

/-- Streams may go while nothing passes. -/
theorem keep (h : FlowConserved ⟨s, t⟩) (hes : Flowless es)
    (hstreams : ∀ id st, s'.streams.get id = some st → s.streams.get id = some st) :
    FlowConserved ⟨s', t ++ es⟩ where
  live id st hst := by
    rw [hes.flow]
    exact h.live id st (hstreams id st hst)
  fair id := by
    rw [hes.flow]
    exact h.fair id

theorem drop (h : FlowConserved ⟨s, t⟩)
    (hstreams : ∀ id st, s'.streams.get id = some st → s.streams.get id = some st) :
    FlowConserved ⟨s', t⟩ :=
  ⟨fun id st hst => h.live id st (hstreams id st hst), h.fair⟩

theorem same (h : FlowConserved ⟨s, t⟩) (hstreams : s'.streams = s.streams) :
    FlowConserved ⟨s', t⟩ :=
  h.drop fun _ _ hst => hstreams ▸ hst

/-- Something passes on one stream. -/
theorem pass (h : FlowConserved ⟨s, t⟩) {id : ℕ} {st' : StreamState}
    (hstreams : s'.streams = s.streams.put id st') (hleft : (flow (t ++ es) id).Left st')
    (hother : ∀ i, i ≠ id → flow (t ++ es) i = flow t i) : FlowConserved ⟨s', t ++ es⟩ where
  live i st hst := by
    dsimp only at hst
    rw [hstreams, Table.get_put] at hst
    split_ifs at hst with hi
    · cases hst
      rwa [hi]
    · dsimp only
      rw [hother i hi]
      exact h.live i st hst
  fair i := by
    dsimp only
    by_cases hi : i = id
    · rw [hi]
      exact hleft.fair
    · rw [hother i hi]
      exact h.fair i

end FlowConserved

theorem Event.silent_flowless {e : Event} (h : e.silent = true) : Flowless [e] := by
  cases e with
  | rejected | abandoned | cancelled | finished => simp [Flowless, Flow.event]
  | _ => cases h

theorem QueueResult.flowless {id : ℕ} {payload : Bytes} {ok : Bool}
    (h : QueueResult s .close id payload es s' ok) : Flowless es := by
  cases h with
  | refused => simp [Flowless, Flow.event]
  | accepted => simp [Flowless, Flow.event]

/-- What passes when a WINDOW or DATA is queued or refused. -/
theorem QueueResult.flow {id : ℕ} {payload : Bytes} {ty : FrameType} {ok : Bool}
    (h : QueueResult s ty id payload es s' ok) (t : List Event) :
    (∀ i, i ≠ id → flow (t ++ es) i = flow t i) ∧
      (ty = .window → flow (t ++ es) id =
          { flow t id with credited := (flow t id).credited + (windowAmount payload).1 } ∨
        flow (t ++ es) id =
          { flow t id with withheld := (flow t id).withheld + (windowAmount payload).1 }) ∧
      (ty = .data → flow (t ++ es) id =
          { flow t id with sent := (flow t id).sent + payload.length } ∨
        flow (t ++ es) id =
          { flow t id with dropped := (flow t id).dropped + payload.length }) := by
  cases h with
  | refused =>
      refine ⟨fun i hi => ?_, ?_, ?_⟩
      · rw [flow_append]
        cases ty <;> simp [Flow.event, Ne.symm hi]
      · rintro rfl
        right
        rw [flow_append]
        simp [Flow.event]
      · rintro rfl
        right
        rw [flow_append]
        simp [Flow.event]
  | accepted =>
      refine ⟨fun i hi => ?_, ?_, ?_⟩
      · rw [flow_append]
        cases ty <;> simp [Flow.event, Ne.symm hi]
      · rintro rfl
        left
        rw [flow_append]
        simp [Flow.event]
      · rintro rfl
        left
        rw [flow_append]
        simp [Flow.event]

/-- Every change conserves the flow. -/
theorem Change.flow {σ σ' : Traced} (h : Change scope σ σ') (hs : FlowConserved σ) :
    FlowConserved σ' := by
  have hset : ∀ (s : Session) (q : QueueRef) (d : Downlink),
      (s.setQueue q d).streams = s.streams := by
    intro s q d
    obtain ⟨down, lanes, released, he⟩ := s.setQueue_eq q d
    rw [he]
  cases h with
  | silent he => exact hs.keep (Event.silent_flowless he) fun _ _ hst => hst
  | @openStream s t id =>
      refine hs.pass rfl ?_ fun i hi => ?_
      · rw [flow_append]
        simpa [Flow.event] using newStream_left s.nextObject
      · rw [flow_append]
        simp [Flow.event, Ne.symm hi]
  | @stream s t es id st st' _ hst hstep _ =>
      have hleft := hs.live id st hst
      cases hstep with
      | @data payload hroom =>
          refine hs.pass rfl ?_ fun i hi => ?_
          · rw [flow_append]
            simpa [Flow.event] using hleft.data hroom
          · rw [flow_append]
            simp [Flow.event, Ne.symm hi]
      | @window amount _ =>
          refine hs.pass rfl ?_ fun i hi => ?_
          · rw [flow_append]
            simpa [Flow.event] using hleft.credit amount
          · rw [flow_append]
            simp [Flow.event, Ne.symm hi]
      | finished =>
          refine hs.pass rfl ?_ fun i _ => ?_
          · rw [List.append_nil]
            exact hleft.same rfl rfl rfl
          · rw [List.append_nil]
      | popped =>
          refine hs.pass rfl ?_ fun i _ => ?_
          · rw [List.append_nil]
            exact hleft.same rfl rfl rfl
          · rw [List.append_nil]
  | @drained s s' t es id amount st ok _ hst _ hbytes _ hwindow h _ =>
      have hleft := (hs.live id st hst).drain hbytes
      obtain ⟨hother, hflow, -⟩ := h.flow t
      have hamount : (windowAmount (windowPayload amount)).1 = amount := by
        rw [windowAmount_windowPayload]
        unfold initialStreamWindow at hwindow
        unfold maxUint32
        omega
      rw [hamount] at hflow
      refine hs.pass h.idle.2.1 ?_ hother
      rcases hflow rfl with hflow | hflow
      · rw [hflow]
        exact hleft.1
      · rw [hflow]
        exact hleft.2
  | @read s s' t es id st data ok _ hst _ hcredit h _ =>
      have hleft := (hs.live id st hst).read hcredit
      obtain ⟨hother, -, hflow⟩ := h.flow t
      refine hs.pass h.idle.2.1 ?_ hother
      rcases hflow rfl with hflow | hflow
      · rw [hflow]
        exact hleft.1
      · rw [hflow]
        exact hleft.2
  | queueClose _ _ _ h _ _ _ =>
      exact hs.keep h.flowless fun _ _ hst => h.idle.2.1 ▸ hst
  | endStream =>
      refine hs.drop fun i st hst => ?_
      rw [Session.delStream_streams, Table.get_del] at hst
      split_ifs at hst
      exact hst
  | rememberRoom => exact hs.keep (by simp [Flowless, Flow.event]) fun _ _ hst => hst
  | rememberFull =>
      rw [List.append_assoc]
      exact hs.keep (by simp [Flowless, Flow.event]) fun _ _ hst => hst
  | attend => exact hs.same (hset _ _ _)
  | acknowledge => exact hs.same (hset _ _ _)
  | deliver =>
      exact hs.keep (by simp [Flowless, Flow.event]) fun _ _ hst => (hset _ _ _) ▸ hst
  | close =>
      refine hs.drop fun i st hst => ?_
      rw [Table.get_nil] at hst
      cases hst
  | batch => exact hs.keep (by simp [Flowless, Flow.event]) fun _ _ hst => hst
  | @laneUplink s t _ id object f _ _ _ =>
      obtain ⟨lanes, released, he⟩ := s.modifyLane_eq id object f
      rw [he]
      exact hs.same rfl
  | _ => exact hs.same rfl

theorem FlowConserved.start : FlowConserved ⟨newSession limits carrier, []⟩ := by
  refine ⟨fun id st hst => ?_, fun id => Flow.fair_start⟩
  have hnone : (newSession limits carrier).streams = .nil := by
    unfold newSession
    split_ifs <;> rfl
  dsimp only at hst
  rw [hnone, Table.get_nil] at hst
  cases hst

/-- **In every run of a session in any carrier mode the flow of every stream is conserved in
both directions**: a live stream's receive window and the bytes its backend has yet to take make
up one initial window, the receive window is what was granted to the client less what the client
has sent, and the send credit is what the client granted less what it was sent (exactly so while
no WINDOW went beyond a `uint32`); no stream was ever sent more than the client granted, nor
credited for more than was applied. -/
theorem flow_conserved {σ : Traced} (h : Reachable sha256 limits carrier σ) :
    FlowConserved σ :=
  h.invariant .start fun hc _ hI => hc.flow hI

/-- A stream takes three bytes, two of which reach its backend, and gives two. -/
theorem flow_conserved_exchange : ∃ σ, Reachable id defaultLimits .https σ ∧
    flow σ.trace 1 = { applied := 3, credited := 2, sent := 2, granted := 5 } ∧
      FlowConserved σ := by
  have hplay : (play id ⟨newSession defaultLimits .https, []⟩
      [(.processUpCommit 1 (encode .open 1 []), []),
        (.processUpCommit 2 (encode .data 1 [7, 8, 9] ++ encode .window 1 (windowPayload 5)), []),
        (.nextWrite 1, []), (.backendDrained 1 2, []), (.backendData 1 [1, 2], [])]).map
      (fun σ => flow σ.trace 1) =
        some { applied := 3, credited := 2, sent := 2, granted := 5 } := by
    decide +kernel
  obtain ⟨σ, hσ, hflow⟩ := Option.map_eq_some_iff.mp hplay
  have hr : Reachable id defaultLimits .https σ := Reachable.start.play hσ
  exact ⟨σ, hr, hflow, flow_conserved hr⟩

/-! ### Credit -/

/-- The windows of a live stream in terms of what took effect: the bytes applied, the WINDOWs and
the DATA queued, and the WINDOWs of the client. -/
structure CreditConserved (f : Flow) (st : StreamState) : Prop where
  window : st.receiveWindow + st.pendingWriteBytes = initialStreamWindow
  /-- As long as every WINDOW could be queued. -/
  receive : f.withheld = 0 → st.receiveWindow + f.applied = initialStreamWindow + f.credited
  send : st.sendCredit + f.sent ≤ initialStreamWindow + f.granted
  /-- As long as every read of the backend could be queued. -/
  exact : f.saturated = false → f.dropped = 0 →
    st.sendCredit + f.sent = initialStreamWindow + f.granted
  /-- Credit is granted for bytes that were written to the backend only. -/
  written : f.credited + st.pendingWriteBytes ≤ f.applied

theorem Flow.Left.credits {f : Flow} {st : StreamState} (h : f.Left st) : CreditConserved f st := by
  obtain ⟨hwindow, hreceive, hsend, hexact⟩ := h
  refine ⟨hwindow, fun hall => ?_, ?_, fun hfree hall => ?_, ?_⟩
  · omega
  · omega
  · have heq := hexact hfree
    omega
  · omega

end TproxyServer
