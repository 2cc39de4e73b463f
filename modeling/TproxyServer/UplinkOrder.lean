import TproxyServer.BridgeLanes

/-! # The order of the uplink in the bridge page

What the app sends goes up in the order in which it came: through one queue in the modes `https`
and `websocket`, through the queue of its lane in the other two.  A message can come while the
script has a session token but has not forwarded the WELCOME yet; it is then queued ahead of those
that have waited since before the token, and this is the only way the order is lost. -/

namespace TproxyServer

namespace Page

variable {p : Params} {s s' s'' : Script} {extra extra' : Option ℕ → Bytes}

/-! ### Queues -/

/-- What has gone up under `c`: `none` is the uplink that all streams share, else it is the number
of a lane object. -/
def Script.sentBy (s : Script) (c : Option ℕ) : Bytes :=
  ((s.sent.filter fun e => e.1 = c).map Prod.snd).flatten

/-- What waits to go up under `c`. -/
def Script.waitingFor (s : Script) : Option ℕ → List Bytes
  | none => s.upPending
  | some o => (s.lane o).pending

/-- Of `due`, the beginning has gone up under `c`; the rest waits, as long as the script is
open. -/
def Script.Ordered (s : Script) (c : Option ℕ) (due : Bytes) : Prop :=
  ∃ rest, s.sentBy c ++ rest = due ∧ (s.closed = false → rest = (s.waitingFor c).flatten)

theorem sentBy_append {c : Option ℕ} {body : Bytes} (h : s'.sent = s.sent ++ [(c, body)])
    (c' : Option ℕ) :
    s'.sentBy c' = s.sentBy c' ++ if c = c' then body else [] := by
  unfold Script.sentBy
  rw [h]
  by_cases hc : c = c' <;> simp [hc]

/-- A closed script owes nothing to what came later. -/
theorem Script.Ordered.extend {c : Option ℕ} {due due' : Bytes} (h : s.Ordered c due)
    (hclosed : s.closed = true) (hdue : due <+: due') : s.Ordered c due' := by
  obtain ⟨rest, rfl, -⟩ := h
  obtain ⟨more, rfl⟩ := hdue
  exact ⟨rest ++ more, (List.append_assoc ..).symm, fun hopen => absurd hclosed (by simp [hopen])⟩

theorem Script.Ordered.init {c : Option ℕ} {due : Bytes} (h : s.Ordered c due) :
    s.sentBy c <+: due := by
  obtain ⟨rest, hrest, -⟩ := h
  exact ⟨rest, hrest⟩

/-- `extra` is what the queues are handed; nothing else becomes of them, and the map of the lanes
stays as it is. -/
structure Runs (s s' : Script) (extra : Option ℕ → Bytes) : Prop where
  ordered : ∀ c due, s.Ordered c due → s'.Ordered c (due ++ extra c)
  quiet : ∀ c, s.waitingFor c = [] → extra c = [] →
    s'.waitingFor c = [] ∧ ∀ e ∈ s'.sent, e.1 = c → e ∈ s.sent
  closed : s.closed = true → s'.closed = true
  lanes : s'.lanes = s.lanes
  next : s'.nextObject = s.nextObject
  id : ∀ o, (s'.lane o).id = (s.lane o).id
  blank : ∀ o, s.nextObject ≤ o → s'.lane o = s.lane o
  waiting : s'.pending = s.pending
  arrived : s'.arrived = s.arrived

/-- Nothing is handed to the queues. -/
abbrev Still (s s' : Script) : Prop := Runs s s' fun _ => []

namespace Runs

theorem trans (h : Runs s s' extra) (h' : Runs s' s'' extra') :
    Runs s s'' fun c => extra c ++ extra' c where
  ordered c due hdue := by
    have hnext := h'.ordered c _ (h.ordered c due hdue)
    rwa [List.append_assoc] at hnext
  quiet c hempty hextra := by
    obtain ⟨hleft, hright⟩ := List.append_eq_nil_iff.mp hextra
    obtain ⟨hmid, hsent⟩ := h.quiet c hempty hleft
    obtain ⟨hend, hsent'⟩ := h'.quiet c hmid hright
    exact ⟨hend, fun e he hc => hsent e (hsent' e he hc) hc⟩
  closed hc := h'.closed (h.closed hc)
  lanes := h'.lanes.trans h.lanes
  next := h'.next.trans h.next
  id o := (h'.id o).trans (h.id o)
  blank o ho := (h'.blank o (h.next.le.trans ho)).trans (h.blank o ho)
  waiting := h'.waiting.trans h.waiting
  arrived := h'.arrived.trans h.arrived

theorem trans_still (h : Runs s s' extra) (h' : Still s' s'') : Runs s s'' extra := by
  have hboth := h.trans h'
  simpa only [List.append_nil] using hboth

theorem still_trans (h : Still s s') (h' : Runs s' s'' extra) : Runs s s'' extra := by
  have hboth := h.trans h'
  simpa only [List.nil_append] using hboth

/-- No queue and no record of the map has changed. -/
theorem still (hsent : s'.sent = s.sent) (hup : s'.upPending = s.upPending)
    (hlane : ∀ o, (s'.lane o).pending = (s.lane o).pending ∧ (s'.lane o).id = (s.lane o).id ∧
      (s.nextObject ≤ o → s'.lane o = s.lane o))
    (hclosed : s.closed = true → s'.closed = true)
    (hframe : s'.lanes = s.lanes ∧ s'.nextObject = s.nextObject ∧ s'.pending = s.pending ∧
      s'.arrived = s.arrived) : Still s s' := by
  have hwaiting : ∀ c, s'.waitingFor c = s.waitingFor c := by
    intro c
    cases c with
    | none => exact hup
    | some o => exact (hlane o).1
  refine ⟨fun c due hdue => ?_, fun c hempty _ => ?_, hclosed, hframe.1, hframe.2.1,
    fun o => (hlane o).2.1, fun o => (hlane o).2.2, hframe.2.2.1, hframe.2.2.2⟩
  · obtain ⟨rest, hrest, hwait⟩ := hdue
    refine ⟨rest, ?_, fun hopen => ?_⟩
    · rw [List.append_nil, ← hrest]
      unfold Script.sentBy
      rw [hsent]
    · rw [hwaiting]
      apply hwait
      cases hc : s.closed with
      | false => rfl
      | true => simp [hclosed hc] at hopen
  · rw [hwaiting, hsent]
    exact ⟨hempty, fun e he _ => he⟩

/-- What `still` speaks of, where the lane objects are the same. -/
theorem of_eq (hobjects : s'.objects = s.objects)
    (h : (s'.sent, s'.upPending, s'.lanes, s'.nextObject, s'.pending, s'.arrived) =
      (s.sent, s.upPending, s.lanes, s.nextObject, s.pending, s.arrived))
    (hclosed : s.closed = true → s'.closed = true) : Still s s' := by
  simp only [Prod.mk.injEq] at h
  obtain ⟨hsent, hup, hlanes, hnext, hpending, harrived⟩ := h
  refine still hsent hup (fun o => ?_) hclosed ⟨hlanes, hnext, hpending, harrived⟩
  rw [Script.lane_congr hobjects]
  exact ⟨rfl, rfl, fun _ => rfl⟩

theorem refl (s : Script) : Still s s := of_eq rfl rfl fun h => h

/-- A lane that was made is written, its queue staying as it is. -/
theorem putLane {o : ℕ} {l : Lane} (ho : o < s.nextObject)
    (hl : l.pending = (s.lane o).pending) (hid : l.id = (s.lane o).id) :
    Still s (s.putLane o l) := by
  refine still rfl rfl (fun i => ?_) (fun h => h) ⟨rfl, rfl, rfl, rfl⟩
  rw [Script.lane_putLane]
  split_ifs with h
  · subst h
    exact ⟨hl, hid, fun hge => absurd ho (by omega)⟩
  · exact ⟨rfl, rfl, fun _ => rfl⟩

end Runs

/-- A value goes to the end of the queue of `c`. -/
theorem push_runs {c : Option ℕ} {data : Bytes} (hdata : data ≠ [])
    (hsent : s'.sent = s.sent) (hclosed : s'.closed = s.closed)
    (hqueue : ∀ c', s'.waitingFor c' = s.waitingFor c' ++ if c' = c then [data] else [])
    (hid : ∀ o, (s'.lane o).id = (s.lane o).id ∧ (s.nextObject ≤ o → s'.lane o = s.lane o))
    (hframe : s'.lanes = s.lanes ∧ s'.nextObject = s.nextObject ∧ s'.pending = s.pending ∧
      s'.arrived = s.arrived) : Runs s s' fun c' => if c' = c then data else [] := by
  refine ⟨fun c' due hdue => ?_, fun c' hempty hextra => ?_, fun h => hclosed.trans h, hframe.1,
    hframe.2.1, fun o => (hid o).1, fun o => (hid o).2, hframe.2.2.1, hframe.2.2.2⟩
  · obtain ⟨rest, hrest, hwait⟩ := hdue
    refine ⟨rest ++ if c' = c then data else [], ?_, fun hopen => ?_⟩
    · unfold Script.sentBy at hrest ⊢
      rw [hsent, ← List.append_assoc, hrest]
    · rw [hwait (hclosed ▸ hopen), hqueue]
      split_ifs <;> simp
  · have hne : c' ≠ c := by
      rintro rfl
      rw [if_pos rfl] at hextra
      exact hdata hextra
    rw [hqueue, if_neg hne, hsent, hempty]
    exact ⟨rfl, fun e he _ => he⟩

/-- A body is taken from the queue of `c` and goes up. -/
theorem take_runs {c : Option ℕ} {j : Joined} (hopen : s.closed = false)
    (hj : Takes (s.waitingFor c) j) (hpending : s.waitingFor c ≠ [])
    (hsent : s'.sent = s.sent ++ [(c, j.batch.body)])
    (hqueue : ∀ c', s'.waitingFor c' = if c' = c then j.values else s.waitingFor c')
    (hid : ∀ o, (s'.lane o).id = (s.lane o).id ∧ (s.nextObject ≤ o → s'.lane o = s.lane o))
    (hframe : s'.lanes = s.lanes ∧ s'.nextObject = s.nextObject ∧ s'.pending = s.pending ∧
      s'.arrived = s.arrived) : Still s s' := by
  refine ⟨fun c' due hdue => ?_, fun c' hempty _ => ?_, fun h => ?_, hframe.1,
    hframe.2.1, fun o => (hid o).1, fun o => (hid o).2, hframe.2.2.1, hframe.2.2.2⟩
  · obtain ⟨rest, hrest, hwait⟩ := hdue
    refine ⟨(s'.waitingFor c').flatten, ?_, fun _ => rfl⟩
    rw [List.append_nil, ← hrest, hwait hopen, hqueue, sentBy_append hsent]
    by_cases hc : c' = c
    · subst hc
      rw [if_pos rfl, if_pos rfl, List.append_assoc, hj.lossless]
    · rw [if_neg hc, if_neg fun h => hc h.symm, List.append_nil]
  · have hne : c' ≠ c := by
      rintro rfl
      exact hpending hempty
    rw [hqueue, if_neg hne, hsent]
    refine ⟨hempty, fun e he hc => ?_⟩
    rcases List.mem_append.mp he with he | he
    · exact he
    · rw [List.mem_singleton.mp he] at hc
      exact absurd hc.symm hne
  · rw [hopen] at h
    cases h

namespace Script

/-! ### What leaves the queues as they are -/

theorem close_lane (s : Script) (o : ℕ) : ∃ socket, s.close.lane o =
    { s.lane o with socket := socket } ∧ (s.lane o = { id := 0 } → socket = none) := by
  unfold close
  split_ifs
  · refine ⟨(s.lane o).socket, rfl, fun h => ?_⟩
    rw [h]
  · refine ⟨(s.lane o).socket.map Socket.close, ?_, fun h => ?_⟩
    · unfold lane
      dsimp only
      rw [Table.get_mapValues]
      cases s.objects.get o <;> rfl
    · rw [h]
      rfl

/-- What was not made is blank. -/
def Blank (s : Script) : Prop := ∀ o, s.nextObject ≤ o → s.lane o = { id := 0 }

theorem close_still (hblank : s.Blank) : Still s s.close := by
  have hclose : s.close.sent = s.sent ∧ s.close.upPending = s.upPending ∧
      s.close.closed = true ∧ s.close.lanes = s.lanes ∧ s.close.nextObject = s.nextObject ∧
      s.close.pending = s.pending ∧ s.close.arrived = s.arrived := by
    unfold close
    split_ifs with h
    · exact ⟨rfl, rfl, h, rfl, rfl, rfl, rfl⟩
    · exact ⟨rfl, rfl, rfl, rfl, rfl, rfl, rfl⟩
  obtain ⟨hsent, hup, hclosed, hframe⟩ := hclose
  refine .still hsent hup (fun o => ?_) (fun _ => hclosed) hframe
  obtain ⟨socket, hlane, hsocket⟩ := s.close_lane o
  rw [hlane]
  refine ⟨rfl, rfl, fun ho => ?_⟩
  have hempty := hblank o ho
  rw [hsocket hempty, hempty]

theorem fail_still (hblank : s.Blank) : Still s s.fail := by
  unfold fail
  split_ifs
  · exact .refl s
  · exact close_still hblank

theorem Blank.runs (h : s.Blank) (hr : Runs s s' extra) : s'.Blank := fun o ho =>
  (hr.blank o (hr.next ▸ ho)).trans (h o (hr.next ▸ ho))

theorem reserve_still {data : Bytes} {lane : Option ℕ}
    (hlane : ∀ o, lane = some o → o < s.nextObject) (h : s.reserve p data lane = some s') :
    Still s s' ∧ data ≠ [] := by
  unfold reserve at h
  dsimp only at h
  by_cases hfull : data.length = 0 ∨ queueLimit - data.length < s.queuedBytes + s.bufferedBytes p ∨
      queueItemLimit ≤ s.queuedItems
  · rw [if_pos hfull] at h
    cases h
  rw [if_neg hfull] at h
  have hdata : data ≠ [] := by
    rintro rfl
    exact hfull (.inl rfl)
  refine ⟨?_, hdata⟩
  cases lane with
  | none =>
      cases h
      exact .of_eq rfl rfl fun h => h
  | some o =>
      dsimp only at h
      split_ifs at h
      cases h
      have hcount : Still s { s with
          queuedBytes := s.queuedBytes + data.length
          queuedItems := s.queuedItems + 1 } := .of_eq rfl rfl fun h => h
      exact hcount.trans_still (.putLane (hlane o rfl) rfl rfl)

theorem release_still (bytes items : ℤ) {lane : Option ℕ}
    (hlane : ∀ o, lane = some o → o < s.nextObject) : Still s (s.release bytes items lane) := by
  cases lane with
  | none => exact .of_eq rfl rfl fun h => h
  | some o =>
      have hcount : Still s { s with
          queuedBytes := s.queuedBytes - bytes
          queuedItems := s.queuedItems - items } := .of_eq rfl rfl fun h => h
      exact hcount.trans_still (.putLane (hlane o rfl) rfl rfl)

theorem post_still (hblank : s.Blank) (data : Bytes) : Still s (s.post p data) := by
  rcases post_cases s p data with ⟨new, hpost, -⟩ | ⟨hpost, -⟩
  · rw [hpost]
    exact .of_eq rfl rfl fun h => h
  · rw [hpost]
    exact fail_still hblank

theorem pollLaneAgain_still {o : ℕ} (ho : o < s.nextObject) : Still s (s.pollLaneAgain o) :=
  .putLane ho rfl rfl

theorem pollLane_still {o : ℕ} (ho : o < s.nextObject) : Still s (s.pollLane o) := by
  unfold pollLane
  split_ifs
  · exact .refl s
  · exact pollLaneAgain_still ho

theorem releaseLane_still (bytes items : ℤ) {o : ℕ} (ho : o < s.nextObject) :
    Still s (s.release bytes items (some o)) := by
  refine release_still bytes items fun i hi => ?_
  cases hi
  exact ho

/-! ### The shared queue -/

theorem upLoop_still (hblank : s.Blank) : Still s (s.upLoop p) := by
  unfold upLoop
  split_ifs with hgo
  · cases hj : joinPending p.batchLimit s.upPending with
    | error _ => exact (fail_still hblank).trans_still (.of_eq rfl rfl fun h => h)
    | ok j =>
        refine take_runs (c := none) hgo.1 (joinPending_takes hj) hgo.2.2 rfl (fun c => ?_)
          (fun o => ⟨rfl, fun _ => rfl⟩) ⟨rfl, rfl, rfl, rfl⟩
        cases c <;> rfl
  · exact .of_eq rfl rfl fun h => h

theorem runUp_still (hblank : s.Blank) : Still s (s.runUp p) := by
  unfold runUp
  split_ifs
  · exact .refl s
  · have hrunning : Still s { s with upRunning := true } := .of_eq rfl rfl fun h => h
    exact hrunning.trans_still (upLoop_still (hblank.runs hrunning))

/-- A value is put into the shared queue. -/
theorem queued_runs {data : Bytes} (hdata : data ≠ []) :
    Runs s { s with upPending := s.upPending ++ [data] }
      fun c => if c = none then data else [] := by
  refine push_runs hdata rfl rfl (fun c => ?_) (fun o => ⟨rfl, fun _ => rfl⟩) ⟨rfl, rfl, rfl, rfl⟩
  cases c with
  | none => rfl
  | some o => exact (List.append_nil _).symm

theorem queueUp_runs (hblank : s.Blank) (data : Bytes) :
    s.queueUp p data = s.fail ∨
      Runs s (s.queueUp p data) fun c => if c = none then data else [] := by
  unfold queueUp
  cases hr : s.reserve p data none with
  | none => exact .inl rfl
  | some s₁ =>
      obtain ⟨hreserve, hdata⟩ := reserve_still (by rintro o ⟨⟩) hr
      have hpush := hreserve.still_trans (queued_runs hdata)
      exact .inr (hpush.trans_still (runUp_still (hblank.runs hpush)))

theorem runWebSocketUp_still (hblank : s.Blank) : Still s (s.runWebSocketUp p) := by
  unfold runWebSocketUp
  cases s.webSocket with
  | none => exact .refl s
  | some w =>
      dsimp only
      by_cases hstop : s.closed = true ∨ w.readyState ≠ .open ∨ s.upPending = []
      · rw [if_pos hstop]
        exact .refl s
      rw [if_neg hstop]
      simp only [not_or, Bool.not_eq_true] at hstop
      by_cases hfull : queueLimit < w.bufferedAmount + s.queuedBytes ∨
          p.batchLimit ≤ w.bufferedAmount
      · rw [if_pos hfull]
        exact .of_eq rfl rfl fun h => h
      rw [if_neg hfull]
      cases hj : joinPending p.batchLimit s.upPending with
      | error _ => exact fail_still hblank
      | ok j =>
          have htake : Still s (({ s with
              upPending := j.values
              queuedItems := s.queuedItems + j.added
              webSocket := some (w.send j.batch.body)
              sent := s.sent ++ [(none, j.batch.body)] } : Script).release j.batch.total
                j.batch.count none) := by
            refine take_runs (c := none) hstop.1 (joinPending_takes hj) hstop.2.2 rfl
              (fun c => ?_) (fun o => ⟨rfl, fun _ => rfl⟩) ⟨rfl, rfl, rfl, rfl⟩
            cases c <;> rfl
          dsimp only
          split_ifs
          · exact htake
          · exact htake.trans_still (.of_eq rfl rfl fun h => h)

theorem queueWebSocket_runs (hblank : s.Blank) (data : Bytes) :
    s.queueWebSocket p data = s.fail ∨
      Runs s (s.queueWebSocket p data) fun c => if c = none then data else [] := by
  unfold queueWebSocket
  cases hr : s.reserve p data none with
  | none => exact .inl rfl
  | some s₁ =>
      obtain ⟨hreserve, hdata⟩ := reserve_still (by rintro o ⟨⟩) hr
      have hpush := hreserve.still_trans (queued_runs hdata)
      exact .inr (hpush.trans_still (runWebSocketUp_still (hblank.runs hpush)))

theorem upAnswered_still (hblank : s.Blank) (batch : Batch) (r : Option UpResponse) :
    Still s (s.upAnswered p batch r) := by
  have hidle : Still s { s with upBatch := none } := .of_eq rfl rfl fun h => h
  have hblank₁ := hblank.runs hidle
  have hstop : Still s { ({ s with upBatch := none } : Script).fail with upRunning := false } :=
    hidle.trans_still ((fail_still hblank₁).trans_still (.of_eq rfl rfl fun h => h))
  unfold upAnswered
  cases r with
  | none => exact hstop
  | some r =>
      dsimp only
      split_ifs
      · exact hstop
      · have hnext : Still s { (({ s with upBatch := none } : Script).release batch.total
            batch.count none) with upSequence := s.upSequence + 1 } := .of_eq rfl rfl fun h => h
        exact hnext.trans_still (upLoop_still (hblank.runs hnext))

theorem pollAnswered_still (hblank : s.Blank) (r : Option DownResponse) :
    Still s (s.pollAnswered p r) := by
  have hstop : Still s { s.fail with polling := false } :=
    (fail_still hblank).trans_still (.of_eq rfl rfl fun h => h)
  unfold pollAnswered
  cases r with
  | none => exact hstop
  | some r =>
      dsimp only
      by_cases hempty : r.status = 204
      · rw [if_pos hempty]
        exact .of_eq rfl rfl fun h => h
      rw [if_neg hempty]
      by_cases hstatus : r.status ≠ 200
      · rw [if_pos hstatus]
        exact hstop
      rw [if_neg hstatus]
      cases r.data with
      | none => exact hstop
      | some data =>
          dsimp only
          by_cases hbad : r.next = "" ∨ data.length = 0
          · rw [if_pos hbad]
            exact hstop
          rw [if_neg hbad]
          by_cases hclosed : s.closed = true
          · rw [if_pos hclosed]
            exact .of_eq rfl rfl fun h => h
          · rw [if_neg hclosed]
            exact (post_still hblank data).trans_still (.of_eq rfl rfl fun h => h)

theorem sessionAnswered_still (hblank : s.Blank) (r : Option SessionResponse) :
    Still s (s.sessionAnswered p r) := by
  have hended : ∀ {s₁ : Script}, Still s s₁ → Still s { s₁.fail with creating := .ended } :=
    fun h => h.trans_still ((fail_still (hblank.runs h)).trans_still (.of_eq rfl rfl fun h => h))
  have htaken : ∀ token cursor, Still s { s with sessionToken := token, downCursor := cursor } :=
    fun _ _ => .of_eq rfl rfl fun h => h
  unfold sessionAnswered
  cases r with
  | none => exact hended (.refl s)
  | some r =>
      dsimp only
      by_cases hstatus : r.status ≠ 200 ∨ r.carrierMode ≠ p.carrierMode.text
      · rw [if_pos hstatus]
        exact hended (.refl s)
      rw [if_neg hstatus]
      by_cases htoken : r.token = ""
      · rw [if_pos htoken]
        exact hended (htaken _ _)
      rw [if_neg htoken]
      by_cases hclosed : s.closed = true
      · rw [if_pos hclosed]
        exact .of_eq rfl rfl fun h => h
      · rw [if_neg hclosed]
        exact .of_eq rfl rfl fun h => h

/-! ### The queues of the lanes -/

theorem waitingFor_putLane (s : Script) (o : ℕ) (l : Lane) (c : Option ℕ) :
    (s.putLane o l).waitingFor c = if c = some o then l.pending else s.waitingFor c := by
  cases c with
  | none => rfl
  | some i =>
      show ((s.putLane o l).lane i).pending = _
      rw [lane_putLane, apply_ite Lane.pending]
      exact if_congr Option.some_inj.symm rfl rfl

theorem lane_putLane_id {o : ℕ} {l : Lane} (ho : o < s.nextObject) (hid : l.id = (s.lane o).id)
    (i : ℕ) : ((s.putLane o l).lane i).id = (s.lane i).id ∧
      (s.nextObject ≤ i → (s.putLane o l).lane i = s.lane i) := by
  rw [lane_putLane]
  split_ifs with h
  · subst h
    exact ⟨hid, fun hge => absurd ho (by omega)⟩
  · exact ⟨rfl, fun _ => rfl⟩

/-- A value is put into the queue of a lane. -/
theorem queuedLane_runs {o : ℕ} {data : Bytes} {l : Lane} (ho : o < s.nextObject)
    (hdata : data ≠ []) (hl : l.pending = (s.lane o).pending ++ [data])
    (hid : l.id = (s.lane o).id) :
    Runs s (s.putLane o l) fun c => if c = some o then data else [] := by
  refine push_runs hdata rfl rfl (fun c => ?_) (lane_putLane_id ho hid) ⟨rfl, rfl, rfl, rfl⟩
  rw [waitingFor_putLane]
  split_ifs with hc
  · subst hc
    exact hl
  · exact (List.append_nil _).symm

theorem laneLoop_still {o : ℕ} (hblank : s.Blank) (ho : o < s.nextObject) :
    Still s (s.laneLoop p o) := by
  unfold laneLoop
  dsimp only
  split_ifs with hgo
  · cases hj : joinPending p.batchLimit (s.lane o).pending with
    | error _ =>
        have hfail := fail_still hblank
        exact hfail.trans_still (.putLane (hfail.next ▸ ho) rfl rfl)
    | ok j =>
        refine take_runs (c := some o) hgo.1 (joinPending_takes hj) hgo.2.2 rfl (fun c => ?_)
          (lane_putLane_id (s := s) ho rfl) ⟨rfl, rfl, rfl, rfl⟩
        rw [waitingFor_putLane]
        rfl
  · exact .putLane ho rfl rfl

theorem runLaneUp_still {o : ℕ} (hblank : s.Blank) (ho : o < s.nextObject) :
    Still s (s.runLaneUp p o) := by
  unfold runLaneUp
  dsimp only
  split_ifs
  · exact .refl s
  · have hput : Still s (s.putLane o { s.lane o with running := true }) := .putLane ho rfl rfl
    exact hput.trans_still (laneLoop_still (hblank.runs hput) ho)

theorem pushLane_runs {o : ℕ} (hblank : s.Blank) (ho : o < s.nextObject) (value : Value) :
    s.pushLane p o value = s.fail ∨
      Runs s (s.pushLane p o value) fun c => if c = some o then value.data else [] := by
  unfold pushLane
  cases hr : s.reserve p value.data (some o) with
  | none => exact .inl rfl
  | some s₁ =>
      obtain ⟨hreserve, hdata⟩ := reserve_still (by rintro i ⟨⟩; exact ho) hr
      have ho₁ : o < s₁.nextObject := hreserve.next.symm ▸ ho
      have hpush := hreserve.still_trans (queuedLane_runs
        (l := { s₁.lane o with pending := (s₁.lane o).pending ++ [value.data] }) ho₁ hdata rfl rfl)
      exact .inr (hpush.trans_still (runLaneUp_still (hblank.runs hpush) ho₁))

theorem laneAnswered_still {o : ℕ} (hblank : s.Blank) (ho : o < s.nextObject) (batch : Batch)
    (r : Option UpResponse) : Still s (s.laneAnswered p o batch r) := by
  have hidle : Still s (s.putLane o { s.lane o with batch := none }) := .putLane ho rfl rfl
  have hblank₁ := hblank.runs hidle
  have hfail := hidle.trans_still (fail_still hblank₁)
  unfold laneAnswered
  dsimp only
  set s₁ := s.putLane o { s.lane o with batch := none }
  have hstop : Still s (s₁.fail.putLane o { s₁.fail.lane o with running := false }) :=
    hfail.trans_still (.putLane (hfail.next ▸ ho) rfl rfl)
  cases r with
  | none => exact hstop
  | some r =>
      dsimp only
      split_ifs
      · exact hstop
      · have ho₁ : o < s₁.nextObject := ho
        have hrelease := hidle.trans_still (releaseLane_still batch.total batch.count ho₁)
        set s₂ := s₁.release batch.total batch.count (some o)
        have ho₂ : o < s₂.nextObject := hrelease.next.symm ▸ ho
        have hnext : Still s (s₂.putLane o { s₂.lane o with
            sequence := (s.lane o).sequence + 1 }) :=
          hrelease.trans_still (.putLane ho₂ rfl rfl)
        have hpoll := hnext.trans_still (pollLane_still ho₂)
        exact hpoll.trans_still (laneLoop_still (hblank.runs hpoll) (hpoll.next.symm ▸ ho))

theorem runWebSocketLaneUp_still {o : ℕ} (hblank : s.Blank) (ho : o < s.nextObject) :
    Still s (s.runWebSocketLaneUp p o) := by
  unfold runWebSocketLaneUp
  dsimp only
  cases (s.lane o).socket with
  | none => exact .refl s
  | some w =>
      dsimp only
      by_cases hstop : s.closed = true ∨ (s.lane o).finished = true ∨ w.readyState ≠ .open ∨
          (s.lane o).pending = []
      · rw [if_pos hstop]
        exact .refl s
      rw [if_neg hstop]
      simp only [not_or, Bool.not_eq_true] at hstop
      by_cases hfull : p.batchLimit ≤ w.bufferedAmount
      · rw [if_pos hfull]
        exact .putLane ho rfl rfl
      rw [if_neg hfull]
      cases hj : joinPending p.batchLimit (s.lane o).pending with
      | error _ => exact fail_still hblank
      | ok j =>
          dsimp only
          set s₁ : Script := { s with
            queuedItems := s.queuedItems + j.added
            sent := s.sent ++ [(some o, j.batch.body)] }.putLane o { s.lane o with
              pending := j.values
              items := (s.lane o).items + j.added
              socket := some (w.send j.batch.body) } with hs₁
          have htake : Still s s₁ := by
            refine take_runs (c := some o) hstop.1 (joinPending_takes hj) hstop.2.2.2 rfl
              (fun c => ?_) (lane_putLane_id (s := s) ho rfl) ⟨rfl, rfl, rfl, rfl⟩
            rw [hs₁, waitingFor_putLane]
            rfl
          have ho₁ : o < s₁.nextObject := ho
          have hrelease :=
            htake.trans_still (releaseLane_still j.batch.total j.batch.count ho₁)
          split_ifs
          · exact hrelease
          · exact hrelease.trans_still (.putLane (hrelease.next.symm ▸ ho) rfl rfl)

theorem openWebSocketLane_still {o : ℕ} (ho : o < s.nextObject) :
    Still s (s.openWebSocketLane o) := .putLane ho rfl rfl

theorem pushWebSocketLane_runs {o : ℕ} (hblank : s.Blank) (ho : o < s.nextObject)
    (value : Value) : s.pushWebSocketLane p o value = s.fail ∨
      Runs s (s.pushWebSocketLane p o value) fun c => if c = some o then value.data else [] := by
  unfold pushWebSocketLane
  cases hr : s.reserve p value.data (some o) with
  | none => exact .inl rfl
  | some s₁ =>
      obtain ⟨hreserve, hdata⟩ := reserve_still (by rintro i ⟨⟩; exact ho) hr
      have ho₁ : o < s₁.nextObject := hreserve.next.symm ▸ ho
      have hpush := hreserve.still_trans (queuedLane_runs
        (l := { s₁.lane o with
          pending := (s₁.lane o).pending ++ [value.data]
          localClosed := if value.type = 3 then true else (s₁.lane o).localClosed })
        ho₁ hdata rfl rfl)
      refine .inr ?_
      dsimp only
      set s₂ := s₁.putLane o { s₁.lane o with
        pending := (s₁.lane o).pending ++ [value.data]
        localClosed := if value.type = 3 then true else (s₁.lane o).localClosed }
      have ho₂ : o < s₂.nextObject := ho₁
      clear_value s₂
      cases (s₁.lane o).socket with
      | none => exact hpush.trans_still (openWebSocketLane_still ho₂)
      | some w => exact hpush.trans_still (runWebSocketLaneUp_still (hblank.runs hpush) ho₂)

theorem laneOpened_still {o : ℕ} (hblank : s.Blank) (ho : o < s.nextObject) (w : Socket) :
    Still s (s.laneOpened p o w) := by
  unfold laneOpened
  dsimp only
  split_ifs
  · exact .putLane ho rfl rfl
  · have hput : Still s (s.putLane o { s.lane o with socket := some w, opened := true }) :=
      .putLane ho rfl rfl
    exact hput.trans_still (runWebSocketLaneUp_still (hblank.runs hput) ho)

theorem laneMessage_still {o : ℕ} (hblank : s.Blank) (ho : o < s.nextObject)
    (data : Option Bytes) : Still s (s.laneMessage p o data) := by
  unfold laneMessage
  cases data with
  | none => exact fail_still hblank
  | some data =>
      dsimp only
      by_cases hempty : data.length = 0
      · rw [if_pos hempty]
        exact fail_still hblank
      rw [if_neg hempty]
      cases splitFrames data with
      | error _ => exact fail_still hblank
      | ok values =>
          dsimp only
          split_ifs
          · exact fail_still hblank
          · have hput : Still s (s.putLane o { s.lane o with remoteClosed := true }) :=
              .putLane ho rfl rfl
            exact hput.trans_still (post_still (hblank.runs hput) data)
          · exact post_still hblank data

end Script

open Script

/-! ### The frames of a stream -/

/-- The frames for a stream in some messages. -/
def framesFor (id : ℤ) (messages : List Bytes) : List Value :=
  (messages.flatMap framesOf).filter fun v => v.id = id

/-- The frames of a stream from the one on that opens its lane: DATA, CLOSE and WINDOW before it
are dropped. -/
def opened (values : List Value) : List Value := values.dropWhile fun v => late v

def bytesOf (values : List Value) : Bytes := values.flatMap Value.data

theorem framesFor_append (id : ℤ) (left right : List Bytes) :
    framesFor id (left ++ right) = framesFor id left ++ framesFor id right := by
  simp [framesFor]

theorem opened_append (left right : List Value) :
    opened (left ++ right) = if opened left = [] then opened right else opened left ++ right := by
  unfold opened
  rw [List.dropWhile_append]
  simp only [List.isEmpty_iff]

theorem bytesOf_append (left right : List Value) :
    bytesOf (left ++ right) = bytesOf left ++ bytesOf right := List.flatMap_append

theorem opened_init {values values' : List Value} (h : values <+: values') :
    bytesOf (opened values) <+: bytesOf (opened values') := by
  obtain ⟨more, rfl⟩ := h
  rw [opened_append]
  split_ifs with hnone
  · rw [hnone]
    exact List.nil_prefix
  · rw [bytesOf_append]
    exact List.prefix_append _ _

/-! ### What is kept while the script is open -/

/-- Lanes are made in order and under their ids. -/
structure Script.Made (s : Script) : Prop where
  blank : s.Blank
  mapped : ∀ id o, s.lanes.get id = some o → o < s.nextObject ∧ (s.lane o).id = id
  fresh : ∀ o, s.nextObject ≤ o → ∀ e ∈ s.sent, e.1 ≠ some o

theorem Script.Made.runs (h : s.Made) (hr : Runs s s' extra)
    (hextra : ∀ o, s.nextObject ≤ o → extra (some o) = []) : s'.Made where
  blank := h.blank.runs hr
  mapped id o ho := by
    rw [hr.next, hr.id]
    exact h.mapped id o (hr.lanes ▸ ho)
  fresh o ho e he hc := by
    rw [hr.next] at ho
    have hempty : s.waitingFor (some o) = [] := by
      show (s.lane o).pending = []
      rw [h.blank o ho]
    exact h.fresh o ho e ((hr.quiet (some o) hempty (hextra o ho)).2 e he hc) hc

theorem Script.Made.inj (h : s.Made) {id id' : ℤ} {o : ℕ} (hid : s.lanes.get id = some o)
    (hid' : s.lanes.get id' = some o) : id = id' :=
  (h.mapped id o hid).2.symm.trans (h.mapped id' o hid').2

/-- The lane of a stream has been handed what `values` has for it. -/
structure Follows (s : Script) (id : ℤ) (values : List Value) : Prop where
  live : ∀ o, s.lanes.get id = some o → s.Ordered (some o) (bytesOf (opened values)) ∧
    (s.closed = false → opened values ≠ [])
  missing : s.lanes.get id = none → s.closed = false → opened values = []

theorem Follows.runs {id : ℤ} {values : List Value} (h : Follows s id values)
    (hr : Runs s s' extra) (hextra : ∀ o, s.lanes.get id = some o → extra (some o) = []) :
    Follows s' id values where
  live o ho := by
    rw [hr.lanes] at ho
    have hordered := hr.ordered (some o) _ (h.live o ho).1
    rw [hextra o ho, List.append_nil] at hordered
    refine ⟨hordered, fun hopen => (h.live o ho).2 ?_⟩
    by_contra hc
    rw [hr.closed (by simpa using hc)] at hopen
    cases hopen
  missing ho hopen := by
    rw [hr.lanes] at ho
    apply h.missing ho
    by_contra hc
    rw [hr.closed (by simpa using hc)] at hopen
    cases hopen

/-- A script that fails owes nothing to what came later. -/
theorem Follows.ends {id : ℤ} {values values' : List Value} (h : Follows s id values)
    (hr : Still s s') (hclosed : s'.closed = true) (hvalues : values <+: values') :
    Follows s' id values' where
  live o ho :=
    ⟨Script.Ordered.extend (((h.runs hr fun _ _ => rfl).live o ho).1) hclosed (opened_init hvalues),
      fun hopen => absurd hclosed (by simp [hopen])⟩
  missing _ hopen := absurd hclosed (by simp [hopen])

theorem Follows.of_removed {id : ℤ} (h : s.lanes.get id = none) : Follows s id [] where
  live o ho := by
    rw [h] at ho
    cases ho
  missing _ _ := rfl

/-- One queue for all streams. -/
def Params.Shared (p : Params) : Prop := p.carrierMode = .https ∨ p.carrierMode = .webSocket

theorem not_shared (h : p.carrierMode = .httpsLanes ∨ p.carrierMode = .webSocketLanes) :
    ¬ p.Shared := by
  unfold Params.Shared
  rcases h with h | h <;> simp [h]

/-- `due` is what the shared queue has been handed, and `values` what the lane of a stream has; `w`
are the messages that wait and those that have come. -/
structure Keeping (p : Params) (w : List Bytes × List Bytes) (due : Bytes)
    (values : ℤ → List Value) (s : Script) : Prop where
  made : s.Made
  record : (s.pending, s.arrived) = w
  queue : p.Shared → s.Ordered none due ∧
    (∀ o, (s.lane o).pending = []) ∧ ∀ e ∈ s.sent, e.1 = none
  lanes : ¬ p.Shared → ∀ id, id ≠ 0 → Follows s id (values id)

/-- What is left of that once the script is closed. -/
structure Past (p : Params) (w : List Bytes × List Bytes) (due : Bytes)
    (values : ℤ → List Value) (s : Script) : Prop where
  arrived : w.2 <+: s.arrived
  fresh : ∀ o, s.nextObject ≤ o → ∀ e ∈ s.sent, e.1 ≠ some o
  queue : p.Shared →
    (s.sent.map Prod.snd).flatten <+: due ∧ ∀ e ∈ s.sent, e.1 = none
  lanes : ¬ p.Shared → ∀ id, id ≠ 0 → ∀ o, s.lanes.get id = some o →
    s.sentBy (some o) <+: bytesOf (opened (values id))

/-- The script is open and keeps its order, or it is closed and has kept it. -/
def Held (p : Params) (w : List Bytes × List Bytes) (due : Bytes) (values : ℤ → List Value)
    (s : Script) : Prop :=
  s.closed = false ∧ Keeping p w due values s ∨ s.closed = true ∧ Past p w due values s

variable {w : List Bytes × List Bytes} {due due' : Bytes} {values values' : ℤ → List Value}

theorem sentBy_none (h : ∀ e ∈ s.sent, e.1 = none) :
    s.sentBy none = (s.sent.map Prod.snd).flatten := by
  unfold Script.sentBy
  rw [List.filter_eq_self.mpr]
  intro e he
  simpa using h e he

theorem Keeping.held (h : Keeping p w due values s) : Held p w due values s := by
  by_cases hc : s.closed = true
  · refine .inr ⟨hc, (congrArg Prod.snd h.record).symm ▸ List.prefix_refl _, h.made.fresh,
      fun hmode => ?_, fun hmode id hid o ho => ((h.lanes hmode id hid).live o ho).1.init⟩
    obtain ⟨hordered, -, hnone⟩ := h.queue hmode
    rw [← sentBy_none hnone]
    exact ⟨hordered.init, hnone⟩
  · exact .inl ⟨by simpa using hc, h⟩

theorem Keeping.still (h : Keeping p w due values s) (hr : Still s s') :
    Keeping p w due values s' where
  made := h.made.runs hr fun _ _ => rfl
  record := by
    rw [hr.waiting, hr.arrived]
    exact h.record
  queue hmode := by
    obtain ⟨hordered, hempty, hnone⟩ := h.queue hmode
    have hquiet := fun o => hr.quiet (some o) (hempty o) rfl
    refine ⟨?_, fun o => (hquiet o).1, fun e he => ?_⟩
    · have hnext := hr.ordered none due hordered
      rwa [List.append_nil] at hnext
    · cases hc : e.1 with
      | none => rfl
      | some o =>
          have hold := hnone e ((hquiet o).2 e he hc)
          rw [hc] at hold
          cases hold
  lanes hmode id hid := (h.lanes hmode id hid).runs hr fun _ _ => rfl

/-- Messages come and wait. -/
theorem Keeping.come (h : Keeping p w due values s) (pending arrived : List Bytes) :
    Keeping p (pending, arrived) due values
      { s with pending := pending, arrived := arrived } where
  made := ⟨h.made.blank, h.made.mapped, h.made.fresh⟩
  record := rfl
  queue := h.queue
  lanes hmode id hid := ⟨(h.lanes hmode id hid).live, (h.lanes hmode id hid).missing⟩

/-- The script fails over what it was to be handed. -/
theorem Keeping.ends (h : Keeping p w due values s) (hr : Still s s') (hclosed : s'.closed = true)
    (hdue : due <+: due') (hvalues : ∀ id, values id <+: values' id) :
    Keeping p w due' values' s' where
  made := (h.still hr).made
  record := (h.still hr).record
  queue hmode :=
    ⟨Script.Ordered.extend ((h.still hr).queue hmode).1 hclosed hdue, ((h.still hr).queue hmode).2⟩
  lanes hmode id hid := (h.lanes hmode id hid).ends hr hclosed (hvalues id)

theorem Past.shut (h : Past p w due values s) (hs : Shut s s') (hdue : due <+: due')
    (hvalues : ∀ id, s'.lanes.get id ≠ none → values id <+: values' id) :
    Past p w due' values' s' where
  arrived := h.arrived.trans hs.arrived
  fresh o ho e he := by
    rw [hs.sent] at he
    exact h.fresh o (hs.next.trans ho) e he
  queue hmode := by
    rw [hs.sent]
    exact ⟨(h.queue hmode).1.trans hdue, (h.queue hmode).2⟩
  lanes hmode id hid o ho := by
    have hsent : s'.sentBy (some o) = s.sentBy (some o) := by
      unfold Script.sentBy
      rw [hs.sent]
    rw [hsent]
    have hmore := opened_init (hvalues id (by rw [ho]; exact Option.some_ne_none o))
    rcases hs.lanes id o ho with hold | hnew
    · exact (h.lanes hmode id hid o hold).trans hmore
    · have hnone : s.sentBy (some o) = [] := by
        unfold Script.sentBy
        rw [List.filter_eq_nil_iff.mpr]
        · rfl
        · intro e he
          simpa using h.fresh o hnew e he
      rw [hnone]
      exact List.nil_prefix

/-- What an open script makes of more, and what a closed one does. -/
theorem Held.next (h : Held p w due values s) (hdue : due <+: due')
    (hvalues : ∀ id, values id <+: values' id)
    (hopen : s.closed = false → Keeping p w due values s → Held p w due' values' s')
    (hclosed : s.closed = true → Shut s s') : Held p w due' values' s' := by
  rcases h with ⟨ho, hk⟩ | ⟨hc, hp⟩
  · exact hopen ho hk
  · exact .inr ⟨(hclosed hc).closed, hp.shut (hclosed hc) hdue fun id _ => hvalues id⟩

/-! ### Messages are handed over -/

/-- A value is handed to the queue of its lane, or the script fails. -/
theorem handed {o : ℕ} {value : Value} (hm : s.Made) (ho : s.lanes.get value.id = some o)
    (hothers : ∀ id, id ≠ 0 → id ≠ value.id → Follows s id (values id))
    (hthis : value.id ≠ 0 → s.Ordered (some o) (bytesOf (opened (values value.id))) ∧
      bytesOf (opened (values value.id ++ [value])) =
        bytesOf (opened (values value.id)) ++ value.data ∧
      opened (values value.id ++ [value]) ≠ [])
    (hpush : s' = s.fail ∨ Runs s s' fun c => if c = some o then value.data else []) :
    s'.Made ∧ (s'.pending, s'.arrived) = (s.pending, s.arrived) ∧
      ∀ id, id ≠ 0 → Follows s' id (values id ++ if value.id = id then [value] else []) := by
  have hlt := (hm.mapped value.id o ho).1
  rcases hpush with rfl | hr
  · have hfail := fail_still hm.blank
    refine ⟨hm.runs hfail fun _ _ => rfl, by rw [hfail.waiting, hfail.arrived], fun id hid => ?_⟩
    by_cases hv : value.id = id
    · subst hv
      rw [if_pos rfl]
      refine ⟨fun i hi => ?_, fun _ hopen => absurd s.fail_closed (by simp [hopen])⟩
      rw [hfail.lanes, ho, Option.some_inj] at hi
      subst hi
      obtain ⟨hordered, hbytes, -⟩ := hthis hid
      have hnext := hfail.ordered _ _ hordered
      rw [List.append_nil] at hnext
      refine ⟨hnext.extend s.fail_closed ?_, fun hopen => absurd s.fail_closed (by simp [hopen])⟩
      rw [hbytes]
      exact List.prefix_append _ _
    · rw [if_neg hv, List.append_nil]
      exact (hothers id hid fun h => hv h.symm).runs hfail fun _ _ => rfl
  · have hne : ∀ i, i ≠ o → (if some i = some o then value.data else []) = [] := fun i hi =>
      if_neg fun h => hi (Option.some_inj.mp h)
    refine ⟨hm.runs hr fun i hi => hne i (hlt.trans_le hi).ne',
      by rw [hr.waiting, hr.arrived], fun id hid => ?_⟩
    by_cases hv : value.id = id
    · subst hv
      rw [if_pos rfl]
      obtain ⟨hordered, hbytes, hbegun⟩ := hthis hid
      refine ⟨fun i hi => ?_, fun hnone => ?_⟩
      · rw [hr.lanes, ho, Option.some_inj] at hi
        subst hi
        have hnext := hr.ordered _ _ hordered
        rw [if_pos rfl, ← hbytes] at hnext
        exact ⟨hnext, fun _ => hbegun⟩
      · rw [hr.lanes, ho] at hnone
        cases hnone
    · rw [if_neg hv, List.append_nil]
      refine (hothers id hid fun h => hv h.symm).runs hr fun i hi => hne i ?_
      rintro rfl
      exact hv (hm.inj ho hi)

/-- A lane object is made under an id that has none. -/
theorem ensureLane_made {id : ℤ} (hm : s.Made) (hnone : s.lanes.get id = none) :
    (s.ensureLane id).1.Made ∧ (s.ensureLane id).2 = s.nextObject ∧
      (s.ensureLane id).1.lanes = s.lanes.put id s.nextObject ∧
      (s.ensureLane id).1.closed = s.closed ∧ (s.ensureLane id).1.sent = s.sent ∧
      ∀ o, ((s.ensureLane id).1.lane o).pending = (s.lane o).pending := by
  have hlane : ∀ o, (s.ensureLane id).1.lane o =
      if o = s.nextObject then { id } else s.lane o := by
    intro o
    unfold ensureLane
    rw [hnone]
    dsimp only
    unfold Script.lane
    dsimp only
    rw [Table.get_put]
    split_ifs <;> rfl
  have hfields : (s.ensureLane id).2 = s.nextObject ∧
      (s.ensureLane id).1.lanes = s.lanes.put id s.nextObject ∧
      (s.ensureLane id).1.closed = s.closed ∧ (s.ensureLane id).1.sent = s.sent ∧
      (s.ensureLane id).1.nextObject = s.nextObject + 1 := by
    unfold ensureLane
    rw [hnone]
    exact ⟨rfl, rfl, rfl, rfl, rfl⟩
  obtain ⟨hnumber, hlanes, hclosed, hsent, hnext⟩ := hfields
  refine ⟨⟨fun o ho => ?_, fun i o ho => ?_, fun o ho => ?_⟩, hnumber, hlanes, hclosed, hsent,
    fun o => ?_⟩
  · rw [hnext] at ho
    rw [hlane, if_neg (by omega)]
    exact hm.blank o (by omega)
  · rw [hlanes, Table.get_put] at ho
    rw [hnext, hlane]
    split_ifs at ho with hi
    · cases ho
      rw [if_pos rfl]
      exact ⟨Nat.lt_succ_self _, hi.symm⟩
    · obtain ⟨hlt, hid⟩ := hm.mapped i o ho
      rw [if_neg hlt.ne]
      exact ⟨hlt.trans (Nat.lt_succ_self _), hid⟩
  · rw [hnext] at ho
    rw [hsent]
    exact hm.fresh o (by omega)
  · rw [hlane]
    split_ifs with ho
    · subst ho
      rw [hm.blank _ le_rfl]
    · rfl

theorem ensureLane_follows {id id' : ℤ} (hm : s.Made) (hnone : s.lanes.get id = none)
    (hne : id' ≠ id) (h : Follows s id' (values id')) :
    Follows (s.ensureLane id).1 id' (values id') := by
  obtain ⟨-, -, hlanes, hclosed, hsent, hlane⟩ := ensureLane_made hm hnone
  have hget : (s.ensureLane id).1.lanes.get id' = s.lanes.get id' := by
    rw [hlanes, Table.get_put_ne _ _ hne]
  refine ⟨fun o ho => ?_, fun ho => ?_⟩
  · rw [hget] at ho
    obtain ⟨⟨rest, hrest, hwait⟩, hbegun⟩ := h.live o ho
    refine ⟨⟨rest, ?_, fun hopen => ?_⟩, fun hopen => hbegun (hclosed ▸ hopen)⟩
    · unfold Script.sentBy at hrest ⊢
      rw [hsent, hrest]
    · rw [hwait (hclosed ▸ hopen)]
      show (s.lane o).pending.flatten = ((s.ensureLane id).1.lane o).pending.flatten
      rw [hlane]
  · rw [hget] at ho
    rw [hclosed]
    exact h.missing ho

/-- Both functions that hand a frame to its lane: they find it, drop the frame or make the lane. -/
structure Hands (p : Params) (queue : Script → Params → Value → Except String Script)
    (push : Script → Params → ℕ → Value → Script) : Prop where
  cases : ∀ {s s' : Script} {value : Value}, queue s p value = .ok s' →
    (∃ o, s.lanes.get value.id = some o ∧ s' = push s p o value) ∨
    s.lanes.get value.id = none ∧ late value ∧ s' = s ∨
    s.lanes.get value.id = none ∧ ¬ late value ∧
      s' = push (s.ensureLane value.id).1 p (s.ensureLane value.id).2 value
  push : ∀ {s : Script} {o : ℕ} {value : Value}, s.Blank → o < s.nextObject →
    push s p o value = s.fail ∨
      Runs s (push s p o value) fun c => if c = some o then value.data else []
  shut : ∀ {s s' : Script} {value : Value}, s.closed = true → queue s p value = .ok s' → Shut s s'

theorem queueLane_hands (p : Params) : Hands p queueLane pushLane where
  cases {s s' value} h := by
    unfold queueLane at h
    cases hget : s.lanes.get value.id with
    | some o =>
        rw [hget] at h
        cases h
        exact .inl ⟨o, rfl, rfl⟩
    | none =>
        rw [hget] at h
        dsimp only at h
        split_ifs at h with hlate
        · cases h
          exact .inr (.inl ⟨rfl, hlate, rfl⟩)
        · cases h
          exact .inr (.inr ⟨rfl, hlate, rfl⟩)
  push hblank ho := pushLane_runs hblank ho _
  shut hc hv := queueLane_shut hc hv

theorem queueWebSocketLane_hands (p : Params) : Hands p queueWebSocketLane pushWebSocketLane where
  cases {s s' value} h := by
    unfold queueWebSocketLane at h
    cases hget : s.lanes.get value.id with
    | some o =>
        rw [hget] at h
        dsimp only at h
        split_ifs at h
        cases h
        exact .inl ⟨o, rfl, rfl⟩
    | none =>
        rw [hget] at h
        dsimp only at h
        split_ifs at h with hlate
        · cases h
          exact .inr (.inl ⟨rfl, hlate, rfl⟩)
        · cases h
          exact .inr (.inr ⟨rfl, hlate, rfl⟩)
  push hblank ho := pushWebSocketLane_runs hblank ho _
  shut hc hv := queueWebSocketLane_shut hc hv

variable {queue : Script → Params → Value → Except String Script}
  {push : Script → Params → ℕ → Value → Script}

/-- One frame is handed over. -/
theorem Hands.one (hq : Hands p queue push) (hopen : s.closed = false) (hm : s.Made)
    (h : ∀ id, id ≠ 0 → Follows s id (values id)) {value : Value}
    (hv : queue s p value = .ok s') :
    s'.Made ∧ (s'.pending, s'.arrived) = (s.pending, s.arrived) ∧
      ∀ id, id ≠ 0 → Follows s' id (values id ++ if value.id = id then [value] else []) := by
  rcases hq.cases hv with ⟨o, ho, rfl⟩ | ⟨hnone, hlate, rfl⟩ | ⟨hnone, hlate, rfl⟩
  · refine handed hm ho (fun id hid _ => h id hid) (fun hid => ?_)
      (hq.push hm.blank (hm.mapped _ o ho).1)
    obtain ⟨hordered, hbegun⟩ := (h value.id hid).live o ho
    have hmore : opened (values value.id ++ [value]) = opened (values value.id) ++ [value] := by
      rw [opened_append, if_neg (hbegun hopen)]
    rw [hmore]
    refine ⟨hordered, ?_, by simp⟩
    rw [bytesOf_append]
    simp [bytesOf]
  · refine ⟨hm, rfl, fun id hid => ?_⟩
    by_cases hvid : value.id = id
    · subst hvid
      rw [if_pos rfl]
      have hempty := (h value.id hid).missing hnone hopen
      refine ⟨fun o ho => ?_, fun _ _ => ?_⟩
      · rw [hnone] at ho
        cases ho
      · rw [opened_append, if_pos hempty]
        simp [opened, hlate]
    · rw [if_neg hvid, List.append_nil]
      exact h id hid
  · obtain ⟨hmade, hnumber, hlanes, hclosed, hsent, hlane⟩ := ensureLane_made hm hnone
    have hget : (s.ensureLane value.id).1.lanes.get value.id =
        some (s.ensureLane value.id).2 := by
      rw [hlanes, hnumber, Table.get_put_self]
    have hrecord : ((s.ensureLane value.id).1.pending, (s.ensureLane value.id).1.arrived) =
        (s.pending, s.arrived) := by
      unfold ensureLane
      rw [hnone]
    rw [← hrecord]
    refine handed hmade hget (fun id hid hne => ensureLane_follows hm hnone hne (h id hid))
      (fun hid => ?_) (hq.push hmade.blank (hmade.mapped _ _ hget).1)
    have hempty := (h value.id hid).missing hnone hopen
    have hone : opened (values value.id ++ [value]) = [value] := by
      rw [opened_append, if_pos hempty]
      simp [opened, hlate]
    rw [hone, hempty]
    refine ⟨⟨[], ?_, fun _ => ?_⟩, by simp [bytesOf], by simp⟩
    · have hnothing : (s.ensureLane value.id).1.sentBy (some (s.ensureLane value.id).2) = [] := by
        unfold Script.sentBy
        rw [hsent, hnumber, List.filter_eq_nil_iff.mpr]
        · rfl
        · intro e he
          simpa using hm.fresh s.nextObject le_rfl e he
      rw [hnothing]
      rfl
    · show [] = ((s.ensureLane value.id).1.lane (s.ensureLane value.id).2).pending.flatten
      rw [hlane, hnumber, hm.blank _ le_rfl]
      rfl

/-- The frames of a message are handed over, one after the other. -/
theorem Hands.all (hq : Hands p queue push) (hmode : ¬ p.Shared) (frames : List Value)
    (h : Held p w due values s) (hdue : due <+: due') :
    Held p w due' (fun id => values id ++ frames.filter fun v => v.id = id)
      (queueValues p queue s frames) := by
  have hgrow : ∀ id, values id <+: values id ++ frames.filter fun v => v.id = id :=
    fun id => List.prefix_append _ _
  induction frames generalizing s values with
  | nil =>
      refine h.next hdue hgrow (fun _ hk => Keeping.held ⟨hk.made, hk.record,
        fun hshared => absurd hshared hmode, fun hm id hid => ?_⟩)
        fun hc => .of_eq hc rfl rfl rfl rfl
      rw [List.filter_nil, List.append_nil]
      exact hk.lanes hm id hid
  | cons value rest ih =>
      refine h.next hdue hgrow (fun hopen hk => ?_) fun hc => queueValues_shut hq.shut hc _
      unfold queueValues
      cases hv : queue s p value with
      | error _ =>
          exact (hk.ends (fail_still hk.made.blank) s.fail_closed hdue hgrow).held
      | ok s₁ =>
          obtain ⟨hmade, hrecord, hfollows⟩ := hq.one hopen hk.made (hk.lanes hmode) hv
          have hone : Keeping p w due (fun id => values id ++ if value.id = id then [value] else [])
              s₁ := ⟨hmade, hrecord.trans hk.record, fun hshared => absurd hshared hmode,
                fun _ => hfollows⟩
          have hrest := ih hone.held fun id => List.prefix_append _ _
          dsimp only
          convert hrest using 2 with id
          rw [List.append_assoc, List.filter_cons]
          split_ifs <;> simp_all

/-- A value goes into the shared queue, or the script fails. -/
theorem Keeping.queued {data : Bytes} (h : Keeping p w due values s) (hmode : p.Shared)
    (hpush : s' = s.fail ∨ Runs s s' fun c => if c = none then data else []) :
    Held p w (due ++ data) values' s' := by
  have hlanes : ∀ {s : Script}, ¬ p.Shared → ∀ id, id ≠ 0 → Follows s id (values' id) :=
    fun hm => absurd hmode hm
  rcases hpush with rfl | hr
  · obtain ⟨hmade, hrecord, hqueue, -⟩ := h.ends (fail_still h.made.blank) s.fail_closed
      (List.prefix_append due data) fun id => List.prefix_refl _
    exact Keeping.held ⟨hmade, hrecord, hqueue, hlanes⟩
  · obtain ⟨hordered, hempty, hnone⟩ := h.queue hmode
    have hquiet := fun o => hr.quiet (some o) (hempty o) rfl
    refine Keeping.held ⟨h.made.runs hr fun _ _ => rfl,
      by rw [hr.waiting, hr.arrived]; exact h.record, fun _ => ⟨hr.ordered none due hordered,
      fun o => (hquiet o).1, fun e he => ?_⟩, hlanes⟩
    cases hc : e.1 with
    | none => rfl
    | some o =>
        have hold := hnone e ((hquiet o).2 e he hc)
        rw [hc] at hold
        cases hold

/-- A message is cut into frames, and these are handed over. -/
theorem Hands.message (hq : Hands p queue push) (hmode : ¬ p.Shared)
    (hk : Keeping p w due values s) (data : Bytes) :
    Held p w (due ++ data) (fun id => values id ++ (framesOf data).filter fun v => v.id = id)
      (match splitFrames data with
        | .error _ => s.fail
        | .ok frames => queueValues p queue s frames) := by
  cases hs : splitFrames data with
  | error _ =>
      exact (hk.ends (fail_still hk.made.blank) s.fail_closed (List.prefix_append _ _)
        fun id => List.prefix_append _ _).held
  | ok frames =>
      rw [framesOf_ok hs]
      exact hq.all hmode frames hk.held (List.prefix_append _ _)

/-- A message is handed to the carrier. -/
theorem Held.queueCarrier (h : Held p w due values s) (data : Bytes) :
    Held p w (due ++ data) (fun id => values id ++ (framesOf data).filter fun v => v.id = id)
      (s.queueCarrier p data) := by
  refine h.next (List.prefix_append _ _) (fun id => List.prefix_append _ _) (fun hopen hk => ?_)
    fun hc => queueCarrier_shut hc data
  unfold Script.queueCarrier
  dsimp only
  cases hmode : p.carrierMode with
  | https => exact hk.queued (.inl hmode) (queueUp_runs hk.made.blank data)
  | webSocket => exact hk.queued (.inr hmode) (queueWebSocket_runs hk.made.blank data)
  | httpsLanes => exact (queueLane_hands p).message (not_shared (.inl hmode)) hk data
  | webSocketLanes => exact (queueWebSocketLane_hands p).message (not_shared (.inr hmode)) hk data

theorem Held.still (h : Held p w due values s) (hr : s.Made → Still s s')
    (hshut : s.closed = true → Shut s s') : Held p w due values s' :=
  h.next (List.prefix_refl _) (fun _ => List.prefix_refl _)
    (fun _ hk => (hk.still (hr hk.made)).held) hshut

/-- The messages that waited are handed over. -/
theorem Held.drainLoop {messages : List Bytes} (h : Held p w due values s) :
    Held p w (due ++ messages.flatten)
      (fun id => values id ++ (messages.flatMap framesOf).filter fun v => v.id = id)
      (Script.drainLoop p s messages) := by
  induction messages generalizing s due values with
  | nil => simpa [Script.drainLoop] using h
  | cons data rest ih =>
      have hrelease : Held p w due values (s.release data.length 1 none) :=
        h.still (fun _ => release_still _ _ (by rintro o ⟨⟩)) fun hc => release_shut hc _ _ _
      have hnext := ih (hrelease.queueCarrier data)
      show Held p w _ _
        (Script.drainLoop p ((s.release data.length 1 none).queueCarrier p data) rest)
      simpa only [List.flatten_cons, List.flatMap_cons, List.filter_append, List.append_assoc]
        using hnext

/-- Lane zero is made. -/
theorem Keeping.ensureLane (h : Keeping p w due values s) :
    Keeping p w due values (s.ensureLane 0).1 := by
  cases hget : s.lanes.get 0 with
  | some o =>
      have hsame : (s.ensureLane 0).1 = s := by
        unfold Script.ensureLane
        rw [hget]
      rw [hsame]
      exact h
  | none =>
      obtain ⟨hmade, -, -, hclosed, hsent, hlane⟩ := ensureLane_made h.made hget
      have hup : (s.ensureLane 0).1.upPending = s.upPending := by
        unfold Script.ensureLane
        rw [hget]
      have hrecord : ((s.ensureLane 0).1.pending, (s.ensureLane 0).1.arrived) = w := by
        unfold Script.ensureLane
        rw [hget]
        exact h.record
      refine ⟨hmade, hrecord, fun hmode => ?_, fun hmode id hid =>
        ensureLane_follows h.made hget hid (h.lanes hmode id hid)⟩
      obtain ⟨⟨rest, hrest, hwait⟩, hempty, hnone⟩ := h.queue hmode
      refine ⟨⟨rest, ?_, fun hopen => ?_⟩, fun o => (hlane o).trans (hempty o), hsent ▸ hnone⟩
      · unfold Script.sentBy at hrest ⊢
        rw [hsent, hrest]
      · rw [hwait (hclosed ▸ hopen)]
        exact congrArg List.flatten hup.symm

theorem ensureLane_get (s : Script) (id : ℤ) :
    (s.ensureLane id).1.lanes.get id = some (s.ensureLane id).2 := by
  unfold Script.ensureLane
  cases hget : s.lanes.get id with
  | some o => exact hget
  | none => exact Table.get_put_self _ _ _

/-- `createSession` from its last `await` on hands over what waited. -/
theorem Keeping.connected (h : Keeping p w due values s) (hopen : s.closed = false)
    (welcome : Bytes) :
    Held p ([], w.2) (due ++ w.1.flatten) (fun id => values id ++ framesFor id w.1)
      (s.connected p welcome) := by
  have hend : Still s { s with creating := .ended } := .of_eq rfl rfl fun h => h
  have hpost := hend.trans_still (post_still (p := p) (h.still hend).made.blank welcome)
  unfold Script.connected
  dsimp only
  rw [if_neg (by simp [hopen])]
  set s₁ := Script.post { s with creating := .ended } p welcome
  have hpending : s₁.pending = w.1 := hpost.waiting.trans (congrArg Prod.fst h.record)
  have harrived : s₁.arrived = w.2 := hpost.arrived.trans (congrArg Prod.snd h.record)
  have hmid : Held p ([], w.2) due values { s₁ with pending := [] } := by
    rcases (h.still hpost).held with ⟨ho, hk⟩ | ⟨hc, hp⟩
    · refine .inl ⟨ho, ?_⟩
      rw [← harrived]
      exact hk.come [] s₁.arrived
    · exact .inr ⟨hc, hp.arrived, hp.fresh, hp.queue, hp.lanes⟩
  rw [hpending]
  have hdrain : Held p ([], w.2) (due ++ w.1.flatten) (fun id => values id ++ framesFor id w.1)
      (Script.drainLoop p { s₁ with pending := [] } w.1) := hmid.drainLoop
  set s₂ := Script.drainLoop p { s₁ with pending := [] } w.1
  cases p.carrierMode with
  | https => exact hdrain.still (fun _ => .of_eq rfl rfl fun h => h) poll_shut
  | webSocket => exact hdrain
  | webSocketLanes => exact hdrain
  | httpsLanes =>
      refine hdrain.next (List.prefix_refl _) (fun _ => List.prefix_refl _) (fun _ hk => ?_)
        fun hc => (ensureLane_shut hc 0).trans (pollLane_shut (ensureLane_shut hc 0).closed _)
      have hlane := hk.ensureLane
      have hlt := (hlane.made.mapped 0 _ (ensureLane_get s₂ 0)).1
      exact (hlane.still (pollLane_still hlt)).held

/-! ### Lanes leave the map -/

theorem Keeping.remove (h : Keeping p w due values s) (id : ℤ) :
    Keeping p w due (Function.update values id []) { s with lanes := s.lanes.del id } where
  made := by
    refine ⟨h.made.blank, fun i o ho => ?_, h.made.fresh⟩
    dsimp only at ho
    rw [Table.get_del] at ho
    split_ifs at ho
    exact h.made.mapped i o ho
  record := h.record
  queue := h.queue
  lanes hmode i hi := by
    by_cases hid : i = id
    · subst hid
      rw [Function.update_self]
      exact .of_removed (Table.get_del_self _ _)
    · rw [Function.update_of_ne hid]
      have hget : (s.lanes.del id).get i = s.lanes.get i := Table.get_del_ne _ hid
      have hfollows := h.lanes hmode i hi
      exact ⟨fun o ho => hfollows.live o (hget ▸ ho), fun ho => hfollows.missing (hget ▸ ho)⟩

/-- The queue of a lane that has left the map is emptied. -/
theorem Keeping.scrap (h : Keeping p w due values s) {o : ℕ} {l : Lane} (ho : o < s.nextObject)
    (hgone : ∀ id, s.lanes.get id ≠ some o) (hid : l.id = (s.lane o).id) (hl : l.pending = []) :
    Keeping p w due values (s.putLane o l) where
  made := by
    refine ⟨fun i hi => ?_, fun id i hi => ?_, h.made.fresh⟩
    · rw [(lane_putLane_id ho hid i).2 hi]
      exact h.made.blank i hi
    · rw [(lane_putLane_id ho hid i).1]
      exact h.made.mapped id i hi
  record := h.record
  queue hmode := by
    obtain ⟨hordered, hempty, hnone⟩ := h.queue hmode
    refine ⟨hordered, fun i => ?_, hnone⟩
    rw [lane_putLane]
    split_ifs
    · exact hl
    · exact hempty i
  lanes hmode id h0 := by
    obtain ⟨hlive, hmissing⟩ := h.lanes hmode id h0
    refine ⟨fun i hi => ?_, hmissing⟩
    have hne : i ≠ o := by
      rintro rfl
      exact hgone id hi
    obtain ⟨⟨rest, hrest, hwait⟩, hbegun⟩ := hlive i hi
    refine ⟨⟨rest, hrest, fun hopen => ?_⟩, hbegun⟩
    rw [hwait hopen, waitingFor_putLane, if_neg fun h => hne (Option.some_inj.mp h)]

theorem rememberLaneClosed_still (s : Script) (id : ℤ) : Still s (s.rememberLaneClosed id) := by
  unfold Script.rememberLaneClosed
  split_ifs <;> exact .of_eq rfl rfl fun h => h

/-- A lane ends when its downlink does, and nothing else ends one. -/
theorem lanePollAnswered_still {o : ℕ} (hm : s.Made) (ho : o < s.nextObject)
    (r : Option Script.DownResponse) :
    Still s (s.lanePollAnswered p o r) ∨
      Still { s with lanes := s.lanes.del (s.lane o).id } (s.lanePollAnswered p o r) := by
  have hstop : ∀ {s₁ : Script} {s₂ : Script}, Still s₂ s₁ → o < s₂.nextObject →
      Still s₂ (s₁.putLane o { s₁.lane o with polling := false }) := fun h hlt =>
    h.trans_still (.putLane (h.next.symm ▸ hlt) rfl rfl)
  have hfail := hstop (fail_still hm.blank) ho
  unfold Script.lanePollAnswered
  dsimp only
  cases r with
  | none => exact .inl hfail
  | some r =>
      dsimp only
      by_cases hempty : r.status = 204
      · rw [if_pos hempty]
        split_ifs
        · exact .inr (hstop (rememberLaneClosed_still _ _) ho)
        · exact .inl (pollLaneAgain_still ho)
      rw [if_neg hempty]
      refine .inl ?_
      by_cases hstatus : r.status ≠ 200
      · rw [if_pos hstatus]
        exact hfail
      rw [if_neg hstatus]
      cases r.data with
      | none => exact hfail
      | some data =>
          dsimp only
          cases splitFrames data with
          | error _ => exact hfail
          | ok frames =>
              dsimp only
              by_cases hbad : r.next = "" ∨ data.length = 0 ∨
                  (frames.any fun v => decide (v.id ≠ (s.lane o).id)) = true
              · rw [if_pos hbad]
                exact hfail
              rw [if_neg hbad]
              by_cases hclosed : s.closed = true
              · rw [if_pos hclosed]
                exact hstop (.refl s) ho
              · rw [if_neg hclosed]
                have hpost := post_still (p := p) hm.blank data
                have hlt := hpost.next.symm ▸ ho
                have hput := hpost.trans_still (.putLane
                  (l := { (s.post p data).lane o with cursor := r.next }) hlt rfl rfl)
                exact hput.trans_still (pollLaneAgain_still hlt)

/-- The end of `finishWebSocketLane`. -/
theorem Keeping.parted (h : Keeping p w due values s) {o : ℕ} {id : ℤ} (ho : o < s.nextObject)
    (hget : s.lanes.get id = some o) (socket : Option Socket) {s₁ s₂ : Script}
    (hs₁ : s₁ = { s.putLane o { s.lane o with pending := [] } with lanes := s.lanes.del id })
    (hs₂ : s₂ = (s₁.rememberLaneClosed id).putLane o
      { (s₁.rememberLaneClosed id).lane o with socket := socket }) :
    s₂.lanes.get id = none ∧ Keeping p w due (Function.update values id []) s₂ := by
  have hscrap : Keeping p w due (Function.update values id []) s₁ := by
    rw [hs₁]
    refine (h.remove id).scrap (o := o) (l := { s.lane o with pending := [] }) ho (fun i hi => ?_)
      rfl rfl
    rw [Table.get_del] at hi
    split_ifs at hi with hne
    exact hne (h.made.inj hi hget)
  have hlanes : s₁.lanes.get id = none := by
    rw [hs₁]
    exact Table.get_del_self _ _
  have ho₁ : o < s₁.nextObject := by
    rw [hs₁]
    exact ho
  have hremember := rememberLaneClosed_still s₁ id
  have hput : Still s₁ s₂ := by
    rw [hs₂]
    exact hremember.trans_still (.putLane (hremember.next.symm ▸ ho₁) rfl rfl)
  exact ⟨hput.lanes.symm ▸ hlanes, hscrap.still hput⟩

theorem Keeping.finishWebSocketLane (h : Keeping p w due values s) {o : ℕ}
    (ho : o < s.nextObject) (notify : Bool) :
    Keeping p w due values (s.finishWebSocketLane p o notify) ∨
      s.lanes.get (s.lane o).id ≠ none ∧
      (s.finishWebSocketLane p o notify).lanes.get (s.lane o).id = none ∧
      Keeping p w due (Function.update values (s.lane o).id [])
        (s.finishWebSocketLane p o notify) := by
  unfold Script.finishWebSocketLane
  dsimp only
  by_cases hgone : (s.lane o).finished = true ∨ s.lanes.get (s.lane o).id ≠ some o
  · rw [if_pos hgone]
    exact .inl h
  rw [if_neg hgone]
  simp only [not_or, not_not] at hgone
  refine .inr ⟨by rw [hgone.2]; exact Option.some_ne_none o, ?_⟩
  have hfinish : Still s (s.putLane o { s.lane o with finished := true }) := .putLane ho rfl rfl
  have hrelease := hfinish.trans_still
    (releaseLane_still (s.lane o).bytes (s.lane o).items (hfinish.next.symm ▸ ho))
  obtain ⟨s₂, hs₂, hstill⟩ : ∃ s₂, s₂ = (if (s.lane o).bytes ≠ 0 ∨ (s.lane o).items ≠ 0 then
      (s.putLane o { s.lane o with finished := true }).release (s.lane o).bytes (s.lane o).items
        (some o) else s.putLane o { s.lane o with finished := true }) ∧ Still s s₂ := by
    refine ⟨_, rfl, ?_⟩
    split_ifs
    · exact hrelease
    · exact hfinish
  rw [← hs₂]
  obtain ⟨hnone, hk⟩ := (h.still hstill).parted (hstill.next.symm ▸ ho)
    (hstill.lanes.symm ▸ hgone.2) ((s.lane o).socket.map Socket.close) rfl rfl
  split_ifs
  · have hpost := post_still (p := p) hk.made.blank (closeFrame (s.lane o).id)
    exact ⟨hpost.lanes.symm ▸ hnone, hk.still hpost⟩
  · exact ⟨hnone, hk⟩

/-- The socket of a lane closes: the lane ends, unless it has already or the script fails. -/
theorem Keeping.laneClosed (h : Keeping p w due values s) {o : ℕ} (ho : o < s.nextObject) :
    Keeping p w due values (s.laneClosed p o) ∨ s.lanes.get (s.lane o).id ≠ none ∧
      (s.laneClosed p o).lanes.get (s.lane o).id = none ∧
      Keeping p w due (Function.update values (s.lane o).id []) (s.laneClosed p o) := by
  unfold Script.laneClosed
  dsimp only
  split_ifs
  · exact .inl h
  · exact .inl (h.still (fail_still h.made.blank))
  · exact h.finishWebSocketLane ho _

/-! ### One input -/

/-- No message of the app overtakes others: one that comes once the script has a token finds none
that wait.  A closed script sends nothing more. -/
def InTurn (s : Script) : Input → Prop
  | .message _ => s.closed = true ∨ s.sessionToken = "" ∨ s.pending = []
  | _ => True

/-- What an input makes of an open script. -/
inductive Outcome (p : Params) (w : List Bytes × List Bytes) (due : Bytes)
    (values : ℤ → List Value) (s s' : Script) : Prop
  | still (h : Held p w due values s')
  /-- A message is put with those that wait. -/
  | waits {data : Bytes} (h : Held p (w.1 ++ [data], w.2 ++ [data]) due values s')
  /-- A message is handed to the carrier. -/
  | handed {data : Bytes} (hw : w.1 = []) (h : Held p ([], w.2 ++ [data]) (due ++ data)
      (fun id => values id ++ framesFor id [data]) s')
  /-- Those that wait are handed to the carrier. -/
  | connected (h : Held p ([], w.2) (due ++ w.1.flatten)
      (fun id => values id ++ framesFor id w.1) s')
  /-- A lane leaves the map. -/
  | removed {id : ℤ} (hlive : s.lanes.get id ≠ none) (hgone : s'.lanes.get id = none)
      (h : Held p w due (Function.update values id []) s')

theorem Keeping.of_still (h : Keeping p w due values s) (hr : Still s s') :
    Outcome p w due values s s' := .still (h.still hr).held

theorem Keeping.message (h : Keeping p w due values s) (hopen : s.closed = false) (data : Bytes)
    (hturn : InTurn s (.message data)) : Outcome p w due values s (s.message p data) := by
  have hpending : s.pending = w.1 := congrArg Prod.fst h.record
  unfold Script.message
  by_cases hstarted : s.createStarted = false
  · rw [if_pos hstarted]
    exact h.of_still (.of_eq rfl rfl fun h => h)
  rw [if_neg hstarted]
  dsimp only
  have hcame : Keeping p (w.1, w.2 ++ [data]) due values { s with
      arrived := s.arrived ++ [data] } := by
    rw [← h.record]
    exact h.come s.pending (s.arrived ++ [data])
  by_cases htoken : s.sessionToken = ""
  · rw [if_pos htoken]
    cases hr : reserve { s with arrived := s.arrived ++ [data] } p data none with
    | none =>
        have hfail := hcame.still (fail_still hcame.made.blank)
        rcases hfail.held with ⟨hc, -⟩ | ⟨hc, hp⟩
        · rw [fail_closed] at hc
          cases hc
        · exact .waits (.inr ⟨hc, hp.arrived, hp.fresh, hp.queue, hp.lanes⟩)
    | some s₁ =>
        have hk := hcame.still (reserve_still (by rintro o ⟨⟩) hr).1
        have hwait : Keeping p (w.1 ++ [data], w.2 ++ [data]) due values
            { s₁ with pending := s₁.pending ++ [data] } := by
          have hrecord := hk.record
          rw [Prod.mk.injEq] at hrecord
          rw [← hrecord.1, ← hrecord.2]
          exact hk.come (s₁.pending ++ [data]) s₁.arrived
        exact .waits hwait.held
  · rw [if_neg htoken]
    rcases hturn with hc | htoken' | hempty
    · rw [hopen] at hc
      cases hc
    · exact absurd htoken' htoken
    · rw [hpending] at hempty
      have hnext := hcame.held.queueCarrier data
      have hhanded : Held p ([], w.2 ++ [data]) (due ++ data)
          (fun id => values id ++ framesFor id [data])
          (Script.queueCarrier { s with arrived := s.arrived ++ [data] } p data) := by
        simpa [framesFor, hempty] using hnext
      exact .handed hempty hhanded

/-- An input hands the queues what comes with it, and its turn is kept. -/
theorem Keeping.next {i : Input} (h : Keeping p w due values s) (hopen : s.closed = false)
    (hturn : InTurn s i) (hi : s.next p i = some s') : Outcome p w due values s s' := by
  have hblank := h.made.blank
  have hfail := fail_still hblank
  have hmade : ∀ {o}, s.lane o ≠ { id := 0 } → o < s.nextObject := by
    intro o ho
    by_contra hge
    exact ho (hblank o (not_lt.mp hge))
  have hsocketed : ∀ {o w}, (s.lane o).socket = some w → o < s.nextObject := fun hw =>
    hmade fun hnew => by
      rw [hnew] at hw
      cases hw
  unfold Script.next at hi
  cases i with
  | message data =>
      cases hi
      exact h.message hopen data hturn
  | close =>
      cases hi
      exact h.of_still (close_still hblank)
  | sessionAnswered r =>
      dsimp only at hi
      split at hi
      · cases hi
        exact h.of_still (sessionAnswered_still hblank r)
      · cases hi
  | welcomed r =>
      dsimp only at hi
      split_ifs at hi
      cases hi
      unfold Script.welcomed
      cases r with
      | none => exact h.of_still (hfail.trans_still (.of_eq rfl rfl fun h => h))
      | some welcome =>
          dsimp only
          split_ifs
          · exact h.of_still (.of_eq rfl rfl fun h => h)
          · exact .connected (h.connected hopen welcome)
  | resumed =>
      dsimp only at hi
      split at hi
      · cases hi
        exact .connected (h.connected hopen _)
      · cases hi
        exact h.of_still (hfail.trans_still (.of_eq rfl rfl fun h => h))
      · cases hi
  | upAnswered r =>
      dsimp only at hi
      split at hi
      · cases hi
        exact h.of_still (upAnswered_still hblank _ r)
      · cases hi
  | polled r =>
      dsimp only at hi
      split_ifs at hi
      cases hi
      exact h.of_still (pollAnswered_still hblank r)
  | laneAnswered o r =>
      dsimp only at hi
      split at hi
      · next batch hbatch =>
          cases hi
          exact h.of_still (laneAnswered_still hblank (hmade (by
            intro hnew
            rw [hnew] at hbatch
            cases hbatch)) batch r)
      · cases hi
  | lanePolled o r =>
      dsimp only at hi
      split_ifs at hi with hpolling
      cases hi
      have ho := hmade (o := o) (by
        intro hnew
        rw [hnew] at hpolling
        cases hpolling)
      rcases lanePollAnswered_still (p := p) h.made ho r with hr | hr
      · exact h.of_still hr
      · by_cases hnone : s.lanes.get (s.lane o).id = none
        · rw [Table.del_eq_self _ hnone] at hr
          exact h.of_still hr
        · refine .removed hnone ?_ ((h.remove _).still hr).held
          rw [hr.lanes]
          exact Table.get_del_self _ _
  | webSocketOpen =>
      dsimp only at hi
      split at hi
      · split_ifs at hi
        split at hi <;> cases hi <;> exact h.of_still (.of_eq rfl rfl fun h => h)
      · cases hi
  | webSocketMessage data =>
      dsimp only at hi
      split at hi
      · split_ifs at hi
        split at hi
        · cases hi
          exact h.of_still hfail
        · cases hi
          split_ifs
          · exact h.of_still hfail
          · exact h.of_still (post_still hblank _)
      · cases hi
  | webSocketError =>
      dsimp only at hi
      split at hi
      · cases hi
        exact h.of_still (.of_eq rfl rfl fun h => h)
      · cases hi
  | webSocketClose =>
      dsimp only at hi
      split at hi
      · next w hw =>
          split_ifs at hi
          cases hi
          have hmid : Still s { s with webSocket := some { w with readyState := .closed } } :=
            .of_eq rfl rfl fun h => h
          exact h.of_still (hmid.trans_still (fail_still (hblank.runs hmid)))
      · cases hi
  | webSocketTimer =>
      dsimp only at hi
      split_ifs at hi
      cases hi
      have hmid : Still s { s with webSocketTimer := false } := .of_eq rfl rfl fun h => h
      exact h.of_still (hmid.trans_still (runWebSocketUp_still (hblank.runs hmid)))
  | webSocketTask =>
      dsimp only at hi
      split_ifs at hi
      cases hi
      have hmid : Still s { s with webSocketTasks := s.webSocketTasks - 1 } :=
        .of_eq rfl rfl fun h => h
      exact h.of_still (hmid.trans_still (runWebSocketUp_still (hblank.runs hmid)))
  | laneOpen o =>
      dsimp only at hi
      split at hi
      · next w hw =>
          split_ifs at hi
          cases hi
          exact h.of_still (laneOpened_still hblank (hsocketed hw) _)
      · cases hi
  | laneMessage o data =>
      dsimp only at hi
      split at hi
      · next w hw =>
          split_ifs at hi
          cases hi
          exact h.of_still (laneMessage_still hblank (hsocketed hw) data)
      · cases hi
  | laneClose o =>
      dsimp only at hi
      split at hi
      · next w hw =>
          split_ifs at hi
          cases hi
          have ho := hsocketed hw
          have hput : Still s (s.putLane o { s.lane o with
              socket := some { w with readyState := .closed } }) := .putLane ho rfl rfl
          have hk := h.still hput
          rcases hk.laneClosed (p := p) ho with hsame | ⟨hlive, hgone, hremoved⟩
          · exact .still hsame.held
          · exact .removed hlive hgone hremoved.held
      · cases hi
  | laneTimer o =>
      dsimp only at hi
      split_ifs at hi with htimer
      cases hi
      have ho := hmade (o := o) (by
        intro hnew
        rw [hnew] at htimer
        simp at htimer)
      have hput : Still s (s.putLane o { s.lane o with timer := false }) := .putLane ho rfl rfl
      exact h.of_still (hput.trans_still (runWebSocketLaneUp_still (hblank.runs hput) ho))
  | laneTask o =>
      dsimp only at hi
      split_ifs at hi with htasks
      cases hi
      have ho := hmade (o := o) (by
        intro hnew
        rw [hnew] at htasks
        exact htasks rfl)
      have hput : Still s (s.putLane o { s.lane o with tasks := (s.lane o).tasks - 1 }) :=
        .putLane ho rfl rfl
      exact h.of_still (hput.trans_still (runWebSocketLaneUp_still (hblank.runs hput) ho))
  | transmitted lane amount =>
      cases lane with
      | none =>
          dsimp only at hi
          split at hi
          · cases hi
            exact h.of_still (.of_eq rfl rfl fun h => h)
          · cases hi
      | some o =>
          dsimp only at hi
          split at hi
          · next w hw =>
              cases hi
              exact h.of_still (.putLane (hsocketed hw) rfl rfl)
          · cases hi

/-! ### Runs -/

/-- The page, and how many messages it had handed over when the lane of a stream last left the
map. -/
structure Trail where
  script : Script := {}
  since : ℤ → ℕ := fun _ => 0

/-- The page has come to `s'`. -/
def Trail.next (t : Trail) (s' : Script) : Trail where
  script := s'
  since id := if (t.script.lanes.get id).isSome ∧ (s'.lanes.get id).isNone then
      s'.arrived.length - s'.pending.length
    else t.since id

/-- The runs of the page whose inputs are as `ok` has them. -/
inductive Trail.Run (p : Params) (ok : Script → Input → Prop) : Trail → Prop
  | start : Run p ok {}
  | step {t : Trail} {i : Input} {s' : Script} : Run p ok t → ok t.script i →
      t.script.next p i = some s' → Run p ok (t.next s')

/-- The frames of a stream that have come from the app, from the one on that opens its lane. -/
def Trail.owed (t : Trail) (id : ℤ) : List Value :=
  opened (framesFor id (t.script.arrived.drop (t.since id)))

/-- The uplink bodies are the beginning of what came from the app, on the whole or stream by
stream, and nothing of an opened stream is lost as long as its lane is in the map and the page
open. -/
structure Trail.InOrder (p : Params) (t : Trail) : Prop where
  shared : p.carrierMode = .https ∨ p.carrierMode = .webSocket →
    (t.script.sent.map Prod.snd).flatten <+: t.script.arrived.flatten
  lanes : p.carrierMode = .httpsLanes ∨ p.carrierMode = .webSocketLanes → ∀ id, id ≠ 0 →
    ∀ o, t.script.lanes.get id = some o → t.script.sentBy (some o) <+: bytesOf (t.owed id)
  whole : p.carrierMode = .httpsLanes ∨ p.carrierMode = .webSocketLanes →
    t.script.closed = false → ∀ id, id ≠ 0 → ∀ o, t.script.lanes.get id = some o →
    t.script.sentBy (some o) ++ (t.script.lane o).pending.flatten ++
      bytesOf (framesFor id t.script.pending) = bytesOf (t.owed id)
  /-- Where there is no lane yet, the frame that opens it waits. -/
  missing : p.carrierMode = .httpsLanes ∨ p.carrierMode = .webSocketLanes →
    t.script.closed = false → ∀ id, id ≠ 0 → t.script.lanes.get id = none →
    t.owed id = opened (framesFor id t.script.pending)

/-- What holds of every run: the messages that came are those handed over and those that wait. -/
def Line (p : Params) (since : ℤ → ℕ) (s : Script) : Prop :=
  s.closed = true ∧ Past p ([], s.arrived) s.arrived.flatten
    (fun id => framesFor id (s.arrived.drop (since id))) s ∨
  s.closed = false ∧ ∃ given, s.arrived = given ++ s.pending ∧ (∀ id, since id ≤ given.length) ∧
    Keeping p (s.pending, s.arrived) given.flatten
      (fun id => framesFor id (given.drop (since id))) s

theorem framesFor_init (id : ℤ) (k : ℕ) {messages messages' : List Bytes}
    (h : messages <+: messages') :
    framesFor id (messages.drop k) <+: framesFor id (messages'.drop k) := by
  obtain ⟨more, hmore⟩ := h.drop k
  rw [← hmore, framesFor_append]
  exact List.prefix_append _ _

theorem flatten_init {messages messages' : List Bytes} (h : messages <+: messages') :
    messages.flatten <+: messages'.flatten := by
  obtain ⟨more, rfl⟩ := h
  rw [List.flatten_append]
  exact List.prefix_append _ _

variable {since since' : ℤ → ℕ}

theorem Line.of_held {given : List Bytes} (h : Held p w given.flatten
      (fun id => framesFor id (given.drop (since id))) s)
    (hgiven : given <+: w.2) (hopen : s.closed = false → w.2 = given ++ w.1)
    (hsince : ∀ id, since id ≤ given.length) : Line p since s := by
  rcases h with ⟨ho, hk⟩ | ⟨hc, hp⟩
  · have hw := hk.record
    subst hw
    exact .inr ⟨ho, given, hopen ho, hsince, hk⟩
  · have hmore : given <+: s.arrived := hgiven.trans hp.arrived
    refine .inl ⟨hc, List.prefix_refl _, hp.fresh, fun hmode => ?_, fun hmode id hid o ho => ?_⟩
    · exact ⟨(hp.queue hmode).1.trans (flatten_init hmore), (hp.queue hmode).2⟩
    · exact (hp.lanes hmode id hid o ho).trans (opened_init (framesFor_init id _ hmore))

/-- A stream without a lane starts anew. -/
theorem Line.renew (h : Line p since s) (hsince : ∀ id, since' id = since id ∨
    s.lanes.get id = none ∧ since' id = s.arrived.length - s.pending.length) : Line p since' s := by
  rcases h with ⟨hc, hp⟩ | ⟨ho, given, harrived, hle, hk⟩
  · refine .inl ⟨hc, hp.arrived, hp.fresh, hp.queue, fun hmode id hid o hget => ?_⟩
    rcases hsince id with hsame | ⟨hnone, -⟩
    · rw [hsame]
      exact hp.lanes hmode id hid o hget
    · rw [hnone] at hget
      cases hget
  · have hlength : s.arrived.length - s.pending.length = given.length := by
      rw [harrived, List.length_append]
      omega
    refine .inr ⟨ho, given, harrived, fun id => ?_, hk.made, hk.record, hk.queue,
      fun hmode id hid => ?_⟩
    · rcases hsince id with hsame | ⟨-, hnew⟩
      · rw [hsame]
        exact hle id
      · rw [hnew, hlength]
    · rcases hsince id with hsame | ⟨hnone, hnew⟩
      · rw [hsame]
        exact hk.lanes hmode id hid
      · rw [hnew, hlength, List.drop_length]
        exact .of_removed hnone

theorem framesFor_drop_append (id : ℤ) {k : ℕ} {given : List Bytes} (hk : k ≤ given.length)
    (more : List Bytes) : framesFor id ((given ++ more).drop k) =
      framesFor id (given.drop k) ++ framesFor id more := by
  rw [List.drop_append_of_le_length hk, framesFor_append]

/-- What a step leads to, but for the lane that it may have ended. -/
theorem Line.step {i : Input} (h : Line p since s) (hturn : InTurn s i)
    (hi : s.next p i = some s') : ∃ since₁, Line p since₁ s' ∧ ∀ id, since₁ id = since id ∨
      s.lanes.get id ≠ none ∧ s'.lanes.get id = none := by
  rcases h with ⟨hc, hp⟩ | ⟨ho, given, harrived, hle, hk⟩
  · have hs := next_shut hc hi
    refine ⟨since, .inl ⟨hs.closed, ?_⟩, fun id => .inl rfl⟩
    have hpast := hp.shut hs (flatten_init hs.arrived)
      fun id _ => framesFor_init id (since id) hs.arrived
    exact ⟨List.prefix_refl _, hpast.fresh, hpast.queue, hpast.lanes⟩
  cases hk.next ho hturn hi with
  | still hheld =>
      exact ⟨since, .of_held hheld (harrived ▸ List.prefix_append _ _) (fun _ => harrived) hle,
        fun _ => .inl rfl⟩
  | @waits data hheld =>
      refine ⟨since, .of_held hheld ?_ (fun _ => ?_) hle, fun _ => .inl rfl⟩
      · rw [harrived, List.append_assoc]
        exact List.prefix_append _ _
      · rw [harrived, List.append_assoc]
  | @handed data hw hheld =>
      have hline : Held p ([], s.arrived ++ [data]) (given ++ [data]).flatten
          (fun id => framesFor id ((given ++ [data]).drop (since id))) s' := by
        simpa [framesFor_drop_append _ (hle _)] using hheld
      refine ⟨since, .of_held hline ?_ (fun _ => ?_) fun id => ?_, fun _ => .inl rfl⟩
      · dsimp only at hw ⊢
        rw [harrived, hw, List.append_nil]
      · dsimp only at hw ⊢
        rw [harrived, hw, List.append_nil, List.append_nil]
      · rw [List.length_append]
        exact (hle id).trans (Nat.le_add_right _ _)
  | connected hheld =>
      have hline : Held p ([], s.arrived) (given ++ s.pending).flatten
          (fun id => framesFor id ((given ++ s.pending).drop (since id))) s' := by
        simpa [framesFor_drop_append _ (hle _)] using hheld
      refine ⟨since, .of_held hline ?_ (fun _ => ?_) fun id => ?_, fun _ => .inl rfl⟩
      · exact harrived ▸ List.prefix_refl _
      · rw [List.append_nil]
        exact harrived
      · rw [List.length_append]
        exact (hle id).trans (Nat.le_add_right _ _)
  | @removed id hlive hgone hheld =>
      have hline : Held p (s.pending, s.arrived) given.flatten
          (fun i => framesFor i (given.drop (Function.update since id given.length i))) s' := by
        convert hheld using 2 with i
        by_cases hi : i = id
        · subst hi
          rw [Function.update_self, Function.update_self, List.drop_length]
          rfl
        · rw [Function.update_of_ne hi, Function.update_of_ne hi]
      refine ⟨Function.update since id given.length, .of_held hline
        (harrived ▸ List.prefix_append _ _) (fun _ => harrived) fun i => ?_, fun i => ?_⟩
      · by_cases hi : i = id
        · subst hi
          rw [Function.update_self]
        · rw [Function.update_of_ne hi]
          exact hle i
      · by_cases hi : i = id
        · subst hi
          exact .inr ⟨hlive, hgone⟩
        · rw [Function.update_of_ne hi]
          exact .inl rfl

theorem Line.start : Line p (fun _ => 0) {} := by
  refine .inr ⟨rfl, [], rfl, fun _ => le_rfl, ⟨fun _ _ => rfl, ?_, fun _ _ e he => ?_⟩, rfl,
    fun _ => ⟨⟨[], rfl, fun _ => rfl⟩, fun _ => rfl, fun e he => ?_⟩, fun _ id _ => ⟨?_, ?_⟩⟩
  · rintro _ _ ⟨⟩
  · cases he
  · cases he
  · rintro _ ⟨⟩
  · exact fun _ _ => rfl

theorem Trail.Run.line {t : Trail} (h : Trail.Run p InTurn t) : Line p t.since t.script := by
  induction h with
  | start => exact .start
  | @step t i s' _ hturn hi ih =>
      obtain ⟨since₁, hline, hsince⟩ := ih.step hturn hi
      refine hline.renew fun id => ?_
      unfold Trail.next
      dsimp only
      by_cases hended : (t.script.lanes.get id).isSome ∧ (s'.lanes.get id).isNone
      · rw [if_pos hended]
        exact .inr ⟨Option.isNone_iff_eq_none.mp hended.2, rfl⟩
      · rw [if_neg hended]
        rcases hsince id with hsame | ⟨hlive, hgone⟩
        · exact .inl hsame.symm
        · exact absurd ⟨Option.isSome_iff_ne_none.mpr hlive,
            Option.isNone_iff_eq_none.mpr hgone⟩ hended

/-- **The uplink keeps the order of the app** in every run in which no message overtakes others. -/
theorem uplink_order {t : Trail} (h : Trail.Run p InTurn t) : t.InOrder p := by
  rcases h.line with ⟨hc, hp⟩ | ⟨ho, given, harrived, hle, hk⟩
  · exact ⟨fun hmode => (hp.queue hmode).1, fun hmode => hp.lanes (not_shared hmode),
      fun _ ho => absurd hc (by simp [ho]), fun _ ho => absurd hc (by simp [ho])⟩
  have hdue : ∀ id, t.owed id = opened (framesFor id (given.drop (t.since id)) ++
      framesFor id t.script.pending) := by
    intro id
    unfold Trail.owed
    rw [harrived, framesFor_drop_append id (hle id)]
  have hlive : p.carrierMode = .httpsLanes ∨ p.carrierMode = .webSocketLanes → ∀ id, id ≠ 0 →
      ∀ o, t.script.lanes.get id = some o →
      t.script.sentBy (some o) ++ (t.script.lane o).pending.flatten ++
        bytesOf (framesFor id t.script.pending) = bytesOf (t.owed id) := by
    intro hmode id hid o hget
    obtain ⟨⟨rest, hrest, hwait⟩, hbegun⟩ := (hk.lanes (not_shared hmode) id hid).live o hget
    rw [hdue, opened_append, if_neg (hbegun ho), bytesOf_append, ← hrest, hwait ho]
    rfl
  refine ⟨fun hmode => ?_, fun hmode id hid o hget => ?_, fun hmode _ => hlive hmode,
    fun hmode _ id hid hget => ?_⟩
  · obtain ⟨hordered, -, hnone⟩ := hk.queue hmode
    rw [← sentBy_none hnone]
    exact hordered.init.trans (flatten_init (harrived ▸ List.prefix_append _ _))
  · rw [← hlive hmode id hid o hget, List.append_assoc]
    exact List.prefix_append _ _
  · rw [hdue, opened_append, if_pos ((hk.lanes (not_shared hmode) id hid).missing hget ho)]

instance (s : Script) (i : Input) : Decidable (InTurn s i) := by
  unfold InTurn
  cases i <;> exact inferInstance

/-- The page after the inputs, if each of them can happen and is as `ok` has it. -/
def Trail.run (p : Params) (ok : Script → Input → Prop) [∀ s i, Decidable (ok s i)] :
    Trail → List Input → Option Trail
  | t, [] => some t
  | t, i :: rest =>
      if ok t.script i then (t.script.next p i).bind fun s => run p ok (t.next s) rest else none

theorem Trail.Run.run {ok : Script → Input → Prop} [∀ s i, Decidable (ok s i)] {t t' : Trail}
    {inputs : List Input} (h : Trail.Run p ok t) (hrun : t.run p ok inputs = some t') :
    Trail.Run p ok t' := by
  induction inputs generalizing t with
  | nil =>
      cases hrun
      exact h
  | cons i rest ih =>
      unfold Trail.run at hrun
      split_ifs at hrun with hok
      obtain ⟨s, hnext, hrest⟩ := Option.bind_eq_some_iff.mp hrun
      exact ih (h.step hok hnext) hrest

/-- OPEN waits for the token, and DATA comes when it has gone up: it waits behind it. -/
theorem uplink_order_lane :
    ∃ t, Trail.Run { carrierMode := .httpsLanes, batchLimit := 16 } InTurn t ∧
    t.script.sentBy (some 0) = [1, 0, 0, 5, 0, 0, 0, 0] ∧
    bytesOf (t.owed 5) = [1, 0, 0, 5, 0, 0, 0, 0, 2, 0, 0, 5, 0, 0, 0, 1, 9] ∧
    t.InOrder { carrierMode := .httpsLanes, batchLimit := 16 } := by
  have hrun : (Trail.run { carrierMode := .httpsLanes, batchLimit := 16 } InTurn {}
      [.message [0], .message [1, 0, 0, 5, 0, 0, 0, 0],
        .sessionAnswered (some ⟨200, "https-lanes", "t", "0"⟩),
        .welcomed (some [0, 0, 0, 0, 0, 0, 0, 0]),
        .message [2, 0, 0, 5, 0, 0, 0, 1, 9]]).map
      (fun t => (t.script.sentBy (some 0), bytesOf (t.owed 5))) =
      some ([1, 0, 0, 5, 0, 0, 0, 0], [1, 0, 0, 5, 0, 0, 0, 0, 2, 0, 0, 5, 0, 0, 0, 1, 9]) := by
    decide +kernel
  obtain ⟨t, ht, hval⟩ := Option.map_eq_some_iff.mp hrun
  rw [Prod.mk.injEq] at hval
  have hreach := Trail.Run.start.run ht
  exact ⟨t, hreach, hval.1, hval.2, uplink_order hreach⟩

/-- OPEN waits for the token, and DATA comes between the token and the WELCOME: over HTTPS it goes
up before its OPEN, and with lanes it is dropped. -/
theorem uplink_order_overtaken :
    (∃ t, Trail.Run { carrierMode := .https, batchLimit := 16 } (fun _ _ => True) t ∧
      ¬ t.InOrder { carrierMode := .https, batchLimit := 16 }) ∧
    ∃ t, Trail.Run { carrierMode := .httpsLanes, batchLimit := 16 } (fun _ _ => True) t ∧
      ¬ t.InOrder { carrierMode := .httpsLanes, batchLimit := 16 } := by
  constructor
  · have hrun : (Trail.run { carrierMode := .https, batchLimit := 16 } (fun _ _ => True) {}
        [.message [0], .message [1, 0, 0, 5, 0, 0, 0, 0],
          .sessionAnswered (some ⟨200, "https", "t", "0"⟩),
          .message [2, 0, 0, 5, 0, 0, 0, 1, 9]]).map
        (fun t => ((t.script.sent.map Prod.snd).flatten, t.script.arrived.flatten)) =
        some ([2, 0, 0, 5, 0, 0, 0, 1, 9],
          [1, 0, 0, 5, 0, 0, 0, 0, 2, 0, 0, 5, 0, 0, 0, 1, 9]) := by
      decide +kernel
    obtain ⟨t, ht, hval⟩ := Option.map_eq_some_iff.mp hrun
    rw [Prod.mk.injEq] at hval
    refine ⟨t, Trail.Run.start.run ht, fun h => ?_⟩
    have hsent := h.shared (.inl rfl)
    rw [hval.1, hval.2] at hsent
    revert hsent
    decide
  · have hrun : (Trail.run { carrierMode := .httpsLanes, batchLimit := 16 } (fun _ _ => True) {}
        [.message [0], .message [1, 0, 0, 5, 0, 0, 0, 0],
          .sessionAnswered (some ⟨200, "https-lanes", "t", "0"⟩),
          .message [2, 0, 0, 5, 0, 0, 0, 1, 9],
          .welcomed (some [0, 0, 0, 0, 0, 0, 0, 0])]).map
        (fun t => (t.script.closed, t.script.lanes.get 5,
          t.script.sentBy (some 0) ++ (t.script.lane 0).pending.flatten ++
            bytesOf (framesFor 5 t.script.pending), bytesOf (t.owed 5))) =
        some (false, some 0, [1, 0, 0, 5, 0, 0, 0, 0],
          [1, 0, 0, 5, 0, 0, 0, 0, 2, 0, 0, 5, 0, 0, 0, 1, 9]) := by
      decide +kernel
    obtain ⟨t, ht, hval⟩ := Option.map_eq_some_iff.mp hrun
    simp only [Prod.mk.injEq] at hval
    obtain ⟨hopen, hget, hgone, hdue⟩ := hval
    refine ⟨t, Trail.Run.start.run ht, fun h => ?_⟩
    have hwhole := h.whole (.inl rfl) hopen 5 (by decide) 0 hget
    rw [hgone, hdue] at hwhole
    revert hwhole
    decide

end Page

end TproxyServer
