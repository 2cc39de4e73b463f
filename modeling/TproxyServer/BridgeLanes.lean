import TproxyServer.BridgeAccounting
import TproxyServer.RecentRing

/-! # A websocket lane ends once for the app

The page in mode `websocket-lanes`, watched from the app's port: how many CLOSE frames the
relay sent on the socket of a lane, how many the app got for it, and which ids have ended. -/

namespace TproxyServer

namespace Page

/-! ### Counting CLOSE frames -/

/-- The frames of a buffer, none if it is malformed. -/
def framesOf (data : Bytes) : List Value :=
  match splitFrames data with
  | .error _ => []
  | .ok values => values

/-- The CLOSE frames for `id` in some buffers. -/
def closings (id : ℤ) (buffers : List Bytes) : ℕ :=
  (buffers.flatMap framesOf).countP fun v => v.type = 3 ∧ v.id = id

@[simp] theorem closings_nil (id : ℤ) : closings id [] = 0 := rfl

theorem closings_append (id : ℤ) (left right : List Bytes) :
    closings id (left ++ right) = closings id left + closings id right := by
  simp [closings]

theorem framesOf_ok {data : Bytes} {values : List Value} (h : splitFrames data = .ok values) :
    framesOf data = values := by
  unfold framesOf
  rw [h]

/-- A frame that was cut out of a buffer is a buffer of one frame. -/
theorem framesOf_value {data : Bytes} {values : List Value} (h : splitFrames data = .ok values)
    {v : Value} (hv : v ∈ values) : framesOf v.data = [v] := by
  obtain ⟨frames, hparse, hfull, rfl⟩ := splitFrames_ok.mp h
  obtain ⟨f, hf, rfl⟩ := List.mem_map.mp hv
  obtain ⟨-, hbatch⟩ := parseAll_sound (by decide) le_rfl hparse
  have hone : parseAll (encodeAll [f]) maxPayload = .ok [f] := by
    refine parseAll_encodeAll (by decide) le_rfl ⟨by simp, by simp [maxBatchFrames], ?_⟩
    intro g hg
    rw [List.mem_singleton] at hg
    exact hg ▸ hbatch.frames f hf
  have hdata : encodeAll [f] = (Value.ofFrame f).data := by simp [Value.ofFrame]
  rw [hdata] at hone
  refine framesOf_ok (splitFrames_ok.mpr ⟨[f], hone, ?_, rfl⟩)
  intro g hg
  rw [List.mem_singleton] at hg
  exact hg ▸ hfull f hf

/-- The frames of a buffer, posted one by one, are the frames of the buffer. -/
theorem flatMap_framesOf {data : Bytes} {values : List Value}
    (h : splitFrames data = .ok values) :
    (values.map Value.data).flatMap framesOf = values := by
  have hsub : ∀ vs : List Value, (∀ v ∈ vs, v ∈ values) →
      (vs.map Value.data).flatMap framesOf = vs := by
    intro vs
    induction vs with
    | nil => exact fun _ => rfl
    | cons v vs ih =>
        intro hvs
        rw [List.map_cons, List.flatMap_cons, framesOf_value h (hvs v (by simp)),
          ih fun v' hv' => hvs v' (by simp [hv'])]
        rfl
  exact hsub values fun v hv => hv

/-- Ids of frames are those of streams. -/
def InRange (id : ℤ) : Prop := ∃ n : ℕ, id = n ∧ n ≤ maxStreamID

theorem splitFrames_inRange {data : Bytes} {values : List Value}
    (h : splitFrames data = .ok values) {v : Value} (hv : v ∈ values) : InRange v.id := by
  obtain ⟨frames, hparse, -, rfl⟩ := splitFrames_ok.mp h
  obtain ⟨f, hf, rfl⟩ := List.mem_map.mp hv
  exact ⟨f.streamID, rfl, (parseAll_bounds hparse f hf).2⟩

/-- `closeFrame` makes one frame, the CLOSE for its id. -/
theorem splitFrames_closeFrame {id : ℤ} (hid : InRange id) :
    splitFrames (Script.closeFrame id) = .ok [⟨3, id, Script.closeFrame id⟩] := by
  obtain ⟨n, rfl, hn⟩ := hid
  have hencode : Script.closeFrame n = encodeAll [⟨.close, n, []⟩] := by
    simp [Script.closeFrame, Frame.encode, TproxyServer.encode, Nat.shiftRight_eq_div_pow,
      FrameType.toByte, putUint32]
  have hparse : parseAll (encodeAll [⟨.close, n, []⟩]) maxPayload = .ok [⟨.close, n, []⟩] := by
    refine parseAll_encodeAll (by decide) le_rfl ⟨by simp, by simp [maxBatchFrames], ?_⟩
    intro g hg
    rw [List.mem_singleton] at hg
    subst hg
    exact ⟨rfl, hn, Nat.zero_le _⟩
  rw [hencode]
  refine splitFrames_ok.mpr ⟨_, hparse, ?_, ?_⟩
  · intro g hg hty
    rw [List.mem_singleton] at hg
    subst hg
    cases hty
  · simp [Value.ofFrame, FrameType.toByte]

theorem closings_closeFrame {id : ℤ} (hid : InRange id) (i : ℤ) :
    closings i [Script.closeFrame id] = if id = i then 1 else 0 := by
  have h := framesOf_ok (splitFrames_closeFrame hid)
  simp [closings, h]

/-! ### Work that ends no lane -/

variable {p : Params} {s s' s'' : Script}

/-- The app has sent a CLOSE for `id`. -/
def Script.Asked (s : Script) (id : ℤ) : Prop :=
  ∃ data ∈ s.arrived, ∃ values, splitFrames data = .ok values ∧ ∃ v ∈ values,
    v.type = 3 ∧ v.id = id

/-- Nothing more comes from the socket of the lane. -/
def Lane.Mute (l : Lane) : Prop :=
  ∀ w, l.socket = some w → w.readyState ≠ .connecting ∧ w.readyState ≠ .open

/-- Nothing is under way that only another carrier has, and the messages that wait came from
the app. -/
structure Script.Plain (s : Script) : Prop where
  webSocket : s.webSocket = none
  upBatch : s.upBatch = none
  polling : s.polling = false
  batch : ∀ o, (s.lane o).batch = none
  lanePolling : ∀ o, (s.lane o).polling = false
  waiting : ∀ data ∈ s.pending, data ∈ s.arrived
  creating : s.creating = .idle ∨ (∃ first, s.creating = .requested first) ∨
    s.creating = .reading ∨ s.creating = .ended

/-- A lane that has been worked on and has not ended. -/
structure Lane.Later (l l' : Lane) : Prop where
  id : l'.id = l.id
  remoteClosed : l'.remoteClosed = l.remoteClosed
  finished : l'.finished = l.finished
  localClosed : l.localClosed = true → l'.localClosed = true
  mute : l.finished = true → l.Mute → l'.Mute
  batch : l'.batch = l.batch
  polling : l'.polling = l.polling

theorem Lane.Later.refl (l : Lane) : l.Later l :=
  ⟨rfl, rfl, rfl, fun h => h, fun _ h => h, rfl, rfl⟩

theorem Lane.Later.trans {l l' l'' : Lane} (h : l.Later l') (h' : l'.Later l'') :
    l.Later l'' where
  id := h'.id.trans h.id
  remoteClosed := h'.remoteClosed.trans h.remoteClosed
  finished := h'.finished.trans h.finished
  localClosed hl := h'.localClosed (h.localClosed hl)
  mute hf hm := h'.mute (h.finished.trans hf) (h.mute hf hm)
  batch := h'.batch.trans h.batch
  polling := h'.polling.trans h.polling

/-- No lane ends from `s` to `s'`, none is told of a CLOSE, and those that come are new. -/
structure Grown (s s' : Script) : Prop where
  kept : ∀ id o, s.lanes.get id = some o → s'.lanes.get id = some o
  came : ∀ id o, s'.lanes.get id = some o → s.lanes.get id = some o ∨
    s.lanes.get id = none ∧ s.nextObject ≤ o ∧ o < s'.nextObject ∧ (s'.lane o).id = id ∧
      (s'.lane o).remoteClosed = false ∧ (s'.lane o).finished = false ∧
      id ≠ 0 ∧ InRange id ∧ id ∉ s.closedLanes
  made : ∀ o, s.nextObject ≤ o → o < s'.nextObject → s'.lanes.get (s'.lane o).id = some o
  next : s.nextObject ≤ s'.nextObject
  later : ∀ o, o < s.nextObject → (s.lane o).Later (s'.lane o)
  asked : ∀ o, o < s'.nextObject → (s'.lane o).localClosed = true →
    o < s.nextObject ∧ (s.lane o).localClosed = true ∨ s'.Asked (s'.lane o).id
  fresh : ∀ o, s'.nextObject ≤ o → s.lane o = { id := 0 } → s'.lane o = { id := 0 }
  tombs : s'.closedLanes = s.closedLanes ∧ s'.closedLaneOrder = s.closedLaneOrder
  posted : ∃ new, s'.posted = s.posted ++ new ∧ ∀ id, closings id new = 0
  arrived : s.arrived <+: s'.arrived
  closed : s.closed = true → s'.closed = true
  plain : s.Plain → s'.Plain

theorem Script.Asked.mono {id : ℤ} (h : s.Asked id) (harrived : s.arrived <+: s'.arrived) :
    s'.Asked id := by
  obtain ⟨data, hmem, hvalues⟩ := h
  exact ⟨data, harrived.subset hmem, hvalues⟩

namespace Grown

theorem refl (s : Script) : Grown s s where
  kept _ _ h := h
  came _ _ h := .inl h
  made o ho ho' := absurd ho' (not_lt.mpr ho)
  next := le_rfl
  later o _ := .refl _
  asked _ ho h := .inl ⟨ho, h⟩
  fresh _ _ h := h
  tombs := ⟨rfl, rfl⟩
  posted := ⟨[], by simp, fun _ => rfl⟩
  arrived := List.prefix_refl _
  closed h := h
  plain h := h

theorem trans (h : Grown s s') (h' : Grown s' s'') : Grown s s'' where
  kept id o ho := h'.kept id o (h.kept id o ho)
  came id o ho := by
    rcases h'.came id o ho with ho' | ⟨hnone, hge, hlt, hid, hremote, hfinished, h0, hrange, htomb⟩
    · rcases h.came id o ho' with
        ho₀ | ⟨hnone, hge, hlt, hid, hremote, hfinished, h0, hrange, htomb⟩
      · exact .inl ho₀
      · have hl := h'.later o hlt
        exact .inr ⟨hnone, hge, hlt.trans_le h'.next, hl.id.trans hid,
          hl.remoteClosed.trans hremote, hl.finished.trans hfinished, h0, hrange, htomb⟩
    · refine .inr ⟨?_, h.next.trans hge, hlt, hid, hremote, hfinished, h0, hrange, ?_⟩
      · by_contra hn
        obtain ⟨o', ho'⟩ := Option.ne_none_iff_exists'.mp hn
        rw [h.kept id o' ho'] at hnone
        cases hnone
      · rwa [← h.tombs.1]
  made o ho ho' := by
    by_cases hlt : o < s'.nextObject
    · rw [(h'.later o hlt).id]
      exact h'.kept _ _ (h.made o ho hlt)
    · exact h'.made o (not_lt.mp hlt) ho'
  next := h.next.trans h'.next
  later o ho := (h.later o ho).trans (h'.later o (ho.trans_le h.next))
  asked o ho hl := by
    rcases h'.asked o ho hl with ⟨hlt, hl'⟩ | hask
    · rcases h.asked o hlt hl' with hl₀ | hask
      · exact .inl hl₀
      · refine .inr ?_
        rw [(h'.later o hlt).id]
        exact hask.mono h'.arrived
    · exact .inr hask
  fresh o ho hb := h'.fresh o ho (h.fresh o (h'.next.trans ho) hb)
  tombs := ⟨h'.tombs.1.trans h.tombs.1, h'.tombs.2.trans h.tombs.2⟩
  posted := by
    obtain ⟨new, hnew, hcount⟩ := h.posted
    obtain ⟨new', hnew', hcount'⟩ := h'.posted
    refine ⟨new ++ new', by rw [hnew', hnew, List.append_assoc], fun id => ?_⟩
    rw [closings_append, hcount, hcount']
  arrived := h.arrived.trans h'.arrived
  closed hc := h'.closed (h.closed hc)
  plain hp := h'.plain (h.plain hp)

/-- Other fields change. -/
theorem of_eq (hlanes : s'.lanes = s.lanes) (hobjects : s'.objects = s.objects)
    (hnext : s'.nextObject = s.nextObject) (htombs : s'.closedLanes = s.closedLanes)
    (horder : s'.closedLaneOrder = s.closedLaneOrder)
    (hposted : ∃ new, s'.posted = s.posted ++ new ∧ ∀ id, closings id new = 0)
    (harrived : s.arrived <+: s'.arrived) (hclosed : s.closed = true → s'.closed = true)
    (hplain : s.Plain → s'.Plain) : Grown s s' := by
  have hlane : ∀ o, s'.lane o = s.lane o := Script.lane_congr hobjects
  refine ⟨?_, ?_, ?_, hnext.ge, ?_, ?_, fun o _ h => (hlane o).trans h, ⟨htombs, horder⟩,
    hposted, harrived, hclosed, hplain⟩
  · intro id o ho
    rwa [hlanes]
  · intro id o ho
    rw [hlanes] at ho
    exact .inl ho
  · intro o ho ho'
    omega
  · intro o _
    rw [hlane]
    exact .refl _
  · intro o ho hl
    rw [hlane] at hl
    exact .inl ⟨hnext ▸ ho, hl⟩

end Grown

/-- What `Grown` speaks of. -/
def Script.facts (s : Script) :=
  ((s.lanes, s.objects, s.nextObject, s.closedLanes, s.closedLaneOrder),
    (s.posted, s.arrived, s.pending, s.closed), (s.webSocket, s.upBatch, s.polling, s.creating))

/-- Only counters and the like change. -/
theorem Grown.idle (h : s'.facts = s.facts) : Grown s s' := by
  simp only [Script.facts, Prod.mk.injEq] at h
  obtain ⟨⟨hlanes, hobjects, hnext, htombs, horder⟩, ⟨hposted, harrived, hpending, hclosed⟩,
    hsocket, hup, hpolling, hcreating⟩ := h
  have hlane : ∀ o, s'.lane o = s.lane o := Script.lane_congr hobjects
  refine .of_eq hlanes hobjects hnext htombs horder ⟨[], by rw [hposted, List.append_nil],
    fun _ => rfl⟩ (by rw [harrived]) (fun hc => hclosed.trans hc) fun hp => ?_
  refine ⟨hsocket.trans hp.webSocket, hup.trans hp.upBatch, hpolling.trans hp.polling,
    fun o => ?_, fun o => ?_, ?_, hcreating ▸ hp.creating⟩
  · rw [hlane]
    exact hp.batch o
  · rw [hlane]
    exact hp.lanePolling o
  · rw [hpending, harrived]
    exact hp.waiting

/-- The lanes of the map are objects that were made under their ids and have not finished; what
was not made is blank. -/
structure Script.Mapped (s : Script) : Prop where
  lane : ∀ id o, s.lanes.get id = some o → o < s.nextObject ∧ (s.lane o).id = id ∧
    (s.lane o).finished = false ∧ id ≠ 0 ∧ InRange id ∧ id ∉ s.closedLanes
  blank : ∀ o, s.nextObject ≤ o → s.lane o = { id := 0 }

theorem Script.Mapped.grown (h : s.Mapped) (hg : Grown s s') : s'.Mapped where
  lane id o ho := by
    rw [hg.tombs.1]
    rcases hg.came id o ho with ho' | ⟨-, -, hlt, hid, -, hfinished, h0, hrange, htomb⟩
    · obtain ⟨hlt, hid, hfinished, h0, hrange, htomb⟩ := h.lane id o ho'
      have hl := hg.later o hlt
      exact ⟨hlt.trans_le hg.next, hl.id.trans hid, hl.finished.trans hfinished, h0, hrange, htomb⟩
    · exact ⟨hlt, hid, hfinished, h0, hrange, htomb⟩
  blank o ho := hg.fresh o ho (h.blank o (hg.next.trans ho))

/-- A lane with anything to it was made. -/
theorem Script.Mapped.lt (h : s.Mapped) {o : ℕ} (ho : s.lane o ≠ { id := 0 }) :
    o < s.nextObject := by
  by_contra hge
  exact ho (h.blank o (not_lt.mp hge))

/-! ### The functions of the script -/

/-- Nothing was posted. -/
theorem unposted (h : s'.posted = s.posted) :
    ∃ new, s'.posted = s.posted ++ new ∧ ∀ id, closings id new = 0 :=
  ⟨[], by rw [h, List.append_nil], fun _ => rfl⟩

theorem putLane_grown {o : ℕ} {l : Lane} (ho : o < s.nextObject) (hl : (s.lane o).Later l)
    (hlocal : l.localClosed = true → (s.lane o).localClosed = true ∨ s.Asked l.id) :
    Grown s (s.putLane o l) where
  kept _ _ h := h
  came _ _ h := .inl h
  made i hi hi' := absurd hi' (not_lt.mpr hi)
  next := le_rfl
  later i _ := by
    rw [Script.lane_putLane]
    split_ifs with h
    · exact h ▸ hl
    · exact .refl _
  asked i hi := by
    rw [Script.lane_putLane]
    split_ifs with h
    · subst h
      exact fun hc => (hlocal hc).imp (fun h => ⟨ho, h⟩) fun h => h
    · exact fun hc => .inl ⟨hi, hc⟩
  fresh i hi := by
    have hne : i ≠ o := (lt_of_lt_of_le ho hi).ne'
    rw [Script.lane_putLane, if_neg hne]
    exact fun h => h
  tombs := ⟨rfl, rfl⟩
  posted := unposted rfl
  arrived := List.prefix_refl _
  closed h := h
  plain h := by
    refine ⟨h.webSocket, h.upBatch, h.polling, fun i => ?_, fun i => ?_, h.waiting, h.creating⟩
    · rw [Script.lane_putLane]
      split_ifs
      · rw [hl.batch]
        exact h.batch o
      · exact h.batch i
    · rw [Script.lane_putLane]
      split_ifs
      · rw [hl.polling]
        exact h.lanePolling o
      · exact h.lanePolling i

/-- A lane is written, its flags staying. -/
theorem touchLane_grown {o : ℕ} {l : Lane} (ho : o < s.nextObject) (hid : l.id = (s.lane o).id)
    (hlocal : l.localClosed = (s.lane o).localClosed)
    (hremote : l.remoteClosed = (s.lane o).remoteClosed)
    (hfinished : l.finished = (s.lane o).finished)
    (hmute : (s.lane o).finished = true → (s.lane o).Mute → l.Mute)
    (hbatch : l.batch = (s.lane o).batch) (hpolling : l.polling = (s.lane o).polling) :
    Grown s (s.putLane o l) :=
  putLane_grown ho ⟨hid, hremote, hfinished, fun h => by rwa [hlocal], hmute, hbatch, hpolling⟩
    fun h => .inl (by rwa [← hlocal])

theorem Socket.close_mute (w : Socket) :
    w.close.readyState ≠ .connecting ∧ w.close.readyState ≠ .open := by
  unfold Socket.close
  split_ifs with h
  · simp
  · simpa using h

theorem close_grown (s : Script) : Grown s s.close := by
  unfold Script.close
  split_ifs
  · exact .refl s
  have hlane : ∀ o, Script.lane { s with
      closed := true
      objects := s.objects.mapValues fun l => { l with socket := l.socket.map Socket.close }
      webSocket := s.webSocket.map Socket.close } o =
      { s.lane o with socket := (s.lane o).socket.map Socket.close } := by
    intro o
    unfold Script.lane
    dsimp only
    rw [Table.get_mapValues]
    cases s.objects.get o <;> rfl
  refine ⟨fun _ _ h => h, fun _ _ h => .inl h, fun o ho ho' => absurd ho' (not_lt.mpr ho), le_rfl,
    ?_, ?_, ?_, ⟨rfl, rfl⟩, unposted rfl, List.prefix_refl _, fun _ => rfl, ?_⟩
  · intro o _
    rw [hlane]
    refine ⟨rfl, rfl, rfl, fun h => h, fun _ _ => ?_, rfl, rfl⟩
    intro w hw
    obtain ⟨w', -, rfl⟩ := Option.map_eq_some_iff.mp hw
    exact Socket.close_mute w'
  · intro o ho
    rw [hlane]
    exact fun h => .inl ⟨ho, h⟩
  · intro o ho
    rw [hlane]
    intro hb
    rw [hb]
    rfl
  · intro h
    refine ⟨by simp [h.webSocket], h.upBatch, h.polling, fun o => ?_, fun o => ?_, h.waiting,
      h.creating⟩
    · rw [hlane]
      exact h.batch o
    · rw [hlane]
      exact h.lanePolling o

theorem fail_grown (s : Script) : Grown s s.fail := by
  unfold Script.fail
  split_ifs
  · exact .refl s
  · exact close_grown s

theorem reserve_grown {data : Bytes} {lane : Option ℕ}
    (hlane : ∀ o, lane = some o → o < s.nextObject)
    (h : s.reserve p data lane = some s') : Grown s s' := by
  have hcount : Grown s { s with
      queuedBytes := s.queuedBytes + data.length, queuedItems := s.queuedItems + 1 } := .idle rfl
  unfold Script.reserve at h
  dsimp only at h
  split_ifs at h
  cases lane with
  | none =>
      cases h
      exact hcount
  | some o =>
      dsimp only at h
      split_ifs at h
      cases h
      exact hcount.trans (touchLane_grown (hlane o rfl) rfl rfl rfl rfl (fun _ h => h) rfl rfl)

theorem release_grown (bytes items : ℤ) {lane : Option ℕ}
    (hlane : ∀ o, lane = some o → o < s.nextObject) : Grown s (s.release bytes items lane) := by
  have hcount : Grown s { s with
      queuedBytes := s.queuedBytes - bytes, queuedItems := s.queuedItems - items } := .idle rfl
  cases lane with
  | none => exact hcount
  | some o =>
      exact hcount.trans (touchLane_grown (hlane o rfl) rfl rfl rfl rfl (fun _ h => h) rfl rfl)

theorem runWebSocketLaneUp_grown {o : ℕ} (ho : o < s.nextObject) :
    Grown s (s.runWebSocketLaneUp p o) := by
  unfold Script.runWebSocketLaneUp
  dsimp only
  cases hsocket : (s.lane o).socket with
  | none => exact .refl s
  | some w =>
      dsimp only
      split_ifs with hidle
      · exact .refl s
      · refine touchLane_grown ho rfl rfl rfl rfl (fun _ h => ?_) rfl rfl
        intro w' hw'
        exact h w' (hsocket.trans hw')
      · cases joinPending p.batchLimit (s.lane o).pending with
        | error e => exact fail_grown s
        | ok j =>
            dsimp only
            have hsent : Grown s { s with
                queuedItems := s.queuedItems + j.added
                sent := s.sent ++ [(some o, j.batch.body)] } := .idle rfl
            have hsend : Grown { s with
                queuedItems := s.queuedItems + j.added
                sent := s.sent ++ [(some o, j.batch.body)] } _ :=
              touchLane_grown (l := { s.lane o with
                pending := j.values
                items := (s.lane o).items + j.added
                socket := some (w.send j.batch.body) }) ho rfl rfl rfl rfl ?_ rfl rfl
            · have hrelease := (hsent.trans hsend).trans
                (release_grown j.batch.total j.batch.count (show ∀ q, some o = some q → q < _ by
                  rintro _ ⟨⟩; exact ho))
              split_ifs
              · exact hrelease
              · exact hrelease.trans
                  (touchLane_grown ho rfl rfl rfl rfl (fun _ h => h) rfl rfl)
            · intro _ hm w' hw'
              cases hw'
              exact hm w hsocket

theorem openWebSocketLane_grown {o : ℕ} (ho : o < s.nextObject)
    (hfinished : (s.lane o).finished = false) : Grown s (s.openWebSocketLane o) := by
  refine touchLane_grown ho rfl rfl rfl rfl ?_ rfl rfl
  intro hf
  rw [hfinished] at hf
  cases hf

/-- A frame for a lane of the map. -/
theorem pushWebSocketLane_grown {o : ℕ} (hm : s.Mapped) {value : Value}
    (ho : s.lanes.get value.id = some o) (hask : value.type = 3 → s.Asked value.id) :
    Grown s (s.pushWebSocketLane p o value) := by
  obtain ⟨hlt, hid, hfinished, -, -, -⟩ := hm.lane _ _ ho
  unfold Script.pushWebSocketLane
  cases hr : s.reserve p value.data (some o) with
  | none => exact fail_grown s
  | some s₁ =>
      have h₁ := reserve_grown (by rintro _ ⟨⟩; exact hlt) hr
      have hlt₁ : o < s₁.nextObject := hlt.trans_le h₁.next
      have hl₁ := h₁.later o hlt
      dsimp only
      have hpush : Grown s₁ (s₁.putLane o { s₁.lane o with
          pending := (s₁.lane o).pending ++ [value.data]
          localClosed := if value.type = 3 then true else (s₁.lane o).localClosed }) := by
        refine putLane_grown hlt₁ ⟨rfl, rfl, rfl, fun h => ?_, fun _ h => h, rfl, rfl⟩ fun h => ?_
        · dsimp only
          split_ifs
          · rfl
          · exact h
        · dsimp only at h ⊢
          split_ifs at h with hty
          · refine .inr ?_
            rw [hl₁.id, hid]
            exact (hask hty).mono h₁.arrived
          · exact .inl h
      split
      · refine (h₁.trans hpush).trans (openWebSocketLane_grown hlt₁ ?_)
        rw [Script.lane_putLane, if_pos rfl]
        exact hl₁.finished.trans hfinished
      · exact (h₁.trans hpush).trans (runWebSocketLaneUp_grown hlt₁)

/-- A lane is made for an id that has none. -/
theorem ensureLane_grown {id : ℤ} (hnone : s.lanes.get id = none) (h0 : id ≠ 0)
    (hrange : InRange id) (htomb : id ∉ s.closedLanes) :
    Grown s (s.ensureLane id).1 ∧ (s.ensureLane id).1.lanes.get id = some s.nextObject ∧
      (s.ensureLane id).2 = s.nextObject := by
  unfold Script.ensureLane
  rw [hnone]
  dsimp only
  have hlane : ∀ o, Script.lane { s with
      lanes := s.lanes.put id s.nextObject
      objects := s.objects.put s.nextObject { id }
      nextObject := s.nextObject + 1 } o = if o = s.nextObject then { id } else s.lane o := by
    intro o
    unfold Script.lane
    dsimp only
    rw [Table.get_put]
    split_ifs <;> rfl
  refine ⟨⟨?_, ?_, ?_, Nat.le_succ _, ?_, ?_, ?_, ⟨rfl, rfl⟩, unposted rfl, List.prefix_refl _,
    fun h => h, ?_⟩, Table.get_put_self _ _ _, rfl⟩
  · intro i o ho
    refine (Table.get_put_ne _ _ ?_).trans ho
    rintro rfl
    rw [hnone] at ho
    cases ho
  · intro i o ho
    rw [hlane]
    dsimp only at ho
    rw [Table.get_put] at ho
    split_ifs at ho with hi
    · cases ho
      subst hi
      exact .inr ⟨hnone, le_rfl, Nat.lt_succ_self _, by simp, by simp, by simp, h0, hrange, htomb⟩
    · exact .inl ho
  · intro o ho ho'
    have heq : o = s.nextObject := by
      have hlt : o < s.nextObject + 1 := ho'
      omega
    subst heq
    rw [hlane, if_pos rfl]
    exact Table.get_put_self _ _ _
  · intro o ho
    rw [hlane, if_neg ho.ne]
    exact .refl _
  · intro o ho
    rw [hlane]
    split_ifs with heq
    · intro h
      cases h
    · have hlt : o < s.nextObject + 1 := ho
      exact fun h => .inl ⟨by omega, h⟩
  · intro o ho hb
    have hge : s.nextObject + 1 ≤ o := ho
    rw [hlane, if_neg (by omega)]
    exact hb
  · intro h
    refine ⟨h.webSocket, h.upBatch, h.polling, fun o => ?_, fun o => ?_, h.waiting, h.creating⟩
    · rw [hlane]
      split_ifs
      · rfl
      · exact h.batch o
    · rw [hlane]
      split_ifs
      · rfl
      · exact h.lanePolling o

theorem queueWebSocketLane_grown (hm : s.Mapped) {value : Value} (hrange : InRange value.id)
    (hask : value.type = 3 → s.Asked value.id)
    (h : s.queueWebSocketLane p value = .ok s') : Grown s s' := by
  unfold Script.queueWebSocketLane at h
  cases hl : s.lanes.get value.id with
  | some o =>
      rw [hl] at h
      dsimp only at h
      split_ifs at h
      cases h
      exact pushWebSocketLane_grown hm hl hask
  | none =>
      rw [hl] at h
      dsimp only at h
      split_ifs at h with hlate hclosed hty
      · cases h
        exact .refl s
      · cases h
        rw [not_or] at hclosed
        obtain ⟨hg, hmap, hobj⟩ := ensureLane_grown hl hclosed.1 hrange hclosed.2
        rw [hobj]
        exact hg.trans (pushWebSocketLane_grown (hm.grown hg) hmap
          fun hty => (hask hty).mono hg.arrived)

theorem queueValues_grown (hm : s.Mapped) {values : List Value}
    (hvalues : ∀ v ∈ values, InRange v.id ∧ (v.type = 3 → s.Asked v.id)) :
    Grown s (Script.queueValues p Script.queueWebSocketLane s values) := by
  induction values generalizing s with
  | nil => exact .refl s
  | cons v rest ih =>
      unfold Script.queueValues
      obtain ⟨hrange, hask⟩ := hvalues v List.mem_cons_self
      cases hq : s.queueWebSocketLane p v with
      | error e => exact fail_grown s
      | ok s₁ =>
          have h₁ := queueWebSocketLane_grown hm hrange hask hq
          refine h₁.trans (ih (hm.grown h₁) ?_)
          intro v' hv'
          obtain ⟨hrange', hask'⟩ := hvalues v' (List.mem_cons_of_mem _ hv')
          exact ⟨hrange', fun hty => (hask' hty).mono h₁.arrived⟩

theorem queueCarrier_grown (hm : s.Mapped) (hmode : p.carrierMode = .webSocketLanes)
    {data : Bytes} (hdata : data ∈ s.arrived) : Grown s (s.queueCarrier p data) := by
  unfold Script.queueCarrier
  rw [hmode]
  dsimp only
  cases hv : splitFrames data with
  | error e => exact fail_grown s
  | ok values =>
      refine queueValues_grown hm fun v hmem => ⟨splitFrames_inRange hv hmem, fun hty => ?_⟩
      exact ⟨data, hdata, values, hv, v, hmem, hty, rfl⟩

theorem drainLoop_grown (hm : s.Mapped) (hmode : p.carrierMode = .webSocketLanes)
    {values : List Bytes} (hvalues : ∀ data ∈ values, data ∈ s.arrived) :
    Grown s (Script.drainLoop p s values) := by
  induction values generalizing s with
  | nil => exact .refl s
  | cons data rest ih =>
      have hrelease : Grown s (s.release data.length 1 none) := release_grown _ _ (by simp)
      have hqueue := queueCarrier_grown (p := p) (hm.grown hrelease) hmode
        (hrelease.arrived.subset (hvalues data List.mem_cons_self))
      have hboth := hrelease.trans hqueue
      refine hboth.trans (ih (hm.grown hboth) ?_)
      intro data' hdata'
      exact hboth.arrived.subset (hvalues data' (List.mem_cons_of_mem _ hdata'))

/-! ### Inputs that end no lane -/

theorem message_grown (hm : s.Mapped) (hmode : p.carrierMode = .webSocketLanes) (data : Bytes) :
    Grown s (s.message p data) := by
  have harrive : Grown s { s with arrived := s.arrived ++ [data] } :=
    .of_eq rfl rfl rfl rfl rfl (unposted rfl) (List.prefix_append _ _) (fun h => h)
      fun h => ⟨h.webSocket, h.upBatch, h.polling, h.batch, h.lanePolling,
        fun d hd => List.mem_append_left _ (h.waiting d hd), h.creating⟩
  have hdata : data ∈ s.arrived ++ [data] := by simp
  unfold Script.message
  by_cases hstart : s.createStarted = false
  · rw [if_pos hstart]
    exact .of_eq rfl rfl rfl rfl rfl (unposted rfl) (List.prefix_refl _) (fun h => h)
      fun h => ⟨h.webSocket, h.upBatch, h.polling, h.batch, h.lanePolling, h.waiting,
        .inr (.inl ⟨_, rfl⟩)⟩
  rw [if_neg hstart]
  by_cases htoken : s.sessionToken = ""
  · dsimp only
    rw [if_pos htoken]
    generalize hs₀ : ({ s with arrived := s.arrived ++ [data] } : Script) = s₀ at harrive
    have hdata₀ : data ∈ s₀.arrived := by rw [← hs₀]; exact hdata
    cases hr : s₀.reserve p data none with
    | none => exact harrive.trans (fail_grown s₀)
    | some s₁ =>
        have h₁ := reserve_grown (by simp) hr
        refine (harrive.trans h₁).trans ?_
        refine .of_eq rfl rfl rfl rfl rfl (unposted rfl) (List.prefix_refl _) (fun h => h) ?_
        refine fun h => ⟨h.webSocket, h.upBatch, h.polling, h.batch, h.lanePolling, ?_, h.creating⟩
        intro d hd
        rcases List.mem_append.mp hd with hd | hd
        · exact h.waiting d hd
        · rw [List.mem_singleton] at hd
          rw [hd]
          exact h₁.arrived.subset hdata₀
  · dsimp only
    rw [if_neg htoken]
    exact harrive.trans (queueCarrier_grown (hm.grown harrive) hmode hdata)

/-- `createSession` gets no further. -/
theorem ended_grown (s : Script) : Grown s { s.fail with creating := .ended } :=
  (fail_grown s).trans (.of_eq rfl rfl rfl rfl rfl (unposted rfl) (List.prefix_refl _) (fun h => h)
    fun h => ⟨h.webSocket, h.upBatch, h.polling, h.batch, h.lanePolling, h.waiting,
      .inr (.inr (.inr rfl))⟩)

theorem sessionAnswered_grown (r : Option Script.SessionResponse) :
    Grown s (s.sessionAnswered p r) := by
  unfold Script.sessionAnswered
  cases r with
  | none => exact ended_grown s
  | some r =>
      dsimp only
      by_cases hbad : r.status ≠ 200 ∨ r.carrierMode ≠ p.carrierMode.text
      · rw [if_pos hbad]
        exact ended_grown s
      rw [if_neg hbad]
      have hnext : ∀ token cursor creating,
          creating = s.creating ∨ creating = .reading ∨ creating = .ended →
          Grown s { s with sessionToken := token, downCursor := cursor, creating := creating } := by
        intro token cursor creating hcreating
        refine .of_eq rfl rfl rfl rfl rfl (unposted rfl) (List.prefix_refl _) (fun h => h) ?_
        refine fun h => ⟨h.webSocket, h.upBatch, h.polling, h.batch, h.lanePolling, h.waiting, ?_⟩
        rcases hcreating with rfl | hcreating
        · exact h.creating
        · exact .inr (.inr hcreating)
      by_cases htoken : r.token = ""
      · rw [if_pos htoken]
        exact (hnext r.token _ s.creating (.inl rfl)).trans (ended_grown _)
      rw [if_neg htoken]
      by_cases hclosed : s.closed = true
      · rw [if_pos hclosed]
        exact hnext r.token _ .ended (.inr (.inr rfl))
      · rw [if_neg hclosed]
        exact hnext r.token _ .reading (.inr (.inl rfl))

/-- A buffer is posted, or the port is closed, or it is malformed. -/
theorem post_cases (s : Script) (p : Params) (data : Bytes) :
    (∃ new, s.post p data = { s with posted := s.posted ++ new } ∧
      (new = [] ∧ s.closed = true ∨ ∀ id, closings id new = closings id [data])) ∨
    s.post p data = s.fail ∧ framesOf data = [] := by
  unfold Script.post
  split_ifs with handroid hclosed
  · cases hv : splitFrames data with
    | error e =>
        refine .inr ⟨rfl, ?_⟩
        unfold framesOf
        rw [hv]
    | ok values =>
        refine .inl ⟨_, rfl, .inr fun id => ?_⟩
        unfold closings
        rw [flatMap_framesOf hv, List.flatMap_singleton, framesOf_ok hv]
  · exact .inl ⟨[], by simp, .inl ⟨rfl, hclosed⟩⟩
  · exact .inl ⟨[data], rfl, .inr fun _ => rfl⟩

/-- A buffer without a CLOSE is posted. -/
theorem post_grown {data : Bytes} (h : ∀ id, closings id [data] = 0) : Grown s (s.post p data) := by
  rcases post_cases s p data with ⟨new, hpost, hnew⟩ | ⟨hpost, -⟩
  · rw [hpost]
    refine .of_eq rfl rfl rfl rfl rfl ⟨new, rfl, fun id => ?_⟩ (List.prefix_refl _) (fun h => h)
      fun h => ⟨h.webSocket, h.upBatch, h.polling, h.batch, h.lanePolling, h.waiting, h.creating⟩
    rcases hnew with ⟨rfl, -⟩ | hnew
    · rfl
    · rw [hnew, h]
  · rw [hpost]
    exact fail_grown s

theorem connected_grown (hm : s.Mapped) (hplain : s.Plain)
    (hmode : p.carrierMode = .webSocketLanes) {welcome : Bytes}
    (hwelcome : ∀ id, closings id [welcome] = 0) : Grown s (s.connected p welcome) := by
  have hend : Grown s { s with creating := .ended } :=
    .of_eq rfl rfl rfl rfl rfl (unposted rfl) (List.prefix_refl _) (fun h => h)
      fun h => ⟨h.webSocket, h.upBatch, h.polling, h.batch, h.lanePolling, h.waiting,
        .inr (.inr (.inr rfl))⟩
  unfold Script.connected
  dsimp only
  split_ifs
  · exact hend
  rw [hmode]
  dsimp only
  generalize hs₁ : Script.post { s with creating := .ended } p welcome = s₁
  have h₁ : Grown s s₁ := hs₁ ▸ hend.trans (post_grown hwelcome)
  have hempty : Grown s₁ { s₁ with pending := [] } :=
    .of_eq rfl rfl rfl rfl rfl (unposted rfl) (List.prefix_refl _) (fun h => h)
      fun h => ⟨h.webSocket, h.upBatch, h.polling, h.batch, h.lanePolling, by simp, h.creating⟩
  have h₂ := h₁.trans hempty
  exact h₂.trans (drainLoop_grown (hm.grown h₂) hmode (h₁.plain hplain).waiting)

theorem welcomed_grown (hm : s.Mapped) (hplain : s.Plain)
    (hmode : p.carrierMode = .webSocketLanes) {r : Option Bytes}
    (hwelcome : ∀ welcome, r = some welcome → ∀ id, closings id [welcome] = 0) :
    Grown s (s.welcomed p r) := by
  unfold Script.welcomed
  cases r with
  | none => exact ended_grown s
  | some welcome =>
      dsimp only
      rw [hmode, if_neg (by simp)]
      exact connected_grown hm hplain hmode (hwelcome welcome rfl)

theorem laneOpened_grown {o : ℕ} (ho : o < s.nextObject) {w w' : Socket}
    (hsocket : (s.lane o).socket = some w) (hw : w.readyState = .connecting) :
    Grown s (s.laneOpened p o w') := by
  have hloud : ∀ l : Lane, (s.lane o).Mute → l.Mute :=
    fun l hm => absurd hw (hm w hsocket).1
  unfold Script.laneOpened
  dsimp only
  split_ifs
  · exact touchLane_grown ho rfl rfl rfl rfl (fun _ => hloud _) rfl rfl
  · have hopen : Grown s (s.putLane o { s.lane o with socket := some w', opened := true }) :=
      touchLane_grown ho rfl rfl rfl rfl (fun _ => hloud _) rfl rfl
    exact hopen.trans (runWebSocketLaneUp_grown (ho.trans_le hopen.next))

/-! ### A message on the socket of a lane -/

/-- A body with `n` CLOSE frames arrived on the socket of lane `o`. -/
structure Heard (o n : ℕ) (s s' : Script) : Prop where
  lanes : s'.lanes = s.lanes
  next : s'.nextObject = s.nextObject
  tombs : s'.closedLanes = s.closedLanes ∧ s'.closedLaneOrder = s.closedLaneOrder
  arrived : s'.arrived = s.arrived
  closed : s'.closed = s.closed
  flagged : s'.lane o = { s.lane o with
    remoteClosed := if n = 0 then (s.lane o).remoteClosed else true }
  others : ∀ i, i ≠ o → s'.lane i = s.lane i
  posted : ∃ new, s'.posted = s.posted ++ new ∧ (new = [] ∧ s.closed = true ∨
    ∀ id, closings id new = if id = (s.lane o).id then n else 0)
  plain : s.Plain → s'.Plain

/-- The CLOSE frames that the relay sends on the socket of lane `o` with an input. -/
def Input.relayed (i : Input) (o : ℕ) : ℕ :=
  match i with
  | .laneMessage o' (some data) =>
      if o' = o then (framesOf data).countP fun v => v.type = 3 else 0
  | _ => 0

/-- The frames of one stream, counted. -/
theorem closings_of_id {data : Bytes} {values : List Value} {id : ℤ}
    (h : splitFrames data = .ok values) (hid : ∀ v ∈ values, v.id = id) (i : ℤ) :
    closings i [data] = if i = id then values.countP fun v => v.type = 3 else 0 := by
  unfold closings
  rw [List.flatMap_singleton, framesOf_ok h]
  split_ifs with hi
  · refine List.countP_congr fun v hv => ?_
    simp [hi, hid v hv]
  · rw [List.countP_eq_zero]
    intro v hv
    have hne : id ≠ i := fun he => hi he.symm
    simp [hid v hv, hne]

theorem laneMessage_heard {o : ℕ} (data : Option Bytes) :
    Grown s (s.laneMessage p o data) ∧ (s.laneMessage p o data).closed = true ∨
      Heard o ((Input.laneMessage o data).relayed o) s (s.laneMessage p o data) := by
  have hfail : Grown s s.fail ∧ s.fail.closed = true := ⟨fail_grown s, s.fail_closed⟩
  unfold Script.laneMessage
  cases data with
  | none => exact .inl hfail
  | some data =>
      dsimp only
      split_ifs
      · exact .inl hfail
      cases hv : splitFrames data with
      | error e => exact .inl hfail
      | ok values =>
          dsimp only
          split_ifs with hids hany
          · exact .inl hfail
          all_goals
            have hid : ∀ v ∈ values, v.id = (s.lane o).id := by
              intro v hmem
              by_contra hne
              exact hids (List.any_eq_true.mpr ⟨v, hmem, by simpa using hne⟩)
            have hcount := closings_of_id hv hid
            have hrelayed : (Input.laneMessage o (some data)).relayed o =
                values.countP fun v => v.type = 3 := by
              unfold Input.relayed
              dsimp only
              rw [if_pos rfl, framesOf_ok hv]
            rw [hrelayed]
          · have hpos : values.countP (fun v => v.type = 3) ≠ 0 := by
              obtain ⟨v, hmem, hty⟩ := List.any_eq_true.mp hany
              exact (List.countP_pos_iff.mpr ⟨v, hmem, hty⟩).ne'
            rcases post_cases (s.putLane o { s.lane o with remoteClosed := true }) p data with
              ⟨new, hpost, hnew⟩ | ⟨-, hnone⟩
            · rw [hpost]
              refine .inr ⟨rfl, rfl, ⟨rfl, rfl⟩, rfl, rfl, ?_, ?_, ⟨new, rfl, ?_⟩, ?_⟩
              · rw [if_neg hpos]
                exact (Script.lane_putLane s o o _).trans (if_pos rfl)
              · intro i hi
                exact (Script.lane_putLane s o i _).trans (if_neg hi)
              · exact hnew.imp (fun h => h) fun h id => (h id).trans (hcount id)
              · intro h
                have hlane : ∀ i, Script.lane (s.putLane o { s.lane o with
                    remoteClosed := true }) i = if i = o then { s.lane o with
                    remoteClosed := true } else s.lane i := fun i => Script.lane_putLane s o i _
                refine ⟨h.webSocket, h.upBatch, h.polling, fun i => ?_, fun i => ?_, h.waiting,
                  h.creating⟩
                · refine (congrArg Lane.batch (hlane i)).trans ?_
                  split_ifs
                  · exact h.batch o
                  · exact h.batch i
                · refine (congrArg Lane.polling (hlane i)).trans ?_
                  split_ifs
                  · exact h.lanePolling o
                  · exact h.lanePolling i
            · rw [framesOf_ok hv] at hnone
              subst hnone
              simp at hany
          · have hzero : values.countP (fun v => v.type = 3) = 0 := by
              rw [List.countP_eq_zero]
              intro v hmem hty
              exact hany (List.any_eq_true.mpr ⟨v, hmem, hty⟩)
            rcases post_cases s p data with ⟨new, hpost, hnew⟩ | ⟨hpost, -⟩
            · rw [hpost]
              refine .inr ⟨rfl, rfl, ⟨rfl, rfl⟩, rfl, rfl, ?_, fun i _ => rfl, ⟨new, rfl, ?_⟩, ?_⟩
              · rw [if_pos hzero]
                rfl
              · exact hnew.imp (fun h => h) fun h id => (h id).trans (hcount id)
              · exact fun h => ⟨h.webSocket, h.upBatch, h.polling, h.batch, h.lanePolling,
                  h.waiting, h.creating⟩
            · rw [hpost]
              exact .inl hfail

/-! ### The end of a lane -/

/-- Lane `o` has ended, and `told` says whether the app got a CLOSE for it. -/
structure Finished (o : ℕ) (told : Bool) (s s' : Script) : Prop where
  lanes : s'.lanes = s.lanes.del (s.lane o).id
  next : s'.nextObject = s.nextObject
  tombs : s'.closedLanes = insert (s.lane o).id
    (if s.closedLaneOrder.length = closedLaneLimit then
      s.closedLanes.erase (s.closedLaneOrder.headD 0) else s.closedLanes)
  order : s'.closedLaneOrder = (if s.closedLaneOrder.length = closedLaneLimit then
    s.closedLaneOrder.tail else s.closedLaneOrder) ++ [(s.lane o).id]
  arrived : s'.arrived = s.arrived
  closed : s'.closed = s.closed
  id : (s'.lane o).id = (s.lane o).id
  localClosed : (s'.lane o).localClosed = (s.lane o).localClosed
  finished : (s'.lane o).finished = true
  mute : (s'.lane o).Mute
  others : ∀ i, i ≠ o → s'.lane i = s.lane i
  posted : ∃ new, s'.posted = s.posted ++ new ∧
    ∀ id, closings id new = if told = true ∧ id = (s.lane o).id then 1 else 0
  plain : s.Plain → s'.Plain

/-- Lane `o` is marked as finished, nothing else having changed but its counters. -/
structure Parting (o : ℕ) (s s' : Script) : Prop where
  lanes : s'.lanes = s.lanes
  next : s'.nextObject = s.nextObject
  tombs : s'.closedLanes = s.closedLanes ∧ s'.closedLaneOrder = s.closedLaneOrder
  arrived : s'.arrived = s.arrived
  closed : s'.closed = s.closed
  posted : s'.posted = s.posted
  lane : (s'.lane o).id = (s.lane o).id ∧ (s'.lane o).localClosed = (s.lane o).localClosed ∧
    (s'.lane o).batch = (s.lane o).batch ∧ (s'.lane o).polling = (s.lane o).polling
  finished : (s'.lane o).finished = true
  others : ∀ i, i ≠ o → s'.lane i = s.lane i
  pending : s'.pending = s.pending
  rest : s'.webSocket = s.webSocket ∧ s'.upBatch = s.upBatch ∧ s'.polling = s.polling ∧
    s'.creating = s.creating

theorem Parting.putLane {o : ℕ} {l : Lane} (h : Parting o s s')
    (hl : l.id = (s'.lane o).id ∧ l.localClosed = (s'.lane o).localClosed ∧
      l.batch = (s'.lane o).batch ∧ l.polling = (s'.lane o).polling)
    (hfinished : l.finished = true) : Parting o s (s'.putLane o l) := by
  have hlane : (s'.putLane o l).lane o = l := (Script.lane_putLane s' o o l).trans (if_pos rfl)
  refine ⟨h.lanes, h.next, h.tombs, h.arrived, h.closed, h.posted, ?_, ?_, ?_, h.pending, h.rest⟩
  · rw [hlane]
    obtain ⟨hid, hlocal, hbatch, hpolling⟩ := h.lane
    exact ⟨hl.1.trans hid, hl.2.1.trans hlocal, hl.2.2.1.trans hbatch, hl.2.2.2.trans hpolling⟩
  · rw [hlane]
    exact hfinished
  · intro i hi
    exact ((Script.lane_putLane s' o i l).trans (if_neg hi)).trans (h.others i hi)

theorem Parting.release {o : ℕ} (h : Parting o s s') (bytes items : ℤ) :
    Parting o s (s'.release bytes items (some o)) := by
  have hcount : Parting o s { s' with
      queuedBytes := s'.queuedBytes - bytes, queuedItems := s'.queuedItems - items } :=
    ⟨h.lanes, h.next, h.tombs, h.arrived, h.closed, h.posted, h.lane, h.finished, h.others,
      h.pending, h.rest⟩
  exact hcount.putLane ⟨rfl, rfl, rfl, rfl⟩ h.finished

theorem Parting.plain {o : ℕ} (h : Parting o s s') (hplain : s.Plain) : s'.Plain := by
  obtain ⟨hsocket, hup, hpoll, hcreating⟩ := h.rest
  refine ⟨hsocket ▸ hplain.webSocket, hup ▸ hplain.upBatch, hpoll ▸ hplain.polling, fun i => ?_,
    fun i => ?_, ?_, hcreating ▸ hplain.creating⟩
  · by_cases hi : i = o
    · rw [hi, h.lane.2.2.1]
      exact hplain.batch o
    · rw [h.others i hi]
      exact hplain.batch i
  · by_cases hi : i = o
    · rw [hi, h.lane.2.2.2]
      exact hplain.lanePolling o
    · rw [h.others i hi]
      exact hplain.lanePolling i
  · rw [h.pending, h.arrived]
    exact hplain.waiting

theorem rememberLaneClosed_eq {id : ℤ} (h0 : id ≠ 0) (htomb : id ∉ s.closedLanes) :
    s.rememberLaneClosed id = { s with
      closedLanes := insert id (if s.closedLaneOrder.length = closedLaneLimit then
        s.closedLanes.erase (s.closedLaneOrder.headD 0) else s.closedLanes)
      closedLaneOrder := (if s.closedLaneOrder.length = closedLaneLimit then
        s.closedLaneOrder.tail else s.closedLaneOrder) ++ [id] } := by
  unfold Script.rememberLaneClosed
  rw [if_neg (by simp [h0, htomb])]
  dsimp only
  split_ifs <;> rfl

/-- The ended lane leaves the map; `told` says whether its CLOSE is posted. -/
theorem Parting.finished_of {o : ℕ} {told : Bool} {s₁ : Script} (h : Parting o s s₁)
    (hrange : InRange (s.lane o).id) (socket : Option Socket) (new : List Bytes)
    (hnew : new = if told = true then [Script.closeFrame (s.lane o).id] else [])
    (hsocket : ∀ w, socket = some w → w.readyState ≠ .connecting ∧ w.readyState ≠ .open)
    (closedLanes : Finset ℤ) (closedLaneOrder : List ℤ)
    (htombs : closedLanes = insert (s.lane o).id
      (if s.closedLaneOrder.length = closedLaneLimit then
        s.closedLanes.erase (s.closedLaneOrder.headD 0) else s.closedLanes))
    (horder : closedLaneOrder = (if s.closedLaneOrder.length = closedLaneLimit then
      s.closedLaneOrder.tail else s.closedLaneOrder) ++ [(s.lane o).id]) :
    Finished o told s { s₁.putLane o { s₁.lane o with socket := socket } with
      lanes := s₁.lanes.del (s.lane o).id
      closedLanes := closedLanes
      closedLaneOrder := closedLaneOrder
      posted := s₁.posted ++ new } := by
  have h' := h.putLane (l := { s₁.lane o with socket := socket }) ⟨rfl, rfl, rfl, rfl⟩ h.finished
  have hlane : (s₁.putLane o { s₁.lane o with socket := socket }).lane o =
      { s₁.lane o with socket := socket } := (Script.lane_putLane s₁ o o _).trans (if_pos rfl)
  refine ⟨by rw [h.lanes], h.next, htombs, horder, h.arrived, h.closed, h'.lane.1, h'.lane.2.1,
    h'.finished, ?_, h'.others, ⟨new, by rw [h.posted], fun id => ?_⟩, fun hplain => ?_⟩
  · intro w hw
    refine hsocket w ?_
    have hs : ((s₁.putLane o { s₁.lane o with socket := socket }).lane o).socket = some w := hw
    rwa [hlane] at hs
  · rw [hnew]
    cases told with
    | false => rfl
    | true =>
        rw [if_pos rfl, closings_closeFrame hrange]
        simp [eq_comm]
  · have hp := h'.plain hplain
    exact ⟨hp.webSocket, hp.upBatch, hp.polling, hp.batch, hp.lanePolling, hp.waiting, hp.creating⟩

theorem post_closeFrame {id : ℤ} (hrange : InRange id) (hopen : s.closed = false) :
    s.post p (Script.closeFrame id) = { s with posted := s.posted ++ [Script.closeFrame id] } := by
  unfold Script.post
  rw [splitFrames_closeFrame hrange]
  split_ifs with handroid hclosed
  · rfl
  · rw [hopen] at hclosed
    cases hclosed
  · rfl

theorem finishWebSocketLane_finished {o : ℕ} (hm : s.Mapped)
    (hl : s.lanes.get (s.lane o).id = some o) (hopen : s.closed = false) (notify : Bool) :
    Finished o notify s (s.finishWebSocketLane p o notify) := by
  obtain ⟨hlt, -, hfinished, h0, hrange, htomb⟩ := hm.lane _ _ hl
  have hmark : Parting o s (s.putLane o { s.lane o with finished := true }) := by
    have hlane : (s.putLane o { s.lane o with finished := true }).lane o =
        { s.lane o with finished := true } := (Script.lane_putLane s o o _).trans (if_pos rfl)
    refine ⟨rfl, rfl, ⟨rfl, rfl⟩, rfl, rfl, rfl, ?_, ?_, ?_, rfl, ⟨rfl, rfl, rfl, rfl⟩⟩
    · rw [hlane]
      exact ⟨rfl, rfl, rfl, rfl⟩
    · rw [hlane]
    · intro i hi
      exact (Script.lane_putLane s o i _).trans (if_neg hi)
  unfold Script.finishWebSocketLane
  dsimp only
  rw [if_neg (by simp [hfinished, hl])]
  -- the lane is marked, its counters are given back and its queue is emptied
  generalize hs₂ : (if (s.lane o).bytes ≠ 0 ∨ (s.lane o).items ≠ 0 then
    (s.putLane o { s.lane o with finished := true }).release (s.lane o).bytes (s.lane o).items
      (some o) else s.putLane o { s.lane o with finished := true }) = s₂
  have h₂ : Parting o s s₂ := by
    rw [← hs₂]
    split_ifs
    · exact hmark.release _ _
    · exact hmark
  have h₃ : Parting o s (s₂.putLane o { s₂.lane o with pending := [] }) :=
    h₂.putLane ⟨rfl, rfl, rfl, rfl⟩ h₂.finished
  generalize s₂.putLane o { s₂.lane o with pending := [] } = s₃ at h₃
  rw [rememberLaneClosed_eq h0 (by rw [show ({ s₃ with lanes := s₃.lanes.del (s.lane o).id } :
    Script).closedLanes = s.closedLanes from h₃.tombs.1]; exact htomb)]
  have hmute : ∀ w, ((s.lane o).socket.map Socket.close) = some w →
      w.readyState ≠ .connecting ∧ w.readyState ≠ .open := by
    intro w hw
    obtain ⟨w', -, rfl⟩ := Option.map_eq_some_iff.mp hw
    exact Socket.close_mute w'
  have hdone := fun new hnew => @Parting.finished_of _ o notify _ h₃ hrange
    ((s.lane o).socket.map Socket.close) new hnew hmute _ _ rfl rfl
  have hclosed : s₃.closed = false := h₃.closed.trans hopen
  dsimp only
  rw [h₃.tombs.1, h₃.tombs.2]
  cases notify with
  | false =>
      rw [if_neg (by simp)]
      have h := hdone [] rfl
      rw [List.append_nil] at h
      exact h
  | true =>
      rw [if_pos ⟨rfl, hclosed⟩, post_closeFrame hrange]
      · exact hdone _ rfl
      · exact hclosed

/-! ### The watched page -/

/-- The page, with the newest lane of every id, the CLOSE frames that the relay sent on the
socket of a lane, those that the app received for it, and the ids of the lanes that have left
the map, in order. -/
structure Watch where
  script : Script := {}
  newest : ℤ → Option ℕ := fun _ => none
  relayed : ℕ → ℕ := fun _ => 0
  received : ℕ → ℕ := fun _ => 0
  ended : List ℤ := []

/-- What is seen of an input that leads to `s'`.  A CLOSE counts for the newest lane of its
id. -/
def Watch.next (w : Watch) (i : Input) (s' : Script) : Watch where
  script := s'
  newest id := (s'.lanes.get id).or (w.newest id)
  relayed o := w.relayed o + i.relayed o
  received o := w.received o + if w.newest (w.script.lane o).id = some o then
    closings (w.script.lane o).id (s'.posted.drop w.script.posted.length) else 0
  ended := w.ended ++ w.script.lanes.keys.filter fun id => (s'.lanes.get id).isNone

/-- The relay sends at most one CLOSE on the socket of a lane, and none with the body that
answers the creation of the session, which is the WELCOME. -/
structure Watch.Fair (w : Watch) (i : Input) : Prop where
  lanes : ∀ o, w.relayed o + i.relayed o ≤ 1
  welcome : ∀ welcome, i = .welcomed (some welcome) → ∀ v ∈ framesOf welcome, v.type ≠ 3

/-- The runs of the page against such a relay. -/
inductive Watched (p : Params) : Watch → Prop
  | start : Watched p {}
  | step {w : Watch} {i : Input} {s' : Script} : Watched p w → w.Fair i →
      w.script.next p i = some s' → Watched p (w.next i s')

/-- What is kept: a lane of the map got what the relay sent for it, and one that has left the
map got one CLOSE, unless the app asked for its end itself. -/
structure Told (w : Watch) : Prop where
  mapped : w.script.Mapped
  plain : w.script.Plain
  newest : ∀ id o, w.script.lanes.get id = some o → w.newest id = some o
  known : ∀ id o, w.newest id = some o → o < w.script.nextObject ∧ (w.script.lane o).id = id
  gone : ∀ o, o < w.script.nextObject → w.script.lanes.get (w.script.lane o).id ≠ some o →
    (w.script.lane o).finished = true ∧ (w.script.lane o).Mute ∧ (w.script.lane o).id ∈ w.ended
  few : ∀ o, w.relayed o ≤ 1
  live : ∀ o, o < w.script.nextObject → w.script.lanes.get (w.script.lane o).id = some o →
    w.received o ≤ w.relayed o ∧ (w.script.closed = false → w.received o = w.relayed o ∧
      ((w.script.lane o).remoteClosed = true ↔ w.relayed o ≠ 0))
  done : ∀ o, o < w.script.nextObject → w.script.lanes.get (w.script.lane o).id ≠ some o →
    w.received o ≤ 1 ∧ (w.script.closed = false →
      (w.script.lane o).localClosed = true ∨ w.received o = 1)
  fresh : ∀ o, w.script.nextObject ≤ o → w.received o = 0 ∧ w.relayed o = 0
  asked : ∀ o, o < w.script.nextObject → (w.script.lane o).localClosed = true →
    w.script.Asked (w.script.lane o).id
  order : w.script.closedLaneOrder = w.ended.rtake closedLaneLimit
  tombs : w.script.closedLanes = w.script.closedLaneOrder.toFinset
  distinct : w.script.closedLaneOrder.Nodup

variable {w : Watch} {i : Input}

@[simp] theorem Watch.next_script : (w.next i s').script = s' := rfl

@[simp] theorem Watch.next_relayed (o : ℕ) :
    (w.next i s').relayed o = w.relayed o + i.relayed o := rfl

theorem Watch.next_newest (id : ℤ) :
    (w.next i s').newest id = (s'.lanes.get id).or (w.newest id) := rfl

/-- The CLOSE frames that the newest lanes got with some buffers. -/
theorem Watch.received_next {new : List Bytes} (hnew : s'.posted = w.script.posted ++ new)
    (o : ℕ) : (w.next i s').received o = w.received o +
      if w.newest (w.script.lane o).id = some o then closings (w.script.lane o).id new else 0 := by
  unfold Watch.next
  dsimp only
  rw [hnew, List.drop_left]

/-- Without a CLOSE nothing is received. -/
theorem Watch.received_same (h : ∃ new, s'.posted = w.script.posted ++ new ∧
    ∀ id, closings id new = 0) (o : ℕ) : (w.next i s').received o = w.received o := by
  obtain ⟨new, hnew, hcount⟩ := h
  rw [Watch.received_next hnew, hcount, ite_self, Nat.add_zero]

/-- An input on which no lane ends. -/
theorem Told.grown (h : Told w) (hfair : w.Fair i) (hg : Grown w.script s')
    (hrelayed : (∀ o, i.relayed o = 0) ∨ s'.closed = true)
    (hmade : ∀ o, w.script.nextObject ≤ o → i.relayed o = 0) : Told (w.next i s') := by
  have hreceived := fun o => Watch.received_same (i := i) hg.posted o
  have hopen : s'.closed = false → w.script.closed = false := by
    intro hc
    by_contra hn
    rw [Bool.not_eq_false] at hn
    rw [hg.closed hn] at hc
    cases hc
  have hcame : ∀ o, o < s'.nextObject → s'.lanes.get (s'.lane o).id ≠ some o →
      o < w.script.nextObject ∧ w.script.lanes.get (w.script.lane o).id ≠ some o := by
    intro o ho hn
    have hlt : o < w.script.nextObject := by
      by_contra hge
      exact hn (hg.made o (not_lt.mp hge) ho)
    refine ⟨hlt, fun hl => hn ?_⟩
    rw [(hg.later o hlt).id]
    exact hg.kept _ _ hl
  have hended : (w.next i s').ended = w.ended := by
    have hnil : w.script.lanes.keys.filter (fun id => (s'.lanes.get id).isNone) = [] := by
      rw [List.filter_eq_nil_iff]
      intro id hid
      obtain ⟨o, ho⟩ := Option.ne_none_iff_exists'.mp (((Table.mem_keys_iff _ _).mp hid))
      rw [hg.kept id o ho]
      simp
    unfold Watch.next
    dsimp only
    rw [hnil, List.append_nil]
  have hm := h.mapped.grown hg
  refine ⟨hm, hg.plain h.plain, ?_, ?_, ?_, hfair.lanes, ?_, ?_, ?_, ?_, ?_, ?_, ?_⟩
  all_goals simp only [Watch.next_script, Watch.next_relayed, Watch.next_newest, hended, hreceived]
  · intro id o ho
    rw [ho]
    rfl
  · intro id o ho
    cases hl : s'.lanes.get id with
    | some o₁ =>
        rw [hl] at ho
        cases ho
        obtain ⟨hlt, hid, -⟩ := hm.lane id o hl
        exact ⟨hlt, hid⟩
    | none =>
        rw [hl] at ho
        obtain ⟨hlt, hid⟩ := h.known id o ho
        exact ⟨hlt.trans_le hg.next, (hg.later o hlt).id.trans hid⟩
  · intro o ho hn
    obtain ⟨hlt, hn₀⟩ := hcame o ho hn
    obtain ⟨hfinished, hmute, hmem⟩ := h.gone o hlt hn₀
    have hl := hg.later o hlt
    rw [hl.id]
    exact ⟨hl.finished.trans hfinished, hl.mute hfinished hmute, hmem⟩
  · intro o ho hl
    by_cases hlt : o < w.script.nextObject
    · have hl₀ : w.script.lanes.get (w.script.lane o).id = some o := by
        rcases hg.came _ _ hl with hl₀ | ⟨-, hge, -⟩
        · rwa [← (hg.later o hlt).id]
        · omega
      obtain ⟨hle, heq⟩ := h.live o hlt hl₀
      refine ⟨hle.trans (Nat.le_add_right _ _), fun hc => ?_⟩
      obtain ⟨hrec, hremote⟩ := heq (hopen hc)
      rcases hrelayed with hzero | hclosed
      · rw [hzero, Nat.add_zero, (hg.later o hlt).remoteClosed]
        exact ⟨hrec, hremote⟩
      · rw [hclosed] at hc
        cases hc
    · have hge := not_lt.mp hlt
      obtain ⟨hrec, hrel⟩ := h.fresh o hge
      rw [hrec, hrel, hmade o hge]
      refine ⟨le_rfl, fun _ => ⟨rfl, ?_⟩⟩
      rcases hg.came _ _ hl with hl₀ | ⟨-, -, -, -, hremote, -⟩
      · exact absurd (h.mapped.lane _ _ hl₀).1 hlt
      · simp [hremote]
  · intro o ho hn
    obtain ⟨hlt, hn₀⟩ := hcame o ho hn
    obtain ⟨hle, hone⟩ := h.done o hlt hn₀
    exact ⟨hle, fun hc => (hone (hopen hc)).imp (hg.later o hlt).localClosed fun h => h⟩
  · intro o ho
    have hge := hg.next.trans ho
    obtain ⟨hrec, hrel⟩ := h.fresh o hge
    rw [hrec, hrel, hmade o hge]
    exact ⟨rfl, rfl⟩
  · intro o ho hc
    rcases hg.asked o ho hc with ⟨hlt, hc₀⟩ | hask
    · rw [(hg.later o hlt).id]
      exact (h.asked o hlt hc₀).mono hg.arrived
    · exact hask
  · exact hg.tombs.2.trans h.order
  · rw [hg.tombs.1, hg.tombs.2]
    exact h.tombs
  · rw [hg.tombs.2]
    exact h.distinct

/-- A lane whose socket is not mute is in the map. -/
theorem Told.loud (h : Told w) {o : ℕ} {socket : Socket}
    (hsocket : (w.script.lane o).socket = some socket)
    (hstate : socket.readyState = .connecting ∨ socket.readyState = .open) :
    o < w.script.nextObject ∧ w.script.lanes.get (w.script.lane o).id = some o := by
  have hlt : o < w.script.nextObject := by
    apply h.mapped.lt
    intro hb
    rw [hb] at hsocket
    cases hsocket
  refine ⟨hlt, ?_⟩
  by_contra hn
  obtain ⟨hconnecting, hopen⟩ := (h.gone o hlt hn).2.1 socket hsocket
  rcases hstate with hstate | hstate
  · exact hconnecting hstate
  · exact hopen hstate

/-- A body arrives on the socket of a lane. -/
theorem Told.heard (h : Told w) (hfair : w.Fair i) {o : ℕ} (hlt : o < w.script.nextObject)
    (hl : w.script.lanes.get (w.script.lane o).id = some o)
    (hothers : ∀ j, j ≠ o → i.relayed j = 0) (hh : Heard o (i.relayed o) w.script s') :
    Told (w.next i s') := by
  have hid : ∀ j, (s'.lane j).id = (w.script.lane j).id := by
    intro j
    by_cases hj : j = o
    · rw [hj, hh.flagged]
    · rw [hh.others j hj]
  have hsame : ∀ j, (s'.lane j).finished = (w.script.lane j).finished ∧
      (s'.lane j).localClosed = (w.script.lane j).localClosed ∧
      (s'.lane j).socket = (w.script.lane j).socket := by
    intro j
    by_cases hj : j = o
    · rw [hj, hh.flagged]
      exact ⟨rfl, rfl, rfl⟩
    · rw [hh.others j hj]
      exact ⟨rfl, rfl, rfl⟩
  have hended : (w.next i s').ended = w.ended := by
    have hnil : w.script.lanes.keys.filter (fun id => (s'.lanes.get id).isNone) = [] := by
      rw [List.filter_eq_nil_iff]
      intro id hmem
      rw [hh.lanes]
      simpa [Option.ne_none_iff_isSome] using (Table.mem_keys_iff _ _).mp hmem
    unfold Watch.next
    dsimp only
    rw [hnil, List.append_nil]
  have hnewest := h.newest _ _ hl
  obtain ⟨new, hnew, hcount⟩ := hh.posted
  -- only lane `o` is told, of as many CLOSE frames as the relay sent if the port is open
  have hreceived : ∀ j, j ≠ o → (w.next i s').received j = w.received j := by
    intro j hj
    rw [Watch.received_next hnew]
    split_ifs with hn
    · rcases hcount with ⟨rfl, -⟩ | hcount
      · rfl
      · rw [hcount, if_neg, Nat.add_zero]
        intro he
        rw [he, hnewest] at hn
        exact hj (Option.some.inj hn).symm
    · rfl
  have hreceived_o : (w.next i s').received o ≤ w.received o + i.relayed o ∧
      (w.script.closed = false → (w.next i s').received o = w.received o + i.relayed o) := by
    rw [Watch.received_next hnew, if_pos hnewest]
    rcases hcount with ⟨rfl, hclosed⟩ | hcount
    · refine ⟨by simp, fun hopen => ?_⟩
      rw [hclosed] at hopen
      cases hopen
    · rw [hcount, if_pos rfl]
      exact ⟨le_rfl, fun _ => rfl⟩
  have hasked : ∀ {id}, w.script.Asked id → s'.Asked id :=
    fun ha => ha.mono (by rw [hh.arrived])
  refine ⟨⟨?_, ?_⟩, hh.plain h.plain, ?_, ?_, ?_, hfair.lanes, ?_, ?_, ?_, ?_, ?_, ?_, ?_⟩
  all_goals simp only [Watch.next_script, Watch.next_relayed, Watch.next_newest, hended,
    hh.lanes, hh.next, hh.tombs.1, hh.tombs.2, hh.closed, hid]
  · intro id j hj
    rw [(hsame j).1]
    exact h.mapped.lane id j hj
  · intro j hj
    have hne : j ≠ o := (lt_of_lt_of_le hlt hj).ne'
    rw [hh.others j hne]
    exact h.mapped.blank j hj
  · intro id j hj
    rw [hj]
    rfl
  · intro id j hj
    cases hg : w.script.lanes.get id with
    | some j₁ =>
        rw [hg] at hj
        cases hj
        obtain ⟨hlt', hid', -⟩ := h.mapped.lane id j hg
        exact ⟨hlt', hid'⟩
    | none =>
        rw [hg] at hj
        exact h.known id j hj
  · intro j hj hn
    obtain ⟨hfinished, hmute, hmem⟩ := h.gone j hj hn
    refine ⟨(hsame j).1.trans hfinished, ?_, hmem⟩
    unfold Lane.Mute
    rw [(hsame j).2.2]
    exact hmute
  · intro j hj hg
    obtain ⟨hle, heq⟩ := h.live j hj hg
    by_cases hne : j = o
    · subst hne
      refine ⟨hreceived_o.1.trans (Nat.add_le_add_right hle _), fun hopen => ?_⟩
      obtain ⟨hrec, hremote⟩ := heq hopen
      rw [hreceived_o.2 hopen, hrec, hh.flagged]
      refine ⟨rfl, ?_⟩
      dsimp only
      split_ifs with hzero
      · rw [hzero, Nat.add_zero]
        exact hremote
      · simp [hzero]
    · rw [hreceived j hne, hothers j hne, Nat.add_zero, hh.others j hne]
      exact ⟨hle, heq⟩
  · intro j hj hn
    have hne : j ≠ o := fun he => hn (he ▸ hl)
    rw [hreceived j hne, (hsame j).2.1]
    exact h.done j hj hn
  · intro j hj
    have hne : j ≠ o := (lt_of_lt_of_le hlt hj).ne'
    rw [hreceived j hne, hothers j hne]
    exact h.fresh j hj
  · intro j hj hc
    rw [(hsame j).2.1] at hc
    exact hasked (h.asked j hj hc)
  · exact h.order
  · exact h.tombs
  · exact h.distinct

/-- The end of a lane does not turn on its socket. -/
theorem Finished.of_socket {o : ℕ} {told : Bool} {socket : Option Socket}
    (h : Finished o told (s.putLane o { s.lane o with socket := socket }) s') :
    Finished o told s s' := by
  have hlane : (s.putLane o { s.lane o with socket := socket }).lane o =
      { s.lane o with socket := socket } := (Script.lane_putLane s o o _).trans (if_pos rfl)
  have hid : ((s.putLane o { s.lane o with socket := socket }).lane o).id = (s.lane o).id := by
    rw [hlane]
  have hlanes := h.lanes
  have htombs := h.tombs
  have horder := h.order
  obtain ⟨new, hnew, hcount⟩ := h.posted
  rw [hid] at hlanes htombs horder
  refine ⟨hlanes, h.next, htombs, horder, h.arrived, h.closed, h.id.trans hid, ?_, h.finished,
    h.mute, ?_, ⟨new, hnew, fun id => ?_⟩, ?_⟩
  · rw [h.localClosed, hlane]
  · intro j hj
    exact (h.others j hj).trans ((Script.lane_putLane s o j _).trans (if_neg hj))
  · rw [hcount, hid]
  · intro hp
    refine h.plain ⟨hp.webSocket, hp.upBatch, hp.polling, fun j => ?_, fun j => ?_, hp.waiting,
      hp.creating⟩
    · rw [Script.lane_putLane]
      split_ifs
      · exact hp.batch o
      · exact hp.batch j
    · rw [Script.lane_putLane]
      split_ifs
      · exact hp.lanePolling o
      · exact hp.lanePolling j

/-- A lane ends: the app has got its CLOSE, gets it now, or asked for it. -/
theorem Told.finished (h : Told w) (hfair : w.Fair i) {o : ℕ}
    (hlt : o < w.script.nextObject) (hl : w.script.lanes.get (w.script.lane o).id = some o)
    (hopen : w.script.closed = false) (hrelayed : ∀ j, i.relayed j = 0)
    (hf : Finished o (!(w.script.lane o).localClosed && !(w.script.lane o).remoteClosed)
      w.script s') : Told (w.next i s') := by
  obtain ⟨-, -, -, h0, hrange, htomb⟩ := h.mapped.lane _ _ hl
  have hnewest := h.newest _ _ hl
  have hid : ∀ j, (s'.lane j).id = (w.script.lane j).id := by
    intro j
    by_cases hj : j = o
    · rw [hj, hf.id]
    · rw [hf.others j hj]
  have hget : ∀ id, s'.lanes.get id =
      if id = (w.script.lane o).id then none else w.script.lanes.get id := by
    intro id
    rw [hf.lanes, Table.get_del]
  -- no other lane was in the map under the id
  have hstay : ∀ j, j ≠ o → (s'.lanes.get (w.script.lane j).id = some j ↔
      w.script.lanes.get (w.script.lane j).id = some j) := by
    intro j hj
    rw [hget]
    split_ifs with he
    · rw [he, hl]
      simp [hj.symm]
    · exact Iff.rfl
  have hended : (w.next i s').ended = w.ended ++ [(w.script.lane o).id] := by
    have hkeys : w.script.lanes.keys.filter (fun id => (s'.lanes.get id).isNone) =
        [(w.script.lane o).id] := by
      have hmem : (w.script.lane o).id ∈ w.script.lanes.keys :=
        (Table.mem_keys_iff _ _).mpr (by simp [hl])
      have hfilter : ∀ id ∈ w.script.lanes.keys,
          (s'.lanes.get id).isNone = decide (id = (w.script.lane o).id) := by
        intro id hid
        rw [hget]
        split_ifs with he
        · simp [he]
        · simpa [he, Option.ne_none_iff_isSome] using (Table.mem_keys_iff _ _).mp hid
      rw [List.filter_congr hfilter, List.filter_eq,
        List.count_eq_one_of_mem w.script.lanes.keys_nodup hmem]
      rfl
    unfold Watch.next
    dsimp only
    rw [hkeys]
  obtain ⟨new, hnew, hcount⟩ := hf.posted
  have hreceived : ∀ j, j ≠ o → (w.next i s').received j = w.received j := by
    intro j hj
    rw [Watch.received_next hnew]
    split_ifs with hn
    · rw [hcount, if_neg, Nat.add_zero]
      rintro ⟨-, he⟩
      rw [he, hnewest] at hn
      exact hj (Option.some.inj hn).symm
    · rfl
  have hone : (w.next i s').received o ≤ 1 ∧
      ((w.script.lane o).localClosed = true ∨ (w.next i s').received o = 1) := by
    obtain ⟨-, heq⟩ := h.live o hlt hl
    obtain ⟨hrec, hremote⟩ := heq hopen
    have hfew := h.few o
    rw [Watch.received_next hnew, if_pos hnewest, hcount, hrec]
    cases hlocal : (w.script.lane o).localClosed with
    | true => simpa using hfew
    | false =>
        cases hrem : (w.script.lane o).remoteClosed with
        | true =>
            have hpos := hremote.mp hrem
            simp
            omega
        | false =>
            have hzero : w.relayed o = 0 := by
              by_contra hn
              rw [hremote.mpr hn] at hrem
              cases hrem
            simp [hzero]
  have hm : s'.Mapped := by
    refine ⟨fun id j hj => ?_, fun j hj => ?_⟩
    · rw [hget] at hj
      split_ifs at hj with he
      obtain ⟨hlt', hid', hfinished', h0', hrange', htomb'⟩ := h.mapped.lane id j hj
      have hne : j ≠ o := by
        rintro rfl
        exact he hid'.symm
      rw [hf.next, hf.others j hne, hf.tombs]
      refine ⟨hlt', hid', hfinished', h0', hrange', ?_⟩
      rw [Finset.mem_insert]
      rintro (h' | h')
      · exact he h'
      · split_ifs at h'
        · exact htomb' (Finset.mem_of_mem_erase h')
        · exact htomb' h'
    · rw [hf.next] at hj
      have hne : j ≠ o := (lt_of_lt_of_le hlt hj).ne'
      rw [hf.others j hne]
      exact h.mapped.blank j hj
  refine ⟨hm, hf.plain h.plain, ?_, ?_, ?_, hfair.lanes, ?_, ?_, ?_, ?_, ?_, ?_, ?_⟩
  all_goals simp only [Watch.next_script, Watch.next_relayed, Watch.next_newest, hended, hf.next,
    hf.closed, hid, hrelayed, Nat.add_zero]
  · intro id j hj
    rw [hj]
    rfl
  · intro id j hj
    rw [hget] at hj
    split_ifs at hj with he
    · exact h.known id j hj
    · cases hg : w.script.lanes.get id with
      | some j₁ =>
          rw [hg] at hj
          cases hj
          obtain ⟨hlt', hid', -⟩ := h.mapped.lane id j hg
          exact ⟨hlt', hid'⟩
      | none =>
          rw [hg] at hj
          exact h.known id j hj
  · intro j hj hn
    by_cases hne : j = o
    · subst hne
      exact ⟨hf.finished, hf.mute, by simp⟩
    · obtain ⟨hfinished, hmute, hmem⟩ := h.gone j hj fun hg => hn ((hstay j hne).mpr hg)
      rw [hf.others j hne]
      exact ⟨hfinished, hmute, List.mem_append_left _ hmem⟩
  · intro j hj hg
    have hne : j ≠ o := by
      rintro rfl
      rw [hget, if_pos rfl] at hg
      cases hg
    rw [hreceived j hne, hf.others j hne]
    exact h.live j hj ((hstay j hne).mp hg)
  · intro j hj hn
    by_cases hne : j = o
    · subst hne
      rw [hf.localClosed]
      exact ⟨hone.1, fun _ => hone.2⟩
    · rw [hreceived j hne, hf.others j hne]
      exact h.done j hj fun hg => hn ((hstay j hne).mpr hg)
  · intro j hj
    have hne : j ≠ o := (lt_of_lt_of_le hlt hj).ne'
    rw [hreceived j hne]
    exact h.fresh j hj
  · intro j hj hc
    have hc' : (w.script.lane j).localClosed = true := by
      by_cases hne : j = o
      · rw [hne, hf.localClosed] at hc
        rw [hne]
        exact hc
      · rwa [hf.others j hne] at hc
    exact (h.asked j hj hc').mono (by rw [hf.arrived])
  · rw [hf.order, ← RecentRing.rtake_append, ← h.order]
    have hlen : w.script.closedLaneOrder.length ≤ closedLaneLimit := by
      rw [h.order, RecentRing.rtake_length]
      exact min_le_left _ _
    exact (RecentRing.rtake_push (by decide) hlen _).symm
  · rw [hf.tombs, hf.order, h.tombs]
    ext id
    split_ifs with hfull
    · cases horder : w.script.closedLaneOrder with
      | nil => simp
      | cons old rest =>
          have hold : old ∉ rest := by
            have hnodup := h.distinct
            rw [horder] at hnodup
            exact (List.nodup_cons.mp hnodup).1
          simp only [List.toFinset_cons, List.headD_cons, List.tail_cons, Finset.mem_insert,
            Finset.mem_erase, List.mem_toFinset, List.mem_append, List.mem_singleton]
          constructor
          · rintro (rfl | ⟨hne, rfl | hmem⟩)
            · exact .inr rfl
            · exact absurd rfl hne
            · exact .inl hmem
          · rintro (hmem | rfl)
            · refine .inr ⟨?_, .inr hmem⟩
              rintro rfl
              exact hold hmem
            · exact .inl rfl
    · simp [or_comm]
  · rw [hf.order]
    have hnot : (w.script.lane o).id ∉ w.script.closedLaneOrder := by
      rwa [h.tombs, List.mem_toFinset] at htomb
    have hpush : ∀ order : List ℤ, order.Nodup → (∀ id ∈ order, id ∈ w.script.closedLaneOrder) →
        (order ++ [(w.script.lane o).id]).Nodup := by
      intro order hnodup hsub
      refine List.nodup_append.mpr ⟨hnodup, List.nodup_singleton _, ?_⟩
      intro a ha b hb
      rw [List.mem_singleton] at hb
      rintro rfl
      exact hnot (hb ▸ hsub a ha)
    split_ifs
    · exact hpush _ h.distinct.tail fun id hmem => List.mem_of_mem_tail hmem
    · exact hpush _ h.distinct fun id hmem => hmem

/-! ### Every step -/

theorem runWebSocketUp_eq (hplain : s.Plain) : s.runWebSocketUp p = s := by
  unfold Script.runWebSocketUp
  rw [hplain.webSocket]

/-- The loss of a socket, or a page that is closed. -/
theorem laneClosed_cases {o : ℕ} {socket : Socket} (hm : s.Mapped) (hlt : o < s.nextObject)
    (hsocket : socket.readyState = .closed) :
    Grown s ((s.putLane o { s.lane o with socket := some socket }).laneClosed p o) ∨
    s.closed = false ∧ (s.lane o).finished = false ∧
      (s.lanes.get (s.lane o).id = some o →
        Finished o (!(s.lane o).localClosed && !(s.lane o).remoteClosed) s
          ((s.putLane o { s.lane o with socket := some socket }).laneClosed p o)) := by
  have hput : Grown s (s.putLane o { s.lane o with socket := some socket }) := by
    refine touchLane_grown hlt rfl rfl rfl rfl (fun _ _ => ?_) rfl rfl
    intro w' hw'
    cases hw'
    simp [hsocket]
  have hlane : (s.putLane o { s.lane o with socket := some socket }).lane o =
      { s.lane o with socket := some socket } := (Script.lane_putLane s o o _).trans (if_pos rfl)
  generalize hs₁ : s.putLane o { s.lane o with socket := some socket } = s₁ at hput hlane
  have hclosed₁ : s₁.closed = s.closed := by rw [← hs₁]; rfl
  have hlanes₁ : s₁.lanes = s.lanes := by rw [← hs₁]; rfl
  unfold Script.laneClosed
  dsimp only
  rw [hlane, hclosed₁]
  dsimp only
  split_ifs with hend hopened
  · exact .inl hput
  · exact .inl (hput.trans (fail_grown s₁))
  · rw [not_or, Bool.not_eq_true, Bool.not_eq_true] at hend
    refine .inr ⟨hend.1, hend.2, fun hl => ?_⟩
    have hl₁ : s₁.lanes.get (s₁.lane o).id = some o := by
      rw [hlanes₁, hlane]
      exact hl
    have hf := finishWebSocketLane_finished (p := p) (hm.grown hput) hl₁ (hclosed₁.trans hend.1)
      (!(s.lane o).localClosed && !(s.lane o).remoteClosed)
    rw [← hs₁] at hf ⊢
    exact hf.of_socket

/-- **What is kept of the lanes is kept by every input.** -/
theorem Told.step (hmode : p.carrierMode = .webSocketLanes) (h : Told w) (hfair : w.Fair i)
    (hnext : w.script.next p i = some s') : Told (w.next i s') := by
  have hquiet : ∀ {i s'}, w.Fair i → Grown w.script s' → (∀ o, i.relayed o = 0) →
      Told (w.next i s') :=
    fun hfair hg hrelayed => h.grown hfair hg (.inl hrelayed) fun o _ => hrelayed o
  have hmade : ∀ {o}, (w.script.lane o ≠ { id := 0 }) → o < w.script.nextObject :=
    fun ho => h.mapped.lt ho
  have hsocket : ∀ {o socket}, (w.script.lane o).socket = some socket →
      o < w.script.nextObject := by
    intro o socket hs
    apply hmade
    intro hb
    rw [hb] at hs
    cases hs
  have hp := h.plain
  unfold Script.next at hnext
  cases i with
  | message data =>
      cases hnext
      exact hquiet hfair (message_grown h.mapped hmode data) fun _ => rfl
  | close =>
      cases hnext
      exact hquiet hfair (close_grown _) fun _ => rfl
  | sessionAnswered r =>
      dsimp only at hnext
      split at hnext
      · cases hnext
        exact hquiet hfair (sessionAnswered_grown r) fun _ => rfl
      · cases hnext
  | welcomed r =>
      dsimp only at hnext
      split_ifs at hnext
      cases hnext
      refine hquiet hfair (welcomed_grown h.mapped hp hmode fun welcome hr id => ?_) fun _ => rfl
      unfold closings
      rw [List.flatMap_singleton, List.countP_eq_zero]
      intro v hv
      subst hr
      simpa using fun hty => absurd hty (hfair.welcome welcome rfl v hv)
  | resumed =>
      rcases hp.creating with hc | ⟨first, hc⟩ | hc | hc <;> rw [hc] at hnext <;> cases hnext
  | upAnswered r =>
      rw [hp.upBatch] at hnext
      cases hnext
  | polled r =>
      rw [hp.polling] at hnext
      cases hnext
  | laneAnswered o r =>
      dsimp only at hnext
      rw [hp.batch o] at hnext
      cases hnext
  | lanePolled o r =>
      dsimp only at hnext
      rw [hp.lanePolling o] at hnext
      cases hnext
  | webSocketOpen =>
      rw [hp.webSocket] at hnext
      cases hnext
  | webSocketMessage data =>
      rw [hp.webSocket] at hnext
      cases hnext
  | webSocketError =>
      rcases hp.creating with hc | ⟨first, hc⟩ | hc | hc <;> rw [hc] at hnext <;> cases hnext
  | webSocketClose =>
      rw [hp.webSocket] at hnext
      cases hnext
  | webSocketTimer =>
      dsimp only at hnext
      split_ifs at hnext
      cases hnext
      have hg : Grown w.script { w.script with webSocketTimer := false } := .idle rfl
      rw [runWebSocketUp_eq (hg.plain hp)]
      exact hquiet hfair hg fun _ => rfl
  | webSocketTask =>
      dsimp only at hnext
      split_ifs at hnext
      cases hnext
      have hg : Grown w.script { w.script with webSocketTasks := w.script.webSocketTasks - 1 } :=
        .idle rfl
      rw [runWebSocketUp_eq (hg.plain hp)]
      exact hquiet hfair hg fun _ => rfl
  | laneOpen o =>
      dsimp only at hnext
      cases hs : (w.script.lane o).socket with
      | none =>
          rw [hs] at hnext
          cases hnext
      | some socket =>
          rw [hs] at hnext
          dsimp only at hnext
          split_ifs at hnext with hstate
          cases hnext
          exact hquiet hfair (laneOpened_grown (hsocket hs) hs hstate) fun _ => rfl
  | laneMessage o data =>
      dsimp only at hnext
      cases hs : (w.script.lane o).socket with
      | none =>
          rw [hs] at hnext
          cases hnext
      | some socket =>
          rw [hs] at hnext
          dsimp only at hnext
          split_ifs at hnext with hstate
          cases hnext
          obtain ⟨hlt, hl⟩ := h.loud hs (.inr hstate)
          have hothers : ∀ j, j ≠ o → (Input.laneMessage o data).relayed j = 0 := by
            intro j hj
            cases data with
            | none => rfl
            | some data => exact if_neg hj.symm
          rcases laneMessage_heard (p := p) (s := w.script) (o := o) data with ⟨hg, hc⟩ | hh
          · exact h.grown hfair hg (.inr hc) fun j hj => hothers j (lt_of_lt_of_le hlt hj).ne'
          · exact h.heard hfair hlt hl hothers hh
  | laneClose o =>
      dsimp only at hnext
      cases hs : (w.script.lane o).socket with
      | none =>
          rw [hs] at hnext
          cases hnext
      | some socket =>
          rw [hs] at hnext
          dsimp only at hnext
          split_ifs at hnext with hstate
          cases hnext
          have hlt := hsocket hs
          rcases @laneClosed_cases p _ _
            { socket with readyState := .closed } h.mapped hlt rfl with hg | ⟨hopen, hfin, hf⟩
          · exact hquiet hfair hg fun _ => rfl
          · have hl : w.script.lanes.get (w.script.lane o).id = some o := by
              by_contra hn
              rw [(h.gone o hlt hn).1] at hfin
              cases hfin
            exact h.finished hfair hlt hl hopen (fun _ => rfl) (hf hl)
  | laneTimer o =>
      dsimp only at hnext
      split_ifs at hnext with htimer
      cases hnext
      have hlt : o < w.script.nextObject := by
        apply hmade
        intro hb
        rw [hb] at htimer
        simp at htimer
      have hg : Grown w.script (w.script.putLane o { w.script.lane o with timer := false }) :=
        touchLane_grown hlt rfl rfl rfl rfl (fun _ h => h) rfl rfl
      exact hquiet hfair (hg.trans (runWebSocketLaneUp_grown hlt)) fun _ => rfl
  | laneTask o =>
      dsimp only at hnext
      split_ifs at hnext with htasks
      cases hnext
      have hlt : o < w.script.nextObject := by
        apply hmade
        intro hb
        rw [hb] at htasks
        exact htasks rfl
      have hg : Grown w.script
          (w.script.putLane o { w.script.lane o with tasks := (w.script.lane o).tasks - 1 }) :=
        touchLane_grown hlt rfl rfl rfl rfl (fun _ h => h) rfl rfl
      exact hquiet hfair (hg.trans (runWebSocketLaneUp_grown hlt)) fun _ => rfl
  | transmitted lane amount =>
      cases lane with
      | none =>
          rw [hp.webSocket] at hnext
          cases hnext
      | some o =>
          cases hs : (w.script.lane o).socket with
          | none =>
              simp only [hs] at hnext
              cases hnext
          | some socket =>
              simp only [hs] at hnext
              cases hnext
              refine hquiet hfair (touchLane_grown (hsocket hs) rfl rfl rfl rfl ?_ rfl rfl)
                fun _ => rfl
              intro _ hmute w' hw'
              cases hw'
              exact hmute socket hs

theorem Told.start : Told {} where
  mapped := ⟨fun id o h => absurd h (by simp), fun o _ => rfl⟩
  plain := ⟨rfl, rfl, rfl, fun _ => rfl, fun _ => rfl, by simp, .inl rfl⟩
  newest _ _ h := by cases h
  known _ _ h := by cases h
  gone o h := absurd h (Nat.not_lt_zero o)
  few _ := Nat.zero_le _
  live o h := absurd h (Nat.not_lt_zero o)
  done o h := absurd h (Nat.not_lt_zero o)
  fresh _ _ := ⟨rfl, rfl⟩
  asked o h := absurd h (Nat.not_lt_zero o)
  order := rfl
  tombs := rfl
  distinct := List.nodup_nil

theorem Watched.told (hmode : p.carrierMode = .webSocketLanes) (h : Watched p w) : Told w := by
  induction h with
  | start => exact .start
  | step _ hfair hnext ih => exact ih.step hmode hfair hnext

/-- **Each websocket lane ends exactly once for the app.**  It receives at most one CLOSE for a
lane, and for one that has left the map of an open page exactly one, unless it queued a CLOSE
for the lane itself.  The id of such a lane joins `ended`, of which the last 4096 are the closed
list; an OPEN for an id of the list fails the page, and DATA, WINDOW and CLOSE for an id
without a lane are dropped. -/
theorem lane_ends_once (hmode : p.carrierMode = .webSocketLanes) (h : Watched p w) :
    (∀ o, o < w.script.nextObject → w.received o ≤ 1) ∧
    (w.script.closed = false → ∀ o, o < w.script.nextObject →
      w.script.lanes.get (w.script.lane o).id ≠ some o →
      (w.script.lane o).localClosed = true ∨ w.received o = 1) ∧
    (∀ o, o < w.script.nextObject → (w.script.lane o).localClosed = true →
      w.script.Asked (w.script.lane o).id) ∧
    (∀ o, o < w.script.nextObject → w.script.lanes.get (w.script.lane o).id ≠ some o →
      (w.script.lane o).id ∈ w.ended) ∧
    (∀ value rest, value.id ∈ w.ended.rtake closedLaneLimit → value.type = 1 →
      Script.queueValues p Script.queueWebSocketLane w.script (value :: rest) = w.script.fail) ∧
    (∀ value rest, w.script.lanes.get value.id = none → Script.late value →
      Script.queueValues p Script.queueWebSocketLane w.script (value :: rest) =
        Script.queueValues p Script.queueWebSocketLane w.script rest) := by
  have ht := h.told hmode
  refine ⟨fun o ho => ?_, fun hopen o ho hn => (ht.done o ho hn).2 hopen, ht.asked,
    fun o ho hn => (ht.gone o ho hn).2.2, fun value rest hmem hty => ?_,
    fun value rest hnone hlate => ?_⟩
  · by_cases hl : w.script.lanes.get (w.script.lane o).id = some o
    · exact (ht.live o ho hl).1.trans (ht.few o)
    · exact (ht.done o ho hl).1
  · have hclosed : value.id ∈ w.script.closedLanes := by
      rw [ht.tombs, ht.order, List.mem_toFinset]
      exact hmem
    have hnone : w.script.lanes.get value.id = none := by
      by_contra hn
      obtain ⟨o, ho⟩ := Option.ne_none_iff_exists'.mp hn
      exact (ht.mapped.lane _ _ ho).2.2.2.2.2 hclosed
    have hlate : ¬ Script.late value := by
      unfold Script.late
      omega
    have herror : w.script.queueWebSocketLane p value = .error "closed lane was reused" := by
      unfold Script.queueWebSocketLane
      rw [hnone]
      dsimp only
      rw [if_neg hlate, if_pos (.inr hclosed)]
    rw [Script.queueValues, herror]
  · have hok : w.script.queueWebSocketLane p value = .ok w.script := by
      unfold Script.queueWebSocketLane
      rw [hnone]
      dsimp only
      rw [if_pos hlate]
    rw [Script.queueValues, hok]

/-- The watched page after the inputs, if each of them can happen. -/
def Watch.run (p : Params) : Watch → List Input → Option Watch
  | w, [] => some w
  | w, i :: rest => (w.script.next p i).bind fun s => run p (w.next i s) rest

theorem Watched.few (h : Watched p w) (o : ℕ) : w.relayed o ≤ 1 := by
  cases h with
  | start => exact Nat.zero_le _
  | step _ hfair _ => exact hfair.lanes o

/-- Inputs with which the relay sends no CLOSE. -/
theorem Watched.run {w' : Watch} {inputs : List Input} (h : Watched p w)
    (hquiet : ∀ i ∈ inputs, (∀ o, i.relayed o = 0) ∧
      ∀ welcome, i = .welcomed (some welcome) → ∀ v ∈ framesOf welcome, v.type ≠ 3)
    (hrun : w.run p inputs = some w') : Watched p w' := by
  induction inputs generalizing w with
  | nil =>
      cases hrun
      exact h
  | cons i rest ih =>
      obtain ⟨s, hnext, hrest⟩ := Option.bind_eq_some_iff.mp hrun
      obtain ⟨hrelayed, hwelcome⟩ := hquiet i List.mem_cons_self
      refine ih (h.step ⟨fun o => ?_, hwelcome⟩ hnext)
        (fun j hj => hquiet j (List.mem_cons_of_mem _ hj)) hrest
      rw [hrelayed, Nat.add_zero]
      exact h.few o

/-- The socket of a lane is lost after its OPEN: the app gets a CLOSE from the page. -/
theorem lane_ends_once_lost : ∃ w, Watched { carrierMode := .webSocketLanes, batchLimit := 16 } w ∧
    w.script.closed = false ∧ w.script.lanes.get 5 = none ∧ w.ended = [5] ∧ w.received 0 = 1 ∧
    (w.script.lane 0).localClosed = false := by
  let p : Params := { carrierMode := .webSocketLanes, batchLimit := 16 }
  let welcome : Bytes := [0, 0, 0, 0, 0, 0, 0, 0]
  let inputs : List Input :=
    [.message [0], .sessionAnswered (some ⟨200, "websocket-lanes", "t", "0"⟩),
    .welcomed (some welcome), .message [1, 0, 0, 5, 0, 0, 0, 0], .laneOpen 0, .laneClose 0]
  have hrun : (Watch.run p {} inputs).map (fun w => (w.script.closed, w.script.nextObject,
      (w.script.lanes.get 5).isNone, w.ended, (w.script.lane 0).id,
      (w.script.lane 0).localClosed)) = some (false, 1, true, [5], 5, false) := by
    decide +kernel
  have hframes : framesOf welcome = [⟨0, 0, welcome⟩] := by decide +kernel
  obtain ⟨w, hw, hval⟩ := Option.map_eq_some_iff.mp hrun
  obtain ⟨hopen, hobjects, hnone, hended, hid, hlocal⟩ := by simpa only [Prod.mk.injEq] using hval
  have hnone' : w.script.lanes.get 5 = none := Option.isNone_iff_eq_none.mp hnone
  have hwatched : Watched p w := by
    refine Watched.start.run (fun i hi => ?_) hw
    simp only [inputs, List.mem_cons, List.not_mem_nil, or_false] at hi
    rcases hi with rfl | rfl | rfl | rfl | rfl | rfl
    all_goals refine ⟨fun _ => rfl, fun body hbody v hv => ?_⟩
    all_goals cases hbody
    rw [hframes, List.mem_singleton] at hv
    rw [hv]
    decide
  obtain ⟨-, hone, -⟩ := lane_ends_once rfl hwatched
  have hdone := hone hopen 0 (by omega) (by rw [hid, hnone']; simp)
  rw [hlocal] at hdone
  exact ⟨w, hwatched, hopen, hnone', hended, hdone.resolve_left (by simp), hlocal⟩

end Page

end TproxyServer
