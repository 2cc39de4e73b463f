import TproxyServer.SectionChanges

/-! # The invariant of a downlink

Queued entries are encoded frames, `pendingWindows` points at WINDOW frames of their stream, a
parked poll has nothing to acknowledge, and what is acknowledged is not charged for.  It holds
of every queue a session has, those of lanes that are gone included. -/

namespace TproxyServer

variable {s s' : Session} {t : List Event} {limits : Limits} {carrier : CarrierMode}

/-! ### Queued frames -/

/-- The payload of a queued frame. -/
def QueuedFrame.payload (f : QueuedFrame) : Bytes := f.encoded.drop headerSize

/-- A queued frame is the encoding of its type, stream and payload. -/
structure QueuedFrame.Well (f : QueuedFrame) : Prop where
  encoded : f.encoded = encode f.typeCode f.streamID f.payload
  window : f.typeCode = .window → f.payload.length = 4

theorem QueuedFrame.Well.length {f : QueuedFrame} (h : f.Well) :
    f.encoded.length = headerSize + f.payload.length := by
  conv_lhs => rw [h.encoded]
  exact encode_length _ _ _

theorem QueuedFrame.Well.new {ty : FrameType} {id cost : ℕ} {payload : Bytes}
    (h : ty = .window → payload.length = 4) :
    QueuedFrame.Well ⟨encode ty id payload, ty, id, cost⟩ :=
  ⟨rfl, h⟩

theorem QueuedFrame.Well.extend_payload {f : QueuedFrame} (h : f.Well) (payload : Bytes) :
    (f.extend payload).payload = f.payload ++ payload := by
  have he := h.encoded
  generalize hp : f.payload = p at he
  unfold QueuedFrame.extend QueuedFrame.payload
  dsimp only
  rw [he]
  rfl

theorem QueuedFrame.Well.extend {f : QueuedFrame} (h : f.Well) (payload : Bytes)
    (hdata : f.typeCode = .data) : (f.extend payload).Well := by
  refine ⟨?_, fun hw => absurd (hdata.symm.trans hw) (by decide)⟩
  rw [h.extend_payload]
  have he := h.encoded
  generalize hp : f.payload = p at he
  have hlength : (encode f.typeCode f.streamID p ++ payload).length - headerSize =
      (p ++ payload).length := by
    rw [List.length_append, encode_length, List.length_append]
    omega
  unfold QueuedFrame.extend
  dsimp only
  rw [he, hlength]
  rfl

theorem QueuedFrame.Well.setAmount_payload {f : QueuedFrame} (h : f.Well)
    (hw : f.typeCode = .window) (total : ℕ) : (f.setAmount total).payload = putUint32 total := by
  have hlength := h.window hw
  have he := h.encoded
  generalize hp : f.payload = p at he hlength
  unfold QueuedFrame.setAmount QueuedFrame.payload
  dsimp only
  rw [he]
  obtain ⟨a, b, c, d, rfl⟩ : ∃ a b c d, p = [a, b, c, d] := List.length_eq_four.mp hlength
  rfl

theorem QueuedFrame.Well.setAmount {f : QueuedFrame} (h : f.Well) (hw : f.typeCode = .window)
    (total : ℕ) : (f.setAmount total).Well := by
  refine ⟨?_, fun _ => by rw [h.setAmount_payload hw]; rfl⟩
  rw [h.setAmount_payload hw]
  have hlength := h.window hw
  have he := h.encoded
  generalize hp : f.payload = p at he hlength
  unfold QueuedFrame.setAmount
  dsimp only
  rw [he]
  obtain ⟨a, b, c, d, rfl⟩ : ∃ a b c d, p = [a, b, c, d] := List.length_eq_four.mp hlength
  rfl

/-! ### A single downlink -/

/-- The invariant of a downlink. -/
structure Downlink.Well (d : Downlink) : Prop where
  frames : ∀ f ∈ d.pendingFrames, f.Well
  indexed : ∀ windows id index, d.pendingWindows = some windows → windows.get id = some index →
    ∃ f, d.pendingFrames[index]? = some f ∧ f.typeCode = .window ∧ f.streamID = id
  parked : d.superseded ≠ none → d.unacked = []
  acknowledged : d.unacked = [] → d.unackedCost = 0 ∧ d.unackedItems = 0

theorem Downlink.Well.new : Downlink.Well {} where
  frames := by simp
  indexed := by
    rintro windows id index hw hi
    cases hw
    rw [Table.get_nil] at hi
    cases hi
  parked := fun _ => rfl
  acknowledged := fun _ => ⟨rfl, rfl⟩

/-- Only the queued frames and their index matter where the rest is untouched. -/
theorem Downlink.Well.requeue {d d' : Downlink} (h : d.Well)
    (hframes : ∀ f ∈ d'.pendingFrames, f.Well)
    (hindexed : ∀ windows id index, d'.pendingWindows = some windows →
      windows.get id = some index →
        ∃ f, d'.pendingFrames[index]? = some f ∧ f.typeCode = .window ∧ f.streamID = id)
    (hsuperseded : d'.superseded = d.superseded) (hunacked : d'.unacked = d.unacked)
    (hcost : d'.unackedCost = d.unackedCost) (hitems : d'.unackedItems = d.unackedItems) :
    d'.Well where
  frames := hframes
  indexed := hindexed
  parked := by rw [hsuperseded, hunacked]; exact h.parked
  acknowledged := by rw [hunacked, hcost, hitems]; exact h.acknowledged

/-- An indexed frame is a WINDOW frame of its stream. -/
theorem Downlink.Well.indexed_frame {d : Downlink} (h : d.Well) {ty : FrameType} {id index : ℕ}
    {f : QueuedFrame} (hi : d.windowIndex ty id = some index)
    (hf : d.pendingFrames[index]? = some f) : f.typeCode = .window ∧ f.streamID = id := by
  unfold Downlink.windowIndex at hi
  split_ifs at hi
  obtain ⟨windows, hw, hget⟩ := Option.bind_eq_some_iff.mp hi
  obtain ⟨g, hg, htype, hid⟩ := h.indexed windows id index hw hget
  rw [hf] at hg
  cases hg
  exact ⟨htype, hid⟩

theorem Downlink.extendable_eq {d : Downlink} {ty : FrameType} {id : ℕ} {payload : Bytes}
    {last : QueuedFrame} (h : d.extendable limits ty id payload = some last) :
    d.pendingFrames = d.pendingFrames.dropLast ++ [last] ∧ last.typeCode = .data ∧
      ty = .data ∧ last.streamID = id := by
  obtain ⟨hlast, hcond⟩ := Option.filter_eq_some_iff.mp h
  simp only [decide_eq_true_eq] at hcond
  exact ⟨(List.dropLast_append_getLast? last (Option.mem_def.mpr hlast)).symm, hcond.1,
    hcond.2.1, hcond.2.2.1⟩

/-- Taking in a frame keeps the invariant. -/
theorem Enqueue.well {d d' : Downlink} {ty : FrameType} {id : ℕ} {payload : Bytes}
    (h : Enqueue limits d ty id payload d') (hd : d.Well)
    (hpayload : ty = .window → payload.length = 4) : d'.Well := by
  cases h with
  | @merge id index payload f hindex hf htotal =>
      obtain ⟨hw, hid⟩ := hd.indexed_frame hindex hf
      have hmem : f ∈ d.pendingFrames := List.mem_of_getElem? hf
      refine hd.requeue (fun g hg => ?_) (fun windows i k hwin hk => ?_) rfl rfl rfl rfl
      · rcases List.mem_or_eq_of_mem_set hg with hg | rfl
        · exact hd.frames g hg
        · exact (hd.frames f hmem).setAmount hw _
      · obtain ⟨g, hg, htype, hi⟩ := hd.indexed windows i k hwin hk
        by_cases hki : index = k
        · subst hki
          rw [hf] at hg
          cases hg
          have hlt := (List.getElem?_eq_some_iff.mp hf).1
          exact ⟨_, List.getElem?_set_self hlt, hw, hi⟩
        · exact ⟨g, by rw [← hg]; exact List.getElem?_set_ne hki, htype, hi⟩
  | @extend id payload last hlast =>
      obtain ⟨heq, hdata, -, -⟩ := Downlink.extendable_eq hlast
      have hmem : last ∈ d.pendingFrames := by rw [heq]; simp
      refine hd.requeue (fun g hg => ?_) (fun windows i k hwin hk => ?_) rfl rfl rfl rfl
      · rcases List.mem_append.mp hg with hg | hg
        · exact hd.frames g (List.mem_of_mem_dropLast hg)
        · cases List.mem_singleton.mp hg
          exact (hd.frames last hmem).extend payload hdata
      · obtain ⟨g, hg, htype, hi⟩ := hd.indexed windows i k hwin hk
        have hlt := (List.getElem?_eq_some_iff.mp hg).1
        have hk' : k < d.pendingFrames.dropLast.length := by
          by_contra hnot
          rw [heq, List.getElem?_append_right (by omega)] at hg
          rw [heq, List.length_append, List.length_singleton] at hlt
          have h0 : k - d.pendingFrames.dropLast.length = 0 := by omega
          rw [h0] at hg
          cases hg
          rw [hdata] at htype
          cases htype
        rw [heq, List.getElem?_append_left hk'] at hg
        exact ⟨g, (List.getElem?_append_left hk').trans hg, htype, hi⟩
  | @append ty id payload windows hmerge hextend hwindows =>
      refine hd.requeue (fun g hg => ?_) (fun w i k hwin hk => ?_) rfl rfl rfl rfl
      · rcases List.mem_append.mp hg with hg | hg
        · exact hd.frames g hg
        · cases List.mem_singleton.mp hg
          exact .new hpayload
      · have hold : ∀ w', d.pendingWindows = some w' → w'.get i = some k →
            ∃ f, (d.pendingFrames ++ [(⟨encode ty id payload, ty, id,
              (encode ty id payload).length + queueItemCost⟩ : QueuedFrame)])[k]? = some f ∧
              f.typeCode = .window ∧ f.streamID = i := by
          intro w' hw' hk'
          obtain ⟨g, hg, htype, hi⟩ := hd.indexed w' i k hw' hk'
          have hlt := (List.getElem?_eq_some_iff.mp hg).1
          exact ⟨g, (List.getElem?_append_left hlt).trans hg, htype, hi⟩
        have hwin' : windows = some w := hwin
        subst hwin'
        split_ifs at hwindows with hty
        · obtain ⟨w₀, hw₀, he⟩ := hwindows
          cases he
          rw [Table.get_put] at hk
          split_ifs at hk with hid
          · cases hk
            subst hid hty
            exact ⟨_, List.getElem?_concat_length, rfl, rfl⟩
          · exact hold w₀ hw₀ hk
        · exact hold w hwindows.symm hk

theorem Downlink.Well.signal {d : Downlink} (h : d.Well) : d.signal.Well :=
  h.requeue h.frames h.indexed rfl rfl rfl rfl

theorem Downlink.Well.attend {d : Downlink} (h : d.Well) (active : Bool)
    (superseded : Option ℕ) (notify : Bool)
    (hs : superseded ≠ none → superseded = d.superseded ∨ d.unacked = []) :
    Downlink.Well { d with downActive := active, superseded, notify } where
  frames := h.frames
  indexed := h.indexed
  parked := by
    intro hne
    rcases hs hne with he | he
    · exact h.parked (he ▸ hne)
    · exact he
  acknowledged := h.acknowledged

theorem Downlink.Well.drop {d : Downlink} : d.drop.Well where
  frames := by simp [Downlink.drop, Downlink.signal]
  indexed := by simp [Downlink.drop, Downlink.signal]
  parked := fun _ => rfl
  acknowledged := fun _ => ⟨rfl, rfl⟩

theorem Downlink.Well.acknowledge {d : Downlink} (h : d.Well) : d.acknowledge.Well where
  frames := h.frames
  indexed := h.indexed
  parked := fun _ => rfl
  acknowledged := fun _ => ⟨rfl, rfl⟩

/-! ### Taking a batch -/

theorem batchCount_pos {bytes : ℕ} {frames : List QueuedFrame} (h : frames ≠ []) :
    0 < batchCount bytes maxBatchFrames 0 0 frames := by
  cases frames with
  | nil => exact absurd rfl h
  | cons f rest =>
      unfold maxBatchFrames batchCount
      simp

theorem batchCount_le (bytes room count size : ℕ) (frames : List QueuedFrame) :
    batchCount bytes room count size frames ≤ frames.length := by
  induction frames generalizing room count size with
  | nil => cases room <;> exact Nat.zero_le _
  | cons f rest ih =>
      cases room with
      | zero => exact Nat.zero_le _
      | succ room =>
          unfold batchCount
          split_ifs
          · exact Nat.zero_le _
          · exact Nat.succ_le_succ (ih _ _ _)

/-- Forgetting only deletes entries, and every entry of a frame that leaves. -/
theorem get_forgetWindows {start : ℕ} {frames : List QueuedFrame} {windows : Table ℕ ℕ}
    {id index : ℕ} (h : (forgetWindows start frames windows).get id = some index) :
    windows.get id = some index ∧ ∀ k f, frames[k]? = some f → f.typeCode = .window →
      f.streamID = id → index ≠ start + k := by
  induction frames generalizing start windows with
  | nil => exact ⟨h, (by simp)⟩
  | cons f rest ih =>
      unfold forgetWindows at h
      obtain ⟨hget, hrest⟩ := ih h
      have hkept : windows.get id = some index ∧
          (f.typeCode = .window → f.streamID = id → index ≠ start) := by
        split_ifs at hget with hf
        · rw [Table.get_del] at hget
          split_ifs at hget with hid
          exact ⟨hget, fun _ he => absurd he.symm hid⟩
        · refine ⟨hget, fun htype hid hi => hf ⟨htype, ?_⟩⟩
          rw [hid, hget, hi]
          rfl
      refine ⟨hkept.1, fun k g hg htype hid => ?_⟩
      cases k with
      | zero =>
          cases hg
          exact hkept.2 htype hid
      | succ k =>
          have := hrest k g hg htype hid
          omega

/-- The queue without its first frames, under an index that has been moved with it. -/
theorem Downlink.Well.takeBatch {d : Downlink} (h : d.Well) (limits : Limits) (cursor : ℕ)
    (hframes : d.pendingFrames ≠ []) :
    ((d.takeBatch limits).2.deliver (d.takeBatch limits).1 cursor).Well := by
  have hpos := @batchCount_pos limits.carrierBatchBytes _ hframes
  unfold Downlink.takeBatch Downlink.deliver Downlink.leave
  dsimp only
  generalize hcount : batchCount limits.carrierBatchBytes maxBatchFrames 0 0
    d.pendingFrames = count at hpos
  refine ⟨fun f hf => h.frames f (List.mem_of_mem_drop hf), ?_, fun hn => absurd rfl hn, ?_⟩
  · rintro windows id index hw hi
    obtain ⟨w, hw', rfl⟩ := Option.map_eq_some_iff.mp hw
    rw [Table.get_mapValues] at hi
    obtain ⟨k, hk, rfl⟩ := Option.map_eq_some_iff.mp hi
    obtain ⟨hget, hleft⟩ := get_forgetWindows hk
    obtain ⟨f, hf, htype, hid⟩ := h.indexed w id k hw' hget
    have hge : count ≤ k := by
      by_contra hlt
      exact hleft k f (by rw [List.getElem?_take_of_lt (by omega)]; exact hf) htype hid
        (by omega)
    refine ⟨f, ?_, htype, hid⟩
    dsimp only
    rw [List.getElem?_drop, Nat.add_sub_cancel' hge]
    exact hf
  · intro hnil
    obtain ⟨f, rest, hcons⟩ := List.exists_cons_of_ne_nil hframes
    have hmem : f ∈ d.pendingFrames.take count := by
      rw [hcons]
      cases count with
      | zero => omega
      | succ n => simp
    have hlength := (h.frames f (List.mem_of_mem_take hmem)).length
    have hencoded := List.flatMap_eq_nil_iff.mp hnil f hmem
    rw [hencoded] at hlength
    simp [headerSize] at hlength
    omega

/-! ### All downlinks of a session -/

/-- `P` holds of every downlink that a session knows of. -/
structure Session.Downlinks (P : Downlink → Prop) (s : Session) : Prop where
  own : P s.down
  lanes : ∀ id l, s.carrierLanes.get id = some l → P l.down
  released : ∀ object l, s.releasedLanes.get object = some l → P l.down

namespace Session.Downlinks

variable {P : Downlink → Prop}

theorem queue (h : s.Downlinks P) (h0 : P {}) (q : QueueRef) : P (s.queue q) := by
  cases q with
  | session => exact h.own
  | lane id object =>
      simp only [Session.queue]
      cases ha : s.attached id object with
      | some l => exact h.lanes id l (Session.attached_eq_some.mp ha).1
      | none =>
          cases hr : s.releasedLanes.get object with
          | none => exact h0
          | some l => exact h.released object l hr

/-- Only the queues count. -/
theorem congr (h : s.Downlinks P) (hdown : s'.down = s.down)
    (hlanes : s'.carrierLanes = s.carrierLanes) (hreleased : s'.releasedLanes = s.releasedLanes) :
    s'.Downlinks P :=
  ⟨hdown ▸ h.own, hlanes ▸ h.lanes, hreleased ▸ h.released⟩

theorem modifyLane (h : s.Downlinks P) {id object : ℕ} {f : CarrierLane → CarrierLane}
    (hf : ∀ l, P l.down → P (f l).down) : (s.modifyLane id object f).Downlinks P := by
  refine ⟨?_, fun i l hl => ?_, fun i l hl => ?_⟩
  · obtain ⟨lanes, released, he⟩ := s.modifyLane_eq id object f
    rw [he]
    exact h.own
  · rw [Session.modifyLane_lanes] at hl
    obtain ⟨l₀, hl₀, rfl⟩ := Option.map_eq_some_iff.mp hl
    split_ifs
    · exact hf _ (h.lanes i l₀ hl₀)
    · exact h.lanes i l₀ hl₀
  · rw [Session.modifyLane_released] at hl
    split_ifs at hl
    · obtain ⟨l₀, hl₀, rfl⟩ := Option.map_eq_some_iff.mp hl
      exact hf _ (h.released i l₀ hl₀)
    · exact h.released i l hl

theorem setQueue (h : s.Downlinks P) {d : Downlink} (hd : P d) (q : QueueRef) :
    (s.setQueue q d).Downlinks P := by
  cases q with
  | session => exact ⟨hd, h.lanes, h.released⟩
  | lane id object => exact h.modifyLane fun _ _ => hd

theorem putLane (h : s.Downlinks P) {id : ℕ} {l : CarrierLane} (hl : P l.down) :
    (s.putLane id l).Downlinks P := by
  refine ⟨h.own, fun i l' hl' => ?_, h.released⟩
  rw [Session.putLane_lanes, Table.get_put] at hl'
  split_ifs at hl' with hi
  · cases hl'
    exact hl
  · exact h.lanes i l' hl'

/-- A lane leaves the table and is kept with the released ones. -/
theorem delLane (h : s.Downlinks P) {id : ℕ} {l : CarrierLane} (hl : P l.down) :
    (s.delLane id l).Downlinks P := by
  refine ⟨h.own, fun i l' hl' => ?_, fun object l' hl' => ?_⟩
  · rw [Session.delLane_lanes, Table.get_del] at hl'
    split_ifs at hl'
    exact h.lanes i l' hl'
  · have hput : (s.releasedLanes.put l.object l).get object = some l' := hl'
    rw [Table.get_put] at hput
    split_ifs at hput
    · cases hput
      exact hl
    · exact h.released object l' hput

end Session.Downlinks

theorem QueueResult.downlinks {ty : FrameType} {id : ℕ} {payload : Bytes} {es : List Event}
    {ok : Bool} (h : QueueResult s ty id payload es s' ok) (hs : s.Downlinks Downlink.Well)
    (hpayload : ty = .window → payload.length = 4) : s'.Downlinks Downlink.Well := by
  cases h with
  | refused => exact hs
  | @accepted q d cost items notify hq h =>
      have hs' : (s.setPending cost items notify).Downlinks Downlink.Well := hs.congr rfl rfl rfl
      exact hs'.setQueue (h.well (hs.queue .new q) hpayload) q

/-- **Every change keeps every downlink well formed.** -/
theorem Change.downlinks {scope : Scope} {σ σ' : Traced} (h : Change scope σ σ')
    (hs : σ.session.Downlinks Downlink.Well) : σ'.session.Downlinks Downlink.Well := by
  have hq := fun q => hs.queue .new q
  cases h with
  | drained _ _ _ _ _ _ h _ => exact h.downlinks (hs.congr rfl rfl rfl) fun _ => rfl
  | read _ _ _ _ h _ => exact h.downlinks (hs.congr rfl rfl rfl) (by simp)
  | queueClose _ _ _ h _ _ _ => exact h.downlinks hs (by simp)
  | @rememberFull s t id old _ _ _ _ _ _ =>
      have hold : s.Downlinks Downlink.Well := hs
      cases hl : s.carrierLanes.get old with
      | none =>
          exact hold.congr rfl (Table.del_eq_self _ hl) rfl
      | some l =>
          have hdel : (s.delLane old l.drop).Downlinks Downlink.Well := hold.delLane .drop
          exact ⟨hdel.own, hdel.lanes, hdel.released⟩
  | createLane _ _ _ _ => exact (hs.putLane .new).congr rfl rfl rfl
  | touchLane hl _ hdown => exact hs.putLane (by rw [hdown]; exact hs.lanes _ _ hl)
  | dropLane => exact hs.delLane .drop
  | @attend s t q _ active superseded notify hsup _ =>
      exact hs.setQueue ((hq q).attend active superseded notify hsup) q
  | acknowledge => exact hs.setQueue (hq _).acknowledge _
  | @deliver s t q cursor mine _ _ hframes _ =>
      exact hs.setQueue ((hq q).takeBatch s.limits cursor hframes) q
  | @close s t =>
      refine ⟨.drop, fun id l hl => ?_, hs.released⟩
      have hl' : (s.carrierLanes.mapValues CarrierLane.drop).get id = some l := hl
      rw [Table.get_mapValues] at hl'
      obtain ⟨l₀, -, rfl⟩ := Option.map_eq_some_iff.mp hl'
      exact .drop
  | laneUplink _ id object f _ hdown _ =>
      exact hs.modifyLane fun l h => by rw [hdown]; exact h
  | _ => exact hs.congr rfl rfl rfl

theorem Changes.downlinks {scope : Scope} {σ σ' : Traced} (h : Changes scope σ σ')
    (hs : σ.session.Downlinks Downlink.Well) : σ'.session.Downlinks Downlink.Well :=
  h.invariant (fun hc => hc.downlinks) hs

theorem newSession_downlinks (limits : Limits) (carrier : CarrierMode) :
    (newSession limits carrier).Downlinks Downlink.Well := by
  unfold newSession
  split_ifs
  · refine ⟨.new, fun id l hl => ?_, (by simp)⟩
    have hput : (Table.nil.put 0 ({ object := 0 } : CarrierLane)).get id = some l := hl
    rw [Table.get_put] at hput
    split_ifs at hput
    · cases hput
      exact .new
    · cases hput
  · exact ⟨.new, (by simp), (by simp)⟩

/-- **Every downlink of a reachable session is well formed.** -/
theorem Reachable.downlinks {sha256 : Bytes → Bytes} {σ : Traced}
    (h : Reachable sha256 limits carrier σ) : σ.session.Downlinks Downlink.Well :=
  h.invariant (newSession_downlinks limits carrier) fun hc _ hs => hc.downlinks hs

end TproxyServer
