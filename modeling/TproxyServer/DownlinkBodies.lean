import TproxyServer.Downlinks
import TproxyServer.BackendTraffic
import TproxyServer.Configuration
import TproxyServer.PageFrames

/-! # What the client is sent

Every queued frame is one that a client takes: DATA that is not empty, an empty CLOSE or a
WINDOW with an amount, of a stream that the queue serves.  A batch is some of them, encoded, and
the page and the relay's own parser accept it (`delivered_acceptable`).

How long a DATA frame gets depends on two bounds: `max_frame_payload` where payloads are joined,
and the length of what one read of the backend hands over. -/

namespace TproxyServer

open Interaction Prog

variable {limits : Limits} {carrier : CarrierMode} {scope : Scope} {s s' : Session}
  {t es : List Event} {bound : ℕ} {sha256 : Bytes → Bytes} {serves : ℕ → Prop}

/-! ### Frames of the relay -/

/-- A frame that the relay sends; `bound` bounds the payload of DATA. -/
structure Frame.FromRelay (bound : ℕ) (f : Frame) : Prop where
  id : f.streamID ≠ 0 ∧ f.streamID ≤ maxStreamID
  shape : f.type = .data ∧ f.payload ≠ [] ∧ f.payload.length ≤ bound ∨
    f.type = .close ∧ f.payload = [] ∨
    f.type = .window ∧ ∃ amount, 0 < amount ∧ amount ≤ maxUint32 ∧
      f.payload = windowPayload amount

/-- A queued entry as a frame. -/
def QueuedFrame.frame (f : QueuedFrame) : Frame := ⟨f.typeCode, f.streamID, f.payload⟩

/-- The streams that a queue serves. -/
def QueueRef.Serves : QueueRef → ℕ → Prop
  | .session => fun _ => True
  | .lane id _ => fun i => i = id

/-- A body that was put together from queued frames. -/
structure BodyOf (limits : Limits) (bound : ℕ) (serves : ℕ → Prop) (body : Bytes)
    (frames : List Frame) : Prop where
  encoded : body = encodeAll frames
  nonempty : 1 ≤ frames.length
  count : frames.length ≤ maxBatchFrames
  frames : ∀ f ∈ frames, f.FromRelay bound ∧ serves f.streamID
  size : body.length ≤ max limits.carrierBatchBytes (headerSize + max 4 bound)

/-- What a downlink holds for its client. -/
structure Downlink.Sendable (limits : Limits) (bound : ℕ) (serves : ℕ → Prop) (d : Downlink) :
    Prop where
  frames : ∀ f ∈ d.pendingFrames, f.frame.FromRelay bound ∧ serves f.streamID
  unacked : d.unacked ≠ [] → ∃ frames, BodyOf limits bound serves d.unacked frames

/-- What a session holds for its client; nothing is left in a lane that is gone. -/
structure Session.Sendable (bound : ℕ) (s : Session) : Prop where
  own : s.down.Sendable s.limits bound (QueueRef.Serves .session)
  lanes : ∀ id l, s.carrierLanes.get id = some l →
    l.down.Sendable s.limits bound (QueueRef.Serves (.lane id l.object))
  released : ∀ object l, s.releasedLanes.get object = some l →
    l.down.pendingFrames = [] ∧ l.down.unacked = []

theorem Downlink.Sendable.empty {d : Downlink} (hframes : d.pendingFrames = [])
    (hunacked : d.unacked = []) : d.Sendable limits bound serves where
  frames := by simp [hframes]
  unacked h := absurd hunacked h

/-! ### One queue -/

section

variable {d d' : Downlink} {ty : FrameType} {id : ℕ} {payload : Bytes}

/-- A queue takes in a frame that may be sent, joined to another or on its own. -/
theorem Enqueue.sendable (h : Enqueue limits d ty id payload d') (hd : d.Well)
    (hs : d.Sendable limits bound serves) (hbound : limits.maxFramePayload ≤ bound)
    (hnew : Frame.FromRelay bound ⟨ty, id, payload⟩) (hserves : serves id) :
    d'.Sendable limits bound serves := by
  refine ⟨fun g hg => ?_, ?_⟩
  · cases h with
    | @merge id index payload f hindex hf htotal =>
        have hmem : f ∈ d.pendingFrames := List.mem_of_getElem? hf
        rcases List.mem_or_eq_of_mem_set hg with hg | rfl
        · exact hs.frames g hg
        obtain ⟨hw, -⟩ := hd.indexed_frame hindex hf
        obtain ⟨hframe, hserved⟩ := hs.frames f hmem
        have hpayload := (hd.frames f hmem).setAmount_payload hw
          ((windowAmount (f.encoded.drop headerSize)).1 + (windowAmount payload).1)
        refine ⟨⟨hframe.id, .inr (.inr ⟨hw, _, ?_, htotal, hpayload⟩)⟩, hserved⟩
        obtain ⟨hty, -⟩ | ⟨hty, -⟩ | ⟨-, amount, hpos, hle, heq⟩ := hnew.shape
        · cases hty
        · cases hty
        · have hadded : (windowAmount payload).1 = amount := by
            rw [show payload = windowPayload amount from heq, windowAmount_windowPayload hle]
          omega
    | @extend id payload last hlast =>
        obtain ⟨hsplit, hdata, -, -⟩ := Downlink.extendable_eq hlast
        have hmem : last ∈ d.pendingFrames := by
          rw [hsplit]
          simp
        rcases List.mem_append.mp hg with hg | hg
        · exact hs.frames g (List.mem_of_mem_dropLast hg)
        obtain rfl := List.mem_singleton.mp hg
        obtain ⟨hframe, hserved⟩ := hs.frames last hmem
        have hpayload : (last.extend payload).payload = last.payload ++ payload :=
          (hd.frames last hmem).extend_payload payload
        have hroom := (Option.filter_eq_some_iff.mp hlast).2
        simp only [decide_eq_true_eq] at hroom
        refine ⟨⟨hframe.id, .inl ⟨hdata, ?_, ?_⟩⟩, hserved⟩
        · show (last.extend payload).payload ≠ []
          rw [hpayload]
          obtain ⟨-, hne, -⟩ | ⟨hty, -⟩ | ⟨hty, -⟩ := hnew.shape
          · exact fun h => hne (List.append_eq_nil_iff.mp h).2
          · cases hty
          · cases hty
        · show (last.extend payload).payload.length ≤ bound
          rw [hpayload, List.length_append]
          have hlength := (hd.frames last hmem).length
          omega
    | append =>
        rcases List.mem_append.mp hg with hg | hg
        · exact hs.frames g hg
        · obtain rfl := List.mem_singleton.mp hg
          exact ⟨hnew, hserves⟩
  · cases h <;> exact hs.unacked

/-- The encoded length of a frame that may be sent. -/
theorem Frame.FromRelay.length {f : Frame} (h : f.FromRelay bound) :
    f.encode.length ≤ headerSize + max 4 bound := by
  rw [Frame.encode_length]
  obtain ⟨-, -, hle⟩ | ⟨-, hnil⟩ | ⟨-, amount, -, -, heq⟩ := h.shape
  · omega
  · rw [hnil]
    simp
  · rw [heq]
    show headerSize + 4 ≤ _
    omega

theorem batchCount_room (bytes room count size : ℕ) (frames : List QueuedFrame) :
    batchCount bytes room count size frames ≤ room := by
  induction frames generalizing room count size with
  | nil => cases room <;> exact Nat.zero_le _
  | cons f rest ih =>
      cases room with
      | zero => exact Nat.zero_le _
      | succ room =>
          unfold batchCount
          split_ifs
          · exact Nat.zero_le _
          · exact Nat.succ_le_succ (ih _ _ _)

/-- After the first frame a batch stays within its bytes. -/
theorem batchCount_size {bytes room count size cap : ℕ} {frames : List QueuedFrame}
    (hcount : count ≠ 0) (hsize : size ≤ cap) (hcap : bytes ≤ cap) :
    size + ((frames.take (batchCount bytes room count size frames)).flatMap (·.encoded)).length ≤
      cap := by
  induction frames generalizing room count size with
  | nil => simpa using hsize
  | cons f rest ih =>
      cases room with
      | zero => simpa [batchCount] using hsize
      | succ room =>
          unfold batchCount
          split_ifs with hstop
          · simpa using hsize
          · have hrest := @ih room (count + 1) (size + f.encoded.length) (Nat.succ_ne_zero count)
              (by omega)
            rw [List.take_succ_cons, List.flatMap_cons, List.length_append]
            omega

/-- The body of a batch is some of the queued frames, encoded. -/
theorem Downlink.Sendable.takeBatch (hd : d.Well) (hs : d.Sendable limits bound serves)
    (hframes : d.pendingFrames ≠ []) :
    ∃ frames, BodyOf limits bound serves (d.takeBatch limits).1.body frames := by
  have hpos := @batchCount_pos limits.carrierBatchBytes _ hframes
  have hroom := batchCount_room limits.carrierBatchBytes maxBatchFrames 0 0 d.pendingFrames
  obtain ⟨f, rest, hcons⟩ := List.exists_cons_of_ne_nil hframes
  have hencoded : ∀ g ∈ d.pendingFrames, g.encoded = g.frame.encode :=
    fun g hg => (hd.frames g hg).encoded
  have hfirst : f.encoded.length ≤ headerSize + max 4 bound := by
    have hf : f ∈ d.pendingFrames := by simp [hcons]
    rw [hencoded f hf]
    exact (hs.frames f hf).1.length
  have hsize : ((d.pendingFrames.take (batchCount limits.carrierBatchBytes maxBatchFrames 0 0
      d.pendingFrames)).flatMap (·.encoded)).length ≤
      max limits.carrierBatchBytes (headerSize + max 4 bound) := by
    rw [hcons]
    unfold maxBatchFrames batchCount
    rw [if_neg (by simp), List.take_succ_cons, List.flatMap_cons, List.length_append]
    rw [Nat.zero_add, Nat.zero_add]
    exact batchCount_size Nat.one_ne_zero (hfirst.trans (le_max_right _ _)) (le_max_left _ _)
  unfold Downlink.takeBatch
  dsimp only
  generalize batchCount limits.carrierBatchBytes maxBatchFrames 0 0 d.pendingFrames = count
    at hpos hroom hsize
  refine ⟨(d.pendingFrames.take count).map QueuedFrame.frame, ?_, ?_, ?_, ?_, hsize⟩
  · unfold encodeAll
    rw [List.flatMap_map]
    exact List.flatMap_congr fun g hg => hencoded g (List.mem_of_mem_take hg)
  · rw [List.length_map, hcons]
    cases count with
    | zero => omega
    | succ n => simp
  · rw [List.length_map, List.length_take]
    omega
  · intro g hg
    obtain ⟨q, hq, rfl⟩ := List.mem_map.mp hg
    exact hs.frames q (List.mem_of_mem_take hq)

/-! ### All queues of a session -/

namespace Session.Sendable

theorem queue (h : s.Sendable bound) (q : QueueRef) :
    (s.queue q).Sendable s.limits bound q.Serves := by
  cases q with
  | session => exact h.own
  | lane id object =>
      simp only [Session.queue]
      cases ha : s.attached id object with
      | some l => exact h.lanes id l (Session.attached_eq_some.mp ha).1
      | none =>
          cases hr : s.releasedLanes.get object with
          | none => exact .empty rfl rfl
          | some l => exact .empty (h.released object l hr).1 (h.released object l hr).2

/-- Only the queues count. -/
theorem congr (h : s.Sendable bound) (hlimits : s'.limits = s.limits) (hdown : s'.down = s.down)
    (hlanes : s'.carrierLanes = s.carrierLanes) (hreleased : s'.releasedLanes = s.releasedLanes) :
    s'.Sendable bound where
  own := by rw [hlimits, hdown]; exact h.own
  lanes := by rw [hlimits, hlanes]; exact h.lanes
  released := by rw [hreleased]; exact h.released

/-- A lane object is written, which leaves an empty queue empty where it is a released one. -/
theorem modifyLane (h : s.Sendable bound) {id object : ℕ} {f : CarrierLane → CarrierLane}
    (hlane : ∀ l, s.carrierLanes.get id = some l → l.object = object →
      (f l).down.Sendable s.limits bound (QueueRef.Serves (.lane id object)))
    (hempty : ∀ l, s.attached id object = none → l.down.pendingFrames = [] → l.down.unacked = [] →
      (f l).down.pendingFrames = [] ∧ (f l).down.unacked = []) :
    (s.modifyLane id object f).Sendable bound := by
  have hlimits : (s.modifyLane id object f).limits = s.limits ∧
      (s.modifyLane id object f).down = s.down := by
    obtain ⟨lanes, released, he⟩ := s.modifyLane_eq id object f
    rw [he]
    exact ⟨rfl, rfl⟩
  refine ⟨by rw [hlimits.1, hlimits.2]; exact h.own, fun i l hl => ?_, fun i l hl => ?_⟩
  · rw [hlimits.1]
    rw [Session.modifyLane_lanes] at hl
    obtain ⟨l₀, hl₀, rfl⟩ := Option.map_eq_some_iff.mp hl
    split_ifs with hi
    · obtain ⟨rfl, ho⟩ := hi
      exact hlane l₀ hl₀ ho
    · exact h.lanes i l₀ hl₀
  · rw [Session.modifyLane_released] at hl
    split_ifs at hl with hi
    · obtain ⟨l₀, hl₀, rfl⟩ := Option.map_eq_some_iff.mp hl
      obtain ⟨hframes, hunacked⟩ := h.released i l₀ hl₀
      exact hempty l₀ hi.1 hframes hunacked
    · exact h.released i l hl

theorem setQueue (h : s.Sendable bound) {q : QueueRef} {d : Downlink}
    (hd : d.Sendable s.limits bound q.Serves)
    (hempty : (s.queue q).pendingFrames = [] → (s.queue q).unacked = [] →
      d.pendingFrames = [] ∧ d.unacked = []) : (s.setQueue q d).Sendable bound := by
  cases q with
  | session => exact ⟨hd, h.lanes, h.released⟩
  | lane id object =>
      refine h.modifyLane (fun l _ _ => hd) fun l ha _ _ => hempty ?_ ?_
      · have hq := (h.queue (.lane id object))
        simp only [Session.queue, ha]
        cases hr : s.releasedLanes.get object with
        | none => rfl
        | some l => exact (h.released object l hr).1
      · simp only [Session.queue, ha]
        cases hr : s.releasedLanes.get object with
        | none => rfl
        | some l => exact (h.released object l hr).2

theorem putLane (h : s.Sendable bound) {id : ℕ} {l : CarrierLane}
    (hl : l.down.Sendable s.limits bound (QueueRef.Serves (.lane id l.object))) :
    (s.putLane id l).Sendable bound := by
  refine ⟨h.own, fun i l' hl' => ?_, h.released⟩
  rw [Session.putLane_lanes, Table.get_put] at hl'
  split_ifs at hl' with hi
  · cases hl'
    subst hi
    exact hl
  · exact h.lanes i l' hl'

/-- A lane leaves the table with nothing in it. -/
theorem delLane (h : s.Sendable bound) (id : ℕ) (l : CarrierLane) :
    (s.delLane id l.drop).Sendable bound := by
  refine ⟨h.own, fun i l' hl' => ?_, fun object l' hl' => ?_⟩
  · rw [Session.delLane_lanes, Table.get_del] at hl'
    split_ifs at hl'
    exact h.lanes i l' hl'
  · have hput : (s.releasedLanes.put l.drop.object l.drop).get object = some l' := hl'
    rw [Table.get_put] at hput
    split_ifs at hput
    · cases hput
      exact ⟨rfl, rfl⟩
    · exact h.released object l' hput

end Session.Sendable

/-- A frame that may be sent is queued, or refused. -/
theorem QueueResult.sendable {ok : Bool} (h : QueueResult s ty id payload es s' ok)
    (hw : s.Downlinks Downlink.Well) (hs : s.Sendable bound)
    (hbound : s.limits.maxFramePayload ≤ bound) (hnew : Frame.FromRelay bound ⟨ty, id, payload⟩) :
    s'.Sendable bound := by
  cases h with
  | refused => exact hs
  | @accepted q d cost items notify hq h =>
      have hs' : (s.setPending cost items notify).Sendable bound := hs.congr rfl rfl rfl rfl
      have hserves : q.Serves id := by
        unfold Session.queueRef at hq
        split_ifs at hq
        · obtain ⟨l, -, rfl⟩ := Option.map_eq_some_iff.mp hq
          rfl
        · cases hq
          trivial
      have hd := h.sendable (hw.queue .new q) (hs.queue q) hbound hnew hserves
      cases q with
      | session => exact ⟨hd, hs'.lanes, hs'.released⟩
      | lane i object =>
          refine hs'.modifyLane (fun l _ _ => hd) fun l ha _ _ => ?_
          -- the queue of a stream is that of an attached lane
          unfold Session.queueRef at hq
          split_ifs at hq
          · obtain ⟨l₀, hl₀, he⟩ := Option.map_eq_some_iff.mp hq
            cases he
            have hattached : s.attached id l₀.object = some l₀ :=
              Session.attached_eq_some.mpr ⟨hl₀, rfl⟩
            exact absurd (hattached.symm.trans ha) (by simp)
          · cases hq

theorem QueueResult.undelivered {ok : Bool} (h : QueueResult s ty id payload es s' ok)
    (q : QueueRef) (cursor : ℕ) (body : Bytes) : .delivered q cursor body ∉ es := by
  cases h <;> simp

end

/-- What a session holds for its client and what it has delivered. -/
structure Delivers (limits : Limits) (bound : ℕ) (σ : Traced) : Prop where
  sendable : σ.session.Sendable bound
  delivered : ∀ q cursor body, .delivered q cursor body ∈ σ.trace →
    ∃ frames, BodyOf limits bound q.Serves body frames

/-- Nothing is delivered. -/
theorem Delivers.undelivered (h : Delivers limits bound ⟨s, t⟩) (hs : s'.Sendable bound)
    (hes : ∀ q cursor body, .delivered q cursor body ∉ es) : Delivers limits bound ⟨s', t ++ es⟩ :=
  ⟨hs, fun q cursor body hm => h.delivered q cursor body
    ((List.mem_append.mp hm).resolve_right (hes q cursor body))⟩

theorem Delivers.quiet (h : Delivers limits bound ⟨s, t⟩) (hs : s'.Sendable bound) :
    Delivers limits bound ⟨s', t⟩ :=
  ⟨hs, h.delivered⟩

theorem Event.silent_undelivered {e : Event} (h : e.silent = true) (q : QueueRef) (cursor : ℕ)
    (body : Bytes) : .delivered q cursor body ∉ [e] := by
  cases e <;> simp_all [Event.silent]

theorem Downlink.Sendable.drop (d : Downlink) : d.drop.Sendable limits bound serves :=
  .empty rfl rfl

/-- **Every change keeps what is queued and delivered acceptable**, as long as no read hands
over more than the bound. -/
theorem Change.delivers {σ σ' : Traced} (h : Change scope σ σ') (hs : Sound limits carrier σ)
    (hw : σ.session.Downlinks Downlink.Well) (hd : Delivers limits bound σ)
    (hbound : limits.maxFramePayload ≤ bound)
    (hreads : ∀ data, scope.reads = some data → data.length ≤ bound) :
    Delivers limits bound σ' := by
  have hq := fun q => hd.sendable.queue q
  have hlimits := hs.limits_eq
  cases h with
  | silent he _ => exact hd.undelivered hd.sendable (Event.silent_undelivered he)
  | openStream => exact hd.undelivered (hd.sendable.congr rfl rfl rfl rfl) (by simp)
  | stream _ _ h _ =>
      refine hd.undelivered (hd.sendable.congr rfl rfl rfl rfl) ?_
      cases h <;> simp
  | @drained s s' t es id amount st ok _ hst hpos _ _ hwindow h _ =>
      obtain ⟨h0, hmax, -⟩ := hs.known id (by simp [hst])
      have hle : amount ≤ maxUint32 := by
        unfold initialStreamWindow at hwindow
        unfold maxUint32
        omega
      refine hd.undelivered (h.sendable (hw.congr rfl rfl rfl) (hd.sendable.congr rfl rfl rfl rfl)
        (hlimits ▸ hbound) ⟨⟨h0, hmax⟩, .inr (.inr ⟨rfl, amount, ?_, hle, rfl⟩)⟩) h.undelivered
      exact Nat.pos_of_ne_zero hpos
  | @read s s' t es id st data ok _ hst hpos _ h hscope =>
      obtain ⟨h0, hmax, -⟩ := hs.known id (by simp [hst])
      refine hd.undelivered (h.sendable (hw.congr rfl rfl rfl) (hd.sendable.congr rfl rfl rfl rfl)
        (hlimits ▸ hbound) ⟨⟨h0, hmax⟩, .inl ⟨rfl, ?_, hreads data hscope.2⟩⟩) h.undelivered
      rintro rfl
      exact hpos rfl
  | queueClose _ _ _ h hrange _ _ =>
      exact hd.undelivered (h.sendable hw hd.sendable (hlimits ▸ hbound)
        ⟨hrange, .inr (.inl ⟨rfl, rfl⟩)⟩) h.undelivered
  | rememberRoom => exact hd.undelivered (hd.sendable.congr rfl rfl rfl rfl) (by simp)
  | @rememberFull s t id old _ _ _ _ _ _ =>
      rw [List.append_assoc]
      refine hd.undelivered ?_ (by simp)
      have hold : s.Sendable bound := hd.sendable
      cases hl : s.carrierLanes.get old with
      | none => exact hold.congr rfl rfl (Table.del_eq_self _ hl) rfl
      | some l => exact (hold.delLane old l).congr rfl rfl rfl rfl
  | @createLane s t id _ _ _ _ =>
      have hput : (s.putLane id { object := s.nextObject }).Sendable bound :=
        hd.sendable.putLane (.empty rfl rfl)
      exact hd.quiet (hput.congr rfl rfl rfl rfl)
  | touchLane hl hobject hdown =>
      refine hd.quiet (hd.sendable.putLane ?_)
      rw [hobject, hdown]
      exact hd.sendable.lanes _ _ hl
  | dropLane => exact hd.quiet (hd.sendable.delLane _ _)
  | @attend s t q _ active superseded notify _ _ =>
      exact hd.quiet (hd.sendable.setQueue ⟨(hq q).frames, (hq q).unacked⟩ fun h₁ h₂ => ⟨h₁, h₂⟩)
  | @acknowledge s t q _ _ _ =>
      exact hd.quiet (hd.sendable.setQueue ⟨(hq q).frames, fun h => absurd rfl h⟩
        fun h₁ _ => ⟨h₁, rfl⟩)
  | @deliver s t q cursor mine _ _ hframes _ =>
      have hl : s.limits = limits := hlimits
      have hbody : ∃ frames, BodyOf s.limits bound q.Serves
          ((s.queue q).takeBatch s.limits).1.body frames :=
        (hq q).takeBatch (hw.queue .new q) hframes
      have hset : (s.setQueue q (((s.queue q).takeBatch s.limits).2.deliver
          ((s.queue q).takeBatch s.limits).1 cursor)).Sendable bound := by
        refine hd.sendable.setQueue ⟨fun f hf => (hq q).frames f ?_, fun _ => hbody⟩
          fun h₁ _ => absurd h₁ hframes
        exact List.mem_of_mem_drop hf
      refine ⟨hset, fun q' cursor' body hm => ?_⟩
      rcases List.mem_append.mp hm with hm | hm
      · exact hd.delivered q' cursor' body hm
      · cases List.mem_singleton.mp hm
        rw [hl] at hbody
        rw [hl]
        exact hbody
  | @close s t =>
      refine hd.quiet ⟨.drop _, fun id l hl => ?_, hd.sendable.released⟩
      have hl' : (s.carrierLanes.mapValues CarrierLane.drop).get id = some l := hl
      rw [Table.get_mapValues] at hl'
      obtain ⟨l₀, -, rfl⟩ := Option.map_eq_some_iff.mp hl'
      exact .drop _
  | batch => exact hd.undelivered hd.sendable (by simp)
  | laneUplink _ id object f hobject hdown _ =>
      refine hd.quiet (hd.sendable.modifyLane (fun l hl ho => ?_) fun l _ h₁ h₂ => ?_)
      · rw [hdown, ← ho]
        exact hd.sendable.lanes id l hl
      · rw [hdown]
        exact ⟨h₁, h₂⟩
  | _ => exact hd.quiet (hd.sendable.congr rfl rfl rfl rfl)

/-- A new session holds nothing. -/
theorem newSession_delivers (limits : Limits) (carrier : CarrierMode) :
    Delivers limits bound ⟨newSession limits carrier, []⟩ := by
  refine ⟨?_, by simp⟩
  unfold newSession
  split_ifs
  · refine ⟨.empty rfl rfl, fun id l hl => ?_, (by simp)⟩
    have hput : (Table.nil.put 0 ({ object := 0 } : CarrierLane)).get id = some l := hl
    rw [Table.get_put] at hput
    split_ifs at hput
    · cases hput
      exact .empty rfl rfl
    · cases hput
  · exact ⟨.empty rfl rfl, (by simp), (by simp)⟩

/-! ### Steps -/

/-- What `backendData` leads to: the data is queued, or nothing is. -/
inductive HandedOver (s : Session) (id : ℕ) (data : Bytes) : List Event → Session × Bool → Prop
  | ignored : HandedOver s id data [] (s, false)
  | refused (st : StreamState) : HandedOver s id data [.refused .data id data]
      (s.putStream id st, false)
  | queued {st : StreamState} {es : List Event} {s' : Session} (hst : s.streams.get id = some st)
      (hne : data ≠ []) (h : QueueResult (s.putStream id
        { st with sendCredit := st.sendCredit - data.length }) .data id data es s' true) :
      HandedOver s id data es (s', true)

theorem backendData_handedOver (s : Session) (t : List Event) (id : ℕ) (data : Bytes) :
    wp observer (backendData s id data)
      (fun t' r => ∃ es, t' = t ++ es ∧ HandedOver s id data es r) t := by
  unfold backendData
  cases hst : s.streams.get id with
  | none => exact ⟨[], by simp, .ignored⟩
  | some st =>
      dsimp only
      split_ifs with hbad
      · exact ⟨[], by simp, .ignored⟩
      · simp only [not_or] at hbad
        refine wp_mono (queueFrameLocked_obs _ _ _ _) ?_
        rintro t₁ ⟨s₁, ok⟩ ⟨es, rfl, hq⟩
        refine ⟨es, rfl, ?_⟩
        cases ok with
        | false =>
            cases hq
            exact .refused _
        | true =>
            refine .queued hst ?_ hq
            rintro rfl
            exact hbad.2.1 rfl

/-- **A step keeps what is queued and delivered acceptable**, if a read that it accepts is within
the bound. -/
theorem Step.delivers {σ σ' : Traced} {c : Section} {r : Reply} (h : Step sha256 σ c r σ')
    (hs : Sound limits carrier σ) (hw : σ.session.Downlinks Downlink.Well)
    (hd : Delivers limits bound σ) (hbound : limits.maxFramePayload ≤ bound)
    (hread : ∀ id data, c = .backendData id data → r = .flag true → data.length ≤ bound) :
    Delivers limits bound σ' := by
  have hchanges : (∀ data, c.scope.reads = some data → data.length ≤ bound) →
      Delivers limits bound σ' := by
    intro hreads
    exact ((h.changes hs).invariant (I := fun τ => Sound limits carrier τ ∧
      τ.session.Downlinks Downlink.Well ∧ Delivers limits bound τ)
      (fun hc hI => ⟨hc.sound hI.1, hc.downlinks hI.2.1,
        hc.delivers hI.1 hI.2.1 hI.2.2 hbound hreads⟩) ⟨hs, hw, hd⟩).2.2
  by_cases hc : ∃ id data, c = .backendData id data
  · obtain ⟨id, data, rfl⟩ := hc
    have hflag : ∃ ok, r = .flag ok := by
      refine @Step.of_wp _ _ _ _ _ h (fun _ p => ∃ ok, p.2 = .flag ok) fun _ => ?_
      exact wp_seq (wp_true (fun _ _ => trivial) fun _ => trivial) fun _ p _ => ⟨p.2, rfl⟩
    obtain ⟨ok, rfl⟩ := hflag
    cases ok with
    | true =>
        refine hchanges fun data' he => ?_
        cases he
        exact hread id data rfl rfl
    | false =>
        obtain ⟨es, htrace, hhanded⟩ := h.of_flag rfl (backendData_handedOver _ _ id data)
        obtain ⟨s', t'⟩ := σ'
        cases htrace
        cases hhanded with
        | ignored =>
            show Delivers limits bound ⟨σ.session, σ.trace ++ []⟩
            rw [List.append_nil]
            exact hd
        | refused st =>
            exact hd.undelivered (hd.sendable.congr rfl rfl rfl rfl) (by simp)
  · refine hchanges fun data he => ?_
    exact absurd he (by
      cases c with
      | backendData id data => exact absurd ⟨id, data, rfl⟩ hc
      | _ => simp [Section.scope, Scope.quiet, Scope.request, Scope.socket, Scope.poll,
          Scope.backend, Scope.ending, Scope.token])

/-! ### Replies -/

/-- The streams that a poll serves. -/
def Section.Serves : Section → ℕ → Prop
  | .poll _ => fun _ => True
  | .pollLane laneID _ => fun i => i = laneID
  | .pollResume q _ _ _ => q.Serves
  | _ => fun _ => False

/-- A batch that a poll returns was just delivered, or waits to be acknowledged. -/
abbrev Returns (q : QueueRef) (t : List Event) (r : Session × PollReply) : Prop :=
  ∀ body cursor, r.2 = .batch body cursor →
    (∃ taken, .delivered q taken body ∈ t) ∨ body ≠ [] ∧ body = (r.1.queue q).unacked

theorem pollLoop_returns (s : Session) (t : List Event) (q : QueueRef) (cursor mine : ℕ) :
    wp observer (pollLoop s q cursor mine) (Returns q) t := by
  unfold pollLoop
  dsimp only
  split_ifs with hmine hframes
  · intro body cursor h
    cases h
  · intro body cursor' h
    cases h
    exact .inl ⟨cursor, by simp [observer]⟩
  all_goals
    intro body cursor h
    cases h

theorem pollOn_returns (s : Session) (t : List Event) (q : QueueRef) (cursor : ℕ) :
    wp observer (pollOn s q cursor) (Returns q) t := by
  have htrue : ∀ {α : Type} (p : Act α), wp observer p (fun _ _ => True) t :=
    fun p => wp_true (fun _ _ => trivial) fun _ => trivial
  unfold pollOn
  dsimp only
  cases hcheck : (s.queue q).checkCursor cursor with
  | replay =>
      intro body cursor' h
      cases h
      refine .inr ⟨?_, rfl⟩
      unfold Downlink.checkCursor at hcheck
      split_ifs at hcheck with hunacked
      exact fun hnil => hunacked (by rw [hnil]; rfl)
  | mismatch =>
      intro body cursor' h
      cases h
  | acknowledge =>
      refine wp_seq (wp_true (fun _ _ => trivial) fun _ => trivial) fun t₁ s₁ _ => ?_
      refine wp_seq (wp_true (fun _ _ => trivial) fun _ => trivial) fun t₂ r₂ _ => ?_
      exact pollLoop_returns _ _ _ _ _
  | current =>
      refine wp_seq (wp_true (fun _ _ => trivial) fun _ => trivial) fun t₁ r₁ _ => ?_
      exact pollLoop_returns _ _ _ _ _

theorem pollResume_returns (s : Session) (t : List Event) (q : QueueRef) (cursor mine : ℕ)
    (wake : Wake) : wp observer (pollResume s q cursor mine wake) (Returns q) t := by
  have hno : ∀ {s' : Session} {reply : PollReply}, (∀ body cursor, reply ≠ .batch body cursor) →
      Returns q t (s', reply) := fun h body cursor he => absurd he (h body cursor)
  cases wake with
  | cancelled => exact hno (by simp)
  | superseded => exact hno (by simp)
  | done => exact hno (by simp)
  | deadline =>
      unfold pollResume
      dsimp only
      split_ifs
      · exact hno (by simp)
      · exact pollLoop_returns _ _ _ _ _
      · exact hno (by simp)
  | notified => exact pollLoop_returns _ _ _ _ _

/-- A batch that a section returns is that of a queue it may serve. -/
abbrev Section.Returned (c : Section) (t : List Event) (r : Session × Reply) : Prop :=
  ∀ body cursor, r.2 = .poll (.batch body cursor) →
    ∃ q : QueueRef, (∀ i, q.Serves i → c.Serves i) ∧
      ((∃ taken, .delivered q taken body ∈ t) ∨ body ≠ [] ∧ body = (r.1.queue q).unacked)

theorem Section.returned_poll {c : Section} {act : Act (Session × PollReply)} {q : QueueRef}
    (hserves : ∀ i, q.Serves i → c.Serves i) (h : wp observer act (Returns q) t) :
    wp observer (act >>= fun r => pure (r.1, Reply.poll r.2)) c.Returned t := by
  refine wp_seq h fun t' r hr body cursor he => ⟨q, hserves, hr body cursor ?_⟩
  exact Reply.poll.inj he

theorem Section.returned (c : Section) (s : Session) (t : List Event) :
    wp observer (c.exec sha256 s) c.Returned t := by
  have hnone : ∀ {q : QueueRef} {s' : Session} {reply : PollReply},
      (∀ body cursor, reply ≠ .batch body cursor) → Returns q t (s', reply) :=
    fun h body cursor he => absurd he (h body cursor)
  cases c with
  | poll cursor =>
      refine returned_poll (q := .session) (fun _ _ => trivial) ?_
      unfold TproxyServer.poll
      split_ifs
      · exact hnone (by simp)
      · exact hnone (by simp)
      · exact pollOn_returns _ _ _ _
  | pollLane laneID cursor =>
      cases hl : s.carrierLanes.get laneID with
      | none =>
          refine returned_poll (q := .lane laneID 0) (fun _ h => h) ?_
          unfold TproxyServer.pollLane
          rw [hl]
          split_ifs
          all_goals exact hnone (by simp)
      | some lane =>
          refine returned_poll (q := .lane laneID lane.object) (fun _ h => h) ?_
          unfold TproxyServer.pollLane
          rw [hl]
          split_ifs
          · exact hnone (by simp)
          · exact hnone (by simp)
          · exact pollOn_returns _ _ _ _
  | pollResume q cursor mine wake =>
      exact returned_poll (fun _ h => h) (pollResume_returns _ _ _ _ _ _)
  | acquireWebSocket | acquireWebSocketLane | processUpBegin | takeToken | nextWrite
  | nextReadAllowance =>
      intro body cursor he
      cases he
  | _ =>
      refine wp_seq (wp_true (fun _ _ => trivial) fun _ => trivial) fun _ _ _ body cursor he => ?_
      cases he

/-! ### Runs with backends -/

theorem Step.granted {σ σ' : Traced} {id allowance : ℕ}
    (h : Step sha256 σ (.nextReadAllowance id) (.read (.granted allowance)) σ') :
    allowance ≤ dataChunk := by
  have hreply : .granted allowance = nextReadAllowance σ.session id := by
    refine @Step.of_wp _ _ _ _ _ h (fun _ p => ∀ reply, p.2 = .read reply →
      reply = nextReadAllowance σ.session id) (fun _ => ?_) _ rfl
    intro reply he
    exact (Reply.read.inj he).symm
  unfold nextReadAllowance at hreply
  split_ifs at hreply
  cases hst : σ.session.streams.get id with
  | none =>
      rw [hst] at hreply
      cases hreply
  | some st =>
      rw [hst] at hreply
      dsimp only at hreply
      split_ifs at hreply
      cases hreply
      unfold dataFrameAllowanceLocked
      dsimp only
      split_ifs
      · exact Nat.zero_le _
      · exact Nat.zero_le _
      · omega

namespace BackendTraffic

variable {W W' : BackendTraffic}

/-- No read is larger than a chunk. -/
def ReadsChunks (W : BackendTraffic) : Prop :=
  ∀ b w allowance, W.goroutine b = .running w (.reading allowance) → allowance ≤ dataChunk

theorem ReadsChunks.put (h : W.ReadsChunks) {b : ℕ} {g : Goroutines}
    (hput : W'.goroutines = W.goroutines.put b g)
    (hg : ∀ w allowance, g = .running w (.reading allowance) → allowance ≤ dataChunk) :
    W'.ReadsChunks := by
  intro i w allowance hi
  unfold goroutine at hi
  rw [hput, Table.get_put] at hi
  split_ifs at hi with hib
  · exact hg w allowance hi
  · exact h i w allowance hi

theorem Reachable.readsChunks (h : Reachable sha256 limits carrier W) : W.ReadsChunks := by
  induction h with
  | start =>
      intro b w allowance hi
      simp [goroutine] at hi
  | @step W W' _ hstep ih =>
      cases hstep with
      | client => exact ih
      | @call id b c r g σ hb hcall hstep =>
          refine ih.put (b := b) (g := g) rfl fun w allowance hg => ?_
          generalize hg₀ : W.goroutine b = g₀ at hcall
          cases hcall with
          | granted =>
              cases hg
              exact hstep.granted
          | read _ _ ok => cases ok <;> cases hg
          | drained _ _ ok | written ok =>
              obtain ⟨-, rfl⟩ := Goroutines.running.inj hg
              exact ih b _ _ hg₀
          | chunk | parked | unwritten =>
              cases hg
              exact ih b _ _ hg₀
          | waiting | unread | undialled | closed => cases hg
      | @turn id b g hb hturn =>
          refine ih.put (b := b) (g := g) rfl fun w allowance hg => ?_
          generalize hg₀ : W.goroutine b = g₀ at hturn
          cases hturn with
          | writerEnds =>
              cases hg
              exact ih b _ _ hg₀
          | dialled | readerEnds => cases hg

/-- What a callback hands over was read within its allowance. -/
theorem ReadsChunks.call (h : W.ReadsChunks) {id b : ℕ} {c : Section} {r : Reply} {g : Goroutines}
    (hcall : (W.goroutine b).Calls id b c r g) (i : ℕ) (data : Bytes)
    (hc : c = .backendData i data) : data.length ≤ dataChunk := by
  subst hc
  generalize hg₀ : W.goroutine b = g₀ at hcall
  cases hcall with
  | read _ hdata _ => exact hdata.trans (h b _ _ hg₀)

theorem Reachable.downlinks (h : Reachable sha256 limits carrier W) :
    W.state.session.Downlinks Downlink.Well :=
  h.state.downlinks

/-- What is queued and delivered is acceptable in every run. -/
theorem Reachable.delivers (h : Reachable sha256 limits carrier W) :
    Delivers limits (max limits.maxFramePayload dataChunk) W.state := by
  induction h with
  | start => exact newSession_delivers limits carrier
  | @step W W' hW hstep ih =>
      cases hstep with
      | @client c r σ hc hstep =>
          refine hstep.delivers hW.state.sound hW.downlinks ih (le_max_left _ _) ?_
          rintro id data rfl
          cases hc
      | @call id b c r g σ hb hcall hstep =>
          exact hstep.delivers hW.state.sound hW.downlinks ih (le_max_left _ _)
            fun i data hc _ => (hW.readsChunks.call hcall i data hc).trans (le_max_right _ _)
      | turn => exact ih

end BackendTraffic

/-! ### What the client accepts -/

/-- What the client and the relay's own parser accept. -/
structure Acceptable (limits : Limits) (serves : ℕ → Prop) (body : Bytes) : Prop where
  size : body.length ≤
    max limits.carrierBatchBytes (headerSize + max limits.maxFramePayload dataChunk)
  cap : body.length ≤ 2 * 1024 * 1024
  /-- It is one frame or more, each of them one that the relay may send. -/
  frames : ∃ frames, body = encodeAll frames ∧ 1 ≤ frames.length ∧
    frames.length ≤ maxBatchFrames ∧
    (∀ f ∈ frames, f.FromRelay (max limits.maxFramePayload dataChunk) ∧ serves f.streamID) ∧
    parseAll body maxPayload = .ok frames ∧
    Page.splitFrames body = .ok (frames.map Page.Value.ofFrame)

/-- The bounds that `Config.validate` leaves for frames and batches. -/
theorem Config.frame_limits (c : Config) (p : Profile) :
    1 ≤ (c.sessionLimits p).maxFramePayload ∧ (c.sessionLimits p).maxFramePayload ≤ maxPayload ∧
      (c.sessionLimits p).carrierBatchBytes ≤ 2 * 1024 * 1024 := by
  have h := c.valid
  unfold Config.Limits.validate at h
  split_ifs at h with hframes hbatch
  simp only [not_or] at hframes
  obtain ⟨-, -, hpos, hmax, -, -⟩ := hframes
  unfold Config.maxCarrierBatchBytes at hbatch
  have hpos' := Int64.lt_iff_toInt_lt.mp (Int64.not_le.mp hpos)
  have hmax' := Int64.le_iff_toInt_le.mp (Int64.not_lt.mp hmax)
  have hbatch' := Int64.le_iff_toInt_le.mp (Int64.not_lt.mp hbatch)
  have hone : (1024 * 1024 : Int64).toInt = 1048576 := by decide
  have htwo : (2 * 1024 * 1024 : Int64).toInt = 2097152 := by decide
  rw [Int64.toInt_zero] at hpos'
  rw [hone] at hmax'
  rw [htwo] at hbatch'
  show 1 ≤ c.limits.maxFramePayload.toNatClampNeg ∧
    c.limits.maxFramePayload.toNatClampNeg ≤ maxPayload ∧
    c.limits.carrierBatchBytes.toNatClampNeg ≤ 2 * 1024 * 1024
  unfold Int64.toNatClampNeg maxPayload
  omega

/-- A body of frames of the relay is accepted. -/
theorem BodyOf.acceptable {body : Bytes} {frames : List Frame}
    (h : BodyOf limits (max limits.maxFramePayload dataChunk) serves body frames)
    (hframe : limits.maxFramePayload ≤ maxPayload)
    (hbatch : limits.carrierBatchBytes ≤ 2 * 1024 * 1024) : Acceptable limits serves body := by
  have hsize := h.size
  have hfour : max 4 (max limits.maxFramePayload dataChunk) =
      max limits.maxFramePayload dataChunk := by
    apply max_eq_right
    exact le_max_of_le_right (by decide)
  rw [hfour] at hsize
  have hbound : max limits.maxFramePayload dataChunk ≤ maxPayload := by
    apply max_le hframe
    decide
  have hencodable : ∀ f ∈ frames, f.Encodable maxPayload := by
    intro f hf
    obtain ⟨hfrom, -⟩ := h.frames f hf
    obtain ⟨hty, -, hle⟩ | ⟨hty, hnil⟩ | ⟨hty, amount, -, -, heq⟩ := hfrom.shape
    · exact ⟨by rw [hty]; rfl, hfrom.id.2, hle.trans hbound⟩
    · exact ⟨by rw [hty]; rfl, hfrom.id.2, by rw [hnil]; exact Nat.zero_le _⟩
    · refine ⟨by rw [hty]; rfl, hfrom.id.2, ?_⟩
      rw [heq]
      show 4 ≤ maxPayload
      decide
  have hparse : parseAll body maxPayload = .ok frames := by
    rw [h.encoded]
    exact parseAll_encodeAll (by decide) le_rfl ⟨h.nonempty, h.count, hencodable⟩
  have hfull : Page.Full frames := by
    intro f hf hty
    obtain ⟨-, hne, -⟩ | ⟨hty', -⟩ | ⟨hty', -⟩ := (h.frames f hf).1.shape
    · exact hne
    · rw [hty] at hty'
      cases hty'
    · rw [hty] at hty'
      cases hty'
  refine ⟨hsize, hsize.trans ?_, frames, h.encoded, h.nonempty, h.count, h.frames, hparse,
    Page.splitFrames_ok.mpr ⟨frames, hparse, hfull, rfl⟩⟩
  unfold maxPayload at hbound
  unfold headerSize
  omega

/-- **Every delivered body is acceptable to the client**: whatever a poll returns, in any state
that a session with its backends can reach under an accepted configuration. -/
theorem delivered_acceptable (c : Config) (p : Profile) {W : BackendTraffic}
    (h : BackendTraffic.Reachable sha256 (c.sessionLimits p) carrier W) {call : Section}
    (hcall : call.ofBackend = false) {σ : Traced} {body : Bytes} {cursor : ℕ}
    (hstep : Step sha256 W.state call (.poll (.batch body cursor)) σ) :
    Acceptable (c.sessionLimits p) call.Serves body := by
  obtain ⟨-, hframe, hbatch⟩ := c.frame_limits p
  have hW' := h.step (.client hcall hstep)
  have hdelivers : Delivers _ _ σ := hW'.delivers
  obtain ⟨q, hserves, hreturned⟩ :=
    hstep.of_wp (fun _ => call.returned W.state.session W.state.trace) body cursor rfl
  have hbody : ∃ frames, BodyOf (c.sessionLimits p)
      (max (c.sessionLimits p).maxFramePayload dataChunk) q.Serves body frames := by
    rcases hreturned with ⟨taken, hmem⟩ | ⟨hne, heq⟩
    · exact hdelivers.delivered q taken body hmem
    · have hl : σ.session.limits = c.sessionLimits p := hW'.state.sound.limits_eq
      have hunacked := (hdelivers.sendable.queue q).unacked fun hnil => hne (heq.trans hnil)
      rw [heq]
      rw [hl] at hunacked
      exact hunacked
  obtain ⟨frames, hframes⟩ := hbody
  refine BodyOf.acceptable ⟨hframes.encoded, hframes.nonempty, hframes.count, fun f hf => ?_,
    hframes.size⟩ hframe hbatch
  exact ⟨(hframes.frames f hf).1, hserves _ (hframes.frames f hf).2⟩

/-- The default limits, but DATA frames of one byte. -/
def oneByteLimits : Config.Limits := { Config.defaults with maxFramePayload := 1 }

theorem oneByteLimits_valid : oneByteLimits.validate = .ok () := by decide +kernel

theorem oneByteLimits_budgetValid :
    validateBudget (oneByteLimits.global oneByteLimits_valid) = .ok () := by decide +kernel

def alpha : Profile := { name := "alpha", capability := zeroDigest }

theorem alpha_valid :
    ∀ p ∈ [alpha], Config.validateProfileLimits p.limits oneByteLimits = .ok () := by
  decide +kernel

def oneByteFrames : Config where
  limits := oneByteLimits
  bootstrapLifetime := 120 * 10 ^ 9
  profiles := [alpha]
  valid := oneByteLimits_valid
  profilesValid := alpha_valid
  budgetValid := oneByteLimits_budgetValid

/-- The default limits. -/
def longFrames : Config where
  limits := Config.defaults
  bootstrapLifetime := 120 * 10 ^ 9
  profiles := [alpha]
  valid := Config.defaults_valid
  profilesValid := by decide +kernel
  budgetValid := Config.defaults_budgetValid

/-- A backend takes two bytes one after the other and gives two: one WINDOW and one DATA frame. -/
theorem delivered_acceptable_joined :
    Acceptable (longFrames.sessionLimits alpha) (Section.poll 0).Serves
      (encode .window 1 (windowPayload 2) ++ encode .data 1 [1, 2]) := by
  have hplay : ((play id ⟨newSession (longFrames.sessionLimits alpha) .https, []⟩
        (upCalls 1 (encode .open 1 [] ++ encode .data 1 [7, 8]) [true, true])).bind fun σ =>
      (attempt id σ (.nextWrite 1) []).bind fun p₁ =>
      (attempt id p₁.2 (.backendDrained 1 1) []).bind fun p₂ =>
      (attempt id p₂.2 (.backendDrained 1 1) []).bind fun p₃ =>
      (attempt id p₃.2 (.nextReadAllowance 1) []).bind fun p₄ =>
      (attempt id p₄.2 (.backendData 1 [1]) []).bind fun p₅ =>
      (attempt id p₅.2 (.nextReadAllowance 1) []).bind fun p₆ =>
      (attempt id p₆.2 (.backendData 1 [2]) []).bind fun p₇ =>
      (attempt id p₇.2 (.poll 0) []).map fun p₈ =>
        ([σ, p₁.2, p₂.2, p₃.2, p₄.2, p₅.2, p₆.2].map fun τ => decide (.opened 1 0 ∈ τ.trace),
          [p₁.1, p₂.1, p₃.1, p₄.1, p₅.1, p₆.1, p₇.1, p₈.1])) =
      some (List.replicate 7 true, [.write (.chunk [7, 8]), .flag true, .flag true,
        .read (.granted 65536), .flag true, .read (.granted 65536), .flag true,
        .poll (.batch (encode .window 1 (windowPayload 2) ++ encode .data 1 [1, 2]) 1)]) := by
    decide +kernel
  obtain ⟨σ, h₀, hplay⟩ := Option.bind_eq_some_iff.mp hplay
  obtain ⟨⟨r₁, σ₁⟩, h₁, hplay⟩ := Option.bind_eq_some_iff.mp hplay
  obtain ⟨⟨r₂, σ₂⟩, h₂, hplay⟩ := Option.bind_eq_some_iff.mp hplay
  obtain ⟨⟨r₃, σ₃⟩, h₃, hplay⟩ := Option.bind_eq_some_iff.mp hplay
  obtain ⟨⟨r₄, σ₄⟩, h₄, hplay⟩ := Option.bind_eq_some_iff.mp hplay
  obtain ⟨⟨r₅, σ₅⟩, h₅, hplay⟩ := Option.bind_eq_some_iff.mp hplay
  obtain ⟨⟨r₆, σ₆⟩, h₆, hplay⟩ := Option.bind_eq_some_iff.mp hplay
  obtain ⟨⟨r₇, σ₇⟩, h₇, hplay⟩ := Option.bind_eq_some_iff.mp hplay
  obtain ⟨⟨r₈, σ₈⟩, h₈, he⟩ := Option.map_eq_some_iff.mp hplay
  simp only [Prod.mk.injEq, List.map_cons, List.map_nil, List.replicate, List.cons.injEq,
    decide_eq_true_eq, and_true] at he
  obtain ⟨⟨ho, ho₁, ho₂, ho₃, ho₄, ho₅, ho₆⟩, rfl, rfl, rfl, rfl, rfl, rfl, rfl, rfl⟩ := he
  have hW := BackendTraffic.Reachable.start.play (σ := σ) (upCalls_ofBackend _ _ _) h₀
  have hW₀ := hW.step (.turn (b := 0) ho .dialled)
  have hW₁ := hW₀.step (.call (b := 0) ho .chunk (.attempt h₁))
  have hW₂ := hW₁.step (.call (b := 0) ho₁ (.drained (by decide) (by simp) true) (.attempt h₂))
  have hW₃ := hW₂.step (.call (b := 0) ho₂ (.drained (by decide) (by simp) true) (.attempt h₃))
  have hW₄ := hW₃.step (.call (b := 0) ho₃ .granted (.attempt h₄))
  have hW₅ := hW₄.step (.call (b := 0) ho₄ (.read (by simp) (by simp) true) (.attempt h₅))
  have hW₆ := hW₅.step (.call (b := 0) ho₅ .granted (.attempt h₆))
  have hW₇ := hW₆.step (.call (b := 0) ho₆ (.read (by simp) (by simp) true) (.attempt h₇))
  exact delivered_acceptable longFrames alpha hW₇ (by rfl) (.attempt h₈)

/-! ### How long a DATA frame gets -/

/-- No DATA frame that waits or was delivered is longer than `max_frame_payload`. -/
structure FramesBounded (limits : Limits) (σ : Traced) : Prop where
  queued : σ.session.Downlinks fun d => ∀ f ∈ d.pendingFrames, f.typeCode = .data →
    f.payload.length ≤ limits.maxFramePayload
  delivered : ∀ q cursor body, .delivered q cursor body ∈ σ.trace →
    ∃ frames, body = encodeAll frames ∧
      ∀ f ∈ frames, f.type = .data → f.payload.length ≤ limits.maxFramePayload

theorem Frame.FromRelay.data_length {f : Frame} (h : f.FromRelay bound) (hty : f.type = .data) :
    f.payload.length ≤ bound := by
  obtain ⟨-, -, hle⟩ | ⟨hty', -⟩ | ⟨hty', -⟩ := h.shape
  · exact hle
  · rw [hty] at hty'
    cases hty'
  · rw [hty] at hty'
    cases hty'

theorem Delivers.framesBounded {σ : Traced} (h : Delivers limits limits.maxFramePayload σ) :
    FramesBounded limits σ where
  queued :=
    ⟨fun f hf => (h.sendable.own.frames f hf).1.data_length,
      fun id l hl f hf => ((h.sendable.lanes id l hl).frames f hf).1.data_length,
      fun object l hl => by simp [(h.sendable.released object l hl).1]⟩
  delivered := by
    intro q cursor body hm
    obtain ⟨frames, hframes⟩ := h.delivered q cursor body hm
    exact ⟨frames, hframes.encoded, fun f hf => (hframes.frames f hf).1.data_length⟩

/-- A read that is accepted ends up in a frame at least as long. -/
theorem FramesBounded.accepted {σ σ' : Traced} {id : ℕ} {data : Bytes}
    (hstep : Step sha256 σ (.backendData id data) (.flag true) σ')
    (hl : σ.session.limits = limits) (h : FramesBounded limits σ') :
    data.length ≤ limits.maxFramePayload := by
  obtain ⟨es, -, hhanded⟩ := hstep.of_flag rfl (backendData_handedOver _ _ id data)
  obtain ⟨s', t'⟩ := σ'
  have hqueued := h.queued
  dsimp only at hhanded hqueued
  cases hhanded with
  | @queued st _ _ hst hne hq =>
      cases hq with
      | @accepted q d cost items notify hq henqueue =>
          cases henqueue with
          | extend hlast =>
              have hroom := (Option.filter_eq_some_iff.mp hlast).2
              simp only [decide_eq_true_eq] at hroom
              have hle : data.length ≤ σ.session.limits.maxFramePayload := by
                refine le_trans ?_ hroom.2.2.2
                omega
              rwa [hl] at hle
          | append =>
              have hhas := Session.hasQueue_of_queueRef hq
              have hhas' : Session.HasQueue (Session.setPending (σ.session.putStream id
                  { st with sendCredit := st.sendCredit - data.length }) cost items notify) q := by
                cases q <;> exact hhas
              have hframes := hqueued.queue (by simp) q
              rw [(hhas'.setQueue _).2] at hframes
              exact hframes _ (List.mem_append_right _ List.mem_cons_self) rfl

namespace BackendTraffic

/-- The states of a run, the last one first. -/
inductive Run (sha256 : Bytes → Bytes) (limits : Limits) (carrier : CarrierMode) :
    List BackendTraffic → Prop
  | start : Run sha256 limits carrier [{ state := ⟨newSession limits carrier, []⟩ }]
  | step {W W' : BackendTraffic} {run : List BackendTraffic} :
      Run sha256 limits carrier (W :: run) → Step sha256 W W' →
      Run sha256 limits carrier (W' :: W :: run)

theorem Run.reachable {W : BackendTraffic} {run : List BackendTraffic}
    (h : Run sha256 limits carrier (W :: run)) : Reachable sha256 limits carrier W := by
  generalize hrun : W :: run = Ws at h
  induction h generalizing W run with
  | start =>
      cases hrun
      exact .start
  | step _ hstep ih =>
      cases hrun
      exact (ih rfl).step hstep

/-- A run ends with its first state or with a step. -/
theorem Reachable.run {W : BackendTraffic} (h : Reachable sha256 limits carrier W) :
    ∃ run, Run sha256 limits carrier (W :: run) := by
  induction h with
  | start => exact ⟨[], .start⟩
  | step _ hstep ih =>
      obtain ⟨run, hrun⟩ := ih
      exact ⟨_, hrun.step hstep⟩

variable {W W' : BackendTraffic}

/-- What a step adds to the reads that were accepted. -/
theorem Step.handed (h : Step sha256 W W') :
    (∃ id b data, W'.handed = W.handed ++ [(b, data)] ∧
      TproxyServer.Step sha256 W.state (.backendData id data) (.flag true) W'.state) ∨
    W'.handed = W.handed := by
  cases h with
  | client => exact .inr rfl
  | @call id b c r g σ hb hcall hstep =>
      by_cases hread : ∃ i data, c = .backendData i data ∧ r = .flag true
      · obtain ⟨i, data, rfl, rfl⟩ := hread
        exact .inl ⟨i, b, data, rfl, hstep⟩
      · right
        unfold after
        dsimp only
        split
        · next i data =>
            exact absurd ⟨i, data, rfl, rfl⟩ hread
        · rfl
  | turn => exact .inr rfl

theorem Step.delivers (h : Step sha256 W W') (hW : Reachable sha256 limits carrier W)
    (hd : Delivers limits bound W.state) (hbound : limits.maxFramePayload ≤ bound)
    (hhanded : ∀ p ∈ W'.handed, p.2.length ≤ bound) : Delivers limits bound W'.state := by
  cases h with
  | @client c r σ hc hstep =>
      refine hstep.delivers hW.state.sound hW.downlinks hd hbound ?_
      rintro id data rfl
      cases hc
  | @call id b c r g σ hb hcall hstep =>
      refine hstep.delivers hW.state.sound hW.downlinks hd hbound ?_
      rintro i data rfl rfl
      exact hhanded (b, data) (by simp [after])
  | turn => exact hd

end BackendTraffic

/-- **`max_frame_payload` bounds every DATA frame of a run exactly if it bounds every read of a
backend that the relay accepts.** -/
theorem frames_bounded_iff {W : BackendTraffic} {run : List BackendTraffic}
    (h : BackendTraffic.Run sha256 limits carrier (W :: run)) :
    (∀ V ∈ W :: run, FramesBounded limits V.state) ↔
      ∀ p ∈ W.handed, p.2.length ≤ limits.maxFramePayload := by
  constructor
  · intro hall
    generalize hrun : W :: run = Ws at h hall
    induction h generalizing W run with
    | start =>
        cases hrun
        simp
    | @step V W Vs hV hstep ih =>
        cases hrun
        have hold := ih rfl fun U hU => hall U (List.mem_cons_of_mem _ hU)
        rcases hstep.handed with ⟨id, b, data, hhanded, hread⟩ | hhanded
        · intro p hp
          rw [hhanded] at hp
          rcases List.mem_append.mp hp with hp | hp
          · exact hold p hp
          · rw [List.mem_singleton.mp hp]
            exact (hall W List.mem_cons_self).accepted hread hV.reachable.state.sound.limits_eq
        · rw [hhanded]
          exact hold
  · intro hhanded
    have hdelivers : ∀ V ∈ W :: run, Delivers limits limits.maxFramePayload V.state := by
      generalize hrun : W :: run = Ws at h
      induction h generalizing W run with
      | start =>
          intro V hV
          rw [List.mem_singleton.mp hV]
          exact newSession_delivers limits carrier
      | @step V V' Vs hV hstep ih =>
          cases hrun
          have hkept : ∀ p ∈ V.handed, p.2.length ≤ limits.maxFramePayload := by
            intro p hp
            apply hhanded
            rcases hstep.handed with ⟨id, b, data, he, -⟩ | he
            · rw [he]
              exact List.mem_append_left _ hp
            · rw [he]
              exact hp
          have hold := ih hkept rfl
          intro U hU
          rcases List.mem_cons.mp hU with rfl | hU
          · exact hstep.delivers hV.reachable (hold V List.mem_cons_self) le_rfl hhanded
          · exact hold U hU
    exact fun V hV => (hdelivers V hV).framesBounded

/-- A read of one byte, under the default limits. -/
theorem frames_bounded_iff_read : ∃ W run, BackendTraffic.Run id defaultLimits .https (W :: run) ∧
    W.handed = [(0, [7])] ∧ ((∀ V ∈ W :: run, FramesBounded defaultLimits V.state) ↔
      ∀ p ∈ W.handed, p.2.length ≤ defaultLimits.maxFramePayload) := by
  have hplay : ((play id ⟨newSession defaultLimits .https, []⟩
        (upCalls 1 (encode .open 1 []) [true])).bind fun σ =>
      (attempt id σ (.nextReadAllowance 1) []).bind fun p =>
        (attempt id p.2 (.backendData 1 [7]) [true]).map fun q =>
          (decide (.opened 1 0 ∈ σ.trace), decide (.opened 1 0 ∈ p.2.trace), p.1, q.1)) =
      some (true, true, .read (.granted 65536), .flag true) := by
    decide +kernel
  obtain ⟨σ, h₁, hplay⟩ := Option.bind_eq_some_iff.mp hplay
  obtain ⟨⟨r₂, σ₂⟩, h₂, hplay⟩ := Option.bind_eq_some_iff.mp hplay
  obtain ⟨⟨r₃, σ₃⟩, h₃, he⟩ := Option.map_eq_some_iff.mp hplay
  simp only [Prod.mk.injEq, decide_eq_true_eq] at he
  obtain ⟨hopened, hopened₂, rfl, rfl⟩ := he
  have hW₁ := BackendTraffic.Reachable.start.play (σ := σ) (upCalls_ofBackend _ _ _) h₁
  obtain ⟨run, hrun⟩ := hW₁.run
  have hrun₂ := hrun.step (.turn (b := 0) hopened .dialled)
  have hrun₃ := hrun₂.step (.call (b := 0) hopened .granted (.attempt h₂))
  have hrun₄ := hrun₃.step (.call (b := 0) hopened₂ (.read (by simp) (by simp) true) (.attempt h₃))
  exact ⟨_, _, hrun₄, rfl, frames_bounded_iff hrun₄⟩

/-- Under a `max_frame_payload` of one byte a backend is read for two, and the frame has two. -/
theorem frames_unbounded : ∃ W,
    BackendTraffic.Reachable id (oneByteFrames.sessionLimits alpha) .https W ∧
      ¬ FramesBounded (oneByteFrames.sessionLimits alpha) W.state := by
  have hplay : ((play id ⟨newSession (oneByteFrames.sessionLimits alpha) .https, []⟩
        (upCalls 1 (encode .open 1 []) [true])).bind fun σ =>
      (attempt id σ (.nextReadAllowance 1) []).bind fun p =>
        (attempt id p.2 (.backendData 1 [7, 8]) [true]).map fun q =>
          (decide (.opened 1 0 ∈ σ.trace), decide (.opened 1 0 ∈ p.2.trace), p.1, q.1,
            q.2.session.down.pendingFrames.any fun f => f.typeCode = .data && f.payload.length = 2)) =
      some (true, true, .read (.granted 65536), .flag true, true) := by
    decide +kernel
  obtain ⟨σ, h₁, hplay⟩ := Option.bind_eq_some_iff.mp hplay
  obtain ⟨⟨r₂, σ₂⟩, h₂, hplay⟩ := Option.bind_eq_some_iff.mp hplay
  obtain ⟨⟨r₃, σ₃⟩, h₃, he⟩ := Option.map_eq_some_iff.mp hplay
  simp only [Prod.mk.injEq, decide_eq_true_eq] at he
  obtain ⟨hopened, hopened₂, rfl, rfl, hframes⟩ := he
  have hW₁ := BackendTraffic.Reachable.start.play (σ := σ) (upCalls_ofBackend _ _ _) h₁
  have hW₂ := hW₁.step (.turn (b := 0) hopened .dialled)
  have hW₃ := hW₂.step (.call (b := 0) hopened .granted (.attempt h₂))
  have hW₄ := hW₃.step (.call (b := 0) hopened₂ (.read (by simp) (by simp) true) (.attempt h₃))
  refine ⟨_, hW₄, fun h => ?_⟩
  obtain ⟨f, hf, he⟩ := List.any_eq_true.mp hframes
  simp only [Bool.and_eq_true, decide_eq_true_eq] at he
  obtain ⟨hty, hlength⟩ := he
  have hle := h.queued.own f hf hty
  rw [hlength] at hle
  exact absurd hle (by decide +kernel)

end TproxyServer
