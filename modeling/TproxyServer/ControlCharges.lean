import TproxyServer.Accounting
import TproxyServer.DownlinkBodies
import TproxyServer.ReadAllowance

/-! # The charges of control frames

What a session is charged for its WINDOW and CLOSE frames: those in its queues, and those in the
batches that are not acknowledged yet, which are read back from the bodies.  `Priced` says that a
downlink is charged for every frame what the frame costs; then the control frames are a part of
all that is held. -/

namespace TproxyServer

variable {limits : Limits} {carrier : CarrierMode} {scope : Scope} {s s' : Session}
  {d d' : Downlink} {sha256 : Bytes → Bytes}

/-! ### Sums over control frames -/

/-- What the frames of a list other than DATA come to. -/
def controlSum {α : Type} (type : α → FrameType) (charge : α → ℕ × ℕ) (l : List α) : ℕ × ℕ :=
  ((l.filter fun a => type a ≠ .data).map charge).sum

section

variable {α β : Type} {type : α → FrameType} {charge : α → ℕ × ℕ}

@[simp] theorem controlSum_nil : controlSum type charge [] = 0 := rfl

theorem controlSum_append (l l' : List α) :
    controlSum type charge (l ++ l') = controlSum type charge l + controlSum type charge l' := by
  simp [controlSum]

theorem controlSum_singleton (a : α) :
    controlSum type charge [a] = if type a = .data then 0 else charge a := by
  unfold controlSum
  by_cases h : type a = .data
  · rw [if_pos h]
    simp [h]
  · rw [if_neg h]
    simp [h]

/-- The control frames are a part of all frames. -/
theorem controlSum_le (l : List α) : controlSum type charge l ≤ (l.map charge).sum := by
  induction l with
  | nil => exact le_rfl
  | cons a l ih =>
      rw [← List.singleton_append, controlSum_append, controlSum_singleton, List.map_append,
        List.sum_append]
      refine add_le_add ?_ ih
      split_ifs
      · exact ⟨Nat.zero_le _, Nat.zero_le _⟩
      · simp

/-- Only types and charges count. -/
theorem controlSum_map {type' : β → FrameType} {charge' : β → ℕ × ℕ} (g : α → β) {l : List α}
    (h : ∀ a ∈ l, type' (g a) = type a ∧ charge' (g a) = charge a) :
    controlSum type' charge' (l.map g) = controlSum type charge l := by
  induction l with
  | nil => rfl
  | cons a l ih =>
      obtain ⟨ht, hc⟩ := h a List.mem_cons_self
      rw [List.map_cons, ← List.singleton_append, controlSum_append, controlSum_singleton, ht, hc,
        ih fun b hb => h b (List.mem_cons_of_mem a hb), ← controlSum_singleton,
        ← controlSum_append, List.singleton_append]

end

/-! ### The control frames of a session -/

/-- What a frame is charged: its bytes and one item. -/
def Frame.charge (f : Frame) : ℕ × ℕ := (headerSize + f.payload.length + queueItemCost, 1)

def QueuedFrame.charge (f : QueuedFrame) : ℕ × ℕ := (f.cost, 1)

/-- The frames of a batch that was put together. -/
def batchFrames (body : Bytes) : List Frame :=
  match parseLoop maxUint32 body.length body with
  | .ok frames => frames
  | .error _ => []

theorem batchFrames_encodeAll {frames : List Frame} (h : ∀ f ∈ frames, f.Encodable maxUint32) :
    batchFrames (encodeAll frames) = frames := by
  have hroom : frames.length ≤ (encodeAll frames).length := by
    clear h
    induction frames with
    | nil => exact Nat.zero_le _
    | cons f frames ih =>
        rw [encodeAll_cons, List.length_append, Frame.encode_length, List.length_cons]
        unfold headerSize
        omega
  unfold batchFrames
  rw [parseLoop_encodeAll h le_rfl hroom]

/-- What the queued and the unacknowledged WINDOW and CLOSE frames of a downlink are charged. -/
def Downlink.controlHeld (d : Downlink) : ℕ × ℕ :=
  controlSum QueuedFrame.typeCode QueuedFrame.charge d.pendingFrames +
    controlSum Frame.type Frame.charge (batchFrames d.unacked)

/-- What the WINDOW and CLOSE frames of a session are charged; the second component is their
number. -/
def Session.controlHeld (s : Session) : ℕ × ℕ := s.overQueues Downlink.controlHeld

/-! ### Queueing -/

theorem controlHeld_push (d : Downlink) (f : QueuedFrame) (windows : Option (Table ℕ ℕ)) :
    Downlink.controlHeld { d with
      pendingFrames := d.pendingFrames ++ [f], pendingWindows := windows } =
      (if f.typeCode = .data then 0 else f.charge) + d.controlHeld := by
  unfold Downlink.controlHeld
  rw [controlSum_append, controlSum_singleton, add_comm (controlSum _ _ d.pendingFrames),
    add_assoc]

theorem controlHeld_extend {ty : FrameType} {id : ℕ} {payload : Bytes} {last : QueuedFrame}
    (h : d.extendable limits ty id payload = some last) :
    Downlink.controlHeld { d with
      pendingFrames := d.pendingFrames.dropLast ++ [last.extend payload] } = d.controlHeld := by
  obtain ⟨heq, hdata, -, -⟩ := Downlink.extendable_eq h
  unfold Downlink.controlHeld
  conv_rhs => rw [heq]
  have hextend : (last.extend payload).typeCode = .data := hdata
  rw [controlSum_append, controlSum_append, controlSum_singleton, controlSum_singleton,
    if_pos hdata, if_pos hextend]

theorem controlHeld_setAmount {index : ℕ} {f : QueuedFrame}
    (hf : d.pendingFrames[index]? = some f) (total : ℕ) :
    Downlink.controlHeld { d with pendingFrames := d.pendingFrames.set index (f.setAmount total) } =
      d.controlHeld := by
  obtain ⟨hlt, rfl⟩ := List.getElem?_eq_some_iff.mp hf
  have hsum : ∀ g : QueuedFrame,
      controlSum QueuedFrame.typeCode QueuedFrame.charge (d.pendingFrames.set index g) =
        controlSum QueuedFrame.typeCode QueuedFrame.charge (d.pendingFrames.take index) +
          controlSum QueuedFrame.typeCode QueuedFrame.charge [g] +
          controlSum QueuedFrame.typeCode QueuedFrame.charge
            (d.pendingFrames.drop (index + 1)) := by
    intro g
    rw [List.set_eq_take_append_cons_drop, if_pos hlt, ← List.singleton_append,
      controlSum_append, controlSum_append, add_assoc]
  have hself := hsum d.pendingFrames[index]
  rw [List.set_getElem_self] at hself
  unfold Downlink.controlHeld
  rw [hsum, hself, controlSum_singleton, controlSum_singleton]
  rfl

/-! ### Prices -/

/-- The largest charge of a control frame (`costPerItem` of `pendingControlReserve`). -/
def costPerItem : ℕ := queueItemCost + headerSize + 4

/-- A frame as it goes out: one for control carries no more than the amount of a WINDOW. -/
structure Frame.Plain (f : Frame) : Prop where
  encodable : f.Encodable maxUint32
  control : f.type ≠ .data → f.payload.length ≤ 4

/-- A downlink is charged for every frame what the frame costs. -/
structure Downlink.Priced (d : Downlink) : Prop where
  frames : ∀ f ∈ d.pendingFrames, f.charge = f.frame.charge ∧ f.frame.Plain
  unacked : ∃ frames, d.unacked = encodeAll frames ∧ (∀ f ∈ frames, f.Plain) ∧
    (d.unackedCost, d.unackedItems) = (frames.map Frame.charge).sum

theorem Downlink.held_eq (d : Downlink) :
    d.held = (d.pendingFrames.map QueuedFrame.charge).sum + (d.unackedCost, d.unackedItems) := by
  have hsum : ∀ l : List QueuedFrame,
      (l.map QueuedFrame.charge).sum = ((l.map (·.cost)).sum, l.length) := by
    intro l
    induction l with
    | nil => rfl
    | cons f l ih =>
        rw [List.map_cons, List.sum_cons, ih, QueuedFrame.charge, List.map_cons, List.sum_cons,
          Prod.mk_add_mk, List.length_cons, add_comm 1]
  rw [hsum]
  exact Prod.ext (add_comm _ _) (add_comm _ _)

namespace Downlink.Priced

theorem new : Downlink.Priced {} where
  frames := by simp
  unacked := ⟨[], rfl, by simp, rfl⟩

theorem drop (d : Downlink) : d.drop.Priced where
  frames := by simp [Downlink.drop, Downlink.signal]
  unacked := ⟨[], rfl, by simp, rfl⟩

/-- The control frames of the unacknowledged batch are charged with it. -/
theorem unacked_le (h : d.Priced) :
    controlSum Frame.type Frame.charge (batchFrames d.unacked) ≤
      (d.unackedCost, d.unackedItems) := by
  obtain ⟨frames, hbody, hplain, hcharge⟩ := h.unacked
  rw [hbody, batchFrames_encodeAll fun f hf => (hplain f hf).encodable, hcharge]
  exact controlSum_le frames

theorem controlHeld_le (h : d.Priced) : d.controlHeld ≤ d.held := by
  rw [Downlink.held_eq]
  exact add_le_add (controlSum_le _) h.unacked_le

/-- What an acknowledgement gives back covers the control frames that go with it. -/
theorem controlHeld_acknowledge (h : d.Priced) :
    d.controlHeld ≤ (d.unackedCost, d.unackedItems) + d.acknowledge.controlHeld := by
  have hack : d.acknowledge.controlHeld =
      controlSum QueuedFrame.typeCode QueuedFrame.charge d.pendingFrames := add_zero _
  rw [hack, add_comm]
  exact add_le_add_right h.unacked_le _

theorem acknowledge (h : d.Priced) : d.acknowledge.Priced where
  frames := h.frames
  unacked := ⟨[], rfl, by simp, rfl⟩

/-- Frames are taken out of the queue with their charges. -/
theorem takeBatch (h : d.Priced) (hw : d.Well) (limits : Limits) (cursor : ℕ)
    (hunacked : d.unacked = []) :
    ((d.takeBatch limits).2.deliver (d.takeBatch limits).1 cursor).Priced ∧
      ((d.takeBatch limits).2.deliver (d.takeBatch limits).1 cursor).controlHeld =
        d.controlHeld := by
  have hle := batchCount_le limits.carrierBatchBytes maxBatchFrames 0 0 d.pendingFrames
  unfold Downlink.takeBatch Downlink.deliver Downlink.leave
  dsimp only
  generalize batchCount limits.carrierBatchBytes maxBatchFrames 0 0 d.pendingFrames = count at hle
  have htaken : ∀ f ∈ d.pendingFrames.take count, f ∈ d.pendingFrames :=
    fun f hf => List.mem_of_mem_take hf
  have hbody : (d.pendingFrames.take count).flatMap (·.encoded) =
      encodeAll ((d.pendingFrames.take count).map QueuedFrame.frame) := by
    unfold encodeAll
    rw [List.flatMap_map]
    exact List.flatMap_congr fun f hf => (hw.frames f (htaken f hf)).encoded
  have hplain : ∀ f ∈ (d.pendingFrames.take count).map QueuedFrame.frame, f.Plain := by
    intro f hf
    obtain ⟨g, hg, rfl⟩ := List.mem_map.mp hf
    exact (h.frames g (htaken g hg)).2
  have hsum : (((d.pendingFrames.take count).map (·.cost)).sum, count) =
      (((d.pendingFrames.take count).map QueuedFrame.frame).map Frame.charge).sum := by
    have hheld := Downlink.held_eq { d with
      pendingFrames := d.pendingFrames.take count, unackedCost := 0, unackedItems := 0 }
    have hcharges : ((d.pendingFrames.take count).map QueuedFrame.frame).map Frame.charge =
        (d.pendingFrames.take count).map QueuedFrame.charge := by
      rw [List.map_map]
      exact List.map_congr_left fun f hf => (h.frames f (htaken f hf)).1.symm
    simp only [Downlink.held, zero_add, Prod.mk_zero_zero, add_zero] at hheld
    rw [hcharges, ← hheld, List.length_take, Nat.min_eq_left hle]
  refine ⟨⟨fun f hf => h.frames f (List.mem_of_mem_drop hf), _, hbody, hplain, hsum⟩, ?_⟩
  have hcontrols : controlSum Frame.type Frame.charge
      ((d.pendingFrames.take count).map QueuedFrame.frame) =
      controlSum QueuedFrame.typeCode QueuedFrame.charge (d.pendingFrames.take count) :=
    controlSum_map QueuedFrame.frame fun f hf => ⟨rfl, (h.frames f (htaken f hf)).1.symm⟩
  unfold Downlink.controlHeld
  dsimp only
  rw [hbody, batchFrames_encodeAll fun f hf => (hplain f hf).encodable, hunacked, hcontrols,
    add_comm, ← controlSum_append, List.take_append_drop]
  exact (add_zero _).symm

end Downlink.Priced

/-- A frame goes into a queue for its price. -/
theorem Enqueue.priced {ty : FrameType} {id : ℕ} {payload : Bytes}
    (h : Enqueue limits d ty id payload d') (hw : d.Well) (hd : d.Priced)
    (hbound : limits.maxFramePayload ≤ maxUint32)
    (hnew : Frame.Plain ⟨ty, id, payload⟩) : d'.Priced := by
  refine ⟨fun g hg => ?_, by cases h <;> exact hd.unacked⟩
  cases h with
  | @merge id index payload f hindex hf htotal =>
      have hmem : f ∈ d.pendingFrames := List.mem_of_getElem? hf
      rcases List.mem_or_eq_of_mem_set hg with hg | rfl
      · exact hd.frames g hg
      obtain ⟨hwindow, -⟩ := hw.indexed_frame hindex hf
      obtain ⟨hcharge, hplain⟩ := hd.frames f hmem
      have hpayload := (hw.frames f hmem).setAmount_payload hwindow
        ((windowAmount (f.encoded.drop headerSize)).1 + (windowAmount payload).1)
      have hlength : f.frame.payload.length = 4 := (hw.frames f hmem).window hwindow
      have hfour : (f.setAmount ((windowAmount (f.encoded.drop headerSize)).1 +
          (windowAmount payload).1)).payload.length = 4 := by rw [hpayload, putUint32_length]
      refine ⟨?_, ⟨hplain.encodable.type, hplain.encodable.streamID, ?_⟩, fun _ => hfour.le⟩
      · refine Eq.trans hcharge ?_
        unfold Frame.charge
        rw [hlength]
        unfold QueuedFrame.frame
        dsimp only
        rw [hpayload, putUint32_length]
      · exact hfour.le.trans (show 4 ≤ maxUint32 by decide)
  | @extend id payload last hlast =>
      obtain ⟨hsplit, hdata, -, -⟩ := Downlink.extendable_eq hlast
      have hmem : last ∈ d.pendingFrames := by
        rw [hsplit]
        simp
      rcases List.mem_append.mp hg with hg | hg
      · exact hd.frames g (List.mem_of_mem_dropLast hg)
      obtain rfl := List.mem_singleton.mp hg
      obtain ⟨hcharge, hplain⟩ := hd.frames last hmem
      have hpayload : (last.extend payload).frame.payload = last.frame.payload ++ payload :=
        (hw.frames last hmem).extend_payload payload
      have hroom := (Option.filter_eq_some_iff.mp hlast).2
      simp only [decide_eq_true_eq] at hroom
      have hlength := (hw.frames last hmem).length
      have hcost : last.cost = headerSize + last.payload.length + queueItemCost :=
        congrArg Prod.fst hcharge
      refine ⟨?_, ⟨hplain.encodable.type, hplain.encodable.streamID, ?_⟩,
        fun hne => absurd hdata hne⟩
      · unfold Frame.charge QueuedFrame.charge
        rw [hpayload, List.length_append]
        show (last.cost + payload.length, 1) = _
        rw [hcost]
        refine Prod.ext ?_ rfl
        show headerSize + last.payload.length + queueItemCost + payload.length =
          headerSize + (last.payload.length + payload.length) + queueItemCost
        omega
      · rw [hpayload, List.length_append]
        show last.payload.length + payload.length ≤ maxUint32
        omega
  | append =>
      rcases List.mem_append.mp hg with hg | hg
      · exact hd.frames g hg
      · obtain rfl := List.mem_singleton.mp hg
        refine ⟨?_, hnew⟩
        refine Prod.ext ?_ rfl
        show (encode ty id payload).length + queueItemCost = _
        rw [encode_length]
        rfl

theorem QueueResult.priced {ty : FrameType} {id : ℕ} {payload : Bytes} {es : List Event}
    {ok : Bool} (h : QueueResult s ty id payload es s' ok) (hw : s.Downlinks Downlink.Well)
    (hs : s.Downlinks Downlink.Priced) (hbound : s.limits.maxFramePayload ≤ maxUint32)
    (hnew : Frame.Plain ⟨ty, id, payload⟩) : s'.Downlinks Downlink.Priced := by
  cases h with
  | refused => exact hs
  | @accepted q d cost items notify hq h =>
      have hs' : (s.setPending cost items notify).Downlinks Downlink.Priced := hs.congr rfl rfl rfl
      exact hs'.setQueue (h.priced (hw.queue .new q) (hs.queue .new q) hbound hnew) q

/-- **Every change keeps the prices.** -/
theorem Change.priced {σ σ' : Traced} (h : Change scope σ σ') (hs : Sound limits carrier σ)
    (hw : σ.session.Downlinks Downlink.Well) (hb : σ.session.CreditBounded)
    (hd : σ.session.Downlinks Downlink.Priced) (hbound : limits.maxFramePayload ≤ maxUint32) :
    σ'.session.Downlinks Downlink.Priced := by
  have hq := fun q => hd.queue .new q
  have hlimits := hs.limits_eq
  cases h with
  | @drained s s' t es id amount st ok _ hst _ _ _ _ h _ =>
      obtain ⟨-, hmax, -⟩ := hs.known id (by simp [hst])
      exact h.priced (hw.congr rfl rfl rfl) (hd.congr rfl rfl rfl) (hlimits ▸ hbound)
        ⟨⟨rfl, hmax, by show 4 ≤ maxUint32; decide⟩, fun _ => le_rfl⟩
  | @read s s' t es id st data ok _ hst _ hcredit h _ =>
      obtain ⟨-, hmax, -⟩ := hs.known id (by simp [hst])
      exact h.priced (hw.congr rfl rfl rfl) (hd.congr rfl rfl rfl) (hlimits ▸ hbound)
        ⟨⟨rfl, hmax, hcredit.trans (hb id st hst)⟩, fun hne => absurd rfl hne⟩
  | queueClose _ _ _ h hrange _ _ =>
      exact h.priced hw hd (hlimits ▸ hbound)
        ⟨⟨rfl, hrange.2, Nat.zero_le _⟩, fun _ => Nat.zero_le _⟩
  | @rememberFull s t id old _ _ _ _ _ _ =>
      have hold : s.Downlinks Downlink.Priced := hd
      cases hl : s.carrierLanes.get old with
      | none => exact hold.congr rfl (Table.del_eq_self _ hl) rfl
      | some l =>
          have hdel : (s.delLane old l.drop).Downlinks Downlink.Priced := hold.delLane (.drop _)
          exact ⟨hdel.own, hdel.lanes, hdel.released⟩
  | createLane _ _ _ _ => exact (hd.putLane .new).congr rfl rfl rfl
  | touchLane hl _ hdown => exact hd.putLane (by rw [hdown]; exact hd.lanes _ _ hl)
  | dropLane => exact hd.delLane (.drop _)
  | @attend s t q _ active superseded notify _ _ =>
      have hattend : Downlink.Priced { s.queue q with downActive := active, superseded, notify } :=
        ⟨(hq q).frames, (hq q).unacked⟩
      exact hd.setQueue hattend q
  | acknowledge => exact hd.setQueue (hq _).acknowledge _
  | @deliver s t q cursor mine _ hmine _ _ =>
      have hparked : (s.queue q).superseded ≠ none := by rw [hmine]; simp
      have hunacked := (hw.queue .new q).parked hparked
      exact hd.setQueue ((hq q).takeBatch (hw.queue .new q) s.limits cursor hunacked).1 q
  | @close s t =>
      refine ⟨.drop _, fun id l hl => ?_, hd.released⟩
      have hl' : (s.carrierLanes.mapValues CarrierLane.drop).get id = some l := hl
      rw [Table.get_mapValues] at hl'
      obtain ⟨l₀, -, rfl⟩ := Option.map_eq_some_iff.mp hl'
      exact .drop _
  | laneUplink _ id object f _ hdown _ =>
      exact hd.modifyLane fun l h => by rw [hdown]; exact h
  | _ => exact hd.congr rfl rfl rfl

/-- What the prices of a session rest on. -/
structure Session.Prices (s : Session) : Prop where
  well : s.Downlinks Downlink.Well
  credit : s.CreditBounded
  priced : s.Downlinks Downlink.Priced

theorem Change.prices {σ σ' : Traced} (h : Change scope σ σ') (hs : Sound limits carrier σ)
    (hbound : limits.maxFramePayload ≤ maxUint32) (hp : σ.session.Prices) : σ'.session.Prices :=
  ⟨h.downlinks hp.well, h.creditBounded hp.credit, h.priced hs hp.well hp.credit hp.priced hbound⟩

theorem Changes.prices {σ σ' : Traced} (h : Changes scope σ σ') (hs : Sound limits carrier σ)
    (hbound : limits.maxFramePayload ≤ maxUint32) (hp : σ.session.Prices) : σ'.session.Prices :=
  (h.invariant (I := fun τ => Sound limits carrier τ ∧ τ.session.Prices)
    (fun hc hI => ⟨hc.sound hI.1, hc.prices hI.1 hbound hI.2⟩) ⟨hs, hp⟩).2

theorem newSession_priced (limits : Limits) (carrier : CarrierMode) :
    (newSession limits carrier).Downlinks Downlink.Priced := by
  unfold newSession
  split_ifs
  · refine ⟨.new, fun id l hl => ?_, (by simp)⟩
    have hput : (Table.nil.put 0 ({ object := 0 } : CarrierLane)).get id = some l := hl
    rw [Table.get_put] at hput
    split_ifs at hput
    · cases hput
      exact .new
    · cases hput
  · exact ⟨.new, (by simp), (by simp)⟩

theorem Reachable.prices {σ : Traced} (h : Reachable sha256 limits carrier σ)
    (hbound : limits.maxFramePayload ≤ maxUint32) : σ.session.Prices := by
  refine ⟨h.downlinks, h.creditBounded, ?_⟩
  have hstart : Reachable sha256 limits carrier ⟨newSession limits carrier, []⟩ := .start
  exact (h.invariant (I := fun τ => τ.session.Downlinks Downlink.Well ∧ τ.session.CreditBounded ∧
      τ.session.Downlinks Downlink.Priced)
    ⟨newSession_downlinks limits carrier, hstart.creditBounded,
      newSession_priced limits carrier⟩
    fun hc hs hI => ⟨hc.downlinks hI.1, hc.creditBounded hI.2.1,
      hc.priced hs hI.1 hI.2.1 hI.2.2 hbound⟩).2.2

/-- The control frames are a part of what is held. -/
theorem Session.controlHeld_le_held (h : s.Downlinks Downlink.Priced) : s.controlHeld ≤ s.held := by
  have htotal : Table.total (fun l : CarrierLane => l.down.controlHeld) s.carrierLanes ≤
      Table.total CarrierLane.held s.carrierLanes := by
    refine List.sum_le_sum fun e he => ?_
    exact (h.lanes e.1 e.2 (Table.get_of_mem _ he)).controlHeld_le
  have hqueues : s.controlHeld ≤ s.overQueues Downlink.held :=
    add_le_add h.own.controlHeld_le htotal
  exact hqueues.trans (le_add_of_nonneg_right ⟨Nat.zero_le _, Nat.zero_le _⟩)

/-! ### The bytes of control frames -/

/-- So many items for so many bytes: none costs more than a control frame may. -/
def Counted (charges : ℕ × ℕ) : Prop := charges.1 ≤ costPerItem * charges.2

theorem Counted.zero : Counted 0 := Nat.zero_le _

theorem Counted.add {charges charges' : ℕ × ℕ} (h : Counted charges) (h' : Counted charges') :
    Counted (charges + charges') := by
  show charges.1 + charges'.1 ≤ costPerItem * (charges.2 + charges'.2)
  rw [mul_add]
  exact add_le_add h h'

theorem Counted.sum {l : List (ℕ × ℕ)} (h : ∀ charges ∈ l, Counted charges) : Counted l.sum :=
  List.sum_induction Counted (fun _ _ => Counted.add) Counted.zero h

theorem Frame.Plain.counted {f : Frame} (h : f.Plain) (hdata : f.type ≠ .data) :
    Counted f.charge := by
  have := h.control hdata
  show headerSize + f.payload.length + queueItemCost ≤ costPerItem * 1
  unfold costPerItem
  omega

theorem Downlink.Priced.counted (h : d.Priced) : Counted d.controlHeld := by
  obtain ⟨frames, hbody, hplain, -⟩ := h.unacked
  refine Counted.add (.sum fun charges hmem => ?_) (.sum fun charges hmem => ?_)
  · obtain ⟨f, hf, rfl⟩ := List.mem_map.mp hmem
    obtain ⟨hf, hdata⟩ := List.mem_filter.mp hf
    obtain ⟨hcharge, hf'⟩ := h.frames f hf
    rw [hcharge]
    exact hf'.counted (show f.typeCode ≠ .data by simpa using hdata)
  · rw [hbody, batchFrames_encodeAll fun f hf => (hplain f hf).encodable] at hmem
    obtain ⟨f, hf, rfl⟩ := List.mem_map.mp hmem
    obtain ⟨hf, hdata⟩ := List.mem_filter.mp hf
    exact (hplain f hf).counted (by simpa using hdata)

/-- The control frames of a session cost no more than so many may. -/
theorem Session.controlHeld_counted (h : s.Downlinks Downlink.Priced) : Counted s.controlHeld := by
  refine h.own.counted.add (.sum fun charges hmem => ?_)
  obtain ⟨e, he, rfl⟩ := List.mem_map.mp hmem
  exact (h.lanes e.1 e.2 (Table.get_of_mem _ he)).counted

end TproxyServer
