import TproxyServer.NewestPoll
import TproxyServer.DownlinkBodies
import TproxyServer.Representation

/-! # Every frame for the client is delivered once

What was queued for a client and what its polls were given, compared over whole runs.  Frames
are joined while they wait, so the comparison is of what they say: the bytes and the ends of the
streams in their order, and for every stream the sum of its credit (`Says`).

The cursor of a poll numbers its answer: a body that was delivered is the only one that was ever
given, or will be given again, for its cursor. -/

namespace TproxyServer

open Interaction Prog

variable {limits : Limits} {carrier : CarrierMode} {scope : Scope} {s s' : Session}
  {t es : List Event} {sha256 : Bytes → Bytes}

/-! ### What frames say -/

/-- The bytes of a DATA frame and the end that a CLOSE announces, each with its stream. -/
def Frame.marks (f : Frame) : List (ℕ × Option UInt8) :=
  if f.type = .data then f.payload.map fun b => (f.streamID, some b)
  else if f.type = .close then [(f.streamID, none)]
  else []

/-- What a WINDOW frame grants to stream `id`. -/
def Frame.grant (id : ℕ) (f : Frame) : ℕ :=
  if f.type = .window ∧ f.streamID = id then (windowAmount f.payload).1 else 0

/-- Two lists of frames say the same. -/
structure Says (frames frames' : List Frame) : Prop where
  marks : frames.flatMap Frame.marks = frames'.flatMap Frame.marks
  grants : ∀ id, (frames.map (Frame.grant id)).sum = (frames'.map (Frame.grant id)).sum

theorem Says.refl (frames : List Frame) : Says frames frames := ⟨rfl, fun _ => rfl⟩

theorem Says.trans {a b c : List Frame} (h : Says a b) (h' : Says b c) : Says a c :=
  ⟨h.marks.trans h'.marks, fun id => (h.grants id).trans (h'.grants id)⟩

theorem Says.append {a a' b b' : List Frame} (h : Says a a') (h' : Says b b') :
    Says (a ++ b) (a' ++ b') := by
  constructor
  · rw [List.flatMap_append, List.flatMap_append, h.marks, h'.marks]
  · intro id
    rw [List.map_append, List.map_append, List.sum_append, List.sum_append, h.grants, h'.grants]

/-- One frame says what two say. -/
theorem Says.join {f g e : Frame} (hmarks : e.marks = f.marks ++ g.marks)
    (hgrants : ∀ id, e.grant id = f.grant id + g.grant id) : Says [e] [f, g] := by
  constructor
  · simp [hmarks]
  · intro id
    simp [hgrants]

/-- A WINDOW may stand anywhere. -/
theorem Says.swap_window {f : Frame} (h : f.type = .window) (frames : List Frame) :
    Says (f :: frames) (frames ++ [f]) := by
  have hmarks : f.marks = [] := by simp [Frame.marks, h]
  constructor
  · simp [hmarks]
  · intro id
    simp [Nat.add_comm]

/-! ### A queue -/

def Downlink.frames (d : Downlink) : List Frame := d.pendingFrames.map QueuedFrame.frame

section

variable {d d' : Downlink} {ty : FrameType} {id : ℕ} {payload : Bytes}

/-- A queue says what it said, and what the new frame says. -/
theorem Enqueue.tells (h : Enqueue limits d ty id payload d') (hd : d.Well) :
    Says d'.frames (d.frames ++ [⟨ty, id, payload⟩]) := by
  cases h with
  | @merge id index payload f hindex hf htotal =>
      obtain ⟨hwindow, hid⟩ := hd.indexed_frame hindex hf
      have hwell := hd.frames f (List.mem_of_getElem? hf)
      have hlt := (List.getElem?_eq_some_iff.mp hf).1
      have hframe : d.pendingFrames = d.pendingFrames.take index ++
          f :: d.pendingFrames.drop (index + 1) := by
        have hget := (List.getElem?_eq_some_iff.mp hf).2
        rw [← hget, List.getElem_cons_drop, List.take_append_drop]
      set total := (windowAmount (f.encoded.drop headerSize)).1 + (windowAmount payload).1
        with htotaldef
      have hsum : (windowAmount (f.setAmount total).payload).1 =
          (windowAmount f.payload).1 + (windowAmount payload).1 := by
        rw [hwell.setAmount_payload hwindow]
        exact windowAmount_windowPayload htotal
      have hone : Says [(f.setAmount total).frame] [f.frame, ⟨.window, id, payload⟩] := by
        apply Says.join
        · simp [Frame.marks, QueuedFrame.frame, QueuedFrame.setAmount, hwindow]
        · intro i
          have htype : (f.setAmount total).frame.type = .window := hwindow
          have hstream : (f.setAmount total).frame.streamID = id := hid
          unfold Frame.grant
          rw [htype, hstream, show f.frame.type = .window from hwindow,
            show f.frame.streamID = id from hid]
          by_cases hi : id = i
          · rw [if_pos ⟨rfl, hi⟩, if_pos ⟨rfl, hi⟩, if_pos ⟨rfl, hi⟩]
            exact hsum
          · rw [if_neg (by simp [hi]), if_neg (by simp [hi]), if_neg (by simp [hi])]
      have hset : d.pendingFrames.set index (f.setAmount total) =
          d.pendingFrames.take index ++ f.setAmount total :: d.pendingFrames.drop (index + 1) := by
        rw [List.set_eq_take_append_cons_drop, if_pos hlt]
      have hleft : Downlink.frames { d with
            pendingFrames := d.pendingFrames.set index (f.setAmount total) }.signal =
          (d.pendingFrames.take index).map QueuedFrame.frame ++
            ([(f.setAmount total).frame] ++
              (d.pendingFrames.drop (index + 1)).map QueuedFrame.frame) := by
        show (d.pendingFrames.set index (f.setAmount total)).map QueuedFrame.frame = _
        rw [hset]
        simp
      have hright : d.frames = (d.pendingFrames.take index).map QueuedFrame.frame ++
          f.frame :: (d.pendingFrames.drop (index + 1)).map QueuedFrame.frame := by
        unfold Downlink.frames
        conv_lhs => rw [hframe]
        simp
      rw [hleft, hright, List.append_assoc]
      generalize (d.pendingFrames.drop (index + 1)).map QueuedFrame.frame = later
      have hlater : Says ([f.frame] ++ (⟨.window, id, payload⟩ :: later))
          ([f.frame] ++ (later ++ [⟨.window, id, payload⟩])) :=
        Says.append (.refl _) (Says.swap_window rfl later)
      exact Says.append (.refl _) ((hone.append (.refl later)).trans hlater)
  | @extend id payload last hlast =>
      obtain ⟨heq, hdata, -, hid⟩ := Downlink.extendable_eq hlast
      have hwell := hd.frames last (by rw [heq]; simp)
      have hone : Says [(last.extend payload).frame] [last.frame, ⟨.data, id, payload⟩] := by
        apply Says.join
        · have hpayload : (last.extend payload).frame.payload = last.payload ++ payload :=
            hwell.extend_payload payload
          have htype : (last.extend payload).frame.type = .data := hdata
          have hstream : (last.extend payload).frame.streamID = id := hid
          unfold Frame.marks
          rw [htype, hstream, hpayload, show last.frame.type = .data from hdata,
            show last.frame.streamID = id from hid]
          simp [QueuedFrame.frame]
        · intro i
          simp [Frame.grant, QueuedFrame.frame, QueuedFrame.extend, hdata]
      have hright : d.frames = d.pendingFrames.dropLast.map QueuedFrame.frame ++ [last.frame] := by
        unfold Downlink.frames
        conv_lhs => rw [heq]
        simp
      have hleft : Downlink.frames { d with
            pendingFrames := d.pendingFrames.dropLast ++ [last.extend payload] }.signal =
          d.pendingFrames.dropLast.map QueuedFrame.frame ++ [(last.extend payload).frame] := by
        show (d.pendingFrames.dropLast ++ [last.extend payload]).map QueuedFrame.frame = _
        simp
      rw [hleft, hright, List.append_assoc]
      exact Says.append (.refl _) hone
  | append =>
      have hleft : ∀ f : QueuedFrame, (d.pendingFrames ++ [f]).map QueuedFrame.frame =
          d.frames ++ [f.frame] := by
        intro f
        simp [Downlink.frames]
      show Says ((d.pendingFrames ++ [_]).map QueuedFrame.frame) _
      rw [hleft]
      exact .refl _

end

/-- What a batch takes out of a queue, and what it leaves. -/
theorem Downlink.takeBatch_frames {d : Downlink} (hd : d.Well) (limits : Limits) (cursor : ℕ) :
    ∃ batch, (d.takeBatch limits).1.body = encodeAll batch ∧
      d.frames = batch ++ ((d.takeBatch limits).2.deliver (d.takeBatch limits).1 cursor).frames := by
  unfold Downlink.takeBatch Downlink.deliver Downlink.leave Downlink.frames
  dsimp only
  generalize batchCount limits.carrierBatchBytes maxBatchFrames 0 0 d.pendingFrames = count
  refine ⟨(d.pendingFrames.take count).map QueuedFrame.frame, ?_, ?_⟩
  · unfold encodeAll
    rw [List.flatMap_map]
    exact List.flatMap_congr fun f hf => (hd.frames f (List.mem_of_mem_take hf)).encoded
  · rw [← List.map_append, List.take_append_drop]

theorem Downlink.takeBatch_body_ne {d : Downlink} (hd : d.Well) (hframes : d.pendingFrames ≠ [])
    (limits : Limits) : (d.takeBatch limits).1.body ≠ [] := by
  have hpos := @batchCount_pos limits.carrierBatchBytes _ hframes
  obtain ⟨f, rest, he⟩ := List.exists_cons_of_ne_nil hframes
  have hf : f ∈ d.pendingFrames := by simp [he]
  have hencoded : f.encoded.length ≠ 0 := by
    rw [(hd.frames f hf).encoded]
    simp [encode_length, headerSize]
  unfold Downlink.takeBatch
  dsimp only
  rw [he] at hpos ⊢
  obtain ⟨n, hn⟩ := Nat.exists_eq_succ_of_ne_zero hpos.ne'
  rw [hn, List.take_succ_cons, List.flatMap_cons]
  intro hnil
  rw [List.append_eq_nil_iff] at hnil
  rw [hnil.1] at hencoded
  exact hencoded rfl

/-! ### Live queues -/

/-- Frames can still be queued on `q`. -/
def Session.Live (s : Session) (q : QueueRef) : Prop :=
  s.closed = false ∧ match q with
    | .session => True
    | .lane id object => s.attached id object ≠ none

theorem Session.Live.hasQueue {q : QueueRef} (h : s.Live q) : s.HasQueue q := by
  cases q with
  | session => exact trivial
  | lane id object => exact .inl h.2

/-- A session whose queues and ends are the same. -/
theorem Session.live_congr {q : QueueRef} (hdown : s'.down = s.down)
    (hlanes : s'.carrierLanes = s.carrierLanes) (hreleased : s'.releasedLanes = s.releasedLanes)
    (hclosed : s'.closed = s.closed) : (s'.Live q ↔ s.Live q) ∧ s'.queue q = s.queue q := by
  cases q with
  | session =>
      unfold Session.Live
      rw [hclosed]
      exact ⟨Iff.rfl, hdown⟩
  | lane id object =>
      unfold Session.Live Session.queue Session.attached
      dsimp only
      rw [hclosed, hlanes, hreleased]
      exact ⟨Iff.rfl, rfl⟩

theorem Session.live_setQueue (q q' : QueueRef) (d : Downlink) :
    (s.setQueue q d).Live q' ↔ s.Live q' := by
  have hclosed : (s.setQueue q d).closed = s.closed := by
    obtain ⟨down, lanes, released, he⟩ := s.setQueue_eq q d
    rw [he]
  unfold Session.Live
  rw [hclosed]
  cases q' with
  | session => exact Iff.rfl
  | lane id object =>
      dsimp only
      rw [Session.attached_setQueue]
      simp

/-- A write to a live queue leaves the others alone. -/
theorem Session.Objects.queue_setQueue_ne (ho : s.Objects) {q q' : QueueRef} (hq : s.Live q)
    (hne : q' ≠ q) (d : Downlink) : (s.setQueue q d).queue q' = s.queue q' := by
  by_cases hq' : s.HasQueue q'
  · rw [ho.queue_setQueue d hq.hasQueue hq', if_neg]
    intro hobject
    cases q with
    | session =>
        cases q' with
        | session => exact hne rfl
        | lane i o => cases hobject
    | lane i o =>
        cases q' with
        | session => cases hobject
        | lane j o' =>
            cases hobject
            by_cases hj : s.attached j o = none
            · exact absurd (ho.released_none hq.2) (hq'.resolve_left (by simp [hj]))
            · exact hne (by rw [ho.attached_once hj hq.2])
  · have hq'' : ¬ (s.setQueue q d).HasQueue q' := fun h => hq' ((s.hasQueue_setQueue q q' d).mp h)
    rw [Session.queue_of_not_hasQueue hq', Session.queue_of_not_hasQueue hq'']

theorem Session.live_queueRef {id : ℕ} {q : QueueRef} (hopen : s.closed = false)
    (hq : s.queueRef id = some q) : s.Live q := by
  unfold Session.queueRef at hq
  split_ifs at hq
  · obtain ⟨l, hl, rfl⟩ := Option.map_eq_some_iff.mp hq
    refine ⟨hopen, ?_⟩
    dsimp only
    rw [Session.attached_eq_some.mpr ⟨hl, rfl⟩]
    exact Option.some_ne_none _
  · cases hq
    exact ⟨hopen, trivial⟩

/-! ### What a change does to a queue -/

/-- What becomes of one queue when a session changes. -/
inductive Fate (σ σ' : Traced) (q : QueueRef) : Prop
  /-- Its frames and its cursor stay; what is unacknowledged stays, is acknowledged or lost. -/
  | kept (hlive : σ'.session.Live q ↔ σ.session.Live q)
      (hframes : (σ'.session.queue q).pendingFrames = (σ.session.queue q).pendingFrames)
      (hcursor : (σ'.session.queue q).downCursor = (σ.session.queue q).downCursor)
      (hunacked : (σ'.session.queue q).unacked = [] ∨
        (σ'.session.queue q).unacked = (σ.session.queue q).unacked ∧
          (σ'.session.queue q).unackedBase = (σ.session.queue q).unackedBase)
      (hqueued : queuedOn σ'.trace q = queuedOn σ.trace q)
      (hdelivered : deliveries σ'.trace q = deliveries σ.trace q)
  | gone (hdead : ¬ σ'.session.Live q) (hframes : (σ'.session.queue q).pendingFrames = [])
      (hqueued : queuedOn σ'.trace q = queuedOn σ.trace q)
      (hdelivered : deliveries σ'.trace q = deliveries σ.trace q)
  | created (hqueue : σ'.session.queue q = {}) (hqueued : queuedOn σ'.trace q = [])
      (hdelivered : deliveries σ'.trace q = [])
  | queued {ty : FrameType} {id : ℕ} {payload : Bytes} (hlive : σ.session.Live q)
      (hlive' : σ'.session.Live q)
      (h : Enqueue σ.session.limits (σ.session.queue q) ty id payload (σ'.session.queue q))
      (hqueued : queuedOn σ'.trace q = queuedOn σ.trace q ++ [⟨ty, id, payload⟩])
      (hdelivered : deliveries σ'.trace q = deliveries σ.trace q)
  | delivered {cursor : ℕ} (hlive : σ.session.Live q) (hlive' : σ'.session.Live q)
      (hframes : (σ.session.queue q).pendingFrames ≠ [])
      (hqueue : σ'.session.queue q = ((σ.session.queue q).takeBatch σ.session.limits).2.deliver
        ((σ.session.queue q).takeBatch σ.session.limits).1 cursor)
      (hqueued : queuedOn σ'.trace q = queuedOn σ.trace q)
      (hdelivered : deliveries σ'.trace q = deliveries σ.trace q ++
        [(cursor, ((σ.session.queue q).takeBatch σ.session.limits).1.body)])

theorem history_aside (hes : ∀ e ∈ es, e.aside = true) (q : QueueRef) :
    queuedOn (t ++ es) q = queuedOn t q ∧ deliveries (t ++ es) q = deliveries t q := by
  rw [queuedOn_append, deliveries_append, queuedOn_aside hes, deliveries_aside hes,
    List.append_nil, List.append_nil]
  exact ⟨rfl, rfl⟩

theorem Fate.same {q : QueueRef} (hlive : s'.Live q ↔ s.Live q) (hqueue : s'.queue q = s.queue q)
    (hes : ∀ e ∈ es, e.aside = true) : Fate ⟨s, t⟩ ⟨s', t ++ es⟩ q := by
  obtain ⟨hqueued, hdelivered⟩ := history_aside (t := t) hes q
  refine .kept hlive ?_ ?_ (.inr ⟨?_, ?_⟩) hqueued hdelivered
  all_goals
    dsimp only
    rw [hqueue]

theorem Fate.still {q : QueueRef} (hlive : s'.Live q ↔ s.Live q)
    (hqueue : s'.queue q = s.queue q) : Fate ⟨s, t⟩ ⟨s', t⟩ q := by
  refine .kept hlive ?_ ?_ (.inr ⟨?_, ?_⟩) rfl rfl
  all_goals
    dsimp only
    rw [hqueue]

theorem Fate.elsewhere {q q' : QueueRef} {e : Event} (hq : q ≠ q')
    (he : (∃ ty id payload, e = .queued q' ty id payload) ∨
      ∃ cursor body, e = .delivered q' cursor body) (hlive : s'.Live q ↔ s.Live q)
    (hqueue : s'.queue q = s.queue q) : Fate ⟨s, t⟩ ⟨s', t ++ [e]⟩ q := by
  have hnone : queuedOn [e] q = [] ∧ deliveries [e] q = [] := by
    rcases he with ⟨ty, id, payload, rfl⟩ | ⟨cursor, body, rfl⟩
    all_goals simp [queuedOn, deliveries, hq.symm]
  refine .kept hlive ?_ ?_ (.inr ⟨?_, ?_⟩) ?_ ?_
  · dsimp only
    rw [hqueue]
  · dsimp only
    rw [hqueue]
  · dsimp only
    rw [hqueue]
  · dsimp only
    rw [hqueue]
  · rw [queuedOn_append, hnone.1, List.append_nil]
  · rw [deliveries_append, hnone.2, List.append_nil]

theorem QueueResult.fate {ty : FrameType} {id : ℕ} {payload : Bytes} {ok : Bool}
    (h : QueueResult s ty id payload es s' ok) (hopen : s.closed = false) (ho : s.Objects)
    (q : QueueRef) : Fate ⟨s, t⟩ ⟨s', t ++ es⟩ q := by
  cases h with
  | refused => exact .same Iff.rfl rfl (by simp [Event.aside])
  | @accepted q₀ d cost items notify hq₀ henqueue =>
      have hlive := Session.live_queueRef hopen hq₀
      have hpending : ∀ q, ((s.setPending cost items notify).Live q ↔ s.Live q) ∧
          (s.setPending cost items notify).queue q = s.queue q :=
        fun q => Session.live_congr rfl rfl rfl rfl
      have ho' : (s.setPending cost items notify).Objects := ho.of_eq rfl rfl le_rfl
      have hlive₀ : (s.setPending cost items notify).Live q₀ := (hpending q₀).1.mpr hlive
      have hlive' : ∀ q', ((s.setPending cost items notify).setQueue q₀ d).Live q' ↔ s.Live q' :=
        fun q' => (Session.live_setQueue q₀ q' d).trans (hpending q').1
      by_cases hq : q = q₀
      · subst hq
        have hhere : ((s.setPending cost items notify).setQueue q d).queue q = d :=
          (Writes.setQueue ho' hlive₀.hasQueue d).here hlive₀.hasQueue
        refine .queued hlive ((hlive' q).mpr hlive) (by rw [hhere]; exact henqueue) ?_ ?_
        · rw [queuedOn_append]
          simp [queuedOn]
        · rw [deliveries_append]
          simp [deliveries]
      · refine .elsewhere hq (.inl ⟨ty, id, payload, rfl⟩) (hlive' q) ?_
        rw [ho'.queue_setQueue_ne hlive₀ hq d, (hpending q).2]

/-- The lane of `id` leaves the table with nothing in it. -/
theorem Fate.release (id : ℕ) (hdown : s'.down = s.down)
    (hclosed : s'.closed = s.closed) (hlanes : s'.carrierLanes = s.carrierLanes.del id)
    (hput : ∀ l, s.carrierLanes.get id = some l → s'.releasedLanes.get l.object = some l.drop)
    (hrest : ∀ o, (∀ l, s.carrierLanes.get id = some l → l.object ≠ o) →
      s'.releasedLanes.get o = s.releasedLanes.get o)
    (hes : ∀ e ∈ es, e.aside = true) (q : QueueRef) : Fate ⟨s, t⟩ ⟨s', t ++ es⟩ q := by
  cases q with
  | session =>
      refine .same ?_ hdown hes
      unfold Session.Live
      rw [hclosed]
  | lane i o =>
      have hattached : s'.attached i o = if i = id then none else s.attached i o := by
        unfold Session.attached
        rw [hlanes, Table.get_del]
        split_ifs <;> rfl
      have hdropped : ∀ l, s.carrierLanes.get id = some l → l.object = o →
          s'.attached i o = none → Fate ⟨s, t⟩ ⟨s', t ++ es⟩ (.lane i o) := by
        rintro l hl rfl hnone
        obtain ⟨hqueued, hdelivered⟩ := history_aside (t := t) hes (.lane i l.object)
        refine .gone (fun hlive => hlive.2 hnone) ?_ hqueued hdelivered
        unfold Session.queue
        dsimp only
        rw [hnone, hput l hl]
        rfl
      by_cases hi : i = id
      · subst hi
        rw [if_pos rfl] at hattached
        by_cases hl : ∃ l, s.carrierLanes.get i = some l ∧ l.object = o
        · obtain ⟨l, hl, ho⟩ := hl
          exact hdropped l hl ho hattached
        · have hnone : s.attached i o = none := by
            by_contra hne
            obtain ⟨l, hl'⟩ := Option.ne_none_iff_exists'.mp hne
            exact hl ⟨l, Session.attached_eq_some.mp hl'⟩
          refine .same ?_ ?_ hes
          · unfold Session.Live
            dsimp only
            rw [hclosed, hattached, hnone]
          · unfold Session.queue
            dsimp only
            rw [hattached, hnone, hrest o fun l hl' ho => hl ⟨l, hl', ho⟩]
      · rw [if_neg hi] at hattached
        by_cases hl : (∃ l, s.carrierLanes.get id = some l ∧ l.object = o) ∧ s.attached i o = none
        · obtain ⟨⟨l, hl, ho⟩, hnone⟩ := hl
          exact hdropped l hl ho (hattached.trans hnone)
        · refine .same ?_ ?_ hes
          · unfold Session.Live
            dsimp only
            rw [hclosed, hattached]
          · unfold Session.queue
            dsimp only
            rw [hattached]
            cases ha : s.attached i o with
            | some l => rfl
            | none =>
                dsimp only
                rw [hrest o fun l hl' ho => hl ⟨⟨l, hl', ho⟩, ha⟩]

theorem Fate.create {id : ℕ} (hu : Unwritten ⟨s, t⟩)
    (hnone : s.carrierLanes.get id = none) (q : QueueRef) :
    Fate ⟨s, t⟩ ⟨(s.createLane id).1, t⟩ q := by
  cases q with
  | session => exact .still Iff.rfl rfl
  | lane i o =>
      have hattached : (s.createLane id).1.attached i o =
          if i = id then (if s.nextObject = o then some { object := s.nextObject } else none)
          else s.attached i o := by
        unfold Session.attached
        have hget : (s.createLane id).1.carrierLanes.get i =
            if i = id then some { object := s.nextObject } else s.carrierLanes.get i :=
          Table.get_put ..
        rw [hget]
        split_ifs with hi ho
        · simp [Option.filter, ho]
        · simp [Option.filter, ho]
        · rfl
      by_cases hnew : i = id ∧ s.nextObject = o
      · obtain ⟨rfl, rfl⟩ := hnew
        rw [if_pos rfl, if_pos rfl] at hattached
        obtain ⟨hqueued, hdelivered⟩ := hu (.lane i s.nextObject) s.nextObject rfl le_rfl
        have hempty : (s.createLane i).1.queue (.lane i s.nextObject) = {} := by
          unfold Session.queue
          dsimp only
          rw [hattached]
        exact .created hempty hqueued hdelivered
      · have hold : (s.createLane id).1.attached i o = s.attached i o := by
          rw [hattached]
          split_ifs with hi ho
          · exact absurd ⟨hi, ho⟩ hnew
          · subst hi
            unfold Session.attached
            rw [hnone]
            rfl
          · rfl
        refine .still ?_ ?_
        · unfold Session.Live
          dsimp only
          rw [hold]
          exact Iff.rfl
        · unfold Session.queue
          dsimp only
          rw [hold]
          rfl

/-- Lanes are written but for their objects and their queues. -/
theorem Fate.rewrite {f : ℕ → CarrierLane → CarrierLane} {g : ℕ → CarrierLane → CarrierLane}
    (hdown : s'.down = s.down) (hclosed : s'.closed = s.closed)
    (hlanes : ∀ id, s'.carrierLanes.get id = (s.carrierLanes.get id).map (f id))
    (hobject : ∀ id l, s.carrierLanes.get id = some l → (f id l).object = l.object)
    (hsame : ∀ id l, s.carrierLanes.get id = some l → (f id l).down = l.down)
    (hreleased : ∀ o, s'.releasedLanes.get o = (s.releasedLanes.get o).map (g o))
    (hsame' : ∀ o l, (g o l).down = l.down) (q : QueueRef) : Fate ⟨s, t⟩ ⟨s', t⟩ q := by
  have hkept : (s'.Live q ↔ s.Live q) ∧ s'.queue q = s.queue q := by
    cases q with
    | session =>
        unfold Session.Live
        rw [hclosed]
        exact ⟨Iff.rfl, hdown⟩
    | lane i o =>
        have hattached : s'.attached i o = (s.attached i o).map (f i) := by
          unfold Session.attached
          rw [hlanes]
          cases hl : s.carrierLanes.get i with
          | none => rfl
          | some l => by_cases ho : l.object = o <;> simp [Option.filter, ho, hobject i l hl]
        unfold Session.Live Session.queue
        dsimp only
        rw [hclosed, hattached, hreleased]
        cases ha : s.attached i o with
        | some l =>
            refine ⟨by simp, ?_⟩
            exact hsame i l (Session.attached_eq_some.mp ha).1
        | none =>
            refine ⟨by simp, ?_⟩
            cases s.releasedLanes.get o with
            | none => rfl
            | some l => exact hsame' o l
  exact .still hkept.1 hkept.2

/-- A queue is written, its frames and its cursor staying. -/
theorem Fate.setQueue (ho : s.Objects) {q₀ : QueueRef} {d : Downlink} (hq₀ : s.HasQueue q₀)
    (hframes : d.pendingFrames = (s.queue q₀).pendingFrames)
    (hcursor : d.downCursor = (s.queue q₀).downCursor)
    (hunacked : d.unacked = [] ∨
      d.unacked = (s.queue q₀).unacked ∧ d.unackedBase = (s.queue q₀).unackedBase)
    (q : QueueRef) : Fate ⟨s, t⟩ ⟨s.setQueue q₀ d, t⟩ q := by
  have hwrites := Writes.setQueue ho hq₀ d
  refine .kept (Session.live_setQueue q₀ q d)
    (hwrites.field Downlink.pendingFrames ho hq₀ hframes q)
    (hwrites.field Downlink.downCursor ho hq₀ hcursor q) ?_ rfl rfl
  rcases hunacked with hnil | ⟨hunacked, hbase⟩
  · by_cases hq : s.HasQueue q
    · dsimp only
      rw [hwrites.queue q hq]
      split_ifs
      · exact .inl hnil
      · exact .inr ⟨rfl, rfl⟩
    · dsimp only
      rw [Session.queue_of_not_hasQueue fun h => hq ((hwrites.has q).mp h)]
      exact .inl rfl
  · exact .inr ⟨hwrites.field Downlink.unacked ho hq₀ hunacked q,
      hwrites.field Downlink.unackedBase ho hq₀ hbase q⟩

/-- What the queue comes from need only agree in it. -/
theorem Fate.congr {s₀ : Session} {σ' : Traced} {q : QueueRef} (h : Fate ⟨s, t⟩ σ' q)
    (hlive : s.Live q ↔ s₀.Live q) (hqueue : s.queue q = s₀.queue q)
    (hlimits : s.limits = s₀.limits) : Fate ⟨s₀, t⟩ σ' q := by
  cases h with
  | kept hl hframes hcursor hunacked hqueued hdelivered =>
      dsimp only at hl hframes hcursor hunacked
      rw [hqueue] at hframes hcursor hunacked
      exact .kept (hl.trans hlive) hframes hcursor hunacked hqueued hdelivered
  | gone hdead hframes hqueued hdelivered => exact .gone hdead hframes hqueued hdelivered
  | created hq hqueued hdelivered => exact .created hq hqueued hdelivered
  | queued hl hl' h hqueued hdelivered =>
      dsimp only at hl h
      rw [hqueue, hlimits] at h
      exact .queued (hlive.mp hl) hl' h hqueued hdelivered
  | delivered hl hl' hframes hq hqueued hdelivered =>
      dsimp only at hl hframes hq hdelivered
      rw [hqueue, hlimits] at hq hdelivered
      rw [hqueue] at hframes
      exact .delivered (hlive.mp hl) hl' hframes hq hqueued hdelivered

/-- What every change does to every queue, where ended queues are empty. -/
theorem Change.fate {σ σ' : Traced} (h : Change scope σ σ') (ho : σ.session.Objects)
    (hu : Unwritten σ)
    (hempty : ∀ q, ¬ σ.session.Live q → (σ.session.queue q).pendingFrames = [])
    (q : QueueRef) : Fate σ σ' q := by
  have haside : ∀ {s s' : Session} {t es : List Event}, (∀ e ∈ es, e.aside = true) →
      s'.down = s.down → s'.carrierLanes = s.carrierLanes → s'.releasedLanes = s.releasedLanes →
      s'.closed = s.closed → Fate ⟨s, t⟩ ⟨s', t ++ es⟩ q := by
    intro s s' t es hes hdown hlanes hreleased hclosed
    obtain ⟨hlive, hqueue⟩ := Session.live_congr (q := q) hdown hlanes hreleased hclosed
    exact .same hlive hqueue hes
  have hpure : ∀ {s s' : Session} {t : List Event}, s'.down = s.down →
      s'.carrierLanes = s.carrierLanes → s'.releasedLanes = s.releasedLanes →
      s'.closed = s.closed → Fate ⟨s, t⟩ ⟨s', t⟩ q := by
    intro s s' t hdown hlanes hreleased hclosed
    obtain ⟨hlive, hqueue⟩ := Session.live_congr (q := q) hdown hlanes hreleased hclosed
    exact .still hlive hqueue
  have hstream : ∀ {s s₁ : Session} {t : List Event} {σ' : Traced},
      s₁.down = s.down → s₁.carrierLanes = s.carrierLanes → s₁.releasedLanes = s.releasedLanes →
      s₁.closed = s.closed → s₁.limits = s.limits → Fate ⟨s₁, t⟩ σ' q → Fate ⟨s, t⟩ σ' q := by
    intro s s₁ t σ' hdown hlanes hreleased hclosed hlimits hf
    obtain ⟨hlive, hqueue⟩ := Session.live_congr (q := q) hdown hlanes hreleased hclosed
    exact hf.congr hlive hqueue hlimits
  cases h with
  | silent he =>
      refine haside ?_ rfl rfl rfl rfl
      intro e he'
      rw [List.mem_singleton.mp he']
      exact Event.silent_aside he
  | openStream => exact haside (by simp [Event.aside]) rfl rfl rfl rfl
  | stream _ _ h _ =>
      refine haside ?_ rfl rfl rfl rfl
      cases h <;> simp [Event.aside]
  | drained hopen _ _ _ _ _ h _ =>
      refine hstream ?_ ?_ ?_ ?_ ?_ (h.fate hopen (ho.of_eq rfl rfl le_rfl) q)
      all_goals rfl
  | read hopen _ _ _ h _ =>
      refine hstream ?_ ?_ ?_ ?_ ?_ (h.fate hopen (ho.of_eq rfl rfl le_rfl) q)
      all_goals rfl
  | queueClose hopen _ _ h _ _ _ => exact h.fate hopen ho q
  | rememberRoom => exact haside (by simp [Event.aside]) rfl rfl rfl rfl
  | @rememberFull s t id old _ _ _ _ _ _ =>
      rw [List.append_assoc]
      refine Fate.release old ?_ ?_ ?_ (fun l hl => ?_) (fun o hno => ?_)
        (by simp [Event.aside]) q
      · rfl
      · rfl
      · rfl
      · dsimp only
        rw [hl]
        exact Table.get_put_self ..
      · dsimp only
        cases hl : s.carrierLanes.get old with
        | none => rfl
        | some l => exact Table.get_put_ne _ _ (hno l hl).symm
  | @createLane s t id _ hnone _ _ => exact Fate.create hu hnone q
  | @touchLane s t id l l' hl hobject hdown _ _ _ =>
      refine Fate.rewrite (f := fun i l₁ => if i = id then l' else l₁) (g := fun _ l => l)
        ?_ ?_ (fun i => ?_) (fun i l₁ hl₁ => ?_) (fun i l₁ hl₁ => ?_) (fun o => ?_)
        (fun _ _ => rfl) q
      · rfl
      · rfl
      · rw [Session.putLane_lanes, Table.get_put]
        split_ifs with hi
        · rw [hi, hl]
          rfl
        · simp
      · split_ifs with hi
        · rw [hi, hl] at hl₁
          cases hl₁
          exact hobject
        · rfl
      · split_ifs with hi
        · rw [hi, hl] at hl₁
          cases hl₁
          exact hdown
        · rfl
      · exact Option.map_id'.symm
  | @dropLane s t id l hl _ _ _ =>
      have hreleased : (s.delLane id l.drop).releasedLanes =
          s.releasedLanes.put l.object l.drop := rfl
      have hkept : Fate ⟨s, t⟩ ⟨s.delLane id l.drop, t ++ []⟩ q := by
        refine Fate.release id ?_ ?_ ?_ (fun l' hl' => ?_) (fun o hno => ?_) (by simp) q
        · rfl
        · rfl
        · rfl
        · rw [hl] at hl'
          cases hl'
          rw [hreleased]
          exact Table.get_put_self ..
        · rw [hreleased]
          exact Table.get_put_ne _ _ (hno l hl).symm
      rwa [List.append_nil] at hkept
  | attend hq =>
      apply Fate.setQueue ho hq
      · rfl
      · rfl
      · exact .inr ⟨rfl, rfl⟩
  | acknowledge hq =>
      apply Fate.setQueue ho hq
      · rfl
      · rfl
      · exact .inl rfl
  | @deliver s t q₀ cursor mine hq _ hframes _ =>
      have hlive : s.Live q₀ := by
        by_contra hdead
        exact hframes (hempty q₀ hdead)
      by_cases hqq : q = q₀
      · subst hqq
        refine .delivered hlive ((Session.live_setQueue q q _).mpr hlive) hframes
          ((Writes.setQueue ho hq _).here hq) ?_ ?_
        · rw [queuedOn_append]
          simp [queuedOn]
        · rw [deliveries_append]
          simp [deliveries]
      · exact .elsewhere hqq (.inr ⟨_, _, rfl⟩) (Session.live_setQueue q₀ q _)
          (ho.queue_setQueue_ne hlive hqq _)
  | @close s t =>
      have hdead : ¬ Session.Live { s with
          closed := true
          carrierLanes := s.carrierLanes.mapValues CarrierLane.drop
          streams := .nil
          down := s.down.drop } q := fun h => by cases h.1
      refine .gone hdead ?_ rfl rfl
      · cases q with
        | session => rfl
        | lane i o =>
            have hattached : Session.attached { s with
                closed := true
                carrierLanes := s.carrierLanes.mapValues CarrierLane.drop
                streams := .nil
                down := s.down.drop } i o = (s.attached i o).map CarrierLane.drop := by
              unfold Session.attached
              dsimp only
              rw [Table.get_mapValues]
              cases s.carrierLanes.get i with
              | none => rfl
              | some l => by_cases ho : l.object = o <;> simp [Option.filter, ho, CarrierLane.drop]
            cases ha : s.attached i o with
            | some l =>
                unfold Session.queue
                dsimp only
                rw [hattached, ha]
                rfl
            | none =>
                have hframes := hempty (.lane i o) fun hlive => hlive.2 ha
                unfold Session.queue at hframes ⊢
                dsimp only at hframes ⊢
                rw [ha] at hframes
                rw [hattached, ha]
                exact hframes
  | batch => exact haside (by simp [Event.aside]) rfl rfl rfl rfl
  | @laneUplink s t _ id object f hobject hdown _ =>
      have hlanes := fun i => s.modifyLane_lanes id object i f
      have hreleased := fun i => s.modifyLane_released id object i f
      obtain ⟨lanes, released, he⟩ := s.modifyLane_eq id object f
      rw [he] at hlanes hreleased ⊢
      refine Fate.rewrite (f := fun i l => if i = id ∧ l.object = object then f l else l)
        (g := fun o l => if s.attached id object = none ∧ o = object then f l else l) ?_ ?_
        hlanes (fun i l _ => ?_) (fun i l _ => ?_) (fun o => ?_) (fun o l => ?_) q
      · rfl
      · rfl
      · split_ifs
        · exact hobject l
        · rfl
      · split_ifs
        · exact hdown l
        · rfl
      · rw [hreleased]
        split_ifs <;> simp
      · split_ifs
        · exact hdown l
        · rfl
  | _ => exact hpure rfl rfl rfl rfl

/-! ### The ledger of a queue -/

/-- The bodies delivered from `q` are made of frames which, with those in `rest`, say what was
queued on `q`. -/
def Ledger (t : List Event) (q : QueueRef) (rest : List Frame) : Prop :=
  ∃ batches : List (List Frame), (deliveries t q).map Prod.snd = batches.map encodeAll ∧
    Says (batches.flatten ++ rest) (queuedOn t q)

/-- What is queued on `q` is delivered or still waits; when the queue ends, the rest is lost.  As
long as frames can be queued the cursor counts the deliveries, and what is unacknowledged is the
last of them. -/
structure Carried (σ : Traced) (q : QueueRef) : Prop where
  ledger : ∃ rest, Ledger σ.trace q rest ∧
    (σ.session.Live q → rest = (σ.session.queue q).frames)
  empty : ¬ σ.session.Live q → (σ.session.queue q).pendingFrames = []
  count : σ.session.Live q → (deliveries σ.trace q).length = (σ.session.queue q).downCursor
  last : σ.session.Live q → (σ.session.queue q).unacked = [] ∨
    (deliveries σ.trace q).getLast? =
      some ((σ.session.queue q).unackedBase, (σ.session.queue q).unacked)
  nonempty : ∀ p ∈ deliveries σ.trace q, p.2 ≠ []

theorem Ledger.congr {t t' : List Event} {q : QueueRef} {rest : List Frame} (h : Ledger t q rest)
    (hqueued : queuedOn t' q = queuedOn t q) (hdelivered : deliveries t' q = deliveries t q) :
    Ledger t' q rest := by
  unfold Ledger
  rw [hqueued, hdelivered]
  exact h

/-- A frame is queued behind the rest. -/
theorem Ledger.queued {t t' : List Event} {q : QueueRef} {d d' : Downlink} {ty : FrameType}
    {id : ℕ} {payload : Bytes} (h : Ledger t q d.frames) (hd : d.Well)
    (henqueue : Enqueue limits d ty id payload d')
    (hqueued : queuedOn t' q = queuedOn t q ++ [⟨ty, id, payload⟩])
    (hdelivered : deliveries t' q = deliveries t q) : Ledger t' q d'.frames := by
  obtain ⟨batches, hbodies, htells⟩ := h
  refine ⟨batches, by rw [hdelivered, hbodies], ?_⟩
  rw [hqueued]
  refine Says.trans ?_ (htells.append (.refl _))
  rw [List.append_assoc]
  exact Says.append (.refl _) (henqueue.tells hd)

/-- A batch of the rest is delivered. -/
theorem Ledger.delivered {t t' : List Event} {q : QueueRef} {d : Downlink} {cursor : ℕ}
    (h : Ledger t q d.frames) (hd : d.Well) (hqueued : queuedOn t' q = queuedOn t q)
    (hdelivered : deliveries t' q = deliveries t q ++ [(cursor, (d.takeBatch limits).1.body)]) :
    Ledger t' q ((d.takeBatch limits).2.deliver (d.takeBatch limits).1 cursor).frames := by
  obtain ⟨batches, hbodies, htells⟩ := h
  obtain ⟨batch, hbody, hframes⟩ := Downlink.takeBatch_frames hd limits cursor
  refine ⟨batches ++ [batch], ?_, ?_⟩
  · rw [hdelivered, List.map_append, hbodies, List.map_append, List.map_singleton,
      List.map_singleton, hbody]
  · rw [hqueued, List.flatten_append, List.flatten_singleton, List.append_assoc, ← hframes]
    exact htells

/-- What happens to a queue that is carried leaves it carried. -/
theorem Fate.carried {σ σ' : Traced} {q : QueueRef} (h : Fate σ σ' q)
    (hd : (σ.session.queue q).Well) (hc : Carried σ q) : Carried σ' q := by
  obtain ⟨⟨rest, hledger, hrest⟩, hempty, hcount, hlast, hnonempty⟩ := hc
  cases h with
  | kept hlive hframes hcursor hunacked hqueued hdelivered =>
      refine ⟨⟨rest, hledger.congr hqueued hdelivered, fun hl => ?_⟩, fun hl => ?_, fun hl => ?_,
        fun hl => ?_, hdelivered ▸ hnonempty⟩
      · rw [hrest (hlive.mp hl)]
        unfold Downlink.frames
        rw [hframes]
      · rw [hframes]
        exact hempty fun hl' => hl (hlive.mpr hl')
      · rw [hdelivered, hcursor]
        exact hcount (hlive.mp hl)
      · rcases hunacked with hnil | ⟨hunacked, hbase⟩
        · exact .inl hnil
        · rw [hunacked, hbase, hdelivered]
          exact hlast (hlive.mp hl)
  | gone hdead hframes hqueued hdelivered =>
      exact ⟨⟨rest, hledger.congr hqueued hdelivered, fun hl => absurd hl hdead⟩,
        fun _ => hframes, fun hl => absurd hl hdead, fun hl => absurd hl hdead,
        hdelivered ▸ hnonempty⟩
  | created hqueue hqueued hdelivered =>
      refine ⟨⟨[], ⟨[], ?_, ?_⟩, fun _ => ?_⟩, fun _ => ?_, fun _ => ?_, fun _ => ?_, ?_⟩
      · rw [hdelivered]
        rfl
      · rw [hqueued]
        exact .refl _
      · rw [hqueue]
        rfl
      · rw [hqueue]
      · rw [hqueue, hdelivered]
        rfl
      · rw [hqueue]
        exact .inl rfl
      · rw [hdelivered]
        exact fun p hp => by cases hp
  | queued hlive hlive' h hqueued hdelivered =>
      rw [hrest hlive] at hledger
      have hsame : (σ'.session.queue q).downCursor = (σ.session.queue q).downCursor ∧
          (σ'.session.queue q).unacked = (σ.session.queue q).unacked ∧
          (σ'.session.queue q).unackedBase = (σ.session.queue q).unackedBase := by
        generalize σ'.session.queue q = d' at h
        cases h <;> exact ⟨rfl, rfl, rfl⟩
      refine ⟨⟨_, hledger.queued hd h hqueued hdelivered, fun _ => rfl⟩,
        fun hl => absurd hlive' hl, fun _ => ?_, fun _ => ?_, hdelivered ▸ hnonempty⟩
      · rw [hdelivered, hsame.1]
        exact hcount hlive
      · rw [hdelivered, hsame.2.1, hsame.2.2]
        exact hlast hlive
  | delivered hlive hlive' hframes hqueue hqueued hdelivered =>
      rw [hrest hlive] at hledger
      refine ⟨⟨_, hledger.delivered hd hqueued hdelivered, fun _ => by rw [hqueue]⟩,
        fun hl => absurd hlive' hl, fun _ => ?_, fun _ => .inr ?_, fun p hp => ?_⟩
      · rw [hdelivered, hqueue, List.length_append, hcount hlive]
        rfl
      · rw [hdelivered, hqueue, List.getLast?_concat]
        rfl
      · rw [hdelivered] at hp
        rcases List.mem_append.mp hp with hp | hp
        · exact hnonempty p hp
        · rw [List.mem_singleton.mp hp]
          exact Downlink.takeBatch_body_ne hd hframes _

theorem newSession_queue (limits : Limits) (carrier : CarrierMode) (q : QueueRef) :
    (newSession limits carrier).queue q = {} := by
  unfold newSession
  split_ifs
  · cases q with
    | session => rfl
    | lane id object =>
        unfold Session.queue Session.attached
        dsimp only
        rw [Table.get_put]
        split_ifs
        · by_cases ho : 0 = object <;> simp [Option.filter, ho]
        · rfl
  · cases q <;> rfl

/-- **In every reachable state what was queued for the client was delivered once, or still
waits.** -/
theorem Reachable.carried {σ : Traced} (h : Reachable sha256 limits carrier σ) (q : QueueRef) :
    Carried σ q := by
  refine (h.invariant (I := fun τ => τ.session.Objects ∧ Represented limits carrier τ ∧
    Unwritten τ ∧ ∀ q, Carried τ q) ?_ fun hc _ hI => ?_).2.2.2 q
  · have hstart : Reachable sha256 limits carrier ⟨newSession limits carrier, []⟩ := .start
    refine ⟨hstart.objects, newSession_represented _ _,
      fun _ _ _ _ => ⟨rfl, rfl⟩, fun q => ?_⟩
    have hqueue := newSession_queue limits carrier q
    refine ⟨⟨[], ⟨[], rfl, .refl _⟩, fun _ => ?_⟩, fun _ => ?_, fun _ => ?_, fun _ => ?_,
      fun p hp => by cases hp⟩
    · dsimp only
      rw [hqueue]
      rfl
    · dsimp only
      rw [hqueue]
    · dsimp only
      rw [hqueue]
      rfl
    · dsimp only
      rw [hqueue]
      exact .inl rfl
  · obtain ⟨ho, hr, hu, hcarried⟩ := hI
    exact ⟨hc.objects ho, hc.represented hr, hc.unwritten ho hu, fun q =>
      (hc.fate ho hu (fun q => (hcarried q).empty) q).carried (hr.well.queue .new q) (hcarried q)⟩

end TproxyServer
