import TproxyServer.Sound

/-! # Sections are chains of elementary changes

What each function under the mutex does, read against the observer: first the primitives, then
the batch passes, then the sections (`Section.changes`).  Only the uplink sections need the
changes that are reserved for them. -/

namespace TproxyServer

open Interaction Prog

variable {limits : Limits} {carrier : CarrierMode} {s : Session} {t : List Event}

/-! ### Queues behind references -/

/-- A reference to a lane that is there writes that lane. -/
theorem Session.setQueue_of_get {id : ℕ} {l : CarrierLane} (hl : s.carrierLanes.get id = some l)
    (d : Downlink) : s.setQueue (.lane id l.object) d = s.putLane id { l with down := d } := by
  have ha : s.attached id l.object = some l := Session.attached_eq_some.mpr ⟨hl, rfl⟩
  simp only [Session.setQueue, Session.modifyLane, ha]

theorem Session.queue_of_get {id : ℕ} {l : CarrierLane} (hl : s.carrierLanes.get id = some l) :
    s.queue (.lane id l.object) = l.down := by
  have ha : s.attached id l.object = some l := Session.attached_eq_some.mpr ⟨hl, rfl⟩
  simp only [Session.queue, ha]

theorem Session.hasQueue_of_get {id : ℕ} {l : CarrierLane}
    (hl : s.carrierLanes.get id = some l) : s.HasQueue (.lane id l.object) :=
  .inl (by rw [Session.attached_eq_some.mpr ⟨hl, rfl⟩]; simp)

/-- Writes through a reference that leads nowhere are lost. -/
theorem Session.setQueue_of_not_hasQueue {q : QueueRef} (h : ¬ s.HasQueue q) (d : Downlink) :
    s.setQueue q d = s ∧ s.queue q = {} := by
  cases q with
  | session => exact absurd trivial h
  | lane id object =>
      simp only [Session.HasQueue, not_or, not_not] at h
      simp [Session.setQueue, Session.modifyLane, Session.queue, h.1, h.2]

theorem Session.hasQueue_of_queueRef {id : ℕ} {q : QueueRef} (h : s.queueRef id = some q) :
    s.HasQueue q := by
  unfold Session.queueRef at h
  split_ifs at h
  · obtain ⟨l, hl, rfl⟩ := Option.map_eq_some_iff.mp h
    exact Session.hasQueue_of_get hl
  · cases h; trivial

/-! ### The budget -/

/-- A session up to its pending charges. -/
def Session.UpToPending (s s' : Session) : Prop :=
  ∃ cost items notify, s' = s.setPending cost items notify

theorem Session.UpToPending.refl (s : Session) : s.UpToPending s := ⟨_, _, _, rfl⟩

/-- The charges alone are one change. -/
theorem Session.UpToPending.changes {scope : Scope} {s' : Session} (h : s.UpToPending s') :
    Changes scope ⟨s, t⟩ ⟨s', t⟩ := by
  obtain ⟨cost, items, notify, rfl⟩ := h
  exact .single (.pending cost items notify)

theorem reservePendingLocked_obs (s : Session) (cost items : ℕ) (cls : PendingClass) :
    wp observer (reservePendingLocked s cost items cls)
      (fun t' r => t' = t ∧ s.UpToPending r.1 ∧ (r.2 = false → r.1 = s)) t := by
  unfold reservePendingLocked
  dsimp only
  split_ifs
  · exact ⟨rfl, .refl s, fun _ => rfl⟩
  · refine ⟨trivial, ?_⟩
    rintro b t' rfl
    cases b with
    | false => exact ⟨rfl, .refl s, fun _ => rfl⟩
    | true => exact ⟨rfl, ⟨_, _, _, rfl⟩, by rintro ⟨⟩⟩

/-- A release is seen in the counters only. -/
theorem releasePendingLocked_obs (s : Session) (cost items : ℤ) :
    wp observer (releasePendingLocked s cost items)
      (fun t' s' => t' = t ∧ s.UpToPending s') t := by
  unfold releasePendingLocked
  split_ifs
  · exact ⟨rfl, .refl s⟩
  · exact trivial
  · refine ⟨trivial, ?_⟩
    rintro b t' rfl
    exact ⟨rfl, _, _, _, rfl⟩

theorem releaseStreamWritesLocked_obs (s : Session) (st : StreamState) :
    wp observer (releaseStreamWritesLocked s st)
      (fun t' s' => t' = t ∧ s.UpToPending s') t := by
  unfold releaseStreamWritesLocked
  split_ifs
  · exact releasePendingLocked_obs s _ _
  · exact ⟨rfl, .refl s⟩

theorem releaseLaneLocked_obs (s : Session) (lane : CarrierLane) :
    wp observer (releaseLaneLocked s lane)
      (fun t' r => t' = t ∧ s.UpToPending r.1 ∧ r.2 = lane.drop) t := by
  unfold releaseLaneLocked
  dsimp only
  split_ifs
  · refine wp_seq (releasePendingLocked_obs s _ _) ?_
    rintro t' s' ⟨rfl, h⟩
    exact ⟨rfl, h, rfl⟩
  · exact ⟨rfl, .refl s, rfl⟩

/-! ### Queueing -/

/-- A frame that was merged with no WINDOW is joined to the last one, queued or refused. -/
theorem pushFrame_obs {q : QueueRef} {ty : FrameType} {id : ℕ} {payload : Bytes}
    (hq : s.queueRef id = some q)
    (hmerge : ∀ index f, (s.queue q).windowIndex ty id = some index →
      (s.queue q).pendingFrames[index]? = some f →
        maxUint32 < (windowAmount (f.encoded.drop headerSize)).1 + (windowAmount payload).1) :
    wp observer (pushFrame s q ty id payload)
      (fun t' r => ∃ es, t' = t ++ es ∧ QueueResult s ty id payload es r.1 r.2) t := by
  unfold pushFrame
  dsimp only
  cases hext : (s.queue q).extendable s.limits ty id payload with
  | some last =>
      refine wp_seq (reservePendingLocked_obs s _ _ _) ?_
      rintro t' ⟨s', ok⟩ ⟨rfl, hs', hno⟩
      cases ok with
      | false =>
          cases hno rfl
          exact ⟨_, rfl, .refused⟩
      | true =>
          obtain ⟨cost, items, notify, rfl⟩ := hs'
          have hty : ty = .data := by
            have := (Option.filter_eq_some_iff.mp hext).2
            simp only [decide_eq_true_eq] at this
            exact this.2.1
          subst hty
          exact ⟨_, rfl, .accepted hq (.extend hext)⟩
  | none =>
      refine wp_seq (reservePendingLocked_obs s _ _ _) ?_
      rintro t' ⟨s', ok⟩ ⟨rfl, hs', hno⟩
      cases ok with
      | false =>
          cases hno rfl
          exact ⟨_, rfl, .refused⟩
      | true =>
          obtain ⟨cost, items, notify, rfl⟩ := hs'
          by_cases hw : ty = .window
          · subst hw
            cases hpw : (s.queue q).pendingWindows with
            | none => simp only [if_true, announce_bind, wp_note]; trivial
            | some w =>
                simp only [if_true, announce_bind, wp_note]
                refine ⟨_, rfl, .accepted hq ?_⟩
                have hnew : Enqueue s.limits (s.queue q) .window id payload
                    { s.queue q with
                      pendingFrames := (s.queue q).pendingFrames ++
                        [(⟨encode .window id payload, .window, id,
                          (encode .window id payload).length + queueItemCost⟩ : QueuedFrame)]
                      pendingWindows :=
                        some (w.put id (s.queue q).pendingFrames.length) }.signal :=
                  .append hmerge hext (by simp [hpw])
                simpa using hnew
          · simp only [if_true, if_neg hw, announce_bind, wp_note]
            refine ⟨_, rfl, .accepted hq ?_⟩
            exact .append hmerge hext
              (by simp [hw])

theorem queueOn_obs {q : QueueRef} {ty : FrameType} {id : ℕ} {payload : Bytes}
    (hq : s.queueRef id = some q) :
    wp observer (queueOn s q ty id payload)
      (fun t' r => ∃ es, t' = t ++ es ∧ QueueResult s ty id payload es r.1 r.2) t := by
  unfold queueOn
  dsimp only
  cases hidx : (s.queue q).windowIndex ty id with
  | none => exact pushFrame_obs hq (by simp [hidx])
  | some index =>
      dsimp only
      cases hf : (s.queue q).pendingFrames[index]? with
      | none => trivial
      | some f =>
          dsimp only
          split_ifs with htotal
          · have hty : ty = .window := by
              unfold Downlink.windowIndex at hidx
              split_ifs at hidx with h
              exact h
            subst hty
            have hmerged : QueueResult s .window id payload _
                ((s.setPending s.pendingCost s.pendingItems s.budgetNotify).setQueue q _) true :=
              .accepted hq (.merge hidx hf htotal)
            exact ⟨_, rfl, hmerged⟩
          · refine pushFrame_obs hq ?_
            rintro i g hi hg
            rw [hidx] at hi
            cases hi
            rw [hf] at hg
            cases hg
            omega

/-- Queueing a frame ends as a `QueueResult` says. -/
theorem queueFrameLocked_obs (s : Session) (ty : FrameType) (id : ℕ) (payload : Bytes) :
    wp observer (queueFrameLocked s ty id payload)
      (fun t' r => ∃ es, t' = t ++ es ∧ QueueResult s ty id payload es r.1 r.2) t := by
  unfold queueFrameLocked
  split_ifs with hu
  · unfold queueLaneFrameLocked
    cases hl : s.carrierLanes.get id with
    | none => exact ⟨_, rfl, .refused⟩
    | some lane => exact queueOn_obs (by simp [Session.queueRef, hu, hl])
  · exact queueOn_obs (by simp [Session.queueRef, hu])

theorem QueueResult.closedStreams {s s' : Session} {ty : FrameType} {id : ℕ} {payload : Bytes}
    {es : List Event} {ok : Bool} (h : QueueResult s ty id payload es s' ok) :
    s'.streams = s.streams ∧ s'.closedStreams = s.closedStreams ∧ s'.closed = s.closed := by
  cases h with
  | refused => exact ⟨rfl, rfl, rfl⟩
  | @accepted q d cost items notify hq h =>
      obtain ⟨down, lanes, released, he⟩ := (s.setPending cost items notify).setQueue_eq q d
      rw [he]
      exact ⟨rfl, rfl, rfl⟩

/-! ### Tombstones -/

/-- What remembering `id` leaves. -/
structure Remembered (limits : Limits) (s : Session) (t : List Event) (id : ℕ)
    (s' : Session) (t' : List Event) : Prop where
  ring : Ring limits ⟨s', t'⟩
  closings : closings t' = closings t ++ if id ∈ s.closedStreams then [] else [id]
  decisions : decisions t' = decisions t
  limits : s'.limits = s.limits
  carrier : s'.carrier = s.carrier
  streams : s'.streams = s.streams
  closed : s'.closed = s.closed
  mem : id ∈ s'.closedStreams
  sub : s'.closedStreams ⊆ insert id s.closedStreams
  lane : s.carrierLanes.get id ≠ none → s'.carrierLanes.get id ≠ none
  past : t <+: t'
  just : id ∉ s.closedStreams → JustEnded t' id

theorem signalLane_changes {scope : Scope} (s : Session) (id : ℕ) :
    Changes scope ⟨s, t⟩ ⟨s.signalLane id, t⟩ := by
  unfold Session.signalLane
  cases hl : s.carrierLanes.get id with
  | none => exact .refl
  | some lane =>
      dsimp only
      have h : Change scope ⟨s, t⟩ _ := .attend (Session.hasQueue_of_get hl)
        lane.down.downActive lane.down.superseded true
        (fun _ => .inl (by rw [Session.queue_of_get hl]))
        (.inr (by rw [Session.queue_of_get hl]; exact ⟨rfl, rfl, .inr rfl⟩))
      rw [Session.setQueue_of_get hl, Session.queue_of_get hl] at h
      exact .single h

theorem Remembered.signalLane {s' : Session} {t' : List Event} {id : ℕ}
    (h : Remembered limits s t id s' t') : Remembered limits s t id (s'.signalLane id) t' := by
  unfold Session.signalLane
  cases hl : s'.carrierLanes.get id with
  | none => exact h
  | some lane =>
      exact ⟨h.ring.quiet (Keeps.putLane _ _ _), h.closings, h.decisions, h.limits, h.carrier,
        h.streams, h.closed, h.mem, h.sub, fun _ => by simp, h.past, h.just⟩

/-- The oldest tombstone makes room; its lane goes, if it has one. -/
theorem evictOldest_obs {id : ℕ} {laned : Prop} (hs : Ring limits ⟨s, t⟩)
    (hopen : s.closed = false) (hlive : s.streams.get id = none)
    (hhas : laned → s.HasLane id) (hclosed : id ∉ s.closedStreams)
    (hfull : ¬ s.closedOrder.length < s.limits.maxClosedStreamIDs) :
    wp observer (evictOldest { s with closedStreams := insert id s.closedStreams } id)
      (fun t' s' => (laned → Changes .quiet ⟨s, t⟩ ⟨s', t'⟩) ∧ Remembered limits s t id s' t')
      (t ++ [.remembered id]) := by
  obtain ⟨-, hmem⟩ := hs.oldest_mem hfull
  have hne : id ≠ s.closedOrder.getD s.closedStart 0 := by
    intro he
    have ht := hs.tombstones
    dsimp only at ht
    rw [ht, List.mem_toFinset, he] at hclosed
    exact hclosed hmem
  have hchange : laned → ∀ cost items notify,
      Change .quiet ⟨s.setPending cost items notify, t⟩ _ :=
    fun h cost items notify => Change.rememberFull (s := s.setPending cost items notify)
      hopen (hhas h) hlive hclosed hfull rfl
  have hkept : id ∈ (insert id s.closedStreams).erase (s.closedOrder.getD s.closedStart 0) :=
    Finset.mem_erase.mpr ⟨hne, Finset.mem_insert_self _ _⟩
  have hlane : s.carrierLanes.get id ≠ none →
      (s.carrierLanes.del (s.closedOrder.getD s.closedStart 0)).get id ≠ none := by
    rw [Table.get_del_ne _ hne]
    exact fun h => h
  have hclosings : closings (t ++ [.remembered id] ++
      [.evicted (s.closedOrder.getD s.closedStart 0)]) =
      closings t ++ if id ∈ s.closedStreams then [] else [id] := by
    rw [closings_append, closings_append, if_neg hclosed]
    exact List.append_nil _
  have hdecisions : decisions (t ++ [.remembered id] ++
      [.evicted (s.closedOrder.getD s.closedStart 0)]) = decisions t := by
    rw [decisions_append, decisions_append]
    exact (List.append_nil _).trans (List.append_nil _)
  have hpast : t <+: t ++ [.remembered id] ++
      [.evicted (s.closedOrder.getD s.closedStart 0)] := by
    rw [List.append_assoc]
    exact List.prefix_append _ _
  have hjust : JustEnded (t ++ [.remembered id] ++
      [.evicted (s.closedOrder.getD s.closedStart 0)]) id :=
    ⟨t, [.evicted (s.closedOrder.getD s.closedStart 0)], by simp, by simp⟩
  unfold evictOldest
  simp only [announce_bind, wp_note]
  cases hl : s.carrierLanes.get (s.closedOrder.getD s.closedStart 0) with
  | none =>
      refine ⟨fun hl' => .single ?_, hs.rememberFull hlive hclosed hfull _ _, hclosings,
        hdecisions, rfl, rfl, rfl, rfl, hkept, Finset.erase_subset _ _, fun h => h, hpast,
        fun _ => hjust⟩
      have h := hchange hl' s.pendingCost s.pendingItems s.budgetNotify
      simp only [Session.setPending, hl, Table.del_eq_self _ hl] at h
      exact h
  | some lane =>
      refine wp_seq (releaseLaneLocked_obs _ lane) ?_
      rintro t' ⟨s', lane'⟩ ⟨rfl, ⟨cost, items, notify, rfl⟩, rfl⟩
      refine ⟨fun hl' => ?_, (hs.quiet (Keeps.setPending s cost items notify)).rememberFull hlive
        hclosed hfull _ _, hclosings, hdecisions, rfl, rfl, rfl, rfl, hkept,
        Finset.erase_subset _ _, hlane, hpast, fun _ => hjust⟩
      have h := hchange hl' cost items notify
      simp only [Session.setPending, hl] at h
      exact .head (.pending cost items notify) (.single h)

theorem rememberClosedLocked_obs {id : ℕ} {laned : Prop} (hs : Ring limits ⟨s, t⟩)
    (hopen : s.closed = false) (hlive : s.streams.get id = none)
    (hhas : laned → s.HasLane id) :
    wp observer (rememberClosedLocked s id)
      (fun t' s' => (laned → Changes .quiet ⟨s, t⟩ ⟨s', t'⟩) ∧ Remembered limits s t id s' t') t := by
  unfold rememberClosedLocked
  by_cases hclosed : id ∈ s.closedStreams
  · rw [if_pos hclosed]
    exact ⟨fun _ => .refl, hs, by rw [if_pos hclosed, List.append_nil], rfl, rfl, rfl, rfl, rfl,
      hclosed, Finset.subset_insert _ _, fun h => h, List.prefix_refl _, fun h => absurd hclosed h⟩
  rw [if_neg hclosed]
  dsimp only
  simp only [announce_bind, wp_note]
  split_ifs with hroom
  · refine ⟨fun h => .head ?_ (signalLane_changes _ id), Remembered.signalLane
      ⟨hs.rememberRoom hlive hclosed hroom, ?_, ?_, rfl, rfl, rfl, rfl,
        Finset.mem_insert_self _ _, Finset.Subset.refl _, fun h => h, List.prefix_append _ _,
        fun _ => ⟨t, [], rfl, by simp⟩⟩⟩
    · exact Change.rememberRoom hopen (hhas h) hlive hclosed hroom
    · rw [if_neg hclosed]
      exact closings_append _ _
    · exact (decisions_append _ _).trans (List.append_nil _)
  · refine wp_seq (evictOldest_obs hs hopen hlive hhas hclosed hroom) ?_
    rintro t' s' ⟨hc, hr⟩
    exact ⟨fun h => (hc h).trans (signalLane_changes _ id), hr.signalLane⟩

/-! ### Closing the session -/

/-- The session ends in one change, with the cancelling before it and the finish after. -/
theorem closeLocked_obs (s : Session) (t : List Event) :
    wp observer (closeLocked s) (fun t' s' => Changes .quiet ⟨s, t⟩ ⟨s', t'⟩) t := by
  unfold closeLocked
  split_ifs
  · exact .refl
  · have hcancel : Change .quiet ⟨s, t⟩ ⟨s, t ++ [.cancelled s.backends]⟩ :=
      .silent rfl fun h => absurd ⟨rfl, rfl⟩ h
    have hclose : ∀ cost items notify, Changes .quiet
        ⟨s.setPending cost items notify, t ++ [.cancelled s.backends]⟩
        ⟨_, t ++ [.cancelled s.backends] ++ [.finished]⟩ :=
      fun cost items notify => .head .close (.single (.silent rfl fun h => absurd ⟨rfl, rfl⟩ h))
    simp only [announce_bind, wp_note]
    split_ifs
    · refine ⟨trivial, ?_⟩
      rintro b t' rfl
      exact .head hcancel (.head (.pending 0 0 s.budgetNotify) (hclose _ _ _))
    · exact .head hcancel (hclose s.pendingCost s.pendingItems s.budgetNotify)

end TproxyServer
