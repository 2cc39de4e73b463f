import TproxyServer.SectionChanges

/-! # Lanes without stream or tombstone

`ProcessUpLane` stores a new lane before it looks at the sequence, the batch and the budget,
and only the eviction of a tombstone takes a lane away again.  A lane that is neither a live
stream's nor a tombstone's is an orphan.  Section by section: none leaves an orphan, but for
the `ProcessUpLane` that creates its lane and takes up no body. -/

namespace TproxyServer

open Interaction Prog

variable {limits : Limits} {carrier : CarrierMode} {s s' s'' : Session} {t : List Event}
  {sha256 : Bytes → Bytes} {but : Finset ℕ}

/-- A lane other than lane zero without stream or tombstone. -/
def Session.Orphan (s : Session) (id : ℕ) : Prop :=
  id ≠ 0 ∧ s.carrierLanes.get id ≠ none ∧ s.streams.get id = none ∧ id ∉ s.closedStreams

/-! ### Changes that leave no orphan -/

/-- From `s` to `s'` no lane outside `but` has become an orphan, unless the session was
closed. -/
structure Fosters (but : Finset ℕ) (s s' : Session) : Prop where
  closed : s.closed = true → s'.closed = true
  orphans : s'.closed = false → ∀ id, id ∉ but → s'.Orphan id → s.Orphan id

namespace Fosters

theorem refl (s : Session) : Fosters but s s := ⟨fun h => h, fun _ _ _ h => h⟩

theorem trans (h : Fosters but s s') (h' : Fosters but s' s'') : Fosters but s s'' where
  closed hc := h'.closed (h.closed hc)
  orphans hopen id hid ho := by
    have hopen' : s'.closed = false := by
      by_contra hc
      rw [Bool.not_eq_false] at hc
      rw [h'.closed hc] at hopen
      cases hopen
    exact h.orphans hopen' id hid (h'.orphans hopen id hid ho)

theorem mono (h : Fosters ∅ s s') : Fosters but s s' :=
  ⟨h.closed, fun hopen id _ ho => h.orphans hopen id (Finset.notMem_empty id) ho⟩

/-- The exception is none if its lane is no orphan in the end. -/
theorem of_but {id : ℕ} (h : Fosters {id} s s') (hid : ¬ s'.Orphan id) : Fosters ∅ s s' := by
  refine ⟨h.closed, fun hopen i _ ho => h.orphans hopen i ?_ ho⟩
  intro hi
  rw [Finset.mem_singleton] at hi
  exact hid (hi ▸ ho)

/-- Outside `but`, no stream and no tombstone less, and no lane more. -/
theorem of_kept (hclosed : s'.closed = s.closed)
    (hstreams : ∀ id ∉ but, s.streams.get id ≠ none → s'.streams.get id ≠ none)
    (htombs : ∀ id ∉ but, id ∈ s.closedStreams → s'.carrierLanes.get id ≠ none →
      id ∈ s'.closedStreams)
    (hlanes : ∀ id ∉ but, s'.carrierLanes.get id ≠ none → s.carrierLanes.get id ≠ none) :
    Fosters but s s' where
  closed hc := hclosed.trans hc
  orphans _ id hid ho := by
    obtain ⟨h0, hl, hst, ht⟩ := ho
    refine ⟨h0, hlanes id hid hl, ?_, fun hm => ht (htombs id hid hm hl)⟩
    by_contra hn
    exact hstreams id hid hn hst

theorem of_closed (h : s'.closed = true) : Fosters but s s' :=
  ⟨fun _ => h, fun hopen => absurd hopen (by simp [h])⟩

/-- A change of other fields. -/
theorem of_eq (hclosed : s'.closed = s.closed) (hstreams : s'.streams = s.streams)
    (htombs : s'.closedStreams = s.closedStreams) (hlanes : s'.carrierLanes = s.carrierLanes) :
    Fosters but s s' :=
  of_kept hclosed (fun _ _ h => by rwa [hstreams]) (fun _ _ h _ => by rwa [htombs])
    fun _ _ h => by rwa [hlanes] at h

theorem upToPending (h : s.UpToPending s') : Fosters but s s' := by
  obtain ⟨cost, items, notify, rfl⟩ := h
  exact of_eq rfl rfl rfl rfl

theorem setQueue (s : Session) (q : QueueRef) (d : Downlink) :
    Fosters but s (s.setQueue q d) := by
  have hl := fun i => s.setQueue_lanes i q d
  obtain ⟨down, lanes, released, he⟩ := s.setQueue_eq q d
  rw [he] at hl ⊢
  refine of_kept rfl (fun _ _ h => h) (fun _ _ h _ => h) fun id _ h => ?_
  rw [hl] at h
  simpa using h

theorem modifyLane (s : Session) (id object : ℕ) (f : CarrierLane → CarrierLane) :
    Fosters but s (s.modifyLane id object f) := by
  have hl := fun i => s.modifyLane_lanes id object i f
  obtain ⟨lanes, released, he⟩ := s.modifyLane_eq id object f
  rw [he] at hl ⊢
  refine of_kept rfl (fun _ _ h => h) (fun _ _ h _ => h) fun i _ h => ?_
  rw [hl] at h
  simpa using h

theorem putStream (s : Session) (id : ℕ) (st : StreamState) :
    Fosters but s (s.putStream id st) := by
  refine of_kept rfl (fun i _ h => ?_) (fun _ _ h _ => h) fun _ _ h => h
  rw [Session.putStream_streams, Table.get_put]
  split_ifs
  · simp
  · exact h

/-- A stream may end where its lane is the exception. -/
theorem delStream (s : Session) (id : ℕ) : Fosters {id} s (s.delStream id) := by
  refine of_kept rfl (fun i hi h => ?_) (fun _ _ h _ => h) fun _ _ h => h
  rw [Finset.mem_singleton] at hi
  rwa [Session.delStream_streams, Table.get_del_ne _ hi]

/-- A lane that is there may be written. -/
theorem putLane {id : ℕ} {l : CarrierLane} (l' : CarrierLane)
    (hl : s.carrierLanes.get id = some l) : Fosters but s (s.putLane id l') := by
  refine of_kept rfl (fun _ _ h => h) (fun _ _ h _ => h) fun i _ h => ?_
  rw [Session.putLane_lanes, Table.get_put] at h
  split_ifs at h with hi
  · subst hi
    simp [hl]
  · exact h

theorem queueResult {ty : FrameType} {id : ℕ} {payload : Bytes} {es : List Event} {ok : Bool}
    (h : QueueResult s ty id payload es s' ok) : Fosters but s s' := by
  cases h with
  | refused => exact refl s
  | accepted => exact (upToPending ⟨_, _, _, rfl⟩).trans (setQueue _ _ _)

theorem signalLane (s : Session) (id : ℕ) : Fosters but s (s.signalLane id) := by
  unfold Session.signalLane
  cases hl : s.carrierLanes.get id with
  | none => exact refl s
  | some lane => exact putLane _ hl

end Fosters

/-! ### Tombstones -/

/-- The eviction takes the lane of the tombstone with it. -/
theorem evictOldest_fosters (but : Finset ℕ) (s : Session) (id : ℕ) :
    wp observer (evictOldest s id) (fun _ s' => Fosters but s s' ∧
      (id ∈ s.closedStreams → ¬ s'.Orphan id)) t := by
  have hdone : ∀ s₁ : Session, s₁.closed = s.closed → s₁.streams = s.streams →
      s₁.closedStreams = s.closedStreams.erase (s.closedOrder.getD s.closedStart 0) →
      s₁.carrierLanes = s.carrierLanes.del (s.closedOrder.getD s.closedStart 0) →
      Fosters but s s₁ ∧ (id ∈ s.closedStreams → ¬ s₁.Orphan id) := by
    intro s₁ hclosed hstreams htombs hlanes
    have hgone : ∀ i, s₁.carrierLanes.get i ≠ none →
        i ≠ s.closedOrder.getD s.closedStart 0 := by
      intro i hi he
      rw [hlanes, he, Table.get_del_self] at hi
      exact hi rfl
    refine ⟨.of_kept hclosed (fun _ _ h => by rwa [hstreams]) (fun i _ h hl => ?_)
      fun i _ h => ?_, fun hm ho => ?_⟩
    · rw [htombs]
      exact Finset.mem_erase.mpr ⟨hgone i hl, h⟩
    · have hne := hgone i h
      rwa [hlanes, Table.get_del_ne _ hne] at h
    · rw [Session.Orphan, htombs] at ho
      exact ho.2.2.2 (Finset.mem_erase.mpr ⟨hgone id ho.2.1, hm⟩)
  unfold evictOldest
  simp only [announce_bind, wp_note]
  cases hl : s.carrierLanes.get (s.closedOrder.getD s.closedStart 0) with
  | none => exact hdone _ rfl rfl rfl (Table.del_eq_self _ hl).symm
  | some lane =>
      refine wp_seq (releaseLaneLocked_obs _ lane) ?_
      rintro t' ⟨s', lane'⟩ ⟨rfl, ⟨cost, items, notify, rfl⟩, rfl⟩
      exact hdone _ rfl rfl rfl rfl

/-- Deleting a stream orphans its lane; remembering the id makes up for it. -/
theorem rememberClosedLocked_fosters {id : ℕ} (h : Fosters {id} s s') :
    wp observer (rememberClosedLocked s' id)
      (fun _ s'' => Fosters ∅ s s'' ∧ ¬ s''.Orphan id) t := by
  have hdone : ∀ s'' : Session, Fosters {id} s' s'' → ¬ s''.Orphan id →
      Fosters ∅ s s'' ∧ ¬ s''.Orphan id :=
    fun s'' h' hid => ⟨(h.trans h').of_but hid, hid⟩
  unfold rememberClosedLocked
  by_cases hmem : id ∈ s'.closedStreams
  · rw [if_pos hmem]
    exact hdone s' (.refl s') fun ho => ho.2.2.2 hmem
  rw [if_neg hmem]
  dsimp only
  simp only [announce_bind, wp_note]
  have hinsert : Fosters {id} s' { s' with closedStreams := insert id s'.closedStreams } :=
    .of_kept rfl (fun _ _ h => h) (fun _ _ h _ => Finset.mem_insert_of_mem h) fun _ _ h => h
  have hsignal : ∀ s₁ : Session, ¬ s₁.Orphan id → ¬ (s₁.signalLane id).Orphan id := by
    intro s₁ hid ho
    unfold Session.signalLane at ho
    split at ho
    · exact hid ho
    · next lane hl => exact hid ⟨ho.1, by simp [hl], ho.2.2⟩
  split_ifs
  · have hroom : Fosters {id} s' { s' with
        closedStreams := insert id s'.closedStreams, closedOrder := s'.closedOrder ++ [id] } :=
      hinsert.trans (.of_eq rfl rfl rfl rfl)
    exact hdone _ (hroom.trans (.signalLane _ id))
      (hsignal _ fun ho => ho.2.2.2 (Finset.mem_insert_self _ _))
  · refine wp_seq (evictOldest_fosters {id} _ id) ?_
    rintro t' s₁ ⟨hf, hid⟩
    exact hdone _ ((hinsert.trans hf).trans (.signalLane _ id))
      (hsignal _ (hid (Finset.mem_insert_self _ _)))

/-! ### A batch -/

variable {r : Applying}

theorem refuseOpen_fosters (r : Applying) (id : ℕ) :
    wp observer (refuseOpen r id) (fun _ r' => Fosters ∅ r.session r'.session ∧
      (r'.session.closed = false → ¬ r'.session.Orphan id)) t := by
  unfold refuseOpen
  refine wp_seq (rememberClosedLocked_fosters (.refl r.session)) ?_
  intro t₁ s₁ h₁
  obtain ⟨h₁, hid⟩ := h₁
  simp only [announce_bind, wp_note]
  refine wp_seq (queueFrameLocked_obs s₁ .close id []) ?_
  rintro t₂ ⟨s₂, ok⟩ ⟨es, rfl, hq⟩
  have h₂ : Fosters ∅ s₁ s₂ := .queueResult hq
  have hid₂ : s₂.closed = false → ¬ s₂.Orphan id :=
    fun hopen ho => hid (h₂.orphans hopen id (Finset.notMem_empty id) ho)
  cases ok with
  | true => exact ⟨h₁.trans h₂, hid₂⟩
  | false => exact ⟨h₁.trans h₂, hid₂⟩

/-- After an OPEN its lane is no orphan, whether it was admitted or not. -/
theorem applyOpen_fosters (r : Applying) (id : ℕ) :
    wp observer (applyOpen r id) (fun _ r' => Fosters ∅ r.session r'.session ∧
      (r'.session.closed = false → ¬ r'.session.Orphan id)) t := by
  unfold applyOpen
  dsimp only
  split_ifs
  · exact refuseOpen_fosters r id
  · refine ⟨trivial, ?_⟩
    rintro b t' rfl
    cases b with
    | false => exact refuseOpen_fosters r id
    | true =>
        refine ⟨(Fosters.putStream r.session id _).trans (.of_eq rfl rfl rfl rfl), fun _ ho => ?_⟩
        have hnone := ho.2.2.1
        simp at hnone

theorem applyFrame_fosters (r : Applying) (f : Frame) :
    wp observer (applyFrame r f) (fun _ r' => Fosters ∅ r.session r'.session) t := by
  unfold applyFrame
  by_cases h0 : f.streamID = 0
  · rw [if_pos h0]
    exact .refl _
  rw [if_neg h0]
  cases hty : f.type with
  | «open» => exact wp_mono (applyOpen_fosters r f.streamID) fun _ _ h => h.1
  | data =>
      dsimp only
      split_ifs
      · exact .refl _
      · unfold applyData
        cases hst : r.session.streams.get f.streamID with
        | none => trivial
        | some st => exact .putStream _ _ _
  | window =>
      dsimp only
      split_ifs
      · exact .refl _
      · unfold applyWindow
        cases hst : r.session.streams.get f.streamID with
        | none => trivial
        | some st => exact .putStream _ _ _
  | close =>
      dsimp only
      split_ifs
      · exact .refl _
      · unfold applyClose
        cases hst : r.session.streams.get f.streamID with
        | none => trivial
        | some st =>
            refine wp_seq (releaseStreamWritesLocked_obs r.session st) ?_
            rintro t₁ s₁ ⟨rfl, hs₁⟩
            refine wp_seq (rememberClosedLocked_fosters
              ((Fosters.upToPending hs₁).trans (.delStream s₁ f.streamID))) ?_
            intro t₂ s₂ h₂
            exact h₂.1
  | _ => exact .refl _

theorem applyLoop_fosters (r : Applying) (frames : List Frame) :
    wp observer (applyLoop r frames) (fun _ r' => Fosters ∅ r.session r'.session) t := by
  induction frames generalizing r t with
  | nil => exact .refl _
  | cons f frames ih =>
      refine wp_seq (applyFrame_fosters r f) ?_
      intro t₁ r₁ h₁
      split_ifs
      · exact wp_mono (ih r₁) fun _ _ h => h₁.trans h
      · exact h₁

/-- A batch that begins with the OPEN of its lane. -/
theorem applyLoop_opens {f : Frame} {frames : List Frame} (hty : f.type = .open)
    (h0 : f.streamID ≠ 0) :
    wp observer (applyLoop r (f :: frames)) (fun _ r' =>
      r'.session.closed = false → ¬ r'.session.Orphan f.streamID) t := by
  have hopen : wp observer (applyFrame r f) (fun _ r' =>
      r'.session.closed = false → ¬ r'.session.Orphan f.streamID) t := by
    unfold applyFrame
    rw [if_neg h0, hty]
    exact wp_mono (applyOpen_fosters r f.streamID) fun _ _ h => h.2
  refine wp_seq hopen ?_
  intro t₁ r₁ h₁
  split_ifs
  · refine wp_mono (applyLoop_fosters r₁ frames) ?_
    intro t₂ r₂ h₂ hopen₂ ho
    have hopen₁ : r₁.session.closed = false := by
      by_contra hc
      rw [Bool.not_eq_false] at hc
      rw [h₂.closed hc] at hopen₂
      cases hopen₂
    exact h₁ hopen₁ (h₂.orphans hopen₂ _ (Finset.notMem_empty _) ho)
  · exact h₁

/-- A commit orphans no lane; a lane with whose OPEN the applied batch begins is none. -/
theorem commitBatch_fosters (s : Session) (label : Option ℕ) (sequence : ℕ) (body : Bytes)
    (frames : List Frame) :
    wp observer (commitBatch s label sequence body frames) (fun _ r => Fosters ∅ s r.1 ∧
      ∀ f rest, frames = f :: rest → f.type = .open → f.streamID ≠ 0 →
        r.2 = .applied ∨ r.2 = .aborted → r.1.closed = false → ¬ r.1.Orphan f.streamID) t := by
  refine commitBatch_observed (fun _ r' => Fosters ∅ s r'.session ∧
    ∀ f rest, frames = f :: rest → f.type = .open → f.streamID ≠ 0 →
      r'.session.closed = false → ¬ r'.session.Orphan f.streamID) ?_ ?_ ?_ ?_
  · exact ⟨.refl s, fun f rest _ _ _ h => by simp at h⟩
  · exact ⟨.refl s, fun f rest _ _ _ h => by simp at h⟩
  · intro _ s' hs'
    unfold applyBatchLocked
    by_cases hhead : ∃ f rest, frames = f :: rest ∧ f.type = .open ∧ f.streamID ≠ 0
    · obtain ⟨f, rest, rfl, hty, h0⟩ := hhead
      refine wp_mono (wp_and (applyLoop_fosters _ _) (applyLoop_opens hty h0)) ?_
      intro t₁ r₁ h₁
      refine ⟨(Fosters.upToPending hs').trans h₁.1, fun f' rest' he _ _ => ?_⟩
      obtain ⟨rfl, -⟩ := List.cons.inj he
      exact h₁.2
    · refine wp_mono (applyLoop_fosters _ _) ?_
      intro t₁ r₁ h₁
      exact ⟨(Fosters.upToPending hs').trans h₁,
        fun f rest he hty h0 => absurd ⟨f, rest, he, hty, h0⟩ hhead⟩
  · rintro t₁ r s₂ ⟨h₁, hid⟩ ⟨cost, items, notify, rfl⟩
    exact ⟨h₁.trans (.upToPending ⟨_, _, _, rfl⟩), fun f rest he hty h0 _ => hid f rest he hty h0⟩

/-! ### Polls and backends -/

theorem takeOver_fosters (s : Session) (q : QueueRef) :
    wp observer (takeOver s q) (fun _ r => Fosters ∅ s r.1) t := by
  have hnew : ∀ (s₁ : Session) (d : Downlink),
      Fosters ∅ s₁ ({ s₁ with nextObject := s₁.nextObject + 1 }.setQueue q d) := by
    intro s₁ d
    have hnext : Fosters ∅ s₁ { s₁ with nextObject := s₁.nextObject + 1 } :=
      .of_eq rfl rfl rfl rfl
    exact hnext.trans (.setQueue _ q d)
  unfold takeOver
  dsimp only
  split
  · exact hnew s _
  · next channel _ =>
      split_ifs
      · exact hnew s _
      · trivial
      · have hchannel : Fosters ∅ s
            { s with closedChannels := insert channel s.closedChannels } := .of_eq rfl rfl rfl rfl
        exact hchannel.trans (hnew _ _)

theorem pollLoop_fosters (s : Session) (q : QueueRef) (cursor mine : ℕ) :
    wp observer (pollLoop s q cursor mine) (fun _ r => Fosters ∅ s r.1) t := by
  unfold pollLoop
  dsimp only
  split_ifs
  · exact .refl s
  · exact .setQueue s q _
  · exact .setQueue s q _
  · exact .setQueue s q _
  · exact .refl s

theorem pollOn_fosters (s : Session) (q : QueueRef) (cursor : ℕ) :
    wp observer (pollOn s q cursor) (fun _ r => Fosters ∅ s r.1) t := by
  have hwait : ∀ (s₁ : Session) (t₁ : List Event), Fosters ∅ s s₁ →
      wp observer (takeOver s₁ q >>= fun p => pollLoop p.1 q cursor p.2)
        (fun _ r => Fosters ∅ s r.1) t₁ := by
    intro s₁ t₁ h₁
    refine wp_seq (takeOver_fosters s₁ q) ?_
    intro t₂ p h₂
    exact wp_mono (pollLoop_fosters p.1 q cursor p.2) fun _ _ h => (h₁.trans h₂).trans h
  unfold pollOn
  dsimp only
  cases (s.queue q).checkCursor cursor with
  | replay => exact .refl s
  | mismatch => exact .refl s
  | acknowledge =>
      refine wp_seq (releasePendingLocked_obs s _ _) ?_
      rintro t₁ s₁ ⟨rfl, hs₁⟩
      exact hwait _ _ ((Fosters.upToPending hs₁).trans (.setQueue s₁ q _))
  | current => exact hwait s t (.refl s)

theorem pollResume_fosters (s : Session) (q : QueueRef) (cursor mine : ℕ) (wake : Wake) :
    wp observer (pollResume s q cursor mine wake) (fun _ r => Fosters ∅ s r.1) t := by
  unfold pollResume
  cases wake with
  | cancelled =>
      dsimp only
      split_ifs
      · exact .setQueue s q _
      · exact .refl s
  | superseded => exact .setQueue s q _
  | done =>
      dsimp only
      split_ifs
      · exact .setQueue s q _
      · exact .refl s
  | deadline =>
      dsimp only
      split_ifs
      · exact .setQueue s q _
      · exact pollLoop_fosters s q cursor mine
      · exact .setQueue s q _
  | notified =>
      dsimp only
      refine wp_mono (pollLoop_fosters _ q cursor mine) ?_
      intro t₁ r h
      refine Fosters.trans ?_ h
      split_ifs
      · exact .setQueue s q _
      · exact .refl s

theorem backendDrained_fosters (s : Session) (id amount : ℕ) :
    wp observer (backendDrained s id amount) (fun _ r => Fosters ∅ s r.1) t := by
  unfold backendDrained
  cases hst : s.streams.get id with
  | none => exact .refl s
  | some st =>
      dsimp only
      split_ifs
      · exact .refl s
      · refine wp_seq (releasePendingLocked_obs _ _ _) ?_
        rintro t₁ s₁ ⟨rfl, hs₁⟩
        refine wp_mono (queueFrameLocked_obs _ .window id _) ?_
        rintro t₂ r ⟨es, rfl, hq⟩
        exact (((Fosters.putStream s id _).trans (.upToPending hs₁)).trans
          (.putStream s₁ id _)).trans (.queueResult hq)

theorem backendWriteFinished_fosters (s : Session) (id : ℕ) :
    wp observer (backendWriteFinished s id) (fun _ r => Fosters ∅ s r.1) t := by
  unfold backendWriteFinished
  cases hst : s.streams.get id with
  | none => exact .refl s
  | some st =>
      dsimp only
      split_ifs
      · exact .refl s
      · generalize (queueItemCost : ℤ) = cost
        refine wp_seq (releasePendingLocked_obs _ cost 1) ?_
        rintro t₁ s₁ ⟨rfl, hs₁⟩
        exact (Fosters.putStream s id _).trans (.upToPending hs₁)

theorem backendData_fosters (s : Session) (id : ℕ) (data : Bytes) :
    wp observer (backendData s id data) (fun _ r => Fosters ∅ s r.1) t := by
  unfold backendData
  cases hst : s.streams.get id with
  | none => exact .refl s
  | some st =>
      dsimp only
      split_ifs
      · exact .refl s
      · refine wp_mono (queueFrameLocked_obs _ .data id data) ?_
        rintro t₁ r ⟨es, rfl, hq⟩
        exact (Fosters.putStream s id _).trans (.queueResult hq)

theorem nextWrite_fosters (s : Session) (id : ℕ) : Fosters ∅ s (nextWrite s id).1 := by
  unfold nextWrite
  split_ifs
  · exact .refl s
  · split
    · exact .refl s
    · split
      · exact .refl s
      · exact .putStream s id _

theorem closeLocked_closed (s : Session) :
    wp observer (closeLocked s) (fun _ s' => s'.closed = true) t := by
  unfold closeLocked
  by_cases hc : s.closed = true
  · rw [if_pos hc]
    exact hc
  rw [if_neg hc]
  simp only [announce_bind, wp_note]
  split_ifs
  · refine ⟨trivial, ?_⟩
    rintro b t' rfl
    rfl
  · rfl

theorem backendClosed_fosters (s : Session) (id backend : ℕ) :
    wp observer (backendClosed s id backend) (fun _ s' => Fosters ∅ s s') t := by
  unfold backendClosed
  cases hst : s.streams.get id with
  | none => exact .refl s
  | some st =>
      dsimp only
      split_ifs
      · exact .refl s
      · refine wp_seq (releaseStreamWritesLocked_obs s st) ?_
        rintro t₁ s₁ ⟨rfl, hs₁⟩
        refine wp_seq (rememberClosedLocked_fosters
          ((Fosters.upToPending hs₁).trans (.delStream s₁ id))) ?_
        intro t₂ s₂ h₂
        refine wp_seq (queueFrameLocked_obs s₂ .close id []) ?_
        rintro t₃ ⟨s₃, ok⟩ ⟨es, rfl, hq⟩
        cases ok with
        | true => exact h₂.1.trans (.queueResult hq)
        | false =>
            refine wp_seq (closeLocked_closed s₃) ?_
            intro t₄ s₄ hc
            exact .of_closed hc

/-! ### Uplink requests -/

theorem processUpCommit_fosters (s : Session) (sequence : ℕ) (body : Bytes) :
    wp observer (processUpCommit sha256 s sequence body) (fun _ r => Fosters ∅ s r.1) t := by
  have hidle : Fosters ∅ s { s with upActive := false } := .of_eq rfl rfl rfl rfl
  unfold processUpCommit
  dsimp only
  split_ifs
  · exact hidle
  · cases clientFrames s.limits body with
    | none => exact hidle
    | some frames =>
        refine wp_seq (commitBatch_fosters _ none sequence body frames) ?_
        rintro t₁ ⟨s₁, outcome⟩ ⟨h₁, -⟩
        cases outcome with
        | applied => exact (hidle.trans h₁).trans (.of_eq rfl rfl rfl rfl)
        | _ => exact hidle.trans h₁

/-- Replies with which a lane's body has been taken up. -/
def UpReply.TakenUp (r : UpReply) : Prop := r = .aborting ∨ ∃ n, r = .acked n

theorem processOnLane_fosters (s : Session) (lane : CarrierLane) (laneID sequence : ℕ)
    (body : Bytes) (frames : List Frame) :
    wp observer (processOnLane sha256 s lane laneID sequence body frames) (fun _ r =>
      Fosters ∅ s r.1 ∧ ∀ f rest, frames = f :: rest → f.type = .open → f.streamID ≠ 0 →
        lane.lastUpSequence = 0 → r.2.TakenUp → r.1.closed = false →
          ¬ r.1.Orphan f.streamID) t := by
  have hno : ∀ r : UpReply, r = .failing ∨ r = .concurrent ∨ r = .backpressure →
      ¬ r.TakenUp := by
    rintro r (rfl | rfl | rfl) <;> simp [UpReply.TakenUp]
  unfold processOnLane
  split_ifs with hsame
  · exact ⟨.refl s, fun f rest _ _ _ hfirst => absurd (hsame.1.trans hfirst) hsame.2⟩
  · exact ⟨.refl s, fun f rest _ _ _ _ h => absurd h (hno _ (.inl rfl))⟩
  · exact ⟨.refl s, fun f rest _ _ _ _ h => absurd h (hno _ (.inl rfl))⟩
  · exact ⟨.refl s, fun f rest _ _ _ _ h => absurd h (hno _ (.inr (.inl rfl)))⟩
  · refine wp_seq (commitBatch_fosters _ (some laneID) sequence body frames) ?_
    rintro t₁ ⟨s₁, outcome⟩ ⟨h₁, hid⟩
    have hactive : Fosters ∅ s _ := .modifyLane s laneID lane.object fun l =>
      { l with upActive := true }
    have hidle : Fosters ∅ s₁ _ := .modifyLane s₁ laneID lane.object fun l =>
      { l with upActive := false }
    -- what is written to a lane after the batch orphans none
    have hlast : ∀ s₂ : Session, Fosters ∅ s₁ s₂ → ∀ f rest, frames = f :: rest →
        f.type = .open → f.streamID ≠ 0 → outcome = .applied ∨ outcome = .aborted →
        s₂.closed = false → ¬ s₂.Orphan f.streamID := by
      intro s₂ h₂ f rest he hty h0 hout hopen ho
      have hopen₁ : s₁.closed = false := by
        by_contra hc
        rw [Bool.not_eq_false] at hc
        rw [h₂.closed hc] at hopen
        cases hopen
      exact hid f rest he hty h0 hout hopen₁
        (h₂.orphans hopen _ (Finset.notMem_empty _) ho)
    cases outcome with
    | invalid =>
        exact ⟨(hactive.trans h₁).trans hidle,
          fun f rest _ _ _ _ h => absurd h (hno _ (.inl rfl))⟩
    | backpressure =>
        exact ⟨(hactive.trans h₁).trans hidle,
          fun f rest _ _ _ _ h => absurd h (hno _ (.inr (.inr rfl)))⟩
    | aborted =>
        exact ⟨(hactive.trans h₁).trans hidle,
          fun f rest he hty h0 _ _ => hlast _ hidle f rest he hty h0 (.inr rfl)⟩
    | applied =>
        have hbooks := hidle.trans (Fosters.modifyLane _ laneID lane.object fun l =>
          { l with lastUpSequence := sequence, lastUpDigest := sha256 body })
        exact ⟨(hactive.trans h₁).trans hbooks,
          fun f rest he hty h0 _ _ => hlast _ hbooks f rest he hty h0 (.inl rfl)⟩

/-- `ProcessUpLane` would create its lane for this body. -/
structure Session.Creates (s : Session) (laneID : ℕ) (body : Bytes) (frames : List Frame) :
    Prop where
  carrier : s.usesCarrierLanes = true
  nonzero : laneID ≠ 0
  inRange : laneID ≤ maxStreamID
  parsed : laneFrames s.limits laneID body = some frames
  opened : s.closed = false
  missing : s.carrierLanes.get laneID = none
  opens : frames.head?.map (·.type) = some .open

/-- `ProcessUpLane` orphans a lane only where it creates one and takes up no body. -/
theorem processUpLane_fosters (s : Session) (laneID sequence : ℕ) (body : Bytes) :
    wp observer (processUpLane sha256 s laneID sequence body) (fun _ r =>
      ((∃ frames, s.Creates laneID body frames) → r.2.TakenUp) → Fosters ∅ s r.1) t := by
  unfold processUpLane
  by_cases hcall : s.usesCarrierLanes = false ∨ maxStreamID < laneID
  · rw [if_pos hcall]
    exact fun _ => .refl s
  rw [if_neg hcall]
  cases hframes : laneFrames s.limits laneID body with
  | none => exact fun _ => .refl s
  | some frames =>
      dsimp only
      by_cases hclosed : s.closed = true
      · rw [if_pos hclosed]
        exact fun _ => .refl s
      rw [if_neg hclosed]
      cases hl : s.carrierLanes.get laneID with
      | some lane =>
          dsimp only
          refine wp_mono (processOnLane_fosters s lane laneID sequence body frames) ?_
          exact fun _ _ h _ => h.1
      | none =>
          dsimp only
          by_cases hlate : laneID ≠ 0 ∧ frames ≠ [] ∧
              ¬ frames.head?.map (·.type) = some .open ∧ onlyLateFrames frames = true
          · rw [if_pos hlate]
            exact fun _ => .refl s
          rw [if_neg hlate]
          by_cases hbad : laneID = 0 ∨ frames = [] ∨ ¬ frames.head?.map (·.type) = some .open
          · rw [if_pos hbad]
            exact fun _ => .refl s
          rw [if_neg hbad]
          simp only [not_or, not_not] at hbad
          obtain ⟨h0, -, hopens⟩ := hbad
          refine wp_mono (processOnLane_fosters _ _ laneID sequence body frames) ?_
          rintro t₁ r ⟨h₁, hid⟩ htaken
          have hcreate : Fosters {laneID} s (s.createLane laneID).1 := by
            refine .of_kept rfl (fun _ _ h => h) (fun _ _ h _ => h) fun i hi h => ?_
            rw [Finset.mem_singleton] at hi
            exact (Table.get_put_ne s.carrierLanes _ hi) ▸ h
          have hbut : Fosters {laneID} s r.1 := hcreate.trans h₁.mono
          obtain ⟨f, rest, rfl⟩ : ∃ f rest, frames = f :: rest := by
            cases frames with
            | nil => cases hopens
            | cons f rest => exact ⟨f, rest, rfl⟩
          have hty : f.type = .open := by simpa using hopens
          have hfid : f.streamID = laneID := (laneFrames_spec hframes f List.mem_cons_self).2.2
          by_cases hopen : r.1.closed = false
          · refine hbut.of_but ?_
            rw [← hfid]
            exact hid f rest rfl hty (hfid ▸ h0) rfl (htaken ⟨_, by simpa using (not_or.mp hcall).1,
              h0, not_lt.mp (not_or.mp hcall).2, hframes, by simpa using hclosed, hl,
              hopens⟩) hopen
          · exact .of_closed (by simpa using hopen)

end TproxyServer
