import TproxyServer.SectionChanges

/-! # A websocket lane that fails leaves the others alone

What the sections of a lane `id` may touch of another: neither the stream nor the lane of a
live `other`, and the session closes only where a CLOSE for `id` finds no room. -/

namespace TproxyServer

open Interaction Prog

section

variable {limits : Limits} {s s' s'' : Session} {t t₀ : List Event}
  {id other : ℕ} {sha256 : Bytes → Bytes}

/-- The stream and the lane of `other` are as before, and the session is as open. -/
structure Spares (other : ℕ) (s s' : Session) : Prop where
  stream : s'.streams.get other = s.streams.get other
  lane : s'.carrierLanes.get other = s.carrierLanes.get other
  closed : s'.closed = s.closed

/-- The lane of `id` is there, and no tombstone that may be evicted for it is `id` itself or
`other`. -/
structure Session.Clear (id other : ℕ) (s : Session) : Prop where
  laned : s.usesCarrierLanes = true
  lane : s.carrierLanes.get id ≠ none
  own : id ∈ s.closedOrder → id ∈ s.closedStreams
  nonzero : other ≠ 0
  fresh : other ∉ s.closedOrder

namespace Spares

theorem refl (s : Session) : Spares other s s := ⟨rfl, rfl, rfl⟩

theorem trans (h : Spares other s s') (h' : Spares other s' s'') : Spares other s s'' :=
  ⟨h'.stream.trans h.stream, h'.lane.trans h.lane, h'.closed.trans h.closed⟩

theorem upToPending (h : s.UpToPending s') : Spares other s s' := by
  obtain ⟨cost, items, notify, rfl⟩ := h
  exact ⟨rfl, rfl, rfl⟩

variable (hne : other ≠ id)
include hne

theorem putStream (s : Session) (st : StreamState) : Spares other s (s.putStream id st) :=
  ⟨Table.get_put_ne _ _ hne, rfl, rfl⟩

theorem delStream (s : Session) : Spares other s (s.delStream id) :=
  ⟨Table.get_del_ne _ hne, rfl, rfl⟩

theorem putLane (s : Session) (l : CarrierLane) : Spares other s (s.putLane id l) :=
  ⟨rfl, Table.get_put_ne _ _ hne, rfl⟩

theorem delLane (s : Session) (l : CarrierLane) : Spares other s (s.delLane id l) :=
  ⟨rfl, Table.get_del_ne _ hne, rfl⟩

theorem modifyLane (s : Session) (object : ℕ) (f : CarrierLane → CarrierLane) :
    Spares other s (s.modifyLane id object f) := by
  have hl := s.modifyLane_lanes id object other f
  obtain ⟨lanes, released, he⟩ := s.modifyLane_eq id object f
  rw [he] at hl ⊢
  refine ⟨rfl, ?_, rfl⟩
  rw [hl]
  simp [hne]

theorem setQueue (s : Session) (object : ℕ) (d : Downlink) :
    Spares other s (s.setQueue (.lane id object) d) :=
  modifyLane hne s object _

theorem signalLane (s : Session) : Spares other s (s.signalLane id) := by
  unfold Session.signalLane
  cases s.carrierLanes.get id with
  | none => exact refl s
  | some lane => exact putLane hne s _

theorem queueResult {ty : FrameType} {payload : Bytes} {es : List Event} {ok : Bool}
    (hlaned : s.usesCarrierLanes = true) (h : QueueResult s ty id payload es s' ok) :
    Spares other s s' := by
  cases h with
  | refused => exact refl s
  | @accepted q d cost items notify hq _ =>
      unfold Session.queueRef at hq
      rw [if_pos hlaned] at hq
      obtain ⟨l, -, rfl⟩ := Option.map_eq_some_iff.mp hq
      exact (upToPending ⟨cost, items, notify, rfl⟩).trans (setQueue hne _ _ _)

end Spares

namespace Session.Clear

/-- Changes of other fields, and of the lanes as long as that of `id` stays. -/
theorem congr (h : s.Clear id other) (hcarrier : s'.carrier = s.carrier)
    (hlane : s'.carrierLanes.get id ≠ none) (horder : s'.closedOrder = s.closedOrder)
    (htombs : s'.closedStreams = s.closedStreams) : s'.Clear id other where
  laned := by
    have hlaned := h.laned
    unfold Session.usesCarrierLanes at hlaned ⊢
    rwa [hcarrier]
  lane := hlane
  own := by
    rw [horder, htombs]
    exact h.own
  nonzero := h.nonzero
  fresh := by
    rw [horder]
    exact h.fresh

theorem upToPending (h : s.Clear id other) (hs : s.UpToPending s') : s'.Clear id other := by
  obtain ⟨cost, items, notify, rfl⟩ := hs
  exact h.congr rfl h.lane rfl rfl

theorem putStream (h : s.Clear id other) (st : StreamState) :
    (s.putStream id st).Clear id other :=
  h.congr rfl h.lane rfl rfl

theorem delStream (h : s.Clear id other) : (s.delStream id).Clear id other :=
  h.congr rfl h.lane rfl rfl

theorem putLane (h : s.Clear id other) (l : CarrierLane) : (s.putLane id l).Clear id other := by
  refine h.congr rfl ?_ rfl rfl
  simp

theorem modifyLane (h : s.Clear id other) (object : ℕ) (f : CarrierLane → CarrierLane) :
    (s.modifyLane id object f).Clear id other := by
  have hl := s.modifyLane_lanes id object id f
  obtain ⟨lanes, released, he⟩ := s.modifyLane_eq id object f
  rw [he] at hl ⊢
  refine h.congr rfl ?_ rfl rfl
  rw [hl]
  simpa using h.lane

theorem signalLane (h : s.Clear id other) : (s.signalLane id).Clear id other := by
  unfold Session.signalLane
  cases s.carrierLanes.get id with
  | none => exact h
  | some lane => exact h.putLane _

theorem queueResult (h : s.Clear id other) {ty : FrameType} {payload : Bytes}
    {es : List Event} {ok : Bool} (hq : QueueResult s ty id payload es s' ok) :
    s'.Clear id other := by
  cases hq with
  | refused => exact h
  | @accepted q d cost items notify href _ =>
      unfold Session.queueRef at href
      rw [if_pos h.laned] at href
      obtain ⟨l, -, rfl⟩ := Option.map_eq_some_iff.mp href
      exact (h.upToPending ⟨cost, items, notify, rfl⟩).modifyLane _ _

/-- In a sound state a lane that is there or comes is clear of every live stream. -/
theorem of_sound (hs : Sound limits .webSocketLanes ⟨s, t⟩)
    (hother : s.streams.get other ≠ none) (hlane : s'.carrierLanes.get id ≠ none)
    (hcarrier : s'.carrier = s.carrier) (horder : s'.closedOrder = s.closedOrder)
    (htombs : s'.closedStreams = s.closedStreams) : s'.Clear id other := by
  have hmem : ∀ i, i ∈ s.closedOrder ↔ i ∈ s.closedStreams := by
    intro i
    have ht := hs.tombstones
    dsimp only at ht
    rw [ht, List.mem_toFinset]
  have hsound := hs.carrier_eq
  dsimp only at hsound
  refine ⟨?_, hlane, ?_, (hs.known other hother).1, ?_⟩
  · simp [Session.usesCarrierLanes, hcarrier, hsound]
  · rw [horder, htombs]
    exact (hmem id).mp
  · rw [horder]
    exact fun h => hs.disjoint other hother ((hmem other).mp h)

end Session.Clear

/-! ### Tombstones -/

theorem evictOldest_spares (hne : other ≠ id) (h0 : id ≠ 0) (h : s.Clear id other)
    (hown : id ∉ s.closedOrder) (hmem : id ∈ s.closedStreams) :
    wp observer (evictOldest s id) (fun _ s' => Spares other s s' ∧ s'.Clear id other) t := by
  have hold : ∀ i, i ≠ 0 → i ∉ s.closedOrder → i ≠ s.closedOrder.getD s.closedStart 0 := by
    intro i hi hmem he
    rw [List.getD_eq_getElem?_getD] at he
    cases hg : s.closedOrder[s.closedStart]? with
    | none =>
        rw [hg] at he
        exact hi he
    | some old =>
        rw [hg] at he
        exact hmem (he ▸ List.mem_of_getElem? hg)
  have hid := hold id h0 hown
  have hother := hold other h.nonzero h.fresh
  have hdone : ∀ s₁ : Session, s₁.carrier = s.carrier → s₁.closed = s.closed →
      s₁.streams = s.streams →
      s₁.carrierLanes = s.carrierLanes.del (s.closedOrder.getD s.closedStart 0) →
      s₁.closedStreams = s.closedStreams.erase (s.closedOrder.getD s.closedStart 0) →
      s₁.closedOrder = s.closedOrder.set s.closedStart id →
      Spares other s s₁ ∧ s₁.Clear id other := by
    intro s₁ hcarrier hclosed hstreams hlanes htombs horder
    refine ⟨⟨by rw [hstreams], ?_, hclosed⟩, ?_, ?_, ?_, h.nonzero, ?_⟩
    · rw [hlanes]
      exact Table.get_del_ne _ hother
    · have hlaned := h.laned
      unfold Session.usesCarrierLanes at hlaned ⊢
      rwa [hcarrier]
    · rw [hlanes, Table.get_del_ne _ hid]
      exact h.lane
    · intro _
      rw [htombs]
      exact Finset.mem_erase.mpr ⟨hid, hmem⟩
    · rw [horder]
      intro hm
      rcases List.mem_or_eq_of_mem_set hm with hm | hm
      · exact h.fresh hm
      · exact hne hm
  unfold evictOldest
  simp only [announce_bind, wp_note]
  cases hl : s.carrierLanes.get (s.closedOrder.getD s.closedStart 0) with
  | none => exact hdone _ rfl rfl rfl (Table.del_eq_self _ hl).symm rfl rfl
  | some lane =>
      refine wp_seq (releaseLaneLocked_obs _ lane) ?_
      rintro t' ⟨s₁, lane₁⟩ ⟨rfl, ⟨cost, items, notify, rfl⟩, rfl⟩
      exact hdone _ rfl rfl rfl rfl rfl rfl

theorem rememberClosedLocked_spares (hne : other ≠ id) (h0 : id ≠ 0) (h : s.Clear id other) :
    wp observer (rememberClosedLocked s id)
      (fun _ s' => Spares other s s' ∧ s'.Clear id other) t := by
  unfold rememberClosedLocked
  by_cases hmem : id ∈ s.closedStreams
  · rw [if_pos hmem]
    exact ⟨.refl s, h⟩
  rw [if_neg hmem]
  have hown : id ∉ s.closedOrder := fun hm => hmem (h.own hm)
  dsimp only
  simp only [announce_bind, wp_note]
  split_ifs
  · have hsame : Spares other s
        { s with
          closedStreams := insert id s.closedStreams
          closedOrder := s.closedOrder ++ [id] } :=
      ⟨rfl, rfl, rfl⟩
    refine ⟨hsame.trans (.signalLane hne _), Session.Clear.signalLane ?_⟩
    refine ⟨h.laned, h.lane, fun _ => Finset.mem_insert_self _ _, h.nonzero, ?_⟩
    intro hm
    rcases List.mem_append.mp hm with hm | hm
    · exact h.fresh hm
    · exact hne (List.mem_singleton.mp hm)
  · have hinsert : Session.Clear id other { s with closedStreams := insert id s.closedStreams } :=
      ⟨h.laned, h.lane, fun hm => absurd hm hown, h.nonzero, h.fresh⟩
    refine wp_seq (evictOldest_spares hne h0 hinsert hown (Finset.mem_insert_self _ _)) ?_
    rintro t' s₁ ⟨hs₁, hc₁⟩
    exact ⟨.trans ⟨hs₁.stream, hs₁.lane, hs₁.closed⟩ (.signalLane hne s₁), hc₁.signalLane⟩

/-! ### A batch of the lane -/

variable {r : Applying}

/-- A CLOSE for `id` was refused though its lane is there: there was no room for it. -/
def NoRoom (id : ℕ) (t : List Event) (s : Session) : Prop :=
  .refused .close id [] ∈ t ∧ s.carrierLanes.get id ≠ none

/-- What the application of frames of `id` leaves. -/
structure Contained (id other : ℕ) (s : Session) (t : List Event) (r : Applying) : Prop where
  spares : Spares other s r.session
  clear : r.session.Clear id other
  applied : r.applied = false → NoRoom id t r.session

theorem Contained.trans {t' : List Event} {r' : Applying} (h : Contained id other s t r)
    (h' : Contained id other r.session t' r') : Contained id other s t' r' :=
  ⟨h.spares.trans h'.spares, h'.clear, h'.applied⟩

/-- A CLOSE that is refused where the lane is there finds no room. -/
theorem QueueResult.noRoom {es : List Event} (h : QueueResult s .close id [] es s' false)
    (hlane : s.carrierLanes.get id ≠ none) : NoRoom id (t ++ es) s' := by
  cases h
  exact ⟨by simp, hlane⟩

theorem refuseOpen_contained (hne : other ≠ id) (h0 : id ≠ 0) (hgo : r.applied = true)
    (h : r.session.Clear id other) :
    wp observer (refuseOpen r id) (fun t' r' => Contained id other r.session t' r') t := by
  unfold refuseOpen
  refine wp_seq (rememberClosedLocked_spares hne h0 h) ?_
  rintro t₁ s₁ ⟨hs₁, hc₁⟩
  simp only [announce_bind, wp_note]
  refine wp_seq (queueFrameLocked_obs s₁ .close id []) ?_
  rintro t₂ ⟨s₂, ok⟩ ⟨es, rfl, hq⟩
  have hs₂ := hs₁.trans (Spares.queueResult hne hc₁.laned hq)
  have hc₂ := hc₁.queueResult hq
  cases ok with
  | true =>
      refine ⟨hs₂, hc₂, fun hgo' => ?_⟩
      rw [hgo] at hgo'
      cases hgo'
  | false =>
      obtain ⟨hmem, hlane⟩ := QueueResult.noRoom (t := t₁ ++ [.rejected id]) hq hc₁.lane
      exact ⟨hs₂, hc₂, fun _ => ⟨List.mem_append_left _ hmem, hlane⟩⟩

theorem applyFrame_contained (hne : other ≠ id) {f : Frame} (hid : f.streamID = id)
    (hgo : r.applied = true) (h : r.session.Clear id other) :
    wp observer (applyFrame r f) (fun t' r' => Contained id other r.session t' r') t := by
  have hkeep : ∀ {t' : List Event} {r' : Applying}, r'.applied = r.applied →
      Spares other r.session r'.session → r'.session.Clear id other →
      Contained id other r.session t' r' := by
    intro t' r' happlied hs hc
    refine ⟨hs, hc, fun hno => ?_⟩
    rw [happlied, hgo] at hno
    cases hno
  have hsame : ∀ {t' : List Event}, Contained id other r.session t' r :=
    hkeep rfl (.refl _) h
  unfold applyFrame
  rw [hid]
  by_cases h0 : id = 0
  · rw [if_pos h0]
    exact hsame
  rw [if_neg h0]
  cases f.type with
  | «open» =>
      show wp observer (applyOpen r id) _ t
      unfold applyOpen
      dsimp only
      split_ifs
      · exact refuseOpen_contained hne h0 hgo h
      · refine ⟨trivial, ?_⟩
        rintro b t' rfl
        cases b with
        | false => exact refuseOpen_contained hne h0 hgo h
        | true =>
            have hopened := Spares.putStream hne r.session (newStream r.session.nextObject)
            exact hkeep rfl ⟨hopened.stream, hopened.lane, hopened.closed⟩
              (h.congr rfl h.lane rfl rfl)
  | data =>
      dsimp only
      split_ifs
      · exact hsame
      · unfold applyData
        cases r.session.streams.get id with
        | none => trivial
        | some st => exact hkeep rfl (.putStream hne _ _) (h.putStream _)
  | window =>
      dsimp only
      split_ifs
      · exact hsame
      · unfold applyWindow
        cases r.session.streams.get id with
        | none => trivial
        | some st => exact hkeep rfl (.putStream hne _ _) (h.putStream _)
  | close =>
      dsimp only
      split_ifs
      · exact hsame
      · unfold applyClose
        cases r.session.streams.get id with
        | none => trivial
        | some st =>
            refine wp_seq (releaseStreamWritesLocked_obs r.session st) ?_
            rintro t₁ s₁ ⟨rfl, hs₁⟩
            have hdel := (Spares.upToPending hs₁).trans (Spares.delStream hne s₁)
            refine wp_seq (rememberClosedLocked_spares hne h0 (h.upToPending hs₁).delStream) ?_
            rintro t₂ s₂ ⟨hs₂, hc₂⟩
            exact hkeep rfl (hdel.trans hs₂) hc₂
  | _ => exact hsame

theorem applyLoop_contained (hne : other ≠ id) {frames : List Frame}
    (hids : ∀ f ∈ frames, f.streamID = id) (hgo : r.applied = true)
    (h : r.session.Clear id other) :
    wp observer (applyLoop r frames) (fun t' r' => Contained id other r.session t' r') t := by
  induction frames generalizing r t with
  | nil =>
      refine ⟨.refl _, h, fun hno => ?_⟩
      rw [hgo] at hno
      cases hno
  | cons f rest ih =>
      refine wp_seq (applyFrame_contained hne (hids f List.mem_cons_self) hgo h) ?_
      intro t₁ r₁ h₁
      by_cases hgo₁ : r₁.applied = true
      · rw [if_pos hgo₁]
        refine wp_mono (ih (fun f hf => hids f (List.mem_cons_of_mem _ hf)) hgo₁ h₁.clear) ?_
        exact fun _ _ h₂ => h₁.trans h₂
      · rw [if_neg hgo₁]
        exact h₁

/-- What a section of the lane that stays open leaves, and why it wants the session closed. -/
structure Aside (id other : ℕ) (s : Session) (t : List Event) (s' : Session)
    (aborting : Prop) : Prop where
  spares : Spares other s s'
  clear : s'.Clear id other
  aborting : aborting → NoRoom id t s'

theorem commitBatch_aside (hne : other ≠ id) (h : s.Clear id other) (label : Option ℕ)
    (sequence : ℕ) (body : Bytes) {frames : List Frame} (hids : ∀ f ∈ frames, f.streamID = id) :
    wp observer (commitBatch s label sequence body frames)
      (fun t' p => Aside id other s t' p.1 (p.2 = .aborted)) t := by
  refine commitBatch_observed (fun t' r => Contained id other s t' r)
    ⟨.refl s, h, by simp⟩ ⟨.refl s, h, by simp⟩ ?_ ?_
  · intro _ s' hs'
    refine wp_mono (applyLoop_contained hne hids rfl (h.upToPending hs')) ?_
    exact fun _ _ hr => ⟨(Spares.upToPending hs').trans hr.spares, hr.clear, hr.applied⟩
  · intro t₁ r s₂ hr hs₂
    refine ⟨hr.spares.trans (.upToPending hs₂), hr.clear.upToPending hs₂, fun hab => ?_⟩
    cases hgo : r.applied with
    | true => simp [hgo] at hab
    | false =>
        obtain ⟨hmem, -⟩ := hr.applied hgo
        exact ⟨List.mem_append_left _ hmem, (hr.clear.upToPending hs₂).lane⟩

theorem processOnLane_aside (sha256 : Bytes → Bytes) (hne : other ≠ id)
    (h : s.Clear id other) (lane : CarrierLane) (sequence : ℕ) (body : Bytes)
    {frames : List Frame} (hids : ∀ f ∈ frames, f.streamID = id) :
    wp observer (processOnLane sha256 s lane id sequence body frames)
      (fun t' p => Aside id other s t' p.1 (p.2 = .aborting)) t := by
  unfold processOnLane
  split_ifs
  · exact ⟨.refl s, h, by simp⟩
  · exact ⟨.refl s, h, by simp⟩
  · exact ⟨.refl s, h, by simp⟩
  · exact ⟨.refl s, h, by simp⟩
  dsimp only
  have hbusy := Spares.modifyLane hne s lane.object fun l => { l with upActive := true }
  refine wp_seq (commitBatch_aside hne (h.modifyLane lane.object _) (some id) sequence body hids) ?_
  rintro t₁ ⟨s₁, outcome⟩ ⟨hs₁, hc₁, hab₁⟩
  have hs₂ := (hbusy.trans hs₁).trans
    (Spares.modifyLane hne s₁ lane.object fun l => { l with upActive := false })
  have hc₂ := hc₁.modifyLane lane.object fun l => { l with upActive := false }
  cases outcome with
  | invalid => exact ⟨hs₂, hc₂, by simp⟩
  | backpressure => exact ⟨hs₂, hc₂, by simp⟩
  | aborted => exact ⟨hs₂, hc₂, fun _ => ⟨(hab₁ rfl).1, hc₂.lane⟩⟩
  | applied =>
      exact ⟨hs₂.trans (.modifyLane hne _ _ _), hc₂.modifyLane _ _, by simp⟩

/-! ### The sections of a lane -/

/-- What a section of the lane `id` leaves: an open session, `other` being spared, or a closed
one, for want of room for a CLOSE. -/
structure Stays (id other : ℕ) (s : Session) (t : List Event) (s' : Session)
    (aborting : Prop) : Prop where
  spares : s'.closed = false → Spares other s s'
  closing : s'.closed = true ∨ aborting → NoRoom id t s'

theorem Stays.of_spares {aborting : Prop} (hopen : s.closed = false) (h : Spares other s s')
    (hab : aborting → NoRoom id t s') : Stays id other s t s' aborting := by
  refine ⟨fun _ => h, ?_⟩
  rintro (hc | hc)
  · rw [h.closed, hopen] at hc
    cases hc
  · exact hab hc

theorem Aside.stays {aborting : Prop} (hopen : s.closed = false)
    (h : Aside id other s t s' aborting) : Stays id other s t s' aborting :=
  .of_spares hopen h.spares h.aborting

section

variable (hs : Sound limits .webSocketLanes ⟨s, t₀⟩)
  (hopen : s.closed = false) (hother : s.streams.get other ≠ none) (hne : other ≠ id)

include hs hopen hother hne

theorem processUpLane_stays (sha256 : Bytes → Bytes) (sequence : ℕ) (body : Bytes) :
    wp observer (processUpLane sha256 s id sequence body)
      (fun t' p => Stays id other s t' p.1 (p.2 = .aborting)) t := by
  have hsame : ∀ {r : UpReply}, r ≠ .aborting → Stays id other s t s (r = .aborting) :=
    fun hr => .of_spares hopen (.refl s) fun h => absurd h hr
  unfold processUpLane
  by_cases hcall : s.usesCarrierLanes = false ∨ maxStreamID < id
  · rw [if_pos hcall]
    exact hsame (by simp)
  rw [if_neg hcall]
  cases hframes : laneFrames s.limits id body with
  | none => exact hsame (by simp)
  | some frames =>
      have hids : ∀ f ∈ frames, f.streamID = id := fun f hf => (laneFrames_spec hframes f hf).2.2
      dsimp only
      rw [if_neg (by simp [hopen])]
      cases hl : s.carrierLanes.get id with
      | some lane =>
          have hclear : s.Clear id other := .of_sound hs hother (by simp [hl]) rfl rfl rfl
          exact wp_mono (processOnLane_aside sha256 hne hclear lane sequence body hids)
            fun _ _ h => h.stays hopen
      | none =>
          dsimp only
          split_ifs
          · exact hsame (by simp)
          · exact hsame (by simp)
          have hput := Spares.putLane hne s { object := s.nextObject }
          have hnew : Spares other s (s.createLane id).1 := ⟨hput.stream, hput.lane, hput.closed⟩
          have hlaned : (s.createLane id).1.Clear id other :=
            .of_sound hs hother (by simp [Session.createLane]) rfl rfl rfl
          refine wp_mono (processOnLane_aside sha256 hne hlaned _ sequence body hids) ?_
          rintro t' ⟨s', r⟩ ⟨hs', hc', hab'⟩
          exact .of_spares hopen (hnew.trans hs') hab'

omit hopen in
theorem releaseWebSocketLane_spares :
    wp observer (releaseWebSocketLane s id) (fun _ s' => Spares other s s') t := by
  have hdrop : ∀ (s₁ : Session) (t₁ : List Event), Spares other s s₁ →
      wp observer (dropLane s₁ id) (fun _ s' => Spares other s s') t₁ := by
    intro s₁ t₁ h₁
    unfold dropLane
    cases s₁.carrierLanes.get id with
    | none => exact h₁
    | some lane =>
        refine wp_seq (releaseLaneLocked_obs s₁ lane) ?_
        rintro t₂ ⟨s₂, lane₂⟩ ⟨rfl, hs₂, rfl⟩
        exact (h₁.trans (.upToPending hs₂)).trans (.delLane hne s₂ _)
  unfold releaseWebSocketLane
  split_ifs
  · exact .refl s
  cases hl : s.carrierLanes.get id with
  | none => exact .refl s
  | some lane =>
      dsimp only
      have hidle := Spares.putLane hne s { lane with websocketActive := false }
      have hclear : (s.putLane id { lane with websocketActive := false }).Clear id other :=
        (Session.Clear.of_sound hs hother (by simp [hl]) rfl rfl rfl).putLane _
      cases hst : s.streams.get id with
      | none =>
          simp only [Session.putLane_streams, hst]
          exact hdrop _ _ hidle
      | some st =>
          have h0 : id ≠ 0 := (hs.known id (by simp [hst])).1
          simp only [Session.putLane_streams, hst]
          refine wp_seq (releaseStreamWritesLocked_obs _ st) ?_
          rintro t₁ s₁ ⟨rfl, hs₁⟩
          refine wp_seq (rememberClosedLocked_spares hne h0 (hclear.upToPending hs₁).delStream) ?_
          rintro t₂ s₂ ⟨hs₂, -⟩
          simp only [announce_bind, wp_note]
          exact hdrop _ _ (((hidle.trans (.upToPending hs₁)).trans (.delStream hne s₁)).trans hs₂)

end

/-! ### Polls -/

theorem pollLoop_spares (hne : other ≠ id) (s : Session) (object cursor mine : ℕ) :
    wp observer (pollLoop s (.lane id object) cursor mine) (fun _ p => Spares other s p.1) t := by
  unfold pollLoop
  dsimp only
  split_ifs
  · exact .refl s
  · exact .setQueue hne s object _
  · exact .setQueue hne s object _
  · exact .setQueue hne s object _
  · exact .refl s

theorem takeOver_spares (hne : other ≠ id) (s : Session) (object : ℕ) :
    wp observer (takeOver s (.lane id object)) (fun _ p => Spares other s p.1) t := by
  have hset : ∀ (s₁ : Session) (d : Downlink), Spares other s s₁ →
      Spares other s
        ({ s₁ with nextObject := s₁.nextObject + 1 }.setQueue (.lane id object) d) := by
    intro s₁ d h₁
    have hnext : Spares other s { s₁ with nextObject := s₁.nextObject + 1 } :=
      ⟨h₁.stream, h₁.lane, h₁.closed⟩
    exact hnext.trans (.setQueue hne _ _ _)
  unfold takeOver
  dsimp only
  split
  · exact hset s _ (.refl s)
  · next channel _ =>
      split_ifs
      · exact hset s _ (.refl s)
      · trivial
      · exact hset { s with closedChannels := insert channel s.closedChannels } _ ⟨rfl, rfl, rfl⟩

theorem pollOn_spares (hne : other ≠ id) (s : Session) (object cursor : ℕ) :
    wp observer (pollOn s (.lane id object) cursor) (fun _ p => Spares other s p.1) t := by
  have hwait : ∀ (s₁ : Session) (t₁ : List Event), Spares other s s₁ →
      wp observer
        (takeOver s₁ (.lane id object) >>= fun p => pollLoop p.1 (.lane id object) cursor p.2)
        (fun _ p => Spares other s p.1) t₁ := by
    intro s₁ t₁ h₁
    refine wp_seq (takeOver_spares hne s₁ object) ?_
    intro t₂ p h₂
    exact wp_mono (pollLoop_spares hne p.1 object cursor p.2) fun _ _ h => (h₁.trans h₂).trans h
  unfold pollOn
  dsimp only
  cases (s.queue (.lane id object)).checkCursor cursor with
  | replay => exact .refl s
  | mismatch => exact .refl s
  | acknowledge =>
      refine wp_seq (releasePendingLocked_obs s _ _) ?_
      rintro t₁ s₁ ⟨rfl, hs₁⟩
      exact hwait _ _ ((Spares.upToPending hs₁).trans (.setQueue hne s₁ object _))
  | current => exact hwait s t (.refl s)

theorem pollLane_spares (hne : other ≠ id) (s : Session) (cursor : ℕ) :
    wp observer (pollLane s id cursor) (fun _ p => Spares other s p.1) t := by
  unfold pollLane
  split_ifs
  · exact .refl s
  · exact .refl s
  · cases s.carrierLanes.get id with
    | none => exact .refl s
    | some lane => exact pollOn_spares hne s lane.object cursor

theorem pollResume_spares (hne : other ≠ id) (s : Session) (object cursor mine : ℕ)
    (wake : Wake) :
    wp observer (pollResume s (.lane id object) cursor mine wake)
      (fun _ p => Spares other s p.1) t := by
  unfold pollResume
  cases wake with
  | cancelled =>
      dsimp only
      split_ifs
      · exact .setQueue hne s object _
      · exact .refl s
  | superseded => exact .setQueue hne s object _
  | done =>
      dsimp only
      split_ifs
      · exact .setQueue hne s object _
      · exact .refl s
  | deadline =>
      dsimp only
      split_ifs
      · exact .setQueue hne s object _
      · exact pollLoop_spares hne s object cursor mine
      · exact .setQueue hne s object _
  | notified =>
      dsimp only
      refine wp_mono (pollLoop_spares hne _ object cursor mine) ?_
      intro t₁ p h
      refine Spares.trans ?_ h
      split_ifs
      · exact .setQueue hne s object _
      · exact .refl s

/-! ### Backends -/

theorem closeLocked_noRoom (h : NoRoom id t s) :
    wp observer (closeLocked s) (fun t' s' => s'.closed = true ∧ NoRoom id t' s') t := by
  have hlanes : (s.carrierLanes.mapValues CarrierLane.drop).get id ≠ none := by
    simpa [Table.get_mapValues] using h.2
  have hmem : ∀ es : List Event, .refused .close id [] ∈ t ++ es :=
    fun es => List.mem_append_left es h.1
  unfold closeLocked
  split_ifs with hclosed
  · exact ⟨hclosed, h⟩
  · simp only [announce_bind, wp_note]
    split_ifs
    · refine ⟨trivial, ?_⟩
      rintro b t' rfl
      exact ⟨rfl, List.mem_append_left _ (hmem _), hlanes⟩
    · exact ⟨rfl, List.mem_append_left _ (hmem _), hlanes⟩

/-- The CLOSE for a stream that ends is queued, or the session closes. -/
theorem backendClosed_stays (hs : Sound limits .webSocketLanes ⟨s, t₀⟩)
    (hopen : s.closed = false) (hother : s.streams.get other ≠ none) (hne : other ≠ id)
    (backend : ℕ) :
    wp observer (backendClosed s id backend) (fun t' s' => Stays id other s t' s' False) t := by
  have hdone : ∀ {t' : List Event} {s' : Session}, Stays id other s t' s' False →
      Stays id other s (t' ++ [.cancelled [backend]]) s' False := by
    intro t' s' h
    refine ⟨h.spares, fun hc => ?_⟩
    obtain ⟨hmem, hlane⟩ := h.closing hc
    exact ⟨List.mem_append_left _ hmem, hlane⟩
  have hsame : Stays id other s t s False := .of_spares hopen (.refl s) False.elim
  unfold backendClosed
  cases hst : s.streams.get id with
  | none => exact hdone hsame
  | some st =>
      dsimp only
      split_ifs
      · exact hdone hsame
      have h0 : id ≠ 0 := (hs.known id (by simp [hst])).1
      have hlaned : s.usesCarrierLanes = true := by
        have hcarrier := hs.carrier_eq
        dsimp only at hcarrier
        simp [Session.usesCarrierLanes, hcarrier]
      have hclear : s.Clear id other :=
        .of_sound hs hother (hs.lanes hlaned id (by simp [hst])) rfl rfl rfl
      refine wp_seq (releaseStreamWritesLocked_obs s st) ?_
      rintro t₁ s₁ ⟨rfl, hs₁⟩
      have hdel := (Spares.upToPending hs₁).trans (Spares.delStream hne s₁)
      refine wp_seq (rememberClosedLocked_spares hne h0 (hclear.upToPending hs₁).delStream) ?_
      rintro t₂ s₂ ⟨hs₂, hc₂⟩
      refine wp_seq (queueFrameLocked_obs s₂ .close id []) ?_
      rintro t₃ ⟨s₃, ok⟩ ⟨es, rfl, hq⟩
      have hs₃ := (hdel.trans hs₂).trans (Spares.queueResult hne hc₂.laned hq)
      cases ok with
      | true => exact hdone (.of_spares hopen hs₃ False.elim)
      | false =>
          have hroom := QueueResult.noRoom (t := t₂) hq hc₂.lane
          refine wp_seq (closeLocked_noRoom hroom) ?_
          rintro t₄ s₄ ⟨hclosed, hroom₄⟩
          refine hdone ⟨fun hopen₄ => ?_, fun _ => hroom₄⟩
          rw [hclosed] at hopen₄
          cases hopen₄

/-! ### Every section of a lane -/

/-- The sections that run on behalf of lane `id`: its requests, its polls, its release and the
callbacks of the backend of its stream. -/
inductive Section.OfLane (id : ℕ) : Section → Prop
  | processUpLane (sequence : ℕ) (body : Bytes) : OfLane id (.processUpLane id sequence body)
  | pollLane (cursor : ℕ) : OfLane id (.pollLane id cursor)
  | pollResume (object cursor mine : ℕ) (wake : Wake) :
      OfLane id (.pollResume (.lane id object) cursor mine wake)
  | takeToken (object : ℕ) : OfLane id (.takeToken (.lane id object))
  | releaseWebSocketLane : OfLane id (.releaseWebSocketLane id)
  | laneProtocolFailure : OfLane id (.laneProtocolFailure id)
  | nextWrite : OfLane id (.nextWrite id)
  | backendDrained (amount : ℕ) : OfLane id (.backendDrained id amount)
  | backendWriteFinished : OfLane id (.backendWriteFinished id)
  | nextReadAllowance : OfLane id (.nextReadAllowance id)
  | backendData (data : Bytes) : OfLane id (.backendData id data)
  | backendClosed (backend : ℕ) : OfLane id (.backendClosed id backend)

theorem Section.OfLane.stays {c : Section} (hc : c.OfLane id)
    (hs : Sound limits .webSocketLanes ⟨s, t₀⟩) (hopen : s.closed = false)
    (hother : s.streams.get other ≠ none) (hne : other ≠ id) :
    wp observer (c.exec sha256 s)
      (fun t' p => Stays id other s t' p.1 (p.2 = .up .aborting)) t := by
  have hlaned : s.usesCarrierLanes = true := by
    have hcarrier := hs.carrier_eq
    dsimp only at hcarrier
    simp [Session.usesCarrierLanes, hcarrier]
  have hspares : ∀ {t' : List Event} {s' : Session} {r : Reply}, Spares other s s' →
      r ≠ .up .aborting → Stays id other s t' s' (r = .up .aborting) :=
    fun h hr => .of_spares hopen h fun he => absurd he hr
  have hqueue : ∀ {s₁ : Session} {ty : FrameType} {payload : Bytes} {t₁ : List Event},
      Spares other s s₁ → s₁.carrier = s.carrier →
      wp observer (queueFrameLocked s₁ ty id payload) (fun _ p => Spares other s p.1) t₁ := by
    intro s₁ ty payload t₁ h₁ hcarrier
    refine wp_mono (queueFrameLocked_obs s₁ ty id payload) ?_
    rintro t₂ ⟨s₂, ok⟩ ⟨es, rfl, hq⟩
    refine h₁.trans (.queueResult hne ?_ hq)
    unfold Session.usesCarrierLanes at hlaned ⊢
    rwa [hcarrier]
  cases hc with
  | processUpLane sequence body =>
      refine wp_seq (processUpLane_stays hs hopen hother hne sha256 sequence body) ?_
      intro t' p h
      exact ⟨h.spares, fun hc => h.closing (hc.imp_right Reply.up.inj)⟩
  | pollLane cursor =>
      exact wp_seq (pollLane_spares hne s cursor) fun _ _ h => hspares h (by simp)
  | pollResume object cursor mine wake =>
      exact wp_seq (pollResume_spares hne s object cursor mine wake)
        fun _ _ h => hspares h (by simp)
  | takeToken object => exact hspares (.setQueue hne s object _) (by simp)
  | releaseWebSocketLane =>
      exact wp_seq (releaseWebSocketLane_spares hs hother hne)
        fun _ _ h => hspares h (by simp)
  | laneProtocolFailure =>
      have hcarrier := hs.carrier_eq
      dsimp only at hcarrier
      refine wp_seq ?_ fun _ _ h => hspares h (by simp)
      unfold TproxyServer.laneProtocolFailure
      rw [if_pos hcarrier]
      exact releaseWebSocketLane_spares hs hother hne
  | nextWrite =>
      have hwrite : Spares other s (TproxyServer.nextWrite s id).1 := by
        unfold TproxyServer.nextWrite
        split_ifs
        · exact .refl s
        · cases s.streams.get id with
          | none => exact .refl s
          | some st =>
              cases hwrites : st.writes with
              | nil =>
                  simp only [hwrites]
                  exact .refl s
              | cons chunk writes =>
                  simp only [hwrites]
                  exact .putStream hne s _
      exact hspares hwrite (by simp)
  | backendDrained amount =>
      refine @wp_seq _ _ _ _ _ _ _ _ _ (fun _ p => Spares other s p.1) _ _ ?_
        fun _ _ h => hspares h (by simp)
      unfold TproxyServer.backendDrained
      cases s.streams.get id with
      | none => exact .refl s
      | some st =>
          dsimp only
          split_ifs
          · exact .refl s
          · refine wp_seq (releasePendingLocked_obs _ _ _) ?_
            rintro t₁ s₁ ⟨rfl, cost, items, notify, rfl⟩
            refine hqueue (.trans ?_ (.putStream hne _ _)) rfl
            exact (Spares.putStream hne s _).trans (.upToPending ⟨cost, items, notify, rfl⟩)
  | backendWriteFinished =>
      refine @wp_seq _ _ _ _ _ _ _ _ _ (fun _ p => Spares other s p.1) _ _ ?_
        fun _ _ h => hspares h (by simp)
      unfold TproxyServer.backendWriteFinished
      cases s.streams.get id with
      | none => exact .refl s
      | some st =>
          dsimp only
          split_ifs
          · exact .refl s
          · generalize (queueItemCost : ℤ) = cost
            refine wp_seq (releasePendingLocked_obs _ cost 1) ?_
            rintro t₁ s₁ ⟨rfl, hs₁⟩
            exact (Spares.putStream hne s _).trans (.upToPending hs₁)
  | nextReadAllowance => exact hspares (.refl s) (by simp)
  | backendData data =>
      refine @wp_seq _ _ _ _ _ _ _ _ _ (fun _ p => Spares other s p.1) _ _ ?_
        fun _ _ h => hspares h (by simp)
      unfold TproxyServer.backendData
      cases s.streams.get id with
      | none => exact .refl s
      | some st =>
          dsimp only
          split_ifs
          · exact .refl s
          · exact hqueue (.putStream hne s _) rfl
  | backendClosed backend =>
      refine wp_seq (backendClosed_stays hs hopen hother hne backend) ?_
      intro t' s' h
      exact ⟨h.spares, fun hc => h.closing (hc.imp_right fun he => by cases he)⟩

/-- **Websocket lane failures stay in their lane.**  Whatever a section on behalf of lane `id`
is given and answers, an open session keeps the stream and the lane of every other live stream
as they are; and the session is closed, or about to be, only where a CLOSE for `id` was
refused though its lane is there. -/
theorem lane_isolated {σ σ' : Traced} {c : Section} {r : Reply}
    (hr : Reachable sha256 limits .webSocketLanes σ) (hopen : σ.session.closed = false)
    (hc : c.OfLane id) (h : Step sha256 σ c r σ') (other : ℕ) (hne : other ≠ id)
    (hother : σ.session.streams.get other ≠ none) :
    ∃ es, σ'.trace = σ.trace ++ es ∧
      (σ'.session.closed = false →
        σ'.session.streams.get other = σ.session.streams.get other ∧
        σ'.session.carrierLanes.get other = σ.session.carrierLanes.get other) ∧
      (σ'.session.closed = true ∨ r = .up .aborting →
        .refused .close id [] ∈ es ∧ σ'.session.carrierLanes.get id ≠ none) := by
  have hs := hr.sound
  cases h with
  | @run s s' t es c r _ hruns =>
      have hstays := wp_sound observer_open
        (@Section.OfLane.stays limits s [] t id other sha256 c hc hs hopen hother hne) hruns
      rw [observer_notes, List.nil_append] at hstays
      refine ⟨es, rfl, fun hopen' => ?_, hstays.closing⟩
      exact ⟨(hstays.spares hopen').stream, (hstays.spares hopen').lane⟩

end

/-- Two lanes are open when the first gets a malformed body and is released. -/
theorem lane_isolated_malformed : ∃ σ σ', Reachable id defaultLimits .webSocketLanes σ ∧
    Step id σ (.laneProtocolFailure 1) .none σ' ∧ σ'.session.carrierLanes.get 1 = none ∧
    σ'.session.streams.get 2 ≠ none ∧
    σ'.session.streams.get 2 = σ.session.streams.get 2 ∧
    σ'.session.carrierLanes.get 2 = σ.session.carrierLanes.get 2 := by
  let script : List (Section × List Bool) :=
    [(.acquireWebSocketLane 1, []), (.acquireWebSocketLane 2, []),
      (.processUpLane 1 1 (encode .open 1 []), []), (.processUpLane 2 1 (encode .open 2 []), []),
      (.backendData 2 [7], []), (.processUpLane 1 2 [0], [])]
  have hplay : ((play id ⟨newSession defaultLimits .webSocketLanes, []⟩ script).bind fun σ =>
      (attempt id σ (.laneProtocolFailure 1) []).map fun p =>
        (p.1, σ.session.closed, (σ.session.streams.get 2).isSome, p.2.session.closed,
          (p.2.session.carrierLanes.get 1).isNone)) = some (.none, false, true, false, true) := by
    decide +kernel
  obtain ⟨σ, hσ, hp⟩ := Option.bind_eq_some_iff.mp hplay
  obtain ⟨⟨r, σ'⟩, hattempt, he⟩ := Option.map_eq_some_iff.mp hp
  simp only [Prod.mk.injEq] at he
  obtain ⟨rfl, hopen, hlive, hopen', hgone⟩ := he
  have hr : Reachable id defaultLimits .webSocketLanes σ := Reachable.start.play hσ
  have hother : σ.session.streams.get 2 ≠ none := by
    intro hn
    simp [hn] at hlive
  obtain ⟨es, -, hspares, -⟩ :=
    lane_isolated hr hopen .laneProtocolFailure (.attempt hattempt) 2 (by decide) hother
  obtain ⟨hstream, hlane⟩ := hspares hopen'
  exact ⟨σ, σ', hr, .attempt hattempt, Option.isNone_iff_eq_none.mp hgone, by rwa [hstream],
    hstream, hlane⟩

end TproxyServer
