import TproxyServer.Change
import TproxyServer.RecentRing

/-! # Tombstones, live streams and lanes

The invariant that every section relies on: `closedOrder` is the recent end of the closings,
`closedStreams` are its entries, a stream is never both live and closed, and where the carrier
has lanes every live stream has one. -/

namespace TproxyServer

open Interaction

/-- The ids that were closed, oldest first. -/
def closings (t : List Event) : List ℕ :=
  t.filterMap fun e => match e with
    | .remembered id => some id
    | _ => none

@[simp] theorem closings_append (t es : List Event) :
    closings (t ++ es) = closings t ++ closings es :=
  List.filterMap_append ..

/-- The limits' answers to the OPENs of a run. -/
def decisions (t : List Event) : List Bool :=
  t.filterMap fun e => match e with
    | .opened _ _ => some true
    | .rejected _ => some false
    | _ => none

@[simp] theorem decisions_append (t es : List Event) :
    decisions (t ++ es) = decisions t ++ decisions es :=
  List.filterMap_append ..

/-- The tombstone ring: it lists the recent closings, and no stream is live and closed. -/
structure Ring (limits : Limits) (σ : Traced) : Prop where
  limits_eq : σ.session.limits = limits
  ring : RecentRing.Holds limits.maxClosedStreamIDs σ.session.closedOrder
    σ.session.closedStart (closings σ.trace)
  tombstones : σ.session.closedStreams = σ.session.closedOrder.toFinset
  distinct : σ.session.closedOrder.Nodup
  disjoint : ∀ id, σ.session.streams.get id ≠ none → id ∉ σ.session.closedStreams

/-- The ring, and where the carrier has lanes a lane for every live stream. -/
structure Sound (limits : Limits) (carrier : CarrierMode) (σ : Traced) : Prop
    extends Ring limits σ where
  carrier_eq : σ.session.carrier = carrier
  lanes : σ.session.usesCarrierLanes = true →
    ∀ id, σ.session.streams.get id ≠ none → σ.session.carrierLanes.get id ≠ none
  ended : σ.session.closed = true → ∀ id, σ.session.streams.get id = none
  known : ∀ id, σ.session.streams.get id ≠ none →
    id ≠ 0 ∧ id ≤ maxStreamID ∧ ∃ b, .opened id b ∈ σ.trace

/-- Two sessions with the same tombstones, and neither more streams nor fewer lanes. -/
structure Keeps (s s' : Session) : Prop where
  limits : s'.limits = s.limits
  carrier : s'.carrier = s.carrier
  order : s'.closedOrder = s.closedOrder
  start : s'.closedStart = s.closedStart
  tombstones : s'.closedStreams = s.closedStreams
  closed : s'.closed = true → s.closed = true ∨ ∀ id, s'.streams.get id = none
  streams : ∀ id, s'.streams.get id ≠ none → s.streams.get id ≠ none
  lanes : ∀ id, s'.streams.get id ≠ none →
    s.carrierLanes.get id ≠ none → s'.carrierLanes.get id ≠ none

namespace Keeps

variable {s s' s'' : Session}

theorem refl (s : Session) : Keeps s s :=
  ⟨rfl, rfl, rfl, rfl, rfl, .inl, fun _ => id, fun _ _ => id⟩

theorem trans (h : Keeps s s') (h' : Keeps s' s'') : Keeps s s'' where
  limits := h'.limits.trans h.limits
  carrier := h'.carrier.trans h.carrier
  order := h'.order.trans h.order
  start := h'.start.trans h.start
  tombstones := h'.tombstones.trans h.tombstones
  closed hc := by
    rcases h'.closed hc with hc | hc
    · rcases h.closed hc with hc | hc
      · exact .inl hc
      · exact .inr fun id => by_contra fun hn => h'.streams id hn (hc id)
    · exact .inr hc
  streams id hn := h.streams id (h'.streams id hn)
  lanes id hn hl := h'.lanes id hn (h.lanes id (h'.streams id hn) hl)

theorem setQueue (s : Session) (q : QueueRef) (d : Downlink) : Keeps s (s.setQueue q d) := by
  have hl := fun i => s.setQueue_lanes i q d
  obtain ⟨down, lanes, released, he⟩ := s.setQueue_eq q d
  rw [he] at hl ⊢
  refine ⟨rfl, rfl, rfl, rfl, rfl, .inl, fun _ h => h, fun id _ h => ?_⟩
  rw [hl]
  simpa using h

theorem modifyLane (s : Session) (id object : ℕ) (f : CarrierLane → CarrierLane) :
    Keeps s (s.modifyLane id object f) := by
  have hl := fun i => s.modifyLane_lanes id object i f
  obtain ⟨lanes, released, he⟩ := s.modifyLane_eq id object f
  rw [he] at hl ⊢
  refine ⟨rfl, rfl, rfl, rfl, rfl, .inl, fun _ h => h, fun i _ h => ?_⟩
  rw [hl]
  simpa using h

/-- A stream may be rewritten or deleted. -/
theorem putStream {id : ℕ} {st : StreamState} (st' : StreamState)
    (hst : s.streams.get id = some st) : Keeps s (s.putStream id st') := by
  refine ⟨rfl, rfl, rfl, rfl, rfl, .inl, fun i h => ?_, fun _ _ h => h⟩
  rw [Session.putStream_streams, Table.get_put] at h
  by_cases hi : i = id
  · subst hi; simp [hst]
  · rwa [if_neg hi] at h

theorem delStream (s : Session) (id : ℕ) : Keeps s (s.delStream id) := by
  refine ⟨rfl, rfl, rfl, rfl, rfl, .inl, fun i h => ?_, fun _ _ h => h⟩
  rw [Session.delStream_streams, Table.get_del] at h
  split_ifs at h with hi
  · exact absurd rfl h
  · exact h

/-- A lane may be written. -/
theorem putLane (s : Session) (id : ℕ) (l : CarrierLane) : Keeps s (s.putLane id l) := by
  refine ⟨rfl, rfl, rfl, rfl, rfl, .inl, fun _ h => h, fun i _ h => ?_⟩
  rw [Session.putLane_lanes, Table.get_put]
  split_ifs
  · simp
  · exact h

/-- A lane without a stream may be deleted. -/
theorem delLane {id : ℕ} (l : CarrierLane) (hlive : s.streams.get id = none) :
    Keeps s (s.delLane id l) := by
  refine ⟨rfl, rfl, rfl, rfl, rfl, .inl, fun _ h => h, fun i hn h => ?_⟩
  rw [Session.delLane_lanes, Table.get_del]
  split_ifs with hi
  · subst hi; exact absurd hlive hn
  · exact h

theorem setPending (s : Session) (cost items notify : ℕ) :
    Keeps s (s.setPending cost items notify) :=
  ⟨rfl, rfl, rfl, rfl, rfl, .inl, fun _ => id, fun _ _ => id⟩

theorem queueResult {t : FrameType} {id : ℕ} {payload : Bytes} {es : List Event} {ok : Bool}
    (h : QueueResult s t id payload es s' ok) : Keeps s s' ∧ closings es = [] := by
  cases h with
  | refused => exact ⟨refl s, rfl⟩
  | accepted hq h =>
      exact ⟨(setPending s _ _ _).trans (setQueue _ _ _), rfl⟩

end Keeps

theorem StreamStep.closings {id : ℕ} {st st' : StreamState} {es : List Event}
    (h : StreamStep id st es st') : closings es = [] := by
  cases h <;> rfl

theorem Event.silent_closings {e : Event} (h : e.silent = true) : closings [e] = [] := by
  cases e <;> first | rfl | cases h

variable {limits : Limits} {carrier : CarrierMode}

theorem Sound.usesCarrierLanes {σ : Traced} (h : Sound limits carrier σ) :
    σ.session.usesCarrierLanes = (carrier = .httpsLanes || carrier = .webSocketLanes) := by
  rw [Session.usesCarrierLanes, h.carrier_eq]

theorem Ring.keeps {s s' : Session} {t es : List Event} (h : Ring limits ⟨s, t⟩)
    (hk : Keeps s s') (hes : closings es = []) : Ring limits ⟨s', t ++ es⟩ where
  limits_eq := hk.limits.trans h.limits_eq
  ring := by
    have := h.ring
    simpa [hk.order, hk.start, hes] using this
  tombstones := by
    have := h.tombstones
    simpa [hk.order, hk.tombstones] using this
  distinct := by
    have := h.distinct
    simpa [hk.order] using this
  disjoint id hn := by
    show id ∉ s'.closedStreams
    rw [hk.tombstones]
    exact h.disjoint id (hk.streams id hn)

theorem Ring.quiet {s s' : Session} {t : List Event} (h : Ring limits ⟨s, t⟩)
    (hk : Keeps s s') : Ring limits ⟨s', t⟩ := by
  have hnil := h.keeps hk (show closings [] = [] from rfl)
  rwa [List.append_nil] at hnil

theorem Sound.keeps {s s' : Session} {t es : List Event} (h : Sound limits carrier ⟨s, t⟩)
    (hk : Keeps s s') (hes : closings es = []) : Sound limits carrier ⟨s', t ++ es⟩ where
  toRing := h.toRing.keeps hk hes
  carrier_eq := hk.carrier.trans h.carrier_eq
  lanes hu id hn := by
    have hu' : s.usesCarrierLanes = true := by
      rw [← hu]; simp [Session.usesCarrierLanes, hk.carrier]
    exact hk.lanes id hn (h.lanes hu' id (hk.streams id hn))
  ended hc id := by
    rcases hk.closed hc with hc | hc
    · exact by_contra fun hn => hk.streams id hn (h.ended hc id)
    · exact hc id
  known id hn := by
    obtain ⟨h0, hmax, b, hb⟩ := h.known id (hk.streams id hn)
    exact ⟨h0, hmax, b, List.mem_append_left _ hb⟩

theorem Sound.quiet {s s' : Session} {t : List Event} (h : Sound limits carrier ⟨s, t⟩)
    (hk : Keeps s s') : Sound limits carrier ⟨s', t⟩ := by
  have hnil := h.keeps hk (show closings [] = [] from rfl)
  rwa [List.append_nil] at hnil

/-- In a full ring the entry that makes room is a tombstone. -/
theorem Ring.oldest_mem {s : Session} {t : List Event} (h : Ring limits ⟨s, t⟩)
    (hfull : ¬ s.closedOrder.length < s.limits.maxClosedStreamIDs) :
    s.closedStart < s.closedOrder.length ∧
      s.closedOrder.getD s.closedStart 0 ∈ s.closedOrder := by
  have hpos := s.limits.maxClosedStreamIDs_pos
  have hlt : s.closedStart < s.closedOrder.length :=
    h.ring.within (by intro he; rw [he] at hfull; exact hfull (by simpa using hpos))
  refine ⟨hlt, ?_⟩
  rw [List.getD_eq_getElem _ _ hlt]
  exact List.getElem_mem hlt

theorem Ring.rememberRoom {s : Session} {t : List Event} {id : ℕ}
    (h : Ring limits ⟨s, t⟩) (hlive : s.streams.get id = none) (hclosed : id ∉ s.closedStreams)
    (hroom : s.closedOrder.length < s.limits.maxClosedStreamIDs) :
    Ring limits ⟨{ s with
      closedStreams := insert id s.closedStreams
      closedOrder := s.closedOrder ++ [id] }, t ++ [.remembered id]⟩ where
  limits_eq := h.limits_eq
  ring := by
    have hl := h.limits_eq
    dsimp only at hl
    subst hl
    simpa [closings] using h.ring.push_room hroom id
  tombstones := by
    have := h.tombstones
    dsimp only at this ⊢
    rw [this]
    ext i
    simp
  distinct := by
    have ht := h.tombstones
    dsimp only at ht
    rw [ht, List.mem_toFinset] at hclosed
    exact List.nodup_append.mpr ⟨h.distinct, List.nodup_singleton id, by
      rintro a ha b hb rfl
      exact hclosed (List.mem_singleton.mp hb ▸ ha)⟩
  disjoint i hn hi := by
    rcases Finset.mem_insert.mp hi with rfl | hi
    · exact hn hlive
    · exact h.disjoint i hn hi

theorem Ring.openStream {s : Session} {t : List Event} {id : ℕ} (h : Ring limits ⟨s, t⟩)
    (hclosed : id ∉ s.closedStreams) (next backend : ℕ) :
    Ring limits ⟨{ s.putStream id (newStream backend) with nextObject := next },
      t ++ [.opened id backend]⟩ where
  limits_eq := h.limits_eq
  ring := by simpa [closings, Session.putStream] using h.ring
  tombstones := h.tombstones
  distinct := h.distinct
  disjoint i hn := by
    have hn' : (s.streams.put id (newStream backend)).get i ≠ none := hn
    rw [Table.get_put] at hn'
    split_ifs at hn' with hi
    · subst hi; exact hclosed
    · exact h.disjoint i hn'

/-- The tombstone that is evicted belongs to no live stream. -/
theorem Ring.oldest_not_live {s : Session} {t : List Event} (h : Ring limits ⟨s, t⟩)
    (hfull : ¬ s.closedOrder.length < s.limits.maxClosedStreamIDs) :
    s.streams.get (s.closedOrder.getD s.closedStart 0) = none := by
  by_contra hn
  refine h.disjoint _ hn ?_
  have ht := h.tombstones
  dsimp only at ht ⊢
  rw [ht, List.mem_toFinset]
  exact (h.oldest_mem hfull).2

theorem Ring.rememberFull {s : Session} {t : List Event} {id : ℕ}
    (h : Ring limits ⟨s, t⟩) (hlive : s.streams.get id = none) (hclosed : id ∉ s.closedStreams)
    (hfull : ¬ s.closedOrder.length < s.limits.maxClosedStreamIDs)
    (lanes released : Table ℕ CarrierLane) :
    Ring limits ⟨{ s with
      closedStreams := (insert id s.closedStreams).erase (s.closedOrder.getD s.closedStart 0)
      closedOrder := s.closedOrder.set s.closedStart id
      closedStart := (s.closedStart + 1) % (s.closedOrder.set s.closedStart id).length
      carrierLanes := lanes
      releasedLanes := released },
      t ++ [.remembered id] ++ [.evicted (s.closedOrder.getD s.closedStart 0)]⟩ := by
  obtain ⟨hlt, hmem⟩ := h.oldest_mem hfull
  have ht := h.tombstones
  have hd := h.distinct
  have hl := h.limits_eq
  dsimp only at ht hd hl
  have hold : s.closedOrder.getD s.closedStart 0 = s.closedOrder[s.closedStart] :=
    List.getD_eq_getElem _ _ hlt
  have hidmem : id ∉ s.closedOrder := by rwa [ht, List.mem_toFinset] at hclosed
  -- the order before and after the write, up to the position of the entry written
  have hbefore := List.getElem_cons_eraseIdx_perm hlt
  have hafter := List.set_perm_cons_eraseIdx hlt id
  have hrest := List.nodup_cons.mp (hbefore.nodup_iff.mpr hd)
  have hidrest : id ∉ s.closedOrder.eraseIdx s.closedStart :=
    fun hi => hidmem (List.mem_of_mem_eraseIdx hi)
  refine ⟨hl, ?_, ?_, ?_, ?_⟩
  · subst hl
    have hpush := (h.ring.push_full s.limits.maxClosedStreamIDs_pos hfull id 0).1
    simpa [closings] using hpush
  · dsimp only
    ext i
    rw [Finset.mem_erase, Finset.mem_insert, ht, List.mem_toFinset, List.mem_toFinset, hold,
      hafter.mem_iff, ← hbefore.mem_iff, List.mem_cons, List.mem_cons]
    constructor
    · rintro ⟨hne, rfl | rfl | hi⟩
      · exact .inl rfl
      · exact absurd rfl hne
      · exact .inr hi
    · rintro (rfl | hi)
      · exact ⟨fun he => hidmem (he ▸ List.getElem_mem hlt), .inl rfl⟩
      · exact ⟨fun he => hrest.1 (he ▸ hi), .inr (.inr hi)⟩
  · exact hafter.nodup_iff.mpr (List.nodup_cons.mpr ⟨hidrest, hrest.2⟩)
  · intro i hn hi
    rcases Finset.mem_insert.mp (Finset.mem_of_mem_erase hi) with rfl | hi
    · exact hn hlive
    · exact h.disjoint i hn hi

theorem Change.sound {scope : Scope} {σ σ' : Traced} (h : Change scope σ σ')
    (hs : Sound limits carrier σ) : Sound limits carrier σ' := by
  cases h with
  | pending cost items notify => exact hs.quiet (Keeps.setPending _ _ _ _)
  | silent he _ => exact hs.keeps (Keeps.refl _) (Event.silent_closings he)
  | attachSocket => exact hs.quiet ⟨rfl, rfl, rfl, rfl, rfl, .inl, fun _ h => h, fun _ _ h => h⟩
  | @openStream s t id hopen hlane hlive hclosed _ hrange _ =>
      refine ⟨hs.toRing.openStream hclosed _ _, hs.carrier_eq, fun hu i hn => ?_,
        fun hc => absurd (show s.closed = true from hc) (by simp [hopen]), fun i hn => ?_⟩
      all_goals
        have hn' : (s.streams.put id (newStream s.nextObject)).get i ≠ none := hn
        rw [Table.get_put] at hn'
        split_ifs at hn' with hi
      · subst hi; exact hlane hu
      · exact hs.lanes hu i hn'
      · subst hi; exact ⟨hrange.1, hrange.2, s.nextObject, by simp⟩
      · obtain ⟨h0, hmax, b, hb⟩ := hs.known i hn'
        exact ⟨h0, hmax, b, List.mem_append_left _ hb⟩
  | stream hopen hst h _ => exact hs.keeps (Keeps.putStream _ hst) h.closings
  | drained hopen hst _ _ _ _ h _ =>
      obtain ⟨hk, hes⟩ := Keeps.queueResult h
      exact hs.keeps ((Keeps.putStream _ hst).trans hk) hes
  | read hopen hst _ _ h _ =>
      obtain ⟨hk, hes⟩ := Keeps.queueResult h
      exact hs.keeps ((Keeps.putStream _ hst).trans hk) hes
  | queueClose _ _ _ h _ _ _ =>
      obtain ⟨hk, hes⟩ := Keeps.queueResult h
      exact hs.keeps hk hes
  | endStream => exact hs.quiet (Keeps.delStream _ _)
  | rememberRoom hopen _ hlive hclosed hroom =>
      refine ⟨hs.toRing.rememberRoom hlive hclosed hroom, hs.carrier_eq, hs.lanes,
        fun hc => absurd hc (by simp [hopen]), fun i hn => ?_⟩
      obtain ⟨h0, hmax, b, hb⟩ := hs.known i hn
      exact ⟨h0, hmax, b, List.mem_append_left _ hb⟩
  | @rememberFull s t id old hopen _ hlive hclosed hfull hold =>
      subst hold
      refine ⟨hs.toRing.rememberFull hlive hclosed hfull _ _, hs.carrier_eq, fun hu i hn => ?_,
        fun hc => absurd hc (by simp [hopen]), fun i hn => ?_⟩
      · have hnone := hs.toRing.oldest_not_live hfull
        rw [Table.get_del, if_neg (by rintro rfl; exact hn hnone)]
        exact hs.lanes hu i hn
      · obtain ⟨h0, hmax, b, hb⟩ := hs.known i hn
        exact ⟨h0, hmax, b, by simp [hb]⟩
  | @createLane s t id hopen hnone _ _ =>
      refine hs.quiet ((Keeps.putLane s id { object := s.nextObject }).trans ?_)
      exact ⟨rfl, rfl, rfl, rfl, rfl, .inl, fun _ h => h, fun _ _ h => h⟩
  | touchLane => exact hs.quiet (Keeps.putLane _ _ _)
  | dropLane _ hlive => exact hs.quiet (Keeps.delLane _ hlive)
  | closeChannel => exact hs.quiet ⟨rfl, rfl, rfl, rfl, rfl, .inl, fun _ h => h, fun _ _ h => h⟩
  | newObject => exact hs.quiet ⟨rfl, rfl, rfl, rfl, rfl, .inl, fun _ h => h, fun _ _ h => h⟩
  | attend => exact hs.quiet (Keeps.setQueue _ _ _)
  | acknowledge => exact hs.quiet (Keeps.setQueue _ _ _)
  | deliver => exact hs.keeps (Keeps.setQueue _ _ _) rfl
  | close =>
      exact hs.quiet ⟨rfl, rfl, rfl, rfl, rfl, fun _ => .inr fun _ => rfl,
        fun _ hn => absurd rfl hn, fun _ hn => absurd rfl hn⟩
  | batch => exact hs.keeps (Keeps.refl _) rfl
  | uplink => exact hs.quiet ⟨rfl, rfl, rfl, rfl, rfl, .inl, fun _ h => h, fun _ _ h => h⟩
  | laneUplink => exact hs.quiet (Keeps.modifyLane _ _ _ _)

theorem Changes.sound {scope : Scope} {σ σ' : Traced} (h : Changes scope σ σ')
    (hs : Sound limits carrier σ) : Sound limits carrier σ' :=
  h.invariant (fun hc => hc.sound) hs

/-- A new session has nothing yet. -/
theorem newSession_sound (limits : Limits) (carrier : CarrierMode) :
    Sound limits carrier ⟨newSession limits carrier, []⟩ := by
  unfold newSession
  split_ifs
  all_goals
    exact ⟨⟨rfl, RecentRing.Holds.nil _, rfl, List.nodup_nil, fun _ h => absurd rfl h⟩, rfl,
      fun _ _ h => absurd rfl h, fun _ _ => rfl, fun _ h => absurd rfl h⟩

end TproxyServer
