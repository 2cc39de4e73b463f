import TproxyServer.Downlinks

/-! # Where a downlink stands

A poll and its replies turn on four fields of a downlink: the cursor, the unacknowledged
batch with the cursor it was taken at, and the poll that is parked.  Nothing but a poll moves
them on a lane that stays (`Changes.undisturbed`); what a poll makes of them is
`pollOn_result` and `pollLoop_result`. -/

namespace TproxyServer

open Interaction Prog

variable {limits : Limits} {carrier : CarrierMode} {s s' : Session} {t : List Event}
  {scope : Scope}

/-- The fields that polls go by. -/
structure Place where
  downCursor : ℕ
  unackedBase : ℕ
  unacked : Bytes
  superseded : Option ℕ

def Downlink.place (d : Downlink) : Place :=
  ⟨d.downCursor, d.unackedBase, d.unacked, d.superseded⟩

/-- The place of a new downlink. -/
def Place.new : Place := ⟨0, 0, [], none⟩

/-! ### Changes that are no polls -/

theorem Enqueue.place {d d' : Downlink} {ty : FrameType} {id : ℕ} {payload : Bytes}
    (h : Enqueue limits d ty id payload d') : d'.place = d.place := by
  cases h <;> rfl

/-- Lane `id` of `s'` is that of `s` with its place, or is new. -/
structure SameLane (id : ℕ) (s s' : Session) : Prop where
  here : ∀ l', s'.carrierLanes.get id = some l' →
    (∃ l, s.carrierLanes.get id = some l ∧ l'.object = l.object ∧ l'.down.place = l.down.place) ∨
      s.carrierLanes.get id = none ∧ l'.down.place = .new
  kept : s.carrierLanes.get id ≠ none → s'.carrierLanes.get id ≠ none

namespace SameLane

variable {id : ℕ}

theorem refl (s : Session) : SameLane id s s :=
  ⟨fun l h => .inl ⟨l, h, rfl, rfl⟩, fun h => h⟩

theorem trans {s'' : Session} (h : SameLane id s s') (h' : SameLane id s' s'') :
    SameLane id s s'' where
  here l'' hl'' := by
    rcases h'.here l'' hl'' with ⟨l', hl', ho', hp'⟩ | ⟨hnone, hp'⟩
    · rcases h.here l' hl' with ⟨l, hl, ho, hp⟩ | ⟨hnone, hp⟩
      · exact .inl ⟨l, hl, ho'.trans ho, hp'.trans hp⟩
      · exact .inr ⟨hnone, hp'.trans hp⟩
    · refine .inr ⟨?_, hp'⟩
      by_contra hn
      exact h.kept hn hnone
  kept hn := h'.kept (h.kept hn)

theorem of_eq (h : s'.carrierLanes.get id = s.carrierLanes.get id) : SameLane id s s' := by
  refine ⟨fun l' hl' => .inl ⟨l', h ▸ hl', rfl, rfl⟩, fun hn => ?_⟩
  rwa [h]

/-- A lane is written, its object and its place staying. -/
theorem of_map {f : CarrierLane → CarrierLane}
    (h : s'.carrierLanes.get id = (s.carrierLanes.get id).map f)
    (hobject : ∀ l, s.carrierLanes.get id = some l → (f l).object = l.object)
    (hplace : ∀ l, s.carrierLanes.get id = some l → (f l).down.place = l.down.place) :
    SameLane id s s' := by
  refine ⟨fun l' hl' => ?_, fun hn => ?_⟩
  · rw [h] at hl'
    obtain ⟨l, hl, rfl⟩ := Option.map_eq_some_iff.mp hl'
    exact .inl ⟨l, hl, hobject l hl, hplace l hl⟩
  · rw [h]
    simpa using hn

theorem setQueue {q : QueueRef} {d : Downlink} (h : d.place = (s.queue q).place) :
    SameLane id s (s.setQueue q d) := by
  refine of_map (s.setQueue_lanes id q d) (fun l _ => ?_) fun l hl => ?_
  · split_ifs <;> rfl
  · split_ifs with hq
    · subst hq
      rw [h, Session.queue_of_get hl]
    · rfl

theorem putStream (s : Session) (i : ℕ) (st : StreamState) : SameLane id s (s.putStream i st) :=
  of_eq rfl

theorem queueResult {ty : FrameType} {i : ℕ} {payload : Bytes} {es : List Event} {ok : Bool}
    (h : QueueResult s ty i payload es s' ok) : SameLane id s s' := by
  cases h with
  | refused => exact refl s
  | @accepted q d cost items notify _ h =>
      have hpending : SameLane id s (s.setPending cost items notify) := of_eq rfl
      refine hpending.trans (setQueue ?_)
      rw [h.place]
      cases q <;> rfl

end SameLane

theorem Change.closed_mono {σ σ' : Traced} (h : Change scope σ σ')
    (hc : σ.session.closed = true) : σ'.session.closed = true := by
  have hset : ∀ (s : Session) q d, (s.setQueue q d).closed = s.closed := by
    intro s q d
    obtain ⟨down, lanes, released, he⟩ := s.setQueue_eq q d
    rw [he]
  have hmodify : ∀ (s : Session) id object f, (s.modifyLane id object f).closed = s.closed := by
    intro s id object f
    obtain ⟨lanes, released, he⟩ := s.modifyLane_eq id object f
    rw [he]
  cases h with
  | openStream hopen => exact hc
  | drained hopen => simp [hopen] at hc
  | read hopen => simp [hopen] at hc
  | queueClose hopen => simp [hopen] at hc
  | attend => rw [hset]; exact hc
  | acknowledge => rw [hset]; exact hc
  | deliver => rw [hset]; exact hc
  | laneUplink => rw [hmodify]; exact hc
  | close => rfl
  | _ => exact hc

theorem Change.nextObject_mono {σ σ' : Traced} (h : Change scope σ σ') :
    σ.session.nextObject ≤ σ'.session.nextObject := by
  have hset : ∀ (s : Session) q d, (s.setQueue q d).nextObject = s.nextObject := by
    intro s q d
    obtain ⟨down, lanes, released, he⟩ := s.setQueue_eq q d
    rw [he]
  have hmodify : ∀ (s : Session) id object f,
      (s.modifyLane id object f).nextObject = s.nextObject := by
    intro s id object f
    obtain ⟨lanes, released, he⟩ := s.modifyLane_eq id object f
    rw [he]
  have hqueue : ∀ {s s' : Session} {ty : FrameType} {i : ℕ} {payload : Bytes}
      {es : List Event} {ok : Bool}, QueueResult s ty i payload es s' ok →
      s'.nextObject = s.nextObject := by
    intro s s' ty i payload es ok h
    cases h with
    | refused => rfl
    | accepted => exact hset _ _ _
  cases h with
  | openStream => exact Nat.le_succ _
  | createLane => exact Nat.le_succ _
  | newObject => exact Nat.le_succ _
  | drained _ _ _ _ _ _ h _ => rw [hqueue h]; rfl
  | read _ _ _ _ h _ => rw [hqueue h]; rfl
  | queueClose _ _ _ h _ _ _ => rw [hqueue h]
  | attend => rw [hset]
  | acknowledge => rw [hset]
  | deliver => rw [hset]
  | laneUplink => rw [hmodify]
  | _ => exact Nat.le_refl _

/-- Lane `id` of an open `https-lanes` session has been evicted by now, or it is there
undisturbed. -/
def Undisturbed (id : ℕ) (σ σ' : Traced) : Prop :=
  σ'.session.closed = false → .evicted id ∈ σ'.trace ∨ SameLane id σ.session σ'.session

theorem Change.undisturbed {σ σ' : Traced} (h : Change scope σ σ') (hpolls : scope.polls = false)
    (hcarrier : σ.session.carrier = .httpsLanes) (id : ℕ) : Undisturbed id σ σ' := by
  intro hopen
  cases h with
  | drained _ _ _ _ _ _ h _ =>
      exact .inr ((SameLane.putStream _ _ _).trans (.queueResult h))
  | read _ _ _ _ h _ => exact .inr ((SameLane.putStream _ _ _).trans (.queueResult h))
  | queueClose _ _ _ h _ _ _ => exact .inr (.queueResult h)
  | @rememberFull s t i old _ _ _ _ _ hold =>
      by_cases hi : id = old
      · subst hi
        exact .inl (by simp)
      · exact .inr (.of_eq (Table.get_del_ne _ hi))
  | @createLane s t i _ hnone _ _ =>
      by_cases hi : id = i
      · subst hi
        refine .inr ⟨fun l' hl' => .inr ⟨hnone, ?_⟩, fun hn => absurd hnone hn⟩
        have hput : (s.createLane id).1.carrierLanes.get id =
            some { object := s.nextObject } := Table.get_put_self _ _ _
        rw [hput] at hl'
        cases hl'
        rfl
      · exact .inr (.of_eq (Table.get_put_ne _ _ hi))
  | @touchLane s t i l l' hl hobject hdown _ _ _ =>
      by_cases hi : id = i
      · subst hi
        refine .inr (.of_map (f := fun _ => l') ?_ ?_ ?_)
        · rw [hl]
          exact Table.get_put_self _ _ _
        · intro l₁ hl₁
          rw [hl] at hl₁
          cases hl₁
          exact hobject
        · intro l₁ hl₁
          rw [hl] at hl₁
          cases hl₁
          rw [hdown]
      · exact .inr (.of_eq (Table.get_put_ne _ _ hi))
  | dropLane _ _ hcar _ =>
      rw [hcarrier] at hcar
      cases hcar
  | attend hq active superseded notify _ hscope =>
      rcases hscope with h | ⟨rfl, rfl, -⟩
      · rw [hpolls] at h
        cases h
      · exact .inr (.setQueue rfl)
  | acknowledge _ _ h => rw [hpolls] at h; cases h
  | deliver _ _ _ h => rw [hpolls] at h; cases h
  | close => simp at hopen
  | @laneUplink s t _ i object f hobject hdown _ =>
      refine .inr (.of_map (s.modifyLane_lanes i object id f) ?_ ?_)
      · intro l _
        split_ifs
        · exact hobject l
        · rfl
      · intro l _
        split_ifs
        · rw [hdown]
        · rfl
  | _ => exact .inr (.of_eq rfl)

theorem Changes.undisturbed {σ σ' : Traced} (h : Changes scope σ σ')
    (hpolls : scope.polls = false) (hs : Sound limits .httpsLanes σ) (id : ℕ) :
    Undisturbed id σ σ' := by
  induction h with
  | refl => exact fun _ => .inr (.refl _)
  | @tail σ₁ σ₂ hfirst hlast ih =>
      intro hopen
      have hopen₁ : σ₁.session.closed = false := by
        by_contra hc
        rw [Bool.not_eq_false] at hc
        rw [hlast.closed_mono hc] at hopen
        cases hopen
      rcases ih hopen₁ with he | h₁
      · exact .inl (hlast.trace_mono he)
      · rcases hlast.undisturbed hpolls (Changes.sound hfirst hs).carrier_eq id hopen with he | h₂
        · exact .inl he
        · exact .inr (h₁.trans h₂)

theorem Changes.nextObject_mono {σ σ' : Traced} (h : Changes scope σ σ') :
    σ.session.nextObject ≤ σ'.session.nextObject := by
  induction h with
  | refl => exact Nat.le_refl _
  | tail _ hlast ih => exact ih.trans hlast.nextObject_mono

theorem Changes.closed_mono {σ σ' : Traced} (h : Changes scope σ σ')
    (hc : σ.session.closed = true) : σ'.session.closed = true := by
  induction h with
  | refl => exact hc
  | tail _ hlast ih => exact hlast.closed_mono ih

/-! ### The lane of an applied OPEN -/

/-- The lanes have the ids of streams. -/
theorem Change.ranged {σ σ' : Traced} (h : Change scope σ σ')
    (hs : ∀ id, σ.session.carrierLanes.get id ≠ none → id ≤ maxStreamID) {id : ℕ}
    (hl : σ'.session.carrierLanes.get id ≠ none) : id ≤ maxStreamID := by
  have hset : ∀ (s : Session) q d, (s.setQueue q d).carrierLanes.get id ≠ none →
      s.carrierLanes.get id ≠ none := by
    intro s q d hn
    rw [s.setQueue_lanes] at hn
    simpa using hn
  have hqueue : ∀ {s s' : Session} {ty : FrameType} {i : ℕ} {payload : Bytes}
      {es : List Event} {ok : Bool}, QueueResult s ty i payload es s' ok →
      s'.carrierLanes.get id ≠ none → s.carrierLanes.get id ≠ none := by
    intro s s' ty i payload es ok h hn
    cases h with
    | refused => exact hn
    | accepted =>
        have hpending := hset _ _ _ hn
        exact hpending
  have hdel : ∀ (s : Session) i, (s.carrierLanes.del i).get id ≠ none →
      s.carrierLanes.get id ≠ none := by
    intro s i hn
    rw [Table.get_del] at hn
    split_ifs at hn
    · exact absurd rfl hn
    · exact hn
  cases h with
  | drained _ _ _ _ _ _ h _ =>
      have hold := hqueue h hl
      exact hs id hold
  | read _ _ _ _ h _ =>
      have hold := hqueue h hl
      exact hs id hold
  | queueClose _ _ _ h _ _ _ => exact hs id (hqueue h hl)
  | rememberFull => exact hs id (hdel _ _ hl)
  | @createLane s t i _ _ hrange _ =>
      by_cases hi : id = i
      · exact hi ▸ hrange
      · refine hs id fun hn => hl ?_
        exact (Table.get_put_ne _ _ hi).trans hn
  | @touchLane s t i l l' hsome _ _ _ _ _ =>
      by_cases hi : id = i
      · exact hs id (by rw [hi, hsome]; simp)
      · refine hs id fun hn => hl ?_
        exact (Table.get_put_ne _ _ hi).trans hn
  | dropLane => exact hs id (hdel _ _ hl)
  | attend => exact hs id (hset _ _ _ hl)
  | acknowledge => exact hs id (hset _ _ _ hl)
  | deliver => exact hs id (hset _ _ _ hl)
  | close => exact hs id (by simpa [Table.get_mapValues] using hl)
  | @laneUplink s t _ i object f _ _ _ =>
      rw [s.modifyLane_lanes] at hl
      exact hs id (by simpa using hl)
  | _ => exact hs id hl

theorem Reachable.ranged {sha256 : Bytes → Bytes} {σ : Traced}
    (h : Reachable sha256 limits carrier σ) :
    ∀ id, σ.session.carrierLanes.get id ≠ none → id ≤ maxStreamID := by
  refine h.invariant (I := fun τ => ∀ id, τ.session.carrierLanes.get id ≠ none →
    id ≤ maxStreamID) ?_ fun hc _ hs id hl => hc.ranged hs hl
  intro id hl
  unfold newSession at hl
  split_ifs at hl with hmode
  · by_cases hid : id = 0
    · rw [hid]
      exact Nat.zero_le _
    · exact absurd (Table.get_put_ne _ _ hid) hl
  · exact absurd rfl hl

/-- The ids of the OPENs that were applied: admitted, or answered with a tombstone. -/
def openings (t : List Event) : List ℕ :=
  t.filterMap fun e => match e with
    | .opened id _ | .remembered id => some id
    | _ => none

@[simp] theorem openings_append (t es : List Event) :
    openings (t ++ es) = openings t ++ openings es :=
  List.filterMap_append ..

/-- Only its eviction takes a lane away. -/
theorem Change.kept {σ σ' : Traced} (h : Change scope σ σ')
    (hcarrier : σ.session.carrier = .httpsLanes) {id : ℕ}
    (hl : σ.session.carrierLanes.get id ≠ none) :
    σ'.session.carrierLanes.get id ≠ none ∨ .evicted id ∈ σ'.trace := by
  have hset : ∀ (s : Session) q d, s.carrierLanes.get id ≠ none →
      (s.setQueue q d).carrierLanes.get id ≠ none := by
    intro s q d hn
    rw [s.setQueue_lanes]
    simpa using hn
  have hput : ∀ (s : Session) i l, s.carrierLanes.get id ≠ none →
      (s.putLane i l).carrierLanes.get id ≠ none := by
    intro s i l hn
    rw [Session.putLane_lanes, Table.get_put]
    split_ifs
    · simp
    · exact hn
  cases h with
  | drained _ _ _ _ _ _ h _ => exact .inl ((SameLane.queueResult h).kept hl)
  | read _ _ _ _ h _ => exact .inl ((SameLane.queueResult h).kept hl)
  | queueClose _ _ _ h _ _ _ => exact .inl ((SameLane.queueResult h).kept hl)
  | @rememberFull s t i old _ _ _ _ _ hold =>
      by_cases hi : id = old
      · subst hi
        exact .inr (by simp)
      · exact .inl (by rwa [Table.get_del_ne _ hi])
  | createLane => exact .inl (hput _ _ _ hl)
  | touchLane => exact .inl (hput _ _ _ hl)
  | dropLane _ _ hcar _ =>
      rw [hcarrier] at hcar
      cases hcar
  | attend => exact .inl (hset _ _ _ hl)
  | acknowledge => exact .inl (hset _ _ _ hl)
  | deliver => exact .inl (hset _ _ _ hl)
  | close => exact .inl (by simpa [Table.get_mapValues] using hl)
  | @laneUplink s t _ i object f _ _ _ =>
      refine .inl ?_
      rw [s.modifyLane_lanes]
      simpa using hl
  | _ => exact .inl hl

theorem QueueResult.openings {ty : FrameType} {id : ℕ} {payload : Bytes} {es : List Event}
    {ok : Bool} (h : QueueResult s ty id payload es s' ok) : openings es = [] := by
  cases h <;> rfl

theorem StreamStep.openings {id : ℕ} {st st' : StreamState} {es : List Event}
    (h : StreamStep id st es st') : openings es = [] := by
  cases h <;> rfl

/-- An OPEN is applied where its lane is. -/
theorem Change.openings {σ σ' : Traced} (h : Change scope σ σ') {id : ℕ}
    (ho : id ∈ openings σ'.trace) : id ∈ openings σ.trace ∨ σ.session.HasLane id := by
  have hone : ∀ {t : List Event} {e : Event} {i : ℕ},
      TproxyServer.openings [e] = [i] →
      id ∈ TproxyServer.openings (t ++ [e]) → σ.session.HasLane i →
      id ∈ TproxyServer.openings t ∨ σ.session.HasLane id := by
    intro t e i he hm hl
    rw [openings_append, he, List.mem_append, List.mem_singleton] at hm
    rcases hm with hm | rfl
    · exact .inl hm
    · exact .inr hl
  have hnone : ∀ {t es : List Event}, TproxyServer.openings es = [] →
      id ∈ TproxyServer.openings (t ++ es) →
      id ∈ TproxyServer.openings t ∨ σ.session.HasLane id := by
    intro t es he hm
    rw [openings_append, he, List.append_nil] at hm
    exact .inl hm
  cases h with
  | @silent s t e he _ =>
      refine hnone ?_ ho
      cases e <;> first | rfl | cases he
  | openStream _ hlane => exact hone rfl ho hlane
  | stream _ _ h _ => exact hnone h.openings ho
  | drained _ _ _ _ _ _ h _ => exact hnone h.openings ho
  | read _ _ _ _ h _ => exact hnone h.openings ho
  | queueClose _ _ _ h _ _ _ => exact hnone h.openings ho
  | rememberRoom _ hlane => exact hone rfl ho hlane
  | @rememberFull s t i old _ hlane =>
      have hevicted : TproxyServer.openings [.evicted old] = [] := rfl
      rw [openings_append, hevicted, List.append_nil] at ho
      exact hone (e := .remembered i) rfl ho hlane
  | deliver => exact hnone rfl ho
  | batch => exact hnone rfl ho
  | _ => exact .inl ho

/-- **An applied OPEN has its lane until that is evicted**, in every reachable state of an
`https-lanes` session. -/
theorem Reachable.laned {sha256 : Bytes → Bytes} {σ : Traced}
    (h : Reachable sha256 limits .httpsLanes σ) {id : ℕ} (ho : id ∈ openings σ.trace) :
    σ.session.carrierLanes.get id ≠ none ∨ .evicted id ∈ σ.trace := by
  refine h.invariant (I := fun τ => id ∈ TproxyServer.openings τ.trace →
    τ.session.carrierLanes.get id ≠ none ∨ .evicted id ∈ τ.trace) (fun h => ?_) ?_ ho
  · cases h
  · intro scope σ₁ σ₂ hc hs ih ho₂
    have hlane : σ₁.session.carrierLanes.get id ≠ none ∨ .evicted id ∈ σ₁.trace := by
      rcases hc.openings ho₂ with hold | hlane
      · exact ih hold
      · refine .inl (hlane ?_)
        rw [hs.usesCarrierLanes]
        rfl
    rcases hlane with hn | he
    · exact hc.kept hs.carrier_eq hn
    · exact .inr (hc.trace_mono he)

/-! ### Polls -/

/-- How the loop of a poll that is not superseded leaves its queue and its caller. -/
inductive PollEnd (limits : Limits) (d : Downlink) (cursor mine : ℕ) :
    Downlink → PollReply → Prop
  | batch (h : d.pendingFrames ≠ []) :
      PollEnd limits d cursor mine ((d.takeBatch limits).2.deliver (d.takeBatch limits).1 cursor)
        (.batch (d.takeBatch limits).1.body (d.downCursor + 1))
  | closed : PollEnd limits d cursor mine d.leave .closed
  | laneClosed : PollEnd limits d cursor mine d.leave (.laneClosed cursor)
  | parked : PollEnd limits d cursor mine d (.parked mine)

theorem pollLoop_end {q : QueueRef} {cursor mine : ℕ}
    (hmine : (s.queue q).superseded = some mine) :
    wp observer (pollLoop s q cursor mine) (fun _ r => ∃ d',
      (r.1 = s.setQueue q d' ∨ r.1 = s ∧ d' = s.queue q) ∧
      PollEnd s.limits (s.queue q) cursor mine d' r.2 ∧
      (r.2 = .closed → s.closed = true)) t := by
  unfold pollLoop
  dsimp only
  rw [if_neg (by simp [hmine])]
  split_ifs with hframes hclosed
  · exact ⟨_, .inl rfl, .batch hframes, by simp⟩
  · exact ⟨_, .inl rfl, .closed, fun _ => hclosed⟩
  · exact ⟨_, .inl rfl, .laneClosed, by simp⟩
  · exact ⟨_, .inr ⟨rfl, rfl⟩, .parked, by simp⟩

/-- The downlink of the lane `l`, stored under `id`, is now `d`; no other lane has changed. -/
structure LaneNow (id : ℕ) (l : CarrierLane) (d : Downlink) (s s' : Session) : Prop where
  here : s'.carrierLanes.get id = some { l with down := d }
  others : ∀ i, i ≠ id → s'.carrierLanes.get i = s.carrierLanes.get i
  closed : s'.closed = s.closed
  limits : s'.limits = s.limits

theorem LaneNow.refl {id : ℕ} {l : CarrierLane} (hl : s.carrierLanes.get id = some l) :
    LaneNow id l l.down s s :=
  ⟨hl, fun _ _ => rfl, rfl, rfl⟩

/-- Fields outside the lanes may change, and the downlink be written again. -/
theorem LaneNow.setQueue {id : ℕ} {l : CarrierLane} {d d' : Downlink} {s₁ : Session}
    (h : LaneNow id l d s s₁) (hlanes : s'.carrierLanes = s₁.carrierLanes)
    (hclosed : s'.closed = s₁.closed) (hlimits : s'.limits = s₁.limits) :
    LaneNow id l d' s (s'.setQueue (.lane id l.object) d') := by
  have hl : s'.carrierLanes.get id = some { l with down := d } := by rw [hlanes, h.here]
  have hput : s'.setQueue (.lane id l.object) d' = s'.putLane id { l with down := d' } :=
    Session.setQueue_of_get hl d'
  rw [hput]
  refine ⟨Table.get_put_self _ _ _, fun i hi => ?_, hclosed.trans h.closed,
    hlimits.trans h.limits⟩
  rw [Session.putLane_lanes, Table.get_put_ne _ _ hi, hlanes, h.others i hi]

theorem LaneNow.queue {id : ℕ} {l : CarrierLane} {d : Downlink} (h : LaneNow id l d s s') :
    s'.queue (.lane id l.object) = d :=
  Session.queue_of_get h.here

/-- Lane `id`, that was `l`, is left by the loop of a poll at `cursor` that has just arrived. -/
def Arrived (id : ℕ) (l : CarrierLane) (cursor : ℕ) (s s' : Session) (r : PollReply) : Prop :=
  ∃ d₁ d', d₁.place = ⟨cursor, l.down.unackedBase, [], some s.nextObject⟩ ∧
    d₁.pendingFrames = l.down.pendingFrames ∧ LaneNow id l d' s s' ∧
    PollEnd s.limits d₁ cursor s.nextObject d' r ∧
    s'.nextObject = s.nextObject + 1 ∧ (r = .closed → s.closed = true)

theorem takeOver_pollLoop_arrived {id cursor : ℕ} {l : CarrierLane} {d : Downlink} {s₀ : Session}
    (h : LaneNow id l d s₀ s) (hnext : s.nextObject = s₀.nextObject)
    (hplace : d.downCursor = cursor ∧ d.unackedBase = l.down.unackedBase ∧ d.unacked = [])
    (hframes : d.pendingFrames = l.down.pendingFrames) :
    wp observer (takeOver s (.lane id l.object) >>= fun p =>
        pollLoop p.1 (.lane id l.object) cursor p.2)
      (fun _ r => Arrived id l cursor s₀ r.1 r.2) t := by
  obtain ⟨rfl, hbase, hunacked⟩ := hplace
  -- from where the poll has its channel
  have hloop : ∀ (s₁ : Session) (t₁ : List Event), s₁.carrierLanes = s.carrierLanes →
      s₁.closed = s.closed → s₁.limits = s.limits → s₁.nextObject = s.nextObject →
      wp observer (pollLoop ({ s₁ with nextObject := s₁.nextObject + 1 }.setQueue
          (.lane id l.object) { d with superseded := some s₁.nextObject, downActive := true })
          (.lane id l.object) d.downCursor s₁.nextObject)
        (fun _ r => Arrived id l d.downCursor s₀ r.1 r.2) t₁ := by
    intro s₁ t₁ hlanes hclosed hlimits hnext₁
    have h₁ : LaneNow id l { d with superseded := some s₁.nextObject, downActive := true } s₀
        ({ s₁ with nextObject := s₁.nextObject + 1 }.setQueue (.lane id l.object) _) :=
      h.setQueue hlanes hclosed hlimits
    have hnext₂ : ({ s₁ with nextObject := s₁.nextObject + 1 }.setQueue (.lane id l.object)
        { d with superseded := some s₁.nextObject, downActive := true }).nextObject =
          s₀.nextObject + 1 := by
      obtain ⟨down, lanes, released, he⟩ := Session.setQueue_eq
        { s₁ with nextObject := s₁.nextObject + 1 } (.lane id l.object)
        { d with superseded := some s₁.nextObject, downActive := true }
      rw [he, ← hnext, ← hnext₁]
    generalize hs₂ : ({ s₁ with nextObject := s₁.nextObject + 1 }.setQueue (.lane id l.object)
      { d with superseded := some s₁.nextObject, downActive := true }) = s₂ at *
    refine wp_mono (pollLoop_end (by rw [h₁.queue])) ?_
    rintro t₂ r ⟨d', hr, hend, hc⟩
    rw [h₁.queue, h₁.limits, hnext₁, hnext] at hend
    have hleft : LaneNow id l d' s₀ r.1 ∧ r.1.nextObject = s₀.nextObject + 1 := by
      rcases hr with hr | ⟨hr, hd⟩
      · obtain ⟨down, lanes, released, he⟩ := s₂.setQueue_eq (.lane id l.object) d'
        refine ⟨hr ▸ h₁.setQueue rfl rfl rfl, ?_⟩
        rw [hr, he]
        exact hnext₂
      · rw [hr, hd, h₁.queue]
        exact ⟨h₁, hnext₂⟩
    refine ⟨{ d with superseded := some s₀.nextObject, downActive := true }, d', ?_, hframes,
      hleft.1, hend, hleft.2, fun he => ?_⟩
    · simp [Downlink.place, hbase, hunacked]
    · rw [← h₁.closed]
      exact hc he
  unfold takeOver
  rw [h.queue]
  dsimp only
  cases hsup : d.superseded with
  | none => exact hloop s t rfl rfl rfl rfl
  | some channel =>
      dsimp only
      split_ifs
      · exact hloop s t rfl rfl rfl rfl
      · trivial
      · exact hloop _ t rfl rfl rfl rfl

/-- A poll that finds no lane, or no open session. -/
theorem pollLane_idle {id cursor : ℕ} (h : s.closed = false → s.usesCarrierLanes = true →
      id ≤ maxStreamID → s.carrierLanes.get id = none) :
    wp observer (pollLane s id cursor)
      (fun _ r => r.1 = s ∧ (r.2 = .refused ∨ r.2 = .closed)) t := by
  unfold pollLane
  split_ifs with hcall hclosed
  · exact ⟨rfl, .inl rfl⟩
  · exact ⟨rfl, .inr rfl⟩
  · simp only [not_or, not_lt, Bool.not_eq_false] at hcall
    rw [h (by simpa using hclosed) hcall.1 hcall.2]
    exact ⟨rfl, .inl rfl⟩

/-- A poll arrives at an open lane. -/
theorem pollLane_result {id cursor : ℕ} {l : CarrierLane} (hopen : s.closed = false)
    (hlanes : s.usesCarrierLanes = true) (hid : id ≤ maxStreamID)
    (hl : s.carrierLanes.get id = some l) :
    wp observer (pollLane s id cursor) (fun _ r =>
      match l.down.checkCursor cursor with
      | .replay => r = (s, .batch l.down.unacked l.down.downCursor)
      | .mismatch => r = (s, .failing)
      | .acknowledge | .current => Arrived id l cursor s r.1 r.2) t := by
  unfold pollLane
  rw [if_neg (by simp [hlanes, hid]), if_neg (by simp [hopen]), hl]
  dsimp only
  unfold pollOn
  rw [(LaneNow.refl hl).queue]
  dsimp only
  cases hcheck : l.down.checkCursor cursor with
  | replay => exact rfl
  | mismatch => exact rfl
  | acknowledge =>
      refine wp_seq (releasePendingLocked_obs s _ _) ?_
      rintro t₁ s₁ ⟨rfl, cost, items, notify, rfl⟩
      have hack : LaneNow id l l.down.acknowledge s
          ((s.setPending cost items notify).setQueue (.lane id l.object) l.down.acknowledge) :=
        (LaneNow.refl hl).setQueue rfl rfl rfl
      refine takeOver_pollLoop_arrived hack ?_
        ⟨(Downlink.checkCursor_acknowledge hcheck).2.1.symm, rfl, rfl⟩ rfl
      obtain ⟨down, lanes, released, he⟩ :=
        (s.setPending cost items notify).setQueue_eq (.lane id l.object) l.down.acknowledge
      rw [he]
      rfl
  | current =>
      obtain ⟨hunacked, hcursor⟩ := Downlink.checkCursor_current hcheck
      exact takeOver_pollLoop_arrived (.refl hl) rfl ⟨hcursor.symm, rfl, hunacked⟩ rfl

/-- A poll changes no lane but its own, and waits on a channel of its own. -/
theorem pollLane_elsewhere (s : Session) (id cursor : ℕ) :
    wp observer (pollLane s id cursor) (fun _ r =>
      (∀ i, i ≠ id → r.1.carrierLanes.get i = s.carrierLanes.get i) ∧ r.1.closed = s.closed ∧
      ∀ m, r.2 = .parked m → m = s.nextObject ∧ r.1.nextObject = s.nextObject + 1) t := by
  by_cases hidle : s.closed = false → s.usesCarrierLanes = true → id ≤ maxStreamID →
      s.carrierLanes.get id = none
  · refine wp_mono (pollLane_idle hidle) ?_
    rintro t₁ r ⟨hs, hr⟩
    rw [hs]
    refine ⟨fun _ _ => rfl, rfl, fun m hm => ?_⟩
    rcases hr with hr | hr
    all_goals
      rw [hr] at hm
      cases hm
  simp only [Classical.not_imp] at hidle
  obtain ⟨hopen, hlanes, hid, hne⟩ := hidle
  obtain ⟨l, hl⟩ := Option.ne_none_iff_exists'.mp hne
  refine wp_mono (pollLane_result hopen hlanes hid hl) ?_
  intro t₁ r h
  have harrived : Arrived id l cursor s r.1 r.2 →
      (∀ i, i ≠ id → r.1.carrierLanes.get i = s.carrierLanes.get i) ∧ r.1.closed = s.closed ∧
        ∀ m, r.2 = .parked m → m = s.nextObject ∧ r.1.nextObject = s.nextObject + 1 := by
    rintro ⟨d₁, d', -, -, hnow, hend, hnext, -⟩
    refine ⟨hnow.others, hnow.closed, fun m hm => ⟨?_, hnext⟩⟩
    rw [hm] at hend
    cases hend
    rfl
  cases hcheck : l.down.checkCursor cursor with
  | replay =>
      rw [hcheck] at h
      have hr : r = (s, .batch l.down.unacked l.down.downCursor) := h
      rw [hr]
      exact ⟨fun _ _ => rfl, rfl, by simp⟩
  | mismatch =>
      rw [hcheck] at h
      have hr : r = (s, .failing) := h
      rw [hr]
      exact ⟨fun _ _ => rfl, rfl, by simp⟩
  | acknowledge =>
      rw [hcheck] at h
      exact harrived h
  | current =>
      rw [hcheck] at h
      exact harrived h

/-- Everything but lane `id` and the released lanes is as before. -/
structure Elsewhere (id : ℕ) (s s' : Session) : Prop where
  lanes : ∀ i, i ≠ id → s'.carrierLanes.get i = s.carrierLanes.get i
  closed : s'.closed = s.closed
  nextObject : s'.nextObject = s.nextObject

theorem Elsewhere.refl {id : ℕ} (s : Session) : Elsewhere id s s := ⟨fun _ _ => rfl, rfl, rfl⟩

theorem Elsewhere.setQueue (s : Session) (id object : ℕ) (d : Downlink) :
    Elsewhere id s (s.setQueue (.lane id object) d) := by
  have hl := fun i => s.setQueue_lanes i (.lane id object) d
  obtain ⟨down, lanes, released, he⟩ := s.setQueue_eq (.lane id object) d
  rw [he] at hl ⊢
  refine ⟨fun i hi => ?_, rfl, rfl⟩
  rw [hl]
  cases s.carrierLanes.get i with
  | none => rfl
  | some l =>
      rw [Option.map_some, if_neg]
      intro h
      rw [QueueRef.lane.injEq] at h
      exact hi h.1.symm

theorem Elsewhere.trans {id : ℕ} {s'' : Session} (h : Elsewhere id s s')
    (h' : Elsewhere id s' s'') : Elsewhere id s s'' :=
  ⟨fun i hi => (h'.lanes i hi).trans (h.lanes i hi), h'.closed.trans h.closed,
    h'.nextObject.trans h.nextObject⟩

theorem pollLoop_elsewhere (s : Session) (id object cursor mine : ℕ) :
    wp observer (pollLoop s (.lane id object) cursor mine)
      (fun _ r => Elsewhere id s r.1 ∧ ∀ m, r.2 = .parked m → m = mine) t := by
  unfold pollLoop
  dsimp only
  split_ifs
  · exact ⟨.refl s, by simp⟩
  · exact ⟨.setQueue s id object _, by simp⟩
  · exact ⟨.setQueue s id object _, by simp⟩
  · exact ⟨.setQueue s id object _, by simp⟩
  · exact ⟨.refl s, fun m h => (PollReply.parked.inj h).symm⟩

theorem pollResume_elsewhere (s : Session) (id object cursor mine : ℕ) (wake : Wake) :
    wp observer (pollResume s (.lane id object) cursor mine wake)
      (fun _ r => Elsewhere id s r.1 ∧ ∀ m, r.2 = .parked m → m = mine) t := by
  unfold pollResume
  cases wake with
  | cancelled =>
      dsimp only
      split_ifs
      · exact ⟨.setQueue s id object _, by simp⟩
      · exact ⟨.refl s, by simp⟩
  | superseded => exact ⟨.setQueue s id object _, by simp⟩
  | done =>
      dsimp only
      split_ifs
      · exact ⟨.setQueue s id object _, by simp⟩
      · exact ⟨.refl s, by simp⟩
  | deadline =>
      dsimp only
      split_ifs
      · exact ⟨.setQueue s id object _, by simp⟩
      · exact pollLoop_elsewhere s id object cursor mine
      · exact ⟨.setQueue s id object _, by simp⟩
  | notified =>
      dsimp only
      refine wp_mono (pollLoop_elsewhere _ id object cursor mine) ?_
      intro t₁ r h
      refine ⟨Elsewhere.trans ?_ h.1, h.2⟩
      split_ifs
      · exact .setQueue s id object _
      · exact .refl s

/-- A parked poll gives up without a batch. -/
structure GivesUp (d d' : Downlink) (cursor : ℕ) (wake : Wake) (r : PollReply) : Prop where
  place : d'.place = d.place ∨ d'.place = { d.place with superseded := none }
  reply : r = .empty cursor ∨ r = .cancelled ∧ wake = .cancelled ∨ r = .closed ∧ wake = .done

/-- A poll that was parked at the lane `l` goes on. -/
theorem pollResume_result {id cursor mine : ℕ} {l : CarrierLane} {wake : Wake}
    (hl : s.carrierLanes.get id = some l) :
    wp observer (pollResume s (.lane id l.object) cursor mine wake) (fun _ r =>
      ∃ d', LaneNow id l d' s r.1 ∧ (GivesUp l.down d' cursor wake r.2 ∨
        l.down.superseded = some mine ∧
          (∃ d₁, d₁.place = l.down.place ∧ d₁.pendingFrames = l.down.pendingFrames ∧
            PollEnd s.limits d₁ cursor mine d' r.2) ∧
          (r.2 = .closed → s.closed = true))) t := by
  have hnow := LaneNow.refl hl
  have hset : ∀ d', LaneNow id l d' s (s.setQueue (.lane id l.object) d') :=
    fun d' => hnow.setQueue rfl rfl rfl
  have hkeep : ∀ r : PollReply, (r = .empty cursor ∨ r = .cancelled ∧ wake = .cancelled ∨
      r = .closed ∧ wake = .done) → GivesUp l.down l.down cursor wake r :=
    fun r hr => ⟨.inl rfl, hr⟩
  have hleave : ∀ r : PollReply, (r = .empty cursor ∨ r = .cancelled ∧ wake = .cancelled ∨
      r = .closed ∧ wake = .done) → GivesUp l.down l.down.leave cursor wake r :=
    fun r hr => ⟨.inr rfl, hr⟩
  have hloop : ∀ (s₁ : Session) (d : Downlink), LaneNow id l d s s₁ → d.place = l.down.place →
      d.pendingFrames = l.down.pendingFrames → l.down.superseded = some mine →
      wp observer (pollLoop s₁ (.lane id l.object) cursor mine) (fun _ r =>
        ∃ d', LaneNow id l d' s r.1 ∧ (GivesUp l.down d' cursor wake r.2 ∨
          l.down.superseded = some mine ∧
            (∃ d₁, d₁.place = l.down.place ∧ d₁.pendingFrames = l.down.pendingFrames ∧
            PollEnd s.limits d₁ cursor mine d' r.2) ∧
            (r.2 = .closed → s.closed = true))) t := by
    intro s₁ d h₁ hplace hframes hsup
    have hmine : d.superseded = some mine := (congrArg Place.superseded hplace).trans hsup
    refine wp_mono (pollLoop_end (by rw [h₁.queue]; exact hmine)) ?_
    rintro t₁ r ⟨d', hr, hend, hc⟩
    rw [h₁.queue, h₁.limits] at hend
    refine ⟨d', ?_, .inr ⟨hsup, ⟨d, hplace, hframes, hend⟩, fun he => ?_⟩⟩
    · rcases hr with hr | ⟨hr, hd⟩
      · rw [hr]
        exact h₁.setQueue rfl rfl rfl
      · rw [hr, hd, h₁.queue]
        exact h₁
    · rw [← h₁.closed]
      exact hc he
  unfold pollResume
  cases wake with
  | cancelled =>
      dsimp only
      rw [hnow.queue]
      split_ifs
      · exact ⟨_, hset _, .inl (hleave _ (.inr (.inl ⟨rfl, rfl⟩)))⟩
      · exact ⟨_, hnow, .inl (hkeep _ (.inr (.inl ⟨rfl, rfl⟩)))⟩
  | superseded =>
      rw [hnow.queue]
      exact ⟨_, hset _, .inl ⟨.inl rfl, .inl rfl⟩⟩
  | done =>
      dsimp only
      rw [hnow.queue]
      split_ifs
      · exact ⟨_, hset _, .inl (hleave _ (.inr (.inr ⟨rfl, rfl⟩)))⟩
      · exact ⟨_, hnow, .inl (hkeep _ (.inr (.inr ⟨rfl, rfl⟩)))⟩
  | deadline =>
      dsimp only
      rw [hnow.queue]
      split_ifs with hsup hframes
      · exact ⟨_, hset _, .inl ⟨.inl rfl, .inl rfl⟩⟩
      · exact hloop s _ hnow rfl rfl (not_not.mp hsup)
      · exact ⟨_, hset _, .inl (hleave _ (.inl rfl))⟩
  | notified =>
      dsimp only
      rw [hnow.queue]
      by_cases hsup : l.down.superseded ≠ some mine
      · rw [if_pos hsup]
        have hsignal := hset l.down.signal
        unfold pollLoop
        dsimp only
        rw [hsignal.queue, if_pos (show l.down.signal.superseded ≠ some mine from hsup)]
        exact ⟨_, hsignal, .inl ⟨.inl rfl, .inl rfl⟩⟩
      · rw [if_neg hsup]
        exact hloop s _ hnow rfl rfl (not_not.mp hsup)

/-- Its deadline ends a poll. -/
theorem pollResume_deadline (s : Session) (q : QueueRef) (cursor mine : ℕ) :
    wp observer (pollResume s q cursor mine .deadline) (fun _ r => ∀ m, r.2 ≠ .parked m) t := by
  unfold pollResume
  dsimp only
  by_cases hsup : (s.queue q).superseded ≠ some mine
  · rw [if_pos hsup]
    exact fun m h => by cases h
  by_cases hframes : (s.queue q).pendingFrames ≠ []
  · rw [if_neg hsup, if_pos hframes]
    unfold pollLoop
    dsimp only
    rw [if_neg hsup, if_pos hframes]
    exact fun m h => by cases h
  · rw [if_neg hsup, if_neg hframes]
    exact fun m h => by cases h

/-! ### Where a poll leaves the place -/

/-- A batch is never empty. -/
theorem takeBatch_body_ne_nil {d : Downlink} (hd : ∀ f ∈ d.pendingFrames, f.Well)
    (hne : d.pendingFrames ≠ []) : (d.takeBatch limits).1.body ≠ [] := by
  have hpos := @batchCount_pos limits.carrierBatchBytes _ hne
  unfold Downlink.takeBatch
  dsimp only
  generalize batchCount limits.carrierBatchBytes maxBatchFrames 0 0 d.pendingFrames = count
    at hpos
  obtain ⟨n, rfl⟩ := Nat.exists_eq_succ_of_ne_zero (Nat.pos_iff_ne_zero.mp hpos)
  cases hframes : d.pendingFrames with
  | nil => exact absurd hframes hne
  | cons f rest =>
      rw [List.take_succ_cons, List.flatMap_cons]
      intro hnil
      have hlen := (hd f (by simp [hframes])).length
      rw [(List.append_eq_nil_iff.mp hnil).1] at hlen
      simp only [List.length_nil, headerSize] at hlen
      omega

/-- The place that the loop of a poll leaves. -/
theorem PollEnd.place {d d' : Downlink} {cursor mine : ℕ} {r : PollReply} {p : Place}
    (h : PollEnd limits d cursor mine d' r) (hp : d.place = p) (hunacked : p.unacked = [])
    (hcursor : p.downCursor = cursor) :
    (∃ body, r = .batch body (cursor + 1) ∧ d.pendingFrames ≠ [] ∧
        d'.place = ⟨cursor + 1, cursor, (d.takeBatch limits).1.body, none⟩) ∨
      (r = .closed ∨ r = .laneClosed cursor) ∧ d'.place = { p with superseded := none } ∨
      r = .parked mine ∧ d'.place = p := by
  subst hp
  cases h with
  | batch hframes =>
      refine .inl ⟨_, by rw [← hcursor]; rfl, hframes, ?_⟩
      rw [← hcursor]
      rfl
  | closed => exact .inr (.inl ⟨.inl rfl, rfl⟩)
  | laneClosed => exact .inr (.inl ⟨.inr rfl, rfl⟩)
  | parked => exact .inr (.inr ⟨rfl, rfl⟩)

/-! ### Steps of polls -/

variable {sha256 : Bytes → Bytes} {σ σ' : Traced} {r : PollReply}

theorem Step.of_pollLane {id cursor : ℕ} (h : Step sha256 σ (.pollLane id cursor) (.poll r) σ')
    {post : List Event → Session × PollReply → Prop}
    (hw : wp observer (pollLane σ.session id cursor) post σ.trace) :
    post σ'.trace (σ'.session, r) := by
  refine @Step.of_wp _ _ _ _ _ h (fun t p => ∀ r', p.2 = .poll r' → post t (p.1, r'))
    (fun _ => wp_seq hw ?_) r rfl
  intro t' a ha r' he
  cases he
  exact ha

theorem Step.of_pollResume {q : QueueRef} {cursor mine : ℕ} {wake : Wake}
    (h : Step sha256 σ (.pollResume q cursor mine wake) (.poll r) σ')
    {post : List Event → Session × PollReply → Prop}
    (hw : wp observer (pollResume σ.session q cursor mine wake) post σ.trace) :
    post σ'.trace (σ'.session, r) := by
  refine @Step.of_wp _ _ _ _ _ h (fun t p => ∀ r', p.2 = .poll r' → post t (p.1, r'))
    (fun _ => wp_seq hw ?_) r rfl
  intro t' a ha r' he
  cases he
  exact ha

end TproxyServer
